import Pyrxd.Agent.Signer
import Pyrxd.Wallet.Select

/-!
# The watch-only builder

`agent/watch_only.py`: an unsigned send and the request to sign it, from an
account's `Xpub` and the UTXOs with their source transactions. The fee is an
estimate from the standard sizes.
-/

namespace Pyrxd.Agent

open Pyrxd.Lib Pyrxd.Tx Pyrxd.Hd Pyrxd.Wallet

/-- `_P2PKH_INPUT_VBYTES`, `_P2PKH_OUTPUT_VBYTES` and `_TX_OVERHEAD_VBYTES`. -/
def p2pkhInputVbytes : Int := 148
def p2pkhOutputVbytes : Int := 34
def txOverheadVbytes : Int := 10

/-- `_INTERNAL_CHAIN`. -/
def internalChain : Int := 1

structure WatchOnlyUtxo where
  txid : String
  vout : Int
  value : Int
  change : Int
  index : Int
  sourceTxHex : String
  positive : 0 < value
  inRange : 0 ≤ vout ∧ 0 ≤ change ∧ 0 ≤ index
  hasSource : sourceTxHex ≠ ""

/-- `UnsignedSend`. -/
structure UnsignedSend where
  transaction : Transaction
  request : SigningRequest
  inputTotal : Int

/-- The unsigned input that spends a UTXO. -/
def WatchOnlyUtxo.unsigned (u : WatchOnlyUtxo) : TransactionInput where
  sourceTxid := some u.txid
  sourceOutputIndex := u.vout
  unlockingScript := some []
  sequence := 0xFFFFFFFF
  satoshis := none
  lockingScript := none
  sighash := sighashAllForkid

/-- `_select`. -/
def select (utxos : List WatchOnlyUtxo)
    (photons perInputFee baseTwoOutputFee : Int) :
    Except PyErr (List WatchOnlyUtxo) := do
  let selected :=
    takeCovering WatchOnlyUtxo.value photons baseTwoOutputFee perInputFee 0 0
    (sortDescending WatchOnlyUtxo.value utxos)
  refuseIf ((selected.map WatchOnlyUtxo.value).sum <
    photons) "Insufficient funds for requested amount"
  return selected

/-- The outputs, and the claim about the second of them. -/
def sendOutputs (recipientScript changeScript : Bytes)
    (photons changeValue changeChain changeIndex : Int) :
    List TransactionOutput × List ChangeClaim :=
  if changeValue ≥ dustThreshold then
    ([⟨recipientScript, some photons⟩, ⟨changeScript, some changeValue⟩],
      [⟨1, changeChain, changeIndex⟩])
  else ([⟨recipientScript, some photons⟩], [])

/-- The entry of the request for the input at `i`. -/
def WatchOnlyUtxo.toSign (u : WatchOnlyUtxo) (i : Nat) : InputToSign where
  inputIndex := i
  change := u.change
  index := u.index
  sourceTxHex := u.sourceTxHex

section Builder

variable {Key Secret : Type} (hd : HdCurve Key Secret)

/-- `WatchOnlyTxBuilder.address`. -/
def watchAddress (acct : Xpub Key) (change index : Int) :
    Except PyErr String := do
  let chain ← acct.ckd hd change
  let child ← chain.ckd hd index
  return child.address hd

/-- `WatchOnlyTxBuilder.build_send`. -/
def buildSend (acct : Xpub Key) (utxos : List WatchOnlyUtxo)
    (toAddress : String)
    (photons changeIndex changeChain feeRate : Int) :
    Except PyErr UnsignedSend := do
  refuseIf (photons ≤ 0) "photons must be > 0"
  refuseIf (photons < dustThreshold) ("photons below dust threshold (" ++
    toString dustThreshold ++ ")")
  refuseIf (validateAddress toAddress =
    false) "to_address is not a valid P2PKH address"
  refuseIf (feeRate ≤ 0) "fee_rate must be a positive int"
  refuseIf (changeIndex < 0) "change_index must be a non-negative int"
  refuseIf (changeChain < 0) "change_chain must be a non-negative int"
  refuseIf (utxos = []) "Insufficient funds: no UTXOs supplied"
  let recipientScript ← lockAddress toAddress
  let changeAddress ← watchAddress hd acct changeChain changeIndex
  let changeScript ← lockAddress changeAddress
  let perInputFee := p2pkhInputVbytes * feeRate
  let baseTwoOutputFee := (txOverheadVbytes + 2 * p2pkhOutputVbytes) * feeRate
  let selected ← select utxos photons perInputFee baseTwoOutputFee
  let totalIn := (selected.map WatchOnlyUtxo.value).sum
  let fee := baseTwoOutputFee + perInputFee * selected.length
  refuseIf (totalIn < photons + fee) "Insufficient funds after fee"
  let changeValue := totalIn - photons - fee
  let (outputs, changeClaims) :=
    sendOutputs recipientScript changeScript photons changeValue
      changeChain changeIndex
  let tx : Transaction := ⟨selected.map WatchOnlyUtxo.unsigned, outputs, 1, 0⟩
  let raw ← tx.serialize
  return ⟨tx, ⟨hex raw, selected.mapIdx fun i u => u.toSign i,
    changeClaims⟩, totalIn⟩

end Builder

end Pyrxd.Agent
