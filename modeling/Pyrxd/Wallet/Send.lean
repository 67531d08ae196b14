import Pyrxd.Gravity.RadiantLeg
import Pyrxd.Hd.Bip32
import Pyrxd.Wallet.Select

/-!
# Sending from a wallet

`build_send_tx` of `RxdWallet` and of `HdWallet`: coins are chosen by an
estimate, and the fee is what a signed trial transaction with two outputs takes.
The two differ in how an input knows its key and in where the change goes; the
trial and the final transaction are written twice in the source and once here.
-/

namespace Pyrxd.Wallet

open Pyrxd.Lib Pyrxd.Tx Pyrxd.Hd
open Pyrxd.Gravity (UtxoRecord)
open Pyrxd.Swap (PrivateKey DraftInput Draft)

/-! ## Inputs and outputs -/

/-- `_make_input`, and `_build_utxo_input` of the HD wallet. -/
def buildUtxoInput {Secret : Type} (utxo : UtxoRecord) (address : String)
    (privkey : PrivateKey Secret) :
    Except PyErr (DraftInput Secret) := do
  refuseIf (utxo.value ≤ 0) "UTXO value must be positive"
  let locking ← lockAddress address
  return {
    input := {
      sourceTxid := some utxo.txHash
      sourceOutputIndex := utxo.txPos
      unlockingScript := none
      sequence := 0xFFFFFFFF
      satoshis := some utxo.value
      lockingScript := some locking
      sighash := sighashAllForkid }
    template := some privkey }

/-- The outputs of a send; change below the dust threshold is burned. -/
def finalOutputs (recipientScript changeScript : Bytes)
    (photons changeValue : Int) : List TransactionOutput :=
  if changeValue ≥ dustThreshold then [⟨recipientScript, some photons⟩,
    ⟨changeScript, some changeValue⟩]
  else [⟨recipientScript, some photons⟩]

/-- `inp.unlocking_script = None`. -/
def unsign {Secret : Type} (t : DraftInput Secret) : DraftInput Secret :=
  { t with input := { t.input with unlockingScript := none } }

/-- The cushions for the fee: `min_input_bytes` for every input, and the
base. -/
def inputCushion (feeRate : Int) : Int := 148 * feeRate
def baseCushion (feeRate : Int) : Int := 80 * feeRate

section Send

variable {Key Secret : Type} (hd : HdCurve Key Secret)

/-- The trial pass: the signed transaction with a placeholder for the change,
and its fee. -/
def trialSend (inputs : List (DraftInput Secret))
    (recipientScript changeScript : Bytes)
    (totalIn photons feeRate : Int) : Except PyErr (Draft Secret × Int) := do
  let trialChange := max dustThreshold (totalIn - photons - baseCushion feeRate)
  let trial ← Swap.sign hd.toCurve
    ⟨inputs, [⟨recipientScript, some photons⟩,
      ⟨changeScript, some trialChange⟩], 1, 0⟩
  let raw ← trial.tx.serialize
  return (trial, raw.length * feeRate)

/-- What both builders do with the coins they have chosen. -/
def finishSend (inputs : List (DraftInput Secret))
    (recipientScript changeScript : Bytes)
    (totalIn photons feeRate : Int) : Except PyErr (Draft Secret) := do
  let (trial, fee) ← trialSend hd inputs recipientScript changeScript totalIn
    photons feeRate
  refuseIf (totalIn < photons + fee) "Insufficient funds after fee"
  let changeValue := totalIn - photons - fee
  Swap.sign hd.toCurve
    ⟨trial.inputs.map unsign,
      finalOutputs recipientScript changeScript photons changeValue, 1, 0⟩

/-! ## `RxdWallet` -/

structure RxdWallet (Secret : Type) where
  privateKey : PrivateKey Secret
  feeRate : Int
  positive : 0 < feeRate

/-- `address`. -/
def RxdWallet.address (w : RxdWallet Secret) : String :=
  base58checkEncode (Network.mainnet.addressPrefix ::
    hd.hash160 (hd.format (hd.publicKey w.privateKey.secret)
      w.privateKey.compressed))

/-- The selection of `RxdWallet.build_send_tx`. -/
def RxdWallet.select (w : RxdWallet Secret) (utxos : List UtxoRecord)
    (photons : Int) :
    Except PyErr (List UtxoRecord) := do
  let selected := takeCovering UtxoRecord.value photons (baseCushion w.feeRate)
    (inputCushion w.feeRate) 0 0 (sortDescending UtxoRecord.value utxos)
  refuseIf ((selected.map UtxoRecord.value).sum <
    photons) "Insufficient funds for requested amount"
  return selected

/-- `RxdWallet.build_send_tx`. -/
def RxdWallet.buildSendTx (w : RxdWallet Secret) (utxos : List UtxoRecord)
    (toAddress : String) (photons : Int) : Except PyErr (Draft Secret) := do
  refuseIf (photons ≤ 0) "photons must be > 0"
  refuseIf (photons < dustThreshold) ("photons below dust threshold (" ++
    toString dustThreshold ++ ")")
  refuseIf (validateAddress toAddress =
    false) "to_address is not a valid P2PKH address"
  refuseIf (utxos = []) "Insufficient funds: no UTXOs supplied"
  let recipientScript ← lockAddress toAddress
  let changeScript ← lockAddress (w.address hd)
  let selected ← w.select utxos photons
  let inputs ← selected.mapM fun u =>
    buildUtxoInput u (w.address hd) w.privateKey
  finishSend hd inputs recipientScript changeScript
    (selected.map UtxoRecord.value).sum photons w.feeRate

/-! ## `HdWallet` -/

/-- `_GAP_LIMIT`. -/
def gapLimit : Nat := 20

/-- What `_next_change_index` reads of a wallet: `internal_tip`, and which
internal indices are marked as used. -/
structure InternalChain where
  tip : Nat
  used : Nat → Bool

/-- `_next_change_index`. -/
def InternalChain.nextChangeIndex (c : InternalChain) : Nat :=
  ((List.range (c.tip + gapLimit)).find? fun i => !c.used i).getD
    (c.tip + gapLimit)

/-- A `(utxo, address, privkey)` triple. -/
structure Triple (Secret : Type) where
  utxo : UtxoRecord
  address : String
  privkey : PrivateKey Secret

def Triple.value (t : Triple Secret) : Int := t.utxo.value

/-- Where the change of `HdWallet.build_send_tx` goes. -/
def changeAddressOf (w : HdWallet Secret) (internal : InternalChain) :
    Option String → Except PyErr String
  | none => w.deriveAddress hd 1 internal.nextChangeIndex
  | some address => do
    refuseIf (validateAddress address =
      false) "change_address is not a valid P2PKH address"
    return address

/-- `HdWallet.build_send_tx`. -/
def hdBuildSendTx (w : HdWallet Secret) (internal : InternalChain)
    (triples : List (Triple Secret))
    (toAddress : String) (photons feeRate : Int)
    (changeAddress : Option String) : Except PyErr (Draft Secret) := do
  refuseIf (photons ≤ 0) "photons must be > 0"
  refuseIf (photons < dustThreshold) ("photons below dust threshold (" ++
    toString dustThreshold ++ ")")
  refuseIf (validateAddress toAddress =
    false) "to_address is not a valid P2PKH address"
  refuseIf (feeRate ≤ 0) "fee_rate must be a positive int"
  refuseIf (triples = []) "Insufficient funds: no UTXOs supplied"
  let changeAddress ← changeAddressOf hd w internal changeAddress
  let sortedTriples := sortDescending Triple.value triples
  let recipientScript ← lockAddress toAddress
  let changeScript ← lockAddress changeAddress
  let nSelected ← greedySelectCount (sortedTriples.map Triple.value) photons
    (baseCushion feeRate) (inputCushion feeRate)
  let selected := sortedTriples.take nSelected
  let inputs ← selected.mapM fun t => buildUtxoInput t.utxo t.address t.privkey
  finishSend hd inputs recipientScript changeScript
    (selected.map Triple.value).sum photons feeRate

end Send

end Pyrxd.Wallet
