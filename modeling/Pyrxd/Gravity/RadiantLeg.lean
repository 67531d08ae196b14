import Pyrxd.Gravity.Coordinator
import Pyrxd.Gravity.HtlcBinds
import Pyrxd.Swap.PartialSafety

/-!
# The Radiant leg

`RadiantCovenantLeg` and `RadiantChainIO` of `gravity/radiant_leg.py`, with the
spend builders of `gravity/htlc_spend.py`: the leg derives the covenant from the
terms, looks its output up in the chain client's list, and builds the claim or
the refund.

The client and the fee source are asked at most once each by a call, so what
they answer is a function of the question (`RadiantClient`).
-/

namespace Pyrxd.Gravity

open Pyrxd.Lib Pyrxd.Tx Pyrxd.Swap

/-! ## The covenant of the terms -/

/-- The keys a `RadiantCovenantLeg` is set up with, and the depth it waits
for. -/
structure RadiantCovenantLeg where
  takerPkh : Bytes
  makerPkh : Bytes
  minConfirmations : Int := 1
  ofTakerPkh : takerPkh.length = 20
  ofMakerPkh : makerPkh.length = 20
  ofMinConfirmations : 0 ≤ minConfirmations

namespace RadiantCovenantLeg

/-- The builder arguments of the terms. -/
def params (leg : RadiantCovenantLeg) (terms : NegotiatedTerms)
    (asset : CovenantAsset) : CovenantParams where
  asset
  amount := terms.radiantAmount
  takerPkh := leg.takerPkh
  makerPkh := leg.makerPkh
  hashlock := terms.hashlock
  refundCsv := terms.tRxd.value

/-- `_build_covenant`. -/
def buildCovenant (leg : RadiantCovenantLeg) (terms : NegotiatedTerms) :
    Except PyErr HtlcCovenant := do
  refuseIf (terms.tRxd.unit ≠ .blocks)
    "Radiant leg requires a BLOCKS t_rxd (no SECONDS CSV encoding); fail-closed"
  let cov ← (
    match terms.assetVariant with
    | .rxd => (leg.params terms .rxd).build
    | .ft => do
      let ref ← GlyphRef.fromBytes terms.genesisRef
      (leg.params terms (.ft ref.txid ref.vout)).build
    | .nft => do
      let ref ← GlyphRef.fromBytes terms.genesisRef
      (leg.params terms (.nft ref.txid ref.vout)).build)
  refuseIf (cov.expectedTakerHash ≠ terms.takerDestHash)
    "covenant taker hash != terms.taker_dest_hash (wrong taker pkh?); fail-closed"
  refuseIf (cov.expectedMakerHash ≠ terms.makerDestHash)
    "covenant maker hash != terms.maker_dest_hash (wrong maker pkh?); fail-closed"
  return cov

/-- `expected_covenant_scriptpubkey`. -/
def expectedCovenantScriptpubkey (leg : RadiantCovenantLeg)
    (terms : NegotiatedTerms) :
    Except PyErr Bytes := do
  let cov ← leg.buildCovenant terms
  return cov.fundedSpk

end RadiantCovenantLeg

/-! ## The chain -/

structure UtxoRecord where
  txHash : String
  txPos : Int
  value : Int
  height : Int
deriving DecidableEq

/-- `f"{u.tx_hash}:{u.tx_pos}"`. -/
def UtxoRecord.outpoint (u : UtxoRecord) : String :=
  u.txHash ++ ":" ++ toString u.txPos

structure FeeInput where
  txid : String
  vout : Int
  value : Int
  scriptpubkey : Bytes
  wif : String
  ofTxid : txid.length = 64 ∧ (fromHex txid).isSome
  ofVout : 0 ≤ vout
  ofValue : 0 < value
  ofScriptpubkey : scriptpubkey ≠ []

/-- The chain client and the fee source. -/
structure RadiantClient where
  getUtxos : Bytes → Except PyErr (List UtxoRecord)
  getTransactionVerbose : String → Except PyErr PyVal
  nextFeeInput : Except PyErr FeeInput
  broadcast : Bytes → Except PyErr String

namespace RadiantClient

/-- `RadiantChainIO.find_covenant_utxo`, with a value to expect. -/
def findCovenantUtxo (client : RadiantClient) (spk : Bytes)
    (expectedValue : Int) :
    Except PyErr (String × Int × Int) := do
  let utxos ← client.getUtxos (sha256 spk).reverse
  if utxos = [] then
    .error (.other
      "no UTXO found for the covenant scriptPubKey (not yet funded / wrong SPK)")
  else
    match utxos.filter (·.value = expectedValue) with
    | [] =>
      .error (.other
        "no covenant UTXO matches the expected carrier value; fail-closed")
    | [u] => .ok (u.outpoint, u.value, u.height)
    | us => .error (.other ("ambiguous covenant UTXO set (" ++ toString us.length ++
        " candidates); fail-closed"))

/-- `RadiantChainIO.confirmations`. -/
def confirmations (client : RadiantClient) (txid : String) :
    Except PyErr Int := do
  let info ← client.getTransactionVerbose txid
  match info with
  | .dict _ =>
    let confs ← info.get "confirmations" (.int 0)
    if confs.truthy then confs.toInt else .ok 0
  | _ => .error (.other "get_transaction_verbose did not return a dict")

end RadiantClient

/-! ## Spends -/

/-- `s.split(":")` at a single colon. -/
def splitColon (s : String) : String × String :=
  (String.ofList (s.toList.takeWhile (· ≠ ':')),
    String.ofList ((s.toList.dropWhile (· ≠ ':')).drop 1))

/-- `_validate_outpoint`. -/
def validateOutpoint (outpoint : String) : Except PyErr (String × Int) := do
  refuseIf (outpoint.toList.count ':' ≠
    1) "covenant_outpoint must be 'txid:vout'"
  let (txid, voutS) := splitColon outpoint
  refuseIf (txid.length ≠ 64) "covenant_outpoint txid must be 64-char hex"
  refuseIf (fromHex txid = none) "covenant_outpoint txid must be hex"
  match PyVal.intOfStr voutS with
  | none => invalid "covenant_outpoint vout must be an int"
  | some vout =>
    refuseIf (vout < 0) "covenant_outpoint vout must be non-negative"
    return (txid, vout)

/-- `_check_carrier`. -/
def checkCarrier (carrierValue : Int) (fee : FeeInput) : Except PyErr Int := do
  refuseIf (carrierValue ≤ 0)
    "carrier_value (the funded covenant output value) must be a positive int"
  refuseIf (fee.value <
    546) "fee input is below the dust floor; it cannot pay a relay fee"
  return carrierValue

/-- What signs the fee input: the curve library, and the reading of a WIF. -/
structure FeeSigner (Key Secret : Type) where
  curve : Curve Key Secret
  fromWif : String → Except PyErr (PrivateKey Secret)

section Build

variable {Key Secret : Type} (signer : FeeSigner Key Secret)

/-- `_fee_input`, before it is signed. -/
def feeInput (fee : FeeInput) (sequence : Int) : TransactionInput where
  sourceTxid := some fee.txid
  sourceOutputIndex := fee.vout
  unlockingScript := none
  sequence
  satoshis := some fee.value
  lockingScript := some fee.scriptpubkey
  sighash := sighashAllForkid

/-- The covenant input; its template only pushes. -/
def covenantInput (covenant : HtlcCovenant) (txid : String) (vout value : Int)
    (unlocking : Bytes)
    (sequence : Int) : TransactionInput where
  sourceTxid := some txid
  sourceOutputIndex := vout
  unlockingScript := some unlocking
  sequence
  satoshis := some value
  lockingScript := some covenant.fundedSpk
  sighash := sighashAllForkid

/-- Both inputs and the one output, signed. -/
def signSpend (key : PrivateKey Secret) (covIn feeIn : TransactionInput)
    (holder : Bytes) (value : Int)
    (version : Int) : Except PyErr Transaction := do
  let draft ← sign signer.curve {
    inputs := [⟨covIn, none⟩, ⟨feeIn, some key⟩]
    outputs := [⟨holder, some value⟩]
    version
    locktime := 0 }
  return draft.tx

/-- `build_htlc_claim_tx`. -/
def buildHtlcClaimTx (covenant : HtlcCovenant) (covenantOutpoint : String)
    (carrierValue : Int)
    (preimage : Bytes) (fee : FeeInput) : Except PyErr Transaction := do
  refuseIf (preimage.length ≠ 32) "preimage must be 32 bytes"
  refuseIf (sha256 preimage ≠ covenant.hashlock)
    "preimage does not hash to the covenant hashlock; refusing to build claim"
  let value ← checkCarrier carrierValue fee
  let (txid, vout) ← validateOutpoint covenantOutpoint
  let covIn := covenantInput covenant txid vout value (pushBytes preimage ++
    [0x00]) 0xFFFFFFFF
  let key ← signer.fromWif fee.wif
  signSpend signer key covIn (feeInput fee 0xFFFFFFFF)
    covenant.takerHolderScript value 1

/-- `build_htlc_refund_tx`. -/
def buildHtlcRefundTx (covenant : HtlcCovenant) (covenantOutpoint : String)
    (carrierValue : Int)
    (fee : FeeInput) : Except PyErr Transaction := do
  let value ← checkCarrier carrierValue fee
  let (txid, vout) ← validateOutpoint covenantOutpoint
  let covIn := covenantInput covenant txid vout value [0x51] covenant.refundCsv
  let key ← signer.fromWif fee.wif
  signSpend signer key covIn (feeInput fee 0xFFFFFFFE)
    covenant.makerHolderScript value 2

/-! ## The leg's calls -/

/-- `RadiantChainIO.broadcast`, and `_broadcast` of the leg. -/
def RadiantClient.send (client : RadiantClient) (tx : Transaction) :
    Except PyErr String := do
  let raw ← tx.serialize
  match client.broadcast raw with
  | .ok txid => .ok txid
  | .error (.base m) => .error (.base m)
  | .error e =>
    let msg := e.text.toLower.toList
    let mentions (w : String) : Bool := msg.tails.any w.toList.isPrefixOf
    -- the node has it already
    if mentions "already" && (mentions "known" || mentions "mempool" ||
      mentions "chain") then tx.txid
    else .error (.other ("radiant broadcast failed: " ++ e.text))

namespace RadiantCovenantLeg

variable (leg : RadiantCovenantLeg) (client : RadiantClient)
  (record : SwapRecord)

/-- `_resolve_covenant`. -/
def resolveCovenant : Except PyErr (HtlcCovenant × String × Int) := do
  let cov ← leg.buildCovenant record.terms
  let (outpoint, value,
    _) ← client.findCovenantUtxo cov.fundedSpk record.terms.radiantAmount
  let confs ← client.confirmations (splitColon outpoint).1
  if confs < leg.minConfirmations then
    .error (.other ("covenant has " ++ toString confs ++
      " confirmations < required " ++
      toString leg.minConfirmations ++ "; not yet spendable"))
  else if value ≤ 0 then
    .error (.other "covenant output value is non-positive; fail-closed")
  else return (cov, outpoint, value)

/-- The spend `claim_asset` builds. -/
def claimTx (preimage : Bytes) : Except PyErr Transaction := do
  let (cov, outpoint, carrier) ← leg.resolveCovenant client record
  let fee ← client.nextFeeInput
  buildHtlcClaimTx signer cov outpoint carrier preimage fee

/-- `claim_asset`. -/
def claimAsset (preimage : Bytes) : Except PyErr String := do
  let tx ← leg.claimTx signer client record preimage
  client.send tx

/-- The spend `refund_asset` builds. -/
def refundTx : Except PyErr Transaction := do
  let (cov, outpoint, carrier) ← leg.resolveCovenant client record
  let fee ← client.nextFeeInput
  buildHtlcRefundTx signer cov outpoint carrier fee

/-- `refund_asset`. -/
def refundAsset : Except PyErr String := do
  let tx ← leg.refundTx signer client record
  client.send tx

end RadiantCovenantLeg

end Build

end Pyrxd.Gravity
