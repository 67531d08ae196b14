import Pyrxd.Gravity.Transactions

/-!
# The taker's trade

`GravityTrade.finalize` of `gravity/trade.py`, as far as the broadcast: what it
fetches comes from a `BtcSource`. The warnings about the deadline change nothing
and are left out.
-/

namespace Pyrxd.Gravity

open Pyrxd.Lib Pyrxd.Spv
open Pyrxd.Swap (isTxid)

/-- The replies of the Bitcoin data source. -/
structure BtcSource where
  getTxBlockHeight : String → Except PyErr Int
  getRawTx : String → Int → Except PyErr Bytes
  getMerkleProof : String → Int → Except PyErr (List String × Int)
  getHeaderChain : Int → Int → Except PyErr (List Bytes)

/-- `_find_output_zero_offset`: behind one input with an empty script, or one of
23 bytes. -/
def findOutputZeroOffset (tx : Bytes) : Except PyErr Nat := do
  refuseIf (4 ≥ tx.length) "tx too short: missing input count"
  let inputCount := tx.getD 4 0
  refuseIf (inputCount ≠ 1)
    ("Gravity covenant requires exactly 1 input; got " ++ toString inputCount)
  refuseIf (41 ≥ tx.length) "tx too short: missing scriptSig length"
  let scriptsigLen := tx.getD 41 0
  refuseIf (scriptsigLen ≠ 0 ∧ scriptsigLen ≠ 23)
    ("Unsupported scriptSig length " ++ toString scriptsigLen ++
      "; expected 0 (native segwit) or 23 (P2SH-P2WPKH)")
  let pos := 42 + scriptsigLen.toNat + 4
  refuseIf (pos ≥ tx.length) "tx too short: missing output count"
  refuseIf (tx.getD pos 0 < 1) "tx has no outputs"
  return pos + 1

/-- `BlockHeight(value)`. -/
def blockHeight (value : Int) : Except PyErr Int := do
  refuseIf (value < 0) ("BlockHeight must be >= 0, got " ++ toString value)
  refuseIf (value > 10000000) ("BlockHeight must be <= 10000000, got " ++
    toString value)
  return value

/-- `_resolve_btc_tx_height`. -/
def resolveBtcTxHeight (btc : BtcSource) (txid : String) : Option Int →
    Except PyErr Int
  | some height => blockHeight height
  | none => btc.getTxBlockHeight txid

/-- The `CovenantParams` an offer commits to. -/
def covenantParams (offer : GravityOffer) :
    Except PyErr Spv.CovenantParams := do
  let fields : CovenantFields := {
    btcReceiveHash := offer.btcReceiveHash
    btcReceiveType := offer.btcReceiveType
    btcSatoshis := offer.btcSatoshis
    chainAnchor := offer.chainAnchor
    anchorHeight := offer.anchorHeight
    merkleDepth := offer.merkleDepth
    expectedNbits := offer.expectedNbits
    expectedNbitsNext := offer.expectedNbitsNext }
  let h ← postInitOk CovenantFields.postInit fields
  return ⟨fields, h.down⟩

/-- `GravityTrade.finalize`, up to the broadcast of what it returns. -/
def finalize (btc : BtcSource) (minBtcConfirmations : Int) (btcTxid : String)
    (offer : GravityOffer)
    (claimedTxid : String) (claimedVout claimedPhotons : Int)
    (takerAddress : String) (feeSats : Int)
    (btcTxHeight : Option Int) : Except PyErr SpendResult := do
  refuseIf (isTxid btcTxid = false)
    ("Txid must be 64 lowercase hex chars (got length " ++
      toString btcTxid.length ++ ")")
  let height ← resolveBtcTxHeight btc btcTxid btcTxHeight
  let rawTx ← btc.getRawTx btcTxid minBtcConfirmations
  let (merkleHashes, pos) ← btc.getMerkleProof btcTxid height
  let startHeight ← blockHeight (offer.anchorHeight + 1)
  let count := height - offer.anchorHeight
  refuseIf (count < 1)
    ("btc_tx_height " ++ toString height ++ " must be > anchor_height " ++
      toString offer.anchorHeight)
  refuseIf (count > offer.merkleDepth + 100)
    ("header chain too long (" ++ toString count ++
      "); check anchor_height and btc_tx_height")
  let headersRaw ← btc.getHeaderChain startHeight count
  if headersRaw =
      [] then .error (.other "BTC source returned empty header chain") else
  let stripped ← stripWitness rawTx
  let outputOffset ← findOutputZeroOffset stripped
  refuseIf (offer.expectedNbits = none)
    ("offer.expected_nbits is None — the committed BTC difficulty pin is missing, so the " ++
      "Python SPV verifier cannot mirror the covenant's nBits check. Rebuild the offer via " ++
      "build_gravity_offer (which always sets it) or restore expected_nbits/expected_nbits_next " ++
      "when deserializing a persisted offer. finalize() refuses to run with the pin disabled.")
  let params ← covenantParams offer
  let spvProof ← build params btcTxid (hex stripped)
    (headersRaw.map hex) merkleHashes pos outputOffset
    (some height)
  buildFinalizeTx spvProof offer.claimedRedeemHex claimedTxid claimedVout
    claimedPhotons takerAddress feeSats offer.photonsOffered none none

end Pyrxd.Gravity
