import Pyrxd.Btc.Htlc
import Pyrxd.Spv.Proof
import Pyrxd.Swap.Partial
import Pyrxd.Tx.Base58

/-!
# The covenant's transactions

`gravity/types.py`, `gravity/codehash.py` and `gravity/transactions.py`: the
offer, and the five builders that write their transaction and its signature hash
by hand. `_varint` is `compactSize` here. `ripemd160` and `coincurve` come in
through the `Curve`; the clock is an argument.
-/

namespace Pyrxd.Gravity

open Pyrxd.Lib Pyrxd.Spv Pyrxd.Swap Pyrxd.Tx
open Pyrxd.Btc (compactSize sized)

/-! ## Offers -/

/-- `MIN_CLAIM_DEADLINE`. -/
def minClaimDeadline : Int := 1735686400

/-- `MIN_DEADLINE_FROM_NOW_HOURS`. -/
def minDeadlineFromNowHours : Int := 24

structure OfferFields where
  btcReceiveHash : Bytes
  btcReceiveType : ReceiveType
  btcSatoshis : Int
  chainAnchor : Bytes
  anchorHeight : Int
  merkleDepth : Nat
  takerRadiantPkh : Bytes
  claimDeadline : Int
  photonsOffered : Int
  offerRedeemHex : String
  claimedRedeemHex : String
  expectedCodeHashHex : String
  expectedNbits : Option Bytes := none
  expectedNbitsNext : Option Bytes := none

/-- One of the two optional pins. -/
def checkOfferPin (label : String) : Option Bytes → Except PyErr Unit
  | none => .ok ()
  | some nb => do
    refuseIf (nb.length ≠ 4) (label ++ " must be 4 bytes (wire nBits); got " ++
      toString nb.length)
    checkNbits nb

/-- `GravityOffer.__post_init__`. -/
def OfferFields.postInit (f : OfferFields) : Except PyErr Unit := do
  refuseIf (f.btcSatoshis ≤ 0) "btc_satoshis must be > 0"
  refuseIf (f.chainAnchor.length ≠ 32) "chain_anchor must be 32 bytes"
  refuseIf (f.takerRadiantPkh.length ≠ 20) "taker_radiant_pkh must be 20 bytes"
  refuseIf (f.claimDeadline < minClaimDeadline)
    ("claim_deadline " ++ toString f.claimDeadline ++ " is before minimum (" ++
      toString minClaimDeadline ++
      " = 2025-01-01)")
  refuseIf (f.claimDeadline > 0xFFFFFFFF)
    ("claim_deadline " ++ toString f.claimDeadline ++
      " exceeds uint32 max (4294967295). " ++
      "nLockTime is a 4-byte field; a deadline above this cannot be encoded " ++
      "and build_forfeit_tx would raise OverflowError, locking funds permanently.")
  refuseIf (f.photonsOffered ≤ 0) "photons_offered must be > 0"
  checkOfferPin "expected_nbits" f.expectedNbits
  checkOfferPin "expected_nbits_next" f.expectedNbitsNext

/-- `GravityOffer`: fields that its `__post_init__` accepted. -/
structure GravityOffer extends OfferFields where
  valid : toOfferFields.postInit = .ok ()

/-- `validate_deadline_from_now`. -/
def GravityOffer.validateDeadlineFromNow (offer : GravityOffer) (now : Int)
    (acceptShortDeadline : Bool) :
    Except PyErr Unit :=
  refuseIf (offer.claimDeadline < now + minDeadlineFromNowHours * 3600 ∧
    acceptShortDeadline = false) ("claim_deadline is less than " ++
    toString minDeadlineFromNowHours ++ "h from now. " ++
      "Taker needs time to confirm BTC + build SPV proof + finalize on Radiant. " ++
      "Pass accept_short_deadline=True to override (NOT recommended).")

/-- The fields every builder returns: `CancelResult`, `FinalizeResult` and
`ForfeitResult`. -/
structure SpendResult where
  txHex : String
  txid : String
  txSize : Nat
  feeSats : Int
  outputPhotons : Int

structure MakerOfferResult extends SpendResult where
  offerP2sh : String

structure ClaimResult extends SpendResult where
  offerP2sh : String
  claimedP2sh : String

/-! ## Serialisation -/

/-- `_validate_txid`. -/
def validateTxid (txid : String) : Except PyErr Unit := do
  refuseIf (txid.length ≠ 64)
    ("funding_txid must be 64 hex chars (32 bytes); got " ++
      toString txid.length ++ " chars")
  match Lib.fromHex txid with
  | some _ => .ok ()
  | none =>
    invalid "funding_txid is not valid hex: non-hexadecimal number found in fromhex() arg"

/-- `_validate_fee_sats`. -/
def validateFeeSats (feeSats : Int) : Except PyErr Unit :=
  refuseIf (feeSats < 0) ("fee_sats must be >= 0; got " ++ toString feeSats)

/-- `_push_data`. -/
def pushData (data : Bytes) : Except PyErr Bytes :=
  let n := data.length
  if n = 0 then .ok [0x00]
  else if n ≤ 75 then .ok (UInt8.ofNat n :: data)
  else if n ≤ 255 then .ok (0x4C :: UInt8.ofNat n :: data)
  else if n ≤ 65535 then .ok (0x4D :: leBytes 2 n ++ data)
  else invalid ("push data too large: " ++ toString n ++ " bytes")

/-- `bytes.fromhex(txid)[::-1] + vout.to_bytes(4, "little")`. -/
def fundingOutpoint (txid : String) (vout : Int) : Except PyErr Bytes := do
  let b ← unhex txid
  let index ← toBytesLe 4 vout
  return b.reverse ++ index

/-- `value.to_bytes(8, "little") + _varint(len(spk)) + spk`. -/
def outputBytes (value : Int) (spk : Bytes) : Except PyErr Bytes := do
  let valueB ← toBytesLe 8 value
  let script ← sized spk
  return valueB ++ script

/-- `raw_tx`: version 2, the funding input, the outputs. -/
def rawTx (txid : String) (vout : Int) (scriptSig : Bytes) (sequence : Int)
    (outputs : List Bytes)
    (locktime : Int) : Except PyErr Bytes := do
  let version ← toBytesLe 4 2
  let nIn ← compactSize 1
  let outpoint ← fundingOutpoint txid vout
  let script ← sized scriptSig
  let sequenceB ← toBytesLe 4 sequence
  let nOut ← compactSize outputs.length
  let locktimeB ← toBytesLe 4 locktime
  return version ++ nIn ++ (outpoint ++ script ++ sequenceB) ++ nOut ++
    outputs.flatten ++ locktimeB

def spendResult (raw : Bytes) (feeSats outputPhotons : Int) : SpendResult where
  txHex := hex raw
  txid := hex (hash256 raw).reverse
  txSize := raw.length
  feeSats := feeSats
  outputPhotons := outputPhotons

/-! ## Signing -/

/-- The loop of `_compute_hash_output_hashes`: outputs until the reader is at
its end. Every output takes at least a byte, so the length is fuel enough. -/
def parseOutputs : Nat → Bytes → Except PyErr (List TransactionOutput)
  | _, [] => .ok []
  | 0, _ => invalid "outputs_serialized is truncated or malformed"
  | fuel + 1, r =>
    match TransactionOutput.fromReader r with
    | .error _ => invalid "outputs_serialized is truncated or malformed"
    | .ok (o, r) => do
      let os ← parseOutputs fuel r
      return o :: os

/-- `_compute_hash_output_hashes`. -/
def hashOutputHashes (outputsSerialized : Bytes) : Except PyErr Bytes := do
  let outputs ← parseOutputs outputsSerialized.length outputsSerialized
  computeHashOutputHashes outputs none

variable {Key Secret : Type} (curve : Curve Key Secret)

/-- The digest of `_sign_radiant_p2sh_input`. -/
def radiantSighash (txid : String) (vout inputValue : Int)
    (scriptCode outputsSerialized : Bytes)
    (sequence locktime version : Int) : Except PyErr Bytes := do
  let outpoint ← fundingOutpoint txid vout
  let sequenceB ← toBytesLe 4 sequence
  let outputHashes ← hashOutputHashes outputsSerialized
  let versionB ← toBytesLe 4 version
  let script ← sized scriptCode
  let valueB ← toBytesLe 8 inputValue
  let locktimeB ← toBytesLe 4 locktime
  let sighashType ← toBytesLe 4 sighashAllForkid
  return hash256 (versionB ++ hash256 outpoint ++ hash256 sequenceB ++
    outpoint ++ script ++ valueB ++
    sequenceB ++ outputHashes ++ hash256 outputsSerialized ++
      locktimeB ++ sighashType)

/-- `_sign_radiant_p2sh_input`. -/
def signRadiantP2shInput (privkey : Secret) (txid : String)
    (vout inputValue : Int)
    (scriptCode outputsSerialized : Bytes) (sequence locktime version : Int) :
    Except PyErr Bytes := do
  let digest ← radiantSighash txid vout inputValue scriptCode outputsSerialized
    sequence locktime version
  return curve.sign privkey digest

/-! ## Scripts and addresses -/

/-- `compute_p2sh_script_pubkey`. -/
def computeP2shScriptPubkey (redeemScript : Bytes) : Bytes :=
  [0xA9, 0x14] ++ curve.hash160 redeemScript ++ [0x87]

/-- `compute_p2sh_code_hash`. -/
def computeP2shCodeHash (redeemScript : Bytes) : Except PyErr Bytes := do
  refuseIf (redeemScript = []) "redeem_script must not be empty"
  return hash256 (computeP2shScriptPubkey curve redeemScript)

/-- `compute_p2sh_address_from_redeem`. -/
def computeP2shAddressFromRedeem (redeemScript : Bytes) : String :=
  base58checkEncode (0x05 :: curve.hash160 redeemScript)

/-- `_radiant_address_to_p2pkh_script`. -/
def radiantAddressToP2pkhScript (address : String) : Except PyErr Bytes :=
  match base58checkDecode address with
  | .error _ => invalid ("invalid Radiant address: " ++ address)
  | .ok payload => do
    refuseIf (payload.length ≠ 21) ("invalid address payload length: " ++
      toString payload.length)
    refuseIf (payload.headD 0 ≠ 0x00)
      ("unsupported address version byte: " ++ toString (payload.headD 0))
    return [0x76, 0xA9, 0x14] ++ payload.drop 1 ++ [0x88, 0xAC]

/-! ## Builders -/

/-- The value of the offer output, and the change that is left. -/
def offerAmounts (photonsOffered fundingPhotons feeSats : Int) :
    Option String → Except PyErr (Int × Int)
  | none => do
    let offerPhotons := fundingPhotons - feeSats
    refuseIf (offerPhotons < photonsOffered)
      ("Insufficient funding: offer output would be " ++
        toString offerPhotons ++ " photons, " ++
        "below the covenant floor photons_offered=" ++
          toString photonsOffered ++ ". " ++
        "Need at least " ++ toString (photonsOffered + feeSats) ++ " photons.")
    return (offerPhotons, 0)
  | some _ => do
    let changePhotons := fundingPhotons - feeSats - photonsOffered
    refuseIf (changePhotons < 0)
      ("Insufficient funding: " ++ toString fundingPhotons ++
        " photons cannot cover " ++
        "offer (" ++ toString photonsOffered ++ ") + fee (" ++
          toString feeSats ++ "); need " ++
        toString (photonsOffered + feeSats) ++ " photons.")
    return (photonsOffered, changePhotons)

/-- The change output: an empty `change_address` is falsy, and leaves none. -/
def changeOutputs (changePhotons : Int) (changeAddress : Option String) :
    Except PyErr (List Bytes) :=
  match changeAddress with
  | none => .ok []
  | some address =>
    if changePhotons > 0 ∧ address ≠ "" then do
      let changeSpk ← radiantAddressToP2pkhScript address
      let output ← outputBytes changePhotons changeSpk
      return [output]
    else .ok []

/-- `build_maker_offer_tx`. -/
def buildMakerOfferTx (offer : GravityOffer) (fundingTxid : String)
    (fundingVout fundingPhotons feeSats : Int) (makerPrivkey : Secret)
    (changeAddress : Option String) : Except PyErr MakerOfferResult := do
  validateTxid fundingTxid
  validateFeeSats feeSats
  let offerRedeem ← unhex offer.offerRedeemHex
  let makerPub := curve.format (curve.publicKey makerPrivkey) true
  let scriptCode := [0x76, 0xA9, 0x14] ++ curve.hash160 makerPub ++ [0x88, 0xAC]
  let (offerPhotons, changePhotons) ← offerAmounts offer.photonsOffered
    fundingPhotons feeSats changeAddress
  let offerOutput ← outputBytes offerPhotons
    (computeP2shScriptPubkey curve offerRedeem)
  let change ← changeOutputs changePhotons changeAddress
  let outputs := offerOutput :: change
  let sig ← signRadiantP2shInput curve makerPrivkey fundingTxid fundingVout
    fundingPhotons scriptCode outputs.flatten 0xFFFFFFFF 0 2
  let sigPush ← pushData (sig ++ [0x41])
  let pubPush ← pushData makerPub
  let raw ← rawTx fundingTxid fundingVout (sigPush ++
    pubPush) 0xFFFFFFFF outputs 0
  return ⟨spendResult raw feeSats offerPhotons,
    computeP2shAddressFromRedeem curve offerRedeem⟩

/-- `build_cancel_tx`. -/
def buildCancelTx (offer : GravityOffer) (fundingTxid : String)
    (fundingVout fundingPhotons : Int)
    (makerAddress : String) (feeSats : Int) (makerPrivkey : Secret) :
    Except PyErr SpendResult := do
  validateTxid fundingTxid
  validateFeeSats feeSats
  let offerRedeem ← unhex offer.offerRedeemHex
  let outputPhotons := fundingPhotons - feeSats
  refuseIf (outputPhotons ≤ 0) "fee exceeds funding photons"
  let makerSpk ← radiantAddressToP2pkhScript makerAddress
  let output ← outputBytes outputPhotons makerSpk
  let sig ← signRadiantP2shInput curve makerPrivkey fundingTxid fundingVout
    fundingPhotons offerRedeem
    output 0xFFFFFFFF 0 2
  let sigPush ← pushData (sig ++ [0x41])
  let redeemPush ← pushData offerRedeem
  let raw ← rawTx fundingTxid fundingVout (sigPush ++ [0x00] ++
    redeemPush) 0xFFFFFFFF [output] 0
  return spendResult raw feeSats outputPhotons

/-- `build_claim_tx`. -/
def buildClaimTx (now : Int) (offer : GravityOffer) (fundingTxid : String)
    (fundingVout fundingPhotons feeSats : Int) (takerPrivkey : Secret)
    (acceptShortDeadline : Bool) :
    Except PyErr ClaimResult := do
  validateTxid fundingTxid
  validateFeeSats feeSats
  offer.validateDeadlineFromNow now acceptShortDeadline
  let offerRedeem ← unhex offer.offerRedeemHex
  let claimedRedeem ← unhex offer.claimedRedeemHex
  let actualCodeHash ← computeP2shCodeHash curve claimedRedeem
  let expectedCodeHash ← unhex offer.expectedCodeHashHex
  refuseIf (actualCodeHash ≠ expectedCodeHash)
    ("claimed_redeem_hex does not match offer.expected_code_hash_hex: " ++
      "computed " ++ hex actualCodeHash ++ ", expected " ++
        offer.expectedCodeHashHex ++ ". " ++
      "The on-chain MakerOffer covenant would reject this claim tx.")
  let outputPhotons := fundingPhotons - feeSats
  refuseIf (outputPhotons ≤ 0) "fee exceeds funding photons"
  let output ← outputBytes outputPhotons
    (computeP2shScriptPubkey curve claimedRedeem)
  let sig ← signRadiantP2shInput curve takerPrivkey fundingTxid fundingVout
    fundingPhotons offerRedeem
    output 0xFFFFFFFF 0 2
  let sigPush ← pushData (sig ++ [0x41])
  let redeemPush ← pushData offerRedeem
  let raw ← rawTx fundingTxid fundingVout (sigPush ++ [0x51] ++
    redeemPush) 0xFFFFFFFF [output] 0
  return ⟨spendResult raw feeSats outputPhotons, computeP2shAddressFromRedeem
    curve offerRedeem, computeP2shAddressFromRedeem curve claimedRedeem⟩

/-- The level that pads a branch: skipped by the covenant. -/
def sentinelPad : Bytes := 0x02 :: List.replicate 32 0x00

/-- The script that unlocks the claimed output: headers, branch, transaction,
selector, redeem script. -/
def finalizeScriptSig (headers : List Bytes)
    (paddedBranch paymentTx claimedRedeem : Bytes) :
    Except PyErr Bytes := do
  let headerPushes ← headers.mapM pushData
  let branchPush ← pushData paddedBranch
  let txPush ← pushData paymentTx
  let redeemPush ← pushData claimedRedeem
  return headerPushes.flatten ++ branchPush ++ txPush ++ [0x00] ++ redeemPush

/-- `build_finalize_tx`. -/
def buildFinalizeTx (spvProof : SpvProof)
    (claimedRedeemHex fundingTxid : String)
    (fundingVout fundingPhotons : Int) (toAddress : String)
    (feeSats minimumOutputPhotons : Int)
    (headerSlots branchSlots : Option Int) : Except PyErr SpendResult := do
  validateTxid fundingTxid
  validateFeeSats feeSats
  let claimedRedeem ← unhex claimedRedeemHex
  let outputPhotons := fundingPhotons - feeSats
  refuseIf (outputPhotons ≤ 0) "fee exceeds funding photons"
  refuseIf (minimumOutputPhotons > 0 ∧ outputPhotons < minimumOutputPhotons)
    ("finalize output (" ++ toString outputPhotons ++
      " photons) is below the covenant's " ++
      "totalPhotonsInOutput floor (" ++ toString minimumOutputPhotons ++
        " photons); " ++
      "shortfall: " ++ toString (minimumOutputPhotons - outputPhotons) ++
        " photons. " ++
      "Reduce fee_sats, add a supplemental Maker input, or recreate the " ++
      "MakerOffer with adequate funding (need at least " ++
      toString (minimumOutputPhotons + feeSats) ++
        " photons in the MakerClaimed UTXO).")
  refuseIf (spvProof.rawTx.length > 65535)
    ("BTC payment tx is " ++ toString spvProof.rawTx.length ++
      " bytes; the covenant scriptSig " ++
      "uses OP_PUSHDATA2 (max 65535 bytes). Txs larger than 65535 bytes " ++
      "cannot be finalized via this covenant.")
  let toSpk ← radiantAddressToP2pkhScript toAddress
  let headerSlots := headerSlots.getD spvProof.headers.length
  refuseIf ((spvProof.headers.length : Int) ≠ headerSlots)
    ("spv_proof has " ++ toString spvProof.headers.length ++
      " headers; covenant ABI requires " ++
      "exactly header_slots=" ++ toString headerSlots ++
        ". Fetch more headers after more " ++
      "BTC blocks confirm and rebuild the proof.")
  let branchSlots := branchSlots.getD 20
  let realDepth := spvProof.branch.length / 33
  refuseIf ((realDepth : Int) > branchSlots)
    ("Branch depth " ++ toString realDepth ++
      " exceeds covenant branch_slots=" ++ toString branchSlots ++ ".")
  let paddedBranch := spvProof.branch ++
    (List.replicate (branchSlots - realDepth).toNat sentinelPad).flatten
  let scriptSig ← finalizeScriptSig spvProof.headers paddedBranch
    spvProof.rawTx claimedRedeem
  let output ← outputBytes outputPhotons toSpk
  let raw ← rawTx fundingTxid fundingVout scriptSig 0xFFFFFFFF [output] 0
  return spendResult raw feeSats outputPhotons

/-- `build_forfeit_tx`. -/
def buildForfeitTx (now : Int) (offer : GravityOffer) (fundingTxid : String)
    (fundingVout fundingPhotons : Int) (makerAddress : String) (feeSats : Int) :
    Except PyErr SpendResult := do
  validateTxid fundingTxid
  validateFeeSats feeSats
  refuseIf (offer.claimDeadline > now)
    ("claim_deadline " ++ toString offer.claimDeadline ++ " is " ++
      toString (offer.claimDeadline - now) ++
        "s in the future; forfeit cannot run yet")
  let claimedRedeem ← unhex offer.claimedRedeemHex
  let outputPhotons := fundingPhotons - feeSats
  refuseIf (outputPhotons ≤ 0) "fee exceeds funding photons"
  let makerSpk ← radiantAddressToP2pkhScript makerAddress
  let redeemPush ← pushData claimedRedeem
  let output ← outputBytes outputPhotons makerSpk
  let raw ← rawTx fundingTxid fundingVout (0x51 :: redeemPush) 0xFFFFFFFE
    [output] offer.claimDeadline
  return spendResult raw feeSats outputPhotons

end Pyrxd.Gravity
