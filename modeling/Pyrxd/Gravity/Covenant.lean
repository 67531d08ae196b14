import Pyrxd.Gravity.Transactions

/-!
# Making an offer

`build_gravity_offer` of `gravity/covenant.py`. The two compiled artifacts enter
as what `substitute` makes of their parameters; everything around them is here.
-/

namespace Pyrxd.Gravity

open Pyrxd.Lib Pyrxd.Spv
open Pyrxd.Swap (Curve)

/-- `_MIN_DEADLINE_DELTA`. -/
def minDeadlineDelta : Int := 24 * 3600

/-- `validate_claim_deadline`, at its default distance. -/
def validateClaimDeadline (now claimDeadline : Int) (bypass : Bool) :
    Except PyErr Unit :=
  refuseIf (claimDeadline < now + minDeadlineDelta ∧ bypass = false)
    ("claim_deadline=" ++ toString claimDeadline ++ " is " ++
      toString (now + minDeadlineDelta - claimDeadline) ++ "s short of now+" ++
        toString minDeadlineDelta ++
      "s. A near-past/present deadline lets the Maker race-snipe the Taker's claim " ++
      "(audit 04 finding S1). Pass bypass=True only for test harnesses you control.")

/-- `_nbits_to_target`. -/
def nbitsToTarget (nb : Bytes) : Nat :=
  if exponentOf nb ≤ 3 then mantissaOf nb / 256 ^ (3 - exponentOf nb)
  else mantissaOf nb * 256 ^ (exponentOf nb - 3)

/-- `_DIFFICULTY_1_TARGET`. -/
def difficulty1Target : Nat := nbitsToTarget [0xFF, 0xFF, 0x00, 0x1D]

/-- The constructor parameters of the claimed covenant. -/
structure ClaimedParams where
  makerPkh : Bytes
  takerRadiantPkh : Bytes
  btcReceiveHash : Bytes
  btcReceiveType : ReceiveType
  btcSatoshis : Int
  btcChainAnchor : Bytes
  expectedNBits : Bytes
  expectedNBitsNext : Bytes
  claimDeadline : Int
  totalPhotonsInOutput : Int

/-- The constructor parameters of the offer covenant. -/
structure OfferParams where
  makerPk : Bytes
  takerPk : Bytes
  totalPhotonsInOutput : Int
  expectedClaimedCodeHash : Bytes

/-- `CovenantArtifact.load(name).substitute`, for the two artifacts. -/
structure Artifacts where
  claimed : ClaimedParams → Except PyErr Bytes
  offer : OfferParams → Except PyErr Bytes

/-- One of the two pins against the difficulty floor. -/
def checkFloor (rejectLowDifficulty : Bool) (minDifficultyNbits : Option Bytes)
    (label : String) (nb : Bytes) : Except PyErr Unit := do
  checkNbits nb
  let floorTarget :=
    (minDifficultyNbits.map nbitsToTarget).getD difficulty1Target
  let floorDesc := match minDifficultyNbits with
    | some floor => "the supplied min_difficulty_nbits (" ++ hex floor ++ ")"
    | none => "difficulty-1 (ffff001d)"
  refuseIf (rejectLowDifficulty = true ∧ nbitsToTarget nb ≥ floorTarget)
    (label ++ " " ++ hex nb ++ " decodes to a target at or above the floor (" ++
      floorDesc ++ "): " ++
      "a target this easy lets an attacker mine a fake SPV header chain off the real anchor " ++
      "cheaply. Source min_difficulty_nbits from the live anchor block header, or omit " ++
      "reject_low_difficulty for regtest.")

/-- What `build_gravity_offer` is given. -/
structure OfferArgs where
  makerPkh : Bytes
  makerPk : Bytes
  takerPk : Bytes
  takerRadiantPkh : Bytes
  btcReceiveHash : Bytes
  btcReceiveType : ReceiveType
  btcSatoshis : Int
  btcChainAnchor : Bytes
  expectedNbits : Bytes
  anchorHeight : Int
  merkleDepth : Nat
  claimDeadline : Int
  photonsOffered : Int
  expectedNbitsNext : Option Bytes := none
  acceptShortDeadline : Bool := false
  usedBtcReceiveHashes : Option (List Bytes) := none
  rejectLowDifficulty : Bool := true
  minDifficultyNbits : Option Bytes := none

/-- The checks of the parameters, as far as the two pins. -/
def OfferArgs.check (a : OfferArgs) (now : Int) : Except PyErr Unit := do
  validateClaimDeadline now a.claimDeadline a.acceptShortDeadline
  refuseIf (∃ used ∈ a.usedBtcReceiveHashes, a.btcReceiveHash ∈ used)
    ("btc_receive_hash is already in use by a live offer — reusing it " ++
      "lets one BTC payment finalize multiple offers (cross-offer replay). " ++
      "Derive a fresh BTC receive address per offer.")
  refuseIf (a.makerPkh.length ≠ 20)
    ("maker_pkh must be 20 bytes (Radiant PKH); got " ++
    toString a.makerPkh.length)
  refuseIf (a.makerPk.length ≠ 33)
    ("maker_pk must be 33 bytes (compressed secp256k1 pubkey); got " ++
      toString a.makerPk.length)
  refuseIf (a.takerPk.length ≠ 33)
    ("taker_pk must be 33 bytes (compressed secp256k1 pubkey); got " ++
      toString a.takerPk.length)
  refuseIf (a.takerRadiantPkh.length ≠ 20)
    ("taker_radiant_pkh must be 20 bytes; got " ++
      toString a.takerRadiantPkh.length)
  refuseIf (a.btcReceiveHash.length ≠ a.btcReceiveType.hashLength)
    ("btc_receive_hash for " ++ a.btcReceiveType.name ++ " must be " ++
      toString a.btcReceiveType.hashLength ++
      " bytes; got " ++ toString a.btcReceiveHash.length)
  refuseIf (a.btcChainAnchor.length ≠ 32)
    ("btc_chain_anchor must be 32 bytes (BTC block hash); got " ++
      toString a.btcChainAnchor.length)
  refuseIf (a.expectedNbits.length ≠ 4)
    ("expected_nbits must be 4 bytes (LE nBits); got " ++
      toString a.expectedNbits.length)
  refuseIf (a.btcSatoshis ≤ 0)
    ("btc_satoshis must be > 0; got " ++ toString a.btcSatoshis ++
      ". Negative or zero " ++
      "values would encode as OP_0 / a negative scriptnum in the covenant, " ++
      "producing a redeem that cannot be satisfied by any BTC payment.")
  refuseIf (a.photonsOffered ≤ 0) ("photons_offered must be > 0; got " ++
    toString a.photonsOffered)
  let next := a.expectedNbitsNext.getD a.expectedNbits
  refuseIf (next.length ≠ 4) ("expected_nbits_next must be 4 bytes; got " ++
    toString next.length)
  refuseIf (∃ floor ∈ a.minDifficultyNbits, floor.length ≠ 4)
    ("min_difficulty_nbits must be 4 bytes (wire nBits); got " ++
      toString ((a.minDifficultyNbits.map List.length).getD 0))
  checkFloor a.rejectLowDifficulty a.minDifficultyNbits "expected_nbits"
    a.expectedNbits
  checkFloor a.rejectLowDifficulty a.minDifficultyNbits
    "expected_nbits_next" next

/-- The fields of the offer, with its two scripts. -/
def OfferArgs.fields (a : OfferArgs)
    (offerRedeem claimedRedeem expectedCodeHash : Bytes) : OfferFields where
  btcReceiveHash := a.btcReceiveHash
  btcReceiveType := a.btcReceiveType
  btcSatoshis := a.btcSatoshis
  chainAnchor := a.btcChainAnchor
  anchorHeight := a.anchorHeight
  merkleDepth := a.merkleDepth
  takerRadiantPkh := a.takerRadiantPkh
  claimDeadline := a.claimDeadline
  photonsOffered := a.photonsOffered
  offerRedeemHex := hex offerRedeem
  claimedRedeemHex := hex claimedRedeem
  expectedCodeHashHex := hex expectedCodeHash
  expectedNbits := some a.expectedNbits
  expectedNbitsNext := some (a.expectedNbitsNext.getD a.expectedNbits)

/-- `build_gravity_offer`. -/
def buildGravityOffer {Key Secret : Type} (curve : Curve Key Secret)
    (artifacts : Artifacts) (now : Int)
    (a : OfferArgs) : Except PyErr GravityOffer := do
  a.check now
  let claimedRedeem ← artifacts.claimed {
    makerPkh := a.makerPkh
    takerRadiantPkh := a.takerRadiantPkh
    btcReceiveHash := a.btcReceiveHash
    btcReceiveType := a.btcReceiveType
    btcSatoshis := a.btcSatoshis
    btcChainAnchor := a.btcChainAnchor
    expectedNBits := a.expectedNbits
    expectedNBitsNext := a.expectedNbitsNext.getD a.expectedNbits
    claimDeadline := a.claimDeadline
    totalPhotonsInOutput := a.photonsOffered }
  let expectedCodeHash ← computeP2shCodeHash curve claimedRedeem
  let offerRedeem ← artifacts.offer ⟨a.makerPk, a.takerPk, a.photonsOffered,
    expectedCodeHash⟩
  let h ← postInitOk OfferFields.postInit
    (a.fields offerRedeem claimedRedeem expectedCodeHash)
  return ⟨a.fields offerRedeem claimedRedeem expectedCodeHash, h.down⟩

end Pyrxd.Gravity
