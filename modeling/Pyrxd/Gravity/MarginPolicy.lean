import Pyrxd.Btc.Timelock

/-!
# The margin policy

`MarginPolicy` and `CrossClockMargin` of the gravity layer: the operator's
figures (margins, block intervals, reorg depths, the value at stake) and the
checks they pass before any gate reads them. A policy that exists has positive
intervals and reorg depths of at least two blocks; `MarginPolicy.sound` is the
list.

The two depths are floored to blocks for the floor check (`normalize_to`), as
the source does; what the gates later make of a seconds-tagged depth is their
affair.
-/

namespace Pyrxd.Gravity

open Pyrxd.Btc

/-! ## Cross-clock margin -/

structure CrossClockMarginFields where
  ethReorgFinalityS : Int
  rxdClaimBurialS : Int
  rxdConfirmSlackS : Int
  roundingSlackS : Int
  ethFinalityStallToleranceS : Int := 0
deriving DecidableEq, Repr

namespace CrossClockMarginFields

/-- One component of the budget. -/
def checkSeconds (name : String) (value : Int) : Except PyErr Unit :=
  refuseIf (value < 0) ("CrossClockMargin." ++ name ++ " must be >= 0")

/-- `CrossClockMargin.__post_init__`. -/
def postInit (f : CrossClockMarginFields) : Except PyErr Unit := do
  checkSeconds "eth_reorg_finality_s" f.ethReorgFinalityS
  checkSeconds "rxd_claim_burial_s" f.rxdClaimBurialS
  checkSeconds "rxd_confirm_slack_s" f.rxdConfirmSlackS
  checkSeconds "rounding_slack_s" f.roundingSlackS
  checkSeconds "eth_finality_stall_tolerance_s" f.ethFinalityStallToleranceS

/-- `total_s`. -/
def totalS (f : CrossClockMarginFields) : Int :=
  f.ethReorgFinalityS + f.rxdClaimBurialS + f.rxdConfirmSlackS +
    f.roundingSlackS +
    f.ethFinalityStallToleranceS

end CrossClockMarginFields

structure CrossClockMargin extends CrossClockMarginFields where
  valid : toCrossClockMarginFields.postInit = .ok ()
deriving DecidableEq

/-! ## Policy -/

/-- `_MIN_REORG_DEPTH_BLOCKS`. -/
def minReorgDepthBlocks : Nat := 2

/-- `_MIN_ETH_FINALIZATION_WINDOW_S`. -/
def minEthFinalizationWindowS : Int := 768

/-- `ESTIMATED_BTC_CLAIM_REORG_DEPTH_BLOCKS` as a lock. -/
def estimatedBtcClaimReorgDepth : Timelock := ⟨6, .blocks, by decide⟩

/-- `ESTIMATED_RXD_CLAIM_BURIAL_BLOCKS` as a lock. -/
def estimatedRxdClaimBurial : Timelock := ⟨6, .blocks, by decide⟩

structure MarginPolicyFields where
  margin : Timelock
  blockIntervalS : ℚ
  isMeasured : Bool
  requireMeasured : Bool := false
  rxdBlockIntervalS : ℚ := 300
  btcClaimReorgDepth : Timelock := estimatedBtcClaimReorgDepth
  rxdClaimBurial : Timelock := estimatedRxdClaimBurial
  rxdReorgCostPerBlock : Option Int := none
  valueAtRiskPhotons : Option Int := none
  burialSafetyFactor : ℚ := 1
  acceptFlatBurial : Bool := false
  ethFinalizationWindowS : Option Int := none
  crossClockMargin : Option CrossClockMargin := none
  maxCovenantConfirmWaitS : Option Int := none

namespace MarginPolicyFields

/-- The safety floor on one reorg depth, in blocks. -/
def checkReorgDepth (label : String) (depth : Timelock) (blockIntervalS : ℚ) :
    Except PyErr Unit := do
  let depthBlocks ← depth.normalizeTo .blocks blockIntervalS
  -- the floored count is compared, so a seconds depth must hold two whole
  -- blocks
  refuseIf (depthBlocks.value < minReorgDepthBlocks)
    ("MarginPolicy." ++ label ++ " = " ++ toString depthBlocks.value ++
      " blk < safety floor " ++
      toString minReorgDepthBlocks ++
      "; a 0/1-block reorg depth defeats the gate (single-block reorgs occur on real chains)")

/-- A photon figure: positive when set. -/
def checkPhotons (label : String) (val : Option Int) : Except PyErr Unit :=
  refuseIf (∃ n ∈ val, n ≤ 0) ("MarginPolicy." ++ label ++
    " must be a positive int (photons) or None")

/-- `MarginPolicy.__post_init__`. -/
def postInit (f : MarginPolicyFields) : Except PyErr Unit := do
  refuseIf (f.blockIntervalS ≤ 0) "MarginPolicy.block_interval_s must be > 0"
  refuseIf (f.rxdBlockIntervalS ≤
    0) "MarginPolicy.rxd_block_interval_s must be > 0"
  checkReorgDepth "btc_claim_reorg_depth" f.btcClaimReorgDepth f.blockIntervalS
  checkReorgDepth "rxd_claim_burial" f.rxdClaimBurial f.blockIntervalS
  refuseIf (f.requireMeasured = true ∧ f.isMeasured = false)
    ("real-value mode (require_measured=True) requires a MEASURED margin; " ++
      "the ESTIMATED default is test-only — supply measured block data + reorg depth")
  checkPhotons "rxd_reorg_cost_per_block" f.rxdReorgCostPerBlock
  checkPhotons "value_at_risk_photons" f.valueAtRiskPhotons
  refuseIf (f.burialSafetyFactor < 1)
    ("MarginPolicy.burial_safety_factor = " ++ toString f.burialSafetyFactor ++
      " < 1.0; a factor " ++
      "below break-even lets a reorg cost LESS than the value it reverses (the attack is profitable)")
  refuseIf (∃ w ∈ f.ethFinalizationWindowS, w ≤ 0)
    "MarginPolicy.eth_finalization_window_s must be a positive int or None"
  refuseIf (∃ w ∈ f.ethFinalizationWindowS, w < minEthFinalizationWindowS)
    ("MarginPolicy.eth_finalization_window_s = " ++
      toString (f.ethFinalizationWindowS.getD 0) ++
      "s < safety floor " ++ toString minEthFinalizationWindowS ++
        "s (~2 post-Merge epochs); a " ++
      "smaller window collapses the finalization reserve in the reorg gate")
  refuseIf (∃ w ∈ f.maxCovenantConfirmWaitS, w < 0)
    "MarginPolicy.max_covenant_confirm_wait_s must be a non-negative int or None"

/-- What the checks guarantee. -/
structure Sound (f : MarginPolicyFields) : Prop where
  blockInterval : 0 < f.blockIntervalS
  rxdBlockInterval : 0 < f.rxdBlockIntervalS
  reorgDepth : ∃ n, f.btcClaimReorgDepth.normalizeTo .blocks f.blockIntervalS =
    .ok n ∧ 2 ≤ n.value
  claimBurial : ∃ n, f.rxdClaimBurial.normalizeTo .blocks f.blockIntervalS =
    .ok n ∧ 2 ≤ n.value
  measured : f.requireMeasured = true → f.isMeasured = true
  cost : ∀ c ∈ f.rxdReorgCostPerBlock, 0 < c
  value : ∀ v ∈ f.valueAtRiskPhotons, 0 < v
  factor : 1 ≤ f.burialSafetyFactor
  window : ∀ w ∈ f.ethFinalizationWindowS, minEthFinalizationWindowS ≤ w
  confirmWait : ∀ w ∈ f.maxCovenantConfirmWaitS, 0 ≤ w

/-- A reorg depth is checked in blocks. -/
theorem checkReorgDepth_ok {label : String} {d : Timelock} {i : ℚ} {u : Unit} :
    checkReorgDepth label d i = .ok u ↔ ∃ n, d.normalizeTo .blocks i = .ok n ∧
    2 ≤ n.value := by
  unfold checkReorgDepth
  rw [bind_ok]
  refine exists_congr fun n => and_congr_right fun _ => ?_
  rw [refuseIf_ok, not_lt]
  rfl

/-- A policy that passes its checks is sound. -/
theorem sound_of_postInit {f : MarginPolicyFields}
    (h : f.postInit = .ok ()) : f.Sound := by
  simp only [postInit, checkPhotons, bind_ok, refuseIf_ok, checkReorgDepth_ok,
    not_exists, not_and,
    exists_and_left, exists_const] at h
  obtain ⟨h1, h2, h3, h4, h5, h6, h7, h8, -, h10, h11⟩ := h
  refine ⟨not_le.mp h1, not_le.mp h2, h3, h4, ?_,
    fun c hc => not_le.mp (h6 c hc),
    fun v hv => not_le.mp (h7 v hv), not_lt.mp h8,
      fun w hw => not_lt.mp (h10 w hw),
    fun w hw => not_lt.mp (h11 w hw)⟩
  intro hr
  simpa using h5 hr

end MarginPolicyFields

/-- A policy that `__post_init__` has accepted. -/
structure MarginPolicy extends MarginPolicyFields where
  valid : toMarginPolicyFields.postInit = .ok ()

theorem MarginPolicy.sound (p : MarginPolicy) : p.toMarginPolicyFields.Sound :=
  MarginPolicyFields.sound_of_postInit p.valid

/-- A measured policy in blocks, for the closed instances of later modules. -/
def samplePolicy : MarginPolicy where
  margin := ⟨36, .blocks, by decide⟩
  blockIntervalS := 600
  isMeasured := true
  valid := by decide

end Pyrxd.Gravity
