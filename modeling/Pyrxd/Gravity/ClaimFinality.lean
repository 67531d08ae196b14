import Pyrxd.Gravity.MarginPolicy

/-!
# The reorg gate on the taker's asset claim

`gravity/finality.py` (the counter-leg verdict) and the pure gates of
`gravity/swap_coordinator.py` that read it: `assess_claim_finality`, the
refund-window predicate, and the cross-clock funding gate of
`gravity/eth_rxd_timelock.py`.

Heights and counts arrive as Python ints of any sign and are checked where the
source checks them; a value that is not an int at all fails the same checks with
the same error, so a negative int stands for it.

A reserve is the ceiling of a quotient of floats, and so of a double: one that
lies just above a whole number of blocks can be rounded onto it. The
value-scaled burial alone is computed over exact fractions.

`assessClaimFinality_eq` is the spec the later modules use: with evaluable
heights and a block-tagged `t_rxd`, the gate is a comparison of `blocksLeft`
against the burial and the counter-leg reserve.
-/

namespace Pyrxd.Gravity

open Pyrxd.Btc Pyrxd.Lib

/-! ## The counter-leg verdict -/

inductive CounterClaimState where
  | final
  | notYetFinalLive
  | counterChainNotFinalizing
deriving DecidableEq, Repr

/-- A counter-leg claim's verdict; the two counts are present on a depth-based
leg only, and `__post_init__` keeps them non-negative. -/
structure CounterClaimFinality where
  state : CounterClaimState
  confirmations : Option Nat := none
  requiredDepth : Option Nat := none
deriving DecidableEq, Repr

namespace CounterClaimFinality

/-- The PoW adapter: final iff deep enough. -/
def fromBtcDepth (confirmations requiredDepth : Int) :
    Except PyErr CounterClaimFinality := do
  refuseIf (confirmations < 0) "confirmations must be a non-negative int"
  refuseIf (requiredDepth < 0) "required_depth must be a non-negative int"
  return {
    state := if confirmations ≥ requiredDepth then .final else .notYetFinalLive
    confirmations := some confirmations.toNat
    requiredDepth := some requiredDepth.toNat }

def remainingPositive (v : CounterClaimFinality) : Bool :=
  match v.confirmations, v.requiredDepth with
  | some c, some d => d > c
  | _, _ => true

/-- A burial depth is final from the required depth on. -/
theorem fromBtcDepth_ok {c d : Int} {v : CounterClaimFinality} :
    fromBtcDepth c d = .ok v ↔ 0 ≤ c ∧ 0 ≤ d ∧
      v = ⟨if c ≥ d then .final else .notYetFinalLive, some c.toNat,
        some d.toNat⟩ := by
  simp [fromBtcDepth, bind_ok, refuseIf_ok, eq_comm (a := v)]

end CounterClaimFinality

/-! ## The refund window -/

/-- `taker_refund_window_open`. -/
def takerRefundWindowOpen (nowBlockHeight assetLockedAtHeight : Int)
    (tRxd : Timelock)
    (safetyWindowBlocks : Int) (makerHasClaimedBtc : Bool)
    (blockIntervalS : ℚ := 600) :
    Except PyErr Bool := do
  if makerHasClaimedBtc then return false
  refuseIf (nowBlockHeight < 0) "now_block_height must be a non-negative int"
  refuseIf (assetLockedAtHeight <
    0) "asset_locked_at_height must be a non-negative int"
  refuseIf (safetyWindowBlocks <
    0) "safety_window_blocks must be a non-negative int"
  let rxdBlocks ← tRxd.normalizeTo .blocks blockIntervalS
  -- where the maker's CSV refund opens; the window is its last N blocks, and
  -- after
  let maturity := assetLockedAtHeight + rxdBlocks.value
  return nowBlockHeight ≥ maturity - safetyWindowBlocks

/-! ## The claim gate -/

inductive ClaimFinality where
  | safe
  | wait
  | squeezed
deriving DecidableEq, Repr

/-- `_value_scaled_burial_blocks`. -/
def valueScaledBurialBlocks (policy : MarginPolicy)
    (valueAtRiskPhotons : Option Int) : Int :=
  match policy.rxdReorgCostPerBlock, valueAtRiskPhotons with
  | some cost, some value => ⌈(value : ℚ) * policy.burialSafetyFactor / cost⌉
  | _, _ => 0

/-- `_reserve_to_blocks`: a reserve rounds up. -/
def reserveToBlocks (reserve : Timelock) (blockIntervalS : ℚ) : Int :=
  match reserve.unit with
  | .blocks => reserve.value
  | .seconds => ⌈quotDouble reserve.value blockIntervalS⌉

/-- The value the gate scales by: the per-assessment one, else the policy's. -/
def effectiveValue (policy : MarginPolicy)
    (valueAtRiskPhotons : Option Int) : Option Int :=
  match valueAtRiskPhotons with
  | some v => some v
  | none => policy.valueAtRiskPhotons

/-- The burial the taker's own claim needs. -/
def rxdBurial (policy : MarginPolicy) (valueAtRiskPhotons : Option Int) : Int :=
  max (reserveToBlocks policy.rxdClaimBurial policy.blockIntervalS)
    (valueScaledBurialBlocks policy (effectiveValue policy valueAtRiskPhotons))

/-- The error for a verdict that was built at another depth. -/
def depthMismatch (verdictDepth : Nat) (requiredDepthBlocks : Int) : String :=
  "finality verdict required_depth (" ++ toString verdictDepth ++
    ") != policy reorg depth (" ++
    toString requiredDepthBlocks ++
      ") — refusing to assess on a divergent reserve"

/-- The RXD blocks that waiting for counter-leg finality may take. -/
def counterReserveRxd (verdict : CounterClaimFinality) (policy : MarginPolicy) :
    Except PyErr Int := do
  let requiredDepthBlocks :=
    reserveToBlocks policy.btcClaimReorgDepth policy.blockIntervalS
  match verdict.requiredDepth with
  | some d =>
    -- a verdict built at another depth would be reserved for at the wrong one
    refuseIf ((d : Int) ≠ requiredDepthBlocks)
      (depthMismatch d requiredDepthBlocks)
    return ⌈toDouble (mulDouble requiredDepthBlocks policy.blockIntervalS /
      policy.rxdBlockIntervalS)⌉
  | none =>
    match policy.ethFinalizationWindowS with
    | none =>
      invalid ("a finalized-checkpoint (no-depth) finality verdict requires " ++
        "policy.eth_finalization_window_s (the counter-chain finalization window)")
    | some w => return ⌈quotDouble w policy.rxdBlockIntervalS⌉

/-- `assess_claim_finality`. -/
def assessClaimFinality (counterClaimFinality : CounterClaimFinality)
    (nowRxdHeight assetLockedAtHeight : Int) (tRxd : Timelock)
    (policy : MarginPolicy)
    (valueAtRiskPhotons : Option Int := none) : Except PyErr ClaimFinality := do
  refuseIf (nowRxdHeight <
    0) "now_rxd_height must be a non-negative int (fail-closed)"
  refuseIf (assetLockedAtHeight < 0)
    "asset_locked_at_height must be a non-negative int (fail-closed)"
  refuseIf (nowRxdHeight < assetLockedAtHeight)
    ("now_rxd_height (" ++ toString nowRxdHeight ++
      ") < asset_locked_at_height (" ++
      toString assetLockedAtHeight ++
      ") is impossible on an honest chain (lagging/lying node); fail-closed")
  let rxdBlocks ← tRxd.normalizeTo .blocks policy.blockIntervalS
  -- value-scaling configured, nothing to scale by: never a value-blind SAFE
  if policy.rxdReorgCostPerBlock ≠ none ∧
      effectiveValue policy valueAtRiskPhotons = none then
    return .squeezed
  let refundOpensAt := assetLockedAtHeight + rxdBlocks.value
  let blocksLeft := refundOpensAt - nowRxdHeight
  match counterClaimFinality.state with
  | .counterChainNotFinalizing => return .squeezed
  | .final =>
    return if blocksLeft ≥ rxdBurial policy valueAtRiskPhotons then .safe
      else .squeezed
  | .notYetFinalLive =>
    -- waiting out the counter leg takes Radiant blocks, and the burial must fit
    -- after that
    let reserve ← counterReserveRxd counterClaimFinality policy
    return if blocksLeft - reserve ≥ rxdBurial policy valueAtRiskPhotons ∧
        counterClaimFinality.remainingPositive = true then .wait else .squeezed

/-! ## What the gate decides -/

/-- Blocks until the maker's CSV refund opens. -/
def blocksLeft (nowRxdHeight assetLockedAtHeight : Int)
    (tRxd : Timelock) : Int :=
  assetLockedAtHeight + tRxd.value - nowRxdHeight

/-- A value is configured to be scaled by and there is none. -/
def ValueBlind (policy : MarginPolicy)
    (valueAtRiskPhotons : Option Int) : Prop :=
  policy.rxdReorgCostPerBlock ≠ none ∧
    effectiveValue policy valueAtRiskPhotons = none

instance (policy : MarginPolicy) (v : Option Int) :
    Decidable (ValueBlind policy v) :=
  inferInstanceAs (Decidable (_ ∧ _))

section Gate

variable {v : CounterClaimFinality} {now lock : Int} {tRxd : Timelock}
  {p : MarginPolicy}
  {val : Option Int}

/-- With evaluable heights and a block-tagged `t_rxd`, the gate reads off as a
comparison. -/
theorem assessClaimFinality_eq (hnow : 0 ≤ now) (hlock : 0 ≤ lock)
    (hle : lock ≤ now)
    (hu : tRxd.unit = .blocks) :
    assessClaimFinality v now lock tRxd p val =
      if ValueBlind p val then .ok .squeezed
      else match v.state with
        | .counterChainNotFinalizing => .ok .squeezed
        | .final =>
          .ok (if blocksLeft now lock tRxd ≥ rxdBurial p val then .safe
            else .squeezed)
        | .notYetFinalLive => counterReserveRxd v p >>= fun reserve =>
          .ok (if blocksLeft now lock tRxd - reserve ≥ rxdBurial p val ∧
            v.remainingPositive = true then .wait else .squeezed) := by
  unfold assessClaimFinality refuseIf
  rw [if_neg (by omega), if_neg (by omega), if_neg (by omega),
    Timelock.normalizeTo_blocks p.sound.blockInterval hu]
  rfl

/-- A gate that answered had evaluable heights. -/
theorem assessClaimFinality_heights {c : ClaimFinality}
    (h : assessClaimFinality v now lock tRxd p val = .ok c) :
    0 ≤ lock ∧ lock ≤ now := by
  simp only [assessClaimFinality, bind_ok, refuseIf_ok] at h
  obtain ⟨-, h1, -, h2, -, h3, -⟩ := h
  omega

/-- SAFE is said of a final verdict with the burial still fitting, and of
nothing else. -/
theorem assessClaimFinality_safe_iff (hu : tRxd.unit = .blocks) :
    assessClaimFinality v now lock tRxd p val = .ok .safe ↔
      0 ≤ lock ∧ lock ≤ now ∧ v.state = .final ∧ ¬ ValueBlind p val ∧
        rxdBurial p val ≤ blocksLeft now lock tRxd := by
  constructor
  · intro h
    obtain ⟨h0, h1⟩ := assessClaimFinality_heights h
    rw [assessClaimFinality_eq (by omega) h0 h1 hu] at h
    split at h
    · simp at h
    · next hb =>
      cases hs : v.state with
      | counterChainNotFinalizing => simp [hs] at h
      | final =>
        simp only [hs, Except.ok.injEq] at h
        split at h
        · next hge => exact ⟨h0, h1, rfl, hb, hge⟩
        · simp at h
      | notYetFinalLive =>
        simp only [hs, bind_ok] at h
        obtain ⟨r, -, h⟩ := h
        simp only [Except.ok.injEq] at h
        split at h <;> simp at h
  · rintro ⟨h0, h1, hs, hb, hge⟩
    rw [assessClaimFinality_eq (by omega) h0 h1 hu, if_neg hb, hs]
    simp only [if_pos (ge_iff_le.mpr hge)]

end Gate

/-! ## The cross-clock funding gate -/

/-- `math.ceil` of an int times a float; the product may be an infinity. -/
def ceilProduct (n : Int) (r : ℚ) : Except PyErr Int :=
  if Overflows (toDouble n * r) then .error
    (.other "cannot convert float infinity to integer")
  else .ok ⌈mulDouble n r⌉

/-- `assert_covenant_confirms_before_eth_deadline`. -/
def assertCovenantConfirmsBeforeEthDeadline (nowUnixS ethTimeoutUnixS : Int)
    (margin : CrossClockMargin) (tRxd : Timelock) (rxdBlockIntervalS : ℚ)
    (maxCovenantConfirmWaitS : Int) : Except PyErr Unit := do
  refuseIf (tRxd.unit ≠ .blocks) "t_rxd must be a BLOCKS Timelock"
  refuseIf (rxdBlockIntervalS ≤ 0) "rxd_block_interval_s must be > 0"
  refuseIf (maxCovenantConfirmWaitS <
    0) "max_covenant_confirm_wait_s must be >= 0"
  -- Radiant opens as late as it can, against the ETH deadline brought forward
  -- by the margin
  let deadlineS := ethTimeoutUnixS - margin.totalS
  let windowS ← ceilProduct tRxd.value rxdBlockIntervalS
  let projectedRxdOpenS := nowUnixS + maxCovenantConfirmWaitS + windowS
  refuseIf (projectedRxdOpenS ≥ deadlineS)
    ("covenant would confirm too late: projected RXD refund opens at " ++
      toString projectedRxdOpenS ++ " >= ETH-deadline-minus-margin " ++
        toString deadlineS ++
      " — refusing to lock RXD (SC-3/TLK-1 mixed-clock race)")

end Pyrxd.Gravity
