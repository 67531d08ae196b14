import Mathlib.Tactic.Linarith
import Mathlib.Tactic.Ring
import Mathlib.Tactic.FieldSimp
import Mathlib.Tactic.NormNum
import Pyrxd.Gravity.MarginPolicy

/-!
# The cross-chain margin check

`assert_timelock_margin` compares three block counts: `t_btc`, `t_rxd` and the
margin, each floored at `block_interval_s`. What the chains enforce is something
else: BTC the BIP68 encoding of `t_btc`, Radiant a block count at *Radiant's*
interval. This module decodes both into seconds and says exactly when an
accepted triple respects the margin on the wall clock.

The check leaves a surplus of `btc − rxd − margin` whole blocks. Three roundings
eat into it (`lossS`): Radiant blocks slower than `block_interval_s`, the
seconds floored off the margin, and the seconds the 512-second encoding drops
from `t_btc` beyond those the check already dropped. The margin holds exactly
when the loss does not exceed the surplus.
-/

namespace Pyrxd.Gravity

open Pyrxd.Btc

/-- `assert_timelock_margin`. -/
def assertTimelockMargin (tBtc tRxd : Timelock) (policy : MarginPolicy) :
    Except PyErr Unit := do
  refuseIf (policy.requireMeasured = true ∧ policy.isMeasured = false)
    "real-value mode requires a measured margin (fail-closed)"
  let btcBlocks ← tBtc.normalizeTo .blocks policy.blockIntervalS
  let rxdBlocks ← tRxd.normalizeTo .blocks policy.blockIntervalS
  let marginBlocks ← policy.margin.normalizeTo .blocks policy.blockIntervalS
  refuseIf (btcBlocks.value ≤ rxdBlocks.value)
    ("timelock ordering violated: t_btc (" ++ toString btcBlocks.value ++
      " blk) must exceed t_rxd (" ++ toString rxdBlocks.value ++ " blk)")
  refuseIf (btcBlocks.value - rxdBlocks.value < marginBlocks.value)
    ("insufficient margin: t_btc - t_rxd = " ++
      toString (btcBlocks.value - rxdBlocks.value) ++
      " blk < required " ++ toString marginBlocks.value ++ " blk (" ++
      (if policy.isMeasured then "measured" else "ESTIMATED") ++ ")")

/-! ## What the chains enforce -/

/-- The wall-clock delay a BIP68 nSequence stands for, at `i` seconds per block:
the low sixteen bits, in 512-second units when bit 22 is set and in blocks
otherwise. -/
def bip68DelayS (nSequence : Nat) (i : ℚ) : ℚ :=
  if nSequence.testBit 22 then
    ((nSequence &&& sequenceLocktimeMask) * secondsGranularity : Nat)
  else ((nSequence &&& sequenceLocktimeMask : Nat) : ℚ) * i

/-- Seconds until the BTC refund opens. -/
def btcDelayS (tBtc : Timelock) (policy : MarginPolicy) : ℚ :=
  bip68DelayS tBtc.toNsequence policy.blockIntervalS

/-- Seconds until the Radiant refund opens, for a block count. -/
def rxdDelayS (tRxd : Timelock) (policy : MarginPolicy) : ℚ :=
  (tRxd.value : ℚ) * policy.rxdBlockIntervalS

/-- The margin the policy asks for, in seconds. -/
def marginS (policy : MarginPolicy) : ℚ :=
  match policy.margin.unit with
  | .blocks => (policy.margin.value : ℚ) * policy.blockIntervalS
  | .seconds => policy.margin.value

/-- The enforced delays keep the margin and the order. -/
def DelaysRespectMargin (tBtc tRxd : Timelock) (policy : MarginPolicy) : Prop :=
  marginS policy ≤ btcDelayS tBtc policy - rxdDelayS tRxd policy ∧
    rxdDelayS tRxd policy < btcDelayS tBtc policy

/-! ## The roundings -/

/-- Whole blocks in a lock, floored. -/
def floorBlocks (t : Timelock) (i : ℚ) : ℤ :=
  match t.unit with
  | .blocks => t.value
  | .seconds => ⌊(t.value : ℚ) / i⌋

/-- Seconds that flooring to blocks takes off. -/
def flooredOffS (t : Timelock) (i : ℚ) : ℚ :=
  match t.unit with
  | .blocks => 0
  | .seconds => t.value - ⌊(t.value : ℚ) / i⌋ * i

/-- Seconds that the 512-second encoding takes off. -/
def encodingOffS (t : Timelock) : ℚ :=
  match t.unit with
  | .blocks => 0
  | .seconds => (t.value % secondsGranularity : Nat)

/-- What the roundings take from the margin. -/
def lossS (tBtc tRxd : Timelock) (policy : MarginPolicy) : ℚ :=
  (tRxd.value : ℚ) * (policy.rxdBlockIntervalS - policy.blockIntervalS) +
    flooredOffS policy.margin policy.blockIntervalS +
    (encodingOffS tBtc - flooredOffS tBtc policy.blockIntervalS)

/-- What the check leaves over. -/
def surplusS (tBtc tRxd : Timelock) (policy : MarginPolicy) : ℚ :=
  ((floorBlocks tBtc policy.blockIntervalS - tRxd.value -
    floorBlocks policy.margin policy.blockIntervalS : ℤ) : ℚ) *
      policy.blockIntervalS

/-- The mask keeps what fits sixteen bits. -/
private theorem and_mask_of_le {v : Nat} (hv : v ≤ sequenceLocktimeMask) :
    v &&& sequenceLocktimeMask = v := by
  apply Nat.and_two_pow_sub_one_of_lt_two_pow (n := 16)
  simp only [sequenceLocktimeMask] at hv
  omega

/-- A block-count nSequence decodes to its blocks. -/
theorem bip68DelayS_blocks {v : Nat} (hv : v ≤ sequenceLocktimeMask) (i : ℚ) :
    bip68DelayS (v &&& sequenceLocktimeMask) i = v * i := by
  have hbit : v.testBit 22 = false := by
    apply Nat.testBit_lt_two_pow
    simp only [sequenceLocktimeMask] at hv
    omega
  unfold bip68DelayS
  rw [and_mask_of_le hv, hbit, and_mask_of_le hv]
  rfl

/-- A seconds nSequence decodes to its 512-second units. -/
theorem bip68DelayS_seconds {u : Nat} (hu : u ≤ sequenceLocktimeMask) (i : ℚ) :
    bip68DelayS (sequenceLocktimeTypeFlag ||| (u &&& sequenceLocktimeMask)) i =
      (u * secondsGranularity : Nat) := by
  have hlt : u < 2 ^ 16 := by
    simp only [sequenceLocktimeMask] at hu
    omega
  have hor : sequenceLocktimeTypeFlag ||| u = 2 ^ 22 + u := by
    have h := Nat.two_pow_add_eq_or_of_lt (i := 22) (b := u) (by omega) 1
    rw [mul_one] at h
    exact h.symm
  -- the type flag is bit 22, above the sixteen that the mask keeps
  have hlow : (2 ^ 22 + u) &&& sequenceLocktimeMask = u := by
    have h : (2 ^ 22 + u) &&& (2 ^ 16 - 1) = (2 ^ 22 + u) % 2 ^ 16 :=
      Nat.and_two_pow_sub_one_eq_mod _ 16
    change (2 ^ 22 + u) &&& (2 ^ 16 - 1) = u
    omega
  have hbit : (2 ^ 22 + u).testBit 22 = true := by
    rw [Nat.testBit_eq_decide_div_mod_eq, decide_eq_true_iff]
    omega
  unfold bip68DelayS
  rw [and_mask_of_le hu, hor, if_pos hbit, hlow]

/-- The enforced BTC delay is the floored count plus what the check dropped,
less what the encoding drops. -/
theorem btcDelayS_eq (t : Timelock) (p : MarginPolicy) :
    btcDelayS t p =
      floorBlocks t p.blockIntervalS * p.blockIntervalS +
        (flooredOffS t p.blockIntervalS - encodingOffS t) := by
  have hfits := t.fits
  unfold btcDelayS Timelock.toNsequence floorBlocks flooredOffS encodingOffS
  cases hu : t.unit with
  | blocks =>
    simp only [hu, bip68Units] at hfits ⊢
    rw [bip68DelayS_blocks hfits]
    push_cast
    ring
  | seconds =>
    simp only [hu, bip68Units] at hfits ⊢
    rw [bip68DelayS_seconds hfits]
    have hdm : (t.value : ℚ) =
        ((t.value / secondsGranularity * secondsGranularity : Nat) : ℚ) +
        ((t.value % secondsGranularity : Nat) : ℚ) := by
      rw [← Nat.cast_add, Nat.div_add_mod']
    rw [hdm]
    ring_nf

/-- The margin is its floored count plus what flooring dropped. -/
theorem marginS_eq (p : MarginPolicy) :
    marginS p =
      floorBlocks p.margin p.blockIntervalS * p.blockIntervalS +
        flooredOffS p.margin p.blockIntervalS := by
  unfold marginS floorBlocks flooredOffS
  cases p.margin.unit <;> simp

/-- The room between the enforced delays and the margin is surplus less loss. -/
theorem room_eq (tBtc tRxd : Timelock) (p : MarginPolicy) :
    btcDelayS tBtc p - rxdDelayS tRxd p - marginS p =
      surplusS tBtc tRxd p - lossS tBtc tRxd p := by
  rw [btcDelayS_eq, marginS_eq]
  unfold rxdDelayS surplusS lossS
  push_cast
  ring

theorem marginS_nonneg (p : MarginPolicy) : 0 ≤ marginS p := by
  have hi := p.sound.blockInterval
  unfold marginS
  cases p.margin.unit with
  | blocks => positivity
  | seconds => positivity

theorem marginS_eq_zero (p : MarginPolicy) : marginS p = 0 ↔
    p.margin.value = 0 := by
  have hi := p.sound.blockInterval
  unfold marginS
  cases p.margin.unit with
  | blocks => simp [hi.ne']
  | seconds => simp

/-- The margin in its wall-clock form, without the check. -/
theorem delaysRespectMargin_iff (tBtc tRxd : Timelock) (p : MarginPolicy) :
    DelaysRespectMargin tBtc tRxd p ↔
      lossS tBtc tRxd p ≤ surplusS tBtc tRxd p ∧
        (p.margin.value = 0 → lossS tBtc tRxd p < surplusS tBtc tRxd p) := by
  have hroom := room_eq tBtc tRxd p
  have hM := marginS_nonneg p
  rw [← marginS_eq_zero]
  unfold DelaysRespectMargin
  constructor
  · rintro ⟨h1, h2⟩
    refine ⟨by linarith, fun hz => ?_⟩
    linarith
  · rintro ⟨h1, h2⟩
    refine ⟨by linarith, ?_⟩
    -- a positive margin already separates the delays; only a zero one needs
    -- strictness
    rcases hM.lt_or_eq with hpos | hz
    · linarith
    · have := h2 hz.symm
      linarith

/-- What acceptance says: the floored counts leave a nonnegative surplus. -/
theorem assertTimelockMargin_ok {tBtc tRxd : Timelock} {p : MarginPolicy}
    (hu : tRxd.unit = .blocks) (h : assertTimelockMargin tBtc tRxd p = .ok ()) :
    (tRxd.value : ℤ) < floorBlocks tBtc p.blockIntervalS ∧
      floorBlocks p.margin p.blockIntervalS ≤
        floorBlocks tBtc p.blockIntervalS - tRxd.value := by
  simp only [assertTimelockMargin, bind_ok, refuseIf_ok] at h
  obtain ⟨-, -, b, hb, r, hr, m, hm, -, hlt, hge⟩ := h
  have hb := (Timelock.normalizeTo_blocks_value hb).2.2
  have hm := (Timelock.normalizeTo_blocks_value hm).2.2
  have hr := (Timelock.normalizeTo_blocks_value hr).2.2
  simp only [hu] at hr
  change (b.value : ℤ) = floorBlocks tBtc p.blockIntervalS at hb
  change (m.value : ℤ) = floorBlocks p.margin p.blockIntervalS at hm
  omega

/-- The surplus of an accepted triple is never negative. -/
theorem surplusS_nonneg {tBtc tRxd : Timelock} {p : MarginPolicy}
    (hu : tRxd.unit = .blocks)
    (h : assertTimelockMargin tBtc tRxd p = .ok ()) :
    0 ≤ surplusS tBtc tRxd p := by
  obtain ⟨-, hm⟩ := assertTimelockMargin_ok hu h
  have hi := p.sound.blockInterval
  have hs : (0 : ℤ) ≤ floorBlocks tBtc p.blockIntervalS - tRxd.value -
      floorBlocks p.margin p.blockIntervalS := by omega
  unfold surplusS
  have : (0 : ℚ) ≤ ((floorBlocks tBtc p.blockIntervalS - tRxd.value -
      floorBlocks p.margin p.blockIntervalS : ℤ) : ℚ) := by exact_mod_cast hs
  positivity

/-- Where nothing is in seconds and Radiant is not the slower chain, the check
is enough: no rounding is left to lose to. -/
theorem delaysRespectMargin_of_blocks {tBtc tRxd : Timelock} {p : MarginPolicy}
    (hb : tBtc.unit = .blocks) (hu : tRxd.unit = .blocks)
    (hm : p.margin.unit = .blocks)
    (hfast : p.rxdBlockIntervalS ≤ p.blockIntervalS)
    (h : assertTimelockMargin tBtc tRxd p = .ok ()) :
    DelaysRespectMargin tBtc tRxd p := by
  have hs := surplusS_nonneg hu h
  obtain ⟨hlt, -⟩ := assertTimelockMargin_ok hu h
  have hi := p.sound.blockInterval
  have hloss : lossS tBtc tRxd p ≤ 0 := by
    have : (tRxd.value : ℚ) * (p.rxdBlockIntervalS - p.blockIntervalS) ≤ 0 :=
      mul_nonpos_of_nonneg_of_nonpos (by positivity) (by linarith)
    simpa [lossS, flooredOffS, encodingOffS, hb, hm] using this
  refine (delaysRespectMargin_iff tBtc tRxd p).mpr ⟨by linarith, fun hz => ?_⟩
  -- a zero margin: the surplus is the whole difference, at least one block
  have hpos : 0 < surplusS tBtc tRxd p := by
    have hd : (0 : ℚ) <
        ((floorBlocks tBtc p.blockIntervalS - tRxd.value : ℤ) : ℚ) := by
      exact_mod_cast (by omega :
        (0 : ℤ) < floorBlocks tBtc p.blockIntervalS - tRxd.value)
    have : surplusS tBtc tRxd p =
        ((floorBlocks tBtc p.blockIntervalS - tRxd.value : ℤ) : ℚ) *
          p.blockIntervalS := by
      simp [surplusS, floorBlocks, hm, hz]
    rw [this]
    positivity
  linarith

/-- **When an accepted margin is a margin on the wall clock.** Acceptance leaves
a nonnegative surplus; the enforced delays respect the margin exactly when the
roundings do not take more than that (strictly less when the margin itself is
zero), as they never do where nothing is in seconds and Radiant is not the
slower chain. -/
theorem assertTimelockMargin_enforced_iff (tBtc tRxd : Timelock)
    (p : MarginPolicy)
    (hu : tRxd.unit = .blocks) (h : assertTimelockMargin tBtc tRxd p = .ok ()) :
    0 ≤ surplusS tBtc tRxd p ∧
      (DelaysRespectMargin tBtc tRxd p ↔
        lossS tBtc tRxd p ≤ surplusS tBtc tRxd p ∧
          (p.margin.value = 0 → lossS tBtc tRxd p < surplusS tBtc tRxd p)) ∧
      (tBtc.unit = .blocks ∧ p.margin.unit = .blocks ∧
        p.rxdBlockIntervalS ≤ p.blockIntervalS →
        DelaysRespectMargin tBtc tRxd p) :=
  ⟨surplusS_nonneg hu h, delaysRespectMargin_iff tBtc tRxd p,
    fun ⟨hb, hm, hfast⟩ => delaysRespectMargin_of_blocks hb hu hm hfast h⟩

/-- A measured policy whose margin is one second short of two BTC blocks. -/
def secondsMarginPolicy : MarginPolicy where
  margin := ⟨1199, .seconds, by decide⟩
  blockIntervalS := 600
  isMeasured := true
  valid := by decide

/-- Two blocks on BTC against one on Radiant: accepted, since 1199 s floor to
one block, and 299 s short of the margin on the wall clock. -/
theorem assertTimelockMargin_margin_floored :
    assertTimelockMargin ⟨2, .blocks, by decide⟩ ⟨1,
      .blocks, by decide⟩ secondsMarginPolicy =
        .ok () ∧
      ¬ DelaysRespectMargin ⟨2, .blocks, by decide⟩ ⟨1,
        .blocks, by decide⟩ secondsMarginPolicy := by
  refine ⟨by decide +kernel, ?_⟩
  unfold DelaysRespectMargin
  decide +kernel

/-- Three blocks on BTC leave a block of surplus, which covers the loss. -/
theorem assertTimelockMargin_enforced_three :
    DelaysRespectMargin ⟨3, .blocks, by decide⟩ ⟨1,
      .blocks, by decide⟩ secondsMarginPolicy :=
  (assertTimelockMargin_enforced_iff ⟨3, .blocks, by decide⟩ ⟨1,
    .blocks, by decide⟩
    secondsMarginPolicy rfl (by decide +kernel)).2.1.mpr (by decide +kernel)

end Pyrxd.Gravity
