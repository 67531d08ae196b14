import Pyrxd.Gravity.ClaimFinality
import Mathlib.Order.Bounds.Basic

/-!
# Two clocks: the window and its gate

`eth_absolute_to_rxd_relative_blocks` sizes the Radiant window from an absolute
deadline by rounding a quotient down;
`assert_covenant_confirms_before_eth_deadline` judges a window by rounding a
product up and comparing strictly. Both are computed in doubles. The claim's
window, the largest that opens strictly before the deadline, is the one that is
sized and accepted just if the quotient rounds to neither side of it and the
gate's product leaves a second over (`sized_meets_gate`). A budget that is a
multiple of the block interval never does.

The deadlines are ints of any size, so here a budget that no float can hold, and
a quotient or a product that is infinite, are the exceptions they are in the
source.
-/

namespace Pyrxd.Gravity

open Pyrxd.Btc Pyrxd.Lib

/-- `_MAX_RXD_CSV_BLOCKS`. -/
def maxRxdCsvBlocks : Int := 0xFFFF

/-- The seconds between the lock and the ETH deadline brought forward by the
margin. -/
def rxdBudgetS (ethTimeoutUnixS lockTimeUnixS : Int)
    (margin : CrossClockMargin) : Int :=
  ethTimeoutUnixS - margin.totalS - lockTimeUnixS

/-- `math.floor` of an int over a float. -/
def floorQuotient (n : Int) (r : ℚ) : Except PyErr Int :=
  if Overflows n then .error (.other "int too large to convert to float")
  else if Overflows (toDouble n / r) then .error
    (.other "cannot convert float infinity to integer")
  else .ok ⌊quotDouble n r⌋

/-- `eth_absolute_to_rxd_relative_blocks`. The interval is a float of the
caller's, so the text it prints as comes with it. -/
def ethAbsoluteToRxdRelativeBlocks
    (ethTimeoutUnixS expectedRxdLockTimeUnixS : Int) (margin : CrossClockMargin)
    (rxdBlockIntervalS : ℚ) (intervalText : String) (floorBlocks : Int := 12) :
    Except PyErr Timelock := do
  refuseIf (floorBlocks < 1) "floor_blocks must be a positive int"
  refuseIf (rxdBlockIntervalS ≤ 0)
    ("rxd_block_interval_s must be > 0 (use a MEASURED conservative FAST-TAIL percentile " ++
      "on mainnet, e.g. p10 — NOT the mean; see docstring)")
  let budgetS := rxdBudgetS ethTimeoutUnixS expectedRxdLockTimeUnixS margin
  refuseIf (budgetS ≤ 0)
    ("no RXD timelock budget: eth_timeout - margin - rxd_lock_time = " ++
      toString budgetS ++ "s " ++
      "(ETH deadline too close / margin too large to safely lock RXD)")
  let tRxdBlocks ← floorQuotient budgetS rxdBlockIntervalS
  refuseIf (tRxdBlocks < floorBlocks)
    ("RXD timelock " ++ toString tRxdBlocks ++ " blocks below safety floor " ++
      toString floorBlocks ++
      " (budget " ++ toString budgetS ++ "s at " ++ intervalText ++ "s/block)")
  refuseIf (tRxdBlocks > maxRxdCsvBlocks)
    ("RXD timelock " ++ toString tRxdBlocks ++
      " blocks exceeds the BIP68 16-bit cap " ++
      toString maxRxdCsvBlocks ++
        " (ETH deadline too far in the future to map to a relative CSV window)")
  Timelock.new tRxdBlocks .blocks

section Window

variable {timeout lock now wait floor : Int} {margin : CrossClockMargin} {r : ℚ}
  {text : String} {t : Timelock}

/-- The window that is sized: the double quotient, floored. -/
theorem ethAbsoluteToRxdRelativeBlocks_ok
    (h : ethAbsoluteToRxdRelativeBlocks timeout lock margin r text floor =
      .ok t) :
    0 < r ∧ 0 < rxdBudgetS timeout lock margin ∧
    ¬ Overflows (rxdBudgetS timeout lock margin) ∧
      t.unit = .blocks ∧ 1 ≤ t.value ∧
      (t.value : ℤ) = ⌊quotDouble (rxdBudgetS timeout lock margin) r⌋ := by
  unfold ethAbsoluteToRxdRelativeBlocks at h
  obtain ⟨hfloor, h⟩ := refuseIf_bind_ok.mp h
  obtain ⟨hr, h⟩ := refuseIf_bind_ok.mp h
  obtain ⟨hbudget, h⟩ := refuseIf_bind_ok.mp h
  obtain ⟨blocks, hblocks, h⟩ := bind_ok.mp h
  obtain ⟨hlow, h⟩ := refuseIf_bind_ok.mp h
  obtain ⟨-, h⟩ := refuseIf_bind_ok.mp h
  obtain ⟨hpos, hvalue, hunit⟩ := Timelock.new_ok.mp h
  unfold floorQuotient at hblocks
  split at hblocks
  · cases hblocks
  · next hbig =>
    split at hblocks
    · cases hblocks
    · injection hblocks with hblocks
      exact ⟨not_le.mp hr, by omega, hbig, hunit, by omega, by omega⟩

/-- The gate on a window in blocks: the projected opening, rounded up, stays
below the deadline. -/
theorem assertCovenantConfirms_ok (hunit : t.unit = .blocks) (hr : 0 < r)
    (hwait : 0 ≤ wait) : assertCovenantConfirmsBeforeEthDeadline now timeout
    margin t r wait = .ok () ↔
      ¬ Overflows (toDouble ((t.value : ℤ) : ℚ) * r) ∧
        wait + ⌈mulDouble t.value r⌉ < rxdBudgetS timeout now margin := by
  unfold assertCovenantConfirmsBeforeEthDeadline ceilProduct rxdBudgetS
  rw [refuseIf_bind_ok, refuseIf_bind_ok, refuseIf_bind_ok, bind_ok]
  constructor
  · rintro ⟨-, -, -, window, hwindow, h⟩
    rw [refuseIf_ok] at h
    split at hwindow
    · cases hwindow
    · next hfinite =>
      injection hwindow with hwindow
      exact ⟨hfinite, by omega⟩
  · rintro ⟨hfinite, h⟩
    refine ⟨not_not.mpr hunit, not_le.mpr hr, by omega, _, if_neg hfinite, ?_⟩
    rw [refuseIf_ok]
    omega

/-- Seconds since the epoch at which a window of `k` blocks opens, for a
covenant mined at `lock`. -/
def refundOpens (lock : Int) (r : ℚ) (k : Nat) : ℚ := lock + k * r

/-- The block counts whose refund opens strictly before the deadline brought
forward by the margin. -/
def InTime (timeout lock : Int) (margin : CrossClockMargin) (r : ℚ) : Set Nat :=
  {k | refundOpens lock r k < timeout - margin.totalS}

/-- In time is before the budget runs out. -/
theorem mem_inTime {k : Nat} : k ∈ InTime timeout lock margin r ↔
    k * r < (rxdBudgetS timeout lock margin : ℚ) := by
  rw [InTime, Set.mem_ofPred_eq, refundOpens, rxdBudgetS]
  push_cast
  constructor
  · intro h
    linarith
  · intro h
    linarith

/-- The largest of them is the one with the next no longer in time. -/
theorem isGreatest_inTime_iff {k : Nat} (hr : 0 < r) :
    IsGreatest (InTime timeout lock margin r) k ↔
      k * r < (rxdBudgetS timeout lock margin : ℚ) ∧
        (rxdBudgetS timeout lock margin : ℚ) ≤ (k + 1) * r := by
  rw [IsGreatest, mem_inTime]
  refine and_congr_right fun _ => ?_
  constructor
  · intro h
    by_contra hlt
    have hnext : k + 1 ∈ InTime timeout lock margin r := by
      rw [mem_inTime]
      push_cast
      exact not_le.mp hlt
    exact absurd (h hnext) (by omega)
  · intro h j hj
    rw [mem_inTime] at hj
    have hjk : (j : ℚ) < k + 1 := lt_of_mul_lt_mul_right (hj.trans_le h) hr.le
    have hjk' : j < k + 1 := by exact_mod_cast hjk
    omega

end Window

/-- The window `t` is the largest one that opens in time, and the gate takes it
at the time of the lock. -/
def SizedForGate (timeout lock : Int) (margin : CrossClockMargin) (r : ℚ)
    (t : Timelock) : Prop :=
  IsGreatest (InTime timeout lock margin r) t.value ∧
    assertCovenantConfirmsBeforeEthDeadline lock timeout margin t r 0 = .ok ()

/-- The rounding leaves a budget its window. `k` is the count with `k` but not
`k + 1` intervals strictly inside the budget; the budget, as a double, is over
`r` a number that rounds to neither side of `[k, k + 1)`; and `k` intervals, as
a double, are a whole second short of the budget. -/
def KeptByRounding (budgetS : Int) (r : ℚ) : Prop :=
  ∃ k : Nat, k * r < budgetS ∧ budgetS ≤ (k + 1) * r ∧
    (k - halfBelow k) * r ≤ toDouble budgetS ∧
    toDouble budgetS < ((k + 1 : Nat) - halfBelow (k + 1)) * r ∧
    toDouble (k * r) ≤ budgetS - 1

section Kept

variable {budget : Int} {r : ℚ} {k n : Nat}

/-- A floored quotient is at least `k` where the double before `k` is nearer to
none of it. -/
theorem le_floor_quotDouble_iff (hr : 0 < r) (h1 : 1 ≤ k) (hk : k ≤ 2 ^ 52) :
    (k : ℤ) ≤ ⌊quotDouble budget r⌋ ↔
    (k - halfBelow k) * r ≤ toDouble budget := by
  rw [Int.le_floor, Int.cast_natCast, quotDouble, le_toDouble_natCast_iff h1 hk,
    le_div_iff₀ hr]

/-- The sized count is `k` just if the quotient rounds into `[k, k + 1)`. -/
theorem floor_quotDouble_eq_iff (hr : 0 < r) (h1 : 1 ≤ k) (hk : k < 2 ^ 52) :
    ⌊quotDouble budget r⌋ = k ↔ (k - halfBelow k) * r ≤ toDouble budget ∧
      toDouble budget < ((k + 1 : Nat) - halfBelow (k + 1)) * r := by
  rw [← le_floor_quotDouble_iff hr h1 hk.le, ← not_le,
    ← le_floor_quotDouble_iff hr (by omega : 1 ≤ k + 1) hk]
  push_cast
  omega

/-- A count that the quotient reaches is not far above the sized one. -/
theorem lt_of_reached (hr : 0 < r) (hn : ⌊quotDouble budget r⌋ = n)
    (hn16 : n < 2 ^ 16)
    (h : (k - halfBelow k) * r ≤ toDouble budget) : k < 2 ^ 52 := by
  by_contra hbig
  have h1 : 1 ≤ k := by omega
  have hcast : (2 ^ 52 : ℚ) ≤ k := by exact_mod_cast not_lt.mp hbig
  have hhalf := halfBelow_le h1
  have hquot : ((2 ^ 16 : ℤ) : ℚ) ≤ toDouble budget / r := by
    rw [← le_div_iff₀ hr] at h
    push_cast
    linarith
  have hreach : (2 ^ 16 : ℤ) ≤ ⌊quotDouble budget r⌋ :=
    Int.le_floor.mpr (le_toDouble (representable_intCast (by norm_num)) hquot)
  omega

/-- The gate takes a window whose product, as a double, is a whole second
short. -/
theorem gate_takes_iff {timeout lock : Int} {margin : CrossClockMargin}
    {t : Timelock}
    (hunit : t.unit = .blocks) (hr : 0 < r)
    (hbig : ¬ Overflows (rxdBudgetS timeout lock margin)) :
    assertCovenantConfirmsBeforeEthDeadline lock timeout margin t r 0 = .ok () ↔
      toDouble (t.value * r) ≤ rxdBudgetS timeout lock margin - 1 := by
  have hfits := t.fits
  rw [hunit] at hfits
  simp only [bip68Units, sequenceLocktimeMask] at hfits
  have hint : toDouble ((t.value : ℤ) : ℚ) = t.value := by
    rw [toDouble_intCast (by rw [abs_of_nonneg (by omega)]; omega)]
    norm_cast
  have hceil : ⌈toDouble (t.value * r)⌉ < rxdBudgetS timeout lock margin ↔
      toDouble (t.value * r) ≤ rxdBudgetS timeout lock margin - 1 := by
    rw [← Int.le_sub_one_iff, Int.ceil_le]
    push_cast
    rfl
  rw [assertCovenantConfirms_ok hunit hr (le_refl 0), mulDouble, hint,
    zero_add, hceil]
  refine and_iff_right_of_imp fun h => ?_
  exact not_overflows_of_lt hbig (by positivity) (by linarith)

end Kept

/-- **When the sizing function and the gate agree**: exactly if the rounding
leaves the budget its window. -/
theorem sized_meets_gate (timeout lock floor : Int) (margin : CrossClockMargin)
    (r : ℚ) (text : String)
    (t : Timelock) (h :
      ethAbsoluteToRxdRelativeBlocks timeout lock margin r text floor = .ok t) :
    SizedForGate timeout lock margin r t ↔
    KeptByRounding (rxdBudgetS timeout lock margin) r := by
  obtain ⟨hr, -, hbig, hunit, h1, ht⟩ := ethAbsoluteToRxdRelativeBlocks_ok h
  have hfits := t.fits
  rw [hunit] at hfits
  have ht16 : t.value < 2 ^ 16 := lt_of_le_of_lt hfits (by decide)
  rw [SizedForGate, isGreatest_inTime_iff hr, gate_takes_iff hunit hr hbig]
  constructor
  · rintro ⟨⟨hlow, hup⟩, hgate⟩
    obtain ⟨hreach, hnext⟩ :=
      (floor_quotDouble_eq_iff hr h1 (by omega)).mp ht.symm
    exact ⟨t.value, hlow, hup, hreach, hnext, hgate⟩
  · rintro ⟨k, hlow, hup, hreach, hnext, hgate⟩
    have hk := lt_of_reached hr ht.symm ht16 hreach
    -- no interval at all would have been below every floor
    have hk1 : 1 ≤ k := by
      by_contra hzero
      have hk0 : k = 0 := by omega
      rw [hk0, ← not_le,
        ← le_floor_quotDouble_iff hr (le_refl 1) (by norm_num)] at hnext
      omega
    have heq : t.value = k := by
      have := (floor_quotDouble_eq_iff hr hk1 hk).mpr ⟨hreach, hnext⟩
      omega
    rw [heq]
    exact ⟨⟨hlow, hup⟩, hgate⟩

/-- A margin of half an hour. -/
def halfHourMargin : CrossClockMargin := ⟨⟨300, 600, 300, 600, 0⟩, by decide⟩

/-- 98200 seconds at 600 a block: 163 blocks, and 400 seconds over. -/
theorem sized_meets_gate_remainder :
    SizedForGate 100000 0 halfHourMargin 600 ⟨163, .blocks, by decide⟩ := by
  have hsized : ethAbsoluteToRxdRelativeBlocks 100000 0
    halfHourMargin 600 "600.0" =
      .ok ⟨163, .blocks, by decide⟩ := by decide +kernel
  refine (sized_meets_gate 100000 0 12 halfHourMargin 600 "600.0" _ hsized).mpr
    ⟨163, ?_⟩
  decide +kernel

/-- 862 seconds at 43.1 a block are a little less than twenty blocks, and
rounded they are twenty. -/
example : ethAbsoluteToRxdRelativeBlocks 2662 0 halfHourMargin
    (toDouble (431 / 10)) "43.1" =
    .ok ⟨20, .blocks, by decide⟩ ∧
      ⌊862 / toDouble (431 / 10)⌋ = 19 := by decide +kernel

/-- 97800 seconds at 600 a block are 163 blocks to the second: the gate refuses
the window that was sized. -/
theorem exact_budget_refused : ∃ t,
    ethAbsoluteToRxdRelativeBlocks 99600 0 halfHourMargin 600 "600.0" = .ok t ∧
    ¬ SizedForGate 99600 0 halfHourMargin 600 t := by
  refine ⟨⟨163, .blocks, by decide⟩, by decide +kernel, ?_⟩
  rintro ⟨-, hgate⟩
  revert hgate
  decide +kernel

end Pyrxd.Gravity
