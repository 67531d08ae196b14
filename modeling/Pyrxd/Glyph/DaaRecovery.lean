import Pyrxd.Glyph.DaaSimulation

/-!
# Whether the difficulty comes back down

The three retargets that follow the clock, asked whether slow mints raise the
target again. All three divide before they multiply: `RADIX` for ASERT,
`target_time` for the other two. What is below the divisor divides to zero, and
from there on the clock no longer counts: an ASERT target stays where it is, the
other two fall to 1 and stay there.

`Daa.Recovers` names the targets from which a slow mint does raise it. From
these, slow mints lead to the top (`slow_reaches`); from all others below the
ceiling no run of mints, slow or fast, ever gets higher (`never_rises`).
-/

namespace Pyrxd.Glyph

/-- The retargets that follow the clock, with the parameters a deploy
accepts. -/
def Daa.Adaptive : Daa → Prop
  | .asertV2 halfLife => 1 ≤ halfLife
  | .linear => True
  | .epoch epochLength n => 1 ≤ epochLength ∧ n ∈ [1, 2, 3, 4]
  | .asertLegacy _ | .schedule _ => False

/-- The largest target the last clamp of the rule lets by. -/
def Daa.ceiling : Daa → Int
  | .asertV2 _ => asertV2MaxTargetDiv4
  | .epoch _ _ => epochMaxSafeTarget
  | .linear | .asertLegacy _ | .schedule _ => maxSha256dTarget

/-- Whether a mint at this height retargets. -/
def Daa.RetargetsAt (height : Int) : Daa → Prop
  | .epoch epochLength _ => 0 < height ∧ height % epochLength = 0
  | _ => True

/-- The target from which on the quotient is not zero. -/
def Daa.bottom (targetTime : Int) : Daa → Int
  | .asertV2 _ => asertV2Radix
  | _ => targetTime

/-- The largest target the rule can set. -/
def Daa.top (targetTime : Int) : Daa → Int
  | .linear => maxSha256dTarget / 4 / targetTime * (4 * targetTime)
  | rule => rule.ceiling

/-- The targets that a slow mint raises. -/
def Daa.Recovers (targetTime target : Int) (rule : Daa) : Prop :=
  rule.bottom targetTime ≤ target ∧ target < rule.top targetTime

/-- From when on a mint is as slow as the rule distinguishes. -/
def Daa.late (targetTime lastTime : Int) : Daa → Int
  | .asertV2 halfLife => lastTime + targetTime + halfLife
  | .epoch _ n => lastTime + targetTime * 2 ^ n
  | _ => lastTime + 4 * targetTime

/-- What a mint brings to the retarget beside the target itself. -/
structure Mint where
  lastTime : Int
  currentTime : Int
  height : Int

/-- The target after one mint. -/
def Daa.retarget (targetTime : Int) (rule : Daa) (target : Int) (m : Mint) :
    Except PyErr Int :=
  rule.nextTarget ⟨target, m.lastTime, m.currentTime, targetTime, m.height⟩

/-- The target after a run of mints. -/
def Daa.afterMints (targetTime target : Int) (mints : List Mint) (rule : Daa) :
    Except PyErr Int :=
  mints.foldlM (rule.retarget targetTime) target

/-- A mint that retargets, late enough. -/
def Mint.Slow (rule : Daa) (targetTime : Int) (m : Mint) : Prop :=
  rule.RetargetsAt m.height ∧ rule.late targetTime m.lastTime ≤ m.currentTime

/-! ## The three functions, without the divisions' failures -/

section Equations

variable {target lastTime now targetTime halfLife height epochLength : Int}
  {n : Nat}

/-- The second ASERT rule as one expression: clamp the drift, scale, cap. -/
theorem asertV2_eq (hhalf : 1 ≤ halfLife) :
    computeNextTargetAsertV2 target lastTime now targetTime halfLife =
      .ok (max 1 (min (min target asertV2MaxTargetDiv4 +
        min target asertV2MaxTargetDiv4 / asertV2Radix *
        max (-asertV2DriftClamp) (min asertV2DriftClamp
          (((now - lastTime - targetTime) * asertV2Radix).tdiv halfLife)))
            asertV2MaxTargetDiv4)) := by
  have hguard : ¬ halfLife < 1 := by omega
  have hdiv : (min target asertV2MaxTargetDiv4).fdiv asertV2Radix =
      min target asertV2MaxTargetDiv4 / asertV2Radix :=
    Int.fdiv_eq_ediv_of_nonneg _ (by decide)
  rw [computeNextTargetAsertV2, if_neg hguard, truncDiv_eq hhalf, ok_bind]
  dsimp only
  rw [hdiv]
  rfl

/-- The linear rule as one expression. -/
theorem linear_eq (hT : 1 ≤ targetTime) :
    computeNextTargetLinear target lastTime now targetTime =
      .ok (max 1 (min (min target (maxSha256dTarget / 4) / targetTime *
        max 0 (min (now - lastTime) (4 * targetTime))) maxSha256dTarget)) := by
  have hquarter : maxSha256dTarget.fdiv 4 = maxSha256dTarget / 4 := by decide
  rw [computeNextTargetLinear, floorDiv, if_neg (by omega), ok_bind, hquarter,
    Int.fdiv_eq_ediv_of_nonneg _ (by omega)]
  rfl

/-- The epoch rule as one expression, at an epoch boundary. -/
theorem epoch_eq (hT : 1 ≤ targetTime) (hlen : 1 ≤ epochLength)
    (hheight : 0 < height ∧ height % epochLength = 0) :
    computeNextTargetEpoch target lastTime now targetTime height epochLength n =
      .ok (max 1 (min (min target epochMaxSafeTarget / targetTime *
        max (targetTime.fdiv (2 ^ n)) (min (targetTime * 2 ^ n)
          (now - lastTime))) epochMaxSafeTarget)) := by
  have hmod : height.tmod epochLength = 0 := by
    rw [Int.tmod_eq_emod_of_nonneg (by omega)]
    exact hheight.2
  have hb : decide (height > 0 ∧ height.tmod epochLength = 0) = true :=
    decide_eq_true ⟨hheight.1, hmod⟩
  rw [computeNextTargetEpoch, epochBoundary_eq hlen, ok_bind, hb]
  simp only [if_true]
  rw [floorDiv, if_neg (by omega), ok_bind,
    Int.fdiv_eq_ediv_of_nonneg _ (by omega)]
  rfl

/-- Away from a boundary the epoch rule changes nothing. -/
theorem epoch_eq_of_not (hlen : 1 ≤ epochLength)
    (hheight : ¬ (0 < height ∧ height % epochLength = 0)) :
    computeNextTargetEpoch target lastTime now targetTime height epochLength n =
      .ok target := by
  have hb : decide (height > 0 ∧ height.tmod epochLength = 0) = false := by
    refine decide_eq_false ?_
    rintro ⟨hpos, hmod⟩
    rw [Int.tmod_eq_emod_of_nonneg (by omega)] at hmod
    exact hheight ⟨hpos, hmod⟩
  rw [computeNextTargetEpoch, epochBoundary_eq hlen, ok_bind, hb]
  rfl

end Equations

/-! ## One slow mint -/

section Slow

variable {target lastTime now targetTime halfLife height epochLength : Int}
  {n : Nat}

/-- A quotient times its divisor is more than half of what was divided. -/
theorem half_lt_ediv_mul {a b : Int} (hb : 1 ≤ b) (hab : b ≤ a) :
    a < 2 * (a / b * b) := by
  have hq : 1 ≤ a / b := (Int.le_ediv_iff_mul_le (by omega)).mpr (by omega)
  have hrem := Int.emod_lt_of_pos a (show 0 < b by omega)
  have hsplit := Int.mul_ediv_add_emod a b
  have hge : b ≤ a / b * b := by
    have := Int.mul_le_mul_of_nonneg_right hq (show 0 ≤ b by omega)
    omega
  rw [Int.mul_comm] at hsplit
  omega

/-- A block late by a half life lifts the target, or it is at its cap. -/
theorem asertV2_slow (hhalf : 1 ≤ halfLife) (hlow : asertV2Radix ≤ target)
    (hlate : lastTime + targetTime + halfLife ≤ now) :
    ∃ t', computeNextTargetAsertV2 target lastTime now targetTime halfLife =
      .ok t' ∧
      min (target + 1) asertV2MaxTargetDiv4 ≤ t' := by
  have hdrift : asertV2DriftClamp ≤
      ((now - lastTime - targetTime) * asertV2Radix).tdiv halfLife := by
    have hexcess : halfLife * asertV2Radix ≤
        (now - lastTime - targetTime) * asertV2Radix :=
      Int.mul_le_mul_of_nonneg_right (by omega) (by decide)
    have hpos : (0 : Int) ≤ (now - lastTime - targetTime) * asertV2Radix :=
      Int.mul_nonneg (by omega) (by decide)
    rw [Int.tdiv_eq_ediv_of_nonneg hpos]
    refine Int.le_trans (show asertV2DriftClamp ≤ asertV2Radix by decide) ?_
    exact (Int.le_ediv_iff_mul_le (by omega)).mpr
      (by rw [Int.mul_comm]; exact hexcess)
  have hclamped : max (-asertV2DriftClamp) (min asertV2DriftClamp
      (((now - lastTime - targetTime) * asertV2Radix).tdiv halfLife)) =
        asertV2DriftClamp := by
    rw [min_eq_left hdrift]
    rfl
  have hradix : asertV2Radix = 65536 := rfl
  have hclamp : asertV2DriftClamp = 16384 := rfl
  have hceiling : asertV2MaxTargetDiv4 = 2305843009213693951 := rfl
  rw [hradix] at hlow
  rw [asertV2_eq hhalf, hclamped, hradix, hclamp, hceiling]
  refine ⟨_, rfl, ?_⟩
  omega

/-- A block four times late lifts the linear target, or it is at its cap. -/
theorem linear_slow (hT : 1 ≤ targetTime) (hlow : targetTime ≤ target)
    (hfits : targetTime ≤ maxSha256dTarget / 4 / targetTime * (4 * targetTime))
    (hlate : lastTime + 4 * targetTime ≤ now) :
    ∃ t', computeNextTargetLinear target lastTime now targetTime = .ok t' ∧
      min (target + 1) (maxSha256dTarget / 4 / targetTime * (4 * targetTime)) ≤
        t' := by
  have hquarter : maxSha256dTarget / 4 = 2305843009213693951 := rfl
  have hmax : maxSha256dTarget = 9223372036854775807 := rfl
  rw [linear_eq hT]
  refine ⟨_, rfl, ?_⟩
  have hdelta : max 0 (min (now - lastTime) (4 * targetTime)) =
      4 * targetTime := by omega
  rw [hdelta]
  rw [hquarter] at hfits ⊢
  rw [hmax]
  -- the quotient is not zero, or the top would be below the bottom
  have hTq : targetTime ≤ 2305843009213693951 := by
    by_contra hgt
    rw [Int.ediv_eq_zero_of_lt (by decide) (by omega)] at hfits
    omega
  have hcap :=
    Int.ediv_mul_le 2305843009213693951 (show targetTime ≠ 0 by omega)
  rcases Int.le_total target 2305843009213693951 with htarget | htarget
  · have hgrow := half_lt_ediv_mul hT hlow
    have hle := Int.ediv_mul_le target (show targetTime ≠ 0 by omega)
    rw [min_eq_left htarget]
    have hfour : target / targetTime * (4 * targetTime) =
        4 * (target / targetTime * targetTime) := by ring
    rw [hfour]
    omega
  · rw [min_eq_right htarget]
    have hfour : 2305843009213693951 / targetTime * (4 * targetTime) =
        4 * (2305843009213693951 / targetTime * targetTime) := by ring
    rw [hfour]
    omega

/-- An epoch late by its clamp lifts the epoch target, or it is at its cap. -/
theorem epoch_slow (hT : 1 ≤ targetTime) (hlen : 1 ≤ epochLength)
    (hn : n ∈ [1, 2, 3, 4])
    (hheight : 0 < height ∧ height % epochLength = 0)
    (hlow : targetTime ≤ target)
    (hfits : targetTime ≤ epochMaxSafeTarget)
    (hlate : lastTime + targetTime * 2 ^ n ≤ now) :
    ∃ t', computeNextTargetEpoch target lastTime now targetTime height
      epochLength n = .ok t' ∧
      min (target + 1) epochMaxSafeTarget ≤ t' := by
  have hpow : (2 : Int) ≤ 2 ^ n := by
    simp only [List.mem_cons, List.not_mem_nil, or_false] at hn
    rcases hn with rfl | rfl | rfl | rfl <;> decide
  have hdouble : targetTime * 2 ≤ targetTime * 2 ^ n :=
    Int.mul_le_mul_of_nonneg_left hpow (by omega)
  have hfloor : targetTime.fdiv (2 ^ n) ≤ targetTime := by
    rw [Int.fdiv_eq_ediv_of_nonneg _ (by omega)]
    exact Int.ediv_le_self _ (by omega)
  have hdelta : max (targetTime.fdiv (2 ^ n))
      (min (targetTime * 2 ^ n) (now - lastTime)) = targetTime * 2 ^ n := by
    omega
  rw [epoch_eq hT hlen hheight, hdelta]
  refine ⟨_, rfl, ?_⟩
  have hceiling : epochMaxSafeTarget = 281474976710656 := rfl
  have hcapped : targetTime ≤ min target epochMaxSafeTarget :=
    Int.le_min.mpr ⟨hlow, hfits⟩
  have hgrow := half_lt_ediv_mul hT hcapped
  have hq : 0 ≤ min target epochMaxSafeTarget / targetTime :=
    Int.ediv_nonneg (by omega) (by omega)
  have hprod : 2 * (min target epochMaxSafeTarget / targetTime * targetTime) ≤
      min target epochMaxSafeTarget / targetTime * (targetTime * 2 ^ n) := by
    have := Int.mul_le_mul_of_nonneg_left hdouble hq
    calc 2 * (min target epochMaxSafeTarget / targetTime * targetTime)
        = min target epochMaxSafeTarget / targetTime *
          (targetTime * 2) := by ring
      _ ≤ _ := this
  omega

end Slow

/-- **A slow mint raises the target**, or leaves it at the top. -/
theorem slow_rises {rule : Daa} {targetTime target : Int}
    {m : Mint} (hrule : rule.Adaptive) (hT : 1 ≤ targetTime)
    (hfits : rule.bottom targetTime ≤ rule.top targetTime)
    (hlow : rule.bottom targetTime ≤ target)
    (hm : m.Slow rule targetTime) :
    ∃ t', rule.retarget targetTime target m = .ok t' ∧ min (target + 1)
      (rule.top targetTime) ≤ t' := by
  obtain ⟨hheight, hlate⟩ := hm
  cases rule with
  | asertV2 halfLife => exact asertV2_slow hrule hlow hlate
  | linear => exact linear_slow hT hlow hfits hlate
  | epoch epochLength n =>
    exact epoch_slow hT hrule.1 hrule.2 hheight hlow hfits hlate
  | asertLegacy halfLife => exact absurd hrule id
  | schedule entries => exact absurd hrule id

/-- **Slow mints lead to the top**: at each the target rises by one at least. -/
theorem slow_reaches {rule : Daa} {targetTime : Int} (hrule : rule.Adaptive)
    (hT : 1 ≤ targetTime)
    (hfits : rule.bottom targetTime ≤ rule.top targetTime) :
    ∀ {mints : List Mint} {target : Int},
    rule.bottom targetTime ≤ target → (∀ m ∈ mints, m.Slow rule targetTime) →
    ∃ t', rule.afterMints targetTime target mints = .ok t' ∧
      min (target + mints.length) (rule.top targetTime) ≤ t' := by
  intro mints
  induction mints with
  | nil =>
    intro target _ _
    exact ⟨target, rfl, by rw [List.length_nil]; omega⟩
  | cons m mints ih =>
    intro target hlow hslow
    obtain ⟨hm, hmints⟩ := List.forall_mem_cons.mp hslow
    obtain ⟨next, hnext, hrise⟩ := slow_rises hrule hT hfits hlow hm
    obtain ⟨t', ht', hle⟩ := @ih next (by omega) hmints
    refine ⟨t', ?_, ?_⟩
    · rw [Daa.afterMints, List.foldlM_cons, hnext, ok_bind]
      exact ht'
    · rw [List.length_cons]
      push_cast
      omega

/-! ## Where no mint helps -/

section Stuck

variable {target bound lastTime now targetTime halfLife height epochLength :
  Int} {n : Nat}

/-- Below the radix the integer division rounds the drift away. -/
theorem asertV2_stuck (hhalf : 1 ≤ halfLife) (ht : 1 ≤ target)
    (hstuck : target < asertV2Radix) : computeNextTargetAsertV2 target lastTime
    now targetTime halfLife = .ok target := by
  have hceiling : min target asertV2MaxTargetDiv4 = target :=
    min_eq_left (Int.le_trans (Int.le_of_lt hstuck) (by decide))
  rw [asertV2_eq hhalf, hceiling, Int.ediv_eq_zero_of_lt (by omega) hstuck,
    Int.zero_mul, Int.add_zero, hceiling, max_eq_right ht]

/-- Below `target_time` the quotient is zero, whatever it is multiplied by. -/
theorem quotient_zero {cap : Int} (ht : 1 ≤ target) (hcap : 0 ≤ cap)
    (hstuck : target < targetTime) :
    min target cap / targetTime = 0 :=
  Int.ediv_eq_zero_of_lt (by omega) (by omega)

/-- The linear target stays under its own ceiling. -/
theorem linear_le_top (hT : 1 ≤ targetTime) : ∃ t',
      computeNextTargetLinear target lastTime now targetTime = .ok t' ∧ 1 ≤ t' ∧
    t' ≤ max 1 (maxSha256dTarget / 4 / targetTime * (4 * targetTime)) := by
  rw [linear_eq hT]
  refine ⟨_, rfl, Int.le_max_left _ _, ?_⟩
  have hq : min target (maxSha256dTarget / 4) / targetTime ≤
      maxSha256dTarget / 4 / targetTime :=
    Int.ediv_le_ediv (by omega) (Int.min_le_right _ _)
  have hdelta : 0 ≤ max 0 (min (now - lastTime) (4 * targetTime)) :=
    Int.le_max_left _ _
  have hcapped : max 0 (min (now - lastTime) (4 * targetTime)) ≤
      4 * targetTime := by omega
  have htop : 0 ≤ maxSha256dTarget / 4 / targetTime :=
    Int.ediv_nonneg (by decide) (by omega)
  have hprod := Int.le_trans (Int.mul_le_mul_of_nonneg_right hq hdelta)
    (Int.mul_le_mul_of_nonneg_left hcapped htop)
  omega

end Stuck

/-- **No mint raises a target that does not recover**, nor one below it. -/
theorem stuck_mint {rule : Daa} {targetTime bound target : Int}
    (hrule : rule.Adaptive) (hT : 1 ≤ targetTime)
    (hbound : bound < rule.ceiling) (hstuck : ¬ rule.Recovers targetTime bound)
    (ht : 1 ≤ target ∧ target ≤ bound) (m : Mint) :
    ∃ t', rule.retarget targetTime target m = .ok t' ∧ 1 ≤ t' ∧ t' ≤ bound := by
  rw [Daa.Recovers, not_and_or, Int.not_le, Int.not_lt] at hstuck
  -- below its threshold each rule's integer division gives the target back
  cases rule with
  | asertV2 halfLife =>
    have hlow : bound < asertV2Radix := by
      rcases hstuck with hlow | htop
      · exact hlow
      · exact absurd hbound (Int.not_lt.mpr htop)
    exact ⟨target, asertV2_stuck hrule ht.1 (Int.lt_of_le_of_lt ht.2 hlow), ht⟩
  | linear =>
    rcases hstuck with hlow | htop
    · refine ⟨1, ?_, Int.le_refl 1, by omega⟩
      show computeNextTargetLinear target m.lastTime m.currentTime targetTime =
        _
      rw [linear_eq hT,
        quotient_zero ht.1 (show 0 ≤ maxSha256dTarget / 4 by decide)
        (Int.lt_of_le_of_lt ht.2 (show bound < targetTime from hlow)),
          Int.zero_mul]
      rfl
    · obtain ⟨t', hnext, h1, hle⟩ :=
        @linear_le_top target m.lastTime m.currentTime _ hT
      have htop' : maxSha256dTarget / 4 / targetTime *
          (4 * targetTime) ≤ bound := htop
      exact ⟨t', hnext, h1, by omega⟩
  | epoch epochLength n =>
    have hlow : bound < targetTime := by
      rcases hstuck with hlow | htop
      · exact hlow
      · exact absurd hbound (Int.not_lt.mpr htop)
    by_cases hheight : 0 < m.height ∧ m.height % epochLength = 0
    · refine ⟨1, ?_, Int.le_refl 1, by omega⟩
      show computeNextTargetEpoch target m.lastTime m.currentTime targetTime
        m.height epochLength n = _
      rw [epoch_eq hT hrule.1 hheight,
        quotient_zero ht.1 (show 0 ≤ epochMaxSafeTarget by decide)
        (Int.lt_of_le_of_lt ht.2 hlow), Int.zero_mul]
      rfl
    · exact ⟨target, epoch_eq_of_not hrule.1 hheight, ht⟩
  | asertLegacy halfLife => exact absurd hrule id
  | schedule entries => exact absurd hrule id

/-- **No run raises it**, whatever the clocks and the heights. -/
theorem never_rises {rule : Daa} {targetTime bound : Int}
    (hrule : rule.Adaptive) (hT : 1 ≤ targetTime)
    (hbound : bound < rule.ceiling)
    (hstuck : ¬ rule.Recovers targetTime bound) : ∀ {mints : List Mint}
      {target : Int}, 1 ≤ target ∧ target ≤ bound →
    ∃ t', rule.afterMints targetTime target mints = .ok t' ∧ 1 ≤ t' ∧
    t' ≤ bound := by
  intro mints
  induction mints with
  | nil =>
    intro target ht
    exact ⟨target, rfl, ht⟩
  | cons m mints ih =>
    intro target ht
    obtain ⟨next, hnext, hle⟩ := stuck_mint hrule hT hbound hstuck ht m
    obtain ⟨t', ht', hle'⟩ := ih hle
    refine ⟨t', ?_, hle'⟩
    rw [Daa.afterMints, List.foldlM_cons, hnext, ok_bind]
    exact ht'

/-! ## The main theorem -/

/-- **A target below the ceiling is raised by slow mints exactly when it
recovers**: by every late enough mint, by some run of mints, and then by slow
mints up to the top. -/
theorem target_rises_iff {rule : Daa} {targetTime target lastTime height : Int}
    (hrule : rule.Adaptive)
    (hT : 1 ≤ targetTime) (ht : 1 ≤ target ∧ target < rule.ceiling)
    (hheight : rule.RetargetsAt height) :
    ((∃ late, ∀ now, late ≤ now →
      ∃ t', rule.retarget targetTime target ⟨lastTime, now, height⟩ = .ok t' ∧
        target < t') ↔ rule.Recovers targetTime target) ∧
    ((∃ mints t', rule.afterMints targetTime target mints = .ok t' ∧
      target < t') ↔
        rule.Recovers targetTime target) ∧
    (rule.Recovers targetTime target →
      ∃ n : Nat, ∀ mints : List Mint, n ≤ mints.length →
        (∀ m ∈ mints, m.Slow rule targetTime) →
        ∃ t', rule.afterMints targetTime target mints = .ok t' ∧
          rule.top targetTime ≤ t') := by
  have hslow : ∀ {now}, rule.late targetTime lastTime ≤ now →
      (⟨lastTime, now, height⟩ : Mint).Slow rule targetTime :=
    fun hnow => ⟨hheight, hnow⟩
  -- one late block is enough when the rule recovers at all
  have hstep : rule.Recovers targetTime target →
      ∀ now, rule.late targetTime lastTime ≤ now →
      ∃ t', rule.retarget targetTime target ⟨lastTime, now, height⟩ = .ok t' ∧
        target < t' := by
    intro hrec now hnow
    obtain ⟨t', hnext, hrise⟩ := slow_rises hrule hT
      (by have := hrec.1; have := hrec.2; omega) hrec.1 (hslow hnow)
    have := hrec.2
    exact ⟨t', hnext, by omega⟩
  refine ⟨⟨?_, fun hrec => ⟨_, hstep hrec⟩⟩, ⟨?_, ?_⟩, ?_⟩
  · rintro ⟨late, hlate⟩
    by_contra hstuck
    obtain ⟨t', hnext, hlt⟩ := hlate late (Int.le_refl _)
    obtain ⟨u, hu, -, hle⟩ := stuck_mint hrule hT ht.2 hstuck ⟨ht.1,
      Int.le_refl _⟩ ⟨lastTime, late, height⟩
    rw [hnext] at hu
    cases hu
    omega
  · rintro ⟨mints, t', hrun, hlt⟩
    by_contra hstuck
    obtain ⟨u, hu, -, hle⟩ :=
      @never_rises _ _ _ hrule hT ht.2 hstuck mints _ ⟨ht.1, Int.le_refl _⟩
    rw [hrun] at hu
    cases hu
    omega
  · intro hrec
    obtain ⟨t', hnext, hlt⟩ := hstep hrec _ (Int.le_refl _)
    refine ⟨[⟨lastTime, rule.late targetTime lastTime, height⟩], t', ?_, hlt⟩
    rw [Daa.afterMints, List.foldlM_cons, hnext, ok_bind]
    rfl
  · intro hrec
    refine ⟨(rule.top targetTime - target).toNat, fun mints hlen hmints => ?_⟩
    obtain ⟨t', hrun, hle⟩ := slow_reaches hrule hT
      (by have := hrec.1; have := hrec.2; omega) hrec.1 hmints
    exact ⟨t', hrun, by omega⟩

/-- At `RADIX` itself, with a minute for a target time. -/
theorem target_rises_radix :
    ((∃ late, ∀ now, late ≤ now → ∃ t', (Daa.asertV2 60).retarget 60 65536 ⟨0,
      now, 7⟩ = .ok t' ∧ 65536 < t') ↔ (Daa.asertV2 60).Recovers 60 65536) ∧
    ((∃ mints t', (Daa.asertV2 60).afterMints 60 65536 mints =
      .ok t' ∧ 65536 < t') ↔
        (Daa.asertV2 60).Recovers 60 65536) ∧
    ((Daa.asertV2 60).Recovers 60 65536 →
      ∃ n : Nat, ∀ mints : List Mint, n ≤ mints.length →
        (∀ m ∈ mints, m.Slow (.asertV2 60) 60) →
        ∃ t', (Daa.asertV2 60).afterMints 60 65536 mints = .ok t' ∧
          (Daa.asertV2 60).top 60 ≤ t') :=
  @target_rises_iff (.asertV2 60) 60 65536 0 7 (by decide : (1 : Int) ≤ 60)
    (by decide) ⟨by decide, by decide⟩ trivial

/-- **The dead zone**: one fast mint leads from `RADIX` to 49152, and no late
mint leads back. Under the linear rule and at an epoch boundary a target of 30
with mints every 60 seconds falls to 1. -/
theorem dead_zone :
    (Daa.asertV2 60).retarget 60 65536 ⟨0, 0, 1⟩ = .ok 49152 ∧
    (¬ ∃ late, ∀ now, late ≤ now →
      ∃ t', (Daa.asertV2 60).retarget 60 49152 ⟨0, now,
        2⟩ = .ok t' ∧ 49152 < t') ∧
    (¬ ∃ late, ∀ now, late ≤ now → ∃ t', Daa.linear.retarget 60 30 ⟨0, now,
      2⟩ = .ok t' ∧ 30 < t') ∧
    (¬ ∃ late, ∀ now, late ≤ now → ∃ t', (Daa.epoch 2 1).retarget 60 30 ⟨0, now,
      2⟩ = .ok t' ∧ 30 < t') := by
  have hnever : ∀ {rule : Daa} {target : Int}, rule.Adaptive → 1 ≤ target →
      target < rule.ceiling →
      target < rule.bottom 60 →
      ¬ ∃ late, ∀ now, late ≤ now →
        ∃ t', rule.retarget 60 target ⟨0, now, 2⟩ = .ok t' ∧ target < t' := by
    rintro rule target hrule h1 hceiling hlow ⟨late, hlate⟩
    obtain ⟨t', hnext, hlt⟩ := hlate late (Int.le_refl _)
    obtain ⟨u, hu, -, hle⟩ := stuck_mint hrule (by decide) hceiling (fun hrec =>
      absurd hrec.1 (Int.not_le.mpr hlow)) ⟨h1, Int.le_refl _⟩ ⟨0, late, 2⟩
    rw [hnext] at hu
    cases hu
    omega
  refine ⟨by decide, ?_, ?_, ?_⟩
  · exact @hnever (.asertV2 60) 49152 (by decide : (1 : Int) ≤ 60) (by decide)
      (by decide) (by decide)
  · exact @hnever .linear 30 trivial (by decide) (by decide) (by decide)
  · exact @hnever (.epoch 2 1) 30 ⟨by decide, by decide⟩ (by decide)
      (by decide) (by decide)

end Pyrxd.Glyph
