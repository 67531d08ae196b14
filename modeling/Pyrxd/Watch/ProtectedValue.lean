import Pyrxd.Gravity.ClaimWindow
import Pyrxd.Watch.ClaimExecutor

/-!
# The value a burial protects

`max_protected_value`, the ceiling of the autonomous executor, against the
burial that the coordinator demands for a value: one rounds down where the other
rounds up, over the same rate.
-/

namespace Pyrxd.Watch

open Pyrxd.Lib Pyrxd.Gravity

section Ceiling

variable {burial cost : Int} {factor : ℚ}

/-- The integer quotient is the rational one, rounded down. -/
theorem protectedValue_eq (hfactor : 1 ≤ factor) (hcost : 0 < cost) :
    burial * cost * (factor.den : Int) / factor.num = scaleDown
      (factor / cost) burial := by
  have hnum : 0 < factor.num := Rat.num_pos.mpr (lt_of_lt_of_le one_pos hfactor)
  have hcost' : (cost : ℚ) ≠ 0 := by exact_mod_cast hcost.ne'
  have hnum' : (factor.num : ℚ) ≠ 0 := by exact_mod_cast hnum.ne'
  have hfactor' : factor ≠ 0 := (lt_of_lt_of_le one_pos hfactor).ne'
  have hquot : ((burial * cost * (factor.den : Int) : Int) : ℚ) /
      (factor.num : ℚ) = (burial : ℚ) / (factor / cost) := by
    rw [div_div_eq_mul_div, div_eq_div_iff hnum' hfactor', Int.cast_mul,
      Int.cast_mul, Int.cast_natCast, mul_assoc _ _ factor,
      mul_comm (factor.den : ℚ), Rat.mul_den_eq_num]
  have hnat : ((factor.num.toNat : Int)) = factor.num :=
    Int.toNat_of_nonneg hnum.le
  have hfloor := Rat.floor_intCast_div_natCast (burial * cost *
    (factor.den : Int)) factor.num.toNat
  have hcast : ((factor.num.toNat : Nat) : ℚ) =
      factor.num := by exact_mod_cast hnat
  rw [hnat, hcast] at hfloor
  rw [scaleDown, ← hquot, hfloor]

/-- The ceiling of a burial, for inputs that pass the checks. -/
theorem maxProtectedValue_eq (hburial : 0 < burial) (hcost : 0 < cost)
    (hfactor : 1 ≤ factor) :
    maxProtectedValue burial cost factor = .ok
      (scaleDown (factor / cost) burial) := by
  rw [maxProtectedValue, ← protectedValue_eq hfactor hcost]
  unfold refuseIf
  rw [if_neg (not_le.mpr hburial), if_neg (not_le.mpr hcost),
    if_neg (not_lt.mpr hfactor)]
  rfl

end Ceiling

/-- **The executor's ceiling and the coordinator's burial agree on every
value.** -/
theorem protected_value_iff (burial cost value : Int) (factor : ℚ)
    (hburial : 0 < burial) (hcost : 0 < cost) (hfactor : 1 ≤ factor) :
    ∃ ceiling, maxProtectedValue burial cost factor = .ok ceiling ∧
      ∀ p : MarginPolicy, p.rxdReorgCostPerBlock = some cost →
        p.burialSafetyFactor = factor →
        (value ≤ ceiling ↔
          valueScaledBurialBlocks p (some value) ≤ burial) := by
  refine ⟨_, maxProtectedValue_eq hburial hcost hfactor, ?_⟩
  rintro p hpcost rfl
  rw [valueScaledBurialBlocks_eq hpcost]
  exact (scale_galois (burialRate_pos hpcost) value burial).symm

/-- The sample margin is a lock. -/
theorem slopeMargin_fits : Btc.bip68Units 36 .blocks ≤
    Btc.sequenceLocktimeMask := by decide

/-- A policy that demands a burial for three quarters of the value again. -/
def slopePolicy : MarginPolicy where
  margin := ⟨36, .blocks, slopeMargin_fits⟩
  blockIntervalS := 600
  isMeasured := true
  rxdReorgCostPerBlock := some 7
  valueAtRiskPhotons := some 24
  burialSafetyFactor := 7 / 4
  valid := by decide +kernel

/-- Six blocks at seven photons protect 24 photons, and 25 need a seventh. -/
theorem protected_value_iff_boundary :
    ∃ ceiling, maxProtectedValue 6 7 (7 / 4) = .ok ceiling ∧
    (24 ≤ ceiling ↔ valueScaledBurialBlocks slopePolicy (some 24) ≤ 6) := by
  obtain ⟨ceiling, hceiling, hiff⟩ := protected_value_iff 6 7 24 (7 / 4)
    (by decide) (by decide) (by decide +kernel)
  exact ⟨ceiling, hceiling, hiff slopePolicy rfl rfl⟩

example : valueScaledBurialBlocks slopePolicy (some 24) = 6 ∧
    valueScaledBurialBlocks slopePolicy (some 25) = 7 := by
  decide +kernel

end Pyrxd.Watch
