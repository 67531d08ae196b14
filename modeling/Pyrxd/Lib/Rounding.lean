import Mathlib.Data.Int.ConditionallyCompleteOrder
import Mathlib.Data.Rat.Floor
import Mathlib.Order.GaloisConnection.Basic

/-!
# Rounding by a rational rate

A count scaled by an exact rate and rounded up, and divided by it and rounded
down. The two are adjoint (`scale_galois`), which is all that a bound on the one
side needs to become a bound on the other. Rates that are floats round before
they are rounded up; that is `Lib.Double`.
-/

namespace Pyrxd.Lib

/-- `math.ceil(n * r)`, the product exact. -/
def scaleUp (r : ℚ) (n : ℤ) : ℤ := ⌈(n : ℚ) * r⌉

/-- `math.floor(n / r)`, the quotient exact. -/
def scaleDown (r : ℚ) (n : ℤ) : ℤ := ⌊(n : ℚ) / r⌋

variable {r : ℚ} {n m : ℤ}

/-- Rounding up and down are adjoint. -/
theorem scaleUp_le (hr : 0 < r) : scaleUp r n ≤ m ↔ n ≤ scaleDown r m := by
  rw [scaleUp, scaleDown, Int.ceil_le, Int.le_floor, le_div_iff₀ hr]

/-- **Rounding up and rounding down are adjoint.** -/
theorem scale_galois (hr : 0 < r) : GaloisConnection (scaleUp r)
    (scaleDown r) :=
  fun _ _ => scaleUp_le hr

/-- Rounding up keeps the order. -/
theorem scaleUp_mono (hr : 0 < r) (h : n ≤ m) : scaleUp r n ≤ scaleUp r m :=
  (scale_galois hr).monotone_l h

end Pyrxd.Lib
