import Mathlib.Algebra.Order.Field.Rat
import Mathlib.Data.Int.Log
import Mathlib.Data.Rat.Floor
import Mathlib.Tactic.FieldSimp
import Mathlib.Tactic.Linarith
import Mathlib.Tactic.Positivity
import Mathlib.Tactic.Ring

/-!
# Rounding to a double

The value of a floating-point operation is the exact one, rounded to the nearest
double, to the even one of two that are equally near. `toDouble` is that
rounding on the rationals. The exponent has no upper bound here: `Overflows`
says where the format would have none left, and an operation that can get there
asks first.

Everything about the order goes through `Representable`, the numbers with 53
bits of significand: rounding never crosses one (`toDouble_le`, `le_toDouble`).
`le_toDouble_natCast_iff` and `toDouble_le_natCast_iff` then say exactly which
numbers round onto a whole one, which is all that a ceiling or a floor of a
double can see.

`PyFloat` adds what a clock or a file may hold besides: the infinities and NaN.
-/

namespace Pyrxd.Lib

/-- The distance between doubles at `x`. -/
def spacing (x : ℚ) : ℚ := 2 ^ max (Int.log 2 |x| - 52) (-1074)

/-- The nearest integer, the even one of two. -/
def roundEven (y : ℚ) : ℤ :=
  if Int.fract y < 1 / 2 then ⌊y⌋
  else if 1 / 2 < Int.fract y then ⌊y⌋ + 1
  else if ⌊y⌋ % 2 = 0 then ⌊y⌋ else ⌊y⌋ + 1

/-- The nearest double, the even one of two. -/
def toDouble (x : ℚ) : ℚ := roundEven (x / spacing x) * spacing x

/-- The rounded value is past the largest double. -/
def Overflows (x : ℚ) : Prop := 2 ^ 1024 ≤ |toDouble x|

instance (x : ℚ) : Decidable (Overflows x) :=
  inferInstanceAs (Decidable (_ ≤ _))

/-- An integer over a double: the integer is converted first. -/
def quotDouble (n : ℤ) (r : ℚ) : ℚ := toDouble (toDouble n / r)

/-- An integer times a double. -/
def mulDouble (n : ℤ) (r : ℚ) : ℚ := toDouble (toDouble n * r)

/-! ## Rounding to an integer -/

section RoundEven

variable {y : ℚ} {n : ℤ}

/-- Rounding does not pass an integer above. -/
theorem roundEven_le_of_le (h : y ≤ n) : roundEven y ≤ n := by
  have hfloor : ⌊y⌋ ≤ n := by
    have := (Int.floor_le y).trans h
    exact_mod_cast this
  rcases hfloor.lt_or_eq with hlt | heq
  · unfold roundEven
    split_ifs <;> omega
  · -- `y` is the integer itself
    have hy : Int.fract y = 0 := by
      rw [Int.fract, heq]
      have := Int.floor_le y
      rw [heq] at this
      linarith
    rw [roundEven, if_pos (by rw [hy]; norm_num)]
    exact hfloor

theorem le_roundEven_of_le (h : (n : ℚ) ≤ y) : n ≤ roundEven y := by
  have hfloor : n ≤ ⌊y⌋ := Int.le_floor.mpr h
  unfold roundEven
  split_ifs <;> omega

/-- An even integer is reached from half a unit below on. -/
theorem le_roundEven_iff (hn : n % 2 = 0) : n ≤ roundEven y ↔
    (n : ℚ) - 1 / 2 ≤ y := by
  rcases lt_trichotomy ⌊y⌋ (n - 1) with hlt | heq | hgt
  · constructor
    · intro h
      have : roundEven y ≤ ⌊y⌋ + 1 := by
        unfold roundEven
        split_ifs <;> omega
      omega
    · intro h
      have := Int.lt_floor_add_one y
      have hcast : (⌊y⌋ : ℚ) + 2 ≤
          n := by exact_mod_cast (by omega : ⌊y⌋ + 2 ≤ n)
      linarith
  · have hfract : Int.fract y = y - (n - 1 : ℤ) := by rw [Int.fract, heq]
    push_cast at hfract
    unfold roundEven
    rw [heq, hfract]
    -- the integer below is odd, so the tie goes up
    split_ifs with h1 h2 h3
    · exact ⟨fun h => by omega, fun h => by linarith⟩
    · exact ⟨fun _ => by linarith, fun _ => by omega⟩
    · omega
    · exact ⟨fun _ => by linarith, fun _ => by omega⟩
  · have hle : n ≤ ⌊y⌋ := by omega
    have hcast : (n : ℚ) ≤ y := Int.le_floor.mp hle
    exact ⟨fun _ => by linarith, fun _ => le_roundEven_of_le hcast⟩

/-- And kept up to half a unit above. -/
theorem roundEven_le_iff (hn : n % 2 = 0) : roundEven y ≤ n ↔
    y ≤ (n : ℚ) + 1 / 2 := by
  rcases lt_trichotomy ⌊y⌋ n with hlt | heq | hgt
  · have hcast : y < n := Int.floor_lt.mp hlt
    exact ⟨fun _ => by linarith, fun _ => roundEven_le_of_le hcast.le⟩
  · have hfract : Int.fract y = y - n := by rw [Int.fract, heq]
    unfold roundEven
    rw [heq, hfract]
    split_ifs with h1 h2
    · exact ⟨fun _ => by linarith, fun _ => le_refl n⟩
    · exact ⟨fun h => by omega, fun h => by linarith⟩
    · exact ⟨fun _ => by linarith, fun _ => le_refl n⟩
  · have hcast : (n : ℚ) + 1 ≤ y := by
      have := Int.le_floor.mp (by omega : n + 1 ≤ ⌊y⌋)
      push_cast at this
      exact this
    constructor
    · intro h
      have := le_roundEven_of_le (n := n + 1)
        (y := y) (by push_cast; exact hcast)
      omega
    · intro h
      linarith

end RoundEven

/-! ## The representable numbers -/

/-- Neighbouring doubles are apart. -/
theorem spacing_pos (x : ℚ) : 0 < spacing x := zpow_pos (by norm_num) _

/-- A significand of 53 bits and an exponent in range. -/
def Representable (z : ℚ) : Prop :=
  ∃ m e : ℤ, |m| ≤ 2 ^ 53 ∧ -1074 ≤ e ∧ z = m * 2 ^ e

/-- Integers up to `2^53` are doubles. -/
theorem representable_intCast {n : ℤ} (h : |n| ≤ 2 ^ 53) : Representable n :=
  ⟨n, 0, h, by norm_num, by simp⟩

/-- Whole and half numbers. -/
theorem representable_half {n : ℤ} (h : |n| ≤ 2 ^ 53) : Representable (n / 2) :=
  ⟨n, -1, h, by norm_num, by rw [zpow_neg_one]; ring⟩

section Bounds

variable {x z : ℚ}

/-- A representable number is a multiple of the spacing at `x`, or `x` is at
least as far out as the power of two that the spacing starts at. -/
theorem Representable.multiple_or (hz : Representable z) (hx : x ≠ 0) :
    (∃ n : ℤ, z = n * spacing x) ∨ |z| ≤ 2 ^ 52 * spacing x ∧
      2 ^ 52 * spacing x ≤ |x| := by
  obtain ⟨m, e, hm, he, rfl⟩ := hz
  rcases le_or_gt (max (Int.log 2 |x| - 52) (-1074)) e with hle | hlt
  · left
    obtain ⟨k, hk⟩ := Int.eq_ofNat_of_zero_le (sub_nonneg.mpr hle)
    refine ⟨m * 2 ^ k, ?_⟩
    rw [spacing, Int.cast_mul, mul_assoc]
    congr 1
    push_cast
    rw [← zpow_natCast, ← hk, ← zpow_add₀ (by norm_num)]
    congr 1
    omega
  · right
    -- the exponent of `x` is above the least one, so the spacing is a fraction
    -- of `x`
    have hmax : max (Int.log 2 |x| - 52) (-1074) =
        Int.log 2 |x| - 52 := by omega
    have hspacing : 2 ^ 52 * spacing x = 2 ^ Int.log 2 |x| := by
      rw [spacing, hmax, ← zpow_natCast, ← zpow_add₀ (by norm_num)]
      congr 1
      push_cast
      ring
    rw [hspacing]
    constructor
    · have hcast : |(m : ℚ)| ≤ 2 ^ 53 := by exact_mod_cast hm
      have hpos : (0 : ℚ) < 2 ^ e := zpow_pos (by norm_num) _
      calc |(m : ℚ) * 2 ^ e| = |(m : ℚ)| * 2 ^ e := by rw [abs_mul,
        abs_of_pos hpos]
        _ ≤ 2 ^ 53 * 2 ^ e := mul_le_mul_of_nonneg_right hcast hpos.le
        _ = 2 ^ (53 + e) := by rw [zpow_add₀ (by norm_num)]; norm_num
        _ ≤ 2 ^ Int.log 2 |x| := zpow_le_zpow_right₀ (by norm_num) (by omega)
    · exact_mod_cast Int.zpow_log_le_self (b := 2) (by norm_num)
        (abs_pos.mpr hx)

@[simp] theorem toDouble_zero : toDouble 0 = 0 := by decide +kernel

/-- Rounding does not pass a multiple of the spacing above. -/
theorem toDouble_le_multiple {n : ℤ} (h : x ≤ n * spacing x) :
    toDouble x ≤ n * spacing x := by
  have hround : roundEven (x / spacing x) ≤ n :=
    roundEven_le_of_le ((div_le_iff₀ (spacing_pos x)).mpr h)
  exact mul_le_mul_of_nonneg_right (by exact_mod_cast hround) (spacing_pos x).le

theorem multiple_le_toDouble {n : ℤ} (h : n * spacing x ≤ x) :
    n * spacing x ≤ toDouble x := by
  have hround : n ≤ roundEven (x / spacing x) :=
    le_roundEven_of_le ((le_div_iff₀ (spacing_pos x)).mpr h)
  exact mul_le_mul_of_nonneg_right (by exact_mod_cast hround) (spacing_pos x).le

/-- Rounding does not rise past a representable number. -/
theorem toDouble_le (hz : Representable z) (h : x ≤ z) : toDouble x ≤ z := by
  rcases eq_or_ne x 0 with rfl | hx0
  · rwa [toDouble_zero]
  rcases hz.multiple_or hx0 with ⟨n, rfl⟩ | ⟨hzle, hxle⟩
  · exact toDouble_le_multiple h
  · rcases le_or_gt 0 x with hx | hx
    · -- `x` is the power of two itself
      rw [abs_of_nonneg hx] at hxle
      have hzx : z = x :=
        le_antisymm (((le_abs_self z).trans hzle).trans hxle) h
      have hx52 : x = ((2 ^ 52 : ℤ) : ℚ) * spacing x := by
        push_cast
        exact le_antisymm (h.trans ((le_abs_self z).trans hzle)) hxle
      rw [hzx]
      conv_rhs => rw [hx52]
      exact toDouble_le_multiple hx52.le
    · rw [abs_of_neg hx] at hxle
      have hlow : x ≤ ((-2 ^ 52 : ℤ) : ℚ) * spacing x := by
        push_cast
        linarith
      refine (toDouble_le_multiple hlow).trans ?_
      have := neg_abs_le z
      push_cast
      linarith

/-- Nor fall past one. -/
theorem le_toDouble (hz : Representable z) (h : z ≤ x) : z ≤ toDouble x := by
  rcases eq_or_ne x 0 with rfl | hx0
  · rwa [toDouble_zero]
  rcases hz.multiple_or hx0 with ⟨n, rfl⟩ | ⟨hzle, hxle⟩
  · exact multiple_le_toDouble h
  · rcases le_or_gt 0 x with hx | hx
    · rw [abs_of_nonneg hx] at hxle
      have hup : ((2 ^ 52 : ℤ) : ℚ) * spacing x ≤ x := by
        push_cast
        exact hxle
      refine le_trans ?_ (multiple_le_toDouble hup)
      push_cast
      exact (le_abs_self z).trans hzle
    · rw [abs_of_neg hx] at hxle
      have hzlow := neg_abs_le z
      have hx52 : x = ((-2 ^ 52 : ℤ) : ℚ) * spacing x := by
        push_cast
        linarith
      have hzx : z = x := by linarith
      rw [hzx]
      conv_lhs => rw [hx52]
      exact multiple_le_toDouble hx52.ge

theorem toDouble_eq (hz : Representable z) : toDouble z = z :=
  le_antisymm (toDouble_le hz le_rfl) (le_toDouble hz le_rfl)

theorem toDouble_nonneg (h : 0 ≤ x) : 0 ≤ toDouble x := by
  have hzero : Representable ((0 : ℤ) : ℚ) :=
    representable_intCast (by norm_num)
  exact_mod_cast le_toDouble hzero (by exact_mod_cast h)

/-- Integers of at most 53 bits are doubles. -/
theorem toDouble_intCast {n : ℤ} (h : |n| ≤ 2 ^ 53) : toDouble n = n :=
  toDouble_eq (representable_intCast h)

/-- What rounds to less than an integer that does not overflow does not
overflow. -/
theorem not_overflows_of_lt {n : ℤ} (hn : ¬ Overflows n) (hx : 0 ≤ x)
    (h : toDouble x < n) :
    ¬ Overflows x := by
  intro hbig
  have htop : Representable (2 ^ 1024) :=
    ⟨1, 1024, by norm_num, by norm_num, by norm_num⟩
  rw [Overflows, abs_of_nonneg (toDouble_nonneg hx)] at hbig
  exact hn ((le_toDouble htop (hbig.trans h.le)).trans (le_abs_self _))

end Bounds

/-! ## What rounds onto a whole number -/

/-- Half the distance from `k` to the next double below. -/
def halfBelow (k : ℕ) : ℚ := 2 ^ (Int.log 2 ((k : ℚ) - 1 / 2) - 53)

/-- Half the distance from `k` to the next double above. -/
def halfAbove (k : ℕ) : ℚ := 2 ^ ((Nat.log 2 k : ℤ) - 53)

section Whole

variable {k : ℕ} {x : ℚ}

/-- In one binade the spacing is the same. -/
theorem spacing_of_binade {e : ℤ} (he : -1022 ≤ e) (hlow : 2 ^ e ≤ x)
    (hup : x < 2 ^ (e + 1)) :
    spacing x = 2 ^ (e - 52) := by
  have hx : 0 < x := (zpow_pos (by norm_num) e).trans_le hlow
  have hlog : Int.log 2 x = e := by
    have h1 : e ≤ Int.log 2 x :=
      (Int.zpow_le_iff_le_log (b := 2) (by norm_num) hx).mp
        (by push_cast; exact hlow)
    have h2 : Int.log 2 x < e + 1 :=
      (Int.lt_zpow_iff_log_lt (b := 2) (by norm_num) hx).mp
        (by push_cast; exact hup)
    omega
  rw [spacing, abs_of_pos hx, hlog, max_eq_left (by omega)]

/-- A fine spacing divides a whole number an even number of times, so that ties
go to it. -/
theorem even_multiple (k : ℕ) {e : ℤ} (he : e ≤ -1) :
    ∃ n : ℤ, n % 2 = 0 ∧ (k : ℚ) = n * 2 ^ e := by
  obtain ⟨j, hj⟩ := Int.eq_ofNat_of_zero_le (by omega : 0 ≤ -e - 1)
  refine ⟨k * 2 ^ j * 2, by omega, ?_⟩
  have hpow : (2 : ℚ) ^ j * 2 * 2 ^ e = 1 := by
    rw [← zpow_natCast, ← zpow_add_one₀ (by norm_num),
      ← zpow_add₀ (by norm_num)]
    rw [show (j : ℤ) + 1 + e = 0 by omega, zpow_zero]
  push_cast
  rw [mul_assoc, mul_assoc, ← mul_assoc (2 ^ j : ℚ), hpow, mul_one]

/-- Where ties go to `k`, it is reached from half a spacing below. -/
theorem le_toDouble_iff_of_spacing {e : ℤ} (he : e ≤ -1)
    (hx : spacing x = 2 ^ e) :
    (k : ℚ) ≤ toDouble x ↔ (k : ℚ) - 2 ^ e / 2 ≤ x := by
  obtain ⟨n, hn, hk⟩ := even_multiple k he
  have hpos : (0 : ℚ) < 2 ^ e := zpow_pos (by norm_num) e
  rw [toDouble, hx, hk, mul_le_mul_iff_left₀ hpos, Int.cast_le,
    le_roundEven_iff hn,
    le_div_iff₀ hpos]
  exact ⟨fun h => by linarith, fun h => by linarith⟩

/-- And kept up to half a spacing above. -/
theorem toDouble_le_iff_of_spacing {e : ℤ} (he : e ≤ -1)
    (hx : spacing x = 2 ^ e) :
    toDouble x ≤ k ↔ x ≤ (k : ℚ) + 2 ^ e / 2 := by
  obtain ⟨n, hn, hk⟩ := even_multiple k he
  have hpos : (0 : ℚ) < 2 ^ e := zpow_pos (by norm_num) e
  rw [toDouble, hx, hk, mul_le_mul_iff_left₀ hpos, Int.cast_le,
    roundEven_le_iff hn,
    div_le_iff₀ hpos]
  exact ⟨fun h => by linarith, fun h => by linarith⟩

/-- Half a spacing, written as a power. -/
theorem half_zpow (e : ℤ) : (2 : ℚ) ^ (e - 52) / 2 = 2 ^ (e - 53) := by
  rw [div_eq_mul_inv, ← zpow_sub_one₀ (by norm_num)]
  congr 1
  omega

/-- Half the spacing near a whole number is small. -/
theorem half_lt {e : ℤ} (he : e ≤ 51) : (2 : ℚ) ^ (e - 53) < 1 / 2 := by
  calc (2 : ℚ) ^ (e - 53) ≤
      2 ^ (-2 : ℤ) := zpow_le_zpow_right₀ (by norm_num) (by omega)
    _ < 1 / 2 := by norm_num

/-- The binade just below `k`. -/
theorem log_below {e : ℤ} (heq : Int.log 2 ((k : ℚ) - 1 / 2) = e) (h1 : 1 ≤ k)
    (hk : k ≤ 2 ^ 52) :
    -1 ≤ e ∧ e ≤ 51 ∧ (2 : ℚ) ^ e ≤ k - 1 / 2 ∧ (k : ℚ) ≤ 2 ^ (e + 1) := by
  subst heq
  have hcast : (1 : ℚ) ≤ k := by exact_mod_cast h1
  have hpos : (0 : ℚ) < k - 1 / 2 := by linarith
  have hlow : (2 : ℚ) ^ Int.log 2 ((k : ℚ) - 1 / 2) ≤ k - 1 / 2 := by
    exact_mod_cast Int.zpow_log_le_self (b := 2) (by norm_num) hpos
  have hup : (k : ℚ) - 1 / 2 < 2 ^ (Int.log 2 ((k : ℚ) - 1 / 2) + 1) := by
    exact_mod_cast Int.lt_zpow_succ_log_self (b := 2) (by norm_num)
      ((k : ℚ) - 1 / 2)
  have he : -1 ≤ Int.log 2 ((k : ℚ) - 1 / 2) := by
    refine (Int.zpow_le_iff_le_log (b := 2) (by norm_num) hpos).mp ?_
    norm_num
    linarith
  have he' : Int.log 2 ((k : ℚ) - 1 / 2) < 52 := by
    refine (Int.lt_zpow_iff_log_lt (b := 2) (by norm_num) hpos).mp ?_
    have : (k : ℚ) ≤ 2 ^ 52 := by exact_mod_cast hk
    norm_num
    linarith
  refine ⟨he, by omega, hlow, ?_⟩
  -- a power of two is a whole number from the first on
  obtain ⟨j, hj⟩ :=
    Int.eq_ofNat_of_zero_le (by omega : 0 ≤ Int.log 2 ((k : ℚ) - 1 / 2) + 1)
  rw [hj, zpow_natCast] at hup ⊢
  have hlt : (k : ℚ) < ((2 ^ j + 1 : ℕ) : ℚ) := by
    push_cast
    linarith
  exact_mod_cast Nat.le_of_lt_succ (by exact_mod_cast hlt)

/-- The binade that `k` is in. -/
theorem log_above (h1 : 1 ≤ k) (hk : k < 2 ^ 52) :
    Nat.log 2 k ≤ 51 ∧ (2 : ℚ) ^ (Nat.log 2 k : ℤ) ≤ k ∧
      (k : ℚ) + 1 ≤ 2 ^ ((Nat.log 2 k : ℤ) + 1) := by
  have hlog : Nat.log 2 k < 52 := Nat.log_lt_of_lt_pow (by omega) hk
  have hlow : 2 ^ Nat.log 2 k ≤ k := Nat.pow_log_le_self 2 (by omega)
  have hup : k < 2 ^ (Nat.log 2 k + 1) :=
    Nat.lt_pow_succ_log_self (by norm_num) k
  refine ⟨by omega, ?_, ?_⟩
  · rw [zpow_natCast]
    exact_mod_cast hlow
  · rw [zpow_add_one₀ (by norm_num), zpow_natCast]
    exact_mod_cast hup

/-- **What reaches a whole number from below**: half the distance to the double
before it. -/
theorem le_toDouble_natCast_iff (h1 : 1 ≤ k) (hk : k ≤ 2 ^ 52) :
    (k : ℚ) ≤ toDouble x ↔ (k : ℚ) - halfBelow k ≤ x := by
  obtain ⟨he, he', hlow, hup⟩ := log_below rfl h1 hk
  have hhalf := half_lt he'
  have hcast : |(k : ℤ)| ≤ 2 ^ 53 := by
    rw [abs_of_nonneg (by omega)]
    exact_mod_cast hk.trans (by norm_num)
  rcases le_or_gt (k : ℚ) x with hle | hgt
  · have hround := le_toDouble (z := ((k : ℤ) : ℚ))
      (representable_intCast hcast) (by exact_mod_cast hle)
    have hpos : 0 < halfBelow k := zpow_pos (by norm_num) _
    exact ⟨fun _ => by linarith, fun _ => by exact_mod_cast hround⟩
  rcases le_or_gt ((k : ℚ) - 1 / 2) x with hle | hlt
  · -- in the binade just below `k`
    have hspacing :=
      spacing_of_binade (by omega) (hlow.trans hle) (hgt.trans_le hup)
    rw [le_toDouble_iff_of_spacing (by omega) hspacing, half_zpow, halfBelow]
  · have hodd : |2 * (k : ℤ) - 1| ≤ 2 ^ 53 := by
      rw [abs_of_nonneg (by omega)]
      omega
    have hround :=
      toDouble_le (representable_half hodd) (x := x) (by push_cast; linarith)
    push_cast at hround
    unfold halfBelow
    exact ⟨fun _ => by linarith, fun _ => by linarith⟩

/-- **What is kept by a whole number from above.** -/
theorem toDouble_le_natCast_iff (h1 : 1 ≤ k) (hk : k < 2 ^ 52)
    (hx : (k : ℚ) ≤ x) :
    toDouble x ≤ k ↔ x ≤ (k : ℚ) + halfAbove k := by
  obtain ⟨he, hlow, hup⟩ := log_above h1 hk
  have hhalf := half_lt (by omega : (Nat.log 2 k : ℤ) ≤ 51)
  rcases lt_or_ge x ((k : ℚ) + 1 / 2) with hlt | hge
  · have hspacing := spacing_of_binade (by omega) (hlow.trans hx) (by linarith)
    rw [toDouble_le_iff_of_spacing (by omega) hspacing, half_zpow, halfAbove]
  · have hodd : |2 * (k : ℤ) + 1| ≤ 2 ^ 53 := by
      rw [abs_of_nonneg (by omega)]
      omega
    have hround :=
      le_toDouble (representable_half hodd) (x := x) (by push_cast; linarith)
    push_cast at hround
    unfold halfAbove
    exact ⟨fun _ => by linarith, fun _ => by linarith⟩

theorem halfBelow_le (h1 : 1 ≤ k) : halfBelow k ≤ k / 2 := by
  have hcast : (1 : ℚ) ≤ k := by exact_mod_cast h1
  have hlow : (2 : ℚ) ^ Int.log 2 ((k : ℚ) - 1 / 2) ≤ k - 1 / 2 := by
    exact_mod_cast Int.zpow_log_le_self (b := 2) (by norm_num)
      (by linarith : (0 : ℚ) < k - 1 / 2)
  calc halfBelow k ≤ 2 ^ (Int.log 2 ((k : ℚ) - 1 / 2) - 1) :=
        zpow_le_zpow_right₀ (by norm_num) (by omega)
    _ = 2 ^ Int.log 2 ((k : ℚ) - 1 / 2) / 2 :=
        (zpow_sub_one₀ (by norm_num) _).trans (div_eq_mul_inv _ _).symm
    _ ≤ k / 2 := by linarith

end Whole

/-! ## Infinities and NaN -/

/-- A `float`: a finite double, or one of the others. -/
inductive PyFloat where
  | finite (q : ℚ)
  | nan
  | infinity (negative : Bool)
deriving DecidableEq

namespace PyFloat

/-- An exact value, rounded. -/
def round (q : ℚ) : PyFloat :=
  if Overflows q then infinity (decide (q < 0)) else finite (toDouble q)

/-- `a - b`. -/
def sub : PyFloat → PyFloat → PyFloat
  | finite a, finite b => round (a - b)
  | infinity s, finite _ => infinity s
  | finite _, infinity s => infinity !s
  | infinity s, infinity t => if s = t then nan else infinity s
  | _, _ => nan

/-- `a < b`, which no NaN is. -/
def Lt : PyFloat → PyFloat → Prop
  | finite a, finite b => a < b
  | infinity true, finite _ | finite _, infinity false
  | infinity true, infinity false => True
  | _, _ => False

/-- `a <= b`. -/
def Le : PyFloat → PyFloat → Prop
  | finite a, finite b => a ≤ b
  | infinity true, finite _ | finite _, infinity false => True
  | infinity s, infinity t => s = true ∨ t = false
  | _, _ => False

instance : DecidableRel Lt
  | finite a, finite b => inferInstanceAs (Decidable (a < b))
  | infinity true, finite _ | finite _, infinity false
  | infinity true, infinity false => isTrue trivial
  | nan, _ | finite _, nan | infinity true, nan | infinity false, _
  | finite _, infinity true | infinity true, infinity true => isFalse id

/-- **The two comparisons are each other's opposites but for NaN.** -/
theorem not_lt {a b : PyFloat} : ¬ a.Lt b ↔ b.Le a ∨ a = nan ∨ b = nan := by
  cases a with
  | nan => simp [Lt]
  | finite x =>
    cases b with
    | nan => simp [Lt]
    | finite y => simp [Lt, Le]
    | infinity t => cases t <;> simp [Lt, Le]
  | infinity s =>
    cases b with
    | nan => cases s <;> simp [Lt]
    | finite y => cases s <;> simp [Lt, Le]
    | infinity t => cases s <;> cases t <;> simp [Lt, Le]

end PyFloat

end Pyrxd.Lib
