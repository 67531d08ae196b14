import Mathlib.Data.Nat.Digits.Lemmas

/-!
# Changing the base, leading zeros kept

A string of digits, most significant first, is written in another base as one
number; the zeros in front, which the number does not show, are carried over one
by one. The conversion has the conversion back as its inverse
(`convertBase_convertBase`), whatever the two bases are.
-/

namespace Pyrxd.Lib

/-- How many zeros stand in front. -/
def leadingZeros (ds : List Nat) : Nat := (ds.takeWhile (· == 0)).length

/-- The number that digits denote, most significant first. -/
def numberOf (base : Nat) (ds : List Nat) : Nat := Nat.ofDigits base ds.reverse

/-- The digits `ds` in base `a`, rewritten in base `b`. -/
def convertBase (a b : Nat) (ds : List Nat) : List Nat :=
  List.replicate (leadingZeros ds) 0 ++ (Nat.digits b (numberOf a ds)).reverse

/-- Digits as a loop reads them. -/
theorem foldl_numberOf (base : Nat) (ds : List Nat) :
    ds.foldl (fun n d => n * base + d) 0 = numberOf base ds := by
  have hfold : ∀ rs : List Nat, rs.foldr (fun d n => n * base + d) 0 =
      Nat.ofDigits base rs := by
    intro rs
    induction rs with
    | nil => rfl
    | cons d rs ih =>
      rw [List.foldr_cons, ih, Nat.ofDigits_cons, Nat.mul_comm, Nat.add_comm]
  rw [numberOf, ← hfold, List.foldr_reverse]

theorem numberOf_replicate_append (base k : Nat) (ds : List Nat) :
    numberOf base (List.replicate k 0 ++ ds) = numberOf base ds := by
  rw [numberOf, List.reverse_append, List.reverse_replicate,
    Nat.ofDigits_append_replicate_zero, numberOf]

theorem numberOf_digits (base n : Nat) :
    numberOf base (Nat.digits base n).reverse = n := by
  rw [numberOf, List.reverse_reverse, Nat.ofDigits_digits]

/-- Zeros in front of something else are counted. -/
theorem leadingZeros_replicate_append (k : Nat) {ds : List Nat}
    (h : ∀ d ∈ ds.head?, d ≠ 0) :
    leadingZeros (List.replicate k 0 ++ ds) = k := by
  induction k with
  | zero =>
    cases ds with
    | nil => rfl
    | cons d ds =>
      have hd : d ≠ 0 := h d rfl
      rw [List.replicate_zero, List.nil_append, leadingZeros,
        List.takeWhile_cons_of_neg (by rw [beq_iff_eq]; exact hd)]
      rfl
  | succ k ih =>
    rw [List.replicate_succ, List.cons_append, leadingZeros,
      List.takeWhile_cons_of_pos (by rfl), List.length_cons]
    exact congrArg (· + 1) ih

/-- A string is its leading zeros and what does not start with one. -/
theorem split_leadingZeros (ds : List Nat) : ∃ rest : List Nat,
    ds = List.replicate (leadingZeros ds) 0 ++ rest ∧
    ∀ d ∈ rest.head?, d ≠ 0 := by
  induction ds with
  | nil => exact ⟨[], rfl, nofun⟩
  | cons d ds ih =>
    by_cases hd : d = 0
    · obtain ⟨rest, hrest, hhead⟩ := ih
      refine ⟨rest, ?_, hhead⟩
      rw [leadingZeros, hd, List.takeWhile_cons_of_pos (by rfl),
        List.length_cons, List.replicate_succ, List.cons_append]
      exact congrArg (List.cons 0) hrest
    · refine ⟨d :: ds, ?_, ?_⟩
      · rw [leadingZeros,
          List.takeWhile_cons_of_neg (by rw [beq_iff_eq]; exact hd)]
        rfl
      · intro e he
        cases he
        exact hd

/-- A number's digits do not start with a zero. -/
theorem head_digits_ne_zero (base n : Nat) :
    ∀ d ∈ (Nat.digits base n).reverse.head?, d ≠ 0 := by
  intro d hd
  rw [List.head?_reverse, Option.mem_def] at hd
  have hne : n ≠ 0 := by
    rintro rfl
    rw [Nat.digits_zero] at hd
    cases hd
  rw [List.getLast?_eq_some_getLast (Nat.digits_ne_nil_iff_ne_zero.mpr hne),
    Option.some.injEq] at hd
  rw [← hd]
  exact Nat.getLast_digit_ne_zero base hne

/-- A change of base keeps the leading zeros. -/
theorem leadingZeros_convertBase (a b : Nat) (ds : List Nat) :
    leadingZeros (convertBase a b ds) = leadingZeros ds :=
  leadingZeros_replicate_append _ (head_digits_ne_zero b _)

theorem numberOf_convertBase (a b : Nat) (ds : List Nat) :
    numberOf b (convertBase a b ds) = numberOf a ds := by
  rw [convertBase, numberOf_replicate_append, numberOf_digits]

/-- The digits of a string's number are the string without its leading zeros. -/
theorem replicate_append_digits {base : Nat} (hbase : 1 < base) {ds : List Nat}
    (h : ∀ d ∈ ds, d < base) : List.replicate (leadingZeros ds) 0 ++
    (Nat.digits base (numberOf base ds)).reverse = ds := by
  obtain ⟨rest, hrest, hhead⟩ := split_leadingZeros ds
  have hlt : ∀ d ∈ rest.reverse, d < base := by
    intro d hd
    refine h d ?_
    rw [hrest]
    exact List.mem_append_right _ (List.mem_reverse.mp hd)
  have hlast : ∀ hne : rest.reverse ≠ [], rest.reverse.getLast hne ≠ 0 := by
    intro hne
    refine hhead _ ?_
    rw [Option.mem_def, ← List.getLast?_reverse,
      List.getLast?_eq_some_getLast hne]
  have hnumber : numberOf base ds = Nat.ofDigits base rest.reverse := by
    conv_lhs => rw [hrest]
    exact numberOf_replicate_append base _ rest
  rw [hnumber, Nat.digits_ofDigits base hbase _ hlt hlast, List.reverse_reverse]
  exact hrest.symm

/-- Every digit is below the new base. -/
theorem lt_of_mem_convertBase {a b : Nat} (hb : 1 < b) {ds : List Nat} :
    ∀ d ∈ convertBase a b ds, d < b := by
  intro d hd
  rcases List.mem_append.mp hd with hd | hd
  · rw [List.eq_of_mem_replicate hd]
    omega
  · exact Nat.digits_lt_base hb (List.mem_reverse.mp hd)

/-- **Converted back, a string of digits is what it was.** -/
theorem convertBase_convertBase {a b : Nat} (ha : 1 < a) {ds : List Nat}
    (h : ∀ d ∈ ds, d < a) :
    convertBase b a (convertBase a b ds) = ds := by
  rw [convertBase, leadingZeros_convertBase, numberOf_convertBase]
  exact replicate_append_digits ha h

end Pyrxd.Lib
