import Mathlib.Data.List.Infix

/-!
# Pairs in a row

Where two neighbours are found in a list that was put together from parts:
inside a part, or where two parts meet.
-/

namespace Pyrxd.Lib

variable {α β : Type} {a b : α}

/-- Two neighbours in a joined list: on either side or across the seam. -/
theorem pair_infix_append {xs ys : List α} :
    [a, b] <:+: xs ++ ys ↔ [a, b] <:+: xs ∨ [a, b] <:+: ys ∨
    (xs.getLast? = some a ∧ ys.head? = some b) := by
  rw [List.infix_append_iff_ne_nil]
  refine or_congr_right (or_congr_right ⟨?_, ?_⟩)
  · rintro ⟨l, m, hl, hm, heq, ⟨s, rfl⟩, ⟨t, rfl⟩⟩
    match l, m, hl, hm, heq with
    | [_], [_], _, _, rfl => exact ⟨List.getLast?_concat, rfl⟩
    | [_], [], _, hm, _ => exact absurd rfl hm
    | [_, _], [], _, hm, _ => exact absurd rfl hm
  · rintro ⟨ha, hb⟩
    obtain ⟨s, rfl⟩ := List.getLast?_eq_some_iff.mp ha
    obtain ⟨t, rfl⟩ := List.head?_eq_some_iff.mp hb
    exact ⟨[a], [b], List.cons_ne_nil a [], List.cons_ne_nil b [], rfl,
      ⟨s, rfl⟩, ⟨t, rfl⟩⟩

/-- **A pair in what parts spell**: in one of them, or at the end of one and the
start of the next. -/
theorem pair_infix_flatMap {f : β → List α} (hf : ∀ x, f x ≠ [])
    {parts : List β} :
    [a, b] <:+: parts.flatMap f ↔ (∃ x ∈ parts, [a, b] <:+: f x) ∨
      ∃ x y, [x, y] <:+: parts ∧ (f x).getLast? = some a ∧
        (f y).head? = some b := by
  -- along the parts: inside one, or across the seam to the next
  induction parts with
  | nil =>
    rw [List.flatMap_nil]
    constructor
    · intro h
      exact absurd h.length_le (Nat.not_succ_le_zero 1)
    · rintro (⟨x, hx, -⟩ | ⟨x, y, h, -⟩)
      · exact absurd hx List.not_mem_nil
      · exact absurd h.length_le (Nat.not_succ_le_zero 1)
  | cons x parts ih =>
    have hhead : (parts.flatMap f).head? = parts.head?.bind fun y =>
        (f y).head? := by
      cases parts with
      | nil => rfl
      | cons y parts =>
        rw [List.flatMap_cons, List.head?_append_of_ne_nil _ (hf y)]
        rfl
    rw [List.flatMap_cons, pair_infix_append, ih, List.exists_mem_cons_iff,
      hhead, ← or_assoc, ← or_assoc,
      or_assoc (a := _ ∨ _)]
    refine or_congr_right ?_
    constructor
    · rintro (⟨y, z, h, hyz⟩ | ⟨ha, hb⟩)
      · exact ⟨y, z, List.infix_cons h, hyz⟩
      · obtain ⟨y, hy, hb⟩ := Option.bind_eq_some_iff.mp hb
        obtain ⟨t, rfl⟩ := List.head?_eq_some_iff.mp hy
        exact ⟨x, y, ⟨[], t, rfl⟩, ha, hb⟩
    · rintro ⟨y, z, ⟨s, t, h⟩, ha, hb⟩
      cases s with
      | nil =>
        injection h with hx ht
        rw [← ht, ← hx]
        exact .inr ⟨ha, hb⟩
      | cons w s =>
        injection h with hx ht
        exact .inl ⟨y, z, ⟨s, t, ht⟩, ha, hb⟩

end Pyrxd.Lib
