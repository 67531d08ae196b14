import Mathlib.Data.List.Dedup
import Mathlib.Algebra.BigOperators.Group.List.Basic
import Mathlib.Algebra.Order.Group.Int

/-!
# Tallies

A dict of totals, `d[k] = d.get(k, 0) + n` over and over. Only the totals matter
to a reader of the dict, and the set of keys it has ever seen.
-/

namespace Pyrxd.Lib

variable {κ : Type} [DecidableEq κ]

/-- Keys with their totals, oldest first. -/
abbrev Tally (κ : Type) := List (κ × Int)

namespace Tally

/-- `d.get(k, 0)`. -/
def count (d : Tally κ) (k : κ) : Int := (List.lookup k d).getD 0

/-- `d[k] = v`. -/
def set : Tally κ → κ → Int → Tally κ
  | [], k, v => [(k, v)]
  | (k', v') :: d, k, v =>
    if k = k' then (k', v) :: d else (k', v') :: set d k v

/-- `d[k] = d.get(k, 0) + n`. -/
def add (d : Tally κ) (k : κ) (n : Int) : Tally κ := set d k (count d k + n)

/-- `set(d)`. -/
def keys (d : Tally κ) : List κ := d.map Prod.fst

/-- Setting counts under one key. -/
theorem count_set (d : Tally κ) (k j : κ) (v : Int) :
    count (set d k v) j = if j = k then v else count d j := by
  induction d with
  | nil =>
    rw [set, count, List.lookup_cons]
    by_cases h : j = k
    · rw [if_pos h, beq_iff_eq.mpr h]; rfl
    · rw [if_neg h, beq_false_of_ne h]; rfl
  | cons p d ih =>
    obtain ⟨k', v'⟩ := p
    rw [set]
    by_cases hk : k = k'
    · rw [if_pos hk, count, count, List.lookup_cons, List.lookup_cons]
      by_cases h : j = k'
      · rw [beq_iff_eq.mpr h, if_pos (h.trans hk.symm)]; rfl
      · rw [beq_false_of_ne h, if_neg (fun hj => h (hj.trans hk))]
    · rw [if_neg hk, count, count, List.lookup_cons, List.lookup_cons]
      by_cases h : j = k'
      · rw [beq_iff_eq.mpr h, if_neg (fun hj => hk (hj.symm.trans h))]
      · rw [beq_false_of_ne h]
        exact ih

theorem count_add (d : Tally κ) (k j : κ) (n : Int) :
    count (add d k n) j = count d j + if j = k then n else 0 := by
  rw [add, count_set]
  by_cases h : j = k
  · rw [if_pos h, if_pos h, h]
  · rw [if_neg h, if_neg h, Int.add_zero]

theorem mem_keys_set {d : Tally κ} {k j : κ} {v : Int}
    (h : j ∈ keys (set d k v)) : j = k ∨ j ∈ keys d := by
  induction d with
  | nil => exact .inl (List.mem_singleton.mp h)
  | cons p d ih =>
    obtain ⟨k', v'⟩ := p
    rw [set] at h
    by_cases hk : k = k'
    · rw [if_pos hk] at h
      exact .inr h
    · rw [if_neg hk] at h
      rcases List.mem_cons.mp h with h | h
      · exact .inr (List.mem_cons.mpr (.inl h))
      · rcases ih h with h | h
        · exact .inl h
        · exact .inr (List.mem_cons_of_mem _ h)

/-- A key that was never counted has total zero. -/
theorem count_of_not_mem {d : Tally κ} {k : κ} (h : k ∉ keys d) :
    count d k = 0 := by
  have hnone : List.lookup k d = none := by
    rw [List.lookup_eq_none_iff]
    intro p hp
    exact bne_iff_ne.mpr fun hk => h (List.mem_map.mpr ⟨p, hp, hk.symm⟩)
  rw [count, hnone]
  rfl

end Tally

end Pyrxd.Lib
