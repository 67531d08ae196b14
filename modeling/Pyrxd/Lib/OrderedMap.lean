import Mathlib.Data.List.Dedup

/-!
# Dicts

A dict keeps its keys in the order in which they were first set. `Nodup` travels
with it, so that what it lists and what it looks up are the same
(`mem_entries`).
-/

namespace Pyrxd.Lib

variable {κ ν : Type} [DecidableEq κ]

/-- A dict; `entries` are its items. -/
structure OrderedMap (κ ν : Type) where
  entries : List (κ × ν)
  nodup : (entries.map Prod.fst).Nodup

namespace OrderedMap

def empty : OrderedMap κ ν := ⟨[], List.nodup_nil⟩

/-- `d.get(k)`. -/
def get? (d : OrderedMap κ ν) (k : κ) : Option ν := d.entries.lookup k

/-- `d[k] = v`, of the items. -/
def setEntries (k : κ) (v : ν) : List (κ × ν) → List (κ × ν)
  | [] => [(k, v)]
  | (k', v') :: d =>
    if k = k' then (k, v) :: d else (k', v') :: setEntries k v d

/-- Setting adds one entry at most. -/
theorem mem_setEntries {k : κ} {v : ν} {d : List (κ × ν)} {p : κ × ν}
    (h : p ∈ setEntries k v d) :
    p = (k, v) ∨ p ∈ d := by
  induction d with
  | nil => exact .inl (List.mem_singleton.mp h)
  | cons q d ih =>
    rw [setEntries] at h
    split at h
    · rcases List.mem_cons.mp h with h | h
      · exact .inl h
      · exact .inr (List.mem_cons_of_mem _ h)
    · rcases List.mem_cons.mp h with h | h
      · exact .inr (h ▸ List.mem_cons_self)
      · rcases ih h with h | h
        · exact .inl h
        · exact .inr (List.mem_cons_of_mem _ h)

theorem nodup_setEntries {k : κ} {v : ν} {d : List (κ × ν)}
    (h : (d.map Prod.fst).Nodup) :
    ((setEntries k v d).map Prod.fst).Nodup := by
  induction d with
  | nil => exact List.nodup_singleton k
  | cons q d ih =>
    obtain ⟨hq, hd⟩ := List.nodup_cons.mp h
    rw [setEntries]
    split
    · next heq => exact List.nodup_cons.mpr ⟨heq ▸ hq, hd⟩
    · next hne =>
      refine List.nodup_cons.mpr ⟨fun hmem => ?_, ih hd⟩
      obtain ⟨p, hp, hfst⟩ := List.mem_map.mp hmem
      rcases mem_setEntries hp with rfl | hp
      · exact hne hfst
      · exact hq (hfst ▸ List.mem_map_of_mem hp)

/-- `d[k] = v`. -/
def set (d : OrderedMap κ ν) (k : κ) (v : ν) : OrderedMap κ ν :=
  ⟨setEntries k v d.entries, nodup_setEntries d.nodup⟩

/-- `d.pop(k, None)`. -/
def erase (d : OrderedMap κ ν) (k : κ) : OrderedMap κ ν :=
  ⟨d.entries.filter fun p => p.1 ≠ k,
    d.nodup.sublist (List.filter_sublist.map _)⟩

/-- `d.values()`. -/
def values (d : OrderedMap κ ν) : List ν := d.entries.map Prod.snd

/-- Only the key that is set reads otherwise. -/
theorem lookup_setEntries (k j : κ) (v : ν) (d : List (κ × ν)) :
    (setEntries k v d).lookup j = if j = k then some v else d.lookup j := by
  induction d with
  | nil =>
    rw [setEntries, List.lookup_cons]
    by_cases h : j = k
    · rw [if_pos h, beq_iff_eq.mpr h]
    · rw [if_neg h, beq_false_of_ne h]
  | cons q d ih =>
    obtain ⟨k', v'⟩ := q
    rw [setEntries]
    by_cases hk : k = k'
    · rw [if_pos hk, List.lookup_cons, List.lookup_cons]
      by_cases h : j = k
      · rw [beq_iff_eq.mpr h, if_pos h]
      · rw [beq_false_of_ne h, if_neg h,
          beq_false_of_ne fun hj => h (hj.trans hk.symm)]
    · rw [if_neg hk, List.lookup_cons, List.lookup_cons]
      by_cases h : j = k'
      · rw [beq_iff_eq.mpr h, if_neg fun hj => hk (hj.symm.trans h)]
      · rw [beq_false_of_ne h]
        exact ih

@[simp] theorem get?_empty (k : κ) :
    (empty : OrderedMap κ ν).get? k = none := rfl

theorem get?_set (d : OrderedMap κ ν) (k j : κ) (v : ν) :
    (d.set k v).get? j = if j = k then some v else d.get? j :=
  lookup_setEntries k j v d.entries

/-- What a lookup finds is there. -/
theorem mem_of_lookup {d : List (κ × ν)} {k : κ} {v : ν}
    (h : d.lookup k = some v) : (k, v) ∈ d := by
  induction d with
  | nil => cases h
  | cons q d ih =>
    rw [List.lookup_cons] at h
    by_cases hk : k = q.1
    · rw [beq_iff_eq.mpr hk, Option.some.injEq] at h
      rw [hk, ← h]
      exact List.mem_cons_self
    · rw [beq_false_of_ne hk] at h
      exact List.mem_cons_of_mem _ (ih h)

theorem lookup_of_mem {d : List (κ × ν)} {k : κ} {v : ν}
    (hd : (d.map Prod.fst).Nodup) (h : (k, v) ∈ d) :
    d.lookup k = some v := by
  induction d with
  | nil => cases h
  | cons q d ih =>
    obtain ⟨hq, hd⟩ := List.nodup_cons.mp hd
    rw [List.lookup_cons]
    rcases List.mem_cons.mp h with rfl | h
    · rw [beq_self_eq_true]
    · have hne : k ≠ q.1 := fun hk => hq (hk ▸ List.mem_map_of_mem h)
      rw [beq_false_of_ne hne]
      exact ih hd h

/-- A dict looks up what it lists. -/
theorem mem_entries {d : OrderedMap κ ν} {k : κ} {v : ν} : (k, v) ∈ d.entries ↔
    d.get? k = some v :=
  ⟨lookup_of_mem d.nodup, mem_of_lookup⟩

/-- Only the erased key is gone. -/
theorem get?_erase (d : OrderedMap κ ν) (k j : κ) :
    (d.erase k).get? j = if j = k then none else d.get? j := by
  have hmem : ∀ v, (d.erase k).get? j = some v ↔ j ≠ k ∧ d.get? j = some v := by
    intro v
    rw [← mem_entries, ← mem_entries, erase, List.mem_filter,
      decide_eq_true_eq, and_comm]
  by_cases hj : j = k
  · rw [if_pos hj, Option.eq_none_iff_forall_ne_some]
    intro v hv
    exact ((hmem v).mp hv).1 hj
  · rw [if_neg hj]
    refine Option.ext fun v => ?_
    rw [hmem]
    exact ⟨fun h => h.2, fun h => ⟨hj, h⟩⟩

/-- A value stands under some key. -/
theorem mem_values {d : OrderedMap κ ν} {v : ν} : v ∈ d.values ↔
    ∃ k, d.get? k = some v := by
  rw [values, List.mem_map]
  constructor
  · rintro ⟨⟨k, v'⟩, hmem, rfl⟩
    exact ⟨k, mem_entries.mp hmem⟩
  · rintro ⟨k, hk⟩
    exact ⟨(k, v), mem_entries.mpr hk, rfl⟩

end OrderedMap

end Pyrxd.Lib
