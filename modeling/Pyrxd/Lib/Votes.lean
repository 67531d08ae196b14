import Mathlib.Data.List.MinMax

/-!
# Votes

Two ways of taking a vote among replies. `groups` is the dict
`d[key(r)] = [*d.get(key(r), []), r]`, keys in the order they were first met;
`mostCommon` is `Counter(xs).most_common(1)`, the first met among the most
frequent.

`groups_cons` says what the loop builds, one key at a time, and `mem_groups`
which groups there are.
-/

namespace Pyrxd.Lib

variable {α κ : Type} [DecidableEq κ]

/-- `d[key(r)] = [*d.get(key(r), []), r]`. -/
def addVote (key : α → κ) : List (κ × List α) → α → List (κ × List α)
  | [], r => [(key r, [r])]
  | (k, g) :: d, r =>
    if key r = k then (k, g ++ [r]) :: d else (k, g) :: addVote key d r

/-- The dict after all of `rs`. -/
def groups (key : α → κ) (rs : List α) : List (κ × List α) :=
  rs.foldl (addVote key) []

/-- How many of `rs` have `r`'s key. -/
def support (key : α → κ) (rs : List α) (r : α) : Nat :=
  rs.countP fun s => key s = key r

/-- The groups behind the first, and the first filled up. -/
theorem foldl_addVote_cons (key : α → κ) (k : κ) (rs : List α) : ∀ (g : List α)
    (d : List (κ × List α)),
    rs.foldl (addVote key) ((k, g) :: d) =
      (k, g ++ rs.filter (key · = k)) ::
        (rs.filter (key · ≠ k)).foldl (addVote key) d := by
  induction rs with
  | nil =>
    intro g d
    simp
  | cons r rs ih =>
    intro g d
    rw [List.foldl_cons, addVote]
    by_cases hr : key r = k
    · rw [if_pos hr, ih, List.filter_cons_of_pos (by simpa using hr),
        List.filter_cons_of_neg (by simpa using hr), List.append_assoc]
      rfl
    · rw [if_neg hr, ih, List.filter_cons_of_neg (by simpa using hr),
        List.filter_cons_of_pos (by simpa using hr), List.foldl_cons]

/-- The first reply opens the first group. -/
theorem groups_cons (key : α → κ) (r : α) (rs : List α) :
    groups key (r :: rs) =
      (key r, r :: rs.filter (key · = key r)) ::
        groups key (rs.filter (key · ≠ key r)) := by
  rw [groups, List.foldl_cons]
  exact foldl_addVote_cons key (key r) rs [r] []

/-- A group is the replies of one reply's key. -/
theorem mem_groups {key : α → κ} {k : κ} {g : List α} (rs : List α) :
    (k, g) ∈ groups key rs ↔ ∃ r ∈ rs, k = key r ∧
    g = rs.filter (key · = key r) := by
  induction hn : rs.length using Nat.strong_induction_on generalizing rs with
  | _ n ih =>
    cases rs with
    | nil => simp [groups]
    | cons r rs =>
      have hlen : (rs.filter (key · ≠ key r)).length < n := by
        have := List.length_filter_le (fun s => decide (key s ≠ key r)) rs
        rw [List.length_cons] at hn
        omega
      rw [groups_cons, List.mem_cons, ih _ hlen _ rfl, Prod.mk.injEq]
      -- a later reply of another key sees the same group with and without the
      -- first key's replies
      have hother : ∀ s, key s ≠ key r →
          (rs.filter (key · ≠ key r)).filter (key · = key s) =
            (r :: rs).filter (key · = key s) := by
        intro s hs
        rw [List.filter_cons_of_neg (by simpa using Ne.symm hs),
          List.filter_filter]
        refine List.filter_congr fun t _ => ?_
        by_cases ht : key t = key s
        · simp [ht, hs]
        · simp [ht]
      constructor
      · rintro (⟨rfl, rfl⟩ | ⟨s, hs, rfl, rfl⟩)
        · refine ⟨r, List.mem_cons_self, rfl, ?_⟩
          rw [List.filter_cons_of_pos (by simp)]
        · rw [List.mem_filter, decide_eq_true_eq] at hs
          exact ⟨s, List.mem_cons_of_mem _ hs.1, rfl, hother s hs.2⟩
      · rintro ⟨s, hs, rfl, rfl⟩
        by_cases hk : key s = key r
        · refine .inl ⟨hk, ?_⟩
          rw [hk, List.filter_cons_of_pos (by simp)]
        · rcases List.mem_cons.mp hs with rfl | hs
          · exact absurd rfl hk
          · exact .inr ⟨s, List.mem_filter.mpr ⟨hs, by simpa using hk⟩, rfl,
              (hother s hk).symm⟩

/-- A group is as large as its support. -/
theorem length_filter_key (key : α → κ) (rs : List α) (r : α) :
    (rs.filter (key · = key r)).length = support key rs r := by
  rw [support, List.countP_eq_length_filter]

/-- Support does not depend on the order of the replies. -/
theorem support_perm {key : α → κ} {rs rs' : List α} (h : rs.Perm rs') (r : α) :
    support key rs r = support key rs' r := h.countP_eq _

/-- Replies of one key have the same support. -/
theorem support_congr {key : α → κ} {rs : List α} {r s : α}
    (h : key r = key s) :
    support key rs r = support key rs s := by
  rw [support, support, h]

section Equal

variable [DecidableEq α]

/-- Equal replies support each other. -/
theorem count_le_support (key : α → κ) (rs : List α) (r : α) :
    rs.count r ≤ support key rs r := by
  rw [support, List.count]
  refine List.countP_mono_left fun s _ hs => ?_
  rw [beq_iff_eq.mp hs]
  exact decide_eq_true rfl

/-- Where a key has only one reply, its support is that reply's count. -/
theorem support_eq_count {key : α → κ} {rs : List α} {r : α}
    (h : ∀ s ∈ rs, key s = key r → s = r) : support key rs r = rs.count r := by
  rw [support, List.count]
  refine List.countP_congr fun s hs => ?_
  simp only [decide_eq_true_eq, beq_iff_eq]
  constructor
  · exact h s hs
  · rintro rfl
    rfl

/-- `Counter(xs).most_common(1)[0]`; `none` for no elements. -/
def mostCommon (xs : List α) : Option (α × Nat) :=
  (xs.argmax fun x => xs.count x).map fun x => (x, xs.count x)

/-- `x` has the most votes, and was the first of those that have as many. -/
def Leads (xs : List α) (x : α) : Prop :=
  x ∈ xs ∧ (∀ y ∈ xs, xs.count y ≤ xs.count x) ∧
    ∀ y ∈ xs, xs.count x ≤ xs.count y → xs.idxOf x ≤ xs.idxOf y

instance (xs : List α) (x : α) : Decidable (Leads xs x) :=
  inferInstanceAs (Decidable (_ ∧ _ ∧ _))

/-- The most common value leads, with its count. -/
theorem mostCommon_eq {xs : List α} {x : α} {n : Nat} :
    mostCommon xs = some (x, n) ↔ Leads xs x ∧ n = xs.count x := by
  unfold mostCommon Leads
  rw [Option.map_eq_some_iff]
  constructor
  · rintro ⟨y, hy, hxy⟩
    cases hxy
    exact ⟨List.argmax_eq_some_iff.mp hy, rfl⟩
  · rintro ⟨hx, rfl⟩
    exact ⟨x, List.argmax_eq_some_iff.mpr hx, rfl⟩

/-- Only an empty list has none. -/
theorem mostCommon_eq_none {xs : List α} : mostCommon xs = none ↔ xs = [] := by
  rw [mostCommon, Option.map_eq_none_iff, List.argmax_eq_none]

end Equal

end Pyrxd.Lib
