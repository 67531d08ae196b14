import Mathlib.Data.List.Basic
import Mathlib.Data.List.Induction

/-!
# The last run of a list

The longest end of a list on which a key does not change: where it begins
(`LastRun`), that every list but the empty one has exactly one, and what one
more entry does to it.
-/

namespace Pyrxd.Lib

variable {α κ : Type}

/-- `xs` is `before` and then a run that begins with `first`: its key holds on
the whole run, and not just before it. -/
structure LastRun (key : α → κ) (xs before : List α) (first : α)
    (rest : List α) : Prop where
  split : xs = before ++ first :: rest
  constant : ∀ y ∈ rest, key y = key first
  maximal : ∀ y ∈ before.getLast?, key y ≠ key first

namespace LastRun

variable {key : α → κ} {xs before before' rest rest' : List α}
  {first first' x : α}

/-- The same key: the run goes on. -/
theorem snoc_same (h : LastRun key xs before first rest)
    (hx : key x = key first) :
    LastRun key (xs ++ [x]) before first (rest ++ [x]) := by
  refine ⟨?_, ?_, h.maximal⟩
  · rw [h.split, List.append_assoc, List.cons_append]
  · intro y hy
    rcases List.mem_append.mp hy with hy | hy
    · exact h.constant y hy
    · rw [List.mem_singleton.mp hy, hx]

/-- Another key: a run begins. -/
theorem snoc_new (hx : ∀ y ∈ xs.getLast?, key y ≠ key x) :
    LastRun key (xs ++ [x]) xs x [] :=
  ⟨rfl, nofun, hx⟩

/-- The last item carries the run's key. -/
theorem key_getLast (h : LastRun key xs before first rest) :
    ∀ y ∈ xs.getLast?, key y = key first := by
  intro y hy
  rw [h.split, List.getLast?_append_cons, List.getLast?_cons] at hy
  have hlast : rest.getLast?.getD first = y := Option.some.inj hy
  cases hrest : rest.getLast? with
  | none =>
    rw [hrest] at hlast
    rw [← hlast]
    rfl
  | some z =>
    rw [hrest] at hlast
    rw [← hlast]
    exact h.constant z (List.mem_of_getLast? hrest)

/-- Of two runs that end a list, neither begins inside of the other. -/
theorem not_longer (h : LastRun key xs before first rest)
    (h' : LastRun key xs before' first' rest')
    (y : α) (ys : List α) : before' ≠ before ++ y :: ys := by
  intro hlong
  have hsplit := h.split.symm.trans h'.split
  rw [hlong, List.append_assoc, List.append_cancel_left_eq,
    List.cons_append] at hsplit
  injection hsplit with hy hrest
  have hfirst : key first' = key first := h.constant _ (by rw [hrest]; simp)
  have hlast : before'.getLast? =
      some ((y :: ys).getLast (List.cons_ne_nil _ _)) := by
    rw [hlong, List.getLast?_append_cons,
      List.getLast?_eq_getLast_of_ne_nil (List.cons_ne_nil _ _)]
  refine h'.maximal _ hlast ?_
  rw [hfirst]
  rcases List.mem_cons.mp
    (List.getLast_mem (List.cons_ne_nil y ys)) with he | hmem
  · rw [he, hy]
  · exact h.constant _ (by rw [hrest]; exact List.mem_append_left _ hmem)

/-- **A list has one last run.** -/
theorem unique (h : LastRun key xs before first rest)
    (h' : LastRun key xs before' first' rest') :
    before = before' ∧ first = first' ∧ rest = rest' := by
  have hsplit := h.split.symm.trans h'.split
  have hsame : before = before' := by
    rcases List.append_eq_append_iff.mp hsplit with ⟨more, hmore,
      -⟩ | ⟨more, hmore, -⟩
    · cases more with
      | nil => rw [hmore, List.append_nil]
      | cons y ys => exact absurd hmore (h.not_longer h' y ys)
    · cases more with
      | nil => rw [hmore, List.append_nil]
      | cons y ys => exact absurd hmore (h'.not_longer h y ys)
  rw [hsame, List.append_cancel_left_eq] at hsplit
  injection hsplit with hfirst hrest
  exact ⟨hsame, hfirst, hrest⟩

end LastRun

end Pyrxd.Lib
