import Mathlib.Algebra.Group.Nat.Defs
import Mathlib.Data.List.GetD

/-!
# Merkle trees

Climbing from a leaf to the root of a binary hash tree: at each level the
current node is joined with its sibling, on the side the lowest bit of its
position says, and the position is halved. The tree over a list of leaves pairs
neighbours level by level, and joins the last node of an odd level with itself;
the climb from a leaf over the siblings the tree gives it ends at the root.
-/

namespace Pyrxd.Lib

variable {α : Type} (join : α → α → α)

/-- A node and its sibling, in the order their positions say. -/
def joinAt (pos : ℕ) (x sibling : α) : α := if pos % 2 = 0 then join x sibling
  else join sibling x

/-- Climb from `x` at position `pos`, one sibling a level. -/
def climb : ℕ → α → List α → α
  | _, x, [] => x
  | pos, x, s :: ss => climb (pos / 2) (joinAt join pos x s) ss

/-! ## The tree over a list of leaves -/

/-- The parents of a level. -/
def nextLevel : List α → List α
  | [] => []
  | [x] => [join x x]
  | x :: y :: rest => join x y :: nextLevel rest

/-- A level is half as wide as the one below. -/
theorem length_nextLevel (level : List α) :
    (nextLevel join level).length = (level.length + 1) / 2 := by
  induction level using nextLevel.induct with
  | case1 => simp [nextLevel]
  | case2 x => simp [nextLevel]
  | case3 x y rest ih =>
    rw [nextLevel, List.length_cons, List.length_cons, List.length_cons, ih]
    omega

/-- The node the tree ends in; a list without leaves has none. -/
def merkleRoot : List α → Option α
  | [] => none
  | [x] => some x
  | x :: y :: rest => merkleRoot (nextLevel join (x :: y :: rest))
termination_by level => level.length
decreasing_by
  rw [length_nextLevel, List.length_cons, List.length_cons]
  omega

/-- The neighbour of a position. -/
def partner (pos : ℕ) : ℕ := if pos % 2 = 0 then pos + 1 else pos - 1

/-- The node a position is joined with: its neighbour, or itself where an odd
level ends. -/
def siblingAt (level : List α) (pos : ℕ) (own : α) : α :=
  level.getD (min (partner pos) (level.length - 1)) own

/-- The siblings on the way from a position to the root. -/
def siblings : List α → ℕ → List α
  | [], _ => []
  | [_], _ => []
  | x :: y :: rest, pos =>
    siblingAt (x :: y :: rest) pos x ::
      siblings (nextLevel join (x :: y :: rest)) (pos / 2)
termination_by level => level.length
decreasing_by
  rw [length_nextLevel, List.length_cons, List.length_cons]
  omega

/-- Two places further on, the neighbours are two places further on. -/
theorem siblingAt_cons_cons {x y own : α} {rest : List α} {pos : ℕ}
    (hpos : pos < rest.length) :
    siblingAt (x :: y :: rest) (pos + 2) own = siblingAt rest pos own := by
  have hindex : min (partner (pos + 2)) ((x :: y :: rest).length - 1) =
      min (partner pos) (rest.length - 1) + 1 + 1 := by
    rw [List.length_cons, List.length_cons, partner, partner]
    split <;> split <;> omega
  rw [siblingAt, siblingAt, hindex, List.getD_cons_succ, List.getD_cons_succ]

/-- **One level up**: above a node stands the node joined with its sibling. -/
theorem nextLevel_getElem? : ∀ {level : List α} {pos : ℕ}
    {x own : α}, level[pos]? = some x →
    (nextLevel join level)[pos / 2]? = some
      (joinAt join pos x (siblingAt level pos own))
  | [], pos, x, own, h => by cases h
  | [a], 0, x, own, h => by
    injection h with h
    rw [← h]
    rfl
  | [a], pos + 1, x, own, h => by cases h
  | a :: b :: rest, 0, x, own, h => by
    injection h with h
    rw [← h]
    have hindex : siblingAt (a :: b :: rest) 0 own = b := by
      have hmin : min (partner 0) ((a :: b :: rest).length - 1) = 1 := by
        rw [List.length_cons, List.length_cons, partner, if_pos rfl]
        omega
      rw [siblingAt, hmin]
      rfl
    rw [hindex]
    rfl
  | a :: b :: rest, 1, x, own, h => by
    injection h with h
    rw [← h]
    rfl
  | a :: b :: rest, pos + 2, x, own, h => by
    have hrest : rest[pos]? = some x := h
    have hpos : pos < rest.length := (List.getElem?_eq_some_iff.mp hrest).1
    have hhalf : (pos + 2) / 2 = pos / 2 + 1 := by omega
    have hside : joinAt join (pos + 2) x = joinAt join pos x := by
      funext s
      rw [joinAt, joinAt, Nat.add_mod_right]
    rw [siblingAt_cons_cons hpos, hhalf, hside, nextLevel,
      List.getElem?_cons_succ]
    exact nextLevel_getElem? hrest

/-- **The siblings of a leaf lead to the root**, and there are enough of them to
tell its position. -/
theorem climb_siblings (level : List α) (pos : ℕ) (x : α)
    (h : level[pos]? = some x) :
    merkleRoot join level = some (climb join pos x (siblings join level pos)) ∧
      pos < 2 ^ (siblings join level pos).length := by
  induction level, pos using siblings.induct join generalizing x with
  | case1 pos => cases h
  | case2 a pos =>
    have hpos : pos = 0 := by
      have hlt := (List.getElem?_eq_some_iff.mp h).1
      rw [List.length_singleton] at hlt
      omega
    subst hpos
    injection h with h
    rw [h, merkleRoot, siblings]
    exact ⟨rfl, Nat.one_pos⟩
  | case3 a b rest pos ih =>
    obtain ⟨hroot, hlt⟩ := ih _ (nextLevel_getElem? join h)
    rw [merkleRoot, siblings, climb, List.length_cons, Nat.pow_succ]
    exact ⟨hroot, by omega⟩

/-- What holds of the leaves and of every join holds of the siblings. -/
theorem forall_siblings {P : α → Prop} (hjoin : ∀ x y, P (join x y))
    (level : List α) (pos : ℕ)
    (hlevel : ∀ x ∈ level, P x) : ∀ s ∈ siblings join level pos, P s := by
  have hnext : ∀ l : List α, ∀ x ∈ nextLevel join l, P x := by
    intro l
    induction l using nextLevel.induct with
    | case1 => exact nofun
    | case2 a => exact List.forall_mem_singleton.mpr (hjoin _ _)
    | case3 a b rest ih => exact List.forall_mem_cons.mpr ⟨hjoin _ _, ih⟩
  induction level, pos using siblings.induct join with
  | case1 pos =>
    rw [siblings]
    exact nofun
  | case2 a pos =>
    rw [siblings]
    exact nofun
  | case3 a b rest pos ih =>
    rw [siblings]
    refine List.forall_mem_cons.mpr ⟨?_, ih (hnext _)⟩
    have hlt : min (partner pos) ((a :: b :: rest).length - 1) <
        (a :: b :: rest).length := by
      rw [List.length_cons]
      omega
    rw [siblingAt, List.getD_eq_getElem _ _ hlt]
    exact hlevel _ (List.getElem_mem hlt)

end Pyrxd.Lib
