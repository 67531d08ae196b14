import Mathlib.Data.Finset.Insert
import Pyrxd.Gravity.Coordinator
import Pyrxd.Lib.Interleave

/-!
# The durable seen-store

`DurableSeenStore` of `gravity/seen_store.py`: one table of hashlocks with `h`
as primary key, written with `INSERT OR IGNORE` only. The statement itself is
one atomic step of SQLite; what this module adds is how a *caller* sees it. A
call may come back with the statement's answer, or with an exception (a locked
or full database, a cancellation), and then the row may or may not be there
(`Serves`). Other clients of the same file only ever add rows (`Outlives`),
because no method deletes one.
-/

namespace Pyrxd.Gravity

open Pyrxd.Lib

/-- The rows of `seen_hashlocks`. -/
structure DurableSeenStore where
  rows : Finset Bytes

namespace DurableSeenStore

/-- `_h`. -/
def checkHashlock (hashlock : Bytes) : Except PyErr Bytes := do
  refuseIf (hashlock.length ≠ 32) "hashlock must be 32 bytes"
  return hashlock

/-- `INSERT OR IGNORE INTO seen_hashlocks(h) VALUES (?)`: the row count and the
table. -/
def insertOrIgnore (st : DurableSeenStore) (h : Bytes) :
    Nat × DurableSeenStore :=
  if h ∈ st.rows then (0, st) else (1, ⟨insert h st.rows⟩)

/-- `reserve`. -/
def reserve (st : DurableSeenStore) (hashlock : Bytes) :
    Except PyErr Bool × DurableSeenStore :=
  match checkHashlock hashlock with
  | .error e => (.error e, st)
  | .ok h =>
    let (rowcount, st') := st.insertOrIgnore h
    (.ok (rowcount == 1), st')

/-- `has_seen`. -/
def hasSeen (st : DurableSeenStore) (hashlock : Bytes) : Except PyErr Bool :=
  (checkHashlock hashlock).map fun h => decide (h ∈ st.rows)

/-- `mark_seen`. -/
def markSeen (st : DurableSeenStore) (hashlock : Bytes) :
    Except PyErr Unit × DurableSeenStore :=
  match checkHashlock hashlock with
  | .error e => (.error e, st)
  | .ok h => (.ok (), (st.insertOrIgnore h).2)

theorem insertOrIgnore_rows (st : DurableSeenStore) (h : Bytes) :
    (st.insertOrIgnore h).2.rows = insert h st.rows := by
  unfold insertOrIgnore
  split
  · next hmem => exact (Finset.insert_eq_of_mem hmem).symm
  · rfl

theorem rows_subset_insertOrIgnore (st : DurableSeenStore) (h : Bytes) :
    st.rows ⊆ (st.insertOrIgnore h).2.rows := by
  rw [insertOrIgnore_rows]
  exact Finset.subset_insert h st.rows

/-- `reserve` never loses a row, whatever it answers. -/
theorem rows_subset_reserve (st : DurableSeenStore) (h : Bytes) :
    st.rows ⊆ (st.reserve h).2.rows := by
  unfold reserve
  split
  · exact Finset.Subset.refl _
  · exact rows_subset_insertOrIgnore st _

theorem rows_subset_markSeen (st : DurableSeenStore) (h : Bytes) :
    st.rows ⊆ (st.markSeen h).2.rows := by
  unfold markSeen
  split
  · exact Finset.Subset.refl _
  · exact rows_subset_insertOrIgnore st _

/-- A fresh reservation is a test-and-set: the row was absent and is there
now. -/
theorem reserve_true {st : DurableSeenStore} {h : Bytes}
    (hr : (st.reserve h).1 = .ok true) :
    h ∉ st.rows ∧ h ∈ (st.reserve h).2.rows := by
  unfold reserve checkHashlock at *
  by_cases hlen : h.length ≠ 32
  · simp [refuseIf, hlen, invalid] at hr
  · by_cases hmem : h ∈ st.rows
    · simp [refuseIf, hlen, insertOrIgnore, hmem] at hr
    · refine ⟨hmem, ?_⟩
      simp [refuseIf, hlen, insertOrIgnore, hmem]

/-! ## The store as a service -/

/-- The calls that reach the store. -/
def Handles : Op → Bool
  | .reserve _ => true
  | .hasSeen _ => true
  | _ => false

/-- How the store, and every collaborator that is not the store, may answer a
call. -/
inductive Serves (st : DurableSeenStore) : Op → Except PyErr PyObj →
    DurableSeenStore → Prop where
  | reserve (h : Bytes) : Serves st (.reserve h) ((st.reserve h).1.map .bool)
      (st.reserve h).2
  /-- The insert failed, or it took effect and its answer was lost. -/
  | reserveRaises (h : Bytes) (e : PyErr) (st' : DurableSeenStore)
      (hst : st' = st ∨ st' = (st.insertOrIgnore h).2) : Serves st (.reserve h)
        (.error e) st'
  | hasSeen (h : Bytes) : Serves st (.hasSeen h) ((st.hasSeen h).map .bool) st
  | hasSeenRaises (h : Bytes) (e : PyErr) : Serves st (.hasSeen h) (.error e) st
  | elsewhere (op : Op) (r : Except PyErr PyObj) (hop : Handles op = false) :
      Serves st op r st

/-- What other clients of the file do: `reserve` and `mark_seen` calls of their
own. -/
inductive Outlives (st : DurableSeenStore) : DurableSeenStore → Prop where
  | reserve (h : Bytes) : Outlives st (st.reserve h).2
  | markSeen (h : Bytes) : Outlives st (st.markSeen h).2

/-- The hashlock a call was granted: a truthy answer of `reserve`. -/
def granted (op : Op) (r : Except PyErr PyObj) : Option Bytes :=
  match op, r with
  | .reserve h, .ok answer => if answer.truthy then some h else none
  | _, _ => none

/-- Only a reservation that answered true grants. -/
theorem granted_reserve {op : Op} {r : Except PyErr PyObj} {h : Bytes}
    (hg : granted op r = some h) :
    op = .reserve h ∧ ∃ answer, r = .ok answer ∧ answer.truthy = true := by
  unfold granted at hg
  split at hg
  · split at hg
    · next h' answer htrue =>
      cases hg
      exact ⟨rfl, answer, rfl, htrue⟩
    · cases hg
  · cases hg

/-- The store grants each hashlock at most once, and never forgets it. -/
theorem grants : Pool.Grants Serves Outlives granted
    (fun st h => h ∈ st.rows) where
  fresh := by
    intro st op r st' k hserve hgrant
    -- only the reservation answers whether the row is new
    cases hserve with
    | reserve h =>
      cases hres : (st.reserve h).1 with
      | error e => simp [hres, granted, Except.map] at hgrant
      | ok b =>
        cases b with
        | false => simp [hres, granted, Except.map, PyObj.truthy] at hgrant
        | true =>
          simp only [hres, granted, Except.map, PyObj.truthy, if_true,
            Option.some.injEq] at hgrant
          subst hgrant
          exact reserve_true hres
    | reserveRaises h e st' hst => cases hgrant
    | hasSeen h => cases hgrant
    | hasSeenRaises h e => cases hgrant
    | elsewhere op r hop =>
      rw [(granted_reserve hgrant).1] at hop
      cases hop
  keeps := by
    intro st op r st' k hserve htaken
    cases hserve with
    | reserve h => exact rows_subset_reserve st h htaken
    | reserveRaises h e st' hst =>
      rcases hst with rfl | rfl
      · exact htaken
      · exact rows_subset_insertOrIgnore st h htaken
    | hasSeen h => exact htaken
    | hasSeenRaises h e => exact htaken
    | elsewhere op r hop => exact htaken
  keepsOutside := by
    intro st st' k hd htaken
    cases hd with
    | reserve h => exact rows_subset_reserve st h htaken
    | markSeen h => exact rows_subset_markSeen st h htaken

end DurableSeenStore

end Pyrxd.Gravity
