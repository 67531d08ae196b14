import Mathlib.Data.Nat.Basic

/-!
# Gap-limited scans

A scan of the natural numbers that gives up after `g` numbers in a row without a
property. It covers the numbers that no such gap precedes, and these only
(`ScanAt.covers`).
-/

namespace Pyrxd.Lib

section GapScan

variable (p : Nat → Prop) (g : Nat)

/-- The `g` numbers from `j` on are without the property. -/
def Gap (j : Nat) : Prop := ∀ x, j ≤ x → x < j + g → ¬ p x

/-- No gap ends before `i`. -/
def Reaches (i : Nat) : Prop := ∀ j, j + g ≤ i → ¬ Gap p g j

/-- The scan stands at `i`, behind `u` numbers in a row without the property. -/
structure ScanAt (i u : Nat) : Prop where
  reaches : ∀ n < i, Reaches p g n
  behind : u ≤ i
  limit : u ≤ g
  lacking : ∀ x, i - u ≤ x → x < i → ¬ p x
  last : u < i → p (i - u - 1)

variable {p g} {i u n m : Nat}

/-- A scan that reaches an index reaches all before it. -/
theorem Reaches.mono (h : Reaches p g n) (hle : m ≤ n) : Reaches p g m :=
  fun j hj => h j (Nat.le_trans hj hle)

/-- With more numbers of the property no more gaps. -/
theorem Reaches.imp {q : Nat → Prop} (h : Reaches p g n)
    (hpq : ∀ x, p x → q x) : Reaches q g n :=
  fun j hj hgap => h j hj fun x hx hlt hp => hgap x hx hlt (hpq x hp)

/-- What has the property on all of its predecessors is reached. -/
theorem reaches_of_all (hg : 0 < g) (h : ∀ x < n, p x) : Reaches p g n :=
  fun j hj hgap => hgap j (Nat.le_refl j) (by omega) (h j (by omega))

/-- The scan before its first look. -/
theorem ScanAt.start : ScanAt p g 0 0 where
  reaches := nofun
  behind := Nat.le_refl 0
  limit := Nat.zero_le g
  lacking := nofun
  last := nofun

/-- Short of the limit the scan has met no gap. -/
theorem ScanAt.next (h : ScanAt p g i u) (hu : u < g) : Reaches p g i := by
  intro j hj hgap
  rcases Nat.lt_or_ge (j + g) i with hlt | hge
  · exact h.reaches (j + g) hlt j (Nat.le_refl _) hgap
  · have hlast := h.last (by omega)
    exact hgap (i - u - 1) (by omega) (by omega) hlast

/-- A used index starts the gap anew. -/
theorem ScanAt.hit (h : ScanAt p g i u) (hu : u < g) (hp : p i) :
    ScanAt p g (i + 1) 0 where
  reaches := by
    intro n hn
    exact (h.next hu).mono (Nat.lt_succ_iff.mp hn)
  behind := Nat.zero_le _
  limit := Nat.zero_le _
  lacking := by
    intro x hx hlt
    omega
  last := fun _ => hp

theorem ScanAt.miss (h : ScanAt p g i u) (hu : u < g) (hp : ¬ p i) :
    ScanAt p g (i + 1) (u + 1) where
  reaches := by
    intro n hn
    exact (h.next hu).mono (Nat.lt_succ_iff.mp hn)
  behind := Nat.succ_le_succ h.behind
  limit := hu
  lacking := by
    intro x hx hlt
    rcases Nat.lt_or_eq_of_le (Nat.lt_succ_iff.mp hlt) with hlt | rfl
    · exact h.lacking x (by omega) hlt
    · exact hp
  last := by
    intro hlt
    rw [Nat.add_sub_add_right]
    exact h.last (by omega)

/-- **What a scan covers.** At its limit it has covered the numbers that no gap
precedes. -/
theorem ScanAt.covers (h : ScanAt p g i g) : n < i ↔ Reaches p g n := by
  refine ⟨h.reaches n, fun hn => ?_⟩
  rcases Nat.lt_or_ge n i with hlt | hge
  · exact hlt
  · have hbehind := h.behind
    exact absurd (fun x hx hlt => h.lacking x hx (by omega))
      (hn (i - g) (by omega))

end GapScan

end Pyrxd.Lib
