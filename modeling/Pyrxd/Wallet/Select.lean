import Pyrxd.Swap.Partial
import Pyrxd.Tx.Address
import Mathlib.Data.List.Sort

/-!
# Choosing coins

`greedy_select_count` of `wallet.py` and the loop that two of the builders write
out themselves: coins in descending order of value, until they pay the amount
and a cushion for the fee that grows with every coin. `coverCount` is the number
of coins after which the loop stops.
-/

namespace Pyrxd.Wallet

open Pyrxd.Lib Pyrxd.Tx
open Pyrxd.Swap (p2pkhLock)

/-- `DUST_THRESHOLD`. -/
def dustThreshold : Int := 546

/-- `P2PKH().lock`, of an address. -/
def lockAddress (address : String) : Except PyErr Bytes := do
  let pkh ← addressToPublicKeyHash address
  p2pkhLock pkh

/-! ## The loops -/

/-- After how many values the running total reaches its target, counted from
`i`. -/
def coverCount (photons base perInput : Int) : Int → Nat → List Int → Option Nat
  | _, _, [] => none
  | total, i, value :: rest =>
    if total + value ≥
      photons + base + perInput * (i + 1 : Nat) then some (i + 1)
    else coverCount photons base perInput (total + value) (i + 1) rest

/-- `greedy_select_count`. -/
def greedySelectCount (valuesDesc : List Int)
    (photons baseCushion perInputCushion : Int) : Except PyErr Nat :=
  match coverCount photons baseCushion perInputCushion 0 0 valuesDesc with
  | some i => .ok i
  | none => do
    refuseIf (valuesDesc.sum < photons)
      "Insufficient funds for requested amount"
    return valuesDesc.length

section Coins

variable {α : Type} (value : α → Int)

/-- `sorted(coins, key=value, reverse=True)`: equal values keep their order. -/
def sortDescending (coins : List α) : List α :=
  coins.insertionSort fun a b => value b ≤ value a

/-- The loop over sorted coins that appends to `selected` and breaks at its
target. -/
def takeCovering (photons base perInput : Int) : Int → Nat → List α → List α
  | _, _, [] => []
  | total, n, coin :: rest =>
    if total + value coin ≥
      photons + base + perInput * (n + 1 : Nat) then [coin]
    else coin :: takeCovering photons base perInput
      (total + value coin) (n + 1) rest

end Coins

/-! ## Where they stop -/

/-- The first `k` values pay the amount and the cushion for `k` coins. -/
def Reaches (photons base perInput : Int) (values : List Int)
    (k : Nat) : Prop :=
  photons + base + perInput * k ≤ (values.take k).sum

instance (photons base perInput : Int) (values : List Int) (k : Nat) :
    Decidable (Reaches photons base perInput values k) :=
  inferInstanceAs (Decidable (_ ≤ _))

section Count

variable {photons base perInput : Int}

/-- The loop from `i` coins on stops at the first count that reaches its
target. -/
theorem coverCount_spec {values : List Int} : ∀ {total : Int} {i : Nat},
    match coverCount photons base perInput total i values with
    | some k => i < k ∧ k ≤ i + values.length ∧
        photons + base + perInput * k ≤ total + (values.take (k - i)).sum ∧
        ∀ j, i < j → j < k →
          ¬ photons + base + perInput * j ≤ total + (values.take (j - i)).sum
    | none => ∀ j, i < j → j ≤ i + values.length →
        ¬ photons + base + perInput * j ≤
          total + (values.take (j - i)).sum := by
  -- the invariant: the total so far is the sum of the values passed
  induction values with
  | nil =>
    intro total i j hj hj'
    rw [List.length_nil] at hj'
    omega
  | cons value rest ih =>
    intro total i
    have hshift : ∀ j, i + 1 < j → total + ((value :: rest).take (j - i)).sum =
        total + value + (rest.take (j - (i + 1))).sum := by
      intro j hj
      rw [show j - i =
        j - (i + 1) + 1 by omega, List.take_succ_cons, List.sum_cons]
      omega
    have hfirst : total + ((value :: rest).take (i + 1 - i)).sum =
        total + value := by
      rw [Nat.add_sub_cancel_left, List.take_succ_cons, List.take_zero,
        List.sum_cons, List.sum_nil, Int.add_zero]
    rw [coverCount]
    -- the loop stops at the first value that covers, so no smaller count does
    by_cases hstop : total + value ≥ photons + base + perInput * (i + 1 : Nat)
    · rw [if_pos hstop]
      refine ⟨Nat.lt_succ_self
        i, by rw [List.length_cons]; omega, by rw [hfirst]; exact hstop, ?_⟩
      intro j hj hj'
      omega
    · rw [if_neg hstop]
      have hih := @ih (total + value) (i + 1)
      cases hcount : coverCount photons base perInput (total + value)
          (i + 1) rest with
      | none =>
        rw [hcount] at hih
        intro j hj hj'
        by_cases hji : j = i + 1
        · rw [hji, hfirst]
          exact hstop
        · rw [hshift j (by omega)]
          exact hih j (by omega) (by rw [List.length_cons] at hj'; omega)
      | some k =>
        rw [hcount] at hih
        obtain ⟨hlt, hle, hreach, hbefore⟩ := hih
        refine ⟨by omega, by rw [List.length_cons]; omega, by rw [hshift k hlt]; exact hreach, ?_⟩
        intro j hj hjk
        by_cases hji : j = i + 1
        · rw [hji, hfirst]
          exact hstop
        · rw [hshift j (by omega)]
          exact hbefore j (by omega) hjk

variable {values : List Int}

/-- A count that is found is the least that reaches. -/
theorem coverCount_some {k : Nat}
    (h : coverCount photons base perInput 0 0 values = some k) :
    1 ≤ k ∧ k ≤ values.length ∧ Reaches photons base perInput values k ∧
      ∀ j, 1 ≤ j → j < k → ¬ Reaches photons base perInput values j := by
  have hspec := @coverCount_spec photons base perInput values 0 0
  rw [h] at hspec
  simp only [Nat.sub_zero, Int.zero_add, Nat.zero_add] at hspec
  exact hspec

/-- Where none is found no count reaches. -/
theorem coverCount_none
    (h : coverCount photons base perInput 0 0 values = none) :
    ∀ j, 1 ≤ j → j ≤ values.length →
    ¬ Reaches photons base perInput values j := by
  have hspec := @coverCount_spec photons base perInput values 0 0
  rw [h] at hspec
  simp only [Nat.sub_zero, Int.zero_add, Nat.zero_add] at hspec
  exact hspec

/-- How many coins both loops take: all of them when the target is never
reached. -/
def takenCount (photons base perInput : Int) (values : List Int) : Nat :=
  (coverCount photons base perInput 0 0 values).getD values.length

/-- The loop takes a prefix, of the length that `coverCount` gives. -/
theorem takeCovering_eq {α : Type} {value : α → Int} : ∀ {coins : List α}
    {total : Int} {n : Nat},
    takeCovering value photons base perInput total n coins =
      coins.take ((coverCount photons base perInput total n
        (coins.map value)).getD (n + coins.length) - n) := by
  intro coins
  -- the loop takes coins as the count loop counts them
  induction coins with
  | nil =>
    intro total n
    rw [List.take_nil]
    rfl
  | cons coin rest ih =>
    intro total n
    have hspec := @coverCount_spec photons base perInput (rest.map value)
      (total + value coin) (n + 1)
    rw [takeCovering, List.map_cons, coverCount]
    by_cases hstop : total + value coin ≥
      photons + base + perInput * (n + 1 : Nat)
    · rw [if_pos hstop, if_pos hstop, Option.getD_some, Nat.add_sub_cancel_left,
        List.take_succ_cons, List.take_zero]
    · rw [if_neg hstop, if_neg hstop, ih]
      cases hcount : coverCount photons base perInput (total + value coin)
          (n + 1) (rest.map value) with
      | none =>
        rw [Option.getD_none, Option.getD_none, List.length_cons,
          show n + (rest.length + 1) - n =
            n + 1 + rest.length - (n + 1) + 1 by omega, List.take_succ_cons]
      | some k =>
        rw [hcount] at hspec
        rw [Option.getD_some, Option.getD_some, show k - n =
          k - (n + 1) + 1 by have := hspec.1; omega, List.take_succ_cons]

/-- The selection is a prefix of the coins. -/
theorem takeCovering_take {α : Type} {value : α → Int} {coins : List α} :
    takeCovering value photons base perInput 0 0 coins =
      coins.take (takenCount photons base perInput (coins.map value)) := by
  rw [takeCovering_eq, takenCount, Nat.sub_zero, Nat.zero_add, List.length_map]

/-- The count is of that prefix. -/
theorem greedySelectCount_ok {n : Nat}
    (h : greedySelectCount values photons base perInput = .ok n) :
    n = takenCount photons base perInput values := by
  unfold greedySelectCount at h
  rw [takenCount]
  cases hcount : coverCount photons base perInput 0 0 values with
  | some i =>
    rw [hcount] at h
    cases h
    rfl
  | none =>
    rw [hcount] at h
    obtain ⟨-, h⟩ := refuseIf_bind_ok.mp h
    cases h
    rfl

end Count

end Pyrxd.Wallet
