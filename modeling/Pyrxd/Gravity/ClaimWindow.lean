import Pyrxd.Gravity.ClaimFinality
import Pyrxd.Lib.Rounding
import Mathlib.Data.Option.Basic

/-!
# The claim gate over time

`assess_claim_finality` is asked again and again while the taker waits. What one
answer promises of the later ones (`claim_gate_sound`): a SAFE claim still
buries in time, whoever is told to wait can wait the whole reserve out, and a
squeeze is never taken back at a greater height or a greater value.
-/

namespace Pyrxd.Gravity

open Pyrxd.Btc Pyrxd.Lib

/-- What the gate makes of the blocks that are left. -/
def claimGate (v : CounterClaimFinality) (left : Int) (p : MarginPolicy)
    (val : Option Int) :
    Except PyErr ClaimFinality :=
  if ValueBlind p val then .ok .squeezed
  else match v.state with
    | .counterChainNotFinalizing => .ok .squeezed
    | .final => .ok (if left ≥ rxdBurial p val then .safe else .squeezed)
    | .notYetFinalLive => counterReserveRxd v p >>= fun reserve =>
      .ok (if left - reserve ≥ rxdBurial p val ∧
        v.remainingPositive = true then .wait else .squeezed)

section Gate

variable {v : CounterClaimFinality} {now lock left : Int} {tRxd : Timelock}
  {p : MarginPolicy} {val : Option Int}
  {c : ClaimFinality}

/-- The gate, whatever the unit of `t_rxd`: checked heights, and a decision on
the blocks left. -/
theorem assessClaimFinality_ok :
    assessClaimFinality v now lock tRxd p val = .ok c ↔
    0 ≤ lock ∧ lock ≤ now ∧
    ∃ t, tRxd.normalizeTo .blocks p.blockIntervalS = .ok t ∧
      claimGate v (lock + t.value - now) p val = .ok c := by
  unfold assessClaimFinality
  rw [refuseIf_bind_ok, refuseIf_bind_ok, refuseIf_bind_ok, bind_ok]
  constructor
  · rintro ⟨hnow, hlock, hle, t, ht, hgate⟩
    exact ⟨by omega, by omega, t, ht, hgate⟩
  · rintro ⟨hlock, hle, t, ht, hgate⟩
    exact ⟨by omega, by omega, by omega, t, ht, hgate⟩

theorem claimGate_safe : claimGate v left p val = .ok .safe ↔
    ¬ ValueBlind p val ∧ v.state = .final ∧ rxdBurial p val ≤ left := by
  rw [claimGate]
  by_cases hblind : ValueBlind p val
  · rw [if_pos hblind]
    exact ⟨nofun, fun h => absurd hblind h.1⟩
  · rw [if_neg hblind]
    cases hs : v.state with
    | counterChainNotFinalizing => exact ⟨nofun, fun h => by cases h.2.1⟩
    | final =>
      show Except.ok (if left ≥ rxdBurial p val then ClaimFinality.safe
        else .squeezed) = _ ↔ _
      by_cases hleft : left ≥ rxdBurial p val
      · rw [if_pos hleft]
        exact ⟨fun _ => ⟨hblind, rfl, hleft⟩, fun _ => rfl⟩
      · rw [if_neg hleft]
        exact ⟨nofun, fun h => absurd h.2.2 hleft⟩
    | notYetFinalLive =>
      refine ⟨fun h => ?_, fun h => by cases h.2.1⟩
      obtain ⟨r, -, h⟩ := bind_ok.mp h
      split at h <;> cases h

theorem claimGate_wait : claimGate v left p val = .ok .wait ↔
    ¬ ValueBlind p val ∧ v.state = .notYetFinalLive ∧
    ∃ reserve, counterReserveRxd v p = .ok reserve ∧
      rxdBurial p val ≤ left - reserve ∧ v.remainingPositive = true := by
  rw [claimGate]
  by_cases hblind : ValueBlind p val
  · rw [if_pos hblind]
    exact ⟨nofun, fun h => absurd hblind h.1⟩
  · rw [if_neg hblind]
    cases hs : v.state with
    | counterChainNotFinalizing => exact ⟨nofun, fun h => by cases h.2.1⟩
    | final =>
      refine ⟨fun h => ?_, fun h => by cases h.2.1⟩
      by_cases hleft : left ≥ rxdBurial p val
      · simp only [if_pos hleft] at h
        cases h
      · simp only [if_neg hleft] at h
        cases h
    | notYetFinalLive =>
      show (counterReserveRxd v p >>= _) = _ ↔ _
      rw [bind_ok]
      constructor
      · rintro ⟨reserve, hreserve, h⟩
        by_cases hroom : left - reserve ≥ rxdBurial p val ∧
          v.remainingPositive = true
        · exact ⟨hblind, rfl, reserve, hreserve, hroom⟩
        · rw [if_neg hroom] at h
          cases h
      · rintro ⟨-, -, reserve, hreserve, hroom⟩
        exact ⟨reserve, hreserve, by rw [if_pos hroom]⟩

/-- The gate answers unless it has to look a reserve up that it cannot get. -/
theorem claimGate_returns {left' : Int} {val' : Option Int}
    (h : claimGate v left p val = .ok c)
    (hblind : ¬ ValueBlind p val) :
    ∃ c', claimGate v left' p val' = .ok c' := by
  rw [claimGate] at h ⊢
  rw [if_neg hblind] at h
  by_cases hblind' : ValueBlind p val'
  · exact ⟨_, if_pos hblind'⟩
  · rw [if_neg hblind']
    cases hs : v.state with
    | counterChainNotFinalizing => exact ⟨_, rfl⟩
    | final => exact ⟨_, rfl⟩
    | notYetFinalLive =>
      rw [hs] at h
      obtain ⟨reserve, hreserve, -⟩ := bind_ok.mp h
      exact ⟨_, bind_ok.mpr ⟨reserve, hreserve, rfl⟩⟩

end Gate

/-! ## A greater value -/

section Value

variable {p : MarginPolicy} {val val' : Option Int}

theorem valueScaledBurialBlocks_eq {cost value : Int}
    (hcost : p.rxdReorgCostPerBlock = some cost) : valueScaledBurialBlocks p
    (some value) = scaleUp (p.burialSafetyFactor / cost) value := by
  unfold valueScaledBurialBlocks
  rw [hcost]
  show ⌈(value : ℚ) * p.burialSafetyFactor / cost⌉ =
    ⌈(value : ℚ) * (p.burialSafetyFactor / cost)⌉
  rw [mul_div_assoc]

/-- The rate at which a value is turned into blocks. -/
theorem burialRate_pos {cost : Int}
    (hcost : p.rxdReorgCostPerBlock = some cost) :
    0 < p.burialSafetyFactor / (cost : ℚ) := by
  have hpos : (0 : ℚ) < cost := Int.cast_pos.mpr (p.sound.cost cost hcost)
  exact div_pos (lt_of_lt_of_le one_pos p.sound.factor) hpos

/-- The value at risk that counts is the same or greater; where there is none,
there is none later either. -/
abbrev ValueRises (p : MarginPolicy) (val val' : Option Int) : Prop :=
  Option.Rel (· ≤ ·) (effectiveValue p val) (effectiveValue p val')

/-- More value never asks for fewer blocks. -/
theorem valueScaled_mono {a b : Option Int} (h : Option.Rel (· ≤ ·) a b) :
    valueScaledBurialBlocks p a ≤ valueScaledBurialBlocks p b := by
  cases h with
  | none => exact le_refl _
  | some h =>
    cases hcost : p.rxdReorgCostPerBlock with
    | none =>
      unfold valueScaledBurialBlocks
      rw [hcost]
    | some cost =>
      rw [valueScaledBurialBlocks_eq hcost, valueScaledBurialBlocks_eq hcost]
      exact scaleUp_mono (burialRate_pos hcost) h

theorem rxdBurial_mono (h : ValueRises p val val') :
    rxdBurial p val ≤ rxdBurial p val' :=
  max_le_max (le_refl _) (valueScaled_mono h)

/-- A known value stays known when it rises. -/
theorem valueBlind_rises (h : ValueRises p val val') : ValueBlind p val ↔
    ValueBlind p val' := by
  have hnone : effectiveValue p val = none ↔ effectiveValue p val' = none := by
    unfold ValueRises at h
    generalize effectiveValue p val = a at h ⊢
    generalize effectiveValue p val' = b at h ⊢
    cases h with
    | none => exact Iff.rfl
    | some h => exact ⟨nofun, nofun⟩
  rw [ValueBlind, ValueBlind, hnone]

end Value

/-! ## Later answers -/

section Later

variable {v : CounterClaimFinality} {now now' lock left left' : Int}
  {tRxd : Timelock} {p : MarginPolicy}
  {val val' : Option Int} {c : ClaimFinality}

/-- **A squeeze stays a squeeze** with fewer blocks left and more at stake. -/
theorem claimGate_squeezed (h : claimGate v left p val = .ok .squeezed)
    (hleft : left' ≤ left)
    (hval : ValueRises p val val') :
    claimGate v left' p val' = .ok .squeezed := by
  have hmono := rxdBurial_mono hval
  by_cases hblind : ValueBlind p val'
  · rw [claimGate, if_pos hblind]
  · have hopen : ¬ ValueBlind p val :=
      fun hb => hblind ((valueBlind_rises hval).mp hb)
    obtain ⟨c', hc'⟩ := @claimGate_returns v left p val _ left' val' h hopen
    cases c' with
    | squeezed => exact hc'
    | safe =>
      obtain ⟨-, hfinal, hroom⟩ := claimGate_safe.mp hc'
      have hsafe : claimGate v left p val = .ok .safe :=
        claimGate_safe.mpr ⟨hopen, hfinal, by omega⟩
      rw [h] at hsafe
      cases hsafe
    | wait =>
      obtain ⟨-, hlive, reserve, hreserve, hroom, hpositive⟩ :=
        claimGate_wait.mp hc'
      have hwait : claimGate v left p val = .ok .wait :=
        claimGate_wait.mpr ⟨hopen, hlive, reserve,
          hreserve, by omega, hpositive⟩
      rw [h] at hwait
      cases hwait

/-- **Waiting within the reserve loses nothing**: a final verdict that comes in
time is SAFE. -/
theorem claimGate_wait_safe (h : claimGate v left p val = .ok .wait) :
    ∃ reserve, counterReserveRxd v p = .ok reserve ∧ ∀ left', left - reserve ≤
      left' → ∀ v' : CounterClaimFinality, v'.state = .final →
      claimGate v' left' p val = .ok .safe := by
  obtain ⟨hopen, -, reserve, hreserve, hroom, -⟩ := claimGate_wait.mp h
  exact ⟨reserve, hreserve, fun left' hleft v' hfinal =>
    claimGate_safe.mpr ⟨hopen, hfinal, by omega⟩⟩

/-- Without finality or without the value the gate squeezes. -/
theorem claimGate_refused (h : claimGate v left p val = .ok c)
    (hrefused : v.state = .counterChainNotFinalizing ∨ ValueBlind p val) :
    c = .squeezed := by
  cases c with
  | squeezed => rfl
  | safe =>
    obtain ⟨hopen, hfinal, -⟩ := claimGate_safe.mp h
    rcases hrefused with hstall | hblind
    · rw [hstall] at hfinal
      cases hfinal
    · exact absurd hblind hopen
  | wait =>
    obtain ⟨hopen, hlive, -⟩ := claimGate_wait.mp h
    rcases hrefused with hstall | hblind
    · rw [hstall] at hlive
      cases hlive
    · exact absurd hblind hopen

end Later

/-- **What an answer of the claim gate promises.** A SAFE claim of a final
counter leg buries before the refund opens; whoever waits may wait for the
reserve; a squeeze is not taken back later or for more; and neither a stalled
counter chain nor a value that is not known is ever safe. -/
theorem claim_gate_sound (v : CounterClaimFinality) (now lock : Int)
    (tRxd : Timelock) (p : MarginPolicy)
    (val : Option Int) (c : ClaimFinality)
    (h : assessClaimFinality v now lock tRxd p val = .ok c) :
    (c = .safe → v.state = .final ∧
      ∃ t, tRxd.normalizeTo .blocks p.blockIntervalS = .ok t ∧
      now + max (reserveToBlocks p.rxdClaimBurial p.blockIntervalS)
        (valueScaledBurialBlocks p (effectiveValue p val)) ≤ lock + t.value) ∧
    (c = .wait → ∃ reserve, counterReserveRxd v p = .ok reserve ∧
      ∀ now', now ≤ now' → now' ≤ now + reserve →
      ∀ v' : CounterClaimFinality, v'.state = .final →
        assessClaimFinality v' now' lock tRxd p val = .ok .safe) ∧
    (c = .squeezed → ∀ now' val', now ≤ now' → ValueRises p val val' →
      assessClaimFinality v now' lock tRxd p val' = .ok .squeezed) ∧
    (v.state = .counterChainNotFinalizing ∨ ValueBlind p val →
      c = .squeezed) := by
  obtain ⟨hlock, hle, t, ht, hgate⟩ := assessClaimFinality_ok.mp h
  refine ⟨?_, ?_, ?_, claimGate_refused hgate⟩
  · intro hsafe
    rw [hsafe] at hgate
    obtain ⟨-, hfinal, hroom⟩ := claimGate_safe.mp hgate
    refine ⟨hfinal, t, ht, ?_⟩
    rw [rxdBurial] at hroom
    omega
  · intro hwait
    rw [hwait] at hgate
    obtain ⟨reserve, hreserve, hlater⟩ := claimGate_wait_safe hgate
    refine ⟨reserve, hreserve, fun now' hfrom hto v' hfinal => ?_⟩
    exact assessClaimFinality_ok.mpr
      ⟨hlock, by omega, t, ht, hlater _ (by omega) v' hfinal⟩
  -- once squeezed, later and with more at stake it stays squeezed
  · intro hsqueezed now' val' hfrom hval
    rw [hsqueezed] at hgate
    exact assessClaimFinality_ok.mpr
      ⟨hlock, by omega, t, ht, claimGate_squeezed hgate (by omega) hval⟩

/-- Ten blocks on, six of them for the burial and a fair number for Bitcoin. -/
theorem claim_gate_sound_wait : ∃ reserve, counterReserveRxd ⟨.notYetFinalLive,
    some 2, some 6⟩ samplePolicy = .ok reserve ∧ ∀ now', 110 ≤ now' →
    now' ≤ 110 + reserve → ∀ v' : CounterClaimFinality, v'.state = .final →
      assessClaimFinality v' now' 100 ⟨36,
        .blocks, by decide⟩ samplePolicy none = .ok .safe := by
  have hwait : assessClaimFinality ⟨.notYetFinalLive, some 2,
      some 6⟩ 110 100 ⟨36, .blocks, by decide⟩ samplePolicy none =
      .ok .wait := by decide +kernel
  exact (claim_gate_sound _ 110 100 _ samplePolicy none .wait hwait).2.1 rfl

end Pyrxd.Gravity
