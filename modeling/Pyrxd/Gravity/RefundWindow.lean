import Pyrxd.Gravity.Steps

/-!
# The refund window and the squeeze

On an ETH swap the taker refunds proactively once `t_rxd` is within N blocks.
The constructor puts a floor under N so that a maker who reveals just before the
window opens still leaves room to wait out ETH finality and bury the claim. The
floor counts the flat burial; the gate demands the larger of the flat and the
value-scaled one. `refundWindow_dominates_iff` is what the floor really gives.
-/

namespace Pyrxd.Gravity

open Pyrxd.Btc Pyrxd.Lib

/-- A finalized-checkpoint verdict that is still live. -/
def liveVerdict : CounterClaimFinality where
  state := .notYetFinalLive

/-- While the refund window is shut, a claim that is not yet final leaves room
to wait. -/
def WindowDominates (c : Coordinator) (record : SwapRecord) : Prop :=
  ∀ now lock, 0 ≤ lock → lock ≤ now →
    takerRefundWindowOpen now lock record.terms.tRxd
      c.config.makerStallSafetyWindowBlocks false c.policy.blockIntervalS =
      .ok false →
    assessClaimFinality liveVerdict now lock record.terms.tRxd c.policy =
      .ok .wait

/-- The RXD blocks ETH finality may take. -/
def ethFinalityReserve (policy : MarginPolicy) : Int :=
  ⌈quotDouble (policy.ethFinalizationWindowS.getD 0) policy.rxdBlockIntervalS⌉

section Window

variable {c : Coordinator} {record : SwapRecord} {now lock : Int}

/-- The window is open exactly in the last N blocks. -/
theorem takerRefundWindowOpen_eq {n : Int} {i : ℚ} (hi : 0 < i) (h0 : 0 ≤ lock)
    (h1 : lock ≤ now)
    (hn : 0 ≤ n) (terms : NegotiatedTerms) :
    takerRefundWindowOpen now lock terms.tRxd n false i =
      .ok (decide (blocksLeft now lock terms.tRxd ≤ n)) := by
  have hnow : ¬ now < 0 := by omega
  have hcmp : now ≥ lock + terms.tRxd.value - n ↔
      blocksLeft now lock terms.tRxd ≤ n := by
    unfold blocksLeft
    omega
  simp only [takerRefundWindowOpen, refuseIf, Bool.false_eq_true, if_false,
    hnow, not_lt.mpr h0,
    not_lt.mpr hn, ok_bind, Timelock.normalizeTo_blocks hi terms.sound.tRxd,
      pure_eq_ok, hcmp]

/-- What the constructor of an ETH coordinator guarantees under a measured
policy. -/
theorem init_window (hinit : c.init record = .ok ())
    (heth : record.terms.counterChain = .eth)
    (hmeasured : c.policy.isMeasured = true) :
    c.policy.ethFinalizationWindowS ≠ none ∧
      ethFinalityReserve c.policy +
        reserveToBlocks c.policy.rxdClaimBurial c.policy.blockIntervalS ≤
        c.config.makerStallSafetyWindowBlocks + 1 := by
  simp only [Coordinator.init, refuseIf_bind_ok] at hinit
  obtain ⟨-, -, -, -, hwindow⟩ := hinit
  unfold Coordinator.checkEthWindow at hwindow
  rw [heth] at hwindow
  cases hw : c.policy.ethFinalizationWindowS with
  | none => simp [hw, invalid] at hwindow
  | some w =>
    simp only [hw, refuseIf_ok, hmeasured, true_and, not_lt,
      Coordinator.ethWindowFloor] at hwindow
    refine ⟨by simp, ?_⟩
    simp only [ethFinalityReserve, hw, Option.getD_some]
    omega

/-- The gate waits on a live verdict exactly when finality and burial both
fit. -/
theorem assessClaimFinality_live (hw : c.policy.ethFinalizationWindowS ≠ none)
    (h0 : 0 ≤ lock)
    (h1 : lock ≤ now) :
    assessClaimFinality liveVerdict now lock record.terms.tRxd c.policy =
      .ok .wait ↔
      ¬ ValueBlind c.policy none ∧
        ethFinalityReserve c.policy + rxdBurial c.policy none ≤
          blocksLeft now lock record.terms.tRxd := by
  obtain ⟨w, hw⟩ := Option.ne_none_iff_exists'.mp hw
  have hreserve : counterReserveRxd liveVerdict c.policy =
      .ok (ethFinalityReserve c.policy) := by
    simp [counterReserveRxd, liveVerdict, ethFinalityReserve, hw]
  rw [assessClaimFinality_eq (by omega) h0 h1 record.terms.sound.tRxd]
  by_cases hb : ValueBlind c.policy none
  · simp [hb]
  · simp only [hb, if_false, liveVerdict, not_false_iff, true_and]
    change (counterReserveRxd liveVerdict c.policy >>= _) = _ ↔ _
    rw [hreserve, ok_bind]
    simp only [CounterClaimFinality.remainingPositive, and_true,
      Except.ok.injEq]
    split
    · next h => simp only [true_iff]; omega
    · next h => simp only [reduceCtorEq, false_iff]; omega

end Window

/-- **What the floor gives.** For an accepted ETH coordinator with a measured
policy, the window dominates the squeeze exactly when it covers all of `t_rxd`,
or a value to scale by is there whenever one is needed and finality plus the
value-scaled burial fit in N+1 blocks. -/
theorem refundWindow_dominates_iff (c : Coordinator) (record : SwapRecord)
    (hinit : c.init record = .ok ()) (heth : record.terms.counterChain = .eth)
    (hmeasured : c.policy.isMeasured = true) :
    WindowDominates c record ↔
      (record.terms.tRxd.value : Int) ≤ c.config.makerStallSafetyWindowBlocks ∨
      (c.policy.rxdReorgCostPerBlock = none ∨
        c.policy.valueAtRiskPhotons ≠ none) ∧
        ethFinalityReserve c.policy +
            valueScaledBurialBlocks c.policy c.policy.valueAtRiskPhotons ≤
          c.config.makerStallSafetyWindowBlocks + 1 := by
  obtain ⟨hw, hfloor⟩ := init_window hinit heth hmeasured
  have hn := c.config.window_nonneg
  have hi := c.policy.sound.blockInterval
  have hblind : ¬ ValueBlind c.policy none ↔
      c.policy.rxdReorgCostPerBlock = none ∨
        c.policy.valueAtRiskPhotons ≠ none := by
    simp only [ValueBlind, effectiveValue]
    tauto
  have hburial : rxdBurial c.policy none =
      max (reserveToBlocks c.policy.rxdClaimBurial c.policy.blockIntervalS)
        (valueScaledBurialBlocks c.policy c.policy.valueAtRiskPhotons) := rfl
  constructor
  · intro h
    by_cases hlong : (record.terms.tRxd.value : Int) ≤
      c.config.makerStallSafetyWindowBlocks
    · exact .inl hlong
    · -- the last height at which the window is still shut
      have hnow : (0 : Int) ≤
          record.terms.tRxd.value - (c.config.makerStallSafetyWindowBlocks +
          1) := by
        omega
      have hleft : blocksLeft
          (record.terms.tRxd.value - (c.config.makerStallSafetyWindowBlocks +
          1))
          0 record.terms.tRxd = c.config.makerStallSafetyWindowBlocks + 1 := by
        unfold blocksLeft
        omega
      have hwait := h _ 0 le_rfl hnow (by
        rw [takerRefundWindowOpen_eq hi le_rfl hnow hn, hleft]
        simp)
      rw [assessClaimFinality_live hw le_rfl hnow, hleft, hblind,
        hburial] at hwait
      exact .inr ⟨hwait.1, by omega⟩
  · intro hcond now lock h0 h1 hshut
    rw [takerRefundWindowOpen_eq hi h0 h1 hn, Except.ok.injEq,
      decide_eq_false_iff_not, not_le] at hshut
    rw [assessClaimFinality_live hw h0 h1, hblind, hburial]
    rcases hcond with hlong | ⟨hval, hfit⟩
    · -- the window covers the whole lock, so it was never shut
      unfold blocksLeft at hshut
      omega
    · exact ⟨hval, by omega⟩

/-- A measured ETH policy: a 768 s finalization window over 300 s blocks, six
blocks of flat burial. -/
def sampleEthPolicy : MarginPolicy :=
  { samplePolicy with ethFinalizationWindowS := some 768, valid := by decide }

/-- The same with a value of 5000 photons at 100 photons a block. -/
def valuedEthPolicy : MarginPolicy :=
  { sampleEthPolicy with
    rxdReorgCostPerBlock := some 100, valueAtRiskPhotons := some 5000, valid := by decide }

/-- An ETH coordinator whose N is the constructor's floor, 3 + 6 - 1. -/
def ethCoordinator (policy : MarginPolicy) : Coordinator :=
  { config := { marginPolicy := policy, makerStallSafetyWindowBlocks := 8, valid := rfl } }

/-- At the floor, without value-scaling. -/
theorem refundWindow_dominates_flat :
    WindowDominates (ethCoordinator sampleEthPolicy) sampleEthParRecord :=
  (refundWindow_dominates_iff (ethCoordinator sampleEthPolicy)
    sampleEthParRecord (by decide +kernel)
    rfl rfl).mpr (.inr ⟨.inl rfl, by decide +kernel⟩)

/-- With a value to protect the same N is accepted, and a reveal one block
before the window opens is squeezed. -/
theorem refundWindow_squeezed_valued :
    (ethCoordinator valuedEthPolicy).init sampleEthParRecord = .ok () ∧
    valuedEthPolicy.isMeasured = true ∧
    sampleEthParRecord.terms.counterChain = .eth ∧
    takerRefundWindowOpen 111 100 sampleEthParRecord.terms.tRxd 8 false
      valuedEthPolicy.blockIntervalS = .ok false ∧
    assessClaimFinality liveVerdict 111 100 sampleEthParRecord.terms.tRxd
      valuedEthPolicy =
      .ok .squeezed := by
  refine ⟨by decide +kernel, rfl, rfl, by decide +kernel, by decide +kernel⟩

end Pyrxd.Gravity
