import Pyrxd.Watch.Decide

/-!
# What a decision amounts to

A `Decision` is mostly text. What the rest of the system acts on is its `Shape`:
the intent, the action it names and the two flags that arm the executors.
`decideShape` says the shape of every decision, both counter chains at once, and
`decide_shape` is the refinement: for any record and observations `decide`
returns, with that shape. The safety statements are then about `decideShape`.
-/

namespace Pyrxd.Watch

open Pyrxd.Btc Pyrxd.Gravity

structure Shape where
  intent : Intent
  action : Option String := none
  refund : Bool := false
  claim : Bool := false
deriving DecidableEq, Repr

/-- Forget the texts and the deadline. -/
def DecisionFields.shape (f : DecisionFields) : Shape :=
  ⟨f.intent, f.recommendedAction, f.autonomousBtcRefund, f.autonomousAssetClaim⟩

section Read

variable {f : DecisionFields} {s : Shape}

theorem DecisionFields.intent_of_shape (h : f.shape = s) :
    f.intent = s.intent :=
  congrArg Shape.intent h

theorem DecisionFields.action_of_shape (h : f.shape = s) :
    f.recommendedAction = s.action :=
  congrArg Shape.action h

theorem DecisionFields.refund_of_shape (h : f.shape = s) :
    f.autonomousBtcRefund = s.refund :=
  congrArg Shape.refund h

theorem DecisionFields.claim_of_shape (h : f.shape = s) :
    f.autonomousAssetClaim = s.claim :=
  congrArg Shape.claim h

end Read

/-- The shapes the constructor lets through. -/
structure Shape.WellFormed (s : Shape) : Prop where
  exclusive : ¬ (s.refund = true ∧ s.claim = true)
  refund : s.refund = true → s.intent = .pageRefund
  claim : s.claim = true → s.intent = .pageClaim

/-- A well-formed shape with a reason passes the checks. -/
theorem DecisionFields.postInit_of_shape {f : DecisionFields}
    (hr : f.reason ≠ "")
    (hs : f.shape.WellFormed) : f.postInit = .ok () := by
  simp only [postInit, bind_ok, refuseIf_ok, exists_const]
  refine ⟨hr, hs.exclusive, fun h => h.2 (hs.refund h.1),
    fun h => h.2 (hs.claim h.1)⟩

/-! ## Totality of the gates -/

/-- `x` fails with `ValidationError` only. -/
def Validates {α : Type} (x : Except PyErr α) : Prop := ∀ e, x = .error e →
  ∃ msg, e = .validation msg

theorem validates_ok {α : Type} (a : α) :
    Validates (.ok a : Except PyErr α) := by
  intro e h
  cases h

/-- A guard raises validation errors only. -/
theorem validates_refuseIf (cond : Prop) [Decidable cond] (msg : String) :
    Validates (refuseIf cond msg) := by
  intro e h
  unfold refuseIf invalid at h
  split at h
  · cases h
    exact ⟨_, rfl⟩
  · cases h

theorem validates_invalid {α : Type} (msg : String) :
    Validates (invalid msg : Except PyErr α) := by
  intro e h
  cases h
  exact ⟨msg, rfl⟩

theorem validates_bind {α β : Type} {x : Except PyErr α}
    {f : α → Except PyErr β} (hx : Validates x)
    (hf : ∀ a, Validates (f a)) : Validates (x >>= f) := by
  cases x with
  | error e => exact fun e' h => hx e' (by simpa using h)
  | ok a => exact hf a

theorem normalizeTo_validates (t : Timelock) (u : TimeUnit) (i : ℚ) :
    Validates (t.normalizeTo u i) := by
  have hnew : ∀ v u, Validates (Timelock.new v u) := by
    intro v u
    unfold Timelock.new
    split
    · exact validates_invalid _
    · split
      · exact validates_ok _
      · cases u <;> exact validates_invalid _
  unfold Timelock.normalizeTo
  split
  · exact validates_invalid _
  · split
    · exact validates_ok _
    · cases t.unit <;> exact hnew _ _

theorem takerRefundWindowOpen_validates (now lock : Int) (t : Timelock)
    (n : Int) (claimed : Bool)
    (i : ℚ) : Validates (takerRefundWindowOpen now lock t n claimed i) := by
  unfold takerRefundWindowOpen
  split
  · exact validates_ok _
  · refine validates_bind (validates_refuseIf _ _) fun _ => ?_
    refine validates_bind (validates_refuseIf _ _) fun _ => ?_
    refine validates_bind (validates_refuseIf _ _) fun _ => ?_
    exact validates_bind (normalizeTo_validates _ _ _) fun _ => validates_ok _

theorem counterReserveRxd_validates (v : CounterClaimFinality)
    (p : MarginPolicy) :
    Validates (counterReserveRxd v p) := by
  unfold counterReserveRxd
  cases v.requiredDepth with
  | some d =>
    exact validates_bind (validates_refuseIf _ _) fun _ => validates_ok _
  | none =>
    cases p.ethFinalizationWindowS with
    | none => exact validates_invalid _
    | some w => exact validates_ok _

theorem assessClaimFinality_validates (v : CounterClaimFinality)
    (now lock : Int) (t : Timelock)
    (p : MarginPolicy) (val : Option Int) :
    Validates (assessClaimFinality v now lock t p val) := by
  unfold assessClaimFinality
  refine validates_bind (validates_refuseIf _ _) fun _ => ?_
  refine validates_bind (validates_refuseIf _ _) fun _ => ?_
  refine validates_bind (validates_refuseIf _ _) fun _ => ?_
  refine validates_bind (normalizeTo_validates _ _ _) fun _ => ?_
  split
  · exact validates_ok _
  · cases v.state with
    | counterChainNotFinalizing => exact validates_ok _
    | final => exact validates_ok _
    | notYetFinalLive =>
      exact validates_bind (counterReserveRxd_validates v p) fun _ =>
        validates_ok _

/-- The depth the tower asks for exists. -/
theorem requiredBtcDepthBlocks_ok (p : MarginPolicy) :
    ∃ n, requiredBtcDepthBlocks p = .ok n := by
  obtain ⟨n, hn, -⟩ := p.sound.reorgDepth
  exact ⟨n.value, by rw [requiredBtcDepthBlocks, hn]; rfl⟩

theorem refundOpensAt_eq (p : MarginPolicy) (terms : NegotiatedTerms)
    (lock : Nat) :
    refundOpensAt p terms lock = .ok (lock + terms.tRxd.value) := by
  rw [refundOpensAt,
    Timelock.normalizeTo_blocks p.sound.blockInterval terms.sound.tRxd]
  rfl

/-! ## The claim race -/

/-- What the gate says, `none` when it cannot be asked or raises. -/
def raceOutcome (terms : NegotiatedTerms) (obs : Observations)
    (policy : MarginPolicy)
    (verdict : Option (Except PyErr CounterClaimFinality)) :
    Option ClaimFinality :=
  match verdict, obs.assetLockedAtHeight with
  | some (.ok v), some lock =>
    match raceFinality terms obs policy lock v with
    | .ok finality => some finality
    | .error _ => none
  | _, _ => none

/-- The page for each answer of the gate. -/
def raceShape (arms : Bool) : Option ClaimFinality → Shape
  | none =>
    ⟨.pageSqueezed, some
      "taker_scrape_and_claim_asset (verify finality manually)", false, false⟩
  | some .safe => ⟨.pageClaim, some "taker_scrape_and_claim_asset", false, arms⟩
  | some .wait => ⟨.watch, none, false, false⟩
  | some .squeezed =>
    ⟨.pageSqueezed, some
      "taker_claim_asset_from_vulnerable (winner-take-all) vs accept loss",
      false, false⟩

/-- No text is empty. -/
structure RaceTexts.Filled (x : RaceTexts) : Prop where
  missing : x.missing ≠ ""
  raised : x.raised ≠ ""
  safe : x.safe ≠ ""
  wait : x.wait ≠ ""
  squeezed : x.squeezed ≠ ""

/-- The Bitcoin race has a text for every page. -/
theorem btcRaceTexts_filled (obs : Observations) :
    (btcRaceTexts obs).Filled := by
  constructor <;> simp [btcRaceTexts]

theorem ethRaceTexts_filled : ethRaceTexts.Filled := by
  constructor <;> simp [ethRaceTexts]

/-- The shape of the race's decision. -/
theorem claimRace_shape {texts : RaceTexts} (ht : texts.Filled)
    {terms : NegotiatedTerms}
    {obs : Observations} {policy : MarginPolicy}
    {verdict : Option (Except PyErr CounterClaimFinality)}
    (hv : ∀ x, verdict = some x → ∃ v, x = .ok v) :
    ∃ f, claimRace texts terms obs policy verdict = .ok f ∧ f.reason ≠ "" ∧
      f.shape = raceShape texts.arms
        (raceOutcome terms obs policy verdict) := by
  unfold claimRace raceOutcome
  cases verdict with
  | none => exact ⟨_, rfl, ht.missing, rfl⟩
  | some x =>
    obtain ⟨v, rfl⟩ := hv x rfl
    cases obs.assetLockedAtHeight with
    | none => exact ⟨_, rfl, ht.missing, rfl⟩
    | some lock =>
      simp only [ok_bind, refundOpensAt_eq]
      have hval : Validates (raceFinality terms obs policy lock v) :=
        assessClaimFinality_validates _ _ _ _ _ _
      cases hf : raceFinality terms obs policy lock v with
      | error e =>
        -- the only exceptions the gate raises are the ones the race catches
        obtain ⟨msg, rfl⟩ := hval e hf
        exact ⟨_, rfl, by simp [ht.raised], rfl⟩
      | ok finality =>
        cases finality with
        | safe => exact ⟨_, rfl, ht.safe, rfl⟩
        | wait => exact ⟨_, rfl, ht.wait, rfl⟩
        | squeezed => exact ⟨_, rfl, ht.squeezed, rfl⟩

/-! ## All branches -/

/-- The maker's claim shows on the record's own counter chain. -/
def claimObserved (record : SwapRecord) (obs : Observations) : Bool :=
  match record.terms.counterChain with
  | .btc => obs.makerHasClaimedBtc
  | .eth => obs.ethClaimDetected

/-- The claim race is on. -/
def Racing (record : SwapRecord) (obs : Observations) : Prop :=
  claimObserved record obs = true ∨ record.state = .secretRevealed

instance (record : SwapRecord) (obs : Observations) :
    Decidable (Racing record obs) :=
  inferInstanceAs (Decidable (_ ∨ _))

/-- The verdict on the maker's claim, as the record's branch builds it. -/
def counterVerdict (record : SwapRecord) (obs : Observations)
    (policy : MarginPolicy) :
    Option (Except PyErr CounterClaimFinality) :=
  match record.terms.counterChain with
  | .btc => btcVerdict obs policy
  | .eth => ethVerdict obs

/-- What `assess_claim_finality` answers on these inputs. -/
def gateOutcome (record : SwapRecord) (obs : Observations)
    (policy : MarginPolicy) :
    Option ClaimFinality :=
  raceOutcome record.terms obs policy (counterVerdict record obs policy)

/-- A maker stall is due, or its predicate cannot be evaluated. -/
def stallDue (record : SwapRecord) (obs : Observations) (policy : MarginPolicy)
    (safetyWindowBlocks : Int) : Bool :=
  match obs.assetLockedAtHeight with
  | none => false
  | some lock =>
    match takerRefundWindowOpen obs.nowRxdHeight lock record.terms.tRxd
        safetyWindowBlocks false policy.blockIntervalS with
    | .ok due => due
    | .error _ => true

/-- The shape before the reveal, by state. -/
def restShape (record : SwapRecord) (obs : Observations) (policy : MarginPolicy)
    (safetyWindowBlocks : Int) : Shape :=
  let onBtc := record.terms.counterChain = .btc
  match record.state with
  | .assetVulnerable =>
    ⟨.pageSqueezed, some "taker_claim_asset_from_vulnerable vs accept loss",
      false, false⟩
  | .paramsMismatch =>
    ⟨.pageRefund, some "taker_refund_btc",
      onBtc ∧ btcRefundMatured record.terms obs = true, false⟩
  | .makerStalls =>
    ⟨.pageSqueezed, some
      "investigate (mutual_refund is only valid from BOTH_LOCKED)", false,
      false⟩
  | .bothLocked =>
    if stallDue record obs policy safetyWindowBlocks then ⟨.pageRefund,
      some "mutual_refund", false, false⟩
    else { intent := .watch }
  | .btcLocked =>
    if onBtc ∧ obs.assetLockedAtHeight = none ∧
        btcRefundMatured record.terms obs = true then
      ⟨.pageRefund, some "taker_refund_btc", true, false⟩
    else { intent := .watch }
  | _ => { intent := .watch }

/-- The pages there are before the reveal, each with what it takes to be
sent. -/
inductive RestPage (record : SwapRecord) (obs : Observations) :
    Shape → Prop where
  | watch : RestPage record obs { intent := .watch }
  | vulnerable (h : record.state = .assetVulnerable) : RestPage record obs
      ⟨.pageSqueezed, some "taker_claim_asset_from_vulnerable vs accept loss",
        false, false⟩
  | mismatch (h : record.state = .paramsMismatch) (due : Bool)
      (hdue : due = true → record.terms.counterChain = .btc ∧
        btcRefundMatured record.terms obs = true) : RestPage record obs
      ⟨.pageRefund, some "taker_refund_btc", due, false⟩
  | stalls (h : record.state = .makerStalls) : RestPage record obs
      ⟨.pageSqueezed, some
        "investigate (mutual_refund is only valid from BOTH_LOCKED)", false,
        false⟩
  | stallDue (h : record.state = .bothLocked) : RestPage record obs
      ⟨.pageRefund, some "mutual_refund", false, false⟩
  | neverLocked (h : record.state = .btcLocked)
      (hchain : record.terms.counterChain = .btc)
      (hlock : obs.assetLockedAtHeight = none)
      (hdue : btcRefundMatured record.terms obs = true) :
      RestPage record obs ⟨.pageRefund, some "taker_refund_btc", true, false⟩

/-- Outside the race the page is one of a few. -/
theorem restShape_page (record : SwapRecord) (obs : Observations)
    (policy : MarginPolicy) (n : Int) :
    RestPage record obs (restShape record obs policy n) := by
  unfold restShape
  dsimp only
  split
  · next h => exact .vulnerable h
  · next h => exact .mismatch h _ (by simp)
  · next h => exact .stalls h
  · next h =>
    split
    · exact .stallDue h
    · exact .watch
  · next h =>
    split
    · next hdue => exact .neverLocked h hdue.1 hdue.2.1 hdue.2.2
    · exact .watch
  · exact .watch

/-- None of them arms the claim executor. -/
theorem RestPage.claim_false {record : SwapRecord}
    {obs : Observations} {s : Shape}
    (h : RestPage record obs s) : s.claim = false := by
  cases h <;> rfl

theorem RestPage.not_pageClaim {record : SwapRecord}
    {obs : Observations} {s : Shape}
    (h : RestPage record obs s) : s.intent ≠ .pageClaim := by
  cases h <;> simp

/-- All of them are well formed. -/
theorem RestPage.wellFormed {record : SwapRecord}
    {obs : Observations} {s : Shape}
    (h : RestPage record obs s) : s.WellFormed := by
  cases h <;> constructor <;> simp

/-- The shape of a decision. -/
def decideShape (record : SwapRecord) (obs : Observations)
    (policy : MarginPolicy)
    (safetyWindowBlocks : Int) : Shape :=
  if isTerminal record.state then { intent := .retire }
  else if Racing record obs then
    raceShape (record.terms.counterChain = .btc) (gateOutcome record obs policy)
  else restShape record obs policy safetyWindowBlocks

/-! ## The refinement -/

section Refinement

variable (record : SwapRecord) (obs : Observations)
  (policy : MarginPolicy) {n : Int}

/-- A verdict that is there was built without raising. -/
theorem counterVerdict_ok (x : Except PyErr CounterClaimFinality)
    (h : counterVerdict record obs policy = some x) : ∃ v, x = .ok v := by
  unfold counterVerdict at h
  cases hc : record.terms.counterChain with
  | btc =>
    simp only [hc, btcVerdict, Option.map_eq_some_iff] at h
    obtain ⟨confs, -, rfl⟩ := h
    obtain ⟨depth, hd⟩ := requiredBtcDepthBlocks_ok policy
    rw [hd, ok_bind]
    exact ⟨_, CounterClaimFinality.fromBtcDepth_ok.mpr ⟨Int.natCast_nonneg _,
      Int.natCast_nonneg _, rfl⟩⟩
  | eth =>
    simp only [hc, ethVerdict, Option.map_eq_some_iff] at h
    obtain ⟨st, -, rfl⟩ := h
    exact ⟨_, rfl⟩

/-- The shape of the decision when both legs are locked. -/
theorem bothLockedDecision_shape :
    ∃ f, bothLockedDecision record.terms obs policy n = .ok f ∧ f.reason ≠ "" ∧
      f.shape = if stallDue record obs policy n then ⟨.pageRefund,
        some "mutual_refund", false, false⟩
        else { intent := .watch } := by
  cases hl : obs.assetLockedAtHeight with
  | none =>
    simp only [bothLockedDecision, stallDue, hl]
    exact ⟨_, rfl, by simp, rfl⟩
  | some lock =>
    have hval := takerRefundWindowOpen_validates obs.nowRxdHeight lock
      record.terms.tRxd n false policy.blockIntervalS
    cases hw : takerRefundWindowOpen obs.nowRxdHeight lock
        record.terms.tRxd n false
        policy.blockIntervalS with
    | error e =>
      obtain ⟨msg, rfl⟩ := hval e hw
      simp only [bothLockedDecision, stallDue, hl,
        refundOpensAt_eq, ok_bind, hw]
      exact ⟨_, rfl, by simp, rfl⟩
    | ok due =>
      simp only [bothLockedDecision, stallDue, hl,
        refundOpensAt_eq, ok_bind, hw]
      cases due <;> exact ⟨_, rfl, by simp, rfl⟩

/-- The shape of the Bitcoin decision. -/
theorem decideBtc_shape (hc : record.terms.counterChain = .btc) :
    ∃ f, decideBtc record obs policy n = .ok f ∧ f.reason ≠ "" ∧
      f.shape = if Racing record obs then raceShape true
        (gateOutcome record obs policy)
        else restShape record obs policy n := by
  have hrace : (obs.makerHasClaimedBtc = true ∨
      record.state = .secretRevealed) ↔
      Racing record obs := by
    simp [Racing, claimObserved, hc]
  have hv := counterVerdict_ok record obs policy
  simp only [counterVerdict, hc] at hv
  unfold decideBtc
  by_cases h : Racing record obs
  · rw [if_pos h, if_pos (hrace.mpr h)]
    simp only [gateOutcome, counterVerdict, hc]
    exact claimRace_shape (btcRaceTexts_filled obs) hv
  · rw [if_neg h, if_neg (hrace.not.mpr h)]
    unfold restShape
    cases hs : record.state with
    | bothLocked => exact bothLockedDecision_shape record obs policy
    | btcLocked =>
      refine ⟨_, rfl, ?_, ?_⟩
      · unfold btcLockedDecision
        split
        · simp
        · split <;> simp
      · unfold btcLockedDecision
        simp only [hc, true_and]
        by_cases hl : obs.assetLockedAtHeight = none
        · by_cases hm : btcRefundMatured record.terms obs = true <;>
            simp [hl, hm, DecisionFields.shape]
        · simp [hl, DecisionFields.shape]
    | paramsMismatch =>
      exact ⟨_, rfl, by simp, by simp [DecisionFields.shape, hc]⟩
    | _ =>
      exact ⟨_, rfl, by simp [vulnerableDecision, makerStallsDecision,
        noActionDecision], rfl⟩

/-- The shape of the Ethereum decision. -/
theorem decideEth_shape (hc : record.terms.counterChain = .eth) :
    ∃ f, decideEth record obs policy n = .ok f ∧ f.reason ≠ "" ∧
      f.shape = if Racing record obs then raceShape false
        (gateOutcome record obs policy)
        else restShape record obs policy n := by
  have hrace : (obs.ethClaimDetected = true ∨ record.state = .secretRevealed) ↔
      Racing record obs := by
    simp [Racing, claimObserved, hc]
  have hv := counterVerdict_ok record obs policy
  simp only [counterVerdict, hc] at hv
  unfold decideEth
  by_cases h : Racing record obs
  · rw [if_pos h, if_pos (hrace.mpr h)]
    simp only [gateOutcome, counterVerdict, hc]
    exact claimRace_shape ethRaceTexts_filled hv
  · rw [if_neg h, if_neg (hrace.not.mpr h)]
    unfold restShape
    cases hs : record.state with
    | bothLocked => exact bothLockedDecision_shape record obs policy
    | btcLocked =>
      exact ⟨_, rfl, by simp [noActionDecision], by simp [DecisionFields.shape,
        hc, noActionDecision]⟩
    | paramsMismatch =>
      exact ⟨_, rfl, by simp, by simp [DecisionFields.shape, hc]⟩
    | _ =>
      exact ⟨_, rfl, by simp [vulnerableDecision, makerStallsDecision,
        noActionDecision], rfl⟩

/-- So every decision has the shape computed for it. -/
theorem decideFields_shape (hn : 0 ≤ n) :
    ∃ f, decideFields record obs policy n = .ok f ∧ f.reason ≠ "" ∧
      f.shape = decideShape record obs policy n := by
  unfold decideFields decideShape
  rw [refuseIf_ok (u := ()) |>.mpr (not_lt.mpr hn), ok_bind]
  by_cases hterm : isTerminal record.state = true
  · simp only [hterm, if_true]
    exact ⟨_, rfl, by simp, rfl⟩
  · simp only [hterm]
    cases hc : record.terms.counterChain with
    | btc => simpa [hc] using decideBtc_shape record obs policy hc
    | eth => simpa [hc] using decideEth_shape record obs policy hc

/-- Every shape passes the constructor. -/
theorem decideShape_wellFormed :
    (decideShape record obs policy n).WellFormed := by
  unfold decideShape
  split
  · constructor <;> simp
  · split
    · cases gateOutcome record obs policy with
      | none => constructor <;> simp [raceShape]
      | some f => cases f <;> constructor <;> simp [raceShape]
    · exact (restShape_page record obs policy n).wellFormed

/-- **Refinement.** `decide` returns on every record and every observation, with
the shape `decideShape` says. -/
theorem decide_shape (hn : 0 ≤ n) :
    ∃ d, decide record obs policy n = .ok d ∧
    d.shape = decideShape record obs policy n := by
  obtain ⟨f, hf, hr, hs⟩ := decideFields_shape record obs policy hn
  have hvalid := DecisionFields.postInit_of_shape hr
    (hs ▸ decideShape_wellFormed record obs policy)
  refine ⟨⟨f, hvalid⟩, ?_, hs⟩
  rw [decide, hf, ok_bind]
  exact Decision.new_of_postInit hvalid

end Refinement

/-- A decision that was returned has the shape, and the window was
non-negative. -/
theorem shape_of_decide {record : SwapRecord} {obs : Observations}
    {policy : MarginPolicy} {n : Int}
    {d : Decision} (h : decide record obs policy n = .ok d) :
    0 ≤ n ∧ d.shape = decideShape record obs policy n := by
  by_cases hn : 0 ≤ n
  · obtain ⟨d', hd', hs⟩ := decide_shape record obs policy hn
    rw [h] at hd'
    cases hd'
    exact ⟨hn, hs⟩
  · rw [decide, decideFields, refuseIf, if_pos (not_le.mp hn)] at h
    cases h

end Pyrxd.Watch
