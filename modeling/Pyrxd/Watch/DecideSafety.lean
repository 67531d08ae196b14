import Pyrxd.Gravity.Steps
import Pyrxd.Watch.DecideSpec

/-!
# What the watchtower can tell the operator

Three questions about `decide`, for every record (stale or not) and every
combination of observations:

* can it fall silent once `p` is public (`decide_not_silent`)? No;
* does it name a step the coordinator would refuse (`decide_names_accepted_iff`)? Exactly
  when the gate's answer and the record's state are out of step;
* does it judge an FT or NFT swap by a value that is not that swap's
  (`decide_value_own_iff`)? Whenever the policy declares one that fits a window.
-/

namespace Pyrxd.Watch

open Pyrxd.Btc Pyrxd.Gravity

/-! ## The gate's answer -/

/-- `assess_claim_finality` was asked about these inputs, and answered `f`. -/
def GateSaid (record : SwapRecord) (obs : Observations) (policy : MarginPolicy)
    (f : ClaimFinality) :
    Prop :=
  ∃ v lock, counterVerdict record obs policy = some (.ok v) ∧
    obs.assetLockedAtHeight = some lock ∧
    assessClaimFinality v obs.nowRxdHeight lock record.terms.tRxd policy
      (valueAtRiskPhotons record.terms) = .ok f

/-- The gate's outcome is what the gate said. -/
theorem gateOutcome_some {record : SwapRecord} {obs : Observations}
    {policy : MarginPolicy}
    {f : ClaimFinality} : gateOutcome record obs policy = some f ↔
    GateSaid record obs policy f := by
  unfold gateOutcome raceOutcome GateSaid
  constructor
  · intro h
    split at h
    · next v lock hv hl =>
      split at h
      · next f' hf =>
        cases h
        exact ⟨v, lock, hv, hl, hf⟩
      · cases h
    · cases h
  · rintro ⟨v, lock, hv, hl, hf⟩
    rw [hv, hl]
    simp only [raceFinality, hf]

/-! ## Never silent -/

/-- `p` is known to be out. -/
def SecretKnown (record : SwapRecord) (obs : Observations) : Prop :=
  claimObserved record obs = true ∨ record.state = .secretRevealed ∨
    record.state = .assetVulnerable

/-- The taker's BTC refund has matured and nothing speaks against it. -/
structure RefundDue (record : SwapRecord) (obs : Observations) : Prop where
  btc : record.terms.counterChain = .btc
  state : record.state = .btcLocked ∨ record.state = .paramsMismatch
  blocks : record.terms.tBtc.unit = .blocks
  matured : ∃ m, obs.btcFundingConfirmations = some m ∧
    record.terms.tBtc.value ≤ m
  unclaimed : obs.makerHasClaimedBtc = false
  unlocked : record.state = .btcLocked → obs.assetLockedAtHeight = none

section Shapes

variable {record : SwapRecord} {obs : Observations}
  {policy : MarginPolicy} {n : Int}

/-- When the Bitcoin refund has matured. -/
theorem btcRefundMatured_iff {terms : NegotiatedTerms} :
    btcRefundMatured terms obs = true ↔
      terms.tBtc.unit = .blocks ∧ ∃ m, obs.btcFundingConfirmations = some m ∧
        terms.tBtc.value ≤ m := by
  unfold btcRefundMatured
  cases obs.btcFundingConfirmations <;> simp

/-- With `p` out, the tower watches only while the gate says WAIT. -/
theorem decideShape_secretKnown (hlive : isTerminal record.state = false)
    (hknown : SecretKnown record obs) :
    ((decideShape record obs policy n).intent = .watch →
      GateSaid record obs policy .wait) ∧
      ((decideShape record obs policy n).intent ≠ .watch →
        (decideShape record obs policy n).intent.isPage = true) := by
  unfold decideShape
  simp only [hlive, Bool.false_eq_true, if_false]
  by_cases hrace : Racing record obs
  · rw [if_pos hrace]
    cases ho : gateOutcome record obs policy with
    | none => simp [raceShape, Intent.isPage]
    | some f =>
      cases f with
      | wait => exact ⟨fun _ => gateOutcome_some.mp ho, fun h => absurd rfl h⟩
      | safe => simp [raceShape, Intent.isPage]
      | squeezed => simp [raceShape, Intent.isPage]
  · -- known to be out, but not racing: only the record itself says so
    have hstate : record.state = .assetVulnerable := by
      rcases hknown with h | h | h
      · exact absurd (.inl h) hrace
      · exact absurd (.inr h) hrace
      · exact h
    rw [if_neg hrace]
    simp [restShape, hstate, Intent.isPage]

/-- A claim is armed only on SAFE. -/
theorem decideShape_claim (h : (decideShape record obs policy n).claim = true) :
    record.terms.counterChain = .btc ∧ GateSaid record obs policy .safe := by
  unfold decideShape at h
  split at h
  · cases h
  · split at h
    · cases ho : gateOutcome record obs policy with
      | none => simp [ho, raceShape] at h
      | some f =>
        cases f with
        | safe =>
          exact ⟨by simpa [ho, raceShape] using h, gateOutcome_some.mp ho⟩
        | wait => simp [ho, raceShape] at h
        | squeezed => simp [ho, raceShape] at h
    · rw [(restShape_page record obs policy n).claim_false] at h
      cases h

/-- Before the reveal the refund executor is armed on a matured refund only. -/
theorem RestPage.refundDue {s : Shape} (h : RestPage record obs s)
    (hun : record.terms.counterChain = .btc → obs.makerHasClaimedBtc = false)
    (hs : s.refund = true) : RefundDue record obs := by
  cases h with
  | watch => cases hs
  | vulnerable => cases hs
  | stalls => cases hs
  | stallDue => cases hs
  | mismatch hst due hdue =>
    obtain ⟨hc, hm⟩ := hdue hs
    obtain ⟨hu, hd⟩ := btcRefundMatured_iff.mp hm
    exact ⟨hc, .inr hst, hu, hd, hun hc, fun hb => by rw [hst] at hb; cases hb⟩
  | neverLocked hst hc hl hm =>
    obtain ⟨hu, hd⟩ := btcRefundMatured_iff.mp hm
    exact ⟨hc, .inl hst, hu, hd, hun hc, fun _ => hl⟩

/-- A refund only when it is due. -/
theorem decideShape_refund
    (h : (decideShape record obs policy n).refund = true) :
    RefundDue record obs := by
  unfold decideShape at h
  split at h
  · cases h
  · split at h
    · cases ho : gateOutcome record obs policy with
      | none => simp [ho, raceShape] at h
      | some f => cases f <;> simp [ho, raceShape] at h
    · next hrace =>
      have hun : record.terms.counterChain = .btc →
          obs.makerHasClaimedBtc = false := by
        intro hc
        have : ¬ claimObserved record obs = true :=
          fun hobs => hrace (.inl hobs)
        simpa [claimObserved, hc] using this
      exact (restShape_page record obs policy n).refundDue hun h

end Shapes

/-- **Never silent.** `decide` returns on every input; with `p` out it watches
only while the gate says WAIT and pages otherwise; and the two flags are set
only where the gate, or the matured refund, is there to back them. -/
theorem decide_not_silent (record : SwapRecord) (obs : Observations)
    (policy : MarginPolicy)
    (safetyWindowBlocks : Int) (hn : 0 ≤ safetyWindowBlocks) :
    ∃ d, decide record obs policy safetyWindowBlocks = .ok d ∧
      (isTerminal record.state = false → SecretKnown record obs →
        (d.intent = .watch → GateSaid record obs policy .wait) ∧
          (d.intent ≠ .watch → d.intent.isPage = true)) ∧
      (d.autonomousAssetClaim = true →
        record.terms.counterChain = .btc ∧ GateSaid record obs policy .safe) ∧
      (d.autonomousBtcRefund = true → RefundDue record obs) := by
  obtain ⟨d, hd, hs⟩ := decide_shape record obs policy hn
  have hintent : d.intent =
      (decideShape record obs policy safetyWindowBlocks).intent :=
    DecisionFields.intent_of_shape hs
  have hclaim : d.autonomousAssetClaim =
      (decideShape record obs policy safetyWindowBlocks).claim :=
    DecisionFields.claim_of_shape hs
  have hrefund : d.autonomousBtcRefund =
      (decideShape record obs policy safetyWindowBlocks).refund :=
    DecisionFields.refund_of_shape hs
  refine ⟨d, hd, fun hlive hknown => ?_, fun h => ?_, fun h => ?_⟩
  · rw [hintent]
    exact decideShape_secretKnown hlive hknown
  · exact decideShape_claim (hclaim ▸ h)
  · exact decideShape_refund (hrefund ▸ h)

/-- The sample swap with the secret out. -/
def sampleRevealed : SwapRecord := sampleBtcRecord.withState .secretRevealed

/-- The maker's claim is six deep, the covenant one block old. -/
def sampleFinalClaim : Observations where
  makerHasClaimedBtc := true
  nowRxdHeight := 101
  assetLockedAtHeight := some 100
  btcClaimConfirmations := some 6

/-- At a revealed swap whose gate says SAFE. -/
theorem decide_not_silent_revealed :
    isTerminal sampleRevealed.state = false ∧
    SecretKnown sampleRevealed sampleFinalClaim ∧
    ∃ d, decide sampleRevealed sampleFinalClaim samplePolicy 6 = .ok d ∧
      ((d.intent = .watch →
        GateSaid sampleRevealed sampleFinalClaim samplePolicy .wait) ∧
        (d.intent ≠ .watch → d.intent.isPage = true)) := by
  have hknown : SecretKnown sampleRevealed sampleFinalClaim := .inr (.inl rfl)
  obtain ⟨d, hd, h, -⟩ :=
    decide_not_silent sampleRevealed sampleFinalClaim samplePolicy 6 (by decide)
  exact ⟨rfl, hknown, d, hd, h rfl hknown⟩

/-! ## Steps the coordinator accepts -/

/-- The first token of an action's text. -/
def firstToken (action : String) : List Char :=
  action.toList.takeWhile (· ≠ ' ')

/-- The coordinator step a recommended action names as its first token. -/
def Names (action : Option String) (step : Step) : Prop :=
  ∃ a, action = some a ∧ firstToken a = step.value.toList

/-- The step's guard accepts the record's state, or the one an observed claim
takes a BOTH_LOCKED record to. -/
def Accepts (record : SwapRecord) (obs : Observations) (step : Step) : Prop :=
  record.state ∈ step.validFrom ∨
    record.state = .bothLocked ∧ claimObserved record obs = true ∧
      .secretRevealed ∈ step.validFrom

/-- The states in which the page for a gate answer names a step that is
accepted. -/
def PageFits (state : SwapState) : Option ClaimFinality → Prop
  | some .wait => True
  | some .squeezed => state = .assetVulnerable
  | _ => state = .bothLocked ∨ state = .secretRevealed

/-- Steps are told apart by their names. -/
theorem step_value_injective {a b : Step}
    (h : a.value.toList = b.value.toList) : a = b := by
  cases a <;> cases b <;> first | rfl | (revert h; decide)

/-- A recommendation names at most one step. -/
theorem names_unique {a : String} {s s' : Step}
    (hs : firstToken a = s.value.toList) :
    Names (some a) s' ↔ s' = s := by
  constructor
  · rintro ⟨a', ha, hs'⟩
    cases ha
    exact step_value_injective (hs'.symm.trans hs)
  · rintro rfl
    exact ⟨a, rfl, hs⟩

/-- No recommendation names none. -/
theorem not_names_none {s : Step} : ¬ Names none s := by
  rintro ⟨a, ha, -⟩
  cases ha

theorem not_names_investigate {s : Step} :
    ¬ Names (some "investigate (mutual_refund is only valid from BOTH_LOCKED)")
      s := by
  rintro ⟨a, ha, hs⟩
  cases ha
  cases s <;> (revert hs; decide)

section Named

variable {record : SwapRecord} {obs : Observations}
  {policy : MarginPolicy} {n : Int}

/-- Before the reveal every named step is one the record's own state allows. -/
theorem RestPage.named {s : Shape} {step : Step} (hp : RestPage record obs s)
    (h : Names s.action step) : record.state ∈ step.validFrom := by
  cases hp with
  | watch => exact absurd h not_names_none
  | stalls hst => exact absurd h not_names_investigate
  | vulnerable hst =>
    rw [names_unique (s := .takerClaimAssetFromVulnerable) (by decide)] at h
    simp [h, hst, Step.validFrom]
  | mismatch hst due hdue =>
    rw [names_unique (s := .takerRefundBtc) (by decide)] at h
    simp [h, hst, Step.validFrom]
  | stallDue hst =>
    rw [names_unique (s := .mutualRefund) (by decide)] at h
    simp [h, hst, Step.validFrom]
  | neverLocked hst hchain hlock hdue =>
    rw [names_unique (s := .takerRefundBtc) (by decide)] at h
    simp [h, hst, Step.validFrom]

/-- In the claim race `taker_scrape_and_claim_asset` is accepted from
BOTH_LOCKED, where the claim must have been observed, and from
SECRET_REVEALED. -/
theorem accepts_scrape_iff (hrace : Racing record obs) :
    Accepts record obs .takerScrapeAndClaimAsset ↔
      record.state = .bothLocked ∨ record.state = .secretRevealed := by
  unfold Accepts
  simp only [Step.validFrom, List.mem_singleton, and_true]
  constructor
  · rintro (h | ⟨h, -⟩)
    · exact .inr h
    · exact .inl h
  · rintro (h | h)
    · refine .inr ⟨h, ?_⟩
      rcases hrace with hobs | hst
      · exact hobs
      · rw [h] at hst
        cases hst
    · exact .inl h

/-- The vulnerable claim is accepted in its state only. -/
theorem accepts_vulnerable_iff :
    Accepts record obs .takerClaimAssetFromVulnerable ↔
    record.state = .assetVulnerable := by
  unfold Accepts
  simp [Step.validFrom]

/-- In the race the named step is accepted when the page fits the state. -/
theorem raceShape_named_iff (hrace : Racing record obs) (arms : Bool)
    (o : Option ClaimFinality) :
    (∀ step, Names (raceShape arms o).action step → Accepts record obs step) ↔
      PageFits record.state o := by
  have scrape : ∀ a, firstToken a = Step.takerScrapeAndClaimAsset.value.toList →
      ((∀ step, Names (some a) step → Accepts record obs step) ↔
        record.state = .bothLocked ∨ record.state = .secretRevealed) := by
    intro a ha
    simp only [names_unique ha, forall_eq]
    exact accepts_scrape_iff hrace
  cases o with
  | none => exact scrape _ (by decide)
  | some f =>
    cases f with
    | safe => exact scrape _ (by decide)
    | wait => exact ⟨fun _ => trivial, fun _ step h => absurd h not_names_none⟩
    | squeezed =>
      simp only [raceShape, PageFits]
      simp only [names_unique (s := .takerClaimAssetFromVulnerable)
        (a :=
          "taker_claim_asset_from_vulnerable (winner-take-all) vs accept loss")
          (by decide),
        forall_eq]
      exact accepts_vulnerable_iff

end Named

/-- **Which pages name a step that is refused.** The named step is accepted on
every input, except in a claim race whose gate answer does not fit the record's
state. -/
theorem decide_names_accepted_iff (record : SwapRecord) (obs : Observations)
    (policy : MarginPolicy) (safetyWindowBlocks : Int) :
    (∀ d step, decide record obs policy safetyWindowBlocks = .ok d →
      Names d.recommendedAction step → Accepts record obs step) ↔
    safetyWindowBlocks < 0 ∨ isTerminal record.state = true ∨
    ¬ Racing record obs ∨
      PageFits record.state (gateOutcome record obs policy) := by
  -- a negative window is refused, and then there is nothing to recommend
  by_cases hn : 0 ≤ safetyWindowBlocks
  · obtain ⟨d, hd, hs⟩ := decide_shape record obs policy hn
    have haction : d.recommendedAction =
        (decideShape record obs policy safetyWindowBlocks).action :=
      DecisionFields.action_of_shape hs
    have hone : (∀ d step, decide record obs policy safetyWindowBlocks = .ok d →
        Names d.recommendedAction step → Accepts record obs step) ↔
        ∀ step,
          Names (decideShape record obs policy safetyWindowBlocks).action step →
          Accepts record obs step := by
      rw [← haction]
      constructor
      · exact fun h step => h d step hd
      · intro h d' step hd'
        rw [hd] at hd'
        cases hd'
        exact h step
    rw [hone]
    unfold decideShape
    by_cases hterm : isTerminal record.state = true
    · simp [hterm, not_names_none]
    · by_cases hrace : Racing record obs
      · simp only [hterm, hrace, Bool.false_eq_true, if_true, if_false,
          not_lt.mpr hn, not_true,
          false_or]
        exact raceShape_named_iff hrace _ _
      · simp only [hterm, hrace, if_false, not_false_iff, true_or,
          or_true, iff_true]
        exact fun step h =>
          .inl ((restShape_page record obs policy safetyWindowBlocks).named h)
  · simp only [not_le.mp hn, true_or, iff_true]
    intro d step hd
    exact absurd (shape_of_decide hd).1 hn

/-- The sample swap stopped at ASSET_VULNERABLE. -/
def sampleVulnerable : SwapRecord := sampleBtcRecord.withState .assetVulnerable

/-- A record in ASSET_VULNERABLE whose gate says SAFE is told to run the step
that is only valid from SECRET_REVEALED. -/
theorem decide_names_refused_step :
    gateOutcome sampleVulnerable sampleFinalClaim samplePolicy = some .safe ∧
    (∃ d, decide sampleVulnerable sampleFinalClaim samplePolicy 6 = .ok d ∧
      Names d.recommendedAction .takerScrapeAndClaimAsset) ∧
    ¬ Accepts sampleVulnerable sampleFinalClaim .takerScrapeAndClaimAsset := by
  have hgate : gateOutcome sampleVulnerable sampleFinalClaim samplePolicy =
      some .safe := by
    decide
  refine ⟨hgate, ?_, ?_⟩
  · obtain ⟨d, hd, hs⟩ :=
      decide_shape sampleVulnerable sampleFinalClaim samplePolicy
      (n := 6) (by decide)
    refine ⟨d, hd, "taker_scrape_and_claim_asset", ?_, by decide⟩
    rw [DecisionFields.action_of_shape hs]
    decide
  · unfold Accepts
    decide

/-! ## Whose value is at risk -/

section Value

variable {record : SwapRecord} {obs : Observations}
  {policy : MarginPolicy} {n : Int}

/-- When the owner is told to claim. -/
theorem decideShape_pageClaim_iff :
    (decideShape record obs policy n).intent = .pageClaim ↔
      isTerminal record.state = false ∧ Racing record obs ∧
        GateSaid record obs policy .safe := by
  unfold decideShape
  by_cases hterm : isTerminal record.state = true
  · simp [hterm]
  · by_cases hrace : Racing record obs
    · simp only [hterm, hrace, Bool.false_eq_true, if_true, if_false, true_and]
      rw [← gateOutcome_some]
      cases gateOutcome record obs policy with
      | none => simp [raceShape]
      | some f => cases f <;> simp [raceShape]
    · simp only [hterm, hrace, Bool.false_eq_true, if_false, false_and,
        and_false, iff_false]
      exact (restShape_page record obs policy n).not_pageClaim

/-- The gate says SAFE exactly when the burial it demands still fits. -/
theorem gateSaid_safe_iff :
    GateSaid record obs policy .safe ↔
      ∃ v lock, counterVerdict record obs policy = some (.ok v) ∧
        obs.assetLockedAtHeight = some lock ∧ lock ≤ obs.nowRxdHeight ∧
          v.state = .final ∧
        ¬ ValueBlind policy (valueAtRiskPhotons record.terms) ∧
        rxdBurial policy (valueAtRiskPhotons record.terms) ≤
          blocksLeft obs.nowRxdHeight lock record.terms.tRxd := by
  unfold GateSaid
  simp only [assessClaimFinality_safe_iff record.terms.sound.tRxd,
    Int.natCast_nonneg, true_and,
    Nat.cast_le]

/-- A block-tagged lock is at most 65535 blocks, so that is the longest window
there is. -/
theorem blocksLeft_le {now lock : Nat} (h : lock ≤ now)
    (terms : NegotiatedTerms) :
    blocksLeft now lock terms.tRxd ≤ 65535 := by
  have hfits := terms.tRxd.fits
  rw [terms.sound.tRxd] at hfits
  simp only [bip68Units, sequenceLocktimeMask] at hfits
  unfold blocksLeft
  omega

end Value

/-- Each swap is judged by its own value, or not certified. -/
structure JudgedByOwnValue (policy : MarginPolicy) : Prop where
  /-- An FT or NFT swap, whose value the tower cannot see, is never paged as
  claimable. -/
  tokens : ∀ record obs n d, record.terms.assetVariant ≠ .rxd →
    decide record obs policy n = .ok d → d.intent ≠ .pageClaim ∧
      d.autonomousAssetClaim = false
  /-- An RXD swap is, exactly when the burial for its own amount fits. -/
  rxd : ∀ record obs n d, record.terms.assetVariant = .rxd →
    decide record obs policy n = .ok d →
    (d.intent = .pageClaim ↔ isTerminal record.state = false ∧
      Racing record obs ∧
      ∃ v lock, counterVerdict record obs policy = some (.ok v) ∧
        obs.assetLockedAtHeight = some lock ∧ lock ≤ obs.nowRxdHeight ∧
          v.state = .final ∧
        max (reserveToBlocks policy.rxdClaimBurial policy.blockIntervalS)
            (valueScaledBurialBlocks policy (some record.terms.radiantAmount)) ≤
          blocksLeft obs.nowRxdHeight lock record.terms.tRxd)

/-- The RXD half holds under every policy. -/
theorem decide_rxd_burial {record : SwapRecord} {obs : Observations}
    {policy : MarginPolicy} {n : Int}
    {d : Decision} (hrxd : record.terms.assetVariant = .rxd)
    (hd : decide record obs policy n = .ok d) :
    d.intent = .pageClaim ↔ isTerminal record.state = false ∧
    Racing record obs ∧
      ∃ v lock, counterVerdict record obs policy = some (.ok v) ∧
        obs.assetLockedAtHeight = some lock ∧ lock ≤ obs.nowRxdHeight ∧
          v.state = .final ∧
        max (reserveToBlocks policy.rxdClaimBurial policy.blockIntervalS)
            (valueScaledBurialBlocks policy (some record.terms.radiantAmount)) ≤
          blocksLeft obs.nowRxdHeight lock record.terms.tRxd := by
  have hvalue : valueAtRiskPhotons record.terms =
      some record.terms.radiantAmount := by
    simp [valueAtRiskPhotons, hrxd]
  have hblind : ¬ ValueBlind policy (some record.terms.radiantAmount) := by
    simp [ValueBlind, effectiveValue]
  rw [DecisionFields.intent_of_shape (shape_of_decide hd).2,
    decideShape_pageClaim_iff,
    gateSaid_safe_iff, hvalue]
  simp only [hblind, not_false_iff, true_and]
  rfl

/-- An FT swap with the longest Radiant window there is. -/
def longFtTerms : NegotiatedTerms where
  hashlock := List.replicate 32 7
  btcSats := 100000
  radiantAmount := 5000
  tBtc := ⟨33553920, .seconds, by decide⟩
  tRxd := ⟨65535, .blocks, by decide⟩
  assetVariant := .ft
  genesisRef := List.replicate 36 9
  takerDestHash := List.replicate 32 1
  makerDestHash := List.replicate 32 2
  btcClaimPubkeyXonly := List.replicate 32 3
  btcRefundPubkeyXonly := List.replicate 32 4
  valueAmount := 100000
  valid := rfl

def longFtRecord : SwapRecord where
  state := .secretRevealed
  terms := longFtTerms
  valid := rfl

/-- A declared value that fits a window certifies a swap it says nothing
about. -/
theorem decide_pageClaim_token {policy : MarginPolicy}
    (hvalue : policy.valueAtRiskPhotons ≠ none)
    (hfits : rxdBurial policy none ≤ 65535) :
    ∃ obs d, decide longFtRecord obs policy 0 = .ok d ∧
    d.intent = .pageClaim := by
  -- a claim exactly as deep as asked, seen the moment the covenant confirms:
  -- nothing of the longest window is used up yet
  obtain ⟨depth, hdepth⟩ := requiredBtcDepthBlocks_ok policy
  let obs : Observations :=
    { makerHasClaimedBtc := true, nowRxdHeight := 0,
      assetLockedAtHeight := some 0,
      btcClaimConfirmations := some depth }
  obtain ⟨d, hd, hs⟩ := decide_shape longFtRecord obs policy (n := 0) le_rfl
  refine ⟨obs, d, hd, ?_⟩
  rw [DecisionFields.intent_of_shape hs, decideShape_pageClaim_iff,
    gateSaid_safe_iff]
  have hv : counterVerdict longFtRecord obs policy =
      some (.ok ⟨.final, some depth, some depth⟩) := by
    simp only [counterVerdict, longFtRecord, longFtTerms, btcVerdict, obs,
      Option.map_some, hdepth,
      ok_bind, Option.some.injEq]
    exact CounterClaimFinality.fromBtcDepth_ok.mpr
      ⟨Int.natCast_nonneg _, Int.natCast_nonneg _, by simp⟩
  refine ⟨rfl, .inl rfl, _, 0, hv, rfl, le_rfl, rfl, ?_, ?_⟩
  · rintro ⟨-, hnone⟩
    exact hvalue hnone
  · simpa [blocksLeft, longFtRecord, longFtTerms, valueAtRiskPhotons,
      obs] using hfits

/-- **Whose value.** With a reorg cost configured, the tower judges every swap
by its own value exactly when the policy declares no value of its own, or one so
large that its burial fits no window. -/
theorem decide_value_own_iff (policy : MarginPolicy)
    (hcost : policy.rxdReorgCostPerBlock ≠ none) :
    JudgedByOwnValue policy ↔ policy.valueAtRiskPhotons = none ∨
    65535 < rxdBurial policy none := by
  constructor
  · intro h
    by_contra hnot
    push Not at hnot
    obtain ⟨obs, d, hd, hclaim⟩ := decide_pageClaim_token hnot.1 hnot.2
    exact (h.tokens longFtRecord obs 0 d (by decide) hd).1 hclaim
  · intro hcond
    refine ⟨fun record obs n d htoken hd => ?_,
      fun record obs n d hrxd hd => decide_rxd_burial hrxd hd⟩
    have hs := (shape_of_decide hd).2
    have hnone : valueAtRiskPhotons record.terms =
        none := by simp [valueAtRiskPhotons, htoken]
    have hpage : (decideShape record obs policy n).intent ≠ .pageClaim := by
      rw [ne_eq, decideShape_pageClaim_iff, gateSaid_safe_iff, hnone]
      rintro ⟨-, -, v, lock, -, -, hle, -, hblind, hfit⟩
      rcases hcond with h | h
      · -- no value at all: the gate is squeezed before it looks at the heights
        exact hblind ⟨hcost, h⟩
      · have := blocksLeft_le hle record.terms
        omega
    refine ⟨?_, ?_⟩
    · rw [DecisionFields.intent_of_shape hs]
      exact hpage
    · rw [DecisionFields.claim_of_shape hs]
      by_contra hclaim
      exact hpage ((decideShape_wellFormed record obs policy).claim
        (by simpa using hclaim))

/-- The sample policy with value-scaling configured, and no declared value. -/
def scalingPolicy : MarginPolicy :=
  { samplePolicy with rxdReorgCostPerBlock := some 100, valid := by decide }

/-- The same with one operator's declared value of 500 photons. -/
def declaringPolicy : MarginPolicy :=
  { samplePolicy with
    rxdReorgCostPerBlock := some 100, valueAtRiskPhotons := some 500, valid := by decide }

/-- At a policy that declares no value. -/
theorem decide_value_own_scaling : JudgedByOwnValue scalingPolicy :=
  (decide_value_own_iff scalingPolicy (by decide)).mpr (.inl rfl)

/-- Under a policy that declares a value, an FT swap is paged as claimable and
the executor is armed. -/
theorem decide_claims_token_swap :
    declaringPolicy.rxdReorgCostPerBlock ≠ none ∧
    longFtRecord.terms.assetVariant = .ft ∧
    ∃ d, decide longFtRecord sampleFinalClaim declaringPolicy 6 = .ok d ∧
      d.intent = .pageClaim ∧ d.autonomousAssetClaim = true := by
  obtain ⟨d, hd, hs⟩ :=
    decide_shape longFtRecord sampleFinalClaim declaringPolicy
    (n := 6) (by decide)
  refine ⟨by decide, rfl, d, hd, ?_, ?_⟩
  · rw [DecisionFields.intent_of_shape hs]
    decide +kernel
  · rw [DecisionFields.claim_of_shape hs]
    decide +kernel

end Pyrxd.Watch
