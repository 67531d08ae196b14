import Pyrxd.Gravity.StepRules

/-!
# What no order of steps can make the coordinator do

`Safe` monitors one step call event by event: which assignments of the record it
may make, and in which situation it may hand `p` to a leg. Every one of the nine
bodies meets it from *any* record, whatever the collaborators answer or raise
(`body_safe`), so every call in every sequence of calls does (`runCalls_obeys`).
The statement about runs, `coordinator_run_safe`, is that reading of the trace.

The evidence is taken from the trace of the same call: SAFE means that the gate,
fed with the answer the leg gave in this call and with this call's heights,
returns SAFE.
-/

namespace Pyrxd.Gravity

open Pyrxd.Lib Pyrxd.Lib.Prog Pyrxd.Btc

/-! ## The monitor -/

/-- The finality source of `chain` answered in `pre`, and `v` is the verdict
read off the answer. -/
def VerdictRead (c : Coordinator) (chain : CounterChain) (tx : PyObj)
    (pre : List StepEvent)
    (v : CounterClaimFinality) : Prop :=
  match chain with
  | .btc => ∃ s a, .call s (.confirmationsOfClaim tx) (.ok a) ∈ pre ∧
      btcClaimVerdict c.policy a = .ok v
  | .eth =>
    ∃ s a, .call s (.claimFinalityVerdict tx) (.ok a) ∈ pre ∧
      ethClaimVerdict a = .ok v

/-- `assess_claim_finality` returned SAFE in this call. -/
def GateSafe (c : Coordinator) (call : StepCall) (pre : List StepEvent)
    (s : SwapRecord) : Prop :=
  ∃ tx now lock v, call = .takerScrapeAndClaimAsset tx now lock ∧
    VerdictRead c s.terms.counterChain tx pre v ∧
    assessClaimFinality v now lock s.terms.tRxd c.policy = .ok .safe

/-- The observed covenant script of this call equalled the one the Radiant leg
re-derived from the record's terms. -/
def CovenantMatched (call : StepCall) (pre : List StepEvent)
    (s : SwapRecord) : Prop :=
  ∃ arg now observed s' answer, call = .postAssetLockRevalidate arg now ∧
    arg.toBytes = .ok observed ∧
    .call s' (.expectedCovenantScriptpubkey s.terms) (.ok answer) ∈ pre ∧
    answer.toBytes = .ok observed

/-- Past NEGOTIATED the record carries a counter-leg locator. -/
def Lockful (s : SwapRecord) : Prop := s.state ≠ .negotiated →
  s.counterchainLocator ≠ none

/-- A counter-funding verification answered `None`. -/
def BlankVerify (pre : List StepEvent) : Prop :=
  ∃ s addr terms block, .call s (.verifyCounterpartyFunded addr terms block)
    (.ok .none) ∈ pre

/-- What a step may do next, after `pre` of the same call. -/
def Safe (c : Coordinator) (call : StepCall) (pre : List StepEvent) :
    StepEvent → Prop
  | .write s s' =>
    s'.terms = s.terms ∧ (s'.state = s.state ∨ Edge s.state s'.state) ∧
      (s'.state = .bothLocked → s.state ≠ .bothLocked →
        CovenantMatched call pre s) ∧
      (Lockful s → Lockful s' ∨ BlankVerify pre)
  | .call s (.claimAsset r p) _ =>
    r = s ∧ sha256 p = s.terms.hashlock ∧
      (s.state = .assetVulnerable ∨ s.state = .secretRevealed ∧
        GateSafe c call pre s)
  | .call s (.claim l p) _ =>
    s.state = .bothLocked ∧ s.counterchainLocator = some l ∧
      sha256 p = s.terms.hashlock
  | .call _ (.fund terms) _ => ∃ now, call = .takerFundsBtc terms now
  | .call _ _ _ => True

/-- No postcondition. -/
def Anyhow {α : Type} : Except PyErr α → SwapRecord → List StepEvent → Prop :=
  fun _ _ _ => True

section Steps

variable {c : Coordinator} {call : StepCall} {s : SwapRecord}
  {t : List StepEvent}

/-- Calls that neither write nor broadcast are safe as they are. -/
theorem safe_permits : Permits (Safe c call) := by
  intro s t op r h
  cases op <;> trivial

/-- Assignments that keep state, terms and locator. -/
theorem safe_write_same {s' : SwapRecord} (hst : s'.state = s.state)
    (htm : s'.terms = s.terms)
    (hl : s'.counterchainLocator = s.counterchainLocator) :
    Safe c call t (.write s s') := by
  refine ⟨htm, .inl hst, fun h1 h2 => absurd (hst ▸ h1) h2, fun h => .inl ?_⟩
  unfold Lockful at *
  rwa [hst, hl]

/-- Only one event leads into BOTH_LOCKED. -/
theorem target_ne_bothLocked {s d : SwapState} {ev : SwapEvent}
    (h : (s, ev, d) ∈ transitionTable) (hev : ev ≠ .makerLocksAsset) :
    d ≠ .bothLocked := by
  have : ∀ e ∈ transitionTable, e.2.1 ≠ .makerLocksAsset →
      e.2.2 ≠ .bothLocked := by decide
  exact this _ h hev

/-- An advance along the table, anywhere but into BOTH_LOCKED. -/
theorem safe_advance {d : SwapState} {ev : SwapEvent}
    (h : (s.state, ev, d) ∈ transitionTable)
    (hev : ev ≠ .makerLocksAsset)
    (hl : s.state ≠ .negotiated ∨ s.counterchainLocator ≠ none) :
    Safe c call t (.write s (s.withState d)) := by
  refine ⟨rfl, .inr ⟨ev, h⟩, fun hd => absurd hd (target_ne_bothLocked h hev),
    fun hs => .inl ?_⟩
  intro _
  rcases hl with hl | hl
  · exact hs hl
  · exact hl

/-- Attaching a locator, or the `None` of a blank verification. -/
theorem safe_counterLock {s' : SwapRecord} {l : Option Locator}
    (h : s.withCounterLock l = .ok s')
    (hl : l ≠ none ∨ BlankVerify t) : Safe c call t (.write s s') := by
  obtain ⟨hst, htm, hloc⟩ := SwapRecord.withCounterLock_ok h
  refine ⟨htm, .inl hst, fun h1 h2 => absurd (hst ▸ h1) h2, fun _ => ?_⟩
  rcases hl with hl | hl
  · left
    intro _
    rw [hloc]
    exact hl
  · exact .inr hl

/-- A locator taken from a verification is a locator, or the answer was
`None`. -/
theorem counterLock_source {answer : PyObj} {l : Option Locator}
    (h : asLocator answer = .ok l)
    {pre : List StepEvent} {s : SwapRecord} {addr : PyObj}
    {terms : NegotiatedTerms}
    {block : Option String}
    (hmem : .call s (.verifyCounterpartyFunded addr terms block)
      (.ok answer) ∈ pre) :
    l ≠ none ∨ BlankVerify pre := by
  cases answer with
  | none => exact .inr ⟨s, addr, terms, block, hmem⟩
  | locator l' =>
    simp only [asLocator, Except.ok.injEq] at h
    exact .inl (by simp [← h])
  | _ => simp [asLocator, invalid] at h

/-- Moving along the table and persisting is safe. -/
theorem advance_then_return_safe {ev : SwapEvent} (hev : ev ≠ .makerLocksAsset)
    (hl : s.state ≠ .negotiated ∨ s.counterchainLocator ≠ none) :
    Meets (Safe c call) Anyhow
      (do advanceRecord ev; persistAndReturn c) s t := by
  rw [meets_bind]
  refine advanceRecord_meets (fun d hd => ⟨safe_advance hd hev hl, ?_⟩)
    fun _ => trivial
  exact (persistAndReturn_quiet safe_permits).meets fun _ _ _ => trivial

/-- Into BOTH_LOCKED, on a matched covenant. -/
theorem lockAsset_safe (hmatch : CovenantMatched call t s)
    (hst : s.state = .btcLocked) :
    Meets (Safe c call) Anyhow
      (do advanceRecord .makerLocksAsset; persistAndReturn c) s t := by
  rw [meets_bind]
  refine advanceRecord_meets (fun d hd => ⟨?_, ?_⟩) fun _ => trivial
  · refine ⟨rfl, .inr ⟨_, hd⟩, fun _ _ => hmatch, fun hs => .inl ?_⟩
    intro _
    exact hs (by simp [hst])
  · exact (persistAndReturn_quiet safe_permits).meets fun _ _ _ => trivial

/-! ## The nine bodies -/

/-- Reserving, funding and checking the amount locks value once and keeps the
record. -/
theorem fundAndBind_safe {terms : NegotiatedTerms} {now : Option Int}
    (hcall : call = .takerFundsBtc terms now)
    {Q : Except PyErr Locator → SwapRecord → List StepEvent → Prop}
    (hok : ∀ l t', Q (.ok l) s t') (herr : ∀ e t', Q (.error e) s t') :
    Meets (Safe c call) Q (fundAndBind terms) s t := by
  unfold fundAndBind
  rw [meets_bind, meets_invoke]
  intro r
  refine ⟨⟨now, hcall⟩, ?_⟩
  cases r with
  | error e => exact herr e _
  | ok answer =>
    cases answer with
    | locator l =>
      refine (invoke_quiet safe_permits rfl).meets_bind (fun funded t' _ => ?_)
        fun e t' _ => herr e t'
      rw [meets_bind]
      exact refuseIf_meets (fun _ => hok l _) fun e => herr e _
    | _ => exact herr _ _

theorem takerFundsBtc_safe (terms : NegotiatedTerms) (now : Option Int)
    (hcall : call = .takerFundsBtc terms now) :
    Meets (Safe c call) Anyhow (takerFundsBtc c terms now) s t := by
  unfold takerFundsBtc
  rw [meets_bind]
  refine guardState_meets (fun _ => ?_) fun _ => trivial
  -- up to the funding nothing is assigned and nothing guarded is called
  refine (preBtcLockCheck_quiet safe_permits terms now).meets_bind
    (fun gate t1 _ => ?_)
    fun _ _ _ => trivial
  rw [meets_bind]
  refine refuseIf_meets (fun _ => ?_) fun _ => trivial
  refine (persistRecord_quiet safe_permits false).meets_bind (fun _ t2 _ => ?_)
    fun _ _ _ => trivial
  refine (reserveHashlock_quiet safe_permits terms).meets_bind
    (fun _ t3 _ => ?_)
    fun _ _ _ => trivial
  rw [meets_bind]
  refine fundAndBind_safe hcall (fun l t4 => ?_) fun _ _ => trivial
  dsimp only
  rw [meets_bind]
  refine recordCounterLock_meets (fun l' s' hl hs' => ?_) fun _ => trivial
  have hl' : l' = some l := by
    simp only [asLocator, Except.ok.injEq] at hl
    exact hl.symm
  refine ⟨safe_counterLock hs' (.inl (by simp [hl'])), ?_⟩
  refine advance_then_return_safe (by decide) (.inr ?_)
  rw [(SwapRecord.withCounterLock_ok hs').2.2, hl']
  simp

theorem unverifiableCovenant_safe {observed : Bytes} {e : PyErr}
    (hst : s.state ∈ Step.postAssetLockRevalidate.validFrom)
    {Q : Except PyErr PyObj → SwapRecord → List StepEvent → Prop}
    (herr : ∀ e s' t', Q (.error e) s' t') :
    Meets (Safe c call) Q (unverifiableCovenant c observed e) s t := by
  have hst : s.state = .btcLocked := by simpa [Step.validFrom] using hst
  unfold unverifiableCovenant
  rw [meets_bind]
  refine recordRadiantLock_meets (fun o s' hs' => ?_) fun e => herr e _ _
  obtain ⟨h1, h2, h3⟩ := SwapRecord.withRadiantLock_ok hs'
  refine ⟨safe_write_same h1 h2 h3, ?_⟩
  dsimp only
  rw [meets_bind]
  refine advanceRecord_meets (fun d hd =>
    ⟨safe_advance hd (by decide) (.inl ?_), ?_⟩) fun e => herr e _ _
  · simp [h1, hst]
  · exact persistAndRefuse_meets safe_permits fun e t' => herr e _ t'

/-- Re-verification re-binds the locator and leaves state and terms. -/
theorem reverifyCounterFunding_safe {locator : Eth.EthHtlcLocator}
    {now : Option Int}
    {Q : Except PyErr Unit → SwapRecord → List StepEvent → Prop}
    (hok : ∀ s' t', t <+: t' → s'.state = s.state → s'.terms = s.terms →
      Q (.ok ()) s' t')
    (herr : ∀ e s' t', Q (.error e) s' t') :
    Meets (Safe c call) Q (reverifyCounterFunding c locator now) s t := by
  unfold reverifyCounterFunding
  rw [meets_bind, meets_read]
  dsimp only
  refine meets_invoke_bind (fun _ => trivial) (fun answer => ?_)
    fun e t' => herr e _ t'
  rw [meets_bind]
  refine recordCounterLock_meets (fun l s' hl hs' => ?_) fun e => herr e _ _
  have hblank : l ≠ none ∨ BlankVerify (t ++ [.call s (.verifyCounterpartyFunded
      (.str locator.contractAddress) s.terms (verifyBlockId c))
        (.ok answer)]) :=
    counterLock_source hl (List.mem_append_right _ (List.mem_singleton.mpr rfl))
  refine ⟨safe_counterLock hs' hblank, ?_⟩
  obtain ⟨h1, h2, -⟩ := SwapRecord.withCounterLock_ok hs'
  dsimp only
  rw [meets_lift]
  cases assertEthLockTimingStillSafe c s.terms now with
  | ok _ => exact hok _ _ (by simp) h1 h2
  | error e => exact herr e _ _

theorem assertEthCounterFundingVerified_safe {now : Option Int}
    {Q : Except PyErr Unit → SwapRecord → List StepEvent → Prop}
    (hok : ∀ s' t', t <+: t' → s'.state = s.state → s'.terms = s.terms →
      Q (.ok ()) s' t')
    (herr : ∀ e s' t', Q (.error e) s' t') :
    Meets (Safe c call) Q (assertEthCounterFundingVerified c now) s t := by
  unfold assertEthCounterFundingVerified
  rw [meets_bind, meets_read]
  dsimp only
  split
  · rw [meets_ite]
    refine ⟨fun _ => persistAndRefuse_meets safe_permits fun e t' =>
      herr e _ t', fun _ => ?_⟩
    refine catchValidation_meets
      (reverifyCounterFunding_safe hok fun e s' t' => ?_)
    exact ⟨fun m => persistAndRefuse_meets safe_permits fun e t' =>
      herr e _ t', herr e s' t'⟩
  · exact persistAndRefuse_meets safe_permits fun e t' => herr e _ t'

theorem postAssetLockRevalidate_safe (arg : PyObj) (now : Option Int)
    (hcall : call = .postAssetLockRevalidate arg now) :
    Meets (Safe c call) Anyhow (postAssetLockRevalidate c arg now) s t := by
  unfold postAssetLockRevalidate
  rw [meets_bind]
  refine guardState_meets (fun hst => ?_) fun _ => trivial
  have hstate : s.state = .btcLocked := by simpa [Step.validFrom] using hst
  refine meets_lift_bind (fun observed hobs => ?_) fun _ => trivial
  unfold Method.catchException
  rw [meets_bind, meets_tryCatch, meets_invoke]
  intro r
  refine ⟨trivial, ?_⟩
  cases r with
  | error e =>
    cases e with
    | base m => trivial
    | validation m => exact unverifiableCovenant_safe hst fun _ _ _ => trivial
    | other m => exact unverifiableCovenant_safe hst fun _ _ _ => trivial
  | ok expected =>
    refine (invoke_quiet safe_permits rfl).meets_bind (fun outpoint t1 h1 => ?_)
      fun _ _ _ => trivial
    rw [meets_bind]
    refine recordRadiantLock_meets (fun o s1 hs1 => ?_) fun _ => trivial
    obtain ⟨e1, e2, e3⟩ := SwapRecord.withRadiantLock_ok hs1
    have hstate1 : s1.state = .btcLocked := e1.trans hstate
    refine ⟨safe_write_same e1 e2 e3, ?_⟩
    refine meets_lift_bind (fun expectedSpk hexp => ?_) fun _ => trivial
    rw [meets_ite]
    refine ⟨fun _ => ?_, fun hne => ?_⟩
    · exact advance_then_return_safe (by decide) (.inl (by simp [hstate1]))
    · -- the scripts agree: the only way into BOTH_LOCKED
      have hmatch : ∀ s2 t2, t1 <+: t2 → s2.terms = s.terms →
          CovenantMatched call t2 s2 := by
        intro s2 t2 ht2 htm
        refine ⟨arg, now, observed, s, expected, hcall, hobs, ?_, ?_⟩
        · rw [htm]
          exact (h1.trans ht2).subset (by simp)
        · rw [hexp, not_not.mp hne]
      rw [meets_ite]
      refine ⟨fun _ => ?_, fun _ => ?_⟩
      · -- ETH: the re-verification may re-bind the locator, but not state or terms
        rw [meets_bind]
        refine assertEthCounterFundingVerified_safe (fun s2 t2 ht2 h2 h3 => ?_)
          fun _ _ _ => trivial
        have ht1 : t1 <+: t2 := (List.prefix_append _ _).trans ht2
        exact lockAsset_safe (hmatch s2 t2 ht1 (h3.trans e2)) (h2.trans hstate1)
      · exact lockAsset_safe (hmatch _ _ (List.prefix_append _ _) e2) hstate1

theorem makerVerifyCounterFunding_safe (addr : PyObj) :
    Meets (Safe c call) Anyhow (makerVerifyCounterFunding c addr) s t := by
  unfold makerVerifyCounterFunding
  rw [meets_bind, meets_read]
  dsimp only
  rw [meets_bind]
  refine refuseIf_meets (fun _ => ?_) fun _ => trivial
  dsimp only
  rw [meets_bind]
  refine refuseIf_meets (fun _ => ?_) fun _ => trivial
  refine meets_invoke_bind (fun _ => trivial) (fun answer => ?_)
    fun _ _ => trivial
  rw [meets_bind]
  refine recordCounterLock_meets (fun l s' hl hs' => ?_) fun _ => trivial
  refine ⟨safe_counterLock hs'
    (counterLock_source hl
      (List.mem_append_right _ (List.mem_singleton.mpr rfl))), ?_⟩
  exact (persistAndReturn_quiet safe_permits).meets fun _ _ _ => trivial

theorem makerClaimsBtc_safe (preimage : Option SecretBytes) :
    Meets (Safe c call) Anyhow (makerClaimsBtc c preimage) s t := by
  unfold makerClaimsBtc
  rw [meets_bind]
  refine guardState_meets (fun hst => ?_) fun _ => trivial
  have hstate : s.state = .bothLocked := by simpa [Step.validFrom] using hst
  dsimp only
  cases preimage with
  | none => trivial
  | some secret =>
    dsimp only
    split
    · trivial
    · next locator hloc =>
      refine meets_lift_bind (fun raw _ => ?_) fun _ => trivial
      rw [meets_bind]
      refine refuseIf_meets (fun hsha => ?_) fun _ => trivial
      dsimp only
      rw [meets_bind, meets_ensure, meets_invoke]
      intro r
      refine ⟨⟨hstate, hloc, not_not.mp hsha⟩, ?_⟩
      -- `p` is wiped on both ways out of the claim
      refine (invoke_quiet safe_permits rfl).meets_bind (fun _ t' _ => ?_)
        fun _ _ _ => trivial
      cases r with
      | error e => trivial
      | ok _ =>
        exact advance_then_return_safe (by decide) (.inl (by simp [hstate]))

/-- Claiming the asset is allowed where the gate said SAFE or the state is
already ASSET_VULNERABLE. -/
theorem claimAssetAndComplete_safe {p : Bytes}
    (hp : sha256 p = s.terms.hashlock)
    (hg : s.state = .assetVulnerable ∨ s.state = .secretRevealed ∧
      GateSafe c call t s) :
    Meets (Safe c call) Anyhow (claimAssetAndComplete c p) s t := by
  unfold claimAssetAndComplete
  rw [meets_bind, meets_read]
  dsimp only
  refine meets_invoke_bind (fun _ => ⟨rfl, hp, hg⟩) (fun _ => ?_)
    fun _ _ => trivial
  refine advance_then_return_safe (by decide) (.inl ?_)
  rcases hg with h | ⟨h, -⟩ <;> simp [h]

/-- Acting on the gate's answer is safe when SAFE was safe. -/
theorem actOnFinality_safe {p : Bytes} {f : ClaimFinality}
    (hp : sha256 p = s.terms.hashlock)
    (hst : s.state = .secretRevealed) (hg : f = .safe → GateSafe c call t s) :
    Meets (Safe c call) Anyhow (actOnFinality c f p) s t := by
  cases f with
  | wait => trivial
  | squeezed =>
    exact advance_then_return_safe (by decide) (.inl (by simp [hst]))
  | safe => exact claimAssetAndComplete_safe hp (.inr ⟨hst, hg rfl⟩)

/-- The taker's claim behind Bitcoin is safe. -/
theorem takerScrapeAndClaimBtc_safe {tx : PyObj} {now lock : Int}
    (hcall : call = .takerScrapeAndClaimAsset tx now lock)
    (hchain : s.terms.counterChain = .btc) :
    Meets (Safe c call) Anyhow (takerScrapeAndClaimBtc c tx now lock) s t := by
  unfold takerScrapeAndClaimBtc
  rw [meets_bind]
  refine guardState_meets (fun hst => ?_) fun _ => trivial
  have hstate : s.state = .secretRevealed := by simpa [Step.validFrom] using hst
  dsimp only
  rw [meets_bind]
  refine scrapePreimage_meets safe_permits (fun p t1 _ hp => ?_)
    fun _ _ _ => trivial
  refine meets_lift_bind (fun _ _ => ?_) fun _ => trivial
  refine meets_invoke_bind (fun _ => trivial) (fun confs => ?_)
    fun _ _ => trivial
  refine meets_lift_bind (fun v hv => ?_) fun _ => trivial
  refine meets_lift_bind (fun f hf => ?_) fun _ => trivial
  -- the answer is the last event of the trace, so the verdict is this call's
  -- own
  refine actOnFinality_safe hp hstate fun hsafe => ⟨tx, now, lock, v, hcall,
    ?_, hsafe ▸ hf⟩
  rw [hchain]
  exact ⟨s, confs, by simp, hv⟩

theorem takerScrapeAndClaimEth_safe {tx : PyObj} {now lock : Int}
    (hcall : call = .takerScrapeAndClaimAsset tx now lock)
    (hchain : s.terms.counterChain = .eth) :
    Meets (Safe c call) Anyhow (takerScrapeAndClaimEth c tx now lock) s t := by
  unfold takerScrapeAndClaimEth
  rw [meets_bind]
  refine guardState_meets (fun hst => ?_) fun _ => trivial
  have hstate : s.state = .secretRevealed := by simpa [Step.validFrom] using hst
  refine meets_lift_bind (fun locator _ => ?_) fun _ => trivial
  rw [meets_bind]
  refine scrapeEthPreimage_meets safe_permits (fun p t1 _ hp => ?_)
    fun _ _ _ => trivial
  refine meets_invoke_bind (fun _ => trivial) (fun answer => ?_)
    fun _ _ => trivial
  refine meets_lift_bind (fun v hv => ?_) fun _ => trivial
  refine meets_lift_bind (fun f hf => ?_) fun _ => trivial
  refine actOnFinality_safe hp hstate fun hsafe => ⟨tx, now, lock, v, hcall,
    ?_, hsafe ▸ hf⟩
  rw [hchain]
  exact ⟨s, answer, by simp, hv⟩

/-- So the taker's claim is, whichever chain it is. -/
theorem takerScrapeAndClaimAsset_safe (tx : PyObj) (now lock : Int)
    (hcall : call = .takerScrapeAndClaimAsset tx now lock) :
    Meets (Safe c call) Anyhow
      (takerScrapeAndClaimAsset c tx now lock) s t := by
  unfold takerScrapeAndClaimAsset
  rw [meets_bind, meets_read]
  dsimp only
  split
  · next h => exact takerScrapeAndClaimBtc_safe hcall h
  · next h => exact takerScrapeAndClaimEth_safe hcall h

theorem takerClaimAssetFromVulnerable_safe (tx : PyObj) :
    Meets (Safe c call) Anyhow (takerClaimAssetFromVulnerable c tx) s t := by
  unfold takerClaimAssetFromVulnerable
  rw [meets_bind]
  refine guardState_meets (fun hst => ?_) fun _ => trivial
  have hstate : s.state =
      .assetVulnerable := by simpa [Step.validFrom] using hst
  dsimp only
  split
  · rw [meets_bind]
    refine scrapePreimage_meets safe_permits (fun p t1 _ hp => ?_)
      fun _ _ _ => trivial
    refine meets_lift_bind (fun _ _ => ?_) fun _ => trivial
    exact claimAssetAndComplete_safe hp (.inl hstate)
  · refine meets_lift_bind (fun locator _ => ?_) fun _ => trivial
    rw [meets_bind]
    refine scrapeEthPreimage_meets safe_permits (fun p t1 _ hp => ?_)
      fun _ _ _ => trivial
    exact claimAssetAndComplete_safe hp (.inl hstate)

theorem maybeRefundAssetOnMakerStall_safe (now lock : Int) (claimed : Bool) :
    Meets (Safe c call) Anyhow
      (maybeRefundAssetOnMakerStall c now lock claimed) s t := by
  unfold maybeRefundAssetOnMakerStall
  rw [meets_bind]
  refine guardState_meets (fun hst => ?_) fun _ => trivial
  have hstate : s.state = .bothLocked := by simpa [Step.validFrom] using hst
  refine meets_lift_bind (fun trigger _ => ?_) fun _ => trivial
  rw [meets_ite]
  refine ⟨fun _ => ?_, fun _ => trivial⟩
  refine (invoke_quiet safe_permits rfl).meets_bind (fun _ t1 _ => ?_)
    fun _ _ _ => trivial
  -- two edges: BOTH_LOCKED → MAKER_STALLS → ASSET_REFUNDED_TAKER_ACTS
  rw [meets_bind]
  refine advanceRecord_meets (fun d hd =>
    ⟨safe_advance hd (by decide) (.inl (by simp [hstate])), ?_⟩)
    fun _ => trivial
  have hd : d = .makerStalls := by
    have := transitionTable_functional _ hd (.bothLocked,
      .makerStallDetected, .makerStalls)
      (by decide) hstate rfl
    simpa using congrArg (·.2.2) this
  exact advance_then_return_safe (by decide) (.inl (by simp [hd]))

theorem takerRefundBtc_safe :
    Meets (Safe c call) Anyhow (takerRefundBtc c) s t := by
  unfold takerRefundBtc
  rw [meets_bind]
  refine guardState_meets (fun hst => ?_) fun _ => trivial
  have hstate : s.state ≠ .negotiated := by
    intro h
    simp [Step.validFrom, h] at hst
  dsimp only
  split
  · trivial
  · refine (invoke_quiet safe_permits rfl).meets_bind (fun _ t1 _ => ?_)
      fun _ _ _ => trivial
    refine advance_then_return_safe ?_ (.inl hstate)
    split <;> decide

theorem mutualRefund_safe :
    Meets (Safe c call) Anyhow (mutualRefund c) s t := by
  unfold mutualRefund
  rw [meets_bind]
  refine guardState_meets (fun hst => ?_) fun _ => trivial
  have hstate : s.state = .bothLocked := by simpa [Step.validFrom] using hst
  dsimp only
  split
  · trivial
  · refine (invoke_quiet safe_permits rfl).meets_bind (fun _ t1 _ => ?_)
      fun _ _ _ => trivial
    refine (invoke_quiet safe_permits rfl).meets_bind (fun _ t2 _ => ?_)
      fun _ _ _ => trivial
    exact advance_then_return_safe (by decide) (.inl (by simp [hstate]))

/-- Every body is safe from every record. -/
theorem body_safe (call : StepCall) :
    Meets (Safe c call) Anyhow (call.body c) s t := by
  cases call with
  | takerFundsBtc terms now => exact takerFundsBtc_safe terms now rfl
  | postAssetLockRevalidate spk now =>
    exact postAssetLockRevalidate_safe spk now rfl
  | makerVerifyCounterFunding addr => exact makerVerifyCounterFunding_safe addr
  | makerClaimsBtc p => exact makerClaimsBtc_safe p
  | takerScrapeAndClaimAsset tx now lock =>
    exact takerScrapeAndClaimAsset_safe tx now lock rfl
  | takerClaimAssetFromVulnerable tx =>
    exact takerClaimAssetFromVulnerable_safe tx
  | maybeRefundAssetOnMakerStall now lock claimed =>
    exact maybeRefundAssetOnMakerStall_safe now lock claimed
  | takerRefundBtc => exact takerRefundBtc_safe
  | mutualRefund => exact mutualRefund_safe

end Steps

/-! ## Sequences of calls -/

/-- Terms are fixed and the state moves along edges. -/
def Moves (a b : SwapRecord) : Prop :=
  b.terms = a.terms ∧ (b.state = a.state ∨ Edge a.state b.state)

theorem moves_terms {a b : SwapRecord} (h : Relation.ReflTransGen Moves a b) :
    b.terms = a.terms := by
  induction h with
  | refl => rfl
  | tail _ hm ih => exact hm.1.trans ih

/-- Moves follow the table's edges. -/
theorem moves_edges {a b : SwapRecord} (h : Relation.ReflTransGen Moves a b) :
    Relation.ReflTransGen Edge a.state b.state := by
  induction h with
  | refl => exact .refl
  | tail _ hm ih =>
    rcases hm.2 with he | he
    · rwa [he]
    · exact ih.tail he

/-- One step of a run: a call of the sequence is a run of its body. -/
theorem runCalls_run {c : Coordinator} {env : Env} :
    ∀ {calls : List StepCall} {r : SwapRecord}
      {history : List StepEvent} {d : Done},
      d ∈ runCalls c env calls r history →
      ∃ env', d.run = (d.call.body c).run env' d.start [] := by
  intro calls
  induction calls with
  | nil => intro r history d hd; cases hd
  | cons call calls ih =>
    intro r history d hd
    rcases List.mem_cons.mp hd with rfl | hd
    · exact ⟨_, rfl⟩
    · exact ih hd

/-- Every call of every sequence obeys the monitor. -/
theorem runCalls_obeys {c : Coordinator} {env : Env} {calls : List StepCall}
    {r : SwapRecord}
    {history : List StepEvent} {d : Done}
    (hd : d ∈ runCalls c env calls r history) :
    Obeys (Safe c d.call) d.run.trace := by
  obtain ⟨env', hrun⟩ := runCalls_run hd
  rw [hrun]
  exact (run_meets env' _ d.start [] (obeys_nil _) (body_safe d.call)).1

/-- What a call writes continues what the calls before it wrote. -/
theorem runCalls_writes {c : Coordinator} {env : Env} {calls : List StepCall}
    {r : SwapRecord}
    {history : List StepEvent} {d : Done}
    (hd : d ∈ runCalls c env calls r history)
    {a b : SwapRecord} (h : .write a b ∈ d.run.trace) :
    ∃ pre, pre ⊆ d.run.trace ∧ Safe c d.call pre (.write a b) := by
  obtain ⟨pre, post, hsplit⟩ := List.append_of_mem h
  refine ⟨pre, ?_, runCalls_obeys hd pre _ post hsplit⟩
  rw [hsplit]
  exact List.subset_append_left _ _

/-- A relation that every assignment of every call keeps holds from the first
record to each call's start and on to its end. -/
theorem runCalls_reaches {c : Coordinator} {env : Env}
    {R : SwapRecord → SwapRecord → Prop} :
    ∀ {calls : List StepCall} {r : SwapRecord} {history : List StepEvent},
      (∀ d ∈ runCalls c env calls r history, ∀ a b, .write a b ∈
        d.run.trace → R a b) →
      ∀ d ∈ runCalls c env calls r history,
        Relation.ReflTransGen R r d.start ∧
          Relation.ReflTransGen R d.start d.run.state := by
  intro calls
  induction calls with
  | nil => intro r history _ d hd; cases hd
  | cons call calls ih =>
    intro r history h d hd
    have hfirst := run_reaches _ (call.body c) r [] (h _ List.mem_cons_self)
    rcases List.mem_cons.mp hd with rfl | hd
    · exact ⟨.refl, hfirst⟩
    · obtain ⟨h1, h2⟩ :=
        ih (fun d' hd' => h d' (List.mem_cons_of_mem _ hd')) d hd
      exact ⟨hfirst.trans h1, h2⟩

theorem runCalls_moves {c : Coordinator} {env : Env} {calls : List StepCall}
    {r : SwapRecord}
    {history : List StepEvent} {d : Done}
    (hd : d ∈ runCalls c env calls r history)
    {a b : SwapRecord} (h : .write a b ∈ d.run.trace) : Moves a b := by
  obtain ⟨pre, -, hs⟩ := runCalls_writes hd h
  exact ⟨hs.1, hs.2.1⟩

/-- What holds of one call `d` of a run that began on `r`. -/
structure SafeCall (c : Coordinator) (r : SwapRecord) (d : Done) : Prop where
  /-- The state the call found, and the one it left, are reached along edges. -/
  reached : Relation.ReflTransGen Edge r.state d.start.state ∧
    Relation.ReflTransGen Edge d.start.state d.run.state.state
  /-- Each change of state is an edge, and none leaves a terminal state. -/
  edge : ∀ s s', .write s s' ∈ d.run.trace → s'.state ≠ s.state →
    Edge s.state s'.state ∧ isTerminal s.state = false
  /-- `claim_asset` gets a preimage of the negotiated hashlock, and only after
  SAFE in the same call, or in ASSET_VULNERABLE. -/
  claimAsset : ∀ pre s r' p a post, d.run.trace =
    pre ++ .call s (.claimAsset r' p) a :: post →
    r' = s ∧ s.terms = r.terms ∧ sha256 p = s.terms.hashlock ∧
      (s.state = .assetVulnerable ∨ s.state = .secretRevealed ∧
        GateSafe c d.call pre s)
  /-- `claim` gets a preimage of the negotiated hashlock, and only in
  BOTH_LOCKED. -/
  claim : ∀ pre s l p a post, d.run.trace =
    pre ++ .call s (.claim l p) a :: post →
    s.terms = r.terms ∧ s.state = .bothLocked ∧ sha256 p = s.terms.hashlock
  /-- BOTH_LOCKED is entered only on a covenant re-derived from the record's
  terms. -/
  bothLocked : ∀ pre s s' post, d.run.trace = pre ++ .write s s' :: post →
    s'.state = .bothLocked → s.state ≠ .bothLocked →
      s.terms = r.terms ∧ CovenantMatched d.call pre s

/-- Every call of every sequence is safe. -/
theorem runCalls_safe {c : Coordinator} {env : Env} {calls : List StepCall}
    {r : SwapRecord}
    {history : List StepEvent} {d : Done}
    (hd : d ∈ runCalls c env calls r history) :
    SafeCall c r d := by
  have hobeys := runCalls_obeys hd
  have hreach := runCalls_reaches (R := Moves)
    (fun d' hd' a b h => runCalls_moves hd' h) d hd
  -- terms are never assigned, so the record at any event still has the first
  -- ones
  have hterms : ∀ e ∈ d.run.trace, e.field.terms = r.terms := by
    obtain ⟨env', hrun⟩ := runCalls_run hd
    intro e he
    rw [hrun] at he
    have hw : ∀ a b, .write a b ∈ ((d.call.body c).run env' d.start []).trace →
        Moves a b := by
      intro a b h
      rw [← hrun] at h
      exact runCalls_moves hd h
    rcases run_event_reaches env' _ d.start [] hw e he with hn | hr
    · cases hn
    · exact moves_terms (hreach.1.trans hr)
  have hmid : ∀ {pre : List StepEvent} {e post}, d.run.trace =
      pre ++ e :: post →
      e.field.terms = r.terms := by
    intro pre e post h
    exact hterms e (by rw [h]; simp)
  refine ⟨⟨moves_edges hreach.1, moves_edges hreach.2⟩, ?_, ?_, ?_, ?_⟩
  · intro s s' h hne
    rcases (runCalls_moves hd h).2 with he | he
    · exact absurd he hne
    · exact ⟨he, terminal_no_edge he⟩
  · intro pre s r' p a post h
    obtain ⟨h1, h2, h3⟩ := hobeys pre _ post h
    exact ⟨h1, hmid h, h2, h3⟩
  · intro pre s l p a post h
    obtain ⟨h1, -, h3⟩ := hobeys pre _ post h
    exact ⟨hmid h, h1, h3⟩
  · intro pre s s' post h hs' hs
    exact ⟨hmid h, (hobeys pre _ post h).2.2.1 hs' hs⟩

/-- As long as no counter-funding verification answers `None`, the locator is
there from the first lock on. -/
theorem runCalls_lockful {c : Coordinator} {env : Env} {calls : List StepCall}
    {r : SwapRecord}
    {history : List StepEvent} (hr : Lockful r)
    (hb : ∀ d ∈ runCalls c env calls r history, ¬ BlankVerify d.run.trace)
    {d : Done}
    (hd : d ∈ runCalls c env calls r history) : Lockful d.run.state := by
  have hkeep : ∀ d ∈ runCalls c env calls r history, ∀ a b,
      .write a b ∈ d.run.trace →
      (Lockful a → Lockful b) := by
    intro d hd a b h ha
    obtain ⟨pre, hpre, hs⟩ := runCalls_writes hd h
    rcases hs.2.2.2 ha with hl | ⟨s, addr, terms, block, hmem⟩
    · exact hl
    · exact absurd ⟨s, addr, terms, block, hpre hmem⟩ (hb d hd)
  obtain ⟨h1, h2⟩ := runCalls_reaches hkeep d hd
  -- along the assignments to the call's start, then along its own
  have through : ∀ {a b : SwapRecord},
      Relation.ReflTransGen (fun a b => Lockful a → Lockful b) a b → Lockful a →
        Lockful b := by
    intro a b h ha
    induction h with
    | refl => exact ha
    | tail _ hm ih => exact hm ih
  exact through h2 (through h1 hr)

/-- **Coordinator safety.** From a fresh record, for every sequence of step
calls and every collaborator: each call is safe; and, where no counter-funding
verification ever answered `None`, every record left behind past NEGOTIATED
carries the locator of its own counter chain. -/
theorem coordinator_run_safe (c : Coordinator) (env : Env)
    (calls : List StepCall)
    (r : SwapRecord) (hstate : r.state = .negotiated) :
    (∀ d ∈ runCalls c env calls r [], SafeCall c r d) ∧
    ((∀ d ∈ runCalls c env calls r [], ¬ BlankVerify d.run.trace) →
      ∀ d ∈ runCalls c env calls r [], d.run.state.state ≠ .negotiated →
        ∃ l, d.run.state.counterchainLocator = some l ∧
          l.chain = r.terms.counterChain) := by
  refine ⟨fun d hd => runCalls_safe hd, fun hb d hd hne => ?_⟩
  have hfresh : Lockful r := fun h => absurd hstate h
  have hsome := runCalls_lockful hfresh hb hd hne
  obtain ⟨l, hl⟩ := Option.ne_none_iff_exists'.mp hsome
  have hreach := runCalls_reaches (R := Moves)
    (fun d' hd' a b h => runCalls_moves hd' h) d hd
  refine ⟨l, hl, ?_⟩
  rw [d.run.state.locator_chain hl, moves_terms (hreach.1.trans hreach.2)]

/-- At a BTC swap that is funded and then refunded. -/
theorem coordinator_run_safe_refund :
    (runCalls sampleCoordinator sampleEnv [.takerFundsBtc sampleBtcTerms none,
      .takerRefundBtc]
      sampleBtcRecord []).map (fun d => d.run.state.state) =
        [.btcLocked, .aborted] ∧
    ∀ d ∈ runCalls sampleCoordinator sampleEnv
        [.takerFundsBtc sampleBtcTerms none,
          .takerRefundBtc] sampleBtcRecord [],
      SafeCall sampleCoordinator sampleBtcRecord d :=
  ⟨by decide, (coordinator_run_safe sampleCoordinator sampleEnv
    [.takerFundsBtc sampleBtcTerms none,
      .takerRefundBtc] sampleBtcRecord rfl).1⟩

end Pyrxd.Gravity
