import Pyrxd.Gravity.BitcoinLeg
import Pyrxd.Gravity.FundedRecord

/-!
# After a funding that was broadcast and then failed

`fund` of the Bitcoin leg broadcasts before it reads the amount back, and
`taker_funds_btc` has reserved the hashlock before that. When the reading fails,
the record is still in NEGOTIATED without a locator, every other step refuses,
and the one step that could fund finds the hashlock reserved. The main theorem,
`funding_never_recovered`: no sequence of calls gets the locator of that HTLC
back onto the record.
-/

namespace Pyrxd.Gravity

open Pyrxd.Lib Pyrxd.Lib.Prog Pyrxd.Btc

/-! ## The store along a trace -/

/-- The calls to the seen-store on a trace are answered by it; other clients may
come in between. -/
inductive Served : DurableSeenStore → List StepEvent →
    DurableSeenStore → Prop where
  | nil (st : DurableSeenStore) : Served st [] st
  | write {st st' : DurableSeenStore} {t : List StepEvent} (a b : SwapRecord)
      (h : Served st t st') :
      Served st (.write a b :: t) st'
  | call {st st' st'' : DurableSeenStore} {t : List StepEvent} (s : SwapRecord)
      {op : Op} {r : Except PyErr PyObj} (hserve : st.Serves op r st')
      (h : Served st' t st'') : Served st (.call s op r :: t) st''
  | outside {st st' st'' : DurableSeenStore} {t : List StepEvent}
      (hdrift : st.Outlives st') (h : Served st' t st'') : Served st t st''

/-- Serving a trace is serving its parts. -/
theorem Served.append {st st' : DurableSeenStore} {t u : List StepEvent}
    (h : Served st (t ++ u) st') :
    ∃ mid, Served st t mid ∧ Served mid u st' := by
  generalize htu : t ++ u = v at h
  induction h generalizing t with
  | nil st =>
    obtain ⟨rfl, rfl⟩ := List.append_eq_nil_iff.mp htu
    exact ⟨st, .nil st, .nil st⟩
  | @write st st' v' a b h ih =>
    cases t with
    | nil =>
      exact ⟨st, .nil st, by rw [show u = _ from htu]; exact .write a b h⟩
    | cons e t =>
      obtain ⟨rfl, rest⟩ := List.cons.inj htu
      obtain ⟨mid, h1, h2⟩ := ih rest
      exact ⟨mid, .write a b h1, h2⟩
  | @call st st' st'' v' s op r hserve h ih =>
    cases t with
    | nil =>
      exact ⟨st, .nil st, by rw [show u = _ from htu]; exact .call s hserve h⟩
    | cons e t =>
      obtain ⟨rfl, rest⟩ := List.cons.inj htu
      obtain ⟨mid, h1, h2⟩ := ih rest
      exact ⟨mid, .call s hserve h1, h2⟩
  | outside hdrift h ih =>
    obtain ⟨mid, h1, h2⟩ := ih htu
    exact ⟨mid, .outside hdrift h1, h2⟩

/-- A hashlock that is in the store stays there, and is not granted again. -/
theorem Served.taken {st st' : DurableSeenStore} {t : List StepEvent}
    {h : Bytes} (hs : Served st t st')
    (hmem : h ∈ st.rows) :
    h ∈ st'.rows ∧ ∀ s op r, .call s op r ∈ t →
    DurableSeenStore.granted op r ≠ some h := by
  induction hs with
  | nil st => exact ⟨hmem, fun _ _ _ hc => by cases hc⟩
  | write a b hs ih =>
    obtain ⟨h1, h2⟩ := ih hmem
    refine ⟨h1, fun s op r hc => ?_⟩
    rcases List.mem_cons.mp hc with hc | hc
    · cases hc
    · exact h2 s op r hc
  | call s hserve hs ih =>
    obtain ⟨h1, h2⟩ := ih (DurableSeenStore.grants.keeps hserve hmem)
    refine ⟨h1, fun s' op r hc => ?_⟩
    rcases List.mem_cons.mp hc with hc | hc
    · cases hc
      exact fun hgrant => (DurableSeenStore.grants.fresh hserve hgrant).1 hmem
    · exact h2 s' op r hc
  | outside hdrift hs ih =>
    exact ih (DurableSeenStore.grants.keepsOutside hdrift hmem)

/-- What was granted is in the store. -/
theorem Served.granted {st st' : DurableSeenStore} {t : List StepEvent}
    {h : Bytes} (hs : Served st t st')
    {s : SwapRecord} {op : Op} {r : Except PyErr PyObj} (hc : .call s op r ∈ t)
    (hgrant : DurableSeenStore.granted op r = some h) : h ∈ st'.rows := by
  induction hs with
  | nil st => cases hc
  | write a b hs ih =>
    rcases List.mem_cons.mp hc with hc | hc
    · cases hc
    · exact ih hc
  | call s' hserve hs ih =>
    rcases List.mem_cons.mp hc with hc | hc
    · cases hc
      exact (hs.taken (DurableSeenStore.grants.fresh hserve hgrant).2).1
    · exact ih hc
  | outside hdrift hs ih => exact ih hc

/-! ## Steps that are not the funding -/

/-- An assignment that keeps the locator and does not lead back to
NEGOTIATED. -/
def KeepsLocator (_pre : List StepEvent) : StepEvent → Prop
  | .write s s' =>
    s'.counterchainLocator = s.counterchainLocator ∧
      (s'.state = .negotiated → s.state = .negotiated)
  | .call _ _ _ => True

section Keeps

variable {c : Coordinator} {s : SwapRecord} {t : List StepEvent}

/-- Calls that write nothing keep the locator. -/
theorem keeps_permits : Permits KeepsLocator := fun _ _ _ _ _ => trivial

/-- No edge leads to NEGOTIATED. -/
theorem target_ne_negotiated {s d : SwapState} {ev : SwapEvent}
    (h : (s, ev, d) ∈ transitionTable) :
    d ≠ .negotiated := by
  have : ∀ e ∈ transitionTable, e.2.2 ≠ .negotiated := by decide
  exact this _ h

theorem advanceRecord_keeps {ev : SwapEvent}
    {Q : Except PyErr Unit → SwapRecord → List StepEvent → Prop}
    (hQ : ∀ r s t, Q r s t) : Meets KeepsLocator Q (advanceRecord ev) s t :=
  advanceRecord_meets (fun _ hd => ⟨⟨rfl,
    fun h => absurd h (target_ne_negotiated hd)⟩, hQ _ _ _⟩) fun _ => hQ _ _ _

theorem recordRadiantLock_keeps {outpoint : PyObj} {observed : Bytes}
    {Q : Except PyErr Unit → SwapRecord → List StepEvent → Prop}
    (hQ : ∀ r s t, Q r s t) :
    Meets KeepsLocator Q (recordRadiantLock outpoint observed) s t := by
  refine recordRadiantLock_meets (fun o s' hs' => ?_) fun _ => hQ _ _ _
  obtain ⟨hst, -, hloc⟩ := SwapRecord.withRadiantLock_ok hs'
  exact ⟨⟨hloc, fun h => hst ▸ h⟩, hQ _ _ _⟩

/-- A body that keeps the locator wherever it starts. -/
def Keeping {α : Type} (p : Method α) : Prop :=
  ∀ s t, Meets KeepsLocator (fun _ _ _ => True) p s t

theorem Keeping.of_quiet {α : Type} {p : Method α}
    (h : Quiet KeepsLocator p) : Keeping p :=
  fun _ _ => h.meets fun _ _ _ => trivial

/-- Two that keep, keep together. -/
theorem Keeping.bind {α β : Type} {p : Method α} {f : α → Method β}
    (hp : Keeping p) (hf : ∀ a, Keeping (f a)) : Keeping (p >>= f) := by
  intro s t
  rw [meets_bind]
  refine meets_mono (fun r s' t' _ => ?_) p (hp s t)
  cases r with
  | ok a => exact hf a s' t'
  | error e => trivial

/-- A branch keeps when both sides do. -/
theorem Keeping.ite {α : Type} {cond : Prop} [Decidable cond] {p q : Method α}
    (hp : Keeping p) (hq : Keeping q) : Keeping (if cond then p else q) := by
  split
  · exact hp
  · exact hq

theorem Keeping.tryCatch {α : Type} {p : Method α} {handler : PyErr → Method α}
    (hp : Keeping p)
    (hh : ∀ e, Keeping (handler e)) : Keeping (p.tryCatch handler) := by
  intro s t
  rw [meets_tryCatch]
  refine meets_mono (fun r s' t' _ => ?_) p (hp s t)
  cases r with
  | ok a => trivial
  | error e => exact hh e s' t'

theorem Keeping.lift {α : Type} (x : Except PyErr α) :
    Keeping (Prog.lift x : Method α) := .of_quiet (quiet_lift x)

theorem Keeping.read : Keeping (Prog.read : Method SwapRecord) :=
  .of_quiet quiet_read

theorem Keeping.refuse {α : Type} (msg : String) :
    Keeping (Method.refuse msg : Method α) := .of_quiet (refuse_quiet msg)

theorem Keeping.refuseIf (cond : Prop) [Decidable cond] (msg : String) :
    Keeping (Method.refuseIf cond msg) :=
  .of_quiet (refuseIf_quiet cond msg)

theorem Keeping.invoke (op : Op) : Keeping (Prog.invoke op : Method PyObj) :=
  .of_quiet (quiet_invoke fun _ _ _ => trivial)

theorem Keeping.advance (ev : SwapEvent) : Keeping (advanceRecord ev) :=
  fun _ _ => advanceRecord_keeps fun _ _ _ => trivial

theorem Keeping.radiantLock (outpoint : PyObj) (observed : Bytes) :
    Keeping (recordRadiantLock outpoint observed) :=
  fun _ _ => recordRadiantLock_keeps fun _ _ _ => trivial

theorem Keeping.persistAndReturn : Keeping (Gravity.persistAndReturn c) :=
  .of_quiet (persistAndReturn_quiet keeps_permits)

theorem Keeping.persistAndRefuse {α : Type} (msg : String) :
    Keeping (Gravity.persistAndRefuse c msg : Method α) :=
  .bind (.of_quiet (persistRecord_quiet keeps_permits true))
    fun _ => .refuse msg

theorem Keeping.guard (step : Step) : Keeping (guardState step) :=
  .bind .read fun _ => .bind (.refuseIf _ _) fun _ => .of_quiet (quiet_pure _)

/-- Scraping the preimage keeps. -/
theorem Keeping.scrape (tx : PyObj) : Keeping (scrapePreimage tx) :=
  .bind .read fun _ => .bind (.invoke _) fun _ => .bind (.lift _) fun _ =>
      .bind (.refuseIf _ _) fun _ =>
    .of_quiet (quiet_pure _)

theorem Keeping.scrapeEth (l : Eth.EthHtlcLocator) (tx : PyObj) :
    Keeping (scrapeEthPreimage l tx) :=
  .bind (.invoke _) fun _ => .bind (.scrape _) fun _ =>
    .bind (.invoke _) fun _ => .of_quiet (quiet_pure _)

theorem Keeping.claimAsset (p : Bytes) : Keeping (claimAssetAndComplete c p) :=
  .bind .read fun _ => .bind (.invoke _) fun _ => .bind (.advance _) fun _ =>
    .persistAndReturn

theorem Keeping.finality (f : ClaimFinality) (p : Bytes) :
    Keeping (actOnFinality c f p) := by
  cases f with
  | wait => exact .read
  | squeezed => exact .bind (.advance _) fun _ => .persistAndReturn
  | safe => exact .claimAsset p

/-- Without `verify_counterparty_funded` the ETH check only refuses. -/
theorem Keeping.ethFunding (hplain : c.hasVerifyCounterpartyFunded = false)
    (now : Option Int) :
    Keeping (assertEthCounterFundingVerified c now) := by
  refine .bind .read fun record => ?_
  split
  · rw [if_pos hplain]
    exact .persistAndRefuse _
  · exact .persistAndRefuse _

/-- The unverifiable branch keeps. -/
theorem Keeping.unverifiable (observed : Bytes) (e : PyErr) :
    Keeping (unverifiableCovenant c observed e) :=
  .bind (.radiantLock _ _) fun _ => .bind (.advance _) fun _ =>
    .persistAndRefuse _

theorem Keeping.revalidate (hplain : c.hasVerifyCounterpartyFunded = false)
    (spk : PyObj) (now : Option Int) :
    Keeping (postAssetLockRevalidate c spk now) := by
  refine .bind (.guard _) fun record => .bind (.lift _) fun observed =>
      .bind ?_ fun expected =>
    .bind (.invoke _) fun outpoint => .bind (.radiantLock _ _) fun _ =>
      .bind (.lift _) fun expectedSpk => ?_
  · refine .tryCatch (.invoke _) fun e => ?_
    cases e with
    | validation m => exact .unverifiable _ _
    | other m => exact .unverifiable _ _
    | base m => exact .of_quiet (quiet_raise _)
  · refine .ite (.bind (.advance _) fun _ => .persistAndReturn) ?_
    refine .ite ?_ (.bind (.advance _) fun _ => .persistAndReturn)
    exact .bind (.ethFunding hplain now) fun _ => .bind (.advance _) fun _ =>
      .persistAndReturn

theorem Keeping.claimsBtc (preimage : Option SecretBytes) :
    Keeping (makerClaimsBtc c preimage) := by
  refine .bind (.guard _) fun record => ?_
  cases preimage with
  | none => exact .refuse _
  | some secret =>
    dsimp only
    split
    · exact .refuse _
    · refine .bind (.lift _) fun raw => .bind (.refuseIf _ _) fun _ =>
          .bind ?_ fun _ => .bind (.advance _) fun _ =>
        .persistAndReturn
      have hwipe : Keeping (do let _ ← Prog.invoke .zeroize : Method Unit) :=
        .bind (.invoke _) fun _ => .of_quiet (quiet_pure _)
      exact .bind (.tryCatch (.invoke _) fun e => .bind hwipe fun _ =>
          .of_quiet (quiet_raise _)) fun a =>
        .bind hwipe fun _ => .of_quiet (quiet_pure _)

theorem Keeping.scrapeAndClaim (tx : PyObj) (now lock : Int) :
    Keeping (takerScrapeAndClaimAsset c tx now lock) := by
  refine .bind .read fun record => ?_
  split
  · exact .bind (.guard _) fun _ => .bind (.scrape _) fun _ =>
        .bind (.lift _) fun _ => .bind (.invoke _) fun _ =>
      .bind (.lift _) fun _ => .bind (.lift _) fun _ => .finality _ _
  · exact .bind (.guard _) fun _ => .bind (.lift _) fun _ =>
        .bind (.scrapeEth _ _) fun _ => .bind (.invoke _) fun _ =>
      .bind (.lift _) fun _ => .bind (.lift _) fun _ => .finality _ _

theorem Keeping.claimFromVulnerable (tx : PyObj) :
    Keeping (takerClaimAssetFromVulnerable c tx) := by
  refine .bind (.guard _) fun record => ?_
  split
  · exact .bind (.scrape _) fun _ => .bind (.lift _) fun _ => .claimAsset _
  · exact .bind (.lift _) fun _ => .bind (.scrapeEth _ _) fun _ => .claimAsset _

theorem Keeping.refundBtc : Keeping (takerRefundBtc c) := by
  refine .bind (.guard _) fun record => ?_
  split
  · exact .refuse _
  · exact .bind (.invoke _) fun _ => .bind (.advance _) fun _ =>
      .persistAndReturn

theorem Keeping.mutual : Keeping (mutualRefund c) := by
  refine .bind (.guard _) fun record => ?_
  split
  · exact .refuse _
  · exact .bind (.invoke _) fun _ => .bind (.invoke _) fun _ =>
      .bind (.advance _) fun _ => .persistAndReturn

/-- **Only the funding gives a record another locator**, where counter-funding
is not verified. -/
theorem body_keeps (hplain : c.hasVerifyCounterpartyFunded = false)
    {call : StepCall}
    (hcall : ∀ terms now, call ≠ .takerFundsBtc terms now) :
    Keeping (call.body c) := by
  cases call with
  | takerFundsBtc terms now => exact absurd rfl (hcall terms now)
  | postAssetLockRevalidate spk now => exact .revalidate hplain spk now
  | makerVerifyCounterFunding addr =>
    refine .bind .read fun _ => .bind (.refuseIf _ _) fun _ => ?_
    intro s t
    unfold Method.refuseIf Pyrxd.refuseIf
    rw [meets_bind, meets_lift, if_pos hplain]
    trivial
  | makerClaimsBtc p => exact .claimsBtc p
  | takerScrapeAndClaimAsset tx now lock => exact .scrapeAndClaim tx now lock
  | takerClaimAssetFromVulnerable tx => exact .claimFromVulnerable tx
  | maybeRefundAssetOnMakerStall now lock claimed =>
    refine .bind (.guard _) fun _ => .bind (.lift _) fun _ => .ite ?_ .read
    exact .bind (.invoke _) fun _ => .bind (.advance _) fun _ =>
      .bind (.advance _) fun _ => .persistAndReturn
  | takerRefundBtc => exact .refundBtc
  | mutualRefund => exact .mutual

/-- What such a step leaves of the record. -/
theorem kept_of_keeping {p : Method SwapRecord} (hp : Keeping p) (env : Env)
    (s : SwapRecord) :
    (p.run env s []).state.counterchainLocator = s.counterchainLocator ∧
      ((p.run env s []).state.state = .negotiated → s.state = .negotiated) := by
  have hobeys := (run_meets env p s [] (obeys_nil _) (hp s [])).1
  have hreach := run_reaches env p s []
      (R := fun a b => b.counterchainLocator = a.counterchainLocator ∧
    (b.state = .negotiated → a.state = .negotiated)) fun a b h => by
      obtain ⟨pre, post, hsplit⟩ := List.append_of_mem h
      exact hobeys pre _ post hsplit
  generalize (p.run env s []).state = out at hreach ⊢
  induction hreach with
  | refl => exact ⟨rfl, fun h => h⟩
  | tail _ h ih => exact ⟨h.1.trans ih.1, fun hn => ih.2 (h.2 hn)⟩

end Keeps

/-! ## Calls one after another -/

/-- The record and the history after a sequence of calls, each started where the
last one ended. -/
def afterCalls (c : Coordinator) (env : Env) : List StepCall → SwapRecord →
    List StepEvent → SwapRecord × List StepEvent
  | [], record, history => (record, history)
  | step :: calls, record, history =>
    let out := (step.body c).run (fun t op => env (history ++ t) op) record []
    afterCalls c env calls out.state (history ++ out.trace)

/-- A record with which a swap starts. -/
def Fresh (record : SwapRecord) : Prop := record.state = .negotiated ∧
  record.counterchainLocator = none

/-- The run of a last `taker_funds_btc`, after `history`. -/
def fundingRun (c : Coordinator) (env : Env) (terms : NegotiatedTerms)
    (now : Option Int) (before : SwapRecord) (history : List StepEvent) :
    Run Op PyObj SwapRecord PyErr SwapRecord :=
  (takerFundsBtc c terms now).run (fun t op => env (history ++ t) op) before []

/-- The situation of the taker: in a run from a fresh record, whose last call is
a `taker_funds_btc`, the network accepted the funding transaction; then `fund`
raised, or the process stopped and came back with the intent record that the
call had persisted. -/
def Lost (c : Coordinator) (leg : BitcoinTaprootLeg) (st : DurableSeenStore)
    (record : SwapRecord)
    (terms : NegotiatedTerms) : Prop :=
  ∃ (env : Env) (w : leg.Wired env) (calls : List StepCall) (now : Option Int)
    (record₀ : SwapRecord)
    (st₀ : DurableSeenStore) (before : SwapRecord)
      (history pre : List StepEvent) (s : SwapRecord)
    (r : Except PyErr PyObj),
    Fresh record₀ ∧ afterCalls c env calls record₀ [] = (before, history) ∧
    Served st₀ (history ++
      (fundingRun c env terms now before history).trace) st ∧
    pre ++ [.call s (.fund terms) r] <+:
      (fundingRun c env terms now before history).trace ∧
    leg.Broadcast (w.patience (history ++ pre))
      (w.chain (history ++ pre)) terms ∧
    ((∃ e, r = .error e) ∧
      record = (fundingRun c env terms now before history).state ∨
      record = before ∧ ∃ s' a, .call s' (.persist before false) (.ok a) ∈
        (fundingRun c env terms now before history).trace)

/-- Some continuation puts the locator of the HTLC of `terms` on the record, and
refunds it. -/
def Recoverable (c : Coordinator) (leg : BitcoinTaprootLeg)
    (st : DurableSeenStore) (record : SwapRecord)
    (terms : NegotiatedTerms) : Prop :=
  ∃ (env : Env) (_ : leg.Wired env) (calls : List StepCall)
    (st' : DurableSeenStore) (record' : SwapRecord)
    (history : List StepEvent), afterCalls c env calls record [] = (record',
      history) ∧ Served st history st' ∧
    (∃ l, leg.IsHtlcOf terms l ∧ record'.counterchainLocator = some l) ∧
    ∃ out, ((takerRefundBtc c).run (fun t op => env (history ++
      t) op) record' []).result = .ok out

/-- Some continuation funds an HTLC under the hashlock again. -/
def FundsAgain (c : Coordinator) (leg : BitcoinTaprootLeg)
    (st : DurableSeenStore) (record : SwapRecord)
    (hashlock : Bytes) : Prop :=
  ∃ (env : Env) (_ : leg.Wired env) (calls : List StepCall)
    (st' : DurableSeenStore) (record' : SwapRecord)
    (history : List StepEvent), afterCalls c env calls record [] = (record',
      history) ∧ Served st history st' ∧
    ∃ s terms r, terms.hashlock = hashlock ∧ .call s (.fund terms) r ∈ history

section Runs

variable {c : Coordinator} {leg : BitcoinTaprootLeg} {env : Env}
  {hashlock : Bytes}

/-- Once a hashlock is in the store, no call funds under it. -/
theorem not_funds_taken {call : StepCall} {s : SwapRecord}
    {st st' : DurableSeenStore}
    (hserved : Served st ((call.body c).run env s []).trace st')
    (htaken : hashlock ∈ st.rows) {s' : SwapRecord} {terms : NegotiatedTerms}
    {r : Except PyErr PyObj}
    (hmem : .call s' (.fund terms) r ∈ ((call.body c).run env s []).trace) :
    terms.hashlock ≠ hashlock := by
  intro heq
  have hobeys : Obeys ReserveFirst ((call.body c).run env s []).trace :=
    (run_meets env _ s [] (obeys_nil _) (body_reserveFirst call)).1
  obtain ⟨pre, post, hsplit⟩ := List.append_of_mem hmem
  obtain ⟨⟨s₁, op, r₁, hgrant, hg⟩, -⟩ :=
    hobeys pre _ post hsplit terms.hashlock rfl
  rw [heq] at hg
  refine (hserved.taken htaken).2 s₁ op r₁ ?_ hg
  rw [hsplit]
  exact List.mem_append_left _ hgrant

/-- The locator on the record, if there is one, is of an HTLC under another
hashlock. -/
def Elsewhere (leg : BitcoinTaprootLeg) (hashlock : Bytes)
    (record : SwapRecord) : Prop :=
  ∀ l, record.counterchainLocator = some l →
    ∃ terms, terms.hashlock ≠ hashlock ∧ leg.IsHtlcOf terms l

/-- One call keeps it so, once the hashlock is in the store. -/
theorem elsewhere_call (hplain : c.hasVerifyCounterpartyFunded = false)
    (w : leg.Wired env) {history : List StepEvent} {call : StepCall}
    {s : SwapRecord} {st st' : DurableSeenStore}
    (hserved : Served st ((call.body c).run (fun t op =>
      env (history ++ t) op) s []).trace st')
    (htaken : hashlock ∈ st.rows) (h : Elsewhere leg hashlock s) :
    Elsewhere leg hashlock
      ((call.body c).run (fun t op => env (history ++ t) op) s []).state := by
  -- only the funding call can record the locator
  by_cases hcall : ∃ terms now, call = .takerFundsBtc terms now
  · obtain ⟨terms, now, rfl⟩ := hcall
    intro l hl
    rcases (run_meets (fun t op => env (history ++ t) op) (takerFundsBtc c
      terms now) s [] (obeys_nil _) (takerFundsBtc_outcome now)).2 with ⟨-,
      hsame⟩ | ⟨pre, l', reported, hasked⟩
    · exact h l (by rw [← hl]; exact congrArg (fun r : SwapRecord =>
        r.counterchainLocator) hsame.symm)
    · by_cases hbinds : Binds s terms l' reported
      · have hloc := (hasked.bound hbinds).1
        have hl' : l' = l := Option.some.inj (hloc.symm.trans hl)
        obtain ⟨post, hpost⟩ := hasked.events
        have hmem : fundEvent s terms l' ∈ ((takerFundsBtc c terms now).run
            (fun t op => env (history ++ t) op) s []).trace :=
          hasked.events.subset (List.mem_append_right _ List.mem_cons_self)
        refine ⟨terms, not_funds_taken hserved htaken hmem, ?_⟩
        have hanswer := run_obeys_env (fun t op => env (history ++ t) op)
          (takerFundsBtc c terms now) s [] (obeys_nil _) pre
          (fundEvent s terms l') (.call s (.lockedAmount l') reported :: post)
          (by rw [← hpost, List.append_assoc]; rfl) s _ _ rfl
        rw [w.fund] at hanswer
        rw [← hl']
        cases hrun : (leg.fundRun (w.patience (history ++ pre))
            (w.chain (history ++ pre)) terms).result with
        | error e =>
          rw [hrun] at hanswer
          cases hanswer
        | ok locator =>
          rw [hrun] at hanswer
          cases hanswer
          exact BitcoinTaprootLeg.fund_ok hrun
      · exact h l (by rw [← hl]; exact congrArg (fun r : SwapRecord =>
          r.counterchainLocator) (hasked.unbound hbinds).symm)
  · have hne : ∀ terms now, call ≠ .takerFundsBtc terms now :=
      fun terms now heq => hcall ⟨terms, now, heq⟩
    intro l hl
    exact h l
      (by rw [← hl]; exact (kept_of_keeping (body_keeps hplain hne) _ s).1.symm)

/-- The history only grows. -/
theorem afterCalls_history : ∀ {calls : List StepCall}
    {record record' : SwapRecord} {history history' : List StepEvent},
    afterCalls c env calls record history = (record', history') →
    ∃ more, history' = history ++ more := by
  intro calls
  induction calls with
  | nil =>
    intro record record' history history' h
    exact ⟨[], by rw [List.append_nil]; exact (Prod.mk.inj h).2.symm⟩
  | cons call calls ih =>
    intro record record' history history' h
    obtain ⟨more, rfl⟩ := ih h
    exact ⟨_, List.append_assoc _ _ _⟩

/-- A sequence of calls keeps it so, and funds nothing under the hashlock. -/
theorem elsewhere_calls (hplain : c.hasVerifyCounterpartyFunded = false)
    (w : leg.Wired env) :
    ∀ {calls : List StepCall} {record record' : SwapRecord}
      {history more : List StepEvent} {st st' : DurableSeenStore},
      afterCalls c env calls record history = (record', history ++ more) →
    Served st more st' → hashlock ∈ st.rows → Elsewhere leg hashlock record →
    Elsewhere leg hashlock record' ∧
        ∀ s terms r, .call s (.fund terms) r ∈ more →
          terms.hashlock ≠ hashlock := by
  intro calls
  induction calls with
  | nil =>
    intro record record' history more st st' h _ _ helse
    obtain ⟨rfl, hnil⟩ := Prod.mk.inj h
    have hnil : more = [] :=
      List.append_cancel_left (hnil.symm.trans (List.append_nil history).symm)
    refine ⟨helse, fun s terms r hmem => ?_⟩
    rw [hnil] at hmem
    cases hmem
  | cons call calls ih =>
    intro record record' history more st st' h hserved htaken helse
    rw [afterCalls] at h
    obtain ⟨rest, hrest⟩ := afterCalls_history h
    have hmore : more = ((call.body c).run (fun t op =>
        env (history ++ t) op) record []).trace ++ rest := by
      rw [List.append_assoc] at hrest
      exact List.append_cancel_left hrest
    rw [hmore] at hserved h ⊢
    rw [← List.append_assoc] at h
    obtain ⟨mid, hfirst, hlast⟩ := hserved.append
    obtain ⟨helse', hfunds⟩ := ih h hlast (hfirst.taken htaken).1
      (elsewhere_call hplain w hfirst htaken helse)
    refine ⟨helse', fun s terms r hmem => ?_⟩
    rcases List.mem_append.mp hmem with hmem | hmem
    · exact not_funds_taken hfirst htaken hmem
    · exact hfunds s terms r hmem

/-- In NEGOTIATED there is no locator. -/
def Unlocked (record : SwapRecord) : Prop := record.state = .negotiated →
  record.counterchainLocator = none

/-- One call keeps it so. -/
theorem unlocked_call (hplain : c.hasVerifyCounterpartyFunded = false)
    (env : Env) (call : StepCall) {s : SwapRecord} (h : Unlocked s) :
    Unlocked ((call.body c).run env s []).state := by
  by_cases hcall : ∃ terms now, call = .takerFundsBtc terms now
  · obtain ⟨terms, now, rfl⟩ := hcall
    rcases (run_meets env (takerFundsBtc c terms now) s [] (obeys_nil _)
        (takerFundsBtc_outcome now)).2 with
      ⟨-, hsame⟩ | ⟨pre, l, reported, hasked⟩
    · show Unlocked ((takerFundsBtc c terms now).run env s []).state
      rw [hsame]
      exact h
    · show Unlocked ((takerFundsBtc c terms now).run env s []).state
      by_cases hbinds : Binds s terms l reported
      · intro hn
        rw [(hasked.bound hbinds).2] at hn
        cases hn
      · rw [hasked.unbound hbinds]
        exact h
  · have hne : ∀ terms now, call ≠ .takerFundsBtc terms now :=
      fun terms now heq => hcall ⟨terms, now, heq⟩
    obtain ⟨hloc, hst⟩ := kept_of_keeping (body_keeps hplain hne) env s
    exact fun hn => hloc.trans (h (hst hn))

/-- So a record without a locator never gets one from later calls. -/
theorem unlocked_calls (hplain : c.hasVerifyCounterpartyFunded = false) :
    ∀ {calls : List StepCall}
    {record : SwapRecord} {history : List StepEvent}, Unlocked record →
      Unlocked (afterCalls c env calls record history).1 := by
  intro calls
  induction calls with
  | nil =>
    intro record history h
    exact h
  | cons call calls ih =>
    intro record history h
    exact ih (unlocked_call hplain _ call h)

/-- Only from NEGOTIATED does `taker_funds_btc` do anything. -/
theorem takerFundsBtc_negotiated {record : SwapRecord} (terms : NegotiatedTerms)
    (now : Option Int) :
    Meets Anything (fun _ _ t => record.state = .negotiated ∨ t = [])
      (takerFundsBtc c terms now) record [] := by
  unfold takerFundsBtc
  rw [meets_bind]
  refine guardState_meets (fun hst => ?_) fun _ => .inr rfl
  exact meets_of_forall (fun _ _ => trivial) (fun _ _ _ =>
    .inl (List.mem_singleton.mp hst)) _

/-- What is left of a lost funding: a record without a locator, and the hashlock
in the store. -/
theorem Lost.stranded (hplain : c.hasVerifyCounterpartyFunded = false)
    {st : DurableSeenStore} {record : SwapRecord} {terms : NegotiatedTerms}
    (h : Lost c leg st record terms) :
    terms.hashlock ∈ st.rows ∧ record.counterchainLocator = none := by
  obtain ⟨env, w, calls, now, record₀, st₀, before, history, pre, s, r, hfresh,
      hafter, hserved, hfund, -, hrecord⟩ := h
  have hbody : ∀ {P : List StepEvent → StepEvent → Prop}
      {Q : Except PyErr SwapRecord → SwapRecord → List StepEvent → Prop},
      Meets P Q (takerFundsBtc c terms now) before [] →
        Obeys P (fundingRun c env terms now before history).trace ∧
        Q (fundingRun c env terms now before history).result
        (fundingRun c env terms now before history).state
        (fundingRun c env terms now before history).trace :=
    fun h => run_meets (fun t op => env (history ++ t) op)
      (takerFundsBtc c terms now) before [] (obeys_nil _) h
  have hmem : (.call s (.fund terms) r : StepEvent) ∈
      (fundingRun c env terms now before history).trace :=
    hfund.subset (List.mem_append_right _ (List.mem_singleton_self _))
  have hstate : before.state = .negotiated := by
    refine (hbody (takerFundsBtc_negotiated terms now)).2.resolve_right
      fun hnil => ?_
    rw [show (fundingRun c env terms now before history).trace = []
      from hnil] at hmem
    cases hmem
  have hnone : before.counterchainLocator = none := by
    have hunlocked :=
      @unlocked_calls c env hplain calls record₀ [] fun _ => hfresh.2
    rw [hafter] at hunlocked
    exact hunlocked hstate
  constructor
  · obtain ⟨pre', post, hsplit⟩ := List.append_of_mem hmem
    obtain ⟨⟨s₁, op, r₁, hgrant, hg⟩, -⟩ :=
      (hbody (takerFundsBtc_reserveFirst terms now)).1 pre' _ post hsplit
        terms.hashlock rfl
    have hreserve : .call s₁ op r₁ ∈
        (fundingRun c env terms now before history).trace := by
      rw [hsplit]
      exact List.mem_append_left _ hgrant
    exact hserved.granted (List.mem_append_right _ hreserve) hg
  · rcases hrecord with ⟨⟨e, rfl⟩, rfl⟩ | ⟨rfl, -⟩
    · rcases (hbody (takerFundsBtc_outcome now)).2 with ⟨-, hsame⟩ | ⟨pre', l,
        reported, hasked⟩
      · rw [show (fundingRun c env terms now before history).state =
          before from hsame]
        exact hnone
      · -- a call that funds twice would be needed for this
        have hprefix : pre' ++ [fundEvent before terms l] <+:
            (fundingRun c env terms now before history).trace := by
          refine List.IsPrefix.trans ?_ hasked.events
          exact ⟨[_], by rw [List.append_assoc]; rfl⟩
        obtain ⟨-, hevent⟩ :=
          List.append_inj' (funding_unique hfund hprefix) rfl
        injection hevent with hevent
        injection hevent with _ _ hr
        cases hr
    · exact hnone

/-- A record without a locator does not get one of an HTLC under a hashlock that
is in the store. -/
theorem not_recoverable (hplain : c.hasVerifyCounterpartyFunded = false)
    {st : DurableSeenStore} {record : SwapRecord}
    {terms : NegotiatedTerms} (htaken : terms.hashlock ∈ st.rows)
    (hnone : record.counterchainLocator = none) :
    ¬ Recoverable c leg st record terms := by
  have helse : Elsewhere leg terms.hashlock record := by
    intro l hl
    rw [hnone] at hl
    cases hl
  rintro ⟨env, w, calls, st', record', history, hafter, hserved,
    ⟨l, hhtlc, hl⟩, -⟩
  obtain ⟨helse', -⟩ := elsewhere_calls hplain w (show afterCalls c env calls
    record [] = (record', [] ++ history) from hafter) hserved htaken helse
  obtain ⟨terms', hne, hhtlc'⟩ := helse' l hl
  exact hne (hhtlc'.hashlock hhtlc)

/-- Nothing is funded under a hashlock that is in the store. -/
theorem not_fundsAgain {st : DurableSeenStore}
    (hplain : c.hasVerifyCounterpartyFunded = false) {record : SwapRecord}
    (htaken : hashlock ∈ st.rows) (hnone : record.counterchainLocator = none) :
    ¬ FundsAgain c leg st record hashlock := by
  have helse : Elsewhere leg hashlock record := by
    intro l hl
    rw [hnone] at hl
    cases hl
  rintro ⟨env, w, calls, st', record', history, hafter, hserved, s,
    terms', r, heq, hmem⟩
  obtain ⟨-, hfunds⟩ := elsewhere_calls hplain w (show afterCalls c env calls
    record [] = (record', [] ++ history) from hafter) hserved htaken helse
  exact hfunds s terms' r hmem heq

end Runs

/-- **A funding that was broadcast and then failed is not recovered**, by no
sequence of calls and whatever the chain answers from then on; nor is anything
funded under its hashlock again. -/
theorem funding_never_recovered (c : Coordinator) (leg : BitcoinTaprootLeg)
    (hplain : c.hasVerifyCounterpartyFunded = false) (st : DurableSeenStore)
    (record : SwapRecord)
    (terms : NegotiatedTerms) (hlost : Lost c leg st record terms) :
    ¬ Recoverable c leg st record terms ∧
    ¬ FundsAgain c leg st record terms.hashlock := by
  obtain ⟨htaken, hnone⟩ := hlost.stranded hplain
  exact ⟨not_recoverable hplain htaken hnone,
    not_fundsAgain hplain htaken hnone⟩

/-! ## A lost funding -/

/-- A leg that reads the amount once, and wants one confirmation for it. -/
def sampleBitcoinLeg : BitcoinTaprootLeg where
  ec := ⟨fun _ _ => .ok (0x02 :: List.replicate 32 5),
    fun _ _ _ => .ok (List.replicate 64 6)⟩
  sign := fun _ _ => .ok (List.replicate 70 0x30)
  network := "bcrt"
  takerKeypair := ⟨List.replicate 32 1, 0x02 :: List.replicate 32 5,
    List.replicate 20 7, rfl, rfl⟩
  fundingUtxo := ⟨String.ofList (List.replicate 64 'a'), 0, 200000⟩
  feeSats := 500
  minConfirmations := 1
  fundingInputType := .p2wpkh
  fundConfirmPollS := 0

/-- A chain on which the transaction `txid` is accepted and not confirmed
yet. -/
def unconfirmed (txid : String) : BtcEnv := fun _ op =>
  match op with
  | .broadcast _ => .ok (.str txid)
  | .readOutputAmountSats _ _ required => .error (.insufficient 0 required)
  | _ => .ok .none

/-- A payment is written in hex, and its id is a hash. -/
theorem buildPaymentTx_hex {sign : Bytes → Bytes → Except PyErr Bytes}
    {keypair : BtcKeypair} {utxo : BtcUtxo} {toHash : Bytes}
    {toType : Spv.ReceiveType} {amountSats feeSats : Int}
    {inputType : InputType} {r : BtcPaymentTx} (h : buildPaymentTx sign keypair
      utxo toHash toType amountSats feeSats inputType = .ok r) :
    ∃ raw nonWitness, r.txHex = hex raw ∧
    r.txid = hex (hash256 nonWitness).reverse := by
  unfold buildPaymentTx at h
  obtain ⟨-, h⟩ := refuseIf_bind_ok.mp h
  dsimp only at h
  obtain ⟨-, h⟩ := refuseIf_bind_ok.mp h
  obtain ⟨version, -, h⟩ := bind_ok.mp h
  obtain ⟨locktime, -, h⟩ := bind_ok.mp h
  obtain ⟨b, -, h⟩ := bind_ok.mp h
  obtain ⟨voutB, -, h⟩ := bind_ok.mp h
  obtain ⟨scriptSig, -, h⟩ := bind_ok.mp h
  obtain ⟨outputs, -, h⟩ := bind_ok.mp h
  obtain ⟨preimage, -, h⟩ := bind_ok.mp h
  obtain ⟨sigDer, -, h⟩ := bind_ok.mp h
  obtain ⟨nIn, -, h⟩ := bind_ok.mp h
  obtain ⟨nOut, -, h⟩ := bind_ok.mp h
  obtain ⟨nItems, -, h⟩ := bind_ok.mp h
  obtain ⟨itemsB, -, h⟩ := bind_ok.mp h
  cases h
  exact ⟨_, _, rfl, rfl⟩

/-- The leg has its HTLC, its address and the payment to it. -/
theorem sampleBitcoinLeg_prepares :
    ∃ htlc toHash payment raw, sampleBitcoinLeg.htlc sampleBtcTerms = .ok htlc ∧
    sampleBitcoinLeg.outputKey htlc = .ok toHash ∧
    buildPaymentTx sampleBitcoinLeg.sign sampleBitcoinLeg.takerKeypair
      sampleBitcoinLeg.fundingUtxo toHash .p2tr sampleBtcTerms.btcSats
      sampleBitcoinLeg.feeSats sampleBitcoinLeg.fundingInputType = .ok payment ∧
    Spv.unhex payment.txHex = .ok raw := by
  obtain ⟨claimScript, hclaim, hclaimLen⟩ : ∃ script, claimLeafScript
      sampleBtcTerms.hashlock sampleBtcTerms.btcClaimPubkeyXonly = .ok script ∧
      script.length < 256 ^ 8 := ⟨_, rfl, by decide⟩
  obtain ⟨refundScript, hrefund, hrefundLen⟩ : ∃ script,
      refundLeafScript sampleBtcTerms.btcRefundPubkeyXonly sampleBtcTerms.tBtc =
      .ok script ∧ script.length < 256 ^ 8 := ⟨_, rfl, by decide⟩
  have htree : ScriptTree.new ⟨claimScript, refundScript,
    leafVersionTapscript⟩ =
      .ok ⟨⟨claimScript, refundScript, leafVersionTapscript⟩, rfl⟩ := rfl
  have hleaf : ∀ script : Bytes, script.length < 256 ^ 8 →
      ∃ h, tapleafHash script leafVersionTapscript = .ok h ∧ h.length = 32 := by
    intro script hlen
    refine ⟨_, bind_ok.mpr ⟨_, rfl, bind_ok.mpr ⟨compactBytes script.length ++
      script, ?_, rfl⟩⟩, length_taggedHash _ _⟩
    exact bind_ok.mpr ⟨_, if_pos hlen, rfl⟩
  obtain ⟨claimHash, hclaimHash, hclaimHashLen⟩ := hleaf claimScript hclaimLen
  obtain ⟨refundHash, hrefundHash, hrefundHashLen⟩ :=
    hleaf refundScript hrefundLen
  obtain ⟨root, hroot, hrootLen⟩ : ∃ root, tapbranchHash claimHash refundHash =
      .ok root ∧ root.length = 32 :=
    ⟨_, bind_ok.mpr ⟨(), asBytes_ok.mpr hclaimHashLen, bind_ok.mpr ⟨(),
      asBytes_ok.mpr hrefundHashLen, rfl⟩⟩, length_taggedHash _ _⟩
  have hpoint : taprootTweakPoint sampleBitcoinLeg.ec numsInternalKeyXonly
      root = .ok (List.replicate 32 5, 0) :=
    bind_ok.mpr ⟨(), asBytes_ok.mpr rfl,
      bind_ok.mpr ⟨(), asBytes_ok.mpr hrootLen, rfl⟩⟩
  have hcontrol : ∀ sibling : Bytes, sibling.length = 32 →
      ∃ cb, controlBlock sampleBitcoinLeg.ec numsInternalKeyXonly root sibling =
        .ok cb := by
    intro sibling hlen
    refine bind_returns (asBytes_ok.mpr rfl :
      asBytes numsInternalKeyXonly "internal_key_xonly" 32 = .ok ()) ?_
    refine bind_returns (asBytes_ok.mpr hlen :
      asBytes sibling "sibling_hash" 32 = .ok ()) ?_
    refine bind_returns hpoint (refuseIf_returns ?_ ⟨_, rfl⟩)
    rw [List.length_cons, List.length_append, hlen]
    decide
  obtain ⟨cbClaim, hcbClaim⟩ := hcontrol refundHash hrefundHashLen
  obtain ⟨cbRefund, hcbRefund⟩ := hcontrol claimHash hclaimHashLen
  have hmerkle : ScriptTree.merkleRoot ⟨⟨claimScript, refundScript,
      leafVersionTapscript⟩, rfl⟩ = .ok root :=
    bind_ok.mpr ⟨claimHash, hclaimHash,
      bind_ok.mpr ⟨refundHash, hrefundHash, hroot⟩⟩
  refine ⟨⟨⟨⟨claimScript, refundScript, leafVersionTapscript⟩, rfl⟩,
    numsInternalKeyXonly, cbClaim, cbRefund, "bcrt"⟩, List.replicate 32 5, ?_⟩
  have hhtlc : sampleBitcoinLeg.htlc sampleBtcTerms =
      .ok ⟨⟨⟨claimScript, refundScript, leafVersionTapscript⟩, rfl⟩,
      numsInternalKeyXonly, cbClaim, cbRefund, "bcrt"⟩ := by
    refine bind_ok.mpr ⟨(), asBytes_ok.mpr rfl,
      bind_ok.mpr ⟨(), asBytes_ok.mpr rfl, ?_⟩⟩
    refine bind_ok.mpr ⟨claimScript, hclaim,
      bind_ok.mpr ⟨refundScript, hrefund, bind_ok.mpr ⟨_, htree, ?_⟩⟩⟩
    refine bind_ok.mpr ⟨root, hmerkle, bind_ok.mpr ⟨refundHash, hrefundHash,
      bind_ok.mpr ⟨cbClaim, hcbClaim, ?_⟩⟩⟩
    exact bind_ok.mpr ⟨claimHash, hclaimHash,
      bind_ok.mpr ⟨cbRefund, hcbRefund, rfl⟩⟩
  obtain ⟨payment, hpayment⟩ : ∃ payment, buildPaymentTx sampleBitcoinLeg.sign
      sampleBitcoinLeg.takerKeypair sampleBitcoinLeg.fundingUtxo (List.replicate
      32 5) .p2tr sampleBtcTerms.btcSats sampleBitcoinLeg.feeSats
      sampleBitcoinLeg.fundingInputType = .ok payment := by
    have hok : (buildPaymentTx sampleBitcoinLeg.sign
        sampleBitcoinLeg.takerKeypair sampleBitcoinLeg.fundingUtxo
        (List.replicate 32 5) .p2tr sampleBtcTerms.btcSats
        sampleBitcoinLeg.feeSats sampleBitcoinLeg.fundingInputType).isOk =
        true := by decide
    revert hok
    cases buildPaymentTx sampleBitcoinLeg.sign
        sampleBitcoinLeg.takerKeypair sampleBitcoinLeg.fundingUtxo
        (List.replicate 32 5) .p2tr sampleBtcTerms.btcSats
        sampleBitcoinLeg.feeSats sampleBitcoinLeg.fundingInputType with
    | error e => exact fun h => Bool.noConfusion h
    | ok payment => exact fun _ => ⟨payment, rfl⟩
  obtain ⟨raw, -, hraw, -⟩ := buildPaymentTx_hex hpayment
  refine ⟨payment, raw, hhtlc, ?_, hpayment,
    Spv.unhex_ok.mpr (by rw [hraw, fromHex_hex])⟩
  exact bind_ok.mpr ⟨root, hmerkle, bind_ok.mpr ⟨_, hpoint, rfl⟩⟩

section Raises

variable (txid : String)

/-- A returned value of the leg is returned. -/
theorem lift_ok {α : Type} (a : α) :
    BtcMethod.lift (.ok a) = (.ret a : BtcMethod α) := rfl

theorem ret_bind {α β : Type} (a : α) (f : α → BtcMethod β) :
    (.ret a >>= f) = f a := rfl

/-- After the broadcast, on that chain: the amount cannot be read. -/
theorem readback_raises (htlc : BtcHtlc) (payment : BtcPaymentTx)
    (t : List (Event BtcOp PyObj Unit BtcLegErr)) :
    ∃ e, (run (unconfirmed txid)
      (if (PyObj.str txid).ne (.str payment.txid) = true then
        BtcMethod.network ("broadcast txid " ++ (PyObj.str txid).text ++
          " != built funding txid " ++ payment.txid ++ "; refusing to proceed")
      else do
        let outpoint ← BtcMethod.lift (BtcOutpoint.new ⟨payment.txid, 0⟩)
        let onChain ← sampleBitcoinLeg.readFundedAmountSats 0 payment.txid 0
        let amount ← BitcoinTaprootLeg.fundedAmount onChain
        BtcMethod.lift (htlc.withFunding outpoint amount)) () t).result = .error e := by
  split
  · exact ⟨_, rfl⟩
  · cases BtcOutpoint.new ⟨payment.txid, 0⟩ with
    | error e => exact ⟨_, rfl⟩
    | ok outpoint => exact ⟨_, rfl⟩

/-- `fund` raises on that chain, for any terms. -/
theorem sampleBitcoinLeg_raises (terms : NegotiatedTerms) :
    ∃ e, (sampleBitcoinLeg.fundRun 0 (unconfirmed txid) terms).result =
      .error e := by
  unfold BitcoinTaprootLeg.fundRun BitcoinTaprootLeg.fund
  cases sampleBitcoinLeg.htlc terms with
  | error e => exact ⟨_, rfl⟩
  | ok htlc =>
    rw [lift_ok, ret_bind]
    cases sampleBitcoinLeg.outputKey htlc with
    | error e => exact ⟨_, rfl⟩
    | ok toHash =>
      rw [lift_ok, ret_bind]
      cases buildPaymentTx sampleBitcoinLeg.sign sampleBitcoinLeg.takerKeypair
          sampleBitcoinLeg.fundingUtxo toHash .p2tr terms.btcSats
          sampleBitcoinLeg.feeSats sampleBitcoinLeg.fundingInputType with
      | error e => exact ⟨_, rfl⟩
      | ok payment =>
        rw [lift_ok, ret_bind]
        cases Spv.unhex payment.txHex with
        | error e => exact ⟨_, rfl⟩
        | ok raw => exact readback_raises txid htlc payment _

/-- The payment goes out before that. -/
theorem sampleBitcoinLeg_broadcast :
    sampleBitcoinLeg.Broadcast 0 (unconfirmed txid) sampleBtcTerms := by
  obtain ⟨htlc, toHash, payment, raw, hhtlc, hkey, hpayment, hraw⟩ :=
    sampleBitcoinLeg_prepares
  refine ⟨raw, .str txid, ?_⟩
  unfold BitcoinTaprootLeg.fundRun BitcoinTaprootLeg.fund
  rw [hhtlc, lift_ok, ret_bind, hkey, lift_ok, ret_bind, hpayment, lift_ok,
    ret_bind, hraw, lift_ok, ret_bind]
  exact (run_trace_extends (unconfirmed txid) _ () [.call () (.broadcast raw)
    (.ok (.str txid))]).subset (List.mem_singleton_self _)

end Raises

/-- The leg accepts the id of its own payment, and then the payment is not
confirmed. -/
theorem sampleBitcoinLeg_unconfirmed :
    ∃ txid, (sampleBitcoinLeg.fundRun 0 (unconfirmed txid)
      sampleBtcTerms).result = .error (.insufficient 0 1) := by
  obtain ⟨htlc, toHash, payment, raw, hhtlc, hkey, hpayment, hraw⟩ :=
    sampleBitcoinLeg_prepares
  obtain ⟨-, nonWitness, -, htxid⟩ := buildPaymentTx_hex hpayment
  have hlen : (hash256 nonWitness).reverse.length = 32 := by
    rw [List.length_reverse]
    exact length_sha256 _
  have hvalid : BtcOutpointFields.postInit ⟨payment.txid, 0⟩ = .ok () := by
    refine refuseIf_bind_ok.mpr ⟨not_not_intro ?_,
      refuseIf_bind_ok.mpr ⟨?_, refuseIf_ok.mpr (Int.lt_irrefl 0)⟩⟩
    · show payment.txid.length = 64
      rw [htxid, length_hex, hlen]
    · show ¬ fromHex payment.txid = none
      rw [htxid, fromHex_hex]
      exact Option.some_ne_none _
  have hnew : BtcOutpoint.new ⟨payment.txid, 0⟩ =
      .ok ⟨⟨payment.txid, 0⟩, hvalid⟩ :=
    bind_ok.mpr ⟨⟨hvalid⟩, postInitOk_of hvalid, rfl⟩
  have hsame : ¬ (PyObj.str payment.txid).ne (.str payment.txid) = true := by
    rw [PyObj.ne, decide_eq_true_eq]
    exact not_not_intro rfl
  refine ⟨payment.txid, ?_⟩
  unfold BitcoinTaprootLeg.fundRun BitcoinTaprootLeg.fund
  rw [hhtlc, lift_ok, ret_bind, hkey, lift_ok, ret_bind, hpayment, lift_ok,
    ret_bind, hraw, lift_ok, ret_bind]
  show (run (unconfirmed payment.txid) (if (PyObj.str payment.txid).ne
    (.str payment.txid) = true then _ else _) () _).result = _
  rw [if_neg hsame, hnew]
  rfl

/-- Collaborators of a taker whose leg is that one. -/
def lostEnv (txid : String) : Env := fun history op =>
  match op with
  | .fund terms =>
    BitcoinTaprootLeg.answer (sampleBitcoinLeg.fundRun 0
      (unconfirmed txid) terms).result
  | op => sampleEnv history op

/-- They are wired to it. -/
def lostWired (txid : String) : sampleBitcoinLeg.Wired (lostEnv txid) where
  chain _ := unconfirmed txid
  patience _ := 0
  fund _ _ := rfl

/-- A coordinator for the leg. -/
def sampleBitcoinCoordinator : Coordinator :=
  { sampleCoordinator with hasVerifyCounterpartyFunded := false }

/-- The sample coordinator is constructed. -/
theorem sampleBitcoinCoordinator_init :
    sampleBitcoinCoordinator.init sampleBtcRecord = .ok () := by decide

/-- What the funding call does, up to its exception. -/
theorem lostEnv_run (txid : String) : ∃ e : BtcLegErr,
    (sampleBitcoinLeg.fundRun 0 (unconfirmed txid) sampleBtcTerms).result =
      .error e ∧
    fundingRun sampleBitcoinCoordinator
      (lostEnv txid) sampleBtcTerms none sampleBtcRecord [] =
      ⟨.error e.toPyErr, sampleBtcRecord,
        sampleBeforeFunding ++ [.call sampleBtcRecord (.fund sampleBtcTerms)
          (.error e.toPyErr)]⟩ := by
  choose e he using sampleBitcoinLeg_raises txid
  have henv : lostEnv txid = fun history op => match op with
      | .fund terms => .error (e terms).toPyErr
      | op => sampleEnv history op := by
    funext history op
    cases op with
    | fund terms =>
      show BitcoinTaprootLeg.answer
        (sampleBitcoinLeg.fundRun 0 (unconfirmed txid) terms).result = _
      rw [he]
      rfl
    | _ => rfl
  exact ⟨e sampleBtcTerms, he sampleBtcTerms, by rw [henv]; rfl⟩

/-- The seen-store with the hashlock of the sample. -/
def sampleSeen : DurableSeenStore := ⟨{sampleBtcTerms.hashlock}⟩

/-- Whatever the broadcaster calls the payment, it is lost. -/
theorem sample_lost (txid : String) :
    Lost sampleBitcoinCoordinator sampleBitcoinLeg sampleSeen sampleBtcRecord
      sampleBtcTerms := by
  obtain ⟨e, -, hrun⟩ := lostEnv_run txid
  refine ⟨lostEnv txid, lostWired txid, [], none, sampleBtcRecord, ⟨∅⟩,
    sampleBtcRecord, [], sampleBeforeFunding, sampleBtcRecord, .error e.toPyErr,
    ⟨rfl, rfl⟩, rfl, ?_, ?_, sampleBitcoinLeg_broadcast txid,
    .inl ⟨⟨e.toPyErr, rfl⟩, ?_⟩⟩
  · rw [hrun]
    refine .call _ (.hasSeen sampleBtcTerms.hashlock) (.call _ (.elsewhere _ _
      rfl) (.call _ (.elsewhere _ _ rfl) (.call _ (.elsewhere _ _ rfl) (.call _
      (.reserve sampleBtcTerms.hashlock) (.call _ (.elsewhere _ _ rfl) ?_)))))
    exact .nil _
  · rw [hrun]
  · rw [hrun]

/-- The statement at the sample leg and record. -/
theorem funding_never_recovered_sample :
    ¬ Recoverable sampleBitcoinCoordinator sampleBitcoinLeg sampleSeen
      sampleBtcRecord sampleBtcTerms ∧
      ¬ FundsAgain sampleBitcoinCoordinator sampleBitcoinLeg sampleSeen
        sampleBtcRecord sampleBtcTerms.hashlock :=
  funding_never_recovered sampleBitcoinCoordinator sampleBitcoinLeg rfl
    sampleSeen sampleBtcRecord sampleBtcTerms (sample_lost "")

/-- A payment that is accepted and not yet confirmed when its amount is read is
lost for the coordinator. -/
theorem unconfirmed_funding_lost :
    sampleBitcoinCoordinator.init sampleBtcRecord = .ok () ∧
    (∃ txid,
      (sampleBitcoinLeg.fundRun 0 (unconfirmed txid) sampleBtcTerms).result =
      .error (.insufficient 0 1) ∧ (fundingRun sampleBitcoinCoordinator
      (lostEnv txid) sampleBtcTerms none sampleBtcRecord []).result =
        .error (BtcLegErr.insufficient 0 1).toPyErr) ∧
    Lost sampleBitcoinCoordinator sampleBitcoinLeg sampleSeen sampleBtcRecord
      sampleBtcTerms ∧
    ¬ Recoverable sampleBitcoinCoordinator sampleBitcoinLeg sampleSeen
      sampleBtcRecord sampleBtcTerms := by
  obtain ⟨txid, hleg⟩ := sampleBitcoinLeg_unconfirmed
  obtain ⟨e, he, hrun⟩ := lostEnv_run txid
  rw [hleg, Except.error.injEq] at he
  exact ⟨sampleBitcoinCoordinator_init, ⟨txid, hleg, by rw [hrun, he]⟩,
    sample_lost txid,
    not_recoverable rfl (Finset.mem_singleton_self _) rfl⟩

end Pyrxd.Gravity
