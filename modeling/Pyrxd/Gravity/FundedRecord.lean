import Pyrxd.Gravity.FundingOnce
import Pyrxd.Gravity.FundingTerms

/-!
# What is kept of a funded lock

`counter_leg.fund` has broadcast when it hands its locator over, and
`taker_funds_btc` still has two checks to make before the locator is on the
record: the funded amount, and the chain of the record's own terms.
`funded_locator_kept_iff` says that the locator is kept exactly when both pass,
whatever the call ends in.
-/

namespace Pyrxd.Gravity

open Pyrxd.Lib Pyrxd.Lib.Prog Pyrxd.Btc

/-- After `pre`, `counter_leg.fund` handed over `l`. -/
def fundEvent (record : SwapRecord) (terms : NegotiatedTerms)
    (l : Locator) : StepEvent :=
  .call record (.fund terms) (.ok (.locator l))

/-- What `taker_funds_btc` asks of a funded locator before it keeps it: the leg
answers with the negotiated amount, and the locator is of the record's own
chain. -/
def Binds (record : SwapRecord) (terms : NegotiatedTerms) (l : Locator)
    (reported : Except PyErr PyObj) : Prop :=
  l.chain = record.terms.counterChain ∧
    ∃ amount, reported = .ok amount ∧ amount.ne (.int terms.valueAmount) = false

/-- What `taker_refund_btc` asks of a record before it refunds `l`. -/
def Refundable (record : SwapRecord) (l : Locator) : Prop :=
  record.counterchainLocator = some l ∧
    record.state ∈ Step.takerRefundBtc.validFrom

/-- Nothing was funded so far. -/
def Unfunded (t : List StepEvent) : Prop :=
  ∀ record terms l, fundEvent record terms l ∉ t

section Body

variable {c : Coordinator} {record s : SwapRecord} {terms : NegotiatedTerms}
  {t : List StepEvent}

/-- A grant that was never used funded nothing. -/
theorem unfunded_of_unused (h : Obeys (Pool.Unused funded) t) : Unfunded t := by
  intro s terms l hmem
  obtain ⟨pre, post, hsplit⟩ := List.append_of_mem hmem
  have hunused : some terms.hashlock = none := h pre _ post hsplit
  cases hunused

/-- A call that has funded `l` and asked for its amount: the record depends on
the answer. -/
structure Asked (record : SwapRecord) (terms : NegotiatedTerms) (s : SwapRecord)
    (t pre : List StepEvent)
    (l : Locator) (reported : Except PyErr PyObj) : Prop where
  start : record.state = .negotiated
  events : pre ++ [fundEvent record terms l,
    .call record (.lockedAmount l) reported] <+: t
  bound : Binds record terms l reported → s.counterchainLocator = some l ∧
    s.state = .btcLocked
  unbound : ¬ Binds record terms l reported → s = record

/-- Where a call of `taker_funds_btc` has got to. -/
def FundOutcome (record : SwapRecord) (terms : NegotiatedTerms) (s : SwapRecord)
    (t : List StepEvent) : Prop :=
  (Unfunded t ∧ s = record) ∨
    ∃ pre l reported, Asked record terms s t pre l reported

/-- With the right amount the locator is recorded, when it is of the record's
chain. -/
theorem recordAndAdvance_outcome (hstate : record.state = .negotiated)
    {pre : List StepEvent} {l : Locator}
    {amount : PyObj} (hamount : amount.ne (.int terms.valueAmount) = false)
    (hpre : pre ++ [fundEvent record terms l,
      .call record (.lockedAmount l) (.ok amount)] <+: t) :
    Meets Anything (fun _ s' t' => FundOutcome record terms s' t')
      (do
        recordCounterLock (.locator l)
        advanceRecord .takerFundsBtc
        persistAndReturn c) record t := by
  have hquiet : Permits Anything := fun _ _ _ _ _ => trivial
  unfold recordCounterLock
  simp only [meets_bind, meets_read, meets_lift, asLocator]
  -- a locator of another chain cannot be recorded at all
  by_cases hchain : l.chain = record.terms.counterChain
  · obtain ⟨record', hlock⟩ := withCounterLock_chain record l hchain
    obtain ⟨hst, -, hloc⟩ := SwapRecord.withCounterLock_ok hlock
    have hbinds : Binds record terms l (.ok amount) :=
      ⟨hchain, amount, rfl, hamount⟩
    have hadvance : advance record'.state .takerFundsBtc = .ok .btcLocked := by
      rw [hst, hstate]
      rfl
    rw [hlock]
    dsimp only
    rw [meets_write]
    refine ⟨trivial, ?_⟩
    unfold advanceRecord
    simp only [meets_bind, meets_read, meets_lift, hadvance, meets_write]
    refine ⟨trivial, (persistAndReturn_quiet hquiet).meets fun _ t' ht =>
      .inr ⟨pre, l, .ok amount, ?_⟩⟩
    refine ⟨hstate, (hpre.trans (List.prefix_append _ _)).trans
      ((List.prefix_append _ _).trans ht), fun _ => ?_,
      fun hnot => absurd hbinds hnot⟩
    exact ⟨hloc, rfl⟩
  · have herr : ∃ e, record.withCounterLock (some l) = .error e := by
      cases hlock : record.withCounterLock (some l) with
      | error e => exact ⟨e, rfl⟩
      | ok record' =>
        obtain ⟨-, hterms, hloc⟩ := SwapRecord.withCounterLock_ok hlock
        have hvalid := record'.locator_chain hloc
        rw [hterms] at hvalid
        exact absurd hvalid hchain
    obtain ⟨e, herr⟩ := herr
    rw [herr]
    exact .inr ⟨pre, l, .ok amount, hstate, hpre,
      fun h => absurd h.1 hchain, fun _ => rfl⟩

/-- From the funding on: the record takes the locator when the amount and the
chain are right, and stays as it was when they are not. -/
theorem fundAndRecord_outcome (hstate : record.state = .negotiated)
    (ht : Unfunded t) :
    Meets Anything (fun _ s' t' => FundOutcome record terms s' t')
      (do
        let locator ← fundAndBind terms
        recordCounterLock (.locator locator)
        advanceRecord .takerFundsBtc
        persistAndReturn c) record t := by
  rw [meets_bind]
  unfold fundAndBind
  rw [meets_bind, meets_invoke]
  intro r
  refine ⟨trivial, ?_⟩
  have hnone : (∀ l, r ≠ .ok (.locator l)) →
      Unfunded (t ++ [.call record (.fund terms) r]) := by
    intro hr s' terms' l hmem
    rcases List.mem_append.mp hmem with hmem | hmem
    · exact ht s' terms' l hmem
    · cases List.mem_singleton.mp hmem
      exact hr l rfl
  cases r with
  | error e => exact .inl ⟨hnone (fun l h => by cases h), rfl⟩
  | ok answer =>
    cases answer with
    | locator l =>
      dsimp only
      rw [meets_bind, meets_invoke]
      intro reported
      refine ⟨trivial, ?_⟩
      -- from here on both events are on the trace
      have hpre : t ++ [fundEvent record terms l,
          .call record (.lockedAmount l) reported] <+:
          t ++ [.call record (.fund terms) (.ok (.locator l))] ++
            [.call record (.lockedAmount l) reported] := by
        rw [List.append_assoc]
        exact List.prefix_refl _
      have hkept : ¬ Binds record terms l reported →
          FundOutcome record terms record
          (t ++ [.call record (.fund terms) (.ok (.locator l))] ++
            [.call record (.lockedAmount l) reported]) :=
        fun hnot => .inr ⟨t, l, reported, hstate, hpre,
          fun h => absurd h hnot, fun _ => rfl⟩
      cases reported with
      | error e =>
        refine hkept fun h => ?_
        obtain ⟨-, amount, h, -⟩ := h
        cases h
      | ok amount =>
        dsimp only
        unfold Method.refuseIf
        rw [meets_bind, meets_lift, Pyrxd.refuseIf]
        by_cases hne : amount.ne (.int terms.valueAmount) = true
        · rw [if_pos hne]
          refine hkept fun h => ?_
          obtain ⟨-, amount', h, hsame⟩ := h
          cases h
          rw [hne] at hsame
          cases hsame
        · rw [if_neg hne]
          exact recordAndAdvance_outcome hstate (Bool.eq_false_iff.mpr hne) hpre
    | _ => exact .inl ⟨hnone (fun l h => by cases h), rfl⟩

/-- A part in front of the funding that funds nothing. -/
theorem meets_unfunded {α β : Type} {p : Method α} {f : α → Method β}
    {s : SwapRecord}
    {Q : Except PyErr β → SwapRecord → List StepEvent → Prop}
    (hp : Quiet (Pool.Unused funded) p)
    (ht : Obeys (Pool.Unused funded) t)
    (hok : ∀ a t', Obeys (Pool.Unused funded) t' → Meets Anything Q (f a) s t')
    (herr : ∀ e t', Obeys (Pool.Unused funded) t' → Q (.error e) s t') :
    Meets Anything Q (p >>= f) s t := by
  rw [meets_bind]
  refine meets_weaken (fun _ _ _ => trivial) p
    (meets_mono ?_ p (meets_obeys p ht (hp s t)))
  rintro r s' t' ⟨⟨rfl, -⟩, hobeys⟩
  cases r with
  | ok a => exact hok a t' hobeys
  | error e => exact herr e t' hobeys

/-- **How a call of `taker_funds_btc` leaves the record**, whatever the
collaborators do. -/
theorem takerFundsBtc_outcome (now : Option Int) :
    Meets Anything (fun _ s' t' => FundOutcome record terms s' t')
      (takerFundsBtc c terms now) record [] := by
  have hstop : ∀ {t'}, Obeys (Pool.Unused funded) t' →
      FundOutcome record terms record t' :=
    fun h => .inl ⟨unfunded_of_unused h, rfl⟩
  unfold takerFundsBtc
  rw [meets_bind]
  refine guardState_meets (fun hst => ?_) fun _ => hstop (obeys_nil _)
  have hstate : record.state = .negotiated := List.mem_singleton.mp hst
  dsimp only
  refine meets_unfunded (preBtcLockCheck_quiet unused_permits terms now)
    (obeys_nil _) (fun gate t1 h1 => ?_)
    fun _ _ h => hstop h
  refine meets_unfunded (refuseIf_quiet _ _) h1 (fun _ t2 h2 => ?_)
    fun _ _ h => hstop h
  refine meets_unfunded (persistRecord_quiet unused_permits false) h2
    (fun _ t3 h3 => ?_) fun _ _ h => hstop h
  refine meets_unfunded (reserveHashlock_quiet unused_permits terms) h3
    (fun _ t4 h4 => ?_) fun _ _ h => hstop h
  exact fundAndRecord_outcome hstate (unfunded_of_unused h4)

/-- A call funds at most once. -/
theorem funding_unique {env : Env} {now : Option Int}
    {pre pre' : List StepEvent} {s s' : SwapRecord}
    {terms₁ terms₂ : NegotiatedTerms} {r r' : Except PyErr PyObj}
    (h : pre ++ [.call s (.fund terms₁) r] <+:
      ((takerFundsBtc c terms now).run env record []).trace)
    (h' : pre' ++ [.call s' (.fund terms₂) r'] <+:
      ((takerFundsBtc c terms now).run env record []).trace) :
    pre ++ [(.call s (.fund terms₁) r : StepEvent)] =
    pre' ++ [.call s' (.fund terms₂) r'] := by
  have hobeys : Obeys ReserveFirst
      ((takerFundsBtc c terms now).run env record []).trace :=
    (run_meets env _ record [] (obeys_nil _)
      (takerFundsBtc_reserveFirst terms now)).1
  -- of two fundings the later one would find the earlier one in front of it
  have hfirst : ∀ {pre pre' : List StepEvent} {s s' : SwapRecord}
      {terms₁ terms₂ : NegotiatedTerms}
      {r r' : Except PyErr PyObj},
      pre ++ [.call s (.fund terms₁) r] <+:
        ((takerFundsBtc c terms now).run env record []).trace →
      pre' ++ [.call s' (.fund terms₂) r'] <+:
        ((takerFundsBtc c terms now).run env record []).trace →
      ¬ pre.length < pre'.length := by
    intro pre pre' s s' terms₁ terms₂ r r' h h' hlt
    have hbefore : pre ++ [.call s (.fund terms₁) r] <+: pre' := by
      refine List.prefix_of_prefix_length_le h
        ((List.prefix_append pre' _).trans h') ?_
      rw [List.length_append, List.length_singleton]
      exact hlt
    obtain ⟨post, hpost⟩ := h'
    have hsplit : ((takerFundsBtc c terms now).run env record []).trace =
        pre' ++ .call s' (.fund terms₂) r' :: post := by
      rw [← hpost, List.append_assoc]
      rfl
    have hnone := (hobeys pre' _ post hsplit terms₂.hashlock rfl).2
      (.call s (.fund terms₁) r)
      (hbefore.subset (List.mem_append_right _ (List.mem_singleton_self _)))
    cases (show some terms₁.hashlock = none from hnone)
  have hle := hfirst h h'
  have hge := hfirst h' h
  refine (List.prefix_of_prefix_length_le h h' ?_).eq_of_length ?_
  · rw [List.length_append, List.length_append, List.length_singleton,
      List.length_singleton]
    omega
  · rw [List.length_append, List.length_append, List.length_singleton,
      List.length_singleton]
    omega

end Body

/-- **A funded locator is kept exactly when it binds.** In every call of
`taker_funds_btc` in which `counter_leg.fund` has returned `l`, returning or
raising, the record afterwards carries `l`, so that it can be refunded, if and
only if the leg reports the negotiated amount and `l` is of the record's own
chain. -/
theorem funded_locator_kept_iff (c : Coordinator) (record : SwapRecord)
    (terms : NegotiatedTerms)
    (now : Option Int) (env : Env) (pre : List StepEvent)
    (s : SwapRecord) (terms' : NegotiatedTerms)
    (l : Locator) (hfund : pre ++ [fundEvent s terms' l] <+:
      ((takerFundsBtc c terms now).run env record []).trace) :
    (((takerFundsBtc c terms now).run env record []).state.counterchainLocator =
      some l ↔
      Binds record terms l
        (env (pre ++ [fundEvent s terms' l]) (.lockedAmount l)) ∨
        record.counterchainLocator = some l) ∧
    (Refundable ((takerFundsBtc c terms now).run env record []).state l ↔
      Binds record terms l (env (pre ++
        [fundEvent s terms' l]) (.lockedAmount l))) := by
  rcases (run_meets env _ record [] (obeys_nil _)
    (takerFundsBtc_outcome now)).2 with ⟨hnone, -⟩ |
    ⟨pre', l', reported, hasked⟩
  · exact absurd (hfund.subset
      (List.mem_append_right _ (List.mem_singleton_self _))) (hnone s terms' l)
  have hprefix : pre' ++ [fundEvent record terms l'] <+:
      ((takerFundsBtc c terms now).run env record []).trace := by
    refine List.IsPrefix.trans ?_ hasked.events
    exact ⟨[_], by rw [List.append_assoc]; rfl⟩
  have hsame := funding_unique hfund hprefix
  rw [show pre ++ [fundEvent s terms' l] =
    pre' ++ [fundEvent record terms l'] from hsame]
  obtain ⟨-, hevent⟩ := List.append_inj' hsame rfl
  have hl : l = l' := by
    injection hevent with hevent
    injection hevent with _ _ hr
    injection hr with hr
    injection hr
  -- the answer is what the environment gives at that point
  have hreported : reported = env (pre' ++ [fundEvent record terms l'])
      (.lockedAmount l') := by
    obtain ⟨post, hpost⟩ := hasked.events
    refine run_obeys_env env (takerFundsBtc c terms now) record []
      (obeys_nil _) _ _ post ?_ record _ reported rfl
    rw [← hpost, List.append_assoc, List.append_assoc]
    rfl
  rw [hl, ← hreported]
  by_cases hbinds : Binds record terms l' reported
  · obtain ⟨hloc, hst⟩ := hasked.bound hbinds
    refine ⟨⟨fun _ => .inl hbinds, fun _ => hloc⟩, fun _ => hbinds,
      fun _ => ⟨hloc, ?_⟩⟩
    rw [hst]
    exact List.mem_cons_self
  · have hrecord := hasked.unbound hbinds
    rw [hrecord]
    refine ⟨⟨fun h => .inr h, fun h => h.resolve_left hbinds⟩, fun h => ?_,
      fun h => absurd h hbinds⟩
    obtain ⟨-, hmem⟩ := h
    rw [hasked.start] at hmem
    cases hmem with
    | tail _ hmem => cases hmem with
      | tail _ hmem => cases hmem

/-- Collaborators that let a BTC funding through, with a leg that reports
`amount`. -/
def reportingEnv (amount : Int) : Env := fun history op =>
  match op with
  | .lockedAmount _ => .ok (.int amount)
  | op => sampleEnv history op

/-- What happens before the funding in a call with these collaborators. -/
def sampleBeforeFunding : List StepEvent :=
  [.call sampleBtcRecord (.hasSeen sampleBtcTerms.hashlock) (.ok (.bool false)),
   .call sampleBtcRecord (.deriveFundingScriptpubkey sampleBtcTerms)
     (.ok .none),
   .call sampleBtcRecord (.promisedFundingScriptpubkey sampleBtcTerms)
     (.ok .none),
   .call sampleBtcRecord (.persist sampleBtcRecord false) (.ok .none),
   .call sampleBtcRecord (.reserve sampleBtcTerms.hashlock) (.ok (.bool true))]

/-- The statement at the sample terms. -/
theorem funded_locator_kept_sample :
    Refundable ((takerFundsBtc sampleCoordinator sampleBtcTerms none).run
      (reportingEnv 100000)
      sampleBtcRecord []).state (.btc sampleBtcLocator) :=
  (funded_locator_kept_iff sampleCoordinator sampleBtcRecord sampleBtcTerms none
    (reportingEnv 100000) sampleBeforeFunding sampleBtcRecord sampleBtcTerms
    (.btc sampleBtcLocator) ⟨_, rfl⟩).2.mpr
      ⟨rfl, .int 100000, rfl, by decide⟩

/-- One satoshi less than negotiated is reported for a lock that has been
broadcast: the call raises, and the record is in NEGOTIATED without a
locator. -/
theorem funded_locator_lost :
    sampleCoordinator.init sampleBtcRecord = .ok () ∧
    fundEvent sampleBtcRecord sampleBtcTerms (.btc sampleBtcLocator) ∈
      ((takerFundsBtc sampleCoordinator sampleBtcTerms none).run
        (reportingEnv 99999) sampleBtcRecord []).trace ∧
        ((takerFundsBtc sampleCoordinator sampleBtcTerms none).run
        (reportingEnv 99999) sampleBtcRecord []).state.state = .negotiated ∧
    ((takerFundsBtc sampleCoordinator sampleBtcTerms none).run
      (reportingEnv 99999)
      sampleBtcRecord []).state.counterchainLocator = none := by
  refine ⟨by decide, ?_, by decide, by decide⟩
  have hprefix : sampleBeforeFunding ++
      [fundEvent sampleBtcRecord sampleBtcTerms (.btc sampleBtcLocator)] <+:
      ((takerFundsBtc sampleCoordinator sampleBtcTerms none).run
      (reportingEnv 99999) sampleBtcRecord []).trace :=
    ⟨_, rfl⟩
  exact hprefix.subset (List.mem_append_right _ (List.mem_singleton_self _))

end Pyrxd.Gravity
