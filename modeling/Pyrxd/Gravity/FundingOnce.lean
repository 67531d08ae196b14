import Pyrxd.Gravity.CoordinatorSafety
import Pyrxd.Gravity.SeenStore

/-!
# A hashlock is funded once

Any number of coordinators share one durable seen-store. Their step calls
interleave at every call out, calls are retried after any exception, processes
die and come back with any record. `taker_funds_btc` probes the store early
(advisory) and reserves `H` right before it funds (authoritative); the
reservation is the one-shot permit of `Pyrxd.Lib.Interleave`, and the other
eight steps never fund, which `body_safe` already says.
-/

namespace Pyrxd.Gravity

open Pyrxd.Lib Pyrxd.Lib.Prog Pyrxd.Lib.Pool

/-- The hashlock a call locks value under. -/
def funded : Op → Option Bytes
  | .fund terms => some terms.hashlock
  | _ => none

/-- Reserve first, fund once. -/
abbrev ReserveFirst : List StepEvent → StepEvent → Prop :=
  OnePermit DurableSeenStore.granted funded

theorem funded_of_unguarded {op : Op} (h : op.guarded = false) :
    funded op = none := by
  cases op <;> first | rfl | cases h

/-- Calls that are not guarded use no grant. -/
theorem unused_permits : Permits (Unused funded) :=
  fun _ _ _ _ h => funded_of_unguarded h

theorem reserveFirst_permits : Permits ReserveFirst := by
  intro s t op r h k hk
  rw [show eventUse funded (.call s op r : StepEvent) = none
    from funded_of_unguarded h] at hk
  cases hk

theorem reserveFirst_write {s s' : SwapRecord} {t : List StepEvent} :
    ReserveFirst t (.write s s') := by
  intro k hk
  cases hk

section Body

variable {c : Coordinator} {s : SwapRecord} {t : List StepEvent}

/-- Past the reservation the store has granted `H` to this call, and nothing is
funded yet. -/
theorem reserveHashlock_grants {terms : NegotiatedTerms}
    {Q : Except PyErr Unit → SwapRecord → List StepEvent → Prop}
    (ht : Obeys (Unused funded) t)
    (hok : ∀ answer, answer.truthy = true → Obeys (Unused funded)
        (t ++ [.call s (.reserve terms.hashlock) (.ok answer)]) →
      Q (.ok ()) s (t ++ [.call s (.reserve terms.hashlock) (.ok answer)]))
    (herr : ∀ e t', Q (.error e) s t') :
    Meets ReserveFirst Q (reserveHashlock terms) s t := by
  unfold reserveHashlock Method.catchException
  rw [meets_bind, meets_tryCatch, meets_invoke]
  intro r
  refine ⟨reserveFirst_permits _ _ _ _ rfl, ?_⟩
  cases r with
  | error e => cases e <;> exact herr _ _
  | ok answer =>
    refine refuseIf_meets (fun h => ?_) fun e => herr e _
    exact hok answer (by simpa using h) (obeys_snoc ht rfl)

/-- The one place that funds: the permit is there, and it has not been used. -/
theorem fundAndBind_reserved {terms : NegotiatedTerms} {answer : PyObj}
    {Q : Except PyErr Locator → SwapRecord → List StepEvent → Prop}
    (hanswer : answer.truthy = true)
    (hmem : .call s (.reserve terms.hashlock) (.ok answer) ∈ t)
    (ht : Obeys (Unused funded) t)
    (hok : ∀ l t', Q (.ok l) s t') (herr : ∀ e t', Q (.error e) s t') :
    Meets ReserveFirst Q (fundAndBind terms) s t := by
  have hpermit : ∀ r, ReserveFirst t (.call s (.fund terms) r) := by
    intro r k hk
    cases hk
    refine ⟨⟨s, _, _, hmem, ?_⟩, fun u hu => ?_⟩
    · simp [DurableSeenStore.granted, hanswer]
    · obtain ⟨pre, post, hsplit⟩ := List.append_of_mem hu
      exact ht pre u post hsplit
  unfold fundAndBind
  rw [meets_bind, meets_invoke]
  intro r
  refine ⟨hpermit r, ?_⟩
  cases r with
  | error e => exact herr e _
  | ok fundAnswer =>
    cases fundAnswer with
    | locator l =>
      refine (invoke_quiet reserveFirst_permits rfl).meets_bind
        (fun amount t' _ => ?_)
        fun e t' _ => herr e t'
      rw [meets_bind]
      exact refuseIf_meets (fun _ => hok l _) fun e => herr e _
    | _ => exact herr _ _

/-- The funding step reserves before it funds. -/
theorem takerFundsBtc_reserveFirst (terms : NegotiatedTerms)
    (now : Option Int) :
    Meets ReserveFirst Anyhow (takerFundsBtc c terms now) s [] := by
  unfold takerFundsBtc
  rw [meets_bind]
  refine guardState_meets (fun _ => ?_) fun _ => trivial
  dsimp only
  rw [meets_bind]
  -- gate and intent write use nothing; the trace stays clean up to the
  -- reservation
  refine meets_unused (preBtcLockCheck_quiet unused_permits terms now)
    (obeys_nil _)
    fun r t1 h1 => ?_
  cases r with
  | error e => trivial
  | ok gate =>
    dsimp only
    rw [meets_bind]
    refine refuseIf_meets (fun _ => ?_) fun _ => trivial
    dsimp only
    rw [meets_bind]
    refine meets_unused (persistRecord_quiet unused_permits false) h1
      fun r t2 h2 => ?_
    cases r with
    | error e => trivial
    | ok _ =>
      dsimp only
      rw [meets_bind]
      refine reserveHashlock_grants h2 (fun answer htrue h3 => ?_)
        fun _ _ => trivial
      dsimp only
      rw [meets_bind]
      refine fundAndBind_reserved htrue
        (List.mem_append_right _ (List.mem_singleton_self _)) h3
        (fun l t4 => ?_) fun _ _ => trivial
      dsimp only
      rw [meets_bind]
      refine recordCounterLock_meets (fun l' s' _ _ => ⟨reserveFirst_write, ?_⟩)
        fun _ => trivial
      dsimp only
      rw [meets_bind]
      refine advanceRecord_meets (fun d _ => ⟨reserveFirst_write, ?_⟩)
        fun _ => trivial
      exact (persistAndReturn_quiet reserveFirst_permits).meets
        fun _ _ _ => trivial

/-- A step that is not the funding step funds nothing. -/
theorem reserveFirst_of_safe {call : StepCall}
    (hcall : ∀ terms now, call ≠ .takerFundsBtc terms now)
    {e : StepEvent} (h : Safe c call t e) : ReserveFirst t e := by
  intro k hk
  cases e with
  | write s s' => cases hk
  | call s op r =>
    cases op with
    | fund terms =>
      obtain ⟨now, hc⟩ := h
      exact absurd hc (hcall terms now)
    | _ => cases hk

/-- Every step reserves before it funds, and funds at most once. -/
theorem body_reserveFirst (call : StepCall) :
    Meets ReserveFirst Anyhow (call.body c) s [] := by
  by_cases hcall : ∃ terms now, call = .takerFundsBtc terms now
  · obtain ⟨terms, now, rfl⟩ := hcall
    exact takerFundsBtc_reserveFirst terms now
  · have hne : ∀ terms now, call ≠ .takerFundsBtc terms now :=
      fun terms now h => hcall ⟨terms, now, h⟩
    exact meets_weaken (fun _ _ h => reserveFirst_of_safe hne h) _
      (body_safe call)

end Body

/-! ## Any number of coordinators -/

/-- A coordinator may be asked for any of its steps, with any arguments. -/
def AnyStep {ι : Type} (c : ι → Coordinator) (i : ι)
    (p : Method SwapRecord) : Prop :=
  ∃ call : StepCall, p = call.body (c i)

/-- What the log of a run shows about `counter_leg.fund` under `h`. -/
structure FundedOnce (h : Bytes)
    (log : List (Entry Op PyObj PyErr DurableSeenStore)) : Prop where
  /-- It is invoked at most once. -/
  once : log.countP (fun e => Entry.Uses funded h e) ≤ 1
  /-- When it is, the reservation is in the store, made by the same call. -/
  reserved : ∀ pre e post, log = pre ++ e :: post → Entry.Uses funded h e →
    h ∈ e.store.rows ∧
      ∃ g ∈ pre, g.tag = e.tag ∧ g.op = .reserve h ∧
        ∃ answer, g.answer = some (.ok answer) ∧ answer.truthy = true

/-- **One funding per hashlock.** For any coordinators over one seen-store with
any rows, and any schedule of their steps, retries and restarts. -/
theorem funded_once {ι : Type} [DecidableEq ι] (c : ι → Coordinator)
    (store : DurableSeenStore)
    (record : ι → SwapRecord)
    (pool : Pool ι Op PyObj SwapRecord PyErr SwapRecord DurableSeenStore)
    (hrun : Reachable (AnyStep c) DurableSeenStore.Serves
      DurableSeenStore.Outlives
      (start store record) pool) (h : Bytes) :
    FundedOnce h pool.log := by
  have : Nonempty PyObj := ⟨.none⟩
  have hbodies : ∀ i p s, AnyStep c i p →
      Meets ReserveFirst (fun _ _ _ => True) p s [] := by
    rintro i p s ⟨call, rfl⟩
    exact body_reserveFirst call
  have hledger := reachable_once DurableSeenStore.grants hbodies hrun
  refine ⟨hledger.once h, fun pre e post hsplit huse => ?_⟩
  -- the grant behind a funding is an answered `reserve` of the same hashlock
  obtain ⟨hrow, g, hg, htag, r, hans, hgrant⟩ :=
    hledger.backed pre e post hsplit h huse
  obtain ⟨hop, answer, rfl, htrue⟩ := DurableSeenStore.granted_reserve hgrant
  exact ⟨hrow, g, hg, htag, hop, answer, hans, htrue⟩

/-- The store answers for itself, `sampleEnv` for everyone else. -/
def sampleAnswerer (st : DurableSeenStore) (op : Op) :
    Except PyErr PyObj × DurableSeenStore :=
  match op with
  | .reserve h => ((st.reserve h).1.map .bool, (st.reserve h).2)
  | .hasSeen h => ((st.hasSeen h).map .bool, st)
  | op => (sampleEnv [] op, st)

/-- The sample store answers as the store does. -/
theorem sampleAnswerer_serves (st : DurableSeenStore) (op : Op) :
    st.Serves op (sampleAnswerer st op).1 (sampleAnswerer st op).2 := by
  cases op with
  | reserve h => exact .reserve h
  | hasSeen h => exact .hasSeen h
  | _ => exact .elsewhere _ _ rfl

/-- Two coordinators, both asked to fund the same terms. -/
def sampleRace :
    Pool Bool Op PyObj SwapRecord PyErr SwapRecord DurableSeenStore :=
  ((start ⟨∅⟩ fun _ => sampleBtcRecord).request false
    (takerFundsBtc sampleCoordinator sampleBtcTerms none)).request true
    (takerFundsBtc sampleCoordinator sampleBtcTerms none)

/-- The sample race is reachable. -/
theorem sampleRace_reachable :
    Reachable (AnyStep fun _ : Bool => sampleCoordinator)
      DurableSeenStore.Serves
      DurableSeenStore.Outlives (start ⟨∅⟩ fun _ =>
        sampleBtcRecord) sampleRace := by
  have hcall : ∀ i, AnyStep (fun _ : Bool => sampleCoordinator) i
      (takerFundsBtc sampleCoordinator sampleBtcTerms none) :=
    fun _ => ⟨.takerFundsBtc sampleBtcTerms none, rfl⟩
  exact (Relation.ReflTransGen.single (.invoke rfl (hcall false))).tail
    (.invoke rfl (hcall true))

/-- Two coordinators in lockstep: both see `H` unused, one funds. -/
theorem funded_once_race :
    FundedOnce sampleBtcTerms.hashlock
      (play sampleAnswerer (List.replicate 40 [true,
        false]).flatten sampleRace).log ∧
    (play sampleAnswerer (List.replicate 40 [true,
      false]).flatten sampleRace).log.countP
      (fun e => Entry.Uses funded sampleBtcTerms.hashlock e) = 1 :=
  ⟨funded_once (fun _ => sampleCoordinator) ⟨∅⟩ (fun _ => sampleBtcRecord) _
    (sampleRace_reachable.trans (play_reachable sampleAnswerer_serves _ _))
      _, by decide +kernel⟩

end Pyrxd.Gravity
