import Pyrxd.Gravity.StepRules

/-!
# Which terms get funded

`taker_funds_btc(terms)` gates, reserves and funds its *argument*; every later
step reads `record.terms`. Nothing compares the two. This module says exactly
when that is harmless: `takerFundsBtc_recordTerms_iff`.

`Gatable` is the part of the pre-lock gate that does not depend on what the
collaborators answer. It is necessary for a successful call
(`takerFundsBtc_needs`), and sufficient for some collaborators to let the call
through (`takerFundsBtc_agreeable`).
-/

namespace Pyrxd.Gravity

open Pyrxd.Lib Pyrxd.Lib.Prog Pyrxd.Btc Pyrxd.Glyph

/-- A REF the gate can authenticate at all. -/
def RefGatable (c : Coordinator) (terms : NegotiatedTerms) : Prop :=
  match terms.assetVariant with
  | .rxd => terms.genesisRef = []
  | _ => c.hasResolveRef = true

/-- A credential requirement the gate can see met. -/
def CredentialGatable (c : Coordinator) (terms : NegotiatedTerms) : Prop :=
  terms.credentialRef = [] ∨
    c.hasCredentialResolver = true ∧
      ∃ cred, bindCredential c terms cred = .ok none

/-- Terms the gate would pass for some answers of the collaborators. -/
structure Gatable (c : Coordinator) (terms : NegotiatedTerms)
    (now : Option Int) : Prop where
  ref : RefGatable c terms
  credential : CredentialGatable c terms
  timelock : timelockGate c terms now = .ok ()

/-- The call returned, and the record is in BTC_LOCKED. -/
def Funds (c : Coordinator) (terms : NegotiatedTerms)
    (now : Option Int) (env : Env)
    (record : SwapRecord) : Prop :=
  (∃ r, ((takerFundsBtc c terms now).run env record []).result = .ok r) ∧
    ((takerFundsBtc c terms now).run env record []).state.state = .btcLocked

/-! ## What a success needs -/

section Needs

variable {c : Coordinator} {s : SwapRecord} {t : List StepEvent}
  {terms : NegotiatedTerms}
  {now : Option Int}

/-- A monitor that allows everything. -/
def Anything : List StepEvent → StepEvent → Prop := fun _ _ => True

/-- A part of the gate that goes on only if `C`, and otherwise fails the gate or
raises. -/
def GoesOnOnlyIf (C : Prop) (r : Except PyErr (Option PreBtcLockGate)) : Prop :=
  (r = .ok none → C) ∧ ∀ gate, r = .ok (some gate) → gate.ok = false

theorem goesOnOnlyIf_error (C : Prop) (e : PyErr) : GoesOnOnlyIf C (.error e) :=
  ⟨fun h => (by cases h), fun _ h => (by cases h)⟩

/-- Passing does, when the condition holds. -/
theorem goesOnOnlyIf_none {C : Prop} (h : C) : GoesOnOnlyIf C (.ok none) :=
  ⟨fun _ => h, fun _ h => (by cases h)⟩

theorem goesOnOnlyIf_fail (C : Prop) (reason : String) :
    GoesOnOnlyIf C (.ok (some (.fail reason))) := by
  refine ⟨fun h => (by cases h), fun gate h => ?_⟩
  cases h
  rfl

/-- The gate as a whole passes only if `D`. -/
def PassesOnlyIf (D : Prop) : Except PyErr PreBtcLockGate → SwapRecord →
    List StepEvent → Prop :=
  fun r _ _ => ∀ gate, r = .ok gate → gate.ok = true → D

theorem passesOnlyIf_fail (D : Prop) {gate : PreBtcLockGate}
    (h : gate.ok = false) :
    PassesOnlyIf D (.ok gate) s t := by
  intro gate' hg hok
  cases hg
  rw [h] at hok
  cases hok

/-- A part of the gate in sequence: what follows it may assume that it went
on. -/
theorem passesOnlyIf_bind {C D : Prop} {part : Method (Option PreBtcLockGate)}
    {rest : Option PreBtcLockGate → Method PreBtcLockGate}
    (hpart : Meets Anything (fun r _ _ => GoesOnOnlyIf C r) part s t)
    (hstop : ∀ gate, rest (some gate) = pure gate)
    (hgo : C → ∀ s t, Meets Anything (PassesOnlyIf D) (rest none) s t) :
    Meets Anything (PassesOnlyIf D) (part >>= rest) s t := by
  rw [meets_bind]
  refine meets_mono (fun r s' t' h => ?_) _ hpart
  cases r with
  | error e => exact fun gate hg => by cases hg
  | ok refused =>
    cases refused with
    | some gate =>
      dsimp only
      rw [hstop gate]
      exact passesOnlyIf_fail D (h.2 gate rfl)
    | none => exact hgo (h.1 rfl) s' t'

/-- A verified reference was gatable. -/
theorem verifyRefAuthenticity_needs {n : Int} {ph : Option Bytes} :
    Meets Anything (fun r _ _ => r = .ok () → RefGatable c terms)
      (verifyRefAuthenticity c terms.genesisRef terms.assetVariant n ph) s
        t := by
  unfold verifyRefAuthenticity RefGatable
  cases terms.assetVariant with
  | rxd => exact refuseIf_meets (fun h _ => not_not.mp h) fun e h => by cases h
  | ft | nft =>
    dsimp only
    rw [meets_bind]
    refine refuseIf_meets (fun _ => ?_) fun e h => by cases h
    dsimp only
    rw [meets_bind]
    refine refuseIf_meets (fun _ => ?_) fun e h => by cases h
    dsimp only
    rw [meets_bind]
    refine refuseIf_meets (fun h => ?_) fun e h => by cases h
    -- past this check the requirement holds, whatever the indexer says
    have hres : c.hasResolveRef = true := by simpa using h
    exact meets_of_forall (fun _ _ => trivial) (fun _ _ _ _ => hres) _

/-- A bound credential was one the gate can check. -/
theorem bindCredential_goesOn (hres : c.hasCredentialResolver = true)
    (cred : ResolvedCredential) :
    GoesOnOnlyIf (CredentialGatable c terms) (bindCredential c terms cred) := by
  refine ⟨fun h => .inr ⟨hres, cred, h⟩, fun gate h => ?_⟩
  unfold bindCredential at h
  obtain ⟨owner, -, h⟩ := bind_ok.mp h
  obtain ⟨expected, -, h⟩ := bind_ok.mp h
  split at h
  · cases h
    rfl
  · cases h

/-- So was one that passed the credential gate. -/
theorem credentialGate_needs :
    Meets Anything (fun r _ _ => GoesOnOnlyIf (CredentialGatable c terms) r)
      (credentialGate c terms) s t := by
  unfold credentialGate
  rw [meets_ite]
  refine ⟨fun h => goesOnOnlyIf_none (.inl h), fun _ => ?_⟩
  rw [meets_ite]
  refine ⟨fun _ => goesOnOnlyIf_fail _ _, fun hres => ?_⟩
  refine catchException_meets ?_
  rw [meets_bind, meets_invoke]
  intro r
  refine ⟨trivial, ?_⟩
  cases r with
  | error e =>
    exact ⟨by cases e <;> exact goesOnOnlyIf_fail _ _, goesOnOnlyIf_error _ _⟩
  | ok answer =>
    cases answer with
    | none => exact goesOnOnlyIf_fail _ _
    | credential cred =>
      dsimp only
      rw [meets_lift]
      have hb : GoesOnOnlyIf (CredentialGatable c terms)
          (bindCredential c terms cred) :=
        bindCredential_goesOn (by simpa using hres) cred
      cases hx : bindCredential c terms cred with
      | error e =>
        exact ⟨by cases e <;> exact goesOnOnlyIf_fail _ _, goesOnOnlyIf_error _ _⟩
      | ok gate => rwa [hx] at hb
    | _ => exact ⟨goesOnOnlyIf_fail _ _, goesOnOnlyIf_error _ _⟩

/-- The freshness gate asks nothing of the arguments. -/
theorem freshnessGate_needs :
    Meets Anything (fun r _ _ => GoesOnOnlyIf True r)
      (freshnessGate terms) s t := by
  refine catchException_meets ?_
  rw [meets_bind, meets_invoke]
  intro r
  refine ⟨trivial, ?_⟩
  cases r with
  | error e => exact ⟨goesOnOnlyIf_fail _ _, goesOnOnlyIf_error _ _⟩
  | ok seen =>
    dsimp only
    rw [meets_ite]
    exact ⟨fun _ => goesOnOnlyIf_fail _ _, fun _ => goesOnOnlyIf_none trivial⟩

/-- The gate passes only gatable terms. -/
theorem preBtcLockCheck_needs :
    Meets Anything (PassesOnlyIf (Gatable c terms now))
      (preBtcLockCheck c terms now) s t := by
  unfold preBtcLockCheck
  have href : Meets Anything (fun r _ _ => GoesOnOnlyIf (RefGatable c terms) r)
      (Method.catchValidation
        (verifyRefAuthenticity c terms.genesisRef terms.assetVariant
          c.config.minRefConfirmations
          >>= fun _ => return none)
        fun msg => pure (some (.fail
          ("REF authenticity failed; fail-closed (" ++ msg ++ ")")))) s t := by
    refine catchValidation_meets ?_
    rw [meets_bind]
    refine meets_mono (fun r s' t' h => ?_) _ verifyRefAuthenticity_needs
    cases r with
    | error e => exact ⟨fun m => goesOnOnlyIf_fail _ _, goesOnOnlyIf_error _ _⟩
    | ok u => exact goesOnOnlyIf_none (h rfl)
  -- the three early returns, in the order of the source
  refine passesOnlyIf_bind href (fun _ => rfl) fun hRef s1 t1 => ?_
  refine passesOnlyIf_bind credentialGate_needs (fun _ => rfl)
    fun hCred s2 t2 => ?_
  refine passesOnlyIf_bind freshnessGate_needs (fun _ => rfl) fun _ s3 t3 => ?_
  dsimp only
  split
  · exact passesOnlyIf_fail _ rfl
  · exact fun gate hg => by cases hg
  · next htime =>
    exact meets_of_forall (fun _ _ => trivial) (fun _ _ _ _ _ _ => ⟨hRef,
      hCred, htime⟩) _

/-- A call that returns was made in NEGOTIATED, on gatable terms. -/
theorem takerFundsBtc_needs :
    Meets Anything (fun r _ _ => ∀ out, r = .ok out → s.state = .negotiated ∧
      Gatable c terms now)
      (takerFundsBtc c terms now) s t := by
  unfold takerFundsBtc
  rw [meets_bind]
  refine guardState_meets (fun hst => ?_) fun e out h => by cases h
  have hstate : s.state = .negotiated := by simpa [Step.validFrom] using hst
  dsimp only
  rw [meets_bind]
  refine meets_mono (fun r s' t' h => ?_) _ preBtcLockCheck_needs
  cases r with
  | error e => exact fun out h => by cases h
  | ok gate =>
    dsimp only
    rw [meets_bind]
    refine refuseIf_meets (fun hok => ?_) fun e out h => by cases h
    have hg := h gate rfl (by simpa using hok)
    exact meets_of_forall (fun _ _ => trivial) (fun _ _ _ _ _ => ⟨hstate, hg⟩) _

end Needs

/-! ## Collaborators that agree -/

/-- A locator of the given chain. -/
def sampleLocator : CounterChain → Locator
  | .btc => .btc sampleBtcLocator
  | .eth => .eth sampleEthLocator

/-- Collaborators that answer what the gate wants to hear: an indexer that knows
every ref, a fresh store, a leg that funds exactly `terms` on the record's
chain. -/
def agreeable (c : Coordinator) (record : SwapRecord) (terms : NegotiatedTerms)
    (credential : PyObj) :
    Op → Except PyErr PyObj
  | .resolveRef ref =>
    .ok (.resolvedRef ⟨some ref, true, none, some c.config.minRefConfirmations⟩)
  | .resolveCredential _ => .ok credential
  | .hasSeen _ => .ok (.bool false)
  | .reserve _ => .ok (.bool true)
  | .fund _ => .ok (.locator (sampleLocator record.terms.counterChain))
  | .lockedAmount _ => .ok (.int terms.valueAmount)
  | _ => .ok .none

section Agreeable

variable {c : Coordinator} {record s : SwapRecord} {terms : NegotiatedTerms}
  {credential : PyObj}
  {now : Option Int}

/-- A guard that does not fire is silent. -/
theorem refuseIf_eval {cond : Prop} [Decidable cond] {msg : String} (h : ¬ cond)
    {answer : Op → Except PyErr PyObj} :
    eval answer (Method.refuseIf cond msg) s = (.ok (), s) := by
  unfold Method.refuseIf
  rw [eval_lift, refuseIf_ok.mpr h]

/-- An agreeable reference passes. -/
theorem checkResolvedRef_agreeable (ref : Bytes) (n : Int) :
    checkResolvedRef ⟨some ref, true, none, some n⟩ ref n none = .ok () := by
  simp [checkResolvedRef, refuseIf]

/-- So the reference gate passes. -/
theorem verifyRefAuthenticity_agreeable (h : RefGatable c terms) :
    eval (agreeable c record terms credential)
      (verifyRefAuthenticity c terms.genesisRef terms.assetVariant
        c.config.minRefConfirmations) s =
      (.ok (), s) := by
  have hmin : ¬ c.config.minRefConfirmations < 0 :=
    not_lt.mpr c.config.minRefConfirmations_nonneg
  unfold verifyRefAuthenticity
  unfold RefGatable at h
  cases hv : terms.assetVariant with
  | rxd =>
    rw [hv] at h
    exact refuseIf_eval (not_not.mpr h)
  | ft | nft =>
    rw [hv] at h
    have href : ¬ terms.genesisRef = [] := terms.sound.genesisRef (by simp [hv])
    have hres : ¬ c.hasResolveRef = false := by simpa using h
    simp only [eval_bind, refuseIf_eval href, refuseIf_eval hmin,
      refuseIf_eval hres,
      Method.catchException, eval_tryCatch, eval_invoke, agreeable, eval_lift,
      checkResolvedRef_agreeable]

theorem credentialGate_agreeable (hnone : terms.credentialRef = [] ∨
      c.hasCredentialResolver = true ∧
      ∃ cred, credential = .credential cred ∧
        bindCredential c terms cred = .ok none) :
    eval (agreeable c record terms credential)
    (credentialGate c terms) s = (.ok none, s) := by
  unfold credentialGate
  rcases hnone with h | ⟨hres, cred, rfl, hbind⟩
  · rw [if_pos h, eval_pure]
  · split
    · rw [eval_pure]
    · simp only [hres, Bool.true_eq_false, if_false, Method.catchException,
        eval_tryCatch, eval_bind,
        eval_invoke, agreeable, eval_lift, hbind]

theorem freshnessGate_agreeable :
    eval (agreeable c record terms credential)
      (freshnessGate terms) s = (.ok none, s) := by
  simp [freshnessGate, Method.catchException, agreeable, PyObj.truthy]

theorem fundingSpkGate_agreeable :
    eval (agreeable c record terms credential)
      (fundingSpkGate terms) s = (.ok ⟨true, ""⟩, s) := by
  simp [fundingSpkGate, Method.catchException, agreeable, PyObj.ne]

/-- So the whole check passes in an agreeable world. -/
theorem preBtcLockCheck_agreeable (href : RefGatable c terms)
    (hcred : terms.credentialRef = [] ∨ c.hasCredentialResolver = true ∧
      ∃ cred, credential = .credential cred ∧
        bindCredential c terms cred = .ok none)
    (htime : timelockGate c terms now = .ok ()) :
    eval (agreeable c record terms credential) (preBtcLockCheck c terms now) s =
      (.ok ⟨true, ""⟩, s) := by
  simp only [preBtcLockCheck, Method.catchValidation, eval_bind, eval_tryCatch,
    verifyRefAuthenticity_agreeable href, eval_pure,
      credentialGate_agreeable hcred,
    freshnessGate_agreeable, htime, fundingSpkGate_agreeable]

theorem persistRecord_agreeable {shield : Bool} :
    eval (agreeable c record terms credential)
      (persistRecord c shield) s = (.ok (), s) := by
  simp only [persistRecord, eval_bind, eval_read]
  split <;> simp [agreeable]

/-- A record takes any locator of its own chain. -/
theorem withCounterLock_chain (r : SwapRecord) (l : Locator)
    (h : l.chain = r.terms.counterChain) :
    ∃ r', r.withCounterLock (some l) = .ok r' := by
  have hvalid : RecordFields.postInit
      { r.toRecordFields with counterchainLocator := some l } =
      .ok () := by
    refine RecordFields.postInit_ok.mpr ⟨fun l' hl' => ?_,
      (RecordFields.postInit_ok.mp r.valid).2⟩
    cases hl'
    exact h
  exact ⟨⟨_, hvalid⟩, SwapRecord.new_ok.mpr rfl⟩

/-- The sample locator is of the chain asked for. -/
theorem sampleLocator_chain (chain : CounterChain) :
    (sampleLocator chain).chain = chain := by
  cases chain <;> rfl

/-- Gatable terms, whatever the record's own are, get funded by agreeable
collaborators. -/
theorem takerFundsBtc_agreeable (hstate : record.state = .negotiated)
    (hgate : Gatable c terms now) :
    ∃ env, Funds c terms now env record := by
  obtain ⟨credential, hcred⟩ : ∃ credential : PyObj, terms.credentialRef = [] ∨
      c.hasCredentialResolver = true ∧
        ∃ cred, credential = .credential cred ∧
          bindCredential c terms cred = .ok none := by
    rcases hgate.credential with h | ⟨hres, cred, hbind⟩
    · exact ⟨.none, .inl h⟩
    · exact ⟨.credential cred, .inr ⟨hres, cred, rfl, hbind⟩⟩
  obtain ⟨record', hlock⟩ :=
    withCounterLock_chain record _
      (sampleLocator_chain record.terms.counterChain)
  -- in the agreeable world every gate passes, so the step runs to its end
  have hguard : ¬ record.state ∉
      Step.takerFundsBtc.validFrom := by simp [hstate, Step.validFrom]
  have hadvance : advance record'.state .takerFundsBtc = .ok .btcLocked := by
    rw [(SwapRecord.withCounterLock_ok hlock).1, hstate]
    rfl
  have hgateok : ¬ (⟨true, ""⟩ : PreBtcLockGate).ok = false := by simp
  have hreserved : ¬ (PyObj.bool true).truthy = false := by simp [PyObj.truthy]
  have hamount : ¬ (PyObj.int terms.valueAmount).ne (.int terms.valueAmount) =
      true := by
    simp [PyObj.ne]
  have heval : eval (agreeable c record terms credential)
      (takerFundsBtc c terms now) record =
      (.ok (record'.withState .btcLocked), record'.withState .btcLocked) := by
    simp only [takerFundsBtc, guardState, eval_bind,
      eval_read, eval_pure, refuseIf_eval hguard,
      preBtcLockCheck_agreeable hgate.ref hcred hgate.timelock,
      refuseIf_eval hgateok,
      persistRecord_agreeable, reserveHashlock, Method.catchException,
        eval_tryCatch, eval_invoke,
      agreeable, refuseIf_eval hreserved, fundAndBind, refuseIf_eval hamount,
        recordCounterLock,
      asLocator, eval_lift, hlock, eval_write, advanceRecord, hadvance,
        persistAndReturn]
  have hrun := run_eval (agreeable c record terms credential)
    (takerFundsBtc c terms now) record []
  rw [heval, Prod.mk.injEq] at hrun
  exact ⟨fun _ => agreeable c record terms credential,
    ⟨_, hrun.1⟩, by rw [hrun.2]; rfl⟩

end Agreeable

/-! ## The exact condition -/

/-- **Which calls keep the funding and the record apart.** A successful call
funds the record's own terms, whatever the collaborators do, exactly when the
argument is those terms or the call cannot succeed at all. -/
theorem takerFundsBtc_recordTerms_iff (c : Coordinator) (record : SwapRecord)
    (terms : NegotiatedTerms) (now : Option Int) :
    (∀ env, Funds c terms now env record → terms = record.terms) ↔
      terms = record.terms ∨ record.state ≠ .negotiated ∨
        ¬ Gatable c terms now := by
  constructor
  · intro h
    by_contra hnot
    push Not at hnot
    obtain ⟨hne, hstate, hgate⟩ := hnot
    obtain ⟨env, henv⟩ := takerFundsBtc_agreeable hstate hgate
    exact hne (h env henv)
  · rintro hcond env ⟨⟨out, hout⟩, -⟩
    obtain ⟨hstate, hgate⟩ :=
      (run_meets env (takerFundsBtc c terms now) record []
        (obeys_nil _) takerFundsBtc_needs).2 out hout
    rcases hcond with h | h | h
    · exact h
    · exact absurd hstate h
    · exact absurd hgate h

/-- The sample terms under another hashlock. -/
def sampleOtherTerms : NegotiatedTerms :=
  { sampleBtcTerms with hashlock := List.replicate 32 8, valid := rfl }

/-- A coordinator its constructor accepts funds an HTLC under a hashlock that is
not the record's, and the record moves on with its own. -/
theorem takerFundsBtc_other_terms :
    sampleCoordinator.init sampleBtcRecord = .ok () ∧
    Funds sampleCoordinator sampleOtherTerms none sampleEnv sampleBtcRecord ∧
    sampleOtherTerms.hashlock ≠ sampleBtcRecord.terms.hashlock ∧
    ((takerFundsBtc sampleCoordinator sampleOtherTerms none).run sampleEnv
      sampleBtcRecord []).state.terms = sampleBtcRecord.terms := by
  refine ⟨by decide, ⟨⟨_, rfl⟩, by decide⟩, by decide, by decide⟩

end Pyrxd.Gravity
