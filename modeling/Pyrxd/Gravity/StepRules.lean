import Pyrxd.Gravity.Steps

/-!
# Rules for the parts of a step

One rule per helper of `Pyrxd.Gravity.Steps`, for any monitor `P` that objects
to nothing but the three calls that hand value or the secret out of the
coordinator (`Op.guarded`). Proofs about steps use these and do not unfold the
helpers; when a helper changes, its rule is what has to be repaired.
-/

namespace Pyrxd.Gravity

open Pyrxd.Lib Pyrxd.Lib.Prog Pyrxd.Btc

/-- The calls a monitor may want to restrict: locking value, and handing `p` to
a leg. -/
def Op.guarded : Op → Bool
  | .fund _ => true
  | .claim _ _ => true
  | .claimAsset _ _ => true
  | _ => false

/-- What a monitor has to allow for the rules below. -/
def Permits (P : List StepEvent → StepEvent → Prop) : Prop :=
  ∀ s t op r, op.guarded = false → P t (.call s op r)

section Rules

variable {P : List StepEvent → StepEvent → Prop} {s : SwapRecord}
  {t : List StepEvent}
  {c : Coordinator}

/-! ## Parts that only look -/

theorem refuse_quiet {α : Type} (msg : String) :
    Quiet P (Method.refuse msg : Method α) :=
  quiet_raise _

theorem refuseIf_quiet (cond : Prop) [Decidable cond] (msg : String) :
    Quiet P (Method.refuseIf cond msg) := quiet_lift _

theorem catchException_quiet {α : Type} {body : Method α}
    {handler : PyErr → Method α}
    (hb : Quiet P body) (hh : ∀ e, Quiet P (handler e)) :
    Quiet P (Method.catchException body handler) := by
  refine quiet_tryCatch hb fun e => ?_
  cases e with
  | base m => exact quiet_raise _
  | validation m => exact hh _
  | other m => exact hh _

theorem catchValidation_quiet {α : Type} {body : Method α}
    {handler : String → Method α}
    (hb : Quiet P body) (hh : ∀ m, Quiet P (handler m)) :
    Quiet P (Method.catchValidation body handler) := by
  refine quiet_tryCatch hb fun e => ?_
  cases e with
  | validation m => exact hh m
  | other m => exact quiet_raise _
  | base m => exact quiet_raise _

theorem invoke_quiet (hP : Permits P) {op : Op} (h : op.guarded = false) :
    Quiet P (Prog.invoke op : Method PyObj) :=
  quiet_invoke fun s t r => hP s t op r h

/-- The reference gate is quiet. -/
theorem verifyRefAuthenticity_quiet (hP : Permits P) (ref : Bytes)
    (v : AssetVariant) (n : Int)
    (ph : Option Bytes) : Quiet P (verifyRefAuthenticity c ref v n ph) := by
  unfold verifyRefAuthenticity
  cases v with
  | rxd => exact refuseIf_quiet _ _
  | ft | nft =>
    refine quiet_bind (refuseIf_quiet _ _) fun _ => ?_
    refine quiet_bind (refuseIf_quiet _ _) fun _ => ?_
    refine quiet_bind (refuseIf_quiet _ _) fun _ => ?_
    refine quiet_bind (catchException_quiet (invoke_quiet hP rfl) fun e =>
      refuse_quiet _)
      fun resolved => ?_
    cases resolved <;> first | exact refuse_quiet _ | exact quiet_lift _

theorem credentialGate_quiet (hP : Permits P) (terms : NegotiatedTerms) :
    Quiet P (credentialGate c terms) := by
  unfold credentialGate
  refine quiet_ite (quiet_pure _) (quiet_ite (quiet_pure _) ?_)
  refine catchException_quiet (quiet_bind (invoke_quiet hP rfl) fun cred =>
    ?_) fun e => ?_
  · cases cred <;>
      first | exact quiet_pure _ | exact quiet_lift _ | exact quiet_raise _
  · cases e <;> exact quiet_pure _

theorem freshnessGate_quiet (hP : Permits P) (terms : NegotiatedTerms) :
    Quiet P (freshnessGate terms) := by
  refine catchException_quiet (quiet_bind (invoke_quiet hP rfl) fun seen => ?_)
    fun e => quiet_pure _
  exact quiet_ite (quiet_pure _) (quiet_pure _)

theorem fundingSpkGate_quiet (hP : Permits P) (terms : NegotiatedTerms) :
    Quiet P (fundingSpkGate terms) := by
  refine catchException_quiet ?_ fun e => quiet_pure _
  refine quiet_bind (invoke_quiet hP rfl) fun _ =>
    quiet_bind (invoke_quiet hP rfl) fun _ => ?_
  exact quiet_ite (quiet_pure _) (quiet_pure _)

/-- The whole gate changes nothing and locks nothing. -/
theorem preBtcLockCheck_quiet (hP : Permits P) (terms : NegotiatedTerms)
    (now : Option Int) :
    Quiet P (preBtcLockCheck c terms now) := by
  unfold preBtcLockCheck
  refine quiet_bind (catchValidation_quiet
    (quiet_bind (verifyRefAuthenticity_quiet hP _ _ _ _) fun _ => quiet_pure _)
    fun _ => quiet_pure _) fun refused => ?_
  cases refused with
  | some gate => exact quiet_pure _
  | none =>
    refine quiet_bind (credentialGate_quiet hP terms) fun refused => ?_
    cases refused with
    | some gate => exact quiet_pure _
    | none =>
      refine quiet_bind (freshnessGate_quiet hP terms) fun refused => ?_
      cases refused with
      | some gate => exact quiet_pure _
      | none =>
        dsimp only
        split
        · exact quiet_pure _
        · exact quiet_raise _
        · exact fundingSpkGate_quiet hP terms

theorem persistRecord_quiet (hP : Permits P) (shield : Bool) :
    Quiet P (persistRecord c shield) := by
  refine quiet_bind quiet_read fun record => ?_
  exact quiet_ite (quiet_bind (invoke_quiet hP rfl) fun _ => quiet_pure _)
    (quiet_pure _)

theorem persistAndReturn_quiet (hP : Permits P) :
    Quiet P (persistAndReturn c) :=
  quiet_bind (persistRecord_quiet hP true) fun _ => quiet_read

theorem reserveHashlock_quiet (hP : Permits P) (terms : NegotiatedTerms) :
    Quiet P (reserveHashlock terms) := by
  refine quiet_bind (catchException_quiet (invoke_quiet hP rfl) fun e =>
    refuse_quiet _) fun r => ?_
  exact refuseIf_quiet _ _

/-! ## Parts that establish something -/

/-- A refusal raises, whatever the persist hook does. -/
theorem persistAndRefuse_meets {α : Type} (hP : Permits P) {msg : String}
    {Q : Except PyErr α → SwapRecord → List StepEvent → Prop}
    (herr : ∀ e t', Q (.error e) s t') :
    Meets P Q (persistAndRefuse c msg : Method α) s t := by
  unfold persistAndRefuse
  exact (persistRecord_quiet hP true).meets_bind (fun _ t' _ => herr _ t')
    fun e t' _ => herr e t'

/-- `except ValidationError` around a body: the other exceptions pass. -/
theorem catchValidation_meets {α : Type} {body : Method α}
    {handler : String → Method α}
    {Q : Except PyErr α → SwapRecord → List StepEvent → Prop}
    (h : Meets P (fun r s t => match r with
      | .ok a => Q (.ok a) s t
      | .error e => (∀ m, Meets P Q (handler m) s t) ∧ Q (.error e) s t) body s t) :
    Meets P Q (Method.catchValidation body handler) s t := by
  unfold Method.catchValidation
  rw [meets_tryCatch]
  refine meets_mono (fun r s t hr => ?_) body h
  cases r with
  | ok a => exact hr
  | error e =>
    cases e with
    | validation m => exact hr.1 m
    | other m => exact hr.2
    | base m => exact hr.2

/-- `except Exception` around a body: a `BaseException` passes. -/
theorem catchException_meets {α : Type} {body : Method α}
    {handler : PyErr → Method α}
    {Q : Except PyErr α → SwapRecord → List StepEvent → Prop}
    (h : Meets P (fun r s t => match r with
      | .ok a => Q (.ok a) s t
      | .error e => Meets P Q (handler e) s t ∧ Q (.error e) s t) body s t) :
    Meets P Q (Method.catchException body handler) s t := by
  unfold Method.catchException
  rw [meets_tryCatch]
  refine meets_mono (fun r s t hr => ?_) body h
  cases r with
  | ok a => exact hr
  | error e =>
    cases e with
    | validation m => exact hr.1
    | other m => exact hr.1
    | base m => exact hr.2

/-- Past a state guard the record is in one of the step's states. -/
theorem guardState_meets {step : Step}
    {Q : Except PyErr SwapRecord → SwapRecord → List StepEvent → Prop}
    (hok : s.state ∈ step.validFrom → Q (.ok s) s t)
    (herr : ∀ e, Q (.error e) s t) : Meets P Q (guardState step) s t := by
  unfold guardState Method.refuseIf
  simp only [meets_bind, meets_read, meets_lift, meets_pure]
  by_cases h : s.state ∈ step.validFrom
  · simpa [Pyrxd.refuseIf, h] using hok h
  · simpa [Pyrxd.refuseIf, h, invalid] using herr _

/-- A check inside a step. -/
theorem refuseIf_meets {cond : Prop} [Decidable cond] {msg : String}
    {Q : Except PyErr Unit → SwapRecord → List StepEvent → Prop}
    (hok : ¬ cond → Q (.ok ()) s t) (herr : ∀ e, Q (.error e) s t) :
    Meets P Q (Method.refuseIf cond msg) s t := by
  unfold Method.refuseIf Pyrxd.refuseIf invalid
  rw [meets_lift]
  split
  · exact herr _
  · next h => exact hok h

/-- The rule of a move along the table. -/
theorem advanceRecord_meets {event : SwapEvent}
    {Q : Except PyErr Unit → SwapRecord → List StepEvent → Prop}
    (hok : ∀ d, (s.state, event, d) ∈ transitionTable →
      P t (.write s (s.withState d)) ∧
        Q (.ok ()) (s.withState d) (t ++ [.write s (s.withState d)]))
    (herr : ∀ e, Q (.error e) s t) : Meets P Q (advanceRecord event) s t := by
  unfold advanceRecord
  simp only [meets_bind, meets_read, meets_lift]
  cases h : advance s.state event with
  | error e => exact herr e
  | ok d => exact hok d (advance_ok h)

/-- The rule of recording the counter lock. -/
theorem recordCounterLock_meets {answer : PyObj}
    {Q : Except PyErr Unit → SwapRecord → List StepEvent → Prop}
    (hok : ∀ l s', asLocator answer = .ok l → s.withCounterLock l = .ok s' →
      P t (.write s s') ∧ Q (.ok ()) s' (t ++ [.write s s']))
    (herr : ∀ e, Q (.error e) s t) :
    Meets P Q (recordCounterLock answer) s t := by
  unfold recordCounterLock
  simp only [meets_bind, meets_read, meets_lift]
  cases hl : asLocator answer with
  | error e => exact herr e
  | ok l =>
    dsimp only
    cases hw : s.withCounterLock l with
    | error e => exact herr e
    | ok s' => exact hok l s' hl hw

/-- The rule of recording the Radiant lock. -/
theorem recordRadiantLock_meets {outpoint : PyObj} {observed : Bytes}
    {Q : Except PyErr Unit → SwapRecord → List StepEvent → Prop}
    (hok : ∀ o s', s.withRadiantLock o (hex observed) = .ok s' →
      P t (.write s s') ∧ Q (.ok ()) s' (t ++ [.write s s']))
    (herr : ∀ e, Q (.error e) s t) :
    Meets P Q (recordRadiantLock outpoint observed) s t := by
  unfold recordRadiantLock
  simp only [meets_bind, meets_read, meets_lift]
  cases ho : asOutpoint outpoint with
  | error e => exact herr e
  | ok o =>
    dsimp only
    cases hw : s.withRadiantLock o (hex observed) with
    | error e => exact herr e
    | ok s' => exact hok o s' hw

/-- What a scrape hands on opens the record's hashlock. -/
theorem scrapePreimage_meets (hP : Permits P) {tx : PyObj}
    {Q : Except PyErr Bytes → SwapRecord → List StepEvent → Prop}
    (hok : ∀ p t', t <+: t' → sha256 p = s.terms.hashlock → Q (.ok p) s t')
    (herr : ∀ e t', t <+: t' → Q (.error e) s t') :
    Meets P Q (scrapePreimage tx) s t := by
  unfold scrapePreimage
  simp only [meets_bind, meets_read, meets_invoke, meets_lift]
  intro r
  refine ⟨hP _ _ _ _ rfl, ?_⟩
  have ht : t <+: t ++ [.call s (.scrapeSecret tx s.terms.hashlock) r] :=
    List.prefix_append _ _
  cases r with
  | error e => exact herr e _ ht
  | ok answer =>
    dsimp only
    cases hb : answer.toBytes with
    | error e => exact herr e _ ht
    | ok raw =>
      refine refuseIf_meets (fun h => ?_) fun e => herr e _ ht
      exact hok raw _ ht (not_not.mp h)

/-- The rule of scraping an Ethereum preimage. -/
theorem scrapeEthPreimage_meets (hP : Permits P)
    {l : Eth.EthHtlcLocator} {tx : PyObj}
    {Q : Except PyErr Bytes → SwapRecord → List StepEvent → Prop}
    (hok : ∀ p t', t <+: t' → sha256 p = s.terms.hashlock → Q (.ok p) s t')
    (herr : ∀ e t', t <+: t' → Q (.error e) s t') :
    Meets P Q (scrapeEthPreimage l tx) s t := by
  unfold scrapeEthPreimage
  refine (invoke_quiet hP rfl).meets_bind (fun artifacts t1 h1 => ?_)
    fun e t1 h1 => herr e _ h1
  rw [meets_bind]
  refine scrapePreimage_meets hP (fun p t2 h2 hp => ?_) fun e t2 h2 =>
    herr e _ (h1.trans h2)
  refine (invoke_quiet hP rfl).meets_bind (fun _ t3 h3 => ?_)
    fun e t3 h3 => herr e _ (h1.trans (h2.trans h3))
  exact hok p _ (h1.trans (h2.trans h3)) hp

end Rules

end Pyrxd.Gravity
