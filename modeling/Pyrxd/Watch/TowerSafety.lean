import Pyrxd.Watch.Reconciler

/-!
# What the tower may broadcast

Over every run of ticks, whatever the collaborators answer:

* `tick` returns, a cancelled task apart;
* a routed decision reaches the alerter;
* within one reconcile at most one of the two autonomous actions happens;
* a refund is broadcast only from a stored blob bound to the record;
* `claim_asset` is called only on fresh evidence, gated by `assess_claim_finality`.

The last point is where the executor and `decide` part ways: the fresh gate
passes no value at risk, so it scales the burial by the policy's figure and not
by the record's (`GateAgrees` says when that is no weaker).

A reconcile begins with its look at `_inflight`; `fresh` cuts a trace back to
that point, so "fresh" means read in this reconcile.
-/

namespace Pyrxd.Watch

open Pyrxd.Lib Pyrxd.Lib.Prog Pyrxd.Btc Pyrxd.Gravity

/-! ## Rules for the combinators -/

namespace Tower

section Rules

variable {P : List TowerEvent → TowerEvent → Prop} {α : Type}
  {Q : Except TowerErr α → Unit → List TowerEvent → Prop} {s : Unit}
  {t : List TowerEvent}

/-- The result of `pure'`. -/
def raised (x : Except PyErr α) : Except TowerErr α :=
  match x with
  | .ok a => .ok a
  | .error e => .error (.ofPy e)

@[simp] theorem meets_pure' {x : Except PyErr α} : Meets P Q (pure' x) s t ↔
    Q (raised x) s t :=
  meets_lift

/-- The rule of a question outside. -/
theorem meets_ask {op : TowerOp} {reading : Reply → Except TowerErr α} :
    Meets P Q (ask op reading) s t ↔
      ∀ r, P t (.call s op r) ∧ Q (r.bind reading) s (t ++ [.call s op r]) := by
  unfold ask
  rw [meets_bind, meets_invoke]
  refine forall_congr' fun r => and_congr_right fun _ => ?_
  cases r with
  | ok a => exact meets_lift
  | error e => exact Iff.rfl

theorem meets_attempt
    {Q : Except TowerErr (Except TowerErr α) → Unit → List TowerEvent → Prop}
    {body : Tower α} :
    Meets P Q (attempt body) s t ↔ Meets P (fun r s t => match r with
      | .ok a => Q (.ok (.ok a)) s t
      | .error e => if e.IsBase then Q (.error e) s t else Q (.ok (.error e)) s t) body s t := by
  unfold attempt
  rw [meets_tryCatch, meets_bind]
  refine meets_congr fun r s t => ?_
  cases r with
  | ok a => exact Iff.rfl
  | error e => by_cases h : e.IsBase <;> simp [h, Meets]

end Rules

end Tower

/-! ## The events of one reconcile -/

/-- A reconcile begins. -/
def TowerEvent.starts : TowerEvent → Bool
  | .call _ (.inflightHas _) _ => true
  | _ => false

/-- An autonomous action. -/
def TowerEvent.acts : TowerEvent → Bool
  | .call _ (.broadcast _) _ => true
  | .call _ (.claimAsset _ _ _) _ => true
  | _ => false

/-- A read: it neither starts a reconcile, nor acts, nor marks an outpoint as
claimed. -/
def TowerEvent.plain : TowerEvent → Bool
  | .call _ (.inflightHas _) _ => false
  | .call _ (.broadcast _) _ => false
  | .call _ (.claimAsset _ _ _) _ => false
  | .call _ (.markSeen _) _ => false
  | _ => true

/-- A plain event starts no turn. -/
theorem TowerEvent.plain_starts {e : TowerEvent}
    (h : TowerEvent.plain e = true) :
    TowerEvent.starts e = false := by
  cases e with
  | write s s' => rfl
  | call s op r => cases op <;> first | rfl | cases h

theorem TowerEvent.plain_acts {e : TowerEvent} (h : TowerEvent.plain e = true) :
    TowerEvent.acts e = false := by
  cases e with
  | write s s' => rfl
  | call s op r => cases op <;> first | rfl | cases h

/-- The events since the current reconcile began. -/
def fresh (t : List TowerEvent) : List TowerEvent :=
  (t.reverse.takeWhile fun e => !TowerEvent.starts e).reverse

/-- What happened since the last start, one event on. -/
theorem fresh_snoc (t : List TowerEvent) (e : TowerEvent) :
    fresh (t ++ [e]) = if TowerEvent.starts e then [] else fresh t ++ [e] := by
  unfold fresh
  rw [List.reverse_append, List.reverse_singleton, List.singleton_append,
    List.takeWhile_cons]
  cases TowerEvent.starts e <;> simp

/-- `op` was answered with `r`. -/
def Answered (t : List TowerEvent) (op : TowerOp) (r : Reply) : Prop :=
  .call () op (.ok r) ∈ t

/-- No action yet. -/
def NoAction (t : List TowerEvent) : Prop := ∀ e ∈ t, TowerEvent.acts e = false

/-- The trace grows by reads. -/
def Onward (t t' : List TowerEvent) : Prop :=
  ∃ u, t' = t ++ u ∧ ∀ e ∈ u, TowerEvent.plain e = true

namespace Onward

theorem refl (t : List TowerEvent) : Onward t t := ⟨[], by simp, by simp⟩

theorem trans {t t' t'' : List TowerEvent} (h : Onward t t')
    (h' : Onward t' t'') :
    Onward t t'' := by
  obtain ⟨u, rfl, hu⟩ := h
  obtain ⟨v, rfl, hv⟩ := h'
  refine ⟨u ++ v, by simp, fun e he => ?_⟩
  rcases List.mem_append.mp he with he | he
  · exact hu e he
  · exact hv e he

theorem snoc (t : List TowerEvent) {e : TowerEvent}
    (h : TowerEvent.plain e = true) :
    Onward t (t ++ [e]) :=
  ⟨[e], rfl, fun e' he' => by rw [List.mem_singleton.mp he']; exact h⟩

theorem fresh_eq {t t' : List TowerEvent} (h : Onward t t') :
    ∃ u, fresh t' = fresh t ++ u ∧ ∀ e ∈ u, TowerEvent.acts e = false := by
  obtain ⟨u, rfl, hu⟩ := h
  refine ⟨u, ?_, fun e he => TowerEvent.plain_acts (hu e he)⟩
  induction u using List.reverseRecOn with
  | nil => simp
  | append_singleton u e ih =>
    have ih := ih fun e' he' => hu e' (List.mem_append_left _ he')
    have he := TowerEvent.plain_starts (hu e (by simp))
    rw [← List.append_assoc, fresh_snoc, he, ih]
    simp

theorem fresh_subset {t t' : List TowerEvent} (h : Onward t t') {e : TowerEvent}
    (he : e ∈ fresh t) : e ∈ fresh t' := by
  obtain ⟨u, hu, -⟩ := h.fresh_eq
  rw [hu]
  exact List.mem_append_left _ he

theorem noAction {t t' : List TowerEvent} (h : Onward t t')
    (hn : NoAction (fresh t)) :
    NoAction (fresh t') := by
  obtain ⟨u, hu, hacts⟩ := h.fresh_eq
  intro e he
  rw [hu] at he
  rcases List.mem_append.mp he with he | he
  · exact hn e he
  · exact hacts e he

theorem subset {t t' : List TowerEvent} (h : Onward t t') {e : TowerEvent}
    (he : e ∈ t) :
    e ∈ t' := by
  obtain ⟨u, rfl, -⟩ := h
  exact List.mem_append_left _ he

end Onward

theorem mem_fresh_snoc {t : List TowerEvent} {e : TowerEvent}
    (h : TowerEvent.plain e = true) :
    e ∈ fresh (t ++ [e]) := by
  rw [fresh_snoc, TowerEvent.plain_starts h]
  simp

/-! ## What is allowed -/

/-- A record the store listed. -/
def Listed (t : List TowerEvent) (record : SwapRecord) : Prop :=
  ∃ swaps swapId, Answered t .listActive (.active swaps) ∧
    (swapId, record) ∈ swaps

/-- A record that is being reconciled. -/
def Observed (t : List TowerEvent) (swapId : String)
    (record : SwapRecord) : Prop :=
  ∃ a, .call () (.observe swapId record) a ∈ t

/-- A stored blob that is this record's refund. -/
structure RefundBound (x : RefundExecutor) (t : List TowerEvent)
    (raw : Bytes) : Prop where
  bound : ∃ swapId record locator d blob prevout sequence value spk,
    Observed t swapId record ∧ record.btcLocator = some locator ∧
    Answered t (.loadBlob swapId) (.json d) ∧
      readPresignedRefund swapId d = .ok blob ∧
    blob.rawTx = raw ∧
    btcSpendFieldsFromRaw raw = .ok ⟨[prevout], [sequence], [(value, spk)]⟩ ∧
    locator.fundingOutpoint.prevoutBytes = .ok prevout ∧
    sequence = record.terms.tBtc.toNsequence ∧ spk = x.refundSpk ∧
    0 < value ∧ (value : Int) ≤ x.capSats ∧ (value : Int) < locator.amountSats

/-- What the claim executor reads before it fires. -/
structure ClaimReads where
  swapId : String
  locator : BtcHtlcLocator
  claimTxid : String
  raw : Bytes
  prevout : Bytes
  prevouts : List Bytes
  leg : ClaimLeg
  spk : Bytes
  outpoint : String
  value : Int
  fundedH : Int
  singleNodeConfs : Int
  btcConfs : Int
  covConfs : Int
  verdict : CounterClaimFinality

/-- Fresh evidence for claiming `record`'s asset with `p`; `val` is the value
the gate was asked to protect. -/
structure ClaimReads.Justify (reads : ClaimReads) (c : ClaimExecutor)
    (t : List TowerEvent)
    (record : SwapRecord) (p : Bytes) (val : Option Int) : Prop where
  observed : Observed t reads.swapId record
  btc : record.terms.counterChain = .btc
  locator : record.counterchainLocator = some (.btc reads.locator)
  /-- The maker's claim, as just reported. -/
  claimed : Answered t (.claimStatus reads.locator.fundingOutpoint.txid
    reads.locator.fundingOutpoint.vout) (.status true (some reads.claimTxid))
  bytes : Answered t (.claimTxBytes reads.claimTxid) (.bytes reads.raw)
  txid : btcTxidFromRaw reads.raw = .ok reads.claimTxid
  prevout : reads.locator.fundingOutpoint.prevoutBytes = .ok reads.prevout
  prevouts : btcInputOutpointsFromRaw reads.raw = .ok reads.prevouts
  spends : reads.prevout ∈ reads.prevouts
  scraped : scrapeSecret reads.raw record.terms.hashlock = .ok p
  hash : sha256 p = record.terms.hashlock
  covenant : Answered t
    (.findCovenantUtxo reads.leg reads.spk record.terms.radiantAmount)
    (.utxo reads.outpoint reads.value reads.fundedH)
  node :
    Answered t (.chainConfirmations reads.leg (outpointTxid reads.outpoint))
    (.int reads.singleNodeConfs)
  depth : Answered t (.claimConfirmations reads.claimTxid) (.int reads.btcConfs)
  quorum : reads.covConfs = reads.singleNodeConfs ∨
    ∃ q, Answered t (.corroboratedConfirmations reads.outpoint) (.int q) ∧
      reads.covConfs = max reads.singleNodeConfs q
  verdict : c.freshVerdict reads.btcConfs = .ok reads.verdict
  safe : assessClaimFinality reads.verdict
    (ClaimExecutor.nowRxd reads.fundedH reads.covConfs)
    reads.fundedH record.terms.tRxd c.policy val = .ok .safe

/-- The claim is justified at the value at risk that `decide` uses for the
record. -/
def ClaimBound (c : ClaimExecutor) (t : List TowerEvent) (record : SwapRecord)
    (p : Bytes) : Prop :=
  ∃ reads : ClaimReads, reads.Justify c t record p
    (valueAtRiskPhotons record.terms)

/-- What an event has to satisfy against the trace before it. -/
def Allowed (x : RefundExecutor) (c : ClaimExecutor) (pre : List TowerEvent) :
    TowerEvent → Prop
  | .call _ (.broadcast raw) _ =>
    NoAction (fresh pre) ∧ RefundBound x (fresh pre) raw
  | .call _ (.claimAsset _ record p) _ =>
    NoAction (fresh pre) ∧ ClaimBound c (fresh pre) record p
  | _ => True

/-- The fresh gate, asked without a value, is at least as strict as the gate of
`decide`: it refuses for want of a value, or its burial is no shorter. -/
def GateAgrees (policy : MarginPolicy) (terms : NegotiatedTerms) : Prop :=
  ValueBlind policy none ∨
    rxdBurial policy (valueAtRiskPhotons terms) ≤ rxdBurial policy none

instance (policy : MarginPolicy) (terms : NegotiatedTerms) :
    Decidable (GateAgrees policy terms) :=
  inferInstanceAs (Decidable (_ ∨ _))

/-- The monitor: what is allowed as long as the gates agree on every record
listed. -/
def Monitor (x : RefundExecutor) (c : ClaimExecutor) (pre : List TowerEvent)
    (e : TowerEvent) :
    Prop :=
  (∀ record, Listed pre record → GateAgrees c.policy record.terms) →
    Allowed x c pre e

/-- A call that does not act is always permitted. -/
theorem monitor_read {x : RefundExecutor} {c : ClaimExecutor}
    (pre : List TowerEvent)
    {e : TowerEvent} (h : TowerEvent.acts e = false) : Monitor x c pre e := by
  intro _
  cases e with
  | write s s' => trivial
  | call s op r => cases op <;> trivial

/-- Where the gates agree, SAFE without a value is SAFE at the record's
value. -/
theorem GateAgrees.safe {policy : MarginPolicy} {terms : NegotiatedTerms}
    (h : GateAgrees policy terms) {v : CounterClaimFinality} {now lock : Int}
    (hsafe : assessClaimFinality v now lock terms.tRxd policy none =
      .ok .safe) :
    assessClaimFinality v now lock terms.tRxd policy
      (valueAtRiskPhotons terms) = .ok .safe := by
  have hu := terms.sound.tRxd
  obtain ⟨h0, h1, hfinal, hseeing, hburial⟩ :=
    (assessClaimFinality_safe_iff hu).mp hsafe
  rw [assessClaimFinality_safe_iff hu]
  rcases h with hblind | hle
  · exact absurd hblind hseeing
  · refine ⟨h0, h1, hfinal, fun hb => hseeing ?_, le_trans hle hburial⟩
    -- with the record's value at hand the gate is not blind, unless there is
    -- none either way
    refine ⟨hb.1, ?_⟩
    have hnone := hb.2
    cases hv : valueAtRiskPhotons terms with
    | none => rwa [hv] at hnone
    | some n => rw [hv] at hnone; cases hnone

/-! ## Stages that only read -/

/-- A stage that only reads: it goes on with `F`, or it ends the run. -/
def Reads {α : Type} (P : List TowerEvent → TowerEvent → Prop)
    (t : List TowerEvent)
    (X : Tower (Except Stop α)) (F : α → List TowerEvent → Prop) : Prop :=
  Meets P (fun r _ t' => Onward t t' ∧ ∀ a, r = .ok (.ok a) →
    F a (fresh t')) X () t

/-- A call that reads. -/
def TowerOp.Reading (op : TowerOp) : Prop :=
  ∀ r, TowerEvent.plain (.call () op r) = true

namespace Reads

variable {P : List TowerEvent → TowerEvent → Prop}
  {t : List TowerEvent} {α β : Type}
  {F : α → List TowerEvent → Prop}

theorem go {a : α} (h : F a (fresh t)) : Reads P t (Stage.go a) F := by
  refine ⟨Onward.refl t, fun b hb => ?_⟩
  cases hb
  exact h

theorem stop {s : Stop} : Reads P t (Prog.ret (.error s)) F :=
  ⟨Onward.refl t, fun b hb => by cases hb⟩

theorem raise {e : TowerErr} : Reads P t (Prog.raise e) F :=
  ⟨Onward.refl t, fun b hb => by cases hb⟩

/-- A stage that starts further on. -/
theorem onward {t' : List TowerEvent} {X : Tower (Except Stop α)}
    (h : Onward t t')
    (hX : Reads P t' X F) :
    Meets P (fun r _ t'' => Onward t t'' ∧ ∀ a, r = .ok (.ok a) →
      F a (fresh t'')) X () t' :=
  meets_mono (fun _ _ _ hQ => ⟨h.trans hQ.1, hQ.2⟩) X hX

theorem lift_bind {x : Except TowerErr β} {k : β → Tower (Except Stop α)}
    (h : ∀ b, x = .ok b → Reads P t (k b) F) :
    Reads P t (Prog.lift x >>= k) F :=
  meets_lift_bind h fun _ => ⟨Onward.refl t, fun b hb => by cases hb⟩

theorem pure_bind {x : Except PyErr β} {k : β → Tower (Except Stop α)}
    (h : ∀ b, x = .ok b → Reads P t (k b) F) :
    Reads P t (Tower.pure' x >>= k) F := by
  refine lift_bind fun b hb => h b ?_
  cases x with
  | ok a => cases hb; rfl
  | error e => cases hb

/-- A call outside any handler. -/
theorem invoke_bind (hP : ∀ pre e, TowerEvent.acts e = false → P pre e)
    {op : TowerOp}
    (hop : op.Reading) {k : Reply → Tower (Except Stop α)}
    (h : ∀ a, Reads P (t ++ [.call () op (.ok a)]) (k a) F) :
    Reads P t (Prog.invoke op >>= k) F := by
  refine meets_bind.mpr (meets_invoke.mpr fun r =>
    ⟨hP _ _ (TowerEvent.plain_acts (hop r)), ?_⟩)
  cases r with
  | ok a => exact onward (Onward.snoc t (hop _)) (h a)
  | error e => exact ⟨Onward.snoc t (hop _), fun b hb => by cases hb⟩

/-- A body under `except Exception`, of which `G` is known when it returns. -/
theorem attempt_bind {body : Tower β} {G : β → List TowerEvent → Prop}
    {k : Except TowerErr β → Tower (Except Stop α)}
    (hbody : Meets P (fun r _ t' => Onward t t' ∧ ∀ b, r = .ok b →
      G b (fresh t')) body () t)
    (hok : ∀ b t', Onward t t' → G b (fresh t') → Reads P t' (k (.ok b)) F)
    (herr : ∀ e t', Onward t t' → Reads P t' (k (.error e)) F) :
    Reads P t (Tower.attempt body >>= k) F := by
  refine meets_bind.mpr (Tower.meets_attempt.mpr (meets_mono ?_ body hbody))
  intro r s t' h
  cases r with
  | ok b => exact onward h.1 (hok b t' h.1 (h.2 b rfl))
  | error e =>
    dsimp only
    split
    · exact ⟨h.1, fun b hb => by cases hb⟩
    · exact onward h.1 (herr e t' h.1)

/-- One call under `except Exception`. -/
theorem attempt_invoke_bind (hP : ∀ pre e, TowerEvent.acts e = false → P pre e)
    {op : TowerOp}
    (hop : op.Reading) {k : Except TowerErr Reply → Tower (Except Stop α)}
    (hok : ∀ a t', Onward t t' → Answered (fresh t') op a →
      Reads P t' (k (.ok a)) F)
    (herr : ∀ e t', Reads P t' (k (.error e)) F) :
    Reads P t (Tower.attempt (Prog.invoke op) >>= k) F := by
  refine attempt_bind (meets_invoke.mpr fun r =>
    ⟨hP _ _ (TowerEvent.plain_acts (hop r)), ?_⟩) hok fun e t' _ => herr e t'
  refine ⟨Onward.snoc t (hop r), fun b hb => ?_⟩
  cases hb
  exact mem_fresh_snoc (hop _)

/-- The next stage takes over where this one went on. -/
theorem andThen {X : Tower (Except Stop β)} {G : β → List TowerEvent → Prop}
    {f : β → Tower (Except Stop α)}
    {Q : Except TowerErr (Except Stop α) → Unit → List TowerEvent → Prop}
    (hX : Reads P t X G)
    (hf : ∀ b t', Onward t t' → G b (fresh t') → Meets P Q (f b) () t')
    (hstop : ∀ s t', Q (.ok (.error s)) () t')
    (herr : ∀ e t', Q (.error e) () t') :
    Meets P Q (Stage.andThen X f) () t := by
  refine meets_bind.mpr (meets_mono ?_ X hX)
  intro r s t' h
  cases r with
  | error e => exact herr e t'
  | ok v =>
    cases v with
    | ok b => exact hf b t' h.1 (h.2 b rfl)
    | error stop => exact hstop stop t'

end Reads

namespace ClaimExecutor

variable {P : List TowerEvent → TowerEvent → Prop} {t : List TowerEvent}
  {c : ClaimExecutor} {swapId : String} {record : SwapRecord}
  {decision : Decision}

section Stages

variable (hP : ∀ pre e, TowerEvent.acts e = false → P pre e)
include hP

/-- What each stage has read when it goes on: the leg stage. -/
theorem resolveLeg_reads :
    Reads P t (c.resolveLeg swapId record) fun _ _ => True := by
  unfold resolveLeg
  split
  · exact .stop
  · refine .attempt_invoke_bind hP (fun _ => rfl) (fun a t' _ _ => ?_)
      fun e t' => .stop
    cases a with
    | none => exact .stop
    | leg l => exact .go trivial
    | _ => exact .raise

omit hP in
/-- The policy stage, the locator. -/
theorem checkPolicy_reads :
    Reads P t (c.checkPolicy record decision) fun locator _ =>
      record.counterchainLocator = some (.btc locator) := by
  unfold checkPolicy
  split
  · exact .stop
  · refine .pure_bind fun b _ => ?_
    cases b with
    | some reason => exact .stop
    | none =>
      dsimp only
      split
      · exact .stop
      · next h => exact .go h
      · exact .raise

/-- The claim stage, which transaction spends the output. -/
theorem freshClaim_reads {locator : BtcHtlcLocator} :
    Reads P t (freshClaim locator) fun claimTxid t' =>
      Answered t' (.claimStatus locator.fundingOutpoint.txid
          locator.fundingOutpoint.vout)
        (.status true (some claimTxid)) := by
  unfold freshClaim
  refine .attempt_invoke_bind hP (fun _ => rfl) (fun a t' _ ha => ?_)
    fun e t' => .stop
  split
  · next h => cases h
  · next h => cases h; exact .go ha
  · exact .stop

/-- The claim's bytes hash to the reported txid and spend the swap's
outpoint. -/
def BytesBound (locator : BtcHtlcLocator) (claimTxid : String)
    (raw : Bytes) : Prop :=
  btcTxidFromRaw raw = .ok claimTxid ∧ ∃ prevout prevouts,
    locator.fundingOutpoint.prevoutBytes = .ok prevout ∧
    btcInputOutpointsFromRaw raw = .ok prevouts ∧ prevout ∈ prevouts

omit hP in
/-- Claim bytes pass when they are bound to the locator. -/
theorem checkClaimBytes_none {locator : BtcHtlcLocator} {claimTxid : String}
    {raw : Bytes} :
    checkClaimBytes locator claimTxid raw = .ok none ↔
    BytesBound locator claimTxid raw := by
  unfold checkClaimBytes BytesBound
  cases htx : btcTxidFromRaw raw with
  | error e => simp
  | ok txid =>
    by_cases hne : txid = claimTxid
    · cases hprev : locator.fundingOutpoint.prevoutBytes with
      | error e => simp [hne]
      | ok prevout =>
        cases hins : btcInputOutpointsFromRaw raw with
        | error e => simp [hne]
        | ok prevouts => by_cases hmem : prevout ∈ prevouts <;> simp [hne, hmem]
    · simp [hne]

theorem claimBytes_reads {locator : BtcHtlcLocator} {claimTxid : String} :
    Reads P t (claimBytes locator claimTxid) fun raw t' =>
      Answered t' (.claimTxBytes claimTxid) (.bytes raw) ∧
          BytesBound locator claimTxid raw := by
  unfold claimBytes
  refine .attempt_invoke_bind hP (fun _ => rfl) (fun a t' _ ha => ?_)
    fun e t' => .stop
  dsimp only
  split
  · exact .stop
  · refine .lift_bind fun raw hraw => ?_
    cases a with
    | bytes b =>
      cases hraw
      split
      · exact .stop
      · exact .raise
      · exact .stop
      · next h => exact .go ⟨ha, checkClaimBytes_none.mp h⟩
    | _ => cases hraw

omit hP in
theorem scrape_reads {raw : Bytes} :
    Reads P t (scrape record raw) fun p _ =>
      scrapeSecret raw record.terms.hashlock = .ok p ∧
          sha256 p = record.terms.hashlock := by
  unfold scrape
  split
  · exact .stop
  · next h =>
    split
    · exact .stop
    · next hne => exact .go ⟨h, not_not.mp hne⟩

/-- The covenant stage, the UTXO. -/
theorem freshCovenant_reads {leg : ClaimLeg} :
    Reads P t (freshCovenant leg record) fun found t' =>
      ∃ spk value,
          Answered t' (.findCovenantUtxo leg spk record.terms.radiantAmount)
        (.utxo found.1 value found.2) := by
  unfold freshCovenant
  refine .attempt_bind
    (G := fun found t' => ∃ spk,
      Answered t' (.findCovenantUtxo leg spk record.terms.radiantAmount)
      (.utxo found.1 found.2.1 found.2.2)) ?_ (fun b t' _ hb => ?_)
        fun e t' _ => ?_
  · unfold readCovenant
    refine meets_bind.mpr (Tower.meets_ask.mpr fun r => ⟨hP _ _ rfl, ?_⟩)
    have hon := Onward.snoc t
      (e := .call () (.expectedCovenantScriptpubkey leg record.terms) r) rfl
    cases hr : r.bind Reply.asBytes with
    | error e => exact ⟨hon, fun b hb => by cases hb⟩
    | ok spk =>
      refine Tower.meets_ask.mpr fun r' => ⟨hP _ _ rfl, ?_⟩
      refine ⟨hon.trans (.snoc _ rfl), fun b hb => ⟨spk, ?_⟩⟩
      cases r' with
      | error e => cases hb
      | ok reply =>
        cases reply with
        | utxo o v h =>
          cases hb
          exact mem_fresh_snoc rfl
        | _ => cases hb
  · obtain ⟨spk, hb⟩ := hb
    exact .go ⟨spk, b.2.1, hb⟩
  · split
    · next h => cases h
    · split
      · exact .stop
      · exact .stop
    · exact .stop
    · exact .raise

theorem checkMempool_reads {leg : ClaimLeg} {outpoint : String} :
    Reads P t (checkMempool leg outpoint) fun _ _ => True := by
  unfold checkMempool
  split
  · exact .go trivial
  · refine .attempt_bind (G := fun _ _ => True)
      (meets_invoke.mpr fun r => ⟨hP _ _ rfl, .snoc t rfl, fun _ _ => trivial⟩)
      (fun a t' _ _ => ?_) fun e t' _ => ?_
    · split
      · exact .stop
      · exact .go trivial
      · next h => cases h
      · next h => cases h
    · split
      · next h => cases h
      · next h => cases h
      · exact .stop
      · exact .raise

/-- The probe, that the key is not held. -/
theorem probeSeen_reads {outpoint : String} :
    Reads P t (c.probeSeen outpoint) fun _ t' => c.hasSeenStore = true →
      ∃ r, Answered t' (.hasSeen (claimKey outpoint)) r ∧ r.truthy = false := by
  unfold probeSeen
  split
  · next h => exact .go fun hs => by rw [h] at hs; cases hs
  · refine .invoke_bind hP (fun _ => rfl) fun a => ?_
    split
    · exact .stop
    · next h =>
      refine .go fun _ => ⟨a, mem_fresh_snoc rfl, ?_⟩
      exact eq_false_of_ne_true h

/-- The depth stage, both depths. -/
theorem freshDepths_reads {leg : ClaimLeg} {outpoint claimTxid : String} :
    Reads P t (freshDepths leg outpoint claimTxid) fun depths t' =>
      Answered t' (.chainConfirmations leg (outpointTxid outpoint))
        (.int depths.1) ∧
      Answered t' (.claimConfirmations claimTxid) (.int depths.2) := by
  unfold freshDepths
  refine .attempt_bind
    (G := fun depths t' => Answered t'
      (.chainConfirmations leg (outpointTxid outpoint)) (.int depths.1) ∧
      Answered t' (.claimConfirmations claimTxid) (.int depths.2)) ?_
    (fun b t' _ hb => .go hb) fun e t' _ => .stop
  unfold readDepths
  refine meets_bind.mpr (Tower.meets_ask.mpr fun r => ⟨hP _ _ rfl, ?_⟩)
  have hon := Onward.snoc t
    (e := .call () (.chainConfirmations leg (outpointTxid outpoint)) r) rfl
  cases r with
  | error e => exact ⟨hon, fun b hb => by cases hb⟩
  | ok reply =>
    cases reply with
    | int n =>
      refine meets_bind.mpr (Tower.meets_ask.mpr fun r' => ⟨hP _ _ rfl, ?_⟩)
      have hon' := hon.trans (Onward.snoc _
        (e := .call () (.claimConfirmations claimTxid) r') rfl)
      cases r' with
      | error e => exact ⟨hon', fun b hb => by cases hb⟩
      | ok reply' =>
        cases reply' with
        | int m =>
          refine ⟨hon', fun b hb => ?_⟩
          cases hb
          exact ⟨(Onward.snoc _ rfl).fresh_subset (mem_fresh_snoc rfl),
            mem_fresh_snoc rfl⟩
        | _ => exact ⟨hon', fun b hb => by cases hb⟩
    | _ => exact ⟨hon, fun b hb => by cases hb⟩

/-- The corroboration, the depth it settles on. -/
theorem corroborate_reads {outpoint : String} {single : Int} :
    Reads P t (c.corroborate outpoint single) fun covConfs t' =>
      covConfs = single ∨
      ∃ q, Answered t' (.corroboratedConfirmations outpoint) (.int q) ∧
        covConfs = max single q := by
  unfold corroborate
  split
  · exact .go (.inl rfl)
  · refine .attempt_invoke_bind hP (fun _ => rfl) (fun a t' _ ha => ?_)
      fun e t' => .stop
    cases a with
    | none => exact .stop
    | int q => exact .go (.inr ⟨q, ha, rfl⟩)
    | _ => exact .raise

omit hP in
/-- The reassessment, that the gate says SAFE. -/
theorem reassess_reads {fundedH covConfs btcConfs : Int} :
    Reads P t (c.reassess record fundedH covConfs btcConfs) fun _ _ =>
      ∃ verdict, c.freshVerdict btcConfs = .ok verdict ∧
        assessClaimFinality verdict (nowRxd fundedH covConfs)
          fundedH record.terms.tRxd c.policy =
          .ok .safe := by
  unfold reassess
  refine .pure_bind fun verdict hv => ?_
  split
  · exact .stop
  · exact .raise
  · next h => exact .go ⟨verdict, hv, h⟩
  · exact .stop
  · exact .stop

end Stages

/-- Whatever comes after it, the broadcast itself is what has to be allowed. -/
theorem fire_meets {leg : ClaimLeg} {outpoint : String} {p : Bytes}
    (hP : ∀ pre e, TowerEvent.acts e = false → P pre e)
    (hfire : ∀ r, P t (.call () (.claimAsset leg record p) r)) :
    Meets P (fun _ _ _ => True) (c.fire leg record outpoint p) () t := by
  unfold fire
  refine meets_bind.mpr (Tower.meets_attempt.mpr (meets_invoke.mpr fun r =>
    ⟨hfire r, ?_⟩))
  cases r with
  | ok a =>
    show Meets P _ (if c.hasSeenStore = true then _ else _) () _
    refine meets_ite.mpr ⟨fun _ => ?_, fun _ => trivial⟩
    refine meets_bind.mpr (meets_invoke.mpr fun r => ⟨hP _ _ rfl, ?_⟩)
    cases r <;> trivial
  | error e =>
    dsimp only
    split
    · trivial
    · cases e with
      | network m =>
        show Meets P _ (if isMissingUtxo m = true then _ else _) () _
        exact meets_ite.mpr ⟨fun _ => trivial, fun _ => trivial⟩
      | _ => trivial

/-- The claim fires on fresh evidence only, once in a reconcile. -/
theorem stages_meets {x : RefundExecutor}
    (hobs : Observed (fresh t) swapId record)
    (hlisted : Listed t record) (hquiet : NoAction (fresh t))
    (hchain : record.terms.counterChain = .btc) :
    Meets (Monitor x c) (fun _ _ _ => True)
      (c.stages swapId record decision) () t := by
  have hP : ∀ pre e, TowerEvent.acts e = false → Monitor x c pre e :=
    fun pre e h => monitor_read pre h
  unfold stages
  refine (resolveLeg_reads hP).andThen (fun leg t1 on1 _ => ?_)
    (fun _ _ => trivial)
    fun _ _ => trivial
  refine checkPolicy_reads.andThen (fun locator t2 on2 hlocator => ?_)
    (fun _ _ => trivial)
    fun _ _ => trivial
  refine (freshClaim_reads hP).andThen (fun claimTxid t3 on3 hclaimed => ?_)
    (fun _ _ => trivial)
    fun _ _ => trivial
  refine (claimBytes_reads hP).andThen (fun raw t4 on4 hraw => ?_)
    (fun _ _ => trivial)
    fun _ _ => trivial
  refine scrape_reads.andThen (fun p t5 on5 hp => ?_) (fun _ _ => trivial)
    fun _ _ => trivial
  refine (freshCovenant_reads hP).andThen (fun found t6 on6 hfound => ?_)
    (fun _ _ => trivial)
    fun _ _ => trivial
  obtain ⟨outpoint, fundedH⟩ := found
  refine (checkMempool_reads hP).andThen (fun _ t7 on7 _ => ?_)
    (fun _ _ => trivial)
    fun _ _ => trivial
  refine (probeSeen_reads hP).andThen (fun _ t8 on8 _ => ?_)
    (fun _ _ => trivial)
    fun _ _ => trivial
  refine (freshDepths_reads hP).andThen (fun depths t9 on9 hdepths => ?_)
    (fun _ _ => trivial)
    fun _ _ => trivial
  obtain ⟨single, btcConfs⟩ := depths
  refine (corroborate_reads hP).andThen (fun covConfs t10 on10 hcov => ?_)
    (fun _ _ => trivial)
    fun _ _ => trivial
  refine reassess_reads.andThen (fun _ t11 on11 hsafe => ?_)
    (fun _ _ => trivial)
    fun _ _ => trivial
  refine fire_meets hP fun r hagree => ⟨?_, ?_⟩
  · exact on11.noAction
      (on10.noAction (on9.noAction (on8.noAction (on7.noAction (on6.noAction
      (on5.noAction (on4.noAction
        (on3.noAction (on2.noAction (on1.noAction hquiet))))))))))
  · -- every read since the start of this reconcile is still in the fresh trace
    have from9 := on10.trans on11
    have from6 := on7.trans (on8.trans (on9.trans from9))
    have from4 := on5.trans (on6.trans from6)
    have from0 := on1.trans (on2.trans (on3.trans (on4.trans from4)))
    obtain ⟨hbytes, htxid, prevout, prevouts, hprevout, hprevouts,
        hspends⟩ := hraw
    obtain ⟨spk, value, hutxo⟩ := hfound
    obtain ⟨verdict, hverdict, hsafe⟩ := hsafe
    obtain ⟨a, ha⟩ := hobs
    have hagree : GateAgrees c.policy record.terms := by
      obtain ⟨swaps, sid, hans, hmem⟩ := hlisted
      exact hagree record ⟨swaps, sid, from0.subset hans, hmem⟩
    refine ⟨⟨swapId, locator, claimTxid, raw, prevout, prevouts, leg, spk,
      outpoint, value, fundedH,
      single, btcConfs, covConfs, verdict⟩, ?_⟩
    exact {
      observed := ⟨a, from0.fresh_subset ha⟩
      btc := hchain
      locator := hlocator
      claimed := (on4.trans from4).fresh_subset hclaimed
      bytes := from4.fresh_subset hbytes
      txid := htxid
      prevout := hprevout
      prevouts := hprevouts
      spends := hspends
      scraped := hp.1
      hash := hp.2
      covenant := from6.fresh_subset hutxo
      node := from9.fresh_subset hdepths.1
      depth := from9.fresh_subset hdepths.2
      quorum := by
        rcases hcov with h | ⟨q, hq, hmax⟩
        · exact .inl h
        · exact .inr ⟨q, on11.fresh_subset hq, hmax⟩
      verdict := hverdict
      safe := hagree.safe hsafe }

/-- So the claim executor obeys the monitor. -/
theorem execute_meets {x : RefundExecutor}
    (hobs : Observed (fresh t) swapId record)
    (hlisted : Listed t record) (hquiet : NoAction (fresh t)) :
    Meets (Monitor x c) (fun _ _ _ => True)
      (c.execute swapId record decision) () t := by
  unfold execute run
  refine meets_bind.mpr ?_
  refine meets_ite.mpr ⟨fun _ => trivial, fun _ => ?_⟩
  refine meets_ite.mpr ⟨fun _ => trivial, fun _ => ?_⟩
  refine meets_ite.mpr ⟨fun _ => trivial, fun hchain => ?_⟩
  refine meets_bind.mpr
    (meets_mono ?_ _ (stages_meets hobs hlisted hquiet (not_not.mp hchain)))
  intro r s t' _
  rcases r with e | (stop | u) <;> trivial

end ClaimExecutor

namespace RefundExecutor

variable {x : RefundExecutor} {c : ClaimExecutor} {swapId : String}
  {record : SwapRecord}
  {decision : Decision} {t : List TowerEvent}

/-- The refund's gate names the locator. -/
theorem gate_ok {locator : BtcHtlcLocator}
    (h : x.gate record decision = .ok locator) :
    record.btcLocator = some locator := by
  unfold gate at h
  split_ifs at h
  split at h
  · cases h
  · next heq =>
    split at h
    · cases h
    · cases h
      exact heq

/-- The gate hands on a locator or a reason, never a blob. -/
theorem gate_ne_authorized (blob : PresignedRefund) :
    x.gate record decision ≠ .error (.authorized blob) := by
  unfold gate
  split_ifs
  · simp
  · simp
  · simp
  · simp
  · split
    · simp
    · split <;> simp

/-- The one input and the one output a blob was checked to have. -/
theorem parts (b : PresignedRefund) : ∃ prevout sequence value spk,
    btcSpendFieldsFromRaw b.rawTx = .ok ⟨[prevout], [sequence],
      [(value, spk)]⟩ := by
  have h := b.valid
  unfold PresignedRefundFields.postInit at h
  obtain ⟨-, h⟩ := refuseIf_bind_ok.mp h
  obtain ⟨-, h⟩ := refuseIf_bind_ok.mp h
  obtain ⟨fields, hfields, h⟩ := bind_ok.mp h
  obtain ⟨hlen, -⟩ := refuseIf_bind_ok.mp h
  rw [not_or, not_not, not_not] at hlen
  obtain ⟨prevout, hp⟩ := List.length_eq_one_iff.mp hlen.1
  obtain ⟨⟨value, spk⟩, ho⟩ := List.length_eq_one_iff.mp hlen.2
  -- sequences and prevouts come off the same inputs
  have hseq : fields.inputSequences.length = fields.inputPrevouts.length := by
    unfold btcSpendFieldsFromRaw at hfields
    obtain ⟨parts, -, hparts⟩ := bind_ok.mp hfields
    cases hparts
    simp
  rw [hlen.1] at hseq
  obtain ⟨sequence, hs⟩ := List.length_eq_one_iff.mp hseq
  refine ⟨prevout, sequence, value, spk, ?_⟩
  rw [hfields]
  obtain ⟨a, b, d⟩ := fields
  simp only at hp hs ho
  rw [hp, hs, ho]

/-- What the binds establish of a blob. -/
theorem checkBinds_none {locator : BtcHtlcLocator} {blob : PresignedRefund}
    (h : x.checkBinds record locator blob = .ok none) :
    ∃ prevout sequence value spk,
      btcSpendFieldsFromRaw blob.rawTx = .ok ⟨[prevout], [sequence],
        [(value, spk)]⟩ ∧ locator.fundingOutpoint.prevoutBytes = .ok prevout ∧
      sequence = record.terms.tBtc.toNsequence ∧ spk = x.refundSpk ∧
      0 < value ∧ (value : Int) ≤ x.capSats ∧
        (value : Int) < locator.amountSats := by
  obtain ⟨prevout, sequence, value, spk, hparts⟩ := parts blob
  refine ⟨prevout, sequence, value, spk, hparts, ?_⟩
  have h1 : blob.fundingPrevout = .ok prevout := by
    simp [PresignedRefund.fundingPrevout, PresignedRefund.head, hparts]
  have h2 : blob.inputNsequence = .ok sequence := by
    simp [PresignedRefund.inputNsequence, PresignedRefund.head, hparts]
  have h3 : blob.outputSpk = .ok spk := by
    simp [PresignedRefund.outputSpk, PresignedRefund.head, hparts, Except.map]
  have h4 : blob.outputValueSats = .ok value := by
    simp [PresignedRefund.outputValueSats, PresignedRefund.head,
      hparts, Except.map]
  unfold checkBinds at h
  rw [h1, h2, h3, h4] at h
  cases hprev : locator.fundingOutpoint.prevoutBytes with
  | error e => simp [hprev] at h
  | ok prevout' =>
    simp only [hprev, ok_bind, pure_eq_ok] at h
    split_ifs at h with c1 c2 c3 c4 c5
    · cases h
    · cases h
    · cases h
    · cases h
    · cases h
    · exact ⟨by rw [not_not.mp
        c1], not_not.mp c2, not_not.mp c3, by omega, by omega, by omega⟩

/-- A refund leaves only as a stored blob bound to the record; without one,
nothing happened. -/
theorem execute_meets (hobs : Observed (fresh t) swapId record)
    (hquiet : NoAction (fresh t)) :
    Meets (Monitor x c) (fun r _ t' => r = .ok none → t' = t)
      (x.execute swapId record decision)
      () t := by
  unfold execute authorize
  refine meets_bind.mpr ?_
  cases hgate : x.gate record decision with
  | error v =>
    show Meets _ _ (Prog.ret v) () t
    cases v with
    | idle => exact fun _ => rfl
    | decline reason => exact fun h => by cases h
    | authorized blob =>
      -- the gate never answers with a blob
      exact absurd hgate (gate_ne_authorized blob)
  | ok locator =>
    have hloc := gate_ok hgate
    unfold loadBlob
    refine meets_bind.mpr (meets_bind.mpr (meets_invoke.mpr fun r =>
      ⟨monitor_read t rfl, ?_⟩))
    cases r with
    | error e => exact fun h => by cases h
    | ok reply =>
      cases reply with
      | json d =>
        dsimp only
        cases hblob : readPresignedRefund swapId d with
        | error e =>
          cases e with
          | validation m => exact fun h => by cases h
          | _ => exact fun h => by cases h
        | ok blob =>
          refine meets_bind.mpr (Tower.meets_pure'.mpr ?_)
          cases hbinds : x.checkBinds record locator blob with
          | error e => exact fun h => by cases h
          | ok verdict =>
            cases verdict with
            | some reason => exact fun h => by cases h
            | none =>
              refine meets_bind.mpr (meets_invoke.mpr fun r =>
                ⟨fun _ => ?_, ?_⟩)
              · -- the read of the blob is in the fresh trace, next to the observation
                have hon : Onward t (t ++
                    [.call () (.loadBlob swapId) (.ok (.json d))]) :=
                  .snoc t rfl
                obtain ⟨prevout, sequence, value, spk, hfacts⟩ :=
                  checkBinds_none hbinds
                obtain ⟨a, ha⟩ := hobs
                exact ⟨hon.noAction hquiet,
                  ⟨swapId, record, locator, d, blob, prevout, sequence,
                  value, spk, ⟨a, hon.fresh_subset ha⟩, hloc,
                    mem_fresh_snoc rfl, hblob, rfl,
                  hfacts⟩⟩
              · cases r <;> exact fun h => by cases h
      | _ => exact fun h => by cases h

end RefundExecutor

/-! ## The reconciler -/

section Reconcile

variable {x : RefundExecutor} {c : ClaimExecutor} {swapId : String}
  {record : SwapRecord}
  {decision : Decision} {t : List TowerEvent}

theorem compositeExecutor_meets (hobs : Observed (fresh t) swapId record)
    (hlisted : Listed t record) (hquiet : NoAction (fresh t)) :
    Meets (Monitor x c) (fun _ _ _ => True)
      (compositeExecutor [x.execute,
        c.execute] swapId record decision) () t := by
  unfold compositeExecutor
  refine meets_bind.mpr
    (meets_mono ?_ _ (RefundExecutor.execute_meets hobs hquiet))
  intro r s t' h
  cases r with
  | error e => trivial
  | ok outcome =>
    cases outcome with
    | some o => trivial
    | none =>
      -- the refund executor stood aside, so the claim executor starts on the
      -- same trace
      rw [h rfl]
      refine meets_bind.mpr
        (meets_mono ?_ _ (ClaimExecutor.execute_meets hobs hlisted hquiet))
      intro r s t' _
      rcases r with e | (_ | o) <;> trivial

/-- Traces only grow. -/
theorem meets_grows {P : List TowerEvent → TowerEvent → Prop} {α : Type} :
    ∀ (p : Tower α) {t : List TowerEvent}, Meets P (fun _ _ _ => True) p () t →
      Meets P (fun _ _ t' => t <+: t') p () t := by
  intro p
  induction p with
  | ret a => intro t _; exact List.prefix_refl t
  | raise e => intro t _; exact List.prefix_refl t
  | get k ih => intro t h; exact ih () h
  | put s k ih =>
    intro t h
    exact ⟨h.1,
      meets_mono (fun _ _ _ ht => (List.prefix_append t _).trans ht) k (ih h.2)⟩
  | call op k ih =>
    intro t h r
    exact ⟨(h r).1, meets_mono (fun _ _ _ ht =>
      (List.prefix_append t _).trans ht) _ (ih r (h r).2)⟩

/-- The page was sent off, delivered or not. -/
def Handled (t : List TowerEvent) (swapId : String)
    (decision : Decision) : Prop :=
  ∃ a, .call () (.handle swapId decision.toDecisionFields) a ∈ t

/-- Alerting obeys it, and pages. -/
theorem safeHandle_meets :
    Meets (Monitor x c)
      (fun r _ t' => t <+: t' ∧ ∀ b, r = .ok b → Handled t' swapId decision)
      (Reconciler.safeHandle swapId decision) () t := by
  unfold Reconciler.safeHandle
  refine meets_bind.mpr (Tower.meets_attempt.mpr (meets_invoke.mpr fun r =>
    ⟨monitor_read t rfl, ?_⟩))
  have hmem : Handled (t ++ [.call () (.handle swapId decision.toDecisionFields)
      r]) swapId decision :=
    ⟨r, by simp⟩
  cases r with
  | ok a => exact ⟨List.prefix_append t _, fun _ _ => hmem⟩
  | error e =>
    dsimp only
    split
    · exact ⟨List.prefix_append t _, fun _ hb => by cases hb⟩
    · exact ⟨List.prefix_append t _, fun _ _ => hmem⟩

/-- What one reconcile leaves behind. -/
def Paged (t : List TowerEvent) (result : ReconcileResult) : Prop :=
  result.decision.intent.Routed → Handled t result.swapId result.decision

/-- A page stays in a longer trace. -/
theorem Paged.grow {t' : List TowerEvent} {result : ReconcileResult}
    (h : Paged t result)
    (ht : t <+: t') : Paged t' result := by
  intro hr
  obtain ⟨a, ha⟩ := h hr
  exact ⟨a, ht.subset ha⟩

/-- The reconciler of the tower: a refund executor and a claim executor in one
slot. -/
def Reconciler.tower (policy : MarginPolicy) (safetyWindowBlocks : Nat)
    (x : RefundExecutor)
    (c : ClaimExecutor) : Reconciler :=
  ⟨policy, safetyWindowBlocks, compositeExecutor [x.execute, c.execute]⟩

variable {policy : MarginPolicy} {safety : Nat}

theorem safeExecute_meets (hobs : Observed (fresh t) swapId record)
    (hlisted : Listed t record)
    (hquiet : NoAction (fresh t)) :
    Meets (Monitor x c) (fun _ _ t' => t <+: t')
      ((Reconciler.tower policy safety x c).safeExecute swapId record decision)
        () t := by
  unfold Reconciler.safeExecute
  refine meets_ite.mpr ⟨fun _ => List.prefix_refl t, fun _ => ?_⟩
  refine meets_bind.mpr (Tower.meets_attempt.mpr
    (meets_mono ?_ _
      (meets_grows _ (compositeExecutor_meets hobs hlisted hquiet))))
  intro r s t' ht
  cases r with
  | ok o => exact ht
  | error e => dsimp only; split <;> exact ht

/-- The fail-closed branch obeys it, and pages. -/
theorem failClosed_meets {exc : TowerErr} :
    Meets (Monitor x c) (fun r _ t' => t <+: t' ∧ ∀ result, r = .ok result →
      Paged t' result)
      (Reconciler.failClosed swapId exc) () t := by
  unfold Reconciler.failClosed
  refine meets_bind.mpr (meets_mono ?_ _ safeHandle_meets)
  rintro (e | b) s t' ⟨ht, hb⟩
  · exact ⟨ht, fun _ h => by cases h⟩
  · refine ⟨ht, fun result h => ?_⟩
    cases h
    exact fun _ => hb b rfl

/-- Routing a decision obeys it, and pages. -/
theorem route_meets (hobs : Observed (fresh t) swapId record)
    (hlisted : Listed t record)
    (hquiet : NoAction (fresh t)) :
    Meets (Monitor x c) (fun r _ t' => t <+: t' ∧ ∀ result, r = .ok result →
      Paged t' result)
      ((Reconciler.tower policy safety x c).route swapId record decision)
        () t := by
  unfold Reconciler.route
  refine meets_ite.mpr ⟨fun _ => ?_, fun hsilent => ?_⟩
  · refine meets_bind.mpr
      (meets_mono ?_ _ (safeExecute_meets hobs hlisted hquiet))
    rintro (e | executed) s t' ht
    · exact ⟨ht, fun _ h => by cases h⟩
    · refine meets_bind.mpr (meets_mono ?_ _ safeHandle_meets)
      rintro (e | b) s t'' ⟨ht', hb⟩
      · exact ⟨ht.trans ht', fun _ h => by cases h⟩
      · refine ⟨ht.trans ht', fun result h => ?_⟩
        cases h
        exact fun _ => hb b rfl
  · refine ⟨List.prefix_refl t, fun result h => ?_⟩
    cases h
    exact fun hrouted => absurd hrouted hsilent

/-- Whatever comes of it, the observation is on the trace. -/
theorem observeAndDecide_meets {r : Reconciler} :
    Meets (Monitor x c)
      (fun _ _ t' => ∃ a, t' = t ++ [.call () (.observe swapId record) a])
      (r.observeAndDecide swapId record) () t := by
  unfold Reconciler.observeAndDecide
  refine meets_bind.mpr (Tower.meets_ask.mpr fun a => ⟨monitor_read t rfl, ?_⟩)
  cases a.bind Reply.asObservations with
  | error e => exact ⟨a, rfl⟩
  | ok obs => exact Tower.meets_pure'.mpr ⟨a, rfl⟩

theorem reconcileBody_meets (hlisted : Listed t record)
    (hquiet : NoAction (fresh t)) :
    Meets (Monitor x c) (fun r _ t' => t <+: t' ∧ ∀ result, r = .ok result →
      Paged t' result)
      ((Reconciler.tower policy safety x c).reconcileBody swapId record)
        () t := by
  unfold Reconciler.reconcileBody
  refine meets_bind.mpr
    (Tower.meets_attempt.mpr (meets_mono ?_ _ observeAndDecide_meets))
  rintro r s t' ⟨a, rfl⟩
  have hon : Onward t (t ++ [.call () (.observe swapId record) a]) :=
    .snoc t rfl
  have hpre : t <+: t ++ [.call () (.observe swapId record) a] :=
    List.prefix_append t _
  -- what the rest establishes of its trace it establishes of the whole
  have hgrow : ∀ (r : Except TowerErr ReconcileResult) (s : Unit)
      (t' : List TowerEvent),
      (t ++ [.call () (.observe swapId record) a] <+: t' ∧
        ∀ result, r = .ok result → Paged t' result) →
      t <+: t' ∧ ∀ result, r = .ok result → Paged t' result :=
    fun r s t' h => ⟨hpre.trans h.1, h.2⟩
  cases r with
  | ok decision =>
    refine meets_mono hgrow _ (route_meets ⟨a,
      mem_fresh_snoc rfl⟩ ?_ (hon.noAction hquiet))
    obtain ⟨swaps, sid, hans, hmem⟩ := hlisted
    exact ⟨swaps, sid, hon.subset hans, hmem⟩
  | error e =>
    dsimp only
    split
    · exact ⟨hpre, fun _ h => by cases h⟩
    · exact meets_mono hgrow _ failClosed_meets

/-- **One reconcile.** It starts with a clean slate, whatever the trace before
it. -/
theorem reconcileOne_meets (hlisted : Listed t record) :
    Meets (Monitor x c) (fun r _ t' => t <+: t' ∧ ∀ result, r = .ok result →
      Paged t' result)
      ((Reconciler.tower policy safety x c).reconcileOne swapId record)
        () t := by
  unfold Reconciler.reconcileOne Reconciler.inflight Reconciler.setInflight
  refine meets_bind.mpr fun a => ⟨monitor_read t rfl, ?_⟩
  have hpre : t <+: t ++ [.call () (.inflightHas swapId) a] :=
    List.prefix_append t _
  show Meets _ _ (if _ then _ else _) () _
  refine meets_ite.mpr ⟨fun _ => ?_, fun _ => ?_⟩
  · refine ⟨hpre, fun result h => ?_⟩
    cases h
    rintro (h | h | h | h) <;> cases h
  · refine meets_bind.mpr fun b => ⟨monitor_read _ rfl, ?_⟩
    have hpre' :=
      hpre.trans (List.prefix_append _ [.call () (.inflightAdd swapId) b])
    show Meets _ _ (Prog.ensure _ _) () _
    refine meets_ensure.mpr (meets_mono ?_ _ (reconcileBody_meets ?_ ?_))
    · rintro r s t' ⟨ht, hr⟩ d
      refine ⟨monitor_read t' rfl,
        (hpre'.trans ht).trans (List.prefix_append _ _), fun result h => ?_⟩
      exact (hr result h).grow (List.prefix_append _ _)
    · obtain ⟨swaps, sid, hans, hmem⟩ := hlisted
      exact ⟨swaps, sid, hpre'.subset hans, hmem⟩
    · -- the look at `_inflight` cut the trace
      intro e he
      rw [fresh_snoc, fresh_snoc] at he
      simp only [TowerEvent.starts, Bool.false_eq_true, if_false, if_true,
        List.nil_append,
        List.mem_singleton] at he
      rw [he]
      rfl

theorem reconcileAll_meets : ∀ (active : List (String × SwapRecord))
    {t : List TowerEvent},
    (∀ sw ∈ active, Listed t sw.2) →
    Meets (Monitor x c) (fun r _ t' => t <+: t' ∧
      ∀ results, r = .ok results → ∀ result ∈ results, Paged t' result)
      ((Reconciler.tower policy safety x c).reconcileAll active) () t := by
  intro active
  induction active with
  | nil =>
    intro t _
    refine ⟨List.prefix_refl t, fun results h => ?_⟩
    cases h
    simp
  | cons sw rest ih =>
    intro t hlisted
    obtain ⟨swapId, record⟩ := sw
    unfold Reconciler.reconcileAll
    refine meets_bind.mpr
      (meets_mono ?_ _ (reconcileOne_meets (hlisted _ List.mem_cons_self)))
    rintro (e | result) s t' ⟨ht, hresult⟩
    · exact ⟨ht, fun _ h => by cases h⟩
    · have hrest : ∀ sw ∈ rest, Listed t' sw.2 := by
        intro sw hsw
        obtain ⟨swaps, sid, hans, hmem⟩ :=
          hlisted sw (List.mem_cons_of_mem _ hsw)
        exact ⟨swaps, sid, ht.subset hans, hmem⟩
      refine meets_bind.mpr (meets_mono ?_ _ (ih hrest))
      rintro (e | results) s t'' ⟨ht', hresults⟩
      · exact ⟨ht.trans ht', fun _ h => by cases h⟩
      · refine ⟨ht.trans ht', fun all h => ?_⟩
        cases h
        intro res hres
        rcases List.mem_cons.mp hres with rfl | hres
        · exact (hresult res rfl).grow ht'
        · exact hresults results rfl res hres

/-- **One tick.** -/
theorem tick_meets :
    Meets (Monitor x c) (fun r _ t' => t <+: t' ∧
      ∀ results, r = .ok results → ∀ result ∈ results, Paged t' result)
      (Reconciler.tower policy safety x c).tick () t := by
  unfold Reconciler.tick
  refine meets_bind.mpr (Tower.meets_attempt.mpr (meets_invoke.mpr fun a =>
    ⟨monitor_read t rfl, ?_⟩))
  have hpre : t <+: t ++ [.call () .listActive a] := List.prefix_append t _
  -- an unreadable store is itself a page
  have hpage : ∀ exc : TowerErr, Meets (Monitor x c) (fun r _ t' => t <+: t' ∧
      ∀ results, r = .ok results → ∀ result ∈ results, Paged t' result)
      (do
        let delivered ← Reconciler.safeHandle storeId (storeUnreadable exc.text)
        return [{
          swapId := storeId, decision := storeUnreadable exc.text,
            error := some exc.text,
          alertDelivered := some delivered }])
      () (t ++ [.call () .listActive a]) := by
    intro exc
    refine meets_bind.mpr (meets_mono ?_ _ safeHandle_meets)
    rintro (e | b) s t' ⟨ht, hb⟩
    · exact ⟨hpre.trans ht, fun _ h => by cases h⟩
    · refine ⟨hpre.trans ht, fun results h => ?_⟩
      cases h
      intro result hres
      rw [List.mem_singleton.mp hres]
      exact fun _ => hb b rfl
  cases a with
  | error e =>
    dsimp only
    split
    · exact ⟨hpre, fun _ h => by cases h⟩
    · exact hpage e
  | ok reply =>
    cases reply with
    | active swaps =>
      refine meets_mono (fun r s t' h => ⟨hpre.trans h.1, h.2⟩) _
        (reconcileAll_meets swaps ?_)
      exact fun sw hsw => ⟨swaps, sw.1, by simp [Answered], hsw⟩
    | _ => exact ⟨hpre, fun _ h => by cases h⟩

/-- **A run of ticks.** -/
theorem ticks_meets : ∀ (n : Nat) {t : List TowerEvent},
    Meets (Monitor x c) (fun r _ t' => t <+: t' ∧
      ∀ results, r = .ok results → ∀ result ∈ results, Paged t' result)
      ((Reconciler.tower policy safety x c).ticks n) () t := by
  intro n
  induction n with
  | zero =>
    intro t
    refine ⟨List.prefix_refl t, fun results h => ?_⟩
    cases h
    simp
  | succ n ih =>
    intro t
    unfold Reconciler.ticks
    refine meets_bind.mpr (meets_mono ?_ _ tick_meets)
    rintro (e | results) s t' ⟨ht, hresults⟩
    · exact ⟨ht, fun _ h => by cases h⟩
    · refine meets_bind.mpr (meets_mono ?_ _ ih)
      rintro (e | later) s t'' ⟨ht', hlater⟩
      · exact ⟨ht.trans ht', fun _ h => by cases h⟩
      · refine ⟨ht.trans ht', fun all h => ?_⟩
        cases h
        intro res hres
        rcases List.mem_append.mp hres with hres | hres
        · exact (hresults results rfl res hres).grow ht'
        · exact hlater later rfl res hres

end Reconcile

end Pyrxd.Watch
