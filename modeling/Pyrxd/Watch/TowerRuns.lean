import Pyrxd.Watch.TowerSafety

/-!
# Runs of the tower

The other half of the tower's safety: nothing but a cancellation gets out of a
tick (`ticks_returns`), and both halves together over whole runs (`ticks_safe`).

`Relays` is what every part of an executor keeps to; the handlers of the
reconciler turn it into `RaisesOnlyBase`.
-/

namespace Pyrxd.Watch

open Pyrxd.Lib Pyrxd.Lib.Prog Pyrxd.Btc Pyrxd.Gravity

/-! ## What can be raised -/

/-- The only `BaseException` a body raises is one that a collaborator answered
with. -/
def Relays {α : Type} (p : Tower α) : Prop :=
  ∀ t, Meets (fun _ _ => True) (fun r _ t' => t <+: t' ∧
    ∀ e, r = .error e → e.IsBase → ∃ op, .call () op (.error e) ∈ t') p () t

namespace Relays

variable {α β : Type}

theorem ret (a : α) : Relays (Prog.ret a) :=
  fun t => ⟨List.prefix_refl t, fun _ h => by cases h⟩

theorem lift {x : Except TowerErr α} (h : ∀ e, x = .error e → ¬ e.IsBase) :
    Relays (Prog.lift x) :=
  fun t => meets_lift.mpr ⟨List.prefix_refl t,
    fun e he hb => absurd hb (h e he)⟩

theorem raise {e : TowerErr} (h : ¬ e.IsBase) :
    Relays (Prog.raise e : Tower α) :=
  lift (x := .error e) fun e' he' => by cases he'; exact h

theorem raisePy (e : PyErr) : Relays (Prog.raise (.ofPy e) : Tower α) :=
  raise (TowerErr.not_isBase_ofPy e)

theorem wrongClass : Relays (Prog.lift Reply.wrongClass : Tower α) :=
  lift fun e he => by cases he; exact id

theorem pure' (x : Except PyErr α) : Relays (Tower.pure' x) := by
  refine lift fun e he => ?_
  cases x with
  | ok a => cases he
  | error e' => cases he; exact TowerErr.not_isBase_ofPy e'

theorem invoke (op : TowerOp) : Relays (Prog.invoke op) := by
  intro t
  refine meets_invoke.mpr fun r => ⟨trivial, List.prefix_append t _,
    fun e he _ => ⟨op, ?_⟩⟩
  rw [he]
  simp

theorem bind {p : Tower α} {f : α → Tower β} (hp : Relays p)
    (hf : ∀ a, Relays (f a)) :
    Relays (p >>= f) := by
  intro t
  refine meets_bind.mpr (meets_mono ?_ p (hp t))
  rintro (e | a) s t' ⟨ht, he⟩
  · exact ⟨ht, fun e' he' => he e' (by cases he'; rfl)⟩
  · exact meets_mono (fun r s t'' h => ⟨ht.trans h.1, h.2⟩) _ (hf a t')

theorem ask (op : TowerOp) {reading : Reply → Except TowerErr α}
    (h : ∀ r e, reading r = .error e → ¬ e.IsBase) :
    Relays (Tower.ask op reading) :=
  bind (invoke op) fun r => lift fun e he => h r e he

/-- What `except Exception` hands on is no `BaseException`. -/
theorem attempt_bind {p : Tower α} {f : Except TowerErr α → Tower β} (hp : Relays p)
    (hok : ∀ a, Relays (f (.ok a))) (herr : ∀ e, ¬ e.IsBase → Relays (f (.error e))) :
    Relays (Tower.attempt p >>= f) := by
  intro t
  refine meets_bind.mpr (Tower.meets_attempt.mpr (meets_mono ?_ p (hp t)))
  rintro (e | a) s t' ⟨ht, he⟩
  · dsimp only
    split
    · next hb =>
      refine ⟨ht, fun e' he' _ => ?_⟩
      cases he'
      exact he e rfl hb
    · next hb => exact meets_mono (fun r s t'' h => ⟨ht.trans h.1, h.2⟩) _ (herr e hb t')
  · exact meets_mono (fun r s t'' h => ⟨ht.trans h.1, h.2⟩) _ (hok a t')

theorem ite {p : Prop} [Decidable p] {x y : Tower α} (hx : Relays x)
    (hy : Relays y) :
    Relays (if p then x else y) := by
  split
  · exact hx
  · exact hy

theorem andThen {X : Tower (Except Stop α)} {f : α → Tower (Except Stop β)}
    (hX : Relays X)
    (hf : ∀ a, Relays (f a)) : Relays (Stage.andThen X f) := by
  refine bind hX fun r => ?_
  cases r with
  | ok a => exact hf a
  | error stop => exact ret _

end Relays

/-- A reader of answers raises nothing worse than a `TypeError`. -/
theorem reading_plain {α : Type} {reading : Reply → Except TowerErr α}
    (h : ∀ r, (∃ a, reading r = .ok a) ∨ reading r = Reply.wrongClass) :
    ∀ r e, reading r = .error e → ¬ e.IsBase := by
  intro r e he
  rcases h r with ⟨a, ha⟩ | hw
  · rw [ha] at he
    cases he
  · rw [hw] at he
    cases he
    exact id

/-- Reading an answer raises no base exception. -/
theorem asInt_plain : ∀ r e, Reply.asInt r = .error e → ¬ e.IsBase :=
  reading_plain fun r => by cases r <;> first | exact .inl ⟨_, rfl⟩ | exact .inr rfl

theorem asBytes_plain : ∀ r e, Reply.asBytes r = .error e → ¬ e.IsBase :=
  reading_plain fun r => by cases r <;> first | exact .inl ⟨_, rfl⟩ | exact .inr rfl

theorem asUtxo_plain : ∀ r e, Reply.asUtxo r = .error e → ¬ e.IsBase :=
  reading_plain fun r => by cases r <;> first | exact .inl ⟨_, rfl⟩ | exact .inr rfl

theorem asObservations_plain : ∀ r e, Reply.asObservations r =
    .error e → ¬ e.IsBase :=
  reading_plain fun r => by cases r <;> first | exact .inl ⟨_, rfl⟩ | exact .inr rfl

namespace ClaimExecutor

variable {c : ClaimExecutor} {swapId : String} {record : SwapRecord}
  {decision : Decision}

/-- No stage of the claim raises one of its own: the leg stage. -/
theorem resolveLeg_relays : Relays (c.resolveLeg swapId record) := by
  refine .ite (.ret _) (.attempt_bind (.invoke _) (fun a => ?_)
    fun e _ => .ret _)
  cases a with
  | none => exact .ret _
  | leg l => exact .ret _
  | _ => exact .wrongClass

theorem checkPolicy_relays : Relays (c.checkPolicy record decision) := by
  refine .ite (.ret _) (.bind (.pure' _) fun a => ?_)
  cases a with
  | some reason => exact .ret _
  | none =>
    dsimp only
    split
    · exact .ret _
    · exact .ret _
    · exact .wrongClass

theorem freshClaim_relays {locator : BtcHtlcLocator} :
    Relays (freshClaim locator) := by
  refine .attempt_bind (.invoke _) (fun a => ?_) fun e _ => .ret _
  split
  · exact .ret _
  · exact .ret _
  · exact .ret _

/-- The stage that reads the claim. -/
theorem claimBytes_relays {locator : BtcHtlcLocator} {claimTxid : String} :
    Relays (claimBytes locator claimTxid) := by
  refine .attempt_bind (.invoke _) (fun a => ?_) fun e _ => .ret _
  refine .ite (.ret _) (.bind (.lift fun e he => asBytes_plain a e he)
    fun raw => ?_)
  split
  · exact .ret _
  · exact .raisePy _
  · exact .ret _
  · exact .ret _

theorem scrape_relays {raw : Bytes} : Relays (scrape record raw) := by
  unfold scrape
  split
  · exact .ret _
  · exact .ite (.ret _) (.ret _)

theorem freshCovenant_relays {leg : ClaimLeg} :
    Relays (freshCovenant leg record) := by
  refine .attempt_bind (.bind (.ask _ asBytes_plain) fun spk =>
    .ask _ asUtxo_plain)
    (fun a => .ret _) fun e he => ?_
  cases e with
  | network m => exact .ite (.ret _) (.ret _)
  | validation m => exact .ret _
  | other m => exact .raise he
  | base m => exact .raise he

theorem checkMempool_relays {leg : ClaimLeg} {outpoint : String} :
    Relays (checkMempool leg outpoint) := by
  refine .ite (.ret _) (.attempt_bind (.invoke _) (fun a => ?_) fun e he => ?_)
  · split
    · exact .ret _
    · exact .ret _
    · next h => cases h
    · next h => cases h
  · cases e with
    | network m => exact .ret _
    | _ => exact .raise he

theorem probeSeen_relays {outpoint : String} : Relays (c.probeSeen outpoint) :=
  .ite (.ret _) (.bind (.invoke _) fun _ => .ite (.ret _) (.ret _))

theorem freshDepths_relays {leg : ClaimLeg} {outpoint claimTxid : String} :
    Relays (freshDepths leg outpoint claimTxid) :=
  .attempt_bind (.bind (.ask _ asInt_plain) fun _ =>
    .bind (.ask _ asInt_plain) fun _ => .ret _)
    (fun _ => .ret _) fun _ _ => .ret _

theorem corroborate_relays {outpoint : String} {single : Int} :
    Relays (c.corroborate outpoint single) := by
  refine .ite (.ret _) (.attempt_bind (.invoke _) (fun a => ?_)
    fun e _ => .ret _)
  cases a with
  | none => exact .ret _
  | _ => exact .bind (.lift fun e he => asInt_plain _ e he) fun _ => .ret _

theorem reassess_relays {fundedH covConfs btcConfs : Int} :
    Relays (c.reassess record fundedH covConfs btcConfs) := by
  refine .bind (.pure' _) fun verdict => ?_
  split
  · exact .ret _
  · exact .raisePy _
  · exact .ret _
  · exact .ret _
  · exact .ret _

theorem fire_relays {leg : ClaimLeg} {outpoint : String} {p : Bytes} :
    Relays (c.fire leg record outpoint p) := by
  refine .attempt_bind (.invoke _) (fun a => ?_) fun e he => ?_
  · exact .ite (.bind (.invoke _) fun _ => .ret _) (.ret _)
  · cases e with
    | network m => exact .ite (.ret _) (.ret _)
    | _ => exact .raise he

/-- So the claim executor relays. -/
theorem execute_relays : Relays (c.execute swapId record decision) := by
  refine .bind (.ite (.ret _)
    (.ite (.ret _) (.ite (.ret _) (.bind ?_ fun r => ?_)))) fun _ => .ret _
  · exact .andThen resolveLeg_relays fun _ =>
        .andThen checkPolicy_relays fun _ =>
      .andThen freshClaim_relays fun _ => .andThen claimBytes_relays fun _ =>
      .andThen scrape_relays fun _ => .andThen freshCovenant_relays fun _ =>
      .andThen checkMempool_relays fun _ => .andThen probeSeen_relays fun _ =>
      .andThen freshDepths_relays fun _ => .andThen corroborate_relays fun _ =>
      .andThen reassess_relays fun _ => fire_relays
  · cases r with
    | ok u => exact .ret _
    | error stop => exact .ret _

end ClaimExecutor

theorem RefundExecutor.execute_relays {x : RefundExecutor} {swapId : String}
    {record : SwapRecord}
    {decision : Decision} : Relays (x.execute swapId record decision) := by
  refine .bind ?_ fun v => ?_
  · unfold authorize
    split
    · exact .ret _
    · refine .bind (.bind (.invoke _) fun a => ?_) fun blob => ?_
      · cases a with
        | json d =>
          dsimp only
          split
          · exact .ret _
          · exact .ret _
          · exact .raisePy _
        | _ => exact .ret _
      · cases blob with
        | error v => exact .ret _
        | ok blob =>
          refine .bind (.pure' _) fun reason => ?_
          cases reason <;> exact .ret _
  · cases v with
    | idle => exact .ret _
    | decline reason => exact .ret _
    | authorized blob => exact .bind (.invoke _) fun _ => .ret _

/-- The store has answered with swaps, whenever it has answered. -/
def StoreLists (t : List TowerEvent) : Prop :=
  ∀ reply, .call () .listActive (.ok reply) ∈ t → ∃ swaps, reply = .active swaps

/-- What a tick raises is a `BaseException` that a collaborator raised. -/
def RaisesOnlyBase {α : Type} (p : Tower α) : Prop :=
  ∀ t, Meets (fun _ _ => True) (fun r _ t' => t <+: t' ∧
    ∀ e, r = .error e → StoreLists t' → e.IsBase ∧
      ∃ op, .call () op (.error e) ∈ t') p () t

namespace RaisesOnlyBase

variable {α β : Type}

theorem ret (a : α) : RaisesOnlyBase (Prog.ret a) :=
  fun t => ⟨List.prefix_refl t, fun _ h => by cases h⟩

theorem bind {p : Tower α} {f : α → Tower β} (hp : RaisesOnlyBase p)
    (hf : ∀ a, RaisesOnlyBase (f a)) : RaisesOnlyBase (p >>= f) := by
  intro t
  refine meets_bind.mpr (meets_mono ?_ p (hp t))
  rintro (e | a) s t' ⟨ht, he⟩
  · exact ⟨ht, fun e' he' => he e' (by cases he'; rfl)⟩
  · exact meets_mono (fun r s t'' h => ⟨ht.trans h.1, h.2⟩) _ (hf a t')

/-- Whatever the body raises is handled, or is a `BaseException` it passes
on. -/
theorem attempt_bind {p : Tower α} {f : Except TowerErr α → Tower β}
    (hp : Relays p)
    (hf : ∀ r, RaisesOnlyBase (f r)) :
    RaisesOnlyBase (Tower.attempt p >>= f) := by
  intro t
  refine meets_bind.mpr (Tower.meets_attempt.mpr (meets_mono ?_ p (hp t)))
  rintro (e | a) s t' ⟨ht, he⟩
  · dsimp only
    split
    · next hb =>
      refine ⟨ht, fun e' he' _ => ?_⟩
      cases he'
      exact ⟨hb, he e rfl hb⟩
    · exact meets_mono (fun r s t'' h => ⟨ht.trans h.1, h.2⟩) _ (hf _ t')
  · exact meets_mono (fun r s t'' h => ⟨ht.trans h.1, h.2⟩) _ (hf _ t')

theorem ite {p : Prop} [Decidable p] {x y : Tower α} (hx : RaisesOnlyBase x)
    (hy : RaisesOnlyBase y) : RaisesOnlyBase (if p then x else y) := by
  split
  · exact hx
  · exact hy

/-- A set operation answers somehow and goes on. -/
theorem set (op : TowerOp) (k : Except TowerErr Reply → α) :
    RaisesOnlyBase (Prog.call op fun a => .ret (k a)) :=
  fun t _ => ⟨trivial, List.prefix_append t _, fun _ h => by cases h⟩

theorem ensure {p : Tower α} (hp : RaisesOnlyBase p) (op : TowerOp) :
    RaisesOnlyBase (p.ensure (Reconciler.setInflight op)) := by
  intro t
  refine meets_ensure.mpr (meets_mono ?_ p (hp t))
  rintro r s t' ⟨ht, he⟩ a
  refine ⟨trivial, ht.trans (List.prefix_append _ _), fun e hr hlists => ?_⟩
  obtain ⟨hb, op', hop⟩ :=
    he e hr fun reply hmem => hlists reply (List.mem_append_left _ hmem)
  exact ⟨hb, op', List.mem_append_left _ hop⟩

end RaisesOnlyBase

section Returns

variable {policy : MarginPolicy} {safety : Nat} {x : RefundExecutor}
  {c : ClaimExecutor}
  {swapId : String} {record : SwapRecord} {decision : Decision}

/-- Alerting catches every ordinary exception. -/
theorem safeHandle_returns :
    RaisesOnlyBase (Reconciler.safeHandle swapId decision) := by
  refine .attempt_bind (.invoke _) fun r => ?_
  cases r <;> exact .ret _

theorem compositeExecutor_relays :
    Relays (compositeExecutor [x.execute,
      c.execute] swapId record decision) := by
  refine .bind RefundExecutor.execute_relays fun o => ?_
  cases o with
  | some o => exact .ret _
  | none =>
    refine .bind ClaimExecutor.execute_relays fun o => ?_
    cases o <;> exact .ret _

/-- Executing catches what they raise. -/
theorem safeExecute_returns :
    RaisesOnlyBase ((Reconciler.tower policy safety x c).safeExecute swapId
      record decision) := by
  refine .ite (.ret _) (.attempt_bind compositeExecutor_relays fun r => ?_)
  cases r <;> exact .ret _

theorem reconcileOne_returns :
    RaisesOnlyBase ((Reconciler.tower policy safety x c).reconcileOne
      swapId record) := by
  refine .bind (.set _ _) fun b =>
    .ite (.ret _) (.bind (.set _ _) fun _ => .ensure ?_ _)
  refine .attempt_bind (.bind (.ask _ asObservations_plain) fun _ =>
    .pure' _) fun r => ?_
  cases r with
  | error exc => exact .bind safeHandle_returns fun _ => .ret _
  | ok decision =>
    exact .ite (.bind safeExecute_returns fun _ =>
      .bind safeHandle_returns fun _ => .ret _) (.ret _)

theorem reconcileAll_returns : ∀ active : List (String × SwapRecord),
    RaisesOnlyBase ((Reconciler.tower policy safety x
      c).reconcileAll active) := by
  intro active
  induction active with
  | nil => exact .ret _
  | cons sw rest ih =>
    exact .bind reconcileOne_returns fun _ => .bind ih fun _ => .ret _

/-- One tick: a store that fails is paged, and one that answers is gone
through. -/
theorem tick_returns :
    RaisesOnlyBase (Reconciler.tower policy safety x c).tick := by
  intro t
  unfold Reconciler.tick
  refine meets_bind.mpr (Tower.meets_attempt.mpr (meets_invoke.mpr fun a =>
    ⟨trivial, ?_⟩))
  have hpre : t <+: t ++ [.call () .listActive a] := List.prefix_append t _
  -- whatever the listing answers, the rest of the turn starts behind it
  have hgrow : ∀ {p : Tower (List ReconcileResult)}, RaisesOnlyBase p →
      Meets (fun _ _ => True) (fun r _ t' => t <+: t' ∧ ∀ e, r = .error e →
        StoreLists t' →
        e.IsBase ∧ ∃ op, .call () op (.error e) ∈ t') p () (t ++
          [.call () .listActive a]) :=
    fun hp => meets_mono (fun r s t' h => ⟨hpre.trans h.1, h.2⟩) _ (hp _)
  cases a with
  | error exc =>
    dsimp only
    split
    · next hb =>
      refine ⟨hpre, fun e he _ => ?_⟩
      cases he
      exact ⟨hb, .listActive, List.mem_append_right _ List.mem_cons_self⟩
    · exact hgrow (.bind safeHandle_returns fun _ => .ret _)
  | ok reply =>
    by_cases hswaps : ∃ swaps, reply = .active swaps
    · obtain ⟨swaps, rfl⟩ := hswaps
      exact hgrow (reconcileAll_returns swaps)
    · have hwrong : reply.asActive = Reply.wrongClass := by
        cases reply with
        | active swaps => exact absurd ⟨swaps, rfl⟩ hswaps
        | _ => rfl
      dsimp only
      rw [hwrong]
      exact ⟨hpre, fun e _ hlists =>
        absurd (hlists reply (List.mem_append_right _ List.mem_cons_self)) hswaps⟩

theorem ticks_returns : ∀ n : Nat,
    RaisesOnlyBase ((Reconciler.tower policy safety x c).ticks n) := by
  intro n
  induction n with
  | zero => exact .ret _
  | succ n ih => exact .bind tick_returns fun _ => .bind ih fun _ => .ret _

end Returns

/-! ## Whole runs -/

/-- How the collaborators answer: anything, from everything that happened
before; but the store answers with swaps, as `RecordStore` declares. -/
structure TowerEnv where
  answer : List TowerEvent → TowerOp → Except TowerErr Reply
  lists : ∀ t reply, answer t .listActive = .ok reply →
    ∃ swaps, reply = .active swaps

/-- The store answers a listing with swaps. -/
theorem TowerEnv.storeLists {α : Type} (env : TowerEnv) (p : Tower α) :
    StoreLists (p.run env.answer () []).trace := by
  intro reply hmem
  rcases run_answered env.answer p hmem with hnil | ⟨pre, hreply⟩
  · cases hnil
  · exact env.lists pre reply hreply.symm

/-- What is promised of a run of ticks. -/
structure TowerSafe (x : RefundExecutor) (c : ClaimExecutor)
    (run : Run TowerOp Reply Unit TowerErr (List ReconcileResult)) : Prop where
  /-- Only a cancellation gets out of a tick, and only if a collaborator was
  cancelled. -/
  returns : ∀ e, run.result = .error e → e.IsBase ∧
    ∃ op, .call () op (.error e) ∈ run.trace
  paged : ∀ results, run.result = .ok results → ∀ result ∈ results,
    result.decision.intent.Routed →
      Handled run.trace result.swapId result.decision
  /-- At most one action in a reconcile, and each as `Allowed` says. -/
  allowed : ∀ pre e post, run.trace = pre ++ e :: post → Allowed x c pre e

/-- In every run of ticks in which the two gates agree on every record the store
lists, the tower is safe. -/
theorem ticks_safe (policy : MarginPolicy) (safety : Nat) (x : RefundExecutor)
    (c : ClaimExecutor)
    (env : TowerEnv) (n : Nat)
    (hagree : ∀ record,
      Listed (((Reconciler.tower policy safety x c).ticks n).run env.answer
        () []).trace record →
      GateAgrees c.policy record.terms) :
    TowerSafe x c
    (((Reconciler.tower policy safety x c).ticks n).run env.answer () []) := by
  obtain ⟨hobeys, -, hpaged⟩ :=
    run_meets env.answer _ () [] (obeys_nil (Monitor x c)) (ticks_meets n)
  obtain ⟨-, -, hraises⟩ :=
    run_meets env.answer _ () [] (obeys_nil _) (ticks_returns n [])
  refine ⟨fun e he => hraises e he (env.storeLists _), hpaged,
    fun pre e post hsplit => ?_⟩
  refine hobeys pre e post hsplit fun record hlisted => hagree record ?_
  obtain ⟨swaps, sid, hans, hmem⟩ := hlisted
  refine ⟨swaps, sid, ?_, hmem⟩
  rw [Answered, hsplit]
  exact List.mem_append_left _ hans

/-! ## A run in which the gates disagree -/

/-- The preimage of the sample swap. -/
def samplePreimage : Bytes := List.replicate 32 0x11

theorem sampleClaim_tBtc : Btc.bip68Units 144 .blocks ≤
    Btc.sequenceLocktimeMask := by decide

theorem sampleClaim_tRxd : Btc.bip68Units 20 .blocks ≤
    Btc.sequenceLocktimeMask := by decide

/-- 5000 photons against BTC, hashed from `samplePreimage`. -/
def sampleClaimTerms : NegotiatedTerms where
  hashlock := [0x02, 0xd4, 0x49, 0xa3, 0x1f, 0xbb, 0x26, 0x7c, 0x8f, 0x35, 0x2e,
    0x99, 0x68, 0xa7,
    0x9e, 0x3e, 0x5f, 0xc9, 0x5c, 0x1b, 0xbe, 0xaa, 0x50, 0x2f, 0xd6, 0x45,
      0x4e, 0xbd, 0xe5, 0xa4,
    0xbe, 0xdc]
  btcSats := 100000
  radiantAmount := 5000
  tBtc := ⟨144, .blocks, sampleClaim_tBtc⟩
  tRxd := ⟨20, .blocks, sampleClaim_tRxd⟩
  assetVariant := .rxd
  genesisRef := []
  takerDestHash := List.replicate 32 1
  makerDestHash := List.replicate 32 2
  btcClaimPubkeyXonly := List.replicate 32 3
  btcRefundPubkeyXonly := List.replicate 32 4
  valueAmount := 100000
  valid := rfl

/-- Both legs locked, 100 blocks up. -/
def sampleClaimRecord : SwapRecord :=
  ⟨{ state := .bothLocked, terms := sampleClaimTerms, counterchainLocator := some (.btc sampleBtcLocator),
     radiantCovenantOutpoint := some "cd:0" }, by decide⟩

/-- The maker's claim: it spends the funding outpoint and reveals the
preimage. -/
def sampleClaimTx : Bytes :=
  [2, 0, 0, 0, 0, 1, 1] ++ List.replicate 32 0xaa ++ [0, 0, 0, 0, 0, 0xff, 0xff,
    0xff, 0xff] ++
    [1, 0xe8, 3, 0, 0, 0, 0, 0, 0, 1, 0x51] ++ [1, 0x20] ++
      samplePreimage ++ [0, 0, 0, 0]

def sampleClaimTxid : String :=
  "e94df254415796a28a442362f509530133d731f15d0d64b1f3561e58b4c71192"

/-- The policy scales the burial, by a value of its own that is smaller than the
swap's. -/
def sampleScaledPolicy : MarginPolicy :=
  { samplePolicy with
    rxdReorgCostPerBlock := some 400
    valueAtRiskPhotons := some 100
    valid := by decide }

def sampleRefundExecutor : RefundExecutor :=
  ⟨{ armed := false, network := "regtest", capSats := 1000, refundSpk := [0x51] }, by decide⟩

/-- A claim executor on a test network under `policy`. -/
def sampleClaimExecutor (policy : MarginPolicy) : ClaimExecutor :=
  ⟨{ armed := true, policy, network := "regtest" }, rfl⟩

/-- At the start of the tick the covenant is two deep; by the fresh read it is
twelve deep. -/
def sampleAnswer : TowerOp → Except TowerErr Reply
  | .listActive => .ok (.active [("s", sampleClaimRecord)])
  | .observe _ _ => .ok (.observations {
      makerHasClaimedBtc := true, nowRxdHeight := 101,
        assetLockedAtHeight := some 100,
      btcClaimConfirmations := some 6 })
  | .resolveLeg _ _ => .ok (.leg ⟨0, true⟩)
  | .claimStatus _ _ => .ok (.status true (some sampleClaimTxid))
  | .claimConfirmations _ => .ok (.int 6)
  | .claimTxBytes _ => .ok (.bytes sampleClaimTx)
  | .expectedCovenantScriptpubkey _ _ => .ok (.bytes [0x51])
  | .findCovenantUtxo _ _ _ => .ok (.utxo "cd:0" 5000 100)
  | .covenantUnspentInclMempool _ _ => .ok (.bool true)
  | .chainConfirmations _ _ => .ok (.int 12)
  | .claimAsset _ _ _ => .ok (.str "ef")
  | .corroboratedConfirmations _ => .error (.network "below quorum")
  | _ => .ok .none

def sampleEnv : TowerEnv where
  answer _ := sampleAnswer
  lists := by
    intro t reply h
    cases h
    exact ⟨_, rfl⟩

/-- The tower under `policy` against those answers. -/
def sampleRun (policy : MarginPolicy) :
    Run TowerOp Reply Unit TowerErr (List ReconcileResult) :=
  ((Reconciler.tower policy 6 sampleRefundExecutor
    (sampleClaimExecutor policy)).ticks 1).run
    (fun _ => sampleAnswer) () []

/-- An answer on the trace is the collaborator's. -/
theorem run_answers {α : Type} (answer : TowerOp → Except TowerErr Reply)
    (p : Tower α) {s : Unit}
    {op : TowerOp} {r : Except TowerErr Reply}
    (h : .call s op r ∈ (p.run (fun _ => answer) () []).trace) :
    r = answer op := by
  rcases run_answered (fun _ => answer) p h with hnil | ⟨-, hr⟩
  · cases hnil
  · exact hr

/-- Events since the last start are events. -/
theorem mem_of_mem_fresh {t : List TowerEvent} {e : TowerEvent}
    (h : e ∈ fresh t) : e ∈ t := by
  unfold fresh at h
  rw [List.mem_reverse] at h
  exact List.mem_reverse.mp ((List.takeWhile_sublist _).subset h)

/-- The sample swap's asset is claimed. -/
def TowerEvent.claims : TowerEvent → Bool
  | .call _ (.claimAsset _ record _) _ => record = sampleClaimRecord
  | _ => false

theorem sampleRun_claims : (sampleRun sampleScaledPolicy).trace.any TowerEvent.claims = true := by
  decide +kernel

/-- Without a value scaling in the policy the two gates are one. -/
theorem ticks_safe_flat : GateAgrees samplePolicy sampleClaimTerms ∧
    TowerSafe sampleRefundExecutor (sampleClaimExecutor samplePolicy)
      (sampleRun samplePolicy) := by
  have hagree : GateAgrees samplePolicy sampleClaimTerms := by decide
  refine ⟨hagree,
    ticks_safe samplePolicy 6 _ _ sampleEnv 1 fun record hlisted => ?_⟩
  obtain ⟨swaps, sid, hans, hmem⟩ := hlisted
  have hans := run_answers sampleAnswer _ hans
  cases hans
  cases List.mem_singleton.mp hmem
  exact hagree

/-- The claim fires nine blocks before the refund opens, on a gate that was
asked to protect the policy's 100 photons; the swap's 5000 need thirteen
blocks. -/
theorem ticks_unsafe_scaled : ¬ TowerSafe sampleRefundExecutor
    (sampleClaimExecutor sampleScaledPolicy)
      (sampleRun sampleScaledPolicy) := by
  intro hsafe
  obtain ⟨e, he, hclaims⟩ := List.any_eq_true.mp sampleRun_claims
  obtain ⟨pre, post, hsplit⟩ := List.append_of_mem he
  have hallowed := hsafe.allowed pre e post hsplit
  have hans : ∀ s op r, Event.call s op r ∈ pre ++ e :: post →
      r = sampleAnswer op := by
    rw [← hsplit]
    exact fun s op r hmem => run_answers sampleAnswer _ hmem
  cases e with
  | write s s' => cases hclaims
  | call s op r =>
    cases op with
    | claimAsset leg record p =>
      obtain ⟨-, reads, hj⟩ := hallowed
      have hfresh : ∀ op r, Answered (fresh pre) op r →
          .ok r = sampleAnswer op := by
        intro op r h
        exact hans () op (.ok r) (List.mem_append_left _ (mem_of_mem_fresh h))
      -- the evidence can only be the answers given, and they are not SAFE at
      -- this value
      have hrecord : record = sampleClaimRecord := of_decide_eq_true hclaims
      subst hrecord
      obtain ⟨_, _, _, _, _, _, _, _, o, v, h, n, b, cov, verdict⟩ := reads
      have hcov := hfresh _ _ hj.covenant
      have hnode := hfresh _ _ hj.node
      cases hcov
      cases hnode
      have hdepth : cov = 12 := by
        rcases hj.quorum with h | ⟨q, hq, -⟩
        · exact h
        · cases hfresh _ _ hq
      subst hdepth
      have hbad :=
        (assessClaimFinality_safe_iff (sampleClaimTerms.sound.tRxd)).mp hj.safe
      have hburial : rxdBurial sampleScaledPolicy (some 5000) ≤
          blocksLeft 111 100 sampleClaimTerms.tRxd :=
        hbad.2.2.2.2
      exact absurd hburial (by decide +kernel)
    | _ => cases hclaims

end Pyrxd.Watch
