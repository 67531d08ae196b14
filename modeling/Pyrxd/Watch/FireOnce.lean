import Pyrxd.Gravity.SeenStore
import Pyrxd.Watch.TowerRuns

/-!
# Claiming an outpoint once

Sequences of `ClaimExecutor.execute` calls over one seen-store. The executor
probes `claim:<outpoint>` before the fresh depth reads and marks it after a
successful broadcast; the covenant reads unspent until the claim confirms, so
this is all that keeps a tick from claiming again.

Both shipped stores are modelled: `SeenStore` of `gravity/radiant_leg.py` takes
any key, `DurableSeenStore` of `gravity/seen_store.py` refuses a key that is not
32 bytes long. The guard works exactly where the store takes the key
(`execute_fireOnce_iff`).
-/

namespace Pyrxd.Gravity

open Pyrxd.Lib

/-- `SeenStore` of `gravity/radiant_leg.py`. -/
structure SeenStore where
  seen : Finset Bytes

namespace SeenStore

/-- `has_seen`. -/
def hasSeen (st : SeenStore) (hashlock : Bytes) : Bool := hashlock ∈ st.seen

/-- `mark_seen`. -/
def markSeen (st : SeenStore) (hashlock : Bytes) : SeenStore :=
  ⟨insert hashlock st.seen⟩

end SeenStore

end Pyrxd.Gravity

namespace Pyrxd.Watch

open Pyrxd.Lib Pyrxd.Lib.Prog Pyrxd.Btc Pyrxd.Gravity

/-! ## The wired store -/

/-- Either shipped store. -/
inductive WiredStore where
  | inProcess (st : SeenStore)
  | durable (st : DurableSeenStore)

namespace WiredStore

/-- `has_seen`, as the executor gets it. -/
def hasSeen (st : WiredStore) (key : Bytes) : Except TowerErr Reply :=
  match st with
  | inProcess st => .ok (.bool (st.hasSeen key))
  | durable st =>
    match st.hasSeen key with
    | .ok b => .ok (.bool b)
    | .error e => .error (.ofPy e)

/-- `mark_seen`: the answer and the store after it. -/
def markSeen (st : WiredStore) (key : Bytes) :
    Except TowerErr Reply × WiredStore :=
  match st with
  | inProcess st => (.ok .none, inProcess (st.markSeen key))
  | durable st =>
    match st.markSeen key with
    | (.ok _, st') => (.ok .none, durable st')
    | (.error e, st') => (.error (.ofPy e), durable st')

/-- The key is recorded. -/
def Holds (st : WiredStore) (key : Bytes) : Prop :=
  match st with
  | inProcess st => key ∈ st.seen
  | durable st => key ∈ st.rows

/-- The store takes keys of this length. -/
def Accepts (st : WiredStore) (key : Bytes) : Prop :=
  match st with
  | inProcess _ => True
  | durable _ => key.length = 32

instance (st : WiredStore) (key : Bytes) : Decidable (st.Holds key) :=
  match st with
  | inProcess st => inferInstanceAs (Decidable (key ∈ st.seen))
  | durable st => inferInstanceAs (Decidable (key ∈ st.rows))

/-- A key the store takes is looked up. -/
theorem hasSeen_of_accepts {st : WiredStore} {key : Bytes}
    (h : st.Accepts key) :
    st.hasSeen key = .ok (.bool (Decidable.decide (st.Holds key))) := by
  cases st with
  | inProcess st => rfl
  | durable st =>
    have hlen : key.length = 32 := h
    simp only [hasSeen, DurableSeenStore.hasSeen,
      DurableSeenStore.checkHashlock, refuseIf, hlen,
      ne_eq, not_true_eq_false, if_false, ok_bind, pure_eq_ok, Except.map]
    rfl

/-- A key the store does not take is refused with an exception. -/
theorem hasSeen_of_not_accepts {st : WiredStore} {key : Bytes}
    (h : ¬ st.Accepts key) :
    ∃ e, st.hasSeen key = .error e := by
  cases st with
  | inProcess st => exact absurd trivial h
  | durable st =>
    have hlen : key.length ≠ 32 := h
    refine ⟨.validation "hashlock must be 32 bytes", ?_⟩
    simp [hasSeen, DurableSeenStore.hasSeen, DurableSeenStore.checkHashlock,
      refuseIf, hlen,
      Except.map, invalid, TowerErr.ofPy]

theorem markSeen_of_accepts {st : WiredStore} {key : Bytes}
    (h : st.Accepts key) :
    (st.markSeen key).1 = .ok .none := by
  cases st with
  | inProcess st => rfl
  | durable st =>
    have hlen : key.length = 32 := h
    simp [markSeen, DurableSeenStore.markSeen, DurableSeenStore.checkHashlock,
      refuseIf, hlen]

/-- What a mark records. -/
theorem holds_markSeen {st : WiredStore} {key : Bytes}
    (h : st.Accepts key) (k : Bytes) :
    (st.markSeen key).2.Holds k ↔ k = key ∨ st.Holds k := by
  cases st with
  | inProcess st => simp [markSeen, SeenStore.markSeen, Holds]
  | durable st =>
    have hlen : key.length = 32 := h
    simp [markSeen, DurableSeenStore.markSeen, DurableSeenStore.checkHashlock,
      refuseIf, hlen, Holds, DurableSeenStore.insertOrIgnore_rows]

/-- Marking does not change which keys it takes. -/
theorem accepts_markSeen {st : WiredStore} {key k : Bytes} :
    (st.markSeen key).2.Accepts k ↔ st.Accepts k := by
  cases st with
  | inProcess st => exact Iff.rfl
  | durable st =>
    unfold markSeen
    dsimp only
    split <;> exact Iff.rfl

end WiredStore

/-- Outpoints are told apart by their keys. -/
theorem claimKey_injective {o o' : String}
    (h : claimKey o = claimKey o') : o = o' := by
  have hbytes : ("claim:" ++ o).toUTF8 = ("claim:" ++ o').toUTF8 :=
    ByteArray.ext (Array.toList_inj.mp h)
  exact (String.append_right_inj "claim:").mp (String.toByteArray_inj.mp hbytes)

/-! ## One call -/

/-- One `execute`: its arguments, and how everything but the store answers
during it. -/
structure ClaimCall where
  swapId : String
  record : SwapRecord
  decision : Decision
  answer : TowerOp → Except TowerErr Reply

namespace ClaimCall

/-- The answers of one call: the store's are its own. -/
def replies (call : ClaimCall) (st : WiredStore) : TowerOp →
    Except TowerErr Reply
  | .hasSeen key => st.hasSeen key
  | .markSeen key => (st.markSeen key).1
  | op => call.answer op

/-- The covenant of the call sits at `outpoint`. -/
def CovenantAt (call : ClaimCall) (outpoint : String) : Prop :=
  ∃ leg spk value height, call.answer (.resolveLeg call.swapId call.record) =
    .ok (.leg leg) ∧
    call.answer (.expectedCovenantScriptpubkey leg call.record.terms) =
      .ok (.bytes spk) ∧
    call.answer (.findCovenantUtxo leg spk call.record.terms.radiantAmount) =
      .ok (.utxo outpoint value height)

end ClaimCall

/-- One call and what came of it. -/
structure ClaimRun where
  call : ClaimCall
  before : WiredStore
  result : Except TowerErr (Option ExecOutcome)
  calls : List TowerOp
  after : WiredStore

/-- The store after these calls. -/
def WiredStore.replay (st : WiredStore) (ops : List TowerOp) : WiredStore :=
  ops.foldl (fun st op => match op with
    | .markSeen key => (st.markSeen key).2
    | _ => st) st

namespace ClaimExecutor

/-- `execute` once, on the store as it stands. -/
def executeOn (c : ClaimExecutor) (st : WiredStore)
    (call : ClaimCall) : ClaimRun :=
  let body := c.execute call.swapId call.record call.decision
  let ops := body.calls (call.replies st) ()
  ⟨call, st, (body.eval (call.replies st) ()).1, ops, st.replay ops⟩

/-- A sequence of calls over one store. -/
def executeAll (c : ClaimExecutor) (st : WiredStore) :
    List ClaimCall → List ClaimRun
  | [] => []
  | next :: rest =>
    let run := c.executeOn st next
    run :: c.executeAll run.after rest

end ClaimExecutor

/-- The call returned BROADCAST for the covenant at `outpoint`. -/
def ClaimRun.BroadcastsAt (run : ClaimRun) (outpoint : String) : Prop :=
  run.result = .ok (some .broadcast) ∧ run.call.CovenantAt outpoint

/-! ## The gates -/

/-- What a call finds when every gate passes. -/
structure ClaimPass where
  leg : ClaimLeg
  locator : BtcHtlcLocator
  claimTxid : String
  raw : Bytes
  preimage : Bytes
  spk : Bytes
  outpoint : String
  value : Int
  fundedH : Int
  singleNodeConfs : Int
  btcConfs : Int
  covConfs : Int
  verdict : CounterClaimFinality

/-- Every gate of `_run` passes, the fire-once probe apart. -/
structure ClaimPass.Gates (g : ClaimPass) (c : ClaimExecutor)
    (call : ClaimCall) : Prop where
  asked : call.decision.autonomousAssetClaim = true
  intent : call.decision.intent = .pageClaim
  btc : call.record.terms.counterChain = .btc
  armed : c.armed = true
  leg : call.answer (.resolveLeg call.swapId call.record) = .ok (.leg g.leg)
  corroborated : call.decision.lowCorroboration = true →
    c.acceptSingleSource = true
  cap : c.checkValueCap call.record = .ok none
  locator : call.record.counterchainLocator = some (.btc g.locator)
  claimed : call.answer (.claimStatus g.locator.fundingOutpoint.txid
    g.locator.fundingOutpoint.vout) =
    .ok (.status true (some g.claimTxid))
  bytes : call.answer (.claimTxBytes g.claimTxid) = .ok (.bytes g.raw)
  nonempty : g.raw ≠ []
  bound : ClaimExecutor.BytesBound g.locator g.claimTxid g.raw
  scraped : scrapeSecret g.raw call.record.terms.hashlock = .ok g.preimage
  hash : sha256 g.preimage = call.record.terms.hashlock
  spk : call.answer (.expectedCovenantScriptpubkey g.leg call.record.terms) =
    .ok (.bytes g.spk)
  covenant : call.answer
    (.findCovenantUtxo g.leg g.spk call.record.terms.radiantAmount) =
    .ok (.utxo g.outpoint g.value g.fundedH)
  mempool : g.leg.hasMempoolCheck = true → ∃ r,
    call.answer (.covenantUnspentInclMempool g.leg g.outpoint) = .ok r ∧
      r ≠ .bool false
  node : call.answer (.chainConfirmations g.leg (outpointTxid g.outpoint)) =
    .ok (.int g.singleNodeConfs)
  depth : call.answer (.claimConfirmations g.claimTxid) = .ok (.int g.btcConfs)
  quorum : if c.hasCorroborator then ∃ q,
      call.answer (.corroboratedConfirmations g.outpoint) = .ok (.int q) ∧
        g.covConfs = max g.singleNodeConfs q
    else g.covConfs = g.singleNodeConfs
  verdict : c.freshVerdict g.btcConfs = .ok g.verdict
  safe : assessClaimFinality g.verdict
    (ClaimExecutor.nowRxd g.fundedH g.covConfs) g.fundedH
    call.record.terms.tRxd c.policy = .ok .safe

/-! ## Evaluating the stages -/

/-- The stage goes on with `v`. -/
def GoesOn {α : Type} (answer : TowerOp → Except TowerErr Reply)
    (X : Tower (Except Stop α)) (v : α) :
    Prop :=
  eval answer X () = (.ok (.ok v), ())

/-- An attempt turns an ordinary error into a value. -/
theorem eval_attempt {α : Type} {answer : TowerOp → Except TowerErr Reply}
    {body : Tower α} :
    eval answer (Tower.attempt body) () = match eval answer body () with
      | (.ok a, _) => (.ok (.ok a), ())
      | (.error e, _) =>
        if e.IsBase then (.error e, ()) else (.ok (.error e), ()) := by
  unfold Tower.attempt
  rw [eval_tryCatch, eval_bind]
  rcases eval answer body () with ⟨e | a, s⟩
  · dsimp only
    split <;> rfl
  · rfl

theorem eval_ask {α : Type} {answer : TowerOp → Except TowerErr Reply}
    {op : TowerOp}
    {reading : Reply → Except TowerErr α} :
    eval answer (Tower.ask op reading) () = ((answer op).bind reading, ()) := by
  unfold Tower.ask
  rw [eval_bind, eval_invoke]
  cases answer op <;> simp [Except.bind]

theorem eval_pure' {α : Type} {answer : TowerOp → Except TowerErr Reply}
    {x : Except PyErr α} :
    eval answer (Tower.pure' x) () = (Tower.raised x, ()) := eval_lift

section Stages

variable {answer : TowerOp → Except TowerErr Reply} {c : ClaimExecutor}
  {swapId : String}
  {record : SwapRecord} {decision : Decision}

namespace ClaimExecutor

theorem resolveLeg_goesOn {leg : ClaimLeg} :
    GoesOn answer (c.resolveLeg swapId record) leg ↔
      c.armed = true ∧ answer (.resolveLeg swapId record) = .ok (.leg leg) := by
  unfold GoesOn resolveLeg Stage.decline
  by_cases harmed : c.armed = true
  · rw [if_neg (by simp [harmed]), eval_bind, eval_attempt, eval_invoke]
    cases hr : answer (.resolveLeg swapId record) with
    | error e => by_cases hb : e.IsBase <;> simp [hb, Stage.fail, eval]
    | ok r => cases r <;> simp [harmed, Stage.go, eval, Reply.wrongClass]
  · simp [harmed, eval]

theorem checkPolicy_goesOn {locator : BtcHtlcLocator} :
    GoesOn answer (c.checkPolicy record decision) locator ↔
      (decision.lowCorroboration = true → c.acceptSingleSource = true) ∧
      c.checkValueCap record = .ok none ∧
      record.counterchainLocator = some (.btc locator) := by
  unfold GoesOn checkPolicy
  by_cases hlow : decision.lowCorroboration = true ∧
    c.acceptSingleSource = false
  · simp [hlow, Stage.decline, eval]
  · rw [if_neg hlow, eval_bind, eval_pure']
    have hpass : decision.lowCorroboration = true →
        c.acceptSingleSource = true := by
      intro h
      by_contra hf
      exact hlow ⟨h, eq_false_of_ne_true hf⟩
    cases hcap : c.checkValueCap record with
    | error e => simp [Tower.raised]
    | ok reason =>
      cases reason with
      | some reason => simp [Tower.raised, Stage.decline, eval]
      | none =>
        cases hloc : record.counterchainLocator with
        | none => simp [Tower.raised, Stage.decline, eval]
        | some locator' =>
          cases locator' with
          | btc l => simpa [Tower.raised, Stage.go, eval] using fun _ => hpass
          | eth l => simp [Tower.raised, Reply.wrongClass]

theorem freshClaim_goesOn {locator : BtcHtlcLocator} {claimTxid : String} :
    GoesOn answer (freshClaim locator) claimTxid ↔
      answer (.claimStatus locator.fundingOutpoint.txid
        locator.fundingOutpoint.vout) =
        .ok (.status true (some claimTxid)) := by
  unfold GoesOn freshClaim
  rw [eval_bind, eval_attempt, eval_invoke]
  cases hr : answer (.claimStatus locator.fundingOutpoint.txid
      locator.fundingOutpoint.vout) with
  | error e => by_cases hb : e.IsBase <;> simp [hb, Stage.fail, eval]
  | ok r =>
    cases r with
    | status claimed txid =>
      cases claimed <;> cases txid <;> simp [Stage.decline, Stage.go, eval]
    | _ => simp [Stage.decline, eval]

/-- When the stage that reads the claim does. -/
theorem claimBytes_goesOn {locator : BtcHtlcLocator} {claimTxid : String}
    {raw : Bytes} :
    GoesOn answer (claimBytes locator claimTxid) raw ↔
      answer (.claimTxBytes claimTxid) = .ok (.bytes raw) ∧ raw ≠ [] ∧
      BytesBound locator claimTxid raw := by
  unfold GoesOn claimBytes
  rw [eval_bind, eval_attempt, eval_invoke]
  cases hr : answer (.claimTxBytes claimTxid) with
  | error e => by_cases hb : e.IsBase <;> simp [hb, Stage.fail, eval]
  | ok r =>
    by_cases ht : r.truthy = false
    · cases r <;> simp_all [Reply.truthy, Stage.fail, eval]
    · cases r with
      | bytes b =>
        have hne : b ≠ [] := by simpa [Reply.truthy] using ht
        simp only [if_neg ht, Reply.asBytes, eval_bind, eval_lift]
        rw [← checkClaimBytes_none]
        by_cases hraw : b = raw
        · subst hraw
          cases hc : checkClaimBytes locator claimTxid b with
          | error e => cases e <;> simp [Stage.fail, eval]
          | ok stop => cases stop <;> simp [Stage.go, eval, hne]
        · cases hc : checkClaimBytes locator claimTxid b with
          | error e => cases e <;> simp [Stage.fail, eval, hraw]
          | ok stop => cases stop <;> simp [Stage.go, eval, hraw]
      | _ => simp [ht, Reply.asBytes, Reply.wrongClass]

theorem scrape_goesOn {raw p : Bytes} :
    GoesOn answer (scrape record raw) p ↔
      scrapeSecret raw record.terms.hashlock = .ok p ∧
        sha256 p = record.terms.hashlock := by
  unfold GoesOn scrape
  cases hs : scrapeSecret raw record.terms.hashlock with
  | error e => simp [Stage.decline, eval]
  | ok q =>
    by_cases hqp : q = p
    · subst hqp
      by_cases hq : sha256 q = record.terms.hashlock
      · simp [hq, Stage.go, eval]
      · simp [hq, Stage.decline, eval]
    · by_cases hq : sha256 q = record.terms.hashlock
      · simp [hq, hqp, Stage.go, eval]
      · simp [hq, hqp, Stage.decline, eval]

/-- What the two reads of the covenant come to. -/
theorem eval_readCovenant {leg : ClaimLeg} {found : String × Int × Int} :
    eval answer (readCovenant leg record) () = (.ok found, ()) ↔ ∃ spk,
      answer (.expectedCovenantScriptpubkey leg record.terms) =
        .ok (.bytes spk) ∧
      answer (.findCovenantUtxo leg spk record.terms.radiantAmount) =
        .ok (.utxo found.1 found.2.1 found.2.2) := by
  unfold readCovenant
  rw [eval_bind, eval_ask]
  cases hs : answer (.expectedCovenantScriptpubkey leg record.terms) with
  | error e => simp [Except.bind]
  | ok r =>
    cases r with
    | bytes spk =>
      simp only [Except.bind, Reply.asBytes, eval_ask]
      cases hu :
          answer (.findCovenantUtxo leg spk record.terms.radiantAmount) with
      | error e => simp [hu]
      | ok r =>
        cases r <;> simp [hu, Reply.asUtxo, Reply.wrongClass, Prod.ext_iff]
    | _ => simp [Except.bind, Reply.asBytes, Reply.wrongClass]

/-- When the covenant stage does. -/
theorem freshCovenant_goesOn {leg : ClaimLeg} {found : String × Int} :
    GoesOn answer (freshCovenant leg record) found ↔ ∃ spk value,
      answer (.expectedCovenantScriptpubkey leg record.terms) =
        .ok (.bytes spk) ∧
      answer (.findCovenantUtxo leg spk record.terms.radiantAmount) =
        .ok (.utxo found.1 value found.2) := by
  have hread : (∃ spk value,
      answer (.expectedCovenantScriptpubkey leg record.terms) =
        .ok (.bytes spk) ∧
      answer (.findCovenantUtxo leg spk record.terms.radiantAmount) =
        .ok (.utxo found.1 value found.2)) ↔
      ∃ value, eval answer (readCovenant leg record) () =
        (.ok (found.1, value, found.2), ()) := by
    rw [exists_comm]
    refine exists_congr fun value => ?_
    rw [eval_readCovenant]
  rw [hread]
  unfold GoesOn freshCovenant
  rw [eval_bind, eval_attempt]
  rcases eval answer (readCovenant leg record) () with ⟨e | ⟨outpoint,
    value, height⟩, u⟩
  · cases e with
    | network m =>
      cases hm : isMissingUtxo m <;> simp [TowerErr.IsBase, hm, Stage.decline,
        Stage.fail, eval]
    | _ => simp [TowerErr.IsBase, Stage.decline, eval]
  · simp [Stage.go, eval, Prod.ext_iff]

/-- When the mempool stage does. -/
theorem checkMempool_goesOn {leg : ClaimLeg} {outpoint : String} :
    GoesOn answer (checkMempool leg outpoint) () ↔
      (leg.hasMempoolCheck = true →
        ∃ r, answer (.covenantUnspentInclMempool leg outpoint) = .ok r ∧
          r ≠ .bool false) := by
  unfold GoesOn checkMempool
  by_cases hcheck : leg.hasMempoolCheck = false
  · simp [hcheck, Stage.go, eval]
  · rw [if_neg hcheck, eval_bind, eval_attempt, eval_invoke]
    have hcheck : leg.hasMempoolCheck = true := eq_true_of_ne_false hcheck
    cases hr : answer (.covenantUnspentInclMempool leg outpoint) with
    | error e =>
      cases e <;> simp [TowerErr.IsBase, hcheck, Stage.fail, eval]
    | ok r =>
      cases r with
      | bool b => cases b <;> simp [Stage.decline, Stage.go, eval, hcheck]
      | _ => simp [Stage.go, eval]

/-- When the store's probe does. -/
theorem probeSeen_goesOn {outpoint : String} (hstore : c.hasSeenStore = true) :
    GoesOn answer (c.probeSeen outpoint) () ↔
      ∃ r, answer (.hasSeen (claimKey outpoint)) = .ok r ∧
        r.truthy = false := by
  unfold GoesOn probeSeen
  rw [if_neg (by simp [hstore]), eval_bind, eval_invoke]
  cases hr : answer (.hasSeen (claimKey outpoint)) with
  | error e => simp
  | ok r => cases ht : r.truthy <;> simp [ht, Stage.decline, Stage.go, eval]

theorem freshDepths_goesOn {leg : ClaimLeg} {outpoint claimTxid : String}
    {depths : Int × Int} :
    GoesOn answer (freshDepths leg outpoint claimTxid) depths ↔
      answer (.chainConfirmations leg (outpointTxid outpoint)) =
        .ok (.int depths.1) ∧
      answer (.claimConfirmations claimTxid) = .ok (.int depths.2) := by
  unfold GoesOn freshDepths readDepths
  rw [eval_bind, eval_attempt, eval_bind, eval_ask]
  cases hn : answer (.chainConfirmations leg (outpointTxid outpoint)) with
  | error e =>
    by_cases hb : e.IsBase <;> simp [Except.bind, hb, Stage.fail, eval]
  | ok r =>
    cases r with
    | int n =>
      simp only [Except.bind, Reply.asInt, eval_bind, eval_ask]
      cases hd : answer (.claimConfirmations claimTxid) with
      | error e => by_cases hb : e.IsBase <;> simp [hb, Stage.fail, eval]
      | ok r =>
        cases r <;> simp [Reply.wrongClass, TowerErr.IsBase, Stage.fail,
          Stage.go, eval,
          Prod.ext_iff]
    | _ =>
      simp [Except.bind, Reply.asInt, Reply.wrongClass, TowerErr.IsBase,
        Stage.fail, eval]

/-- When the corroboration does. -/
theorem corroborate_goesOn {outpoint : String} {single covConfs : Int} :
    GoesOn answer (c.corroborate outpoint single) covConfs ↔
      if c.hasCorroborator then ∃ q,
        answer (.corroboratedConfirmations outpoint) = .ok (.int q) ∧
          covConfs = max single q
      else covConfs = single := by
  unfold GoesOn corroborate
  cases hc : c.hasCorroborator with
  | false => simp [Stage.go, eval, eq_comm]
  | true =>
    rw [if_neg (by simp), eval_bind, eval_attempt, eval_invoke]
    cases hr : answer (.corroboratedConfirmations outpoint) with
    | error e => by_cases hb : e.IsBase <;> simp [hb, Stage.decline, eval]
    | ok r =>
      cases r <;> simp [Stage.decline, Stage.go, eval, Reply.asInt,
        Reply.wrongClass, eq_comm]

/-- When the gate's reassessment does. -/
theorem reassess_goesOn {fundedH covConfs btcConfs : Int} :
    GoesOn answer (c.reassess record fundedH covConfs btcConfs) () ↔
      ∃ verdict, c.freshVerdict btcConfs = .ok verdict ∧
        assessClaimFinality verdict (nowRxd fundedH covConfs)
          fundedH record.terms.tRxd c.policy =
          .ok .safe := by
  unfold GoesOn reassess
  rw [eval_bind, eval_pure']
  cases hv : c.freshVerdict btcConfs with
  | error e => simp [Tower.raised]
  | ok verdict =>
    simp only [Tower.raised]
    cases ha : assessClaimFinality verdict (nowRxd fundedH covConfs)
        fundedH record.terms.tRxd
        c.policy with
    | error e => cases e <;> simp [Stage.decline, eval, ha]
    | ok v => cases v <;> simp [Stage.decline, Stage.go, eval, ha]

end ClaimExecutor

/-- The body never ends the run with BROADCAST. -/
def Withholds {α : Type} (answer : TowerOp → Except TowerErr Reply)
    (X : Tower (Except Stop α)) : Prop :=
  ∀ stop, (eval answer X ()).1 = .ok (.error stop) → stop.1 ≠ .broadcast

namespace Withholds

variable {α β : Type}

/-- Going on withholds nothing yet to be told. -/
theorem go {a : α} : Withholds answer (Prog.ret (.ok a)) := by
  intro stop h
  cases h

/-- Declining broadcasts nothing. -/
theorem decline {reason : String} :
    @Withholds α answer (Stage.decline reason) := by
  intro stop h
  cases h
  simp

theorem fail {reason : String} : @Withholds α answer (Stage.fail reason) := by
  intro stop h
  cases h
  simp

theorem raise {e : TowerErr} : @Withholds α answer (Prog.raise e) := by
  intro stop h
  cases h

/-- Only the last part decides. -/
theorem bind {p : Tower β} {f : β → Tower (Except Stop α)}
    (h : ∀ b, Withholds answer (f b)) :
    Withholds answer (p >>= f) := by
  intro stop hs
  rw [eval_bind] at hs
  rcases hr : eval answer p () with ⟨e | b, u⟩
  · rw [hr] at hs
    cases hs
  · rw [hr] at hs
    exact h b stop hs

theorem ite {c : Prop} [Decidable c] {X Y : Tower (Except Stop α)}
    (hX : Withholds answer X)
    (hY : Withholds answer Y) : Withholds answer (if c then X else Y) := by
  split
  · exact hX
  · exact hY

theorem andThen {X : Tower (Except Stop β)} {f : β → Tower (Except Stop α)}
    (hX : Withholds answer X)
    (hf : ∀ b, Withholds answer (f b)) :
    Withholds answer (Stage.andThen X f) := by
  intro stop hs
  unfold Stage.andThen at hs
  rw [eval_bind] at hs
  rcases hr : eval answer X () with ⟨e | (s | b), u⟩
  · rw [hr] at hs
    cases hs
  · rw [hr] at hs
    cases hs
    exact hX stop (by rw [hr])
  · rw [hr] at hs
    exact hf b stop hs

end Withholds

namespace ClaimExecutor

/-- The two parses stop with FAILED or DECLINED. -/
theorem checkClaimBytes_withholds {locator : BtcHtlcLocator}
    {claimTxid : String} {raw : Bytes}
    {stop : Stop}
    (h : checkClaimBytes locator claimTxid raw = .ok (some stop)) :
    stop.1 ≠ .broadcast := by
  unfold checkClaimBytes at h
  obtain ⟨txid, -, h⟩ := bind_ok.mp h
  split at h
  · cases h
    decide
  · obtain ⟨prevout, -, h⟩ := bind_ok.mp h
    obtain ⟨prevouts, -, h⟩ := bind_ok.mp h
    split at h
    · cases h
      decide
    · cases h

/-- So nothing before the last stage broadcasts. -/
theorem stages_withholds :
    Withholds answer (c.stages swapId record decision) := by
  unfold stages
  refine .andThen (.ite .decline (.bind fun r => ?_)) fun leg => ?_
  -- stage by stage: each declines, fails, raises or goes on
  · rcases r with e | r
    · exact .fail
    · cases r <;> first | exact .go | exact .decline | exact .raise
  refine .andThen (.ite .decline (.bind fun r => ?_)) fun locator => ?_
  · rcases r with _ | reason
    · dsimp only
      split <;> first | exact .go | exact .decline | exact .raise
    · exact .decline
  refine .andThen (.bind fun r => ?_) fun claimTxid => ?_
  · split <;> first | exact .go | exact .decline | exact .fail
  refine .andThen (.bind fun r => ?_) fun raw => ?_
  · rcases r with e | r
    · exact .fail
    · refine .ite .fail (.bind fun raw => ?_)
      split
      · exact .fail
      · exact .raise
      · next h =>
          exact fun s hs => by cases hs; exact checkClaimBytes_withholds h
      · exact .go
  refine .andThen ?_ fun p => ?_
  · unfold scrape
    split
    · exact .decline
    · exact .ite .decline .go
  refine .andThen (.bind fun r => ?_) fun found => ?_
  · split
    · exact .go
    · exact .ite .decline .fail
    · exact .decline
    · exact .raise
  obtain ⟨outpoint, fundedH⟩ := found
  refine .andThen (.ite .go (.bind fun r => ?_)) fun _ => ?_
  · split <;> first | exact .go | exact .decline | exact .fail | exact .raise
  refine .andThen (.ite .go (.bind fun r => .ite .decline .go)) fun _ => ?_
  refine .andThen (.bind fun r => ?_) fun depths => ?_
  · split
    · exact .fail
    · exact .go
  obtain ⟨single, btcConfs⟩ := depths
  refine .andThen (.ite .go (.bind fun r => ?_)) fun covConfs => ?_
  · split
    · exact .decline
    · exact .decline
    · exact .bind fun _ => .go
  refine .andThen (.bind fun verdict => ?_) fun _ => ?_
  · split <;> first | exact .go | exact .decline | exact .raise
  refine .bind fun r => ?_
  split
  · exact .ite .decline .fail
  · exact .raise
  · exact .ite (.bind fun _ => .go) .go

/-! ## Calls along the stages -/

/-- Calls that only read. -/
def PlainCalls (ops : List TowerOp) : Prop := ∀ op ∈ ops, op.Reading

/-- A stage that only reads makes plain calls. -/
theorem plainCalls_of_reads {α : Type} {X : Tower (Except Stop α)}
    {F : α → List TowerEvent → Prop}
    (h : ∀ t, Reads (fun _ _ => True) t X F) :
    PlainCalls (calls answer X ()) := by
  intro op hop r
  obtain ⟨⟨⟩, hmem⟩ := mem_trace_of_mem_calls answer X () [] op hop
  obtain ⟨-, ⟨u, hu, hplain⟩, -⟩ :=
    run_meets (fun _ => answer) X () [] (obeys_nil _) (h [])
  rw [hu] at hmem
  have hop := hplain _ (by simpa using hmem)
  cases op <;> first | rfl | cases hop

/-- The run ends in `X`, without an action. -/
structure EndsIn (answer : TowerOp → Except TowerErr Reply)
    (X : Tower (Except Stop Unit)) : Prop where
  plain : PlainCalls (calls answer X ())
  stops : ¬ GoesOn answer X ()

/-- `X` comes to `Y` after plain calls. -/
structure ComesTo (answer : TowerOp → Except TowerErr Reply)
    (X Y : Tower (Except Stop Unit)) : Prop where
  result : eval answer X () = eval answer Y ()
  calls : ∃ pre, PlainCalls pre ∧
    Prog.calls answer X () = pre ++ Prog.calls answer Y ()

theorem ComesTo.refl (X : Tower (Except Stop Unit)) : ComesTo answer X X :=
  ⟨rfl, [], by simp [PlainCalls], by simp⟩

/-- A stage that goes on hands over to the next one. -/
theorem ComesTo.andThen {α : Type} {X : Tower (Except Stop α)}
    {f : α → Tower (Except Stop Unit)}
    {v : α} {Y : Tower (Except Stop Unit)}
    (hX : PlainCalls (Prog.calls answer X ()))
    (hv : GoesOn answer X v) (h : ComesTo answer (f v) Y) :
    ComesTo answer (Stage.andThen X f) Y := by
  have hv : eval answer X () = (.ok (.ok v), ()) := hv
  obtain ⟨pre, hpre, hcalls⟩ := h.calls
  refine ⟨?_, Prog.calls answer X () ++ pre, ?_, ?_⟩
  · unfold Stage.andThen
    rw [eval_bind, hv]
    exact h.result
  · intro op hop
    rcases List.mem_append.mp hop with hop | hop
    · exact hX op hop
    · exact hpre op hop
  · unfold Stage.andThen
    rw [calls_bind, hv, List.append_assoc, ← hcalls]

/-- Or the run ends there. -/
theorem EndsIn.andThen {α : Type} {X : Tower (Except Stop α)}
    {f : α → Tower (Except Stop Unit)}
    (hX : PlainCalls (calls answer X ()))
    (hf : ∀ v, GoesOn answer X v → EndsIn answer (f v)) :
    EndsIn answer (Stage.andThen X f) := by
  -- the run ends in the first stage, or goes on into the second
  by_cases hv : ∃ v, GoesOn answer X v
  · obtain ⟨v, hv⟩ := hv
    have hend := hf v hv
    have hv : eval answer X () = (.ok (.ok v), ()) := hv
    refine ⟨?_, ?_⟩
    · unfold Stage.andThen
      rw [calls_bind, hv]
      intro op hop
      rcases List.mem_append.mp hop with hop | hop
      · exact hX op hop
      · exact hend.plain op hop
    · unfold GoesOn Stage.andThen
      rw [eval_bind, hv]
      exact hend.stops
  · have hv : ∀ v, eval answer X () ≠ (.ok (.ok v), ()) := not_exists.mp hv
    unfold Stage.andThen
    refine ⟨?_, ?_⟩
    · rw [calls_bind]
      rcases hr : eval answer X () with ⟨e | (stop | v), u⟩
      · simpa using hX
      · simpa [calls] using hX
      · exact absurd hr (hv v)
    · unfold GoesOn
      rw [eval_bind]
      rcases hr : eval answer X () with ⟨e | (stop | v), u⟩
      · simp
      · simp [eval]
      · exact absurd hr (hv v)

theorem fire_calls {leg : ClaimLeg} {outpoint : String} {p : Bytes}
    (hstore : c.hasSeenStore = true) :
    calls answer (c.fire leg record outpoint p) () =
      match answer (.claimAsset leg record p) with
      | .ok _ => [.claimAsset leg record p, .markSeen (claimKey outpoint)]
      | .error _ => [.claimAsset leg record p] := by
  unfold fire Tower.attempt
  rw [calls_bind, calls_tryCatch, calls_bind, eval_tryCatch, eval_bind,
    calls_invoke, eval_invoke]
  cases hr : answer (.claimAsset leg record p) with
  | ok a =>
    simp only [hstore, if_true]
    show _ ++ calls answer (Prog.invoke _ >>= _) () = _
    rw [calls_bind, eval_invoke, calls_invoke]
    cases answer (.markSeen (claimKey outpoint)) <;> rfl
  | error e =>
    cases e with
    | network m =>
      cases hm : isMissingUtxo m <;> simp [TowerErr.IsBase, eval, calls, hm,
        Stage.decline, Stage.fail]
    | _ => simp [TowerErr.IsBase, eval, calls]

theorem fire_goesOn {leg : ClaimLeg} {outpoint : String} {p : Bytes}
    (hstore : c.hasSeenStore = true) :
    GoesOn answer (c.fire leg record outpoint p) () ↔
      (∃ a, answer (.claimAsset leg record p) = .ok a) ∧
        ∃ b, answer (.markSeen (claimKey outpoint)) = .ok b := by
  unfold GoesOn fire
  rw [eval_bind, eval_attempt, eval_invoke]
  cases hr : answer (.claimAsset leg record p) with
  | ok a =>
    simp only [hstore, if_true, eval_bind, eval_invoke]
    cases answer (.markSeen (claimKey outpoint)) <;> simp [Stage.go, eval]
  | error e =>
    cases e with
    | network m =>
      cases hm : isMissingUtxo m <;> simp [TowerErr.IsBase, eval, hm,
        Stage.decline, Stage.fail]
    | _ => simp [TowerErr.IsBase, eval]

end ClaimExecutor

end Stages

/-! ## One call against the store -/

section OneCall

variable {c : ClaimExecutor} {st : WiredStore} {next : ClaimCall}
  {g : ClaimPass}

/-- The probe lets the outpoint through. -/
def WiredStore.Probes (st : WiredStore) (outpoint : String) : Prop :=
  ∃ r, st.hasSeen (claimKey outpoint) = .ok r ∧ r.truthy = false

/-- A probe passes on a key that is taken and not held. -/
theorem WiredStore.probes_iff {outpoint : String} :
    st.Probes outpoint ↔ st.Accepts (claimKey outpoint) ∧
    ¬ st.Holds (claimKey outpoint) := by
  unfold WiredStore.Probes
  by_cases h : st.Accepts (claimKey outpoint)
  · rw [WiredStore.hasSeen_of_accepts h]
    simp [h, Reply.truthy]
  · obtain ⟨e, he⟩ := WiredStore.hasSeen_of_not_accepts h
    rw [he]
    simp [h]

namespace ClaimExecutor

/-- Where every gate passes, the stages come to the broadcast. -/
theorem stages_comesTo (hstore : c.hasSeenStore = true) (hg : g.Gates c next)
    (hprobe : st.Probes g.outpoint) :
    ComesTo (next.replies st) (c.stages next.swapId next.record next.decision)
      (c.fire g.leg next.record g.outpoint g.preimage) := by
  unfold stages
  refine .andThen (plainCalls_of_reads fun t =>
    resolveLeg_reads fun _ _ _ => trivial)
    (resolveLeg_goesOn.mpr ⟨hg.armed, hg.leg⟩) ?_
  refine .andThen (plainCalls_of_reads fun t => checkPolicy_reads)
    (checkPolicy_goesOn.mpr ⟨hg.corroborated, hg.cap, hg.locator⟩) ?_
  refine .andThen (plainCalls_of_reads fun t =>
    freshClaim_reads fun _ _ _ => trivial)
    (freshClaim_goesOn.mpr hg.claimed) ?_
  refine .andThen (plainCalls_of_reads fun t =>
    claimBytes_reads fun _ _ _ => trivial)
    (claimBytes_goesOn.mpr ⟨hg.bytes, hg.nonempty, hg.bound⟩) ?_
  refine .andThen (plainCalls_of_reads fun t => scrape_reads)
    (scrape_goesOn.mpr ⟨hg.scraped, hg.hash⟩) ?_
  refine .andThen (v := (g.outpoint, g.fundedH))
    (plainCalls_of_reads fun t => freshCovenant_reads fun _ _ _ => trivial)
    (freshCovenant_goesOn.mpr ⟨g.spk, g.value, hg.spk, hg.covenant⟩) ?_
  refine .andThen (plainCalls_of_reads fun t =>
    checkMempool_reads fun _ _ _ => trivial)
    (checkMempool_goesOn.mpr hg.mempool) ?_
  refine .andThen (plainCalls_of_reads fun t =>
    probeSeen_reads fun _ _ _ => trivial)
    ((probeSeen_goesOn hstore).mpr hprobe) ?_
  refine .andThen (v := (g.singleNodeConfs, g.btcConfs))
    (plainCalls_of_reads fun t => freshDepths_reads fun _ _ _ => trivial)
    (freshDepths_goesOn.mpr ⟨hg.node, hg.depth⟩) ?_
  refine .andThen (plainCalls_of_reads fun t =>
    corroborate_reads fun _ _ _ => trivial)
    (corroborate_goesOn.mpr hg.quorum) ?_
  exact .andThen (plainCalls_of_reads fun t => reassess_reads)
    (reassess_goesOn.mpr ⟨g.verdict, hg.verdict, hg.safe⟩) (.refl _)

/-- A decision that asks for the claim of a BTC swap. -/
def Asks (next : ClaimCall) : Prop :=
  next.decision.autonomousAssetClaim = true ∧
    next.decision.intent = .pageClaim ∧
    next.record.terms.counterChain = .btc

/-- Where some gate does not, they end before it. -/
theorem stages_endsIn (hstore : c.hasSeenStore = true) (hasks : Asks next)
    (h : ∀ g : ClaimPass, g.Gates c next → ¬ st.Probes g.outpoint) :
    EndsIn (next.replies st)
      (c.stages next.swapId next.record next.decision) := by
  unfold stages
  refine .andThen (plainCalls_of_reads fun t =>
    resolveLeg_reads fun _ _ _ => trivial)
    fun leg hleg => ?_
  refine .andThen (plainCalls_of_reads fun t => checkPolicy_reads)
    fun locator hpolicy => ?_
  refine .andThen (plainCalls_of_reads fun t =>
    freshClaim_reads fun _ _ _ => trivial)
    fun claimTxid hclaimed => ?_
  refine .andThen (plainCalls_of_reads fun t =>
    claimBytes_reads fun _ _ _ => trivial)
    fun raw hbytes => ?_
  refine .andThen (plainCalls_of_reads fun t => scrape_reads)
    fun p hscrape => ?_
  refine .andThen (plainCalls_of_reads fun t =>
    freshCovenant_reads fun _ _ _ => trivial)
    fun found hfound => ?_
  obtain ⟨outpoint, fundedH⟩ := found
  refine .andThen (plainCalls_of_reads fun t =>
    checkMempool_reads fun _ _ _ => trivial)
    fun _ hmempool => ?_
  refine .andThen (plainCalls_of_reads fun t =>
    probeSeen_reads fun _ _ _ => trivial)
    fun _ hprobe => ?_
  refine .andThen (plainCalls_of_reads fun t =>
    freshDepths_reads fun _ _ _ => trivial)
    fun depths hdepths => ?_
  obtain ⟨single, btcConfs⟩ := depths
  refine .andThen (plainCalls_of_reads fun t =>
    corroborate_reads fun _ _ _ => trivial)
    fun covConfs hcov => ?_
  refine .andThen (plainCalls_of_reads fun t => reassess_reads)
    fun _ hsafe => ?_
  obtain ⟨harmed, hleg⟩ := resolveLeg_goesOn.mp hleg
  obtain ⟨hlow, hcap, hlocator⟩ := checkPolicy_goesOn.mp hpolicy
  -- had every stage gone on, these answers would make a pass whose probe fails
  have hstatus := freshClaim_goesOn.mp hclaimed
  obtain ⟨hraw, hne, hbound⟩ := claimBytes_goesOn.mp hbytes
  obtain ⟨hscraped, hhash⟩ := scrape_goesOn.mp hscrape
  obtain ⟨spk, value, hspk, hutxo⟩ := freshCovenant_goesOn.mp hfound
  have hunspent := checkMempool_goesOn.mp hmempool
  obtain ⟨hnode, hdepth⟩ := freshDepths_goesOn.mp hdepths
  have hquorum := corroborate_goesOn.mp hcov
  obtain ⟨verdict, hverdict, hsafe⟩ := reassess_goesOn.mp hsafe
  refine absurd ((probeSeen_goesOn hstore).mp hprobe) (h ⟨leg, locator,
    claimTxid, raw, p, spk,
    outpoint, value, fundedH, single, btcConfs, covConfs, verdict⟩ ?_)
  exact {
    asked := hasks.1, intent := hasks.2.1, btc := hasks.2.2
    armed := harmed
    leg := hleg
    corroborated := hlow
    cap := hcap
    locator := hlocator
    claimed := hstatus
    bytes := hraw
    nonempty := hne
    bound := hbound
    scraped := hscraped
    hash := hhash
    spk := hspk
    covenant := hutxo
    mempool := hunspent
    node := hnode
    depth := hdepth
    quorum := hquorum
    verdict := hverdict
    safe := hsafe }

theorem execute_asks (hasks : Asks next) :
    c.execute next.swapId next.record next.decision =
      (c.stages next.swapId next.record next.decision >>= fun r => match r with
        | .error (outcome, reason) => return (some outcome, some reason)
        | .ok () => return (some .broadcast, none)) >>= fun (out : Option ExecOutcome × Option String) =>
          return out.1 := by
  have hrun : c.run next.swapId next.record next.decision =
      (c.stages next.swapId next.record next.decision >>= fun r => match r with
        | .error (outcome, reason) => return (some outcome, some reason)
        | .ok () => return (some .broadcast, none)) := by
    unfold run
    exact (if_neg (by simp [hasks.1])).trans
      ((if_neg (by simp [hasks.2.1])).trans (if_neg (by simp [hasks.2.2])))
  unfold execute
  rw [hrun]

theorem execute_eval (hasks : Asks next)
    (answer : TowerOp → Except TowerErr Reply) :
    (eval answer (c.execute next.swapId next.record next.decision) ()).1 = .ok
      (some .broadcast) ↔
      GoesOn answer (c.stages next.swapId next.record next.decision) () := by
  have hwith : Withholds answer
      (c.stages next.swapId next.record next.decision) := stages_withholds
  rw [execute_asks hasks, eval_bind, eval_bind]
  unfold GoesOn
  rcases hr : eval answer (c.stages next.swapId next.record next.decision)
    () with ⟨e | (⟨o, reason⟩ | u), s⟩
  · simp
  · have hne : o ≠ .broadcast := hwith (o, reason) (by rw [hr])
    simp [hne]
  · simp

theorem execute_calls (hasks : Asks next)
    (answer : TowerOp → Except TowerErr Reply) :
    calls answer (c.execute next.swapId next.record next.decision) () =
      calls answer (c.stages next.swapId next.record next.decision) () := by
  rw [execute_asks hasks, calls_bind, calls_bind, eval_bind]
  rcases eval answer (c.stages next.swapId next.record next.decision)
    () with ⟨e | (⟨o, reason⟩ | u), s⟩
  · simp
  · simp
  · simp

/-- A call that does not ask for a claim does nothing. -/
theorem execute_idle (h : ¬ Asks next)
    (answer : TowerOp → Except TowerErr Reply) :
    calls answer (c.execute next.swapId next.record next.decision) () = [] ∧
      (eval answer (c.execute next.swapId next.record next.decision) ()).1 ≠
        .ok (some .broadcast) := by
  unfold execute run
  by_cases h1 : next.decision.autonomousAssetClaim = false
  · simp [h1]
  · by_cases h2 : next.decision.intent = .pageClaim
    · by_cases h3 : next.record.terms.counterChain = .btc
      · exact absurd ⟨eq_true_of_ne_false h1, h2, h3⟩ h
      · simp [h1, h2, h3]
    · simp [h1, h2]

/-! ## What one call does to the store -/

/-- Calls that mark nothing leave the store alone. -/
theorem replay_plain {ops : List TowerOp} (h : PlainCalls ops) :
    st.replay ops = st := by
  induction ops generalizing st with
  | nil => rfl
  | cons op ops ih =>
    have hrest : PlainCalls ops :=
      fun op' hop' => h op' (List.mem_cons_of_mem _ hop')
    have hop := h op List.mem_cons_self (.ok .none)
    show WiredStore.replay _ ops = st
    cases op <;> first | exact ih hrest | cases hop

/-- A call either stops short of the broadcast, or all its gates and the probe
passed and it comes down to `fire`. -/
theorem executeOn_cases (hstore : c.hasSeenStore = true) (st : WiredStore)
    (next : ClaimCall) :
    ((c.executeOn st next).result ≠ .ok (some .broadcast) ∧
      PlainCalls (c.executeOn st next).calls) ∨
    ∃ g : ClaimPass, g.Gates c next ∧ st.Probes g.outpoint := by
  by_cases hasks : Asks next
  · by_cases hg : ∃ g : ClaimPass, g.Gates c next ∧ st.Probes g.outpoint
    · exact .inr hg
    · have hend := stages_endsIn hstore hasks fun g hgates hprobe => hg ⟨g,
        hgates, hprobe⟩
      refine .inl ⟨fun h => hend.stops ((execute_eval hasks _).mp h), ?_⟩
      show PlainCalls (calls _ _ ())
      rw [execute_calls hasks]
      exact hend.plain
  · obtain ⟨hcalls, hres⟩ := execute_idle (c := c) hasks (next.replies st)
    refine .inl ⟨hres, ?_⟩
    show PlainCalls (calls _ _ ())
    rw [hcalls]
    simp [PlainCalls]

/-- What a call on which every gate and the probe pass does. -/
structure Fires (g : ClaimPass) (run : ClaimRun) : Prop where
  reaches : .claimAsset g.leg run.call.record g.preimage ∈ run.calls
  only : ∀ leg record p, .claimAsset leg record p ∈ run.calls →
    leg = g.leg ∧ record = run.call.record ∧ p = g.preimage
  result : run.result = .ok (some .broadcast) ↔
    ∃ a, run.call.answer (.claimAsset g.leg run.call.record g.preimage) = .ok a
  after : run.after = if run.result = .ok (some .broadcast) then
    (run.before.markSeen (claimKey g.outpoint)).2 else run.before

/-- A claim that passes its gates and the probe fires. -/
theorem executeOn_fires (hstore : c.hasSeenStore = true) (hg : g.Gates c next)
    (hprobe : st.Probes g.outpoint) : Fires g (c.executeOn st next) := by
  have hasks : Asks next := ⟨hg.asked, hg.intent, hg.btc⟩
  have hcomes := stages_comesTo hstore hg hprobe
  have haccepts := (WiredStore.probes_iff.mp hprobe).1
  obtain ⟨pre, hpre, hstages⟩ := hcomes.calls
  have hcalls : (c.executeOn st next).calls =
      pre ++ calls (next.replies st)
        (c.fire g.leg next.record g.outpoint g.preimage) () := by
    show calls _ _ () = _
    rw [execute_calls hasks, hstages]
  have hresult : (c.executeOn st next).result = .ok (some .broadcast) ↔
      ∃ a, next.answer (.claimAsset g.leg next.record g.preimage) = .ok a := by
    refine (execute_eval hasks _).trans ?_
    unfold GoesOn
    rw [hcomes.result]
    refine (fire_goesOn hstore).trans (and_iff_left ?_)
    exact ⟨.none, WiredStore.markSeen_of_accepts haccepts⟩
  -- the broadcast is not the store's to answer
  have hfire : calls (next.replies st)
      (c.fire g.leg next.record g.outpoint g.preimage) () =
      match next.answer (.claimAsset g.leg next.record g.preimage) with
      | .ok _ =>
        [.claimAsset g.leg next.record g.preimage,
          .markSeen (claimKey g.outpoint)]
      | .error _ =>
        [.claimAsset g.leg next.record g.preimage] := fire_calls hstore
  refine ⟨?_, ?_, hresult, ?_⟩
  · rw [hcalls, hfire]
    show _ ∈ pre ++ _
    cases next.answer (.claimAsset g.leg next.record g.preimage) <;>
      exact List.mem_append_right _ List.mem_cons_self
  · intro leg record p hmem
    rw [hcalls, hfire] at hmem
    have hfired : TowerOp.claimAsset leg record p =
        .claimAsset g.leg next.record g.preimage := by
      rcases List.mem_append.mp hmem with hmem | hmem
      · cases hpre _ hmem (.ok .none)
      · cases hr : next.answer (.claimAsset g.leg next.record g.preimage) with
        | ok a => simpa [hr] using hmem
        | error e => simpa [hr] using hmem
    cases hfired
    exact ⟨rfl, rfl, rfl⟩
  · show st.replay (c.executeOn st next).calls = _
    have hreplay : ∀ ops, st.replay (pre ++ ops) = st.replay ops := by
      intro ops
      unfold WiredStore.replay
      rw [List.foldl_append]
      congr 1
      exact replay_plain hpre
    rw [hcalls, hfire, hreplay]
    cases hr : next.answer (.claimAsset g.leg next.record g.preimage) with
    | ok a => rw [if_pos (hresult.mpr ⟨a, hr⟩)]; rfl
    | error e =>
      rw [if_neg]
      · rfl
      · rw [hresult, hr]
        simp

/-- The call's covenant is the one its gates found. -/
theorem covenantAt_iff (hg : g.Gates c next) {outpoint : String} :
    next.CovenantAt outpoint ↔ outpoint = g.outpoint := by
  constructor
  · rintro ⟨leg, spk, value, height, hleg, hspk, hutxo⟩
    rw [hg.leg] at hleg
    cases hleg
    rw [hg.spk] at hspk
    cases hspk
    rw [hg.covenant] at hutxo
    cases hutxo
    rfl
  · rintro rfl
    exact ⟨g.leg, g.spk, g.value, g.fundedH, hg.leg, hg.spk, hg.covenant⟩

/-- BROADCAST comes only past the probe. -/
theorem broadcastsAt_probes (hstore : c.hasSeenStore = true) {outpoint : String}
    (h : (c.executeOn st next).BroadcastsAt outpoint) :
    ∃ g : ClaimPass, g.Gates c next ∧ st.Probes g.outpoint ∧
    g.outpoint = outpoint := by
  rcases executeOn_cases hstore st next with ⟨hno, -⟩ | ⟨g, hg, hprobe⟩
  · exact absurd h.1 hno
  · exact ⟨g, hg, hprobe, ((covenantAt_iff hg).mp h.2).symm⟩

/-- The store after a call holds what it held, and the outpoint the call
broadcast for. -/
theorem executeOn_after (hstore : c.hasSeenStore = true) (outpoint : String) :
    (c.executeOn st next).after.Holds (claimKey outpoint) ↔
      st.Holds (claimKey outpoint) ∨
        (c.executeOn st next).BroadcastsAt outpoint := by
  rcases executeOn_cases hstore st next with ⟨hno, hplain⟩ | ⟨g, hg, hprobe⟩
  · have hafter : (c.executeOn st next).after = st := replay_plain hplain
    rw [hafter]
    exact ⟨.inl, fun h => h.resolve_right fun hb => hno hb.1⟩
  · have hfires := executeOn_fires hstore hg hprobe
    have hbefore : (c.executeOn st next).before = st := rfl
    rw [hfires.after, hbefore]
    split
    · next hb =>
      rw [WiredStore.holds_markSeen (WiredStore.probes_iff.mp hprobe).1,
        or_comm]
      refine or_congr_right ?_
      rw [ClaimRun.BroadcastsAt, and_iff_right hb]
      refine Iff.trans ?_ (covenantAt_iff hg).symm
      exact ⟨claimKey_injective, fun h => by rw [h]⟩
    · next hb => exact ⟨.inl, fun h => h.resolve_right fun hb' => hb hb'.1⟩

theorem executeOn_accepts (hstore : c.hasSeenStore = true) (key : Bytes) :
    (c.executeOn st next).after.Accepts key ↔ st.Accepts key := by
  rcases executeOn_cases hstore st next with ⟨-, hplain⟩ | ⟨g, hg, hprobe⟩
  · have hafter : (c.executeOn st next).after = st := replay_plain hplain
    rw [hafter]
  · rw [(executeOn_fires hstore hg hprobe).after]
    split
    · exact WiredStore.accepts_markSeen
    · exact Iff.rfl

end ClaimExecutor

end OneCall

/-! ## Sequences of calls -/

/-- What the guard is for. -/
structure FireOnce (c : ClaimExecutor) (st : WiredStore)
    (claims : List ClaimCall) : Prop where
  /-- No outpoint is broadcast twice. -/
  once : (c.executeAll st claims).Pairwise fun run later =>
    ∀ outpoint, run.BroadcastsAt outpoint → ¬ later.BroadcastsAt outpoint
  /-- Where every gate passes and the outpoint is new, the claim goes out, and
  its success is reported as BROADCAST. -/
  reaches : ∀ pre run post, c.executeAll st claims = pre ++ run :: post →
    ∀ g : ClaimPass, g.Gates c run.call → ¬ st.Holds (claimKey g.outpoint) →
    (∀ earlier ∈ pre, ¬ earlier.BroadcastsAt g.outpoint) →
    .claimAsset g.leg run.call.record g.preimage ∈ run.calls ∧
      ((∃ a, run.call.answer (.claimAsset g.leg run.call.record g.preimage) =
        .ok a) →
        run.result = .ok (some .broadcast))
  /-- A failed broadcast leaves no mark. -/
  retry : ∀ run ∈ c.executeAll st claims, ∀ leg record p e,
    .claimAsset leg record p ∈ run.calls →
      run.call.answer (.claimAsset leg record p) = .error e →
    run.after = run.before

section Sequences

variable {c : ClaimExecutor} {st : WiredStore} {claims : List ClaimCall}

/-- A run in the sequence, with the store it found. -/
theorem executeAll_split (hstore : c.hasSeenStore = true) :
    ∀ (claims : List ClaimCall) (st : WiredStore) {pre post : List ClaimRun}
      {run : ClaimRun},
      c.executeAll st claims = pre ++ run :: post →
      run = c.executeOn run.before run.call ∧ run.call ∈ claims ∧
      (∀ key, run.before.Accepts key ↔ st.Accepts key) ∧
      ∀ outpoint, run.before.Holds (claimKey outpoint) ↔
        st.Holds (claimKey outpoint) ∨
          ∃ earlier ∈ pre, earlier.BroadcastsAt outpoint := by
  intro claims
  -- along the claims, each from the store the one before it left
  induction claims with
  | nil =>
    intro st pre post run h
    cases pre <;> cases h
  | cons next rest ih =>
    intro st pre post run h
    rw [ClaimExecutor.executeAll] at h
    cases pre with
    | nil =>
      cases h
      exact ⟨rfl, List.mem_cons_self, fun key => Iff.rfl,
        fun outpoint => by simp; rfl⟩
    | cons first pre =>
      rw [List.cons_append, List.cons.injEq] at h
      obtain ⟨rfl, h⟩ := h
      obtain ⟨hrun, hmem, haccepts, hholds⟩ := ih _ h
      refine ⟨hrun, List.mem_cons_of_mem _ hmem, fun key => ?_,
        fun outpoint => ?_⟩
      · rw [haccepts, ClaimExecutor.executeOn_accepts hstore]
      · rw [hholds, ClaimExecutor.executeOn_after hstore, or_assoc]
        simp [List.mem_cons]

/-- Every claim asked for is run. -/
theorem mem_executeAll_of_mem (claims : List ClaimCall) : ∀ (st : WiredStore)
    {next : ClaimCall},
    next ∈ claims → ∃ run ∈ c.executeAll st claims, run.call = next := by
  induction claims with
  | nil => intro st next h; cases h
  | cons first rest ih =>
    intro st next h
    rw [ClaimExecutor.executeAll]
    rcases List.mem_cons.mp h with rfl | h
    · exact ⟨_, List.mem_cons_self, rfl⟩
    · obtain ⟨run, hrun, hcall⟩ := ih (c.executeOn st first).after h
      exact ⟨run, List.mem_cons_of_mem _ hrun, hcall⟩

/-- A marked outpoint is not broadcast again, whatever the store takes. -/
theorem executeAll_once (hstore : c.hasSeenStore = true) :
    ∀ (claims : List ClaimCall)
      (st : WiredStore), (c.executeAll st claims).Pairwise fun run later =>
      ∀ outpoint, run.BroadcastsAt outpoint →
          ¬ later.BroadcastsAt outpoint := by
  intro claims
  induction claims with
  | nil => intro st; exact .nil
  | cons next rest ih =>
    intro st
    rw [ClaimExecutor.executeAll]
    refine .cons (fun later hlater outpoint hfirst hagain => ?_) (ih _)
    obtain ⟨pre, post, hsplit⟩ := List.append_of_mem hlater
    obtain ⟨hrun, -, -, hholds⟩ := executeAll_split hstore _ _ hsplit
    have hmarked : later.before.Holds (claimKey outpoint) :=
      (hholds outpoint).mpr (.inl
        ((ClaimExecutor.executeOn_after hstore outpoint).mpr (.inr hfirst)))
    rw [hrun] at hagain
    obtain ⟨g, -, hprobe, rfl⟩ :=
      ClaimExecutor.broadcastsAt_probes hstore hagain
    exact (WiredStore.probes_iff.mp hprobe).2 hmarked

/-- A claim that failed to broadcast may be tried again. -/
theorem executeAll_retry (hstore : c.hasSeenStore = true) {run : ClaimRun}
    (hrun : run = c.executeOn run.before run.call) {leg : ClaimLeg}
    {record : SwapRecord} {p : Bytes}
    {e : TowerErr} (hmem : .claimAsset leg record p ∈ run.calls)
    (hfailed : run.call.answer (.claimAsset leg record p) = .error e) :
    run.after = run.before := by
  rw [hrun] at hmem
  rcases ClaimExecutor.executeOn_cases hstore run.before run.call with
    ⟨-, hplain⟩ | ⟨g, hg, hprobe⟩
  · cases hplain _ hmem (.ok .none)
  · have hfires := ClaimExecutor.executeOn_fires hstore hg hprobe
    obtain ⟨rfl, hrecord, rfl⟩ := hfires.only leg record p hmem
    have hrecord : record = run.call.record := hrecord
    subst hrecord
    have hnot : (c.executeOn run.before run.call).result ≠
        .ok (some .broadcast) := by
      intro hb
      obtain ⟨a, ha⟩ := hfires.result.mp hb
      have ha : run.call.answer (.claimAsset g.leg run.call.record g.preimage) =
          .ok a := ha
      rw [hfailed] at ha
      cases ha
    have hafter := hfires.after
    rw [if_neg hnot, ← hrun] at hafter
    exact hafter

/-- **The guard works exactly where the store takes the key.** -/
theorem execute_fireOnce_iff (c : ClaimExecutor)
    (hstore : c.hasSeenStore = true) (st : WiredStore)
    (claims : List ClaimCall) :
    FireOnce c st claims ↔ ∀ next ∈ claims, ∀ g : ClaimPass, g.Gates c next →
      st.Holds (claimKey g.outpoint) ∨ st.Accepts (claimKey g.outpoint) := by
  constructor
  · intro hfire next hnext g hg
    by_contra hneither
    rw [not_or] at hneither
    obtain ⟨run, hmem, rfl⟩ := mem_executeAll_of_mem claims st hnext
    obtain ⟨pre, post, hsplit⟩ := List.append_of_mem hmem
    -- a key the store refuses is never broadcast for, so the outpoint stays new
    have hnever : ∀ earlier ∈ pre, ¬ earlier.BroadcastsAt g.outpoint := by
      intro earlier hearlier hb
      obtain ⟨pre', post', hsplit'⟩ := List.append_of_mem hearlier
      rw [hsplit', List.append_assoc, List.cons_append] at hsplit
      obtain ⟨hrun, -, haccepts, -⟩ := executeAll_split hstore _ _ hsplit
      rw [hrun] at hb
      obtain ⟨g', -, hprobe, hsame⟩ :=
        ClaimExecutor.broadcastsAt_probes hstore hb
      have hacc := (WiredStore.probes_iff.mp hprobe).1
      rw [hsame, haccepts] at hacc
      exact hneither.2 hacc
    obtain ⟨hreach, -⟩ :=
      hfire.reaches pre run post hsplit g hg hneither.1 hnever
    obtain ⟨hrun, -, haccepts, -⟩ := executeAll_split hstore _ _ hsplit
    rw [hrun] at hreach
    rcases ClaimExecutor.executeOn_cases hstore run.before run.call with
      ⟨-, hplain⟩ | ⟨g', hg', hprobe⟩
    · cases hplain _ hreach (.ok .none)
    · have hsame : g.outpoint = g'.outpoint :=
        (ClaimExecutor.covenantAt_iff hg').mp
          ((ClaimExecutor.covenantAt_iff hg).mpr rfl)
      have hacc := (WiredStore.probes_iff.mp hprobe).1
      rw [← hsame, haccepts] at hacc
      exact hneither.2 hacc
  · intro htakes
    refine ⟨executeAll_once hstore claims st, ?_, ?_⟩
    · intro pre run post hsplit g hg hnew hnever
      obtain ⟨hrun, hmem, haccepts, hholds⟩ :=
        executeAll_split hstore _ _ hsplit
      have hprobe : run.before.Probes g.outpoint := by
        refine WiredStore.probes_iff.mpr ⟨?_, ?_⟩
        · rw [haccepts]
          exact (htakes run.call hmem g hg).resolve_left hnew
        · rw [hholds]
          rintro (hheld | ⟨earlier, hearlier, hb⟩)
          · exact hnew hheld
          · exact hnever earlier hearlier hb
      have hfires := ClaimExecutor.executeOn_fires hstore hg hprobe
      rw [← hrun] at hfires
      exact ⟨hfires.reaches, hfires.result.mpr⟩
    · intro run hmem leg record p e hcall hfailed
      obtain ⟨pre, post, hsplit⟩ := List.append_of_mem hmem
      obtain ⟨hrun, -, -, -⟩ := executeAll_split hstore _ _ hsplit
      exact executeAll_retry hstore hrun hcall hfailed

end Sequences

/-! ## A claim ready to go out -/

/-- A claim executor with a store wired. -/
def sampleStoringExecutor : ClaimExecutor :=
  ⟨{ armed := true, policy := sampleScaledPolicy, network := "regtest", hasSeenStore := true }, rfl⟩

def sampleCovenantOutpoint : String :=
  "cdcdcdcdcdcdcdcdcdcdcdcdcdcdcdcdcdcdcdcdcdcdcdcdcdcdcdcdcdcdcdcd:0"

/-- The claim of the sample swap, on which everything answers well. -/
def sampleClaimCall : ClaimCall where
  swapId := "s"
  record := sampleClaimRecord
  decision := ⟨{ intent := .pageClaim, reason := "claim", autonomousAssetClaim := true }, by decide⟩
  answer
    | .findCovenantUtxo _ _ _ => .ok (.utxo sampleCovenantOutpoint 5000 100)
    | op => sampleAnswer op

def sampleClaimPass : ClaimPass where
  leg := ⟨0, true⟩
  locator := sampleBtcLocator
  claimTxid := sampleClaimTxid
  raw := sampleClaimTx
  preimage := samplePreimage
  spk := [0x51]
  outpoint := sampleCovenantOutpoint
  value := 5000
  fundedH := 100
  singleNodeConfs := 12
  btcConfs := 6
  covConfs := 12
  verdict := ⟨.final, some 6, some 6⟩

/-- The sample claim passes its gates. -/
theorem sampleClaimPass_gates : sampleClaimPass.Gates sampleStoringExecutor sampleClaimCall where
  asked := rfl
  intent := rfl
  btc := rfl
  armed := rfl
  leg := rfl
  corroborated := fun h => by cases h
  cap := by decide
  locator := rfl
  claimed := rfl
  bytes := rfl
  nonempty := by decide
  bound := ClaimExecutor.checkClaimBytes_none.mp (by decide +kernel)
  scraped := by decide +kernel
  hash := by decide +kernel
  spk := rfl
  covenant := rfl
  mempool := fun _ => ⟨.bool true, rfl, by simp⟩
  node := rfl
  depth := rfl
  quorum := rfl
  verdict := by decide
  safe := by decide +kernel

/-- Over the in-process store the claim goes out once in any number of tries. -/
theorem execute_fireOnce_inProcess : sampleStoringExecutor.hasSeenStore = true ∧
    FireOnce sampleStoringExecutor (.inProcess ⟨∅⟩) [sampleClaimCall, sampleClaimCall] :=
  ⟨rfl, (execute_fireOnce_iff sampleStoringExecutor rfl (.inProcess ⟨∅⟩) _).mpr
    fun _ _ _ _ => .inr trivial⟩

/-- Whether an operation claims the asset. -/
def claimsAsset : TowerOp → Bool
  | .claimAsset _ _ _ => true
  | _ => false

/-- The durable store refuses the key of every outpoint that is not 26 bytes
long. -/
theorem execute_stuck_durable :
    ¬ FireOnce sampleStoringExecutor (.durable ⟨∅⟩) [sampleClaimCall] := by
  intro hfire
  have hnew : ¬ (WiredStore.durable ⟨∅⟩).Holds
      (claimKey sampleClaimPass.outpoint) :=
    Finset.notMem_empty _
  obtain ⟨hreach, -⟩ := hfire.reaches [] _ [] rfl sampleClaimPass
    sampleClaimPass_gates hnew (by simp)
  have hplain :
      (sampleStoringExecutor.executeOn (.durable ⟨∅⟩) sampleClaimCall).calls.all
      (fun op => !claimsAsset op) = true := by
    decide +kernel
  have hno := List.all_eq_true.mp hplain _ hreach
  cases hno

end Pyrxd.Watch
