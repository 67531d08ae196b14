import Pyrxd.Watch.ClaimExecutor

/-!
# The reconciler

`Reconciler` of `gravity/watch/reconciler.py`: one `tick` lists the active swaps
and reconciles each. The autonomous executor runs before the alerter and cannot
keep the page from it; whatever is raised below ends as a page.
-/

namespace Pyrxd.Watch

open Pyrxd.Lib Pyrxd.Btc Pyrxd.Gravity

/-- `_STORE`: the swap id of tower-level pages. -/
def storeId : String := "<records-store>"

/-- `_ROUTED_INTENTS`. -/
def Intent.Routed (i : Intent) : Prop :=
  i = .pageClaim ∨ i = .pageRefund ∨ i = .pageSqueezed ∨ i = .retire

instance (i : Intent) : Decidable i.Routed :=
  inferInstanceAs (Decidable (_ ∨ _))

structure ReconcileResult where
  swapId : String
  decision : Decision
  error : Option String := none
  alertDelivered : Option Bool := none
  executed : Option ExecOutcome := none

structure Reconciler where
  policy : MarginPolicy
  safetyWindowBlocks : Nat
  executor : Executor := nullExecutor

/-- A text with a fixed beginning is not empty. -/
theorem append_ne_empty {s t : String} (h : s ≠ "") : s ++ t ≠ "" := by
  intro happ
  exact h (String.append_eq_empty_iff.mp happ).1

/-- A fail-closed page about an exception. -/
def Decision.squeezed (text err action : String) (h : text ≠ "") : Decision :=
  ⟨{ intent := .pageSqueezed, reason := text ++ err,
      recommendedAction := some action }, by
    simp [DecisionFields.postInit, refuseIf, append_ne_empty h]⟩

def storeUnreadable (err : String) : Decision :=
  .squeezed "records store unreadable — the tower may be watching NOTHING (investigate): "
    err
    "check the records dir exists/is mounted/readable; manually watch in-flight swaps" (by decide)

def reconcileError (err : String) : Decision :=
  .squeezed "reconcile error, fail-closed (investigate manually): " err
    "investigate" (by decide)

/-- The single-flight skip. -/
def alreadyInProgress : Decision :=
  ⟨{ intent := .watch, reason := "single-flight: reconcile already in progress" }, by decide⟩

namespace Reconciler

/-- `_safe_handle`. -/
def safeHandle (swapId : String) (decision : Decision) : Tower Bool := do
  match ← Tower.attempt
      (Prog.invoke (.handle swapId decision.toDecisionFields)) with
  | .ok _ => return true
  | .error _ => return false

/-- `_safe_execute`. -/
def safeExecute (r : Reconciler) (swapId : String) (record : SwapRecord)
    (decision : Decision) :
    Tower (Option ExecOutcome) :=
  if decision.intent ≠ .pageRefund ∧
    decision.intent ≠ .pageClaim then return none
  else do
    match ← Tower.attempt (r.executor swapId record decision) with
    | .ok outcome => return outcome
    | .error _ => return some .failed

/-- The `try` around `observe` and `decide`. -/
def observeAndDecide (r : Reconciler) (swapId : String) (record : SwapRecord) :
    Tower Decision := do
  let obs ← Tower.ask (.observe swapId record) Reply.asObservations
  Tower.pure' (decide record obs r.policy r.safetyWindowBlocks)

/-- An observe or decide failure becomes a page. -/
def failClosed (swapId : String) (exc : TowerErr) : Tower ReconcileResult := do
  let delivered ← safeHandle swapId (reconcileError exc.text)
  return {
    swapId
    decision := reconcileError exc.text
    error := some exc.text
    alertDelivered := some delivered }

/-- What follows a decision: autonomy first, but the alerter fires in any
case. -/
def route (r : Reconciler) (swapId : String) (record : SwapRecord)
    (decision : Decision) :
    Tower ReconcileResult :=
  if decision.intent.Routed then do
    let executed ← r.safeExecute swapId record decision
    let delivered ← safeHandle swapId decision
    return { swapId, decision, alertDelivered := some delivered, executed }
  else return { swapId, decision }

/-- `_reconcile_one` between `add` and `discard`. -/
def reconcileBody (r : Reconciler) (swapId : String) (record : SwapRecord) :
    Tower ReconcileResult := do
  match ← Tower.attempt (r.observeAndDecide swapId record) with
  | .error exc => failClosed swapId exc
  | .ok decision => r.route swapId record decision

/-- `swap_id in self._inflight`. A set operation does not raise: no answer but a
truthy one says yes. -/
def inflight (swapId : String) : Tower Bool :=
  .call (.inflightHas swapId) fun answer => .ret (match answer with
    | .ok reply => reply.truthy
    | .error _ => false)

/-- A write to `_inflight`. -/
def setInflight (op : TowerOp) : Tower Unit := .call op fun _ => .ret ()

/-- `_reconcile_one`. -/
def reconcileOne (r : Reconciler) (swapId : String) (record : SwapRecord) :
    Tower ReconcileResult := do
  if ← inflight swapId then
    return { swapId, decision := alreadyInProgress }
  else
    setInflight (.inflightAdd swapId)
    (r.reconcileBody swapId record).ensure
      (setInflight (.inflightDiscard swapId))

/-- The loop of `tick`. -/
def reconcileAll (r : Reconciler) : List (String × SwapRecord) →
    Tower (List ReconcileResult)
  | [] => return []
  | (swapId, record) :: rest => do
    let result ← r.reconcileOne swapId record
    let results ← r.reconcileAll rest
    return result :: results

/-- `tick`. What the store answers is gone through outside the `try`. -/
def tick (r : Reconciler) : Tower (List ReconcileResult) := do
  match ← Tower.attempt (Prog.invoke .listActive) with
  | .error exc =>
    let decision := storeUnreadable exc.text
    let delivered ← safeHandle storeId decision
    return [{
      swapId := storeId
      decision
      error := some exc.text
      alertDelivered := some delivered }]
  | .ok reply => do
    let active ← Prog.lift reply.asActive
    r.reconcileAll active

/-- A run of `n` ticks. -/
def ticks (r : Reconciler) : Nat → Tower (List ReconcileResult)
  | 0 => return []
  | n + 1 => do
    let results ← r.tick
    let later ← r.ticks n
    return results ++ later

end Reconciler

end Pyrxd.Watch
