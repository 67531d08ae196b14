import Pyrxd.Gravity.Coordinator
import Pyrxd.Watch.Decide

/-!
# The autonomous executors

`gravity/watch/executor.py`: the keyless refund executor and the composite that
holds it next to the claim executor (`Pyrxd.Watch.ClaimExecutor`). Everything
they ask of the outside world (record store, observer, alerter, blob directory,
claim sources, per-swap leg, broadcaster) is a call with an answer the code does
not choose, so a body is a `Prog` over `TowerOp`.

What the tower shares between overlapping ticks (`_inflight`, the seen-store) is
read and written through calls as well: an answer then covers whatever another
tick did in between.
-/

namespace Pyrxd.Watch

open Pyrxd.Lib Pyrxd.Btc Pyrxd.Gravity

/-! ## Calls out -/

/-- An exception. Some handlers here name `NetworkError`, so it is told
apart. -/
inductive TowerErr where
  | network (msg : String)
  | validation (msg : String)
  /-- Any other `Exception`. -/
  | other (msg : String)
  /-- A `BaseException` outside `Exception`; no handler of the tower catches
  it. -/
  | base (msg : String)
deriving DecidableEq, Repr

namespace TowerErr

/-- `str(exc)`. -/
def text : TowerErr → String
  | .network m => m
  | .validation m => m
  | .other m => m
  | .base m => m

/-- What pure code raises: only a caller outside can cancel a task. -/
def ofPy : PyErr → TowerErr
  | .validation m => .validation m
  | .other m => .other m
  | .base m => .other m

def IsBase : TowerErr → Prop
  | .base _ => True
  | _ => False

instance : DecidablePred IsBase := fun e =>
  match e with
  | .base _ => .isTrue trivial
  | .network _ => .isFalse id
  | .validation _ => .isFalse id
  | .other _ => .isFalse id

/-- An ordinary exception is not a base one. -/
theorem not_isBase_ofPy (e : PyErr) : ¬ (ofPy e).IsBase := by
  cases e <;> exact id

end TowerErr

/-- A per-swap Radiant leg, known by its identity; `hasMempoolCheck` says
whether its `chain_io` offers `covenant_unspent_incl_mempool`. -/
structure ClaimLeg where
  id : Nat
  hasMempoolCheck : Bool := true
deriving DecidableEq, Repr

/-- A call to a collaborator, with its arguments. -/
inductive TowerOp where
  /-- `store.list_active`. -/
  | listActive
  /-- `observer.observe`. -/
  | observe (swapId : String) (record : SwapRecord)
  /-- `alerter.handle`. -/
  | handle (swapId : String) (decision : DecisionFields)
  /-- `swap_id in self._inflight`, `.add`, `.discard`. -/
  | inflightHas (swapId : String)
  | inflightAdd (swapId : String)
  | inflightDiscard (swapId : String)
  /-- The JSON of `<swap_id>.refund.json`, or `None` where there is no such
  file. -/
  | loadBlob (swapId : String)
  /-- `broadcaster.broadcast`. -/
  | broadcast (rawTx : Bytes)
  /-- `resolve_leg`. -/
  | resolveLeg (swapId : String) (record : SwapRecord)
  /-- `claim_status_source.*`. -/
  | claimStatus (fundingTxid : String) (fundingVout : Int)
  | claimConfirmations (claimTxid : String)
  /-- `claim_bytes_source.claim_tx_bytes`. -/
  | claimTxBytes (claimTxid : String)
  /-- `leg.*` and `leg.chain_io.*`. -/
  | expectedCovenantScriptpubkey (leg : ClaimLeg) (terms : NegotiatedTerms)
  | findCovenantUtxo (leg : ClaimLeg) (spk : Bytes) (expectedValue : Int)
  | covenantUnspentInclMempool (leg : ClaimLeg) (outpoint : String)
  | chainConfirmations (leg : ClaimLeg) (txid : String)
  | claimAsset (leg : ClaimLeg) (record : SwapRecord) (preimage : Bytes)
  /-- `rxd_depth_corroborator.covenant_confirmations`. -/
  | corroboratedConfirmations (outpoint : String)
  /-- `seen_store.*`. -/
  | hasSeen (key : Bytes)
  | markSeen (key : Bytes)
deriving DecidableEq

/-- An answer. -/
inductive Reply where
  | none
  | bool (b : Bool)
  | int (n : Int)
  | str (s : String)
  | bytes (b : Bytes)
  | json (v : PyVal)
  | active (swaps : List (String × SwapRecord))
  | observations (obs : Observations)
  | leg (l : ClaimLeg)
  | status (claimed : Bool) (claimTxid : Option String)
  | utxo (outpoint : String) (value height : Int)

namespace Reply

/-- `bool(x)`. -/
def truthy : Reply → Bool
  | none => false
  | bool b => b
  | int n => n ≠ 0
  | str s => s ≠ ""
  | bytes b => b ≠ []
  | json v => v.truthy
  | active swaps => !swaps.isEmpty
  | _ => true

/-- An object of another class than the caller expects: the attribute or the
operation it needs is missing. -/
def wrongClass {α : Type} : Except TowerErr α :=
  .error (.other "object of the wrong class")

def asInt : Reply → Except TowerErr Int
  | int n => .ok n
  | _ => wrongClass

def asBytes : Reply → Except TowerErr Bytes
  | bytes b => .ok b
  | _ => wrongClass

def asActive : Reply → Except TowerErr (List (String × SwapRecord))
  | active swaps => .ok swaps
  | _ => wrongClass

def asObservations : Reply → Except TowerErr Observations
  | observations obs => .ok obs
  | _ => wrongClass

def asUtxo : Reply → Except TowerErr (String × Int × Int)
  | utxo outpoint value height => .ok (outpoint, value, height)
  | _ => wrongClass

end Reply

/-- A body of the tower. -/
abbrev Tower := Prog TowerOp Reply Unit TowerErr

/-- What happens in a body. -/
abbrev TowerEvent := Event TowerOp Reply Unit TowerErr

namespace Tower

/-- A pure check or computation. -/
def pure' {α : Type} (x : Except PyErr α) : Tower α :=
  Prog.lift (match x with
    | .ok a => .ok a
    | .error e => .error (.ofPy e))

/-- Call out and read the answer as the caller does. -/
def ask {α : Type} (op : TowerOp)
    (reading : Reply → Except TowerErr α) : Tower α :=
  Prog.invoke op >>= fun r => Prog.lift (reading r)

/-- `try: body except Exception as exc`: the exception as a value, a
`BaseException` passes. -/
def attempt {α : Type} (body : Tower α) : Tower (Except TowerErr α) :=
  (body >>= fun a => Prog.ret (.ok a)).tryCatch fun e =>
    if e.IsBase then .raise e else .ret (.error e)

end Tower

/-! ## Outcomes -/

/-- `Intent.value`. -/
def Intent.value : Intent → String
  | .watch => "watch"
  | .pageClaim => "page_claim"
  | .pageRefund => "page_refund"
  | .pageSqueezed => "page_squeezed"
  | .retire => "retire"
  | .noop => "noop"

inductive ExecOutcome where
  | broadcast
  | declined
  | failed
deriving DecidableEq, Repr

/-- An executor: `execute(swap_id, record, decision)`. -/
abbrev Executor := String → SwapRecord → Decision → Tower (Option ExecOutcome)

/-- `NullExecutor`. -/
def nullExecutor : Executor := fun _ _ _ => return none

/-- `CompositeExecutor`: the first child that does something. -/
def compositeExecutor (executors : List Executor) : Executor :=
  match executors with
  | [] => nullExecutor
  | x :: rest => fun swapId record decision => do
    match ← x swapId record decision with
    | some outcome => return some outcome
    | none => compositeExecutor rest swapId record decision

/-! ## The pre-signed refund -/

structure PresignedRefundFields where
  rawTx : Bytes
  swapId : String
deriving DecidableEq, Repr

/-- `PresignedRefund.__post_init__`. -/
def PresignedRefundFields.postInit (f : PresignedRefundFields) :
    Except PyErr Unit := do
  refuseIf (f.rawTx = []) "PresignedRefund.raw_tx must be non-empty bytes"
  refuseIf (f.swapId = "") "PresignedRefund.swap_id must be a non-empty str"
  let fields ← btcSpendFieldsFromRaw f.rawTx
  refuseIf (fields.inputPrevouts.length ≠ 1 ∨ fields.outputs.length ≠ 1)
    "PresignedRefund.raw_tx must be a single-input single-output refund tx"
  let _ ← btcTxidFromRaw f.rawTx
  return ()

structure PresignedRefund extends PresignedRefundFields where
  valid : toPresignedRefundFields.postInit = .ok ()

namespace PresignedRefund

/-- `PresignedRefund(...)`. -/
def new (f : PresignedRefundFields) : Except PyErr PresignedRefund := do
  let h ← postInitOk PresignedRefundFields.postInit f
  return ⟨f, h.down⟩

/-- `from_dict`: a `KeyError`, `TypeError` or `ValueError` is re-raised as a
`ValidationError`. -/
def fromDict (d : PyVal) : Except PyErr PresignedRefund :=
  let built : Except PyErr PresignedRefund := do
    let rawTx ← (← d.item "raw_tx").toBytes
    let swapId ← (← d.item "swap_id").toStr
    new ⟨rawTx, swapId⟩
  match built with
  | .error (.other msg) => invalid ("PresignedRefund.from_dict: " ++ msg)
  | built => built

/-- The first element of a list attribute of the parsed bytes. -/
def head {α : Type} (b : PresignedRefund) (part : BtcSpendFields → List α) :
    Except PyErr α := do
  let fields ← btcSpendFieldsFromRaw b.rawTx
  match part fields with
  | x :: _ => .ok x
  | [] => .error (.other "list index out of range")

/-- `funding_prevout`. -/
def fundingPrevout (b : PresignedRefund) : Except PyErr Bytes :=
  b.head (·.inputPrevouts)

/-- `input_nsequence`. -/
def inputNsequence (b : PresignedRefund) : Except PyErr Nat :=
  b.head (·.inputSequences)

/-- `output_value_sats`. -/
def outputValueSats (b : PresignedRefund) : Except PyErr Nat :=
  (b.head (·.outputs)).map Prod.fst

/-- `output_spk`. -/
def outputSpk (b : PresignedRefund) : Except PyErr Bytes :=
  (b.head (·.outputs)).map Prod.snd

end PresignedRefund

/-- `load_presigned_refund`, from the file's content on. -/
def readPresignedRefund (swapId : String) (d : PyVal) :
    Except PyErr PresignedRefund := do
  let blob ← PresignedRefund.fromDict d
  refuseIf (blob.swapId ≠ swapId) ("refund blob is for swap " ++ blob.swapId ++
    ", not " ++ swapId ++
    " (misfiled)")
  return blob

/-! ## The refund executor -/

/-- `MAINNET_DUST_CEILING_SATS`. -/
def mainnetDustCeilingSats : Int := 10000

structure RefundExecutorFields where
  /-- A live broadcaster exists; without one the executor is dormant. -/
  armed : Bool
  network : String
  capSats : Int
  refundSpk : Bytes
  acceptSingleSource : Bool := false
deriving DecidableEq, Repr

/-- `RefundExecutor.__init__`. -/
def RefundExecutorFields.postInit (f : RefundExecutorFields) :
    Except PyErr Unit := do
  refuseIf (f.network = "") "network must be a non-empty str"
  refuseIf (f.capSats ≤
    0) "cap_sats must be a positive int ('no cap' can never mean unlimited)"
  refuseIf (f.armed = true ∧ f.network ∉ auditClearedNetworks ∧
    f.capSats > mainnetDustCeilingSats)
    ("autonomous refund cap " ++ toString f.capSats ++
      " exceeds the '" ++ f.network ++
      "' dust ceiling " ++ toString mainnetDustCeilingSats ++
      "; autonomy is dust-only until an external audit lifts it")
  refuseIf (f.refundSpk = [])
    "refund_spk (the operator's pinned refund scriptPubKey) is required"

structure RefundExecutor extends RefundExecutorFields where
  valid : toRefundExecutorFields.postInit = .ok ()

namespace RefundExecutor

/-- The binds between a blob and the record: the reason to decline, if any. -/
def checkBinds (x : RefundExecutor) (record : SwapRecord)
    (locator : BtcHtlcLocator)
    (blob : PresignedRefund) : Except PyErr (Option String) := do
  if (← blob.fundingPrevout) ≠ (← locator.fundingOutpoint.prevoutBytes) then
    return some "blob does not spend this swap's funding outpoint"
  if (← blob.inputNsequence) ≠ record.terms.tBtc.toNsequence then
    return some "blob nSequence != the negotiated t_btc CSV"
  if (← blob.outputSpk) ≠ x.refundSpk then
    return some "blob output is not the operator's pinned refund address"
  let value ← blob.outputValueSats
  if (value : Int) ≤ 0 ∨ (value : Int) > x.capSats then
    return some ("blob output value " ++ toString value ++ " sats over cap " ++
      toString x.capSats)
  if (value : Int) ≥ locator.amountSats then
    return some ("blob output value " ++ toString value ++
      " >= funded amount " ++
      toString locator.amountSats ++ " (no fee?) — refusing")
  return none

/-- What `_authorize` returns: a blob, a reason to decline, or nothing to do. -/
inductive Verdict where
  | idle
  | decline (reason : String)
  | authorized (blob : PresignedRefund)

/-- The gates of `_authorize` before it touches the disk: the locator to bind
against. -/
def gate (x : RefundExecutor) (record : SwapRecord) (decision : Decision) :
    Except Verdict BtcHtlcLocator :=
  if decision.autonomousBtcRefund = false then .error .idle
  else if decision.intent ≠ .pageRefund then
    .error (.decline ("autonomous_btc_refund on a non-PAGE_REFUND intent " ++
      decision.intent.value))
  else if x.armed = false then
    .error (.decline ("DORMANT: network '" ++ x.network ++
      "' not audit-cleared (broadcasts nothing)"))
  else if decision.lowCorroboration = true ∧ x.acceptSingleSource = false then
    .error (.decline
      "low_corroboration (single-source) read — refusing to auto-broadcast")
  else match record.btcLocator with
    | none => .error (.decline "no BTC locator on the record")
    | some locator =>
      if locator.network ≠ x.network then
        .error (.decline ("record network '" ++ locator.network ++
          "' != wired network '" ++
          x.network ++ "'"))
      else .ok locator

/-- `load_presigned_refund` inside its `try`: a `ValidationError` declines. -/
def loadBlob (swapId : String) : Tower (Except Verdict PresignedRefund) := do
  match ← Prog.invoke (.loadBlob swapId) with
  | .json d =>
    match readPresignedRefund swapId d with
    | .ok blob => return .ok blob
    | .error (.validation msg) =>
      return .error (.decline ("refund blob invalid: " ++ msg))
    | .error e => .raise (.ofPy e)
  | _ => return .error (.decline "no pre-signed refund blob on disk")

/-- `_authorize`. -/
def authorize (x : RefundExecutor) (swapId : String) (record : SwapRecord)
    (decision : Decision) :
    Tower Verdict :=
  match x.gate record decision with
  | .error v => return v
  | .ok locator => do
    match ← loadBlob swapId with
    | .error v => return v
    | .ok blob =>
      match ← Tower.pure' (x.checkBinds record locator blob) with
      | some reason => return .decline reason
      | none => return .authorized blob

/-- `execute`. -/
def execute (x : RefundExecutor) : Executor := fun swapId record decision => do
  match ← x.authorize swapId record decision with
  | .idle => return none
  | .decline _ => return some .declined
  | .authorized blob =>
    let _ ← Prog.invoke (.broadcast blob.rawTx)
    return some .broadcast

end RefundExecutor

end Pyrxd.Watch
