import Pyrxd.Watch.Executor

/-!
# The autonomous asset claim

`ClaimExecutor` of `gravity/watch/claim_executor.py`. Its `_run` is one long
body of early returns: every `return ExecOutcome.X, reason` ends it, anything
else goes on. A part of it is therefore a stage, a `Tower (Except Stop _)`,
which stops with an outcome and a reason or hands its result to the next part;
the stages below follow the source's numbered steps.

The fire-once guard is split in two: `probeSeen` before the fresh depth reads
and the mark after the broadcast, in `fire`.
-/

namespace Pyrxd.Watch

open Pyrxd.Lib Pyrxd.Btc Pyrxd.Gravity

/-- `MAINNET_DUST_CEILING_PHOTONS`. -/
def mainnetDustCeilingPhotons : Int := 10000

structure ClaimExecutorFields where
  /-- `resolve_leg`, `claim_status_source` and `claim_bytes_source` are
  wired. -/
  armed : Bool
  policy : MarginPolicy
  network : String
  reorgCostPerBlock : Option Int := none
  reorgSafetyFactor : ℚ := 2
  acceptUnbounded : Bool := false
  acceptSingleSource : Bool := false
  hasSeenStore : Bool := false
  hasCorroborator : Bool := false
  claimDustCeiling : Int := mainnetDustCeilingPhotons

/-- `ClaimExecutor.__init__`. -/
def ClaimExecutorFields.postInit (f : ClaimExecutorFields) :
    Except PyErr Unit := do
  refuseIf (f.network = "") "network must be a non-empty str"
  refuseIf (∃ c ∈ f.reorgCostPerBlock, c ≤
    0) "reorg_cost_per_block must be a positive int or None"
  refuseIf (f.reorgSafetyFactor <
    1) "reorg_safety_factor must be a finite float >= 1.0"
  refuseIf (f.claimDustCeiling ≤ 0)
    "claim_dust_ceiling must be a positive int ('no cap' can never mean unlimited)"

structure ClaimExecutor extends ClaimExecutorFields where
  valid : toClaimExecutorFields.postInit = .ok ()

/-- `max_protected_value`; the factor is the float's exact rational. -/
def maxProtectedValue (rxdClaimBurialBlocks reorgCostPerBlock : Int)
    (safetyFactor : ℚ) :
    Except PyErr Int := do
  refuseIf (rxdClaimBurialBlocks ≤
    0) "rxd_claim_burial_blocks must be a positive int"
  refuseIf (reorgCostPerBlock ≤ 0)
    "reorg_cost_per_block must be a positive int (operator-MEASURED net marginal cost, same unit as the declared value-at-risk)"
  refuseIf (safetyFactor < 1)
    "safety_factor must be a finite float >= 1.0 (a factor < 1 would bless theft-profitable swaps)"
  return (rxdClaimBurialBlocks * reorgCostPerBlock * safetyFactor.den) /
    safetyFactor.num

/-- `_is_missing_utxo`. -/
def isMissingUtxo (msg : String) : Bool :=
  "no utxo found".toList <:+: msg.toLower.toList

/-- `f"claim:{outpoint}".encode()`. -/
def claimKey (outpoint : String) : Bytes :=
  ("claim:" ++ outpoint).toUTF8.data.toList

/-- The text of `outpoint` before its first colon. -/
def outpointTxid (outpoint : String) : String :=
  String.ofList (outpoint.toList.takeWhile (· ≠ ':'))

/-! ## Stages -/

/-- How a stage may end the run: the outcome and the reason. -/
abbrev Stop := ExecOutcome × String

namespace Stage

def go {α : Type} (a : α) : Tower (Except Stop α) := Prog.ret (.ok a)

def decline {α : Type} (reason : String) : Tower (Except Stop α) :=
  Prog.ret (.error (.declined, reason))

def fail {α : Type} (reason : String) : Tower (Except Stop α) :=
  Prog.ret (.error (.failed, reason))

/-- The next part, unless this one ended the run. -/
def andThen {α β : Type} (x : Tower (Except Stop α))
    (f : α → Tower (Except Stop β)) : Tower (Except Stop β) :=
  x >>= fun r => match r with
    | .ok a => f a
    | .error stop => Prog.ret (.error stop)

end Stage

namespace ClaimExecutor

/-- `_value_bearing`. -/
def valueBearing (c : ClaimExecutor) : Bool := c.network ∉ auditClearedNetworks

/-- The reorg-protected ceiling of `_check_value_cap`. -/
def protectedCeiling (c : ClaimExecutor) (cost : Int) : Except PyErr Int := do
  let burialBlocks ← c.policy.rxdClaimBurial.normalizeTo .blocks
    c.policy.blockIntervalS
  maxProtectedValue burialBlocks.value cost c.reorgSafetyFactor

/-- `_check_value_cap`: the reason to decline, if any. -/
def checkValueCap (c : ClaimExecutor) (record : SwapRecord) :
    Except PyErr (Option String) := do
  -- the absolute ceiling comes first: no flag waives it
  if c.valueBearing = true ∧ record.terms.assetVariant = .rxd ∧
      record.terms.radiantAmount > c.claimDustCeiling then
    return some ("radiant_amount " ++ toString record.terms.radiantAmount ++
      " exceeds the absolute claim dust ceiling " ++
        toString c.claimDustCeiling ++
      " photons (not waivable by accept_unbounded_reorg_risk; external audit is the gate for any non-dust autonomous claim)")
  else if c.valueBearing = false ∨ c.acceptUnbounded = true then
    return none
  else if record.terms.assetVariant ≠ .rxd then
    return some
      "value-bearing autonomous claim has no in-record value bound; refusing (set accept_unbounded_reorg_risk for dust)"
  else match c.reorgCostPerBlock with
    | none =>
      return some
        "no reorg_cost_per_block configured; cannot bound the value-vs-reorg risk (refusing)"
    | some cost => do
      let ceiling ← c.protectedCeiling cost
      if record.terms.radiantAmount > ceiling then
        return some ("radiant_amount " ++ toString record.terms.radiantAmount ++
          " exceeds the reorg-protected ceiling " ++ toString ceiling)
      else return none

/-- Step 2: the per-swap leg. -/
def resolveLeg (c : ClaimExecutor) (swapId : String) (record : SwapRecord) :
    Tower (Except Stop ClaimLeg) := do
  if c.armed = false then
    Stage.decline ("DORMANT: network '" ++ c.network ++
      "' not armed (broadcasts nothing)")
  else match ← Tower.attempt (Prog.invoke (.resolveLeg swapId record)) with
    | .error exc => Stage.fail ("leg resolution failed: " ++ exc.text)
    | .ok .none =>
      Stage.decline "no covenant claim context for this swap (dormant)"
    | .ok (.leg leg) => Stage.go leg
    | .ok _ => Prog.lift Reply.wrongClass

/-- Steps 3 and 4: corroboration and the value cap; hands on the BTC locator. -/
def checkPolicy (c : ClaimExecutor) (record : SwapRecord)
    (decision : Decision) :
    Tower (Except Stop BtcHtlcLocator) := do
  if decision.lowCorroboration = true ∧ c.acceptSingleSource = false then
    Stage.decline "low_corroboration (single-source) read — refusing to auto-claim"
  else match ← Tower.pure' (c.checkValueCap record) with
    | some reason => Stage.decline reason
    | none =>
      match record.counterchainLocator with
      | none => Stage.decline "no BTC locator on the record"
      | some (.btc locator) => Stage.go locator
      | some (.eth _) => Prog.lift Reply.wrongClass

/-- Step 5, first half: is the claim still there on a fresh read? -/
def freshClaim (locator : BtcHtlcLocator) : Tower (Except Stop String) := do
  let o := locator.fundingOutpoint
  match ← Tower.attempt (Prog.invoke (.claimStatus o.txid o.vout)) with
  | .error exc => Stage.fail ("claim_status read failed: " ++ exc.text)
  | .ok (.status true (some claimTxid)) => Stage.go claimTxid
  | .ok _ =>
    Stage.decline "no maker BTC claim observed on a fresh read (stale tick-open verdict)"

/-- The `try` around the two parses: the reason to stop, if any. -/
def checkClaimBytes (locator : BtcHtlcLocator) (claimTxid : String)
    (raw : Bytes) :
    Except PyErr (Option Stop) := do
  if (← btcTxidFromRaw raw) ≠ claimTxid then
    return some (.failed,
      "fetched claim bytes do not hash to the reported claim_txid")
  -- the claim must spend OUR funding outpoint: another swap's claim proves
  -- nothing here
  let prevout ← locator.fundingOutpoint.prevoutBytes
  if prevout ∉ (← btcInputOutpointsFromRaw raw) then
    return some (.declined,
      "claim tx does not spend this swap's funding outpoint")
  return none

/-- Step 5, second half: the claim's bytes, bound to its txid and to this
swap. -/
def claimBytes (locator : BtcHtlcLocator) (claimTxid : String) :
    Tower (Except Stop Bytes) := do
  match ← Tower.attempt (Prog.invoke (.claimTxBytes claimTxid)) with
  | .error exc => Stage.fail ("claim_tx_bytes fetch failed: " ++ exc.text)
  | .ok reply =>
    if reply.truthy = false then
      Stage.fail ("claim tx bytes for " ++ claimTxid ++ " not retrievable")
    else do
      let raw ← Prog.lift reply.asBytes
      match checkClaimBytes locator claimTxid raw with
      | .error (.validation exc) =>
        Stage.fail ("could not parse the fetched claim tx: " ++ exc)
      | .error e => .raise (.ofPy e)
      | .ok (some stop) => Prog.ret (.error stop)
      | .ok none => Stage.go raw

/-- Step 6: the preimage, by its hash and never by its place. -/
def scrape (record : SwapRecord) (raw : Bytes) : Tower (Except Stop Bytes) :=
  match scrapeSecret raw record.terms.hashlock with
  | .error e =>
    Stage.decline ("could not scrape p from the claim tx: " ++ e.text)
  | .ok p =>
    if sha256 p ≠ record.terms.hashlock then
      Stage.decline "scraped preimage does not hash to H; refusing to claim"
    else Stage.go p

/-- The two reads of the covenant. -/
def readCovenant (leg : ClaimLeg) (record : SwapRecord) :
    Tower (String × Int × Int) := do
  let spk ← Tower.ask
    (.expectedCovenantScriptpubkey leg record.terms) Reply.asBytes
  Tower.ask (.findCovenantUtxo leg spk record.terms.radiantAmount) Reply.asUtxo

/-- Step 7: the covenant as it stands now: its outpoint and the height it was
funded at. -/
def freshCovenant (leg : ClaimLeg) (record : SwapRecord) :
    Tower (Except Stop (String × Int)) := do
  match ← Tower.attempt (readCovenant leg record) with
  | .ok (outpoint, _, fundedH) => Stage.go (outpoint, fundedH)
  | .error (.network exc) =>
    if isMissingUtxo exc then
      Stage.decline "covenant already spent (asset claimed) — idempotent no-op"
    else Stage.fail ("covenant read failed (transient): " ++ exc)
  | .error (.validation exc) =>
    Stage.decline ("covenant could not be built/located: " ++ exc)
  | .error e => .raise e

/-- A claim that waits in the mempool has spent the covenant already. -/
def checkMempool (leg : ClaimLeg) (outpoint : String) :
    Tower (Except Stop Unit) := do
  if leg.hasMempoolCheck = false then Stage.go ()
  else match ← Tower.attempt (Prog.invoke (.covenantUnspentInclMempool leg outpoint)) with
    | .ok (.bool false) =>
      Stage.decline "covenant claim already in the mempool (awaiting confirmation) — idempotent no-op"
    | .ok _ => Stage.go ()
    | .error (.network exc) =>
      Stage.fail ("mempool-aware covenant re-check failed (transient): " ++ exc)
    | .error e => .raise e

/-- Fire once: was a claim of this outpoint broadcast before? -/
def probeSeen (c : ClaimExecutor) (outpoint : String) :
    Tower (Except Stop Unit) := do
  if c.hasSeenStore = false then Stage.go ()
  else
    let seen ← Prog.invoke (.hasSeen (claimKey outpoint))
    if seen.truthy then
      Stage.decline "claim already broadcast for this covenant (awaiting confirmation) — idempotent no-op"
    else Stage.go ()

/-- The two reads of the fresh depths. -/
def readDepths (leg : ClaimLeg) (outpoint claimTxid : String) :
    Tower (Int × Int) := do
  let singleNodeConfs ← Tower.ask
    (.chainConfirmations leg (outpointTxid outpoint)) Reply.asInt
  let btcConfs ← Tower.ask (.claimConfirmations claimTxid) Reply.asInt
  return (singleNodeConfs, btcConfs)

/-- The fresh depths: of the covenant on the leg's node and of the BTC claim. -/
def freshDepths (leg : ClaimLeg) (outpoint claimTxid : String) :
    Tower (Except Stop (Int × Int)) := do
  match ← Tower.attempt (readDepths leg outpoint claimTxid) with
  | .error exc => Stage.fail ("fresh depth read failed: " ++ exc.text)
  | .ok depths => Stage.go depths

/-- The covenant's depth to reckon with: the deeper of the node's and the
quorum's. -/
def corroborate (c : ClaimExecutor) (outpoint : String)
    (singleNodeConfs : Int) : Tower (Except Stop Int) := do
  if c.hasCorroborator = false then Stage.go singleNodeConfs
  else match ← Tower.attempt (Prog.invoke (.corroboratedConfirmations outpoint)) with
    | .error _ =>
      Stage.decline "RXD depth not corroborated by quorum — refusing to auto-claim"
    | .ok .none =>
      Stage.decline "RXD depth not corroborated by quorum — refusing to auto-claim"
    | .ok reply => do
      let corro ← Prog.lift reply.asInt
      Stage.go (max singleNodeConfs corro)

/-- The tip a depth stands for. -/
def nowRxd (fundedH covConfs : Int) : Int := fundedH + max covConfs 1 - 1

/-- The BTC verdict the gate is asked about. -/
def freshVerdict (c : ClaimExecutor) (btcConfs : Int) :
    Except PyErr CounterClaimFinality := do
  let requiredDepth ← c.policy.btcClaimReorgDepth.normalizeTo .blocks
    c.policy.blockIntervalS
  CounterClaimFinality.fromBtcDepth btcConfs requiredDepth.value

/-- The fresh re-assessment. The call passes no value at risk. -/
def reassess (c : ClaimExecutor) (record : SwapRecord)
    (fundedH covConfs btcConfs : Int) :
    Tower (Except Stop Unit) := do
  let verdict ← Tower.pure' (c.freshVerdict btcConfs)
  match assessClaimFinality verdict (nowRxd fundedH covConfs)
      fundedH record.terms.tRxd c.policy with
  | .error (.validation exc) =>
    Stage.decline ("fresh finality un-assessable, fail-closed: " ++ exc)
  | .error e => .raise (.ofPy e)
  | .ok .safe => Stage.go ()
  | .ok .wait =>
    Stage.decline "fresh re-assess is wait (window not safe to claim now)"
  | .ok .squeezed =>
    Stage.decline "fresh re-assess is squeezed (window not safe to claim now)"

/-- Step 8: the broadcast, and the mark after it. -/
def fire (c : ClaimExecutor) (leg : ClaimLeg) (record : SwapRecord)
    (outpoint : String)
    (p : Bytes) : Tower (Except Stop Unit) := do
  match ← Tower.attempt (Prog.invoke (.claimAsset leg record p)) with
  | .error (.network exc) =>
    if isMissingUtxo exc then
      Stage.decline "covenant spent during claim (raced) — idempotent no-op"
    else Stage.fail ("claim broadcast failed: " ++ exc)
  | .error e => .raise e
  | .ok _ =>
    if c.hasSeenStore = true then
      let _ ← Prog.invoke (.markSeen (claimKey outpoint))
      Stage.go ()
    else Stage.go ()

/-- Steps 2 to 8, for a decision that asks for a claim. -/
def stages (c : ClaimExecutor) (swapId : String) (record : SwapRecord)
    (decision : Decision) :
    Tower (Except Stop Unit) :=
  Stage.andThen (c.resolveLeg swapId record) fun leg =>
  Stage.andThen (c.checkPolicy record decision) fun locator =>
  Stage.andThen (freshClaim locator) fun claimTxid =>
  Stage.andThen (claimBytes locator claimTxid) fun raw =>
  Stage.andThen (scrape record raw) fun p =>
  Stage.andThen (freshCovenant leg record) fun (outpoint, fundedH) =>
  Stage.andThen (checkMempool leg outpoint) fun _ =>
  Stage.andThen (c.probeSeen outpoint) fun _ =>
  Stage.andThen (freshDepths leg outpoint claimTxid) fun (singleNodeConfs,
      btcConfs) =>
  Stage.andThen (c.corroborate outpoint singleNodeConfs) fun covConfs =>
  Stage.andThen (c.reassess record fundedH covConfs btcConfs) fun _ =>
  c.fire leg record outpoint p

/-- `_run`. -/
def run (c : ClaimExecutor) (swapId : String) (record : SwapRecord)
    (decision : Decision) :
    Tower (Option ExecOutcome × Option String) := do
  if decision.autonomousAssetClaim = false then
    return (none, none)
  else if decision.intent ≠ .pageClaim then
    return (some .declined,
      some ("autonomous_asset_claim on a non-PAGE_CLAIM intent " ++
        decision.intent.value))
  else if record.terms.counterChain ≠ .btc then
    return (some .declined, some "autonomous claim is BTC-only, not 'eth'")
  else match ← c.stages swapId record decision with
    | .error (outcome, reason) => return (some outcome, some reason)
    | .ok () => return (some .broadcast, none)

/-- `execute`: `_run` and a log line. -/
def execute (c : ClaimExecutor) : Executor := fun swapId record decision => do
  let (outcome, _) ← c.run swapId record decision
  return outcome

end ClaimExecutor

end Pyrxd.Watch
