import Pyrxd.Gravity.Coordinator

/-!
# The nine steps

The state-advancing methods of `SwapCoordinator`, each as the body it runs:
guards, calls out in the order the source makes them, assignments of
`self.record` where the source assigns it. A step is one call at a time on one
coordinator (`_serialized_step` holds the instance lock), so the record changes
only by the step's own assignments.

`StepCall` is a call with its arguments and `runCalls` a sequence of them, each
started on the record the previous one left, whether that one returned or
raised.
-/

namespace Pyrxd.Gravity

open Pyrxd.Lib Pyrxd.Btc Pyrxd.Glyph

/-! ## Which states a step accepts -/

inductive Step where
  | takerFundsBtc
  | postAssetLockRevalidate
  | makerVerifyCounterFunding
  | makerClaimsBtc
  | takerScrapeAndClaimAsset
  | takerClaimAssetFromVulnerable
  | maybeRefundAssetOnMakerStall
  | takerRefundBtc
  | mutualRefund
deriving DecidableEq, Repr

/-- The method's name. -/
def Step.value : Step → String
  | .takerFundsBtc => "taker_funds_btc"
  | .postAssetLockRevalidate => "post_asset_lock_revalidate"
  | .makerVerifyCounterFunding => "maker_verify_counter_funding"
  | .makerClaimsBtc => "maker_claims_btc"
  | .takerScrapeAndClaimAsset => "taker_scrape_and_claim_asset"
  | .takerClaimAssetFromVulnerable => "taker_claim_asset_from_vulnerable"
  | .maybeRefundAssetOnMakerStall => "maybe_refund_asset_on_maker_stall"
  | .takerRefundBtc => "taker_refund_btc"
  | .mutualRefund => "mutual_refund"

/-- The states a step's guard lets through; `maker_verify_counter_funding` has
none. -/
def Step.validFrom : Step → List SwapState
  | .takerFundsBtc => [.negotiated]
  | .postAssetLockRevalidate => [.btcLocked]
  | .makerVerifyCounterFunding => SwapState.all
  | .makerClaimsBtc => [.bothLocked]
  | .takerScrapeAndClaimAsset => [.secretRevealed]
  | .takerClaimAssetFromVulnerable => [.assetVulnerable]
  | .maybeRefundAssetOnMakerStall => [.bothLocked]
  | .takerRefundBtc => [.btcLocked, .paramsMismatch]
  | .mutualRefund => [.bothLocked]

/-- The refusal's text; `taker_refund_btc` accepts two states and words it
differently. -/
def Step.refusal (step : Step) (state : SwapState) : String :=
  match step with
  | .takerRefundBtc => "taker_refund_btc not valid from " ++ state.value
  | .takerFundsBtc =>
    "taker_funds_btc only valid from NEGOTIATED, not " ++ state.value
  | .postAssetLockRevalidate =>
    "post_asset_lock_revalidate only valid from BTC_LOCKED, not " ++ state.value
  | .takerScrapeAndClaimAsset =>
    "taker_scrape_and_claim_asset only valid from SECRET_REVEALED, not " ++
      state.value
  | .takerClaimAssetFromVulnerable =>
    "taker_claim_asset_from_vulnerable only valid from ASSET_VULNERABLE, not " ++
      state.value
  | step => step.value ++ " only valid from BOTH_LOCKED, not " ++ state.value

/-- The state guard; the record it read. -/
def guardState (step : Step) : Method SwapRecord := do
  let record ← .read
  Method.refuseIf (record.state ∉ step.validFrom) (step.refusal record.state)
  return record

/-! ## Shared parts -/

/-- `_advance`. -/
def advanceRecord (event : SwapEvent) : Method Unit := do
  let record ← .read
  let newState ← .lift (advance record.state event)
  .write (record.withState newState)

/-- `_persist_record(self.record, shield=shield)`. -/
def persistRecord (c : Coordinator) (shield : Bool) : Method Unit := do
  let record ← .read
  if c.hasPersist then
    let _ ← .invoke (.persist record shield)

/-- `await self._persist_record(self.record, shield=True); return self.record`. -/
def persistAndReturn (c : Coordinator) : Method SwapRecord := do
  persistRecord c true
  .read

/-- `await self._persist_record(self.record, shield=True); raise ValidationError(msg)`. -/
def persistAndRefuse {α : Type} (c : Coordinator) (msg : String) :
    Method α := do
  persistRecord c true
  Method.refuse msg

/-- The argument `with_counter_lock` takes: a locator, `None`, or something
refused. -/
def asLocator : PyObj → Except PyErr (Option Locator)
  | .locator l => .ok (some l)
  | .none => .ok none
  | _ => invalid "counterchain_locator must be a Btc/Eth HtlcLocator or None"

/-- `self.record = self.record.with_counter_lock(locator)`. -/
def recordCounterLock (locator : PyObj) : Method Unit := do
  let record ← .read
  let loc ← .lift (asLocator locator)
  let record' ← .lift (record.withCounterLock loc)
  .write record'

/-- The outpoint `with_radiant_lock` takes. -/
def asOutpoint : PyObj → Except PyErr (Option String)
  | .str s => .ok (some s)
  | .none => .ok none
  | _ => invalid "radiant_covenant_outpoint must be a str or None"

/-- `self.record = self.record.with_radiant_lock(outpoint, observed.hex())`. -/
def recordRadiantLock (outpoint : PyObj) (observed : Bytes) : Method Unit := do
  let record ← .read
  let o ← .lift (asOutpoint outpoint)
  let record' ← .lift (record.withRadiantLock o (hex observed))
  .write record'

/-! ## Funding -/

/-- Reserve `H`, fail-closed on a raising store. -/
def reserveHashlock (terms : NegotiatedTerms) : Method Unit := do
  let reserved ← Method.catchException
      (.invoke (.reserve terms.hashlock)) fun e =>
    Method.refuse ("seen-store unavailable; fail-closed (" ++ e.text ++ ")")
  Method.refuseIf (reserved.truthy = false)
    "hashlock H already reserved; refusing to fund (free-option / preimage-replay)"

/-- Fund, check the locator and the funded amount. -/
def fundAndBind (terms : NegotiatedTerms) : Method Locator := do
  match ← .invoke (.fund terms) with
  | .locator locator =>
    -- The coin has moved by now; a mis-valued lock is refused, not recorded.
    let funded ← .invoke (.lockedAmount locator)
    Method.refuseIf (funded.ne (.int terms.valueAmount) = true)
      ("funded counter-leg amount " ++ funded.text ++
        " != negotiated value_amount " ++
        toString terms.valueAmount ++ "; refusing to lock a mis-valued HTLC")
    return locator
  | _ =>
    Method.refuse
      "counter_leg.fund must return a Btc/Eth HtlcLocator (full durable retained state)"

/-- `taker_funds_btc`. -/
def takerFundsBtc (c : Coordinator) (terms : NegotiatedTerms)
    (nowUnixS : Option Int) :
    Method SwapRecord := do
  let _ ← guardState .takerFundsBtc
  let gate ← preBtcLockCheck c terms nowUnixS
  Method.refuseIf (gate.ok = false)
    ("pre-BTC-lock gate refused funding: " ++ gate.reason)
  -- The intent is durable before any coin moves; `H` is reserved strictly
  -- before the only on-chain effect, so of two racing funders one stops here.
  persistRecord c false
  reserveHashlock terms
  let locator ← fundAndBind terms
  recordCounterLock (.locator locator)
  advanceRecord .takerFundsBtc
  persistAndReturn c

/-! ## The asset lock -/

/-- `_assert_eth_lock_timing_still_safe`. -/
def assertEthLockTimingStillSafe (c : Coordinator) (terms : NegotiatedTerms)
    (nowUnixS : Option Int) : Except PyErr Unit :=
  match nowUnixS with
  | none =>
    invalid ("an ETH swap requires now_unix_s at covenant-lock revalidation " ++
      "(post-confirm cross-clock recheck)")
  | some now =>
    match terms.ethTimeoutUnixS with
    | none =>
      invalid "ETH swap missing eth_timeout_unix_s (the absolute refund deadline)"
    | some timeout =>
      match c.policy.crossClockMargin with
      | none =>
        invalid "ETH swap requires MarginPolicy.cross_clock_margin for the post-confirm recheck"
      | some margin =>
        assertCovenantConfirmsBeforeEthDeadline now timeout margin terms.tRxd
          c.policy.rxdBlockIntervalS 0

/-- The checkpoint a re-verification is pinned to. -/
def verifyBlockId (c : Coordinator) : Option String :=
  if c.policy.isMeasured then some "finalized" else none

/-- Verify again and re-bind the locator, then re-check the timing. -/
def reverifyCounterFunding (c : Coordinator) (locator : Eth.EthHtlcLocator)
    (nowUnixS : Option Int) : Method Unit := do
  let record ← .read
  let reverified ← .invoke
    (.verifyCounterpartyFunded (.str locator.contractAddress) record.terms
      (verifyBlockId c))
  recordCounterLock reverified
  .lift (assertEthLockTimingStillSafe c record.terms nowUnixS)

/-- `_assert_eth_counter_funding_verified`. -/
def assertEthCounterFundingVerified (c : Coordinator) (nowUnixS : Option Int) :
    Method Unit := do
  let record ← .read
  match record.counterchainLocator with
  | some (.eth locator) =>
    if c.hasVerifyCounterpartyFunded = false then
      persistAndRefuse c
        "counter_leg does not implement verify_counterparty_funded; fail-closed"
    else
      Method.catchValidation (reverifyCounterFunding c locator nowUnixS)
        (persistAndRefuse c)
  | _ =>
    persistAndRefuse c
      ("ETH counter-funding was never verified (no EthHtlcLocator on record); " ++
        "maker_verify_counter_funding MUST run before locking RXD — refusing BOTH_LOCKED " ++
        "(the maker should refund the covenant via CSV)")

/-- The expected script could not be computed: a mismatch, recorded before
raising. -/
def unverifiableCovenant (c : Coordinator) (observed : Bytes) (e : PyErr) :
    Method PyObj := do
  recordRadiantLock (.str "<unverifiable>") observed
  advanceRecord .makerLocksWrongParams
  persistAndRefuse c
    ("could not recompute expected covenant SPK; PARAMS_MISMATCH (" ++
      e.text ++ ")")

/-- `post_asset_lock_revalidate`. -/
def postAssetLockRevalidate (c : Coordinator) (observedCovenantSpk : PyObj)
    (nowUnixS : Option Int) : Method SwapRecord := do
  let record ← guardState .postAssetLockRevalidate
  let observed ← .lift observedCovenantSpk.toBytes
  let expected ← Method.catchException
    (.invoke (.expectedCovenantScriptpubkey record.terms))
    (unverifiableCovenant c observed)
  let outpoint ← .invoke (.covenantOutpoint record.terms)
  -- The observed lock is written down before it is compared: both outcomes keep
  -- it.
  recordRadiantLock outpoint observed
  let expectedSpk ← .lift expected.toBytes
  if observed ≠ expectedSpk then
    advanceRecord .makerLocksWrongParams
    persistAndReturn c
  else
    if record.terms.counterChain ≠ .btc then
      assertEthCounterFundingVerified c nowUnixS
    advanceRecord .makerLocksAsset
    persistAndReturn c

/-- `maker_verify_counter_funding`. -/
def makerVerifyCounterFunding (c : Coordinator)
    (counterContractAddress : PyObj) :
    Method SwapRecord := do
  let record ← .read
  Method.refuseIf (record.terms.counterChain ≠ .eth)
    ("maker_verify_counter_funding is for an ETH counter leg; a BTC counter leg's funding " ++
      "target is pre-derivable and bound by the derive==promised gate")
  Method.refuseIf (c.hasVerifyCounterpartyFunded = false)
    "counter_leg does not implement verify_counterparty_funded; fail-closed"
  let locator ← .invoke
    (.verifyCounterpartyFunded counterContractAddress record.terms none)
  recordCounterLock locator
  persistAndReturn c

/-! ## The maker's claim -/

/-- `SecretBytes`: the buffer and whether it was wiped. -/
structure SecretBytes where
  buf : Bytes
  zeroed : Bool := false

/-- `unsafe_raw_bytes`. -/
def SecretBytes.unsafeRawBytes (s : SecretBytes) : Except PyErr Bytes :=
  if s.zeroed then .error (.other "attempt to access secret after zeroize()")
    else .ok s.buf

/-- `maker_claims_btc`; the argument is `none` when it is not a
`SecretBytes`. -/
def makerClaimsBtc (c : Coordinator) (preimage : Option SecretBytes) :
    Method SwapRecord := do
  let record ← guardState .makerClaimsBtc
  match preimage with
  | none =>
    Method.refuse "preimage must be SecretBytes (in-memory only; never persisted)"
  | some secret =>
    match record.counterchainLocator with
    | none => Method.refuse "no BTC locator on record; cannot claim"
    | some locator =>
      let raw ← .lift secret.unsafeRawBytes
      Method.refuseIf (sha256 raw ≠ record.terms.hashlock)
        "preimage does not hash to the negotiated H; refusing to broadcast"
      -- `finally: preimage.zeroize()`: also when the broadcast raises.
      let _ ← Prog.ensure (.invoke (.claim locator raw))
        (do let _ ← .invoke .zeroize)
      advanceRecord .makerClaimsBtcRevealsP
      persistAndReturn c

/-! ## The taker's claim -/

/-- `_assert_claim_tx_spends_our_htlc`. -/
def assertClaimTxSpendsOurHtlc (record : SwapRecord)
    (makerClaimTxBytes : PyObj) :
    Except PyErr Unit :=
  match record.counterchainLocator with
  | none =>
    invalid "no BTC locator on record; cannot verify claim-tx provenance"
  | some (.eth _) =>
    .error (.other
      "'EthHtlcLocator' object has no attribute 'funding_outpoint'")
  | some (.btc locator) => do
    let expected ← locator.fundingOutpoint.prevoutBytes
    let raw ← makerClaimTxBytes.toBytes
    match btcInputOutpointsFromRaw raw with
    | .error (.validation msg) =>
      invalid ("could not parse claim tx inputs; fail-closed (" ++ msg ++ ")")
    | .error e => .error e
    | .ok prevouts =>
      refuseIf (expected ∉ prevouts)
        ("supplied claim tx does not spend this swap's BTC HTLC funding outpoint; " ++
          "refusing to scrape p (wrong or cross-swap claim tx)")

/-- Scrape `p` and re-verify it opens the record's `H`. -/
def scrapePreimage (claimTx : PyObj) : Method Bytes := do
  let record ← .read
  let p ← .invoke (.scrapeSecret claimTx record.terms.hashlock)
  let raw ← .lift p.toBytes
  Method.refuseIf (sha256 raw ≠ record.terms.hashlock)
    "scraped preimage does not hash to H; refusing Radiant claim"
  return raw

/-- Claim the asset, then advance and persist. -/
def claimAssetAndComplete (c : Coordinator) (p : Bytes) :
    Method SwapRecord := do
  let record ← .read
  let _ ← .invoke (.claimAsset record p)
  advanceRecord .takerScrapesPClaimsAsset
  persistAndReturn c

/-- Act on the gate: wait, stop at ASSET_VULNERABLE, or claim. -/
def actOnFinality (c : Coordinator) (finality : ClaimFinality) (p : Bytes) :
    Method SwapRecord :=
  match finality with
  -- Not final yet and still time: the record is returned as it is, for a later
  -- retry.
  | .wait => .read
  | .squeezed => do
    advanceRecord .takerOfflineOrPinned
    persistAndReturn c
  | .safe => claimAssetAndComplete c p

/-- The depth at which the coordinator treats the maker's BTC claim as final. -/
def requiredBtcDepth (policy : MarginPolicy) : Except PyErr Timelock :=
  policy.btcClaimReorgDepth.normalizeTo .blocks policy.blockIntervalS

/-- The verdict the coordinator builds from a confirmation count. -/
def btcClaimVerdict (policy : MarginPolicy) (btcConfs : PyObj) :
    Except PyErr CounterClaimFinality := do
  let requiredDepth ← requiredBtcDepth policy
  match btcConfs with
  | .int n => CounterClaimFinality.fromBtcDepth n requiredDepth.value
  | _ => invalid "confirmations must be a non-negative int"

/-- The verdict an ETH leg hands over. -/
def ethClaimVerdict (answer : PyObj) : Except PyErr CounterClaimFinality :=
  match answer with
  | .verdict v => .ok v
  | _ => invalid "assess_claim_finality requires a CounterClaimFinality verdict"

/-- The BTC body of `taker_scrape_and_claim_asset`. -/
def takerScrapeAndClaimBtc (c : Coordinator) (makerClaimTxBytes : PyObj)
    (nowRxdHeight assetLockedAtHeight : Int) : Method SwapRecord := do
  let record ← guardState .takerScrapeAndClaimAsset
  let p ← scrapePreimage makerClaimTxBytes
  .lift (assertClaimTxSpendsOurHtlc record makerClaimTxBytes)
  let btcConfs ← .invoke (.confirmationsOfClaim makerClaimTxBytes)
  let verdict ← .lift (btcClaimVerdict c.policy btcConfs)
  let finality ← .lift
    (assessClaimFinality verdict nowRxdHeight assetLockedAtHeight
      record.terms.tRxd c.policy)
  actOnFinality c finality p

/-- The locator an ETH claim needs on the record. -/
def requireEthLocator (record : SwapRecord) : Except PyErr Eth.EthHtlcLocator :=
  match record.counterchainLocator with
  | some (.eth l) => .ok l
  | _ => invalid "ETH claim flow requires an EthHtlcLocator on the record"

/-- Fetch, scrape and check the provenance of an ETH claim. -/
def scrapeEthPreimage (locator : Eth.EthHtlcLocator) (claimTxHash : PyObj) :
    Method Bytes := do
  let artifacts ← .invoke (.fetchClaimArtifacts claimTxHash)
  let p ← scrapePreimage artifacts
  let _ ← .invoke (.assertClaimProvenance claimTxHash locator.contractAddress p)
  return p

/-- `_taker_scrape_and_claim_eth`. -/
def takerScrapeAndClaimEth (c : Coordinator) (claimTxHash : PyObj)
    (nowRxdHeight assetLockedAtHeight : Int) : Method SwapRecord := do
  let record ← guardState .takerScrapeAndClaimAsset
  let locator ← .lift (requireEthLocator record)
  let p ← scrapeEthPreimage locator claimTxHash
  let answer ← .invoke (.claimFinalityVerdict claimTxHash)
  let verdict ← .lift (ethClaimVerdict answer)
  let finality ← .lift
    (assessClaimFinality verdict nowRxdHeight assetLockedAtHeight
      record.terms.tRxd c.policy)
  actOnFinality c finality p

/-- `taker_scrape_and_claim_asset`. -/
def takerScrapeAndClaimAsset (c : Coordinator) (makerClaimTxBytes : PyObj)
    (nowRxdHeight assetLockedAtHeight : Int) : Method SwapRecord := do
  let record ← .read
  match record.terms.counterChain with
  | .btc =>
    takerScrapeAndClaimBtc c makerClaimTxBytes nowRxdHeight assetLockedAtHeight
  | .eth =>
    takerScrapeAndClaimEth c makerClaimTxBytes nowRxdHeight assetLockedAtHeight

/-- `taker_claim_asset_from_vulnerable`, both chains. -/
def takerClaimAssetFromVulnerable (c : Coordinator)
    (makerClaimTxBytes : PyObj) :
    Method SwapRecord := do
  let record ← guardState .takerClaimAssetFromVulnerable
  match record.terms.counterChain with
  | .btc =>
    let p ← scrapePreimage makerClaimTxBytes
    .lift (assertClaimTxSpendsOurHtlc record makerClaimTxBytes)
    claimAssetAndComplete c p
  | .eth =>
    let locator ← .lift (requireEthLocator record)
    let p ← scrapeEthPreimage locator makerClaimTxBytes
    claimAssetAndComplete c p

/-! ## Refunds -/

/-- `maybe_refund_asset_on_maker_stall`. -/
def maybeRefundAssetOnMakerStall (c : Coordinator)
    (nowBlockHeight assetLockedAtHeight : Int)
    (makerHasClaimedBtc : Bool) : Method SwapRecord := do
  let record ← guardState .maybeRefundAssetOnMakerStall
  let trigger ← .lift
    (takerRefundWindowOpen nowBlockHeight assetLockedAtHeight record.terms.tRxd
      c.config.makerStallSafetyWindowBlocks makerHasClaimedBtc
      c.policy.blockIntervalS)
  if trigger then
    let _ ← .invoke (.refundAsset record)
    -- Two edges in one call, with nothing persisted at MAKER_STALLS in between.
    advanceRecord .makerStallDetected
    advanceRecord .takerRefundsAssetProactively
    persistAndReturn c
  else .read

/-- `taker_refund_btc`. -/
def takerRefundBtc (c : Coordinator) : Method SwapRecord := do
  let record ← guardState .takerRefundBtc
  match record.counterchainLocator with
  | none =>
    Method.refuse "no BTC locator on record; cannot refund (state was lost)"
  | some locator =>
    let _ ← .invoke (.refund locator record.terms.tBtc)
    -- The event depends on which of the two accepted states the call started
    -- in.
    advanceRecord (if record.state = .btcLocked then .makerNeverLocksBtcTimeout
      else .takerRefundsBtc)
    persistAndReturn c

/-- `mutual_refund`. -/
def mutualRefund (c : Coordinator) : Method SwapRecord := do
  let record ← guardState .mutualRefund
  match record.counterchainLocator with
  | none =>
    Method.refuse "no BTC locator on record; BTC would strand (state was lost)"
  | some locator =>
    let _ ← .invoke (.refund locator record.terms.tBtc)
    let _ ← .invoke (.refundAsset record)
    advanceRecord .bothTimeoutsElapse
    persistAndReturn c

/-! ## Calls and runs -/

/-- A step call with its arguments. -/
inductive StepCall where
  | takerFundsBtc (terms : NegotiatedTerms) (nowUnixS : Option Int)
  | postAssetLockRevalidate (observedCovenantSpk : PyObj)
      (nowUnixS : Option Int)
  | makerVerifyCounterFunding (counterContractAddress : PyObj)
  | makerClaimsBtc (preimage : Option SecretBytes)
  | takerScrapeAndClaimAsset (claimTx : PyObj)
      (nowRxdHeight assetLockedAtHeight : Int)
  | takerClaimAssetFromVulnerable (claimTx : PyObj)
  | maybeRefundAssetOnMakerStall (nowBlockHeight assetLockedAtHeight : Int)
      (makerHasClaimedBtc : Bool)
  | takerRefundBtc
  | mutualRefund

/-- The body a call runs. -/
def StepCall.body (c : Coordinator) : StepCall → Method SwapRecord
  | .takerFundsBtc terms now => Gravity.takerFundsBtc c terms now
  | .postAssetLockRevalidate spk now =>
    Gravity.postAssetLockRevalidate c spk now
  | .makerVerifyCounterFunding addr => Gravity.makerVerifyCounterFunding c addr
  | .makerClaimsBtc p => Gravity.makerClaimsBtc c p
  | .takerScrapeAndClaimAsset tx now lock =>
    Gravity.takerScrapeAndClaimAsset c tx now lock
  | .takerClaimAssetFromVulnerable tx =>
    Gravity.takerClaimAssetFromVulnerable c tx
  | .maybeRefundAssetOnMakerStall now lock claimed =>
    Gravity.maybeRefundAssetOnMakerStall c now lock claimed
  | .takerRefundBtc => Gravity.takerRefundBtc c
  | .mutualRefund => Gravity.mutualRefund c

/-- The collaborators: what they answer, from everything that happened so
far. -/
abbrev Env := List StepEvent → Op → Except PyErr PyObj

/-- A call made, the record it started on, and how it ended (with the trace of
this call alone). -/
structure Done where
  call : StepCall
  start : SwapRecord
  run : Run Op PyObj SwapRecord PyErr SwapRecord

/-- Make the calls one after another. -/
def runCalls (c : Coordinator) (env : Env) :
    List StepCall → SwapRecord → List StepEvent → List Done
  | [], _, _ => []
  | call :: calls, record, history =>
    -- A call that raised still leaves the assignments it made before raising.
    let out := (call.body c).run (fun t op => env (history ++ t) op) record []
    ⟨call, record, out⟩ :: runCalls c env calls out.state (history ++ out.trace)

/-! ## A coordinator that funds, for the closed instances of later modules -/

def sampleCoordinator : Coordinator :=
  { config := { marginPolicy := samplePolicy, valid := rfl } }

/-- Collaborators that let a BTC funding through. -/
def sampleEnv : Env := fun _ op => match op with
  | .hasSeen _ => .ok (.bool false)
  | .reserve _ => .ok (.bool true)
  | .fund _ => .ok (.locator (.btc sampleBtcLocator))
  | .lockedAmount _ => .ok (.int 100000)
  | _ => .ok .none

example : ((takerFundsBtc sampleCoordinator sampleBtcTerms none).run sampleEnv
    sampleBtcRecord []).state.state = .btcLocked := by
  decide

end Pyrxd.Gravity
