import Pyrxd.Btc.RawTx
import Pyrxd.Glyph.Credential
import Pyrxd.Gravity.ClaimFinality
import Pyrxd.Gravity.Record
import Pyrxd.Gravity.TimelockMargin
import Pyrxd.Lib.Prog

/-!
# The coordinator and its collaborators

`SwapCoordinator` of `gravity/swap_coordinator.py` drives one swap against five
injected objects: the indexer (with an optional credential resolver), the
seen-store, the counter leg, the Radiant leg and the persist hook. They are
duck-typed, so nothing is assumed of what they return: an answer is any `PyObj`,
and the checks the source makes on it (`isinstance`, `bytes(x)`, truth value,
`!=`) are the readers below.

This module has the vocabulary (`PyObj`, `Op`), the configuration with its
constructor checks, and the gate that runs before any lock (`preBtcLockCheck`).
The nine state-advancing methods are in `Pyrxd.Gravity.Steps`.
-/

namespace Pyrxd.Gravity

open Pyrxd.Lib Pyrxd.Btc Pyrxd.Glyph

/-! ## Answers -/

/-- `ResolvedRef`; a field that is not of its declared type is `none`. -/
structure ResolvedRef where
  genesisOutpoint : Option Bytes
  hasGlyMarker : Bool
  payloadHash : Option Bytes
  confirmations : Option Int
deriving DecidableEq, Repr

/-- What a duck-typed collaborator may hand back. `other` is an object of any
other class, known by its identity, its truth value and what `bytes()` makes of
it. -/
inductive PyObj where
  | none
  | bool (b : Bool)
  | int (n : Int)
  | str (s : String)
  | bytes (b : Bytes)
  | locator (l : Locator)
  | verdict (v : CounterClaimFinality)
  | resolvedRef (r : ResolvedRef)
  | credential (c : ResolvedCredential)
  | other (id : Nat) (truthy : Bool) (asBytes : Option Bytes)
deriving DecidableEq

namespace PyObj

/-- `bool(x)`. -/
def truthy : PyObj → Bool
  | none => false
  | bool b => b
  | int n => n ≠ 0
  | str s => s ≠ ""
  | bytes b => b ≠ []
  | other _ t _ => t
  | _ => true

/-- `bytes(x)`: an int asks for that many zero bytes. -/
def toBytes : PyObj → Except PyErr Bytes
  | bytes b => .ok b
  | bool b => .ok (List.replicate b.toNat 0)
  | int n =>
    if n < 0 then .error (.other "negative count")
      else .ok (List.replicate n.toNat 0)
  | str _ => .error (.other "string argument without an encoding")
  | other _ _ (some b) => .ok b
  | _ => .error (.other "cannot convert object to bytes")

/-- `str(x)`, as far as a message needs it. -/
def text : PyObj → String
  | none => "None"
  | bool b => if b then "True" else "False"
  | int n => toString n
  | str s => s
  | bytes b => hex b
  | _ => "<object>"

/-- A bool is the int it stands for when compared. -/
def numeric : PyObj → PyObj
  | bool b => int (if b then 1 else 0)
  | x => x

/-- `x != y`. -/
def ne (x y : PyObj) : Bool := x.numeric ≠ y.numeric

end PyObj

/-! ## Calls out -/

/-- A call to a collaborator, with its arguments. -/
inductive Op where
  /-- `indexer.resolve_ref`. -/
  | resolveRef (genesisRef : Bytes)
  /-- `credential_resolver.resolve_credential`. -/
  | resolveCredential (credentialRef : Bytes)
  /-- `seen_store.has_seen`. -/
  | hasSeen (hashlock : Bytes)
  /-- `seen_store.reserve`. -/
  | reserve (hashlock : Bytes)
  /-- `counter_leg.*`. -/
  | deriveFundingScriptpubkey (terms : NegotiatedTerms)
  | promisedFundingScriptpubkey (terms : NegotiatedTerms)
  | fund (terms : NegotiatedTerms)
  | lockedAmount (locator : Locator)
  | claim (locator : Locator) (preimage : Bytes)
  | refund (locator : Locator) (tBtc : Timelock)
  | scrapeSecret (claimTx : PyObj) (hashlock : Bytes)
  | confirmationsOfClaim (claimTx : PyObj)
  | fetchClaimArtifacts (claimTxHash : PyObj)
  | assertClaimProvenance (claimTxHash : PyObj) (contractAddress : String)
      (preimage : Bytes)
  | claimFinalityVerdict (claimTxHash : PyObj)
  | verifyCounterpartyFunded (contractAddress : PyObj) (terms : NegotiatedTerms)
      (blockIdentifier : Option String)
  /-- `radiant_leg.*`. -/
  | expectedCovenantScriptpubkey (terms : NegotiatedTerms)
  | covenantOutpoint (terms : NegotiatedTerms)
  | claimAsset (record : SwapRecord) (preimage : Bytes)
  | refundAsset (record : SwapRecord)
  /-- `preimage.zeroize()`. -/
  | zeroize
  /-- The persist hook. -/
  | persist (record : SwapRecord) (shield : Bool)
deriving DecidableEq

/-- A coordinator method: its one mutable field is `self.record`. -/
abbrev Method := Prog Op PyObj SwapRecord PyErr

/-- What happens in a method, as its trace sees it. -/
abbrev StepEvent := Event Op PyObj SwapRecord PyErr

/-- `raise ValidationError(msg)`. -/
def Method.refuse {α : Type} (msg : String) : Method α :=
  .raise (.validation msg)

/-- `if cond: raise ValidationError(msg)`. -/
def Method.refuseIf (cond : Prop) [Decidable cond] (msg : String) :
    Method Unit :=
  .lift (Pyrxd.refuseIf cond msg)

/-- `except Exception`: everything but a `BaseException`. -/
def Method.catchException {α : Type} (body : Method α)
    (handler : PyErr → Method α) : Method α :=
  body.tryCatch fun e => match e with
    | .base _ => .raise e
    | _ => handler e

/-- `except ValidationError`. -/
def Method.catchValidation {α : Type} (body : Method α)
    (handler : String → Method α) : Method α :=
  body.tryCatch fun e => match e with
    | .validation msg => handler msg
    | _ => .raise e

/-! ## Configuration -/

structure CoordinatorConfigFields where
  marginPolicy : MarginPolicy
  makerStallSafetyWindowBlocks : Int := 6
  minRefConfirmations : Int := 6
  acceptNondurableSeen : Bool := false
  acceptEstimatedEthMargins : Bool := false
  minCredentialConfirmations : Int := 6

/-- `CoordinatorConfig.__post_init__`. -/
def CoordinatorConfigFields.postInit (f : CoordinatorConfigFields) :
    Except PyErr Unit := do
  refuseIf (f.makerStallSafetyWindowBlocks < 0)
    "maker_stall_safety_window_blocks must be a non-negative int"
  refuseIf (f.minRefConfirmations <
    0) "min_ref_confirmations must be a non-negative int"
  refuseIf (f.minCredentialConfirmations < 0)
    "min_credential_confirmations must be a non-negative int"

structure CoordinatorConfig extends CoordinatorConfigFields where
  valid : toCoordinatorConfigFields.postInit = .ok ()

/-- The stall window is not negative. -/
theorem CoordinatorConfig.window_nonneg (c : CoordinatorConfig) :
    0 ≤ c.makerStallSafetyWindowBlocks := by
  have h := c.valid
  simp only [CoordinatorConfigFields.postInit, refuseIf_bind_ok,
    refuseIf_ok] at h
  omega

theorem CoordinatorConfig.minRefConfirmations_nonneg (c : CoordinatorConfig) :
    0 ≤ c.minRefConfirmations := by
  have h := c.valid
  simp only [CoordinatorConfigFields.postInit, refuseIf_bind_ok,
    refuseIf_ok] at h
  omega

/-- The fixed part of a coordinator: its configuration and what its methods ask
of the injected objects' *shape* (a network tag, a `durable` flag, whether a
method exists). -/
structure Coordinator where
  config : CoordinatorConfig
  counterNetwork : Option String := none
  radiantNetwork : Option String := none
  seenDurable : Bool := false
  hasPersist : Bool := true
  hasCredentialResolver : Bool := true
  hasResolveRef : Bool := true
  hasVerifyCounterpartyFunded : Bool := true

/-- `AUDIT_CLEARED_NETWORKS`. -/
def auditClearedNetworks : List String :=
  ["bcrt", "regtest", "tb", "signet", "rltc", "tltc"]

/-- `_leg_is_value_bearing`. -/
def legIsValueBearing (network : Option String) : Bool :=
  match network with
  | some net => net ≠ "" && !auditClearedNetworks.contains net
  | none => false

namespace Coordinator

def policy (c : Coordinator) : MarginPolicy := c.config.marginPolicy

/-- The N-floor of the constructor, for an ETH record under a measured
policy. -/
def ethWindowFloor (c : Coordinator) (windowS : Int) : Int :=
  ⌈quotDouble windowS c.policy.rxdBlockIntervalS⌉ +
    reserveToBlocks c.policy.rxdClaimBurial c.policy.blockIntervalS - 1

/-- The ETH part of the constructor: a finalization window, and an N that
dominates the finality and burial reserves when the policy is measured. -/
def checkEthWindow (c : Coordinator) (record : SwapRecord) :
    Except PyErr Unit :=
  match record.terms.counterChain with
  | .btc => .ok ()
  | .eth =>
    match c.policy.ethFinalizationWindowS with
    | none =>
      invalid ("counter_chain='eth' (finalized-checkpoint leg) requires " ++
        "MarginPolicy.eth_finalization_window_s to be set; the reorg gate's finalization reserve " ++
        "depends on it — refusing to construct a coordinator that can only fail at claim time")
    | some w =>
      refuseIf (c.policy.isMeasured = true ∧
          c.config.makerStallSafetyWindowBlocks < c.ethWindowFloor w)
        ("maker_stall_safety_window_blocks=" ++
          toString c.config.makerStallSafetyWindowBlocks ++
          " is below the ETH finality+burial reserve floor " ++
            toString (c.ethWindowFloor w) ++
          " (= ceil(eth_finalization_window_s " ++ toString w ++
            "/rxd_block_interval_s " ++
          toString c.policy.rxdBlockIntervalS ++ ")=" ++
          toString ⌈quotDouble w c.policy.rxdBlockIntervalS⌉ ++ " + burial " ++
          toString (reserveToBlocks c.policy.rxdClaimBurial
            c.policy.blockIntervalS) ++
          " - 1); a maker could time its reveal into a " ++
          "SQUEEZE window the taker cannot safely act in — raise N or shrink the window")

/-- `SwapCoordinator.__init__`, less the type checks on its arguments. -/
def init (c : Coordinator) (record : SwapRecord) : Except PyErr Unit := do
  let valueBearing := legIsValueBearing c.counterNetwork ||
    legIsValueBearing c.radiantNetwork
  -- SEEN-1: a store that forgets reopens the replay window on a restart
  refuseIf (valueBearing = true ∧ c.seenDurable = false ∧
    c.config.acceptNondurableSeen = false)
    ("seen-store is NON-durable (in-process only) but the coordinator is wired to a " ++
      "value-bearing network: a restart or a second process resurrects the H-replay / " ++
      "free-option window (SEEN-1). Use a durable SeenStore (durable=True), or pass " ++
        "CoordinatorConfig(accept_nondurable_seen=True) to consciously accept " ++
      "non-durability for a single-process, single-shot, fresh-H-per-run runbook.")
  -- a flat burial bounds the odds of a reorg, not its cost against the value
  refuseIf (legIsValueBearing c.radiantNetwork = true ∧
    c.policy.acceptFlatBurial = false ∧
    (c.policy.rxdReorgCostPerBlock = none ∨ c.policy.valueAtRiskPhotons = none))
    ("value-bearing Radiant asset swap without value-scaled claim burial: a flat " ++
      "rxd_claim_burial bounds reorg probability, not reorg COST vs. value, so a swap worth " ++
      "more than the marginal Radiant reorg cost is economically reversible (red-team HIGH). " ++
      "Set MarginPolicy.rxd_reorg_cost_per_block (measured, photons/block) AND " ++
      "value_at_risk_photons (the assessed economic value), or pass " ++
      "MarginPolicy(accept_flat_burial=True) to consciously accept a flat burial on a dust run.")
  -- only for `rxd` is `radiant_amount` in photons, so only there can the two be
  -- compared
  refuseIf (legIsValueBearing c.radiantNetwork = true ∧
    record.terms.assetVariant = .rxd ∧
      ∃ v ∈ c.policy.valueAtRiskPhotons, v < record.terms.radiantAmount)
    ("value_at_risk_photons (" ++
      toString (c.policy.valueAtRiskPhotons.getD 0) ++
      ") < the RXD swap's radiant_amount (" ++
        toString record.terms.radiantAmount ++
      "): an under-stated value-at-risk shrinks the " ++
      "value-scaled claim burial below what this swap's own on-chain value demands. Set " ++
      "value_at_risk_photons >= radiant_amount for an RXD swap.")
  -- MEDIUM-1: an estimated policy turns the `finalized` pin and the N-floor off
  refuseIf (valueBearing = true ∧ record.terms.counterChain ≠ .btc ∧
    c.policy.isMeasured = false ∧ c.config.acceptEstimatedEthMargins = false)
    ("value-bearing ETH counter-leg swap with an ESTIMATED margin policy " ++
      "(is_measured=False): the verify->lock 'finalized' reorg pin AND the " ++
      "proactive-refund N-floor are both disabled (MEDIUM-1). Use MarginPolicy.measured(...), " ++
      "or pass CoordinatorConfig(accept_estimated_eth_margins=True) to consciously accept " ++
      "estimated-margin risk on an operator-gated dust run.")
  c.checkEthWindow record

end Coordinator

/-! ## REF authenticity -/

/-- The bindings `verify_ref_authenticity` checks on a resolved ref. -/
def checkResolvedRef (resolved : ResolvedRef) (ref : Bytes)
    (minConfirmations : Int)
    (expectedPayloadHash : Option Bytes) : Except PyErr Unit := do
  refuseIf (resolved.genesisOutpoint ≠ some ref)
    ("resolved token's genesis outpoint does not equal the advertised REF — wrong/forged asset. " ++
      "(REF is the genesis outpoint, NOT the reveal txid.) Do NOT pay the counter-leg.")
  refuseIf (resolved.hasGlyMarker = false)
    ("resolved REF carries no `gly` envelope marker — it is a bare singleton, not a minted Glyph " ++
      "(the exact R1 forgery). Do NOT pay the counter-leg.")
  refuseIf (expectedPayloadHash ≠ none ∧
    resolved.payloadHash ≠ expectedPayloadHash)
    ("resolved REF payload hash does not match the advertised payload — wrong asset content. " ++
      "Do NOT pay the counter-leg.")
  refuseIf (∀ c ∈ resolved.confirmations, c < minConfirmations)
    ("genesis tx has " ++ (resolved.confirmations.map toString).getD "None" ++
      " confirmations < required " ++ toString minConfirmations ++
      "; a shallow genesis can be " ++
      "reorged out after payment, voiding provenance. Do NOT pay the counter-leg.")

/-- `verify_ref_authenticity`. -/
def verifyRefAuthenticity (c : Coordinator) (genesisRef : Bytes)
    (assetVariant : AssetVariant)
    (minConfirmations : Int) (expectedPayloadHash : Option Bytes := none) :
    Method Unit :=
  match assetVariant with
  | .rxd =>
    Method.refuseIf (genesisRef ≠ []) "rxd swaps must not carry a genesis_ref"
  | _ => do
    Method.refuseIf (genesisRef = [])
      (assetVariant.value ++
        " swap requires a non-empty genesis_ref to authenticate")
    Method.refuseIf (minConfirmations < 0)
      "min_confirmations must be a non-negative int (fail-closed)"
    Method.refuseIf (c.hasResolveRef = false)
      "indexer does not implement resolve_ref — cannot authenticate REF; fail-closed"
    let resolved ← Method.catchException
        (.invoke (.resolveRef genesisRef)) fun e =>
      Method.refuse ("indexer could not resolve REF (" ++ e.text ++
        "); fail-closed — do NOT pay the counter-leg. " ++
        "Consensus does NOT enforce mint provenance (rigorous audit R1).")
    match resolved with
    | .none =>
      Method.refuse ("indexer returned no token for REF — it does not resolve to a minted asset. " ++
        "The covenant's singleton may be a forged/self-crafted ref (rigorous audit R1). " ++
        "Do NOT pay the counter-leg.")
    | .resolvedRef r =>
      .lift (checkResolvedRef r genesisRef minConfirmations expectedPayloadHash)
    | _ =>
      Method.refuse ("indexer returned an object that is not a ResolvedRef; fail-closed. " ++
        "(A sync gate calling the async indexer would leak an un-awaited coroutine here — " ++
        "fail-open guard.)")

/-! ## The pre-lock gate -/

structure PreBtcLockGate where
  ok : Bool
  reason : String := ""
deriving DecidableEq, Repr

/-- A failed gate, with its reason. -/
def PreBtcLockGate.fail (reason : String) : PreBtcLockGate := ⟨false, reason⟩

/-- The owner binding of a resolved credential: the reason it fails, if it
does. -/
def bindCredential (c : Coordinator) (terms : NegotiatedTerms)
    (cred : ResolvedCredential) :
    Except PyErr (Option PreBtcLockGate) := do
  let owner ← assertSoulboundCredential cred c.config.minCredentialConfirmations
    terms.credentialRef
  let expected ← holderHash owner terms.assetVariant terms.genesisRef
  if expected ≠ terms.takerDestHash then
    return some (.fail
      ("credential owner is not the swap payout recipient (taker_dest_hash); " ++
      "rental would pass — fail-closed"))
  return none

/-- Step 1b of the gate: `some` is an early return. -/
def credentialGate (c : Coordinator) (terms : NegotiatedTerms) :
    Method (Option PreBtcLockGate) :=
  if terms.credentialRef = [] then pure none
  else if c.hasCredentialResolver = false then
    pure (some (.fail
      "swap is credential-gated but no credential_resolver is wired; fail-closed"))
  else
    Method.catchException
      (do
        match ← .invoke (.resolveCredential terms.credentialRef) with
        | .none =>
          return some (.fail
            "credential ref did not resolve (unknown/spent); fail-closed")
        | .credential cred => .lift (bindCredential c terms cred)
        -- anything else fails on its first attribute, inside the same `try`
        | _ => .raise (.other "object has no attribute 'current_spk'"))
      fun e => match e with
        | .validation msg =>
          pure (some (.fail ("credential binding failed; fail-closed (" ++
            msg ++ ")")))
        | e =>
          pure (some (.fail ("credential resolver unavailable; fail-closed (" ++
            e.text ++ ")")))

/-- Step 2 of the gate: the advisory freshness probe. -/
def freshnessGate (terms : NegotiatedTerms) : Method (Option PreBtcLockGate) :=
  Method.catchException
    (do
      let seen ← .invoke (.hasSeen terms.hashlock)
      if seen.truthy then
        return some
          (.fail "hashlock H reused (free-option / preimage-replay risk)")
      return none)
    fun e => pure (some (.fail ("seen-store unavailable; fail-closed (" ++
      e.text ++ ")")))

/-- `_assert_eth_timelock_ordering`. -/
def assertEthTimelockOrdering (c : Coordinator) (terms : NegotiatedTerms)
    (nowUnixS : Option Int) :
    Except PyErr Unit :=
  match nowUnixS with
  | none =>
    invalid "an ETH swap requires now_unix_s (wall-clock) to validate cross-clock ordering"
  | some now =>
    match terms.ethTimeoutUnixS with
    | none =>
      invalid "ETH swap missing eth_timeout_unix_s (the absolute refund deadline)"
    | some timeout =>
      match c.policy.crossClockMargin, c.policy.maxCovenantConfirmWaitS with
      | some margin, some wait =>
        assertCovenantConfirmsBeforeEthDeadline now timeout margin terms.tRxd
          c.policy.rxdBlockIntervalS wait
      | _, _ =>
        invalid ("ETH swap requires MarginPolicy.cross_clock_margin and " ++
          "max_covenant_confirm_wait_s for the cross-clock ordering gate")

/-- Step 3 of the gate, per counter chain. -/
def timelockGate (c : Coordinator) (terms : NegotiatedTerms)
    (nowUnixS : Option Int) :
    Except PyErr Unit :=
  match terms.counterChain with
  | .btc => assertTimelockMargin terms.tBtc terms.tRxd c.policy
  | .eth => assertEthTimelockOrdering c terms nowUnixS

/-- Step 4 of the gate: the promised funding script is the re-derived one. -/
def fundingSpkGate (terms : NegotiatedTerms) : Method PreBtcLockGate :=
  Method.catchException
    (do
      let expectedSpk ← .invoke (.deriveFundingScriptpubkey terms)
      let promisedSpk ← .invoke (.promisedFundingScriptpubkey terms)
      if expectedSpk.ne promisedSpk then
        return .fail
          "maker-promised BTC params do not match re-derived funding SPK"
      return ⟨true, ""⟩)
    fun e => pure (.fail ("could not derive BTC funding SPK; fail-closed (" ++
      e.text ++ ")"))

/-- `pre_btc_lock_check`. -/
def preBtcLockCheck (c : Coordinator) (terms : NegotiatedTerms)
    (nowUnixS : Option Int) :
    Method PreBtcLockGate := do
  -- 1. the asset is the one advertised
  let refused ← Method.catchValidation
    (do
      verifyRefAuthenticity c terms.genesisRef terms.assetVariant
        c.config.minRefConfirmations
      return none)
    fun msg => pure
      (some (.fail ("REF authenticity failed; fail-closed (" ++ msg ++ ")")))
  if let some gate := refused then return gate
  -- 1b. and 2. the payout goes to the credential's owner; `H` looks fresh
  -- (advisory: the reservation in `taker_funds_btc` is what counts)
  if let some gate := ← credentialGate c terms then return gate
  if let some gate := ← freshnessGate terms then return gate
  -- 3. the timelock order; only a `ValidationError` is turned into a failed
  -- gate
  match timelockGate c terms nowUnixS with
  | .error (.validation msg) => return .fail ("margin check failed: " ++ msg)
  | .error e => .raise e
  -- 4. the promised funding script is the one the terms derive
  | .ok () => fundingSpkGate terms

end Pyrxd.Gravity
