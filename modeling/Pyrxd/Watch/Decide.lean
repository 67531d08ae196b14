import Pyrxd.Gravity.ClaimFinality
import Pyrxd.Gravity.Record

/-!
# The watchtower's decision

`gravity/watch/decide.py`: from one record and one tick's observations, what to
tell the operator. Pure; it consumes the same gates as the coordinator
(`assess_claim_finality`, `taker_refund_window_open`) and names coordinator
steps, but broadcasts nothing.

The BTC and the ETH branch of the source run the same claim race and the same
BOTH_LOCKED check and differ in the verdict they build, in their texts and in
whether SAFE arms the executor. Those two parts are `claimRace` and
`bothLockedDecision`; each branch keeps its own definition over them.

Every `return Decision(...)` of the source runs the constructor's checks once,
with nothing after it. Here a branch returns the fields, and `decide` runs the
constructor.
-/

namespace Pyrxd.Watch

open Pyrxd.Btc Pyrxd.Gravity

inductive Intent where
  | watch
  | pageClaim
  | pageRefund
  | pageSqueezed
  | retire
  | noop
deriving DecidableEq, Repr

/-- An alert to the operator. -/
def Intent.isPage : Intent → Bool
  | .pageClaim => true
  | .pageRefund => true
  | .pageSqueezed => true
  | _ => false

/-- One tick's observations. `__post_init__` refuses negative heights and
counts. -/
structure Observations where
  makerHasClaimedBtc : Bool
  nowRxdHeight : Nat
  assetLockedAtHeight : Option Nat := none
  btcClaimConfirmations : Option Nat := none
  btcFundingConfirmations : Option Nat := none
  ethClaimDetected : Bool := false
  ethClaimFinality : Option CounterClaimState := none
  lowCorroboration : Bool := false
deriving DecidableEq, Repr

structure DecisionFields where
  intent : Intent
  reason : String
  recommendedAction : Option String := none
  deadlineRxdHeight : Option Int := none
  lowCorroboration : Bool := false
  autonomousBtcRefund : Bool := false
  autonomousAssetClaim : Bool := false
deriving DecidableEq, Repr

/-- `Decision.__post_init__`. -/
def DecisionFields.postInit (f : DecisionFields) : Except PyErr Unit := do
  refuseIf (f.reason = "") "Decision.reason must be a non-empty str"
  refuseIf (f.autonomousBtcRefund = true ∧ f.autonomousAssetClaim = true)
    "a Decision cannot set both autonomous_btc_refund and autonomous_asset_claim"
  refuseIf (f.autonomousBtcRefund = true ∧ f.intent ≠ .pageRefund)
    "autonomous_btc_refund is only valid on a PAGE_REFUND decision"
  refuseIf (f.autonomousAssetClaim = true ∧ f.intent ≠ .pageClaim)
    "autonomous_asset_claim is only valid on a PAGE_CLAIM decision"

structure Decision extends DecisionFields where
  valid : toDecisionFields.postInit = .ok ()

/-- `Decision(...)`. -/
def Decision.new (f : DecisionFields) : Except PyErr Decision := do
  let h ← postInitOk DecisionFields.postInit f
  return ⟨f, h.down⟩

/-- Fields that pass their checks make a decision. -/
theorem Decision.new_of_postInit {f : DecisionFields}
    (h : f.postInit = .ok ()) :
    Decision.new f = .ok ⟨f, h⟩ := by
  simp [Decision.new, postInitOk_of h]

/-! ## Inputs of the gates -/

/-- `_value_at_risk_photons`: only an RXD swap's amount is its value. -/
def valueAtRiskPhotons (terms : NegotiatedTerms) : Option Int :=
  if terms.assetVariant = .rxd then some terms.radiantAmount else none

/-- `_required_btc_depth_blocks`. -/
def requiredBtcDepthBlocks (policy : MarginPolicy) : Except PyErr Nat :=
  (policy.btcClaimReorgDepth.normalizeTo .blocks policy.blockIntervalS).map
    Timelock.value

/-- `_refund_opens_at`. -/
def refundOpensAt (policy : MarginPolicy) (terms : NegotiatedTerms)
    (assetLockedAtHeight : Nat) :
    Except PyErr Int := do
  let tRxdBlocks ← terms.tRxd.normalizeTo .blocks policy.blockIntervalS
  return assetLockedAtHeight + tRxdBlocks.value

/-- `_btc_refund_matured`. -/
def btcRefundMatured (terms : NegotiatedTerms) (obs : Observations) : Bool :=
  match obs.btcFundingConfirmations with
  | none => false
  | some n => terms.tBtc.unit = .blocks ∧ n ≥ terms.tBtc.value

/-- `str()` of an optional count. -/
def countText : Option Nat → String
  | none => "None"
  | some n => toString n

/-! ## The claim race -/

/-- What differs between the two claim races. -/
structure RaceTexts where
  missing : String
  raised : String
  safe : String
  wait : String
  squeezed : String
  /-- SAFE arms the autonomous claim executor. -/
  arms : Bool

/-- The gate on this tick's observations. -/
def raceFinality (terms : NegotiatedTerms) (obs : Observations)
    (policy : MarginPolicy) (lock : Nat)
    (verdict : CounterClaimFinality) : Except PyErr ClaimFinality :=
  assessClaimFinality verdict obs.nowRxdHeight lock terms.tRxd policy
    (valueAtRiskPhotons terms)

/-- `p` is public, or becoming so: the page reflects the gate. -/
def claimRace (texts : RaceTexts) (terms : NegotiatedTerms) (obs : Observations)
    (policy : MarginPolicy)
    (verdict : Option (Except PyErr CounterClaimFinality)) :
    Except PyErr DecisionFields :=
  match verdict, obs.assetLockedAtHeight with
  | some verdict, some lock => do
    let verdict ← verdict
    let deadline ← refundOpensAt policy terms lock
    match raceFinality terms obs policy lock verdict with
    -- a gate that cannot answer pages a human; it never falls through to WATCH
    | .error (.validation exc) =>
      return {
        intent := .pageSqueezed
        reason := texts.raised ++ exc
        recommendedAction :=
          some "taker_scrape_and_claim_asset (verify finality manually)"
        deadlineRxdHeight := some deadline
        lowCorroboration := obs.lowCorroboration }
    | .error e => .error e
    | .ok .safe =>
      return {
        intent := .pageClaim
        reason := texts.safe
        recommendedAction := some "taker_scrape_and_claim_asset"
        deadlineRxdHeight := some deadline
        lowCorroboration := obs.lowCorroboration
        autonomousAssetClaim := texts.arms }
    | .ok .wait =>
      return {
        intent := .watch
        reason := texts.wait
        deadlineRxdHeight := some deadline
        lowCorroboration := obs.lowCorroboration }
    | .ok .squeezed =>
      return {
        intent := .pageSqueezed
        reason := texts.squeezed
        recommendedAction :=
          some "taker_claim_asset_from_vulnerable (winner-take-all) vs accept loss"
        deadlineRxdHeight := some deadline
        lowCorroboration := obs.lowCorroboration }
  | _, _ =>
    return {
      intent := .pageSqueezed
      reason := texts.missing
      recommendedAction :=
        some "taker_scrape_and_claim_asset (verify finality manually)"
      lowCorroboration := obs.lowCorroboration }

/-- The BTC verdict: final at the policy's depth. -/
def btcVerdict (obs : Observations) (policy : MarginPolicy) :
    Option (Except PyErr CounterClaimFinality) :=
  obs.btcClaimConfirmations.map fun (n : Nat) => do
    let depth ← requiredBtcDepthBlocks policy
    CounterClaimFinality.fromBtcDepth n depth

/-- The ETH verdict: the checkpoint's state, without a depth. -/
def ethVerdict (obs : Observations) :
    Option (Except PyErr CounterClaimFinality) :=
  obs.ethClaimFinality.map fun state => .ok { state }

def btcRaceTexts (obs : Observations) : RaceTexts where
  missing :=
    "maker claim observed but finality un-assessable (missing claim depth or asset-lock height) — fail-closed"
  raised :=
    "maker claim observed but finality gate un-assessable, fail-closed: "
  safe := "maker revealed p; BTC claim reorg-safe (" ++
    countText obs.btcClaimConfirmations ++
    " conf) and burial fits the window"
  wait := "maker revealed p; awaiting reorg-safe burial (gate=WAIT, " ++
    countText obs.btcClaimConfirmations ++ " conf)"
  squeezed :=
    "maker revealed p but t_rxd window closing (gate=SQUEEZED) — ASSET_VULNERABLE, decision required"
  arms := true

def ethRaceTexts : RaceTexts where
  missing :=
    "maker ETH claim observed but finality un-assessable (missing finalized verdict or asset-lock height) — fail-closed"
  raised :=
    "maker ETH claim observed but finality gate un-assessable, fail-closed: "
  safe := "maker revealed p on ETH; claim finalized and burial fits the window"
  wait :=
    "maker revealed p on ETH; awaiting the finalized checkpoint (gate=WAIT)"
  squeezed :=
    "maker revealed p on ETH but t_rxd window closing (gate=SQUEEZED) — ASSET_VULNERABLE, decision required"
  arms := false

/-! ## Before the reveal -/

/-- BOTH_LOCKED: watch for a maker stall. -/
def bothLockedDecision (terms : NegotiatedTerms) (obs : Observations)
    (policy : MarginPolicy)
    (safetyWindowBlocks : Int) : Except PyErr DecisionFields :=
  match obs.assetLockedAtHeight with
  | none =>
    return {
      intent := .watch
      reason := "asset lock height not yet observed"
      lowCorroboration := obs.lowCorroboration }
  | some lock => do
    let deadline ← refundOpensAt policy terms lock
    match takerRefundWindowOpen obs.nowRxdHeight lock terms.tRxd
        safetyWindowBlocks false
        policy.blockIntervalS with
    | .error (.validation exc) =>
      return {
        intent := .pageRefund
        reason :=
          "maker-stall predicate un-evaluable, fail-closed to refund page: " ++
          exc
        recommendedAction := some "mutual_refund"
        deadlineRxdHeight := some deadline
        lowCorroboration := obs.lowCorroboration }
    | .error e => .error e
    | .ok true =>
      return {
        intent := .pageRefund
        reason := "maker has not claimed and t_rxd maturity approaching — prepare to mutual_refund. The deadline shown is t_rxd, when the maker's CSV refund opens (the danger), NOT a mutual_refund deadline: mutual_refund's counter leg cannot mature until t_btc > t_rxd, so broadcast it once BOTH timeouts have elapsed"
        recommendedAction := some "mutual_refund"
        deadlineRxdHeight := some deadline
        lowCorroboration := obs.lowCorroboration }
    | .ok false =>
      return {
        intent := .watch
        reason :=
          "both legs locked; maker not yet claimed; refund window not yet near"
        deadlineRxdHeight := some deadline
        lowCorroboration := obs.lowCorroboration }

/-- BTC_LOCKED: the maker never locked, and the taker's refund may have
matured. -/
def btcLockedDecision (terms : NegotiatedTerms) (obs : Observations) :
    DecisionFields :=
  -- the record lags: a lock on chain means a refund now would race the maker's
  -- claim
  if obs.assetLockedAtHeight ≠ none then {
    intent := .watch
    reason := "asset lock observed on-chain despite a BTC_LOCKED record — the maker locked; not refunding"
    lowCorroboration := obs.lowCorroboration }
  else if btcRefundMatured terms obs then {
    intent := .pageRefund
    reason := "maker never locked the asset; BTC funding buried " ++
      countText obs.btcFundingConfirmations ++ " >= t_btc " ++
        toString terms.tBtc.value ++
      " blocks — refund the BTC counter-leg via the timelock leg"
    recommendedAction := some "taker_refund_btc"
    autonomousBtcRefund := true
    lowCorroboration := obs.lowCorroboration }
  else {
    intent := .watch
    reason := "BTC_LOCKED; awaiting t_btc maturity (funding " ++
      countText obs.btcFundingConfirmations ++ " conf) or an asset lock"
    lowCorroboration := obs.lowCorroboration }

/-- ASSET_VULNERABLE: the operator has to decide. -/
def vulnerableDecision (obs : Observations) : DecisionFields where
  intent := .pageSqueezed
  reason := "ASSET_VULNERABLE: winner-take-all decision required"
  recommendedAction := some "taker_claim_asset_from_vulnerable vs accept loss"
  lowCorroboration := obs.lowCorroboration

/-- MAKER_STALLS: no clean step applies. -/
def makerStallsDecision (obs : Observations) (reason : String) :
    DecisionFields where
  intent := .pageSqueezed
  reason := reason
  recommendedAction :=
    some "investigate (mutual_refund is only valid from BOTH_LOCKED)"
  lowCorroboration := obs.lowCorroboration

/-- The rest: nothing is due. -/
def noActionDecision (state : SwapState) (obs : Observations) :
    DecisionFields where
  intent := .watch
  reason := "no action due in " ++ state.value
  lowCorroboration := obs.lowCorroboration

/-! ## The two branches -/

/-- The BTC branch of `decide`. -/
def decideBtc (record : SwapRecord) (obs : Observations) (policy : MarginPolicy)
    (safetyWindowBlocks : Int) : Except PyErr DecisionFields :=
  -- what the chain shows comes before what the record says, which may be stale
  if obs.makerHasClaimedBtc = true ∨ record.state = .secretRevealed then
    claimRace (btcRaceTexts obs) record.terms obs policy (btcVerdict obs policy)
  else match record.state with
    | .assetVulnerable => return vulnerableDecision obs
    | .paramsMismatch =>
      return {
        intent := .pageRefund
        reason :=
          "covenant params mismatch — refund the BTC counter-leg via the timelock leg"
        recommendedAction := some "taker_refund_btc"
        autonomousBtcRefund := btcRefundMatured record.terms obs
        lowCorroboration := obs.lowCorroboration }
    | .makerStalls =>
      return makerStallsDecision obs
        "unexpected MAKER_STALLS on a BTC swap — no clean coordinator refund from here; recover via mutual_refund once both timeouts elapse"
    | .bothLocked =>
      bothLockedDecision record.terms obs policy safetyWindowBlocks
    | .btcLocked => return btcLockedDecision record.terms obs
    | state => return noActionDecision state obs

/-- `_decide_eth`. -/
def decideEth (record : SwapRecord) (obs : Observations) (policy : MarginPolicy)
    (safetyWindowBlocks : Int) : Except PyErr DecisionFields :=
  if obs.ethClaimDetected = true ∨ record.state = .secretRevealed then
    claimRace ethRaceTexts record.terms obs policy (ethVerdict obs)
  else match record.state with
    | .assetVulnerable => return vulnerableDecision obs
    | .paramsMismatch =>
      return {
        intent := .pageRefund
        reason := "covenant params mismatch on the ETH swap — refund the ETH counter-leg HTLC (taker_refund_btc)"
        recommendedAction := some "taker_refund_btc"
        -- no executor refunds ETH: the flag keeps its default
        lowCorroboration := obs.lowCorroboration }
    | .makerStalls =>
      return makerStallsDecision obs
        "unexpected MAKER_STALLS on an ETH swap — no clean coordinator refund from here; recover the ETH HTLC manually"
    | .bothLocked =>
      bothLockedDecision record.terms obs policy safetyWindowBlocks
    | state => return noActionDecision state obs

/-- What `decide` hands to the constructor. -/
def decideFields (record : SwapRecord) (obs : Observations)
    (policy : MarginPolicy)
    (safetyWindowBlocks : Int) : Except PyErr DecisionFields := do
  refuseIf (safetyWindowBlocks <
    0) "decide requires a non-negative safety_window_blocks"
  if isTerminal record.state then
    return {
      intent := .retire
      reason := "terminal state " ++ record.state.value
      lowCorroboration := obs.lowCorroboration }
  -- the source's NOOP for any other chain is unreachable: `counter_chain` has
  -- two values
  match record.terms.counterChain with
  | .eth => decideEth record obs policy safetyWindowBlocks
  | .btc => decideBtc record obs policy safetyWindowBlocks

/-- `decide`. -/
def decide (record : SwapRecord) (obs : Observations) (policy : MarginPolicy)
    (safetyWindowBlocks : Int) : Except PyErr Decision := do
  Decision.new (← decideFields record obs policy safetyWindowBlocks)

end Pyrxd.Watch
