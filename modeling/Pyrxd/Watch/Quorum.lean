import Mathlib.Data.Fin.VecNotation
import Mathlib.Data.List.OfFn
import Pyrxd.Watch.Decide

/-!
# Where the observations come from

`MultiSourceRxdChainSource` of `gravity/watch/adapters.py` and the
`ChainObserver` of `gravity/watch/quorum.py` over it: from what several Radiant
readers answer to the `Observations` that `decide` consumes.

A source answers twice during one covenant read (`tip_height`, then
`covenant_confirmations`) and either call may fail on its own; a failed call (an
`Exception`) is `none` here. A depth that is not an int fails the same check as
a negative one, so a negative int stands for it.

The two conclusions point opposite ways. A depth is believed from any one
source, and the deepest wins, because a shallow one makes the claim gate read
SAFE; `None` lets the tower refund. `covenantConfirmations_eq` is the spec lemma
of the read.
-/

namespace Pyrxd.Watch

open Pyrxd.Btc Pyrxd.Eth Pyrxd.Gravity

/-! ## The sources -/

structure MultiSourceFields where
  /-- How many sources are wired. -/
  sources : Nat
  quorum : Int := 2

/-- `MultiSourceRxdChainSource.__init__`. -/
def MultiSourceFields.postInit (f : MultiSourceFields) : Except PyErr Unit := do
  refuseIf (f.quorum < 1) "quorum must be >= 1"
  refuseIf ((f.sources : Int) < f.quorum)
    ("need at least quorum=" ++ toString f.quorum ++ " RXD sources, got " ++
      toString f.sources)

structure MultiSourceRxdChainSource extends MultiSourceFields where
  valid : toMultiSourceFields.postInit = .ok ()

/-- One source's answers during a covenant read. -/
structure SourceReads where
  tip : Option Int
  covenant : Option (Option Int)
deriving DecidableEq, Repr

namespace SourceReads

/-- A covenant read that returned a depth. -/
def depth (r : SourceReads) : Option Int :=
  match r.covenant with
  | some (some d) => if d < 1 then none else some d
  | _ => none

/-- `_live_and_covenant`. -/
def liveAndCovenant (r : SourceReads) : Bool × Option Int :=
  match r.tip with
  | none => (false, none)
  | some _ => (true, r.depth)

/-- Its `tip_height` succeeded. -/
def Reachable (r : SourceReads) : Prop := r.tip ≠ none

/-- It was reached and reported depth `d`. -/
def Reports (r : SourceReads) (d : Int) : Prop := r.Reachable ∧ r.depth = some d

/-- It was reached and reported a depth. -/
def Sees (r : SourceReads) : Prop := r.Reachable ∧ r.depth ≠ none

/-- It was reached and its covenant read returned. -/
def Answers (r : SourceReads) : Prop := r.Reachable ∧ r.covenant ≠ none

/-- It was reached and its covenant read returned an absence. -/
def AnswersAbsent (r : SourceReads) : Prop := r.Answers ∧ r.depth = none

instance (r : SourceReads) : Decidable r.Reachable :=
  inferInstanceAs (Decidable (_ ≠ _))
instance (r : SourceReads) (d : Int) : Decidable (r.Reports d) :=
  inferInstanceAs (Decidable (_ ∧ _))
instance (r : SourceReads) : Decidable r.Sees :=
  inferInstanceAs (Decidable (_ ∧ _))
instance (r : SourceReads) : Decidable r.Answers :=
  inferInstanceAs (Decidable (_ ∧ _))
instance (r : SourceReads) : Decidable r.AnswersAbsent :=
  inferInstanceAs (Decidable (_ ∧ _))

/-- A source that sees reports a depth. -/
theorem sees_iff {r : SourceReads} : r.Sees ↔ ∃ d, r.Reports d := by
  unfold Sees Reports
  rw [exists_and_left, Option.ne_none_iff_exists']

/-- Whether a source counts as live. -/
theorem liveAndCovenant_fst (r : SourceReads) :
    r.liveAndCovenant.1 = Decidable.decide r.Reachable := by
  obtain ⟨tip, covenant⟩ := r
  cases tip <;> rfl

theorem liveAndCovenant_snd {r : SourceReads} {d : Int} :
    r.liveAndCovenant.2 = some d ↔ r.Reports d := by
  unfold liveAndCovenant Reports Reachable
  cases r.tip <;> simp

end SourceReads

namespace MultiSourceRxdChainSource

/-- `corroborated`. -/
def corroborated (m : MultiSourceRxdChainSource) : Bool :=
  m.quorum ≥ 2 ∧ (m.sources : Int) ≥ m.quorum

/-- `tip_height`: only as advanced as the most pessimistic source. -/
def tipHeight (m : MultiSourceRxdChainSource)
    (tips : Fin m.sources → Option Int) :
    Except PyErr Int :=
  let oks := (List.ofFn tips).filterMap id
  if (oks.length : Int) < m.quorum then
    .error (.other ("RXD tip height corroborated by only " ++
      toString oks.length ++
      " source(s); require quorum=" ++ toString m.quorum ++ " of " ++
        toString m.sources ++
      ". Fail-closed."))
  else match oks.min? with
    | some h => .ok h
    | none => .error (.other "min() arg is an empty sequence")

/-- `covenant_confirmations`. -/
def covenantConfirmations (m : MultiSourceRxdChainSource)
    (reads : Fin m.sources → SourceReads) :
    Except PyErr (Option Int) :=
  let ok := List.ofFn fun i => (reads i).liveAndCovenant
  let present := ok.filterMap Prod.snd
  let reachable := ok.countP Prod.fst
  match present.max? with
  | some d => .ok (some d)
  | none =>
    -- reachability is `tip_height`'s: a covenant read that raised counts here
    -- as well
    if (reachable : Int) ≥ m.quorum then .ok none
    else .error (.other ("RXD covenant lock status uncorroborated: only " ++
      toString reachable ++
      " reachable source(s) < quorum=" ++ toString m.quorum ++
      "; fail-closed (refusing to conclude 'not locked')."))

/-- How many sources satisfy `p`. -/
def votes (m : MultiSourceRxdChainSource) (reads : Fin m.sources → SourceReads)
    (p : SourceReads → Prop) [DecidablePred p] : Nat :=
  (List.ofFn reads).countP fun r => p r

section Read

variable {m : MultiSourceRxdChainSource} {reads : Fin m.sources → SourceReads}

/-- The live count is the votes of the reachable. -/
theorem votes_reachable :
    (List.ofFn fun i => (reads i).liveAndCovenant).countP Prod.fst =
      m.votes reads SourceReads.Reachable := by
  have hmap : (List.ofFn fun i => (reads i).liveAndCovenant) =
      (List.ofFn reads).map SourceReads.liveAndCovenant := by
    rw [List.map_ofFn]
    rfl
  rw [hmap, List.countP_map, votes]
  congr 1
  funext r
  exact r.liveAndCovenant_fst

/-- A depth that is present was reported. -/
theorem mem_present {d : Int} :
    d ∈ (List.ofFn fun i => (reads i).liveAndCovenant).filterMap Prod.snd ↔
      ∃ i, (reads i).Reports d := by
  simp only [List.mem_filterMap, List.mem_ofFn]
  constructor
  · rintro ⟨_, ⟨i, rfl⟩, hd⟩
    exact ⟨i, SourceReads.liveAndCovenant_snd.mp hd⟩
  · rintro ⟨i, hd⟩
    exact ⟨_, ⟨i, rfl⟩, SourceReads.liveAndCovenant_snd.mpr hd⟩

/-- A depth is returned iff it is the deepest one reported. -/
theorem covenantConfirmations_some {d : Int} :
    m.covenantConfirmations reads = .ok (some d) ↔
      (∃ i, (reads i).Reports d) ∧ ∀ i d', (reads i).Reports d' → d' ≤ d := by
  unfold covenantConfirmations
  dsimp only
  -- the answer is the largest depth any live source reports
  have hmax : ∀ xs : List Int, xs.max? = some d ↔
      d ∈ xs ∧ ∀ b, b ∈ xs → b ≤ d :=
    fun xs => List.max?_eq_some_iff
  have hmax :=
    hmax ((List.ofFn fun i => (reads i).liveAndCovenant).filterMap Prod.snd)
  rw [mem_present] at hmax
  cases h : ((List.ofFn fun i => (reads i).liveAndCovenant).filterMap
      Prod.snd).max? with
  | some d0 =>
    rw [h, Option.some.injEq] at hmax
    simp only [Except.ok.injEq, Option.some.injEq, hmax]
    refine and_congr_right fun _ => ⟨fun hall i d' hd' => ?_,
      fun hall d' hd' => ?_⟩
    · exact hall d' (mem_present.mpr ⟨i, hd'⟩)
    · obtain ⟨i, hi⟩ := mem_present.mp hd'
      exact hall i d' hi
  | none =>
    rw [List.max?_eq_none_iff] at h
    have hno : ¬ ∃ i, (reads i).Reports d := by
      rw [← mem_present, h]
      exact List.not_mem_nil
    constructor
    · intro hret
      dsimp only at hret
      split at hret <;> cases hret
    · intro hex
      exact absurd hex.1 hno

/-- An absence is returned iff nobody reported a depth and a quorum was
reachable. -/
theorem covenantConfirmations_none :
    m.covenantConfirmations reads = .ok none ↔
      (∀ i d, ¬ (reads i).Reports d) ∧
        m.quorum ≤ m.votes reads SourceReads.Reachable := by
  unfold covenantConfirmations
  dsimp only
  rw [votes_reachable]
  cases h : ((List.ofFn fun i => (reads i).liveAndCovenant).filterMap
      Prod.snd).max? with
  | some d0 =>
    have hmem := List.max?_mem h
    obtain ⟨i, hi⟩ := mem_present.mp hmem
    simp only [Except.ok.injEq, reduceCtorEq, false_iff, not_and]
    intro hno
    exact absurd hi (hno i d0)
  | none =>
    rw [List.max?_eq_none_iff] at h
    have hno : ∀ i d, ¬ (reads i).Reports d := by
      intro i d hi
      have := mem_present.mpr ⟨i, hi⟩
      rw [h] at this
      exact List.not_mem_nil this
    dsimp only
    split
    · next hq => simp only [true_iff]; exact ⟨hno, hq⟩
    · next hq => simp only [reduceCtorEq, false_iff, not_and]; exact fun _ => hq

end Read

end MultiSourceRxdChainSource

/-! ## The counter leg's sources -/

/-- `BtcClaimStatus`: a claimed status carries its txid. -/
structure BtcClaimStatus where
  claimed : Bool
  claimTxid : Option String := none
  txid_length : ∀ t, claimTxid = some t → t.length = 64
  txid_present : claimed = true → claimTxid ≠ none

/-- What the `BtcClaimSource` answers; `confirmations` is asked for the claim's
txid. -/
structure BtcReplies where
  claimStatus : Except PyErr BtcClaimStatus
  confirmations : String → Except PyErr Int
  fundingConfirmations : Except PyErr (Option Int)

/-- `EthClaimStatus`: a claimed status carries its hash. -/
structure EthClaimStatus where
  claimed : Bool
  claimTxHash : Option String := none
  hash_hex : ∀ t, claimTxHash = some t → "0x".toList <+: t.toList
  hash_present : claimed = true → claimTxHash ≠ none

/-- What the `EthChainSource` answers; a source without `finality_checkpoint`
has `none`. -/
structure EthReplies where
  claimStatus : Except PyErr EthClaimStatus
  claimFinalityVerdict : String → Except PyErr CounterClaimFinality
  finalityCheckpoint : Option (Except PyErr (Int × Int))

/-! ## Stalls of the counter chain's finality -/

/-- `FinalityStallTracker` with its default windows: where `finalized` froze,
and the head when it was first seen there. -/
structure FinalityStallTracker where
  stuckFinalized : Option Int := none
  headAtRunStart : Option Int := none
deriving DecidableEq, Repr

namespace FinalityStallTracker

def slotsPerEpoch : Int := 32
def patienceSlots : Int := 4 * slotsPerEpoch
def maxNormalLagSlots : Int := 3 * slotsPerEpoch

/-- `observe`. -/
def observe (t : FinalityStallTracker) (headBlock finalizedBlock : Int) :
    Except PyErr (Bool × FinalityStallTracker) := do
  refuseIf (headBlock < 0) "head_block must be a non-negative int"
  refuseIf (finalizedBlock < 0) "finalized_block must be a non-negative int"
  refuseIf (finalizedBlock > headBlock) "finalized_block must be <= head_block"
  if t.stuckFinalized ≠ some finalizedBlock then
    return (false, ⟨some finalizedBlock, some headBlock⟩)
  let headProgress := headBlock - t.headAtRunStart.getD headBlock
  let liveGap := headBlock - finalizedBlock
  return (headProgress ≥ patienceSlots ∧ liveGap > maxNormalLagSlots, t)

/-- `verdict`. -/
def verdict (t : FinalityStallTracker) (pointInTime : CounterClaimFinality)
    (headBlock finalizedBlock : Int) :
    Except PyErr (CounterClaimFinality × FinalityStallTracker) := do
  if pointInTime.state = .final then return (pointInTime, t)
  let (stalled, t') ← t.observe headBlock finalizedBlock
  return (if stalled then { state := .counterChainNotFinalizing }
    else pointInTime, t')

end FinalityStallTracker

/-- `_eth_stall_trackers`, by swap id. -/
abbrev StallTrackers := String → Option FinalityStallTracker

/-! ## The observer -/

structure ChainObserverFields where
  hasBtc : Bool
  hasEth : Bool
  /-- The RXD source's own `corroborated`. -/
  sourceCorroborated : Bool
  rxdCorroborated : Bool := false

/-- `ChainObserver.__init__`. -/
def ChainObserverFields.postInit (f : ChainObserverFields) :
    Except PyErr Unit := do
  refuseIf (f.rxdCorroborated = true ∧ f.sourceCorroborated = false)
    "rxd_corroborated=True requires a multi-source RXD quorum (the source must expose corroborated=True, e.g. MultiSourceRxdChainSource with quorum>=2); a single source cannot assert corroboration. Use a real quorum, or leave rxd_corroborated=False."
  refuseIf (f.hasBtc = false ∧ f.hasEth = false)
    "ChainObserver requires at least one counter-leg source (btc and/or eth)"

structure ChainObserver extends ChainObserverFields where
  valid : toChainObserverFields.postInit = .ok ()

/-- What the RXD source answers during one `observe`. -/
structure RxdReplies where
  tipHeight : Except PyErr Int
  covenantConfirmations : Except PyErr (Option Int)

/-- `Observations(...)` on ints of any sign. -/
def Observations.new (makerHasClaimedBtc : Bool) (nowRxdHeight : Int)
    (assetLocked btcClaim btcFunding : Option Int) (ethDetected : Bool)
    (ethFinality : Option CounterClaimState) (lowCorroboration : Bool) :
    Except PyErr Observations := do
  refuseIf (nowRxdHeight <
    0) "Observations.now_rxd_height must be a non-negative int"
  refuseIf (∃ n ∈ assetLocked, n < 0)
    "Observations.asset_locked_at_height must be a non-negative int or None"
  refuseIf (∃ n ∈ btcClaim, n < 0)
    "Observations.btc_claim_confirmations must be a non-negative int or None"
  refuseIf (∃ n ∈ btcFunding, n < 0)
    "Observations.btc_funding_confirmations must be a non-negative int or None"
  return {
    makerHasClaimedBtc
    nowRxdHeight := nowRxdHeight.toNat
    assetLockedAtHeight := assetLocked.map Int.toNat
    btcClaimConfirmations := btcClaim.map Int.toNat
    btcFundingConfirmations := btcFunding.map Int.toNat
    ethClaimDetected := ethDetected
    ethClaimFinality := ethFinality
    lowCorroboration }

namespace ChainObserver

/-- The lock height a depth stands for; a height off the chain is no height. -/
def lockHeight (tip : Int) (covConfs : Option Int) : Option Int :=
  match covConfs with
  | none => none
  | some confs =>
    if confs ≥ 1 ∧ 0 ≤ tip - confs + 1 ∧
      tip - confs + 1 ≤ tip then some (tip - confs + 1) else none

/-- The asset-lock part of `observe`: nothing is read before an outpoint is
recorded. -/
def assetLocked (record : SwapRecord) (rxd : RxdReplies) (tip : Int) :
    Except PyErr (Option Int) :=
  match record.radiantCovenantOutpoint with
  | none => .ok none
  | some _ => rxd.covenantConfirmations.map (lockHeight tip)

/-- `_upgrade_eth_stall`. -/
def upgradeEthStall (eth : EthReplies) (swapId : String)
    (verdict : CounterClaimFinality)
    (trackers : StallTrackers) :
    Except PyErr CounterClaimFinality × StallTrackers :=
  if verdict.state = .final then (.ok verdict, trackers)
  else match eth.finalityCheckpoint with
    | none => (.ok verdict, trackers)
    | some (.error e) => (.error e, trackers)
    | some (.ok (head, finalized)) =>
      let tracker := (trackers swapId).getD {}
      -- the tracker is stored before the sample is judged
      match tracker.verdict verdict head finalized with
      | .error e => (.error e, Function.update trackers swapId (some tracker))
      | .ok (v, tracker') =>
        (.ok v, Function.update trackers swapId (some tracker'))

/-- `_observe_eth_claim`. -/
def observeEthClaim (o : ChainObserver) (eth : EthReplies) (swapId : String)
    (record : SwapRecord)
    (trackers : StallTrackers) :
    Except PyErr (Bool × Option CounterClaimState) × StallTrackers :=
  if o.hasEth = false then (invalid
    "ChainObserver has no EthChainSource for an ETH swap", trackers)
  else match record.counterchainLocator with
    | some (.eth _) =>
      match eth.claimStatus with
      | .error e => (.error e, trackers)
      | .ok status =>
        match status.claimed, status.claimTxHash with
        | true, some claim =>
          match eth.claimFinalityVerdict claim with
          | .error e => (.error e, trackers)
          | .ok verdict =>
            let (v, trackers') := upgradeEthStall eth swapId verdict trackers
            (v.map fun v => (true, some v.state), trackers')
        | _, _ => (.ok (false, none), trackers)
    | _ => (.ok (false, none), trackers)

/-- The BTC leg of `observe`: claimed or not, its depth, and the funding's depth
when a refund is near. -/
def observeBtcClaim (o : ChainObserver) (btc : BtcReplies)
    (record : SwapRecord) :
    Except PyErr (Bool × Option Int × Option Int) := do
  refuseIf (o.hasBtc = false)
    "ChainObserver has no BtcClaimSource for a BTC swap"
  match record.btcLocator with
  | none => return (false, none, none)
  | some _ =>
    let status ← btc.claimStatus
    let claimConfs ← (match status.claimed, status.claimTxid with
      | true, some txid => (btc.confirmations txid).map some
      | _, _ => .ok none)
    let fundingConfs ← (if record.state = .btcLocked ∨
        record.state = .paramsMismatch then
      btc.fundingConfirmations else .ok none)
    return (status.claimed, claimConfs, fundingConfs)

/-- `observe`. -/
def observe (o : ChainObserver) (rxd : RxdReplies) (btc : BtcReplies)
    (eth : EthReplies)
    (swapId : String) (record : SwapRecord) (trackers : StallTrackers) :
    Except PyErr Observations × StallTrackers :=
  match rxd.tipHeight with
  | .error e => (.error e, trackers)
  | .ok tip =>
    match assetLocked record rxd tip with
    | .error e => (.error e, trackers)
    | .ok lock =>
      match record.terms.counterChain with
      | .eth =>
        let (claim, trackers') := o.observeEthClaim eth swapId record trackers
        (claim >>= fun c =>
          Observations.new false tip lock none none c.1 c.2 (!o.rxdCorroborated), trackers')
      | .btc =>
        (o.observeBtcClaim btc record >>= fun c =>
          Observations.new c.1 tip lock c.2.1 c.2.2 false none (!o.rxdCorroborated), trackers)

/-- The height a depth stands for. -/
theorem lockHeight_some {tip : Int} {covConfs : Option Int} {h : Int}
    (hl : lockHeight tip covConfs = some h) : ∃ d, covConfs = some d ∧
    h = tip - d + 1 := by
  unfold lockHeight at hl
  cases covConfs with
  | none => cases hl
  | some d =>
    dsimp only at hl
    split at hl
    · cases hl
      exact ⟨d, rfl, rfl⟩
    · cases hl

end ChainObserver

/-- The heights of constructed observations. -/
theorem Observations.new_heights {claimed eth low : Bool} {tip : Int}
    {lock a b : Option Int}
    {fin : Option CounterClaimState} {obs : Observations}
    (h : Observations.new claimed tip lock a b eth fin low = .ok obs) :
    (obs.nowRxdHeight : Int) = tip ∧ obs.assetLockedAtHeight.map
      (fun n => (n : Int)) = lock := by
  unfold Observations.new at h
  obtain ⟨htip, h⟩ := refuseIf_bind_ok.mp h
  obtain ⟨hlock, h⟩ := refuseIf_bind_ok.mp h
  obtain ⟨_, h⟩ := refuseIf_bind_ok.mp h
  obtain ⟨_, h⟩ := refuseIf_bind_ok.mp h
  cases h
  refine ⟨Int.toNat_of_nonneg (by omega), ?_⟩
  cases lock with
  | none => rfl
  | some n =>
    have hn : 0 ≤ n := by
      by_contra hneg
      exact hlock ⟨n, rfl, by omega⟩
    show some ((n.toNat : Int)) = some n
    rw [Int.toNat_of_nonneg hn]

/-- The window an observation leaves is the one the covenant's depth leaves: the
tip it was read at cancels. -/
theorem ChainObserver.observe_window {o : ChainObserver} {rxd : RxdReplies}
    {btc : BtcReplies}
    {eth : EthReplies} {swapId : String} {record : SwapRecord}
    {trackers : StallTrackers}
    {obs : Observations} {lock : Nat}
    (h : (o.observe rxd btc eth swapId record trackers).1 = .ok obs)
    (hlock : obs.assetLockedAtHeight = some lock) :
    ∃ d, rxd.covenantConfirmations = .ok (some d) ∧
    (lock : Int) - obs.nowRxdHeight = 1 - d := by
  unfold observe at h
  cases htip : rxd.tipHeight with
  | error e => simp [htip] at h
  | ok tip =>
    cases hasset : assetLocked record rxd tip with
    | error e => simp [htip, hasset] at h
    | ok lock' =>
      simp only [htip, hasset] at h
      have hheights : (obs.nowRxdHeight : Int) = tip ∧
          obs.assetLockedAtHeight.map (fun n => (n : Int)) = lock' := by
        cases hchain : record.terms.counterChain with
        | eth =>
          simp only [hchain] at h
          obtain ⟨c, _, h⟩ := bind_ok.mp h
          exact Observations.new_heights h
        | btc =>
          simp only [hchain] at h
          obtain ⟨c, _, h⟩ := bind_ok.mp h
          exact Observations.new_heights h
      obtain ⟨hnow, hl⟩ := hheights
      rw [hlock] at hl
      -- a height was observed, so an outpoint was recorded and the read
      -- returned a depth
      unfold assetLocked at hasset
      cases hout : record.radiantCovenantOutpoint with
      | none =>
        rw [hout] at hasset
        cases hasset
        cases hl
      | some out =>
        rw [hout] at hasset
        cases hcov : rxd.covenantConfirmations with
        | error e => simp [hcov, Except.map] at hasset
        | ok confs =>
          simp only [hcov, Except.map, Except.ok.injEq] at hasset
          rw [← hasset] at hl
          obtain ⟨d, hd, hh⟩ := lockHeight_some hl.symm
          have hh : (lock : Int) = tip - d + 1 := hh
          refine ⟨d, by rw [hd], ?_⟩
          omega

/-! ## What a quorum read is worth -/

namespace MultiSourceRxdChainSource

/-- What is promised of one covenant read over `m`, and of every observation
made from it. -/
structure Sound (m : MultiSourceRxdChainSource)
    (reads : Fin m.sources → SourceReads) : Prop where
  /-- Absence is a quorum of sources that answered the covenant read with an
  absence. -/
  absent : m.covenantConfirmations reads = .ok none →
    m.quorum ≤ m.votes reads SourceReads.AnswersAbsent
  reported : ∀ d, m.covenantConfirmations reads = .ok (some d) →
    ∃ i, (reads i).Reports d
  deepest : ∀ d, m.covenantConfirmations reads = .ok (some d) →
    ∀ i d', (reads i).Reports d' → d' ≤ d
  /-- Whatever the tips say, the window left is at most the one of the deepest
  report. -/
  window : ∀ (o : ChainObserver) (tips : Fin m.sources →
    Option Int) (btc : BtcReplies)
    (eth : EthReplies) (swapId : String) (record : SwapRecord)
      (trackers : StallTrackers)
    (obs : Observations) (lock : Nat),
    (o.observe ⟨m.tipHeight tips,
      m.covenantConfirmations reads⟩ btc eth swapId record
      trackers).1 = .ok obs →
    obs.assetLockedAtHeight = some lock → ∀ i d, (reads i).Reports d →
      (lock : Int) + record.terms.tRxd.value - obs.nowRxdHeight ≤
        record.terms.tRxd.value - d + 1

/-- Nobody saw the covenant, a quorum was reachable, and some of the quorum's
covenant reads failed, so that fewer than a quorum answered. -/
def FailedReadsFillQuorum (m : MultiSourceRxdChainSource)
    (reads : Fin m.sources → SourceReads) :
    Prop :=
  (∀ i, ¬ (reads i).Sees) ∧
    m.quorum ≤ m.votes reads SourceReads.Reachable ∧
    (m.votes reads SourceReads.Answers : Int) < m.quorum

instance (m : MultiSourceRxdChainSource) (reads : Fin m.sources → SourceReads) :
    Decidable (m.FailedReadsFillQuorum reads) :=
  inferInstanceAs (Decidable (_ ∧ _))

section Verdict

variable {m : MultiSourceRxdChainSource} {reads : Fin m.sources → SourceReads}

/-- Where nobody sees the covenant, whoever answers answers with an absence. -/
theorem votes_absent (h : ∀ i, ¬ (reads i).Sees) :
    m.votes reads SourceReads.AnswersAbsent =
      m.votes reads SourceReads.Answers := by
  unfold votes
  refine List.countP_congr fun r hr => ?_
  obtain ⟨i, rfl⟩ := List.mem_ofFn.mp hr
  simp only [decide_eq_true_eq]
  constructor
  · exact fun hr => hr.1
  · intro hr
    refine ⟨hr, ?_⟩
    by_contra hd
    exact h i ⟨hr.1, hd⟩

/-- Absence is sound unless failed reads fill the quorum. -/
theorem absent_iff : (m.covenantConfirmations reads = .ok none →
    m.quorum ≤ m.votes reads SourceReads.AnswersAbsent) ↔
      ¬ m.FailedReadsFillQuorum reads := by
  have hsees : (∀ i d, ¬ (reads i).Reports d) ↔ ∀ i, ¬ (reads i).Sees := by
    refine forall_congr' fun i => ?_
    rw [SourceReads.sees_iff, not_exists]
  rw [covenantConfirmations_none, hsees]
  constructor
  · rintro h ⟨hno, hreach, hfew⟩
    have hq := h ⟨hno, hreach⟩
    rw [votes_absent hno] at hq
    omega
  · rintro h ⟨hno, hreach⟩
    rw [votes_absent hno]
    by_contra hfew
    exact h ⟨hno, hreach, by omega⟩

/-- The rest of the promise needs no condition. -/
theorem window_le {o : ChainObserver} {tips : Fin m.sources → Option Int}
    {btc : BtcReplies}
    {eth : EthReplies} {swapId : String} {record : SwapRecord}
    {trackers : StallTrackers}
    {obs : Observations} {lock : Nat}
    (h : (o.observe ⟨m.tipHeight tips,
      m.covenantConfirmations reads⟩ btc eth swapId record
      trackers).1 = .ok obs) (hlock : obs.assetLockedAtHeight = some lock)
        (i : Fin m.sources)
    {d : Int} (hd : (reads i).Reports d) :
    (lock : Int) + record.terms.tRxd.value - obs.nowRxdHeight ≤
      record.terms.tRxd.value - d + 1 := by
  obtain ⟨deepest, hread, hwindow⟩ := ChainObserver.observe_window h hlock
  have hle : d ≤ deepest := (covenantConfirmations_some.mp hread).2 i d hd
  omega

end Verdict

/-- A covenant read over a quorum keeps its promise exactly when failed covenant
reads do not stand in for answers: reachability is judged by `tip_height`
alone. -/
theorem covenantConfirmations_sound_iff (m : MultiSourceRxdChainSource)
    (reads : Fin m.sources → SourceReads) :
    m.Sound reads ↔ ¬ m.FailedReadsFillQuorum reads := by
  constructor
  · intro h
    exact absent_iff.mp h.absent
  · intro h
    refine ⟨absent_iff.mpr h, fun d hd => ?_, fun d hd => ?_, ?_⟩
    · exact (covenantConfirmations_some.mp hd).1
    · exact (covenantConfirmations_some.mp hd).2
    · intro o tips btc eth swapId record trackers obs lock hobs hlock i d hd
      exact window_le hobs hlock i hd

/-- Two sources, two votes needed. -/
def twoOfTwo : MultiSourceRxdChainSource := ⟨{ sources := 2 }, rfl⟩

/-- Both tips read, both covenant reads raised: "not locked", on no answer at
all. -/
theorem covenantConfirmations_failed_reads :
    ¬ twoOfTwo.Sound ![⟨some 100, none⟩, ⟨some 100, none⟩] := by
  intro h
  have hread : twoOfTwo.covenantConfirmations ![⟨some 100, none⟩,
      ⟨some 100, none⟩] = .ok none := by
    rfl
  exact absurd (h.absent hread) (by decide)

end MultiSourceRxdChainSource

end Pyrxd.Watch
