import Pyrxd.Errors

/-!
# The swap safety machine

`gravity/swap_state.py`, first half: the states, the events, the transition
table and `advance`. The table is a `frozenset` in the source and a list here;
`advance` looks for the entry of a `(state, event)` pair and there is at most
one (`transitionTable_functional`), so the iteration order does not matter.

What every later proof uses is `advance_ok`: a state that `advance` returns is
the target of a table entry out of the state it was given, and
`terminal_no_edge`: no entry leaves a terminal state.
-/

namespace Pyrxd.Gravity

inductive SwapState where
  | negotiated
  | btcLocked
  | bothLocked
  | secretRevealed
  | completed
  | mutualRefund
  | paramsMismatch
  | makerStalls
  | assetVulnerable
  | oneSidedLossTaker
  | aborted
  | assetRefundedTakerActs
deriving DecidableEq, Repr

/-- `SwapState.value`. -/
def SwapState.value : SwapState → String
  | .negotiated => "negotiated"
  | .btcLocked => "btc_locked"
  | .bothLocked => "both_locked"
  | .secretRevealed => "secret_revealed"
  | .completed => "completed"
  | .mutualRefund => "mutual_refund"
  | .paramsMismatch => "params_mismatch"
  | .makerStalls => "maker_stalls"
  | .assetVulnerable => "asset_vulnerable"
  | .oneSidedLossTaker => "one_sided_loss_taker"
  | .aborted => "aborted"
  | .assetRefundedTakerActs => "asset_refunded_taker_acts"

/-- Every state, in declaration order. -/
def SwapState.all : List SwapState :=
  [.negotiated, .btcLocked, .bothLocked, .secretRevealed, .completed,
    .mutualRefund,
    .paramsMismatch, .makerStalls, .assetVulnerable,
      .oneSidedLossTaker, .aborted,
    .assetRefundedTakerActs]

/-- `SwapState(value)`. -/
def SwapState.ofValue (s : String) : Except PyErr SwapState :=
  match SwapState.all.find? (fun st => st.value == s) with
  | some st => .ok st
  | none => .error (.other (s ++ " is not a valid SwapState"))

/-- A state is known by its text. -/
theorem SwapState.ofValue_value (s : SwapState) :
    SwapState.ofValue s.value = .ok s := by
  cases s <;> rfl

/-- `TERMINAL_STATES`. -/
def terminalStates : List SwapState :=
  [.completed, .mutualRefund, .aborted, .assetRefundedTakerActs,
    .oneSidedLossTaker]

/-- `is_terminal`. -/
def isTerminal (s : SwapState) : Bool := terminalStates.contains s

inductive SwapEvent where
  | takerFundsBtc
  | takerNeverFunds
  | makerLocksAsset
  | makerLocksWrongParams
  | makerNeverLocksBtcTimeout
  | takerRefundsBtc
  | makerClaimsBtcRevealsP
  | makerStallDetected
  | takerRefundsAssetProactively
  | bothTimeoutsElapse
  | takerScrapesPClaimsAsset
  | takerOfflineOrPinned
  | makerRefundsAssetCsv
deriving DecidableEq, Repr

/-- `SwapEvent.value`. -/
def SwapEvent.value : SwapEvent → String
  | .takerFundsBtc => "taker_funds_btc"
  | .takerNeverFunds => "taker_never_funds"
  | .makerLocksAsset => "maker_locks_asset"
  | .makerLocksWrongParams => "maker_locks_wrong_params"
  | .makerNeverLocksBtcTimeout => "maker_never_locks_btc_timeout"
  | .takerRefundsBtc => "taker_refunds_btc"
  | .makerClaimsBtcRevealsP => "maker_claims_btc_reveals_p"
  | .makerStallDetected => "maker_stall_detected"
  | .takerRefundsAssetProactively => "taker_refunds_asset_proactively"
  | .bothTimeoutsElapse => "both_timeouts_elapse"
  | .takerScrapesPClaimsAsset => "taker_scrapes_p_claims_asset"
  | .takerOfflineOrPinned => "taker_offline_or_pinned"
  | .makerRefundsAssetCsv => "maker_refunds_asset_csv"

/-- `_TRANSITION_TABLE`. -/
def transitionTable : List (SwapState × SwapEvent × SwapState) :=
  [(.negotiated, .takerFundsBtc, .btcLocked),
   (.negotiated, .takerNeverFunds, .aborted),
   (.btcLocked, .makerLocksAsset, .bothLocked),
   (.btcLocked, .makerNeverLocksBtcTimeout, .aborted),
   (.btcLocked, .makerLocksWrongParams, .paramsMismatch),
   (.paramsMismatch, .takerRefundsBtc, .aborted),
   (.bothLocked, .makerClaimsBtcRevealsP, .secretRevealed),
   (.bothLocked, .makerStallDetected, .makerStalls),
   (.bothLocked, .bothTimeoutsElapse, .mutualRefund),
   (.makerStalls, .takerRefundsAssetProactively, .assetRefundedTakerActs),
   (.secretRevealed, .takerScrapesPClaimsAsset, .completed),
   (.secretRevealed, .takerOfflineOrPinned, .assetVulnerable),
   (.assetVulnerable, .makerRefundsAssetCsv, .oneSidedLossTaker),
   (.assetVulnerable, .takerScrapesPClaimsAsset, .completed)]

/-- Apply `event` to `state`; an undefined pair is refused, never a no-op. -/
def advance (state : SwapState) (event : SwapEvent) : Except PyErr SwapState :=
  if isTerminal state then
    invalid (state.value ++ " is terminal; no transition for " ++ event.value)
  else
    match transitionTable.find? (fun e => e.1 == state && e.2.1 == event) with
    | some (_, _, dst) => .ok dst
    | none =>
      invalid ("no transition from " ++ state.value ++
        " on event " ++ event.value)

/-- `src → dst` is an edge of the machine. -/
def Edge (src dst : SwapState) : Prop := ∃ ev, (src, ev, dst) ∈ transitionTable

/-- The table has one target for a state and an event. -/
theorem transitionTable_functional :
    ∀ e ∈ transitionTable, ∀ f ∈ transitionTable, e.1 = f.1 →
    e.2.1 = f.2.1 → e = f := by
  decide

/-- What `advance` returns is the target of a table entry. -/
theorem advance_ok {s d : SwapState} {ev : SwapEvent}
    (h : advance s ev = .ok d) :
    (s, ev, d) ∈ transitionTable := by
  unfold advance invalid at h
  split at h
  · simp at h
  · split at h
    · next src e dst hf =>
      injection h with h
      subst h
      have hmem := List.mem_of_find?_eq_some hf
      have hp := List.find?_some hf
      simp only [Bool.and_eq_true, beq_iff_eq] at hp
      rw [← hp.1, ← hp.2]
      exact hmem
    · simp at h

/-- No edge leaves a terminal state. -/
theorem terminal_no_edge {s d : SwapState} (h : Edge s d) :
    isTerminal s = false := by
  obtain ⟨ev, hmem⟩ := h
  have : ∀ e ∈ transitionTable, isTerminal e.1 = false := by decide
  exact this _ hmem

end Pyrxd.Gravity
