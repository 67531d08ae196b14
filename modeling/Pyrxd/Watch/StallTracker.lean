import Pyrxd.Watch.Quorum
import Pyrxd.Lib.LastRun

/-!
# The finality stall tracker over its whole history

`FinalityStallTracker` with the windows it was built with, as an object that is
called again and again. It keeps two numbers; what it says is a fact about all
samples it ever took (`Stalled`): the head has come far enough since the first
sample of the last run of one finalized block. A call that raises leaves the
object alone.
-/

namespace Pyrxd.Watch

open Pyrxd.Btc Pyrxd.Gravity Pyrxd.Lib

/-- The windows of `FinalityStallTracker.__init__`. -/
structure StallWindows where
  patienceSlots : Int := FinalityStallTracker.patienceSlots
  maxNormalLagSlots : Int := FinalityStallTracker.maxNormalLagSlots
  patience_pos : 1 ≤ patienceSlots := by decide
  lag_pos : 1 ≤ maxNormalLagSlots := by decide

/-- The checks of `FinalityStallTracker.__init__`. -/
def StallWindows.new (patienceSlots maxNormalLagSlots : Int) :
    Except PyErr StallWindows :=
  if hp : patienceSlots < 1 then invalid "patience_slots must be a positive int"
  else if hl : maxNormalLagSlots <
    1 then invalid "max_normal_lag_slots must be a positive int"
  else .ok ⟨patienceSlots, maxNormalLagSlots, by omega, by omega⟩

/-- What the windows are checked for. -/
theorem StallWindows.new_ok {patienceSlots maxNormalLagSlots : Int}
    {w : StallWindows} :
    StallWindows.new patienceSlots maxNormalLagSlots = .ok w ↔
      w.patienceSlots = patienceSlots ∧
        w.maxNormalLagSlots = maxNormalLagSlots := by
  unfold StallWindows.new invalid
  obtain ⟨p, l, hp, hl⟩ := w
  constructor
  · intro h
    split at h
    · cases h
    · split at h
      · cases h
      · injection h with h
        injection h with hpatience hlag
        exact ⟨hpatience.symm, hlag.symm⟩
  · rintro ⟨hpatience, hlag⟩
    subst hpatience hlag
    rw [dif_neg (by simpa using hp), dif_neg (by simpa using hl)]

/-- What the poll loop reads of the counter chain. -/
structure FinalitySample where
  headBlock : Int
  finalizedBlock : Int
deriving DecidableEq, Repr

namespace FinalitySample

/-- The checks of `observe`. -/
def check (s : FinalitySample) : Except PyErr Unit := do
  refuseIf (s.headBlock < 0) "head_block must be a non-negative int"
  refuseIf (s.finalizedBlock < 0) "finalized_block must be a non-negative int"
  refuseIf (s.finalizedBlock > s.headBlock)
    "finalized_block must be <= head_block"

/-- A sample that is taken. -/
def Taken (s : FinalitySample) : Prop := 0 ≤ s.finalizedBlock ∧
  s.finalizedBlock ≤ s.headBlock

instance (s : FinalitySample) : Decidable s.Taken :=
  inferInstanceAs (Decidable (_ ∧ _))

/-- A sample is taken when it passes. -/
theorem check_ok {s : FinalitySample} : s.check = .ok () ↔ s.Taken := by
  unfold check Taken
  rw [refuseIf_bind_ok, refuseIf_bind_ok, refuseIf_ok]
  omega

theorem check_error {s : FinalitySample} (h : ¬ s.Taken) :
    ∃ e, s.check = .error e := by
  cases hcheck : s.check with
  | error e => exact ⟨e, rfl⟩
  | ok u => exact absurd (check_ok.mp hcheck) h

end FinalitySample

namespace FinalityStallTracker

/-- `observe`, with the object as it stands afterwards. -/
def observeWith (w : StallWindows) (t : FinalityStallTracker)
    (s : FinalitySample) :
    Except PyErr Bool × FinalityStallTracker :=
  match s.check with
  | .error e => (.error e, t)
  | .ok () =>
    if t.stuckFinalized ≠ some s.finalizedBlock then (.ok false,
      ⟨some s.finalizedBlock, some s.headBlock⟩)
    else
      let headProgress := s.headBlock - t.headAtRunStart.getD s.headBlock
      let liveGap := s.headBlock - s.finalizedBlock
      (.ok (headProgress ≥ w.patienceSlots ∧ liveGap > w.maxNormalLagSlots), t)

/-- `verdict`, with the object as it stands afterwards. -/
def verdictWith (w : StallWindows) (t : FinalityStallTracker)
    (pointInTime : CounterClaimFinality)
    (s : FinalitySample) :
    Except PyErr CounterClaimFinality × FinalityStallTracker :=
  if pointInTime.state = .final then (.ok pointInTime, t)
  else match t.observeWith w s with
    | (.error e, t') => (.error e, t')
    | (.ok stalled, t') =>
      (.ok (if stalled then { state := .counterChainNotFinalizing }
        else pointInTime), t')

/-- What observing a taken sample does. -/
theorem observeWith_taken {w : StallWindows} {t : FinalityStallTracker}
    {s : FinalitySample} (h : s.Taken) : t.observeWith w s =
      if t.stuckFinalized ≠ some s.finalizedBlock then (.ok false,
        ⟨some s.finalizedBlock, some s.headBlock⟩)
      else (.ok (s.headBlock - t.headAtRunStart.getD s.headBlock ≥
          w.patienceSlots ∧
        s.headBlock - s.finalizedBlock > w.maxNormalLagSlots), t) := by
  unfold observeWith
  rw [FinalitySample.check_ok.mpr h]

/-- A refused one changes nothing. -/
theorem observeWith_refused {w : StallWindows} {t : FinalityStallTracker}
    {s : FinalitySample} (h : ¬ s.Taken) :
    ∃ e, t.observeWith w s = (.error e, t) := by
  obtain ⟨e, he⟩ := FinalitySample.check_error h
  refine ⟨e, ?_⟩
  unfold observeWith
  rw [he]

/-- With the default windows it is the `observe` of the chain observer. -/
theorem observeWith_default (t : FinalityStallTracker) (s : FinalitySample) :
    (t.observeWith {} s).1.map
      (fun stalled => (stalled, (t.observeWith {} s).2)) =
      t.observe s.headBlock s.finalizedBlock := by
  unfold observe observeWith FinalitySample.check refuseIf invalid
  by_cases hhead : s.headBlock < 0
  · simp [hhead, Except.map, bind, Except.bind]
  by_cases hfinalized : s.finalizedBlock < 0
  · simp [hhead, hfinalized, Except.map, bind, Except.bind]
  by_cases hle : s.finalizedBlock > s.headBlock
  · simp [hhead, hfinalized, hle, Except.map, bind, Except.bind]
  by_cases hstuck : t.stuckFinalized = some s.finalizedBlock
  · simp [hhead, hfinalized, hle, hstuck, Except.map, bind, Except.bind,
      pure, Except.pure]
  · simp [hhead, hfinalized, hle, hstuck, Except.map, bind, Except.bind,
      pure, Except.pure]

end FinalityStallTracker

/-! ## Calls -/

/-- A call on the object. -/
inductive StallCall where
  | observe (s : FinalitySample)
  | verdict (pointInTime : CounterClaimFinality) (s : FinalitySample)

/-- What a call returns or raises. -/
inductive StallReply where
  | raised (e : PyErr)
  | stalled (b : Bool)
  | verdict (v : CounterClaimFinality)
deriving DecidableEq, Repr

namespace StallCall

open FinalityStallTracker

/-- The sample a call takes in: a FINAL verdict looks at none, and a malformed
one is refused. -/
def sample : StallCall → Option FinalitySample
  | .observe s => if s.Taken then some s else none
  | .verdict v s => if v.state ≠ .final ∧ s.Taken then some s else none

def reply (w : StallWindows) (t : FinalityStallTracker) : StallCall → StallReply
  | .observe s => match (t.observeWith w s).1 with
    | .ok b => .stalled b
    | .error e => .raised e
  | .verdict v s => match (t.verdictWith w v s).1 with
    | .ok v' => .verdict v'
    | .error e => .raised e

def after (w : StallWindows) (t : FinalityStallTracker) : StallCall →
    FinalityStallTracker
  | .observe s => (t.observeWith w s).2
  | .verdict v s => (t.verdictWith w v s).2

/-- The object after `calls`. -/
def run (w : StallWindows) (calls : List StallCall) : FinalityStallTracker :=
  calls.foldl (after w) {}

/-- The samples taken in by `calls`. -/
def history (calls : List StallCall) : List FinalitySample :=
  calls.filterMap sample

end StallCall

/-! ## The history rule -/

/-- The first sample of the last run of one finalized block is far enough behind
the head of `s`, and the finalized block is too. -/
def Stalled (w : StallWindows) (past : List FinalitySample)
    (s : FinalitySample) : Prop :=
  ∃ before first rest, LastRun FinalitySample.finalizedBlock (past ++
    [s]) before first rest ∧
    w.patienceSlots ≤ s.headBlock - first.headBlock ∧
      w.maxNormalLagSlots < s.headBlock - s.finalizedBlock

/-- The object keeps the first sample of the last run. -/
def Remembers (t : FinalityStallTracker) (past : List FinalitySample) : Prop :=
  (past = [] ∧ t = {}) ∨ ∃ before first rest,
    LastRun FinalitySample.finalizedBlock past before first rest ∧
    t = ⟨some first.finalizedBlock, some first.headBlock⟩

section History

variable {w : StallWindows} {t : FinalityStallTracker}
  {past : List FinalitySample} {s : FinalitySample}

/-- A sample with a new finalized block begins a run, and no stall is declared
on it. -/
theorem not_stalled_new (hnew : ∀ y ∈ past.getLast?, y.finalizedBlock ≠
      s.finalizedBlock) : ¬ Stalled w past s := by
  rintro ⟨before, first, rest, hrun, hprogress, -⟩
  obtain ⟨-, hfirst, -⟩ := hrun.unique (LastRun.snoc_new hnew)
  have hpatience := w.patience_pos
  rw [hfirst] at hprogress
  omega

/-- Whether the same block is still a stall. -/
theorem stalled_same {before rest : List FinalitySample}
    {first : FinalitySample}
    (hrun : LastRun FinalitySample.finalizedBlock past before first rest)
    (hsame : s.finalizedBlock = first.finalizedBlock) :
    Stalled w past s ↔ w.patienceSlots ≤ s.headBlock - first.headBlock ∧
      w.maxNormalLagSlots < s.headBlock - s.finalizedBlock := by
  constructor
  · rintro ⟨before', first', rest', hrun', hprogress, hlag⟩
    obtain ⟨-, hfirst, -⟩ := hrun'.unique (hrun.snoc_same hsame)
    rw [hfirst] at hprogress
    exact ⟨hprogress, hlag⟩
  · rintro ⟨hprogress, hlag⟩
    exact ⟨_, _, _, hrun.snoc_same hsame, hprogress, hlag⟩

/-- One sample that is taken: the object follows, and it answers by the
history. -/
theorem observeWith_remembers (ht : Remembers t past) (hs : s.Taken) :
    Remembers (t.observeWith w s).2 (past ++ [s]) ∧
      ∃ b, (t.observeWith w s).1 = .ok b ∧ (b = true ↔ Stalled w past s) := by
  rw [FinalityStallTracker.observeWith_taken hs]
  rcases ht with ⟨hpast, ht⟩ | ⟨before, first, rest, hrun, ht⟩
  · subst hpast ht
    rw [if_pos (by simp)]
    exact ⟨.inr ⟨_, _, _, LastRun.snoc_new nofun, rfl⟩, _, rfl, nofun,
      fun h => absurd h (not_stalled_new nofun)⟩
  · subst ht
    by_cases hsame : s.finalizedBlock = first.finalizedBlock
    · rw [if_neg (by simp [hsame])]
      refine ⟨.inr ⟨_, _, _, hrun.snoc_same hsame, rfl⟩, _, rfl, ?_⟩
      rw [decide_eq_true_iff, stalled_same hrun hsame]
      rfl
    · have hnew : ∀ y ∈ past.getLast?, y.finalizedBlock ≠ s.finalizedBlock := by
        intro y hy he
        exact hsame (he.symm.trans (hrun.key_getLast y hy))
      rw [if_pos (by simpa using fun he => hsame he.symm)]
      exact ⟨.inr ⟨_, _, _, LastRun.snoc_new hnew, rfl⟩, _, rfl, nofun,
        fun h => absurd h (not_stalled_new hnew)⟩

end History

/-! ## Runs of calls -/

namespace StallCall

open FinalityStallTracker

section Runs

variable {w : StallWindows} {t : FinalityStallTracker} {calls : List StallCall}
  {c : StallCall} {s : FinalitySample}

/-- The sample of an observation. -/
theorem sample_observe (hs : s.Taken) :
    (StallCall.observe s).sample = some s := if_pos hs

theorem sample_refused (hs : ¬ s.Taken) :
    (StallCall.observe s).sample = none ∧
    ∀ v, (StallCall.verdict v s).sample = none :=
  ⟨if_neg hs, fun _ => if_neg fun h => hs h.2⟩

theorem sample_final {v : CounterClaimFinality} (hv : v.state = .final) :
    (StallCall.verdict v s).sample = none :=
  if_neg fun h => h.1 hv

/-- A call that takes no sample in leaves the object as it is. -/
theorem after_none (h : c.sample = none) : c.after w t = t := by
  cases c with
  | observe s =>
    have hs : ¬ s.Taken := fun hs => by
      rw [sample_observe hs] at h
      cases h
    obtain ⟨e, he⟩ := @observeWith_refused w t s hs
    rw [after, he]
  | verdict v s =>
    rw [after, verdictWith]
    by_cases hv : v.state = .final
    · rw [if_pos hv]
    · have hs : ¬ s.Taken := fun hs => by
        rw [sample, if_pos ⟨hv, hs⟩] at h
        cases h
      obtain ⟨e, he⟩ := @observeWith_refused w t s hs
      rw [if_neg hv, he]

theorem verdictWith_snd (v : CounterClaimFinality) (hv : v.state ≠ .final) :
    (t.verdictWith w v s).2 = (t.observeWith w s).2 := by
  rw [verdictWith, if_neg hv]
  cases ht : t.observeWith w s with
  | mk r t' =>
    cases r with
    | error e => rfl
    | ok b => rfl

/-- What a call with a sample leaves. -/
theorem after_some (h : c.sample = some s) :
    s.Taken ∧ c.after w t = (t.observeWith w s).2 := by
  cases c with
  | observe s' =>
    rw [sample] at h
    split at h
    · next hs =>
      injection h with h
      subst h
      exact ⟨hs, rfl⟩
    · cases h
  | verdict v s' =>
    rw [sample] at h
    split at h
    · next hs =>
      injection h with h
      subst h
      exact ⟨hs.2, verdictWith_snd v hs.1⟩
    · cases h

theorem run_snoc : run w (calls ++ [c]) = c.after w (run w calls) := by
  rw [run, List.foldl_append]
  rfl

/-- **After any calls the object keeps the first sample of the last run** of
those that were taken. -/
theorem run_remembers (w : StallWindows) (calls : List StallCall) :
    Remembers (run w calls) (history calls) := by
  induction calls using List.reverseRecOn with
  | nil => exact .inl ⟨rfl, rfl⟩
  | append_singleton calls c ih =>
    rw [run_snoc, history, List.filterMap_append]
    cases hc : c.sample with
    | none =>
      rw [after_none hc, List.filterMap_cons_none hc, List.filterMap_nil,
        List.append_nil]
      exact ih
    | some s =>
      obtain ⟨hs, hafter⟩ := after_some hc
      rw [hafter, List.filterMap_cons_some hc, List.filterMap_nil]
      exact (observeWith_remembers ih hs).1

/-- What `observe` answers after any calls. -/
theorem reply_observe (w : StallWindows) (calls : List StallCall)
    (hs : s.Taken) :
    ∃ b, (StallCall.observe s).reply w (run w calls) = .stalled b ∧
    (b = true ↔ Stalled w (history calls) s) := by
  obtain ⟨-, b, hb, hiff⟩ :=
    @observeWith_remembers w _ _ _ (run_remembers w calls) hs
  refine ⟨b, ?_, hiff⟩
  rw [reply, hb]

/-- And what the `observe` of the chain observer answers, which has the default
windows. -/
theorem observe_stalled (calls : List StallCall) (hs : s.Taken) :
    ∃ b t, (run {} calls).observe s.headBlock s.finalizedBlock = .ok (b, t) ∧
    (b = true ↔ Stalled {} (history calls) s) := by
  obtain ⟨-, b, hb, hiff⟩ :=
    @observeWith_remembers {} _ _ _ (run_remembers {} calls) hs
  refine ⟨b, ((run {} calls).observeWith {} s).2, ?_, hiff⟩
  rw [← observeWith_default, hb, Except.map]

/-- A refused sample is answered by an error. -/
theorem reply_refused (w : StallWindows) (t : FinalityStallTracker)
    (hs : ¬ s.Taken) : ∃ e, (StallCall.observe s).reply w t = .raised e ∧
    ∀ v : CounterClaimFinality, v.state ≠ .final →
    (StallCall.verdict v s).reply w t = .raised e := by
  obtain ⟨e, he⟩ := @observeWith_refused w t s hs
  refine ⟨e, ?_, fun v hv => ?_⟩
  · rw [reply, he]
  · rw [reply, verdictWith, if_neg hv, he]

/-- A stall that is reported is one of the history. -/
theorem reply_stalled (h : (StallCall.observe s).reply w (run w calls) =
      .stalled true) :
    s.Taken ∧ Stalled w (history calls) s := by
  by_cases hs : s.Taken
  · obtain ⟨b, hb, hiff⟩ := reply_observe w calls hs
    rw [h] at hb
    injection hb with hb
    exact ⟨hs, hiff.mp hb.symm⟩
  · obtain ⟨e, he, -⟩ := reply_refused w (run w calls) hs
    rw [he] at h
    cases h

/-- What `verdict` answers on a verdict that is not final: the stall judgment of
`observe`. -/
theorem reply_verdict (w : StallWindows) (calls : List StallCall)
    (v : CounterClaimFinality) (hv : v.state ≠ .final) (hs : s.Taken) :
    ∃ b, (StallCall.verdict v s).reply w (run w calls) =
        .verdict (if b = true then { state := .counterChainNotFinalizing }
          else v) ∧
      (b = true ↔ Stalled w (history calls) s) := by
  obtain ⟨-, b, hb, hiff⟩ :=
    @observeWith_remembers w _ _ _ (run_remembers w calls) hs
  refine ⟨b, ?_, hiff⟩
  rw [reply, verdictWith, if_neg hv]
  cases ht : (run w calls).observeWith w s with
  | mk r t' =>
    have hr : r = .ok b := by
      rw [ht] at hb
      exact hb
    rw [hr]

end Runs

end StallCall

/-! ## A stall stays declared -/

/-- The finalized block has not moved and the head has not gone back. -/
def Unmoved (s s' : FinalitySample) : Prop :=
  s'.finalizedBlock = s.finalizedBlock ∧ s.headBlock ≤ s'.headBlock

section Unmoved

variable {w : StallWindows} {past more : List FinalitySample}
  {s s' : FinalitySample}

/-- An unmoved sample is taken as well. -/
theorem Unmoved.taken (h : Unmoved s s') (hs : s.Taken) : s'.Taken := by
  obtain ⟨hsame, hle⟩ := h
  obtain ⟨hpos, hhead⟩ := hs
  constructor
  · omega
  · omega

theorem Unmoved.stalled (h : Unmoved s s') (hs : Stalled w past s) :
    Stalled w (past ++ [s]) s' := by
  obtain ⟨before, first, rest, hrun, hprogress, hlag⟩ := hs
  obtain ⟨hsame, hle⟩ := h
  have hfirst : s.finalizedBlock = first.finalizedBlock :=
    hrun.key_getLast s (by simp)
  exact ⟨_, _, _, hrun.snoc_same (hsame.trans hfirst), by omega, by omega⟩

/-- **A declared stall stays declared** over any number of samples. -/
theorem stalled_onward (hs : s.Taken ∧ Stalled w past s)
    (hmore : List.IsChain Unmoved (s :: more ++ [s'])) :
    s'.Taken ∧ Stalled w (past ++ s :: more) s' := by
  induction more generalizing past s with
  | nil =>
    have hnext : Unmoved s s' := (List.isChain_cons_cons.mp hmore).1
    exact ⟨hnext.taken hs.1, hnext.stalled hs.2⟩
  | cons y ys ih =>
    obtain ⟨hnext, hlast⟩ := List.isChain_cons_cons.mp hmore
    have hlater := ih ⟨hnext.taken hs.1, hnext.stalled hs.2⟩ hlast
    rw [List.append_assoc] at hlater
    exact hlater

end Unmoved

/-- **The tracker is the history rule.** After any calls, with any windows:
`observe` answers by the rule; a stall that it declares stays declared while the
finalized block stands and the head does not go back; a refused sample raises
and changes nothing; and `verdict` changes just the live verdicts, just on a
stall. -/
theorem stall_tracker_history (w : StallWindows) (calls : List StallCall) :
    (∀ s : FinalitySample, s.Taken →
      ∃ b, (StallCall.observe s).reply w (StallCall.run w calls) = .stalled b ∧
      (b = true ↔ Stalled w (StallCall.history calls) s)) ∧
    (∀ s s' more, (StallCall.observe s).reply w (StallCall.run w calls) =
      .stalled true →
      List.IsChain Unmoved (s :: StallCall.history more ++ [s']) →
      (StallCall.observe s').reply w (StallCall.run w (calls ++
        .observe s :: more)) = .stalled true) ∧
    (∀ s : FinalitySample, ¬ s.Taken → ∀ c, c = StallCall.observe s ∨
      (∃ v, c = .verdict v s ∧ v.state ≠ .final) →
      (∃ e, c.reply w (StallCall.run w calls) = .raised e) ∧
        StallCall.run w (calls ++ [c]) = StallCall.run w calls) ∧
    (∀ v s, v.state = .final →
      (StallCall.verdict v s).reply w (StallCall.run w calls) = .verdict v ∧
      StallCall.run w (calls ++ [.verdict v s]) = StallCall.run w calls) ∧
    (∀ v s, v.state ≠ .final → s.Taken →
      StallCall.run w (calls ++ [.verdict v s]) =
        StallCall.run w (calls ++ [.observe s]) ∧
      ∃ v', (StallCall.verdict v s).reply w (StallCall.run w calls) =
        .verdict v' ∧
        (¬ Stalled w (StallCall.history calls) s → v' = v) ∧
        (v'.state ≠ v.state ↔ v.state = .notYetFinalLive ∧
          Stalled w (StallCall.history calls) s) ∧
        (v'.state ≠ v.state → v'.state = .counterChainNotFinalizing)) := by
  refine ⟨fun s hs => StallCall.reply_observe w calls hs, ?_, ?_, ?_, ?_⟩
  -- a stall that was declared stays one while the block does not move
  · intro s s' more hdeclared hmore
    have hs := StallCall.reply_stalled hdeclared
    obtain ⟨hs', hstalled⟩ := stalled_onward hs hmore
    have hhistory : StallCall.history (calls ++ .observe s :: more) =
        StallCall.history calls ++ s :: StallCall.history more := by
      rw [StallCall.history, List.filterMap_append,
        List.filterMap_cons_some (StallCall.sample_observe hs.1)]
      rfl
    obtain ⟨b, hb, hiff⟩ :=
      StallCall.reply_observe w (calls ++ .observe s :: more) hs'
    rw [hhistory] at hiff
    rw [hb, hiff.mpr hstalled]
  -- a sample that is refused leaves no trace in the history
  · intro s hs c hc
    obtain ⟨e, hobserve, hverdict⟩ :=
      StallCall.reply_refused w (StallCall.run w calls) hs
    rcases hc with hc | ⟨v, hc, hv⟩
    · rw [hc]
      exact ⟨⟨e, hobserve⟩, by rw [StallCall.run_snoc,
        StallCall.after_none (StallCall.sample_refused hs).1]⟩
    · rw [hc]
      refine ⟨⟨e, hverdict v hv⟩, ?_⟩
      rw [StallCall.run_snoc,
        StallCall.after_none ((StallCall.sample_refused hs).2 v)]
  · intro v s hv
    refine ⟨?_, ?_⟩
    · rw [StallCall.reply, FinalityStallTracker.verdictWith, if_pos hv]
    · rw [StallCall.run_snoc, StallCall.after_none (StallCall.sample_final hv)]
  -- a verdict observes first and is overruled only when that says stalled
  · intro v s hv hs
    refine ⟨?_, ?_⟩
    · rw [StallCall.run_snoc, StallCall.run_snoc]
      exact StallCall.verdictWith_snd v hv
    · obtain ⟨b, hb, hiff⟩ := StallCall.reply_verdict w calls v hv hs
      refine ⟨_, hb, ?_⟩
      rw [← hiff]
      cases b with
      | false => exact ⟨fun _ => rfl, by simp, by simp⟩
      | true =>
        refine ⟨fun h => absurd rfl h, ?_, fun _ => rfl⟩
        cases hstate : v.state with
        | final => exact absurd hstate hv
        | notYetFinalLive => simp
        | counterChainNotFinalizing => simp

end Pyrxd.Watch
