import Pyrxd.Lib.OrderedMap
import Pyrxd.Watch.Decide

/-!
# Pages and acknowledgements

`DedupAlerter` of `gravity/watch/alerts.py`, over any sequence of `handle`
calls, acknowledgements and failures of the channel.

The alerter keeps three maps; what it should do is a matter of the history: of
the run of calls, with one intent, that a swap is in (`current`). A call is due
a page if the run has had none, and a critical run that nobody acknowledged is
due another after every so many calls (`Due`). The maps stand for the run as
long as no acknowledgement of an earlier run survives into one with the same
intent, and no failed send hides that the intent changed (`Clear`); then every
call is answered as it should be (`alerter_lawful`).
-/

namespace Pyrxd.Watch

open Pyrxd.Lib

/-! ## The alerter -/

inductive Severity where
  | info
  | warn
  | critical
deriving DecidableEq, Repr

/-- `severity.value.upper()`. -/
def Severity.upper : Severity → String
  | info => "INFO"
  | warn => "WARN"
  | critical => "CRITICAL"

/-- `_SEVERITY.get`. -/
def severity : Intent → Option Severity
  | .pageClaim => some .critical
  | .pageSqueezed => some .critical
  | .pageRefund => some .warn
  | .retire => some .info
  | .watch | .noop => none

structure Page where
  swapId : String
  intent : Option Intent
  severity : Severity
  message : String
  recommendedAction : Option String
  deadlineRxdHeight : Option Int
  lowCorroboration : Bool
deriving DecidableEq

/-- `_message`. -/
def pageMessage (swapId : String) (d : Decision) (sev : Severity) : String :=
  let action := d.recommendedAction.getD ""
  " | ".intercalate (["[" ++ sev.upper ++ "] swap " ++ swapId ++
    ": " ++ d.reason] ++
    (if action ≠ "" then ["action: " ++ action] else []) ++
    (d.deadlineRxdHeight.map fun h => "by RXD height " ++ toString h).toList ++
    (if d.lowCorroboration then ["(LOW CORROBORATION — single-source RXD read; verify before acting)"]
      else []))

/-- The page of a decision. -/
def pageOf (swapId : String) (d : Decision) (sev : Severity) : Page where
  swapId := swapId
  intent := some d.intent
  severity := sev
  message := pageMessage swapId d sev
  recommendedAction := d.recommendedAction
  deadlineRxdHeight := d.deadlineRxdHeight
  lowCorroboration := d.lowCorroboration

structure DedupAlerter where
  last : OrderedMap String Intent
  criticalTicks : OrderedMap String Nat
  acked : OrderedMap String Intent
  repageEvery : Int
  ofRepageEvery : 1 ≤ repageEvery

namespace DedupAlerter

/-- `DedupAlerter(repage_critical_every_ticks=...)`. -/
def new (repageCriticalEveryTicks : Int) : Except PyErr DedupAlerter :=
  if h : repageCriticalEveryTicks <
    1 then invalid "repage_critical_every_ticks must be an int >= 1"
  else .ok ⟨.empty, .empty, .empty, repageCriticalEveryTicks, Int.not_lt.mp h⟩

/-- `ack`. -/
def ack (a : DedupAlerter) (swapId : String) : Bool × DedupAlerter :=
  match a.last.get? swapId with
  | none => (false, a)
  | some intent =>
    if severity intent = some .critical then (true,
      { a with acked := a.acked.set swapId intent }) else (false, a)

/-- `unacked_critical_count`. -/
def unackedCriticalCount (a : DedupAlerter) : Nat :=
  (a.last.entries.filter fun p => severity p.2 = some .critical ∧
    a.acked.get? p.1 ≠ some p.2).length

/-- The end of `handle`: the send, and what is recorded if it succeeds. -/
def page (a : DedupAlerter) (swapId : String) (d : Decision)
    (sev : Severity) (send : Page → Except PyErr Unit) :
    Except PyErr (Option Page) × DedupAlerter :=
  match send (pageOf swapId d sev) with
  | .error e => (.error e, a)
  | .ok () => (.ok (some (pageOf swapId d sev)),
      { a with last := a.last.set swapId d.intent, criticalTicks := a.criticalTicks.set swapId 0 })

/-- `handle`: the page it sent, if any, or what the channel raised, and the
alerter afterwards. -/
def handle (a : DedupAlerter) (swapId : String) (d : Decision)
    (send : Page → Except PyErr Unit) :
    Except PyErr (Option Page) × DedupAlerter :=
  match severity d.intent with
  | none => (.ok none, a)
  | some sev =>
    let a := if d.intent = .retire then
      { a with criticalTicks := a.criticalTicks.erase swapId, acked := a.acked.erase swapId } else a
    if a.last.get? swapId = some d.intent then
      if sev ≠ .critical then (.ok none, a)
      else if a.acked.get? swapId = some d.intent then (.ok none, a)
      else
        let ticks := (a.criticalTicks.get? swapId).getD 0 + 1
        let a := { a with criticalTicks := a.criticalTicks.set swapId ticks }
        if (ticks : Int) < a.repageEvery then (.ok none, a)
          else a.page swapId d sev send
    else a.page swapId d sev send

end DedupAlerter

/-! ## Histories -/

/-- A call, with what the channel does if something is sent. -/
inductive AlertEvent where
  | handle (swapId : String) (decision : Decision) (channel : Except PyErr Unit)
  | ack (swapId : String)

/-- What is seen of a call from outside: of `handle`, whether it sent and
whether that was delivered. -/
inductive AlertEntry where
  | handled (swapId : String) (intent : Intent) (sent : Option Bool)
  | acked (swapId : String)
deriving DecidableEq

/-- Whether something was sent, and with what success. -/
def sentOf : Except PyErr (Option Page) → Option Bool
  | .ok none => none
  | .ok (some _) => some true
  | .error _ => some false

/-- An alerter and what was seen of it so far. -/
structure AlertSession where
  alerter : DedupAlerter
  trace : List AlertEntry

def AlertSession.step (s : AlertSession) : AlertEvent → AlertSession
  | .handle swapId d channel =>
    let r := s.alerter.handle swapId d fun _ => channel
    ⟨r.2, s.trace ++ [.handled swapId d.intent (sentOf r.1)]⟩
  | .ack swapId => ⟨(s.alerter.ack swapId).2, s.trace ++ [.acked swapId]⟩

def AlertSession.run (s : AlertSession) (events : List AlertEvent) :
    AlertSession := events.foldl step s

/-- The run of calls that a swap is in: their intent, how often it was
delivered, how many calls there were since the last time, and whether the
delivered page was acknowledged. -/
structure AlertRun where
  intent : Intent
  deliveries : Nat
  since : Nat
  acked : Bool
deriving DecidableEq

/-- One more call: of the same run, or the first of another. -/
def AlertRun.call (cur : Option AlertRun) (intent : Intent)
    (sent : Option Bool) : AlertRun :=
  let r := match cur with
    | some r => if r.intent = intent then r else ⟨intent, 0, 0, false⟩
    | none => ⟨intent, 0, 0, false⟩
  if sent = some true then { r with deliveries := r.deliveries + 1, since := 0 }
    else { r with since := r.since + 1 }

/-- An acknowledgement counts for a critical page that was delivered. -/
def AlertRun.ack (r : AlertRun) : AlertRun :=
  if severity r.intent = some .critical ∧
    0 < r.deliveries then { r with acked := true } else r

def currentStep (swapId : String) (cur : Option AlertRun) : AlertEntry →
    Option AlertRun
  | .handled id intent sent =>
    if id = swapId ∧ (severity intent).isSome then some
      (AlertRun.call cur intent sent) else cur
  | .acked id => if id = swapId then cur.map AlertRun.ack else cur

/-- The run that a swap is in after a history. -/
def current (swapId : String) (trace : List AlertEntry) : Option AlertRun :=
  trace.foldl (currentStep swapId) none

/-- A call is due a page: the run has had none, or it is critical, not
acknowledged, and had none for so many calls. -/
def Due (every : Int) (cur : Option AlertRun) (intent : Intent) : Prop :=
  ∀ r, cur = some r → r.intent = intent →
    r.deliveries = 0 ∨ (severity intent = some .critical ∧ r.acked = false ∧
      every ≤ r.since + 1)

/-- A call sends something exactly if a page is due. -/
def CallAnswered (every : Int) (before : List AlertEntry) : AlertEntry → Prop
  | .handled swapId intent sent =>
    sent ≠ none ↔ (severity intent).isSome ∧
      Due every (current swapId before) intent
  | .acked _ => True

/-- A critical page that was delivered and not acknowledged. -/
def AlertRun.Outstanding (r : AlertRun) : Prop :=
  severity r.intent = some .critical ∧ 0 < r.deliveries ∧ r.acked = false

/-- What should hold after any history. -/
structure AlertSession.Lawful (every : Int) (s : AlertSession) : Prop where
  answered : ∀ before e behind, s.trace = before ++ e :: behind →
    CallAnswered every before e
  once : ∀ swapId r, current swapId s.trace = some r →
    severity r.intent ≠ some .critical → r.deliveries ≤ 1
  counts : ∃ swaps : List String, swaps.Nodup ∧
    (∀ swapId, swapId ∈ swaps ↔ ∃ r, current swapId s.trace = some r ∧
      r.Outstanding) ∧ s.alerter.unackedCriticalCount = swaps.length

/-- A step that the three maps survive. Where the intent changes, the last one
delivered is another; if the send fails there, no delivered critical page is
left open. And no page goes out under an acknowledgement of its intent. -/
def AlertSession.Clear (s : AlertSession) : AlertEvent → Prop
  | .handle swapId d channel => (severity d.intent).isSome →
    ((current swapId s.trace).map (·.intent) ≠ some d.intent →
      s.alerter.last.get? swapId ≠ some d.intent ∧
      (channel.isOk = false → ∀ c, s.alerter.last.get? swapId = some c →
        severity c = some .critical → s.alerter.acked.get? swapId = some c ∧
        d.intent ≠ .retire)) ∧
    (channel.isOk = true → s.alerter.last.get? swapId ≠ some d.intent →
      s.alerter.acked.get? swapId ≠ some d.intent)
  | .ack _ => True

instance (s : AlertSession) : (e : AlertEvent) → Decidable (s.Clear e)
  | .handle swapId d channel =>
    inferInstanceAs (Decidable ((severity d.intent).isSome →
    ((current swapId s.trace).map (·.intent) ≠ some d.intent →
      s.alerter.last.get? swapId ≠ some d.intent ∧
      (channel.isOk = false →
        ∀ c ∈ s.alerter.last.get? swapId, severity c = some .critical →
        s.alerter.acked.get? swapId = some c ∧ d.intent ≠ .retire)) ∧
    (channel.isOk = true → s.alerter.last.get? swapId ≠ some d.intent →
      s.alerter.acked.get? swapId ≠ some d.intent)))
  | .ack _ => isTrue trivial

/-- A history of such steps. -/
def AlertSession.Clears : AlertSession → List AlertEvent → Prop
  | _, [] => True
  | s, e :: events => s.Clear e ∧ (s.step e).Clears events

instance decidableClears : (events : List AlertEvent) → (s : AlertSession) →
    Decidable (s.Clears events)
  | [], _ => isTrue trivial
  | e :: events, s =>
    have := decidableClears events (s.step e)
    inferInstanceAs (Decidable (s.Clear e ∧ (s.step e).Clears events))

/-! ## One swap -/

/-- What the maps hold of one swap. -/
structure AlertSlot where
  last : Option Intent
  ticks : Nat
  acked : Option Intent

def DedupAlerter.slot (a : DedupAlerter) (swapId : String) : AlertSlot :=
  ⟨a.last.get? swapId, (a.criticalTicks.get? swapId).getD 0,
    a.acked.get? swapId⟩

/-- `handle`, of one swap. -/
def AlertSlot.handle (every : Int) (intent : Intent) (delivers : Bool)
    (s : AlertSlot) : Option Bool × AlertSlot :=
  match severity intent with
  | none => (none, s)
  | some sev =>
    let s := if intent = .retire then { s with ticks := 0, acked := none }
      else s
    let paged (s : AlertSlot) : Option Bool × AlertSlot :=
      if delivers then (some true, { s with last := some intent, ticks := 0 })
        else (some false, s)
    if s.last = some intent then
      if sev ≠ .critical then (none, s)
      else if s.acked = some intent then (none, s)
      else if ((s.ticks + 1 : Nat) : Int) < every then (none,
        { s with ticks := s.ticks + 1 })
      else paged { s with ticks := s.ticks + 1 }
    else paged s

/-- `ack`, of one swap. -/
def AlertSlot.ack (s : AlertSlot) : AlertSlot :=
  match s.last with
  | none => s
  | some intent =>
    if severity intent = some .critical then { s with acked := some intent }
      else s

namespace DedupAlerter

variable {a : DedupAlerter} {swapId : String} {d : Decision} {sev : Severity}
  {channel : Except PyErr Unit}

/-- What one page does to its slot, channel by channel. -/
theorem slot_page : sentOf (a.page swapId d sev fun _ => channel).1 = some channel.isOk ∧
    (a.page swapId d sev fun _ => channel).2.slot swapId =
      (if channel.isOk then { a.slot swapId with last := some d.intent, ticks := 0 } else a.slot swapId) ∧
    (∀ other, other ≠ swapId → (a.page swapId d sev fun _ => channel).2.slot other = a.slot other) ∧
    (a.page swapId d sev fun _ => channel).2.repageEvery = a.repageEvery := by
  rw [page]
  cases channel with
  | error e => exact ⟨rfl, rfl, fun _ _ => rfl, rfl⟩
  | ok u =>
    refine ⟨rfl, ?_, ?_, rfl⟩
    · show AlertSlot.mk _ _ _ = AlertSlot.mk _ _ _
      simp only [OrderedMap.get?_set, if_true, Option.getD_some, slot]
    · intro other hother
      simp only [slot, OrderedMap.get?_set, if_neg hother]

/-- The map of ticks, changed for one swap. -/
theorem slot_ticks (n : Nat) (other : String) :
    ({ a with criticalTicks := a.criticalTicks.set swapId n } :
      DedupAlerter).slot other =
      if other = swapId then { a.slot swapId with ticks := n }
        else a.slot other := by
  by_cases hother : other = swapId
  · subst hother
    simp only [slot, OrderedMap.get?_set, if_true, Option.getD_some]
  · simp only [slot, OrderedMap.get?_set, if_neg hother]

/-- What a retirement forgets. -/
theorem slot_erase (other : String) :
    ({ a with criticalTicks := a.criticalTicks.erase swapId, acked := a.acked.erase swapId } :
      DedupAlerter).slot other =
      if other = swapId then { a.slot swapId with ticks := 0, acked := none } else a.slot other := by
  by_cases hother : other = swapId
  · subst hother
    simp only [slot, OrderedMap.get?_erase, if_true, Option.getD_none]
  · simp only [slot, OrderedMap.get?_erase, if_neg hother]

/-- **`handle` works on one swap's part of the maps**, and on nothing else. -/
theorem slot_handle (a : DedupAlerter) (swapId : String) (d : Decision) (channel : Except PyErr Unit) :
    (sentOf (a.handle swapId d fun _ => channel).1, (a.handle swapId d fun _ => channel).2.slot swapId) =
      (a.slot swapId).handle a.repageEvery d.intent channel.isOk ∧
    (∀ other, other ≠ swapId → (a.handle swapId d fun _ => channel).2.slot other = a.slot other) ∧
    (a.handle swapId d fun _ => channel).2.repageEvery = a.repageEvery := by
  rw [handle, AlertSlot.handle]
  cases hsev : severity d.intent with
  | none => exact ⟨rfl, fun _ _ => rfl, rfl⟩
  | some sev =>
    dsimp only
    -- a RETIRE wipes the slot before anything else is decided
    generalize hb : (if d.intent = .retire then
      { a with criticalTicks := a.criticalTicks.erase swapId, acked := a.acked.erase swapId } else a) = b
    have hslot : b.slot swapId = if d.intent = .retire then { a.slot swapId with ticks := 0, acked := none }
        else a.slot swapId := by
      rw [← hb]
      split
      · rw [slot_erase, if_pos rfl]
      · rfl
    have hother : ∀ other, other ≠ swapId → b.slot other = a.slot other := by
      intro other hne
      rw [← hb]
      split
      · rw [slot_erase, if_neg hne]
      · rfl
    have hevery : b.repageEvery = a.repageEvery := by
      rw [← hb]
      split <;> rfl
    have hlast : (b.slot swapId).last = b.last.get? swapId := rfl
    have hacked : (b.slot swapId).acked = b.acked.get? swapId := rfl
    have hticks : (b.slot swapId).ticks =
        (b.criticalTicks.get? swapId).getD 0 := rfl
    rw [← hslot, hlast, hacked, hticks]
    -- the same intent again: only a critical one that is not acknowledged
    -- counts on
    by_cases h1 : b.last.get? swapId = some d.intent
    · rw [if_pos h1, if_pos h1]
      by_cases h2 : sev ≠ .critical
      · rw [if_pos h2, if_pos h2]
        exact ⟨rfl, hother, hevery⟩
      rw [if_neg h2, if_neg h2]
      by_cases h3 : b.acked.get? swapId = some d.intent
      · rw [if_pos h3, if_pos h3]
        exact ⟨rfl, hother, hevery⟩
      rw [if_neg h3, if_neg h3, ← hevery]
      obtain ⟨c, hc⟩ : ∃ c : DedupAlerter, c = { b with
        criticalTicks := b.criticalTicks.set swapId ((b.criticalTicks.get? swapId).getD 0 + 1) } := ⟨_, rfl⟩
      have hcslot : c.slot swapId = { b.slot swapId with ticks := (b.criticalTicks.get? swapId).getD 0 + 1 } := by
        rw [hc, slot_ticks, if_pos rfl]
      have hcother : ∀ other, other ≠ swapId → c.slot other = a.slot other := by
        intro other hne
        rw [hc, slot_ticks, if_neg hne, hother other hne]
      have hcevery : c.repageEvery = b.repageEvery := by
        rw [hc]
      by_cases hlt : (((b.criticalTicks.get? swapId).getD 0 + 1 : Nat) : Int) <
        b.repageEvery
      · rw [if_pos hlt, if_pos hlt, ← hc]
        exact ⟨by rw [hcslot]; rfl, hcother, hcevery⟩
      · rw [if_neg hlt, if_neg hlt, ← hc]
        obtain ⟨hsent, hpaged, hrest, hsame⟩ :=
          @slot_page c swapId d sev channel
        refine ⟨?_, fun other hne =>
          (hrest other hne).trans (hcother other hne), hsame.trans hcevery⟩
        rw [hsent, hpaged, hcslot]
        cases channel.isOk <;> rfl
    · rw [if_neg h1, if_neg h1]
      obtain ⟨hsent, hpaged, hrest, hsame⟩ := @slot_page b swapId d sev channel
      refine ⟨?_, fun other hne => (hrest other hne).trans (hother other hne),
        hsame.trans hevery⟩
      rw [hsent, hpaged]
      cases channel.isOk <;> rfl

/-- The same of `ack`. -/
theorem slot_ack (a : DedupAlerter) (swapId : String) :
    (a.ack swapId).2.slot swapId = (a.slot swapId).ack ∧
    (∀ other, other ≠ swapId → (a.ack swapId).2.slot other = a.slot other) ∧
    (a.ack swapId).2.repageEvery = a.repageEvery := by
  rw [ack, AlertSlot.ack]
  have hslot : (a.slot swapId).last = a.last.get? swapId := rfl
  rw [hslot]
  cases hlast : a.last.get? swapId with
  | none => exact ⟨rfl, fun _ _ => rfl, rfl⟩
  | some intent =>
    dsimp only
    split
    · refine ⟨?_, fun other hother => ?_, rfl⟩
      · simp only [slot, OrderedMap.get?_set, if_true, hlast]
      · simp only [slot, OrderedMap.get?_set, if_neg hother]
    · exact ⟨rfl, fun _ _ => rfl, rfl⟩

end DedupAlerter

/-! ## The maps stand for the run -/

/-- What the maps hold of a swap says which run it is in. -/
structure Tracks (s : AlertSlot) (r : AlertRun) : Prop where
  last : 0 < r.deliveries → s.last = some r.intent
  fresh : r.deliveries = 0 → s.last ≠ some r.intent ∧ r.acked = false ∧
    ∀ c, s.last = some c → severity c = some .critical →
      s.acked = some c ∧ r.intent ≠ .retire
  acked : 0 < r.deliveries → severity r.intent = some .critical →
    (r.acked = true ↔ s.acked = some r.intent)
  ticks : 0 < r.deliveries → severity r.intent = some .critical →
    r.acked = false → s.ticks = r.since
  once : severity r.intent ≠ some .critical → r.deliveries ≤ 1

/-- The same, before the first run too. -/
def Stands (s : AlertSlot) : Option AlertRun → Prop
  | none => s.last = none
  | some r => Tracks s r

section OneSwap

variable {s : AlertSlot} {cur : Option AlertRun} {intent : Intent}
  {sev : Severity} {every : Int} {delivers : Bool}

/-- The first delivery of a run. -/
theorem tracks_delivered {acked : Option Intent}
    (h : severity intent = some .critical → acked ≠ some intent) :
    Tracks ⟨some intent, 0, acked⟩ ⟨intent, 1, 0, false⟩ where
  last _ := rfl
  fresh h0 := absurd h0 (Nat.succ_ne_zero 0)
  acked _ hcrit := ⟨nofun, fun heq => absurd heq (h hcrit)⟩
  ticks _ _ _ := rfl
  once _ := Nat.le_refl 1

/-- **A call that opens a run**, or goes on with one that had no delivery
yet. -/
theorem handle_fresh {r : AlertRun} (hsev : severity intent = some sev)
    (hr : r.intent = intent) (h0 : r.deliveries = 0) (hacked : r.acked = false)
    (hlast : s.last ≠ some intent)
    (hopen : delivers = false → ∀ c, s.last = some c →
      severity c = some .critical →
      s.acked = some c ∧ intent ≠ .retire)
    (hstale : delivers = true → s.acked ≠ some intent) :
    ∃ s', s.handle every intent delivers = (some delivers, s') ∧
      Tracks s'
        (if delivers then { r with deliveries := r.deliveries + 1, since := 0 }
        else { r with since := r.since + 1 }) := by
  rw [AlertSlot.handle, hsev]
  dsimp only
  have hsame : (if intent = .retire then { s with ticks := 0, acked := none }
      else s).last = s.last := by
    split <;> rfl
  rw [hsame, if_neg hlast]
  cases delivers with
  | true =>
    refine ⟨_, rfl, ?_⟩
    obtain ⟨ri, rd, rs, ra⟩ := r
    dsimp only at hr h0 hacked
    subst hr h0 hacked
    refine @tracks_delivered ri _ ?_
    intro hcrit
    have hne : ri ≠ .retire := by
      rintro rfl
      cases hcrit
    rw [if_neg hne]
    exact hstale rfl
  | false =>
    refine ⟨_, rfl, ?_⟩
    have hdel : ∀ {P : Prop}, 0 < r.deliveries → P :=
      fun hpos => absurd hpos (by omega)
    have honce : ({ r with since := r.since + 1 } : AlertRun).deliveries ≤
        1 := by
      show r.deliveries ≤ 1
      omega
    refine ⟨hdel, fun _ => ⟨?_, hacked, ?_⟩, hdel, hdel, fun _ => honce⟩
    · show (if intent = .retire then { s with ticks := 0, acked := none }
        else s).last ≠ some r.intent
      rw [hsame, hr]
      exact hlast
    · intro c hc hcrit
      have hc' : s.last = some c := hsame.symm.trans hc
      obtain ⟨hs, hne⟩ := hopen rfl c hc' hcrit
      rw [if_neg hne]
      exact ⟨hs, hr ▸ hne⟩

/-- **A call of a run that had a delivery.** -/
theorem handle_again {r : AlertRun} (hsev : severity intent = some sev)
    (hr : r.intent = intent) (hpos : 0 < r.deliveries) (h : Tracks s r) :
    ∃ sent s', s.handle every intent delivers = (sent, s') ∧
      (sent ≠ none ↔ sev = .critical ∧ r.acked = false ∧ every ≤ r.since + 1) ∧
      Tracks s' (if sent =
        some true then { r with deliveries := r.deliveries + 1, since := 0 }
        else { r with since := r.since + 1 }) := by
  obtain ⟨ri, rd, rs, ra⟩ := r
  dsimp only at hr hpos
  subst hr
  have hlast : s.last = some ri := h.last hpos
  have hsame : (if ri = .retire then { s with ticks := 0, acked := none }
      else s).last = some ri := by
    split <;> exact hlast
  have h0 : ∀ {P : Prop}, rd = 0 → P := fun hz => absurd hz (by omega)
  rw [AlertSlot.handle, hsev]
  dsimp only
  rw [if_pos hsame]
  -- only a critical intent is paged again
  by_cases hcrit : sev = .critical
  · subst hcrit
    -- a RETIRE is not critical, so the slot was not wiped
    have hne : ri ≠ .retire := by
      rintro rfl
      cases hsev
    rw [if_neg hne, if_neg (not_not.mpr rfl)]
    have hack := h.acked hpos hsev
    cases ra with
    | true =>
      rw [if_pos (hack.mp rfl)]
      refine ⟨none, s, rfl,
        ⟨fun hn => absurd rfl hn, fun hd => by cases hd.2.1⟩, ?_⟩
      rw [if_neg (Option.some_ne_none true).symm]
      exact ⟨fun _ => hlast, h0, fun _ _ => hack, fun _ _ hf => (nomatch hf),
        fun hn => absurd hsev hn⟩
    | false =>
      have hna : s.acked ≠ some ri := fun heq => by cases hack.mpr heq
      have hticks : s.ticks = rs := h.ticks hpos hsev rfl
      rw [if_neg hna, hticks]
      by_cases hlt : ((rs + 1 : Nat) : Int) < every
      · rw [if_pos hlt]
        refine ⟨none, _, rfl, ⟨fun hn => absurd rfl hn,
          fun hd => absurd hd.2.2 (by push_cast at hlt; omega)⟩, ?_⟩
        rw [if_neg (Option.some_ne_none true).symm]
        exact ⟨fun _ => hlast, h0, fun _ _ => hack, fun _ _ _ => rfl,
          fun hn => absurd hsev hn⟩
      · rw [if_neg hlt]
        have hdue : Severity.critical = .critical ∧ false = false ∧
            every ≤ rs + 1 :=
          ⟨rfl, rfl, by push_cast at hlt; omega⟩
        cases delivers with
        | true =>
          refine ⟨some true, _, rfl, ⟨fun _ => hdue, fun _ => nofun⟩, ?_⟩
          rw [if_pos rfl]
          exact ⟨fun _ => rfl, fun hz => absurd hz (Nat.succ_ne_zero _),
            fun _ _ => hack, fun _ _ _ => rfl,
            fun hn => absurd hsev hn⟩
        | false =>
          refine ⟨some false, _, rfl, ⟨fun _ => hdue, fun _ => nofun⟩, ?_⟩
          rw [if_neg (by decide)]
          exact ⟨fun _ => hlast, h0, fun _ _ => hack, fun _ _ _ => rfl,
            fun hn => absurd hsev hn⟩
  · have hnone : severity ri ≠ some .critical := by
      rw [hsev]
      exact fun heq => hcrit (Option.some.inj heq)
    rw [if_pos hcrit]
    refine ⟨none, _, rfl, ⟨fun hn => absurd rfl hn,
      fun hd => absurd hd.1 hcrit⟩, ?_⟩
    rw [if_neg (Option.some_ne_none true).symm]
    exact ⟨fun _ => hsame, h0, fun _ hc => absurd hc hnone,
      fun _ hc => absurd hc hnone, fun _ => h.once hnone⟩

/-- **One call of `handle`**: it sends exactly if a page is due, and the maps
stand for the run it leaves. -/
theorem handle_stands (hsev : severity intent = some sev) (h : Stands s cur)
    (hnew : cur.map (·.intent) ≠ some intent → s.last ≠ some intent ∧
      (delivers = false → ∀ c, s.last = some c → severity c = some .critical →
        s.acked = some c ∧ intent ≠ .retire))
    (hstale : delivers = true → s.last ≠ some intent → s.acked ≠ some intent) :
    ∃ sent s', s.handle every intent delivers = (sent, s') ∧
    (sent ≠ none ↔ Due every cur intent) ∧
      Stands s' (some (AlertRun.call cur intent sent)) := by
  by_cases hsame : cur.map (·.intent) = some intent
  · obtain ⟨r, rfl, hr⟩ := Option.map_eq_some_iff.mp hsame
    have htracks : Tracks s r := h
    rcases Nat.eq_zero_or_pos r.deliveries with h0 | hpos
    · -- not delivered so far: this call sends
      obtain ⟨hlast, hacked, hopen⟩ := htracks.fresh h0
      rw [hr] at hlast hopen
      obtain ⟨s', hcall, ht⟩ := @handle_fresh s intent sev every delivers r hsev
        hr h0 hacked hlast (fun _ => hopen) (fun hd => hstale hd hlast)
      refine ⟨_, s', hcall, ⟨fun _ r' hr' _ => ?_, fun _ => nofun⟩, ?_⟩
      · cases hr'
        exact .inl h0
      · rw [AlertRun.call, if_pos hr]
        cases delivers <;> exact ht
    · obtain ⟨sent, s', hcall, hdue, ht⟩ :=
        @handle_again s intent sev every delivers r hsev hr hpos htracks
      refine ⟨sent, s', hcall, hdue.trans ⟨fun hd r' hr' _ => ?_,
        fun hd => ?_⟩, ?_⟩
      · cases hr'
        exact .inr ⟨hsev.trans (congrArg some hd.1), hd.2⟩
      · rcases hd r rfl hr with h0 | hd
        · omega
        · exact ⟨Option.some.inj (hsev.symm.trans hd.1), hd.2⟩
      · rw [AlertRun.call, if_pos hr]
        exact ht
  · -- the first call of a run
    obtain ⟨hlast, hopen⟩ := hnew hsame
    obtain ⟨s', hcall, ht⟩ := @handle_fresh s intent sev every delivers ⟨intent,
      0, 0, false⟩ hsev rfl rfl rfl hlast hopen (fun hd => hstale hd hlast)
    refine ⟨_, s', hcall, ⟨fun _ r hr hri => ?_, fun _ => nofun⟩, ?_⟩
    · rw [hr] at hsame
      exact absurd (congrArg some hri) hsame
    · cases cur with
      | none =>
        rw [AlertRun.call]
        cases delivers <;> exact ht
      | some r =>
        rw [AlertRun.call, if_neg fun hri => hsame (congrArg some hri)]
        cases delivers <;> exact ht

/-- **An acknowledgement.** -/
theorem ack_stands (h : Stands s cur) :
    Stands s.ack (cur.map AlertRun.ack) := by
  rw [AlertSlot.ack]
  cases cur with
  | none =>
    have hlast : s.last = none := h
    rw [hlast]
    exact hlast
  | some r =>
    have ht : Tracks s r := h
    rw [Option.map_some, AlertRun.ack]
    by_cases hcount : severity r.intent = some .critical ∧ 0 < r.deliveries
    · obtain ⟨hcrit, hpos⟩ := hcount
      rw [if_pos ⟨hcrit, hpos⟩, ht.last hpos]
      dsimp only
      rw [if_pos hcrit]
      exact ⟨fun _ => rfl, fun hz => absurd hz hpos.ne',
        fun _ _ => ⟨fun _ => rfl, fun _ => rfl⟩,
        fun _ _ hf => (nomatch hf), fun hn => absurd hcrit hn⟩
    · rw [if_neg hcount]
      cases hlast : s.last with
      | none => exact ht
      | some c =>
        dsimp only
        split
        · next hc =>
          -- only an acknowledged page of an earlier run is critical here
          rcases Nat.eq_zero_or_pos r.deliveries with h0 | hpos
          · have hacked := ((ht.fresh h0).2.2 c hlast hc).1
            have hsame : (⟨some c, s.ticks, some c⟩ : AlertSlot) = s := by
              cases s
              exact congrArg₂ (AlertSlot.mk · _ ·) hlast.symm hacked.symm
            rw [hsame]
            exact ht
          · have := ht.last hpos
            rw [hlast, Option.some.injEq] at this
            exact absurd ⟨this ▸ hc, hpos⟩ hcount
        · exact ht

end OneSwap

/-! ## All swaps -/

/-- The history's current page, one entry on. -/
theorem current_concat (swapId : String) (trace : List AlertEntry)
    (e : AlertEntry) :
    current swapId (trace ++ [e]) = currentStep swapId
      (current swapId trace) e := by
  rw [current, List.foldl_append]
  rfl

/-- The invariant of a history: the maps stand for the runs, and every call so
far was answered. -/
structure AlertSession.Kept (every : Int) (s : AlertSession) : Prop where
  same : s.alerter.repageEvery = every
  stands : ∀ swapId, Stands (s.alerter.slot swapId) (current swapId s.trace)
  answered : ∀ before e behind, s.trace = before ++ e :: behind →
    CallAnswered every before e

namespace AlertSession

variable {every : Int} {s : AlertSession}

/-- One more entry that is answered. -/
theorem answered_concat {trace : List AlertEntry} {e : AlertEntry}
    (h : ∀ before x behind, trace = before ++ x :: behind →
      CallAnswered every before x)
    (he : CallAnswered every trace e) :
    ∀ before x behind, trace ++ [e] = before ++ x :: behind →
    CallAnswered every before x := by
  intro before x behind heq
  rcases List.eq_nil_or_concat behind with rfl | ⟨behind, y, rfl⟩
  · obtain ⟨hb, hx⟩ := List.append_inj' heq rfl
    injection hx with hx
    rw [← hb, ← hx]
    exact he
  · rw [List.concat_eq_append, ← List.cons_append, ← List.append_assoc] at heq
    obtain ⟨hb, -⟩ := List.append_inj' heq rfl
    exact h before x behind hb

/-- **One step keeps the invariant**, if it is clear. -/
theorem Kept.step (h : s.Kept every) {e : AlertEvent} (hclear : s.Clear e) :
    (s.step e).Kept every := by
  -- an event touches one swap's slot, and the others keep their invariant
  cases e with
  | ack swapId =>
    obtain ⟨hslot, hother, hevery⟩ := s.alerter.slot_ack swapId
    refine ⟨hevery.trans h.same, fun id => ?_,
      answered_concat h.answered trivial⟩
    show Stands ((s.alerter.ack swapId).2.slot id)
      (current id (s.trace ++ [.acked swapId]))
    rw [current_concat, currentStep]
    by_cases hid : swapId = id
    · rw [if_pos hid, ← hid, hslot]
      exact ack_stands (h.stands swapId)
    · rw [if_neg hid, hother id fun heq => hid heq.symm]
      exact h.stands id
  | handle swapId d channel =>
    obtain ⟨hslot, hother, hevery⟩ := s.alerter.slot_handle swapId d channel
    have hrest : ∀ id, swapId ≠ id →
        ∀ sent, Stands ((s.alerter.handle swapId d fun _ => channel).2.slot id)
        (current id (s.trace ++ [.handled swapId d.intent sent])) := by
      intro id hid sent
      rw [current_concat, currentStep, if_neg (fun hand => hid hand.1),
        hother id fun heq => hid heq.symm]
      exact h.stands id
    cases hsev : severity d.intent with
    | none =>
      have hquiet : (s.alerter.slot swapId).handle s.alerter.repageEvery
          d.intent channel.isOk =
          (none, s.alerter.slot swapId) := by
        rw [AlertSlot.handle, hsev]
      rw [hquiet, Prod.mk.injEq] at hslot
      refine ⟨hevery.trans h.same, fun id => ?_, answered_concat h.answered ?_⟩
      · by_cases hid : swapId = id
        · subst hid
          show Stands ((s.alerter.handle swapId d fun _ =>
            channel).2.slot swapId) (current swapId (s.trace ++ _))
          rw [current_concat, currentStep, hsev,
            if_neg (fun hand => by cases hand.2), hslot.2]
          exact h.stands swapId
        · exact hrest id hid _
      · rw [CallAnswered, hslot.1, hsev]
        exact ⟨fun hn => absurd rfl hn, fun hd => by cases hd.1⟩
    | some sev =>
      have hsome : (severity d.intent).isSome := by
        rw [hsev]
        rfl
      obtain ⟨hnew, hstale⟩ := hclear hsome
      obtain ⟨sent, s', hcall, hdue, hstands⟩ :=
        @handle_stands (s.alerter.slot swapId)
        (current swapId s.trace) d.intent sev s.alerter.repageEvery channel.isOk
          hsev (h.stands swapId) hnew hstale
      rw [hcall, Prod.mk.injEq] at hslot
      refine ⟨hevery.trans h.same, fun id => ?_, answered_concat h.answered ?_⟩
      · by_cases hid : swapId = id
        · subst hid
          show Stands ((s.alerter.handle swapId d fun _ =>
            channel).2.slot swapId) (current swapId (s.trace ++ _))
          rw [current_concat, currentStep, if_pos ⟨rfl, hsome⟩,
            hslot.1, hslot.2]
          exact hstands
        · exact hrest id hid _
      · rw [CallAnswered, hslot.1, ← h.same]
        exact hdue.trans ⟨fun hd => ⟨hsome, hd⟩, fun hd => hd.2⟩

/-- **A history of clear steps keeps it.** -/
theorem Kept.run : ∀ {events : List AlertEvent}
    {s : AlertSession}, s.Kept every → s.Clears events →
    (s.run events).Kept every := by
  intro events
  induction events with
  | nil =>
    intro s h _
    exact h
  | cons e events ih =>
    intro s h hclear
    exact ih (h.step hclear.1) hclear.2

/-- The counter counts the swaps whose page is outstanding. -/
theorem Kept.counts (h : s.Kept every) : ∃ swaps : List String, swaps.Nodup ∧
    (∀ swapId, swapId ∈ swaps ↔ ∃ r, current swapId s.trace = some r ∧
      r.Outstanding) ∧ s.alerter.unackedCriticalCount = swaps.length := by
  refine ⟨(s.alerter.last.entries.filter fun p => severity p.2 =
    some .critical ∧
    s.alerter.acked.get? p.1 ≠ some p.2).map Prod.fst,
    s.alerter.last.nodup.sublist (List.filter_sublist.map _), ?_, ?_⟩
  · intro swapId
    have hstands := h.stands swapId
    have hmem : swapId ∈ (s.alerter.last.entries.filter fun p => severity p.2 =
        some .critical ∧ s.alerter.acked.get? p.1 ≠ some p.2).map Prod.fst ↔
        ∃ c, s.alerter.last.get? swapId = some c ∧ severity c = some .critical ∧
          s.alerter.acked.get? swapId ≠ some c := by
      rw [List.mem_map]
      constructor
      · rintro ⟨⟨id, c⟩, hp, rfl⟩
        obtain ⟨hp, hcond⟩ := List.mem_filter.mp hp
        exact ⟨c, OrderedMap.mem_entries.mp hp, of_decide_eq_true hcond⟩
      · rintro ⟨c, hc, hcond⟩
        exact ⟨(swapId, c), List.mem_filter.mpr ⟨OrderedMap.mem_entries.mpr hc,
          decide_eq_true hcond⟩, rfl⟩
    rw [hmem]
    -- the slot stands for the swap's current page, and the count is over slots
    cases hcur : current swapId s.trace with
    | none =>
      rw [hcur] at hstands
      have hlast : s.alerter.last.get? swapId = none := hstands
      constructor
      · rintro ⟨c, hc, -⟩
        rw [hlast] at hc
        cases hc
      · rintro ⟨r, hr, -⟩
        cases hr
    | some r =>
      rw [hcur] at hstands
      have ht : Tracks (s.alerter.slot swapId) r := hstands
      constructor
      · rintro ⟨c, hc, hcrit, hack⟩
        refine ⟨r, rfl, ?_⟩
        rcases Nat.eq_zero_or_pos r.deliveries with h0 | hpos
        · exact absurd ((ht.fresh h0).2.2 c hc hcrit).1 hack
        · have hlast := ht.last hpos
          rw [show (s.alerter.slot swapId).last = some c from hc,
            Option.some.injEq] at hlast
          subst hlast
          refine ⟨hcrit, hpos, ?_⟩
          cases hra : r.acked with
          | false => rfl
          | true => exact absurd ((ht.acked hpos hcrit).mp hra) hack
      · rintro ⟨r', hr', hcrit, hpos, hra⟩
        cases hr'
        refine ⟨r.intent, ht.last hpos, hcrit, fun hack => ?_⟩
        have := (ht.acked hpos hcrit).mpr hack
        rw [hra] at this
        cases this
  · rw [DedupAlerter.unackedCriticalCount, List.length_map]

/-- The invariant gives the law. -/
theorem Kept.lawful (h : s.Kept every) : s.Lawful every := by
  refine ⟨h.answered, fun swapId r hr hsev => ?_, h.counts⟩
  have hstands := h.stands swapId
  rw [hr] at hstands
  exact Tracks.once hstands hsev

theorem kept_new {a : DedupAlerter} (h : DedupAlerter.new every = .ok a) :
    (⟨a, []⟩ : AlertSession).Kept every := by
  rw [DedupAlerter.new] at h
  split at h
  · cases h
  · cases h
    refine ⟨rfl, fun _ => rfl, fun before e behind heq => ?_⟩
    exact absurd heq.symm
      (List.append_ne_nil_of_right_ne_nil _ (List.cons_ne_nil _ _))

/-- A clear run was clear up to any point. -/
theorem clears_prefix : ∀ {before behind : List AlertEvent} {s : AlertSession},
    s.Clears (before ++ behind) → s.Clears before := by
  intro before
  induction before with
  | nil =>
    intro _ _ _
    trivial
  | cons e before ih =>
    intro behind s h
    exact ⟨h.1, ih h.2⟩

end AlertSession

/-- **Along every history of clear steps, every call is answered as it should
be**: a page goes out exactly when one is due, nothing but a critical page goes
out twice in a run, and the counter counts what is outstanding. -/
theorem alerter_lawful {every : Int} {a : DedupAlerter}
    (ha : DedupAlerter.new every = .ok a)
    {events : List AlertEvent} (h : (⟨a, []⟩ : AlertSession).Clears events)
    (before behind : List AlertEvent) (hsplit : events = before ++ behind) :
    ((⟨a, []⟩ : AlertSession).run before).Lawful every := by
  subst hsplit
  exact ((AlertSession.kept_new ha).run (AlertSession.clears_prefix h)).lawful

/-- A call whose send succeeds. -/
def tick (intent : Intent) : AlertEvent :=
  .handle "s" ⟨{ intent := intent, reason := "-" }, rfl⟩ (.ok ())

/-- A claim that is paged again at the third call, then acknowledged and quiet;
after it a squeeze, paged once. -/
def claimThenSqueeze : List AlertEvent :=
  [tick .pageClaim, tick .pageClaim, tick .pageClaim, .ack "s", tick .pageClaim,
    tick .pageSqueezed, tick .pageSqueezed]

def everyOther : DedupAlerter := ⟨.empty, .empty, .empty, 2, Int.le.intro 1 rfl⟩

/-- The squeeze is outstanding at the end. -/
theorem alerter_lawful_runs :
    let s := (⟨everyOther, []⟩ : AlertSession).run claimThenSqueeze
    s.Lawful 2 ∧ s.alerter.unackedCriticalCount = 1 ∧
      s.trace = [.handled "s" .pageClaim (some true),
        .handled "s" .pageClaim none,
        .handled "s" .pageClaim (some true), .acked "s",
          .handled "s" .pageClaim none,
        .handled "s" .pageSqueezed (some true),
          .handled "s" .pageSqueezed none] := by
  have hclear : (⟨everyOther, []⟩ : AlertSession).Clears claimThenSqueeze := by decide
  exact ⟨@alerter_lawful 2 everyOther rfl _ hclear claimThenSqueeze [] (List.append_nil _).symm,
    by decide, by decide⟩

/-- An alerter that pages again at every call. -/
def everyTick : DedupAlerter := ⟨.empty, .empty, .empty, 1, Int.le_refl 1⟩

/-- **The acknowledgement of an earlier run silences a later one**: claim,
acknowledged, then squeezed, then claim again. The page that the last run has
open is not counted, and the next call sends none. -/
theorem stale_ack : ¬ ((⟨everyTick, []⟩ : AlertSession).run
    [tick .pageClaim, .ack "s", tick .pageSqueezed, tick .pageClaim,
      tick .pageClaim]).Lawful 1 := by
  intro h
  obtain ⟨swaps, -, hmem, hcount⟩ := h.counts
  have hopen : "s" ∈ swaps := (hmem "s").mpr ⟨⟨.pageClaim, 1, 1, false⟩, rfl, rfl, Nat.one_pos, rfl⟩
  have hnone : swaps = [] := List.length_eq_zero_iff.mp hcount.symm
  rw [hnone] at hopen
  cases hopen

end Pyrxd.Watch
