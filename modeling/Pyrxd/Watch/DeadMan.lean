import Pyrxd.Lib.Double
import Pyrxd.Lib.Json
import Pyrxd.Watch.Alerts
import Pyrxd.Watch.Reconciler

/-!
# The dead man's switch

`gravity/watch/heartbeat.py` and the turns of `run_loop` in
`gravity/watch/daemon.py`: the tower beats by writing a file, and a process of
its own reads the file and pages the operator. Either goes its own pace, either
clock may be off or be no number at all, sends may fail, and others may touch
the file.

What the operator knows is a matter of the pages that arrived (`told`), and
whether the tower lives is a matter of what was last written (`lastWrite`): a
turn that timed out or could not write is no beat. A check that returns judges
by the second, sends something exactly if the operator believes otherwise, and
has told them if what it sent arrives (`deadman_tells`). `f"{age:.0f}"` is a
parameter.
-/

namespace Pyrxd.Watch

open Pyrxd.Lib

/-! ## The tower's side -/

/-- `intent.value.startswith("page_")` of every result, counted, and the
like. -/
def paged (results : List ReconcileResult) : Nat :=
  results.countP fun r => r.decision.intent.isPage

def undelivered (results : List ReconcileResult) : Nat :=
  results.countP fun r => r.alertDelivered == some false

/-- A `float` in a file. -/
def jsonFloat : PyFloat → Json
  | .finite q => .float q
  | .nan => .nan
  | .infinity negative => .infinity negative

/-- What `FileHeartbeat.__call__` writes. The source of the count may raise. -/
def FileHeartbeat.data (ts : PyFloat) (iteration : Nat)
    (results : List ReconcileResult)
    (unackedCritical : Option (Except PyErr Int)) : Json :=
  .obj ([("ts", jsonFloat ts), ("tick", .int iteration),
      ("swaps", .int results.length),
      ("paged", .int (paged results)),
        ("undelivered", .int (undelivered results))] ++
    (unackedCritical.map fun count => ("unacked_critical",
      .int (match count with
      | .ok n => n
      | .error _ => -1))).toList)

/-- One turn of `run_loop`: the tick's results unless it timed out, and what the
heartbeat then meets. -/
structure Turn where
  results : Option (List ReconcileResult)
  clock : PyFloat
  unackedCritical : Option (Except PyErr Int)
  write : Except PyErr Unit

/-- The file after the turn. A tick that timed out does not beat; a write that
fails is logged, and what was there stays, since the new contents come by
`os.replace`. -/
def Turn.beat (t : Turn) (iterations : Nat) (file : Option Json) :
    Option Json :=
  match t.results, t.write with
  | some results, .ok () =>
    some (FileHeartbeat.data t.clock iterations results t.unackedCritical)
  | _, _ => file

/-! ## The monitor's side -/

/-- `now - ts` for an `int`, which becomes a `float` first. -/
def ageOfInt (now : PyFloat) (ts : Int) : Except PyErr (Option PyFloat) :=
  if Overflows ts then .error (.other "int too large to convert to float")
  else .ok (some (now.sub (.finite (toDouble ts))))

/-- `heartbeat_age_s`; no file, one that cannot be read and one that is not JSON
are the same. -/
def heartbeatAge (now : PyFloat) : Option Json → Except PyErr (Option PyFloat)
  | some (.obj entries) => match Json.get entries "ts" with
    | .int ts => ageOfInt now ts
    | .bool b => ageOfInt now (if b then 1 else 0)
    | .float ts => .ok (some (now.sub (.finite ts)))
    | .nan => .ok (some (now.sub .nan))
    | .infinity negative => .ok (some (now.sub (.infinity negative)))
    | _ => .ok none
  | _ => .ok none

/-- `_CLOCK_SKEW_TOLERANCE_S`. -/
def clockSkewTolerance : ℚ := 60

/-- `age is None or age > max or age < -tolerance`. -/
def staleAge (max : PyFloat) : Option PyFloat → Bool
  | none => true
  | some age =>
    Decidable.decide (max.Lt age ∨ age.Lt (.finite (-clockSkewTolerance)))

/-- `DeadManVerdict`. -/
structure DeadManVerdict where
  alive : Bool
  age : Option PyFloat
deriving DecidableEq

/-- `DeadMansSwitch`; `__init__` refuses a `max_silence_s` that is zero or
negative, and takes NaN and infinity. -/
structure DeadMansSwitch where
  max : PyFloat
  ofMax : ¬ max.Le (.finite 0)
  fired : Bool := false

section

variable (fmt : PyFloat → String)

namespace DeadMansSwitch

/-- `_stale_page`. -/
def stalePage (s : DeadMansSwitch) (age : Option PyFloat) : Page where
  swapId := "<watchtower>"
  intent := none
  severity := .critical
  message :=
    let place := match age with
      | none => "absent"
      | some a =>
        if a.Lt (.finite 0) then
          "future-dated (age " ++ fmt a ++
            "s — clock skew or a stuck/forged heartbeat)"
        else "stale (age " ++ fmt a ++ "s > max " ++ fmt s.max ++ "s)"
    "watchtower heartbeat " ++ place ++ " — the tower may be DOWN; " ++
      "operator must self-defend any in-flight swaps (claim/refund) until it is restored"
  recommendedAction :=
    some "restart the watchtower and/or manually watch in-flight swaps"
  deadlineRxdHeight := none
  lowCorroboration := false

/-- `_recovered_page`, of an age that is not stale and so is one. -/
def recoveredPage (age : Option PyFloat) : Page where
  swapId := "<watchtower>"
  intent := none
  severity := .info
  message := "watchtower heartbeat recovered (age " ++
    (age.map fmt).getD "" ++ "s)"
  recommendedAction := none
  deadlineRxdHeight := none
  lowCorroboration := false

/-- `_try_send`. -/
def trySend (channel : Page → Except PyErr Unit) (page : Page) :
    Except PyErr Bool :=
  match channel page with
  | .ok () => .ok true
  | .error (.base m) => .error (.base m)
  | .error _ => .ok false

/-- `check`, with what was handed to the channel and whether it arrived. -/
def check (s : DeadMansSwitch) (file : Option Json) (now : PyFloat)
    (channel : Page → Except PyErr Unit) :
    Except PyErr DeadManVerdict × DeadMansSwitch × List (Page × Bool) :=
  match heartbeatAge now file with
  | .error e => (.error e, s, [])
  | .ok age =>
    let stale := staleAge s.max age
    let page := if stale then s.stalePage fmt age else recoveredPage fmt age
    if stale = s.fired then (.ok ⟨!stale, age⟩, s, [])
    else match trySend channel page with
      | .ok true =>
        (.ok ⟨!stale, age⟩, { s with fired := stale }, [(page, true)])
      | .ok false => (.ok ⟨!stale, age⟩, s, [(page, false)])
      | .error e => (.error e, s, [(page, false)])

end DeadMansSwitch

/-! ## Both together -/

/-- A turn of the tower, a check of the monitor, or something else that happens
to the file. -/
inductive WatchEvent where
  | turn (t : Turn)
  | disturb (file : Option Json)
  | check (now : PyFloat) (channel : Page → Except PyErr Unit)

/-- The two processes, the file between them and the pages so far. -/
structure Watched where
  iterations : Nat
  file : Option Json
  switch : DeadMansSwitch
  sent : List (Page × Bool)
  verdict : Option (Except PyErr DeadManVerdict)

def Watched.start (s : DeadMansSwitch) : Watched :=
  ⟨0, none, { s with fired := false }, [], none⟩

def Watched.step (w : Watched) : WatchEvent → Watched
  | .turn t => { w with iterations := w.iterations + 1, file := t.beat (w.iterations + 1) w.file }
  | .disturb file => { w with file := file }
  | .check now channel =>
    let (verdict, switch, pages) := w.switch.check fmt w.file now channel
    { w with switch := switch, sent := w.sent ++ pages, verdict := some verdict }

def Watched.run (w : Watched) (events : List WatchEvent) : Watched :=
  events.foldl (Watched.step fmt) w

end

/-! ## What it is for -/

/-- The operator was last told that the tower may be down. -/
def told (sent : List (Page × Bool)) : Bool :=
  sent.foldl (fun down p => if p.2 then p.1.severity == .critical
    else down) false

/-- What was last put into the file. -/
inductive Written where
  | nothing
  | beat (ts : PyFloat)
  | other (file : Option Json)

def Written.next (last : Written) : WatchEvent → Written
  | .turn ⟨some _, ts, _, .ok ()⟩ => .beat ts
  | .turn _ => last
  | .disturb file => .other file
  | .check .. => last

def lastWrite (events : List WatchEvent) : Written :=
  events.foldl Written.next .nothing

/-- The number that a JSON value stands for, as a `float`. -/
inductive Denotes : Json → PyFloat → Prop where
  | float (q : ℚ) : Denotes (.float q) (.finite q)
  | nan : Denotes .nan .nan
  | infinity (negative : Bool) : Denotes (.infinity negative)
      (.infinity negative)
  | int {n : Int} (h : ¬ Overflows n) : Denotes (.int n) (.finite (toDouble n))
  | bool (b : Bool) : Denotes (.bool b) (.finite (if b then 1 else 0))

/-- The time that is written there. -/
def Written.Stamped : Written → PyFloat → Prop
  | nothing, _ => False
  | beat ts, t => t = ts
  | other file, t =>
    ∃ entries, file = some (.obj entries) ∧ Denotes (Json.get entries "ts") t

/-- A sign of life: neither too old nor from a future beyond the tolerance. -/
def Fresh (max age : PyFloat) : Prop :=
  (PyFloat.finite (-clockSkewTolerance)).Le age ∧ age.Le max

/-- What cannot be compared: an age that is no number, or a limit that is
none. -/
def Incomparable (max age : PyFloat) : Prop :=
  age = .nan ∨ max = .nan ∧ (PyFloat.finite (-clockSkewTolerance)).Le age

/-- The file holds what was last written. -/
def Written.Held : Written → Option Json → Prop
  | nothing, file => file = none
  | beat ts, file => ∃ iteration results unackedCritical,
      file = some (FileHeartbeat.data ts iteration results unackedCritical)
  | other contents, file => file = contents

variable {fmt : PyFloat → String} {s : DeadMansSwitch} {w : Watched}
  {last : Written}
  {file : Option Json} {events : List WatchEvent} {max now : PyFloat}
  {channel : Page → Except PyErr Unit} {v : DeadManVerdict}

/-- The last page that went out decides. -/
theorem told_append (sent : List (Page × Bool)) (p : Page × Bool) :
    told (sent ++ [p]) = if p.2 then p.1.severity == .critical
      else told sent := by
  rw [told, List.foldl_append]
  rfl

/-- What is not stale is fresh, or was compared in vain. -/
theorem staleAge_false {age : PyFloat} :
    staleAge max (some age) = false ↔ Fresh max age ∨ Incomparable max age := by
  rw [staleAge, decide_eq_false_iff_not, not_or, PyFloat.not_lt, PyFloat.not_lt,
    Fresh, Incomparable]
  constructor
  · rintro ⟨hmax, hskew⟩
    rcases hskew with hskew | rfl | hnan
    · rcases hmax with hmax | hmax | rfl
      · exact .inl ⟨hskew, hmax⟩
      · exact .inr (.inr ⟨hmax, hskew⟩)
      · exact .inr (.inl rfl)
    · exact .inr (.inl rfl)
    · cases hnan
  · rintro (⟨hskew, hmax⟩ | rfl | ⟨rfl, hskew⟩)
    · exact ⟨.inl hmax, .inl hskew⟩
    · exact ⟨.inr (.inr rfl), .inr (.inl rfl)⟩
    · exact ⟨.inr (.inl rfl), .inl hskew⟩

/-- Floats round: from 0.1 to 1000.1 it is 1000 seconds, not more. -/
example : staleAge (.finite 1000)
    (some ((PyFloat.round (10001 / 10)).sub (.round (1 / 10)))) =
      false := by decide +kernel

/-- A value denotes one number at most. -/
theorem Denotes.unique {j : Json} {t u : PyFloat} (ht : Denotes j t)
    (hu : Denotes j u) : t = u := by
  cases ht <;> cases hu <;> rfl

/-- The age of what denotes `t`. -/
theorem Denotes.age {j : Json} {t age : PyFloat} (ht : Denotes j t) :
    (Except.ok (some (now.sub t)) : Except PyErr (Option PyFloat)) =
      .ok (some age) ↔
      ∃ u, Denotes j u ∧ age = now.sub u := by
  constructor
  · rintro ⟨⟩
    exact ⟨t, ht, rfl⟩
  · rintro ⟨u, hu, rfl⟩
    rw [ht.unique hu]

/-- The age of an integer heartbeat. -/
theorem ageOfInt_some {n : Int} {age : PyFloat} :
    ageOfInt now n = .ok (some age) ↔ ∃ t, Denotes (.int n) t ∧
    age = now.sub t := by
  unfold ageOfInt
  split
  · next h =>
    refine ⟨nofun, ?_⟩
    rintro ⟨t, ht, -⟩
    cases ht with
    | int hn => exact absurd h hn
  · next h => exact (Denotes.int h).age

/-- A `bool` is an `int`, and a small one. -/
theorem ageOfInt_bool (b : Bool) : ageOfInt now (if b then 1 else 0) =
    .ok (some (now.sub (.finite (if b then 1 else 0)))) := by
  have hsmall : ∀ n : Int, n = 0 ∨ n = 1 → toDouble n = n ∧ ¬ Overflows n := by
    rintro n (rfl | rfl)
    · exact ⟨toDouble_intCast (by decide), by decide +kernel⟩
    · exact ⟨toDouble_intCast (by decide), by decide +kernel⟩
  have hb : (if b then 1 else 0 : Int) = 0 ∨
      (if b then 1 else 0 : Int) = 1 := by
    cases b
    · exact .inl rfl
    · exact .inr rfl
  obtain ⟨hround, hoverflows⟩ := hsmall _ hb
  rw [ageOfInt, if_neg hoverflows, hround]
  cases b <;> rfl

/-- **An age comes of the time that the file holds.** -/
theorem heartbeatAge_some {age : PyFloat} :
    heartbeatAge now file = .ok (some age) ↔
    ∃ t, (Written.other file).Stamped t ∧ age = now.sub t := by
  -- only an object whose `ts` is a number has an age
  have hnumber : ∀ {entries : List (String × Json)}, file =
      some (.obj entries) →
      ((∃ t, (Written.other file).Stamped t ∧ age = now.sub t) ↔
        ∃ t, Denotes (Json.get entries "ts") t ∧ age = now.sub t) := by
    rintro entries rfl
    simp [Written.Stamped]
  unfold heartbeatAge
  split
  · rename_i entries
    rw [hnumber rfl]
    split
    · next h =>
      rw [h]
      exact ageOfInt_some
    · next b h =>
      rw [h, ageOfInt_bool]
      exact (Denotes.bool b).age
    · next q h =>
      rw [h]
      exact (Denotes.float q).age
    · next h =>
      rw [h]
      exact Denotes.nan.age
    · next negative h =>
      rw [h]
      exact (Denotes.infinity negative).age
    · next hint hbool hfloat hnan hinf =>
      refine ⟨nofun, ?_⟩
      rintro ⟨t, ht, -⟩
      generalize hj : Json.get entries "ts" = j at ht
      cases ht with
      | float => exact absurd hj (hfloat _)
      | nan => exact absurd hj hnan
      | infinity => exact absurd hj (hinf _)
      | int => exact absurd hj (hint _)
      | bool => exact absurd hj (hbool _)
  · next h =>
    refine ⟨nofun, ?_⟩
    rintro ⟨t, ⟨entries, rfl, -⟩, -⟩
    exact absurd rfl (h entries)

/-- The time of a beat is read back. -/
theorem heartbeatAge_data (now ts : PyFloat) (iteration : Nat)
    (results : List ReconcileResult)
    (unackedCritical : Option (Except PyErr Int)) :
    heartbeatAge now
      (some (FileHeartbeat.data ts iteration results unackedCritical)) =
      .ok (some (now.sub ts)) := by
  cases ts <;> rfl

/-- The file is judged by the time that was last written. -/
theorem Written.Held.judged (h : last.Held file) {age : Option PyFloat}
    (hage : heartbeatAge now file = .ok age) : staleAge max age = false ↔
      ∃ t, last.Stamped t ∧ (Fresh max (now.sub t) ∨
        Incomparable max (now.sub t)) := by
  cases last with
  | nothing =>
    obtain rfl : file = none := h
    obtain rfl : none = age := by injection hage
    exact ⟨nofun, fun ⟨t, ht, _⟩ => ht.elim⟩
  | beat ts =>
    obtain ⟨iteration, results, unackedCritical, rfl⟩ := h
    rw [heartbeatAge_data] at hage
    injection hage with hage
    rw [← hage, staleAge_false]
    exact ⟨fun hfresh => ⟨ts, rfl, hfresh⟩, fun ⟨t, ht, hfresh⟩ => ht ▸ hfresh⟩
  | other contents =>
    obtain rfl : file = contents := h
    cases age with
    | none =>
      refine ⟨nofun, ?_⟩
      rintro ⟨t, ht, -⟩
      have hsome : heartbeatAge now file = .ok (some (now.sub t)) :=
        heartbeatAge_some.mpr ⟨t, ht, rfl⟩
      rw [hage] at hsome
      cases hsome
    | some age =>
      obtain ⟨t, ht, rfl⟩ := heartbeatAge_some.mp hage
      rw [staleAge_false]
      refine ⟨fun hfresh => ⟨t, ht, hfresh⟩, ?_⟩
      rintro ⟨u, hu, hfresh⟩
      obtain ⟨entries, rfl, ht⟩ := ht
      obtain ⟨entries', heq, hu⟩ := hu
      cases heq
      rw [ht.unique hu]
      exact hfresh

/-- One check. A page that it sends is of the other kind than the switch stands
at; a check that returns went by the file, tried to send exactly if the switch
stood otherwise, and turned the switch exactly if that arrived. -/
theorem check_spec (fmt : PyFloat → String) (s : DeadMansSwitch)
    (file : Option Json)
    (now : PyFloat) (channel : Page → Except PyErr Unit) :
    let r := s.check fmt file now channel
    r.2.1.max = s.max ∧
    (∀ p ∈ r.2.2, p.1.severity = if s.fired then .info else .critical) ∧
    (r.2.2 = [] ∧ r.2.1.fired = s.fired ∨
      ∃ p, r.2.2 = [p] ∧ r.2.1.fired = if p.2 then !s.fired else s.fired) ∧
    (∀ v, r.1 = .ok v →
      heartbeatAge now file = .ok v.age ∧ v.alive = !staleAge s.max v.age ∧
      (r.2.2 = [] ↔ s.fired = !v.alive) ∧
        ∀ p ∈ r.2.2, p.2 = (channel p.1).isOk) := by
  dsimp only
  rw [DeadMansSwitch.check]
  cases hage : heartbeatAge now file with
  | error e => exact ⟨rfl, nofun, .inl ⟨rfl, rfl⟩, nofun⟩
  | ok age =>
    dsimp only
    generalize hstale : staleAge s.max age = stale
    -- the switch tells only a change, and keeps it when the channel took the
    -- page
    by_cases hsame : stale = s.fired
    · rw [if_pos hsame]
      refine ⟨rfl, nofun, .inl ⟨rfl, rfl⟩, ?_⟩
      rintro v ⟨⟩
      exact ⟨rfl, by rw [hstale], by simp [hsame], nofun⟩
    rw [if_neg hsame]
    have hflip : stale = !s.fired := by
      cases stale <;> cases hf : s.fired <;> simp_all
    generalize hpage : (if stale then s.stalePage fmt age
      else DeadMansSwitch.recoveredPage fmt age) = page
    have hsev : page.severity = if s.fired then .info else .critical := by
      rw [← hpage, hflip]
      cases s.fired <;> rfl
    rw [DeadMansSwitch.trySend]
    split
    · next h =>
      split at h
      · next hsend =>
        refine ⟨rfl, by simpa using hsev, .inr ⟨_, rfl, hflip⟩, ?_⟩
        rintro v ⟨⟩
        exact ⟨rfl, by rw [hstale], by simp [hflip], by simp [hsend,
          Except.isOk, Except.toBool]⟩
      all_goals simp at h
    · next h =>
      split at h
      · simp at h
      · simp at h
      · next hsend =>
        refine ⟨rfl, by simpa using hsev, .inr ⟨_, rfl, rfl⟩, ?_⟩
        rintro v ⟨⟩
        exact ⟨rfl, by rw [hstale], by simp [hflip], by simp [hsend,
          Except.isOk, Except.toBool]⟩
    · exact ⟨rfl, by simpa using hsev, .inr ⟨_, rfl, rfl⟩, nofun⟩

/-- What holds of the two processes at any time. -/
structure Reports (max : PyFloat) (events : List WatchEvent) (w : Watched) : Prop where
  max : w.switch.max = max
  fired : w.switch.fired = told w.sent
  held : (lastWrite events).Held w.file
  news : ∀ before p behind, w.sent = before ++ p :: behind →
    p.1.severity = if told before then .info else .critical

/-- A turn leaves the file, or has written it. -/
theorem held_turn (h : last.Held file) (t : Turn) (iterations : Nat) :
    (last.next (.turn t)).Held (t.beat iterations file) := by
  obtain ⟨results, ts, unackedCritical, write⟩ := t
  cases results with
  | none => exact h
  | some results =>
    cases write with
    | error e => exact h
    | ok u => exact ⟨iterations, results, unackedCritical, rfl⟩

/-- Every step does. -/
theorem Reports.step (h : Reports max events w) (e : WatchEvent) :
    Reports max (events ++ [e]) (w.step fmt e) := by
  have hlast : lastWrite (events ++ [e]) = (lastWrite events).next e := List.foldl_append
  -- only a check speaks, and only a turn or a disturbance writes
  cases e with
  | turn t => exact ⟨h.max, h.fired, hlast ▸ held_turn h.held t _, h.news⟩
  | disturb file => exact ⟨h.max, h.fired, hlast ▸ rfl, h.news⟩
  | check now channel =>
    obtain ⟨hmax, hsev, hpages, -⟩ := check_spec fmt w.switch w.file now channel
    refine ⟨hmax.trans h.max, ?_, hlast ▸ h.held, ?_⟩
    · show (w.switch.check fmt w.file now channel).2.1.fired =
        told (w.sent ++ (w.switch.check fmt w.file now channel).2.2)
      rcases hpages with ⟨hnone, hfired⟩ | ⟨p, hone, hfired⟩
      · rw [hnone, List.append_nil, hfired, h.fired]
      · rw [hone, told_append, hfired, h.fired]
        have hp := hsev p (by simp [hone])
        rw [h.fired] at hp
        rw [hp]
        cases p.2 <;> cases told w.sent <;> rfl
    · show ∀ before p behind,
        w.sent ++ (w.switch.check fmt w.file now channel).2.2 = before ++ p :: behind → _
      intro before p behind heq
      rcases hpages with ⟨hnone, -⟩ | ⟨q, hone, -⟩
      · rw [hnone, List.append_nil] at heq
        exact h.news before p behind heq
      · rw [hone] at heq
        rcases List.eq_nil_or_concat behind with rfl | ⟨front, z, rfl⟩
        · obtain ⟨hw, hq⟩ := List.append_inj' heq rfl
          obtain rfl : q = p := by simpa using hq
          rw [← hw, ← h.fired]
          exact hsev q (by simp [hone])
        · have hcut : w.sent ++ [q] = (before ++ p :: front) ++ [z] := by simpa using heq
          exact h.news before p front (List.append_inj' hcut rfl).1

/-- Every run keeps the books. -/
theorem reports_run (s : DeadMansSwitch) (events : List WatchEvent) :
    Reports s.max events ((Watched.start s).run fmt events) := by
  induction events using List.reverseRecOn with
  | nil => exact ⟨rfl, rfl, rfl, by simp [Watched.run, Watched.start]⟩
  | append_singleton events e ih =>
    rw [Watched.run, List.foldl_append]
    exact ih.step e

/-- **The operator is told what is so.** After any run of the two processes,
every page that was ever sent was news to the operator. A check that then
returns says alive exactly if the last thing written to the file is a fresh sign
of life, or one that cannot be compared; it hands nothing to its channel if the
operator was last told that, and one page otherwise, after which the operator
has been told if that page arrived, and knows what they knew if not. -/
theorem deadman_tells (fmt : PyFloat → String) (s : DeadMansSwitch) (events : List WatchEvent) :
    let w := (Watched.start s).run fmt events
    (∀ before p behind, w.sent = before ++ p :: behind →
      p.1.severity = if told before then .info else .critical) ∧
    ∀ now channel v, (w.step fmt (.check now channel)).verdict = some (.ok v) →
      (v.alive = true ↔ ∃ t, (lastWrite events).Stamped t ∧
        (Fresh s.max (now.sub t) ∨ Incomparable s.max (now.sub t))) ∧
      (told w.sent = !v.alive ∧ (w.step fmt (.check now channel)).sent = w.sent ∨
        told w.sent = v.alive ∧ ∃ page,
          (w.step fmt (.check now channel)).sent = w.sent ++ [(page, (channel page).isOk)] ∧
          page.severity = (if v.alive then .info else .critical) ∧
          told (w.step fmt (.check now channel)).sent =
            if (channel page).isOk then !v.alive else told w.sent) := by
  intro w
  -- all of it is read off the invariant of the run
  have h : Reports s.max events w := reports_run s events
  refine ⟨h.news, fun now channel v hv => ?_⟩
  obtain ⟨-, hsev, hpages, hret⟩ := check_spec fmt w.switch w.file now channel
  have hsent : (w.step fmt (.check now channel)).sent =
    w.sent ++ (w.switch.check fmt w.file now channel).2.2 := rfl
  have hv : (w.switch.check fmt w.file now channel).1 = .ok v := by injection hv
  obtain ⟨hage, halive, hnone, harrives⟩ := hret v hv
  rw [h.fired] at hnone hsev
  refine ⟨?_, ?_⟩
  · rw [halive, h.max, ← h.held.judged hage, Bool.not_eq_true']
  · rcases hpages with ⟨hnil, -⟩ | ⟨⟨page, arrived⟩, hone, -⟩
    · refine .inl ⟨hnone.mp hnil, ?_⟩
      rw [hsent, hnil, List.append_nil]
    · have hdiffer : told w.sent = v.alive := by
        have : told w.sent ≠ !v.alive := fun heq =>
          List.cons_ne_nil _ [] (hone.symm.trans (hnone.mpr heq))
        revert this
        cases told w.sent <;> cases v.alive <;> decide
      have hpage := hsev (page, arrived) (by simp [hone])
      have harrived := harrives (page, arrived) (by simp [hone])
      dsimp only at hpage harrived
      rw [hdiffer] at hpage
      refine .inr ⟨hdiffer, page, by rw [hsent, hone, harrived], hpage, ?_⟩
      rw [hsent, hone, told_append, hpage, harrived]
      dsimp only
      cases v.alive <;> rfl

/-- The tower beats at 100 and is seen alive at 150; its next turn times out,
and the page about it at 300 is lost. -/
def outage : List WatchEvent :=
  [.turn ⟨some [], .finite 100, none, .ok ()⟩,
    .check (.finite 150) fun _ => .ok (),
   .turn ⟨none, .finite 200, none, .ok ()⟩,
     .check (.finite 300) fun _ => .error (.other "offline")]

/-- The sample maximum is positive. -/
theorem minute_pos : ¬ (PyFloat.finite 60).Le (.finite 0) :=
  show ¬ (60 : ℚ) ≤ 0 by decide

def minuteSwitch : DeadMansSwitch := ⟨.finite 60, minute_pos, false⟩

/-- The next page arrives, and is the first that the operator hears. -/
theorem deadman_tells_outage :
    let w := (Watched.start minuteSwitch).run (fun _ => "") outage
    let w' := w.step (fun _ => "") (.check (.finite 301) fun _ => .ok ())
    told w.sent = false ∧ told w'.sent = true ∧
      ¬ ∃ t, (lastWrite outage).Stamped t ∧ (Fresh minuteSwitch.max ((PyFloat.finite 301).sub t) ∨
        Incomparable minuteSwitch.max ((PyFloat.finite 301).sub t)) := by
  intro w w'
  have hbefore : told w.sent = false := by decide +kernel
  have hdown : (w'.verdict.bind fun r => r.toOption.map DeadManVerdict.alive) = some false := by
    decide +kernel
  obtain ⟨r, hverdict, hr⟩ := Option.bind_eq_some_iff.mp hdown
  cases r with
  | error e => cases hr
  | ok v =>
    have halive : v.alive = false := by injection hr
    obtain ⟨-, hcheck⟩ := deadman_tells (fun _ => "") minuteSwitch outage
    obtain ⟨hfresh, hpages⟩ := hcheck (.finite 301) (fun _ => .ok ()) v hverdict
    rw [halive] at hfresh hpages
    refine ⟨hbefore, ?_, fun hlive => Bool.noConfusion (hfresh.mpr hlive)⟩
    rcases hpages with ⟨hsame, -⟩ | ⟨-, page, -, -, htold⟩
    · exact absurd (hbefore.symm.trans hsame) (by decide)
    · exact htold

end Pyrxd.Watch
