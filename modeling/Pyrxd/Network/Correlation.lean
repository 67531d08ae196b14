import Pyrxd.Network.ElectrumX

/-!
# Requests and their answers

What a call of `ElectrumXClient` gets, along every run. The connection makes the
moves of a smaller machine, the table of calls (`Step.table`), and the
invariants are the table's: what the history says of the calls in flight
(`Registered`), where a result comes from (`Settled`), what is pending
(`Tracked`).

`calls_correlated` is about any server: an answer is the result of a message
with the call's own id, which arrived after the call was registered.
`calls_served` is what follows for a server that answers requests, in any order:
every call has an answer to its own request. `pending_exact` says what
`_pending` holds.
-/

namespace Pyrxd.Network

open Pyrxd.Lib

namespace ElectrumX

variable {κ : Type}

/-! ## The table of calls

What of all this the correlation of requests and answers is a matter of, and the moves it makes. -/

structure Table (κ : Type) where
  counter : Int
  pending : List Int
  futures : Int → Fut
  phase : κ → Phase

def World.table (w : World κ) : Table κ :=
  ⟨w.client.idCounter, w.client.pending, w.client.futures, w.phase⟩

/-- The events that say nothing of a call. -/
def Event.Silent : Event κ → Prop
  | received _ | internal => True
  | _ => False

section Moves

variable [DecidableEq κ]

def Table.go (t : Table κ) (k : κ) (p : Phase) : Table κ :=
  { t with phase := Function.update t.phase k p }

inductive Table.Step (text : Json → String) : Table κ → Event κ →
    Table κ → Prop where
  | call {t k req p} (hidle : t.phase k = .idle)
      (hp : p = .connecting req ∨ p = .ready req) :
      Step text t (.called k req) (t.go k p)
  | ready {t k req} (hphase : t.phase k = .connecting req) :
      Step text t .internal (t.go k (.ready req))
  | abandon {t k e} (hphase : (t.phase k).Fresh) :
      Step text t .internal (t.go k (.finished (.error e)))
  | register {t k req} (hphase : t.phase k = .ready req) :
      Step text t (.registered k (t.counter + 1) req)
        ({ t with
          counter := t.counter + 1
          pending := (t.counter + 1) :: t.pending
          futures := Function.update t.futures (t.counter + 1) .unset }.go k (.sending (t.counter + 1) req))
  | lock {t k id req} (hphase : t.phase k = .sending id req) :
      Step text t .internal (t.go k (.writing id req))
  | write {t k id req} (hphase : t.phase k = .writing id req) :
      Step text t (.sent k (req.payload id)) (t.go k (.written id))
  | sent {t k id} (hphase : t.phase k = .written id) :
      Step text t .internal (t.go k (.waiting id))
  | finish {t k id r} (hphase : (t.phase k).id = some id)
      (hr : (∃ e, r = .error e) ∨ t.futures id = .done r) :
      Step text t .internal
        ({ t with pending := t.pending.erase id }.go k (.finished r))
  | expire {t k id} (hphase : t.phase k = .waiting id) (hfut : t.futures id = .unset) :
      Step text t .internal ({ t with futures := Function.update t.futures id .cancelled }.go k (.expired id))
  /-- A message for `id`, whose future is still unset. -/
  | settle {t id data m} (hmem : id ∈ t.pending) (hfut : t.futures id = .unset)
      (hm : m.size ≤ maxResponseBytes ∧ m.parsed = .json (.obj data) ∧ (Json.get data "id").asInt = some id) :
      Step text t (.received m) { t with
        pending := t.pending.erase id
        futures := Function.update t.futures id (.done (answer text data)) }
  /-- A message for `id`, which has given up. -/
  | late {t id m} (hfut : t.futures id ≠ .unset) : Step text t (.received m)
      { t with pending := t.pending.erase id }
  | failAll {t e ev} (hev : ev.Silent) : Step text t ev { t with
      pending := []
      futures := fun id => match t.futures id with
        | .unset => if id ∈ t.pending then .done (.error e) else .unset
        | f => f }
  | silent {t ev} (hev : ev.Silent) : Step text t ev t

end Moves

/-! The connection and its readers leave the table alone. -/

section Frames

variable (c : Client)

/-- What of the client the table shows. -/
def Client.book : Int × List Int × (Int → Fut) :=
  (c.idCounter, c.pending, c.futures)

/-- Starting a reader leaves the tables alone. -/
@[simp] theorem ensureReader_book : c.ensureReader.book = c.book := by
  unfold Client.ensureReader
  cases c.reader with
  | none => rfl
  | some r => dsimp only; split <;> rfl

@[simp] theorem connected_book : c.connected.book = c.book :=
  ensureReader_book _

@[simp] theorem endReader_book (r : Nat) : (c.endReader r).book = c.book := rfl

@[simp] theorem loopHead_book (r : Nat) : (c.loopHead r).book = c.book := by
  unfold Client.loopHead
  cases c.ws <;> rfl

end Frames

/-- The table is read off the client's tables. -/
theorem table_of_book {c c' : Client} {phase : κ → Phase}
    (h : c.book = c'.book) :
    World.table ⟨c, phase⟩ = World.table ⟨c', phase⟩ := by
  injection h with hcounter hrest
  injection hrest with hpending hfutures
  rw [World.table, World.table, hcounter, hpending, hfutures]

section Refinement

variable [DecidableEq κ] {text : Json → String} {w w' : World κ} {e : Event κ}

/-- A message for a call the client knows. -/
theorem settle_table (w : World κ) {id : Int} {data : List (String × Json)} {m : Message} (hsize : m.size ≤ maxResponseBytes)
    (hparsed : m.parsed = .json (.obj data)) (hid : (Json.get data "id").asInt = some id) :
    Table.Step text w.table (.received m) (World.table ⟨w.client.settle text id data, w.phase⟩) := by
  unfold Client.settle
  by_cases hmem : id ∈ w.client.pending
  · rw [if_pos hmem]
    cases hfut : w.client.futures id with
    | unset => exact .settle (t := w.table) hmem hfut ⟨hsize, hparsed, hid⟩
    | done r =>
      have hlate : w.table.futures id ≠ .unset :=
        fun h => nomatch hfut.symm.trans h
      exact .late hlate
    | cancelled =>
      have hlate : w.table.futures id ≠ .unset :=
        fun h => nomatch hfut.symm.trans h
      exact .late hlate
  · rw [if_neg hmem]
    exact .silent trivial

/-- Dispatching a message is one step of the table. -/
theorem dispatch_table (w : World κ) {data : Json} {m : Message} (hsize : m.size ≤ maxResponseBytes)
    (hparsed : m.parsed = .json data) :
    Table.Step text w.table (.received m) (World.table ⟨w.client.dispatch text data, w.phase⟩) := by
  cases data with
  | obj data =>
    rw [Client.dispatch]
    cases hid : (Json.get data "id").asInt with
    | none => exact .silent trivial
    | some id => exact settle_table w hsize hparsed hid
  | _ => exact .silent trivial

/-- A turn of the reader, whatever the message. -/
theorem receive_table (w : World κ) (r : Nat) (m : Message) :
    Table.Step text w.table (.received m) (World.table ⟨w.client.receive text r m, w.phase⟩) := by
  unfold Client.receive
  by_cases hsize : maxResponseBytes < m.size
  · rw [if_pos hsize]
    exact .failAll trivial
  · rw [if_neg hsize]
    cases hparsed : m.parsed with
    | raises => exact .silent trivial
    | notJson =>
      dsimp only
      rw [table_of_book (loopHead_book w.client r)]
      exact .silent trivial
    | json data =>
      dsimp only
      rw [table_of_book (loopHead_book (w.client.dispatch text data) r)]
      exact dispatch_table w (Nat.le_of_not_lt hsize) hparsed

/-- The connection makes the moves of the table and no others. -/
theorem Step.table (h : Step text w e w') : Table.Step text w.table e w'.table := by
  -- steps of the connection are silent, those of a call and of the reader are
  -- the table's
  cases h with
  | enter hidle hws => exact .call hidle (.inl rfl)
  | enterConnected hidle hws =>
    rw [World.go, table_of_book (ensureReader_book _)]
    exact .call hidle (.inr rfl)
  | connect hphase =>
    rw [World.go, table_of_book (connected_book _)]
    exact .ready hphase
  | connectFails hphase =>
    exact .abandon (by rw [show w.table.phase _ = _ from hphase]; trivial)
  | register hphase => exact .register hphase
  | lock hphase hlock hws => exact .lock hphase
  | write hphase => exact .write hphase
  | sent hphase => exact .sent hphase
  | unavailable hphase hlock hws =>
    exact .finish (by rw [show w.table.phase _ = _ from hphase]; rfl)
      (.inl ⟨_, rfl⟩)
  | sendFails hphase hlocked hmsg => exact .finish hphase (.inl ⟨_, rfl⟩)
  | answered hphase hfut =>
    exact .finish (by rw [show w.table.phase _ = _ from hphase]; rfl)
      (.inr hfut)
  | expire hphase hfut => exact .expire hphase hfut
  | timeoutDone hphase hfut =>
    exact .finish (by rw [show w.table.phase _ = _ from hphase]; rfl)
      (.inl ⟨_, rfl⟩)
  | timeout hphase =>
    exact .finish (by rw [show w.table.phase _ = _ from hphase]; rfl)
      (.inl ⟨_, rfl⟩)
  | cancelEarly hphase => exact .abandon hphase
  | cancel hphase => exact .finish hphase (.inl ⟨_, rfl⟩)
  | readerStarts hr =>
    rw [table_of_book (loopHead_book _ _)]
    exact .silent trivial
  | receive hr m => exact receive_table w _ m
  | lost hr => exact .failAll trivial
  | readerCancelled hr => exact .failAll trivial
  | readerUnstarted hr => exact .silent trivial
  | closeReader => exact .silent trivial
  | closeSocket => exact .failAll trivial

end Refinement

/-! ## What is known of the calls -/

section Invariants

variable {es : List (Event κ)} {t t' : Table κ} {e ev : Event κ}
  {text : Json → String}

/-- What the history says of the calls that are in flight. -/
structure Registered (es : List (Event κ)) (t : Table κ) : Prop where
  called : ∀ k req, (t.phase k).request = some req → .called k req ∈ es
  begun : ∀ k req, .called k req ∈ es → t.phase k ≠ .idle
  once : ∀ k req req', .called k req ∈ es → .called k req' ∈ es → req = req'
  asked : ∀ k id req, .registered k id req ∈ es → .called k req ∈ es
  counted : ∀ k id req, .registered k id req ∈ es → id ≤ t.counter
  single : ∀ k k' id req req', .registered k id req ∈ es →
    .registered k' id req' ∈ es → k = k'
  holds : ∀ k id, (t.phase k).id = some id → ∃ req, .registered k id req ∈ es
  known : ∀ id ∈ t.pending, ∃ k req, .registered k id req ∈ es
  sent : ∀ k payload, .sent k payload ∈ es →
    ∃ id req, .registered k id req ∈ es ∧ payload = req.payload id

/-- A phase that brings nothing that was not there in `p`. -/
structure Phase.Follows (p p' : Phase) : Prop where
  request : ∀ req, p'.request = some req → p.request = some req
  id : ∀ id, p'.id = some id → p.id = some id
  idle : p' = .idle → p = .idle

theorem Phase.Follows.rfl {p : Phase} : p.Follows p :=
  ⟨fun _ h => h, fun _ h => h, fun h => h⟩

/-- A silent event adds nothing that speaks. -/
theorem of_mem_silent (hmem : e ∈ es ++ [ev]) (hev : ev.Silent)
    (he : ¬ e.Silent) : e ∈ es := by
  rcases List.mem_append.mp hmem with hmem | hmem
  · exact hmem
  · rw [List.mem_singleton.mp hmem] at he
    exact absurd hev he

variable [DecidableEq κ]

/-- The call that moves is in its new phase. -/
theorem go_same (t : Table κ) (k : κ) (p : Phase) : (t.go k p).phase k = p := by
  simp [Table.go]

theorem go_other (t : Table κ) {k k' : κ} (p : Phase) (h : k' ≠ k) :
    (t.go k p).phase k' = t.phase k' := by
  simp [Table.go, h]

/-- One call moves on, the others stay. -/
theorem go_follows {k : κ} {p : Phase} (h : (t.phase k).Follows p) (k' : κ) :
    (t.phase k').Follows ((t.go k p).phase k') := by
  by_cases hk : k' = k
  · rw [hk, go_same]
    exact h
  · rw [go_other t p hk]
    exact .rfl

omit [DecidableEq κ] in
/-- A move that registers nothing. -/
theorem Registered.frame (h : Registered es t) (hev : ev.Silent)
    (hcounter : t'.counter = t.counter)
    (hpending : ∀ id ∈ t'.pending, id ∈ t.pending)
    (hphase : ∀ k, (t.phase k).Follows (t'.phase k)) :
    Registered (es ++ [ev]) t' := by
  -- field by field: each speaks of events that are not silent
  constructor
  · intro k req hreq
    exact List.mem_append_left _ (h.called k req ((hphase k).request req hreq))
  · intro k req hmem hidle
    exact h.begun k req (of_mem_silent hmem hev not_false)
      ((hphase k).idle hidle)
  · intro k req req' hmem hmem'
    exact h.once k req req' (of_mem_silent hmem hev not_false)
      (of_mem_silent hmem' hev not_false)
  · intro k id req hmem
    exact List.mem_append_left _
      (h.asked k id req (of_mem_silent hmem hev not_false))
  · intro k id req hmem
    rw [hcounter]
    exact h.counted k id req (of_mem_silent hmem hev not_false)
  · intro k k' id req req' hmem hmem'
    exact h.single k k' id req req' (of_mem_silent hmem hev not_false)
      (of_mem_silent hmem' hev not_false)
  · intro k id hid
    obtain ⟨req, hmem⟩ := h.holds k id ((hphase k).id id hid)
    exact ⟨req, List.mem_append_left _ hmem⟩
  · intro id hid
    obtain ⟨k, req, hmem⟩ := h.known id (hpending id hid)
    exact ⟨k, req, List.mem_append_left _ hmem⟩
  · intro k payload hmem
    obtain ⟨id, req, hreg, hpayload⟩ :=
      h.sent k payload (of_mem_silent hmem hev not_false)
    exact ⟨id, req, List.mem_append_left _ hreg, hpayload⟩

/-- A call begins. -/
theorem Registered.call {k : κ} {req : Request} {p : Phase}
    (h : Registered es t) (hidle : t.phase k = .idle)
    (hp : p = .connecting req ∨ p = .ready req) :
    Registered (es ++ [.called k req]) (t.go k p) := by
  have hreq : ∀ req', p.request = some req' → req' = req := by
    rcases hp with rfl | rfl <;> rintro req' h' <;> cases h' <;> rfl
  have hnoid : p.id = none := by rcases hp with rfl | rfl <;> rfl
  have hnew : ∀ k' req', Event.called k' req' ∈ es ++ [.called k req] →
      .called k' req' ∈ es ∨ k' = k ∧ req' = req := by
    intro k' req' hmem
    simpa using hmem
  -- an idle call has asked for nothing yet
  have hold : ∀ req', Event.called k req' ∉ es :=
    fun req' hmem => h.begun k req' hmem hidle
  constructor
  · intro k' req' hreq'
    by_cases hk : k' = k
    · subst hk
      rw [go_same] at hreq'
      rw [hreq req' hreq']
      simp
    · rw [go_other t p hk] at hreq'
      exact List.mem_append_left _ (h.called k' req' hreq')
  · intro k' req' hmem
    by_cases hk : k' = k
    · subst hk
      rw [go_same]
      rcases hp with rfl | rfl <;> nofun
    · rw [go_other t p hk]
      exact h.begun k' req'
        ((hnew k' req' hmem).resolve_right fun hkr => hk hkr.1)
  · intro k' req₁ req₂ h₁ h₂
    rcases hnew _ _ h₁ with h₁ | ⟨rfl, rfl⟩ <;>
      rcases hnew _ _ h₂ with h₂ | ⟨hk, hr⟩
    · exact h.once _ _ _ h₁ h₂
    · exact absurd (hk ▸ h₁) (hold _)
    · exact absurd h₂ (hold _)
    · exact hr.symm
  · intro k' id req' hmem
    have hmem : Event.registered k' id req' ∈ es := by simpa using hmem
    exact List.mem_append_left _ (h.asked k' id req' hmem)
  · intro k' id req' hmem
    have hmem : Event.registered k' id req' ∈ es := by simpa using hmem
    exact h.counted k' id req' hmem
  · intro k₁ k₂ id req₁ req₂ h₁ h₂
    exact h.single k₁ k₂ id req₁ req₂ (by simpa using h₁) (by simpa using h₂)
  · intro k' id hid
    by_cases hk : k' = k
    · rw [hk, go_same, hnoid] at hid
      cases hid
    · rw [go_other t p hk] at hid
      obtain ⟨req', hmem⟩ := h.holds k' id hid
      exact ⟨req', List.mem_append_left _ hmem⟩
  · intro id hid
    obtain ⟨k', req', hmem⟩ := h.known id hid
    exact ⟨k', req', List.mem_append_left _ hmem⟩
  · intro k' payload hmem
    have hmem : Event.sent k' payload ∈ es := by simpa using hmem
    obtain ⟨id, req', hreg, hpayload⟩ := h.sent k' payload hmem
    exact ⟨id, req', List.mem_append_left _ hreg, hpayload⟩

/-- A call is given the next id. -/
theorem Registered.register {k : κ} {req : Request} (h : Registered es t)
    (hphase : t.phase k = .ready req) (hcounter : t'.counter = t.counter + 1)
    (hpending : t'.pending = (t.counter + 1) :: t.pending)
    (ht' : t'.phase = t.phase) :
    Registered (es ++ [.registered k (t.counter + 1) req])
      (t'.go k (.sending (t.counter + 1) req)) := by
  have hreq : .called k req ∈ es := h.called k req (by rw [hphase]; rfl)
  -- only call `k` has a new id, which no other call can have
  have hother : ∀ k', k' ≠ k →
      (t'.go k (.sending (t.counter + 1) req)).phase k' = t.phase k' :=
      fun k' hk => by
    rw [go_other t' _ hk, ht']
  have hmine : .registered k (t.counter + 1) req ∈
      es ++ [.registered k (t.counter + 1) req] := by simp
  have hnew : ∀ k' id req', Event.registered k' id req' ∈
      es ++ [.registered k (t.counter + 1) req] →
      .registered k' id req' ∈ es ∨ k' = k ∧ id = t.counter + 1 ∧
        req' = req := by
    intro k' id req' hmem
    simpa using hmem
  constructor
  · intro k' req' hreq'
    by_cases hk : k' = k
    · subst hk
      rw [go_same] at hreq'
      cases hreq'
      exact List.mem_append_left _ hreq
    · rw [hother k' hk] at hreq'
      exact List.mem_append_left _ (h.called k' req' hreq')
  · intro k' req' hmem
    by_cases hk : k' = k
    · subst hk
      rw [go_same]
      nofun
    · rw [hother k' hk]
      exact h.begun k' req' (by simpa using hmem)
  · intro k' req₁ req₂ h₁ h₂
    exact h.once k' req₁ req₂ (by simpa using h₁) (by simpa using h₂)
  · intro k' id req' hmem
    rcases hnew k' id req' hmem with hmem | ⟨rfl, -, rfl⟩
    · exact List.mem_append_left _ (h.asked k' id req' hmem)
    · exact List.mem_append_left _ hreq
  · intro k' id req' hmem
    show id ≤ t'.counter
    rcases hnew k' id req' hmem with hmem | ⟨-, rfl, -⟩
    · have := h.counted k' id req' hmem
      omega
    · omega
  · intro k₁ k₂ id req₁ req₂ h₁ h₂
    rcases hnew _ _ _ h₁ with h₁ | ⟨hk, hid, -⟩ <;>
      rcases hnew _ _ _ h₂ with h₂ | ⟨hk', hid', -⟩
    · exact h.single k₁ k₂ id req₁ req₂ h₁ h₂
    · have := h.counted k₁ id req₁ h₁
      omega
    · have := h.counted k₂ id req₂ h₂
      omega
    · rw [hk, hk']
  · intro k' id hid
    by_cases hk : k' = k
    · subst hk
      rw [go_same] at hid
      cases hid
      exact ⟨req, hmine⟩
    · rw [hother k' hk] at hid
      obtain ⟨req', hmem⟩ := h.holds k' id hid
      exact ⟨req', List.mem_append_left _ hmem⟩
  · intro id hid
    have hid : id ∈ t'.pending := hid
    rw [hpending] at hid
    rcases List.mem_cons.mp hid with rfl | hid
    · exact ⟨k, req, hmine⟩
    · obtain ⟨k', req', hmem⟩ := h.known id hid
      exact ⟨k', req', List.mem_append_left _ hmem⟩
  · intro k' payload hmem
    obtain ⟨id, req', hreg, hpayload⟩ := h.sent k' payload (by simpa using hmem)
    exact ⟨id, req', List.mem_append_left _ hreg, hpayload⟩

/-- A call sends the payload of what it is registered for. -/
theorem Registered.write {k : κ} {id : Int} {req : Request}
    (h : Registered es t) (hphase : t.phase k = .writing id req) :
    Registered (es ++ [.sent k (req.payload id)]) (t.go k (.written id)) := by
  have hfollows := go_follows (t := t) (p := .written id) (k := k) (by
    rw [hphase]
    exact ⟨nofun, fun _ h => h, nofun⟩)
  constructor
  · intro k' req' hreq'
    exact List.mem_append_left _
      (h.called k' req' ((hfollows k').request req' hreq'))
  · intro k' req' hmem hidle
    exact h.begun k' req' (by simpa using hmem) ((hfollows k').idle hidle)
  · intro k' req₁ req₂ h₁ h₂
    exact h.once k' req₁ req₂ (by simpa using h₁) (by simpa using h₂)
  · intro k' id' req' hmem
    exact List.mem_append_left _ (h.asked k' id' req' (by simpa using hmem))
  · intro k' id' req' hmem
    exact h.counted k' id' req' (by simpa using hmem)
  · intro k₁ k₂ id' req₁ req₂ h₁ h₂
    exact h.single k₁ k₂ id' req₁ req₂ (by simpa using h₁) (by simpa using h₂)
  · intro k' id' hid
    obtain ⟨req', hmem⟩ := h.holds k' id' ((hfollows k').id id' hid)
    exact ⟨req', List.mem_append_left _ hmem⟩
  · intro id' hid
    obtain ⟨k', req', hmem⟩ := h.known id' hid
    exact ⟨k', req', List.mem_append_left _ hmem⟩
  · intro k' payload hmem
    have hmem : .sent k' payload ∈ es ∨
        k' = k ∧ payload = req.payload id := by simpa using hmem
    rcases hmem with hmem | ⟨rfl, rfl⟩
    · obtain ⟨id', req', hreg, hpayload⟩ := h.sent k' payload hmem
      exact ⟨id', req', List.mem_append_left _ hreg, hpayload⟩
    · obtain ⟨req', hreg⟩ := h.holds k' id (by rw [hphase]; rfl)
      have hsame : req' = req := h.once k' req' req (h.asked k' id req' hreg)
        (h.called k' req (by rw [hphase]; rfl))
      exact ⟨id, req, List.mem_append_left _ (hsame ▸ hreg), rfl⟩

/-- Every step keeps the requests registered. -/
theorem Registered.step (h : Registered es t) (hstep : Table.Step text t e t') : Registered (es ++ [e]) t' := by
  -- a call makes an event, and no other step adds or drops a request
  cases hstep with
  | call hidle hp => exact h.call hidle hp
  | ready hphase =>
    refine h.frame trivial rfl (fun _ hid => hid) (go_follows ?_)
    rw [hphase]
    exact ⟨fun _ h => h, nofun, nofun⟩
  | abandon hphase =>
    exact h.frame trivial rfl (fun _ hid => hid) (go_follows ⟨nofun,
      nofun, nofun⟩)
  | register hphase => exact h.register hphase rfl rfl rfl
  | lock hphase =>
    refine h.frame trivial rfl (fun _ hid => hid) (go_follows ?_)
    rw [hphase]
    exact ⟨fun _ h => h, fun _ h => h, nofun⟩
  | write hphase => exact h.write hphase
  | sent hphase =>
    refine h.frame trivial rfl (fun _ hid => hid) (go_follows ?_)
    rw [hphase]
    exact ⟨nofun, fun _ h => h, nofun⟩
  | finish hphase hr =>
    exact h.frame trivial rfl (fun _ hid => List.mem_of_mem_erase hid)
      (go_follows (t := { t with pending := _ }) ⟨nofun, nofun, nofun⟩)
  | expire hphase hfut =>
    refine h.frame trivial rfl (fun _ hid => hid)
      (go_follows (t := { t with futures := _ }) ?_)
    show (t.phase _).Follows _
    rw [hphase]
    exact ⟨nofun, fun _ h => h, nofun⟩
  | settle hmem hfut hm =>
    exact h.frame trivial rfl (fun _ hid => List.mem_of_mem_erase hid) fun _ =>
      .rfl
  | late hfut =>
    exact h.frame trivial rfl (fun _ hid => List.mem_of_mem_erase hid) fun _ =>
      .rfl
  | failAll hev =>
    exact h.frame hev rfl (fun _ hid => nomatch hid) fun _ => .rfl
  | silent hev => exact h.frame hev rfl (fun _ hid => hid) fun _ => .rfl

/-! ## What an answer is -/

/-- `id` is given to some call. -/
def Event.Registers (id : Int) (e : Event κ) : Prop :=
  ∃ k req, e = .registered k id req

/-- A message for `id` with result `v`. -/
def Event.Carries (text : Json → String) (id : Int) (v : Json)
    (e : Event κ) : Prop :=
  ∃ m, e = .received m ∧ m.Answers text id v

/-- The id was given first, and the message came after. -/
def Answered (text : Json → String) (id : Int) (v : Json)
    (es : List (Event κ)) : Prop :=
  Precedes (Event.Registers id) (Event.Carries text id v) es

/-- Where the results in the table come from. -/
structure Settled (text : Json → String) (es : List (Event κ))
    (t : Table κ) : Prop where
  future : ∀ id v, t.futures id = .done (.ok v) → Answered text id v es
  finished : ∀ k v, t.phase k = .finished (.ok v) →
    ∃ id req, .registered k id req ∈ es ∧ Answered text id v es

omit [DecidableEq κ] in
/-- A move that gives no result. -/
theorem Settled.frame (h : Settled text es t) (hfut : ∀ id v,
      t'.futures id = .done (.ok v) → t.futures id = .done (.ok v))
    (hphase : ∀ k v, t'.phase k = .finished (.ok v) →
      t.phase k = .finished (.ok v)) : Settled text (es ++ [e]) t' := by
  constructor
  · intro id v hid
    exact (h.future id v (hfut id v hid)).append [e]
  · intro k v hk
    obtain ⟨id, req, hreg, hans⟩ := h.finished k v (hphase k v hk)
    exact ⟨id, req, List.mem_append_left _ hreg, hans.append [e]⟩

/-- A finished call stays finished. -/
theorem go_unfinished {k : κ} {p : Phase} (hp : ∀ v, p ≠ .finished (.ok v))
    (k' : κ) (v : Json)
    (h : (t.go k p).phase k' = .finished (.ok v)) :
    t.phase k' = .finished (.ok v) := by
  by_cases hk : k' = k
  · rw [hk, go_same] at h
    exact absurd h (hp v)
  · rwa [go_other t p hk] at h

/-- Setting a future that is not a result leaves results alone. -/
theorem update_unset {f : Int → Fut} {id id' : Int} {fut : Fut}
    {v : Json} (hfut : fut = .unset ∨ fut = .cancelled)
    (h : Function.update f id fut id' = .done (.ok v)) :
    f id' = .done (.ok v) := by
  by_cases hid : id' = id
  · rw [hid, Function.update_self] at h
    rcases hfut with rfl | rfl <;> cases h
  · rwa [Function.update_of_ne hid] at h

/-- Every step keeps results matched to replies. -/
theorem Settled.step (hreg : Registered es t) (h : Settled text es t) (hstep : Table.Step text t e t') :
    Settled text (es ++ [e]) t' := by
  -- only a reply settles a future, and only a settled future finishes a call
  cases hstep with
  | call hidle hp =>
    exact h.frame (fun _ _ h => h)
      (go_unfinished (by rcases hp with rfl | rfl <;> nofun))
  | ready hphase => exact h.frame (fun _ _ h => h) (go_unfinished nofun)
  | abandon hphase => exact h.frame (fun _ _ h => h) (go_unfinished nofun)
  | register hphase =>
    exact h.frame (fun _ _ h => update_unset (.inl rfl) h)
      (go_unfinished (t := ⟨_, _, _, t.phase⟩) nofun)
  | lock hphase => exact h.frame (fun _ _ h => h) (go_unfinished nofun)
  | write hphase => exact h.frame (fun _ _ h => h) (go_unfinished nofun)
  | sent hphase => exact h.frame (fun _ _ h => h) (go_unfinished nofun)
  | @finish k id r hphase hr =>
    refine ⟨fun id v hid => (h.future id v hid).append _, fun k' v hk' => ?_⟩
    by_cases hk : k' = k
    · subst hk
      rw [go_same] at hk'
      obtain ⟨req, hmem⟩ := hreg.holds k' id hphase
      rcases hr with ⟨err, rfl⟩ | hr
      · cases hk'
      · cases hk'
        exact ⟨id, req, List.mem_append_left _ hmem,
          (h.future id v hr).append _⟩
    · rw [go_other _ _ hk] at hk'
      obtain ⟨id', req, hmem, hans⟩ := h.finished k' v hk'
      exact ⟨id', req, List.mem_append_left _ hmem, hans.append _⟩
  | expire hphase hfut =>
    exact h.frame (fun _ _ h => update_unset (.inr rfl) h)
      (go_unfinished (t := ⟨_, _, _, t.phase⟩) nofun)
  | @settle id data m hmem hfut hm =>
    refine ⟨fun id' v hid => ?_, fun k v hk => ?_⟩
    · by_cases hsame : id' = id
      · subst hsame
        have hid : answer text data = .ok v := by simpa using hid
        obtain ⟨k, req, hk⟩ := hreg.known id' hmem
        exact .snoc hk ⟨k, req, rfl⟩ ⟨m, rfl, hm.1, data, hm.2.1, hm.2.2, hid⟩
      · have hid : t.futures id' = .done (.ok v) := by simpa [hsame] using hid
        exact (h.future id' v hid).append _
    · obtain ⟨id', req, hmem, hans⟩ := h.finished k v hk
      exact ⟨id', req, List.mem_append_left _ hmem, hans.append _⟩
  | late hfut => exact h.frame (fun _ _ h => h) fun _ _ h => h
  | failAll hev =>
    refine h.frame (fun id v hid => ?_) fun _ _ h => h
    have hid : (match t.futures id with | .unset => _ | f => f) =
        Fut.done (.ok v) := hid
    cases hfut : t.futures id with
    | unset =>
      rw [hfut] at hid
      dsimp only at hid
      split at hid <;> cases hid
    | done r => rwa [hfut] at hid
    | cancelled =>
      rw [hfut] at hid
      cases hid
  | silent hev => exact h.frame (fun _ _ h => h) fun _ _ h => h

/-! ## What is pending -/

/-- `_pending` holds the calls in flight whose future is unset, and nothing that
no call in flight registered. -/
structure Tracked (t : Table κ) : Prop where
  nodup : t.pending.Nodup
  owned : ∀ id ∈ t.pending, ∃ k, (t.phase k).id = some id
  kept : ∀ k id, (t.phase k).id = some id → t.futures id = .unset →
    id ∈ t.pending

omit [DecidableEq κ] in
/-- Two calls in flight have two ids. -/
theorem Registered.apart (h : Registered es t) {k k' : κ} {id : Int}
    (hk : (t.phase k).id = some id)
    (hk' : (t.phase k').id = some id) : k = k' := by
  obtain ⟨req, hreg⟩ := h.holds k id hk
  obtain ⟨req', hreg'⟩ := h.holds k' id hk'
  exact h.single k k' id req req' hreg hreg'

/-- A call that goes on without changing its id. -/
theorem Tracked.go {k : κ} {p : Phase} (h : Tracked t)
    (hp : p.id = (t.phase k).id) : Tracked (t.go k p) := by
  have hid : ∀ k', ((t.go k p).phase k').id = (t.phase k').id := by
    intro k'
    by_cases hk : k' = k
    · rw [hk, go_same, hp]
    · rw [go_other t p hk]
  refine ⟨h.nodup, fun id hmem => ?_, fun k' id hk' => ?_⟩
  · obtain ⟨k', hk'⟩ := h.owned id hmem
    exact ⟨k', (hid k').trans hk'⟩
  · exact h.kept k' id ((hid k').symm.trans hk')

omit [DecidableEq κ] in
/-- An id whose future is not unset leaves the table. -/
theorem Tracked.erase {id : Int} {futures : Int → Fut} (h : Tracked t)
    (hid : futures id ≠ .unset)
    (hother : ∀ id', futures id' = .unset → t.futures id' = .unset) :
    Tracked { t with pending := t.pending.erase id, futures := futures } := by
  refine ⟨h.nodup.erase id, fun id' hmem =>
    h.owned id' (List.mem_of_mem_erase hmem), fun k id' hk hfut => ?_⟩
  have hne : id' ≠ id := fun hsame => hid (hsame ▸ hfut)
  exact (List.mem_erase_of_ne hne).mpr (h.kept k id' hk (hother id' hfut))

/-- Registering keeps the pending table in step with the calls. -/
theorem Tracked.register {k : κ} {req : Request} (hreg : Registered es t)
    (h : Tracked t) (hphase : t.phase k = .ready req) : Tracked ({ t with
      counter := t.counter + 1
      pending := (t.counter + 1) :: t.pending
      futures := Function.update t.futures (t.counter + 1) .unset }.go k (.sending (t.counter + 1) req)) := by
  have hfresh : t.counter + 1 ∉ t.pending := fun hmem => by
    obtain ⟨k', req', hk'⟩ := hreg.known _ hmem
    have := hreg.counted k' _ req' hk'
    omega
  refine ⟨List.nodup_cons.mpr ⟨hfresh, h.nodup⟩, fun id hmem => ?_,
    fun k' id hk' hfut => ?_⟩
  · rcases List.mem_cons.mp hmem with rfl | hmem
    · exact ⟨k, by rw [go_same]; rfl⟩
    · obtain ⟨k', hk'⟩ := h.owned id hmem
      have hne : k' ≠ k := by
        rintro rfl
        rw [hphase] at hk'
        cases hk'
      exact ⟨k', by rw [go_other _ _ hne]; exact hk'⟩
  · by_cases hk : k' = k
    · rw [hk, go_same] at hk'
      cases hk'
      exact List.mem_cons_self
    · rw [go_other _ _ hk] at hk'
      obtain ⟨req', hmem⟩ := hreg.holds k' id hk'
      have hle := hreg.counted k' id req' hmem
      have hne : id ≠ t.counter + 1 := by omega
      have hfut : Function.update t.futures (t.counter + 1) .unset id =
          .unset := hfut
      rw [Function.update_of_ne hne] at hfut
      exact List.mem_cons_of_mem _ (h.kept k' id hk' hfut)

theorem Tracked.finish {k : κ} {id : Int} {r : Except PyErr Json}
    (hreg : Registered es t) (h : Tracked t)
    (hphase : (t.phase k).id = some id) :
    Tracked ({ t with pending := t.pending.erase id }.go k (.finished r)) := by
  refine ⟨h.nodup.erase id, fun id' hmem => ?_, fun k' id' hk' hfut => ?_⟩
  · obtain ⟨hne, hmem⟩ := h.nodup.mem_erase_iff.mp hmem
    obtain ⟨k', hk'⟩ := h.owned id' hmem
    have hk : k' ≠ k := by
      rintro rfl
      exact hne (Option.some.inj (hk'.symm.trans hphase))
    exact ⟨k', by rw [go_other _ _ hk]; exact hk'⟩
  · by_cases hk : k' = k
    · rw [hk, go_same] at hk'
      cases hk'
    · rw [go_other _ _ hk] at hk'
      have hne : id' ≠ id := fun hsame => hk (hreg.apart (hsame ▸ hk') hphase)
      exact (List.mem_erase_of_ne hne).mpr (h.kept k' id' hk' hfut)

theorem Tracked.step (hreg : Registered es t) (h : Tracked t) (hstep : Table.Step text t e t') : Tracked t' := by
  -- the pending table changes only where a call registers, finishes or is
  -- answered
  cases hstep with
  | call hidle hp =>
    exact h.go (by rw [hidle]; rcases hp with rfl | rfl <;> rfl)
  | ready hphase => exact h.go (by rw [hphase]; rfl)
  | @abandon k err hphase =>
    refine h.go ?_
    cases hk : t.phase k with
    | idle | connecting | ready | finished => rfl
    | sending | writing | written | waiting | expired =>
      rw [hk] at hphase
      exact hphase.elim
  | register hphase => exact h.register hreg hphase
  | lock hphase => exact h.go (by rw [hphase]; rfl)
  | write hphase => exact h.go (by rw [hphase]; rfl)
  | sent hphase => exact h.go (by rw [hphase]; rfl)
  | finish hphase hr => exact h.finish hreg hphase
  | @expire k id hphase hfut =>
    refine Tracked.go (t :=
      { t with futures := Function.update t.futures id .cancelled }) ⟨h.nodup,
      h.owned, ?_⟩ ?_
    · intro k' id' hk' hfut'
      have hfut' : Function.update t.futures id .cancelled id' = .unset := hfut'
      by_cases hid : id' = id
      · rw [hid, Function.update_self] at hfut'
        cases hfut'
      · rw [Function.update_of_ne hid] at hfut'
        exact h.kept k' id' hk' hfut'
    · show _ = (t.phase k).id
      rw [hphase]
      rfl
  | @settle id data m hmem hfut hm =>
    refine h.erase (by rw [Function.update_self]; nofun) fun id' hid' => ?_
    by_cases hid : id' = id
    · rw [hid, Function.update_self] at hid'
      cases hid'
    · rwa [Function.update_of_ne hid] at hid'
  | late hfut => exact h.erase hfut fun _ hid => hid
  | failAll hev =>
    refine ⟨List.nodup_nil, nofun, fun k id hk hfut => ?_⟩
    have hfut : (match t.futures id with | .unset => if id ∈ t.pending then Fut.done _ else .unset | f => f) = .unset := hfut
    cases hold : t.futures id with
    | unset =>
      rw [hold] at hfut
      dsimp only at hfut
      rw [if_pos (h.kept k id hk hold)] at hfut
      cases hfut
    | done r => rw [hold] at hfut; cases hfut
    | cancelled => rw [hold] at hfut; cases hfut
  | silent hev => exact h

/-! ## Every run -/

variable {w : World κ}

/-- So all three hold along every run. -/
theorem run_table (h : History (Step text) World.init es w) :
    Registered es w.table ∧ Settled text es w.table ∧ Tracked w.table := by
  refine History.invariant (I := fun es w => Registered es (World.table w) ∧
    Settled text es w.table ∧ Tracked w.table) ?_ ?_ h
  · exact ⟨⟨nofun, nofun, nofun, nofun, nofun, nofun, nofun, nofun, nofun⟩,
      ⟨nofun, nofun⟩, ⟨List.nodup_nil, nofun, nofun⟩⟩
  · rintro es w e w' ⟨hreg, hset, htrack⟩ hstep
    have hmove := hstep.table
    exact ⟨hreg.step hmove, hset.step hreg hmove, htrack.step hreg hmove⟩

omit [DecidableEq κ] in
/-- The id is the call's own. -/
theorem Registered.own {k : κ} {id : Int} {req : Request} {v : Json}
    (h : Registered es t)
    (hreg : .registered k id req ∈ es) (hans : Answered text id v es) :
    Precedes (· = Event.registered k id req) (Event.Carries text id v) es := by
  refine hans.mono (fun e hmem he => ?_) fun _ he => he
  obtain ⟨k', req', rfl⟩ := he
  obtain rfl := h.single k' k id req' req hmem hreg
  rw [h.once k' req' req (h.asked k' id req' hmem) (h.asked k' id req hreg)]

/-- **No call gets another call's answer**, whatever the server sends, in
whatever order: a result is that of a message with the id the call was
registered under before the message came, and no two calls share an id. What was
sent for a call is its own request, under that id. -/
theorem calls_correlated (h : History (Step text) World.init es w) :
    (∀ k v, w.phase k = .finished (.ok v) → ∃ id req, .called k req ∈ es ∧
      Precedes (· = Event.registered k id req) (Event.Carries text id v) es) ∧
    (∀ k k' id req req', .registered k id req ∈ es →
      .registered k' id req' ∈ es → k = k' ∧ req = req') ∧
    ∀ k payload, .sent k payload ∈ es → ∃ id req, .registered k id req ∈ es ∧
    payload = req.payload id := by
  obtain ⟨hreg, hset, -⟩ := run_table h
  refine ⟨fun k v hk => ?_, fun k k' id req req' hmem hmem' => ?_, hreg.sent⟩
  · obtain ⟨id, req, hmem, hans⟩ := hset.finished k v hk
    exact ⟨id, req, hreg.asked k id req hmem, hreg.own hmem hans⟩
  · obtain rfl := hreg.single k k' id req req' hmem hmem'
    exact ⟨rfl, hreg.once k req req' (hreg.asked k id req hmem)
      (hreg.asked k id req' hmem')⟩

/-! Two calls at once, answered in the other order. -/

/-- The call that asks for method `m`. -/
def asks (m : String) : Request := ⟨m, []⟩

/-- A reply to `id`. -/
def reply (id : Int) (v : String) : Message :=
  ⟨0, .json (.obj [("id", .int id), ("result", .str v)])⟩

def crossedEvents : List (Event Bool) :=
  [.called false (asks "a"), .internal, .called true (asks "b"),
    .registered false 1 (asks "a"),
    .registered true 2 (asks "b"), .internal,
      .sent false ((asks "a").payload 1), .internal, .internal,
    .sent true ((asks "b").payload 2), .internal, .internal,
      .received (reply 2 "b"), .received (reply 1 "a"), .internal]

/-- The first call has returned, the second one has not been resumed yet. -/
theorem crossed_run (text : Json → String) :
    ∃ w, History (Step text) World.init crossedEvents w ∧
    w.phase false = .finished (.ok (.str "a")) ∧ (w.phase true).id = some 2 ∧
    w.client.pending = [] := by
  refine ⟨_,
    .cons (.enter (k := false) rfl rfl) (.cons (.connect (k := false) rfl)
    (.cons (.enterConnected (k := true) rfl rfl) (.cons (.register (k := false)
      rfl) (.cons (.register (k := true) rfl) (.cons (.lock (k := false) rfl ?_
      rfl) (.cons (.write (k := false) rfl) (.cons (.sent (k := false) rfl)
    (.cons (.lock (k := true) rfl ?_ rfl)
      (.cons (.write (k := true) rfl) (.cons (.sent (k := true) rfl)
    (.cons (.readerStarts (r := 0) rfl)
      (.cons (.receive (r := 0) rfl _) (.cons (.receive (r := 0) rfl _)
    (.cons (.answered (k := false) rfl rfl) .start)))))))))))))), rfl, rfl, rfl⟩
  · intro k
    cases k <;> exact not_false
  · intro k
    cases k <;> exact not_false

/-- The first call has the second message. -/
theorem calls_correlated_crossed :
    ∃ id req, Event.called false req ∈ crossedEvents ∧
    Precedes (· = Event.registered false id req)
      (Event.Carries (fun _ => "") id (.str "a")) crossedEvents := by
  obtain ⟨w, hrun, hk, -⟩ := crossed_run fun _ => ""
  exact (calls_correlated hrun).1 false (.str "a") hk

/-- A server whose every answer is one to a request that has been sent with its
id. -/
def Serves (text : Json → String) (serve : Request → Json → Prop)
    (es : List (Event κ)) : Prop :=
  ∀ pre m post, es = pre ++ .received m :: post → ∀ id v, m.Answers text id v →
    ∃ k req, .sent k (req.payload id) ∈ pre ∧ serve req v

/-- **Calls in flight together come out as if each were alone**: from a server
that answers requests, late, twice or out of order, each call has an answer to
its own request. -/
theorem calls_served {serve : Request → Json → Prop}
    (h : History (Step text) World.init es w)
    (hserve : Serves text serve es) {k : κ} {req : Request} {v : Json}
    (hcall : .called k req ∈ es)
    (hk : w.phase k = .finished (.ok v)) : serve req v := by
  obtain ⟨hreg, hset, -⟩ := run_table h
  obtain ⟨id, req', hmem, hans⟩ := hset.finished k v hk
  obtain rfl := hreg.once k req req' hcall (hreg.asked k id req' hmem)
  obtain ⟨pre, e, post, rfl, ⟨m, rfl, hm⟩, -⟩ := hans.exists_second
  obtain ⟨k', req', hsent, hv⟩ := hserve pre m post rfl id v hm
  obtain ⟨id', req'', hmem', hpayload⟩ :=
    hreg.sent k' _ (List.mem_append_left _ hsent)
  obtain ⟨hid, hmethod, hparams⟩ : id = id' ∧ req'.method = req''.method ∧
      req'.params = req''.params := by
    simpa [Request.payload] using hpayload
  subst hid
  obtain rfl := hreg.single k k' id req req'' hmem hmem'
  have hsame : req = req'' :=
    hreg.once k _ _ (hreg.asked k id _ hmem) (hreg.asked k id _ hmem')
  have : req' = req := by
    rw [hsame]
    cases req'
    cases req''
    simp_all
  exact this ▸ hv

/-- A server that answers with the method's name. -/
def Echoes (req : Request) (v : Json) : Prop := v = .str req.method

/-- The sample server echoes what it was sent, in the other order. -/
theorem crossed_serves : Serves (fun _ => "") Echoes crossedEvents := by
  intro pre m post h id v hm
  have hcarry : ∀ i s, (reply i s).Answers (fun _ => "") i (.str s) :=
      fun i s =>
    ⟨Nat.zero_le _, _, rfl, rfl, rfl⟩
  have hcases : (m = reply 2 "b" ∧ .sent true ((asks "b").payload 2) ∈ pre) ∨
      (m = reply 1 "a" ∧ .sent false ((asks "a").payload 1) ∈ pre) := by
    simp [crossedEvents, List.cons_eq_append_iff] at h
    obtain ⟨_, rfl, ⟨rfl, rfl, -⟩ | ⟨rfl, rfl, -⟩⟩ := h <;> simp
  rcases hcases with ⟨rfl, hsent⟩ | ⟨rfl, hsent⟩
  · obtain ⟨rfl, rfl⟩ := hm.unique (hcarry 2 "b")
    exact ⟨true, asks "b", hsent, rfl⟩
  · obtain ⟨rfl, rfl⟩ := hm.unique (hcarry 1 "a")
    exact ⟨false, asks "a", hsent, rfl⟩

theorem calls_served_crossed : Echoes (asks "a") (.str "a") := by
  obtain ⟨w, hrun, hk, -⟩ := crossed_run fun _ => ""
  exact calls_served hrun crossed_serves (by simp [crossedEvents]) hk

/-- **`_pending` neither leaks nor loses a call**: its ids are those of calls in
flight, each once, and a call in flight that is not in it has its outcome
already. -/
theorem pending_exact (h : History (Step text) World.init es w) :
    w.client.pending.Nodup ∧
    (∀ id ∈ w.client.pending, ∃ k, (w.phase k).id = some id) ∧
    ∀ k id, (w.phase k).id = some id → id ∉ w.client.pending →
    w.client.futures id ≠ .unset := by
  obtain ⟨-, -, htrack⟩ := run_table h
  exact ⟨htrack.nodup, htrack.owned,
    fun k id hk hmem hfut => hmem (htrack.kept k id hk hfut)⟩

/-- The second call has its outcome before it is resumed. -/
theorem pending_exact_crossed :
    ∃ w : World Bool, History (Step fun _ => "") World.init crossedEvents w ∧
    (w.phase true).id = some 2 ∧ w.client.futures 2 ≠ .unset ∧
    w.client.pending.Nodup := by
  obtain ⟨w, hrun, -, hid, hpending⟩ := crossed_run fun _ => ""
  have hmem : 2 ∉ w.client.pending := by
    rw [hpending]
    exact List.not_mem_nil
  obtain ⟨hnodup, -, hdone⟩ := pending_exact hrun
  exact ⟨w, hrun, hid, hdone true 2 hid hmem, hnodup⟩

end Invariants

end ElectrumX

end Pyrxd.Network
