import Mathlib.Logic.Function.Basic
import Pyrxd.Lib.History
import Pyrxd.Lib.Json
import Pyrxd.Network.Bitcoin

/-!
# The ElectrumX connection

`ElectrumXClient._call`, `_reader_loop`, `_ensure_connected` and `close` of
`network/electrumx.py`: many calls in flight on one connection, and a reader
that hands each message to the call whose id it carries. What runs between two
awaits is one step here; which call or reader is resumed next, what the server
sends and when a timeout or a cancellation strikes is left open.
-/

namespace Pyrxd.Network

open Pyrxd.Lib

namespace ElectrumX

/-! ## The messages -/

structure Request where
  method : String
  params : List Json

/-- The payload of `_call`. -/
def Request.payload (req : Request) (id : Int) : Json :=
  .obj [("id", .int id), ("method", .str req.method),
    ("params", .arr req.params)]

/-- What `json.loads` makes of a message. -/
inductive Parsed where
  | json (data : Json)
  /-- `JSONDecodeError`. -/
  | notJson
  /-- Any other exception: `RecursionError`, a number of too many digits. -/
  | raises

structure Message where
  size : Nat
  parsed : Parsed

/-- `_MAX_RESPONSE_BYTES`. -/
def maxResponseBytes : Nat := 10 * 1024 * 1024

/-- What the reader sets a future to; `text` is `str`. -/
def answer (text : Json → String) (data : List (String × Json)) :
    Except PyErr Json :=
  match data.lookup "error" with
  | some (.obj err) =>
    networkError ("ElectrumX RPC error (code " ++
      text ((err.lookup "code").getD (.str "unknown")) ++ ")")
  | some .null | none =>
    match data.lookup "result" with
    | some v => .ok v
    | none => networkError "ElectrumX response missing 'result' field"
  | some _ => networkError "ElectrumX RPC error"

/-- The message carries `id` and its result is `v`. -/
def Message.Answers (text : Json → String) (id : Int) (v : Json)
    (m : Message) : Prop :=
  m.size ≤ maxResponseBytes ∧ ∃ data, m.parsed = .json (.obj data) ∧
    (Json.get data "id").asInt = some id ∧
    answer text data = .ok v

/-- A message carries one id and one result. -/
theorem Message.Answers.unique {text : Json → String} {id id' : Int}
    {v v' : Json} {m : Message}
    (h : m.Answers text id v) (h' : m.Answers text id' v') :
    id = id' ∧ v = v' := by
  obtain ⟨-, data, hdata, hid, hv⟩ := h
  obtain ⟨-, data', hdata', hid', hv'⟩ := h'
  rw [hdata] at hdata'
  cases hdata'
  exact ⟨Option.some.inj (hid.symm.trans hid'),
    Except.ok.inj (hv.symm.trans hv')⟩

/-! ## The client -/

inductive Fut where
  | unset
  | done (r : Except PyErr Json)
  | cancelled

/-- A reader task: not made yet, made, at `recv` of a socket, over. -/
inductive Reader where
  | absent
  | starting
  | reading (socket : Nat)
  | ended
deriving DecidableEq

structure Client where
  idCounter : Int
  /-- The socket that `_ws` is. -/
  ws : Option Nat
  sockets : Nat
  /-- The keys of `_pending`; the future of a key is `futures` of it. -/
  pending : List Int
  futures : Int → Fut
  /-- `_reader_task`. -/
  reader : Option Nat
  readers : Nat → Reader
  readerCount : Nat

def Client.init : Client := ⟨0, none, 0, [], fun _ => .unset, none,
  fun _ => .absent, 0⟩

namespace Client

variable (c : Client)

def newReader : Client :=
  { c with
    reader := some c.readerCount
    readers := Function.update c.readers c.readerCount .starting
    readerCount := c.readerCount + 1 }

/-- The second half of `_ensure_connected`. -/
def ensureReader : Client :=
  match c.reader with
  | some r => if c.readers r = .ended then c.newReader else c
  | none => c.newReader

/-- `_ensure_connected`, once `_connect_first` has given a socket. -/
def connected : Client :=
  { c with ws := some c.sockets, sockets := c.sockets + 1 }.ensureReader

/-- `_fail_all_pending`. -/
def failAllPending (e : Except PyErr Json) : Client :=
  { c with
    pending := []
    futures := fun id => match c.futures id with
      | .unset => if id ∈ c.pending then .done e else .unset
      | f => f }

/-- The `finally` of `_reader_loop`. -/
def endReader (r : Nat) : Client :=
  { c with ws := none, readers := Function.update c.readers r .ended }

/-- The head of the loop, down to `recv`. -/
def loopHead (r : Nat) : Client :=
  match c.ws with
  | none => c.endReader r
  | some s => { c with readers := Function.update c.readers r (.reading s) }

/-- A message whose `id` is an `int`. -/
def settle (text : Json → String) (id : Int)
    (data : List (String × Json)) : Client :=
  if id ∈ c.pending then
    match c.futures id with
    | .unset => { c with pending := c.pending.erase id, futures := Function.update c.futures id (.done (answer text data)) }
    | _ => { c with pending := c.pending.erase id }
  else c

/-- A decoded message. -/
def dispatch (text : Json → String) : Json → Client
  | .obj data =>
    match (Json.get data "id").asInt with
    | some id => c.settle text id data
    | none => c
  | _ => c

/-- A turn of the loop from `recv` to the next one. -/
def receive (text : Json → String) (r : Nat) (m : Message) : Client :=
  if maxResponseBytes < m.size then
    (c.failAllPending (networkError
      "ElectrumX response exceeds maximum allowed size")).endReader r
  else match m.parsed with
    | .raises => c.endReader r
    | .notJson => c.loopHead r
    | .json data => (c.dispatch text data).loopHead r

/-- `_next_id`, and the future registered under it. -/
def register : Client :=
  { c with
    idCounter := c.idCounter + 1
    pending := (c.idCounter + 1) :: c.pending
    futures := Function.update c.futures (c.idCounter + 1) .unset }

/-- `self._pending.pop(req_id, None)`. -/
def forget (id : Int) : Client := { c with pending := c.pending.erase id }

end Client

/-! ## The calls -/

/-- Where a call of `_call` has come to. -/
inductive Phase where
  | idle
  /-- In `_connect_first`. -/
  | connecting (req : Request)
  | ready (req : Request)
  /-- At the send lock. -/
  | sending (id : Int) (req : Request)
  /-- In `send`, which has not written yet. -/
  | writing (id : Int) (req : Request)
  /-- In `send` still, and the bytes are out. -/
  | written (id : Int)
  | waiting (id : Int)
  /-- The timeout has cancelled the future. -/
  | expired (id : Int)
  | finished (r : Except PyErr Json)

/-- The request of a call that has not been sent. -/
def Phase.request : Phase → Option Request
  | connecting req | ready req | sending _ req | writing _ req => some req
  | _ => none

/-- The id a call is registered under. -/
def Phase.id : Phase → Option Int
  | sending id _ | writing id _ | written id | waiting id | expired id =>
    some id
  | _ => none

/-- The call holds the send lock. -/
def Phase.Locked : Phase → Prop
  | writing _ _ | written _ => True
  | _ => False

/-- Before the call has an id. -/
def Phase.Fresh : Phase → Prop
  | idle | connecting _ | ready _ => True
  | _ => False

structure World (κ : Type) where
  client : Client
  phase : κ → Phase

inductive Event (κ : Type) where
  | called (k : κ) (req : Request)
  | registered (k : κ) (id : Int) (req : Request)
  | sent (k : κ) (payload : Json)
  | received (m : Message)
  | internal

variable {κ : Type}

/-- Nothing is connected and nothing is called. -/
def World.init : World κ := ⟨.init, fun _ => .idle⟩

section Steps

variable [DecidableEq κ]

/-- Call `k` goes on at `p`. -/
def World.go (w : World κ) (k : κ) (p : Phase) : World κ :=
  { w with phase := Function.update w.phase k p }

/-- The `finally` of `_call`. -/
def World.finish (w : World κ) (k : κ) (id : Int)
    (r : Except PyErr Json) : World κ :=
  { w with client := w.client.forget id }.go k (.finished r)

/-- What a send can fail with. -/
def sendErrors : List String := ["ElectrumX request failed (send error)",
  "ElectrumX request timed out (send)"]

/-- `asyncio.CancelledError`. -/
def cancelledError : Except PyErr Json := .error (.base "CancelledError")

variable (text : Json → String)

inductive Step : World κ → Event κ → World κ → Prop where
  | enter {w k req} (hidle : w.phase k = .idle) (hws : w.client.ws = none) :
      Step w (.called k req) (w.go k (.connecting req))
  | enterConnected {w k req s} (hidle : w.phase k = .idle)
      (hws : w.client.ws = some s) :
      Step w (.called k req)
        ({ w with client := w.client.ensureReader }.go k (.ready req))
  | connect {w k req} (hphase : w.phase k = .connecting req) :
      Step w .internal
        ({ w with client := w.client.connected }.go k (.ready req))
  | connectFails {w k req} (hphase : w.phase k = .connecting req) :
      Step w .internal (w.go k
        (.finished (networkError "Failed to connect to any ElectrumX server")))
  | register {w k req} (hphase : w.phase k = .ready req) :
      Step w (.registered k (w.client.idCounter + 1) req)
        ({ w with client := w.client.register }.go k
          (.sending (w.client.idCounter + 1) req))
  | lock {w k id req s} (hphase : w.phase k = .sending id req)
      (hlock : ∀ k, ¬ (w.phase k).Locked)
      (hws : w.client.ws = some s) : Step w .internal (w.go k (.writing id req))
  | write {w k id req} (hphase : w.phase k = .writing id req) :
      Step w (.sent k (req.payload id)) (w.go k (.written id))
  | sent {w k id} (hphase : w.phase k = .written id) :
      Step w .internal (w.go k (.waiting id))
  | unavailable {w k id req} (hphase : w.phase k = .sending id req)
      (hlock : ∀ k, ¬ (w.phase k).Locked)
      (hws : w.client.ws = none) :
      Step w .internal
        (w.finish k id (networkError "WebSocket connection is not available"))
  /-- Before the bytes are out, or after: a send can fail whose request the
  server has. -/
  | sendFails {w k id msg} (hphase : (w.phase k).id = some id)
      (hlocked : (w.phase k).Locked) (hmsg : msg ∈ sendErrors) :
      Step w .internal (w.finish k id (networkError msg))
  | answered {w k id r} (hphase : w.phase k = .waiting id)
      (hfut : w.client.futures id = .done r) :
      Step w .internal (w.finish k id r)
  | expire {w k id} (hphase : w.phase k = .waiting id)
      (hfut : w.client.futures id = .unset) :
      Step w .internal ({ w with
        client := { w.client with futures := Function.update w.client.futures id .cancelled } }.go k (.expired id))
  /-- The timeout strikes the call when its future is done and it has not been
  resumed yet. -/
  | timeoutDone {w k id r} (hphase : w.phase k = .waiting id)
      (hfut : w.client.futures id = .done r) :
      Step w .internal
        (w.finish k id (networkError "ElectrumX request timed out"))
  | timeout {w k id} (hphase : w.phase k = .expired id) :
      Step w .internal
        (w.finish k id (networkError "ElectrumX request timed out"))
  /-- The task of the call is cancelled, with nothing registered yet or with
  `id`. -/
  | cancelEarly {w k} (hphase : (w.phase k).Fresh) :
      Step w .internal (w.go k (.finished cancelledError))
  | cancel {w k id} (hphase : (w.phase k).id = some id) :
      Step w .internal (w.finish k id cancelledError)
  | readerStarts {w r} (hr : w.client.readers r = .starting) :
      Step w .internal { w with client := w.client.loopHead r }
  | receive {w r s} (hr : w.client.readers r = .reading s) (m : Message) :
      Step w (.received m) { w with client := w.client.receive text r m }
  | lost {w r s} (hr : w.client.readers r = .reading s) :
      Step w .internal { w with
        client := (w.client.failAllPending (networkError "ElectrumX connection lost")).endReader r }
  | readerCancelled {w r s} (hr : w.client.readers r = .reading s) :
      Step w .internal { w with
        client := (w.client.failAllPending (networkError "ElectrumX connection closed")).endReader r }
  /-- A task cancelled before it runs never enters its body. -/
  | readerUnstarted {w r} (hr : w.client.readers r = .starting) :
      Step w .internal { w with
        client := { w.client with readers := Function.update w.client.readers r .ended } }
  /-- `close`, after it has waited for the reader. -/
  | closeReader {w} :
      Step w .internal { w with client := { w.client with reader := none } }
  /-- `close`, after the socket is closed. -/
  | closeSocket {w} : Step w .internal { w with
      client := { w.client with ws := none }.failAllPending (networkError "ElectrumX connection closed") }

end Steps

end ElectrumX

end Pyrxd.Network
