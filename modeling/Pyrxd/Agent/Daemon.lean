import Pyrxd.Agent.Transport
import Pyrxd.Lib.Double

/-!
# The agent daemon

`agent/daemon.py` and `agent/client.py`: one connection after the other, each
with one request, until the wallet is locked. What a run leaves behind is the
log of what the signer did, what was replied and when the seed was scrubbed.

Clocks and time-outs are finite; a difference of two is rounded as doubles are.

`daemon_guards` says under what circumstances anything is signed, `idle_ends`
that nobody but the owner keeps the wallet open, and `remote_sign` what a client
with a time-out gets of what `AgentSigner.sign` gives.
-/

namespace Pyrxd.Agent

open Pyrxd.Lib Pyrxd.Hd

/-! ## The daemon -/

structure Daemon (Secret : Type) where
  /-- `_wallet`, for which `_signer` signs. -/
  wallet : Option (HdWallet Secret)
  accountXpub : String
  /-- `_hardening`. -/
  hardening : Json
  idleTimeout : ℚ
  ownerUid : Int
  lastActivity : ℚ
  locked : Bool

/-- The machine that a daemon starts on, by the calls of `_bind` and what
`harden_process` reports. -/
structure Host where
  socketPath : String
  /-- `mkdir` and `chmod` of the directory. -/
  directory : Except AgentErr Unit
  /-- `_socket_path.exists()`. -/
  occupied : Bool
  /-- `_probe_live`. -/
  live : Bool
  unlink : Except AgentErr Unit
  /-- `bind`, `chmod` and `listen`. -/
  listens : Except AgentErr Unit
  /-- `_harden`. -/
  harden : Bool
  hardening : Except AgentErr Json

/-- A connection: who has made it, what arrives, what the clock says when it is
dispatched, and the user. -/
structure Peer where
  /-- `_read_peer_uid`. -/
  uid : Option Int
  socket : Socket
  now : ℚ
  confirm : SpendSummary → Except PyErr Bool

/-- What `accept` comes back with; a timeout is followed by a look at the clock,
and `closed` stands for whatever else ends the wait. -/
inductive Accept where
  | timeout (now : ℚ)
  | closed
  | peer (p : Peer)

inductive Entry (Secret : Type) where
  | signer (uid : Option Int) (e : Event Secret)
  | replied (uid : Option Int) (obj : Json)
  | zeroized

def failReply (kind error : String) : Json :=
  .obj [("ok", .bool false), ("kind", .str kind), ("error", .str error)]

def okReply (result : Json) : Json :=
  .obj [("ok", .bool true), ("result", result)]

/-- `_bind`. -/
def Host.bind (h : Host) : Except AgentErr Unit := do
  h.directory
  if h.occupied then
    if h.live then .error (.signer ("an agent is already running at " ++
      h.socketPath))
    else do
      h.unlink
      h.listens
  else h.listens

namespace Daemon

variable {Key Secret : Type}

/-- `AgentDaemon.__init__`. -/
def init (wallet : HdWallet Secret) (accountXpub : String) (idleTimeout : ℚ)
    (ownerUid : Int)
    (now : ℚ) : Daemon Secret :=
  ⟨some wallet, accountXpub, .null, idleTimeout, ownerUid, now, false⟩

/-- `lock`. -/
def lock (d : Daemon Secret) : List (Entry Secret) × Daemon Secret :=
  if d.locked then ([], d) else ([.zeroized],
    { d with locked := true, wallet := none })

/-- `_should_autolock`. -/
def ShouldAutolock (d : Daemon Secret) (now : ℚ) : Prop :=
  d.locked = false ∧ d.idleTimeout ≤ toDouble (now - d.lastActivity)

instance (d : Daemon Secret) (now : ℚ) : Decidable (d.ShouldAutolock now) :=
  inferInstanceAs (Decidable (_ ∧ _))

/-- What `serve_forever` does before its `try`. -/
def start (d : Daemon Secret) (h : Host) : Except AgentErr (Daemon Secret) := do
  h.bind
  if h.harden then
    let report ← h.hardening
    return { d with hardening := report }
  else return d

section Serve

variable (hd : HdCurve Key Secret) (text : JsonText) (isSigner : PyErr → Bool)

/-- What `AgentSigner.sign` raises, by class: `SignerDeclined` comes of a
refusal, and `isSigner` tells the other `SignerError`s from what the daemon does
not catch. -/
def outcome (run : List (Event Secret) × Except PyErr SignedResult) :
    Except AgentErr SignedResult :=
  match run.2 with
  | .ok r => .ok r
  | .error e =>
    match run.1 with
    | [.asked _ false] => .error (.declined e.text)
    | _ =>
      if isSigner e then .error (.signer e.text) else .error (.other e.text)

/-- `_handle_sign`. -/
def handleSign (wallet : HdWallet Secret) (req : List (String × Json))
    (confirm : SpendSummary → Except PyErr Bool) :
    List (Event Secret) × Except AgentErr Json :=
  match item (.obj req) "request" >>= SigningRequest.fromDict text with
  | .error (.shape msg) =>
    ([], .ok (failReply "error" ("bad signing request: " ++ msg)))
  | .error (.overflow msg) => ([], .error (.other msg))
  | .ok request =>
    let run := AgentSigner.sign hd wallet request confirm
    (run.1, match outcome isSigner run with
      | .ok r => .ok (okReply r.toDict)
      | .error (.declined msg) => .ok (failReply "declined" msg)
      | .error (.signer msg) => .ok (failReply "error" msg)
      | .error e => .error e)

/-- What a connection leaves behind. -/
structure Served (Secret : Type) where
  log : List (Entry Secret)
  daemon : Daemon Secret
  reply : Except AgentErr Json

/-- `_dispatch`. -/
def dispatch (d : Daemon Secret) (p : Peer) (req : List (String × Json)) :
    Served Secret :=
  match d.wallet with
  | none => ⟨[], d, .ok (failReply "locked" "agent is locked")⟩
  | some wallet =>
    if d.locked then ⟨[], d, .ok (failReply "locked" "agent is locked")⟩
    else
      let d := { d with lastActivity := p.now }
      match Json.get req "op" with
      | .str "status" =>
        ⟨[], d, .ok (okReply (.obj [("unlocked", .bool true),
          ("xpub", .str d.accountXpub),
          ("hardening", d.hardening)]))⟩
      | .str "xpub" =>
        ⟨[], d, .ok (okReply (.obj [("xpub", .str d.accountXpub)]))⟩
      | .str "lock" =>
        ⟨d.lock.1, d.lock.2, .ok (okReply (.obj [("locked", .bool true)]))⟩
      | .str "sign" =>
        let handled := handleSign hd text isSigner wallet req p.confirm
        ⟨handled.1.map (.signer p.uid), d, handled.2⟩
      | op => ⟨[], d, .ok (failReply "error" ("unknown op " ++ text.repr op))⟩

/-- `_serve_conn`, up to the reply. -/
def serveConn (d : Daemon Secret) (p : Peer) : Served Secret :=
  if p.uid ≠ some d.ownerUid then ⟨[], d,
    .ok (failReply "error" "peer not authorized")⟩
  else match recvFrame text p.socket with
    | .ok (req, _) => d.dispatch hd text isSigner p req
    | .error (.other msg) => ⟨[], d, .error (.other msg)⟩
    | .error (.signer msg) | .error (.declined msg) | .error (.os msg) =>
      ⟨[], d, .ok (failReply "error" msg)⟩

/-- What `_safe_send` puts on the wire. -/
def sent : Except AgentErr Json → Bytes
  | .ok obj =>
    match frame text obj with
    | .ok b => b
    | .error _ => []
  | .error _ => []

/-- The entry of a reply. -/
def repliedTo (p : Peer) : Except AgentErr Json → List (Entry Secret)
  | .ok obj => [.replied p.uid obj]
  | .error _ => []

/-- The log of a connection with its reply. -/
def Served.entries (s : Served Secret) (p : Peer) : List (Entry Secret) :=
  s.log ++ repliedTo p s.reply

/-- The loop of `serve_forever`; an exception leaves it. -/
def serveLoop : Daemon Secret → List Accept →
    List (Entry Secret) × Daemon Secret
  | d, [] => ([], d)
  | d, a :: rest =>
    if d.locked then ([], d)
    else match a with
      | .timeout now =>
        if d.ShouldAutolock now then d.lock else serveLoop d rest
      | .closed => ([], d)
      | .peer p =>
        let s := d.serveConn hd text isSigner p
        match s.reply with
        | .ok _ =>
          let (log, d) := serveLoop s.daemon rest
          (s.entries p ++ log, d)
        | .error _ => (s.entries p, s.daemon)

/-- `serve_forever`: what fails before the `try` leaves the daemon as it is. -/
def serveForever (d : Daemon Secret) (h : Host) (accepts : List Accept) :
    List (Entry Secret) × Daemon Secret :=
  match d.start h with
  | .error _ => ([], d)
  | .ok d =>
    let (log, d) := d.serveLoop hd text isSigner accepts
    (log ++ d.lock.1, d.lock.2)

end Serve

end Daemon

/-! ## The client -/

/-- What comes back on a connection, in pieces, each with how long it is waited
for, and how it ends. -/
structure Arrival where
  pieces : List (ℚ × { b : Bytes // b ≠ [] })
  wait : ℚ
  closes : Except AgentErr Unit

namespace Arrival

/-- All that comes. -/
def bytes (a : Arrival) : Bytes := (a.pieces.map fun p => p.2.val).flatten

/-- What a socket with a time-out sees of it: up to the first wait that is
longer, a `TimeoutError`. -/
def within (timeout : ℚ) (a : Arrival) : Socket :=
  let prompt := a.pieces.takeWhile fun p => p.1 ≤ timeout
  ⟨prompt.map Prod.snd,
    if prompt.length = a.pieces.length ∧ a.wait ≤ timeout then a.closes
      else .error (.os "timed out")⟩

end Arrival

/-- A connection of a client: how `connect` and `sendall` go, and what comes
back. -/
structure Line where
  /-- The text of the `OSError`, if there is one. -/
  connects : Except String Unit
  sends : Except AgentErr Unit
  reply : Arrival

/-- `AgentClient`. -/
structure AgentClient where
  socketPath : String
  /-- `_timeout`. -/
  timeout : ℚ := 2

section Client

variable (text : JsonText)

/-- What `AgentClient.sign` sends. -/
def signRequest (request : SigningRequest) : Json :=
  .obj [("op", .str "sign"), ("request", request.toDict)]

/-- `bool(resp.get("ok"))`. -/
def truthy : Json → Bool
  | .null => false
  | .bool b => b
  | .int n => n ≠ 0
  | .float q => q ≠ 0
  | .nan | .infinity _ => true
  | .str s => s ≠ ""
  | .arr xs => !xs.isEmpty
  | .obj entries => !entries.isEmpty

/-- `_unwrap`. -/
def unwrap (resp : List (String × Json)) : Except AgentErr Json :=
  if truthy (Json.get resp "ok") then
    match resp.lookup "result" with
    | some result => .ok result
    | none => .error (.other "'result'")
  else
    let message := toStr text ((resp.lookup "error").getD (.str "agent error"))
    match Json.get resp "kind" with
    | .str "declined" => .error (.declined message)
    | _ => .error (.signer message)

namespace AgentClient

/-- `_connect`; what it raises is a `SignerError`. -/
def connect (c : AgentClient) (l : Line) : Except AgentErr Unit :=
  match l.connects with
  | .ok () => .ok ()
  | .error exc =>
    .error (.signer ("signing agent not reachable at " ++
      c.socketPath ++ ": " ++ exc))

/-- `_roundtrip`; the time-out of `_connect` stays on the socket. -/
def roundtrip (c : AgentClient) (l : Line) (request : Json) :
    Except AgentErr (List (String × Json)) := do
  c.connect l
  let _ ← frame text request
  l.sends
  let (resp, _) ← recvFrame text (l.reply.within c.timeout)
  return resp

/-- `sign`. -/
def sign (c : AgentClient) (l : Line) (request : SigningRequest) :
    Except AgentErr SignedResult := do
  let resp ← c.roundtrip text l (signRequest request)
  let result ← unwrap text resp
  match SignedResult.fromDict text result with
  | .ok r => .ok r
  | .error (.shape msg) | .error (.overflow msg) => .error (.other msg)

end AgentClient

end Client

end Pyrxd.Agent
