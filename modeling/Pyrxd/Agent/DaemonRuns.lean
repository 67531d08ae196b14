import Mathlib.Tactic.NormNum
import Pyrxd.Agent.Daemon
import Pyrxd.Agent.SignerSafety

/-!
# Runs of the daemon

Whatever is accepted, in whatever order: the seed is scrubbed once, nothing is
signed after that, and what is signed is what the owner has asked for, been
shown and agreed to (`daemon_guards`). `idle_ends` is about the idle window,
`remote_sign` about what a client sees of a signature.
-/

namespace Pyrxd.Agent

open Pyrxd.Lib Pyrxd.Hd
open Pyrxd.Swap (Draft)

namespace Daemon

variable {Key Secret : Type} {hd : HdCurve Key Secret} {text : JsonText}
  {isSigner : PyErr → Bool}
  {wallet : HdWallet Secret} {d d' : Daemon Secret}

/-- Unlocked, with its wallet. -/
def Live (wallet : HdWallet Secret) (d : Daemon Secret) : Prop :=
  d.locked = false ∧ d.wallet = some wallet

/-- After `lock`. -/
def Dead (d : Daemon Secret) : Prop := d.locked = true ∧ d.wallet = none

/-- Locking an unlocked daemon zeroes its seed and leaves it dead. -/
theorem lock_live (h : Live wallet d) :
    d.lock = ([.zeroized], { d with locked := true, wallet := none }) := by
  rw [lock, h.1]
  rfl

/-- A second lock does nothing: the seed is gone and nothing is logged. -/
theorem lock_dead (h : d.Dead) : d.lock = ([], d) := by
  rw [lock, h.1]
  rfl

/-! ## One connection -/

/-- The connection asks for a signature of `tx`, whose summary is `s`, and the
user agrees to `s`. -/
def Approved (hd : HdCurve Key Secret) (text : JsonText)
    (wallet : HdWallet Secret) (p : Peer)
    (s : SpendSummary) (tx : Draft Secret) : Prop :=
  ∃ req rest request, recvFrame text p.socket = .ok (req, rest) ∧
    Json.get req "op" = .str "sign" ∧
    (item (.obj req) "request" >>= SigningRequest.fromDict text) = .ok request ∧
    prepare hd wallet request = .ok (tx, s) ∧ p.confirm s = .ok true

/-- Signing is the last thing that happens, right after the one question. -/
def Agreed (hd : HdCurve Key Secret) (text : JsonText)
    (wallet : HdWallet Secret) (p : Peer)
    (events : List (Event Secret)) : Prop :=
  ∀ pre tx post, events = pre ++ .signs tx :: post →
    ∃ s, pre = [.asked s true] ∧ Approved hd text wallet p s tx

/-- A reply with no signer event agrees with any peer. -/
theorem agreed_nil (p : Peer) : Agreed hd text wallet p [] :=
  fun pre tx post h =>
  absurd h (by simp)

/-- What `AgentSigner.sign` signs is the draft whose summary it has shown. -/
theorem sign_agrees {request : SigningRequest}
    {confirm : SpendSummary → Except PyErr Bool}
    {pre post : List (Event Secret)} {tx : Draft Secret}
    (h : (AgentSigner.sign hd wallet request confirm).1 =
      pre ++ .signs tx :: post) :
    ∃ s, pre = [.asked s true] ∧ prepare hd wallet request = .ok (tx, s) ∧
      confirm s = .ok true := by
  unfold AgentSigner.sign at h
  split at h
  · exact absurd h (by simp)
  · rename_i draft summary hprepare
    split at h
    · exact absurd h (by simp)
    · rcases pre with _ | ⟨e, pre⟩
      · cases h
      · exact absurd h (by simp)
    · rename_i hconfirm
      rcases pre with _ | ⟨e, _ | ⟨e', pre⟩⟩
      · cases h
      · cases h
        exact ⟨summary, rfl, hprepare, hconfirm⟩
      · exact absurd h (by simp)

/-- The sign handler logs exactly what the signer did under the peer's own
answer. -/
theorem handleSign_agrees {p : Peer} {req : List (String × Json)}
    {rest : Socket}
    (hreq : recvFrame text p.socket = .ok (req, rest))
    (hop : Json.get req "op" = .str "sign") :
    Agreed hd text wallet p
      (handleSign hd text isSigner wallet req p.confirm).1 := by
  unfold handleSign
  split
  · exact agreed_nil p
  · exact agreed_nil p
  · rename_i request hrequest
    intro pre tx post h
    obtain ⟨s, hpre, hprepare, hconfirm⟩ := sign_agrees h
    exact ⟨s, hpre, req, rest, request, hreq, hop, hrequest, hprepare, hconfirm⟩

/-- What a connection of a live daemon comes to. -/
inductive Outcome (hd : HdCurve Key Secret) (text : JsonText)
    (wallet : HdWallet Secret)
    (d : Daemon Secret) (p : Peer) : Served Secret → Prop where
  /-- A stranger. -/
  | stranger (huid : p.uid ≠ some d.ownerUid) :
      Outcome hd text wallet d p ⟨[], d,
        .ok (failReply "error" "peer not authorized")⟩
  /-- A frame that was not read. -/
  | unread (huid : p.uid = some d.ownerUid) (reply) :
      Outcome hd text wallet d p ⟨[], d, reply⟩
  | served (huid : p.uid = some d.ownerUid) (events)
      (hagreed : Agreed hd text wallet p events)
      (reply) : Outcome hd text wallet d p
        ⟨events.map (.signer p.uid), { d with lastActivity := p.now }, reply⟩
  | locked (huid : p.uid = some d.ownerUid) (obj) : Outcome hd text wallet d p
      ⟨[.zeroized], { d with lastActivity := p.now, locked := true, wallet := none }, .ok obj⟩

/-- A frame from the owner's uid is turned away without an event, or it locks,
or it signs with the peer's agreement. -/
theorem dispatch_outcome (h : Live wallet d) {p : Peer} (huid : p.uid = some d.ownerUid)
    {req : List (String × Json)} {rest : Socket}
    (hreq : recvFrame text p.socket = .ok (req, rest)) :
    Outcome hd text wallet d p (d.dispatch hd text isSigner p req) := by
  obtain ⟨held, xpub, hardening, idle, owner, last, locked⟩ := d
  obtain ⟨hlocked, hheld⟩ := h
  obtain rfl : locked = false := hlocked
  obtain rfl : held = some wallet := hheld
  unfold dispatch
  dsimp only
  rw [if_neg nofun]
  split
  · exact .served huid [] (agreed_nil p) _
  · exact .served huid [] (agreed_nil p) _
  · exact .locked huid _
  · rename_i hop
    exact .served huid _ (handleSign_agrees hreq hop) _
  · exact .served huid [] (agreed_nil p) _

/-- One connection, whoever makes it and whatever is sent. -/
theorem serveConn_outcome (h : Live wallet d) (p : Peer) :
    Outcome hd text wallet d p (d.serveConn hd text isSigner p) := by
  unfold serveConn
  split
  · exact .stranger ‹_›
  · rename_i huid
    have huid := not_not.mp huid
    split
    · exact dispatch_outcome h huid ‹_›
    · exact .unread huid _
    · exact .unread huid _
    · exact .unread huid _
    · exact .unread huid _

/-! ## The log -/

/-- The signatures of a log, for connections among `peers`: each for the owner,
with the seed in place, of the draft that the connection has asked for, right
after its own summary was agreed to. -/
def Guarded (hd : HdCurve Key Secret) (text : JsonText)
    (wallet : HdWallet Secret) (owner : Int)
    (peers : Peer → Prop) (log : List (Entry Secret)) : Prop :=
  ∀ pre uid tx post, log = pre ++ .signer uid (.signs tx) :: post →
    uid = some owner ∧ .zeroized ∉ pre ∧
      ∃ pre' p s, pre = pre' ++ [.signer uid (.asked s true)] ∧
      peers p ∧ p.uid = uid ∧ Approved hd text wallet p s tx

/-- What others are told. -/
def Foreign (owner : Int) (log : List (Entry Secret)) : Prop :=
  ∀ uid obj, .replied uid obj ∈ log → uid ≠ some owner →
    obj = failReply "error" "peer not authorized"

/-- The seed is scrubbed once, and after that only replied to. -/
def ScrubbedOnce (log : List (Entry Secret)) : Prop :=
  ∃ pre post, log = pre ++ .zeroized :: post ∧ .zeroized ∉ pre ∧
    ∀ e ∈ post, ∃ uid obj, e = .replied uid obj

section Log

variable {owner : Int} {peers peers' : Peer → Prop}
  {a b log : List (Entry Secret)}

/-- More peers only make more answers available. -/
theorem Guarded.mono (h : Guarded hd text wallet owner peers log)
    (hsub : ∀ p, peers p → peers' p) :
    Guarded hd text wallet owner peers' log := by
  intro pre uid tx post hlog
  obtain ⟨huid, hseed, pre', p, s, hpre, hp, hrest⟩ := h pre uid tx post hlog
  exact ⟨huid, hseed, pre', p, s, hpre, hsub p hp, hrest⟩

/-- Two logs, one after the other, while the seed is in place. -/
theorem Guarded.append (ha : Guarded hd text wallet owner peers a)
    (hb : Guarded hd text wallet owner peers b) (hseed : Entry.zeroized ∉ a) :
    Guarded hd text wallet owner peers (a ++ b) := by
  intro pre uid tx post h
  rcases List.append_eq_append_iff.mp h with ⟨c, rfl, hb'⟩ | ⟨c, ha', hpost⟩
  · obtain ⟨huid, hseed', pre', p, s, rfl, hrest⟩ := hb c uid tx post hb'
    refine ⟨huid, fun hmem => ?_, a ++ pre', p, s,
      (List.append_assoc _ _ _).symm, hrest⟩
    rcases List.mem_append.mp hmem with hmem | hmem
    · exact hseed hmem
    · exact hseed' hmem
  · cases c with
    | nil =>
      rw [List.append_nil] at ha'
      subst ha'
      obtain ⟨huid, hseed', pre', p, s, hnil, -⟩ := hb [] uid tx post hpost.symm
      exact absurd hnil (by simp)
    | cons e c =>
      obtain ⟨rfl, rfl⟩ := List.cons.inj hpost
      exact ha pre uid tx c ha'

/-- A log without signatures. -/
theorem guarded_of_none (h : ∀ uid tx, Entry.signer uid (.signs tx) ∉ log) :
    Guarded hd text wallet owner peers log := by
  rintro pre uid tx post rfl
  exact absurd (List.mem_append_right _ List.mem_cons_self) (h uid tx)

/-- The log of the signer, for the owner. -/
theorem guarded_signer {p : Peer} {events : List (Event Secret)}
    (huid : p.uid = some owner)
    (hp : peers p) (hagreed : Agreed hd text wallet p events) :
    Guarded hd text wallet owner peers (events.map (Entry.signer p.uid)) := by
  intro pre uid' tx post h
  obtain ⟨a, b, rfl, rfl, hb⟩ := List.map_eq_append_iff.mp h
  obtain ⟨e, c, rfl, he, rfl⟩ := List.map_eq_cons_iff.mp hb
  cases he
  obtain ⟨s, rfl, happroved⟩ := hagreed a tx c rfl
  refine ⟨huid, fun hmem => ?_, [], p, s, rfl, hp, rfl, happroved⟩
  cases List.mem_singleton.mp hmem

/-- A reply is logged only when the handler returned one. -/
theorem mem_repliedTo {p : Peer} {reply : Except AgentErr Json}
    {e : Entry Secret}
    (h : e ∈ repliedTo p reply) : ∃ obj, reply = .ok obj ∧
    e = .replied p.uid obj := by
  cases reply with
  | error => cases h
  | ok obj => exact ⟨obj, rfl, List.mem_singleton.mp h⟩

/-- A reply does not scrub the seed. -/
theorem zeroized_not_replied (p : Peer) (reply : Except AgentErr Json) :
    (Entry.zeroized : Entry Secret) ∉ repliedTo p reply := fun hmem => by
  obtain ⟨obj, -, h⟩ := mem_repliedTo hmem
  cases h

/-- Neither does the signer. -/
theorem zeroized_not_signer (uid : Option Int) (events : List (Event Secret)) :
    Entry.zeroized ∉ events.map (Entry.signer uid) := fun hmem => by
  obtain ⟨e, -, h⟩ := List.mem_map.mp hmem
  cases h

/-- Replying releases nothing: no signature stands among the entries of a reply.
-/
theorem guarded_replied (p : Peer) (reply : Except AgentErr Json) :
    Guarded hd text wallet owner peers (repliedTo p reply) :=
  guarded_of_none fun uid tx hmem => by
  obtain ⟨obj, -, h⟩ := mem_repliedTo hmem
  cases h

end Log

/-- The loop of a live daemon, as far as it has come, over connections among
`peers`. -/
structure Ran (hd : HdCurve Key Secret) (text : JsonText)
    (wallet : HdWallet Secret)
    (peers : Peer → Prop) (d : Daemon Secret) (log : List (Entry Secret))
    (d' : Daemon Secret) :
    Prop where
  owner : d'.ownerUid = d.ownerUid
  guarded : Guarded hd text wallet d.ownerUid peers log
  foreign : Foreign d.ownerUid log
  seed : Live wallet d' ∧ .zeroized ∉ log ∨ d'.Dead ∧ ScrubbedOnce log

section Ran

variable {peers peers' : Peer → Prop}

/-- The empty run of a live daemon. -/
theorem Ran.nil (h : Live wallet d) : Ran hd text wallet peers d [] d :=
  ⟨rfl, guarded_of_none nofun, nofun, .inl ⟨h, nofun⟩⟩

/-- A run under some peers is a run under more. -/
theorem Ran.mono {log : List (Entry Secret)}
    (h : Ran hd text wallet peers d log d')
    (hsub : ∀ p, peers p → peers' p) : Ran hd text wallet peers' d log d' :=
  ⟨h.owner, h.guarded.mono hsub, h.foreign, h.seed⟩

/-- One connection. -/
theorem Ran.conn {p : Peer} {s : Served Secret} (hp : peers p) (hlive : Live wallet d)
    (h : Outcome hd text wallet d p s) : Ran hd text wallet peers d (s.entries p) s.daemon := by
  -- in no case but the signer's does a peer get a signature, and only locking
  -- zeroes the seed
  cases h with
  | stranger huid =>
    refine ⟨rfl, guarded_replied p (.ok _), fun uid obj hmem _ => ?_,
      .inl ⟨hlive, zeroized_not_replied p (.ok _)⟩⟩
    cases List.mem_singleton.mp hmem
    rfl
  | unread huid reply =>
    refine ⟨rfl, guarded_replied p reply, fun uid obj hmem hne => ?_,
      .inl ⟨hlive, zeroized_not_replied p reply⟩⟩
    obtain ⟨obj', -, he⟩ := mem_repliedTo (p := p) hmem
    cases he
    exact absurd huid hne
  | served huid events hagreed reply =>
    refine ⟨rfl,
      (guarded_signer huid hp hagreed).append (guarded_replied p reply)
      (zeroized_not_signer _ _), fun uid obj hmem hne => ?_,
        .inl ⟨hlive, fun hmem => ?_⟩⟩
    · rcases List.mem_append.mp hmem with hmem | hmem
      · obtain ⟨e, -, he⟩ := List.mem_map.mp hmem
        cases he
      · obtain ⟨obj', -, he⟩ := mem_repliedTo (p := p) hmem
        cases he
        exact absurd huid hne
    · rcases List.mem_append.mp hmem with hmem | hmem
      · exact zeroized_not_signer _ _ hmem
      · exact zeroized_not_replied p reply hmem
  | locked huid obj =>
    refine ⟨rfl, guarded_of_none fun uid tx hmem => ?_,
      fun uid obj' hmem hne => ?_,
      .inr ⟨⟨rfl, rfl⟩, [], _, rfl, nofun, ?_⟩⟩
    · rcases List.mem_cons.mp hmem with he | hmem
      · cases he
      · cases List.mem_singleton.mp hmem
    · rcases List.mem_cons.mp hmem with he | hmem
      · cases he
      · cases List.mem_singleton.mp hmem
        exact absurd huid hne
    · intro e he
      exact ⟨p.uid, obj, List.mem_singleton.mp he⟩

/-- What comes after. -/
theorem Ran.append {d₁ d₂ : Daemon Secret} {a b : List (Entry Secret)}
    (ha : Ran hd text wallet peers d a d₁) (hlive : Live wallet d₁)
    (hb : Ran hd text wallet peers d₁ b d₂) :
    Ran hd text wallet peers d (a ++ b) d₂ := by
  have hseed : Entry.zeroized ∉ a := by
    rcases ha.seed with ⟨-, hseed⟩ | ⟨hdead, -⟩
    · exact hseed
    · rw [Dead, hlive.1] at hdead
      exact absurd hdead.1 nofun
  have hguarded := ha.owner ▸ hb.guarded
  refine ⟨hb.owner.trans ha.owner, ha.guarded.append hguarded hseed,
    fun uid obj hmem hne => ?_, ?_⟩
  · rcases List.mem_append.mp hmem with hmem | hmem
    · exact ha.foreign uid obj hmem hne
    · exact hb.foreign uid obj hmem (by rwa [ha.owner])
  · rcases hb.seed with ⟨hlive', hseed'⟩ | ⟨hdead, pre, post, rfl, hpre, hpost⟩
    · exact .inl ⟨hlive', by simp [hseed, hseed']⟩
    · exact .inr ⟨hdead, a ++ pre, post,
        (List.append_assoc _ _ _).symm, by simp [hseed, hpre],
        hpost⟩

/-- The seed goes last. -/
theorem Ran.lock (h : Live wallet d) :
    Ran hd text wallet peers d d.lock.1 d.lock.2 := by
  rw [lock_live h]
  refine ⟨rfl, guarded_of_none fun uid tx hmem => ?_, fun uid obj hmem _ => ?_,
    .inr ⟨⟨rfl, rfl⟩, [], [], rfl, nofun, nofun⟩⟩
  · cases List.mem_singleton.mp hmem
  · cases List.mem_singleton.mp hmem

end Ran

/-- A dead daemon accepts nothing. -/
theorem serveLoop_dead (h : d.Dead) (accepts : List Accept) :
    d.serveLoop hd text isSigner accepts = ([], d) := by
  cases accepts with
  | nil => rfl
  | cons a rest =>
    unfold serveLoop
    rw [if_pos h.1]

section Equations

/-! One turn of an unlocked daemon. -/

variable (h : d.locked = false) (rest : List Accept)
include h

/-- A wake-up without a peer locks an idle daemon and otherwise goes on
accepting. -/
theorem serveLoop_timeout (now : ℚ) :
    d.serveLoop hd text isSigner (.timeout now :: rest) =
    if d.ShouldAutolock now then d.lock
      else d.serveLoop hd text isSigner rest := by
  have hopen : ¬ d.locked = true := by rw [h]; nofun
  conv_lhs => unfold serveLoop
  exact (if_neg hopen).trans rfl

/-- The loop ends when the listening socket is closed. -/
theorem serveLoop_closed : d.serveLoop hd text isSigner
    (.closed :: rest) = ([], d) := by
  have hopen : ¬ d.locked = true := by rw [h]; nofun
  unfold serveLoop
  exact if_neg hopen

/-- One connection is served, and the loop goes on with the daemon it left. -/
theorem serveLoop_peer (p : Peer) :
    d.serveLoop hd text isSigner (.peer p :: rest) =
    match (d.serveConn hd text isSigner p).reply with
    | .ok _ => ((d.serveConn hd text isSigner p).entries p ++
        ((d.serveConn hd text isSigner p).daemon.serveLoop hd text
          isSigner rest).1,
        ((d.serveConn hd text isSigner p).daemon.serveLoop hd text
          isSigner rest).2)
    | .error _ =>
      ((d.serveConn hd text isSigner p).entries p,
          (d.serveConn hd text isSigner p).daemon) := by
  have hopen : ¬ d.locked = true := by rw [h]; nofun
  conv_lhs => unfold serveLoop
  exact (if_neg hopen).trans rfl

end Equations

/-- Every run of the loop, by induction on what is accepted. -/
theorem serveLoop_ran (h : Live wallet d) (accepts : List Accept) :
    Ran hd text wallet (fun p => .peer p ∈ accepts) d (d.serveLoop hd text isSigner accepts).1
      (d.serveLoop hd text isSigner accepts).2 := by
  -- along the accepts, each from the daemon the one before it left
  induction accepts generalizing d with
  | nil => exact Ran.nil h
  | cons a rest ih =>
    have hrest : ∀ p, Accept.peer p ∈ rest → Accept.peer p ∈ a :: rest :=
      fun p hp => List.mem_cons_of_mem a hp
    cases a with
    | timeout now =>
      rw [serveLoop_timeout h.1]
      split
      · exact Ran.lock h
      · exact (ih h).mono hrest
    | closed =>
      rw [serveLoop_closed h.1]
      exact Ran.nil h
    | peer p =>
      have hout : Outcome hd text wallet d p (d.serveConn hd text isSigner p) :=
        serveConn_outcome h p
      have hconn : Ran hd text wallet (fun q => .peer q ∈
          Accept.peer p :: rest) d
          ((d.serveConn hd text isSigner p).entries p)
            (d.serveConn hd text isSigner p).daemon :=
        Ran.conn List.mem_cons_self h hout
      rw [serveLoop_peer h.1]
      split
      · rcases hconn.seed with ⟨hlive, -⟩ | ⟨hdead, -⟩
        · exact hconn.append hlive ((ih hlive).mono hrest)
        · rw [serveLoop_dead hdead, List.append_nil]
          exact hconn
      · exact hconn

/-! ## The idle window -/

/-- Every connection but the owner's leaves the idle clock alone. -/
theorem Outcome.activity {p : Peer} {s : Served Secret} (h : Outcome hd text wallet d p s) :
    s.daemon.idleTimeout = d.idleTimeout ∧ s.daemon.ownerUid = d.ownerUid ∧
      (s.daemon.lastActivity = d.lastActivity ∨
        p.uid = some d.ownerUid ∧ s.daemon.lastActivity = p.now) := by
  cases h with
  | stranger huid => exact ⟨rfl, rfl, .inl rfl⟩
  | unread huid reply => exact ⟨rfl, rfl, .inl rfl⟩
  | served huid events hagreed reply => exact ⟨rfl, rfl, .inr ⟨huid, rfl⟩⟩
  | locked huid obj => exact ⟨rfl, rfl, .inr ⟨huid, rfl⟩⟩

/-- The loop ends at a look at the clock that finds everybody idle. -/
theorem serveLoop_idle {now : ℚ} {after : List Accept} (before : List Accept)
    (h : Live wallet d)
    (hidle : d.idleTimeout ≤ toDouble (now - d.lastActivity))
    (hown : ∀ p, .peer p ∈ before → p.uid = some d.ownerUid →
      d.idleTimeout ≤ toDouble (now - p.now)) :
    d.serveLoop hd text isSigner (before ++ .timeout now :: after) =
      d.serveLoop hd text isSigner (before ++ [.timeout now]) := by
  -- along the accepts: only the owner's connections move the last activity
  induction before generalizing d with
  | nil =>
    rw [List.nil_append, List.nil_append, serveLoop_timeout h.1,
      serveLoop_timeout h.1,
      if_pos ⟨h.1, hidle⟩, if_pos ⟨h.1, hidle⟩]
  | cons a before ih =>
    have hrest : ∀ p, .peer p ∈ before → p.uid = some d.ownerUid →
        d.idleTimeout ≤ toDouble (now - p.now) :=
      fun p hp => hown p (List.mem_cons_of_mem _ hp)
    rw [List.cons_append, List.cons_append]
    cases a with
    | timeout t => rw [serveLoop_timeout h.1, serveLoop_timeout h.1, ih h hidle hrest]
    | closed => rw [serveLoop_closed h.1, serveLoop_closed h.1]
    | peer p =>
      have hout : Outcome hd text wallet d p (d.serveConn hd text isSigner p) :=
        serveConn_outcome h p
      obtain ⟨htimeout, howner, hlast⟩ := hout.activity
      have hsame :
          (d.serveConn hd text isSigner p).daemon.serveLoop hd text isSigner
            (before ++ .timeout now :: after) =
          (d.serveConn hd text isSigner p).daemon.serveLoop hd text isSigner
            (before ++ [.timeout now]) := by
        have hconn : Ran hd text wallet (fun _ => True) d _ _ :=
          Ran.conn trivial h hout
        rcases hconn.seed with ⟨hlive, -⟩ | ⟨hdead, -⟩
        · refine ih hlive ?_ ?_
          · rw [htimeout]
            rcases hlast with hlast | ⟨huid, hlast⟩
            · rw [hlast]
              exact hidle
            · rw [hlast]
              exact hown p List.mem_cons_self huid
          · rw [htimeout, howner]
            exact hrest
        · rw [serveLoop_dead hdead, serveLoop_dead hdead]
      rw [serveLoop_peer h.1, serveLoop_peer h.1, hsame]

/-! ## Every run -/

/-- A start that succeeds has changed the hardening report only. -/
theorem start_ok {h : Host} (hstart : d.start h = .ok d') :
    ∃ report, d' = { d with hardening := report } := by
  unfold start at hstart
  cases hbind : h.bind with
  | error e =>
    rw [hbind] at hstart
    cases hstart
  | ok =>
    rw [hbind] at hstart
    cases hharden : h.harden with
    | false =>
      simp only [hharden, bind, Except.bind, Bool.false_eq_true, if_false, pure,
        Except.pure] at hstart
      cases hstart
      exact ⟨d.hardening, rfl⟩
    | true =>
      cases hreport : h.hardening with
      | error e =>
        simp only [hharden, hreport, bind, Except.bind, if_true] at hstart
        cases hstart
      | ok report =>
        simp only [hharden, hreport, bind, Except.bind, if_true, pure,
          Except.pure] at hstart
        cases hstart
        exact ⟨report, rfl⟩

/-- A daemon that cannot bind serves nobody. -/
theorem serveForever_error {h : Host} {e : AgentErr}
    (hstart : d.start h = .error e)
    (accepts : List Accept) :
    d.serveForever hd text isSigner h accepts = ([], d) := by
  rw [serveForever, hstart]

/-- Once started the daemon serves its accepts and locks at the end, however
they end. -/
theorem serveForever_ok {h : Host} (hstart : d.start h = .ok d')
    (accepts : List Accept) :
    d.serveForever hd text isSigner h accepts =
      ((d'.serveLoop hd text isSigner accepts).1 ++
        (d'.serveLoop hd text isSigner accepts).2.lock.1,
        (d'.serveLoop hd text isSigner accepts).2.lock.2) := by
  rw [serveForever, hstart]

/-- A run that has started ends dead. -/
theorem serveForever_ran {h : Host} (hlive : Live wallet d)
    (hstart : d.start h = .ok d')
    (accepts : List Accept) :
    Ran hd text wallet (fun p => .peer p ∈ accepts) d
      (d.serveForever hd text isSigner h accepts).1
      (d.serveForever hd text isSigner h accepts).2 ∧
    (d.serveForever hd text isSigner h accepts).2.Dead := by
  obtain ⟨report, rfl⟩ := start_ok hstart
  have hlive : Live wallet { d with hardening := report } := hlive
  have hloop : Ran hd text wallet (fun p => .peer p ∈
      accepts) { d with hardening := report }
      (serveLoop hd text isSigner { d with hardening := report } accepts).1
      (serveLoop hd text isSigner { d with hardening := report } accepts).2 :=
    serveLoop_ran hlive accepts
  rw [serveForever_ok hstart]
  rcases hloop.seed with ⟨hlive', -⟩ | ⟨hdead, -⟩
  · have hrun := hloop.append hlive' (Ran.lock hlive')
    refine ⟨⟨hrun.owner, hrun.guarded, hrun.foreign, hrun.seed⟩, ?_⟩
    rw [lock_live hlive']
    exact ⟨rfl, rfl⟩
  · rw [lock_dead hdead, List.append_nil]
    exact ⟨⟨hloop.owner, hloop.guarded, hloop.foreign, hloop.seed⟩, hdead⟩

/-- How a run of `d` on `h` ends: the seed scrubbed once and the daemon locked;
but where the start fails, as it began, with the wallet in place and nothing
served. -/
def Ended (d : Daemon Secret) (h : Host)
    (run : List (Entry Secret) × Daemon Secret) : Prop :=
  match d.start h with
  | .ok _ => ScrubbedOnce run.1 ∧ run.2.Dead
  | .error _ => run = ([], d)

section Main

variable (hd : HdCurve Key Secret) (text : JsonText) (isSigner : PyErr → Bool)
  (wallet : HdWallet Secret) (xpub : String) (idle : ℚ) (owner : Int)
  (now₀ : ℚ) (host : Host)

/-- **The daemon signs for its owner only, and only what the owner has asked for
and agreed to on its own summary**, whoever connects, whatever is sent, and
however the run ends: once it has started, the seed is scrubbed once and nothing
is signed after that, and a stranger hears one thing. -/
theorem daemon_guards (accepts : List Accept) :
    let d := init wallet xpub idle owner now₀
    let run := d.serveForever hd text isSigner host accepts
    Guarded hd text wallet owner (fun p => .peer p ∈ accepts) run.1 ∧
    Foreign owner run.1 ∧
      Ended d host run := by
  intro d run
  have hlive : Live wallet d := ⟨rfl, rfl⟩
  unfold Ended
  cases hstart : d.start host with
  | error e =>
    have hrun : run = ([], d) := serveForever_error hstart accepts
    rw [hrun]
    exact ⟨guarded_of_none nofun, nofun, rfl⟩
  | ok d' =>
    have hend : Ran hd text wallet (fun p => .peer p ∈ accepts) d run.1 run.2 ∧
        run.2.Dead :=
      serveForever_ran hlive hstart accepts
    obtain ⟨hran, hdead⟩ := hend
    refine ⟨hran.guarded, hran.foreign, ?_, hdead⟩
    rcases hran.seed with ⟨hlive, -⟩ | ⟨-, honce⟩
    · exact absurd (hlive.1.symm.trans hdead.1) nofun
    · exact honce

/-- **Only the owner keeps the wallet open**: at a look at the clock that comes
an idle window after the start and after each connection of the owner, the run
is over, however many others have connected. -/
theorem idle_ends {before after : List Accept} {now : ℚ}
    (hidle : idle ≤ toDouble (now - now₀))
    (hown : ∀ p, .peer p ∈ before → p.uid = some owner →
      idle ≤ toDouble (now - p.now)) :
    let d := init wallet xpub idle owner now₀
    d.serveForever hd text isSigner host (before ++ .timeout now :: after) =
      d.serveForever hd text isSigner host (before ++ [.timeout now]) := by
  intro d
  cases hstart : d.start host with
  | error e => rw [serveForever_error hstart, serveForever_error hstart]
  | ok d' =>
    obtain ⟨report, rfl⟩ := start_ok hstart
    have hlive : Live wallet { d with hardening := report } := ⟨rfl, rfl⟩
    rw [serveForever_ok hstart, serveForever_ok hstart,
      serveLoop_idle before hlive hidle hown]

end Main

/-- A machine on which nothing fails. -/
def sampleHost : Host := ⟨"agent.sock", .ok (), false, false, .ok (), .ok (),
  true, .ok .null⟩

/-- An agent that runs already keeps a second one from starting, and its wallet
stays unlocked. -/
example (text : JsonText) : (init sampleWallet "xpub" 900 1000 0).serveForever
    (sampleHd id) text
    (fun _ => true) { sampleHost with occupied := true, live := true }
      [.timeout 1000] =
      ([], init sampleWallet "xpub" 900 1000 0) := rfl

/-- A stranger's connection, at any time. -/
def strangerAt (now : ℚ) : Accept :=
  .peer ⟨some 1001, ⟨[], .ok ()⟩, now, fun _ => .ok true⟩

/-- The owner's, which sends nothing either. -/
def ownerAt (now : ℚ) : Accept :=
  .peer ⟨some 1000, ⟨[], .ok ()⟩, now, fun _ => .ok true⟩

/-- A codec nobody uses. -/
def unusedText : JsonText :=
  ⟨fun _ => [], fun _ => .error (.malformed ""), fun _ => ""⟩

/-- A stranger who connects just before the window ends does not move it, and
the owner comes too late. -/
theorem idle_ends_stranger :
    let d := init sampleWallet "xpub" 900 1000 0
    d.serveForever (sampleHd id) unusedText (fun _ => true) sampleHost
        ([ownerAt 10, strangerAt 909] ++ .timeout 910 :: [ownerAt 911]) =
      d.serveForever (sampleHd id) unusedText (fun _ => true) sampleHost
        ([ownerAt 10, strangerAt 909] ++ [.timeout 910]) := by
  refine idle_ends _ _ _ _ _ _ _ _ _ (by decide +kernel) fun p hp huid => ?_
  rcases List.mem_cons.mp hp with hp | hp
  · cases hp
    decide +kernel
  · cases List.mem_singleton.mp hp
    exact absurd huid (by decide)

end Daemon

/-! ## What a client sees -/

namespace Arrival

/-- Nothing is waited for longer than the time-out, nor is the end, where
nothing comes. -/
def InTime (timeout : ℚ) (a : Arrival) : Prop :=
  (∀ p ∈ a.pieces, p.1 ≤ timeout) ∧ (a.bytes = [] → a.wait ≤ timeout)

instance (timeout : ℚ) (a : Arrival) : Decidable (a.InTime timeout) :=
  inferInstanceAs (Decidable (_ ∧ _))

variable {timeout : ℚ} {a : Arrival}

/-- What is read under a time-out is what had arrived by then, piece by piece.
-/
theorem bytes_prompt (timeout : ℚ) (a : Arrival) : (a.within timeout).bytes =
    ((a.pieces.takeWhile fun p => p.1 ≤ timeout).map fun p =>
      p.2.val).flatten := by
  show (((a.pieces.takeWhile fun p => p.1 ≤ timeout).map Prod.snd).map
    Subtype.val).flatten = _
  rw [List.map_map]
  rfl

/-- A prompt arrival is not cut. -/
theorem takeWhile_prompt (h : ∀ p ∈ a.pieces, p.1 ≤ timeout) :
    a.pieces.takeWhile (fun p => p.1 ≤ timeout) = a.pieces :=
  List.takeWhile_eq_self_iff.mpr fun p hp => decide_eq_true (h p hp)

/-- Where every piece is in time, all of it is read. -/
theorem bytes_within (h : ∀ p ∈ a.pieces, p.1 ≤ timeout) :
    (a.within timeout).bytes = a.bytes := by
  rw [bytes_prompt, takeWhile_prompt h]
  rfl

/-- A late piece: what has come before is not all, and the socket fails
there. -/
theorem within_late (h : ¬ ∀ p ∈ a.pieces, p.1 ≤ timeout) :
    (∃ rest, rest ≠ [] ∧ a.bytes = (a.within timeout).bytes ++ rest) ∧
      (a.within timeout).closes = .error (.os "timed out") := by
  let late := a.pieces.dropWhile fun p => p.1 ≤ timeout
  have hlate : late ≠ [] := fun hnil => h fun p hp =>
    of_decide_eq_true (List.dropWhile_eq_nil_iff.mp hnil p hp)
  have hsplit : a.pieces.takeWhile (fun p => p.1 ≤ timeout) ++
      late = a.pieces :=
    List.takeWhile_append_dropWhile
  have hlength := congrArg List.length hsplit
  rw [List.length_append] at hlength
  have hpos : 0 < late.length := List.length_pos_iff.mpr hlate
  refine ⟨⟨(late.map fun p => p.2.val).flatten, fun hnil => ?_, ?_⟩,
    if_neg fun hall => ?_⟩
  · obtain ⟨p, rest, hp⟩ := List.exists_cons_of_ne_nil hlate
    rw [hp] at hnil
    exact p.2.property (List.append_eq_nil_iff.mp hnil).1
  · rw [bytes_prompt, ← List.flatten_append, ← List.map_append, hsplit]
    rfl
  · have := hall.1
    omega

/-- A connection without a byte: it is seen to close, if that is in time, and
fails otherwise. -/
theorem within_silent (h : a.bytes = []) : (∀ p ∈ a.pieces, p.1 ≤ timeout) ∧
    (a.within timeout).closes = if a.wait ≤ timeout then a.closes
      else .error (.os "timed out") := by
  have hnil : a.pieces = [] := by
    cases hpieces : a.pieces with
    | nil => rfl
    | cons p rest =>
      rw [bytes, hpieces] at h
      exact absurd (List.append_eq_nil_iff.mp h).1 p.2.property
  refine ⟨fun p hp => ?_, ?_⟩
  · rw [hnil] at hp
    cases hp
  · show (if _ ∧ _ then _ else _) = _
    rw [hnil]
    exact if_congr (and_iff_right rfl) rfl rfl

end Arrival

namespace Daemon

section Remote

variable {Key Secret : Type} {text : JsonText} {d : Daemon Secret}
  (hd : HdCurve Key Secret) (isSigner : PyErr → Bool)

/-- The reply to a request for a signature. -/
def signReply : Except AgentErr SignedResult → Except AgentErr Json
  | .ok r => .ok (okReply r.toDict)
  | .error (.declined msg) => .ok (failReply "declined" msg)
  | .error (.signer msg) => .ok (failReply "error" msg)
  | .error e => .error e

/-- What is left of a class of exception at the client: whatever the daemon does
not catch is a lost connection. -/
def seen : Except AgentErr SignedResult → Except AgentErr SignedResult
  | .error (.os _) | .error (.other _) =>
    .error (.signer "connection closed mid-frame")
  | r => r

/-- The handler of a well-formed sign request is the signer followed by its
reply. -/
theorem handleSign_request (wallet : HdWallet Secret) (request : SigningRequest)
    (confirm : SpendSummary → Except PyErr Bool) :
    handleSign hd text isSigner wallet [("op", .str "sign"),
      ("request", request.toDict)] confirm =
      ((AgentSigner.sign hd wallet request confirm).1,
        signReply (outcome isSigner
          (AgentSigner.sign hd wallet request confirm))) := by
  unfold handleSign
  have hread : (item (.obj [("op", .str "sign"),
    ("request", request.toDict)]) "request" >>=
      SigningRequest.fromDict text) = .ok request :=
        SigningRequest.fromDict_toDict ..
  rw [hread]
  rfl

/-- A request for a signature that arrives at a live daemon. -/
theorem serveConn_sign {wallet : HdWallet Secret} {request : SigningRequest}
    {p : Peer} {b : Bytes}
    (hlive : Live wallet d) (huid : p.uid = some d.ownerUid)
    (hframe : frame text (signRequest request) = .ok b)
    (hload : text.loads (text.dumps (signRequest request)) =
      .ok (signRequest request))
    (harrives : p.socket.bytes = b) :
    d.serveConn hd text isSigner p =
      ⟨(AgentSigner.sign hd wallet request p.confirm).1.map (.signer p.uid),
        { d with lastActivity := p.now },
        signReply (outcome isSigner
          (AgentSigner.sign hd wallet request p.confirm))⟩ := by
  obtain ⟨hlocked, hwallet⟩ := hlive
  obtain ⟨s', hrecv, -⟩ :=
    recvFrame_frame hframe hload (harrives.trans (List.append_nil _).symm)
  unfold serveConn
  rw [if_neg (not_not.mpr huid), hrecv]
  dsimp only
  unfold dispatch
  rw [hwallet]
  dsimp only
  rw [if_neg (by rw [hlocked]; nofun)]
  show (⟨_, _, _⟩ : Served Secret) = _
  rw [handleSign_request]

/-- No socket error comes out of the signer itself. -/
theorem outcome_ne_os (run : List (Event Secret) × Except PyErr SignedResult)
    (msg : String) :
    outcome isSigner run ≠ .error (.os msg) := by
  unfold outcome
  split
  · nofun
  · split
    · nofun
    · split <;> nofun

/-- What a client makes of a reply it has read. -/
theorem unwrap_signReply {o : Except AgentErr SignedResult}
    {entries : List (String × Json)}
    (h : signReply o = .ok (.obj entries)) : (do
      let result ← unwrap text entries
      match SignedResult.fromDict text result with
      | .ok r => .ok r
      | .error (.shape msg) | .error (.overflow msg) => .error (.other msg)) = seen o := by
  cases o with
  | ok r =>
    cases h
    rfl
  | error e =>
    cases e with
    | declined msg =>
      cases h
      rfl
    | signer msg =>
      cases h
      rfl
    | os msg => cases h
    | other msg => cases h

/-- Every reply to such a request is an object. -/
theorem signReply_obj {o : Except AgentErr SignedResult} {obj : Json}
    (h : signReply o = .ok obj) :
    ∃ entries, obj = .obj entries := by
  cases o with
  | ok r =>
    cases h
    exact ⟨_, rfl⟩
  | error e =>
    cases e with
    | declined msg =>
      cases h
      exact ⟨_, rfl⟩
    | signer msg =>
      cases h
      exact ⟨_, rfl⟩
    | os msg => cases h
    | other msg => cases h

/-- What the client reads of the reply to its request. -/
theorem receive_signReply {o : Except AgentErr SignedResult}
    {reply : Arrival} {timeout : ℚ}
    (hos : ∀ msg, o ≠ .error (.os msg))
    (hreply : reply.bytes = sent text (signReply o))
    (hcloses : reply.closes = .ok ())
    (hfits : ∀ obj, signReply o = .ok obj →
      (text.dumps obj).length ≤ maxFrameBytes ∧
        text.loads (text.dumps obj) = .ok obj) :
    (do
      let (resp, _) ← recvFrame text (reply.within timeout)
      let result ← unwrap text resp
      match SignedResult.fromDict text result with
      | .ok r => .ok r
      | .error (.shape msg) | .error (.overflow msg) => .error (.other msg)) =
        if reply.InTime timeout then seen o else .error (.os "timed out") := by
  -- a reply is framed, and without one the connection is closed
  cases hobj : signReply o with
  | ok obj =>
    obtain ⟨hsize, hload⟩ := hfits obj hobj
    obtain ⟨entries, rfl⟩ := signReply_obj hobj
    have hframe := frame_fits hsize
    rw [hobj, sent, hframe] at hreply
    have hsome : reply.bytes ≠ [] := fun hnil => by
      rw [hnil] at hreply
      have := congrArg List.length hreply
      rw [List.length_append, length_packLen, List.length_nil] at this
      omega
    -- a piece that comes too late cuts the frame, and that is an error of the
    -- socket
    by_cases hin : ∀ p ∈ reply.pieces, p.1 ≤ timeout
    · obtain ⟨s', hrecv, -⟩ := recvFrame_frame hframe hload
        (((Arrival.bytes_within hin).trans hreply).trans
          (List.append_nil _).symm)
      rw [if_pos ⟨hin, fun hnil => absurd hnil hsome⟩, hrecv]
      exact unwrap_signReply hobj
    · obtain ⟨⟨rest, hrest, hbytes⟩, herror⟩ := Arrival.within_late hin
      have hrecv :=
        recvFrame_fails hframe (hreply.symm.trans hbytes) hrest herror
      rw [if_neg fun h => hin h.1, hrecv]
      rfl
  | error e =>
    rw [hobj] at hreply
    have hnil : reply.bytes = [] := hreply
    have hseen : seen o = .error (.signer "connection closed mid-frame") := by
      cases o with
      | ok r => cases hobj
      | error e =>
        cases e with
        | other msg => rfl
        | os msg => exact absurd rfl (hos msg)
        | signer msg => cases hobj
        | declined msg => cases hobj
    obtain ⟨hpieces, hend⟩ := @Arrival.within_silent timeout reply hnil
    have hread := (Arrival.bytes_within hpieces).trans hnil
    by_cases hwait : reply.wait ≤ timeout
    · rw [if_pos hwait, hcloses] at hend
      rw [if_pos ⟨hpieces, fun _ => hwait⟩, recvFrame_closed hread hend, hseen]
      rfl
    · rw [if_neg hwait] at hend
      have hshort : (reply.within timeout).bytes.length < 4 := by
        rw [hread]
        decide
      rw [if_neg fun h => hwait (h.2 hnil), recvFrame_short hshort hend]
      rfl

/-- **Signing through the daemon is signing, for a client that is not kept
waiting**: a client of a live daemon, with the owner's uid and a request that
arrives, gets what `AgentSigner.sign` gives, the result or the same refusal, in
whatever pieces it comes; an exception that the daemon does not catch is a lost
connection. A client that is kept waiting longer than its time-out hears
`timed out`, whatever has been signed. -/
theorem remote_sign {wallet : HdWallet Secret} {request : SigningRequest}
    {p : Peer} {c : AgentClient}
    {l : Line} {b : Bytes} (hlive : Live wallet d)
    (huid : p.uid = some d.ownerUid)
    (hconnects : l.connects = .ok ()) (hsends : l.sends = .ok ())
    (hframe : frame text (signRequest request) = .ok b)
    (hload : text.loads (text.dumps (signRequest request)) =
      .ok (signRequest request))
    (harrives : p.socket.bytes = b)
    (hreply : l.reply.bytes = sent text (d.serveConn hd text isSigner p).reply)
    (hcloses : l.reply.closes = .ok ())
    (hfits : ∀ obj, (d.serveConn hd text isSigner p).reply = .ok obj →
      (text.dumps obj).length ≤ maxFrameBytes ∧
        text.loads (text.dumps obj) = .ok obj) :
    let run := AgentSigner.sign hd wallet request p.confirm
    (d.serveConn hd text isSigner p).log = run.1.map (.signer p.uid) ∧
      c.sign text l request =
        if l.reply.InTime c.timeout then seen (outcome isSigner run)
          else .error (.os "timed out") := by
  intro run
  have hserved := serveConn_sign hd isSigner hlive huid hframe hload harrives
  rw [hserved] at hreply hfits
  refine ⟨by rw [hserved], ?_⟩
  have hconnect : c.connect l = .ok () := by
    rw [AgentClient.connect, hconnects]
  refine Eq.trans ?_ (receive_signReply (fun msg =>
    outcome_ne_os isSigner run msg) hreply hcloses hfits)
  rw [AgentClient.sign, AgentClient.roundtrip, hconnect, hframe, hsends]
  cases recvFrame text (l.reply.within c.timeout) <;> rfl

end Remote

/-! An ordinary spend, byte by byte. -/

/-- One byte at a time, each after a wait. -/
def drip (wait : ℚ) (b : Bytes) : Arrival :=
  ⟨b.map fun x => (wait, ⟨[x], List.cons_ne_nil x []⟩), 0, .ok ()⟩

/-- Cutting the bytes into single pieces keeps them. -/
theorem drip_bytes (wait : ℚ) (b : Bytes) : (drip wait b).bytes = b := by
  induction b with
  | nil => rfl
  | cons x b ih => exact congrArg (x :: ·) ih

/-- Every piece of a drip arrives after the same wait. -/
theorem drip_wait {wait : ℚ} {b : Bytes} :
    ∀ q ∈ (drip wait b).pieces, q.1 = wait := by
  intro q hq
  obtain ⟨x, -, rfl⟩ := List.mem_map.mp hq
  rfl

/-- A drip slower than the time-out is not in time. -/
theorem drip_late {wait timeout : ℚ} {b : Bytes} (hb : b ≠ [])
    (h : timeout < wait) :
    ¬ (drip wait b).InTime timeout := fun hin => by
  obtain ⟨x, rest, rfl⟩ := List.exists_cons_of_ne_nil hb
  exact absurd (hin.1 _ List.mem_cons_self) (not_le.mpr h)

/-- The text of the request and of the reply. -/
def onceRequestText : Bytes :=
  ("\x7b\"op\":\"sign\",\"request\":\x7b\"unsigned_tx_hex\":\"".toList ++
    hexChars (onceWith []) ++
    "\",\"inputs\":[\x7b\"input_index\":0,\"change\":0,\"index\":0,\"source_tx_hex\":\"".toList ++
    hexChars sampleSource ++
      "\",\"sighash\":65\x7d],\"change_claims\":[".toList ++
      "\x7b\"output_index\":1,\"change\":1,\"index\":0\x7d]\x7d\x7d".toList).map
      fun c => UInt8.ofNat c.toNat

def onceReplyText : Bytes :=
  ("\x7b\"ok\":true,\"result\":\x7b\"signed_tx_hex\":\"".toList ++
    hexChars (onceWith onceScript) ++ "\"\x7d\x7d".toList).map fun c =>
      UInt8.ofNat c.toNat

def onceReply : Json :=
  okReply (SignedResult.toDict ⟨hex (onceWith onceScript)⟩)

/-- `json` on the two objects that are exchanged. -/
def onceText : JsonText where
  dumps
    | .obj (("op", _) :: _) => onceRequestText
    | _ => onceReplyText
  loads b :=
    if b = onceRequestText then .ok (signRequest onceRequest)
    else if b = onceReplyText then .ok onceReply
    else .error (.malformed "Expecting value")
  repr _ := ""

/-- The sample codec tells its two texts apart. -/
theorem onceReplyText_ne : onceReplyText ≠ onceRequestText := by decide +kernel

theorem onceText_request : onceText.loads onceRequestText = .ok
    (signRequest onceRequest) := by
  simp only [onceText, if_true]

theorem onceText_reply : onceText.loads onceReplyText = .ok onceReply := by
  simp only [onceText, onceReplyText_ne, if_false, if_true]

/-- The sample request as it goes over the socket. -/
theorem frame_onceRequest : frame onceText (signRequest onceRequest) =
    .ok (packLen onceRequestText.length ++ onceRequestText) :=
  frame_fits (show onceRequestText.length ≤ maxFrameBytes by decide +kernel)

/-- The daemon of user 1000, and its owner's request, which comes within the 30
s that it waits for. -/
def sampleDaemon : Daemon SampleKey := init sampleWallet "xpub" 900 1000 0

def oncePeer : Peer where
  uid := some 1000
  socket :=
    (drip 0 (packLen onceRequestText.length ++ onceRequestText)).within 30
  now := 1
  confirm _ := .ok true

/-- The sample peer sends that frame and nothing else. -/
theorem oncePeer_bytes :
    oncePeer.socket.bytes =
    packLen onceRequestText.length ++ onceRequestText := by
  refine (Arrival.bytes_within fun q hq => ?_).trans (drip_bytes _ _)
  rw [drip_wait q hq]
  decide

/-- One owner's connection of the sample run: asked, signed, answered. -/
theorem serveConn_once : sampleDaemon.serveConn onceHd onceText
    (fun _ => true) oncePeer =
    ⟨[.signer (some 1000) (.asked onceSummary true),
      .signer (some 1000) (.signs onceDraft)],
      { sampleDaemon with lastActivity := 1 }, .ok onceReply⟩ := by
  have hrun : AgentSigner.sign onceHd sampleWallet onceRequest
      oncePeer.confirm =
      ([.asked onceSummary true, .signs onceDraft],
        .ok ⟨hex (onceWith onceScript)⟩) := by
    rw [sign_agreed prepare_once rfl, finish_once]
  rw [serveConn_sign onceHd (fun _ => true) ⟨rfl,
    rfl⟩ rfl frame_onceRequest onceText_request
    oncePeer_bytes, hrun]
  rfl

/-- The client's side, where each byte of the reply is waited for as long. -/
def onceLine (wait : ℚ) : Line :=
  ⟨.ok (), .ok (), drip wait (sent onceText (.ok onceReply))⟩

/-- The reply frame the sample daemon writes. -/
theorem sent_onceReply : sent onceText (.ok onceReply) =
    packLen onceReplyText.length ++ onceReplyText := by
  rw [sent,
    frame_fits (show onceReplyText.length ≤ maxFrameBytes by decide +kernel)]
  rfl

/-- A user who answers after a second and a half is in time, one who takes three
is not: the spend is signed all the same. -/
theorem remote_sign_once :
    (sampleDaemon.serveConn onceHd onceText (fun _ => true) oncePeer).log =
      [.signer (some 1000) (.asked onceSummary true),
        .signer (some 1000) (.signs onceDraft)] ∧
    AgentClient.sign onceText ⟨"agent.sock", 2⟩ (onceLine (3 / 2)) onceRequest =
      .ok ⟨hex (onceWith onceScript)⟩ ∧
    AgentClient.sign onceText ⟨"agent.sock", 2⟩ (onceLine 3) onceRequest =
      .error (.os "timed out") := by
  have hrun : AgentSigner.sign onceHd sampleWallet onceRequest
      oncePeer.confirm =
      ([.asked onceSummary true, .signs onceDraft],
        .ok ⟨hex (onceWith onceScript)⟩) := by
    rw [sign_agreed prepare_once rfl, finish_once]
  have hremote : ∀ wait, _ := fun wait =>
    @remote_sign _ _ onceText sampleDaemon onceHd
        (fun _ => true) sampleWallet onceRequest oncePeer
      ⟨"agent.sock", 2⟩ (onceLine wait) _ ⟨rfl,
        rfl⟩ rfl rfl rfl frame_onceRequest onceText_request
      oncePeer_bytes (by rw [serveConn_once]; exact drip_bytes _ _) rfl
        fun obj hobj => by
        rw [serveConn_once] at hobj
        cases hobj
        exact ⟨show onceReplyText.length ≤
          maxFrameBytes by decide +kernel, onceText_reply⟩
  rw [hrun] at hremote
  have hin : (onceLine (3 / 2)).reply.InTime 2 :=
    ⟨fun q hq => by rw [drip_wait q hq]; norm_num, fun _ => by decide⟩
  have hlate : ¬ (onceLine 3).reply.InTime 2 := by
    refine drip_late (fun hnil => ?_) (by norm_num)
    rw [sent_onceReply] at hnil
    have hlength := congrArg List.length hnil
    rw [List.length_append, length_packLen, List.length_nil] at hlength
    omega
  refine ⟨(hremote 0).1, ?_, ?_⟩
  · exact (hremote (3 / 2)).2.trans (if_pos hin)
  · exact (hremote 3).2.trans (if_neg hlate)

end Daemon

end Pyrxd.Agent
