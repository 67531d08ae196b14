import Pyrxd.Agent.Signer
import Pyrxd.Lib.Dict
import Pyrxd.Lib.Json
import Pyrxd.Lib.Traverse

/-!
# The agent's wire

`agent/transport.py` and the dicts of `agent/protocol.py`: a frame is four bytes
of length and a JSON object, read from a socket that gives its bytes in pieces
of any size. `recvFrame_frame` says that the pieces do not matter,
`SigningRequest.fromDict_toDict` that a request survives the dict.
-/

namespace Pyrxd.Agent

open Pyrxd.Lib

/-- The exceptions of the agent, by who catches them. -/
inductive AgentErr where
  | signer (msg : String)
  /-- `SignerDeclined`, a `SignerError`. -/
  | declined (msg : String)
  | os (msg : String)
  | other (msg : String)
deriving DecidableEq

/-! ## Sockets -/

/-- What arrives at a socket, in the pieces in which `recv` sees it, and how it
ends: closed, or with an `OSError`. -/
structure Socket where
  chunks : List { b : Bytes // b ≠ [] }
  closes : Except AgentErr Unit

namespace Socket

/-- All that arrives. -/
def bytes (s : Socket) : Bytes := (s.chunks.map Subtype.val).flatten

/-- `sock.recv(n)`. -/
def recv (s : Socket) (n : Nat) : Except AgentErr (Bytes × Socket) :=
  match s.chunks with
  | [] => s.closes.map fun _ => ([], s)
  | c :: cs =>
    if h : c.val.drop n = [] then .ok (c.val, { s with chunks := cs })
    else .ok (c.val.take n, { s with chunks := ⟨c.val.drop n, h⟩ :: cs })

/-- The loop of `_recv_exact`; every turn but the last takes a byte at least. -/
def recvLoop : Nat → Socket → Nat → Except AgentErr (Bytes × Socket)
  | _, s, 0 => .ok ([], s)
  | 0, s, _ => .ok ([], s)
  | fuel + 1, s, remaining => do
    let (chunk, s) ← s.recv remaining
    if chunk = [] then .error (.signer "connection closed mid-frame")
    else do
      let (rest, s) ← recvLoop fuel s (remaining - chunk.length)
      return (chunk ++ rest, s)

/-- `_recv_exact`. -/
def recvExact (s : Socket) (n : Nat) : Except AgentErr (Bytes × Socket) :=
  recvLoop n s n

end Socket

/-! ## Frames -/

/-- Why `json.loads` fails: `UnicodeDecodeError` and `JSONDecodeError`, or
anything else. -/
inductive LoadErr where
  | malformed (msg : String)
  | raises (msg : String)

/-- `json` with the `repr` of what it gives. -/
structure JsonText where
  dumps : Json → Bytes
  loads : Bytes → Except LoadErr Json
  repr : Json → String

/-- `MAX_FRAME_BYTES`. -/
def maxFrameBytes : Nat := 8 * 1024 * 1024

/-- `_LEN.pack` and `_LEN.unpack`. -/
def packLen (n : Nat) : Bytes := (leBytes 4 n).reverse
def unpackLen (b : Bytes) : Nat := leNat b.reverse

section Frames

variable (text : JsonText)

/-- What `send_frame` writes. -/
def frame (obj : Json) : Except AgentErr Bytes :=
  let body := text.dumps obj
  if maxFrameBytes < body.length then
    .error (.signer ("frame too large to send (" ++ toString body.length ++
      " > " ++ toString maxFrameBytes ++ ")"))
  else .ok (packLen body.length ++ body)

/-- `recv_frame`. -/
def recvFrame (s : Socket) :
    Except AgentErr (List (String × Json) × Socket) := do
  let (header, s) ← s.recvExact 4
  let length := unpackLen header
  if maxFrameBytes < length then
    .error (.signer ("frame too large (" ++ toString length ++ " > " ++
      toString maxFrameBytes ++ ")"))
  else do
    let (body, s) ← s.recvExact length
    match text.loads body with
    | .error (.malformed msg) =>
      .error (.signer ("malformed frame body: " ++ msg))
    | .error (.raises msg) => .error (.other msg)
    | .ok (.obj obj) => .ok (obj, s)
    | .ok _ => .error (.signer "frame body must be a JSON object")

end Frames

/-! ## Dicts -/

/-- What the decoders raise: `KeyError`, `TypeError` and `ValueError`, or an
`OverflowError`. -/
inductive DictErr where
  | shape (msg : String)
  | overflow (msg : String)

/-- `d[k]`. -/
def item (j : Json) (k : String) : Except DictErr Json :=
  match j with
  | .obj entries =>
    match entries.lookup k with
    | some v => .ok v
    | none => .error (.shape ("'" ++ k ++ "'"))
  | _ => .error (.shape "indices must be integers or slices, not str")

/-- `d.get(k, default)`, once `d[...]` has been read. -/
def itemOr (j : Json) (k : String) (default : Json) : Json :=
  match j with
  | .obj entries => (entries.lookup k).getD default
  | _ => default

/-- `int(x)`. -/
def toInt : Json → Except DictErr Int
  | .int n => .ok n
  | .bool b => .ok (if b then 1 else 0)
  | .float q => .ok (Int.tdiv q.num q.den)
  | .nan => .error (.shape "cannot convert float NaN to integer")
  | .infinity _ => .error (.overflow "cannot convert float infinity to integer")
  | .str s =>
    match PyVal.intOfStr s with
    | some n => .ok n
    | none => .error (.shape "invalid literal for int() with base 10")
  | _ =>
    .error (.shape
      "int() argument must be a string, a bytes-like object or a real number")

/-- `str(x)`. -/
def toStr (text : JsonText) : Json → String
  | .str s => s
  | j => text.repr j

/-- The items of an iterable. -/
def iter : Json → Except DictErr (List Json)
  | .arr xs => .ok xs
  | .obj entries => .ok (entries.map fun e => .str e.1)
  | .str s => .ok (s.toList.map fun c => .str c.toString)
  | _ => .error (.shape "object is not iterable")

def InputToSign.toDict (i : InputToSign) : Json :=
  .obj [("input_index", .int i.inputIndex), ("change", .int i.change),
    ("index", .int i.index),
    ("source_tx_hex", .str i.sourceTxHex), ("sighash", .int i.sighash)]

def ChangeClaim.toDict (c : ChangeClaim) : Json :=
  .obj [("output_index", .int c.outputIndex), ("change", .int c.change),
    ("index", .int c.index)]

def SigningRequest.toDict (r : SigningRequest) : Json :=
  .obj [("unsigned_tx_hex", .str r.unsignedTxHex),
    ("inputs", .arr (r.inputs.map InputToSign.toDict)),
    ("change_claims", .arr (r.changeClaims.map ChangeClaim.toDict))]

def SignedResult.toDict (r : SignedResult) : Json :=
  .obj [("signed_tx_hex", .str r.signedTxHex)]

section Decoders

variable (text : JsonText)

def InputToSign.fromDict (d : Json) : Except DictErr InputToSign := do
  let inputIndex ← toInt (← item d "input_index")
  let change ← toInt (← item d "change")
  let index ← toInt (← item d "index")
  let sourceTxHex := toStr text (← item d "source_tx_hex")
  let sighash ← toInt (itemOr d "sighash" (.int Tx.sighashAllForkid))
  return ⟨inputIndex, change, index, sourceTxHex, sighash⟩

def ChangeClaim.fromDict (d : Json) : Except DictErr ChangeClaim := do
  let outputIndex ← toInt (← item d "output_index")
  let change ← toInt (← item d "change")
  let index ← toInt (← item d "index")
  return ⟨outputIndex, change, index⟩

def SigningRequest.fromDict (d : Json) : Except DictErr SigningRequest := do
  let unsignedTxHex := toStr text (← item d "unsigned_tx_hex")
  let inputs ← (← iter (← item d "inputs")).mapM (InputToSign.fromDict text)
  let changeClaims ← (← iter (itemOr d "change_claims" (.arr []))).mapM
    ChangeClaim.fromDict
  return ⟨unsignedTxHex, inputs, changeClaims⟩

def SignedResult.fromDict (d : Json) : Except DictErr SignedResult := do
  let signedTxHex := toStr text (← item d "signed_tx_hex")
  return ⟨signedTxHex⟩

end Decoders

/-! ## The pieces do not matter -/

namespace Socket

/-- What a `recv` of a live socket takes. -/
structure Took (s : Socket) (n : Nat) (chunk : Bytes) (s' : Socket) : Prop where
  some : chunk ≠ []
  atMost : chunk.length ≤ n
  bytes : s.bytes = chunk ++ s'.bytes
  closes : s'.closes = s.closes

/-- A read of at least one byte from a socket with bytes left takes some of
them. -/
theorem recv_took {s : Socket} {n : Nat} (hs : s.bytes ≠ []) (hn : 0 < n) :
    ∃ chunk s', s.recv n = .ok (chunk, s') ∧ Took s n chunk s' := by
  obtain ⟨chunks, closes⟩ := s
  cases chunks with
  | nil => exact absurd rfl hs
  | cons c cs =>
    have hbytes : Socket.bytes ⟨c :: cs, closes⟩ =
        c.val ++ Socket.bytes ⟨cs, closes⟩ := rfl
    by_cases hdrop : c.val.drop n = []
    · refine ⟨c.val, ⟨cs, closes⟩, dif_pos hdrop, c.property, ?_, hbytes, rfl⟩
      exact List.drop_eq_nil_iff.mp hdrop
    · refine ⟨c.val.take n, ⟨⟨c.val.drop n, hdrop⟩ :: cs, closes⟩,
        dif_neg hdrop, ?_, List.length_take_le n _, ?_, rfl⟩
      · rw [Ne, List.take_eq_nil_iff]
        rintro (rfl | hnil)
        · exact absurd hn (Nat.lt_irrefl 0)
        · exact c.property hnil
      · show _ = c.val.take n ++ (c.val.drop n ++ Socket.bytes ⟨cs, closes⟩)
        rw [← List.append_assoc, List.take_append_drop, hbytes]

/-- The read loop collects exactly the bytes asked for, however they were cut.
-/
theorem recvLoop_ok : ∀ {fuel n : Nat} {s : Socket} {a rest : Bytes}, n ≤ fuel →
    s.bytes = a ++ rest → a.length = n → ∃ s', recvLoop fuel s n = .ok (a, s') ∧
    s'.bytes = rest ∧ s'.closes = s.closes
  | fuel, 0, s, a, rest, _, hs, ha => by
    obtain rfl := List.length_eq_zero_iff.mp ha
    exact ⟨s, by cases fuel <;> rfl, hs, rfl⟩
  | fuel + 1, n + 1, s, a, rest, hn, hs, ha => by
    have hne : s.bytes ≠ [] := by
      rw [hs]
      cases a with
      | nil => cases ha
      | cons => nofun
    obtain ⟨chunk, s', hrecv, htook⟩ := recv_took hne (Nat.succ_pos n)
    have hsplit : a ++ rest = chunk ++ s'.bytes := hs.symm.trans htook.bytes
    obtain ⟨more, rfl, hmore⟩ : ∃ more, a = chunk ++ more ∧
        s'.bytes = more ++ rest := by
      refine ⟨a.drop chunk.length, ?_, ?_⟩
      · have := congrArg (List.take chunk.length) hsplit
        rw [List.take_append_of_le_length (by rw [ha]; exact htook.atMost),
          List.take_left] at this
        exact (List.take_append_drop chunk.length a).symm.trans (by rw [this])
      · have := congrArg (List.drop chunk.length) hsplit
        rw [List.drop_append_of_le_length (by rw [ha]; exact htook.atMost),
          List.drop_left] at this
        exact this.symm
    have hpos : 0 < chunk.length := List.length_pos_iff.mpr htook.some
    rw [List.length_append] at ha
    have hfuel : n + 1 - chunk.length ≤ fuel := by omega
    have hleft : more.length = n + 1 - chunk.length := by omega
    obtain ⟨s'', hloop, hrest, hcloses⟩ := recvLoop_ok hfuel hmore hleft
    refine ⟨s'', ?_, hrest, hcloses.trans htook.closes⟩
    simp only [recvLoop, hrecv, bind, Except.bind, if_neg htook.some, hloop,
      pure, Except.pure]

/-- An exact read of a prefix returns the prefix and leaves the rest. -/
theorem recvExact_ok {s : Socket} {a rest : Bytes} (hs : s.bytes = a ++ rest) :
    ∃ s', s.recvExact a.length = .ok (a, s') ∧ s'.bytes = rest ∧
    s'.closes = s.closes :=
  recvLoop_ok (Nat.le_refl _) hs rfl

/-- Where a socket that fails has too little left, the loop fails as the socket
does. -/
theorem recvLoop_fails {e : AgentErr} {fuel n : Nat} {s : Socket}
    (hn : n ≤ fuel)
    (hshort : s.bytes.length < n) (hcloses : s.closes = .error e) :
    recvLoop fuel s n = .error e := by
  induction fuel generalizing n s with
  | zero => omega
  | succ fuel ih =>
    cases n with
    | zero => exact absurd hshort (Nat.not_lt_zero _)
    | succ n =>
      by_cases hnil : s.bytes = []
      · have hrecv : s.recv (n + 1) = .error e := by
          obtain ⟨chunks, closes⟩ := s
          cases chunks with
          | nil =>
            obtain rfl : closes = .error e := hcloses
            rfl
          | cons c cs =>
            exact absurd (List.append_eq_nil_iff.mp hnil).1 c.property
        simp only [recvLoop, hrecv, bind, Except.bind]
      · obtain ⟨chunk, s', hrecv, htook⟩ := recv_took hnil (Nat.succ_pos n)
        have hpos : 0 < chunk.length := List.length_pos_iff.mpr htook.some
        have hatMost := htook.atMost
        rw [htook.bytes, List.length_append] at hshort
        have hloop : recvLoop fuel s' (n + 1 - chunk.length) = .error e :=
          ih (by omega) (by omega) (htook.closes.trans hcloses)
        simp only [recvLoop, hrecv, bind, Except.bind, if_neg htook.some, hloop]

/-- A socket that closes before anything has come. -/
theorem recvExact_closed {s : Socket} {n : Nat} (hs : s.chunks = [])
    (hcloses : s.closes = .ok ()) :
    s.recvExact (n + 1) = .error (.signer "connection closed mid-frame") := by
  obtain ⟨chunks, closes⟩ := s
  cases hs
  cases hcloses
  rfl

/-- An exhausted socket has no chunk left. -/
theorem chunks_nil {s : Socket} (h : s.bytes = []) : s.chunks = [] := by
  obtain ⟨chunks, closes⟩ := s
  cases chunks with
  | nil => rfl
  | cons c cs => exact absurd (List.append_eq_nil_iff.mp h).1 c.property

end Socket

/-- The length prefix reads back. -/
theorem unpackLen_packLen {n : Nat} (h : n ≤ maxFrameBytes) :
    unpackLen (packLen n) = n := by
  rw [unpackLen, packLen, List.reverse_reverse]
  refine leNat_leBytes ?_
  rw [maxFrameBytes] at h
  omega

/-- The length prefix is four bytes. -/
theorem length_packLen (n : Nat) : (packLen n).length = 4 := by
  rw [packLen, List.length_reverse, length_leBytes]

/-- A text within the frame limit is framed behind its length. -/
theorem frame_fits {text : JsonText} {obj : Json}
    (h : (text.dumps obj).length ≤ maxFrameBytes) :
    frame text obj = .ok (packLen (text.dumps obj).length ++ text.dumps obj) :=
  if_neg (Nat.not_lt.mpr h)

/-- **A frame is read back as it was sent**, in whatever pieces it arrives, and
what follows it is left. -/
theorem recvFrame_frame {text : JsonText} {obj : List (String × Json)}
    {b rest : Bytes} {s : Socket}
    (hframe : frame text (.obj obj) = .ok b)
    (hload : text.loads (text.dumps (.obj obj)) = .ok (.obj obj))
    (hs : s.bytes = b ++ rest) : ∃ s', recvFrame text s = .ok (obj, s') ∧
    s'.bytes = rest ∧ s'.closes = s.closes := by
  unfold frame at hframe
  dsimp only at hframe
  split at hframe
  · cases hframe
  · rename_i hsize
    cases hframe
    rw [List.append_assoc] at hs
    obtain ⟨s₁, hheader, hs₁, hcloses₁⟩ := Socket.recvExact_ok hs
    obtain ⟨s₂, hbody, hs₂, hcloses₂⟩ := Socket.recvExact_ok hs₁
    rw [length_packLen] at hheader
    refine ⟨s₂, ?_, hs₂, hcloses₂.trans hcloses₁⟩
    unfold recvFrame
    simp only [hheader, bind, Except.bind,
      unpackLen_packLen (Nat.le_of_not_lt hsize), if_neg hsize, hbody, hload]

/-- A socket that fails before the length of a frame is there. -/
theorem recvFrame_short {text : JsonText} {s : Socket} {e : AgentErr}
    (hs : s.bytes.length < 4)
    (hcloses : s.closes = .error e) : recvFrame text s = .error e := by
  have hheader : s.recvExact 4 = .error e :=
    Socket.recvLoop_fails (Nat.le_refl 4) hs hcloses
  unfold recvFrame
  rw [hheader]
  rfl

/-- **A frame that is cut off is not read**: its socket's failure is all there
is. -/
theorem recvFrame_fails {text : JsonText} {obj : List (String × Json)}
    {b rest : Bytes} {s : Socket} {e : AgentErr}
    (hframe : frame text (.obj obj) = .ok b) (hs : b = s.bytes ++ rest)
    (hrest : rest ≠ [])
    (hcloses : s.closes = .error e) : recvFrame text s = .error e := by
  unfold frame at hframe
  dsimp only at hframe
  split at hframe
  · cases hframe
  · rename_i hsize
    cases hframe
    have hlength := congrArg List.length hs
    have hpos : 0 < rest.length := List.length_pos_iff.mpr hrest
    rw [List.length_append, List.length_append, length_packLen] at hlength
    rcases Nat.lt_or_ge s.bytes.length 4 with hshort | hlong
    · exact recvFrame_short hshort hcloses
    · -- The header is there, and the body is not.
      have hhead : s.bytes =
          packLen (text.dumps (.obj obj)).length ++ s.bytes.drop 4 := by
        have htake := congrArg (List.take 4) hs
        rw [List.take_left' (length_packLen _),
          List.take_append_of_le_length hlong] at htake
        rw [htake, List.take_append_drop]
      obtain ⟨s₁, hheader, hs₁, hcloses₁⟩ := Socket.recvExact_ok hhead
      rw [length_packLen] at hheader
      have hbody : s₁.recvExact (text.dumps (.obj obj)).length = .error e := by
        refine Socket.recvLoop_fails (Nat.le_refl _) ?_ (hcloses₁.trans hcloses)
        rw [hs₁, List.length_drop]
        omega
      unfold recvFrame
      simp only [hheader, bind, Except.bind,
        unpackLen_packLen (Nat.le_of_not_lt hsize), if_neg hsize, hbody]

/-- A peer that hangs up without a word. -/
theorem recvFrame_closed {text : JsonText} {s : Socket} (hs : s.bytes = [])
    (hcloses : s.closes = .ok ()) :
    recvFrame text s = .error (.signer "connection closed mid-frame") := by
  unfold recvFrame
  rw [Socket.recvExact_closed (Socket.chunks_nil hs) hcloses]
  rfl

/-! ## A request survives its dict -/

section Dicts

variable (text : JsonText)

/-- An input to sign survives its dictionary. -/
theorem InputToSign.fromDict_toDict (i : InputToSign) :
    InputToSign.fromDict text i.toDict = .ok i := rfl

theorem ChangeClaim.fromDict_toDict (c : ChangeClaim) :
    ChangeClaim.fromDict c.toDict = .ok c := rfl

theorem SignedResult.fromDict_toDict (r : SignedResult) :
    SignedResult.fromDict text r.toDict = .ok r := rfl

theorem SigningRequest.fromDict_toDict (r : SigningRequest) :
    SigningRequest.fromDict text r.toDict = .ok r := by
  have hinputs : (r.inputs.map InputToSign.toDict).mapM
      (InputToSign.fromDict text) = .ok r.inputs := by
    rw [mapM_map_ok (r := id) r.inputs fun i _ =>
      InputToSign.fromDict_toDict text i, List.map_id]
  have hclaims : (r.changeClaims.map ChangeClaim.toDict).mapM
      ChangeClaim.fromDict = .ok r.changeClaims := by
    rw [mapM_map_ok (r := id) r.changeClaims fun c _ =>
      ChangeClaim.fromDict_toDict c, List.map_id]
  show (do
    let inputs ← (r.inputs.map InputToSign.toDict).mapM
      (InputToSign.fromDict text)
    let changeClaims ← (r.changeClaims.map ChangeClaim.toDict).mapM
      ChangeClaim.fromDict
    return SigningRequest.mk r.unsignedTxHex inputs changeClaims) = _
  rw [hinputs, hclaims]
  rfl

end Dicts

end Pyrxd.Agent
