import Pyrxd.Lib.OrderedMap
import Pyrxd.Lib.Text
import Pyrxd.Swap.Partial
import Pyrxd.Tx.PreimageSpec

/-!
# Scripts as text

`Script` of `script/script.py`: a script is read into chunks, written as text
and read back from it. The reader knows pushes only: a ref opcode is a chunk by
itself, and the 36 bytes behind it are read as more opcodes.

So a script comes back from its text, and from its chunks, exactly if it is not
empty and is plain (`Plain`): read so, it is again a row of known opcodes and
shortest pushes, none of them cut short (`comes_back_iff`).
-/

namespace Pyrxd.Tx

open Pyrxd.Lib
open Pyrxd.Swap (encodePushdata getPushdataCode)

/-! ## Names of opcodes -/

/-- The opcodes and their names, in the order of the enumeration. A second name
of an opcode (`OP_FALSE`, `OP_TRUE`) is not among them. -/
def opcodeValueNames : List (UInt8 × String) :=
  [(0x00, "OP_0"), (0x4C, "OP_PUSHDATA1"), (0x4D, "OP_PUSHDATA2"),
    (0x4E, "OP_PUSHDATA4"), (0x4F, "OP_1NEGATE"), (0x50, "OP_RESERVED"), (0x51,
    "OP_1"), (0x52, "OP_2"), (0x53, "OP_3"), (0x54, "OP_4"), (0x55, "OP_5"),
   (0x56, "OP_6"), (0x57, "OP_7"), (0x58, "OP_8"), (0x59, "OP_9"),
     (0x5A, "OP_10"), (0x5B, "OP_11"), (0x5C, "OP_12"), (0x5D, "OP_13"),
     (0x5E, "OP_14"), (0x5F, "OP_15"), (0x60, "OP_16"), (0x61, "OP_NOP"),
     (0x62, "OP_VER"),
   (0x63, "OP_IF"), (0x64, "OP_NOTIF"), (0x65, "OP_VERIF"),
     (0x66, "OP_VERNOTIF"), (0x67, "OP_ELSE"),
   (0x68, "OP_ENDIF"), (0x69, "OP_VERIFY"), (0x6A, "OP_RETURN"),
     (0x6B, "OP_TOALTSTACK"), (0x6C, "OP_FROMALTSTACK"), (0x6D, "OP_2DROP"),
     (0x6E, "OP_2DUP"), (0x6F, "OP_3DUP"), (0x70, "OP_2OVER"),
     (0x71, "OP_2ROT"),
   (0x72, "OP_2SWAP"), (0x73, "OP_IFDUP"), (0x74, "OP_DEPTH"),
     (0x75, "OP_DROP"), (0x76, "OP_DUP"), (0x77, "OP_NIP"), (0x78, "OP_OVER"),
     (0x79, "OP_PICK"), (0x7A, "OP_ROLL"), (0x7B, "OP_ROT"), (0x7C, "OP_SWAP"),
     (0x7D, "OP_TUCK"), (0x7E, "OP_CAT"), (0x7F, "OP_SPLIT"),
     (0x80, "OP_NUM2BIN"), (0x81, "OP_BIN2NUM"), (0x82, "OP_SIZE"),
   (0x83, "OP_INVERT"), (0x84, "OP_AND"), (0x85, "OP_OR"), (0x86, "OP_XOR"),
     (0x87, "OP_EQUAL"),
   (0x88, "OP_EQUALVERIFY"), (0x89, "OP_RESERVED1"), (0x8A, "OP_RESERVED2"),
     (0x8B, "OP_1ADD"), (0x8C, "OP_1SUB"), (0x8D, "OP_2MUL"), (0x8E, "OP_2DIV"),
     (0x8F, "OP_NEGATE"), (0x90, "OP_ABS"), (0x91, "OP_NOT"),
   (0x92, "OP_0NOTEQUAL"), (0x93, "OP_ADD"), (0x94, "OP_SUB"),
     (0x95, "OP_MUL"), (0x96, "OP_DIV"), (0x97, "OP_MOD"),
     (0x98, "OP_LSHIFT"), (0x99, "OP_RSHIFT"), (0x9A, "OP_BOOLAND"),
     (0x9B, "OP_BOOLOR"), (0x9C, "OP_NUMEQUAL"), (0x9D, "OP_NUMEQUALVERIFY"),
     (0x9E, "OP_NUMNOTEQUAL"), (0x9F, "OP_LESSTHAN"), (0xA0, "OP_GREATERTHAN"),
   (0xA1, "OP_LESSTHANOREQUAL"), (0xA2, "OP_GREATERTHANOREQUAL"),
     (0xA3, "OP_MIN"), (0xA4, "OP_MAX"),
   (0xA5, "OP_WITHIN"), (0xA6, "OP_RIPEMD160"), (0xA7, "OP_SHA1"),
     (0xA8, "OP_SHA256"), (0xA9, "OP_HASH160"),
   (0xAA, "OP_HASH256"), (0xAB, "OP_CODESEPARATOR"), (0xAC, "OP_CHECKSIG"),
     (0xAD, "OP_CHECKSIGVERIFY"),
   (0xAE, "OP_CHECKMULTISIG"), (0xAF, "OP_CHECKMULTISIGVERIFY"),
     (0xB0, "OP_NOP1"), (0xB1, "OP_CHECKLOCKTIMEVERIFY"),
     (0xB2, "OP_CHECKSEQUENCEVERIFY"), (0xB3, "OP_NOP4"), (0xB4, "OP_NOP5"),
     (0xB5, "OP_NOP6"), (0xB6, "OP_NOP7"), (0xB7, "OP_NOP8"), (0xB8, "OP_NOP9"),
     (0xB9, "OP_NOP10"), (0xBA, "OP_CHECKDATASIG"),
   (0xBB, "OP_CHECKDATASIGVERIFY"), (0xBC, "OP_REVERSEBYTES"),
     (0xBD, "OP_STATESEPARATOR"),
   (0xBE, "OP_STATESEPARATORINDEX_UTXO"),
     (0xBF, "OP_STATESEPARATORINDEX_OUTPUT"), (0xC0, "OP_INPUTINDEX"),
   (0xC1, "OP_ACTIVEBYTECODE"), (0xC2, "OP_TXVERSION"),
     (0xC3, "OP_TXINPUTCOUNT"), (0xC4, "OP_TXOUTPUTCOUNT"),
     (0xC5, "OP_TXLOCKTIME"), (0xC6, "OP_UTXOVALUE"), (0xC7, "OP_UTXOBYTECODE"),
     (0xC8, "OP_OUTPOINTTXHASH"),
   (0xC9, "OP_OUTPOINTINDEX"), (0xCA, "OP_INPUTBYTECODE"),
     (0xCB, "OP_INPUTSEQUENCENUMBER"),
   (0xCC, "OP_OUTPUTVALUE"), (0xCD, "OP_OUTPUTBYTECODE"),
     (0xCE, "OP_SHA512_256"), (0xCF, "OP_HASH512_256"),
   (0xD0, "OP_PUSHINPUTREF"), (0xD1, "OP_REQUIREINPUTREF"),
     (0xD2, "OP_DISALLOWPUSHINPUTREF"),
   (0xD3, "OP_DISALLOWPUSHINPUTREFSIBLING"),
     (0xD4, "OP_REFHASHDATASUMMARY_UTXO"),
   (0xD5, "OP_REFHASHVALUESUM_UTXOS"), (0xD6, "OP_REFHASHDATASUMMARY_OUTPUT"),
     (0xD7, "OP_REFHASHVALUESUM_OUTPUTS"), (0xD8, "OP_PUSHINPUTREFSINGLETON"),
     (0xD9, "OP_REFTYPE_UTXO"), (0xDA, "OP_REFTYPE_OUTPUT"),
   (0xDB, "OP_REFVALUESUM_UTXOS"), (0xDC, "OP_REFVALUESUM_OUTPUTS"),
     (0xDD, "OP_REFOUTPUTCOUNT_UTXOS"),
   (0xDE, "OP_REFOUTPUTCOUNT_OUTPUTS"),
     (0xDF, "OP_REFOUTPUTCOUNTZEROVALUED_UTXOS"),
   (0xE0, "OP_REFOUTPUTCOUNTZEROVALUED_OUTPUTS"),
     (0xE1, "OP_REFDATASUMMARY_UTXO"),
   (0xE2, "OP_REFDATASUMMARY_OUTPUT"),
     (0xE3, "OP_CODESCRIPTHASHVALUESUM_UTXOS"),
   (0xE4, "OP_CODESCRIPTHASHVALUESUM_OUTPUTS"),
     (0xE5, "OP_CODESCRIPTHASHOUTPUTCOUNT_UTXOS"),
   (0xE6, "OP_CODESCRIPTHASHOUTPUTCOUNT_OUTPUTS"),
     (0xE7, "OP_CODESCRIPTHASHZEROVALUEDOUTPUTCOUNT_UTXOS"),
   (0xE8, "OP_CODESCRIPTHASHZEROVALUEDOUTPUTCOUNT_OUTPUTS"),
     (0xE9, "OP_CODESCRIPTBYTECODE_UTXO"),
   (0xEA, "OP_CODESCRIPTBYTECODE_OUTPUT"),
     (0xEB, "OP_STATESCRIPTBYTECODE_UTXO"),
   (0xEC, "OP_STATESCRIPTBYTECODE_OUTPUT"), (0xFB, "OP_DATA"), (0xFC, "OP_SIG"),
     (0xFD, "OP_PUBKEYHASH"),
   (0xFE, "OP_PUBKEY"), (0xFF, "OP_INVALIDOPCODE")]

/-- The bytes of a name. -/
def nameBytes (name : String) : Bytes := name.toByteArray.data.toList

/-- A name as a number, to tell names apart. -/
def nameCode (name : String) : Nat :=
  (nameBytes name).foldl (fun code b => 256 * code + b.toNat) 0

/-- The table lists opcodes in increasing order. -/
theorem opcodeValues_increase :
    (opcodeValueNames.map fun p => p.1.toNat).IsChain (· < ·) := by
  set_option maxRecDepth 4000 in decide

/-- Names are told apart by their codes. -/
theorem nodup_nameCodes :
    (opcodeValueNames.map fun p => nameCode p.2).Nodup := by
  decide +kernel

theorem nodup_opcodeValues : (opcodeValueNames.map Prod.fst).Nodup := by
  refine List.Nodup.of_map UInt8.toNat ?_
  rw [List.map_map]
  exact (List.isChain_iff_pairwise.mp opcodeValues_increase).imp Nat.ne_of_lt

theorem nodup_opcodeNames :
    ((opcodeValueNames.map Prod.swap).map Prod.fst).Nodup := by
  refine List.Nodup.of_map nameCode ?_
  rw [List.map_map, List.map_map]
  exact nodup_nameCodes

/-- `OPCODE_VALUE_NAME_DICT`. -/
def opcodeValueNameDict : OrderedMap UInt8 String :=
  ⟨opcodeValueNames, nodup_opcodeValues⟩

/-- `OpCode[name].value`, of the names in the dict. -/
def opCode : OrderedMap String UInt8 :=
  ⟨opcodeValueNames.map Prod.swap, nodup_opcodeNames⟩

/-! ## Chunks -/

/-- `ScriptChunk`; no `op` is Python's `None`. -/
structure ScriptChunk where
  op : Option UInt8
  data : Option Bytes
deriving DecidableEq

/-- `str(chunk)`. -/
def ScriptChunk.str (c : ScriptChunk) : Except PyErr String :=
  match c.data with
  | some d => .ok (hex d)
  | none =>
    match c.op.bind opcodeValueNameDict.get? with
    | some name => .ok name
    | none => .error (.other "KeyError")

/-- `length = reader.read_uintN_le()` with `n` bytes, and
`data = reader.read_bytes(length)` if it is not `None`: at the end of the script
there is no length, and a length cut short counts as what is there. -/
def readPushdata (n : Nat) (rest : Bytes) : Option Bytes × Bytes :=
  match rest with
  | [] => (none, [])
  | _ :: _ =>
    let length := leNat (rest.take n)
    (some ((rest.drop n).take length), (rest.drop n).drop length)

/-- One turn of `_build_chunks`: what it reads behind an opcode. -/
def readData (op : UInt8) (rest : Bytes) : Option Bytes × Bytes :=
  if 0x01 ≤ op ∧ op ≤ 0x4B then (some (rest.take op.toNat), rest.drop op.toNat)
  else if op = 0x4C then readPushdata 1 rest
  else if op = 0x4D then readPushdata 2 rest
  else if op = 0x4E then readPushdata 4 rest
  else (none, rest)

/-- `_build_chunks`. -/
def buildChunks (script : Bytes) : List ScriptChunk := go script.length script
where
  go : Nat → Bytes → List ScriptChunk
    | 0, _ => []
    | _, [] => []
    | fuel + 1, op :: rest =>
      ⟨some op, (readData op rest).1⟩ :: go fuel (readData op rest).2

structure Script where
  script : Bytes
  chunks : List ScriptChunk

namespace Script

/-- `Script(script)`, of bytes. -/
def new (script : Bytes) : Script := ⟨script, buildChunks script⟩

def serialize (s : Script) : Bytes := s.script

/-- `to_asm`. -/
def toAsm (s : Script) : Except PyErr String := do
  let tokens ← s.chunks.mapM ScriptChunk.str
  return " ".intercalate tokens

end Script

/-- What `from_chunks` adds for a chunk. -/
def ScriptChunk.encode (c : ScriptChunk) : Except PyErr Bytes :=
  match c.data with
  | some d => encodePushdata d
  | none =>
    match c.op with
    | some op => .ok [op]
    | none => .error (.other "can't concat NoneType to bytes")

/-- `from_chunks`. -/
def Script.fromChunks (chunks : List ScriptChunk) : Except PyErr Script := do
  let parts ← chunks.mapM ScriptChunk.encode
  return ⟨parts.flatten, chunks⟩

/-! ## Reading text -/

/-- The bytes of a token that is no opcode. -/
def tokenBytes (token : String) : Except PyErr Bytes :=
  let hexString := if token.length % 2 ≠ 0 then "0" ++ token else token
  match fromHex hexString with
  | none => .error (.other "non-hexadecimal number found in fromhex() arg")
  | some hexBytes =>
    if hex hexBytes ≠ hexString then .error
      (.other "invalid hex string in script") else .ok hexBytes

/-- The opcode of a push of so many bytes. -/
def pushOpcode (hexLen : Nat) : Option UInt8 :=
  if hexLen < 0x4C then some (UInt8.ofNat hexLen)
  else if hexLen < 2 ^ 8 then some 0x4C
  else if hexLen < 2 ^ 16 then some 0x4D
  else if hexLen < 2 ^ 32 then some 0x4E
  else none

/-- The opcode that a token names; every name in the dict starts with `OP_`. -/
def tokenOpcode (token : String) : Option UInt8 :=
  opCode.get? (if token = "OP_FALSE" then "OP_0" else token)

/-- The loop of `from_asm`. -/
def asmChunks : List String → Except PyErr (List ScriptChunk)
  | [] => .ok []
  | token :: rest =>
    if token = "0" then (asmChunks rest).map (⟨some 0x00, none⟩ :: ·)
    else if token = "-1" then (asmChunks rest).map (⟨some 0x4F, none⟩ :: ·)
    else
      match tokenOpcode token with
      | none => do
        let hexBytes ← tokenBytes token
        (asmChunks rest).map (⟨pushOpcode hexBytes.length, some hexBytes⟩ :: ·)
      | some op =>
        if op = 0x4C ∨ op = 0x4D ∨ op = 0x4E then
          match rest with
          | _ :: data :: rest =>
            match fromHex data with
            | none =>
              .error (.other "non-hexadecimal number found in fromhex() arg")
            | some d => (asmChunks rest).map (⟨some op, some d⟩ :: ·)
          | _ => .error (.other "list index out of range")
        else (asmChunks rest).map (⟨some op, none⟩ :: ·)

/-- `from_asm`. -/
def Script.fromAsm (asm : String) : Except PyErr Script := do
  let chunks ← asmChunks ((asm.toList.splitOn ' ').map String.ofList)
  Script.fromChunks chunks

/-! ## What should come back -/

/-- The text of a script, read back, is the script. -/
def AsmComesBack (s : Bytes) : Prop :=
  ∃ asm s', (Script.new s).toAsm = .ok asm ∧ Script.fromAsm asm = .ok s' ∧
    s'.serialize = s

/-- The chunks of a script, put together, are the script. -/
def ChunksComeBack (s : Bytes) : Prop :=
  ∃ s', Script.fromChunks (Script.new s).chunks = .ok s' ∧ s'.serialize = s

/-- What scripts are made of: opcodes, pushes in their shortest form, and ref
opcodes with their operand. -/
inductive ScriptPiece where
  | op (code : UInt8)
  | push (data : Bytes)
  | ref (code : UInt8) (operand : Bytes)

/-- The shortest push of some bytes. -/
def shortestPush (d : Bytes) : Bytes :=
  if d.length ≤ 75 then UInt8.ofNat d.length :: d
  else if d.length ≤ 0xFF then 0x4C :: (leBytes 1 d.length ++ d)
  else if d.length ≤ 0xFFFF then 0x4D :: (leBytes 2 d.length ++ d)
  else 0x4E :: (leBytes 4 d.length ++ d)

namespace ScriptPiece

def bytes : ScriptPiece → Bytes
  | op code => [code]
  | push data => shortestPush data
  | ref code operand => code :: operand

/-- A known opcode, other than the three in front of a length. -/
def IsOp (code : UInt8) : Prop :=
  (opcodeValueNameDict.get? code).isSome ∧ code ≠ 0x4C ∧
    code ≠ 0x4D ∧ code ≠ 0x4E

/-- Data that is pushed as data: there is some, it fits, and no opcode of one
byte pushes it. -/
def IsData (d : Bytes) : Prop :=
  1 ≤ d.length ∧ d.length < 2 ^ 32 ∧ ∀ b, d = [b] →
    ¬ (1 ≤ b ∧ b ≤ 16) ∧ b ≠ 0x81

/-- A piece of a script as the chain reads it. -/
def Ok : ScriptPiece → Prop
  | op code => IsOp code ∧ ¬ (0xD0 ≤ code ∧ code ≤ 0xD8)
  | push data => IsData data
  | ref code operand => 0xD0 ≤ code ∧ code ≤ 0xD8 ∧ operand.length = 36

/-- A piece for a reader to whom a ref opcode is an opcode like any other. -/
def Plain : ScriptPiece → Prop
  | op code => IsOp code
  | push data => IsData data
  | ref _ _ => False

end ScriptPiece

/-- A script that reads as a row of pieces. -/
def ReadsAs (P : ScriptPiece → Prop) (s : Bytes) : Prop :=
  ∃ pieces : List ScriptPiece, (∀ p ∈ pieces, P p) ∧
    s = pieces.flatMap ScriptPiece.bytes

/-! ## Pushes -/

instance (code : UInt8) : Decidable (ScriptPiece.IsOp code) := by
  unfold ScriptPiece.IsOp
  infer_instance

section Pushes

variable {d e : Bytes}

/-- Data of two bytes or more is pushed in the shortest way. -/
theorem encodePushdata_shortest (h : 2 ≤ d.length) (hfits : d.length < 2 ^ 32) :
    encodePushdata d = .ok (shortestPush d) := by
  have hcode : ∃ code, getPushdataCode d.length = .ok code ∧
      code ++ d = shortestPush d := by
    unfold getPushdataCode shortestPush
    split
    · exact ⟨_, rfl, rfl⟩
    split
    · exact ⟨_, rfl, rfl⟩
    split
    · exact ⟨_, rfl, rfl⟩
    · rw [if_pos (by omega)]
      exact ⟨_, rfl, rfl⟩
  obtain ⟨code, hcode, hpush⟩ := hcode
  match d, h with
  | x :: y :: rest, _ =>
    rw [encodePushdata, hcode, ok_bind, pure_eq_ok, hpush]
    · nofun
    · nofun

/-- What `encode_pushdata` writes: an opcode that pushes the data by itself, or
the shortest push. -/
theorem encodePushdata_cases (h : encodePushdata d = .ok e) :
    (d = [] ∧ e = [0x00]) ∨
    (∃ b, d = [b] ∧ 1 ≤ b ∧ b ≤ 16 ∧ e = [0x51 + b - 1]) ∨
      (d = [0x81] ∧ e = [0x4F]) ∨
        (ScriptPiece.IsData d ∧ e = shortestPush d) := by
  match d with
  | [] =>
    cases h
    exact .inl ⟨rfl, rfl⟩
  | [b] =>
    rw [encodePushdata] at h
    split at h
    · next hb =>
      cases h
      exact .inr (.inl ⟨b, rfl, hb.1, hb.2, rfl⟩)
    next hb =>
      split at h
      · next h81 =>
        cases h
        exact .inr (.inr (.inl ⟨by rw [h81], rfl⟩))
      · next h81 =>
        cases h
        refine .inr (.inr (.inr ⟨⟨Nat.le_refl 1, Nat.one_lt_two_pow (by decide),
          fun x hx => ?_⟩, rfl⟩))
        injection hx with hx
        exact hx ▸ ⟨hb, h81⟩
  | x :: y :: rest =>
    have hlen : 2 ≤ (x :: y :: rest).length := by
      rw [List.length_cons, List.length_cons]
      omega
    have hfits : (x :: y :: rest).length < 2 ^ 32 := by
      by_contra hbig
      have hcode : getPushdataCode (x :: y :: rest).length =
          .error (.other "data too long to encode in a PUSHDATA opcode") := by
        rw [getPushdataCode, if_neg (by omega), if_neg (by omega),
          if_neg (by omega), if_neg (by omega)]
      rw [encodePushdata, hcode] at h
      · cases h
      · nofun
      · nofun
    rw [encodePushdata_shortest hlen hfits, Except.ok.injEq] at h
    exact .inr
      (.inr (.inr ⟨⟨by omega, hfits, fun b hb => by cases hb⟩, h.symm⟩))

theorem encodePushdata_data (h : ScriptPiece.IsData d) :
    encodePushdata d = .ok (shortestPush d) := by
  obtain ⟨hpos, hfits, hone⟩ := h
  match d with
  | [b] =>
    obtain ⟨hsmall, h81⟩ := hone b rfl
    rw [encodePushdata, if_neg hsmall, if_neg h81]
    rfl
  | x :: y :: rest => exact encodePushdata_shortest (by rw [List.length_cons, List.length_cons]; omega) hfits

/-- Whatever is pushed is a piece. -/
theorem encodePushdata_piece (h : encodePushdata d = .ok e) :
    ∃ p : ScriptPiece, p.Plain ∧ p.bytes = e := by
  have hsmall : ∀ k ≤ 16, 1 ≤ k →
      ScriptPiece.IsOp (0x51 + UInt8.ofNat k - 1) := by decide
  rcases encodePushdata_cases h with ⟨-, rfl⟩ | ⟨b, -, h1, h16, rfl⟩ | ⟨-,
    rfl⟩ | ⟨hd, rfl⟩
  · exact ⟨.op 0x00, (by decide : ScriptPiece.IsOp 0x00), rfl⟩
  · have hop := hsmall b.toNat h16 h1
    rw [UInt8.ofNat_toNat] at hop
    exact ⟨.op _, hop, rfl⟩
  · exact ⟨.op 0x4F, (by decide : ScriptPiece.IsOp 0x4F), rfl⟩
  · exact ⟨.push d, hd, rfl⟩

/-- No push is longer than the one that has `n` bytes of length. -/
theorem length_encodePushdata (h : encodePushdata d = .ok e) {n : Nat}
    (hn : n = 1 ∨ n = 2 ∨ n = 4)
    (hd : d.length < 256 ^ n) : e.length ≤ 1 + n + d.length := by
  rcases encodePushdata_cases h with ⟨-, rfl⟩ | ⟨b, -, -, -, rfl⟩ | ⟨-,
    rfl⟩ | ⟨-, rfl⟩
  · rw [List.length_singleton]
    omega
  · rw [List.length_singleton]
    omega
  · rw [List.length_singleton]
    omega
  · rw [shortestPush]
    rcases hn with rfl | rfl | rfl <;> split <;> (try split) <;> (try split) <;>
      simp only [List.length_cons, List.length_append, length_leBytes] <;> omega

/-- A direct push adds one byte. -/
theorem length_encodePushdata_direct (h : encodePushdata d = .ok e)
    (hd : d.length ≤ 75) :
    e.length ≤ 1 + d.length := by
  rcases encodePushdata_cases h with ⟨-, rfl⟩ | ⟨b, -, -, -, rfl⟩ | ⟨-,
    rfl⟩ | ⟨-, rfl⟩
  · exact Nat.le_add_right 1 _
  · exact Nat.le_add_right 1 _
  · exact Nat.le_add_right 1 _
  · rw [shortestPush, if_pos hd, List.length_cons]
    omega

end Pushes

/-! ## Reading chunks -/

/-- A chunk that is no opcode in front of a length that is missing. -/
def ScriptChunk.Whole (c : ScriptChunk) : Prop :=
  c.data = none → c.op ≠ some 0x4C ∧ c.op ≠ some 0x4D ∧ c.op ≠ some 0x4E

section Reading

variable {op : UInt8} {rest d e : Bytes} {p : ScriptPiece} {c : ScriptChunk}
  {name : String}

/-- Behind a chunk, the script goes on; and the chunk is encoded in no more
bytes than it was read from. -/
theorem readPushdata_split {n : Nat} (hn : n = 1 ∨ n = 2 ∨ n = 4)
    (h : (readPushdata n rest).1 = some d)
    (he : encodePushdata d = .ok e) : ∃ q, rest = q ++ (readPushdata n rest).2 ∧
    e.length ≤ 1 + q.length := by
  match rest with
  | x :: xs =>
    have hd : d = ((x :: xs).drop n).take (leNat ((x :: xs).take n)) :=
      (Option.some.inj h).symm
    have hsplit : x :: xs =
        (x :: xs).take n ++ (d ++ (readPushdata n (x :: xs)).2) := by
      rw [hd]
      show _ = _ ++ (_ ++ ((x :: xs).drop n).drop (leNat ((x :: xs).take n)))
      rw [List.take_append_drop, List.take_append_drop]
    refine ⟨(x :: xs).take n ++ d, ?_, ?_⟩
    · rw [List.append_assoc, ← hsplit]
    · rw [List.length_append]
      rcases Nat.lt_or_ge n (x :: xs).length with hlt | hge
      · have htake : ((x :: xs).take n).length = n :=
          List.length_take_of_le (Nat.le_of_lt hlt)
        have hval : leNat ((x :: xs).take n) < 256 ^ n := by
          have hlt := leNat_lt ((x :: xs).take n)
          rwa [htake] at hlt
        have hdlen : d.length ≤ leNat ((x :: xs).take n) := by
          rw [hd]
          exact List.length_take_le _ _
        have := length_encodePushdata he hn (by omega)
        omega
      · -- nothing is left behind the length
        have hnil : d = [] := by
          rw [hd, List.drop_eq_nil_of_le hge, List.take_nil]
        subst hnil
        cases he
        exact Nat.le_add_right 1 _

/-- What a push reads is what it is encoded to. -/
theorem readData_split (he : ScriptChunk.encode ⟨some op,
      (readData op rest).1⟩ = .ok e) :
    ∃ q, rest = q ++ (readData op rest).2 ∧ e.length ≤ 1 + q.length := by
  -- behind each length prefix the data is what is left, cut short at the end
  have hlength : ∀ n, n = 1 ∨ n = 2 ∨ n = 4 →
      ScriptChunk.encode ⟨some op, (readPushdata n rest).1⟩ = .ok e →
      ∃ q, rest = q ++ (readPushdata n rest).2 ∧ e.length ≤ 1 + q.length := by
    intro n hn he
    cases hd : (readPushdata n rest).1 with
    | some d =>
      rw [hd] at he
      exact readPushdata_split hn hd he
    | none =>
      rw [hd] at he
      cases he
      match rest, hd with
      | [], _ => exact ⟨[], rfl, Nat.le_refl 1⟩
  unfold readData at he ⊢
  split at he
  · next hop =>
    rw [if_pos hop]
    have h75 : op.toNat ≤ 75 := hop.2
    exact ⟨rest.take op.toNat, (List.take_append_drop _ _).symm,
      length_encodePushdata_direct he
        (Nat.le_trans (List.length_take_le _ _) h75)⟩
  next hop =>
    rw [if_neg hop]
    split at he
    · next h1 =>
      rw [if_pos h1]
      exact hlength 1 (.inl rfl) he
    next h1 =>
      rw [if_neg h1]
      split at he
      · next h2 =>
        rw [if_pos h2]
        exact hlength 2 (.inr (.inl rfl)) he
      next h2 =>
        rw [if_neg h2]
        split at he
        · next h4 =>
          rw [if_pos h4]
          exact hlength 4 (.inr (.inr rfl)) he
        next h4 =>
          rw [if_neg h4]
          cases he
          exact ⟨[], rfl, Nat.le_refl 1⟩

/-- A chunk with a name that is encoded is encoded as a piece. -/
theorem encode_piece (hstr : c.str = .ok name) (hw : c.Whole)
    (he : c.encode = .ok e) :
    ∃ p : ScriptPiece, p.Plain ∧ p.bytes = e := by
  obtain ⟨op, data⟩ := c
  cases data with
  | some d => exact encodePushdata_piece he
  | none =>
    cases op with
    | none => cases hstr
    | some op =>
      cases he
      obtain ⟨h1, h2, h4⟩ := hw rfl
      have hknown : (opcodeValueNameDict.get? op).isSome := by
        unfold ScriptChunk.str at hstr
        dsimp only [Option.bind_some] at hstr
        split at hstr
        · next hget =>
          rw [hget]
          rfl
        · cases hstr
      exact ⟨.op op, ⟨hknown, fun h => h1 (congrArg some h),
        fun h => h2 (congrArg some h),
        fun h => h4 (congrArg some h)⟩, rfl⟩

/-- Behind a chunk that is not whole, there is nothing. -/
theorem readData_not_whole (h : ¬ ScriptChunk.Whole ⟨some op,
      (readData op rest).1⟩) :
    (op = 0x4C ∨ op = 0x4D ∨ op = 0x4E) ∧ (readData op rest).1 = none ∧
    (readData op rest).2 = [] := by
  obtain ⟨hnone, hop⟩ := Classical.not_imp.mp h
  have hop : op = 0x4C ∨ op = 0x4D ∨ op = 0x4E := by
    by_contra hno
    rw [not_or, not_or] at hno
    exact hop ⟨fun heq => hno.1 (Option.some.inj heq),
      fun heq => hno.2.1 (Option.some.inj heq),
      fun heq => hno.2.2 (Option.some.inj heq)⟩
  refine ⟨hop, hnone, ?_⟩
  have hend : ∀ n, (readPushdata n rest).1 = none →
      (readPushdata n rest).2 = [] := by
    intro n hn
    match rest, hn with
    | [], _ => rfl
  rcases hop with rfl | rfl | rfl
  · exact hend 1 hnone
  · exact hend 2 hnone
  · exact hend 4 hnone

/-- **A piece is read as one chunk**, which is encoded as the piece. -/
theorem go_piece (h : p.Plain) (fuel : Nat) (rest : Bytes) : ∃ c : ScriptChunk,
    buildChunks.go (fuel + 1) (p.bytes ++ rest) =
      c :: buildChunks.go fuel rest ∧ c.encode = .ok p.bytes ∧
      (∃ name, c.str = .ok name) ∧ c.Whole := by
  cases p with
  | op code =>
    obtain ⟨hknown, h1, h2, h4⟩ : ScriptPiece.IsOp code := h
    refine ⟨⟨some code, none⟩, ?_, rfl, ?_,
      fun _ => ⟨fun heq => h1 (Option.some.inj heq),
      fun heq => h2 (Option.some.inj heq), fun heq => h4 (Option.some.inj heq)⟩⟩
    · have hno : ¬ (0x01 ≤ code ∧ code ≤ 0x4B) := by
        rintro ⟨hlo, hhi⟩
        -- a named opcode is no direct push, which the table shows number by
        -- number
        have hall : ∀ k ≤ 0x4B, 1 ≤ k →
            opcodeValueNameDict.get? (UInt8.ofNat k) = none := by
          set_option maxRecDepth 4000 in decide
        have hnone := hall code.toNat hhi hlo
        rw [UInt8.ofNat_toNat] at hnone
        rw [hnone] at hknown
        cases hknown
      show (⟨some code, (readData code rest).1⟩ : ScriptChunk) ::
        buildChunks.go fuel (readData code rest).2 = _
      rw [readData, if_neg hno, if_neg h1, if_neg h2, if_neg h4]
    · obtain ⟨name, hname⟩ := Option.isSome_iff_exists.mp hknown
      refine ⟨name, ?_⟩
      unfold ScriptChunk.str
      dsimp only [Option.bind_some]
      rw [hname]
  | push d =>
    obtain ⟨hpos, hfits, hone⟩ : ScriptPiece.IsData d := h
    have hread : ∃ op tail, shortestPush d ++ rest = op :: tail ∧
        readData op tail = (some d, rest) := by
      have hlength : ∀ n, 1 ≤ n → d.length < 256 ^ n →
          readPushdata n (leBytes n d.length ++ d ++ rest) =
            (some d, rest) := by
        intro n hn hlt
        have hlen := length_leBytes n d.length
        rw [List.append_assoc]
        match hbytes : leBytes n d.length ++ (d ++ rest) with
        | [] =>
          rw [List.append_eq_nil_iff] at hbytes
          rw [hbytes.1] at hlen
          exact absurd hlen (by rw [List.length_nil]; omega)
        | x :: xs =>
          rw [readPushdata, ← hbytes, List.take_left' hlen,
            List.drop_left' hlen, leNat_leBytes hlt, List.take_left,
            List.drop_left]
      rw [shortestPush]
      split
      · next h75 =>
        have hnat : (UInt8.ofNat d.length).toNat = d.length := by
          rw [UInt8.toNat_ofNat']
          omega
        have hlo : 0x01 ≤ UInt8.ofNat d.length := by
          show 1 ≤ (UInt8.ofNat d.length).toNat
          omega
        have hhi : UInt8.ofNat d.length ≤ 0x4B := by
          show (UInt8.ofNat d.length).toNat ≤ 75
          omega
        refine ⟨_, d ++ rest, rfl, ?_⟩
        rw [readData, if_pos ⟨hlo, hhi⟩, hnat, List.take_left, List.drop_left]
      · split
        · next h255 => exact ⟨_, _, rfl, hlength 1 (Nat.le_refl 1) (by omega)⟩
        · split
          · next h64k => exact ⟨_, _, rfl, hlength 2 (by omega) (by omega)⟩
          · exact ⟨_, _, rfl, hlength 4 (by omega) (by omega)⟩
    obtain ⟨op, tail, hbytes, hread⟩ := hread
    refine ⟨⟨some op, some d⟩, ?_, encodePushdata_data ⟨hpos, hfits, hone⟩,
      ⟨_, rfl⟩, nofun⟩
    show buildChunks.go (fuel + 1) (shortestPush d ++ rest) = _
    rw [hbytes, buildChunks.go, hread]
  | ref code operand => exact absurd h id

end Reading

/-! ## Tokens -/

theorem nameBytes_eq (name : String) :
    nameBytes name = name.toList.flatMap String.utf8EncodeChar := by
  rw [nameBytes, ← String.utf8Encode_toList, List.utf8Encode]
  simp

/-- No name is `OP_FALSE`, none has a space in it, and each has the letter `O`,
which is no digit. -/
theorem opcodeNames_plain :
    ∀ p ∈ opcodeValueNames, p.2 ≠ "OP_FALSE" ∧ 0x20 ∉ nameBytes p.2 ∧
    0x4F ∈ nameBytes p.2 := by
  decide +kernel

section Tokens

variable {d : Bytes} {c : ScriptChunk} {token : String} {op : UInt8}

theorem letter_not_mem_hex (d : Bytes) : 0x4F ∉ nameBytes (hex d) := by
  have hdigit : ∀ n < 16, 0x4F ∉ String.utf8EncodeChar (hexDigit n) := by decide
  rw [nameBytes_eq, hex, String.toList_ofList]
  induction d with
  | nil => exact List.not_mem_nil
  | cons b d ih =>
    have hb := b.toNat_lt
    rw [hexChars, List.flatMap_cons, List.flatMap_cons, List.mem_append,
      List.mem_append]
    rintro (h | h | h)
    · exact hdigit _ (by omega) h
    · exact hdigit _ (by omega) h
    · exact ih h

/-- Whatever lacks the letter names no opcode. -/
theorem tokenOpcode_of_letter (h : 0x4F ∉ nameBytes token) :
    tokenOpcode token = none := by
  have hne : token ≠ "OP_FALSE" := by
    rintro rfl
    exact h (by decide)
  rw [tokenOpcode, if_neg hne, Option.eq_none_iff_forall_ne_some]
  intro op hop
  obtain ⟨p, hp, hswap⟩ := List.mem_map.mp (OrderedMap.mem_entries.mpr hop)
  have hname : p.2 = token := congrArg Prod.fst hswap
  exact h (hname ▸ (opcodeNames_plain p hp).2.2)

/-- An opcode's name is read as that opcode. -/
theorem tokenOpcode_name (h : opcodeValueNameDict.get? op = some token) :
    tokenOpcode token = some op := by
  have hmem : (op, token) ∈ opcodeValueNames := OrderedMap.mem_entries.mpr h
  rw [tokenOpcode, if_neg (opcodeNames_plain _ hmem).1]
  exact OrderedMap.mem_entries.mp (List.mem_map.mpr ⟨(op, token), hmem, rfl⟩)

theorem tokenBytes_hex (d : Bytes) : tokenBytes (hex d) = .ok d := by
  have heven : (hex d).length % 2 = 0 := by
    rw [length_hex]
    omega
  rw [tokenBytes, if_neg (not_not.mpr heven), fromHex_hex]
  exact if_neg (not_not.mpr rfl)

theorem ne_of_letter {s t : String} (hs : 0x4F ∈ nameBytes s)
    (ht : 0x4F ∉ nameBytes t) : s ≠ t := by
  rintro rfl
  exact ht hs

/-- A chunk is text of one word. -/
theorem space_not_mem_str (h : c.str = .ok token) : ' ' ∉ token.toList := by
  obtain ⟨op, data⟩ := c
  cases data with
  | some d =>
    cases h
    intro hmem
    exact absurd (noSpace_hex d ' ' hmem) (by decide)
  | none =>
    cases op with
    | none => cases h
    | some op =>
      unfold ScriptChunk.str at h
      dsimp only [Option.bind_some] at h
      split at h
      · next name hget =>
        cases h
        intro hmem
        have hbytes : 0x20 ∈ nameBytes token := by
          rw [nameBytes_eq]
          exact List.mem_flatMap.mpr ⟨' ', hmem, List.mem_singleton.mpr rfl⟩
        exact (opcodeNames_plain _ (OrderedMap.mem_entries.mpr hget)).2.1 hbytes
      · cases h

/-- **A token is read as a chunk** that is encoded like the chunk it was written
from, if that one was whole. -/
theorem asmChunks_str (h : c.str = .ok token) (hw : c.Whole) :
    ∃ c' : ScriptChunk, c'.encode = c.encode ∧
    ∀ rest, asmChunks (token :: rest) = (asmChunks rest).map (c' :: ·) := by
  obtain ⟨op, data⟩ := c
  cases data with
  | some d =>
    cases h
    refine ⟨⟨pushOpcode d.length, some d⟩, rfl, fun rest => ?_⟩
    have heven : (hex d).length % 2 = 0 := by
      rw [length_hex]
      omega
    have h0 : hex d ≠ "0" := by
      intro heq
      rw [heq] at heven
      exact absurd heven (by decide)
    have h1 : hex d ≠ "-1" := by
      intro heq
      have hdash : fromHex "-1" = none := by decide
      rw [← heq, fromHex_hex] at hdash
      cases hdash
    rw [asmChunks, if_neg h0, if_neg h1,
      tokenOpcode_of_letter (letter_not_mem_hex d)]
    dsimp only
    rw [tokenBytes_hex, ok_bind]
  | none =>
    cases op with
    | none => cases h
    | some op =>
      unfold ScriptChunk.str at h
      dsimp only [Option.bind_some] at h
      split at h
      · next name hget =>
        cases h
        have hletter :=
          (opcodeNames_plain _ (OrderedMap.mem_entries.mpr hget)).2.2
        obtain ⟨h1, h2, h4⟩ := hw rfl
        refine ⟨⟨some op, none⟩, rfl, fun rest => ?_⟩
        rw [asmChunks, if_neg (ne_of_letter hletter (by decide)),
          if_neg (ne_of_letter hletter (by decide)), tokenOpcode_name hget]
        dsimp only
        rw [if_neg]
        rintro (heq | heq | heq)
        · exact h1 (congrArg some heq)
        · exact h2 (congrArg some heq)
        · exact h4 (congrArg some heq)
      · cases h

end Tokens

/-! ## Whole scripts -/

/-- A piece has at least one byte. -/
theorem ScriptPiece.length_pos (p : ScriptPiece) : 1 ≤ p.bytes.length := by
  cases p with
  | op code => exact Nat.le_refl 1
  | push d =>
    show 1 ≤ (shortestPush d).length
    rw [shortestPush]
    split <;> (try split) <;> (try split) <;> exact Nat.le_add_left 1 _
  | ref code operand => exact Nat.le_add_left 1 _

theorem map_returned {α β : Type} {f : α → β} {x : Except PyErr α} {b : β}
    (h : x.map f = .ok b) :
    ∃ a, x = .ok a ∧ f a = b := by
  cases x with
  | error e => cases h
  | ok a =>
    cases h
    exact ⟨a, rfl, rfl⟩

section Runs

variable {cs cs' : List ScriptChunk} {tokens : List String}
  {parts : List Bytes} {s : Bytes}

/-- The chunks of a row of pieces. -/
theorem go_pieces : ∀ {pieces : List ScriptPiece}, (∀ p ∈ pieces, p.Plain) →
    ∀ fuel, (pieces.flatMap ScriptPiece.bytes).length ≤ fuel → ∃ cs tokens,
      buildChunks.go fuel (pieces.flatMap ScriptPiece.bytes) = cs ∧
      cs.mapM ScriptChunk.encode = .ok (pieces.map ScriptPiece.bytes) ∧
        cs.mapM ScriptChunk.str = .ok tokens ∧
      (∀ c ∈ cs, c.Whole) ∧ cs.length = pieces.length := by
  intro pieces
  induction pieces with
  | nil =>
    intro _ fuel _
    refine ⟨[], [], ?_, rfl, rfl, nofun, rfl⟩
    cases fuel <;> rfl
  | cons p pieces ih =>
    intro h fuel hfuel
    have hp := h p List.mem_cons_self
    rw [List.flatMap_cons, List.length_append] at hfuel
    have hpos := ScriptPiece.length_pos p
    obtain ⟨fuel, rfl⟩ : ∃ k, fuel = k + 1 := ⟨fuel - 1, by omega⟩
    obtain ⟨c, hgo, hencode, ⟨name, hname⟩, hwhole⟩ :=
      go_piece hp fuel (pieces.flatMap ScriptPiece.bytes)
    obtain ⟨cs, tokens, hcs, hparts, htokens, hall, hlen⟩ :=
      ih (fun q hq => h q (List.mem_cons_of_mem p hq)) fuel (by omega)
    refine ⟨c :: cs, name :: tokens, ?_,
      mapM_cons_ok.mpr ⟨_, _, hencode, hparts, rfl⟩,
      mapM_cons_ok.mpr ⟨_, _, hname, htokens, rfl⟩,
        List.forall_mem_cons.mpr ⟨hwhole, hall⟩,
      congrArg (· + 1) hlen⟩
    rw [List.flatMap_cons, hgo, hcs]

/-- **The tokens of whole chunks are read as chunks that are encoded like
them.** -/
theorem asmChunks_tokens : ∀ {cs : List ScriptChunk} {tokens : List String}
    {parts : List Bytes},
    cs.mapM ScriptChunk.str = .ok tokens →
    cs.mapM ScriptChunk.encode = .ok parts → (∀ c ∈ cs, c.Whole) →
    ∃ cs', asmChunks tokens = .ok cs' ∧
      cs'.mapM ScriptChunk.encode = .ok parts := by
  intro cs
  induction cs with
  | nil =>
    intro tokens parts h hparts _
    cases h
    cases hparts
    exact ⟨[], rfl, rfl⟩
  | cons c cs ih =>
    intro tokens parts h hparts hall
    obtain ⟨token, tokens, htoken, htokens, rfl⟩ := mapM_cons_ok.mp h
    obtain ⟨part, parts, hpart, hrest, rfl⟩ := mapM_cons_ok.mp hparts
    obtain ⟨hc, hall⟩ := List.forall_mem_cons.mp hall
    obtain ⟨cs', hcs', hencode⟩ := ih htokens hrest hall
    obtain ⟨c', hsame, hread⟩ := asmChunks_str htoken hc
    refine ⟨c' :: cs', ?_, mapM_cons_ok.mpr ⟨part, parts, hsame.trans hpart,
      hencode, rfl⟩⟩
    rw [hread, hcs']
    rfl

/-- A text that can be read was written from whole chunks. -/
theorem whole_of_asm : ∀ fuel s {tokens : List String},
    (buildChunks.go fuel s).mapM ScriptChunk.str = .ok tokens →
    asmChunks tokens = .ok cs' → ∀ c ∈ buildChunks.go fuel s, c.Whole := by
  intro fuel
  induction fuel generalizing cs' with
  | zero =>
    intro s tokens _ _
    exact nofun
  | succ fuel ih =>
    intro s tokens h hasm
    match s with
    | [] => exact nofun
    | op :: rest =>
      obtain ⟨token, tokens, htoken, htokens, rfl⟩ := mapM_cons_ok.mp h
      by_cases hw : ScriptChunk.Whole ⟨some op, (readData op rest).1⟩
      · obtain ⟨c', -, hread⟩ := asmChunks_str htoken hw
        rw [hread] at hasm
        obtain ⟨cs', hcs', -⟩ := map_returned hasm
        exact List.forall_mem_cons.mpr ⟨hw, ih _ htokens hcs'⟩
      · -- the opcode in front of a length is the last word, and the reader wants two more
        obtain ⟨hop, hnone, hend⟩ := readData_not_whole hw
        have hnil : buildChunks.go fuel (readData op rest).2 = [] := by
          rw [hend]
          cases fuel <;> rfl
        rw [hnil] at htokens
        cases htokens
        rw [hnone] at htoken
        rcases hop with rfl | rfl | rfl
        · cases htoken
          cases hasm
        · cases htoken
          cases hasm
        · cases htoken
          cases hasm

/-- **No encoding is longer than the script**, and if it is as long, it is a row
of pieces. -/
theorem pieces_of_chunks : ∀ fuel s, s.length ≤ fuel →
    ∀ {tokens : List String} {parts : List Bytes},
    (buildChunks.go fuel s).mapM ScriptChunk.str = .ok tokens →
    (buildChunks.go fuel s).mapM ScriptChunk.encode = .ok parts →
    (∀ c ∈ buildChunks.go fuel s, c.Whole) → parts.flatten.length ≤ s.length ∧
    (parts.flatten = s → ReadsAs ScriptPiece.Plain s) := by
  intro fuel
  induction fuel with
  | zero =>
    intro s hs tokens parts _ hparts _
    have hnil : s = [] := List.length_eq_zero_iff.mp (Nat.le_zero.mp hs)
    subst hnil
    cases hparts
    exact ⟨Nat.le_refl 0, fun _ => ⟨[], nofun, rfl⟩⟩
  | succ fuel ih =>
    intro s hs tokens parts h hparts hall
    match s with
    | [] =>
      cases hparts
      exact ⟨Nat.le_refl 0, fun _ => ⟨[], nofun, rfl⟩⟩
    | op :: rest =>
      obtain ⟨token, tokens, htoken, htokens, rfl⟩ := mapM_cons_ok.mp h
      obtain ⟨part, parts, hpart, hbehind, rfl⟩ := mapM_cons_ok.mp hparts
      obtain ⟨hw, hall⟩ := List.forall_mem_cons.mp hall
      obtain ⟨q, hsplit, hle⟩ := readData_split hpart
      have hlen := congrArg List.length hsplit
      rw [List.length_append] at hlen
      rw [List.length_cons] at hs
      obtain ⟨hrest, hplain⟩ := ih _ (by omega) htokens hbehind hall
      rw [List.flatten_cons, List.length_append, List.length_cons]
      refine ⟨by omega, fun heq => ?_⟩
      -- as long as the script: then no encoding is shorter than what was read
      -- for it
      have hwhole : part ++ parts.flatten =
          (op :: q) ++ (readData op rest).2 := by
        rw [heq, List.cons_append, ← hsplit]
      have hsame := congrArg List.length hwhole
      rw [List.length_append, List.length_append, List.length_cons] at hsame
      obtain ⟨hpartEq, hrestEq⟩ :=
        List.append_inj hwhole (by rw [List.length_cons]; omega)
      obtain ⟨p, hp, hbytes⟩ := encode_piece htoken hw hpart
      obtain ⟨pieces, hpieces, hflat⟩ := hplain hrestEq
      refine ⟨p :: pieces, List.forall_mem_cons.mpr ⟨hp, hpieces⟩, ?_⟩
      rw [List.flatMap_cons, hbytes, ← hflat, ← heq, hrestEq]

/-- Words without a space are found again between the spaces. -/
theorem split_tokens (htokens : cs.mapM ScriptChunk.str = .ok tokens)
    (hne : tokens ≠ []) :
    ((" ".intercalate tokens).toList.splitOn ' ').map String.ofList =
      tokens := by
  have hspace : ∀ token ∈ tokens, ' ' ∉ token.toList := by
    intro token htoken
    obtain ⟨c, -, hc⟩ := mapM_mem htokens htoken
    exact space_not_mem_str hc
  exact Text.split_join hspace hne

end Runs

/-- **When a script comes back**, from its text and from its chunks: it is not
empty, and it is plain. -/
theorem comes_back_iff (s : Bytes) : AsmComesBack s ∧ ChunksComeBack s ↔
    s ≠ [] ∧ ReadsAs ScriptPiece.Plain s := by
  constructor
  · rintro ⟨⟨asm, s', hto, hfrom, htext⟩, s'', hchunks, hback⟩
    obtain ⟨tokens, htokens, hasm⟩ := bind_ok.mp hto
    cases hasm
    obtain ⟨parts, hparts, hs''⟩ := bind_ok.mp hchunks
    cases hs''
    have hne : s ≠ [] := by
      rintro rfl
      cases htokens
      cases hfrom
      cases htext
    have htokensNe : tokens ≠ [] := by
      rintro rfl
      match s, hne with
      | op :: rest, _ =>
        obtain ⟨_, _, _, _, hcons⟩ := mapM_cons_ok.mp htokens
        cases hcons
    rw [Script.fromAsm, split_tokens htokens htokensNe] at hfrom
    obtain ⟨cs', hcs', -⟩ := bind_ok.mp hfrom
    have hall := whole_of_asm s.length s htokens hcs'
    exact ⟨hne,
      (pieces_of_chunks s.length s (Nat.le_refl _) htokens hparts hall).2 hback⟩
  · rintro ⟨hne, pieces, hplain, hbytes⟩
    obtain ⟨cs, tokens, hcs, hparts, htokens, hall, hlen⟩ :=
      go_pieces hplain s.length (by rw [hbytes])
    rw [← hbytes] at hcs
    have hchunks : (Script.new s).chunks = cs := hcs
    have hflat : (pieces.map ScriptPiece.bytes).flatten = s := by
      rw [hbytes, List.flatMap_def]
    have htokensNe : tokens ≠ [] := by
      rintro rfl
      match pieces, cs, hlen with
      | [], _, _ => exact hne hbytes
      | p :: pieces, c :: cs, _ =>
        obtain ⟨_, _, _, _, hcons⟩ := mapM_cons_ok.mp htokens
        cases hcons
    obtain ⟨cs', hcs', hparts'⟩ := asmChunks_tokens htokens hparts hall
    refine ⟨⟨" ".intercalate tokens, ⟨_, cs'⟩, ?_, ?_, hflat⟩,
      ⟨_, cs⟩, ?_, hflat⟩
    · rw [Script.toAsm, hchunks, htokens]
      rfl
    · rw [Script.fromAsm, split_tokens htokens htokensNe, hcs', ok_bind,
        Script.fromChunks, hparts']
      rfl
    · rw [hchunks, Script.fromChunks, hparts]
      rfl

/-- The one-byte pushes of what the operand of a ref holds. -/
def smallPushes : Bytes := (List.replicate 18 [0x01, 0x05]).flatten

/-- **Two scripts that do not come back**: the empty one, and a ref whose
operand reads as pushes that are not the shortest. Both read as the chain reads
them. -/
theorem lost_in_text : (ReadsAs ScriptPiece.Ok [] ∧ ¬ AsmComesBack []) ∧
    (ReadsAs ScriptPiece.Ok (0xD0 :: smallPushes) ∧
      ¬ ChunksComeBack (0xD0 :: smallPushes)) := by
  refine ⟨⟨⟨[], nofun, rfl⟩, ?_⟩, ⟨[.ref 0xD0 smallPushes], ?_, rfl⟩, ?_⟩
  · rintro ⟨asm, s', hto, hfrom, hback⟩
    cases hto
    cases hfrom
    cases hback
  · exact List.forall_mem_singleton.mpr ⟨by decide, by decide, rfl⟩
  · rintro ⟨s', hchunks, hback⟩
    cases hchunks
    cases hback

end Pyrxd.Tx
