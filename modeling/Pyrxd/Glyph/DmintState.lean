import Pyrxd.Glyph.Dmint

/-!
# Reading a dMint contract

`DmintState.from_script` of `glyph/dmint/chain.py`: the V2 layout is tried first
and the V1 layout if that raises. Both walk the state item by item, so that a
separator byte inside a ref or a number is never taken for the separator; V1 is
then told by its fixed epilogue. `_v2_state_script_bytes` of
`glyph/dmint/miner.py` writes a state back.
-/

namespace Pyrxd.Glyph

open Pyrxd.Lib
open Pyrxd.Swap (GlyphRef)

/-- A position in a script, with what lies behind it. -/
structure Cursor where
  pos : Nat
  rest : Bytes
deriving DecidableEq

def Cursor.advance (c : Cursor) (k : Nat) : Cursor := ⟨c.pos + k, c.rest.drop k⟩

/-- `_decode_script_le_int`. -/
def decodeScriptLeInt (raw : Bytes) : Int :=
  if raw = [] then 0
  else if raw.getLastD 0 &&& 0x80 ≠ 0 then
    -((leNat raw ^^^ (0x80 <<< (8 * (raw.length - 1))) : Nat) : Int)
  else leNat raw

/-- Two lower-case hex digits, as in `0x{op:02x}`. -/
def hexOp (op : UInt8) : String := "0x" ++ hex [op]

/-- `_parse_script_int`. -/
def parseScriptInt (c : Cursor) : Except PyErr (Int × Cursor) :=
  match c.rest with
  | [] =>
    invalid ("DmintState.from_script: unexpected end of script at position " ++
      toString c.pos)
  | op :: rest =>
    if op = 0x00 then .ok (0, c.advance 1)
    else if op = 0x4F then .ok (-1, c.advance 1)
    else if 0x51 ≤ op ∧
      op ≤ 0x60 then .ok ((op.toNat : Int) - 0x50, c.advance 1)
    else if op = 0x4C then
      match rest with
      | [] => invalid "DmintState.from_script: PUSHDATA1 length byte missing"
      | n :: rest =>
        let raw := rest.take n.toNat
        if raw.length ≠ n.toNat then
          invalid ("DmintState.from_script: PUSHDATA1 underrun: need " ++
            toString n.toNat ++
            ", got " ++ toString raw.length)
        else .ok (decodeScriptLeInt raw, c.advance (2 + n.toNat))
    else if 1 ≤ op ∧ op ≤ 75 then
      let raw := rest.take op.toNat
      if raw.length ≠ op.toNat then
        invalid ("DmintState.from_script: direct push underrun: need " ++
          toString op.toNat ++
          ", got " ++ toString raw.length)
      else .ok (decodeScriptLeInt raw, c.advance (1 + op.toNat))
    else invalid ("DmintState.from_script: unrecognised opcode " ++
      hexOp op ++ " at pos " ++
      toString c.pos)

/-- One ref of a state: its opcode and 36 bytes. -/
def parseRef (opcode : UInt8) (expected truncated : String) (c : Cursor) :
    Except PyErr (GlyphRef × Cursor) := do
  refuseIf (c.rest.head? ≠ some opcode) (expected ++ " at pos " ++
    toString c.pos)
  let c := c.advance 1
  refuseIf (c.rest.length < 36) truncated
  let ref ← GlyphRef.fromBytes (c.rest.take 36)
  return (ref, c.advance 36)

/-- A push of `k` bytes, read as an unsigned number. -/
def parseFixed (k : Nat) (expected truncated : String) (c : Cursor) :
    Except PyErr (Nat × Cursor) := do
  refuseIf (c.rest.head? ≠ some (UInt8.ofNat k)) expected
  refuseIf (c.rest.length < k + 1) truncated
  return (leNat ((c.advance 1).rest.take k), c.advance (k + 1))

structure DmintState where
  height : Int
  contractRef : GlyphRef
  tokenRef : GlyphRef
  maxHeight : Int
  reward : Int
  algo : DmintAlgo
  daaMode : DaaMode
  targetTime : Int
  lastTime : Int
  target : Int
  isV1 : Bool
deriving DecidableEq

namespace DmintState

/-- `is_exhausted`. -/
def isExhausted (st : DmintState) : Bool := decide (st.height ≥ st.maxHeight)

/-- The separator behind the ten items. -/
def checkSeparator (c : Cursor) : Except PyErr Unit :=
  match c.rest with
  | [] =>
    invalid "DmintState.from_script: script ended before OP_STATESEPARATOR"
  | op :: _ =>
    refuseIf (op ≠ opStateSeparator)
      ("DmintState.from_script: expected OP_STATESEPARATOR (0xbd) at pos " ++
        toString c.pos ++
        " after 10-item state, got " ++ hexOp op)

/-- The enumeration member with this number. -/
def enumOf {α : Type} (what : String) (n : Int) : Option α → Except PyErr α
  | some a => .ok a
  | none =>
    invalid ("DmintState.from_script: unknown " ++ what ++ " id " ++ toString n)

/-- `_from_v2_script`, over the function that reads an integer. -/
def fromV2ScriptWith (readInt : Cursor → Except PyErr (Int × Cursor))
    (script : Bytes) :
    Except PyErr DmintState := do
  let (height, c) ← readInt ⟨0, script⟩
  let (contractRef, c) ← parseRef 0xD8
    "DmintState.from_script: expected 0xd8 (OP_PUSHINPUTREFSINGLETON)"
    "DmintState.from_script: script truncated inside contractRef" c
  let (tokenRef,
    c) ← parseRef 0xD0 "DmintState.from_script: expected 0xd0 (OP_PUSHINPUTREF)"
    "DmintState.from_script: script truncated inside tokenRef" c
  let (maxHeight, c) ← readInt c
  let (reward, c) ← readInt c
  let (algoId, c) ← readInt c
  let (daaId, c) ← readInt c
  let (targetTime, c) ← readInt c
  let (lastTime, c) ← parseFixed 4
    ("DmintState.from_script: expected 0x04 (push-4) at pos " ++
      toString c.pos ++ " for lastTime")
      "DmintState.from_script: script truncated inside lastTime" c
  let (target, c) ← readInt c
  checkSeparator c
  let algo ← enumOf "algo" algoId (DmintAlgo.ofValue algoId)
  let daaMode ← enumOf "daa_mode" daaId (DaaMode.ofValue daaId)
  return {
    height, contractRef, tokenRef, maxHeight, reward, algo, daaMode, targetTime,
    lastTime := lastTime, target, isV1 := false }

/-- `_from_v2_script`. -/
def fromV2Script : Bytes → Except PyErr DmintState :=
  fromV2ScriptWith parseScriptInt

/-- `_match_v1_epilogue`, on the script from its start position on. -/
def matchV1Epilogue (rest : Bytes) : Option DmintAlgo :=
  if rest.length < v1EpilogueLen then none
  else if rest.take v1EpiloguePrefix.length ≠ v1EpiloguePrefix then none
  else
    match v1AlgoByteToEnum (rest.getD v1EpilogueAlgoOffset 0) with
    | none => none
    | some algo =>
      if (rest.drop (v1EpilogueAlgoOffset + 1)).take v1EpilogueSuffix.length ≠
          v1EpilogueSuffix then
        none
      else some algo

/-- `_from_v1_script`. -/
def fromV1Script (script : Bytes) : Except PyErr DmintState := do
  let (height, c) ← parseFixed 4
    ("DmintState._from_v1_script: expected 0x04 (push-4) at pos 0, got " ++
      hexOp (script.headD 0))
      "DmintState._from_v1_script: script truncated inside height" ⟨0, script⟩
  let (contractRef,
    c) ← parseRef 0xD8 "DmintState._from_v1_script: expected 0xd8"
    "DmintState._from_v1_script: script truncated inside contractRef" c
  let (tokenRef, c) ← parseRef 0xD0 "DmintState._from_v1_script: expected 0xd0"
    "DmintState._from_v1_script: script truncated inside tokenRef" c
  let (maxHeight, c) ← parseScriptInt c
  let (reward, c) ← parseScriptInt c
  let (target, c) ← parseFixed 8
    ("DmintState._from_v1_script: expected 0x08 (push-8) for target at pos " ++
      toString c.pos)
      "DmintState._from_v1_script: script truncated inside target" c
  match matchV1Epilogue c.rest with
  | none =>
    invalid ("DmintState._from_v1_script: code epilogue at pos " ++
      toString c.pos ++
      " does not match V1 template")
  | some algo => return {
      height := height, contractRef, tokenRef, maxHeight, reward, algo,
        daaMode := .fixed,
      targetTime := 0, lastTime := 0, target := target, isV1 := true }

/-- `from_script`. -/
def fromScript (script : Bytes) : Except PyErr DmintState :=
  match fromV2Script script with
  | .error (.validation v2) =>
    match fromV1Script script with
    | .error (.validation v1) => invalid ("DmintState.from_script: not a dMint contract (V2: " ++ v2 ++
        "; V1: " ++ v1 ++ ")")
    | result => result
  | result => result

/-- `_v2_state_script_bytes`. -/
def v2StateScriptBytes (st : DmintState) : Except PyErr Bytes := do
  let height ← pushMinimal st.height
  let middle ← middleLiteral st.contractRef st.tokenRef st.maxHeight st.reward
    st.algo st.daaMode
    st.targetTime
  let lastTime ← push4bytesLe st.lastTime
  let target ← pushMinimal st.target
  return height ++ middle ++ lastTime ++ target

end DmintState

/-- The state a deployment starts in. -/
def DmintDeployParams.initialState (params : DmintDeployParams) :
    DmintState where
  height := params.height
  contractRef := params.contractRef
  tokenRef := params.tokenRef
  maxHeight := params.maxHeight
  reward := params.reward
  algo := params.algo
  daaMode := params.daaMode
  targetTime := params.targetTime
  lastTime := params.lastTime
  target := params.initialTarget
  isV1 := false

/-- The state a V1 script is built for. -/
def V1Args.state (a : V1Args) : DmintState where
  height := a.height
  contractRef := a.contractRef
  tokenRef := a.tokenRef
  maxHeight := a.maxHeight
  reward := a.reward
  algo := a.algo
  daaMode := .fixed
  targetTime := 0
  lastTime := 0
  target := a.target
  isV1 := true

end Pyrxd.Glyph
