import Pyrxd.Glyph.Credential
import Pyrxd.Glyph.Daa
import Pyrxd.Swap.Partial

/-!
# dMint contract scripts

`glyph/dmint/types.py` and `glyph/dmint/builders.py`: the parameters a contract
is deployed with and the scripts of a contract, in the V2 layout (ten state
items and a code section that carries its own difficulty adjustment) and in the
V1 layout (six state items and a fixed epilogue with one byte for the hash
function). The difficulty adjustment itself is in `Pyrxd.Glyph.Daa`.
-/

namespace Pyrxd.Glyph

open Pyrxd.Lib
open Pyrxd.Swap (GlyphRef)

inductive DmintAlgo where
  | sha256d
  | blake3
  | k12
deriving DecidableEq

inductive DaaMode where
  | fixed
  | epoch
  | asert
  | lwma
  | schedule
deriving DecidableEq

/-- `int(algo)`. -/
def DmintAlgo.value : DmintAlgo → Int
  | .sha256d => 0
  | .blake3 => 1
  | .k12 => 2

/-- `int(daa_mode)`. -/
def DaaMode.value : DaaMode → Int
  | .fixed => 0
  | .epoch => 1
  | .asert => 2
  | .lwma => 3
  | .schedule => 4

/-- `DmintAlgo(n)`; `none` is the `ValueError`. -/
def DmintAlgo.ofValue (n : Int) : Option DmintAlgo :=
  if n = 0 then some .sha256d else if n = 1 then some .blake3
    else if n = 2 then some .k12 else none

/-- `DaaMode(n)`. -/
def DaaMode.ofValue (n : Int) : Option DaaMode :=
  if n = 0 then some .fixed else if n = 1 then some .epoch
    else if n = 2 then some .asert
  else if n = 3 then some .lwma else if n = 4 then some .schedule else none

/-- An algorithm is known by its number. -/
theorem DmintAlgo.ofValue_value (a : DmintAlgo) : ofValue a.value = some a := by
  cases a <;> rfl

theorem DaaMode.ofValue_value (m : DaaMode) : ofValue m.value = some m := by
  cases m <;> rfl

/-- A number names at most one algorithm. -/
theorem DmintAlgo.value_of_ofValue {n : Int} {a : DmintAlgo}
    (h : ofValue n = some a) : a.value = n := by
  unfold ofValue at h
  split_ifs at h <;> cases h <;> exact Eq.symm ‹_›

theorem DaaMode.value_of_ofValue {n : Int} {m : DaaMode}
    (h : ofValue n = some m) : m.value = n := by
  unfold ofValue at h
  split_ifs at h <;> cases h <;> exact Eq.symm ‹_›

/-! ## Deployment parameters -/

/-- `MAX_V2_TARGET_256`. -/
def maxV2Target256 : Int := 2 ^ 256 - 1

/-- The fields of `DmintDeployParams`, before `__post_init__`. -/
structure DmintFields where
  contractRef : GlyphRef
  tokenRef : GlyphRef
  maxHeight : Int
  reward : Int
  difficulty : Int
  algo : DmintAlgo
  daaMode : DaaMode
  targetTime : Int
  halfLife : Int
  height : Int
  lastTime : Int
  epochLength : Int
  maxAdjustmentLog2 : Int
  schedule : List (Int × Int)

namespace DmintFields

/-- `initial_target`. -/
def initialTarget (f : DmintFields) : Int :=
  match f.algo with
  | .sha256d => maxSha256dTarget.fdiv f.difficulty
  | _ => maxV2Target256.fdiv f.difficulty

/-- The loop over the entries of a schedule. -/
def checkSchedule : Nat → Int → List (Int × Int) → Except PyErr Unit
  | _, _, [] => .ok ()
  | i, prevH, (h, t) :: rest => do
    refuseIf (h < 0) ("SCHEDULE entry " ++ toString i ++
      ": height must be >= 0, got " ++ toString h)
    refuseIf (h ≤ prevH)
      ("SCHEDULE entries must be strictly ascending by height (entry " ++
        toString i ++ ")")
    refuseIf (¬ (1 ≤ t ∧ t ≤ maxSha256dTarget))
      ("SCHEDULE entry " ++ toString i ++
      ": target must be in [1, MAX_SHA256D_TARGET], got " ++ toString t)
    checkSchedule (i + 1) h rest

/-- What `__post_init__` asks of the numbers of an EPOCH contract. -/
def checkEpoch (f : DmintFields) : Except PyErr Unit := do
  refuseIf (f.epochLength < 1) "epoch_length must be >= 1 for EPOCH"
  refuseIf (f.maxAdjustmentLog2 ∉ [1, 2, 3, 4])
    ("max_adjustment_log2 must be one of (1, 2, 3, 4) for EPOCH (got " ++
      toString f.maxAdjustmentLog2 ++ ")")
  refuseIf (f.initialTarget > epochMaxSafeTarget)
    ("EPOCH requires initial target <= 2^48 (use difficulty >= 32768); got target " ++
      toString f.initialTarget ++
        " — larger targets risk OP_MUL overflow in the on-chain retarget")

/-- `__post_init__`. -/
def postInit (f : DmintFields) : Except PyErr Unit := do
  refuseIf (f.maxHeight < 1) "max_height must be >= 1"
  refuseIf (f.reward < 1) "reward must be >= 1 photon"
  refuseIf (f.difficulty < 1) "difficulty must be >= 1"
  refuseIf (f.targetTime < 1) "target_time must be >= 1 second"
  refuseIf (f.halfLife < 1) "half_life must be >= 1 second"
  refuseIf (f.height < 0) "height must be >= 0"
  refuseIf (f.lastTime < 0) "last_time must be >= 0"
  match f.daaMode with
  | .epoch => f.checkEpoch
  | .schedule =>
    refuseIf (f.schedule =
      []) "SCHEDULE requires a non-empty schedule (use FIXED for no schedule)"
    refuseIf (f.schedule.length > 10)
      ("SCHEDULE allows at most 10 entries, got " ++ toString f.schedule.length)
    checkSchedule 0 (-1) f.schedule
  | _ => .ok ()

end DmintFields

/-- `DmintDeployParams`: fields that passed. -/
structure DmintDeployParams extends DmintFields where
  accepted : toDmintFields.postInit = .ok ()

/-! ## Code -/

/-- `_OP_STATESEPARATOR`. -/
def opStateSeparator : UInt8 := 0xBD

/-- `_PART_A`. -/
def partA : Bytes :=
  [0xC0, 0xC8, 0x59, 0x79, 0x7E, 0xA8, 0x5D, 0x79, 0x5D, 0x79, 0x7E, 0xA8, 0x7E,
    0x5E, 0x7A, 0x7E]

/-- `_PART_B1`. -/
def partB1 : Bytes :=
  [0xBC, 0x01, 0x14, 0x7F, 0x77, 0x58, 0x7F, 0x04, 0x00, 0x00, 0x00, 0x00, 0x88,
    0x81, 0x76, 0x00,
    0xA2, 0x69]

/-- `_PART_B2`. -/
def partB2 : Bytes := [0x51, 0x79, 0x7C, 0xA2, 0x69]

/-- `_PART_B4`. -/
def partB4 : Bytes := [0x6B, 0x75, 0x75, 0x75, 0x75]

/-- `_POW_HASH_OP`, and `_V1_ENUM_TO_ALGO_BYTE`. -/
def powHashOp : DmintAlgo → UInt8
  | .sha256d => 0xAA
  | .blake3 => 0xEE
  | .k12 => 0xEF

/-- The adjustment that goes with a mode; a FIXED contract has none. -/
def daaOf (mode : DaaMode) (halfLife epochLength maxAdjustmentLog2 : Int)
    (schedule : List (Int × Int)) (asertVersion : Nat) : Option Daa :=
  match mode with
  | .fixed => none
  | .asert =>
    some (if 2 ≤ asertVersion then .asertV2 halfLife else .asertLegacy halfLife)
  | .lwma => some .linear
  | .epoch => some (.epoch epochLength maxAdjustmentLog2.toNat)
  | .schedule => some (.schedule schedule)

/-- `_build_part_b`. -/
def buildPartB (daa : Option Daa) : Except PyErr Bytes := do
  let daaBytes ← match daa with
    | none => .ok []
    | some daa => daa.build
  return partB1 ++ partB2 ++ daaBytes ++ partB4

/-- `_encode_data_push`. -/
def encodeDataPush (data : Bytes) : Except PyErr Bytes :=
  let n := data.length
  if n < 0x4C then .ok (UInt8.ofNat n :: data)
  else if n ≤ 0xFF then .ok (0x4C :: UInt8.ofNat n :: data)
  else if n ≤ 0xFFFF then .ok (0x4D :: (leBytes 2 n ++ data))
  else if n < 2 ^ 32 then .ok (0x4E :: (leBytes 4 n ++ data))
  else .error (.other "argument out of range")

/-- `_MINIMAL_PUSH_BYTECODE`. -/
def minimalPushBytecode : Bytes :=
  [0x76, 0x00, 0x9C, 0x63, 0x75, 0x01, 0x00, 0x67, 0x76, 0x60, 0xA1, 0x63, 0x01,
    0x50, 0x93, 0x51,
    0x80, 0x67, 0x82, 0x7C, 0x7E, 0x68, 0x68]

/-- The refs of the spent contract are looked up, the reward is counted, the
height goes up. -/
def partCPrologue : Bytes :=
  [0x57, 0x7A, 0xE5, 0x00, 0xA0, 0x69, 0x56, 0x7A, 0xE6, 0x00, 0xA0, 0x69, 0x01,
    0xD0, 0x53, 0x79,
    0x7E, 0x0C, 0xDE, 0xC0, 0xE9, 0xAA, 0x76, 0xE3, 0x78, 0xE4, 0xA2, 0x69,
      0xE6, 0x9D, 0x7E, 0xAA,
    0x76, 0xE4, 0x7B, 0x9D, 0x54, 0x7A, 0x81, 0x8B, 0x76, 0x53, 0x7A, 0x9C,
      0x53, 0x7A, 0xDE, 0x78,
    0x91, 0x81, 0x54, 0x7A, 0xE6, 0x93, 0x9D, 0x63]

/-- The last mint: the output burns the contract ref. -/
def partCIf : Bytes :=
  [0x6C, 0x75, 0x52, 0x79, 0xCD, 0x01, 0xD8, 0x53, 0x79, 0x7E, 0x01,
    0x6A, 0x7E, 0x88]

/-- Any other mint: the next state is written out and compared. -/
def partCElse (midPush : Bytes) : Bytes :=
  [0x78, 0xDE, 0x51, 0x9D] ++ [0x76] ++ minimalPushBytecode ++
    midPush ++ [0x7E] ++
    [0xC5, 0x54, 0x80, 0x54, 0x7C, 0x7E, 0x7E] ++ [0x6C] ++
      minimalPushBytecode ++ [0x7E] ++
    [0x53, 0x79, 0xEC, 0x78, 0x88] ++ [0x53, 0x79, 0xEA, 0xC0, 0xE9, 0x88] ++
    [0x53, 0x79, 0xCC, 0x51, 0x9D] ++ [0x75]

/-- `_build_part_c`. -/
def buildPartC (middleLiteral : Bytes) : Except PyErr Bytes := do
  let midPush ← encodeDataPush middleLiteral
  return partCPrologue ++ partCIf ++ [0x67] ++ partCElse midPush ++
    [0x68, 0x6D, 0x75, 0x51]

/-! ## V2 scripts -/

/-- `struct.pack` of an unsigned number in `k` bytes, little-endian. -/
def structPackU (k : Nat) (n : Int) : Except PyErr Bytes :=
  if 0 ≤ n ∧ n < 256 ^ k then .ok (leBytes k n.toNat)
    else .error (.other "argument out of range")

/-- `_push_4bytes_le`. -/
def push4bytesLe (n : Int) : Except PyErr Bytes := do
  let b ← structPackU 4 n
  return 0x04 :: b

/-- The two refs of a state. -/
def refPushes (contractRef tokenRef : GlyphRef) : Except PyErr Bytes := do
  let contract ← contractRef.toBytes
  let token ← tokenRef.toBytes
  return 0xD8 :: contract ++ (0xD0 :: token)

/-- The items of a state that no mint changes: `_middle_literal`, and the middle
of `_v2_state_script_bytes`. -/
def middleLiteral (contractRef tokenRef : GlyphRef) (maxHeight reward : Int)
    (algo : DmintAlgo)
    (daaMode : DaaMode) (targetTime : Int) : Except PyErr Bytes := do
  let refs ← refPushes contractRef tokenRef
  let maxHeight ← pushMinimal maxHeight
  let reward ← pushMinimal reward
  let algo ← pushMinimal algo.value
  let daaMode ← pushMinimal daaMode.value
  let targetTime ← pushMinimal targetTime
  return refs ++ maxHeight ++ reward ++ algo ++ daaMode ++ targetTime

namespace DmintDeployParams

variable (params : DmintDeployParams)

def middleLiteral : Except PyErr Bytes :=
  Glyph.middleLiteral params.contractRef params.tokenRef params.maxHeight
    params.reward params.algo
    params.daaMode params.targetTime

/-- `build_dmint_state_script`. -/
def buildDmintStateScript : Except PyErr Bytes := do
  let height ← pushMinimal params.height
  let middle ← params.middleLiteral
  let lastTime ← push4bytesLe params.lastTime
  let target ← pushMinimal params.initialTarget
  return height ++ middle ++ lastTime ++ target

/-- The adjustment a deployment bakes in. -/
def daa : Option Daa :=
  daaOf params.daaMode params.halfLife params.epochLength
    params.maxAdjustmentLog2 params.schedule 2

/-- `build_dmint_code_script`. -/
def buildDmintCodeScript : Except PyErr Bytes := do
  let partB ← buildPartB params.daa
  let middle ← params.middleLiteral
  let partC ← buildPartC middle
  return partA ++ [powHashOp params.algo] ++ partB ++ partC

/-- `build_dmint_contract_script`. -/
def buildDmintContractScript : Except PyErr Bytes := do
  let state ← params.buildDmintStateScript
  let code ← params.buildDmintCodeScript
  return state ++ [opStateSeparator] ++ code

end DmintDeployParams

/-! ## V1 scripts -/

/-- `_V1_EPILOGUE_PREFIX`. -/
def v1EpiloguePrefix : Bytes :=
  [0xBD, 0x51, 0x75, 0xC0, 0xC8, 0x55, 0x79, 0x7E, 0xA8, 0x59, 0x79, 0x59, 0x79,
    0x7E, 0xA8, 0x7E,
    0x5A, 0x7A, 0x7E]

/-- `_V1_EPILOGUE_SUFFIX`. -/
def v1EpilogueSuffix : Bytes :=
  [0xBC, 0x01, 0x14, 0x7F, 0x77, 0x58, 0x7F, 0x04, 0x00, 0x00, 0x00, 0x00, 0x88,
    0x81, 0x76, 0x00,
    0xA2, 0x69, 0xA2, 0x69, 0x57, 0x7A, 0xE5, 0x00, 0xA0, 0x69, 0x56, 0x7A,
      0xE6, 0x00, 0xA0, 0x69,
    0x01, 0xD0, 0x53, 0x79, 0x7E, 0x0C, 0xDE, 0xC0, 0xE9, 0xAA, 0x76, 0xE3,
      0x78, 0xE4, 0xA2, 0x69,
    0xE6, 0x9D, 0x7E, 0xAA, 0x76, 0xE4, 0x7B, 0x9D, 0x54, 0x7A, 0x81, 0x8B,
      0x76, 0x53, 0x7A, 0x9C,
    0x53, 0x7A, 0xDE, 0x78, 0x91, 0x81, 0x54, 0x7A, 0xE6, 0x93, 0x9D, 0x63,
      0x52, 0x79, 0xCD, 0x01,
    0xD8, 0x53, 0x79, 0x7E, 0x01, 0x6A, 0x7E, 0x88, 0x67, 0x78, 0xDE, 0x51,
      0x9D, 0x54, 0x78, 0x54,
    0x80, 0x7E, 0xC0, 0xEB, 0x55, 0x7F, 0x77, 0x7E, 0x53, 0x79, 0xEC, 0x78,
      0x88, 0x53, 0x79, 0xEA,
    0xC0, 0xE9, 0x88, 0x53, 0x79, 0xCC, 0x51, 0x9D, 0x75, 0x68,
      0x6D, 0x75, 0x51]

/-- `_V1_EPILOGUE_ALGO_OFFSET`, `_V1_EPILOGUE_LEN`. -/
def v1EpilogueAlgoOffset : Nat := 19
def v1EpilogueLen : Nat := v1EpiloguePrefix.length + 1 + v1EpilogueSuffix.length

/-- `_V1_ALGO_BYTE_TO_ENUM`. -/
def v1AlgoByteToEnum (b : UInt8) : Option DmintAlgo :=
  if b = 0xAA then some .sha256d else if b = 0xEE then some .blake3
  else if b = 0xEF then some .k12 else none

/-- The arguments of the V1 builders. -/
structure V1Args where
  height : Int
  contractRef : GlyphRef
  tokenRef : GlyphRef
  maxHeight : Int
  reward : Int
  target : Int
  algo : DmintAlgo

/-- `0x{n:x}` of `MAX_SHA256D_TARGET`. -/
def maxTargetHex : String := "0x7fffffffffffffff"

/-- `build_dmint_v1_state_script`. -/
def buildDmintV1StateScript (a : V1Args) : Except PyErr Bytes := do
  refuseIf (a.height < 0) "height must be >= 0"
  refuseIf (a.maxHeight < 1) "max_height must be >= 1"
  refuseIf (a.height ≥ a.maxHeight)
    ("height (" ++ toString a.height ++ ") must be < max_height (" ++
      toString a.maxHeight ++
      "); a contract built with height >= max_height is born-exhausted " ++
      "and pool funds would be locked at deploy time")
  refuseIf (a.reward < 1) "reward must be >= 1 photon"
  refuseIf (¬ (1 ≤ a.target ∧ a.target ≤ maxSha256dTarget))
    ("target must be in [1, MAX_SHA256D_TARGET=" ++ maxTargetHex ++ "], got " ++
      toString a.target ++
      " (top-bit-set values are negative in Bitcoin script " ++
      "semantics and the on-chain comparison would behave wrongly)")
  let height ← push4bytesLe a.height
  let refs ← refPushes a.contractRef a.tokenRef
  let maxHeight ← pushMinimal a.maxHeight
  let reward ← pushMinimal a.reward
  let target ← structPackU 8 a.target
  return height ++ refs ++ maxHeight ++ reward ++ (0x08 :: target)

/-- `build_dmint_v1_code_script`. -/
def buildDmintV1CodeScript (algo : DmintAlgo) : Bytes :=
  v1EpiloguePrefix ++ [powHashOp algo] ++ v1EpilogueSuffix

/-- `build_dmint_v1_contract_script`. -/
def buildDmintV1ContractScript (a : V1Args) : Except PyErr Bytes := do
  let state ← buildDmintV1StateScript a
  return state ++ buildDmintV1CodeScript a.algo

/-- `build_dmint_v1_ft_output_script`. -/
def buildDmintV1FtOutputScript (minerPkh : Bytes) (tokenRef : GlyphRef) :
    Except PyErr Bytes := do
  refuseIf (minerPkh.length ≠ 20) ("miner_pkh must be 20 bytes, got " ++
    toString minerPkh.length)
  let token ← tokenRef.toBytes
  return [0x76, 0xA9, 0x14] ++ minerPkh ++ [0x88, 0xAC] ++ [opStateSeparator] ++
    (0xD0 :: token) ++
    ftEpilogue

end Pyrxd.Glyph
