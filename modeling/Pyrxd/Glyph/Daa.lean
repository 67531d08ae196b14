import Pyrxd.Errors
import Pyrxd.Lib.ScriptVm

/-!
# Difficulty adjustment

The difficulty-adjustment bytecode that `glyph/dmint/builders.py` bakes into a
dMint contract, and the functions of `glyph/dmint/miner.py` with which a miner
computes the next target without running it. Both are here as the source writes
them; that they agree is proved in `DaaSimulation`.
-/

namespace Pyrxd.Glyph

open Pyrxd.Lib

/-! ## Constants -/

/-- `MAX_SHA256D_TARGET`. -/
def maxSha256dTarget : Int := 0x7FFFFFFFFFFFFFFF

/-- `EPOCH_MAX_SAFE_TARGET`. -/
def epochMaxSafeTarget : Int := 2 ^ 48

/-- `ASERT_V2_RADIX`, `ASERT_V2_DRIFT_CLAMP`, `ASERT_V2_MAX_TARGET_DIV4`. -/
def asertV2Radix : Int := 2 ^ 16
def asertV2DriftClamp : Int := asertV2Radix / 4
def asertV2MaxTargetDiv4 : Int := maxSha256dTarget / 4

/-! ## Builders -/

/-- `_push_minimal`. The magnitude is used up by the time the refusal prints
it. -/
def pushMinimal (n : Int) : Except PyErr Bytes :=
  if n = 0 then .ok [0x00]
  else if n = -1 then .ok [0x4F]
  else if 1 ≤ n ∧ n ≤ 16 then .ok [UInt8.ofNat (0x50 + n.toNat)]
  else
    let payload := scriptNum n
    let length := payload.length
    if length < 0x4C then .ok (UInt8.ofNat length :: payload)
    else if length ≤ 0xFF then .ok (0x4C :: UInt8.ofNat length :: payload)
    else invalid "pushMinimal: number too large: 0"

def pushMaxTarget : Bytes := [0x08, 0xFF, 0xFF, 0xFF, 0xFF, 0xFF,
  0xFF, 0xFF, 0x7F]
def pushHalfMaxTarget : Bytes := [0x08, 0xFF, 0xFF, 0xFF, 0xFF, 0xFF,
  0xFF, 0xFF, 0x3F]
def pushQuarterMaxTarget : Bytes :=
  [0x08, 0xFF, 0xFF, 0xFF, 0xFF, 0xFF, 0xFF, 0xFF, 0x1F]
def pushEpochMaxSafeTarget : Bytes :=
  [0x07, 0x00, 0x00, 0x00, 0x00, 0x00, 0x00, 0x01]

/-- `_ASERT_2MUL_STEP`: double the target, or set it to the maximum, if drift is
left. -/
def asert2MulStep : Bytes :=
  [0x76, 0x00, 0xA0] ++ [0x63] ++ [0x8C] ++ [0x7C] ++ [0x76] ++
    pushHalfMaxTarget ++ [0xA0] ++
    [0x63] ++ [0x75] ++ pushMaxTarget ++ [0x67] ++ [0x8D] ++ [0x68] ++
      [0x7C] ++ [0x68]

/-- `_ASERT_2DIV_STEP`. -/
def asert2DivStep : Bytes := [0x76, 0x00, 0xA0, 0x63, 0x8C, 0x7C,
  0x8E, 0x7C, 0x68]

/-- The closing clamp of every retarget: `DUP 1 LESSTHAN IF DROP 1 ENDIF`. -/
def clampToOne : Bytes := [0x76, 0x51, 0x9F] ++ [0x63] ++ [0x75, 0x51] ++ [0x68]

/-- `step * k`. -/
def times (k : Nat) (code : Bytes) : Bytes := (List.replicate k code).flatten

/-- `_build_asert_daa_legacy`. -/
def buildAsertDaaLegacy (halfLife : Int) : Except PyErr Bytes := do
  let halfLifePush ← pushMinimal halfLife
  return [0xC5] ++ [0x52, 0x79] ++ [0x94] ++ [0x53, 0x79] ++ [0x94] ++
    halfLifePush ++ [0x96] ++
    -- clamp the drift to [-4, 4]
    [0x76, 0x54, 0xA0] ++ [0x63] ++ [0x75, 0x54] ++ [0x68] ++
    [0x76, 0x54, 0x8F] ++ [0x9F] ++ [0x63] ++ [0x75, 0x54, 0x8F] ++ [0x68] ++
    -- double or halve the target as often
    [0x76, 0x00, 0xA0] ++ [0x63] ++ times 4 asert2MulStep ++ [0x75] ++ [0x67] ++
    [0x76, 0x00, 0x9F] ++ [0x63] ++ [0x8F] ++ times 4 asert2DivStep ++
      [0x75] ++ [0x67] ++
    [0x75] ++ [0x68] ++ [0x68] ++
    clampToOne

/-- `_build_asert_daa_v2`. -/
def buildAsertDaaV2 (halfLife : Int) : Except PyErr Bytes := do
  refuseIf (halfLife < 1) "ASERT: half_life must be an integer >= 1"
  let halfLifePush ← pushMinimal halfLife
  let radixPush ← pushMinimal asertV2Radix
  let clampPush ← pushMinimal asertV2DriftClamp
  let negClampPush ← pushMinimal (-asertV2DriftClamp)
  return [0xC5] ++ [0x52, 0x79] ++ [0x94] ++ [0x53, 0x79] ++ [0x94] ++
    radixPush ++ [0x95] ++
    halfLifePush ++ [0x96] ++ clampPush ++ [0xA3] ++ negClampPush ++
      [0xA4] ++ [0x7C] ++
    pushQuarterMaxTarget ++ [0xA3] ++ [0x76] ++ radixPush ++ [0x96] ++ [0x7B] ++
      [0x95] ++ [0x93] ++ pushQuarterMaxTarget ++ [0xA3] ++
    clampToOne

/-- `_build_linear_daa`. -/
def buildLinearDaa : Bytes :=
  [0xC5] ++ [0x52, 0x79] ++ [0x94] ++ [0x53, 0x79] ++ [0x54] ++ [0x95] ++
    [0xA3] ++ [0x00] ++ [0xA4] ++
    [0x7C] ++ pushQuarterMaxTarget ++ [0xA3] ++ [0x53, 0x79] ++
      [0x96] ++ [0x95] ++
    pushMaxTarget ++ [0xA3] ++
    clampToOne

/-- `_build_epoch_daa`. -/
def buildEpochDaa (epochLength : Int) (maxAdjustmentLog2 : Nat) :
    Except PyErr Bytes := do
  let epochPush ← pushMinimal epochLength
  return [0x59, 0x79] ++ [0x76] ++ [0x00, 0xA0] ++ [0x7C] ++ epochPush ++
    [0x97] ++ [0x00, 0x9C] ++
    [0x9A] ++ [0x63] ++
    [0xC5] ++ [0x52, 0x79] ++ [0x94] ++ [0x53, 0x79] ++
      times maxAdjustmentLog2 [0x8D] ++ [0xA3] ++
    [0x53, 0x79] ++ times maxAdjustmentLog2 [0x8E] ++ [0xA4] ++
    [0x7C] ++ pushEpochMaxSafeTarget ++ [0xA3] ++ [0x53, 0x79] ++
      [0x96] ++ [0x95] ++
    pushEpochMaxSafeTarget ++ [0xA3] ++
    clampToOne ++
    [0x68]

/-- One turn of the loop of `_build_schedule_daa`, around the code built so
far. -/
def scheduleTurn (body : Bytes) (entry : Int × Int) : Except PyErr Bytes := do
  let heightPush ← pushMinimal entry.1
  let targetPush ← pushMinimal entry.2
  return [0x59, 0x79] ++ heightPush ++ [0xA2] ++ [0x63] ++
    [0x75] ++ targetPush ++
    (if body = [] then [] else [0x67]) ++ body ++ [0x68]

/-- `_build_schedule_daa`. -/
def buildScheduleDaa (schedule : List (Int × Int)) : Except PyErr Bytes :=
  schedule.foldlM scheduleTurn []

/-! ## The miner's side -/

/-- `a // b`. -/
def floorDiv (a b : Int) : Except PyErr Int :=
  if b = 0 then .error (.other "integer division or modulo by zero")
    else .ok (a.fdiv b)

/-- `a % b`. -/
def floorMod (a b : Int) : Except PyErr Int :=
  if b = 0 then .error (.other "integer division or modulo by zero")
    else .ok (a.fmod b)

/-- `_trunc_div`. -/
def truncDiv (a b : Int) : Except PyErr Int := do
  let q ← floorDiv a.natAbs b.natAbs
  return if decide (a < 0) ≠ decide (b < 0) then -q else q

/-- One turn of the doubling loop of `compute_next_target_asert`, and one of the
halving loop. -/
def asertDouble (t : Int) : Int :=
  if t > maxSha256dTarget.fdiv 2 then maxSha256dTarget else t * 2

def asertHalve (t : Int) : Int := t.fdiv 2

/-- `compute_next_target_asert`. -/
def computeNextTargetAsert
    (currentTarget lastTime currentTime targetTime halfLife : Int) :
    Except PyErr Int := do
  let excess := (currentTime - lastTime) - targetTime
  let drift ← truncDiv excess halfLife
  let drift := max (-4) (min 4 drift)
  let newTarget :=
    if drift > 0 then asertDouble^[drift.toNat] currentTarget
    else if drift < 0 then asertHalve^[(-drift).toNat] currentTarget
    else currentTarget
  return max 1 newTarget

/-- `compute_next_target_asert_v2`. -/
def computeNextTargetAsertV2
    (currentTarget lastTime currentTime targetTime halfLife : Int) :
    Except PyErr Int := do
  let halfLife := if halfLife < 1 then 1 else halfLife
  let excess := (currentTime - lastTime) - targetTime
  let driftFp ← truncDiv (excess * asertV2Radix) halfLife
  let driftFp := max (-asertV2DriftClamp) (min asertV2DriftClamp driftFp)
  let t := min currentTarget asertV2MaxTargetDiv4
  let delta := t.fdiv asertV2Radix * driftFp
  let newTarget := min (t + delta) asertV2MaxTargetDiv4
  return max 1 newTarget

/-- `compute_next_target_linear`. -/
def computeNextTargetLinear
    (currentTarget lastTime currentTime targetTime : Int) :
    Except PyErr Int := do
  let timeDeltaCapped := max 0 (min (currentTime - lastTime) (4 * targetTime))
  let targetCapped := min currentTarget (maxSha256dTarget.fdiv 4)
  let q ← floorDiv targetCapped targetTime
  let newTarget := q * timeDeltaCapped
  let newTarget := min newTarget maxSha256dTarget
  return max 1 newTarget

/-- `height > 0 and height % epoch_length == 0`. -/
def epochBoundary (height epochLength : Int) : Except PyErr Bool :=
  if height > 0 then do
    let r ← floorMod height epochLength
    return decide (r = 0)
  else .ok false

/-- `compute_next_target_epoch`. -/
def computeNextTargetEpoch
    (currentTarget lastTime currentTime targetTime height epochLength : Int)
    (maxAdjustmentLog2 : Nat) : Except PyErr Int := do
  let boundary ← epochBoundary height epochLength
  if boundary then
    let delta := currentTime - lastTime
    let upper := targetTime * 2 ^ maxAdjustmentLog2
    let lower := targetTime.fdiv (2 ^ maxAdjustmentLog2)
    let clamped := max lower (min upper delta)
    let targetCapped := min currentTarget epochMaxSafeTarget
    let q ← floorDiv targetCapped targetTime
    let newTarget := q * clamped
    return max 1 (min newTarget epochMaxSafeTarget)
  else return currentTarget

/-- `compute_next_target_schedule`. -/
def computeNextTargetSchedule (currentTarget height : Int)
    (schedule : List (Int × Int)) : Int :=
  schedule.foldl (fun newTarget entry => if height ≥ entry.1 then entry.2
    else newTarget) currentTarget

/-! ## Contracts -/

/-- The retarget rule a contract is deployed with. -/
inductive Daa where
  | asertV2 (halfLife : Int)
  | asertLegacy (halfLife : Int)
  | linear
  | epoch (epochLength : Int) (maxAdjustmentLog2 : Nat)
  | schedule (entries : List (Int × Int))

/-- The bytecode that is baked in. -/
def Daa.build : Daa → Except PyErr Bytes
  | .asertV2 halfLife => buildAsertDaaV2 halfLife
  | .asertLegacy halfLife => buildAsertDaaLegacy halfLife
  | .linear => .ok buildLinearDaa
  | .epoch epochLength n => buildEpochDaa epochLength n
  | .schedule entries => buildScheduleDaa entries

/-- The numbers a mint depends on. -/
structure MintState where
  target : Int
  lastTime : Int
  currentTime : Int
  targetTime : Int
  height : Int

/-- The target the miner puts into the next state. -/
def Daa.nextTarget (st : MintState) : Daa → Except PyErr Int
  | .asertV2 halfLife =>
    computeNextTargetAsertV2 st.target st.lastTime st.currentTime
      st.targetTime halfLife
  | .asertLegacy halfLife =>
    computeNextTargetAsert st.target st.lastTime st.currentTime
      st.targetTime halfLife
  | .linear =>
    computeNextTargetLinear st.target st.lastTime st.currentTime st.targetTime
  | .epoch epochLength n =>
    computeNextTargetEpoch st.target st.lastTime st.currentTime st.targetTime
      st.height epochLength n
  | .schedule entries =>
    .ok (computeNextTargetSchedule st.target st.height entries)

/-- What `DmintDeployParams` checks of a rule, with the bound on the
half-life. -/
def Daa.Deployable : Daa → Prop
  | .asertV2 halfLife => 1 ≤ halfLife ∧ halfLife < 2 ^ 31
  | .asertLegacy halfLife => 1 ≤ halfLife ∧ halfLife < 2 ^ 31
  | .linear => True
  | .epoch epochLength n => 1 ≤ epochLength ∧ n ∈ [1, 2, 3, 4]
  | .schedule entries => entries ≠ [] ∧ entries.length ≤ 10 ∧
      (∀ e ∈ entries, 0 ≤ e.1 ∧ 1 ≤ e.2 ∧ e.2 ≤ maxSha256dTarget) ∧
      entries.Pairwise fun e f => e.1 < f.1

instance : DecidablePred Daa.Deployable
  | .asertV2 halfLife =>
    inferInstanceAs (Decidable (1 ≤ halfLife ∧ halfLife < 2 ^ 31))
  | .asertLegacy halfLife =>
    inferInstanceAs (Decidable (1 ≤ halfLife ∧ halfLife < 2 ^ 31))
  | .linear => inferInstanceAs (Decidable True)
  | .epoch epochLength n =>
    inferInstanceAs (Decidable (1 ≤ epochLength ∧ n ∈ [1, 2, 3, 4]))
  | .schedule entries => inferInstanceAs (Decidable (entries ≠ [] ∧ entries.length ≤ 10 ∧
      (∀ e ∈ entries, 0 ≤ e.1 ∧ 1 ≤ e.2 ∧ e.2 ≤ maxSha256dTarget) ∧
      entries.Pairwise fun e f => e.1 < f.1))

/-- The states the retarget has to work from. -/
structure MintState.Valid (st : MintState) : Prop where
  target : 1 ≤ st.target ∧ st.target ≤ maxSha256dTarget
  times : 0 ≤ st.lastTime ∧ st.lastTime ≤ st.currentTime ∧
    st.currentTime ≤ 0x7FFFFFFF
  targetTime : 1 ≤ st.targetTime ∧ st.targetTime < 2 ^ 31

end Pyrxd.Glyph
