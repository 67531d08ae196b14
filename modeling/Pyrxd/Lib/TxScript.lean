import Pyrxd.Lib.ScriptCode
import Pyrxd.Lib.ScriptVm
import Pyrxd.Lib.Sha256

/-!
# A script machine that looks at the transaction

The machine of `Pyrxd.Lib.ScriptVm` over chunks, with the opcodes that read the
spending transaction: its outputs, the refs in them and the input's relative
lock. `none` is an aborted script; the limits on sizes and on the number of
operations are left out.

Code is described by the partial function it computes: `Acts ctx ts f` says that
`ts`, executed, takes every stack `s` to `f s` (`none` where it aborts) and that
it does nothing in a branch that is not taken. Each construct has its rule and
longer code is put together with `Acts.append`, so that what a script accepts is
read off one function, in both directions.
-/

namespace Pyrxd.Lib

/-- An output: an amount and a script. -/
structure TxOut where
  value : Int
  script : Bytes
  inRange : 0 ≤ value ∧ value < 2 ^ 63

/-- The dust value is an amount. -/
theorem TxOut.dust_inRange : 0 ≤ (546 : Int) ∧ (546 : Int) < 2 ^ 63 := by decide

/-- What a script reads of the transaction that spends it; `pushRefs` are the
refs a script pushes. -/
structure TxCtx extends ScriptCtx where
  version : Nat
  sequence : Nat
  outputs : List TxOut
  pushRefs : Bytes → List Bytes

namespace TxCtx

variable (ctx : TxCtx)

/-- The outputs that hold a ref. -/
def holding (ref : Bytes) : List TxOut :=
  ctx.outputs.filter fun o => ref ∈ ctx.pushRefs o.script

def refOutputCount (ref : Bytes) : Int := (ctx.holding ref).length

def refValueSum (ref : Bytes) : Int := ((ctx.holding ref).map TxOut.value).sum

/-- The output an index names. -/
def output (index : Bytes) : Option TxOut := do
  let k ← readNum ctx.requireMinimal index
  if k < 0 then none else ctx.outputs[k.toNat]?

/-- `CheckSequence`: BIP68 is on, the lock counts in the same unit, and it is
long enough. -/
def CheckSequence (n : Nat) : Prop :=
  2 ≤ ctx.version ∧ ctx.sequence.testBit 31 = false ∧
    ctx.sequence.testBit 22 = n.testBit 22 ∧
    n % 2 ^ 16 ≤ ctx.sequence % 2 ^ 16

instance (n : Nat) : Decidable (ctx.CheckSequence n) :=
  inferInstanceAs (Decidable (_ ∧ _ ∧ _ ∧ _))

/-- `OP_CHECKSEQUENCEVERIFY` on its operand of up to five bytes. -/
def checkSequenceVerify (operand : Bytes) : Option Unit := do
  if 5 < operand.length then none
  else
    let n ← readNum ctx.requireMinimal operand
    if n < 0 then none
    else if n.toNat.testBit 31 then some ()
    else if ctx.CheckSequence n.toNat then some () else none

end TxCtx

/-- `true` and `false` as `EQUAL` pushes them. -/
def boolBytes (p : Prop) [Decidable p] : Bytes := if p then [1] else []

/-- A pushed truth value is truthy when true. -/
theorem truthy_boolBytes {p : Prop} [Decidable p] :
    truthy (boolBytes p) = true ↔ p := by
  unfold boolBytes
  by_cases h : p
  · rw [if_pos h]
    exact ⟨fun _ => h, fun _ => rfl⟩
  · rw [if_neg h]
    exact ⟨nofun, fun hp => absurd hp h⟩

/-- The opcodes that leave a number they did not compute: `SIZE`,
`TXOUTPUTCOUNT`, `OUTPUTVALUE`, `REFVALUESUM_OUTPUTS`,
`REFOUTPUTCOUNT_OUTPUTS`. -/
def countOps : List UInt8 := [0x82, 0xC4, 0xCC, 0xDC, 0xDE]

/-- That number, and the stack below it. -/
def txCount (ctx : TxCtx) (code : UInt8) (s : List Bytes) :
    Option (Int × List Bytes) :=
  match code, s with
  | 0x82, x :: s => some (x.length, x :: s)
  | 0xC4, s => some (ctx.outputs.length, s)
  | 0xCC, i :: s => (ctx.output i).map fun o => (o.value, s)
  | 0xDC, r :: s => if r.length = 36 then some (ctx.refValueSum r, s) else none
  | 0xDE, r :: s =>
    if r.length = 36 then some (ctx.refOutputCount r, s) else none
  | _, _ => none

/-- The opcodes that `runOp` does not have. -/
def runTxOp (ctx : TxCtx) (code : UInt8) (s : List Bytes) :
    Option (List Bytes) :=
  if code ∈ countOps then do
    let (n, s) ← txCount ctx code s
    pushNum n s
  else match code, s with
    | 0x00, s => some ([] :: s)
    -- VERIFY, NIP
    | 0x69, x :: s => if truthy x then some s else none
    | 0x77, y :: _ :: s => some (y :: s)
    -- EQUAL, EQUALVERIFY, NUMEQUALVERIFY
    | 0x87, y :: x :: s => some (boolBytes (x = y) :: s)
    | 0x88, y :: x :: s => if x = y then some s else none
    | 0x9D, y :: x :: s => do
      let a ← readNum ctx.requireMinimal x
      let b ← readNum ctx.requireMinimal y
      if a = b then some s else none
    -- SHA256, HASH256
    | 0xA8, x :: s => some (sha256 x :: s)
    | 0xAA, x :: s => some (hash256 x :: s)
    -- CHECKSEQUENCEVERIFY leaves its operand
    | 0xB2, x :: s => (ctx.checkSequenceVerify x).map fun _ => x :: s
    -- OUTPUTBYTECODE
    | 0xCD, i :: s => do return (← ctx.output i).script :: s
    | code, s => runOp ctx.toScriptCtx code s

/-! ## What the opcodes do -/

section Ops

variable {ctx : TxCtx} {s : List Bytes} {x y : Bytes} {code : UInt8}

theorem runTxOp_zero : runTxOp ctx 0x00 s = some ([] :: s) := rfl

theorem runTxOp_one : runTxOp ctx 0x51 s = some (scriptNum 1 :: s) := rfl

theorem runTxOp_verify : runTxOp ctx 0x69 (x :: s) = if truthy x then some s
    else none := rfl

theorem runTxOp_drop : runTxOp ctx 0x75 (x :: s) = some s := rfl

theorem runTxOp_dup : runTxOp ctx 0x76 (x :: s) = some (x :: x :: s) := rfl

theorem runTxOp_nip : runTxOp ctx 0x77 (y :: x :: s) = some (y :: s) := rfl

theorem runTxOp_swap : runTxOp ctx 0x7C (y :: x :: s) = some
    (x :: y :: s) := rfl

theorem runTxOp_equal : runTxOp ctx 0x87 (y :: x :: s) = some
    (boolBytes (x = y) :: s) := rfl

theorem runTxOp_equalVerify : runTxOp ctx 0x88 (y :: x :: s) = if x =
    y then some s else none := rfl

theorem runTxOp_numEqual : runTxOp ctx 0x9C (y :: x :: s) =
    (readNum ctx.requireMinimal x).bind fun a =>
      (readNum ctx.requireMinimal y).bind fun b =>
      pushNum (boolNum (a = b)) s := rfl

theorem runTxOp_numEqualVerify : runTxOp ctx 0x9D (y :: x :: s) =
    (readNum ctx.requireMinimal x).bind fun a =>
      (readNum ctx.requireMinimal y).bind fun b =>
      if a = b then some s else none := rfl

theorem runTxOp_greaterOrEqual : runTxOp ctx 0xA2 (y :: x :: s) =
    (readNum ctx.requireMinimal x).bind fun a =>
      (readNum ctx.requireMinimal y).bind fun b =>
      pushNum (boolNum (a ≥ b)) s := rfl

theorem runTxOp_sha256 : runTxOp ctx 0xA8 (x :: s) = some (sha256 x :: s) := rfl

theorem runTxOp_hash256 : runTxOp ctx 0xAA (x :: s) = some
    (hash256 x :: s) := rfl

theorem runTxOp_checkSequence : runTxOp ctx 0xB2 (x :: s) =
    (ctx.checkSequenceVerify x).map fun _ => x :: s := rfl

theorem runTxOp_outputBytecode : runTxOp ctx 0xCD (x :: s) =
    (ctx.output x).bind fun o => some (o.script :: s) := rfl

/-- Counting opcodes push what they count. -/
theorem runTxOp_count {n : Int} {s' : List Bytes} (h : code ∈ countOps)
    (hcount : txCount ctx code s = some (n, s')) :
    runTxOp ctx code s = pushNum n s' := by
  have hbranch : runTxOp ctx code s = (txCount ctx code s).bind fun r =>
      pushNum r.1 r.2 := if_pos h
  rw [hbranch, hcount, Option.bind_some]

/-- A truth value can be pushed. -/
theorem pushNum_boolNum {p : Prop} [Decidable p] :
    pushNum (boolNum p) s = some (scriptNum (boolNum p) :: s) := by
  rw [pushNum, if_pos]
  unfold boolNum
  split <;> decide

end Ops

/-! ## Runs -/

def txStep (ctx : TxCtx) (vm : Vm) : Chunk → Option Vm
  | .data d => some (if vm.executing then ⟨d :: vm.stack, vm.cond⟩ else vm)
  | .ref code r =>
    -- PUSHINPUTREF and PUSHINPUTREFSINGLETON leave the ref
    if vm.executing then
      if code = 0xD0 ∨ code = 0xD8 then some ⟨r :: vm.stack, vm.cond⟩ else none
    else some vm
  | .op code =>
    if code = 0x63 then
      if vm.executing then
        match vm.stack with
        | x :: s => some ⟨s, truthy x :: vm.cond⟩
        | [] => none
      else some ⟨vm.stack, false :: vm.cond⟩
    else if code = 0x67 then
      match vm.cond with
      | b :: c => some ⟨vm.stack, (!b) :: c⟩
      | [] => none
    else if code = 0x68 then
      match vm.cond with
      | _ :: c => some ⟨vm.stack, c⟩
      | [] => none
    else if vm.executing then (runTxOp ctx code vm.stack).map (⟨·, vm.cond⟩)
    else some vm

def txExec (ctx : TxCtx) (ts : List Chunk) (vm : Vm) : Option Vm :=
  ts.foldlM (txStep ctx) vm

/-- Run code on a stack; every conditional must be closed at the end. -/
def runTxScript (ctx : TxCtx) (code : Bytes) (stack : List Bytes) :
    Option (List Bytes) := do
  let ts ← readCode code.length code
  let vm ← txExec ctx ts ⟨stack, []⟩
  if vm.cond = [] then some vm.stack else none

/-- A script succeeds if it leaves `true` and nothing else. -/
def Accepts (ctx : TxCtx) (code : Bytes) (stack : List Bytes) : Prop :=
  ∃ top, runTxScript ctx code stack = some [top] ∧ truthy top = true

/-! ## Code as a partial function -/

section Acts

variable {ctx : TxCtx} {a b body ts : List Chunk}
  {f g : List Bytes → Option (List Bytes)}
  {code : UInt8}

structure Acts (ctx : TxCtx) (ts : List Chunk)
    (f : List Bytes → Option (List Bytes)) : Prop where
  taken : ∀ s cond, cond.all id = true →
    txExec ctx ts ⟨s, cond⟩ = (f s).map (⟨·, cond⟩)
  skipped : ∀ s cond, cond.all id = false →
    txExec ctx ts ⟨s, cond⟩ = some ⟨s, cond⟩

/-- Running two parts is running one after the other. -/
theorem txExec_append (a b : List Chunk) (vm : Vm) :
    txExec ctx (a ++ b) vm = (txExec ctx a vm).bind (txExec ctx b) :=
  List.foldlM_append

theorem txExec_one (t : Chunk) (vm : Vm) :
    txExec ctx [t] vm = txStep ctx vm t := by
  show (txStep ctx vm t).bind some = txStep ctx vm t
  cases txStep ctx vm t <;> rfl

theorem Acts.append (ha : Acts ctx a f) (hb : Acts ctx b g) :
    Acts ctx (a ++ b) fun s => (f s).bind g := by
  constructor
  · intro s cond hc
    rw [txExec_append, ha.taken s cond hc]
    cases f s with
    | none => rfl
    | some s' => exact hb.taken s' cond hc
  · intro s cond hc
    rw [txExec_append, ha.skipped s cond hc]
    exact hb.skipped s cond hc

/-- A first chunk's effect composes with the rest's. -/
theorem Acts.cons {t : Chunk} (ha : Acts ctx [t] f) (hb : Acts ctx b g) :
    Acts ctx (t :: b) fun s => (f s).bind g := ha.append hb

theorem Acts.nil : Acts ctx [] some := ⟨fun _ _ _ => rfl, fun _ _ _ => rfl⟩

theorem Acts.data (d : Bytes) : Acts ctx [.data d] fun s => some (d :: s) := by
  constructor
  · intro s cond hc
    rw [txExec_one, txStep, Vm.executing, hc]
    rfl
  · intro s cond hc
    rw [txExec_one, txStep, Vm.executing, hc]
    rfl

theorem Acts.ref (r : Bytes) (hcode : code = 0xD0 ∨ code = 0xD8) :
    Acts ctx [.ref code r] fun s => some (r :: s) := by
  constructor
  · intro s cond hc
    rw [txExec_one, txStep, Vm.executing, if_pos hc, if_pos hcode]
    rfl
  · intro s cond hc
    rw [txExec_one, txStep, Vm.executing, hc]
    rfl

theorem Acts.op (h : Ordinary code) : Acts ctx [.op code]
    (runTxOp ctx code) := by
  constructor
  · intro s cond hc
    rw [txExec_one, txStep, if_neg h.1, if_neg h.2.1, if_neg h.2.2,
      Vm.executing, if_pos hc]
  · intro s cond hc
    rw [txExec_one, txStep, if_neg h.1, if_neg h.2.1, if_neg h.2.2,
      Vm.executing, hc]
    rfl

/-- What `IF` does with the top of the stack. -/
def branchOn (f g : List Bytes → Option (List Bytes)) : List Bytes →
    Option (List Bytes)
  | [] => none
  | x :: s => if truthy x then f s else g s

/-- `IF a ELSE b ENDIF`. -/
theorem Acts.ifElse (ha : Acts ctx a f) (hb : Acts ctx b g) :
    Acts ctx ([.op 0x63] ++ a ++ ([.op 0x67] ++ b ++ [.op 0x68]))
      (branchOn f g) := by
  have helse : ∀ s c cond, txExec ctx [.op 0x67] ⟨s, c :: cond⟩ = some ⟨s,
      (!c) :: cond⟩ :=
    fun _ _ _ => rfl
  have hendif : ∀ s c cond, txExec ctx [.op 0x68] ⟨s, c :: cond⟩ =
      some ⟨s, cond⟩ :=
    fun _ _ _ => rfl
  constructor
  · intro s cond hc
    rw [txExec_append, txExec_append, txExec_one, txStep, if_pos rfl,
      Vm.executing, if_pos hc]
    cases s with
    | nil => rfl
    | cons x s =>
      rw [Option.bind_some, branchOn]
      by_cases hx : truthy x = true
      · rw [if_pos hx, hx, ha.taken s _ (all_cons_true hc)]
        cases f s with
        | none => rfl
        | some s' =>
          rw [Option.map_some, Option.bind_some, txExec_append,
            txExec_append, helse,
            Option.bind_some, Bool.not_true,
              hb.skipped _ _ (all_cons_false cond), Option.bind_some,
            hendif]
          rfl
      · have hx' : truthy x = false := Bool.eq_false_iff.mpr hx
        rw [if_neg hx, hx', ha.skipped s _ (all_cons_false cond),
          Option.bind_some, txExec_append,
          txExec_append, helse, Option.bind_some, Bool.not_false,
            hb.taken s _ (all_cons_true hc)]
        cases g s <;> rfl
  · intro s cond hc
    have hc' : (true :: cond).all id = false := by
      rw [List.all_cons, hc]
      rfl
    rw [txExec_append, txExec_append, txExec_one, txStep, if_pos rfl,
      Vm.executing, hc,
      if_neg Bool.false_ne_true, Option.bind_some,
        ha.skipped s _ (all_cons_false cond),
      Option.bind_some, txExec_append, txExec_append, helse, Option.bind_some,
        Bool.not_false,
      hb.skipped s _ hc', Option.bind_some, hendif]

/-! ## Straight code -/

/-- One executed chunk that is not a conditional. -/
def runChunk (ctx : TxCtx) : Chunk → List Bytes → Option (List Bytes)
  | .data d, s => some (d :: s)
  | .ref _ r, s => some (r :: s)
  | .op code, s => runTxOp ctx code s

/-- A row of them. -/
def line (ctx : TxCtx) : List Chunk → List Bytes → Option (List Bytes)
  | [], s => some s
  | t :: ts, s => (runChunk ctx t s).bind (line ctx ts)

def Straight : Chunk → Prop
  | .data _ => True
  | .ref code _ => code = 0xD0 ∨ code = 0xD8
  | .op code => Ordinary code

instance : DecidablePred Straight := fun t =>
  match t with
  | .data _ => inferInstanceAs (Decidable True)
  | .ref code _ => inferInstanceAs (Decidable (code = 0xD0 ∨ code = 0xD8))
  | .op code => inferInstanceAs (Decidable (Ordinary code))

theorem line_op (s : List Bytes) :
    line ctx (.op code :: ts) s = (runTxOp ctx code s).bind (line ctx ts) := rfl

theorem line_data (d : Bytes) (s : List Bytes) :
    line ctx (.data d :: ts) s = line ctx ts (d :: s) := rfl

theorem line_ref (r : Bytes) (s : List Bytes) :
    line ctx (.ref code r :: ts) s = line ctx ts (r :: s) := rfl

/-- A straight chunk has an effect. -/
theorem acts_chunk {t : Chunk} (h : Straight t) : Acts ctx [t]
    (runChunk ctx t) := by
  cases t with
  | data d => exact Acts.data d
  | ref code r => exact Acts.ref r h
  | op code => exact Acts.op h

theorem acts_line (h : ∀ t ∈ ts, Straight t) : Acts ctx ts (line ctx ts) := by
  induction ts with
  | nil => exact Acts.nil
  | cons t ts ih =>
    rw [List.forall_mem_cons] at h
    exact (acts_chunk h.1).cons (ih h.2)

/-- Go on with the same stack if the check holds. -/
def require (p : Prop) [Decidable p] (s : List Bytes) : Option (List Bytes) :=
  if p then some s else none

/-- A last comparison behind a check leaves `true` alone just when both hold. -/
theorem require_boolBytes {p q : Prop} [Decidable p] [Decidable q]
    {s : List Bytes} :
    (∃ top, require p (boolBytes q :: s) = some [top] ∧ truthy top = true) ↔
    p ∧ s = [] ∧ q := by
  unfold require
  by_cases hp : p
  · rw [if_pos hp]
    simp only [Option.some.injEq, List.cons.injEq, hp, true_and]
    constructor
    · rintro ⟨top, ⟨rfl, hs⟩, htop⟩
      exact ⟨hs, truthy_boolBytes.mp htop⟩
    · rintro ⟨hs, hq⟩
      exact ⟨_, ⟨rfl, hs⟩, truthy_boolBytes.mpr hq⟩
  · rw [if_neg hp]
    exact ⟨nofun, fun h => absurd h.1 hp⟩

/-- Assembled code computes what its chunks do. -/
theorem runTxScript_acts (hts : ∀ t ∈ ts, t.Ok) (h : Acts ctx ts f)
    (s : List Bytes) :
    runTxScript ctx (assembleCode ts) s = f s := by
  rw [runTxScript, readCode_assemble hts (Nat.le_refl _)]
  show (txExec ctx ts ⟨s, []⟩).bind _ = f s
  rw [h.taken s [] rfl]
  cases f s <;> rfl

end Acts

end Pyrxd.Lib
