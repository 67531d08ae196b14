import Pyrxd.Lib.ScriptNum

/-!
# A script machine

The part of the Radiant script interpreter that straight-line arithmetic with
conditionals needs: pushes, 64-bit script numbers, stack shuffling,
`IF`/`ELSE`/`ENDIF` and the locktime. A script is first cut into tokens, then
run on a stack of byte strings; `none` is an aborted script. An opcode outside
this part aborts.

The second half is a small program logic. `Runs ts s s'` says that an executed
piece of code takes the stack `s` to `s'`, `Skips ts` that an unexecuted one
changes nothing, `Aborts ts s` that it fails; each construct has its rule, and
longer code is put together with `append`.
-/

namespace Pyrxd.Lib

/-! ## Tokens -/

inductive Token where
  | push (data : Bytes)
  | op (code : UInt8)
deriving DecidableEq

/-- The code of a token; a push of up to 255 bytes in its shortest form. -/
def Token.bytes : Token → Bytes
  | .push data =>
    if data.length < 0x4C then UInt8.ofNat data.length :: data
    else 0x4C :: UInt8.ofNat data.length :: data
  | .op code => [code]

def assemble (ts : List Token) : Bytes := ts.flatMap Token.bytes

theorem assemble_append (a b : List Token) :
    assemble (a ++ b) = assemble a ++ assemble b :=
  List.flatMap_append

/-- Cut code into tokens; a push must be followed by its data. -/
def tokenize : Nat → Bytes → Option (List Token)
  | _, [] => some []
  | 0, _ :: _ => none
  | fuel + 1, code :: rest =>
    if code ≤ 0x4E then
      let width := if code = 0x4C then 1 else if code = 0x4D then 2
        else if code = 0x4E then 4 else 0
      let size := if code < 0x4C then code.toNat else leNat (rest.take width)
      if (rest.drop width).length < size ∨ rest.length < width then none
      else (tokenize fuel ((rest.drop width).drop size)).map
        (.push ((rest.drop width).take size) :: ·)
    else (tokenize fuel rest).map (.op code :: ·)

/-- A token that comes back from its code. -/
def Token.Ok : Token → Prop
  | .push data => data.length ≤ 0xFF
  | .op code => 0x4E < code

instance (t : Token) : Decidable t.Ok :=
  match t with
  | .push data => inferInstanceAs (Decidable (data.length ≤ 0xFF))
  | .op code => inferInstanceAs (Decidable (0x4E < code))

/-- A well-formed token is read back. -/
theorem tokenize_bytes {t : Token} (ht : t.Ok) (fuel : Nat) (rest : Bytes) :
    tokenize (fuel + 1) (t.bytes ++ rest) = (tokenize fuel rest).map
      (t :: ·) := by
  cases t with
  | op code =>
    have hcode : ¬ code ≤ 0x4E := by
      have h : (0x4E : UInt8).toNat < code.toNat := ht
      show ¬ code.toNat ≤ (0x4E : UInt8).toNat
      omega
    show tokenize (fuel + 1) (code :: rest) = _
    rw [tokenize, if_neg hcode]
  | push data =>
    have hlen : data.length ≤ 0xFF := ht
    have hnat : (UInt8.ofNat data.length).toNat = data.length := by
      rw [UInt8.toNat_ofNat']
      omega
    rw [Token.bytes]
    by_cases hshort : data.length < 0x4C
    · have hle : UInt8.ofNat data.length ≤ 0x4E := by
        show (UInt8.ofNat data.length).toNat ≤ 78
        omega
      have hlt : UInt8.ofNat data.length < 0x4C := by
        show (UInt8.ofNat data.length).toNat < 76
        omega
      have hne : UInt8.ofNat data.length ≠ 0x4C ∧
          UInt8.ofNat data.length ≠ 0x4D ∧
          UInt8.ofNat data.length ≠ 0x4E := by
        refine ⟨?_, ?_, ?_⟩ <;>
          (intro h; rw [h] at hlt; exact absurd hlt (by decide))
      rw [if_pos hshort, List.cons_append, tokenize, if_pos hle]
      simp only [hne, if_false, hlt, if_true, hnat, List.drop_zero]
      rw [if_neg (by rw [List.length_append]; omega), List.drop_left,
        List.take_left]
    · rw [if_neg hshort, List.cons_append, List.cons_append, tokenize,
        if_pos (by decide)]
      have hval : leNat [UInt8.ofNat data.length] =
          data.length := by rw [leNat_singleton, hnat]
      simp only [if_true, if_neg (by decide : ¬ (0x4C : UInt8) < 0x4C),
        List.take_succ_cons,
        List.take_zero, hval, List.drop_succ_cons, List.drop_zero]
      rw [if_neg (by rw [List.length_cons, List.length_append]; omega),
        List.drop_left,
        List.take_left]

/-- **What is assembled is what is run.** -/
theorem tokenize_assemble {ts : List Token} (hts : ∀ t ∈ ts, t.Ok) :
    ∀ {fuel : Nat}, (assemble ts).length ≤ fuel →
    tokenize fuel (assemble ts) = some ts := by
  induction ts with
  | nil => intro fuel _; cases fuel <;> rfl
  | cons t ts ih =>
    intro fuel hfuel
    have hpos : 1 ≤ t.bytes.length := by
      cases t with
      | op code => exact Nat.le_refl 1
      | push data =>
        rw [Token.bytes]
        split <;> rw [List.length_cons] <;> omega
    rw [assemble, List.flatMap_cons, List.length_append] at hfuel
    obtain ⟨k, rfl⟩ : ∃ k, fuel = k + 1 := ⟨fuel - 1, by omega⟩
    rw [assemble, List.flatMap_cons, tokenize_bytes (hts t List.mem_cons_self)]
    have hk : (assemble ts).length ≤ k := by
      rw [assemble]
      omega
    have hrest := ih (fun u hu => hts u (List.mem_cons_of_mem _ hu)) hk
    rw [assemble] at hrest
    rw [hrest]
    rfl

/-! ## The machine -/

/-- What a script reads besides its stack. -/
structure ScriptCtx where
  locktime : Int
  requireMinimal : Bool

/-- The opcodes, by what they do. -/
inductive OpKind where
  | const (n : Int)
  | unary (f : Int → Int)
  | binary (f : Int → Int → Option Int)
  | shuffle (f : List Bytes → Option (List Bytes))
  | pick
  | txLocktime
  | unknown

/-- `true` and `false` as numbers. -/
def boolNum (p : Prop) [Decidable p] : Int := if p then 1 else 0

def opKind (code : UInt8) : OpKind :=
  if 0x51 ≤ code ∧ code ≤ 0x60 then .const (code.toNat - 0x50 : Int)
  else match code with
    | 0x4F => .const (-1)
    -- DROP, DUP, PICK, ROT, SWAP
    | 0x75 => .shuffle fun | _ :: s => some s | _ => none
    | 0x76 => .shuffle fun | x :: s => some (x :: x :: s) | _ => none
    | 0x79 => .pick
    | 0x7B =>
      .shuffle fun | z :: y :: x :: s => some (x :: z :: y :: s) | _ => none
    | 0x7C => .shuffle fun | y :: x :: s => some (x :: y :: s) | _ => none
    -- 1SUB, 2MUL, 2DIV, NEGATE
    | 0x8C => .unary fun a => a - 1
    | 0x8D => .unary fun a => a * 2
    | 0x8E => .unary fun a => a.tdiv 2
    | 0x8F => .unary fun a => -a
    -- ADD, SUB, MUL, DIV, MOD; the last two truncate toward zero
    | 0x93 => .binary fun a b => some (a + b)
    | 0x94 => .binary fun a b => some (a - b)
    | 0x95 => .binary fun a b => some (a * b)
    | 0x96 => .binary fun a b => if b = 0 then none else some (a.tdiv b)
    | 0x97 => .binary fun a b => if b = 0 then none else some (a.tmod b)
    -- BOOLAND, NUMEQUAL, LESSTHAN, GREATERTHAN, GREATERTHANOREQUAL, MIN, MAX
    | 0x9A => .binary fun a b => some (boolNum (a ≠ 0 ∧ b ≠ 0))
    | 0x9C => .binary fun a b => some (boolNum (a = b))
    | 0x9F => .binary fun a b => some (boolNum (a < b))
    | 0xA0 => .binary fun a b => some (boolNum (a > b))
    | 0xA2 => .binary fun a b => some (boolNum (a ≥ b))
    | 0xA3 => .binary fun a b => some (min a b)
    | 0xA4 => .binary fun a b => some (max a b)
    | 0xC5 => .txLocktime
    | _ => .unknown

/-- A result must be in range. -/
def pushNum (n : Int) (s : List Bytes) : Option (List Bytes) :=
  if NumRange n then some (scriptNum n :: s) else none

def runOp (ctx : ScriptCtx) (code : UInt8) (s : List Bytes) :
    Option (List Bytes) :=
  match opKind code, s with
  | .const n, s => pushNum n s
  | .unary f, x :: s => do
    let a ← readNum ctx.requireMinimal x
    pushNum (f a) s
  | .binary f, y :: x :: s => do
    let a ← readNum ctx.requireMinimal x
    let b ← readNum ctx.requireMinimal y
    let r ← f a b
    pushNum r s
  | .shuffle f, s => f s
  | .pick, n :: s => do
    let k ← readNum ctx.requireMinimal n
    if k < 0 then none else (s[k.toNat]?).map (· :: s)
  | .txLocktime, s => pushNum ctx.locktime s
  | _, _ => none

/-- `CastToBool`. -/
def truthy (b : Bytes) : Bool :=
  match b.reverse with
  | [] => false
  | last :: rest => last &&& 0x7F != 0 || rest.any (· != 0)

/-- The stack, top first, and the open conditionals, innermost first. -/
structure Vm where
  stack : List Bytes
  cond : List Bool

def Vm.executing (vm : Vm) : Bool := vm.cond.all id

def step (ctx : ScriptCtx) (vm : Vm) : Token → Option Vm
  | .push data =>
    some (if vm.executing then ⟨data :: vm.stack, vm.cond⟩ else vm)
  | .op code =>
    if code = 0x63 then
      if vm.executing then
        match vm.stack with
        | x :: s => some ⟨s, truthy x :: vm.cond⟩
        | [] => none
      else some ⟨vm.stack, false :: vm.cond⟩
    else if code = 0x67 then
      match vm.cond with
      | b :: c => some ⟨vm.stack, (!b) :: c⟩
      | [] => none
    else if code = 0x68 then
      match vm.cond with
      | _ :: c => some ⟨vm.stack, c⟩
      | [] => none
    else if vm.executing then (runOp ctx code vm.stack).map (⟨·, vm.cond⟩)
    else some vm

def exec (ctx : ScriptCtx) (ts : List Token) (vm : Vm) : Option Vm :=
  ts.foldlM (step ctx) vm

/-- Run code on a stack; every conditional must be closed at the end. -/
def runScript (ctx : ScriptCtx) (code : Bytes) (stack : List Bytes) :
    Option (List Bytes) := do
  let ts ← tokenize code.length code
  let vm ← exec ctx ts ⟨stack, []⟩
  if vm.cond = [] then some vm.stack else none

/-! ## Program logic -/

section Rules

variable {ctx : ScriptCtx} {a b body ts : List Token}
  {s s' s'' : List Bytes} {x y : Bytes}
  {code : UInt8}

/-- Executed, the code takes `s` to `s'`. -/
def Runs (ctx : ScriptCtx) (ts : List Token) (s s' : List Bytes) : Prop :=
  ∀ cond, cond.all id = true → exec ctx ts ⟨s, cond⟩ = some ⟨s', cond⟩

/-- Inside a branch that is not taken, the code does nothing. -/
def Skips (ctx : ScriptCtx) (ts : List Token) : Prop :=
  ∀ s cond, cond.all id = false → exec ctx ts ⟨s, cond⟩ = some ⟨s, cond⟩

/-- Executed, the code aborts the script. -/
def Aborts (ctx : ScriptCtx) (ts : List Token) (s : List Bytes) : Prop :=
  ∀ cond, cond.all id = true → exec ctx ts ⟨s, cond⟩ = none

/-- Running two parts is running one after the other. -/
theorem exec_append (a b : List Token) (vm : Vm) :
    exec ctx (a ++ b) vm = (exec ctx a vm).bind (exec ctx b) :=
  List.foldlM_append

theorem Runs.append (ha : Runs ctx a s s') (hb : Runs ctx b s' s'') :
    Runs ctx (a ++ b) s s'' := by
  intro cond hc
  rw [exec_append, ha cond hc]
  exact hb cond hc

theorem Runs.cons {t : Token} (ha : Runs ctx [t] s s')
    (hb : Runs ctx b s' s'') :
    Runs ctx (t :: b) s s'' := ha.append hb

theorem Runs.cons₂ {t u : Token} (ha : Runs ctx [t, u] s s')
    (hb : Runs ctx b s' s'') :
    Runs ctx (t :: u :: b) s s'' := ha.append hb

theorem Runs.nil : Runs ctx [] s s := fun _ _ => rfl

/-- What aborts in front aborts. -/
theorem Aborts.append (h : Aborts ctx a s) : Aborts ctx (a ++ b) s := by
  intro cond hc
  rw [exec_append, h cond hc]
  rfl

theorem Runs.aborts (ha : Runs ctx a s s') (hb : Aborts ctx b s') :
    Aborts ctx (a ++ b) s := by
  intro cond hc
  rw [exec_append, ha cond hc]
  exact hb cond hc

/-- Parts that are skipped are skipped together. -/
theorem Skips.append (ha : Skips ctx a) (hb : Skips ctx b) :
    Skips ctx (a ++ b) := by
  intro s cond hc
  rw [exec_append, ha s cond hc]
  exact hb s cond hc

theorem exec_one (t : Token) (vm : Vm) : exec ctx [t] vm = step ctx vm t := by
  show (step ctx vm t).bind some = step ctx vm t
  cases step ctx vm t <;> rfl

/-- An opcode that is not one of the three conditionals. -/
def Ordinary (code : UInt8) : Prop := code ≠ 0x63 ∧ code ≠ 0x67 ∧ code ≠ 0x68

instance (code : UInt8) : Decidable (Ordinary code) :=
  inferInstanceAs (Decidable (_ ∧ _))

/-- An ordinary opcode acts unless its branch is off. -/
theorem step_ordinary (h : Ordinary code) (vm : Vm) : step ctx vm (.op code) =
    if vm.executing then (runOp ctx code vm.stack).map (⟨·, vm.cond⟩)
      else some vm := by
  rw [step, if_neg h.1, if_neg h.2.1, if_neg h.2.2]

theorem Runs.push (data : Bytes) : Runs ctx [.push data] s (data :: s) := by
  intro cond hc
  rw [exec_one, step, Vm.executing, hc]
  rfl

theorem Runs.op (h : Ordinary code) (hr : runOp ctx code s = some s') :
    Runs ctx [.op code] s s' := by
  intro cond hc
  rw [exec_one, step_ordinary h, Vm.executing, hc, hr]
  rfl

theorem Aborts.op (h : Ordinary code) (hr : runOp ctx code s = none) :
    Aborts ctx [.op code] s := by
  intro cond hc
  rw [exec_one, step_ordinary h, Vm.executing, hc, hr]
  rfl

theorem Skips.nil : Skips ctx [] := fun _ _ _ => rfl

theorem Skips.push (data : Bytes) : Skips ctx [.push data] := by
  intro s cond hc
  rw [exec_one, step, Vm.executing, hc]
  rfl

theorem Skips.op (h : Ordinary code) : Skips ctx [.op code] := by
  intro s cond hc
  rw [exec_one, step_ordinary h, Vm.executing, hc]
  rfl

/-- `IF body ENDIF`. -/
def ifBlock (body : List Token) : List Token :=
  [.op 0x63] ++ (body ++ [.op 0x68])

/-- `IF a ELSE b ENDIF`. -/
def ifElseBlock (a b : List Token) : List Token :=
  [.op 0x63] ++ (a ++ ([.op 0x67] ++ (b ++ [.op 0x68])))

/-- Opening a branch pops its condition. -/
theorem exec_if {cond : List Bool} (hc : cond.all id = true) :
    exec ctx [.op 0x63] ⟨x :: s, cond⟩ = some ⟨s, truthy x :: cond⟩ := by
  rw [exec_one, step, if_pos rfl, Vm.executing, if_pos hc]

/-- A branch inside one that is off is off. -/
theorem exec_if_skipped {cond : List Bool} (hc : cond.all id = false) :
    exec ctx [.op 0x63] ⟨s, cond⟩ = some ⟨s, false :: cond⟩ := by
  rw [exec_one, step, if_pos rfl, Vm.executing, hc]
  rfl

theorem exec_else {c : Bool} {cond : List Bool} :
    exec ctx [.op 0x67] ⟨s, c :: cond⟩ = some ⟨s, (!c) :: cond⟩ := rfl

theorem exec_endif {c : Bool} {cond : List Bool} :
    exec ctx [.op 0x68] ⟨s, c :: cond⟩ = some ⟨s, cond⟩ := rfl

theorem all_cons_true {cond : List Bool} (hc : cond.all id = true) :
    (true :: cond).all id = true := by
  rw [List.all_cons, hc]
  rfl

theorem all_cons_false (cond : List Bool) :
    (false :: cond).all id = false := rfl

theorem Runs.ifThen (hx : truthy x = true) (h : Runs ctx body s s') :
    Runs ctx (ifBlock body) (x :: s) s' := by
  intro cond hc
  rw [ifBlock, exec_append, exec_if hc, hx, Option.bind_some, exec_append,
    h _ (all_cons_true hc), Option.bind_some, exec_endif]

theorem Runs.ifThen_not (hx : truthy x = false) (h : Skips ctx body) :
    Runs ctx (ifBlock body) (x :: s) s := by
  intro cond hc
  rw [ifBlock, exec_append, exec_if hc, hx, Option.bind_some, exec_append,
    h _ _ (all_cons_false cond), Option.bind_some, exec_endif]

theorem Runs.ifElse (hx : truthy x = true) (ha : Runs ctx a s s')
    (hb : Skips ctx b) :
    Runs ctx (ifElseBlock a b) (x :: s) s' := by
  intro cond hc
  rw [ifElseBlock, exec_append, exec_if hc, hx, Option.bind_some, exec_append,
    ha _ (all_cons_true hc), Option.bind_some, exec_append, exec_else,
      Option.bind_some, exec_append,
    Bool.not_true, hb _ _ (all_cons_false cond), Option.bind_some, exec_endif]

theorem Runs.ifElse_not (hx : truthy x = false) (ha : Skips ctx a)
    (hb : Runs ctx b s s') :
    Runs ctx (ifElseBlock a b) (x :: s) s' := by
  intro cond hc
  rw [ifElseBlock, exec_append, exec_if hc, hx, Option.bind_some, exec_append,
    ha _ _ (all_cons_false cond), Option.bind_some, exec_append, exec_else,
      Option.bind_some,
    exec_append, Bool.not_false, hb _ (all_cons_true hc),
      Option.bind_some, exec_endif]

/-- A branch is skipped as a whole. -/
theorem Skips.ifThen (h : Skips ctx body) : Skips ctx (ifBlock body) := by
  intro s cond hc
  rw [ifBlock, exec_append, exec_if_skipped hc, Option.bind_some, exec_append,
    h _ _ (all_cons_false cond), Option.bind_some, exec_endif]

theorem Skips.ifElse (ha : Skips ctx a) (hb : Skips ctx b) :
    Skips ctx (ifElseBlock a b) := by
  intro s cond hc
  have hc' : (true :: cond).all id = false := by
    rw [List.all_cons, hc]
    rfl
  rw [ifElseBlock, exec_append, exec_if_skipped hc,
    Option.bind_some, exec_append,
    ha _ _ (all_cons_false cond), Option.bind_some, exec_append, exec_else,
      Option.bind_some,
    exec_append, Bool.not_false, hb _ _ hc', Option.bind_some, exec_endif]

/-- The depth of conditionals after the code; `none` if it closes one it did not
open. -/
def nesting : List Token → Nat → Option Nat
  | [], depth => some depth
  | .push _ :: ts, depth => nesting ts depth
  | .op code :: ts, depth =>
    if code = 0x63 then nesting ts (depth + 1)
    else if code = 0x67 then if depth = 0 then none else nesting ts depth
    else if code = 0x68 then if depth = 0 then none else nesting ts (depth - 1)
    else nesting ts depth

/-- Skipped code only moves the conditionals it opens itself. -/
theorem exec_skipped {d d' : Nat} (h : nesting ts d = some d')
    {cond : List Bool}
    (hc : cond.all id = false) (s : List Bytes) :
      ∀ inner : List Bool, inner.length = d →
      ∃ inner' : List Bool, inner'.length = d' ∧
        exec ctx ts ⟨s, inner ++ cond⟩ = some ⟨s, inner' ++ cond⟩ := by
  induction ts generalizing d with
  | nil =>
    intro inner hlen
    exact ⟨inner, hlen.trans (Option.some.inj h), rfl⟩
  | cons t ts ih =>
    intro inner hlen
    have hskip : (⟨s, inner ++ cond⟩ : Vm).executing = false := by
      rw [Vm.executing, List.all_append, hc, Bool.and_false]
    have hcons : ∀ vm, exec ctx (t :: ts) vm =
        (step ctx vm t).bind (exec ctx ts) := fun _ => rfl
    rw [hcons]
    cases t with
    | push data =>
      rw [step, hskip]
      exact ih h inner hlen
    | op code =>
      rw [nesting] at h
      by_cases hif : code = 0x63
      · rw [if_pos hif] at h
        rw [step, if_pos hif, hskip]
        exact ih h (false :: inner) (by rw [List.length_cons, hlen])
      · rw [if_neg hif] at h
        by_cases helse : code = 0x67
        · rw [if_pos helse] at h
          split at h
          · cases h
          · obtain _ | ⟨b, inner⟩ := inner
            · exact absurd hlen.symm ‹_›
            · rw [step, if_neg hif, if_pos helse]
              exact ih h ((!b) :: inner) hlen
        · rw [if_neg helse] at h
          by_cases hendif : code = 0x68
          · rw [if_pos hendif] at h
            split at h
            · cases h
            · obtain _ | ⟨b, inner⟩ := inner
              · exact absurd hlen.symm ‹_›
              · rw [step, if_neg hif, if_neg helse, if_pos hendif]
                exact ih h inner (by rw [← hlen, List.length_cons,
                  Nat.add_sub_cancel])
          · rw [if_neg hendif] at h
            rw [step_ordinary ⟨hif, helse, hendif⟩, hskip]
            exact ih h inner hlen

/-- Code that closes what it opens is skipped as a whole. -/
theorem skips_of_nesting (h : nesting ts 0 = some 0) : Skips ctx ts := by
  intro s cond hc
  obtain ⟨inner, hlen, hexec⟩ := exec_skipped h hc s [] rfl
  rw [List.length_eq_zero_iff.mp hlen] at hexec
  exact hexec

/-! ### Opcodes on numbers -/

variable {m n r : Int}

/-- A number in range is pushed. -/
theorem pushNum_ok (h : NumRange n) :
    pushNum n s = some (scriptNum n :: s) := if_pos h

theorem Runs.const (h : Ordinary code) (hk : opKind code = .const n)
    (hn : NumRange n) :
    Runs ctx [.op code] s (scriptNum n :: s) := by
  apply Runs.op h
  unfold runOp
  rw [hk]
  exact pushNum_ok hn

theorem Runs.unary {f : Int → Int} (h : Ordinary code)
    (hk : opKind code = .unary f)
    (hx : readNum ctx.requireMinimal x = some m) (hr : f m = r)
    (hrange : NumRange r) :
    Runs ctx [.op code] (x :: s) (scriptNum r :: s) := by
  apply Runs.op h
  unfold runOp
  rw [hk]
  simp only [hx, Option.bind_eq_bind, Option.bind_some, hr]
  exact pushNum_ok hrange

theorem Runs.binary {f : Int → Int → Option Int} (h : Ordinary code)
    (hk : opKind code = .binary f)
    (hx : readNum ctx.requireMinimal x = some m)
    (hy : readNum ctx.requireMinimal y = some n)
    (hr : f m n = some r) (hrange : NumRange r) :
    Runs ctx [.op code] (y :: x :: s) (scriptNum r :: s) := by
  apply Runs.op h
  unfold runOp
  rw [hk]
  simp only [hx, hy, Option.bind_eq_bind, Option.bind_some, hr]
  exact pushNum_ok hrange

/-- An operand that is no number aborts the script. -/
theorem Aborts.binary_right {f : Int → Int → Option Int} (h : Ordinary code)
    (hk : opKind code = .binary f) (hy : readNum ctx.requireMinimal y = none) :
    Aborts ctx [.op code] (y :: x :: s) := by
  apply Aborts.op h
  unfold runOp
  rw [hk]
  simp only [hy, Option.bind_eq_bind, Option.bind_none, Option.bind_fun_none]

theorem Aborts.binary_left {f : Int → Int → Option Int} (h : Ordinary code)
    (hk : opKind code = .binary f) (hx : readNum ctx.requireMinimal x = none) :
    Aborts ctx [.op code] (y :: x :: s) := by
  apply Aborts.op h
  unfold runOp
  rw [hk]
  simp only [hx, Option.bind_eq_bind, Option.bind_none]

theorem Runs.drop : Runs ctx [.op 0x75] (x :: s) s := Runs.op (by decide) rfl

theorem Runs.dup : Runs ctx [.op 0x76] (x :: s) (x :: x :: s) :=
  Runs.op (by decide) rfl

theorem Runs.swap : Runs ctx [.op 0x7C] (y :: x :: s) (x :: y :: s) :=
  Runs.op (by decide) rfl

theorem Runs.rot {z : Bytes} : Runs ctx [.op 0x7B] (z :: y :: x :: s)
    (x :: z :: y :: s) :=
  Runs.op (by decide) rfl

/-- `<k> PICK`. -/
theorem Runs.copy {k : Nat} (h : Ordinary code) (hc : opKind code = .const k)
    (hk : NumRange k)
    (hx : s[k]? = some x) : Runs ctx [.op code, .op 0x79] s (x :: s) := by
  refine (Runs.const h hc hk).cons ?_
  apply Runs.op (by decide)
  have hkind : opKind 0x79 = .pick := rfl
  have hneg : ¬ (k : Int) < 0 := by omega
  unfold runOp
  rw [hkind]
  simp only [readNum_scriptNum _ hk, Option.bind_eq_bind,
    Option.bind_some, if_neg hneg,
    Int.toNat_natCast, hx, Option.map_some]

theorem Runs.locktime (h : NumRange ctx.locktime) :
    Runs ctx [.op 0xC5] s (scriptNum ctx.locktime :: s) := by
  apply Runs.op (by decide)
  have hkind : opKind 0xC5 = .txLocktime := rfl
  unfold runOp
  rw [hkind]
  exact pushNum_ok h

/-- A pushed truth value is truthy when true. -/
theorem truthy_boolNum {p : Prop} [Decidable p] :
    truthy (scriptNum (boolNum p)) = decide p := by
  unfold boolNum
  by_cases hp : p
  · rw [if_pos hp, decide_eq_true hp]
    rfl
  · rw [if_neg hp, decide_eq_false hp]
    rfl

theorem numRange_boolNum {p : Prop} [Decidable p] : NumRange (boolNum p) := by
  unfold boolNum
  split <;> decide

/-! ### Whole scripts -/

/-- A run of the tokens is a run of their bytes. -/
theorem runScript_of_runs (hts : ∀ t ∈ ts, t.Ok) (h : Runs ctx ts s s') :
    runScript ctx (assemble ts) s = some s' := by
  rw [runScript, tokenize_assemble hts (Nat.le_refl _)]
  simp only [Option.bind_eq_bind, Option.bind_some]
  rw [h [] rfl]
  rfl

theorem runScript_of_aborts (hts : ∀ t ∈ ts, t.Ok) (h : Aborts ctx ts s) :
    runScript ctx (assemble ts) s = none := by
  rw [runScript, tokenize_assemble hts (Nat.le_refl _)]
  simp only [Option.bind_eq_bind, Option.bind_some]
  rw [h [] rfl]
  rfl

end Rules

end Pyrxd.Lib
