import Mathlib.Algebra.Order.BigOperators.Group.List
import Pyrxd.Lib.Machine

/-!
# Opcodes that read the spending transaction

What a script reads of the transaction that spends it, the outputs spent
included, and the opcodes over it: signatures, outpoints, refs and code scripts.
The opcodes that `Pyrxd.Lib.TxScript` has are taken from there.

Two things are parameters: `hash160`, and `checkSig`, which says whether a
signature is a valid one by a public key for this input. The limits on sizes are
left out.
-/

namespace Pyrxd.Lib

/-! ## What a script is made of -/

/-- The refs behind the opcodes `codes`; a script that cannot be read has
none. -/
def refsBehind (codes : List UInt8) (script : Bytes) : List Bytes :=
  ((readCode script.length script).getD []).filterMap fun
    | .ref code r => if code ∈ codes then some r else none
    | _ => none

/-- The refs a script pushes, normal ones and singletons. -/
def pushedRefs (script : Bytes) : List Bytes := refsBehind [0xD0, 0xD8] script

def singletonRefs (script : Bytes) : List Bytes := refsBehind [0xD8] script

/-- What stands behind the first state separator. -/
def afterSeparator : Nat → Bytes → Option Bytes
  | 0, _ => none
  | fuel + 1, script => do
    let (t, rest) ← readChunk script
    if t = .op 0xBD then some rest else afterSeparator fuel rest

/-- The part of a script behind its state separator; all of it, if it has
none. -/
def codeScript (script : Bytes) : Bytes :=
  (afterSeparator script.length script).getD script

section Parts

variable {script rest : Bytes} {t : Chunk} {ts : List Chunk} {n : Nat}

/-- A chunk takes at least one byte. -/
theorem readChunk_length (h : readChunk script = some (t, rest)) :
    rest.length < script.length := by
  cases script with
  | nil => cases h
  | cons code tail =>
    rw [readChunk] at h
    split at h
    · split at h
      · cases h
      · cases h
        rw [List.length_drop, List.length_cons]
        omega
    · split at h
      · cases h
        exact Nat.lt_succ_self _
      · extract_lets width size at h
        by_cases hshort : tail.length < width + size
        · rw [if_pos hshort] at h
          cases h
        · rw [if_neg hshort, Option.some.injEq, Prod.mk.injEq] at h
          rw [← h.2, List.length_drop, List.length_drop, List.length_cons]
          omega

/-- Reading code chunk by chunk. -/
theorem readCode_cons : readCode (n + 1) script = some ts ↔
    script = [] ∧ ts = [] ∨ ∃ t rest us, readChunk script = some (t, rest) ∧
    readCode n rest = some us ∧
      ts = t :: us := by
  cases script with
  | nil =>
    constructor
    · intro h
      cases h
      exact .inl ⟨rfl, rfl⟩
    · rintro (⟨-, rfl⟩ | ⟨t, rest, us, h, -⟩)
      · rfl
      · cases h
  | cons code tail =>
    rw [readCode]
    constructor
    · intro h
      obtain ⟨⟨t, rest⟩, hchunk, h⟩ := Option.bind_eq_some_iff.mp h
      obtain ⟨us, hcode, h⟩ := Option.bind_eq_some_iff.mp h
      cases h
      exact .inr ⟨t, rest, us, hchunk, hcode, rfl⟩
    · rintro (⟨hnil, -⟩ | ⟨t, rest, us, hchunk, hcode, rfl⟩)
      · cases hnil
      · exact Option.bind_eq_some_iff.mpr ⟨_, hchunk,
          Option.bind_eq_some_iff.mpr ⟨_, hcode, rfl⟩⟩

/-- Fuel of the script's length is enough. -/
theorem readCode_length (h : readCode n script = some ts) :
    ∀ {m : Nat}, script.length ≤ m →
    readCode m script = some ts := by
  induction n generalizing script ts with
  | zero =>
    cases script with
    | nil =>
      intro m _
      cases h
      cases m <;> rfl
    | cons code tail => cases h
  | succ n ih =>
    intro m hm
    rcases readCode_cons.mp h with ⟨rfl, rfl⟩ | ⟨t, rest, us,
      hchunk, hcode, rfl⟩
    · cases m <;> rfl
    · have hlt := readChunk_length hchunk
      obtain ⟨k, rfl⟩ : ∃ k, m = k + 1 := ⟨m - 1, by omega⟩
      exact readCode_cons.mpr (.inr ⟨t, rest, us, hchunk,
        ih hcode (by omega), rfl⟩)

/-- The refs of assembled code. -/
theorem refsBehind_assemble (codes : List UInt8) (hts : ∀ t ∈ ts, t.Ok) :
    refsBehind codes (assembleCode ts) = ts.filterMap fun
      | .ref code r => if code ∈ codes then some r else none
      | _ => none := by
  rw [refsBehind, readCode_assemble hts (Nat.le_refl _), Option.getD_some]

/-- The code script's chunks are the last ones of the script. -/
theorem readCode_afterSeparator (h : afterSeparator n script = some rest)
    {m : Nat}
    (hrest : readCode m rest = some ts) :
    ∃ k pre, readCode k script = some (pre ++ ts) := by
  induction n generalizing script with
  | zero => cases h
  | succ n ih =>
    rw [afterSeparator] at h
    obtain ⟨⟨t, tail⟩, hchunk, h⟩ := Option.bind_eq_some_iff.mp h
    dsimp only at h
    split at h
    · cases h
      exact ⟨m + 1, [t],
        readCode_cons.mpr (.inr ⟨t, _, ts, hchunk, hrest, rfl⟩)⟩
    · obtain ⟨k, pre, hcode⟩ := ih h
      exact ⟨k + 1, t :: pre,
        readCode_cons.mpr (.inr ⟨t, tail, pre ++ ts, hchunk, hcode, rfl⟩)⟩

/-- A script carries the refs of its code script. -/
theorem refsBehind_codeScript {codes : List UInt8} {r : Bytes}
    (hr : r ∈ refsBehind codes (codeScript script)) :
    r ∈ refsBehind codes script := by
  unfold codeScript at hr
  cases hsep : afterSeparator script.length script with
  | none =>
    rw [hsep, Option.getD_none] at hr
    exact hr
  | some rest =>
    rw [hsep, Option.getD_some, refsBehind] at hr
    cases hread : readCode rest.length rest with
    | none =>
      rw [hread] at hr
      cases hr
    | some ts =>
      obtain ⟨k, pre, hcode⟩ := readCode_afterSeparator hsep hread
      rw [hread, Option.getD_some] at hr
      rw [refsBehind, readCode_length hcode (Nat.le_refl _), Option.getD_some,
        List.filterMap_append]
      exact List.mem_append_right _ hr

end Parts

/-! ## The transaction -/

/-- No two outputs carry the same singleton. -/
def SingletonsOnce (outs : List TxOut) : Prop := ∀ (i j : Nat) (o p : TxOut)
  (ref : Bytes),
  outs[i]? = some o → outs[j]? = some p → ref ∈ singletonRefs o.script →
    ref ∈ singletonRefs p.script → i = j

/-- An output that is spent, where it is and how it is unlocked. -/
structure SpentOut where
  txid : Bytes
  vout : Nat
  out : TxOut
  sequence : Nat
  sized : txid.length = 32 ∧ vout < 2 ^ 32

structure SpendCtx where
  locktime : Int
  requireMinimal : Bool
  version : Nat
  inputs : List SpentOut
  outputs : List TxOut
  /-- The input whose script runs. -/
  index : Nat
  here : index < inputs.length
  counted : inputs.length < 2 ^ 32 ∧ outputs.length < 2 ^ 32
  hash160 : Bytes → Bytes
  checkSig : Bytes → Bytes → Bool

namespace SpendCtx

variable (ctx : SpendCtx)

/-- The output whose script runs. -/
def spent : SpentOut := ctx.inputs.get ⟨ctx.index, ctx.here⟩

def txCtx : TxCtx where
  locktime := ctx.locktime
  requireMinimal := ctx.requireMinimal
  version := ctx.version
  sequence := ctx.spent.sequence
  outputs := ctx.outputs
  pushRefs := pushedRefs

/-- The input an index names. -/
def input (index : Bytes) : Option SpentOut := do
  let k ← readNum ctx.requireMinimal index
  if k < 0 then none else ctx.inputs[k.toNat]?

/-- The outputs among `outs` whose code script has this hash. -/
def withCode (outs : List TxOut) (hash : Bytes) : List TxOut :=
  outs.filter fun o => hash256 (codeScript o.script) = hash

/-- 2 for a ref that an output carries as a singleton, 1 for one that is carried
otherwise. -/
def refType (ref : Bytes) : Int :=
  if ctx.outputs.any fun o => ref ∈ singletonRefs o.script then 2
  else if ctx.outputs.any fun o => ref ∈ pushedRefs o.script then 1
  else 0

end SpendCtx

/-! ## Opcodes -/

/-- `NUM2BIN`: a number in `size` bytes, the sign in the last of them. -/
def num2bin (size : Nat) (x : Bytes) : Option Bytes :=
  let num := scriptNum (decodeNum x)
  if size < num.length then none
  else match num.getLast? with
    | none => some (List.replicate size 0)
    | some last =>
      if size = num.length then some num
      else some (num.dropLast ++ [last &&& 0x7F] ++
        List.replicate (size - num.length - 1) 0 ++ [last &&& 0x80])

/-- A signature that is not valid must be empty. -/
def checkSigResult (ctx : SpendCtx) (signature key : Bytes) : Option Bytes :=
  if ctx.checkSig signature key then some [1]
    else if signature = [] then some [] else none

/-- The opcodes that count or add up by a hash of a code script:
`CODESCRIPTHASHVALUESUM_UTXOS` and `_OUTPUTS`, `CODESCRIPTHASHOUTPUTCOUNT_UTXOS`
and `_OUTPUTS`. -/
def codeHashCount (ctx : SpendCtx) (code : UInt8) (hash : Bytes) : Int :=
  let utxos := SpendCtx.withCode (ctx.inputs.map SpentOut.out) hash
  let outputs := SpendCtx.withCode ctx.outputs hash
  match code with
  | 0xE3 => (utxos.map TxOut.value).sum
  | 0xE4 => (outputs.map TxOut.value).sum
  | 0xE5 => utxos.length
  | _ => outputs.length

/-- The opcodes that leave a number they did not compute: `INPUTINDEX`,
`OUTPOINTINDEX`, `REFTYPE_OUTPUT` and the four of `codeHashCount`. -/
def readingOps : List UInt8 := [0xC0, 0xC9, 0xDA, 0xE3, 0xE4, 0xE5, 0xE6]

/-- That number, and the stack below it. -/
def reading (ctx : SpendCtx) (code : UInt8) (s : List Bytes) :
    Option (Int × List Bytes) :=
  if code = 0xC0 then some (ctx.index, s)
  else match s with
    | [] => none
    | x :: s =>
      if code = 0xC9 then (ctx.input x).map fun o => ((o.vout : Int), s)
      else if code = 0xDA then if x.length =
        36 then some (ctx.refType x, s) else none
      else if x.length = 32 then some (codeHashCount ctx code x, s) else none

/-- The opcodes that put something else in the place of the top. -/
def topOps : List UInt8 := [0x81, 0xA9, 0xBC, 0xC7, 0xC8, 0xE9, 0xEA]

def onTop (ctx : SpendCtx) (code : UInt8) (x : Bytes) : Option Bytes :=
  match code with
  -- BIN2NUM, HASH160, REVERSEBYTES
  | 0x81 =>
    if (scriptNum (decodeNum x)).length ≤ 8 then some (scriptNum (decodeNum x))
      else none
  | 0xA9 => some (ctx.hash160 x)
  | 0xBC => some x.reverse
  -- UTXOBYTECODE, OUTPOINTTXHASH, CODESCRIPTBYTECODE_UTXO,
  -- CODESCRIPTBYTECODE_OUTPUT
  | 0xC7 => (ctx.input x).map fun o => o.out.script
  | 0xC8 => (ctx.input x).map fun o => o.txid
  | 0xE9 => (ctx.input x).map fun o => codeScript o.out.script
  | _ => (ctx.txCtx.output x).map fun o => codeScript o.script

/-- The opcodes that `runTxOp` does not have. -/
def spendOp (ctx : SpendCtx) : OpSem := fun code s =>
  if code ∈ readingOps then do
    let (n, s) ← reading ctx code s
    pushNum n s
  else if code ∈ topOps then
    match s with
    | x :: s => (onTop ctx code x).map (· :: s)
    | [] => none
  else match code, s with
    -- 2DROP, OVER, ROLL
    | 0x6D, _ :: _ :: s => some s
    | 0x78, y :: x :: s => some (x :: y :: x :: s)
    | 0x7A, n :: s => do
      let k ← readNum ctx.requireMinimal n
      if k < 0 then none else (s[k.toNat]?).map (· :: s.eraseIdx k.toNat)
    -- CAT, SPLIT, NUM2BIN
    | 0x7E, y :: x :: s => some ((x ++ y) :: s)
    | 0x7F, n :: x :: s => do
      let k ← readNum ctx.requireMinimal n
      if 0 ≤ k ∧ k ≤ x.length then some (x.drop k.toNat :: x.take k.toNat :: s)
        else none
    | 0x80, n :: x :: s => do
      let size ← readNum ctx.requireMinimal n
      if size < 0 then none else (num2bin size.toNat x).map (· :: s)
    -- CHECKSIG, CHECKSIGVERIFY, STATESEPARATOR
    | 0xAC, key :: signature :: s =>
      (checkSigResult ctx signature key).map (· :: s)
    | 0xAD, key :: signature :: s =>
      if ctx.checkSig signature key then some s else none
    | 0xBD, s => some s
    | code, s => runTxOp ctx.txCtx code s

/-! ## Numbers of a fixed width -/

/-- A natural number is written with its own bytes, the sign bit clear. -/
theorem scriptNum_natCast (n : Nat) : leNat (scriptNum n) = n ∧
    ∀ last ∈ (scriptNum (n : Int)).getLast?, last.toNat < 128 := by
  have hpos : ¬ (n : Int) < 0 := by omega
  rcases scriptNum_cases n with ⟨h0, h⟩ | ⟨last, -, -, h⟩ | ⟨last,
    hl, hsmall, -, h⟩
  · rw [h]
    exact ⟨by show 0 = n; omega, nofun⟩
  · rw [h, if_neg hpos]
    refine ⟨?_, fun x hx => ?_⟩
    · rw [leNat_append, leNat_magBytes]
      show n + _ * 0 = n
      omega
    · rw [List.getLast?_concat, Option.mem_some_iff] at hx
      rw [← hx]
      decide
  · rw [h, if_neg hpos]
    refine ⟨leNat_magBytes n, fun x hx => ?_⟩
    rw [Int.natAbs_natCast] at hl hx
    rw [hl, Option.mem_some_iff] at hx
    rwa [← hx]

/-- The sign bit of a short byte. -/
theorem sign_bits {x : UInt8} (h : x.toNat < 128) :
    x &&& 0x7F = x ∧ x &&& 0x80 = 0 := by
  constructor
  · apply UInt8.toNat_inj.mp
    rw [UInt8.toNat_and]
    show x.toNat &&& (2 ^ 7 - 1) = x.toNat
    rw [Nat.and_two_pow_sub_one_eq_mod]
    exact Nat.mod_eq_of_lt h
  · apply UInt8.toNat_inj.mp
    rw [UInt8.toNat_and]
    show x.toNat &&& 2 ^ 7 = 0
    apply Nat.eq_of_testBit_eq
    intro i
    rw [Nat.testBit_and, Nat.testBit_two_pow, Nat.zero_testBit]
    by_cases hi : 7 = i
    · rw [← hi, Nat.testBit_lt_two_pow h, Bool.false_and]
    · rw [decide_eq_false hi, Bool.and_false]

/-- A natural number that fits is filled up with zeros. -/
theorem num2bin_natCast {size n : Nat}
    (h : (scriptNum (n : Int)).length ≤ size) :
    num2bin size (scriptNum n) = some (leBytes size n) := by
  obtain ⟨hval, hlast⟩ := scriptNum_natCast n
  have hlt : n < 256 ^ size := by
    rw [← hval]
    exact Nat.lt_of_lt_of_le (leNat_lt _) (Nat.pow_le_pow_right (by decide) h)
  have hbytes : ∀ b : Bytes, b.length = size → leNat b = n →
      b = leBytes size n := fun b hlen hb =>
    leNat_inj (by rw [hlen, length_leBytes]) (by rw [hb, leNat_leBytes hlt])
  rw [num2bin, decodeNum_scriptNum, if_neg (Nat.not_lt.mpr h)]
  -- a natural number has no sign bit, so it is padded with zeros
  rcases List.eq_nil_or_concat (scriptNum (n : Int)) with hnil | ⟨front, last,
    hsplit⟩
  · rw [hnil] at hval ⊢
    exact congrArg some (hbytes _ (List.length_replicate ..)
      ((leNat_zeros size).trans hval))
  · rw [List.concat_eq_append] at hsplit
    rw [hsplit] at h hval hlast ⊢
    obtain ⟨hmag, hsign⟩ := sign_bits (hlast last (List.getLast?_concat))
    rw [List.getLast?_concat]
    dsimp only
    split
    · next hsize => exact congrArg some (hbytes _ hsize.symm hval)
    · next hsize =>
      rw [List.dropLast_concat, hmag, hsign]
      refine congrArg some (hbytes _ ?_ ?_)
      · rw [List.length_append, List.length_append, List.length_replicate,
          List.length_singleton]
        omega
      · rw [leNat_append, leNat_append, leNat_zeros, hval, leNat_singleton]
        show n + _ * 0 + _ * 0 = n
        omega

/-- A number does not fit fewer bytes than it has. -/
theorem num2bin_none {size : Nat} {n : Int} (h : size < (scriptNum n).length) :
    num2bin size (scriptNum n) = none := by
  rw [num2bin, decodeNum_scriptNum]
  exact if_pos h

/-! ## What the opcodes do -/

section Ops

variable {ctx : SpendCtx} {s : List Bytes} {x y : Bytes} {code : UInt8}

/-- Opcodes that read the transaction push what they read. -/
theorem spendOp_reading {n : Int} {s' : List Bytes} (h : code ∈ readingOps)
    (hread : reading ctx code s = some (n, s')) :
    spendOp ctx code s = pushNum n s' := by
  have hbranch : spendOp ctx code s = (reading ctx code s).bind fun r =>
      pushNum r.1 r.2 := if_pos h
  rw [hbranch, hread, Option.bind_some]

/-- Opcodes on the top of the stack. -/
theorem spendOp_top (h : code ∈ topOps) (hno : code ∉ readingOps) :
    spendOp ctx code (x :: s) = (onTop ctx code x).map (· :: s) :=
  (if_neg hno).trans (if_pos h)

theorem spendOp_zero : spendOp ctx 0x00 s = some ([] :: s) := rfl

theorem spendOp_one : spendOp ctx 0x51 s = some (scriptNum 1 :: s) := rfl

theorem spendOp_four : spendOp ctx 0x54 s = some (scriptNum 4 :: s) := rfl

theorem spendOp_num2bin : spendOp ctx 0x80 (y :: x :: s) =
    (readNum ctx.requireMinimal y).bind fun size =>
    if size < 0 then none else (num2bin size.toNat x).map (· :: s) := rfl

theorem spendOp_drop : spendOp ctx 0x75 (x :: s) = some s := rfl

theorem spendOp_dup : spendOp ctx 0x76 (x :: s) = some (x :: x :: s) := rfl

theorem spendOp_over : spendOp ctx 0x78 (y :: x :: s) = some
    (x :: y :: x :: s) := rfl

theorem spendOp_swap : spendOp ctx 0x7C (y :: x :: s) = some
    (x :: y :: s) := rfl

theorem spendOp_verify : spendOp ctx 0x69 (x :: s) = if truthy x then some s
    else none := rfl

theorem spendOp_equal : spendOp ctx 0x87 (y :: x :: s) = some
    (boolBytes (x = y) :: s) := rfl

theorem spendOp_equalVerify : spendOp ctx 0x88 (y :: x :: s) = if x =
    y then some s else none := rfl

theorem spendOp_hash160 : spendOp ctx 0xA9 (x :: s) = some
    (ctx.hash160 x :: s) := rfl

theorem spendOp_hash256 : spendOp ctx 0xAA (x :: s) = some
    (hash256 x :: s) := rfl

theorem spendOp_checkSig : spendOp ctx 0xAC (y :: x :: s) =
    (checkSigResult ctx x y).map (· :: s) := rfl

theorem spendOp_separator : spendOp ctx 0xBD s = some s := rfl

theorem spendOp_inputIndex : spendOp ctx 0xC0 s = pushNum ctx.index s :=
  spendOp_reading (by decide) rfl

theorem spendOp_utxoBytecode :
    spendOp ctx 0xC7 (x :: s) =
      ((ctx.input x).map fun o => o.out.script).map (· :: s) :=
  spendOp_top (by decide) (by decide)

end Ops

/-! ## Indices and counts -/

namespace SpendCtx

variable {ctx : SpendCtx}

/-- A 32-bit number is a script number. -/
theorem numRange_of_lt {n : Nat} (h : n < 2 ^ 32) : NumRange (n : Int) :=
  ⟨by omega, by omega⟩

theorem index_numRange : NumRange (ctx.index : Int) :=
  numRange_of_lt (Nat.lt_trans ctx.here ctx.counted.1)

/-- The script's own input, named by its index. -/
theorem input_index : ctx.input (scriptNum ctx.index) = some ctx.spent := by
  rw [input, readNum_scriptNum _ index_numRange]
  show (if (ctx.index : Int) < 0 then none
    else ctx.inputs[(ctx.index : Int).toNat]?) = _
  rw [if_neg (by omega), Int.toNat_natCast, List.getElem?_eq_getElem ctx.here]
  rfl

/-- The first output, named by the empty string. -/
theorem output_zero : ctx.txCtx.output [] = ctx.outputs.head? := by
  have hread : readNum ctx.txCtx.requireMinimal [] = some 0 := by
    generalize ctx.txCtx.requireMinimal = minimal
    cases minimal <;> rfl
  rw [TxCtx.output, hread]
  show (if (0 : Int) < 0 then none else ctx.outputs[(0 : Int).toNat]?) = _
  rw [if_neg (by decide), List.head?_eq_getElem?]
  rfl

end SpendCtx

section Numbers

variable {ctx : SpendCtx} {s : List Bytes} {a b : Int} {ref hash : Bytes}

/-- `NUMEQUAL` of two numbers in range. -/
theorem spendOp_numEqual (ha : NumRange a) (hb : NumRange b) :
    spendOp ctx 0x9C (scriptNum b :: scriptNum a :: s) = some
      (scriptNum (boolNum (a = b)) :: s) := by
  show runTxOp ctx.txCtx 0x9C (scriptNum b :: scriptNum a :: s) = _
  rw [runTxOp_numEqual, readNum_scriptNum _ ha, readNum_scriptNum _ hb]
  exact pushNum_boolNum

/-- Comparing two numbers and going on. -/
theorem spendOp_numEqualVerify (ha : NumRange a) (hb : NumRange b) :
    spendOp ctx 0x9D (scriptNum b :: scriptNum a :: s) = require (a = b) s := by
  show runTxOp ctx.txCtx 0x9D (scriptNum b :: scriptNum a :: s) = _
  rw [runTxOp_numEqualVerify, readNum_scriptNum _ ha, readNum_scriptNum _ hb]
  rfl

/-- A count of outputs is a script number. -/
theorem numRange_refOutputCount : NumRange (ctx.txCtx.refOutputCount ref) :=
  SpendCtx.numRange_of_lt (Nat.lt_of_le_of_lt
    (List.length_filter_le _ _) ctx.counted.2)

theorem spendOp_refOutputCount (href : ref.length = 36) :
    spendOp ctx 0xDE (ref :: s) = some
      (scriptNum (ctx.txCtx.refOutputCount ref) :: s) := by
  have hcount : txCount ctx.txCtx 0xDE (ref :: s) =
      some (ctx.txCtx.refOutputCount ref, s) := if_pos href
  show runTxOp ctx.txCtx 0xDE (ref :: s) = _
  rw [runTxOp_count (by decide) hcount]
  exact pushNum_ok numRange_refOutputCount

theorem numRange_withCode :
    NumRange ((SpendCtx.withCode ctx.outputs hash).length : Int) :=
  SpendCtx.numRange_of_lt (Nat.lt_of_le_of_lt
    (List.length_filter_le _ _) ctx.counted.2)

/-- `CODESCRIPTHASHOUTPUTCOUNT_OUTPUTS`. -/
theorem spendOp_codeHashOutputs (hhash : hash.length = 32) :
    spendOp ctx 0xE6 (hash :: s) =
    some (scriptNum (SpendCtx.withCode ctx.outputs hash).length :: s) := by
  have hread : reading ctx 0xE6 (hash :: s) =
      some (((SpendCtx.withCode ctx.outputs hash).length : Int), s) :=
    if_pos hhash
  rw [spendOp_reading (by decide) hread]
  exact pushNum_ok numRange_withCode

/-- What the outputs with a code script's hash are worth is in range if all
outputs together are. -/
theorem numRange_withCodeSum {outs : List TxOut}
    (h : (outs.map TxOut.value).sum < 2 ^ 63) :
    NumRange ((SpendCtx.withCode outs hash).map TxOut.value).sum := by
  have hnonneg : ∀ v ∈ outs.map TxOut.value, 0 ≤ v := by
    intro v hv
    obtain ⟨o, -, rfl⟩ := List.mem_map.mp hv
    exact o.inRange.1
  have hsub : ((SpendCtx.withCode outs hash).map TxOut.value).Sublist
      (outs.map TxOut.value) :=
    List.filter_sublist.map TxOut.value
  have hle := hsub.sum_le_sum hnonneg
  have hpos : 0 ≤ ((SpendCtx.withCode outs hash).map TxOut.value).sum :=
    List.sum_nonneg fun v hv => hnonneg v (hsub.subset hv)
  exact ⟨by omega, by omega⟩

/-- `CODESCRIPTHASHVALUESUM_UTXOS`, `CODESCRIPTHASHVALUESUM_OUTPUTS`. -/
theorem spendOp_codeHashValue {code : UInt8}
    (hcode : code ∈ ([0xE3, 0xE4] : List UInt8)) (hhash : hash.length = 32)
    (hrange : NumRange (codeHashCount ctx code hash)) :
    spendOp ctx code (hash :: s) = some
      (scriptNum (codeHashCount ctx code hash) :: s) := by
  have hread : reading ctx code (hash :: s) =
      some (codeHashCount ctx code hash, s) := by
    rw [List.mem_cons, List.mem_singleton] at hcode
    rcases hcode with rfl | rfl <;> exact if_pos hhash
  have hreads : code ∈ readingOps := by
    rw [List.mem_cons, List.mem_singleton] at hcode
    rcases hcode with rfl | rfl <;> decide
  rw [spendOp_reading hreads hread]
  exact pushNum_ok hrange

theorem spendOp_greaterOrEqual (ha : NumRange a) (hb : NumRange b) :
    spendOp ctx 0xA2 (scriptNum b :: scriptNum a :: s) = some
      (scriptNum (boolNum (a ≥ b)) :: s) := by
  show runTxOp ctx.txCtx 0xA2 (scriptNum b :: scriptNum a :: s) = _
  rw [runTxOp_greaterOrEqual, readNum_scriptNum _ ha, readNum_scriptNum _ hb]
  exact pushNum_boolNum

/-- `INPUTINDEX UTXOBYTECODE`. -/
theorem spendOp_ownIndex :
    spendOp ctx 0xC0 s = some (scriptNum ctx.index :: s) := by
  rw [spendOp_inputIndex]
  exact pushNum_ok SpendCtx.index_numRange

/-- An input reads the script it spends. -/
theorem spendOp_ownScript :
    spendOp ctx 0xC7 (scriptNum ctx.index :: s) = some
      (ctx.spent.out.script :: s) := by
  rw [spendOp_utxoBytecode, SpendCtx.input_index]
  rfl

theorem spendOp_ownCode :
    spendOp ctx 0xE9 (scriptNum ctx.index :: s) = some
      (codeScript ctx.spent.out.script :: s) := by
  rw [spendOp_top (by decide) (by decide)]
  show ((ctx.input (scriptNum ctx.index)).map fun o =>
    codeScript o.out.script).map (· :: s) = _
  rw [SpendCtx.input_index]
  rfl

/-- `INPUTINDEX OUTPOINTTXHASH`, `INPUTINDEX OUTPOINTINDEX`. -/
theorem spendOp_ownTxid : spendOp ctx 0xC8 (scriptNum ctx.index :: s) = some
    (ctx.spent.txid :: s) := by
  rw [spendOp_top (by decide) (by decide)]
  show ((ctx.input (scriptNum ctx.index)).map fun o => o.txid).map (· :: s) = _
  rw [SpendCtx.input_index]
  rfl

theorem spendOp_ownVout :
    spendOp ctx 0xC9 (scriptNum ctx.index :: s) = some
      (scriptNum ctx.spent.vout :: s) := by
  have hread : reading ctx 0xC9 (scriptNum ctx.index :: s) =
      some ((ctx.spent.vout : Int), s) := by
    show (ctx.input (scriptNum ctx.index)).map (fun o => ((o.vout : Int), s)) =
      _
    rw [SpendCtx.input_index]
    rfl
  rw [spendOp_reading (by decide) hread]
  exact pushNum_ok (SpendCtx.numRange_of_lt ctx.spent.sized.2)

/-- A reference type is a script number. -/
theorem numRange_refType : NumRange (ctx.refType ref) := by
  unfold SpendCtx.refType
  split
  · decide
  · split <;> decide

theorem spendOp_refType (href : ref.length = 36) :
    spendOp ctx 0xDA (ref :: s) = some (scriptNum (ctx.refType ref) :: s) := by
  have hread : reading ctx 0xDA (ref :: s) = some (ctx.refType ref,
      s) := if_pos href
  rw [spendOp_reading (by decide) hread]
  exact pushNum_ok numRange_refType

/-- `0 OUTPUTBYTECODE`. -/
theorem spendOp_firstOutput :
    spendOp ctx 0xCD ([] :: s) = ctx.outputs.head?.map fun o =>
      o.script :: s := by
  show runTxOp ctx.txCtx 0xCD ([] :: s) = _
  rw [runTxOp_outputBytecode, SpendCtx.output_zero]
  cases ctx.outputs.head? <;> rfl

/-- `0 CODESCRIPTBYTECODE_OUTPUT`. -/
theorem spendOp_firstCode :
    spendOp ctx 0xEA ([] :: s) = ctx.outputs.head?.map fun o =>
      codeScript o.script :: s := by
  rw [spendOp_top (by decide) (by decide)]
  show ((ctx.txCtx.output []).map fun o => codeScript o.script).map (· :: s) = _
  rw [SpendCtx.output_zero, Option.map_map]
  rfl

end Numbers

/-! ## Pay to a public key's hash -/

/-- `DUP HASH160 <pkh> EQUALVERIFY CHECKSIG`. -/
def p2pkhCode (pkh : Bytes) : List Chunk :=
  [.op 0x76, .op 0xA9, .data pkh, .op 0x88, .op 0xAC]

/-- What it does. -/
def p2pkh (ctx : SpendCtx) (pkh : Bytes) : List Bytes → Option (List Bytes)
  | key :: signature :: s =>
    if ctx.hash160 key = pkh then (checkSigResult ctx signature key).map
      (· :: s) else none
  | _ => none

/-- The public key on top has this hash, and a valid signature by it stands
below. -/
def SignedBy (ctx : SpendCtx) (pkh : Bytes) (stack : List Bytes) : Prop :=
  ∃ key signature s, stack = key :: signature :: s ∧ ctx.hash160 key = pkh ∧
    ctx.checkSig signature key = true

section P2pkh

variable {ctx : SpendCtx} {pkh : Bytes} {s : List Bytes}

/-- The owner's check, run along its line. -/
theorem line_p2pkh (s : List Bytes) : Machine.line (spendOp ctx)
    (p2pkhCode pkh) s = p2pkh ctx pkh s := by
  match s with
  | [] => rfl
  | [key] =>
    rw [p2pkhCode, Machine.line_op, spendOp_dup, Option.bind_some,
      Machine.line_op, spendOp_hash160, Option.bind_some, Machine.line_data,
      Machine.line_op, spendOp_equalVerify]
    split <;> rfl
  | key :: signature :: s =>
    rw [p2pkhCode, Machine.line_op, spendOp_dup, Option.bind_some,
      Machine.line_op, spendOp_hash160, Option.bind_some, Machine.line_data,
      Machine.line_op, spendOp_equalVerify, p2pkh]
    split
    · rw [Option.bind_some, Machine.line_op, spendOp_checkSig]
      cases checkSigResult ctx signature key <;> rfl
    · rfl

/-- A signature check passes on a good signature only. -/
theorem checkSigResult_truthy {signature key : Bytes} :
    (∃ top, checkSigResult ctx signature key = some top ∧ truthy top = true) ↔
      ctx.checkSig signature key = true := by
  unfold checkSigResult
  by_cases h : ctx.checkSig signature key = true
  · rw [if_pos h]
    exact ⟨fun _ => h, fun _ => ⟨[1], rfl, rfl⟩⟩
  · rw [if_neg h]
    refine ⟨?_, fun hc => absurd hc h⟩
    intro ⟨top, htop, htrue⟩
    split at htop
    · cases htop
      cases htrue
    · cases htop

/-- **A P2PKH tail leaves `true` on top just for a valid signature by the
owner.** -/
theorem p2pkh_true : (∃ top rest, p2pkh ctx pkh s = some (top :: rest) ∧
    truthy top = true) ↔
    SignedBy ctx pkh s := by
  constructor
  · intro ⟨top, rest, hrun, htop⟩
    match s, hrun with
    | key :: signature :: s, hrun =>
      rw [p2pkh] at hrun
      by_cases hkey : ctx.hash160 key = pkh
      · rw [if_pos hkey] at hrun
        obtain ⟨result, hresult, hcons⟩ := Option.map_eq_some_iff.mp hrun
        cases hcons
        exact ⟨key, signature, _, rfl, hkey,
          checkSigResult_truthy.mp ⟨_, hresult, htop⟩⟩
      · rw [if_neg hkey] at hrun
        cases hrun
  · intro ⟨key, signature, s, hs, hkey, hsig⟩
    obtain ⟨top, hresult, htop⟩ := checkSigResult_truthy.mpr hsig
    refine ⟨top, s, ?_, htop⟩
    rw [hs, p2pkh, if_pos hkey, hresult]
    rfl

end P2pkh

end Pyrxd.Lib
