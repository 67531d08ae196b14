import Mathlib.Tactic.IntervalCases
import Pyrxd.Gravity.HtlcBinds
import Pyrxd.Lib.TxScript

/-!
# What the covenant lets through

The compiled body of a covenant, run on any stack in any transaction. Each piece
of the code is a row of opcodes and its lemma the partial function it computes;
put together they give exactly the spends that succeed (`covenant_accepts_iff`).
-/

namespace Pyrxd.Gravity

open Pyrxd.Lib Pyrxd.Glyph Pyrxd.Tx Htlc

/-! ## Numbers -/

section Numbers

variable {ctx : TxCtx} {s : List Bytes} {ts : List Chunk} {n : Int}

theorem straight_numChunk (h : 1 ≤ n) : Straight (numChunk n) := by
  unfold numChunk
  split
  · have hsmall : ∀ k : Nat, k ≤ 16 → 1 ≤ k →
        Ordinary (UInt8.ofNat (0x50 + k)) := by decide
    exact hsmall n.toNat (by omega) (by omega)
  · trivial

/-- The push of a number leaves its script number. -/
theorem runChunk_numChunk (h : 1 ≤ n) :
    runChunk ctx (numChunk n) s = some (scriptNum n :: s) := by
  unfold numChunk
  split
  · next h16 =>
    obtain ⟨k, rfl⟩ : ∃ k : Nat, n = k := ⟨n.toNat, by omega⟩
    have hk1 : 1 ≤ k := by omega
    have hk16 : k ≤ 16 := by omega
    interval_cases k <;> rfl
  · rfl

theorem line_numChunk (h : 1 ≤ n) :
    line ctx (numChunk n :: ts) s = line ctx ts (scriptNum n :: s) := by
  rw [line, runChunk_numChunk h, Option.bind_some]

/-- `NUMEQUALVERIFY` of a number in range with one that is pushed. -/
theorem line_numEqualVerify {m : Int} (hm : NumRange m) :
    line ctx (.op 0x9D :: ts) (scriptNum n :: scriptNum m :: s) =
      (require (m = n) s).bind (line ctx ts) := by
  have hstep : runChunk ctx (.op 0x9D) (scriptNum n :: scriptNum m :: s) =
      require (m = n) s := by
    show (readNum ctx.requireMinimal (scriptNum m)).bind (fun a =>
      (readNum ctx.requireMinimal (scriptNum n)).bind fun b => if a = b then some s else none) = _
    rw [readNum_scriptNum _ hm, Option.bind_some]
    by_cases hn : NumRange n
    · rw [readNum_scriptNum _ hn]
      rfl
    · rw [readNum_scriptNum_none _ hn, require, if_neg]
      · rfl
      · intro h
        exact hn (h ▸ hm)
  rw [line, hstep]

/-- A counter that is out of range is not the number it is compared with
either. -/
theorem pushNum_numEqualVerify {m : Int} (hn : 1 ≤ n) (hsmall : n < 2 ^ 63) :
    (pushNum m s).bind (line ctx (numChunk n :: .op 0x9D :: ts)) =
      (require (m = n) s).bind (line ctx ts) := by
  unfold pushNum
  by_cases hm : NumRange m
  · rw [if_pos hm, Option.bind_some, line_numChunk hn, line_numEqualVerify hm]
  · rw [if_neg hm, require, if_neg]
    · rfl
    · intro h
      exact hm ⟨by omega, by omega⟩

end Numbers

/-! ## Statements -/

/-- What the covenant asks of the value of the only output. -/
def PaysAmount (variant : AssetVariant) (ref : Bytes) (amount : Int)
    (ctx : TxCtx) (o : TxOut) : Prop :=
  match variant with
  | .rxd => amount ≤ o.value
  | .nft => ctx.refOutputCount ref = 1 ∧ o.value = amount
  | .ft => ctx.refOutputCount ref = 1 ∧ ctx.refValueSum ref = amount

instance (variant : AssetVariant) (ref : Bytes) (amount : Int)
    (ctx : TxCtx) (o : TxOut) :
    Decidable (PaysAmount variant ref amount ctx o) :=
  match variant with
  | .rxd => inferInstanceAs (Decidable (amount ≤ o.value))
  | .nft =>
    inferInstanceAs (Decidable (ctx.refOutputCount ref = 1 ∧ o.value = amount))
  | .ft =>
    inferInstanceAs (Decidable (ctx.refOutputCount ref = 1 ∧
      ctx.refValueSum ref = amount))

/-- The stack of a claim, top first: the selector, the preimage and nothing
else. -/
def ClaimStack (requireMinimal : Bool) (hashlock : Bytes)
    (stack : List Bytes) : Prop :=
  ∃ sel p, stack = [sel, p] ∧ readNum requireMinimal sel = some 0 ∧
    p.length = 32 ∧
    sha256 p = hashlock

/-- The stack of a refund: the selector alone. -/
def RefundStack (requireMinimal : Bool) (stack : List Bytes) : Prop :=
  ∃ sel, stack = [sel] ∧ readNum requireMinimal sel = some 1

/-- BIP68 keeps the input back for `blocks` blocks at least. -/
structure RelativeLock (ctx : TxCtx) (blocks : Int) : Prop where
  version : 2 ≤ ctx.version
  enabled : ctx.sequence.testBit 31 = false
  inBlocks : ctx.sequence.testBit 22 = false
  atLeast : blocks ≤ (ctx.sequence % 2 ^ 16 : Nat)

/-- The spends a covenant is for. -/
def CovenantOpens (c : HtlcCovenant) (amount : Int) (ctx : TxCtx)
    (stack : List Bytes) : Prop :=
  ∃ o, ctx.outputs = [o] ∧ PaysAmount c.variant c.genesisRef amount ctx o ∧
    (ClaimStack ctx.requireMinimal c.hashlock stack ∧
      hash256 o.script = c.expectedTakerHash ∨
      RefundStack ctx.requireMinimal stack ∧ RelativeLock ctx c.refundCsv ∧
        hash256 o.script = c.expectedMakerHash)

/-! ## The pieces -/

namespace HtlcBinding

/-- What stands in front of the branches. -/
def head (b : HtlcBinding) : List Chunk :=
  match b.variant with
  | .rxd => oneOutput
  | .nft => [.ref 0xD8 b.ref] ++ oneOutput ++
      [.op 0xDE, .op 0x51, .op 0x9D, .op 0x00, .op 0xCC,
        numChunk b.amount, .op 0x9D]
  | .ft => [.ref 0xD0 b.ref] ++ oneOutput ++
      [.op 0x76, .op 0xDE, .op 0x51, .op 0x9D, .op 0xDC,
        numChunk b.amount, .op 0x9D]

/-- What each branch asks of the value. -/
def check (b : HtlcBinding) : List Chunk :=
  match b.variant with
  | .rxd => [.op 0x00, .op 0xCC, numChunk b.amount, .op 0xA2, .op 0x69]
  | _ => []

def claimHead (b : HtlcBinding) : List Chunk :=
  [.op 0x7C, .op 0x82, .data [0x20], .op 0x88, .op 0xA8,
    .data b.hashlock, .op 0x88]

def refundHead (b : HtlcBinding) : List Chunk :=
  [.op 0x51, .op 0x9D, numChunk b.refundCsv, .op 0xB2, .op 0x75]

def claimBranch (b : HtlcBinding) : List Chunk :=
  b.claimHead ++ (b.check ++ (payTo b.takerHash ++ [.op 0x77]))

def refundBranch (b : HtlcBinding) : List Chunk :=
  b.refundHead ++ (b.check ++ payTo b.makerHash)

/-- `DUP 0 NUMEQUAL`. -/
def selector : List Chunk := [.op 0x76, .op 0x00, .op 0x9C]

/-- The code is its head, the selector and the two branches. -/
theorem code_eq (b : HtlcBinding) : b.code =
    b.head ++ (selector ++ ([.op 0x63] ++ b.claimBranch ++
      ([.op 0x67] ++ b.refundBranch ++ [.op 0x68]))) := by
  unfold code head claimBranch refundBranch check claimHead refundHead
    selector branches
  cases b.variant <;> simp

end HtlcBinding

section Pieces

open HtlcBinding

variable {ctx : TxCtx} {s : List Bytes} {ts : List Chunk}
  {b : HtlcBinding} {o : TxOut}

/-- The head demands a single output. -/
theorem line_oneOutput : line ctx (oneOutput ++ ts) s =
    (require (ctx.outputs.length = 1) s).bind (line ctx ts) := by
  have hcount : (pushNum ctx.outputs.length s).bind
      (line ctx (numChunk 1 :: .op 0x9D :: ts)) =
      (require ((ctx.outputs.length : Int) = 1) s).bind (line ctx ts) :=
    pushNum_numEqualVerify (by decide) (by decide)
  have hnum : numChunk 1 = .op 0x51 := rfl
  have hread : txCount ctx 0xC4 s = some ((ctx.outputs.length : Int), s) := rfl
  rw [hnum] at hcount
  rw [oneOutput, List.cons_append, List.cons_append, List.cons_append,
    List.nil_append, line_op,
    runTxOp_count (by decide) hread, hcount]
  unfold require
  simp only [Nat.cast_eq_one]

section One

variable (hone : ctx.outputs = [o])

include hone

/-- The empty stack item names output 0. -/
theorem output_zero : ctx.output [] = some o := by
  have hread : readNum ctx.requireMinimal [] = some 0 := by
    cases ctx.requireMinimal <;> rfl
  rw [TxCtx.output, hread, hone]
  rfl

/-- The script of the output is hashed and compared. -/
theorem line_payTo (hash : Bytes) :
    line ctx (payTo hash ++ ts) s = line ctx ts
      (boolBytes (hash256 o.script = hash) :: s) := by
  rw [payTo]
  simp only [List.cons_append, List.nil_append]
  rw [line_op, runTxOp_zero, Option.bind_some, line_op, runTxOp_outputBytecode,
    output_zero hone,
    Option.bind_some, Option.bind_some, line_op, runTxOp_hash256,
      Option.bind_some, line_data,
    line_op, runTxOp_equal, Option.bind_some]

/-- The value of the output stands on the stack. -/
theorem line_outputValue :
    line ctx (.op 0x00 :: .op 0xCC :: ts) s = line ctx ts
      (scriptNum o.value :: s) := by
  have hrange := o.inRange
  have hcount : txCount ctx 0xCC ([] :: s) = some (o.value, s) := by
    show (ctx.output []).map _ = _
    rw [output_zero hone, Option.map_some]
  rw [line_op, runTxOp_zero, Option.bind_some, line_op,
    runTxOp_count (by decide) hcount,
    pushNum_ok ⟨by omega, by omega⟩, Option.bind_some]

/-- `GREATERTHANOREQUAL VERIFY` against the amount. -/
theorem line_check (hb : b.Ok) : line ctx (b.check ++ ts) s =
    (require (b.variant = .rxd → b.amount ≤ o.value) s).bind (line ctx ts) := by
  have hrange := o.inRange
  unfold check
  cases hv : b.variant with
  | rxd =>
    have hvalue : NumRange o.value := ⟨by omega, by omega⟩
    simp only [List.cons_append, List.nil_append]
    rw [line_outputValue hone, line_numChunk hb.amount.1, line_op,
      runTxOp_greaterOrEqual,
      readNum_scriptNum _ hvalue, Option.bind_some, require]
    by_cases hamount : NumRange b.amount
    · rw [readNum_scriptNum _ hamount, Option.bind_some, pushNum_boolNum,
        Option.bind_some, line_op,
        runTxOp_verify, truthy_boolNum]
      simp
    · rw [readNum_scriptNum_none _ hamount, if_neg]
      · rfl
      · intro h
        have hle := h trivial
        have hpos := hb.amount.1
        exact hamount ⟨by omega, by omega⟩
  | nft => rw [List.nil_append, require, if_pos (by simp), Option.bind_some]
  | ft => rw [List.nil_append, require, if_pos (by simp), Option.bind_some]

end One

/-- The preimage is under the selector. -/
theorem line_claimHead : line ctx (b.claimHead ++ ts) s =
    match s with
    | sel :: p :: s =>
      (require (p.length = 32 ∧ sha256 p = b.hashlock) (sel :: s)).bind
        (line ctx ts)
    | _ => none := by
  unfold claimHead
  simp only [List.cons_append, List.nil_append]
  match s with
  | [] => rfl
  | [_] => rfl
  | sel :: p :: s =>
    have hread : txCount ctx 0x82 (p :: sel :: s) = some ((p.length : Int),
        p :: sel :: s) := rfl
    have hsize : scriptNum (32 : Nat) = [0x20] := rfl
    dsimp only
    rw [line_op, runTxOp_swap, Option.bind_some, line_op,
      runTxOp_count (by decide) hread]
    by_cases hlen : p.length = 32
    · rw [hlen, pushNum_ok (show NumRange (32 : Nat) by decide),
        Option.bind_some, line_data, line_op, runTxOp_equalVerify]
      rw [if_pos hsize, Option.bind_some, line_op, runTxOp_sha256,
        Option.bind_some, line_data,
        line_op, runTxOp_equalVerify, require]
      simp only [true_and]
    · have hne : scriptNum p.length ≠ [0x20] := by
        intro h
        have hdec := congrArg decodeNum h
        rw [decodeNum_scriptNum] at hdec
        have h32 : decodeNum [0x20] = 32 := rfl
        omega
      rw [require, if_neg (fun h => hlen h.1), pushNum]
      split
      · rw [Option.bind_some, line_data, line_op,
          runTxOp_equalVerify, if_neg hne]
        rfl
      · rfl

/-- The lock of the input is compared with the delay. -/
theorem line_refundHead (hb : b.Ok) : line ctx (b.refundHead ++ ts) s =
    match s with
    | sel :: s => (require (readNum ctx.requireMinimal sel = some 1 ∧
        ctx.CheckSequence b.refundCsv.toNat) s).bind (line ctx ts)
    | _ => none := by
  unfold refundHead
  simp only [List.cons_append, List.nil_append]
  cases s with
  | nil => rfl
  | cons sel s =>
    dsimp only
    obtain ⟨hcsv1, hcsv2⟩ := hb.refundCsv
    have hcsv : NumRange b.refundCsv := ⟨by omega, by omega⟩
    have hlen : ¬ 5 < (scriptNum b.refundCsv).length :=
      Nat.not_lt.mpr ((length_scriptNum_le _ 4).mpr (by omega))
    have hbit : b.refundCsv.toNat.testBit 31 = false :=
      Nat.testBit_lt_two_pow (by omega)
    -- the lock is in blocks and enabled, so the opcode compares it with the
    -- sequence
    have hcheck : ctx.checkSequenceVerify (scriptNum b.refundCsv) =
        if ctx.CheckSequence b.refundCsv.toNat then some () else none := by
      rw [TxCtx.checkSequenceVerify, if_neg hlen, readNum_scriptNum _ hcsv]
      show (if b.refundCsv < 0 then none else _) = _
      rw [if_neg (by omega), hbit, if_neg Bool.false_ne_true]
    rw [line_op, runTxOp_one, Option.bind_some, line_op, runTxOp_numEqualVerify,
      readNum_scriptNum _ (by decide)]
    cases hread : readNum ctx.requireMinimal sel with
    | none => rw [require, if_neg (by simp)]; rfl
    | some k =>
      rw [Option.bind_some, Option.bind_some, require]
      by_cases hk : k = 1
      · rw [if_pos hk, Option.bind_some, line_numChunk hcsv1, line_op,
          runTxOp_checkSequence, hcheck]
        by_cases hmet : ctx.CheckSequence b.refundCsv.toNat
        · rw [if_pos hmet, if_pos ⟨congrArg some hk, hmet⟩, Option.map_some,
            Option.bind_some, line_op, runTxOp_drop, Option.bind_some]
        · rw [if_neg hmet, if_neg (fun h => hmet h.2)]
          rfl
      · rw [if_neg hk, if_neg (fun h => hk (Option.some.inj h.1))]
        rfl

/-- `DUP 0 NUMEQUAL` keeps the selector. -/
theorem line_selector : line ctx selector s =
    match s with
    | sel :: s =>
      (readNum ctx.requireMinimal sel).map fun n =>
        scriptNum (boolNum (n = 0)) :: sel :: s
    | [] => none := by
  cases s with
  | nil => rfl
  | cons sel s =>
    have hzero : readNum ctx.requireMinimal [] = some 0 := by
      cases ctx.requireMinimal <;> rfl
    dsimp only
    rw [selector, line_op, runTxOp_dup, Option.bind_some, line_op, runTxOp_zero,
      Option.bind_some,
      line_op, runTxOp_numEqual, hzero]
    cases readNum ctx.requireMinimal sel with
    | none => rfl
    | some n =>
      rw [Option.bind_some, Option.bind_some, pushNum_boolNum]
      rfl

/-- A single output's value is a script number. -/
theorem refValueSum_range (hone : ctx.outputs = [o]) (ref : Bytes) :
    NumRange (ctx.refValueSum ref) := by
  obtain ⟨hlo, hhi⟩ := o.inRange
  rw [TxCtx.refValueSum, TxCtx.holding, hone, List.filter_singleton]
  cases decide (ref ∈ ctx.pushRefs o.script) with
  | true =>
    rw [cond_true, List.map_singleton, List.sum_singleton]
    exact ⟨by omega, by omega⟩
  | false => exact (by decide : NumRange 0)

/-- `REFOUTPUTCOUNT_OUTPUTS 1 NUMEQUALVERIFY`. -/
theorem line_refOutputCount {ref : Bytes} (hlen : ref.length = 36) :
    line ctx (.op 0xDE :: .op 0x51 :: .op 0x9D :: ts) (ref :: s) =
      (require (ctx.refOutputCount ref = 1) s).bind (line ctx ts) := by
  have hcount : txCount ctx 0xDE (ref :: s) = some (ctx.refOutputCount ref,
      s) := if_pos hlen
  have hnum : numChunk 1 = .op 0x51 := rfl
  have hverify : (pushNum (ctx.refOutputCount ref) s).bind
      (line ctx (numChunk 1 :: .op 0x9D :: ts)) =
      (require (ctx.refOutputCount ref = 1) s).bind (line ctx ts) :=
    pushNum_numEqualVerify (by decide) (by decide)
  rw [line_op, runTxOp_count (by decide) hcount, ← hnum, hverify]

/-- What is asked before the selector is looked at. -/
theorem line_head (hb : b.Ok) (hone : ctx.outputs = [o]) : line ctx b.head s =
    require (b.variant = .rxd ∨
      PaysAmount b.variant b.ref b.amount ctx o) s := by
  have hlength : ctx.outputs.length = 1 := by rw [hone]; rfl
  have hrange := o.inRange
  have href := hb.ref
  unfold head
  -- each variant has its own head: none, one NFT, or the FT's amount
  cases hv : b.variant with
  | rxd =>
    dsimp only
    rw [← List.append_nil oneOutput, line_oneOutput, require,
      if_pos hlength, require,
      if_pos (Or.inl rfl)]
    rfl
  | nft =>
    rw [hv, if_neg (by decide)] at href
    dsimp only
    rw [List.append_assoc, List.singleton_append, line_ref, line_oneOutput,
      require, if_pos hlength, Option.bind_some, line_refOutputCount href]
    unfold require PaysAmount
    by_cases hcount : ctx.refOutputCount b.ref = 1
    · rw [if_pos hcount, Option.bind_some, line_outputValue hone,
        line_numChunk hb.amount.1,
        line_numEqualVerify ⟨by omega, by omega⟩, require]
      simp only [hcount, true_and, reduceCtorEq, false_or]
      split <;> rfl
    · rw [if_neg hcount, if_neg (by simp [hcount])]
      rfl
  | ft =>
    rw [hv, if_neg (by decide)] at href
    have hsum : txCount ctx 0xDC (b.ref :: s) = some (ctx.refValueSum b.ref,
        s) := if_pos href
    dsimp only
    rw [List.append_assoc, List.singleton_append, line_ref, line_oneOutput,
      require, if_pos hlength, Option.bind_some, line_op, runTxOp_dup,
      Option.bind_some, line_refOutputCount href]
    unfold require PaysAmount
    by_cases hcount : ctx.refOutputCount b.ref = 1
    · rw [if_pos hcount, Option.bind_some, line_op,
        runTxOp_count (by decide) hsum,
        pushNum_ok (refValueSum_range hone b.ref), Option.bind_some,
          line_numChunk hb.amount.1,
        line_numEqualVerify (refValueSum_range hone b.ref), require]
      simp only [hcount, true_and, reduceCtorEq, false_or]
      split <;> rfl
    · rw [if_neg hcount, if_neg (by simp [hcount])]
      rfl

/-- With another number of outputs nothing else is looked at. -/
theorem line_head_many (h : ctx.outputs.length ≠ 1) :
    line ctx b.head s = none := by
  unfold head
  cases b.variant with
  | rxd =>
    dsimp only
    rw [← List.append_nil oneOutput, line_oneOutput, require, if_neg h]
    rfl
  | nft =>
    dsimp only
    rw [List.append_assoc, List.singleton_append, line_ref, line_oneOutput,
      require, if_neg h]
    rfl
  | ft =>
    dsimp only
    rw [List.append_assoc, List.singleton_append, line_ref, line_oneOutput,
      require, if_neg h]
    rfl

/-- The claim branch, up to the truth of its comparison. -/
theorem line_claimBranch (hb : b.Ok) (hone : ctx.outputs = [o]) :
    line ctx b.claimBranch s =
    match s with
    | _ :: p :: s =>
      require ((p.length = 32 ∧ sha256 p = b.hashlock) ∧
        (b.variant = .rxd → b.amount ≤ o.value))
        (boolBytes (hash256 o.script = b.takerHash) :: s)
    | _ => none := by
  rw [claimBranch, line_claimHead]
  match s with
  | [] => rfl
  | [_] => rfl
  | sel :: p :: s =>
    dsimp only
    unfold require
    by_cases hp : p.length = 32 ∧ sha256 p = b.hashlock
    · rw [if_pos hp, Option.bind_some, line_check hone hb, require]
      by_cases hvalue : b.variant = .rxd → b.amount ≤ o.value
      · rw [if_pos hvalue, if_pos ⟨hp, hvalue⟩, Option.bind_some,
          line_payTo hone, line_op,
          runTxOp_nip]
        rfl
      · rw [if_neg hvalue, if_neg (fun h => hvalue h.2)]
        rfl
    · rw [if_neg hp, if_neg (fun h => hp h.1)]
      rfl

/-- What the refund branch demands. -/
theorem line_refundBranch (hb : b.Ok) (hone : ctx.outputs = [o]) :
    line ctx b.refundBranch s =
    match s with
    | sel :: s =>
      require ((readNum ctx.requireMinimal sel = some 1 ∧
        ctx.CheckSequence b.refundCsv.toNat) ∧
          (b.variant = .rxd → b.amount ≤ o.value))
        (boolBytes (hash256 o.script = b.makerHash) :: s)
    | [] => none := by
  rw [refundBranch, line_refundHead hb]
  cases s with
  | nil => rfl
  | cons sel s =>
    dsimp only
    unfold require
    by_cases hp : readNum ctx.requireMinimal sel = some 1 ∧
      ctx.CheckSequence b.refundCsv.toNat
    · rw [if_pos hp, Option.bind_some, line_check hone hb, require]
      by_cases hvalue : b.variant = .rxd → b.amount ≤ o.value
      · rw [if_pos hvalue, if_pos ⟨hp, hvalue⟩, Option.bind_some,
          ← List.append_nil (payTo _),
          line_payTo hone]
        rfl
      · rw [if_neg hvalue, if_neg (fun h => hvalue h.2)]
        rfl
    · rw [if_neg hp, if_neg (fun h => hp h.1)]
      rfl

end Pieces

/-! ## The body -/

section Body

open HtlcBinding

variable {ctx : TxCtx} {s : List Bytes} {b : HtlcBinding} {o : TxOut}

/-- Paying to a hash is straight. -/
theorem straight_payTo (hash : Bytes) : ∀ t ∈ payTo hash, Straight t := by
  simp only [payTo, List.forall_mem_cons]
  exact ⟨by decide, by decide, by decide, trivial, by decide⟩

theorem straight_check (hb : b.Ok) : ∀ t ∈ b.check, Straight t := by
  unfold check
  cases b.variant with
  | rxd =>
    simp only [List.forall_mem_cons]
    exact ⟨by decide, by decide, straight_numChunk hb.amount.1, by decide, by decide⟩
  | nft => exact List.forall_mem_nil _
  | ft => exact List.forall_mem_nil _

theorem straight_head (hb : b.Ok) : ∀ t ∈ b.head, Straight t := by
  have hnum := straight_numChunk hb.amount.1
  have hone : ∀ t ∈ oneOutput, Straight t := by decide
  unfold head
  cases b.variant with
  | rxd => exact hone
  | nft =>
    dsimp only
    rw [List.forall_mem_append, List.forall_mem_append,
      List.forall_mem_singleton]
    refine ⟨⟨Or.inr rfl, hone⟩, ?_⟩
    simp only [List.forall_mem_cons, List.not_mem_nil, IsEmpty.forall_iff,
      implies_true, and_true]
    exact ⟨by decide, by decide, by decide, by decide, by decide, hnum, by decide⟩
  | ft =>
    dsimp only
    rw [List.forall_mem_append, List.forall_mem_append,
      List.forall_mem_singleton]
    refine ⟨⟨Or.inl rfl, hone⟩, ?_⟩
    simp only [List.forall_mem_cons, List.not_mem_nil, IsEmpty.forall_iff,
      implies_true, and_true]
    exact ⟨by decide, by decide, by decide, by decide, by decide, hnum, by decide⟩

theorem straight_claimBranch (hb : b.Ok) : ∀ t ∈ b.claimBranch, Straight t := by
  have hhead : ∀ t ∈ b.claimHead, Straight t := by
    simp only [claimHead, List.forall_mem_cons]
    exact ⟨by decide, by decide, trivial, by decide, by decide, trivial, by decide⟩
  rw [claimBranch, List.forall_mem_append, List.forall_mem_append,
    List.forall_mem_append]
  exact ⟨hhead, straight_check hb, straight_payTo _, by decide⟩

theorem straight_refundBranch (hb : b.Ok) :
    ∀ t ∈ b.refundBranch, Straight t := by
  have hhead : ∀ t ∈ b.refundHead, Straight t := by
    simp only [refundHead, List.forall_mem_cons]
    exact ⟨by decide, by decide, straight_numChunk hb.refundCsv.1, by decide, by decide⟩
  rw [refundBranch, List.forall_mem_append, List.forall_mem_append]
  exact ⟨hhead, straight_check hb, straight_payTo _⟩

/-- The body as one function of the stack. -/
theorem runTxScript_code (hb : b.Ok) : runTxScript ctx (assembleCode b.code) s =
    (line ctx b.head s).bind fun s => (line ctx selector s).bind
      (branchOn (line ctx b.claimBranch) (line ctx b.refundBranch)) := by
  have hacts : Acts ctx b.code fun s => (line ctx b.head s).bind fun s =>
      (line ctx selector s).bind
          (branchOn (line ctx b.claimBranch) (line ctx b.refundBranch)) := by
    rw [code_eq]
    exact (acts_line (straight_head hb)).append ((acts_line (by decide)).append
      ((acts_line (straight_claimBranch hb)).ifElse
        (acts_line (straight_refundBranch hb))))
  exact runTxScript_acts (fun t ht => (fine_code hb t ht).walked.1) hacts s

/-- The sequence check is the relative lock. -/
theorem checkSequence_iff (hb : b.Ok) :
    ctx.CheckSequence b.refundCsv.toNat ↔ RelativeLock ctx b.refundCsv := by
  obtain ⟨hlo, hhi⟩ := hb.refundCsv
  have hbit : b.refundCsv.toNat.testBit 22 = false :=
    Nat.testBit_lt_two_pow (by omega)
  have hmod : b.refundCsv.toNat % 2 ^ 16 = b.refundCsv.toNat :=
    Nat.mod_eq_of_lt (by omega)
  rw [TxCtx.CheckSequence, hbit, hmod]
  constructor
  · rintro ⟨hversion, henabled, hblocks, hatLeast⟩
    exact ⟨hversion, henabled, hblocks, by omega⟩
  · intro h
    have hatLeast := h.atLeast
    exact ⟨h.version, h.enabled, h.inBlocks, by omega⟩

/-- The value is asked for in front of the branches, or in each of them. -/
theorem paysAmount_iff :
    (b.variant = .rxd ∨ PaysAmount b.variant b.ref b.amount ctx o) ∧
    (b.variant = .rxd → b.amount ≤ o.value) ↔
    PaysAmount b.variant b.ref b.amount ctx o := by
  cases hv : b.variant with
  | rxd => exact ⟨fun h => h.2 rfl, fun h => ⟨Or.inl rfl, fun _ => h⟩⟩
  | nft => exact ⟨fun h => h.1.resolve_left nofun, fun h => ⟨Or.inr h, nofun⟩⟩
  | ft => exact ⟨fun h => h.1.resolve_left nofun, fun h => ⟨Or.inr h, nofun⟩⟩

/-- The branches on a stack with a selector. -/
theorem branches_accept (hb : b.Ok) (hone : ctx.outputs = [o]) {sel : Bytes} :
    (∃ top, (line ctx selector (sel :: s)).bind
      (branchOn (line ctx b.claimBranch)
        (line ctx b.refundBranch)) = some [top] ∧ truthy top = true) ↔
      (b.variant = .rxd → b.amount ≤ o.value) ∧
        (ClaimStack ctx.requireMinimal b.hashlock (sel :: s) ∧
          hash256 o.script = b.takerHash ∨
          RefundStack ctx.requireMinimal (sel :: s) ∧
            RelativeLock ctx b.refundCsv ∧
            hash256 o.script = b.makerHash) := by
  rw [line_selector]
  dsimp only
  -- the selector is read as a number: 0 takes the claim, 1 the refund
  cases hread : readNum ctx.requireMinimal sel with
  | none =>
    constructor
    · rintro ⟨_, h, _⟩
      cases h
    · rintro ⟨-, ⟨⟨_, _, hs, h0, -⟩, -⟩ | ⟨⟨_, hs, h1⟩, -⟩⟩
      · cases hs
        rw [hread] at h0
        cases h0
      · cases hs
        rw [hread] at h1
        cases h1
  | some n =>
    rw [Option.map_some, Option.bind_some, branchOn, truthy_boolNum]
    by_cases hn : n = 0
    · rw [decide_eq_true hn, if_pos rfl, line_claimBranch hb hone]
      cases s with
      | nil =>
        constructor
        · rintro ⟨_, h, _⟩
          cases h
        · rintro ⟨-, ⟨⟨_, _, hs, -⟩, -⟩ | ⟨⟨_, hs, h1⟩, -⟩⟩
          · cases hs
          · cases hs
            rw [hread, hn] at h1
            cases h1
      | cons p s =>
        dsimp only
        rw [require_boolBytes]
        constructor
        · rintro ⟨⟨⟨hlen, hsha⟩, hvalue⟩, rfl, hhash⟩
          exact ⟨hvalue,
            Or.inl ⟨⟨sel, p, rfl, by rw [hread, hn], hlen, hsha⟩, hhash⟩⟩
        · rintro ⟨hvalue, ⟨⟨_, _, hs, -, hlen, hsha⟩, hhash⟩ | ⟨⟨_, hs, -⟩, -⟩⟩
          · cases hs
            exact ⟨⟨⟨hlen, hsha⟩, hvalue⟩, rfl, hhash⟩
          · cases hs
    · rw [decide_eq_false hn, if_neg Bool.false_ne_true,
        line_refundBranch hb hone]
      dsimp only
      rw [require_boolBytes, hread, checkSequence_iff hb]
      constructor
      · rintro ⟨⟨⟨h1, hlock⟩, hvalue⟩, rfl, hhash⟩
        exact ⟨hvalue, Or.inr ⟨⟨sel, rfl, hread.trans h1⟩, hlock, hhash⟩⟩
      · rintro ⟨hvalue, ⟨⟨_, _, hs, h0, -⟩, -⟩ | ⟨⟨_, hs, h1⟩, hlock, hhash⟩⟩
        · cases hs
          rw [hread, Option.some.injEq] at h0
          exact absurd h0 hn
        · cases hs
          exact ⟨⟨⟨hread.symm.trans h1, hlock⟩, hvalue⟩, rfl, hhash⟩

/-- **The body on one output.** -/
theorem code_accepts (hb : b.Ok) (hone : ctx.outputs = [o]) :
    Accepts ctx (assembleCode b.code) s ↔
    PaysAmount b.variant b.ref b.amount ctx o ∧
      (ClaimStack ctx.requireMinimal b.hashlock s ∧
        hash256 o.script = b.takerHash ∨
        RefundStack ctx.requireMinimal s ∧ RelativeLock ctx b.refundCsv ∧
          hash256 o.script = b.makerHash) := by
  refine Iff.trans ?_ (and_congr_left' paysAmount_iff)
  rw [Accepts, runTxScript_code hb, line_head hb hone]
  unfold require
  by_cases hpays : b.variant = .rxd ∨ PaysAmount b.variant b.ref b.amount ctx o
  · rw [if_pos hpays, Option.bind_some]
    cases s with
    | nil =>
      constructor
      · rintro ⟨_, h, _⟩
        cases h
      · rintro ⟨-, ⟨⟨_, _, hs, -⟩, -⟩ | ⟨⟨_, hs, -⟩, -⟩⟩ <;> cases hs
    | cons sel s =>
      rw [branches_accept hb hone]
      exact ⟨fun h => ⟨⟨hpays, h.1⟩, h.2⟩, fun h => ⟨h.1.2, h.2⟩⟩
  · rw [if_neg hpays]
    constructor
    · rintro ⟨_, h, _⟩
      cases h
    · intro h
      exact absurd h.1.1 hpays

end Body

/-- **What a covenant lets through.** The compiled body of a covenant that a
builder returned succeeds, on any stack and in any transaction, just when the
transaction has one output of the right value and is either a claim with the
preimage, paying the taker, or a refund after the delay, paying the maker. -/
theorem covenant_accepts_iff {p : CovenantParams} {c : HtlcCovenant}
    (h : p.build = .ok c) (ctx : TxCtx)
    (stack : List Bytes) :
    Accepts ctx (c.fundedSpk.take c.prologueLen) stack ↔
    CovenantOpens c p.amount ctx stack := by
  obtain ⟨ref, -, hb, rfl⟩ := build_ok h
  have hbody : ((p.binding ref).covenant (p.holder p.takerPkh ref)
      (p.holder p.makerPkh ref)).fundedSpk.take ((p.binding ref).covenant
      (p.holder p.takerPkh ref) (p.holder p.makerPkh ref)).prologueLen =
        assembleCode (p.binding ref).code := by
    show (assembleCode (p.binding ref).fundedCode).take
      (assembleCode (p.binding ref).code).length = _
    rw [HtlcBinding.fundedCode, assembleCode_append, List.take_left]
  rw [hbody]
  by_cases hone : ctx.outputs.length = 1
  · obtain ⟨o, ho⟩ := List.length_eq_one_iff.mp hone
    rw [code_accepts hb ho]
    constructor
    · intro hopens
      exact ⟨o, ho, hopens⟩
    · rintro ⟨o', ho', hopens⟩
      rw [ho] at ho'
      cases ho'
      exact hopens
  · constructor
    · rintro ⟨_, hrun, _⟩
      rw [runTxScript_code hb, line_head_many hone] at hrun
      cases hrun
    · rintro ⟨o, ho, -⟩
      exact absurd (by rw [ho]; rfl) hone

def claimPreimage : Bytes := List.replicate 32 0x07

def claimParams : CovenantParams where
  asset := .rxd
  amount := 5000
  takerPkh := List.replicate 20 0x01
  makerPkh := List.replicate 20 0x02
  hashlock := sha256 claimPreimage
  refundCsv := 144

/-- A claim that pays the taker a little more than it must. -/
def claimCtx : TxCtx where
  locktime := 0
  requireMinimal := true
  version := 1
  sequence := 0xFFFFFFFF
  outputs := [⟨5100, rxdHolderScript claimParams.takerPkh, by decide⟩]
  pushRefs := fun _ => []

/-- The statement at a claim, which a refund of the same spend is not. -/
theorem covenant_accepts_claim : ∃ c, claimParams.build = .ok c ∧
    Accepts claimCtx (c.fundedSpk.take c.prologueLen) [[], claimPreimage] ∧
    ¬ Accepts claimCtx (c.fundedSpk.take c.prologueLen) [[1]] := by
  have hrange : claimParams.InRange :=
    ⟨length_sha256 _, by decide, by decide, by decide, by decide⟩
  have hfits : claimParams.Fits := by decide
  have hbuild := build_fits hrange (rfl : claimParams.RefIs []) hfits
  refine ⟨_, hbuild, ?_, ?_⟩
  · apply (covenant_accepts_iff hbuild claimCtx _).mpr
    exact ⟨_, rfl, (by decide : (5000 : Int) ≤ 5100),
      Or.inl ⟨⟨[], claimPreimage, rfl, rfl, rfl, rfl⟩, rfl⟩⟩
  · -- the transaction is of version 1: no lock holds
    intro haccepts
    obtain ⟨_, _, _, ⟨⟨_, _, hstack, -⟩, -⟩ | ⟨-, hlock, -⟩⟩ :=
      (covenant_accepts_iff hbuild claimCtx _).mp haccepts
    · cases hstack
    · exact absurd hlock.version (by decide)

end Pyrxd.Gravity
