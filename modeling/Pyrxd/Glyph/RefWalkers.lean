import Pyrxd.Glyph.Credential
import Pyrxd.Tx.PushRefs

/-!
# Three walkers over one opcode stream

`iter_input_refs`, `_get_push_refs` and `_opcode_bd_positions` each step through
a script with a rule of its own for the operand of an opcode. The main theorem,
`walkers_segment_alike`, names the scripts on which they stop at the same
opcodes: complete instructions, no ref opcode besides the two that push a ref,
and at most one cut of a kind all three notice.
-/

namespace Pyrxd.Glyph

open Pyrxd.Lib Pyrxd.Tx

/-! ## Definitions -/

/-- `_REF_OPS`. -/
def refOps : List UInt8 := [0xD0, 0xD1, 0xD2, 0xD3, 0xD8]

/-- One turn of `_opcode_bd_positions`; `none` is its `break`. -/
def bdWidth (op : UInt8) (rest : Bytes) : Option Nat :=
  if op ∈ refOps then some 37
  else if 0x01 ≤ op ∧ op ≤ 0x4B then some (1 + op.toNat)
  else if op = 0x4C then (if rest.length < 1 then none
    else some (2 + leNat (rest.take 1)))
  else if op = 0x4D then (if rest.length < 2 then none
    else some (3 + leNat (rest.take 2)))
  else if op = 0x4E then (if rest.length < 4 then none
    else some (5 + leNat (rest.take 4)))
  else some 1

def bdWalk : Nat → Nat → Bytes → List Nat
  | 0, _, _ => []
  | _, _, [] => []
  | fuel + 1, pos, op :: rest =>
    (if op = 0xBD then [pos] else []) ++
      match bdWidth op rest with
      | some w => bdWalk fuel (pos + w) ((op :: rest).drop w)
      | none => []

/-- `_opcode_bd_positions`. -/
def opcodeBdPositions (spk : Bytes) : List Nat := bdWalk spk.length 0 spk

/-! ## Segmentation -/

/-- One turn of `iter_input_refs`; `none` where it raises. -/
def iterWidth (op : UInt8) (rest : Bytes) : Option Nat :=
  (opWidth op rest).filter fun w => w ≤ rest.length + 1

/-- The opcodes a walk stops at, each with its position. -/
def visits (width : Nat → UInt8 → Bytes → Option Nat) : Nat → Nat → Bytes →
    List (Nat × UInt8)
  | 0, _, _ => []
  | _, _, [] => []
  | fuel + 1, pos, op :: rest =>
    (pos, op) :: match width pos op rest with
      | some w => visits width fuel (pos + w) ((op :: rest).drop w)
      | none => []

/-- The three walks. -/
def iterVisits : Nat → Nat → Bytes → List (Nat × UInt8) :=
  visits fun _ => iterWidth

def pushVisits : Nat → Nat → Bytes → List (Nat × UInt8) :=
  visits fun pos op rest => (pushRefsWidth pos op rest).toOption

def bdVisits : Nat → Nat → Bytes → List (Nat × UInt8) := visits fun _ => bdWidth

/-- The positions of `0xbd` among the opcodes of a walk. -/
def bdsOf (stops : List (Nat × UInt8)) : List Nat :=
  (stops.filter fun stop => stop.2 == 0xBD).map Prod.fst

/-- The operands of the opcodes that push a ref. -/
def pushedOf (refs : List (UInt8 × Bytes)) : List Bytes :=
  (refs.filter fun ref => isPushRef ref.1).map Prod.snd

/-- The three walkers take `script` apart in the same way. -/
structure SegmentAlike (script : Bytes) : Prop where
  push : pushVisits script.length 0 script = iterVisits script.length 0 script
  bd : bdVisits script.length 0 script = iterVisits script.length 0 script
  refs : ∀ refs, iterInputRefs script = .ok refs →
    getPushRefs script = .ok (sortRefs (pushedOf refs))
  bds : ∀ refs, iterInputRefs script = .ok refs →
    opcodeBdPositions script = bdsOf (iterVisits script.length 0 script)
  raises : ∀ e, iterInputRefs script = .error e →
    ∃ e', getPushRefs script = .error e'

/-! ## Instructions -/

/-- The number of length bytes after the opcode. -/
def lenBytes (op : UInt8) : Nat :=
  if op = 0x4C then 1 else if op = 0x4D then 2 else if op = 0x4E then 4 else 0

def operandLen (op : UInt8) (size : Bytes) : Nat :=
  if isRefOpcode op then 36 else if 0x01 ≤ op ∧ op ≤ 0x4B then op.toNat
    else leNat size

/-- An opcode with its whole operand. -/
structure Instr where
  op : UInt8
  size : Bytes
  operand : Bytes
  sized : size.length = lenBytes op
  filled : operand.length = operandLen op size

def Instr.bytes (i : Instr) : Bytes := i.op :: (i.size ++ i.operand)

/-- What may follow the last complete instruction: nothing, a PUSHDATA1 without
its length byte, or a pushed ref cut short. -/
inductive Cut : Bytes → Prop where
  | whole : Cut []
  | pushData1 : Cut [0x4C]
  | pushRef (op : UInt8) (rest : Bytes) (hop : isPushRef op = true)
      (hlen : rest.length < 36) :
      Cut (op :: rest)

/-- Complete instructions, whose ref opcodes all push their ref, and a cut. -/
def Plain (script : Bytes) : Prop :=
  ∃ (instrs : List Instr) (tail : Bytes), script =
    instrs.flatMap Instr.bytes ++ tail ∧
    (∀ i ∈ instrs, isRefOpcode i.op = true → isPushRef i.op = true) ∧ Cut tail

/-! ## One instruction -/

section OneInstruction

variable {op : UInt8} {rest : Bytes} {pos fuel : Nat}

/-- The width of an opcode as one expression. -/
theorem opWidth_eq (op : UInt8) (rest : Bytes) : opWidth op rest =
    if rest.length < lenBytes op then none
    else some (1 + lenBytes op + operandLen op (rest.take (lenBytes op))) := by
  unfold opWidth lenBytes operandLen
  by_cases href : isRefOpcode op = true
  · have hno : op ≠ 0x4C ∧ op ≠ 0x4D ∧ op ≠ 0x4E := by
      refine ⟨?_, ?_, ?_⟩ <;> (intro h; subst h; exact absurd href (by decide))
    simp only [href, hno, if_true, if_false, Nat.not_lt_zero]
  · by_cases hdir : 0x01 ≤ op ∧ op ≤ 0x4B
    · have hno : op ≠ 0x4C ∧ op ≠ 0x4D ∧ op ≠ 0x4E := by
        refine ⟨?_, ?_, ?_⟩ <;>
          (intro h; subst h; exact absurd hdir (by decide))
      simp only [href, hdir, hno, if_true, if_false, Nat.not_lt_zero, and_self,
        Bool.false_eq_true]
    · simp only [href, hdir, if_false, Bool.false_eq_true]
      by_cases h1 : op = 0x4C
      · simp only [h1, if_true]
      · by_cases h2 : op = 0x4D
        · simp only [h2, if_true]
          rfl
        · by_cases h4 : op = 0x4E
          · simp only [h4, if_true]
            rfl
          · simp only [h1, h2, h4, if_false, Nat.not_lt_zero, List.take_zero]
            rfl

/-- When the strict walker steps, and by how much. -/
theorem iterWidth_eq_some {w : Nat} : iterWidth op rest = some w ↔
    lenBytes op ≤ rest.length ∧ w = 1 + lenBytes op + operandLen op
      (rest.take (lenBytes op)) ∧
      w ≤ rest.length + 1 := by
  rw [iterWidth, Option.filter_eq_some_iff, opWidth_eq]
  by_cases hlen : rest.length < lenBytes op
  · simp only [if_pos hlen, reduceCtorEq, false_and, false_iff]
    intro h
    omega
  · simp only [if_neg hlen, Option.some.injEq, decide_eq_true_eq]
    constructor
    · intro h
      exact ⟨by omega, h.1.symm, h.2⟩
    · intro h
      exact ⟨h.2.1.symm, h.2.2⟩

/-- An instruction is its opcode, its length bytes and its operand. -/
theorem Instr.length_bytes (i : Instr) :
    i.bytes.length = 1 + lenBytes i.op + operandLen i.op i.size := by
  rw [Instr.bytes, List.length_cons, List.length_append, i.sized, i.filled]
  omega

/-- `iter_input_refs` steps over a complete instruction, ... -/
theorem iterWidth_instr (i : Instr) (r : Bytes) :
    iterWidth i.op (i.size ++ i.operand ++ r) = some i.bytes.length := by
  rw [iterWidth_eq_some, i.length_bytes]
  have htake : (i.size ++ i.operand ++ r).take (lenBytes i.op) = i.size := by
    rw [List.append_assoc]
    exact List.take_left' i.sized
  rw [htake, List.length_append, List.length_append, i.sized, i.filled]
  exact ⟨by omega, rfl, by omega⟩

/-- ... and steps over nothing else. -/
theorem instr_of_iterWidth {w : Nat} (h : iterWidth op rest = some w) :
    ∃ (i : Instr) (r : Bytes), i.op = op ∧ rest = i.size ++ i.operand ++ r ∧
    w = i.bytes.length := by
  obtain ⟨hlen, hw, hfit⟩ := iterWidth_eq_some.mp h
  have hsize : (rest.take (lenBytes op)).length = lenBytes op :=
    List.length_take_of_le hlen
  have hoperand : ((rest.drop (lenBytes op)).take
      (operandLen op (rest.take (lenBytes op)))).length =
      operandLen op (rest.take (lenBytes op)) := by
    apply List.length_take_of_le
    rw [List.length_drop]
    omega
  refine ⟨⟨op, rest.take (lenBytes op), _, hsize, hoperand⟩,
    (rest.drop (lenBytes op)).drop (operandLen op (rest.take (lenBytes op))),
      rfl, ?_, ?_⟩
  · rw [List.append_assoc, List.take_append_drop, List.take_append_drop]
  · rw [hw, Instr.length_bytes]

/-- Dropping it leaves the rest. -/
theorem Instr.drop_bytes (i : Instr) (r : Bytes) :
    (i.op :: (i.size ++ i.operand ++ r)).drop i.bytes.length = r := by
  have h : i.op :: (i.size ++ i.operand ++ r) = i.bytes ++ r := rfl
  rw [h, List.drop_left]

/-- Outside the two that push a ref, `_get_push_refs` knows no ref opcode. -/
theorem pushRefsWidth_other (pos : Nat) (rest : Bytes)
    (href : isRefOpcode op = true) (hpush : isPushRef op = false) :
    pushRefsWidth pos op rest = .ok 1 := by
  have hbound : 0xD0 ≤ op ∧ op ≤ 0xD8 := by
    simpa [isRefOpcode] using href
  have hno : op ≠ 0x4C ∧ op ≠ 0x4D ∧ op ≠ 0x4E := by
    refine ⟨?_, ?_, ?_⟩ <;> (intro h; subst h; exact absurd href (by decide))
  have hdir : ¬ (0x01 ≤ op ∧ op ≤ 0x4B) := by
    intro h
    have h1 : (0xD0 : UInt8).toNat ≤ op.toNat := hbound.1
    have h2 : op.toNat ≤ (0x4B : UInt8).toNat := h.2
    have h3 : (0xD0 : UInt8).toNat = 208 := rfl
    have h4 : (0x4B : UInt8).toNat = 75 := rfl
    omega
  simp only [pushRefsWidth, hpush, hdir, hno, if_false, Bool.false_eq_true]

/-- Elsewhere the lengths are read alike, but a missing one raises only for
PUSHDATA1. -/
theorem pushRefsWidth_plain (pos : Nat) (rest : Bytes) (href : isRefOpcode op = false) :
    (op = 0x4C ∧ rest = []) ∨ ∃ w, pushRefsWidth pos op rest = .ok w ∧
      (opWidth op rest = some w ∨ rest.length + 1 ≤ w ∧ opWidth op rest = none) := by
  have hpush : isPushRef op = false := by
    unfold isPushRef
    rw [Bool.or_eq_false_iff]
    refine ⟨?_, ?_⟩ <;> (rw [beq_eq_false_iff_ne]; intro h; subst h; exact absurd href (by decide))
  simp only [pushRefsWidth, opWidth, hpush, href, if_false, Bool.false_eq_true]
  -- the widths of a push, where only a bare `OP_PUSHDATA1` raises
  by_cases hdir : 0x01 ≤ op ∧ op ≤ 0x4B
  · simp only [hdir, and_self, if_true]
    exact .inr ⟨_, rfl, .inl rfl⟩
  · simp only [hdir, if_false]
    by_cases h1 : op = 0x4C
    · simp only [h1, if_true]
      cases rest with
      | nil => exact .inl ⟨trivial, rfl⟩
      | cons n r => exact .inr ⟨_, rfl, .inl rfl⟩
    · simp only [h1, if_false]
      by_cases h2 : op = 0x4D
      · simp only [h2, if_true]
        refine .inr ⟨_, rfl, ?_⟩
        by_cases hlen : rest.length < 2
        · exact .inr ⟨by omega, if_pos hlen⟩
        · exact .inl (if_neg hlen)
      · simp only [h2, if_false]
        by_cases h4 : op = 0x4E
        · simp only [h4, if_true]
          refine .inr ⟨_, rfl, ?_⟩
          by_cases hlen : rest.length < 4
          · exact .inr ⟨by omega, if_pos hlen⟩
          · exact .inl (if_neg hlen)
        · simp only [h4, if_false]
          exact .inr ⟨1, rfl, .inl rfl⟩

/-- Where the strict walker steps, the plain width agrees. -/
theorem opWidth_of_iterWidth {w : Nat} (h : iterWidth op rest = some w) :
    opWidth op rest = some w :=
  (Option.filter_eq_some_iff.mp h).1

/-- Every pushing reference opcode carries a reference. -/
theorem isRefOpcode_of_isPushRef (h : isPushRef op = true) :
    isRefOpcode op = true := by
  simp only [isPushRef, Bool.or_eq_true, beq_iff_eq] at h
  rcases h with rfl | rfl <;> rfl

/-- Where `iter_input_refs` goes on, `_get_push_refs` goes as far unless the
opcode is a ref opcode it does not know. -/
theorem pushRefsWidth_of_iterWidth {w : Nat} (pos : Nat)
    (h : iterWidth op rest = some w)
    (hop : isRefOpcode op = true → isPushRef op = true) :
    pushRefsWidth pos op rest = .ok w := by
  have hw := opWidth_of_iterWidth h
  cases href : isRefOpcode op with
  | true =>
    have hfit : w = 37 ∧ w ≤ rest.length + 1 := by
      rw [opWidth, if_pos href, Option.some.injEq] at hw
      exact ⟨hw.symm, (iterWidth_eq_some.mp h).2.2⟩
    unfold pushRefsWidth
    rw [if_pos (hop href), if_neg (by omega), hfit.1]
  | false =>
    rcases pushRefsWidth_plain pos rest href with ⟨rfl, rfl⟩ | ⟨v, hv, hcase⟩
    · cases hw
    · rw [hv]
      rcases hcase with hcase | ⟨-, hcase⟩
      · rw [hw] at hcase
        exact congrArg _ (Option.some.inj hcase).symm
      · rw [hw] at hcase
        cases hcase

/-- Where it steps, the separator walker steps alike. -/
theorem bdWidth_of_iterWidth {w : Nat} (h : iterWidth op rest = some w)
    (hop : isRefOpcode op = true → isPushRef op = true) :
    bdWidth op rest = some w := by
  rw [← opWidth_of_iterWidth h, bdWidth, opWidth]
  cases href : isRefOpcode op with
  | true =>
    have hmem : op ∈ refOps := by
      have hp := hop href
      simp only [isPushRef, Bool.or_eq_true, beq_iff_eq] at hp
      rcases hp with rfl | rfl <;> decide
    rw [if_pos hmem, if_pos rfl]
  | false =>
    have hmem : op ∉ refOps := by
      intro hm
      simp only [refOps, List.mem_cons, List.not_mem_nil, or_false] at hm
      rcases hm with rfl | rfl | rfl | rfl | rfl <;> cases href
    rw [if_neg hmem, if_neg Bool.false_ne_true]

end OneInstruction

/-! ## Whole scripts -/

section Runs

variable {op : UInt8} {rest : Bytes} {pos fuel w : Nat}

theorem visits_some {width : Nat → UInt8 → Bytes → Option Nat}
    (h : width pos op rest = some w) :
    visits width (fuel + 1) pos (op :: rest) =
      (pos, op) :: visits width fuel (pos + w) ((op :: rest).drop w) := by
  rw [visits, h]

/-- A walk that cannot step ends there. -/
theorem visits_none {width : Nat → UInt8 → Bytes → Option Nat}
    (h : width pos op rest = none) :
    visits width (fuel + 1) pos (op :: rest) = [(pos, op)] := by
  rw [visits, h]

/-- A walk that goes on inside the script stops somewhere. -/
theorem visits_ne_nil {width : Nat → UInt8 → Bytes → Option Nat}
    {script : Bytes}
    (h : script ≠ []) : ∃ op stops, visits width (fuel + 1) pos script = (pos,
      op) :: stops := by
  cases script with
  | nil => exact absurd rfl h
  | cons op rest => exact ⟨op, _, rfl⟩

/-- One turn of the strict walker, with the reference it collects. -/
theorem iterInputRefs_some (fuel : Nat) (h : iterWidth op rest = some w) :
    iterInputRefs.go (fuel + 1)
      (op :: rest) = (iterInputRefs.go fuel ((op :: rest).drop w)).map
      fun refs => if isRefOpcode op then (op, rest.take 36) :: refs
        else refs := by
  have hw := opWidth_of_iterWidth h
  have hfit := (iterWidth_eq_some.mp h).2.2
  rw [iterInputRefs.go]
  cases href : isRefOpcode op with
  | true =>
    rw [opWidth, if_pos href, Option.some.injEq] at hw
    subst hw
    have hlen : ¬ rest.length < 36 := by omega
    simp only [if_true, refuseIf, if_neg hlen, ok_bind, List.drop_succ_cons]
    cases iterInputRefs.go fuel (rest.drop 36) with
    | ok refs => rfl
    | error e => rfl
  | false =>
    have hle : ¬ w > rest.length + 1 := by omega
    simp only [Bool.false_eq_true, if_false, hw, refuseIf, if_neg hle, ok_bind]
    cases iterInputRefs.go fuel ((op :: rest).drop w) with
    | ok refs => rfl
    | error e => rfl

/-- Where it cannot step it raises. -/
theorem iterInputRefs_none (fuel : Nat) (h : iterWidth op rest = none) :
    ∃ e, iterInputRefs.go (fuel + 1) (op :: rest) = .error e := by
  rw [iterInputRefs.go]
  rw [iterWidth, Option.filter_eq_none_iff] at h
  cases href : isRefOpcode op with
  | true =>
    have hlen : rest.length < 36 := by
      have h37 := h 37 (by rw [opWidth, if_pos href])
      simp only [decide_eq_true_eq] at h37
      omega
    simp only [if_true, refuseIf, if_pos hlen]
    exact ⟨_, rfl⟩
  | false =>
    simp only [Bool.false_eq_true, if_false]
    cases hw : opWidth op rest with
    | none => exact ⟨_, rfl⟩
    | some w =>
      have hgt : w > rest.length + 1 := by
        have := h w hw
        simp only [decide_eq_true_eq] at this
        omega
      simp only [refuseIf, if_pos hgt]
      exact ⟨_, rfl⟩

/-- One turn of the push-reference walker. -/
theorem pushRefsWalk_ok (fuel : Nat) (h : pushRefsWidth pos op rest = .ok w) :
    pushRefsWalk (fuel + 1) pos (op :: rest) =
      (pushRefsWalk fuel (pos + w) ((op :: rest).drop w)).map
        fun refs => if isPushRef op then rest.take 36 :: refs else refs := by
  rw [pushRefsWalk, h, ok_bind]
  cases pushRefsWalk fuel (pos + w) ((op :: rest).drop w) with
  | ok refs => rfl
  | error e => rfl

theorem pushRefsWalk_nil : pushRefsWalk fuel pos [] = .ok [] := by
  cases fuel <;> rfl

/-- `_opcode_bd_positions` reports the `0xbd` opcodes of its own walk. -/
theorem bdWalk_eq (fuel pos : Nat) (script : Bytes) :
    bdWalk fuel pos script = bdsOf (bdVisits fuel pos script) := by
  induction fuel generalizing pos script with
  | zero => rfl
  | succ k ih =>
    cases script with
    | nil => rfl
    | cons op rest =>
      have hhead : ∀ stops, bdsOf ((pos, op) :: stops) =
          (if op = 0xBD then [pos] else []) ++ bdsOf stops := by
        intro stops
        by_cases hop : op = 0xBD
        · subst hop
          rfl
        · have hbeq : (op == 0xBD) = false := beq_eq_false_iff_ne.mpr hop
          simp only [bdsOf, List.filter_cons, hbeq, if_neg hop, List.nil_append,
            Bool.false_eq_true, if_false]
      rw [bdWalk, bdVisits, visits, hhead]
      cases bdWidth op rest with
      | none => rfl
      | some w => exact congrArg _ (ih _ _)

/-- What the walkers owe each other on a script, from any position on. -/
structure Alike (fuel pos : Nat) (script : Bytes) : Prop where
  push : pushVisits fuel pos script = iterVisits fuel pos script
  bd : bdVisits fuel pos script = iterVisits fuel pos script
  refs : ∀ refs, iterInputRefs.go fuel script = .ok refs →
    pushRefsWalk fuel pos script = .ok (pushedOf refs)
  raises : ∀ e, iterInputRefs.go fuel script = .error e →
    ∃ e', pushRefsWalk fuel pos script = .error e'

/-- One instruction further. -/
theorem Alike.cons (i : Instr) {r : Bytes}
    (hi : isRefOpcode i.op = true → isPushRef i.op = true)
    (h : Alike fuel (pos + i.bytes.length) r) :
    Alike (fuel + 1) pos (i.bytes ++ r) := by
  have hiter := iterWidth_instr i r
  have hpush := pushRefsWidth_of_iterWidth pos hiter hi
  have hbd := bdWidth_of_iterWidth hiter hi
  have hgo := iterInputRefs_some fuel hiter
  have hwalk := pushRefsWalk_ok fuel hpush
  rw [i.drop_bytes] at hgo hwalk
  have hbytes : i.bytes ++ r = i.op :: (i.size ++ i.operand ++ r) := rfl
  have hivis : iterVisits (fuel + 1) pos (i.bytes ++ r) =
      (pos, i.op) :: iterVisits fuel (pos + i.bytes.length) r := by
    rw [hbytes, iterVisits, visits_some hiter, i.drop_bytes]
  have hpvis : pushVisits (fuel + 1) pos (i.bytes ++ r) =
      (pos, i.op) :: pushVisits fuel (pos + i.bytes.length) r := by
    rw [hbytes, pushVisits, visits_some (by rw [hpush]; rfl), i.drop_bytes]
  have hbvis : bdVisits (fuel + 1) pos (i.bytes ++ r) =
      (pos, i.op) :: bdVisits fuel (pos + i.bytes.length) r := by
    rw [hbytes, bdVisits, visits_some hbd, i.drop_bytes]
  refine ⟨by rw [hpvis, hivis, h.push], by rw [hbvis, hivis, h.bd], ?_, ?_⟩
  · intro refs hrefs
    rw [hbytes, hgo] at hrefs
    cases hr : iterInputRefs.go fuel r with
    | error e => rw [hr] at hrefs; cases hrefs
    | ok rs =>
      rw [hr] at hrefs
      rw [hbytes, hwalk, h.refs rs hr, ← Except.ok.inj hrefs]
      -- the operand is kept by both or by neither
      cases hp : isPushRef i.op with
      | true => simp [Except.map, isRefOpcode_of_isPushRef hp, pushedOf, hp]
      | false =>
        have href : isRefOpcode i.op = false := by
          cases href : isRefOpcode i.op with
          | false => rfl
          | true => rw [hi href] at hp; cases hp
        simp [Except.map, href]
  · intro e he
    rw [hbytes, hgo] at he
    cases hr : iterInputRefs.go fuel r with
    | ok rs => rw [hr] at he; cases he
    | error e' =>
      obtain ⟨e'', he''⟩ := h.raises e' hr
      exact ⟨e'', by rw [hbytes, hwalk, he'']; rfl⟩

theorem Cut.alike {tail : Bytes} (h : Cut tail) (hfuel : tail.length ≤ fuel) :
    Alike fuel pos tail := by
  -- a script ends whole, in a bare `OP_PUSHDATA1`, or inside a reference
  cases h with
  | whole =>
    cases fuel with
    | zero =>
      exact ⟨rfl, rfl, fun refs h => by cases h; rfl, fun e h => by cases h⟩
    | succ k =>
      exact ⟨rfl, rfl, fun refs h => by cases h; rfl, fun e h => by cases h⟩
  | pushData1 =>
    obtain ⟨k, rfl⟩ : ∃ k, fuel = k + 1 :=
      ⟨fuel - 1, by rw [List.length_singleton] at hfuel; omega⟩
    refine ⟨rfl, rfl, fun refs h => ?_, fun e _ => ⟨_, rfl⟩⟩
    have hiter : iterWidth 0x4C [] = none := rfl
    obtain ⟨e, he⟩ := iterInputRefs_none k hiter
    rw [he] at h
    cases h
  | pushRef op rest hop hlen =>
    obtain ⟨k, rfl⟩ : ∃ k, fuel = k + 1 :=
      ⟨fuel - 1, by rw [List.length_cons] at hfuel; omega⟩
    have href := isRefOpcode_of_isPushRef hop
    have hiter : iterWidth op rest = none := by
      unfold iterWidth opWidth
      rw [if_pos href, Option.filter_some, if_neg]
      simp only [decide_eq_true_eq]
      omega
    have hpush : ∃ e, pushRefsWidth pos op rest = .error e := by
      unfold pushRefsWidth
      rw [if_pos hop, if_pos hlen]
      exact ⟨_, rfl⟩
    have hbd : bdWidth op rest = some 37 := by
      simp only [isPushRef, Bool.or_eq_true, beq_iff_eq] at hop
      rcases hop with rfl | rfl <;> rfl
    obtain ⟨e, he⟩ := hpush
    have hdrop : (op :: rest).drop 37 = [] := by
      rw [List.drop_eq_nil_iff, List.length_cons]
      omega
    refine ⟨?_, ?_, ?_, ?_⟩
    · rw [pushVisits, visits_none (by rw [he]; rfl), iterVisits,
        visits_none hiter]
    · rw [bdVisits, visits_some hbd, hdrop, iterVisits, visits_none hiter]
      cases k <;> rfl
    · intro refs h
      obtain ⟨e', he'⟩ := iterInputRefs_none k hiter
      rw [he'] at h
      cases h
    · intro e' _
      exact ⟨e, by rw [pushRefsWalk, he]; rfl⟩

theorem Plain.alike {script : Bytes} (h : Plain script)
    (hfuel : script.length ≤ fuel) :
    Alike fuel pos script := by
  obtain ⟨instrs, tail, rfl, hinstrs, hcut⟩ := h
  induction instrs generalizing fuel pos with
  | nil => exact hcut.alike hfuel
  | cons i instrs ih =>
    rw [List.flatMap_cons, List.append_assoc] at hfuel ⊢
    have hi : 1 ≤ i.bytes.length := by
      rw [Instr.bytes, List.length_cons]
      omega
    rw [List.length_append] at hfuel
    obtain ⟨k, rfl⟩ : ∃ k, fuel = k + 1 := ⟨fuel - 1, by omega⟩
    exact Alike.cons i (hinstrs i List.mem_cons_self)
      (ih (by omega) fun j hj => hinstrs j (List.mem_cons_of_mem _ hj))

/-- Scripts on which two of the walkers keep together, and raise together, are
plain. -/
theorem plain_of_agree : ∀ {fuel pos : Nat}
    {script : Bytes}, script.length ≤ fuel →
    pushVisits fuel pos script = iterVisits fuel pos script →
    (∀ e, iterInputRefs.go fuel script = .error e →
      ∃ e', pushRefsWalk fuel pos script = .error e') → Plain script := by
  intro fuel
  induction fuel with
  | zero =>
    intro pos script hlen _ _
    rw [List.eq_nil_of_length_eq_zero (Nat.le_zero.mp hlen)]
    exact ⟨[], [], rfl, List.forall_mem_nil _, Cut.whole⟩
  | succ k ih =>
    intro pos script hlen hvis hraise
    obtain _ | ⟨op, rest⟩ := script
    · exact ⟨[], [], rfl, List.forall_mem_nil _, Cut.whole⟩
    have hk : rest.length ≤ k := by
      rw [List.length_cons] at hlen
      omega
    -- a ref opcode that pushes nothing puts the two walks apart
    have hop : isRefOpcode op = true → isPushRef op = true := by
      intro href
      by_contra hpush
      have hpush : isPushRef op = false := by simpa using hpush
      have hone := pushRefsWidth_other pos rest href hpush
      obtain _ | ⟨next, rest⟩ := rest
      · have hiter : iterWidth op [] = none := by
          rw [iterWidth, opWidth, if_pos href]
          rfl
        obtain ⟨e, he⟩ := iterInputRefs_none k hiter
        obtain ⟨e', he'⟩ := hraise e he
        rw [pushRefsWalk_ok k hone, List.drop_one, List.tail_cons,
          pushRefsWalk_nil] at he'
        cases he'
      · obtain ⟨k', rfl⟩ : ∃ k', k = k' + 1 :=
          ⟨k - 1, by rw [List.length_cons] at hk; omega⟩
        have hp : pushVisits (k' + 1 + 1) pos (op :: next :: rest) = (pos,
            op) ::
            pushVisits (k' + 1) (pos + 1) (next :: rest) := by
          rw [pushVisits, visits_some (by rw [hone]; rfl)]
          rfl
        obtain ⟨op', stops, hs⟩ : ∃ op' stops,
          pushVisits (k' + 1) (pos + 1) (next :: rest) =
            (pos + 1, op') :: stops :=
              visits_ne_nil (List.cons_ne_nil next rest)
        rw [hp, hs] at hvis
        cases hw : iterWidth op (next :: rest) with
        | none =>
          rw [iterVisits, visits_none hw] at hvis
          cases hvis
        | some w =>
          have h37 := opWidth_of_iterWidth hw
          rw [opWidth, if_pos href, Option.some.injEq] at h37
          rw [iterVisits, visits_some hw, List.cons.injEq] at hvis
          cases hd : (op :: next :: rest).drop w with
          | nil => rw [hd] at hvis; cases hvis.2
          | cons op'' rest'' =>
            rw [hd, visits, List.cons.injEq] at hvis
            have hpos := (Prod.mk.inj hvis.2.1).1
            omega
    cases hw : iterWidth op rest with
    | some w =>
      obtain ⟨i, r, rfl, rfl, rfl⟩ := instr_of_iterWidth hw
      have hpush := pushRefsWidth_of_iterWidth pos hw hop
      rw [pushVisits, visits_some (by rw [hpush]; rfl), iterVisits,
        visits_some hw, List.cons.injEq,
        i.drop_bytes] at hvis
      have hrlen : r.length ≤ k := by
        rw [List.length_append] at hk
        omega
      obtain ⟨instrs, tail, rfl, hinstrs, hcut⟩ := ih hrlen hvis.2 (by
        intro e he
        obtain ⟨e', he'⟩ :=
          hraise e (by rw [iterInputRefs_some k hw, i.drop_bytes, he]; rfl)
        rw [pushRefsWalk_ok k hpush, i.drop_bytes] at he'
        cases hr : pushRefsWalk k (pos + i.bytes.length) r with
        | error e'' => exact ⟨e'', rfl⟩
        | ok refs => rw [hr] at he'; cases he')
      refine ⟨i :: instrs, tail, ?_, ?_, hcut⟩
      · rw [List.flatMap_cons, List.append_assoc i.bytes]
        rfl
      · exact List.forall_mem_cons.mpr ⟨hop, hinstrs⟩
    | none =>
      refine ⟨[], op :: rest, rfl, List.forall_mem_nil _, ?_⟩
      cases href : isRefOpcode op with
      | true =>
        refine Cut.pushRef op rest (hop href) ?_
        rw [iterWidth, opWidth, if_pos href, Option.filter_eq_none_iff] at hw
        have h37 := hw 37 rfl
        simp only [decide_eq_true_eq] at h37
        omega
      | false =>
        rcases pushRefsWidth_plain pos rest href with ⟨rfl,
          rfl⟩ | ⟨w, hok, hcase⟩
        · exact Cut.pushData1
        · -- a push cut short ends the other walk without a word
          exfalso
          have hbig : rest.length + 1 ≤ w := by
            rcases hcase with hsome | ⟨hbig, -⟩
            · rw [iterWidth, Option.filter_eq_none_iff] at hw
              have := hw w hsome
              simp only [decide_eq_true_eq] at this
              omega
            · exact hbig
          obtain ⟨e, he⟩ := iterInputRefs_none k hw
          obtain ⟨e', he'⟩ := hraise e he
          have hdrop : (op :: rest).drop w = [] := by
            rw [List.drop_eq_nil_iff, List.length_cons]
            exact hbig
          rw [pushRefsWalk_ok k hok, hdrop, pushRefsWalk_nil] at he'
          cases he'

end Runs

/-! ## The main theorem -/

/-- The entry point raises exactly when its walk does. -/
theorem getPushRefs_error {script : Bytes} :
    (∃ e, getPushRefs script = .error e) ↔
    ∃ e, pushRefsWalk script.length 0 script = .error e := by
  unfold getPushRefs
  cases pushRefsWalk script.length 0 script with
  | ok refs =>
    constructor
    · intro h
      obtain ⟨e, he⟩ := h
      cases he
    · intro h
      obtain ⟨e, he⟩ := h
      cases he
  | error e => exact ⟨fun _ => ⟨e, rfl⟩, fun _ => ⟨e, rfl⟩⟩

/-- **Segmentation.** The three walkers keep together on the plain scripts and
on no others. -/
theorem walkers_segment_alike (script : Bytes) : SegmentAlike script ↔
    Plain script := by
  constructor
  · intro h
    refine plain_of_agree (Nat.le_refl _) h.push ?_
    intro e he
    exact getPushRefs_error.mp (h.raises e he)
  · intro h
    have ha : Alike script.length 0 script := h.alike (Nat.le_refl _)
    refine ⟨ha.push, ha.bd, ?_, ?_, ?_⟩
    · intro refs hrefs
      rw [getPushRefs, ha.refs refs hrefs]
      rfl
    · intro refs _
      rw [opcodeBdPositions, bdWalk_eq, ha.bd]
    · intro e he
      exact getPushRefs_error.mpr (ha.raises e he)

/-- `OP_REQUIREINPUTREF` with its operand, which starts with the byte of a
pushed ref. -/
def requireRefScript : Bytes := [0xD1, 0xD0] ++ List.replicate 35 0 ++ [0]

/-- The ref in front of the preimage is one no opcode of the script pushes. -/
theorem walkers_not_alike_requireRefScript :
    iterInputRefs requireRefScript = .ok [(0xD1, 0xD0 :: List.replicate 35 0)] ∧
      getPushRefs requireRefScript = .ok [List.replicate 36 0] ∧
      ¬ SegmentAlike requireRefScript := by
  have hiter : iterInputRefs requireRefScript =
      .ok [(0xD1, 0xD0 :: List.replicate 35 0)] := by
    decide
  have hpush : getPushRefs requireRefScript =
      .ok [List.replicate 36 0] := by decide
  refine ⟨hiter, hpush, ?_⟩
  intro h
  have hrefs := h.refs _ hiter
  rw [hpush] at hrefs
  exact absurd hrefs (by decide)

end Pyrxd.Glyph
