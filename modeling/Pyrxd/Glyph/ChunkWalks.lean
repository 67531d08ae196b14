import Pyrxd.Glyph.RefWalkers
import Pyrxd.Lib.ScriptCode

/-!
# The walkers over chunks

Code that was put together from chunks is walked chunk by chunk: every walker
stops at the head of each and at nothing inside, so what they report can be read
off the chunks.
-/

namespace Pyrxd.Glyph

open Pyrxd.Lib Pyrxd.Tx

/-- A chunk that all the walkers know: its ref opcode is one that pushes the
ref. -/
def Walked (t : Chunk) : Prop := t.Ok ∧ ∀ code r, t = .ref code r →
  isPushRef code = true

/-- An opcode with a 36-byte reference behind it is among `d0` to `d8`. -/
theorem carriesRef_isRefOpcode {code : UInt8} (h : carriesRef code = true) :
    isRefOpcode code = true := by
  simp only [carriesRef, decide_eq_true_eq, List.mem_cons, List.not_mem_nil,
    or_false] at h
  rcases h with rfl | rfl | rfl | rfl | rfl <;> rfl

/-- Outside that range nothing is a reference opcode. -/
theorem not_isRefOpcode {code : UInt8} (h : ¬ (0xD0 ≤ code ∧ code ≤ 0xD8)) :
    isRefOpcode code = false := by
  rw [isRefOpcode, Bool.and_eq_false_iff, decide_eq_false_iff_not,
    decide_eq_false_iff_not]
  exact Classical.not_and_iff_not_or_not.mp h

/-- Not an opcode of a push. -/
theorem ne_push_of_op {code : UInt8} (h : code = 0 ∨ 0x4E < code) :
    ¬ (0x01 ≤ code ∧ code ≤ 0x4B) ∧ code ≠ 0x4C ∧ code ≠ 0x4D ∧
    code ≠ 0x4E := by
  rcases h with rfl | h
  · decide
  · have hgt : 78 < code.toNat := h
    refine ⟨fun hc => ?_, ?_, ?_, ?_⟩
    · have hle : code.toNat ≤ 75 := hc.2
      omega
    · intro he
      rw [he] at hgt
      exact absurd hgt (by decide)
    · intro he
      rw [he] at hgt
      exact absurd hgt (by decide)
    · intro he
      rw [he] at hgt
      exact absurd hgt (by decide)

/-- The opcode of a push. -/
theorem push_head {n : Nat} (h1 : 1 ≤ n) (h75 : n ≤ 75) :
    (UInt8.ofNat n).toNat = n ∧ (0x01 ≤ UInt8.ofNat n ∧ UInt8.ofNat n ≤ 0x4B) ∧
      isRefOpcode (UInt8.ofNat n) = false ∧ UInt8.ofNat n ≠ 0x4C ∧
        UInt8.ofNat n ≠ 0x4D ∧
      UInt8.ofNat n ≠ 0x4E := by
  have hall : ∀ n ≤ 75, 1 ≤ n → (UInt8.ofNat n).toNat = n ∧
      (0x01 ≤ UInt8.ofNat n ∧ UInt8.ofNat n ≤ 0x4B) ∧
        isRefOpcode (UInt8.ofNat n) = false ∧
      UInt8.ofNat n ≠ 0x4C ∧ UInt8.ofNat n ≠ 0x4D ∧
        UInt8.ofNat n ≠ 0x4E := by decide
  exact hall n h75 h1

/-- A chunk is a complete instruction. -/
theorem exists_instr {t : Chunk} (h : t.Ok) :
    ∃ i : Instr, i.bytes = t.bytes := by
  -- the length bytes of a chunk are those of an instruction
  cases t with
  | op code =>
    obtain ⟨hop, href⟩ : (code = 0 ∨ 0x4E < code) ∧
        ¬ (0xD0 ≤ code ∧ code ≤ 0xD8) := h
    obtain ⟨hdir, h1, h2, h4⟩ := ne_push_of_op hop
    refine ⟨⟨code, [], [], ?_, ?_⟩, rfl⟩
    · simp [lenBytes, h1, h2, h4]
    · simp only [operandLen, not_isRefOpcode href, Bool.false_eq_true,
        hdir, if_false]
      rfl
  | data d =>
    obtain ⟨hpos, hlen⟩ : 1 ≤ d.length ∧ d.length ≤ 0xFFFF := h
    rw [Chunk.bytes, pushBytes]
    by_cases h75 : d.length ≤ 75
    · obtain ⟨hnat, hdir, href, h1, h2, h4⟩ := push_head hpos h75
      rw [if_pos h75]
      refine ⟨⟨UInt8.ofNat d.length, [], d, ?_, ?_⟩, rfl⟩
      · simp [lenBytes, h1, h2, h4]
      · rw [operandLen, href, if_neg Bool.false_ne_true, if_pos hdir, hnat]
    · rw [if_neg h75]
      by_cases h255 : d.length ≤ 255
      · rw [if_pos h255]
        refine ⟨⟨0x4C, [UInt8.ofNat d.length], d, rfl, ?_⟩, rfl⟩
        have hval : leNat [UInt8.ofNat d.length] = d.length := by
          rw [leNat_singleton, UInt8.toNat_ofNat']
          omega
        exact hval.symm
      · rw [if_neg h255]
        refine ⟨⟨0x4D, leBytes 2 d.length, d, length_leBytes 2 _, ?_⟩, rfl⟩
        have hval : leNat (leBytes 2 d.length) = d.length :=
          leNat_leBytes (by omega)
        exact hval.symm
  | ref code r =>
    obtain ⟨hcode, hlen⟩ : carriesRef code = true ∧ r.length = 36 := h
    have href := carriesRef_isRefOpcode hcode
    refine ⟨⟨code, [], r, ?_, ?_⟩, rfl⟩
    · have hall : ([0xD0, 0xD1, 0xD2, 0xD3, 0xD8] : List UInt8).all
          (lenBytes · == 0) = true := by decide
      exact (beq_iff_eq.mp (List.all_eq_true.mp hall code
        (of_decide_eq_true hcode))).symm
    · rw [operandLen, if_pos href, hlen]

/-- A well-formed chunk that opens with a reference opcode carries a reference.
-/
theorem isRefOpcode_head {t : Chunk} (h : t.Ok) :
    isRefOpcode t.head = true ↔ ∃ code r, t = .ref code r := by
  cases t with
  | op code =>
    have href : isRefOpcode code = false := not_isRefOpcode h.2
    show isRefOpcode code = true ↔ _
    simp [href]
  | data d =>
    obtain ⟨hpos, hlen⟩ : 1 ≤ d.length ∧ d.length ≤ 0xFFFF := h
    have hno : isRefOpcode (Chunk.data d).head = false := by
      show isRefOpcode ((pushBytes d).headD 0) = false
      rw [pushBytes]
      by_cases h75 : d.length ≤ 75
      · rw [if_pos h75]
        exact (push_head hpos h75).2.2.1
      · rw [if_neg h75]
        split <;> rfl
    simp [hno]
  | ref code r =>
    have href := carriesRef_isRefOpcode h.1
    show isRefOpcode code = true ↔ _
    simp [href]

/-- The first walk, one chunk on. -/
theorem bdWalk_chunk {t : Chunk} (h : Walked t) (fuel pos : Nat) (r : Bytes) :
    bdWalk (fuel + 1) pos (t.bytes ++ r) =
      (if t.head = 0xBD then [pos] else []) ++
        bdWalk fuel (pos + t.bytes.length) r := by
  obtain ⟨i, hi⟩ := exists_instr h.1
  have hop : i.op = t.head := by
    rw [Chunk.head, ← hi]
    rfl
  have hpush : isRefOpcode i.op = true → isPushRef i.op = true := by
    intro href
    rw [hop] at href ⊢
    obtain ⟨code, ref, rfl⟩ := (isRefOpcode_head h.1).mp href
    exact h.2 code ref rfl
  have hwidth := bdWidth_of_iterWidth (iterWidth_instr i r) hpush
  rw [← hi, ← hop]
  have hbytes : i.bytes ++ r = i.op :: (i.size ++ i.operand ++ r) := rfl
  rw [hbytes, bdWalk, hwidth]
  dsimp only
  rw [i.drop_bytes]

/-- The second walk, one chunk on. -/
theorem iterInputRefs_chunk {t : Chunk} (h : t.Ok) (fuel : Nat) (r : Bytes) :
    iterInputRefs.go (fuel + 1) (t.bytes ++ r) =
      (iterInputRefs.go fuel r).map fun refs => match t with
        | .ref code ref => (code, ref) :: refs
        | _ => refs := by
  obtain ⟨i, hi⟩ := exists_instr h
  have hop : i.op = t.head := by
    rw [Chunk.head, ← hi]
    rfl
  have hgo := iterInputRefs_some fuel (iterWidth_instr i r)
  rw [i.drop_bytes] at hgo
  have hbytes : t.bytes ++ r =
      i.op :: (i.size ++ i.operand ++ r) := by rw [← hi]; rfl
  rw [hbytes, hgo, hop]
  cases t with
  | ref code ref =>
    have href : isRefOpcode (Chunk.ref code ref).head = true :=
      (isRefOpcode_head h).mpr ⟨code, ref, rfl⟩
    have htail : i.size ++ i.operand ++ r = ref ++ r := by
      have hcons : (Chunk.ref code ref).bytes ++ r = code :: (ref ++ r) := rfl
      rw [hcons] at hbytes
      exact (List.cons.inj hbytes).2.symm
    have htake : (ref ++ r).take 36 = ref := List.take_left' h.2
    simp only [href, if_true, htail, htake]
    rfl
  | op code =>
    have href : ¬ isRefOpcode (Chunk.op code).head = true := fun hc => by
      obtain ⟨_, _, hne⟩ := (isRefOpcode_head h).mp hc
      cases hne
    simp only [href, Bool.false_eq_true, if_false]
  | data d =>
    have href : ¬ isRefOpcode (Chunk.data d).head = true := fun hc => by
      obtain ⟨_, _, hne⟩ := (isRefOpcode_head h).mp hc
      cases hne
    simp only [href, Bool.false_eq_true, if_false]

/-- The refs among the chunks. -/
def refsOf (ts : List Chunk) : List (UInt8 × Bytes) :=
  ts.filterMap fun
    | .ref code r => some (code, r)
    | _ => none

@[simp] theorem refsOf_nil : refsOf [] = [] := rfl

@[simp] theorem refsOf_op (code : UInt8) (ts : List Chunk) :
    refsOf (.op code :: ts) = refsOf ts := rfl

@[simp] theorem refsOf_data (d : Bytes) (ts : List Chunk) :
    refsOf (.data d :: ts) = refsOf ts := rfl

@[simp] theorem refsOf_ref (code : UInt8) (r : Bytes) (ts : List Chunk) :
    refsOf (.ref code r :: ts) = (code, r) :: refsOf ts := rfl

/-- The references of two scripts, one behind the other. -/
@[simp] theorem refsOf_append (a b : List Chunk) :
    refsOf (a ++ b) = refsOf a ++ refsOf b :=
  List.filterMap_append

/-- **What `iter_input_refs` finds are the refs.** -/
theorem iterInputRefs_assemble {ts : List Chunk} (h : ∀ t ∈ ts, t.Ok) :
    iterInputRefs (assembleCode ts) = .ok (refsOf ts) := by
  have hgo : ∀ fuel, (assembleCode ts).length ≤ fuel →
      iterInputRefs.go fuel (assembleCode ts) = .ok (refsOf ts) := by
    induction ts with
    | nil => intro fuel _; cases fuel <;> rfl
    | cons t ts ih =>
      intro fuel hfuel
      have happ : assembleCode (t :: ts) = t.bytes ++ assembleCode ts := rfl
      have hpos : 0 < t.bytes.length := List.length_pos_iff.mpr t.bytes_ne_nil
      rw [happ, List.length_append] at hfuel
      obtain ⟨k, rfl⟩ : ∃ k, fuel = k + 1 := ⟨fuel - 1, by omega⟩
      rw [happ, iterInputRefs_chunk (h t List.mem_cons_self),
        ih (fun u hu => h u (List.mem_cons_of_mem _ hu)) k (by omega)]
      cases t <;> rfl
  exact hgo _ (Nat.le_refl _)

/-- Chunks that every walker steps over alike are plain. -/
theorem plain_assemble {ts : List Chunk} (h : ∀ t ∈ ts, Walked t) :
    Plain (assembleCode ts) := by
  induction ts with
  | nil => exact ⟨[], [], rfl, List.forall_mem_nil _, .whole⟩
  | cons t ts ih =>
    obtain ⟨instrs, tail, hcode, hinstrs, hcut⟩ :=
      ih fun u hu => h u (List.mem_cons_of_mem _ hu)
    have ht := h t List.mem_cons_self
    obtain ⟨i, hi⟩ := exists_instr ht.1
    have hop : i.op = t.head := by
      rw [Chunk.head, ← hi]
      rfl
    refine ⟨i :: instrs, tail, ?_, ?_, hcut⟩
    · rw [List.flatMap_cons, List.append_assoc, ← hcode, hi]
      rfl
    · rw [List.forall_mem_cons]
      refine ⟨fun href => ?_, hinstrs⟩
      rw [hop] at href ⊢
      obtain ⟨code, ref, rfl⟩ := (isRefOpcode_head ht.1).mp href
      exact ht.2 code ref rfl

/-- **What `_get_push_refs` finds are the refs**, sorted. -/
theorem getPushRefs_assemble {ts : List Chunk} (h : ∀ t ∈ ts, Walked t) :
    getPushRefs (assembleCode ts) = .ok (sortRefs (pushedOf (refsOf ts))) :=
  ((walkers_segment_alike _).mpr (plain_assemble h)).refs _
    (iterInputRefs_assemble fun t ht => (h t ht).1)

/-- The positions of the chunks that start with `0xbd`. -/
def bdsOfChunks (pos : Nat) : List Chunk → List Nat
  | [] => []
  | t :: ts =>
    (if t.head = 0xBD then [pos] else []) ++
      bdsOfChunks (pos + t.bytes.length) ts

/-- **What `_opcode_bd_positions` finds are the `0xbd` opcodes.** -/
theorem opcodeBdPositions_assemble {ts : List Chunk} (h : ∀ t ∈ ts, Walked t) :
    opcodeBdPositions (assembleCode ts) = bdsOfChunks 0 ts := by
  have hgo : ∀ fuel pos, (assembleCode ts).length ≤ fuel →
      bdWalk fuel pos (assembleCode ts) = bdsOfChunks pos ts := by
    induction ts with
    | nil => intro fuel pos _; cases fuel <;> rfl
    | cons t ts ih =>
      intro fuel pos hfuel
      have happ : assembleCode (t :: ts) = t.bytes ++ assembleCode ts := rfl
      have hpos : 0 < t.bytes.length := List.length_pos_iff.mpr t.bytes_ne_nil
      rw [happ, List.length_append] at hfuel
      obtain ⟨k, rfl⟩ : ∃ k, fuel = k + 1 := ⟨fuel - 1, by omega⟩
      rw [happ, bdWalk_chunk (h t List.mem_cons_self),
        ih (fun u hu => h u (List.mem_cons_of_mem _ hu)) k _ (by omega),
          bdsOfChunks]
  exact hgo _ 0 (Nat.le_refl _)

/-- The separators of two scripts, the second at its own offset. -/
theorem bdsOfChunks_append (a b : List Chunk) : ∀ pos : Nat,
    bdsOfChunks pos (a ++ b) =
    bdsOfChunks pos a ++ bdsOfChunks (pos + (assembleCode a).length) b := by
  induction a with
  | nil => intro pos; rfl
  | cons t a ih =>
    intro pos
    have happ : assembleCode (t :: a) = t.bytes ++ assembleCode a := rfl
    rw [List.cons_append, bdsOfChunks, ih, bdsOfChunks, happ,
      List.length_append, List.append_assoc,
      Nat.add_assoc]

/-- Without an opening `bd` there is no separator. -/
theorem bdsOfChunks_none {ts : List Chunk}
    (h : ∀ t ∈ ts, t.head ≠ 0xBD) : ∀ pos : Nat,
    bdsOfChunks pos ts = [] := by
  induction ts with
  | nil => intro pos; rfl
  | cons t ts ih =>
    intro pos
    rw [bdsOfChunks, if_neg (h t List.mem_cons_self), List.nil_append]
    exact ih (fun u hu => h u (List.mem_cons_of_mem _ hu)) _

end Pyrxd.Glyph
