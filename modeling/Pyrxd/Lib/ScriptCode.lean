import Pyrxd.Lib.Bytes

/-!
# Script code in chunks

A script is a row of chunks: an opcode, a data push in its shortest form, or an
opcode with a 36-byte ref behind it. The first byte tells them apart and the
lengths tell where they end, so code can be taken apart in one way only
(`assembleCode_injective`), whatever bytes the data and the refs hold.
-/

namespace Pyrxd.Lib

/-- The opcodes that carry a ref. -/
def carriesRef (code : UInt8) : Bool := code ∈ [0xD0, 0xD1, 0xD2, 0xD3, 0xD8]

inductive Chunk where
  | op (code : UInt8)
  | data (d : Bytes)
  | ref (code : UInt8) (r : Bytes)
deriving DecidableEq

/-- A push of up to 64 KB in its shortest form. -/
def pushBytes (d : Bytes) : Bytes :=
  if d.length ≤ 75 then UInt8.ofNat d.length :: d
  else if d.length ≤ 255 then 0x4C :: UInt8.ofNat d.length :: d
  else 0x4D :: (leBytes 2 d.length ++ d)

namespace Chunk

def bytes : Chunk → Bytes
  | op code => [code]
  | data d => pushBytes d
  | ref code r => code :: r

/-- The byte a chunk starts with. -/
def head (t : Chunk) : UInt8 := t.bytes.headD 0

/-- A chunk that is what its first byte says. -/
def Ok : Chunk → Prop
  | op code => (code = 0 ∨ 0x4E < code) ∧ ¬ (0xD0 ≤ code ∧ code ≤ 0xD8)
  | data d => 1 ≤ d.length ∧ d.length ≤ 0xFFFF
  | ref code r => carriesRef code = true ∧ r.length = 36

instance : DecidablePred Ok := fun t =>
  match t with
  | op code =>
    inferInstanceAs (Decidable ((code = 0 ∨ 0x4E < code) ∧
      ¬ (0xD0 ≤ code ∧ code ≤ 0xD8)))
  | data d => inferInstanceAs (Decidable (1 ≤ d.length ∧ d.length ≤ 0xFFFF))
  | ref code r =>
    inferInstanceAs (Decidable (carriesRef code = true ∧ r.length = 36))

end Chunk

/-- The code of a row of chunks. -/
def assembleCode (ts : List Chunk) : Bytes := ts.flatMap Chunk.bytes

theorem assembleCode_append (a b : List Chunk) :
    assembleCode (a ++ b) = assembleCode a ++ assembleCode b :=
  List.flatMap_append

/-- The chunk at the head of some code, and the code behind it. -/
def readChunk : Bytes → Option (Chunk × Bytes)
  | [] => none
  | code :: rest =>
    if carriesRef code then
      if rest.length < 36 then none
        else some (.ref code (rest.take 36), rest.drop 36)
    else if code = 0 ∨ 0x4E < code then some (.op code, rest)
    else
      let width := if code = 0x4C then 1 else if code = 0x4D then 2
        else if code = 0x4E then 4 else 0
      let size := if code < 0x4C then code.toNat else leNat (rest.take width)
      if rest.length < width + size then none
      else some (.data ((rest.drop width).take size),
        (rest.drop width).drop size)

/-- Code in chunks; `none` if the last chunk is cut short. -/
def readCode : Nat → Bytes → Option (List Chunk)
  | _, [] => some []
  | 0, _ :: _ => none
  | fuel + 1, code :: rest => do
    let (t, rest) ← readChunk (code :: rest)
    let ts ← readCode fuel rest
    return t :: ts

section Read

variable {d : Bytes} {rest : Bytes} {t : Chunk}

/-- A push carries no reference. -/
theorem carriesRef_push {code : UInt8} (h : code ≤ 0x4E) : carriesRef code = false := by
  have hle : code.toNat ≤ 78 := h
  rw [carriesRef, decide_eq_false_iff_not]
  intro hmem
  simp only [List.mem_cons, List.not_mem_nil, or_false] at hmem
  rcases hmem with rfl | rfl | rfl | rfl | rfl <;> exact absurd hle (by decide)

theorem readChunk_push (h : (Chunk.data d).Ok) :
    readChunk (pushBytes d ++ rest) = some (.data d, rest) := by
  obtain ⟨hpos, hlen⟩ : 1 ≤ d.length ∧ d.length ≤ 0xFFFF := h
  rw [pushBytes]
  -- the four widths of a push, each read by its own opcode
  by_cases h75 : d.length ≤ 75
  · have hnat : (UInt8.ofNat d.length).toNat = d.length := by
      rw [UInt8.toNat_ofNat']
      omega
    have hle : UInt8.ofNat d.length ≤ 0x4E := by
      show (UInt8.ofNat d.length).toNat ≤ 78
      omega
    have hlt : UInt8.ofNat d.length < 0x4C := by
      show (UInt8.ofNat d.length).toNat < 76
      omega
    have hne : UInt8.ofNat d.length ≠ 0x4C ∧ UInt8.ofNat d.length ≠ 0x4D ∧
        UInt8.ofNat d.length ≠ 0x4E := by
      refine ⟨?_, ?_, ?_⟩ <;> (intro h; rw [h] at hlt; exact absurd hlt (by decide))
    have hop : ¬ (UInt8.ofNat d.length = 0 ∨ 0x4E < UInt8.ofNat d.length) := by
      rintro (h0 | hgt)
      · rw [h0] at hnat
        exact absurd hnat.symm (by rw [show (0 : UInt8).toNat = 0 from rfl]; omega)
      · exact absurd hgt (UInt8.not_lt.mpr hle)
    rw [if_pos h75, List.cons_append, readChunk, carriesRef_push hle,
      if_neg Bool.false_ne_true,
      if_neg hop]
    simp only [hne, if_false, hlt, if_true, hnat, Nat.zero_add, List.drop_zero,
      List.length_append]
    rw [if_neg (by omega), List.take_left, List.drop_left]
  · rw [if_neg h75]
    by_cases h255 : d.length ≤ 255
    · have hval : leNat [UInt8.ofNat d.length] = d.length := by
        rw [leNat_singleton, UInt8.toNat_ofNat']
        omega
      rw [if_pos h255, List.cons_append, readChunk, carriesRef_push (by decide),
        if_neg Bool.false_ne_true, if_neg (by decide)]
      simp only [if_true, if_neg (by decide : ¬ (0x4C : UInt8) < 0x4C),
        List.cons_append,
        List.take_succ_cons, List.take_zero, hval, List.drop_succ_cons,
          List.drop_zero,
        List.length_cons, List.length_append]
      rw [if_neg (by omega), List.take_left, List.drop_left]
    · have hval : leNat (leBytes 2 d.length) = d.length :=
        leNat_leBytes (by omega)
      have htake : (leBytes 2 d.length ++ d ++ rest).take 2 =
          leBytes 2 d.length := by
        rw [List.append_assoc]
        exact List.take_left' (length_leBytes 2 _)
      have hdrop : (leBytes 2 d.length ++ d ++ rest).drop 2 = d ++ rest := by
        rw [List.append_assoc]
        exact List.drop_left' (length_leBytes 2 _)
      rw [if_neg h255, List.cons_append, readChunk, carriesRef_push (by decide),
        if_neg Bool.false_ne_true, if_neg (by decide)]
      simp only [if_neg (by decide : ¬ (0x4D : UInt8) = 0x4C), if_true,
        if_neg (by decide : ¬ (0x4D : UInt8) < 0x4C), htake, hdrop, hval,
          List.length_append,
        length_leBytes]
      rw [if_neg (by omega), List.take_left, List.drop_left]

theorem readChunk_bytes (h : t.Ok) :
    readChunk (t.bytes ++ rest) = some (t, rest) := by
  cases t with
  | op code =>
    obtain ⟨hop, href⟩ : (code = 0 ∨ 0x4E < code) ∧
        ¬ (0xD0 ≤ code ∧ code ≤ 0xD8) := h
    have hno : carriesRef code = false := by
      rw [carriesRef, decide_eq_false_iff_not]
      intro hmem
      simp only [List.mem_cons, List.not_mem_nil, or_false] at hmem
      rcases hmem with rfl | rfl | rfl | rfl | rfl <;> exact href (by decide)
    rw [Chunk.bytes, List.singleton_append, readChunk, hno,
      if_neg Bool.false_ne_true, if_pos hop]
  | data d => exact readChunk_push h
  | ref code r =>
    obtain ⟨hcode, hlen⟩ : carriesRef code = true ∧ r.length = 36 := h
    rw [Chunk.bytes, List.cons_append, readChunk, if_pos hcode,
      if_neg (by rw [List.length_append]; omega), List.take_left' hlen,
        List.drop_left' hlen]

/-- A chunk has at least one byte. -/
theorem Chunk.bytes_ne_nil (t : Chunk) : t.bytes ≠ [] := by
  cases t with
  | op code => exact List.cons_ne_nil _ _
  | data d =>
    rw [Chunk.bytes, pushBytes]
    split
    · exact List.cons_ne_nil _ _
    · split <;> exact List.cons_ne_nil _ _
  | ref code r => exact List.cons_ne_nil _ _

/-- **What is assembled is what is read.** -/
theorem readCode_assemble {ts : List Chunk} (hts : ∀ t ∈ ts, t.Ok) :
    ∀ {fuel : Nat}, (assembleCode ts).length ≤ fuel →
    readCode fuel (assembleCode ts) = some ts := by
  induction ts with
  | nil => intro fuel _; cases fuel <;> rfl
  | cons t ts ih =>
    intro fuel hfuel
    have happ : assembleCode (t :: ts) = t.bytes ++ assembleCode ts := rfl
    have hpos : 0 < t.bytes.length := List.length_pos_iff.mpr t.bytes_ne_nil
    rw [happ, List.length_append] at hfuel
    obtain ⟨k, rfl⟩ : ∃ k, fuel = k + 1 := ⟨fuel - 1, by omega⟩
    have hread : readChunk (t.bytes ++ assembleCode ts) = some (t,
        assembleCode ts) :=
      readChunk_bytes (hts t List.mem_cons_self)
    have hrest :=
      ih (fun u hu => hts u (List.mem_cons_of_mem _ hu)) (show _ ≤ k by omega)
    obtain ⟨code, tail, hcons⟩ := List.exists_cons_of_ne_nil t.bytes_ne_nil
    rw [happ, hcons, List.cons_append, readCode, ← List.cons_append,
      ← hcons, hread]
    show (readCode k (assembleCode ts)).bind _ = _
    rw [hrest]
    rfl

/-- **Code is taken apart in one way only.** -/
theorem assembleCode_injective {a b : List Chunk} (ha : ∀ t ∈ a, t.Ok)
    (hb : ∀ t ∈ b, t.Ok)
    (h : assembleCode a = assembleCode b) : a = b := by
  have hread := readCode_assemble ha (Nat.le_refl _)
  rw [h, readCode_assemble hb (Nat.le_refl _)] at hread
  exact (Option.some.inj hread).symm

end Read

end Pyrxd.Lib
