import Pyrxd.Gravity.HtlcCode

/-!
# The funded script binds its terms

Two covenants with the same funded scriptPubKey bind the same terms, and the
guards never refuse a valid one. Both are read off the chunks: the code is put
together from them in one way only, and the walks of the guards stop at their
heads.
-/

namespace Pyrxd.Gravity

open Pyrxd.Lib Pyrxd.Glyph Pyrxd.Tx Htlc

/-! ## The third guard over chunks -/

/-- A push that could not have been an opcode. -/
def MinimalPush : Chunk → Prop
  | .data [x] => ¬ (1 ≤ x ∧ x ≤ 16 ∨ x = 0x81)
  | _ => True

/-- What the three guards have nothing to say about. -/
structure Fine (t : Chunk) : Prop where
  walked : Walked t
  minimal : MinimalPush t
  plain : t.head ≠ 0xBD

/-- The third walk, one chunk on. -/
theorem minimalWidth_chunk {t : Chunk} (hok : Walked t) (hmin : MinimalPush t)
    (variant : AssetVariant)
    (pos : Nat) (r : Bytes) : ∃ rest, t.bytes ++ r = t.head :: rest ∧
      minimalWidth variant pos t.head rest = .ok t.bytes.length := by
  cases t with
  | op code =>
    refine ⟨r, rfl, ?_⟩
    obtain ⟨hop, href⟩ : (code = 0 ∨ 0x4E < code) ∧
        ¬ (0xD0 ≤ code ∧ code ≤ 0xD8) := hok.1
    obtain ⟨hdir, h1, h2, h4⟩ := ne_push_of_op hop
    have hno : code ∉ refOps := by
      intro hmem
      simp only [refOps, List.mem_cons, List.not_mem_nil, or_false] at hmem
      rcases hmem with rfl | rfl | rfl | rfl | rfl <;> exact href (by decide)
    show minimalWidth variant pos code r = _
    simp only [minimalWidth, hno, hdir, h1, h2, h4, if_false]
    rfl
  | ref code ref =>
    refine ⟨ref ++ r, rfl, ?_⟩
    have hpush := hok.2 code ref rfl
    have hlen : ref.length = 36 := hok.1.2
    have hmem : code ∈ refOps := by
      simp only [isPushRef, Bool.or_eq_true, beq_iff_eq] at hpush
      rcases hpush with rfl | rfl <;> decide
    show minimalWidth variant pos code (ref ++ r) = _
    rw [minimalWidth, if_pos hmem, Chunk.bytes, List.length_cons, hlen]
  | data d =>
    obtain ⟨hpos, hlen⟩ : 1 ≤ d.length ∧ d.length ≤ 0xFFFF := hok.1
    by_cases h75 : d.length ≤ 75
    -- a direct push: the only one the check can refuse, for a number with an
    -- opcode
    · obtain ⟨hnat, hdir, href, h1, h2, h4⟩ := push_head hpos h75
      have hbytes : (Chunk.data d).bytes = UInt8.ofNat d.length :: d := by
        rw [Chunk.bytes, pushBytes, if_pos h75]
      have hhead : (Chunk.data d).head = UInt8.ofNat d.length := by
        rw [Chunk.head, hbytes]
        rfl
      refine ⟨d ++ r, by rw [hhead, hbytes, List.cons_append], ?_⟩
      have hno : UInt8.ofNat d.length ∉ refOps := by
        intro hmem
        simp only [refOps, List.mem_cons, List.not_mem_nil, or_false] at hmem
        rcases hmem with h | h | h | h | h <;> (rw [h] at href; cases href)
      have hmin : ¬ (UInt8.ofNat d.length = 1 ∧
          (1 ≤ (d ++ r).headD 0 ∧ (d ++ r).headD 0 ≤ 16 ∨
          (d ++ r).headD 0 = 0x81)) := by
        rintro ⟨hone, hbad⟩
        have hlen1 : d.length = 1 := by
          rw [hone] at hnat
          exact hnat.symm
        obtain ⟨x, rfl⟩ := List.length_eq_one_iff.mp hlen1
        exact hmin hbad
      rw [hhead, hbytes, minimalWidth]
      simp only [hno, if_false, hdir, and_self, if_true, hnat, refuseIf, List.length_append]
      rw [if_neg (by omega), ok_bind]
      rw [if_neg hmin, ok_bind, List.length_cons, Nat.add_comm]
      rfl
    -- behind a length prefix the check only asks whether a shorter one would do
    · by_cases h255 : d.length ≤ 255
      · have hval : leNat [UInt8.ofNat d.length] = d.length := by
          rw [leNat_singleton, UInt8.toNat_ofNat']
          omega
        have hbytes : (Chunk.data d).bytes =
            0x4C :: UInt8.ofNat d.length :: d := by
          rw [Chunk.bytes, pushBytes, if_neg h75, if_pos h255]
        have hhead : (Chunk.data d).head = 0x4C := by
          rw [Chunk.head, hbytes]
          rfl
        refine ⟨UInt8.ofNat d.length :: (d ++ r), by rw [hhead, hbytes]; rfl, ?_⟩
        have hsize : ¬ leNat ((UInt8.ofNat d.length :: (d ++ r)).take 1) ≤
            75 := by
          show ¬ leNat [UInt8.ofNat d.length] ≤ 75
          rw [hval]
          exact h75
        rw [hhead, hbytes, minimalWidth]
        simp only [if_neg (by decide : ¬ (0x4C : UInt8) ∈ refOps),
          if_neg (by decide : ¬ ((0x01 : UInt8) ≤ 0x4C ∧
            (0x4C : UInt8) ≤ 0x4B)), if_true, refuseIf, List.length_cons]
        rw [if_neg (by omega), ok_bind, if_neg hsize, ok_bind]
        show Except.ok (2 + leNat [UInt8.ofNat d.length]) = _
        rw [hval]
        congr 1
        omega
      · have hval : leNat (leBytes 2 d.length) = d.length :=
          leNat_leBytes (by omega)
        have htake : (leBytes 2 d.length ++ d ++ r).take 2 =
            leBytes 2 d.length := by
          rw [List.append_assoc]
          exact List.take_left' (length_leBytes 2 _)
        have hbytes : (Chunk.data d).bytes =
            0x4D :: (leBytes 2 d.length ++ d) := by
          rw [Chunk.bytes, pushBytes, if_neg h75, if_neg h255]
        have hhead : (Chunk.data d).head = 0x4D := by
          rw [Chunk.head, hbytes]
          rfl
        refine ⟨leBytes 2 d.length ++ d ++ r, by rw [hhead, hbytes]; rfl, ?_⟩
        rw [hhead, hbytes, minimalWidth]
        simp only [if_neg (by decide : ¬ (0x4D : UInt8) ∈ refOps),
          if_neg (by decide : ¬ ((0x01 : UInt8) ≤ 0x4D ∧
            (0x4D : UInt8) ≤ 0x4B)),
          if_neg (by decide : ¬ (0x4D : UInt8) = 0x4C), if_true,
            refuseIf, htake, hval,
          List.length_append, length_leBytes, List.length_cons]
        rw [if_neg (by omega), ok_bind, if_neg h255, ok_bind]
        show Except.ok (3 + d.length) = _
        congr 1
        omega

/-- Minimal pushes pass the check on pushes. -/
theorem assertMinimalPushes_assemble {ts : List Chunk}
    (h : ∀ t ∈ ts, Walked t ∧ MinimalPush t)
    (variant : AssetVariant) :
    assertMinimalPushes (assembleCode ts) variant = .ok () := by
  have hgo : ∀ fuel pos, (assembleCode ts).length ≤ fuel →
      minimalWalk variant fuel pos (assembleCode ts) = .ok () := by
    induction ts with
    | nil => intro fuel pos _; cases fuel <;> rfl
    | cons t ts ih =>
      intro fuel pos hfuel
      have happ : assembleCode (t :: ts) = t.bytes ++ assembleCode ts := rfl
      have hpos : 0 < t.bytes.length := List.length_pos_iff.mpr t.bytes_ne_nil
      rw [happ, List.length_append] at hfuel
      obtain ⟨k, rfl⟩ : ∃ k, fuel = k + 1 := ⟨fuel - 1, by omega⟩
      obtain ⟨hwalk, hmin⟩ := h t List.mem_cons_self
      obtain ⟨rest, hcons, hwidth⟩ :=
        minimalWidth_chunk hwalk hmin variant pos (assembleCode ts)
      have hdrop : (t.head :: rest).drop t.bytes.length = assembleCode ts := by
        rw [← hcons, List.drop_left]
      rw [happ, hcons, minimalWalk, hwidth, ok_bind, hdrop]
      exact ih (fun u hu => h u (List.mem_cons_of_mem _ hu)) k _ (by omega)
  exact hgo _ 0 (Nat.le_refl _)

/-! ## The chunks of a covenant -/

/-- An opcode no guard minds. -/
def fineOp (code : UInt8) : Bool :=
  (code == 0 || 0x4E < code) && !(0xD0 ≤ code && code ≤ 0xD8) && code != 0xBD

/-- The FT epilogue is made of fine opcodes. -/
theorem fineOp_ftEpilogue : ∀ code ∈ ftEpilogue, fineOp code = true := by
  have hall : ftEpilogue.all fineOp = true := by decide
  exact List.all_eq_true.mp hall

/-- A fine opcode is a fine chunk. -/
theorem fine_op {code : UInt8} (h : fineOp code = true) : Fine (.op code) := by
  simp only [fineOp, Bool.and_eq_true, Bool.or_eq_true, beq_iff_eq,
    decide_eq_true_eq,
    Bool.not_eq_true', Bool.and_eq_false_iff, decide_eq_false_iff_not,
      bne_iff_ne] at h
  obtain ⟨⟨hop, href⟩, hbd⟩ := h
  refine ⟨⟨⟨hop, ?_⟩, fun code' r hc => by cases hc⟩, trivial, hbd⟩
  rintro ⟨h1, h2⟩
  rcases href with h | h
  · exact h h1
  · exact h h2

theorem fine_ref {code : UInt8} {r : Bytes} (hcode : isPushRef code = true)
    (hr : r.length = 36) :
    Fine (.ref code r) := by
  have hcases : code = 0xD0 ∨ code = 0xD8 := by simpa [isPushRef] using hcode
  refine ⟨⟨⟨?_, hr⟩, fun code' r' hc => by cases hc; exact hcode⟩, trivial, ?_⟩
  · rcases hcases with rfl | rfl <;> rfl
  · show code ≠ 0xBD
    rcases hcases with rfl | rfl <;> decide

theorem fine_data {d : Bytes} (h2 : 2 ≤ d.length) (hlen : d.length ≤ 0xFFFF) :
    Fine (.data d) := by
  refine ⟨⟨⟨by omega, hlen⟩, fun code r hc => by cases hc⟩, ?_, ?_⟩
  · match d, h2 with
    | _ :: _ :: _, _ => trivial
  · -- a push starts with an opcode up to 0x4D
    show (pushBytes d).headD 0 ≠ 0xBD
    rw [pushBytes]
    by_cases h75 : d.length ≤ 75
    · rw [if_pos h75]
      obtain ⟨-, hdir, -⟩ := push_head (by omega) h75
      intro hbd
      have hbd : UInt8.ofNat d.length = 0xBD := hbd
      rw [hbd] at hdir
      exact absurd hdir (by decide)
    · rw [if_neg h75]
      split
      · show (0x4C : UInt8) ≠ 0xBD
        decide
      · show (0x4D : UInt8) ≠ 0xBD
        decide

theorem fine_byte {x : UInt8} (h : ¬ (1 ≤ x ∧ x ≤ 16 ∨ x = 0x81)) :
    Fine (.data [x]) := by
  refine ⟨⟨⟨Nat.le_refl 1, by show 1 ≤ 0xFFFF; omega⟩,
    fun code r hc => by cases hc⟩, h, ?_⟩
  show (0x01 : UInt8) ≠ 0xBD
  decide

/-- The script number of one byte is the number. -/
theorem scriptNum_byte {n : Int} {x : UInt8} (h : 1 ≤ n)
    (hx : scriptNum n = [x]) :
    n = x.toNat ∧ x.toNat < 128 := by
  have hdec := decodeNum_scriptNum n
  have hsnoc := decodeNum_snoc [] x
  rw [List.nil_append] at hsnoc
  rw [hx, hsnoc] at hdec
  have hnil : leNat [] = 0 := rfl
  simp only [hnil, List.length_nil, pow_zero, mul_one] at hdec
  have hxlt := x.toNat_lt
  split at hdec
  · next hge =>
    have hge : 128 ≤ x.toNat := hge
    omega
  · next hlt =>
    have hlt : ¬ 128 ≤ x.toNat := hlt
    omega

theorem fine_numChunk {n : Int} (h : 1 ≤ n)
    (hlen : (scriptNum n).length ≤ 0xFFFF) :
    Fine (numChunk n) := by
  unfold numChunk
  split
  · next hle =>
    have hsmall : ∀ k ≤ 16, 1 ≤ k →
        fineOp (UInt8.ofNat (0x50 + k)) = true := by decide
    exact fine_op (hsmall n.toNat (by omega) (by omega))
  · next hgt =>
    have hne := scriptNum_ne_nil h
    by_cases h2 : 2 ≤ (scriptNum n).length
    · exact fine_data h2 hlen
    · have hpos := List.length_pos_iff.mpr hne
      obtain ⟨x, hx⟩ :=
        List.length_eq_one_iff.mp (show (scriptNum n).length = 1 by omega)
      obtain ⟨hn, hlt⟩ := scriptNum_byte h hx
      rw [hx]
      refine fine_byte ?_
      rintro (⟨-, hle⟩ | rfl)
      · have hle : x.toNat ≤ 16 := hle
        omega
      · exact absurd hlt (by decide)

theorem length_scriptNum_csv {n : Int} (h : 1 ≤ n ∧ n ≤ 0xFFFF) :
    (scriptNum n).length ≤ 0xFFFF := by
  have hrange : NumRange n := ⟨by omega, by omega⟩
  have := (length_scriptNum n).mpr hrange
  omega

namespace HtlcBinding

variable {b b' : HtlcBinding}

/-- The branches are fine when the check is. -/
theorem fine_branches (h : b.Ok) {check : List Chunk}
    (hcheck : ∀ t ∈ check, Fine t) :
    ∀ t ∈ b.branches check, Fine t := by
  have hhash : Fine (.data b.hashlock) :=
    fine_data (by rw [h.hashlock]; omega) (by rw [h.hashlock]; omega)
  have htaker : Fine (.data b.takerHash) :=
    fine_data (by rw [h.takerHash]; omega) (by rw [h.takerHash]; omega)
  have hmaker : Fine (.data b.makerHash) :=
    fine_data (by rw [h.makerHash]; omega) (by rw [h.makerHash]; omega)
  have hcsv : Fine (numChunk b.refundCsv) :=
    fine_numChunk h.refundCsv.1 (length_scriptNum_csv h.refundCsv)
  have hsize : Fine (.data [0x20]) := fine_byte (by decide)
  simp only [branches, payTo, List.forall_mem_append, List.forall_mem_cons,
    List.not_mem_nil,
    IsEmpty.forall_iff, implies_true, and_true]
  and_intros <;> first | exact fine_op rfl | assumption

theorem fine_code (h : b.Ok) : ∀ t ∈ b.code, Fine t := by
  have hamount : Fine (numChunk b.amount) := fine_numChunk h.amount.1 h.amount.2
  have hone : ∀ t ∈ oneOutput, Fine t := by
    simp only [oneOutput, List.forall_mem_cons, List.not_mem_nil,
      IsEmpty.forall_iff, implies_true,
      and_true]
    exact ⟨fine_op rfl, fine_op rfl, fine_op rfl⟩
  unfold code
  have href := h.ref
  -- the variants differ in the head and the check only
  cases hv : b.variant with
  | rxd =>
    dsimp only
    rw [List.forall_mem_append]
    refine ⟨hone, fine_branches h ?_⟩
    simp only [List.forall_mem_cons, List.not_mem_nil, IsEmpty.forall_iff,
      implies_true, and_true]
    exact ⟨fine_op rfl, fine_op rfl, hamount, fine_op rfl, fine_op rfl⟩
  | nft =>
    rw [hv, if_neg (by decide)] at href
    have hfine : Fine (.ref 0xD8 b.ref) := fine_ref rfl href
    have hbr := fine_branches h (List.forall_mem_nil Fine)
    dsimp only
    simp only [List.forall_mem_append, List.forall_mem_cons, List.not_mem_nil,
      IsEmpty.forall_iff, implies_true, and_true]
    and_intros <;> first | exact fine_op rfl | assumption
  | ft =>
    rw [hv, if_neg (by decide)] at href
    have hfine : Fine (.ref 0xD0 b.ref) := fine_ref rfl href
    have hbr := fine_branches h (List.forall_mem_nil Fine)
    dsimp only
    simp only [List.forall_mem_append, List.forall_mem_cons, List.not_mem_nil,
      IsEmpty.forall_iff, implies_true, and_true]
    and_intros <;> first | exact fine_op rfl | assumption

/-- The weld is its boundary opcode and a tail no guard minds. -/
theorem weld_ft (h : b.Ok) (hv : b.variant = .ft) :
    ∃ tail, b.weld = .op 0xBD :: tail ∧
    refsOf tail = [(0xD0, b.ref)] ∧ ∀ t ∈ tail, Fine t := by
  have href := h.ref
  rw [hv, if_neg (by decide)] at href
  refine ⟨.ref 0xD0 b.ref :: ftEpilogue.map .op, ?_, rfl, ?_⟩
  · rw [weld, hv]
    rfl
  · rw [List.forall_mem_cons]
    refine ⟨fine_ref rfl href, fun t ht => ?_⟩
    obtain ⟨code, hcode, rfl⟩ := List.mem_map.mp ht
    exact fine_op (fineOp_ftEpilogue code hcode)

/-- Only the FT covenant welds an epilogue on. -/
theorem weld_other (hv : b.variant ≠ .ft) : b.weld = [] := by
  unfold weld
  cases hb : b.variant with
  | ft => exact absurd hb hv
  | rxd => rfl
  | nft => rfl

/-- The walkers step over the funded code, and its pushes are minimal. -/
theorem walked_fundedCode (h : b.Ok) : ∀ t ∈ b.fundedCode, Walked t ∧
    MinimalPush t := by
  rw [fundedCode, List.forall_mem_append]
  refine ⟨fun t ht => ⟨(fine_code h t ht).walked, (fine_code h t ht).minimal⟩,
    ?_⟩
  by_cases hv : b.variant = .ft
  · obtain ⟨tail, hweld, -, htail⟩ := weld_ft h hv
    rw [hweld, List.forall_mem_cons]
    refine ⟨⟨⟨by decide, fun code r hc => by cases hc⟩, trivial⟩,
      fun t ht => ?_⟩
    exact ⟨(htail t ht).walked, (htail t ht).minimal⟩
  · rw [weld_other hv]
    exact List.forall_mem_nil _

theorem ok_fundedCode (h : b.Ok) : ∀ t ∈ b.fundedCode, t.Ok :=
  fun t ht => (walked_fundedCode h t ht).1.1

/-- The first chunk tells the variants apart. -/
theorem head_fundedCode (b : HtlcBinding) :
    b.fundedCode.head? = some (match b.variant with
    | .rxd => .op 0xC4
    | .nft => .ref 0xD8 b.ref
    | .ft => .ref 0xD0 b.ref) := by
  unfold fundedCode code
  cases b.variant <;> rfl

/-- The code determines the variant. -/
theorem variant_of_code (h : b.fundedCode = b'.fundedCode) :
    b.variant = b'.variant := by
  have hhead := head_fundedCode b
  rw [h, head_fundedCode b'] at hhead
  cases hv : b.variant <;> cases hv' : b'.variant <;> rw [hv, hv'] at hhead <;>
    first | rfl | exact absurd (Option.some.inj hhead) (by simp)

/-- **The funded script binds every term.** -/
theorem fundedCode_injective (h : b.Ok) (h' : b'.Ok)
    (heq : assembleCode b.fundedCode = assembleCode b'.fundedCode) :
    b = b' := by
  have hcode := assembleCode_injective (ok_fundedCode h) (ok_fundedCode h') heq
  have hv := variant_of_code hcode
  -- the terms, one by one, off the same places of the two rows
  have hterms : b.ref = b'.ref ∧ b.hashlock = b'.hashlock ∧
      numChunk b.refundCsv = numChunk b'.refundCsv ∧
        numChunk b.amount = numChunk b'.amount ∧
      b.takerHash = b'.takerHash ∧ b.makerHash = b'.makerHash := by
    have href := h.ref
    have href' := h'.ref
    unfold fundedCode code weld branches payTo oneOutput at hcode
    rw [← hv] at hcode href'
    cases hb : b.variant <;> rw [hb] at hcode href href' <;>
      simp only [List.cons_append, List.nil_append, List.cons.injEq,
        Chunk.data.injEq, Chunk.ref.injEq, List.append_nil, true_and,
          and_true] at hcode
    · rw [if_pos rfl] at href href'
      obtain ⟨hhash, ham, htaker, hcsv, -, hmaker⟩ := hcode
      exact ⟨href.trans href'.symm, hhash, hcsv, ham, htaker, hmaker⟩
    · obtain ⟨hr, ham, hhash, htaker, hcsv, hmaker, -⟩ := hcode
      exact ⟨hr, hhash, hcsv, ham, htaker, hmaker⟩
    · obtain ⟨hr, ham, hhash, htaker, hcsv, hmaker⟩ := hcode
      exact ⟨hr, hhash, hcsv, ham, htaker, hmaker⟩
  obtain ⟨hr, hhash, hcsv, ham, htaker, hmaker⟩ := hterms
  have hcsv := numChunk_injective h.refundCsv.1 h'.refundCsv.1 hcsv
  have ham := numChunk_injective h.amount.1 h'.amount.1 ham
  obtain ⟨v, r, hl, csv, am, t, m⟩ := b
  obtain ⟨v', r', hl', csv', am', t', m'⟩ := b'
  simp only at hv hr hhash hcsv ham htaker hmaker
  rw [hv, hr, hhash, hcsv, ham, htaker, hmaker]

/-! ## The guards pass -/

/-- The separator guard passes on it. -/
theorem guardBd_code (h : b.Ok) : guardBd (assembleCode b.fundedCode)
    (if b.variant = .ft then [(assembleCode b.code).length]
      else []) b.variant = .ok () := by
  have hbds : opcodeBdPositions (assembleCode b.fundedCode) =
      if b.variant = .ft then [(assembleCode b.code).length] else [] := by
    rw [opcodeBdPositions_assemble fun t ht => (walked_fundedCode h t ht).1,
      fundedCode,
      bdsOfChunks_append, bdsOfChunks_none fun t ht => (fine_code h t ht).plain]
    by_cases hv : b.variant = .ft
    · obtain ⟨tail, hweld, -, htail⟩ := weld_ft h hv
      rw [hweld, bdsOfChunks, bdsOfChunks_none fun t ht => (htail t ht).plain,
        if_pos hv, Nat.zero_add]
      rfl
    · rw [weld_other hv, if_neg hv]
      rfl
  rw [guardBd, refuseIf, if_neg (not_not.mpr hbds)]

/-- A number carries no reference. -/
theorem refsOf_numChunk (n : Int) (ts : List Chunk) :
    refsOf (numChunk n :: ts) = refsOf ts := by
  unfold numChunk
  split <;> rfl

/-- The refs of the body: none, or the genesis ref. -/
theorem refsOf_code : refsOf b.code = match b.variant with
    | .rxd => []
    | .nft => [(0xD8, b.ref)]
    | .ft => [(0xD0, b.ref)] := by
  unfold code branches payTo oneOutput
  cases b.variant <;> simp [refsOf_numChunk]

/-- The reference guard passes on it. -/
theorem guardRefs_code (h : b.Ok) : guardRefs (assembleCode b.fundedCode)
    (if b.variant = .rxd then none else some b.ref) b.variant = .ok () := by
  have hrefs : inputRefs (assembleCode b.fundedCode) =
      .ok ((refsOf b.fundedCode).map (·.2)).dedup := by
    rw [inputRefs, iterInputRefs_assemble (ok_fundedCode h)]
    rfl
  have hset : ((refsOf b.fundedCode).map (·.2)).dedup.toFinset =
      (if b.variant = .rxd then none else some b.ref).toList.toFinset := by
    rw [fundedCode, refsOf_append, refsOf_code]
    cases hv : b.variant with
    | rxd =>
      rw [weld_other (by rw [hv]; decide)]
      rfl
    | nft =>
      rw [weld_other (by rw [hv]; decide)]
      rfl
    | ft =>
      obtain ⟨tail, hweld, htail, -⟩ := weld_ft h hv
      rw [hweld, refsOf_op, htail]
      ext r
      simp
  rw [guardRefs, hrefs, ok_bind, refuseIf, if_neg (not_not.mpr hset)]

end HtlcBinding

/-! ## What a builder returns -/

namespace CovenantParams

def variant (p : CovenantParams) : AssetVariant :=
  match p.asset with
  | .ft _ _ => .ft
  | .nft _ _ => .nft
  | .rxd => .rxd

/-- The holder script of `pkh`. -/
def holder (p : CovenantParams) (pkh ref : Bytes) : Bytes :=
  match p.asset with
  | .ft _ _ => ftHolderScript pkh ref
  | .nft _ _ => nftHolderScript pkh ref
  | .rxd => rxdHolderScript pkh

/-- What the covenant with these arguments binds. -/
def binding (p : CovenantParams) (ref : Bytes) : HtlcBinding where
  variant := p.variant
  ref
  hashlock := p.hashlock
  refundCsv := p.refundCsv
  amount := p.amount
  takerHash := hash256 (p.holder p.takerPkh ref)
  makerHash := hash256 (p.holder p.makerPkh ref)

/-- The genesis ref the arguments name. -/
def RefIs (p : CovenantParams) (ref : Bytes) : Prop :=
  match p.asset with
  | .ft txid vout => refWire txid vout = .ok ref ∧ ref.length = 36
  | .nft txid vout => refWire txid vout = .ok ref ∧ ref.length = 36
  | .rxd => ref = []

end CovenantParams

/-- The bare arguments are in range; a ref is not looked at yet. -/
structure CovenantParams.InRange (p : CovenantParams) : Prop where
  hashlock : p.hashlock.length = 32
  refundCsv : 1 ≤ p.refundCsv ∧ p.refundCsv ≤ 0xFFFF
  takerPkh : p.takerPkh.length = 20
  makerPkh : p.makerPkh.length = 20
  amount : 1 ≤ p.amount

theorem validateCommon_ok {hashlock takerPkh makerPkh : Bytes}
    {refundCsv : Int} {u : Unit} :
    validateCommon hashlock refundCsv takerPkh makerPkh = .ok u ↔
      hashlock.length = 32 ∧ (1 ≤ refundCsv ∧ refundCsv ≤ 0xFFFF) ∧
        takerPkh.length = 20 ∧
      makerPkh.length = 20 := by
  unfold validateCommon hex20
  rw [refuseIf_bind_ok, refuseIf_bind_ok, refuseIf_bind_ok,
    refuseIf_bind_ok, refuseIf_ok]
  constructor
  · rintro ⟨h1, h2, h3, h4, h5⟩
    exact ⟨not_not.mp h1, ⟨by omega, by omega⟩, not_not.mp h4, not_not.mp h5⟩
  · rintro ⟨h1, ⟨h2, h3⟩, h4, h5⟩
    exact ⟨not_not.mpr h1, by omega, by omega, not_not.mpr h4, not_not.mpr h5⟩

theorem push_hash {h : Bytes} (hlen : h.length = 32) :
    push h = .ok (pushBytes h) := by
  rw [push, if_pos (by omega)]

theorem length_hash256 (b : Bytes) : (hash256 b).length = 32 := length_sha256 _

/-- A ref found in a script is 36 bytes long. -/
theorem length_iterInputRefs : ∀ (fuel : Nat) (script : Bytes)
    (refs : List (UInt8 × Bytes)),
    iterInputRefs.go fuel script = .ok refs →
    ∀ ref ∈ refs, ref.2.length = 36 := by
  intro fuel
  -- each reference takes 37 bytes of the script
  induction fuel with
  | zero =>
    intro script refs h
    cases h
    exact List.forall_mem_nil _
  | succ k ih =>
    intro script refs h
    cases script with
    | nil =>
      cases h
      exact List.forall_mem_nil _
    | cons op rest =>
      rw [iterInputRefs.go] at h
      by_cases href : isRefOpcode op = true
      · rw [if_pos href] at h
        obtain ⟨hlen, h⟩ := refuseIf_bind_ok.mp h
        obtain ⟨rs, hrs, h⟩ := bind_ok.mp h
        cases h
        rw [List.forall_mem_cons]
        exact ⟨by rw [List.length_take]; omega, ih _ _ hrs⟩
      · rw [if_neg href] at h
        cases hw : opWidth op rest with
        | none =>
          rw [hw] at h
          cases h
        | some w =>
          rw [hw] at h
          exact ih _ _ (refuseIf_bind_ok.mp h).2

/-- The second guard only accepts a ref of 36 bytes. -/
theorem guardRefs_length {spk ref : Bytes} {variant : AssetVariant}
    (h : guardRefs spk (some ref) variant = .ok ()) : ref.length = 36 := by
  unfold guardRefs inputRefs at h
  obtain ⟨refs, hrefs, h⟩ := bind_ok.mp h
  obtain ⟨found, hfound, hdedup⟩ := bind_ok.mp hrefs
  cases hdedup
  have hset := not_not.mp (refuseIf_ok.mp h)
  have hmem : ref ∈ ((found.map (·.2)).dedup).toFinset := by
    rw [hset]
    simp
  rw [List.mem_toFinset, List.mem_dedup] at hmem
  obtain ⟨x, hx, rfl⟩ := List.mem_map.mp hmem
  exact length_iterInputRefs _ _ _ hfound x hx

section Builders

variable {p : CovenantParams} {c : HtlcCovenant} {ref : Bytes}

/-- The encoding of the amount fits a push. -/
def CovenantParams.Fits (p : CovenantParams) : Prop :=
  (scriptNum p.amount).length ≤ 0xFFFF

instance : Decidable p.Fits := inferInstanceAs (Decidable (_ ≤ _))

/-- Parameters in range make a well-formed binding. -/
theorem binding_ok (hp : p.InRange) (href : p.RefIs ref) (hfits : p.Fits) :
    (p.binding ref).Ok := by
  refine ⟨hp.hashlock, length_hash256 _, length_hash256 _, hp.refundCsv,
    ⟨hp.amount, hfits⟩, ?_⟩
  unfold CovenantParams.RefIs at href
  show if p.variant = .rxd then ref = [] else ref.length = 36
  unfold CovenantParams.variant
  cases hasset : p.asset with
  | ft txid vout =>
    rw [hasset] at href
    exact href.2
  | nft txid vout =>
    rw [hasset] at href
    exact href.2
  | rxd =>
    rw [hasset] at href
    exact href

/-- What comes before the amount is pushed. -/
theorem CovenantParams.InRange.passes (hp : p.InRange) :
    validateCommon p.hashlock p.refundCsv p.takerPkh p.makerPkh = .ok () ∧
    ¬ p.amount ≤ 0 ∧
      push p.hashlock = .ok (pushBytes p.hashlock) ∧
      minimalNumPush p.refundCsv = .ok (numChunk p.refundCsv).bytes := by
  have hpos := hp.amount
  refine ⟨validateCommon_ok.mpr ⟨hp.hashlock, hp.refundCsv, hp.takerPkh,
    hp.makerPkh⟩, by omega,
    push_hash hp.hashlock, ?_⟩
  rw [minimalNumPush_eq hp.refundCsv.1,
    if_pos (length_scriptNum_csv hp.refundCsv)]

/-- An amount that no push can hold stops a builder before the guards. -/
theorem build_too_long (hp : p.InRange) (href : p.RefIs ref)
    (hfits : ¬ p.Fits) :
    p.build = invalid "push data exceeds 64 KB limit" := by
  obtain ⟨hcommon, hamount, hhash, hcsv⟩ := hp.passes
  have hnum : minimalNumPush p.amount =
      invalid "push data exceeds 64 KB limit" := by
    rw [minimalNumPush_eq hp.amount]
    exact if_neg hfits
  unfold CovenantParams.RefIs at href
  unfold CovenantParams.build
  -- each builder pushes the amount, which is what does not fit
  cases hasset : p.asset with
  | rxd =>
    unfold buildHtlcCovenantRxd
    rw [hcommon, ok_bind, refuseIf, if_neg hamount, ok_bind, hhash, ok_bind,
      hcsv, ok_bind, hnum]
    rfl
  | nft txid vout =>
    rw [hasset] at href
    unfold buildHtlcCovenantNft
    dsimp only
    rw [hcommon, ok_bind, refuseIf, if_neg hamount, ok_bind, href.1, ok_bind,
      hhash, ok_bind, hcsv,
      ok_bind, hnum]
    rfl
  | ft txid vout =>
    rw [hasset] at href
    unfold buildHtlcCovenantFt
    dsimp only
    rw [hcommon, ok_bind, refuseIf, if_neg hamount, ok_bind, href.1, ok_bind,
      hhash, ok_bind, hcsv,
      ok_bind, hnum]
    rfl

/-- The covenant of a binding, with the holder scripts it was made for. -/
def HtlcBinding.covenant (b : HtlcBinding) (takerHolder makerHolder : Bytes) :
    HtlcCovenant where
  variant := b.variant
  fundedSpk := assembleCode b.fundedCode
  prologueLen := (assembleCode b.code).length
  takerHolderScript := takerHolder
  makerHolderScript := makerHolder
  expectedTakerHash := b.takerHash
  expectedMakerHash := b.makerHash
  genesisRef := b.ref
  hashlock := b.hashlock
  refundCsv := b.refundCsv

section OfBinding

variable {b : HtlcBinding} {tp mp : Bytes}

/-- What a builder pushes for a binding. -/
theorem HtlcBinding.Ok.pushes (hb : b.Ok) (htp : tp.length = 20)
    (hmp : mp.length = 20) :
    validateCommon b.hashlock b.refundCsv tp mp = .ok () ∧ ¬ b.amount ≤ 0 ∧
      push b.hashlock = .ok (pushBytes b.hashlock) ∧
      minimalNumPush b.refundCsv = .ok (numChunk b.refundCsv).bytes ∧
      minimalNumPush b.amount = .ok (numChunk b.amount).bytes ∧
      push b.takerHash = .ok (pushBytes b.takerHash) ∧
      push b.makerHash = .ok (pushBytes b.makerHash) := by
  have hpos := hb.amount.1
  refine ⟨validateCommon_ok.mpr ⟨hb.hashlock, hb.refundCsv, htp,
    hmp⟩, by omega, push_hash hb.hashlock,
    ?_, ?_, push_hash hb.takerHash, push_hash hb.makerHash⟩
  · rw [minimalNumPush_eq hb.refundCsv.1,
      if_pos (length_scriptNum_csv hb.refundCsv)]
  · rw [minimalNumPush_eq hpos, if_pos hb.amount.2]

/-- The RXD builder returns the binding's covenant. -/
theorem buildRxd_binding (hb : b.Ok) (hv : b.variant = .rxd)
    (htp : tp.length = 20)
    (hmp : mp.length = 20) (ht : b.takerHash = hash256 (rxdHolderScript tp))
    (hm : b.makerHash = hash256 (rxdHolderScript mp)) :
    buildHtlcCovenantRxd b.amount tp mp b.hashlock b.refundCsv =
      .ok (b.covenant (rxdHolderScript tp) (rxdHolderScript mp)) := by
  obtain ⟨hcommon, hamount, hhash, hcsv, hnum, htaker, hmaker⟩ :=
    hb.pushes htp hmp
  -- the weld is empty: the funded script is the body
  have hfunded : b.fundedCode = b.code := by
    rw [HtlcBinding.fundedCode, HtlcBinding.weld_other (by rw [hv]; decide),
      List.append_nil]
  have href : b.ref = [] := by
    have := hb.ref
    rwa [if_pos hv] at this
  have hbd := HtlcBinding.guardBd_code hb
  have hrefs := HtlcBinding.guardRefs_code hb
  have hmin :=
    assertMinimalPushes_assemble (HtlcBinding.walked_fundedCode hb) .rxd
  rw [hv, hfunded, if_neg (by decide)] at hbd
  rw [hv, hfunded, if_pos rfl] at hrefs
  rw [hfunded] at hmin
  unfold buildHtlcCovenantRxd HtlcBinding.covenant
  rw [hcommon, ok_bind, refuseIf, if_neg hamount, ok_bind]
  dsimp only
  rw [hhash, ok_bind, hcsv, ok_bind, hnum, ok_bind, ← ht, htaker, ok_bind, ← hm,
    hmaker, ok_bind,
    substitute_rxd hv, ok_bind, hbd, ok_bind, hrefs, ok_bind, hmin, ok_bind,
      pure_eq_ok, hv, href,
    hfunded]

theorem buildNft_binding (hb : b.Ok) (hv : b.variant = .nft)
    (htp : tp.length = 20)
    (hmp : mp.length = 20)
    (ht : b.takerHash = hash256 (nftHolderScript tp b.ref))
    (hm : b.makerHash = hash256 (nftHolderScript mp b.ref))
    {txid : String} {vout : Int}
    (href : refWire txid vout = .ok b.ref) :
    buildHtlcCovenantNft txid vout b.amount tp mp b.hashlock b.refundCsv =
      .ok (b.covenant (nftHolderScript tp b.ref)
        (nftHolderScript mp b.ref)) := by
  obtain ⟨hcommon, hamount, hhash, hcsv, hnum, htaker, hmaker⟩ :=
    hb.pushes htp hmp
  have hfunded : b.fundedCode = b.code := by
    rw [HtlcBinding.fundedCode, HtlcBinding.weld_other (by rw [hv]; decide),
      List.append_nil]
  have hbd := HtlcBinding.guardBd_code hb
  have hrefs := HtlcBinding.guardRefs_code hb
  have hmin :=
    assertMinimalPushes_assemble (HtlcBinding.walked_fundedCode hb) .nft
  rw [hv, hfunded, if_neg (by decide)] at hbd
  rw [hv, hfunded, if_neg (by decide)] at hrefs
  rw [hfunded] at hmin
  unfold buildHtlcCovenantNft HtlcBinding.covenant
  rw [hcommon, ok_bind, refuseIf, if_neg hamount, ok_bind, href, ok_bind]
  dsimp only
  rw [hhash, ok_bind, hcsv, ok_bind, hnum, ok_bind, ← ht, htaker, ok_bind, ← hm,
    hmaker, ok_bind,
    substitute_nft hv, ok_bind, hbd, ok_bind, hrefs, ok_bind, hmin, ok_bind,
      pure_eq_ok, hv, hfunded]

theorem buildFt_binding (hb : b.Ok) (hv : b.variant = .ft)
    (htp : tp.length = 20)
    (hmp : mp.length = 20)
    (ht : b.takerHash = hash256 (ftHolderScript tp b.ref))
    (hm : b.makerHash = hash256 (ftHolderScript mp b.ref))
    {txid : String} {vout : Int}
    (href : refWire txid vout = .ok b.ref) :
    buildHtlcCovenantFt txid vout b.amount tp mp b.hashlock b.refundCsv =
      .ok (b.covenant (ftHolderScript tp b.ref) (ftHolderScript mp b.ref)) := by
  obtain ⟨hcommon, hamount, hhash, hcsv, hnum, htaker, hmaker⟩ :=
    hb.pushes htp hmp
  -- the FT covenant is the code with the token's epilogue behind it
  have hweld : assembleCode b.weld = [0xBD, 0xD0] ++ b.ref ++ ftEpilogue := by
    rw [HtlcBinding.weld, hv]
    show 0xBD :: ((0xD0 :: b.ref) ++ assembleCode (ftEpilogue.map .op)) = _
    have hops : assembleCode (ftEpilogue.map .op) = ftEpilogue := rfl
    rw [hops]
    rfl
  have hfunded : assembleCode b.code ++ [0xBD, 0xD0] ++ b.ref ++ ftEpilogue =
      assembleCode b.fundedCode := by
    rw [HtlcBinding.fundedCode, assembleCode_append, hweld, List.append_assoc,
      List.append_assoc,
      List.append_assoc]
  have hbd := HtlcBinding.guardBd_code hb
  have hrefs := HtlcBinding.guardRefs_code hb
  have hmin :=
    assertMinimalPushes_assemble (HtlcBinding.walked_fundedCode hb) .ft
  rw [hv, if_pos rfl] at hbd
  rw [hv, if_neg (by decide)] at hrefs
  unfold buildHtlcCovenantFt HtlcBinding.covenant
  rw [hcommon, ok_bind, refuseIf, if_neg hamount, ok_bind, href, ok_bind]
  dsimp only
  rw [hhash, ok_bind, hcsv, ok_bind, hnum, ok_bind, ← ht, htaker, ok_bind, ← hm,
    hmaker, ok_bind,
    substitute_ft hv, ok_bind, hfunded, hbd, ok_bind, hrefs, ok_bind, hmin,
      ok_bind, pure_eq_ok, hv]

end OfBinding

/-- **A builder returns the covenant of its arguments**; no guard stands in its
way. -/
theorem build_fits (hp : p.InRange) (href : p.RefIs ref) (hfits : p.Fits) :
    p.build = .ok ((p.binding ref).covenant (p.holder p.takerPkh ref)
      (p.holder p.makerPkh ref)) := by
  have hb := binding_ok hp href hfits
  obtain ⟨asset, amount, tp, mp, hl, csv⟩ := p
  cases asset with
  | rxd => exact buildRxd_binding hb rfl hp.takerPkh hp.makerPkh rfl rfl
  | nft txid vout =>
    exact buildNft_binding hb rfl hp.takerPkh hp.makerPkh rfl rfl href.1
  | ft txid vout =>
    exact buildFt_binding hb rfl hp.takerPkh hp.makerPkh rfl rfl href.1

/-- What a builder accepts is in range. -/
theorem build_inRange (h : p.build = .ok c) :
    p.InRange ∧ ∃ ref, p.RefIs ref := by
  obtain ⟨asset, amount, tp, mp, hl, csv⟩ := p
  cases asset with
  | rxd =>
    have h : buildHtlcCovenantRxd amount tp mp hl csv = .ok c := h
    unfold buildHtlcCovenantRxd at h
    obtain ⟨⟨⟩, hcommon, h⟩ := bind_ok.mp h
    obtain ⟨hhash, hcsv, htp, hmp⟩ := validateCommon_ok.mp hcommon
    obtain ⟨hamount, -⟩ := refuseIf_bind_ok.mp h
    exact ⟨⟨hhash, hcsv, htp, hmp, by show 1 ≤ amount; omega⟩, [], rfl⟩
  | nft txid vout =>
    have h : buildHtlcCovenantNft txid vout amount tp mp hl csv = .ok c := h
    unfold buildHtlcCovenantNft at h
    obtain ⟨⟨⟩, hcommon, h⟩ := bind_ok.mp h
    obtain ⟨hhash, hcsv, htp, hmp⟩ := validateCommon_ok.mp hcommon
    obtain ⟨hamount, h⟩ := refuseIf_bind_ok.mp h
    obtain ⟨ref, href, h⟩ := bind_ok.mp h
    refine ⟨⟨hhash, hcsv, htp, hmp, by show 1 ≤ amount; omega⟩, ref, href, ?_⟩
    obtain ⟨_, -, h⟩ := bind_ok.mp h
    obtain ⟨_, -, h⟩ := bind_ok.mp h
    obtain ⟨_, -, h⟩ := bind_ok.mp h
    obtain ⟨_, -, h⟩ := bind_ok.mp h
    obtain ⟨_, -, h⟩ := bind_ok.mp h
    obtain ⟨_, -, h⟩ := bind_ok.mp h
    obtain ⟨_, -, h⟩ := bind_ok.mp h
    obtain ⟨⟨⟩, hrefs, -⟩ := bind_ok.mp h
    exact guardRefs_length hrefs
  | ft txid vout =>
    have h : buildHtlcCovenantFt txid vout amount tp mp hl csv = .ok c := h
    unfold buildHtlcCovenantFt at h
    obtain ⟨⟨⟩, hcommon, h⟩ := bind_ok.mp h
    obtain ⟨hhash, hcsv, htp, hmp⟩ := validateCommon_ok.mp hcommon
    obtain ⟨hamount, h⟩ := refuseIf_bind_ok.mp h
    obtain ⟨ref, href, h⟩ := bind_ok.mp h
    refine ⟨⟨hhash, hcsv, htp, hmp, by show 1 ≤ amount; omega⟩, ref, href, ?_⟩
    obtain ⟨_, -, h⟩ := bind_ok.mp h
    obtain ⟨_, -, h⟩ := bind_ok.mp h
    obtain ⟨_, -, h⟩ := bind_ok.mp h
    obtain ⟨_, -, h⟩ := bind_ok.mp h
    obtain ⟨_, -, h⟩ := bind_ok.mp h
    obtain ⟨_, -, h⟩ := bind_ok.mp h
    obtain ⟨_, -, h⟩ := bind_ok.mp h
    obtain ⟨⟨⟩, hrefs, -⟩ := bind_ok.mp h
    exact guardRefs_length hrefs

/-- **What a builder returns is the covenant of a binding.** -/
theorem build_ok (h : p.build = .ok c) : ∃ ref, p.RefIs ref ∧
    (p.binding ref).Ok ∧
    c = (p.binding ref).covenant (p.holder p.takerPkh ref)
      (p.holder p.makerPkh ref) := by
  obtain ⟨hp, ref, href⟩ := build_inRange h
  by_cases hfits : p.Fits
  · rw [build_fits hp href hfits] at h
    cases h
    exact ⟨ref, href, binding_ok hp href hfits, rfl⟩
  · rw [build_too_long hp href hfits] at h
    cases h

end Builders

end Pyrxd.Gravity
