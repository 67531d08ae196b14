import Pyrxd.Glyph.ChunkWalks
import Pyrxd.Glyph.DmintRoundTrip
import Pyrxd.Gravity.HtlcCovenant
import Pyrxd.Lib.Spend

/-!
# The soulbound covenants

The two builders of `glyph/soulbound_covenant.py`, with their guards, and what
the three walkers of `Pyrxd.Glyph.Credential` read back from a script that was
put together from chunks: `_opcodes` the heads of the chunks, `count_input_refs`
their refs and `extract_owner_pkh` the hash in the P2PKH tail, whatever bytes
the operands hold.
-/

namespace Pyrxd.Glyph

open Pyrxd.Lib Pyrxd.Tx Pyrxd.Gravity
open Pyrxd.Swap (GlyphRef)

/-! ## Guards -/

/-- One turn of `_assert_no_nonminimal_push`: how far it goes. -/
def soulboundWidth (pos : Nat) (op : UInt8) (rest : Bytes) : Except PyErr Nat :=
  if op ∈ refOps then .ok 37
  else if 0x01 ≤ op ∧ op ≤ 0x4B then do
    refuseIf (rest.length < op.toNat)
      ("truncated direct push at offset " ++ toString pos)
    let b0 := rest.headD 0
    refuseIf (op = 1 ∧ (1 ≤ b0 ∧ b0 ≤ 16 ∨ b0 = 0x81))
      ("non-minimal 1-byte push 0x" ++ Htlc.hexByte b0 ++ " at offset " ++
        toString pos ++
        " (must be OP_1..OP_16 / OP_1NEGATE) — would brick the covenant")
    return 1 + op.toNat
  else if op ∈ [0x4C, 0x4D, 0x4E] then
    invalid ("unexpected PUSHDATA opcode 0x" ++ Htlc.hexByte op ++
      " at offset " ++ toString pos ++
      " (soulbound covenant uses only direct pushes)")
  else .ok 1

def soulboundWalk : Nat → Nat → Bytes → Except PyErr Unit
  | 0, _, _ => .ok ()
  | _, _, [] => .ok ()
  | fuel + 1, pos, op :: rest => do
    let w ← soulboundWidth pos op rest
    soulboundWalk fuel (pos + w) ((op :: rest).drop w)

/-- `_assert_no_nonminimal_push`. -/
def assertNoNonminimalPush (spk : Bytes) : Except PyErr Unit :=
  soulboundWalk spk.length 0 spk

/-! ## Builders -/

structure SoulboundNftCovenant where
  fundedSpk : Bytes
  genesisRef : Bytes
  ownerPkh : Bytes
deriving DecidableEq

/-- `recur_target_spk`. -/
def SoulboundNftCovenant.recurTargetSpk (c : SoulboundNftCovenant) :
    Bytes := c.fundedSpk

/-- The script `build_soulbound_nft_covenant` joins. -/
def soulboundSpk (ref pkh : Bytes) : Bytes :=
  [0xD8] ++ ref ++ [0xDE, 0x00, 0x9C, 0x63, 0x67, 0x00, 0xCD, 0xC0, 0xC7, 0x88,
    0x68, 0x76, 0xA9, 20] ++ pkh ++ [0x88, 0xAC]

/-- The script `build_composable_soulbound_nft_covenant` joins. -/
def composableSpk (ref pkh : Bytes) : Bytes :=
  [0xD8] ++ ref ++ [0xDE, 0x76, 0x00, 0x9C, 0x63, 0x75, 0x67, 0x51, 0x9D, 0xC0,
    0xE9, 0xAA, 0xE6, 0x51, 0x9D, 0x68, 0x76, 0xA9, 20] ++ pkh ++ [0x88, 0xAC]

/-- What both builders do around the script. -/
def buildSoulbound (spkOf : Bytes → Bytes → Bytes) (genesisRef : GlyphRef)
    (ownerPkh : Bytes) :
    Except PyErr SoulboundNftCovenant := do
  refuseIf (ownerPkh.length ≠ 20) "owner_pkh must be 20 bytes (hash160)"
  let ref ← genesisRef.toBytes
  refuseIf (ref.length ≠ 36) "genesis ref must encode to 36 bytes"
  let spk := spkOf ref ownerPkh
  let refs ← inputRefs spk
  refuseIf (refs.toFinset ≠ {ref})
    ("GUARD FAIL: input refs " ++ Htlc.sortedHex refs ++ " != expected " ++
      Htlc.pyList [hex ref] ++
      " (exactly the genesis singleton ref must bind)")
  assertNoNonminimalPush spk
  return ⟨spk, ref, ownerPkh⟩

/-- `build_soulbound_nft_covenant`. -/
def buildSoulboundNftCovenant : GlyphRef → Bytes →
    Except PyErr SoulboundNftCovenant := buildSoulbound soulboundSpk

/-- `build_composable_soulbound_nft_covenant`. -/
def buildComposableSoulboundNftCovenant : GlyphRef → Bytes →
    Except PyErr SoulboundNftCovenant :=
  buildSoulbound composableSpk

/-! ## The walkers over chunks -/

section Walks

variable {t : Chunk} {ts : List Chunk} {fuel : Nat} {r : Bytes}

/-- A well-formed chunk is as wide as the walker steps. -/
theorem opWidth_chunk (h : t.Ok) (r : Bytes) :
    ∃ rest, t.bytes ++ r = t.head :: rest ∧
    opWidth t.head rest = some t.bytes.length ∧
    (t.head :: rest).drop t.bytes.length = r := by
  obtain ⟨i, hi⟩ := exists_instr h
  have hop : i.op = t.head := by
    rw [Chunk.head, ← hi]
    rfl
  refine ⟨i.size ++ i.operand ++ r, ?_, ?_, ?_⟩
  · rw [← hop, ← hi]
    rfl
  · rw [← hop, ← hi]
    exact opWidth_of_iterWidth (iterWidth_instr i r)
  · rw [← hop, ← hi]
    exact i.drop_bytes r

/-- **What `_opcodes` finds are the heads of the chunks.** -/
theorem opcodes_assemble (h : ∀ t ∈ ts, t.Ok) :
    opcodes (assembleCode ts) = ts.map Chunk.head := by
  have hgo : ∀ fuel, (assembleCode ts).length ≤ fuel →
      opcodes.go fuel (assembleCode ts) = ts.map Chunk.head := by
    induction ts with
    | nil => intro fuel _; cases fuel <;> rfl
    | cons t ts ih =>
      intro fuel hfuel
      have happ : assembleCode (t :: ts) = t.bytes ++ assembleCode ts := rfl
      have hpos : 0 < t.bytes.length := List.length_pos_iff.mpr t.bytes_ne_nil
      rw [happ, List.length_append] at hfuel
      obtain ⟨k, rfl⟩ : ∃ k, fuel = k + 1 := ⟨fuel - 1, by omega⟩
      obtain ⟨rest, hcons, hwidth, hdrop⟩ :=
        opWidth_chunk (h t List.mem_cons_self) (assembleCode ts)
      rw [happ, hcons, opcodes.go, hwidth]
      dsimp only
      rw [hdrop, ih (fun u hu => h u (List.mem_cons_of_mem _ hu)) k (by omega),
        List.map_cons]
  exact hgo _ (Nat.le_refl _)

/-- A chunk that does not start a P2PKH is stepped over. -/
theorem ownerPkhs_chunk (h : t.Ok) (hno : p2pkhAt (t.bytes ++ r) = none) :
    ownerPkhs.go (fuel + 1) (t.bytes ++ r) = ownerPkhs.go fuel r := by
  obtain ⟨rest, hcons, hwidth, hdrop⟩ := opWidth_chunk h r
  rw [hcons] at hno ⊢
  rw [ownerPkhs.go]
  by_cases href : isRefOpcode t.head = true
  · have h37 : t.bytes.length = 37 := by
      rw [opWidth, if_pos href] at hwidth
      exact (Option.some.inj hwidth).symm
    rw [if_pos href, ← h37, hdrop]
  · rw [if_neg href, hno, hwidth]
    dsimp only
    rw [Option.getD_some, hdrop]

/-- The owner pattern opens with `OP_DUP` only. -/
theorem p2pkhAt_of_head (hno : t.head ≠ 0x76) :
    p2pkhAt (t.bytes ++ r) = none := by
  obtain ⟨code, tail, hcons⟩ := List.exists_cons_of_ne_nil t.bytes_ne_nil
  have hcode : code ≠ 0x76 := by
    rw [Chunk.head, hcons] at hno
    exact hno
  rw [hcons, List.cons_append]
  unfold p2pkhAt
  split
  · next heq =>
    injection heq with hhead
    exact absurd hhead hcode
  · rfl

/-- A row of chunks none of which starts with `DUP`. -/
theorem ownerPkhs_row (h : ∀ t ∈ ts, t.Ok ∧ t.head ≠ 0x76) :
    ownerPkhs.go (fuel + ts.length)
      (assembleCode ts ++ r) = ownerPkhs.go fuel r := by
  induction ts with
  | nil => rfl
  | cons t ts ih =>
    obtain ⟨hok, hhead⟩ := h t List.mem_cons_self
    have happ : assembleCode (t :: ts) ++ r =
        t.bytes ++ (assembleCode ts ++ r) := List.append_assoc _ _ _
    rw [happ, List.length_cons, ← Nat.add_assoc,
      ownerPkhs_chunk hok (p2pkhAt_of_head hhead)]
    exact ih fun u hu => h u (List.mem_cons_of_mem _ hu)

theorem p2pkhAt_match {rest : Bytes} (h : rest.drop 20 = [0x88, 0xAC]) :
    p2pkhAt (0x76 :: 0xA9 :: 0x14 :: rest) = some (rest.take 20) := by
  rw [p2pkhAt, h]
  rfl

/-- The P2PKH tail is found. -/
theorem ownerPkhs_tail {pkh : Bytes} (hpkh : pkh.length = 20) :
    ownerPkhs.go (fuel + 1) (assembleCode (p2pkhCode pkh)) = [pkh] := by
  have hcode : assembleCode (p2pkhCode pkh) =
      0x76 :: 0xA9 :: 0x14 :: (pkh ++ [0x88, 0xAC]) := by
    show [0x76] ++ ([0xA9] ++ (pushBytes pkh ++ ([0x88] ++ ([0xAC] ++ [])))) = _
    rw [pushBytes, if_pos (by omega), hpkh]
    rfl
  have hat : p2pkhAt (0x76 :: 0xA9 :: 0x14 :: (pkh ++ [0x88, 0xAC])) =
      some pkh := by
    rw [p2pkhAt_match (List.drop_left' hpkh), List.take_left' hpkh]
  have hdrop : (0x76 :: 0xA9 :: 0x14 :: (pkh ++ [0x88, 0xAC])).drop 25 =
      [] := by
    rw [List.drop_eq_nil_iff]
    simp only [List.length_cons, List.length_append, hpkh, List.length_nil]
    omega
  rw [hcode, ownerPkhs.go, if_neg (by decide), hat]
  dsimp only
  rw [hdrop]
  cases fuel <;> rfl

/-- A chunk the push guard lets pass: its data, if it has any, is a direct push
of two bytes or more. -/
def DirectPush : Chunk → Prop
  | .data d => 2 ≤ d.length ∧ d.length ≤ 75
  | _ => True

instance : DecidablePred DirectPush := fun t =>
  match t with
  | .op _ => inferInstanceAs (Decidable True)
  | .data d => inferInstanceAs (Decidable (2 ≤ d.length ∧ d.length ≤ 75))
  | .ref _ _ => inferInstanceAs (Decidable True)

/-- The strict walker steps over a directly pushed chunk alike. -/
theorem soulboundWidth_chunk (h : t.Ok) (hdirect : DirectPush t)
    (pos : Nat) (r : Bytes) :
    ∃ rest, t.bytes ++ r = t.head :: rest ∧
      soulboundWidth pos t.head rest = .ok t.bytes.length := by
  cases t with
  | op code =>
    refine ⟨r, rfl, ?_⟩
    obtain ⟨hop, href⟩ : (code = 0 ∨ 0x4E < code) ∧
        ¬ (0xD0 ≤ code ∧ code ≤ 0xD8) := h
    obtain ⟨hdir, h1, h2, h4⟩ := ne_push_of_op hop
    have hno : code ∉ refOps := by
      intro hmem
      simp only [refOps, List.mem_cons, List.not_mem_nil, or_false] at hmem
      rcases hmem with rfl | rfl | rfl | rfl | rfl <;> exact href (by decide)
    have hlong : code ∉ ([0x4C, 0x4D, 0x4E] : List UInt8) := by
      simp [h1, h2, h4]
    show soulboundWidth pos code r = _
    rw [soulboundWidth, if_neg hno, if_neg hdir, if_neg hlong]
    rfl
  | ref code ref =>
    refine ⟨ref ++ r, rfl, ?_⟩
    obtain ⟨hcode, hlen⟩ : carriesRef code = true ∧ ref.length = 36 := h
    have hmem : code ∈ refOps := of_decide_eq_true hcode
    show soulboundWidth pos code (ref ++ r) = _
    rw [soulboundWidth, if_pos hmem, Chunk.bytes, List.length_cons, hlen]
  | data d =>
    obtain ⟨h2, h75⟩ : 2 ≤ d.length ∧ d.length ≤ 75 := hdirect
    obtain ⟨hnat, hdir, href, -, -, -⟩ := push_head (Nat.le_of_succ_le h2) h75
    have hbytes : (Chunk.data d).bytes = UInt8.ofNat d.length :: d := by
      rw [Chunk.bytes, pushBytes, if_pos h75]
    have hhead : (Chunk.data d).head = UInt8.ofNat d.length := by
      rw [Chunk.head, hbytes]
      rfl
    refine ⟨d ++ r, by rw [hhead, hbytes, List.cons_append], ?_⟩
    have hno : UInt8.ofNat d.length ∉ refOps := by
      intro hmem
      simp only [refOps, List.mem_cons, List.not_mem_nil, or_false] at hmem
      rcases hmem with h | h | h | h | h <;> (rw [h] at href; cases href)
    have hone : UInt8.ofNat d.length ≠ 1 := by
      intro hc
      rw [hc] at hnat
      have h1 : (1 : UInt8).toNat = 1 := rfl
      omega
    rw [hhead, hbytes, soulboundWidth, if_neg hno, if_pos hdir]
    simp only [hnat, refuseIf, List.length_append, hone, false_and,
      if_false, ok_bind]
    rw [if_neg (by omega), ok_bind, List.length_cons, Nat.add_comm]
    rfl

/-- Directly pushed chunks pass the check on pushes. -/
theorem assertNoNonminimalPush_assemble (h : ∀ t ∈ ts, t.Ok ∧ DirectPush t) :
    assertNoNonminimalPush (assembleCode ts) = .ok () := by
  have hgo : ∀ fuel pos, (assembleCode ts).length ≤ fuel →
      soulboundWalk fuel pos (assembleCode ts) = .ok () := by
    induction ts with
    | nil => intro fuel pos _; cases fuel <;> rfl
    | cons t ts ih =>
      intro fuel pos hfuel
      have happ : assembleCode (t :: ts) = t.bytes ++ assembleCode ts := rfl
      have hpos : 0 < t.bytes.length := List.length_pos_iff.mpr t.bytes_ne_nil
      rw [happ, List.length_append] at hfuel
      obtain ⟨k, rfl⟩ : ∃ k, fuel = k + 1 := ⟨fuel - 1, by omega⟩
      obtain ⟨hok, hdirect⟩ := h t List.mem_cons_self
      obtain ⟨rest, hcons, hwidth⟩ :=
        soulboundWidth_chunk hok hdirect pos (assembleCode ts)
      have hdrop : (t.head :: rest).drop t.bytes.length = assembleCode ts := by
        rw [← hcons, List.drop_left]
      rw [happ, hcons, soulboundWalk, hwidth, ok_bind, hdrop]
      exact ih (fun u hu => h u (List.mem_cons_of_mem _ hu)) k _ (by omega)
  exact hgo _ 0 (Nat.le_refl _)

end Walks

/-! ## The covenants as chunks -/

/-- `OP_PUSHINPUTREFSINGLETON <ref> ... OP_ENDIF` of the first covenant: burned,
or output 0 is a clone. -/
def fixedGuard (ref : Bytes) : List Chunk :=
  [Chunk.ref 0xD8 ref, Chunk.op 0xDE, Chunk.op 0x00, Chunk.op 0x9C] ++
    ([Chunk.op 0x63] ++ [] ++
    ([Chunk.op 0x67] ++ [Chunk.op 0x00, Chunk.op 0xCD, Chunk.op 0xC0,
      Chunk.op 0xC7, Chunk.op 0x88] ++ [Chunk.op 0x68]))

/-- The same of the second: burned, or one output carries the ref and one output
is a clone. -/
def composableGuard (ref : Bytes) : List Chunk :=
  [Chunk.ref 0xD8 ref, Chunk.op 0xDE, Chunk.op 0x76, Chunk.op 0x00,
    Chunk.op 0x9C] ++ ([Chunk.op 0x63] ++ [Chunk.op 0x75] ++ ([Chunk.op 0x67] ++
    [Chunk.op 0x51, Chunk.op 0x9D, Chunk.op 0xC0, Chunk.op 0xE9, Chunk.op 0xAA,
    Chunk.op 0xE6, Chunk.op 0x51, Chunk.op 0x9D] ++ [Chunk.op 0x68]))

/-- The opcodes behind the ref. -/
def fixedOps : List Chunk :=
  [.op 0xDE, .op 0x00, .op 0x9C, .op 0x63, .op 0x67, .op 0x00, .op 0xCD,
    .op 0xC0, .op 0xC7, .op 0x88, .op 0x68]

/-- Those before the second `DUP`, and those behind it. -/
def composableOps : List Chunk :=
  [.op 0x00, .op 0x9C, .op 0x63, .op 0x75, .op 0x67, .op 0x51, .op 0x9D,
    .op 0xC0, .op 0xE9, .op 0xAA, .op 0xE6,
    .op 0x51, .op 0x9D, .op 0x68]

def fixedCode (ref pkh : Bytes) : List Chunk := fixedGuard ref ++ p2pkhCode pkh

def composableCode (ref pkh : Bytes) : List Chunk :=
  composableGuard ref ++ p2pkhCode pkh

section Codes

variable {ref pkh : Bytes}

theorem p2pkhCode_bytes (hpkh : pkh.length = 20) :
    assembleCode (p2pkhCode pkh) = [0x76, 0xA9, 20] ++ pkh ++ [0x88, 0xAC] := by
  show [0x76] ++ ([0xA9] ++ (pushBytes pkh ++ ([0x88] ++ ([0xAC] ++ [])))) = _
  rw [pushBytes, if_pos (by omega), hpkh]
  rfl

/-- The fixed covenant's chunks are its script. -/
theorem fixedCode_bytes (hpkh : pkh.length = 20) :
    assembleCode (fixedCode ref pkh) = soulboundSpk ref pkh := by
  rw [fixedCode, assembleCode_append, p2pkhCode_bytes hpkh, soulboundSpk]
  show ((0xD8 :: ref) ++ _) ++ _ = _
  simp only [List.append_assoc, List.cons_append, List.nil_append]
  rfl

/-- The composable covenant's chunks are its script. -/
theorem composableCode_bytes (hpkh : pkh.length = 20) :
    assembleCode (composableCode ref pkh) = composableSpk ref pkh := by
  rw [composableCode, assembleCode_append, p2pkhCode_bytes hpkh, composableSpk]
  show ((0xD8 :: ref) ++ _) ++ _ = _
  simp only [List.append_assoc, List.cons_append, List.nil_append]
  rfl

/-- The fixed guard is the reference and its opcodes. -/
theorem fixedGuard_eq : fixedGuard ref = .ref 0xD8 ref :: fixedOps := rfl

/-- The composable guard is the reference, kept below, and its opcodes. -/
theorem composableGuard_eq :
    composableGuard ref =
    [.ref 0xD8 ref, .op 0xDE] ++ (.op 0x76 :: composableOps) := rfl

/-- The P2PKH chunks are well formed and pushed directly. -/
theorem p2pkhCode_fine (hpkh : pkh.length = 20) :
    ∀ t ∈ p2pkhCode pkh, t.Ok ∧ DirectPush t := by
  have hdata : (Chunk.data pkh).Ok ∧ DirectPush (.data pkh) :=
    ⟨⟨by omega, by omega⟩, by omega, by omega⟩
  simp only [p2pkhCode, List.forall_mem_cons]
  exact ⟨⟨by decide, trivial⟩, ⟨by decide, trivial⟩, hdata,
    ⟨by decide, trivial⟩, ⟨by decide, trivial⟩, List.forall_mem_nil _⟩

theorem ref_fine (href : ref.length = 36) : (Chunk.ref 0xD8 ref).Ok ∧
    DirectPush (.ref 0xD8 ref) :=
  ⟨⟨rfl, href⟩, trivial⟩

theorem fixedCode_fine (href : ref.length = 36) (hpkh : pkh.length = 20) :
    ∀ t ∈ fixedCode ref pkh, t.Ok ∧ DirectPush t := by
  have hops : ∀ t ∈ fixedOps, t.Ok ∧ DirectPush t := by decide
  rw [fixedCode, List.forall_mem_append, fixedGuard_eq, List.forall_mem_cons]
  exact ⟨⟨ref_fine href, hops⟩, p2pkhCode_fine hpkh⟩

theorem composableCode_fine (href : ref.length = 36) (hpkh : pkh.length = 20) :
    ∀ t ∈ composableCode ref pkh, t.Ok ∧ DirectPush t := by
  have hops : ∀ t ∈ Chunk.op 0xDE :: .op 0x76 :: composableOps, t.Ok ∧
      DirectPush t := by decide
  rw [composableCode, List.forall_mem_append, composableGuard_eq]
  refine ⟨?_, p2pkhCode_fine hpkh⟩
  show ∀ t ∈ Chunk.ref 0xD8 ref :: .op 0xDE :: .op 0x76 ::
    composableOps, t.Ok ∧ DirectPush t
  rw [List.forall_mem_cons]
  exact ⟨ref_fine href, hops⟩

/-! ## What the walkers read back -/

/-- A hash is pushed by its length. -/
theorem head_pkh (hpkh : pkh.length = 20) : (Chunk.data pkh).head = 0x14 := by
  rw [Chunk.head, Chunk.bytes, pushBytes, if_pos (by omega), hpkh]
  rfl

/-- A script with one reference has that input reference. -/
theorem inputRefs_of_refs {ts : List Chunk} (hok : ∀ t ∈ ts, t.Ok)
    (hrefs : refsOf ts = [(0xD8, ref)]) :
    inputRefs (assembleCode ts) = .ok [ref] := by
  rw [inputRefs, iterInputRefs_assemble hok, hrefs]
  rfl

/-- What the classifier says of the two covenants. -/
def soulboundClass (ref : Bytes) : SoulboundClassification :=
  ⟨.soulboundCovenant, some ref, true, true⟩

/-- The fixed covenant is classified as soulbound. -/
theorem classify_fixed (href : ref.length = 36) (hpkh : pkh.length = 20) :
    classifySoulbound (soulboundSpk ref pkh) = soulboundClass ref := by
  have hok := fun t ht => (@fixedCode_fine ref pkh href hpkh t ht).1
  have hheads : (fixedCode ref pkh).map Chunk.head =
      [0xD8, 0xDE, 0x00, 0x9C, 0x63, 0x67, 0x00, 0xCD, 0xC0, 0xC7, 0x88, 0x68,
        0x76, 0xA9, 0x14, 0x88, 0xAC] := by
    rw [← head_pkh hpkh]
    rfl
  rw [← fixedCode_bytes hpkh, classifySoulbound, inputRefs_of_refs hok rfl,
    opcodes_assemble hok, hheads]
  rfl

theorem classify_composable (href : ref.length = 36) (hpkh : pkh.length = 20) :
    classifySoulbound (composableSpk ref pkh) = soulboundClass ref := by
  have hok := fun t ht => (@composableCode_fine ref pkh href hpkh t ht).1
  have hheads : (composableCode ref pkh).map Chunk.head =
      [0xD8, 0xDE, 0x76, 0x00, 0x9C, 0x63, 0x75, 0x67, 0x51, 0x9D, 0xC0, 0xE9,
        0xAA, 0xE6, 0x51, 0x9D, 0x68, 0x76, 0xA9, 0x14, 0x88, 0xAC] := by
    rw [← head_pkh hpkh]
    rfl
  rw [← composableCode_bytes hpkh, classifySoulbound, inputRefs_of_refs hok rfl,
    opcodes_assemble hok, hheads]
  rfl

/-- A script with one owner pattern has that owner. -/
theorem extractOwnerPkh_of {spk : Bytes} (h : ownerPkhs spk = [pkh]) :
    extractOwnerPkh spk = some pkh := by
  rw [extractOwnerPkh, h]
  rfl

/-- The fixed covenant's owner is read off it. -/
theorem owner_fixed (href : ref.length = 36) (hpkh : pkh.length = 20) :
    extractOwnerPkh (soulboundSpk ref pkh) = some pkh := by
  have hops : ∀ t ∈ fixedOps, t.Ok ∧ t.head ≠ 0x76 := by decide
  have hrow : ∀ t ∈ fixedGuard ref, t.Ok ∧ t.head ≠ 0x76 := by
    rw [fixedGuard_eq, List.forall_mem_cons]
    exact ⟨⟨(ref_fine href).1, show (0xD8 : UInt8) ≠ 0x76 by decide⟩, hops⟩
  have hlen : (assembleCode (fixedCode ref pkh)).length =
      60 + 1 + (fixedGuard ref).length := by
    rw [fixedCode_bytes hpkh, soulboundSpk]
    simp only [List.length_append, List.length_cons,
      List.length_nil, href, hpkh]
    rfl
  refine extractOwnerPkh_of ?_
  rw [← fixedCode_bytes hpkh, ownerPkhs, hlen, fixedCode, assembleCode_append,
    ownerPkhs_row hrow,
    ownerPkhs_tail hpkh]

theorem owner_composable (href : ref.length = 36) (hpkh : pkh.length = 20) :
    extractOwnerPkh (composableSpk ref pkh) = some pkh := by
  have hops : ∀ t ∈ composableOps, t.Ok ∧ t.head ≠ 0x76 := by decide
  have hrow : ∀ t ∈ [Chunk.ref 0xD8 ref, .op 0xDE], t.Ok ∧ t.head ≠ 0x76 := by
    rw [List.forall_mem_cons]
    exact ⟨⟨(ref_fine href).1, show (0xD8 : UInt8) ≠ 0x76 by decide⟩, by decide⟩
  have hlen : (assembleCode (composableCode ref pkh)).length =
      60 + 1 + composableOps.length + 1 + [Chunk.ref 0xD8 ref,
        .op 0xDE].length := by
    rw [composableCode_bytes hpkh, composableSpk]
    simp only [List.length_append, List.length_cons,
      List.length_nil, href, hpkh]
    rfl
  have hbytes : assembleCode (composableCode ref pkh) =
      assembleCode [Chunk.ref 0xD8 ref, .op 0xDE] ++
      ((Chunk.op 0x76).bytes ++
        (assembleCode composableOps ++ assembleCode (p2pkhCode pkh))) := by
    rw [composableCode, composableGuard_eq, assembleCode_append,
      assembleCode_append, List.append_assoc]
    rfl
  refine extractOwnerPkh_of ?_
  rw [← composableCode_bytes hpkh, ownerPkhs, hlen, hbytes, ownerPkhs_row hrow,
    ownerPkhs_chunk (by decide) rfl, ownerPkhs_row hops, ownerPkhs_tail hpkh]

/-! ## The builders return -/

/-- What any soulbound builder returns for a reference and a 20-byte hash. -/
theorem buildSoulbound_returns {spkOf : Bytes → Bytes → Bytes} {r : GlyphRef}
    {ts : List Chunk}
    (href : r.toBytes = .ok ref) (hpkh : pkh.length = 20)
    (hbytes : assembleCode ts = spkOf ref pkh)
    (hfine : ∀ t ∈ ts, t.Ok ∧ DirectPush t)
    (hrefs : refsOf ts = [(0xD8, ref)]) :
    buildSoulbound spkOf r pkh = .ok ⟨spkOf ref pkh, ref, pkh⟩ := by
  rw [buildSoulbound]
  refine refuseIf_bind_ok.mpr ⟨not_not.mpr hpkh,
    bind_ok.mpr ⟨ref, href, refuseIf_bind_ok.mpr ⟨?_, ?_⟩⟩⟩
  · exact not_not.mpr (glyphRef_wire href).1
  · dsimp only
    rw [← hbytes, inputRefs_of_refs (fun t ht => (hfine t ht).1) hrefs, ok_bind]
    refine refuseIf_bind_ok.mpr ⟨?_, ?_⟩
    · rw [List.toFinset_cons, List.toFinset_nil]
      exact not_not.mpr rfl
    · rw [assertNoNonminimalPush_assemble hfine, ok_bind]
      rfl

/-- What the fixed builder returns. -/
theorem buildSoulboundNftCovenant_returns {r : GlyphRef}
    (href : r.toBytes = .ok ref) (hpkh : pkh.length = 20) :
    buildSoulboundNftCovenant r pkh = .ok ⟨soulboundSpk ref pkh, ref, pkh⟩ :=
  buildSoulbound_returns href hpkh (fixedCode_bytes hpkh)
    (fixedCode_fine (glyphRef_wire href).1 hpkh) rfl

/-- What the composable builder returns. -/
theorem buildComposableSoulboundNftCovenant_returns {r : GlyphRef}
    (href : r.toBytes = .ok ref)
    (hpkh : pkh.length = 20) :
    buildComposableSoulboundNftCovenant r pkh =
      .ok ⟨composableSpk ref pkh, ref, pkh⟩ :=
  buildSoulbound_returns href hpkh (composableCode_bytes hpkh)
    (composableCode_fine (glyphRef_wire href).1 hpkh) rfl

end Codes

end Pyrxd.Glyph
