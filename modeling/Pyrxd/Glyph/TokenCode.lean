import Pyrxd.Glyph.Builder
import Pyrxd.Glyph.Soulbound

/-!
# Token scripts as code

The scripts of the builders taken apart into chunks, and the refs they carry.
-/

namespace Pyrxd.Glyph

open Pyrxd.Lib

/-! ## Code -/

/-- `OP_PUSHINPUTREFSINGLETON <ref> OP_DROP` in front of a P2PKH. -/
def nftCode (ref pkh : Bytes) : List Chunk :=
  [.ref 0xD8 ref, .op 0x75] ++ p2pkhCode pkh

/-- What follows the ref of a fungible token. -/
def ftTailCode : List Chunk :=
  [.op 0xDE, .op 0xC0, .op 0xE9, .op 0xAA, .op 0x76, .op 0xE3, .op 0x78,
    .op 0xE4, .op 0xA2, .op 0x69,
    .op 0xE6, .op 0x9D]

def ftCode (pkh ref : Bytes) : List Chunk :=
  p2pkhCode pkh ++ ([.op 0xBD, .ref 0xD0 ref] ++ ftTailCode)

/-- The check of the payload. -/
def payloadCode (hash : Bytes) : List Chunk :=
  [.op 0xAA, .data hash, .op 0x88, .data glyMarker, .op 0x88]

/-- The check that an output carries the ref of this outpoint. -/
def refTypeCode (refType : UInt8) : List Chunk :=
  [.op 0xC0, .op 0xC8, .op 0xC0, .op 0xC9, .op 0x54, .op 0x80, .op 0x7E,
    .op 0xDA, .op refType, .op 0x9D]

def commitCode (hash : Bytes) (refType : UInt8) (pkh : Bytes) : List Chunk :=
  payloadCode hash ++ (refTypeCode refType ++ p2pkhCode pkh)

def mutableBodyCode : List Chunk :=
  [ .op 0x76, .data [0x20], .op 0x7F, .op 0x81, .op 0x8C, .op 0x54, .op 0x80,
    .op 0x7E, .op 0x52, .op 0x79,
    .op 0xE2, .op 0x54, .op 0x7A, .data [0x24], .op 0x95, .op 0x7F, .op 0x77,
      .data [0x24], .op 0x7F, .op 0x75,
    .op 0x88, .op 0x7C, .op 0xEC, .op 0x7B, .op 0x7F, .op 0x77, .data [0x45],
      .op 0x7F, .op 0x75, .op 0x78,
    .data [0x20], .op 0x7E, .op 0xC0, .op 0xCA, .op 0xA8, .op 0x7E, .op 0x88,
      .op 0x52, .op 0x79,
    .data [0x6D, 0x6F, 0x64], .op 0x87, .op 0x63, .op 0x78, .op 0xEA, .op 0xC0,
      .op 0xE9, .op 0x88, .op 0x78,
    .op 0xEC, .data [0x20], .op 0x55, .op 0x79, .op 0xAA, .op 0x7E,
      .data [0x75], .op 0x7E, .op 0x88, .op 0x67,
    .op 0x52, .op 0x79, .data [0x73, 0x6C], .op 0x88, .op 0x78, .op 0xCD,
      .data [0xD8], .op 0x52, .op 0x79,
    .op 0x7E, .data [0x6A], .op 0x7E, .op 0x87, .op 0x78, .op 0xDA, .op 0x00,
      .op 0x9C, .op 0x9B, .op 0x69,
    .op 0x68, .op 0x54, .op 0x7A, .data [0x67, 0x6C, 0x79], .op 0x88, .op 0x6D,
      .op 0x6D, .op 0x51 ]

/-- A mutable contract: the hash of the payload as its state, and its ref. -/
def mutableCode (ref hash : Bytes) : List Chunk :=
  [.data hash, .op 0x75, .op 0xBD, .ref 0xD8 ref] ++ mutableBodyCode

/-! ## Its bytes -/

section Bytes

variable {ref hash pkh : Bytes}

/-- The NFT chunks are the NFT script. -/
theorem nftCode_bytes (hpkh : pkh.length = 20) :
    assembleCode (nftCode ref pkh) = nftFrame ref pkh := by
  rw [nftCode, assembleCode_append, p2pkhCode_bytes hpkh, nftFrame]
  show ((0xD8 :: ref) ++ [0x75]) ++ _ = _
  simp only [List.append_assoc, List.cons_append, List.nil_append]

/-- The FT chunks are the FT script. -/
theorem ftCode_bytes (hpkh : pkh.length = 20) :
    assembleCode (ftCode pkh ref) = ftFrame pkh ref := by
  rw [ftCode, assembleCode_append, p2pkhCode_bytes hpkh, assembleCode_append]
  show _ ++ ((0xBD :: (0xD0 :: ref) ++ []) ++ _) = _
  rw [List.append_nil]
  rfl

/-- The commit chunks are the commit script. -/
theorem commitCode_bytes {refType : UInt8} (hhash : hash.length = 32)
    (hpkh : pkh.length = 20) :
    assembleCode (commitCode hash refType pkh) =
      commitFrame hash refType pkh := by
  rw [commitCode, assembleCode_append, assembleCode_append,
    p2pkhCode_bytes hpkh, commitFrame]
  have hpush : assembleCode (payloadCode hash) =
      [0xAA, 0x20] ++ hash ++ [0x88, 0x03, 0x67, 0x6C, 0x79, 0x88] := by
    show [0xAA] ++ (pushBytes hash ++ _) = _
    rw [pushBytes, if_pos (by omega), hhash]
    rfl
  have htype : assembleCode (refTypeCode refType) =
      [0xC0, 0xC8, 0xC0, 0xC9, 0x54, 0x80, 0x7E, 0xDA] ++
        [refType] ++ [0x9D] := rfl
  rw [hpush, htype, commitMiddle]
  simp only [List.append_assoc, List.cons_append, List.nil_append]

/-- The body of the mutable contract, in chunks. -/
theorem mutableBodyCode_bytes :
    assembleCode mutableBodyCode = mutableNftBody := by decide

/-- The mutable chunks are the mutable script. -/
theorem mutableCode_bytes (hhash : hash.length = 32) :
    assembleCode (mutableCode ref hash) = mutableFrame ref hash := by
  rw [mutableCode, assembleCode_append, mutableBodyCode_bytes, mutableFrame]
  show (pushBytes hash ++ ([0x75] ++ ([0xBD] ++ ((0xD8 :: ref) ++ [])))) ++
    _ = _
  rw [pushBytes, if_pos (by omega), hhash]
  simp only [List.append_assoc, List.cons_append, List.nil_append]
  rfl

/-- The P2PKH chunks are well formed. -/
theorem p2pkhCode_ok (hpkh : pkh.length = 20) : ∀ t ∈ p2pkhCode pkh, t.Ok :=
  fun t ht => (p2pkhCode_fine hpkh t ht).1

theorem nftCode_ok (href : ref.length = 36) (hpkh : pkh.length = 20) :
    ∀ t ∈ nftCode ref pkh, t.Ok := by
  rw [nftCode, List.forall_mem_append, List.forall_mem_cons]
  exact ⟨⟨⟨rfl, href⟩, by decide⟩, p2pkhCode_ok hpkh⟩

theorem ftCode_ok (href : ref.length = 36) (hpkh : pkh.length = 20) :
    ∀ t ∈ ftCode pkh ref, t.Ok := by
  rw [ftCode, List.forall_mem_append, List.forall_mem_append,
    List.forall_mem_cons, List.forall_mem_cons]
  exact ⟨p2pkhCode_ok hpkh,
    ⟨by decide, ⟨rfl, href⟩, List.forall_mem_nil _⟩, by decide⟩

theorem commitCode_ok {refType : UInt8} (htype : (Chunk.op refType).Ok)
    (hhash : hash.length = 32)
    (hpkh : pkh.length = 20) : ∀ t ∈ commitCode hash refType pkh, t.Ok := by
  have hdata : (Chunk.data hash).Ok := ⟨by omega, by omega⟩
  rw [commitCode, List.forall_mem_append, List.forall_mem_append]
  refine ⟨?_, ?_, p2pkhCode_ok hpkh⟩
  · rw [payloadCode, List.forall_mem_cons, List.forall_mem_cons]
    exact ⟨by decide, hdata, by decide⟩
  · simp only [refTypeCode, List.forall_mem_cons]
    exact ⟨by decide, by decide, by decide, by decide, by decide, by decide, by decide, by decide, htype,
      by decide, List.forall_mem_nil _⟩

theorem mutableCode_ok (href : ref.length = 36) (hhash : hash.length = 32) :
    ∀ t ∈ mutableCode ref hash, t.Ok := by
  have hdata : (Chunk.data hash).Ok := ⟨by omega, by omega⟩
  have hbody : ∀ t ∈ mutableBodyCode, t.Ok := by decide
  rw [mutableCode, List.forall_mem_append]
  simp only [List.forall_mem_cons]
  exact ⟨⟨hdata, by decide, by decide, ⟨rfl, href⟩, List.forall_mem_nil _⟩,
    hbody⟩

end Bytes

end Pyrxd.Glyph
