import Pyrxd.Glyph.ChunkWalks
import Pyrxd.Gravity.HtlcCovenant

/-!
# The covenant as code

The three templates, filled, are rows of chunks over what the covenant binds
(`HtlcBinding.fundedCode`). Everything about the funded scriptPubKey is then
read off the chunks: that it can be taken apart in one way only, what the
guards' walks stop at, and (in `Pyrxd.Gravity.HtlcSpend`) what it lets through.
-/

namespace Pyrxd.Gravity

open Pyrxd.Lib Pyrxd.Glyph Pyrxd.Tx Htlc

/-- The push of a positive number. -/
def numChunk (n : Int) : Chunk :=
  if n ≤ 16 then .op (UInt8.ofNat (0x50 + n.toNat)) else .data (scriptNum n)

/-- What a covenant binds. -/
structure HtlcBinding where
  variant : AssetVariant
  ref : Bytes
  hashlock : Bytes
  refundCsv : Int
  amount : Int
  takerHash : Bytes
  makerHash : Bytes
deriving DecidableEq

namespace HtlcBinding

/-- `TXOUTPUTCOUNT 1 NUMEQUALVERIFY`. -/
def oneOutput : List Chunk := [.op 0xC4, .op 0x51, .op 0x9D]

/-- `0 OUTPUTBYTECODE HASH256 <hash> EQUAL`. -/
def payTo (hash : Bytes) : List Chunk :=
  [.op 0x00, .op 0xCD, .op 0xAA, .data hash, .op 0x87]

/-- The two branches; `check` is what each of them asks of the value. -/
def branches (b : HtlcBinding) (check : List Chunk) : List Chunk :=
  [.op 0x76, .op 0x00, .op 0x9C, .op 0x63] ++
  ([.op 0x7C, .op 0x82, .data [0x20], .op 0x88, .op 0xA8,
    .data b.hashlock, .op 0x88] ++
    (check ++ (payTo b.takerHash ++ [.op 0x77]))) ++
  ([.op 0x67] ++ ([.op 0x51, .op 0x9D, numChunk b.refundCsv,
    .op 0xB2, .op 0x75] ++
    (check ++ payTo b.makerHash)) ++ [.op 0x68])

/-- The compiled body. -/
def code (b : HtlcBinding) : List Chunk :=
  match b.variant with
  | .rxd =>
    oneOutput ++ b.branches [.op 0x00, .op 0xCC, numChunk b.amount,
      .op 0xA2, .op 0x69]
  | .nft => [.ref 0xD8 b.ref] ++ oneOutput ++
      [.op 0xDE, .op 0x51, .op 0x9D, .op 0x00, .op 0xCC, numChunk b.amount,
        .op 0x9D] ++ b.branches []
  | .ft => [.ref 0xD0 b.ref] ++ oneOutput ++
      [.op 0x76, .op 0xDE, .op 0x51, .op 0x9D, .op 0xDC, numChunk b.amount,
        .op 0x9D] ++ b.branches []

/-- The weld behind the body of an FT covenant. -/
def weld (b : HtlcBinding) : List Chunk :=
  match b.variant with
  | .ft => [.op 0xBD, .ref 0xD0 b.ref] ++ ftEpilogue.map .op
  | _ => []

/-- The funded script. -/
def fundedCode (b : HtlcBinding) : List Chunk := b.code ++ b.weld

/-- A binding a builder can have made. -/
structure Ok (b : HtlcBinding) : Prop where
  hashlock : b.hashlock.length = 32
  takerHash : b.takerHash.length = 32
  makerHash : b.makerHash.length = 32
  refundCsv : 1 ≤ b.refundCsv ∧ b.refundCsv ≤ 0xFFFF
  amount : 1 ≤ b.amount ∧ (scriptNum b.amount).length ≤ 0xFFFF
  ref : if b.variant = .rxd then b.ref = [] else b.ref.length = 36

end HtlcBinding

/-! ## Numbers -/

/-- A positive number has bytes. -/
theorem scriptNum_ne_nil {n : Int} (h : 1 ≤ n) : scriptNum n ≠ [] := by
  intro hnil
  have hdec := decodeNum_scriptNum n
  rw [hnil] at hdec
  have hzero : decodeNum [] = 0 := rfl
  omega

/-- Different positive numbers are pushed differently. -/
theorem numChunk_injective {m n : Int} (hm : 1 ≤ m) (hn : 1 ≤ n)
    (h : numChunk m = numChunk n) :
    m = n := by
  unfold numChunk at h
  split at h
  · next hm16 =>
    split at h
    · next hn16 =>
      have hcodes : ∀ j ≤ 16, ∀ k ≤ 16,
          UInt8.ofNat (0x50 + j) = UInt8.ofNat (0x50 + k) → j = k := by decide
      have hnat := hcodes m.toNat (by omega) n.toNat (by omega) (Chunk.op.inj h)
      omega
    · cases h
  · split at h
    · cases h
    · have hdec := congrArg decodeNum (Chunk.data.inj h)
      rwa [decodeNum_scriptNum, decodeNum_scriptNum] at hdec

/-- `_minimal_num_push` of a positive number is that chunk. -/
theorem minimalNumPush_eq {n : Int} (h : 1 ≤ n) : minimalNumPush n =
    if (scriptNum n).length ≤ 0xFFFF then .ok (numChunk n).bytes
    else invalid "push data exceeds 64 KB limit" := by
  unfold minimalNumPush numChunk
  have h0 : ¬ n < 0 := by omega
  have hne : n ≠ 0 := by omega
  simp only [refuseIf, h0, hne, if_false, ok_bind]
  by_cases h16 : n ≤ 16
  · have hrange : NumRange n := ⟨by omega, by omega⟩
    have hlen := (length_scriptNum n).mpr hrange
    rw [if_pos ⟨h, h16⟩, if_pos h16, if_pos (by omega)]
    rfl
  · rw [if_neg (fun hc => h16 hc.2), if_neg h16]
    rfl

/-! ## Filling the templates -/

/-- Once every hole is filled, the text is the hex of the pieces in a row. -/
theorem substitute_lits {template : String} {subs : List (String × Bytes)}
    {variant : AssetVariant}
    {ps : List Piece} {bs : List Bytes} (names : List String)
    (htext : template = String.ofList (templateText ps))
    (hnames : subs.map Prod.fst = names)
    (hsubs : ∀ name ∈ names, (Piece.hole name.toList).Named)
    (hps : ∀ p ∈ ps, p.Named)
    (hfill : fillAll (subs.map fun sub => (sub.1.toList, sub.2)) ps =
      bs.map Piece.lit) :
    substitute template subs variant = .ok bs.flatten := by
  have hnamed : ∀ sub ∈ subs.map fun sub => (sub.1.toList,
      sub.2), (Piece.hole sub.1).Named := by
    intro sub hsub
    obtain ⟨s, hs, rfl⟩ := List.mem_map.mp hsub
    exact hsubs s.1 (by rw [← hnames]; exact List.mem_map_of_mem hs)
  unfold substitute
  rw [htext, String.toList_ofList, replaceEach_text _ _ hnamed hps, hfill,
    templateText_lits]
  dsimp only
  rw [if_neg (notMem_hexChars _), fromHexChars_hexChars]

def rxdPieces : List Piece :=
  [.lit [0xC4, 0x51, 0x9D, 0x76, 0x00, 0x9C, 0x63, 0x7C, 0x82, 0x01,
    0x20, 0x88, 0xA8],
    .hole "hashlock".toList, .lit [0x88, 0x00, 0xCC], .hole "amount".toList,
    .lit [0xA2, 0x69, 0x00, 0xCD, 0xAA], .hole "expectedTakerHash".toList,
    .lit [0x87, 0x77, 0x67, 0x51, 0x9D], .hole "refundCsv".toList,
      .lit [0xB2, 0x75, 0x00, 0xCC],
    .hole "amount".toList, .lit [0xA2, 0x69, 0x00, 0xCD, 0xAA],
      .hole "expectedMakerHash".toList,
    .lit [0x87, 0x68]]

def nftPieces : List Piece :=
  [.lit [0xD8], .hole "REF".toList,
    .lit [0xC4, 0x51, 0x9D, 0xDE, 0x51, 0x9D, 0x00, 0xCC],
      .hole "nftCarrierValue".toList,
    .lit [0x9D, 0x76, 0x00, 0x9C, 0x63, 0x7C, 0x82, 0x01, 0x20, 0x88, 0xA8],
    .hole "hashlock".toList, .lit [0x88, 0x00, 0xCD, 0xAA],
      .hole "expectedTakerNftHash".toList,
    .lit [0x87, 0x77, 0x67, 0x51, 0x9D], .hole "refundCsv".toList,
    .lit [0xB2, 0x75, 0x00, 0xCD, 0xAA], .hole "expectedMakerNftHash".toList,
      .lit [0x87, 0x68]]

def ftPieces : List Piece :=
  [.lit [0xD0], .hole "REF".toList,
    .lit [0xC4, 0x51, 0x9D, 0x76, 0xDE, 0x51, 0x9D, 0xDC],
      .hole "amount".toList,
    .lit [0x9D, 0x76, 0x00, 0x9C, 0x63, 0x7C, 0x82, 0x01, 0x20, 0x88, 0xA8],
    .hole "hashlock".toList, .lit [0x88, 0x00, 0xCD, 0xAA],
      .hole "expectedTakerFtHash".toList,
    .lit [0x87, 0x77, 0x67, 0x51, 0x9D], .hole "refundCsv".toList,
    .lit [0xB2, 0x75, 0x00, 0xCD, 0xAA], .hole "expectedMakerFtHash".toList,
      .lit [0x87, 0x68]]

set_option maxRecDepth 4096 in
/-- The RXD template is the text of its pieces. -/
theorem rxdTemplate_text : rxdTemplate = String.ofList
    (templateText rxdPieces) := rfl

set_option maxRecDepth 4096 in
theorem nftTemplate_text : nftTemplate = String.ofList
    (templateText nftPieces) := rfl

set_option maxRecDepth 4096 in
theorem ftTemplate_text : ftTemplate = String.ofList (templateText ftPieces) :=
  rfl

/-- The push of the size the preimage must have. -/
theorem pushBytes_size : pushBytes [0x20] = [0x01, 0x20] := rfl

section Fill

variable {b : HtlcBinding}

/-- Filling the RXD template spells the covenant's code. -/
theorem substitute_rxd (hv : b.variant = .rxd) : substitute rxdTemplate [
    ("hashlock", pushBytes b.hashlock),
      ("refundCsv", (numChunk b.refundCsv).bytes),
    ("amount", (numChunk b.amount).bytes),
      ("expectedTakerHash", pushBytes b.takerHash),
    ("expectedMakerHash", pushBytes b.makerHash)] .rxd =
      .ok (assembleCode b.code) := by
  have hbytes : assembleCode b.code = [
      [0xC4, 0x51, 0x9D, 0x76, 0x00, 0x9C, 0x63, 0x7C, 0x82, 0x01,
        0x20, 0x88, 0xA8],
      pushBytes b.hashlock, [0x88, 0x00, 0xCC], (numChunk b.amount).bytes,
      [0xA2, 0x69, 0x00, 0xCD, 0xAA], pushBytes b.takerHash,
        [0x87, 0x77, 0x67, 0x51, 0x9D],
      (numChunk b.refundCsv).bytes, [0xB2, 0x75, 0x00, 0xCC],
        (numChunk b.amount).bytes,
      [0xA2, 0x69, 0x00, 0xCD, 0xAA], pushBytes b.makerHash,
        [0x87, 0x68]].flatten := by
    rw [HtlcBinding.code, hv]
    simp [assembleCode, HtlcBinding.oneOutput, HtlcBinding.branches,
      HtlcBinding.payTo, Chunk.bytes,
      pushBytes_size]
  rw [hbytes]
  exact substitute_lits ["hashlock", "refundCsv", "amount", "expectedTakerHash",
    "expectedMakerHash"] rxdTemplate_text rfl (by decide) (by decide)
    (by simp [fillAll, rxdPieces, Piece.fill])

/-- Filling the NFT template does. -/
theorem substitute_nft (hv : b.variant = .nft) : substitute nftTemplate [
    ("REF", b.ref), ("hashlock", pushBytes b.hashlock),
    ("refundCsv", (numChunk b.refundCsv).bytes),
      ("nftCarrierValue", (numChunk b.amount).bytes),
      ("expectedTakerNftHash", pushBytes b.takerHash),
    ("expectedMakerNftHash", pushBytes b.makerHash)] .nft =
      .ok (assembleCode b.code) := by
  have hbytes : assembleCode b.code = [[0xD8], b.ref,
      [0xC4, 0x51, 0x9D, 0xDE, 0x51, 0x9D, 0x00, 0xCC],
        (numChunk b.amount).bytes,
      [0x9D, 0x76, 0x00, 0x9C, 0x63, 0x7C, 0x82, 0x01, 0x20, 0x88, 0xA8],
        pushBytes b.hashlock,
      [0x88, 0x00, 0xCD, 0xAA], pushBytes b.takerHash,
        [0x87, 0x77, 0x67, 0x51, 0x9D],
      (numChunk b.refundCsv).bytes, [0xB2, 0x75, 0x00, 0xCD, 0xAA],
        pushBytes b.makerHash,
      [0x87, 0x68]].flatten := by
    rw [HtlcBinding.code, hv]
    simp [assembleCode, HtlcBinding.oneOutput, HtlcBinding.branches,
      HtlcBinding.payTo, Chunk.bytes,
      pushBytes_size]
  rw [hbytes]
  exact substitute_lits ["REF", "hashlock", "refundCsv",
    "nftCarrierValue", "expectedTakerNftHash",
    "expectedMakerNftHash"] nftTemplate_text rfl (by decide) (by decide)
    (by simp [fillAll, nftPieces, Piece.fill])

/-- Filling the FT template does. -/
theorem substitute_ft (hv : b.variant = .ft) : substitute ftTemplate [
    ("REF", b.ref), ("hashlock", pushBytes b.hashlock),
    ("refundCsv", (numChunk b.refundCsv).bytes),
      ("amount", (numChunk b.amount).bytes),
    ("expectedTakerFtHash", pushBytes b.takerHash),
    ("expectedMakerFtHash", pushBytes b.makerHash)] .ft =
      .ok (assembleCode b.code) := by
  have hbytes : assembleCode b.code = [[0xD0], b.ref,
      [0xC4, 0x51, 0x9D, 0x76, 0xDE, 0x51, 0x9D, 0xDC],
        (numChunk b.amount).bytes,
      [0x9D, 0x76, 0x00, 0x9C, 0x63, 0x7C, 0x82, 0x01, 0x20, 0x88, 0xA8],
        pushBytes b.hashlock,
      [0x88, 0x00, 0xCD, 0xAA], pushBytes b.takerHash,
        [0x87, 0x77, 0x67, 0x51, 0x9D],
      (numChunk b.refundCsv).bytes, [0xB2, 0x75, 0x00, 0xCD, 0xAA],
        pushBytes b.makerHash,
      [0x87, 0x68]].flatten := by
    rw [HtlcBinding.code, hv]
    simp [assembleCode, HtlcBinding.oneOutput, HtlcBinding.branches,
      HtlcBinding.payTo, Chunk.bytes,
      pushBytes_size]
  rw [hbytes]
  exact substitute_lits ["REF", "hashlock", "refundCsv", "amount",
    "expectedTakerFtHash",
    "expectedMakerFtHash"] ftTemplate_text rfl (by decide) (by decide)
    (by simp [fillAll, ftPieces, Piece.fill])

end Fill

end Pyrxd.Gravity
