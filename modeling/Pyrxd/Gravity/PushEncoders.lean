import Pyrxd.Btc.Htlc
import Pyrxd.Glyph.CommitReveal
import Pyrxd.Glyph.DmintRoundTrip
import Pyrxd.Gravity.HtlcBinds
import Pyrxd.Tx.Address

/-!
# Six encoders of a number

A number that a script is to find on its stack is encoded in six places. Five of
them write the same bytes wherever they write any: the push that `MINIMALDATA`
asks for (`written`). The sixth, `_encode_int_push` of `covenant.py`, has no
case for -1 and none for a push of more than 75 bytes, and there its bytes are
others (`encoders_agree_iff`).
-/

namespace Pyrxd.Glyph

open Pyrxd.Lib

/-- `_push_minimal_int` of `payload.py`. -/
def Payload.pushMinimalInt (n : Int) : Except PyErr Bytes :=
  if n = 0 then .ok [0x00]
  else if 1 ≤ n ∧ n ≤ 16 then .ok [UInt8.ofNat (0x50 + n.toNat)]
  else
    -- `while n > 0` collects nothing of a negative number
    let result := magBytes n.toNat
    match result.getLast? with
    | none => .error (.other "list index out of range")
    | some last =>
      let payload := if last &&& 0x80 ≠ 0 then result ++ [0x00] else result
      let length := payload.length
      if length < 0x4C then .ok (UInt8.ofNat length :: payload)
      else if length ≤ 0xFF then .ok (0x4C :: UInt8.ofNat length :: payload)
      else invalid "_push_minimal_int: value too large"

end Pyrxd.Glyph

namespace Pyrxd.Gravity

open Pyrxd.Lib Pyrxd.Glyph Pyrxd.Tx Htlc
open Pyrxd.Swap (encodePushdata getPushdataCode)

/-! ## The other two -/

/-- `_encode_int_push`. -/
def encodeIntPush (n : Int) : Except PyErr Bytes :=
  if n = 0 then .ok [0x00]
  else if 1 ≤ n ∧ n ≤ 16 then .ok [UInt8.ofNat (0x50 + n.toNat)]
  else
    let body := scriptNum n
    if body.length ≤ 0xFF then .ok (UInt8.ofNat body.length :: body)
    else .error (.other "bytes must be in range(0, 256)")

/-- `unsigned_to_bytes(num, "little")`. -/
def unsignedToBytesLe (num : Nat) : Bytes :=
  let length := (bitLength num + 7) / 8
  leBytes (if length = 0 then 1 else length) num

/-- `encode_int`. -/
def encodeInt (num : Int) : Except PyErr Bytes :=
  if num = 0 then .ok [0x00]
  else
    let octets := unsignedToBytesLe num.natAbs
    let octets := if octets.getLastD 0 &&& 0x80 ≠ 0 then octets ++
      [0x00] else octets
    let octets := if num < 0 then octets.dropLast ++
      [octets.getLastD 0 ||| 0x80] else octets
    encodePushdata octets

/-- The encoders. -/
def encoders : List (Int → Except PyErr Bytes) :=
  [Btc.pushMinimalInt, pushMinimal, minimalNumPush, encodeIntPush,
    Payload.pushMinimalInt, encodeInt]

/-! ## The push that all should write -/

/-- A chunk as bytes, also one of more than 64 KB. -/
def framed : Chunk → Bytes
  | .data d =>
    if d.length ≤ 0xFFFF then pushBytes d else 0x4E :: (leBytes 4 d.length ++ d)
  | t => t.bytes

/-- The chunk that puts a number on the stack. -/
def numberChunk (n : Int) : Chunk :=
  if n = 0 then .op 0x00
  else if n = -1 then .op 0x4F
  else if 1 ≤ n ∧ n ≤ 16 then .op (UInt8.ofNat (0x50 + n.toNat))
  else .data (scriptNum n)

/-- The bytes are the shortest push of the number, and there is one. -/
structure PushWritten (n : Int) (b : Bytes) : Prop where
  bytes : b = framed (numberChunk n)
  fits : (scriptNum n).length < 2 ^ 32

/-- What a push puts on the stack, as a number with the signs of
`_parse_script_int`. -/
def pushedNumber : Chunk → Option Int
  | .op code =>
    if code = 0x00 then some 0
    else if code = 0x4F then some (-1)
    else if 0x51 ≤ code ∧ code ≤ 0x60 then some ((code.toNat : Int) - 0x50)
    else none
  | .data d => some (decodeScriptLeInt d)
  | .ref _ _ => none

/-- The bytes are one push, of this number; `_parse_script_int` says so too, of
the lengths it knows. -/
structure ReadsBack (n : Int) (b : Bytes) : Prop where
  number : ∃ t, readChunk b = some (t, []) ∧ pushedNumber t = some n
  parsed : (scriptNum n).length ≤ 0xFF → Reads parseScriptInt b n

/-! ## Numbers that have an opcode -/

theorem scriptNum_small : ∀ n : Nat, n ≤ 16 → 1 ≤ n →
    scriptNum n = [UInt8.ofNat n] := by decide

/-- A number whose encoding is empty, or one byte that has an opcode. -/
theorem scriptNum_eq_iff {n : Int} {b : Bytes} {m : Int} (h : scriptNum m = b) :
    scriptNum n = b ↔ n = m := by
  constructor
  · intro hn
    rw [← decodeNum_scriptNum n, hn, ← h, decodeNum_scriptNum]
  · rintro rfl
    exact h

section Beyond

variable {n : Int} (h0 : n ≠ 0) (h1 : n ≠ -1) (hs : ¬ (1 ≤ n ∧ n ≤ 16))

include h0 in
/-- A positive number has bytes. -/
theorem scriptNum_nonempty : 1 ≤ (scriptNum n).length := by
  refine List.length_pos_iff.mpr fun hnil => ?_
  exact h0 ((scriptNum_eq_iff (m := 0) rfl).mp hnil)

include h1 hs in
/-- A one-byte push of a number that has no opcode is minimal. -/
theorem minimalPush_scriptNum : MinimalPush (.data (scriptNum n)) := by
  rcases hb : scriptNum n with _ | ⟨x, _ | ⟨y, rest⟩⟩
  · trivial
  · rintro (⟨hlo, hhi⟩ | hneg)
    · have hlo' : 1 ≤ x.toNat := hlo
      have hhi' : x.toNat ≤ 16 := hhi
      have hx := scriptNum_small x.toNat hhi' hlo'
      rw [UInt8.ofNat_toNat] at hx
      have := (scriptNum_eq_iff hx).mp hb
      exact hs ⟨by omega, by omega⟩
    · rw [hneg] at hb
      exact h1 ((scriptNum_eq_iff (m := -1) (by decide)).mp hb)
  · trivial

include h0 h1 hs in
/-- A larger number is pushed as data. -/
theorem numberChunk_data : numberChunk n = .data (scriptNum n) := by
  rw [numberChunk, if_neg h0, if_neg h1, if_neg hs]

end Beyond

theorem numberChunk_small {n : Int} (hs : 1 ≤ n ∧ n ≤ 16) :
    numberChunk n = .op (UInt8.ofNat (0x50 + n.toNat)) := by
  rw [numberChunk, if_neg (by omega), if_neg (by omega), if_pos hs]

/-- Short numbers have short encodings. -/
theorem length_scriptNum_small {n : Int} (h : n.natAbs ≤ 16) :
    (scriptNum n).length < 2 ^ 32 := by
  have := (length_scriptNum_le n 0).mpr (by omega)
  omega

/-! ## What each encoder writes -/

section Encoders

variable {n : Int} {b : Bytes}

/-- Zero is written as the empty push. -/
theorem written_zero : PushWritten 0 [0x00] := ⟨rfl, by decide⟩

/-- A small number is written as its opcode. -/
theorem written_small (hs : 1 ≤ n ∧ n ≤ 16) :
    PushWritten n [UInt8.ofNat (0x50 + n.toNat)] :=
  ⟨by rw [numberChunk_small hs]; rfl, length_scriptNum_small (by omega)⟩

/-- Any other number is written as its bytes. -/
theorem written_data (h0 : n ≠ 0) (h1 : n ≠ -1)
    (hs : ¬ (1 ≤ n ∧ n ≤ 16)) (hfits : (scriptNum n).length < 2 ^ 32)
    (hb : b = framed (.data (scriptNum n))) : PushWritten n b :=
  ⟨by rw [numberChunk_data h0 h1 hs]; exact hb, hfits⟩

theorem framed_direct {d : Bytes} (h : d.length ≤ 75) :
    framed (.data d) = UInt8.ofNat d.length :: d := by
  rw [framed, if_pos (by omega), pushBytes, if_pos h]

/-- A push behind `OP_PUSHDATA1`. -/
theorem framed_pushdata1 {d : Bytes} (h75 : ¬ d.length ≤ 75)
    (h255 : d.length ≤ 255) :
    framed (.data d) = 0x4C :: UInt8.ofNat d.length :: d := by
  rw [framed, if_pos (by omega), pushBytes, if_neg h75, if_pos h255]

/-- A push behind `OP_PUSHDATA2`. -/
theorem framed_pushdata2 {d : Bytes} (h255 : ¬ d.length ≤ 255)
    (h64k : d.length ≤ 0xFFFF) :
    framed (.data d) = 0x4D :: (leBytes 2 d.length ++ d) := by
  rw [framed, if_pos h64k, pushBytes, if_neg (by omega), if_neg h255]

/-- A push behind `OP_PUSHDATA4`. -/
theorem framed_pushdata4 {d : Bytes} (h64k : ¬ d.length ≤ 0xFFFF) :
    framed (.data d) = 0x4E :: (leBytes 4 d.length ++ d) := by
  rw [framed, if_neg h64k]

/-- A positive number carries its sign in a byte of its own where the top bit is
taken. -/
theorem scriptNum_positive (h : 0 < n) :
    ∃ last, (magBytes n.toNat).getLast? = some last ∧
    scriptNum n = if 0x80 ≤ last then magBytes n.toNat ++ [0x00]
      else magBytes n.toNat := by
  have habs : n.natAbs = n.toNat := by omega
  have hneg : ¬ n < 0 := by omega
  cases hl : (magBytes n.toNat).getLast? with
  | none =>
    have := magBytes_eq_nil.mp (List.getLast?_eq_none_iff.mp hl)
    omega
  | some last =>
    refine ⟨last, rfl, ?_⟩
    rw [scriptNum, habs, hl]
    simp only [if_neg hneg]

/-- The taproot encoder writes the minimal push. -/
theorem written_taproot (h : Btc.pushMinimalInt n = .ok b) :
    PushWritten n b := by
  rw [Btc.pushMinimalInt] at h
  split at h
  · cases h
  split at h
  · next h0 =>
    cases h
    subst h0
    exact written_zero
  split at h
  · next hs =>
    cases h
    exact written_small hs
  next hneg h0 hs =>
    obtain ⟨last, hl, hnum⟩ := scriptNum_positive (n := n) (by omega)
    dsimp only at h
    rw [List.getLastD_eq_getLast?, hl, Option.getD_some, ← hnum,
      Btc.pushData] at h
    have hpos := scriptNum_nonempty h0
    rw [if_neg (by omega)] at h
    split at h
    · next h75 =>
      cases h
      exact written_data h0 (by omega) hs (by omega) (framed_direct h75).symm
    · next h75 =>
      split at h
      · next h255 =>
        cases h
        exact written_data h0 (by omega) hs (by omega)
          (framed_pushdata1 h75 h255).symm
      · cases h

theorem written_pushMinimal (h : pushMinimal n = .ok b) : PushWritten n b := by
  rw [pushMinimal] at h
  split at h
  · next h0 =>
    cases h
    subst h0
    exact written_zero
  split at h
  · next h1 =>
    cases h
    subst h1
    exact ⟨rfl, by decide⟩
  split at h
  · next hs =>
    cases h
    exact written_small hs
  next h0 h1 hs =>
    dsimp only at h
    split at h
    · next h75 =>
      cases h
      exact written_data h0 h1 hs (by omega) (framed_direct (by omega)).symm
    · next h75 =>
      split at h
      · next h255 =>
        cases h
        exact written_data h0 h1 hs (by omega)
          (framed_pushdata1 (by omega) h255).symm
      · cases h

theorem written_minimalNumPush (h : minimalNumPush n = .ok b) :
    PushWritten n b := by
  obtain ⟨hneg, h⟩ := refuseIf_bind_ok.mp h
  split at h
  · next h0 =>
    cases h
    subst h0
    exact written_zero
  split at h
  · next hs =>
    cases h
    exact written_small hs
  next h0 hs =>
    rw [push] at h
    split at h
    · next h64k =>
      cases h
      exact written_data h0 (by omega) hs (by omega)
        (by rw [framed, if_pos h64k])
    · cases h

theorem written_payload (h : Payload.pushMinimalInt n = .ok b) :
    PushWritten n b := by
  rw [Payload.pushMinimalInt] at h
  split at h
  · next h0 =>
    cases h
    subst h0
    exact written_zero
  split at h
  · next hs =>
    cases h
    exact written_small hs
  next h0 hs =>
    rcases Int.lt_or_lt_of_ne h0 with hneg | hpos
    · rw [Int.toNat_of_nonpos (by omega)] at h
      cases h
    obtain ⟨last, hl, hnum⟩ := scriptNum_positive hpos
    simp only [hl, and_128_ne_zero, ← hnum] at h
    split at h
    · next h75 =>
      cases h
      exact written_data h0 (by omega) hs (by omega)
        (framed_direct (by omega)).symm
    · next h75 =>
      split at h
      · next h255 =>
        cases h
        exact written_data h0 (by omega) hs (by omega)
          (framed_pushdata1 (by omega) h255).symm
      · cases h

/-- The fewest bytes of a magnitude are those the loops collect. -/
theorem unsignedToBytesLe_eq {num : Nat} (h : num ≠ 0) :
    unsignedToBytesLe num = magBytes num := by
  cases hl : (magBytes num).getLast? with
  | none =>
    exact absurd (magBytes_eq_nil.mp (List.getLast?_eq_none_iff.mp hl)) h
  | some last =>
    have hne : magBytes num ≠ [] := fun hnil => h (magBytes_eq_nil.mp hnil)
    obtain ⟨m, hm⟩ : ∃ m, (magBytes num).length = m + 1 :=
      ⟨_, (Nat.succ_pred_eq_of_pos (List.length_pos_iff.mpr hne)).symm⟩
    have hlast0 : 1 ≤ last.toNat := by
      rcases Nat.eq_zero_or_pos last.toNat with h0 | hpos
      · exact absurd (UInt8.toNat_inj.mp h0) (magBytes_last_ne_zero hl)
      · exact hpos
    have hlast := last.toNat_lt
    obtain ⟨hlo, hhi⟩ := magBytes_bounds hl
    rw [hm, Nat.add_sub_cancel] at hlo hhi
    have hpow : 0 < 256 ^ m := Nat.pow_pos (by decide)
    have hbits : (bitLength num + 7) / 8 = m + 1 := by
      refine bytes_of_bitLength ?_ ?_
      · exact Nat.le_trans (Nat.le_mul_of_pos_left _ hlast0) hlo
      · rw [Nat.pow_succ, Nat.mul_comm]
        exact Nat.lt_of_lt_of_le hhi (Nat.mul_le_mul_right _ (by omega))
    rw [unsignedToBytesLe, hbits, if_neg (by omega), ← hm]
    have hback := leBytes_leNat (magBytes num)
    rwa [leNat_magBytes] at hback

/-- The sign bit, set where it is clear. -/
theorem or_128 {x : UInt8} (h : x.toNat < 128) : x ||| 0x80 = x + 0x80 := by
  have hall : ∀ n < 128, UInt8.ofNat n ||| 0x80 =
      UInt8.ofNat n + 0x80 := by decide
  have := hall x.toNat h
  rwa [UInt8.ofNat_toNat] at this

/-- The octets of `encode_int` are the script number. -/
theorem octets_eq (h0 : n ≠ 0) :
    (let octets := unsignedToBytesLe n.natAbs
     let octets := if octets.getLastD 0 &&& 0x80 ≠ 0 then octets ++
       [0x00] else octets
     if n < 0 then octets.dropLast ++ [octets.getLastD 0 ||| 0x80]
       else octets) = scriptNum n := by
  have habs : n.natAbs ≠ 0 := by omega
  dsimp only
  rw [unsignedToBytesLe_eq habs]
  cases hl : (magBytes n.natAbs).getLast? with
  | none =>
    exact absurd (magBytes_eq_nil.mp (List.getLast?_eq_none_iff.mp hl)) habs
  | some last =>
    have hlastD : (magBytes n.natAbs).getLastD 0 = last := by
      rw [List.getLastD_eq_getLast?, hl, Option.getD_some]
    rw [scriptNum, hl, hlastD]
    simp only [and_128_ne_zero]
    by_cases hhigh : 0x80 ≤ last
    · simp only [if_pos hhigh, List.dropLast_concat, List.getLastD_concat]
      by_cases hneg : n < 0
      · rw [if_pos hneg, if_pos hneg]
        rfl
      · rw [if_neg hneg, if_neg hneg]
    · simp only [if_neg hhigh]
      by_cases hneg : n < 0
      · have hlow : last.toNat < 128 := by
          have : ¬ 128 ≤ last.toNat := hhigh
          omega
        rw [if_pos hneg, if_pos hneg, hlastD, or_128 hlow]
      · rw [if_neg hneg, if_neg hneg]

/-- The generic encoder pushes the number's bytes. -/
theorem encodeInt_eq (h0 : n ≠ 0) :
    encodeInt n = encodePushdata (scriptNum n) := by
  rw [encodeInt, if_neg h0, ← octets_eq h0]

theorem getPushdataCode_ok {d code : Bytes} (hpos : 1 ≤ d.length)
    (h : getPushdataCode d.length = .ok code) :
    code ++ d = framed (.data d) ∧ d.length < 2 ^ 32 := by
  rw [getPushdataCode] at h
  split at h
  · next h75 =>
    cases h
    exact ⟨(framed_direct h75).symm, by omega⟩
  next h75 =>
    split at h
    · next h255 =>
      cases h
      exact ⟨(framed_pushdata1 h75 h255).symm, by omega⟩
    next h255 =>
      split at h
      · next h64k =>
        cases h
        exact ⟨(framed_pushdata2 h255 h64k).symm, by omega⟩
      next h64k =>
        split at h
        · next h4g =>
          cases h
          exact ⟨(framed_pushdata4 h64k).symm, by omega⟩
        · cases h

/-- So where it has no case missing it writes the minimal push too. -/
theorem written_encodeInt (h : encodeInt n = .ok b) : PushWritten n b := by
  -- the cases of the encoder: zero, minus one, the small numbers, the rest
  by_cases h0 : n = 0
  · subst h0
    cases h
    exact written_zero
  rw [encodeInt_eq h0] at h
  by_cases h1 : n = -1
  · subst h1
    cases h
    exact ⟨rfl, by decide⟩
  by_cases hs : 1 ≤ n ∧ n ≤ 16
  · obtain ⟨k, rfl⟩ : ∃ k : Nat, n = k := ⟨n.toNat, by omega⟩
    have hk1 : 1 ≤ k := by omega
    have hk16 : k ≤ 16 := by omega
    rw [scriptNum_small k hk16 hk1] at h
    have hop : ∀ k ≤ 16, 1 ≤ k → encodePushdata [UInt8.ofNat k] =
        .ok [UInt8.ofNat (0x50 + k)] := by decide
    rw [hop k hk16 hk1] at h
    cases h
    exact written_small hs
  have hmin := minimalPush_scriptNum h1 hs
  have hpos := scriptNum_nonempty h0
  refine (fun hb : b = framed (.data (scriptNum n)) ∧
      (scriptNum n).length < 2 ^ 32 =>
    written_data h0 h1 hs hb.2 hb.1) ?_
  rcases hd : scriptNum n with _ | ⟨x, _ | ⟨y, rest⟩⟩
  · rw [hd] at hpos
    exact absurd hpos (by decide)
  · rw [hd] at h hmin
    have hno : ¬ (1 ≤ x ∧ x ≤ 16 ∨ x = 0x81) := hmin
    rw [encodePushdata, if_neg (fun hx => hno (.inl hx)),
      if_neg (fun hx => hno (.inr hx))] at h
    cases h
    exact ⟨rfl, Nat.lt_of_lt_of_le Nat.one_lt_two (by decide)⟩
  · rw [hd] at h
    obtain ⟨code, hcode, h⟩ := bind_ok.mp h
    cases h
    obtain ⟨hframed, hfits⟩ :=
      getPushdataCode_ok (by rw [List.length_cons]; omega) hcode
    exact ⟨hframed, hfits⟩

/-- The sixth encoder, where it has the case. -/
theorem written_encodeIntPush (h1 : n ≠ -1) (h75 : (scriptNum n).length ≤ 75)
    (h : encodeIntPush n = .ok b) : PushWritten n b := by
  rw [encodeIntPush] at h
  split at h
  · next h0 =>
    cases h
    subst h0
    exact written_zero
  split at h
  · next hs =>
    cases h
    exact written_small hs
  next h0 hs =>
    dsimp only at h
    rw [if_pos (by omega)] at h
    cases h
    exact written_data h0 h1 hs (by omega) (framed_direct h75).symm

end Encoders

/-! ## What the push is -/

/-- A push of more than 64 KB, walked in one step. -/
theorem assertMinimalPushes_pushdata4 {d : Bytes} (h64k : ¬ d.length ≤ 0xFFFF)
    (h4g : d.length < 2 ^ 32)
    (variant : AssetVariant) : assertMinimalPushes
      (0x4E :: (leBytes 4 d.length ++ d)) variant = .ok () := by
  have hsize : leNat ((leBytes 4 d.length ++ d).take 4) = d.length := by
    rw [List.take_left' (length_leBytes 4 _)]
    exact leNat_leBytes (by omega)
  have hlen : (leBytes 4 d.length ++ d).length =
      4 + d.length := by rw [List.length_append, length_leBytes]
  have hwidth : minimalWidth variant 0 0x4E (leBytes 4 d.length ++ d) =
      .ok (5 + d.length) := by
    rw [minimalWidth]
    simp only [if_neg (by decide : ¬ (0x4E : UInt8) ∈ refOps),
      if_neg (by decide : ¬ ((0x01 : UInt8) ≤ 0x4E ∧ (0x4E : UInt8) ≤ 0x4B)),
      if_neg (by decide : ¬ (0x4E : UInt8) = 0x4C),
        if_neg (by decide : ¬ (0x4E : UInt8) = 0x4D), if_true, refuseIf, hsize]
    rw [if_neg (by omega), ok_bind, if_neg h64k, ok_bind]
    rfl
  rw [assertMinimalPushes, List.length_cons, minimalWalk, hwidth, ok_bind,
    List.drop_eq_nil_of_le (by rw [List.length_cons, hlen]; omega)]
  cases (leBytes 4 d.length ++ d).length <;> rfl

/-- A fine opcode is a minimal push. -/
theorem assertMinimalPushes_op {code : UInt8} (h : fineOp code = true)
    (variant : AssetVariant) : assertMinimalPushes [code] variant = .ok () :=
  @assertMinimalPushes_assemble [.op code] (by
    intro t ht
    rw [List.mem_singleton.mp ht]
    exact ⟨(fine_op h).walked, (fine_op h).minimal⟩) variant

/-- The small number opcodes are fine. -/
theorem fineOp_small : ∀ n ≤ 16, 1 ≤ n →
    fineOp (UInt8.ofNat (0x50 + n)) = true := by decide

section Push

variable {n : Int} {b : Bytes}

/-- **The push passes `_assert_minimal_pushes`.** -/
theorem PushWritten.minimal (h : PushWritten n b) (variant : AssetVariant) :
    assertMinimalPushes b variant = .ok () := by
  obtain ⟨rfl, hfits⟩ := h
  by_cases h0 : n = 0
  · subst h0
    exact assertMinimalPushes_op (by decide) variant
  by_cases h1 : n = -1
  · subst h1
    exact assertMinimalPushes_op (by decide) variant
  by_cases hs : 1 ≤ n ∧ n ≤ 16
  · rw [numberChunk_small hs]
    exact assertMinimalPushes_op
      (fineOp_small n.toNat (by omega) (by omega)) variant
  rw [numberChunk_data h0 h1 hs]
  by_cases h64k : (scriptNum n).length ≤ 0xFFFF
  · rw [framed, if_pos h64k]
    have := @assertMinimalPushes_assemble [.data (scriptNum n)] (by
      intro t ht
      rw [List.mem_singleton.mp ht]
      exact ⟨⟨⟨scriptNum_nonempty h0, h64k⟩, fun code r hc => by cases hc⟩, minimalPush_scriptNum h1 hs⟩) variant
    rwa [assembleCode, List.flatMap_cons, List.flatMap_nil,
      List.append_nil] at this
  · rw [framed_pushdata4 h64k]
    exact assertMinimalPushes_pushdata4 h64k hfits variant

/-- A minimal push of at most 255 bytes is the dMint encoder's. -/
theorem pushMinimal_of_written (h : PushWritten n b)
    (h255 : (scriptNum n).length ≤ 0xFF) : pushMinimal n = .ok b := by
  obtain ⟨rfl, -⟩ := h
  rw [pushMinimal]
  by_cases h0 : n = 0
  · rw [if_pos h0, numberChunk, if_pos h0]
    rfl
  by_cases h1 : n = -1
  · rw [if_neg h0, if_pos h1, numberChunk, if_neg h0, if_pos h1]
    rfl
  by_cases hs : 1 ≤ n ∧ n ≤ 16
  · rw [if_neg h0, if_neg h1, if_pos hs, numberChunk_small hs]
    rfl
  rw [if_neg h0, if_neg h1, if_neg hs, numberChunk_data h0 h1 hs]
  dsimp only
  by_cases h75 : (scriptNum n).length ≤ 75
  · rw [if_pos (by omega), framed_direct h75]
  · rw [if_neg (by omega), if_pos h255, framed_pushdata1 h75 h255]

/-- **The push is read back.** -/
theorem PushWritten.readsBack (h : PushWritten n b) : ReadsBack n b := by
  refine ⟨?_, fun h255 => reads_pushMinimal (pushMinimal_of_written h h255)⟩
  obtain ⟨rfl, hfits⟩ := h
  by_cases h0 : n = 0
  · subst h0
    exact ⟨.op 0x00, rfl, rfl⟩
  by_cases h1 : n = -1
  · subst h1
    exact ⟨.op 0x4F, rfl, rfl⟩
  by_cases hs : 1 ≤ n ∧ n ≤ 16
  · obtain ⟨k, rfl⟩ : ∃ k : Nat, n = k := ⟨n.toNat, by omega⟩
    have hk1 : 1 ≤ k := by omega
    have hk16 : k ≤ 16 := by omega
    have hall : ∀ k ≤ 16, 1 ≤ k → readChunk [UInt8.ofNat (0x50 + k)] =
        some (.op (UInt8.ofNat (0x50 + k)), []) ∧ pushedNumber
        (.op (UInt8.ofNat (0x50 + k))) = some (k : Int) := by decide
    rw [numberChunk_small hs]
    exact ⟨_, hall k hk16 hk1⟩
  rw [numberChunk_data h0 h1 hs]
  refine ⟨.data (scriptNum n), ?_, by rw [pushedNumber, decodeScriptLeInt_eq,
    decodeNum_scriptNum]⟩
  by_cases h64k : (scriptNum n).length ≤ 0xFFFF
  · rw [framed, if_pos h64k]
    have := @readChunk_push (scriptNum n) [] ⟨scriptNum_nonempty h0, h64k⟩
    rwa [List.append_nil] at this
  · rw [framed_pushdata4 h64k]
    exact @readChunk_data 4 (scriptNum n).length 0x4E
      (leBytes 4 (scriptNum n).length) (by decide) (by decide)
      (by decide) (length_leBytes 4 _) rfl (leNat_leBytes (by omega))
        (scriptNum n) rfl

end Push

/-! ## The main theorem -/

/-- Whatever two encoders write of a number is the same, minimal, and read
back. -/
def EncodersAgree (n : Int) : Prop :=
  ∀ e ∈ encoders, ∀ f ∈ encoders, ∀ a b, e n = .ok a → f n = .ok b →
    a = b ∧ (∀ variant, assertMinimalPushes a variant = .ok ()) ∧ ReadsBack n a

/-- The numbers that `_encode_int_push` has no case for: -1, and those of 76 to
255 bytes. -/
def NoCase (n : Int) : Prop := n = -1 ∨
  (128 * 256 ^ 74 ≤ n.natAbs ∧ n.natAbs < 128 * 256 ^ 254)

/-- Outside the missing cases every encoder writes the minimal push. -/
theorem written {n : Int} {b : Bytes} (hcase : ¬ NoCase n) :
    ∀ e ∈ encoders, e n = .ok b → PushWritten n b := by
  intro e he h
  simp only [encoders, List.mem_cons, List.not_mem_nil, or_false] at he
  rcases he with rfl | rfl | rfl | rfl | rfl | rfl
  · exact written_taproot h
  · exact written_pushMinimal h
  · exact written_minimalNumPush h
  · rw [NoCase, not_or, not_and_or] at hcase
    refine written_encodeIntPush hcase.1 ?_ h
    rcases hcase.2 with hshort | hlong
    · exact (length_scriptNum_le n 74).mpr (by omega)
    · -- beyond 255 bytes it writes nothing
      have h255 : ¬ (scriptNum n).length ≤ 254 + 1 :=
        fun hle => hlong ((length_scriptNum_le n 254).mp hle)
      rw [encodeIntPush] at h
      split at h
      · next h0 =>
        rw [h0]
        decide
      split at h
      · next hs =>
        have := (length_scriptNum_le n 0).mpr (by omega)
        omega
      · dsimp only at h
        rw [if_neg (by omega)] at h
        cases h
  · exact written_payload h
  · exact written_encodeInt h

/-- Where it has no case, it writes something else than `_push_minimal` does. -/
theorem encodeIntPush_differs {n : Int} (h : NoCase n) :
    ∃ a b, encodeIntPush n = .ok a ∧ pushMinimal n = .ok b ∧ a ≠ b := by
  rcases h with rfl | ⟨hlo, hhi⟩
  · exact ⟨[0x01, 0x81], [0x4F], rfl, rfl, by decide⟩
  · have h75 : ¬ (scriptNum n).length ≤ 74 + 1 :=
      fun hle => absurd ((length_scriptNum_le n 74).mp hle) (by omega)
    have h255 : (scriptNum n).length ≤ 254 + 1 :=
      (length_scriptNum_le n 254).mpr hhi
    have hbig : ¬ n.natAbs < 128 * 256 ^ 0 := fun hlt =>
      h75 (Nat.le_trans ((length_scriptNum_le n 0).mpr hlt) (by omega))
    have h0 : n ≠ 0 := by
      rintro rfl
      exact hbig (by decide)
    have hs : ¬ (1 ≤ n ∧ n ≤ 16) := by omega
    refine ⟨UInt8.ofNat (scriptNum n).length :: scriptNum n,
      0x4C :: UInt8.ofNat (scriptNum n).length :: scriptNum n, ?_, ?_, ?_⟩
    · rw [encodeIntPush, if_neg h0, if_neg hs]
      exact if_pos (by omega)
    · rw [pushMinimal, if_neg h0, if_neg (by omega), if_neg hs]
      dsimp only
      rw [if_neg (by omega), if_pos (by omega)]
    · intro heq
      have := congrArg List.length heq
      rw [List.length_cons, List.length_cons, List.length_cons] at this
      omega

/-- **The six encoders agree on exactly the numbers that `_encode_int_push` has
a case for.** -/
theorem encoders_agree_iff (n : Int) : EncodersAgree n ↔ ¬ NoCase n := by
  constructor
  · intro h hno
    obtain ⟨a, b, ha, hb, hne⟩ := encodeIntPush_differs hno
    exact hne (h encodeIntPush (by simp [encoders]) pushMinimal
      (by simp [encoders]) a b ha hb).1
  · intro hcase e he f hf a b ha hb
    have hwa := written hcase e he ha
    have hwb := written hcase f hf hb
    exact ⟨hwa.bytes.trans hwb.bytes.symm, hwa.minimal, hwa.readsBack⟩

/-- **Of -1 it writes a push that the guard refuses**, where the others write
`OP_1NEGATE`. -/
theorem encodeIntPush_minus_one :
    encodeIntPush (-1) = .ok [0x01, 0x81] ∧
    encodeInt (-1) = .ok [0x4F] ∧ pushMinimal (-1) = .ok [0x4F] ∧
    (assertMinimalPushes [0x01, 0x81] .rxd).isOk = false := by
  refine ⟨rfl, ?_, rfl, by decide⟩
  rw [encodeInt_eq (by decide)]
  rfl

end Pyrxd.Gravity
