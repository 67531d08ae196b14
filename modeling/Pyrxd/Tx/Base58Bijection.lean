import Pyrxd.Lib.Positional
import Pyrxd.Tx.Address

/-!
# Base 58 is a bijection

`b58_encode` and `b58_decode` are the two directions of one change of base, from
256 to 58 and back, between a byte and its value on one side and a character and
its place in the alphabet on the other. `utils.py` has a second pair of
functions, over lists of integers. It computes the same, save that `from_base58`
refuses the empty string.

A checksum is any four bytes made from the payload: nothing here depends on how.
-/

namespace Pyrxd.Tx

open Pyrxd.Lib

/-! ## The second pair of functions -/

/-- `to_base58`: the number is divided down, then a `1` goes in front for each
leading zero. -/
def toBase58 (bin : List Int) : String :=
  let acc := bin.foldl (fun acc byte => acc * 256 + byte) 0
  let result := (base58Digits acc.toNat acc.toNat).reverse
  String.ofList (List.replicate (bin.takeWhile (· == 0)).length '1' ++ result)

/-- `acc = acc * 58 + base58chars.index(char)`. -/
def fromBase58Number : Nat → List Char → Except PyErr Nat
  | acc, [] => .ok acc
  | acc, c :: cs =>
    let digit := base58Alphabet.idxOf c
    if digit < 58 then fromBase58Number (acc * 58 + digit) cs
      else .error (.other "substring not found")

/-- `while acc > 0: result.append(acc % 256); acc //= 256`. -/
def fromBase58Bytes : Nat → Nat → List Int
  | 0, _ => []
  | fuel + 1, acc =>
    if acc = 0 then [] else (acc % 256 : Nat) ::
      fromBase58Bytes fuel (acc / 256)

/-- `from_base58`. -/
def fromBase58 (str : String) : Except PyErr (List Int) := do
  if str = "" then .error (.other "Expected base58 string but got ''") else
  if '0' ∈ str.toList ∨ 'I' ∈ str.toList ∨ 'O' ∈ str.toList ∨
      'l' ∈ str.toList then
    .error (.other ("Invalid base58 character in '" ++ str ++ "'"))
  else
  let psz := str.toList.length - (str.toList.dropWhile (· == '1')).length
  let acc ← fromBase58Number 0 str.toList
  return List.replicate psz 0 ++ (fromBase58Bytes acc acc).reverse

/-! ## With another checksum -/

/-- What stands behind a payload: four bytes made from it. -/
structure Checksum where
  sum : Bytes → Bytes
  length_sum : ∀ payload, (sum payload).length = 4

/-- `_checksum`. -/
def hashChecksum : Checksum where
  sum := checksum
  length_sum payload := by
    rw [checksum, List.length_take, hash256, length_sha256]
    rfl

/-- `base58check_encode`, over any checksum. -/
def base58checkEncodeBy (cs : Checksum) (payload : Bytes) : String :=
  b58Encode (payload ++ cs.sum payload)

/-- `base58check_decode`, over any checksum. -/
def base58checkDecodeBy (cs : Checksum) (encoded : String) :
    Except PyErr Bytes := do
  let decoded ← b58Decode encoded
  let payload := decoded.take (decoded.length - 4)
  let decodedChecksum := decoded.drop (decoded.length - 4)
  if decodedChecksum ≠ cs.sum payload then
    .error (.other ("unmatched base58 checksum, expect " ++
      hex decodedChecksum ++ " but actually " ++
      hex (cs.sum payload)))
  else return payload

/-- The real encoder, with the hash for its checksum. -/
theorem base58checkEncode_eq :
    base58checkEncode = base58checkEncodeBy hashChecksum := rfl

theorem base58checkDecode_eq :
    base58checkDecode = base58checkDecodeBy hashChecksum := rfl

/-! ## Characters and bytes as digits -/

/-- The places of a string's characters in the alphabet. -/
def charDigits (cs : List Char) : List Nat :=
  cs.map fun c => base58Alphabet.idxOf c

/-- The values of a string's bytes. -/
def byteDigits (p : Bytes) : List Nat := p.map UInt8.toNat

/-- The values of a string's bytes, as the integers of a Python list. -/
def ints (p : Bytes) : List Int := p.map fun b => (b.toNat : Int)

/-- A character of the alphabet has an index. -/
theorem idxOf_lt_iff {c : Char} : base58Alphabet.idxOf c < 58 ↔
    c ∈ base58Alphabet :=
  List.idxOf_lt_length_iff (l := base58Alphabet)

theorem base58Char_idxOf {c : Char} (h : c ∈ base58Alphabet) :
    base58Char (base58Alphabet.idxOf c) = c := by
  have hlt : base58Alphabet.idxOf c < base58Alphabet.length :=
    List.idxOf_lt_length_iff.mpr h
  rw [base58Char, List.getD_eq_getElem?_getD, List.getElem?_eq_getElem hlt,
    Option.getD_some, List.getElem_idxOf]

/-- A text's digits write it again. -/
theorem map_base58Char_charDigits {cs : List Char}
    (h : ∀ c ∈ cs, c ∈ base58Alphabet) :
    (charDigits cs).map base58Char = cs := by
  rw [charDigits, List.map_map]
  conv_rhs => rw [← List.map_id cs]
  exact List.map_congr_left fun c hc => base58Char_idxOf (h c hc)

theorem charDigits_lt {cs : List Char} (h : ∀ c ∈ cs, c ∈ base58Alphabet) :
    ∀ d ∈ charDigits cs, d < 58 := by
  intro d hd
  obtain ⟨c, hc, rfl⟩ := List.mem_map.mp hd
  exact idxOf_lt_iff.mpr (h c hc)

/-- Bytes made of digits have those digits. -/
theorem byteDigits_map_ofNat {ds : List Nat} (h : ∀ d ∈ ds, d < 256) :
    byteDigits (ds.map UInt8.ofNat) = ds := by
  rw [byteDigits, List.map_map]
  conv_rhs => rw [← List.map_id ds]
  exact List.map_congr_left fun d hd => UInt8.toNat_ofNat_of_lt (h d hd)

/-- Zero bytes in front are zero digits in front. -/
theorem leadingZeros_byteDigits (p : Bytes) :
    leadingZeros (byteDigits p) = (p.takeWhile (· == 0)).length := by
  rw [leadingZeros, byteDigits, List.takeWhile_map, List.length_map]
  congr 2
  funext b
  show (b.toNat == 0) = (b == 0)
  rw [Bool.eq_iff_iff, beq_iff_eq, beq_iff_eq]
  exact UInt8.toNat_inj (b := 0)

theorem leadingZeros_charDigits (cs : List Char) :
    leadingZeros (charDigits cs) = (cs.takeWhile (· == '1')).length := by
  rw [leadingZeros, charDigits, List.takeWhile_map, List.length_map]
  congr 2
  funext c
  show (base58Alphabet.idxOf c == 0) = (c == '1')
  rw [Bool.eq_iff_iff, beq_iff_eq, beq_iff_eq]
  constructor
  · intro h
    have hmem : c ∈ base58Alphabet := idxOf_lt_iff.mp (by rw [h]; decide)
    rw [← base58Char_idxOf hmem, h]
    rfl
  · rintro rfl
    rfl

theorem leNat_eq_ofDigits (p : Bytes) :
    leNat p = Nat.ofDigits 256 (byteDigits p) := by
  induction p with
  | nil => rfl
  | cons b p ih =>
    rw [leNat, ih, byteDigits, byteDigits, List.map_cons, Nat.ofDigits_cons]

theorem leNat_reverse_eq (p : Bytes) :
    leNat p.reverse = numberOf 256 (byteDigits p) := by
  rw [leNat_eq_ofDigits, numberOf, byteDigits, byteDigits, List.map_reverse]

/-- As many bytes as the bits fill are the digits. -/
theorem leBytes_bitLength (num : Nat) : leBytes ((bitLength num + 7) / 8) num =
    (Nat.digits 256 num).map UInt8.ofNat := by
  rcases Nat.eq_zero_or_pos num with rfl | hpos
  · rfl
  · have hne : num ≠ 0 := by omega
    have hnil : Nat.digits 256 num ≠ [] := Nat.digits_ne_nil_iff_ne_zero.mpr hne
    obtain ⟨m, hm⟩ : ∃ m, (Nat.digits 256 num).length = m + 1 :=
      ⟨_, (Nat.succ_pred_eq_of_pos (List.length_pos_iff.mpr hnil)).symm⟩
    have hhi : num < 256 ^ (m + 1) :=
      hm ▸ Nat.lt_base_pow_length_digits (by decide)
    have hlo : 256 ^ m ≤ num := by
      have := (Nat.lt_digits_length_iff (b := 256) (by decide) num).mp
        (show m < _ by rw [hm]; exact Nat.lt_succ_self m)
      exact this
    rw [bytes_of_bitLength hlo hhi, ← hm]
    have hvalue : leNat ((Nat.digits 256 num).map UInt8.ofNat) = num := by
      rw [leNat_eq_ofDigits, byteDigits_map_ofNat fun d hd =>
        Nat.digits_lt_base (by decide) hd, Nat.ofDigits_digits]
    have hback := leBytes_leNat ((Nat.digits 256 num).map UInt8.ofNat)
    rw [hvalue, List.length_map] at hback
    exact hback

/-! ## Both directions are the change of base -/

/-- Encoding is a change of base. -/
theorem b58Encode_eq (p : Bytes) :
    (b58Encode p).toList =
      (convertBase 256 58 (byteDigits p)).map base58Char := by
  rw [b58Encode, String.toList_ofList, base58Digits_eq (Nat.le_refl _),
    convertBase, List.map_append, List.map_replicate, List.map_reverse,
    leNat_reverse_eq, leadingZeros_byteDigits]
  rfl

/-- Reading a text gives the number of its digits. -/
theorem base58Number_eq {cs : List Char} (h : ∀ c ∈ cs, c ∈ base58Alphabet) :
    base58Number 0 cs = some (numberOf 58 (charDigits cs)) := by
  conv_lhs => rw [← map_base58Char_charDigits h]
  rw [base58Number_map (charDigits_lt h), foldl_numberOf]

/-- A foreign character stops it. -/
theorem base58Number_none {cs : List Char} {c : Char} (hc : c ∈ cs)
    (h : c ∉ base58Alphabet) :
    ∀ num, base58Number num cs = none := by
  induction cs with
  | nil => cases hc
  | cons d cs ih =>
    intro num
    rw [base58Number]
    rcases List.mem_cons.mp hc with rfl | hc
    · exact if_neg fun hlt => h (idxOf_lt_iff.mp hlt)
    · rw [ih hc]
      exact ite_self _

/-- Decoding is the change of base back. -/
theorem b58Decode_eq {s : String} (h : ∀ c ∈ s.toList, c ∈ base58Alphabet) :
    b58Decode s = .ok
      ((convertBase 58 256 (charDigits s.toList)).map UInt8.ofNat) := by
  rw [b58Decode, base58Number_eq h]
  dsimp only
  rw [leBytes_bitLength, convertBase, List.map_append, List.map_replicate,
    ← List.map_reverse, leadingZeros_charDigits]
  rfl

/-- Only strings over the alphabet are decoded. -/
theorem alphabet_of_b58Decode {s : String} {p : Bytes}
    (h : b58Decode s = .ok p) : ∀ c ∈ s.toList, c ∈ base58Alphabet := by
  intro c hc
  by_contra hout
  rw [b58Decode, base58Number_none hc hout] at h
  cases h

/-- **What is decoded is encoded the same way.** -/
theorem b58Encode_decode {s : String} {p : Bytes} (h : b58Decode s = .ok p) :
    b58Encode p = s := by
  have halpha := alphabet_of_b58Decode h
  rw [b58Decode_eq halpha, Except.ok.injEq] at h
  rw [← String.toList_inj, b58Encode_eq, ← h,
    byteDigits_map_ofNat (lt_of_mem_convertBase (by decide)),
    convertBase_convertBase (by decide) (charDigits_lt halpha),
    map_base58Char_charDigits halpha]

/-! ## The second pair computes the same -/

theorem foldl_ints (p : Bytes) : (ints p).foldl (fun acc byte => acc * 256 +
    byte) 0 = (numberOf 256 (byteDigits p) : Int) := by
  have hcast : ∀ (p : Bytes) (n : Nat),
      (ints p).foldl (fun acc byte => acc * 256 + byte) (n : Int) =
      (((byteDigits p).foldl (fun n d => n * 256 + d) n : Nat) : Int) := by
    intro p
    induction p with
    | nil =>
      intro n
      rfl
    | cons b p ih =>
      intro n
      have := ih (n * 256 + b.toNat)
      push_cast at this
      exact this
  rw [← foldl_numberOf]
  exact hcast p 0

/-- **`to_base58` is `b58_encode`.** -/
theorem toBase58_ints (p : Bytes) : toBase58 (ints p) = b58Encode p := by
  have hzeros : ((ints p).takeWhile (· == 0)).length =
      (p.takeWhile (· == 0)).length := by
    rw [ints, List.takeWhile_map, List.length_map]
    congr 2
    funext b
    show ((b.toNat : Int) == 0) = (b == 0)
    rw [Bool.eq_iff_iff, beq_iff_eq, beq_iff_eq, ← UInt8.toNat_inj]
    exact Int.natCast_eq_zero
  rw [toBase58, b58Encode, hzeros, foldl_ints, Int.toNat_natCast,
    leNat_reverse_eq]

theorem fromBase58Number_eq : ∀ (cs : List Char)
    (acc : Nat), fromBase58Number acc cs =
    match base58Number acc cs with
    | some num => .ok num
    | none => .error (.other "substring not found") := by
  intro cs
  induction cs with
  | nil =>
    intro acc
    rfl
  | cons c cs ih =>
    intro acc
    rw [fromBase58Number, base58Number]
    split
    · exact ih _
    · rfl

theorem fromBase58Bytes_eq : ∀ {fuel acc : Nat}, acc ≤ fuel →
    fromBase58Bytes fuel acc = (Nat.digits 256 acc).map
      fun d : Nat => (d : Int) := by
  intro fuel
  induction fuel with
  | zero =>
    intro acc h
    rw [Nat.le_zero.mp h, fromBase58Bytes, Nat.digits_zero, List.map_nil]
  | succ fuel ih =>
    intro acc h
    rw [fromBase58Bytes]
    by_cases h0 : acc = 0
    · rw [if_pos h0, h0, Nat.digits_zero, List.map_nil]
    · rw [if_neg h0, Nat.digits_of_two_le_of_pos (by decide)
        (Nat.pos_of_ne_zero h0), List.map_cons, ih (by omega)]

theorem lstrip_length (cs : List Char) :
    cs.length - (cs.dropWhile (· == '1')).length =
      (cs.takeWhile (· == '1')).length := by
  have :=
    congrArg List.length (@List.takeWhile_append_dropWhile _ (· == '1') cs)
  rw [List.length_append] at this
  omega

/-- On strings over the alphabet. -/
theorem fromBase58_eq {s : String} (hne : s ≠ "")
    (h : ∀ c ∈ s.toList, c ∈ base58Alphabet) :
    fromBase58 s = .ok
      (ints ((convertBase 58 256 (charDigits s.toList)).map UInt8.ofNat)) := by
  have hout : ¬ ('0' ∈ s.toList ∨ 'I' ∈ s.toList ∨ 'O' ∈ s.toList ∨
      'l' ∈ s.toList) := by
    rintro (hc | hc | hc | hc)
    · exact absurd (h _ hc) (by decide)
    · exact absurd (h _ hc) (by decide)
    · exact absurd (h _ hc) (by decide)
    · exact absurd (h _ hc) (by decide)
  have hints :
      ints ((convertBase 58 256 (charDigits s.toList)).map UInt8.ofNat) =
      (convertBase 58 256 (charDigits s.toList)).map fun d : Nat =>
        (d : Int) := by
    have := byteDigits_map_ofNat
      (@lt_of_mem_convertBase 58 256 (by decide) (charDigits s.toList))
    conv_rhs => rw [← this]
    rw [ints, byteDigits, List.map_map, List.map_map, List.map_map]
    rfl
  rw [fromBase58, if_neg hne, if_neg hout, fromBase58Number_eq,
    base58Number_eq h, ok_bind, lstrip_length, hints,
    fromBase58Bytes_eq (Nat.le_refl _), convertBase, List.map_append,
    List.map_replicate, leadingZeros_charDigits, List.map_reverse]
  rfl

/-- **`from_base58` is `b58_decode`**, but for the empty string. -/
theorem fromBase58_ok_iff {s : String} {r : List Int} :
    fromBase58 s = .ok r ↔ s ≠ "" ∧ ∃ p, b58Decode s = .ok p ∧ r = ints p := by
  constructor
  · intro h
    have hne : s ≠ "" := by
      rintro rfl
      cases h
    have halpha : ∀ c ∈ s.toList, c ∈ base58Alphabet := by
      intro c hc
      by_contra hout
      rw [fromBase58, if_neg hne] at h
      split at h
      · cases h
      · rw [fromBase58Number_eq, base58Number_none hc hout] at h
        cases h
    rw [fromBase58_eq hne halpha, Except.ok.injEq] at h
    exact ⟨hne, _, b58Decode_eq halpha, h.symm⟩
  · rintro ⟨hne, p, hp, rfl⟩
    have halpha := alphabet_of_b58Decode hp
    rw [b58Decode_eq halpha, Except.ok.injEq] at hp
    rw [fromBase58_eq hne halpha, hp]

/-! ## Checksums -/

/-- **A checked string is accepted exactly when it decodes to a payload and its
checksum.** -/
theorem base58checkDecodeBy_ok_iff (cs : Checksum) {s : String}
    {payload : Bytes} :
    base58checkDecodeBy cs s = .ok payload ↔
    b58Decode s = .ok (payload ++ cs.sum payload) := by
  rw [base58checkDecodeBy, bind_ok]
  constructor
  · rintro ⟨decoded, hdecoded, h⟩
    dsimp only at h
    split at h
    · cases h
    · rename_i heq
      rw [not_not] at heq
      cases h
      rw [hdecoded, ← heq, List.take_append_drop]
  · intro h
    refine ⟨_, h, ?_⟩
    have hlen : (payload ++ cs.sum payload).length - 4 = payload.length := by
      rw [List.length_append, cs.length_sum, Nat.add_sub_cancel]
    dsimp only
    rw [hlen, List.take_left, List.drop_left, if_neg (fun hne => hne rfl)]
    rfl

/-- A string that is decoded, but carries no checksum of what stands in front,
is refused. -/
theorem base58checkDecodeBy_refuses (cs : Checksum) {s : String}
    {decoded : Bytes} (hs : b58Decode s = .ok decoded)
    (h : decoded.length < 4 ∨ decoded.drop (decoded.length - 4) ≠
      cs.sum (decoded.take (decoded.length - 4))) :
    ∃ e, base58checkDecodeBy cs s = .error e := by
  rcases hres : base58checkDecodeBy cs s with e | payload
  · exact ⟨e, rfl⟩
  · exfalso
    rw [base58checkDecodeBy_ok_iff, hs, Except.ok.injEq] at hres
    have hlen : decoded.length - 4 = payload.length := by
      rw [hres, List.length_append, cs.length_sum, Nat.add_sub_cancel]
    rcases h with hshort | hsum
    · rw [hres, List.length_append, cs.length_sum] at hshort
      omega
    · rw [hlen, hres, List.drop_left, List.take_left] at hsum
      exact hsum rfl

/-- **Base 58 and Base58Check, both ways.** -/
theorem base58_bijection :
    (∀ p, b58Decode (b58Encode p) = .ok p) ∧
    (∀ s : String, (∀ c ∈ s.toList, c ∈ base58Alphabet) →
      ∃ p, b58Decode s = .ok p ∧ b58Encode p = s) ∧
    (∀ p, toBase58 (ints p) = b58Encode p) ∧
    (∀ s r, fromBase58 s = .ok r ↔
      s ≠ "" ∧ ∃ p, b58Decode s = .ok p ∧ r = ints p) ∧
    ∀ cs : Checksum,
      (∀ payload, base58checkDecodeBy cs (base58checkEncodeBy cs payload) =
        .ok payload) ∧
      (∀ s decoded, b58Decode s = .ok decoded →
        decoded.length < 4 ∨ decoded.drop (decoded.length - 4) ≠
          cs.sum (decoded.take (decoded.length - 4)) →
        ∃ e, base58checkDecodeBy cs s = .error e) ∧
      (∀ s payload, base58checkDecodeBy cs s = .ok payload ↔
        b58Decode s = .ok (payload ++ cs.sum payload)) := by
  refine ⟨b58Decode_encode, ?_, toBase58_ints, fun _ _ => fromBase58_ok_iff,
    fun cs => ⟨?_, ?_, ?_⟩⟩
  · intro s hs
    exact ⟨_, b58Decode_eq hs, b58Encode_decode (b58Decode_eq hs)⟩
  · intro payload
    exact (base58checkDecodeBy_ok_iff cs).mpr (b58Decode_encode _)
  · intro s decoded hs h
    exact base58checkDecodeBy_refuses cs hs h
  · exact fun _ _ => base58checkDecodeBy_ok_iff cs

end Pyrxd.Tx
