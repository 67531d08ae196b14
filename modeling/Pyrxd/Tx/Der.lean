import Pyrxd.Lib.ScriptNum
import Pyrxd.Hd.Bip32

/-!
# DER signatures

`serialize_ecdsa_der` and `deserialize_ecdsa_der` of `utils.py`. The reader
checks the tags and that the three lengths add up, so what it accepts is two
integers in their frame (`deserializeEcdsaDer_ok_iff`). It does not look at the
integers: leading zeros and a set sign bit pass. What the writer made is read
back; what was read is written back the same exactly when both integers are as
the writer writes them (`der_canonical_iff`).
-/

namespace Pyrxd.Tx

open Pyrxd.Lib
open Pyrxd.Hd (beNat toBytesBe curveN)

/-! ## Reading and writing -/

/-- `signature[i]`, within the bounds that were checked. -/
def byteAt (b : Bytes) (i : Nat) : Nat := (b.getD i 0).toNat

/-- `raise ValueError(msg)`. -/
def valueError {α : Type} (msg : String) : Except PyErr α := .error (.other msg)

/-- `deserialize_ecdsa_der`. -/
def deserializeEcdsaDer (signature : Bytes) : Except PyErr (Int × Int) :=
  if signature.length <
    8 then valueError "DER signature too short (min 8 bytes)"
  else if byteAt signature 0 ≠
    0x30 then valueError "expected DER sequence tag 0x30"
  else if byteAt signature 1 ≠
    signature.length - 2 then valueError "DER length mismatch"
  else if byteAt signature 2 ≠
    0x02 then valueError "expected DER integer tag 0x02 for r"
  else
    let rLen := byteAt signature 3
    if rLen = 0 then valueError "DER r length is zero"
    else
      let rEnd := 4 + rLen
      if rEnd + 2 > signature.length then valueError "DER r overruns buffer"
      else
        let r := beNat ((signature.take rEnd).drop 4)
        if byteAt signature rEnd ≠
          0x02 then valueError "expected DER integer tag 0x02 for s"
        else
          let sLen := byteAt signature (rEnd + 1)
          if sLen = 0 then valueError "DER s length is zero"
          else
            let sOff := rEnd + 2
            let sEnd := sOff + sLen
            if sEnd ≠ signature.length then
              valueError "DER total length mismatch: r_len + s_len + 6 must equal len(signature)"
            else
              let s := beNat ((signature.take sEnd).drop sOff)
              .ok (r, s)

/-- `if r_bytes[0] & 0x80: r_bytes = b"\x00" + r_bytes`. -/
def signPad : Bytes → Except PyErr Bytes
  | [] => .error (.other "index out of range")
  | x :: rest => .ok (if x &&& 0x80 ≠ 0 then 0 :: x :: rest else x :: rest)

/-- One integer: `to_bytes(NUMBER_BYTE_LENGTH, "big").lstrip(b"\x00")`, padded,
behind tag and length. -/
def derInteger (n : Int) : Except PyErr Bytes := do
  let bytes ← toBytesBe 32 n
  let body ← signPad (bytes.dropWhile (· == 0))
  return [2, UInt8.ofNat body.length] ++ body

/-- `serialize_ecdsa_der`. -/
def serializeEcdsaDer (signature : Int × Int) : Except PyErr Bytes := do
  let (r, s) := signature
  let s := if s > curveN / 2 then curveN - s else s
  let rField ← derInteger r
  let sField ← derInteger s
  let serialized := rField ++ sField
  return [0x30, UInt8.ofNat serialized.length] ++ serialized

/-- Two integers in their frame. -/
def derFrame (r s : Bytes) : Bytes :=
  [0x30, UInt8.ofNat (r.length + s.length + 4), 2, UInt8.ofNat r.length] ++ r ++
    [2, UInt8.ofNat s.length] ++ s

/-! ## What the reader accepts -/

/-- What stands between the headers, and behind the second:
`signature[4:r_end]`, `signature[s_off:]`. -/
def rField (signature : Bytes) : Bytes :=
  (signature.drop 4).take (byteAt signature 3)
def sField (signature : Bytes) : Bytes :=
  signature.drop (6 + byteAt signature 3)

theorem toNat_ofNat_lt {n : Nat} (h : n < 256) : (UInt8.ofNat n).toNat = n :=
  UInt8.toNat_ofNat_of_lt h

theorem length_derFrame (r s : Bytes) :
    (derFrame r s).length = r.length + s.length + 6 := by
  simp only [derFrame, List.length_append, List.length_cons, List.length_nil]
  omega

section Frame

variable {r s : Bytes}

/-- Where it says how long `r` is. -/
theorem byteAt_derFrame_rLen (h : r.length + s.length + 4 < 256) :
    byteAt (derFrame r s) 3 = r.length :=
  toNat_ofNat_lt (by omega)

theorem rField_derFrame (h : r.length + s.length + 4 < 256) :
    rField (derFrame r s) = r := by
  rw [rField, byteAt_derFrame_rLen h, derFrame, List.append_assoc,
    List.append_assoc]
  exact List.take_left

theorem drop_derFrame : (derFrame r s).drop (4 + r.length) = [2,
    UInt8.ofNat s.length] ++ s := by
  rw [← List.drop_drop]
  show (r ++ [2, UInt8.ofNat s.length] ++ s).drop r.length = _
  rw [List.append_assoc, List.drop_left]

theorem byteAt_drop (b : Bytes) (i j : Nat) :
    byteAt b (i + j) = byteAt (b.drop i) j := by
  rw [byteAt, byteAt, List.getD_eq_getElem?_getD, List.getD_eq_getElem?_getD,
    List.getElem?_drop]

theorem sField_derFrame (h : r.length + s.length + 4 < 256) :
    sField (derFrame r s) = s := by
  rw [sField, byteAt_derFrame_rLen h, show 6 + r.length =
    4 + r.length + 2 by omega, ← List.drop_drop, drop_derFrame]
  rfl

/-- **A frame is read.** -/
theorem deserializeEcdsaDer_derFrame (hr : r ≠ [])
    (hs : s ≠ []) (h : r.length + s.length + 4 < 256) :
    deserializeEcdsaDer (derFrame r s) = .ok (beNat r, beNat s) := by
  have hlen := length_derFrame r s
  have hrpos := List.length_pos_of_ne_nil hr
  have hspos := List.length_pos_of_ne_nil hs
  have hr3 := byteAt_derFrame_rLen h
  have htotal : byteAt (derFrame r s) 1 = (derFrame r s).length - 2 := by
    rw [hlen]
    exact toNat_ofNat_lt h
  have htag : byteAt (derFrame r s) (4 + r.length) = 0x02 := by
    have := byteAt_drop (derFrame r s) (4 + r.length) 0
    rw [drop_derFrame] at this
    exact this
  have hs3 : byteAt (derFrame r s) (4 + r.length + 1) = s.length := by
    have := byteAt_drop (derFrame r s) (4 + r.length) 1
    rw [drop_derFrame] at this
    rw [this]
    exact toNat_ofNat_lt (by omega)
  have hrbytes : ((derFrame r s).take (4 + r.length)).drop 4 = r := by
    have := rField_derFrame h
    rwa [rField, hr3, List.take_drop] at this
  have hsbytes : ((derFrame r s).take (4 + r.length + 2 + s.length)).drop
      (4 + r.length + 2) = s := by
    have := sField_derFrame h
    rw [List.take_of_length_le (by rw [hlen]; omega)]
    rwa [sField, hr3, show 6 + r.length = 4 + r.length + 2 by omega] at this
  have hseq : byteAt (derFrame r s) 0 = 0x30 := rfl
  have htag2 : byteAt (derFrame r s) 2 = 0x02 := rfl
  rw [deserializeEcdsaDer, if_neg (by omega), if_neg (fun hne => hne hseq),
    if_neg (fun hne => hne htotal),
    if_neg (fun hne => hne htag2)]
  simp only [hr3, htag, hs3, hrbytes, hsbytes]
  rw [if_neg (by omega), if_neg (by omega), if_neg (by decide),
    if_neg (by omega), if_neg (by omega)]

end Frame

/-- **Only frames are read.** -/
theorem derFrame_of_ok {signature : Bytes} {r s : Int}
    (h : deserializeEcdsaDer signature = .ok (r, s)) :
    ∃ rb sb : Bytes, rb ≠ [] ∧ sb ≠ [] ∧ rb.length + sb.length + 4 < 256 ∧
    signature = derFrame rb sb ∧
      r = beNat rb ∧ s = beNat sb := by
  rw [deserializeEcdsaDer] at h
  split at h
  · cases h
  rename_i hshort
  split at h
  · cases h
  rename_i hseq
  split at h
  · cases h
  rename_i htotal
  split at h
  · cases h
  rename_i htag
  dsimp only at h
  split at h
  · cases h
  rename_i hr0
  split at h
  · cases h
  rename_i hover
  split at h
  · cases h
  rename_i hstag
  split at h
  · cases h
  rename_i hs0
  split at h
  · cases h
  rename_i hend
  rw [not_not] at hseq htotal htag hstag hend
  cases h
  generalize hrl : byteAt signature 3 = rLen at *
  generalize hsl : byteAt signature (4 + rLen + 1) = sLen at *
  have hbyte : signature.length - 2 < 256 := by
    rw [← htotal]
    exact UInt8.toNat_lt _
  have hrb : ((signature.take (4 + rLen)).drop 4).length = rLen := by
    rw [List.length_drop, List.length_take]
    omega
  have hsb : ((signature.take (4 + rLen + 2 + sLen)).drop (4 + rLen +
      2)).length = sLen := by
    rw [List.length_drop, List.length_take]
    omega
  refine ⟨_, _, ?_, ?_, ?_, ?_, rfl, rfl⟩
  · exact List.ne_nil_of_length_pos (by omega)
  · exact List.ne_nil_of_length_pos (by omega)
  · rw [hrb, hsb]
    omega
  · -- the pieces in their order: two headers, the first integer, its neighbour's header, the second
    have hsplit : signature =
        signature.take 4 ++ ((signature.take (4 + rLen)).drop 4) ++
        ((signature.drop (4 + rLen)).take 2) ++
          signature.drop (4 + rLen + 2) := by
      have h1 : signature.take 4 ++ (signature.take (4 + rLen)).drop 4 =
          signature.take (4 + rLen) := by
        have := List.take_append_drop 4 (signature.take (4 + rLen))
        rwa [List.take_take, Nat.min_eq_left (by omega)] at this
      have h2 : (signature.drop (4 + rLen)).take 2 ++
          signature.drop (4 + rLen + 2) = signature.drop (4 + rLen) := by
        rw [← @List.drop_drop _ 2 (4 + rLen), List.take_append_drop]
      rw [h1, List.append_assoc, h2, List.take_append_drop]
    have hfour : signature.take 4 =
        [0x30, UInt8.ofNat (rLen + sLen + 4), 2, UInt8.ofNat rLen] := by
      have hcut : ∀ {b : Bytes}, 4 ≤ b.length →
          b.take 4 = [UInt8.ofNat (byteAt b 0), UInt8.ofNat (byteAt b 1),
          UInt8.ofNat (byteAt b 2), UInt8.ofNat (byteAt b 3)] := by
        intro b hb
        match b, hb with
        | b0 :: b1 :: b2 :: b3 :: b, _ => simp [byteAt]
      rw [hcut (by omega), hseq, htotal, htag, hrl, ← hend]
      congr 3
      omega
    have htwo : (signature.drop (4 + rLen)).take 2 = [2, UInt8.ofNat sLen] := by
      have hcut : ∀ {b : Bytes}, 2 ≤ b.length →
          b.take 2 = [UInt8.ofNat (byteAt b 0), UInt8.ofNat (byteAt b 1)] := by
        intro b hb
        match b, hb with
        | b0 :: b1 :: b, _ => simp [byteAt]
      rw [hcut (by rw [List.length_drop]; omega), ← byteAt_drop, ← byteAt_drop,
        Nat.add_zero, hstag, hsl]
      rfl
    have hlast : signature.drop (4 + rLen + 2) =
        (signature.take (4 + rLen + 2 + sLen)).drop (4 + rLen + 2) := by
      rw [hend, List.take_length]
    rw [derFrame, hrb, hsb, ← hfour, ← htwo, ← hlast]
    exact hsplit

theorem deserializeEcdsaDer_ok_iff {signature : Bytes} {r s : Int} :
    deserializeEcdsaDer signature = .ok (r, s) ↔
    ∃ rb sb : Bytes, rb ≠ [] ∧ sb ≠ [] ∧ rb.length + sb.length + 4 < 256 ∧
    signature = derFrame rb sb ∧
      r = beNat rb ∧ s = beNat sb := by
  refine ⟨derFrame_of_ok, ?_⟩
  rintro ⟨rb, sb, hr, hs, h, rfl, rfl, rfl⟩
  exact deserializeEcdsaDer_derFrame hr hs h

/-! ## One integer -/

/-- An integer as the writer writes it: not negative, and no zero in front that
the sign does not ask for. -/
def minimalInteger : Bytes → Bool
  | [] => false
  | [x] => decide (x < 0x80)
  | x :: y :: _ => decide (x < 0x80) && (x != 0 || decide (0x80 ≤ y))

/-- The bytes of a positive number, stripped of their zeros. -/
theorem dropWhile_leBytes {q : Bytes} (hhead : ∀ b ∈ q.head?, b ≠ 0)
    (hlen : q.length ≤ 32) :
    (leBytes 32 (leNat q.reverse)).reverse.dropWhile (· == 0) = q := by
  have hlt : leNat q.reverse < 256 ^ 32 :=
    Nat.lt_of_lt_of_le (leNat_lt q.reverse)
    (Nat.pow_le_pow_right (by decide) (by rwa [List.length_reverse]))
  have hpadded : leBytes 32 (leNat q.reverse) =
      (List.replicate (32 - q.length) 0 ++ q).reverse := by
    refine leNat_inj ?_ ?_
    · rw [length_leBytes, List.length_reverse, List.length_append,
        List.length_replicate]
      omega
    · rw [leNat_leBytes hlt, List.reverse_append, List.reverse_replicate,
        leNat_append, leNat_zeros, Nat.mul_zero, Nat.add_zero]
  have hdrop : ∀ k : Nat, (List.replicate k 0 ++ q).dropWhile (· == 0) = q := by
    intro k
    induction k with
    | zero =>
      cases q with
      | nil => rfl
      | cons b q =>
        have hb : b ≠ 0 := hhead b rfl
        rw [List.replicate_zero, List.nil_append,
          List.dropWhile_cons_of_neg (by rw [beq_iff_eq]; exact hb)]
    | succ k ih =>
      rw [List.replicate_succ, List.cons_append,
        List.dropWhile_cons_of_pos (by rfl), ih]
  rw [hpadded, List.reverse_reverse, hdrop]

/-- A positive number below `2^256` without its leading zeros. -/
theorem exists_stripped {b : Bytes} (hpos : 1 ≤ beNat b)
    (hlt : beNat b < 256 ^ 32) : ∃ (k : Nat) (x : UInt8)
    (q : Bytes), b = List.replicate k 0 ++ x :: q ∧ x ≠ 0 ∧ q.length < 32 ∧
    beNat b = leNat (x :: q).reverse := by
  obtain ⟨q, hq, hhead⟩ := split_zeros b
  have hvalue : beNat b = leNat q.reverse := by
    rw [beNat]
    conv_lhs => rw [hq]
    rw [List.reverse_append, List.reverse_replicate, leNat_append, leNat_zeros,
      Nat.mul_zero, Nat.add_zero]
  cases q with
  | nil =>
    rw [hvalue] at hpos
    exact absurd hpos (by decide)
  | cons x q =>
    refine ⟨_, x, q, hq, hhead x rfl, ?_, hvalue⟩
    have hge := leNat_reverse_ge (q := q) (hhead x rfl)
    rw [hvalue] at hlt
    exact (Nat.pow_lt_pow_iff_right (by decide)).mp (Nat.lt_of_le_of_lt hge hlt)

/-- A field is never empty, and at most one byte longer. -/
theorem signPad_cons (x : UInt8) (q : Bytes) :
    ∃ body, signPad (x :: q) = .ok body ∧ body ≠ [] ∧
    body.length ≤ q.length + 2 ∧ beNat body = leNat (x :: q).reverse := by
  rw [signPad]
  split
  · refine ⟨_, rfl, nofun, Nat.le_refl _, ?_⟩
    rw [beNat, List.reverse_cons, leNat_append]
    exact Nat.add_zero _
  · exact ⟨_, rfl, nofun, Nat.le_succ _, rfl⟩

/-- The padded bytes are the given ones exactly when these are minimal. -/
theorem signPad_eq_iff (k : Nat) {x : UInt8} (q : Bytes) (hx : x ≠ 0) :
    signPad (x :: q) = .ok (List.replicate k 0 ++ x :: q) ↔
    minimalInteger (List.replicate k 0 ++ x :: q) = true := by
  rw [signPad, Except.ok.injEq]
  match k with
  | 0 =>
    rw [List.replicate_zero, List.nil_append]
    -- a high bit needs one zero in front, and anything else none
    by_cases hhigh : 0x80 ≤ x
    · have hlow : ¬ x < 0x80 := UInt8.not_lt.mpr hhigh
      rw [if_pos (and_128_ne_zero.mpr hhigh)]
      constructor
      · intro h
        have := congrArg List.length h
        simp at this
      · intro h
        cases q <;> simp [minimalInteger, hlow] at h
    · have hlow : x < 0x80 := UInt8.not_le.mp hhigh
      rw [if_neg (fun hand => hhigh (and_128_ne_zero.mp hand))]
      refine ⟨fun _ => ?_, fun _ => rfl⟩
      cases q <;> simp [minimalInteger, hlow, hx]
  | 1 =>
    show _ = 0 :: x :: q ↔ (decide ((0 : UInt8) < 0x80) &&
      ((0 : UInt8) != 0 || decide (0x80 ≤ x))) = true
    by_cases hhigh : 0x80 ≤ x
    · rw [if_pos (and_128_ne_zero.mpr hhigh), decide_eq_true hhigh]
      exact ⟨fun _ => rfl, fun _ => rfl⟩
    · rw [if_neg (fun hand => hhigh (and_128_ne_zero.mp hand)),
        decide_eq_false hhigh]
      refine ⟨fun h => ?_, fun h => absurd h (by decide)⟩
      have := congrArg List.length h
      simp at this
  | k + 2 =>
    refine ⟨fun h => ?_, fun h => ?_⟩
    · have hlen := congrArg List.length h
      rw [List.length_append, List.length_replicate] at hlen
      split at hlen <;> simp only [List.length_cons] at hlen <;> omega
    · rw [List.replicate_succ, List.replicate_succ, List.cons_append,
        List.cons_append, minimalInteger] at h
      exact absurd h (by decide)

/-- **One integer is written back the same exactly when it is minimal.** -/
theorem derInteger_of {b : Bytes} (hpos : 1 ≤ beNat b)
    (hlt : beNat b < 256 ^ 32) : ∃ body : Bytes,
    derInteger (beNat b) = .ok ([2, UInt8.ofNat body.length] ++ body) ∧
    body ≠ [] ∧ body.length ≤ 33 ∧
      beNat body = beNat b ∧ (body = b ↔ minimalInteger b = true) := by
  obtain ⟨k, x, q, hb, hx, hlen, hvalue⟩ := exists_stripped hpos hlt
  obtain ⟨body, hpad, hne, hbody, hsame⟩ := signPad_cons x q
  have hstrip : (leBytes 32 (leNat (x :: q).reverse)).reverse.dropWhile
      (· == 0) = x :: q := by
    refine dropWhile_leBytes ?_ hlen
    intro y hy
    cases hy
    exact hx
  refine ⟨body, ?_, hne, by omega, hsame.trans hvalue.symm, ?_⟩
  · have hbytes : toBytesBe 32 (beNat b) =
        .ok (leBytes 32 (leNat (x :: q).reverse)).reverse := by
      have hint : ((beNat b : Nat) : Int) < 256 ^ 32 := by exact_mod_cast hlt
      rw [toBytesBe, toBytesLe, if_neg (by omega), if_pos hint, ok_bind,
        Int.toNat_natCast, hvalue]
      rfl
    rw [derInteger, hbytes, ok_bind, hstrip, hpad, ok_bind]
    rfl
  · rw [hb, ← signPad_eq_iff k q hx, hpad, Except.ok.injEq]

/-! ## The main theorem -/

/-- The order is odd, so a negated `s` is the smaller of the two. -/
theorem lowS {s : Int} (h : 1 ≤ s ∧ s < curveN) :
    (if s > (curveN : Int) / 2 then curveN - s else s) = min s (curveN - s) ∧
    1 ≤ min s (curveN - s) ∧
      min s (curveN - s) < 256 ^ 32 := by
  rw [curveN] at *
  refine ⟨?_, by omega, by omega⟩
  split <;> omega

/-- Two headers and two bodies, as the writer lays them out. -/
theorem serialized_eq_derFrame (r s : Bytes) :
    [0x30, UInt8.ofNat (([2, UInt8.ofNat r.length] ++ r) ++
      ([2, UInt8.ofNat s.length] ++ s)).length] ++
      (([2, UInt8.ofNat r.length] ++ r) ++ ([2, UInt8.ofNat s.length] ++ s)) =
        derFrame r s := by
  have hlen : (([2, UInt8.ofNat r.length] ++ r) ++
      ([2, UInt8.ofNat s.length] ++ s)).length = r.length + s.length + 4 := by
    simp only [List.length_append, List.length_cons, List.length_nil]
    omega
  rw [hlen, derFrame]
  simp only [List.append_assoc, List.cons_append, List.nil_append]

/-- The frame determines its fields. -/
theorem derFrame_inj {r s r' s' : Bytes} (h : r.length + s.length + 4 < 256)
    (h' : r'.length + s'.length + 4 < 256)
    (heq : derFrame r s = derFrame r' s') : r = r' ∧ s = s' := by
  constructor
  · rw [← rField_derFrame h, heq, rField_derFrame h']
  · rw [← sField_derFrame h, heq, sField_derFrame h']

/-- A number in range has bytes. -/
theorem exists_beNat {n : Int} (h : 1 ≤ n) :
    ∃ b : Bytes, n = (beNat b : Nat) := by
  refine ⟨(leBytes n.toNat n.toNat).reverse, ?_⟩
  rw [beNat, List.reverse_reverse, leNat_leBytes]
  · omega
  · exact Nat.lt_pow_self (by decide)

/-- **What is written is read back, with the low `s`.** -/
theorem deserialize_serialize {r s : Int} (hr : 1 ≤ r ∧ r < curveN)
    (hs : 1 ≤ s ∧ s < curveN) :
    ∃ signature, serializeEcdsaDer (r, s) = .ok signature ∧
      deserializeEcdsaDer signature = .ok (r, min s (curveN - s)) := by
  obtain ⟨hlow, hlow1, hlow256⟩ := lowS hs
  obtain ⟨rb, hrb⟩ := exists_beNat hr.1
  obtain ⟨sb, hsb⟩ := exists_beNat hlow1
  have hr256 : r < 256 ^ 32 := Int.lt_trans hr.2 (by decide)
  obtain ⟨rBody, hrField, hrne, hrlen, hrval, -⟩ :=
    derInteger_of (b := rb) (by omega) (by exact_mod_cast hrb ▸ hr256)
  obtain ⟨sBody, hsField, hsne, hslen, hsval, -⟩ :=
    derInteger_of (b := sb) (by omega) (by exact_mod_cast hsb ▸ hlow256)
  refine ⟨derFrame rBody sBody, ?_, ?_⟩
  · rw [serializeEcdsaDer]
    dsimp only
    rw [hlow, hrb, hsb, hrField, ok_bind, hsField, ok_bind,
      serialized_eq_derFrame]
    rfl
  · rw [deserializeEcdsaDer_derFrame hrne hsne (by omega), hrval,
      hsval, hrb, hsb]

/-- **An accepted signature is written back the same exactly when both its
integers are minimal.** -/
theorem serialize_eq_iff {signature : Bytes} {r s : Int}
    (h : deserializeEcdsaDer signature = .ok (r, s))
    (hr : 1 ≤ r ∧ r < curveN) (hs : 1 ≤ s ∧ s ≤ (curveN / 2 : Nat)) :
    serializeEcdsaDer (r, s) = .ok signature ↔
      minimalInteger (rField signature) = true ∧
        minimalInteger (sField signature) = true := by
  obtain ⟨rb, sb, -, -, hlen, rfl, rfl, rfl⟩ := derFrame_of_ok h
  have hlow : (if (beNat sb : Int) > (curveN : Int) /
      2 then (curveN : Int) - beNat sb else beNat sb) = beNat sb :=
    if_neg (by have := hs.2; omega)
  have hr256 : (beNat rb : Int) < 256 ^ 32 := Int.lt_trans hr.2 (by decide)
  have hs256 : (beNat sb : Int) < 256 ^ 32 :=
    Int.lt_of_le_of_lt hs.2 (by decide)
  obtain ⟨rBody, hrField, -, hrlen, -, hrsame⟩ :=
    derInteger_of (b := rb) (by omega) (by exact_mod_cast hr256)
  obtain ⟨sBody, hsField, -, hslen, -, hssame⟩ :=
    derInteger_of (b := sb) (by omega) (by exact_mod_cast hs256)
  rw [rField_derFrame hlen, sField_derFrame hlen, ← hrsame, ← hssame,
    serializeEcdsaDer]
  dsimp only
  rw [hlow, hrField, ok_bind, hsField, ok_bind, serialized_eq_derFrame,
    pure_eq_ok, Except.ok.injEq]
  constructor
  · exact derFrame_inj (by omega) hlen
  · rintro ⟨rfl, rfl⟩
    rfl

/-- **The two functions as each other's inverses**: the writer's signatures are
read back, and of what the reader accepts as a low-`S` signature exactly the
minimal encodings are the writer's. -/
theorem der_canonical_iff (signature : Bytes) :
    (∀ r s : Int, 1 ≤ r ∧ r < curveN → 1 ≤ s ∧ s < curveN →
      ∃ written, serializeEcdsaDer (r, s) = .ok written ∧
      deserializeEcdsaDer written = .ok (r, min s (curveN - s))) ∧
    ∀ r s : Int, deserializeEcdsaDer signature = .ok (r, s) →
    1 ≤ r ∧ r < curveN → 1 ≤ s ∧ s ≤ (curveN / 2 : Nat) →
    (serializeEcdsaDer (r, s) = .ok signature ↔
        minimalInteger (rField signature) = true ∧
          minimalInteger (sField signature) = true) :=
  ⟨fun _ _ hr hs => deserialize_serialize hr hs,
    fun _ _ h hr hs => serialize_eq_iff h hr hs⟩

/-- **A padded and a negative integer are accepted**, and written back
differently. -/
theorem padded_accepted :
    deserializeEcdsaDer [0x30, 0x07, 0x02, 0x02, 0x00, 0x01, 0x02, 0x01,
      0x01] = .ok (1, 1) ∧
    deserializeEcdsaDer [0x30, 0x06, 0x02, 0x01, 0x01, 0x02, 0x01, 0x81] =
      .ok (1, 129) ∧
    serializeEcdsaDer (1, 1) = .ok [0x30, 0x06, 0x02, 0x01, 0x01,
      0x02, 0x01, 0x01] ∧
    serializeEcdsaDer (1, 129) = .ok [0x30, 0x07, 0x02, 0x01, 0x01, 0x02, 0x02,
      0x00, 0x81] := by decide

end Pyrxd.Tx
