import Pyrxd.Tx.Base58
import Mathlib.Data.Nat.Digits.Lemmas

/-!
# Addresses

`decode_address` of `utils.py` with the pattern it asks for first, and
`P2PKH().lock` of a string. What `base58check_encode` writes is read back
(`base58checkDecode_encode`), and an address of a public key hash fits the
pattern (`decodeAddress_encode`).
-/

namespace Pyrxd.Tx

open Pyrxd.Lib

/-! ## Base58Check is read back -/

/-- The character of a digit. -/
def base58Char (d : Nat) : Char := base58Alphabet.getD d '1'

/-- A base58 character stands at its digit. -/
theorem idxOf_base58Char : ∀ d < 58, base58Alphabet.idxOf (base58Char d) =
    d := by decide

/-- Only zero is written as `1`. -/
theorem base58Char_ne_one {d : Nat} (h : d < 58) (h0 : d ≠ 0) :
    base58Char d ≠ '1' := by
  intro heq
  have hidx := idxOf_base58Char d h
  rw [heq] at hidx
  exact h0 hidx.symm

/-- The digits are Mathlib's. -/
theorem base58Digits_eq : ∀ {fuel num : Nat}, num ≤ fuel →
    base58Digits fuel num = (Nat.digits 58 num).map base58Char := by
  intro fuel
  induction fuel with
  | zero =>
    intro num h
    rw [Nat.le_zero.mp h, base58Digits, Nat.digits_zero, List.map_nil]
  | succ fuel ih =>
    intro num h
    rw [base58Digits]
    by_cases h0 : num = 0
    · rw [if_pos h0, h0, Nat.digits_zero, List.map_nil]
    · rw [if_neg h0, Nat.digits_of_two_le_of_pos (by decide)
        (Nat.pos_of_ne_zero h0), List.map_cons,
        ih (by omega)]
      rfl

/-- Digits read from the left. -/
theorem base58Number_map {ds : List Nat} : ∀ {num : Nat}, (∀ d ∈ ds, d < 58) →
    base58Number num (ds.map base58Char) = some
      (ds.foldl (fun n d => n * 58 + d) num) := by
  induction ds with
  | nil =>
    intro num _
    rfl
  | cons d ds ih =>
    intro num h
    obtain ⟨hd, hds⟩ := List.forall_mem_cons.mp h
    rw [List.map_cons, base58Number, idxOf_base58Char d hd, if_pos hd, ih hds,
      List.foldl_cons]

theorem foldl_digits (num : Nat) :
    (Nat.digits 58 num).reverse.foldl (fun n d => n * 58 + d) 0 = num := by
  rw [List.foldl_reverse]
  have hfold : ∀ ds : List Nat, ds.foldr (fun d n => n * 58 + d) 0 =
      Nat.ofDigits 58 ds := by
    intro ds
    induction ds with
    | nil => rfl
    | cons d ds ih =>
      rw [List.foldr_cons, ih, Nat.ofDigits_cons]
      omega
  rw [hfold, Nat.ofDigits_digits]

/-- Zeros in front of something else are counted. -/
theorem length_takeWhile_replicate {α : Type} [BEq α] [LawfulBEq α] (a : α)
    (k : Nat) {l : List α}
    (h : ∀ b ∈ l.head?, b ≠ a) :
    ((List.replicate k a ++ l).takeWhile (· == a)).length = k := by
  induction k with
  | zero =>
    cases l with
    | nil => rfl
    | cons b l =>
      have hb : b ≠ a := h b rfl
      rw [List.replicate_zero, List.nil_append,
        List.takeWhile_cons_of_neg (by rw [beq_iff_eq]; exact hb)]
      rfl
  | succ k ih =>
    rw [List.replicate_succ, List.cons_append, List.takeWhile_cons_of_pos
      (by exact beq_self_eq_true a), List.length_cons, ih]

/-- A list is its leading zeros and what does not start with one. -/
theorem split_zeros (p : Bytes) : ∃ q : Bytes,
    p = List.replicate (p.takeWhile (· == 0)).length 0 ++ q ∧
    ∀ b ∈ q.head?, b ≠ 0 := by
  induction p with
  | nil => exact ⟨[], rfl, nofun⟩
  | cons b p ih =>
    by_cases hb : b = 0
    · obtain ⟨q, hq, hhead⟩ := ih
      refine ⟨q, ?_, hhead⟩
      rw [hb, List.takeWhile_cons_of_pos (by rfl), List.length_cons,
        List.replicate_succ, List.cons_append, ← hq]
    · refine ⟨b :: p, ?_, ?_⟩
      · rw [List.takeWhile_cons_of_neg (by rw [beq_iff_eq]; exact hb)]
        rfl
      · intro c hc
        cases hc
        exact hb

/-- A number whose top byte is not zero has as many bytes as its bits fill. -/
theorem bytes_of_bitLength {num m : Nat} (hlo : 256 ^ m ≤ num)
    (hhi : num < 256 ^ (m + 1)) :
    (bitLength num + 7) / 8 = m + 1 := by
  have hpos : num ≠ 0 := by
    have := Nat.pow_pos (n := m) (show 0 < 256 by decide)
    omega
  have hpow : ∀ k : Nat, 256 ^ k = 2 ^ (8 * k) := by
    intro k
    rw [Nat.pow_mul]
  rw [hpow] at hlo hhi
  have h1 : 8 * m ≤ Nat.log2 num := (Nat.le_log2 hpos).mpr hlo
  have h2 : Nat.log2 num < 8 * (m + 1) := (Nat.log2_lt hpos).mpr hhi
  rw [bitLength, if_neg hpos]
  omega

/-- The value of a string whose first byte is not zero, from below. -/
theorem leNat_reverse_ge {b : UInt8} {q : Bytes} (hb : b ≠ 0) :
    256 ^ q.length ≤ leNat (b :: q).reverse := by
  have hpos : 0 < b.toNat := by
    rcases Nat.eq_zero_or_pos b.toNat with h | h
    · exact absurd (UInt8.toNat_inj.mp h) hb
    · exact h
  rw [List.reverse_cons, leNat_append, leNat_singleton, List.length_reverse]
  calc 256 ^ q.length = 256 ^ q.length * 1 := (Nat.mul_one _).symm
    _ ≤ 256 ^ q.length * b.toNat := Nat.mul_le_mul_left _ hpos
    _ ≤ leNat q.reverse + 256 ^ q.length * b.toNat := Nat.le_add_left _ _

/-- The characters of an encoding: a `1` for each leading zero, and the digits
of the rest. -/
theorem b58Encode_toList {p q : Bytes}
    (hq : p = List.replicate (p.takeWhile (· == 0)).length 0 ++ q) :
    (b58Encode p).toList = List.replicate (p.takeWhile (· == 0)).length '1' ++
      (Nat.digits 58 (leNat q.reverse)).reverse.map base58Char := by
  have hnum : leNat p.reverse = leNat q.reverse := by
    rw [hq, List.reverse_append, List.reverse_replicate, leNat_append,
      leNat_zeros, Nat.mul_zero, Nat.add_zero]
  rw [b58Encode, String.toList_ofList, hnum, base58Digits_eq (Nat.le_refl _),
    List.map_reverse]

theorem b58Decode_encode (p : Bytes) : b58Decode (b58Encode p) = .ok p := by
  obtain ⟨q, hq, hhead⟩ := split_zeros p
  have hlt : ∀ d ∈ (Nat.digits 58 (leNat q.reverse)).reverse, d <
      58 := fun d hd =>
    Nat.digits_lt_base (by decide) (List.mem_reverse.mp hd)
  have htop : ∀ c ∈ ((Nat.digits 58 (leNat q.reverse)).reverse.map
      base58Char).head?, c ≠ '1' := by
    intro c hc
    rw [List.head?_map, List.head?_reverse, Option.mem_def,
      Option.map_eq_some_iff] at hc
    obtain ⟨d, hd, rfl⟩ := hc
    refine base58Char_ne_one
      (hlt d (List.mem_reverse.mpr (List.mem_of_getLast? hd))) ?_
    intro h0
    rw [h0] at hd
    have hne : leNat q.reverse ≠ 0 := by
      intro hz
      rw [hz, Nat.digits_zero] at hd
      cases hd
    have hnil : Nat.digits 58 (leNat q.reverse) ≠ [] :=
      Nat.digits_ne_nil_iff_ne_zero.mpr hne
    rw [List.getLast?_eq_some_getLast hnil, Option.some.injEq] at hd
    exact Nat.getLast_digit_ne_zero 58 hne hd
  have hread :
      base58Number 0 (List.replicate (p.takeWhile (· == 0)).length '1' ++
      (Nat.digits 58 (leNat q.reverse)).reverse.map base58Char) =
        some (leNat q.reverse) := by
    -- the leading zeros travel as `1`s, apart from the number
    have hones : List.replicate (p.takeWhile (· == 0)).length '1' =
        (List.replicate (p.takeWhile (· == 0)).length 0).map base58Char := by
      rw [List.map_replicate]
      rfl
    rw [hones, ← List.map_append, base58Number_map, List.foldl_append]
    · have hzeros : ∀ k : Nat, (List.replicate k 0).foldl
          (fun n d => n * 58 + d) 0 = 0 := by
        intro k
        induction k with
        | zero => rfl
        | succ k ih =>
          rw [List.replicate_succ, List.foldl_cons]
          exact ih
      rw [hzeros, foldl_digits]
    · intro d hd
      rcases List.mem_append.mp hd with hd | hd
      · rw [List.eq_of_mem_replicate hd]
        decide
      · exact hlt d hd
  have hbytes : (leBytes ((bitLength (leNat q.reverse) + 7) / 8)
      (leNat q.reverse)).reverse = q := by
    cases q with
    | nil => rfl
    | cons b q =>
      have hhi := leNat_lt (b :: q).reverse
      rw [List.length_reverse, List.length_cons] at hhi
      rw [bytes_of_bitLength (leNat_reverse_ge (hhead b rfl)) hhi]
      have hback := leBytes_leNat (b :: q).reverse
      rw [List.length_reverse, List.length_cons] at hback
      rw [hback, List.reverse_reverse]
  rw [b58Decode, b58Encode_toList hq, hread]
  dsimp only
  rw [length_takeWhile_replicate '1' _ htop, hbytes, ← hq]

/-- **What `base58check_encode` writes is read back.** -/
theorem base58checkDecode_encode (payload : Bytes) :
    base58checkDecode (base58checkEncode payload) = .ok payload := by
  have hlen : (checksum payload).length = 4 := by
    rw [checksum, List.length_take, hash256, length_sha256]
    rfl
  have hdrop : (payload ++ checksum payload).length - 4 = payload.length := by
    rw [List.length_append, hlen, Nat.add_sub_cancel]
  rw [base58checkDecode, base58checkEncode, b58Decode_encode, ok_bind]
  dsimp only
  rw [hdrop, List.take_left, List.drop_left, if_neg (fun hne => hne rfl)]
  rfl

/-! ## Addresses -/

inductive Network where
  | mainnet
  | testnet
deriving DecidableEq

/-- `NETWORK_ADDRESS_PREFIX_DICT`. -/
def Network.addressPrefix : Network → UInt8
  | mainnet => 0x00
  | testnet => 0x6F

/-- `ADDRESS_PREFIX_NETWORK_DICT.get`. -/
def networkOfAddress : Bytes → Option Network
  | [0x00] => some .mainnet
  | [0x6F] => some .testnet
  | _ => none

/-- `[a-km-zA-HJ-NP-Z1-9]`. -/
def isAddressChar (c : Char) : Bool :=
  ('a' ≤ c && c ≤ 'k') || ('m' ≤ c && c ≤ 'z') || ('A' ≤ c && c ≤ 'H') ||
    ('J' ≤ c && c ≤ 'N') ||
    ('P' ≤ c && c ≤ 'Z') || ('1' ≤ c && c ≤ '9')

/-- `[1mn][a-km-zA-HJ-NP-Z1-9]{24,33}`. -/
def isAddressText : List Char → Bool
  | [] => false
  | c :: rest => (c == '1' || c == 'm' || c == 'n') && rest.all isAddressChar &&
      decide (24 ≤ rest.length ∧ rest.length ≤ 33)

/-- The pattern of `decode_address`, whose `$` also stands before a last line
feed. -/
def matchesAddress (address : String) : Bool :=
  isAddressText address.toList ||
    (address.toList.getLast? == some '\n' &&
      isAddressText address.toList.dropLast)

/-- `decode_address`. -/
def decodeAddress (address : String) :
    Except PyErr (Bytes × Option Network) := do
  if matchesAddress address =
      false then .error (.other ("invalid P2PKH address " ++ address)) else
  let decoded ← base58checkDecode address
  return (decoded.drop 1, networkOfAddress (decoded.take 1))

/-- `validate_address`, without a network. -/
def validateAddress (address : String) : Bool := (decodeAddress address).isOk

/-- `address_to_public_key_hash`. -/
def addressToPublicKeyHash (address : String) : Except PyErr Bytes := do
  let (pkh, _) ← decodeAddress address
  return pkh

/-! ## The pattern lets every address by -/

theorem base58_isAddressChar : base58Alphabet.all isAddressChar =
    true := by decide

theorem isAddressChar_base58Char {d : Nat} (h : d < 58) :
    isAddressChar (base58Char d) = true := by
  refine List.all_eq_true.mp base58_isAddressChar _ ?_
  have hlen : d < base58Alphabet.length := h
  rw [base58Char, List.getD_eq_getElem?_getD, List.getElem?_eq_getElem hlen,
    Option.getD_some]
  exact List.getElem_mem hlen

theorem isAddressText_cons {c : Char} {ds : List Char}
    (hc : c = '1' ∨ c = 'm' ∨ c = 'n')
    (hall : ∀ d ∈ ds, isAddressChar d = true)
    (hlen : 24 ≤ ds.length ∧ ds.length ≤ 33) :
    isAddressText (c :: ds) = true := by
  have hfirst : (c == '1' || c == 'm' || c == 'n') = true := by
    rcases hc with rfl | rfl | rfl <;> rfl
  rw [isAddressText, hfirst, List.all_eq_true.mpr hall, decide_eq_true hlen]
  rfl

/-- Base 58 spends at most nine characters more than there are bytes, up to 24
bytes. -/
theorem pow_le_pow_58 : ∀ m < 25, 256 ^ m ≤ 58 ^ (m + 9) := by decide

/-- How many characters 25 bytes take, when the first is zero. -/
theorem isAddressText_zero {p : Bytes} (hlen : p.length = 24) :
    isAddressText (b58Encode (0 :: p)).toList = true := by
  obtain ⟨q, hq, hhead⟩ := split_zeros (0 :: p)
  obtain ⟨z, hz⟩ : ∃ z, ((0 :: p).takeWhile (· == 0)).length = z + 1 :=
    ⟨_, by rw [List.takeWhile_cons_of_pos (by rfl), List.length_cons]⟩
  rw [b58Encode_toList hq]
  rw [hz] at hq ⊢
  have htotal : z + q.length = 24 := by
    have := congrArg List.length hq
    rw [List.length_cons, hlen, List.length_append,
      List.length_replicate] at this
    omega
  rw [List.replicate_succ, List.cons_append]
  refine isAddressText_cons (.inl rfl) ?_ ?_
  · intro d hd
    rcases List.mem_append.mp hd with hd | hd
    · rw [List.eq_of_mem_replicate hd]
      rfl
    · obtain ⟨k, hk, rfl⟩ := List.mem_map.mp hd
      exact isAddressChar_base58Char
        (Nat.digits_lt_base (by decide) (List.mem_reverse.mp hk))
  · rw [List.length_append, List.length_replicate, List.length_map,
      List.length_reverse]
    cases q with
    | nil =>
      rw [List.length_nil] at htotal
      rw [show leNat ([] : Bytes).reverse = 0 from rfl, Nat.digits_zero,
        List.length_nil]
      omega
    | cons b q =>
      rw [List.length_cons] at htotal
      have hlo := leNat_reverse_ge (q := q) (hhead b rfl)
      have hhi := leNat_lt (b :: q).reverse
      rw [List.length_reverse, List.length_cons] at hhi
      have hmin : q.length < (Nat.digits 58 (leNat (b :: q).reverse)).length :=
        (Nat.lt_digits_length_iff (by decide) _).mpr
          (Nat.le_trans (Nat.pow_le_pow_left (by decide) _) hlo)
      have hmax : (Nat.digits 58 (leNat (b :: q).reverse)).length ≤
          q.length + 1 + 9 :=
        (Nat.digits_length_le_iff (by decide) _).mpr
          (Nat.lt_of_lt_of_le hhi (pow_le_pow_58 _ (by omega)))
      omega

/-- 25 bytes behind `6f` are 34 characters, of which the first is an `m` or an
`n`. -/
theorem isAddressText_test {p : Bytes} (hlen : p.length = 24) :
    isAddressText (b58Encode (0x6F :: p)).toList = true := by
  have htake : ((0x6F :: p : Bytes).takeWhile (· == 0)).length = 0 := by
    rw [List.takeWhile_cons_of_neg (by decide)]
    rfl
  have hq : (0x6F :: p : Bytes) = List.replicate
      ((0x6F :: p : Bytes).takeWhile (· == 0)).length 0 ++ 0x6F :: p := by
    rw [htake]
    rfl
  have hvalue : leNat (0x6F :: p).reverse =
      leNat p.reverse + 256 ^ 24 * 0x6F := by
    rw [List.reverse_cons, leNat_append, leNat_singleton,
      List.length_reverse, hlen]
    rfl
  have hrest := leNat_lt p.reverse
  rw [List.length_reverse, hlen] at hrest
  -- the version byte fixes how many digits there are
  have hdigits : (Nat.digits 58 (leNat (0x6F :: p).reverse)).length = 34 := by
    refine Nat.le_antisymm ((Nat.digits_length_le_iff (by decide) _).mpr ?_)
      (Nat.succ_le_of_lt ((Nat.lt_digits_length_iff (by decide) _).mpr ?_))
    · rw [hvalue]
      omega
    · rw [hvalue]
      omega
  rw [b58Encode_toList hq, htake, List.replicate_zero, List.nil_append]
  have htop :=
    Nat.getD_digits (leNat (0x6F :: p).reverse) 33 (show 2 ≤ 58 by decide)
  generalize hds : Nat.digits 58 (leNat (0x6F :: p).reverse) =
    ds at hdigits htop
  have hne : ds ≠ [] := by
    intro hnil
    rw [hnil] at hdigits
    cases hdigits
  have hlast : ds.getD 33 0 = ds.getLast hne := by
    rw [List.getD_eq_getElem?_getD, List.getLast_eq_getElem,
      List.getElem?_eq_getElem (by omega)]
    simp only [Option.getD_some, hdigits]
  rw [← List.dropLast_append_getLast hne, List.reverse_append,
    List.reverse_singleton, List.singleton_append, List.map_cons]
  refine isAddressText_cons (.inr ?_) ?_ ?_
  · rw [← hlast, htop]
    have hcases : leNat (0x6F :: p).reverse / 58 ^ 33 % 58 = 44 ∨
        leNat (0x6F :: p).reverse / 58 ^ 33 % 58 = 45 := by
      rw [hvalue]
      omega
    rcases hcases with h | h
    · rw [h]
      exact .inl rfl
    · rw [h]
      exact .inr rfl
  · intro d hd
    obtain ⟨k, hk, rfl⟩ := List.mem_map.mp hd
    have hmem : k ∈ ds := List.mem_of_mem_dropLast (List.mem_reverse.mp hk)
    rw [← hds] at hmem
    exact isAddressChar_base58Char (Nat.digits_lt_base (by decide) hmem)
  · rw [List.length_map, List.length_reverse, List.length_dropLast, hdigits]
    decide

/-- **An address of a public key hash is decoded** to it. -/
theorem decodeAddress_encode (network : Network) {pkh : Bytes}
    (hlen : pkh.length = 20) :
    decodeAddress (base58checkEncode (network.addressPrefix :: pkh)) = .ok (pkh,
      some network) := by
  have hcheck : (checksum (network.addressPrefix :: pkh)).length = 4 := by
    rw [checksum, List.length_take, hash256, length_sha256]
    rfl
  have htext : isAddressText
      (base58checkEncode (network.addressPrefix :: pkh)).toList = true := by
    rw [base58checkEncode, List.cons_append]
    have hall : (pkh ++ checksum (network.addressPrefix :: pkh)).length =
        24 := by
      rw [List.length_append, hlen, hcheck]
    cases network with
    | mainnet => exact isAddressText_zero hall
    | testnet => exact isAddressText_test hall
  rw [decodeAddress, matchesAddress, htext, Bool.true_or, if_neg (by decide),
    base58checkDecode_encode, ok_bind]
  cases network <;> rfl

end Pyrxd.Tx
