import Mathlib.Algebra.GroupWithZero.Nat
import Mathlib.Algebra.Ring.Int.Defs
import Mathlib.Data.List.Basic

/-!
# Byte strings, little-endian numbers and hex

`bytes` is a list of octets. `hex` and `fromHex` are Python's `bytes.hex()` and
`bytes.fromhex()`: lower-case output, two digits per byte; either case accepted
on input, with ASCII whitespace skipped *between* bytes and nowhere else.

Main results: `fromHex_hex` — what `hex` writes, `fromHex` reads back —,
`length_fromHex_iff`, how long the result is, and the two little-endian round
trips `leNat_leBytes` and `leBytes_leNat`.
-/

namespace Pyrxd.Lib

abbrev Bytes := List UInt8

/-- Named, for the decisions that ask whether a byte string is in a list. -/
instance lawfulBEqBytes : LawfulBEq Bytes := inferInstance

/-- Folding a text folds its characters. -/
theorem toLower_eq_map (s : String) : s.toLower = s.map Char.toLower := rfl

/-- `int.from_bytes(b, "little")`. -/
def leNat : Bytes → Nat
  | [] => 0
  | b :: bs => b.toNat + 256 * leNat bs

/-- The low `k` bytes of `n`, least significant first: `n.to_bytes(k, "little")`
for `n < 256 ^ k`. -/
def leBytes : Nat → Nat → Bytes
  | 0, _ => []
  | k + 1, n => UInt8.ofNat n :: leBytes k (n / 256)

/-- A number is written in the width asked for. -/
@[simp] theorem length_leBytes (k : Nat) : ∀ n, (leBytes k n).length = k := by
  induction k with
  | zero => intro n; rfl
  | succ k ih => intro n; rw [leBytes, List.length_cons, ih]

theorem leNat_leBytes {k : Nat} : ∀ {n : Nat}, n < 256 ^ k →
    leNat (leBytes k n) = n := by
  induction k with
  | zero => intro n h; rw [Nat.pow_zero] at h; show 0 = n; omega
  | succ k ih =>
    intro n h
    have hdiv : n / 256 < 256 ^ k := by
      rw [Nat.div_lt_iff_lt_mul (by decide), ← Nat.pow_succ]
      exact h
    rw [leBytes, leNat, ih hdiv, UInt8.toNat_ofNat']
    omega

/-- Bytes read as a number that fits them. -/
theorem leNat_lt (b : Bytes) : leNat b < 256 ^ b.length := by
  induction b with
  | nil => decide
  | cons x xs ih =>
    have hx := x.toNat_lt
    rw [leNat, List.length_cons, Nat.pow_succ]
    omega

/-- Writing that number gives the bytes back. -/
theorem leBytes_leNat (b : Bytes) : leBytes b.length (leNat b) = b := by
  induction b with
  | nil => rfl
  | cons x xs ih =>
    have hx := x.toNat_lt
    have hdiv : (x.toNat + 256 * leNat xs) / 256 = leNat xs := by omega
    have hhead : UInt8.ofNat (x.toNat + 256 * leNat xs) = x := by
      apply UInt8.toNat_inj.mp
      rw [UInt8.toNat_ofNat']
      omega
    rw [leNat, List.length_cons, leBytes, hdiv, ih, hhead]

theorem leNat_singleton (x : UInt8) : leNat [x] = x.toNat := by
  show x.toNat + 256 * 0 = x.toNat
  omega

/-- The number of a string, from the numbers of its parts. -/
theorem leNat_append (a b : Bytes) :
    leNat (a ++ b) = leNat a + 256 ^ a.length * leNat b := by
  induction a with
  | nil =>
    rw [List.nil_append, List.length_nil, leNat, Nat.pow_zero,
      Nat.one_mul, Nat.zero_add]
  | cons x a ih =>
    rw [List.cons_append, leNat, ih, leNat, List.length_cons, Nat.pow_succ,
      Nat.mul_comm (256 ^ a.length) 256, Nat.mul_assoc, Nat.mul_add,
      Nat.add_assoc]

theorem leNat_zeros (n : Nat) : leNat (List.replicate n 0) = 0 := by
  induction n with
  | zero => rfl
  | succ n ih => rw [List.replicate_succ, leNat, ih]; rfl

/-- Strings of one length are told apart by their number. -/
theorem leNat_inj {a b : Bytes} (hlen : a.length = b.length)
    (h : leNat a = leNat b) : a = b := by
  rw [← leBytes_leNat a, ← leBytes_leNat b, hlen, h]

/-- The lower-case digit of a nibble. -/
def hexDigit (n : Nat) : Char :=
  if n < 10 then Char.ofNat (48 + n) else Char.ofNat (87 + n)

/-- The value of a hex digit, either case. -/
def hexVal (c : Char) : Option Nat :=
  if '0' ≤ c ∧ c ≤ '9' then some (c.toNat - 48)
  else if 'a' ≤ c ∧ c ≤ 'f' then some (c.toNat - 87)
  else if 'A' ≤ c ∧ c ≤ 'F' then some (c.toNat - 55)
  else none

/-- C's `isspace` on ASCII, the set `bytes.fromhex` skips. -/
def isAsciiSpace (c : Char) : Bool :=
  c == ' ' || (9 ≤ c.toNat && c.toNat ≤ 13)

def hexChars : Bytes → List Char
  | [] => []
  | b :: bs => hexDigit (b.toNat / 16) :: hexDigit (b.toNat % 16) :: hexChars bs

def fromHexChars : List Char → Option Bytes
  | [] => some []
  | [c] => if isAsciiSpace c then some [] else none
  | c :: d :: cs =>
    if isAsciiSpace c then fromHexChars (d :: cs)
    else
      match hexVal c, hexVal d with
      | some hi, some lo =>
        (fromHexChars cs).map (UInt8.ofNat (16 * hi + lo) :: ·)
      | _, _ => none

/-- `b.hex()`. -/
def hex (b : Bytes) : String := String.ofList (hexChars b)

/-- `bytes.fromhex(s)`; `none` is the `ValueError`. -/
def fromHex (s : String) : Option Bytes := fromHexChars s.toList

theorem hexVal_hexDigit : ∀ n < 16, hexVal (hexDigit n) = some n := by decide

theorem isAsciiSpace_hexDigit : ∀ n < 16, isAsciiSpace (hexDigit n) =
    false := by decide

/-- Hex reads back, character by character. -/
theorem fromHexChars_hexChars : ∀ b : Bytes, fromHexChars (hexChars b) = some b
  | [] => rfl
  | b :: bs => by
    have hb : b.toNat < 256 := b.toNat_lt
    have hhi : b.toNat / 16 < 16 := by omega
    have hlo : b.toNat % 16 < 16 := by omega
    have hsum : 16 * (b.toNat / 16) + b.toNat % 16 = b.toNat := by omega
    simp [hexChars, fromHexChars, isAsciiSpace_hexDigit _ hhi,
      hexVal_hexDigit _ hhi,
      hexVal_hexDigit _ hlo, fromHexChars_hexChars bs, hsum]

/-- **Hex round trip.** -/
@[simp] theorem fromHex_hex (b : Bytes) : fromHex (hex b) = some b := by
  simp [fromHex, hex, fromHexChars_hexChars]

theorem length_hexChars (b : Bytes) : (hexChars b).length = 2 * b.length := by
  induction b with
  | nil => rfl
  | cons x b ih =>
    rw [hexChars, List.length_cons, List.length_cons, List.length_cons, ih]
    omega

theorem length_hex (b : Bytes) : (hex b).length = 2 * b.length := by
  rw [hex, String.length_ofList, length_hexChars]

/-- A hex digit is not white space. -/
theorem isAsciiSpace_of_hexVal {c : Char} {v : Nat} (h : hexVal c = some v) : isAsciiSpace c = false := by
  have hge : 48 ≤ c.toNat := by
    unfold hexVal at h
    split at h
    · next hc => exact hc.1
    · split at h
      · next hc => exact Nat.le_trans (by decide) (show 97 ≤ c.toNat from hc.1)
      · split at h
        · next hc => exact Nat.le_trans (by decide) (show 65 ≤ c.toNat from hc.1)
        · cases h
  have hne : c ≠ ' ' := by
    intro hc
    subst hc
    exact absurd hge (by decide)
  unfold isAsciiSpace
  simp only [beq_eq_false_iff_ne.mpr hne, Bool.false_or, Bool.and_eq_false_iff,
    decide_eq_false_iff_not]
  omega

/-- Every byte takes two digits, and white space takes the rest. -/
theorem length_fromHexChars (cs : List Char) :
    ∀ b : Bytes, fromHexChars cs = some b →
    2 * b.length + cs.countP isAsciiSpace = cs.length := by
  -- the cases of the reader: the end, white space, and two digits
  induction cs using fromHexChars.induct with
  | case1 =>
    intro b h
    rw [fromHexChars, Option.some.injEq] at h
    subst h
    rfl
  | case2 c hc =>
    intro b h
    rw [fromHexChars, if_pos hc, Option.some.injEq] at h
    subst h
    rw [List.countP_cons_of_pos hc]
    rfl
  | case3 c hc =>
    intro b h
    rw [fromHexChars, if_neg hc] at h
    cases h
  | case4 c d cs hc ih =>
    intro b h
    rw [fromHexChars, if_pos hc] at h
    have := ih b h
    rw [List.countP_cons_of_pos hc, List.length_cons]
    omega
  | case5 c d cs hc hi lo hlo hhi ih =>
    intro b h
    rw [fromHexChars, if_neg hc, hhi, hlo] at h
    obtain ⟨t, ht, rfl⟩ := Option.map_eq_some_iff.mp h
    have hd : ¬ isAsciiSpace d = true := by
      rw [isAsciiSpace_of_hexVal hlo]
      exact Bool.false_ne_true
    have := ih t ht
    rw [List.countP_cons_of_neg hc, List.countP_cons_of_neg hd]
    simp only [List.length_cons]
    omega
  | case6 c d cs hc hnone =>
    intro b h
    rw [fromHexChars, if_neg hc] at h
    split at h
    · next hi lo hhi hlo => exact absurd hlo (hnone hi lo hhi)
    · cases h

/-- What `hex` writes holds no white space. -/
theorem noSpace_hexChars (b : Bytes) :
    ∀ c ∈ hexChars b, isAsciiSpace c = false := by
  induction b with
  | nil => nofun
  | cons x b ih =>
    have hx := x.toNat_lt
    intro c hc
    rw [hexChars, List.mem_cons, List.mem_cons] at hc
    rcases hc with rfl | rfl | hc
    · exact isAsciiSpace_hexDigit _ (by omega)
    · exact isAsciiSpace_hexDigit _ (by omega)
    · exact ih c hc

/-- Written hex holds no white space. -/
theorem noSpace_hex (b : Bytes) :
    ∀ c ∈ (hex b).toList, isAsciiSpace c = false := by
  rw [hex, String.toList_ofList]
  exact noSpace_hexChars b

/-- Full length means no white space. -/
theorem length_fromHex_iff {s : String} {b : Bytes} (h : fromHex s = some b) :
    2 * b.length = s.length ↔ ∀ c ∈ s.toList, isAsciiSpace c = false := by
  have hlen := length_fromHexChars s.toList b h
  rw [String.length_toList] at hlen
  have hcount : s.toList.countP isAsciiSpace = 0 ↔
      ∀ c ∈ s.toList, isAsciiSpace c = false := by
    rw [List.countP_eq_zero]
    simp only [Bool.not_eq_true]
  rw [← hcount]
  omega

end Pyrxd.Lib
