import Pyrxd.Lib.Bytes

/-!
# Base 64

Three bytes in four characters, and what remains padded. The decoder is the
lenient one of `binascii`: it skips what is not in the alphabet and stops at the
padding. That a text which was encoded is read back goes by groups of three
bytes (`go_group`), from the state in which every group leaves the decoder.
-/

namespace Pyrxd.Lib.Base64

def alphabet : List Char :=
  "ABCDEFGHIJKLMNOPQRSTUVWXYZabcdefghijklmnopqrstuvwxyz0123456789+/".toList

/-- The character of six bits. -/
def digit (n : Nat) : Char := alphabet.getD n '='

/-- The six bits of a character. -/
def value (c : Char) : Option Nat :=
  if c ∈ alphabet then some (alphabet.idxOf c) else none

theorem value_digit : ∀ n < 64, value (digit n) = some n := by decide +kernel

theorem digit_ne_pad : ∀ n < 64, digit n ≠ '=' := by decide +kernel

/-- `b64encode`. -/
def encode : Bytes → List Char
  | [] => []
  | [a] => [digit (a.toNat / 4), digit (a.toNat % 4 * 16), '=', '=']
  | [a, b] =>
    [digit (a.toNat / 4), digit (a.toNat % 4 * 16 + b.toNat / 16),
      digit (b.toNat % 16 * 4), '=']
  | a :: b :: c :: rest =>
    digit (a.toNat / 4) :: digit (a.toNat % 4 * 16 + b.toNat / 16) :: digit
      (b.toNat % 16 * 4 + c.toNat / 64) :: digit (c.toNat % 64) :: encode rest

/-- Where the decoder is: the place in the group, the bits left over, the
padding so far, and what it has written. -/
structure State where
  quad : Nat
  left : Nat
  pads : Nat
  out : Bytes

inductive Error where
  /-- One character more than a multiple of four. -/
  | oneMore (characters : Nat)
  | padding

/-- A character of the alphabet. -/
def State.next (s : State) (v : Nat) : State :=
  match s.quad with
  | 0 => ⟨1, v, 0, s.out⟩
  | 1 => ⟨2, v % 16, 0, s.out ++ [UInt8.ofNat (s.left * 4 + v / 16)]⟩
  | 2 => ⟨3, v % 4, 0, s.out ++ [UInt8.ofNat (s.left * 16 + v / 4)]⟩
  | _ => ⟨0, 0, 0, s.out ++ [UInt8.ofNat (s.left * 64 + v)]⟩

/-- `binascii.a2b_base64`. -/
def go (s : State) : List Char → Except Error Bytes
  | [] =>
    if s.quad = 0 then .ok s.out
    else if s.quad = 1 then .error (.oneMore (s.out.length / 3 * 4 + 1))
    else .error .padding
  | c :: cs =>
    if c = '=' then
      if 2 ≤ s.quad then
        if 4 ≤ s.quad + (s.pads + 1) then .ok s.out
          else go { s with pads := s.pads + 1 } cs
      else go s cs
    else
      match value c with
      | none => go s cs
      | some v => go (s.next v) cs

def decode (text : List Char) : Except Error Bytes := go ⟨0, 0, 0, []⟩ text

/-- The decoder takes a digit in. -/
theorem go_digit (s : State) {n : Nat} (hn : n < 64) (cs : List Char) :
    go s (digit n :: cs) = go (s.next n) cs := by
  rw [go, if_neg (digit_ne_pad n hn), value_digit n hn]

section Groups

variable {out : Bytes}

theorem ofNat_eq {a : UInt8} {n : Nat} (h : n = a.toNat) :
    UInt8.ofNat n = a := by rw [h, UInt8.ofNat_toNat]

/-- A group of three bytes. -/
theorem go_group (a b c : UInt8) (cs : List Char) :
    go ⟨0, 0, 0, out⟩
      (digit (a.toNat / 4) :: digit (a.toNat % 4 * 16 + b.toNat / 16) ::
      digit (b.toNat % 16 * 4 + c.toNat / 64) :: digit (c.toNat % 64) :: cs) =
        go ⟨0, 0, 0, out ++ [a, b, c]⟩ cs := by
  have ha := a.toNat_lt
  have hb := b.toNat_lt
  have hc := c.toNat_lt
  rw [go_digit _ (by omega), go_digit _ (by omega), go_digit _ (by omega),
    go_digit _ (by omega)]
  simp only [State.next, List.append_assoc, List.cons_append, List.nil_append]
  rw [ofNat_eq (a := a) (by omega), ofNat_eq (a := b) (by omega),
    ofNat_eq (a := c) (by omega)]

theorem go_two (a b : UInt8) : go ⟨0, 0, 0, out⟩ (encode [a, b]) = .ok
    (out ++ [a, b]) := by
  have ha := a.toNat_lt
  have hb := b.toNat_lt
  rw [encode, go_digit _ (by omega), go_digit _ (by omega),
    go_digit _ (by omega)]
  simp only [State.next, List.append_assoc, List.cons_append, List.nil_append]
  rw [ofNat_eq (a := a) (by omega), ofNat_eq (a := b) (by omega)]
  rfl

theorem go_one (a : UInt8) : go ⟨0, 0, 0, out⟩ (encode [a]) = .ok
    (out ++ [a]) := by
  have ha := a.toNat_lt
  rw [encode, go_digit _ (by omega), go_digit _ (by omega)]
  simp only [State.next]
  rw [ofNat_eq (a := a) (by omega)]
  rfl

end Groups

/-- What was encoded is read back. -/
theorem decode_encode (b : Bytes) : decode (encode b) = .ok b := by
  have general : ∀ out, go ⟨0, 0, 0, out⟩ (encode b) = .ok (out ++ b) := by
    induction b using encode.induct with
    | case1 =>
      intro out
      rw [List.append_nil]
      rfl
    | case2 a => exact fun out => go_one a
    | case3 a b => exact fun out => go_two a b
    | case4 a b c rest ih =>
      intro out
      rw [encode, go_group, ih, List.append_assoc]
      rfl
  exact general []

/-- The text is ASCII. -/
theorem encode_ascii (b : Bytes) : ∀ c ∈ encode b, c.toNat < 128 := by
  have hdigit : ∀ n < 64, (digit n).toNat < 128 := by decide +kernel
  induction b using encode.induct with
  | case1 => nofun
  | case2 a =>
    have ha := a.toNat_lt
    simp only [encode, List.forall_mem_cons, List.not_mem_nil, false_imp_iff,
      implies_true, and_true]
    exact ⟨hdigit _ (by omega), hdigit _ (by omega), by decide, by decide⟩
  | case3 a b =>
    have ha := a.toNat_lt
    have hb := b.toNat_lt
    simp only [encode, List.forall_mem_cons, List.not_mem_nil, false_imp_iff,
      implies_true, and_true]
    exact ⟨hdigit _ (by omega), hdigit _ (by omega),
      hdigit _ (by omega), by decide⟩
  | case4 a b c rest ih =>
    have ha := a.toNat_lt
    have hb := b.toNat_lt
    have hc := c.toNat_lt
    simp only [encode, List.forall_mem_cons]
    exact ⟨hdigit _ (by omega), hdigit _ (by omega), hdigit _ (by omega),
      hdigit _ (by omega), ih⟩

end Pyrxd.Lib.Base64
