import Pyrxd.Glyph.Cbor
import Pyrxd.Lib.Infix
import Pyrxd.Lib.ScriptNum

/-!
# The bytes of CBOR objects

The canonical encoding (RFC 8949) of what metadata is made of, as a list of
tokens: the head of an object with its number or length, and the bytes of a
string. Two bytes stand in a row in the encoding if they do inside a token, or
where two tokens meet; for the pair `av` this can be said of the numbers and
strings themselves (`spells_iff`).
-/

namespace Pyrxd.Glyph

open Pyrxd.Lib

/-- `s.encode()`. -/
def utf8 (s : String) : Bytes := s.toUTF8.data.toList

inductive CborToken where
  | head (major : Fin 8) (arg : Nat)
  | content (b : Bytes) (ofB : b ≠ [])

/-- The bytes that an argument takes behind the first one. -/
def argWidth (n : Nat) : Nat :=
  if n < 24 then 0 else if n < 2 ^ 8 then 1 else if n < 2 ^ 16 then 2
    else if n < 2 ^ 32 then 4 else 8

/-- The argument, with the most significant byte first. -/
def argBytes (n : Nat) : Bytes := (leBytes (argWidth n) n).reverse

/-- The low five bits of the first byte. -/
def argInfo (n : Nat) : Nat :=
  if n < 24 then n else if n < 2 ^ 8 then 24 else if n < 2 ^ 16 then 25
    else if n < 2 ^ 32 then 26 else 27

namespace CborToken

def bytes : CborToken → Bytes
  | head major arg => UInt8.ofNat (32 * major.val + argInfo arg) :: argBytes arg
  | content b _ => b

/-- A string of either kind. -/
def ofString (major : Fin 8) (b : Bytes) : List CborToken :=
  head major b.length :: if h : b = [] then [] else [content b h]

end CborToken

open CborToken in
mutual

/-- The tokens of numbers, booleans, strings, lists and maps; nothing else is
written. -/
def Cbor.tokens : Cbor → List CborToken
  | .int n =>
    let negative := n < 0
    let arg := if negative then (-1 - n).toNat else n.toNat
    if arg < 2 ^ 64 then [head (if negative then 1 else 0) arg]
    else head 6 (if negative then 3 else 2) :: ofString 2 (magBytes arg).reverse
  | .bool b => [head 7 (if b then 21 else 20)]
  | .text s => ofString 3 (utf8 s)
  | .bytes b => ofString 2 b
  | .list xs => head 4 xs.length :: tokensList xs
  | .map entries => head 5 entries.length :: tokensEntries entries
  | _ => []

def Cbor.tokensList : List Cbor → List CborToken
  | [] => []
  | x :: xs => x.tokens ++ tokensList xs

def Cbor.tokensEntries : List (Cbor × Cbor) → List CborToken
  | [] => []
  | (k, v) :: entries => k.tokens ++ v.tokens ++ tokensEntries entries

end

/-- The encoding. -/
def Cbor.encode (x : Cbor) : Bytes := x.tokens.flatMap CborToken.bytes

/-! ## The pair -/

/-- `b"\x61v"`. -/
def versionKey : Bytes := [0x61, 0x76]

namespace CborToken

/-- The pair inside a token: in the bytes of a number or length, or in a
string. -/
def Spells : CborToken → Prop
  | head _ arg => versionKey <:+: argBytes arg
  | content b _ => versionKey <:+: b

/-- A token that ends with the first byte: a string ending so, the head of a
text of one byte, or a number or length that ends so. -/
def EndsA : CborToken → Prop
  | head major arg => major = 3 ∧ arg = 1 ∨ 24 ≤ arg ∧ arg % 256 = 0x61
  | content b _ => b.getLast? = some 0x61

/-- A token that starts with the second: a string starting so, or the head of a
text of 22 bytes. -/
def StartsV : CborToken → Prop
  | head major arg => major = 3 ∧ arg = 22
  | content b _ => b.head? = some 0x76

end CborToken

/-- The pair in a row of tokens. -/
def Spells (tokens : List CborToken) : Prop :=
  (∃ t ∈ tokens, t.Spells) ∨ ∃ t u, [t, u] <:+: tokens ∧ t.EndsA ∧ u.StartsV

namespace CborToken

/-- Every token writes at least one byte. -/
theorem bytes_ne_nil (t : CborToken) : t.bytes ≠ [] := by
  cases t with
  | head major arg => exact List.cons_ne_nil _ _
  | content b ofB => exact ofB

section Heads

variable {n : Nat} {major : Fin 8}

/-- The additional information of a written head is below 28. -/
theorem argInfo_lt (n : Nat) : argInfo n < 28 := by
  unfold argInfo
  split
  · omega
  split
  · omega
  split
  · omega
  split <;> omega

/-- A small additional information is the argument itself. -/
theorem argInfo_eq {k : Nat} (hk : k < 24) : argInfo n = k ↔ n = k := by
  unfold argInfo
  split
  · rfl
  split
  · omega
  split
  · omega
  split <;> omega

/-- The first byte of the head of a short text is of no other head. -/
theorem first_eq {k : Nat} (hk : k < 24) :
    UInt8.ofNat (32 * major.val + argInfo n) = UInt8.ofNat (0x60 + k) ↔
    major = 3 ∧ n = k := by
  have hinfo := argInfo_lt n
  have hmajor := major.isLt
  rw [← argInfo_eq hk, ← UInt8.toNat_inj, UInt8.toNat_ofNat',
    UInt8.toNat_ofNat', Fin.ext_iff]
  show _ ↔ major.val = 3 ∧ _
  omega

/-- The last argument byte is the argument's low byte. -/
theorem argBytes_last : (argBytes n).getLast? = if n < 24 then none
    else some (UInt8.ofNat n) := by
  rw [argBytes, List.getLast?_reverse, argWidth]
  split
  · rfl
  split
  · rfl
  split
  · rfl
  split <;> rfl

/-- A head ends in `a` exactly as its argument says. -/
theorem head_last : (head major n).bytes.getLast? = some 0x61 ↔
    (head major n).EndsA := by
  rw [bytes, List.getLast?_cons, argBytes_last]
  show some _ = some _ ↔ major = 3 ∧ n = 1 ∨ 24 ≤ n ∧ n % 256 = 0x61
  rw [Option.some.injEq]
  by_cases h : n < 24
  · rw [if_pos h, Option.getD_none]
    have hfirst := @first_eq n major 1 (by decide)
    rw [show (0x61 : UInt8) = UInt8.ofNat (0x60 + 1) from rfl, hfirst]
    omega
  · rw [if_neg h, Option.getD_some, ← UInt8.toNat_inj, UInt8.toNat_ofNat']
    show n % 256 = 0x61 ↔ _
    omega

/-- A head starts with `v` exactly as its major type and argument say. -/
theorem head_head : (head major n).bytes.head? = some 0x76 ↔
    (head major n).StartsV := by
  rw [bytes, List.head?_cons, Option.some.injEq]
  exact @first_eq n major 22 (by decide)

/-- The pair is never the first byte of a head and the next: a head that starts
with `a` has no other byte. -/
theorem head_spells : versionKey <:+: (head major n).bytes ↔
    (head major n).Spells := by
  show _ ↔ versionKey <:+: argBytes n
  rw [bytes, versionKey, List.infix_cons_iff]
  refine or_iff_right ?_
  rw [List.cons_prefix_cons]
  rintro ⟨hfirst, hrest⟩
  have hone := (@first_eq n major 1 (by decide)).mp hfirst.symm
  rw [hone.2] at hrest
  exact absurd hrest.length_le (Nat.not_succ_le_zero 0)

end Heads

theorem bytes_last (t : CborToken) :
    t.bytes.getLast? = some 0x61 ↔ t.EndsA := by
  cases t with
  | head major arg => exact head_last
  | content b ofB => exact Iff.rfl

theorem bytes_head (t : CborToken) : t.bytes.head? = some 0x76 ↔ t.StartsV := by
  cases t with
  | head major arg => exact head_head
  | content b ofB => exact Iff.rfl

/-- A token spells the version key exactly when its content does. -/
theorem bytes_spells (t : CborToken) : versionKey <:+: t.bytes ↔ t.Spells := by
  cases t with
  | head major arg => exact head_spells
  | content b ofB => exact Iff.rfl

end CborToken

/-- **The pair is in the encoding exactly if it is in the tokens.** -/
theorem spells_iff (x : Cbor) : versionKey <:+: x.encode ↔ Spells x.tokens := by
  have hpair := @pair_infix_flatMap UInt8 CborToken 0x61 0x76 CborToken.bytes
    CborToken.bytes_ne_nil x.tokens
  refine hpair.trans (or_congr (exists_congr fun t => and_congr_right fun _ =>
    t.bytes_spells) ?_)
  exact exists_congr fun t => exists_congr fun u => and_congr_right fun _ =>
    and_congr t.bytes_last u.bytes_head

/-- The tokens of an entry stand in those of its map. -/
theorem infix_tokensEntries {k v : Cbor} {entries : List (Cbor × Cbor)}
    (h : (k, v) ∈ entries) :
    k.tokens <:+: Cbor.tokensEntries entries := by
  induction entries with
  | nil => cases h
  | cons e entries ih =>
    obtain ⟨k', v'⟩ := e
    rw [Cbor.tokensEntries]
    rcases List.mem_cons.mp h with heq | hmem
    · cases heq
      rw [List.append_assoc]
      exact List.infix_append_of_infix_left (List.infix_refl _)
    · exact List.infix_append_of_infix_right (ih hmem)

/-- A map with the key `v` has the pair. -/
theorem spells_of_key {v : Cbor} {entries : List (Cbor × Cbor)}
    (h : (.text "v", v) ∈ entries) :
    Spells (Cbor.map entries).tokens := by
  have hkey : (Cbor.text "v").tokens = [.head 3 1,
      .content [0x76] (List.cons_ne_nil _ _)] := rfl
  have hinfix := infix_tokensEntries h
  rw [hkey] at hinfix
  rw [Cbor.tokens]
  exact .inr ⟨_, _, List.infix_cons hinfix, .inl ⟨rfl, rfl⟩, rfl⟩

end Pyrxd.Glyph
