import Pyrxd.Hd.Derivation
import Pyrxd.Lib.Dict
import Pyrxd.Lib.Text
import Pyrxd.Lib.Traverse

/-!
# Derivation paths

`step_to_index`, `ckd` and `bip32_derive_xkeys_from_xkey` of `hd/bip32.py`, over
the key derivation of `Bip32`. A path is text: what its steps are is decided by
stripping, splitting and `int`.
-/

namespace Pyrxd.Hd

open Pyrxd.Lib

/-! ## `int` -/

/-- The characters outside ASCII that `int` takes for digits and for space. -/
structure Unicode where
  decimal : Char → Option (Fin 10)
  space : Char → Bool

/-- No digits and no space outside ASCII. -/
def asciiOnly : Unicode := ⟨fun _ => none, fun _ => false⟩

/-- A character as `int` reads it. -/
def Unicode.toAscii (u : Unicode) (c : Char) : Char :=
  if c.toNat < 128 then c
  else if u.space c then ' '
  else
    match u.decimal c with
    | some d => Char.ofNat (48 + d)
    | none => '?'

/-- `int(s)`. -/
def Unicode.int (u : Unicode) (s : String) : Except PyErr Int :=
  let ascii := s.toList.map u.toAscii
  if 4300 < ascii.countP Char.isDigit then .error
    (.other "Exceeds the limit (4300 digits)")
  else
    match PyVal.intOfStr (String.ofList ascii) with
    | some n => .ok n
    | none => .error (.other "invalid literal for int() with base 10")

/-! ## Steps -/

/-- What `step_to_index` is given. -/
inductive PathStep where
  | text (s : String)
  | index (n : Int)

/-- `f"{step}"`. -/
def PathStep.format : PathStep → String
  | .text s => s
  | .index n => toString n

/-- The mark of a hardened step. -/
def apostrophe : Char := '\''

/-- A step as it is written: whether it ends with the mark, and the number in
front of it. -/
def readStep (u : Unicode) (s : String) : Except PyErr (Bool × Int) := do
  refuseIf (s = "") "invalid step"
  let hardened := decide (s.toList.getLast? = some apostrophe)
  let number ← u.int (if hardened then String.ofList s.toList.dropLast else s)
  return (hardened, number)

/-- The range check of `step_to_index`. -/
def indexInRange (index : Int) : Except PyErr Int := do
  refuseIf (¬ (0 ≤ index ∧ index < 0xFFFFFFFF)) "step out of range"
  return index

/-- `step_to_index`. -/
def stepToIndex (u : Unicode) : PathStep → Except PyErr Int
  | .text s => do
    let read ← readStep u s
    indexInRange ((if read.1 then 0x80000000 else 0) + read.2)
  | .index n => indexInRange n

/-! ## Extended keys of either kind -/

inductive Xkey (Key Secret : Type) where
  | xpub (x : Xpub Key)
  | xprv (x : Xprv Secret)

namespace Xkey

variable {Key Secret : Type}

def payload : Xkey Key Secret → Bytes
  | xpub x => x.payload
  | xprv x => x.payload

/-- `xkey.ckd(i)`. -/
def ckd (hd : HdCurve Key Secret) (xkey : Xkey Key Secret) (index : Int) :
    Except PyErr (Xkey Key Secret) :=
  match xkey with
  | xpub x => do
    let child ← x.ckd hd index
    return xpub child
  | xprv x => do
    let child ← x.ckd hd index
    return xprv child

/-- The test of `ckd` for an absolute path. -/
def IsMaster (xkey : Xkey Key Secret) : Prop :=
  xkeyDepth xkey.payload = 0 ∧ xkeyFingerprint xkey.payload = [0, 0, 0, 0] ∧
    beNat (xkeyIndex xkey.payload) = 0

instance (xkey : Xkey Key Secret) : Decidable xkey.IsMaster :=
  inferInstanceAs (Decidable (_ ∧ _ ∧ _))

end Xkey

section Ckd

variable {Key Secret : Type} (hd : HdCurve Key Secret) (u : Unicode)

/-- `path.strip(" ").strip("/").split("/")`. -/
def pathSteps (path : String) : List String :=
  Text.split '/' (Text.strip '/' (Text.strip ' ' path))

/-- The loop of `ckd`. -/
def walkSteps (xkey : Xkey Key Secret) (steps : List String) :
    Except PyErr (Xkey Key Secret) :=
  steps.foldlM (fun child step => do
    let index ← stepToIndex u (.text step)
    child.ckd hd index) xkey

/-- `ckd`. -/
def ckd (xkey : Xkey Key Secret) (path : String) :
    Except PyErr (Xkey Key Secret) := do
  let steps := pathSteps path
  refuseIf (¬ (steps.headD "" = "m" ∨ steps.headD "" = "."))
    "path must start with 'm' or '.'"
  refuseIf (steps.headD "" = "m" ∧
    ¬ xkey.IsMaster) "absolute path for non-master key"
  walkSteps hd u xkey steps.tail

/-- An end of the range: `step_to_index(i) if isinstance(i, str) else i`. -/
def rangeIndex : PathStep → Except PyErr Int
  | .text s => stepToIndex u (.text s)
  | .index n => .ok n

/-- `range(start, end)`. -/
def indexRange (start stop : Int) : List Int :=
  (List.range (stop - start).toNat).map fun (k : Nat) => start + k

/-- The path to the change level. -/
def changePath (path : String) (change : PathStep) : String :=
  let basePath := Text.rstrip '/' path
  if ['m', '/'] <+: basePath.toList then basePath ++ "/" ++ change.format
  else "./" ++ change.format

/-- `bip32_derive_xkeys_from_xkey`. -/
def bip32DeriveXkeysFromXkey (xkey : Xkey Key Secret)
    (indexStart indexEnd : PathStep) (path : String)
    (change : PathStep) : Except PyErr (List (Xkey Key Secret)) := do
  let startIdx ← rangeIndex u indexStart
  let endIdx ← rangeIndex u indexEnd
  if startIdx < 0 ∨ endIdx < 0 ∨ startIdx ≥ endIdx then
    .error (.other
      "Invalid index range: start must be non-negative and less than end")
  else do
    let changeLevel ← ckd hd u xkey (changePath path change)
    (indexRange startIdx endIdx).mapM fun i => changeLevel.ckd hd i

end Ckd

/-! ## Reading a step -/

section Step

variable {u : Unicode} {s : String} {n k i : Int}

theorem Unicode.toAscii_of_lt {c : Char} (hc : c.toNat < 128) :
    u.toAscii c = c := if_pos hc

theorem Unicode.map_toAscii {l : List Char} (h : ∀ c ∈ l, c.toNat < 128) :
    l.map u.toAscii = l :=
  (List.map_congr_left fun c hc => toAscii_of_lt (h c hc)).trans (List.map_id l)

/-- What `int` accepts, with the limit on digits. -/
theorem Unicode.int_ok : u.int s = .ok n ↔
    (s.toList.map u.toAscii).countP Char.isDigit ≤ 4300 ∧
    PyVal.intOfStr (String.ofList (s.toList.map u.toAscii)) = some n := by
  unfold Unicode.int
  by_cases hlong : 4300 < (s.toList.map u.toAscii).countP Char.isDigit
  · rw [if_pos hlong]
    exact ⟨nofun, fun h => absurd h.1 (Nat.not_le.mpr hlong)⟩
  · rw [if_neg hlong]
    cases PyVal.intOfStr (String.ofList (s.toList.map u.toAscii)) with
    | none => exact ⟨nofun, nofun⟩
    | some m =>
      constructor
      · intro h
        cases h
        exact ⟨Nat.le_of_not_lt hlong, rfl⟩
      · rintro ⟨-, h⟩
        rw [Option.some.inj h]

/-- An ASCII character of what `int` takes is one of a literal. -/
theorem Unicode.int_literal (h : u.int s = .ok n) {c : Char} (hc : c ∈ s.toList)
    (hascii : c.toNat < 128) : PyVal.IsLiteral c := by
  have hchars := (PyVal.intOfStr_chars (Unicode.int_ok.mp h).2).2
  rw [String.toList_ofList] at hchars
  have hmem := hchars _ (List.mem_map_of_mem hc)
  rwa [toAscii_of_lt hascii] at hmem

theorem Unicode.int_not_blank (h : u.int s = .ok n) :
    ∃ c ∈ s.toList, c ≠ ' ' := by
  by_contra hall
  push Not at hall
  have hne := (PyVal.intOfStr_chars (Unicode.int_ok.mp h).2).1
  refine hne ?_
  have hspace : ∀ c ∈ s.toList.map u.toAscii, isAsciiSpace c = true := by
    intro c hc
    obtain ⟨d, hd, rfl⟩ := List.mem_map.mp hc
    rw [hall d hd]
    rfl
  rw [PyVal.strippedChars, String.toList_ofList,
    List.dropWhile_eq_nil_iff.mpr hspace]
  rfl

theorem toList_toString_int (n : Int) :
    (toString n).toList = (if 0 ≤ n then [] else ['-']) ++
    Nat.toDigits 10 n.natAbs := by
  rw [Int.toString_eq_repr, Int.repr_eq_if]
  split
  · rename_i h
    rw [List.nil_append, show n.natAbs = n.toNat by omega, Nat.toList_repr]
  · rename_i h
    rw [String.toList_append,
      show n.natAbs = (-n).toNat by omega, Nat.toList_repr]
    rfl

theorem digit_ascii {c : Char} (h : c.isDigit = true) : c.toNat < 128 := by
  have := PyVal.isDigit_range h
  omega

theorem ascii_toString (n : Int) : ∀ c ∈ (toString n).toList, c = '-' ∨
    c.isDigit = true := by
  intro c hc
  rw [toList_toString_int] at hc
  rcases List.mem_append.mp hc with hc | hc
  · split at hc
    · cases hc
    · exact .inl (List.mem_singleton.mp hc)
  · exact .inr (Nat.isDigit_of_mem_toDigits (by decide) (by decide) hc)

theorem map_toString (n : Int) : (toString n).toList.map u.toAscii =
    (toString n).toList := by
  refine Unicode.map_toAscii fun c hc => ?_
  rcases ascii_toString n c hc with rfl | hd
  · decide
  · exact digit_ascii hd

/-- `int(str(n))`, where it returns. -/
theorem Unicode.int_of_toString (h : u.int (toString n) = .ok k) : k = n := by
  have h := (Unicode.int_ok.mp h).2
  rw [map_toString, String.ofList_toList, PyVal.intOfStr_toString_int] at h
  exact (Option.some.inj h).symm

/-- A written number reads back. -/
theorem Unicode.int_toString (hn : n.natAbs < 10 ^ 4300) :
    u.int (toString n) = .ok n := by
  refine Unicode.int_ok.mpr ⟨?_, by rw [map_toString, String.ofList_toList,
    PyVal.intOfStr_toString_int]⟩
  have hsign : (if 0 ≤ n then [] else ['-']).countP Char.isDigit =
      0 := by split <;> rfl
  rw [map_toString, toList_toString_int, List.countP_append,
    hsign, Nat.zero_add]
  exact Nat.le_trans List.countP_le_length
    ((Nat.length_toDigits_le_iff (by decide) (by decide)).mpr hn)

/-- The range check of an index. -/
theorem indexInRange_ok : indexInRange n = .ok i ↔
    n = i ∧ 0 ≤ i ∧ i < 0xFFFFFFFF := by
  rw [indexInRange, refuseIf_bind_ok, not_not]
  constructor
  · rintro ⟨hrange, h⟩
    cases h
    exact ⟨rfl, hrange⟩
  · rintro ⟨rfl, hrange⟩
    exact ⟨hrange, rfl⟩

/-- What a step of a path is read as. -/
theorem stepToIndex_ok : stepToIndex u (.text s) = .ok i ↔
    ∃ read, readStep u s = .ok read ∧
    (if read.1 then 0x80000000 else 0) + read.2 = i ∧ 0 ≤ i ∧
    i < 0xFFFFFFFF := by
  unfold stepToIndex
  simp only [bind_ok, indexInRange_ok]

/-- The number and the mark of a step. -/
theorem readStep_ok {hardened : Bool} :
    readStep u s = .ok (hardened, n) ↔ s ≠ "" ∧
    hardened = decide (s.toList.getLast? = some apostrophe) ∧
      u.int (if hardened then String.ofList s.toList.dropLast
        else s) = .ok n := by
  unfold readStep
  rw [refuseIf_bind_ok, bind_ok]
  constructor
  · rintro ⟨hne, number, hnumber, h⟩
    cases h
    exact ⟨hne, rfl, hnumber⟩
  · rintro ⟨hne, rfl, hnumber⟩
    exact ⟨hne, n, hnumber, rfl⟩

/-- A number does not end in the mark. -/
theorem last_toString (n : Int) :
    (toString n).toList.getLast? ≠ some apostrophe := by
  intro h
  rcases ascii_toString n _ (List.mem_of_getLast? h) with h | h
  · exact absurd h (by decide)
  · exact absurd h (by decide)

theorem toString_ne_empty (n : Int) : toString n ≠ "" := by
  intro hempty
  have hnil : (toString n).toList = [] := by rw [hempty]; rfl
  rw [toList_toString_int] at hnil
  exact Nat.toDigits_ne_nil (List.append_eq_nil_iff.mp hnil).2

/-- The steps a number is written to, without the mark and with it. -/
theorem readStep_plain (n : Int) {read : Bool × Int} :
    readStep u (toString n) = .ok read ↔ u.int (toString n) = .ok read.2 ∧
    read.1 = false := by
  obtain ⟨hardened, number⟩ := read
  rw [readStep_ok, decide_eq_false (last_toString n)]
  constructor
  · rintro ⟨-, rfl, h⟩
    exact ⟨h, rfl⟩
  · rintro ⟨h, rfl⟩
    exact ⟨toString_ne_empty n, rfl, h⟩

/-- A number with the mark is a hardened step. -/
theorem readStep_hardened (n : Int) {read : Bool × Int} :
    readStep u (toString n ++ "'") = .ok read ↔
    u.int (toString n) = .ok read.2 ∧ read.1 = true := by
  obtain ⟨hardened, number⟩ := read
  have hchars : (toString n ++ "'").toList = (toString n).toList ++
      [apostrophe] := String.toList_append
  have hlast : (toString n ++ "'").toList.getLast? =
      some apostrophe := by rw [hchars, List.getLast?_concat]
  have hinit : String.ofList (toString n ++ "'").toList.dropLast =
      toString n := by
    rw [hchars, List.dropLast_concat, String.ofList_toList]
  rw [readStep_ok, decide_eq_true hlast]
  constructor
  · rintro ⟨-, rfl, h⟩
    rw [if_pos rfl, hinit] at h
    exact ⟨h, rfl⟩
  · rintro ⟨h, hmark⟩
    have hmark : hardened = true := hmark
    refine ⟨?_, hmark, ?_⟩
    · intro hempty
      rw [hempty] at hlast
      cases hlast
    · rw [hmark, if_pos rfl, hinit]
      exact h

/-- A hardened step has the index its number has above the mark, where that is
an index. -/
theorem stepToIndex_hardened (n : Int) :
    stepToIndex u (.text (toString n ++ "'")) = .ok i ↔
    i = 0x80000000 + n ∧ 0 ≤ i ∧ i < 0xFFFFFFFF := by
  rw [stepToIndex_ok]
  constructor
  · rintro ⟨read, hread, rfl, hrange⟩
    obtain ⟨hnumber, hmark⟩ := (readStep_hardened n).mp hread
    rw [hmark, if_pos rfl, Unicode.int_of_toString hnumber] at hrange ⊢
    exact ⟨rfl, hrange⟩
  · rintro ⟨rfl, hrange⟩
    have hsmall : n.natAbs < 10 ^ 4300 :=
      Nat.lt_of_lt_of_le (show n.natAbs < 10 ^ 10 by omega)
        (Nat.pow_le_pow_right (by decide) (by decide))
    exact ⟨(true, n), (readStep_hardened n).mpr ⟨Unicode.int_toString hsmall,
      rfl⟩, rfl, hrange⟩

/-- A plain number is its index. -/
theorem stepToIndex_plain (n : Int) :
    stepToIndex u (.text (toString n)) = .ok i ↔
    i = n ∧ 0 ≤ i ∧ i < 0xFFFFFFFF := by
  rw [stepToIndex_ok]
  constructor
  · rintro ⟨read, hread, rfl, hrange⟩
    obtain ⟨hnumber, hmark⟩ := (readStep_plain n).mp hread
    rw [hmark, if_neg (by decide), Unicode.int_of_toString hnumber,
      Int.zero_add] at hrange ⊢
    exact ⟨rfl, hrange⟩
  · rintro ⟨rfl, hrange⟩
    have hsmall : i.natAbs < 10 ^ 4300 :=
      Nat.lt_of_lt_of_le (show i.natAbs < 10 ^ 10 by omega)
        (Nat.pow_le_pow_right (by decide) (by decide))
    exact ⟨(false, i), (readStep_plain i).mpr ⟨Unicode.int_toString hsmall,
      rfl⟩, Int.zero_add i, hrange⟩

end Step

/-! ## Walking a path -/

section Walk

variable {Key Secret : Type} {hd : HdCurve Key Secret} {u : Unicode}
  {xkey y : Xkey Key Secret} {path : String}

/-- A path that `ckd` walks: relative, or absolute from a master key. -/
def Starts (xkey : Xkey Key Secret) (path : String) : Prop :=
  (pathSteps path).headD "" = "." ∨ (pathSteps path).headD "" =
    "m" ∧ xkey.IsMaster

/-- Derivation walks the steps behind the root. -/
theorem ckd_eq (h : Starts xkey path) :
    ckd hd u xkey path = walkSteps hd u xkey (pathSteps path).tail := by
  have hform : (pathSteps path).headD "" = "m" ∨
      (pathSteps path).headD "" = "." := h.symm.imp And.left id
  have hmaster : ¬ ((pathSteps path).headD "" = "m" ∧ ¬ xkey.IsMaster) := by
    rintro ⟨hm, hmaster⟩
    rcases h with h | h
    · exact absurd (h.symm.trans hm) (by decide)
    · exact hmaster h.2
  unfold ckd
  dsimp only
  rw [refuseIf, if_neg (not_not.mpr hform), ok_bind, refuseIf,
    if_neg hmaster, ok_bind]

theorem ckd_ok : ckd hd u xkey path = .ok y ↔ Starts xkey path ∧
    walkSteps hd u xkey (pathSteps path).tail = .ok y := by
  constructor
  · intro h
    have hstarts : Starts xkey path := by
      obtain ⟨hform, h⟩ := refuseIf_bind_ok.mp h
      obtain ⟨hmaster, -⟩ := refuseIf_bind_ok.mp h
      rcases not_not.mp hform with hm | hrel
      · exact .inr ⟨hm, not_not.mp fun hne => hmaster ⟨hm, hne⟩⟩
      · exact .inl hrel
    exact ⟨hstarts, by rwa [ckd_eq hstarts] at h⟩
  · rintro ⟨hstarts, h⟩
    rwa [ckd_eq hstarts]

end Walk

end Pyrxd.Hd
