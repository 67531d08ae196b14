import Mathlib.Data.List.Sort
import Mathlib.Data.Rat.Defs
import Pyrxd.Errors
import Pyrxd.Lib.Bytes

/-!
# CBOR objects

What `cbor2.loads` makes of bytes and what the encoders hand to `cbor2.dumps`,
with the Python expressions the Glyph code reads them by. The library itself is
a parameter (`Cbor2`): what is known of it is said where it is used.
-/

namespace Pyrxd.Glyph

open Pyrxd.Lib

/-- The values of a Python float. -/
inductive PyFloat where
  | finite (q : ℚ)
  | negZero
  | inf (negative : Bool)
  | nan
deriving DecidableEq

/-- A map keeps the order of its entries, as a dict does. -/
inductive Cbor where
  | none
  | int (n : Int)
  | bool (b : Bool)
  | float (f : PyFloat)
  /-- A `Decimal` or a `Fraction`. -/
  | ratio (cls : String) (q : ℚ)
  | text (s : String)
  | bytes (b : Bytes)
  | list (xs : List Cbor)
  | set (xs : List Cbor)
  | map (entries : List (Cbor × Cbor))
  | tag (number : Nat) (value : Cbor)
  /-- Any other object: a date, an address, a regular expression, `undefined`,
  ... -/
  | other (cls : String) (truth : Bool) (ident : Nat)

namespace Cbor

/-- `type(x).__name__`. -/
def typeName : Cbor → String
  | none => "NoneType"
  | int _ => "int"
  | bool _ => "bool"
  | float _ => "float"
  | ratio cls _ => cls
  | text _ => "str"
  | bytes _ => "bytes"
  | list _ => "list"
  | set _ => "set"
  | map _ => "dict"
  | tag _ _ => "CBORTag"
  | other cls _ _ => cls

/-- `bool(x)`. -/
def truthy : Cbor → Bool
  | none => false
  | int n => n ≠ 0
  | bool b => b
  | float (.finite q) => q ≠ 0
  | float .negZero => false
  | float _ => true
  | ratio _ q => q ≠ 0
  | text s => s ≠ ""
  | bytes b => b ≠ []
  | list xs => !xs.isEmpty
  | set xs => !xs.isEmpty
  | map entries => !entries.isEmpty
  | tag _ _ => true
  | other _ truth _ => truth

/-- `x == n` for an int `n`. -/
def eqInt (n : Int) : Cbor → Bool
  | int k => k = n
  | bool b => (if b then 1 else 0) = n
  | float (.finite q) => q = n
  | float .negZero => n = 0
  | ratio _ q => q = n
  | _ => false

/-- `x == s` for a string `s`. -/
def eqText (s : String) : Cbor → Bool
  | text t => t = s
  | _ => false

/-- `n in x` for an int `n`. -/
def hasInt (n : Int) : Cbor → Except PyErr Bool
  | list xs => .ok (xs.any (eqInt n))
  | set xs => .ok (xs.any (eqInt n))
  | map entries => .ok (entries.any fun e => eqInt n e.1)
  | bytes b => .ok (b.any fun c => (c.toNat : Int) = n)
  | text _ =>
    .error (.other
      "'in <string>' requires string as left operand, not GlyphProtocol")
  | x =>
    .error (.other ("argument of type '" ++ x.typeName ++ "' is not iterable"))

/-- The value under a string key. -/
def lookup (key : String) : List (Cbor × Cbor) → Option Cbor
  | [] => Option.none
  | (k, v) :: entries => if eqText key k then some v else lookup key entries

/-- `x.get(key, default)`. -/
def get (x : Cbor) (key : String) (default : Cbor := none) :
    Except PyErr Cbor :=
  match x with
  | map entries => .ok ((lookup key entries).getD default)
  | x =>
    .error (.other ("'" ++ x.typeName ++ "' object has no attribute 'get'"))

/-! ## Canonical order -/

/-- The order of two strings as canonical keys: the shorter encoding first, then
by its bytes. -/
def textLe (a b : String) : Bool :=
  decide (a.utf8ByteSize < b.utf8ByteSize) || (a.utf8ByteSize ==
    b.utf8ByteSize && decide (a.toUTF8.data.toList ≤ b.toUTF8.data.toList))

def entryLe : Cbor × Cbor → Cbor × Cbor → Bool
  | (text a, _), (text b, _) => textLe a b
  | _, _ => true

mutual

/-- The object with the entries of every map in canonical order; the maps
written have string keys. -/
def canon : Cbor → Cbor
  | list xs => list (canonList xs)
  | map entries =>
    map ((canonEntries entries).insertionSort fun a b => entryLe a b)
  | tag number value => tag number (canon value)
  | x => x

def canonList : List Cbor → List Cbor
  | [] => []
  | x :: xs => canon x :: canonList xs

def canonEntries : List (Cbor × Cbor) → List (Cbor × Cbor)
  | [] => []
  | (k, v) :: entries => (k, canon v) :: canonEntries entries

end

@[simp] theorem canon_int (n : Int) : canon (int n) = int n := by simp [canon]

@[simp] theorem canon_bool (b : Bool) :
    canon (bool b) = bool b := by simp [canon]

@[simp] theorem canon_text (s : String) :
    canon (text s) = text s := by simp [canon]

@[simp] theorem canon_bytes (b : Bytes) :
    canon (bytes b) = bytes b := by simp [canon]

/-! ## Maps with optional entries -/

/-- The entries of a dict that is filled under conditions. -/
def present : List (String × Option Cbor) → List (Cbor × Cbor)
  | [] => []
  | (k, some v) :: fields => (text k, v) :: present fields
  | (_, Option.none) :: fields => present fields

/-- `d[key] = x`, written only if there is something to write. -/
def textField (s : String) : Option Cbor := if s = "" then Option.none
  else some (text s)

def intField (n : Int) : Option Cbor := if n = 0 then Option.none
  else some (int n)

/-! ## What is found in a map that was written -/

section Lookups

variable {a b entries : List (Cbor × Cbor)}
  {fields : List (String × Option Cbor)} {key : String} {v : Cbor}

/-- A text key equals a text item exactly when the texts agree. -/
theorem eqText_text {s : String} : eqText key (text s) = true ↔ s = key :=
  decide_eq_true_iff

/-- No string is the key of two entries. -/
def DistinctKeys (entries : List (Cbor × Cbor)) : Prop :=
  entries.Pairwise fun a b => ∀ key, eqText key a.1 = true →
    eqText key b.1 ≠ true

/-- With distinct keys, the lookup finds an entry wherever it stands. -/
theorem lookup_eq_some (h : DistinctKeys entries) :
    lookup key entries = some v ↔
      ∃ e ∈ entries, eqText key e.1 = true ∧ e.2 = v := by
  induction entries with
  | nil => exact ⟨nofun, fun ⟨e, he, _⟩ => absurd he List.not_mem_nil⟩
  | cons e entries ih =>
    obtain ⟨hhead, htail⟩ := List.pairwise_cons.mp h
    rw [lookup, List.exists_mem_cons_iff]
    by_cases hkey : eqText key e.1 = true
    · rw [if_pos hkey, Option.some.injEq]
      constructor
      · intro hv
        exact .inl ⟨hkey, hv⟩
      · rintro (⟨-, hv⟩ | ⟨f, hf, hkey', -⟩)
        · exact hv
        · exact absurd hkey' (hhead f hf key hkey)
    · rw [if_neg hkey, ih htail]
      constructor
      · exact .inr
      · rintro (⟨hkey', -⟩ | hrest)
        · exact absurd hkey' hkey
        · exact hrest

/-- Distinct keys stay distinct under reordering. -/
theorem DistinctKeys.perm (h : DistinctKeys a) (hperm : a.Perm b) :
    DistinctKeys b :=
  hperm.pairwise h fun hab key hb ha => hab key ha hb

/-- The order of the entries does not matter. -/
theorem lookup_perm (h : DistinctKeys a) (hperm : a.Perm b) :
    lookup key a = lookup key b := by
  apply Option.ext
  intro v
  rw [lookup_eq_some h, lookup_eq_some (h.perm hperm)]
  simp only [hperm.mem_iff]

/-- Canonical ordering moves entries and keeps what each key leads to. -/
theorem lookup_canonEntries : lookup key (canonEntries entries) =
    (lookup key entries).map canon := by
  induction entries with
  | nil => rfl
  | cons e entries ih =>
    rw [canonEntries, lookup, lookup, ih]
    split <;> rfl

theorem mem_canonEntries {e : Cbor × Cbor} (h : e ∈ canonEntries entries) :
    ∃ f ∈ entries, f.1 = e.1 := by
  induction entries with
  | nil => cases h
  | cons f entries ih =>
    rw [canonEntries, List.mem_cons] at h
    rcases h with rfl | h
    · exact ⟨f, List.mem_cons_self, rfl⟩
    · obtain ⟨g, hg, he⟩ := ih h
      exact ⟨g, List.mem_cons_of_mem _ hg, he⟩

/-- So it keeps the keys distinct. -/
theorem DistinctKeys.canonEntries (h : DistinctKeys entries) :
    DistinctKeys (canonEntries entries) := by
  induction entries with
  | nil => exact List.Pairwise.nil
  | cons e entries ih =>
    obtain ⟨hhead, htail⟩ := List.pairwise_cons.mp h
    refine List.pairwise_cons.mpr ⟨fun f hf => ?_, ih htail⟩
    obtain ⟨g, hg, heq⟩ := mem_canonEntries hf
    rw [← heq]
    exact hhead g hg

/-- The written entries carry the keys of the fields. -/
theorem mem_present {e : Cbor × Cbor} (h : e ∈ present fields) :
    ∃ k ∈ fields.map Prod.fst, e.1 = text k := by
  induction fields with
  | nil => cases h
  | cons f fields ih =>
    obtain ⟨k, o⟩ := f
    cases o with
    | none =>
      obtain ⟨k', hk', he⟩ := ih h
      exact ⟨k', List.mem_cons_of_mem _ hk', he⟩
    | some v =>
      rw [present, List.mem_cons] at h
      rcases h with rfl | h
      · exact ⟨k, List.mem_cons_self, rfl⟩
      · obtain ⟨k', hk', he⟩ := ih h
        exact ⟨k', List.mem_cons_of_mem _ hk', he⟩

/-- Distinct field names are written as distinct keys. -/
theorem distinct_present (h : (fields.map Prod.fst).Nodup) :
    DistinctKeys (present fields) := by
  induction fields with
  | nil => exact List.Pairwise.nil
  | cons f fields ih =>
    obtain ⟨k, o⟩ := f
    obtain ⟨hk, htail⟩ := List.nodup_cons.mp h
    cases o with
    | none => exact ih htail
    | some v =>
      refine List.pairwise_cons.mpr ⟨fun e he key hkey hkey' => ?_, ih htail⟩
      obtain ⟨k', hk', heq⟩ := mem_present he
      rw [heq, eqText_text] at hkey'
      rw [eqText_text] at hkey
      exact hk (hkey.trans hkey'.symm ▸ hk')

/-- A written map gives each field back under its name. -/
theorem lookup_present (h : (fields.map Prod.fst).Nodup) :
    lookup key (present fields) = (fields.lookup key).join := by
  induction fields with
  | nil => rfl
  | cons f fields ih =>
    obtain ⟨k, o⟩ := f
    obtain ⟨hk, htail⟩ := List.nodup_cons.mp h
    rw [List.lookup_cons]
    by_cases hkey : key = k
    · rw [beq_iff_eq.mpr hkey]
      cases o with
      | none =>
        rw [present, ih htail]
        have hnone : fields.lookup key = Option.none := by
          rw [List.lookup_eq_none_iff]
          intro p hp
          rw [bne_iff_ne]
          intro heq
          have hmem : p.1 ∈ fields.map Prod.fst := List.mem_map_of_mem hp
          rw [← heq, hkey] at hmem
          exact hk hmem
        rw [hnone]
        rfl
      | some v => rw [present, lookup, if_pos (eqText_text.mpr hkey.symm)]; rfl
    · rw [beq_false_of_ne hkey]
      cases o with
      | none => exact ih htail
      | some v =>
        rw [present, lookup, if_neg fun h => hkey (eqText_text.mp h).symm]
        exact ih htail

/-- **A field of a dict that was written canonically** is found, itself in
canonical order. -/
theorem get_canon (h : (fields.map Prod.fst).Nodup) (default : Cbor) :
    (canon (map (present fields))).get key default =
      .ok (((fields.lookup key).join.map canon).getD default) := by
  have hperm := List.perm_insertionSort (fun a b => entryLe a b)
    (canonEntries (present fields))
  rw [canon, get, ← lookup_perm (distinct_present h).canonEntries hperm.symm,
    lookup_canonEntries, lookup_present h]

end Lookups

end Cbor

/-! ## The library -/

/-- `cbor2`, with `str()` and `repr()` of the objects it makes. -/
structure Cbor2 where
  loads : Bytes → Except PyErr Cbor
  dumps : Cbor → Bytes
  /-- `dumps(x, canonical=True)`. -/
  dumpsCanonical : Cbor → Bytes
  str : Cbor → String
  repr : Cbor → String

end Pyrxd.Glyph
