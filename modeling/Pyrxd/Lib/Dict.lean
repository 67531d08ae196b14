import Pyrxd.Errors
import Pyrxd.Lib.Bytes
import Mathlib.Data.List.TakeWhile

/-!
# Wire values

What `to_dict` builds and `json.load` gives back: `None`, ints, strings and
string-keyed dicts. The readers are the Python expressions the decoders are made
of: `d[k]`, `d.get(k)`, `k in d`, `int(x)`, `str(x)`, `bytes.fromhex(x)`, each
with the exception it raises on the wrong shape.
-/

namespace Pyrxd.Lib

inductive PyVal where
  | none
  | int (n : Int)
  | str (s : String)
  | dict (kvs : List (String × PyVal))

namespace PyVal

/-- `d[k]`. -/
def item (d : PyVal) (k : String) : Except PyErr PyVal :=
  match d with
  | dict kvs =>
    match kvs.lookup k with
    | some v => .ok v
    | Option.none => .error (.other k)
  | _ => .error (.other "object is not subscriptable")

/-- `d.get(k, default)`. -/
def get (d : PyVal) (k : String) (default : PyVal := none) :
    Except PyErr PyVal :=
  match d with
  | dict kvs => .ok ((kvs.lookup k).getD default)
  | _ => .error (.other "object has no attribute 'get'")

/-- `k in d` for a dict `d`. -/
def has (d : PyVal) (k : String) : Bool :=
  match d with
  | dict kvs => (kvs.lookup k).isSome
  | _ => false

/-- `bool(x)`. -/
def truthy : PyVal → Bool
  | none => false
  | int n => n ≠ 0
  | str s => s ≠ ""
  | dict kvs => !kvs.isEmpty

/-- The digits of a decimal literal, `_` allowed between two of them. -/
def digitsVal : List Char → Nat → Bool → Option Nat
  | [], acc, afterDigit => if afterDigit then some acc else Option.none
  | c :: cs, acc, afterDigit =>
    if c = '_' then (if afterDigit then digitsVal cs acc false else Option.none)
    else if '0' ≤ c ∧ c ≤ '9' then digitsVal cs (10 * acc + (c.toNat - 48)) true
    else Option.none

/-- `int(s)` on an ASCII string. -/
def intOfStr (s : String) : Option Int :=
  let cs :=
    ((s.toList.dropWhile isAsciiSpace).reverse.dropWhile isAsciiSpace).reverse
  match cs with
  | '-' :: ds => (digitsVal ds 0 false).map fun n => -(n : Int)
  | '+' :: ds => (digitsVal ds 0 false).map fun n => (n : Int)
  | ds => (digitsVal ds 0 false).map fun n => (n : Int)

/-- `int(x)`. -/
def toInt : PyVal → Except PyErr Int
  | int n => .ok n
  | str s =>
    match intOfStr s with
    | some n => .ok n
    | Option.none => .error (.other "invalid literal for int() with base 10")
  | _ => .error (.other "int() argument must be a string or a number")

/-- `str(x)`; the repr of a dict is not modelled and reads as an error. -/
def toStr : PyVal → Except PyErr String
  | int n => .ok (toString n)
  | str s => .ok s
  | none => .ok "None"
  | dict _ => .error (.other "str() of a dict")

/-- `bytes.fromhex(x)`. -/
def toBytes : PyVal → Except PyErr Bytes
  | str s =>
    match fromHex s with
    | some b => .ok b
    | Option.none =>
      .error (.other "non-hexadecimal number found in fromhex() arg")
  | _ => .error (.other "fromhex() argument must be str")

/-- An optional string field as it is written: `None` or the string. -/
def ofOptStr : Option String → PyVal
  | some s => str s
  | Option.none => none

/-- The entries of a dict that are written only when there is something to
write. -/
def optEntries : List (String × Option PyVal) → List (String × PyVal)
  | [] => []
  | (k, some v) :: kvs => (k, v) :: optEntries kvs
  | (_, Option.none) :: kvs => optEntries kvs

@[simp] theorem item_head (k : String) (v : PyVal)
    (kvs : List (String × PyVal)) :
    item (dict ((k, v) :: kvs)) k = .ok v := by
  simp [item]

@[simp] theorem item_tail {k k' : String} (h : k' ≠ k) (v : PyVal)
    (kvs : List (String × PyVal)) :
    item (dict ((k, v) :: kvs)) k' = item (dict kvs) k' := by
  have hb : (k' == k) = false := by simpa using h
  simp [item, List.lookup_cons, hb]

@[simp] theorem get_nil (k : String) (dflt : PyVal) :
    get (dict []) k dflt = .ok dflt := rfl

@[simp] theorem get_head (k : String) (v dflt : PyVal)
    (kvs : List (String × PyVal)) :
    get (dict ((k, v) :: kvs)) k dflt = .ok v := by
  simp [get]

@[simp] theorem get_tail {k k' : String} (h : k' ≠ k) (v dflt : PyVal)
    (kvs : List (String × PyVal)) :
    get (dict ((k, v) :: kvs)) k' dflt = get (dict kvs) k' dflt := by
  have hb : (k' == k) = false := by simpa using h
  simp [get, List.lookup_cons, hb]

/-- A key that was left out reads as the default. -/
theorem get_optEntries_absent {k : String} {kvs : List (String × Option PyVal)}
    (h : ∀ e ∈ kvs, k ≠ e.1) (dflt : PyVal) :
    get (dict (optEntries kvs)) k dflt = .ok dflt := by
  induction kvs with
  | nil => rfl
  | cons e kvs ih =>
    have ih := ih fun e' he' => h e' (List.mem_cons_of_mem _ he')
    obtain ⟨k', o⟩ := e
    cases o with
    | none => exact ih
    | some v =>
      rw [optEntries, get_tail (h _ List.mem_cons_self)]
      exact ih

/-- An optional key reads as its value, or as the default when it was left
out. -/
@[simp] theorem get_optEntries_head {k : String} {o : Option PyVal}
    {kvs : List (String × Option PyVal)} (h : ∀ e ∈ kvs, k ≠ e.1)
    (dflt : PyVal) :
    get (dict (optEntries ((k, o) :: kvs))) k dflt = .ok (o.getD dflt) := by
  cases o with
  | none => exact get_optEntries_absent h dflt
  | some v => exact get_head _ _ _ _

/-- Another key is looked up behind. -/
@[simp] theorem get_optEntries_tail {k k' : String} (h : k' ≠ k)
    {o : Option PyVal}
    {kvs : List (String × Option PyVal)} (dflt : PyVal) :
    get (dict (optEntries ((k, o) :: kvs))) k' dflt = get
      (dict (optEntries kvs)) k' dflt := by
  cases o with
  | none => rfl
  | some v => exact get_tail h _ _ _

/-- An integer converts to itself. -/
@[simp] theorem toInt_int (n : Int) : toInt (int n) = .ok n := rfl

@[simp] theorem toStr_str (s : String) : toStr (str s) = .ok s := rfl

/-- Bytes written in hex are read. -/
@[simp] theorem toBytes_hex (b : Bytes) : toBytes (str (hex b)) = .ok b := by
  simp [toBytes]

/-! ## Decimal text -/

/-- Digits are a range of characters. -/
theorem isDigit_range {c : Char} (h : c.isDigit = true) :
    48 ≤ c.toNat ∧ c.toNat ≤ 57 := by
  simp only [Char.isDigit, Bool.and_eq_true, decide_eq_true_eq] at h
  exact h

/-- Digits are read in base ten. -/
theorem digitsVal_digits :
    ∀ {cs : List Char}, (∀ c ∈ cs, c.isDigit = true) → ∀ acc : Nat,
    digitsVal cs acc true = some (Nat.ofDigitChars 10 cs acc) := by
  intro cs
  induction cs with
  | nil => intro _ acc; rfl
  | cons c cs ih =>
    intro h acc
    have hc := h c List.mem_cons_self
    have hne : c ≠ '_' := by
      rintro rfl
      exact absurd hc (by decide)
    rw [digitsVal, if_neg hne,
      if_pos (show '0' ≤ c ∧ c ≤ '9' from isDigit_range hc),
      ih (fun d hd => h d (List.mem_cons_of_mem _ hd)), Nat.ofDigitChars_cons]
    rfl

theorem not_isAsciiSpace_digit {c : Char} (h : c.isDigit = true) :
    isAsciiSpace c = false := by
  obtain ⟨h48, h57⟩ := isDigit_range h
  have hne : c ≠ ' ' := by
    rintro rfl
    exact absurd h (by decide)
  simp [isAsciiSpace, hne]
  omega

/-- A natural number is written in digits. -/
theorem isDigit_of_mem_toString {n : Nat} {c : Char}
    (h : c ∈ (toString n).toList) : c.isDigit = true := by
  rw [Nat.toString_eq_ofList_toDigits, String.toList_ofList] at h
  exact Nat.isDigit_of_mem_toDigits (by decide) (by decide) h

/-- What `int` looks at: the characters between the space at both ends. -/
def strippedChars (s : String) : List Char :=
  ((s.toList.dropWhile isAsciiSpace).reverse.dropWhile isAsciiSpace).reverse

/-- A text that begins and ends in other characters is not stripped. -/
theorem strippedChars_of_ends {s : String} {a z : Char} {cs : List Char}
    (hs : s.toList = a :: cs)
    (hz : (a :: cs).getLast? = some z) (ha : isAsciiSpace a = false)
    (hspace : isAsciiSpace z = false) : strippedChars s = a :: cs := by
  obtain ⟨ys, hys⟩ := List.getLast?_eq_some_iff.mp hz
  rw [strippedChars, hs, List.dropWhile_cons_of_neg (by rw [ha]; decide),
    hys, List.reverse_append, List.reverse_singleton, List.singleton_append,
    List.dropWhile_cons_of_neg (by rw [hspace]; decide), List.reverse_cons,
    List.reverse_reverse]

/-- A text of digits is read whole. -/
theorem digitsVal_first {cs : List Char} (h : ∀ c ∈ cs, c.isDigit = true)
    (hne : cs ≠ []) :
    digitsVal cs 0 false = some (Nat.ofDigitChars 10 cs 0) := by
  cases cs with
  | nil => exact absurd rfl hne
  | cons c cs =>
    have hc := h c List.mem_cons_self
    have hne : c ≠ '_' := by
      rintro rfl
      exact absurd hc (by decide)
    rw [digitsVal, if_neg hne,
      if_pos (show '0' ≤ c ∧ c ≤ '9' from isDigit_range hc),
      digitsVal_digits fun d hd => h d (List.mem_cons_of_mem _ hd),
        Nat.ofDigitChars_cons]
    rfl

/-- `int` of digits, and of digits behind a minus. -/
theorem intOfStr_of_digits {s : String} {cs : List Char}
    (hs : strippedChars s = cs) (h : ∀ c ∈ cs, c.isDigit = true)
    (hne : cs ≠ []) : intOfStr s = some (Nat.ofDigitChars 10 cs 0 : Int) := by
  have hfirst := digitsVal_first h hne
  unfold intOfStr
  rw [show ((s.toList.dropWhile isAsciiSpace).reverse.dropWhile
    isAsciiSpace).reverse = cs from hs]
  dsimp only
  split
  · exact absurd (h '-' List.mem_cons_self) (by decide)
  · exact absurd (h '+' List.mem_cons_self) (by decide)
  · rw [hfirst]
    rfl

theorem intOfStr_of_minus {s : String} {cs : List Char}
    (hs : strippedChars s = '-' :: cs)
    (h : ∀ c ∈ cs, c.isDigit = true) (hne : cs ≠ []) :
    intOfStr s = some (-(Nat.ofDigitChars 10 cs 0 : Int)) := by
  unfold intOfStr
  rw [show ((s.toList.dropWhile isAsciiSpace).reverse.dropWhile
    isAsciiSpace).reverse = '-' :: cs from hs]
  show Option.map _ (digitsVal cs 0 false >>= fun n => pure (n : Int)) = _
  rw [digitsVal_first h hne]
  rfl

/-- A natural number is written in base ten. -/
theorem toList_toString (n : Nat) :
    (toString n).toList = Nat.toDigits 10 n := by
  rw [Nat.toString_eq_ofList_toDigits, String.toList_ofList]

/-- `int(str(n))`. -/
theorem intOfStr_toString (n : Nat) :
    intOfStr (toString n) = some (n : Int) := by
  have hdig : ∀ c ∈ Nat.toDigits 10 n, c.isDigit = true := fun c hc =>
    Nat.isDigit_of_mem_toDigits (by decide) (by decide) hc
  obtain ⟨c, cs, hcs⟩ :=
    List.exists_cons_of_ne_nil (Nat.toDigits_ne_nil (n := n) (b := 10))
  obtain ⟨z, hz⟩ : ∃ z, (c :: cs).getLast? = some z :=
    ⟨_, List.getLast?_eq_some_getLast (List.cons_ne_nil c cs)⟩
  have hstrip : strippedChars (toString n) = Nat.toDigits 10 n := by
    rw [hcs] at hdig ⊢
    exact strippedChars_of_ends (by rw [toList_toString, hcs]) hz
      (not_isAsciiSpace_digit (hdig c List.mem_cons_self))
      (not_isAsciiSpace_digit (hdig z (List.mem_of_getLast? hz)))
  rw [intOfStr_of_digits hstrip hdig Nat.toDigits_ne_nil,
    Nat.ofDigitChars_ten_toDigits]

/-- `int(str(-n))`. -/
theorem intOfStr_minus (n : Nat) :
    intOfStr ("-" ++ toString n) = some (-(n : Int)) := by
  have hdig : ∀ c ∈ Nat.toDigits 10 n, c.isDigit = true := fun c hc =>
    Nat.isDigit_of_mem_toDigits (by decide) (by decide) hc
  obtain ⟨z, hz⟩ : ∃ z, (Nat.toDigits 10 n).getLast? = some z :=
    ⟨_, List.getLast?_eq_some_getLast Nat.toDigits_ne_nil⟩
  have hchars : ("-" ++ toString n).toList = '-' :: Nat.toDigits 10 n := by
    rw [String.toList_append, toList_toString]
    rfl
  have hlast : ('-' :: Nat.toDigits 10 n).getLast? = some z := by
    rw [List.getLast?_cons, hz]
    rfl
  have hstrip := strippedChars_of_ends hchars hlast (by decide)
    (not_isAsciiSpace_digit (hdig z (List.mem_of_getLast? hz)))
  rw [intOfStr_of_minus hstrip hdig Nat.toDigits_ne_nil,
    Nat.ofDigitChars_ten_toDigits]

/-- A written integer reads back. -/
theorem intOfStr_toString_int (n : Int) : intOfStr (toString n) = some n := by
  rw [Int.toString_eq_repr, Int.repr_eq_if]
  split
  · rename_i h
    have hback := intOfStr_toString n.toNat
    rwa [Int.toNat_of_nonneg h] at hback
  · rename_i h
    have hback := intOfStr_minus (-n).toNat
    rwa [Int.toNat_of_nonneg (by omega), Int.neg_neg] at hback

/-- A readable text is digits and underscores. -/
theorem digitsVal_chars : ∀ {cs : List Char} {acc : Nat}
    {afterDigit : Bool} {n : Nat},
    digitsVal cs acc afterDigit = some n → ∀ c ∈ cs, c = '_' ∨
    c.isDigit = true := by
  intro cs
  induction cs with
  | nil => intro _ _ _ _; exact List.forall_mem_nil _
  | cons c cs ih =>
    intro acc afterDigit n h
    rw [digitsVal] at h
    rw [List.forall_mem_cons]
    split at h
    · rename_i hc
      split at h
      · exact ⟨.inl hc, ih h⟩
      · cases h
    · split at h
      · rename_i hc
        refine ⟨.inr ?_, ih h⟩
        simp only [Char.isDigit, Bool.and_eq_true, decide_eq_true_eq]
        exact hc
      · cases h

/-- The characters of a literal. -/
def IsLiteral (c : Char) : Prop := isAsciiSpace c = true ∨ c = '-' ∨ c = '+' ∨
  c = '_' ∨ c.isDigit = true

/-- A literal is made of literal characters. -/
theorem intOfStr_chars {s : String} {n : Int} (h : intOfStr s = some n) :
    strippedChars s ≠ [] ∧ ∀ c ∈ s.toList, IsLiteral c := by
  have hstripped : strippedChars s ≠ [] ∧
      ∀ c ∈ strippedChars s, IsLiteral c := by
    have hdigits : ∀ {cs : List Char} {m : Int}, (digitsVal cs 0 false >>=
        fun n => pure (n : Int)) = some m →
        cs ≠ [] ∧ ∀ c ∈ cs, IsLiteral c := by
      intro cs m h
      obtain ⟨n, hn, -⟩ := Option.bind_eq_some_iff.mp h
      refine ⟨?_, fun c hc => .inr (.inr (.inr (digitsVal_chars hn c hc)))⟩
      rintro rfl
      cases hn
    unfold intOfStr at h
    generalize hs : strippedChars s = cs
    rw [show ((s.toList.dropWhile isAsciiSpace).reverse.dropWhile
      isAsciiSpace).reverse = cs from hs] at h
    dsimp only at h
    split at h
    · obtain ⟨m, hm, -⟩ := Option.map_eq_some_iff.mp h
      exact ⟨List.cons_ne_nil _ _,
        List.forall_mem_cons.mpr ⟨.inr (.inl rfl), (hdigits hm).2⟩⟩
    · obtain ⟨m, hm, -⟩ := Option.map_eq_some_iff.mp h
      exact ⟨List.cons_ne_nil _ _,
        List.forall_mem_cons.mpr ⟨.inr (.inr (.inl rfl)), (hdigits hm).2⟩⟩
    · obtain ⟨m, hm, -⟩ := Option.map_eq_some_iff.mp h
      exact hdigits hm
  refine ⟨hstripped.1, fun c hc => ?_⟩
  by_cases hspace : isAsciiSpace c = true
  · exact .inl hspace
  · refine hstripped.2 c ?_
    -- what is not space is not stripped
    have hkeep : ∀ {l : List Char}, c ∈ l → c ∈ l.dropWhile isAsciiSpace := by
      intro l hl
      rw [← List.takeWhile_append_dropWhile (p := isAsciiSpace) (l := l)] at hl
      rcases List.mem_append.mp hl with hl | hl
      · exact absurd (List.mem_takeWhile_imp hl) hspace
      · exact hl
    rw [strippedChars, List.mem_reverse]
    exact hkeep (List.mem_reverse.mpr (hkeep hc))

/-- Space at the end does not matter. -/
theorem intOfStr_append_space {s t : String} {k : Nat}
    (h : t.toList = s.toList ++ List.replicate k ' ') :
    intOfStr t = intOfStr s := by
  have hall : ∀ c ∈ List.replicate k ' ', isAsciiSpace c = true := by
    intro c hc
    rw [(List.mem_replicate.mp hc).2]
    decide
  have hstrip : strippedChars t = strippedChars s := by
    rw [strippedChars, strippedChars, h]
    by_cases hnil : s.toList.dropWhile isAsciiSpace = []
    · have hs := List.dropWhile_eq_nil_iff.mp hnil
      rw [hnil,
        List.dropWhile_eq_nil_iff.mpr (List.forall_mem_append.mpr ⟨hs, hall⟩)]
    · rw [List.dropWhile_append, if_neg (by rwa [List.isEmpty_iff]),
        List.reverse_append, List.dropWhile_append_of_pos fun c hc =>
        hall c (List.mem_reverse.mp hc)]
  unfold intOfStr
  rw [show ((t.toList.dropWhile isAsciiSpace).reverse.dropWhile
    isAsciiSpace).reverse = _ from hstrip]
  rfl

end PyVal

end Pyrxd.Lib
