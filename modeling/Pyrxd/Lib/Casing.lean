import Mathlib.Data.List.DropRight
import Pyrxd.Lib.Bytes

/-!
# White space and case

`str.strip`, `str.lower` and `str.replace`, with the tables of Unicode as
parameters outside ASCII. What is needed of the tables is that a character
outside ASCII has a lower case and that, two letters apart, none of it is ASCII
(`CharTables.Lawful`): then a text whose lower case is written in plain letters
was written in ASCII itself (`ascii_of_lowerCase`).
-/

namespace Pyrxd.Lib

/-- What Unicode says of the characters outside ASCII. -/
structure CharTables where
  space : Char → Bool
  /-- The lower case of a character, in front of and behind which something
  stands. -/
  lower : List Char → List Char → Char → List Char

/-- A Kelvin sign is lower case `k`, and a dotted capital I begins with `i`;
nothing else becomes ASCII. -/
structure CharTables.Lawful (u : CharTables) : Prop where
  lower_ne_nil : ∀ before after c, 128 ≤ c.toNat → u.lower before after c ≠ []
  lower_ascii : ∀ before after c, 128 ≤ c.toNat →
    ∀ d ∈ u.lower before after c, d.toNat < 128 → d = 'k' ∨ d = 'i'

/-- The white space of ASCII, for `str.strip`. -/
def isStrSpace (c : Char) : Bool :=
  c == ' ' || (decide (9 ≤ c.toNat) && decide (c.toNat ≤ 13)) ||
    (decide (28 ≤ c.toNat) && decide (c.toNat ≤ 31))

namespace CharTables

variable (u : CharTables)

def isSpace (c : Char) : Bool := if c.toNat < 128 then isStrSpace c
  else u.space c

/-- `s.strip()`. -/
def strip (l : List Char) : List Char :=
  (l.dropWhile u.isSpace).rdropWhile u.isSpace

def lowerChar (before after : List Char) (c : Char) : List Char :=
  if c.toNat < 128 then [c.toLower] else u.lower before after c

def lowerBehind (before : List Char) : List Char → List Char
  | [] => []
  | c :: cs => u.lowerChar before cs c ++ lowerBehind (c :: before) cs

/-- `s.lower()`. -/
def lowerCase (l : List Char) : List Char := u.lowerBehind [] l

variable {u} {l before : List Char}

/-- Without white space there is nothing to strip. -/
theorem strip_of_noSpace (h : ∀ c ∈ l, u.isSpace c = false) :
    u.strip l = l := by
  have hdrop : l.dropWhile u.isSpace = l := by
    cases l with
    | nil => rfl
    | cons c cs =>
      rw [List.dropWhile_cons, h c List.mem_cons_self,
        if_neg Bool.false_ne_true]
  rw [strip, hdrop, List.rdropWhile_eq_self_iff]
  intro hne
  rw [h _ (List.getLast_mem hne)]
  exact Bool.false_ne_true

/-- ASCII folds character by character, whatever stands before. -/
theorem lowerBehind_ascii (h : ∀ c ∈ l, c.toNat < 128) :
    u.lowerBehind before l = l.map Char.toLower := by
  induction l generalizing before with
  | nil => rfl
  | cons c cs ih =>
    rw [lowerBehind, ih fun d hd => h d (List.mem_cons_of_mem _ hd), lowerChar,
      if_pos (h c List.mem_cons_self)]
    rfl

theorem lowerCase_ascii (h : ∀ c ∈ l, c.toNat < 128) :
    u.lowerCase l = l.map Char.toLower := lowerBehind_ascii h

/-- A text whose lower case is plain was plain itself. -/
theorem ascii_of_lowerBehind (hu : u.Lawful)
    (h : ∀ c ∈ u.lowerBehind before l, c.toNat < 128 ∧ c ≠ 'k' ∧ c ≠ 'i') :
    ∀ c ∈ l, c.toNat < 128 := by
  induction l generalizing before with
  | nil => nofun
  | cons c cs ih =>
    rw [lowerBehind, List.forall_mem_append] at h
    obtain ⟨hhead, htail⟩ := h
    refine List.forall_mem_cons.mpr ⟨?_, ih htail⟩
    by_contra hc
    rw [lowerChar, if_neg hc] at hhead
    obtain ⟨d, hd⟩ := List.exists_mem_of_ne_nil _
      (hu.lower_ne_nil before cs c (Nat.not_lt.mp hc))
    obtain ⟨hascii, hk, hi⟩ := hhead d hd
    exact (hu.lower_ascii before cs c (Nat.not_lt.mp hc) d hd hascii).elim hk hi

/-- What folds to ASCII without `k` and `i` was ASCII. -/
theorem ascii_of_lowerCase (hu : u.Lawful)
    (h : ∀ c ∈ u.lowerCase l, c.toNat < 128 ∧ c ≠ 'k' ∧ c ≠ 'i') :
    ∀ c ∈ l, c.toNat < 128 := ascii_of_lowerBehind hu h

end CharTables

/-! ## Removal -/

/-- The same, of which some characters still belong to an occurrence. -/
def removeFrom (needle : List Char) : Nat → List Char → List Char
  | _, [] => []
  | n + 1, _ :: cs => removeFrom needle n cs
  | 0, c :: cs =>
    if needle <+: c :: cs then removeFrom needle (needle.length - 1) cs
      else c :: removeFrom needle 0 cs

/-- `s.replace(needle, "")`: from the left, and on behind an occurrence. -/
def removeAll (needle l : List Char) : List Char := removeFrom needle 0 l

section Removal

variable {needle l rest : List Char} {c : Char}

/-- Removing from an offset removes behind it. -/
theorem removeFrom_drop (needle : List Char) (n : Nat) (l : List Char) :
    removeFrom needle n l = removeAll needle (l.drop n) := by
  induction n generalizing l with
  | zero => rfl
  | succ n ih =>
    cases l with
    | nil => rfl
    | cons c cs => exact ih cs

/-- A needle in front is dropped. -/
theorem removeAll_needle (hne : needle ≠ []) :
    removeAll needle (needle ++ rest) = removeAll needle rest := by
  cases needle with
  | nil => exact absurd rfl hne
  | cons d ds =>
    have hpre : d :: ds <+: d :: (ds ++ rest) :=
      List.prefix_append (d :: ds) rest
    rw [removeAll, List.cons_append, removeFrom, if_pos hpre, removeFrom_drop]
    exact congrArg _ List.drop_left

theorem removeAll_cons (h : ¬ needle <+: c :: l) :
    removeAll needle (c :: l) = c :: removeAll needle l := by
  rw [removeAll, removeFrom, if_neg h]
  rfl

/-- Without its first character there is no occurrence. -/
theorem removeAll_absent (h : c ∉ l) : removeAll (c :: needle) l = l := by
  induction l with
  | nil => rfl
  | cons d ds ih =>
    obtain ⟨hd, hds⟩ := not_or.mp (List.mem_cons.not.mp h)
    rw [removeAll_cons fun hpre => hd (List.cons_prefix_cons.mp hpre).1, ih hds]

/-- Nothing is removed, or the first occurrence and what follows. -/
theorem removeAll_cases (needle l : List Char) (hne : needle ≠ []) : removeAll needle l = l ∨
    ∃ front rest, l = front ++ (needle ++ rest) ∧ removeAll needle l = front ++ removeAll needle rest := by
  induction l with
  | nil => exact .inl rfl
  | cons c cs ih =>
    by_cases hpre : needle <+: c :: cs
    · obtain ⟨rest, hrest⟩ := hpre
      exact .inr ⟨[], rest, hrest.symm, by rw [← hrest, removeAll_needle hne]; rfl⟩
    · rw [removeAll_cons hpre]
      rcases ih with heq | ⟨front, rest, rfl, heq⟩
      · exact .inl (congrArg _ heq)
      · exact .inr ⟨c :: front, rest, rfl, congrArg _ heq⟩

theorem removeAll_sublist (needle l : List Char) (hne : needle ≠ []) :
    (removeAll needle l).Sublist l := by
  generalize hn : l.length = n
  induction n using Nat.strongRecOn generalizing l with
  | ind n ih =>
    rcases removeAll_cases needle l hne with heq | ⟨front, rest, rfl, heq⟩
    · rw [heq]
    · have hpos := List.length_pos_of_ne_nil hne
      have hlen : rest.length < n := by
        simp only [List.length_append] at hn
        omega
      rw [heq]
      exact (ih _ hlen rest rfl).append_left front |>.trans
        ((List.sublist_append_right needle rest).append_left front)

/-- What is not of the needle stays. -/
theorem mem_removeAll (hne : needle ≠ []) (hc : c ∉ needle) (h : c ∈ l) :
    c ∈ removeAll needle l := by
  generalize hn : l.length = n
  induction n using Nat.strongRecOn generalizing l with
  | ind n ih =>
    rcases removeAll_cases needle l hne with heq | ⟨front, rest, rfl, heq⟩
    · rwa [heq]
    · have hpos := List.length_pos_of_ne_nil hne
      have hlen : rest.length < n := by
        simp only [List.length_append] at hn
        omega
      rw [heq, List.mem_append]
      rcases List.mem_append.mp h with h | h
      · exact .inl h
      · exact .inr (ih _ hlen ((List.mem_append.mp h).resolve_left hc) rfl)

/-- One occurrence was removed, if as many characters went as it has. -/
theorem removeAll_once (hne : needle ≠ [])
    (h : (removeAll needle l).length + needle.length = l.length) :
    ∃ front rest, l = front ++ (needle ++ rest) ∧
    removeAll needle l = front ++ rest := by
  have hpos := List.length_pos_of_ne_nil hne
  rcases removeAll_cases needle l hne with heq | ⟨front, rest, rfl, heq⟩
  · rw [heq] at h
    omega
  · refine ⟨front, rest, rfl, ?_⟩
    rw [heq, List.length_append, List.length_append, List.length_append] at h
    rw [heq, (removeAll_sublist needle rest hne).eq_of_length (by omega)]

end Removal

end Pyrxd.Lib
