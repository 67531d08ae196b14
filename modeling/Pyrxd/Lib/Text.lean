import Mathlib.Data.List.DropRight

/-!
# Cutting strings

`str.split`, `str.join` and the `strip` family of Python, for a single
character.
-/

namespace Pyrxd.Lib.Text

/-- `s.split(sep)`. -/
def split (sep : Char) (s : String) : List String :=
  (s.toList.splitOn sep).map String.ofList

/-- `sep.join(words)`. -/
def join (sep : Char) (words : List String) : String :=
  (String.ofList [sep]).intercalate words

/-- `s.lstrip(c)`, `s.rstrip(c)` and `s.strip(c)`. -/
def lstrip (c : Char) (s : String) : String :=
  String.ofList (s.toList.dropWhile (· == c))
def rstrip (c : Char) (s : String) : String :=
  String.ofList (s.toList.rdropWhile (· == c))
def strip (c : Char) (s : String) : String := rstrip c (lstrip c s)

/-- The characters of a joined text. -/
theorem toList_join (sep : Char) (words : List String) :
    (join sep words).toList = [sep].intercalate (words.map String.toList) := by
  rw [join, String.toList_intercalate, String.toList_ofList]

/-- Words without the separator are found again between the separators. -/
theorem split_join {sep : Char} {words : List String}
    (hsep : ∀ w ∈ words, sep ∉ w.toList) (hne : words ≠ []) :
    split sep (join sep words) = words := by
  have hlists : ∀ l ∈ words.map String.toList, sep ∉ l := by
    intro l hl
    obtain ⟨w, hw, rfl⟩ := List.mem_map.mp hl
    exact hsep w hw
  rw [split, toList_join, List.splitOn_intercalate sep hlists (fun h =>
    hne (List.map_eq_nil_iff.mp h)), List.map_map]
  exact List.map_id'' (fun w => String.ofList_toList) words

/-- Splitting and joining gives the text back. -/
theorem join_split (sep : Char) (s : String) : join sep (split sep s) = s := by
  have htoList : (split sep s).map String.toList = s.toList.splitOn sep := by
    rw [split, List.map_map]
    exact List.map_id'' (fun l => String.toList_ofList) _
  rw [← String.toList_inj, toList_join, htoList, List.intercalate_splitOn]

/-! ## Stripping -/

section Strip

variable {α : Type} {p q : α → Bool}

/-- Trimming the end of a joined list. -/
theorem rdropWhile_append (l m : List α) :
    (l ++ m).rdropWhile p = if m.rdropWhile p = [] then l.rdropWhile p
      else l ++ m.rdropWhile p := by
  simp only [List.rdropWhile, List.reverse_append, List.dropWhile_append,
    List.reverse_eq_nil_iff]
  by_cases h : m.reverse.dropWhile p = []
  · rw [if_pos h, if_pos (by rw [h]; rfl)]
  · rw [if_neg h, if_neg (by rwa [List.isEmpty_iff]), List.reverse_append,
      List.reverse_reverse]

theorem rdropWhile_append_of_ne {l m : List α} (h : m.rdropWhile p ≠ []) :
    (l ++ m).rdropWhile p = l ++ m.rdropWhile p := by
  rw [rdropWhile_append, if_neg h]

theorem dropWhile_append_of_ne {l m : List α} (h : l.dropWhile p ≠ []) :
    (l ++ m).dropWhile p = l.dropWhile p ++ m := by
  rw [List.dropWhile_append, if_neg (by rwa [List.isEmpty_iff])]

theorem dropWhile_append_of_nil {l m : List α} (h : l.dropWhile p = []) :
    (l ++ m).dropWhile p = m.dropWhile p := by
  rw [List.dropWhile_append, if_pos (by rw [h]; rfl)]

/-- Nothing behind an element that stays is lost on its left. -/
theorem rdropWhile_cons_of_neg {a : α} (ha : p a = false) (l : List α) :
    (a :: l).rdropWhile p = a :: l.rdropWhile p := by
  have hone : [a].rdropWhile p = [a] := by
    rw [List.rdropWhile_singleton, if_neg (by rw [ha]; decide)]
  rw [← List.singleton_append, rdropWhile_append, hone]
  split
  · rename_i h
    rw [h]
  · rfl

/-- A last item that is kept ends the trimming. -/
theorem rdropWhile_of_last {l : List α} {a : α} (ha : p a = false) :
    (l ++ [a]).rdropWhile p = l ++ [a] :=
  List.rdropWhile_concat_neg p l a (by rw [ha]; decide)

/-- The two ends do not meet. -/
theorem dropWhile_rdropWhile (l : List α) :
    (l.rdropWhile q).dropWhile p = (l.dropWhile p).rdropWhile q := by
  induction l with
  | nil => rfl
  | cons a l ih =>
    have hsplit : (a :: l).rdropWhile q = if l.rdropWhile q =
        [] then [a].rdropWhile q else a :: l.rdropWhile q :=
      rdropWhile_append [a] l
    by_cases ha : p a
    · rw [List.dropWhile_cons_of_pos ha, ← ih, hsplit]
      by_cases hnil : l.rdropWhile q = []
      · rw [if_pos hnil, hnil, List.rdropWhile_singleton]
        split
        · rfl
        · rw [List.dropWhile_cons_of_pos ha]
      · rw [if_neg hnil, List.dropWhile_cons_of_pos ha]
    · rw [List.dropWhile_cons_of_neg ha, hsplit]
      by_cases hnil : l.rdropWhile q = []
      · rw [if_pos hnil, List.rdropWhile_singleton]
        split
        · rfl
        · rw [List.dropWhile_cons_of_neg ha]
      · rw [if_neg hnil, List.dropWhile_cons_of_neg ha]

end Strip

/-- Nothing is stripped where both ends stay. -/
theorem strip_of_ends {s : String} {c a z : Char} {l : List Char}
    (hs : s.toList = a :: l) (ha : a ≠ c)
    (hz : (a :: l).getLast? = some z) (hzc : z ≠ c) : strip c s = s := by
  obtain ⟨ys, hys⟩ := List.getLast?_eq_some_iff.mp hz
  have hleft : lstrip c s = s := by
    rw [lstrip, hs, List.dropWhile_cons_of_neg (by rwa [beq_iff_eq]), ← hs,
      String.ofList_toList]
  rw [strip, hleft, rstrip, hs, hys, rdropWhile_of_last
    (by rwa [beq_eq_false_iff_ne]), ← hys, ← hs, String.ofList_toList]

/-- The pieces of what is joined by hand. -/
theorem split_append {sep : Char} {s a b : String}
    (h : s.toList = a.toList ++ sep :: b.toList) :
    split sep s = split sep a ++ split sep b := by
  rw [split, h, List.splitOn_append_cons_self, List.map_append]
  rfl

/-- Without the separator there is one piece. -/
theorem split_of_not_mem {sep : Char} {s : String} (h : sep ∉ s.toList) :
    split sep s = [s] := by
  rw [split, List.splitOn_eq_singleton h, List.map_singleton,
    String.ofList_toList]

end Pyrxd.Lib.Text
