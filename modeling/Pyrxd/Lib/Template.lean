import Pyrxd.Lib.Bytes

/-!
# Hex templates

Code kept as hex text with named holes, `c451<amount>9d`, and filled in by
textual replacement, one name after the other. `replaceAll` is Python's
`str.replace`; a template is read as a list of pieces, literal bytes and holes,
and `replaceAll_text` says that replacing the text of a hole is filling that
hole, whatever bytes go in: hex digits spell no `<`.
-/

namespace Pyrxd.Lib

/-! ## `str.replace` -/

/-- The occurrences of `pat` from the left, none overlapping; `skip` counts the
characters of a found occurrence still to be passed over. -/
def replaceFrom (pat new : List Char) : Nat → List Char → List Char
  | _, [] => []
  | 0, c :: cs =>
    if pat <+: c :: cs then new ++ replaceFrom pat new (pat.length - 1) cs
    else c :: replaceFrom pat new 0 cs
  | skip + 1, _ :: cs => replaceFrom pat new skip cs

/-- `text.replace(pat, new)`, for a non-empty `pat`. -/
def replaceAll (pat new text : List Char) : List Char :=
  replaceFrom pat new 0 text

/-- Replacing skips what was just put in. -/
theorem replaceFrom_skip (pat new : List Char) : ∀ (a b : List Char),
    replaceFrom pat new a.length (a ++ b) = replaceFrom pat new 0 b := by
  intro a
  induction a with
  | nil => intro b; rfl
  | cons c a ih => intro b; exact ih b

/-- An occurrence is replaced, and the search goes on behind it. -/
theorem replaceAll_found {pat new : List Char} (hpat : pat ≠ [])
    (b : List Char) :
    replaceAll pat new (pat ++ b) = new ++ replaceAll pat new b := by
  obtain ⟨c, cs, rfl⟩ := List.exists_cons_of_ne_nil hpat
  have hpre : (c :: cs) <+: c :: (cs ++ b) := List.prefix_append (c :: cs) b
  rw [replaceAll, List.cons_append, replaceFrom, if_pos hpre, List.length_cons,
    Nat.add_sub_cancel, replaceFrom_skip]
  rfl

/-- Text without the first character of `pat` is copied. -/
theorem replaceAll_copy {p : Char} {ps new : List Char} :
    ∀ (a b : List Char), p ∉ a →
    replaceAll (p :: ps) new (a ++ b) = a ++ replaceAll (p :: ps) new b := by
  intro a
  induction a with
  | nil => intro b _; rfl
  | cons c a ih =>
    intro b hp
    have hno : ¬ p :: ps <+: c :: (a ++ b) := by
      intro h
      rw [List.cons_prefix_cons] at h
      exact hp (by rw [h.1]; exact List.mem_cons_self)
    rw [replaceAll, List.cons_append, replaceFrom, if_neg hno, List.cons_append]
    exact congrArg (c :: ·) (ih b fun h => hp (List.mem_cons_of_mem _ h))

/-! ## Pieces -/

/-- Literal bytes, or a named hole. -/
inductive Piece where
  | lit (b : Bytes)
  | hole (name : List Char)
deriving DecidableEq

namespace Piece

/-- The mark of a hole: `<name>`. -/
def mark (name : List Char) : List Char := '<' :: (name ++ ['>'])

def text : Piece → List Char
  | lit b => hexChars b
  | hole name => mark name

/-- Put `value` into the holes called `name`. -/
def fill (name : List Char) (value : Bytes) : Piece → Piece
  | lit b => lit b
  | hole other => if other = name then lit value else hole other

/-- A hole whose name cannot be mistaken for a mark. -/
def Named : Piece → Prop
  | lit _ => True
  | hole name => '<' ∉ name ∧ '>' ∉ name

instance : DecidablePred Named := fun p =>
  match p with
  | lit _ => .isTrue trivial
  | hole name => inferInstanceAs (Decidable ('<' ∉ name ∧ '>' ∉ name))

/-- What a filled piece stands for. -/
def bytes : Piece → Option Bytes
  | lit b => some b
  | hole _ => none

end Piece

/-- The text of a template. -/
def templateText (ps : List Piece) : List Char := ps.flatMap Piece.text

theorem hexDigit_ne_lt : ∀ n < 16, hexDigit n ≠ '<' := by decide

theorem notMem_hexChars : ∀ b : Bytes, '<' ∉ hexChars b := by
  intro b
  induction b with
  | nil => exact List.not_mem_nil
  | cons x b ih =>
    have hx := x.toNat_lt
    intro h
    rw [hexChars] at h
    rcases List.mem_cons.mp h with h | h
    · exact hexDigit_ne_lt (x.toNat / 16) (by omega) h.symm
    · rcases List.mem_cons.mp h with h | h
      · exact hexDigit_ne_lt (x.toNat % 16) (by omega) h.symm
      · exact ih h

/-- The first `>` ends a name. -/
theorem name_unique {name other t b : List Char} (hn : '>' ∉ name)
    (ho : '>' ∉ other)
    (h : name ++ '>' :: t = other ++ '>' :: b) : name = other := by
  induction name generalizing other with
  | nil =>
    cases other with
    | nil => rfl
    | cons c other =>
      rw [List.nil_append, List.cons_append, List.cons.injEq] at h
      rw [← h.1] at ho
      exact absurd List.mem_cons_self ho
  | cons c name ih =>
    cases other with
    | nil =>
      rw [List.nil_append, List.cons_append, List.cons.injEq] at h
      rw [h.1] at hn
      exact absurd List.mem_cons_self hn
    | cons d other =>
      rw [List.cons_append, List.cons_append, List.cons.injEq] at h
      rw [h.1, ih (fun hm => hn (List.mem_cons_of_mem _ hm))
        (fun hm => ho (List.mem_cons_of_mem _ hm)) h.2]

/-- Two marks that start alike are the same. -/
theorem marks_agree {name other : List Char} (hn : '>' ∉ name)
    (ho : '>' ∉ other) {b : List Char}
    (h : Piece.mark name <+: Piece.mark other ++ b) : name = other := by
  obtain ⟨t, ht⟩ := h
  simp only [Piece.mark, List.cons_append, List.append_assoc, List.nil_append,
    List.cons.injEq,
    true_and] at ht
  exact name_unique hn ho ht

/-- **Replacing the text of a hole fills the hole.** -/
theorem replaceAll_text {name : List Char} (hname : (Piece.hole name).Named)
    (value : Bytes) :
    ∀ ps : List Piece, (∀ p ∈ ps, p.Named) →
      replaceAll (Piece.mark name) (hexChars value) (templateText ps) =
        templateText (ps.map (Piece.fill name value)) := by
  intro ps
  induction ps with
  | nil => intro _; rfl
  | cons p ps ih =>
    intro hps
    have hrest := ih fun q hq => hps q (List.mem_cons_of_mem _ hq)
    show replaceAll _ _ (p.text ++ templateText ps) =
      (Piece.fill name value p).text ++
        templateText (ps.map (Piece.fill name value))
    cases p with
    | lit b =>
      rw [Piece.text, Piece.mark, replaceAll_copy _ _ (notMem_hexChars b),
        ← Piece.mark, hrest]
      rfl
    | hole other =>
      have hother : '<' ∉ other ∧ '>' ∉ other := hps _ List.mem_cons_self
      rw [Piece.text, Piece.fill]
      by_cases heq : other = name
      · have hmark : Piece.mark name ≠ [] := List.cons_ne_nil _ _
        rw [if_pos heq, heq, replaceAll_found hmark, hrest]
        rfl
      · rw [if_neg heq]
        -- another hole: its `<` is no occurrence, and there is no other `<` in
        -- it
        have hno : ¬ Piece.mark name <+: Piece.mark other ++
            templateText ps := fun h =>
          heq (marks_agree hname.2 hother.2 h).symm
        have htail : '<' ∉ other ++ ['>'] := by
          rw [List.mem_append, not_or]
          exact ⟨hother.1, by decide⟩
        have hstep : replaceAll (Piece.mark name) (hexChars value)
            (Piece.mark other ++ templateText ps) =
            '<' :: replaceAll (Piece.mark name) (hexChars value) (other ++
              ['>'] ++ templateText ps) := by
          have hcons : Piece.mark other ++ templateText ps =
              '<' :: (other ++ ['>'] ++ templateText ps) := rfl
          rw [hcons] at hno ⊢
          rw [replaceAll, replaceFrom, if_neg hno]
          rfl
        rw [hstep, Piece.mark, replaceAll_copy _ _ htail, ← Piece.mark, hrest]
        rfl

/-! ## Filling a template -/

/-- Fill the holes one name after the other. -/
def fillAll (subs : List (List Char × Bytes)) (ps : List Piece) : List Piece :=
  subs.foldl (fun ps sub => ps.map (Piece.fill sub.1 sub.2)) ps

/-- The same on the text. -/
def replaceEach (subs : List (List Char × Bytes))
    (text : List Char) : List Char :=
  subs.foldl (fun text sub => replaceAll (Piece.mark sub.1)
    (hexChars sub.2) text) text

/-- Filling keeps the pieces named. -/
theorem Piece.Named.fill {p : Piece} (hp : p.Named) (name : List Char)
    (value : Bytes) :
    (Piece.fill name value p).Named := by
  cases p with
  | lit b => trivial
  | hole other =>
    rw [Piece.fill]
    split
    · trivial
    · exact hp

/-- Replacing hole after hole fills them all. -/
theorem replaceEach_text : ∀ (subs : List (List Char × Bytes))
    (ps : List Piece),
    (∀ sub ∈ subs, (Piece.hole sub.1).Named) → (∀ p ∈ ps, p.Named) →
    replaceEach subs (templateText ps) = templateText (fillAll subs ps) := by
  intro subs
  induction subs with
  | nil => intro ps _ _; rfl
  | cons sub subs ih =>
    intro ps hsubs hps
    have hfill : ∀ p ∈ ps.map (Piece.fill sub.1 sub.2), p.Named := by
      intro p hp
      obtain ⟨q, hq, rfl⟩ := List.mem_map.mp hp
      exact (hps q hq).fill _ _
    have hrest := ih (ps.map (Piece.fill sub.1 sub.2))
      (fun s hs => hsubs s (List.mem_cons_of_mem _ hs))
      hfill
    show replaceEach subs (replaceAll _ _ (templateText ps)) = _
    rw [replaceAll_text (hsubs sub List.mem_cons_self) sub.2 ps hps, hrest]
    rfl

theorem hexChars_append (a b : Bytes) : hexChars (a ++ b) =
    hexChars a ++ hexChars b := by
  induction a with
  | nil => rfl
  | cons x a ih =>
    rw [List.cons_append, hexChars, ih]
    rfl

/-- A template without holes is the hex text of its bytes. -/
theorem templateText_lits (bs : List Bytes) :
    templateText (bs.map Piece.lit) = hexChars bs.flatten := by
  induction bs with
  | nil => rfl
  | cons b bs ih =>
    rw [List.flatten_cons, hexChars_append, ← ih]
    rfl

end Pyrxd.Lib
