import Pyrxd.Hd.Path

/-!
# Ranges along a path

`bip32_derive_xkeys_from_xkey` takes a base path, but what it derives at is the
base only when that starts with `m/`; any other base it replaces by the key it
was given. `bip32DeriveXkeysFromXkey_iff` says for which arguments the list is
nevertheless that of `path/change/i`. What carries the converse is the depth
byte: a key counts the steps that were made (`walkSteps_depth`).
-/

namespace Pyrxd.Hd

open Pyrxd.Lib

variable {Key Secret : Type}

/-! ## Trimmed paths -/

/-- What `ckd` strips from the front of a path, and from its back. -/
def ltrim (l : List Char) : List Char :=
  (l.dropWhile (· == ' ')).dropWhile (· == '/')
def rtrim (l : List Char) : List Char :=
  (l.rdropWhile (· == ' ')).rdropWhile (· == '/')

/-- The steps between the slashes. -/
def pieces (l : List Char) : List String := (l.splitOn '/').map String.ofList

/-- The steps are the pieces between slashes, trimmed. -/
theorem pathSteps_eq (path : String) :
    pathSteps path = pieces (rtrim (ltrim path.toList)) := by
  rw [pathSteps, Text.split, Text.strip, Text.strip, Text.rstrip, Text.lstrip,
    Text.rstrip, Text.lstrip]
  simp only [String.toList_ofList]
  rw [Text.dropWhile_rdropWhile, pieces, rtrim, ltrim]

/-- The pieces of two texts around a slash. -/
theorem pieces_append (a b : List Char) : pieces (a ++ '/' :: b) =
    pieces a ++ pieces b := by
  rw [pieces, List.splitOn_append_cons_self, List.map_append]
  rfl

/-- A text without a slash is one piece. -/
theorem pieces_of_not_mem {l : List Char} (h : '/' ∉ l) :
    pieces l = [String.ofList l] := by
  rw [pieces, List.splitOn_eq_singleton h]
  rfl

theorem pieces_ne_nil (l : List Char) : pieces l ≠ [] := by
  rw [pieces, Ne, List.map_eq_nil_iff]
  exact List.splitOn_ne_nil '/' l

/-- A list without a slash, or cut at its last one. -/
theorem last_slash (l : List Char) : '/' ∉ l ∨ ∃ a b, '/' ∉ b ∧
    l = a ++ '/' :: b := by
  induction l with
  | nil => exact .inl List.not_mem_nil
  | cons c l ih =>
    rcases ih with h | ⟨a, b, hb, rfl⟩
    · by_cases hc : '/' = c
      · exact .inr ⟨[], l, h, by rw [hc]; rfl⟩
      · exact .inl fun hmem => (List.mem_cons.mp hmem).elim hc h
    · exact .inr ⟨c :: a, b, hb, rfl⟩

/-- Trimming stops at another character. -/
theorem rtrim_cons_of_neg {c : Char} (hspace : c ≠ ' ') (hslash : c ≠ '/')
    (l : List Char) :
    rtrim (c :: l) = c :: rtrim l := by
  rw [rtrim, Text.rdropWhile_cons_of_neg (by rwa [beq_eq_false_iff_ne]),
    Text.rdropWhile_cons_of_neg (by rwa [beq_eq_false_iff_ne]), rtrim]

theorem rtrim_append_of_ne {a b : List Char} (h : rtrim b ≠ []) :
    rtrim (a ++ b) = a ++ rtrim b := by
  have hspace : b.rdropWhile (· == ' ') ≠ [] := by
    intro hnil
    exact h (by rw [rtrim, hnil]; rfl)
  rw [rtrim, Text.rdropWhile_append_of_ne hspace,
    Text.rdropWhile_append_of_ne h, rtrim]

/-- What follows a slash is trimmed, and where nothing is left of it the slash
goes too. -/
theorem rtrim_slash (a b : List Char) :
    rtrim (a ++ '/' :: b) = if rtrim b = [] then a.rdropWhile (· == '/')
      else a ++ '/' :: rtrim b := by
  have hslash : ('/' :: b).rdropWhile (· == ' ') =
      '/' :: b.rdropWhile (· == ' ') :=
    Text.rdropWhile_cons_of_neg (by decide) b
  have hne : ('/' :: b).rdropWhile (· == ' ') ≠ [] := by
    rw [hslash]
    exact List.cons_ne_nil _ _
  have hcut : rtrim (a ++ '/' :: b) =
      (a ++ '/' :: b.rdropWhile (· == ' ')).rdropWhile (· == '/') := by
    rw [rtrim, Text.rdropWhile_append_of_ne hne, hslash]
  rw [hcut, List.append_cons, Text.rdropWhile_append]
  show (if rtrim b = [] then (a ++ ['/']).rdropWhile (· == '/')
    else a ++ ['/'] ++ rtrim b) = _
  by_cases h : rtrim b = []
  · rw [if_pos h, if_pos h, List.rdropWhile_concat_pos _ _ _ (by decide)]
  · rw [if_neg h, if_neg h, ← List.append_cons]

/-- Trimming the front of a path. -/
theorem ltrim_slash (a b : List Char) :
    ltrim (a ++ '/' :: b) = if ltrim a = [] then b.dropWhile (· == '/')
      else ltrim a ++ '/' :: b := by
  have hspace : (a ++ '/' :: b).dropWhile (· == ' ') =
      a.dropWhile (· == ' ') ++ '/' :: b := by
    by_cases h : a.dropWhile (· == ' ') = []
    · rw [Text.dropWhile_append_of_nil h, h,
        List.dropWhile_cons_of_neg (by decide), List.nil_append]
    · rw [Text.dropWhile_append_of_ne h]
  rw [ltrim, hspace]
  by_cases h : ltrim a = []
  · rw [if_pos h, Text.dropWhile_append_of_nil h,
      List.dropWhile_cons_of_pos (by decide)]
  · rw [if_neg h, Text.dropWhile_append_of_ne h, ltrim]

/-! ## The two paths -/

section Paths

variable {u : Unicode} {l c d : List Char} {s : String} {i : Int}

/-- A step that is accepted is still the same without the spaces at its end. -/
theorem stepToIndex_rstrip (h : stepToIndex u (.text s) = .ok i) :
    s.toList.rdropWhile (· == ' ') ≠ [] ∧
    stepToIndex u (.text (String.ofList (s.toList.rdropWhile (· == ' ')))) =
      .ok i := by
  obtain ⟨⟨mark, number⟩, hread, hsum, hrange⟩ := stepToIndex_ok.mp h
  obtain ⟨hne, hmark, hint⟩ := readStep_ok.mp hread
  by_cases hsame : s.toList.rdropWhile (· == ' ') = s.toList
  · rw [hsame, String.ofList_toList]
    exact ⟨fun hnil => hne (String.toList_inj.mp (by rw [hnil]; rfl)), h⟩
  · -- spaces at the end, so the mark is not there and the number is the same
    have hspaces : ∃ k, s.toList =
        s.toList.rdropWhile (· == ' ') ++ List.replicate (k + 1) ' ' := by
      have hsplit :=
        List.rdropWhile_append_rtakeWhile (p := (· == ' ')) (l := s.toList)
      have htake : s.toList.rtakeWhile (· == ' ') =
          List.replicate (s.toList.rtakeWhile (· == ' ')).length ' ' :=
        List.eq_replicate_iff.mpr ⟨rfl, fun c hc =>
          beq_iff_eq.mp (List.mem_rtakeWhile_imp (p := (· == ' ')) hc)⟩
      cases hk : (s.toList.rtakeWhile (· == ' ')).length with
      | zero =>
        rw [List.length_eq_zero_iff.mp hk, List.append_nil] at hsplit
        exact absurd hsplit hsame
      | succ k => exact ⟨k, by rw [← hk, ← htake, hsplit]⟩
    obtain ⟨k, hk⟩ := hspaces
    generalize hl : s.toList.rdropWhile (· == ' ') = l at hk
    have hlast : s.toList.getLast? = some ' ' := by
      rw [hk, List.replicate_succ', ← List.append_assoc, List.getLast?_concat]
    have hplain : mark = false := by
      rw [hmark, hlast]
      rfl
    rw [hplain] at hint hsum
    have hint : u.int s = .ok number := hint
    have hsum : 0 + number = i := hsum
    have hnumber : u.int (String.ofList l) = .ok number := by
      obtain ⟨hcount, hval⟩ := Unicode.int_ok.mp hint
      rw [hk, List.map_append, List.map_replicate,
        Unicode.toAscii_of_lt (by decide)] at hcount hval
      refine Unicode.int_ok.mpr ⟨?_, ?_⟩
      · rw [List.countP_append] at hcount
        rw [String.toList_ofList]
        omega
      · rw [String.toList_ofList, ← hval]
        exact (PyVal.intOfStr_append_space (by rw [String.toList_ofList,
          String.toList_ofList])).symm
    have hnil : l ≠ [] := by
      rintro rfl
      obtain ⟨c, hc, -⟩ := Unicode.int_not_blank hnumber
      cases hc
    refine ⟨hnil, stepToIndex_ok.mpr ⟨(false, number),
      readStep_ok.mpr ⟨?_, ?_, hnumber⟩, hsum, hrange⟩⟩
    · intro hempty
      have hchars := congrArg String.toList hempty
      rw [String.toList_ofList] at hchars
      exact hnil hchars
    · refine (decide_eq_false fun hmark => ?_).symm
      have hliteral :=
        Unicode.int_literal hnumber (List.mem_of_getLast? hmark) (by decide)
      exact absurd hliteral (by unfold PyVal.IsLiteral; decide)

/-- Every step of the list is accepted. -/
def Accepted (u : Unicode) (steps : List String) : Prop :=
  ∀ s ∈ steps, ∃ i, stepToIndex u (.text s) = .ok i

/-- The steps of an accepted change are the same when the path ends behind
it. -/
theorem pieces_rtrim (h : Accepted u (pieces c)) :
    rtrim c ≠ [] ∧ ∃ is : List Int,
    (pieces c).mapM (fun s => stepToIndex u (.text s)) = .ok is ∧
      (pieces (rtrim c)).mapM (fun s => stepToIndex u (.text s)) = .ok is := by
  -- a piece holds no slash, so what is left of the last one is not trimmed
  -- further
  have hpiece : ∀ {b : List Char}, '/' ∉ b →
      (∃ i, stepToIndex u (.text (String.ofList b)) = .ok i) →
      ∃ i, stepToIndex u (.text (String.ofList b)) = .ok i ∧ rtrim b ≠ [] ∧
      '/' ∉ rtrim b ∧
        stepToIndex u (.text (String.ofList (rtrim b))) = .ok i := by
    rintro b hb ⟨i, hi⟩
    obtain ⟨hne, hsame⟩ := stepToIndex_rstrip hi
    rw [String.toList_ofList] at hne hsame
    have hslash : '/' ∉ b.rdropWhile (· == ' ') :=
      fun h => hb ((List.rdropWhile_prefix _ _).mem h)
    have htrim : rtrim b = b.rdropWhile (· == ' ') := by
      rw [rtrim, List.rdropWhile_eq_self_iff]
      intro hl hlast
      exact hslash (beq_iff_eq.mp hlast ▸ List.getLast_mem hl)
    rw [htrim]
    exact ⟨i, hi, hne, hslash, hsame⟩
  have hone : ∀ {s : String} {i : Int}, stepToIndex u (.text s) = .ok i →
      [s].mapM (fun s => stepToIndex u (.text s)) = .ok [i] :=
        fun hi => mapM_cons_ok.mpr ⟨_, [], hi, rfl, rfl⟩
  rcases last_slash c with hc | ⟨a, b, hb, rfl⟩
  · rw [Accepted, pieces_of_not_mem hc, List.forall_mem_singleton] at h
    obtain ⟨i, hi, hne, hslash, hsame⟩ := hpiece hc h
    rw [pieces_of_not_mem hc, pieces_of_not_mem hslash]
    exact ⟨hne, [i], hone hi, hone hsame⟩
  · rw [Accepted, pieces_append, List.forall_mem_append, pieces_of_not_mem hb,
      List.forall_mem_singleton] at h
    obtain ⟨i, hi, hne, hslash, hsame⟩ := hpiece hb h.2
    obtain ⟨is, his⟩ := mapM_returns h.1
    rw [rtrim_slash, if_neg hne, pieces_append, pieces_append,
      pieces_of_not_mem hb, pieces_of_not_mem hslash, List.mapM_append,
      List.mapM_append, his]
    refine ⟨List.append_ne_nil_of_right_ne_nil _ (List.cons_ne_nil _ _),
      is ++ [i], ?_, ?_⟩
    · rw [ok_bind, hone hi]
      rfl
    · rw [ok_bind, hone hsame]
      rfl

end Paths

/-! ## Walks -/

section Walks

variable {hd : HdCurve Key Secret} {u : Unicode} {x y : Xkey Key Secret}
  {steps : List String} {i : Int}

theorem walkSteps_append (s t : List String) :
    walkSteps hd u x (s ++ t) = walkSteps hd u x s >>=
    fun y => walkSteps hd u y t := List.foldlM_append

theorem walkSteps_cons (s : String) (t : List String) :
    walkSteps hd u x (s :: t) = (do
    let index ← stepToIndex u (.text s)
    let child ← x.ckd hd index
    walkSteps hd u child t) := by
  rw [walkSteps, List.foldlM_cons, bind_assoc]
  rfl

/-- Only the indices of accepted steps count. -/
theorem walkSteps_indices {is : List Int}
    (h : steps.mapM (fun s => stepToIndex u (.text s)) = .ok is) :
    walkSteps hd u x steps = is.foldlM
      (fun child index => child.ckd hd index) x := by
  induction steps generalizing x is with
  | nil =>
    cases h
    rfl
  | cons s steps ih =>
    obtain ⟨i, t, hi, ht, rfl⟩ := mapM_cons_ok.mp h
    rw [walkSteps_cons, hi, ok_bind, List.foldlM_cons]
    congr 1
    funext child
    exact ih ht

/-- The depth byte of a payload. -/
def Xkey.depth (x : Xkey Key Secret) : Nat := (xkeyDepth x.payload).toNat

/-- An extended key is 78 bytes. -/
theorem Xkey.sized (x : Xkey Key Secret) : x.payload.length = 78 := by
  cases x with
  | xpub x => exact x.sized
  | xprv x => exact x.sized

theorem childHead_depth {payload publicKey index head rest : Bytes}
    (hlen : payload.length = 78)
    (h : childHead hd payload publicKey index = .ok head) :
    (xkeyDepth (head ++ rest)).toNat = (xkeyDepth payload).toNat + 1 := by
  obtain ⟨depth, hdepth, h⟩ := bind_ok.mp h
  cases h
  obtain ⟨b, hb, h⟩ := bind_ok.mp hdepth
  cases h
  unfold Tx.toBytesLe at hb
  rw [if_neg (by omega)] at hb
  split at hb
  · rename_i hlt
    cases hb
    have hprefix : (xkeyPrefix payload).length = 4 := by
      rw [xkeyPrefix, List.length_take, hlen]
      rfl
    -- the depth is the byte behind the version
    have hget : xkeyDepth (xkeyPrefix payload ++
        (leBytes 1 ((xkeyDepth payload).toNat + 1)).reverse ++
        (hd.hash160 publicKey).take 4 ++ index ++ rest) =
          UInt8.ofNat ((xkeyDepth payload).toNat + 1) := by
      rw [xkeyDepth, List.append_assoc, List.append_assoc,
        List.append_assoc, List.getD_eq_getElem?_getD,
        List.getElem?_append_right (Nat.le_of_eq hprefix), hprefix]
      rfl
    show (xkeyDepth (xkeyPrefix payload ++
      (leBytes 1 ((xkeyDepth payload).toNat + 1)).reverse ++
        (hd.hash160 publicKey).take 4 ++ index ++ rest)).toNat = _
    rw [hget, UInt8.toNat_ofNat', Nat.mod_eq_of_lt]
    have h : ((xkeyDepth payload).toNat + 1 : Int) <
        256 := by exact_mod_cast hlt
    omega
  · cases hb

/-- A child is one deeper than its parent. -/
theorem Xkey.ckd_depth (h : x.ckd hd i = .ok y) : y.depth = x.depth + 1 := by
  cases x with
  | xpub x =>
    obtain ⟨child, hchild, hy⟩ := bind_ok.mp h
    cases hy
    obtain ⟨index, _, hchild⟩ := bind_ok.mp hchild
    obtain ⟨_, hchild⟩ := refuseIf_bind_ok.mp hchild
    obtain ⟨head, hhead, hchild⟩ := bind_ok.mp hchild
    obtain ⟨product, _, hchild⟩ := bind_ok.mp hchild
    obtain ⟨sum, _, hchild⟩ := bind_ok.mp hchild
    obtain ⟨key, _, hchild⟩ := bind_ok.mp hchild
    show (xkeyDepth child.payload).toNat = (xkeyDepth x.payload).toNat + 1
    rw [(Xpub.ofPayload_ok.mp hchild).1, List.append_assoc,
      childHead_depth x.sized hhead]
  | xprv x =>
    obtain ⟨child, hchild, hy⟩ := bind_ok.mp h
    cases hy
    obtain ⟨index, _, hchild⟩ := bind_ok.mp hchild
    obtain ⟨head, hhead, hchild⟩ := bind_ok.mp hchild
    obtain ⟨key, _, hchild⟩ := bind_ok.mp hchild
    show (xkeyDepth child.payload).toNat = (xkeyDepth x.payload).toNat + 1
    rw [(Xprv.ofPayload_ok.mp hchild).1, List.append_assoc,
      childHead_depth x.sized hhead]

/-- A walk that returns accepted every step and went down as many. -/
theorem walkSteps_ok (h : walkSteps hd u x steps = .ok y) :
    Accepted u steps ∧ y.depth = x.depth + steps.length := by
  induction steps generalizing x with
  | nil =>
    cases h
    exact ⟨List.forall_mem_nil _, rfl⟩
  | cons s steps ih =>
    rw [walkSteps_cons] at h
    obtain ⟨index, hindex, h⟩ := bind_ok.mp h
    obtain ⟨child, hchild, h⟩ := bind_ok.mp h
    obtain ⟨haccepted, hdepth⟩ := ih h
    refine ⟨List.forall_mem_cons.mpr ⟨⟨index, hindex⟩, haccepted⟩, ?_⟩
    rw [hdepth, Xkey.ckd_depth hchild, List.length_cons]
    omega

end Walks

/-! ## The steps of a range -/

/-- The path of a child, `path/change/i`. -/
def childPath (path : String) (change : PathStep) (i : Int) : String :=
  Text.rstrip '/' path ++ "/" ++ change.format ++ "/" ++ toString i

section Steps

variable {path : String} {change : PathStep} {i : Int} {b c : List Char}

/-- A written index neither starts nor ends what trimming removes. -/
theorem toString_ends (hi : 0 ≤ i) : '/' ∉ (toString i).toList ∧
    ∃ l z, (toString i).toList = l ++ [z] ∧ z ≠ ' ' ∧ z ≠ '/' := by
  have hdigit : ∀ c ∈ (toString i).toList, c.isDigit = true := by
    intro c hc
    rw [toList_toString_int, if_pos hi, List.nil_append] at hc
    exact Nat.isDigit_of_mem_toDigits (by decide) (by decide) hc
  have hne : ∀ c ∈ (toString i).toList, c ≠ ' ' ∧ c ≠ '/' := by
    intro c hc
    constructor
    · rintro rfl
      exact absurd (hdigit _ hc) (by decide)
    · rintro rfl
      exact absurd (hdigit _ hc) (by decide)
  refine ⟨fun h => (hne _ h).2 rfl, ?_⟩
  obtain ⟨l, z, hl⟩ :=
      (List.eq_nil_or_concat (toString i).toList).resolve_left fun hnil =>
    toString_ne_empty i (String.toList_inj.mp (by rw [hnil]; rfl))
  rw [List.concat_eq_append] at hl
  exact ⟨l, z, hl,
    hne z (by rw [hl]; exact List.mem_append_right _ List.mem_cons_self)⟩

/-- Nothing is trimmed behind the index. -/
theorem steps_child (hb : (Text.rstrip '/' path).toList = b)
    (hc : change.format.toList = c) (hi : 0 ≤ i) :
    pathSteps (childPath path change i) = if ltrim b = [] then pieces
      ((c ++ '/' :: (toString i).toList).dropWhile (· == '/'))
      else pieces (ltrim b) ++ pieces c ++ [toString i] := by
  obtain ⟨hslash, l, z, hz, hspace, hne⟩ := toString_ends hi
  have hchars : (childPath path change i).toList =
      b ++ '/' :: (c ++ '/' :: (toString i).toList) := by
    rw [childPath, String.toList_append, String.toList_append,
      String.toList_append, String.toList_append, hb, hc, List.append_assoc,
      List.append_assoc, List.append_assoc]
    rfl
  have hkeep : ∀ {m : List Char}, rtrim (m ++ (toString i).toList) =
      m ++ (toString i).toList := by
    intro m
    rw [hz, ← List.append_assoc, rtrim,
      Text.rdropWhile_of_last (by rwa [beq_eq_false_iff_ne]),
      Text.rdropWhile_of_last (by rwa [beq_eq_false_iff_ne])]
  have hlast : pieces (toString i).toList = [toString i] := by
    rw [pieces_of_not_mem hslash, String.ofList_toList]
  rw [pathSteps_eq, hchars, ltrim_slash]
  -- an empty base leaves the child's steps alone, without a leading slash
  by_cases hnil : ltrim b = []
  · rw [if_pos hnil, if_pos hnil]
    have hcut : ∃ m, (c ++ '/' :: (toString i).toList).dropWhile (· == '/') =
        m ++ (toString i).toList := by
      by_cases hcnil : c.dropWhile (· == '/') = []
      · have hdigit : ∀ {a : Char} {t : List Char}, (toString i).toList =
            a :: t → a ≠ '/' := by
          rintro a t h rfl
          exact hslash (by rw [h]; exact List.mem_cons_self)
        refine ⟨[], ?_⟩
        rw [Text.dropWhile_append_of_nil hcnil,
          List.dropWhile_cons_of_pos (by decide), List.nil_append]
        cases ht : (toString i).toList with
        | nil => rfl
        | cons a t =>
          rw [List.dropWhile_cons_of_neg (by rw [beq_iff_eq]; exact hdigit ht)]
      · exact ⟨c.dropWhile (· == '/') ++
          ['/'], by rw [Text.dropWhile_append_of_ne hcnil,
          List.append_assoc]; rfl⟩
    obtain ⟨m, hm⟩ := hcut
    rw [hm, hkeep]
  · have hassoc : ltrim b ++ '/' :: (c ++ '/' :: (toString i).toList) =
        (ltrim b ++ '/' :: c ++ ['/']) ++ (toString i).toList := by
      simp only [List.append_assoc, List.cons_append, List.nil_append]
    rw [if_neg hnil, if_neg hnil, hassoc, hkeep, ← hassoc, pieces_append,
      pieces_append, hlast, List.append_assoc]

/-- The path to the change level: the base where it is absolute, and else the
key itself. -/
theorem steps_change (hb : (Text.rstrip '/' path).toList = b)
    (hc : change.format.toList = c) :
    pathSteps (changePath path change) =
      (if ['m', '/'] <+: b then pieces b else ["."]) ++ if rtrim c = [] then []
        else pieces (rtrim c) := by
  have hcut : ∀ {q : List Char} {p : String}, p.toList = q ++ '/' :: c →
      ltrim (q ++ '/' :: c) = q ++ '/' :: c → q.rdropWhile (· == '/') = q →
      pathSteps p = pieces q ++ if rtrim c = [] then []
      else pieces (rtrim c) := by
    intro q p hp hleft hright
    rw [pathSteps_eq, hp, hleft, rtrim_slash, hright]
    split
    · rw [List.append_nil]
    · rw [pieces_append]
  rw [changePath, hb]
  by_cases habs : ['m', '/'] <+: b
  · rw [if_pos habs, if_pos habs]
    refine hcut ?_ ?_ ?_
    · rw [String.toList_append, String.toList_append, hb, hc, List.append_assoc]
      rfl
    · obtain ⟨t, rfl⟩ := habs
      rw [ltrim, List.cons_append, List.cons_append, List.dropWhile_cons_of_neg
        (by decide), List.dropWhile_cons_of_neg (by decide)]
    · rw [← hb, Text.rstrip, String.toList_ofList, List.rdropWhile_idempotent]
  · rw [if_neg habs, if_neg habs]
    refine hcut (q := ['.']) ?_ ?_ rfl
    · rw [String.toList_append, hc]
      rfl
    · rw [ltrim, List.singleton_append, List.dropWhile_cons_of_neg (by decide),
        List.dropWhile_cons_of_neg (by decide)]

end Steps

/-! ## The range -/

/-- The arguments for which the range lies at the base path: the base is
absolute as it is written, or no more than the key itself; the change is made of
steps; and no index is the one that only an `int` can name. -/
structure PathKept (u : Unicode) (xkey : Xkey Key Secret) (path : String)
    (change : PathStep) (stop : Int) : Prop where
  base : ['m', '/'] <+: (Text.rstrip '/' path).toList ∨
    ltrim (Text.rstrip '/' path).toList = ['.'] ∨
    ltrim (Text.rstrip '/' path).toList = ['m'] ∧ xkey.IsMaster
  change : Accepted u (pieces change.format.toList)
  below : stop ≤ 0xFFFFFFFF

/-- The list that `ckd` gives along `path/change/i`. -/
def childrenAt (hd : HdCurve Key Secret) (u : Unicode) (xkey : Xkey Key Secret)
    (path : String) (change : PathStep) (start stop : Int) :
    Except PyErr (List (Xkey Key Secret)) :=
  (indexRange start stop).mapM fun i => ckd hd u xkey (childPath path change i)

section Range

variable {hd : HdCurve Key Secret} {u : Unicode} {xkey X Y : Xkey Key Secret}
  {path : String} {change : PathStep}
  {i start stop : Int} {b c : List Char}

/-- The first step of a path, where it is a single character. -/
theorem head_piece {l : List Char} {x : Char}
    (h : (pieces l).headD "" = String.ofList [x]) :
    l = [x] ∨ ∃ r, l = x :: '/' :: r := by
  by_cases hslash : '/' ∈ l
  · obtain ⟨p, r, rfl, hp⟩ := List.eq_append_cons_of_mem hslash
    rw [pieces_append, pieces_of_not_mem hp] at h
    have hpx : p = [x] := String.ofList_injective h
    exact .inr ⟨r, by rw [hpx]; rfl⟩
  · rw [pieces_of_not_mem hslash] at h
    exact .inl (String.ofList_injective h)

/-- A single character between slashes is a step. -/
theorem mem_pieces {x : Char} (hx : x ≠ '/') {r : List Char} (hr : r = [] ∨
      ∃ t, r = '/' :: t) {slashes : List Char} (hs : ∀ c ∈ slashes, c = '/') :
    String.ofList [x] ∈ pieces (slashes ++ x :: r) := by
  have hfirst : '/' ∉ [x] := fun h => hx (List.mem_singleton.mp h).symm
  induction slashes with
  | nil =>
    rcases hr with rfl | ⟨t, rfl⟩
    · rw [List.nil_append, pieces_of_not_mem hfirst]
      exact List.mem_cons_self
    · rw [List.nil_append, ← List.singleton_append, pieces_append,
        pieces_of_not_mem hfirst]
      exact List.mem_cons_self
  | cons c slashes ih =>
    obtain ⟨rfl, hrest⟩ := List.forall_mem_cons.mp hs
    rw [List.cons_append, ← List.nil_append ('/' :: _), pieces_append]
    exact List.mem_append_right _ (ih hrest)

/-- A character that starts no literal is no step. -/
theorem not_accepted {x : Char} (hascii : x.toNat < 128)
    (hmark : x ≠ apostrophe) (hx : ¬ PyVal.IsLiteral x) :
    ¬ ∃ i, stepToIndex u (.text (String.ofList [x])) = .ok i := by
  rintro ⟨i, hi⟩
  obtain ⟨⟨mark, number⟩, hread, -⟩ := stepToIndex_ok.mp hi
  obtain ⟨-, hmarked, hint⟩ := readStep_ok.mp hread
  have hplain : mark = false := by
    rw [hmarked, String.toList_ofList]
    exact decide_eq_false fun h => hmark (Option.some.inj h)
  rw [hplain] at hint
  have hint : u.int (String.ofList [x]) = .ok number := hint
  exact hx (Unicode.int_literal hint
    (by rw [String.toList_ofList]; exact List.mem_cons_self) hascii)

/-- Paths with the same first step start or are refused alike. -/
theorem ckd_congr {p q : String}
    {f : Xkey Key Secret → Except PyErr (Xkey Key Secret)}
    (hhead : (pathSteps p).headD "" = (pathSteps q).headD "")
    (hwalk : walkSteps hd u xkey (pathSteps p).tail =
      walkSteps hd u xkey (pathSteps q).tail >>= f) :
    ckd hd u xkey p = ckd hd u xkey q >>= f := by
  unfold ckd
  dsimp only
  rw [hhead, hwalk, bind_assoc, bind_assoc]

/-- Behind the same steps, the change and the index lead to a child of the
change level. -/
theorem walkSteps_child (hchange : Accepted u (pieces c))
    (hindex : stepToIndex u (.text (toString i)) = .ok i)
    (ps : List String) : walkSteps hd u xkey (ps ++ pieces c ++ [toString i]) =
      walkSteps hd u xkey (ps ++ pieces (rtrim c)) >>= fun X => X.ckd hd i := by
  obtain ⟨-, is, hfull, htrim⟩ := pieces_rtrim hchange
  rw [walkSteps_append, walkSteps_append, walkSteps_append,
    bind_assoc, bind_assoc]
  congr 1
  funext y
  rw [walkSteps_indices hfull, walkSteps_indices htrim]
  congr 1
  funext X
  rw [walkSteps_cons, hindex, ok_bind]
  cases X.ckd hd i <;> rfl

/-- Where the path is kept, the key at `path/change/i` is a child of the change
level. -/
theorem ckd_childPath (hkept : PathKept u xkey path change stop) (hi : 0 ≤ i)
    (hstop : i < stop) :
    ckd hd u xkey (childPath path change i) = ckd hd u xkey
      (changePath path change) >>= fun X => X.ckd hd i := by
  obtain ⟨hne, -⟩ := pieces_rtrim hkept.change
  generalize hb : (Text.rstrip '/' path).toList = b
  generalize hc : change.format.toList = c
  have hbase := hkept.base
  have hbelow := hkept.below
  have haccepted := hkept.change
  rw [hb] at hbase
  rw [hc] at haccepted hne
  have hindex : stepToIndex u (.text (toString i)) = .ok i :=
    (stepToIndex_plain i).mpr ⟨rfl, hi, by omega⟩
  have hchild := steps_child hb hc hi
  have hchange := steps_change hb hc
  rw [if_neg hne] at hchange
  by_cases habs : ['m', '/'] <+: b
  · -- the base is walked as it is written
    have hkeep : ltrim b = b := by
      obtain ⟨t, rfl⟩ := habs
      rw [ltrim, List.cons_append, List.dropWhile_cons_of_neg (by decide),
        List.dropWhile_cons_of_neg (by decide)]
    have hbne : b ≠ [] := by
      rintro rfl
      exact absurd (List.prefix_nil.mp habs) (by decide)
    obtain ⟨p, ps, hp⟩ := List.exists_cons_of_ne_nil (pieces_ne_nil b)
    rw [hkeep, if_neg hbne, hp] at hchild
    rw [if_pos habs, hp] at hchange
    refine ckd_congr (by rw [hchild, hchange]; rfl) ?_
    rw [hchild, hchange]
    exact walkSteps_child haccepted hindex ps
  · -- the base is the key itself
    rw [if_neg habs] at hchange
    have hstep : ∃ p, ltrim b ≠ [] ∧ pieces (ltrim b) = [p] ∧
        (p = "." ∨ p = "m" ∧ xkey.IsMaster) := by
      rcases hbase.resolve_left habs with hdot | ⟨hm, hmaster⟩
      · exact ⟨".", by rw [hdot]; exact List.cons_ne_nil _ _, by rw [hdot]; rfl, .inl rfl⟩
      · exact ⟨"m", by rw [hm]; exact List.cons_ne_nil _ _, by rw [hm]; rfl, .inr ⟨rfl,
          hmaster⟩⟩
    obtain ⟨p, hbne, hp, hself⟩ := hstep
    rw [if_neg hbne, hp] at hchild
    have hstarts : Starts xkey (childPath path change i) := by
      rw [Starts, hchild]
      exact hself
    have hstarts' : Starts xkey (changePath path change) := by
      rw [Starts, hchange]
      exact .inl rfl
    rw [ckd_eq hstarts, ckd_eq hstarts', hchild, hchange]
    exact walkSteps_child haccepted hindex []

/-- A base of which nothing is left is no base: where the change level is
reached, `path/change/i` is no path. -/
theorem not_starts_of_nil (hb : (Text.rstrip '/' path).toList = b)
    (hc : change.format.toList = c) (hnil : ltrim b = [])
    (hchange : ckd hd u xkey (changePath path change) = .ok X) (hi : 0 ≤ i) :
    ¬ Starts xkey (childPath path change i) := by
  intro hstarts
  obtain ⟨-, hwalk⟩ := ckd_ok.mp hchange
  have habs : ¬ ['m', '/'] <+: b := by
    rintro ⟨t, rfl⟩
    rw [ltrim, List.cons_append, List.dropWhile_cons_of_neg (by decide),
      List.dropWhile_cons_of_neg (by decide)] at hnil
    cases hnil
  rw [steps_change hb hc, if_neg habs] at hwalk
  obtain ⟨x, hx, hhead⟩ : ∃ x, (x = '.' ∨ x = 'm') ∧
      (pieces ((c ++ '/' :: (toString i).toList).dropWhile (· == '/'))).headD
        "" = String.ofList [x] := by
    rw [Starts, steps_child hb hc hi, if_pos hnil] at hstarts
    rcases hstarts with h | ⟨h, -⟩
    · exact ⟨'.', .inl rfl, h⟩
    · exact ⟨'m', .inr rfl, h⟩
  have hxne : x ≠ ' ' ∧ x ≠ '/' ∧ x.isDigit = false ∧
      ¬ ∃ i, stepToIndex u (.text (String.ofList [x])) = .ok i := by
    rcases hx with rfl | rfl
    · exact ⟨by decide, by decide, by decide, not_accepted (by decide) (by decide) (by unfold PyVal.IsLiteral; decide)⟩
    · exact ⟨by decide, by decide, by decide, not_accepted (by decide) (by decide) (by unfold PyVal.IsLiteral; decide)⟩
  obtain ⟨hspace, hslash, hdigit, hrefused⟩ := hxne
  -- the first character behind the slashes is `x`, and it is one of the change
  have hfirst : ∃ r, (c ++ '/' :: (toString i).toList).dropWhile (· == '/') =
      x :: r ∧ (r = [] ∨ ∃ t, r = '/' :: t) := by
    rcases head_piece hhead with h | ⟨t, h⟩
    · exact ⟨[], h, .inl rfl⟩
    · exact ⟨_, h, .inr ⟨t, rfl⟩⟩
  obtain ⟨r, hr, hcut⟩ := hfirst
  by_cases hcnil : c.dropWhile (· == '/') = []
  · rw [Text.dropWhile_append_of_nil hcnil,
      List.dropWhile_cons_of_pos (by decide)] at hr
    have hmem : x ∈ (toString i).toList :=
      (List.dropWhile_sublist _).mem (by rw [hr]; exact List.mem_cons_self)
    rw [toList_toString_int, if_pos hi, List.nil_append] at hmem
    have hdig := Nat.isDigit_of_mem_toDigits (by decide) (by decide) hmem
    rw [hdigit] at hdig
    cases hdig
  · rw [Text.dropWhile_append_of_ne hcnil] at hr
    obtain ⟨a, t, hat⟩ := List.exists_cons_of_ne_nil hcnil
    rw [hat] at hr
    obtain ⟨rfl, ht⟩ := List.cons.inj hr
    have htcut : t = [] ∨ ∃ s, t = '/' :: s := by
      cases t with
      | nil => exact .inl rfl
      | cons d t =>
        rcases hcut with rfl | ⟨s, rfl⟩
        · cases ht
        · exact .inr ⟨t, by rw [(List.cons.inj ht).1]⟩
    have htrimmed : rtrim t = [] ∨ ∃ s, rtrim t = '/' :: s := by
      rcases htcut with rfl | ⟨s, rfl⟩
      · exact .inl rfl
      · have h := rtrim_slash [] s
        rw [List.nil_append] at h
        rw [h]
        split
        · exact .inl rfl
        · exact .inr ⟨_, rfl⟩
    have hsplit : c = c.takeWhile (· == '/') ++ a :: t := by
      rw [← hat, List.takeWhile_append_dropWhile]
    have hc' : rtrim c = c.takeWhile (· == '/') ++ a :: rtrim t := by
      have h : rtrim (a :: t) ≠ [] := by
        rw [rtrim_cons_of_neg hspace hslash]
        exact List.cons_ne_nil _ _
      rw [← rtrim_cons_of_neg hspace hslash, ← rtrim_append_of_ne h, ← hsplit]
    have hmem : String.ofList [a] ∈ pieces (rtrim c) := by
      rw [hc']
      exact mem_pieces hslash htrimmed fun c hc =>
        beq_iff_eq.mp (List.mem_takeWhile_imp (p := (· == '/')) hc)
    rw [if_neg
      (by rw [hc']; exact List.append_ne_nil_of_right_ne_nil _ (List.cons_ne_nil
      _ _))] at hwalk
    exact hrefused ((walkSteps_ok hwalk).1 _ hmem)

/-- A base that adds no step is a single one. -/
theorem single_piece {l : List Char} {p : String} (h : pieces l = [p]) :
    l = p.toList := by
  rcases last_slash l with hl | ⟨a, b, hb, rfl⟩
  · rw [pieces_of_not_mem hl] at h
    rw [← (List.cons.inj h).1, String.toList_ofList]
  · have hlen := congrArg List.length h
    rw [pieces_append, List.length_append, List.length_singleton] at hlen
    have ha := List.length_pos_of_ne_nil (pieces_ne_nil a)
    have hb := List.length_pos_of_ne_nil (pieces_ne_nil b)
    omega

/-- And conversely, if the key at `path/change/i` is a child of the change
level, as deep as it. -/
theorem pathKept_of_ckd (hchange : ckd hd u xkey (changePath path change) =
      .ok X) (hi : 0 ≤ i)
    (hchild : ckd hd u xkey (childPath path change i) = .ok Y)
    (hdepth : Y.depth = X.depth + 1) :
    PathKept u xkey path change (i + 1) := by
  generalize hb : (Text.rstrip '/' path).toList = b
  generalize hc : change.format.toList = c
  obtain ⟨hstarts, hwalk⟩ := ckd_ok.mp hchild
  have hbne : ltrim b ≠ [] :=
    fun hnil => not_starts_of_nil hb hc hnil hchange hi hstarts
  obtain ⟨-, hlevel⟩ := ckd_ok.mp hchange
  obtain ⟨p, ps, hp⟩ := List.exists_cons_of_ne_nil (pieces_ne_nil (ltrim b))
  rw [Starts, steps_child hb hc hi, if_neg hbne, hp] at hstarts
  rw [steps_child hb hc hi, if_neg hbne, hp] at hwalk
  obtain ⟨haccepted, hcount⟩ := walkSteps_ok (show walkSteps hd u xkey (ps ++
    pieces c ++ [toString i]) = .ok Y from hwalk)
  rw [Accepted, List.forall_mem_append, List.forall_mem_append,
    List.forall_mem_singleton] at haccepted
  obtain ⟨⟨-, hpieces⟩, index, hindex⟩ := haccepted
  have hrange := (stepToIndex_plain i).mp hindex
  obtain ⟨hne, is, hfull, htrim⟩ := pieces_rtrim hpieces
  refine ⟨?_, by rw [hc]; exact hpieces, by omega⟩
  rw [hb]
  -- a base that is not absolute drops out of the change key's walk, so the
  -- depth leaves it its first step only
  by_cases habs : ['m', '/'] <+: b
  · exact .inl habs
  · refine .inr ?_
    rw [steps_change hb hc, if_neg habs, if_neg hne] at hlevel
    have hlevelCount := (walkSteps_ok
      (show walkSteps hd u xkey (pieces (rtrim c)) = .ok X from hlevel)).2
    have hsame : (pieces (rtrim c)).length = (pieces c).length := by
      rw [← (mapM_ok htrim).1, ← (mapM_ok hfull).1]
    rw [List.length_append, List.length_append, List.length_singleton] at hcount
    have hps : ps = [] := List.length_eq_zero_iff.mp (by omega)
    rw [hps] at hp
    have hbp := single_piece hp
    rcases hstarts with h | ⟨h, hmaster⟩
    · exact .inl (by rw [hbp, show p = "." from h]; rfl)
    · exact .inr ⟨by rw [hbp, show p = "m" from h]; rfl, hmaster⟩

theorem mem_indexRange : i ∈ indexRange start stop ↔ start ≤ i ∧ i < stop := by
  simp only [indexRange, List.mem_map, List.mem_range]
  constructor
  · rintro ⟨k, hk, rfl⟩
    omega
  · rintro ⟨hlo, hhi⟩
    exact ⟨(i - start).toNat, by omega, by omega⟩

/-- The range call is the list of single derivations. -/
theorem bip32DeriveXkeysFromXkey_eq {indexStart indexEnd : PathStep}
    (hstart : rangeIndex u indexStart = .ok start)
    (hstop : rangeIndex u indexEnd = .ok stop) (hnonneg : 0 ≤ start)
    (hlt : start < stop) :
    bip32DeriveXkeysFromXkey hd u xkey indexStart indexEnd path change =
      ckd hd u xkey (changePath path change) >>=
        fun X => (indexRange start stop).mapM fun i => X.ckd hd i := by
  unfold bip32DeriveXkeysFromXkey
  rw [hstart, ok_bind, hstop, ok_bind, if_neg (by omega)]

/-- Where the path is kept, the range is the list of `path/change/i`, and raises
where that does. -/
theorem childrenAt_eq (hkept : PathKept u xkey path change stop)
    (hnonneg : 0 ≤ start) (hlt : start < stop) :
    childrenAt hd u xkey path change start stop =
      ckd hd u xkey (changePath path change) >>=
        fun X => (indexRange start stop).mapM fun i => X.ckd hd i := by
  have hturns : ∀ i ∈ indexRange start stop,
      ckd hd u xkey (childPath path change i) =
        ckd hd u xkey (changePath path change) >>= fun X => X.ckd hd i := by
    intro i hi
    obtain ⟨hlo, hhi⟩ := mem_indexRange.mp hi
    exact ckd_childPath hkept (by omega) hhi
  have hne : indexRange start stop ≠ [] :=
    List.ne_nil_of_mem (mem_indexRange.mpr ⟨Int.le_refl start, hlt⟩)
  rw [childrenAt, mapM_congr hturns, mapM_bind hne]

/-- And where the two lists are one, the path is kept. -/
theorem pathKept_of_childrenAt {l : List (Xkey Key Secret)}
    (hnonneg : 0 ≤ start) (hlt : start < stop)
    (hchange : ckd hd u xkey (changePath path change) = .ok X)
    (hl : (indexRange start stop).mapM (fun i => X.ckd hd i) = .ok l)
    (h : childrenAt hd u xkey path change start stop = .ok l) :
    PathKept u xkey path change stop := by
  have hlast : stop - 1 ∈ indexRange start stop := mem_indexRange.mpr (by omega)
  obtain ⟨k, hk⟩ := List.mem_iff_getElem?.mp hlast
  obtain ⟨y, hy, hchild⟩ := (mapM_ok h).2 k _ hk
  obtain ⟨y', hy', hsame⟩ := (mapM_ok hl).2 k _ hk
  rw [hy, Option.some.injEq] at hy'
  rw [← hy'] at hsame
  have hkept := pathKept_of_ckd hchange (by omega) hchild (Xkey.ckd_depth hsame)
  rwa [Int.sub_add_cancel] at hkept

/-- Along a path, the `Xpub` of what is derived is what is derived of the
`Xpub`. -/
theorem ckd_xpub (law : hd.Lawful) {x y : Xprv Secret} {X Y : Xpub Key}
    {p : String} (hX : x.xpub hd = .ok X)
    (hy : ckd hd u (.xprv x) p = .ok (.xprv y))
    (hY : ckd hd u (.xpub X) p = .ok (.xpub Y)) : y.xpub hd = .ok Y := by
  replace hy := (ckd_ok.mp hy).2
  replace hY := (ckd_ok.mp hY).2
  generalize (pathSteps p).tail = steps at hy hY
  induction steps generalizing x X with
  | nil =>
    cases hy
    cases hY
    exact hX
  | cons s steps ih =>
    rw [walkSteps_cons] at hy hY
    obtain ⟨index, hindex, hy⟩ := bind_ok.mp hy
    rw [hindex, ok_bind] at hY
    obtain ⟨child, hchild, hy⟩ := bind_ok.mp hy
    obtain ⟨child', hchild', hY⟩ := bind_ok.mp hY
    obtain ⟨c, hc, hcx⟩ := bind_ok.mp hchild
    cases hcx
    obtain ⟨C, hC, hCx⟩ := bind_ok.mp hchild'
    cases hCx
    obtain ⟨c', hc', hcpub⟩ := Xprv.ckd_of_xpub law hX hC
    rw [hc, Except.ok.injEq] at hc'
    rw [← hc'] at hcpub
    exact ih hcpub hy hY

end Range

/-- **Public derivation is the image of private derivation, and the range is the
one at its path** as far as the path is kept. -/
theorem bip32DeriveXkeysFromXkey_iff {hd : HdCurve Key Secret}
    (law : hd.Lawful) {u : Unicode}
    {xkey : Xkey Key Secret} {indexStart indexEnd change : PathStep}
    {path : String} {start stop : Int}
    (hstart : rangeIndex u indexStart = .ok start)
    (hstop : rangeIndex u indexEnd = .ok stop) (hnonneg : 0 ≤ start)
    (hlt : start < stop) :
    (∀ (x y : Xprv Secret) (X Y : Xpub Key) (i : Int), x.xpub hd = .ok X →
      x.ckd hd i = .ok y → X.ckd hd i = .ok Y → y.xpub hd = .ok Y) ∧
    (∀ (x y : Xprv Secret) (X Y : Xpub Key) (p : String), x.xpub hd = .ok X →
      ckd hd u (.xprv x) p = .ok (.xprv y) →
      ckd hd u (.xpub X) p = .ok (.xpub Y) → y.xpub hd = .ok Y) ∧
    (PathKept u xkey path change stop →
      bip32DeriveXkeysFromXkey hd u xkey indexStart indexEnd path change =
        childrenAt hd u xkey path change start stop) ∧
    ∀ l, bip32DeriveXkeysFromXkey hd u xkey indexStart indexEnd path change =
      .ok l →
      (childrenAt hd u xkey path change start stop = .ok l ↔
        PathKept u xkey path change stop) := by
  -- the call derives the change key once and then one child for each index
  have heq : bip32DeriveXkeysFromXkey hd u xkey indexStart
      indexEnd path change =
      ckd hd u xkey (changePath path change) >>=
        fun X => (indexRange start stop).mapM fun i => X.ckd hd i :=
    bip32DeriveXkeysFromXkey_eq hstart hstop hnonneg hlt
  refine ⟨fun x y X Y i hX hy hY => ?_,
    fun x y X Y p hX hy hY => ckd_xpub law hX hy hY, fun hkept => ?_,
    fun l h => ⟨fun hsame => ?_, fun hkept => ?_⟩⟩
  · obtain ⟨y', hy', hpub⟩ := Xprv.ckd_of_xpub law hX hY
    rw [hy, Except.ok.injEq] at hy'
    rwa [hy']
  · rw [heq, childrenAt_eq hkept hnonneg hlt]
  · rw [heq] at h
    obtain ⟨X, hchange, hl⟩ := bind_ok.mp h
    exact pathKept_of_childrenAt hnonneg hlt hchange hl hsame
  · rw [childrenAt_eq hkept hnonneg hlt, ← heq, h]

/-- The account key and the master key above it, with their secrets. -/
def sampleXkey : Xkey SampleKey SampleKey := .xprv sampleXprv
def masterXkey : Xkey SampleKey SampleKey := .xprv masterXprv

/-- The two chains of the first account, taken from the master key at
`m/44'/512'`. -/
theorem bip32DeriveXkeysFromXkey_chains :
    ∃ l, bip32DeriveXkeysFromXkey (sampleHd id) asciiOnly masterXkey
      (.index 0) (.text "2") "m/44'/512'" (.text "0'") = .ok l ∧ l.length = 2 ∧
    childrenAt (sampleHd id) asciiOnly masterXkey "m/44'/512'"
      (.text "0'") 0 2 = .ok l := by
  have hpieces : pieces (PathStep.text "0'").format.toList = ["0'"] := by decide
  have haccepted :
      Accepted asciiOnly (pieces (PathStep.text "0'").format.toList) := by
    rw [Accepted, hpieces]
    exact List.forall_mem_singleton.mpr ⟨0x80000000, by decide⟩
  have hkept : PathKept asciiOnly masterXkey "m/44'/512'" (.text "0'") 2 :=
    ⟨.inl (by decide), haccepted, by decide⟩
  have hstart : rangeIndex asciiOnly (.index 0) = .ok 0 := rfl
  have hstop : rangeIndex asciiOnly (.text "2") = .ok 2 := by decide
  obtain ⟨l, hl⟩ := isOk_iff.mp (show (bip32DeriveXkeysFromXkey
    (sampleHd id) asciiOnly masterXkey (.index 0)
    (.text "2") "m/44'/512'" (.text "0'")).isOk = true by decide)
  have hat := ((bip32DeriveXkeysFromXkey_iff (sampleHd_lawful id) hstart hstop
    (by decide) (by decide)).2.2.2
    l hl).mpr hkept
  exact ⟨l, hl, (mapM_ok hat).1, hat⟩

/-- The base `./5` is left out: the range is that of `.`. -/
theorem bip32DeriveXkeysFromXkey_drops_base :
    ∃ l, bip32DeriveXkeysFromXkey (sampleHd id) asciiOnly sampleXkey (.index 0)
      (.index 1) "./5" (.index 1) = .ok l ∧
    childrenAt (sampleHd id) asciiOnly sampleXkey "./5"
      (.index 1) 0 1 ≠ .ok l := by
  obtain ⟨l, hl⟩ :=
    isOk_iff.mp (show (bip32DeriveXkeysFromXkey (sampleHd id) asciiOnly
      sampleXkey (.index 0) (.index 1) "./5" (.index 1)).isOk = true by decide)
  refine ⟨l, hl, fun h => ?_⟩
  have hstart : rangeIndex asciiOnly (.index 0) = .ok 0 := rfl
  have hstop : rangeIndex asciiOnly (.index 1) = .ok 1 := rfl
  rw [bip32DeriveXkeysFromXkey_eq hstart hstop (by decide) (by decide)] at hl
  obtain ⟨X, hchange, hrange⟩ := bind_ok.mp hl
  have hkept := pathKept_of_childrenAt (by decide) (by decide) hchange hrange h
  have hbase := hkept.base
  revert hbase
  decide

end Pyrxd.Hd
