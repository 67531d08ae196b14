import Pyrxd.Glyph.ReadBack
import Pyrxd.Lib.Pushes

/-!
# The payload in a scriptSig

The three walkers over pushed data: `_parse_reveal_scriptsig` and
`_scriptsig_pushes` of `glyph/inspector.py`, and `_walk_pushdata` of
`glyph/timelock_reveal_tx.py`. The latter two check every length and read what
`Pyrxd.Lib.readPush` reads; the first checks none, so that a push that is cut
short ends the walk with what is left of it (`revealStep_cut`).
`reveal_walk_iff` says for which scripts that is seen from outside.
-/

namespace Pyrxd.Glyph

open Pyrxd.Lib

/-! ## The walkers -/

/-- `scriptsig[pos : pos + length]`, and what the walk goes on with. -/
def slice (length : Nat) (rest : Bytes) : Bytes × Bytes :=
  (rest.take length, rest.drop length)

/-- A turn of `_parse_reveal_scriptsig`; `none` leaves the loop. -/
def revealStep (opcode : UInt8) (rest : Bytes) :
    Except PyErr (Option (Bytes × Bytes)) :=
  if 1 ≤ opcode ∧ opcode ≤ 75 then .ok (some (slice opcode.toNat rest))
  else if opcode = 0x4C then
    match rest with
    | [] => .error (.other "index out of range")
    | length :: rest => .ok (some (slice length.toNat rest))
  else if opcode =
    0x4D then .ok (some (slice (leNat (rest.take 2)) (rest.drop 2)))
  else if opcode =
    0x4E then .ok (some (slice (leNat (rest.take 4)) (rest.drop 4)))
  else .ok none

/-- The loop; each turn takes a byte at least. -/
def revealLoop : Nat → Bytes → Except PyErr (List Bytes)
  | fuel + 1, opcode :: rest => do
    match ← revealStep opcode rest with
    | none => return []
    | some (item, rest) => do
      let items ← revealLoop fuel rest
      return item :: items
  | _, _ => .ok []

def revealItems (scriptsig : Bytes) : Except PyErr (List Bytes) :=
  revealLoop scriptsig.length scriptsig

/-- What follows the first marker that is followed by anything. -/
def afterMarker : List Bytes → Option Bytes
  | item :: next :: items =>
    if item = glyMarker then some next else afterMarker (next :: items)
  | _ => none

/-- `_parse_reveal_scriptsig`. -/
def parseRevealScriptsig (lib : CborObjects) (scriptsig : Bytes) :
    Except DecodeErr (Option GlyphMetadata) := do
  let items ← (revealItems scriptsig).mapError .ofPyErr
  match afterMarker items with
  | some payload => do
    let metadata ← decodePayload lib payload
    return some metadata
  | none => return none

/-- `GlyphInspector.extract_reveal_metadata`. -/
def extractRevealMetadata (lib : CborObjects) (scriptsig : Bytes) :
    Option GlyphMetadata :=
  match parseRevealScriptsig lib scriptsig with
  | .ok metadata => metadata
  | .error _ => none

/-- A push whose end is checked. -/
def checkedSlice (length : Nat) (rest : Bytes) : Option (Bytes × Bytes) :=
  if rest.length < length then none else some (slice length rest)

/-- A turn of `_scriptsig_pushes`, and of `_walk_pushdata`. -/
def pushStep (op : UInt8) (rest : Bytes) : Option (Bytes × Bytes) :=
  if op = 0x00 then some ([], rest)
  else if 1 ≤ op ∧ op ≤ 75 then checkedSlice op.toNat rest
  else if op = 0x4C then
    if rest.length < 1 then none
      else checkedSlice (leNat (rest.take 1)) (rest.drop 1)
  else if op = 0x4D then
    if rest.length < 2 then none
      else checkedSlice (leNat (rest.take 2)) (rest.drop 2)
  else if op = 0x4E then
    if rest.length < 4 then none
      else checkedSlice (leNat (rest.take 4)) (rest.drop 4)
  else none

def pushLoop : Nat → Bytes → Option (List Bytes)
  | fuel + 1, op :: rest => do
    let (item, rest) ← pushStep op rest
    let items ← pushLoop fuel rest
    return item :: items
  | _, _ => some []

/-- `_scriptsig_pushes`. -/
def scriptsigPushes (scriptsig : Bytes) : Option (List Bytes) :=
  pushLoop scriptsig.length scriptsig

/-- `_walk_pushdata`. -/
def walkPushdata (script : Bytes) : List Bytes :=
  let rest := if script.head? = some 0x6A then script.tail else script
  (pushLoop rest.length rest).getD []

/-! ## One turn -/

section Turn

variable {op : UInt8} {rest tail d : Bytes}

/-- A slice is checked against what is left. -/
theorem checkedSlice_eq (length : Nat) (rest : Bytes) :
    checkedSlice length rest = if rest.length < length then none
      else some (rest.take length, rest.drop length) := rfl

/-- The opcodes of pushes. -/
theorem push_opcodes (h : op ≤ 0x4E) : op = 0 ∨
    (1 ≤ op ∧ op ≤ 75) ∧ op.toNat ≤ 75 ∨ op = 0x4C ∨ op = 0x4D ∨ op = 0x4E := by
  have hle : op.toNat ≤ 78 := h
  have hof : ∀ n, op.toNat = n → op = UInt8.ofNat n :=
    fun n hn => by rw [← hn, UInt8.ofNat_toNat]
  by_cases h0 : op.toNat = 0
  · exact .inl (hof 0 h0)
  by_cases h75 : op.toNat ≤ 75
  · exact .inr (.inl ⟨⟨show 1 ≤ op.toNat by omega, h75⟩, h75⟩)
  have hrest : op.toNat = 76 ∨ op.toNat = 77 ∨ op.toNat = 78 := by omega
  exact .inr (.inr (hrest.imp (hof 76) (Or.imp (hof 77) (hof 78))))

/-- A length of `width` bytes, and as many behind it. -/
theorem checkedSlice_behind (width : Nat) (rest : Bytes) :
    (if rest.length < width then none
      else checkedSlice (leNat (rest.take width)) (rest.drop width)) =
      if rest.length < width + leNat (rest.take width) then none
      else some ((rest.drop width).take (leNat (rest.take width)),
          (rest.drop width).drop (leNat (rest.take width))) := by
  rw [checkedSlice_eq, List.length_drop]
  by_cases hwidth : rest.length < width
  · rw [if_pos hwidth, if_pos (by omega)]
  · rw [if_neg hwidth]
    by_cases hsize : rest.length - width < leNat (rest.take width)
    · rw [if_pos hsize, if_pos (by omega)]
    · rw [if_neg hsize, if_neg (by omega)]

/-- The checked turn reads a push. -/
theorem pushStep_eq (op : UInt8) (rest : Bytes) :
    pushStep op rest = readPush op rest := by
  by_cases hop : op ≤ 0x4E
  · rcases push_opcodes hop with rfl | ⟨hdirect, h75⟩ | rfl | rfl | rfl
    · rfl
    · have h0 : op ≠ 0 := by
        rintro rfl
        exact absurd hdirect.1 (by decide)
      rw [pushStep, if_neg h0, if_pos hdirect, readPush,
        if_neg (UInt8.not_lt.mpr hop), lengthWidth_of_le h75, pushSize,
        if_pos h75, Nat.zero_add]
      rfl
    · exact checkedSlice_behind 1 rest
    · exact checkedSlice_behind 2 rest
    · exact checkedSlice_behind 4 rest
  · have hlt : 78 < op.toNat := Nat.lt_of_not_le hop
    have hne : ∀ {c : UInt8}, c.toNat ≤ 78 → op ≠ c := by
      rintro c hc rfl
      omega
    have hdirect : ¬ (1 ≤ op ∧ op ≤ 75) :=
      fun h => absurd (show op.toNat ≤ 75 from h.2) (by omega)
    rw [pushStep, if_neg (hne (by decide)), if_neg hdirect,
      if_neg (hne (by decide)), if_neg (hne (by decide)),
      if_neg (hne (by decide)), readPush, if_pos (UInt8.not_le.mp hop)]

/-- An opcode at which `_parse_reveal_scriptsig` leaves its loop. -/
def StopsWalk (op : UInt8) : Prop := op = 0 ∨ 0x4E < op

instance : DecidablePred StopsWalk :=
  fun op => inferInstanceAs (Decidable (op = 0 ∨ 0x4E < op))

/-- The walk stops at any opcode that is no push. -/
theorem revealStep_stops (h : StopsWalk op) :
    revealStep op rest = .ok none := by
  rcases h with rfl | hlt
  · rfl
  · have hlt : 78 < op.toNat := hlt
    have hne : ∀ {c : UInt8}, c.toNat ≤ 78 → op ≠ c := by
      rintro c hc rfl
      omega
    have hdirect : ¬ (1 ≤ op ∧ op ≤ 75) :=
      fun h => absurd (show op.toNat ≤ 75 from h.2) (by omega)
    unfold revealStep
    rw [if_neg hdirect, if_neg (hne (by decide)), if_neg (hne (by decide)),
      if_neg (hne (by decide))]

/-- The unchecked turn takes the same bytes, as many as there are. -/
theorem revealStep_slice (hop : ¬ StopsWalk op)
    (hbare : ¬ (op = 0x4C ∧ rest = [])) :
    revealStep op rest = .ok
      (some (slice (pushSize op rest) (rest.drop (lengthWidth op)))) := by
  obtain ⟨h0, hle⟩ := not_or.mp hop
  rcases push_opcodes (UInt8.not_lt.mp hle) with rfl | ⟨hdirect,
    h75⟩ | rfl | rfl | rfl
  · exact absurd rfl h0
  · unfold revealStep
    rw [if_pos hdirect, pushSize, if_pos h75, lengthWidth_of_le h75]
    rfl
  · cases rest with
    | nil => exact absurd ⟨rfl, rfl⟩ hbare
    | cons length rest =>
      show Except.ok (some (slice length.toNat rest)) =
        .ok (some (slice (leNat [length]) rest))
      rw [leNat_singleton]
  · rfl
  · rfl

theorem revealStep_push (hop : ¬ StopsWalk op)
    (h : readPush op rest = some (d, tail)) :
    revealStep op rest = .ok (some (d, tail)) := by
  unfold readPush at h
  rw [if_neg (not_or.mp hop).2] at h
  split at h
  · cases h
  rename_i hlong
  have hbare : ¬ (op = 0x4C ∧ rest = []) := by
    rintro ⟨rfl, rfl⟩
    exact hlong (by decide)
  rw [revealStep_slice hop hbare, ← h]
  rfl

/-- A push that is cut short is read as what there is of it, and is the last. -/
theorem revealStep_cut (hop : ¬ StopsWalk op) (h : readPush op rest = none)
    (hbare : ¬ (op = 0x4C ∧ rest = [])) :
    ∃ cut, revealStep op rest = .ok (some (cut, [])) := by
  refine ⟨(rest.drop (lengthWidth op)).take (pushSize op rest),
    (revealStep_slice hop hbare).trans ?_⟩
  unfold readPush at h
  rw [if_neg (not_or.mp hop).2] at h
  split at h
  · rename_i hshort
    have hend : (rest.drop (lengthWidth op)).drop (pushSize op rest) = [] :=
      List.drop_eq_nil_of_le (by rw [List.length_drop]; omega)
    rw [slice, hend]
  · cases h

end Turn

/-! ## Whole walks -/

section Walk

variable {qs : List DataPush} {tail : Bytes} {r : Except PyErr (List Bytes)}

/-- What the unchecked walk makes of some code, however many turns are left. -/
def Walks (code : Bytes) (r : Except PyErr (List Bytes)) : Prop :=
  ∀ fuel, code.length ≤ fuel → revealLoop fuel code = r

/-- A walk determines the items. -/
theorem Walks.items {code : Bytes} (h : Walks code r) : revealItems code = r :=
  h _ (Nat.le_refl _)

/-- An empty script has no items. -/
theorem walks_nil : Walks [] (.ok []) := fun fuel _ => by cases fuel <;> rfl

/-- A script that opens with another opcode has none either. -/
theorem walks_stops {op : UInt8} {rest : Bytes} (h : StopsWalk op) :
    Walks (op :: rest) (.ok []) := by
  intro fuel hfuel
  cases fuel with
  | zero => cases hfuel
  | succ fuel =>
    rw [revealLoop, revealStep_stops h]
    rfl

/-- A bare `OP_PUSHDATA1` raises. -/
theorem walks_bare : Walks [0x4C] (.error (.other "index out of range")) := by
  intro fuel hfuel
  cases fuel with
  | zero => cases hfuel
  | succ fuel => rfl

/-- A push cut short yields what is left of it. -/
theorem walks_cut {op : UInt8} {rest : Bytes} (hop : ¬ StopsWalk op)
    (h : readPush op rest = none)
    (hbare : ¬ (op = 0x4C ∧ rest = [])) : ∃ cut, Walks (op :: rest)
      (.ok [cut]) := by
  obtain ⟨cut, hstep⟩ := revealStep_cut hop h hbare
  refine ⟨cut, fun fuel hfuel => ?_⟩
  cases fuel with
  | zero => cases hfuel
  | succ fuel =>
    rw [revealLoop, hstep, ok_bind]
    cases fuel <;> rfl

/-- Complete pushes are read as they are, and the walk goes on. -/
theorem walks_pushes (hqs : ∀ q ∈ qs, q.op ≠ 0) (h : Walks tail r) :
    Walks (pushesBytes qs ++ tail) (r.map (qs.map DataPush.data ++ ·)) := by
  induction qs with
  | nil =>
    show Walks tail _
    cases r <;> exact h
  | cons q qs ih =>
    obtain ⟨hq, hqs⟩ := List.forall_mem_cons.mp hqs
    have hstop : ¬ StopsWalk q.op := not_or.mpr ⟨hq, UInt8.not_lt.mpr q.isPush⟩
    intro fuel hfuel
    rw [pushesBytes_cons] at hfuel ⊢
    cases fuel with
    | zero => cases hfuel
    | succ fuel =>
      rw [List.length_cons, List.length_append] at hfuel
      rw [revealLoop, revealStep_push hstop (readPush_bytes q _), ok_bind]
      dsimp only
      rw [ih hqs fuel (by omega)]
      cases r <;> rfl

/-- Whole pushes come first, and then the items of the rest. -/
theorem walks_pushes_ok {items : List Bytes} (hqs : ∀ q ∈ qs, q.op ≠ 0)
    (h : Walks tail (.ok items)) :
    Walks (pushesBytes qs ++ tail) (.ok (qs.map DataPush.data ++ items)) :=
  walks_pushes hqs h

/-- The checked walk reads the pushes of a script of pushes. -/
theorem pushLoop_pushes (qs : List DataPush) :
    ∀ fuel, (pushesBytes qs).length ≤ fuel →
    pushLoop fuel (pushesBytes qs) = some (qs.map DataPush.data) := by
  induction qs with
  | nil =>
    intro fuel _
    cases fuel <;> rfl
  | cons q qs ih =>
    intro fuel hfuel
    have hcons := pushesBytes_cons q qs []
    rw [List.append_nil, List.append_nil] at hcons
    rw [hcons] at hfuel ⊢
    cases fuel with
    | zero => cases hfuel
    | succ fuel =>
      rw [List.length_cons, List.length_append] at hfuel
      rw [pushLoop, pushStep_eq, readPush_bytes]
      show (pushLoop fuel (pushesBytes qs) >>=
        fun items => some (q.data :: items)) = _
      rw [ih fuel (by omega)]
      rfl

/-- And its head is no `OP_RETURN`. -/
theorem head_pushes (qs : List DataPush) :
    (pushesBytes qs).head? ≠ some 0x6A := by
  cases qs with
  | nil => nofun
  | cons q qs =>
    intro h
    have hop : q.op = 0x6A := Option.some.inj h
    exact absurd q.isPush (by rw [hop]; decide)

/-- The walk comes to an `OP_PUSHDATA1` that is the last byte of the script. -/
def EndsBare (code : Bytes) : Prop :=
  ∃ qs : List DataPush, (∀ q ∈ qs, q.op ≠ 0) ∧ code = pushesBytes qs ++ [0x4C]

/-- So the walk raises behind pushes that end in a bare one. -/
theorem walks_endsBare {code : Bytes} (h : EndsBare code) :
    Walks code (.error (.other "index out of range")) := by
  obtain ⟨qs, hqs, rfl⟩ := h
  exact walks_pushes hqs walks_bare

/-- A script in the pushes that the unchecked walk reads, and what ends it. -/
theorem exists_walk (code : Bytes) : ∃ qs tail, code = pushesBytes qs ++ tail ∧
    (∀ q ∈ qs, q.op ≠ 0) ∧
    (Walks tail (.ok []) ∨ tail = [0x4C] ∨
      ∃ op rest cut, tail = op :: rest ∧ ¬ StopsWalk op ∧
        readPush op rest = none ∧ Walks tail (.ok [cut])) := by
  obtain ⟨qs, tail, rfl, hqs, htail⟩ := exists_pushes StopsWalk code
  refine ⟨qs, tail, rfl, fun q hq h0 => hqs q hq (.inl h0), ?_⟩
  cases tail with
  | nil => exact .inl walks_nil
  | cons op rest =>
    by_cases hop : StopsWalk op
    · exact .inl (walks_stops hop)
    · have hread := (htail op rest rfl).resolve_left hop
      by_cases hbare : op = 0x4C ∧ rest = []
      · exact .inr (.inl (by rw [hbare.1, hbare.2]))
      · obtain ⟨cut, hcut⟩ := walks_cut hop hread hbare
        exact .inr (.inr ⟨op, rest, cut, rfl, hop, hread, hcut⟩)

theorem walks_of_not_endsBare {code : Bytes} (h : ¬ EndsBare code) :
    ∃ items, Walks code (.ok items) := by
  obtain ⟨qs, tail, rfl, hqs, hend | rfl | ⟨op, rest, cut, rfl, -, -, hcut⟩⟩ :=
    exists_walk code
  · exact ⟨_, walks_pushes hqs hend⟩
  · exact absurd ⟨qs, hqs, rfl⟩ h
  · exact ⟨_, walks_pushes hqs hcut⟩

end Walk

/-! ## The marker -/

section Marker

variable {lib : CborObjects} {items : List Bytes} {c suffix code : Bytes}

/-- The item behind the first marker. -/
theorem afterMarker_append {before items : List Bytes}
    (h : glyMarker ∉ before) :
    afterMarker (before ++ glyMarker :: c :: items) = some c := by
  induction before with
  | nil => exact if_pos rfl
  | cons item before ih =>
    obtain ⟨hne, hbefore⟩ := not_or.mp (mt List.mem_cons.mpr h)
    cases before with
    | nil =>
      show (if item = glyMarker then _
        else afterMarker (glyMarker :: c :: items)) = _
      rw [if_neg (Ne.symm hne)]
      exact ih hbefore
    | cons next before =>
      show (if item = glyMarker then _
        else afterMarker (next :: before ++ glyMarker :: c :: items)) = _
      rw [if_neg (Ne.symm hne)]
      exact ih hbefore

/-- What is behind a marker was preceded by none. -/
theorem afterMarker_some (h : afterMarker items = some c) :
    ∃ before rest, items = before ++ glyMarker :: c :: rest ∧
    glyMarker ∉ before := by
  induction items with
  | nil => cases h
  | cons item items ih =>
    cases items with
    | nil => cases h
    | cons next items =>
      unfold afterMarker at h
      split at h
      · rename_i hmarker
        cases h
        exact ⟨[], items, by rw [hmarker]; rfl, List.not_mem_nil⟩
      · rename_i hne
        obtain ⟨before, rest, hitems, hbefore⟩ := ih h
        exact ⟨item :: before,
          rest, by rw [hitems]; rfl, mt List.mem_cons.mp (not_or.mpr
          ⟨Ne.symm hne, hbefore⟩)⟩

/-- A marker with nothing behind it. -/
theorem afterMarker_last {before : List Bytes} (h : glyMarker ∉ before) :
    afterMarker (before ++ [glyMarker]) = none := by
  cases hsome : afterMarker (before ++ [glyMarker]) with
  | none => rfl
  | some c =>
    obtain ⟨front, rest, hsplit, -⟩ := afterMarker_some hsome
    -- the only marker is the last of all
    have hmem : glyMarker ∈ before := by
      have hinit := congrArg List.dropLast hsplit
      rw [List.dropLast_concat,
        List.dropLast_append_of_ne_nil (List.cons_ne_nil _ _)] at hinit
      rw [hinit]
      exact List.mem_append_right _ List.mem_cons_self
    exact absurd hmem h

/-- The extractor decodes the item behind the marker. -/
theorem extract_of_items (h : revealItems code = .ok items) :
    extractRevealMetadata lib code = (afterMarker items).bind fun c =>
      (decodePayload lib c).toOption := by
  unfold extractRevealMetadata parseRevealScriptsig
  rw [h]
  cases hmarker : afterMarker items with
  | none =>
    simp only [Except.mapError, bind, Except.bind, hmarker]
    rfl
  | some c =>
    simp only [Except.mapError, bind, Except.bind, hmarker]
    show _ = (decodePayload lib c).toOption
    cases decodePayload lib c <;> rfl

theorem extract_of_raises {e : PyErr} (h : revealItems code = .error e) :
    extractRevealMetadata lib code = none := by
  unfold extractRevealMetadata parseRevealScriptsig
  rw [h]
  rfl

/-- The push of the marker. -/
def markerPush : DataPush := ⟨0x03, glyMarker, by decide, rfl⟩

/-- The suffix of an empty payload. -/
theorem suffix_empty (h : buildRevealScriptsigSuffix [] = .ok suffix) :
    suffix = pushesBytes [markerPush] ++ [0x00] := by
  cases h
  rfl

/-- The suffix is the push of the marker and a push of the payload. -/
theorem suffix_payload (h : buildRevealScriptsigSuffix c = .ok suffix)
    (hne : c ≠ []) :
    ∃ payload : DataPush, payload.op ≠ 0 ∧ payload.data = c ∧
    suffix = pushesBytes [markerPush, payload] := by
  have hpos := List.length_pos_of_ne_nil hne
  have hbytes : ∀ q : DataPush, pushesBytes [markerPush, q] =
      0x03 :: glyMarker ++ q.bytes := fun q => by
    show markerPush.bytes ++ (q.bytes ++ []) = _
    rw [List.append_nil]
    rfl
  rw [buildRevealScriptsigSuffix] at h
  -- each width of the push is one the walk reads
  by_cases h75 : c.length ≤ 75
  · have hnat : (UInt8.ofNat c.length).toNat = c.length := by
      rw [UInt8.toNat_ofNat']
      omega
    have hle : UInt8.ofNat c.length ≤ 0x4E :=
      show (UInt8.ofNat c.length).toNat ≤ 78 by omega
    rw [if_pos h75, Except.ok.injEq] at h
    refine ⟨⟨UInt8.ofNat c.length, c,
      hle, by rw [if_pos (by omega)]; exact hnat.symm⟩, fun h0 => ?_, rfl, ?_⟩
    · have h0 : UInt8.ofNat c.length = 0 := h0
      rw [h0] at hnat
      exact absurd hnat (Nat.ne_of_lt hpos)
    · rw [hbytes, ← h]
      show _ = 0x03 :: glyMarker ++ (UInt8.ofNat c.length ::
        (leBytes (lengthWidth (UInt8.ofNat c.length)) c.length ++ c))
      rw [lengthWidth_of_le (by omega)]
      rfl
  · rw [if_neg h75] at h
    by_cases h255 : c.length ≤ 255
    · rw [if_pos h255, Except.ok.injEq] at h
      have hfits : c.length < 256 := by omega
      refine ⟨⟨0x4C, c, by decide, hfits⟩,
        (by decide : (0x4C : UInt8) ≠ 0), rfl, ?_⟩
      rw [hbytes, ← h]
      rfl
    · rw [if_neg h255] at h
      by_cases h65535 : c.length ≤ 65535
      · rw [if_pos h65535, Except.ok.injEq] at h
        have hfits : c.length < 256 ^ 2 := by omega
        refine ⟨⟨0x4D, c, by decide, hfits⟩,
          (by decide : (0x4D : UInt8) ≠ 0), rfl, ?_⟩
        rw [hbytes, ← h]
        rfl
      · rw [if_neg h65535] at h
        by_cases hmax : c.length ≤ maxCborPayloadBytes
        · rw [if_pos hmax, Except.ok.injEq] at h
          have hfits : c.length < 256 ^ 4 := Nat.lt_of_le_of_lt hmax (by decide)
          refine ⟨⟨0x4E, c, by decide, hfits⟩,
            (by decide : (0x4E : UInt8) ≠ 0), rfl, ?_⟩
          rw [hbytes, ← h]
          rfl
        · rw [if_neg hmax] at h
          cases h

end Marker

/-! ## What is seen from outside -/

/-- `metadata` is in the script as it should be: a complete push of the marker
and, behind it, a complete push of its payload. -/
def Pushed (lib : CborObjects) (scriptsig : Bytes)
    (metadata : GlyphMetadata) : Prop :=
  ∃ (before : List DataPush) (marker payload : DataPush) (rest : Bytes),
    scriptsig = pushesBytes (before ++ [marker, payload]) ++ rest ∧
      marker.data = glyMarker ∧
      decodePayload lib payload.data = .ok metadata

/-- The push behind the first marker is cut short by the end of the script. -/
def CutPayload (scriptsig : Bytes) : Prop :=
  ∃ (before : List DataPush) (marker : DataPush) (op : UInt8) (rest : Bytes),
    scriptsig = pushesBytes (before ++ [marker]) ++ op :: rest ∧
      marker.data = glyMarker ∧
      (∀ q ∈ before, q.op ≠ 0 ∧ q.data ≠ glyMarker) ∧ ¬ StopsWalk op ∧
        readPush op rest = none

section Seen

variable {lib : CborObjects} {pre : List DataPush}
  {c suffix rest scriptsig : Bytes} {metadata : GlyphMetadata}

/-- Pushes of other data leave the marker out. -/
theorem not_mem_data {qs : List DataPush} (h : ∀ q ∈ qs, q.data ≠ glyMarker) :
    glyMarker ∉ qs.map DataPush.data := by
  intro hmem
  obtain ⟨q, hq, hdata⟩ := List.mem_map.mp hmem
  exact h q hq hdata

/-- A push of some data does not open with zero. -/
theorem op_ne_zero {q : DataPush} (h : q.data ≠ []) : q.op ≠ 0 := by
  intro h0
  have hfits := q.fits
  rw [h0] at hfits
  exact h (List.length_eq_zero_iff.mp hfits)

/-- A reveal is read, unless the walk runs into a bare `OP_PUSHDATA1` behind
it. -/
theorem extract_suffix (hempty : ∃ e, lib.loads [] = .error e)
    (hpre : ∀ q ∈ pre, q.data ≠ [] ∧ q.data ≠ glyMarker)
    (hsuffix : buildRevealScriptsigSuffix c = .ok suffix) :
    extractRevealMetadata lib (pushesBytes pre ++ suffix ++ rest) =
      (decodePayload lib c).toOption ↔
      ¬ (EndsBare rest ∧ ∃ metadata, decodePayload lib c = .ok metadata) := by
  have hmarker : glyMarker ∉ pre.map DataPush.data :=
    not_mem_data fun q hq => (hpre q hq).2
  have hops : ∀ q ∈ pre, q.op ≠ 0 := fun q hq => op_ne_zero (hpre q hq).1
  by_cases hc : c = []
  · -- the payload is `OP_0`, which ends the walk, and no payload is no map
    have hraises : ∃ e, decodePayload lib c = .error e := by
      obtain ⟨e, he⟩ := hempty
      rw [hc, decodePayload, rejectIf, if_neg (by decide)]
      cases e <;> exact ⟨_, by rw [loadDict, he]; rfl⟩
    obtain ⟨e, he⟩ := hraises
    rw [hc] at hsuffix
    have hscript : pushesBytes pre ++ suffix ++
        rest = pushesBytes (pre ++ [markerPush]) ++ 0x00 :: rest := by
      rw [suffix_empty hsuffix, pushesBytes_append, List.append_assoc,
        List.append_assoc, List.append_assoc]
      rfl
    have hall : ∀ q ∈ pre ++ [markerPush], q.op ≠ 0 :=
      List.forall_mem_append.mpr ⟨hops,
        List.forall_mem_singleton.mpr (by decide)⟩
    have hitems : (pre ++ [markerPush]).map DataPush.data ++
        [] = pre.map DataPush.data ++ [glyMarker] := by
      rw [List.append_nil, List.map_append]
      rfl
    rw [hscript, extract_of_items (walks_pushes_ok hall
      (walks_stops (.inl rfl))).items, hitems, afterMarker_last hmarker, he]
    refine ⟨fun _ h => ?_, fun _ => rfl⟩
    obtain ⟨m, hm⟩ := h.2
    cases hm
  · obtain ⟨payload, hop, rfl, rfl⟩ := suffix_payload hsuffix hc
    have hscript : pushesBytes pre ++ pushesBytes [markerPush,
      payload] ++ rest =
        pushesBytes (pre ++ [markerPush, payload]) ++
          rest := by rw [pushesBytes_append]
    have hall : ∀ q ∈ pre ++ [markerPush, payload], q.op ≠ 0 := by
      refine List.forall_mem_append.mpr ⟨hops,
        List.forall_mem_cons.mpr ⟨by decide, ?_⟩⟩
      exact List.forall_mem_singleton.mpr hop
    rw [hscript]
    by_cases hbare : EndsBare rest
    · rw [extract_of_raises (walks_pushes hall (walks_endsBare hbare)).items]
      cases decodePayload lib payload.data with
      | error e =>
        refine ⟨fun _ h => ?_, fun _ => rfl⟩
        obtain ⟨m, hm⟩ := h.2
        cases hm
      | ok m => exact ⟨fun h => (by cases h), fun h => absurd ⟨hbare, m, rfl⟩ h⟩
    · obtain ⟨items, hitems⟩ := walks_of_not_endsBare hbare
      have hlist : (pre ++ [markerPush, payload]).map DataPush.data ++ items =
          pre.map DataPush.data ++ glyMarker :: payload.data :: items := by
        rw [List.map_append, List.append_assoc]
        rfl
      rw [extract_of_items (walks_pushes_ok hall hitems).items, hlist,
        afterMarker_append hmarker]
      exact ⟨fun _ h => hbare h.1, fun _ => rfl⟩

/-- A decoded item stood behind the marker. -/
theorem decoded_some {items : List Bytes}
    (h : ((afterMarker items).bind fun c => (decodePayload lib c).toOption) =
      some metadata) :
    ∃ c, afterMarker items = some c ∧ decodePayload lib c = .ok metadata := by
  obtain ⟨c, hc, hdecode⟩ := Option.bind_eq_some_iff.mp h
  refine ⟨c, hc, ?_⟩
  cases hd : decodePayload lib c with
  | error e =>
    rw [hd] at hdecode
    cases hdecode
  | ok m =>
    rw [hd] at hdecode
    cases hdecode
    rfl

/-- What the walk decodes was pushed there. -/
theorem pushed_of_data {qs : List DataPush} {tail : Bytes}
    {before after : List Bytes}
    (h : qs.map DataPush.data = before ++ glyMarker :: c :: after)
    (hdecode : decodePayload lib c = .ok metadata) :
    Pushed lib (pushesBytes qs ++ tail) metadata := by
  obtain ⟨first, more, rfl, -, hmore⟩ := List.map_eq_append_iff.mp h
  obtain ⟨marker, more, rfl, hmarker, hmore⟩ := List.map_eq_cons_iff.mp hmore
  obtain ⟨payload, more, rfl, hpayload, -⟩ := List.map_eq_cons_iff.mp hmore
  refine ⟨first, marker, payload, pushesBytes more ++ tail, ?_,
    hmarker, by rw [hpayload]; exact hdecode⟩
  rw [← List.append_assoc, ← pushesBytes_append, List.append_assoc]
  rfl

/-- Metadata that is found was pushed, unless the payload is cut short. -/
theorem extract_pushed (h : extractRevealMetadata lib scriptsig =
      some metadata) :
    Pushed lib scriptsig metadata ↔ ¬ CutPayload scriptsig := by
  constructor
  · rintro ⟨before, marker, payload, after, hpushed, hmarker, -⟩ ⟨first, last,
      op, rest, hcut, -, hfirst, -, hread⟩
    -- the pushes of the script are those up to the cut, and the marker is the
    -- last of them
    have hstuck : Stuck (op :: rest) := by
      intro op' rest' heq
      rw [← (List.cons.inj heq).1, ← (List.cons.inj heq).2, hread]
    rw [hpushed] at hcut
    obtain ⟨t, ht⟩ := pushes_prefix hcut hstuck
    have hmem : marker ∈ first := by
      have hinit := congrArg List.dropLast ht
      rw [List.dropLast_concat, List.append_assoc,
        List.dropLast_append_of_ne_nil (by exact List.cons_ne_nil _ _)] at hinit
      rw [← hinit]
      exact List.mem_append_right _ List.mem_cons_self
    exact (hfirst marker hmem).2 hmarker
  · intro hcut
    obtain ⟨qs, tail, rfl, hqs, hend | rfl | ⟨op, rest, cut, rfl, hop, hread,
        hwalk⟩⟩ := exists_walk scriptsig
    · rw [extract_of_items (walks_pushes_ok hqs hend).items, List.append_nil] at h
      obtain ⟨c, hc, hdecode⟩ := decoded_some h
      obtain ⟨before, after, hitems, -⟩ := afterMarker_some hc
      exact pushed_of_data hitems hdecode
    · rw [extract_of_raises (walks_pushes hqs walks_bare).items] at h
      cases h
    · rw [extract_of_items (walks_pushes_ok hqs hwalk).items] at h
      obtain ⟨c, hc, hdecode⟩ := decoded_some h
      obtain ⟨before, after, hitems, hbefore⟩ := afterMarker_some hc
      rcases List.eq_nil_or_concat after with rfl | ⟨after, last, rfl⟩
      · -- the payload is the cut one
        have hdata : qs.map DataPush.data = before ++ [glyMarker] := by
          have hinit := congrArg List.dropLast hitems
          rwa [List.dropLast_concat,
            List.dropLast_append_of_ne_nil (List.cons_ne_nil _ _)] at hinit
        obtain ⟨first, final, rfl, hfirst, hfinal⟩ :=
          List.map_eq_append_iff.mp hdata
        obtain ⟨marker, rfl, hgly⟩ := List.map_eq_singleton_iff.mp hfinal
        refine absurd ⟨first, marker, op, rest, rfl, hgly, fun q hq => ⟨?_, ?_⟩,
          hop, hread⟩ hcut
        · exact hqs q (List.mem_append_left _ hq)
        · intro hearlier
          exact hbefore (by rw [← hfirst, ← hearlier]; exact List.mem_map_of_mem hq)
      · have hdata : qs.map DataPush.data =
            before ++ glyMarker :: c :: after := by
          have hconcat : before ++ glyMarker :: c :: after.concat last =
              (before ++ glyMarker :: c :: after) ++ [last] := by
            rw [List.concat_eq_append, List.append_assoc]
            rfl
          have hinit := congrArg List.dropLast hitems
          rwa [hconcat, List.dropLast_concat, List.dropLast_concat] at hinit
        exact pushed_of_data hdata hdecode

/-- On a script of pushes the checked walkers read all of them, and the other
all up to an `OP_0`. -/
theorem walks_agree (qs : List DataPush) :
    scriptsigPushes (pushesBytes qs) = some (qs.map DataPush.data) ∧
    walkPushdata (pushesBytes qs) = qs.map DataPush.data ∧
    (revealItems (pushesBytes qs) = .ok (qs.map DataPush.data) ↔
      ∀ q ∈ qs, q.op ≠ 0) := by
  have hchecked := pushLoop_pushes qs _ (Nat.le_refl _)
  refine ⟨hchecked, ?_, ?_, ?_⟩
  · rw [walkPushdata, if_neg (head_pushes qs), hchecked, Option.getD_some]
  · intro h q hq h0
    -- the pushes in front of the first `OP_0` are all that is read
    obtain ⟨zero, front, after, hfront, hzero, hsplit, -⟩ :=
      List.exists_of_eraseP (p := fun q : DataPush => decide (q.op = 0)) hq
        (decide_eq_true h0)
    have hops : ∀ p ∈ front, p.op ≠ 0 :=
      fun p hp h => hfront p hp (decide_eq_true h)
    have hwalk : Walks (pushesBytes qs) (.ok (front.map DataPush.data)) := by
      have hstop : StopsWalk zero.op := .inl (of_decide_eq_true hzero)
      have hcons := pushesBytes_cons zero after []
      rw [List.append_nil, List.append_nil] at hcons
      rw [hsplit, pushesBytes_append, hcons]
      have hend : Walks (zero.op :: (zero.body ++ pushesBytes after))
          (.ok []) := walks_stops hstop
      have hfirst := walks_pushes_ok hops hend
      rwa [List.append_nil] at hfirst
    rw [hwalk.items, Except.ok.injEq] at h
    have hlen := congrArg List.length h
    rw [List.length_map, List.length_map, hsplit, List.length_append,
      List.length_cons] at hlen
    omega
  · intro h
    have hwalk := walks_pushes_ok h walks_nil
    rw [List.append_nil, List.append_nil] at hwalk
    exact hwalk.items

end Seen

/-- **What the walkers see of a reveal**: the payload behind the marker, unless
the walk runs into a bare `OP_PUSHDATA1`; nothing else, unless that payload is
cut short; and the same items, unless one is an `OP_0`. -/
theorem reveal_walk_iff (lib : CborObjects)
    (hempty : ∃ e, lib.loads [] = .error e) :
    (∀ (pre : List DataPush) (c suffix rest : Bytes), (∀ q ∈ pre, q.data ≠ [] ∧
      q.data ≠ glyMarker) → buildRevealScriptsigSuffix c = .ok suffix →
        (extractRevealMetadata lib (pushesBytes pre ++ suffix ++ rest) =
          (decodePayload lib c).toOption ↔
          ¬ (EndsBare rest ∧ ∃ metadata, decodePayload lib c = .ok metadata))) ∧
    (∀ scriptsig metadata, extractRevealMetadata lib scriptsig = some metadata →
      (Pushed lib scriptsig metadata ↔ ¬ CutPayload scriptsig)) ∧
    ∀ qs : List DataPush, scriptsigPushes (pushesBytes qs) = some
      (qs.map DataPush.data) ∧
      walkPushdata (pushesBytes qs) = qs.map DataPush.data ∧
      (revealItems (pushesBytes qs) = .ok (qs.map DataPush.data) ↔
        ∀ q ∈ qs, q.op ≠ 0) :=
  ⟨fun _ _ _ _ => extract_suffix hempty, fun _ _ => extract_pushed, walks_agree⟩

/-- What `cbor2` makes of the payload of a plain NFT. -/
def nftObjects : CborObjects := knownMetadata nftPayload nftMetadata

/-- The sample library decodes the NFT payload. -/
theorem decode_nftPayload : decodePayload nftObjects nftPayload =
    .ok nftMetadata.readBack := by
  have hreadable : nftMetadata.Readable := by constructor <;> decide
  have hsize : (encodePayload nftObjects.toCbor2 nftMetadata).1.length ≤
      maxCborPayloadBytes := by decide
  exact (decode_encode readsBack_known).1 ⟨hsize, hreadable⟩

/-- The reveal of a plain NFT, behind a key. -/
theorem reveal_walk_nft :
    extractRevealMetadata nftObjects ([0x02, 0xAA, 0xBB] ++
      (0x03 :: glyMarker ++ 0x05 :: nftPayload)) =
      some nftMetadata.readBack := by
  have hempty : ∃ e, nftObjects.loads [] = .error e := ⟨_, rfl⟩
  have hpre : ∀ q ∈ [(⟨0x02, [0xAA, 0xBB], by decide, rfl⟩ : DataPush)],
      q.data ≠ [] ∧ q.data ≠ glyMarker :=
    List.forall_mem_singleton.mpr (by decide)
  have hbare : ¬ (EndsBare [] ∧
      ∃ metadata, decodePayload nftObjects nftPayload = .ok metadata) := by
    rintro ⟨⟨qs, -, h⟩, -⟩
    exact absurd h.symm (List.append_ne_nil_of_right_ne_nil _
      (List.cons_ne_nil _ _))
  have h :=
    ((reveal_walk_iff nftObjects hempty).1 _ nftPayload _ [] hpre rfl).mpr hbare
  rw [decode_nftPayload] at h
  exact h

/-- The length of the payload says one byte more than there is. -/
def cutReveal : Bytes := 0x03 :: glyMarker ++ 0x06 :: nftPayload

/-- **A payload that is cut short is read all the same**, an `OP_PUSHDATA1`
behind a reveal hides it, and of an `OP_0` only two walkers know. -/
theorem cut_reveal_read :
    (extractRevealMetadata nftObjects cutReveal = some nftMetadata.readBack ∧
      ¬ Pushed nftObjects cutReveal nftMetadata.readBack) ∧
    extractRevealMetadata nftObjects (0x03 :: glyMarker ++ 0x05 :: nftPayload ++
      [0x4C]) = none ∧
    (revealItems [0x00] = .ok [] ∧ scriptsigPushes [0x00] = some [[]]) := by
  have hitems : revealItems cutReveal = .ok [glyMarker, nftPayload] := by decide
  have hraises : revealItems (0x03 :: glyMarker ++
    0x05 :: nftPayload ++ [0x4C]) =
      .error (.other "index out of range") := by decide
  have hread : extractRevealMetadata nftObjects cutReveal =
      some nftMetadata.readBack := by
    rw [extract_of_items hitems]
    show (decodePayload nftObjects nftPayload).toOption = _
    rw [decode_nftPayload]
    rfl
  have hcut : CutPayload cutReveal :=
    ⟨[], markerPush, 0x06, nftPayload, rfl, rfl,
      List.forall_mem_nil _, by decide, by decide⟩
  exact ⟨⟨hread, fun hpushed => (extract_pushed hread).mp hpushed hcut⟩,
    extract_of_raises hraises, by decide, by decide⟩

end Pyrxd.Glyph
