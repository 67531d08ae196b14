import Pyrxd.Lib.Bytes

/-!
# The transaction wire format

The grammar every transaction walker reads: little-endian fixed-width fields,
CompactSize counts and lengths, length-prefixed scripts, and an optional witness
section announced by a marker and a flag. A `WireTx` is one sentence of that
grammar, with each CompactSize in the form it has on the wire — shortest or not
— so `WireTx.bytes` gives back exactly the string that was read.

Nothing here parses. A walker is related to the grammar by a lemma of its own:
what it accepts is `w.bytes` for some `w`, and its answer is read off `w`.
-/

namespace Pyrxd.Lib

/-! ## Splitting a string at a known length -/

theorem eq_append_iff {b x rest : Bytes} {k : Nat} :
    (k ≤ b.length ∧ b.take k = x ∧ b.drop k = rest) ↔
    b = x ++ rest ∧ x.length = k := by
  constructor
  · intro h
    obtain ⟨hk, hx, hr⟩ := h
    subst hx hr
    exact ⟨(List.take_append_drop k b).symm, List.length_take_of_le hk⟩
  · intro h
    obtain ⟨rfl, rfl⟩ := h
    refine ⟨?_, List.take_left, List.drop_left⟩
    rw [List.length_append]
    omega

/-- A field of exactly `n` bytes. -/
abbrev Fixed (n : Nat) := { b : Bytes // b.length = n }

/-- The number a field holds. -/
def Fixed.nat {n : Nat} (f : Fixed n) : Nat := leNat f.val

/-- `v` as a field of `n` bytes. -/
def Fixed.ofNat (n v : Nat) : Fixed n := ⟨leBytes n v, length_leBytes n v⟩

/-! ## CompactSize -/

/-- The four shapes of a CompactSize, by the number of bytes after the first. -/
inductive CompactForm where
  | one
  | two
  | four
  | eight
deriving DecidableEq, Repr

namespace CompactForm

/-- The prefix byte and the width of the number after it. -/
def tag : CompactForm → UInt8
  | one => 0
  | two => 0xFD
  | four => 0xFE
  | eight => 0xFF

def width : CompactForm → Nat
  | one => 0
  | two => 2
  | four => 4
  | eight => 8

/-- The largest value the shape can hold, plus one. -/
def bound : CompactForm → Nat
  | one => 0xFD
  | two => 256 ^ 2
  | four => 256 ^ 4
  | eight => 256 ^ 8

/-- The smallest value for which the shape is the shortest one. -/
def least : CompactForm → Nat
  | one => 0
  | two => 0xFD
  | four => 0x10000
  | eight => 0x100000000

/-- The shortest shape for a value. -/
def shortest (n : Nat) : CompactForm :=
  if n < 0xFD then one else if n ≤ 0xFFFF then two
    else if n ≤ 0xFFFFFFFF then four else eight

end CompactForm

/-- The bytes of `n` in the shape `form`. -/
def compactIn (form : CompactForm) (n : Nat) : Bytes :=
  match form with
  | .one => [UInt8.ofNat n]
  | form => form.tag :: leBytes form.width n

/-- The shortest CompactSize of `n`. -/
def compactBytes (n : Nat) : Bytes := compactIn (CompactForm.shortest n) n

/-- A CompactSize as it stands on the wire. -/
structure Compact where
  value : Nat
  form : CompactForm
  fits : value < form.bound
deriving DecidableEq

namespace Compact

def bytes (c : Compact) : Bytes := compactIn c.form c.value

/-- A compact size is below `2^64`. -/
theorem value_lt (c : Compact) : c.value < 256 ^ 8 :=
  Nat.lt_of_lt_of_le c.fits (by cases c.form <;> decide)

/-- In its shortest form. -/
def Canonical (c : Compact) : Prop := c.form.least ≤ c.value

instance (c : Compact) : Decidable c.Canonical :=
  inferInstanceAs (Decidable (_ ≤ _))

/-- A canonical size has its shortest form. -/
theorem shortest_of_canonical {c : Compact} (h : c.Canonical) :
    CompactForm.shortest c.value = c.form := by
  have hf := c.fits
  unfold Canonical at h
  unfold CompactForm.shortest
  cases hc : c.form with
  | one => rw [hc] at hf; exact if_pos hf
  | two =>
    rw [hc] at h hf
    simp only [CompactForm.least, CompactForm.bound] at h hf
    rw [if_neg (by omega), if_pos (by omega)]
  | four =>
    rw [hc] at h hf
    simp only [CompactForm.least, CompactForm.bound] at h hf
    rw [if_neg (by omega), if_neg (by omega), if_pos (by omega)]
  | eight =>
    rw [hc] at h
    simp only [CompactForm.least] at h
    rw [if_neg (by omega), if_neg (by omega), if_neg (by omega)]

/-- A canonical CompactSize is the shortest encoding of its value. -/
theorem bytes_of_canonical {c : Compact} (h : c.Canonical) :
    c.bytes = compactBytes c.value := by
  rw [compactBytes, shortest_of_canonical h]
  rfl

theorem shortest_bound {n : Nat} (h : n < 256 ^ 8) :
    n < (CompactForm.shortest n).bound := by
  unfold CompactForm.shortest
  split
  · assumption
  · split
    · simp only [CompactForm.bound]; omega
    · split
      · simp only [CompactForm.bound]; omega
      · exact h

/-- `n` in its shortest form. -/
def ofNat (n : Nat) (h : n < 256 ^ 8) : Compact :=
  ⟨n, CompactForm.shortest n, shortest_bound h⟩

/-- The bytes of a number's compact size. -/
theorem bytes_ofNat {n : Nat} (h : n < 256 ^ 8) :
    (ofNat n h).bytes = compactBytes n := rfl

theorem canonical_ofNat {n : Nat} (h : n < 256 ^ 8) :
    (ofNat n h).Canonical := by
  show (CompactForm.shortest n).least ≤ n
  unfold CompactForm.shortest
  split
  · exact Nat.zero_le n
  · split
    · simp only [CompactForm.least]; omega
    · split
      · simp only [CompactForm.least]; omega
      · simp only [CompactForm.least]; omega

/-- A value and a shape make one CompactSize. -/
theorem ext {c d : Compact} (hv : c.value = d.value)
    (hf : c.form = d.form) : c = d := by
  cases c
  cases d
  simp only at hv hf
  subst hv hf
  rfl

/-- The first byte tells the shape. -/
theorem bytes_cons (c : Compact) :
    ∃ t, c.bytes = UInt8.ofNat (if c.form = .one then c.value
    else c.form.tag.toNat) :: t ∧ t.length = c.form.width := by
  obtain ⟨v, f, hf⟩ := c
  cases f with
  | one => exact ⟨[], rfl, rfl⟩
  | two => exact ⟨leBytes 2 v, rfl, rfl⟩
  | four => exact ⟨leBytes 4 v, rfl, rfl⟩
  | eight => exact ⟨leBytes 8 v, rfl, rfl⟩

/-- A tag and the width of its form. -/
theorem length_bytes (c : Compact) : c.bytes.length = 1 + c.form.width := by
  obtain ⟨t, ht, hlen⟩ := c.bytes_cons
  rw [ht, List.length_cons, hlen, Nat.add_comm]

/-- A count that is not zero does not start with a zero byte. -/
theorem head_ne_zero {c : Compact} (h : c.value ≠ 0) :
    ∀ t, c.bytes ≠ 0 :: t := by
  obtain ⟨v, f, hf⟩ := c
  intro t ht
  cases f with
  | one =>
    have hv : UInt8.ofNat v = 0 := (List.cons.inj ht).1
    have hn := congrArg UInt8.toNat hv
    rw [UInt8.toNat_ofNat'] at hn
    simp only [CompactForm.bound] at hf h
    rw [Nat.mod_eq_of_lt (by omega)] at hn
    exact h hn
  | two =>
    exact absurd (show (0xFD : UInt8) = 0 from (List.cons.inj ht).1) (by decide)
  | four =>
    exact absurd (show (0xFE : UInt8) = 0 from (List.cons.inj ht).1) (by decide)
  | eight =>
    exact absurd (show (0xFF : UInt8) = 0 from (List.cons.inj ht).1) (by decide)

/-- A small first byte is the value itself. -/
theorem of_head {c : Compact} (h : (c.bytes.headD 0).toNat < 0xFD) :
    c.value = (c.bytes.headD 0).toNat ∧ c.bytes.length = 1 := by
  obtain ⟨v, f, hf⟩ := c
  cases f with
  | one =>
    refine ⟨?_, rfl⟩
    show v = (UInt8.ofNat v).toNat
    rw [UInt8.toNat_ofNat', Nat.mod_eq_of_lt (Nat.lt_trans hf (by decide))]
  | two => exact absurd h (by decide : ¬ (0xFD : UInt8).toNat < 0xFD)
  | four => exact absurd h (by decide : ¬ (0xFE : UInt8).toNat < 0xFD)
  | eight => exact absurd h (by decide : ¬ (0xFF : UInt8).toNat < 0xFD)

/-- In shortest form, zero is the zero byte. -/
theorem head_eq_zero_iff {c : Compact} (h : c.Canonical) : c.bytes.headD 0 = 0 ↔
    c.value = 0 := by
  constructor
  · intro hz
    have hv := (of_head (c := c) (by rw [hz]; decide)).1
    rw [hz] at hv
    exact hv
  · intro hv
    rw [bytes_of_canonical h, hv]
    rfl

end Compact

/-! ## Reading a CompactSize

Every walker reads its counts the same way up to what it does with a form that is not the
shortest. `Compact.parse` is that reading on its own; the walkers' readers are compared
with it. -/

namespace CompactForm

/-- The shape a prefix byte announces. -/
def ofTag (x : UInt8) : CompactForm :=
  if x.toNat < 0xFD then one else if x = 0xFD then two
    else if x = 0xFE then four else eight

/-- A form is bounded by its width. -/
theorem bound_of_width {f : CompactForm} (h : f ≠ one) :
    256 ^ f.width = f.bound := by
  cases f with
  | one => exact absurd rfl h
  | two => rfl
  | four => rfl
  | eight => rfl

/-- A small tag is the number itself. -/
theorem ofTag_eq_one {x : UInt8} : ofTag x = one ↔ x.toNat < 0xFD := by
  unfold ofTag
  split
  · next h => exact ⟨fun _ => h, fun _ => rfl⟩
  · next h =>
    refine ⟨fun he => ?_, fun hx => absurd hx h⟩
    split at he
    · cases he
    · split at he <;> cases he

/-- A prefix byte is the tag of the shape it announces. -/
theorem tag_ofTag {x : UInt8} (h : ofTag x ≠ one) : (ofTag x).tag = x := by
  have hx : ¬ x.toNat < 0xFD := fun hx => h (ofTag_eq_one.mpr hx)
  unfold ofTag
  rw [if_neg hx]
  split
  · next h2 => exact h2.symm
  · next h2 =>
    split
    · next h4 => exact h4.symm
    · next h4 =>
      -- only `0xFF` is left
      have hlt := x.toNat_lt
      have hne2 : x.toNat ≠ 253 := fun he => h2 (UInt8.toNat_inj.mp he)
      have hne4 : x.toNat ≠ 254 := fun he => h4 (UInt8.toNat_inj.mp he)
      apply UInt8.toNat_inj.mp
      show 255 = x.toNat
      omega

/-- The width the readers look up for a prefix byte. -/
theorem width_ofTag {v : UInt8} (h : ¬ v.toNat < 0xFD) :
    (if v.toNat = 0xFD then 2 else if v.toNat = 0xFE then 4 else 8) =
      (ofTag v).width := by
  have h2 : v.toNat = 0xFD ↔ v = 0xFD := (UInt8.toNat_inj (b := 0xFD))
  have h4 : v.toNat = 0xFE ↔ v = 0xFE := (UInt8.toNat_inj (b := 0xFE))
  unfold ofTag
  rw [if_neg h]
  simp only [h2, h4]
  split
  · rfl
  · split <;> rfl

/-- Any other tag has bytes behind it. -/
theorem width_ofTag_pos {v : UInt8} (h : ¬ v.toNat < 0xFD) :
    0 < (ofTag v).width := by
  rw [← width_ofTag h]
  split
  · decide
  · split <;> decide

theorem ofTag_tag {f : CompactForm} (h : f ≠ one) : ofTag f.tag = f := by
  cases f with
  | one => exact absurd rfl h
  | two => rfl
  | four => rfl
  | eight => rfl

end CompactForm

namespace Compact

/-- The CompactSize at the head of a string. -/
def parse : Bytes → Option (Compact × Bytes)
  | [] => none
  | x :: b =>
    if hx : x.toNat < CompactForm.one.bound then some (⟨x.toNat, .one, hx⟩, b)
    else if h : (CompactForm.ofTag x).width ≤ b.length then
      some (⟨leNat (b.take (CompactForm.ofTag x).width), CompactForm.ofTag x, by
        have hne : CompactForm.ofTag x ≠ .one :=
          fun he => hx (CompactForm.ofTag_eq_one.mp he)
        rw [← CompactForm.bound_of_width hne]
        calc leNat (b.take (CompactForm.ofTag x).width)
            < 256 ^ (b.take (CompactForm.ofTag x).width).length := leNat_lt _
          _ = 256 ^ (CompactForm.ofTag x).width := by rw [List.length_take_of_le h]⟩,
        b.drop (CompactForm.ofTag x).width)
    else none

/-- In a longer shape, the tag and the number. -/
theorem bytes_tagged {c : Compact} (h : c.form ≠ .one) :
    c.bytes = c.form.tag :: leBytes c.form.width c.value := by
  obtain ⟨v, f, hf⟩ := c
  cases f with
  | one => exact absurd rfl h
  | two => rfl
  | four => rfl
  | eight => rfl

theorem parse_bytes (c : Compact) (rest : Bytes) :
    parse (c.bytes ++ rest) = some (c, rest) := by
  by_cases hone : c.form = .one
  · obtain ⟨v, f, hf⟩ := c
    simp only at hone
    subst hone
    have hv : (UInt8.ofNat v).toNat = v := by
      rw [UInt8.toNat_ofNat']
      simp only [CompactForm.bound] at hf
      omega
    show parse (UInt8.ofNat v :: rest) = _
    rw [parse, dif_pos (by rw [hv]; exact hf)]
    simp only [hv]
  · have htag : CompactForm.ofTag c.form.tag = c.form :=
      CompactForm.ofTag_tag hone
    have hbig : ¬ c.form.tag.toNat < CompactForm.one.bound := fun hlt =>
      hone (htag.symm.trans (CompactForm.ofTag_eq_one.mpr hlt))
    have hlen : (leBytes c.form.width c.value).length = c.form.width :=
      length_leBytes _ _
    rw [bytes_tagged hone, List.cons_append]
    rw [parse, dif_neg hbig,
      dif_pos (by rw [htag, List.length_append, hlen]; omega)]
    have htake : (leBytes c.form.width c.value ++
        rest).take (CompactForm.ofTag c.form.tag).width =
        leBytes c.form.width c.value := by
      rw [htag]
      exact List.take_left' hlen
    have hdrop : (leBytes c.form.width c.value ++
        rest).drop (CompactForm.ofTag c.form.tag).width =
        rest := by
      rw [htag]
      exact List.drop_left' hlen
    have hval : leNat (leBytes c.form.width c.value) = c.value :=
      leNat_leBytes (by rw [CompactForm.bound_of_width hone]; exact c.fits)
    rw [hdrop]
    exact congrArg (fun d => some (d, rest))
      (ext (by simp only [htake, hval]) htag)

/-- The three ways of reading: a value in one byte, ... -/
theorem parse_one {x : UInt8} {b : Bytes} (hx : x.toNat < 0xFD) :
    ∃ c, parse (x :: b) = some (c, b) ∧ c.value = x.toNat ∧ c.bytes = [x] ∧
      c.form = CompactForm.ofTag x := by
  refine ⟨⟨x.toNat, .one, hx⟩, dif_pos hx, rfl, ?_,
    (CompactForm.ofTag_eq_one.mpr hx).symm⟩
  show [UInt8.ofNat x.toNat] = [x]
  rw [UInt8.ofNat_toNat]

/-- ... a tag and a number, ... -/
theorem parse_tagged {x : UInt8} {b : Bytes} (hx : ¬ x.toNat < 0xFD)
    (hw : (CompactForm.ofTag x).width ≤ b.length) :
    ∃ c, parse (x :: b) = some (c, b.drop (CompactForm.ofTag x).width) ∧
      c.value = leNat (b.take (CompactForm.ofTag x).width) ∧
      c.bytes = x :: b.take (CompactForm.ofTag x).width ∧
        c.form = CompactForm.ofTag x := by
  have hne : CompactForm.ofTag x ≠ .one :=
    fun he => hx (CompactForm.ofTag_eq_one.mp he)
  have hlen : (b.take (CompactForm.ofTag x).width).length =
      (CompactForm.ofTag x).width :=
    List.length_take_of_le hw
  refine ⟨_, (dif_neg hx).trans (dif_pos hw), rfl, ?_, rfl⟩
  rw [bytes_tagged hne]
  show (CompactForm.ofTag x).tag :: leBytes _ _ = _
  rw [CompactForm.tag_ofTag hne]
  conv_rhs => rw [← leBytes_leNat (b.take (CompactForm.ofTag x).width), hlen]

/-- ... and a tag whose number is cut off. -/
theorem parse_short {x : UInt8} {b : Bytes} (hx : ¬ x.toNat < 0xFD)
    (hw : ¬ (CompactForm.ofTag x).width ≤ b.length) : parse (x :: b) = none :=
  (dif_neg hx).trans (dif_neg hw)

theorem bytes_of_parse {b rest : Bytes} {c : Compact}
    (h : parse b = some (c, rest)) :
    b = c.bytes ++ rest := by
  cases b with
  | nil => cases h
  | cons x b =>
    by_cases hx : x.toNat < 0xFD
    · obtain ⟨d, hd, -, hbytes, -⟩ := parse_one (b := b) hx
      rw [hd, Option.some.injEq, Prod.mk.injEq] at h
      rw [← h.1, ← h.2, hbytes]
      rfl
    · by_cases hw : (CompactForm.ofTag x).width ≤ b.length
      · obtain ⟨d, hd, -, hbytes, -⟩ := parse_tagged hx hw
        rw [hd, Option.some.injEq, Prod.mk.injEq] at h
        rw [← h.1, ← h.2, hbytes, List.cons_append, List.take_append_drop]
      · rw [parse_short hx hw] at h
        cases h

/-- **Exactness.** What is read is what was written, and nothing else is
read. -/
theorem parse_eq_some {b rest : Bytes} {c : Compact} :
    parse b = some (c, rest) ↔ b = c.bytes ++ rest :=
  ⟨bytes_of_parse, fun h => h ▸ parse_bytes c rest⟩

/-- A CompactSize and what follows it are read off the string in one way. -/
theorem bytes_append_inj {c d : Compact} {r s : Bytes}
    (h : c.bytes ++ r = d.bytes ++ s) :
    c = d ∧ r = s := by
  have hc := parse_bytes c r
  rw [h, parse_bytes d s] at hc
  simp only [Option.some.injEq, Prod.mk.injEq] at hc
  exact ⟨hc.1.symm, hc.2.symm⟩

end Compact

/-! ## Length-prefixed strings and counted runs -/

/-- Bytes behind their length. -/
@[ext] structure Blob where
  size : Compact
  data : Bytes
  sized : data.length = size.value

def Blob.bytes (s : Blob) : Bytes := s.size.bytes ++ s.data

def Blob.Canonical (s : Blob) : Prop := s.size.Canonical

/-- A canonical blob is its length and its data. -/
theorem Blob.bytes_of_canonical {s : Blob} (h : s.Canonical) :
    s.bytes = compactBytes s.data.length ++ s.data := by
  rw [Blob.bytes, Compact.bytes_of_canonical h, s.sized]

/-- `b` behind its length in the shortest form. -/
def Blob.ofBytes (b : Bytes) (h : b.length < 256 ^ 8) : Blob :=
  ⟨Compact.ofNat b.length h, b, rfl⟩

/-- A spelling that can be read off the front of a string in one way only. -/
def Delimited {α : Type} (enc : α → Bytes) : Prop :=
  ∀ a b r s, enc a ++ r = enc b ++ s → a = b ∧ r = s

/-- Fields of one width are told apart. -/
theorem Fixed.delimited (n : Nat) : Delimited (fun f : Fixed n => f.val) := by
  intro a b r s h
  obtain ⟨hab, hrs⟩ := List.append_inj h (a.property.trans b.property.symm)
  exact ⟨Subtype.ext hab, hrs⟩

theorem Blob.delimited : Delimited Blob.bytes := by
  intro a b r s h
  rw [Blob.bytes, Blob.bytes, List.append_assoc, List.append_assoc] at h
  obtain ⟨hsize, h⟩ := Compact.bytes_append_inj h
  obtain ⟨hdata, hrs⟩ := List.append_inj h (by rw [a.sized, b.sized, hsize])
  exact ⟨Blob.ext hsize hdata, hrs⟩

/-- Items behind their number. -/
@[ext] structure WireRun (α : Type) where
  count : Compact
  items : List α
  counted : items.length = count.value

/-- The items back to back, each spelled by `enc`. -/
def WireRun.bytes {α : Type} (enc : α → Bytes) (r : WireRun α) : Bytes :=
  r.count.bytes ++ r.items.flatMap enc

theorem Delimited.flatMap {α : Type} {enc : α → Bytes} (hd : Delimited enc) :
    ∀ {l m : List α} {r s : Bytes}, l.length = m.length →
      l.flatMap enc ++ r = m.flatMap enc ++ s → l = m ∧ r = s := by
  intro l
  induction l with
  | nil =>
    intro m r s hlen h
    rw [List.eq_nil_of_length_eq_zero hlen.symm] at h ⊢
    exact ⟨rfl, h⟩
  | cons a l ih =>
    intro m r s hlen h
    obtain _ | ⟨b, m⟩ := m
    · cases hlen
    · rw [List.flatMap_cons, List.flatMap_cons, List.append_assoc,
        List.append_assoc] at h
      obtain ⟨hab, hrest⟩ := hd _ _ _ _ h
      obtain ⟨hlm, hrs⟩ := ih (Nat.succ.inj hlen) hrest
      exact ⟨by rw [hab, hlm], hrs⟩

theorem Delimited.run {α : Type} {enc : α → Bytes} (hd : Delimited enc) :
    Delimited (WireRun.bytes enc) := by
  intro a b r s h
  rw [WireRun.bytes, WireRun.bytes, List.append_assoc, List.append_assoc] at h
  obtain ⟨hcount, h⟩ := Compact.bytes_append_inj h
  obtain ⟨hitems, hrs⟩ := hd.flatMap (by rw [a.counted, b.counted, hcount]) h
  exact ⟨WireRun.ext hcount hitems, hrs⟩

/-! ## Transactions -/

@[ext] structure WireIn where
  prevout : Fixed 36
  script : Blob
  sequence : Fixed 4

def WireIn.bytes (i : WireIn) : Bytes := i.prevout.val ++ i.script.bytes ++
  i.sequence.val

@[ext] structure WireOut where
  value : Fixed 8
  script : Blob

def WireOut.bytes (o : WireOut) : Bytes := o.value.val ++ o.script.bytes

theorem WireIn.delimited : Delimited WireIn.bytes := by
  intro a b r s h
  simp only [WireIn.bytes, List.append_assoc] at h
  obtain ⟨hprev, h⟩ := Fixed.delimited 36 _ _ _ _ h
  obtain ⟨hscript, h⟩ := Blob.delimited _ _ _ _ h
  obtain ⟨hseq, hrs⟩ := Fixed.delimited 4 _ _ _ _ h
  exact ⟨WireIn.ext hprev hscript hseq, hrs⟩

theorem WireOut.delimited : Delimited WireOut.bytes := by
  intro a b r s h
  simp only [WireOut.bytes, List.append_assoc] at h
  obtain ⟨hval, h⟩ := Fixed.delimited 8 _ _ _ _ h
  obtain ⟨hscript, hrs⟩ := Blob.delimited _ _ _ _ h
  exact ⟨WireOut.ext hval hscript, hrs⟩

/-- A witness stack. -/
abbrev WireStack := WireRun Blob

/-- A transaction, with a stack for every input when it has a witness
section. -/
@[ext] structure WireTx where
  version : Fixed 4
  ins : WireRun WireIn
  outs : WireRun WireOut
  witness : Option (List WireStack)
  locktime : Fixed 4
  stacked : ∀ wits ∈ witness, wits.length = ins.items.length

namespace WireTx

/-- Version, inputs and outputs behind `mark`, what follows them, and the
locktime. -/
def body (w : WireTx) (mark tail : Bytes) : Bytes :=
  w.version.val ++ (mark ++ (w.ins.bytes WireIn.bytes ++
    (w.outs.bytes WireOut.bytes ++ (tail ++ w.locktime.val))))

/-- The serialisation without witness data. -/
def stripped (w : WireTx) : Bytes := w.body [] []

/-- The marker and flag in front of the inputs, when there is a witness
section. -/
def marker (w : WireTx) : Bytes := if w.witness.isSome then [0x00, 0x01] else []

/-- The witness section. -/
def witnessBytes (w : WireTx) : Bytes :=
  (w.witness.getD []).flatMap (WireRun.bytes Blob.bytes)

/-- The full serialisation. -/
def bytes (w : WireTx) : Bytes := w.body w.marker w.witnessBytes

/-- Every count and length is in its shortest form. -/
structure Canonical (w : WireTx) : Prop where
  ins : w.ins.count.Canonical
  scriptSigs : ∀ i ∈ w.ins.items, i.script.Canonical
  outs : w.outs.count.Canonical
  scripts : ∀ o ∈ w.outs.items, o.script.Canonical
  witness : ∀ wits ∈ w.witness, ∀ s ∈ wits, s.count.Canonical ∧
    ∀ b ∈ s.items, b.Canonical

/-- Without a witness the bytes are the stripped ones. -/
theorem bytes_none {w : WireTx} (h : w.witness = none) :
    w.bytes = w.stripped := by
  rw [bytes, marker, witnessBytes, h]
  rfl

theorem bytes_some {w : WireTx} {wits : List WireStack}
    (h : w.witness = some wits) :
    w.bytes = w.body [0x00, 0x01]
      (wits.flatMap (WireRun.bytes Blob.bytes)) := by
  rw [bytes, marker, witnessBytes, h]
  rfl

/-- The first byte of an input count that is not zero is not the marker. -/
theorem marker_ne_count {c : Compact} (h : c.value ≠ 0) (r s : Bytes) :
    c.bytes ++ r ≠ [0x00, 0x01] ++ s := by
  intro heq
  obtain ⟨t, ht, -⟩ := c.bytes_cons
  rw [ht] at heq
  simp only [List.cons_append, List.cons.injEq] at heq
  exact Compact.head_ne_zero h t (by rw [ht, heq.1])

/-- **Unique reading.** Transactions that have inputs and are spelled alike are
the same. -/
theorem bytes_inj {w v : WireTx} (hw : w.ins.count.value ≠ 0)
    (hv : v.ins.count.value ≠ 0)
    (h : w.bytes = v.bytes) : w = v := by
  rw [bytes, bytes, body, body] at h
  obtain ⟨hver, h⟩ := Fixed.delimited 4 _ _ _ _ h
  -- an input count of zero would read as the segwit marker
  have hmark : w.marker = v.marker := by
    unfold marker at h ⊢
    split at h
    · split at h
      · next h1 h2 => rw [if_pos h1, if_pos h2]
      · simp only [WireRun.bytes, List.nil_append, List.append_assoc] at h
        exact absurd h.symm (marker_ne_count hv _ _)
    · split at h
      · simp only [WireRun.bytes, List.nil_append, List.append_assoc] at h
        exact absurd h (marker_ne_count hw _ _)
      · next h1 h2 => rw [if_neg h1, if_neg h2]
  rw [hmark] at h
  have h := List.append_cancel_left h
  obtain ⟨hins, h⟩ := WireIn.delimited.run _ _ _ _ h
  obtain ⟨houts, h⟩ := WireOut.delimited.run _ _ _ _ h
  have hwit : w.witness = v.witness ∧ w.locktime.val = v.locktime.val := by
    unfold marker at hmark
    unfold witnessBytes at h
    cases hw' : w.witness with
    | none =>
      cases hv' : v.witness with
      | none =>
        rw [hw', hv'] at h
        exact ⟨rfl, h⟩
      | some vs => rw [hw', hv'] at hmark; cases hmark
    | some ws =>
      cases hv' : v.witness with
      | none => rw [hw', hv'] at hmark; cases hmark
      | some vs =>
        rw [hw', hv'] at h
        have hlen : ws.length = vs.length := by
          rw [w.stacked ws hw', v.stacked vs hv', hins]
        obtain ⟨rfl, hlock⟩ := Blob.delimited.run.flatMap hlen h
        exact ⟨rfl, hlock⟩
  exact WireTx.ext hver hins houts hwit.1 (Subtype.ext hwit.2)

/-- Two transactions that may differ in their witness data only. -/
structure SameBase (w v : WireTx) : Prop where
  version : w.version = v.version
  ins : w.ins = v.ins
  outs : w.outs = v.outs
  locktime : w.locktime = v.locktime

/-- The base part determines the stripped bytes. -/
theorem SameBase.stripped_eq {w v : WireTx} (h : SameBase w v) :
    w.stripped = v.stripped := by
  rw [stripped, stripped, body, body, h.version, h.ins, h.outs, h.locktime]

end WireTx

end Pyrxd.Lib
