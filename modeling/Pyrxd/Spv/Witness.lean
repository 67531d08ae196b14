import Mathlib.Data.List.GetD
import Pyrxd.Errors
import Pyrxd.Lib.TxWire

/-!
# Witness stripping

`spv/witness.py`: drop the marker, the flag and the witness stacks of a
transaction, to get the serialisation its txid is the hash of. These readers
keep a position into the whole string, and refuse a CompactSize that is not in
its shortest form.

The lemmas relate a position to the grammar: `Spans buf pos seg pos'` says that
`seg` stands in `buf` from `pos` up to `pos'`.
-/

namespace Pyrxd.Spv

open Pyrxd.Lib

/-- `data[i:j]`. -/
def slice (data : Bytes) (i j : Nat) : Bytes := (data.drop i).take (j - i)

/-! ## Definitions -/

/-- The refusal of an overlong form, as the source words it. -/
def nonCanonical (form : CompactForm) (value : Nat) : String :=
  let worded := match form with
    | .two => ("0xFD", "< 0xFD")
    | .four => ("0xFE", "<= 0xFFFF")
    | _ => ("0xFF", "<= 0xFFFFFFFF")
  "non-canonical varint: " ++ worded.1 ++ " prefix encodes " ++
    toString value ++
    " (" ++ worded.2 ++ ")"

/-- `_read_varint(data, pos)`, raising `fail`; the empty read is reported as
`eof`. -/
def readVarint (fail : String → PyErr) (eof : String)
    (data : Bytes) (pos : Nat) :
    Except PyErr (Nat × Nat) :=
  match data.drop pos with
  | [] => .error (fail eof)
  | first :: rest =>
    if first.toNat < 0xFD then .ok (first.toNat, pos + 1)
    else
      let form := CompactForm.ofTag first
      if rest.length < form.width then
        .error (fail ("truncated " ++ toString form.width ++ "-byte varint"))
      else
        let value := leNat (rest.take form.width)
        -- the shortest form is required
        if value < form.least then .error (fail (nonCanonical form value))
        else .ok (value, pos + 1 + form.width)

/-- `_encode_varint(n)`. -/
def encodeVarint (n : Nat) : Except PyErr Bytes :=
  if n < 256 ^ 8 then .ok (compactBytes n)
    else .error (.other "int too big to convert")

/-- The reader of `witness.py`. -/
def readVarintStrict : Bytes → Nat → Except PyErr (Nat × Nat) :=
  readVarint .validation "unexpected end of data reading varint"

/-- `for _ in range(count): pos = step(pos)`. -/
def stepTimes (step : Nat → Except PyErr Nat) : Nat → Nat → Except PyErr Nat
  | 0, pos => .ok pos
  | count + 1, pos => do
    let pos ← step pos
    stepTimes step count pos

/-- One turn of the loop over the inputs. -/
def stripInput (raw : Bytes) (pos : Nat) : Except PyErr Nat := do
  refuseIf (pos + 36 > raw.length) "raw_tx truncated in inputs"
  let (scriptLen, pos) ← readVarintStrict raw (pos + 36)
  refuseIf (pos + scriptLen + 4 > raw.length)
    "raw_tx truncated in input script/sequence"
  return pos + (scriptLen + 4)

/-- One turn of the loop over the outputs. -/
def stripOutput (raw : Bytes) (pos : Nat) : Except PyErr Nat := do
  refuseIf (pos + 8 > raw.length) "raw_tx truncated in output value"
  let (scriptLen, pos) ← readVarintStrict raw (pos + 8)
  refuseIf (pos + scriptLen > raw.length) "raw_tx truncated in output script"
  return pos + scriptLen

def stripItem (raw : Bytes) (pos : Nat) : Except PyErr Nat := do
  let (itemLen, pos) ← readVarintStrict raw pos
  refuseIf (pos + itemLen > raw.length) "raw_tx truncated in witness item"
  return pos + itemLen

/-- One witness stack. -/
def stripStack (raw : Bytes) (pos : Nat) : Except PyErr Nat := do
  let (itemCount, pos) ← readVarintStrict raw pos
  stepTimes (stripItem raw) itemCount pos

/-- The segwit branch of `strip_witness`. -/
def stripSegwit (raw : Bytes) : Except PyErr Bytes := do
  let (inputCount, inputsStart) ← readVarintStrict raw 6
  let inputsEnd ← stepTimes (stripInput raw) inputCount inputsStart
  let (outputCount, outputsStart) ← readVarintStrict raw inputsEnd
  let outputsEnd ← stepTimes (stripOutput raw) outputCount outputsStart
  let pos ← stepTimes (stripStack raw) inputCount outputsEnd
  refuseIf (pos + 4 > raw.length) "raw_tx truncated: missing locktime"
  let nIn ← encodeVarint inputCount
  let nOut ← encodeVarint outputCount
  return slice raw 0 4 ++ nIn ++ slice raw inputsStart inputsEnd ++ nOut ++
    slice raw outputsStart outputsEnd ++ slice raw pos (pos + 4)

/-- `strip_witness`. -/
def stripWitness (raw : Bytes) : Except PyErr Bytes := do
  refuseIf (raw.length < 10) "raw_tx too short"
  if raw.getD 4 0 ≠ 0x00 then return raw
  refuseIf (raw.getD 5 0 ≠ 0x01)
    ("unexpected segwit flag byte: " ++ toString (raw.getD 5 0))
  stripSegwit raw

/-! ## Positions -/

/-- `seg` stands in `buf` from `pos` up to `pos'`. -/
def Spans (buf : Bytes) (pos : Nat) (seg : Bytes) (pos' : Nat) : Prop :=
  buf.drop pos = seg ++ buf.drop pos' ∧ pos' = pos + seg.length

section Positions

variable {buf seg seg' : Bytes} {pos mid pos' k : Nat}

theorem Spans.nil : Spans buf pos [] pos := ⟨rfl, rfl⟩

theorem Spans.append (h : Spans buf pos seg mid)
    (h' : Spans buf mid seg' pos') :
    Spans buf pos (seg ++ seg') pos' := by
  obtain ⟨h1, h2⟩ := h
  obtain ⟨h3, h4⟩ := h'
  refine ⟨by rw [h1, h3, List.append_assoc], ?_⟩
  rw [List.length_append]
  omega

/-- A span at the end of what is there. -/
theorem spans_of_drop {r : Bytes} (h : buf.drop pos = seg ++ r) :
    Spans buf pos seg (pos + seg.length) := by
  refine ⟨?_, rfl⟩
  rw [← List.drop_drop, h, List.drop_left]

theorem Spans.rest {r : Bytes} (h : Spans buf pos seg pos')
    (hr : buf.drop pos = seg ++ r) :
    buf.drop pos' = r := by
  rw [h.1] at hr
  exact List.append_cancel_left hr

theorem Spans.slice_eq (h : Spans buf pos seg pos') :
    slice buf pos pos' = seg := by
  obtain ⟨h1, rfl⟩ := h
  rw [slice, h1, Nat.add_sub_cancel_left, List.take_left]

theorem Spans.le (h : Spans buf pos seg pos') (hne : seg ≠ []) :
    pos' ≤ buf.length := by
  obtain ⟨h1, h2⟩ := h
  have hlen := congrArg List.length h1
  have hpos : 0 < seg.length := List.length_pos_of_ne_nil hne
  rw [List.length_append, List.length_drop, List.length_drop] at hlen
  omega

/-- `k` bytes are there exactly when the position after them is inside the
string. -/
theorem spans_take (h : pos + k ≤ buf.length) :
    ∃ x, x.length = k ∧ Spans buf pos x (pos + k) := by
  have hlen : (slice buf pos (pos + k)).length = k := by
    rw [slice, Nat.add_sub_cancel_left, List.length_take, List.length_drop]
    omega
  refine ⟨slice buf pos (pos + k), hlen, ?_, by rw [hlen]⟩
  rw [slice, Nat.add_sub_cancel_left, ← List.drop_drop, List.take_append_drop]

end Positions

/-! ## The reader -/

/-- A varint that is read is a canonical compact size. -/
theorem readVarint_ok {fail : String → PyErr} {eof : String} {buf : Bytes}
    {pos v pos' : Nat} :
    readVarint fail eof buf pos = .ok (v, pos') ↔
      ∃ c : Compact, c.Canonical ∧ c.value = v ∧
        Spans buf pos c.bytes pos' := by
  -- the strict reader is the parser of compact sizes with the canonical form
  -- demanded
  have hparse : readVarint fail eof buf pos = .ok (v, pos') ↔ ∃ c r,
      Compact.parse (buf.drop pos) = some (c, r) ∧ c.Canonical ∧ c.value = v ∧
        pos' = pos + c.bytes.length := by
    unfold readVarint
    cases hd : buf.drop pos with
    | nil => simp only [reduceCtorEq, Compact.parse, false_and, exists_false]
    | cons x r =>
      simp only
      by_cases hx : x.toNat < 0xFD
      · obtain ⟨c, hc, hval, hbytes, hform⟩ := Compact.parse_one (b := r) hx
        have hcanon : c.Canonical := by
          unfold Compact.Canonical
          rw [hform, CompactForm.ofTag_eq_one.mpr hx]
          exact Nat.zero_le _
        rw [if_pos hx, hc]
        simp only [Except.ok.injEq, Prod.mk.injEq, Option.some.injEq]
        constructor
        · intro h
          exact ⟨c, r, ⟨rfl, rfl⟩,
            hcanon, by omega, by rw [hbytes]; exact h.2.symm⟩
        · intro h
          obtain ⟨_, _, ⟨rfl, rfl⟩, -, hv, hp⟩ := h
          rw [hbytes] at hp
          exact ⟨by omega, hp.symm⟩
      · rw [if_neg hx]
        by_cases hw : (CompactForm.ofTag x).width ≤ r.length
        · obtain ⟨c, hc, hval, hbytes, hform⟩ := Compact.parse_tagged hx hw
          have hlen : c.bytes.length = 1 + (CompactForm.ofTag x).width := by
            rw [c.length_bytes, hform]
          rw [if_neg (Nat.not_lt.mpr hw), hc, ← hval, ← hform]
          simp only [Option.some.injEq, Prod.mk.injEq]
          by_cases hcanon : c.Canonical
          · rw [if_neg (Nat.not_lt.mpr hcanon)]
            simp only [Except.ok.injEq, Prod.mk.injEq]
            constructor
            · intro h
              exact ⟨c, _, ⟨rfl, rfl⟩, hcanon,
                h.1, by rw [hlen, ← hform]; omega⟩
            · intro h
              obtain ⟨_, _, ⟨rfl, rfl⟩, -, hv, hp⟩ := h
              rw [hlen, ← hform] at hp
              exact ⟨hv, by omega⟩
          · rw [if_pos (Nat.lt_of_not_le hcanon)]
            simp only [reduceCtorEq, false_iff, not_exists, not_and]
            intro d s hds hd
            rw [← hds.1] at hd
            exact absurd hd hcanon
        · rw [if_pos (Nat.lt_of_not_le hw), Compact.parse_short hx hw]
          simp only [reduceCtorEq, false_and, exists_false]
  rw [hparse]
  constructor
  · intro h
    obtain ⟨c, r, hc, hcanon, hv, rfl⟩ := h
    exact ⟨c, hcanon, hv, spans_of_drop (Compact.bytes_of_parse hc)⟩
  · intro h
    obtain ⟨c, hcanon, hv, hs⟩ := h
    exact ⟨c, _, Compact.parse_eq_some.mpr hs.1, hcanon, hv, hs.2⟩

theorem encodeVarint_canonical {c : Compact} (h : c.Canonical) :
    encodeVarint c.value = .ok c.bytes := by
  have hlt : c.value < 256 ^ 8 := by
    have hb : c.form.bound ≤ 256 ^ 8 := by cases c.form <;> decide
    exact Nat.lt_of_lt_of_le c.fits hb
  rw [encodeVarint, if_pos hlt, Compact.bytes_of_canonical h]

/-! ## The walk, as positions in the grammar -/

section Walk

variable {raw : Bytes} {count pos mid pos' len : Nat}

theorem spans_append {seg seg' : Bytes} : Spans raw pos (seg ++ seg') pos' ↔
    ∃ mid, Spans raw pos seg mid ∧ Spans raw mid seg' pos' := by
  constructor
  · intro h
    have hs : raw.drop pos = seg ++ (seg' ++ raw.drop pos') := by
      rw [h.1, List.append_assoc]
    have hseg := spans_of_drop hs
    refine ⟨_, hseg, hseg.rest hs, ?_⟩
    have hlen := h.2
    rw [List.length_append] at hlen
    omega
  · intro h
    obtain ⟨mid, h1, h2⟩ := h
    exact h1.append h2

/-- A field of `k + 1` bytes is there exactly when the string goes on that
far. -/
theorem spans_fixed {k : Nat} (hk : k ≠ 0) :
    pos + k ≤ raw.length ↔ ∃ f : Fixed k, Spans raw pos f.val (pos + k) := by
  constructor
  · intro h
    obtain ⟨x, hx, hs⟩ := spans_take h
    exact ⟨⟨x, hx⟩, hs⟩
  · intro h
    obtain ⟨f, hs⟩ := h
    refine hs.le ?_
    intro hnil
    have hf := f.property
    rw [hnil] at hf
    exact hk hf.symm

/-- A length and as many bytes behind it are one canonical string of the
grammar. -/
theorem spans_blob {fail : String → PyErr} {eof : String} :
    (readVarint fail eof raw pos = .ok (len, mid) ∧ mid + len ≤ raw.length) ↔
      ∃ t : Blob, t.Canonical ∧ t.size.value = len ∧
        Spans raw pos t.size.bytes mid ∧
        Spans raw mid t.data (mid + len) := by
  constructor
  · intro h
    obtain ⟨hread, hle⟩ := h
    obtain ⟨c, hc, rfl, hs⟩ := readVarint_ok.mp hread
    obtain ⟨x, hx, hxs⟩ := spans_take hle
    exact ⟨⟨c, x, hx⟩, hc, rfl, hs, hxs⟩
  · intro h
    obtain ⟨t, ht, rfl, hsize, hdata⟩ := h
    refine ⟨readVarint_ok.mpr ⟨t.size, ht, rfl, hsize⟩, ?_⟩
    have hmid : mid ≤ raw.length := hsize.le (fun hnil => by
      have hlen := t.size.length_bytes
      rw [hnil, List.length_nil] at hlen
      omega)
    have hlen := congrArg List.length hdata.1
    rw [List.length_append, List.length_drop, List.length_drop, t.sized] at hlen
    omega

/-- **The loop rule.** When each turn steps over one item, `count` turns step
over a run of `count` items. -/
theorem stepTimes_ok {α : Type} {step : Nat → Except PyErr Nat}
    {enc : α → Bytes} {P : α → Prop}
    (hstep : ∀ pos pos', step pos = .ok pos' ↔
      ∃ a, P a ∧ Spans raw pos (enc a) pos') :
    ∀ {pos}, stepTimes step count pos = .ok pos' ↔
      ∃ items : List α, items.length = count ∧ (∀ a ∈ items, P a) ∧
        Spans raw pos (items.flatMap enc) pos' := by
  -- one item at a time, each spanning its own bytes
  induction count with
  | zero =>
    intro pos
    constructor
    · intro h
      have hpos : pos = pos' := Except.ok.inj h
      subst hpos
      exact ⟨[], rfl, List.forall_mem_nil P, Spans.nil⟩
    · intro h
      obtain ⟨items, hlen, -, hs⟩ := h
      rw [List.length_eq_zero_iff.mp hlen] at hs
      rw [hs.2]
      rfl
  | succ k ih =>
    intro pos
    simp only [stepTimes, bind_ok]
    constructor
    · intro h
      obtain ⟨mid, hone, hrest⟩ := h
      obtain ⟨a, ha, hs⟩ := (hstep pos mid).mp hone
      obtain ⟨items, hlen, hall, hss⟩ := ih.mp hrest
      refine ⟨a :: items, by rw [List.length_cons, hlen], ?_, hs.append hss⟩
      exact List.forall_mem_cons.mpr ⟨ha, hall⟩
    · intro h
      obtain ⟨items, hlen, hall, hs⟩ := h
      obtain _ | ⟨a, items⟩ := items
      · cases hlen
      · obtain ⟨mid, hone, hss⟩ := spans_append.mp hs
        obtain ⟨ha, hall⟩ := List.forall_mem_cons.mp hall
        rw [List.length_cons] at hlen
        exact ⟨mid, (hstep pos mid).mpr ⟨a, ha, hone⟩,
          ih.mpr ⟨items, by omega, hall, hss⟩⟩

/-- An input that is stepped over is canonical. -/
theorem stripInput_ok : stripInput raw pos = .ok pos' ↔
    ∃ i : WireIn, i.script.Canonical ∧ Spans raw pos i.bytes pos' := by
  simp only [stripInput, readVarintStrict, bind_ok, refuseIf_ok,
    exists_const, Prod.exists,
    pure_eq_ok, Except.ok.injEq]
  constructor
  · intro h
    obtain ⟨hpre, len, mid, hread, htail, rfl⟩ := h
    obtain ⟨prevout, hprev⟩ := (spans_fixed (by decide)).mp (Nat.not_lt.mp hpre)
    obtain ⟨t, ht, rfl, hsize, hdata⟩ := spans_blob.mp ⟨hread, by omega⟩
    -- the walk checks the end of the sequence, not of the script
    have hend : mid + t.size.value + 4 ≤ raw.length := by omega
    obtain ⟨sequence, hseq⟩ := (spans_fixed (by decide)).mp hend
    rw [← Nat.add_assoc]
    exact ⟨⟨prevout, t, sequence⟩, ht,
      (hprev.append (hsize.append hdata)).append hseq⟩
  · intro h
    obtain ⟨i, hcanon, hs⟩ := h
    rw [WireIn.bytes, Blob.bytes] at hs
    obtain ⟨_, hi, hseq⟩ := spans_append.mp hs
    obtain ⟨_, hprev, hi⟩ := spans_append.mp hi
    obtain ⟨mid, hsize, hdata⟩ := spans_append.mp hi
    have e1 := hprev.2
    have e2 := hdata.2
    have e3 := hseq.2
    rw [i.prevout.property] at e1
    rw [i.script.sized] at e2
    rw [i.sequence.property] at e3
    subst e1 e2 e3
    obtain ⟨hread, hle⟩ := spans_blob.mpr ⟨i.script, hcanon, rfl, hsize, hdata⟩
    have hpre := (spans_fixed (by decide)).mpr ⟨i.prevout, hprev⟩
    have hend := (spans_fixed (by decide)).mpr ⟨i.sequence, hseq⟩
    exact ⟨by omega, _, _, hread, by omega, by omega⟩

theorem stripOutput_ok : stripOutput raw pos = .ok pos' ↔
    ∃ o : WireOut, o.script.Canonical ∧ Spans raw pos o.bytes pos' := by
  simp only [stripOutput, readVarintStrict, bind_ok, refuseIf_ok,
    exists_const, Prod.exists,
    pure_eq_ok, Except.ok.injEq]
  constructor
  · intro h
    obtain ⟨hpre, len, mid, hread, htail, rfl⟩ := h
    obtain ⟨value, hval⟩ := (spans_fixed (by decide)).mp (Nat.not_lt.mp hpre)
    obtain ⟨t, ht, rfl, hsize, hdata⟩ :=
      spans_blob.mp ⟨hread, Nat.not_lt.mp htail⟩
    exact ⟨⟨value, t⟩, ht, hval.append (hsize.append hdata)⟩
  · intro h
    obtain ⟨o, hcanon, hs⟩ := h
    rw [WireOut.bytes, Blob.bytes] at hs
    obtain ⟨_, hval, ho⟩ := spans_append.mp hs
    obtain ⟨mid, hsize, hdata⟩ := spans_append.mp ho
    have e1 := hval.2
    have e2 := hdata.2
    rw [o.value.property] at e1
    rw [o.script.sized] at e2
    subst e1 e2
    obtain ⟨hread, hle⟩ := spans_blob.mpr ⟨o.script, hcanon, rfl, hsize, hdata⟩
    have hpre := (spans_fixed (by decide)).mpr ⟨o.value, hval⟩
    exact ⟨by omega, _, _, hread, by omega, rfl⟩

theorem stripItem_ok : stripItem raw pos = .ok pos' ↔
    ∃ t : Blob, t.Canonical ∧ Spans raw pos t.bytes pos' := by
  simp only [stripItem, readVarintStrict, bind_ok, refuseIf_ok,
    exists_const, Prod.exists,
    pure_eq_ok, Except.ok.injEq]
  constructor
  · intro h
    obtain ⟨len, mid, hread, htail, rfl⟩ := h
    obtain ⟨t, ht, rfl, hsize, hdata⟩ :=
      spans_blob.mp ⟨hread, Nat.not_lt.mp htail⟩
    exact ⟨t, ht, hsize.append hdata⟩
  · intro h
    obtain ⟨t, hcanon, hs⟩ := h
    rw [Blob.bytes] at hs
    obtain ⟨mid, hsize, hdata⟩ := spans_append.mp hs
    have e := hdata.2
    rw [t.sized] at e
    subst e
    obtain ⟨hread, hle⟩ := spans_blob.mpr ⟨t, hcanon, rfl, hsize, hdata⟩
    exact ⟨_, _, hread, by omega, rfl⟩

/-- A stack with all its sizes in shortest form. -/
def CanonicalStack (s : WireStack) : Prop :=
  s.count.Canonical ∧ ∀ t ∈ s.items, t.Canonical

theorem stripStack_ok : stripStack raw pos = .ok pos' ↔
    ∃ s : WireStack, CanonicalStack s ∧
    Spans raw pos (s.bytes Blob.bytes) pos' := by
  simp only [stripStack, readVarintStrict, bind_ok, Prod.exists]
  constructor
  · intro h
    obtain ⟨n, mid, hread, hitems⟩ := h
    obtain ⟨c, hc, rfl, hcount⟩ := readVarint_ok.mp hread
    obtain ⟨items, hn, hcanon, hs⟩ :=
      (stepTimes_ok fun _ _ => stripItem_ok).mp hitems
    exact ⟨⟨c, items, hn⟩, ⟨hc, hcanon⟩, hcount.append hs⟩
  · intro h
    obtain ⟨s, ⟨hc, hcanon⟩, hs⟩ := h
    obtain ⟨mid, hcount, hitems⟩ := spans_append.mp hs
    exact ⟨_, _, readVarint_ok.mpr ⟨s.count, hc, rfl, hcount⟩,
      (stepTimes_ok fun _ _ => stripItem_ok).mpr ⟨s.items, s.counted,
        hcanon, hitems⟩⟩

/-- The segwit branch reads a canonical transaction and gives back its stripped
form. What follows the locktime is not looked at. -/
theorem stripSegwit_ok {ver mark stripped : Bytes} (hver : Spans raw 0 ver 4)
    (hmark : Spans raw 4 mark 6) :
    stripSegwit raw = .ok stripped ↔ ∃ (w : WireTx) (r : Bytes), w.Canonical ∧
      w.witness.isSome ∧ raw = w.body mark w.witnessBytes ++ r ∧
        stripped = w.stripped := by
  simp only [stripSegwit, readVarintStrict, bind_ok, refuseIf_ok,
    exists_const, Prod.exists,
    pure_eq_ok, Except.ok.injEq]
  have hverlen : ver.length = 4 := by
    have h := hver.2
    omega
  constructor
  · intro h
    obtain ⟨nIn, p1, hnIn, p2, hins, nOut, p3, hnOut, p4, houts,
      p5, hwits, hlock,
      inB, hinB, outB, houtB, rfl⟩ := h
    obtain ⟨cin, hcin, rfl, hs1⟩ := readVarint_ok.mp hnIn
    obtain ⟨ins, hinslen, hinscan, hs2⟩ :=
      (stepTimes_ok fun _ _ => stripInput_ok).mp hins
    obtain ⟨cout, hcout, rfl, hs3⟩ := readVarint_ok.mp hnOut
    obtain ⟨outs, houtslen, houtscan, hs4⟩ :=
      (stepTimes_ok fun _ _ => stripOutput_ok).mp houts
    obtain ⟨wits, hwitslen, hwitscan, hs5⟩ :=
      (stepTimes_ok fun _ _ => stripStack_ok).mp hwits
    obtain ⟨locktime, hs6⟩ := (spans_fixed (by decide)).mp (Nat.not_lt.mp hlock)
    rw [encodeVarint_canonical hcin, Except.ok.injEq] at hinB
    rw [encodeVarint_canonical hcout, Except.ok.injEq] at houtB
    subst hinB houtB
    refine ⟨⟨⟨ver, hverlen⟩, ⟨cin, ins, hinslen⟩, ⟨cout, outs, houtslen⟩,
      some wits, locktime, ?_⟩,
      raw.drop (p5 + 4), ⟨hcin, hinscan, hcout, houtscan, ?_⟩, rfl, ?_, ?_⟩
    · intro ws hws
      rw [Option.mem_some_iff] at hws
      rw [← hws, hwitslen, hinslen]
    · intro ws hws
      rw [Option.mem_some_iff] at hws
      rw [← hws]
      exact hwitscan
    · have hall := hver.append (hmark.append ((hs1.append hs2).append
        ((hs3.append hs4).append (hs5.append hs6))))
      exact hall.1
    · rw [hver.slice_eq, hs2.slice_eq, hs4.slice_eq, hs6.slice_eq]
      simp only [WireTx.stripped, WireTx.body, WireRun.bytes, List.append_assoc,
        List.nil_append]
  · intro h
    obtain ⟨w, r, hcanon, hsome, hraw, rfl⟩ := h
    obtain ⟨wits, hwit⟩ := Option.isSome_iff_exists.mp hsome
    have hwb : w.witnessBytes = wits.flatMap (WireRun.bytes Blob.bytes) := by
      rw [WireTx.witnessBytes, hwit]
      rfl
    have hs : Spans raw 0 (w.body mark w.witnessBytes)
        (w.body mark w.witnessBytes).length := by
      have h := spans_of_drop (show raw.drop 0 = _ from hraw)
      rwa [Nat.zero_add] at h
    rw [WireTx.body, WireRun.bytes, WireRun.bytes, hwb] at hs
    obtain ⟨p0, hver', hs⟩ := spans_append.mp hs
    have hp0 := hver'.2
    rw [w.version.property] at hp0
    subst hp0
    have hversion : w.version.val = ver := by rw [← hver'.slice_eq,
      ← hver.slice_eq]
    obtain ⟨p, hmark', hs⟩ := spans_append.mp hs
    have hp : p = 6 := by rw [hmark'.2, hmark.2]
    subst hp
    obtain ⟨p2, hins, hs⟩ := spans_append.mp hs
    obtain ⟨p1, hs1, hs2⟩ := spans_append.mp hins
    obtain ⟨p4, houts, hs⟩ := spans_append.mp hs
    obtain ⟨p3, hs3, hs4⟩ := spans_append.mp houts
    obtain ⟨p5, hs5, hs6⟩ := spans_append.mp hs
    have hp6 := hs6.2
    rw [w.locktime.property] at hp6
    rw [hp6] at hs6
    refine ⟨_, p1, readVarint_ok.mpr ⟨w.ins.count, hcanon.ins, rfl, hs1⟩, p2,
      (stepTimes_ok fun _ _ => stripInput_ok).mpr ⟨w.ins.items, w.ins.counted,
        hcanon.scriptSigs, hs2⟩,
      _, p3, readVarint_ok.mpr ⟨w.outs.count, hcanon.outs, rfl, hs3⟩, p4,
      (stepTimes_ok fun _ _ => stripOutput_ok).mpr ⟨w.outs.items,
        w.outs.counted, hcanon.scripts, hs4⟩,
      p5, (stepTimes_ok fun _ _ => stripStack_ok).mpr
        ⟨wits, (w.stacked wits hwit).trans w.ins.counted,
          hcanon.witness wits hwit, hs5⟩,
      Nat.not_lt.mpr ((spans_fixed (by decide)).mpr ⟨w.locktime, hs6⟩),
      _, encodeVarint_canonical hcanon.ins, _,
        encodeVarint_canonical hcanon.outs, ?_⟩
    rw [hver.slice_eq, hs2.slice_eq, hs4.slice_eq, hs6.slice_eq, ← hversion]
    simp only [WireTx.stripped, WireTx.body, WireRun.bytes, List.append_assoc,
      List.nil_append]

end Walk

/-- The shortest transaction: version, two counts, locktime. -/
theorem ten_le_length_body (w : WireTx) (mark tail : Bytes) :
    10 ≤ (w.body mark tail).length := by
  have h1 := w.ins.count.length_bytes
  have h2 := w.outs.count.length_bytes
  simp only [WireTx.body, WireRun.bytes, List.length_append, w.version.property,
    w.locktime.property]
  omega

/-- **What `strip_witness` returns.** A string whose fifth byte is not the
marker comes back as it is; any other is a canonical segwit transaction with
something behind it. -/
theorem stripWitness_ok {raw stripped : Bytes} :
    stripWitness raw = .ok stripped ↔
    (10 ≤ raw.length ∧ raw.getD 4 0 ≠ 0x00 ∧ stripped = raw) ∨
      ∃ (w : WireTx) (r : Bytes), w.Canonical ∧ w.witness.isSome ∧
        raw = w.bytes ++ r ∧
        stripped = w.stripped := by
  have hbytes : ∀ w : WireTx, w.witness.isSome →
      w.bytes = w.body [0x00, 0x01] w.witnessBytes := by
    intro w hw
    rw [WireTx.bytes, WireTx.marker, if_pos hw]
  simp only [stripWitness, bind_ok, refuseIf_ok, exists_const, Nat.not_lt]
  constructor
  · intro h
    obtain ⟨hlen, h⟩ := h
    -- byte 4 is the input count, or zero for the segwit marker
    by_cases h4 : raw.getD 4 0 ≠ 0x00
    · rw [if_pos h4] at h
      exact .inl ⟨hlen, h4, (Except.ok.inj h).symm⟩
    · rw [if_neg h4] at h
      simp only [bind_ok, refuseIf_ok, exists_const, not_not] at h
      obtain ⟨h5, h⟩ := h
      obtain ⟨ver, -, hver⟩ := spans_take (show 0 + 4 ≤ raw.length by omega)
      have hmark : Spans raw 4 [0x00, 0x01] 6 := by
        refine ⟨?_, rfl⟩
        rw [List.drop_eq_getElem_cons (by omega),
          List.drop_eq_getElem_cons (i := 5) (by omega)]
        rw [List.getD_eq_getElem _ _ (by omega)] at h4 h5
        rw [not_not.mp h4, h5]
        rfl
      obtain ⟨w, r, hcanon, hsome, hraw, hst⟩ :=
        (stripSegwit_ok hver hmark).mp h
      exact .inr ⟨w, r, hcanon, hsome, by rw [hbytes w hsome]; exact hraw, hst⟩
  · intro h
    rcases h with ⟨hlen, h4, rfl⟩ | ⟨w, r, hcanon, hsome, hraw, hst⟩
    · exact ⟨hlen, by rw [if_pos h4]; rfl⟩
    · rw [hbytes w hsome] at hraw
      have hlen : 10 ≤ raw.length := by
        have h := ten_le_length_body w [0x00, 0x01] w.witnessBytes
        rw [hraw, List.length_append]
        omega
      have hall := spans_of_drop (show raw.drop 0 = w.body [0x00,
        0x01] w.witnessBytes ++ r from hraw)
      obtain ⟨_, hver, hrest⟩ := spans_append.mp hall
      have hp := hver.2
      rw [w.version.property] at hp
      subst hp
      obtain ⟨_, hmark, -⟩ := spans_append.mp hrest
      have hp := hmark.2
      subst hp
      have hd := hmark.1
      rw [List.drop_eq_getElem_cons (by omega),
        List.drop_eq_getElem_cons (i := 5) (by omega)] at hd
      simp only [List.cons_append, List.nil_append, List.cons.injEq] at hd
      have h4 : raw.getD 4 0 = 0x00 := by
        rw [List.getD_eq_getElem _ _ (by omega)]
        exact hd.1
      have h5 : raw.getD 5 0 = 0x01 := by
        rw [List.getD_eq_getElem _ _ (by omega)]
        exact hd.2.1
      refine ⟨hlen, ?_⟩
      rw [if_neg (not_not.mpr h4), h5]
      exact (stripSegwit_ok hver hmark).mpr ⟨w, r, hcanon, hsome, hraw, hst⟩

/-! ## What stripping is a projection onto -/

/-- The marker is the fifth byte. -/
theorem getD_four_marker {w : WireTx} (hsome : w.witness.isSome) (r : Bytes) :
    (w.bytes ++ r).getD 4 0 = 0x00 := by
  rw [WireTx.bytes, WireTx.marker, if_pos hsome, WireTx.body, List.append_assoc,
    List.getD_append_right _ _ _ _ (by rw [w.version.property]),
      w.version.property]
  rfl

/-- A stripped transaction with an input does not start like a segwit one. -/
theorem stripWitness_stripped {w : WireTx} (hins : w.ins.count.value ≠ 0) :
    stripWitness w.stripped = .ok w.stripped := by
  rw [stripWitness_ok]
  refine .inl ⟨ten_le_length_body w [] [], ?_, rfl⟩
  -- the fifth byte starts the input count
  obtain ⟨t, ht, -⟩ := w.ins.count.bytes_cons
  rw [WireTx.stripped, WireTx.body,
    List.getD_append_right _ _ _ _ (by rw [w.version.property]),
    w.version.property, List.nil_append, WireRun.bytes, ht]
  intro h0
  exact Compact.head_ne_zero hins t (ht.trans (congrArg (· :: t) h0))

/-- The string `s` is the transaction `w` without its witness, and `b` is it
with or without. -/
structure Projection (b s : Bytes) (w : WireTx) : Prop where
  inputs : w.ins.items ≠ []
  stripped : s = w.stripped
  again : stripWitness s = .ok s
  source : b = s ∨ (w.witness.isSome ∧ b = w.bytes)

/-- **What `strip_witness` promises.** It raises; or hands a string without the
marker back as it is; or gives the witness-free form of the segwit transaction
that the string starts with, which it leaves alone from then on. -/
theorem strip_witness_projects (b : Bytes) :
    (∃ e, stripWitness b = .error e) ∨ ∃ s, stripWitness b = .ok s ∧
    (b.getD 4 0 ≠ 0x00 → s = b ∧ stripWitness s = .ok s) ∧
    (b.getD 4 0 = 0x00 → ∃ w : WireTx, w.Canonical ∧
      w.witness.isSome ∧ s = w.stripped ∧ w.bytes <+: b ∧
      (w.ins.items ≠ [] → stripWitness s = .ok s)) := by
  cases hb : stripWitness b with
  | error e => exact .inl ⟨e, rfl⟩
  | ok s =>
    refine .inr ⟨s, rfl, ?_⟩
    rcases stripWitness_ok.mp hb with ⟨-, h4, rfl⟩ | ⟨w, r, hcanon,
      hsome, hraw, hst⟩
    · exact ⟨fun _ => ⟨rfl, hb⟩, fun h => absurd h h4⟩
    · refine ⟨fun h => ?_, fun _ => ⟨w, hcanon, hsome, hst, ⟨r, hraw.symm⟩,
        fun hins => ?_⟩⟩
      · rw [hraw] at h
        exact absurd (getD_four_marker hsome r) h
      · rw [hst]
        refine stripWitness_stripped fun hzero =>
          hins (List.length_eq_zero_iff.mp ?_)
        rw [w.ins.counted, hzero]

/-- A transaction with an input has room for it. -/
theorem length_stripped_pos {w : WireTx} (hins : w.ins.items ≠ []) :
    46 ≤ w.stripped.length := by
  have h1 := w.ins.count.length_bytes
  have h2 := w.outs.count.length_bytes
  obtain ⟨i, is, hi⟩ := List.exists_cons_of_ne_nil hins
  simp only [WireTx.stripped, WireTx.body, WireRun.bytes, hi, List.flatMap_cons,
    WireIn.bytes, List.length_append, w.version.property, w.locktime.property,
    i.prevout.property]
  omega

/-- Ten bytes without a marker are no transaction, and come back all the
same. -/
theorem strip_witness_not_projection : ¬ ∀ b s, stripWitness b = .ok s →
    ∃ w, Projection b s w := by
  intro h
  have hok : stripWitness [1, 0, 0, 0, 1, 0, 0, 0, 0, 0] = .ok [1, 0, 0, 0, 1,
      0, 0, 0, 0, 0] := by decide
  obtain ⟨w, hw⟩ := h _ _ hok
  have hlen := length_stripped_pos hw.inputs
  rw [← hw.stripped] at hlen
  exact absurd hlen (by decide)

end Pyrxd.Spv
