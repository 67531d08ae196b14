import Pyrxd.Btc.RawTx
import Pyrxd.Lib.TxWire

/-!
# What the BTC walkers read

Each walker of `RawTx` against the wire grammar of `Lib.TxWire`. The strict ones
are exact: they succeed on `w.bytes` for the transactions `w` within their
bounds and on no other string (`takeTx_ok`), with an answer that is read off
`w`. The tolerant one gives back every stack of such a string
(`iterWitnessStack_bytes`).
-/

namespace Pyrxd.Btc

open Pyrxd.Lib

variable {who what : String} {n k : Nat} {b rest x : Bytes}

/-! ## Fields -/

/-- A take splits off a prefix of the length asked for. -/
theorem take_ok : take who k b = .ok (x, rest) ↔
    b = x ++ rest ∧ x.length = k := by
  rw [← eq_append_iff, take]
  split
  · next h => simp only [Except.ok.injEq, Prod.mk.injEq, h, true_and]
  · next h => simp only [invalid, reduceCtorEq, h, false_and]

theorem take_append (h : x.length = k) :
    take who k (x ++ rest) = .ok (x, rest) :=
  take_ok.mpr ⟨rfl, h⟩

/-- A fixed-width field is taken whole. -/
theorem take_fixed (f : Fixed k) :
    take who k (f.val ++ rest) = .ok (f.val, rest) :=
  take_append f.property

/-- The transaction reader splits off the same prefix. -/
theorem readBytes_append (h : x.length = k) :
    readBytes k (x ++ rest) = some (x, rest) := by
  subst h
  rw [readBytes, if_pos (by rw [List.length_append]; omega), List.take_left,
    List.drop_left]

/-- The strict reader is the grammar's, with the bytes consumed. -/
theorem takeCompactRaw_eq (who : String) (b : Bytes) :
    takeCompactRaw who b =
      match Compact.parse b with
      | some (c, rest) => .ok ((c.value, c.bytes), rest)
      | none => invalid (who ++ ": truncated transaction") := by
  cases b with
  | nil => rfl
  | cons v b =>
    have hfirst : take who 1 (v :: b) = .ok ([v], b) :=
      take_append (x := [v]) rfl
    rw [takeCompactRaw, hfirst, ok_bind]
    simp only [leNat_singleton]
    by_cases hv : v.toNat < 0xFD
    · obtain ⟨c, hc, hval, hbytes, -⟩ := Compact.parse_one (b := b) hv
      rw [if_pos hv, hc]
      simp only [hbytes, hval]
      rfl
    · rw [if_neg hv, CompactForm.width_ofTag hv]
      by_cases hw : (CompactForm.ofTag v).width ≤ b.length
      · obtain ⟨c, hc, hval, hbytes, -⟩ := Compact.parse_tagged hv hw
        rw [hc, take, if_pos hw, ok_bind]
        simp only [hbytes, hval]
        rfl
      · rw [Compact.parse_short hv hw, take, if_neg hw]
        rfl

/-- The compact size is taken with the bytes that spell it. -/
theorem takeCompactRaw_ok {v : Nat} {raw : Bytes} :
    takeCompactRaw who b = .ok ((v, raw), rest) ↔
      ∃ c : Compact, b = c.bytes ++ rest ∧ c.value = v ∧ c.bytes = raw := by
  rw [takeCompactRaw_eq]
  constructor
  · intro h
    cases hp : Compact.parse b with
    | none => rw [hp] at h; cases h
    | some p =>
      obtain ⟨c, r⟩ := p
      rw [hp] at h
      simp only [Except.ok.injEq, Prod.mk.injEq] at h
      obtain ⟨⟨hv, hraw⟩, rfl⟩ := h
      exact ⟨c, Compact.bytes_of_parse hp, hv, hraw⟩
  · intro h
    obtain ⟨c, rfl, rfl, rfl⟩ := h
    rw [Compact.parse_bytes]

/-- The reader of the outpoint walk keeps only the value. -/
theorem takeCompact_eq (who : String) (b : Bytes) :
    takeCompact who b = (takeCompactRaw who b).map fun p => (p.1.1, p.2) := by
  unfold takeCompact takeCompactRaw
  cases take who 1 b with
  | error e => rfl
  | ok p =>
    obtain ⟨first, r⟩ := p
    simp only [ok_bind]
    split
    · rfl
    · cases take who (if leNat first = 0xFD then 2
          else if leNat first = 0xFE then 4 else 8) r with
      | error e => rfl
      | ok q => rfl

/-- A written compact size is taken back. -/
theorem takeCompact_bytes (c : Compact) :
    takeCompact who (c.bytes ++ rest) = .ok (c.value, rest) := by
  rw [takeCompact_eq, takeCompactRaw_ok.mpr ⟨c, rfl, rfl, rfl⟩]
  rfl

/-- The tolerant reader is the strict one without its message. -/
theorem readCompact_eq (who : String) (b : Bytes) :
    readCompact b = (takeCompact who b).toOption := by
  have hread : ∀ j r, readBytes j r = (take who j r).toOption := by
    intro j r
    unfold readBytes take
    split <;> rfl
  unfold readCompact takeCompact
  rw [hread]
  cases take who 1 b with
  | error e => rfl
  | ok p =>
    obtain ⟨first, r⟩ := p
    simp only [ok_bind, Except.toOption, Option.bind_eq_bind, Option.bind_some]
    split
    · rfl
    · rw [hread]
      cases take who (if leNat first = 0xFD then 2
          else if leNat first = 0xFE then 4 else 8) r with
      | error e => rfl
      | ok q => rfl

theorem readCompact_bytes (c : Compact) :
    readCompact (c.bytes ++ rest) = some (c.value, rest) := by
  rw [readCompact_eq "", takeCompact_bytes]
  rfl

/-! ## Scripts, inputs and outputs -/

def Blob.raw (s : Blob) : RawScript := ⟨s.size.bytes, s.data⟩

/-- A script of a transaction of `n` bytes: the bound on its length never bites
first. -/
theorem takeScript_ok {s : RawScript} (hb : b.length ≤ n) :
    takeScript who what n b = .ok (s, rest) ↔
      ∃ t : Blob, b = t.bytes ++ rest ∧ Blob.raw t = s := by
  unfold takeScript
  constructor
  · intro h
    simp only [bind_ok, refuseIf_ok, exists_const, Prod.exists,
      takeCompactRaw_ok, take_ok,
      pure_eq_ok, Except.ok.injEq, Prod.mk.injEq] at h
    obtain ⟨_, _, r, ⟨c, rfl, rfl, rfl⟩, -, script, _, ⟨rfl, hlen⟩,
        rfl, rfl⟩ := h
    exact ⟨⟨c, script, hlen⟩, (List.append_assoc _ _ _).symm, rfl⟩
  · intro h
    obtain ⟨t, rfl, rfl⟩ := h
    rw [Blob.bytes, List.append_assoc,
      takeCompactRaw_ok.mpr ⟨t.size, rfl, rfl, rfl⟩, ok_bind]
    have hfit : ¬ t.size.value > n := by
      rw [Blob.bytes, List.length_append, List.length_append, t.sized] at hb
      omega
    simp only [refuseIf, if_neg hfit, ok_bind]
    rw [take_append t.sized]
    rfl

def WireIn.raw (i : WireIn) : RawInput :=
  ⟨i.prevout.val, Blob.raw i.script, i.sequence.val⟩

def WireOut.raw (o : WireOut) : RawOutput := ⟨o.value.val, Blob.raw o.script⟩

/-- The input walk accepts exactly the wire forms of as many inputs. -/
theorem takeInputs_ok : ∀ {count : Nat} {b : Bytes}
    {l : List RawInput}, b.length ≤ n →
    (takeInputs who n count b = .ok (l, rest) ↔
      ∃ ins : List WireIn, ins.length = count ∧
      b = ins.flatMap WireIn.bytes ++ rest ∧ ins.map WireIn.raw = l) := by
  intro count
  -- one input at a time, each taking at least one byte of the fuel
  induction count with
  | zero =>
    intro b l hb
    simp only [takeInputs, Except.ok.injEq, Prod.mk.injEq,
      List.length_eq_zero_iff]
    constructor
    · intro h
      obtain ⟨rfl, rfl⟩ := h
      exact ⟨[], rfl, rfl, rfl⟩
    · intro h
      obtain ⟨ins, rfl, rfl, rfl⟩ := h
      exact ⟨rfl, rfl⟩
  | succ count ih =>
    intro b l hb
    constructor
    · intro h
      simp only [takeInputs, bind_ok, Prod.exists, take_ok, pure_eq_ok,
        Except.ok.injEq,
        Prod.mk.injEq] at h
      obtain ⟨prevout, _, ⟨rfl, hp⟩, script, _, hs, sequence, _, ⟨rfl, hq⟩,
        inputs, _, hi, rfl,
        rfl⟩ := h
      rw [List.length_append] at hb
      obtain ⟨t, rfl, rfl⟩ := (takeScript_ok (by omega)).mp hs
      rw [List.length_append, List.length_append] at hb
      obtain ⟨ins, rfl, rfl, rfl⟩ := (ih (by omega)).mp hi
      refine ⟨⟨⟨prevout, hp⟩, t, ⟨sequence, hq⟩⟩ :: ins, rfl, ?_, rfl⟩
      simp only [List.flatMap_cons, WireIn.bytes, List.append_assoc]
    · intro h
      obtain ⟨ins, hlen, rfl, rfl⟩ := h
      obtain _ | ⟨i, ins⟩ := ins
      · cases hlen
      · rw [List.length_cons] at hlen
        simp only [List.flatMap_cons, WireIn.bytes, List.append_assoc] at hb ⊢
        rw [takeInputs, take_fixed, ok_bind]
        rw [List.length_append] at hb
        simp only
        rw [(takeScript_ok (by omega)).mpr ⟨i.script, rfl, rfl⟩, ok_bind]
        simp only
        rw [take_fixed, ok_bind]
        rw [List.length_append, List.length_append] at hb
        simp only
        rw [(ih (by omega)).mpr ⟨ins, by omega, rfl, rfl⟩]
        rfl

/-- The output walk accepts exactly the wire forms of as many outputs. -/
theorem takeOutputs_ok : ∀ {count : Nat} {b : Bytes}
    {l : List RawOutput}, b.length ≤ n →
    (takeOutputs who n count b = .ok (l, rest) ↔
      ∃ outs : List WireOut, outs.length = count ∧
      b = outs.flatMap WireOut.bytes ++ rest ∧ outs.map WireOut.raw = l) := by
  intro count
  -- as for the inputs, one output at a time
  induction count with
  | zero =>
    intro b l hb
    simp only [takeOutputs, Except.ok.injEq, Prod.mk.injEq,
      List.length_eq_zero_iff]
    constructor
    · intro h
      obtain ⟨rfl, rfl⟩ := h
      exact ⟨[], rfl, rfl, rfl⟩
    · intro h
      obtain ⟨outs, rfl, rfl, rfl⟩ := h
      exact ⟨rfl, rfl⟩
  | succ count ih =>
    intro b l hb
    constructor
    · intro h
      simp only [takeOutputs, bind_ok, Prod.exists, take_ok, pure_eq_ok,
        Except.ok.injEq,
        Prod.mk.injEq] at h
      obtain ⟨value, _, ⟨rfl, hv⟩, script, _, hs, outputs, _, ho, rfl, rfl⟩ := h
      rw [List.length_append] at hb
      obtain ⟨t, rfl, rfl⟩ := (takeScript_ok (by omega)).mp hs
      rw [List.length_append] at hb
      obtain ⟨outs, rfl, rfl, rfl⟩ := (ih (by omega)).mp ho
      refine ⟨⟨⟨value, hv⟩, t⟩ :: outs, rfl, ?_, rfl⟩
      simp only [List.flatMap_cons, WireOut.bytes, List.append_assoc]
    · intro h
      obtain ⟨outs, hlen, rfl, rfl⟩ := h
      obtain _ | ⟨o, outs⟩ := outs
      · cases hlen
      · rw [List.length_cons] at hlen
        simp only [List.flatMap_cons, WireOut.bytes, List.append_assoc] at hb ⊢
        rw [takeOutputs, take_fixed, ok_bind]
        rw [List.length_append] at hb
        simp only
        rw [(takeScript_ok (by omega)).mpr ⟨o.script, rfl, rfl⟩, ok_bind]
        rw [List.length_append] at hb
        simp only
        rw [(ih (by omega)).mpr ⟨outs, by omega, rfl, rfl⟩]
        rfl

/-! ## The witness section -/

/-- Skipping items passes over as many sized blobs. -/
theorem skipItems_ok : ∀ {count : Nat} {b : Bytes}, b.length ≤ n →
    (skipItems who n count b = .ok rest ↔
      ∃ items : List Blob, items.length = count ∧
      b = items.flatMap Blob.bytes ++ rest) := by
  intro count
  induction count with
  | zero =>
    intro b hb
    simp only [skipItems, Except.ok.injEq, List.length_eq_zero_iff,
      exists_eq_left,
      List.flatMap_nil, List.nil_append]
  | succ count ih =>
    intro b hb
    constructor
    · intro h
      simp only [skipItems, bind_ok, Prod.exists] at h
      obtain ⟨item, r, hs, h⟩ := h
      obtain ⟨t, rfl, -⟩ := (takeScript_ok hb).mp hs
      rw [List.length_append] at hb
      obtain ⟨items, rfl, rfl⟩ := (ih (by omega)).mp h
      exact ⟨t :: items, rfl, by rw [List.flatMap_cons, List.append_assoc]⟩
    · intro h
      obtain ⟨items, hlen, rfl⟩ := h
      obtain _ | ⟨t, items⟩ := items
      · cases hlen
      · rw [List.length_cons] at hlen
        rw [List.flatMap_cons, List.append_assoc] at hb ⊢
        rw [skipItems, (takeScript_ok hb).mpr ⟨t, rfl, rfl⟩, ok_bind]
        rw [List.length_append] at hb
        exact (ih (by omega)).mpr ⟨items, by omega, rfl⟩

/-- Skipping stacks passes over one bounded witness stack per input. -/
theorem skipStacks_ok : ∀ {count : Nat} {b : Bytes}, b.length ≤ n →
    (skipStacks who n count b = .ok rest ↔
      ∃ wits : List WireStack, wits.length = count ∧
      b = wits.flatMap (WireRun.bytes Blob.bytes) ++ rest ∧
      ∀ s ∈ wits, s.count.value ≤ 100000) := by
  intro count
  -- one stack for each input, each with its bound on the items
  induction count with
  | zero =>
    intro b hb
    simp only [skipStacks, Except.ok.injEq, List.length_eq_zero_iff,
      exists_eq_left,
      List.flatMap_nil, List.nil_append, List.not_mem_nil, false_implies,
        implies_true, and_true]
  | succ count ih =>
    intro b hb
    constructor
    · intro h
      simp only [skipStacks, bind_ok, Prod.exists, takeCompactRaw_ok,
        refuseIf_ok, exists_const,
        not_lt] at h
      obtain ⟨_, _, r, ⟨c, rfl, rfl, rfl⟩, hc, r', hi, h⟩ := h
      rw [List.length_append] at hb
      obtain ⟨items, hcount, rfl⟩ := (skipItems_ok (by omega)).mp hi
      rw [List.length_append] at hb
      obtain ⟨wits, rfl, rfl, hstacks⟩ := (ih (by omega)).mp h
      refine ⟨⟨c, items, hcount⟩ :: wits, rfl, ?_, ?_⟩
      · simp only [List.flatMap_cons, WireRun.bytes, List.append_assoc]
      · intro s hs
        rcases List.mem_cons.mp hs with rfl | hs
        · exact hc
        · exact hstacks s hs
    · intro h
      obtain ⟨wits, hlen, rfl, hstacks⟩ := h
      obtain _ | ⟨s, wits⟩ := wits
      · cases hlen
      · rw [List.length_cons] at hlen
        have hs : ¬ s.count.value > 100000 :=
          Nat.not_lt.mpr (hstacks s List.mem_cons_self)
        simp only [List.flatMap_cons, WireRun.bytes, List.append_assoc] at hb ⊢
        rw [skipStacks, takeCompactRaw_ok.mpr ⟨s.count, rfl, rfl, rfl⟩, ok_bind]
        simp only [refuseIf, if_neg hs, ok_bind]
        rw [List.length_append] at hb
        rw [(skipItems_ok (by omega)).mpr ⟨s.items, s.counted, rfl⟩, ok_bind]
        rw [List.length_append] at hb
        exact (ih (by omega)).mpr
          ⟨wits, by omega, rfl, fun t ht => hstacks t (List.mem_cons_of_mem _
            ht)⟩

/-! ## Whole transactions -/

/-- The pieces outside the witness section. -/
def WireTx.parts (w : WireTx) : RawParts :=
  ⟨w.version.val, w.ins.count.bytes, w.ins.items.map WireIn.raw,
    w.outs.count.bytes,
    w.outs.items.map WireOut.raw, w.locktime.val⟩

/-- The non-witness part of a transaction is what the txid is hashed from. -/
theorem WireTx.parts_nonWitness (w : WireTx) :
    (WireTx.parts w).nonWitness = w.stripped := by
  have hin : (w.ins.items.map WireIn.raw).flatMap RawInput.bytes =
      w.ins.items.flatMap WireIn.bytes := by
    rw [List.flatMap_map]
    rfl
  have hout : (w.outs.items.map WireOut.raw).flatMap RawOutput.bytes =
      w.outs.items.flatMap WireOut.bytes := by
    rw [List.flatMap_map]
    rfl
  simp only [RawParts.nonWitness, WireTx.parts, hin, hout, WireTx.stripped,
    WireTx.body, WireRun.bytes, List.nil_append, List.append_assoc]

/-- The counts a strict walker goes along with. -/
structure WireTx.Bounded (w : WireTx) : Prop where
  insPos : w.ins.count.value ≠ 0
  ins : w.ins.count.value ≤ 100000
  outs : w.outs.count.value ≤ 100000
  witness : ∀ wits ∈ w.witness, ∀ s ∈ wits, s.count.value ≤ 100000

/-- Marker and flag stand in front, or nothing is skipped. -/
theorem isSegwit_cases (b : Bytes) :
    (∃ r, b = 0x00 :: 0x01 :: r ∧ isSegwit b = true ∧ skipSegwit b = r) ∨
      (isSegwit b = false ∧ skipSegwit b = b) := by
  unfold isSegwit skipSegwit
  split
  · next r => exact .inl ⟨r, rfl, rfl, rfl⟩
  · next h => exact .inr ⟨rfl, rfl⟩

/-- A transaction whose input count is not zero is not taken for segwit. -/
theorem isSegwit_counted {c : Compact} (h : c.value ≠ 0) (r : Bytes) :
    isSegwit (c.bytes ++ r) = false ∧
      skipSegwit (c.bytes ++ r) = c.bytes ++ r := by
  rcases isSegwit_cases (c.bytes ++ r) with ⟨r', hr, -, -⟩ | hno
  · obtain ⟨t, ht, -⟩ := c.bytes_cons
    rw [ht, List.cons_append] at hr
    have hhead := (List.cons.inj hr).1
    rw [hhead] at ht
    exact absurd ht (Compact.head_ne_zero h t)
  · exact hno

/-- What stands after the version, with the marker recognised and skipped. -/
theorem bytes_skip {w : WireTx} (h : w.ins.count.value ≠ 0) :
    ∃ r, w.bytes = w.version.val ++ r ∧ isSegwit r = w.witness.isSome ∧
      skipSegwit r = w.ins.bytes WireIn.bytes ++
        (w.outs.bytes WireOut.bytes ++ (w.witnessBytes ++ w.locktime.val)) := by
  refine ⟨_, rfl, ?_⟩
  cases hw : w.witness with
  | none =>
    rw [WireTx.marker, hw]
    simp only [Option.isSome_none, Bool.false_eq_true, if_false,
      List.nil_append, WireRun.bytes,
      List.append_assoc]
    exact isSegwit_counted h _
  | some wits =>
    rw [WireTx.marker, hw]
    exact ⟨rfl, rfl⟩

/-- The witness area is skipped up to the locktime. -/
theorem skipWitness_bytes {w : WireTx} (hw : WireTx.Bounded w)
    (hn : w.witnessBytes.length + w.locktime.val.length ≤ n) :
    skipWitness who n w.witness.isSome w.ins.count.value
      (w.witnessBytes ++ w.locktime.val) =
      .ok w.locktime.val := by
  unfold skipWitness
  cases hwit : w.witness with
  | none =>
    rw [WireTx.witnessBytes, hwit]
    rfl
  | some wits =>
    rw [Option.isSome_some, if_pos rfl]
    refine (skipStacks_ok (by rw [List.length_append]; exact hn)).mpr ⟨wits, ?_,
      ?_, hw.witness wits hwit⟩
    · rw [w.stacked wits hwit, w.ins.counted]
    · rw [WireTx.witnessBytes, hwit]
      rfl

/-- **The strict walk is exact.** It accepts the serialisations of the bounded
transactions and no other string. -/
theorem takeTx_ok {needs : Bool} {t : RawParts} :
    takeTx who needs b = .ok t ↔ ∃ w : WireTx, b = w.bytes ∧ WireTx.Bounded w ∧
      (needs = true → w.outs.items ≠ []) ∧ WireTx.parts w = t := by
  constructor
  · intro h
    simp only [takeTx, bind_ok, Prod.exists, take_ok, takeCompactRaw_ok,
      refuseIf_ok, exists_const,
      pure_eq_ok, Except.ok.injEq, not_or, not_and, not_lt, not_not] at h
    obtain ⟨version, r0, ⟨rfl, hver⟩, _, _, r1, ⟨cin, hskip, rfl, rfl⟩,
      ⟨hpos, hin⟩, inputs, r2,
      hinputs, _, _, r3, ⟨cout, rfl, rfl, rfl⟩, ⟨hneeds, hout⟩, outputs, r4,
        houtputs, r5, hwit,
      locktime, _, ⟨rfl, hlock⟩, rfl, rfl⟩ := h
    rw [List.append_nil] at hwit
    -- the fuel: what is left never exceeds what the walk started from
    have hlen : r1.length ≤ (version ++ r0).length := by
      have hs : (skipSegwit r0).length ≤ r0.length := by
        -- with marker and flag a witness follows the outputs, without them the
        -- locktime
        rcases isSegwit_cases r0 with ⟨r', hr, -, hsk⟩ | ⟨-, hsk⟩
        · rw [hsk, hr, List.length_cons, List.length_cons]; omega
        · rw [hsk]
      rw [hskip, List.length_append] at hs
      rw [List.length_append]
      omega
    obtain ⟨ins, hcin, rfl, rfl⟩ := (takeInputs_ok hlen).mp hinputs
    rw [List.length_append, @List.length_append _ cout.bytes] at hlen
    obtain ⟨outs, hcout, rfl, rfl⟩ := (takeOutputs_ok (by omega)).mp houtputs
    rw [List.length_append] at hlen
    have hne : needs = true → outs ≠ [] := by
      intro hn hnil
      subst hnil
      exact hneeds hn hcout.symm
    rcases isSegwit_cases r0 with ⟨r', hr, hseg, hsk⟩ | ⟨hseg, hsk⟩
    · rw [skipWitness, hseg, if_pos rfl] at hwit
      obtain ⟨wits, hcount, rfl, hstacks⟩ := (skipStacks_ok (by omega)).mp hwit
      refine ⟨⟨⟨version, hver⟩, ⟨cin, ins, hcin⟩,
        ⟨cout, outs, hcout⟩, some wits,
        ⟨locktime, hlock⟩, ?_⟩, ?_, ⟨hpos, hin, hout, ?_⟩, hne, rfl⟩
      · intro s hs
        rw [Option.mem_some_iff] at hs
        rw [← hs, hcount, hcin]
      · rw [WireTx.bytes_some rfl, hr, hsk.symm.trans hskip]
        simp only [WireTx.body, WireRun.bytes, List.append_assoc,
          List.cons_append, List.nil_append]
      · intro s hs
        rw [Option.mem_some_iff] at hs
        rw [← hs]
        exact hstacks
    · rw [skipWitness, hseg, if_neg (by decide)] at hwit
      have hlocktime : r4 = locktime := Except.ok.inj hwit
      refine ⟨⟨⟨version, hver⟩, ⟨cin, ins, hcin⟩, ⟨cout, outs, hcout⟩, none,
        ⟨locktime, hlock⟩,
        fun s hs => by cases hs⟩, ?_,
          ⟨hpos, hin, hout, fun s hs => by cases hs⟩, hne, rfl⟩
      rw [WireTx.bytes_none rfl, hsk.symm.trans hskip, hlocktime]
      simp only [WireTx.stripped, WireTx.body, WireRun.bytes, List.append_assoc,
        List.nil_append]
  · intro h
    obtain ⟨w, rfl, hw, hneeds, rfl⟩ := h
    obtain ⟨r, hr, hseg, hskip⟩ := bytes_skip hw.insPos
    have hpos : ¬ (w.ins.count.value = 0 ∨ w.ins.count.value > 100000) := by
      have h1 := hw.insPos
      have h2 := hw.ins
      omega
    have hout : ¬ ((needs = true ∧ w.outs.count.value = 0) ∨
        w.outs.count.value > 100000) := by
      have h1 := hw.outs
      intro h
      rcases h with ⟨hn, h0⟩ | h
      · rw [← w.outs.counted] at h0
        exact hneeds hn (List.length_eq_zero_iff.mp h0)
      · omega
    -- the walk has fuel for each part, since the parts add up to the bytes
    have hlen : w.bytes.length =
        w.version.val.length + w.marker.length + ((w.ins.count.bytes.length +
          (w.ins.items.flatMap WireIn.bytes).length) +
        ((w.outs.count.bytes.length +
          (w.outs.items.flatMap WireOut.bytes).length) +
        (w.witnessBytes.length + w.locktime.val.length))) := by
      simp only [WireTx.bytes, WireTx.body, WireRun.bytes, List.length_append]
      omega
    rw [takeTx, hr, take_fixed, ok_bind, ← hr]
    simp only [hseg, hskip]
    rw [WireRun.bytes, List.append_assoc,
      takeCompactRaw_ok.mpr ⟨w.ins.count, rfl, rfl, rfl⟩, ok_bind]
    simp only [refuseIf, if_neg hpos, ok_bind]
    rw [(takeInputs_ok (by simp only [WireRun.bytes,
      List.length_append]; omega)).mpr
      ⟨w.ins.items, w.ins.counted, rfl, rfl⟩, ok_bind]
    simp only [WireRun.bytes, List.append_assoc]
    rw [takeCompactRaw_ok.mpr ⟨w.outs.count, rfl, rfl, rfl⟩, ok_bind]
    simp only [if_neg hout, ok_bind]
    rw [(takeOutputs_ok (by simp only [List.length_append]; omega)).mpr
      ⟨w.outs.items, w.outs.counted, rfl, rfl⟩, ok_bind]
    simp only
    rw [skipWitness_bytes hw (by omega), ok_bind,
      ← List.append_nil w.locktime.val, take_fixed, ok_bind]
    rfl

/-! ## The outpoint walk -/

/-- The prevout walk returns the outpoint of each input. -/
theorem takePrevouts_bytes :
    ∀ {ins : List WireIn}, (ins.flatMap WireIn.bytes).length ≤ n →
    takePrevouts who n ins.length (ins.flatMap WireIn.bytes ++ rest) =
      .ok (ins.map (·.prevout.val), rest) := by
  intro ins
  induction ins with
  | nil => intro _; rfl
  | cons i ins ih =>
    intro hb
    simp only [List.flatMap_cons, WireIn.bytes, Blob.bytes,
      List.append_assoc] at hb ⊢
    simp only [List.length_append, i.script.sized] at hb
    have hfit : ¬ i.script.size.value > n := by omega
    rw [List.length_cons, takePrevouts, take_fixed, ok_bind]
    simp only
    rw [takeCompact_bytes, ok_bind]
    simp only [refuseIf, if_neg hfit, ok_bind]
    rw [take_append i.script.sized, ok_bind]
    simp only
    rw [take_fixed, ok_bind]
    simp only
    rw [ih (by omega)]
    rfl

/-- The outpoint walk reads the prevouts of every bounded transaction. -/
theorem btcInputOutpointsFromRaw_bytes {w : WireTx} (hw : WireTx.Bounded w) :
    btcInputOutpointsFromRaw w.bytes = .ok
      (w.ins.items.map (·.prevout.val)) := by
  obtain ⟨r, hr, -, hskip⟩ := bytes_skip hw.insPos
  have hpos : ¬ (w.ins.count.value = 0 ∨ w.ins.count.value > 100000) := by
    have h1 := hw.insPos
    have h2 := hw.ins
    omega
  have hlen : (w.ins.items.flatMap WireIn.bytes).length ≤ w.bytes.length := by
    simp only [WireTx.bytes, WireTx.body, WireRun.bytes, List.length_append]
    omega
  rw [btcInputOutpointsFromRaw, hr, take_fixed, ok_bind, ← hr]
  simp only [hskip, WireRun.bytes, List.append_assoc]
  rw [takeCompact_bytes, ok_bind]
  simp only [refuseIf, if_neg hpos, ok_bind]
  rw [← w.ins.counted, takePrevouts_bytes hlen]
  rfl

/-! ## The tolerant walk -/

theorem readSized_bytes {t : Blob} (h : t.size.value ≤ n) :
    readSized n (t.bytes ++ rest) = some (t.data, rest) := by
  rw [readSized, Blob.bytes, List.append_assoc, readCompact_bytes]
  simp only [Option.bind_eq_bind, Option.bind_some, if_neg (Nat.not_lt.mpr h)]
  exact readBytes_append t.sized

/-- Stepping over items that spell a field, a script and another field. -/
theorem readOver_bytes {α : Type} {width tail : Nat} (enc : α → Bytes)
    (hsplit : ∀ a, ∃ (x : Fixed width) (t : Blob) (y : Fixed tail), enc a =
      x.val ++ (t.bytes ++ y.val)) :
    ∀ {items : List α}, (items.flatMap enc).length ≤ n →
      readOver n width tail items.length (items.flatMap enc ++ rest) =
        some rest := by
  intro items
  induction items with
  | nil => intro _; rfl
  | cons a items ih =>
    intro hb
    obtain ⟨x, t, y, ha⟩ := hsplit a
    rw [List.flatMap_cons, List.length_append, ha] at hb
    simp only [List.length_append, Blob.bytes, t.sized] at hb
    rw [List.length_cons, readOver, List.flatMap_cons, ha]
    simp only [List.append_assoc]
    rw [readBytes_append x.property]
    simp only [Option.bind_eq_bind, Option.bind_some]
    rw [readSized_bytes (by omega)]
    simp only [Option.bind_some]
    rw [readBytes_append y.property]
    simp only [Option.bind_some]
    exact ih (by omega)

theorem readItems_bytes :
    ∀ {items : List Blob}, (items.flatMap Blob.bytes).length ≤ n →
    readItems n items.length (items.flatMap Blob.bytes ++ rest) =
      some (items.map (·.data), rest) := by
  intro items
  induction items with
  | nil => intro _; rfl
  | cons t items ih =>
    intro hb
    rw [List.flatMap_cons, List.length_append] at hb
    have hfit : t.size.value ≤ n := by
      rw [Blob.bytes, List.length_append, t.sized] at hb
      omega
    rw [List.length_cons, readItems, List.flatMap_cons, List.append_assoc,
      readSized_bytes hfit]
    simp only [Option.bind_eq_bind, Option.bind_some]
    rw [ih (by omega)]
    rfl

theorem readStacks_bytes : ∀ {wits : List WireStack},
    (wits.flatMap (WireRun.bytes Blob.bytes)).length ≤ n →
    (∀ s ∈ wits, s.count.value ≤ 100000) →
    readStacks n wits.length (wits.flatMap (WireRun.bytes Blob.bytes) ++ rest) =
      wits.map fun s => s.items.map (·.data) := by
  intro wits
  induction wits with
  | nil => intro _ _; rfl
  | cons s wits ih =>
    intro hb hs
    have hcount : ¬ s.count.value > 100000 :=
      Nat.not_lt.mpr (hs s List.mem_cons_self)
    simp only [List.flatMap_cons, WireRun.bytes, List.append_assoc] at hb ⊢
    rw [List.length_append, List.length_append] at hb
    rw [List.length_cons, readStacks, readCompact_bytes]
    simp only [if_neg hcount]
    rw [← s.counted, readItems_bytes (by omega)]
    simp only
    rw [ih (by omega) (fun t ht => hs t (List.mem_cons_of_mem _ ht))]
    rfl

/-- The tolerant walk gives back one complete stack per input. -/
theorem iterWitnessStack_bytes {w : WireTx} {wits : List WireStack}
    (hw : WireTx.Bounded w)
    (hwit : w.witness = some wits) :
    iterWitnessStack w.bytes = wits.map fun s => s.items.map (·.data) := by
  have hpos : ¬ (w.ins.count.value = 0 ∨ w.ins.count.value > 100000) := by
    have h1 := hw.insPos
    have h2 := hw.ins
    omega
  -- inputs and outputs are skipped alike: a head, a sized blob and a tail
  have hins : ∀ i : WireIn, ∃ (x : Fixed 36) (t : Blob) (y : Fixed 4),
      i.bytes = x.val ++ (t.bytes ++ y.val) :=
    fun i => ⟨i.prevout, i.script, i.sequence, List.append_assoc _ _ _⟩
  have houts : ∀ o : WireOut, ∃ (x : Fixed 8) (t : Blob) (y : Fixed 0),
      o.bytes = x.val ++ (t.bytes ++ y.val) :=
    fun o => ⟨o.value, o.script, ⟨[], rfl⟩, by rw [List.append_nil]; rfl⟩
  have hlen : (w.ins.items.flatMap WireIn.bytes).length +
      ((w.outs.items.flatMap WireOut.bytes).length +
        (wits.flatMap (WireRun.bytes Blob.bytes)).length) ≤ w.bytes.length := by
    rw [WireTx.bytes_some hwit]
    simp only [WireTx.body, WireRun.bytes, List.length_append]
    omega
  have hto : readToWitness w.bytes = some (w.ins.count.value,
      wits.flatMap (WireRun.bytes Blob.bytes) ++ w.locktime.val) := by
    rw [readToWitness]
    conv_lhs => arg 1; rw [WireTx.bytes_some hwit, WireTx.body,
      readBytes_append w.version.property]
    simp only [Option.bind_eq_bind, Option.bind_some]
    rw [readBytes_append (x := [0x00, 0x01]) (k := 2) rfl]
    simp only [Option.bind_some, guard, if_true, Option.pure_def, WireRun.bytes,
      List.append_assoc]
    rw [readCompact_bytes]
    simp only [Option.bind_some, if_pos hpos]
    rw [← w.ins.counted, readOver_bytes WireIn.bytes hins (by omega)]
    simp only [Option.bind_some]
    rw [readCompact_bytes]
    simp only [Option.bind_some, if_pos (Nat.not_lt.mpr hw.outs)]
    rw [← w.outs.counted, readOver_bytes WireOut.bytes houts (by omega)]
    rfl
  have hstacked : w.ins.count.value = wits.length := by
    rw [← w.ins.counted, w.stacked wits hwit]
  rw [iterWitnessStack, hto]
  simp only
  rw [hstacked]
  exact readStacks_bytes (by omega) (hw.witness wits hwit)

end Pyrxd.Btc
