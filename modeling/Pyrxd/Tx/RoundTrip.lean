import Mathlib.Tactic.Zify
import Pyrxd.Tx.Transaction

/-!
# Parsing what was serialised

`Transaction.from_hex` and `Transaction.serialize` against the transaction
grammar of `Lib.TxWire`. A short read leaves nothing for the next one, and the
next one raises: so every field but the last is read whole. What the parser does
not look at is how a length is spelled, whether the locktime has all its bytes,
and whether anything follows it.

Main result: `fromHex_exact_iff` — what is parsed serialises to the bytes it
came from, exactly when these bytes are not of one of those three kinds.
-/

namespace Pyrxd.Tx

open Pyrxd.Lib Reader

/-! ## Reads -/

variable {r rest x : Bytes} {k n : Nat}

/-- A read takes the prefix asked for. -/
theorem read_append (h : x.length = k) (hk : 0 < k) :
    Reader.read k (x ++ rest) = (some x, rest) := by
  have hne : x ≠ [] := by
    rintro rfl
    rw [List.length_nil] at h
    omega
  rw [Reader.read, List.take_left' h, List.drop_left' h, if_neg hne]

theorem readLe_append (h : x.length = k) (hk : 0 < k) :
    readLe k (x ++ rest) = (some (leNat x), rest) := by
  rw [readLe, read_append h hk]
  rfl

theorem readLe_nil (k : Nat) : readLe k [] = (none, []) := by
  rw [readLe, Reader.read, List.take_nil, List.drop_nil, if_pos rfl]
  rfl

/-- A read that gives something gives all of it, or leaves nothing. -/
theorem readLe_some (h : readLe k r = (some n, rest)) :
    n = leNat (r.take k) ∧ rest = r.drop k ∧ r ≠ [] ∧
      ((∃ x, x.length = k ∧ r = x ++ rest ∧ n = leNat x) ∨ rest = []) := by
  rw [readLe, Reader.read] at h
  simp only [Prod.mk.injEq] at h
  obtain ⟨hn, rfl⟩ := h
  have hne : r ≠ [] := by
    rintro rfl
    rw [List.take_nil, if_pos rfl] at hn
    cases hn
  split at hn
  · cases hn
  · rw [Option.map_some, Option.some.injEq] at hn
    refine ⟨hn.symm, rfl, hne, ?_⟩
    by_cases hlen : k ≤ r.length
    · exact .inl ⟨r.take k, List.length_take_of_le hlen,
        (List.take_append_drop k r).symm, hn.symm⟩
    · exact .inr (List.drop_eq_nil_of_le (by omega))

/-- A read of bytes takes what there is. -/
theorem readBytes_eq (k : Nat) (r : Bytes) :
    readBytes k r = (r.take k, r.drop k) := by
  rw [readBytes, Reader.read]
  simp only [Prod.mk.injEq, and_true]
  split
  · next h => exact h.symm
  · rfl

/-- The prefix byte, then as many bytes as it announces. -/
theorem readVarIntNum_cons (v : UInt8) (b : Bytes) : readVarIntNum (v :: b) =
    if v.toNat < 0xFD then (some v.toNat, b)
      else readLe (CompactForm.ofTag v).width b := by
  have hfirst : readLe 1 (v :: b) = (some v.toNat, b) := by
    have h : readLe 1 ([v] ++ b) = (some (leNat [v]), b) :=
      readLe_append rfl Nat.one_pos
    rw [leNat_singleton] at h
    exact h
  rw [readVarIntNum, hfirst]
  by_cases hv : v.toNat < 0xFD
  · rw [if_pos hv]
    exact if_pos hv
  · rw [if_neg hv, ← CompactForm.width_ofTag hv]
    have hv' : ¬ v.toNat < 253 := hv
    simp only [if_neg hv']
    split
    · rfl
    · split <;> rfl

/-- A written compact size is read. -/
theorem readVarIntNum_bytes (c : Compact) :
    readVarIntNum (c.bytes ++ rest) = (some c.value, rest) := by
  have hparse := Compact.parse_bytes c rest
  cases hb : c.bytes ++ rest with
  | nil =>
    rw [hb] at hparse
    cases hparse
  | cons v b =>
    rw [hb] at hparse
    rw [readVarIntNum_cons]
    by_cases hv : v.toNat < 0xFD
    · obtain ⟨d, hd, hval, -, -⟩ := Compact.parse_one (b := b) hv
      rw [hd, Option.some.injEq, Prod.mk.injEq] at hparse
      rw [if_pos hv, ← hparse.1, ← hparse.2, hval]
    · rw [if_neg hv]
      by_cases hw : (CompactForm.ofTag v).width ≤ b.length
      · obtain ⟨d, hd, hval, -, -⟩ := Compact.parse_tagged hv hw
        rw [hd, Option.some.injEq, Prod.mk.injEq] at hparse
        have hpos := CompactForm.width_ofTag_pos hv
        have hread : readLe _ (b.take (CompactForm.ofTag v).width ++
            b.drop (CompactForm.ofTag v).width) = _ :=
              readLe_append (List.length_take_of_le hw) hpos
        rw [List.take_append_drop] at hread
        rw [hread, ← hparse.1, ← hparse.2, hval]
      · rw [Compact.parse_short hv hw] at hparse
        cases hparse

theorem readVarIntNum_nil : readVarIntNum [] = (none, []) := by
  rw [readVarIntNum, readLe_nil]

/-- What is read was written, or the reader ran out. -/
theorem readVarIntNum_some (h : readVarIntNum r = (some n, rest)) :
    (∃ c : Compact, r = c.bytes ++ rest ∧ c.value = n) ∨ rest = [] := by
  cases r with
  | nil =>
    rw [readVarIntNum_nil] at h
    cases h
  | cons v b =>
    rw [readVarIntNum_cons] at h
    by_cases hv : v.toNat < 0xFD
    · rw [if_pos hv, Prod.mk.injEq, Option.some.injEq] at h
      obtain ⟨rfl, rfl⟩ := h
      obtain ⟨c, hc, hval, -, -⟩ := Compact.parse_one (b := b) hv
      exact .inl ⟨c, Compact.bytes_of_parse hc, hval⟩
    · rw [if_neg hv] at h
      obtain ⟨hn, hrest, -, -⟩ := readLe_some h
      by_cases hw : (CompactForm.ofTag v).width ≤ b.length
      · obtain ⟨c, hc, hval, -, -⟩ := Compact.parse_tagged hv hw
        exact .inl
          ⟨c, by rw [hrest]; exact Compact.bytes_of_parse hc, by rw [hval, hn]⟩
      · rw [hrest]
        exact .inr (List.drop_eq_nil_of_le (by omega))

theorem require_ok {α : Type} {msg : String} {p : Option α × Bytes} {a : α} :
    require msg p = .ok (a, rest) ↔ p = (some a, rest) := by
  obtain ⟨o, r⟩ := p
  cases o with
  | none => exact ⟨nofun, nofun⟩
  | some b =>
    rw [Reader.require, Except.ok.injEq, Prod.mk.injEq, Prod.mk.injEq,
      Option.some.injEq]

/-! ## Inputs and outputs -/

/-- What is read from an input of the grammar. -/
def inputOf (w : WireIn) : TransactionInput where
  sourceTxid := some (hex (w.prevout.val.take 32).reverse)
  sourceOutputIndex := leNat (w.prevout.val.drop 32)
  unlockingScript := some w.script.data
  sequence := leNat w.sequence.val
  satoshis := none
  lockingScript := none
  sighash := sighashAllForkid

def outputOf (w : WireOut) : TransactionOutput :=
  ⟨w.script.data, some (leNat w.value.val)⟩

theorem TransactionInput.fromReader_bytes (w : WireIn) :
    TransactionInput.fromReader (w.bytes ++ rest) = .ok (inputOf w, rest) := by
  have hprev : w.prevout.val = w.prevout.val.take 32 ++ w.prevout.val.drop 32 :=
    (List.take_append_drop 32 _).symm
  have h32 : (w.prevout.val.take 32).length = 32 := by
    rw [List.length_take_of_le (by rw [w.prevout.property]; decide)]
  have h4 : (w.prevout.val.drop 32).length = 4 := by
    rw [List.length_drop, w.prevout.property]
  have hr : w.bytes ++ rest =
      w.prevout.val.take 32 ++ (w.prevout.val.drop 32 ++ (w.script.size.bytes ++
      (w.script.data ++ (w.sequence.val ++ rest)))) := by
    rw [WireIn.bytes, Blob.bytes]
    conv_lhs => rw [hprev]
    simp only [List.append_assoc]
  unfold TransactionInput.fromReader
  rw [hr, readBytes_eq]
  simp only [List.take_left' h32, List.drop_left' h32, h32, ne_eq,
    not_true, if_false]
  rw [require_ok.mpr (readLe_append h4 (by decide)), ok_bind]
  simp only
  rw [require_ok.mpr (readVarIntNum_bytes _), ok_bind]
  simp only
  rw [readBytes_eq, List.take_left' w.script.sized,
    List.drop_left' w.script.sized]
  simp only
  rw [require_ok.mpr (readLe_append w.sequence.property (by decide)), ok_bind]
  rfl

/-- A parsed input was all there, or the data ended with it. -/
theorem TransactionInput.fromReader_ok {i : TransactionInput}
    (h : TransactionInput.fromReader r = .ok (i, rest)) :
    r ≠ [] ∧ ((∃ w : WireIn, r = w.bytes ++ rest ∧ i = inputOf w) ∨
      rest = []) := by
  unfold TransactionInput.fromReader at h
  rw [readBytes_eq] at h
  simp only at h
  by_cases h32 : (r.take 32).length = 32
  · rw [if_neg (by simpa using h32)] at h
    have hne : r ≠ [] := by
      rintro rfl
      rw [List.take_nil] at h32
      cases h32
    refine ⟨hne, ?_⟩
    obtain ⟨⟨vout, r1⟩, hvout, h⟩ := bind_ok.mp h
    obtain ⟨⟨scriptLength, r2⟩, hlen, h⟩ := bind_ok.mp h
    rw [readBytes_eq] at h
    obtain ⟨⟨sequence, r3⟩, hseq, h⟩ := bind_ok.mp h
    cases h
    obtain ⟨-, -, -, hvout⟩ := readLe_some (require_ok.mp hvout)
    have hlen := readVarIntNum_some (require_ok.mp hlen)
    obtain ⟨-, -, hne3, hseq⟩ := readLe_some (require_ok.mp hseq)
    rcases hseq with ⟨seqB, hseqLen, hr2, rfl⟩ | hend
    · -- the sequence number is whole, so there was something to read all along
      have hscript : (r2.take scriptLength).length = scriptLength := by
        apply List.length_take_of_le
        by_contra hshort
        exact hne3
          (List.drop_eq_nil_of_le (Nat.le_of_lt (Nat.lt_of_not_le hshort)))
      have hr2ne : r2 ≠ [] := by
        rintro rfl
        exact hne3 List.drop_nil
      rcases hlen with ⟨c, hr1, rfl⟩ | hend
      · have hr1ne : r1 ≠ [] := by
          intro hnil
          obtain ⟨t, ht, -⟩ := c.bytes_cons
          rw [hnil, ht] at hr1
          cases hr1
        rcases hvout with ⟨voutB, hvoutLen, hr0, rfl⟩ | hend
        · left
          refine ⟨⟨⟨r.take 32 ++ voutB, by rw [List.length_append,
            h32, hvoutLen]⟩,
            ⟨c, r2.take c.value, hscript⟩, ⟨seqB, hseqLen⟩⟩, ?_, ?_⟩
          · rw [WireIn.bytes, Blob.bytes]
            simp only [List.append_assoc]
            rw [← hr2, List.take_append_drop, ← hr1, ← hr0,
              List.take_append_drop]
          · rw [inputOf]
            simp only [List.take_left' h32, List.drop_left' h32]
        · exact absurd hend hr1ne
      · exact absurd hend hr2ne
    · exact .inr hend
  · rw [if_pos h32] at h
    cases h

theorem TransactionOutput.fromReader_bytes (w : WireOut) :
    TransactionOutput.fromReader (w.bytes ++ rest) = .ok
      (outputOf w, rest) := by
  have hr : w.bytes ++ rest =
      w.value.val ++ (w.script.size.bytes ++ (w.script.data ++ rest)) := by
    rw [WireOut.bytes, Blob.bytes]
    simp only [List.append_assoc]
  unfold TransactionOutput.fromReader
  rw [hr, require_ok.mpr (readLe_append w.value.property (by decide)), ok_bind]
  simp only
  rw [require_ok.mpr (readVarIntNum_bytes _), ok_bind]
  simp only
  rw [readBytes_eq, List.take_left' w.script.sized,
    List.drop_left' w.script.sized]
  simp only [w.script.sized, ne_eq, not_true, if_false]
  rfl

/-- An output that is read was written, or cut short at the end. -/
theorem TransactionOutput.fromReader_ok {o : TransactionOutput}
    (h : TransactionOutput.fromReader r = .ok (o, rest)) :
    r ≠ [] ∧ ((∃ w : WireOut, r = w.bytes ++ rest ∧ o = outputOf w) ∨
      rest = []) := by
  unfold TransactionOutput.fromReader at h
  obtain ⟨⟨value, r1⟩, hvalue, h⟩ := bind_ok.mp h
  obtain ⟨⟨scriptLength, r2⟩, hlen, h⟩ := bind_ok.mp h
  simp only [readBytes_eq] at h
  obtain ⟨-, -, hne, hvalue⟩ := readLe_some (require_ok.mp hvalue)
  refine ⟨hne, ?_⟩
  have hlen := readVarIntNum_some (require_ok.mp hlen)
  by_cases hscript : (r2.take scriptLength).length = scriptLength
  · rw [if_neg (by simpa using hscript)] at h
    cases h
    rcases hlen with ⟨c, hr1, rfl⟩ | hend
    · have hr1ne : r1 ≠ [] := by
        intro hnil
        obtain ⟨t, ht, -⟩ := c.bytes_cons
        rw [hnil, ht] at hr1
        cases hr1
      rcases hvalue with ⟨valueB, hvalueLen, hr0, rfl⟩ | hend
      · left
        refine ⟨⟨⟨valueB, hvalueLen⟩, ⟨c, r2.take c.value, hscript⟩⟩, ?_, rfl⟩
        rw [WireOut.bytes, Blob.bytes]
        simp only [List.append_assoc]
        rw [List.take_append_drop, ← hr1, ← hr0]
      · exact absurd hend hr1ne
    · -- a length cut short is followed by nothing
      rw [hend, List.drop_nil]
      exact .inr rfl
  · rw [if_pos hscript] at h
    cases h

/-! ## Runs -/

section Runs

variable {α β : Type} {msg : String} {one : Bytes → Except PyErr (α × Bytes)}
  {enc : β → Bytes}
  {val : β → α}

theorem readAll_bytes (h : ∀ b rest, one (enc b ++ rest) = .ok (val b, rest)) :
    ∀ items : List β, readAll msg one items.length (items.flatMap enc ++ rest) =
      .ok (items.map val, rest) := by
  intro items
  induction items with
  | nil => rfl
  | cons b items ih =>
    rw [List.length_cons, readAll, List.flatMap_cons, List.append_assoc, h]
    simp only
    rw [ih]
    rfl

/-- A run of items was all there, or the data ended with it. -/
theorem readAll_ok (h : ∀ r a rest, one r = .ok (a, rest) →
      r ≠ [] ∧ ((∃ b, r = enc b ++ rest ∧ a = val b) ∨ rest = [])) :
    ∀ {count : Nat} {r : Bytes} {l : List α}, readAll msg one count r =
    .ok (l, rest) →
      (∃ items : List β, items.length = count ∧ r = items.flatMap enc ++ rest ∧
        l = items.map val) ∨
        rest = [] := by
  intro count
  induction count with
  | zero =>
    intro r l hread
    cases hread
    exact .inl ⟨[], rfl, rfl, rfl⟩
  | succ count ih =>
    intro r l hread
    rw [readAll] at hread
    split at hread
    · cases hread
    · next a r1 hone =>
      obtain ⟨⟨l1, r2⟩, hrest, hread⟩ := bind_ok.mp hread
      cases hread
      rcases ih hrest with ⟨items, hlen, hr1, hl⟩ | hend
      · rcases (h r a r1 hone).2 with ⟨b, hr, rfl⟩ | hend
        · refine .inl ⟨b :: items, by rw [List.length_cons,
            hlen], ?_, by rw [List.map_cons, hl]⟩
          rw [List.flatMap_cons, List.append_assoc, ← hr1, hr]
        · -- nothing is left for the rest of the run
          right
          rw [hend] at hr1
          exact (List.append_eq_nil_iff.mp hr1.symm).2
      · exact .inr hend

end Runs

/-! ## Transactions -/

/-- What the parser has seen of its data: everything up to the locktime, and the
rest. -/
structure ReadTx where
  version : Fixed 4
  ins : WireRun WireIn
  outs : WireRun WireOut
  tail : Bytes
  ended : tail ≠ []

def ReadTx.bytes (w : ReadTx) : Bytes :=
  w.version.val ++ (w.ins.bytes WireIn.bytes ++
    (w.outs.bytes WireOut.bytes ++ w.tail))

def ReadTx.tx (w : ReadTx) : Transaction where
  inputs := w.ins.items.map inputOf
  outputs := w.outs.items.map outputOf
  version := leNat w.version.val
  locktime := leNat (w.tail.take 4)

/-- One way of reading. -/
theorem ReadTx.bytes_inj {w v : ReadTx} (h : w.bytes = v.bytes) :
    w.version = v.version ∧ w.ins = v.ins ∧ w.outs = v.outs ∧
    w.tail = v.tail := by
  rw [bytes, bytes] at h
  obtain ⟨hversion, h⟩ := Fixed.delimited 4 _ _ _ _ h
  obtain ⟨hins, h⟩ := WireIn.delimited.run _ _ _ _ h
  obtain ⟨houts, htail⟩ := WireOut.delimited.run _ _ _ _ h
  exact ⟨hversion, hins, houts, htail⟩

theorem readLe_of_ne_nil (h : r ≠ []) (hk : 0 < k) :
    readLe k r = (some (leNat (r.take k)), r.drop k) := by
  have hne : r.take k ≠ [] := by
    intro hnil
    rcases List.take_eq_nil_iff.mp hnil with hk0 | hr
    · omega
    · exact h hr
  rw [readLe, Reader.read, if_neg hne]
  rfl

/-- **What the parser reads**, and all it reads. -/
theorem fromReader_ok {t : Transaction} :
    Transaction.fromReader r = .ok (t, rest) ↔
    ∃ w : ReadTx, r = w.bytes ∧ t = w.tx ∧ rest = w.tail.drop 4 := by
  constructor
  · intro h
    unfold Transaction.fromReader at h
    obtain ⟨⟨version, r1⟩, hversion, h⟩ := bind_ok.mp h
    obtain ⟨⟨inputsCount, r2⟩, hnIn, h⟩ := bind_ok.mp h
    obtain ⟨⟨inputs, r3⟩, hinputs, h⟩ := bind_ok.mp h
    obtain ⟨⟨outputsCount, r4⟩, hnOut, h⟩ := bind_ok.mp h
    obtain ⟨⟨outputs, r5⟩, houtputs, h⟩ := bind_ok.mp h
    obtain ⟨⟨locktime, r6⟩, hlocktime, h⟩ := bind_ok.mp h
    cases h
    obtain ⟨-, -, -, hversion⟩ := readLe_some (require_ok.mp hversion)
    have hnIn := require_ok.mp hnIn
    have hnOut := require_ok.mp hnOut
    obtain ⟨rfl, rfl, hne5, -⟩ := readLe_some (require_ok.mp hlocktime)
    -- backwards: each reader found something, so the one before left something
    have houts := (readAll_ok (fun r a rest =>
      TransactionOutput.fromReader_ok) houtputs).resolve_right hne5
    obtain ⟨outs, houtsLen, hr4, rfl⟩ := houts
    have hne4 : r4 ≠ [] := by
      rw [hr4]
      exact List.append_ne_nil_of_right_ne_nil _ hne5
    obtain ⟨cOut, hr3, hcOut⟩ := (readVarIntNum_some hnOut).resolve_right hne4
    have hne3 : r3 ≠ [] := by
      rintro rfl
      rw [readVarIntNum_nil] at hnOut
      cases hnOut
    have hins := (readAll_ok (fun r a rest =>
      TransactionInput.fromReader_ok) hinputs).resolve_right hne3
    obtain ⟨ins, hinsLen, hr2, rfl⟩ := hins
    have hne2 : r2 ≠ [] := by
      rw [hr2]
      exact List.append_ne_nil_of_right_ne_nil _ hne3
    obtain ⟨cIn, hr1, hcIn⟩ := (readVarIntNum_some hnIn).resolve_right hne2
    have hne1 : r1 ≠ [] := by
      rintro rfl
      rw [readVarIntNum_nil] at hnIn
      cases hnIn
    obtain ⟨versionB, hversionLen, hr, rfl⟩ := hversion.resolve_right hne1
    refine ⟨⟨⟨versionB, hversionLen⟩, ⟨cIn, ins, by rw [hinsLen, hcIn]⟩,
      ⟨cOut, outs, by rw [houtsLen, hcOut]⟩,
      r5, hne5⟩, ?_, rfl, rfl⟩
    simp only [ReadTx.bytes, WireRun.bytes, List.append_assoc]
    rw [← hr4, ← hr3, ← hr2, ← hr1, ← hr]
  · intro h
    obtain ⟨w, rfl, rfl, rfl⟩ := h
    unfold Transaction.fromReader
    simp only [ReadTx.bytes, WireRun.bytes, List.append_assoc]
    rw [require_ok.mpr (readLe_append w.version.property (by decide)), ok_bind]
    simp only
    rw [require_ok.mpr (readVarIntNum_bytes _), ok_bind]
    simp only
    rw [← w.ins.counted, readAll_bytes (fun b rest =>
      TransactionInput.fromReader_bytes b), ok_bind]
    simp only
    rw [require_ok.mpr (readVarIntNum_bytes _), ok_bind]
    simp only
    rw [← w.outs.counted, readAll_bytes (fun b rest =>
      TransactionOutput.fromReader_bytes b), ok_bind]
    simp only
    rw [require_ok.mpr (readLe_of_ne_nil w.ended (by decide)), ok_bind]
    rfl

theorem fromHex_some {t : Transaction} : Transaction.fromHex r = some t ↔
    ∃ w : ReadTx, r = w.bytes ∧ t = w.tx := by
  unfold Transaction.fromHex
  cases hread : Transaction.fromReader r with
  | error e =>
    refine ⟨nofun, fun h => ?_⟩
    obtain ⟨w, hr, ht⟩ := h
    rw [fromReader_ok.mpr ⟨w, hr, ht, rfl⟩] at hread
    cases hread
  | ok p =>
    obtain ⟨u, rest⟩ := p
    obtain ⟨w, hr, hu, -⟩ := fromReader_ok.mp hread
    simp only [Option.some.injEq]
    constructor
    · intro h
      subst h
      exact ⟨w, hr, hu⟩
    · intro h
      obtain ⟨v, hr', rfl⟩ := h
      rw [fromReader_ok.mpr ⟨v, hr', rfl, rfl⟩] at hread
      cases hread
      rfl

/-! ## Serialisation -/

/-- A number in range is packed. -/
theorem toBytesLe_of_range {n : Int} (h : 0 ≤ n ∧ n < 256 ^ k) :
    toBytesLe k n = .ok (leBytes k n.toNat) := by
  rw [toBytesLe, if_neg (by omega), if_pos h.2]

/-- Packing a number read gives its bytes back. -/
theorem toBytesLe_leNat (h : x.length = k) : toBytesLe k (leNat x) = .ok x := by
  have hlt := leNat_lt x
  rw [h] at hlt
  rw [toBytesLe_of_range ⟨by omega, by exact_mod_cast hlt⟩, Int.toNat_natCast,
    ← h, leBytes_leNat]

theorem leNat_toBytesLe {n : Int} (h : 0 ≤ n ∧ n < 256 ^ k) :
    (leNat (leBytes k n.toNat) : Int) = n := by
  have hlt : n.toNat < 256 ^ k := by
    have := h.2
    zify
    omega
  rw [leNat_leBytes hlt]
  omega

/-- A number below `2^64` has a varint. -/
theorem unsignedToVarint_of_lt (h : n < 256 ^ 8) :
    unsignedToVarint n = .ok (compactBytes n) := by
  rw [unsignedToVarint, if_neg (by omega)]

/-- A script below that length is sized. -/
theorem scriptBytes_some (h : x.length < 256 ^ 8) :
    scriptBytes (some x) = .ok (Blob.ofBytes x h).bytes := by
  rw [scriptBytes, unsignedToVarint_of_lt h]
  rfl

/-- A missing one counts as empty. -/
theorem scriptBytes_getD (o : Option Bytes) (h : (o.getD []).length < 256 ^ 8) :
    scriptBytes o = .ok (Blob.ofBytes (o.getD []) h).bytes := by
  cases o with
  | none => rfl
  | some script => exact scriptBytes_some h

/-- A canonical blob is what `serialize` writes of its bytes. -/
theorem scriptBytes_data {s : Blob} (h : s.Canonical) :
    scriptBytes (some s.data) = .ok s.bytes := by
  have hlt : s.data.length < 256 ^ 8 := by
    rw [s.sized]
    exact s.size.value_lt
  rw [scriptBytes, unsignedToVarint_of_lt hlt, ok_bind,
    Blob.bytes_of_canonical h]
  rfl

/-- A canonical input is written as it was read. -/
theorem serialize_inputOf {w : WireIn} (h : w.script.Canonical) :
    (inputOf w).serialize = .ok w.bytes := by
  have htxid : txidBytes (inputOf w).sourceTxid =
      .ok (w.prevout.val.take 32) := by
    show txidBytes (some (hex (w.prevout.val.take 32).reverse)) = _
    rw [txidBytes, fromHex_hex]
    simp only [List.reverse_reverse]
  have h4 : (w.prevout.val.drop 32).length = 4 := by
    rw [List.length_drop, w.prevout.property]
  rw [TransactionInput.serialize, htxid, ok_bind]
  show (toBytesLe 4 (leNat (w.prevout.val.drop 32)) >>= fun index =>
    scriptBytes (some w.script.data) >>= fun script =>
      toBytesLe 4 (leNat w.sequence.val) >>= fun sequence =>
        pure (w.prevout.val.take 32 ++ index ++ script ++ sequence)) = _
  rw [toBytesLe_leNat h4, ok_bind, scriptBytes_data h, ok_bind,
    toBytesLe_leNat w.sequence.property,
    ok_bind, List.take_append_drop]
  rfl

theorem serialize_outputOf {w : WireOut} (h : w.script.Canonical) :
    (outputOf w).serialize = .ok w.bytes := by
  show (toBytesLe 8 (leNat w.value.val) >>= fun satoshis =>
    scriptBytes (some w.script.data) >>= fun script => pure (satoshis ++ script)) = _
  rw [toBytesLe_leNat w.value.property, ok_bind, scriptBytes_data h]
  rfl

theorem joinAll_map {α β : Type} {f : α → Except PyErr Bytes} {enc : β → Bytes}
    {val : β → α} :
    ∀ {items : List β}, (∀ b ∈ items, f (val b) = .ok (enc b)) →
      joinAll f (items.map val) = .ok (items.flatMap enc) := by
  intro items
  induction items with
  | nil => intro _; rfl
  | cons b items ih =>
    intro h
    rw [List.map_cons, joinAll, h b List.mem_cons_self, ok_bind,
      ih fun c hc => h c (List.mem_cons_of_mem _ hc)]
    rfl

/-- The transaction of the grammar, as it is parsed. -/
def txOf (w : WireTx) : Transaction where
  inputs := w.ins.items.map inputOf
  outputs := w.outs.items.map outputOf
  version := leNat w.version.val
  locktime := leNat w.locktime.val

/-- **Canonical transactions are written back** as they were. -/
theorem serialize_txOf {w : WireTx} (h : w.Canonical) :
    (txOf w).serialize = .ok w.stripped := by
  show (toBytesLe 4 (leNat w.version.val) >>= fun version =>
    unsignedToVarint (w.ins.items.map inputOf).length >>= fun nIn =>
      joinAll TransactionInput.serialize (w.ins.items.map inputOf) >>=
          fun inputs =>
        unsignedToVarint (w.outs.items.map outputOf).length >>= fun nOut =>
          joinAll TransactionOutput.serialize (w.outs.items.map outputOf) >>=
              fun outputs =>
            toBytesLe 4 (leNat w.locktime.val) >>= fun locktime =>
              pure (version ++ nIn ++ inputs ++ nOut ++ outputs ++ locktime)) = _
  rw [toBytesLe_leNat w.version.property, ok_bind, List.length_map,
    w.ins.counted,
    unsignedToVarint_of_lt (Compact.value_lt _), ok_bind,
    joinAll_map fun i hi => serialize_inputOf (h.scriptSigs i hi), ok_bind,
      List.length_map,
    w.outs.counted, unsignedToVarint_of_lt (Compact.value_lt _), ok_bind,
    joinAll_map fun o ho => serialize_outputOf (h.scripts o ho), ok_bind,
    toBytesLe_leNat w.locktime.property, ok_bind,
      ← Compact.bytes_of_canonical h.ins,
    ← Compact.bytes_of_canonical h.outs]
  simp only [WireTx.stripped, WireTx.body, WireRun.bytes, List.nil_append,
    List.append_assoc]
  rfl

/-! ## Transactions that fit their fields -/

structure TransactionInput.Fits (i : TransactionInput) : Prop where
  txid : ∃ txid, txidBytes i.sourceTxid = .ok txid ∧ txid.length = 32
  index : 0 ≤ i.sourceOutputIndex ∧ i.sourceOutputIndex < 256 ^ 4
  script : (i.unlockingScript.getD []).length < 256 ^ 8
  sequence : 0 ≤ i.sequence ∧ i.sequence < 256 ^ 4

structure TransactionOutput.Fits (o : TransactionOutput) : Prop where
  value : ∃ n : Int, o.satoshis = some n ∧ 0 ≤ n ∧ n < 256 ^ 8
  script : o.lockingScript.length < 256 ^ 8

/-- Four-byte version, locktime and sequences, eight-byte values, and whole
txids. -/
structure Transaction.Fits (t : Transaction) : Prop where
  version : 0 ≤ t.version ∧ t.version < 256 ^ 4
  locktime : 0 ≤ t.locktime ∧ t.locktime < 256 ^ 4
  inputs : ∀ i ∈ t.inputs, i.Fits
  outputs : ∀ o ∈ t.outputs, o.Fits
  inputsCount : t.inputs.length < 256 ^ 8
  outputsCount : t.outputs.length < 256 ^ 8

/-- The same outpoint, script bytes and sequence number. -/
structure SameInput (i j : TransactionInput) : Prop where
  txid : txidBytes j.sourceTxid = txidBytes i.sourceTxid
  index : j.sourceOutputIndex = i.sourceOutputIndex
  script : j.unlockingScript = some (i.unlockingScript.getD [])
  sequence : j.sequence = i.sequence

structure SameTransaction (t u : Transaction) : Prop where
  version : u.version = t.version
  locktime : u.locktime = t.locktime
  inputs : List.Forall₂ SameInput t.inputs u.inputs
  outputs : u.outputs = t.outputs

/-- An input in range is written. -/
theorem TransactionInput.Fits.serialize {i : TransactionInput} (h : i.Fits) :
    ∃ w : WireIn, w.script.Canonical ∧ i.serialize = .ok w.bytes ∧
    SameInput i (inputOf w) := by
  obtain ⟨txid, htxid, hlen⟩ := h.txid
  let w : WireIn := ⟨⟨txid ++ leBytes 4 i.sourceOutputIndex.toNat, by
    rw [List.length_append, hlen, length_leBytes]⟩, Blob.ofBytes _ h.script, Fixed.ofNat 4 i.sequence.toNat⟩
  have htake : w.prevout.val.take 32 = txid := List.take_left' hlen
  have hdrop : w.prevout.val.drop 32 = leBytes 4 i.sourceOutputIndex.toNat :=
    List.drop_left' hlen
  refine ⟨w, Compact.canonical_ofNat h.script, ?_, ?_, ?_, rfl,
    leNat_toBytesLe h.sequence⟩
  · rw [TransactionInput.serialize, htxid, ok_bind,
      toBytesLe_of_range h.index, ok_bind,
      scriptBytes_getD _ h.script, ok_bind,
      toBytesLe_of_range h.sequence, ok_bind]
    rfl
  · show txidBytes (some (hex (w.prevout.val.take 32).reverse)) = _
    rw [htake, htxid, txidBytes, fromHex_hex]
    simp only [List.reverse_reverse]
  · show ((leNat (w.prevout.val.drop 32) : Nat) : Int) = _
    rw [hdrop]
    exact leNat_toBytesLe h.index

theorem TransactionOutput.Fits.serialize {o : TransactionOutput} (h : o.Fits) :
    ∃ w : WireOut, w.script.Canonical ∧ o.serialize = .ok w.bytes ∧
    outputOf w = o := by
  obtain ⟨value, hvalue, hrange⟩ := h.value
  refine ⟨⟨Fixed.ofNat 8 value.toNat, Blob.ofBytes _ h.script⟩,
    Compact.canonical_ofNat h.script, ?_, ?_⟩
  · rw [TransactionOutput.serialize, hvalue, satoshisBytes,
      toBytesLe_of_range hrange, ok_bind,
      scriptBytes_some h.script]
    rfl
  · obtain ⟨script, satoshis⟩ := o
    simp only at hvalue
    subst hvalue
    show TransactionOutput.mk script
      (some (leNat (leBytes 8 value.toNat) : Int)) = _
    rw [leNat_toBytesLe hrange]

/-- Items that are each written in the grammar are written as a run of it. -/
theorem joinAll_of {α β : Type} {f : α → Except PyErr Bytes} {enc : β → Bytes}
    {P : α → β → Prop}
    {Q : β → Prop} :
    ∀ {l : List α}, (∀ a ∈ l, ∃ b, Q b ∧ f a = .ok (enc b) ∧ P a b) →
      ∃ items, (∀ b ∈ items, Q b) ∧ joinAll f l = .ok (items.flatMap enc) ∧
        List.Forall₂ P l items := by
  intro l
  induction l with
  | nil => intro _; exact ⟨[], nofun, rfl, .nil⟩
  | cons a l ih =>
    intro h
    obtain ⟨b, hb, hf, hab⟩ := h a List.mem_cons_self
    obtain ⟨items, hitems, hjoin, hall⟩ :=
      ih fun c hc => h c (List.mem_cons_of_mem _ hc)
    refine ⟨b :: items, List.forall_mem_cons.mpr ⟨hb, hitems⟩, ?_,
      .cons hab hall⟩
    rw [joinAll, hf, ok_bind, hjoin]
    rfl

/-- **A transaction that fits is written in the grammar**, canonically. -/
theorem Transaction.Fits.serialize {t : Transaction} (h : t.Fits) :
    ∃ w : WireTx, w.witness = none ∧ w.Canonical ∧
    t.serialize = .ok w.stripped ∧
      SameTransaction t (txOf w) := by
  obtain ⟨ins, hins, hinsB, hsameIns⟩ :=
    joinAll_of fun i hi => (h.inputs i hi).serialize
  obtain ⟨outs, houts, houtsB, hsameOuts⟩ :=
    joinAll_of fun o ho => (h.outputs o ho).serialize
  let w : WireTx := ⟨Fixed.ofNat 4 t.version.toNat,
    ⟨Compact.ofNat _ h.inputsCount, ins, hsameIns.length_eq.symm⟩,
    ⟨Compact.ofNat _ h.outputsCount, outs, hsameOuts.length_eq.symm⟩, none,
    Fixed.ofNat 4 t.locktime.toNat, nofun⟩
  refine ⟨w, rfl, ⟨Compact.canonical_ofNat h.inputsCount, hins,
    Compact.canonical_ofNat h.outputsCount, houts, nofun⟩, ?_, ?_⟩
  · rw [Transaction.serialize, toBytesLe_of_range h.version, ok_bind,
      unsignedToVarint_of_lt h.inputsCount,
      ok_bind, hinsB, ok_bind, unsignedToVarint_of_lt h.outputsCount, ok_bind,
        houtsB, ok_bind,
      toBytesLe_of_range h.locktime, ok_bind, pure_eq_ok, Except.ok.injEq]
    show _ = leBytes 4 t.version.toNat ++
      ([] ++ ((compactBytes t.inputs.length ++ ins.flatMap WireIn.bytes) ++
      ((compactBytes t.outputs.length ++ outs.flatMap WireOut.bytes) ++
      ([] ++ leBytes 4 t.locktime.toNat))))
    simp only [List.nil_append, List.append_assoc]
  · refine ⟨leNat_toBytesLe h.version, leNat_toBytesLe h.locktime, ?_, ?_⟩
    · exact List.forall₂_map_right_iff.mpr hsameIns
    · show outs.map outputOf = t.outputs
      have hall : List.Forall₂ Eq t.outputs (outs.map outputOf) :=
        List.forall₂_map_right_iff.mpr (hsameOuts.imp fun o w hw => hw.symm)
      rw [List.forall₂_eq_eq_eq] at hall
      exact hall.symm

/-! ## Main theorem -/

/-- A transaction of the grammar without its witness section, as the parser sees
it. -/
def readOf (w : WireTx) : ReadTx where
  version := w.version
  ins := w.ins
  outs := w.outs
  tail := w.locktime.val
  ended := by
    intro hnil
    have hlen := w.locktime.property
    rw [hnil] at hlen
    cases hlen

/-- A parse without a witness has the stripped bytes. -/
theorem readOf_bytes (w : WireTx) : (readOf w).bytes = w.stripped := rfl

theorem readOf_tx (w : WireTx) : (readOf w).tx = txOf w := by
  rw [txOf, ReadTx.tx, readOf]
  simp only [List.take_of_length_le (Nat.le_of_eq w.locktime.property)]

/-- So the stripped bytes are read. -/
theorem fromHex_stripped (w : WireTx) :
    Transaction.fromHex w.stripped = some (txOf w) :=
  fromHex_some.mpr ⟨readOf w, (readOf_bytes w).symm, (readOf_tx w).symm⟩

/-- The byte strings the parser reads as a transaction that is not written like
that: a length not in its shortest form, something behind the locktime, or a
locktime of less than four bytes. -/
inductive Misspelled (b : Bytes) : Prop where
  | long (w : WireTx) : w.witness = none → ¬ w.Canonical →
      b = w.stripped → Misspelled b
  | followed (w : WireTx) (x : UInt8) (rest : Bytes) :
      b = w.stripped ++ x :: rest → Misspelled b
  | cut (w : WireTx) (k : Nat) : 1 ≤ k → k ≤ 3 →
      b = w.stripped.take (w.stripped.length - k) →
      Misspelled b

/-- A field of at most `k` bytes. -/
theorem leNat_range (h : x.length ≤ k) : 0 ≤ (leNat x : Int) ∧
    (leNat x : Int) < 256 ^ k := by
  have hlt : leNat x < 256 ^ k :=
    Nat.lt_of_lt_of_le (leNat_lt x) (Nat.pow_le_pow_right (by decide) h)
  exact ⟨Int.natCast_nonneg _, by exact_mod_cast hlt⟩

/-- An input that was read is in range. -/
theorem inputOf_fits (w : WireIn) : (inputOf w).Fits where
  txid := by
    refine ⟨w.prevout.val.take 32, ?_, ?_⟩
    · show txidBytes (some (hex (w.prevout.val.take 32).reverse)) = _
      rw [txidBytes, fromHex_hex]
      simp only [List.reverse_reverse]
    · rw [List.length_take_of_le (by rw [w.prevout.property]; decide)]
  index := leNat_range (by rw [List.length_drop, w.prevout.property])
  script := by
    show w.script.data.length < 256 ^ 8
    rw [w.script.sized]
    exact w.script.size.value_lt
  sequence := leNat_range (Nat.le_of_eq w.sequence.property)

theorem outputOf_fits (w : WireOut) : (outputOf w).Fits where
  value := ⟨_, rfl, leNat_range (Nat.le_of_eq w.value.property)⟩
  script := by
    show w.script.data.length < 256 ^ 8
    rw [w.script.sized]
    exact w.script.size.value_lt

/-- Everything parsed fits its fields. -/
theorem ReadTx.fits (w : ReadTx) : w.tx.Fits where
  version := leNat_range (Nat.le_of_eq w.version.property)
  locktime := leNat_range (List.length_take_le 4 _)
  inputs := by
    intro i hi
    obtain ⟨v, -, rfl⟩ := List.mem_map.mp hi
    exact inputOf_fits v
  outputs := by
    intro o ho
    obtain ⟨v, -, rfl⟩ := List.mem_map.mp ho
    exact outputOf_fits v
  inputsCount := by
    show (w.ins.items.map inputOf).length < 256 ^ 8
    rw [List.length_map, w.ins.counted]
    exact w.ins.count.value_lt
  outputsCount := by
    show (w.outs.items.map outputOf).length < 256 ^ 8
    rw [List.length_map, w.outs.counted]
    exact w.outs.count.value_lt

/-- A parsed transaction comes back as it was when it was written
canonically. -/
theorem ReadTx.serialize_iff (w : ReadTx) : w.tx.serialize = .ok w.bytes ↔
    ∃ v : WireTx, v.witness = none ∧ v.Canonical ∧ w.bytes = v.stripped := by
  constructor
  · intro h
    obtain ⟨v, hnone, hcanon, hv, -⟩ := w.fits.serialize
    exact ⟨v, hnone, hcanon, Except.ok.inj (h.symm.trans hv)⟩
  · intro h
    obtain ⟨v, -, hcanon, hb⟩ := h
    have hsame : Transaction.fromHex w.bytes = some w.tx :=
      fromHex_some.mpr ⟨w, rfl, rfl⟩
    rw [hb, fromHex_stripped, Option.some.injEq] at hsame
    rw [← hsame, serialize_txOf hcanon, hb]

/-- A string that is cut in its locktime. -/
theorem stripped_take (w : WireTx) (k : Nat) (h : k ≤ 3) :
    w.stripped.take (w.stripped.length - k) =
    w.version.val ++ (w.ins.bytes WireIn.bytes ++
      (w.outs.bytes WireOut.bytes ++ w.locktime.val.take (4 - k))) := by
  have hsplit : w.stripped = (w.version.val ++ (w.ins.bytes WireIn.bytes ++
      w.outs.bytes WireOut.bytes)) ++ w.locktime.val := by
    simp only [WireTx.stripped, WireTx.body, List.nil_append, List.append_assoc]
  have hlen : w.stripped.length - k =
      (w.version.val ++ (w.ins.bytes WireIn.bytes ++
      w.outs.bytes WireOut.bytes)).length + (4 - k) := by
    rw [hsplit, List.length_append, w.locktime.property]
    omega
  rw [hlen]
  conv_lhs => rw [hsplit, List.take_length_add_append]
  simp only [List.append_assoc]

/-- A misspelled transaction is read all the same, and its misspelling is seen
in the parts. -/
theorem Misspelled.read {b : Bytes} (h : Misspelled b) :
    ∃ w : ReadTx, b = w.bytes ∧
    (w.tail.length = 4 → ∃ v : WireTx, v.witness = none ∧ ¬ v.Canonical ∧
      v.ins = w.ins ∧
      v.outs = w.outs) := by
  rcases h with ⟨w, hnone, hw, heq⟩ | ⟨w, x, rest, heq⟩ | ⟨w, k, h1, h3, heq⟩
  · exact ⟨readOf w, heq, fun _ => ⟨w, hnone, hw, rfl, rfl⟩⟩
  · refine ⟨⟨w.version, w.ins, w.outs, w.locktime.val ++ x :: rest,
      List.append_ne_nil_of_right_ne_nil _ (List.cons_ne_nil _ _)⟩, ?_, ?_⟩
    · rw [heq]
      simp only [WireTx.stripped, WireTx.body, ReadTx.bytes, List.nil_append,
        List.append_assoc]
    · intro hlen
      rw [List.length_append, w.locktime.property, List.length_cons] at hlen
      omega
  · rw [stripped_take w k h3] at heq
    have hlen : (w.locktime.val.take (4 - k)).length = 4 - k :=
      List.length_take_of_le (by rw [w.locktime.property]; omega)
    refine ⟨⟨w.version, w.ins, w.outs, w.locktime.val.take (4 - k), ?_⟩, heq,
      ?_⟩
    · intro hnil
      rw [hnil, List.length_nil] at hlen
      omega
    · intro h4
      rw [hlen] at h4
      omega

/-- A canonical spelling is not a misspelling. -/
theorem not_misspelled_of_canonical {v : WireTx} (hcanon : v.Canonical) :
    ¬ Misspelled v.stripped := by
  intro hm
  obtain ⟨w, hw, hparts⟩ := hm.read
  obtain ⟨-, hins, houts, htail⟩ := ReadTx.bytes_inj ((readOf_bytes v).trans hw)
  have hlen : w.tail.length = 4 := by
    rw [← htail]
    exact v.locktime.property
  obtain ⟨u, hnone, hu, huins, huouts⟩ := hparts hlen
  have hins : v.ins = u.ins := hins.trans huins.symm
  have houts : v.outs = u.outs := houts.trans huouts.symm
  refine hu ⟨hins ▸ hcanon.ins, hins ▸ hcanon.scriptSigs, houts ▸ hcanon.outs,
    houts ▸ hcanon.scripts, ?_⟩
  rw [hnone]
  exact nofun

/-- Whatever the parser reads is canonical or misspelled. -/
theorem ReadTx.canonical_or_misspelled (w : ReadTx) :
    (∃ v : WireTx, v.witness = none ∧ v.Canonical ∧ w.bytes = v.stripped) ∨
    Misspelled w.bytes := by
  have hpos : 1 ≤ w.tail.length := List.length_pos_iff.mpr w.ended
  rcases Nat.lt_trichotomy w.tail.length 4 with hlt | heq | hgt
  · -- fill the locktime up
    right
    let v : WireTx := ⟨w.version, w.ins, w.outs, none,
      ⟨w.tail ++ List.replicate (4 - w.tail.length) 0, by
        rw [List.length_append, List.length_replicate]; omega⟩, nofun⟩
    refine .cut v (4 - w.tail.length) (by omega) (by omega) ?_
    rw [stripped_take v _ (by omega)]
    have htake : v.locktime.val.take (4 - (4 - w.tail.length)) = w.tail :=
      List.take_left' (by omega)
    rw [htake]
    rfl
  · let v : WireTx := ⟨w.version, w.ins, w.outs, none, ⟨w.tail, heq⟩, nofun⟩
    by_cases hv : v.Canonical
    · exact .inl ⟨v, rfl, hv, rfl⟩
    · exact .inr (.long v rfl hv rfl)
  · right
    have hdrop : w.tail.drop 4 ≠ [] := by
      intro hnil
      have hlen := congrArg List.length hnil
      rw [List.length_drop, List.length_nil] at hlen
      omega
    obtain ⟨x, rest, hrest⟩ := List.exists_cons_of_ne_nil hdrop
    let v : WireTx := ⟨w.version, w.ins, w.outs, none,
      ⟨w.tail.take 4, List.length_take_of_le (by omega)⟩, nofun⟩
    refine .followed v x rest ?_
    rw [← hrest]
    simp only [WireTx.stripped, WireTx.body, ReadTx.bytes, List.nil_append,
      List.append_assoc, v, List.take_append_drop]

/-- **Parsing and serialising.** Every transaction that fits its fields is read
back from its serialisation; and what is read from a byte string serialises to
this string, and has its hash for a txid, exactly when the string is not
misspelled. -/
theorem fromHex_exact_iff (t : Transaction) (b : Bytes) :
    (t.Fits → ∃ c u, t.serialize = .ok c ∧ Transaction.fromHex c = some u ∧
      SameTransaction t u) ∧
    ((∀ u, Transaction.fromHex b = some u →
        u.serialize = .ok b ∧ u.txid = .ok (hex (hash256 b).reverse)) ↔
          ¬ Misspelled b) := by
  constructor
  · intro ht
    obtain ⟨w, -, -, hs, hsame⟩ := ht.serialize
    exact ⟨w.stripped, txOf w, hs, fromHex_stripped w, hsame⟩
  · constructor
    · intro h hm
      obtain ⟨w, rfl, -⟩ := hm.read
      obtain ⟨v, -, hcanon, hb⟩ :=
        w.serialize_iff.mp (h w.tx (fromHex_some.mpr ⟨w, rfl, rfl⟩)).1
      rw [hb] at hm
      exact not_misspelled_of_canonical hcanon hm
    · intro h u hu
      obtain ⟨w, rfl, rfl⟩ := fromHex_some.mp hu
      have hs := w.serialize_iff.mpr (w.canonical_or_misspelled.resolve_right h)
      refine ⟨hs, ?_⟩
      rw [Transaction.txid, Transaction.hash, hs]
      rfl

/-- A transaction with one input and one output, the count of its inputs spelled
by `nIn`. -/
def sampleWire (nIn : Bytes) : Bytes :=
  [0x01, 0x00, 0x00, 0x00] ++ nIn ++ List.replicate 36 0x07 ++ [0x01, 0x51] ++
    [0xFF, 0xFF, 0xFF, 0xFF] ++
    [0x01, 0xE8, 0x03, 0x00, 0x00, 0x00, 0x00, 0x00, 0x00] ++ [0x01, 0x51] ++
      [0x00, 0x00, 0x00, 0x00]

/-- Two ways to say that the bytes differ. -/
theorem serialize_ne_of_toOption {t : Transaction} {b : Bytes}
    (h : t.serialize.toOption ≠ some b) : t.serialize ≠ .ok b := by
  intro hs
  rw [hs] at h
  exact h rfl

/-- A stray byte, a missing byte, and a count of one in three bytes. -/
theorem fromHex_inexact :
    (∃ t, Transaction.fromHex (sampleWire [0x01] ++ [0x00]) = some t ∧
      t.serialize ≠ .ok (sampleWire [0x01] ++ [0x00])) ∧
    (∃ t, Transaction.fromHex (sampleWire [0x01]).dropLast = some t ∧
      t.serialize ≠ .ok (sampleWire [0x01]).dropLast) ∧
    (∃ t, Transaction.fromHex (sampleWire [0xFD, 0x01, 0x00]) = some t ∧
      t.serialize ≠ .ok (sampleWire [0xFD, 0x01, 0x00])) := by
  refine ⟨⟨_, rfl, ?_⟩, ⟨_, rfl, ?_⟩, ⟨_, rfl, ?_⟩⟩
  · exact serialize_ne_of_toOption (by decide)
  · exact serialize_ne_of_toOption (by decide)
  · exact serialize_ne_of_toOption (by decide)

/-- The transaction these spell. -/
def sampleTx : Transaction where
  inputs := [⟨some (hex (List.replicate 32 0x07)), 117901063, some [0x51],
    4294967295, none, none, sighashAllForkid⟩]
  outputs := [⟨[0x51], some 1000⟩]
  version := 1
  locktime := 0

/-- The sample transaction is in range. -/
theorem sampleTx_fits : sampleTx.Fits where
  version := by decide
  locktime := by decide
  inputs := by
    intro i hi
    rw [sampleTx, List.mem_singleton] at hi
    subst hi
    refine ⟨⟨List.replicate 32 0x07, ?_,
      List.length_replicate⟩, by decide, by decide, by decide⟩
    show txidBytes (some (hex (List.replicate 32 0x07))) = _
    rw [txidBytes, fromHex_hex]
    simp only [List.reverse_replicate]
  outputs := by
    intro o ho
    rw [sampleTx, List.mem_singleton] at ho
    subst ho
    exact ⟨⟨1000, rfl, by decide, by decide⟩, by decide⟩
  inputsCount := by decide
  outputsCount := by decide

theorem fromHex_exact_sampleTx : sampleTx.Fits ∧
    ∃ b u, sampleTx.serialize = .ok b ∧
    Transaction.fromHex b = some u ∧ SameTransaction sampleTx u :=
  ⟨sampleTx_fits, (fromHex_exact_iff sampleTx []).1 sampleTx_fits⟩

end Pyrxd.Tx
