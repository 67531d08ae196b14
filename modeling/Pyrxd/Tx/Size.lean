import Pyrxd.Tx.PreimageSpec

/-!
# How long a transaction is

The length of what `serialize` gives, by its parts: the fixed fields, the two
counts, and what every input and every output takes.
-/

namespace Pyrxd.Tx

open Pyrxd.Lib

/-! ## Counts -/

/-- The widths of a compact size. -/
theorem length_compactBytes (n : Nat) :
    (compactBytes n).length = if n < 0xFD then 1 else if n ≤ 0xFFFF then 3
      else if n ≤ 0xFFFFFFFF then 5 else 9 := by
  unfold compactBytes CompactForm.shortest
  by_cases h1 : n < 0xFD
  · rw [if_pos h1, if_pos h1]
    rfl
  · rw [if_neg h1, if_neg h1]
    by_cases h2 : n ≤ 0xFFFF
    · rw [if_pos h2, if_pos h2]
      rfl
    · rw [if_neg h2, if_neg h2]
      by_cases h3 : n ≤ 0xFFFFFFFF
      · rw [if_pos h3, if_pos h3]
        rfl
      · rw [if_neg h3, if_neg h3]
        rfl

/-- One byte for a small number. -/
theorem length_compactBytes_small {n : Nat} (h : n < 0xFD) :
    (compactBytes n).length = 1 := by
  rw [length_compactBytes, if_pos h]

theorem length_compactBytes_range (n : Nat) : 1 ≤ (compactBytes n).length ∧
    (compactBytes n).length ≤ 9 := by
  rw [length_compactBytes]
  split
  · exact ⟨Nat.le_refl 1, by decide⟩
  · split
    · exact ⟨by decide, by decide⟩
    · split
      · exact ⟨by decide, by decide⟩
      · exact ⟨by decide, Nat.le_refl 9⟩

/-- At least three for a larger one. -/
theorem length_compactBytes_large {n : Nat} (h : 0xFD ≤ n) :
    3 ≤ (compactBytes n).length := by
  rw [length_compactBytes, if_neg (by omega)]
  split
  · exact Nat.le_refl 3
  · split
    · decide
    · decide

/-! ## Loops -/

section JoinAll

variable {α : Type} {f : α → Except PyErr Bytes}

/-- What a loop joins, it has made. -/
theorem joinAll_mem : ∀ {l : List α} {b : Bytes}, joinAll f l = .ok b →
    ∀ a ∈ l, ∃ x, f a = .ok x := by
  intro l
  induction l with
  | nil =>
    intro b _ a ha
    cases ha
  | cons c l ih =>
    intro b h a ha
    obtain ⟨x, hx, h⟩ := bind_ok.mp h
    obtain ⟨rest, hrest, -⟩ := bind_ok.mp h
    rcases List.mem_cons.mp ha with rfl | ha
    · exact ⟨x, hx⟩
    · exact ih hrest a ha

/-- The length of what is joined is the sum of the lengths. -/
theorem length_joinAll {size : α → Nat} : ∀ {l : List α}
    {b : Bytes}, (∀ a ∈ l, ∀ x, f a = .ok x → x.length = size a) →
    joinAll f l = .ok b → b.length = (l.map size).sum := by
  intro l
  induction l with
  | nil =>
    intro b _ h
    cases h
    rfl
  | cons a l ih =>
    intro b hsize h
    obtain ⟨x, hx, h⟩ := bind_ok.mp h
    obtain ⟨rest, hrest, h⟩ := bind_ok.mp h
    cases h
    rw [List.length_append, List.map_cons, List.sum_cons,
      hsize a List.mem_cons_self x hx,
      ih (fun c hc => hsize c (List.mem_cons_of_mem _ hc)) hrest]

end JoinAll

section Sums

variable {α : Type} {size : α → Nat} {k : Nat}

theorem sum_sizes_eq : ∀ {l : List α}, (∀ a ∈ l, size a = k) →
    (l.map size).sum = k * l.length := by
  intro l
  induction l with
  | nil => intro _; rfl
  | cons a l ih =>
    intro h
    rw [List.map_cons, List.sum_cons, h a List.mem_cons_self,
      ih fun b hb => h b (List.mem_cons_of_mem _ hb), List.length_cons,
      Nat.mul_succ, Nat.add_comm]

theorem sum_sizes_le : ∀ {l : List α}, (∀ a ∈ l, size a ≤ k) →
    (l.map size).sum ≤ k * l.length := by
  intro l
  induction l with
  | nil => intro _; exact Nat.zero_le _
  | cons a l ih =>
    intro h
    have ha := h a List.mem_cons_self
    have hl := ih fun b hb => h b (List.mem_cons_of_mem _ hb)
    rw [List.map_cons, List.sum_cons, List.length_cons, Nat.mul_succ]
    omega

end Sums

/-! ## Parts -/

theorem length_scriptBytes {script b : Bytes}
    (h : scriptBytes (some script) = .ok b) :
    b.length = (compactBytes script.length).length + script.length := by
  obtain ⟨hlt, rfl⟩ := scriptBytes_some_ok h
  exact List.length_append

/-- The bytes of an input with a script. -/
def inputSize (script : Bytes) : Nat :=
  40 + (compactBytes script.length).length + script.length

/-- The bytes of an output. -/
def outputSize (script : Bytes) : Nat :=
  8 + (compactBytes script.length).length + script.length

theorem TransactionInput.length_serialize {i : TransactionInput}
    {b script : Bytes} (h : i.serialize = .ok b)
    (hfits : i.Fits) (hscript : i.unlockingScript = some script) :
    b.length = inputSize script := by
  obtain ⟨txid, htxid, h⟩ := bind_ok.mp h
  obtain ⟨index, hindex, h⟩ := bind_ok.mp h
  obtain ⟨scriptB, hscriptB, h⟩ := bind_ok.mp h
  obtain ⟨sequence, hsequence, h⟩ := bind_ok.mp h
  cases h
  obtain ⟨id, hid, hlen⟩ := hfits.txid
  rw [htxid, Except.ok.injEq] at hid
  rw [hscript] at hscriptB
  rw [List.length_append, List.length_append, List.length_append,
    hid, hlen, (toBytesLe_ok hindex).1, length_scriptBytes hscriptB,
    (toBytesLe_ok hsequence).1, inputSize]
  omega

theorem TransactionOutput.length_serialize {o : TransactionOutput} {b : Bytes}
    (h : o.serialize = .ok b) :
    b.length = outputSize o.lockingScript := by
  obtain ⟨value, hvalue, h⟩ := bind_ok.mp h
  obtain ⟨script, hscript, h⟩ := bind_ok.mp h
  cases h
  rw [List.length_append, (satoshisBytes_ok hvalue).1,
    length_scriptBytes hscript, outputSize]
  omega

/-- A varint that is written is the compact size. -/
theorem unsignedToVarint_ok {n : Nat} {b : Bytes}
    (h : unsignedToVarint n = .ok b) :
    n < 256 ^ 8 ∧ b = compactBytes n := by
  unfold unsignedToVarint at h
  split at h
  · cases h
  · next hle =>
    cases h
    exact ⟨by omega, rfl⟩

/-- **The length of a serialised transaction.** -/
theorem Transaction.length_serialize {t : Transaction} {b : Bytes}
    (h : t.serialize = .ok b)
    (hfits : ∀ i ∈ t.inputs, i.Fits ∧ i.unlockingScript.isSome = true) :
    b.length = 8 + (compactBytes t.inputs.length).length +
      (t.inputs.map fun i => inputSize (i.unlockingScript.getD [])).sum +
      (compactBytes t.outputs.length).length +
        (t.outputs.map fun o => outputSize o.lockingScript).sum := by
  obtain ⟨version, hversion, h⟩ := bind_ok.mp h
  obtain ⟨nIn, hnIn, h⟩ := bind_ok.mp h
  obtain ⟨inputs, hinputs, h⟩ := bind_ok.mp h
  obtain ⟨nOut, hnOut, h⟩ := bind_ok.mp h
  obtain ⟨outputs, houtputs, h⟩ := bind_ok.mp h
  obtain ⟨locktime, hlocktime, h⟩ := bind_ok.mp h
  cases h
  have hins : inputs.length =
      (t.inputs.map fun i => inputSize (i.unlockingScript.getD [])).sum := by
    refine length_joinAll (fun i hi x hx => ?_) hinputs
    obtain ⟨hfit, hsome⟩ := hfits i hi
    obtain ⟨script, hscript⟩ := Option.isSome_iff_exists.mp hsome
    rw [TransactionInput.length_serialize hx hfit hscript, hscript,
      Option.getD_some]
  have houts : outputs.length =
      (t.outputs.map fun o => outputSize o.lockingScript).sum :=
    length_joinAll (fun o _ x hx =>
      TransactionOutput.length_serialize hx) houtputs
  rw [List.length_append, List.length_append, List.length_append,
    List.length_append, List.length_append, (toBytesLe_ok hversion).1,
    (toBytesLe_ok hlocktime).1, (unsignedToVarint_ok hnIn).2,
    (unsignedToVarint_ok hnOut).2, hins, houts]
  omega

/-- What `serialize` can write fits its fields, when its txids are whole and its
scripts are there. -/
theorem Transaction.fits_of_serialize {t : Transaction} {b : Bytes}
    (h : t.serialize = .ok b)
    (htxids : ∀ i ∈ t.inputs, ∃ txid, txidBytes i.sourceTxid = .ok txid ∧
      txid.length = 32)
    (hscripts : ∀ i ∈ t.inputs, i.unlockingScript.isSome = true) : t.Fits := by
  obtain ⟨version, hversion, h⟩ := bind_ok.mp h
  obtain ⟨nIn, hnIn, h⟩ := bind_ok.mp h
  obtain ⟨inputs, hinputs, h⟩ := bind_ok.mp h
  obtain ⟨nOut, hnOut, h⟩ := bind_ok.mp h
  obtain ⟨outputs, houtputs, h⟩ := bind_ok.mp h
  obtain ⟨locktime, hlocktime, -⟩ := bind_ok.mp h
  have hrange : ∀ {k : Nat} {n : Int} {x : Bytes}, toBytesLe k n = .ok x →
      0 ≤ n ∧ n < 256 ^ k := by
    intro k n x hx
    obtain ⟨hlen, hn⟩ := toBytesLe_ok hx
    rw [← hn]
    exact leNat_range (Nat.le_of_eq hlen)
  refine ⟨hrange hversion, hrange hlocktime, fun i hi => ?_, fun o ho => ?_,
    (unsignedToVarint_ok hnIn).1, (unsignedToVarint_ok hnOut).1⟩
  · obtain ⟨x, hx⟩ := joinAll_mem hinputs i hi
    obtain ⟨txid, -, hx⟩ := bind_ok.mp hx
    obtain ⟨index, hindex, hx⟩ := bind_ok.mp hx
    obtain ⟨script, hscript, hx⟩ := bind_ok.mp hx
    obtain ⟨sequence, hsequence, -⟩ := bind_ok.mp hx
    obtain ⟨s, hs⟩ := Option.isSome_iff_exists.mp (hscripts i hi)
    rw [hs] at hscript
    refine ⟨htxids i hi, hrange hindex, ?_, hrange hsequence⟩
    rw [hs]
    exact (scriptBytes_some_ok hscript).1
  · obtain ⟨x, hx⟩ := joinAll_mem houtputs o ho
    obtain ⟨value, hvalue, hx⟩ := bind_ok.mp hx
    obtain ⟨script, hscript, -⟩ := bind_ok.mp hx
    obtain ⟨hlen, hv⟩ := satoshisBytes_ok hvalue
    exact ⟨⟨_, hv, leNat_range (Nat.le_of_eq hlen)⟩,
      (scriptBytes_some_ok hscript).1⟩

end Pyrxd.Tx
