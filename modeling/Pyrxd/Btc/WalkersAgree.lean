import Pyrxd.Btc.RawTxWire
import Pyrxd.Spv.Witness

/-!
# The transaction walkers agree

The txid gate, the refund binding, the provenance check, the secret scraper and
the SPV witness stripper each read a raw transaction with a walker of their own.
The main theorem, `walkers_agree`, says that on whatever the txid walker accepts
they all see the same transaction.
-/

namespace Pyrxd.Btc

open Pyrxd.Lib Pyrxd.Spv

/-- What the five walkers report of `b`, read off one transaction `w`. -/
structure WalkersAgree (b : Bytes) (txid : String) (w : WireTx) : Prop where
  bytes : b = w.bytes
  segwit : isSegwit (b.drop 4) = w.witness.isSome
  hashed : txid = hex (hash256 w.stripped).reverse
  spend : w.outs.items ≠ [] → btcSpendFieldsFromRaw b = .ok
    ⟨w.ins.items.map (·.prevout.val), w.ins.items.map (·.sequence.nat),
      w.outs.items.map fun o => (o.value.nat, o.script.data)⟩
  outpoints : btcInputOutpointsFromRaw b = .ok (w.ins.items.map (·.prevout.val))
  witness : ∀ wits ∈ w.witness, (iterWitnessStack b).length =
    w.ins.items.length ∧
    iterWitnessStack b = wits.map fun s => s.items.map (·.data)
  stripped : w.Canonical → ∃ s, stripWitness b = .ok s ∧
    hex (hash256 s).reverse = txid

/-- The txid walker accepts the bounded transactions and hashes their stripped
form. -/
theorem btcTxidFromRaw_ok {b : Bytes} {txid : String} :
    btcTxidFromRaw b = .ok txid ↔
    ∃ w : WireTx, b = w.bytes ∧ WireTx.Bounded w ∧
    txid = hex (hash256 w.stripped).reverse := by
  simp only [btcTxidFromRaw, bind_ok, pure_eq_ok, Except.ok.injEq]
  constructor
  · intro h
    obtain ⟨t, ht, rfl⟩ := h
    obtain ⟨w, hb, hw, -, rfl⟩ := takeTx_ok.mp ht
    exact ⟨w, hb, hw, by rw [WireTx.parts_nonWitness]⟩
  · intro h
    obtain ⟨w, hb, hw, rfl⟩ := h
    exact ⟨WireTx.parts w, takeTx_ok.mpr ⟨w, hb, hw, nofun,
      rfl⟩, by rw [WireTx.parts_nonWitness]⟩

/-- The spend walker reads the fields of a bounded transaction off its bytes. -/
theorem btcSpendFieldsFromRaw_bytes {w : WireTx} (hw : WireTx.Bounded w)
    (hout : w.outs.items ≠ []) : btcSpendFieldsFromRaw w.bytes = .ok
      ⟨w.ins.items.map (·.prevout.val), w.ins.items.map (·.sequence.nat),
        w.outs.items.map fun o => (o.value.nat, o.script.data)⟩ := by
  rw [btcSpendFieldsFromRaw, takeTx_ok.mpr ⟨w, rfl, hw, fun _ => hout,
    rfl⟩, ok_bind]
  simp only [WireTx.parts, List.map_map]
  rfl

/-- The stripper agrees with the txid walker where both read the same
lengths. -/
theorem stripWitness_bytes {w : WireTx} (hw : WireTx.Bounded w)
    (hcanon : w.Canonical) :
    stripWitness w.bytes = .ok w.stripped := by
  cases hwit : w.witness with
  | some wits =>
    rw [stripWitness_ok]
    exact .inr ⟨w, [], hcanon, by rw [hwit]; rfl, by rw [List.append_nil], rfl⟩
  | none =>
    rw [WireTx.bytes_none hwit]
    exact stripWitness_stripped hw.insPos

/-- All walkers agree on a bounded transaction. -/
theorem walkersAgree_of_bounded {w : WireTx} (hw : WireTx.Bounded w) :
    WalkersAgree w.bytes (hex (hash256 w.stripped).reverse) w where
  bytes := rfl
  segwit := by
    obtain ⟨r, hr, hseg, -⟩ := bytes_skip hw.insPos
    rw [hr, List.drop_left' w.version.property]
    exact hseg
  hashed := rfl
  spend := btcSpendFieldsFromRaw_bytes hw
  outpoints := btcInputOutpointsFromRaw_bytes hw
  witness := by
    intro wits hwits
    have hstacks := iterWitnessStack_bytes hw hwits
    exact ⟨by rw [hstacks, List.length_map, w.stacked wits hwits], hstacks⟩
  stripped := fun hcanon => ⟨w.stripped, stripWitness_bytes hw hcanon, rfl⟩

/-- **The walkers agree.** Every string the txid walker accepts is one
transaction, and the other walkers read that transaction; the spend walker
accepts nothing else; and the txid does not depend on the witness data. -/
theorem walkers_agree :
    (∀ b txid, btcTxidFromRaw b = .ok txid → ∃ w, WalkersAgree b txid w) ∧
    (∀ b fields, btcSpendFieldsFromRaw b = .ok fields →
      ∃ txid, btcTxidFromRaw b = .ok txid) ∧
    (∀ w v : WireTx, w.ins.items ≠ [] → v.ins.items ≠ [] →
      WireTx.SameBase w v → ∀ txid txid',
      btcTxidFromRaw w.bytes = .ok txid → btcTxidFromRaw v.bytes = .ok txid' →
        txid = txid') := by
  refine ⟨?_, ?_, ?_⟩
  · intro b txid h
    obtain ⟨w, rfl, hw, rfl⟩ := btcTxidFromRaw_ok.mp h
    exact ⟨w, walkersAgree_of_bounded hw⟩
  · intro b fields h
    rw [btcSpendFieldsFromRaw, bind_ok] at h
    obtain ⟨t, ht, -⟩ := h
    obtain ⟨w, hb, hw, -, -⟩ := takeTx_ok.mp ht
    exact ⟨_, btcTxidFromRaw_ok.mpr ⟨w, hb, hw, rfl⟩⟩
  · intro w v hw hv hsame txid txid' h h'
    have counted : ∀ u : WireTx, u.ins.items ≠ [] → u.ins.count.value ≠ 0 := by
      intro u hu h0
      rw [← u.ins.counted] at h0
      exact hu (List.length_eq_zero_iff.mp h0)
    obtain ⟨w', hbw, hw', rfl⟩ := btcTxidFromRaw_ok.mp h
    obtain ⟨v', hbv, hv', rfl⟩ := btcTxidFromRaw_ok.mp h'
    rw [← WireTx.bytes_inj (counted w hw) hw'.insPos hbw,
      ← WireTx.bytes_inj (counted v hv) hv'.insPos hbv, hsame.stripped_eq]

/-- A segwit transaction with one input, one output and a witness item. -/
def segwitSample : Bytes :=
  [2, 0, 0, 0, 0, 1, 1] ++ List.replicate 36 7 ++ [0, 254, 255, 255, 255, 1] ++
    [232, 3, 0, 0, 0, 0, 0, 0, 1, 81] ++ [1, 2, 170, 187] ++ [0, 0, 0, 0]

/-- The sample segwit transaction is accepted. -/
theorem segwitSample_accepted : ∃ txid, btcTxidFromRaw segwitSample =
    .ok txid := by
  have h : (btcTxidFromRaw segwitSample).isOk = true := by decide
  cases hr : btcTxidFromRaw segwitSample with
  | ok txid => exact ⟨txid, rfl⟩
  | error e => rw [hr] at h; cases h

theorem walkers_agree_segwitSample :
    ∃ txid w, btcTxidFromRaw segwitSample = .ok txid ∧
    WalkersAgree segwitSample txid w := by
  obtain ⟨txid, h⟩ := segwitSample_accepted
  obtain ⟨w, hw⟩ := walkers_agree.1 segwitSample txid h
  exact ⟨txid, w, h, hw⟩

end Pyrxd.Btc
