import Pyrxd.Btc.HtlcSpend
import Pyrxd.Btc.Payment
import Pyrxd.Btc.WalkersAgree
import Pyrxd.Gravity.Trade
import Pyrxd.Spv.ProofSound

/-!
# The taker's payment can be proved

What `build_payment_tx` writes, read back by the finalize path: the witness
stripper, the offset finder and the payment verifier. `payment_provable_iff`
says exactly when the two fit together and the amounts add up: the utxo's txid
must decode to 32 bytes, and there must be no change that is left out for being
dust, since the fee reported is the one asked for.
-/

namespace Pyrxd.Gravity

open Pyrxd.Lib Pyrxd.Spv Pyrxd.Btc

/-! ## Reading a transaction with one input -/

/-- One input, whose script is empty or pushes a P2WPKH program. -/
def SingleInput (stripped : Bytes) : Prop :=
  ∃ (w : WireTx) (i : WireIn), w.Canonical ∧ stripped = w.stripped ∧
    w.ins.items = [i] ∧
    (i.script.data = [] ∨ ∃ pkh : Bytes, pkh.length = 20 ∧
      i.script.data = [0x16, 0x00, 0x14] ++ pkh)

section Reading

variable {tx rest hash : Bytes} {offset : Nat} {o : WireOut}
  {type : ReceiveType} {minSatoshis : Int}

/-- A short CompactSize is one byte. -/
theorem bytes_short {c : Compact} (hc : c.Canonical) (h : c.value < 0xFD) :
    c.bytes = [UInt8.ofNat c.value] := by
  rw [Compact.bytes_of_canonical hc, compactBytes,
    CompactForm.shortest, if_pos h]
  rfl

/-- The script of a type has its length. -/
theorem length_script (type : ReceiveType) (h : hash.length = type.hashLength) :
    (type.script hash).length = type.scriptLength := by
  rw [ReceiveType.script, List.length_append, List.length_append, h]
  cases type <;> rfl

/-- The parts of the standard script are where the verifier looks for them. -/
theorem script_parts (type : ReceiveType) (h : hash.length = type.hashLength) :
    (type.script hash).take type.before.length = type.before ∧
      slice (type.script hash) type.before.length (type.before.length +
        type.hashLength) = hash ∧
      (type.script hash).drop (type.before.length + type.hashLength) =
        type.behind ∧
      (type.script hash).headD 0 ≠ 0x6A := by
  rw [ReceiveType.script, List.append_assoc]
  refine ⟨List.take_left, ?_, ?_, ?_⟩
  · rw [slice, List.drop_left, Nat.add_sub_cancel_left, List.take_left' h]
  · rw [← List.drop_drop, List.drop_left, List.drop_left' h]
  · have hhead : (type.before ++ (hash ++ type.behind)).headD 0 =
        type.before.headD 0 := by
      cases type <;> rfl
    rw [hhead]
    cases type <;> decide

/-- An output that pays is accepted. -/
theorem verifyPayment_of_output (hdrop : tx.drop offset = o.bytes ++ rest)
    (hcanon : o.script.Canonical)
    (hscript : o.script.data = type.script hash)
    (hhash : hash.length = type.hashLength)
    (hpos : 0 < o.value.nat) (hlt : o.value.nat < 2 ^ 63)
    (hmin : minSatoshis ≤ o.value.nat) :
    verifyPayment tx offset hash type minSatoshis = .ok () := by
  have hlen := length_script type hhash
  have hsize : o.script.size.value =
      type.scriptLength := by rw [← o.script.sized, hscript, hlen]
  have hbytes := bytes_short hcanon (by rw [hsize]; cases type <;> decide)
  obtain ⟨hvalue, hbyte, hdata⟩ := output_fields hdrop
  have hdata := hdata (by rw [hbytes]; rfl)
  rw [hscript, hlen] at hdata
  have hfits : ¬ offset + (8 + 1 + type.scriptLength) > tx.length := by
    have hl := congrArg List.length hdrop
    rw [WireOut.bytes, Blob.bytes, hbytes, hscript] at hl
    simp only [List.length_drop, List.length_append, List.length_cons,
      List.length_nil, o.value.property,
      hlen] at hl
    omega
  obtain ⟨hbefore, hmiddle, hbehind, hreturn⟩ := script_parts type hhash
  have hlenByte : (tx.getD (offset + 8) 0).toNat = type.scriptLength := by
    rw [hbyte, hbytes, hsize]
    cases type <;> rfl
  have hnat : leNat (slice tx offset (offset + 8)) =
      o.value.nat := by rw [hvalue]; rfl
  unfold verifyPayment
  rw [refuseIf_bind_ok]
  refine ⟨by omega, ?_⟩
  rw [Int.toNat_natCast]
  dsimp only
  simp only [rejectIf_bind_ok, refuseIf_bind_ok, rejectIf_ok, hdata, hlen,
    hlenByte, hnat, hbefore,
    hmiddle, hbehind]
  refine ⟨hfits, by omega, by omega, by omega, not_not.mpr rfl, not_not.mpr rfl, hreturn,
    not_not.mpr hhash, not_not.mpr rfl, not_not.mpr rfl, fun hc => hc.2 rfl⟩

/-- The first byte of what is left at a position. -/
theorem getD_of_drop {x : UInt8} {k : Nat} (h : tx.drop k = x :: rest) :
    tx.getD k 0 = x ∧ k < tx.length := by
  refine ⟨by rw [headD_drop, h]; rfl, ?_⟩
  by_contra hle
  rw [List.drop_of_length_le (by omega)] at h
  cases h

/-- **The finder stops in front of the first output** of a transaction with one
input of a known shape and at most 252 outputs. -/
theorem findOutputZeroOffset_stripped {w : WireTx} {i : WireIn}
    (hcanon : w.Canonical)
    (hins : w.ins.items = [i])
    (hscript : i.script.data.length = 0 ∨ i.script.data.length = 23)
    (hpos : w.outs.items ≠ []) (hcount : w.outs.items.length < 0xFD) :
    ∃ offset, findOutputZeroOffset w.stripped = .ok offset ∧
      w.stripped.drop offset =
        w.outs.items.flatMap WireOut.bytes ++ w.locktime.val := by
  have hone : w.ins.count.value = 1 := by rw [← w.ins.counted, hins]; rfl
  have hsig : i.script.data.length < 0xFD := by omega
  have hnIn := bytes_short hcanon.ins (by rw [hone]; decide)
  have hsize := bytes_short
    (hcanon.scriptSigs i (by rw [hins]; exact List.mem_singleton_self i))
    (by rw [← i.script.sized]; exact hsig)
  have hnOut := bytes_short hcanon.outs (by rw [← w.outs.counted]; exact hcount)
  rw [← i.script.sized] at hsize
  rw [← w.outs.counted] at hnOut
  rw [hone] at hnIn
  -- the three bytes the finder looks at, each behind fields of a known length
  have h4 := stripped_drop_four w
  rw [hins, hnIn, List.flatMap_singleton, WireIn.bytes, Blob.bytes, hsize,
    WireRun.bytes, hnOut] at h4
  simp only [List.cons_append, List.nil_append, List.append_assoc] at h4
  have h41 : w.stripped.drop 41 = UInt8.ofNat i.script.data.length ::
      (i.script.data ++ (i.sequence.val ++ (UInt8.ofNat w.outs.items.length ::
      (w.outs.items.flatMap WireOut.bytes ++ w.locktime.val)))) := by
    rw [show 41 = 4 + 37 from rfl, ← List.drop_drop, h4, List.drop_succ_cons,
      List.drop_left' i.prevout.property]
  have hend : w.stripped.drop (42 + i.script.data.length + 4) =
      UInt8.ofNat w.outs.items.length :: (w.outs.items.flatMap WireOut.bytes ++
        w.locktime.val) := by
    rw [show 42 + i.script.data.length + 4 =
      41 + (1 + (i.script.data.length + 4)) by omega, ← List.drop_drop,
      h41, Nat.add_comm 1, List.drop_succ_cons, ← List.drop_drop,
        List.drop_left,
      List.drop_left' i.sequence.property]
  obtain ⟨hb4, hl4⟩ := getD_of_drop h4
  obtain ⟨hb41, hl41⟩ := getD_of_drop h41
  obtain ⟨hbend, hlend⟩ := getD_of_drop hend
  have hsigByte : (UInt8.ofNat i.script.data.length).toNat =
      i.script.data.length := by
    rw [UInt8.toNat_ofNat']
    omega
  have hshape : ¬ (UInt8.ofNat i.script.data.length ≠ 0 ∧
      UInt8.ofNat i.script.data.length ≠ 23) := by
    rcases hscript with h | h <;> rw [h] <;> decide
  have hsome : ¬ UInt8.ofNat w.outs.items.length < 1 := by
    have := List.length_pos_of_ne_nil hpos
    rw [UInt8.lt_iff_toNat_lt, UInt8.toNat_ofNat']
    show ¬ _ < 1
    omega
  refine ⟨42 + i.script.data.length + 4 + 1, ?_, ?_⟩
  · unfold findOutputZeroOffset
    simp only [hb4, hb41, hsigByte, hbend, refuseIf_bind_ok, pure_eq_ok]
    exact ⟨by omega, by decide, by omega, hshape, by omega, hsome, trivial⟩
  · rw [← List.drop_drop, hend, List.drop_succ_cons, List.drop_zero]

end Reading

/-! ## What the builder writes -/

section Builder

variable {sign : Bytes → Bytes → Except PyErr Bytes} {keypair : BtcKeypair}
  {utxo : BtcUtxo}
  {toHash : Bytes} {toType : ReceiveType} {amountSats feeSats changeSats : Int}
  {inputType : InputType}
  {r : BtcPaymentTx}

/-- The builder writes that script. -/
theorem outputScript_eq (type : ReceiveType) (hash : Bytes) :
    outputScript type hash = type.script hash := by
  cases type with
  | p2pkh => rfl
  | p2wpkh => exact (List.append_nil _).symm
  | p2sh => rfl
  | p2tr => exact (List.append_nil _).symm

/-- A blob made of bytes has the shortest size prefix. -/
theorem canonical_ofBytes (b : Bytes) (h : b.length < 256 ^ 8) :
    (Blob.ofBytes b h).Canonical :=
  Compact.canonical_ofNat h

/-- An unsigned field holds its number. -/
theorem leNat_structPack {hi value : Int} {k : Nat} {b : Bytes}
    (hhi : hi ≤ 256 ^ k)
    (h : structPack 0 hi k value = .ok b) : (leNat b : Int) = value := by
  obtain ⟨⟨hlow, hhigh⟩, hb⟩ := structPack_ok.mp h
  have hmod : value % 256 ^ k = value := Int.emod_eq_of_lt hlow (by omega)
  have hlt : value.toNat < 256 ^ k := by
    zify
    omega
  rw [hmod] at hb
  rw [hb, leNat_leBytes hlt, Int.toNat_of_nonneg hlow]

/-- A payment output is one on the wire. -/
theorem paymentOutput_ok {value : Int} {script b : Bytes}
    (h : paymentOutput value script = .ok b) :
    ∃ o : WireOut, b = o.bytes ∧ o.script.Canonical ∧
    (o.value.nat : Int) = value ∧ o.script.data = script := by
  obtain ⟨valueB, hvalue, h⟩ := bind_ok.mp h
  obtain ⟨scriptB, hscript, h⟩ := bind_ok.mp h
  obtain ⟨hlt, rfl⟩ := sized_ok.mp hscript
  cases h
  refine ⟨⟨⟨valueB, length_structPack hvalue⟩, Blob.ofBytes script hlt⟩, rfl,
    canonical_ofBytes script hlt, leNat_structPack (by decide) hvalue, rfl⟩

/-- The payment comes first, and at most one output follows. -/
theorem paymentOutputs_ok {pkh : Bytes} {outputs : List Bytes}
    (h : paymentOutputs pkh toHash toType amountSats changeSats = .ok outputs) :
    ∃ (o : WireOut) (rest : List WireOut), outputs =
      (o :: rest).map WireOut.bytes ∧ rest.length ≤ 1 ∧
      (∀ x ∈ o :: rest, x.script.Canonical) ∧ (o.value.nat : Int) = amountSats ∧
      o.script.data = toType.script toHash := by
  obtain ⟨output0, h0, h⟩ := bind_ok.mp h
  obtain ⟨o, rfl, hcanon, hvalue, hscript⟩ := paymentOutput_ok h0
  rw [outputScript_eq] at hscript
  by_cases hchange : changeSats ≥ dustLimit
  · rw [if_pos hchange] at h
    obtain ⟨output1, h1, h⟩ := bind_ok.mp h
    obtain ⟨o', rfl, hcanon', -, -⟩ := paymentOutput_ok h1
    cases h
    refine ⟨o, [o'], rfl, Nat.le_refl 1, ?_, hvalue, hscript⟩
    intro x hx
    rcases List.mem_cons.mp hx with rfl | hx
    · exact hcanon
    · rw [List.mem_singleton.mp hx]
      exact hcanon'
  · rw [if_neg hchange] at h
    cases h
    refine ⟨o, [], rfl, Nat.zero_le 1, ?_, hvalue, hscript⟩
    intro x hx
    rw [List.mem_singleton.mp hx]
    exact hcanon

/-- The amounts the result reports. -/
theorem buildPaymentTx_amounts
    (h : buildPaymentTx sign keypair utxo toHash toType amountSats feeSats
      inputType = .ok r) :
    r.feeSats = feeSats ∧ 0 ≤ utxo.value - amountSats - feeSats ∧
      r.changeSats = if utxo.value - amountSats - feeSats ≥ dustLimit then
        utxo.value - amountSats - feeSats else 0 := by
  unfold buildPaymentTx at h
  obtain ⟨-, h⟩ := refuseIf_bind_ok.mp h
  dsimp only at h
  obtain ⟨hfunds, h⟩ := refuseIf_bind_ok.mp h
  obtain ⟨version, -, h⟩ := bind_ok.mp h
  obtain ⟨locktime, -, h⟩ := bind_ok.mp h
  obtain ⟨b, -, h⟩ := bind_ok.mp h
  obtain ⟨voutB, -, h⟩ := bind_ok.mp h
  obtain ⟨scriptSig, -, h⟩ := bind_ok.mp h
  obtain ⟨outputs, -, h⟩ := bind_ok.mp h
  obtain ⟨preimage, -, h⟩ := bind_ok.mp h
  obtain ⟨sigDer, -, h⟩ := bind_ok.mp h
  obtain ⟨nIn, -, h⟩ := bind_ok.mp h
  obtain ⟨nOut, -, h⟩ := bind_ok.mp h
  obtain ⟨nItems, -, h⟩ := bind_ok.mp h
  obtain ⟨itemsB, -, h⟩ := bind_ok.mp h
  cases h
  exact ⟨rfl, Int.not_lt.mp hfunds, rfl⟩

/-- The transaction that was written, as far as the finalize path reads it. -/
structure Written (utxo : BtcUtxo) (toHash : Bytes) (toType : ReceiveType)
    (amountSats : Int)
    (r : BtcPaymentTx) (txid : Bytes) (w : WireTx) (i : WireIn) (o : WireOut)
    (rest : List WireOut) : Prop where
  bytes : r.txHex = hex w.bytes
  hashed : r.txid = hex (hash256 w.stripped).reverse
  bounded : WireTx.Bounded w
  canonical : w.Canonical
  input : w.ins.items = [i]
  prevout : (i.prevout.val.take 32).reverse = txid ∧
    (leNat (i.prevout.val.drop 32) : Int) = utxo.vout
  scriptSig : i.script.data = [] ∨ ∃ pkh : Bytes, pkh.length = 20 ∧
    i.script.data = [0x16, 0x00, 0x14] ++ pkh
  outputs : w.outs.items = o :: rest ∧ rest.length ≤ 1
  pays : (o.value.nat : Int) = amountSats ∧ o.script.data = toType.script toHash
  hash : toHash.length = toType.hashLength

/-- The unlocking script is empty or the one P2SH push. -/
theorem scriptSig_shape (keypair : BtcKeypair) (type : InputType) :
    type.scriptSig keypair.pkh = [] ∨
    ∃ pkh : Bytes, pkh.length = 20 ∧ type.scriptSig keypair.pkh = [0x16, 0x00,
      0x14] ++ pkh := by
  cases type with
  | p2wpkh => exact .inl rfl
  | p2shP2wpkh => exact .inr ⟨keypair.pkh, keypair.hashed, rfl⟩

/-- A transaction with one input, the outputs `outs` and a witness. -/
def oneInput (version locktime : Fixed 4) (i : WireIn) (outs : List WireOut)
    (hn : outs.length < 256 ^ 8)
    (stack : WireStack) : WireTx where
  version := version
  ins := ⟨Compact.ofNat 1 (by decide), [i], rfl⟩
  outs := ⟨Compact.ofNat _ hn, outs, rfl⟩
  witness := some [stack]
  locktime := locktime
  stacked := by rintro wits ⟨⟩; rfl

section OneInput

variable {version locktime : Fixed 4} {i : WireIn} {outs : List WireOut}
  {hn : outs.length < 256 ^ 8}
  {stack : WireStack}

/-- The stripped bytes of a transaction with one input. -/
theorem oneInput_stripped :
    (oneInput version locktime i outs hn stack).stripped =
    version.val ++ (compactBytes 1 ++ i.bytes) ++
      (compactBytes outs.length ++ outs.flatMap WireOut.bytes) ++
        locktime.val := by
  simp only [WireTx.stripped, WireTx.body, oneInput, WireRun.bytes,
    Compact.bytes_ofNat, List.flatMap_cons, List.flatMap_nil, List.append_nil,
    List.nil_append, List.append_assoc]

theorem oneInput_bytes : (oneInput version locktime i outs hn stack).bytes =
    version.val ++ [0x00, 0x01] ++ (compactBytes 1 ++ i.bytes) ++
      (compactBytes outs.length ++ outs.flatMap WireOut.bytes) ++
        stack.bytes Blob.bytes ++ locktime.val := by
  rw [WireTx.bytes_some (w := oneInput version locktime i outs hn stack) rfl]
  simp only [WireTx.body, oneInput, WireRun.bytes, Compact.bytes_ofNat,
    List.flatMap_cons,
    List.flatMap_nil, List.append_nil, List.append_assoc]

theorem oneInput_canonical (hi : i.script.Canonical)
    (houts : ∀ o ∈ outs, o.script.Canonical)
    (hstack : stack.count.Canonical ∧ ∀ b ∈ stack.items, b.Canonical) :
    (oneInput version locktime i outs hn stack).Canonical := by
  refine ⟨Compact.canonical_ofNat (n := 1) (by decide), ?_,
    Compact.canonical_ofNat hn, houts, ?_⟩
  · intro j hj
    rw [List.mem_singleton.mp hj]
    exact hi
  · rintro wits ⟨⟩ s hs
    rw [List.mem_singleton.mp hs]
    exact hstack

theorem oneInput_bounded (houts : outs.length ≤ 100000)
    (hstack : stack.count.value ≤ 100000) :
    WireTx.Bounded (oneInput version locktime i outs hn stack) := by
  refine ⟨Nat.one_ne_zero, Nat.le_of_ble_eq_true rfl, houts, ?_⟩
  rintro wits ⟨⟩ s hs
  rw [List.mem_singleton.mp hs]
  exact hstack

end OneInput

/-- The signature and the key. -/
def twoItems (sig pub : Blob) : WireStack :=
  ⟨Compact.ofNat 2 (by decide), [sig, pub], rfl⟩

/-- The witness of a key spend in bytes. -/
theorem twoItems_bytes (sig pub : Blob) :
    (twoItems sig pub).bytes Blob.bytes =
    compactBytes 2 ++ (sig.bytes ++ pub.bytes) := by
  simp only [WireRun.bytes, twoItems, Compact.bytes_ofNat, List.flatMap_cons,
    List.flatMap_nil,
    List.append_nil]

theorem twoItems_canonical {sig pub : Blob} (hsig : sig.Canonical)
    (hpub : pub.Canonical) :
    (twoItems sig pub).count.Canonical ∧
    ∀ b ∈ (twoItems sig pub).items, b.Canonical := by
  refine ⟨Compact.canonical_ofNat (n := 2) (by decide), ?_⟩
  intro b hb
  rcases List.mem_cons.mp hb with rfl | hb
  · exact hsig
  · rw [List.mem_singleton.mp hb]
    exact hpub

/-- **The builder writes a transaction** when the utxo's txid is 32 bytes. -/
theorem buildPaymentTx_wire {txid : Bytes}
    (h : buildPaymentTx sign keypair utxo toHash toType amountSats feeSats
      inputType = .ok r)
    (htxid : fromHex utxo.txid = some txid) (hlen : txid.length = 32) :
    ∃ w i o rest, Written utxo toHash toType amountSats r txid w i o rest := by
  unfold buildPaymentTx at h
  obtain ⟨hhash, h⟩ := refuseIf_bind_ok.mp h
  dsimp only at h
  obtain ⟨-, h⟩ := refuseIf_bind_ok.mp h
  obtain ⟨version, hversion, h⟩ := bind_ok.mp h
  obtain ⟨locktime, hlocktime, h⟩ := bind_ok.mp h
  rw [unhex_ok.mpr htxid, ok_bind] at h
  obtain ⟨voutB, hvout, h⟩ := bind_ok.mp h
  obtain ⟨scriptSig, hscriptSig, h⟩ := bind_ok.mp h
  obtain ⟨outputs, houtputs, h⟩ := bind_ok.mp h
  obtain ⟨preimage, -, h⟩ := bind_ok.mp h
  obtain ⟨sigDer, -, h⟩ := bind_ok.mp h
  obtain ⟨nIn, hnIn, h⟩ := bind_ok.mp h
  obtain ⟨nOut, hnOut, h⟩ := bind_ok.mp h
  obtain ⟨nItems, hnItems, h⟩ := bind_ok.mp h
  obtain ⟨itemsB, hitemsB, h⟩ := bind_ok.mp h
  cases h
  obtain ⟨hsigLt, rfl⟩ := sized_ok.mp hscriptSig
  obtain ⟨o, rest, rfl, hrest, hcanon, hvalue, hscript⟩ :=
    paymentOutputs_ok houtputs
  obtain ⟨-, rfl⟩ := compactSize_ok.mp hnIn
  obtain ⟨-, rfl⟩ := compactSize_ok.mp hnOut
  obtain ⟨-, rfl⟩ := compactSize_ok.mp hnItems
  simp only [List.mapM_cons, List.mapM_nil, bind_ok, pure_eq_ok,
    Except.ok.injEq] at hitemsB
  obtain ⟨sigB, hsigB, -, ⟨pubB, hpub, -, rfl, rfl⟩, rfl⟩ := hitemsB
  obtain ⟨hsigLen, rfl⟩ := sized_ok.mp hsigB
  obtain ⟨hpubLen, rfl⟩ := sized_ok.mp hpub
  -- from here on the hand-written bytes are those of a transaction on the wire
  have hprev : (txid.reverse ++ voutB).length = 36 := by
    rw [List.length_append, List.length_reverse, hlen, length_structPack hvout]
  have hn : (o :: rest).length < 256 ^ 8 := by
    rw [List.length_cons]
    omega
  let i : WireIn := ⟨⟨txid.reverse ++ voutB, hprev⟩, Blob.ofBytes _ hsigLt,
    ⟨finalSequence, rfl⟩⟩
  have hi : i.bytes = txid.reverse ++ voutB ++ (Blob.ofBytes _ hsigLt).bytes ++
      finalSequence := rfl
  have hflat : ((o :: rest).map WireOut.bytes).flatten =
      (o :: rest).flatMap WireOut.bytes := rfl
  refine ⟨oneInput ⟨version, length_structPack hversion⟩ ⟨locktime,
    length_structPack hlocktime⟩ i (o :: rest)
    hn (twoItems (Blob.ofBytes _ hsigLen) (Blob.ofBytes _ hpubLen)),
      i, o, rest, ?_⟩
  exact {
    bytes := by
      rw [oneInput_bytes, twoItems_bytes, hi, hflat, List.length_map]
      simp only [List.flatten_cons, List.flatten_nil, List.append_nil,
        List.length_cons, List.length_nil]
    hashed := by rw [oneInput_stripped, hi, hflat, List.length_map]
    bounded := by
      refine oneInput_bounded ?_ (Nat.le_of_ble_eq_true rfl)
      rw [List.length_cons]
      omega
    canonical := oneInput_canonical (canonical_ofBytes _ hsigLt) hcanon
      (twoItems_canonical (canonical_ofBytes _ hsigLen)
        (canonical_ofBytes _ hpubLen))
    input := rfl
    prevout := by
      have hrev : txid.reverse.length = 32 := by rw [List.length_reverse, hlen]
      show ((txid.reverse ++ voutB).take 32).reverse = txid ∧
        (leNat ((txid.reverse ++ voutB).drop 32) : Int) = utxo.vout
      rw [List.take_left' hrev, List.drop_left' hrev, List.reverse_reverse]
      exact ⟨rfl, leNat_structPack (by decide) hvout⟩
    scriptSig := scriptSig_shape keypair inputType
    outputs := ⟨rfl, hrest⟩
    pays := ⟨hvalue, hscript⟩
    hash := not_not.mp hhash }

end Builder

/-! ## The payment can be proved -/

/-- What the finalize path and the accounting need of a payment. -/
structure Provable (utxo : BtcUtxo) (toHash : Bytes) (toType : ReceiveType)
    (amountSats : Int)
    (r : BtcPaymentTx) (raw stripped : Bytes) : Prop where
  decodes : unhex r.txHex = .ok raw
  strips : stripWitness raw = .ok stripped
  txid : hex (hash256 stripped).reverse = r.txid
  pays : ∃ offset : Nat, findOutputZeroOffset stripped = .ok offset ∧
    verifyPayment stripped offset toHash toType amountSats = .ok ()
  single : SingleInput stripped
  /-- The only input is the utxo: its txid, in wire order, and its index. -/
  spends : ∃ outpoint, btcInputOutpointsFromRaw raw = .ok [outpoint] ∧
    fromHex utxo.txid = some (outpoint.take 32).reverse ∧
      (leNat (outpoint.drop 32) : Int) = utxo.vout
  exact : utxo.value = amountSats + r.changeSats + r.feeSats

/-- What is read as an outpoint has 36 bytes. -/
theorem takePrevouts_length {who : String} {n : Nat} : ∀ {count : Nat}
    {b rest : Bytes} {l : List Bytes}, takePrevouts who n count b = .ok (l,
    rest) → ∀ x ∈ l, x.length = 36 := by
  intro count
  induction count with
  | zero =>
    intro b rest l h x hx
    cases h
    cases hx
  | succ count ih =>
    intro b rest l h x hx
    unfold takePrevouts at h
    obtain ⟨⟨prevout, r1⟩, hprevout, h⟩ := bind_ok.mp h
    obtain ⟨⟨slen, r2⟩, -, h⟩ := bind_ok.mp h
    obtain ⟨-, h⟩ := refuseIf_bind_ok.mp h
    obtain ⟨⟨script, r3⟩, -, h⟩ := bind_ok.mp h
    obtain ⟨⟨seq, r4⟩, -, h⟩ := bind_ok.mp h
    obtain ⟨⟨prevouts, r5⟩, hrest, h⟩ := bind_ok.mp h
    cases h
    rcases List.mem_cons.mp hx with rfl | hx
    · exact (take_ok.mp hprevout).2
    · exact ih hrest x hx

theorem btcInputOutpointsFromRaw_length {raw : Bytes} {l : List Bytes}
    (h : btcInputOutpointsFromRaw raw = .ok l) : ∀ x ∈ l, x.length = 36 := by
  unfold btcInputOutpointsFromRaw at h
  obtain ⟨⟨version, r1⟩, -, h⟩ := bind_ok.mp h
  obtain ⟨⟨nIn, r2⟩, -, h⟩ := bind_ok.mp h
  obtain ⟨-, h⟩ := refuseIf_bind_ok.mp h
  obtain ⟨⟨prevouts, r3⟩, hprevouts, h⟩ := bind_ok.mp h
  cases h
  exact takePrevouts_length hprevouts

/-- **A payment the taker builds can be proved, and its amounts add up, exactly
when** the utxo's txid is 32 bytes of hex and the change is nothing or enough
for an output: change below the dust limit leaves the transaction without being
counted in the fee. -/
theorem payment_provable_iff (sign : Bytes → Bytes → Except PyErr Bytes)
    (keypair : BtcKeypair)
    (utxo : BtcUtxo) (toHash : Bytes) (toType : ReceiveType)
    (amountSats feeSats : Int)
    (inputType : InputType) (r : BtcPaymentTx) (hpos : 0 < amountSats)
    (hlt : amountSats < 2 ^ 63)
    (h : buildPaymentTx sign keypair utxo toHash toType amountSats feeSats
      inputType = .ok r) :
    (∃ raw stripped, Provable utxo toHash toType amountSats r raw stripped) ↔
      (∃ txid, fromHex utxo.txid = some txid ∧ txid.length = 32) ∧
        (utxo.value - amountSats - feeSats = 0 ∨
          dustLimit ≤ utxo.value - amountSats - feeSats) := by
  obtain ⟨hfee, hfunds, hchange⟩ := buildPaymentTx_amounts h
  constructor
  -- what was proved has one input and the change the builder kept
  · intro hp
    obtain ⟨raw, stripped, hp⟩ := hp
    obtain ⟨outpoint, hout, htxid, -⟩ := hp.spends
    have hlen := btcInputOutpointsFromRaw_length hout outpoint (List.mem_singleton_self _)
    refine ⟨⟨_, htxid, ?_⟩, ?_⟩
    · rw [List.length_reverse, List.length_take, hlen]
      rfl
    · have hexact := hp.exact
      rw [hchange, hfee] at hexact
      by_cases hdust : utxo.value - amountSats - feeSats ≥ dustLimit
      · exact .inr hdust
      · rw [if_neg hdust] at hexact
        omega
  -- conversely the walk over the built bytes ends where it should
  · intro hc
    obtain ⟨⟨txid, htxid, hlen⟩, hchg⟩ := hc
    obtain ⟨w, i, o, rest, hw⟩ := buildPaymentTx_wire h htxid hlen
    have hscript : i.script.data.length = 0 ∨ i.script.data.length = 23 := by
      rcases hw.scriptSig with hs | ⟨pkh, hpkh, hs⟩
      · exact .inl (by rw [hs]; rfl)
      · exact .inr (by rw [hs, List.length_append, hpkh]; rfl)
    obtain ⟨hitems, hrest⟩ := hw.outputs
    obtain ⟨offset, hoffset, hdrop⟩ := findOutputZeroOffset_stripped hw.canonical hw.input hscript
      (by rw [hitems]; exact List.cons_ne_nil _ _) (by rw [hitems, List.length_cons]; omega)
    rw [hitems, List.flatMap_cons, List.append_assoc] at hdrop
    obtain ⟨hvalue, hdata⟩ := hw.pays
    have hcanon : o.script.Canonical :=
      hw.canonical.scripts o (by rw [hitems]; exact List.mem_cons_self)
    have hvpos : 0 < o.value.nat := by omega
    have hvlt : o.value.nat < 2 ^ 63 := by omega
    have hverified := verifyPayment_of_output hdrop hcanon hdata hw.hash hvpos
      hvlt (Int.le_of_eq hvalue.symm)
    refine ⟨w.bytes, w.stripped, ?_⟩
    exact {
      decodes := by rw [hw.bytes, unhex_hex]
      strips := stripWitness_bytes hw.bounded hw.canonical
      txid := hw.hashed.symm
      pays := ⟨offset, hoffset, hverified⟩
      single := ⟨w, i, hw.canonical, rfl, hw.input, hw.scriptSig⟩
      spends := ⟨i.prevout.val, by rw [btcInputOutpointsFromRaw_bytes hw.bounded, hw.input]; rfl,
        by rw [hw.prevout.1]; exact htxid, hw.prevout.2⟩
      exact := by
        rw [hchange, hfee]
        by_cases hdust : utxo.value - amountSats - feeSats ≥ dustLimit
        · rw [if_pos hdust]
          omega
        · rw [if_neg hdust]
          omega }

/-- The keys of the secret `0x4444`. -/
def samplePayer : BtcKeypair where
  privkey := List.replicate 30 0 ++ [0x44, 0x44]
  pubkeyBytes := [0x02, 0x71, 0x55, 0x0E, 0x6C, 0x83, 0xA9, 0x38, 0x1F, 0x35,
    0xC5, 0x68, 0xD1, 0xA8, 0x0E, 0x11, 0xFA, 0x3E, 0x0E, 0xFC, 0x97, 0xDF,
    0xD0, 0xE0, 0xF1, 0x74, 0x92, 0xA2, 0xED, 0xB6, 0x4C, 0x37,
    0xA9]
  pkh := [0x44, 0x46, 0xE6, 0x1C, 0xC0, 0x1C, 0x95, 0xBC, 0x0E, 0x68, 0x08,
    0xB8, 0x8B, 0xEA, 0x7E, 0xB1,
    0x42, 0x05, 0x21, 0xCE]
  compressed := rfl
  hashed := rfl

/-- A coin of `value` at output 1 of a transaction. -/
def sampleCoin (value : Int) : BtcUtxo :=
  ⟨hex (List.replicate 32 0xAB), 1, value⟩

/-- Pay 60000 to a P2WPKH program, at a fee of 1000, with a signature of the
payer's. -/
def samplePayment (value : Int) (signature : Bytes) :
    Except PyErr BtcPaymentTx :=
  buildPaymentTx (fun _ _ => .ok signature) samplePayer (sampleCoin value)
    (List.replicate 20 0x11) .p2wpkh
    60000 1000 .p2wpkh

/-- The signatures of the payments out of 100000 and out of 61300. -/
def changeSignature : Bytes :=
  [0x30, 0x45, 0x02, 0x21, 0x00, 0xAB, 0x76, 0x58, 0x90, 0x00, 0xAD, 0x20, 0x7A,
    0x98, 0x18, 0xA4,
    0x1C, 0x78, 0xC7, 0xC9, 0xB7, 0xBA, 0x4F, 0x03, 0x0F, 0x68, 0x19, 0x47,
      0x01, 0xDC, 0x9D, 0x7D,
    0xDF, 0xAB, 0xCC, 0x11, 0x73, 0x02, 0x20, 0x2C, 0x5D, 0x7A, 0x67, 0x19,
      0xEA, 0x04, 0xA9, 0x57,
    0x5F, 0xE7, 0x4C, 0xF1, 0xE3, 0xA5, 0xF2, 0xC7, 0x4B, 0x17, 0x2E, 0x50,
      0xD2, 0x40, 0x24, 0xE6,
    0xD9, 0xD9, 0x6C, 0xEF, 0x4A, 0x89, 0xC6]

def dustSignature : Bytes :=
  [0x30, 0x44, 0x02, 0x20, 0x56, 0x0F, 0x0E, 0xA7, 0xCC, 0x26, 0x34, 0x44, 0x6F,
    0xE0, 0x8A, 0x99,
    0x8B, 0x97, 0xFF, 0xA8, 0x65, 0x8F, 0x34, 0xB3, 0xBB, 0x57, 0x89, 0xA3,
      0x90, 0xFC, 0x72, 0xEC,
    0x0C, 0x94, 0x07, 0x48, 0x02, 0x20, 0x79, 0x7D, 0x96, 0x0F, 0x78, 0xF8,
      0x49, 0x18, 0xEA, 0xD7,
    0xEA, 0xA2, 0x6C, 0x17, 0xB2, 0x16, 0x53, 0x33, 0xD3, 0x60, 0x9B, 0x69,
      0x55, 0x98, 0x4C, 0x45,
    0x26, 0x9C, 0x73, 0x05, 0x0B, 0x3C]

/-- A sample payment that succeeds returns. -/
theorem samplePayment_returns (value : Int) (signature : Bytes)
    (h : (samplePayment value signature).isOk = true) :
    ∃ r, samplePayment value signature = .ok r := by
  cases hr : samplePayment value signature with
  | ok r => exact ⟨r, rfl⟩
  | error e => rw [hr] at h; cases h

/-- With a change of 39000 everything fits. -/
theorem payment_provable_change :
    ∃ r, samplePayment 100000 changeSignature = .ok r ∧
    ∃ raw stripped, Provable (sampleCoin 100000)
      (List.replicate 20 0x11) .p2wpkh 60000 r raw stripped := by
  obtain ⟨r, hr⟩ := samplePayment_returns 100000 changeSignature (by decide)
  refine ⟨r, hr, ?_⟩
  exact (payment_provable_iff _ _ _ _ _ _ _ _ r (by decide) (by decide) hr).mpr
    ⟨⟨_, fromHex_hex _, rfl⟩, .inr (by decide)⟩

/-- With 300 left over the fee reported is 300 too little. -/
theorem payment_dust_uncounted :
    ∃ r, samplePayment 61300 dustSignature = .ok r ∧
    ¬ ∃ raw stripped, Provable (sampleCoin 61300)
      (List.replicate 20 0x11) .p2wpkh 60000 r raw stripped := by
  obtain ⟨r, hr⟩ := samplePayment_returns 61300 dustSignature (by decide)
  refine ⟨r, hr, ?_⟩
  rintro ⟨raw, stripped, hp⟩
  obtain ⟨hfee, -, hchange⟩ := buildPaymentTx_amounts hr
  have hexact := hp.exact
  rw [hchange, hfee] at hexact
  exact absurd hexact (by decide)

end Pyrxd.Gravity
