import Pyrxd.Spv.Proof

/-!
# What an SPV proof proves

A proof `build` returns should bind together a chain of headers, a branch, a
transaction and a payment. Each verifier reads its own bytes, so every fact
below says where in those bytes it holds. Two inputs slip through: a sibling
padded with white space, which shifts the branch, and a segwit transaction
without inputs, whose first prevout there is none of.
-/

namespace Pyrxd.Spv

open Pyrxd.Lib

/-! ## The walks -/

section Walks

variable {tx : Bytes} {pos pos' : Nat}

theorem map_ok {α β : Type} {x : Except PyErr α} {f : α → β} {b : β} :
    x.map f = .ok b ↔ ∃ a, x = .ok a ∧ f a = b := by
  cases x with
  | error e => exact ⟨nofun, fun h => nomatch h.choose_spec.1⟩
  | ok a =>
    constructor
    · intro h
      exact ⟨a, rfl, Except.ok.inj h⟩
    · intro h
      obtain ⟨a', ha, rfl⟩ := h
      cases ha
      rfl

/-- A CompactSize that was read stands inside the string. -/
theorem readVarint_le {fail : String → PyErr} {eof : String} {v mid : Nat}
    (h : readVarint fail eof tx pos = .ok (v, mid)) :
    pos < mid ∧ mid ≤ tx.length := by
  obtain ⟨c, -, -, hs⟩ := readVarint_ok.mp h
  have hlen := c.length_bytes
  refine ⟨by rw [hs.2]; omega, hs.le fun hnil => ?_⟩
  rw [hnil, List.length_nil] at hlen
  omega

/-- The walk of `proof.py` over one input steps as the one of `witness.py`. -/
theorem walkInput_iff : (walkInput tx pos).map Prod.snd = .ok pos' ↔
    stripInput tx pos = .ok pos' := by
  unfold walkInput stripInput readVarintTx readVarintStrict
  rw [map_ok]
  constructor
  · intro h
    obtain ⟨⟨len, p⟩, h, rfl⟩ := h
    obtain ⟨⟨len', mid⟩, hr, h⟩ := bind_ok.mp h
    obtain ⟨hend, h⟩ := rejectIf_bind_ok.mp h
    cases h
    obtain ⟨hpos, hmid⟩ := readVarint_le hr
    refine refuseIf_bind_ok.mpr ⟨by omega, ?_⟩
    rw [readVarint_ok.mpr (readVarint_ok.mp hr), ok_bind]
    exact refuseIf_bind_ok.mpr ⟨by omega, rfl⟩
  · intro h
    obtain ⟨-, h⟩ := refuseIf_bind_ok.mp h
    obtain ⟨⟨len, mid⟩, hr, h⟩ := bind_ok.mp h
    obtain ⟨hend, h⟩ := refuseIf_bind_ok.mp h
    cases h
    refine ⟨(len, mid + (len + 4)), ?_, rfl⟩
    rw [readVarint_ok.mpr (readVarint_ok.mp hr), ok_bind]
    exact rejectIf_bind_ok.mpr ⟨by omega, rfl⟩

/-- The output walk steps over a canonical output. -/
theorem walkOutput_ok : walkOutput tx pos = .ok pos' →
    ∃ o : WireOut, o.script.Canonical ∧ Spans tx pos o.bytes pos' := by
  intro h
  rw [← stripOutput_ok]
  unfold walkOutput readVarintTx at h
  obtain ⟨⟨len, mid⟩, hr, h⟩ := bind_ok.mp h
  obtain ⟨hend, h⟩ := rejectIf_bind_ok.mp h
  cases h
  obtain ⟨hpos, hmid⟩ := readVarint_le hr
  unfold stripOutput readVarintStrict
  refine refuseIf_bind_ok.mpr ⟨by omega, ?_⟩
  rw [readVarint_ok.mpr (readVarint_ok.mp hr), ok_bind]
  exact refuseIf_bind_ok.mpr ⟨by omega, rfl⟩

/-- The outputs stand one behind the other, and every offset is where one of
them starts. -/
theorem walkOutputs_ok {count : Nat} : ∀ {pos : Nat}
    {offsets : List Nat} {last : Nat},
    walkOutputs tx count pos = .ok (offsets, last) →
      ∃ outs : List WireOut, outs.length = count ∧
      (∀ o ∈ outs, o.script.Canonical) ∧
        Spans tx pos (outs.flatMap WireOut.bytes) last ∧
      ∀ p ∈ offsets, ∃ l o r, outs = l ++ o :: r ∧
        p = pos + (l.flatMap WireOut.bytes).length := by
  induction count with
  | zero =>
    intro pos offsets last h
    cases h
    exact ⟨[], rfl, nofun, Spans.nil, nofun⟩
  | succ count ih =>
    intro pos offsets last h
    rw [walkOutputs] at h
    obtain ⟨next, hnext, h⟩ := bind_ok.mp h
    obtain ⟨⟨offsets', last'⟩, hrest, h⟩ := bind_ok.mp h
    cases h
    obtain ⟨o, ho, hs⟩ := walkOutput_ok hnext
    obtain ⟨outs, hlen, hcanon, hspans, hoffsets⟩ := ih hrest
    refine ⟨o :: outs, by rw [List.length_cons,
      hlen], List.forall_mem_cons.mpr ⟨ho, hcanon⟩,
      hs.append hspans, ?_⟩
    intro p hp
    rcases List.mem_cons.mp hp with rfl | hp
    · exact ⟨[], o, outs, rfl, rfl⟩
    · obtain ⟨l, x, r, hsplit, hp⟩ := hoffsets p hp
      refine ⟨o :: l, x, r, by rw [hsplit]; rfl, ?_⟩
      rw [hp, hs.2, List.flatMap_cons, List.length_append]
      omega

end Walks

/-- Where the outputs of a transaction start. -/
def outputsStart (w : WireTx) : Nat :=
  4 + (w.ins.bytes WireIn.bytes).length + w.outs.count.bytes.length

/-- **What the structural walk accepts** is one whole transaction. -/
theorem outputOffsets_ok {tx : Bytes} {offsets : List Nat}
    (hlen : 4 ≤ tx.length)
    (h : outputOffsets tx = .ok offsets) :
      ∃ w : WireTx, w.Canonical ∧ w.witness = none ∧ tx = w.stripped ∧
      ∀ p ∈ offsets, ∃ l o r, w.outs.items = l ++ o :: r ∧
        p = outputsStart w + (l.flatMap WireOut.bytes).length := by
  unfold outputOffsets readVarintTx at h
  obtain ⟨⟨nIn, p1⟩, h1, h⟩ := bind_ok.mp h
  obtain ⟨p2, h2, h⟩ := bind_ok.mp h
  obtain ⟨⟨nOut, p3⟩, h3, h⟩ := bind_ok.mp h
  obtain ⟨⟨offs, p4⟩, h4, h⟩ := bind_ok.mp h
  obtain ⟨hend, h⟩ := rejectIf_bind_ok.mp h
  cases h
  obtain ⟨ver, hver, hs0⟩ := spans_take (show 0 + 4 ≤ tx.length by omega)
  obtain ⟨cin, hcin, rfl, hs1⟩ := readVarint_ok.mp h1
  obtain ⟨ins, hins, hinscan, hs2⟩ :=
    (stepTimes_ok fun _ _ => walkInput_iff.trans stripInput_ok).mp h2
  obtain ⟨cout, hcout, rfl, hs3⟩ := readVarint_ok.mp h3
  obtain ⟨outs, houts, houtscan, hs4, hoffs⟩ := walkOutputs_ok h4
  -- the walk ends four bytes before the end, at the locktime
  have hp4 : p4 + 4 = tx.length := by omega
  obtain ⟨locktime, hs5⟩ := (spans_fixed (by decide)).mp (Nat.le_of_eq hp4)
  have hall :=
    hs0.append ((hs1.append hs2).append ((hs3.append hs4).append hs5))
  have htx := hall.1
  rw [List.drop_zero, hp4, List.drop_length, List.append_nil] at htx
  refine ⟨⟨⟨ver, hver⟩, ⟨cin, ins, hins⟩, ⟨cout, outs, houts⟩, none,
    locktime, nofun⟩,
    ⟨hcin, hinscan, hcout, houtscan, nofun⟩, rfl, ?_, ?_⟩
  · rw [htx]
    rfl
  · intro p hp
    obtain ⟨l, o, r, hsplit, hp⟩ := hoffs p hp
    refine ⟨l, o, r, hsplit, ?_⟩
    have e1 := hs1.2
    have e2 := hs2.2
    have e3 := hs3.2
    rw [hp, outputsStart, WireRun.bytes, List.length_append]
    dsimp only
    omega

/-! ## The payment -/

theorem headD_drop (b : Bytes) (k : Nat) : b.getD k 0 = (b.drop k).headD 0 := by
  rw [List.getD_eq_getElem?_getD, List.headD_eq_head?_getD, List.head?_drop]

section Payment

variable {tx hash rest : Bytes} {offset : Nat} {type : ReceiveType}
  {minSatoshis : Int} {o : WireOut}

/-- Reading an output field by field. -/
theorem output_fields (h : tx.drop offset = o.bytes ++ rest) :
    slice tx offset (offset + 8) = o.value.val ∧
      tx.getD (offset + 8) 0 = o.script.size.bytes.headD 0 ∧
      (o.script.size.bytes.length = 1 →
        slice tx (offset + 9) (offset + 9 + o.script.data.length) =
          o.script.data) := by
  rw [WireOut.bytes, Blob.bytes, List.append_assoc, List.append_assoc] at h
  have hvalue := spans_of_drop h
  have hdrop8 : tx.drop (offset + 8) =
      o.script.size.bytes ++ (o.script.data ++ rest) := by
    have hrest := hvalue.rest h
    rw [o.value.property] at hrest
    exact hrest
  have hslice := hvalue.slice_eq
  rw [o.value.property] at hslice
  refine ⟨hslice, ?_, ?_⟩
  · obtain ⟨t, ht, -⟩ := o.script.size.bytes_cons
    rw [headD_drop, hdrop8, ht]
    rfl
  · intro hone
    have hsize := spans_of_drop hdrop8
    have hdrop9 := hsize.rest hdrop8
    rw [hone] at hdrop9
    exact (spans_of_drop hdrop9).slice_eq

/-- A script of the right length whose parts match is the standard script. -/
theorem script_of_parts {script : Bytes}
    (hlen : script.length = type.scriptLength)
    (hhash : hash.length = type.hashLength)
    (hbefore : script.take type.before.length = type.before)
    (hmiddle : slice script type.before.length (type.before.length +
      type.hashLength) = hash)
    (hbehind : ¬ (type.behind ≠ [] ∧
      script.drop (type.before.length + type.hashLength) ≠ type.behind)) :
    script = type.script hash := by
  have hend : script.drop (type.before.length + type.hashLength) =
      type.behind := by
    by_cases hnil : type.behind = []
    · rw [hnil]
      apply List.drop_of_length_le
      rw [hlen]
      revert hnil
      cases type <;> decide
    · exact not_not.mp fun hc => hbehind ⟨hnil, hc⟩
  rw [slice, Nat.add_sub_cancel_left] at hmiddle
  have hsplit : script = script.take type.before.length ++
      ((script.drop type.before.length).take type.hashLength ++
        (script.drop type.before.length).drop type.hashLength) := by
    rw [List.take_append_drop, List.take_append_drop]
  rw [hsplit, hbefore, hmiddle, List.drop_drop, hend, ReceiveType.script,
    List.append_assoc]

/-- **What a verified payment is:** the output there has the value and the
script asked for. -/
theorem verifyPayment_ok (hdrop : tx.drop offset = o.bytes ++ rest)
    (h : verifyPayment tx offset hash type minSatoshis = .ok ()) :
    minSatoshis ≤ o.value.nat ∧ o.value.nat < 2 ^ 63 ∧
    o.script.data = type.script hash := by
  obtain ⟨hvalue, hsize, hdata⟩ := output_fields hdrop
  unfold verifyPayment at h
  obtain ⟨-, h⟩ := refuseIf_bind_ok.mp h
  rw [Int.toNat_natCast] at h
  dsimp only at h
  obtain ⟨-, h⟩ := rejectIf_bind_ok.mp h
  obtain ⟨hbit, h⟩ := rejectIf_bind_ok.mp h
  obtain ⟨-, h⟩ := rejectIf_bind_ok.mp h
  obtain ⟨hmin, h⟩ := rejectIf_bind_ok.mp h
  obtain ⟨hbyte, h⟩ := rejectIf_bind_ok.mp h
  obtain ⟨hlen, h⟩ := rejectIf_bind_ok.mp h
  obtain ⟨-, h⟩ := rejectIf_bind_ok.mp h
  obtain ⟨hhash, h⟩ := refuseIf_bind_ok.mp h
  obtain ⟨hbefore, h⟩ := rejectIf_bind_ok.mp h
  obtain ⟨hmiddle, h⟩ := rejectIf_bind_ok.mp h
  have hbehind := rejectIf_ok.mp h
  rw [hvalue] at hbit hmin
  rw [hsize] at hbyte
  obtain ⟨hv, hone⟩ := Compact.of_head (c := o.script.size) (by
    rw [not_not.mp hbyte]
    cases type <;> decide)
  -- the one-byte length found there is the script's own
  have hlength : o.script.data.length = type.scriptLength := by
    rw [o.script.sized, hv, not_not.mp hbyte]
  have hscript := hdata hone
  rw [hlength] at hscript
  rw [hscript] at hlen hbefore hmiddle hbehind
  refine ⟨Int.not_lt.mp hmin, Nat.lt_of_not_le hbit, ?_⟩
  exact script_of_parts hlength (not_not.mp hhash) (not_not.mp hbefore)
    (not_not.mp hmiddle) hbehind

end Payment

/-! ## The inputs -/

section Inputs

variable {w v : WireTx} {raw stripped : Bytes}

/-- What stands behind the version. -/
theorem stripped_drop_four (w : WireTx) :
    w.stripped.drop 4 =
    w.ins.count.bytes ++ (w.ins.items.flatMap WireIn.bytes ++
      (w.outs.bytes WireOut.bytes ++ w.locktime.val)) := by
  rw [WireTx.stripped, WireTx.body, WireRun.bytes, List.nil_append,
    List.nil_append, List.append_assoc]
  exact List.drop_left' w.version.property

/-- The first byte of a compact size. -/
theorem headD_append (c : Compact) (r : Bytes) :
    (c.bytes ++ r).headD 0 = c.bytes.headD 0 := by
  obtain ⟨t, ht, -⟩ := c.bytes_cons
  rw [ht]
  rfl

/-- The input count's first byte. -/
theorem stripped_getD_four (w : WireTx) :
    w.stripped.getD 4 0 = w.ins.count.bytes.headD 0 := by
  rw [headD_drop, stripped_drop_four, headD_append]

/-- An ordinary first input does not spend the null outpoint. -/
theorem firstInput_not_null {i : WireIn} {rest : List WireIn}
    (hcanon : w.Canonical)
    (hitems : w.ins.items = i :: rest)
    (h : firstInputIsNullOutpoint w.stripped = false) :
    i.prevout.val ≠ nullOutpoint := by
  intro hnull
  have hcount := spans_of_drop (stripped_drop_four w)
  have hread : readVarintTx w.stripped 4 = .ok (w.ins.count.value,
      4 + w.ins.count.bytes.length) :=
    readVarint_ok.mpr ⟨w.ins.count, hcanon.ins, rfl, hcount⟩
  have hdrop := hcount.rest (stripped_drop_four w)
  rw [hitems, List.flatMap_cons, WireIn.bytes, hnull, nullOutpoint] at hdrop
  simp only [List.append_assoc] at hdrop
  have hzeros := spans_of_drop hdrop
  have hones := spans_of_drop (hzeros.rest hdrop)
  have hend := hones.le (by decide)
  have h1 := hzeros.slice_eq
  have h2 := hones.slice_eq
  rw [List.length_replicate] at h1 h2 hend
  rw [List.length_replicate] at h2 hend
  rw [firstInputIsNullOutpoint, hread] at h
  simp only at h
  rw [if_neg (by omega), h1, h2] at h
  cases h

/-- The input count is the fifth byte, or the seventh behind a marker. -/
theorem noInputs_iff (hstrip : stripWitness raw = .ok w.stripped)
    (hcanon : w.Canonical) :
    w.ins.count.value = 0 ↔ raw.getD 4 0 = 0x00 ∧ raw.getD 6 0 = 0x00 := by
  rw [← Compact.head_eq_zero_iff hcanon.ins, ← stripped_getD_four]
  rcases stripWitness_ok.mp hstrip with ⟨-, h4, heq⟩ | ⟨v, r, hv,
    hsome, hraw, heq⟩
  · rw [heq]
    exact ⟨fun hz => absurd hz h4, fun hz => hz.1⟩
  · obtain ⟨wits, hwits⟩ := Option.isSome_iff_exists.mp hsome
    rw [heq, stripped_getD_four]
    have hdrop4 : raw.drop 4 = 0x00 :: 0x01 :: (v.ins.count.bytes ++
        (v.ins.items.flatMap WireIn.bytes ++ (v.outs.bytes WireOut.bytes ++
        (v.witnessBytes ++ v.locktime.val)) ++ r)) := by
      rw [hraw, WireTx.bytes, WireTx.marker, if_pos hsome, WireTx.body,
        WireRun.bytes]
      simp only [List.append_assoc]
      exact List.drop_left' v.version.property
    have h4 : raw.getD 4 0 = 0x00 := by
      rw [headD_drop, hdrop4]
      rfl
    have h6 : raw.getD 6 0 = v.ins.count.bytes.headD 0 := by
      have hdrop6 : raw.drop 6 = (raw.drop 4).drop 2 := by rw [List.drop_drop]
      rw [headD_drop, hdrop6, hdrop4]
      exact headD_append _ _
    rw [h4, h6]
    exact ⟨fun hz => ⟨rfl, hz⟩, fun hz => hz.2⟩

end Inputs

/-! ## The proof -/

/-- A whole transaction with a real first input, under the txid claimed for
it. -/
structure TxOk (w : WireTx) (rawTx : Bytes) (txid : String) : Prop where
  canonical : w.Canonical
  bare : w.witness = none
  isTx : rawTx = w.stripped
  long : 64 < rawTx.length
  first : ∃ i rest, w.ins.items = i :: rest ∧ i.prevout.val ≠ nullOutpoint
  isTxid : fromHex txid = some (hash256 rawTx).reverse

/-- An output of the transaction that starts at `offset` and pays the
covenant. -/
structure Pays (w : WireTx) (offset : Int)
    (params : CovenantParams) : Prop where
  output : ∃ l o r, w.outs.items = l ++ o :: r ∧
    offset = ((outputsStart w + (l.flatMap WireOut.bytes).length : Nat) : Int) ∧
    params.btcSatoshis ≤ o.value.nat ∧ o.value.nat < 2 ^ 63 ∧
    o.script.data = params.btcReceiveType.script params.btcReceiveHash

/-- The siblings given are one for each level, the branch is theirs with the
bits of `pos`, and it leads from the leaf to the root. -/
structure BranchOk (merkleBe : List String) (branch : Bytes) (pos : Int)
    (depth : Nat) (leaf root : Bytes) :
    Prop where
  siblings : merkleBe.length = depth
  inRange : 0 < pos ∧ pos < 2 ^ depth
  climbs : ∃ sibs : List Bytes, sibs.length = depth ∧
    (∀ s ∈ sibs, s.length = 32) ∧
    branch = encodeBranch pos.toNat sibs ∧
      climb joinHash pos.toNat leaf sibs = root

/-- The header a height stands for, or any header where none is given. -/
def HeaderAt (params : CovenantParams) (headers : List Bytes) (header : Bytes) :
    Option Int → Prop
  | none => header ∈ headers
  | some height => 0 ≤ height - params.anchorHeight - 1 ∧
      headers[(height - params.anchorHeight - 1).toNat]? = some header

/-- What a proof is for. -/
structure SpvSound (params : CovenantParams) (txidBe : String)
    (merkleBe : List String) (pos outputOffset : Int)
    (txBlockHeight : Option Int) (proof : SpvProof) : Prop where
  isFor : proof.covenantParams = params ∧ proof.txid = txidBe ∧
    proof.pos = pos ∧
    proof.outputOffset = outputOffset
  chain : ChainOk proof.headers params.chainAnchor params.expectedNbits
    params.expectedNbitsNext
  tx : ∃ w, TxOk w proof.rawTx txidBe ∧ Pays w outputOffset params
  branch : ∃ header, HeaderAt params proof.headers header txBlockHeight ∧
    BranchOk merkleBe proof.branch pos params.merkleDepth (hash256 proof.rawTx)
      (merkleRootOf header)

/-- Siblings without white space, and a transaction that does not spell out zero
inputs. -/
structure WellSpelled (rawTxHex : String) (merkleBe : List String) : Prop where
  noBlanks : ∀ s ∈ merkleBe, ∀ c ∈ s.toList, isAsciiSpace c = false
  hasInput : ∀ raw, fromHex rawTxHex = some raw →
    ¬ (raw.getD 4 0 = 0x00 ∧ raw.getD 6 0 = 0x00)

/-- A header that is found has the root. -/
theorem findHeader_ok {root : Bytes} {headers : List Bytes} {header : Bytes}
    (h : findHeader root headers = .ok header) :
    header ∈ headers ∧ root = merkleRootOf header := by
  induction headers with
  | nil => cases h
  | cons x headers ih =>
    rw [findHeader] at h
    obtain ⟨expected, hexpected, h⟩ := bind_ok.mp h
    obtain ⟨-, hexpected⟩ := refuseIf_bind_ok.mp hexpected
    cases hexpected
    split at h
    · rename_i heq
      cases h
      exact ⟨List.mem_cons_self, heq⟩
    · obtain ⟨hmem, hroot⟩ := ih h
      exact ⟨List.mem_cons_of_mem _ hmem, hroot⟩

/-- One that matches stands at the height the parameters ask. -/
theorem matchingHeader_ok {params : CovenantParams} {headers : List Bytes}
    {root header : Bytes}
    {height : Option Int}
    (h : matchingHeader params headers root height = .ok header) :
    HeaderAt params headers header height ∧ root = merkleRootOf header := by
  cases height with
  | none => exact findHeader_ok h
  | some height =>
    unfold matchingHeader at h
    dsimp only at h
    split at h
    · cases h
    · rename_i x hx
      obtain ⟨expected, hexpected, h⟩ := bind_ok.mp h
      obtain ⟨-, hexpected⟩ := refuseIf_bind_ok.mp hexpected
      cases hexpected
      obtain ⟨hroot, h⟩ := rejectIf_bind_ok.mp h
      cases h
      split at hx
      · rename_i hindex
        exact ⟨⟨hindex, hx⟩, not_not.mp hroot⟩
      · cases hx

section Build

variable {params : CovenantParams} {txidBe rawTxHex : String}
  {headersHex merkleBe : List String}
  {pos outputOffset : Int} {txBlockHeight : Option Int} {proof : SpvProof}

/-- What `build` has established when it returns. -/
structure Built (params : CovenantParams) (txidBe rawTxHex : String)
    (merkleBe : List String)
    (pos outputOffset : Int) (txBlockHeight : Option Int)
    (proof : SpvProof) where
  raw : Bytes
  w : WireTx
  sibs : List Bytes
  header : Bytes
  isFor : proof.covenantParams = params ∧ proof.txid = txidBe ∧
    proof.pos = pos ∧
    proof.outputOffset = outputOffset
  ofHex : fromHex rawTxHex = some raw
  ofRaw : stripWitness raw = .ok w.stripped
  isTx : proof.rawTx = w.stripped
  canonical : w.Canonical
  bare : w.witness = none
  firstInput : firstInputIsNullOutpoint w.stripped = false
  pays : Pays w outputOffset params
  chain : ChainOk proof.headers params.chainAnchor params.expectedNbits
    params.expectedNbitsNext
  headerAt : HeaderAt params proof.headers header txBlockHeight
  decoded : List.Forall₂ (fun s sib => s.length = 64 ∧
    fromHex s = some sib.reverse) merkleBe sibs
  ofSiblings : proof.branch = encodeBranch pos.toNat sibs
  included : Included w.stripped txidBe proof.branch pos header
    params.merkleDepth
  positive : 0 < pos

/-- What a built proof has checked. -/
theorem build_ok
    (h : build params txidBe rawTxHex headersHex merkleBe pos outputOffset
      txBlockHeight = .ok proof) :
    Nonempty (Built params txidBe rawTxHex merkleBe pos outputOffset
      txBlockHeight proof) := by
  unfold build at h
  obtain ⟨hzero, h⟩ := rejectIf_bind_ok.mp h
  obtain ⟨hneg, h⟩ := refuseIf_bind_ok.mp h
  obtain ⟨raw, hraw, h⟩ := bind_ok.mp h
  obtain ⟨stripped, hstrip, h⟩ := bind_ok.mp h
  obtain ⟨hlong, h⟩ := rejectIf_bind_ok.mp h
  obtain ⟨claimed, -, h⟩ := bind_ok.mp h
  obtain ⟨-, h⟩ := rejectIf_bind_ok.mp h
  obtain ⟨hnull, h⟩ := rejectIf_bind_ok.mp h
  dsimp only at h
  obtain ⟨-, h⟩ := rejectIf_bind_ok.mp h
  obtain ⟨headers, -, h⟩ := bind_ok.mp h
  obtain ⟨hashes, hchain, h⟩ := bind_ok.mp h
  obtain ⟨branch, hbranch, h⟩ := bind_ok.mp h
  obtain ⟨root, -, h⟩ := bind_ok.mp h
  obtain ⟨header, hheader, h⟩ := bind_ok.mp h
  obtain ⟨_, hincluded, h⟩ := bind_ok.mp h
  obtain ⟨offsets, hoffsets, h⟩ := bind_ok.mp h
  obtain ⟨hmember, h⟩ := rejectIf_bind_ok.mp h
  obtain ⟨_, hpayment, h⟩ := bind_ok.mp h
  cases h
  obtain ⟨w, hcanon, hbare, rfl, hstarts⟩ :=
    outputOffsets_ok (by omega) hoffsets
  obtain ⟨-, -, sibs, hsibs, hdecoded⟩ := buildBranch_ok hbranch
  -- the offset is one of those the walk has found
  obtain ⟨p, hp⟩ := not_forall.mp hmember
  obtain ⟨hp, hoffset⟩ := Classical.not_imp.mp hp
  have hoffset := not_not.mp hoffset
  obtain ⟨l, o, r, hsplit, hstart⟩ := hstarts p hp
  have hdrop : w.stripped.drop p =
      o.bytes ++ (r.flatMap WireOut.bytes ++ w.locktime.val) := by
    have hpre : p =
        (w.version.val ++ (w.ins.bytes WireIn.bytes ++ (w.outs.count.bytes ++
        l.flatMap WireOut.bytes))).length := by
      rw [hstart, outputsStart]
      simp only [List.length_append, w.version.property]
      omega
    have hall : w.stripped =
        (w.version.val ++ (w.ins.bytes WireIn.bytes ++ (w.outs.count.bytes ++
        l.flatMap WireOut.bytes))) ++
          (o.bytes ++ (r.flatMap WireOut.bytes ++ w.locktime.val)) := by
      rw [WireTx.stripped, WireTx.body]
      have houts : w.outs.bytes WireOut.bytes =
          w.outs.count.bytes ++ (l.flatMap WireOut.bytes ++
          (o.bytes ++ r.flatMap WireOut.bytes)) := by
        rw [WireRun.bytes, hsplit, List.flatMap_append, List.flatMap_cons]
      rw [houts]
      simp only [List.append_assoc, List.nil_append]
    rw [hall, hpre]
    exact List.drop_left
  rw [← hoffset] at hpayment
  obtain ⟨hmin, hmax, hscript⟩ := verifyPayment_ok hdrop hpayment
  refine ⟨⟨raw, w, sibs, header, ⟨rfl, rfl, rfl, rfl⟩, unhex_ok.mp hraw, hstrip,
    rfl, hcanon, hbare, Bool.eq_false_iff.mpr hnull, ⟨⟨l, o, r, hsplit, ?_,
    hmin, hmax, hscript⟩⟩, verifyChain_ok hchain, (matchingHeader_ok hheader).1,
    hdecoded, hsibs, verifyTxInBlock_ok hincluded, by omega⟩⟩
  rw [← hoffset, hstart]

/-- The siblings are at most 32 bytes, and 32 exactly where there is no white
space. -/
theorem decoded_lengths {sibs : List Bytes}
    (h : List.Forall₂ (fun s sib => s.length = 64 ∧
      fromHex s = some sib.reverse) merkleBe sibs) :
    (∀ sib ∈ sibs, sib.length ≤ 32) ∧
      ((∀ sib ∈ sibs, sib.length = 32) ↔
        ∀ s ∈ merkleBe, ∀ c ∈ s.toList, isAsciiSpace c = false) := by
  induction h with
  | nil => exact ⟨nofun, fun _ => nofun, fun _ => nofun⟩
  | @cons s sib ss sibs hs _ ih =>
    obtain ⟨hlen, hhex⟩ := hs
    obtain ⟨hle, hiff⟩ := ih
    have hspace := length_fromHexChars s.toList _ hhex
    have hfull := length_fromHex_iff hhex
    rw [List.length_reverse] at hspace hfull
    rw [String.length_toList] at hspace
    refine ⟨List.forall_mem_cons.mpr ⟨by omega, hle⟩, ?_⟩
    rw [List.forall_mem_cons, List.forall_mem_cons, hiff, ← hfull]
    exact and_congr_left fun _ => by omega

/-- **What a proof proves.** Where `build` returns, the proof is sound exactly
when no sibling contains white space and the transaction was not spelled with
zero inputs behind a segwit marker. -/
theorem build_sound_iff (params : CovenantParams) (txidBe rawTxHex : String)
    (headersHex merkleBe : List String) (pos outputOffset : Int)
    (txBlockHeight : Option Int) (proof : SpvProof)
    (h : build params txidBe rawTxHex headersHex merkleBe pos outputOffset
      txBlockHeight = .ok proof) :
    SpvSound params txidBe merkleBe pos outputOffset txBlockHeight proof ↔
    WellSpelled rawTxHex merkleBe := by
  obtain ⟨t⟩ := build_ok h
  obtain ⟨hle, hblanks⟩ := decoded_lengths t.decoded
  obtain ⟨-, hfull⟩ := length_encodeBranch pos.toNat hle
  have hbranch := t.included.length
  have hcount := t.decoded.length_eq
  rw [t.ofSiblings] at hbranch
  have hinputs := noInputs_iff t.ofRaw t.canonical
  constructor
  · intro hsound
    obtain ⟨header, -, hok⟩ := hsound.branch
    refine ⟨hblanks.mp (hfull.mp ?_), ?_⟩
    · rw [hbranch, ← hcount, hok.siblings]
    · intro raw hraw hnone
      obtain ⟨w, htx, -⟩ := hsound.tx
      obtain ⟨i, rest, hitems, -⟩ := htx.first
      rw [Option.some.inj (hraw.symm.trans t.ofHex)] at hnone
      have hzero := hinputs.mpr hnone
      -- the two readings of the stripped bytes start with the same count
      have hhead : w.ins.count.bytes.headD 0 = t.w.ins.count.bytes.headD 0 := by
        rw [← stripped_getD_four, ← stripped_getD_four, ← htx.isTx, t.isTx]
      have hzero' : w.ins.count.value = 0 := by
        rw [← Compact.head_eq_zero_iff htx.canonical.ins, hhead]
        exact (Compact.head_eq_zero_iff t.canonical.ins).mpr hzero
      have hcounted := w.ins.counted
      rw [hitems, hzero', List.length_cons] at hcounted
      omega
  · intro hwell
    have h32 := hblanks.mpr hwell.noBlanks
    have hdepth : t.sibs.length = params.merkleDepth := by
      have hlen := hfull.mpr h32
      omega
    have hnonzero : t.w.ins.count.value ≠ 0 :=
      fun hz => hwell.hasInput t.raw t.ofHex (hinputs.mp hz)
    refine ⟨t.isFor, t.chain,
      ⟨t.w, ⟨t.canonical, t.bare, t.isTx, ?_, ?_, ?_⟩, t.pays⟩,
      t.header, t.headerAt, ⟨by rw [hcount, hdepth], ⟨t.positive,
        t.included.inRange⟩, t.sibs, hdepth, h32, t.ofSiblings, ?_⟩⟩
    · rw [t.isTx]
      exact t.included.long
    · cases hitems : t.w.ins.items with
      | nil =>
        have hcounted := t.w.ins.counted
        rw [hitems] at hcounted
        exact absurd hcounted.symm hnonzero
      | cons i rest =>
        exact ⟨i, rest, rfl,
          firstInput_not_null t.canonical hitems t.firstInput⟩
    · rw [t.isTx]
      exact t.included.isTxid
    · have hroot := t.included.root
      rw [t.ofSiblings, ← hdepth, foldBranch_encodeBranch h32] at hroot
      rw [t.isTx]
      exact hroot

end Build

/-! ## Two proofs -/

/-- A payment of 5000 satoshis to a P2WPKH hash. -/
def sampleHash : Bytes :=
  [0x01, 0x02, 0x03, 0x04, 0x05, 0x06, 0x07, 0x08, 0x09, 0x0A, 0x0B, 0x0C, 0x0D,
    0x0E, 0x0F, 0x10,
   0x11, 0x12, 0x13, 0x14]

def sampleRawTx : Bytes :=
  [0x01, 0x00, 0x00, 0x00, 0x01] ++ List.replicate 32 0x07 ++
    List.replicate 5 0x00 ++ List.replicate 4 0xFF ++ [0x01, 0x88, 0x13, 0x00,
    0x00, 0x00, 0x00, 0x00, 0x00, 0x16, 0x00, 0x14] ++ sampleHash ++
    List.replicate 4 0x00

def sampleParams : CovenantParams where
  btcReceiveHash := sampleHash
  btcReceiveType := .p2wpkh
  btcSatoshis := 5000
  chainAnchor := List.replicate 32 0x0A
  anchorHeight := 100
  merkleDepth := 2
  valid := by decide

/-- A header over `root`, with the work of `nonce`. -/
def sampleHeader (root nonce : Bytes) : Bytes :=
  [0x01, 0x00, 0x00, 0x00] ++ List.replicate 32 0x0A ++ root ++
    List.replicate 4 0x00 ++
    [0xFF, 0xFF, 0x7F, 0x1D] ++ nonce

/-- The root of a branch whose siblings are 31 bytes, none, and 32 bytes. -/
def shiftedHeader : Bytes := sampleHeader
  [0x90, 0xFC, 0xA6, 0x25, 0x17, 0xDD, 0xD2, 0x76, 0x0E, 0xB2, 0x09, 0x61, 0xF8,
    0x9C, 0xA8, 0xCB,
   0x95, 0x7C, 0x94, 0x47, 0x44, 0x52, 0x55, 0xD4, 0x26, 0x31, 0xFD, 0x2C, 0x6C,
     0xF7, 0xEC, 0x22]
  [0x46, 0x9F, 0x73, 0x01]

def shiftedSiblings : List String :=
  [String.ofList (hexChars (List.replicate 31 0x11) ++ [' ', ' ']),
    String.ofList (List.replicate 64 ' '),
    hex (List.replicate 32 0x22)]

/-- The root of a branch with two siblings of 32 bytes. -/
def alignedHeader : Bytes := sampleHeader
  [0x4B, 0xBF, 0xC4, 0xE6, 0xB3, 0x2E, 0xA1, 0xE0, 0x2D, 0x35, 0x18, 0x75, 0xB5,
    0xBA, 0x26, 0x47,
   0x28, 0xCA, 0xA5, 0xFD, 0xC6, 0x8F, 0xBD, 0x6F, 0x1B, 0x41, 0x49, 0x4F, 0x6F,
     0x48, 0xB1, 0xF4]
  [0xA5, 0xCF, 0xD6, 0x00]

def alignedSiblings : List String :=
  [hex (List.replicate 32 0x33), hex (List.replicate 32 0x44)]

def sampleBuild (header : Bytes) (siblings : List String) :
    Except PyErr SpvProof :=
  build sampleParams (hex (hash256 sampleRawTx).reverse)
    (hex sampleRawTx) [hex header] siblings 2 47 (some 101)

theorem unhex_hex (b : Bytes) : unhex (hex b) = .ok b := by
  rw [unhex, fromHex_hex]

/-- The direction of the second level in a branch of whole siblings. -/
theorem encodeBranch_second {pos : Nat} {sibs : List Bytes}
    (hlen : sibs.length = 2)
    (h32 : ∀ s ∈ sibs, s.length = 32) :
    (encodeBranch pos sibs).getD 33 0 = UInt8.ofNat (pos / 2 % 2) := by
  obtain _ | ⟨a, _ | ⟨b, rest⟩⟩ := sibs
  · cases hlen
  · cases hlen
  · have hdrop : (encodeBranch pos (a :: b :: rest)).drop 33 =
        encodeBranch (pos / 2) (b :: rest) := by
      rw [encodeBranch]
      exact List.drop_left' (by rw [List.length_cons, h32 a List.mem_cons_self])
    rw [headD_drop, hdrop]
    rfl

/-- A proof for position 2 whose branch goes left at both levels, as only
position 0 does. -/
theorem build_shifted :
    ∃ proof, sampleBuild shiftedHeader shiftedSiblings = .ok proof ∧
    ¬ SpvSound sampleParams (hex (hash256 sampleRawTx).reverse) shiftedSiblings
      2 47 (some 101) proof := by
  have hrun : (sampleBuild shiftedHeader shiftedSiblings).toOption.map
      (fun p => p.branch.getD 33 0) = some 0 := by
    rw [sampleBuild, build, unhex_hex]
    simp only [List.mapM_cons, List.mapM_nil, unhex_hex]
    decide +kernel
  cases hbuild : sampleBuild shiftedHeader shiftedSiblings with
  | error e =>
    rw [hbuild] at hrun
    cases hrun
  | ok proof =>
    rw [hbuild] at hrun
    have hbyte : proof.branch.getD 33 0 = 0 := Option.some.inj hrun
    refine ⟨proof, rfl, ?_⟩
    intro hsound
    obtain ⟨header, -, hok⟩ := hsound.branch
    obtain ⟨sibs, hlen, h32, hbranch, -⟩ := hok.climbs
    rw [hbranch, encodeBranch_second hlen h32] at hbyte
    exact absurd hbyte (by decide)

/-- The statement at an aligned proof. -/
theorem build_sound_aligned :
    ∃ proof, sampleBuild alignedHeader alignedSiblings = .ok proof ∧
    SpvSound sampleParams (hex (hash256 sampleRawTx).reverse) alignedSiblings 2
      47 (some 101) proof := by
  have hrun : (sampleBuild alignedHeader alignedSiblings).isOk = true := by
    rw [sampleBuild, build, unhex_hex]
    simp only [List.mapM_cons, List.mapM_nil, unhex_hex]
    decide +kernel
  cases hbuild : sampleBuild alignedHeader alignedSiblings with
  | error e =>
    rw [hbuild] at hrun
    cases hrun
  | ok proof =>
    refine ⟨proof, rfl, (build_sound_iff _ _ _ _ _ _ _ _ _ hbuild).mpr ⟨?_, ?_⟩⟩
    · intro s hs
      rcases List.mem_pair.mp hs with rfl | rfl
      · exact noSpace_hex _
      · exact noSpace_hex _
    · intro raw hraw hnone
      rw [fromHex_hex] at hraw
      rw [← Option.some.inj hraw] at hnone
      exact absurd hnone.1 (by decide)

end Pyrxd.Spv
