import Pyrxd.Btc.HtlcSpend
import Pyrxd.Gravity.Transactions
import Pyrxd.Tx.PreimageSpec

/-!
# The covenant builders and the `Transaction` class

The five builders write the wire format and the signature hash a second time.
What they return is read back by `Transaction.from_hex`, and what they sign is
compared with `tx_preimage`. The main theorem, `builders_agree_iff`, gives the
two exceptions: a funding txid of 64 characters with blanks among them, which
`bytes.fromhex` steps over, and an offer with the empty string for a change
address, whose change goes nowhere.
-/

namespace Pyrxd.Gravity

open Pyrxd.Lib Pyrxd.Spv Pyrxd.Swap Pyrxd.Tx
open Pyrxd.Btc (compactSize sized compactSize_ok sized_ok)

/-! ## What is compared -/

/-- The sum of the output values. -/
def outputTotal (t : Transaction) : Int :=
  (t.outputs.map fun o => o.satoshis.getD 0).sum

/-- The transaction `t` read from a result spends the funding output and nothing
else, has the txid reported, and pays out what came in, less the fee. -/
structure Agrees (fundingTxid : String)
    (fundingVout fundingPhotons feeSats : Int) (r : SpendResult)
    (t : Transaction) : Prop where
  parses : ∃ raw, Lib.fromHex r.txHex = some raw ∧
    Transaction.fromHex raw = some t
  spends : ∃ i s b, t.inputs = [i] ∧ i.sourceTxid = some s ∧
    Lib.fromHex s = some b ∧
    Lib.fromHex fundingTxid = some b ∧ i.sourceOutputIndex = fundingVout
  txid : t.txid = .ok r.txid
  value : fundingPhotons = outputTotal t + feeSats

/-- An input with the value and the script of the output it spends, to be signed
`ALL|FORKID`. -/
def knownInput (i : TransactionInput) (fundingPhotons : Int)
    (scriptCode : Bytes) : TransactionInput :=
  { i with
    satoshis := some fundingPhotons
    lockingScript := some scriptCode
    sighash := sighashAllForkid }

/-- The first push of the script of the only input is a signature over
`tx_preimage` of `t`, for the value and the script of the output spent. -/
def SignedOver {Key Secret : Type} (curve : Curve Key Secret) (privkey : Secret)
    (fundingPhotons : Int)
    (scriptCode : Bytes) (t : Transaction) : Prop :=
  ∃ i p sigPush rest, t.inputs = [i] ∧
    txPreimage 0 [knownInput i fundingPhotons scriptCode] t.outputs t.version
      t.locktime = .ok p ∧
    pushData (curve.sign privkey (hash256 p) ++ [0x41]) = .ok sigPush ∧
    i.unlockingScript = some (sigPush ++ rest)

/-- A txid that decodes to 32 bytes. -/
def WholeTxid (txid : String) : Prop :=
  ∃ b, Lib.fromHex txid = some b ∧ b.length = 32

/-! ## Reading back -/

section Reading

variable {txid : String} {vout sequence locktime : Int}
  {scriptSig b raw : Bytes} {outputs : List Bytes}
  {outs : List (Int × Bytes)}

/-- The outputs as they were meant. -/
def plainOutput (o : Int × Bytes) : TransactionOutput := ⟨o.2, some o.1⟩

/-- The transaction as it was meant, from the bytes of the funding txid. -/
def fundingTx (b : Bytes) (vout : Int) (scriptSig : Bytes) (sequence : Int)
    (outs : List (Int × Bytes))
    (locktime : Int) : Transaction where
  inputs := [⟨some (hex b), vout, some scriptSig, sequence, none, none,
    sighashAllForkid⟩]
  outputs := outs.map plainOutput
  version := 2
  locktime := locktime

/-- `outputs` are the serialised `outs`. -/
abbrev Serialised (outs : List (Int × Bytes)) (outputs : List Bytes) : Prop :=
  List.Forall₂ (fun o bytes => outputBytes o.1 o.2 = .ok bytes) outs outputs

/-- The hand-built output is one on the wire. -/
theorem outputBytes_ok {value : Int} {spk bytes : Bytes}
    (h : outputBytes value spk = .ok bytes) :
    ∃ w : WireOut, bytes = w.bytes ∧ w.script.Canonical ∧
    outputOf w = plainOutput (value, spk) := by
  obtain ⟨valueB, hvalue, h⟩ := bind_ok.mp h
  obtain ⟨script, hscript, h⟩ := bind_ok.mp h
  obtain ⟨hlt, rfl⟩ := sized_ok.mp hscript
  cases h
  obtain ⟨hlen, hnat⟩ := toBytesLe_ok hvalue
  refine ⟨⟨⟨valueB, hlen⟩, Blob.ofBytes spk hlt⟩, rfl,
    Compact.canonical_ofNat hlt, ?_⟩
  show TransactionOutput.mk spk (some (leNat valueB : Int)) = _
  rw [hnat]
  rfl

/-- Serialised outputs are a run of the grammar. -/
theorem Serialised.wire (h : Serialised outs outputs) : ∃ ws : List WireOut,
    outputs = ws.map WireOut.bytes ∧ (∀ w ∈ ws, w.script.Canonical) ∧
    ws.map outputOf = outs.map plainOutput := by
  induction h with
  | nil => exact ⟨[], rfl, nofun, rfl⟩
  | @cons o bytes outs outputs ho _ ih =>
    obtain ⟨ws, hws, hcanon, hout⟩ := ih
    obtain ⟨w, hw, hc, hwo⟩ := outputBytes_ok ho
    refine ⟨w :: ws, ?_, List.forall_mem_cons.mpr ⟨hc, hcanon⟩, ?_⟩
    · rw [hw, hws, List.map_cons]
    · rw [List.map_cons, hwo, hout, List.map_cons]

/-- The hand-built outpoint is one too. -/
theorem fundingOutpoint_ok {outpoint : Bytes}
    (h : fundingOutpoint txid vout = .ok outpoint)
    (hb : Lib.fromHex txid = some b) : ∃ index, outpoint = b.reverse ++ index ∧
    index.length = 4 ∧
      (leNat index : Int) = vout ∧ toBytesLe 4 vout = .ok index := by
  unfold fundingOutpoint at h
  rw [unhex_ok.mpr hb, ok_bind] at h
  obtain ⟨index, hindex, h⟩ := bind_ok.mp h
  cases h
  exact ⟨index, rfl, (toBytesLe_ok hindex).1, (toBytesLe_ok hindex).2, hindex⟩

/-- **What a builder writes is read back as it was meant**, when the txid is
whole. -/
theorem rawTx_parses
    (h : rawTx txid vout scriptSig sequence outputs locktime = .ok raw)
    (hb : Lib.fromHex txid = some b) (hlen : b.length = 32)
    (houts : Serialised outs outputs) :
    Transaction.fromHex raw = some
      (fundingTx b vout scriptSig sequence outs locktime) ∧
      (fundingTx b vout scriptSig sequence outs locktime).txid =
        .ok (hex (hash256 raw).reverse) := by
  unfold rawTx at h
  obtain ⟨version, hversion, h⟩ := bind_ok.mp h
  obtain ⟨nIn, hnIn, h⟩ := bind_ok.mp h
  obtain ⟨outpoint, hout, h⟩ := bind_ok.mp h
  obtain ⟨script, hscript, h⟩ := bind_ok.mp h
  obtain ⟨sequenceB, hsequence, h⟩ := bind_ok.mp h
  obtain ⟨nOut, hnOut, h⟩ := bind_ok.mp h
  obtain ⟨locktimeB, hlocktime, h⟩ := bind_ok.mp h
  cases h
  obtain ⟨hone, rfl⟩ := compactSize_ok.mp hnIn
  obtain ⟨hn, rfl⟩ := compactSize_ok.mp hnOut
  obtain ⟨hlt, rfl⟩ := sized_ok.mp hscript
  obtain ⟨index, rfl, hindexLen, hindex, -⟩ := fundingOutpoint_ok hout hb
  obtain ⟨hverLen, hver⟩ := toBytesLe_ok hversion
  obtain ⟨hseqLen, hseq⟩ := toBytesLe_ok hsequence
  obtain ⟨hlockLen, hlock⟩ := toBytesLe_ok hlocktime
  obtain ⟨ws, rfl, hcanon, hws⟩ := houts.wire
  -- the bytes are those of a wire transaction, whose parse is known
  have hrev : b.reverse.length = 32 := by rw [List.length_reverse, hlen]
  have hprev : (b.reverse ++ index).length = 36 := by rw [List.length_append,
    hrev, hindexLen]
  let i : WireIn := ⟨⟨b.reverse ++ index, hprev⟩, Blob.ofBytes scriptSig hlt,
    ⟨sequenceB, hseqLen⟩⟩
  let w : WireTx := ⟨⟨version, hverLen⟩, ⟨Compact.ofNat 1 hone, [i], rfl⟩,
    ⟨Compact.ofNat _ hn, ws, (List.length_map _).symm⟩, none,
      ⟨locktimeB, hlockLen⟩, nofun⟩
  have hw : w.Canonical := by
    refine ⟨Compact.canonical_ofNat hone, ?_, Compact.canonical_ofNat hn,
      hcanon, nofun⟩
    intro j hj
    rw [List.mem_singleton.mp hj]
    exact Compact.canonical_ofNat hlt
  have hbytes : version ++ compactBytes 1 ++
      (b.reverse ++ index ++ (Blob.ofBytes scriptSig hlt).bytes ++
      sequenceB) ++ compactBytes (ws.map WireOut.bytes).length ++
        (ws.map WireOut.bytes).flatten ++ locktimeB = w.stripped := by
    simp only [WireTx.stripped, WireTx.body, w, i, WireRun.bytes,
      Compact.bytes_ofNat, WireIn.bytes, List.flatMap_cons, List.flatMap_nil,
      List.append_nil, List.nil_append, List.append_assoc]
    rfl
  have htx : txOf w = fundingTx b vout scriptSig sequence outs locktime := by
    have hi : inputOf i = ⟨some (hex b), vout, some scriptSig, sequence, none,
        none, sighashAllForkid⟩ := by
      show TransactionInput.mk
        (some (hex ((b.reverse ++ index).take 32).reverse))
        (leNat ((b.reverse ++ index).drop 32) : Int) (some scriptSig)
          (leNat sequenceB : Int) none none _ = _
      rw [List.take_left' hrev, List.drop_left' hrev,
        List.reverse_reverse, hindex, hseq]
    show Transaction.mk [inputOf i] (ws.map outputOf) (leNat version : Int)
      (leNat locktimeB : Int) = _
    rw [hi, hws, hver, hlock]
    rfl
  rw [hbytes, ← htx]
  refine ⟨fromHex_stripped w, ?_⟩
  rw [Transaction.txid, Transaction.hash, serialize_txOf hw]
  rfl

/-- Whatever parses has whole txids. -/
theorem fromHex_txids {t : Transaction} (h : Transaction.fromHex raw = some t) :
    ∀ i ∈ t.inputs, ∃ b, i.sourceTxid = some (hex b) ∧ b.length = 32 := by
  obtain ⟨w, -, rfl⟩ := fromHex_some.mp h
  intro i hi
  obtain ⟨x, -, rfl⟩ := List.mem_map.mp hi
  refine ⟨(x.prevout.val.take 32).reverse, rfl, ?_⟩
  rw [List.length_reverse, List.length_take, x.prevout.property]
  rfl

/-- What agrees with a transaction has a txid of 32 bytes. -/
theorem Agrees.whole {fundingPhotons feeSats : Int} {r : SpendResult}
    {t : Transaction}
    (h : Agrees txid vout fundingPhotons feeSats r t) : WholeTxid txid := by
  obtain ⟨raw, -, hparse⟩ := h.parses
  obtain ⟨i, s, b, hi, hs, hsb, htxid, -⟩ := h.spends
  obtain ⟨c, hc, hlen⟩ :=
    fromHex_txids hparse i (by rw [hi]; exact List.mem_singleton_self i)
  rw [hs, Option.some.injEq] at hc
  rw [hc, fromHex_hex, Option.some.injEq] at hsb
  exact ⟨b, htxid, by rw [← hsb, hlen]⟩

/-- The last steps of a builder, for any outputs. -/
theorem spendResult_agrees {fundingPhotons feeSats outputPhotons : Int}
    (h : rawTx txid vout scriptSig sequence outputs locktime = .ok raw)
    (hb : Lib.fromHex txid = some b) (hlen : b.length = 32)
    (houts : Serialised outs outputs)
    (hvalue : fundingPhotons = (outs.map Prod.fst).sum + feeSats) :
    Agrees txid vout fundingPhotons feeSats
      (spendResult raw feeSats outputPhotons)
      (fundingTx b vout scriptSig sequence outs locktime) := by
  obtain ⟨hparse, htxid⟩ := rawTx_parses h hb hlen houts
  refine ⟨⟨raw, fromHex_hex raw, hparse⟩,
    ⟨_, hex b, b, rfl, rfl, fromHex_hex b, hb, rfl⟩, htxid, ?_⟩
  rw [hvalue, outputTotal]
  show _ = ((outs.map plainOutput).map _).sum + _
  rw [List.map_map]
  rfl

/-! ## The signature hash -/

/-- The parse of `_compute_hash_output_hashes` gives back the outputs that were
serialised. -/
theorem parseOutputs_bytes : ∀ {ws : List WireOut}
    {fuel : Nat}, (ws.flatMap WireOut.bytes).length ≤ fuel →
    parseOutputs fuel (ws.flatMap WireOut.bytes) = .ok (ws.map outputOf) := by
  intro ws
  -- output by output, each at least its eight bytes of value
  induction ws with
  | nil =>
    intro fuel _
    cases fuel <;> rfl
  | cons w ws ih =>
    intro fuel hfuel
    have hpos : 8 ≤ w.bytes.length := by
      rw [WireOut.bytes, List.length_append, w.value.property]
      omega
    rw [List.flatMap_cons, List.length_append] at hfuel
    rw [List.flatMap_cons]
    obtain _ | fuel := fuel
    · omega
    · have hread :=
        @TransactionOutput.fromReader_bytes (ws.flatMap WireOut.bytes) w
      cases hr : w.bytes ++ ws.flatMap WireOut.bytes with
      | nil =>
        have := congrArg List.length hr
        rw [List.length_append, List.length_nil] at this
        omega
      | cons x r =>
        rw [hr] at hread
        rw [parseOutputs, hread]
        · show (parseOutputs fuel (ws.flatMap WireOut.bytes) >>=
            fun os => pure (outputOf w :: os)) = _
          rw [ih (by omega)]
          rfl
        · exact List.cons_ne_nil x r

/-- The two hashes of output hashes agree. -/
theorem hashOutputHashes_eq (h : Serialised outs outputs) :
    hashOutputHashes outputs.flatten = computeHashOutputHashes
      (outs.map plainOutput) none := by
  obtain ⟨ws, rfl, -, hws⟩ := h.wire
  have hflat : (ws.map WireOut.bytes).flatten = ws.flatMap WireOut.bytes := rfl
  rw [hashOutputHashes, hflat, parseOutputs_bytes (Nat.le_refl _), ok_bind, hws]

theorem hashAllOutputs_eq (h : Serialised outs outputs) :
    hashAllOutputs (outs.map plainOutput) = .ok (hash256 outputs.flatten) := by
  obtain ⟨ws, rfl, hcanon, hws⟩ := h.wire
  rw [hashAllOutputs, ← hws,
    joinAll_map fun w hw => serialize_outputOf (hcanon w hw)]
  rfl

/-- **The hand-written digest is that of `tx_preimage`**, for any outputs, with
refs or without. -/
theorem radiantSighash_ok {value : Int} {scriptCode digest : Bytes}
    (h : radiantSighash txid vout value scriptCode outputs.flatten sequence
      locktime 2 = .ok digest)
    (hb : Lib.fromHex txid = some b) (houts : Serialised outs outputs) :
    ∃ p, txPreimage 0 [knownInput ⟨some (hex b), vout, some scriptSig, sequence,
      none, none, sighashAllForkid⟩
      value scriptCode] (outs.map plainOutput) 2 locktime = .ok p ∧
        digest = hash256 p := by
  unfold radiantSighash at h
  obtain ⟨outpoint, hout, h⟩ := bind_ok.mp h
  obtain ⟨sequenceB, hsequence, h⟩ := bind_ok.mp h
  obtain ⟨outputHashes, hhashes, h⟩ := bind_ok.mp h
  obtain ⟨versionB, hversion, h⟩ := bind_ok.mp h
  obtain ⟨script, hscript, h⟩ := bind_ok.mp h
  obtain ⟨valueB, hvalue, h⟩ := bind_ok.mp h
  obtain ⟨locktimeB, hlocktime, h⟩ := bind_ok.mp h
  obtain ⟨sighashType, htype, h⟩ := bind_ok.mp h
  cases h
  obtain ⟨index, rfl, -, -, hindex⟩ := fundingOutpoint_ok hout hb
  obtain ⟨hlt, rfl⟩ := sized_ok.mp hscript
  rw [hashOutputHashes_eq houts] at hhashes
  let i := knownInput ⟨some (hex b), vout, some scriptSig, sequence, none, none,
    sighashAllForkid⟩ value scriptCode
  have hpoint : outpointBytes i = .ok (b.reverse ++ index) := by
    show (txidBytes (some (hex b)) >>= fun txid => toBytesLe 4 vout >>=
      fun index => pure (txid ++ index)) = _
    rw [txidBytes, fromHex_hex, ok_bind, hindex]
    rfl
  -- with one input the three hashes are over that input's parts
  have hprevouts : hashAllPrevouts [i] =
      .ok (hash256 (b.reverse ++ index)) := by
    rw [hashAllPrevouts, joinAll, hpoint, ok_bind, joinAll, ok_bind, pure_eq_ok,
      ok_bind, List.append_nil]
    rfl
  have hsequences : hashAllSequences [i] = .ok (hash256 sequenceB) := by
    have hseq : toBytesLe 4 i.sequence = .ok sequenceB := hsequence
    rw [hashAllSequences, joinAll, hseq, ok_bind, joinAll, ok_bind, pure_eq_ok,
      ok_bind, List.append_nil]
    rfl
  have hboth : allOutputsHashes (outs.map plainOutput) =
      .ok (hash256 outputs.flatten, outputHashes) := by
    rw [allOutputsHashes, hashAllOutputs_eq houts, ok_bind, hhashes]
    rfl
  have hpre : preimage i 2 locktime (hash256 (b.reverse ++ index))
      (hash256 sequenceB) outputHashes
      (hash256 outputs.flatten) =
        .ok (versionB ++ hash256 (b.reverse ++ index) ++ hash256 sequenceB ++
        (b.reverse ++ index) ++ (Blob.ofBytes scriptCode hlt).bytes ++ valueB ++
          sequenceB ++ outputHashes ++ hash256 outputs.flatten ++ locktimeB ++
          sighashType) := by
    unfold preimage
    rw [hversion, ok_bind, hpoint, ok_bind]
    show (scriptBytes (some scriptCode) >>= fun script => toBytesLe 8 value >>=
        fun valueB' =>
      toBytesLe 4 sequence >>= fun seq => toBytesLe 4 locktime >>= fun lock =>
        toBytesLe 4 sighashAllForkid >>= fun flag => pure _) = _
    rw [scriptBytes_some hlt, ok_bind, hvalue, ok_bind, hsequence, ok_bind,
      hlocktime, ok_bind, htype, ok_bind]
    rfl
  refine ⟨_, ?_, rfl⟩
  have hacp : anyoneCanPay i.sighash = false := by
    show anyoneCanPay sighashAllForkid = false
    decide
  have hall : signsAllOutputs i.sighash = true := by
    show signsAllOutputs sighashAllForkid = true
    decide
  show txPreimage 0 [i] (outs.map plainOutput) 2 locktime = _
  unfold txPreimage
  simp only [List.getElem?_cons_zero, hacp, hall, Bool.not_false, Bool.and_true,
    if_true, hprevouts, hsequences, hboth, ok_bind]
  exact hpre

end Reading

/-! ## The builders -/

section Builders

variable {Key Secret : Type} {curve : Curve Key Secret} {offer : GravityOffer}
  {privkey : Secret}
  {txid address : String} {vout photons fee now sequence locktime : Int}
  {b : Bytes}

/-- A signature by `_sign_radiant_p2sh_input`, in front of a script. -/
theorem signedOver_of_sign {scriptCode sig sigPush : Bytes}
    {outputs : List Bytes} {outs : List (Int × Bytes)}
    (hsig : signRadiantP2shInput curve privkey txid vout photons
      scriptCode outputs.flatten sequence locktime 2 = .ok sig)
    (hpush : pushData (sig ++ [0x41]) = .ok sigPush)
    (hb : Lib.fromHex txid = some b)
    (houts : Serialised outs outputs) (rest : Bytes) :
    SignedOver curve privkey photons scriptCode
      (fundingTx b vout (sigPush ++ rest) sequence outs locktime) := by
  obtain ⟨digest, hdigest, hsig⟩ := bind_ok.mp hsig
  cases hsig
  obtain ⟨p, hp, hdigest⟩ : ∃ p, txPreimage 0 [knownInput ⟨some (hex b),
      vout, some (sigPush ++ rest), sequence, none, none,
      sighashAllForkid⟩ photons scriptCode] (outs.map plainOutput) 2 locktime =
      .ok p ∧ digest = hash256 p :=
    radiantSighash_ok hdigest hb houts
  rw [hdigest] at hpush
  exact ⟨_, p, sigPush, rest, rfl, hp, hpush, rfl⟩

/-- A single output worth the funding less the fee. -/
theorem serialised_one {spk output : Bytes}
    (h : outputBytes (photons - fee) spk = .ok output) :
    Serialised [(photons - fee, spk)] [output] ∧
      photons = (([(photons - fee, spk)] :
        List (Int × Bytes)).map Prod.fst).sum + fee := by
  refine ⟨.cons h .nil, ?_⟩
  simp only [List.map_cons, List.map_nil, List.sum_cons, List.sum_nil]
  omega

/-- The cancel transaction agrees with the library's. -/
theorem buildCancelTx_agrees {r : SpendResult}
    (h : buildCancelTx curve offer txid vout photons address fee privkey =
      .ok r)
    (hb : Lib.fromHex txid = some b) (hlen : b.length = 32) :
    ∃ t redeem, Agrees txid vout photons fee r t ∧
    Lib.fromHex offer.offerRedeemHex = some redeem ∧
      SignedOver curve privkey photons redeem t := by
  unfold buildCancelTx at h
  obtain ⟨-, -, h⟩ := bind_ok.mp h
  obtain ⟨-, -, h⟩ := bind_ok.mp h
  obtain ⟨redeem, hredeem, h⟩ := bind_ok.mp h
  obtain ⟨-, h⟩ := refuseIf_bind_ok.mp h
  obtain ⟨spk, -, h⟩ := bind_ok.mp h
  obtain ⟨output, houtput, h⟩ := bind_ok.mp h
  obtain ⟨sig, hsig, h⟩ := bind_ok.mp h
  obtain ⟨sigPush, hsigPush, h⟩ := bind_ok.mp h
  obtain ⟨redeemPush, -, h⟩ := bind_ok.mp h
  obtain ⟨raw, hraw, h⟩ := bind_ok.mp h
  cases h
  obtain ⟨houts, hvalue⟩ := serialised_one houtput
  rw [List.append_assoc] at hraw
  rw [← List.flatten_singleton (l := output)] at hsig
  exact ⟨_, redeem, spendResult_agrees hraw hb hlen houts hvalue,
    unhex_ok.mp hredeem,
    signedOver_of_sign hsig hsigPush hb houts _⟩

theorem buildClaimTx_agrees {accept : Bool} {r : ClaimResult}
    (h : buildClaimTx curve now offer txid vout photons fee privkey accept =
      .ok r)
    (hb : Lib.fromHex txid = some b) (hlen : b.length = 32) :
    ∃ t redeem, Agrees txid vout photons fee r.toSpendResult t ∧
      Lib.fromHex offer.offerRedeemHex = some redeem ∧
        SignedOver curve privkey photons redeem t := by
  unfold buildClaimTx at h
  obtain ⟨-, -, h⟩ := bind_ok.mp h
  obtain ⟨-, -, h⟩ := bind_ok.mp h
  obtain ⟨-, -, h⟩ := bind_ok.mp h
  obtain ⟨redeem, hredeem, h⟩ := bind_ok.mp h
  obtain ⟨claimed, -, h⟩ := bind_ok.mp h
  obtain ⟨actual, -, h⟩ := bind_ok.mp h
  obtain ⟨expected, -, h⟩ := bind_ok.mp h
  obtain ⟨-, h⟩ := refuseIf_bind_ok.mp h
  obtain ⟨-, h⟩ := refuseIf_bind_ok.mp h
  obtain ⟨output, houtput, h⟩ := bind_ok.mp h
  obtain ⟨sig, hsig, h⟩ := bind_ok.mp h
  obtain ⟨sigPush, hsigPush, h⟩ := bind_ok.mp h
  obtain ⟨redeemPush, -, h⟩ := bind_ok.mp h
  obtain ⟨raw, hraw, h⟩ := bind_ok.mp h
  cases h
  obtain ⟨houts, hvalue⟩ := serialised_one houtput
  rw [List.append_assoc] at hraw
  rw [← List.flatten_singleton (l := output)] at hsig
  exact ⟨_, redeem, spendResult_agrees hraw hb hlen houts hvalue,
    unhex_ok.mp hredeem,
    signedOver_of_sign hsig hsigPush hb houts _⟩

theorem buildFinalizeTx_agrees {spvProof : SpvProof} {claimedRedeemHex : String}
    {minimum : Int}
    {headerSlots branchSlots : Option Int} {r : SpendResult}
    (h : buildFinalizeTx spvProof claimedRedeemHex txid vout photons address fee
      minimum headerSlots branchSlots = .ok r) (hb : Lib.fromHex txid = some b)
    (hlen : b.length = 32) :
    ∃ t, Agrees txid vout photons fee r t := by
  unfold buildFinalizeTx at h
  obtain ⟨-, -, h⟩ := bind_ok.mp h
  obtain ⟨-, -, h⟩ := bind_ok.mp h
  obtain ⟨redeem, -, h⟩ := bind_ok.mp h
  obtain ⟨-, h⟩ := refuseIf_bind_ok.mp h
  obtain ⟨-, h⟩ := refuseIf_bind_ok.mp h
  obtain ⟨-, h⟩ := refuseIf_bind_ok.mp h
  obtain ⟨spk, -, h⟩ := bind_ok.mp h
  obtain ⟨-, h⟩ := refuseIf_bind_ok.mp h
  obtain ⟨-, h⟩ := refuseIf_bind_ok.mp h
  obtain ⟨scriptSig, -, h⟩ := bind_ok.mp h
  obtain ⟨output, houtput, h⟩ := bind_ok.mp h
  obtain ⟨raw, hraw, h⟩ := bind_ok.mp h
  cases h
  obtain ⟨houts, hvalue⟩ := serialised_one houtput
  exact ⟨_, spendResult_agrees hraw hb hlen houts hvalue⟩

theorem buildForfeitTx_agrees {r : SpendResult}
    (h : buildForfeitTx now offer txid vout photons address fee = .ok r)
    (hb : Lib.fromHex txid = some b) (hlen : b.length = 32) :
    ∃ t, Agrees txid vout photons fee r t := by
  unfold buildForfeitTx at h
  obtain ⟨-, -, h⟩ := bind_ok.mp h
  obtain ⟨-, -, h⟩ := bind_ok.mp h
  obtain ⟨-, h⟩ := refuseIf_bind_ok.mp h
  obtain ⟨claimed, -, h⟩ := bind_ok.mp h
  obtain ⟨-, h⟩ := refuseIf_bind_ok.mp h
  obtain ⟨spk, -, h⟩ := bind_ok.mp h
  obtain ⟨redeemPush, -, h⟩ := bind_ok.mp h
  obtain ⟨output, houtput, h⟩ := bind_ok.mp h
  obtain ⟨raw, hraw, h⟩ := bind_ok.mp h
  cases h
  obtain ⟨houts, hvalue⟩ := serialised_one houtput
  exact ⟨_, spendResult_agrees hraw hb hlen houts hvalue⟩

/-! ### The offer and its change -/

/-- Change that goes to no output. -/
def ChangeLost (offer : GravityOffer) (photons fee : Int)
    (changeAddress : Option String) : Prop :=
  changeAddress = some "" ∧ photons - fee - offer.photonsOffered > 0

/-- The amounts share out what the fee leaves. -/
theorem offerAmounts_ok {offered offerPhotons change : Int}
    {changeAddress : Option String}
    (h : offerAmounts offered photons fee changeAddress =
      .ok (offerPhotons, change)) :
    offerPhotons + change = photons - fee ∧ 0 ≤ change ∧
      (changeAddress = none → change = 0) ∧
        (changeAddress ≠ none → change = photons - fee - offered) := by
  cases changeAddress with
  | none =>
    obtain ⟨-, h⟩ := refuseIf_bind_ok.mp h
    cases h
    exact ⟨by omega, Int.le_refl 0, fun _ => rfl, fun hne => absurd rfl hne⟩
  | some address =>
    obtain ⟨hneg, h⟩ := refuseIf_bind_ok.mp h
    cases h
    exact ⟨by omega, by omega, nofun, fun _ => rfl⟩

/-- The change output, when there is change. -/
theorem changeOutputs_ok {change : Int} {changeAddress : Option String}
    {outputs : List Bytes}
    (h : changeOutputs change changeAddress = .ok outputs) :
    ∃ outs, Serialised outs outputs ∧ (outs.map Prod.fst).sum =
      if changeAddress = none ∨ changeAddress = some "" ∨ ¬ change > 0 then 0
        else change := by
  unfold changeOutputs at h
  cases changeAddress with
  | none =>
    cases h
    exact ⟨[], .nil, rfl⟩
  | some address =>
    dsimp only at h
    -- change is paid out only when there is some and an address for it
    by_cases hc : change > 0 ∧ address ≠ ""
    · rw [if_pos hc] at h
      obtain ⟨spk, -, h⟩ := bind_ok.mp h
      obtain ⟨output, houtput, h⟩ := bind_ok.mp h
      cases h
      refine ⟨[(change, spk)], .cons houtput .nil, ?_⟩
      rw [if_neg]
      · simp only [List.map_cons, List.map_nil, List.sum_cons,
          List.sum_nil, Int.add_zero]
      · rintro (hn | he | hle)
        · cases hn
        · exact hc.2 (Option.some.inj he)
        · exact hle hc.1
    · rw [if_neg hc] at h
      cases h
      refine ⟨[], .nil, ?_⟩
      rw [if_pos]
      · rfl
      · by_cases ha : address = ""
        · exact .inr (.inl (by rw [ha]))
        · exact .inr (.inr fun hpos => hc ⟨hpos, ha⟩)

/-- The script of the maker's output that an offer is funded from. -/
def makerScript (curve : Curve Key Secret) (privkey : Secret) : Bytes :=
  [0x76, 0xA9, 0x14] ++
    curve.hash160 (curve.format (curve.publicKey privkey) true) ++ [0x88, 0xAC]

/-- What the offer builder wrote: the value adds up unless change was lost. -/
theorem buildMakerOfferTx_written {changeAddress : Option String}
    {r : MakerOfferResult}
    (h : buildMakerOfferTx curve offer txid vout photons fee privkey
      changeAddress = .ok r)
    (hb : Lib.fromHex txid = some b) :
    ∃ scriptSig outs outputs raw,
      rawTx txid vout scriptSig 0xFFFFFFFF outputs 0 = .ok raw ∧
      Serialised outs outputs ∧
        (∃ out, r.toSpendResult = spendResult raw fee out) ∧
      SignedOver curve privkey photons (makerScript curve privkey)
        (fundingTx b vout scriptSig 0xFFFFFFFF outs 0) ∧
      (photons = (outs.map Prod.fst).sum + fee ↔
        ¬ ChangeLost offer photons fee changeAddress) := by
  unfold buildMakerOfferTx at h
  obtain ⟨-, -, h⟩ := bind_ok.mp h
  obtain ⟨-, -, h⟩ := bind_ok.mp h
  obtain ⟨redeem, -, h⟩ := bind_ok.mp h
  obtain ⟨⟨offerPhotons, change⟩, hamounts, h⟩ := bind_ok.mp h
  obtain ⟨offerOutput, hoffer, h⟩ := bind_ok.mp h
  obtain ⟨changeOuts, hchange, h⟩ := bind_ok.mp h
  obtain ⟨sig, hsig, h⟩ := bind_ok.mp h
  obtain ⟨sigPush, hsigPush, h⟩ := bind_ok.mp h
  obtain ⟨pubPush, -, h⟩ := bind_ok.mp h
  obtain ⟨raw, hraw, h⟩ := bind_ok.mp h
  cases h
  obtain ⟨hsum, hnonneg, hnone, hsome⟩ := offerAmounts_ok hamounts
  obtain ⟨cs, hcs, htotal⟩ := changeOutputs_ok hchange
  have houts : Serialised ((offerPhotons, computeP2shScriptPubkey curve
      redeem) :: cs) (offerOutput :: changeOuts) :=
    .cons hoffer hcs
  refine ⟨sigPush ++ pubPush, _, _, raw, hraw, houts, ⟨_, rfl⟩, ?_, ?_⟩
  · exact signedOver_of_sign hsig hsigPush hb houts _
  · rw [List.map_cons, List.sum_cons, htotal, ChangeLost]
    -- without an address for it the change is left to the miner
    by_cases hn : changeAddress = none
    · rw [if_pos (.inl hn)]
      have hzero := hnone hn
      refine ⟨fun _ hlost => ?_, fun _ => ?_⟩
      · rw [hn] at hlost
        cases hlost.1
      · omega
    · have hval := hsome hn
      by_cases he : changeAddress = some ""
      · rw [if_pos (.inr (.inl he))]
        refine ⟨fun hp hlost => ?_, fun hlost => ?_⟩
        · have := hlost.2
          omega
        · have : ¬ photons - fee - offer.photonsOffered > 0 :=
            fun hpos => hlost ⟨he, hpos⟩
          omega
      · refine ⟨fun _ hlost => he hlost.1, fun _ => ?_⟩
        by_cases hpos : change > 0
        · rw [if_neg]
          · omega
          · rintro (h1 | h1 | h1)
            · exact hn h1
            · exact he h1
            · exact h1 hpos
        · rw [if_pos (.inr (.inr hpos))]
          omega

/-- When the maker's offer agrees. -/
theorem buildMakerOfferTx_iff {changeAddress : Option String}
    {r : MakerOfferResult}
    (h : buildMakerOfferTx curve offer txid vout photons fee privkey
      changeAddress = .ok r) :
    (∃ t, Agrees txid vout photons fee r.toSpendResult t ∧
        SignedOver curve privkey photons (makerScript curve privkey) t) ↔
      WholeTxid txid ∧ ¬ ChangeLost offer photons fee changeAddress := by
  constructor
  · intro ht
    obtain ⟨t, hagrees, -⟩ := ht
    obtain ⟨b, hb, hlen⟩ := hagrees.whole
    obtain ⟨scriptSig, outs, outputs, raw, hraw, houts, ⟨out, hr⟩, -, hvalue⟩ :=
      buildMakerOfferTx_written h hb
    refine ⟨⟨b, hb, hlen⟩, hvalue.mp ?_⟩
    -- what was parsed is what was meant, so its outputs are known
    obtain ⟨raw', hraw', hparse⟩ := hagrees.parses
    rw [hr] at hraw'
    have hsame : raw = raw' :=
      Option.some.inj ((fromHex_hex raw).symm.trans hraw')
    rw [← hsame, (rawTx_parses hraw hb hlen houts).1,
      Option.some.injEq] at hparse
    have htotal := hagrees.value
    rw [← hparse, outputTotal] at htotal
    rw [show (outs.map Prod.fst) =
        ((outs.map plainOutput).map fun o => o.satoshis.getD 0) by
      rw [List.map_map]; rfl]
    exact htotal
  · rintro ⟨⟨b, hb, hlen⟩, hlost⟩
    obtain ⟨scriptSig, outs, outputs, raw, hraw, houts, ⟨out, hr⟩,
        hsigned, hvalue⟩ :=
      buildMakerOfferTx_written h hb
    refine ⟨_, ?_, hsigned⟩
    rw [hr]
    exact spendResult_agrees hraw hb hlen houts (hvalue.mpr hlost)

end Builders

/-- **The builders agree with the `Transaction` class** exactly when the funding
txid decodes to 32 bytes and, for an offer, no change is lost. -/
theorem builders_agree_iff {Key Secret : Type} (curve : Curve Key Secret)
    (now : Int) (offer : GravityOffer)
    (txid : String) (vout photons fee : Int) :
    (∀ privkey changeAddress r, buildMakerOfferTx curve offer
      txid vout photons fee privkey changeAddress = .ok r →
      ((∃ t, Agrees txid vout photons fee r.toSpendResult t ∧
          SignedOver curve privkey photons (makerScript curve privkey) t) ↔
        WholeTxid txid ∧ ¬ ChangeLost offer photons fee changeAddress)) ∧
    (∀ address privkey r,
      buildCancelTx curve offer txid vout photons address fee privkey = .ok r →
      ((∃ t redeem, Agrees txid vout photons fee r t ∧
        Lib.fromHex offer.offerRedeemHex = some redeem ∧
          SignedOver curve privkey photons redeem t) ↔ WholeTxid txid)) ∧
    (∀ privkey accept r, buildClaimTx curve now offer txid vout photons fee
      privkey accept = .ok r →
      ((∃ t redeem, Agrees txid vout photons fee r.toSpendResult t ∧
          Lib.fromHex offer.offerRedeemHex = some redeem ∧
            SignedOver curve privkey photons redeem t) ↔
        WholeTxid txid)) ∧
    (∀ spvProof claimedRedeemHex address minimum headerSlots branchSlots r,
      buildFinalizeTx spvProof claimedRedeemHex txid vout photons address fee
        minimum headerSlots branchSlots =
        .ok r → ((∃ t, Agrees txid vout photons fee r t) ↔ WholeTxid txid)) ∧
    (∀ address r, buildForfeitTx now offer txid vout photons address fee =
      .ok r →
      ((∃ t, Agrees txid vout photons fee r t) ↔ WholeTxid txid)) := by
  refine ⟨?_, ?_, ?_, ?_, ?_⟩
  · intro privkey changeAddress r h
    exact buildMakerOfferTx_iff h
  · intro address privkey r h
    refine ⟨fun ⟨t, redeem, ht, _⟩ => ht.whole, ?_⟩
    rintro ⟨b, hb, hlen⟩
    exact buildCancelTx_agrees h hb hlen
  · intro privkey accept r h
    refine ⟨fun ⟨t, redeem, ht, _⟩ => ht.whole, ?_⟩
    rintro ⟨b, hb, hlen⟩
    exact buildClaimTx_agrees h hb hlen
  · intro spvProof claimedRedeemHex address minimum headerSlots branchSlots r h
    refine ⟨fun ⟨t, ht⟩ => ht.whole, ?_⟩
    rintro ⟨b, hb, hlen⟩
    exact buildFinalizeTx_agrees h hb hlen
  · intro address r h
    refine ⟨fun ⟨t, ht⟩ => ht.whole, ?_⟩
    rintro ⟨b, hb, hlen⟩
    exact buildForfeitTx_agrees h hb hlen

/-! ## Two runs -/

/-- An offer whose two scripts are `OP_1`. -/
def sampleGravityFields : OfferFields where
  btcReceiveHash := List.replicate 20 0x11
  btcReceiveType := .p2wpkh
  btcSatoshis := 60000
  chainAnchor := List.replicate 32 0x22
  anchorHeight := 800000
  merkleDepth := 12
  takerRadiantPkh := List.replicate 20 0x33
  claimDeadline := 1800000000
  photonsOffered := 50000
  offerRedeemHex := "51"
  claimedRedeemHex := "51"
  expectedCodeHashHex := ""

def sampleGravityOffer : GravityOffer := ⟨sampleGravityFields, rfl⟩

/-- An address of Radiant's. -/
def sampleAddress : String := "1BvBMSEYstWetqTFn5Au4m4GFg7xJaNVN2"

/-- The signature of the secret `0x4444` on the sample below, which asks nothing
else of the library. -/
def cancelCurve : Curve Unit Unit where
  ripemd160 b := b
  parse _ := .ok ()
  format _ _ := []
  verify _ _ _ := .ok true
  sign _ _ := [0x30, 0x45, 0x02, 0x21, 0x00, 0x83, 0xB2, 0x56, 0x9E, 0x69, 0x93,
    0xD3, 0x1F, 0x1E, 0x6E, 0x1E,
    0xF2, 0x06, 0x46, 0x9F, 0xBF, 0x55, 0xD7, 0x28, 0x8D, 0x70, 0xAD, 0x3F,
      0xE1, 0xC0, 0x8C, 0xAA,
    0x1B, 0xEF, 0xF1, 0x8C, 0x12, 0x02, 0x20, 0x58, 0xC9, 0xD3, 0x47, 0xAC,
      0xE5, 0xF5, 0xD8, 0xE2,
    0x72, 0x94, 0xF4, 0x20, 0x64, 0x57, 0x0D, 0xD0, 0x83, 0xBC, 0xAF, 0xA9,
      0xB7, 0xA9, 0x41, 0x3B,
    0x1E, 0x8B, 0xE4, 0x1E, 0x42, 0x50, 0x88]
  publicKey _ := ()

def sampleCancel : Except PyErr SpendResult :=
  buildCancelTx cancelCurve sampleGravityOffer
    (hex (List.replicate 32 0xAB)) 1 100000 sampleAddress 1000 ()

def sampleForfeit (txid : String) : Except PyErr SpendResult :=
  buildForfeitTx 1800000000 sampleGravityOffer txid 1 100000 sampleAddress 1000

/-- The statement at the sample cancel. -/
theorem builders_agree_sample : ∃ r s, sampleCancel = .ok r ∧
    (∃ t redeem, Agrees (hex (List.replicate 32 0xAB)) 1 100000 1000 r t ∧
      Lib.fromHex sampleGravityOffer.offerRedeemHex = some redeem ∧
        SignedOver cancelCurve () 100000 redeem t) ∧
        sampleForfeit (hex (List.replicate 32 0xAB)) = .ok s ∧
    ∃ t, Agrees (hex (List.replicate 32 0xAB)) 1 100000 1000 s t := by
  obtain ⟨r, hr⟩ :=
    isOk_iff.mp (show sampleCancel.isOk = true by decide +kernel)
  obtain ⟨s, hs⟩ := isOk_iff.mp
    (show (sampleForfeit (hex (List.replicate 32 0xAB))).isOk =
      true by decide +kernel)
  have hwhole : WholeTxid (hex (List.replicate 32 0xAB)) :=
    ⟨_, fromHex_hex _, rfl⟩
  obtain ⟨-, hcancel, -, -, hforfeit⟩ :=
    builders_agree_iff cancelCurve 1800000000 sampleGravityOffer
      (hex (List.replicate 32 0xAB)) 1 100000 1000
  exact ⟨r, s, hr, (hcancel _ _ r hr).mpr hwhole, hs,
    (hforfeit _ s hs).mpr hwhole⟩

/-- 62 hex digits and two blanks. -/
def blankTxid : String :=
  "ababababababababababababababababababababababababababababababab  "

/-- With blanks in the funding txid the prevout is a byte short, and nothing is
spent as asked. -/
theorem builders_disagree_blank : ∃ s, sampleForfeit blankTxid = .ok s ∧
    ¬ ∃ t, Agrees blankTxid 1 100000 1000 s t := by
  obtain ⟨s, hs⟩ :=
    isOk_iff.mp (show (sampleForfeit blankTxid).isOk = true by decide +kernel)
  refine ⟨s, hs, ?_⟩
  rintro ⟨t, ht⟩
  obtain ⟨b, hb, hlen⟩ := ht.whole
  have h31 : (Lib.fromHex blankTxid).map List.length = some 31 := by decide
  rw [hb, Option.map_some, hlen] at h31
  cases h31

end Pyrxd.Gravity
