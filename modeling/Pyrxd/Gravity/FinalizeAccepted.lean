import Pyrxd.Gravity.Covenant
import Pyrxd.Gravity.PaymentProvable
import Pyrxd.Gravity.TransactionsAgree
import Pyrxd.Lib.ScriptCode

/-!
# What the taker finalizes and what the covenant accepts

The covenant's `finalize` branch has room for twelve headers, reads the payment
at fixed places and pays a fixed key. `finalize` looks at none of this: it
fetches as many headers as there are blocks since the anchor, lets any 23-byte
scriptSig by and pays the address it is given. The main theorem,
`finalize_accepted_iff`, says which of its transactions the branch takes.
-/

namespace Pyrxd.Gravity

open Pyrxd.Lib Pyrxd.Spv Pyrxd.Tx
open Pyrxd.Swap (isTxid)

/-! ## The branch -/

/-- `h1` ... `h12` in the ABI. -/
def headerSlots : Nat := 12

/-- The levels of the branch, in bytes: a direction and a hash each. -/
def branchBytes : Nat := 20 * 33

/-- How a push stands in a script: nothing is pushed by an opcode. -/
def pushChunk (d : Bytes) : Chunk := if d = [] then .op 0x00 else .data d

/-- The payment as the branch reads it: one input whose script is empty or
pushes a P2WPKH program, between 1 and 252 outputs, and the first one pays. -/
structure PaymentAccepted (offer : GravityOffer) (paymentTx : Bytes)
    (w : WireTx) (i : WireIn) (o : WireOut)
    (rest : List WireOut) : Prop where
  canonical : w.Canonical
  isTx : paymentTx = w.stripped
  input : w.ins.items = [i]
  script : i.script.data = [] ∨
    ∃ program : Bytes, program.length = 20 ∧ i.script.data = [0x16, 0x00,
      0x14] ++ program
  outputs : w.outs.items = o :: rest
  count : w.outs.items.length ≤ 252
  amount : offer.btcSatoshis ≤ o.value.nat
  receiver : o.script.data = offer.btcReceiveType.script offer.btcReceiveHash

/-- A transaction the `finalize` branch takes: it spends the claimed output with
twelve headers from the anchor, a full branch, a payment and the selector on the
stack, and its first output pays the taker. -/
structure FinalizeAccepted (offer : GravityOffer) (claimedTxid : String)
    (claimedVout : Int) (t : Transaction)
    (i : TransactionInput) (script : Bytes) (headers : List Bytes)
    (branch paymentTx redeem : Bytes) : Prop where
  inputs : t.inputs = [i]
  spends : ∃ s b, i.sourceTxid = some s ∧ Lib.fromHex s = some b ∧
    Lib.fromHex claimedTxid = some b ∧ i.sourceOutputIndex = claimedVout
  unlocks : i.unlockingScript = some script
  stack : readCode script.length script =
    some (headers.map .data ++ [.data branch, .data paymentTx, .op 0x00,
      pushChunk redeem])
  redeem : Lib.fromHex offer.claimedRedeemHex = some redeem
  slots : headers.length = headerSlots
  chain : ChainOk headers offer.chainAnchor offer.expectedNbits
    offer.expectedNbitsNext
  levels : branch.length = branchBytes
  payment : ∃ w j o rest, PaymentAccepted offer paymentTx w j o rest
  taker : ∃ o rest value, t.outputs = o :: rest ∧
    o.lockingScript =
      [0x76, 0xA9, 0x14] ++ offer.takerRadiantPkh ++ [0x88, 0xAC] ∧
    o.satoshis = some value ∧ offer.photonsOffered ≤ value

/-- The scriptSig of a stripped payment is empty or starts like a push of a
P2WPKH program. -/
def ProgramPushed (stripped : Bytes) : Prop :=
  stripped.getD 41 0 = 0x00 ∨ slice stripped 42 45 = [0x16, 0x00, 0x14]

instance (stripped : Bytes) : Decidable (ProgramPushed stripped) :=
  inferInstanceAs (Decidable (_ ∨ _))

/-! ## The script -/

section Script

variable {d b : Bytes} {headers : List Bytes}
  {branch paymentTx redeem script : Bytes}

/-- A push that is made is a chunk of at most 65535 bytes. -/
theorem pushData_ok (h : pushData d = .ok b) :
    d.length ≤ 65535 ∧ b = (pushChunk d).bytes := by
  unfold pushData at h
  dsimp only at h
  by_cases h0 : d.length = 0
  · rw [if_pos h0] at h
    cases h
    have hd : d = [] := List.length_eq_zero_iff.mp h0
    rw [pushChunk, if_pos hd, h0]
    exact ⟨Nat.zero_le _, rfl⟩
  · have hd : d ≠ [] := fun hd => h0 (by rw [hd]; rfl)
    rw [if_neg h0] at h
    rw [pushChunk, if_neg hd, Chunk.bytes, pushBytes]
    by_cases h75 : d.length ≤ 75
    · rw [if_pos h75] at h ⊢
      cases h
      exact ⟨by omega, rfl⟩
    · rw [if_neg h75] at h ⊢
      by_cases h255 : d.length ≤ 255
      · rw [if_pos h255] at h ⊢
        cases h
        exact ⟨by omega, rfl⟩
      · rw [if_neg h255] at h ⊢
        by_cases hmax : d.length ≤ 65535
        · rw [if_pos hmax] at h
          cases h
          exact ⟨hmax, rfl⟩
        · rw [if_neg hmax] at h
          cases h

/-- Up to that length it is well formed. -/
theorem pushChunk_ok (h : d.length ≤ 65535) : (pushChunk d).Ok := by
  unfold pushChunk
  by_cases hd : d = []
  · rw [if_pos hd]
    decide
  · rw [if_neg hd]
    exact ⟨List.length_pos_of_ne_nil hd, h⟩

/-- A push of some bytes is a data chunk. -/
theorem pushChunk_of_ne (h : d ≠ []) : pushChunk d = .data d := if_neg h

theorem pushAll_ok {ds : List Bytes} :
    ∀ {bs : List Bytes}, ds.mapM pushData = .ok bs →
    bs.flatten = assembleCode (ds.map pushChunk) ∧
    ∀ t ∈ ds.map pushChunk, t.Ok := by
  induction ds with
  | nil =>
    intro bs h
    cases h
    exact ⟨rfl, nofun⟩
  | cons d ds ih =>
    intro bs h
    obtain ⟨b, rest, hb, hrest, rfl⟩ := mapM_cons_ok.mp h
    obtain ⟨hlen, rfl⟩ := pushData_ok hb
    obtain ⟨hflat, hok⟩ := ih hrest
    refine ⟨?_, List.forall_mem_cons.mpr ⟨pushChunk_ok hlen, hok⟩⟩
    rw [List.flatten_cons, hflat]
    rfl

/-- **The stack the script leaves** is read off it. -/
theorem finalizeScriptSig_stack
    (h : finalizeScriptSig headers branch paymentTx redeem = .ok script) :
    readCode script.length script = some (headers.map pushChunk ++
      [pushChunk branch, pushChunk paymentTx, .op 0x00, pushChunk redeem]) := by
  obtain ⟨pushes, hpushes, h⟩ := bind_ok.mp h
  obtain ⟨branchPush, hbranch, h⟩ := bind_ok.mp h
  obtain ⟨txPush, htx, h⟩ := bind_ok.mp h
  obtain ⟨redeemPush, hredeem, h⟩ := bind_ok.mp h
  cases h
  obtain ⟨hflat, hok⟩ := pushAll_ok hpushes
  obtain ⟨hbranchLen, rfl⟩ := pushData_ok hbranch
  obtain ⟨htxLen, rfl⟩ := pushData_ok htx
  obtain ⟨hredeemLen, rfl⟩ := pushData_ok hredeem
  have hscript : pushes.flatten ++ (pushChunk branch).bytes ++
      (pushChunk paymentTx).bytes ++ [0x00] ++
      (pushChunk redeem).bytes = assembleCode (headers.map pushChunk ++
        [pushChunk branch, pushChunk paymentTx, .op 0x00,
          pushChunk redeem]) := by
    rw [hflat, assembleCode_append]
    simp only [assembleCode, List.flatMap_cons, List.flatMap_nil, Chunk.bytes,
      List.append_assoc, List.append_nil]
  rw [hscript]
  refine readCode_assemble ?_ (Nat.le_refl _)
  intro t ht
  rcases List.mem_append.mp ht with ht | ht
  · exact hok t ht
  · simp only [List.mem_cons, List.not_mem_nil, or_false] at ht
    rcases ht with rfl | rfl | rfl | rfl
    · exact pushChunk_ok hbranchLen
    · exact pushChunk_ok htxLen
    · decide
    · exact pushChunk_ok hredeemLen

end Script

/-! ## The payment -/

section Payment

variable {raw stripped : Bytes} {w : WireTx} {offset : Nat}

/-- Only a transaction that starts like a segwit one is changed by the
stripper. -/
theorem stripWitness_same (h : stripWitness raw = .ok stripped)
    (h4 : raw.getD 4 0 ≠ 0) : stripped = raw := by
  rcases stripWitness_ok.mp h with ⟨-, -, heq⟩ | ⟨v, r, -, hsome, hraw, -⟩
  · exact heq
  · rw [hraw] at h4
    exact absurd (getD_four_marker hsome r) h4

/-- What the finder has seen when it returns: one input, with a script of one of
the two lengths. -/
structure Found (w : WireTx) (i : WireIn) (offset : Nat) : Prop where
  input : w.ins.items = [i]
  length : i.script.data.length = 0 ∨ i.script.data.length = 23
  offset : offset = 47 + i.script.data.length
  starts : outputsStart w =
    46 + i.script.data.length + w.outs.count.bytes.length
  byte : w.stripped.getD 41 0 = UInt8.ofNat i.script.data.length
  behind : ∃ rest, w.stripped.drop 42 = i.script.data ++ rest

/-- An offset that is found is the one of output 0. -/
theorem findOutputZeroOffset_ok (h : findOutputZeroOffset w.stripped =
      .ok offset) : ∃ i, Found w i offset := by
  unfold findOutputZeroOffset at h
  obtain ⟨-, h⟩ := refuseIf_bind_ok.mp h
  dsimp only at h
  obtain ⟨hone, h⟩ := refuseIf_bind_ok.mp h
  obtain ⟨-, h⟩ := refuseIf_bind_ok.mp h
  obtain ⟨hshape, h⟩ := refuseIf_bind_ok.mp h
  obtain ⟨-, h⟩ := refuseIf_bind_ok.mp h
  obtain ⟨-, h⟩ := refuseIf_bind_ok.mp h
  cases h
  -- one input, so the first script length stands at byte 41
  have hone := not_not.mp hone
  rw [stripped_getD_four] at hone
  obtain ⟨hcount, hcountLen⟩ :=
    Compact.of_head (c := w.ins.count) (by rw [hone]; decide)
  rw [hone] at hcount
  have hlen : w.ins.items.length = 1 := by rw [w.ins.counted, hcount]; rfl
  obtain ⟨i, hi⟩ := List.length_eq_one_iff.mp hlen
  have h4 := stripped_drop_four w
  rw [hi, List.flatMap_singleton, WireIn.bytes, Blob.bytes] at h4
  simp only [List.append_assoc] at h4
  have h41 : w.stripped.drop 41 =
      i.script.size.bytes ++ (i.script.data ++ (i.sequence.val ++
      (w.outs.bytes WireOut.bytes ++ w.locktime.val))) := by
    rw [show 41 = 4 + (1 + 36) from rfl, ← List.drop_drop, h4, ← List.drop_drop,
      ← hcountLen, List.drop_left, List.drop_left' i.prevout.property]
  have hbyte : w.stripped.getD 41 0 = i.script.size.bytes.headD 0 := by
    rw [headD_drop, h41, headD_append]
  rw [hbyte] at hshape
  -- the guard admits an empty unlocking script or the 23 bytes of a P2SH push
  have hcases : i.script.size.bytes.headD 0 = 0 ∨
      i.script.size.bytes.headD 0 = 23 := by
    by_cases h0 : i.script.size.bytes.headD 0 = 0
    · exact .inl h0
    · exact .inr (not_not.mp fun h23 => hshape ⟨h0, h23⟩)
  have hsmall : (i.script.size.bytes.headD 0).toNat < 0xFD := by
    rcases hcases with h0 | h23
    · rw [h0]
      decide
    · rw [h23]
      decide
  obtain ⟨hsize, hsizeLen⟩ := Compact.of_head hsmall
  have hdata : i.script.data.length =
      (i.script.size.bytes.headD 0).toNat := by rw [i.script.sized, hsize]
  have hlength : i.script.data.length = 0 ∨ i.script.data.length = 23 := by
    rw [hdata]
    rcases hcases with h0 | h23
    · exact .inl (by rw [h0]; rfl)
    · exact .inr (by rw [h23]; rfl)
  -- which leaves the outputs where the code counts them
  have hstarts : outputsStart w =
      46 + i.script.data.length + w.outs.count.bytes.length := by
    rw [outputsStart, WireRun.bytes, hi, List.flatMap_singleton,
      WireIn.bytes, Blob.bytes]
    simp only [List.length_append, i.prevout.property, i.sequence.property,
      hcountLen, hsizeLen]
    omega
  have hbehind : w.stripped.drop 42 = i.script.data ++ (i.sequence.val ++
      (w.outs.bytes WireOut.bytes ++ w.locktime.val)) := by
    rw [show 42 = 41 + 1 from rfl, ← List.drop_drop, h41, ← hsizeLen,
      List.drop_left]
  have hoffset : 42 + (w.stripped.getD 41 0).toNat + 4 + 1 =
      47 + i.script.data.length := by
    rw [hbyte, hdata]
    omega
  exact ⟨i, hi, hlength, hoffset,
    hstarts, by rw [hbyte, hdata, UInt8.ofNat_toNat], _, hbehind⟩

/-- **The offset is that of the first output**, since no other fits in front of
it; its count is one byte. -/
theorem found_first {i : WireIn} {l r : List WireOut} {o : WireOut}
    (h : Found w i offset)
    (hsplit : w.outs.items = l ++ o :: r)
    (hoffset : (offset : Int) =
      ((outputsStart w + (l.flatMap WireOut.bytes).length : Nat) : Int)) :
    l = [] ∧ w.outs.items.length ≤ 252 := by
  have hcount := w.outs.count.length_bytes
  have hstart := h.starts
  have hoff := h.offset
  have hnil : (l.flatMap WireOut.bytes).length = 0 := by omega
  have hwidth : w.outs.count.bytes.length = 1 := by omega
  refine ⟨?_, ?_⟩
  · cases l with
    | nil => rfl
    | cons x l =>
      rw [List.flatMap_cons, List.length_append, WireOut.bytes,
        List.length_append, x.value.property] at hnil
      omega
  · rw [w.outs.counted]
    have hform : w.outs.count.form = .one := by
      cases hf : w.outs.count.form with
      | one => rfl
      | two => rw [hf] at hcount; simp only [CompactForm.width] at hcount; omega
      | four =>
        rw [hf] at hcount; simp only [CompactForm.width] at hcount; omega
      | eight =>
        rw [hf] at hcount; simp only [CompactForm.width] at hcount; omega
    have hfits := w.outs.count.fits
    rw [hform, CompactForm.bound] at hfits
    omega

/-- On what the finder lets by, a pushed program is what the covenant asks
for. -/
theorem programPushed_iff {i : WireIn} (h : Found w i offset) :
    ProgramPushed w.stripped ↔
    (i.script.data = [] ∨ ∃ program : Bytes, program.length = 20 ∧
      i.script.data = [0x16, 0x00, 0x14] ++ program) := by
  obtain ⟨rest, hrest⟩ := h.behind
  rw [ProgramPushed, h.byte]
  rcases h.length with hlen | hlen
  · rw [hlen]
    exact ⟨fun _ => .inl (List.length_eq_zero_iff.mp hlen), fun _ => .inl rfl⟩
  · have hslice : slice w.stripped 42 45 = i.script.data.take 3 := by
      rw [slice, hrest, List.take_append_of_le_length (by omega)]
    rw [hlen, hslice]
    constructor
    · intro hp
      rcases hp with hp | hp
      · exact absurd hp (by decide)
      · refine .inr ⟨i.script.data.drop 3, by rw [List.length_drop, hlen], ?_⟩
        rw [← hp, List.take_append_drop]
    · rintro (hp | ⟨program, -, hp⟩)
      · rw [hp] at hlen
        cases hlen
      · exact .inr (by rw [hp]; rfl)

end Payment

/-! ## What `finalize` has done -/

section Finalized

variable {btc : BtcSource} {minConf : Int}
  {btcTxid claimedTxid takerAddress : String} {offer : GravityOffer}
  {claimedVout photons fee : Int} {btcTxHeight : Option Int} {r : SpendResult}

/-- Headers written in hex are read back. -/
theorem unhex_all (headers : List Bytes) :
    (headers.map hex).mapM unhex = .ok headers := by
  have h := mapM_map_ok headers fun x _ => unhex_hex x
  rwa [List.map_id'] at h

/-- The headers `build` was given are those of its proof. -/
theorem build_headers {params : Spv.CovenantParams} {txid rawTxHex : String}
    {headers : List Bytes}
    {merkle : List String} {pos outputOffset : Int} {height : Option Int}
    {proof : SpvProof}
    (h : build params txid rawTxHex (headers.map hex) merkle pos outputOffset
      height = .ok proof) :
    proof.headers = headers := by
  unfold build at h
  obtain ⟨-, h⟩ := rejectIf_bind_ok.mp h
  obtain ⟨-, h⟩ := refuseIf_bind_ok.mp h
  obtain ⟨raw, -, h⟩ := bind_ok.mp h
  obtain ⟨stripped, -, h⟩ := bind_ok.mp h
  obtain ⟨-, h⟩ := rejectIf_bind_ok.mp h
  obtain ⟨claimed, -, h⟩ := bind_ok.mp h
  obtain ⟨-, h⟩ := rejectIf_bind_ok.mp h
  obtain ⟨-, h⟩ := rejectIf_bind_ok.mp h
  dsimp only at h
  obtain ⟨-, h⟩ := rejectIf_bind_ok.mp h
  obtain ⟨decoded, hdecoded, h⟩ := bind_ok.mp h
  obtain ⟨hashes, -, h⟩ := bind_ok.mp h
  obtain ⟨branch, -, h⟩ := bind_ok.mp h
  obtain ⟨root, -, h⟩ := bind_ok.mp h
  obtain ⟨header, -, h⟩ := bind_ok.mp h
  obtain ⟨_, -, h⟩ := bind_ok.mp h
  obtain ⟨offsets, -, h⟩ := bind_ok.mp h
  obtain ⟨-, h⟩ := rejectIf_bind_ok.mp h
  obtain ⟨_, -, h⟩ := bind_ok.mp h
  cases h
  rw [unhex_all] at hdecoded
  cases hdecoded
  rfl

/-- The run of a `finalize` that reaches the broadcast. -/
structure Finalized (btc : BtcSource) (minConf : Int) (btcTxid : String)
    (offer : GravityOffer)
    (btcTxHeight : Option Int) (height : Int) (raw stripped : Bytes)
    (headers : List Bytes) (offset : Nat)
    (params : Spv.CovenantParams) (merkle : List String) (pos : Int)
    (proof : SpvProof) : Prop where
  ofHeight : resolveBtcTxHeight btc btcTxid btcTxHeight = .ok height
  ofRaw : btc.getRawTx btcTxid minConf = .ok raw
  ofHeaders : btc.getHeaderChain (offer.anchorHeight + 1)
    (height - offer.anchorHeight) = .ok headers
  strips : stripWitness raw = .ok stripped
  finds : findOutputZeroOffset stripped = .ok offset
  pinned : offer.expectedNbits ≠ none
  ofOffer : params.chainAnchor = offer.chainAnchor ∧ params.expectedNbits =
    offer.expectedNbits ∧ params.expectedNbitsNext = offer.expectedNbitsNext ∧
    params.btcSatoshis = offer.btcSatoshis ∧ params.btcReceiveType =
    offer.btcReceiveType ∧ params.btcReceiveHash = offer.btcReceiveHash
  proves : build params btcTxid (hex stripped)
    (headers.map hex) merkle pos offset (some height) = .ok proof

/-- What a finalisation that returns has fetched and built. -/
theorem finalize_ok (h : finalize btc minConf btcTxid offer claimedTxid
      claimedVout photons takerAddress fee btcTxHeight = .ok r) :
    ∃ height raw stripped headers offset params merkle pos proof,
      Finalized btc minConf btcTxid offer btcTxHeight height
        raw stripped headers offset params merkle pos proof ∧
        buildFinalizeTx proof offer.claimedRedeemHex claimedTxid claimedVout
        photons takerAddress fee offer.photonsOffered none none = .ok r := by
  unfold finalize at h
  obtain ⟨-, h⟩ := refuseIf_bind_ok.mp h
  obtain ⟨height, hheight, h⟩ := bind_ok.mp h
  obtain ⟨raw, hraw, h⟩ := bind_ok.mp h
  obtain ⟨⟨merkle, pos⟩, -, h⟩ := bind_ok.mp h
  obtain ⟨start, hstart, h⟩ := bind_ok.mp h
  dsimp only at h
  obtain ⟨-, h⟩ := refuseIf_bind_ok.mp h
  obtain ⟨-, h⟩ := refuseIf_bind_ok.mp h
  obtain ⟨headers, hheaders, h⟩ := bind_ok.mp h
  -- an empty chain is refused before the proof is built
  by_cases hnil : headers = []
  · rw [if_pos hnil] at h
    cases h
  · rw [if_neg hnil] at h
    obtain ⟨stripped, hstrip, h⟩ := bind_ok.mp h
    obtain ⟨offset, hoffset, h⟩ := bind_ok.mp h
    obtain ⟨hpin, h⟩ := refuseIf_bind_ok.mp h
    obtain ⟨params, hparams, h⟩ := bind_ok.mp h
    obtain ⟨proof, hproof, hbuilt⟩ := bind_ok.mp h
    obtain ⟨-, hstart⟩ := refuseIf_bind_ok.mp hstart
    obtain ⟨-, hstart⟩ := refuseIf_bind_ok.mp hstart
    cases hstart
    obtain ⟨hvalid, -, hparams⟩ := bind_ok.mp hparams
    cases hparams
    exact ⟨height, raw, stripped, headers, offset, _, merkle, pos, proof,
      ⟨hheight, hraw, hheaders, hstrip, hoffset, hpin,
        ⟨rfl, rfl, rfl, rfl, rfl, rfl⟩, hproof⟩, hbuilt⟩

/-- What `build_finalize_tx` has written. -/
theorem buildFinalizeTx_written {proof : SpvProof} {b : Bytes}
    (h : buildFinalizeTx proof offer.claimedRedeemHex claimedTxid claimedVout
      photons takerAddress fee offer.photonsOffered none none = .ok r)
    (hb : Lib.fromHex claimedTxid = some b) (hlen : b.length = 32) :
    ∃ redeem spk script raw, Lib.fromHex offer.claimedRedeemHex = some redeem ∧
      radiantAddressToP2pkhScript takerAddress = .ok spk ∧
        proof.branch.length / 33 ≤ 20 ∧
      finalizeScriptSig proof.headers (proof.branch ++
        (List.replicate ((20 : Int) - (proof.branch.length / 33 : Nat)).toNat
          sentinelPad).flatten) proof.rawTx redeem = .ok script ∧
      offer.photonsOffered ≤ photons - fee ∧ Lib.fromHex r.txHex = some raw ∧
      Transaction.fromHex raw = some (fundingTx b claimedVout script 0xFFFFFFFF
        [(photons - fee, spk)] 0) := by
  unfold buildFinalizeTx at h
  obtain ⟨-, -, h⟩ := bind_ok.mp h
  obtain ⟨-, -, h⟩ := bind_ok.mp h
  obtain ⟨redeem, hredeem, h⟩ := bind_ok.mp h
  obtain ⟨-, h⟩ := refuseIf_bind_ok.mp h
  obtain ⟨hfloor, h⟩ := refuseIf_bind_ok.mp h
  obtain ⟨-, h⟩ := refuseIf_bind_ok.mp h
  obtain ⟨spk, hspk, h⟩ := bind_ok.mp h
  obtain ⟨-, h⟩ := refuseIf_bind_ok.mp h
  obtain ⟨hdepth, h⟩ := refuseIf_bind_ok.mp h
  obtain ⟨script, hscript, h⟩ := bind_ok.mp h
  obtain ⟨output, houtput, h⟩ := bind_ok.mp h
  obtain ⟨raw, hraw, h⟩ := bind_ok.mp h
  cases h
  have hoffered : 0 < offer.photonsOffered := by
    have hvalid := offer.valid
    unfold OfferFields.postInit at hvalid
    obtain ⟨-, hvalid⟩ := refuseIf_bind_ok.mp hvalid
    obtain ⟨-, hvalid⟩ := refuseIf_bind_ok.mp hvalid
    obtain ⟨-, hvalid⟩ := refuseIf_bind_ok.mp hvalid
    obtain ⟨-, hvalid⟩ := refuseIf_bind_ok.mp hvalid
    obtain ⟨-, hvalid⟩ := refuseIf_bind_ok.mp hvalid
    obtain ⟨hpos, -⟩ := refuseIf_bind_ok.mp hvalid
    omega
  rw [Option.getD_none] at hdepth
  have hdepth' : proof.branch.length / 33 ≤ 20 := by omega
  exact ⟨redeem, spk, script, raw, unhex_ok.mp hredeem, hspk, hdepth',
    hscript, by omega, fromHex_hex raw, (rawTx_parses hraw hb hlen
    (serialised_one houtput).1).1⟩

end Finalized

/-! ## Main theorem -/

/-- The replies and arguments on which what is broadcast is accepted: twelve
headers, a payment that pushes nothing or a program, an address of the taker's,
and a whole txid. -/
structure FinalizeReady (btc : BtcSource) (minConf : Int) (btcTxid : String)
    (offer : GravityOffer)
    (claimedTxid takerAddress : String) (btcTxHeight : Option Int) : Prop where
  slots : ∃ height headers, resolveBtcTxHeight btc btcTxid btcTxHeight =
    .ok height ∧
    btc.getHeaderChain (offer.anchorHeight + 1) (height - offer.anchorHeight) =
      .ok headers ∧
    headers.length = headerSlots
  pushed : ∃ raw stripped, btc.getRawTx btcTxid minConf = .ok raw ∧
    stripWitness raw = .ok stripped ∧
    ProgramPushed stripped
  taker : radiantAddressToP2pkhScript takerAddress =
    .ok ([0x76, 0xA9, 0x14] ++ offer.takerRadiantPkh ++ [0x88, 0xAC])
  whole : WholeTxid claimedTxid

section Accepted

variable {btc : BtcSource} {minConf : Int} {btcTxid : String}
  {offer : GravityOffer} {btcTxHeight : Option Int} {height pos : Int}
  {raw stripped : Bytes} {headers : List Bytes} {offset : Nat}
  {params : Spv.CovenantParams} {merkle : List String} {proof : SpvProof}

/-- The payment of a run: it is the one that was fetched, and pays from its
first output. -/
theorem Finalized.payment
    (h : Finalized btc minConf btcTxid offer btcTxHeight height
      raw stripped headers offset params merkle pos proof) :
    proof.headers = headers ∧ ChainOk headers offer.chainAnchor
      offer.expectedNbits offer.expectedNbitsNext ∧
    proof.branch.length % 33 = 0 ∧ proof.rawTx = stripped ∧ stripped ≠ [] ∧
      ∃ w i o r, Found w i offset ∧ w.Canonical ∧ stripped = w.stripped ∧
        w.outs.items = o :: r ∧ w.outs.items.length ≤ 252 ∧
        offer.btcSatoshis ≤ o.value.nat ∧
        o.script.data = offer.btcReceiveType.script offer.btcReceiveHash := by
  obtain ⟨t⟩ := Spv.build_ok h.proves
  have hheaders := build_headers h.proves
  obtain ⟨hanchor, hnbits, hnext, hsat, htype, hhash⟩ := h.ofOffer
  have hraw : t.raw = stripped :=
    Option.some.inj (t.ofHex.symm.trans (fromHex_hex stripped))
  have hfinds := h.finds
  have h4 : stripped.getD 4 0 ≠ 0 := by
    unfold findOutputZeroOffset at hfinds
    obtain ⟨-, hfinds⟩ := refuseIf_bind_ok.mp hfinds
    obtain ⟨hone, -⟩ := refuseIf_bind_ok.mp hfinds
    rw [not_not.mp hone]
    decide
  have hsecond := t.ofRaw
  rw [hraw] at hsecond
  -- what was proved is the stripped transaction, stripped once more to no
  -- effect
  have hsame : t.w.stripped = stripped := stripWitness_same hsecond h4
  have hchain := t.chain
  rw [hheaders, hanchor, hnbits, hnext] at hchain
  have hne : stripped ≠ [] := by
    intro hnil
    rw [hnil] at h4
    exact h4 rfl
  rw [← hsame] at hfinds
  obtain ⟨i, hfound⟩ := findOutputZeroOffset_ok hfinds
  obtain ⟨l, o, r, hsplit, hoffset, hmin, -, hdata⟩ := t.pays.output
  obtain ⟨hnil, hcount⟩ := found_first hfound hsplit hoffset
  rw [hnil, List.nil_append] at hsplit
  rw [hsat] at hmin
  rw [htype, hhash] at hdata
  refine ⟨hheaders, hchain, ?_, by rw [t.isTx,
    hsame], hne, t.w, i, o, r, hfound, t.canonical, hsame.symm, hsplit, hcount, hmin, hdata⟩
  rw [t.included.length]
  exact Nat.mul_mod_right 33 _

/-- What the branch accepts was ready. -/
theorem FinalizeAccepted.ready {r : SpendResult}
    {claimedTxid takerAddress : String} {claimedVout photons fee : Int}
    {raw script branch paymentTx redeem : Bytes} {t : Transaction}
    {j : TransactionInput} {hs : List Bytes}
    (hacc : FinalizeAccepted offer claimedTxid claimedVout t j script hs branch
      paymentTx redeem)
    (h : finalize btc minConf btcTxid offer claimedTxid
      claimedVout photons takerAddress fee btcTxHeight = .ok r)
    (hraw : Lib.fromHex r.txHex = some raw)
    (ht : Transaction.fromHex raw = some t) :
    FinalizeReady btc minConf btcTxid offer claimedTxid takerAddress
      btcTxHeight := by
  obtain ⟨height, rawTx, stripped, headers, offset, params, merkle, pos, proof,
      hrun, hbuilt⟩ := finalize_ok h
  obtain ⟨hheaders, -, -, hpayment, hne, -⟩ := hrun.payment
  have hwhole : WholeTxid claimedTxid := by
    obtain ⟨s, b, hsrc, hsb, hcb, -⟩ := hacc.spends
    obtain ⟨c, hc, hlen⟩ :=
      fromHex_txids ht j (by rw [hacc.inputs]; exact List.mem_singleton_self j)
    rw [hsrc, Option.some.injEq] at hc
    rw [hc, fromHex_hex, Option.some.injEq] at hsb
    exact ⟨b, hcb, by rw [← hsb, hlen]⟩
  obtain ⟨b, hb, hlen⟩ := hwhole
  obtain ⟨redeem', spk, script', raw', -, hspk, -, hscript, -, hraw', hparse⟩ :=
    buildFinalizeTx_written hbuilt hb hlen
  rw [hraw', Option.some.injEq] at hraw
  rw [← hraw, hparse, Option.some.injEq] at ht
  subst ht
  -- both readings of the script have four items behind the headers
  have hj := List.singleton_injective hacc.inputs
  have hunlock := hacc.unlocks
  rw [← hj, Option.some.injEq] at hunlock
  have hstack := finalizeScriptSig_stack hscript
  rw [show script' = script from hunlock, hacc.stack,
    Option.some.injEq] at hstack
  have hlengths := congrArg List.length hstack
  simp only [List.length_append, List.length_map, List.length_cons,
    List.length_nil] at hlengths
  have htail :=
    (List.append_inj hstack (by rw [List.length_map, List.length_map]; omega)).2
  simp only [List.cons.injEq, true_and] at htail
  rw [hpayment, pushChunk_of_ne hne] at htail
  have htx : paymentTx = stripped := Chunk.data.inj htail.2.1
  refine ⟨⟨height, headers, hrun.ofHeight, hrun.ofHeaders, ?_⟩,
    ⟨rawTx, stripped, hrun.ofRaw, hrun.strips, ?_⟩,
    ?_, ⟨b, hb, hlen⟩⟩
  · rw [← hheaders, ← hacc.slots]
    omega
  · obtain ⟨v, k, o', rest', hpay⟩ := hacc.payment
    have hv : v.stripped = stripped := by rw [← hpay.isTx, htx]
    have hfinds := hrun.finds
    rw [← hv] at hfinds ⊢
    obtain ⟨k', hfound'⟩ := findOutputZeroOffset_ok hfinds
    have hk : k' = k :=
      List.singleton_injective (hfound'.input.symm.trans hpay.input)
    rw [programPushed_iff hfound', hk]
    exact hpay.script
  · obtain ⟨o', rest', value, hout, hlock, -⟩ := hacc.taker
    rw [hspk, ← hlock]
    have hfirst := (List.cons.inj (show plainOutput (photons - fee,
      spk) :: [] = o' :: rest' from hout)).1
    rw [← hfirst]
    rfl

end Accepted

/-- **What `finalize` broadcasts is accepted exactly when** the source has given
twelve headers, the payment's scriptSig is empty or a program, the address is
the taker's and the claimed txid is whole. -/
theorem finalize_accepted_iff (btc : BtcSource) (minConf : Int)
    (btcTxid : String) (offer : GravityOffer) (claimedTxid : String)
    (claimedVout photons : Int) (takerAddress : String) (fee : Int)
    (btcTxHeight : Option Int) (r : SpendResult)
    (h : finalize btc minConf btcTxid offer claimedTxid claimedVout photons
      takerAddress fee btcTxHeight = .ok r) : (∃ raw t i script headers branch
      paymentTx redeem, Lib.fromHex r.txHex = some raw ∧
      Transaction.fromHex raw = some t ∧
      FinalizeAccepted offer claimedTxid claimedVout t i script headers branch
        paymentTx redeem) ↔
      FinalizeReady btc minConf btcTxid offer claimedTxid takerAddress
        btcTxHeight := by
  obtain ⟨height, rawTx, stripped, headers, offset, params, merkle, pos, proof,
      hrun, hbuilt⟩ := finalize_ok h
  obtain ⟨hheaders, hchain, hmod, hpayment, hne, w, i, o, rest, hfound, hcanon,
      hw, houts, hcount, hmin, hdata⟩ :=
    hrun.payment
  constructor
  -- the stack that was accepted holds what the covenant asks for
  · rintro ⟨raw, t, j, script, hs, branch, paymentTx, redeem, hraw, ht, hacc⟩
    exact hacc.ready h hraw ht
  -- the pieces are pushed in the order the covenant takes them
  · intro hready
    obtain ⟨b, hb, hlen⟩ := hready.whole
    obtain ⟨redeem, spk, script, raw, hredeem, hspk, hdepth, hscript, hfloor,
        hraw, hparse⟩ :=
      buildFinalizeTx_written hbuilt hb hlen
    obtain ⟨height', headers', hheight', hheaders', hslots⟩ := hready.slots
    obtain ⟨rawTx', stripped', hraw', hstrip', hpushed⟩ := hready.pushed
    have hheight : height' = height :=
      Except.ok.inj (hheight'.symm.trans hrun.ofHeight)
    rw [hheight] at hheaders'
    have hsame : headers' = headers :=
      Except.ok.inj (hheaders'.symm.trans hrun.ofHeaders)
    have hrawSame : rawTx' = rawTx :=
      Except.ok.inj (hraw'.symm.trans hrun.ofRaw)
    rw [hrawSame] at hstrip'
    have hstripSame : stripped' = stripped :=
      Except.ok.inj (hstrip'.symm.trans hrun.strips)
    rw [hstripSame, hw] at hpushed
    have hstack := finalizeScriptSig_stack hscript
    have hbranch : (proof.branch ++
        (List.replicate ((20 : Int) - (proof.branch.length / 33 : Nat)).toNat
        sentinelPad).flatten).length = branchBytes := by
      rw [List.length_append, List.length_flatten, List.map_replicate,
        List.sum_replicate_nat]
      show _ + _ * 33 = 660
      omega
    have hbranchNe : proof.branch ++
        (List.replicate ((20 : Int) - (proof.branch.length / 33 : Nat)).toNat
        sentinelPad).flatten ≠ [] := by
      intro hnil
      rw [hnil] at hbranch
      cases hbranch
    have hdatas : headers.map pushChunk = headers.map .data := by
      apply List.map_congr_left
      intro x hx
      apply pushChunk_of_ne
      intro hnil
      have := (hchain.work x hx).length
      rw [hnil] at this
      cases this
    rw [hheaders, hdatas, pushChunk_of_ne hbranchNe, hpayment,
      pushChunk_of_ne hne] at hstack
    have htaker := hready.taker
    rw [hspk, Except.ok.injEq] at htaker
    let input : TransactionInput :=
      ⟨some (hex b), claimedVout, some script, 0xFFFFFFFF, none, none,
        sighashAllForkid⟩
    refine ⟨raw, _, input, script, headers, proof.branch ++ (List.replicate
      ((20 : Int) - (proof.branch.length / 33 : Nat)).toNat
        sentinelPad).flatten, stripped, redeem, hraw, hparse, ?_⟩
    exact {
      inputs := rfl
      spends := ⟨hex b, b, rfl, fromHex_hex b, hb, rfl⟩
      unlocks := rfl
      stack := hstack
      redeem := hredeem
      slots := by rw [← hsame, hslots]
      chain := hchain
      levels := hbranch
      payment := ⟨w, i, o, rest, hcanon, hw, hfound.input,
        (programPushed_iff hfound).mp hpushed, houts, hcount, hmin, hdata⟩
      taker := ⟨_, [], photons - fee, rfl, htaker, rfl, hfloor⟩ }

/-! ## Runs -/

section Runs

theorem pushData_returns {d : Bytes} (h : d.length ≤ 65535) : ∃ b, pushData d = .ok b ∧ b.length ≤ 65538 := by
  unfold pushData
  dsimp only
  by_cases h0 : d.length = 0
  · exact ⟨_, if_pos h0, by decide⟩
  · rw [if_neg h0]
    by_cases h75 : d.length ≤ 75
    · exact ⟨_, if_pos h75, by rw [List.length_cons]; omega⟩
    · rw [if_neg h75]
      by_cases h255 : d.length ≤ 255
      · exact ⟨_, if_pos h255, by rw [List.length_cons, List.length_cons]; omega⟩
      · rw [if_neg h255]
        refine ⟨_, if_pos h, ?_⟩
        rw [List.length_append, List.length_cons, length_leBytes]
        omega

theorem pushAll_returns {ds : List Bytes} (h : ∀ d ∈ ds, d.length ≤ 65535) :
    ∃ bs, ds.mapM pushData = .ok bs ∧
      bs.flatten.length ≤ 65538 * ds.length := by
  induction ds with
  | nil => exact ⟨[], rfl, Nat.zero_le _⟩
  | cons d ds ih =>
    obtain ⟨b, hb, hlen⟩ := pushData_returns (h d List.mem_cons_self)
    obtain ⟨bs, hbs, hall⟩ := ih fun x hx => h x (List.mem_cons_of_mem _ hx)
    refine ⟨b :: bs, by rw [List.mapM_cons, hb, ok_bind, hbs]; rfl, ?_⟩
    rw [List.flatten_cons, List.length_append, List.length_cons]
    omega

/-- So the unlocking script is built. -/
theorem finalizeScriptSig_returns {headers : List Bytes}
    {branch paymentTx redeem : Bytes}
    (hheaders : ∀ d ∈ headers, d.length ≤ 65535)
    (hbranch : branch.length ≤ 65535)
    (htx : paymentTx.length ≤ 65535) (hredeem : redeem.length ≤ 65535) :
    ∃ script, finalizeScriptSig headers branch paymentTx redeem = .ok script ∧
      script.length ≤ 65538 * (headers.length + 3) + 1 := by
  obtain ⟨pushes, hp, hplen⟩ := pushAll_returns hheaders
  obtain ⟨b1, h1, hlen1⟩ := pushData_returns hbranch
  obtain ⟨b2, h2, hlen2⟩ := pushData_returns htx
  obtain ⟨b3, h3, hlen3⟩ := pushData_returns hredeem
  refine ⟨pushes.flatten ++ b1 ++ b2 ++ [0x00] ++ b3, ?_, ?_⟩
  · rw [finalizeScriptSig, hp, ok_bind, h1, ok_bind, h2, ok_bind, h3]
    rfl
  · simp only [List.length_append, List.length_cons, List.length_nil]
    omega

end Runs

/-! ## Two trades -/

section Sample

def sampleTakerPkh : Bytes :=
  [0x77, 0xBF, 0xF2, 0x0C, 0x60, 0xE5, 0x22, 0xDF, 0xAA, 0x33, 0x50, 0xC3, 0x9B,
    0x03, 0x0A, 0x5D,
   0x00, 0x4E, 0x83, 0x9A]

def sampleClaimedTxid : String := hex (List.replicate 32 0xAB)

/-- The sample address pays its hash. -/
theorem sampleAddress_script :
    radiantAddressToP2pkhScript sampleAddress = .ok
      ([0x76, 0xA9, 0x14] ++ sampleTakerPkh ++ [0x88, 0xAC]) := by
  decide +kernel

/-- A short unlocking script goes into a transaction. -/
theorem rawTx_returns {scriptSig output : Bytes}
    (h : scriptSig.length < 2 ^ 32) :
    ∃ raw, rawTx sampleClaimedTxid 0 scriptSig 0xFFFFFFFF
      [output] 0 = .ok raw := by
  obtain ⟨script, hscript⟩ := Btc.sized_of_short h
  obtain ⟨outpoint, hout⟩ :
      ∃ o, fundingOutpoint sampleClaimedTxid 0 = .ok o := by
    rw [fundingOutpoint, sampleClaimedTxid, unhex_hex]
    exact ⟨_, rfl⟩
  rw [rawTx, hout, hscript]
  exact ⟨_, rfl⟩

/-- Only the size of a push could stop `build_finalize_tx` on the samples. -/
theorem buildFinalizeTx_returns {proof : SpvProof} {redeem : Bytes}
    (hheaders : ∀ d ∈ proof.headers, d.length ≤ 65535)
    (hcount : proof.headers.length ≤ 12)
    (hbranch : proof.branch.length ≤ 660) (htx : proof.rawTx.length ≤ 65535)
    (hredeem : redeem.length ≤ 65535) :
    ∃ r, buildFinalizeTx proof (hex redeem) sampleClaimedTxid 0 100000
      sampleAddress 1000 50000 none none =
      .ok r := by
  have hpadded : (proof.branch ++
      (List.replicate ((20 : Int) - (proof.branch.length / 33 : Nat)).toNat
      sentinelPad).flatten).length ≤ 65535 := by
    rw [List.length_append, List.length_flatten, List.map_replicate,
      List.sum_replicate_nat]
    show _ + _ * 33 ≤ _
    omega
  obtain ⟨script, hscript, hlen⟩ :=
    finalizeScriptSig_returns hheaders hpadded htx hredeem
  obtain ⟨output, houtput⟩ :
      ∃ o, outputBytes 99000 ([0x76, 0xA9, 0x14] ++ sampleTakerPkh ++
        [0x88, 0xAC]) = .ok o := ⟨_, rfl⟩
  obtain ⟨raw, hraw⟩ := @rawTx_returns script output (by omega)
  have htxid : validateTxid sampleClaimedTxid = .ok () := by
    rw [validateTxid, refuseIf_bind_ok, sampleClaimedTxid, fromHex_hex]
    decide
  refine ⟨spendResult raw 1000 99000, ?_⟩
  unfold buildFinalizeTx
  refine bind_ok.mpr ⟨(), htxid,
    bind_ok.mpr ⟨(), rfl, bind_ok.mpr ⟨redeem, unhex_hex redeem, ?_⟩⟩⟩
  refine refuseIf_bind_ok.mpr
    ⟨by decide, refuseIf_bind_ok.mpr ⟨by decide, refuseIf_bind_ok.mpr ⟨by omega, ?_⟩⟩⟩
  refine bind_ok.mpr ⟨_, sampleAddress_script,
    refuseIf_bind_ok.mpr ⟨fun hne => hne rfl, ?_⟩⟩
  refine refuseIf_bind_ok.mpr ⟨by rw [Option.getD_none]; omega, ?_⟩
  exact bind_ok.mpr ⟨script, hscript,
    bind_ok.mpr ⟨output, houtput, bind_ok.mpr ⟨raw, hraw, rfl⟩⟩⟩

/-- The Merkle root over the sample payment and a neighbour. -/
def sampleRoot : Bytes :=
  [0xD7, 0x04, 0x69, 0xCB, 0x3C, 0xAF, 0xFD, 0x1A, 0x37, 0x88, 0xE4, 0x1F, 0x20,
    0xB4, 0xC7, 0x93,
   0x20, 0xB3, 0x9F, 0x3F, 0xF0, 0xD3, 0x23, 0x56, 0x56, 0x7D, 0x8B, 0xB6, 0x4F,
     0x3B, 0x86, 0xF3]

/-- A header 128 times easier than difficulty one. -/
def minedHeader (previous root nonce : Bytes) : Bytes :=
  [0x01, 0x00, 0x00, 0x00] ++ previous ++ root ++ [0x00, 0x00, 0x00, 0x00, 0xFF,
    0xFF, 0x7F, 0x1D] ++ nonce

/-- The headers of a chain of blocks, given by their roots and nonces. -/
def minedChain : Bytes → List (Bytes × Bytes) → List Bytes
  | _, [] => []
  | previous, (root, nonce) :: blocks =>
    minedHeader previous root nonce ::
      minedChain (hash256 (minedHeader previous root nonce)) blocks

/-- Twelve blocks, the payment in the last. -/
def twelveBlocks : List (Bytes × Bytes) :=
  [(List.replicate 32 0x01, [0x9F, 0x66, 0x27, 0x03]),
   (List.replicate 32 0x02, [0x77, 0x97, 0x08, 0x00]),
   (List.replicate 32 0x03, [0x0E, 0x88, 0xAD, 0x01]),
   (List.replicate 32 0x04, [0x97, 0x1C, 0xC2, 0x02]),
   (List.replicate 32 0x05, [0x5F, 0x91, 0x7C, 0x05]),
   (List.replicate 32 0x06, [0xF9, 0xC1, 0x01, 0x06]),
   (List.replicate 32 0x07, [0x80, 0x72, 0xBC, 0x00]),
   (List.replicate 32 0x08, [0x09, 0xEF, 0x40, 0x00]),
   (List.replicate 32 0x09, [0xEC, 0xCD, 0x38, 0x00]),
   (List.replicate 32 0x0A, [0x1A, 0x11, 0x3F, 0x01]),
   (List.replicate 32 0x0B, [0x52, 0x15, 0x60, 0x06]),
   (sampleRoot, [0x59, 0x29, 0xEA, 0x02])]

/-- The hash of the eleventh. -/
def samplePrevious : Bytes :=
  [0x03, 0x84, 0x6C, 0x9C, 0xFB, 0x44, 0xB3, 0xEF, 0xDF, 0x86, 0x41, 0xA2, 0x92,
    0x65, 0xF6, 0x7A,
   0xFC, 0x72, 0x57, 0xFF, 0x0D, 0x52, 0x9E, 0xC9, 0x67, 0x00, 0xED, 0x16, 0x57,
     0x00, 0x00, 0x00]

/-- An offer for the sample payment. -/
def sampleArgs (anchor : Bytes) (anchorHeight : Int) : OfferArgs where
  makerPkh := List.replicate 20 0x55
  makerPk := 0x02 :: List.replicate 32 0x66
  takerPk := 0x03 :: List.replicate 32 0x77
  takerRadiantPkh := sampleTakerPkh
  btcReceiveHash := sampleHash
  btcReceiveType := .p2wpkh
  btcSatoshis := 5000
  btcChainAnchor := anchor
  expectedNbits := [0xFF, 0xFF, 0x7F, 0x1D]
  anchorHeight := anchorHeight
  merkleDepth := 1
  claimDeadline := 1900000000
  photonsOffered := 50000
  rejectLowDifficulty := false

/-- A source that knows the payment, in block 800012, and gives these
headers. -/
def sampleSource (headers : List Bytes) : BtcSource where
  getTxBlockHeight _ := .ok 800012
  getRawTx _ _ := .ok sampleRawTx
  getMerkleProof _ _ := .ok ([hex (List.replicate 32 0x33)], 1)
  getHeaderChain _ _ := .ok headers

def sampleBtcTxid : String := hex (hash256 sampleRawTx).reverse

/-- What the covenant of the sample offer commits to. -/
def sampleTradeFields (anchor : Bytes) (anchorHeight : Int) :
    CovenantFields where
  btcReceiveHash := sampleHash
  btcReceiveType := .p2wpkh
  btcSatoshis := 5000
  chainAnchor := anchor
  anchorHeight := anchorHeight
  merkleDepth := 1
  expectedNbits := some [0xFF, 0xFF, 0x7F, 0x1D]
  expectedNbitsNext := some [0xFF, 0xFF, 0x7F, 0x1D]

/-- The two artifacts, when these are the scripts they compile to. -/
def sampleArtifacts (claimed offered : Bytes) : Artifacts :=
  ⟨fun _ => .ok claimed, fun _ => .ok offered⟩

variable {anchor claimed offered : Bytes} {anchorHeight : Int}
  {headers : List Bytes}

/-- The offer is made, whatever its two scripts are. -/
theorem sampleOffer_built
    (hcheck : (sampleArgs anchor anchorHeight).check 1800000000 = .ok ())
    (hvalid : ∀ o c e,
      ((sampleArgs anchor anchorHeight).fields o c e).postInit = .ok ())
    (hne : claimed ≠ []) :
    ∃ offer e, buildGravityOffer cancelCurve
      (sampleArtifacts claimed offered) 1800000000
        (sampleArgs anchor anchorHeight) = .ok offer ∧
      offer.toOfferFields =
        (sampleArgs anchor anchorHeight).fields offered claimed e := by
  have hhash : computeP2shCodeHash cancelCurve claimed =
      .ok (hash256 (computeP2shScriptPubkey cancelCurve claimed)) :=
    refuseIf_bind_ok.mpr ⟨hne, rfl⟩
  refine ⟨⟨_, hvalid offered claimed
    (hash256 (computeP2shScriptPubkey cancelCurve claimed))⟩, _, ?_, rfl⟩
  unfold buildGravityOffer
  refine bind_ok.mpr ⟨(), hcheck,
    bind_ok.mpr ⟨claimed, rfl, bind_ok.mpr ⟨_, hhash, ?_⟩⟩⟩
  refine bind_ok.mpr ⟨offered, rfl, ?_⟩
  rw [postInitOk_of (hvalid _ _ _)]
  rfl

/-- The trade runs through to its transaction once the proof of the payment is
built. -/
theorem sampleFinalize_returns {offer : GravityOffer} {e : Bytes}
    (hclaimed : claimed.length ≤ 65535)
    (hoffer : offer.toOfferFields =
      (sampleArgs anchor anchorHeight).fields offered claimed e)
    (hheight : 800012 - anchorHeight = headers.length)
    (hcount : 1 ≤ headers.length ∧ headers.length ≤ 12)
    (hlen : ∀ d ∈ headers, d.length ≤ 65535)
    (hvalid : (sampleTradeFields anchor anchorHeight).postInit = .ok ())
    (hbuild : (build ⟨sampleTradeFields anchor anchorHeight,
      hvalid⟩ sampleBtcTxid (hex sampleRawTx)
      (headers.map hex) [hex (List.replicate 32 0x33)] 1 47
        (some 800012)).toOption.map
        (fun p => (p.rawTx, p.branch.length)) = some (sampleRawTx, 33)) :
    ∃ r, finalize (sampleSource headers) 6 sampleBtcTxid offer sampleClaimedTxid
    0 100000 sampleAddress 1000 none = .ok r := by
  obtain ⟨fields, hfields⟩ := offer
  dsimp only at hoffer
  subst hoffer
  cases hproof : build ⟨sampleTradeFields anchor anchorHeight,
      hvalid⟩ sampleBtcTxid (hex sampleRawTx)
      (headers.map hex) [hex (List.replicate 32 0x33)] 1 47 (some 800012) with
  | error err =>
    rw [hproof] at hbuild
    cases hbuild
  | ok proof =>
    rw [hproof] at hbuild
    have hpair := Prod.mk.inj (Option.some.inj hbuild)
    have hheaders := build_headers hproof
    obtain ⟨r, hr⟩ :=
      @buildFinalizeTx_returns proof claimed (by rw [hheaders]; exact hlen)
      (by rw [hheaders]; exact hcount.2) (by omega)
        (by rw [hpair.1]; decide) hclaimed
    refine ⟨r, ?_⟩
    have hparams : covenantParams
        ⟨(sampleArgs anchor anchorHeight).fields offered claimed e, hfields⟩ =
        .ok ⟨sampleTradeFields anchor anchorHeight, hvalid⟩ := by
      unfold covenantParams
      exact bind_ok.mpr ⟨⟨hvalid⟩, postInitOk_of hvalid, rfl⟩
    have hstart : blockHeight (anchorHeight + 1) = .ok (anchorHeight + 1) :=
      refuseIf_bind_ok.mpr ⟨by omega, refuseIf_bind_ok.mpr ⟨by omega, rfl⟩⟩
    have hne : headers ≠ [] := by
      intro hnil
      rw [hnil] at hcount
      exact absurd hcount.1 (by decide)
    have htxid : ¬ isTxid sampleBtcTxid = false := by decide +kernel
    unfold finalize
    refine refuseIf_bind_ok.mpr ⟨htxid,
      bind_ok.mpr ⟨800012, rfl, bind_ok.mpr ⟨sampleRawTx, rfl, ?_⟩⟩⟩
    refine bind_ok.mpr ⟨([hex (List.replicate 32 0x33)], 1), rfl,
      bind_ok.mpr ⟨_, hstart, ?_⟩⟩
    refine refuseIf_bind_ok.mpr ⟨?_,
      refuseIf_bind_ok.mpr ⟨?_, bind_ok.mpr ⟨headers, rfl, ?_⟩⟩⟩
    · show ¬ 800012 - anchorHeight < 1
      omega
    · show ¬ 800012 - anchorHeight > ((1 : Nat) : Int) + 100
      omega
    · rw [if_neg hne]
      refine bind_ok.mpr
        ⟨sampleRawTx, by decide, bind_ok.mpr ⟨47, by decide, ?_⟩⟩
      exact refuseIf_bind_ok.mpr ⟨nofun,
        bind_ok.mpr ⟨_, hparams, bind_ok.mpr ⟨proof, hproof, hr⟩⟩⟩

/-- The sample headers are short. -/
theorem twelve_short :
    ((minedChain (List.replicate 32 0x0A) twelveBlocks).all fun d =>
      decide (d.length ≤ 65535)) = true := by
  decide

/-- With all twelve blocks behind the anchor, the branch takes what is
broadcast. -/
theorem finalize_accepted_twelve : ∃ offer r,
    buildGravityOffer cancelCurve (sampleArtifacts [0x51] [0x51]) 1800000000
      (sampleArgs (List.replicate 32 0x0A) 800000) = .ok offer ∧
    finalize (sampleSource (minedChain (List.replicate 32 0x0A) twelveBlocks))
      6 sampleBtcTxid offer sampleClaimedTxid 0 100000 sampleAddress 1000 none =
      .ok r ∧
    ∃ raw t i script headers branch paymentTx redeem,
      Lib.fromHex r.txHex = some raw ∧
      Transaction.fromHex raw = some t ∧
      FinalizeAccepted offer sampleClaimedTxid 0 t i script headers branch
        paymentTx redeem := by
  obtain ⟨offer, e, hbuilt, hoffer⟩ :=
    @sampleOffer_built (List.replicate 32 0x0A) [0x51] [0x51] 800000
    (by decide) (fun _ _ _ => rfl) (by decide)
  obtain ⟨r, hr⟩ :=
      @sampleFinalize_returns (List.replicate 32 0x0A) [0x51] [0x51] 800000
    (minedChain (List.replicate 32 0x0A) twelveBlocks) offer e
      (by decide) hoffer rfl (by decide)
    (fun d hd => of_decide_eq_true (List.all_eq_true.mp twelve_short d hd)) rfl
      (by
      rw [build, unhex_hex, ok_bind, unhex_all]
      decide +kernel)
  refine ⟨offer, r, hbuilt, hr,
    (finalize_accepted_iff _ _ _ _ _ _ _ _ _ _ _ hr).mpr ?_⟩
  refine ⟨⟨800012, _, rfl, rfl, by decide⟩,
    ⟨sampleRawTx, sampleRawTx, rfl, by decide, by decide⟩, ?_,
    ⟨_, fromHex_hex _, rfl⟩⟩
  rw [sampleAddress_script, hoffer]
  rfl

/-- **The block behind the anchor may hold the payment**: whatever the artifacts
compile to, the offer is made and finalized with its one header, and the branch
takes nothing of it. -/
theorem finalize_refused_one :
    (minedChain samplePrevious (twelveBlocks.drop 11)).length = 1 ∧
    ∀ claimed offered : Bytes, claimed ≠ [] →
    claimed.length ≤ 65535 → ∃ offer r,
      buildGravityOffer cancelCurve (sampleArtifacts claimed offered) 1800000000
        (sampleArgs samplePrevious 800011) = .ok offer ∧
      finalize (sampleSource (minedChain samplePrevious (twelveBlocks.drop 11)))
        6 sampleBtcTxid offer sampleClaimedTxid 0 100000 sampleAddress 1000
        none = .ok r ∧
      ¬ ∃ raw t i script headers branch paymentTx redeem,
        Lib.fromHex r.txHex = some raw ∧
        Transaction.fromHex raw = some t ∧
        FinalizeAccepted offer sampleClaimedTxid 0 t i script headers branch
          paymentTx redeem := by
  refine ⟨rfl, ?_⟩
  intro claimed offered hne hlen
  obtain ⟨offer, e, hbuilt, hoffer⟩ :=
    @sampleOffer_built samplePrevious claimed offered 800011
    (by decide) (fun _ _ _ => rfl) hne
  obtain ⟨r, hr⟩ :=
      @sampleFinalize_returns samplePrevious claimed offered 800011
    (minedChain samplePrevious (twelveBlocks.drop 11)) offer e hlen hoffer rfl
      (by decide) (List.forall_mem_singleton.mpr (by decide)) rfl (by
      rw [build, unhex_hex, ok_bind, unhex_all]
      decide +kernel)
  refine ⟨offer, r, hbuilt, hr, ?_⟩
  rintro ⟨raw, t, i, script, headers, branch, paymentTx, redeem, hraw, ht, hacc⟩
  obtain ⟨height, fetched, -, hfetched, hslots⟩ := (hacc.ready hr hraw ht).slots
  cases hfetched
  exact absurd hslots (by decide)

end Sample

end Pyrxd.Gravity
