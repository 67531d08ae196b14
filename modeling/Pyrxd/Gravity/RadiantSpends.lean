import Pyrxd.Gravity.RadiantLegSafety
import Pyrxd.Tx.PreimageSpec

/-!
# Which output the leg spends

The leg does not read the outpoint its record keeps: it asks the client for the
outputs of the covenant script and takes the one of the negotiated value,
refusing when there are several. So outputs of any other value are passed over,
and a second one of just that value stops the claim and the refund alike.
-/

namespace Pyrxd.Gravity

open Pyrxd.Lib Pyrxd.Tx Pyrxd.Swap Pyrxd.Glyph Htlc

/-! ## Outpoints -/

/-- An output as a chain has it. -/
structure UtxoRecord.OnChain (u : UtxoRecord) : Prop where
  txHash : ∃ b, u.txHash = hex b ∧ b.length = 32
  txPos : 0 ≤ u.txPos ∧ u.txPos < 256 ^ 4
  value : u.value < 2 ^ 63

theorem colon_notMem_hexChars (b : Bytes) : ':' ∉ hexChars b := by
  intro h
  have := List.all_eq_true.mp (all_hexChars b) ':' h
  exact absurd this (by decide)

section Outpoint

variable {u : UtxoRecord} {b : Bytes} {n : Nat}

/-- The text of an outpoint, taken apart. -/
theorem outpoint_toList (hb : u.txHash = hex b) (hn : u.txPos = n) :
    u.outpoint.toList = hexChars b ++ ':' :: Nat.toDigits 10 n := by
  have htext : u.outpoint = hex b ++ ":" ++ toString n := by
    rw [UtxoRecord.outpoint, hb, hn]
    rfl
  rw [htext, String.toList_append, String.toList_append,
    Nat.toString_eq_ofList_toDigits,
    hex, String.toList_ofList, String.toList_ofList, String.toList_ofList,
      List.append_assoc]
  rfl

/-- So an outpoint splits at its own colon. -/
theorem splitColon_outpoint (hb : u.txHash = hex b) (hn : u.txPos = n) :
    splitColon u.outpoint = (u.txHash, toString n) := by
  have hno : ∀ c ∈ hexChars b, decide (c ≠ ':') = true := by
    intro c hc
    rw [decide_eq_true_eq]
    rintro rfl
    exact colon_notMem_hexChars b hc
  unfold splitColon
  rw [outpoint_toList hb hn, List.takeWhile_append_of_pos hno,
    List.dropWhile_append_of_pos hno, List.takeWhile_cons_of_neg (by decide),
    List.dropWhile_cons_of_neg (by decide), List.append_nil, hb,
    Nat.toString_eq_ofList_toDigits]
  rfl

/-- An outpoint on chain passes the check. -/
theorem validateOutpoint_onChain (hu : u.OnChain) :
    validateOutpoint u.outpoint = .ok (u.txHash, u.txPos) := by
  obtain ⟨b, hb, hlen⟩ := hu.txHash
  obtain ⟨n, hn⟩ := Int.eq_ofNat_of_zero_le hu.txPos.1
  have hcount : u.outpoint.toList.count ':' = 1 := by
    have hdigits : ':' ∉ Nat.toDigits 10 n := fun h =>
      absurd (Nat.isDigit_of_mem_toDigits (by decide) (by decide) h) (by decide)
    rw [outpoint_toList hb hn, List.count_append, List.count_cons_self,
      List.count_eq_zero_of_not_mem (colon_notMem_hexChars b),
        List.count_eq_zero_of_not_mem hdigits]
  have hlen64 : u.txHash.length = 64 := by
    rw [hb, hex, String.length_ofList, length_hexChars, hlen]
  unfold validateOutpoint
  rw [splitColon_outpoint hb hn, refuseIf, if_neg (not_not.mpr hcount), ok_bind]
  dsimp only
  rw [refuseIf, if_neg (not_not.mpr hlen64), ok_bind, refuseIf, hb, fromHex_hex,
    if_neg (Option.some_ne_none b), ok_bind, PyVal.intOfStr_toString]
  dsimp only
  rw [refuseIf, if_neg (by omega), ok_bind, hn]
  rfl

end Outpoint

/-! ## The holder scripts -/

/-- `DUP HASH160 <pkh> EQUALVERIFY CHECKSIG`. -/
def p2pkhChunks (pkh : Bytes) : List Chunk :=
  [.op 0x76, .op 0xA9, .data pkh, .op 0x88, .op 0xAC]

/-- The holder script of a variant, in chunks. -/
def holderChunks (p : CovenantParams) (pkh ref : Bytes) : List Chunk :=
  match p.asset with
  | .rxd => p2pkhChunks pkh
  | .nft _ _ => [.ref 0xD8 ref, .op 0x75] ++ p2pkhChunks pkh
  | .ft _ _ =>
    p2pkhChunks pkh ++ [.op 0xBD, .ref 0xD0 ref] ++ ftEpilogue.map .op

section Holder

variable {p : CovenantParams} {pkh ref : Bytes}

/-- The holder script in chunks. -/
theorem assemble_holderChunks (hpkh : pkh.length = 20) :
    assembleCode (holderChunks p pkh ref) = p.holder pkh ref := by
  have hp2pkh : assembleCode (p2pkhChunks pkh) =
      [0x76, 0xA9, 0x14] ++ pkh ++ [0x88, 0xAC] := by
    show 0x76 :: 0xA9 :: (pushBytes pkh ++ [0x88, 0xAC]) = _
    rw [pushBytes, if_pos (by omega), hpkh]
    rfl
  unfold holderChunks CovenantParams.holder
  cases p.asset with
  | rxd => exact hp2pkh
  | nft txid vout =>
    dsimp only
    rw [assembleCode_append, hp2pkh]
    show 0xD8 :: (ref ++ [0x75]) ++ _ = _
    rw [nftHolderScript]
    simp only [List.cons_append, List.append_assoc, List.nil_append]
  | ft txid vout =>
    dsimp only
    have hops : assembleCode (ftEpilogue.map .op) = ftEpilogue := rfl
    rw [assembleCode_append, assembleCode_append, hp2pkh, hops]
    show _ ++ 0xBD :: 0xD0 :: (ref ++ []) ++ _ = _
    rw [ftHolderScript]
    simp only [List.cons_append, List.append_assoc, List.nil_append,
      List.append_nil]

theorem walked_holderChunks (hpkh : pkh.length = 20) (href : p.RefIs ref) :
    ∀ t ∈ holderChunks p pkh ref, Walked t := by
  have hop : ∀ code, fineOp code = true → Walked (.op code) :=
    fun code h => (fine_op h).walked
  have hbd : Walked (.op 0xBD) := ⟨by decide, fun code r h => by cases h⟩
  have hp2pkh : ∀ t ∈ p2pkhChunks pkh, Walked t := by
    simp only [p2pkhChunks, List.forall_mem_cons, List.not_mem_nil,
      IsEmpty.forall_iff, implies_true,
      and_true]
    exact ⟨hop _ rfl, hop _ rfl, (fine_data (by omega) (by omega)).walked,
      hop _ rfl, hop _ rfl⟩
  unfold holderChunks
  unfold CovenantParams.RefIs at href
  cases hasset : p.asset with
  | rxd => exact hp2pkh
  | nft txid vout =>
    rw [hasset] at href
    rw [List.forall_mem_append, List.forall_mem_cons, List.forall_mem_cons]
    exact ⟨⟨(fine_ref rfl href.2).walked, hop _ rfl, List.forall_mem_nil _⟩,
      hp2pkh⟩
  | ft txid vout =>
    rw [hasset] at href
    rw [List.forall_mem_append, List.forall_mem_append, List.forall_mem_cons,
      List.forall_mem_cons]
    refine ⟨⟨hp2pkh, hbd, (fine_ref rfl href.2).walked, List.forall_mem_nil _⟩,
      fun t ht => ?_⟩
    obtain ⟨code, hcode, rfl⟩ := List.mem_map.mp ht
    exact hop code (fineOp_ftEpilogue code hcode)

/-- The one output of a spend can be signed for. -/
theorem countable_holder (hpkh : pkh.length = 20)
    (href : p.RefIs ref) {value : Int}
    (hvalue : 0 ≤ value ∧ value < 2 ^ 63) :
    (⟨p.holder pkh ref, some value⟩ : TransactionOutput).Countable := by
  have hrefs := getPushRefs_assemble (walked_holderChunks hpkh href)
  rw [assemble_holderChunks hpkh] at hrefs
  have hlen : (p.holder pkh ref).length < 256 ^ 8 := by
    unfold CovenantParams.RefIs at href
    unfold CovenantParams.holder
    cases hasset : p.asset with
    | rxd =>
      simp only [rxdHolderScript, List.length_append, List.length_cons,
        List.length_nil, hpkh]
      omega
    | nft txid vout =>
      rw [hasset] at href
      simp only [nftHolderScript, List.length_append, List.length_cons,
        List.length_nil, hpkh, href.2]
      omega
    | ft txid vout =>
      rw [hasset] at href
      simp only [ftHolderScript, List.length_append, List.length_cons,
        List.length_nil, hpkh, href.2,
        ftEpilogue]
      omega
  have hcount : (sortRefs (pushedOf (refsOf (holderChunks p pkh ref)))).length <
      256 ^ 4 := by
    unfold holderChunks
    cases p.asset with
    | rxd => exact (by decide : 0 < 256 ^ 4)
    | nft txid vout => exact (by decide : 1 < 256 ^ 4)
    | ft txid vout => exact (by decide : 1 < 256 ^ 4)
  exact ⟨⟨⟨value, rfl, by omega, by omega⟩, hlen⟩, _, hrefs, hcount⟩

end Holder

/-! ## Signing -/

/-- What is documented of the curve library: how long a DER signature and a
serialised point get. -/
structure FeeSigner.Documented {Key Secret : Type}
    (signer : FeeSigner Key Secret) : Prop where
  signature : ∀ secret digest, (signer.curve.sign secret digest).length ≤ 72
  publicKey : ∀ key compressed, (signer.curve.format key compressed).length ≤ 65

theorem encodePushdata_returns {data : Bytes} (h : data.length ≤ 75) :
    ∃ b, encodePushdata data = .ok b ∧ b.length ≤ 76 := by
  match data, h with
  | [], _ => exact ⟨_, rfl, by decide⟩
  | [x], _ =>
    unfold encodePushdata
    dsimp only
    split
    · exact ⟨_, rfl, by show 1 ≤ 76; omega⟩
    · split
      · exact ⟨_, rfl, by show 1 ≤ 76; omega⟩
      · exact ⟨_, rfl, by show 2 ≤ 76; omega⟩
  | x :: y :: rest, h =>
    have hlen : (x :: y :: rest).length ≤ 0x4B := h
    refine ⟨UInt8.ofNat (x :: y :: rest).length :: x :: y :: rest, ?_, ?_⟩
    · rw [encodePushdata, getPushdataCode, if_pos hlen]
      · rfl
      · intro hc
        cases hc
      · intro b hc
        cases hc
    · rw [List.length_cons]
      omega

section Sign

variable {Key Secret : Type} {signer : FeeSigner Key Secret}
  {covIn feeIn : TransactionInput}
  {unlocking : Bytes} {out : TransactionOutput} {version : Int}

/-- The inputs of a spend before the fee input is signed. -/
structure ReadyToSign (covIn feeIn : TransactionInput)
    (unlocking : Bytes) : Prop where
  covenant : covIn.Fits
  unlocking : covIn.unlockingScript = some unlocking
  fee : feeIn.Signable
  blank : feeIn.unlockingScript = none
  sighash : feeIn.sighash = sighashAllForkid

/-- **A spend whose parts fit is signed**, and the transaction is theirs. -/
theorem signSpend_returns (hdoc : signer.Documented) (key : PrivateKey Secret)
    (h : ReadyToSign covIn feeIn unlocking) {holder : Bytes} {value : Int}
    (hout : (⟨holder, some value⟩ : TransactionOutput).Countable)
    (hversion : 0 ≤ version ∧ version < 256 ^ 4) :
    ∃ script, script.length < 256 ^ 8 ∧
    signSpend signer key covIn feeIn holder value version =
      .ok ⟨[covIn, { feeIn with unlockingScript := some script }],
        [⟨holder, some value⟩], version, 0⟩ := by
  obtain ⟨message, hmessage⟩ : ∃ p, txPreimage 1 [covIn,
      feeIn] [⟨holder, some value⟩] version 0 = .ok p := by
    have hinput : [covIn, feeIn][1]? = some feeIn := rfl
    refine txPreimage_returns hinput h.fee (by rw [h.sighash]; decide) ?_ ?_
      hversion (by decide)
    · rw [List.forall_mem_cons, List.forall_mem_singleton]
      exact ⟨h.covenant, h.fee.toFits⟩
    · rw [List.forall_mem_singleton]
      exact hout
  have hsig := hdoc.signature key.secret (hash256 message)
  have hflag : toBytesLe 1 sighashAllForkid = .ok (leBytes 1 0x41) := rfl
  obtain ⟨sigPush, hsigPush, hsigLen⟩ := encodePushdata_returns
    (show (signer.curve.sign key.secret (hash256 message) ++
      leBytes 1 0x41).length ≤ 75 by
      rw [List.length_append, length_leBytes]
      omega)
  obtain ⟨pubPush, hpubPush, hpubLen⟩ := encodePushdata_returns
    (Nat.le_trans (hdoc.publicKey (signer.curve.publicKey key.secret)
      key.compressed) (by omega))
  refine ⟨sigPush ++ pubPush, by rw [List.length_append]; omega, ?_⟩
  let draft : Draft Secret :=
    ⟨[⟨covIn, none⟩, ⟨feeIn, some key⟩], [⟨holder, some value⟩], version, 0⟩
  have hpre : draft.preimage 1 = .ok message := hmessage
  -- the first turn finds its script in place, the second signs
  have hfirst : signTurn signer.curve draft 0 ⟨covIn, none⟩ =
      .ok ⟨covIn, none⟩ := by
    rw [signTurn, h.unlocking]
  have hsecond : signTurn signer.curve draft 1 ⟨feeIn, some key⟩ =
      .ok ⟨{ feeIn with unlockingScript := some (sigPush ++ pubPush) },
        some key⟩ := by
    rw [signTurn, h.blank]
    dsimp only
    rw [p2pkhSign, hpre, ok_bind]
    dsimp only
    rw [h.sighash, hflag, ok_bind, hsigPush, ok_bind, hpubPush]
    rfl
  have hsigned : signFrom signer.curve draft [] draft.inputs =
      .ok [⟨covIn, none⟩, ⟨{ feeIn with unlockingScript := some (sigPush ++
        pubPush) }, some key⟩] := by
    show signFrom signer.curve draft [] [⟨covIn, none⟩, ⟨feeIn, some key⟩] = _
    rw [signFrom]
    show (signTurn signer.curve draft 0 ⟨covIn, none⟩ >>= _) = _
    rw [hfirst, ok_bind, signFrom]
    show (signTurn signer.curve draft 1 ⟨feeIn, some key⟩ >>= _) = _
    rw [hsecond]
    rfl
  show (sign signer.curve draft >>= fun d => Except.ok d.tx) = _
  rw [sign, if_neg (by simp [draft]), hsigned]
  rfl

end Sign

/-! ## The leg's spends -/

/-- A fee input as a chain has it. -/
structure FeeInput.OnChain (fee : FeeInput) : Prop where
  txid : ∃ b, fromHex fee.txid = some b ∧ b.length = 32
  vout : fee.vout < 256 ^ 4
  value : fee.value < 2 ^ 63
  scriptpubkey : fee.scriptpubkey.length < 256 ^ 8

/-- A fee input on chain can be signed. -/
theorem feeInput_signable {fee : FeeInput} (h : fee.OnChain) {sequence : Int}
    (hseq : 0 ≤ sequence ∧ sequence < 256 ^ 4) :
    (feeInput fee sequence).Signable := by
  obtain ⟨b, hb, hlen⟩ := h.txid
  have hpos := fee.ofValue
  have hvalue := h.value
  refine ⟨⟨⟨b.reverse, ?_, by rw [List.length_reverse, hlen]⟩,
    ⟨fee.ofVout, h.vout⟩, ?_, hseq⟩,
    ⟨fee.value, rfl, by omega, by omega⟩,
      ⟨fee.scriptpubkey, rfl, h.scriptpubkey⟩, ?_⟩
  · show txidBytes (some fee.txid) = _
    rw [txidBytes, hb]
  · show 0 < 256 ^ 8
    decide
  · show sighashAllForkid < 256 ^ 4
    decide

theorem covenantInput_fits {u : UtxoRecord} (h : u.OnChain) {cov : HtlcCovenant}
    {value sequence : Int}
    {unlocking : Bytes} (hlen : unlocking.length < 256 ^ 8)
    (hseq : 0 ≤ sequence ∧ sequence < 256 ^ 4) :
    (covenantInput cov u.txHash u.txPos value unlocking sequence).Fits := by
  obtain ⟨b, hb, hb32⟩ := h.txHash
  refine ⟨⟨b.reverse, ?_, by rw [List.length_reverse, hb32]⟩,
    h.txPos, hlen, hseq⟩
  show txidBytes (some u.txHash) = _
  rw [txidBytes, hb, fromHex_hex]

/-- A spend of the output, to one holder, that can be sent. -/
structure Spends (u : UtxoRecord) (holder : Bytes)
    (tx : Transaction) : Prop where
  input : ∃ covIn feeIn, tx.inputs = [covIn, feeIn] ∧
    covIn.sourceTxid = some u.txHash ∧
    covIn.sourceOutputIndex = u.txPos
  output : tx.outputs = [⟨holder, some u.value⟩]
  written : ∃ raw, tx.serialize = .ok raw

/-- The recorded outpoint is unspent, of the negotiated value and deep
enough. -/
structure Recorded (leg : RadiantCovenantLeg) (client : RadiantClient)
    (record : SwapRecord)
    (cov : HtlcCovenant) (utxos : List UtxoRecord) (u : UtxoRecord) : Prop where
  covenant : leg.buildCovenant record.terms = .ok cov
  outpoint : record.radiantCovenantOutpoint = some u.outpoint
  listed : client.getUtxos (sha256 cov.fundedSpk).reverse = .ok utxos
  unspent : u ∈ utxos
  onChain : u.OnChain
  value : u.value = record.terms.radiantAmount
  deep : ∃ n, client.confirmations u.txHash = .ok n ∧ leg.minConfirmations ≤ n

/-- The fee source has an output of its own to pay with. -/
structure FeeReady {Key Secret : Type} (signer : FeeSigner Key Secret)
    (client : RadiantClient) : Prop where
  documented : signer.Documented
  fee : ∃ fee key, client.nextFeeInput = .ok fee ∧ fee.OnChain ∧
    546 ≤ fee.value ∧
    signer.fromWif fee.wif = .ok key

section Main

variable {Key Secret : Type} {signer : FeeSigner Key Secret}
  {leg : RadiantCovenantLeg}
  {client : RadiantClient} {record : SwapRecord} {cov : HtlcCovenant}
  {utxos : List UtxoRecord}
  {u : UtxoRecord}

/-- The outputs of the value the leg looks for. -/
def carriers (record : SwapRecord) (utxos : List UtxoRecord) :
    List UtxoRecord :=
  utxos.filter (·.value = record.terms.radiantAmount)

/-- The recorded UTXO is among those that carry the covenant. -/
theorem Recorded.mem_carriers (h : Recorded leg client record cov utxos u) :
    u ∈ carriers record utxos :=
  List.mem_filter.mpr ⟨h.unspent, decide_eq_true h.value⟩

theorem Recorded.resolves (h : Recorded leg client record cov utxos u)
    (hone : (carriers record utxos).length = 1) :
    leg.resolveCovenant client record = .ok (cov, u.outpoint, u.value) := by
  obtain ⟨v, hv⟩ := List.length_eq_one_iff.mp hone
  have hmem := h.mem_carriers
  rw [hv, List.mem_singleton] at hmem
  subst hmem
  have hne : utxos ≠ [] := List.ne_nil_of_mem h.unspent
  obtain ⟨n, hconf, hdeep⟩ := h.deep
  have hfind : client.findCovenantUtxo cov.fundedSpk
      record.terms.radiantAmount =
      .ok (u.outpoint, u.value, u.height) := by
    rw [carriers] at hv
    rw [RadiantClient.findCovenantUtxo, h.listed, ok_bind, if_neg hne, hv]
  obtain ⟨b, hb, -⟩ := h.onChain.txHash
  obtain ⟨k, hk⟩ := Int.eq_ofNat_of_zero_le h.onChain.txPos.1
  have hpos := record.terms.sound.radiantAmount
  rw [RadiantCovenantLeg.resolveCovenant, h.covenant, ok_bind, hfind, ok_bind]
  dsimp only
  rw [splitColon_outpoint hb hk, hconf, ok_bind, if_neg (by omega),
    if_neg (by rw [h.value]; omega)]
  rfl

theorem Recorded.ambiguous (h : Recorded leg client record cov utxos u)
    (hmore : (carriers record utxos).length ≠ 1) :
    leg.resolveCovenant client record = .error
      (.other ("ambiguous covenant UTXO set (" ++
      toString (carriers record utxos).length ++
        " candidates); fail-closed")) := by
  have hne : utxos ≠ [] := List.ne_nil_of_mem h.unspent
  rw [RadiantCovenantLeg.resolveCovenant, h.covenant, ok_bind,
    RadiantClient.findCovenantUtxo, h.listed,
    ok_bind, if_neg hne, ← carriers]
  have hmem := h.mem_carriers
  cases hc : carriers record utxos with
  | nil =>
    rw [hc] at hmem
    cases hmem
  | cons v vs =>
    cases vs with
    | nil =>
      rw [hc] at hmore
      exact absurd rfl hmore
    | cons w ws => rfl

/-- What the covenant of a leg pays to can be signed for, and its lock is a
sequence number. -/
theorem buildCovenant_payable {terms : NegotiatedTerms}
    (h : leg.buildCovenant terms = .ok cov)
    {value : Int} (hvalue : 0 ≤ value ∧ value < 2 ^ 63) :
    (⟨cov.takerHolderScript, some value⟩ : TransactionOutput).Countable ∧
      (⟨cov.makerHolderScript, some value⟩ : TransactionOutput).Countable ∧
      1 ≤ cov.refundCsv ∧ cov.refundCsv ≤ 0xFFFF := by
  obtain ⟨asset, hbuild, -⟩ := buildCovenant_ok h
  obtain ⟨ref, href, hok, rfl⟩ := build_ok hbuild
  exact ⟨countable_holder leg.ofTakerPkh href hvalue,
    countable_holder leg.ofMakerPkh href hvalue,
    hok.refundCsv⟩

/-- The signed spend of an output. -/
theorem signSpend_spends (hdoc : signer.Documented) (key : PrivateKey Secret)
    {fee : FeeInput}
    (hfee : fee.OnChain) (hu : u.OnChain) (cov : HtlcCovenant)
    (unlocking : Bytes)
    (sequence feeSequence version : Int) {holder : Bytes}
    (hout : (⟨holder, some u.value⟩ : TransactionOutput).Countable)
    (hunlocking : unlocking.length < 256 ^ 8)
    (hseq : 0 ≤ sequence ∧ sequence < 256 ^ 4)
    (hfeeSeq : 0 ≤ feeSequence ∧ feeSequence < 256 ^ 4)
    (hversion : 0 ≤ version ∧ version < 256 ^ 4) :
    ∃ tx, signSpend signer key
      (covenantInput cov u.txHash u.txPos u.value unlocking sequence)
      (feeInput fee feeSequence) holder u.value version = .ok tx ∧
        Spends u holder tx := by
  have hcov :
      (covenantInput cov u.txHash u.txPos u.value unlocking sequence).Fits :=
    covenantInput_fits hu hunlocking hseq
  have hfeeIn := feeInput_signable hfee hfeeSeq
  obtain ⟨script, hscript, hsigned⟩ := signSpend_returns hdoc key
    ⟨hcov, rfl, hfeeIn, rfl, rfl⟩ hout hversion
  refine ⟨_, hsigned, ⟨_, _, rfl, rfl, rfl⟩, rfl, ?_⟩
  have hfits : Transaction.Fits
      ⟨[covenantInput cov u.txHash u.txPos u.value unlocking sequence,
      { feeInput fee feeSequence with unlockingScript := some script }],
        [⟨holder, some u.value⟩],
      version, 0⟩ := by
    refine ⟨hversion, (by decide : (0 : Int) ≤ 0 ∧ (0 : Int) < 256 ^ 4), ?_, ?_,
      (by decide : 2 < 256 ^ 8), (by decide : 1 < 256 ^ 8)⟩
    · rw [List.forall_mem_cons, List.forall_mem_singleton]
      exact ⟨hcov, hfeeIn.txid, hfeeIn.index, hscript, hfeeIn.sequence⟩
    · rw [List.forall_mem_singleton]
      exact hout.toFits
  obtain ⟨w, -, -, hw, -⟩ := hfits.serialize
  exact ⟨_, hw⟩

/-- **Which output is spent.** While the recorded outpoint is unspent, of the
negotiated value and deep enough, the claim and the refund spend it just when no
other listed output has that value; with a second one of it both raise and build
nothing. -/
theorem covenant_spend_iff (hrec : Recorded leg client record cov utxos u)
    (hfee : FeeReady signer client) : ((carriers record utxos).length = 1 →
      (∀ p, p.length = 32 → sha256 p = record.terms.hashlock →
        ∃ tx, leg.claimTx signer client record p = .ok tx ∧
          Spends u cov.takerHolderScript tx ∧
          leg.claimAsset signer client record p = client.send tx) ∧
      ∃ tx, leg.refundTx signer client record = .ok tx ∧
        Spends u cov.makerHolderScript tx ∧
        leg.refundAsset signer client record = client.send tx) ∧
    ((carriers record utxos).length ≠ 1 →
      let e := PyErr.other ("ambiguous covenant UTXO set (" ++
        toString (carriers record utxos).length ++ " candidates); fail-closed")
      (∀ p, leg.claimTx signer client record p = .error e ∧
        leg.claimAsset signer client record p = .error e) ∧
      leg.refundTx signer client record = .error e ∧
        leg.refundAsset signer client record = .error e) := by
  constructor
  -- alone the covenant's UTXO is resolved, and both spends go through
  · intro hone
    have hres := hrec.resolves hone
    obtain ⟨fee, key, hnext, hon, hdust, hkey⟩ := hfee.fee
    have hpos := record.terms.sound.radiantAmount
    have hval := hrec.value
    obtain ⟨htaker, hmaker, hcsv1, hcsv2⟩ := buildCovenant_payable hrec.covenant
      (⟨by omega, hrec.onChain.value⟩ : 0 ≤ u.value ∧ u.value < 2 ^ 63)
    have hcarrier : checkCarrier u.value fee = .ok u.value := by
      rw [checkCarrier, refuseIf, if_neg (by omega), ok_bind, refuseIf,
        if_neg (by omega), ok_bind]
      rfl
    obtain ⟨asset, -, hof⟩ := buildCovenant_ok hrec.covenant
    constructor
    · intro p hp hsha
      have hpush : (pushBytes p ++ [0x00]).length < 256 ^ 8 := by
        rw [pushBytes, if_pos (by omega), List.length_append,
          List.length_cons, hp]
        decide
      obtain ⟨tx, htx, hspends⟩ :=
        signSpend_spends hfee.documented key hon hrec.onChain cov _
        0xFFFFFFFF 0xFFFFFFFF 1 htaker hpush (by decide) (by decide) (by decide)
      have hclaim : leg.claimTx signer client record p = .ok tx := by
        rw [RadiantCovenantLeg.claimTx, hres, ok_bind]
        dsimp only
        rw [hnext, ok_bind, buildHtlcClaimTx, refuseIf, if_neg (not_not.mpr hp),
          ok_bind, refuseIf,
          if_neg (not_not.mpr (hsha.trans hof.hashlock.symm)), ok_bind,
            hcarrier, ok_bind,
          validateOutpoint_onChain hrec.onChain, ok_bind]
        dsimp only
        rw [hkey, ok_bind, htx]
      exact ⟨tx, hclaim, hspends, by rw [RadiantCovenantLeg.claimAsset,
        hclaim, ok_bind]⟩
    · obtain ⟨tx, htx, hspends⟩ :=
        signSpend_spends hfee.documented key hon hrec.onChain cov [0x51]
        cov.refundCsv 0xFFFFFFFE 2 hmaker (by decide) (by omega)
          (by decide) (by decide)
      have hrefund : leg.refundTx signer client record = .ok tx := by
        rw [RadiantCovenantLeg.refundTx, hres, ok_bind]
        dsimp only
        rw [hnext, ok_bind, buildHtlcRefundTx, hcarrier, ok_bind,
          validateOutpoint_onChain hrec.onChain, ok_bind]
        dsimp only
        rw [hkey, ok_bind, htx]
      exact ⟨tx, hrefund, hspends, by rw [RadiantCovenantLeg.refundAsset,
        hrefund, ok_bind]⟩
  · intro hmore
    have hres := hrec.ambiguous hmore
    refine ⟨fun p => ⟨?_, ?_⟩, ?_, ?_⟩
    · rw [RadiantCovenantLeg.claimTx, hres, error_bind]
    · rw [RadiantCovenantLeg.claimAsset, RadiantCovenantLeg.claimTx, hres,
        error_bind, error_bind]
    · rw [RadiantCovenantLeg.refundTx, hres, error_bind]
    · rw [RadiantCovenantLeg.refundAsset, RadiantCovenantLeg.refundTx, hres,
        error_bind, error_bind]

end Main

/-! ## A recorded outpoint, alone and in company -/

/-- The funded covenant, and an output of another value at the same script. -/
def sampleUtxo : UtxoRecord := ⟨hex (List.replicate 32 0xCD), 0, 5000, 100⟩

def sampleDust : UtxoRecord := ⟨hex (List.replicate 32 0xCE), 1, 546, 101⟩

/-- A second output of the value that is looked for. -/
def sampleTwin : UtxoRecord := ⟨hex (List.replicate 32 0xCE), 1, 5000, 101⟩

/-- The sample fee input's index is a possible one. -/
theorem sampleFee_vout : (0 : Int) ≤ 1 := by decide

def sampleFee : FeeInput where
  txid := hex (List.replicate 32 0xAB)
  vout := 1
  value := 2000000
  scriptpubkey := [
    0x76, 0xA9, 0x14, 0x32, 0x03, 0xF9, 0x55, 0x93, 0x60, 0xDA, 0xEA, 0x3E,
      0xD6, 0x8E, 0xA0, 0xBD,
    0xEC, 0xEE, 0x39, 0xC8, 0xA7, 0x8B, 0xAA, 0x88, 0xAC]
  wif := "KwDiBf89QgGbjEhKnhXJuH7LrciVrZi3qYjgd9M7rFW3aGzGdyzP"
  ofTxid := by
    rw [fromHex_hex]
    exact ⟨rfl, rfl⟩
  ofVout := sampleFee_vout
  ofValue := by decide
  ofScriptpubkey := by decide

def sampleClaimDigest : Bytes := [
  0xE3, 0xE9, 0x8D, 0x8E, 0x76, 0x4D, 0xB9, 0x53, 0x00, 0xB2, 0x44, 0x3F, 0x05,
    0xA1, 0x30, 0x03,
  0x83, 0xE5, 0x9B, 0x45, 0x08, 0x5B, 0x49, 0x03, 0x56, 0xD3, 0x1F, 0x50, 0x2D,
    0xD9, 0x1E, 0x3F]

/-- The key of the fee input, and its two signatures: under the claim and under
the refund. -/
def sampleSigner : FeeSigner Unit Unit where
  curve := {
    ripemd160 := fun _ => (sampleFee.scriptpubkey.drop 3).take 20
    parse := fun _ => .ok ()
    format := fun _ _ => [
      0x02, 0xEC, 0x6D, 0x49, 0x9A, 0xEF, 0xD5, 0x40, 0xE9, 0x03, 0x57, 0xF1,
        0x00, 0x4A, 0x13, 0x60,
      0x49, 0xD1, 0xF7, 0xDF, 0x5A, 0xD9, 0x9C, 0x44, 0xC4, 0x6E, 0x3E, 0xD4,
        0x16, 0x9E, 0x40, 0xAC,
      0xB6]
    verify := fun _ _ _ => .ok true
    sign := fun _ digest => if digest = sampleClaimDigest then [
      0x30, 0x44, 0x02, 0x20, 0x5D, 0x09, 0xCC, 0x26, 0xA0, 0x86, 0x26, 0x91,
        0x28, 0x2B, 0x9C, 0x56,
      0xFE, 0xED, 0xE1, 0x3F, 0xBF, 0xE6, 0x07, 0xED, 0x2A, 0xDA, 0x40, 0x90,
        0xF8, 0xB6, 0x19, 0x07,
      0xB7, 0x60, 0x60, 0x04, 0x02, 0x20, 0x16, 0xDD, 0x22, 0x6E, 0xCD, 0x46,
        0x99, 0x73, 0x40, 0x73,
      0x7C, 0x0C, 0xBB, 0x18, 0xA5, 0x6D, 0x43, 0x4C, 0x9E, 0xF0, 0xCA, 0xE4,
        0x2F, 0xB4, 0x11, 0x89,
      0xD2, 0x4F, 0xBC, 0x67, 0x64, 0x2E]
      else [
      0x30, 0x44, 0x02, 0x20, 0x72, 0x54, 0x9D, 0x27, 0x1E, 0x5C, 0x4E, 0xDA,
        0xFF, 0x68, 0x09, 0x50,
      0x8C, 0xC0, 0xA6, 0x7B, 0x88, 0x22, 0xEC, 0xAC, 0xCD, 0x19, 0x61, 0x71,
        0x30, 0x83, 0x86, 0x56,
      0x2F, 0xE3, 0x9B, 0x2D, 0x02, 0x20, 0x63, 0x5A, 0x28, 0xC1, 0x4F, 0x87,
        0x78, 0x99, 0xC7, 0xFB,
      0x79, 0xB4, 0x88, 0x27, 0xC6, 0xDC, 0x28, 0xAB, 0x4D, 0xC6, 0x73, 0xE8,
        0xD7, 0x58, 0x26, 0x74,
      0x9C, 0x01, 0xB6, 0x90, 0xBD, 0xD4]
    publicKey := fun _ => () }
  fromWif := fun wif =>
    if wif = sampleFee.wif then .ok ⟨(), true⟩ else invalid "invalid WIF"

/-- A client that lists these outputs, a hundred blocks deep. -/
def sampleClient (utxos : List UtxoRecord) : RadiantClient where
  getUtxos := fun _ => .ok utxos
  getTransactionVerbose := fun _ => .ok (.dict [("confirmations", .int 100)])
  nextFeeInput := .ok sampleFee
  broadcast := fun _ => .error (.other "offline")

def sampleLockedRecord : SwapRecord :=
  ⟨{ sampleLegRecord.toRecordFields with radiantCovenantOutpoint := some sampleUtxo.outpoint }, rfl⟩

/-- The sample wallet is ready to pay the fee. -/
theorem sampleFeeReady (utxos : List UtxoRecord) :
    FeeReady sampleSigner (sampleClient utxos) := by
  refine ⟨⟨fun _ digest => ?_, fun key _ => ?_⟩, sampleFee, ⟨(), true⟩, rfl,
    ?_, by decide, ?_⟩
  · show (if digest = sampleClaimDigest then _ else _ : Bytes).length ≤ 72
    split <;> decide
  · show 33 ≤ 65
    decide
  · exact ⟨⟨List.replicate 32 0xAB, fromHex_hex _,
      rfl⟩, by decide, by decide, by decide⟩
  · show (if sampleFee.wif = sampleFee.wif then Except.ok
      (PrivateKey.mk () true)
      else invalid "invalid WIF") = _
    rw [if_pos rfl]

/-- The sample UTXO is recorded. -/
theorem sampleRecorded {utxos : List UtxoRecord} (h : sampleUtxo ∈ utxos) :
    ∃ cov, Recorded sampleLeg
      (sampleClient utxos) sampleLockedRecord cov utxos sampleUtxo := by
  obtain ⟨cov, hcov, -⟩ := expectedCovenantScriptpubkey_ok.mp sampleLeg_expected
  exact ⟨cov, hcov, rfl, rfl, h, ⟨⟨_, rfl, rfl⟩, by decide, by decide⟩, rfl, 100, rfl, by decide⟩

/-- An output of another value is passed over: both spends go through. -/
theorem covenant_spend_beside_dust :
    ∃ cov, Recorded sampleLeg
      (sampleClient [sampleDust, sampleUtxo]) sampleLockedRecord cov
        [sampleDust, sampleUtxo] sampleUtxo ∧
      (∃ tx, sampleLeg.claimTx sampleSigner (sampleClient [sampleDust,
        sampleUtxo]) sampleLockedRecord (List.replicate 32 9) = .ok tx ∧
        Spends sampleUtxo cov.takerHolderScript tx) ∧
      ∃ tx, sampleLeg.refundTx sampleSigner (sampleClient [sampleDust,
        sampleUtxo]) sampleLockedRecord =
        .ok tx ∧ Spends sampleUtxo cov.makerHolderScript tx := by
  obtain ⟨cov, hrec⟩ :=
    sampleRecorded (show sampleUtxo ∈ [sampleDust, sampleUtxo] by simp)
  obtain ⟨hclaim, tx, htx, hspends, -⟩ :=
    (covenant_spend_iff hrec (sampleFeeReady _)).1 (by decide)
  obtain ⟨tx', htx', hspends', -⟩ :=
    hclaim (List.replicate 32 9) rfl (by decide +kernel)
  exact ⟨cov, hrec, ⟨tx', htx', hspends'⟩, tx, htx, hspends⟩

/-- A second output of the value that is looked for stops both. -/
theorem covenant_spend_blocked :
    (∃ cov, Recorded sampleLeg (sampleClient [sampleTwin,
      sampleUtxo]) sampleLockedRecord cov
      [sampleTwin, sampleUtxo] sampleUtxo) ∧
        FeeReady sampleSigner (sampleClient [sampleTwin, sampleUtxo]) ∧
    (∀ p tx, sampleLeg.claimTx sampleSigner (sampleClient [sampleTwin,
      sampleUtxo]) sampleLockedRecord p ≠
      .ok tx) ∧
    ∀ tx, sampleLeg.refundTx sampleSigner
      (sampleClient [sampleTwin, sampleUtxo]) sampleLockedRecord ≠
      .ok tx := by
  obtain ⟨cov, hrec⟩ :=
    sampleRecorded (show sampleUtxo ∈ [sampleTwin, sampleUtxo] by simp)
  have hres := hrec.ambiguous (by decide)
  refine ⟨⟨cov, hrec⟩, sampleFeeReady _, fun p tx h => ?_, fun tx h => ?_⟩
  · rw [RadiantCovenantLeg.claimTx, hres] at h
    cases h
  · rw [RadiantCovenantLeg.refundTx, hres] at h
    cases h

end Pyrxd.Gravity
