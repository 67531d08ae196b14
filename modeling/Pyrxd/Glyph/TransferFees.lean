import Pyrxd.Glyph.Transfers
import Pyrxd.Tx.Der
import Pyrxd.Tx.Size

/-!
# What a transfer pays

Both transfer builders sign twice. The first transaction is only measured: its
length, times the fee rate, is the fee, and the second transaction pays what is
left. The two differ in the values of their outputs, which take eight bytes
whatever they are, and so in their signatures, which do not take the same room:
a DER signature is a byte shorter for every leading zero of its two numbers.

Signing lengthens a transaction by its signatures and a fixed part for each
input (`sign_size`), so the fee covers the second transaction just when its
signatures are together no longer than those of the first.
-/

namespace Pyrxd.Glyph

open Pyrxd.Lib Pyrxd.Tx Pyrxd.Swap
open FtUtxoSet (ownerCurve sampleTransfer sampleToken sampleTokenWire
  sampleToken_spelled sampleUtxo sampleUtxoSet sampleDraft)

variable {Key Secret : Type}

section Covers

variable {curve : Curve Key Secret} {key : PrivateKey Secret}
  {d d' : Draft Secret}

/-- **When one signed transaction pays for another.** Two drafts that spend the
same and pay the same scripts. -/
theorem covers_iff (hkey : KeySized curve key) {e e' : Draft Secret}
    (hd : sign curve d = .ok d') (he : sign curve e = .ok e')
    (hblank : ∀ t ∈ d.inputs, Blank key t) (hpos : d.inputs ≠ [])
    (hins : e.inputs = d.inputs)
    (hscripts : e.outputs.map TransactionOutput.lockingScript = d.outputs.map
      TransactionOutput.lockingScript) (hversion : e.version = d.version)
    (hlocktime : e.locktime = d.locktime) {raw : Bytes}
    (hraw : d'.tx.serialize = .ok raw) {rate fee : Int}
    (hfee : fee = raw.length * rate) :
    (∃ raw', e'.tx.serialize = .ok raw' ∧ rate * raw'.length ≤ fee) ↔
      rate * signatureBytes curve key e.tx ≤
        rate * signatureBytes curve key d.tx := by
  have hblank' : ∀ t ∈ e.inputs, Blank key t := hins ▸ hblank
  have hsized := sign_size hkey hd hblank
  have hsize' := sign_size hkey he hblank'
  -- the unsigned transactions are of one size
  rw [hraw, signedSize] at hsized
  cases hbare : d.tx.serialize with
  | error err =>
    rw [hbare] at hsized
    cases hsized
  | ok bytes =>
    rw [hbare] at hsized
    have hlen : raw.length =
        bytes.length + (signatureBytes curve key d.tx + d.tx.inputs.length *
          ((pushedKey curve key).length + 3)) := Except.ok.inj hsized
    obtain ⟨t, rest, hcons⟩ := List.exists_cons_of_ne_nil hpos
    have ht := hblank t (by rw [hcons]; exact List.mem_cons_self)
    have hfirst : e.inputs[0]? = some t := by rw [hins, hcons]; rfl
    obtain ⟨message, hmessage, -⟩ :=
      sign_unlocks he hfirst ht.unsigned ht.flag ht.template hkey
    rw [← txPreimage_bare] at hmessage
    have htx := sign_bareTx he hblank'
    have hparts :=
      congrArg (fun tx : Transaction => (tx.inputs, tx.outputs)) htx
    simp only [bareTx, Prod.mk.injEq] at hparts
    rw [hparts.1, hparts.2] at hmessage
    have hhead : e.tx.inputs[0]? = some t.input := by
      rw [Draft.tx, List.getElem?_map, hfirst, Option.map_some]
    obtain ⟨b, hb⟩ := preimage_outputs hmessage hhead ht.flag
    obtain ⟨bytes', hbytes', hsame⟩ := serialize_outputs hbare hb hscripts
    have hshape : ({ d.tx with outputs := e.tx.outputs } : Transaction) =
        e.tx := by
      rw [Draft.tx, Draft.tx, hins, hversion, hlocktime]
    rw [hshape] at hbytes'
    rw [signedSize, hbytes'] at hsize'
    have hcount : e.tx.inputs.length = d.tx.inputs.length := by rw [Draft.tx,
      Draft.tx, hins]
    cases hfinal : e'.tx.serialize with
    | error err =>
      rw [hfinal] at hsize'
      cases hsize'
    | ok raw' =>
      rw [hfinal] at hsize'
      have hlen' : raw'.length =
          bytes'.length + (signatureBytes curve key e.tx + e.tx.inputs.length *
            ((pushedKey curve key).length + 3)) :=
        Except.ok.inj hsize'
      have hdiff : (raw'.length : Int) - raw.length =
          signatureBytes curve key
            e.tx - (signatureBytes curve key d.tx : Int) := by
        rw [hlen, hlen', hsame, hcount]
        omega
      have hscaled := congrArg (rate * ·) hdiff
      simp only [mul_sub] at hscaled
      rw [hfee, Int.mul_comm (raw.length : Int) rate]
      constructor
      · rintro ⟨x, hx, hle⟩
        cases hx
        omega
      · intro hle
        exact ⟨raw', rfl, by omega⟩

end Covers

/-! ## The transfers -/

/-- What a transfer promises: nothing is lost, no output is dust, the token goes
on, and the fee is worth the transaction's own size. -/
structure Paid (refOf : Bytes → Except PyErr GlyphRef)
    (feeRate dustLimit fee : Int) (tx : Transaction) : Prop where
  balanced : (tx.inputs.map fun i => i.satoshis.getD 0).sum =
    (tx.outputs.map fun o => o.satoshis.getD 0).sum + fee
  dust : ∀ o ∈ tx.outputs, ∃ value, o.satoshis = some value ∧ dustLimit ≤ value
  carries : ∃ ref, (∀ i ∈ tx.inputs, ∃ script, i.lockingScript = some script ∧
    refOf script = .ok ref) ∧
    ∃ o, tx.outputs.head? = some o ∧ refOf o.lockingScript = .ok ref
  covered : ∃ raw, tx.serialize = .ok raw ∧ feeRate * raw.length ≤ fee

/-- The transactions of a transfer before they are signed, the second by its
fee. -/
structure TwoPass where
  feeRate : Int
  trial : Transaction
  final : Int → Transaction

/-- The second transaction's signatures are no longer than the first's, as far
as the rate cares. -/
def TwoPass.Covered (curve : Curve Key Secret) (key : PrivateKey Secret)
    (t : TwoPass) : Prop :=
  ∃ size, signedSize curve key t.trial = .ok size ∧
    t.feeRate * signatureBytes curve key (t.final (size * t.feeRate)) ≤
      t.feeRate * signatureBytes curve key t.trial

def FtUtxoSet.twoPass (curve : Curve Key Secret) (s : FtUtxoSet) (amount : Int)
    (newOwnerPkh : Bytes)
    (key : PrivateKey Secret) (feeRate : Int) (changePkh : Option Bytes)
    (dustLimit : Int) : Except PyErr TwoPass := do
  let selected ← s.select amount
  let sender ← hex20 (changePkh.getD
    (curve.hash160 (curve.format (curve.publicKey key.secret) key.compressed)))
  let newFtScript ← buildFtLockingScript newOwnerPkh s.ref
  let changeFtScript ← (
    if (selected.map FtUtxo.ftAmount).sum - amount > 0 then do
      let script ← buildFtLockingScript sender s.ref
      return some script
    else .ok none)
  let inputs ← selected.mapM (FtUtxo.draftInput key)
  let paying := fun transferValue : Int =>
    (⟨inputs.map DraftInput.input, makeOutputs newFtScript changeFtScript
      transferValue dustLimit, 1, 0⟩ : Transaction)
  return ⟨feeRate, paying dustLimit, fun fee =>
    paying ((selected.map FtUtxo.value).sum - fee - if changeFtScript.isSome then dustLimit else 0)⟩

def TransferParams.twoPass (p : TransferParams Secret) :
    Except PyErr TwoPass := do
  let ref ← extractRefFromNftScript p.nftScript
  let newNftScript ← buildNftLockingScript p.newOwnerPkh ref
  let input ← p.draftInput
  let paying := fun value : Int =>
    (⟨[input.input], [⟨newNftScript, some value⟩], 1, 0⟩ : Transaction)
  return ⟨p.feeRate, paying p.nftUtxoValue,
    fun fee => paying (p.nftUtxoValue - fee)⟩

section Main

variable {curve : Curve Key Secret} {key : PrivateKey Secret}

/-- Selecting for a positive amount selects. -/
theorem selected_ne_nil {amount : Int} {selected : List FtUtxo}
    (hcover : amount ≤ (selected.map FtUtxo.ftAmount).sum) (hpos : 0 < amount) :
    selected ≠ [] := by
  rintro rfl
  exact absurd hcover (Int.not_le.mpr hpos)

/-- The amounts do not touch the scripts. -/
theorem makeOutputs_lockingScripts (newFtScript : Bytes)
    (changeFtScript : Option Bytes) (v w v' w' : Int) : (makeOutputs newFtScript
    changeFtScript v w).map TransactionOutput.lockingScript =
      (makeOutputs newFtScript changeFtScript v' w').map
        TransactionOutput.lockingScript := by
  cases changeFtScript with
  | none => rfl
  | some script => rfl

/-- No output is below the dust limit. -/
theorem makeOutputs_dust {newFtScript : Bytes} {changeFtScript : Option Bytes}
    {value dustLimit : Int}
    (h : dustLimit ≤ value) :
    ∀ o ∈ makeOutputs newFtScript changeFtScript value dustLimit,
      ∃ v, o.satoshis = some v ∧ dustLimit ≤ v := by
  have hrest : ∀ o ∈ (makeOutputs newFtScript changeFtScript value
      dustLimit).tail, o.satoshis = some dustLimit := by
    cases changeFtScript with
    | none => exact List.forall_mem_nil _
    | some script =>
      intro o ho
      rw [List.mem_singleton.mp ho]
  intro o ho
  rcases List.mem_cons.mp ho with rfl | ho
  · exact ⟨value, rfl, h⟩
  · exact ⟨dustLimit, hrest o ho, Int.le_refl _⟩

/-- What is built for a ref that a UTXO carries, carries it. -/
theorem ft_transfer_carries {u : FtUtxo} {ref : GlyphRef} {pkh script : Bytes}
    (hu : u.check ref = .ok ())
    (h : buildFtLockingScript pkh ref = .ok script) :
    extractRefFromFtScript script = .ok ref := by
  obtain ⟨-, hread⟩ := FtUtxo.check_ref hu
  obtain ⟨wire, hlen, hwire, pkh', hpkh', hframe⟩ := FtUtxo.check_ok hu
  obtain ⟨-, hread⟩ := extractRefFromFtScript_ok.mp hread
  rw [hframe, between_ft_ref hpkh' hlen] at hread
  obtain ⟨hpkh, data, hdata, rfl⟩ := buildFtLockingScript_ok.mp h
  rw [hwire, Except.ok.injEq] at hdata
  subst hdata
  refine extractRefFromFtScript_ok.mpr ⟨⟨length_ftFrame hpkh hlen,
    between_ft_head hpkh⟩, ?_⟩
  rw [between_ft_ref hpkh hlen]
  exact hread

/-- An NFT transfer carries the reference on. -/
theorem nft_transfer_carries {spent pkh script : Bytes}
    {ref : GlyphRef} (hread : extractRefFromNftScript spent = .ok ref)
    (h : buildNftLockingScript pkh ref = .ok script) :
    extractRefFromNftScript script = .ok ref := by
  obtain ⟨-, hread⟩ := extractRefFromNftScript_ok.mp hread
  obtain ⟨hpkh, data, hdata, rfl⟩ := buildNftLockingScript_ok.mp h
  have hlen := (glyphRef_wire hdata).1
  rw [GlyphRef.Spelled.toBytes hread, Except.ok.injEq] at hdata
  rw [hdata] at hread
  refine extractRefFromNftScript_ok.mpr ⟨⟨?_,
    rfl⟩, by rw [between_nft_ref hlen]; exact hread⟩
  simp only [nftFrame, List.length_append, hlen, hpkh]
  rfl

/-- The second pass pays its rate exactly when it is no longer than the trial.
-/
theorem paid_iff {t : TwoPass} {refOf : Bytes → Except PyErr GlyphRef}
    {dustLimit fee : Int} {tx : Transaction} {size : Nat}
    (hsize : signedSize curve key t.trial = .ok size)
    (hfee : fee = size * t.feeRate)
    (hcovers : (∃ raw, tx.serialize = .ok raw ∧ t.feeRate * raw.length ≤ fee) ↔
      t.feeRate * signatureBytes curve key (t.final fee) ≤
        t.feeRate * signatureBytes curve key t.trial)
    (hrest : (∃ raw, tx.serialize = .ok raw ∧ t.feeRate * raw.length ≤ fee) →
      Paid refOf t.feeRate dustLimit fee tx) :
    Paid refOf t.feeRate dustLimit fee tx ↔ t.Covered curve key := by
  constructor
  · intro hpaid
    refine ⟨size, hsize, ?_⟩
    rw [← hfee]
    exact hcovers.mp hpaid.covered
  · rintro ⟨size', hsize', hle⟩
    rw [hsize, Except.ok.injEq] at hsize'
    rw [← hsize', ← hfee] at hle
    exact hrest (hcovers.mpr hle)

/-- A transfer of a token pays just when its second transaction's signatures are
no longer. -/
theorem ft_transfer_paid_iff (hkey : KeySized curve key)
    {s : FtUtxoSet} {amount : Int} {newOwnerPkh : Bytes} {feeRate : Int}
    {changePkh : Option Bytes} {dustLimit : Int} {r : FtTransferResult}
    (h : s.buildTransferTx curve amount newOwnerPkh key feeRate changePkh
      dustLimit = .ok r) :
    ∃ t, s.twoPass curve amount newOwnerPkh key feeRate changePkh dustLimit =
      .ok t ∧
      (Paid extractRefFromFtScript feeRate dustLimit r.fee r.tx ↔
        t.Covered curve key) := by
  obtain ⟨selected, sender, trial, raw, final, hsel, hcover, hamount, -,
      hsender, hnew, hchange, htrial, hraw, hfee, hdust, hfinal, htx⟩ :=
    FtUtxoSet.buildTransferTx_passes h
  obtain ⟨houts, hunits⟩ := FtUtxoSet.signedTransfer_ok hfinal
  -- the final transaction differs from the trial in amounts only
  have hspent := signedTransfer_scripts hfinal
  obtain ⟨inputs, hinputs, htrial⟩ := bind_ok.mp htrial
  obtain ⟨inputs', hinputs', hfinal⟩ := bind_ok.mp hfinal
  rw [hinputs, Except.ok.injEq] at hinputs'
  subst hinputs'
  have hblank : ∀ t ∈ inputs, Blank key t := by
    intro t ht
    obtain ⟨u, -, hdraft⟩ := mapM_mem hinputs ht
    obtain ⟨-, hunsigned, hflag, htemplate⟩ := draftInput_script hdraft
    exact ⟨hunsigned, hflag, htemplate⟩
  have hne : inputs ≠ [] := by
    have hlen := (mapM_ok hinputs).1
    have hpos := List.length_pos_of_ne_nil (selected_ne_nil hcover hamount)
    exact List.ne_nil_of_length_pos (by omega)
  have hcovers := covers_iff hkey htrial hfinal hblank hne rfl
    (makeOutputs_lockingScripts _ _ _ _ _ _) rfl rfl hraw hfee
  have hsize := sign_size hkey htrial hblank
  rw [hraw] at hsize
  let paying := fun value : Int =>
    (⟨inputs.map DraftInput.input, makeOutputs r.newFtScript r.changeFtScript
      value dustLimit, 1, 0⟩ : Transaction)
  let plan : TwoPass := ⟨feeRate, paying dustLimit, fun fee =>
    paying ((selected.map FtUtxo.value).sum - fee - if r.changeFtScript.isSome then dustLimit else 0)⟩
  refine ⟨plan, ?_, ?_⟩
  · rw [FtUtxoSet.twoPass, hsel, ok_bind, hsender, ok_bind, hnew, ok_bind,
      hchange, ok_bind, hinputs, ok_bind]
    rfl
  · rw [htx]
    refine paid_iff (t := plan) hsize.symm hfee hcovers fun hcov =>
      ⟨?_, ?_, ?_, hcov⟩
    · rw [houts, makeOutputs_sum, show (final.tx.inputs.map fun i =>
        i.satoshis.getD 0).sum = _ from hunits]
      omega
    · rw [houts]
      exact makeOutputs_dust hdust
    · refine ⟨s.ref, fun i hi => ?_, _, by rw [houts]; rfl, ?_⟩
      · obtain ⟨u, hu, hlocking⟩ := hspent i hi
        exact ⟨_, hlocking,
          (FtUtxo.check_ref (s.valid u (FtUtxoSet.mem_select hsel u hu))).2⟩
      · obtain ⟨u, hu⟩ :=
          List.exists_mem_of_ne_nil _ (selected_ne_nil hcover hamount)
        exact ft_transfer_carries
          (s.valid u (FtUtxoSet.mem_select hsel u hu)) hnew

/-- The draft of an NFT transfer spends the NFT, unsigned. -/
theorem draftInput_nft {p : TransferParams Secret} {t : DraftInput Secret}
    (h : p.draftInput = .ok t) :
    Blank p.privateKey t ∧ t.input.satoshis = some p.nftUtxoValue ∧
    t.input.lockingScript = some p.nftScript := by
  unfold TransferParams.draftInput at h
  split at h
  · cases h
  · cases h
    exact ⟨⟨rfl, rfl, rfl⟩, rfl, rfl⟩

/-- So does one of a singleton. -/
theorem nft_transfer_paid_iff {p : TransferParams Secret}
    (hkey : KeySized curve p.privateKey) {r : TransferResult}
    (h : buildNftTransferTx curve p = .ok r) :
    ∃ t, p.twoPass = .ok t ∧ (Paid extractRefFromNftScript p.feeRate 546 r.fee
      r.tx ↔ t.Covered curve p.privateKey) := by
  obtain ⟨trial, raw, final, href, hscript, htrial, hraw, hfee, hdust, hfinal,
      htx⟩ := buildNftTransferTx_passes h
  obtain ⟨t, ht, htrial⟩ := bind_ok.mp htrial
  obtain ⟨t', ht', hfinal⟩ := bind_ok.mp hfinal
  rw [ht, Except.ok.injEq] at ht'
  subst ht'
  obtain ⟨hblank, hvalue, hlocking⟩ := draftInput_nft ht
  have hblank : ∀ u ∈ [t], Blank p.privateKey u :=
    List.forall_mem_singleton.mpr hblank
  have hcovers := covers_iff hkey htrial hfinal hblank
    (List.cons_ne_nil _ _) rfl rfl rfl rfl hraw hfee
  have hsize := sign_size hkey htrial hblank
  rw [hraw] at hsize
  have hbare := sign_bareTx hfinal hblank
  have houts : final.tx.outputs = [⟨r.newNftScript,
      some (p.nftUtxoValue - r.fee)⟩] := congrArg Transaction.outputs hbare
  have hins : final.tx.inputs.map bare = [t.input] :=
    congrArg Transaction.inputs hbare
  obtain ⟨i, hi, hbarei⟩ := List.map_eq_singleton_iff.mp hins
  have hsatoshis : i.satoshis = some p.nftUtxoValue := by
    rw [← hvalue, ← hbarei]
    rfl
  have hspent : i.lockingScript = some p.nftScript := by
    rw [← hlocking, ← hbarei]
    rfl
  let paying := fun value : Int =>
    (⟨[t.input], [⟨r.newNftScript, some value⟩], 1, 0⟩ : Transaction)
  let plan : TwoPass := ⟨p.feeRate, paying p.nftUtxoValue,
    fun fee => paying (p.nftUtxoValue - fee)⟩
  refine ⟨plan, ?_, ?_⟩
  · rw [TransferParams.twoPass, href, ok_bind, hscript, ok_bind, ht, ok_bind]
    rfl
  · rw [htx]
    refine paid_iff (t := plan) hsize.symm hfee hcovers fun hcov => ⟨?_, ?_,
      ⟨r.ref, ?_, _, by rw [houts]; rfl, nft_transfer_carries href hscript⟩,
      hcov⟩
    · rw [houts, hi]
      simp only [List.map_cons, List.map_nil, List.sum_cons, List.sum_nil,
        hsatoshis, Option.getD_some]
      omega
    · rw [houts, List.forall_mem_singleton]
      exact ⟨_, rfl, hdust⟩
    · rw [hi, List.forall_mem_singleton]
      exact ⟨_, hspent, href⟩

end Main

/-! ## Main theorem -/

/-- **When a transfer pays for itself.** A returned transfer is balanced,
without dust and carries its token on; its fee is worth its size just when the
signatures of the second pass are no longer than those of the first. -/
theorem transfers_paid_iff (curve : Curve Key Secret) (key : PrivateKey Secret)
    (hkey : KeySized curve key) :
    (∀ (s : FtUtxoSet) amount newOwnerPkh feeRate changePkh dustLimit r,
      s.buildTransferTx curve amount newOwnerPkh key feeRate changePkh
        dustLimit = .ok r →
        ∃ t, s.twoPass curve amount newOwnerPkh key feeRate changePkh
          dustLimit = .ok t ∧
          (Paid extractRefFromFtScript feeRate dustLimit r.fee r.tx ↔
            t.Covered curve key)) ∧
    ∀ (p : TransferParams Secret) r, p.privateKey = key →
    buildNftTransferTx curve p = .ok r →
      ∃ t, p.twoPass = .ok t ∧
        (Paid extractRefFromNftScript p.feeRate 546 r.fee r.tx ↔
        t.Covered curve key) := by
  constructor
  · intro s amount newOwnerPkh feeRate changePkh dustLimit r h
    exact ft_transfer_paid_iff hkey h
  · intro p r hp h
    subst hp
    exact nft_transfer_paid_iff hkey h

/-- The sample transfer, whose signatures are all of one length. -/
theorem transfers_paid_iff_sample : ∃ r, sampleTransfer = .ok r ∧
    Paid extractRefFromFtScript 10000 546 r.fee r.tx := by
  obtain ⟨final, hfinal, hr⟩ := FtUtxoSet.sampleTransfer_built
  refine ⟨_, hr, ?_⟩
  obtain ⟨t, ht, h⟩ := (transfers_paid_iff ownerCurve ⟨(),
    true⟩ FtUtxoSet.ownerCurve_sized).1 _ _ _ _ _ _ _ hr
  have hplan : t = ⟨10000, (sampleDraft 546).tx,
      fun fee => (sampleDraft (2410546 - fee - 0)).tx⟩ := by
    have hwire : sampleToken.toBytes = .ok sampleTokenWire :=
      GlyphRef.Spelled.toBytes sampleToken_spelled
    have hnew : buildFtLockingScript makerPkh sampleToken =
        .ok (ftFrame makerPkh sampleTokenWire) :=
      buildFtLockingScript_ok.mpr ⟨rfl, _, hwire, rfl⟩
    have hsender : hex20 (ownerCurve.hash160 (ownerCurve.format
        (ownerCurve.publicKey ()) true)) = .ok takerPkh := rfl
    rw [FtUtxoSet.twoPass, show sampleUtxoSet.select 2410546 = .ok [sampleUtxo]
      from rfl, ok_bind, Option.getD_none, hsender, ok_bind,
      show sampleUtxoSet.ref = sampleToken from rfl, hnew, ok_bind,
      if_neg (by decide), ok_bind] at ht
    exact (Except.ok.inj ht).symm
  refine h.mpr ?_
  rw [hplan]
  have hsize :=
    sign_size FtUtxoSet.ownerCurve_sized hfinal FtUtxoSet.sampleDraft_blank
  obtain ⟨raw, hraw, hlen⟩ := FtUtxoSet.sampleDraft_size hfinal (by decide)
  rw [hraw] at hsize
  refine ⟨raw.length, hsize.symm, ?_⟩
  rw [hlen]
  exact Int.le_refl _

/-! ## A longer signature -/

/-- What the owner signs of the trial, with the signature, and the signature of
the second transaction. -/
def trialDigest : Bytes :=
  [0x0F, 0x45, 0x3D, 0x9B, 0xB0, 0x35, 0x60, 0x10, 0xF9, 0xF8, 0x4E, 0xF8, 0xD1,
    0x90, 0x56, 0x82,
   0x1D, 0x3F, 0x6A, 0x7A, 0x31, 0xAF, 0x77, 0x64, 0xED, 0x2E, 0x45, 0x96, 0xF6,
     0xAF, 0x6E, 0x15]

def trialSignature : Bytes :=
  [0x30, 0x44, 0x02, 0x20, 0x5A, 0xB7, 0x31, 0x66, 0x72, 0x8A, 0xC7, 0x96, 0x0D,
    0x1A, 0x86, 0x26,
   0x8B, 0xC0, 0x51, 0xCC, 0x10, 0x2B, 0xC2, 0x2F, 0x91, 0x0A, 0xA0, 0x67, 0xB8,
     0x89, 0xB9, 0x9B,
   0xD4, 0x7F, 0x7E, 0xD5, 0x02, 0x20, 0x75, 0xD4, 0x3B, 0x53, 0x0E, 0x27, 0xAF,
     0xF5, 0x10, 0xAF,
   0x03, 0x73, 0xF5, 0x18, 0x4C, 0xBC, 0x9B, 0xD0, 0xC2, 0x94, 0x25, 0xC0, 0x0C,
     0xB0, 0xF0, 0x31,
   0x1C, 0xED, 0xA3, 0x38, 0xE2, 0xA9]

def finalSignature : Bytes :=
  [0x30, 0x45, 0x02, 0x21, 0x00, 0xCB, 0xDD, 0x58, 0x04, 0xCC, 0xDA, 0x2F, 0x94,
    0x92, 0x6F, 0x1A,
   0x15, 0x2D, 0x1A, 0x7F, 0x82, 0xBF, 0xC7, 0x1D, 0x6C, 0x41, 0x28, 0xAC, 0x4C,
     0x96, 0x36, 0xF8,
   0xF2, 0xC1, 0x69, 0xD0, 0xAF, 0x02, 0x20, 0x4D, 0x7C, 0xBE, 0x1C, 0xD3, 0x32,
     0xCE, 0x2D, 0xB7,
   0x79, 0x36, 0x93, 0xD0, 0x3E, 0xCB, 0x64, 0xB5, 0x43, 0x9A, 0x04, 0x84, 0x88,
     0xC3, 0x0E, 0xE7,
   0x3D, 0x60, 0xCF, 0xF3, 0x15, 0x11, 0xBC]

/-- The curve on the owner's key and on those two messages. -/
def singletonCurve : Curve Bytes Unit where
  ripemd160 _ := takerPkh
  parse b := if b = takerPublicKey then .ok b
    else .error (.other "The public key could not be parsed or is invalid.")
  format key _ := key
  verify key der digest :=
    .ok (decide (key = takerPublicKey ∧
      der = if digest = trialDigest then trialSignature else finalSignature))
  sign _ digest := if digest = trialDigest then trialSignature
    else finalSignature
  publicKey _ := takerPublicKey

/-- The sample curve signs within the sizes assumed. -/
theorem singletonCurve_sized : KeySized singletonCurve ⟨(), true⟩ where
  signature := by
    intro digest
    show (if digest = trialDigest then trialSignature
      else finalSignature).length ≤ 72
    split
    · decide
    · decide
  publicKey := .inl rfl

/-- Both are what `serialize_ecdsa_der` writes. -/
theorem singletonCurve_der (digest : Bytes) :
    ∃ rs, serializeEcdsaDer rs = .ok (singletonCurve.sign () digest) := by
  show ∃ rs, serializeEcdsaDer rs =
    .ok (if digest = trialDigest then trialSignature else finalSignature)
  split
  · exact ⟨(0x5AB73166728AC7960D1A86268BC051CC102BC22F910AA067B889B99BD47F7ED5,
      0x75D43B530E27AFF510AF0373F5184CBC9BD0C29425C00CB0F0311CEDA338E2A9), by decide +kernel⟩
  · exact ⟨(0xCBDD5804CCDA2F94926F1A152D1A7F82BFC71D6C4128AC4C9636F8F2C169D0AF,
      0x4D7CBE1CD332CE2DB7793693D03ECB64B5439A048488C30EE73D60CFF31511BC), by decide +kernel⟩

/-- A singleton on 3300000 photons, at the default fee rate. -/
def singletonTransfer : TransferParams Unit where
  nftUtxoTxid := hex (List.replicate 32 9)
  nftUtxoVout := 0
  nftUtxoValue := 3300000
  nftScript := nftFrame sampleTokenWire takerPkh
  newOwnerPkh := makerPkh
  privateKey := ⟨(), true⟩
  feeRate := 10000

/-- The fee and the size of the sample transfer. -/
theorem singletonTransfer_sizes :
    (buildNftTransferTx singletonCurve singletonTransfer).toOption.map
    (fun r => (r.fee, r.tx.serialize.toOption.map List.length)) = some (2290000,
      some 230) := by
  decide +kernel

/-- **The fee is short of 230 bytes.** The trial's signature was a byte
shorter. -/
theorem fee_falls_short : (∀ digest, ∃ rs, serializeEcdsaDer rs =
    .ok (singletonCurve.sign () digest)) ∧
    KeySized singletonCurve ⟨(), true⟩ ∧
    ∃ r, buildNftTransferTx singletonCurve singletonTransfer = .ok r ∧
      ¬ Paid extractRefFromNftScript 10000 546 r.fee r.tx := by
  have hsizes := singletonTransfer_sizes
  refine ⟨singletonCurve_der, singletonCurve_sized, ?_⟩
  cases h : buildNftTransferTx singletonCurve singletonTransfer with
  | error e =>
    rw [h] at hsizes
    cases hsizes
  | ok r =>
    rw [h] at hsizes
    obtain ⟨hfee, hlen⟩ := Prod.mk.inj (Option.some.inj hsizes)
    refine ⟨r, rfl, fun hpaid => ?_⟩
    obtain ⟨raw, hraw, hcovered⟩ := hpaid.covered
    rw [hraw] at hlen
    have hraw : raw.length = 230 := Option.some.inj hlen
    rw [hfee, hraw] at hcovered
    exact absurd hcovered (by decide)

end Pyrxd.Glyph
