import Pyrxd.Glyph.Ft
import Pyrxd.Glyph.TokenSpend

/-!
# Transfers satisfy what they spend

`build_nft_transfer_tx`, and with it and `FtUtxoSet.build_transfer_tx` the
question whether the inputs of a returned transaction unlock the outputs they
spend. Neither builder looks at whose output that is: an input is satisfied just
when the private key is the owner's (`InputSatisfied`).
-/

namespace Pyrxd.Glyph

open Pyrxd.Lib Pyrxd.Tx Pyrxd.Swap

/-! ## The transfer of a singleton -/

structure TransferParams (Secret : Type) where
  nftUtxoTxid : String
  nftUtxoVout : Int
  nftUtxoValue : Int
  nftScript : Bytes
  newOwnerPkh : Bytes
  privateKey : PrivateKey Secret
  feeRate : Int

structure TransferResult where
  tx : Transaction
  newNftScript : Bytes
  ref : GlyphRef
  fee : Int

variable {Key Secret : Type} (curve : Curve Key Secret)

/-- `_make_input`. -/
def TransferParams.draftInput (p : TransferParams Secret) :
    Except PyErr (DraftInput Secret) :=
  if p.nftUtxoVout < -1 then .error (.other "list index out of range")
  else .ok {
    input := {
      sourceTxid := some p.nftUtxoTxid
      sourceOutputIndex := p.nftUtxoVout
      unlockingScript := none
      sequence := 0xFFFFFFFF
      satoshis := some p.nftUtxoValue
      lockingScript := some p.nftScript
      sighash := sighashAllForkid }
    template := some p.privateKey }

/-- The transaction with one output of this value, signed. -/
def TransferParams.signed (p : TransferParams Secret) (newNftScript : Bytes)
    (value : Int) :
    Except PyErr (Draft Secret) := do
  let input ← p.draftInput
  sign curve ⟨[input], [⟨newNftScript, some value⟩], 1, 0⟩

/-- `build_nft_transfer_tx`. -/
def buildNftTransferTx (p : TransferParams Secret) :
    Except PyErr TransferResult := do
  let ref ← extractRefFromNftScript p.nftScript
  let newNftScript ← buildNftLockingScript p.newOwnerPkh ref
  let trial ← p.signed curve newNftScript p.nftUtxoValue
  let raw ← trial.tx.serialize
  let fee := (raw.length : Int) * p.feeRate
  let outputValue := p.nftUtxoValue - fee
  if outputValue < 546 then
    valueError ("NFT UTXO value (" ++ toString p.nftUtxoValue ++
      ") too small to cover transfer fee (" ++
      toString fee ++ " for " ++ toString raw.length ++ " bytes at " ++
        toString p.feeRate ++
      " photons/byte): output would be " ++ toString outputValue ++
        ", below 546 dust limit.")
  else do
    let final ← p.signed curve newNftScript outputValue
    return { tx := final.tx, newNftScript, ref, fee }

/-! ## Spending -/

/-- What is documented of the curve library, for one private key: the lengths of
a DER signature and of a public key, which is read back, and that a signature
verifies. -/
structure Signs (key : PrivateKey Secret) : Prop where
  signature : ∀ digest, (curve.sign key.secret digest).length ≤ 72
  publicKey : (pushedKey curve key).length = 33 ∨
    (pushedKey curve key).length = 65
  parse : curve.parse (pushedKey curve key) = .ok (curve.publicKey key.secret)
  verify : ∀ digest, curve.verify (curve.publicKey key.secret)
    (curve.sign key.secret digest) digest = .ok true

/-- A key that signs has signatures of the sizes assumed. -/
theorem Signs.sized {curve : Curve Key Secret} {key : PrivateKey Secret}
    (h : Signs curve key) : KeySized curve key :=
  ⟨h.signature, h.publicKey⟩

/-- The chain's view of an input. -/
structure SpendsOut (i : TransactionInput) (s : SpentOut) : Prop where
  txid : txidBytes i.sourceTxid = .ok s.txid
  vout : i.sourceOutputIndex = s.vout
  script : i.lockingScript = some s.out.script
  value : i.satoshis = some s.out.value
  sequence : i.sequence = s.sequence

/-- The chain's view of an output. -/
structure PaysOut (o : TransactionOutput) (out : TxOut) : Prop where
  script : o.lockingScript = out.script
  value : o.satoshis = some out.value

/-- The script of input `k` runs in this transaction, and a signature over all
of it is checked against the preimage. -/
structure SpendsInput (tx : Transaction) (k : Nat) (ctx : SpendCtx) : Prop where
  index : ctx.index = k
  inputs : List.Forall₂ SpendsOut tx.inputs ctx.inputs
  outputs : List.Forall₂ PaysOut tx.outputs ctx.outputs
  version : tx.version = ctx.version
  locktime : tx.locktime = ctx.locktime
  hash160 : ctx.hash160 = curve.hash160
  checkSig : ∀ message publicKey pub der, txPreimage k tx.inputs tx.outputs
    tx.version tx.locktime = .ok message → curve.parse publicKey = .ok pub →
      (ctx.checkSig (der ++ [0x41]) publicKey = true ↔
        curve.verify pub der (hash256 message) = .ok true)

/-- Input `k` unlocks the output it spends. -/
def InputSatisfied (tx : Transaction) (k : Nat) (ctx : SpendCtx) : Prop :=
  ∃ unlocking stack, tx.inputs[k]?.bind TransactionInput.unlockingScript =
    some unlocking ∧
    Machine.run (spendOp ctx) unlocking [] = some stack ∧
    Machine.AcceptsClean (spendOp ctx) ctx.spent.out.script stack

section Signed

variable {curve} {key : PrivateKey Secret} {ctx : SpendCtx} {tx : Transaction}
  {k : Nat} {d d' : Draft Secret}

/-- Two pushes leave what they push. -/
theorem run_pushes {a b : Bytes} (ha : 1 ≤ a.length ∧ a.length ≤ 75)
    (hb : 1 ≤ b.length ∧ b.length ≤ 75) : Machine.run (spendOp ctx)
    (pushBytes a ++ pushBytes b) [] = some [b, a] := by
  have hok : ∀ t ∈ [Chunk.data a, .data b], t.Ok := by
    rw [List.forall_mem_cons, List.forall_mem_cons]
    exact ⟨⟨ha.1, by omega⟩, ⟨hb.1, by omega⟩, List.forall_mem_nil _⟩
  have hstraight : ∀ t ∈ [Chunk.data a, .data b], Machine.Straight t := by
    rw [List.forall_mem_cons, List.forall_mem_cons]
    exact ⟨trivial, trivial, List.forall_mem_nil _⟩
  have hbytes : pushBytes a ++ pushBytes b = assembleCode [.data a,
      .data b] := by
    show _ = pushBytes a ++ (pushBytes b ++ [])
    rw [List.append_nil]
  rw [hbytes, Machine.run_does hok (Machine.does_line hstraight)]
  rfl

/-- **A signed input is satisfied just when the key is the owner's.** -/
theorem satisfied_iff (h : sign curve d = .ok d') {t : DraftInput Secret}
    (ht : d.inputs[k]? = some t)
    (hblank : t.input.unlockingScript = none)
    (hflag : t.input.sighash = sighashAllForkid)
    (htemplate : t.template = some key) (hkey : Signs curve key)
    (hspends : SpendsInput curve d'.tx k ctx)
    (hctx : Regular ctx) {script ref pkh : Bytes}
    {isFt : Bool} (hscript : ctx.spent.out.script = script)
    (hspendable : Spendable script ref pkh isFt)
    (hconserves : isFt = true → Conserves ctx ref) :
    InputSatisfied d'.tx k ctx ↔ curve.hash160 (pushedKey curve key) = pkh := by
  obtain ⟨message, hmessage, hunlocking⟩ :=
    sign_unlocks h ht hblank hflag htemplate hkey.sized
  have hlen : (curve.sign key.secret (hash256 message) ++ [0x41]).length =
      (curve.sign key.secret (hash256 message)).length + 1 := List.length_append
  have hsig := hkey.signature (hash256 message)
  -- the unlocking script leaves signature and key on the stack
  have hrun := @run_pushes ctx (curve.sign key.secret (hash256 message) ++
    [0x41]) (pushedKey curve key) (by omega)
    (by rcases hkey.publicKey with hpub | hpub <;> omega)
  have hvalid : ctx.checkSig (curve.sign key.secret (hash256 message) ++
      [0x41]) (pushedKey curve key) = true :=
    (hspends.checkSig _ _ _ _ hmessage hkey.parse).mpr (hkey.verify _)
  constructor
  · intro hsat
    obtain ⟨unlocking, stack, hu, hstack, haccepts⟩ := hsat
    rw [hunlocking, Option.some.injEq] at hu
    rw [← hu, hrun, Option.some.injEq] at hstack
    rw [← hstack, hscript] at haccepts
    obtain ⟨publicKey, signature, s, hs, hhash, -⟩ :=
      hspendable.byOwnerOnly ctx _ hctx hscript haccepts.accepts
    cases hs
    rw [← hspends.hash160]
    exact hhash
  · intro howner
    refine ⟨_, _, hunlocking, hrun, ?_⟩
    rw [hscript]
    exact hspendable.byOwner ctx _ _ hctx hscript hconserves
      (by rw [hspends.hash160]; exact howner) hvalid

/-- An input spends the output that its draft names. -/
theorem SpendsInput.spends (hspends : SpendsInput curve d'.tx k ctx)
    (h : sign curve d = .ok d')
    {t : DraftInput Secret} (ht : d.inputs[k]? = some t) :
    t.input.lockingScript = some ctx.spent.out.script := by
  obtain ⟨hsame, -⟩ := sign_keeps h
  have hbare := congrArg (·[k]?) hsame.inputs
  simp only [List.getElem?_map, ht, Option.map_some] at hbare
  obtain ⟨t', ht', hbare⟩ := Option.map_eq_some_iff.mp hbare
  have hscript : (bare t'.input).lockingScript =
      (bare t.input).lockingScript := by rw [hbare]
  have hlt : k < d'.tx.inputs.length := by
    show k < (d'.inputs.map DraftInput.input).length
    rw [List.length_map]
    exact (List.getElem?_eq_some_iff.mp ht').1
  have hlt' : k < ctx.inputs.length := hspends.inputs.length_eq ▸ hlt
  have hget := hspends.inputs.get hlt hlt'
  have hinput : d'.tx.inputs.get ⟨k, hlt⟩ = t'.input := by
    have hmap : (d'.inputs.map DraftInput.input)[k]? = some t'.input := by
      rw [List.getElem?_map, ht']
      rfl
    exact (List.getElem?_eq_some_iff.mp hmap).2
  have hspent : ctx.spent = ctx.inputs.get ⟨k, hlt'⟩ := by
    rw [SpendCtx.spent]
    congr 1
    exact Fin.ext hspends.index
  rw [show t.input.lockingScript = t'.input.lockingScript from hscript.symm,
    ← hinput, hspent]
  exact hget.script

end Signed

/-! ## Singletons -/

section NftTransfer

variable {curve} {p : TransferParams Secret} {r : TransferResult}
  {ctx : SpendCtx}

/-- The two passes of a returned transfer. -/
theorem buildNftTransferTx_passes (h : buildNftTransferTx curve p = .ok r) :
    ∃ trial raw final, extractRefFromNftScript p.nftScript = .ok r.ref ∧
      buildNftLockingScript p.newOwnerPkh r.ref = .ok r.newNftScript ∧
      p.signed curve r.newNftScript p.nftUtxoValue = .ok trial ∧
        trial.tx.serialize = .ok raw ∧
      r.fee = raw.length * p.feeRate ∧ 546 ≤ p.nftUtxoValue - r.fee ∧
      p.signed curve r.newNftScript (p.nftUtxoValue - r.fee) = .ok final ∧
        r.tx = final.tx := by
  rw [buildNftTransferTx] at h
  obtain ⟨ref, href, h⟩ := bind_ok.mp h
  obtain ⟨script, hscript, h⟩ := bind_ok.mp h
  obtain ⟨trial, htrial, h⟩ := bind_ok.mp h
  obtain ⟨raw, hraw, h⟩ := bind_ok.mp h
  dsimp only at h
  by_cases hlow : p.nftUtxoValue - (raw.length : Int) * p.feeRate < 546
  · rw [if_pos hlow] at h
    cases h
  · rw [if_neg hlow] at h
    obtain ⟨final, hfinal, h⟩ := bind_ok.mp h
    cases h
    exact ⟨trial, raw, final, href, hscript, htrial, hraw, rfl,
      Int.not_lt.mp hlow, hfinal, rfl⟩

/-- An NFT transfer that returns is a signed draft with one output. -/
theorem buildNftTransferTx_made (h : buildNftTransferTx curve p = .ok r) :
    ∃ script value t final, p.draftInput = .ok t ∧
    sign curve ⟨[t], [⟨script, some value⟩], 1, 0⟩ = .ok final ∧
      r.tx = final.tx := by
  obtain ⟨-, -, final, -, -, -, -, -, -, hfinal, htx⟩ :=
    buildNftTransferTx_passes h
  obtain ⟨t, ht, hsign⟩ := bind_ok.mp hfinal
  exact ⟨_, _, t, final, ht, hsign, htx⟩

/-- The transfer of a singleton unlocks it just when the key is the owner's. -/
theorem nft_transfer_satisfied (hr : buildNftTransferTx curve p = .ok r)
    (hnft : isNftScript (hex p.nftScript) = true)
    (hkey : Signs curve p.privateKey)
    (hspends : SpendsInput curve r.tx 0 ctx) (hctx : Regular ctx) :
    InputSatisfied r.tx 0 ctx ↔
      extractOwnerPkhFromNftScript p.nftScript =
        .ok (curve.hash160 (pushedKey curve p.privateKey)) := by
  obtain ⟨script, value, t, final, ht, hsign, htx⟩ := buildNftTransferTx_made hr
  obtain ⟨ref, pkh, href, hpkh, hframe⟩ := isNftScript_hex.mp hnft
  rw [htx] at hspends ⊢
  unfold TransferParams.draftInput at ht
  split at ht
  · cases ht
  · cases ht
    have hspent := hspends.spends hsign rfl
    rw [Option.some.injEq] at hspent
    rw [satisfied_iff hsign rfl rfl rfl rfl hkey hspends hctx
      (hspent.symm.trans hframe) (nft_spendable href hpkh) nofun,
      extractOwnerPkhFromNftScript_ok, hframe, between_nft_pkh href hpkh]
    refine ⟨fun howner => ⟨⟨?_, rfl⟩, howner⟩, fun h => h.2⟩
    simp only [nftFrame, List.length_append, href, hpkh]
    rfl

end NftTransfer

/-! ## Fungible tokens -/

section FtTransfer

variable {curve} {ctx : SpendCtx} {tx : Transaction} {ref pkh : Bytes}

/-- The outputs as the interpreter sees them carry the same values. -/
theorem paysOut_sum {outs : List TransactionOutput} {l : List TxOut}
    (h : List.Forall₂ PaysOut outs l) :
    (l.map TxOut.value).sum = (outs.map fun o => o.satoshis.getD 0).sum := by
  induction h with
  | nil => rfl
  | cons hpays _ ih =>
    rw [List.map_cons, List.map_cons, List.sum_cons, List.sum_cons,
      ih, hpays.value]
    rfl

theorem spendsOut_sum {ins : List TransactionInput} {l : List SpentOut}
    (h : List.Forall₂ SpendsOut ins l) :
    ((l.map SpentOut.out).map TxOut.value).sum =
      (ins.map fun i => i.satoshis.getD 0).sum := by
  induction h with
  | nil => rfl
  | cons hspends _ ih =>
    rw [List.map_cons, List.map_cons, List.map_cons, List.sum_cons,
      List.sum_cons, ih, hspends.value]
    rfl

/-- What holds of one side of related pairs holds of the other. -/
theorem forall_mem_right {α β : Type} {R : α → β → Prop} {P : α → Prop}
    {Q : β → Prop} {l : List α} {m : List β}
    (h : List.Forall₂ R l m) (hstep : ∀ a b, R a b → P a → Q b)
    (hl : ∀ a ∈ l, P a) : ∀ b ∈ m, Q b := by
  induction h with
  | nil => exact List.forall_mem_nil _
  | cons hab _ ih =>
    rw [List.forall_mem_cons] at hl ⊢
    exact ⟨hstep _ _ hab hl.1, ih hl.2⟩

/-- A token script of this ref. -/
def FtOf (ref script : Bytes) : Prop := ∃ pkh, pkh.length = 20 ∧
  script = ftFrame pkh ref

/-- All FT scripts of one token share their code. -/
theorem FtOf.codeScript {script script' : Bytes} (href : ref.length = 36)
    (h : FtOf ref script)
    (h' : FtOf ref script') : codeScript script = codeScript script' := by
  obtain ⟨pkh, hpkh, rfl⟩ := h
  obtain ⟨pkh', hpkh', rfl⟩ := h'
  rw [codeScript_ft href hpkh, codeScript_ft href hpkh']

/-- A transaction all of whose outputs are of one token, and no dearer than its
inputs, conserves it. -/
theorem conserves_of_ft (href : ref.length = 36)
    (hspent : FtOf ref ctx.spent.out.script)
    (hins : ∀ i ∈ ctx.inputs, FtOf ref i.out.script)
    (houts : ∀ o ∈ ctx.outputs, FtOf ref o.script)
    (hvalue : (ctx.outputs.map TxOut.value).sum ≤
      ((ctx.inputs.map SpentOut.out).map TxOut.value).sum) :
    Conserves ctx ref := by
  refine ⟨fun o ho _ => (houts o ho).codeScript href hspent, ?_⟩
  have hall : ∀ l : List TxOut, (∀ o ∈ l, FtOf ref o.script) →
      unitsOf ctx l = (l.map TxOut.value).sum := by
    intro l hl
    rw [unitsOf, List.filter_eq_self.mpr]
    intro o ho
    exact decide_eq_true ((hl o ho).codeScript href hspent)
  rw [hall _ houts, hall]
  · exact hvalue
  · intro o ho
    obtain ⟨i, hi, rfl⟩ := List.mem_map.mp ho
    exact hins i hi

/-- A checked FT UTXO is an FT script of that token. -/
theorem FtUtxo.check_ref {u : FtUtxo} {r : GlyphRef} (h : u.check r = .ok ()) :
    isFtScript (hex u.ftScript) = true ∧
    extractRefFromFtScript u.ftScript = .ok r := by
  unfold FtUtxo.check at h
  obtain ⟨-, h⟩ := refuseIf_bind_ok.mp h
  obtain ⟨-, h⟩ := refuseIf_bind_ok.mp h
  dsimp only at h
  obtain ⟨hft, h⟩ := refuseIf_bind_ok.mp h
  obtain ⟨r', hr', h⟩ := bind_ok.mp h
  rw [← not_not.mp (refuseIf_ok.mp h)]
  exact ⟨Bool.of_not_eq_false hft, hr'⟩

/-- A UTXO of a set carries its ref. -/
theorem FtUtxo.check_ok {u : FtUtxo} {r : GlyphRef} (h : u.check r = .ok ()) :
    ∃ ref, ref.length = 36 ∧ r.toBytes = .ok ref ∧ FtOf ref u.ftScript := by
  obtain ⟨hft, hr⟩ := FtUtxo.check_ref h
  obtain ⟨pkh, ref, hpkh, href, hframe⟩ := isFtScript_hex.mp hft
  obtain ⟨-, hwire⟩ := extractRefFromFtScript_ok.mp hr
  rw [hframe, between_ft_ref hpkh href] at hwire
  exact ⟨ref, href, GlyphRef.Spelled.toBytes hwire, pkh, hpkh, hframe⟩

/-- The outputs share out what the fee leaves. -/
theorem makeOutputs_sum {newFtScript : Bytes} {changeFtScript : Option Bytes}
    {total fee dust : Int} :
    ((makeOutputs newFtScript changeFtScript
      (total - fee - if changeFtScript.isSome then dust else 0) dust).map
      fun o => o.satoshis.getD 0).sum = total - fee := by
  cases changeFtScript with
  | none =>
    show total - fee - 0 + 0 = total - fee
    omega
  | some script =>
    show total - fee - dust + (dust + 0) = total - fee
    omega

/-- A draft input spends its UTXO, unsigned and under the fork's flag. -/
theorem draftInput_script {key : PrivateKey Secret} {u : FtUtxo}
    {t : DraftInput Secret}
    (h : u.draftInput key = .ok t) : t.input.lockingScript = some u.ftScript ∧
    t.input.unlockingScript = none ∧ t.input.sighash = sighashAllForkid ∧
    t.template = some key := by
  unfold FtUtxo.draftInput at h
  split at h
  · cases h
  · cases h
    exact ⟨rfl, rfl, rfl, rfl⟩

/-- The inputs of a signed transfer spend the token scripts it was given. -/
theorem signedTransfer_scripts {key : PrivateKey Secret}
    {selected : List FtUtxo} {outputs : List TransactionOutput}
    {d : Draft Secret} (h : signedTransfer curve key selected outputs = .ok d) :
    ∀ i ∈ d.tx.inputs, ∃ u ∈ selected, i.lockingScript = some u.ftScript := by
  intro i hi
  obtain ⟨inputs, hinputs, hsign⟩ := bind_ok.mp h
  obtain ⟨t', ht', rfl⟩ := List.mem_map.mp hi
  have hmem : bare t'.input ∈ inputs.map fun t => bare t.input := by
    rw [← (sign_keeps hsign).1.inputs]
    exact List.mem_map_of_mem ht'
  obtain ⟨t, ht, hbare⟩ := List.mem_map.mp hmem
  obtain ⟨u, hu, hdraft⟩ := mapM_mem hinputs ht
  refine ⟨u, hu, ?_⟩
  have hscript := congrArg TransactionInput.lockingScript hbare
  exact Eq.trans hscript.symm (draftInput_script hdraft).1

/-- The scripts of the outputs of a transfer are those of its set's token. -/
theorem makeOutputs_scripts {newFtScript : Bytes}
    {changeFtScript : Option Bytes}
    {transferValue changeValue : Int} (hnew : FtOf ref newFtScript)
    (hchange : ∀ script, changeFtScript = some script → FtOf ref script) :
    ∀ o ∈ makeOutputs newFtScript changeFtScript transferValue changeValue,
      FtOf ref o.lockingScript := by
  cases changeFtScript with
  | none =>
    intro o ho
    rw [List.mem_singleton.mp ho]
    exact hnew
  | some script =>
    intro o ho
    rcases List.mem_cons.mp ho with rfl | ho
    · exact hnew
    · rw [List.mem_singleton.mp ho]
      exact hchange script rfl

/-- A token script for the set's ref. -/
theorem ftOf_built {script : Bytes} {r : GlyphRef} (hwire : r.toBytes = .ok ref)
    (h : buildFtLockingScript pkh r = .ok script) : FtOf ref script := by
  obtain ⟨hpkh, data, hdata, hscript⟩ := buildFtLockingScript_ok.mp h
  rw [hwire, Except.ok.injEq] at hdata
  exact ⟨pkh, hpkh, by rw [hscript, hdata]⟩

/-- Every input of a returned transfer of a token unlocks what it spends just
when the key is the owner's. -/
theorem ft_transfer_satisfied {s : FtUtxoSet} {amount : Int}
    {newOwnerPkh : Bytes} {key : PrivateKey Secret}
    {feeRate : Int} {changePkh : Option Bytes} {dustLimit : Int}
    {r : FtTransferResult} {k : Nat}
    (hr : s.buildTransferTx curve amount newOwnerPkh key feeRate changePkh
      dustLimit = .ok r)
    (hkey : Signs curve key) (hspends : SpendsInput curve r.tx k ctx)
    (hctx : Regular ctx) :
    InputSatisfied r.tx k ctx ↔
      extractOwnerPkhFromFtScript ctx.spent.out.script =
        .ok (curve.hash160 (pushedKey curve key)) := by
  obtain ⟨selected, sender, final, hsel, -, hfee, hnew, hchange, hfinal, htx⟩ :=
    FtUtxoSet.buildTransferTx_made hr
  obtain ⟨houts, hunits⟩ := FtUtxoSet.signedTransfer_ok hfinal
  have hins := signedTransfer_scripts hfinal
  rw [htx] at hspends ⊢
  obtain ⟨inputs, hinputs, hsign⟩ := bind_ok.mp hfinal
  obtain ⟨-, ref, hwire, -⟩ := buildFtLockingScript_ok.mp hnew
  have href := (glyphRef_wire hwire).1
  -- the set's ref, on the wire, stands in the scripts of the inputs and of the
  -- outputs
  have hselected : ∀ u ∈ selected, FtOf ref u.ftScript := by
    intro u hu
    obtain ⟨ref', -, hwire', hft⟩ :=
      FtUtxo.check_ok (s.valid u (FtUtxoSet.mem_select hsel u hu))
    rw [hwire, Except.ok.injEq] at hwire'
    rw [hwire']
    exact hft
  have hspent : ∀ i ∈ ctx.inputs, FtOf ref i.out.script := by
    refine forall_mem_right hspends.inputs (fun i out hout hi => ?_) hins
    obtain ⟨u, hu, hscript⟩ := hi
    rw [hout.script, Option.some.injEq] at hscript
    rw [hscript]
    exact hselected u hu
  have houtput : ∀ o ∈ final.tx.outputs, FtOf ref o.lockingScript := by
    rw [houts]
    exact makeOutputs_scripts (ftOf_built hwire hnew) fun script hs =>
      ftOf_built hwire (hchange script hs)
  have hpaid : ∀ o ∈ ctx.outputs, FtOf ref o.script := by
    refine forall_mem_right hspends.outputs (fun o out hout ho => ?_) houtput
    rw [← hout.script]
    exact ho
  have hvalue : (ctx.outputs.map TxOut.value).sum ≤
      ((ctx.inputs.map SpentOut.out).map TxOut.value).sum := by
    rw [paysOut_sum hspends.outputs, spendsOut_sum hspends.inputs, houts,
      makeOutputs_sum]
    have hin : (final.tx.inputs.map fun i => i.satoshis.getD 0).sum =
        (selected.map FtUtxo.value).sum := hunits
    omega
  -- the input in question
  have hlt : k < inputs.length := by
    have hhere := ctx.here
    rw [hspends.index, ← hspends.inputs.length_eq] at hhere
    have hsame := congrArg List.length (sign_keeps hsign).1.inputs
    rw [List.length_map, List.length_map] at hsame
    rw [← hsame]
    have hmap : final.tx.inputs.length = final.inputs.length :=
      List.length_map _
    omega
  obtain ⟨u, hu, hdraft⟩ := mapM_mem hinputs (List.getElem_mem hlt)
  obtain ⟨hscript, hblank, hflag, htemplate⟩ := draftInput_script hdraft
  have ht : inputs[k]? = some inputs[k] := List.getElem?_eq_getElem hlt
  have hhere := hspends.spends hsign ht
  rw [hscript, Option.some.injEq] at hhere
  obtain ⟨pkh, hpkh, hframe⟩ := hselected u hu
  have hframe : ctx.spent.out.script = ftFrame pkh ref :=
    hhere.symm.trans hframe
  have hconserves : Conserves ctx ref :=
    conserves_of_ft href ⟨pkh, hpkh, hframe⟩ hspent hpaid hvalue
  rw [satisfied_iff hsign ht hblank hflag htemplate hkey hspends hctx hframe
    (ft_spendable href hpkh) fun _ => hconserves,
    extractOwnerPkhFromFtScript_ok, hframe, between_ft_pkh hpkh]
  refine ⟨fun howner => ⟨⟨length_ftFrame hpkh href,
    fits_ft.mpr ⟨pkh, ref, hpkh, href, rfl⟩⟩, howner⟩, fun h => h.2⟩

end FtTransfer

/-! ## Main theorem -/

/-- **Whose token it is.** A token script of a builder is its owner's to spend,
and nobody else's, just when it holds no child; and an input of a returned
transfer unlocks the token it spends just when the private key is its
owner's. -/
theorem token_owner_iff (lib : Cbor2) (printable : Char → Bool)
    (curve : Curve Key Secret) (key : PrivateKey Secret)
    (hkey : Signs curve key) :
    (∀ script ref pkh isFt child,
      TokenOutput lib printable script ref pkh isFt child →
      (Spendable script ref pkh isFt ↔ child = none)) ∧
    (∀ (p : TransferParams Secret) r ctx, p.privateKey = key →
      buildNftTransferTx curve p = .ok r →
      isNftScript (hex p.nftScript) = true →
        SpendsInput curve r.tx 0 ctx → Regular ctx →
        (InputSatisfied r.tx 0 ctx ↔
          extractOwnerPkhFromNftScript p.nftScript =
            .ok (curve.hash160 (pushedKey curve key)))) ∧
    ∀ (s : FtUtxoSet) amount newOwnerPkh feeRate changePkh dustLimit r k ctx,
      s.buildTransferTx curve amount newOwnerPkh key feeRate changePkh
        dustLimit = .ok r →
        SpendsInput curve r.tx k ctx → Regular ctx →
          (InputSatisfied r.tx k ctx ↔
            extractOwnerPkhFromFtScript ctx.spent.out.script =
              .ok (curve.hash160 (pushedKey curve key))) := by
  refine ⟨fun script ref pkh isFt child h => h.spendable_iff, ?_, ?_⟩
  · intro p r ctx hp hr hnft hspends hctx
    subst hp
    exact nft_transfer_satisfied hr hnft hkey hspends hctx
  · intro s amount newOwnerPkh feeRate changePkh dustLimit r k ctx
      hr hspends hctx
    exact ft_transfer_satisfied hr hkey hspends hctx

/-! ## A transfer and a container -/

open FtUtxoSet (ownerCurve ownerSignature sampleTransfer sampleToken
  sampleTokenWire sampleToken_spelled)

theorem ownerCurve_signs : Signs ownerCurve ⟨(), true⟩ where
  signature := FtUtxoSet.ownerCurve_sized.signature
  publicKey := FtUtxoSet.ownerCurve_sized.publicKey
  parse := rfl
  verify := by
    intro digest
    show Except.ok (decide (takerPublicKey = takerPublicKey ∧
      ownerSignature = ownerSignature)) = _
    rw [decide_eq_true ⟨rfl, rfl⟩]

/-- What the chain sees of the sample transfer. -/
def sampleSpend : SpendCtx where
  locktime := 0
  requireMinimal := true
  version := 1
  inputs := [⟨List.replicate 32 9, 0, ⟨2410546,
    ftFrame takerPkh sampleTokenWire, by decide⟩, 0xFFFFFFFF, by decide⟩]
  outputs := [⟨546, ftFrame makerPkh sampleTokenWire, TxOut.dust_inRange⟩]
  index := 0
  here := Nat.zero_lt_one
  counted := ⟨Nat.one_lt_two_pow (by decide), Nat.one_lt_two_pow (by decide)⟩
  hash160 := ownerCurve.hash160
  checkSig := fun signature key => decide (key = takerPublicKey ∧
    signature = ownerSignature ++ [0x41])

/-- The sample spend is a regular context. -/
theorem sampleSpend_regular : Regular sampleSpend where
  spent := by
    show (2410546 : Int) + 0 < 2 ^ 63
    decide
  paid := by
    show (546 : Int) + 0 < 2 ^ 63
    decide
  keys := by
    intro signature key h
    rw [(of_decide_eq_true h).1]
    exact .inl rfl
  collision := by
    intro o ho _
    rw [List.mem_singleton.mp ho]
    exact @FtOf.codeScript sampleTokenWire _ _ rfl ⟨makerPkh, rfl,
      rfl⟩ ⟨takerPkh, rfl, rfl⟩

theorem sampleSpend_spends : ∃ r, sampleTransfer = .ok r ∧
    SpendsInput ownerCurve r.tx 0 sampleSpend := by
  obtain ⟨final, hfinal, hr⟩ := FtUtxoSet.sampleTransfer_built
  refine ⟨_, hr, ?_⟩
  have htx := sign_bareTx hfinal FtUtxoSet.sampleDraft_blank
  have hins : final.tx.inputs.map bare =
    [⟨some (hex (List.replicate 32 9)), 0, none, 0xFFFFFFFF, some 2410546,
    some (ftFrame takerPkh sampleTokenWire), sighashAllForkid⟩] :=
      congrArg Transaction.inputs htx
  have houts : final.tx.outputs = [⟨ftFrame makerPkh sampleTokenWire,
      some 546⟩] := congrArg Transaction.outputs htx
  have hversion : final.tx.version = 1 := congrArg Transaction.version htx
  have hlocktime : final.tx.locktime = 0 := congrArg Transaction.locktime htx
  obtain ⟨i, hi, hbare⟩ := List.map_eq_singleton_iff.mp hins
  refine ⟨rfl, ?_, ?_, hversion, hlocktime, rfl, ?_⟩
  · rw [hi]
    refine .cons ⟨?_, ?_, ?_, ?_, ?_⟩ .nil
    · have htxid : (bare i).sourceTxid =
          some (hex (List.replicate 32 9)) := by rw [hbare]
      rw [show i.sourceTxid = some (hex (List.replicate 32 9)) from htxid]
      decide
    · exact congrArg TransactionInput.sourceOutputIndex hbare
    · exact congrArg TransactionInput.lockingScript hbare
    · exact congrArg TransactionInput.satoshis hbare
    · exact congrArg TransactionInput.sequence hbare
  · rw [houts]
    exact .cons ⟨rfl, rfl⟩ .nil
  · intro message publicKey pub der _ hparse
    have hpub : publicKey = takerPublicKey ∧ pub = takerPublicKey := by
      change (if publicKey = takerPublicKey then Except.ok publicKey else _) =
        Except.ok pub at hparse
      split at hparse
      · next hkey =>
        cases hparse
        exact ⟨hkey, hkey⟩
      · cases hparse
    obtain ⟨rfl, rfl⟩ := hpub
    show decide (takerPublicKey = takerPublicKey ∧
      der ++ [0x41] = ownerSignature ++ [0x41]) = true ↔
      Except.ok (decide (takerPublicKey = takerPublicKey ∧
        der = ownerSignature)) = Except.ok true
    rw [decide_eq_true_iff, Except.ok.injEq, decide_eq_true_iff,
      List.append_left_inj]

/-- The sample transfer is its owner's, who may make it. -/
theorem token_owner_iff_sample : ∃ r, sampleTransfer = .ok r ∧
    InputSatisfied r.tx 0 sampleSpend := by
  obtain ⟨r, hr, hspends⟩ := sampleSpend_spends
  refine ⟨r, hr, ?_⟩
  obtain ⟨-, -, h⟩ := token_owner_iff (knownPayload [] .none "")
    (fun _ => true) ownerCurve ⟨(), true⟩ ownerCurve_signs
  exact (h _ _ _ _ _ _ r 0 sampleSpend hr hspends sampleSpend_regular).mpr
    (extractOwnerPkhFromFtScript_ok.mpr ⟨⟨rfl,
      fits_ft.mpr ⟨takerPkh, sampleTokenWire, rfl, rfl, rfl⟩⟩, rfl⟩)

/-- `{"p": [2, 7]}`. -/
def containerPayload : Bytes := [0xA1, 0x61, 0x70, 0x82, 0x02, 0x07]

def containerData : Cbor := .map [(.text "p", .list [.int 2, .int 7])]

/-- **A container with a child is nobody's to spend.** -/
theorem container_with_child_stuck : ∃ c, prepareContainerReveal
    (knownPayload containerPayload containerData "[2, 7]") commitTxid 0
    containerPayload samplePkh (some (.ofGlyphRef sampleToken)) = .ok c ∧
    (∀ ctx stack, Regular ctx →
      ¬ Machine.Accepts (spendOp ctx) c.lockingScript stack) ∧
    ¬ Spendable c.lockingScript commitRefBytes samplePkh false := by
  have href : (⟨commitTxid, 0, by decide⟩ : CommitRef).toBytes =
      .ok commitRefBytes := by decide
  have hmake : CommitRef.make commitTxid 0 = .ok ⟨commitTxid,
      0, by decide⟩ := rfl
  have hcheck : tokenCheck (knownPayload containerPayload containerData
      "[2, 7]") containerPayload "CONTAINER" containerProtocol =
      .ok () := by decide
  have hchild : (CommitRef.ofGlyphRef sampleToken).toBytes =
      .ok sampleTokenWire :=
    GlyphRef.Spelled.toBytes sampleToken_spelled
  have hscript : containerScript (some (.ofGlyphRef sampleToken))
      (nftFrame commitRefBytes samplePkh) =
      .ok (0xD0 :: sampleTokenWire ++ nftFrame commitRefBytes samplePkh) := by
    rw [containerScript, hchild]
    rfl
  refine ⟨⟨⟨commitTxid, 0, by decide⟩, 0xD0 :: sampleTokenWire ++
    nftFrame commitRefBytes samplePkh,
    0x03 :: glyMarker ++ (6 :: containerPayload),
      some (.ofGlyphRef sampleToken)⟩, ?_, ?_, ?_⟩
  · rw [prepareContainerReveal, hcheck, ok_bind, hmake, ok_bind,
      nftScriptOf_ok.mpr ⟨rfl, commitRefBytes, href, rfl, rfl⟩,
      ok_bind, hscript]
    rfl
  · intro ctx stack hctx
    exact container_dead rfl rfl rfl hctx
  · exact container_not_spendable rfl rfl rfl

end Pyrxd.Glyph
