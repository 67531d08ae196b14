import Pyrxd.Glyph.ScriptExact
import Pyrxd.Glyph.SignedSize

/-!
# Fungible token transfers

`FtUtxoSet` of `glyph/ft.py`: token UTXOs of one ref, the greedy selection and
`build_transfer_tx`. The class keeps two sums apart, token units (`ft_amount`)
and photons (`value`), and conserves the first; the outputs it builds carry
photons only, what is left of them after the fee and, for the change, the dust
limit. On chain a photon of an FT output is a token unit, so an output's photons
are the tokens it carries.

`transfer_never_exact`: since the fee is paid out of the token inputs, what the
outputs carry is never the amount asked for and the rest.
-/

namespace Pyrxd.Glyph

open Pyrxd.Lib Pyrxd.Tx Pyrxd.Swap

/-- `raise ValueError(msg)`. -/
def valueError {α : Type} (msg : String) : Except PyErr α := .error (.other msg)

structure FtUtxo where
  txid : String
  vout : Int
  value : Int
  ftAmount : Int
  ftScript : Bytes

/-- What `FtUtxoSet.__init__` checks of one UTXO. -/
def FtUtxo.check (ref : GlyphRef) (u : FtUtxo) : Except PyErr Unit := do
  refuseIf (u.ftAmount < 0) "ft_amount must be >= 0"
  refuseIf (u.value < 0) "value must be >= 0"
  let place := "UTXO " ++ u.txid ++ ":" ++ toString u.vout
  refuseIf (isFtScript (hex u.ftScript) = false)
    (place ++ " ft_script is not a valid 75-byte FT locking script. " ++
      "FT transfers can only spend FT UTXOs (script: 76a914<pkh>88ac bdd0 <ref:36> " ++
      "dec0e9aa76e378e4a269e69d). Spending a plain P2PKH UTXO and producing an FT " ++
      "output violates ref conservation and will be rejected by the network.")
  let inputRef ← extractRefFromFtScript u.ftScript
  refuseIf (inputRef ≠ ref)
    (place ++ " carries ref " ++ inputRef.repr ++
      " which differs from the set's ref " ++ ref.repr)

structure FtUtxoSet where
  ref : GlyphRef
  utxos : List FtUtxo
  valid : ∀ u ∈ utxos, u.check ref = .ok ()

namespace FtUtxoSet

def total (s : FtUtxoSet) : Int := (s.utxos.map FtUtxo.ftAmount).sum

/-- The order of `key=lambda u: (-u.ft_amount, -u.value)`. -/
def before (a b : FtUtxo) : Prop :=
  b.ftAmount < a.ftAmount ∨ (a.ftAmount = b.ftAmount ∧ b.value ≤ a.value)

instance (a b : FtUtxo) : Decidable (before a b) :=
  inferInstanceAs (Decidable (_ ∨ _))

/-- The loop of `select`. -/
def takeCovering (amount : Int) : Int → List FtUtxo → List FtUtxo
  | _, [] => []
  | running, u :: rest =>
    if running + u.ftAmount ≥ amount then [u]
    else u :: takeCovering amount (running + u.ftAmount) rest

def select (s : FtUtxoSet) (amount : Int) : Except PyErr (List FtUtxo) :=
  if amount ≤ 0 then valueError ("amount must be > 0, got " ++ toString amount)
  else if s.total < amount then
    valueError ("Insufficient FT balance: requested " ++ toString amount ++
      ", have " ++ toString s.total)
  else .ok (takeCovering amount 0 (s.utxos.insertionSort before))

end FtUtxoSet

structure FtTransferResult where
  tx : Transaction
  newFtScript : Bytes
  changeFtScript : Option Bytes
  ref : GlyphRef
  fee : Int

variable {Key Secret : Type} (curve : Curve Key Secret)

/-- One of `_make_inputs`. The shim's output is looked up by the UTXO's own
index. -/
def FtUtxo.draftInput (key : PrivateKey Secret) (u : FtUtxo) :
    Except PyErr (DraftInput Secret) :=
  if u.vout < -1 then .error (.other "list index out of range")
  else .ok {
    input := {
      sourceTxid := some u.txid
      sourceOutputIndex := u.vout
      unlockingScript := none
      sequence := 0xFFFFFFFF
      satoshis := some u.value
      lockingScript := some u.ftScript
      sighash := sighashAllForkid }
    template := some key }

/-- `_make_outputs`. -/
def makeOutputs (newFtScript : Bytes) (changeFtScript : Option Bytes)
    (transferValue changeValue : Int) :
    List TransactionOutput :=
  ⟨newFtScript, some transferValue⟩ ::
    match changeFtScript with
    | none => []
    | some script => [⟨script, some changeValue⟩]

/-- `Transaction(tx_inputs=_make_inputs(), tx_outputs=outputs)`, signed. -/
def signedTransfer (key : PrivateKey Secret) (selected : List FtUtxo)
    (outputs : List TransactionOutput) :
    Except PyErr (Draft Secret) := do
  let inputs ← selected.mapM (FtUtxo.draftInput key)
  sign curve ⟨inputs, outputs, 1, 0⟩

namespace FtUtxoSet

/-- `build_transfer_tx`. -/
def buildTransferTx (s : FtUtxoSet) (amount : Int) (newOwnerPkh : Bytes)
    (key : PrivateKey Secret)
    (feeRate : Int) (changePkh : Option Bytes) (dustLimit : Int) :
    Except PyErr FtTransferResult :=
  if amount ≤ 0 then valueError ("amount must be > 0, got " ++ toString amount)
  else if feeRate ≤ 0 then valueError ("fee_rate must be > 0, got " ++
    toString feeRate)
  else if dustLimit < 1 then valueError ("dust_limit must be >= 1, got " ++
    toString dustLimit)
  else do
    let selected ← s.select amount
    let ftInTotal := (selected.map FtUtxo.ftAmount).sum
    let ftChange := ftInTotal - amount
    refuseIf (ftChange < 0) ("FT conservation invariant violated: in=" ++
      toString ftInTotal ++ ", out=" ++
      toString amount ++ ", change=" ++ toString ftChange ++
        " (negative change means inputs insufficient)")
    let senderPkh ← hex20 (changePkh.getD (curve.hash160
      (curve.format (curve.publicKey key.secret) key.compressed)))
    let newFtScript ← buildFtLockingScript newOwnerPkh s.ref
    let changeFtScript ← (
      if ftChange > 0 then do
        let script ← buildFtLockingScript senderPkh s.ref
        return some script
      else .ok none)
    let rxdInTotal := (selected.map FtUtxo.value).sum
    let trial ← signedTransfer curve key selected
      (makeOutputs newFtScript changeFtScript dustLimit dustLimit)
    let raw ← trial.tx.serialize
    let fee := (raw.length : Int) * feeRate
    let changeAlloc := if changeFtScript.isSome then dustLimit else 0
    let transferValue := rxdInTotal - fee - changeAlloc
    if transferValue < dustLimit then
      valueError ("Insufficient RXD from FT inputs (" ++ toString rxdInTotal ++
        " photons) to cover fee (" ++ toString fee ++ " for " ++ toString
        raw.length ++ " bytes at " ++ toString feeRate ++ " ph/B) + " ++
        (if changeFtScript.isSome then "2" else "1") ++ "x dust_limit (" ++
          toString dustLimit ++
        "): transfer output would be " ++ toString transferValue ++ " photons.")
    else do
      let final ← signedTransfer curve key selected
        (makeOutputs newFtScript changeFtScript transferValue dustLimit)
      return { tx := final.tx, newFtScript, changeFtScript, ref := s.ref, fee }

/-! ## What a transfer carries -/

/-- The token units a transaction spends, by the photons of its inputs. -/
def unitsIn (tx : Transaction) : Int :=
  (tx.inputs.map fun i => i.satoshis.getD 0).sum

/-- The recipient's output carries `amount` units, and a change output, there if
and only if more was spent, carries the rest. -/
structure TransferExact (amount : Int) (r : FtTransferResult) : Prop where
  recipient : r.tx.outputs.head? = some ⟨r.newFtScript, some amount⟩
  change : ∃ script, r.tx.outputs.tail =
    if unitsIn r.tx > amount then [⟨script, some (unitsIn r.tx - amount)⟩]
      else []

variable {curve}

/-- The selection takes from the list it is given. -/
theorem mem_takeCovering {amount : Int} {u : FtUtxo} {l : List FtUtxo} :
    ∀ {running : Int},
    u ∈ takeCovering amount running l → u ∈ l := by
  induction l with
  | nil => intro running h; exact h
  | cons v l ih =>
    intro running h
    rw [takeCovering] at h
    split at h
    · rw [List.mem_singleton.mp h]
      exact List.mem_cons_self
    · rcases List.mem_cons.mp h with rfl | h
      · exact List.mem_cons_self
      · exact List.mem_cons_of_mem _ (ih h)

/-- Only UTXOs of the set are selected. -/
theorem mem_select {s : FtUtxoSet} {amount : Int} {selected : List FtUtxo}
    (h : s.select amount = .ok selected) :
    ∀ u ∈ selected, u ∈ s.utxos := by
  unfold select at h
  split at h
  · cases h
  · split at h
    · cases h
    · cases h
      intro u hu
      exact (List.mem_insertionSort _).mp (mem_takeCovering hu)

/-- The draft's inputs are worth what the chosen UTXOs are. -/
theorem draftInput_satoshis {key : PrivateKey Secret} {selected : List FtUtxo} :
    ∀ {inputs : List (DraftInput Secret)}, selected.mapM
      (FtUtxo.draftInput key) = .ok inputs →
      inputs.map (fun t => t.input.satoshis) = selected.map fun u =>
        some u.value := by
  induction selected with
  | nil =>
    intro inputs h
    cases h
    rfl
  | cons u selected ih =>
    intro inputs h
    rw [List.mapM_cons] at h
    obtain ⟨t, ht, h⟩ := bind_ok.mp h
    obtain ⟨rest, hrest, h⟩ := bind_ok.mp h
    cases h
    unfold FtUtxo.draftInput at ht
    split at ht
    · cases ht
    · cases ht
      rw [List.map_cons, List.map_cons, ih hrest]

/-- A signed transfer has the outputs it was given and spends the UTXOs'
photons. -/
theorem signedTransfer_ok {key : PrivateKey Secret} {selected : List FtUtxo}
    {outputs : List TransactionOutput}
    {d : Draft Secret} (h : signedTransfer curve key selected outputs = .ok d) :
    d.tx.outputs = outputs ∧
      unitsIn d.tx = (selected.map FtUtxo.value).sum := by
  unfold signedTransfer at h
  obtain ⟨inputs, hin, h⟩ := bind_ok.mp h
  obtain ⟨hsame, -⟩ := sign_keeps h
  refine ⟨hsame.outputs, ?_⟩
  have hsat : ∀ l : List (DraftInput Secret),
      (l.map DraftInput.input).map (fun i => i.satoshis.getD 0) =
      (l.map fun t => bare t.input).map fun i => i.satoshis.getD 0 := by
    intro l
    rw [List.map_map, List.map_map]
    rfl
  have hvalues : (inputs.map fun t => bare t.input).map
      (fun i => i.satoshis.getD 0) =
      selected.map FtUtxo.value := by
    have hmap := congrArg (List.map fun o : Option Int => o.getD 0)
      (draftInput_satoshis hin)
    rw [List.map_map, List.map_map] at hmap
    rw [List.map_map]
    exact hmap
  rw [unitsIn, Draft.tx, hsat, hsame.inputs, hvalues]

/-- No transaction serialises to nothing. -/
theorem serialize_pos {t : Transaction} {raw : Bytes}
    (h : t.serialize = .ok raw) : 0 < raw.length := by
  unfold Transaction.serialize at h
  obtain ⟨version, hversion, h⟩ := bind_ok.mp h
  obtain ⟨nIn, -, h⟩ := bind_ok.mp h
  obtain ⟨inputs, -, h⟩ := bind_ok.mp h
  obtain ⟨nOut, -, h⟩ := bind_ok.mp h
  obtain ⟨outputs, -, h⟩ := bind_ok.mp h
  obtain ⟨locktime, -, h⟩ := bind_ok.mp h
  cases h
  have hlen : version.length = 4 := (toBytesLe_ok hversion).1
  simp only [List.length_append]
  omega

/-- The two passes of a returned transfer. -/
theorem buildTransferTx_passes {s : FtUtxoSet} {amount : Int} {pkh : Bytes}
    {key : PrivateKey Secret} {feeRate : Int} {changePkh : Option Bytes}
    {dustLimit : Int} {r : FtTransferResult}
    (h : s.buildTransferTx curve amount pkh key feeRate changePkh dustLimit =
      .ok r) :
    ∃ selected sender trial raw final, s.select amount = .ok selected ∧
      amount ≤ (selected.map FtUtxo.ftAmount).sum ∧ 0 < amount ∧ 0 < feeRate ∧
      hex20 (changePkh.getD (curve.hash160
        (curve.format (curve.publicKey key.secret) key.compressed))) =
        .ok sender ∧ buildFtLockingScript pkh s.ref = .ok r.newFtScript ∧
      (if (selected.map FtUtxo.ftAmount).sum - amount > 0 then do
        let script ← buildFtLockingScript sender s.ref
        return some script
      else .ok none) = .ok r.changeFtScript ∧
      signedTransfer curve key selected (makeOutputs r.newFtScript
        r.changeFtScript dustLimit dustLimit) = .ok trial ∧
      trial.tx.serialize = .ok raw ∧ r.fee = raw.length * feeRate ∧
      dustLimit ≤ (selected.map
        FtUtxo.value).sum - r.fee - (if r.changeFtScript.isSome then dustLimit
        else 0) ∧
      signedTransfer curve key selected
        (makeOutputs r.newFtScript r.changeFtScript
        ((selected.map FtUtxo.value).sum - r.fee - if r.changeFtScript.isSome then dustLimit
          else 0) dustLimit) = .ok final ∧
      r.tx = final.tx := by
  unfold buildTransferTx at h
  split at h
  · cases h
  next hamount =>
    split at h
    · cases h
    next hrate =>
      split at h
      · cases h
      obtain ⟨selected, hsel, h⟩ := bind_ok.mp h
      obtain ⟨hchange, h⟩ := refuseIf_bind_ok.mp h
      obtain ⟨sender, hsender, h⟩ := bind_ok.mp h
      obtain ⟨newScript, hnew, h⟩ := bind_ok.mp h
      obtain ⟨changeScript, hscript, h⟩ := bind_ok.mp h
      obtain ⟨trial, htrial, h⟩ := bind_ok.mp h
      obtain ⟨raw, hraw, h⟩ := bind_ok.mp h
      dsimp only at h
      by_cases hlow : (selected.map FtUtxo.value).sum - (raw.length : Int) *
        feeRate -
          (if changeScript.isSome then dustLimit else 0) < dustLimit
      · rw [if_pos hlow] at h
        cases h
      · rw [if_neg hlow] at h
        obtain ⟨final, hfinal, h⟩ := bind_ok.mp h
        cases h
        exact ⟨selected, sender, trial, raw, final, hsel, by omega, by omega, by omega, hsender, hnew, hscript, htrial,
          hraw, rfl, Int.not_lt.mp hlow, hfinal, rfl⟩

/-- What a returned transfer is made of. -/
theorem buildTransferTx_made {s : FtUtxoSet} {amount : Int} {pkh : Bytes}
    {key : PrivateKey Secret} {feeRate : Int} {changePkh : Option Bytes}
    {dustLimit : Int} {r : FtTransferResult}
    (h : s.buildTransferTx curve amount pkh key feeRate changePkh dustLimit =
      .ok r) :
    ∃ selected sender final, s.select amount = .ok selected ∧
    amount ≤ (selected.map FtUtxo.ftAmount).sum ∧
      0 < r.fee ∧ buildFtLockingScript pkh s.ref = .ok r.newFtScript ∧
      (∀ script, r.changeFtScript = some script →
        buildFtLockingScript sender s.ref = .ok script) ∧
      signedTransfer curve key selected
        (makeOutputs r.newFtScript r.changeFtScript
        ((selected.map FtUtxo.value).sum - r.fee - if r.changeFtScript.isSome then dustLimit
          else 0) dustLimit) = .ok final ∧
      r.tx = final.tx := by
  obtain ⟨selected, sender, trial, raw, final, hsel, hcover, -, hrate, -, hnew,
      hscript, -, hraw, hfee, -, hfinal, htx⟩ :=
    buildTransferTx_passes h
  refine ⟨selected, sender, final, hsel, hcover, ?_, hnew,
    fun script hsome => ?_, hfinal, htx⟩
  · rw [hfee]
    exact Int.mul_pos (Int.natCast_pos.mpr (serialize_pos hraw)) hrate
  · rw [hsome] at hscript
    split at hscript
    · obtain ⟨b, hb, hret⟩ := bind_ok.mp hscript
      cases hret
      exact hb
    · cases hscript

/-- What a transfer that returns has chosen, checked and built. -/
theorem buildTransferTx_ok {s : FtUtxoSet} {amount : Int} {pkh : Bytes}
    {key : PrivateKey Secret} {feeRate : Int} {changePkh : Option Bytes}
    {dustLimit : Int} {r : FtTransferResult}
    (h : s.buildTransferTx curve amount pkh key feeRate changePkh dustLimit =
      .ok r) :
    ∃ selected, s.select amount = .ok selected ∧
    amount ≤ (selected.map FtUtxo.ftAmount).sum ∧ 0 < r.fee ∧
      unitsIn r.tx = (selected.map FtUtxo.value).sum ∧
      r.tx.outputs = makeOutputs r.newFtScript r.changeFtScript
        (unitsIn r.tx - r.fee - if r.changeFtScript.isSome then dustLimit
          else 0) dustLimit := by
  obtain ⟨selected, -, final, hsel, hcover, hfee, -, -, hfinal, htx⟩ :=
    buildTransferTx_made h
  obtain ⟨houts, hunits⟩ := signedTransfer_ok hfinal
  refine ⟨selected, hsel, hcover, hfee, by rw [htx, hunits], ?_⟩
  rw [htx, hunits]
  exact houts

/-- A transfer never carries what it says: the fee comes out of the token
inputs. -/
theorem transfer_never_exact (curve : Curve Key Secret) (s : FtUtxoSet)
    (hunit : ∀ u ∈ s.utxos, u.ftAmount = u.value) (amount : Int)
    (newOwnerPkh : Bytes) (key : PrivateKey Secret) (feeRate : Int)
    (changePkh : Option Bytes) (dustLimit : Int) (r : FtTransferResult)
    (h : s.buildTransferTx curve amount newOwnerPkh key feeRate changePkh
      dustLimit = .ok r) :
    ¬ TransferExact amount r := by
  obtain ⟨selected, hsel, hcover, hfee, hunits, houts⟩ := buildTransferTx_ok h
  have hsame : (selected.map FtUtxo.ftAmount).sum = unitsIn r.tx := by
    rw [hunits, List.map_congr_left fun u hu => hunit u (mem_select hsel u hu)]
  rw [hsame] at hcover
  rintro ⟨hrecipient, script, hchange⟩
  -- either way the outputs come to what was spent less the fee
  cases hscript : r.changeFtScript with
  | none =>
    rw [hscript] at houts
    have houts : r.tx.outputs =
        [⟨r.newFtScript, some (unitsIn r.tx - r.fee - 0)⟩] := houts
    rw [houts, List.head?_cons, Option.some.injEq, TransactionOutput.mk.injEq,
      Option.some.injEq] at hrecipient
    rw [houts, List.tail_cons] at hchange
    split at hchange
    · cases hchange
    · omega
  | some change =>
    rw [hscript] at houts
    have houts : r.tx.outputs =
      [⟨r.newFtScript, some (unitsIn r.tx - r.fee - dustLimit)⟩,
        ⟨change, some dustLimit⟩] := houts
    rw [houts, List.head?_cons, Option.some.injEq, TransactionOutput.mk.injEq,
      Option.some.injEq] at hrecipient
    rw [houts, List.tail_cons] at hchange
    split at hchange
    · simp only [List.cons.injEq, TransactionOutput.mk.injEq, Option.some.injEq,
        and_true] at hchange
      omega
    · cases hchange

/-- The owner's signature over the sample transfer, whose trial pays the same
dust limit. -/
def ownerSignature : Bytes :=
  [0x30, 0x44, 0x02, 0x20, 0x4B, 0x3C, 0xCC, 0x62, 0xE6, 0x72, 0x57, 0xE1, 0x03,
    0xD6, 0xF5, 0x8C,
   0xD4, 0x23, 0xD7, 0x76, 0xBF, 0xE0, 0xDA, 0x29, 0x72, 0xCD, 0x17, 0x66, 0xC5,
     0x09, 0x16, 0x95,
   0xC0, 0xE7, 0xA2, 0xBA, 0x02, 0x20, 0x06, 0x8D, 0x88, 0x07, 0x3E, 0x0D, 0x89,
     0xDB, 0xE9, 0xD2,
   0xC0, 0x9D, 0x30, 0x3A, 0x58, 0xCF, 0xC9, 0x33, 0x5E, 0xCC, 0x26, 0x75, 0xEB,
     0xAB, 0xB6, 0x68,
   0x12, 0x05, 0x8A, 0x30, 0x72, 0xD2]

/-- The curve on the owner's key and on that one message. -/
def ownerCurve : Curve Bytes Unit where
  ripemd160 _ := takerPkh
  parse b := if b = takerPublicKey then .ok b
    else .error (.other "The public key could not be parsed or is invalid.")
  format key _ := key
  verify key der _ := .ok (decide (key = takerPublicKey ∧ der = ownerSignature))
  sign _ _ := ownerSignature
  publicKey _ := takerPublicKey

/-- The token minted at output 0 of `0707...07`. -/
def sampleToken : GlyphRef := ⟨hex (List.replicate 32 7), 0, isTxid_hex rfl,
  GlyphRef.zero_vout⟩

def sampleTokenWire : Bytes := List.replicate 32 7 ++ [0, 0, 0, 0]

/-- The sample token's reference is read off its wire form. -/
theorem sampleToken_spelled : GlyphRef.fromBytes sampleTokenWire =
    .ok sampleToken := by
  obtain ⟨r, hr⟩ := exists_spelled (show sampleTokenWire.length = 36 from rfl)
  obtain ⟨-, htxid, hvout⟩ := GlyphRef.fromBytes_ok hr
  have hsame : r = sampleToken := by
    obtain ⟨txid, vout, _, _⟩ := r
    rw [sampleToken, GlyphRef.mk.injEq]
    exact ⟨htxid, hvout⟩
  rw [hr, hsame]

/-- 2410546 units on as many photons. -/
def sampleUtxo : FtUtxo where
  txid := hex (List.replicate 32 9)
  vout := 0
  value := 2410546
  ftAmount := 2410546
  ftScript := ftFrame takerPkh sampleTokenWire

/-- The sample UTXO is one of that token. -/
theorem sampleUtxo_check : sampleUtxo.check sampleToken = .ok () := by
  have hft : isFtScript (hex sampleUtxo.ftScript) = true :=
    isFtScript_hex.mpr ⟨takerPkh, sampleTokenWire, rfl, rfl, rfl⟩
  have href : extractRefFromFtScript sampleUtxo.ftScript = .ok sampleToken :=
    extractRefFromFtScript_ok.mpr ⟨⟨rfl, rfl⟩, sampleToken_spelled⟩
  unfold FtUtxo.check
  rw [refuseIf, if_neg (by decide), ok_bind, refuseIf,
    if_neg (by decide), ok_bind]
  dsimp only
  rw [hft, refuseIf, if_neg (by decide), ok_bind, href, ok_bind, refuseIf,
    if_neg (by simp)]

def sampleUtxoSet : FtUtxoSet where
  ref := sampleToken
  utxos := [sampleUtxo]
  valid := by
    intro u hu
    rw [List.mem_singleton.mp hu]
    exact sampleUtxo_check

/-- All of it is transferred, at the default fee rate and dust limit. -/
def sampleTransfer : Except PyErr FtTransferResult :=
  sampleUtxoSet.buildTransferTx ownerCurve 2410546 makerPkh ⟨(),
    true⟩ 10000 none 546

/-- The sample curve signs within the sizes assumed. -/
theorem ownerCurve_sized : KeySized ownerCurve ⟨(), true⟩ where
  signature := by
    intro digest
    show ownerSignature.length ≤ 72
    decide
  publicKey := .inl rfl

/-- The sample transfer before it is signed. -/
def sampleDraft (value : Int) : Draft Unit where
  inputs := [⟨⟨some sampleUtxo.txid, 0, none, 0xFFFFFFFF, some sampleUtxo.value,
    some sampleUtxo.ftScript, sighashAllForkid⟩, some ⟨(), true⟩⟩]
  outputs := [⟨ftFrame makerPkh sampleTokenWire, some value⟩]
  version := 1
  locktime := 0

/-- The sample draft is unsigned. -/
theorem sampleDraft_blank {value : Int} :
    ∀ t ∈ (sampleDraft value).inputs, Blank ⟨(), true⟩ t :=
  List.forall_mem_singleton.mpr ⟨rfl, rfl, rfl⟩

/-- The sample output's value fits its field. -/
theorem sampleOutput_countable {value : Int} (h : 0 ≤ value ∧ value < 256 ^ 8) :
    (⟨ftFrame makerPkh sampleTokenWire, some value⟩ :
      TransactionOutput).Countable := by
  have hlen : (ftFrame makerPkh sampleTokenWire).length < 256 ^ 8 := by decide
  have hrefs : getPushRefs (ftFrame makerPkh sampleTokenWire) =
      .ok [sampleTokenWire] := by decide
  exact ⟨⟨⟨value, rfl, h⟩, hlen⟩, [sampleTokenWire], hrefs, by decide⟩

/-- So the sample draft is signed. -/
theorem sampleDraft_signed {value : Int} (h : 0 ≤ value ∧ value < 256 ^ 8) :
    ∃ d, sign ownerCurve (sampleDraft value) = .ok d := by
  have hversion : (0 : Int) ≤ 1 ∧ (1 : Int) < 256 ^ 4 := by decide
  have hlocktime : (0 : Int) ≤ 0 ∧ (0 : Int) < 256 ^ 4 := by decide
  refine sign_ready ownerCurve_sized sampleDraft_blank ?_
    (List.forall_mem_singleton.mpr (sampleOutput_countable h))
    hversion hlocktime
  refine List.forall_mem_singleton.mpr ⟨⟨?_, by decide, by decide, by decide⟩,
    ⟨_, rfl, by decide⟩, ⟨_, rfl, by decide⟩, by decide⟩
  refine ⟨(List.replicate 32 9).reverse, ?_,
    List.length_reverse.trans List.length_replicate⟩
  show txidBytes (some (hex (List.replicate 32 9))) = _
  rw [txidBytes, fromHex_hex]

/-- An FT output takes 84 bytes. -/
theorem sampleOutput_size {value : Int} (h : 0 ≤ value ∧ value < 256 ^ 8) :
    ∃ raw, TransactionOutput.serialize ⟨ftFrame makerPkh sampleTokenWire,
      some value⟩ = .ok raw ∧ raw.length = 84 := by
  obtain ⟨script, hscript, hlen⟩ : ∃ script,
      scriptBytes (some (ftFrame makerPkh sampleTokenWire)) = .ok script ∧
      script.length = 76 := ⟨_, rfl, by decide⟩
  refine ⟨leBytes 8 value.toNat ++ script,
    ?_, by rw [List.length_append, length_leBytes, hlen]⟩
  rw [TransactionOutput.serialize, hscript, show satoshisBytes (some value) =
    toBytesLe 8 value from rfl, toBytesLe_of_range h]
  rfl

/-- Without its signature, the sample transfer takes 135 bytes. -/
theorem sampleDraft_unsigned {value : Int} (h : 0 ≤ value ∧ value < 256 ^ 8) :
    ∃ raw, (sampleDraft value).tx.serialize = .ok raw ∧ raw.length = 135 := by
  obtain ⟨inputs, hinputs, hlen⟩ : ∃ inputs, joinAll TransactionInput.serialize
      (sampleDraft value).tx.inputs = .ok inputs ∧ inputs.length = 41 :=
    ⟨_, rfl, by decide⟩
  obtain ⟨output, houtput, hout⟩ := sampleOutput_size h
  have houtputs : joinAll TransactionOutput.serialize
      (sampleDraft value).tx.outputs = .ok (output ++ []) := by
    show joinAll TransactionOutput.serialize [⟨ftFrame makerPkh sampleTokenWire,
      some value⟩] = _
    rw [joinAll, houtput]
    rfl
  refine ⟨[1, 0, 0, 0] ++ [1] ++ inputs ++ [1] ++ (output ++ []) ++
    [0, 0, 0, 0], ?_, ?_⟩
  · have hversion : toBytesLe 4 (sampleDraft value).tx.version = .ok [1,
        0, 0, 0] := by
      show toBytesLe 4 1 = _
      decide
    have hlocktime : toBytesLe 4 (sampleDraft value).tx.locktime = .ok [0,
        0, 0, 0] := by
      show toBytesLe 4 0 = _
      decide
    have hone : unsignedToVarint 1 = .ok [1] := by decide
    rw [Transaction.serialize, hversion, ok_bind,
      show (sampleDraft value).tx.inputs.length = 1 from rfl, hone, ok_bind,
      hinputs, ok_bind, show (sampleDraft value).tx.outputs.length = 1 from rfl,
      hone, ok_bind, houtputs, ok_bind, hlocktime]
    rfl
  · simp only [List.length_append, hlen, hout, List.length_cons,
      List.length_nil]

/-- Signed, the sample transfer takes 241 bytes. -/
theorem sampleDraft_size {value : Int} {d : Draft Unit}
    (h : sign ownerCurve (sampleDraft value) = .ok d)
    (hvalue : 0 ≤ value ∧ value < 256 ^ 8) : ∃ raw, d.tx.serialize = .ok raw ∧
    raw.length = 241 := by
  have hsize := sign_size ownerCurve_sized h sampleDraft_blank
  have hsig := signatureBytes_of_length ownerCurve_sized
    (fun _ => (by decide : ownerSignature.length = 70)) h sampleDraft_blank
  obtain ⟨raw, hraw, hlen⟩ := sampleDraft_unsigned hvalue
  rw [signedSize, hraw, hsig] at hsize
  cases hd : d.tx.serialize with
  | error e =>
    rw [hd] at hsize
    cases hsize
  | ok signed =>
    rw [hd] at hsize
    have hsigned : signed.length = raw.length + (70 * 1 + 1 * (33 + 3)) :=
      Except.ok.inj hsize
    exact ⟨signed, rfl, by omega⟩

/-- One photon is one unit in the sample set. -/
theorem sampleUtxoSet_units :
    ∀ u ∈ sampleUtxoSet.utxos, u.ftAmount = u.value := by
  intro u hu
  rw [List.mem_singleton.mp hu]
  rfl

/-- The sample transfer takes all but the dust limit for its fee. -/
theorem sampleTransfer_built :
    ∃ final, sign ownerCurve (sampleDraft 546) = .ok final ∧
    sampleTransfer = .ok ⟨final.tx, ftFrame makerPkh sampleTokenWire, none,
      sampleToken, 2410000⟩ := by
  obtain ⟨trial, htrial⟩ := @sampleDraft_signed 546 (by decide)
  obtain ⟨raw, hraw, hlen⟩ := sampleDraft_size htrial (by decide)
  have hsel : sampleUtxoSet.select 2410546 = .ok [sampleUtxo] := rfl
  have hwire : sampleToken.toBytes = .ok sampleTokenWire :=
    GlyphRef.Spelled.toBytes sampleToken_spelled
  have hnew : buildFtLockingScript makerPkh sampleToken =
      .ok (ftFrame makerPkh sampleTokenWire) :=
    buildFtLockingScript_ok.mpr ⟨rfl, _, hwire, rfl⟩
  have hsigned : signedTransfer ownerCurve ⟨(), true⟩ [sampleUtxo] (makeOutputs
      (ftFrame makerPkh sampleTokenWire) none 546 546) = .ok trial := htrial
  refine ⟨trial, htrial, ?_⟩
  have hsender : hex20 (ownerCurve.hash160
      (ownerCurve.format (ownerCurve.publicKey ()) true)) = .ok takerPkh := rfl
  have hcovers (msg : String) : refuseIf
      (([sampleUtxo].map FtUtxo.ftAmount).sum - 2410546 < 0) msg = .ok () :=
    refuseIf_ok.mpr (by decide)
  rw [sampleTransfer, buildTransferTx, if_neg (by decide), if_neg (by decide),
    if_neg (by decide), hsel, ok_bind]
  dsimp only
  rw [hcovers, ok_bind, Option.getD_none, hsender, ok_bind,
    show sampleUtxoSet.ref = sampleToken from rfl, hnew, ok_bind,
    if_neg (by decide), ok_bind, hsigned, ok_bind, hraw, ok_bind, hlen,
    if_neg (by decide),
    show ([sampleUtxo].map FtUtxo.value).sum - ((241 : Nat) : Int) *
      10000 - (if (none : Option Bytes).isSome then 546 else 0) = 546 from rfl,
      hsigned, ok_bind]
  rfl

/-- The sample transfer returns, and with the dust value only. -/
theorem sampleTransfer_returns : ∃ r, sampleTransfer = .ok r ∧
    r.tx.outputs.map (·.satoshis) = [some 546] := by
  obtain ⟨final, hfinal, hr⟩ := sampleTransfer_built
  refine ⟨_, hr, ?_⟩
  show final.tx.outputs.map (·.satoshis) = _
  rw [show final.tx.outputs = (sampleDraft 546).outputs
    from (sign_keeps hfinal).1.outputs]
  rfl

/-- The statement at the sample transfer. -/
theorem transfer_never_exact_sample : ∃ r, sampleTransfer = .ok r ∧
    ¬ TransferExact 2410546 r := by
  obtain ⟨r, hr, -⟩ := sampleTransfer_returns
  exact ⟨r, hr, transfer_never_exact _ _ sampleUtxoSet_units _ _ _ _ _ _ r hr⟩

/-- Of 2410546 units the recipient receives 546. -/
theorem transfer_loses_units : ∃ r, sampleTransfer = .ok r ∧
    ¬ TransferExact 2410546 r := by
  obtain ⟨r, hr, houts⟩ := sampleTransfer_returns
  refine ⟨r, hr, fun h => ?_⟩
  have hhead := congrArg List.head? houts
  rw [List.head?_map, h.recipient] at hhead
  have hvalue : (some (some 2410546) : Option (Option Int)) =
      some (some 546) := hhead
  exact absurd hvalue (by decide)

end FtUtxoSet

end Pyrxd.Glyph
