import Pyrxd.Gravity.RadiantLeg
import Pyrxd.Glyph.RevealWalk
import Pyrxd.Glyph.DmintState
import Pyrxd.Watch.DecideSpec

/-!
# Scanning for tokens

`GlyphInspector.find_glyphs` of `glyph/inspector.py` and `GlyphScanner` of
`glyph/scanner.py`. The tasks that are gathered only read from the client, so
they are run one after another here. A token's ref is the outpoint of its
commit, and the scanner looks for metadata in the transaction the ref names:
that is the commit, while the metadata is pushed by the input that spends it.
`scan_metadata_iff` says when that makes no difference.
-/

namespace Pyrxd.Glyph

open Pyrxd.Lib Pyrxd.Tx
open Pyrxd.Gravity (UtxoRecord)
open Pyrxd.Swap (GlyphRef extractRefFromFtScript)
open Pyrxd.Watch
  (Validates validates_ok validates_invalid validates_refuseIf validates_bind)

/-! ## The inspector -/

inductive GlyphType where
  | nft
  | ft
  | mut
  | dmint
deriving DecidableEq

structure GlyphOutput where
  vout : Nat
  glyphType : GlyphType
  ref : GlyphRef
  metadata : Option GlyphMetadata
  script : Bytes
  ownerPkh : Option Bytes
  dmintState : Option DmintState

/-- `MUTABLE_NFT_SCRIPT_RE`. -/
def mutableNftScriptRe : HexPattern :=
  [.lit [0x20], .digits 32, .lit [0x75, 0xBD, 0xD8], .digits 36,
    .lit mutableNftBody]

/-- A turn of the loop of `find_glyphs`. -/
def glyphAt (vout : Nat) (script : Bytes) : Except PyErr (Option GlyphOutput) :=
  let scriptHex := hex script
  if isNftScript scriptHex then do
    let ref ← extractRefFromNftScript script
    let ownerPkh ← extractOwnerPkhFromNftScript script
    return some ⟨vout, .nft, ref, none, script, some ownerPkh, none⟩
  else if isFtScript scriptHex then do
    let ref ← extractRefFromFtScript script
    let ownerPkh ← extractOwnerPkhFromFtScript script
    return some ⟨vout, .ft, ref, none, script, some ownerPkh, none⟩
  else if fullmatch mutableNftScriptRe scriptHex then do
    match ← parseMutableNftScript script with
    | some (ref, _) => return some ⟨vout, .mut, ref, none, script, none, none⟩
    | none => return none
  else
    match DmintState.fromScript script with
    | .ok state =>
      .ok (some ⟨vout, .dmint, state.contractRef, none, script,
        none, some state⟩)
    | .error (.validation _) => .ok none
    | .error e => .error e

/-- The loop, from an output on. -/
def findGlyphsFrom : Nat → List (Option Int × Bytes) →
    Except PyErr (List GlyphOutput)
  | _, [] => .ok []
  | vout, (_, script) :: outputs => do
    let glyph ← glyphAt vout script
    let glyphs ← findGlyphsFrom (vout + 1) outputs
    return glyph.toList ++ glyphs

/-- `find_glyphs`. -/
def findGlyphs (txOutputs : List (Option Int × Bytes)) :
    Except PyErr (List GlyphOutput) := findGlyphsFrom 0 txOutputs

/-! ## The scanner -/

/-- What the scanner asks of an `ElectrumXClient`. -/
structure GlyphClient where
  getUtxos : Bytes → Except PyErr (List UtxoRecord)
  getTransaction : String → Except PyErr Bytes

/-- `GlyphNft` and `GlyphFt`. -/
inductive GlyphItem where
  | nft (ref : GlyphRef) (ownerPkh : Bytes) (metadata : Option GlyphMetadata)
  | ft (ref : GlyphRef) (ownerPkh : Bytes) (amount : Int)
      (metadata : Option GlyphMetadata)

def GlyphItem.ref : GlyphItem → GlyphRef
  | .nft ref _ _ => ref
  | .ft ref _ _ _ => ref

def GlyphItem.metadata : GlyphItem → Option GlyphMetadata
  | .nft _ _ metadata => metadata
  | .ft _ _ _ metadata => metadata

/-- The first pass, of one record. An answer that is an `Exception` is skipped;
a cancelled request is none. -/
def pendingOf (client : GlyphClient) (utxo : UtxoRecord) :
    Except PyErr (List (UtxoRecord × GlyphOutput)) :=
  match client.getTransaction utxo.txHash with
  | .error (.base _) =>
    .error (.other "cannot convert 'CancelledError' object to bytes")
  | .error _ => .ok []
  | .ok raw =>
    match Transaction.fromHex raw with
    | none => .ok []
    | some tx => do
      let glyphs ← findGlyphs (tx.outputs.map fun out => (out.satoshis,
        out.lockingScript))
      return (glyphs.filter fun g => (g.vout : Int) = utxo.txPos).map
        fun g => (utxo, g)

/-- The first pass. -/
def pendingAll (client : GlyphClient) : List UtxoRecord →
    Except PyErr (List (UtxoRecord × GlyphOutput))
  | [] => .ok []
  | utxo :: utxos => do
    let here ← pendingOf client utxo
    let rest ← pendingAll client utxos
    return here ++ rest

/-- `_fetch_reveal_metadata`. What is raised counts as `None` with the
caller. -/
def fetchRevealMetadata (lib : CborObjects) (client : GlyphClient)
    (originTxid : String) : Option GlyphMetadata :=
  match client.getTransaction originTxid with
  | .error _ => none
  | .ok raw =>
    match Transaction.fromHex raw with
    | none => none
    | some tx =>
      match tx.inputs with
      | [] => none
      | inp :: _ => extractRevealMetadata lib (inp.unlockingScript.getD [])

/-- The second pass, of one glyph. -/
def itemOf (utxo : UtxoRecord) (g : GlyphOutput)
    (metadata : Option GlyphMetadata) : Option GlyphItem :=
  match g.glyphType with
  | .nft =>
    (extractOwnerPkhFromNftScript g.script).toOption.map fun pkh =>
      .nft g.ref pkh metadata
  | .ft =>
    (extractOwnerPkhFromFtScript g.script).toOption.map fun pkh =>
      .ft g.ref pkh utxo.value metadata
  | .mut => none
  | .dmint => none

/-- `scan_script_hash`. -/
def scanScriptHash (lib : CborObjects) (client : GlyphClient)
    (scriptHash : Bytes) : Except PyErr (List GlyphItem) := do
  let utxos ← client.getUtxos scriptHash
  let pending ← pendingAll client utxos
  return pending.filterMap fun (utxo, g) =>
    itemOf utxo g (fetchRevealMetadata lib client g.ref.txid)

/-! ## What a token's metadata is -/

/-- The transactions are what their ids say, and no request is cancelled. -/
structure GlyphClient.Honest (client : GlyphClient) : Prop where
  hashes : ∀ txid raw, client.getTransaction txid = .ok raw →
    hex (hash256 raw).reverse = txid
  answers : ∀ txid msg, client.getTransaction txid ≠ .error (.base msg)

/-- The client serves this transaction under this id. -/
def GlyphClient.Serves (client : GlyphClient) (txid : String)
    (tx : Transaction) : Prop :=
  ∃ raw, client.getTransaction txid = .ok raw ∧
    Transaction.fromHex raw = some tx

/-- There is an output with this script at this outpoint. -/
def GlyphClient.HasOutput (client : GlyphClient) (txid : String) (vout : Int)
    (script : Bytes) : Prop :=
  ∃ (tx : Transaction) (k : Nat) (out : TransactionOutput),
    client.Serves txid tx ∧ (k : Int) = vout ∧ tx.outputs[k]? = some out ∧
    out.lockingScript = script

/-- An input that spends a ref's outpoint. -/
def Redeems (ref : GlyphRef) (i : TransactionInput) : Prop :=
  i.sourceTxid = some ref.txid ∧ i.sourceOutputIndex = ref.vout

/-- The script of a token with this ref. -/
def TokenScript (ref : GlyphRef) (script : Bytes) : Prop :=
  ∃ isNft data pkh, data.length = 36 ∧ pkh.length = 20 ∧
    GlyphRef.fromBytes data = .ok ref ∧
    script = tokenFrame isNft data pkh

/-- One of the outputs is a token with this ref. -/
def GlyphClient.Holds (client : GlyphClient) (utxos : List UtxoRecord)
    (ref : GlyphRef) : Prop :=
  ∃ utxo ∈ utxos, ∃ script, client.HasOutput utxo.txHash utxo.txPos script ∧
    TokenScript ref script

/-- The token was revealed with this metadata: an input that spends the commit
outpoint pushes its payload behind the marker, and the commit output asks for
the hash of that payload. -/
def RevealedWith (lib : CborObjects) (client : GlyphClient) (ref : GlyphRef)
    (metadata : GlyphMetadata) : Prop :=
  ∃ payload, decodePayload lib payload = .ok metadata ∧
    (∃ txid tx, client.Serves txid tx ∧ ∃ i ∈ tx.inputs, Redeems ref i ∧
      ∃ items, revealItems (i.unlockingScript.getD []) = .ok items ∧
        afterMarker items = some payload) ∧
    ∃ refType pkh, client.HasOutput ref.txid ref.vout
      (commitFrame (hash256 payload) refType pkh)

/-- The token was minted with this payload by the scripts of the builder. -/
def Minted (lib : CborObjects) (client : GlyphClient) (ref : GlyphRef)
    (payload : Bytes) : Prop :=
  ∃ m ownerPkh recipient isNft commit r,
    prepareCommit lib.toCbor2 m ownerPkh = .ok commit ∧
    commit.cborBytes = payload ∧
      client.HasOutput ref.txid ref.vout commit.commitScript ∧
    prepareReveal lib.toCbor2 ref.txid ref.vout payload recipient isNft =
      .ok r ∧
    ∃ txid tx, client.Serves txid tx ∧
      (∃ out ∈ tx.outputs, out.lockingScript = r.lockingScript) ∧
      ∃ i ∈ tx.inputs, Redeems ref i ∧ ∃ signature key,
        (Chunk.data signature).Ok ∧ (Chunk.data key).Ok ∧ i.unlockingScript =
        some (pushBytes signature ++ (pushBytes key ++ r.scriptsigSuffix))

/-- What the scan returns as metadata is what the tokens were revealed with, and
a token that was minted is returned with its metadata. -/
structure MetadataFaithful (lib : CborObjects) (client : GlyphClient)
    (utxos : List UtxoRecord)
    (items : List GlyphItem) : Prop where
  revealed : ∀ item ∈ items, ∀ metadata, item.metadata = some metadata →
    RevealedWith lib client item.ref metadata
  returned : ∀ ref payload metadata, client.Holds utxos ref →
    Minted lib client ref payload →
    decodePayload lib payload = .ok metadata → ∃ item ∈ items, item.ref = ref ∧
      item.metadata = some metadata

/-- The first input of the commit transaction itself carries this metadata. -/
def CommitCarries (lib : CborObjects) (client : GlyphClient) (ref : GlyphRef)
    (metadata : GlyphMetadata) : Prop :=
  ∃ tx i, client.Serves ref.txid tx ∧ tx.inputs.head? = some i ∧
    extractRevealMetadata lib (i.unlockingScript.getD []) = some metadata

/-- The commit transaction carries what the token was revealed with, and all
that it was minted with. -/
structure CommitAgrees (lib : CborObjects) (client : GlyphClient)
    (ref : GlyphRef) : Prop where
  carried : ∀ metadata, CommitCarries lib client ref metadata →
    RevealedWith lib client ref metadata
  minted : ∀ payload metadata, Minted lib client ref payload →
    decodePayload lib payload = .ok metadata →
    CommitCarries lib client ref metadata

/-! ## What raises -/

/-- Reading a reference raises validation errors only. -/
theorem GlyphRef.fromBytes_validates (data : Bytes) :
    Validates (GlyphRef.fromBytes data) := by
  refine validates_bind (validates_refuseIf _ _) fun _ => ?_
  unfold GlyphRef.make
  split
  · split
    · exact validates_ok _
    · exact validates_invalid _
  · exact validates_invalid _

theorem parseScriptInt_validates (c : Cursor) :
    Validates (parseScriptInt c) := by
  unfold parseScriptInt
  dsimp only
  repeat' split
  all_goals first
    | exact validates_ok _
    | exact validates_invalid _

theorem parseRef_validates (opcode : UInt8) (expected truncated : String)
    (c : Cursor) :
    Validates (parseRef opcode expected truncated c) :=
  validates_bind (validates_refuseIf _ _) fun _ =>
      validates_bind (validates_refuseIf _ _) fun _ =>
    validates_bind (GlyphRef.fromBytes_validates _) fun _ => validates_ok _

theorem parseFixed_validates (k : Nat) (expected truncated : String)
    (c : Cursor) :
    Validates (parseFixed k expected truncated c) :=
  validates_bind (validates_refuseIf _ _) fun _ =>
    validates_bind (validates_refuseIf _ _) fun _ => validates_ok _

theorem enumOf_validates {α : Type} (what : String) (n : Int) (a : Option α) :
    Validates (DmintState.enumOf what n a) := by
  cases a with
  | none => exact validates_invalid _
  | some a => exact validates_ok a

theorem checkSeparator_validates (c : Cursor) :
    Validates (DmintState.checkSeparator c) := by
  unfold DmintState.checkSeparator
  split
  · exact validates_invalid _
  · exact validates_refuseIf _ _

theorem fromV2Script_validates (script : Bytes) :
    Validates (DmintState.fromV2Script script) := by
  unfold DmintState.fromV2Script DmintState.fromV2ScriptWith
  refine validates_bind (parseScriptInt_validates _) fun _ => ?_
  refine validates_bind (parseRef_validates _ _ _ _) fun _ => ?_
  refine validates_bind (parseRef_validates _ _ _ _) fun _ => ?_
  refine validates_bind (parseScriptInt_validates _) fun _ => ?_
  refine validates_bind (parseScriptInt_validates _) fun _ => ?_
  refine validates_bind (parseScriptInt_validates _) fun _ => ?_
  refine validates_bind (parseScriptInt_validates _) fun _ => ?_
  refine validates_bind (parseScriptInt_validates _) fun _ => ?_
  refine validates_bind (parseFixed_validates _ _ _ _) fun _ => ?_
  refine validates_bind (parseScriptInt_validates _) fun _ => ?_
  refine validates_bind (checkSeparator_validates _) fun _ => ?_
  refine validates_bind (enumOf_validates _ _ _) fun _ => ?_
  exact validates_bind (enumOf_validates _ _ _) fun _ => validates_ok _

theorem fromV1Script_validates (script : Bytes) :
    Validates (DmintState.fromV1Script script) := by
  unfold DmintState.fromV1Script
  refine validates_bind (parseFixed_validates _ _ _ _) fun _ => ?_
  refine validates_bind (parseRef_validates _ _ _ _) fun _ => ?_
  refine validates_bind (parseRef_validates _ _ _ _) fun _ => ?_
  refine validates_bind (parseScriptInt_validates _) fun _ => ?_
  refine validates_bind (parseScriptInt_validates _) fun _ => ?_
  refine validates_bind (parseFixed_validates _ _ _ _) fun ⟨_, c⟩ => ?_
  cases hcode : DmintState.matchV1Epilogue c.rest with
  | none =>
    simp only [hcode]
    exact validates_invalid _
  | some algo =>
    simp only [hcode]
    exact validates_ok _

/-- What is no contract is refused, and nothing else is raised. -/
theorem fromScript_validates (script : Bytes) :
    Validates (DmintState.fromScript script) := by
  unfold DmintState.fromScript
  split
  · split
    · exact validates_invalid _
    · exact fromV1Script_validates script
  · exact fromV2Script_validates script

/-! ## Which outputs are tokens -/

section Outputs

variable {script data pkh : Bytes} {vout : Nat} {r ref : GlyphRef}

/-- An NFT script holds exactly its own token. -/
theorem tokenScript_nft (hdata : data.length = 36)
    (hr : GlyphRef.fromBytes data = .ok r) (hpkh : pkh.length = 20) :
    TokenScript ref (nftFrame data pkh) ↔ ref = r := by
  constructor
  · rintro ⟨isNft, data', pkh', hdata', -, href, hs⟩
    cases isNft with
    | false => cases congrArg List.head? hs
    | true =>
      have hsame : data = data' := by
        have hread : between (nftFrame data pkh) 1 37 = data :=
          between_nft_ref hdata
        rw [← hread, hs]
        exact between_nft_ref hdata'
      rw [← hsame, hr] at href
      cases href
      rfl
  · rintro rfl
    exact ⟨true, data, pkh, hdata, hpkh, hr, rfl⟩

theorem tokenScript_ft (hdata : data.length = 36)
    (hr : GlyphRef.fromBytes data = .ok r) (hpkh : pkh.length = 20) :
    TokenScript ref (ftFrame pkh data) ↔ ref = r := by
  constructor
  · rintro ⟨isNft, data', pkh', hdata', hpkh', href, hs⟩
    cases isNft with
    | true => cases congrArg List.head? hs
    | false =>
      have hsame : data = data' := by
        rw [← between_ft_ref hpkh hdata, hs]
        exact between_ft_ref hpkh' hdata'
      rw [← hsame, hr] at href
      cases href
      rfl
  · rintro rfl
    exact ⟨false, data, pkh, hdata, hpkh, hr, rfl⟩

/-- An FT script is not taken for an NFT. -/
theorem isNftScript_ft : isNftScript (hex (ftFrame pkh data)) = false := by
  rw [Bool.eq_false_iff]
  intro h
  obtain ⟨data', pkh', -, -, hs⟩ := isNftScript_hex.mp h
  cases congrArg List.head? hs

/-- What the inspector finds at an NFT output. -/
theorem glyphAt_nft (hdata : data.length = 36)
    (hr : GlyphRef.fromBytes data = .ok r)
    (hpkh : pkh.length = 20) : glyphAt vout (nftFrame data pkh) = .ok
    (some ⟨vout, .nft, r, none, nftFrame data pkh, some pkh, none⟩) := by
  have hnft : isNftScript (hex (nftFrame data pkh)) = true :=
    isNftScript_hex.mpr ⟨data, pkh, hdata, hpkh, rfl⟩
  have hlen : (nftFrame data pkh).length = 63 := by
    simp only [nftFrame, List.length_append, List.length_cons,
      List.length_nil, hdata, hpkh]
  have href : extractRefFromNftScript (nftFrame data pkh) = .ok r :=
    extractRefFromNftScript_ok.mpr ⟨⟨hlen,
      rfl⟩, by rw [between_nft_ref hdata, hr]⟩
  have hown : extractOwnerPkhFromNftScript (nftFrame data pkh) = .ok pkh :=
    extractOwnerPkhFromNftScript_ok.mpr ⟨⟨hlen, rfl⟩,
      (between_nft_pkh hdata hpkh).symm⟩
  unfold glyphAt
  dsimp only
  rw [if_pos hnft, href, ok_bind, hown]
  rfl

/-- What it finds at an FT output. -/
theorem glyphAt_ft (hdata : data.length = 36)
    (hr : GlyphRef.fromBytes data = .ok r)
    (hpkh : pkh.length = 20) : glyphAt vout (ftFrame pkh data) = .ok
    (some ⟨vout, .ft, r, none, ftFrame pkh data, some pkh, none⟩) := by
  have hft : isFtScript (hex (ftFrame pkh data)) = true :=
    isFtScript_hex.mpr ⟨pkh, data, hpkh, hdata, rfl⟩
  have hno : ¬ isNftScript (hex (ftFrame pkh data)) = true :=
    Bool.eq_false_iff.mp isNftScript_ft
  have hlen : (ftFrame pkh data).length = 75 := length_ftFrame hpkh hdata
  have href : extractRefFromFtScript (ftFrame pkh data) = .ok r :=
    extractRefFromFtScript_ok.mpr ⟨⟨hlen,
      between_ft_head hpkh⟩, by rw [between_ft_ref hpkh hdata, hr]⟩
  have hown : extractOwnerPkhFromFtScript (ftFrame pkh data) = .ok pkh :=
    extractOwnerPkhFromFtScript_ok.mpr ⟨⟨hlen,
      fits_ft.mpr ⟨pkh, data, hpkh, hdata, rfl⟩⟩, (between_ft_pkh hpkh).symm⟩
  unfold glyphAt
  dsimp only
  rw [if_neg hno, if_pos hft, href, ok_bind, hown]
  rfl

/-- A token's script is one or the other. -/
theorem token_or_not (script : Bytes) :
    (∃ data pkh r, data.length = 36 ∧ pkh.length = 20 ∧
      GlyphRef.fromBytes data = .ok r ∧
      (script = nftFrame data pkh ∨ script = ftFrame pkh data)) ∨
    isNftScript (hex script) = false ∧ isFtScript (hex script) = false := by
  cases hnft : isNftScript (hex script) with
  | true =>
    obtain ⟨data, pkh, hdata, hpkh, hs⟩ := isNftScript_hex.mp hnft
    obtain ⟨r, hr⟩ := exists_spelled hdata
    exact .inl ⟨data, pkh, r, hdata, hpkh, hr, .inl hs⟩
  | false =>
    cases hft : isFtScript (hex script) with
    | true =>
      obtain ⟨pkh, data, hpkh, hdata, hs⟩ := isFtScript_hex.mp hft
      obtain ⟨r, hr⟩ := exists_spelled hdata
      exact .inl ⟨data, pkh, r, hdata, hpkh, hr, .inr hs⟩
    | false => exact .inr ⟨rfl, rfl⟩

/-- The parser of mutable outputs never raises. -/
theorem parseMutableNftScript_returns (script : Bytes) :
    ∃ p, parseMutableNftScript script = .ok p := by
  unfold parseMutableNftScript
  by_cases hlen : script.length ≠ 174
  · exact ⟨_, if_pos hlen⟩
  · have hdata : (between script 36 72).length = 36 := by
      rw [between, List.length_take, List.length_drop]
      omega
    obtain ⟨r, hr⟩ := exists_spelled hdata
    rw [if_neg hlen, hr]
    split
    · exact ⟨_, rfl⟩
    · split
      · exact ⟨_, rfl⟩
      · exact ⟨_, rfl⟩

/-- Any other script is at most a mutable one or a contract. -/
theorem glyphAt_other (hnft : isNftScript (hex script) = false)
    (hft : isFtScript (hex script) = false) :
    ∃ g, glyphAt vout script = .ok g ∧ ∀ x ∈ g, x.vout = vout ∧
    (x.glyphType = .mut ∨ x.glyphType = .dmint) := by
  unfold glyphAt
  dsimp only
  rw [if_neg (Bool.eq_false_iff.mp hnft), if_neg (Bool.eq_false_iff.mp hft)]
  by_cases hmut : fullmatch mutableNftScriptRe (hex script) = true
  · obtain ⟨p, hp⟩ := parseMutableNftScript_returns script
    rw [if_pos hmut, hp, ok_bind]
    cases p with
    | none =>
      refine ⟨none, rfl, ?_⟩
      intro x hx
      cases hx
    | some p =>
      refine ⟨_, rfl, ?_⟩
      rintro x ⟨⟩
      exact ⟨rfl, .inl rfl⟩
  · rw [if_neg hmut]
    cases hstate : DmintState.fromScript script with
    | ok state =>
      refine ⟨_, rfl, ?_⟩
      rintro x ⟨⟩
      exact ⟨rfl, .inr rfl⟩
    | error e =>
      obtain ⟨msg, rfl⟩ := fromScript_validates script e hstate
      refine ⟨none, rfl, ?_⟩
      intro x hx
      cases hx

/-- What the scan makes of one script, whatever metadata it finds for a ref. -/
theorem glyphAt_items (utxo : UtxoRecord) (vout : Nat) (script : Bytes)
    (found : GlyphRef → Option GlyphMetadata) : ∃ g, glyphAt vout script =
    .ok g ∧ (∀ x ∈ g, x.vout = vout) ∧ ∀ ref metadata,
      (∃ x ∈ g, ∃ item, itemOf utxo x (found x.ref) = some item ∧
        item.ref = ref ∧ item.metadata = metadata) ↔
        TokenScript ref script ∧ metadata = found ref := by
  rcases token_or_not script with ⟨data, pkh, r, hdata, hpkh, hr,
    rfl | rfl⟩ | ⟨hnft, hft⟩
  · have hlen : (nftFrame data pkh).length = 63 := by
      simp only [nftFrame, List.length_append, List.length_cons,
        List.length_nil, hdata, hpkh]
    have hown : extractOwnerPkhFromNftScript (nftFrame data pkh) = .ok pkh :=
      extractOwnerPkhFromNftScript_ok.mpr ⟨⟨hlen, rfl⟩,
        (between_nft_pkh hdata hpkh).symm⟩
    refine ⟨_,
      glyphAt_nft hdata hr hpkh, by rintro x ⟨⟩; rfl, fun ref metadata => ?_⟩
    rw [tokenScript_nft hdata hr hpkh]
    constructor
    · rintro ⟨x, ⟨⟩, item, hitem, rfl, rfl⟩
      simp only [itemOf, hown, Except.toOption, Option.map_some,
        Option.some.injEq] at hitem
      subst hitem
      exact ⟨rfl, rfl⟩
    · rintro ⟨rfl, rfl⟩
      refine ⟨_, rfl, .nft ref pkh (found ref), ?_, rfl, rfl⟩
      simp only [itemOf, hown, Except.toOption, Option.map_some]
  · have hown : extractOwnerPkhFromFtScript (ftFrame pkh data) = .ok pkh :=
      extractOwnerPkhFromFtScript_ok.mpr
        ⟨⟨length_ftFrame hpkh hdata, fits_ft.mpr ⟨pkh, data, hpkh, hdata, rfl⟩⟩,
          (between_ft_pkh hpkh).symm⟩
    refine ⟨_,
      glyphAt_ft hdata hr hpkh, by rintro x ⟨⟩; rfl, fun ref metadata => ?_⟩
    rw [tokenScript_ft hdata hr hpkh]
    constructor
    · rintro ⟨x, ⟨⟩, item, hitem, rfl, rfl⟩
      simp only [itemOf, hown, Except.toOption, Option.map_some,
        Option.some.injEq] at hitem
      subst hitem
      exact ⟨rfl, rfl⟩
    · rintro ⟨rfl, rfl⟩
      refine ⟨_, rfl, .ft ref pkh utxo.value (found ref), ?_, rfl, rfl⟩
      simp only [itemOf, hown, Except.toOption, Option.map_some]
  · -- what is found in a mutable script or a contract becomes no item
    obtain ⟨g, hg, htypes⟩ := @glyphAt_other script vout hnft hft
    refine ⟨g, hg, fun x hx => (htypes x hx).1, fun ref metadata => ⟨?_, ?_⟩⟩
    · rintro ⟨x, hx, item, hitem, -⟩
      rcases (htypes x hx).2 with htype | htype
      · rw [itemOf, htype] at hitem
        cases hitem
      · rw [itemOf, htype] at hitem
        cases hitem
    · rintro ⟨⟨isNft, data, pkh, hdata, hpkh, -, rfl⟩, -⟩
      cases isNft with
      | true =>
        cases hnft.symm.trans (isNftScript_hex.mpr ⟨data, pkh,
          hdata, hpkh, rfl⟩)
      | false =>
        cases hft.symm.trans (isFtScript_hex.mpr ⟨pkh, data, hpkh, hdata, rfl⟩)

end Outputs

/-! ## The two passes -/

section Scan

variable {lib : CborObjects} {client : GlyphClient} {utxos : List UtxoRecord}
  {utxo : UtxoRecord} {ref : GlyphRef}

/-- What `find_glyphs` returns, from an output on. -/
theorem findGlyphsFrom_returns : ∀ (outputs : List (Option Int × Bytes))
    (vout : Nat), ∃ gs,
    findGlyphsFrom vout outputs = .ok gs ∧ ∀ g, g ∈ gs ↔
      ∃ k satoshis script, outputs[k]? = some (satoshis, script) ∧
        glyphAt (vout + k) script = .ok (some g) := by
  intro outputs
  induction outputs with
  | nil =>
    intro vout
    refine ⟨[], rfl, fun g => ⟨nofun, ?_⟩⟩
    rintro ⟨k, satoshis, script, hk, -⟩
    cases hk
  | cons out outputs ih =>
    intro vout
    obtain ⟨satoshis, script⟩ := out
    obtain ⟨found, hfound, -⟩ :=
      glyphAt_items ⟨"", 0, 0, 0⟩ vout script fun _ => none
    obtain ⟨gs, hgs, hmem⟩ := ih (vout + 1)
    refine ⟨found.toList ++ gs, by rw [findGlyphsFrom, hfound, ok_bind, hgs,
      ok_bind, pure_eq_ok], fun g => ?_⟩
    rw [List.mem_append, Option.mem_toList, hmem]
    constructor
    · rintro (h | ⟨k, sats, s, hk, hg⟩)
      · exact ⟨0, satoshis, script,
          rfl, by rw [Nat.add_zero, hfound, Option.mem_def.mp h]⟩
      · exact ⟨k + 1, sats, s,
          hk, by rw [show vout + (k + 1) = vout + 1 + k by omega]; exact hg⟩
    · rintro ⟨k, sats, s, hk, hg⟩
      cases k with
      | zero =>
        cases hk
        rw [Nat.add_zero, hfound, Except.ok.injEq] at hg
        exact .inl hg
      | succ k =>
        exact .inr ⟨k, sats, s,
          hk, by rw [show vout + 1 + k = vout + (k + 1) by omega]; exact hg⟩

/-- A pending glyph stands in the output its record names. -/
def Pends (client : GlyphClient) (utxo : UtxoRecord) (g : GlyphOutput) : Prop :=
  ∃ (tx : Transaction) (k : Nat) (out : TransactionOutput),
    client.Serves utxo.txHash tx ∧ (k : Int) = utxo.txPos ∧
    tx.outputs[k]? = some out ∧ glyphAt k out.lockingScript = .ok (some g)

/-- Looking at one UTXO returns, and lists what pends there. -/
theorem pendingOf_returns (honest : client.Honest) (utxo : UtxoRecord) :
    ∃ ps, pendingOf client utxo = .ok ps ∧
    ∀ p, p ∈ ps ↔ p.1 = utxo ∧ Pends client utxo p.2 := by
  unfold pendingOf Pends GlyphClient.Serves
  cases hraw : client.getTransaction utxo.txHash with
  | error e =>
    -- the source passes over a transaction that it cannot fetch
    cases e with
    | base msg => exact absurd hraw (honest.answers _ _)
    | validation msg =>
      refine ⟨[], rfl, fun p => ⟨nofun, ?_⟩⟩
      rintro ⟨-, tx, k, out, ⟨raw, h, -⟩, -⟩
      cases h
    | other msg =>
      refine ⟨[], rfl, fun p => ⟨nofun, ?_⟩⟩
      rintro ⟨-, tx, k, out, ⟨raw, h, -⟩, -⟩
      cases h
  | ok raw =>
    cases htx : Transaction.fromHex raw with
    | none =>
      -- nor parse
      refine ⟨[], by simp only [htx], fun p => ⟨nofun, ?_⟩⟩
      rintro ⟨-, tx, k, out, ⟨raw', h, hsome⟩, -⟩
      cases h
      rw [htx] at hsome
      cases hsome
    | some tx =>
      obtain ⟨gs, hgs, hmem⟩ := findGlyphsFrom_returns
        (tx.outputs.map fun out => (out.satoshis, out.lockingScript)) 0
      refine ⟨(gs.filter fun g => (g.vout : Int) = utxo.txPos).map fun g =>
        (utxo, g), ?_, fun p => ?_⟩
      · simp only [htx, findGlyphs, hgs, ok_bind, pure_eq_ok]
      simp only [List.mem_map, List.mem_filter, decide_eq_true_eq, hmem,
        List.getElem?_map, Option.map_eq_some_iff, Prod.mk.injEq, Nat.zero_add]
      constructor
      · rintro ⟨g, ⟨⟨k, sats, script, ⟨out, hout, -, rfl⟩, hg⟩, hpos⟩, rfl⟩
        obtain ⟨found, hfound, hvout, -⟩ :=
          glyphAt_items utxo k out.lockingScript fun _ => none
        rw [hfound, Except.ok.injEq] at hg
        have hk : g.vout = k := hvout g hg
        exact ⟨rfl, tx, k, out, ⟨raw, rfl, htx⟩, by rw [← hpos, hk], hout, by rw [hfound, hg]⟩
      · rintro ⟨hp, tx', k, out, ⟨raw', h, htx'⟩, hpos, hout, hg⟩
        cases h
        rw [htx] at htx'
        cases htx'
        obtain ⟨found, hfound, hvout, -⟩ :=
          glyphAt_items utxo k out.lockingScript fun _ => none
        have hsame : found = some p.2 := by rw [hfound, Except.ok.injEq] at hg; exact hg
        have hk : p.2.vout = k := hvout p.2 hsame
        exact ⟨p.2, ⟨⟨k, _, _, ⟨out, hout, rfl, rfl⟩, hg⟩, by rw [hk,
          hpos]⟩, by rw [← hp]⟩

theorem pendingAll_returns (honest : client.Honest)
    (utxos : List UtxoRecord) : ∃ ps,
    pendingAll client utxos = .ok ps ∧ ∀ p, p ∈ ps ↔
    p.1 ∈ utxos ∧ Pends client p.1 p.2 := by
  induction utxos with
  | nil => exact ⟨[], rfl, fun p => ⟨nofun, fun h => nomatch h.1⟩⟩
  | cons utxo utxos ih =>
    obtain ⟨here, hhere, hmem⟩ := pendingOf_returns honest utxo
    obtain ⟨rest, hrest, hmemRest⟩ := ih
    refine ⟨here ++ rest, by rw [pendingAll, hhere, ok_bind, hrest, ok_bind,
      pure_eq_ok], fun p => ?_⟩
    rw [List.mem_append, hmem, hmemRest, List.mem_cons]
    constructor
    · rintro (⟨hp, hpends⟩ | ⟨hp, hpends⟩)
      · exact ⟨.inl hp, by rw [hp]; exact hpends⟩
      · exact ⟨.inr hp, hpends⟩
    · rintro ⟨hp | hp, hpends⟩
      · exact .inl ⟨hp, by rw [← hp]; exact hpends⟩
      · exact .inr ⟨hp, hpends⟩

/-- **The scan returns the tokens that are held**, each with what the
transaction its ref names carries. -/
theorem scan_items (honest : client.Honest) {scriptHash : Bytes}
    (hutxos : client.getUtxos scriptHash = .ok utxos) :
    ∃ items, scanScriptHash lib client scriptHash = .ok items ∧ ∀ ref metadata,
      (∃ item ∈ items, item.ref = ref ∧ item.metadata = metadata) ↔
        client.Holds utxos ref ∧
          metadata = fetchRevealMetadata lib client ref.txid := by
  obtain ⟨ps, hps, hmem⟩ := pendingAll_returns honest utxos
  refine ⟨_, by rw [scanScriptHash, hutxos, ok_bind, hps, ok_bind,
    pure_eq_ok], fun ref metadata => ?_⟩
  simp only [List.mem_filterMap, Prod.exists, hmem]
  constructor
  · rintro ⟨item, ⟨utxo, g, ⟨hutxo, tx, k, out, htx, hk, hout, hg⟩,
      hitem⟩, href, hmeta⟩
    obtain ⟨found, hfound, -, hitems⟩ :=
      glyphAt_items utxo k out.lockingScript fun r =>
        fetchRevealMetadata lib client r.txid
    rw [hfound, Except.ok.injEq] at hg
    obtain ⟨htoken, hsame⟩ := (hitems ref metadata).mp ⟨g, hg, item,
      hitem, href, hmeta⟩
    exact ⟨⟨utxo, hutxo, out.lockingScript, ⟨tx, k, out, htx, hk, hout, rfl⟩,
      htoken⟩, hsame⟩
  · rintro ⟨⟨utxo, hutxo, script, ⟨tx, k, out, htx, hk, hout, rfl⟩,
      htoken⟩, hsame⟩
    obtain ⟨found, hfound, -, hitems⟩ :=
      glyphAt_items utxo k out.lockingScript fun r =>
        fetchRevealMetadata lib client r.txid
    obtain ⟨g, hg, item, hitem, href, hmeta⟩ :=
      (hitems ref metadata).mpr ⟨htoken, hsame⟩
    exact ⟨item, ⟨utxo, g, ⟨hutxo, tx, k, out, htx, hk,
      hout, by rw [hfound, Option.mem_def.mp hg]⟩, hitem⟩, href, hmeta⟩

/-- The metadata that is looked up is what the first input of the commit
transaction carries. -/
theorem fetch_some {metadata : GlyphMetadata} :
    fetchRevealMetadata lib client ref.txid = some metadata ↔
    CommitCarries lib client ref metadata := by
  unfold fetchRevealMetadata CommitCarries GlyphClient.Serves
  -- any error on the way is swallowed, and means no metadata
  cases hraw : client.getTransaction ref.txid with
  | error e =>
    refine ⟨nofun, ?_⟩
    rintro ⟨tx, i, ⟨raw, h, -⟩, -⟩
    cases h
  | ok raw =>
    cases htx : Transaction.fromHex raw with
    | none =>
      simp only [htx]
      refine ⟨nofun, ?_⟩
      rintro ⟨tx, i, ⟨raw', h, hsome⟩, -⟩
      cases h
      rw [htx] at hsome
      cases hsome
    | some tx =>
      simp only [htx]
      constructor
      · intro h
        split at h
        · cases h
        · next i rest hinputs => exact ⟨tx, i,
            ⟨raw, rfl, htx⟩, by rw [hinputs, List.head?_cons], h⟩
      · rintro ⟨tx', i, ⟨raw', h, hsome⟩, hhead, hread⟩
        cases h
        rw [htx] at hsome
        cases hsome
        obtain ⟨rest, hinputs⟩ := List.head?_eq_some_iff.mp hhead
        rw [hinputs]
        exact hread

/-- **The metadata of a scan is that of the reveals just when** each token's
commit transaction carries, in its first input, what the token was revealed
with. -/
theorem scan_metadata_iff (lib : CborObjects) (client : GlyphClient)
    (scriptHash : Bytes) (utxos : List UtxoRecord) (honest : client.Honest)
    (hutxos : client.getUtxos scriptHash = .ok utxos) :
    (∃ items, scanScriptHash lib client scriptHash = .ok items ∧
      MetadataFaithful lib client utxos items) ↔
      ∀ ref, client.Holds utxos ref → CommitAgrees lib client ref := by
  obtain ⟨items, hscan, hitems⟩ :=
    @scan_items lib client utxos honest scriptHash hutxos
  constructor
  -- the scan is a function, so it returned these items
  · rintro ⟨items', hscan', hfaithful⟩ ref href
    rw [hscan, Except.ok.injEq] at hscan'
    subst hscan'
    constructor
    · intro metadata hcarries
      obtain ⟨item, hitem, hsame, hmeta⟩ :=
        (hitems ref (some metadata)).mpr ⟨href, (fetch_some.mpr hcarries).symm⟩
      rw [← hsame]
      exact hfaithful.revealed item hitem metadata hmeta
    · intro payload metadata hminted hread
      have hreturned :=
        hfaithful.returned ref payload metadata href hminted hread
      exact fetch_some.mp ((hitems ref (some metadata)).mp hreturned).2.symm
  · intro hagrees
    refine ⟨items, hscan, ⟨?_, ?_⟩⟩
    · intro item hitem metadata hmeta
      obtain ⟨hholds, hfetch⟩ := (hitems item.ref (some metadata)).mp ⟨item,
        hitem, rfl, hmeta⟩
      exact (hagrees item.ref hholds).carried metadata
        (fetch_some.mp hfetch.symm)
    · intro ref payload metadata hholds hminted hread
      have hcarries :=
        (hagrees ref hholds).minted payload metadata hminted hread
      exact (hitems ref (some metadata)).mpr ⟨hholds,
        (fetch_some.mpr hcarries).symm⟩

end Scan

/-! ## A token and its scan -/

/-- A transaction with one input and one output, as it is served. -/
def servedTx (spent script out : Bytes) : Bytes :=
  [0x01, 0x00, 0x00, 0x00, 0x01] ++ spent ++ [UInt8.ofNat script.length] ++
    script ++ [0xFF, 0xFF, 0xFF, 0xFF] ++ [0x01, 0x22, 0x02, 0x00,
    0x00, 0x00, 0x00, 0x00, 0x00] ++ [UInt8.ofNat out.length] ++ out ++
    [0x00, 0x00, 0x00, 0x00]

/-- How the input of the commit transaction is signed: for an output that anyone
can spend, or with all that the reveal pushes. -/
inductive ScanFund where
  | anyone
  | carrying
deriving DecidableEq

/-- A signature and a key of a byte each, and the payload. -/
def scanUnlock : Bytes := pushBytes [0x02] ++
  (pushBytes [0x02] ++ (0x03 :: glyMarker ++ 0x05 :: nftPayload))

section ScanSample

variable (fund : ScanFund)

def ScanFund.script : Bytes :=
  match fund with
  | .anyone => [0x51]
  | .carrying => scanUnlock

/-- The commit of a plain NFT. -/
def scanCommit : Bytes := servedTx (List.replicate 36 0x07) fund.script
  (sampleCommit nftPayload true).commitScript

def scanCommitHash : Bytes :=
  match fund with
  | .anyone =>
    [0xCD, 0x63, 0xA8, 0x9A, 0xB0, 0xFB, 0x7F, 0x2C, 0x10, 0x6C, 0x32, 0x0D,
      0x21, 0x72, 0xF1, 0xE3, 0x29, 0x6F, 0x23, 0x8E, 0x22, 0x63, 0x78, 0xC8,
      0x1E, 0x71, 0x55, 0x13, 0xFF, 0xE7, 0x37, 0x2C]
  | .carrying =>
    [0x5D, 0xD5, 0xAE, 0xDF, 0xF9, 0x4B, 0x6A, 0x5D, 0xD9, 0xB5, 0xF0, 0xDE,
      0x1E, 0x17, 0xD8, 0xD1, 0xAF, 0x16, 0xBC, 0x62, 0xA5, 0xA8, 0x00, 0x14,
      0x46, 0xC7, 0x3E, 0xEF, 0xA3, 0x09, 0x86, 0xB9]

def scanScripts : RevealScripts :=
  ⟨nftFrame (scanCommitHash fund ++ leBytes 4 0) samplePkh,
    0x03 :: glyMarker ++ 0x05 :: nftPayload⟩

/-- Its reveal. -/
def scanReveal : Bytes := servedTx (scanCommitHash fund ++
  leBytes 4 0) scanUnlock (scanScripts fund).lockingScript

def scanRevealHash : Bytes :=
  match fund with
  | .anyone =>
    [0xFC, 0x1C, 0x9B, 0x47, 0x67, 0x6E, 0x5C, 0xAD, 0x80, 0x3E, 0xF7, 0xAA,
      0x6A, 0xF9, 0x07, 0x9C, 0x65, 0x07, 0xAF, 0xD2, 0x2D, 0x17, 0xC2, 0x8A,
      0x96, 0x5B, 0xB6, 0x28, 0xB6, 0x9F, 0x3C, 0x2A]
  | .carrying =>
    [0x7A, 0x56, 0xB5, 0xB7, 0x17, 0x66, 0x9E, 0x31, 0x15, 0xE1, 0x54, 0x44,
      0xC6, 0x0E, 0xDF, 0x1C, 0x91, 0xC7, 0x88, 0x04, 0x96, 0xD2, 0x08, 0x81,
      0x35, 0xC8, 0x32, 0xD3, 0xB5, 0x27, 0x60, 0xAB]

/-- The txid of the sample commit. -/
theorem hash_scanCommit : hash256 (scanCommit fund) =
    scanCommitHash fund := by cases fund <;> decide +kernel

/-- The txid of the sample reveal. -/
theorem hash_scanReveal : hash256 (scanReveal fund) =
    scanRevealHash fund := by cases fund <;> decide +kernel

/-- Different hashes are different txids. -/
theorem hexId_ne {a b : Bytes} (h : a.reverse ≠ b.reverse) :
    hex a.reverse ≠ hex b.reverse := by
  intro hsame
  have hchars := congrArg String.toList hsame
  rw [hex, hex, String.toList_ofList, String.toList_ofList] at hchars
  exact h (hexChars_injective hchars)

/-- The two sample transactions differ. -/
theorem scan_txids_ne : hex (scanRevealHash fund).reverse ≠ hex
    (scanCommitHash fund).reverse :=
  hexId_ne (by cases fund <;> decide +kernel)

def scanUtxo : UtxoRecord := ⟨hex (scanRevealHash fund).reverse, 0, 546, 100⟩

def scanAnswer (txid : String) : Except PyErr Bytes :=
  if txid = hex (scanCommitHash fund).reverse then .ok (scanCommit fund)
  else if txid = hex (scanRevealHash fund).reverse then .ok (scanReveal fund)
  else .error (.other "No such mempool or blockchain transaction.")

/-- A client that knows the two. -/
def scanClient : GlyphClient where
  getUtxos := fun _ => .ok [scanUtxo fund]
  getTransaction := scanAnswer fund

/-- What it answers is one of the two. -/
theorem scanAnswer_ok {txid : String} {raw : Bytes}
    (h : scanAnswer fund txid = .ok raw) :
    txid = hex (scanCommitHash fund).reverse ∧ raw = scanCommit fund ∨
      txid = hex (scanRevealHash fund).reverse ∧ raw = scanReveal fund := by
  unfold scanAnswer at h
  split at h
  · next htxid => exact .inl ⟨htxid, (Except.ok.inj h).symm⟩
  · split at h
    · next htxid => exact .inr ⟨htxid, (Except.ok.inj h).symm⟩
    · cases h

/-- The sample client serves what was asked for. -/
theorem scanClient_honest : (scanClient fund).Honest := by
  constructor
  · intro txid raw h
    rcases scanAnswer_ok fund h with ⟨rfl, rfl⟩ | ⟨rfl, rfl⟩
    · rw [hash_scanCommit]
    · rw [hash_scanReveal]
  · intro txid msg h
    change scanAnswer fund txid = .error (.base msg) at h
    unfold scanAnswer at h
    split at h
    · cases h
    · split at h
      · cases h
      · cases h

/-- Its ref. -/
def scanRef : GlyphRef :=
  ⟨hex (scanCommitHash fund).reverse, 0,
    Swap.isTxid_hex (by cases fund <;> decide), GlyphRef.zero_vout⟩

theorem length_scanRef : (scanCommitHash fund ++ leBytes 4 0).length =
    36 := by cases fund <;> decide

/-- The sample reference is read off its wire form. -/
theorem scanRef_spelled : GlyphRef.fromBytes
    (scanCommitHash fund ++ leBytes 4 0) = .ok (scanRef fund) := by
  obtain ⟨r, hr⟩ := exists_spelled (length_scanRef fund)
  obtain ⟨-, htxid, hvout⟩ := GlyphRef.fromBytes_ok hr
  rw [hr, Except.ok.injEq]
  rcases r with ⟨txid, vout, h1, h2⟩
  have htake : (scanCommitHash fund ++ leBytes 4 0).take 32 =
      scanCommitHash fund := by cases fund <;> decide
  have hzero : leNat ((scanCommitHash fund ++ leBytes 4 0).drop 32) =
      0 := by cases fund <;> decide
  simp only [htake, hzero] at htxid hvout
  subst htxid hvout
  rfl

def scanCommitInput : TransactionInput :=
  ⟨some (hex (List.replicate 32 0x07)), 0x07070707, some fund.script,
    0xFFFFFFFF, none, none, sighashAllForkid⟩

def scanCommitTx : Transaction :=
  ⟨[scanCommitInput fund],
    [⟨(sampleCommit nftPayload true).commitScript, some 546⟩], 1, 0⟩

def scanRevealInput : TransactionInput :=
  ⟨some (hex (scanCommitHash fund).reverse), 0, some scanUnlock, 0xFFFFFFFF,
    none, none, sighashAllForkid⟩

def scanRevealTx : Transaction :=
  ⟨[scanRevealInput fund], [⟨(scanScripts fund).lockingScript, some 546⟩], 1, 0⟩

/-- The sample commit as the parser reads it. -/
theorem scanCommit_parsed : Transaction.fromHex (scanCommit fund) = some
    (scanCommitTx fund) := by
  cases fund <;> decide +kernel

theorem scanReveal_parsed : Transaction.fromHex (scanReveal fund) = some
    (scanRevealTx fund) := by
  cases fund <;> decide +kernel

/-- The client serves the commit under the reference's txid. -/
theorem scanCommit_served : (scanClient fund).Serves (scanRef fund).txid
    (scanCommitTx fund) :=
  ⟨scanCommit fund, if_pos rfl, scanCommit_parsed fund⟩

theorem scanReveal_served : (scanClient fund).Serves (scanUtxo fund).txHash
    (scanRevealTx fund) :=
  ⟨scanReveal fund, (if_neg (scan_txids_ne fund)).trans (if_pos rfl),
    scanReveal_parsed fund⟩

variable {fund}

theorem scan_serves {txid : String} {tx : Transaction}
    (h : (scanClient fund).Serves txid tx) :
    txid = (scanRef fund).txid ∧ tx = scanCommitTx fund ∨
    txid = (scanUtxo fund).txHash ∧ tx = scanRevealTx fund := by
  obtain ⟨raw, hraw, htx⟩ := h
  rcases scanAnswer_ok fund hraw with ⟨rfl, rfl⟩ | ⟨rfl, rfl⟩
  · rw [scanCommit_parsed, Option.some.injEq] at htx
    exact .inl ⟨rfl, htx.symm⟩
  · rw [scanReveal_parsed, Option.some.injEq] at htx
    exact .inr ⟨rfl, htx.symm⟩

/-- The wallet holds the sample token. -/
theorem scanRef_held : (scanClient fund).Holds [scanUtxo fund] (scanRef fund) :=
  ⟨scanUtxo fund, List.mem_singleton.mpr rfl, _, ⟨_, 0, _, scanReveal_served
    fund, rfl, rfl, rfl⟩, true, scanCommitHash fund ++ leBytes 4 0, samplePkh,
    length_scanRef fund, by decide, scanRef_spelled fund, rfl⟩

/-- The chain minted it with that payload. -/
theorem scanRef_minted : Minted nftObjects (scanClient fund)
    (scanRef fund) nftPayload := by
  have hcommit : prepareCommit nftObjects.toCbor2 nftMetadata samplePkh =
      .ok (sampleCommit nftPayload true) :=
    prepareCommit_sample
  have hlen : (scanCommitHash fund).length = 32 := by cases fund <;> decide
  have hreveal :
      prepareReveal nftObjects.toCbor2 (hex (scanCommitHash fund).reverse)
      ((0 : Nat) : Int) nftPayload samplePkh true = .ok (scanScripts fund) :=
    (prepareReveal_iff readsBack_known hlen (by decide) (by decide)).mpr
      ⟨by decide, rfl, rfl⟩
  have hok : (Chunk.data [0x02]).Ok := by decide
  exact ⟨nftMetadata, samplePkh, samplePkh, true, sampleCommit nftPayload true,
    scanScripts fund, hcommit, rfl,
    ⟨_, 0, _, scanCommit_served fund, rfl, rfl, rfl⟩, hreveal, _, _,
      scanReveal_served fund,
    ⟨_, List.mem_singleton.mpr rfl, rfl⟩, scanRevealInput fund,
      List.mem_singleton.mpr rfl, ⟨rfl, rfl⟩, [0x02], [0x02], hok, hok, rfl⟩

/-- It is the only token there. -/
theorem scanRef_unique {ref : GlyphRef}
    (h : (scanClient fund).Holds [scanUtxo fund] ref) : ref = scanRef fund := by
  obtain ⟨utxo, hutxo, script, ⟨tx, k, out, hserves, hk, hout, rfl⟩, htoken⟩ :=
    h
  rw [List.mem_singleton.mp hutxo] at hserves hk
  obtain rfl : k = 0 := Int.ofNat_eq_zero.mp hk
  rcases scan_serves hserves with ⟨htxid, -⟩ | ⟨-, rfl⟩
  · exact absurd htxid (scan_txids_ne fund)
  · cases hout
    exact (tokenScript_nft (length_scanRef fund) (scanRef_spelled fund)
      (by decide)).mp htoken

/-- Only the reveal spends its commit. -/
theorem scanRef_redeemed {txid : String} {tx : Transaction}
    {i : TransactionInput}
    (hserves : (scanClient fund).Serves txid tx) (hi : i ∈ tx.inputs)
    (h : Redeems (scanRef fund) i) :
    i = scanRevealInput fund := by
  rcases scan_serves hserves with ⟨-, rfl⟩ | ⟨-, rfl⟩
  · have hne : (List.replicate 32 0x07).reverse ≠
        (scanCommitHash fund).reverse := by cases fund <;> decide
    rw [List.mem_singleton.mp hi] at h
    exact absurd (Option.some.inj h.1) (hexId_ne hne)
  · exact List.mem_singleton.mp hi

end ScanSample

/-- A reveal pushes one payload. -/
theorem payload_of_unlock
    {signature key signature' key' suffix suffix' payload payload' : Bytes}
    (hsignature : (Chunk.data signature).Ok) (hkey : (Chunk.data key).Ok)
    (hsignature' : (Chunk.data signature').Ok) (hkey' : (Chunk.data key').Ok)
    (hsuffix : buildRevealScriptsigSuffix payload = .ok suffix)
    (hsuffix' : buildRevealScriptsigSuffix payload' = .ok suffix')
    (h : pushBytes signature ++ (pushBytes key ++ suffix) =
      pushBytes signature' ++ (pushBytes key' ++ suffix')) :
    payload = payload' := by
  -- a push at the head can be taken off on both sides
  have hpeel : ∀ {d d' rest rest' : Bytes}, (Chunk.data d).Ok →
      (Chunk.data d').Ok →
      pushBytes d ++ rest = pushBytes d' ++ rest' → rest = rest' := by
    intro d d' rest rest' hd hd' heq
    have hread := @readChunk_push d rest hd
    rw [heq, readChunk_push hd', Option.some.injEq, Prod.mk.injEq] at hread
    exact hread.2.symm
  have hmarker : (Chunk.data glyMarker).Ok := by decide
  obtain ⟨push, t, rfl, hread, ht⟩ := suffix_pushes hsuffix
  obtain ⟨push', t', rfl, hread', ht'⟩ := suffix_pushes hsuffix'
  have hpush :=
    hpeel hmarker hmarker (hpeel hkey hkey' (hpeel hsignature hsignature' h))
  rw [hpush, hread', Option.some.injEq, Prod.mk.injEq] at hread
  obtain ⟨rfl, -⟩ := hread
  rcases ht with rfl | ⟨rfl, rfl⟩
  · rcases ht' with heq | ⟨heq, -⟩
    · exact Chunk.data.inj heq
    · cases heq
  · rcases ht' with heq | ⟨-, rfl⟩
    · cases heq
    · rfl

/-- The sample unlocking script carries the metadata. -/
theorem scanUnlock_read : extractRevealMetadata nftObjects scanUnlock =
    some nftMetadata.readBack := by
  have hitems : revealItems scanUnlock = .ok [[0x02], [0x02], glyMarker,
      nftPayload] := by decide
  have hmarker : afterMarker [[0x02], [0x02], glyMarker, nftPayload] =
      some nftPayload := by decide
  rw [extract_of_items hitems, hmarker, Option.bind_some, decode_nftPayload]
  rfl

/-- Where the commit transaction carries the metadata too, it agrees with the
reveal. -/
theorem scan_agrees : CommitAgrees nftObjects (scanClient .carrying)
    (scanRef .carrying) := by
  constructor
  · rintro metadata ⟨tx, i, hserves, hhead, hread⟩
    rcases scan_serves hserves with ⟨-, rfl⟩ | ⟨htxid, -⟩
    · cases hhead
      have hitems : revealItems scanUnlock = .ok [[0x02], [0x02], glyMarker,
          nftPayload] := by decide
      have hmeta : some nftMetadata.readBack = some metadata :=
        scanUnlock_read.symm.trans hread
      rw [← Option.some.inj hmeta]
      exact ⟨nftPayload, decode_nftPayload,
        ⟨_, _, scanReveal_served .carrying, scanRevealInput .carrying,
        List.mem_singleton.mpr rfl, ⟨rfl, rfl⟩, _, hitems, by decide⟩, _, _, _,
        0, _, scanCommit_served .carrying, rfl, rfl, rfl⟩
    · exact absurd htxid.symm (scan_txids_ne .carrying)
  · rintro payload metadata ⟨m, ownerPkh, recipient, isNft, commit, r, -,
      -, -, hreveal, txid, tx, hserves, -, i, hi, hredeems, signature, key,
      hsignature, hkey, hunlock⟩ hdecode
    rw [scanRef_redeemed hserves hi hredeems] at hunlock
    have hok : (Chunk.data [0x02]).Ok := by decide
    have hsuffix : buildRevealScriptsigSuffix payload =
        .ok r.scriptsigSuffix := by
      obtain ⟨_, -, hreveal⟩ := bind_ok.mp hreveal
      obtain ⟨_, -, hreveal⟩ := bind_ok.mp hreveal
      obtain ⟨_, -, hreveal⟩ := bind_ok.mp hreveal
      obtain ⟨_, hsuffix, hreveal⟩ := bind_ok.mp hreveal
      cases hreveal
      exact hsuffix
    have hsample : buildRevealScriptsigSuffix nftPayload =
        .ok (0x03 :: glyMarker ++ 0x05 :: nftPayload) := rfl
    rw [payload_of_unlock hsignature hkey hok hok hsuffix hsample
      (Option.some.inj hunlock).symm, decode_nftPayload,
      Except.ok.injEq] at hdecode
    rw [← hdecode]
    exact ⟨_, _, scanCommit_served .carrying, rfl, scanUnlock_read⟩

/-- The token is returned with its metadata. -/
theorem scan_metadata_iff_carrying : ∃ items,
    scanScriptHash nftObjects (scanClient .carrying)
      (sha256 (scanScripts .carrying).lockingScript) = .ok items ∧
    MetadataFaithful nftObjects (scanClient .carrying)
      [scanUtxo .carrying] items ∧
    ∃ item ∈ items, item.ref = scanRef .carrying ∧
    item.metadata = some nftMetadata.readBack := by
  obtain ⟨items, hscan, hfaithful⟩ :=
    (scan_metadata_iff nftObjects (scanClient .carrying)
    (sha256 (scanScripts .carrying).lockingScript) [scanUtxo .carrying]
      (scanClient_honest .carrying) rfl).mpr
    fun ref href => scanRef_unique href ▸ scan_agrees
  exact ⟨items, hscan, hfaithful,
    hfaithful.returned _ _ _ scanRef_held scanRef_minted decode_nftPayload⟩

/-- **A token is returned without the metadata it was minted with**: nothing is
pushed behind a marker by the transaction that holds the commit. -/
theorem scan_misses_metadata : (scanClient .anyone).Honest ∧
    (scanClient .anyone).getUtxos (sha256 (scanScripts .anyone).lockingScript) =
      .ok [scanUtxo .anyone] ∧
    ¬ ∃ items, scanScriptHash nftObjects (scanClient .anyone)
      (sha256 (scanScripts .anyone).lockingScript) = .ok items ∧
    MetadataFaithful nftObjects (scanClient .anyone)
      [scanUtxo .anyone] items := by
  refine ⟨scanClient_honest .anyone, rfl, ?_⟩
  rintro ⟨items, hscan, hfaithful⟩
  obtain ⟨items', hscan', hitems⟩ := @scan_items nftObjects
      (scanClient .anyone) [scanUtxo .anyone] (scanClient_honest .anyone)
      (sha256 (scanScripts .anyone).lockingScript) rfl
  rw [hscan', Except.ok.injEq] at hscan
  subst hscan
  have hreturned := hfaithful.returned (scanRef .anyone) nftPayload
    nftMetadata.readBack scanRef_held scanRef_minted decode_nftPayload
  obtain ⟨tx, i, hserves, hhead, hread⟩ :=
    fetch_some.mp ((hitems (scanRef .anyone) (some nftMetadata.readBack)).mp
      hreturned).2.symm
  rcases scan_serves hserves with ⟨-, rfl⟩ | ⟨htxid, -⟩
  · cases hhead
    have hitems : revealItems [0x51] = .ok [] := by decide
    have hread : extractRevealMetadata nftObjects [0x51] =
        some nftMetadata.readBack := hread
    rw [extract_of_items hitems] at hread
    cases hread
  · exact absurd htxid.symm (scan_txids_ne .anyone)

end Pyrxd.Glyph
