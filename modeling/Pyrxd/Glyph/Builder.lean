import Pyrxd.Glyph.Metadata
import Pyrxd.Glyph.ScriptExact

/-!
# The commit and the reveal of a token

`GlyphBuilder` of `glyph/builder.py`, as far as it prepares scripts: the commit
script of some metadata, and the scripts that reveal it, of a plain token, of a
mutable one, of a name and of a container. With them the scriptSig suffix of
`glyph/payload.py`.
-/

namespace Pyrxd.Glyph

open Pyrxd.Lib Pyrxd.Tx
open Pyrxd.Swap (GlyphRef buildFtLockingScript)

/-! ## Refs of a commit -/

/-- `GlyphRef(txid=commit_txid, vout=commit_vout)`. Nothing looks at the string
before it is written out. -/
structure CommitRef where
  txid : String
  vout : Int
  ofVout : 0 ≤ vout ∧ vout ≤ 0xFFFFFFFF

namespace CommitRef

theorem eq_iff {a b : CommitRef} : a = b ↔ a.txid = b.txid ∧
    a.vout = b.vout := by
  rcases a with ⟨txid, vout, hvout⟩
  rcases b with ⟨txid', vout', hvout'⟩
  rw [CommitRef.mk.injEq]

instance : DecidableEq CommitRef := fun _ _ => decidable_of_iff' _ eq_iff

def make (txid : String) (vout : Int) : Except PyErr CommitRef :=
  if h : 0 ≤ vout ∧ vout ≤ 0xFFFFFFFF then .ok ⟨txid, vout, h⟩
    else invalid "vout must be 0..2^32-1"

def toBytes (r : CommitRef) : Except PyErr Bytes := do
  let txid ← txidBytes (some r.txid)
  let vout ← toBytesLe 4 r.vout
  return txid ++ vout

def ofGlyphRef (r : GlyphRef) : CommitRef := ⟨r.txid, r.vout, r.ofVout⟩

end CommitRef

/-- `build_nft_locking_script` of such a ref. -/
def nftScriptOf (pkh : Bytes) (ref : CommitRef) : Except PyErr Bytes := do
  checkHex20 pkh
  let refBytes ← ref.toBytes
  checkLength "NFT locking script length" 63 (nftFrame refBytes pkh)

/-- `build_ft_locking_script`. -/
def ftScriptOf (pkh : Bytes) (ref : CommitRef) : Except PyErr Bytes := do
  checkHex20 pkh
  let refBytes ← ref.toBytes
  checkLength "FT locking script length" 75 (ftFrame pkh refBytes)

/-- `build_mutable_nft_script`. -/
def mutableScriptOf (ref : CommitRef) (payloadHash : Bytes) :
    Except PyErr Bytes := do
  refuseIf (payloadHash.length ≠ 32) "payload_hash must be 32 bytes"
  let refBytes ← ref.toBytes
  checkLength "Mutable NFT script size" 174 (mutableFrame refBytes payloadHash)

/-! ## The commit -/

structure CommitResult where
  commitScript : Bytes
  cborBytes : Bytes
  payloadHash : Bytes
  estimatedFee : Int

/-- The ref type a commit asks for. -/
def isNftMetadata (m : GlyphMetadata) : Bool := nftProtocol ∈ m.protocol

/-- `prepare_commit`. -/
def prepareCommit (lib : Cbor2) (m : GlyphMetadata) (ownerPkh : Bytes) :
    Except PyErr CommitResult := do
  let (cborBytes, payloadHash) := encodePayload lib m
  let commitScript ← buildCommitLockingScript payloadHash ownerPkh
    (isNftMetadata m)
  return ⟨commitScript, cborBytes, payloadHash, 276 * 10000⟩

/-! ## The scriptSig of a reveal -/

/-- `_MAX_CBOR_PAYLOAD_BYTES`. -/
def maxCborPayloadBytes : Nat := 262144

/-- `GLY_MARKER`. -/
def glyMarker : Bytes := [0x67, 0x6C, 0x79]

/-- `build_reveal_scriptsig_suffix`. -/
def buildRevealScriptsigSuffix (cbor : Bytes) : Except PyErr Bytes :=
  let len := cbor.length
  if len ≤ 75 then .ok (0x03 :: glyMarker ++ ([UInt8.ofNat len] ++ cbor))
  else if len ≤ 255 then .ok (0x03 :: glyMarker ++
    ([0x4C, UInt8.ofNat len] ++ cbor))
  else if len ≤ 65535 then .ok (0x03 :: glyMarker ++
    ([0x4D] ++ leBytes 2 len ++ cbor))
  else if len ≤ maxCborPayloadBytes then .ok (0x03 :: glyMarker ++
    ([0x4E] ++ leBytes 4 len ++ cbor))
  else invalid ("CBOR payload too large for script: " ++ toString len ++
    " > " ++ toString maxCborPayloadBytes)

/-! ## Reveals -/

/-- `except ValidationError: raise`,
`except Exception as e: raise ValidationError(what + str(e))`. -/
def wrapException {α : Type} (what : String) : Except PyErr α → Except PyErr α
  | .error (.other msg) => invalid (what ++ msg)
  | x => x

/-- The check that the protocol list in the payload holds what it must; `fails`
is the message. -/
def requireProtocol (protocol : Cbor) (n : Int) (fails : String) :
    Except PyErr Unit := do
  let present ← protocol.hasInt n
  refuseIf (present = false) fails

structure RevealScripts where
  lockingScript : Bytes
  scriptsigSuffix : Bytes
deriving DecidableEq

/-- The cross-check of `prepare_reveal`. -/
def revealCheck (lib : Cbor2) (cborBytes : Bytes) (isNft : Bool) :
    Except PyErr Unit :=
  wrapException "Could not parse CBOR payload for protocol cross-check: " do
    let data ← lib.loads cborBytes
    let protocol ← data.get "p" (.list [])
    if isNft then
      requireProtocol protocol nftProtocol
        ("is_nft=True but CBOR protocol field " ++ lib.repr protocol ++
        " does not include GlyphProtocol.NFT (2)")
    else
      requireProtocol protocol ftProtocol
        ("is_nft=False but CBOR protocol field " ++ lib.repr protocol ++
        " does not include GlyphProtocol.FT (1)")

/-- The locking script of a revealed token. -/
def revealScriptOf (isNft : Bool) (pkh : Bytes) (ref : CommitRef) :
    Except PyErr Bytes :=
  if isNft then nftScriptOf pkh ref else ftScriptOf pkh ref

/-- `prepare_reveal`. -/
def prepareReveal (lib : Cbor2) (commitTxid : String) (commitVout : Int)
    (cborBytes ownerPkh : Bytes)
    (isNft : Bool) : Except PyErr RevealScripts := do
  revealCheck lib cborBytes isNft
  let ref ← CommitRef.make commitTxid commitVout
  let locking ← revealScriptOf isNft ownerPkh ref
  let suffix ← buildRevealScriptsigSuffix cborBytes
  return ⟨locking, suffix⟩

/-- The cross-check of the other reveals: the protocol `n`, called `name`. -/
def tokenCheck (lib : Cbor2) (cborBytes : Bytes) (name : String) (n : Int) :
    Except PyErr Unit :=
  wrapException ("Could not parse CBOR for " ++ name ++ " cross-check: ") do
    let data ← lib.loads cborBytes
    let protocol ← data.get "p" (.list [])
    requireProtocol protocol n ("CBOR protocol field " ++ lib.repr protocol ++
      " must include GlyphProtocol." ++ name ++ " (" ++ toString n ++ ")")

structure MutableRevealScripts where
  ref : CommitRef
  nftScript : Bytes
  contractScript : Bytes
  scriptsigSuffix : Bytes
  payloadHash : Bytes
deriving DecidableEq

/-- `prepare_mutable_reveal`. -/
def prepareMutableReveal (lib : Cbor2) (commitTxid : String) (commitVout : Int)
    (cborBytes ownerPkh : Bytes) : Except PyErr MutableRevealScripts := do
  tokenCheck lib cborBytes "MUT" mutProtocol
  let ref ← CommitRef.make commitTxid commitVout
  let payloadHash := hash256 cborBytes
  let nftScript ← nftScriptOf ownerPkh ref
  let contractScript ← mutableScriptOf ref payloadHash
  let suffix ← buildRevealScriptsigSuffix cborBytes
  return ⟨ref, nftScript, contractScript, suffix, payloadHash⟩

structure ContainerRevealScripts where
  ref : CommitRef
  lockingScript : Bytes
  scriptsigSuffix : Bytes
  childRef : Option CommitRef

/-- The locking script of a container: an NFT script, the child's ref pushed in
front of it. -/
def containerScript (childRef : Option CommitRef) (nftBody : Bytes) :
    Except PyErr Bytes :=
  match childRef with
  | some child => do
    let childBytes ← child.toBytes
    return [0xD0] ++ childBytes ++ nftBody
  | none => .ok nftBody

/-- `prepare_container_reveal`. -/
def prepareContainerReveal (lib : Cbor2) (commitTxid : String)
    (commitVout : Int) (cborBytes ownerPkh : Bytes)
    (childRef : Option CommitRef) : Except PyErr ContainerRevealScripts := do
  tokenCheck lib cborBytes "CONTAINER" containerProtocol
  let ref ← CommitRef.make commitTxid commitVout
  let nftBody ← nftScriptOf ownerPkh ref
  let locking ← containerScript childRef nftBody
  let suffix ← buildRevealScriptsigSuffix cborBytes
  return ⟨ref, locking, suffix, childRef⟩

/-- The name a payload gives: `attrs.name` or, behind it, the top-level `name`
or `n`. -/
def waveName (data : Cbor) : Except PyErr Cbor := do
  let attrs ← data.get "attrs"
  let named ← match attrs with
    | .map _ => attrs.get "name"
    | _ => .ok .none
  if named.truthy then return named
  let top ← data.get "name"
  if top.truthy then return top
  data.get "n" (.text "")

/-- The cross-check of `prepare_wave_reveal`. -/
def waveCheck (lib : Cbor2) (cborBytes : Bytes) (name : String) :
    Except PyErr Unit :=
  wrapException "Could not parse CBOR for WAVE cross-check: " do
    let data ← lib.loads cborBytes
    let protocol ← data.get "p" (.list [])
    requireProtocol protocol waveProtocol ("CBOR protocol field " ++
      lib.repr protocol ++
      " must include GlyphProtocol.WAVE (11)")
    requireProtocol protocol mutProtocol
      "WAVE protocol must also include GlyphProtocol.MUT (5)"
    let cborName ← waveName data
    refuseIf (cborName.eqText name = false) ("name argument " ++ reprStr name ++
      " does not match CBOR name field " ++ lib.repr cborName ++
      ". Checked attrs.name then top-level name/n.")

/-- `prepare_wave_reveal`; `printable` is Unicode's table. -/
def prepareWaveReveal (lib : Cbor2) (printable : Char → Bool)
    (commitTxid : String) (commitVout : Int)
    (cborBytes ownerPkh : Bytes) (name : String) :
    Except PyErr MutableRevealScripts := do
  refuseIf (name = "" ∨ name.toList.all printable = false ∨ name.length > 255)
    "WAVE name must be non-empty printable ASCII, max 255 characters"
  waveCheck lib cborBytes name
  prepareMutableReveal lib commitTxid commitVout cborBytes ownerPkh

/-! ## What they return -/

section Returns

variable {lib : Cbor2} {txid : String} {vout : Int} {cbor pkh s hash : Bytes}
  {ref : CommitRef} {r : Bytes}

/-- The length check passes its argument through. -/
theorem checkLength_ok {what : String} {n : Nat} :
    checkLength what n s = .ok r ↔ s.length = n ∧ r = s := by
  rw [checkLength]
  by_cases h : s.length = n
  · rw [if_neg (not_not.mpr h), Except.ok.injEq]
    exact ⟨fun he => ⟨h, he.symm⟩, fun he => he.2.symm⟩
  · rw [if_pos h]
    exact ⟨fun he => (by cases he), fun he => absurd he.1 h⟩

/-- A ref that fits the script is of 36 bytes. -/
theorem nftScriptOf_ok : nftScriptOf pkh ref = .ok s ↔
    pkh.length = 20 ∧ ∃ data, ref.toBytes = .ok data ∧ data.length = 36 ∧
    s = nftFrame data pkh := by
  rw [nftScriptOf, checkHex20_bind_ok, bind_ok]
  refine and_congr_right fun hpkh => exists_congr fun data =>
    and_congr_right fun _ => ?_
  have hlen : (nftFrame data pkh).length = data.length + 27 := by
    simp only [nftFrame, List.length_append, hpkh, List.length_cons,
      List.length_nil]
    omega
  rw [checkLength_ok, hlen]
  exact and_congr_left fun _ => ⟨fun h => by omega, fun h => by omega⟩

/-- The FT script is built exactly from a 20-byte hash and a 36-byte reference.
-/
theorem ftScriptOf_ok : ftScriptOf pkh ref = .ok s ↔
    pkh.length = 20 ∧ ∃ data, ref.toBytes = .ok data ∧ data.length = 36 ∧
    s = ftFrame pkh data := by
  rw [ftScriptOf, checkHex20_bind_ok, bind_ok]
  refine and_congr_right fun hpkh => exists_congr fun data =>
    and_congr_right fun _ => ?_
  have hlen : (ftFrame pkh data).length = data.length + 39 := by
    simp only [ftFrame, List.length_append, hpkh]
    show 3 + 20 + 2 + (2 + data.length + 12) = data.length + 39
    omega
  rw [checkLength_ok, hlen]
  exact and_congr_left fun _ => ⟨fun h => by omega, fun h => by omega⟩

/-- The mutable script is built exactly from a 32-byte hash and a 36-byte
reference. -/
theorem mutableScriptOf_ok : mutableScriptOf ref hash = .ok s ↔
    hash.length = 32 ∧ ∃ data, ref.toBytes = .ok data ∧ data.length = 36 ∧
    s = mutableFrame data hash := by
  rw [mutableScriptOf, refuseIf_bind_ok, not_not, bind_ok]
  refine and_congr_right fun hhash => exists_congr fun data =>
    and_congr_right fun _ => ?_
  have hlen : (mutableFrame data hash).length = data.length + 138 := by
    simp only [mutableFrame, List.length_append, hhash]
    show 1 + 32 + 3 + data.length + 102 = data.length + 138
    omega
  rw [checkLength_ok, hlen]
  exact and_congr_left fun _ => ⟨fun h => by omega, fun h => by omega⟩

/-- Wrapping renames errors and keeps every result. -/
theorem wrapException_ok {α : Type} {what : String}
    {x : Except PyErr α} {a : α} :
    wrapException what x = .ok a ↔ x = .ok a := by
  unfold wrapException
  split
  · exact ⟨nofun, nofun⟩
  · exact Iff.rfl

/-- The protocol check passes when the payload lists that protocol. -/
theorem requireProtocol_ok {protocol : Cbor} {n : Int}
    {fails : String} {u : Unit} :
    requireProtocol protocol n fails = .ok u ↔
    protocol.hasInt n = .ok true := by
  rw [requireProtocol, bind_ok]
  constructor
  · rintro ⟨b, hb, h⟩
    rw [refuseIf_ok, Bool.not_eq_false] at h
    rw [hb, h]
  · intro h
    exact ⟨true, h, refuseIf_ok.mpr (by decide)⟩

/-- The suffix is refused just for a payload that is too large. -/
theorem buildRevealScriptsigSuffix_returns :
    (∃ suffix, buildRevealScriptsigSuffix cbor = .ok suffix) ↔
    cbor.length ≤ maxCborPayloadBytes := by
  have h75 : 75 ≤ maxCborPayloadBytes := by decide
  have h255 : 255 ≤ maxCborPayloadBytes := by decide
  have h65535 : 65535 ≤ maxCborPayloadBytes := by decide
  rw [buildRevealScriptsigSuffix]
  split
  · exact ⟨fun _ => by omega, fun _ => ⟨_, rfl⟩⟩
  · split
    · exact ⟨fun _ => by omega, fun _ => ⟨_, rfl⟩⟩
    · split
      · exact ⟨fun _ => by omega, fun _ => ⟨_, rfl⟩⟩
      · split
        · exact ⟨fun _ => by omega, fun _ => ⟨_, rfl⟩⟩
        · exact ⟨nofun, fun h => by omega⟩

/-- Both scripts of a mutable token carry the ref of the commit. -/
theorem prepareMutableReveal_ok {m : MutableRevealScripts}
    (h : prepareMutableReveal lib txid vout cbor pkh = .ok m) :
    ∃ data, data.length = 36 ∧ pkh.length = 20 ∧ m.ref.toBytes = .ok data ∧
    m.nftScript = nftFrame data pkh ∧
      m.contractScript = mutableFrame data (hash256 cbor) := by
  rw [prepareMutableReveal] at h
  obtain ⟨-, -, h⟩ := bind_ok.mp h
  obtain ⟨ref, -, h⟩ := bind_ok.mp h
  obtain ⟨nft, hnft, h⟩ := bind_ok.mp h
  obtain ⟨contract, hcontract, h⟩ := bind_ok.mp h
  obtain ⟨suffix, -, h⟩ := bind_ok.mp h
  cases h
  obtain ⟨hpkh, data, hdata, hlen, hs⟩ := nftScriptOf_ok.mp hnft
  obtain ⟨-, data', hdata', -, hs'⟩ := mutableScriptOf_ok.mp hcontract
  rw [hdata, Except.ok.injEq] at hdata'
  exact ⟨data, hlen, hpkh, hdata, hs, by rw [hs', hdata']⟩

end Returns

end Pyrxd.Glyph
