import Pyrxd.Glyph.SoulboundPaths
import Pyrxd.Glyph.TokenCode

/-!
# The two outputs of a mutable reveal

`prepare_mutable_reveal` and `prepare_wave_reveal` return the token's script and
the contract's script, both to be placed in the reveal transaction. Both carry
the ref of the commit as a singleton, and a transaction that has two outputs
with one singleton is not valid.
-/

namespace Pyrxd.Glyph

open Pyrxd.Lib

/-- Some valid transaction has both scripts among its outputs. -/
def CanBeOutputs (a b : Bytes) : Prop :=
  ∃ outs : List TxOut, SingletonsOnce outs ∧
  ∃ (i j : Nat) (o p : TxOut), i ≠ j ∧ outs[i]? = some o ∧ outs[j]? = some p ∧
    o.script = a ∧ p.script = b

/-- The scripts are those of a mutable token or of a name. -/
def RevealsMutable (lib : Cbor2) (printable : Char → Bool) (txid : String)
    (vout : Int) (cbor pkh : Bytes)
    (m : MutableRevealScripts) : Prop :=
  prepareMutableReveal lib txid vout cbor pkh = .ok m ∨
    ∃ name, prepareWaveReveal lib printable txid vout cbor pkh name = .ok m

section Refs

variable {ref hash pkh : Bytes}

/-- An NFT output carries its reference as a singleton. -/
theorem singletonRefs_nft (href : ref.length = 36) (hpkh : pkh.length = 20) :
    ref ∈ singletonRefs (nftFrame ref pkh) := by
  rw [← nftCode_bytes hpkh, singletonRefs,
    refsBehind_assemble _ (nftCode_ok href hpkh), List.mem_filterMap]
  exact ⟨.ref 0xD8 ref, List.mem_append_left _ List.mem_cons_self, rfl⟩

theorem singletonRefs_mutable (href : ref.length = 36)
    (hhash : hash.length = 32) :
    ref ∈ singletonRefs (mutableFrame ref hash) := by
  have hmem : Chunk.ref 0xD8 ref ∈ mutableCode ref hash := by
    refine List.mem_append_left _ ?_
    simp only [List.mem_cons, true_or, or_true]
  rw [← mutableCode_bytes hhash, singletonRefs,
    refsBehind_assemble _ (mutableCode_ok href hhash), List.mem_filterMap]
  exact ⟨.ref 0xD8 ref, hmem, rfl⟩

/-- Scripts that carry one singleton are never outputs of one transaction. -/
theorem not_canBeOutputs {a b : Bytes} (ha : ref ∈ singletonRefs a)
    (hb : ref ∈ singletonRefs b) :
    ¬ CanBeOutputs a b := by
  rintro ⟨outs, honce, i, j, o, p, hne, ho, hp, rfl, rfl⟩
  exact hne (honce i j o p ref ho hp ha hb)

end Refs

/-- A name is revealed as a mutable token. -/
theorem RevealsMutable.reveals {lib : Cbor2} {printable : Char → Bool}
    {txid : String} {vout : Int}
    {cbor pkh : Bytes} {m : MutableRevealScripts}
    (h : RevealsMutable lib printable txid vout cbor pkh m) :
    prepareMutableReveal lib txid vout cbor pkh = .ok m := by
  rcases h with h | ⟨name, h⟩
  · exact h
  · rw [prepareWaveReveal, refuseIf_bind_ok] at h
    obtain ⟨-, -, h⟩ := bind_ok.mp h.2
    exact h

/-- **The scripts of a mutable reveal are never outputs of one transaction**,
whatever the commit, the owner and the payload: the token and its contract carry
the same singleton. -/
theorem mutable_reveal_impossible (lib : Cbor2) (printable : Char → Bool)
    (txid : String) (vout : Int)
    (cbor pkh : Bytes) (m : MutableRevealScripts)
    (h : RevealsMutable lib printable txid vout cbor pkh m) :
    ¬ CanBeOutputs m.nftScript m.contractScript := by
  obtain ⟨ref, href, hpkh, -, hnft, hcontract⟩ :=
    prepareMutableReveal_ok h.reveals
  rw [hnft, hcontract]
  exact not_canBeOutputs (singletonRefs_nft href hpkh)
    (singletonRefs_mutable href (length_sha256 _))

/-! ## A token and a name -/

/-- A library that knows one payload, and how its protocol list is shown. -/
def knownPayload (cbor : Bytes) (data : Cbor) (shown : String) : Cbor2 where
  loads := fun b => if b = cbor then .ok data
    else .error (.other "premature end of stream")
  dumps := fun _ => cbor
  dumpsCanonical := fun _ => cbor
  str := fun _ => shown
  repr := fun _ => shown

/-- `{"p": [2, 5]}`. -/
def mutablePayload : Bytes := [0xA1, 0x61, 0x70, 0x82, 0x02, 0x05]

def mutableData : Cbor := .map [(.text "p", .list [.int 2, .int 5])]

/-- The txid of the commit. -/
def commitTxid : String :=
  "a443d9df469692306f7a2566536b19ed7909d8bf264f5a01f5a9b171c7c3878b"

def commitRefBytes : Bytes :=
  [0x8B, 0x87, 0xC3, 0xC7, 0x71, 0xB1, 0xA9, 0xF5, 0x01, 0x5A, 0x4F, 0x26, 0xBF,
    0xD8, 0x09, 0x79, 0xED, 0x19, 0x6B, 0x53, 0x66, 0x25, 0x7A, 0x6F, 0x30,
    0x92, 0x96, 0x46, 0xDF, 0xD9, 0x43, 0xA4, 0, 0, 0, 0]

/-- What is prepared for that commit and any payload that is small enough. -/
def mutableScripts (cbor suffix pkh : Bytes) : MutableRevealScripts where
  ref := ⟨commitTxid, 0, by decide⟩
  nftScript := nftFrame commitRefBytes pkh
  contractScript := mutableFrame commitRefBytes (hash256 cbor)
  scriptsigSuffix := suffix
  payloadHash := hash256 cbor

/-- The sample mutable reveal, for any payload the library checks. -/
theorem prepareMutableReveal_sample {lib : Cbor2} {cbor suffix pkh : Bytes}
    (hpkh : pkh.length = 20)
    (hcheck : tokenCheck lib cbor "MUT" mutProtocol = .ok ())
    (hsuffix : buildRevealScriptsigSuffix cbor = .ok suffix) :
    prepareMutableReveal lib commitTxid 0 cbor pkh = .ok
      (mutableScripts cbor suffix pkh) := by
  have href : (⟨commitTxid, 0, by decide⟩ : CommitRef).toBytes =
      .ok commitRefBytes := by decide
  have hmake : CommitRef.make commitTxid 0 = .ok ⟨commitTxid,
      0, by decide⟩ := rfl
  have hcontract : mutableScriptOf ⟨commitTxid, 0, by decide⟩ (hash256 cbor) =
      .ok (mutableFrame commitRefBytes (hash256 cbor)) :=
    mutableScriptOf_ok.mpr ⟨length_sha256 _, commitRefBytes, href, rfl, rfl⟩
  rw [prepareMutableReveal, hcheck, ok_bind, hmake, ok_bind,
    nftScriptOf_ok.mpr ⟨hpkh, commitRefBytes, href, rfl, rfl⟩, ok_bind,
      hcontract, ok_bind, hsuffix]
  rfl

/-- The statement at the sample token. -/
theorem mutable_reveal_impossible_token :
    ¬ CanBeOutputs (mutableScripts mutablePayload (0x03 :: glyMarker ++
      (6 :: mutablePayload)) samplePkh).nftScript (mutableScripts mutablePayload
      (0x03 :: glyMarker ++ (6 :: mutablePayload)) samplePkh).contractScript :=
  mutable_reveal_impossible (knownPayload mutablePayload mutableData "[2, 5]")
    (fun _ => true) commitTxid 0 mutablePayload samplePkh _
    (.inl (prepareMutableReveal_sample rfl (by decide) rfl))

/-- `{"p": [2, 5, 11], "attrs": {"name": "alice.rxd"}}`. -/
def namePayload : Bytes :=
  [0xA2, 0x61, 0x70, 0x83, 0x02, 0x05, 0x0B, 0x65, 0x61, 0x74, 0x74, 0x72, 0x73,
    0xA1, 0x64, 0x6E, 0x61, 0x6D, 0x65, 0x69, 0x61, 0x6C, 0x69, 0x63, 0x65,
    0x2E, 0x72, 0x78, 0x64]

def nameData : Cbor :=
  .map [(.text "p", .list [.int 2, .int 5, .int 11]),
    (.text "attrs", .map [(.text "name", .text "alice.rxd")])]

/-- **A name can be prepared but not revealed.** -/
theorem name_not_revealed :
    ∃ m, prepareWaveReveal (knownPayload namePayload nameData "[2, 5, 11]")
      (fun _ => true) commitTxid 0 namePayload samplePkh "alice.rxd" = .ok m ∧
    ¬ CanBeOutputs m.nftScript m.contractScript := by
  refine ⟨mutableScripts namePayload (0x03 :: glyMarker ++
    (29 :: namePayload)) samplePkh, ?_, ?_⟩
  · have hname : ¬ ("alice.rxd" = "" ∨ "alice.rxd".toList.all (fun _ => true) =
        false ∨ "alice.rxd".length > 255) := by
      decide
    have hwave : waveCheck (knownPayload namePayload nameData "[2, 5, 11]")
        namePayload "alice.rxd" = .ok () := by decide
    rw [prepareWaveReveal, refuseIf_bind_ok]
    refine ⟨hname, ?_⟩
    rw [hwave, ok_bind]
    exact prepareMutableReveal_sample rfl (by decide) rfl
  · exact not_canBeOutputs (@singletonRefs_nft commitRefBytes samplePkh rfl rfl)
      (@singletonRefs_mutable commitRefBytes (hash256 namePayload) rfl
        (length_sha256 _))

end Pyrxd.Glyph
