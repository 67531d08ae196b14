import Pyrxd.Glyph.CreatorSig
import Pyrxd.Swap.PartialSafety

/-!
# When a creator signature verifies

The verifier encodes the dict of the signed metadata, where `creator` stands
between `dmint` and `royalty`; the signer encoded it with `creator` at the end,
unless the metadata already had one. The two are the same dict in the same order
when nothing is written behind `creator` (`CreatorInPlace`). What was committed
is read back with the attributes in canonical order, so there the verifier also
wants them signed in that order.

Main result: `creator_signature_iff`.
-/

namespace Pyrxd.Glyph

open Pyrxd.Lib
open Pyrxd.Swap (Curve PrivateKey isLowerHex all_hexChars)
open Cbor (present eqText_text mem_present lookup lookup_present)

/-! ## Dicts with an entry set -/

section SetItem

variable {fields before after before' : List (String × Option Cbor)}
  {key : String} {u v : Cbor}

/-- Two field lists are written one behind the other. -/
theorem present_append : present (before ++ after) =
    present before ++ present after := by
  induction before with
  | nil => rfl
  | cons f before ih =>
    obtain ⟨k, o⟩ := f
    cases o with
    | none => exact ih
    | some x => exact congrArg ((Cbor.text k, x) :: ·) ih

/-- Setting an absent key leaves the entries in front alone. -/
theorem setItem_append {d d' : List (Cbor × Cbor)}
    (h : ∀ e ∈ d, Cbor.eqText key e.1 ≠ true) :
    setItem key v (d ++ d') = d ++ setItem key v d' := by
  induction d with
  | nil => rfl
  | cons e d ih =>
    rw [List.cons_append, setItem, if_neg (h e List.mem_cons_self),
      ih fun f hf => h f (List.mem_cons_of_mem e hf)]
    rfl

/-- A name no field has is no key of what is written. -/
theorem not_key_of_present (h : key ∉ fields.map Prod.fst) :
    ∀ e ∈ present fields, Cbor.eqText key e.1 ≠ true := by
  intro e he hkey
  obtain ⟨k, hk, htext⟩ := mem_present he
  rw [htext, eqText_text] at hkey
  exact h (hkey ▸ hk)

/-- A new key is put at the end. -/
theorem setItem_new (h : key ∉ fields.map Prod.fst) :
    setItem key v (present fields) = present fields ++ [(.text key, v)] := by
  have happend :=
    @setItem_append key v (present fields) [] (not_key_of_present h)
  rw [List.append_nil] at happend
  exact happend

/-- A key that is there keeps its place. -/
theorem setItem_present (h : key ∉ before.map Prod.fst) :
    setItem key v (present (before ++ (key, some u) :: after)) = present
      (before ++ (key, some v) :: after) := by
  rw [present_append, setItem_append (not_key_of_present h), present_append,
    present, present, setItem,
    if_pos (eqText_text.mpr rfl)]

/-- A dict ends with this entry whether it was put there or has its place there
only if nothing follows the place. -/
theorem last_in_place (h : key ∉ after.map Prod.fst)
    (heq : present (before ++ after) ++
      [(.text key, v)] = present (before' ++ (key, some v) :: after)) :
    present after = [] := by
  rw [present_append, present_append, present] at heq
  rcases List.eq_nil_or_concat (present after) with hnil | ⟨l, e, hl⟩
  · exact hnil
  · have he : e ∈ present after := by
      rw [hl, List.concat_eq_append]
      exact List.mem_append_right _ List.mem_cons_self
    have hend : present before ++ (l ++ [e]) ++ [(.text key, v)] =
        (present before' ++ (.text key, v) :: l) ++ [e] := by
      rw [hl, List.concat_eq_append] at heq
      rw [heq, List.append_assoc]
      rfl
    obtain ⟨-, hlast⟩ := List.append_inj' hend rfl
    have hkey := not_key_of_present h e he
    rw [← (List.cons.inj hlast).1] at hkey
    exact absurd (eqText_text.mpr rfl) hkey

end SetItem

/-! ## The dict that is signed -/

section Dicts

variable {m : GlyphMetadata} {pubkey algo : String}

/-- The creator entry is written in one place only: not before it. -/
theorem creator_not_before (m : GlyphMetadata) :
    "creator" ∉ m.fieldsBefore.map Prod.fst := by
  show "creator" ∉ ["v", "p", "name", "ticker", "desc", "type", "main",
    "attrs", "loc", "loc_hash", "decimals", "image", "image_ipfs",
    "image_sha256", "dmint"]
  decide

theorem creator_not_after (m : GlyphMetadata) :
    "creator" ∉ m.fieldsAfter.map Prod.fst := by
  show "creator" ∉ ["royalty", "policy", "rights", "created", "commit_outpoint"]
  decide

/-- With a creator set, its entry is replaced where it stands. -/
theorem signingDict_some (h : m.creator.isSome) : signingDict m pubkey algo =
    present (m.fieldsBefore ++ ("creator",
      some (unsignedCreator pubkey algo)) :: m.fieldsAfter) := by
  obtain ⟨c, hc⟩ := Option.isSome_iff_exists.mp h
  rw [signingDict, GlyphMetadata.toCborDict, hc]
  exact setItem_present (creator_not_before m)

/-- Without one, the entry goes to the end. -/
theorem signingDict_none (h : m.creator = none) : signingDict m pubkey algo =
    present (m.fieldsBefore ++ m.fieldsAfter) ++
    [(.text "creator", unsignedCreator pubkey algo)] := by
  have hdict : m.toCborDict = present (m.fieldsBefore ++ m.fieldsAfter) := by
    rw [GlyphMetadata.toCborDict, h, present_append, present_append]
    rfl
  rw [signingDict, hdict]
  refine setItem_new ?_
  rw [List.map_append, List.mem_append, not_or]
  exact ⟨creator_not_before m, creator_not_after m⟩

/-- `creator` is signed where it is written: it was there before, or nothing is
written behind it. -/
def CreatorInPlace (m : GlyphMetadata) : Prop :=
  m.creator.isSome ∨
    (m.royalty = none ∧ (∀ p ∈ m.policy, p.entries = []) ∧
      (∀ r ∈ m.rights, r.entries = []) ∧ m.created = "" ∧ m.commitOutpoint = "")

theorem dictField_eq_none {entries : List (Cbor × Cbor)} :
    dictField entries = none ↔ entries = [] := by
  rw [dictField]
  cases entries with
  | nil => exact ⟨fun _ => rfl, fun _ => rfl⟩
  | cons e entries => exact ⟨fun h => (by cases h), fun h => (by cases h)⟩

theorem textField_eq_none {s : String} : Cbor.textField s = none ↔ s = "" := by
  rw [Cbor.textField]
  split
  · next h => exact ⟨fun _ => h, fun _ => rfl⟩
  · next h => exact ⟨fun hs => (by cases hs), fun hs => absurd hs h⟩

/-- Nothing is written when every field is left out. -/
theorem present_eq_nil {fields : List (String × Option Cbor)} :
    present fields = [] ↔ ∀ f ∈ fields, f.2 = none := by
  induction fields with
  | nil => exact ⟨fun _ => nofun, fun _ => rfl⟩
  | cons f fields ih =>
    obtain ⟨k, o⟩ := f
    rw [List.forall_mem_cons]
    cases o with
    | none => exact ⟨fun h => ⟨rfl, ih.mp h⟩, fun h => ih.mpr h.2⟩
    | some x => exact ⟨nofun, fun h => absurd h.1 nofun⟩

theorem present_fieldsAfter : present m.fieldsAfter = [] ↔
    m.royalty = none ∧ (∀ p ∈ m.policy, p.entries = []) ∧
    (∀ r ∈ m.rights, r.entries = []) ∧ m.created = "" ∧
    m.commitOutpoint = "" := by
  rw [present_eq_nil, GlyphMetadata.fieldsAfter]
  simp only [List.forall_mem_cons, Option.map_eq_none_iff,
    Option.bind_eq_none_iff, dictField_eq_none, textField_eq_none,
    Option.mem_def, List.not_mem_nil, false_imp_iff, implies_true, and_true]

/-- The dict of the signer against one that has `creator` in its place. -/
theorem signingDict_eq_iff {before : List (String × Option Cbor)} :
    signingDict m pubkey algo = present (before ++
      ("creator", some (unsignedCreator pubkey algo)) :: m.fieldsAfter) ↔
    CreatorInPlace m ∧ present m.fieldsBefore = present before := by
  cases hc : m.creator with
  | some c =>
    have hsome : m.creator.isSome := by rw [hc]; rfl
    rw [signingDict_some hsome, present_append, present_append,
      List.append_cancel_right_eq]
    exact ⟨fun h => ⟨.inl hsome, h⟩, fun h => h.2⟩
  | none =>
    rw [signingDict_none hc]
    constructor
    · intro h
      have hnil := last_in_place (creator_not_after m) h
      refine ⟨.inr (present_fieldsAfter.mp hnil), ?_⟩
      rw [present_append, present_append, present, hnil, List.append_nil,
        List.append_cancel_right_eq] at h
      exact h
    · rintro ⟨hplace, h⟩
      have hnil : present m.fieldsAfter = [] := by
        rcases hplace with hsome | hempty
        · rw [hc] at hsome
          cases hsome
        · exact present_fieldsAfter.mpr hempty
      rw [present_append, present_append, present, hnil, List.append_nil, h]

/-! ## What is read back -/

/-- A deploy payload is its fields. -/
theorem DmintCborPayload.eq_of_fields {p q : DmintCborPayload}
    (h : p.toDmintPayloadFields = q.toDmintPayloadFields) : p = q := by
  cases p
  cases q
  cases h
  rfl

/-- Reading a deploy payload back changes nothing that is written. -/
theorem toCborDict_readBack (p : DmintCborPayload) :
    p.readBack.toCborDict = p.toCborDict := by
  have hread : p.readBack.toDmintPayloadFields =
      p.toDmintPayloadFields.readBack := rfl
  by_cases hfixed : p.daaMode = .fixed
  · rw [DmintPayloadFields.readBack, if_pos hfixed] at hread
    rw [DmintCborPayload.toCborDict, DmintCborPayload.toCborDict, hread,
      if_pos hfixed, if_pos hfixed]
  · rw [DmintPayloadFields.readBack, if_neg hfixed] at hread
    rw [DmintCborPayload.eq_of_fields hread]

/-- Dropping an empty map first or when writing is the same. -/
theorem dictField_filter {α : Type} (o : Option α)
    (f : α → List (Cbor × Cbor)) :
    (o.filter fun a => !(f a).isEmpty).bind (fun a => dictField (f a)) =
      o.bind fun a => dictField (f a) := by
  cases o with
  | none => rfl
  | some a =>
    rw [Option.filter_some]
    cases h : (f a).isEmpty with
    | true => simp [dictField_eq_none.mpr (List.isEmpty_iff.mp h)]
    | false => simp

/-- The fields behind the creator are written alike after a read back. -/
theorem fieldsAfter_readBack (m : GlyphMetadata) :
    m.readBack.fieldsAfter = m.fieldsAfter := by
  have hread : m.readBack.toMetadataFields = m.toMetadataFields.readBack := rfl
  rw [GlyphMetadata.fieldsAfter, GlyphMetadata.fieldsAfter, hread,
    MetadataFields.readBack]
  simp only [dictField_filter]

/-- Canonical order keeps an attribute list empty or not. -/
theorem canonAttrs_eq_nil {attrs : List (String × String)} :
    canonAttrs attrs = [] ↔ attrs = [] := by
  rw [← List.length_eq_zero_iff, (perm_canonAttrs attrs).length_eq,
    List.length_eq_zero_iff]

/-- The attribute map determines the attributes. -/
theorem attrsDict_inj {a b : List (String × String)}
    (h : attrsDict a = attrsDict b) : a = b := by
  rw [attrsDict, attrsDict, Cbor.map.injEq] at h
  refine List.map_injective_iff.mpr (fun x y hxy => ?_) h
  rw [Prod.mk.injEq, Cbor.text.injEq, Cbor.text.injEq] at hxy
  exact Prod.ext hxy.1 hxy.2

/-- The fields in front are written alike exactly when the attributes were in
canonical order. -/
theorem fieldsBefore_readBack (m : GlyphMetadata) :
    present m.fieldsBefore = present m.readBack.fieldsBefore ↔
    canonAttrs m.attrs = m.attrs := by
  have hread : m.readBack.toMetadataFields = m.toMetadataFields.readBack := rfl
  constructor
  · intro h
    have hlookup := congrArg (lookup "attrs") h
    have hkeys : ∀ m : GlyphMetadata, (m.fieldsBefore.map Prod.fst).Nodup := by
      intro m
      show ["v", "p", "name", "ticker", "desc", "type", "main", "attrs",
        "loc", "loc_hash", "decimals", "image", "image_ipfs", "image_sha256",
        "dmint"].Nodup
      decide
    rw [lookup_present (hkeys m), lookup_present (hkeys m.readBack)] at hlookup
    -- only the attributes can come back in another order
    have hattrs : (if m.attrs = [] then none else some (attrsDict m.attrs)) =
        if canonAttrs m.attrs = [] then none
          else some (attrsDict (canonAttrs m.attrs)) := hlookup
    by_cases hnil : m.attrs = []
    · rw [hnil]
      rfl
    · rw [if_neg hnil, if_neg fun h => hnil (canonAttrs_eq_nil.mp h),
        Option.some.injEq] at hattrs
      exact (attrsDict_inj hattrs).symm
  · intro h
    have hdmint :
        (m.dmintParams.map .readBack).map DmintCborPayload.toCborDict =
        m.dmintParams.map DmintCborPayload.toCborDict := by
      rw [Option.map_map]
      exact congrArg (m.dmintParams.map ·) (funext toCborDict_readBack)
    rw [GlyphMetadata.fieldsBefore, GlyphMetadata.fieldsBefore, hread,
      MetadataFields.readBack]
    simp only [h, hdmint]

end Dicts

/-! ## Signing and verifying -/

section Verify

variable {Key Secret : Type} (curve : Curve Key Secret)

/-- What the library promises of a private key. -/
structure CreatorKey (k : PrivateKey Secret) : Prop where
  parse : ∀ compressed, curve.parse (curve.format
    (curve.publicKey k.secret) compressed) = .ok (curve.publicKey k.secret)
  compressed : ∃ tag x, curve.format (curve.publicKey k.secret) true =
    tag :: x ∧ (tag = 2 ∨ tag = 3) ∧ x.length = 32
  signature : ∀ digest, curve.sign k.secret digest ≠ []
  verify : ∀ digest, curve.verify (curve.publicKey k.secret)
    (curve.sign k.secret digest) digest = .ok true

/-- What is signed of a dict. -/
def messageOf (lib : Cbor2) (d : List (Cbor × Cbor)) : Bytes :=
  signingMessage (commitHash (lib.dumps (.map d)))

/-- The signature of the one dict is refused for the other, unless they are the
same. -/
def Tells (lib : Cbor2) (k : PrivateKey Secret)
    (d d' : List (Cbor × Cbor)) : Prop :=
  d ≠ d' →
    curve.verify (curve.publicKey k.secret)
      (curve.sign k.secret (messageOf lib d)) (messageOf lib d') = .ok false

variable {curve} {lib : CborObjects} {m : GlyphMetadata} {k : PrivateKey Secret}
  {algo : String}

/-- The key as it is written. -/
def writtenKey (curve : Curve Key Secret) (k : PrivateKey Secret) : String :=
  hex (curve.format (curve.publicKey k.secret) true)

/-- Written hex is in lower case already. -/
theorem hexChars_toLower (b : Bytes) :
    (hexChars b).map Char.toLower = hexChars b := by
  have hdigit : ∀ n < 16, (hexDigit n).toLower = hexDigit n := by decide
  induction b with
  | nil => rfl
  | cons x b ih =>
    have hx : x.toNat < 256 := x.toNat_lt
    rw [hexChars, List.map_cons, List.map_cons, ih, hdigit _ (by omega),
      hdigit _ (by omega)]

/-- The key a signer writes passes the check on public keys. -/
theorem isPubkeyHex_writtenKey (hkey : CreatorKey curve k) :
    isPubkeyHex (writtenKey curve k) = true := by
  obtain ⟨tag, x, hformat, htag, hlen⟩ := hkey.compressed
  have hx : isHexOf 64 (hexChars x) = true := by
    rw [isHexOf, length_hexChars, hlen, all_hexChars]
    rfl
  rw [isPubkeyHex, writtenKey, hformat, hex, String.toList_ofList,
    hexChars_toLower, hexChars]
  simp only [List.take_succ_cons, List.take_zero, List.drop_succ_cons,
    List.drop_zero, hx, Bool.and_true]
  rcases htag with rfl | rfl
  · decide
  · decide

/-- The creator that is put into the metadata. -/
def signedCreator (curve : Curve Key Secret) (lib : Cbor2) (m : GlyphMetadata)
    (k : PrivateKey Secret) (algo : String) : CreatorFields :=
  ⟨writtenKey curve k, hex (curve.sign k.secret
    (messageOf lib (signingDict m (writtenKey curve k) algo))), algo⟩

/-- So the signed creator is constructed. -/
theorem signedCreator_valid (hkey : CreatorKey curve k) :
    (signedCreator curve lib.toCbor2 m k algo).postInit = .ok () := by
  rw [CreatorFields.postInit, signedCreator]
  refine refuseIf_bind_ok.mpr ⟨?_, refuseIf_ok.mpr ?_⟩
  · rw [isPubkeyHex_writtenKey hkey]
    decide
  · rintro ⟨-, hno⟩
    rw [hex, String.toList_ofList, hexChars_toLower, all_hexChars] at hno
    cases hno

/-- Signing returns the metadata with the signed creator in it. -/
theorem signMetadata_returns (hkey : CreatorKey curve k) : ∃ signed c,
    signMetadata curve lib.toCbor2 m k algo = .ok signed ∧
      c.toCreatorFields = signedCreator curve lib.toCbor2 m k algo ∧
      signed.toMetadataFields =
        { m.toMetadataFields with creator := some c } := by
  let c : GlyphCreator := ⟨signedCreator curve lib.toCbor2 m k algo,
    signedCreator_valid hkey⟩
  let signed : GlyphMetadata := ⟨{ m.toMetadataFields with creator := some c },
    m.distinct, m.valid⟩
  refine ⟨signed, c, ?_, rfl, rfl⟩
  have hpubkey : pubkeyHex curve k = .ok (writtenKey curve k) := by
    rw [pubkeyHex, hkey.parse]
    rfl
  have hcreator : GlyphCreator.make (signedCreator curve lib.toCbor2 m k algo) =
      .ok c := c.make_ok
  rw [signMetadata, hpubkey]
  show (GlyphCreator.make (signedCreator curve lib.toCbor2 m k algo) >>=
      fun creator =>
    GlyphMetadata.make { m.toMetadataFields with creator := some creator } m.distinct) = _
  rw [hcreator]
  exact signed.make_ok

/-- The verifier accepts the dict that was signed and no other. -/
theorem verify_iff (hkey : CreatorKey curve k) {s : GlyphMetadata}
    {c : GlyphCreator} (hs : s.creator = some c)
    (hc : c.toCreatorFields = signedCreator curve lib.toCbor2 m k algo)
    (htells : Tells curve lib.toCbor2 k
      (signingDict m (writtenKey curve k) algo)
      (signingDict s (writtenKey curve k) algo)) :
    verifyCreatorSignature curve lib.toCbor2 s = .ok (true, "") ↔
      signingDict m (writtenKey curve k) algo =
        signingDict s (writtenKey curve k) algo := by
  -- the written key and signature are there, so the verifier gets to the
  -- signature
  have hnonempty : ∀ b : Bytes, b ≠ [] → hex b ≠ "" := by
    intro b hb h
    have hlen := length_hex b
    rw [h] at hlen
    have hzero : b.length = 0 := by
      have : ("" : String).length = 0 := rfl
      omega
    exact hb (List.length_eq_zero_iff.mp hzero)
  have hsig := hnonempty _ (hkey.signature
    (messageOf lib.toCbor2 (signingDict m (writtenKey curve k) algo)))
  have hpub : writtenKey curve k ≠ "" := by
    obtain ⟨tag, x, hformat, -⟩ := hkey.compressed
    exact hnonempty _ (by rw [hformat]; exact List.cons_ne_nil _ _)
  have hparse : (PyVal.toBytes (.str (writtenKey curve k)) >>= curve.parse) =
      .ok (curve.publicKey k.secret) := by
    rw [writtenKey, PyVal.toBytes_hex, ok_bind, hkey.parse]
  unfold verifyCreatorSignature
  rw [hs]
  simp only [hc, signedCreator]
  rw [if_neg hsig, if_neg hpub, fromHex_hex]
  have hmessage : signingMessage
    (commitHash (cborForSigning lib.toCbor2 s (writtenKey curve k) algo)) =
      messageOf lib.toCbor2 (signingDict s (writtenKey curve k) algo) := rfl
  simp only [checkCreator, hc, signedCreator, hparse, hmessage, orReason]
  by_cases hsame : signingDict m (writtenKey curve k) algo =
    signingDict s (writtenKey curve k) algo
  · rw [hsame, hkey.verify]
    exact ⟨fun _ => rfl, fun _ => rfl⟩
  · rw [htells hsame]
    exact ⟨nofun, fun h => absurd h hsame⟩

/-- What was signed, with `creator` in its place. -/
theorem signingDict_signed {s : GlyphMetadata} {c : GlyphCreator}
    {pubkey : String}
    (hs : s.toMetadataFields = { m.toMetadataFields with creator := some c }) :
    signingDict s pubkey algo =
      present (m.fieldsBefore ++ ("creator",
        some (unsignedCreator pubkey algo)) :: m.fieldsAfter) := by
  have hsome : s.creator.isSome := by
    rw [hs]
    rfl
  have hbefore : s.fieldsBefore = m.fieldsBefore := by
    rw [GlyphMetadata.fieldsBefore, hs]
    rfl
  have hafter : s.fieldsAfter = m.fieldsAfter := by
    rw [GlyphMetadata.fieldsAfter, hs]
    rfl
  rw [signingDict_some hsome, hbefore, hafter]

/-- After a read back the verifier hashes the map that was signed. -/
theorem signingDict_readBack {s : GlyphMetadata} {c : GlyphCreator}
    {pubkey : String}
    (hs : s.toMetadataFields = { m.toMetadataFields with creator := some c }) :
    signingDict s.readBack pubkey algo = present (m.readBack.fieldsBefore ++
      ("creator", some (unsignedCreator pubkey algo)) :: m.fieldsAfter) := by
  have hread : s.readBack.toMetadataFields =
      { m.readBack.toMetadataFields with creator := some c } := by
    show s.toMetadataFields.readBack = _
    rw [hs]
    rfl
  rw [signingDict_signed hread, fieldsAfter_readBack]

end Verify

/-- The signature of what `sign_metadata` returned verifies. -/
def SignatureVerifies {Key Secret : Type} (curve : Curve Key Secret)
    (lib : CborObjects) (signed : GlyphMetadata) : Prop :=
  verifyCreatorSignature curve lib.toCbor2 signed = .ok (true, "")

/-- And that of what is read of it. -/
def ReadBackVerifies {Key Secret : Type} (curve : Curve Key Secret)
    (lib : CborObjects) (signed : GlyphMetadata) : Prop :=
  ∃ m, decodePayload lib (encodePayload lib.toCbor2 signed).1 = .ok m ∧
    SignatureVerifies curve lib m

/-- What the libraries do with the signed metadata: it is read as it was
written, it fits into a reveal, and the signature is that of no other dict. -/
structure SignedWell {Key Secret : Type} (curve : Curve Key Secret)
    (lib : CborObjects) (m : GlyphMetadata)
    (k : PrivateKey Secret) (algo : String)
    (signed : GlyphMetadata) : Prop where
  reads : ReadsBack lib.toCbor2 signed
  suffix : ∃ suffix, buildRevealScriptsigSuffix
    (encodePayload lib.toCbor2 signed).1 = .ok suffix
  tells : Tells curve lib.toCbor2 k (signingDict m (writtenKey curve k) algo)
    (signingDict signed (writtenKey curve k) algo)
  tellsRead : Tells curve lib.toCbor2 k
    (signingDict m (writtenKey curve k) algo)
    (signingDict signed.readBack (writtenKey curve k) algo)

/-- **Creator signatures.** What was signed verifies exactly when `creator` was
signed in its place, and verifies once more when it was committed and read back
exactly when, besides, the attributes were in canonical order and the decoder
takes the metadata. -/
theorem creator_signature_iff {Key Secret : Type} (curve : Curve Key Secret)
    (lib : CborObjects) (m : GlyphMetadata) (k : PrivateKey Secret)
    (algo : String) (hkey : CreatorKey curve k)
    (hwell : ∀ signed, signMetadata curve lib.toCbor2 m k algo = .ok signed →
      SignedWell curve lib m k algo signed) :
    ∃ signed, signMetadata curve lib.toCbor2 m k algo = .ok signed ∧
      (SignatureVerifies curve lib signed ↔ CreatorInPlace m) ∧
      (ReadBackVerifies curve lib signed ↔ CreatorInPlace m ∧
        canonAttrs m.attrs = m.attrs ∧ m.Readable) := by
  obtain ⟨signed, c, hsigned, hc, hfields⟩ :=
    @signMetadata_returns _ _ curve lib m k algo hkey
  have hw := hwell signed hsigned
  have hcreator : signed.creator = some c := by rw [hfields]
  refine ⟨signed, hsigned, ?_, ?_⟩
  · rw [SignatureVerifies, verify_iff hkey hcreator hc hw.tells,
      signingDict_signed hfields, signingDict_eq_iff]
    exact and_iff_left rfl
  -- read back, the signature is over the fields in canonical order
  · have hverify : SignatureVerifies curve lib signed.readBack ↔
        CreatorInPlace m ∧ canonAttrs m.attrs = m.attrs := by
      have hcreator' : signed.readBack.creator = some c := hcreator
      rw [SignatureVerifies, verify_iff hkey hcreator' hc hw.tellsRead,
        signingDict_readBack hfields, signingDict_eq_iff, fieldsBefore_readBack]
    have hreadable : signed.Readable ↔ m.Readable := by
      rw [hfields]
      exact ⟨fun h => ⟨h.1, h.2, h.3, h.4, h.5, h.6, h.7, h.8, h.9, h.10, h.11⟩,
        fun h => ⟨h.1, h.2, h.3, h.4, h.5, h.6, h.7, h.8, h.9, h.10, h.11⟩⟩
    have hsize := buildRevealScriptsigSuffix_returns.mp hw.suffix
    have hdecode := decode_encode hw.reads
    constructor
    · rintro ⟨read, hread, hv⟩
      by_cases hlimits : signed.Readable
      · rw [hdecode.1 ⟨hsize, hlimits⟩, Except.ok.injEq] at hread
        obtain ⟨hplace, hattrs⟩ := hverify.mp (hread ▸ hv)
        exact ⟨hplace, hattrs, hreadable.mp hlimits⟩
      · obtain ⟨msg, hmsg⟩ := hdecode.2 fun h => hlimits h.2
        rw [hmsg] at hread
        cases hread
    · rintro ⟨hplace, hattrs, hlimits⟩
      exact ⟨signed.readBack, hdecode.1 ⟨hsize, hreadable.mpr hlimits⟩,
        hverify.mpr ⟨hplace, hattrs⟩⟩

/-! ## Metadata whose signature verifies, and metadata whose does not -/

/-- The head of an item: its major type and a number below 65536. -/
def cborHead (major n : Nat) : Bytes :=
  if n < 24 then [UInt8.ofNat (32 * major + n)]
  else if n < 256 then [UInt8.ofNat (32 * major + 24), UInt8.ofNat n]
  else [UInt8.ofNat (32 * major + 25), UInt8.ofNat (n / 256), UInt8.ofNat n]

mutual

/-- `cbor2.dumps` of maps, lists, ASCII texts, bytes and numbers; nothing else
stands in the metadata below. -/
def plainDumps : Cbor → Bytes
  | .int n => if 0 ≤ n then cborHead 0 n.toNat else cborHead 1 (-1 - n).toNat
  | .bool b => [if b then 0xF5 else 0xF4]
  | .bytes b => cborHead 2 b.length ++ b
  | .text s => cborHead 3 s.length ++ s.toList.map fun c => UInt8.ofNat c.toNat
  | .list xs => cborHead 4 xs.length ++ plainItems xs
  | .map entries => cborHead 5 entries.length ++ plainEntries entries
  | _ => [0xF6]

def plainItems : List Cbor → Bytes
  | [] => []
  | x :: xs => plainDumps x ++ plainItems xs

def plainEntries : List (Cbor × Cbor) → Bytes
  | [] => []
  | (k, v) :: entries => plainDumps k ++ plainDumps v ++ plainEntries entries

end

/-- A library that reads one object. -/
def plainLibrary (known : Cbor) : CborObjects :=
  plainObjects
    { loads := fun b => if b = plainDumps known then .ok known
      else .error (.other "premature end of stream")
      dumps := plainDumps
      dumpsCanonical := fun x => plainDumps x.canon
      str := fun _ => ""
      repr := fun _ => "" }

/-- The plain library reads back what it wrote. -/
theorem readsBack_plain (m : GlyphMetadata) :
    ReadsBack (plainLibrary (Cbor.canon (.map m.toCborDict))).toCbor2 m :=
  if_pos rfl

/-- The public key of `1111...11`. -/
def creatorPubkey : Bytes :=
  [0x03, 0x4F, 0x35, 0x5B, 0xDC, 0xB7, 0xCC, 0x0A, 0xF7, 0x28, 0xEF, 0x3C, 0xCE,
    0xB9, 0x61, 0x5D,
   0x90, 0x68, 0x4B, 0xB5, 0xB2, 0xCA, 0x5F, 0x85, 0x9A, 0xB0, 0xF0, 0xB7, 0x04,
     0x07, 0x58, 0x71,
   0xAA]

/-- The curve on that key and on one message. -/
def creatorCurve (message signature : Bytes) : Curve Bytes Unit where
  ripemd160 _ := []
  parse b := if b = creatorPubkey then .ok b
    else .error (.other "The public key could not be parsed or is invalid.")
  format key _ := key
  verify key der digest := .ok (decide (key = creatorPubkey ∧
    der = if digest = message then signature else 0x30 :: digest))
  sign _ digest := if digest = message then signature else 0x30 :: digest
  publicKey _ := creatorPubkey

/-- The sample curve has a key the signer accepts. -/
theorem creatorCurve_key {message signature : Bytes} (h : signature ≠ []) :
    CreatorKey (creatorCurve message signature) ⟨(), true⟩ where
  parse _ := rfl
  compressed := ⟨0x03, creatorPubkey.tail, rfl, .inr rfl, rfl⟩
  signature digest := by
    show (if digest = message then signature else 0x30 :: digest) ≠ []
    split
    · exact h
    · exact List.cons_ne_nil _ _
  verify digest := congrArg Except.ok (decide_eq_true ⟨rfl, rfl⟩)

/-- `{"p": [2], "name": "Glyph"}`. -/
def namedMetadata : GlyphMetadata :=
  ⟨{ bareFields [2] with name := "Glyph" }, List.nodup_nil, by decide⟩

def namedMessage : Bytes :=
  [0x1F, 0x00, 0x43, 0xFA, 0xC4, 0x59, 0xA3, 0x83, 0xDD, 0xE5, 0x5D, 0xB9, 0xAC,
    0x16, 0x21, 0x8F,
   0xF6, 0x07, 0x91, 0xC6, 0x84, 0x65, 0x02, 0xA2, 0x30, 0x28, 0xC4, 0x54, 0x9F,
     0xF8, 0x6F, 0xAC]

def namedSignature : Bytes :=
  [0x30, 0x44, 0x02, 0x20, 0x22, 0xFB, 0x44, 0x58, 0x7F, 0x8B, 0x30, 0x46, 0xDB,
    0x25, 0x2F, 0x8B,
   0xA2, 0xD4, 0x7F, 0x7D, 0x1E, 0x3F, 0x04, 0xD0, 0xE7, 0x17, 0xEB, 0x30, 0x9A,
     0x77, 0xC4, 0xBC,
   0x9E, 0xBD, 0x8C, 0x13, 0x02, 0x20, 0x17, 0xF4, 0x9F, 0xF2, 0xEE, 0xCE, 0xCD,
     0x96, 0x7E, 0xB0,
   0xBD, 0x9C, 0x4C, 0xFB, 0x30, 0x7A, 0xBF, 0x90, 0x76, 0x59, 0xBA, 0x09, 0x38,
     0xC8, 0xAC, 0x51,
   0x22, 0xF4, 0x64, 0x1C, 0xB6, 0x08]

def namedCreator : GlyphCreator :=
  ⟨⟨hex creatorPubkey, hex namedSignature, creatorAlgo⟩, by decide +kernel⟩

def namedSigned : GlyphMetadata :=
  ⟨{ bareFields [2] with name := "Glyph", creator := some namedCreator },
    List.nodup_nil, by decide⟩

def namedLibrary : CborObjects :=
  plainLibrary (Cbor.canon (.map namedSigned.toCborDict))

/-- The sample metadata is signed. -/
theorem signMetadata_named :
    signMetadata (creatorCurve namedMessage namedSignature) namedLibrary.toCbor2
      namedMetadata ⟨(), true⟩ creatorAlgo = .ok namedSigned := by
  decide +kernel

theorem named_in_place : CreatorInPlace namedMetadata :=
  .inr ⟨rfl, nofun, nofun, rfl, rfl⟩

/-- The sample curve and library behave as the verification needs. -/
theorem namedSigned_well : SignedWell (creatorCurve namedMessage namedSignature)
    namedLibrary namedMetadata ⟨(), true⟩ creatorAlgo namedSigned where
  reads := readsBack_plain namedSigned
  suffix := buildRevealScriptsigSuffix_returns.mpr (by decide +kernel)
  tells h := by
    rw [@signingDict_signed namedMetadata creatorAlgo namedSigned namedCreator _
      rfl, ne_eq, signingDict_eq_iff] at h
    exact absurd ⟨named_in_place, rfl⟩ h
  tellsRead h := by
    rw [@signingDict_readBack namedMetadata creatorAlgo namedSigned namedCreator
      _ rfl, ne_eq, signingDict_eq_iff, fieldsBefore_readBack] at h
    exact absurd ⟨named_in_place, rfl⟩ h

/-- The statement at the sample metadata. -/
theorem creator_signature_iff_named : ∃ signed,
    signMetadata (creatorCurve namedMessage namedSignature) namedLibrary.toCbor2
      namedMetadata ⟨(), true⟩ creatorAlgo = .ok signed ∧
    SignatureVerifies (creatorCurve namedMessage namedSignature)
      namedLibrary signed ∧
    ReadBackVerifies (creatorCurve namedMessage namedSignature)
      namedLibrary signed := by
  have hwell : ∀ signed, signMetadata (creatorCurve namedMessage namedSignature)
      namedLibrary.toCbor2 namedMetadata ⟨(), true⟩ creatorAlgo = .ok signed →
      SignedWell (creatorCurve namedMessage namedSignature) namedLibrary
      namedMetadata ⟨(), true⟩ creatorAlgo signed := by
    intro signed h
    rw [signMetadata_named, Except.ok.injEq] at h
    exact h ▸ namedSigned_well
  obtain ⟨signed, hsigned, hverifies, hread⟩ := creator_signature_iff
    (creatorCurve namedMessage namedSignature) namedLibrary namedMetadata ⟨(),
    true⟩ creatorAlgo (creatorCurve_key (by decide)) hwell
  have hreadable : namedMetadata.Readable := by
    constructor <;> decide
  exact ⟨signed, hsigned, hverifies.mpr named_in_place,
    hread.mpr ⟨named_in_place, rfl, hreadable⟩⟩

/-- `{"p": [2], "created": "2026-01-01"}`. -/
def createdMetadata : GlyphMetadata :=
  ⟨{ bareFields [2] with created := "2026-01-01" }, List.nodup_nil, by decide⟩

def createdMessage : Bytes :=
  [0x65, 0x6D, 0xDA, 0x22, 0xA3, 0x21, 0xB1, 0xC7, 0xDA, 0x4F, 0x5F, 0xE0, 0x69,
    0x98, 0xA6, 0xCD,
   0x65, 0x7E, 0x4F, 0x74, 0x6B, 0xA7, 0xD0, 0x63, 0x25, 0x12, 0x9A, 0xD3, 0x8B,
     0xCE, 0xCF, 0xD2]

def createdSignature : Bytes :=
  [0x30, 0x44, 0x02, 0x20, 0x39, 0x91, 0xF3, 0x02, 0x87, 0x86, 0x90, 0x15, 0x95,
    0xB0, 0xB2, 0xA6,
   0xA8, 0x73, 0xB4, 0xA9, 0x2F, 0x0C, 0x3A, 0x3D, 0x15, 0xB7, 0x6C, 0x71, 0x37,
     0xB9, 0x27, 0xDD,
   0xA0, 0x03, 0x08, 0x93, 0x02, 0x20, 0x2F, 0x86, 0xF4, 0xFC, 0x8A, 0x06, 0x94,
     0x9F, 0x5A, 0xE3,
   0xE5, 0x6C, 0xE4, 0x5D, 0xA2, 0x40, 0x46, 0x5B, 0x0B, 0xE5, 0xAA, 0xBE, 0xA3,
     0x10, 0xF3, 0xE1,
   0x1A, 0x42, 0xD0, 0xD1, 0x51, 0xD5]

/-- **A date is signed in front of `creator` and verified behind it.** -/
theorem created_not_verified :
    CreatorKey (creatorCurve createdMessage createdSignature) ⟨(), true⟩ ∧
    ∃ signed, signMetadata (creatorCurve createdMessage createdSignature)
      (plainLibrary .none).toCbor2 createdMetadata ⟨(),
      true⟩ creatorAlgo = .ok signed ∧
    verifyCreatorSignature (creatorCurve createdMessage createdSignature)
      (plainLibrary .none).toCbor2 signed =
      .ok (false, "signature mismatch") := by
  have hrun : (signMetadata (creatorCurve createdMessage createdSignature)
      (plainLibrary .none).toCbor2 createdMetadata ⟨(), true⟩ creatorAlgo >>=
      verifyCreatorSignature (creatorCurve createdMessage createdSignature)
        (plainLibrary .none).toCbor2) = .ok (false, "signature mismatch") := by
    decide +kernel
  exact ⟨creatorCurve_key (by decide), bind_ok.mp hrun⟩

end Pyrxd.Glyph
