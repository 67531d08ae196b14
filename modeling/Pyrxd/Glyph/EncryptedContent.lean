import Pyrxd.Glyph.Decode
import Pyrxd.Lib.Base64
import Pyrxd.Lib.Casing
import Pyrxd.Lib.Traverse

/-!
# Sealed content

The metadata of encrypted content, `glyph/encrypted_content.py`: what is written
of it and what is read back. Writing puts every hash into one form and drops an
empty post-quantum part (`normal`); reading what was written gives just that
(`EncryptedContentStub.fromDict_toDict`).
-/

namespace Pyrxd.Glyph

open Pyrxd.Lib
open Cbor (present textField lookup_present)
open CborObjects (entry entryOr)

/-! ## The parts -/

/-- `main`: what was encrypted and how. -/
structure EncryptionMetadata where
  type : String
  hash : String
  enc : String := "xchacha20poly1305"
  size : Int := 0
  chunks : Int := 1
  scheme : String := "chunked-aead-v1"
deriving DecidableEq

/-- One of `crypto.recipients`. -/
structure CryptoRecipient where
  kid : String
  alg : String
  wrappedCek : Bytes
  epk : Bytes
  mlkemCt : Option Bytes := none
deriving DecidableEq

/-- `crypto.timelock`. -/
structure TimelockSpec where
  mode : String
  unlockAt : Int
  cekHash : String
  hint : String := ""
deriving DecidableEq

/-- `crypto`: how the key is delivered, and the commitment to it. -/
structure CryptoMetadata where
  mode : String := "encrypted"
  keyFormat : String := "wrapped"
  cekHash : String := ""
  locator : Option String := none
  locatorHash : Option String := none
  recipients : List CryptoRecipient := []
  timelock : Option TimelockSpec := none
deriving DecidableEq

structure EncryptedContentStub where
  p : List Int
  type : String
  name : String
  main : EncryptionMetadata
  crypto : CryptoMetadata
deriving DecidableEq

/-! ## What is written -/

section Write

variable (u : CharTables)

def sha256Colon : List Char := "sha256:".toList

/-- `_sha256_prefix`. -/
def sha256Prefix (hexOrPrefixed : String) : String :=
  let s := u.strip hexOrPrefixed.toList
  if sha256Colon <+: u.lowerCase s then
    String.ofList (sha256Colon ++ u.lowerCase (s.dropWhile (· != ':')).tail)
  else String.ofList (sha256Colon ++ u.lowerCase s)

def EncryptionMetadata.toDict (m : EncryptionMetadata) : Cbor :=
  .map (present [("type", some (.text m.type)),
    ("hash", some (.text (sha256Prefix u m.hash))), ("enc", some (.text m.enc)),
    ("size", some (.int m.size)), ("chunks", some (.int m.chunks)),
    ("scheme", some (.text m.scheme))])

/-- `base64.b64encode(b).decode("ascii")`. -/
def b64encode (b : Bytes) : Cbor := .text (String.ofList (Base64.encode b))

def CryptoRecipient.fields (r : CryptoRecipient) :
    List (String × Option Cbor) :=
  [("kid", some (.text r.kid)), ("alg", some (.text r.alg)),
    ("wrapped_cek", some (b64encode r.wrappedCek)),
    ("epk", some (b64encode r.epk)), ("mlkem_ct", r.mlkemCt.map b64encode)]

def CryptoRecipient.toDict (r : CryptoRecipient) : Cbor :=
  .map (present r.fields)

def TimelockSpec.fields (t : TimelockSpec) : List (String × Option Cbor) :=
  [("mode", some (.text t.mode)), ("unlock_at", some (.int t.unlockAt)),
    ("cek_hash", some (.text (sha256Prefix u t.cekHash))),
      ("hint", textField t.hint)]

def TimelockSpec.toDict (t : TimelockSpec) : Cbor := .map (present (t.fields u))

def CryptoMetadata.fields (c : CryptoMetadata) : List (String × Option Cbor) :=
  [("mode", some (.text c.mode)), ("key_format", some (.text c.keyFormat)),
    ("cek_hash", some (.text (sha256Prefix u c.cekHash))),
      ("locator", c.locator.map .text),
    ("locator_hash", c.locatorHash.map fun h => .text (sha256Prefix u h)),
    ("recipients", if c.recipients = [] then none
      else some (.list (c.recipients.map CryptoRecipient.toDict))),
      ("timelock", c.timelock.map fun t => t.toDict u)]

def CryptoMetadata.toDict (c : CryptoMetadata) : Cbor :=
  .map (present (c.fields u))

def EncryptedContentStub.toDict (s : EncryptedContentStub) : Cbor :=
  .map (present [("p", some (.list (s.p.map .int))),
    ("type", some (.text s.type)), ("name", some (.text s.name)),
    ("main", some (s.main.toDict u)), ("crypto", some (s.crypto.toDict u))])

end Write

/-! ## What is read -/

section Read

variable (lib : CborObjects)

/-- What is no dict raises where it is first used as one. -/
def asDict : Cbor → Except DecodeErr (List (Cbor × Cbor))
  | .map d => .ok d
  | x => .error (.type ("'" ++ x.typeName ++ "' object is no dict"))

/-- `binascii.Error` is a `ValueError`. -/
def base64Err : Base64.Error → DecodeErr
  | .oneMore n =>
    .value ("Invalid base64-encoded string: number of data characters (" ++
      toString n ++
      ") cannot be 1 more than a multiple of 4")
  | .padding => .value "Incorrect padding"

/-- `base64.b64decode`. -/
def b64decode : Cbor → Except DecodeErr Bytes
  | .text s =>
    if s.toList.all (·.toNat <
      128) then (Base64.decode s.toList).mapError base64Err
    else .error (.value "string argument should contain only ASCII characters")
  | .bytes b =>
    (Base64.decode (b.map fun c => Char.ofNat c.toNat)).mapError base64Err
  | x =>
    .error (.type
      ("argument should be a bytes-like object or ASCII string, not '" ++
      x.typeName ++ "'"))

def EncryptionMetadata.fromDict (x : Cbor) :
    Except DecodeErr EncryptionMetadata := do
  let d ← asDict x
  let type ← entry d "type"
  let type ← lib.toStr type
  let hash ← entry d "hash"
  let hash ← lib.toStr hash
  let enc ← lib.toStr (entryOr d "enc" (.text "xchacha20poly1305"))
  let size ← lib.toInt (entryOr d "size" (.int 0))
  let chunks ← lib.toInt (entryOr d "chunks" (.int 1))
  let scheme ← lib.toStr (entryOr d "scheme" (.text "chunked-aead-v1"))
  return ⟨type, hash, enc, size, chunks, scheme⟩

/-- `mlkem_ct`, if there is any of it. -/
def readMlkemCt (d : List (Cbor × Cbor)) : Except DecodeErr (Option Bytes) :=
  let x := entryOr d "mlkem_ct" .none
  if x.truthy then (b64decode x).map some else .ok none

def CryptoRecipient.fromDict (x : Cbor) : Except DecodeErr CryptoRecipient := do
  let d ← asDict x
  let mlkemCt ← readMlkemCt d
  let kid ← entry d "kid"
  let kid ← lib.toStr kid
  let alg ← entry d "alg"
  let alg ← lib.toStr alg
  let wrappedCek ← entry d "wrapped_cek"
  let wrappedCek ← b64decode wrappedCek
  let epk ← entry d "epk"
  let epk ← b64decode epk
  return ⟨kid, alg, wrappedCek, epk, mlkemCt⟩

def TimelockSpec.fromDict (x : Cbor) : Except DecodeErr TimelockSpec := do
  let d ← asDict x
  let mode ← entry d "mode"
  let mode ← lib.toStr mode
  let unlockAt ← entry d "unlock_at"
  let unlockAt ← lib.toInt unlockAt
  let cekHash ← entry d "cek_hash"
  let cekHash ← lib.toStr cekHash
  let hint ← lib.toStr (entryOr d "hint" (.text ""))
  return ⟨mode, unlockAt, cekHash, hint⟩

/-- `f(d[key]) if key in d else None`. -/
def readIfIn {α : Type} (d : List (Cbor × Cbor)) (key : String)
    (f : Cbor → Except DecodeErr α) :
    Except DecodeErr (Option α) :=
  match Cbor.lookup key d with
  | some x => (f x).map some
  | none => .ok none

def CryptoMetadata.fromDict (x : Cbor) : Except DecodeErr CryptoMetadata := do
  let d ← asDict x
  let recipients ← lib.items (entryOr d "recipients" (.list []))
  let recipients ← recipients.mapM (CryptoRecipient.fromDict lib)
  let timelock ← readIfIn d "timelock" (TimelockSpec.fromDict lib)
  let mode ← lib.toStr (entryOr d "mode" (.text "encrypted"))
  let keyFormat ← lib.toStr (entryOr d "key_format" (.text "wrapped"))
  let cekHash ← lib.toStr (entryOr d "cek_hash" (.text ""))
  let locator ← readIfIn d "locator" lib.toStr
  let locatorHash ← readIfIn d "locator_hash" lib.toStr
  return ⟨mode, keyFormat, cekHash, locator, locatorHash, recipients, timelock⟩

def EncryptedContentStub.fromDict (x : Cbor) :
    Except DecodeErr EncryptedContentStub := do
  let d ← asDict x
  let p ← entry d "p"
  let p ← lib.items p
  let p ← p.mapM lib.toInt
  let type ← entry d "type"
  let type ← lib.toStr type
  let name ← entry d "name"
  let name ← lib.toStr name
  let main ← entry d "main"
  let main ← EncryptionMetadata.fromDict lib main
  let crypto ← entry d "crypto"
  let crypto ← CryptoMetadata.fromDict lib crypto
  return ⟨p, type, name, main, crypto⟩

end Read

/-! ## There and back -/

section Normal

variable (u : CharTables)

def EncryptionMetadata.normal (m : EncryptionMetadata) : EncryptionMetadata :=
  { m with hash := sha256Prefix u m.hash }

def CryptoRecipient.normal (r : CryptoRecipient) : CryptoRecipient :=
  { r with mlkemCt := if r.mlkemCt = some [] then none else r.mlkemCt }

def TimelockSpec.normal (t : TimelockSpec) : TimelockSpec :=
  { t with cekHash := sha256Prefix u t.cekHash }

def CryptoMetadata.normal (c : CryptoMetadata) : CryptoMetadata :=
  { c with
    cekHash := sha256Prefix u c.cekHash
    locatorHash := c.locatorHash.map (sha256Prefix u)
    recipients := c.recipients.map CryptoRecipient.normal
    timelock := c.timelock.map fun t => t.normal u }

/-- What is left of a stub once it is written. -/
def EncryptedContentStub.normal (s : EncryptedContentStub) :
    EncryptedContentStub :=
  { s with main := s.main.normal u, crypto := s.crypto.normal u }

end Normal

section RoundTrip

variable {u : CharTables} {lib : CborObjects}
  {fields : List (String × Option Cbor)} {key : String} {v default : Cbor}

/-- A required entry that was written is read. -/
theorem entry_present (h : (fields.map Prod.fst).Nodup)
    (hv : (fields.lookup key).join = some v) :
    entry (present fields) key = .ok v := by rw [entry, lookup_present h, hv]

/-- An entry with a default reads as written, or as the default. -/
theorem entryOr_present (h : (fields.map Prod.fst).Nodup) :
    entryOr (present fields) key default =
      (fields.lookup key).join.getD default := by rw [entryOr, lookup_present h]

/-- An optional entry is parsed when it was written. -/
theorem readIfIn_present {α : Type} {f : Cbor → Except DecodeErr α}
    (h : (fields.map Prod.fst).Nodup) :
    readIfIn (present fields) key f = match (fields.lookup key).join with
      | some x => (f x).map some
      | none => .ok none := by rw [readIfIn, lookup_present h]

theorem b64decode_encode (b : Bytes) : b64decode (b64encode b) = .ok b := by
  have hascii : (Base64.encode b).all (·.toNat < 128) = true :=
    List.all_eq_true.mpr fun c hc => decide_eq_true (Base64.encode_ascii b c hc)
  rw [b64encode, b64decode, String.toList_ofList, hascii, if_pos rfl,
    Base64.decode_encode]
  rfl

/-- Only no bytes encode to the empty text. -/
theorem b64encode_truthy (b : Bytes) :
    (b64encode b).truthy = decide (b ≠ []) := by
  have hempty : String.ofList (Base64.encode b) = "" ↔ b = [] := by
    rw [← String.toList_inj, String.toList_ofList]
    constructor
    · intro h
      cases b using Base64.encode.induct with
      | case1 => rfl
      | _ => cases h
    · rintro rfl
      rfl
  rw [b64encode, Cbor.truthy, decide_eq_decide]
  exact not_congr hempty

/-- The encryption part survives its dictionary, up to its defaults. -/
theorem EncryptionMetadata.fromDict_toDict (m : EncryptionMetadata) :
    fromDict lib (m.toDict u) = .ok (m.normal u) := by
  rw [fromDict, toDict]
  rfl

theorem CryptoRecipient.fromDict_toDict (r : CryptoRecipient) :
    fromDict lib r.toDict = .ok r.normal := by
  have hkeys : (r.fields.map Prod.fst).Nodup :=
    show (["kid", "alg", "wrapped_cek", "epk", "mlkem_ct"] :
      List String).Nodup by decide
  have hmlkem : readMlkemCt (present r.fields) = .ok r.normal.mlkemCt := by
    rw [readMlkemCt, entryOr_present hkeys]
    show (if ((r.mlkemCt.map b64encode).getD .none).truthy then
      (b64decode ((r.mlkemCt.map b64encode).getD .none)).map some else .ok none) = _
    cases hct : r.mlkemCt with
    | none => simp [normal, hct, Cbor.truthy]
    | some b =>
      simp only [Option.map_some, Option.getD_some, b64encode_truthy,
        b64decode_encode, normal, hct, Option.some.injEq]
      by_cases hb : b = [] <;> simp [hb, Except.map]
  have hentry : ∀ key v, (r.fields.lookup key).join = some v →
      entry (present r.fields) key = .ok v :=
    fun _ _ => entry_present hkeys
  rw [fromDict, toDict, asDict]
  simp only [bind, Except.bind]
  rw [hmlkem, hentry "kid" _ rfl, hentry "alg" _ rfl,
    hentry "wrapped_cek" _ rfl, hentry "epk" _ rfl]
  simp only [CborObjects.toStr, b64decode_encode]
  rfl

theorem TimelockSpec.fromDict_toDict (t : TimelockSpec) :
    fromDict lib (t.toDict u) = .ok (t.normal u) := by
  have hkeys : ((t.fields u).map Prod.fst).Nodup :=
    show (["mode", "unlock_at", "cek_hash",
      "hint"] : List String).Nodup by decide
  have hhint : entryOr (present (t.fields u)) "hint" (.text "") =
      .text t.hint := by
    rw [entryOr_present hkeys]
    show (textField t.hint).getD (.text "") = .text t.hint
    rw [textField]
    split
    · next h => rw [h]; rfl
    · rfl
  rw [fromDict, toDict, asDict]
  simp only [bind, Except.bind]
  rw [hhint]
  rfl

/-- What a dict holds under a key that is written on a condition. -/
theorem readIfIn_written {α β : Type}
    {f : Cbor → Except DecodeErr β} (write : α → Cbor)
    {g : α → β} {o : Option α} (h : (fields.map Prod.fst).Nodup)
    (hkey : (fields.lookup key).join = o.map write)
    (hread : ∀ a, f (write a) = .ok (g a)) :
    readIfIn (present fields) key f = .ok (o.map g) := by
  rw [readIfIn_present h, hkey]
  cases o with
  | none => rfl
  | some a => exact congrArg (Except.map some) (hread a)

theorem CryptoMetadata.fromDict_toDict (c : CryptoMetadata) :
    fromDict lib (c.toDict u) = .ok (c.normal u) := by
  have hkeys : ((c.fields u).map Prod.fst).Nodup :=
    show (["mode", "key_format", "cek_hash", "locator", "locator_hash",
      "recipients", "timelock"] :
      List String).Nodup by decide
  have hrecipients : entryOr (present (c.fields u)) "recipients" (.list []) =
      .list (c.recipients.map CryptoRecipient.toDict) := by
    rw [entryOr_present hkeys]
    show (if c.recipients = [] then none else some (Cbor.list
      (c.recipients.map CryptoRecipient.toDict))).getD (Cbor.list []) = _
    split
    · next h => rw [h]; rfl
    · rfl
  -- the nested dictionaries read back first
  have hread : (c.recipients.map CryptoRecipient.toDict).mapM
      (CryptoRecipient.fromDict lib) =
      .ok (c.recipients.map CryptoRecipient.normal) :=
    mapM_map_ok c.recipients fun r _ => CryptoRecipient.fromDict_toDict r
  have htimelock : readIfIn (present (c.fields u)) "timelock"
      (TimelockSpec.fromDict lib) =
      .ok (c.timelock.map fun t => t.normal u) :=
    readIfIn_written (fun t => t.toDict u) hkeys rfl fun t =>
      TimelockSpec.fromDict_toDict t
  have hlocator : readIfIn (present (c.fields u)) "locator" lib.toStr =
      .ok (c.locator.map id) :=
    readIfIn_written .text hkeys rfl fun _ => rfl
  have hlocatorHash : readIfIn (present (c.fields u)) "locator_hash" lib.toStr =
      .ok (c.locatorHash.map (sha256Prefix u)) :=
    readIfIn_written (fun h => .text (sha256Prefix u h)) hkeys rfl fun _ => rfl
  rw [fromDict, toDict, asDict]
  simp only [bind, Except.bind]
  rw [hrecipients, CborObjects.items]
  dsimp only
  rw [hread, htimelock, hlocator, hlocatorHash, Option.map_id]
  rfl

/-- **A stub that was written is read back**, with its hashes in one form and no
empty post-quantum part. -/
theorem EncryptedContentStub.fromDict_toDict (lib : CborObjects)
    (u : CharTables) (s : EncryptedContentStub) :
    fromDict lib (s.toDict u) = .ok (s.normal u) := by
  have hp : (s.p.map Cbor.int).mapM lib.toInt = .ok (s.p.map id) :=
    mapM_map_ok s.p fun _ _ => rfl
  rw [fromDict, toDict, asDict]
  show ((s.p.map Cbor.int).mapM lib.toInt >>= fun p => _) = _
  rw [hp, List.map_id]
  show (EncryptionMetadata.fromDict lib (s.main.toDict u) >>= fun main => _) = _
  rw [EncryptionMetadata.fromDict_toDict]
  show (CryptoMetadata.fromDict lib (s.crypto.toDict u) >>= fun crypto => _) = _
  rw [CryptoMetadata.fromDict_toDict]
  rfl

end RoundTrip

end Pyrxd.Glyph
