import Pyrxd.Glyph.Builder
import Pyrxd.Lib.Dict
import Pyrxd.Lib.OrderedMap

/-!
# Reading a payload

`decode_payload` (`glyph/payload.py`) with the `from_cbor_dict` of every part of
the metadata. What the payload holds is arbitrary: each conversion says what it
makes of each kind of object and which exception it raises, since the handlers
catch some and let the others through.
-/

namespace Pyrxd.Glyph

open Pyrxd.Lib

/-- The exceptions the handlers tell apart. -/
inductive DecodeErr where
  /-- `ValidationError`. -/
  | validation (msg : String)
  /-- `KeyError`. -/
  | key (name : String)
  /-- `ValueError`. -/
  | value (msg : String)
  /-- `TypeError`. -/
  | type (msg : String)
  /-- `AttributeError`, `OverflowError`, ... -/
  | other (msg : String)
deriving DecidableEq

def DecodeErr.ofPyErr : PyErr → DecodeErr
  | .validation msg => .validation msg
  | .other msg => .other msg
  | .base msg => .other msg

/-- `str(exc)`. -/
def DecodeErr.text : DecodeErr → String
  | validation msg => msg
  | key name => reprStr name
  | value msg => msg
  | type msg => msg
  | other msg => msg

/-- A check that raises what the constructors raise. -/
def checked {α : Type} (x : Except PyErr α) : Except DecodeErr α :=
  x.mapError .ofPyErr

/-- `if cond: raise ValidationError(msg)`. -/
def rejectIf (cond : Prop) [Decidable cond] (msg : String) :
    Except DecodeErr Unit :=
  if cond then .error (.validation msg) else .ok ()

/-- `cbor2`, with what Python makes of an object that is of none of the built-in
types. -/
structure CborObjects extends Cbor2 where
  /-- `int(x)`; also of a string that is not ASCII. -/
  intOf : Cbor → Except DecodeErr Int
  /-- `str(x)`. -/
  strOf : Cbor → Except DecodeErr String
  /-- `bytes(x)`. -/
  bytesOf : Cbor → Except DecodeErr Bytes
  /-- `list(x)`. -/
  itemsOf : Cbor → Except DecodeErr (List Cbor)
  /-- `x[key]`. -/
  itemOf : Cbor → String → Except DecodeErr Cbor
  /-- `x.get(key, default)`. -/
  getOf : Cbor → String → Cbor → Except DecodeErr Cbor

/-! ## Conversions -/

namespace CborObjects

variable (lib : CborObjects)

/-- `int(s)`, of a string. -/
def intOfText (s : String) : Except DecodeErr Int :=
  if s.toList.all (·.toNat < 128) = false then lib.intOf (.text s)
  else if 4300 < s.toList.countP Char.isDigit then .error
    (.value "Exceeds the limit (4300 digits)")
  else
    match PyVal.intOfStr s with
    | some n => .ok n
    | none =>
      .error (.value ("invalid literal for int() with base 10: " ++ reprStr s))

/-- `int(x)`. -/
def toInt : Cbor → Except DecodeErr Int
  | .int n => .ok n
  | .bool b => .ok (if b then 1 else 0)
  | .float (.finite q) => .ok (q.num.tdiv q.den)
  | .float .negZero => .ok 0
  | .float (.inf _) =>
    .error (.other "cannot convert float infinity to integer")
  | .float .nan => .error (.value "cannot convert float NaN to integer")
  | .ratio _ q => .ok (q.num.tdiv q.den)
  | .text s => lib.intOfText s
  | .bytes b => lib.intOf (.bytes b)
  | .other cls truth ident => lib.intOf (.other cls truth ident)
  | x =>
    .error (.type
      ("int() argument must be a string, a bytes-like object or a real number, not '" ++
      x.typeName ++ "'"))

/-- `str(x)`. -/
def toStr : Cbor → Except DecodeErr String
  | .text s => .ok s
  | x => lib.strOf x

/-- One element of what `bytes()` is given. -/
def byte : Cbor → Except DecodeErr UInt8
  | .int n =>
    if 0 ≤ n ∧ n < 256 then .ok (UInt8.ofNat n.toNat)
      else .error (.value "bytes must be in range(0, 256)")
  | .bool b => .ok (if b then 1 else 0)
  | x =>
    .error (.type ("'" ++ x.typeName ++
      "' object cannot be interpreted as an integer"))

/-- `bytes(x)`. -/
def toBytes : Cbor → Except DecodeErr Bytes
  | .bytes b => .ok b
  | .int n =>
    if n < 0 then .error (.value "negative count")
    else if 2 ^ 63 ≤
      n then .error (.other "cannot fit 'int' into an index-sized integer")
    else .ok (List.replicate n.toNat 0)
  | .bool b => .ok (if b then [0] else [])
  | .list xs => xs.mapM byte
  | .set xs => xs.mapM byte
  | .map entries => (entries.map Prod.fst).mapM byte
  | .text _ => .error (.type "string argument without an encoding")
  | .other cls truth ident => lib.bytesOf (.other cls truth ident)
  | x =>
    .error (.type ("cannot convert '" ++ x.typeName ++ "' object to bytes"))

/-- What a loop over `x` goes through. -/
def items : Cbor → Except DecodeErr (List Cbor)
  | .list xs => .ok xs
  | .set xs => .ok xs
  | .map entries => .ok (entries.map Prod.fst)
  | .text s => .ok (s.toList.map fun c => .text (String.ofList [c]))
  | .bytes b => .ok (b.map fun c => .int c.toNat)
  | .other cls truth ident => lib.itemsOf (.other cls truth ident)
  | x => .error (.type ("'" ++ x.typeName ++ "' object is not iterable"))

/-- `d[key]`, of a dict. -/
def entry (d : List (Cbor × Cbor)) (key : String) : Except DecodeErr Cbor :=
  match Cbor.lookup key d with
  | some v => .ok v
  | none => .error (.key key)

/-- `d.get(key, default)`, of a dict. -/
def entryOr (d : List (Cbor × Cbor)) (key : String) (default : Cbor) : Cbor :=
  (Cbor.lookup key d).getD default

/-- `x[key]`. -/
def item (x : Cbor) (key : String) : Except DecodeErr Cbor :=
  match x with
  | .map entries => entry entries key
  | .other cls truth ident => lib.itemOf (.other cls truth ident) key
  | x =>
    .error (.type ("'" ++ x.typeName ++
      "' object cannot be indexed by a string"))

/-- `x.get(key, default)`. -/
def get (x : Cbor) (key : String) (default : Cbor) : Except DecodeErr Cbor :=
  match x with
  | .map entries => .ok (entryOr entries key default)
  | .other cls truth ident => lib.getOf (.other cls truth ident) key default
  | x =>
    .error (.other ("'" ++ x.typeName ++ "' object has no attribute 'get'"))

end CborObjects

open CborObjects (entry entryOr)

/-! ## Constructors -/

def GlyphMedia.make (f : MediaFields) : Except PyErr GlyphMedia := do
  let ⟨h⟩ ← postInitOk MediaFields.postInit f
  return ⟨f, h⟩

def GlyphCreator.make (f : CreatorFields) : Except PyErr GlyphCreator := do
  let ⟨h⟩ ← postInitOk CreatorFields.postInit f
  return ⟨f, h⟩

def GlyphRoyalty.make (f : RoyaltyFields) : Except PyErr GlyphRoyalty := do
  let ⟨h⟩ ← postInitOk RoyaltyFields.postInit f
  return ⟨f, h⟩

def DmintCborPayload.make (f : DmintPayloadFields) :
    Except PyErr DmintCborPayload := do
  let ⟨h⟩ ← postInitOk DmintPayloadFields.postInit f
  return ⟨f, h⟩

/-- The constructor, with attributes that are a dict. -/
def GlyphMetadata.make (f : MetadataFields)
    (distinct : (f.attrs.map Prod.fst).Nodup) : Except PyErr GlyphMetadata := do
  let ⟨h⟩ ← postInitOk MetadataFields.postInit f
  return ⟨f, distinct, h⟩

/-! ## Parts -/

/-- `GlyphCreator.from_cbor_dict` of a dict. -/
def GlyphCreator.fromCborDict (lib : CborObjects) (d : List (Cbor × Cbor)) :
    Except DecodeErr GlyphCreator := do
  let pubkey ← lib.toStr (entryOr d "pubkey" (.text ""))
  let sig ← lib.toStr (entryOr d "sig" (.text ""))
  let algo ← lib.toStr (entryOr d "algo" (.text creatorAlgo))
  checked (make ⟨pubkey, sig, algo⟩)

/-- `GlyphCreator.from_cbor_dict` of a string. -/
def GlyphCreator.fromCborStr (pubkey : String) :
    Except DecodeErr GlyphCreator :=
  checked (make ⟨pubkey, "", creatorAlgo⟩)

/-- One of the splits; those that are no dict are left out. -/
def readSplit (lib : CborObjects) : Cbor →
    Except DecodeErr (Option (String × Int))
  | .map d => do
    let address ← entry d "address"
    let address ← lib.toStr address
    let bps ← entry d "bps"
    let bps ← lib.toInt bps
    return some (address, bps)
  | _ => .ok none

/-- `GlyphRoyalty.from_cbor_dict`. -/
def GlyphRoyalty.fromCborDict (lib : CborObjects) (d : List (Cbor × Cbor)) :
    Except DecodeErr GlyphRoyalty := do
  let splitsRaw ← lib.items (entryOr d "splits" (.list []))
  let splits ← splitsRaw.mapM (readSplit lib)
  let bps ← entry d "bps"
  let bps ← lib.toInt bps
  let address ← entry d "address"
  let address ← lib.toStr address
  let enforced := (entryOr d "enforced" (.bool false)).truthy
  let minimum ← lib.toInt (entryOr d "minimum" (.int 0))
  checked (make ⟨bps, address, enforced, minimum, splits.filterMap id⟩)

/-- `_opt_bool`. -/
def optBool (d : List (Cbor × Cbor)) (key : String) : Option Bool :=
  match entryOr d key .none with
  | .none => none
  | v => some v.truthy

/-- `GlyphPolicy.from_cbor_dict`. -/
def GlyphPolicy.fromCborDict (d : List (Cbor × Cbor)) : GlyphPolicy where
  renderable := optBool d "renderable"
  executable := optBool d "executable"
  nsfw := optBool d "nsfw"
  transferable := optBool d "transferable"

/-- `GlyphRights.from_cbor_dict`. -/
def GlyphRights.fromCborDict (lib : CborObjects) (d : List (Cbor × Cbor)) :
    Except DecodeErr GlyphRights := do
  let license ← lib.toStr (entryOr d "license" (.text ""))
  let terms ← lib.toStr (entryOr d "terms" (.text ""))
  let attribution ← lib.toStr (entryOr d "attribution" (.text ""))
  return ⟨license, terms, attribution⟩

/-! ## The dMint object -/

/-- What the enumeration `cls` makes of an int. -/
def member {α : Type} (cls : String) (n : Int) : Option α → Except DecodeErr α
  | some a => .ok a
  | none => .error (.value (toString n ++ " is not a valid " ++ cls))

/-- `except (KeyError, ValueError): raise ValidationError("dmint.algo missing or invalid")`. -/
def algoErr : DecodeErr → DecodeErr
  | .key _ => .validation "dmint.algo missing or invalid"
  | .value _ => .validation "dmint.algo missing or invalid"
  | e => e

/-- `DmintAlgo(int(d["algo"]))`. -/
def readAlgo (lib : CborObjects) (d : List (Cbor × Cbor)) :
    Except DecodeErr DmintAlgo := do
  let n ← entry d "algo"
  let n ← lib.toInt n
  member "DmintAlgo" n (DmintAlgo.ofValue n)

/-- What the `daa` dict says. -/
structure DaaFields where
  mode : DaaMode
  targetBlockTime : Int
  halfLife : Int
  windowSize : Int
  asymptote : Int
  epochLength : Int
  maxAdjustment : Int
  schedule : List (Int × Int)

/-- What is assumed where there is no such dict. -/
def DaaFields.default : DaaFields := ⟨.fixed, 60, 0, 0, 0, 0, 0, []⟩

def readScheduleEntry (lib : CborObjects) (e : Cbor) :
    Except DecodeErr (Int × Int) := do
  let height ← lib.item e "height"
  let height ← lib.toInt height
  let difficulty ← lib.item e "difficulty"
  let difficulty ← lib.toInt difficulty
  return (height, difficulty)

def readSchedule (lib : CborObjects) (raw : Cbor) :
    Except DecodeErr (List (Int × Int)) :=
  if raw.truthy then do
    let entries ← lib.items raw
    entries.mapM (readScheduleEntry lib)
  else .ok []

/-- `int(daa.get(key, default))`. -/
def readDaaInt (lib : CborObjects) (daa : Cbor) (key : String) (default : Int) :
    Except DecodeErr Int := do
  let x ← lib.get daa key (.int default)
  lib.toInt x

def DaaFields.read (lib : CborObjects) (daa : Cbor) :
    Except DecodeErr DaaFields := do
  let mode ← readDaaInt lib daa "mode" 0
  let mode ← member "DaaMode" mode (DaaMode.ofValue mode)
  let targetBlockTime ← readDaaInt lib daa "targetBlockTime" 60
  let halfLife ← readDaaInt lib daa "halfLife" 0
  let windowSize ← readDaaInt lib daa "windowSize" 0
  let asymptote ← readDaaInt lib daa "asymptote" 0
  let epochLength ← readDaaInt lib daa "epochLength" 0
  let maxAdjustment ← readDaaInt lib daa "maxAdjustment" 0
  let schedRaw ← lib.get daa "schedule" .none
  let schedule ← readSchedule lib schedRaw
  return ⟨mode, targetBlockTime, halfLife, windowSize, asymptote, epochLength,
    maxAdjustment, schedule⟩

/-- The `daa` dict, if there is one. -/
def readDaa (lib : CborObjects) (d : List (Cbor × Cbor)) :
    Except DecodeErr DaaFields :=
  match Cbor.lookup "daa" d with
  | some daa => DaaFields.read lib daa
  | none => .ok .default

/-- `except KeyError as e: raise ValidationError(...)`. -/
def fieldErr : DecodeErr → DecodeErr
  | .key name =>
    .validation ("dmint CBOR missing required field: " ++ reprStr name)
  | e => e

/-- What follows the algorithm. -/
def DmintCborPayload.readFields (lib : CborObjects) (algo : DmintAlgo)
    (d : List (Cbor × Cbor)) :
    Except DecodeErr DmintCborPayload := do
  let daa ← readDaa lib d
  let numContracts ← lib.toInt (entryOr d "numContracts" (.int 1))
  let maxHeight ← entry d "maxHeight"
  let maxHeight ← lib.toInt maxHeight
  let reward ← entry d "reward"
  let reward ← lib.toInt reward
  let premine ← lib.toInt (entryOr d "premine" (.int 0))
  let diff ← entry d "diff"
  let diff ← lib.toInt diff
  checked (make
    { algo, numContracts, maxHeight, reward, premine, diff, daaMode := daa.mode,
      targetBlockTime := daa.targetBlockTime, halfLife := daa.halfLife,
      windowSize := daa.windowSize, asymptote := daa.asymptote,
      epochLength := daa.epochLength, maxAdjustment := daa.maxAdjustment,
      schedule := daa.schedule })

/-- `DmintCborPayload.from_cbor_dict`. -/
def DmintCborPayload.fromCborDict (lib : CborObjects) (d : List (Cbor × Cbor)) :
    Except DecodeErr DmintCborPayload := do
  let algo ← (readAlgo lib d).mapError algoErr
  (readFields lib algo d).mapError fieldErr

/-! ## The payload -/

/-- `_MAX_ATTRS_COUNT`. -/
def maxAttrsCount : Nat := 64

/-- `_cbor_str`. -/
def cborStr (d : List (Cbor × Cbor)) (key : String) (maxLen : Nat) :
    Except DecodeErr String :=
  match entryOr d key (.text "") with
  | .text s =>
    if s = "" then .ok ""
    else if maxLen < s.length then
      .error (.validation ("CBOR field " ++ reprStr key ++ " too long: " ++
        toString s.length ++ " > " ++ toString maxLen))
    else .ok s
  | v =>
    .error (.validation ("CBOR field " ++ reprStr key ++
      " must be a text string, got " ++ reprStr v.typeName))

/-- The attributes as they are filled in, one after the other. -/
def readAttrs (lib : CborObjects) : List (Cbor × Cbor) →
    OrderedMap String String → Except DecodeErr (OrderedMap String String)
  | [], attrs => .ok attrs
  | (k, v) :: entries, attrs => do
    let k ← lib.toStr k
    let v ← lib.toStr v
    readAttrs lib entries (attrs.set k v)

/-- `_decode_attrs`. -/
def decodeAttrs (lib : CborObjects) : Cbor →
    Except DecodeErr (OrderedMap String String)
  | .map entries => do
    rejectIf (maxAttrsCount < entries.length)
      ("'attrs' map too large: " ++ toString entries.length ++ " entries > " ++
        toString maxAttrsCount)
    readAttrs lib entries .empty
  | _ => .ok .empty

/-- `_decode_decimals`. -/
def decodeDecimals (lib : CborObjects) : Cbor → Except DecodeErr Int
  | .int n => .ok n
  | .bool _ => .error (.validation "'decimals' must be an integer, not bool")
  | .float f =>
    .error (.validation ("'decimals' must be an integer, got float " ++
      lib.repr (.float f) ++
      ". CBOR floats truncate silently — use an integer."))
  | x =>
    .error (.validation ("'decimals' must be an integer, got " ++
      reprStr x.typeName))

/-- `blob.value`, of a tag. -/
def unwrapTag : Cbor → Cbor
  | .tag _ value => value
  | x => x

/-- The media of a dict that has both entries. -/
def readMedia (lib : CborObjects) (t b : Cbor) :
    Except DecodeErr GlyphMedia := do
  let mimeType ← lib.toStr t
  rejectIf (256 < mimeType.length)
    ("CBOR field 'main.t' (mime_type) too long: " ++
      toString mimeType.length ++ " > 256")
  let data ← lib.toBytes (unwrapTag b)
  checked (GlyphMedia.make ⟨mimeType, data⟩)

/-- The `main` entry. -/
def decodeMain (lib : CborObjects) (d : List (Cbor × Cbor)) :
    Except DecodeErr (Option GlyphMedia) :=
  match Cbor.lookup "main" d with
  | some (.map m) =>
    match Cbor.lookup "t" m, Cbor.lookup "b" m with
    | some t, some b => some <$> readMedia lib t b
    | _, _ => .ok none
  | _ => .ok none

/-- `except (TypeError, ValueError): raise ValidationError("CBOR field 'v' must be an integer")`. -/
def versionErr : DecodeErr → DecodeErr
  | .type _ => .validation "CBOR field 'v' must be an integer"
  | .value _ => .validation "CBOR field 'v' must be an integer"
  | e => e

/-- The `v` entry. -/
def decodeVersion (lib : CborObjects) (d : List (Cbor × Cbor)) :
    Except DecodeErr (Option Int) :=
  match entryOr d "v" .none with
  | .none => .ok none
  | x => some <$> (lib.toInt x).mapError versionErr

/-- The `dmint` entry. -/
def decodeDmint (lib : CborObjects) (d : List (Cbor × Cbor)) :
    Except DecodeErr (Option DmintCborPayload) :=
  match Cbor.lookup "dmint" d with
  | some (.map dm) => some <$> DmintCborPayload.fromCborDict lib dm
  | some _ => .error (.validation "CBOR field 'dmint' must be a map")
  | none => .ok none

/-- `except (ValidationError, KeyError, ValueError)`: the malformed part is
ignored. -/
def ignoreMalformed {α : Type} : Except DecodeErr α →
    Except DecodeErr (Option α)
  | .ok a => .ok (some a)
  | .error (.validation _) => .ok none
  | .error (.key _) => .ok none
  | .error (.value _) => .ok none
  | .error e => .error e

/-- The creator, of whatever stands there. -/
def readCreator (lib : CborObjects) : Cbor → Except DecodeErr GlyphCreator
  | .map c => GlyphCreator.fromCborDict lib c
  | c => do
    let pubkey ← lib.toStr c
    GlyphCreator.fromCborStr pubkey

/-- The `creator` entry. -/
def decodeCreator (lib : CborObjects) (d : List (Cbor × Cbor)) :
    Except DecodeErr (Option GlyphCreator) :=
  match Cbor.lookup "creator" d with
  | some c => ignoreMalformed (readCreator lib c)
  | none => .ok none

/-- An entry that is read only if it is a dict. -/
def decodePart {α : Type} (key : String)
    (read : List (Cbor × Cbor) → Except DecodeErr α) (d : List (Cbor × Cbor)) :
    Except DecodeErr (Option α) :=
  match Cbor.lookup key d with
  | some (.map part) => ignoreMalformed (read part)
  | _ => .ok none

/-- `cbor2.loads`, as a dict. -/
def loadDict (lib : CborObjects) (cborBytes : Bytes) :
    Except DecodeErr (List (Cbor × Cbor)) :=
  match lib.loads cborBytes with
  | .ok (.map d) => .ok d
  | .ok _ => .error (.validation "CBOR payload must be a map")
  | .error (.base msg) => .error (.other msg)
  | .error _ => .error (.validation "Invalid CBOR payload")

/-- The `p` entry. -/
def decodeP (d : List (Cbor × Cbor)) : Except DecodeErr (List Cbor) :=
  match Cbor.lookup "p" d with
  | some (.list p) => .ok p
  | _ => .error (.validation "CBOR payload missing 'p' field")

/-- The constructor's check that an element of the protocol list is a known
int. -/
def protocolValue (lib : CborObjects) : Cbor → Except DecodeErr Int
  | .int n => do
    checked (checkKnown n)
    return n
  | x =>
    .error (.validation ("protocol values must be int, got " ++
      reprStr x.typeName ++ ": " ++ lib.repr x))

/-- `decode_payload`. -/
def decodePayload (lib : CborObjects) (cborBytes : Bytes) :
    Except DecodeErr GlyphMetadata := do
  rejectIf (maxCborPayloadBytes < cborBytes.length)
    ("CBOR payload too large: " ++ toString cborBytes.length ++ " > " ++
      toString maxCborPayloadBytes ++ " bytes")
  let d ← loadDict lib cborBytes
  let p ← decodeP d
  let main ← decodeMain lib d
  let v ← decodeVersion lib d
  let dmintParams ← decodeDmint lib d
  let creator ← decodeCreator lib d
  let royalty ← decodePart "royalty" (GlyphRoyalty.fromCborDict lib) d
  let policy ← decodePart "policy" (fun part =>
    .ok (GlyphPolicy.fromCborDict part)) d
  let rights ← decodePart "rights" (GlyphRights.fromCborDict lib) d
  let name ← cborStr d "name" 64
  let ticker ← cborStr d "ticker" 16
  let description ← cborStr d "desc" 1000
  let tokenType ← cborStr d "type" 64
  let attrs ← decodeAttrs lib (entryOr d "attrs" (.map []))
  let loc ← cborStr d "loc" 512
  let locHash ← cborStr d "loc_hash" 128
  let decimals ← decodeDecimals lib (entryOr d "decimals" (.int 0))
  let imageUrl ← cborStr d "image" 512
  let imageIpfs ← cborStr d "image_ipfs" 128
  let imageSha256 ← cborStr d "image_sha256" 64
  let created ← cborStr d "created" 64
  let commitOutpoint ← cborStr d "commit_outpoint" 128
  let protocol ← p.mapM (protocolValue lib)
  checked (GlyphMetadata.make
    { protocol, name, ticker, description, tokenType, main,
      attrs := attrs.entries, loc, locHash, decimals, imageUrl, imageIpfs,
      imageSha256, v, dmintParams, creator, royalty, policy, rights, created,
      commitOutpoint } attrs.nodup)

end Pyrxd.Glyph
