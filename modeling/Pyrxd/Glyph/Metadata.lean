import Pyrxd.Glyph.Cbor
import Pyrxd.Glyph.Dmint

/-!
# Glyph metadata

The metadata of a token and its parts (`glyph/types.py`, `DmintCborPayload` of
`glyph/dmint/types.py`): what each constructor checks, and the dict each is
written as. A value of one of the types has passed its constructor's checks.
-/

namespace Pyrxd.Glyph

open Pyrxd.Lib
open Pyrxd.Swap (isLowerHex)

/-- `repr` of a string. The characters Unicode calls unprintable are left as
they are. -/
def reprStr (s : String) : String :=
  let quote := if s.toList.contains '\'' &&
    !s.toList.contains '"' then '"' else '\''
  let escape := fun c : Char =>
    if c = '\\' ∨ c = quote then ['\\', c]
    else if c = '\n' then ['\\', 'n']
    else if c = '\r' then ['\\', 'r']
    else if c = '\t' then ['\\', 't']
    else if c.toNat < 32 ∨ c.toNat = 127 then
      ['\\', 'x', hexDigit (c.toNat / 16), hexDigit (c.toNat % 16)]
    else [c]
  String.ofList (quote :: s.toList.flatMap escape ++ [quote])

/-! ## Parts -/

/-- `GlyphProtocol`. -/
def protocolNames : List (Int × String) :=
  [(1, "FT"), (2, "NFT"), (3, "DAT"), (4, "DMINT"), (5, "MUT"), (6, "BURN"),
    (7, "CONTAINER"),
    (8, "ENCRYPTED"), (9, "TIMELOCK"), (10, "AUTHORITY"), (11, "WAVE")]

def ftProtocol : Int := 1
def nftProtocol : Int := 2
def mutProtocol : Int := 5
def containerProtocol : Int := 7
def waveProtocol : Int := 11

def protocolName (p : Int) : String := (protocolNames.lookup p).getD ""

structure MediaFields where
  mimeType : String
  data : Bytes
deriving DecidableEq

def MediaFields.postInit (m : MediaFields) : Except PyErr Unit := do
  refuseIf (m.mimeType = "" ∨ '/' ∉ m.mimeType.toList) "Invalid MIME type"
  refuseIf (m.mimeType.length > 256) ("MIME type too long: " ++
    toString m.mimeType.length ++ " > 256")
  refuseIf (m.data.length > 100000) "On-chain media too large (max 100KB)"

structure GlyphMedia extends MediaFields where
  valid : toMediaFields.postInit = .ok ()
deriving DecidableEq

/-- `re.fullmatch(r"[0-9a-f]{n}", s)`. -/
def isHexOf (n : Nat) (cs : List Char) : Bool :=
  cs.length == n && cs.all isLowerHex

structure CreatorFields where
  pubkey : String
  sig : String
  algo : String
deriving DecidableEq

/-- The `algo` that is not written. -/
def creatorAlgo : String := "ecdsa-secp256k1"

/-- `re.fullmatch(r"0[23][0-9a-f]{64}", pubkey.lower())`. -/
def isPubkeyHex (pubkey : String) : Bool :=
  let cs := pubkey.toList.map Char.toLower
  (cs.take 2 == ['0', '2'] || cs.take 2 == ['0', '3']) && isHexOf 64 (cs.drop 2)

def CreatorFields.postInit (c : CreatorFields) : Except PyErr Unit := do
  refuseIf (isPubkeyHex c.pubkey = false)
    "creator.pubkey must be a 33-byte compressed secp256k1 pubkey (02 or 03 prefix, 66 hex chars)"
  refuseIf (c.sig ≠ "" ∧ (c.sig.toList.map Char.toLower).all isLowerHex = false)
    "creator.sig must be hex-encoded DER bytes or empty string"

structure GlyphCreator extends CreatorFields where
  valid : toCreatorFields.postInit = .ok ()
deriving DecidableEq

structure RoyaltyFields where
  bps : Int
  address : String
  enforced : Bool
  minimum : Int
  splits : List (String × Int)
deriving DecidableEq

/-- The check of one split. -/
def checkSplit (split : String × Int) : Except PyErr Unit :=
  refuseIf (¬ (0 ≤ split.2 ∧ split.2 ≤ 10000))
    ("royalty split bps must be 0..10000, got " ++ toString split.2 ++
      " for '" ++ split.1 ++ "'")

def RoyaltyFields.postInit (r : RoyaltyFields) : Except PyErr Unit := do
  refuseIf (¬ (0 ≤ r.bps ∧ r.bps ≤ 10000))
    ("royalty.bps must be 0..10000, got " ++ toString r.bps)
  refuseIf (r.address = "") "royalty.address is required"
  refuseIf (r.minimum < 0) "royalty.minimum must be >= 0"
  r.splits.forM checkSplit
  let total := (r.splits.map Prod.snd).sum
  refuseIf (r.splits ≠ [] ∧ total > r.bps)
    ("royalty splits sum (" ++ toString total ++ " bps) exceeds total bps (" ++
      toString r.bps ++ ")")

structure GlyphRoyalty extends RoyaltyFields where
  valid : toRoyaltyFields.postInit = .ok ()
deriving DecidableEq

structure GlyphPolicy where
  renderable : Option Bool
  executable : Option Bool
  nsfw : Option Bool
  transferable : Option Bool
deriving DecidableEq

structure GlyphRights where
  license : String
  terms : String
  attribution : String
deriving DecidableEq

/-- The fields of `DmintCborPayload`. -/
structure DmintPayloadFields where
  algo : DmintAlgo
  numContracts : Int
  maxHeight : Int
  reward : Int
  premine : Int
  diff : Int
  daaMode : DaaMode
  targetBlockTime : Int
  halfLife : Int
  windowSize : Int
  asymptote : Int
  epochLength : Int
  maxAdjustment : Int
  schedule : List (Int × Int)
deriving DecidableEq

def DmintPayloadFields.postInit (d : DmintPayloadFields) :
    Except PyErr Unit := do
  refuseIf (d.numContracts < 1) "num_contracts must be >= 1"
  refuseIf (d.maxHeight < 1) "max_height must be >= 1"
  refuseIf (d.reward < 0) "reward must be >= 0"
  refuseIf (d.premine < 0) "premine must be >= 0"
  refuseIf (d.diff < 1) "diff must be >= 1"
  refuseIf (d.asymptote < 0) "asymptote must be >= 0"
  refuseIf (d.epochLength < 0) "epoch_length must be >= 0"
  refuseIf (d.maxAdjustment < 0) "max_adjustment must be >= 0"

structure DmintCborPayload extends DmintPayloadFields where
  valid : toDmintPayloadFields.postInit = .ok ()
deriving DecidableEq

/-! ## Metadata -/

/-- The fields of `GlyphMetadata`; `attrs` is a dict, in the order it was
filled. -/
structure MetadataFields where
  protocol : List Int
  name : String
  ticker : String
  description : String
  tokenType : String
  main : Option GlyphMedia
  attrs : List (String × String)
  loc : String
  locHash : String
  decimals : Int
  imageUrl : String
  imageIpfs : String
  imageSha256 : String
  v : Option Int
  dmintParams : Option DmintCborPayload
  creator : Option GlyphCreator
  royalty : Option GlyphRoyalty
  policy : Option GlyphPolicy
  rights : Option GlyphRights
  created : String
  commitOutpoint : String
deriving DecidableEq

/-- Each extension protocol and those it needs beside it. -/
def protocolRequirements : List (Int × List Int) :=
  [(4, [1]), (5, [2]), (7, [2]), (8, [2]), (9, [8]), (10, [2]), (11, [2, 5])]

def checkKnown (p : Int) : Except PyErr Unit :=
  refuseIf (p ∉ protocolNames.map Prod.fst)
    ("Unknown protocol value " ++ toString p ++
      ". Valid values: [1, 2, 3, 4, 5, 6, 7, 8, 9, 10, 11] (see GlyphProtocol).")

def checkRequirement (protocol : List Int) (rule : Int × List Int) :
    Except PyErr Unit :=
  let missing := rule.2.filter (· ∉ protocol)
  refuseIf (rule.1 ∈ protocol ∧ missing ≠ [])
    ("protocol " ++ protocolName rule.1 ++ " (" ++ toString rule.1 ++
      ") requires " ++
      ", ".intercalate (missing.map protocolName) ++ " to also be present.")

/-- The checks on the protocol list. -/
def checkProtocol (protocol : List Int) : Except PyErr Unit := do
  refuseIf (protocol = [])
    "protocol list must not be empty. Use e.g. [GlyphProtocol.FT] or [GlyphProtocol.NFT]."
  protocol.forM checkKnown
  refuseIf (ftProtocol ∈ protocol ∧ nftProtocol ∈ protocol)
    "FT (1) and NFT (2) are mutually exclusive protocol markers."
  protocolRequirements.forM (checkRequirement protocol)

def MetadataFields.postInit (m : MetadataFields) : Except PyErr Unit := do
  checkProtocol m.protocol
  refuseIf (¬ (0 ≤ m.decimals ∧ m.decimals ≤ 18))
    ("decimals must be 0..18 (display precision); got " ++
      toString m.decimals ++
      ". Negative decimals produce 10x display errors; > 18 is not meaningful.")
  refuseIf (m.imageSha256 ≠ "" ∧ isHexOf 64 m.imageSha256.toList = false)
    ("image_sha256 must be 64 lowercase hex chars (SHA-256), got " ++
      toString m.imageSha256.length ++
      " chars: " ++ reprStr (String.ofList (m.imageSha256.toList.take 16)) ++
        "...")

structure GlyphMetadata extends MetadataFields where
  /-- A dict holds a key once. -/
  distinct : (toMetadataFields.attrs.map Prod.fst).Nodup
  valid : toMetadataFields.postInit = .ok ()
deriving DecidableEq

/-! ## Dicts -/

open Cbor (present textField intField)

def GlyphMedia.toCborDict (m : GlyphMedia) : Cbor :=
  .map [(.text "t", .text m.mimeType), (.text "b", .bytes m.data)]

def GlyphCreator.toCborDict (c : GlyphCreator) : Cbor :=
  .map (present
    [("pubkey", some (.text c.pubkey)), ("sig", textField c.sig),
      ("algo", if c.algo = creatorAlgo then none else some (.text c.algo))])

def splitDict (split : String × Int) : Cbor :=
  .map [(.text "address", .text split.1), (.text "bps", .int split.2)]

def GlyphRoyalty.toCborDict (r : GlyphRoyalty) : Cbor :=
  .map (present
    [("enforced", some (.bool r.enforced)), ("bps", some (.int r.bps)),
      ("address", some (.text r.address)), ("minimum", intField r.minimum),
      ("splits", if r.splits = [] then none
        else some (.list (r.splits.map splitDict)))])

def GlyphPolicy.entries (p : GlyphPolicy) : List (Cbor × Cbor) :=
  present
    [("renderable", p.renderable.map .bool),
      ("executable", p.executable.map .bool),
      ("nsfw", p.nsfw.map .bool), ("transferable", p.transferable.map .bool)]

def GlyphRights.entries (r : GlyphRights) : List (Cbor × Cbor) :=
  present
    [("license", textField r.license), ("terms", textField r.terms),
      ("attribution", textField r.attribution)]

/-- A dict that is written only if it is not empty. -/
def dictField (entries : List (Cbor × Cbor)) : Option Cbor :=
  if entries.isEmpty then none else some (.map entries)

def scheduleDict (entry : Int × Int) : Cbor :=
  .map [(.text "height", .int entry.1), (.text "difficulty", .int entry.2)]

/-- The `daa` dict of a payload that is not in FIXED mode. -/
def DmintCborPayload.daaDict (d : DmintCborPayload) : Cbor :=
  .map (present
    [("mode", some (.int d.daaMode.value)),
      ("targetBlockTime", some (.int d.targetBlockTime)),
      ("halfLife", intField d.halfLife), ("asymptote", intField d.asymptote),
      ("windowSize", intField d.windowSize),
        ("epochLength", intField d.epochLength),
      ("maxAdjustment", intField d.maxAdjustment),
      ("schedule", if d.schedule = [] then none
        else some (.list (d.schedule.map scheduleDict)))])

def DmintCborPayload.toCborDict (d : DmintCborPayload) : Cbor :=
  .map (present
    [("algo", some (.int d.algo.value)),
      ("numContracts", some (.int d.numContracts)),
      ("maxHeight", some (.int d.maxHeight)), ("reward", some (.int d.reward)),
      ("premine", some (.int d.premine)), ("diff", some (.int d.diff)),
      ("daa", if d.daaMode = .fixed then none else some d.daaDict)])

def attrsDict (attrs : List (String × String)) : Cbor :=
  .map (attrs.map fun e => (.text e.1, .text e.2))

namespace GlyphMetadata

/-- The entries in front of `creator`, in the order of the source. -/
def fieldsBefore (m : GlyphMetadata) : List (String × Option Cbor) :=
  [("v", m.v.map .int), ("p", some (.list (m.protocol.map .int))),
    ("name", textField m.name),
    ("ticker", textField m.ticker), ("desc", textField m.description),
      ("type", textField m.tokenType),
    ("main", m.main.map GlyphMedia.toCborDict),
    ("attrs", if m.attrs = [] then none else some (attrsDict m.attrs)),
      ("loc", textField m.loc),
    ("loc_hash", textField m.locHash), ("decimals", intField m.decimals),
      ("image", textField m.imageUrl), ("image_ipfs", textField m.imageIpfs),
      ("image_sha256", textField m.imageSha256),
    ("dmint", m.dmintParams.map DmintCborPayload.toCborDict)]

/-- Those behind it. -/
def fieldsAfter (m : GlyphMetadata) : List (String × Option Cbor) :=
  [("royalty", m.royalty.map GlyphRoyalty.toCborDict),
    ("policy", m.policy.bind fun p => dictField p.entries),
    ("rights", m.rights.bind fun r => dictField r.entries),
    ("created", textField m.created),
    ("commit_outpoint", textField m.commitOutpoint)]

/-- `to_cbor_dict`. -/
def toCborDict (m : GlyphMetadata) : List (Cbor × Cbor) :=
  present (m.fieldsBefore ++ ("creator",
    m.creator.map GlyphCreator.toCborDict) :: m.fieldsAfter)

end GlyphMetadata

/-- `encode_payload`. -/
def encodePayload (lib : Cbor2) (m : GlyphMetadata) : Bytes × Bytes :=
  let cbor := lib.dumpsCanonical (.map m.toCborDict)
  (cbor, hash256 cbor)

end Pyrxd.Glyph
