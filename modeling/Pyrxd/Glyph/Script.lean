import Pyrxd.Swap.Partial

/-!
# Glyph scripts

The builders, classifiers and extractors of `glyph/script.py`. A classifier is a
regular expression over the lower-case hex of a script, built of literals and of
`[0-9a-f]{2n}`; on the hex of a byte string it says that the bytes are those
literals with `n` bytes between them (`Fits`). An extractor checks the length
and sometimes only a few bytes of the frame.
-/

namespace Pyrxd.Glyph

open Pyrxd.Lib Pyrxd.Tx
open Pyrxd.Swap
  (GlyphRef isLowerHex p2pkhHead p2pkhTail ftHead ftTail buildFtLockingScript
  extractRefFromFtScript)

/-! ## Patterns over hex -/

inductive HexItem where
  /-- The hex of these bytes. -/
  | lit (b : Bytes)
  /-- `[0-9a-f]{2n}`. -/
  | digits (n : Nat)

abbrev HexPattern := List HexItem

/-- `re.compile(r"^...$").fullmatch(cs)`. -/
def fullmatchChars : HexPattern → List Char → Bool
  | [], cs => cs.isEmpty
  | .lit b :: p, cs =>
    cs.take (2 * b.length) == hexChars b &&
      fullmatchChars p (cs.drop (2 * b.length))
  | .digits n :: p, cs =>
    (cs.take (2 * n)).length == 2 * n && (cs.take (2 * n)).all isLowerHex &&
      fullmatchChars p (cs.drop (2 * n))

def fullmatch (p : HexPattern) (s : String) : Bool := fullmatchChars p s.toList

/-- `re.compile(r"^...$").match(s)`: the `$` also stands before a last line
feed. -/
def reMatch (p : HexPattern) (s : String) : Bool :=
  fullmatch p s || (s.toList.getLast? == some '\n' &&
    fullmatchChars p s.toList.dropLast)

/-- What a pattern says of bytes. -/
def Fits : HexPattern → Bytes → Prop
  | [], s => s = []
  | .lit b :: p, s => ∃ t, s = b ++ t ∧ Fits p t
  | .digits n :: p, s => ∃ d t, d.length = n ∧ s = d ++ t ∧ Fits p t

/-! ## Builders -/

/-- `Hex20(pkh)`, as the builders' callers make it. -/
def checkHex20 (pkh : Bytes) : Except PyErr Unit :=
  refuseIf (pkh.length ≠ 20) ("Hex20 must be 20 bytes, got " ++
    toString pkh.length)

/-- `raise RuntimeError(...)` where a script has not the length it should
have. -/
def checkLength (what : String) (expected : Nat) (script : Bytes) :
    Except PyErr Bytes :=
  if script.length ≠ expected then
    .error (.other (what ++ " invariant violated: expected " ++
      toString expected ++ ", got " ++
      toString script.length))
  else .ok script

/-- The bytes of an NFT singleton script. -/
def nftFrame (ref pkh : Bytes) : Bytes :=
  [0xD8] ++ ref ++ [0x75, 0x76, 0xA9, 0x14] ++ pkh ++ [0x88, 0xAC]

/-- `build_nft_locking_script`. -/
def buildNftLockingScript (pkh : Bytes) (ref : GlyphRef) :
    Except PyErr Bytes := do
  checkHex20 pkh
  let refBytes ← ref.toBytes
  checkLength "NFT locking script length" 63 (nftFrame refBytes pkh)

/-- `OP_HASH256 <hash> ... OP_REFTYPE_OUTPUT`, up to the ref type. -/
def commitMiddle : Bytes := [0x88, 0x03, 0x67, 0x6C, 0x79, 0x88, 0xC0, 0xC8,
  0xC0, 0xC9, 0x54, 0x80, 0x7E, 0xDA]

def commitFrame (payloadHash : Bytes) (refType : UInt8) (pkh : Bytes) : Bytes :=
  [0xAA, 0x20] ++ payloadHash ++ commitMiddle ++ [refType] ++
    [0x9D, 0x76, 0xA9, 0x14] ++ pkh ++ [0x88, 0xAC]

/-- `OP_2` for a singleton ref, `OP_1` for a normal one. -/
def reftypePush (isNft : Bool) : UInt8 := if isNft then 0x52 else 0x51

/-- `build_commit_locking_script`. -/
def buildCommitLockingScript (payloadHash pkh : Bytes) (isNft : Bool) :
    Except PyErr Bytes := do
  checkHex20 pkh
  refuseIf (payloadHash.length ≠ 32) "payload_hash must be 32 bytes"
  return commitFrame payloadHash (reftypePush isNft) pkh

/-- `_MUTABLE_NFT_BODY`. -/
def mutableNftBody : Bytes :=
  [ 0x76, 0x01, 0x20, 0x7F, 0x81, 0x8C, 0x54, 0x80, 0x7E, 0x52, 0x79, 0xE2,
    0x54, 0x7A, 0x01, 0x24, 0x95,
    0x7F, 0x77, 0x01, 0x24, 0x7F, 0x75, 0x88, 0x7C, 0xEC, 0x7B, 0x7F, 0x77,
      0x01, 0x45, 0x7F, 0x75, 0x78,
    0x01, 0x20, 0x7E, 0xC0, 0xCA, 0xA8, 0x7E, 0x88, 0x52, 0x79, 0x03, 0x6D,
      0x6F, 0x64, 0x87, 0x63, 0x78,
    0xEA, 0xC0, 0xE9, 0x88, 0x78, 0xEC, 0x01, 0x20, 0x55, 0x79, 0xAA, 0x7E,
      0x01, 0x75, 0x7E, 0x88, 0x67,
    0x52, 0x79, 0x02, 0x73, 0x6C, 0x88, 0x78, 0xCD, 0x01, 0xD8, 0x52, 0x79,
      0x7E, 0x01, 0x6A, 0x7E, 0x87,
    0x78, 0xDA, 0x00, 0x9C, 0x9B, 0x69, 0x68, 0x54, 0x7A, 0x03, 0x67, 0x6C,
      0x79, 0x88, 0x6D, 0x6D, 0x51 ]

def mutableFrame (ref payloadHash : Bytes) : Bytes :=
  [0x20] ++ payloadHash ++ [0x75, 0xBD, 0xD8] ++ ref ++ mutableNftBody

/-- `build_mutable_nft_script`. -/
def buildMutableNftScript (ref : GlyphRef) (payloadHash : Bytes) :
    Except PyErr Bytes := do
  refuseIf (payloadHash.length ≠ 32) "payload_hash must be 32 bytes"
  let refBytes ← ref.toBytes
  checkLength "Mutable NFT script size" 174 (mutableFrame refBytes payloadHash)

/-! ## Classifiers -/

/-- `NFT_SCRIPT_RE`. -/
def nftScriptRe : HexPattern :=
  [.lit [0xD8], .digits 36, .lit [0x75, 0x76, 0xA9, 0x14], .digits 20,
    .lit [0x88, 0xAC]]

/-- `FT_SCRIPT_RE`. -/
def ftScriptRe : HexPattern :=
  [.lit p2pkhHead, .digits 20, .lit (p2pkhTail ++ ftHead),
    .digits 36, .lit ftTail]

/-- The three `COMMIT_SCRIPT_*_RE`, which differ in the ref type. -/
def commitScriptReOf (refType : HexItem) : HexPattern :=
  [.lit [0xAA, 0x20], .digits 32, .lit commitMiddle, refType,
    .lit [0x9D, 0x76, 0xA9, 0x14], .digits 20,
    .lit [0x88, 0xAC]]

/-- `COMMIT_SCRIPT_NFT_RE`. -/
def commitScriptNftRe : HexPattern := commitScriptReOf (.lit [0x52])

/-- `COMMIT_SCRIPT_FT_RE`. -/
def commitScriptFtRe : HexPattern := commitScriptReOf (.lit [0x51])

/-- `COMMIT_SCRIPT_RE`. -/
def commitScriptRe : HexPattern := commitScriptReOf (.digits 1)

def isNftScript (scriptHex : String) : Bool :=
  fullmatch nftScriptRe scriptHex.toLower

def isFtScript (scriptHex : String) : Bool :=
  fullmatch ftScriptRe scriptHex.toLower

def isCommitScript (scriptHex : String) : Bool :=
  fullmatch commitScriptRe scriptHex.toLower

def isCommitNftScript (scriptHex : String) : Bool :=
  fullmatch commitScriptNftRe scriptHex.toLower

def isCommitFtScript (scriptHex : String) : Bool :=
  fullmatch commitScriptFtRe scriptHex.toLower

/-! ## Extractors -/

/-- `script[i:j]`. -/
def between (script : Bytes) (i j : Nat) : Bytes := (script.drop i).take (j - i)

/-- `extract_ref_from_nft_script`. -/
def extractRefFromNftScript (script : Bytes) : Except PyErr GlyphRef := do
  refuseIf (script.length ≠ 63 ∨
    script.head? ≠ some 0xD8) "Not a valid NFT script"
  GlyphRef.fromBytes (between script 1 37)

/-- `Hex20(b)` of a slice. -/
def hex20 (b : Bytes) : Except PyErr Bytes := do
  checkHex20 b
  return b

/-- `extract_owner_pkh_from_nft_script`. -/
def extractOwnerPkhFromNftScript (script : Bytes) : Except PyErr Bytes := do
  refuseIf (script.length ≠ 63 ∨
    script.head? ≠ some 0xD8) "Not a valid NFT script"
  hex20 (between script 41 61)

/-- `extract_owner_pkh_from_ft_script`. -/
def extractOwnerPkhFromFtScript (script : Bytes) : Except PyErr Bytes := do
  refuseIf (script.length ≠ 75 ∨
    reMatch ftScriptRe (hex script) = false) "Not a valid FT script"
  hex20 (between script 3 23)

/-- `extract_payload_hash_from_commit_script`. -/
def extractPayloadHashFromCommitScript (script : Bytes) :
    Except PyErr Bytes := do
  refuseIf (script.length ≠ 75 ∨
    reMatch commitScriptRe (hex script) = false) "Not a valid commit script"
  return between script 2 34

/-- `extract_owner_pkh_from_commit_script`. -/
def extractOwnerPkhFromCommitScript (script : Bytes) : Except PyErr Bytes := do
  refuseIf (script.length ≠ 75 ∨
    reMatch commitScriptRe (hex script) = false) "Not a valid commit script"
  hex20 (between script 53 73)

/-- `parse_mutable_nft_script`. -/
def parseMutableNftScript (script : Bytes) :
    Except PyErr (Option (GlyphRef × Bytes)) :=
  if script.length ≠ 174 then .ok none
  else if script.getD 0 0 ≠ 0x20 ∨ script.getD 33 0 ≠ 0x75 ∨
    script.getD 34 0 ≠ 0xBD ∨
      script.getD 35 0 ≠ 0xD8 then .ok none
  else if script.drop 72 ≠ mutableNftBody then .ok none
  else do
    let mutableRef ← GlyphRef.fromBytes (between script 36 72)
    return some (mutableRef, between script 1 33)

end Pyrxd.Glyph
