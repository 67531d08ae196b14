import Pyrxd.Glyph.ReadBack
import Pyrxd.Swap.Partial

/-!
# Creator signatures

`sign_metadata` and `verify_creator_signature` (`glyph/creator.py`). What is
signed is the encoding of the metadata with an unsigned creator put into it, in
the order in which the dict was filled: in the creator's own place if the
metadata had one, and at the end if it had none.
-/

namespace Pyrxd.Glyph

open Pyrxd.Lib
open Pyrxd.Swap (Curve PrivateKey)

/-! ## Functions -/

/-- `_CREATOR_PREFIX`: `glyph-v2-creator:`. -/
def creatorPrefix : Bytes :=
  [0x67, 0x6C, 0x79, 0x70, 0x68, 0x2D, 0x76, 0x32, 0x2D, 0x63, 0x72, 0x65, 0x61,
    0x74, 0x6F, 0x72, 0x3A]

/-- `_commit_hash`. -/
def commitHash (cborBytes : Bytes) : Bytes := sha256 (sha256 cborBytes)

/-- `_signing_message`. -/
def signingMessage (commitHash : Bytes) : Bytes :=
  sha256 (creatorPrefix ++ commitHash)

/-- `d[key] = v`, of a dict of objects. -/
def setItem (key : String) (v : Cbor) : List (Cbor × Cbor) → List (Cbor × Cbor)
  | [] => [(.text key, v)]
  | (k, v') :: d =>
    if Cbor.eqText key k then (k, v) :: d else (k, v') :: setItem key v d

/-- `{"pubkey": pubkey_hex, "sig": "", "algo": algo}`. -/
def unsignedCreator (pubkey algo : String) : Cbor :=
  .map [(.text "pubkey", .text pubkey), (.text "sig", .text ""),
    (.text "algo", .text algo)]

/-- The dict that `_cbor_for_signing` encodes. -/
def signingDict (m : GlyphMetadata) (pubkey algo : String) :
    List (Cbor × Cbor) :=
  setItem "creator" (unsignedCreator pubkey algo) m.toCborDict

/-- `_cbor_for_signing`. -/
def cborForSigning (lib : Cbor2) (m : GlyphMetadata)
    (pubkey algo : String) : Bytes :=
  lib.dumps (.map (signingDict m pubkey algo))

variable {Key Secret : Type} (curve : Curve Key Secret)

/-- `private_key.public_key().serialize(compressed=True).hex()`. -/
def pubkeyHex (k : PrivateKey Secret) : Except PyErr String := do
  let key ← curve.parse (curve.format (curve.publicKey k.secret) k.compressed)
  return hex (curve.format key true)

/-- `sign_metadata`. -/
def signMetadata (lib : Cbor2) (m : GlyphMetadata) (k : PrivateKey Secret)
    (algo : String) :
    Except PyErr GlyphMetadata := do
  let pubkey ← pubkeyHex curve k
  let cborBytes := cborForSigning lib m pubkey algo
  let message := signingMessage (commitHash cborBytes)
  let sigDer := curve.sign k.secret message
  let creator ← GlyphCreator.make ⟨pubkey, hex sigDer, algo⟩
  GlyphMetadata.make { m.toMetadataFields with creator := some creator }
    m.distinct

/-- `except Exception as e: return False, f"...{e}"`. -/
def orReason {α : Type} (what : String) (x : Except PyErr α)
    (next : α → Except PyErr (Bool × String)) :
    Except PyErr (Bool × String) :=
  match x with
  | .ok a => next a
  | .error (.base msg) => .error (.base msg)
  | .error e => .ok (false, what ++ e.text)

/-- The check of a signature that could be read. -/
def checkCreator (lib : Cbor2) (m : GlyphMetadata) (creator : GlyphCreator)
    (sigDer : Bytes) :
    Except PyErr (Bool × String) :=
  orReason "invalid creator.pubkey: " (PyVal.toBytes (.str creator.pubkey) >>=
      curve.parse) fun key =>
    let cborBytes := cborForSigning lib m creator.pubkey creator.algo
    let message := signingMessage (commitHash cborBytes)
    orReason "signature verification error: "
        (curve.verify key sigDer message) fun valid =>
      if valid then .ok (true, "") else .ok (false, "signature mismatch")

/-- `verify_creator_signature`. -/
def verifyCreatorSignature (lib : Cbor2) (m : GlyphMetadata) :
    Except PyErr (Bool × String) :=
  match m.creator with
  | none => .ok (false, "no creator field")
  | some creator =>
    if creator.sig = "" then .ok (false, "creator.sig is empty")
    else if creator.pubkey = "" then .ok (false, "creator.pubkey is empty")
    else
      match fromHex creator.sig with
      | none => .ok (false, "creator.sig is not valid hex")
      | some sigDer => checkCreator curve lib m creator sigDer

end Pyrxd.Glyph
