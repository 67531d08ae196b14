import Mathlib.Data.Finset.Dedup
import Mathlib.Data.Finset.Insert
import Pyrxd.Glyph.RefWalkers
import Pyrxd.Lib.ScriptCode
import Pyrxd.Lib.ScriptNum
import Pyrxd.Lib.Template
import Pyrxd.Tx.Transaction

/-!
# The HTLC covenant builders

`gravity/htlc_covenant.py`: the scriptPubKey of the covenant the maker locks the
asset into, for native RXD, an NFT and an FT. Each builder fills a compiled
template kept as hex text (`gravity/artifacts/`) and then walks the result with
three guards. The holder scripts and `FT_EPILOGUE` are in
`Pyrxd.Glyph.Credential`, the first guard's walk in `Pyrxd.Glyph.RefWalkers`.
-/

namespace Pyrxd.Gravity

open Pyrxd.Lib Pyrxd.Glyph Pyrxd.Tx

structure HtlcCovenant where
  variant : AssetVariant
  fundedSpk : Bytes
  prologueLen : Nat
  takerHolderScript : Bytes
  makerHolderScript : Bytes
  expectedTakerHash : Bytes
  expectedMakerHash : Bytes
  genesisRef : Bytes
  hashlock : Bytes
  refundCsv : Int
deriving DecidableEq

namespace Htlc

/-! ## Encoders -/

/-- `_push`; an empty one is `OP_0`. -/
def push (b : Bytes) : Except PyErr Bytes :=
  if b.length ≤ 0xFFFF then .ok (pushBytes b)
    else invalid "push data exceeds 64 KB limit"

/-- `_minimal_num_push`. -/
def minimalNumPush (n : Int) : Except PyErr Bytes := do
  refuseIf (n < 0) "refund_csv must be a non-negative int"
  if n = 0 then return [0x00]
  else if 1 ≤ n ∧ n ≤ 16 then return [UInt8.ofNat (0x50 + n.toNat)]
  else push (scriptNum n)

/-! ## Guards -/

/-- `repr` of a list of strings that are already written out. -/
def pyList (items : List String) : String :=
  "[" ++ ", ".intercalate items ++ "]"

/-- `_guard_bd`. -/
def guardBd (fundedSpk : Bytes) (expected : List Nat) (variant : AssetVariant) :
    Except PyErr Unit :=
  refuseIf (opcodeBdPositions fundedSpk ≠ expected)
    ("GUARD 1 FAIL (" ++ variant.value ++ "): bare-0xbd opcode positions " ++
      pyList ((opcodeBdPositions fundedSpk).map toString) ++ " != expected " ++
      pyList (expected.map toString) ++
      " (an FT-epilogue leak or a misplaced boundary opcode would break L2 conservation)")

/-- `sorted(r.hex() for r in refs)`, written out. -/
def sortedHex (refs : List Bytes) : String :=
  pyList (((refs.map hex).mergeSort fun a b => a ≤ b).map fun h =>
    "'" ++ h ++ "'")

/-- `_guard_refs`. -/
def guardRefs (fundedSpk : Bytes) (expectedRef : Option Bytes)
    (variant : AssetVariant) :
    Except PyErr Unit := do
  let refs ← inputRefs fundedSpk
  refuseIf (refs.toFinset ≠ expectedRef.toList.toFinset)
    ("GUARD 2 FAIL (" ++ variant.value ++ "): input refs " ++ sortedHex refs ++
      " != expected " ++
      sortedHex expectedRef.toList ++
      " (exactly the genesis ref must bind — no phantom, no missing ref)")

/-- Two lower-case hex digits: `{b:02x}`. -/
def hexByte (b : UInt8) : String := hex [b]

/-- One turn of `_assert_minimal_pushes`: how far it goes. -/
def minimalWidth (variant : AssetVariant) (pos : Nat) (op : UInt8)
    (rest : Bytes) :
    Except PyErr Nat :=
  let fail (what : String) : String :=
    "GUARD 3 FAIL (" ++ variant.value ++ "): " ++ what
  if op ∈ refOps then .ok 37
  else if 0x01 ≤ op ∧ op ≤ 0x4B then do
    refuseIf (rest.length < op.toNat)
      (fail ("truncated direct push at offset " ++ toString pos))
    let b0 := rest.headD 0
    refuseIf (op = 1 ∧ (1 ≤ b0 ∧ b0 ≤ 16 ∨ b0 = 0x81))
      (fail ("non-minimal 1-byte push 0x" ++ hexByte b0 ++ " at offset " ++
        toString pos ++
        " (must be OP_1..OP_16 / OP_1NEGATE) — would brick the covenant (MINIMALDATA)"))
    return 1 + op.toNat
  else if op = 0x4C then do
    refuseIf (rest.length < 1) (fail ("truncated PUSHDATA1 at offset " ++
      toString pos))
    let size := leNat (rest.take 1)
    refuseIf (size ≤ 75) (fail ("PUSHDATA1 of " ++ toString size ++
      " bytes at offset " ++
      toString pos ++
        " (<=75 must be a direct push) — non-minimal (MINIMALDATA)"))
    return 2 + size
  else if op = 0x4D then do
    refuseIf (rest.length < 2) (fail ("truncated PUSHDATA2 at offset " ++
      toString pos))
    let size := leNat (rest.take 2)
    refuseIf (size ≤ 255) (fail ("PUSHDATA2 of " ++ toString size ++
      " bytes at offset " ++
      toString pos ++
        " (<=255 must be OP_PUSHDATA1) — non-minimal (MINIMALDATA)"))
    return 3 + size
  else if op = 0x4E then do
    refuseIf (rest.length < 4) (fail ("truncated PUSHDATA4 at offset " ++
      toString pos))
    let size := leNat (rest.take 4)
    refuseIf (size ≤ 0xFFFF) (fail ("PUSHDATA4 of " ++ toString size ++
      " bytes at offset " ++
      toString pos ++
        " (<=65535 must be OP_PUSHDATA2) — non-minimal (MINIMALDATA)"))
    return 5 + size
  else .ok 1

def minimalWalk (variant : AssetVariant) : Nat → Nat → Bytes → Except PyErr Unit
  | 0, _, _ => .ok ()
  | _, _, [] => .ok ()
  | fuel + 1, pos, op :: rest => do
    let w ← minimalWidth variant pos op rest
    minimalWalk variant fuel (pos + w) ((op :: rest).drop w)

/-- `_assert_minimal_pushes`. -/
def assertMinimalPushes (spk : Bytes) (variant : AssetVariant) :
    Except PyErr Unit :=
  minimalWalk variant spk.length 0 spk

/-! ## Templates -/

/-- `hex` of `GravityHtlcCovenantRxd.artifact.json`. -/
def rxdTemplate : String :=
  "c4519d76009c637c82012088a8<hashlock>8800cc<amount>a26900cdaa<expectedTakerHash>877767519d<refundCsv>b27500cc<amount>a26900cdaa<expectedMakerHash>8768"

/-- `hex` of `GravityHtlcCovenantNft.artifact.json`. -/
def nftTemplate : String :=
  "d8<REF>c4519dde519d00cc<nftCarrierValue>9d76009c637c82012088a8<hashlock>8800cdaa<expectedTakerNftHash>877767519d<refundCsv>b27500cdaa<expectedMakerNftHash>8768"

/-- `hex` of `GravityHtlcCovenantFt.artifact.json`. -/
def ftTemplate : String :=
  "d0<REF>c4519d76de519ddc<amount>9d76009c637c82012088a8<hashlock>8800cdaa<expectedTakerFtHash>877767519d<refundCsv>b27500cdaa<expectedMakerFtHash>8768"

/-- `_substitute`. -/
def substitute (templateHex : String) (subs : List (String × Bytes))
    (variant : AssetVariant) :
    Except PyErr Bytes :=
  let spkHex :=
    replaceEach (subs.map fun sub => (sub.1.toList, sub.2)) templateHex.toList
  if '<' ∈ spkHex then
    invalid ("unfilled covenant placeholder (" ++ variant.value ++ "): " ++
      String.ofList ((spkHex.dropWhile (· ≠ '<')).take 40))
  else match fromHexChars spkHex with
    | some spk => .ok spk
    | none => .error (.other "non-hexadecimal number found in fromhex() arg")

/-! ## Validation -/

/-- `Hex20(...)`. -/
def hex20 (b : Bytes) : Except PyErr Unit :=
  refuseIf (b.length ≠ 20) ("Hex20 must be 20 bytes, got " ++ toString b.length)

/-- `_validate_common`. -/
def validateCommon (hashlock : Bytes) (refundCsv : Int)
    (takerPkh makerPkh : Bytes) :
    Except PyErr Unit := do
  refuseIf (hashlock.length ≠ 32) "hashlock must be 32 bytes (H = SHA256(p))"
  refuseIf (refundCsv <
    1) "refund_csv must be a positive int (a 0 CSV is a no-op timelock)"
  refuseIf (refundCsv > 0xFFFF)
    "refund_csv must fit in 16 bits (BIP68 block count <= 0xFFFF)"
  hex20 takerPkh
  hex20 makerPkh

/-- `_ref_wire`; the dataclass does not look at the txid. -/
def refWire (genesisTxid : String) (genesisVout : Int) :
    Except PyErr Bytes := do
  refuseIf (genesisVout < 0 ∨ genesisVout > 0xFFFFFFFF) "vout must be 0..2^32-1"
  let txid ← txidBytes (some genesisTxid)
  let vout ← toBytesLe 4 genesisVout
  return txid ++ vout

end Htlc

/-! ## Builders -/

open Htlc

/-- `build_htlc_covenant_ft`. -/
def buildHtlcCovenantFt (genesisTxid : String) (genesisVout amount : Int)
    (takerPkh makerPkh hashlock : Bytes) (refundCsv : Int) :
    Except PyErr HtlcCovenant := do
  validateCommon hashlock refundCsv takerPkh makerPkh
  refuseIf (amount ≤ 0) "FT amount must be a positive int"
  let ref ← refWire genesisTxid genesisVout
  let takerHolder := ftHolderScript takerPkh ref
  let makerHolder := ftHolderScript makerPkh ref
  let prologue ← substitute ftTemplate [
    ("REF", ref),
    ("hashlock", ← push hashlock),
    ("refundCsv", ← minimalNumPush refundCsv),
    ("amount", ← minimalNumPush amount),
    ("expectedTakerFtHash", ← push (hash256 takerHolder)),
    ("expectedMakerFtHash", ← push (hash256 makerHolder))] .ft
  let funded := prologue ++ [0xBD, 0xD0] ++ ref ++ ftEpilogue
  guardBd funded [prologue.length] .ft
  guardRefs funded (some ref) .ft
  assertMinimalPushes funded .ft
  return {
    variant := .ft, fundedSpk := funded, prologueLen := prologue.length,
    takerHolderScript := takerHolder, makerHolderScript := makerHolder,
    expectedTakerHash := hash256 takerHolder, expectedMakerHash :=
      hash256 makerHolder,
    genesisRef := ref, hashlock, refundCsv }

/-- `build_htlc_covenant_nft`. -/
def buildHtlcCovenantNft (genesisTxid : String)
    (genesisVout nftCarrierValue : Int)
    (takerPkh makerPkh hashlock : Bytes) (refundCsv : Int) :
    Except PyErr HtlcCovenant := do
  validateCommon hashlock refundCsv takerPkh makerPkh
  refuseIf (nftCarrierValue ≤ 0) "nft_carrier_value must be a positive int"
  let ref ← refWire genesisTxid genesisVout
  let takerHolder := nftHolderScript takerPkh ref
  let makerHolder := nftHolderScript makerPkh ref
  let funded ← substitute nftTemplate [
    ("REF", ref),
    ("hashlock", ← push hashlock),
    ("refundCsv", ← minimalNumPush refundCsv),
    ("nftCarrierValue", ← minimalNumPush nftCarrierValue),
    ("expectedTakerNftHash", ← push (hash256 takerHolder)),
    ("expectedMakerNftHash", ← push (hash256 makerHolder))] .nft
  guardBd funded [] .nft
  guardRefs funded (some ref) .nft
  assertMinimalPushes funded .nft
  return {
    variant := .nft, fundedSpk := funded, prologueLen := funded.length,
    takerHolderScript := takerHolder, makerHolderScript := makerHolder,
    expectedTakerHash := hash256 takerHolder, expectedMakerHash :=
      hash256 makerHolder,
    genesisRef := ref, hashlock, refundCsv }

/-- `build_htlc_covenant_rxd`. -/
def buildHtlcCovenantRxd (amount : Int) (takerPkh makerPkh hashlock : Bytes)
    (refundCsv : Int) :
    Except PyErr HtlcCovenant := do
  validateCommon hashlock refundCsv takerPkh makerPkh
  refuseIf (amount ≤ 0) "RXD amount must be a positive int"
  let takerHolder := rxdHolderScript takerPkh
  let makerHolder := rxdHolderScript makerPkh
  let funded ← substitute rxdTemplate [
    ("hashlock", ← push hashlock),
    ("refundCsv", ← minimalNumPush refundCsv),
    ("amount", ← minimalNumPush amount),
    ("expectedTakerHash", ← push (hash256 takerHolder)),
    ("expectedMakerHash", ← push (hash256 makerHolder))] .rxd
  guardBd funded [] .rxd
  guardRefs funded none .rxd
  assertMinimalPushes funded .rxd
  return {
    variant := .rxd, fundedSpk := funded, prologueLen := funded.length,
    takerHolderScript := takerHolder, makerHolderScript := makerHolder,
    expectedTakerHash := hash256 takerHolder, expectedMakerHash :=
      hash256 makerHolder,
    genesisRef := [], hashlock, refundCsv }

/-- The arguments of one of the three builders. -/
inductive CovenantAsset where
  | ft (genesisTxid : String) (genesisVout : Int)
  | nft (genesisTxid : String) (genesisVout : Int)
  | rxd

structure CovenantParams where
  asset : CovenantAsset
  /-- `amount`, or `nft_carrier_value`. -/
  amount : Int
  takerPkh : Bytes
  makerPkh : Bytes
  hashlock : Bytes
  refundCsv : Int

def CovenantParams.build (p : CovenantParams) : Except PyErr HtlcCovenant :=
  match p.asset with
  | .ft txid vout =>
    buildHtlcCovenantFt txid vout p.amount p.takerPkh p.makerPkh
      p.hashlock p.refundCsv
  | .nft txid vout =>
    buildHtlcCovenantNft txid vout p.amount p.takerPkh p.makerPkh
      p.hashlock p.refundCsv
  | .rxd =>
    buildHtlcCovenantRxd p.amount p.takerPkh p.makerPkh p.hashlock p.refundCsv

end Pyrxd.Gravity
