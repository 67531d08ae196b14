import Pyrxd.Spv.Merkle

/-!
# SPV proofs

`spv/proof.py` and `spv/payment.py`: the parameters a covenant commits to, the
walks over a witness-stripped transaction, the check of one payment output, and
`SpvProofBuilder.build`, which runs every verifier before it returns.
-/

namespace Pyrxd.Spv

open Pyrxd.Lib

/-! ## Payment outputs -/

/-- `P2PKH`, `P2WPKH`, `P2SH`, `P2TR`. -/
inductive ReceiveType where
  | p2pkh
  | p2wpkh
  | p2sh
  | p2tr
deriving DecidableEq

namespace ReceiveType

def name : ReceiveType → String
  | p2pkh => "p2pkh"
  | p2wpkh => "p2wpkh"
  | p2sh => "p2sh"
  | p2tr => "p2tr"

/-- `_OUTPUT_SCRIPT_LENGTHS`. -/
def scriptLength : ReceiveType → Nat
  | p2pkh => 25
  | p2wpkh => 22
  | p2sh => 23
  | p2tr => 34

/-- `_SCRIPT_PATTERNS`: what stands before and behind the hash. -/
def before : ReceiveType → Bytes
  | p2pkh => [0x76, 0xA9, 0x14]
  | p2wpkh => [0x00, 0x14]
  | p2sh => [0xA9, 0x14]
  | p2tr => [0x51, 0x20]

def behind : ReceiveType → Bytes
  | p2pkh => [0x88, 0xAC]
  | p2wpkh => []
  | p2sh => [0x87]
  | p2tr => []

def hashLength : ReceiveType → Nat
  | p2tr => 32
  | _ => 20

/-- The standard script paying `hash`. -/
def script (t : ReceiveType) (hash : Bytes) : Bytes :=
  t.before ++ hash ++ t.behind

end ReceiveType

/-- `verify_payment`. -/
def verifyPayment (rawTx : Bytes) (outputOffset : Int) (expectedHash : Bytes)
    (type : ReceiveType)
    (minSatoshis : Int) : Except PyErr Unit := do
  refuseIf (outputOffset < 0) "output_offset must be non-negative"
  let offset := outputOffset.toNat
  rejectIf (offset + (8 + 1 + type.scriptLength) > rawTx.length)
    ("output at offset " ++ toString offset ++ " truncated: need " ++
      toString (8 + 1 + type.scriptLength) ++
      " bytes, only " ++ toString ((rawTx.length : Int) - offset) ++
        " available")
  let value := leNat (slice rawTx offset (offset + 8))
  rejectIf (value ≥ 2 ^ 63)
    ("output value " ++ toString value ++
      " has bit 63 set (>= 2**63); decodes negative as a signed " ++
      "CScriptNum in the covenant and exceeds any valid Bitcoin amount")
  rejectIf (value = 0) "output value is 0"
  rejectIf ((value : Int) < minSatoshis)
    ("output value " ++ toString value ++ " sats < required " ++
      toString minSatoshis ++ " sats")
  let scriptLenByte := rawTx.getD (offset + 8) 0
  rejectIf (scriptLenByte.toNat ≠ type.scriptLength)
    ("script length " ++ toString scriptLenByte ++
      " does not match expected " ++
      toString type.scriptLength ++ " for " ++ type.name)
  let script := slice rawTx (offset + 9) (offset + 9 + type.scriptLength)
  rejectIf (script.length ≠ type.scriptLength) "script truncated"
  rejectIf (script.headD 0 = 0x6A) "OP_RETURN output cannot be used as payment"
  refuseIf (expectedHash.length ≠ type.hashLength)
    (if type = .p2tr then "P2TR expected_hash must be 32 bytes"
      else type.name ++ " expected_hash must be 20 bytes")
  rejectIf (script.take type.before.length ≠ type.before)
    ("script prefix mismatch for " ++ type.name)
  rejectIf (slice script type.before.length (type.before.length +
    type.hashLength) ≠ expectedHash)
    "payment hash mismatch"
  rejectIf (type.behind ≠ [] ∧
    script.drop (type.before.length + type.hashLength) ≠ type.behind)
    ("script suffix mismatch for " ++ type.name)

/-! ## Walks over a stripped transaction -/

/-- `_read_varint` of `proof.py`. -/
def readVarintTx : Bytes → Nat → Except PyErr (Nat × Nat) :=
  readVarint .other "varint read past end of tx"

/-- One turn of the loop over the inputs: the length of the scriptSig, and the
position behind. -/
def walkInput (tx : Bytes) (pos : Nat) : Except PyErr (Nat × Nat) := do
  let (scriptLen, pos) ← readVarintTx tx (pos + 36)
  rejectIf (pos + (scriptLen + 4) > tx.length) "input parse ran past end of tx"
  return (scriptLen, pos + (scriptLen + 4))

/-- One turn of the loop over the outputs. -/
def walkOutput (tx : Bytes) (pos : Nat) : Except PyErr Nat := do
  let (scriptLen, pos) ← readVarintTx tx (pos + 8)
  rejectIf (pos + scriptLen > tx.length) "output parse ran past end of tx"
  return pos + scriptLen

def walkOutputs (tx : Bytes) : Nat → Nat → Except PyErr (List Nat × Nat)
  | 0, pos => .ok ([], pos)
  | count + 1, pos => do
    let next ← walkOutput tx pos
    let (offsets, last) ← walkOutputs tx count next
    return (pos :: offsets, last)

/-- `_output_offsets`. -/
def outputOffsets (tx : Bytes) : Except PyErr (List Nat) := do
  let (nIn, pos) ← readVarintTx tx 4
  let pos ← stepTimes (fun pos => (walkInput tx pos).map Prod.snd) nIn pos
  let (nOut, pos) ← readVarintTx tx pos
  let (offsets, pos) ← walkOutputs tx nOut pos
  rejectIf ((pos : Int) ≠ (tx.length : Int) - 4)
    ("tx structure parse ended at " ++ toString pos ++ ", expected " ++
      toString ((tx.length : Int) - 4) ++
      " (len-4)")
  return offsets

/-- The outpoint a coinbase spends. -/
def nullOutpoint : Bytes := List.replicate 32 0x00 ++ List.replicate 4 0xFF

/-- `_first_input_is_null_outpoint`. -/
def firstInputIsNullOutpoint (tx : Bytes) : Bool :=
  match readVarintTx tx 4 with
  | .error _ => false
  | .ok (_, p) =>
    if p + 36 > tx.length then false
    else slice tx p (p + 32) == List.replicate 32 0x00 &&
      slice tx (p + 32) (p + 36) == List.replicate 4 0xFF

/-- The loop of `_max_input_scriptsig_len`. -/
def longestInput (tx : Bytes) : Nat → Nat → Nat → Except PyErr Nat
  | 0, _, longest => .ok longest
  | count + 1, pos, longest => do
    let (scriptLen, pos) ← walkInput tx pos
    longestInput tx count pos (max longest scriptLen)

/-- `_max_input_scriptsig_len`. -/
def maxInputScriptsigLen (tx : Bytes) : Except PyErr Nat := do
  let (nIn, pos) ← readVarintTx tx 4
  longestInput tx nIn pos 0

/-! ## The covenant's parameters -/

structure CovenantFields where
  btcReceiveHash : Bytes
  btcReceiveType : ReceiveType
  btcSatoshis : Int
  chainAnchor : Bytes
  anchorHeight : Int
  merkleDepth : Nat
  expectedNbits : Option Bytes := none
  expectedNbitsNext : Option Bytes := none

/-- One optional `nBits` pin. -/
def checkPin (label : String) : Option Bytes → Except PyErr Unit
  | none => .ok ()
  | some nb => do
    refuseIf (nb.length ≠ 4) (label ++ " must be 4 bytes (wire nBits)")
    checkNbits nb

/-- `CovenantParams.__post_init__`. -/
def CovenantFields.postInit (f : CovenantFields) : Except PyErr Unit := do
  refuseIf (f.btcSatoshis ≤ 0) "btc_satoshis must be > 0"
  refuseIf (f.chainAnchor.length ≠ 32) "chain_anchor must be 32 bytes"
  refuseIf (f.anchorHeight < 0) "anchor_height must be >= 0"
  refuseIf (f.merkleDepth < 1 ∨ f.merkleDepth > 32) "merkle_depth must be 1..32"
  refuseIf (f.btcReceiveHash.length ≠ f.btcReceiveType.hashLength)
    (f.btcReceiveType.name ++ " receive_hash must be " ++
      toString f.btcReceiveType.hashLength ++ " bytes")
  checkPin "expected_nbits" f.expectedNbits
  checkPin "expected_nbits_next" f.expectedNbitsNext
  refuseIf (f.expectedNbitsNext.isSome ∧
    f.expectedNbits.isNone) "expected_nbits_next set without expected_nbits"

/-- `CovenantParams`: fields that its `__post_init__` accepted. -/
structure CovenantParams extends CovenantFields where
  valid : toCovenantFields.postInit = .ok ()

/-! ## Building a proof -/

structure SpvProof where
  txid : String
  rawTx : Bytes
  headers : List Bytes
  branch : Bytes
  pos : Int
  outputOffset : Int
  covenantParams : CovenantParams

/-- `_COVENANT_MAX_INPUT_SCRIPTSIG_LEN`. -/
def covenantMaxInputScriptsigLen : Nat := 127

/-- The first header with this Merkle root. -/
def findHeader (root : Bytes) : List Bytes → Except PyErr Bytes
  | [] => unverified "tx Merkle root does not match any provided header"
  | header :: headers => do
    let expected ← extractMerkleRoot header
    if root = expected then return header else findHeader root headers

/-- The header whose Merkle root the branch has to reach. -/
def matchingHeader (params : CovenantParams) (headers : List Bytes)
    (root : Bytes) :
    Option Int → Except PyErr Bytes
  | none => findHeader root headers
  | some height =>
    let index := height - params.anchorHeight - 1
    match (if 0 ≤ index then headers[index.toNat]? else none) with
    | none =>
      unverified ("tx_block_height " ++ toString height ++
        " maps to header index " ++ toString index ++
        ", out of range for the " ++ toString headers.length ++
          " anchored headers (anchor_height " ++
        toString params.anchorHeight ++ ")")
    | some header => do
      let expected ← extractMerkleRoot header
      rejectIf (root ≠ expected)
        ("Merkle root does not match the header at the claimed block height " ++
          toString height ++
          " (merkle proof not bound to the resolved block)")
      return header

/-- `SpvProofBuilder.build`. -/
def build (params : CovenantParams) (txidBe rawTxHex : String)
    (headersHex merkleBe : List String)
    (pos outputOffset : Int) (txBlockHeight : Option Int) :
    Except PyErr SpvProof := do
  rejectIf (pos =
    0) "pos=0 is the coinbase tx - cannot be used as payment proof"
  refuseIf (pos < 0) "pos must be non-negative"
  let rawTx ← unhex rawTxHex
  let stripped ← stripWitness rawTx
  rejectIf (stripped.length ≤
    64) "stripped raw_tx must be > 64 bytes (Merkle forgery defense)"
  let claimed ← unhex txidBe
  rejectIf (hash256 stripped ≠ claimed.reverse)
    "hash256(raw_tx) does not match txid"
  rejectIf (firstInputIsNullOutpoint stripped = true)
    "coinbase tx (null prevout) cannot be used as payment proof"
  -- a structural problem is left to the walk over the outputs
  let longest := (maxInputScriptsigLen stripped).toOption.getD 0
  rejectIf (longest > covenantMaxInputScriptsigLen)
    ("funding tx has an input scriptSig of " ++ toString longest ++
      " bytes; the any-wallet covenant only " ++
      "accepts inputs with scriptSig <= 127 bytes (signed single-byte length read). Pay from a " ++
      "native-segwit (empty scriptSig) or legacy P2PKH input, not P2SH/multisig, or the covenant will " ++
      "reject the proof.")
  let headers ← headersHex.mapM unhex
  let _ ← verifyChain headers (some params.chainAnchor) params.expectedNbits
    params.expectedNbitsNext
  let branch ← buildBranch merkleBe pos
  let root ← computeRoot txidBe branch
  let header ← matchingHeader params headers root txBlockHeight
  verifyTxInBlock stripped txidBe branch pos header (some params.merkleDepth)
  let offsets ← outputOffsets stripped
  rejectIf (∀ o ∈ offsets, (o : Int) ≠ outputOffset)
    ("output_offset " ++ toString outputOffset ++
      " is not a real output boundary")
  verifyPayment stripped outputOffset params.btcReceiveHash
    params.btcReceiveType params.btcSatoshis
  return ⟨txidBe, stripped, headers, branch, pos, outputOffset, params⟩

end Pyrxd.Spv
