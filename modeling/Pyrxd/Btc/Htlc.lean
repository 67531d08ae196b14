import Pyrxd.Btc.Locator
import Pyrxd.Btc.Timelock
import Pyrxd.Lib.ScriptNum
import Pyrxd.Lib.Sha256
import Pyrxd.Lib.TxWire

/-!
# Building and spending the Taproot HTLC

The writing half of `btc_wallet/taproot.py`: the two leaf scripts, the tap tree
and its control blocks, `build_htlc`, the BIP341 signature hash, and the claim
and refund transactions. The reading half is in `RawTx`; that the two fit
together is proved in `HtlcSpend`.

The elliptic-curve calls go to `coincurve`, which is a parameter here.
-/

namespace Pyrxd.Btc

open Pyrxd.Lib

/-- The two calls into `coincurve`. -/
structure Coincurve where
  /-- `PublicKey(point).add(tweak).format(compressed=True)`. -/
  addTweak : Bytes → Bytes → Except PyErr Bytes
  /-- `PrivateKey(sk).sign_schnorr(msg, aux)`. -/
  signSchnorr : Bytes → Bytes → Bytes → Except PyErr Bytes

/-- What BIP340 and BIP341 say of them: a compressed point is a parity byte and
32 bytes of abscissa, a signature has 64 bytes, and there is a key that
signs. -/
structure Coincurve.Bip340 (ec : Coincurve) : Prop where
  point : ∀ point tweak q, ec.addTweak point tweak = .ok q →
    ∃ x : Bytes, x.length = 32 ∧ (q = 0x02 :: x ∨ q = 0x03 :: x)
  signature : ∀ sk msg aux sig, ec.signSchnorr sk msg aux = .ok sig →
    sig.length = 64
  signs : ∃ sk : Bytes, sk.length = 32 ∧ ∀ msg aux : Bytes, msg.length = 32 →
    aux.length = 32 →
    ∃ sig, ec.signSchnorr sk msg aux = .ok sig

/-! ## Encoders -/

/-- `struct.pack` with a little-endian integer code: `k` bytes for the numbers
from `lo` up to, and without, `hi`. -/
def structPack (lo hi : Int) (k : Nat) (x : Int) : Except PyErr Bytes :=
  if lo ≤ x ∧ x < hi then .ok (leBytes k (x % 256 ^ k).toNat)
  else .error (.other "argument out of range")

/-- The codes `<i`, `<I` and `<q`. -/
def packI32 : Int → Except PyErr Bytes := structPack (-2 ^ 31) (2 ^ 31) 4
def packU32 : Int → Except PyErr Bytes := structPack 0 (2 ^ 32) 4
def packI64 : Int → Except PyErr Bytes := structPack (-2 ^ 63) (2 ^ 63) 8

/-- `bytes([n])`. -/
def byteOf (n : Int) : Except PyErr Bytes :=
  if 0 ≤ n ∧ n < 256 then .ok [UInt8.ofNat n.toNat]
  else .error (.other "bytes must be in range(0, 256)")

/-- `_compact_size`, of a length. -/
def compactSize (n : Nat) : Except PyErr Bytes :=
  if n < 256 ^ 8 then .ok (compactBytes n)
    else .error (.other "int too big to convert")

/-- A string behind its `_compact_size`. -/
def sized (b : Bytes) : Except PyErr Bytes := do
  let size ← compactSize b.length
  return size ++ b

/-- `_push_data`. -/
def pushData (data : Bytes) : Except PyErr Bytes :=
  let n := data.length
  if n = 0 then .ok [0x00]
  else if n ≤ 75 then .ok (UInt8.ofNat n :: data)
  else if n ≤ 255 then .ok (0x4C :: UInt8.ofNat n :: data)
  else invalid ("_push_data: length " ++ toString n ++
    " not supported by HTLC scripts")

/-- `_push_minimal_int`. -/
def pushMinimalInt (value : Int) : Except PyErr Bytes :=
  if value < 0 then invalid "timeout operand must be non-negative"
  else if value = 0 then .ok [0x00]
  else if 1 ≤ value ∧ value ≤ 16 then .ok [UInt8.ofNat (0x50 + value.toNat)]
  else
    let out := magBytes value.toNat
    -- a set high bit would read as the sign
    pushData (if 0x80 ≤ out.getLastD 0 then out ++ [0x00] else out)

/-- `tag.encode("ascii")`. -/
def asciiBytes (s : String) : Bytes := s.toList.map fun c => UInt8.ofNat c.toNat

/-- `tagged_hash`. -/
def taggedHash (tag : String) (msg : Bytes) : Bytes :=
  let tagHash := sha256 (asciiBytes tag)
  sha256 (tagHash ++ tagHash ++ msg)

/-! ## Leaves and tree -/

/-- `Timelock.csv_script_operand`. -/
def Timelock.csvScriptOperand (t : Timelock) : Nat := t.toNsequence

/-- `claim_leaf_script`. -/
def claimLeafScript (hashlock claimPubkeyXonly : Bytes) :
    Except PyErr Bytes := do
  asBytes hashlock "hashlock" 32
  asBytes claimPubkeyXonly "claim_pubkey_xonly" 32
  let size ← pushMinimalInt 32
  let h ← pushData hashlock
  let pk ← pushData claimPubkeyXonly
  -- SIZE <0x20> EQUALVERIFY SHA256 <H> EQUALVERIFY <claimPk> CHECKSIG
  return [0x82] ++ size ++ [0x88] ++ [0xA8] ++ h ++ [0x88] ++ pk ++ [0xAC]

/-- `refund_leaf_script`. -/
def refundLeafScript (refundPubkeyXonly : Bytes) (timeout : Timelock) :
    Except PyErr Bytes := do
  asBytes refundPubkeyXonly "refund_pubkey_xonly" 32
  let operand ← pushMinimalInt timeout.csvScriptOperand
  let pk ← pushData refundPubkeyXonly
  -- <timeout> CSV DROP <refundPk> CHECKSIG
  return operand ++ [0xB2] ++ [0x75] ++ pk ++ [0xAC]

/-- `tapleaf_hash`. -/
def tapleafHash (script : Bytes) (leafVersion : Int) : Except PyErr Bytes := do
  let version ← byteOf leafVersion
  let s ← sized script
  return taggedHash "TapLeaf" (version ++ s)

/-- `tapbranch_hash`. -/
def tapbranchHash (a b : Bytes) : Except PyErr Bytes := do
  asBytes a "branch-left" 32
  asBytes b "branch-right" 32
  return taggedHash "TapBranch" (if a ≤ b then a ++ b else b ++ a)

inductive Leaf where
  | claim
  | refund
deriving DecidableEq, Repr

namespace ScriptTree

def claimLeafHash (t : ScriptTree) : Except PyErr Bytes :=
  tapleafHash t.claimScript t.leafVersion

def refundLeafHash (t : ScriptTree) : Except PyErr Bytes :=
  tapleafHash t.refundScript t.leafVersion

def merkleRoot (t : ScriptTree) : Except PyErr Bytes := do
  let claim ← t.claimLeafHash
  let refund ← t.refundLeafHash
  tapbranchHash claim refund

def siblingFor (t : ScriptTree) : Leaf → Except PyErr Bytes
  | .claim => t.refundLeafHash
  | .refund => t.claimLeafHash

def scriptFor (t : ScriptTree) : Leaf → Bytes
  | .claim => t.claimScript
  | .refund => t.refundScript

end ScriptTree

/-- `_taproot_tweak_point`: the output key and its parity. -/
def taprootTweakPoint (ec : Coincurve) (internalKeyXonly merkleRoot : Bytes) :
    Except PyErr (Bytes × Int) := do
  asBytes internalKeyXonly "internal_key_xonly" 32
  asBytes merkleRoot "merkle_root" 32
  let tweak := taggedHash "TapTweak" (internalKeyXonly ++ merkleRoot)
  match ← ec.addTweak (0x02 :: internalKeyXonly) tweak with
  | [] => .error (.other "index out of range")
  | first :: x => return (x, first.toNat - 0x02)

/-- `taproot_output_key`. -/
def taprootOutputKey (ec : Coincurve) (internalKeyXonly merkleRoot : Bytes) :
    Except PyErr Bytes := do
  let (out, _) ← taprootTweakPoint ec internalKeyXonly merkleRoot
  return out

/-- `control_block`, for the default leaf version. -/
def controlBlock (ec : Coincurve)
    (internalKeyXonly merkleRoot siblingHash : Bytes) :
    Except PyErr Bytes := do
  asBytes internalKeyXonly "internal_key_xonly" 32
  asBytes siblingHash "sibling_hash" 32
  let (_, parity) ← taprootTweakPoint ec internalKeyXonly merkleRoot
  let first := (leafVersionTapscript.toNat &&& 0xFE) ||| (parity % 2).toNat
  let cb := UInt8.ofNat first :: (internalKeyXonly ++ siblingHash)
  refuseIf (cb.length ≠ 65)
    ("control block must be 65 bytes for a 2-leaf tree, got " ++
      toString cb.length)
  return cb

/-! ## HTLC -/

/-- The P2TR script of an internal key and a tree. -/
def p2trScript (ec : Coincurve) (internalKey : Bytes) (tree : ScriptTree) :
    Except PyErr Bytes := do
  let root ← tree.merkleRoot
  let key ← taprootOutputKey ec internalKey root
  return [0x51, 0x20] ++ key

/-- `BtcHtlcLocator.scriptpubkey`. -/
def BtcHtlcLocator.scriptpubkey (ec : Coincurve) (l : BtcHtlcLocator) :
    Except PyErr Bytes :=
  p2trScript ec l.internalKey l.scriptTree

/-- The control block kept for a leaf. -/
def BtcHtlcLocator.controlFor (l : BtcHtlcLocator) : Leaf → Bytes
  | .claim => l.controlBlockClaim
  | .refund => l.controlBlockRefund

structure BtcHtlc where
  scriptTree : ScriptTree
  internalKey : Bytes
  controlBlockClaim : Bytes
  controlBlockRefund : Bytes
  network : String

/-- `BtcHtlc.with_funding`. -/
def BtcHtlc.withFunding (h : BtcHtlc) (outpoint : BtcOutpoint)
    (amountSats : Int) :
    Except PyErr BtcHtlcLocator :=
  BtcHtlcLocator.new ⟨outpoint, h.scriptTree, h.controlBlockClaim,
    h.controlBlockRefund,
    h.internalKey, amountSats, h.network⟩

/-- `NUMS_INTERNAL_KEY_XONLY`, the default internal key. -/
def numsInternalKeyXonly : Bytes :=
  [0x50, 0x92, 0x9b, 0x74, 0xc1, 0xa0, 0x49, 0x54, 0xb7, 0x8b, 0x4b, 0x60, 0x35,
    0xe9, 0x7a, 0x5e,
   0x07, 0x8a, 0x5a, 0x0f, 0x28, 0xec, 0x96, 0xd5, 0x47, 0xbf, 0xee, 0x9a, 0xce,
     0x80, 0x3a, 0xc0]

/-- `build_htlc`. -/
def buildHtlc (ec : Coincurve)
    (hashlock claimPubkeyXonly refundPubkeyXonly : Bytes)
    (timeout : Timelock) (internalKeyXonly : Bytes) (network : String) :
    Except PyErr BtcHtlc := do
  asBytes hashlock "hashlock" 32
  asBytes internalKeyXonly "internal_key_xonly" 32
  let claimScript ← claimLeafScript hashlock claimPubkeyXonly
  let refundScript ← refundLeafScript refundPubkeyXonly timeout
  let tree ← ScriptTree.new ⟨claimScript, refundScript, leafVersionTapscript⟩
  let mr ← tree.merkleRoot
  let cbClaim ← controlBlock ec internalKeyXonly mr (← tree.siblingFor .claim)
  let cbRefund ← controlBlock ec internalKeyXonly mr (← tree.siblingFor .refund)
  return ⟨tree, internalKeyXonly, cbClaim, cbRefund, network⟩

/-! ## Signature hash -/

def sighashDefault : Nat := 0x00
def sighashAll : Nat := 0x01
def sighashNone : Nat := 0x02
def sighashSingle : Nat := 0x03
def sighashAnyonecanpay : Nat := 0x80

/-- `b"".join(...)` over fallible pieces. -/
def joinPieces {α : Type} (f : α → Except PyErr Bytes) (l : List α) :
    Except PyErr Bytes := do
  let pieces ← l.mapM f
  return pieces.flatten

/-- An output as it is signed and sent. -/
def packOutput (o : Int × Bytes) : Except PyErr Bytes := do
  let amount ← packI64 o.1
  let script ← sized o.2
  return amount ++ script

/-- `list[i]`. -/
def item {α : Type} (l : List α) (i : Nat) : Except PyErr α :=
  match l[i]? with
  | some a => .ok a
  | none => .error (.other "list index out of range")

/-- What a signature without `ANYONECANPAY` says of all inputs. -/
def sighashAllInputs (inputs : List (Bytes × Int))
    (spentOutputs : List (Int × Bytes)) :
    Except PyErr Bytes := do
  let prevouts := inputs.flatMap (·.1)
  let amounts ← joinPieces (fun o => packI64 o.1) spentOutputs
  let scriptpubkeys ← joinPieces (fun o => sized o.2) spentOutputs
  let sequences ← joinPieces (fun i => packU32 i.2) inputs
  return sha256 prevouts ++ sha256 amounts ++ sha256 scriptpubkeys ++
    sha256 sequences

/-- What an `ANYONECANPAY` signature says of its own input. -/
def sighashOneInput (inputs : List (Bytes × Int))
    (spentOutputs : List (Int × Bytes))
    (inputIndex : Nat) : Except PyErr Bytes := do
  let (prevout, seq) ← item inputs inputIndex
  let spent ← item spentOutputs inputIndex
  let output ← packOutput spent
  let sequence ← packU32 seq
  return prevout ++ output ++ sequence

/-- The annex and the tap leaf, when there are any. -/
def sighashAnnex : Option Bytes → Except PyErr Bytes
  | none => .ok []
  | some annex => do
    let a ← sized annex
    return sha256 a

def sighashTapleaf : Option Bytes → Except PyErr Bytes
  | none => .ok []
  | some leaf => do
    asBytes leaf "tapleaf_hash" 32
    return leaf ++ [0x00] ++ [0xFF, 0xFF, 0xFF, 0xFF]

/-- The output a `SIGHASH_SINGLE` signature commits to. -/
def sighashSingleOutput (outputs : List (Int × Bytes)) (inputIndex : Nat) :
    Except PyErr Bytes := do
  refuseIf (inputIndex ≥ outputs.length) "SIGHASH_SINGLE: no matching output"
  let o ← item outputs inputIndex
  let output ← packOutput o
  return sha256 output

/-- `taproot_sighash`. -/
def taprootSighash (txVersion locktime : Int) (inputs : List (Bytes × Int))
    (inputIndex : Nat)
    (spentOutputs outputs : List (Int × Bytes)) (hashType : Nat)
    (tapleafHashValue annex : Option Bytes) : Except PyErr Bytes := do
  refuseIf (inputIndex ≥ inputs.length) "input_index out of range"
  refuseIf (spentOutputs.length ≠ inputs.length)
    "spent_outputs length must equal inputs length"
  let outputType := hashType &&& 0x03
  let anyonecanpay := hashType &&& sighashAnyonecanpay ≠ 0
  -- all inputs are packed, whatever is signed
  let allInputs ← sighashAllInputs inputs spentOutputs
  let hashTypeB ← byteOf hashType
  let version ← packI32 txVersion
  let lock ← packU32 locktime
  let allOutputs ←
    if outputType = sighashDefault ∨ outputType = sighashAll then do
      let outs ← joinPieces packOutput outputs
      pure (sha256 outs)
    else pure []
  let spendType := (if annex.isSome then 1
    else 0) ||| (if tapleafHashValue.isSome then 2 else 0)
  let thisInput ←
    if anyonecanpay then sighashOneInput inputs spentOutputs inputIndex
      else packU32 inputIndex
  let annexB ← sighashAnnex annex
  let single ← if outputType =
    sighashSingle then sighashSingleOutput outputs inputIndex else pure []
  let leaf ← sighashTapleaf tapleafHashValue
  return taggedHash "TapSighash" ([0x00] ++ hashTypeB ++ version ++ lock ++
    (if anyonecanpay then [] else allInputs) ++ allOutputs ++
      [UInt8.ofNat spendType] ++ thisInput ++
    annexB ++ single ++ leaf)

/-- `sign_schnorr`. -/
def signSchnorr (ec : Coincurve) (privkeyBytes msg32 auxRand : Bytes) :
    Except PyErr Bytes := do
  asBytes privkeyBytes "privkey_bytes" 32
  asBytes msg32 "msg32" 32
  asBytes auxRand "aux_rand" 32
  ec.signSchnorr privkeyBytes msg32 auxRand

/-! ## Spends -/

/-- `_serialize_witness`. -/
def serializeWitness (items : List Bytes) : Except PyErr Bytes := do
  let count ← compactSize items.length
  let body ← joinPieces sized items
  return count ++ body

/-- `_build_spend_tx`, for the default hash type. -/
def buildSpendTx (ec : Coincurve) (locator : BtcHtlcLocator)
    (witnessItemsAfterSig : List Bytes)
    (signPrivkey : Bytes) (leaf : Leaf) (toScriptpubkey : Bytes)
    (outAmountSats : Int)
    (nsequence locktime : Int) (auxRand : Bytes) : Except PyErr Bytes := do
  let txVersion : Int := 2
  let prevout ← locator.fundingOutpoint.prevoutBytes
  let scriptpubkey ← locator.scriptpubkey ec
  let leafScript := locator.scriptTree.scriptFor leaf
  let leafHash ← tapleafHash leafScript locator.scriptTree.leafVersion
  let sighash ← taprootSighash txVersion locktime [(prevout, nsequence)] 0
    [(locator.amountSats, scriptpubkey)] [(outAmountSats,
      toScriptpubkey)] sighashDefault
    (some leafHash) none
  let sig ← signSchnorr ec signPrivkey sighash auxRand
  let control := locator.controlFor leaf
  let witness := sig :: witnessItemsAfterSig ++ [leafScript, control]
  let versionB ← packI32 txVersion
  let locktimeB ← packU32 locktime
  let sequenceB ← packU32 nsequence
  let inputB := prevout ++ [0x00] ++ sequenceB
  let outB ← packOutput (outAmountSats, toScriptpubkey)
  let witnessSection ← serializeWitness witness
  return versionB ++ [0x00, 0x01] ++ ([0x01] ++ inputB) ++ ([0x01] ++ outB) ++
    witnessSection ++
    locktimeB

/-- `build_claim_tx`. -/
def buildClaimTx (ec : Coincurve) (locator : BtcHtlcLocator)
    (preimage claimPrivkey toScriptpubkey : Bytes)
    (feeSats : Int) (auxRand : Bytes) : Except PyErr Bytes := do
  asBytes preimage "preimage" 32
  refuseIf (¬ sha256 preimage <:+: locator.scriptTree.claimScript)
    "preimage does not match the claim leaf hashlock"
  let outAmount := locator.amountSats - feeSats
  refuseIf (outAmount ≤ 0) "fee >= amount; output would be non-positive"
  buildSpendTx ec locator [preimage] claimPrivkey .claim toScriptpubkey
    outAmount 0xFFFFFFFD 0 auxRand

/-- `build_refund_tx`. -/
def buildRefundTx (ec : Coincurve) (locator : BtcHtlcLocator)
    (refundPrivkey : Bytes)
    (timeout : Timelock) (toScriptpubkey : Bytes) (feeSats : Int)
    (auxRand : Bytes) :
    Except PyErr Bytes := do
  let outAmount := locator.amountSats - feeSats
  refuseIf (outAmount ≤ 0) "fee >= amount; output would be non-positive"
  buildSpendTx ec locator [] refundPrivkey .refund toScriptpubkey outAmount
    timeout.toNsequence 0 auxRand

end Pyrxd.Btc
