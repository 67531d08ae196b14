import Pyrxd.Tx.Preimage
import Pyrxd.Lib.Tally

/-!
# Same-chain swaps by partial transactions

`swap/partial.py` and the value types of `swap/types.py`: a maker signs one
input and one output (`SINGLE|ANYONECANPAY`), and `accept_offer` completes the
transaction with the taker's funding inputs, the taker's own output and change.

The signatures themselves come from a library (`Curve`), and so does the order
in which a set of refs is gone through (`SetOrder`); nothing is assumed of the
first.
-/

namespace Pyrxd.Swap

open Pyrxd.Lib Pyrxd.Tx

/-! ## Assets -/

/-- The characters of `[0-9a-f]`. -/
def isLowerHex (c : Char) : Bool := ('0' ≤ c && c ≤ '9') || ('a' ≤ c && c ≤ 'f')

/-- `_TXID_RE.match`: `^[0-9a-f]{64}$`, whose `$` also stands before a last line
feed. -/
def isTxid (s : String) : Bool :=
  (s.toList.take 64).length == 64 && (s.toList.take 64).all isLowerHex &&
    (s.toList.drop 64 == [] || s.toList.drop 64 == ['\n'])

structure GlyphRef where
  txid : String
  vout : Int
  ofTxid : isTxid txid = true
  ofVout : 0 ≤ vout ∧ vout ≤ 0xFFFFFFFF
deriving DecidableEq

namespace GlyphRef

theorem zero_vout : (0 : Int) ≤ 0 ∧ (0 : Int) ≤ 0xFFFFFFFF := by decide

/-- `GlyphRef(txid=Txid(txid), vout=vout)`. -/
def make (txid : String) (vout : Int) : Except PyErr GlyphRef :=
  if ht : isTxid txid = true then
    if hv : 0 ≤ vout ∧ vout ≤ 0xFFFFFFFF then .ok ⟨txid, vout, ht, hv⟩
    else invalid "vout must be 0..2^32-1"
  else invalid ("Txid must be 64 lowercase hex chars (got length " ++
    toString txid.length ++ ")")

def toBytes (r : GlyphRef) : Except PyErr Bytes := do
  let txid ← txidBytes (some r.txid)
  let vout ← toBytesLe 4 r.vout
  return txid ++ vout

def fromBytes (data : Bytes) : Except PyErr GlyphRef := do
  refuseIf (data.length ≠ 36) ("GlyphRef must be 36 bytes, got " ++
    toString data.length)
  make (hex (data.take 32).reverse) (leNat (data.drop 32))

/-- The dataclass's `repr`. -/
def repr (r : GlyphRef) : String :=
  "GlyphRef(txid='" ++ String.ofList (r.txid.toList.take 64) ++
    (if r.txid.toList.drop 64 = [] then "" else "\\n") ++ "', vout=" ++
      toString r.vout ++ ")"

end GlyphRef

inductive AssetKind where
  | rxd
  | ft
deriving DecidableEq

/-- `Asset`, with what its `__post_init__` checks. -/
structure Asset where
  kind : AssetKind
  amount : Int
  ref : Option GlyphRef
  positive : 0 < amount
  refOfKind : ref.isSome = true ↔ kind = .ft
deriving DecidableEq

namespace Asset

def make (kind : AssetKind) (amount : Int) (ref : Option GlyphRef) :
    Except PyErr Asset :=
  if hpos : 0 < amount then
    if href : ref.isSome = true ↔ kind = .ft then .ok ⟨kind, amount,
      ref, hpos, href⟩
    else
      match kind with
      | .ft => invalid "an FT asset requires a genesis ref"
      | .rxd => invalid "a plain RXD asset must not carry a ref"
  else invalid ("asset amount must be positive, got " ++ toString amount)

def repr (a : Asset) : String :=
  "Asset(kind='" ++ (match a.kind with | .rxd => "rxd" | .ft => "ft") ++
    "', amount=" ++
    toString a.amount ++ ", ref=" ++
      (match a.ref with | none => "None" | some r => r.repr) ++ ")"

end Asset

structure SwapTerms where
  give : Asset
  receive : Asset

structure SwapOffer where
  partialTxHex : String
  giveSourceTxHex : String
  giveVout : Int
  terms : SwapTerms

/-! ## Scripts -/

/-- `76a914`, `88ac`, `bdd0` and the conservation epilogue of a Glyph FT. -/
def p2pkhHead : Bytes := [0x76, 0xA9, 0x14]
def p2pkhTail : Bytes := [0x88, 0xAC]
def ftHead : Bytes := [0xBD, 0xD0]
def ftTail : Bytes := [0xDE, 0xC0, 0xE9, 0xAA, 0x76, 0xE3, 0x78, 0xE4, 0xA2,
  0x69, 0xE6, 0x9D]

/-- `_is_p2pkh`. -/
def isP2pkh (script : Bytes) : Bool :=
  script.length == 25 && script.take 3 == p2pkhHead &&
    script.drop 23 == p2pkhTail

/-- `is_ft_script`: `FT_SCRIPT_RE.fullmatch`, of the bytes. -/
def isFtScript (script : Bytes) : Bool :=
  script.length == 75 && script.take 3 == p2pkhHead &&
    (script.drop 23).take 2 == p2pkhTail &&
    (script.drop 25).take 2 == ftHead && script.drop 63 == ftTail

/-- `extract_ref_from_ft_script`. -/
def extractRefFromFtScript (script : Bytes) : Except PyErr GlyphRef := do
  refuseIf (script.length ≠ 75 ∨
    (script.drop 25).take 2 ≠ ftHead) "Not a valid FT script"
  GlyphRef.fromBytes ((script.drop 27).take 36)

/-- `P2PKH().lock`, of a public key hash. -/
def p2pkhLock (pkh : Bytes) : Except PyErr Bytes := do
  refuseIf (pkh.length ≠ 20) "invalid byte length of public key hash"
  return p2pkhHead ++ pkh ++ p2pkhTail

/-- `build_ft_locking_script(Hex20(pkh), ref)`. -/
def buildFtLockingScript (pkh : Bytes) (ref : GlyphRef) :
    Except PyErr Bytes := do
  refuseIf (pkh.length ≠ 20) ("Hex20 must be 20 bytes, got " ++
    toString pkh.length)
  let refBytes ← ref.toBytes
  let script := p2pkhHead ++ pkh ++ p2pkhTail ++ (ftHead ++ refBytes ++ ftTail)
  if script.length ≠ 75 then
    .error (.other
      ("FT locking script length invariant violated: expected 75, got " ++
      toString script.length))
  else return script

/-- `_owner_pkh_of`. -/
def ownerPkhOf (script : Bytes) : Except PyErr Bytes :=
  if isP2pkh script || isFtScript script then .ok ((script.drop 3).take 20)
  else invalid "output is not a spendable P2PKH or FT script"

/-- `_asset_of`. -/
def assetOf (satoshis : Int) (script : Bytes) : Except PyErr Asset :=
  if isFtScript script then do
    let ref ← extractRefFromFtScript script
    Asset.make .ft satoshis (some ref)
  else if isP2pkh script then Asset.make .rxd satoshis none
  else invalid
    "unsupported asset: output is neither plain RXD (P2PKH) nor a Glyph FT"

/-- `_build_asset_output`. -/
def buildAssetOutput (asset : Asset) (pkh : Bytes) :
    Except PyErr TransactionOutput :=
  match asset.kind with
  | .ft =>
    match asset.ref with
    | none => invalid "FT asset is missing its ref"
    | some ref => do
      let script ← buildFtLockingScript pkh ref
      return ⟨script, some asset.amount⟩
  | .rxd => do
    let script ← p2pkhLock pkh
    return ⟨script, some asset.amount⟩

/-! ## Keys and signatures -/

/-- What is used of the curve library and of RIPEMD-160. -/
structure Curve (Key Secret : Type) where
  ripemd160 : Bytes → Bytes
  /-- `CcPublicKey(data)`. -/
  parse : Bytes → Except PyErr Key
  /-- `key.format(compressed)`. -/
  format : Key → Bool → Bytes
  /-- `key.verify(signature, message, hasher)`, of the digest. -/
  verify : Key → Bytes → Bytes → Except PyErr Bool
  /-- `key.sign(message, hasher)`, of the digest. -/
  sign : Secret → Bytes → Bytes
  publicKey : Secret → Key

structure PrivateKey (Secret : Type) where
  secret : Secret
  compressed : Bool

variable {Key Secret : Type} (curve : Curve Key Secret)

def Curve.hash160 (b : Bytes) : Bytes := curve.ripemd160 (sha256 b)

/-- `get_pushdata_code`. -/
def getPushdataCode (n : Nat) : Except PyErr Bytes :=
  if n ≤ 0x4B then .ok [UInt8.ofNat n]
  else if n ≤ 0xFF then .ok (0x4C :: leBytes 1 n)
  else if n ≤ 0xFFFF then .ok (0x4D :: leBytes 2 n)
  else if n ≤ 0xFFFFFFFF then .ok (0x4E :: leBytes 4 n)
  else .error (.other "data too long to encode in a PUSHDATA opcode")

/-- `encode_pushdata`, with the minimal push rule. -/
def encodePushdata (data : Bytes) : Except PyErr Bytes :=
  match data with
  | [] => .ok [0x00]
  | [b] =>
    if 1 ≤ b ∧ b ≤ 16 then .ok [0x51 + b - 1]
    else if b = 0x81 then .ok [0x4F]
    else .ok [0x01, b]
  | _ => do
    let code ← getPushdataCode data.length
    return code ++ data

/-- An input with the template that will sign it. -/
structure DraftInput (Secret : Type) where
  input : TransactionInput
  template : Option (PrivateKey Secret)

/-- A transaction in the making: `partial` inside `accept_offer`. -/
structure Draft (Secret : Type) where
  inputs : List (DraftInput Secret)
  outputs : List TransactionOutput
  version : Int
  locktime : Int

namespace Draft

def tx (d : Draft Secret) : Transaction :=
  ⟨d.inputs.map DraftInput.input, d.outputs, d.version, d.locktime⟩

/-- `Transaction.preimage`. -/
def preimage (d : Draft Secret) (index : Nat) : Except PyErr Bytes :=
  if index < d.inputs.length then
    txPreimage index (d.inputs.map DraftInput.input) d.outputs
      d.version d.locktime
  else .error (.other ("index out of range [0, " ++
    toString d.inputs.length ++ ")"))

end Draft

/-- `P2PKH().unlock(key).sign(tx, i)`. -/
def p2pkhSign (key : PrivateKey Secret) (d : Draft Secret) (i : Nat)
    (sighash : Nat) : Except PyErr Bytes := do
  let message ← d.preimage i
  let signature := curve.sign key.secret (hash256 message)
  let publicKey := curve.format (curve.publicKey key.secret) key.compressed
  let flag ← toBytesLe 1 sighash
  let signaturePush ← encodePushdata (signature ++ flag)
  let publicKeyPush ← encodePushdata publicKey
  return signaturePush ++ publicKeyPush

/-- One turn of the loop of `Transaction.sign(bypass=True)`. -/
def signTurn (d : Draft Secret) (i : Nat) (t : DraftInput Secret) :
    Except PyErr (DraftInput Secret) :=
  match t.input.unlockingScript with
  | some _ => .ok t
  | none =>
    match t.template with
    | none => .error (.other "'NoneType' object has no attribute 'sign'")
    | some key => do
      let script ← p2pkhSign curve key d i t.input.sighash
      return { t with input := { t.input with unlockingScript := some script } }

/-- The loop, over the inputs not yet reached; each signature sees the inputs as
they are then. -/
def signFrom (d : Draft Secret) :
    List (DraftInput Secret) → List (DraftInput Secret) →
    Except PyErr (List (DraftInput Secret))
  | done, [] => .ok done
  | done, t :: rest => do
    let t ← signTurn curve { d with inputs := done ++ t :: rest } done.length t
    signFrom d (done ++ [t]) rest

/-- `Transaction.sign(bypass=True)`. -/
def sign (d : Draft Secret) : Except PyErr (Draft Secret) := do
  if d.outputs.any (fun o => o.satoshis.isNone) then
    .error (.other ("One or more transaction outputs is missing an amount. " ++
      "Ensure all output amounts are provided before signing."))
  else
    let inputs ← signFrom curve d [] d.inputs
    return { d with inputs := inputs }

/-- One push of `_parse_p2pkh_scriptsig`. -/
def parsePush (unlocking : Bytes) : Except PyErr (Bytes × Bytes) :=
  match unlocking with
  | [] => invalid "malformed P2PKH scriptSig: too few pushes"
  | op :: rest =>
    let n := op.toNat
    if ¬ (1 ≤ n ∧
      n ≤ 75) then invalid "malformed P2PKH scriptSig: unexpected opcode"
    else if n >
      rest.length then invalid "malformed P2PKH scriptSig: truncated push"
    else .ok (rest.take n, rest.drop n)

/-- `_parse_p2pkh_scriptsig`. -/
def parseP2pkhScriptsig (unlocking : Bytes) : Except PyErr (Bytes × Bytes) := do
  let (signature, rest) ← parsePush unlocking
  let (publicKey, rest) ← parsePush rest
  refuseIf (rest ≠ []) "malformed P2PKH scriptSig: trailing bytes"
  return (signature, publicKey)

/-- `PUBLIC_KEY_COMPRESSED_PREFIX_LIST`. -/
def compressedPrefix (pk : Bytes) : Bool := pk.take 1 == [0x02] ||
  pk.take 1 == [0x03]

/-- `inp.sighash = flag`, of the first input. -/
def setSighash (flag : Nat) : List (DraftInput Secret) →
    List (DraftInput Secret)
  | [] => []
  | t :: rest => { t with input := { t.input with sighash := flag } } :: rest

/-- `_verify_owner_signature`, of the first input, whose flag it restores. -/
def verifyOwnerSignature (d : Draft Secret) : Except PyErr (Draft Secret) := do
  let inp ← (
    match d.inputs with
    | [] => .error (.other "list index out of range")
    | t :: _ => .ok t.input)
  match inp.unlockingScript, inp.lockingScript, inp.satoshis with
  | some unlocking, some locking, some _ => do
    let (signed, publicKey) ← parseP2pkhScriptsig unlocking
    refuseIf (signed.length < 2) "malformed signature push"
    let der := signed.dropLast
    let flag := (signed.getLastD 0).toNat
    let d := { d with inputs := setSighash flag d.inputs }
    let key ← curve.parse publicKey
    let owner ← ownerPkhOf locking
    refuseIf (curve.hash160 (curve.format key (compressedPrefix publicKey)) ≠
      owner)
      "input 0 pubkey does not match the prevout owner"
    let message ← d.preimage 0
    let valid ← curve.verify key der (hash256 message)
    refuseIf (valid = false)
      "input 0 signature does not validate against the transaction"
    return d
  | _, _, _ => invalid "input 0 is not ready for signature verification"

/-! ## Balancing -/

/-- `_DUST_PHOTONS`. -/
def dustPhotons : Int := 546

/-- The running sums of one side of a transaction. -/
structure Sums where
  ft : Tally GlyphRef
  total : Int

/-- What both loops of `_balance_and_add_change` do with an output. -/
def Sums.add (s : Sums) (satoshis : Int) (script : Bytes) :
    Except PyErr Sums := do
  let asset ← assetOf satoshis script
  match asset.kind, asset.ref with
  | .ft, some ref => return ⟨s.ft.add ref asset.amount, s.total + satoshis⟩
  | _, _ => return ⟨s.ft, s.total + satoshis⟩

def sumInputs : Sums → List TransactionInput → Except PyErr Sums
  | s, [] => .ok s
  | s, i :: l =>
    match i.satoshis, i.lockingScript with
    | some satoshis, some script => do
      let s ← s.add satoshis script
      sumInputs s l
    | _, _ => invalid "an input is missing its prevout value/script"

def sumOutputs : Sums → List TransactionOutput → Except PyErr Sums
  | s, [] => .ok s
  | s, o :: l =>
    match o.satoshis with
    | some satoshis => do
      let s ← s.add satoshis o.lockingScript
      sumOutputs s l
    | none =>
      .error (.other "unsupported operand type(s) for +=: 'int' and 'NoneType'")

/-- The order in which a set of refs is gone through. -/
structure SetOrder where
  order : List GlyphRef → List GlyphRef
  perm : ∀ l, l.Nodup → (order l).Perm l

/-- The FT change loop: the outputs it appends and what they add to the
total. -/
def ftChange (changePkh : Bytes) (ftIn ftOut : Tally GlyphRef) :
    List GlyphRef → Except PyErr (List TransactionOutput × Int)
  | [] => .ok ([], 0)
  | ref :: refs => do
    let surplus := ftIn.count ref - ftOut.count ref
    if surplus < 0 then
      invalid ("funding lacks " ++ toString (-surplus) ++ " units of FT " ++
        ref.txid ++ ":" ++
        toString ref.vout)
    else if surplus > 0 then
      let asset ← Asset.make .ft surplus (some ref)
      let o ← buildAssetOutput asset changePkh
      let (os, added) ← ftChange changePkh ftIn ftOut refs
      return (o :: os, surplus + added)
    else ftChange changePkh ftIn ftOut refs

/-- `_balance_and_add_change`. -/
def balanceAndAddChange (order : SetOrder) (d : Draft Secret)
    (changePkh : Bytes) (fee : Int) :
    Except PyErr (Draft Secret) := do
  refuseIf (fee < 0) "fee must be non-negative"
  let sIn ← sumInputs ⟨[], 0⟩ (d.inputs.map DraftInput.input)
  let sOut ← sumOutputs ⟨[], 0⟩ d.outputs
  let refs := order.order (sIn.ft.keys ++ sOut.ft.keys).dedup
  let (change, added) ← ftChange changePkh sIn.ft sOut.ft refs
  let rxdChange := sIn.total - (sOut.total + added) - fee
  refuseIf (rxdChange < 0)
    ("funding is " ++ toString (-rxdChange) ++
      " photons short of covering the swap plus fee")
  if rxdChange ≥ dustPhotons then
    let script ← p2pkhLock changePkh
    return { d with outputs := d.outputs ++ change ++ [⟨script,
      some rxdChange⟩] }
  else
    -- a remainder below dust is left to the fee
    return { d with outputs := d.outputs ++ change }

/-! ## Accepting an offer -/

structure FundingInput (Secret : Type) where
  sourceTx : Transaction
  vout : Int
  key : PrivateKey Secret

/-- `outputs[vout]` behind the bounds check. -/
def outputAt (t : Transaction) (vout : Int) : Option TransactionOutput :=
  if 0 ≤ vout then t.outputs[vout.toNat]? else none

/-- The input added for one funding output. -/
def FundingInput.draftInput (f : FundingInput Secret) :
    Except PyErr (DraftInput Secret) :=
  match outputAt f.sourceTx f.vout with
  | none => invalid "funding input references a non-existent source output"
  | some utxo => do
    let txid ← f.sourceTx.txid
    return ⟨⟨some txid, f.vout, none, 0xFFFFFFFF, utxo.satoshis,
      some utxo.lockingScript,
      sighashAllForkid⟩, some f.key⟩

/-- `Transaction.from_hex(bytes.fromhex(s))`. -/
def parseTxHex (s : String) : Except PyErr (Option Transaction) :=
  match fromHex s with
  | some b => .ok (Transaction.fromHex b)
  | none => .error (.other "non-hexadecimal number found in fromhex() arg")

/-- `accept_offer`, up to the reconciliation of the terms: the partial
transaction with its first input completed, and the asset given. -/
def openOffer (offer : SwapOffer) : Except PyErr (Draft Secret × Asset) := do
  let parsed ← parseTxHex offer.partialTxHex
  let source ← parseTxHex offer.giveSourceTxHex
  match parsed, source with
  | some parsed, some giveSource =>
    match parsed.inputs, parsed.outputs with
    | makerIn :: moreInputs, makerOut :: _ => do
      let sourceTxid ← giveSource.txid
      refuseIf (some sourceTxid ≠ makerIn.sourceTxid)
        "give_source_tx does not match the maker input's outpoint"
      match outputAt giveSource makerIn.sourceOutputIndex with
      | none => invalid "maker input references a non-existent source output"
      | some giveOut =>
        match giveOut.satoshis, makerOut.satoshis with
        | some giveSatoshis, some receiveSatoshis => do
          let realGive ← assetOf giveSatoshis giveOut.lockingScript
          refuseIf (realGive ≠ offer.terms.give)
            ("offer give terms do not match the chain: declared " ++
              offer.terms.give.repr ++
              ", real " ++ realGive.repr)
          let realReceive ← assetOf receiveSatoshis makerOut.lockingScript
          refuseIf (realReceive ≠ offer.terms.receive)
            ("offer receive terms do not match the partial tx: declared " ++
              offer.terms.receive.repr ++ ", real " ++ realReceive.repr)
          let makerIn := { makerIn with
            satoshis := some giveSatoshis, lockingScript := some giveOut.lockingScript }
          return (⟨⟨makerIn, none⟩ :: moreInputs.map (⟨·, none⟩),
            parsed.outputs, parsed.version,
            parsed.locktime⟩, realGive)
        | _, _ =>
          .error (.other
            "'<=' not supported between instances of 'NoneType' and 'int'")
    | _, _ =>
      invalid "offer partial transaction is missing the maker input/output"
  | _, _ => invalid "offer contains an unparseable transaction"

/-- `partial.outputs[0].serialize()`. -/
def firstOutputBytes (d : Draft Secret) : Except PyErr Bytes :=
  match d.outputs with
  | [] => .error (.other "list index out of range")
  | o :: _ => o.serialize

/-- `accept_offer`. -/
def acceptOffer (order : SetOrder) (offer : SwapOffer)
    (funding : List (FundingInput Secret))
    (takerReceivePkh takerChangePkh : Bytes) (fee : Int) :
    Except PyErr Transaction := do
  refuseIf (funding = []) "at least one funding input is required"
  let (d, realGive) ← openOffer offer
  let d ← verifyOwnerSignature curve d
  let makerOutput0 ← firstOutputBytes d
  let give ← buildAssetOutput realGive takerReceivePkh
  let inputs ← funding.mapM FundingInput.draftInput
  let d :=
    { d with inputs := d.inputs ++ inputs, outputs := d.outputs ++ [give] }
  let d ← balanceAndAddChange order d takerChangePkh fee
  let d ← sign curve d
  let output0 ← firstOutputBytes d
  refuseIf (output0 ≠ makerOutput0)
    "internal error: maker receive output changed during accept"
  let d ← verifyOwnerSignature curve d
  return d.tx

end Pyrxd.Swap
