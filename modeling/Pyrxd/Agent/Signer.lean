import Pyrxd.Hd.Bip32
import Mathlib.Data.List.Sort

/-!
# The signing agent

`agent/protocol.py` and `agent/signer.py`: what a caller sends, what the user is
shown, and `AgentSigner.sign`. A run of `sign` is what it gives together with
the two things it does on the way, asking for confirmation and signing, in the
order in which they happen.
-/

namespace Pyrxd.Agent

open Pyrxd.Lib Pyrxd.Tx Pyrxd.Hd
open Pyrxd.Swap (PrivateKey DraftInput Draft isP2pkh)

/-! ## The protocol -/

structure InputToSign where
  inputIndex : Int
  change : Int
  index : Int
  sourceTxHex : String
  sighash : Int := sighashAllForkid

structure ChangeClaim where
  outputIndex : Int
  change : Int
  index : Int

structure SigningRequest where
  unsignedTxHex : String
  inputs : List InputToSign
  changeClaims : List ChangeClaim := []

structure ExternalOutput where
  outputIndex : Nat
  dest : String
  amount : Int
deriving DecidableEq

structure SpendSummary where
  externalOutputs : List ExternalOutput
  totalExternal : Int
  changeTotal : Int
  inputTotal : Int
  fee : Int
  sighashFlags : List Int
deriving DecidableEq

structure SignedResult where
  signedTxHex : String

/-! ## Checks -/

/-- `bytes.fromhex`. -/
def bytesFromHex (s : String) : Except PyErr Bytes :=
  match Lib.fromHex s with
  | some b => .ok b
  | none => raises "non-hexadecimal number found in fromhex() arg"

/-- `_MAX_DERIVATION_INDEX`. -/
def maxDerivationIndex : Int := 100000

/-- `_check_coords`. -/
def checkCoords (change index : Int) (what : String) : Except PyErr Unit := do
  refuseIf (¬ (change = 0 ∨ change = 1)) (what ++
    ": change must be 0 or 1, got " ++ toString change)
  refuseIf (¬ (0 ≤ index ∧ index ≤ maxDerivationIndex))
    (what ++ ": index out of range (0.." ++ toString maxDerivationIndex ++
      "), got " ++ toString index)

/-- The public key hash in a P2PKH script. -/
def ownerOf (script : Bytes) : Bytes := (script.drop 3).take 20

/-- `_dest_of`. -/
def destOf (o : TransactionOutput) : String :=
  if isP2pkh o.lockingScript then "p2pkh:" ++ hex (ownerOf o.lockingScript)
  else if o.lockingScript.take 1 = [0x6A] then "op_return"
  else "script:" ++ hex (o.lockingScript.take 16) ++ "…"

/-- `int(x.satoshis)`. -/
def amountOf : Option Int → Except PyErr Int
  | some n => .ok n
  | none =>
    raises "int() argument must be a string, a bytes-like object or a real number, not 'NoneType'"

/-- `sorted(covered) == list(range(n))`. -/
def coversAll (inputs : List InputToSign) (n : Nat) : Prop :=
  (inputs.map InputToSign.inputIndex).insertionSort (· ≤ ·) =
    (List.range n).map Int.ofNat

instance (inputs : List InputToSign) (n : Nat) :
    Decidable (coversAll inputs n) :=
  inferInstanceAs (Decidable (_ = _))

section Signer

variable {Key Secret : Type} (hd : HdCurve Key Secret)

/-- The body of `_verify_and_prepare_input`, from the input it is about. -/
def prepareInput (wallet : HdWallet Secret) (ti : TransactionInput)
    (inp : InputToSign) :
    Except PyErr (DraftInput Secret) := do
  let place := toString inp.inputIndex
  let srcBytes ← bytesFromHex inp.sourceTxHex
  refuseIf (some (hex (hash256 srcBytes).reverse) ≠ ti.sourceTxid)
    ("source tx does not match input " ++ place ++ " outpoint")
  match Transaction.fromHex srcBytes with
  | none => invalid ("could not parse source tx for input " ++ place)
  | some src => do
    let vout := ti.sourceOutputIndex
    match (if 0 ≤ vout then src.outputs[vout.toNat]? else none) with
    | none =>
      invalid ("input " ++ place ++ " references a non-existent source output")
    | some prevout => do
      refuseIf (isP2pkh prevout.lockingScript = false)
        ("input " ++ place ++ " is not P2PKH (agent v1 signs P2PKH only)")
      checkCoords inp.change inp.index ("input " ++ place)
      let privkey ← wallet.privkeyFor hd inp.change inp.index
      refuseIf (hd.hash160
        (hd.format (hd.publicKey privkey.secret) privkey.compressed) ≠
          ownerOf prevout.lockingScript)
        ("derived key (change=" ++ toString inp.change ++ ", index=" ++
          toString inp.index ++
          ") does not own input " ++ place)
      refuseIf (inp.sighash ≠ sighashAllForkid)
        ("input " ++ place ++ ": agent v1 signs only ALL_FORKID (0x41); got " ++
          toString inp.sighash ++
          " — other sighash types permit fund redirection and are refused")
      return {
        input := { ti with
          satoshis := prevout.satoshis
          lockingScript := some prevout.lockingScript
          sighash := sighashAllForkid
          unlockingScript := none }
        template := some privkey }

/-- `_verify_and_prepare_input`. -/
def verifyAndPrepareInput (wallet : HdWallet Secret) (d : Draft Secret)
    (inp : InputToSign) :
    Except PyErr (Draft Secret) :=
  match (if 0 ≤ inp.inputIndex then d.inputs[inp.inputIndex.toNat]?
      else none) with
  | none =>
    invalid ("input_index " ++ toString inp.inputIndex ++ " out of range")
  | some t => do
    let prepared ← prepareInput hd wallet t.input inp
    return { d with inputs := d.inputs.set inp.inputIndex.toNat prepared }

/-- The loop of `sign` over the inputs of the request. -/
def prepareInputs (wallet : HdWallet Secret) (d : Draft Secret) :
    List InputToSign → Except PyErr (Draft Secret)
  | [] => .ok d
  | inp :: rest => do
    let d ← verifyAndPrepareInput hd wallet d inp
    prepareInputs wallet d rest

/-- One turn of the loop over the change claims. -/
def verifyClaim (wallet : HdWallet Secret) (outputs : List TransactionOutput)
    (claim : ChangeClaim) :
    Except PyErr Int :=
  match (if 0 ≤ claim.outputIndex then outputs[claim.outputIndex.toNat]?
      else none) with
  | none =>
    invalid ("change claim output_index " ++ toString claim.outputIndex ++
      " out of range")
  | some out => do
    checkCoords claim.change claim.index ("change claim " ++
      toString claim.outputIndex)
    let addr ← wallet.deriveAddress hd claim.change claim.index
    let claimPkh ← addressToPublicKeyHash addr
    refuseIf (isP2pkh out.lockingScript = false ∨
      ownerOf out.lockingScript ≠ claimPkh)
      ("change claim for output " ++ toString claim.outputIndex ++
        " does not verify " ++
        "(output is not change to the claimed key)")
    return claim.outputIndex

/-- The loop over the outputs: the payees and the sum of the change, from output
`idx` on. -/
def attributeOutputs (changeIndices : List Int) : Nat → List TransactionOutput →
    Except PyErr (List ExternalOutput × Int)
  | _, [] => .ok ([], 0)
  | idx, out :: rest => do
    let amount ← amountOf out.satoshis
    if (idx : Int) ∈ changeIndices then do
      let (external, changeTotal) ← attributeOutputs changeIndices
        (idx + 1) rest
      return (external, amount + changeTotal)
    else do
      refuseIf (isP2pkh out.lockingScript = false ∧
        out.lockingScript.take 1 ≠ [0x6A])
        ("output " ++ toString idx ++
          " is neither P2PKH nor OP_RETURN; agent v1 will not sign a " ++
          "transaction with an unattributable output (cannot show it for confirmation)")
      let (external, changeTotal) ← attributeOutputs changeIndices
        (idx + 1) rest
      return (⟨idx, destOf out, amount⟩ :: external, changeTotal)

/-- `_summarize`. -/
def summarize (wallet : HdWallet Secret) (d : Draft Secret)
    (request : SigningRequest) :
    Except PyErr SpendSummary := do
  let changeIndices ← request.changeClaims.mapM
    (verifyClaim hd wallet d.outputs)
  let (external, changeTotal) ← attributeOutputs changeIndices 0 d.outputs
  let amounts ← d.inputs.mapM fun t => amountOf t.input.satoshis
  let inputTotal := amounts.sum
  let totalExternal := (external.map ExternalOutput.amount).sum
  let fee := inputTotal - changeTotal - totalExternal
  refuseIf (fee < 0) "transaction spends more than its inputs (negative fee)"
  return ⟨external, totalExternal, changeTotal, inputTotal, fee,
    request.inputs.map InputToSign.sighash⟩

/-- The transaction of a request, before anything is attached to its inputs. -/
def parseUnsigned (request : SigningRequest) : Except PyErr (Draft Secret) := do
  let bytes ← bytesFromHex request.unsignedTxHex
  match Transaction.fromHex bytes with
  | none => invalid "could not parse the unsigned transaction"
  | some tx => do
    refuseIf (tx.inputs = [] ∨
      tx.outputs = []) "transaction has no inputs or no outputs"
    refuseIf (¬ coversAll request.inputs tx.inputs.length)
      ("agent v1 signs only fully wallet-owned transactions (tx has " ++
        toString tx.inputs.length ++
        " inputs; request covers " ++
        toString ((request.inputs.map InputToSign.inputIndex).insertionSort
          (· ≤ ·)) ++ ")")
    return ⟨tx.inputs.map fun i => ⟨i, none⟩, tx.outputs,
      tx.version, tx.locktime⟩

/-- What `sign` does up to the question: the prepared transaction and its
summary. -/
def prepare (wallet : HdWallet Secret) (request : SigningRequest) :
    Except PyErr (Draft Secret × SpendSummary) := do
  let d ← parseUnsigned request
  let d ← prepareInputs hd wallet d request.inputs
  let summary ← summarize hd wallet d request
  return (d, summary)

/-- What happens while `sign` runs: the user's answer, and `tx.sign`, where the
keys are. -/
inductive Event (Secret : Type) where
  | asked (summary : SpendSummary) (answer : Bool)
  | signs (tx : Draft Secret)

/-- One turn of the loop over the signed inputs. -/
def checkSigned (signed : Draft Secret) (inp : InputToSign) :
    Except PyErr Unit :=
  refuseIf ((signed.inputs[inp.inputIndex.toNat]?.bind fun t =>
    t.input.unlockingScript) = none)
    ("input " ++ toString inp.inputIndex ++ " was not signed")

/-- `tx.sign(bypass=True)` and what follows it. -/
def finish (request : SigningRequest) (d : Draft Secret) :
    Except PyErr SignedResult := do
  let signed ← Swap.sign hd.toCurve d
  let _ ← request.inputs.mapM (checkSigned signed)
  let raw ← signed.tx.serialize
  return ⟨hex raw⟩

/-- `AgentSigner.sign`. -/
def AgentSigner.sign (wallet : HdWallet Secret) (request : SigningRequest)
    (confirm : SpendSummary → Except PyErr Bool) :
    List (Event Secret) × Except PyErr SignedResult :=
  match prepare hd wallet request with
  | .error e => ([], .error e)
  | .ok (d, summary) =>
    match confirm summary with
    | .error e => ([], .error e)
    | .ok false =>
      ([.asked summary false],
        invalid "spend declined at the confirmation gate")
    | .ok true => ([.asked summary true, .signs d], finish hd request d)

end Signer

end Pyrxd.Agent
