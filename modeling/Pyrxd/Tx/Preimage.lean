import Pyrxd.Tx.PushRefs
import Pyrxd.Tx.Transaction

/-!
# Signature preimages

`transaction/transaction_preimage.py`: the Radiant extension of the BIP143
preimage, once for all inputs of a transaction (`tx_preimages`) and once for a
single one (`tx_preimage`). The two are written separately in the source, and
separately here; `PreimageSpec` compares them.
-/

namespace Pyrxd.Tx

open Pyrxd.Lib

/-- `b"\x00" * 32`. -/
def zeroHash : Bytes := List.replicate 32 0

/-- `bytes.fromhex(source_txid)[::-1] + source_output_index.to_bytes(4, "little")`. -/
def outpointBytes (i : TransactionInput) : Except PyErr Bytes := do
  let txid ← txidBytes i.sourceTxid
  let index ← toBytesLe 4 i.sourceOutputIndex
  return txid ++ index

/-- One output in `_compute_hash_output_hashes`. -/
def outputSummary (o : TransactionOutput) : Except PyErr Bytes := do
  let value ← satoshisBytes o.satoshis
  let refs ← getPushRefs o.lockingScript
  let count ← toBytesLe 4 refs.length
  return value ++ hash256 o.lockingScript ++ count ++
    (if refs = [] then zeroHash else hash256 refs.flatten)

/-- `_compute_hash_output_hashes`, over the outputs it is asked for. -/
def computeHashOutputHashes (outputs : List TransactionOutput)
    (index : Option Nat) :
    Except PyErr Bytes := do
  let picked ← (
    match index with
    | none => .ok outputs
    | some i =>
      match outputs[i]? with
      | some o => .ok [o]
      | none => .error (.other "list index out of range"))
  let buf ← joinAll outputSummary picked
  return hash256 buf

/-- `_preimage`. -/
def preimage (i : TransactionInput) (txVersion txLocktime : Int)
    (hashPrevouts hashSequence hashOutputHashes hashOutputs : Bytes) :
    Except PyErr Bytes := do
  let version ← toBytesLe 4 txVersion
  let outpoint ← outpointBytes i
  let script ← (
    match i.lockingScript with
    | none =>
      .error (.other "'NoneType' object has no attribute 'byte_length_varint'")
    | some script => scriptBytes (some script))
  let value ← satoshisBytes i.satoshis
  let sequence ← toBytesLe 4 i.sequence
  let locktime ← toBytesLe 4 txLocktime
  let sighash ← toBytesLe 4 i.sighash
  return version ++ hashPrevouts ++ hashSequence ++ outpoint ++ script ++
    value ++ sequence ++
    hashOutputHashes ++ hashOutputs ++ locktime ++ sighash

/-- The hashes over all inputs and all outputs. -/
def hashAllPrevouts (inputs : List TransactionInput) : Except PyErr Bytes := do
  let b ← joinAll outpointBytes inputs
  return hash256 b

def hashAllSequences (inputs : List TransactionInput) : Except PyErr Bytes := do
  let b ← joinAll (fun i => toBytesLe 4 i.sequence) inputs
  return hash256 b

def hashAllOutputs (outputs : List TransactionOutput) : Except PyErr Bytes := do
  let b ← joinAll TransactionOutput.serialize outputs
  return hash256 b

/-- The flags of a signature, as both functions test them. -/
def anyoneCanPay (sighash : Nat) : Bool := sighash &&& sighashAnyonecanpay != 0

def signsAllOutputs (sighash : Nat) : Bool :=
  sighash &&& 0x1F != sighashSingle && sighash &&& 0x1F != sighashNone

/-- What a `SINGLE` signature says of the outputs. -/
def singleOutput (outputs : List TransactionOutput) (i : Nat) :
    Except PyErr (Bytes × Bytes) :=
  match outputs[i]? with
  | none => .error (.other "list index out of range")
  | some o => do
    let raw ← o.serialize
    let hashOutputHashes ← computeHashOutputHashes outputs (some i)
    return (hash256 raw, hashOutputHashes)

/-- One turn of the loop of `tx_preimages`, with the four hashes at hand. -/
def preimagesTurn (outputs : List TransactionOutput)
    (txVersion txLocktime : Int)
    (allPrevouts allSequences allOutputs allOutputHashes : Bytes) (i : Nat)
    (input : TransactionInput) :
    Except PyErr Bytes := do
  let sighash := input.sighash
  let hashPrevouts := if anyoneCanPay sighash then zeroHash else allPrevouts
  let hashSequence :=
    if !anyoneCanPay sighash &&
      signsAllOutputs sighash then allSequences else zeroHash
  let (hashOutputs, hashOutputHashes) ← (
    if signsAllOutputs sighash then .ok (allOutputs, allOutputHashes)
    else if sighash &&& 0x1F = sighashSingle ∧
      i < outputs.length then singleOutput outputs i
    else .ok (zeroHash, zeroHash))
  preimage input txVersion txLocktime hashPrevouts hashSequence
    hashOutputHashes hashOutputs

/-- `tx_preimages`. -/
def txPreimages (inputs : List TransactionInput)
    (outputs : List TransactionOutput)
    (txVersion txLocktime : Int) : Except PyErr (List Bytes) := do
  let allPrevouts ← hashAllPrevouts inputs
  let allSequences ← hashAllSequences inputs
  let allOutputs ← hashAllOutputs outputs
  let allOutputHashes ← computeHashOutputHashes outputs none
  inputs.zipIdx.mapM fun (input, i) =>
    preimagesTurn outputs txVersion txLocktime allPrevouts allSequences
      allOutputs allOutputHashes i input

/-- Both hashes over all outputs. -/
def allOutputsHashes (outputs : List TransactionOutput) :
    Except PyErr (Bytes × Bytes) := do
  let hashOutputs ← hashAllOutputs outputs
  let hashOutputHashes ← computeHashOutputHashes outputs none
  return (hashOutputs, hashOutputHashes)

/-- `tx_preimage`. -/
def txPreimage (inputIndex : Nat) (inputs : List TransactionInput)
    (outputs : List TransactionOutput)
    (txVersion txLocktime : Int) : Except PyErr Bytes :=
  match inputs[inputIndex]? with
  | none => .error (.other "list index out of range")
  | some input => do
    let sighash := input.sighash
    let hashPrevouts ← (if !anyoneCanPay sighash then hashAllPrevouts inputs
      else .ok zeroHash)
    let hashSequence ← (
      if !anyoneCanPay sighash &&
        signsAllOutputs sighash then hashAllSequences inputs else .ok zeroHash)
    let (hashOutputs, hashOutputHashes) ← (
      if signsAllOutputs sighash then allOutputsHashes outputs
      else if sighash &&& 0x1F = sighashSingle ∧
          inputIndex < outputs.length then
        singleOutput outputs inputIndex
      else .ok (zeroHash, zeroHash))
    preimage input txVersion txLocktime hashPrevouts hashSequence
      hashOutputHashes hashOutputs

end Pyrxd.Tx
