import Pyrxd.Errors
import Pyrxd.Lib.Sha256
import Pyrxd.Lib.TxWire

/-!
# Transactions and their wire form

`Transaction`, `TransactionInput` and `TransactionOutput` of `transaction/`, as
far as they are serialised, parsed and signed, with the `Reader` of `utils.py`
they are parsed by. A `Reader` is the list of bytes still unread.

A `Reader` does not insist: at the end of the data it gives what is left, and
`None` only when nothing is. Which of those short reads a parser notices is the
subject of `RoundTrip`.
-/

namespace Pyrxd.Tx

open Pyrxd.Lib

/-! ## Data -/

/-- `SIGHASH`. -/
def sighashNone : Nat := 0x02
def sighashSingle : Nat := 0x03
def sighashAnyonecanpay : Nat := 0x80
def sighashAllForkid : Nat := 0x41

structure TransactionInput where
  sourceTxid : Option String
  sourceOutputIndex : Int
  unlockingScript : Option Bytes
  sequence : Int
  /-- The value and the script of the output spent, once they are known. -/
  satoshis : Option Int
  lockingScript : Option Bytes
  sighash : Nat
deriving DecidableEq

structure TransactionOutput where
  lockingScript : Bytes
  satoshis : Option Int
deriving DecidableEq

structure Transaction where
  inputs : List TransactionInput
  outputs : List TransactionOutput
  version : Int
  locktime : Int
deriving DecidableEq

/-! ## Serialisation -/

/-- `n.to_bytes(k, "little")`. -/
def toBytesLe (k : Nat) (n : Int) : Except PyErr Bytes :=
  if n < 0 then .error (.other "can't convert negative int to unsigned")
  else if n < 256 ^ k then .ok (leBytes k n.toNat)
  else .error (.other "int too big to convert")

/-- `unsigned_to_varint`, of a length. -/
def unsignedToVarint (num : Nat) : Except PyErr Bytes :=
  if num > 0xFFFFFFFFFFFFFFFF then .error
    (.other ("can't convert " ++ toString num ++ " to varint"))
  else .ok (compactBytes num)

/-- `bytes.fromhex(source_txid)[::-1]`. -/
def txidBytes : Option String → Except PyErr Bytes
  | none => .error (.other "fromhex() argument must be str, not None")
  | some txid =>
    match fromHex txid with
    | some b => .ok b.reverse
    | none => .error (.other "non-hexadecimal number found in fromhex() arg")

/-- `satoshis.to_bytes(8, "little")`. -/
def satoshisBytes : Option Int → Except PyErr Bytes
  | none => .error (.other "'NoneType' object has no attribute 'to_bytes'")
  | some n => toBytesLe 8 n

/-- `byte_length_varint()` and `serialize()` of a script, which may be
missing. -/
def scriptBytes : Option Bytes → Except PyErr Bytes
  | none => .ok [0x00]
  | some script => do
    let size ← unsignedToVarint script.length
    return size ++ script

def TransactionInput.serialize (i : TransactionInput) : Except PyErr Bytes := do
  let txid ← txidBytes i.sourceTxid
  let index ← toBytesLe 4 i.sourceOutputIndex
  let script ← scriptBytes i.unlockingScript
  let sequence ← toBytesLe 4 i.sequence
  return txid ++ index ++ script ++ sequence

def TransactionOutput.serialize (o : TransactionOutput) :
    Except PyErr Bytes := do
  let satoshis ← satoshisBytes o.satoshis
  let script ← scriptBytes (some o.lockingScript)
  return satoshis ++ script

/-- The pieces of a loop that appends one after another. -/
def joinAll {α : Type} (f : α → Except PyErr Bytes) : List α →
    Except PyErr Bytes
  | [] => .ok []
  | a :: l => do
    let x ← f a
    let rest ← joinAll f l
    return x ++ rest

namespace Transaction

def serialize (t : Transaction) : Except PyErr Bytes := do
  let version ← toBytesLe 4 t.version
  let nIn ← unsignedToVarint t.inputs.length
  let inputs ← joinAll TransactionInput.serialize t.inputs
  let nOut ← unsignedToVarint t.outputs.length
  let outputs ← joinAll TransactionOutput.serialize t.outputs
  let locktime ← toBytesLe 4 t.locktime
  return version ++ nIn ++ inputs ++ nOut ++ outputs ++ locktime

def hash (t : Transaction) : Except PyErr Bytes := do
  let raw ← t.serialize
  return hash256 raw

def txid (t : Transaction) : Except PyErr String := do
  let h ← t.hash
  return hex h.reverse

end Transaction

/-! ## Reader -/

namespace Reader

/-- `read(n)`: what is there, or `None`. An `n` beyond the machine's index range
raises in the source; no data is that long, and every parser refuses the short
read as well. -/
def read (n : Nat) (r : Bytes) : Option Bytes × Bytes :=
  (if r.take n = [] then none else some (r.take n), r.drop n)

/-- `read_int(n)`, and the `read_uint..._le` family: `None` at the end of the
data, and otherwise the number of however many bytes there were. -/
def readLe (n : Nat) (r : Bytes) : Option Nat × Bytes :=
  let (data, r) := read n r
  (data.map leNat, r)

/-- `read_var_int_num`. -/
def readVarIntNum (r : Bytes) : Option Nat × Bytes :=
  match readLe 1 r with
  | (none, r) => (none, r)
  | (some v, r) =>
    if v < 253 then (some v, r)
    else if v = 253 then readLe 2 r
    else if v = 254 then readLe 4 r
    else readLe 8 r

/-- `read_bytes`. -/
def readBytes (n : Nat) (r : Bytes) : Bytes × Bytes :=
  let (data, r) := read n r
  (data.getD [], r)

/-- `if x is None: raise ValueError(msg)`. -/
def require {α : Type} (msg : String) : Option α × Bytes →
    Except PyErr (α × Bytes)
  | (some a, r) => .ok (a, r)
  | (none, _) => .error (.other msg)

end Reader

open Reader

/-! ## Parsing -/

/-- The body of `TransactionInput.from_hex`. -/
def TransactionInput.fromReader (r : Bytes) :
    Except PyErr (TransactionInput × Bytes) := do
  let (txid, r) := readBytes 32 r
  if txid.length ≠ 32 then .error (.other "expected 32-byte txid") else
  let (vout, r) ← require "failed to read vout" (readLe 4 r)
  let (scriptLength, r) ← require "failed to read script length"
    (readVarIntNum r)
  -- the script may be cut short; the sequence number is then missing
  let (script, r) := readBytes scriptLength r
  let (sequence, r) ← require "failed to read sequence" (readLe 4 r)
  return (⟨some (hex txid.reverse), vout, some script, sequence, none, none,
    sighashAllForkid⟩, r)

/-- The body of `TransactionOutput.from_hex`. -/
def TransactionOutput.fromReader (r : Bytes) :
    Except PyErr (TransactionOutput × Bytes) := do
  let (satoshis, r) ← require "failed to read satoshis" (readLe 8 r)
  let (scriptLength, r) ← require "failed to read script length"
    (readVarIntNum r)
  let (script, r) := readBytes scriptLength r
  if script.length ≠ scriptLength then
    .error (.other ("truncated output script: varint claims " ++
      toString scriptLength ++
      " bytes, only " ++ toString script.length ++ " available"))
  else return (⟨script, some satoshis⟩, r)

/-- `count` times `from_hex`, which swallows its exception and gives `None`. -/
def readAll {α : Type} (msg : String) (one : Bytes → Except PyErr (α × Bytes)) :
    Nat → Bytes → Except PyErr (List α × Bytes)
  | 0, r => .ok ([], r)
  | count + 1, r =>
    match one r with
    | .error _ => .error (.other msg)
    | .ok (a, r) => do
      let (l, r) ← readAll msg one count r
      return (a :: l, r)

namespace Transaction

/-- `Transaction.from_reader`. -/
def fromReader (r : Bytes) : Except PyErr (Transaction × Bytes) := do
  let (version, r) ← require "failed to read transaction version" (readLe 4 r)
  let (inputsCount, r) ← require "failed to read inputs count" (readVarIntNum r)
  let (inputs, r) ← readAll "failed to read transaction input"
    TransactionInput.fromReader inputsCount r
  let (outputsCount, r) ← require "failed to read outputs count"
    (readVarIntNum r)
  let (outputs, r) ←
    readAll "failed to read transaction output" TransactionOutput.fromReader
      outputsCount r
  let (locktime, r) ← require "failed to read transaction locktime" (readLe 4 r)
  return (⟨inputs, outputs, version, locktime⟩, r)

/-- `Transaction.from_hex`, of bytes. -/
def fromHex (stream : Bytes) : Option Transaction :=
  match fromReader stream with
  | .ok (t, _) => some t
  | .error _ => none

end Transaction

end Pyrxd.Tx
