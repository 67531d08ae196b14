import Pyrxd.Errors
import Pyrxd.Lib.Sha256

/-!
# Walkers over a raw BTC transaction

The readers of `btc_wallet/taproot.py` that take a serialised transaction apart
by hand: `btc_txid_from_raw` and `btc_spend_fields_from_raw`, which refuse
anything that is not one whole transaction; `btc_input_outpoints_from_raw`,
which stops after the inputs; and `_iter_witness_stack`, which never raises and
gives back what it could read, under `scrape_secret`. The source's cursor (`b`,
`pos`) is the list of bytes still unread here.
-/

namespace Pyrxd.Btc

open Pyrxd.Lib

/-- `take(k)`, in a parser that reports as `who`. -/
def take (who : String) (k : Nat) (rest : Bytes) :
    Except PyErr (Bytes × Bytes) :=
  if k ≤ rest.length then .ok (rest.take k, rest.drop k)
  else invalid (who ++ ": truncated transaction")

/-- `take_compact()`. -/
def takeCompact (who : String) (rest : Bytes) : Except PyErr (Nat × Bytes) := do
  let (first, rest) ← take who 1 rest
  let v := leNat first
  -- non-minimal encodings pass, as in the source
  if v < 0xFD then return (v, rest)
  let size := if v = 0xFD then 2 else if v = 0xFE then 4 else 8
  let (raw, rest) ← take who size rest
  return (leNat raw, rest)

/-- Skip the segwit marker and flag when they are there. -/
def skipSegwit : Bytes → Bytes
  | 0x00 :: 0x01 :: rest => rest
  | rest => rest

/-- Read `count` inputs of a transaction of `n` bytes. -/
def takePrevouts (who : String) (n : Nat) : Nat → Bytes →
    Except PyErr (List Bytes × Bytes)
  | 0, rest => .ok ([], rest)
  | count + 1, rest => do
    let (prevout, rest) ← take who 36 rest
    let (slen, rest) ← takeCompact who rest
    refuseIf (slen > n) (who ++ ": scriptSig length out of range")
    -- the script and the sequence number are skipped, with their lengths
    -- checked
    let (_, rest) ← take who slen rest
    let (_, rest) ← take who 4 rest
    let (prevouts, rest) ← takePrevouts who n count rest
    return (prevout :: prevouts, rest)

/-- `btc_input_outpoints_from_raw`. -/
def btcInputOutpointsFromRaw (rawTx : Bytes) : Except PyErr (List Bytes) := do
  let who := "btc_input_outpoints_from_raw"
  let (_, rest) ← take who 4 rawTx
  let (nIn, rest) ← takeCompact who (skipSegwit rest)
  refuseIf (nIn = 0 ∨ nIn > 100000) (who ++ ": bad input count")
  let (prevouts, _) ← takePrevouts who rawTx.length nIn rest
  return prevouts

/-! ## The strict walk -/

/-- `take_compact()` of `btc_txid_from_raw`: the value and the exact bytes
consumed. -/
def takeCompactRaw (who : String) (rest : Bytes) :
    Except PyErr ((Nat × Bytes) × Bytes) := do
  let (first, rest) ← take who 1 rest
  let v := leNat first
  if v < 0xFD then return ((v, first), rest)
  let size := if v = 0xFD then 2 else if v = 0xFE then 4 else 8
  let (raw, rest) ← take who size rest
  return ((leNat raw, first ++ raw), rest)

/-- A script with the length bytes in front of it. -/
structure RawScript where
  size : Bytes
  script : Bytes

def RawScript.bytes (s : RawScript) : Bytes := s.size ++ s.script

/-- A length that the transaction of `n` bytes could hold, and as many bytes;
`what` names it in the refusal. -/
def takeScript (who what : String) (n : Nat) (rest : Bytes) :
    Except PyErr (RawScript × Bytes) := do
  let ((slen, size), rest) ← takeCompactRaw who rest
  refuseIf (slen > n) (who ++ ": " ++ what ++ " length out of range")
  let (script, rest) ← take who slen rest
  return (⟨size, script⟩, rest)

structure RawInput where
  prevout : Bytes
  script : RawScript
  sequence : Bytes

def RawInput.bytes (i : RawInput) : Bytes :=
  i.prevout ++ i.script.bytes ++ i.sequence

structure RawOutput where
  value : Bytes
  script : RawScript

def RawOutput.bytes (o : RawOutput) : Bytes := o.value ++ o.script.bytes

def takeInputs (who : String) (n : Nat) : Nat → Bytes →
    Except PyErr (List RawInput × Bytes)
  | 0, rest => .ok ([], rest)
  | count + 1, rest => do
    let (prevout, rest) ← take who 36 rest
    let (script, rest) ← takeScript who "scriptSig" n rest
    let (sequence, rest) ← take who 4 rest
    let (inputs, rest) ← takeInputs who n count rest
    return (⟨prevout, script, sequence⟩ :: inputs, rest)

def takeOutputs (who : String) (n : Nat) : Nat → Bytes →
    Except PyErr (List RawOutput × Bytes)
  | 0, rest => .ok ([], rest)
  | count + 1, rest => do
    let (value, rest) ← take who 8 rest
    let (script, rest) ← takeScript who "scriptPubKey" n rest
    let (outputs, rest) ← takeOutputs who n count rest
    return (⟨value, script⟩ :: outputs, rest)

/-- One witness stack, read only to be skipped. -/
def skipItems (who : String) (n : Nat) : Nat → Bytes → Except PyErr Bytes
  | 0, rest => .ok rest
  | count + 1, rest => do
    let (_, rest) ← takeScript who "witness item" n rest
    skipItems who n count rest

def skipStacks (who : String) (n : Nat) : Nat → Bytes → Except PyErr Bytes
  | 0, rest => .ok rest
  | count + 1, rest => do
    let ((nItems, _), rest) ← takeCompactRaw who rest
    refuseIf (nItems > 100000) (who ++ ": bad witness item count")
    let rest ← skipItems who n nItems rest
    skipStacks who n count rest

/-- The witness section, when there is one. -/
def skipWitness (who : String) (n : Nat) (segwit : Bool) (nIn : Nat)
    (rest : Bytes) :
    Except PyErr Bytes :=
  if segwit then skipStacks who n nIn rest else .ok rest

/-- The pieces of a transaction outside its witness section, as they stand on
the wire. -/
structure RawParts where
  version : Bytes
  nIn : Bytes
  inputs : List RawInput
  nOut : Bytes
  outputs : List RawOutput
  locktime : Bytes

/-- `version + bytes(vin) + bytes(vout) + locktime`. -/
def RawParts.nonWitness (t : RawParts) : Bytes :=
  t.version ++ (t.nIn ++ t.inputs.flatMap RawInput.bytes) ++
    (t.nOut ++ t.outputs.flatMap RawOutput.bytes) ++ t.locktime

/-- Is this the segwit marker and flag? -/
def isSegwit : Bytes → Bool
  | 0x00 :: 0x01 :: _ => true
  | _ => false

/-- The walk `btc_txid_from_raw` and `btc_spend_fields_from_raw` share. Only the
second refuses a transaction without outputs. -/
def takeTx (who : String) (needsOutput : Bool) (rawTx : Bytes) :
    Except PyErr RawParts := do
  let n := rawTx.length
  let (version, rest) ← take who 4 rawTx
  let segwit := isSegwit rest
  let ((nIn, nInB), rest) ← takeCompactRaw who (skipSegwit rest)
  refuseIf (nIn = 0 ∨ nIn > 100000) (who ++ ": bad input count")
  let (inputs, rest) ← takeInputs who n nIn rest
  let ((nOut, nOutB), rest) ← takeCompactRaw who rest
  refuseIf ((needsOutput = true ∧ nOut = 0) ∨
    nOut > 100000) (who ++ ": bad output count")
  let (outputs, rest) ← takeOutputs who n nOut rest
  let rest ← skipWitness who n segwit nIn rest
  let (locktime, rest) ← take who 4 rest
  refuseIf (rest ≠ []) (who ++ ": trailing bytes after locktime")
  return ⟨version, nInB, inputs, nOutB, outputs, locktime⟩

/-- `btc_txid_from_raw`. -/
def btcTxidFromRaw (rawTx : Bytes) : Except PyErr String := do
  let t ← takeTx "btc_txid_from_raw" false rawTx
  return hex (hash256 t.nonWitness).reverse

structure BtcSpendFields where
  inputPrevouts : List Bytes
  inputSequences : List Nat
  outputs : List (Nat × Bytes)
deriving DecidableEq

/-- `btc_spend_fields_from_raw`. -/
def btcSpendFieldsFromRaw (rawTx : Bytes) : Except PyErr BtcSpendFields := do
  let t ← takeTx "btc_spend_fields_from_raw" true rawTx
  return ⟨t.inputs.map (·.prevout), t.inputs.map (leNat ·.sequence),
    t.outputs.map fun o => (leNat o.value, o.script.script)⟩

/-! ## The tolerant walk -/

/-- `read(k)` of `_iter_witness_stack`. -/
def readBytes (k : Nat) (rest : Bytes) : Option (Bytes × Bytes) :=
  if k ≤ rest.length then some (rest.take k, rest.drop k) else none

/-- `read_compact()`. -/
def readCompact (rest : Bytes) : Option (Nat × Bytes) := do
  let (first, rest) ← readBytes 1 rest
  let v := leNat first
  if v < 0xFD then return (v, rest)
  let size := if v = 0xFD then 2 else if v = 0xFE then 4 else 8
  let (raw, rest) ← readBytes size rest
  return (leNat raw, rest)

/-- A length of at most `n`, and as many bytes. -/
def readSized (n : Nat) (rest : Bytes) : Option (Bytes × Bytes) := do
  let (slen, rest) ← readCompact rest
  if slen > n then none else readBytes slen rest

/-- Step over `count` items of `width` bytes, a script, and `tail` bytes. -/
def readOver (n width tail : Nat) : Nat → Bytes → Option Bytes
  | 0, rest => some rest
  | count + 1, rest => do
    let (_, rest) ← readBytes width rest
    let (_, rest) ← readSized n rest
    let (_, rest) ← readBytes tail rest
    readOver n width tail count rest

def readItems (n : Nat) : Nat → Bytes → Option (List Bytes × Bytes)
  | 0, rest => some ([], rest)
  | count + 1, rest => do
    let (item, rest) ← readSized n rest
    let (items, rest) ← readItems n count rest
    return (item :: items, rest)

/-- The stacks up to the first that does not parse. -/
def readStacks (n : Nat) : Nat → Bytes → List (List Bytes)
  | 0, _ => []
  | count + 1, rest =>
    match readCompact rest with
    | none => []
    | some (nItems, rest) =>
      if nItems > 100000 then []
      else
        match readItems n nItems rest with
        | none => []
        | some (stack, rest) => stack :: readStacks n count rest

/-- What precedes the witness section: the number of inputs and the bytes
left. -/
def readToWitness (tx : Bytes) : Option (Nat × Bytes) := do
  let n := tx.length
  let (_, rest) ← readBytes 4 tx
  let (markerFlag, rest) ← readBytes 2 rest
  guard (markerFlag = [0x00, 0x01])
  let (nIn, rest) ← readCompact rest
  guard (¬ (nIn = 0 ∨ nIn > 100000))
  let rest ← readOver n 36 4 nIn rest
  let (nOut, rest) ← readCompact rest
  guard (¬ nOut > 100000)
  let rest ← readOver n 8 0 nOut rest
  return (nIn, rest)

/-- `_iter_witness_stack`. -/
def iterWitnessStack (claimTxBytes : Bytes) : List (List Bytes) :=
  match readToWitness claimTxBytes with
  | none => []
  | some (nIn, rest) => readStacks claimTxBytes.length nIn rest

/-- `scrape_secret`, for a hashlock that is already bytes. -/
def scrapeSecret (claimTxBytes hashlock : Bytes) : Except PyErr Bytes := do
  refuseIf (hashlock.length ≠ 32)
    ("hashlock must be 32 bytes, got " ++ toString hashlock.length)
  let item := (iterWitnessStack claimTxBytes).flatten.find? fun item =>
    item.length == 32 && sha256 item == hashlock
  match item with
  | some p => .ok p
  | none =>
    invalid "no witness push hashes to the hashlock (not a claim tx for this swap)"

end Pyrxd.Btc
