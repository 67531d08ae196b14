import Pyrxd.Btc.Htlc
import Pyrxd.Spv.Proof

/-!
# The taker's payment

`btc_wallet/payment.py`: a transaction with one input and one or two outputs,
written out by hand, with its BIP143 signature hash. `_encode_varint` is
`compactSize` here, and `unhex` the `bytes.fromhex` the utxo's txid goes
through, which steps over blanks and takes any even number of digits.
-/

namespace Pyrxd.Btc

open Pyrxd.Lib Pyrxd.Spv

/-- `DUST_LIMIT`. -/
def dustLimit : Int := 546

/-- `_SEQUENCE`. -/
def finalSequence : Bytes := [0xFF, 0xFF, 0xFF, 0xFF]

/-- What `build_payment_tx` reads of a `BtcKeypair`. -/
structure BtcKeypair where
  privkey : Bytes
  pubkeyBytes : Bytes
  pkh : Bytes
  compressed : pubkeyBytes.length = 33
  hashed : pkh.length = 20

structure BtcUtxo where
  txid : String
  vout : Int
  value : Int

/-- `input_type`; any other text is refused. -/
inductive InputType where
  | p2wpkh
  | p2shP2wpkh
deriving DecidableEq

structure BtcPaymentTx where
  txHex : String
  txid : String
  feeSats : Int
  changeSats : Int
  inputType : InputType
  outputType : ReceiveType

/-- The code `<Q`. -/
def packU64 : Int → Except PyErr Bytes := structPack 0 (2 ^ 64) 8

/-- `_output_script`. -/
def outputScript : ReceiveType → Bytes → Bytes
  | .p2pkh, toHash => [0x76, 0xA9, 0x14] ++ toHash ++ [0x88, 0xAC]
  | .p2wpkh, toHash => [0x00, 0x14] ++ toHash
  | .p2sh, toHash => [0xA9, 0x14] ++ toHash ++ [0x87]
  | .p2tr, toHash => [0x51, 0x20] ++ toHash

/-- The script that unlocks the input: nothing, or a push of the redeem
script. -/
def InputType.scriptSig (pkh : Bytes) : InputType → Bytes
  | .p2wpkh => []
  | .p2shP2wpkh => [0x16] ++ ([0x00, 0x14] ++ pkh)

/-- `struct.pack("<Q", value) + _encode_varint(len(script)) + script`. -/
def paymentOutput (value : Int) (script : Bytes) : Except PyErr Bytes := do
  let valueB ← packU64 value
  let scriptB ← sized script
  return valueB ++ scriptB

/-- The payment, and the change where it is worth an output of its own. -/
def paymentOutputs (pkh toHash : Bytes) (toType : ReceiveType)
    (amountSats changeSats : Int) :
    Except PyErr (List Bytes) := do
  let output0 ← paymentOutput amountSats (outputScript toType toHash)
  if changeSats ≥ dustLimit then
    let output1 ← paymentOutput changeSats ([0x00, 0x14] ++ pkh)
    return [output0, output1]
  else return [output0]

/-- The BIP143 preimage of the only input. -/
def bip143Preimage (version prevout pkh : Bytes) (value : Int)
    (outputs locktime : Bytes) :
    Except PyErr Bytes := do
  let scriptCode ← sized ([0x76, 0xA9, 0x14] ++ pkh ++ [0x88, 0xAC])
  let valueB ← packU64 value
  let sighashType ← packU32 1
  return version ++ hash256 prevout ++ hash256 finalSequence ++ prevout ++
    scriptCode ++ valueB ++
    finalSequence ++ hash256 outputs ++ locktime ++ sighashType

/-- `build_payment_tx`, with
`coincurve.PrivateKey(raw).sign(digest, hasher=None)` as `sign`. -/
def buildPaymentTx (sign : Bytes → Bytes → Except PyErr Bytes)
    (keypair : BtcKeypair)
    (utxo : BtcUtxo) (toHash : Bytes) (toType : ReceiveType)
    (amountSats feeSats : Int)
    (inputType : InputType) : Except PyErr BtcPaymentTx := do
  refuseIf (toHash.length ≠ toType.hashLength)
    (toType.name ++ " to_hash must be " ++ toString toType.hashLength ++
      " bytes, got " ++
      toString toHash.length)
  let changeSats := utxo.value - amountSats - feeSats
  refuseIf (changeSats < 0)
    ("insufficient funds: utxo=" ++ toString utxo.value ++ ", amount=" ++
      toString amountSats ++
      ", fee=" ++ toString feeSats)
  -- below the dust limit the change goes to the miner
  let actualChange := if changeSats ≥ dustLimit then changeSats else 0
  let version ← packU32 2
  let locktime ← packU32 0
  let txid ← unhex utxo.txid
  let voutB ← packU32 utxo.vout
  let prevout := txid.reverse ++ voutB
  let scriptSig ← sized (inputType.scriptSig keypair.pkh)
  let outputs ← paymentOutputs keypair.pkh toHash toType amountSats changeSats
  let preimage ← bip143Preimage version prevout keypair.pkh utxo.value
    outputs.flatten locktime
  let sigDer ← sign keypair.privkey (hash256 preimage)
  let items := [sigDer ++ [0x01], keypair.pubkeyBytes]
  let nIn ← compactSize 1
  let nOut ← compactSize outputs.length
  let nItems ← compactSize items.length
  let itemsB ← items.mapM sized
  let inputsSection := nIn ++ (prevout ++ scriptSig ++ finalSequence)
  let outputsBytes := nOut ++ outputs.flatten
  let segwitTx := version ++ [0x00, 0x01] ++ inputsSection ++ outputsBytes ++
    (nItems ++ itemsB.flatten) ++ locktime
  let nonWitnessTx := version ++ inputsSection ++ outputsBytes ++ locktime
  return ⟨hex segwitTx, hex (hash256 nonWitnessTx).reverse, feeSats,
    actualChange, inputType, toType⟩

end Pyrxd.Btc
