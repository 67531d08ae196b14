import Pyrxd.Lib.Dict

/-!
# The funded ETH HTLC locator

`EthHtlcLocator` of `eth_wallet/locator.py`. Unlike the BTC locator its decoder
hands the wire values to the constructor as they are (no `int()`/`str()`), so a
value of the wrong type is refused by `__post_init__` and a missing key is
turned into a `ValidationError`.
-/

namespace Pyrxd.Eth

open Pyrxd.Lib

structure EthHtlcLocatorFields where
  chainId : Int
  contractAddress : String
  deployTxHash : String
  hashlock : String
  claimant : String
  refundee : String
  timeout : Int
  amountWei : Int
deriving DecidableEq, Repr

/-- `s.startswith("0x")`. -/
def startsWith0x (s : String) : Bool := s.toList.take 2 == ['0', 'x']

/-- `bytes.fromhex(s[2:])` raises. -/
def badHexTail (s : String) : Bool := (fromHexChars (s.toList.drop 2)).isNone

/-- `_check_hex_addr`. -/
def checkHexAddr (name val : String) : Except PyErr Unit := do
  refuseIf (startsWith0x val = false ∨ val.length ≠ 42)
    (name ++ " must be a 0x-prefixed 20-byte hex address")
  refuseIf (badHexTail val) (name ++ " is not valid hex")

/-- `EthHtlcLocator.__post_init__`. -/
def EthHtlcLocatorFields.postInit (f : EthHtlcLocatorFields) :
    Except PyErr Unit := do
  refuseIf (f.chainId ≤ 0) "chain_id must be a positive int"
  checkHexAddr "contract_address" f.contractAddress
  checkHexAddr "claimant" f.claimant
  checkHexAddr "refundee" f.refundee
  refuseIf (startsWith0x f.deployTxHash =
    false) "deploy_tx_hash must be a 0x-prefixed hex hash"
  refuseIf (startsWith0x f.hashlock = false ∨ f.hashlock.length ≠ 66)
    "hashlock must be a 0x-prefixed 32-byte hex string"
  refuseIf (badHexTail f.hashlock) "hashlock is not valid hex"
  refuseIf (f.timeout < 0) "timeout must be a non-negative int"
  refuseIf (f.amountWei < 0) "amount_wei must be a non-negative int"
  refuseIf (f.amountWei =
    0) "amount_wei must be > 0 (the contract rejects a zero-value deploy)"

structure EthHtlcLocator extends EthHtlcLocatorFields where
  valid : toEthHtlcLocatorFields.postInit = .ok ()
deriving DecidableEq

namespace EthHtlcLocator

def new (f : EthHtlcLocatorFields) : Except PyErr EthHtlcLocator := do
  let h ← postInitOk EthHtlcLocatorFields.postInit f
  return ⟨f, h.down⟩

def toDict (l : EthHtlcLocator) : PyVal :=
  .dict
    [("chain_id", .int l.chainId),
     ("contract_address", .str l.contractAddress),
     ("deploy_tx_hash", .str l.deployTxHash),
     ("hashlock", .str l.hashlock),
     ("claimant", .str l.claimant),
     ("refundee", .str l.refundee),
     ("timeout", .int l.timeout),
     ("amount_wei", .int l.amountWei)]

/-- `d[k]` with the `KeyError` turned into a `ValidationError`. -/
def field (d : PyVal) (k : String) : Except PyErr PyVal :=
  match d with
  | .dict kvs =>
    match kvs.lookup k with
    | some v => .ok v
    | none => invalid ("EthHtlcLocator.from_dict missing key: '" ++ k ++ "'")
  | _ => .error (.other "object is not subscriptable")

/-- A wire value the constructor accepts as an int. -/
def intField (d : PyVal) (k msg : String) : Except PyErr Int := do
  match ← field d k with
  | .int n => .ok n
  | _ => invalid msg

/-- A wire value the constructor accepts as a str. -/
def strField (d : PyVal) (k msg : String) : Except PyErr String := do
  match ← field d k with
  | .str s => .ok s
  | _ => invalid msg

def fromDict (d : PyVal) : Except PyErr EthHtlcLocator := do
  let chainId ← intField d "chain_id" "chain_id must be a positive int"
  let contractAddress ← strField d "contract_address"
    "contract_address must be a 0x-prefixed 20-byte hex address"
  let deployTxHash ← strField d "deploy_tx_hash"
    "deploy_tx_hash must be a 0x-prefixed hex hash"
  let hashlock ← strField d "hashlock"
    "hashlock must be a 0x-prefixed 32-byte hex string"
  let claimant ← strField d "claimant"
    "claimant must be a 0x-prefixed 20-byte hex address"
  let refundee ← strField d "refundee"
    "refundee must be a 0x-prefixed 20-byte hex address"
  let timeout ← intField d "timeout" "timeout must be a non-negative int"
  let amountWei ← intField d "amount_wei"
    "amount_wei must be a non-negative int"
  new ⟨chainId, contractAddress, deployTxHash, hashlock, claimant, refundee,
    timeout, amountWei⟩

/-- **Locator round trip.** -/
theorem fromDict_toDict (l : EthHtlcLocator) : fromDict l.toDict = .ok l := by
  simp [fromDict, toDict, intField, strField, field, List.lookup_cons, new,
    postInitOk_of l.valid]

end EthHtlcLocator

end Pyrxd.Eth
