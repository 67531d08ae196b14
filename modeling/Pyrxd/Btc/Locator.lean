import Pyrxd.Lib.Dict

/-!
# The funded BTC HTLC locator

`BtcOutpoint`, `ScriptTree` and `BtcHtlcLocator` of `btc_wallet/taproot.py`: the
durable state without which a funded Taproot HTLC cannot be claimed or refunded.
Each dataclass is its fields plus the fact that its `__post_init__` accepted
them, so a locator that exists is a valid one.

Main result: `BtcHtlcLocator.fromDict_toDict` — a locator survives its wire
form. The derived properties (`output_key`, `scriptpubkey`, `address`) are not
modelled here; no function of this layer reads them.
-/

namespace Pyrxd.Btc

open Pyrxd.Lib

/-- `LEAF_VERSION_TAPSCRIPT`. -/
def leafVersionTapscript : Int := 0xC0

/-! ## Funding outpoint -/

structure BtcOutpointFields where
  txid : String
  vout : Int
deriving DecidableEq, Repr

/-- `BtcOutpoint.__post_init__`. -/
def BtcOutpointFields.postInit (f : BtcOutpointFields) : Except PyErr Unit := do
  refuseIf (f.txid.length ≠ 64) "BtcOutpoint.txid must be 64-char hex"
  refuseIf (fromHex f.txid = none) "BtcOutpoint.txid must be hex"
  refuseIf (f.vout < 0) "BtcOutpoint.vout must be a non-negative int"

structure BtcOutpoint extends BtcOutpointFields where
  valid : toBtcOutpointFields.postInit = .ok ()
deriving DecidableEq

namespace BtcOutpoint

def new (f : BtcOutpointFields) : Except PyErr BtcOutpoint := do
  let h ← postInitOk BtcOutpointFields.postInit f
  return ⟨f, h.down⟩

/-- The 36-byte wire outpoint: txid little-endian, then vout little-endian.
`struct.pack("<I", vout)` refuses a vout of more than 32 bits. -/
def prevoutBytes (o : BtcOutpoint) : Except PyErr Bytes :=
  if o.vout ≥ 4294967296 then .error (.other "argument out of range")
  else
    let v := o.vout.toNat
    .ok (((fromHex o.txid).getD []).reverse ++
      [UInt8.ofNat v, UInt8.ofNat (v >>> 8), UInt8.ofNat (v >>> 16),
        UInt8.ofNat (v >>> 24)])

def toDict (o : BtcOutpoint) : PyVal :=
  .dict [("txid", .str o.txid), ("vout", .int o.vout)]

def fromDict (d : PyVal) : Except PyErr BtcOutpoint := do
  let txid ← (← d.item "txid").toStr
  let vout ← (← d.item "vout").toInt
  new ⟨txid, vout⟩

/-- An outpoint survives its dictionary. -/
theorem fromDict_toDict (o : BtcOutpoint) : fromDict o.toDict = .ok o := by
  simp [fromDict, toDict, new, postInitOk_of o.valid]

end BtcOutpoint

/-! ## Script tree -/

structure ScriptTreeFields where
  claimScript : Bytes
  refundScript : Bytes
  leafVersion : Int
deriving DecidableEq, Repr

/-- `ScriptTree.__post_init__`. -/
def ScriptTreeFields.postInit (f : ScriptTreeFields) : Except PyErr Unit :=
  refuseIf (f.leafVersion % 2 = 1)
    "leaf_version low bit must be 0 (parity is carried by the control block)"

structure ScriptTree extends ScriptTreeFields where
  valid : toScriptTreeFields.postInit = .ok ()
deriving DecidableEq

def ScriptTree.new (f : ScriptTreeFields) : Except PyErr ScriptTree := do
  let h ← postInitOk ScriptTreeFields.postInit f
  return ⟨f, h.down⟩

/-! ## Locator -/

structure BtcHtlcLocatorFields where
  fundingOutpoint : BtcOutpoint
  scriptTree : ScriptTree
  controlBlockClaim : Bytes
  controlBlockRefund : Bytes
  internalKey : Bytes
  amountSats : Int
  network : String
deriving DecidableEq

/-- `_as_bytes(value, name=name, length=length)` on a value that is already
bytes. -/
def asBytes (b : Bytes) (name : String) (length : Nat) : Except PyErr Unit :=
  refuseIf (b.length ≠ length)
    (name ++ " must be " ++ toString length ++ " bytes, got " ++
      toString b.length)

/-- `BtcHtlcLocator.__post_init__`. -/
def BtcHtlcLocatorFields.postInit (f : BtcHtlcLocatorFields) :
    Except PyErr Unit := do
  asBytes f.controlBlockClaim "control_block_claim" 65
  asBytes f.controlBlockRefund "control_block_refund" 65
  asBytes f.internalKey "internal_key" 32
  refuseIf (f.amountSats ≤ 0) "amount_sats must be a positive int"
  refuseIf (f.network = "") "network must be a non-empty string"

structure BtcHtlcLocator extends BtcHtlcLocatorFields where
  valid : toBtcHtlcLocatorFields.postInit = .ok ()
deriving DecidableEq

namespace BtcHtlcLocator

def new (f : BtcHtlcLocatorFields) : Except PyErr BtcHtlcLocator := do
  let h ← postInitOk BtcHtlcLocatorFields.postInit f
  return ⟨f, h.down⟩

/-- JSON/hex form; the preimage is not a field and is never written. -/
def toDict (l : BtcHtlcLocator) : PyVal :=
  .dict
    [("funding_outpoint", l.fundingOutpoint.toDict),
     ("claim_script", .str (hex l.scriptTree.claimScript)),
     ("refund_script", .str (hex l.scriptTree.refundScript)),
     ("leaf_version", .int l.scriptTree.leafVersion),
     ("control_block_claim", .str (hex l.controlBlockClaim)),
     ("control_block_refund", .str (hex l.controlBlockRefund)),
     ("internal_key", .str (hex l.internalKey)),
     ("amount_sats", .int l.amountSats),
     ("network", .str l.network)]

def fromDict (d : PyVal) : Except PyErr BtcHtlcLocator := do
  let claimScript ← (← d.item "claim_script").toBytes
  let refundScript ← (← d.item "refund_script").toBytes
  let leafVersion ← (← d.get "leaf_version" (.int leafVersionTapscript)).toInt
  let tree ← ScriptTree.new ⟨claimScript, refundScript, leafVersion⟩
  let fundingOutpoint ← BtcOutpoint.fromDict (← d.item "funding_outpoint")
  let controlBlockClaim ← (← d.item "control_block_claim").toBytes
  let controlBlockRefund ← (← d.item "control_block_refund").toBytes
  let internalKey ← (← d.item "internal_key").toBytes
  let amountSats ← (← d.item "amount_sats").toInt
  let network ← (← d.get "network" (.str "bc")).toStr
  new ⟨fundingOutpoint, tree, controlBlockClaim, controlBlockRefund,
    internalKey, amountSats, network⟩

/-- **Locator round trip.** -/
theorem fromDict_toDict (l : BtcHtlcLocator) : fromDict l.toDict = .ok l := by
  simp [fromDict, toDict, new, ScriptTree.new, BtcOutpoint.fromDict_toDict,
    postInitOk_of l.valid, postInitOk_of l.scriptTree.valid]

end BtcHtlcLocator

end Pyrxd.Btc
