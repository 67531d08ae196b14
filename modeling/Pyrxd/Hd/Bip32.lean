import Pyrxd.Swap.Partial
import Pyrxd.Tx.Address

/-!
# Extended keys

`hd/bip32.py` over `curve.py` and `keys.py`: extended private and public keys as
their 78 bytes, the derivation of a child, and of an `HdWallet` what derives
from its account key. What coincurve and HMAC-SHA512 do is taken from an
`HdCurve`; nothing is assumed of it here.
-/

namespace Pyrxd.Hd

open Pyrxd.Lib Pyrxd.Tx
open Pyrxd.Swap (Curve PrivateKey)

/-- `raise TypeError(msg)`, and what else Python and coincurve raise. -/
def raises {α : Type} (msg : String) : Except PyErr α := .error (.other msg)

/-- `n.to_bytes(k, "big")`. -/
def toBytesBe (k : Nat) (n : Int) : Except PyErr Bytes := do
  let b ← toBytesLe k n
  return b.reverse

/-- `int.from_bytes(b, "big")`. -/
def beNat (b : Bytes) : Nat := leNat b.reverse

/-! ## The curve -/

/-- `Point`. -/
abbrev Point := Nat × Nat

/-- `curve.p`, `curve.n` and `curve.g`. -/
def curveP : Nat :=
  0xFFFFFFFFFFFFFFFFFFFFFFFFFFFFFFFFFFFFFFFFFFFFFFFFFFFFFFFEFFFFFC2F
def curveN : Nat :=
  0xFFFFFFFFFFFFFFFFFFFFFFFFFFFFFFFEBAAEDCE6AF48A03BBFD25E8CD0364141
def curveG : Point :=
  (0x79BE667EF9DCBBAC55A06295CE870B07029BFCDB2DCE28D959F2815B16F81798,
   0x483ADA7726A3C4655DA4FBFC0E1108A8FD17B448A68554199C47D08FFB10D4B8)

/-- What is used of coincurve and HMAC-SHA512 for extended keys. -/
structure HdCurve (Key Secret : Type) extends Curve Key Secret where
  /-- `hmac.new(key, message, sha512).digest()`. -/
  hmacSha512 : Bytes → Bytes → Bytes
  /-- `CcPrivateKey(data)`, `CcPrivateKey.from_int(num)` and `key.secret`. -/
  parseSecret : Bytes → Except PyErr Secret
  fromInt : Nat → Except PyErr Secret
  secretBytes : Secret → Bytes
  /-- `key.point()` and `CcPublicKey.from_point(x, y)`. -/
  point : Key → Point
  fromPoint : Point → Except PyErr Key
  /-- `from_point(p).combine([from_point(q)]).point()`. -/
  combine : Point → Point → Except PyErr Point
  /-- `from_point(p).multiply(scalar).point()`. -/
  multiply : Point → Nat → Except PyErr Point

/-- `key.to_int()`. -/
def HdCurve.scalar {Key Secret : Type} (hd : HdCurve Key Secret) (s : Secret) :
    Nat := beNat (hd.secretBytes s)

/-- `on_curve`; `none` is the point at infinity. -/
def onCurve : Option Point → Bool
  | none => true
  | some (x, y) => (y * y : Int) % curveP == (x * x * x + 7 : Int) % curveP

/-- `curve_negative`. -/
def curveNegative (p : Option Point) : Except PyErr (Option Point) := do
  refuseIf (onCurve p = false) "point is not on the curve"
  match p with
  | none => .ok none
  | some (x, y) => do
    let r := some (x, (curveP - y % curveP) % curveP)
    refuseIf (onCurve r = false) "computed negative point is not on the curve"
    return r

section Curve

variable {Key Secret : Type} (hd : HdCurve Key Secret)

/-- `curve_add`. -/
def curveAdd (p q : Option Point) : Except PyErr (Option Point) := do
  refuseIf (onCurve p = false) "point p is not on the curve"
  refuseIf (onCurve q = false) "point q is not on the curve"
  match p, q with
  | none, q => .ok q
  | p, none => .ok p
  | some p, some q => do
    let negative ← curveNegative (some q)
    if some p = negative then .ok none else do
      let r ← hd.combine p q
      refuseIf (onCurve (some r) =
        false) "computed sum point is not on the curve"
      return some r

/-- `curve_multiply`, by a scalar that is not negative. -/
def curveMultiply (scalar : Nat) (point : Option Point) :
    Except PyErr (Option Point) := do
  refuseIf (onCurve point = false) "point is not on the curve"
  match point with
  | none => .ok none
  | some p =>
    if scalar % curveN = 0 then .ok none else do
      let r ← hd.multiply p (scalar % curveN)
      refuseIf (onCurve (some r) =
        false) "computed product point is not on the curve"
      return some r

/-- `PublicKey(point)`: no key is at infinity. -/
def publicKeyOfPoint : Option Point → Except PyErr Key
  | none => raises "unsupported public key type"
  | some p => hd.fromPoint p

end Curve

/-! ## Extended keys -/

/-- `XPRV_PREFIX_NETWORK_DICT.get`. -/
def networkOfXprv (b : Bytes) : Option Network :=
  if b = [0x04, 0x88, 0xAD, 0xE4] then some .mainnet
  else if b = [0x04, 0x35, 0x83, 0x94] then some .testnet
  else none

/-- `XPUB_PREFIX_NETWORK_DICT.get`. -/
def networkOfXpub (b : Bytes) : Option Network :=
  if b = [0x04, 0x88, 0xB2, 0x1E] then some .mainnet
  else if b = [0x04, 0x35, 0x87, 0xCF] then some .testnet
  else none

/-- `NETWORK_XPUB_PREFIX_DICT.get`. -/
def xpubPrefix : Network → Bytes
  | .mainnet => [0x04, 0x88, 0xB2, 0x1E]
  | .testnet => [0x04, 0x35, 0x87, 0xCF]

/-- The fields of the 78 bytes. -/
def xkeyPrefix (payload : Bytes) : Bytes := payload.take 4
def xkeyDepth (payload : Bytes) : UInt8 := payload.getD 4 0
def xkeyFingerprint (payload : Bytes) : Bytes := (payload.drop 5).take 4
def xkeyIndex (payload : Bytes) : Bytes := (payload.drop 9).take 4
def xkeyChainCode (payload : Bytes) : Bytes := (payload.drop 13).take 32
def xkeyKeyBytes (payload : Bytes) : Bytes := payload.drop 45

/-- An `Xpub`: 78 bytes with one of its prefixes. -/
structure Xpub (Key : Type) where
  payload : Bytes
  network : Network
  key : Key
  sized : payload.length = 78
  ofNetwork : networkOfXpub (xkeyPrefix payload) = some network

/-- An `Xprv`: 78 bytes with one of its prefixes. -/
structure Xprv (Secret : Type) where
  payload : Bytes
  network : Network
  key : Secret
  sized : payload.length = 78
  ofNetwork : networkOfXprv (xkeyPrefix payload) = some network

section Xkey

variable {Key Secret : Type} (hd : HdCurve Key Secret)

/-- `Xkey.__init__`, of bytes, in front of what a subclass makes of its
prefix. -/
def checkXkey {α : Type} (payload : Bytes)
    (rest : payload.length = 78 → Except PyErr α) : Except PyErr α :=
  if hlen : payload.length = 78 then do
    refuseIf (networkOfXprv (xkeyPrefix payload) = none ∧
      networkOfXpub (xkeyPrefix payload) = none)
      "invalid extended key prefix"
    rest hlen
  else invalid "invalid extended key length"

/-- `Xpub(payload)`. -/
def Xpub.ofPayload (payload : Bytes) : Except PyErr (Xpub Key) :=
  checkXkey payload fun hlen =>
    match hnet : networkOfXpub (xkeyPrefix payload) with
    | none => invalid "unknown xpub prefix"
    | some network => do
      refuseIf (¬ (payload.getD 45 0 = 0x02 ∨ payload.getD 45 0 = 0x03))
        "invalid public key in xpub"
      let key ← hd.parse (xkeyKeyBytes payload)
      return ⟨payload, network, key, hlen, hnet⟩

/-- `Xprv(payload)`. -/
def Xprv.ofPayload (payload : Bytes) : Except PyErr (Xprv Secret) :=
  checkXkey payload fun hlen =>
    match hnet : networkOfXprv (xkeyPrefix payload) with
    | none => invalid "unknown xprv prefix"
    | some network => do
      refuseIf (payload.getD 45 0 ≠ 0) "invalid private key in xprv"
      let key ← hd.parseSecret ((xkeyKeyBytes payload).drop 1)
      return ⟨payload, network, key, hlen, hnet⟩

/-- What precedes the chain code in a child: its parent's prefix, the next
depth, the parent's fingerprint and its own index. -/
def childHead (payload : Bytes) (publicKey : Bytes) (index : Bytes) :
    Except PyErr Bytes := do
  let depth ← toBytesBe 1 ((xkeyDepth payload).toNat + 1 : Nat)
  return xkeyPrefix payload ++ depth ++ (hd.hash160 publicKey).take 4 ++ index

/-- `Xpub.ckd`. -/
def Xpub.ckd (x : Xpub Key) (index : Int) : Except PyErr (Xpub Key) := do
  let index ← toBytesBe 4 index
  refuseIf (index.headD 0 ≥ 0x80)
    ("can't make hardened derivation from xpub. " ++
      "If you use hardened key, please set xpub with path from xpriv first. Example:\n" ++
      "  master_xprv = master_xprv_from_seed(seed)\n" ++
      "  account_xprv = ckd(master_xprv, \"m/44'/0'/0'\")\n" ++
      "  account_xpub = account_xprv.xpub()")
  let serialized := hd.format x.key true
  let head ← childHead hd x.payload serialized index
  let h := hd.hmacSha512 (xkeyChainCode x.payload) (serialized ++ index)
  let product ← curveMultiply hd (beNat (h.take 32)) (some curveG)
  let sum ← curveAdd hd (some (hd.point x.key)) product
  let child ← publicKeyOfPoint hd sum
  Xpub.ofPayload hd (head ++ h.drop 32 ++ hd.format child true)

/-- `Xprv.ckd`. -/
def Xprv.ckd (x : Xprv Secret) (index : Int) : Except PyErr (Xprv Secret) := do
  let index ← toBytesBe 4 index
  let serialized := hd.format (hd.publicKey x.key) true
  let head ← childHead hd x.payload serialized index
  let message := (if index.headD 0 < 0x80 then serialized
    else xkeyKeyBytes x.payload) ++ index
  let h := hd.hmacSha512 (xkeyChainCode x.payload) message
  let child ← hd.fromInt ((hd.scalar x.key + beNat (h.take 32)) % curveN)
  Xprv.ofPayload hd (head ++ h.drop 32 ++ 0x00 :: hd.secretBytes child)

/-- `Xpub.from_xprv`. -/
def Xprv.xpub (x : Xprv Secret) : Except PyErr (Xpub Key) :=
  Xpub.ofPayload hd (xpubPrefix x.network ++ [xkeyDepth x.payload] ++
    xkeyFingerprint x.payload ++
    xkeyIndex x.payload ++ xkeyChainCode x.payload ++
      hd.format (hd.publicKey x.key) true)

/-- `PublicKey.address`. -/
def publicKeyAddress (key : Key) (network : Network) : String :=
  base58checkEncode (network.addressPrefix :: hd.hash160 (hd.format key true))

def Xpub.address (x : Xpub Key) : String := publicKeyAddress hd x.key x.network

def Xprv.address (x : Xprv Secret) : String :=
  publicKeyAddress hd (hd.publicKey x.key) x.network

/-! ## The wallet -/

/-- An `HdWallet`, as what its `_xprv` gives: the account key, or an error once
it is zeroized. -/
structure HdWallet (Secret : Type) where
  xprv : Except PyErr (Xprv Secret)

/-- The extended key at `change/index`. -/
def HdWallet.child (w : HdWallet Secret) (change index : Int) :
    Except PyErr (Xprv Secret) := do
  let acct ← w.xprv
  let chain ← acct.ckd hd change
  chain.ckd hd index

/-- `privkey_for`. -/
def HdWallet.privkeyFor (w : HdWallet Secret) (change index : Int) :
    Except PyErr (PrivateKey Secret) := do
  let child ← w.child hd change index
  return ⟨child.key, true⟩

/-- `derive_address`. -/
def HdWallet.deriveAddress (w : HdWallet Secret) (change index : Int) :
    Except PyErr String := do
  let child ← w.child hd change index
  return child.address hd

/-- `account_xpub`. -/
def HdWallet.accountXpub (w : HdWallet Secret) : Except PyErr (Xpub Key) := do
  let acct ← w.xprv
  acct.xpub hd

end Xkey

end Pyrxd.Hd
