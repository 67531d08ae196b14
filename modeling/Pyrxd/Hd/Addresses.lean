import Pyrxd.Lib.OrderedMap
import Pyrxd.Lib.GapScan
import Pyrxd.Wallet.Send

/-!
# The address book of a wallet

`HdWallet` of `hd/wallet.py` as the addresses it knows: the gap-limit scan that
marks them as used, the addresses it hands out and what it asks about the used
ones. A dict key is the pair that `f"{change}/{index}"` spells.

Every call has an `ElectrumXClient` of its own, which either knows what the
chain says of a script or fails; a scan that is given too little fuel has not
ended (`none`).
-/

namespace Pyrxd.Hd

open Pyrxd.Lib Pyrxd.Tx
open Pyrxd.Gravity (UtxoRecord)
open Pyrxd.Wallet (lockAddress gapLimit InternalChain)

/-! ## What the server is asked -/

/-- `script_hash_for_address`. -/
def scriptHashForAddress (address : String) : Except PyErr Bytes := do
  let locking ← lockAddress address
  return (sha256 locking).reverse

structure HistoryItem where
  txHash : String
  height : Int

/-- An `ElectrumXClient` during one call: what the chain says of a script, and
whether a question about it fails. -/
structure ElectrumXClient where
  history : Bytes → List HistoryItem
  balance : Bytes → Int × Int
  utxos : Bytes → List UtxoRecord
  failure : Bytes → Option PyErr

namespace ElectrumXClient

variable (client : ElectrumXClient) (scriptHash : Bytes)

def answer {α : Type} (a : α) : Except PyErr α :=
  match client.failure scriptHash with
  | some e => .error e
  | none => .ok a

/-- `get_history`. -/
def getHistory : Except PyErr (List HistoryItem) :=
  client.answer scriptHash (client.history scriptHash)

/-- `get_balance`. -/
def getBalance : Except PyErr (Int × Int) :=
  client.answer scriptHash (client.balance scriptHash)

/-- `get_utxos`. -/
def getUtxos : Except PyErr (List UtxoRecord) :=
  client.answer scriptHash (client.utxos scriptHash)

end ElectrumXClient

/-! ## The wallet -/

structure AddressRecord where
  address : String
  change : Nat
  index : Nat
  used : Bool
deriving DecidableEq

structure AddressBook (Secret : Type) where
  keys : HdWallet Secret
  addresses : OrderedMap (Nat × Nat) AddressRecord
  externalTip : Nat
  internalTip : Nat

/-- A new wallet. -/
def HdWallet.book {Secret : Type} (keys : HdWallet Secret) :
    AddressBook Secret := ⟨keys, .empty, 0, 0⟩

/-- `max((r.index for ... if r.change == change and r.used), default=-1) + 1`. -/
def tipOf (addresses : OrderedMap (Nat × Nat) AddressRecord)
    (change : Nat) : Nat :=
  ((addresses.values.filter fun r => r.change = change ∧
    r.used = true).map fun r => r.index + 1).foldr max 0

variable {Key Secret : Type} (hd : HdCurve Key Secret)

/-- The address at `change/index`, and whether it has history. -/
def HdWallet.look (keys : HdWallet Secret) (client : ElectrumXClient)
    (change index : Nat) :
    Except PyErr (String × Bool) := do
  let address ← keys.deriveAddress hd change index
  let scriptHash ← scriptHashForAddress address
  let hist ← client.getHistory scriptHash
  return (address, !hist.isEmpty)

/-- The variables of the loop of `_scan_chain`, and the dict it writes. -/
structure Scan where
  index : Nat
  consecutiveUnused : Nat
  newlyUsed : Nat
  addresses : OrderedMap (Nat × Nat) AddressRecord

/-- What the loop does with an answer. -/
def Scan.next (t : Scan) (change : Nat) (address : String)
    (isUsed : Bool) : Scan where
  index := t.index + 1
  consecutiveUnused := if isUsed then 0 else t.consecutiveUnused + 1
  newlyUsed :=
    if isUsed ∧ (t.addresses.get? (change, t.index)).all
      (fun old => !old.used) then t.newlyUsed + 1 else t.newlyUsed
  addresses := t.addresses.set (change, t.index) ⟨address, change,
    t.index, isUsed⟩

/-- The loop of `_scan_chain`. -/
def HdWallet.scanLoop (keys : HdWallet Secret) (client : ElectrumXClient)
    (change : Nat) :
    Nat → Scan → Option (Except PyErr Unit × Scan)
  | 0, _ => none
  | fuel + 1, t =>
    if t.consecutiveUnused < gapLimit then
      match keys.look hd client change t.index with
      | .error e => some (.error e, t)
      | .ok (address, isUsed) =>
        scanLoop keys client change fuel (t.next change address isUsed)
    else some (.ok (), t)

namespace AddressBook

variable (w : AddressBook Secret)

def withTip (change tip : Nat) : AddressBook Secret :=
  if change = 0 then { w with externalTip := tip }
    else { w with internalTip := tip }

/-- `_scan_chain`. -/
def scanChain (client : ElectrumXClient) (change fuel : Nat) :
    Option (Except PyErr Nat × AddressBook Secret) :=
  match w.keys.scanLoop hd client change fuel ⟨0, 0, 0, w.addresses⟩ with
  | none => none
  | some (.error e, t) => some (.error e, { w with addresses := t.addresses })
  | some (.ok (), t) =>
    some (.ok t.newlyUsed, { w with addresses := t.addresses }.withTip change
      (tipOf t.addresses change))

/-- `refresh`. -/
def refresh (client : ElectrumXClient) (fuel : Nat) :
    Option (Except PyErr Nat × AddressBook Secret) :=
  match w.scanChain hd client 0 fuel with
  | none => none
  | some (.error e, w) => some (.error e, w)
  | some (.ok external, w) =>
    match w.scanChain hd client 1 fuel with
    | none => none
    | some (.error e, w) => some (.error e, w)
    | some (.ok internal, w) => some (.ok (external + internal), w)

/-- `rec is not None and rec.used`. -/
def isUsed (change index : Nat) : Bool :=
  (w.addresses.get? (change, index)).any AddressRecord.used

/-- The first index below the tip and a gap that is not marked as used. -/
def firstUnused (change tip : Nat) : Option Nat :=
  (List.range (tip + gapLimit)).find? fun i => !w.isUsed change i

/-- `self.addresses[pkey] = AddressRecord(..., used=False)`, of a derived
address. -/
def record (change index : Nat) : Except PyErr String × AddressBook Secret :=
  match w.keys.deriveAddress hd change index with
  | .error e => (.error e, w)
  | .ok address =>
    (.ok address, { w with addresses := w.addresses.set (change, index) ⟨address, change, index, false⟩ })

/-- `next_receive_address`. -/
def nextReceiveAddress : Except PyErr String × AddressBook Secret :=
  match w.firstUnused 0 w.externalTip with
  | some index =>
    match w.addresses.get? (0, index) with
    | some r => (.ok r.address, w)
    | none => w.record hd 0 index
  | none => w.record hd 0 (w.externalTip + gapLimit)

/-- `_next_change_index`. -/
def nextChangeIndex : Except PyErr Nat × AddressBook Secret :=
  match w.firstUnused 1 w.internalTip with
  | some index =>
    match w.addresses.get? (1, index) with
    | some _ => (.ok index, w)
    | none =>
      ((w.record hd 1 index).1.map fun _ => index, (w.record hd 1 index).2)
  | none => (.ok (w.internalTip + gapLimit), w)

/-- The known addresses that are marked as used. -/
def usedRecords : List AddressRecord :=
  w.addresses.values.filter AddressRecord.used

/-- The answers of `asyncio.gather(..., return_exceptions=True)`. -/
def gather {α : Type} (query : Bytes → Except PyErr α) :
    Except PyErr (List (Except PyErr α)) := do
  let hashes ← w.usedRecords.mapM fun r => scriptHashForAddress r.address
  return hashes.map query

/-- What an answer adds to the total. -/
def addsBalance : Except PyErr (Int × Int) → Int
  | .ok (confirmed, unconfirmed) => confirmed + unconfirmed
  | .error _ => 0

/-- What an answer adds to the list. -/
def addsUtxos : Except PyErr (List UtxoRecord) → List UtxoRecord
  | .ok utxos => utxos
  | .error _ => []

/-- `get_balance`. -/
def getBalance (client : ElectrumXClient) : Except PyErr Int :=
  if w.usedRecords = [] then .ok 0 else do
    let results ← w.gather client.getBalance
    return (results.map addsBalance).sum

/-- `get_utxos`. -/
def getUtxos (client : ElectrumXClient) : Except PyErr (List UtxoRecord) :=
  if w.usedRecords = [] then .ok [] else do
    let results ← w.gather client.getUtxos
    return (results.map addsUtxos).flatten

/-- The index is the one that a send puts its change at. -/
theorem nextChangeIndex_ok {index : Nat}
    (h : (w.nextChangeIndex hd).1 = .ok index) :
    index = InternalChain.nextChangeIndex ⟨w.internalTip, w.isUsed 1⟩ := by
  unfold nextChangeIndex at h
  show index = (w.firstUnused 1 w.internalTip).getD (w.internalTip + gapLimit)
  cases hfirst : w.firstUnused 1 w.internalTip with
  | none =>
    rw [hfirst] at h
    cases h
    rfl
  | some i =>
    rw [hfirst] at h
    dsimp only at h
    split at h
    · cases h
      rfl
    · cases hrecord : (w.record hd 1 i).1 with
      | error e =>
        rw [hrecord] at h
        cases h
      | ok address =>
        rw [hrecord] at h
        cases h
        rfl

end AddressBook

end Pyrxd.Hd
