import Pyrxd.Tx.Transaction

/-!
# Merkle paths

`merkle_path.py`: the nodes of a block's hash tree that prove some of its
transactions, level by level, with the checks of the constructor and the binary
form. A node that the path leaves out is computed from the two below it. The
strings are hex; `to_bytes(s, "hex")` drops what is neither letter nor digit and
pads an odd number of digits.
-/

namespace Pyrxd.Tx

open Pyrxd.Lib Reader

/-- `if cond: raise e`, of an exception that is no `ValidationError`. -/
def raiseIf (cond : Prop) [Decidable cond] (msg : String) : Except PyErr Unit :=
  if cond then .error (.other msg) else .ok ()

/-- A guard passes when its condition fails. -/
theorem raiseIf_ok {cond : Prop} [Decidable cond] {msg : String} {u : Unit} :
    raiseIf cond msg = .ok u ↔ ¬ cond := by
  unfold raiseIf
  by_cases h : cond
  · rw [if_pos h]
    exact ⟨nofun, fun hc => absurd h hc⟩
  · rw [if_neg h]
    exact ⟨fun _ => h, fun _ => rfl⟩

/-! ## Hex -/

/-- `int(msg[i:i+2], 16)` for every pair of digits. -/
def hexPairs : List Char → Except PyErr Bytes
  | [] => .ok []
  | [c] =>
    match hexVal c with
    | some v => .ok [UInt8.ofNat v]
    | none =>
      .error (.other ("invalid literal for int() with base 16: '" ++
        String.ofList [c] ++ "'"))
  | c :: d :: cs =>
    match hexVal c, hexVal d with
    | some hi, some lo => (hexPairs cs).map (UInt8.ofNat (16 * hi + lo) :: ·)
    | _, _ =>
      .error (.other ("invalid literal for int() with base 16: '" ++
        String.ofList [c, d] ++ "'"))

/-- `to_bytes(msg, "hex")`. -/
def toBytesHex (msg : String) : Except PyErr Bytes :=
  let digits := msg.toList.filter (·.isAlphanum)
  hexPairs (if digits.length % 2 = 0 then digits else '0' :: digits)

/-- `hash_fn`. -/
def hashFn (m : String) : Except PyErr String := do
  let b ← toBytesHex m
  return hex (hash256 b.reverse).reverse

/-! ## Leaves -/

/-- A leaf as most of the class reads it: `txid` and `duplicate` are the truth
of `leaf.get(..)`, and a `hash_str` of None is none. Whether the key `txid` is
there is asked by `combine` alone. -/
structure MerkleLeaf where
  offset : Int
  hashStr : Option String
  txid : Bool
  duplicate : Bool
deriving DecidableEq

structure MerklePath where
  blockHeight : Int
  path : List (List MerkleLeaf)

/-- `n ^ 1`. -/
def xorOne (n : Int) : Int := if n % 2 = 0 then n + 1 else n - 1

/-- `leaf["hash_str"]`. -/
def MerkleLeaf.needHash (l : MerkleLeaf) : Except PyErr String :=
  match l.hashStr with
  | some s => .ok s
  | none => .error (.other "'hash_str'")

namespace MerklePath

variable (p : MerklePath)

def level (height : Nat) : List MerkleLeaf := p.path.getD height []

/-- `next((e for e in level if e["offset"] == offset), None)`. -/
def findLeaf (level : List MerkleLeaf) (offset : Int) : Option MerkleLeaf :=
  level.find? (·.offset = offset)

/-- `if not leaf0 or not leaf0.get("hash_str")`, and the hash otherwise. -/
def usableHash (leaf : Option MerkleLeaf) : Option String :=
  match leaf.bind (·.hashStr) with
  | some s => if s = "" then none else some s
  | none => none

/-- `find_or_compute_leaf`, of a height below that of the path. -/
def findOrComputeLeaf : Nat → Int → Except PyErr (Option MerkleLeaf)
  | 0, offset => .ok (findLeaf (p.level 0) offset)
  | h + 1, offset =>
    match findLeaf (p.level (h + 1)) offset with
    | some leaf => .ok (some leaf)
    | none => do
      let leaf0 ← findOrComputeLeaf h (2 * offset)
      match usableHash leaf0 with
      | none => return none
      | some hash0 =>
        let leaf1 ← findOrComputeLeaf h (2 * offset + 1)
        match leaf1 with
        | none => return none
        | some leaf1 =>
          let hash1 ← (if leaf1.duplicate then .ok hash0 else leaf1.needHash)
          let workingHash ← hashFn (hash1 ++ hash0)
          return some ⟨offset, some workingHash, false, false⟩

/-- The loop of `compute_root`, at `height` with `n` levels to go. -/
def climbFrom (index : Int) : Nat → Nat → String → Except PyErr String
  | 0, _, workingHash => .ok workingHash
  | n + 1, height, workingHash => do
    let offset := xorOne (index / 2 ^ height)
    let leaf ← p.findOrComputeLeaf height offset
    match leaf with
    | none =>
      .error (.other ("Missing hash for index " ++ toString index ++
        " at height " ++ toString height))
    | some leaf =>
      let sibling ← (if leaf.duplicate then .ok workingHash else leaf.needHash)
      let workingHash ← hashFn (
        if leaf.duplicate = false ∧ offset % 2 ≠ 0 then sibling ++ workingHash
          else workingHash ++ sibling)
      climbFrom index n (height + 1) workingHash

/-- `compute_root`. -/
def computeRoot (txid : Option String) : Except PyErr String := do
  let txid ← (
    match txid.or ((p.level 0).findSome? (·.hashStr)) with
    | some s => .ok s
    | none => .error (.other ""))
  match (p.level 0).find? (·.hashStr = some txid) with
  | none => .error (.other ("This proof does not contain the txid: " ++ txid))
  | some leaf => p.climbFrom leaf.offset p.path.length 0 txid

/-! ## The constructor -/

/-- The offsets that the leaves of the lowest level allow at a height. -/
def legalOffsets (height : Nat) : List Int :=
  ((p.level 0).filter (!·.duplicate)).map fun leaf =>
    xorOne (leaf.offset / 2 ^ height)

/-- The loop over the leaves of one level; `showSet` is the members of a set as
they come out of it. -/
def checkLevel (showSet : List Int → String) (height : Nat) :
    List Int → List MerkleLeaf → Except PyErr Unit
  | _, [] => .ok ()
  | seen, leaf :: rest => do
    raiseIf (leaf.offset ∈ seen)
      ("Duplicate offset: " ++ toString leaf.offset ++ ", at height: " ++
        toString height)
    raiseIf (height ≠ 0 ∧ leaf.offset ∉ p.legalOffsets height)
      ("Invalid offset: " ++ toString leaf.offset ++ ", at height: " ++
        toString height ++
        ", with legal offsets: " ++ showSet (p.legalOffsets height))
    checkLevel showSet height (leaf.offset :: seen) rest

/-- The loop over the levels, from `height` on. -/
def checkLevels (showSet : List Int → String) : Nat → List (List MerkleLeaf) →
    Except PyErr Unit
  | _, [] => .ok ()
  | height, leaves :: rest => do
    raiseIf (leaves = [] ∧ height = 0) ("Empty level at height: " ++
      toString height)
    p.checkLevel showSet height [] leaves
    checkLevels showSet (height + 1) rest

/-- The loop that compares the roots. -/
def checkRoots (root : String) : List MerkleLeaf → Except PyErr Unit
  | [] => .ok ()
  | leaf :: rest => do
    let r ← p.computeRoot leaf.hashStr
    raiseIf (root ≠ r) "Mismatched roots"
    checkRoots root rest

/-- `MerklePath.__init__`. -/
def init (showSet : List Int → String) : Except PyErr Unit := do
  p.checkLevels showSet 0 p.path
  match p.path with
  | [] => .error (.other "list index out of range")
  | [] :: _ => return ()
  | (leaf :: leaves) :: _ =>
    let root ← p.computeRoot leaf.hashStr
    p.checkRoots root (leaf :: leaves)

/-! ## The binary form -/

/-- `write_var_int_num`. -/
def writeVarIntNum (n : Int) : Except PyErr Bytes :=
  if n < 0 ∨ n > 0xFFFFFFFFFFFFFFFF then .error
    (.other ("can't convert " ++ toString n ++ " to varint"))
  else .ok (compactBytes n.toNat)

/-- `write_uint8`. -/
def writeUint8 (n : Nat) : Except PyErr Bytes :=
  if n < 256 then .ok [UInt8.ofNat n]
    else .error (.other "ubyte format requires 0 <= number <= 255")

def flagsOf (leaf : MerkleLeaf) : Nat :=
  (if leaf.duplicate then 1 else 0) ||| (if leaf.txid then 2 else 0)

/-- What `to_binary` writes for a leaf. -/
def writeLeaf (leaf : MerkleLeaf) : Except PyErr Bytes := do
  let offset ← writeVarIntNum leaf.offset
  let flags ← writeUint8 (flagsOf leaf)
  if flagsOf leaf &&& 1 = 0 then do
    let s ← leaf.needHash
    let b ← toBytesHex s
    return offset ++ flags ++ b.reverse
  else return offset ++ flags

def writeLevel (leaves : List MerkleLeaf) : Except PyErr Bytes := do
  let n ← writeVarIntNum leaves.length
  let body ← joinAll writeLeaf leaves
  return n ++ body

/-- `to_binary`. -/
def toBinary : Except PyErr Bytes := do
  let height ← writeVarIntNum p.blockHeight
  let treeHeight ← writeUint8 p.path.length
  let levels ← joinAll writeLevel p.path
  return height ++ treeHeight ++ levels

/-- One turn of the inner loop of `from_reader`. -/
def readLeaf (r : Bytes) : Except PyErr (MerkleLeaf × Bytes) :=
  let (offset, r) := readVarIntNum r
  let (flags, r) := readLe 1 r
  match offset, flags with
  | some offset, some flags =>
    if flags &&& 1 ≠ 0 then .ok (⟨offset, none, false, true⟩, r)
    else
      let (data, r) := read 32 r
      match data with
      | some data =>
        .ok (⟨offset, some (hex data.reverse), flags &&& 2 ≠ 0, false⟩, r)
      | none => .error (.other "'NoneType' object is not subscriptable")
  -- an offset is missing at the end of the data only, and then its flags are
  -- too
  | _, _ =>
    .error (.other "unsupported operand type(s) for &: 'NoneType' and 'int'")

def readLeaves : Nat → Bytes → Except PyErr (List MerkleLeaf × Bytes)
  | 0, r => .ok ([], r)
  | n + 1, r => do
    let (leaf, r) ← readLeaf r
    let (leaves, r) ← readLeaves n r
    return (leaf :: leaves, r)

/-- `sort(key=lambda e: e["offset"])`. -/
def sortLevel (leaves : List MerkleLeaf) : List MerkleLeaf :=
  leaves.mergeSort (·.offset ≤ ·.offset)

def readLevels : Nat → Bytes → Except PyErr (List (List MerkleLeaf) × Bytes)
  | 0, r => .ok ([], r)
  | n + 1, r => do
    -- a missing number ends the loop over the leaves at once
    let (count, r) := readVarIntNum r
    let (leaves, r) ← readLeaves (count.getD 0) r
    let (levels, r) ← readLevels n r
    return (sortLevel leaves :: levels, r)

/-- `from_reader`; `from_binary` is it on the bytes from their start. -/
def fromReader (showSet : List Int → String) (r : Bytes) :
    Except PyErr MerklePath := do
  let (blockHeight, r) := readVarIntNum r
  let (treeHeight, r) := readLe 1 r
  match blockHeight, treeHeight with
  | some blockHeight, some treeHeight => do
    let (path, _) ← readLevels treeHeight r
    let p : MerklePath := ⟨blockHeight, path⟩
    p.init showSet
    return p
  | _, _ =>
    .error (.other "'NoneType' object cannot be interpreted as an integer")

end MerklePath

end Pyrxd.Tx
