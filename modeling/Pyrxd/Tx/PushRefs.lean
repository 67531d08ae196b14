import Mathlib.Data.List.Sort
import Pyrxd.Errors
import Pyrxd.Lib.Bytes

/-!
# The refs of an output script

`_get_push_refs` of `transaction/transaction_preimage.py`: the refs an output
script pushes, as they are hashed into the signature preimage. Consensus keeps
them in a set of 288-bit little-endian numbers, so they come deduplicated and
sorted by their reversed bytes.
-/

namespace Pyrxd.Tx

open Pyrxd.Lib

/-- `op in (_OP_PUSHINPUTREF, _OP_PUSHINPUTREFSINGLETON)`. -/
def isPushRef (op : UInt8) : Bool := op == 0xD0 || op == 0xD8

/-- How far one turn of the loop goes from an opcode at `pos`. The length bytes
of a PUSHDATA2 or a PUSHDATA4 may be cut short, and no payload has to be
there. -/
def pushRefsWidth (pos : Nat) (op : UInt8) (rest : Bytes) : Except PyErr Nat :=
  if isPushRef op then
    if rest.length < 36 then
      invalid ("truncated pushref at offset " ++ toString pos ++
        ": expected 36 bytes of ref data, only " ++
          toString rest.length ++ " available")
    else .ok 37
  else if 0x01 ≤ op ∧ op ≤ 0x4B then .ok (1 + op.toNat)
  else if op = 0x4C then
    match rest with
    | [] => .error (.other "index out of range")
    | n :: _ => .ok (2 + n.toNat)
  else if op = 0x4D then .ok (3 + leNat (rest.take 2))
  else if op = 0x4E then .ok (5 + leNat (rest.take 4))
  else .ok 1

/-- The loop, on a fuel of the script's length. -/
def pushRefsWalk : Nat → Nat → Bytes → Except PyErr (List Bytes)
  | 0, _, _ => .ok []
  | _, _, [] => .ok []
  | fuel + 1, pos, op :: rest => do
    let w ← pushRefsWidth pos op rest
    let refs ← pushRefsWalk fuel (pos + w) ((op :: rest).drop w)
    return if isPushRef op then rest.take 36 :: refs else refs

/-- `sorted(refs.values(), key=lambda r: r[::-1])`. -/
def sortRefs (refs : List Bytes) : List Bytes :=
  refs.eraseDups.insertionSort fun a b => a.reverse ≤ b.reverse

/-- `_get_push_refs`. -/
def getPushRefs (script : Bytes) : Except PyErr (List Bytes) := do
  let refs ← pushRefsWalk script.length 0 script
  return sortRefs refs

end Pyrxd.Tx
