import Pyrxd.Errors
import Pyrxd.Lib.Sha256

/-!
# Base58Check

`base58.py`. A leading zero byte is a leading `1`; what follows is one number,
most significant digit first. The last four bytes are the checksum.
-/

namespace Pyrxd.Tx

open Pyrxd.Lib

/-- `BASE58_ALPHABET`. -/
def base58Alphabet : List Char :=
  "123456789ABCDEFGHJKLMNPQRSTUVWXYZabcdefghijkmnopqrstuvwxyz".toList

/-- `_checksum`. -/
def checksum (payload : Bytes) : Bytes := (hash256 payload).take 4

/-- The digits of a number, least significant first. -/
def base58Digits : Nat → Nat → List Char
  | 0, _ => []
  | fuel + 1, num =>
    if num = 0 then [] else base58Alphabet.getD (num % 58) '1' ::
      base58Digits fuel (num / 58)

/-- `b58_encode`. -/
def b58Encode (payload : Bytes) : String :=
  let pad := (payload.takeWhile (· == 0)).length
  let num := leNat payload.reverse
  String.ofList (List.replicate pad '1' ++ (base58Digits num num).reverse)

/-- `base58check_encode`. -/
def base58checkEncode (payload : Bytes) : String :=
  b58Encode (payload ++ checksum payload)

/-- `int.bit_length()`. -/
def bitLength (num : Nat) : Nat := if num = 0 then 0 else Nat.log2 num + 1

/-- `num *= 58; num += BASE58_ALPHABET.index(char)`, character by character. -/
def base58Number : Nat → List Char → Option Nat
  | num, [] => some num
  | num, c :: cs =>
    let digit := base58Alphabet.idxOf c
    if digit < 58 then base58Number (num * 58 + digit) cs else none

/-- `b58_decode`. -/
def b58Decode (encoded : String) : Except PyErr Bytes :=
  let pad := (encoded.toList.takeWhile (· == '1')).length
  match base58Number 0 encoded.toList with
  | none => .error (.other ("invalid base58 encoded " ++ encoded))
  | some num =>
    .ok (List.replicate pad 0 ++
      (leBytes ((bitLength num + 7) / 8) num).reverse)

/-- `base58check_decode`. -/
def base58checkDecode (encoded : String) : Except PyErr Bytes := do
  let decoded ← b58Decode encoded
  -- `[:-4]` and `[-4:]` of something shorter are nothing and all of it
  let payload := decoded.take (decoded.length - 4)
  let decodedChecksum := decoded.drop (decoded.length - 4)
  if decodedChecksum ≠ checksum payload then
    .error (.other ("unmatched base58 checksum, expect " ++
      hex decodedChecksum ++ " but actually " ++
      hex (checksum payload)))
  else return payload

end Pyrxd.Tx
