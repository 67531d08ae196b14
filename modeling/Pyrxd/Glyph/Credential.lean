import Pyrxd.Gravity.Terms
import Pyrxd.Lib.Sha256

/-!
# Soulbound credentials

What the funding gate reads off a credential before a gated swap: whether its
locking script is a self-replicating covenant (`glyph/soulbound_detect.py`), who
owns it (`glyph/credential_binding.py`), and which holder hash pays that owner
(`holder_hash` of `gravity/htlc_covenant.py`). Scripts are walked as opcode
streams; each walker keeps its own rule for a truncated push, as in the source.

The walkers recurse on a fuel of the script's length: every opcode takes at
least one byte, so the fuel never runs out before the script does.
-/

namespace Pyrxd.Glyph

open Pyrxd.Lib Pyrxd.Gravity

/-- `op in REF_OPCODES`: `0xd0..0xd8`. -/
def isRefOpcode (op : UInt8) : Bool := 0xD0 ≤ op && op ≤ 0xD8

/-! ## Opcode walks -/

/-- Bytes taken by the opcode at the head, operand included; `none` when the
length bytes of a PUSHDATA are missing. -/
def opWidth (op : UInt8) (rest : Bytes) : Option Nat :=
  if isRefOpcode op then some 37
  else if 0x01 ≤ op ∧ op ≤ 0x4B then some (1 + op.toNat)
  else if op = 0x4C then (if rest.length < 1 then none
    else some (2 + leNat (rest.take 1)))
  else if op = 0x4D then (if rest.length < 2 then none
    else some (3 + leNat (rest.take 2)))
  else if op = 0x4E then (if rest.length < 4 then none
    else some (5 + leNat (rest.take 4)))
  else some 1

/-- `_opcodes`: a truncated PUSHDATA ends the walk. -/
def opcodes (script : Bytes) : List UInt8 := go script.length script
where
  go : Nat → Bytes → List UInt8
    | 0, _ => []
    | _, [] => []
    | fuel + 1, op :: rest =>
      op :: match opWidth op rest with
        | some w => go fuel ((op :: rest).drop w)
        | none => []

/-- `iter_input_refs`, collected: a truncated operand is refused. -/
def iterInputRefs (script : Bytes) : Except PyErr (List (UInt8 × Bytes)) :=
  go script.length script
where
  go : Nat → Bytes → Except PyErr (List (UInt8 × Bytes))
    | 0, _ => .ok []
    | _, [] => .ok []
    | fuel + 1, op :: rest => do
      if isRefOpcode op then
        refuseIf (rest.length < 36) "ref opcode operand truncated (< 36 bytes)"
        let refs ← go fuel (rest.drop 36)
        return (op, rest.take 36) :: refs
      else
        match opWidth op rest with
        | none =>
          invalid (if op = 0x4C then "PUSHDATA1 length byte truncated"
            else if op = 0x4D then "PUSHDATA2 length truncated"
            else "PUSHDATA4 length truncated")
        | some w =>
          refuseIf (w > rest.length + 1) "push operand truncated"
          go fuel ((op :: rest).drop w)

/-- The keys of `count_input_refs`. -/
def inputRefs (script : Bytes) : Except PyErr (List Bytes) := do
  let refs ← iterInputRefs script
  return (refs.map (·.2)).dedup

/-! ## Soulbound classification -/

inductive Transferability where
  | transferableNft
  | soulboundCovenant
  | notASingleton
  | unknown
deriving DecidableEq, Repr

def Transferability.value : Transferability → String
  | .transferableNft => "transferable_nft"
  | .soulboundCovenant => "soulbound_covenant"
  | .notASingleton => "not_a_singleton"
  | .unknown => "unknown"

structure SoulboundClassification where
  transferability : Transferability
  boundRef : Option Bytes
  hasSelfReplication : Bool
  hasBurnBranch : Bool

/-- `_OUTPUT_BYTECODE_OPS`, `_SELF_BYTECODE_OPS`,
`_CODESCRIPTHASH_COUNT_OPS`. -/
def outputBytecodeOps : List UInt8 := [0xCD, 0xEA]
def selfBytecodeOps : List UInt8 := [0xC7, 0xE9, 0xC1]
def codescripthashCountOps : List UInt8 := [0xE5, 0xE6]

/-- `classify_soulbound`. -/
def classifySoulbound (script : Bytes) : SoulboundClassification :=
  match inputRefs script with
  -- a script that does not parse is never called soulbound
  | .error _ => ⟨.unknown, none, false, false⟩
  | .ok refs =>
    let ops := opcodes script
    let has (xs : List UInt8) : Bool := xs.any fun op => ops.contains op
    if !has [0xD8] then ⟨.notASingleton, none, false, false⟩
    else
      let boundRef := match refs with
        | [r] => some r
        | _ => none
      let hasEquality := has [0x87] || has [0x88]
      -- an output is compared with this script, or its hash is counted among
      -- the outputs
      let formA := has outputBytecodeOps && has selfBytecodeOps && hasEquality
      let formB := has selfBytecodeOps && has codescripthashCountOps
      let hasSelfReplication := formA || formB
      let hasBurnBranch := has [0xDE] && has [0x9C]
      let introspection :=
        has (outputBytecodeOps ++ selfBytecodeOps ++ codescripthashCountOps)
      let transferability :=
        if hasSelfReplication then .soulboundCovenant
        else if introspection then .unknown
        else .transferableNft
      ⟨transferability, boundRef, hasSelfReplication, hasBurnBranch⟩

/-! ## Owner -/

/-- The pkh of a `76 a9 14 <20> 88 (ac|ad)` at the head. -/
def p2pkhAt : Bytes → Option Bytes
  | 0x76 :: 0xA9 :: 0x14 :: rest =>
    match rest.drop 20 with
    | 0x88 :: 0xAC :: _ => some (rest.take 20)
    | 0x88 :: 0xAD :: _ => some (rest.take 20)
    | _ => none
  | _ => none

/-- Every pkh embedded in an opcode position; here a truncated PUSHDATA is
stepped over as a single byte. -/
def ownerPkhs (script : Bytes) : List Bytes := go script.length script
where
  go : Nat → Bytes → List Bytes
    | 0, _ => []
    | _, [] => []
    | fuel + 1, op :: rest =>
      if isRefOpcode op then go fuel ((op :: rest).drop 37)
      else
        match p2pkhAt (op :: rest) with
        | some pkh => pkh :: go fuel ((op :: rest).drop 25)
        | none => go fuel ((op :: rest).drop ((opWidth op rest).getD 1))

/-- `extract_owner_pkh`. -/
def extractOwnerPkh (spk : Bytes) : Option Bytes :=
  -- two different owners are ambiguous, and refused like none
  match (ownerPkhs spk).dedup with
  | [pkh] => some pkh
  | _ => none

/-! ## The binding check -/

/-- `ResolvedCredential`; `confirmations` is `none` when it is not an int. -/
structure ResolvedCredential where
  currentSpk : Bytes
  confirmations : Option Int
deriving DecidableEq, Repr

/-- `assert_soulbound_credential`: the owner of a genuine, deep-enough
credential. -/
def assertSoulboundCredential (credential : ResolvedCredential)
    (minConfirmations : Int)
    (expectedCredentialRef : Bytes) : Except PyErr Bytes := do
  let cls := classifySoulbound credential.currentSpk
  refuseIf (cls.transferability ≠ .soulboundCovenant)
    ("credential is not a consensus-soulbound covenant (classified " ++
      cls.transferability.value ++ "); a transferable token can be " ++
      "rented or resold and must not gate a swap")
  refuseIf (cls.boundRef ≠ some expectedCredentialRef)
    ("credential binds ref " ++ (cls.boundRef.map hex).getD "None" ++
      ", expected " ++
      hex expectedCredentialRef)
  refuseIf (∀ c ∈ credential.confirmations, c < minConfirmations)
    ("credential has " ++ (credential.confirmations.map toString).getD "None" ++
      " confirmations, need >= " ++ toString minConfirmations)
  match extractOwnerPkh credential.currentSpk with
  | some owner => .ok owner
  | none =>
    invalid "could not extract a single owner pkh from the credential script"

/-- `FT_EPILOGUE`. -/
def ftEpilogue : Bytes :=
  [0xde, 0xc0, 0xe9, 0xaa, 0x76, 0xe3, 0x78, 0xe4, 0xa2, 0x69, 0xe6, 0x9d]

def ftHolderScript (pkh refWire : Bytes) : Bytes :=
  [0x76, 0xa9, 0x14] ++ pkh ++ [0x88, 0xac, 0xbd, 0xd0] ++ refWire ++ ftEpilogue

def nftHolderScript (pkh refWire : Bytes) : Bytes :=
  [0xd8] ++ refWire ++ [0x75, 0x76, 0xa9, 0x14] ++ pkh ++ [0x88, 0xac]

def rxdHolderScript (pkh : Bytes) : Bytes :=
  [0x76, 0xa9, 0x14] ++ pkh ++ [0x88, 0xac]

/-- `holder_hash`. -/
def holderHash (pkh : Bytes) (variant : AssetVariant) (genesisRef : Bytes) :
    Except PyErr Bytes :=
  match variant with
  | .rxd => .ok (hash256 (rxdHolderScript pkh))
  | .ft => do
    refuseIf (genesisRef.length ≠
      36) "ft holder hash requires a 36-byte genesis_ref"
    return hash256 (ftHolderScript pkh genesisRef)
  | .nft => do
    refuseIf (genesisRef.length ≠
      36) "nft holder hash requires a 36-byte genesis_ref"
    return hash256 (nftHolderScript pkh genesisRef)

end Pyrxd.Glyph
