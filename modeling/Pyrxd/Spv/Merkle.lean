import Pyrxd.Spv.Header
import Pyrxd.Lib.Merkle

/-!
# Merkle branches

`spv/merkle.py`: a branch in the covenant's wire form, `[direction][sibling]`
for every level, and the root it leads to. `build_branch` measures a sibling in
characters, and `bytes.fromhex` skips white space: a sibling padded with blanks
is shorter than its 32 bytes, and everything behind it moves.
-/

namespace Pyrxd.Spv

open Pyrxd.Lib

/-! ## Definitions -/

/-- The loop of `build_branch`, from sibling `i` on. -/
def buildBranchFrom (pos : Nat) : Nat → List String → Except PyErr Bytes
  | _, [] => .ok []
  | i, s :: ss => do
    refuseIf (s.length ≠ 64)
      ("sibling[" ++ toString i ++
        "] must be a 64-char hex string (32-byte hash)")
    let siblingBe ← (
      match fromHex s with
      | some b => .ok b
      | none => invalid ("sibling[" ++ toString i ++
        "] is not valid hex: non-hexadecimal number found in fromhex() arg"))
    let rest ← buildBranchFrom pos (i + 1) ss
    return UInt8.ofNat (pos >>> i &&& 1) :: siblingBe.reverse ++ rest

/-- `build_branch`. -/
def buildBranch (merkleBe : List String) (pos : Int) : Except PyErr Bytes := do
  refuseIf (pos < 0) "pos must be non-negative"
  refuseIf (pos.toNat >>> merkleBe.length ≠ 0)
    ("pos " ++ toString pos ++ " has bits beyond branch depth " ++
      toString merkleBe.length ++
      " (pos must be < 2**depth; an out-of-range pos aliases another leaf's branch)")
  buildBranchFrom pos.toNat 0 merkleBe

/-- The loop of `compute_root`, over what is left of the branch. -/
def foldBranch : Nat → Bytes → Bytes → Bytes
  | 0, _, current => current
  | n + 1, branch, current =>
    let sibling := (branch.drop 1).take 32
    foldBranch n (branch.drop 33)
      (if branch.headD 0 = 0 then hash256 (current ++ sibling)
        else hash256 (sibling ++ current))

/-- `compute_root`. -/
def computeRoot (txidBeHex : String) (branch : Bytes) : Except PyErr Bytes := do
  refuseIf (branch.length % 33 ≠ 0)
    ("branch length " ++ toString branch.length ++ " is not a multiple of 33")
  refuseIf (txidBeHex.length ≠
    64) "txid_be_hex must be a 64-char hex string (32-byte txid)"
  let leafBe ← (
    match fromHex txidBeHex with
    | some b => .ok b
    | none => invalid "txid_be_hex is not valid hex: non-hexadecimal number found in fromhex() arg")
  return foldBranch (branch.length / 33) branch leafBe.reverse

def merkleRootOf (header : Bytes) : Bytes := slice header 36 68

/-- `extract_merkle_root`. -/
def extractMerkleRoot (header : Bytes) : Except PyErr Bytes := do
  refuseIf (header.length ≠ 80) ("header must be 80 bytes, got " ++
    toString header.length)
  return merkleRootOf header

/-- `bytes.fromhex(s)`. -/
def unhex (s : String) : Except PyErr Bytes :=
  match fromHex s with
  | some b => .ok b
  | none => .error (.other "non-hexadecimal number found in fromhex() arg")

/-- `verify_tx_in_block`. -/
def verifyTxInBlock (rawTx : Bytes) (txidBeHex : String) (branch : Bytes)
    (pos : Int) (header : Bytes) (expectedDepth : Option Nat) :
    Except PyErr Unit := do
  rejectIf (rawTx.length ≤
    64) "raw_tx must be > 64 bytes (64-byte Merkle forgery defense)"
  rejectIf (pos =
    0) "pos=0 is the coinbase tx - cannot be used as payment proof"
  refuseIf (branch.length % 33 ≠ 0)
    ("branch length " ++ toString branch.length ++ " not a multiple of 33")
  rejectIf (pos / 2 ^ (branch.length / 33) ≠ 0)
    ("pos " ++ toString pos ++ " has bits beyond branch depth " ++
      toString (branch.length / 33) ++
      " (out-of-range; aliases another leaf's branch)")
  rejectIf (∃ d ∈ expectedDepth, branch.length / 33 ≠ d)
    ("branch depth " ++ toString (branch.length / 33) ++
      " does not match expected " ++
      toString (expectedDepth.getD 0))
  let claimed ← unhex txidBeHex
  rejectIf (hash256 rawTx ≠ claimed.reverse)
    "hash256(raw_tx) does not match txid"
  let computedRoot ← computeRoot txidBeHex branch
  let expectedRoot ← extractMerkleRoot header
  rejectIf (computedRoot ≠ expectedRoot)
    "Merkle root mismatch: tx not in this block"

/-! ## Branches as lists of siblings -/

/-- Two hashes under their parent. -/
def joinHash (l r : Bytes) : Bytes := hash256 (l ++ r)

/-- The wire form of a branch for position `pos`. -/
def encodeBranch : Nat → List Bytes → Bytes
  | _, [] => []
  | pos, s :: ss => UInt8.ofNat (pos % 2) :: s ++ encodeBranch (pos / 2) ss

/-- What the loop of `build_branch` has written: the entries of the decoded
siblings. -/
theorem buildBranchFrom_ok {pos : Nat} {l : List String} :
    ∀ {i : Nat} {b : Bytes},
    buildBranchFrom pos i l = .ok b →
      ∃ sibs : List Bytes, b = encodeBranch (pos >>> i) sibs ∧
      List.Forall₂ (fun s sib => s.length = 64 ∧
        fromHex s = some sib.reverse) l sibs := by
  induction l with
  | nil =>
    intro i b h
    cases h
    exact ⟨[], rfl, .nil⟩
  | cons s ss ih =>
    intro i b h
    rw [buildBranchFrom] at h
    obtain ⟨hlen, h⟩ := refuseIf_bind_ok.mp h
    obtain ⟨sib, hsib, h⟩ := bind_ok.mp h
    obtain ⟨rest, hrest, h⟩ := bind_ok.mp h
    cases h
    obtain ⟨sibs, rfl, hall⟩ := ih hrest
    have hhex : fromHex s = some sib := by
      split at hsib
      · rename_i x hx
        cases hsib
        exact hx
      · cases hsib
    refine ⟨sib.reverse :: sibs, ?_, .cons ⟨not_not.mp hlen, ?_⟩ hall⟩
    · rw [encodeBranch, Nat.and_one_is_mod, Nat.shiftRight_succ]
    · rw [List.reverse_reverse]
      exact hhex

/-- A branch is 33 bytes a level. -/
theorem length_encodeBranch {sibs : List Bytes} :
    ∀ (pos : Nat), (∀ s ∈ sibs, s.length ≤ 32) →
    (encodeBranch pos sibs).length ≤ 33 * sibs.length ∧
      ((encodeBranch pos sibs).length = 33 * sibs.length ↔
        ∀ s ∈ sibs, s.length = 32) := by
  induction sibs with
  | nil => intro pos _; exact ⟨Nat.le_refl _, fun _ => nofun, fun _ => rfl⟩
  | cons s ss ih =>
    intro pos h
    have hs := h s List.mem_cons_self
    obtain ⟨hle, hiff⟩ :=
      ih (pos / 2) fun x hx => h x (List.mem_cons_of_mem _ hx)
    rw [encodeBranch, List.length_append, List.length_cons, List.length_cons,
      List.forall_mem_cons, ← hiff]
    omega

/-- **Folding a well-formed branch is climbing its siblings.** -/
theorem foldBranch_encodeBranch {sibs : List Bytes} : ∀ {pos : Nat}
    {current : Bytes},
    (∀ s ∈ sibs, s.length = 32) →
      foldBranch sibs.length (encodeBranch pos sibs) current =
        climb joinHash pos current sibs := by
  induction sibs with
  | nil => intro pos current _; rfl
  | cons s ss ih =>
    intro pos current h
    have hs := h s List.mem_cons_self
    have hdrop : (encodeBranch pos (s :: ss)).drop 33 =
        encodeBranch (pos / 2) ss := by
      rw [encodeBranch]
      exact List.drop_left' (by rw [List.length_cons, hs])
    have htake : ((encodeBranch pos (s :: ss)).drop 1).take 32 = s :=
      List.take_left' hs
    have hhead : (encodeBranch pos (s :: ss)).headD 0 =
        UInt8.ofNat (pos % 2) := rfl
    rw [List.length_cons, foldBranch, hdrop, htake, hhead,
      ih fun x hx => h x (List.mem_cons_of_mem _ hx), climb, joinAt]
    rcases Nat.mod_two_eq_zero_or_one pos with hp | hp
    · rw [hp, if_pos rfl, if_pos (by decide)]
      rfl
    · rw [hp, if_neg Nat.one_ne_zero, if_neg (by decide)]
      rfl

/-- What `build_branch` returns, and what it refused on the way. -/
theorem buildBranch_ok {merkleBe : List String} {pos : Int} {b : Bytes}
    (h : buildBranch merkleBe pos = .ok b) :
    0 ≤ pos ∧ pos.toNat < 2 ^ merkleBe.length ∧
      ∃ sibs : List Bytes, b = encodeBranch pos.toNat sibs ∧
      List.Forall₂ (fun s sib => s.length = 64 ∧
        fromHex s = some sib.reverse) merkleBe sibs := by
  unfold buildBranch at h
  obtain ⟨hneg, h⟩ := refuseIf_bind_ok.mp h
  obtain ⟨hbits, h⟩ := refuseIf_bind_ok.mp h
  obtain ⟨sibs, hb, hall⟩ := buildBranchFrom_ok h
  rw [not_not, Nat.shiftRight_eq_div_pow] at hbits
  refine ⟨Int.not_lt.mp hneg, ?_, sibs, hb, hall⟩
  exact (Nat.div_eq_zero_iff_lt (Nat.two_pow_pos _)).mp hbits

/-- What a computed root was folded from. -/
theorem computeRoot_ok {txid : String} {branch root : Bytes}
    (h : computeRoot txid branch = .ok root) :
    ∃ leafBe, fromHex txid = some leafBe ∧ branch.length % 33 = 0 ∧
      root = foldBranch (branch.length / 33) branch leafBe.reverse := by
  unfold computeRoot at h
  obtain ⟨hmod, h⟩ := refuseIf_bind_ok.mp h
  obtain ⟨-, h⟩ := refuseIf_bind_ok.mp h
  obtain ⟨leaf, hleaf, h⟩ := bind_ok.mp h
  cases h
  split at hleaf
  · rename_i x hx
    cases hleaf
    exact ⟨_, hx, not_not.mp hmod, rfl⟩
  · cases hleaf

theorem unhex_ok {s : String} {b : Bytes} : unhex s = .ok b ↔
    fromHex s = some b := by
  unfold unhex
  cases fromHex s with
  | none => exact ⟨nofun, nofun⟩
  | some x =>
    constructor
    · intro h
      rw [Except.ok.inj h]
    · intro h
      rw [Option.some.inj h]

/-- **What an accepted inclusion proof says.** -/
structure Included (rawTx : Bytes) (txid : String) (branch : Bytes) (pos : Int)
    (header : Bytes) (depth : Nat) : Prop where
  long : 64 < rawTx.length
  notCoinbase : pos ≠ 0
  length : branch.length = 33 * depth
  inRange : pos < 2 ^ depth
  isTxid : fromHex txid = some (hash256 rawTx).reverse
  root : foldBranch depth branch (hash256 rawTx) = merkleRootOf header

/-- What a verified inclusion has checked. -/
theorem verifyTxInBlock_ok {rawTx : Bytes} {txid : String}
    {branch : Bytes} {pos : Int} {header : Bytes} {depth : Nat}
    (h : verifyTxInBlock rawTx txid branch pos header (some depth) = .ok ()) :
    Included rawTx txid branch pos header depth := by
  unfold verifyTxInBlock at h
  obtain ⟨hlong, h⟩ := rejectIf_bind_ok.mp h
  obtain ⟨hcoin, h⟩ := rejectIf_bind_ok.mp h
  obtain ⟨hmod, h⟩ := refuseIf_bind_ok.mp h
  obtain ⟨hbits, h⟩ := rejectIf_bind_ok.mp h
  obtain ⟨hdepth, h⟩ := rejectIf_bind_ok.mp h
  obtain ⟨claimed, hclaimed, h⟩ := bind_ok.mp h
  obtain ⟨hhash, h⟩ := rejectIf_bind_ok.mp h
  obtain ⟨root, hroot, h⟩ := bind_ok.mp h
  obtain ⟨expected, hexpected, h⟩ := bind_ok.mp h
  have hmatch := not_not.mp (rejectIf_ok.mp h)
  have hd : branch.length / 33 = depth :=
    not_not.mp fun hc => hdepth ⟨depth, rfl, hc⟩
  obtain ⟨leaf, hleaf, -, hfold⟩ := computeRoot_ok hroot
  have hclaim := unhex_ok.mp hclaimed
  have hrev : claimed = (hash256 rawTx).reverse := by rw [not_not.mp hhash,
    List.reverse_reverse]
  obtain ⟨-, hexpected⟩ := refuseIf_bind_ok.mp hexpected
  cases hexpected
  refine ⟨Nat.lt_of_not_le hlong, hcoin, ?_, ?_, ?_, ?_⟩
  · have := not_not.mp hmod
    omega
  · rw [not_not, hd] at hbits
    have hpow : (0 : Int) < 2 ^ depth := Int.pow_pos (by decide)
    have hsplit := Int.mul_ediv_add_emod pos (2 ^ depth)
    rw [hbits, Int.mul_zero, Int.zero_add] at hsplit
    rw [← hsplit]
    exact Int.emod_lt_of_pos pos hpow
  · rw [hclaim, hrev]
  · have hl : leaf.reverse = hash256 rawTx := by
      rw [Option.some.inj (hleaf.symm.trans hclaim), hrev, List.reverse_reverse]
    rw [← hmatch, hfold, hd, hl]

end Pyrxd.Spv
