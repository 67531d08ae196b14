import Pyrxd.Spv.Merkle

/-!
# Branches of a Merkle tree

`build_branch` and `compute_root` on the siblings that the tree over a list of
leaves gives a position (`Lib.Merkle`), as hashes are displayed: in hex, last
byte first. The root comes out; and of the branches of one depth, two that are
the same bytes are of the same position and the same hashes. The hex itself may
differ, for `bytes.fromhex` reads either letter case.
-/

namespace Pyrxd.Spv

open Pyrxd.Lib

/-- A hash as explorers show it. -/
def display (h : Bytes) : String := hex h.reverse

/-- A displayed hash reads back, reversed. -/
theorem fromHex_display (h : Bytes) :
    fromHex (display h) = some h.reverse := fromHex_hex _

/-- A displayed hash is 64 characters. -/
theorem length_display {h : Bytes} (hlen : h.length = 32) :
    (display h).length = 64 := by
  rw [display, length_hex, List.length_reverse, hlen]

section Tree

variable {sibs sibs' : List Bytes} {leaf : Bytes}

/-- The branch builder encodes displayed siblings level by level. -/
theorem buildBranchFrom_display {pos : Nat} (h : ∀ s ∈ sibs, s.length = 32) :
    ∀ {i : Nat}, buildBranchFrom pos i (sibs.map display) = .ok
      (encodeBranch (pos >>> i) sibs) := by
  induction sibs with
  | nil =>
    intro i
    rfl
  | cons s ss ih =>
    intro i
    obtain ⟨hs, hss⟩ := List.forall_mem_cons.mp h
    rw [List.map_cons, buildBranchFrom]
    refine refuseIf_bind_ok.mpr ⟨not_not.mpr (length_display hs), ?_⟩
    rw [fromHex_display]
    refine bind_ok.mpr ⟨s.reverse, rfl, bind_ok.mpr ⟨_, ih hss, ?_⟩⟩
    rw [List.reverse_reverse, encodeBranch, Nat.and_one_is_mod,
      Nat.shiftRight_succ]
    rfl

theorem buildBranch_display {pos : Nat} (h : ∀ s ∈ sibs, s.length = 32)
    (hpos : pos < 2 ^ sibs.length) :
    buildBranch (sibs.map display) pos = .ok (encodeBranch pos sibs) := by
  unfold buildBranch
  refine refuseIf_bind_ok.mpr ⟨by omega, refuseIf_bind_ok.mpr ⟨?_, ?_⟩⟩
  · rw [not_not, Int.toNat_natCast, List.length_map, Nat.shiftRight_eq_div_pow]
    exact Nat.div_eq_of_lt hpos
  · rw [Int.toNat_natCast]
    exact buildBranchFrom_display h

theorem computeRoot_display {pos : Nat} (h : ∀ s ∈ sibs, s.length = 32)
    (hleaf : leaf.length = 32) :
    computeRoot (display leaf)
      (encodeBranch pos sibs) = .ok (climb joinHash pos leaf sibs) := by
  have hlen := ((length_encodeBranch pos fun s hs => (h s hs).le).2).mpr h
  unfold computeRoot
  refine refuseIf_bind_ok.mpr
    ⟨by omega, refuseIf_bind_ok.mpr ⟨not_not.mpr (length_display hleaf), ?_⟩⟩
  rw [fromHex_display]
  refine bind_ok.mpr ⟨_, rfl, ?_⟩
  rw [hlen, Nat.mul_div_cancel_left _ (by decide), List.reverse_reverse,
    foldBranch_encodeBranch h]
  rfl

/-- **The bytes of a branch tell its position and its hashes.** -/
theorem encodeBranch_inj : ∀ {pos pos' : Nat}, (∀ s ∈ sibs, s.length = 32) →
    (∀ s ∈ sibs', s.length = 32) → sibs.length = sibs'.length →
    pos < 2 ^ sibs.length → pos' < 2 ^ sibs'.length →
    encodeBranch pos sibs = encodeBranch pos' sibs' →
    pos = pos' ∧ sibs = sibs' := by
  induction sibs generalizing sibs' with
  | nil =>
    intro pos pos' _ _ hlen hpos hpos' _
    have hnil : sibs' = [] := List.length_eq_zero_iff.mp hlen.symm
    subst hnil
    rw [List.length_nil, Nat.pow_zero] at hpos hpos'
    exact ⟨by omega, rfl⟩
  | cons s ss ih =>
    intro pos pos' h h' hlen hpos hpos' he
    obtain _ | ⟨s', ss'⟩ := sibs'
    · cases hlen
    · obtain ⟨hs, hss⟩ := List.forall_mem_cons.mp h
      obtain ⟨hs', hss'⟩ := List.forall_mem_cons.mp h'
      rw [List.length_cons, List.length_cons] at hlen
      rw [List.length_cons, Nat.pow_succ] at hpos hpos'
      rw [encodeBranch, encodeBranch, List.cons_append, List.cons_append] at he
      injection he with hside he
      obtain ⟨hsib, hrest⟩ := List.append_inj he (hs.trans hs'.symm)
      obtain ⟨hhalf, hsibs⟩ :=
        ih hss hss' (by omega) (by omega) (by omega) hrest
      -- the direction byte is the bit that the halves have lost
      have hbit : pos % 2 = pos' % 2 := by
        have hnat := congrArg UInt8.toNat hside
        rw [UInt8.toNat_ofNat', UInt8.toNat_ofNat'] at hnat
        omega
      exact ⟨by omega, by rw [hsib, hsibs]⟩

end Tree

/-- Hex with nothing for `bytes.fromhex` to skip. -/
def Unspaced (s : String) : Prop := ∀ c ∈ s.toList, isAsciiSpace c = false

/-- Sixty-four digits without white space are 32 bytes. -/
theorem length_of_unspaced {s : String} {b : Bytes} (hs : Unspaced s)
    (hlen : s.length = 64)
    (hhex : fromHex s = some b) : b.length = 32 := by
  have hcount : s.toList.countP isAsciiSpace = 0 :=
    List.countP_eq_zero.mpr fun c
      hc => by rw [hs c hc]; exact Bool.false_ne_true
  have hdigits := length_fromHexChars s.toList b hhex
  rw [String.length_toList] at hdigits
  omega

/-- The hashes that a list of siblings stands for. -/
theorem siblings_decoded {l : List String} {sibs : List Bytes}
    (h : List.Forall₂ (fun s sib => s.length = 64 ∧
      fromHex s = some sib.reverse) l sibs)
    (hl : ∀ s ∈ l, Unspaced s) :
    l.length = sibs.length ∧ (∀ s ∈ sibs, s.length = 32) ∧
    l.map fromHex = sibs.map fun s => some s.reverse := by
  induction h with
  | nil => exact ⟨rfl, nofun, rfl⟩
  | cons hs _ ih =>
    obtain ⟨hu, hl⟩ := List.forall_mem_cons.mp hl
    obtain ⟨hlen, hall, hmap⟩ := ih hl
    have h32 := length_of_unspaced hu hs.1 hs.2
    rw [List.length_reverse] at h32
    refine ⟨by rw [List.length_cons, List.length_cons,
      hlen], List.forall_mem_cons.mpr ⟨h32, hall⟩, ?_⟩
    rw [List.map_cons, List.map_cons, hs.2, hmap]

/-- **Branches are exact.** The branch of a leaf leads to the root of the tree
it is in; and the bytes of a branch tell its position and the hashes of its
siblings. -/
theorem merkle_branch_exact :
    (∀ (leaves : List Bytes) (pos : Nat) (leaf : Bytes), (∀ h ∈ leaves,
      h.length = 32) → leaves[pos]? = some leaf → ∃ branch root, buildBranch
      ((siblings joinHash leaves pos).map display) pos = .ok branch ∧
        computeRoot (display leaf) branch = .ok root ∧
          merkleRoot joinHash leaves = some root) ∧
    (∀ (l l' : List String) (pos pos' : Int) (branch : Bytes),
      l.length = l'.length →
      (∀ s ∈ l, Unspaced s) → (∀ s ∈ l', Unspaced s) →
      buildBranch l pos = .ok branch → buildBranch l' pos' = .ok branch →
        pos = pos' ∧ l.map fromHex = l'.map fromHex) := by
  constructor
  · intro leaves pos leaf hleaves hleaf
    obtain ⟨hroot, hpos⟩ := climb_siblings joinHash leaves pos leaf hleaf
    have hjoin : ∀ x y : Bytes, (joinHash x y).length = 32 :=
      fun x y => by rw [joinHash, hash256, length_sha256]
    have hsibs := forall_siblings joinHash hjoin leaves pos hleaves
    exact ⟨_, _, buildBranch_display hsibs hpos,
      computeRoot_display hsibs (hleaves leaf (List.mem_of_getElem? hleaf)),
        hroot⟩
  · intro l l' pos pos' branch hlen hl hl' hb hb'
    obtain ⟨h0, hpos, sibs, rfl, hall⟩ := buildBranch_ok hb
    obtain ⟨h0', hpos', sibs', hbranch, hall'⟩ := buildBranch_ok hb'
    obtain ⟨hcount, h32, hmap⟩ := siblings_decoded hall hl
    obtain ⟨hcount', h32', hmap'⟩ := siblings_decoded hall' hl'
    obtain ⟨hp, hs⟩ :=
      encodeBranch_inj h32 h32' (by omega) (by rw [← hcount]; exact hpos)
      (by rw [← hcount']; exact hpos') hbranch
    exact ⟨by omega, by rw [hmap, hmap', hs]⟩

/-- Sixty-four times the same digit. -/
def sameDigits (c : Char) : String := String.ofList (List.replicate 64 c)

/-- A repeated digit is a repeated byte. -/
theorem fromHexChars_sameDigits {c : Char} {v : Nat} (hc : hexVal c = some v) :
    ∀ n, fromHexChars (List.replicate (2 * n) c) = some
      (List.replicate n (UInt8.ofNat (16 * v + v))) := by
  intro n
  induction n with
  | zero => rfl
  | succ n ih =>
    have hsplit : List.replicate (2 * (n + 1)) c =
        c :: c :: List.replicate (2 * n) c := rfl
    rw [hsplit, fromHexChars, isAsciiSpace_of_hexVal hc, hc, ih]
    rfl

theorem buildBranch_sameDigits {c : Char} {v : Nat} (hc : hexVal c = some v) :
    buildBranch [sameDigits c] 0 = .ok
      (0 :: List.replicate 32 (UInt8.ofNat (16 * v + v))) := by
  have hlen : (sameDigits c).length = 64 := by
    rw [sameDigits, String.length_ofList, List.length_replicate]
  have hhex : fromHex (sameDigits c) =
      some (List.replicate 32 (UInt8.ofNat (16 * v + v))) := by
    rw [fromHex, sameDigits, String.toList_ofList]
    exact fromHexChars_sameDigits hc 32
  unfold buildBranch
  refine refuseIf_bind_ok.mpr
    ⟨by decide, refuseIf_bind_ok.mpr ⟨not_not.mpr rfl, ?_⟩⟩
  rw [buildBranchFrom]
  refine refuseIf_bind_ok.mpr ⟨not_not.mpr hlen, ?_⟩
  rw [hhex]
  rfl

/-- The same hash in the other letter case makes the same branch. -/
theorem branch_letter_case : ¬ ∀ (l l' : List String) (pos pos' : Int)
    (branch : Bytes), l.length = l'.length → buildBranch l pos = .ok branch →
    buildBranch l' pos' = .ok branch → pos = pos' ∧ l = l' := by
  intro h
  have hlower := @buildBranch_sameDigits 'a' 10 (by decide)
  have hupper := @buildBranch_sameDigits 'A' 10 (by decide)
  have hsame := (h [sameDigits 'a'] [sameDigits 'A'] 0 0 _ rfl hlower hupper).2
  have hstring : sameDigits 'a' = sameDigits 'A' := (List.cons.inj hsame).1
  have hchars := String.ofList_injective hstring
  exact absurd (List.replicate_right_inj (by decide) |>.mp hchars) (by decide)

end Pyrxd.Spv
