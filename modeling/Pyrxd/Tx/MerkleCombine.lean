import Pyrxd.Lib.Template
import Pyrxd.Tx.MerklePathRoundTrip
import Pyrxd.Spv.MerkleBranch

/-!
# Merkle paths put together

`combine` and `trim` of `merkle_path.py`, over two paths of one block. The union
holds what either path holds, and `trim` takes out what the flagged leaves do
not need: a node above a flagged leaf, which can be computed, and at the lowest
level the leaves that no flagged leaf stands beside. For the latter it looks at
the neighbour on the other side, and not at the sibling. And what counts as
flagged is not the same on the two sides: `combine` flags every leaf at which
the other path has the key `txid`, whatever its value. `combine_iff` says for
which unions the right leaves are left.
-/

namespace Pyrxd.Tx

open Pyrxd.Lib Pyrxd.Spv

/-! ## Leaves as dicts -/

/-- A leaf as the dict that it is. Everything else asks for the truth of
`leaf.get("txid")`, which is `MerkleLeaf.txid`; `combine` asks whether the key
is there, with True, with False or with None. -/
structure DictLeaf extends MerkleLeaf where
  hasTxid : Bool
  hasTxid_of_txid : txid = true → hasTxid = true

/-- `e["txid"] = True`. -/
def DictLeaf.flag (e : DictLeaf) : DictLeaf :=
  { e with txid := true, hasTxid := true, hasTxid_of_txid := id }

/-- A path whose leaves are dicts. -/
structure DictPath where
  blockHeight : Int
  path : List (List DictLeaf)

namespace DictPath

/-- The path as the rest of the class reads it. -/
def plain (p : DictPath) : MerklePath :=
  ⟨p.blockHeight, p.path.map (·.map (·.toMerkleLeaf))⟩

def level (p : DictPath) (height : Nat) : List DictLeaf := p.path.getD height []

/-! ## `trim` -/

/-- `push_if_new`. -/
def pushIfNew (v : Int) (a : List Int) : List Int :=
  if a.getLast? = some v then a else a ++ [v]

/-- `drop_offsets_from_level`. -/
def dropOffsets (drops : List Int) (level : List DictLeaf) : List DictLeaf :=
  drops.reverse.foldl (fun level i => level.eraseP (·.offset = i)) level

/-- `next_computed_offsets`. -/
def nextComputedOffsets (cos : List Int) : List Int :=
  cos.foldl (fun ncos o => pushIfNew (o / 2) ncos) []

/-- `sort(key=lambda x: x["offset"])`. -/
def sortOffsets (level : List DictLeaf) : List DictLeaf :=
  level.mergeSort (·.offset ≤ ·.offset)

/-- `next((n for n in self.path[0] if n["offset"] == offset), None)`. -/
def findPeer (level : List DictLeaf) (offset : Int) : Option DictLeaf :=
  level.find? (·.offset = offset)

/-- `offset + (1 if is_odd else -1)`: the leaf across the border of the pair. -/
def across (offset : Int) : Int := if offset % 2 = 1 then offset + 1
  else offset - 1

/-- A turn of the loop over the lowest level: the computed offsets of the next,
and those to drop from this. -/
def trimStep (level : List DictLeaf) (found : List Int × List Int)
    (e : DictLeaf) : List Int × List Int :=
  if e.txid then (pushIfNew (e.offset / 2) found.1, found.2)
  else
    match findPeer level (across e.offset) with
    | some peer =>
      if peer.txid then found else (found.1, pushIfNew peer.offset found.2)
    | none => found

/-- The loop over the other levels. -/
def trimAbove : List Int → List (List DictLeaf) → List (List DictLeaf)
  | _, [] => []
  | computed, level :: levels =>
    dropOffsets computed level ::
      trimAbove (nextComputedOffsets computed) levels

/-- `trim`, of the levels. -/
def trimLevels (path : List (List DictLeaf)) : List (List DictLeaf) :=
  match path.map sortOffsets with
  | [] => []
  | level :: levels =>
    let found := level.foldl (trimStep level) ([], [])
    dropOffsets found.2 level :: trimAbove found.1 levels

/-! ## `combine` -/

/-- A level of the union. A leaf of ours keeps its flag, and a leaf at an offset
where theirs has the key `txid` is flagged, even if the value there was
false. -/
def combineLevel (ours theirs : List DictLeaf) : List DictLeaf :=
  let combined := ours ++ theirs.filter fun leaf => leaf.offset ∉
    ours.map (·.offset)
  theirs.foldl (fun combined leaf =>
    if leaf.hasTxid then combined.map fun e => if e.offset =
      leaf.offset then e.flag else e
    else combined) combined

/-- The loop over the levels. -/
def combineLevels : List (List DictLeaf) → List (List DictLeaf) →
    Except PyErr (List (List DictLeaf))
  | [], _ => .ok []
  | _ :: _, [] => .error (.other "list index out of range")
  | ours :: path, theirs :: path' => do
    let rest ← combineLevels path path'
    return combineLevel ours theirs :: rest

/-- `combine`: the path as it is afterwards. -/
def combine (p other : DictPath) : Except PyErr DictPath := do
  raiseIf (p.blockHeight ≠ other.blockHeight)
    "You cannot combine paths which do not have the same block height."
  let root1 ← p.plain.computeRoot none
  let root2 ← other.plain.computeRoot none
  raiseIf (root1 ≠ root2)
    "You cannot combine paths which do not have the same root."
  let combinedPath ← combineLevels p.path other.path
  return ⟨p.blockHeight, trimLevels combinedPath⟩

end DictPath

/-! ## Paths of a block -/

/-- A block, by the hashes of its transactions. No transaction is in it
twice. -/
structure Block where
  height : Int
  hashes : List Bytes
  depth : Nat
  root : Bytes
  sizes : ∀ b ∈ hashes, b.length = 32
  distinct : hashes.Nodup
  top : (nextLevel joinHash)^[depth] hashes = [root]

namespace Block

/-- The hashes of one level. -/
def nodes (k : Block) (h : Nat) : List Bytes :=
  (nextLevel joinHash)^[h] k.hashes

/-- The hash at an offset; there is none behind the end of the level. -/
def node (k : Block) (h : Nat) (offset : Int) : Option Bytes :=
  if offset < 0 then none else (k.nodes h)[offset.toNat]?

/-- The leaf is what the block has there: the hash, or behind the end of the
level a duplicate. -/
def Agrees (k : Block) (h : Nat) (leaf : MerkleLeaf) : Prop :=
  match k.node h leaf.offset with
  | some b => leaf.hashStr = some (display b) ∧ leaf.duplicate = false
  | none => leaf.hashStr = none ∧ leaf.duplicate = true

end Block

namespace DictPath

/-- A leaf at this offset. -/
def Stored (level : List DictLeaf) (offset : Int) : Prop :=
  ∃ leaf ∈ level, leaf.offset = offset

/-- A flagged leaf at this offset. -/
def Flagged (level : List DictLeaf) (offset : Int) : Prop :=
  ∃ leaf ∈ level, leaf.offset = offset ∧ leaf.txid = true

/-- A leaf at this offset that has the key `txid`. -/
def Keyed (level : List DictLeaf) (offset : Int) : Prop :=
  ∃ leaf ∈ level, leaf.offset = offset ∧ leaf.hasTxid = true

/-- A path of the block that its constructor accepts, whose flagged leaves are
transactions, with the nodes that they need: the siblings on the way up are
there, or lie above flagged leaves. -/
structure OfBlock (k : Block) (p : DictPath) : Prop where
  height : p.blockHeight = k.height
  depth : p.path.length = k.depth
  constructed : ∃ showSet, p.plain.init showSet = .ok ()
  agrees : ∀ h, ∀ leaf ∈ p.level h, k.Agrees h leaf.toMerkleLeaf
  transactions : ∀ leaf ∈ p.level 0, leaf.txid = true → leaf.duplicate = false
  complete : ∀ t, Flagged (p.level 0) t →
    ∀ h < k.depth, Stored (p.level h) (xorOne (t / 2 ^ h)) ∨
    ∃ t', Flagged (p.level 0) t' ∧ t' / 2 ^ h = xorOne (t / 2 ^ h)

/-- The lowest level of the union. -/
def lowest (a b : DictPath) : List DictLeaf := a.level 0 ++ b.level 0

/-- The leaves that are flagged once the paths are put together: those of the
first, and those that have the key in the second. -/
def Marked (a b : DictPath) (o : Int) : Prop := Flagged (a.level 0) o ∨
  Keyed (b.level 0) o

/-- Every leaf that was flagged has its root. -/
def Proven (k : Block) (a b c : DictPath) : Prop :=
  ∀ leaf ∈ lowest a b, leaf.txid = true →
    c.plain.computeRoot leaf.hashStr = .ok (display k.root)

/-- Of the lowest level only the leaves that were flagged and their siblings are
left. -/
def Tidy (a b c : DictPath) : Prop :=
  ∀ leaf ∈ c.level 0, Flagged (lowest a b) leaf.offset ∨
    Flagged (lowest a b) (xorOne leaf.offset)

/-- A leaf that the union marks was flagged, or its sibling was; and one that it
does not mark is the sibling of a flagged one just when no other such leaf is
across the border. -/
structure Spaced (a b : DictPath) : Prop where
  marked : ∀ o, Marked a b o → Flagged (lowest a b) o ∨
    Flagged (lowest a b) (xorOne o)
  unmarked : ∀ o, Stored (lowest a b) o → ¬ Marked a b o →
    (Flagged (lowest a b) (xorOne o) ↔
    ¬ (Stored (lowest a b) (across o) ∧ ¬ Marked a b (across o)))

/-! ## What is trimmed -/

section Trim

variable {level : List DictLeaf} {l : DictLeaf} {v : Int}

theorem mem_pushIfNew {x : Int} {a : List Int} : v ∈ pushIfNew x a ↔
    v ∈ a ∨ v = x := by
  unfold pushIfNew
  by_cases h : a.getLast? = some x
  · rw [if_pos h]
    refine ⟨.inl, ?_⟩
    rintro (hv | rfl)
    · exact hv
    · exact List.mem_of_getLast? h
  · rw [if_neg h, List.mem_append, List.mem_singleton]

/-- Offsets at the lowest level. -/
theorem div_base (o : Int) : o / 2 ^ 0 = o := by rw [Int.pow_zero, Int.ediv_one]

theorem half_pow (o : Int) (h : Nat) : o / 2 / 2 ^ h = o / 2 ^ (h + 1) := by
  rw [Int.ediv_ediv_of_nonneg (by decide), Int.pow_succ, Int.mul_comm]

/-- The offsets computed one level up. -/
theorem mem_nextComputedOffsets {cos : List Int} : v ∈ nextComputedOffsets cos ↔
    ∃ o ∈ cos, v = o / 2 := by
  have hfold : ∀ (cos acc : List Int), v ∈
      cos.foldl (fun ncos o => pushIfNew (o / 2) ncos) acc ↔
      v ∈ acc ∨ ∃ o ∈ cos, v = o / 2 := by
    intro cos
    induction cos with
    | nil => simp
    | cons o cos ih =>
      intro acc
      rw [List.foldl_cons, ih, mem_pushIfNew, or_assoc]
      simp only [List.mem_cons, exists_eq_or_imp]
  rw [nextComputedOffsets, hfold]
  simp only [List.not_mem_nil, false_or]

/-- A leaf that is dropped: neither it nor its neighbour across the border is
flagged. -/
def Dropped (level : List DictLeaf) (v : Int) : Prop :=
  ∃ e ∈ level, e.txid = false ∧ ∃ peer, findPeer level (across e.offset) =
    some peer ∧ peer.txid = false ∧ v = peer.offset

/-- What the trim scan collects. -/
theorem mem_trimScan : ∀ (leaves : List DictLeaf) (found : List Int × List Int),
    (v ∈ (leaves.foldl (trimStep level) found).1 ↔
      v ∈ found.1 ∨ ∃ e ∈ leaves, e.txid = true ∧ v = e.offset / 2) ∧
    (v ∈ (leaves.foldl (trimStep level) found).2 ↔ v ∈ found.2 ∨
      ∃ e ∈ leaves, e.txid = false ∧
      ∃ peer, findPeer level (across e.offset) = some peer ∧ peer.txid = false ∧
        v = peer.offset) := by
  intro leaves
  induction leaves with
  | nil => simp
  | cons e leaves ih =>
    intro found
    rw [List.foldl_cons, (ih _).1, (ih _).2]
    simp only [List.mem_cons, exists_eq_or_imp]
    unfold trimStep
    cases he : e.txid with
    | true => simp [mem_pushIfNew, or_assoc]
    | false =>
      cases hpeer : findPeer level (across e.offset) with
      | none => simp
      | some peer =>
        cases hflag : peer.txid with
        | true => simp [hflag]
        | false => simp [hflag, mem_pushIfNew, or_assoc]

/-- The offsets of a level tell its leaves. -/
def Distinct (level : List DictLeaf) : Prop := (level.map (·.offset)).Nodup

theorem Distinct.same (h : Distinct level) {l' : DictLeaf} (hl : l ∈ level)
    (hl' : l' ∈ level)
    (hoff : l.offset = l'.offset) : l = l' :=
  List.inj_on_of_nodup_map h hl hl' hoff

/-- Erasing drops the one leaf at an offset. -/
theorem mem_eraseP_offset (h : Distinct level) {i : Int} :
    l ∈ level.eraseP (·.offset = i) ↔ l ∈ level ∧ l.offset ≠ i := by
  induction level with
  | nil => simp
  | cons e level ih =>
    obtain ⟨hnot, hrest⟩ := List.nodup_cons.mp h
    by_cases he : e.offset = i
    · rw [List.eraseP_cons_of_pos (by simpa using he), List.mem_cons]
      constructor
      · intro hl
        refine ⟨.inr hl, ?_⟩
        rintro rfl
        have hmem := List.mem_map_of_mem (f := fun e : DictLeaf => e.offset) hl
        rw [← he] at hmem
        exact hnot hmem
      · rintro ⟨rfl | hl, hne⟩
        · exact absurd he hne
        · exact hl
    · rw [List.eraseP_cons_of_neg (by simpa using he), List.mem_cons,
        List.mem_cons, ih hrest]
      constructor
      · rintro (rfl | ⟨hl, hne⟩)
        · exact ⟨.inl rfl, he⟩
        · exact ⟨.inr hl, hne⟩
      · rintro ⟨rfl | hl, hne⟩
        · exact .inl rfl
        · exact .inr ⟨hl, hne⟩

/-- Dropping drops the listed ones. -/
theorem mem_dropOffsets {drops : List Int} (h : Distinct level) :
    l ∈ dropOffsets drops level ↔ l ∈ level ∧ l.offset ∉ drops := by
  have hfold : ∀ (drops : List Int) (level : List DictLeaf), Distinct level →
      (l ∈ drops.foldl (fun level i => level.eraseP (·.offset = i)) level ↔
        l ∈ level ∧ l.offset ∉ drops) := by
    intro drops
    induction drops with
    | nil => simp
    | cons i drops ih =>
      intro level hlevel
      have hsub : Distinct (level.eraseP (·.offset = i)) :=
        hlevel.sublist (List.eraseP_sublist.map _)
      rw [List.foldl_cons, ih _ hsub, mem_eraseP_offset hlevel, List.mem_cons,
        not_or, and_assoc]
  rw [dropOffsets, hfold _ _ h, List.mem_reverse]

theorem mem_sortOffsets : l ∈ sortOffsets level ↔ l ∈ level :=
  (List.mergeSort_perm _ _).mem_iff

theorem Distinct.sortOffsets (h : Distinct level) :
    Distinct (sortOffsets level) :=
  ((List.mergeSort_perm _ _).map _).nodup_iff.mpr h

/-- A peer is found at its offset. -/
theorem findPeer_some (h : Distinct level) {o : Int} :
    findPeer level o = some l ↔ l ∈ level ∧ l.offset = o := by
  constructor
  · intro hf
    exact ⟨List.mem_of_find?_eq_some hf, by simpa using List.find?_some hf⟩
  · rintro ⟨hl, rfl⟩
    obtain ⟨l', hl'⟩ := Option.isSome_iff_exists.mp
      (List.find?_isSome (p := fun e : DictLeaf =>
        decide (e.offset = l.offset)).mpr ⟨l, hl, decide_eq_true rfl⟩)
    have hoff : l'.offset = l.offset := by simpa using List.find?_some hl'
    rw [h.same hl (List.mem_of_find?_eq_some hl') hoff.symm]
    exact (h.same (List.mem_of_find?_eq_some hl') hl hoff) ▸ hl'

/-- Sorting changes nothing about what is dropped. -/
theorem dropped_iff (h : Distinct level) :
    Dropped (sortOffsets level) v ↔ Stored level v ∧ ¬ Flagged level v ∧
    Stored level (across v) ∧
      ¬ Flagged level (across v) := by
  -- a pair of drops is named from either end
  have hback : ∀ o : Int, across (across o) = o := by
    intro o
    unfold across
    split <;> split <;> omega
  have hunflagged : ∀ {e : DictLeaf}, e ∈ level →
      (e.txid = false ↔ ¬ Flagged level e.offset) := by
    intro e he
    constructor
    · rintro hfalse ⟨f, hf, hoff, hflag⟩
      rw [h.same hf he hoff, hfalse] at hflag
      cases hflag
    · intro hno
      by_contra htrue
      exact hno ⟨e, he, rfl, by simpa using htrue⟩
  constructor
  · rintro ⟨e, he, hno, peer, hpeer, hpno, rfl⟩
    rw [mem_sortOffsets] at he
    obtain ⟨hp, hoff⟩ := (findPeer_some h.sortOffsets).mp hpeer
    rw [mem_sortOffsets] at hp
    have hacross : across peer.offset = e.offset := by rw [hoff, hback]
    exact ⟨⟨peer, hp, rfl⟩, (hunflagged hp).mp hpno,
      ⟨e, he, hacross.symm⟩, by rw [hacross]; exact (hunflagged he).mp hno⟩
  · rintro ⟨⟨peer, hp, rfl⟩, hpno, ⟨e, he, hoff⟩, hno⟩
    refine ⟨e, mem_sortOffsets.mpr he,
      (hunflagged he).mpr (by rw [hoff]; exact hno), peer,
      (findPeer_some h.sortOffsets).mpr ⟨mem_sortOffsets.mpr hp, by rw [hoff,
        hback]⟩, (hunflagged hp).mpr hpno, rfl⟩

theorem dropOffsets_nil (drops : List Int) : dropOffsets drops [] = [] := by
  have hfold : ∀ drops : List Int,
      drops.foldl (fun (level : List DictLeaf) i =>
        level.eraseP (·.offset = i)) [] = [] := by
    intro drops
    induction drops with
    | nil => rfl
    | cons i drops ih => exact ih
  exact hfold _

/-- What trimming leaves of a level. -/
theorem getD_trimAbove : ∀ (levels : List (List DictLeaf))
    (computed : List Int) (h : Nat),
    ∃ cos, (trimAbove computed levels).getD h [] = dropOffsets cos
      (levels.getD h []) ∧
      ∀ v, v ∈ cos ↔ ∃ o ∈ computed, v = o / 2 ^ h := by
  intro levels
  induction levels with
  | nil =>
    intro computed h
    obtain ⟨cos, hcos⟩ : ∃ cos : List Int, ∀ v, v ∈ cos ↔
        ∃ o ∈ computed, v = o / 2 ^ h :=
      ⟨computed.map (· / 2 ^ h), fun v => by simp only [List.mem_map, eq_comm]⟩
    exact ⟨cos, by rw [trimAbove, List.getD_nil, dropOffsets_nil], hcos⟩
  | cons level levels ih =>
    intro computed h
    cases h with
    | zero => exact ⟨computed, rfl, fun v => by simp⟩
    | succ h =>
      -- one level up, every offset that can be computed is halved
      obtain ⟨cos, hlevel, hmem⟩ := ih (nextComputedOffsets computed) h
      refine ⟨cos, hlevel, fun v => ?_⟩
      rw [hmem]
      simp only [mem_nextComputedOffsets]
      constructor
      · rintro ⟨_, ⟨o, ho, rfl⟩, rfl⟩
        exact ⟨o, ho, half_pow o h⟩
      · rintro ⟨o, ho, rfl⟩
        exact ⟨_, ⟨o, ho, rfl⟩, (half_pow o h).symm⟩

variable {path : List (List DictLeaf)}

/-- **What `trim` leaves**: of the lowest level what is not dropped, of any
other what is not above a flagged leaf. -/
theorem mem_trimLevels (hpath : ∀ level ∈ path, Distinct level) :
    (l ∈ (trimLevels path).getD 0 [] ↔ l ∈ path.getD 0 [] ∧
      ¬ Dropped (sortOffsets (path.getD 0 [])) l.offset) ∧
    ∀ h, l ∈ (trimLevels path).getD (h + 1) [] ↔ l ∈ path.getD (h + 1) [] ∧
      ¬ ∃ o, Flagged (path.getD 0 []) o ∧ l.offset = o / 2 ^ (h + 1) := by
  cases path with
  | nil => simp [trimLevels]
  | cons level levels =>
    have hlevel : Distinct (sortOffsets level) :=
      (hpath level List.mem_cons_self).sortOffsets
    -- the scan starts from empty lists: what they hold at its end it has put
    -- there
    have hscan :=
      fun v => @mem_trimScan (sortOffsets level) v (sortOffsets level) ([], [])
    constructor
    · show l ∈ dropOffsets _ (sortOffsets level) ↔ _
      rw [mem_dropOffsets hlevel, (hscan _).2, mem_sortOffsets]
      simp only [List.not_mem_nil, false_or]
      rfl
    · intro h
      obtain ⟨cos, hcos, hmem⟩ := getD_trimAbove (levels.map sortOffsets)
        ((sortOffsets level).foldl (trimStep (sortOffsets level)) ([], [])).1 h
      have hat : (levels.map sortOffsets).getD h [] =
          sortOffsets (levels.getD h []) := by
        rw [List.getD_eq_getElem?_getD, List.getElem?_map,
          List.getD_eq_getElem?_getD]
        cases levels[h]? with
        | none =>
          simp only [Option.map_none, Option.getD_none, sortOffsets,
            List.mergeSort_nil]
        | some level => rfl
      have habove : Distinct (sortOffsets (levels.getD h [])) := by
        refine Distinct.sortOffsets ?_
        by_cases hh : h < levels.length
        · rw [List.getD_eq_getElem _ _ hh]
          exact hpath _ (List.mem_cons_of_mem _ (List.getElem_mem hh))
        · rw [List.getD_eq_default _ _ (by omega)]
          exact List.nodup_nil
      show l ∈ (trimAbove _ (levels.map sortOffsets)).getD h [] ↔ _
      rw [hcos, hat, mem_dropOffsets habove, mem_sortOffsets, hmem]
      refine and_congr_right fun _ => not_congr ?_
      simp only [(hscan _).1, List.not_mem_nil, false_or, mem_sortOffsets]
      constructor
      · rintro ⟨_, ⟨e, he, hflag, rfl⟩, hoff⟩
        refine ⟨e.offset, ⟨e, he, rfl, hflag⟩, ?_⟩
        rw [hoff, half_pow]
      · rintro ⟨_, ⟨e, he, rfl, hflag⟩, hoff⟩
        refine ⟨_, ⟨e, he, hflag, rfl⟩, ?_⟩
        rw [hoff, half_pow]

end Trim

/-! ## The union -/

section Union

variable {ours theirs : List DictLeaf} {o : Int}

/-- A leaf, flagged where another level has the key at its offset. -/
def mark (theirs : List DictLeaf) (e : DictLeaf) : DictLeaf :=
  if theirs.any fun leaf => leaf.hasTxid &&
    decide (e.offset = leaf.offset) then e.flag else e

theorem mark_offset (theirs : List DictLeaf) (e : DictLeaf) :
    (mark theirs e).offset = e.offset := by
  unfold mark
  split <;> rfl

/-- Flagging changes nothing that a block knows of. -/
theorem mark_agrees {k : Block} {h : Nat} {e : DictLeaf} :
    k.Agrees h (mark theirs e).toMerkleLeaf ↔ k.Agrees h e.toMerkleLeaf := by
  unfold mark
  split
  · rfl
  · rfl

/-- A leaf is marked when the other proof has the key there. -/
theorem any_keyed {e : DictLeaf} :
    (theirs.any fun leaf => leaf.hasTxid &&
      decide (e.offset = leaf.offset)) = true ↔
      Keyed theirs e.offset := by
  simp only [List.any_eq_true, Bool.and_eq_true, decide_eq_true_eq]
  exact ⟨fun ⟨l, hl, hkey, hoff⟩ => ⟨l, hl, hoff.symm, hkey⟩,
    fun ⟨l, hl, hoff, hkey⟩ => ⟨l, hl, hkey, hoff.symm⟩⟩

/-- A flag is kept, or set by that key. -/
theorem mark_txid {e : DictLeaf} :
    (mark theirs e).txid = true ↔ e.txid = true ∨ Keyed theirs e.offset := by
  unfold mark
  split
  · next hany => exact ⟨fun _ => .inr (any_keyed.mp hany), fun _ => rfl⟩
  · next hany => exact ⟨.inl, fun h => h.resolve_right fun hkey =>
      hany (any_keyed.mpr hkey)⟩

/-- The source's loop over the leaves of the other path flags each leaf once and
for all. -/
theorem combineLevel_eq (ours theirs : List DictLeaf) :
    combineLevel ours theirs =
    (ours ++ theirs.filter fun leaf => leaf.offset ∉ ours.map (·.offset)).map
      (mark theirs) := by
  have hfold : ∀ theirs combined : List DictLeaf,
      theirs.foldl (fun combined leaf =>
      if leaf.hasTxid then combined.map fun e => if e.offset =
        leaf.offset then e.flag else e
      else combined) combined = combined.map (mark theirs) := by
    intro theirs
    induction theirs with
    | nil =>
      intro combined
      have hid : (mark []) = id := by
        funext e
        simp [mark]
      rw [List.foldl_nil, hid, List.map_id]
    | cons leaf theirs ih =>
      intro combined
      -- a turn of the source's loop sets the flag of the leaves at one offset
      rw [List.foldl_cons, ih]
      cases hkey : leaf.hasTxid with
      | false => simp [mark, hkey]
      | true =>
        rw [if_pos rfl, List.map_map]
        refine List.map_congr_left fun e _ => ?_
        by_cases he : e.offset = leaf.offset
        · by_cases hrest : (theirs.any fun l => l.hasTxid &&
            decide (leaf.offset = l.offset)) = true
          · simp [mark, hkey, he, DictLeaf.flag, hrest]
          · simp [mark, hkey, he, DictLeaf.flag, hrest]
        · simp [mark, hkey, he]
  exact hfold theirs _

/-- A combined level stores what either does. -/
theorem stored_combineLevel : Stored (combineLevel ours theirs) o ↔
    Stored (ours ++ theirs) o := by
  rw [combineLevel_eq]
  constructor
  · rintro ⟨_, hmem, rfl⟩
    obtain ⟨e, he, rfl⟩ := List.mem_map.mp hmem
    rw [List.mem_append, List.mem_filter] at he
    exact ⟨e, List.mem_append.mpr (he.imp_right And.left),
      (mark_offset theirs e).symm⟩
  · rintro ⟨e, he, rfl⟩
    by_cases hours : e.offset ∈ ours.map (·.offset)
    · obtain ⟨e', he', hoff⟩ := List.mem_map.mp hours
      exact ⟨mark theirs e', List.mem_map_of_mem (List.mem_append_left _ he'),
        (mark_offset _ _).trans hoff⟩
    · have htheirs : e ∈ theirs := (List.mem_append.mp he).resolve_left fun h =>
        hours (List.mem_map_of_mem h)
      exact ⟨mark theirs e, List.mem_map_of_mem (List.mem_append_right _
        (List.mem_filter.mpr ⟨htheirs, decide_eq_true hours⟩)), mark_offset _ _⟩

/-- What is flagged in a level of the union. -/
theorem flagged_combineLevel :
    Flagged (combineLevel ours theirs) o ↔ Flagged ours o ∨ Keyed theirs o := by
  rw [combineLevel_eq]
  constructor
  · rintro ⟨_, hmem, rfl, hflag⟩
    obtain ⟨e, he, rfl⟩ := List.mem_map.mp hmem
    rw [List.mem_append, List.mem_filter] at he
    rw [mark_offset]
    rcases mark_txid.mp hflag with hflag | hkey
    · rcases he with he | ⟨he, -⟩
      · exact .inl ⟨e, he, rfl, hflag⟩
      · exact .inr ⟨e, he, rfl, e.hasTxid_of_txid hflag⟩
    · exact .inr hkey
  · rintro (⟨e, he, rfl, hflag⟩ | ⟨e, he, rfl, hkey⟩)
    · exact ⟨mark theirs e, List.mem_map_of_mem (List.mem_append_left _ he),
        mark_offset _ _,
        mark_txid.mpr (.inl hflag)⟩
    · by_cases hours : e.offset ∈ ours.map (·.offset)
      · obtain ⟨e', he', hoff⟩ := List.mem_map.mp hours
        exact ⟨mark theirs e', List.mem_map_of_mem (List.mem_append_left _ he'),
          (mark_offset _ _).trans hoff,
            mark_txid.mpr (.inr ⟨e, he, hoff.symm, hkey⟩)⟩
      · exact ⟨mark theirs e, List.mem_map_of_mem (List.mem_append_right _
          (List.mem_filter.mpr ⟨he, decide_eq_true hours⟩)), mark_offset _ _,
          mark_txid.mpr (.inr ⟨e, he, rfl, hkey⟩)⟩

theorem distinct_combineLevel (hours : Distinct ours)
    (htheirs : Distinct theirs) :
    Distinct (combineLevel ours theirs) := by
  have hmark : (fun e : DictLeaf => e.offset) ∘ mark theirs =
      fun e => e.offset :=
    funext fun e => mark_offset theirs e
  rw [Distinct, combineLevel_eq, List.map_map, hmark, List.map_append]
  refine hours.append (htheirs.sublist (List.filter_sublist.map _)) ?_
  intro o ho htheir
  obtain ⟨e, he, rfl⟩ := List.mem_map.mp htheir
  exact of_decide_eq_true (List.mem_filter.mp he).2 ho

theorem agrees_combineLevel {k : Block} {h : Nat}
    (hours : ∀ l ∈ ours, k.Agrees h l.toMerkleLeaf)
    (htheirs : ∀ l ∈ theirs, k.Agrees h l.toMerkleLeaf) :
    ∀ l ∈ combineLevel ours theirs, k.Agrees h l.toMerkleLeaf := by
  intro l hl
  rw [combineLevel_eq] at hl
  obtain ⟨e, he, rfl⟩ := List.mem_map.mp hl
  rw [List.mem_append, List.mem_filter] at he
  exact mark_agrees.mpr (he.elim (hours e) fun h => htheirs e h.1)

/-- Proofs of one depth combine level by level. -/
theorem combineLevels_ok : ∀ {path path' : List (List DictLeaf)}, path.length =
    path'.length →
    ∃ combined, combineLevels path path' = .ok combined ∧
    combined.length = path.length ∧
      ∀ h, combined.getD h [] =
        combineLevel (path.getD h []) (path'.getD h []) := by
  intro path
  induction path with
  | nil =>
    intro path' hlen
    rw [List.eq_nil_of_length_eq_zero hlen.symm]
    exact ⟨[], rfl, rfl, fun h => rfl⟩
  | cons level path ih =>
    intro path' hlen
    cases path' with
    | nil => cases hlen
    | cons level' path' =>
      obtain ⟨rest, hrest, hlenRest, hlevels⟩ := ih (Nat.succ.inj hlen)
      refine ⟨combineLevel level level' :: rest, by rw [combineLevels, hrest,
        ok_bind, pure_eq_ok], ?_, ?_⟩
      · rw [List.length_cons, List.length_cons, hlenRest]
      · intro h
        cases h with
        | zero => rfl
        | succ h => exact hlevels h

end Union

/-! ## The block's tree -/

end DictPath

namespace Block

variable {k : Block} {h : Nat} {o : Int} {b : Bytes}

/-- The code's hash of two displayed nodes. -/
theorem hashFn_display (l r : Bytes) :
    hashFn (display r ++ display l) = .ok (display (joinHash l r)) := by
  have hjoin : display r ++ display l = hex (r.reverse ++ l.reverse) := by
    apply String.toList_injective
    rw [String.toList_append, display, display, hex, hex, hex,
      String.toList_ofList, String.toList_ofList, String.toList_ofList,
      hexChars_append]
  rw [hashFn, hjoin, toBytesHex_hex, ok_bind, List.reverse_append,
    List.reverse_reverse, List.reverse_reverse]
  rfl

theorem node_some : k.node h o = some b ↔
    0 ≤ o ∧ (k.nodes h)[o.toNat]? = some b := by
  unfold node
  by_cases ho : o < 0
  · rw [if_pos ho]
    exact ⟨nofun, fun hb => absurd ho (by omega)⟩
  · rw [if_neg ho]
    exact ⟨fun hb => ⟨by omega, hb⟩, And.right⟩

/-- Left of a node that is there, there is one. -/
theorem node_left (hb : k.node h (2 * o + 1) = some b) :
    ∃ l, k.node h (2 * o) = some l := by
  obtain ⟨ho, hget⟩ := node_some.mp hb
  obtain ⟨hlt, -⟩ := List.getElem?_eq_some_iff.mp hget
  have hleft : (2 * o).toNat < (k.nodes h).length := by omega
  exact ⟨_, node_some.mpr ⟨by omega, List.getElem?_eq_getElem hleft⟩⟩

/-- The node above a left one. -/
theorem node_parent {l : Bytes} (hl : k.node h (2 * o) = some l) :
    k.node (h + 1) o = some (joinHash l ((k.node h (2 * o + 1)).getD l)) := by
  obtain ⟨ho, hget⟩ := node_some.mp hl
  obtain ⟨hlt, hl'⟩ := List.getElem?_eq_some_iff.mp hget
  have hhalf : (2 * o).toNat / 2 = o.toNat := by omega
  have heven : (2 * o).toNat % 2 = 0 := by omega
  have hup : (nextLevel joinHash (k.nodes h))[(2 * o).toNat / 2]? =
      some (joinAt joinHash (2 * o).toNat l (siblingAt (k.nodes h) (2 *
        o).toNat l)) := nextLevel_getElem? joinHash hget
  rw [hhalf, joinAt, if_pos heven] at hup
  have hsibling : siblingAt (k.nodes h) (2 * o).toNat l =
      (k.node h (2 * o + 1)).getD l := by
    rw [siblingAt, partner, if_pos heven, node, if_neg (by omega),
      show (2 * o + 1).toNat = (2 * o).toNat + 1 by omega]
    by_cases hnext : (2 * o).toNat + 1 < (k.nodes h).length
    · rw [Nat.min_eq_left (by omega), List.getElem?_eq_getElem hnext,
        List.getD_eq_getElem _ _ hnext]
      rfl
    · rw [Nat.min_eq_right (by omega),
        show (k.nodes h).length - 1 = (2 * o).toNat by omega,
        List.getElem?_eq_none (by omega), List.getD_eq_getElem _ _ hlt, hl']
      rfl
  have hnodes : k.nodes (h + 1) = nextLevel joinHash (k.nodes h) :=
    Function.iterate_succ_apply' _ _ _
  rw [hsibling, ← hnodes] at hup
  exact node_some.mpr ⟨by omega, hup⟩

/-- A displayed hash determines the hash. -/
theorem display_injective {a b : Bytes}
    (hab : display a = display b) : a = b := by
  have hread := congrArg fromHex hab
  rw [fromHex_display, fromHex_display, Option.some.injEq] at hread
  exact List.reverse_injective hread

/-- A transaction stands at one offset. -/
theorem node_distinct {o' : Int} (hb : k.node 0 o = some b)
    (hb' : k.node 0 o' = some b) : o = o' := by
  obtain ⟨ho, hget⟩ := node_some.mp hb
  obtain ⟨ho', hget'⟩ := node_some.mp hb'
  obtain ⟨hlt, -⟩ := List.getElem?_eq_some_iff.mp hget
  have hsame : o.toNat = o'.toNat :=
    (List.getElem?_inj hlt k.distinct).mp (hget.trans hget'.symm)
  omega

theorem length_joinHash (l r : Bytes) : (joinHash l r).length = 32 :=
  length_sha256 _

theorem length_node (hb : k.node h o = some b) : b.length = 32 := by
  have hnext : ∀ level : List Bytes, ∀ x ∈ nextLevel joinHash level,
      x.length = 32 := by
    intro level
    induction level using nextLevel.induct with
    | case1 => exact fun _ hx => absurd hx List.not_mem_nil
    | case2 x => exact List.forall_mem_singleton.mpr (length_joinHash x x)
    | case3 x y rest ih =>
      exact List.forall_mem_cons.mpr ⟨length_joinHash x y, ih⟩
  obtain ⟨-, hget⟩ := node_some.mp hb
  have hmem := List.mem_of_getElem? hget
  cases h with
  | zero => exact k.sizes b hmem
  | succ h =>
    rw [show k.nodes (h + 1) = nextLevel joinHash (k.nodes h)
      from Function.iterate_succ_apply' _ _ _] at hmem
    exact hnext _ b hmem

/-- Above a node there is one, all the way up. -/
theorem node_above (hb : k.node 0 o = some b) : ∀ h, ∃ b', k.node h (o / 2 ^ h) = some b' := by
  intro h
  induction h with
  | zero => exact ⟨b, by rw [DictPath.div_base]; exact hb⟩
  | succ h ih =>
    obtain ⟨b', hb'⟩ := ih
    have hhalf : o / 2 ^ (h + 1) = o / 2 ^ h / 2 := by
      rw [Int.ediv_ediv_of_nonneg (Int.le_of_lt (Int.pow_pos (by decide))),
        Int.pow_succ]
    have hleft : ∃ l, k.node h (2 * (o / 2 ^ (h + 1))) = some l := by
      rcases Int.emod_two_eq_zero_or_one (o / 2 ^ h) with hpar | hpar
      · exact ⟨b', by rw [show 2 * (o / 2 ^ (h + 1)) =
          o / 2 ^ h by omega]; exact hb'⟩
      · exact node_left (b := b') (by rw [show 2 * (o / 2 ^ (h + 1)) + 1 = o / 2 ^ h by omega]; exact hb')
    obtain ⟨l, hl⟩ := hleft
    exact ⟨_, node_parent hl⟩

theorem node_top (hb : k.node k.depth o = some b) : b = k.root := by
  obtain ⟨-, hget⟩ := node_some.mp hb
  have hmem := List.mem_of_getElem? hget
  rw [nodes, k.top, List.mem_singleton] at hmem
  exact hmem

/-- A leaf that agrees has its node's hash, or doubles its neighbour. -/
theorem Agrees.cases {leaf : MerkleLeaf} (hl : k.Agrees h leaf) :
    (∃ b, k.node h leaf.offset = some b ∧ leaf.hashStr = some (display b) ∧
      leaf.duplicate = false) ∨
    (k.node h leaf.offset = none ∧ leaf.hashStr = none ∧
      leaf.duplicate = true) := by
  unfold Agrees at hl
  cases hnode : k.node h leaf.offset with
  | some b =>
    rw [hnode] at hl
    exact .inl ⟨b, rfl, hl⟩
  | none =>
    rw [hnode] at hl
    exact .inr ⟨rfl, hl⟩

end Block

namespace MerklePath

/-! ## Climbing in a block -/

/-- Every leaf is what the block has at its place. -/
def AgreesWith (p : MerklePath) (k : Block) : Prop :=
  ∀ h, ∀ leaf ∈ p.level h, k.Agrees h leaf

/-- The node is stored or can be computed. -/
def Findable (p : MerklePath) (h : Nat) (o : Int) : Prop :=
  ∃ leaf, p.findOrComputeLeaf h o = .ok (some leaf)

/-- A leaf at this offset. -/
def Stored (level : List MerkleLeaf) (offset : Int) : Prop :=
  ∃ leaf ∈ level, leaf.offset = offset

section Climb

variable {k : Block} {p : MerklePath} {h : Nat} {o t : Int} {b : Bytes}

theorem usableHash_display {l : MerkleLeaf} (hl : l.hashStr = some (display b))
    (hb : b.length = 32) :
    usableHash (some l) = some (display b) := by
  have hne : display b ≠ "" := by
    intro hempty
    have hlen := length_display hb
    rw [hempty] at hlen
    cases hlen
  rw [usableHash, Option.bind_some, hl]
  exact if_neg hne

/-- What is computed from a node of the block and the leaf right of it is the
leaf above them. -/
theorem computed_agrees {l1 : MerkleLeaf} (h1 : k.Agrees h l1) (hl0 : k.node h (2 * o) = some b)
    (hoff1 : l1.offset = 2 * o + 1) : ∃ hash1 w,
      (if l1.duplicate then .ok (display b) else l1.needHash) = (.ok hash1 : Except PyErr String) ∧
      hashFn (hash1 ++ display b) = .ok w ∧ k.Agrees (h + 1) ⟨o, some w, false, false⟩ := by
  have hparent := Block.node_parent hl0
  have habove : ∀ w : Bytes, k.node (h + 1) o = some w →
      k.Agrees (h + 1) ⟨o, some (display w), false, false⟩ := by
    intro w hw
    rw [Block.Agrees, hw]
    exact ⟨rfl, rfl⟩
  rcases h1.cases with ⟨r, hr, hhash, hdup⟩ | ⟨hr, -, hdup⟩
  · rw [hoff1] at hr
    rw [hr, Option.getD_some] at hparent
    exact ⟨display r, _, by rw [hdup, MerkleLeaf.needHash, hhash]; rfl, Block.hashFn_display b r, habove _ hparent⟩
  · rw [hoff1] at hr
    rw [hr, Option.getD_none] at hparent
    exact ⟨display b,
      _, by rw [hdup]; rfl, Block.hashFn_display b b, habove _ hparent⟩

/-- Nothing is raised, and what is found is what the block has. -/
theorem find_agrees (hp : p.AgreesWith k) : ∀ (h : Nat)
    (o : Int), ∃ r, p.findOrComputeLeaf h o = .ok r ∧
    ∀ leaf ∈ r, leaf.offset = o ∧ k.Agrees h leaf := by
  have hstored : ∀ h o, ∀ leaf ∈ findLeaf (p.level h) o, leaf.offset = o ∧
      k.Agrees h leaf := by
    intro h o leaf hleaf
    exact ⟨by simpa using List.find?_some hleaf, hp h leaf (List.mem_of_find?_eq_some
      hleaf)⟩
  intro h
  -- up the levels: a node is stored, or computed from two that agree below
  induction h with
  | zero => exact fun o => ⟨_, rfl, hstored 0 o⟩
  | succ h ih =>
    intro o
    rw [findOrComputeLeaf]
    cases hfound : findLeaf (p.level (h + 1)) o with
    | some leaf =>
      exact ⟨some leaf, rfl,
        fun l hl => hstored (h + 1) o l (by rw [hfound]; exact hl)⟩
    | none =>
      obtain ⟨r0, hr0, hagree0⟩ := ih (2 * o)
      obtain ⟨r1, hr1, hagree1⟩ := ih (2 * o + 1)
      simp only [hr0, ok_bind]
      cases husable : usableHash r0 with
      | none => exact ⟨none, rfl, fun _ h => by cases h⟩
      | some hash0 =>
        simp only [hr1, ok_bind]
        cases r1 with
        | none => exact ⟨none, rfl, fun _ h => by cases h⟩
        | some l1 =>
          cases r0 with
          | none => cases husable
          | some l0 =>
            obtain ⟨hoff0, h0⟩ := hagree0 l0 rfl
            obtain ⟨hoff1, h1⟩ := hagree1 l1 rfl
            rcases h0.cases with ⟨b, hb, hhash, -⟩ | ⟨-, hnone, -⟩
            · rw [usableHash_display hhash (Block.length_node hb),
                Option.some.injEq] at husable
              subst husable
              rw [hoff0] at hb
              obtain ⟨hash1, w, hsecond, hw, hagree⟩ :=
                computed_agrees h1 hb hoff1
              refine ⟨some ⟨o, some w, false, false⟩, ?_, ?_⟩
              · simp only [hsecond, ok_bind, hw, pure_eq_ok]
              · rintro leaf ⟨⟩
                exact ⟨rfl, hagree⟩
            · rw [usableHash, Option.bind_some, hnone] at husable
              cases husable

/-- At the bottom a node is found when stored. -/
theorem findable_zero : p.Findable 0 o ↔ Stored (p.level 0) o := by
  constructor
  · rintro ⟨leaf, hleaf⟩
    rw [findOrComputeLeaf, Except.ok.injEq] at hleaf
    exact ⟨leaf,
      List.mem_of_find?_eq_some hleaf, by simpa using List.find?_some hleaf⟩
  · rintro ⟨leaf, hleaf, rfl⟩
    obtain ⟨found, hfound⟩ := Option.isSome_iff_exists.mp
      (List.find?_isSome (p := fun e : MerkleLeaf =>
        decide (e.offset = leaf.offset)).mpr ⟨leaf, hleaf, decide_eq_true rfl⟩)
    exact ⟨found, by rw [findOrComputeLeaf, findLeaf, hfound]⟩

theorem Stored.findable (hs : Stored (p.level h) o) : p.Findable h o := by
  cases h with
  | zero => exact findable_zero.mpr hs
  | succ h =>
    obtain ⟨leaf, hleaf, rfl⟩ := hs
    obtain ⟨found, hfound⟩ := Option.isSome_iff_exists.mp
      (List.find?_isSome (p := fun e : MerkleLeaf =>
        decide (e.offset = leaf.offset)).mpr ⟨leaf, hleaf, decide_eq_true rfl⟩)
    have hleaf : findLeaf (p.level (h + 1)) leaf.offset = some found := hfound
    exact ⟨found, by rw [findOrComputeLeaf, hleaf]⟩

/-- A node above two that are found is found. -/
theorem findable_above (hp : p.AgreesWith k) (hb : k.node h (2 * o) = some b)
    (h0 : p.Findable h (2 * o))
    (h1 : p.Findable h (2 * o + 1)) : p.Findable (h + 1) o := by
  obtain ⟨l0, hl0⟩ := h0
  obtain ⟨l1, hl1⟩ := h1
  unfold Findable
  rw [findOrComputeLeaf]
  cases hfound : findLeaf (p.level (h + 1)) o with
  | some leaf => exact ⟨leaf, rfl⟩
  | none =>
    obtain ⟨r0, hr0, hagree0⟩ := find_agrees hp h (2 * o)
    obtain ⟨r1, hr1, hagree1⟩ := find_agrees hp h (2 * o + 1)
    rw [hl0, Except.ok.injEq] at hr0
    rw [hl1, Except.ok.injEq] at hr1
    obtain ⟨hoff0, ha0⟩ := hagree0 l0 hr0.symm
    obtain ⟨hoff1, ha1⟩ := hagree1 l1 hr1.symm
    rcases ha0.cases with ⟨b', hb', hhash, -⟩ | ⟨hno, -⟩
    · rw [hoff0, hb, Option.some.injEq] at hb'
      subst hb'
      obtain ⟨hash1, w, hsecond, hw, -⟩ := computed_agrees ha1 hb hoff1
      have husable := usableHash_display hhash (Block.length_node hb)
      exact ⟨⟨o, some w, false, false⟩, by simp only [hl0, hl1, ok_bind,
        husable, hsecond, hw, pure_eq_ok]⟩
    · rw [hoff0, hb] at hno
      cases hno

/-- Halving at once or one more time. -/
theorem pow_half (t : Int) (h : Nat) : t / 2 ^ (h + 1) = t / 2 ^ h / 2 := by
  rw [Int.ediv_ediv_of_nonneg (Int.le_of_lt (Int.pow_pos (by decide))),
    Int.pow_succ]

/-- A turn of the loop of `compute_root` whose sibling is found. -/
theorem climb_step (hp : p.AgreesWith k) (hb : k.node h (t / 2 ^ h) = some b)
    (hfind : p.Findable h (xorOne (t / 2 ^ h))) : ∃ b', k.node (h + 1)
      (t / 2 ^ (h + 1)) = some b' ∧
      ∀ n, p.climbFrom t (n + 1) h (display b) =
        p.climbFrom t n (h + 1) (display b') := by
  obtain ⟨leaf, hleaf⟩ := hfind
  obtain ⟨r, hr, hagree⟩ := find_agrees hp h (xorOne (t / 2 ^ h))
  rw [hleaf, Except.ok.injEq] at hr
  obtain ⟨hoff, ha⟩ := hagree leaf hr.symm
  have hhalf := pow_half t h
  -- an even node is joined with the one to its right, an odd one with its left
  rcases Int.emod_two_eq_zero_or_one (t / 2 ^ h) with hpar | hpar
  · have hxor : xorOne (t / 2 ^ h) = t / 2 ^ h + 1 := if_pos hpar
    have hself : 2 * (t / 2 ^ (h + 1)) = t / 2 ^ h := by omega
    have hparent := Block.node_parent (k := k) (h := h)
      (o := t / 2 ^ (h + 1)) (by rw [hself]; exact hb)
    rw [hself] at hparent
    rcases ha.cases with ⟨s, hs, hhash, hdup⟩ | ⟨hs, -, hdup⟩
    · rw [hoff, hxor] at hs
      rw [hs, Option.getD_some] at hparent
      refine ⟨_, hparent, fun n => ?_⟩
      have hodd : (t / 2 ^ h + 1) % 2 ≠ 0 := by omega
      rw [climbFrom]
      simp only [hxor, hxor ▸ hleaf, ok_bind, hdup, MerkleLeaf.needHash, hhash,
        hodd, ne_eq, not_false_eq_true, and_self, if_true, Bool.false_eq_true,
        if_false, Block.hashFn_display]
    · rw [hoff, hxor] at hs
      rw [hs, Option.getD_none] at hparent
      refine ⟨_, hparent, fun n => ?_⟩
      rw [climbFrom]
      simp only [hxor, hxor ▸ hleaf, ok_bind, hdup, if_true, Bool.true_eq_false,
        false_and, if_false, Block.hashFn_display]
  · have hxor : xorOne (t / 2 ^ h) = t / 2 ^ h - 1 := if_neg (by omega)
    have hself : 2 * (t / 2 ^ (h + 1)) + 1 = t / 2 ^ h := by omega
    have hleft : 2 * (t / 2 ^ (h + 1)) = t / 2 ^ h - 1 := by omega
    obtain ⟨l, hl⟩ := Block.node_left (k := k) (h := h)
      (o := t / 2 ^ (h + 1)) (by rw [hself]; exact hb)
    have hparent := Block.node_parent hl
    rw [hself, hb, Option.getD_some] at hparent
    refine ⟨_, hparent, fun n => ?_⟩
    rw [hleft] at hl
    rcases ha.cases with ⟨s, hs, hhash, hdup⟩ | ⟨hs, -⟩
    · rw [hoff, hxor, hl, Option.some.injEq] at hs
      subst hs
      have heven : ¬ (t / 2 ^ h - 1) % 2 ≠ 0 := by omega
      rw [climbFrom]
      simp only [hxor, hxor ▸ hleaf, ok_bind, hdup, MerkleLeaf.needHash, hhash,
        heven, and_false, if_false, Bool.false_eq_true, Block.hashFn_display]
    · rw [hoff, hxor, hl] at hs
      cases hs

/-- With every sibling found, the climb ends at the block's node. -/
theorem climb_found (hp : p.AgreesWith k) : ∀ (n h : Nat)
    {b : Bytes}, k.node h (t / 2 ^ h) = some b →
    (∀ j, h ≤ j → j < h + n → p.Findable j (xorOne (t / 2 ^ j))) →
    ∃ b', k.node (h + n) (t / 2 ^ (h + n)) = some b' ∧
    p.climbFrom t n h (display b) = .ok (display b') := by
  intro n
  induction n with
  | zero => exact fun h b hb _ => ⟨b, hb, rfl⟩
  | succ n ih =>
    intro h b hb hfind
    obtain ⟨b', hb', hstep⟩ :=
      climb_step hp hb (hfind h (Nat.le_refl h) (by omega))
    obtain ⟨b'', hb'', hclimb⟩ :=
      ih (h + 1) hb' fun j hj hlt => hfind j (by omega) (by omega)
    rw [show h + (n + 1) = h + 1 + n by omega]
    exact ⟨b'', hb'', by rw [hstep, hclimb]⟩

/-- A sibling that is not found ends it. -/
theorem climb_stuck (hp : p.AgreesWith k) {n : Nat}
    {s w : String} (hno : ¬ p.Findable h (xorOne (t / 2 ^ h))) :
    p.climbFrom t (n + 1) h s ≠ .ok w := by
  obtain ⟨r, hr, -⟩ := find_agrees hp h (xorOne (t / 2 ^ h))
  cases r with
  | some leaf => exact absurd ⟨leaf, hr⟩ hno
  | none =>
    rw [climbFrom]
    simp only [hr, ok_bind]
    intro hw
    cases hw

/-- What comes out of a climb is the block's node. -/
theorem climb_sound (hp : p.AgreesWith k) : ∀ (n h : Nat)
    {b : Bytes} {w : String}, k.node h (t / 2 ^ h) = some b →
    p.climbFrom t n h (display b) = .ok w → ∃ b', k.node (h + n)
    (t / 2 ^ (h + n)) = some b' ∧ w = display b' := by
  intro n
  induction n with
  | zero =>
    intro h b w hb hw
    rw [climbFrom, Except.ok.injEq] at hw
    exact ⟨b, hb, hw.symm⟩
  | succ n ih =>
    intro h b w hb hw
    by_cases hfind : p.Findable h (xorOne (t / 2 ^ h))
    · obtain ⟨b', hb', hstep⟩ := climb_step hp hb hfind
      rw [hstep] at hw
      rw [show h + (n + 1) = h + 1 + n by omega]
      exact ih (h + 1) hb' hw
    · exact absurd hw (climb_stuck hp hfind)

/-- The run of `compute_root` on a transaction of the block starts at its
offset. -/
theorem computeRoot_at (hp : p.AgreesWith k) {leaf : MerkleLeaf}
    (hl : leaf ∈ p.level 0)
    (hb : k.node 0 leaf.offset = some b) :
    p.computeRoot (some (display b)) = p.climbFrom leaf.offset p.path.length 0
      (display b) := by
  have hhash : leaf.hashStr = some (display b) := by
    rcases (hp 0 leaf hl).cases with ⟨b', hb', hhash, -⟩ | ⟨hno, -⟩
    · rw [hb, Option.some.injEq] at hb'
      rw [hb', hhash]
    · rw [hb] at hno
      cases hno
  obtain ⟨found, hfound⟩ := Option.isSome_iff_exists.mp
    (List.find?_isSome (p := fun e : MerkleLeaf =>
      decide (e.hashStr = some (display b))).mpr
      ⟨leaf, hl, decide_eq_true hhash⟩)
  have hsame : found.hashStr =
      some (display b) := by simpa using List.find?_some hfound
  have hoff : found.offset = leaf.offset := by
    rcases (hp 0 found (List.mem_of_find?_eq_some hfound)).cases with ⟨b', hb',
      hhash', -⟩ | ⟨-, hno, -⟩
    · rw [hhash', Option.some.injEq] at hsame
      rw [Block.display_injective hsame] at hb'
      exact Block.node_distinct hb' hb
    · rw [hno] at hsame
      cases hsame
  rw [computeRoot_some, hfound, ← hoff]

end Climb

/-! ## The constructor -/

/-- The offsets of a level tell its leaves. -/
def Distinct (level : List MerkleLeaf) : Prop := (level.map (·.offset)).Nodup

/-- A level that passes has its offsets apart. -/
theorem checkLevel_distinct {p : MerklePath} {showSet : List Int → String}
    {height : Nat} :
    ∀ (leaves : List MerkleLeaf)
      (seen : List Int), p.checkLevel showSet height seen leaves = .ok () →
      Distinct leaves ∧ ∀ l ∈ leaves, l.offset ∉ seen := by
  intro leaves
  induction leaves with
  | nil => exact fun _ _ => ⟨List.nodup_nil, nofun⟩
  | cons leaf leaves ih =>
    intro seen h
    obtain ⟨_, hnew, h⟩ := bind_ok.mp h
    obtain ⟨_, -, h⟩ := bind_ok.mp h
    rw [raiseIf_ok] at hnew
    obtain ⟨hdistinct, hrest⟩ := ih _ h
    refine ⟨List.nodup_cons.mpr ⟨?_, hdistinct⟩,
      List.forall_mem_cons.mpr ⟨hnew, ?_⟩⟩
    · intro hmem
      obtain ⟨l, hl, hoff⟩ := List.mem_map.mp hmem
      exact hrest l hl (List.mem_cons.mpr (.inl hoff))
    · exact fun l hl hseen => hrest l hl (List.mem_cons_of_mem _ hseen)

theorem checkLevels_distinct {p : MerklePath} {showSet : List Int → String} :
    ∀ (path : List (List MerkleLeaf))
      (height : Nat), p.checkLevels showSet height path = .ok () →
      (height = 0 → path.head? ≠ some []) ∧ ∀ level ∈ path, Distinct level := by
  intro path
  induction path with
  | nil => exact fun _ _ => ⟨fun _ => nofun, nofun⟩
  | cons level path ih =>
    intro height h
    obtain ⟨_, hempty, h⟩ := bind_ok.mp h
    obtain ⟨_, hlevel, h⟩ := bind_ok.mp h
    rw [raiseIf_ok] at hempty
    refine ⟨?_,
      List.forall_mem_cons.mpr ⟨(checkLevel_distinct _ _ hlevel).1, (ih _ h).2⟩⟩
    intro hzero hhead
    rw [List.head?_cons, Option.some.injEq] at hhead
    exact hempty ⟨hhead, hzero⟩

section Accepted

variable {k : Block} {p : MerklePath}

/-- A path of the block that is accepted has the block's root. -/
theorem computeRoot_of_init (hagrees : p.AgreesWith k)
    (hdepth : p.path.length = k.depth)
    {showSet : List Int → String} (hinit : p.init showSet = .ok ()) :
    p.computeRoot none = .ok (display k.root) := by
  obtain ⟨hne, hlevels, r, hroots⟩ := init_ok.mp hinit
  have hhead := (checkLevels_distinct _ _ hlevels).1 rfl
  obtain ⟨leaf, hleaf⟩ : ∃ leaf, leaf ∈ p.level 0 := by
    unfold level
    cases hpath : p.path with
    | nil => exact absurd hpath hne
    | cons level path =>
      rw [hpath, List.head?_cons] at hhead
      exact List.exists_mem_of_ne_nil _ fun hnil => hhead (congrArg some hnil)
  have hnone : ∀ s, (p.level 0).findSome? (·.hashStr) = some s →
      p.computeRoot none = p.computeRoot (some s) := by
    intro s hs
    unfold computeRoot
    rw [hs]
    rfl
  -- whatever is taken to start from is the hash of a leaf
  have hsome : ∀ s, (p.level 0).findSome? (·.hashStr) = some s →
      p.computeRoot none = .ok (display k.root) := by
    intro s hs
    obtain ⟨l, hl, hhash⟩ := List.exists_of_findSome?_eq_some hs
    have hcompute := hroots l hl
    rcases (hagrees 0 l hl).cases with ⟨x, hx, hlhash, -⟩ | ⟨-, hno, -⟩
    · rw [hlhash, computeRoot_at hagrees hl hx] at hcompute
      obtain ⟨y, hy, rfl⟩ :=
        climb_sound hagrees _ 0 (by rw [DictPath.div_base]; exact hx) hcompute
      rw [Nat.zero_add, hdepth] at hy
      rw [hlhash, Option.some.injEq] at hhash
      rw [hnone s hs, ← hhash, computeRoot_at hagrees hl hx, hcompute,
        Block.node_top hy]
    · rw [hno] at hhash
      cases hhash
  cases hhash : leaf.hashStr with
  | none =>
    have hcompute := hroots leaf hleaf
    rw [hhash] at hcompute
    obtain ⟨-, -, s, -, hs⟩ := computeRoot_none hcompute
    exact hsome s hs
  | some s =>
    cases hfirst : (p.level 0).findSome? (·.hashStr) with
    | some s' => exact hsome s' hfirst
    | none =>
      have hno := List.findSome?_eq_none_iff.mp hfirst leaf hleaf
      rw [hhash] at hno
      cases hno

/-- A path of the block whose leaves all have their siblings is accepted by the
constructor. -/
theorem init_of_siblings (hagrees : p.AgreesWith k)
    (hdepth : p.path.length = k.depth) (hne : p.path ≠ [])
    {showSet : List Int → String}
    (hlevels : p.checkLevels showSet 0 p.path = .ok ())
    (hfound : ∀ leaf ∈ p.level 0, leaf.duplicate = false ∧
      ∀ j < k.depth, Stored (p.level j) (xorOne (leaf.offset / 2 ^ j))) :
    p.init showSet = .ok () := by
  refine init_ok.mpr ⟨hne, hlevels, display k.root, fun leaf hl => ?_⟩
  obtain ⟨hplain, hstored⟩ := hfound leaf hl
  rcases (hagrees 0 leaf hl).cases with ⟨x, hx, hhash, -⟩ | ⟨-, -, hdup⟩
  · obtain ⟨y, hy, hclimb⟩ :=
      climb_found hagrees (t := leaf.offset) k.depth 0 (b := x)
      (by rw [DictPath.div_base]; exact hx) fun j _ hj =>
        (hstored j (by omega)).findable
    rw [Nat.zero_add] at hy
    rw [hhash, computeRoot_at hagrees hl hx, hdepth, hclimb, Block.node_top hy]
  · rw [hplain] at hdup
    cases hdup

end Accepted

end MerklePath

namespace DictPath

/-! ## Main theorem -/

section OfBlock

variable {k : Block} {p a b : DictPath} {h : Nat} {o : Int}

theorem plain_level (p : DictPath) (h : Nat) :
    p.plain.level h = (p.level h).map (·.toMerkleLeaf) := by
  rw [MerklePath.level, level, plain, List.getD_eq_getElem?_getD,
    List.getD_eq_getElem?_getD,
    List.getElem?_map]
  cases p.path[h]? with
  | none => rfl
  | some leaves => rfl

theorem stored_plain : MerklePath.Stored (p.plain.level h) o ↔
    Stored (p.level h) o := by
  rw [plain_level]
  constructor
  · rintro ⟨_, hmem, rfl⟩
    obtain ⟨leaf, hleaf, rfl⟩ := List.mem_map.mp hmem
    exact ⟨leaf, hleaf, rfl⟩
  · rintro ⟨leaf, hleaf, rfl⟩
    exact ⟨_, List.mem_map_of_mem hleaf, rfl⟩

theorem agreesWith_plain
    (hp : ∀ h, ∀ leaf ∈ p.level h, k.Agrees h leaf.toMerkleLeaf) :
    p.plain.AgreesWith k := by
  intro h leaf hleaf
  rw [plain_level] at hleaf
  obtain ⟨e, he, rfl⟩ := List.mem_map.mp hleaf
  exact hp h e he

/-- A proof of the block has its offsets apart. -/
theorem OfBlock.distinct (hp : OfBlock k p) :
    ∀ level ∈ p.path, Distinct level := by
  obtain ⟨showSet, hinit⟩ := hp.constructed
  intro level hlevel
  have hplain :=
    (MerklePath.checkLevels_distinct _ _ (MerklePath.init_ok.mp hinit).2.1).2 _
    (List.mem_map_of_mem hlevel)
  rw [MerklePath.Distinct, List.map_map] at hplain
  exact hplain

theorem OfBlock.level_distinct (hp : OfBlock k p) (h : Nat) :
    Distinct (p.level h) := by
  unfold level
  by_cases hh : h < p.path.length
  · rw [List.getD_eq_getElem _ _ hh]
    exact hp.distinct _ (List.getElem_mem hh)
  · rw [List.getD_eq_default _ _ (by omega)]
    exact List.nodup_nil

theorem OfBlock.plain_depth (hp : OfBlock k p) :
    p.plain.path.length = k.depth := by
  rw [plain, List.length_map]
  exact hp.depth

theorem OfBlock.depth_pos (hp : OfBlock k p) : 0 < k.depth := by
  obtain ⟨showSet, hinit⟩ := hp.constructed
  rw [← hp.plain_depth]
  exact List.length_pos_of_ne_nil (MerklePath.init_ok.mp hinit).1

theorem OfBlock.root (hp : OfBlock k p) :
    p.plain.computeRoot none = .ok (display k.root) := by
  obtain ⟨showSet, hinit⟩ := hp.constructed
  exact MerklePath.computeRoot_of_init (agreesWith_plain hp.agrees)
    hp.plain_depth hinit

theorem length_trimLevels (path : List (List DictLeaf)) :
    (trimLevels path).length = path.length := by
  have habove : ∀ (levels : List (List DictLeaf)) (computed : List Int),
      (trimAbove computed levels).length = levels.length := by
    intro levels
    induction levels with
    | nil => exact fun _ => rfl
    | cons level levels ih => exact fun computed => congrArg Nat.succ (ih _)
  cases path with
  | nil => rfl
  | cons level levels =>
    exact congrArg Nat.succ ((habove _ _).trans (List.length_map _))

/-- What is left of the union of two paths. -/
structure Trimmed (k : Block) (a b c : DictPath) : Prop where
  depth : c.path.length = k.depth
  agrees : ∀ h, ∀ leaf ∈ c.level h, k.Agrees h leaf.toMerkleLeaf
  kept : ∀ o, Stored (c.level 0) o ↔ Stored (lowest a b) o ∧ ¬ (¬ Marked a b o ∧
    Stored (lowest a b) (across o) ∧ ¬ Marked a b (across o))
  above : ∀ h o, Stored (a.level (h + 1)) o ∨ Stored (b.level (h + 1)) o →
    Stored (c.level (h + 1)) o ∨ ∃ t, Marked a b t ∧ t / 2 ^ (h + 1) = o

/-- Combining two proofs of a block succeeds, and trims. -/
theorem combine_trimmed (ha : OfBlock k a) (hb : OfBlock k b) :
    ∃ c, a.combine b = .ok c ∧ Trimmed k a b c := by
  obtain ⟨combined, hcombined, hlen, hlevels⟩ :=
    combineLevels_ok (ha.depth.trans hb.depth.symm)
  have hunion : ∀ h, combined.getD h [] =
      combineLevel (a.level h) (b.level h) := hlevels
  have hdistinct : ∀ level ∈ combined, Distinct level := by
    intro level hlevel
    obtain ⟨h, hh, rfl⟩ := List.getElem_of_mem hlevel
    rw [← List.getD_eq_getElem _ [] hh, hunion]
    exact distinct_combineLevel (ha.level_distinct h) (hb.level_distinct h)
  have hagrees : ∀ h, ∀ l ∈ combined.getD h [], k.Agrees h l.toMerkleLeaf := by
    intro h
    rw [hunion]
    exact agrees_combineLevel (ha.agrees h) (hb.agrees h)
  have hlowest : Distinct (combineLevel (a.level 0) (b.level 0)) :=
    distinct_combineLevel (ha.level_distinct 0) (hb.level_distinct 0)
  refine ⟨⟨a.blockHeight, trimLevels combined⟩, ?_, ?_, ?_, ?_, ?_⟩
  · -- of one block, so neither check of `combine` raises
    have hheight : ¬ a.blockHeight ≠ b.blockHeight :=
      not_not.mpr (ha.height.trans hb.height.symm)
    have hroots : ¬ display k.root ≠ display k.root := not_not.mpr rfl
    rw [combine, raiseIf, if_neg hheight, ok_bind, ha.root, ok_bind, hb.root,
      ok_bind, raiseIf,
      if_neg hroots, ok_bind, hcombined, ok_bind, pure_eq_ok]
  · show (trimLevels combined).length = _
    rw [length_trimLevels, hlen, ha.depth]
  · intro h l hl
    change l ∈ (trimLevels combined).getD h [] at hl
    cases h with
    | zero => exact hagrees 0 l ((mem_trimLevels hdistinct).1.mp hl).1
    | succ h =>
      exact hagrees (h + 1) l (((mem_trimLevels hdistinct).2 h).mp hl).1
  · intro o
    have hdropped : Dropped (sortOffsets (combined.getD 0 [])) o ↔
        Stored (lowest a b) o ∧
        ¬ Marked a b o ∧ Stored (lowest a b) (across o) ∧
          ¬ Marked a b (across o) := by
      rw [hunion, dropped_iff hlowest, stored_combineLevel, stored_combineLevel,
        flagged_combineLevel, flagged_combineLevel]
      rfl
    constructor
    · rintro ⟨l, hl, rfl⟩
      obtain ⟨hl, hno⟩ := (mem_trimLevels hdistinct).1.mp hl
      rw [hunion] at hl
      have hs : Stored (lowest a b) l.offset :=
        stored_combineLevel.mp ⟨l, hl, rfl⟩
      exact ⟨hs, fun hdrop => hno (hdropped.mpr ⟨hs, hdrop⟩)⟩
    · rintro ⟨hs, hno⟩
      obtain ⟨l, hl, rfl⟩ := stored_combineLevel.mpr hs
      exact ⟨l, (mem_trimLevels hdistinct).1.mpr
        ⟨by rw [hunion]; exact hl, fun hdrop => hno (hdropped.mp hdrop).2⟩, rfl⟩
  · intro h o hs
    obtain ⟨l, hl, rfl⟩ :
        Stored (combineLevel (a.level (h + 1)) (b.level (h + 1))) o := by
      refine stored_combineLevel.mpr ?_
      rcases hs with ⟨l, hl, hoff⟩ | ⟨l, hl, hoff⟩
      · exact ⟨l, List.mem_append_left _ hl, hoff⟩
      · exact ⟨l, List.mem_append_right _ hl, hoff⟩
    -- above the lowest level only what lies over a marked leaf is left out
    by_cases hcomputed : ∃ t, Flagged (combined.getD 0 []) t ∧
      l.offset = t / 2 ^ (h + 1)
    · obtain ⟨t, ht, hoff⟩ := hcomputed
      rw [hunion, flagged_combineLevel] at ht
      exact .inr ⟨t, ht, hoff.symm⟩
    · exact .inl ⟨l, ((mem_trimLevels hdistinct).2 h).mpr
        ⟨by rw [hunion]; exact hl, hcomputed⟩, rfl⟩

/-- What was flagged is marked. -/
theorem marked_of_flagged {t : Int} (ht : Flagged (lowest a b) t) :
    Marked a b t := by
  obtain ⟨l, hl, hoff, hflag⟩ := ht
  rcases List.mem_append.mp hl with hl | hl
  · exact .inl ⟨l, hl, hoff, hflag⟩
  · exact .inr ⟨l, hl, hoff, l.hasTxid_of_txid hflag⟩

/-- And what is marked is stored. -/
theorem Marked.stored {t : Int} (ht : Marked a b t) :
    Stored (lowest a b) t := by
  rcases ht with ⟨l, hl, hoff, -⟩ | ⟨l, hl, hoff, -⟩
  · exact ⟨l, List.mem_append_left _ hl, hoff⟩
  · exact ⟨l, List.mem_append_right _ hl, hoff⟩

/-- A flagged leaf is a transaction of the block. -/
theorem flagged_node (ha : OfBlock k a) (hb : OfBlock k b) {leaf : DictLeaf}
    (hl : leaf ∈ lowest a b)
    (hflag : leaf.txid = true) :
    ∃ x, k.node 0 leaf.offset = some x ∧ leaf.hashStr = some (display x) := by
  have hagrees : k.Agrees 0 leaf.toMerkleLeaf :=
    (List.mem_append.mp hl).elim (ha.agrees 0 leaf) (hb.agrees 0 leaf)
  have htransaction : leaf.duplicate = false :=
    (List.mem_append.mp hl).elim (ha.transactions leaf · hflag)
      (hb.transactions leaf · hflag)
  rcases hagrees.cases with ⟨x, hx, hhash, -⟩ | ⟨-, -, hdup⟩
  · exact ⟨x, hx, hhash⟩
  · exact absurd (htransaction.symm.trans hdup) Bool.false_ne_true

/-- A flagged offset is a transaction of the block. -/
theorem flagged_offset_node (ha : OfBlock k a) (hb : OfBlock k b) {t : Int}
    (ht : Flagged (lowest a b) t) : ∃ x, k.node 0 t = some x := by
  obtain ⟨l, hl, rfl, hflag⟩ := ht
  obtain ⟨x, hx, -⟩ := flagged_node ha hb hl hflag
  exact ⟨x, hx⟩

/-- The siblings on the way up from a flagged leaf are stored in one of the two
paths, or lie above another. -/
theorem needed_stored (ha : OfBlock k a) (hb : OfBlock k b) {t : Int}
    (ht : Flagged (lowest a b) t)
    {h : Nat} (hlt : h < k.depth) :
    (Stored (a.level h) (xorOne (t / 2 ^ h)) ∨
      Stored (b.level h) (xorOne (t / 2 ^ h))) ∨
      ∃ t', Flagged (lowest a b) t' ∧ t' / 2 ^ h = xorOne (t / 2 ^ h) := by
  obtain ⟨l, hl, hoff, hflag⟩ := ht
  rcases List.mem_append.mp hl with hl | hl
  · rcases ha.complete t ⟨l, hl, hoff, hflag⟩ h hlt with hs | ⟨t',
      ⟨l', hl', h'⟩, habove⟩
    · exact .inl (.inl hs)
    · exact .inr ⟨t', ⟨l', List.mem_append_left _ hl', h'⟩, habove⟩
  · rcases hb.complete t ⟨l, hl, hoff, hflag⟩ h hlt with hs | ⟨t',
      ⟨l', hl', h'⟩, habove⟩
    · exact .inl (.inr hs)
    · exact .inr ⟨t', ⟨l', List.mem_append_right _ hl', h'⟩, habove⟩

theorem xorOne_xorOne (o : Int) : xorOne (xorOne o) = o := by
  unfold xorOne
  split <;> split <;> omega

/-- Siblings lie under the same nodes. -/
theorem xorOne_half (o : Int) (h : Nat) :
    xorOne o / 2 ^ (h + 1) = o / 2 ^ (h + 1) := by
  rw [← half_pow, ← half_pow]
  congr 1
  unfold xorOne
  split <;> omega

/-- The sibling of a flagged leaf is in one of the two paths. -/
theorem sibling_stored (ha : OfBlock k a) (hb : OfBlock k b) {t : Int}
    (ht : Flagged (lowest a b) t) : Stored (lowest a b) (xorOne t) := by
  have hneeded := needed_stored ha hb ht ha.depth_pos
  simp only [div_base] at hneeded
  rcases hneeded with (⟨l, hl, hoff⟩ | ⟨l, hl, hoff⟩) | ⟨t',
    ⟨l, hl, hoff, -⟩, habove⟩
  · exact ⟨l, List.mem_append_left _ hl, hoff⟩
  · exact ⟨l, List.mem_append_right _ hl, hoff⟩
  · exact ⟨l, hl, hoff.trans habove⟩

section Climbing

variable {c : DictPath}

/-- With the siblings at the lowest level left in, and nothing marked away from
a flagged leaf, every node on the way up from a flagged leaf is found, and so is
its sibling. -/
theorem way_found (ha : OfBlock k a) (hb : OfBlock k b) (hc : Trimmed k a b c)
    (hmarked : ∀ o, Marked a b o → Flagged (lowest a b) o ∨
      Flagged (lowest a b) (xorOne o))
    (hleft : ∀ t, Flagged (lowest a b) t → Stored (c.level 0) (xorOne t)) :
    ∀ h < k.depth, ∀ t,
      Flagged (lowest a b) t →
        c.plain.Findable h (t / 2 ^ h) ∧
          c.plain.Findable h (xorOne (t / 2 ^ h)) := by
  have hagrees := agreesWith_plain hc.agrees
  intro h
  induction h with
  | zero =>
    intro _ t ht
    rw [div_base]
    have hstored : Stored (c.level 0) t :=
      (hc.kept t).mpr ⟨(marked_of_flagged ht).stored,
        fun hdrop => hdrop.1 (marked_of_flagged ht)⟩
    exact ⟨MerklePath.findable_zero.mpr (stored_plain.mpr hstored),
      MerklePath.findable_zero.mpr (stored_plain.mpr (hleft t ht))⟩
  | succ h ih =>
    intro hlt
    -- a node above a flagged leaf is above two that are found
    have hway : ∀ t, Flagged (lowest a b) t →
        c.plain.Findable (h + 1) (t / 2 ^ (h + 1)) := by
      intro t ht
      obtain ⟨hown, hsibling⟩ := ih (by omega) t ht
      obtain ⟨x, hx⟩ := flagged_offset_node ha hb ht
      obtain ⟨y, hy⟩ := Block.node_above hx h
      have hhalf := MerklePath.pow_half t h
      rcases Int.emod_two_eq_zero_or_one (t / 2 ^ h) with hpar | hpar
      · have hself : 2 * (t / 2 ^ (h + 1)) = t / 2 ^ h := by omega
        have hxor : xorOne (t / 2 ^ h) = 2 * (t / 2 ^ (h + 1)) + 1 := by
          rw [xorOne, if_pos hpar, hself]
        rw [hxor] at hsibling
        rw [← hself] at hy hown
        exact MerklePath.findable_above hagrees hy hown hsibling
      · have hself : 2 * (t / 2 ^ (h + 1)) + 1 = t / 2 ^ h := by omega
        have hxor : xorOne (t / 2 ^ h) = 2 * (t / 2 ^ (h + 1)) := by
          rw [xorOne, if_neg (by omega)]
          omega
        rw [hxor] at hsibling
        rw [← hself] at hy hown
        obtain ⟨z, hz⟩ := Block.node_left hy
        exact MerklePath.findable_above hagrees hz hsibling hown
    -- and so is one above a marked leaf, as that is beside a flagged one if it
    -- is none itself
    have hmarkedWay : ∀ t, Marked a b t →
        c.plain.Findable (h + 1) (t / 2 ^ (h + 1)) := by
      intro t ht
      rcases hmarked t ht with hflag | hflag
      · exact hway t hflag
      · rw [← xorOne_half]
        exact hway _ hflag
    intro t ht
    refine ⟨hway t ht, ?_⟩
    -- the path that proves the leaf stores its sibling here, or the sibling is
    -- itself over a flagged leaf
    rcases needed_stored ha hb ht hlt with hs | ⟨t', ht', habove⟩
    · rcases hc.above h _ hs with hs | ⟨t', ht', habove⟩
      · exact (stored_plain.mpr hs).findable
      · rw [← habove]
        exact hmarkedWay t' ht'
    · rw [← habove]
      exact hway t' ht'

/-- The climb for a flagged leaf starts at its offset. -/
theorem computeRoot_flagged (ha : OfBlock k a) (hb : OfBlock k b)
    (hc : Trimmed k a b c)
    {leaf : DictLeaf} (hl : leaf ∈ lowest a b) (hflag : leaf.txid = true) :
    ∃ x, k.node 0 leaf.offset = some x ∧
      c.plain.computeRoot leaf.hashStr =
        c.plain.climbFrom leaf.offset k.depth 0 (display x) := by
  obtain ⟨x, hx, hhash⟩ := flagged_node ha hb hl hflag
  have hmark : Marked a b leaf.offset :=
    marked_of_flagged ⟨leaf, hl, rfl, hflag⟩
  obtain ⟨l, hl', hoff⟩ : Stored (c.level 0) leaf.offset :=
    (hc.kept _).mpr ⟨hmark.stored, fun hdrop => hdrop.1 hmark⟩
  have hdepth : c.plain.path.length = k.depth := by
    rw [plain, List.length_map]
    exact hc.depth
  have hplain : l.toMerkleLeaf ∈ c.plain.level 0 := by
    rw [plain_level]
    exact List.mem_map_of_mem hl'
  refine ⟨x, hx, ?_⟩
  rw [hhash, MerklePath.computeRoot_at (agreesWith_plain hc.agrees) hplain
    (by rw [hoff]; exact hx),
    hoff, hdepth]

/-- A root that comes out had the sibling at the lowest level left in. -/
theorem sibling_left (ha : OfBlock k a) (hb : OfBlock k b)
    (hc : Trimmed k a b c)
    (hproven : Proven k a b c) {t : Int} (ht : Flagged (lowest a b) t) :
    Stored (c.level 0) (xorOne t) := by
  obtain ⟨leaf, hl, rfl, hflag⟩ := ht
  obtain ⟨x, hx, hstart⟩ := computeRoot_flagged ha hb hc hl hflag
  have hroot := hproven leaf hl hflag
  by_contra hno
  -- without it the climb stops at the first step
  obtain ⟨n, hn⟩ :=
    Nat.exists_eq_add_one_of_ne_zero (Nat.pos_iff_ne_zero.mp ha.depth_pos)
  rw [hstart, hn] at hroot
  refine MerklePath.climb_stuck (agreesWith_plain hc.agrees) ?_ hroot
  rw [div_base, MerklePath.findable_zero, stored_plain]
  exact hno

/-- With the siblings left in, and nothing marked away from a flagged leaf,
every root comes out. -/
theorem proven_of_left (ha : OfBlock k a) (hb : OfBlock k b)
    (hc : Trimmed k a b c)
    (hmarked : ∀ o, Marked a b o → Flagged (lowest a b) o ∨
      Flagged (lowest a b) (xorOne o))
    (hleft : ∀ t, Flagged (lowest a b) t → Stored (c.level 0) (xorOne t)) :
    Proven k a b c := by
  intro leaf hl hflag
  obtain ⟨x, hx, hstart⟩ := computeRoot_flagged ha hb hc hl hflag
  obtain ⟨y, hy, hclimb⟩ :=
    MerklePath.climb_found (agreesWith_plain hc.agrees) (t := leaf.offset)
    k.depth 0 (b := x) (by rw [div_base]; exact hx)
    fun j _ hj => (way_found ha hb hc hmarked hleft j (by omega) leaf.offset
      ⟨leaf, hl, rfl, hflag⟩).2
  rw [Nat.zero_add] at hy
  rw [hstart, hclimb, Block.node_top hy]

end Climbing

/-- **What is proven stays proven, and nothing else is left, just when** every
leaf that the union marks was flagged or stands beside a flagged one, and one
that it does not mark stands beside a flagged one exactly where no other such
leaf is across the border of its pair. -/
theorem combine_iff (k : Block) (a b : DictPath) (ha : OfBlock k a)
    (hb : OfBlock k b) :
    (∃ c, a.combine b = .ok c ∧ Proven k a b c ∧ Tidy a b c) ↔ Spaced a b := by
  obtain ⟨c, hcombine, hc⟩ := combine_trimmed ha hb
  have hsame : (∃ c, a.combine b = .ok c ∧ Proven k a b c ∧ Tidy a b c) ↔
      Proven k a b c ∧ Tidy a b c := by
    rw [hcombine]
    exact ⟨fun ⟨c', h, hrest⟩ => by cases h; exact hrest, fun h => ⟨c, rfl, h⟩⟩
  rw [hsame]
  constructor
  · rintro ⟨hproven, htidy⟩
    constructor
    · -- a marked leaf is left in
      intro o hmark
      obtain ⟨l, hl, rfl⟩ := (hc.kept o).mpr ⟨hmark.stored,
        fun hdrop => hdrop.1 hmark⟩
      exact htidy l hl
    · intro o hs hno
      constructor
      · intro hflag hdrop
        have hstored := sibling_left ha hb hc hproven hflag
        rw [xorOne_xorOne] at hstored
        exact ((hc.kept o).mp hstored).2 ⟨hno, hdrop⟩
      · intro hkept
        obtain ⟨l, hl, rfl⟩ := (hc.kept o).mpr ⟨hs, fun hdrop => hkept hdrop.2⟩
        exact (htidy l hl).resolve_left fun hflag =>
          hno (marked_of_flagged hflag)
  · rintro ⟨hmarked, hunmarked⟩
    constructor
    · refine proven_of_left ha hb hc hmarked fun t ht => ?_
      have hs := sibling_stored ha hb ht
      refine (hc.kept _).mpr ⟨hs, fun hdrop => ?_⟩
      exact (hunmarked _ hs hdrop.1).mp
        (by rw [xorOne_xorOne]; exact ht) hdrop.2
    · intro leaf hl
      obtain ⟨hs, hkept⟩ := (hc.kept leaf.offset).mp ⟨leaf, hl, rfl⟩
      by_cases hmark : Marked a b leaf.offset
      · exact hmarked _ hmark
      · exact .inr ((hunmarked _ hs hmark).mpr fun hdrop =>
          hkept ⟨hmark, hdrop⟩)

end OfBlock

/-! ## The first and the last of four -/

def fourHash (n : UInt8) : Bytes := List.replicate 32 n

/-- A block of four transactions. -/
def fourBlock : Block where
  height := 814435
  hashes := [fourHash 0x1A, fourHash 0x2B, fourHash 0x3C, fourHash 0x4D]
  depth := 2
  root := joinHash (joinHash (fourHash 0x1A) (fourHash 0x2B))
    (joinHash (fourHash 0x3C) (fourHash 0x4D))
  sizes := by
    simp only [List.forall_mem_cons, List.not_mem_nil, false_imp_iff,
      implies_true, and_true]
    exact ⟨rfl, rfl, rfl, rfl⟩
  distinct := by decide
  top := rfl

/-- A stored node without the key. -/
def nodeLeaf (offset : Int) (hash : Bytes) : DictLeaf :=
  ⟨⟨offset, some (display hash), false, false⟩, false, Bool.noConfusion⟩

/-- A proven transaction. -/
def txidLeaf (offset : Int) (hash : Bytes) : DictLeaf :=
  (nodeLeaf offset hash).flag

/-- A node with the key, and False under it. -/
def keyedLeaf (offset : Int) (hash : Bytes) : DictLeaf :=
  ⟨⟨offset, some (display hash), false, false⟩, true, fun _ => rfl⟩

/-- The proof of the first. -/
def firstProof : DictPath := ⟨814435,
  [[txidLeaf 0 (fourHash 0x1A), nodeLeaf 1 (fourHash 0x2B)],
    [nodeLeaf 1 (joinHash (fourHash 0x3C) (fourHash 0x4D))]]⟩

/-- And of the last, the leaf beside it being as given. -/
def lastProof (beside : DictLeaf) : DictPath := ⟨814435,
  [[beside, txidLeaf 3 (fourHash 0x4D)],
    [nodeLeaf 0 (joinHash (fourHash 0x1A) (fourHash 0x2B))]]⟩

/-- The leaf beside the last transaction is the third, flagged or not. -/
def Beside (e : DictLeaf) : Prop :=
  e.offset = 2 ∧ e.hashStr = some (display (fourHash 0x3C)) ∧
    e.duplicate = false

/-- The sample proof of the first transaction agrees with its block. -/
theorem firstProof_agrees :
    ∀ h, ∀ leaf ∈ firstProof.level h, fourBlock.Agrees h leaf.toMerkleLeaf := by
  intro h leaf hl
  match h with
  | 0 =>
    rcases List.mem_pair.mp hl with rfl | rfl
    · exact ⟨rfl, rfl⟩
    · exact ⟨rfl, rfl⟩
  | 1 =>
    rw [List.mem_singleton.mp hl]
    exact ⟨rfl, rfl⟩
  | h + 2 => cases hl

theorem firstProof_siblings :
    ∀ leaf ∈ firstProof.level 0, leaf.duplicate = false ∧
    ∀ j < 2, Stored (firstProof.level j) (xorOne (leaf.offset / 2 ^ j)) := by
  intro leaf hl
  rcases List.mem_pair.mp hl with rfl | rfl
  · refine ⟨rfl, fun j hj => ?_⟩
    match j, hj with
    | 0, _ => exact ⟨_, List.mem_cons_of_mem _ List.mem_cons_self, by decide⟩
    | 1, _ => exact ⟨_, List.mem_cons_self, by decide⟩
  · refine ⟨rfl, fun j hj => ?_⟩
    match j, hj with
    | 0, _ => exact ⟨_, List.mem_cons_self, by decide⟩
    | 1, _ => exact ⟨_, List.mem_cons_self, by decide⟩

theorem lastProof_agrees {e : DictLeaf} (he : Beside e) :
    ∀ h, ∀ leaf ∈ (lastProof e).level h,
      fourBlock.Agrees h leaf.toMerkleLeaf := by
  obtain ⟨hoff, hhash, hdup⟩ := he
  intro h leaf hl
  match h with
  | 0 =>
    rcases List.mem_pair.mp hl with rfl | rfl
    · rw [Block.Agrees, hoff]
      exact ⟨hhash, hdup⟩
    · exact ⟨rfl, rfl⟩
  | 1 =>
    rw [List.mem_singleton.mp hl]
    exact ⟨rfl, rfl⟩
  | h + 2 => cases hl

theorem lastProof_siblings {e : DictLeaf} (he : Beside e) :
    ∀ leaf ∈ (lastProof e).level 0, leaf.duplicate = false ∧
      ∀ j < 2, Stored ((lastProof e).level j)
        (xorOne (leaf.offset / 2 ^ j)) := by
  obtain ⟨hoff, hhash, hdup⟩ := he
  intro leaf hl
  rcases List.mem_pair.mp hl with rfl | rfl
  · refine ⟨hdup, fun j hj => ?_⟩
    rw [hoff]
    match j, hj with
    | 0, _ => exact ⟨_, List.mem_cons_of_mem _ List.mem_cons_self, by decide⟩
    | 1, _ => exact ⟨_, List.mem_cons_self, by decide⟩
  · refine ⟨rfl, fun j hj => ?_⟩
    match j, hj with
    | 0, _ => exact ⟨_, List.mem_cons_self, hoff.trans (by decide)⟩
    | 1, _ => exact ⟨_, List.mem_cons_self, by decide⟩

/-- A path of two levels whose leaves all have their siblings is one of the
block. -/
theorem ofBlock_of_siblings {p : DictPath} (hheight : p.blockHeight = 814435)
    (hdepth : p.path.length = 2)
    (hlevels : p.plain.checkLevels MerklePath.sampleShow 0 p.plain.path =
      .ok ())
    (hagrees : ∀ h, ∀ leaf ∈ p.level h, fourBlock.Agrees h leaf.toMerkleLeaf)
    (hsiblings : ∀ leaf ∈ p.level 0, leaf.duplicate = false ∧
      ∀ j < 2, Stored (p.level j) (xorOne (leaf.offset / 2 ^ j))) :
        OfBlock fourBlock p where
  height := hheight
  depth := hdepth
  constructed := by
    have hplain : p.plain.path.length = 2 := by rw [plain,
      List.length_map, hdepth]
    refine ⟨MerklePath.sampleShow,
      MerklePath.init_of_siblings (agreesWith_plain hagrees) hplain ?_
      hlevels fun leaf hl => ?_⟩
    · intro hnil
      rw [hnil] at hplain
      cases hplain
    · rw [plain_level] at hl
      obtain ⟨e, he, rfl⟩ := List.mem_map.mp hl
      exact ⟨(hsiblings e he).1,
        fun j hj => stored_plain.mpr ((hsiblings e he).2 j hj)⟩
  agrees := hagrees
  transactions := fun leaf hl _ => (hsiblings leaf hl).1
  complete := by
    rintro t ⟨leaf, hl, rfl, -⟩ h hlt
    exact .inl ((hsiblings leaf hl).2 h hlt)

/-- So it is a proof of the block. -/
theorem firstProof_ofBlock : OfBlock fourBlock firstProof :=
  ofBlock_of_siblings rfl rfl (by decide) firstProof_agrees firstProof_siblings

/-- The last proof, with its third leaf plain. -/
theorem lastProof_ofBlock :
    OfBlock fourBlock (lastProof (nodeLeaf 2 (fourHash 0x3C))) :=
  have hbeside : Beside (nodeLeaf 2 (fourHash 0x3C)) := ⟨rfl, rfl, rfl⟩
  ofBlock_of_siblings rfl rfl (by decide) (lastProof_agrees hbeside)
    (lastProof_siblings hbeside)

/-- The last proof, with its third leaf carrying `"txid": False`. -/
theorem lastProof_keyed_ofBlock :
    OfBlock fourBlock (lastProof (keyedLeaf 2 (fourHash 0x3C))) :=
  have hbeside : Beside (keyedLeaf 2 (fourHash 0x3C)) := ⟨rfl, rfl, rfl⟩
  ofBlock_of_siblings rfl rfl (by decide) (lastProof_agrees hbeside)
    (lastProof_siblings hbeside)

/-- With the key on the third leaf, both roots still come out: the union flags
it. -/
theorem combine_iff_keyed : ∃ c,
    firstProof.combine (lastProof (keyedLeaf 2 (fourHash 0x3C))) = .ok c ∧
      Proven fourBlock firstProof (lastProof (keyedLeaf 2 (fourHash 0x3C))) c ∧
      Tidy firstProof (lastProof (keyedLeaf 2 (fourHash 0x3C))) c := by
  have hfirst :
      Flagged (lowest firstProof (lastProof (keyedLeaf 2 (fourHash 0x3C)))) 0 :=
    ⟨_, List.mem_cons_self, rfl, rfl⟩
  have hlast :
      Flagged (lowest firstProof (lastProof (keyedLeaf 2 (fourHash 0x3C)))) 3 :=
    ⟨txidLeaf 3 (fourHash 0x4D), List.mem_append_right _
      (List.mem_cons_of_mem _ List.mem_cons_self), rfl, rfl⟩
  have hkeyed : Marked firstProof (lastProof (keyedLeaf 2 (fourHash 0x3C))) 2 :=
    .inr ⟨_, List.mem_cons_self, rfl, rfl⟩
  refine (combine_iff fourBlock _ _ firstProof_ofBlock
    lastProof_keyed_ofBlock).mpr ⟨?_, ?_⟩
  · rintro o (⟨l, hl, rfl, hflag⟩ | ⟨l, hl, rfl, -⟩)
    · exact .inl ⟨l, List.mem_append_left _ hl, rfl, hflag⟩
    · rcases List.mem_pair.mp hl with rfl | rfl
      · exact .inr hlast
      · exact .inl hlast
  · rintro o ⟨l, hl, rfl⟩ hno
    rcases List.mem_append.mp hl with hl | hl
    · rcases List.mem_pair.mp hl with rfl | rfl
      · exact absurd (marked_of_flagged hfirst) hno
      · exact ⟨fun _ hdrop => hdrop.2 hkeyed, fun _ => hfirst⟩
    · rcases List.mem_pair.mp hl with rfl | rfl
      · exact absurd hkeyed hno
      · exact absurd (marked_of_flagged hlast) hno

/-- Without it, nothing marks the third leaf or the second. -/
theorem marked_plain {o : Int}
    (h : Marked firstProof (lastProof (nodeLeaf 2 (fourHash 0x3C))) o) :
    o = 0 ∨ o = 3 := by
  rcases h with ⟨l, hl, rfl, hflag⟩ | ⟨l, hl, rfl, hkey⟩
  · rcases List.mem_pair.mp hl with rfl | rfl
    · exact .inl rfl
    · cases hflag
  · rcases List.mem_pair.mp hl with rfl | rfl
    · cases hkey
    · exact .inr rfl

/-- **Putting two proofs together loses both**: the second leaf and the third
are taken out, each because of the other. -/
theorem combine_loses : OfBlock fourBlock firstProof ∧
    OfBlock fourBlock (lastProof (nodeLeaf 2 (fourHash 0x3C))) ∧
    ¬ ∃ c, firstProof.combine (lastProof (nodeLeaf 2 (fourHash 0x3C))) = .ok c ∧
      Proven fourBlock firstProof (lastProof (nodeLeaf 2 (fourHash 0x3C))) c ∧
      Tidy firstProof (lastProof (nodeLeaf 2 (fourHash 0x3C))) c := by
  refine ⟨firstProof_ofBlock, lastProof_ofBlock, ?_⟩
  rintro ⟨c, hcombine, hproven, -⟩
  obtain ⟨c', hcombine', hc⟩ :=
    combine_trimmed firstProof_ofBlock lastProof_ofBlock
  rw [hcombine, Except.ok.injEq] at hcombine'
  subst hcombine'
  -- the first leaf needs its sibling, and leaf 1 is dropped because of leaf 2
  have hkept :=
    sibling_left firstProof_ofBlock lastProof_ofBlock hc hproven (t := 0)
    ⟨_, List.mem_cons_self, rfl, rfl⟩
  refine ((hc.kept _).mp hkept).2 ⟨?_, ?_, ?_⟩
  · exact fun h => absurd (marked_plain h) (by decide)
  · exact ⟨nodeLeaf 2 (fourHash 0x3C),
      List.mem_cons_of_mem _
        (List.mem_cons_of_mem _ List.mem_cons_self), by decide⟩
  · exact fun h => absurd (marked_plain h) (by decide)

end DictPath

end Pyrxd.Tx
