import Pyrxd.Tx.MerklePath
import Pyrxd.Tx.RoundTrip

/-!
# Merkle paths through their binary form

`to_binary` against `from_binary`. The bytes of a path hold each hash as a
number and a duplicate by its offset alone, so what comes back is
`MerklePath.restored`: hashes in lower case, and no duplicate marked as a
transaction. The constructor runs again on it. It accepts it, since its checks
read offsets and hash bytes only: the run of `compute_root` on the restored path
is the run on the original, in lower case.

Main result: `binary_round_trip`.
-/

namespace Pyrxd.Tx

open Pyrxd.Lib Reader

/-! ## Hex in either case -/

/-- Pairs of hex digits and nothing else. -/
def HexString (s : String) : Prop := s.toList.length % 2 = 0 ∧
  ∀ c ∈ s.toList, (hexVal c).isSome

/-- The hex of 32 bytes, in either case. -/
def IsHash (s : String) : Prop := s.toList.length = 64 ∧
  ∀ c ∈ s.toList, (hexVal c).isSome

variable {s t : String} {b : Bytes} {c : Char} {cs : List Char} {v : Nat}

/-- A hash is a text of hex digits. -/
theorem IsHash.hexString (h : IsHash s) : HexString s := ⟨by rw [h.1], h.2⟩

theorem HexString.append (hs : HexString s) (ht : HexString t) :
    HexString (s ++ t) := by
  constructor
  · rw [String.toList_append, List.length_append]
    have := hs.1
    have := ht.1
    omega
  · intro c hc
    rw [String.toList_append, List.mem_append] at hc
    exact hc.elim (hs.2 c) (ht.2 c)

theorem toLower_append : (s ++ t).toLower = s.toLower ++ t.toLower := by
  apply String.toList_injective
  simp only [toLower_eq_map, String.toList_map, String.toList_append,
    List.map_append]

theorem lt_of_hexVal (h : hexVal c = some v) : c.toNat < 128 := by
  unfold hexVal at h
  split at h
  · next hc => exact Nat.lt_of_le_of_lt (show c.toNat ≤ 57
      from hc.2) (by decide)
  · split at h
    · next hc => exact Nat.lt_of_le_of_lt (show c.toNat ≤ 102
        from hc.2) (by decide)
    · split at h
      · next hc => exact Nat.lt_of_le_of_lt (show c.toNat ≤ 70
          from hc.2) (by decide)
      · cases h

/-- The digit of a value is the one read, in lower case. -/
theorem hexDigit_of_hexVal (h : hexVal c = some v) :
    v < 16 ∧ hexDigit v = c.toLower ∧ c.isAlphanum = true := by
  have hall : ∀ n < 128, ∀ w, hexVal (Char.ofNat n) = some w →
      w < 16 ∧ hexDigit w = (Char.ofNat n).toLower ∧
        (Char.ofNat n).isAlphanum = true := by
    intro n hn w hw
    have hsome : ∀ n < 128, ((hexVal (Char.ofNat n)).all fun w =>
        w < 16 ∧ hexDigit w = (Char.ofNat n).toLower ∧ (Char.ofNat n).isAlphanum = true) = true := by decide
    have := hsome n hn
    rw [hw, Option.all_some, decide_eq_true_eq] at this
    exact this
  have := hall c.toNat (lt_of_hexVal h) v
  rw [Char.ofNat_toNat] at this
  exact this h

theorem hexPairs_hexChars (b : Bytes) : hexPairs (hexChars b) = .ok b := by
  induction b with
  | nil => rfl
  | cons x b ih =>
    have hx : x.toNat < 256 := x.toNat_lt
    have hsum : 16 * (x.toNat / 16) + x.toNat % 16 = x.toNat := by omega
    rw [hexChars, hexPairs, hexVal_hexDigit _ (by omega),
      hexVal_hexDigit _ (by omega)]
    show (hexPairs (hexChars b)).map _ = _
    rw [ih, Except.map, hsum, UInt8.ofNat_toNat]

/-- What the pairs spell, spelled again. -/
theorem hexPairs_digits : ∀ cs : List Char, cs.length % 2 = 0 →
    (∀ c ∈ cs, (hexVal c).isSome) →
    ∃ b, hexPairs cs = .ok b ∧ hexChars b = cs.map Char.toLower
  | [], _, _ => ⟨[], rfl, rfl⟩
  | [_], heven, _ => absurd heven (by simp)
  | c :: d :: cs, heven, hall => by
    have hc := hall c List.mem_cons_self
    have hd := hall d (List.mem_cons_of_mem c List.mem_cons_self)
    obtain ⟨hi, hhi⟩ := Option.isSome_iff_exists.mp hc
    obtain ⟨lo, hlo⟩ := Option.isSome_iff_exists.mp hd
    have hrest : ∀ e ∈ cs, (hexVal e).isSome := fun e he =>
      hall e (List.mem_cons_of_mem c (List.mem_cons_of_mem d he))
    rw [List.length_cons, List.length_cons] at heven
    obtain ⟨b, hb, hchars⟩ := hexPairs_digits cs (by omega) hrest
    obtain ⟨hhi16, hhic, -⟩ := hexDigit_of_hexVal hhi
    obtain ⟨hlo16, hloc, -⟩ := hexDigit_of_hexVal hlo
    have hbyte : (UInt8.ofNat (16 * hi + lo)).toNat = 16 * hi + lo := by
      rw [UInt8.toNat_ofNat']
      omega
    have hdiv : (16 * hi + lo) / 16 = hi := by omega
    have hmod : (16 * hi + lo) % 16 = lo := by omega
    refine ⟨UInt8.ofNat (16 * hi + lo) :: b, ?_, ?_⟩
    · rw [hexPairs, hhi, hlo]
      show (hexPairs cs).map _ = _
      rw [hb]
      rfl
    · rw [hexChars, hbyte, hdiv, hmod, hhic, hloc, hchars, List.map_cons,
        List.map_cons]

/-- A hex text is read in pairs. -/
theorem toBytesHex_eq (h : HexString s) : toBytesHex s = hexPairs s.toList := by
  have hdigits : s.toList.filter (·.isAlphanum) = s.toList := by
    apply List.filter_eq_self.mpr
    intro c hc
    obtain ⟨v, hv⟩ := Option.isSome_iff_exists.mp (h.2 c hc)
    exact (hexDigit_of_hexVal hv).2.2
  rw [toBytesHex, hdigits, if_pos h.1]

theorem toBytesHex_ok (h : HexString s) : ∃ b, toBytesHex s = .ok b ∧
    hex b = s.toLower := by
  obtain ⟨b, hb, hchars⟩ := hexPairs_digits s.toList h.1 h.2
  refine ⟨b, (toBytesHex_eq h).trans hb, ?_⟩
  apply String.toList_injective
  rw [hex, String.toList_ofList, hchars, toLower_eq_map, String.toList_map]

theorem hexString_hex (b : Bytes) : HexString (hex b) := by
  rw [HexString, hex, String.toList_ofList, length_hexChars]
  refine ⟨by omega, ?_⟩
  induction b with
  | nil => exact fun _ hc => absurd hc List.not_mem_nil
  | cons x b ih =>
    have hx : x.toNat < 256 := x.toNat_lt
    intro c hc
    rw [hexChars, List.mem_cons, List.mem_cons] at hc
    rcases hc with rfl | rfl | hc
    · rw [hexVal_hexDigit _ (by omega)]
      rfl
    · rw [hexVal_hexDigit _ (by omega)]
      rfl
    · exact ih c hc

theorem toBytesHex_hex (b : Bytes) : toBytesHex (hex b) = .ok b := by
  rw [toBytesHex_eq (hexString_hex b), hex, String.toList_ofList,
    hexPairs_hexChars]

theorem toLower_hex (b : Bytes) : (hex b).toLower = hex b := by
  obtain ⟨b', hb', hlower⟩ := toBytesHex_ok (hexString_hex b)
  rw [toBytesHex_hex, Except.ok.injEq] at hb'
  rw [← hlower, hb']

/-- Thirty-two bytes in hex are a hash. -/
theorem isHash_hex (h : b.length = 32) : IsHash (hex b) :=
  ⟨by rw [hex, String.toList_ofList, length_hexChars, h], (hexString_hex b).2⟩

theorem length_of_hex (h : IsHash s) (hb : hex b = s.toLower) :
    b.length = 32 := by
  have hlen := congrArg (fun s => s.toList.length) hb
  simp only [toLower_eq_map, String.toList_map, List.length_map, hex,
    String.toList_ofList, length_hexChars, h.1] at hlen
  omega

/-- The letters' case makes no difference to the bytes. -/
theorem toBytesHex_toLower (h : HexString s) :
    toBytesHex s.toLower = toBytesHex s := by
  obtain ⟨b, hb, hlower⟩ := toBytesHex_ok h
  rw [hb, ← hlower, toBytesHex_hex]

theorem hashFn_toLower (h : HexString s) : hashFn s.toLower = hashFn s := by
  rw [hashFn, hashFn, toBytesHex_toLower h]

theorem hashFn_ok (h : hashFn s = .ok t) :
    ∃ b : Bytes, t = hex b ∧ b.length = 32 := by
  obtain ⟨b, -, h⟩ := bind_ok.mp h
  rw [pure_eq_ok, Except.ok.injEq] at h
  refine ⟨_, h.symm, ?_⟩
  rw [List.length_reverse]
  exact length_sha256 _

/-! ## What comes back -/

namespace MerkleLeaf

/-- Either a duplicate or a 32-byte hash. -/
def Carries (l : MerkleLeaf) : Prop :=
  if l.duplicate then l.hashStr = none else ∃ s ∈ l.hashStr, IsHash s

/-- The leaf as the bytes have it: the hash in lower case, and no transaction
mark on a duplicate. -/
def restore (l : MerkleLeaf) : MerkleLeaf :=
  ⟨l.offset, l.hashStr.map String.toLower, l.txid && !l.duplicate, l.duplicate⟩

variable {l : MerkleLeaf}

/-- A leaf that carries a hash is no duplicate. -/
theorem Carries.of_some (h : l.Carries) (hs : l.hashStr = some s) :
    l.duplicate = false ∧ IsHash s := by
  unfold Carries at h
  cases hd : l.duplicate with
  | true =>
    rw [hd, if_pos rfl, hs] at h
    cases h
  | false =>
    rw [hd] at h
    obtain ⟨t, ht, hash⟩ := h
    rw [Option.mem_def, hs, Option.some.injEq] at ht
    exact ⟨rfl, ht ▸ hash⟩

/-- One that is none carries a hash. -/
theorem Carries.of_plain (h : l.Carries) (hd : l.duplicate = false) :
    ∃ s, l.hashStr = some s ∧ IsHash s := by
  unfold Carries at h
  rw [hd] at h
  exact h

/-- A leaf made with a hash carries one. -/
theorem carries_hash (offset : Int) (txid : Bool) (hs : IsHash s) :
    Carries ⟨offset, some s, txid, false⟩ := ⟨s, rfl, hs⟩

/-- The two sides in the order the sibling asks for. -/
theorem joined_restore (s w : String) {odd : Prop} [Decidable odd] :
    (if (restore l).duplicate = false ∧ odd then s.toLower ++ w.toLower
      else w.toLower ++ s.toLower) =
      (if l.duplicate = false ∧ odd then s ++ w else w ++ s).toLower := by
  rw [apply_ite String.toLower, toLower_append, toLower_append]
  rfl

theorem restore_computed (offset : Int) (b : Bytes) :
    restore ⟨offset, some (hex b), false, false⟩ = ⟨offset, some (hex b),
      false, false⟩ := by
  rw [restore, Option.map_some, toLower_hex]
  rfl

theorem restore_eq_iff : l.restore = l ↔ (l.duplicate = true → l.txid = false) ∧
    ∀ s ∈ l.hashStr, s.toLower = s := by
  obtain ⟨offset, hashStr, txid, duplicate⟩ := l
  have hmark : (txid && !duplicate) = txid ↔
      (duplicate = true → txid = false) := by
    cases txid <;> cases duplicate <;> decide
  rw [restore, MerkleLeaf.mk.injEq]
  cases hashStr with
  | none => simp [hmark]
  | some s => simp [hmark, and_comm]

end MerkleLeaf

namespace MerklePath

open MerkleLeaf (restore restore_computed joined_restore)

def Carries (p : MerklePath) : Prop :=
  ∀ leaves ∈ p.path, ∀ l ∈ leaves, l.Carries

/-- The path as its bytes have it. -/
def restored (p : MerklePath) : MerklePath :=
  ⟨p.blockHeight, p.path.map (·.map restore)⟩

variable {p : MerklePath} {showSet : List Int → String}

/-- A path is its restored form when the hashes are in lower case and no
duplicate is marked. -/
theorem restored_eq_iff : p.restored = p ↔ ∀ leaves ∈ p.path, ∀ l ∈ leaves,
    (l.duplicate = true → l.txid = false) ∧ ∀ s ∈ l.hashStr, s.toLower = s := by
  have hpath : p.restored = p ↔ p.path.map (·.map restore) = p.path.map id := by
    rw [List.map_id, restored]
    exact ⟨congrArg path, fun h => by rw [h]⟩
  rw [hpath, List.map_inj_left]
  refine forall₂_congr fun leaves _ => ?_
  show leaves.map restore = leaves ↔ _
  conv_lhs => rhs; rw [← List.map_id leaves]
  rw [List.map_inj_left]
  exact forall₂_congr fun l _ => MerkleLeaf.restore_eq_iff

/-- The leaves of every level do. -/
theorem Carries.level (hp : p.Carries) (height : Nat) :
    ∀ l ∈ p.level height, l.Carries := by
  intro l hl
  unfold MerklePath.level at hl
  rw [List.getD_eq_getElem?_getD] at hl
  cases hg : p.path[height]? with
  | none =>
    rw [hg] at hl
    cases hl
  | some leaves =>
    rw [hg] at hl
    exact hp leaves (List.mem_of_getElem? hg) l hl

/-- A level of what is read back. -/
theorem level_restored (height : Nat) :
    p.restored.level height = (p.level height).map restore := by
  rw [level, level, restored, List.getD_eq_getElem?_getD,
    List.getD_eq_getElem?_getD, List.getElem?_map]
  cases p.path[height]? with
  | none => rfl
  | some leaves => rfl

/-- Leaves are found at the same offsets. -/
theorem findLeaf_restore (leaves : List MerkleLeaf) (offset : Int) :
    findLeaf (leaves.map restore) offset =
      (findLeaf leaves offset).map restore := by
  rw [findLeaf, findLeaf, List.find?_map]
  rfl

/-- A leaf that is found is there. -/
theorem mem_of_findLeaf {leaves : List MerkleLeaf} {offset : Int}
    {l : MerkleLeaf}
    (h : findLeaf leaves offset = some l) : l ∈ leaves :=
  List.mem_of_find?_eq_some h

/-! ## The checks of offsets -/

theorem legalOffsets_restored (height : Nat) :
    p.restored.legalOffsets height = p.legalOffsets height := by
  rw [legalOffsets, legalOffsets, level_restored, List.filter_map, List.map_map]
  rfl

/-- So a level passes the same check. -/
theorem checkLevel_restored (height : Nat) : ∀ (leaves : List MerkleLeaf)
    (seen : List Int),
    p.restored.checkLevel showSet height seen (leaves.map restore) =
      p.checkLevel showSet height seen leaves := by
  intro leaves
  induction leaves with
  | nil => exact fun _ => rfl
  | cons l leaves ih =>
    intro seen
    rw [List.map_cons, checkLevel, checkLevel, legalOffsets_restored, ih]
    rfl

theorem checkLevels_restored : ∀ (path : List (List MerkleLeaf)) (height : Nat),
    p.restored.checkLevels showSet height (path.map (·.map restore)) =
      p.checkLevels showSet height path := by
  intro path
  induction path with
  | nil => exact fun _ => rfl
  | cons leaves path ih =>
    intro height
    simp only [List.map_cons, checkLevels, checkLevel_restored, ih,
      List.map_eq_nil_iff]

/-! ## The run of `compute_root` -/

/-- A leaf that is found or computed is one that carries its hash. -/
theorem findOrComputeLeaf_carries (hp : p.Carries) {l : MerkleLeaf} :
    ∀ {height : Nat} {offset : Int}, p.findOrComputeLeaf height offset = .ok
      (some l) → l.Carries := by
  intro height
  cases height with
  | zero =>
    intro offset h
    rw [findOrComputeLeaf, Except.ok.injEq] at h
    exact hp.level 0 l (mem_of_findLeaf h)
  | succ height =>
    intro offset h
    rw [findOrComputeLeaf] at h
    cases hf : findLeaf (p.level (height + 1)) offset with
    | some leaf =>
      simp only [hf, Except.ok.injEq, Option.some.injEq] at h
      exact h ▸ hp.level (height + 1) leaf (mem_of_findLeaf hf)
    | none =>
      simp only [hf] at h
      obtain ⟨leaf0, -, h⟩ := bind_ok.mp h
      cases hu : usableHash leaf0 with
      | none => simp [hu] at h
      | some hash0 =>
        simp only [hu] at h
        obtain ⟨leaf1, -, h⟩ := bind_ok.mp h
        cases leaf1 with
        | none => cases h
        | some leaf1 =>
          simp only at h
          obtain ⟨hash1, -, h⟩ := bind_ok.mp h
          obtain ⟨w, hw, h⟩ := bind_ok.mp h
          obtain ⟨b, rfl, hb⟩ := hashFn_ok hw
          rw [pure_eq_ok, Except.ok.injEq, Option.some.injEq] at h
          exact h ▸ MerkleLeaf.carries_hash offset false (isHash_hex hb)

/-- What stands for a sibling: its hash, or the hash beside it. -/
theorem sibling_restore {l : MerkleLeaf} (hl : l.Carries) (hs : IsHash s) :
    ∃ t, (if l.duplicate then .ok s else l.needHash) =
      (.ok t : Except PyErr String) ∧ IsHash t ∧
      (if (restore l).duplicate then .ok s.toLower else (restore l).needHash) =
        (.ok t.toLower : Except PyErr String) := by
  cases hd : l.duplicate with
  | true => exact ⟨s, rfl, hs, by simp [restore, hd]⟩
  | false =>
    obtain ⟨t, ht, hash⟩ := hl.of_plain hd
    exact ⟨t, by simp [MerkleLeaf.needHash, ht], hash, by simp [restore, hd,
      MerkleLeaf.needHash, ht]⟩

/-- A hash is usable as before, in lower case. -/
theorem usableHash_restore {leaf : Option MerkleLeaf}
    (h : ∀ l ∈ leaf, l.Carries) :
    (usableHash leaf = none ∧ usableHash (leaf.map restore) = none) ∨
      ∃ s, usableHash leaf = some s ∧ IsHash s ∧
        usableHash (leaf.map restore) = some s.toLower := by
  cases leaf with
  | none => exact .inl ⟨rfl, rfl⟩
  | some l =>
    cases hh : l.hashStr with
    | none =>
      exact .inl ⟨by simp [usableHash, hh], by simp [usableHash, restore, hh]⟩
    | some s =>
      have hash := ((h l rfl).of_some hh).2
      have hne : s ≠ "" := by
        rintro rfl
        exact absurd hash.1 (by decide)
      have hlower : s.toLower ≠ "" := by
        intro h0
        have hlen := congrArg (fun s => s.toList.length) h0
        simp [toLower_eq_map, String.toList_map, hash.1] at hlen
      exact .inr ⟨s, by simp [usableHash, hh, hne], hash, by simp [usableHash,
        restore, hh, hlower]⟩

/-- **The restored path computes the restored leaves.** -/
theorem findOrComputeLeaf_restored (hp : p.Carries) : ∀ (height : Nat)
    (offset : Int),
    p.restored.findOrComputeLeaf height offset =
      (p.findOrComputeLeaf height offset).map (·.map restore) := by
  intro height
  -- up the levels: restoring commutes with the look-up and with the hash
  induction height with
  | zero =>
    intro offset
    rw [findOrComputeLeaf, findOrComputeLeaf, level_restored, findLeaf_restore]
    rfl
  | succ height ih =>
    intro offset
    rw [findOrComputeLeaf, findOrComputeLeaf, level_restored,
      findLeaf_restore, ih, ih]
    cases findLeaf (p.level (height + 1)) offset with
    | some leaf => rfl
    | none =>
      cases h0 : p.findOrComputeLeaf height (2 * offset) with
      | error e => rfl
      | ok leaf0 =>
        have hcarry : ∀ l ∈ leaf0, l.Carries := by
          intro l hl
          exact findOrComputeLeaf_carries hp (h0.trans (congrArg Except.ok hl))
        simp only [Option.map_none, Except.map, ok_bind]
        rcases usableHash_restore hcarry with ⟨hu, hu'⟩ | ⟨hash0, hu, hash, hu'⟩
        · rw [hu, hu']
          rfl
        · rw [hu, hu']
          cases h1 : p.findOrComputeLeaf height (2 * offset + 1) with
          | error e => rfl
          | ok leaf1 =>
            cases leaf1 with
            | none => rfl
            | some leaf1 =>
              obtain ⟨hash1, hs, hash', hs'⟩ :=
                sibling_restore (findOrComputeLeaf_carries hp h1) hash
              simp only [ok_bind, Option.map_some, hs, hs']
              rw [← toLower_append,
                hashFn_toLower (hash'.hexString.append hash.hexString)]
              cases hw : hashFn (hash1 ++ hash0) with
              | error e => rfl
              | ok w =>
                obtain ⟨b, rfl, -⟩ := hashFn_ok hw
                simp only [ok_bind, pure_eq_ok, Option.map_some,
                  restore_computed]

/-- So the climb gives the same root. -/
theorem climbFrom_restored (hp : p.Carries) (index : Int) : ∀ (n height : Nat)
    {w : String}, IsHash w → p.restored.climbFrom index n height w.toLower =
    (p.climbFrom index n height w).map String.toLower := by
  intro n
  -- up the levels, the working hash in lower case on the restored side
  induction n with
  | zero => exact fun _ _ _ => rfl
  | succ n ih =>
    intro height w hw
    rw [climbFrom, climbFrom]
    simp only [findOrComputeLeaf_restored hp]
    cases hl : p.findOrComputeLeaf height (xorOne (index / 2 ^ height)) with
    | error e => rfl
    | ok leaf =>
      cases leaf with
      | none => rfl
      | some leaf =>
        obtain ⟨sibling, hs, hash, hs'⟩ :=
          sibling_restore (findOrComputeLeaf_carries hp hl) hw
        simp only [Except.map, ok_bind, Option.map_some, hs, hs',
          joined_restore]
        rw [hashFn_toLower]
        · cases hx : hashFn (if leaf.duplicate = false ∧
            xorOne (index / 2 ^ height) % 2 ≠ 0 then sibling ++ w
              else w ++ sibling) with
          | error e => rfl
          | ok x =>
            obtain ⟨b, rfl, hb⟩ := hashFn_ok hx
            have hih := ih (height + 1) (isHash_hex hb)
            rw [toLower_hex] at hih
            exact hih
        · split
          · exact hash.hexString.append hw.hexString
          · exact hw.hexString.append hash.hexString

/-- The end of a climb is a hash that was computed. -/
theorem climbFrom_hex (index : Int) : ∀ (n height : Nat) {w root : String},
    p.climbFrom index (n + 1) height w = .ok root → ∃ b, root = hex b := by
  intro n
  induction n with
  | zero =>
    intro height w root h
    rw [climbFrom] at h
    obtain ⟨leaf, -, h⟩ := bind_ok.mp h
    cases leaf with
    | none => cases h
    | some leaf =>
      obtain ⟨sibling, -, h⟩ := bind_ok.mp h
      obtain ⟨x, hx, h⟩ := bind_ok.mp h
      obtain ⟨b, rfl, -⟩ := hashFn_ok hx
      rw [climbFrom, Except.ok.injEq] at h
      exact ⟨b, h.symm⟩
  | succ n ih =>
    intro height w root h
    rw [climbFrom] at h
    obtain ⟨leaf, -, h⟩ := bind_ok.mp h
    cases leaf with
    | none => cases h
    | some leaf =>
      obtain ⟨sibling, -, h⟩ := bind_ok.mp h
      obtain ⟨x, -, h⟩ := bind_ok.mp h
      exact ih (height + 1) h

/-! ## The constructor -/

/-- The roots agree when every leaf's does. -/
theorem checkRoots_ok {root : String} (leaves : List MerkleLeaf) :
    p.checkRoots root leaves = .ok () ↔
    ∀ l ∈ leaves, p.computeRoot l.hashStr = .ok root := by
  induction leaves with
  | nil => exact ⟨fun _ => nofun, fun _ => rfl⟩
  | cons leaf leaves ih =>
    rw [checkRoots, bind_ok, List.forall_mem_cons]
    constructor
    · rintro ⟨r, hr, h⟩
      obtain ⟨u, hne, h⟩ := bind_ok.mp h
      rw [raiseIf_ok, ne_eq, not_not] at hne
      exact ⟨hne ▸ hr, ih.mp h⟩
    · rintro ⟨hr, h⟩
      exact ⟨root, hr,
        bind_ok.mpr ⟨(), raiseIf_ok.mpr (not_not.mpr rfl), ih.mpr h⟩⟩

/-- The constructor accepts: the levels pass, and every leaf of the lowest gives
one root. -/
theorem init_ok : p.init showSet = .ok () ↔
    p.path ≠ [] ∧ p.checkLevels showSet 0 p.path = .ok () ∧
    ∃ root, ∀ l ∈ p.level 0, p.computeRoot l.hashStr = .ok root := by
  unfold init level
  rw [bind_ok]
  constructor
  · rintro ⟨u, hlevels, h⟩
    cases hpath : p.path with
    | nil => simp [hpath] at h
    | cons leaves path =>
      refine ⟨List.cons_ne_nil _ _, hpath ▸ hlevels, ?_⟩
      cases leaves with
      | nil => exact ⟨"", nofun⟩
      | cons leaf leaves =>
        simp only [hpath] at h
        obtain ⟨root, -, h⟩ := bind_ok.mp h
        exact ⟨root, (checkRoots_ok _).mp h⟩
  · rintro ⟨hne, hlevels, root, h⟩
    refine ⟨(), hlevels, ?_⟩
    cases hpath : p.path with
    | nil => exact absurd hpath hne
    | cons leaves path =>
      cases leaves with
      | nil => rfl
      | cons leaf leaves =>
        rw [hpath] at h
        exact bind_ok.mpr ⟨root, h leaf List.mem_cons_self,
          (checkRoots_ok _).mpr h⟩

/-- Without a hash to start from, the first of the lowest level is taken. -/
theorem computeRoot_none {root : String} (h : p.computeRoot none = .ok root) :
    ∃ l ∈ p.level 0, ∃ s, l.hashStr = some s ∧
    (p.level 0).findSome? (·.hashStr) = some s := by
  obtain ⟨s, hs, -⟩ := bind_ok.mp h
  rw [Option.none_or] at hs
  cases hf : (p.level 0).findSome? (·.hashStr) with
  | none => simp [hf] at hs
  | some t =>
    obtain ⟨l, hl, ht⟩ := List.exists_of_findSome?_eq_some hf
    exact ⟨l, hl, t, ht, rfl⟩

theorem computeRoot_some (s : String) : p.computeRoot (some s) =
    match (p.level 0).find? (·.hashStr = some s) with
    | none => .error (.other ("This proof does not contain the txid: " ++ s))
    | some leaf => p.climbFrom leaf.offset p.path.length 0 s := rfl

/-- A hash of the lowest level gives its root in lower case too: the first leaf
with these bytes is the first with its own spelling of them. -/
theorem computeRoot_hash (hp : p.Carries) {root : String}
    (hroot : ∀ l ∈ p.level 0, p.computeRoot l.hashStr = .ok root)
    {l : MerkleLeaf} (hl : l ∈ p.level 0)
    (hs : l.hashStr = some s) : p.restored.computeRoot (some s.toLower) =
      .ok root := by
  have hlen : p.path.length ≠ 0 := by
    intro h0
    rw [level, List.length_eq_zero_iff.mp h0] at hl
    cases hl
  obtain ⟨n, hn⟩ := Nat.exists_eq_add_one_of_ne_zero hlen
  -- the first leaf with the folded hash may be another than the first with the
  -- hash
  have hfind : ∃ f, (p.level 0).find? (fun l => (restore l).hashStr =
      some s.toLower) = some f := by
    refine Option.isSome_iff_exists.mp (List.find?_isSome.mpr ⟨l, hl, ?_⟩)
    rw [restore, hs, Option.map_some, decide_eq_true rfl]
  obtain ⟨f, hf⟩ := hfind
  have hmem : f ∈ p.level 0 := List.mem_of_find?_eq_some hf
  obtain ⟨hfirst, before, after, hlevel, hbefore⟩ :=
    List.find?_eq_some_iff_append.mp hf
  rw [decide_eq_true_eq, restore, Option.map_eq_some_iff] at hfirst
  obtain ⟨t, ht, hlower⟩ := hfirst
  have hspelled : (p.level 0).find? (·.hashStr = some t) = some f := by
    refine List.find?_eq_some_iff_append.mpr ⟨decide_eq_true ht, before,
      after, hlevel, ?_⟩
    intro a ha
    have hno := hbefore a ha
    rw [Bool.not_eq_true', decide_eq_false_iff_not] at hno ⊢
    intro hat
    exact hno (by rw [restore, hat, Option.map_some, hlower])
  have hclimb : p.climbFrom f.offset (n + 1) 0 t = .ok root := by
    have := hroot f hmem
    rw [ht, computeRoot_some, hspelled] at this
    rw [← hn]
    exact this
  have hhash : IsHash t := ((hp.level 0 f hmem).of_some ht).2
  obtain ⟨b, rfl⟩ := climbFrom_hex _ _ _ hclimb
  have hfound : (p.restored.level 0).find? (·.hashStr = some s.toLower) =
      some (restore f) := by
    rw [level_restored, List.find?_map]
    exact congrArg (Option.map restore) hf
  rw [computeRoot_some, hfound]
  show p.restored.climbFrom f.offset (p.path.map _).length 0 s.toLower = _
  rw [List.length_map, hn, ← hlower, climbFrom_restored hp _ _ _ hhash, hclimb,
    Except.map, toLower_hex]

theorem computeRoot_restored (hp : p.Carries) {root : String}
    (hroot : ∀ l ∈ p.level 0, p.computeRoot l.hashStr = .ok root)
    {l : MerkleLeaf} (hl : l ∈ p.level 0) :
    p.restored.computeRoot (restore l).hashStr = .ok root := by
  cases hs : l.hashStr with
  | some s =>
    rw [restore, hs]
    exact computeRoot_hash hp hroot hl hs
  | none =>
    have hnone := hroot l hl
    rw [hs] at hnone
    obtain ⟨f, hf, t, ht, hfirst⟩ := computeRoot_none hnone
    have hfirst' : (p.restored.level 0).findSome? (·.hashStr) =
        some t.toLower := by
      rw [level_restored, List.findSome?_map]
      refine (List.map_findSome? (f := MerkleLeaf.hashStr)
        (g := String.toLower)).symm.trans ?_
      rw [hfirst, Option.map_some]
    have hsame : p.restored.computeRoot none =
        p.restored.computeRoot (some t.toLower) := by
      rw [computeRoot, computeRoot, hfirst']
      rfl
    rw [restore, hs]
    exact hsame.trans (computeRoot_hash hp hroot hf ht)

/-- **What comes back is accepted.** -/
theorem init_restored (hp : p.Carries) (h : p.init showSet = .ok ()) :
    p.restored.init showSet = .ok () := by
  obtain ⟨hne, hlevels, root, hroot⟩ := init_ok.mp h
  refine init_ok.mpr ⟨?_, ?_, root, ?_⟩
  · rw [restored, ne_eq, List.map_eq_nil_iff]
    exact hne
  · exact (checkLevels_restored p.path 0).trans hlevels
  · intro l hl
    rw [level_restored] at hl
    obtain ⟨f, hf, rfl⟩ := List.mem_map.mp hl
    exact computeRoot_restored hp hroot hf

/-! ## The binary form -/

/-- What `write_var_int_num` takes. -/
def Fits (n : Int) : Prop := 0 ≤ n ∧ n < 2 ^ 64

instance (n : Int) : Decidable (Fits n) := inferInstanceAs (Decidable (_ ∧ _))

variable {n : Int} {rest : Bytes}

theorem writeVarIntNum_returns : (∃ b, writeVarIntNum n = .ok b) ↔ Fits n := by
  unfold writeVarIntNum Fits
  split
  · exact ⟨nofun, fun h => by omega⟩
  · exact ⟨fun _ => by omega, fun _ => ⟨_, rfl⟩⟩

theorem readVarIntNum_written (h : writeVarIntNum n = .ok b) :
    readVarIntNum (b ++ rest) = (some n.toNat, rest) ∧ (n.toNat : Int) = n := by
  have hfits : Fits n := writeVarIntNum_returns.mp ⟨b, h⟩
  unfold Fits at hfits
  have hlt : n.toNat < 256 ^ 8 := by
    rw [show (256 : Nat) ^ 8 = 2 ^ 64 by decide]
    omega
  rw [writeVarIntNum, if_neg (by omega), Except.ok.injEq] at h
  refine ⟨?_, Int.toNat_of_nonneg hfits.1⟩
  rw [← h]
  exact readVarIntNum_bytes (Compact.ofNat n.toNat hlt)

theorem writeUint8_returns {k : Nat} :
    (∃ b, writeUint8 k = .ok b) ↔ k < 256 := by
  unfold writeUint8
  split
  · next h => exact ⟨fun _ => h, fun _ => ⟨_, rfl⟩⟩
  · next h => exact ⟨nofun, fun hk => absurd hk h⟩

theorem readLe_written {k : Nat} (h : writeUint8 k = .ok b) :
    readLe 1 (b ++ rest) = (some k, rest) := by
  have hk := writeUint8_returns.mp ⟨b, h⟩
  rw [writeUint8, if_pos hk, Except.ok.injEq] at h
  have hread : readLe 1 ([UInt8.ofNat k] ++ rest) =
      (some (leNat [UInt8.ofNat k]), rest) := readLe_append rfl Nat.one_pos
  rw [← h, hread, leNat_singleton, UInt8.toNat_ofNat', Nat.mod_eq_of_lt hk]

theorem flagsOf_lt (l : MerkleLeaf) : flagsOf l < 256 := by
  unfold flagsOf
  cases l.duplicate <;> cases l.txid <;> decide

/-- The first bit says duplicate. -/
theorem flagsOf_duplicate (l : MerkleLeaf) : flagsOf l &&& 1 = 0 ↔
    l.duplicate = false := by
  unfold flagsOf
  cases l.duplicate <;> cases l.txid <;> decide

theorem flagsOf_txid (l : MerkleLeaf) : flagsOf l &&& 2 ≠ 0 ↔
    l.txid = true := by
  unfold flagsOf
  cases l.duplicate <;> cases l.txid <;> decide

section Leaf

variable {l : MerkleLeaf} (hl : l.Carries)
include hl

theorem writeLeaf_returns : (∃ b, writeLeaf l = .ok b) ↔ Fits l.offset := by
  constructor
  · rintro ⟨b, h⟩
    obtain ⟨offset, ho, -⟩ := bind_ok.mp h
    exact writeVarIntNum_returns.mp ⟨offset, ho⟩
  · intro h
    obtain ⟨offset, ho⟩ := writeVarIntNum_returns.mpr h
    refine bind_returns ho ?_
    obtain ⟨flags, hf⟩ := writeUint8_returns.mpr (flagsOf_lt l)
    refine bind_returns hf ?_
    split
    · next hd =>
      obtain ⟨s, hs, hash⟩ := hl.of_plain ((flagsOf_duplicate l).mp hd)
      obtain ⟨x, hx, -⟩ := toBytesHex_ok hash.hexString
      have hneed : l.needHash = .ok s := by rw [MerkleLeaf.needHash, hs]
      exact bind_returns hneed (bind_returns hx ⟨_, rfl⟩)
    · exact ⟨_, rfl⟩

/-- A written leaf reads back, restored. -/
theorem readLeaf_written (h : writeLeaf l = .ok b) :
    readLeaf (b ++ rest) = .ok (restore l, rest) := by
  obtain ⟨offset, ho, h⟩ := bind_ok.mp h
  obtain ⟨flags, hf, h⟩ := bind_ok.mp h
  have hread := fun rest => @readVarIntNum_written offset l.offset rest ho
  unfold readLeaf
  -- a duplicate is written without its hash
  cases hd : l.duplicate with
  | true =>
    have hbit : ¬ flagsOf l &&& 1 = 0 := by rw [flagsOf_duplicate, hd]; decide
    have hnone : l.hashStr = none := by
      have := hl
      unfold MerkleLeaf.Carries at this
      rwa [hd, if_pos rfl] at this
    rw [if_neg hbit, pure_eq_ok, Except.ok.injEq] at h
    rw [← h, List.append_assoc, (hread _).1]
    simp only [readLe_written hf, if_pos hbit, (hread rest).2, restore, hnone,
      hd, Option.map_none, Bool.not_true, Bool.and_false]
  | false =>
    have hbit : flagsOf l &&& 1 = 0 := by rw [flagsOf_duplicate, hd]
    obtain ⟨s, hs, hash⟩ := hl.of_plain hd
    obtain ⟨x, hx, hlower⟩ := toBytesHex_ok hash.hexString
    have hlen : x.reverse.length = 32 := by rw [List.length_reverse,
      length_of_hex hash hlower]
    rw [if_pos hbit, MerkleLeaf.needHash, hs, ok_bind, hx, ok_bind, pure_eq_ok,
      Except.ok.injEq] at h
    have htxid : decide (flagsOf l &&& 2 ≠ 0) = l.txid := by
      rw [Bool.eq_iff_iff, decide_eq_true_eq, flagsOf_txid]
    rw [← h, List.append_assoc, List.append_assoc, (hread _).1]
    simp only [readLe_written hf, hbit, ne_eq, not_true_eq_false, if_false,
      read_append hlen (by decide : 0 < 32), List.reverse_reverse,
      (hread rest).2, restore, hs, hd, Option.map_some, hlower, Bool.not_false,
      Bool.and_true]
    rw [← htxid]

end Leaf

/-- A list is written when each item is. -/
theorem joinAll_returns {α : Type} {f : α → Except PyErr Bytes}
    (items : List α) :
    (∃ b, joinAll f items = .ok b) ↔ ∀ a ∈ items, ∃ b, f a = .ok b := by
  induction items with
  | nil => exact ⟨fun _ => nofun, fun _ => ⟨[], rfl⟩⟩
  | cons a items ih =>
    rw [List.forall_mem_cons, ← ih]
    constructor
    · rintro ⟨b, h⟩
      obtain ⟨x, hx, h⟩ := bind_ok.mp h
      obtain ⟨y, hy, -⟩ := bind_ok.mp h
      exact ⟨⟨x, hx⟩, ⟨y, hy⟩⟩
    · rintro ⟨⟨x, hx⟩, ⟨y, hy⟩⟩
      exact bind_returns hx (bind_returns hy ⟨_, rfl⟩)

/-- The leaves of a level read back. -/
theorem readLeaves_written : ∀ (leaves : List MerkleLeaf)
    {b : Bytes}, (∀ l ∈ leaves, l.Carries) →
    joinAll writeLeaf leaves = .ok b →
    readLeaves leaves.length (b ++ rest) = .ok (leaves.map restore, rest) := by
  intro leaves
  induction leaves with
  | nil =>
    rintro b - h
    rw [joinAll, Except.ok.injEq] at h
    rw [← h]
    rfl
  | cons l leaves ih =>
    intro b hall h
    obtain ⟨x, hx, h⟩ := bind_ok.mp h
    obtain ⟨y, hy, h⟩ := bind_ok.mp h
    rw [pure_eq_ok, Except.ok.injEq] at h
    rw [← h, List.append_assoc, List.length_cons, readLeaves,
      readLeaf_written (hall l List.mem_cons_self) hx, ok_bind]
    simp only [ih (fun a ha => hall a (List.mem_cons_of_mem l ha)) hy, ok_bind,
      pure_eq_ok, List.map_cons]

/-- In the order of their offsets. -/
def Sorted (leaves : List MerkleLeaf) : Prop :=
  leaves.Pairwise (·.offset ≤ ·.offset)

instance (leaves : List MerkleLeaf) : Decidable (Sorted leaves) :=
  inferInstanceAs (Decidable (List.Pairwise _ _))

/-- Restoring keeps a level sorted. -/
theorem sortLevel_restore {leaves : List MerkleLeaf} (h : Sorted leaves) :
    sortLevel (leaves.map restore) = leaves.map restore := by
  apply List.mergeSort_of_pairwise
  rw [List.pairwise_map]
  exact h.imp fun hle => decide_eq_true hle

theorem readLevels_written : ∀ (path : List (List MerkleLeaf)) {b : Bytes},
    (∀ leaves ∈ path, Sorted leaves ∧ ∀ l ∈ leaves, l.Carries) →
    joinAll writeLevel path = .ok b →
      readLevels path.length (b ++ rest) =
        .ok (path.map (·.map restore), rest) := by
  intro path
  induction path with
  | nil =>
    rintro b - h
    rw [joinAll, Except.ok.injEq] at h
    rw [← h]
    rfl
  | cons leaves path ih =>
    intro b hall h
    obtain ⟨hsorted, hcarry⟩ := hall leaves List.mem_cons_self
    obtain ⟨x, hx, h⟩ := bind_ok.mp h
    obtain ⟨y, hy, h⟩ := bind_ok.mp h
    obtain ⟨count, hcount, hx⟩ := bind_ok.mp hx
    obtain ⟨body, hbody, hx⟩ := bind_ok.mp hx
    rw [pure_eq_ok, Except.ok.injEq] at h hx
    rw [← h, ← hx, List.append_assoc, List.append_assoc,
      List.length_cons, readLevels,
      (readVarIntNum_written hcount).1]
    simp only [Int.toNat_natCast, Option.getD_some,
      readLeaves_written leaves hcarry hbody, ok_bind,
      ih (fun a ha => hall a (List.mem_cons_of_mem leaves ha)) hy, pure_eq_ok,
        List.map_cons, sortLevel_restore hsorted]

/-- What `to_binary` can spell: one byte counts the levels, and a `varint`
everything else. -/
def Writable (p : MerklePath) : Prop :=
  Fits p.blockHeight ∧ p.path.length < 256 ∧
    ∀ leaves ∈ p.path, leaves.length < 2 ^ 64 ∧ ∀ l ∈ leaves, Fits l.offset

instance (p : MerklePath) : Decidable p.Writable :=
  inferInstanceAs (Decidable (_ ∧ _))

theorem toBinary_returns (hp : p.Carries) : (∃ b, p.toBinary = .ok b) ↔
    p.Writable := by
  have hlevel : ∀ leaves ∈ p.path, (∃ b, writeLevel leaves = .ok b) ↔
      leaves.length < 2 ^ 64 ∧ ∀ l ∈ leaves, Fits l.offset := by
    intro leaves hleaves
    have hcount : (∃ b, writeVarIntNum leaves.length = .ok b) ↔
        leaves.length < 2 ^ 64 := by
      rw [writeVarIntNum_returns, Fits]
      omega
    have hbody : (∃ b, joinAll writeLeaf leaves = .ok b) ↔
        ∀ l ∈ leaves, Fits l.offset := by
      rw [joinAll_returns]
      exact forall₂_congr fun l hl => writeLeaf_returns (hp leaves hleaves l hl)
    rw [← hcount, ← hbody]
    constructor
    · rintro ⟨b, h⟩
      obtain ⟨count, hc, h⟩ := bind_ok.mp h
      obtain ⟨body, hb, -⟩ := bind_ok.mp h
      exact ⟨⟨count, hc⟩, ⟨body, hb⟩⟩
    · rintro ⟨⟨count, hc⟩, ⟨body, hb⟩⟩
      exact bind_returns hc (bind_returns hb ⟨_, rfl⟩)
  have hlevels : (∃ b, joinAll writeLevel p.path = .ok b) ↔
      ∀ leaves ∈ p.path, leaves.length < 2 ^ 64 ∧
        ∀ l ∈ leaves, Fits l.offset := by
    rw [joinAll_returns]
    exact forall₂_congr hlevel
  rw [Writable, ← writeVarIntNum_returns, ← writeUint8_returns, ← hlevels]
  constructor
  · rintro ⟨b, h⟩
    obtain ⟨height, hh, h⟩ := bind_ok.mp h
    obtain ⟨count, hc, h⟩ := bind_ok.mp h
    obtain ⟨levels, hl, -⟩ := bind_ok.mp h
    exact ⟨⟨height, hh⟩, ⟨count, hc⟩, ⟨levels, hl⟩⟩
  · rintro ⟨⟨height, hh⟩, ⟨count, hc⟩, ⟨levels, hl⟩⟩
    exact bind_returns hh (bind_returns hc (bind_returns hl ⟨_, rfl⟩))

/-- A written path reads back, restored. -/
theorem fromReader_written (hinit : p.init showSet = .ok ())
    (hsorted : ∀ leaves ∈ p.path, Sorted leaves)
    (hp : p.Carries) (h : p.toBinary = .ok b) :
    fromReader showSet b = .ok p.restored := by
  obtain ⟨height, hh, h⟩ := bind_ok.mp h
  obtain ⟨count, hc, h⟩ := bind_ok.mp h
  obtain ⟨levels, hl, h⟩ := bind_ok.mp h
  rw [pure_eq_ok, Except.ok.injEq] at h
  have hread := @readLevels_written [] p.path levels
    (fun leaves hm => ⟨hsorted leaves hm, hp leaves hm⟩) hl
  rw [List.append_nil] at hread
  have hagain : MerklePath.init ⟨p.blockHeight,
      p.path.map (·.map restore)⟩ showSet = .ok () := init_restored hp hinit
  rw [← h, List.append_assoc, fromReader, (readVarIntNum_written hh).1]
  simp only [readLe_written hc, hread, ok_bind,
    (@readVarIntNum_written height p.blockHeight [] hh).2, hagain, pure_eq_ok]
  rfl

/-- **Binary round trip.** A path with a hash or a duplicate in every leaf, and
its levels in order, is written when its numbers fit. It is read back, and
accepted, as its restored form, which is the path itself when the hashes are in
lower case and no duplicate is marked as a transaction. And every leaf of the
lowest level gives one root. -/
theorem binary_round_trip (hinit : p.init showSet = .ok ())
    (hsorted : ∀ leaves ∈ p.path, Sorted leaves)
    (hp : p.Carries) :
    ((∃ b, p.toBinary = .ok b) ↔ p.Writable) ∧
      (∀ b, p.toBinary = .ok b → fromReader showSet b = .ok p.restored) ∧
      (p.restored = p ↔ ∀ leaves ∈ p.path, ∀ l ∈ leaves,
        (l.duplicate = true → l.txid = false) ∧
          ∀ s ∈ l.hashStr, s.toLower = s) ∧
      ∃ root, ∀ l ∈ p.level 0, p.computeRoot l.hashStr = .ok root :=
  ⟨toBinary_returns hp, fun _ h => fromReader_written hinit hsorted hp h,
    restored_eq_iff, (init_ok.mp hinit).2.2⟩

/-- A block of three transactions, with the proof of the first two: the third is
hashed with itself. -/
def samplePath : MerklePath := ⟨814435,
  [[⟨0, some (hex (List.replicate 32 0x1A)), true, false⟩,
    ⟨1, some (hex (List.replicate 32 0x2B)), true, false⟩],
    [⟨1, some (hex (List.replicate 32 0x3C)), false, false⟩]]⟩

/-- `", ".join(map(str, offsets))`, in some order. -/
def sampleShow (offsets : List Int) : String :=
  ", ".intercalate (offsets.map toString)

/-- The sample path is constructed. -/
theorem samplePath_init : samplePath.init sampleShow = .ok
    () := by decide +kernel

theorem samplePath_carries : samplePath.Carries := by
  simp only [Carries, samplePath, List.forall_mem_cons, List.not_mem_nil,
    false_imp_iff, implies_true, and_true]
  exact ⟨⟨MerkleLeaf.carries_hash 0 true (isHash_hex rfl),
    MerkleLeaf.carries_hash 1 true (isHash_hex rfl)⟩,
    MerkleLeaf.carries_hash 1 false (isHash_hex rfl)⟩

/-- The statement at the sample path. -/
theorem binary_round_trip_sample : ∃ b, samplePath.toBinary = .ok b ∧
    fromReader sampleShow b = .ok samplePath := by
  have hlower : ∀ leaves ∈ samplePath.path, ∀ l ∈ leaves,
      (l.duplicate = true → l.txid = false) ∧
        ∀ s ∈ l.hashStr, s.toLower = s := by
    simp only [samplePath, List.forall_mem_cons, List.not_mem_nil,
      false_imp_iff, implies_true, and_true, Bool.false_eq_true, Option.mem_def,
      Option.some.injEq, forall_eq', toLower_hex]
  obtain ⟨hwrite, hread, hsame, -⟩ :=
    binary_round_trip samplePath_init (by decide +kernel) samplePath_carries
  obtain ⟨b, hb⟩ := hwrite.mpr (by decide +kernel)
  rw [hsame.mpr hlower] at hread
  exact ⟨b, hb, hread b hb⟩

/-- A hash in upper case. -/
def upperHash : String := String.ofList (List.replicate 64 'A')

theorem toList_upperHash : upperHash.toList = List.replicate 64 'A' :=
  String.toList_ofList

theorem toLower_upperHash : upperHash.toLower ≠ upperHash := by
  intro h
  have hchars := congrArg String.toList h
  rw [toLower_eq_map, String.toList_map, toList_upperHash, List.map_replicate,
    List.replicate_right_inj (by decide)] at hchars
  exact absurd hchars (by decide)

theorem isHash_upperHash : IsHash upperHash := by
  rw [IsHash, toList_upperHash]
  refine ⟨List.length_replicate, fun c hc => ?_⟩
  rw [List.eq_of_mem_replicate hc]
  rfl

/-- One transaction and its duplicate, which is marked as a transaction. -/
def markedPath (blockHeight : Int) : MerklePath :=
  ⟨blockHeight, [[⟨0, some upperHash, true, false⟩, ⟨1, none, true, true⟩]]⟩

/-- The leaves of the marked path carry hashes. -/
theorem markedPath_carries (blockHeight : Int) :
    (markedPath blockHeight).Carries := by
  simp only [Carries, markedPath, List.forall_mem_cons, List.not_mem_nil,
    false_imp_iff, implies_true, and_true]
  exact ⟨MerkleLeaf.carries_hash 0 true isHash_upperHash, rfl⟩

/-- The duplicate comes back unmarked and the hash in lower case, and a height
beyond 64 bits is not written. -/
theorem marked_duplicate_lost :
    ((markedPath 1).init sampleShow = .ok () ∧
      (∀ leaves ∈ (markedPath 1).path, Sorted leaves) ∧
      (markedPath 1).Carries ∧ ∃ b p', (markedPath 1).toBinary = .ok b ∧
        fromReader sampleShow b = .ok p' ∧ p'.path.map (·.map (·.txid)) ≠
        (markedPath 1).path.map (·.map (·.txid)) ∧
        p'.path.map (·.map (·.hashStr)) ≠
          (markedPath 1).path.map (·.map (·.hashStr))) ∧
    ((markedPath (2 ^ 64)).init sampleShow = .ok () ∧
      (∀ leaves ∈ (markedPath (2 ^ 64)).path, Sorted leaves) ∧ (markedPath (2 ^
      64)).Carries ∧ ¬ ∃ b, (markedPath (2 ^ 64)).toBinary = .ok b) := by
  have hinit : (markedPath 1).init sampleShow = .ok () := by decide +kernel
  have hsorted : ∀ leaves ∈ (markedPath 1).path,
      Sorted leaves := by decide +kernel
  have hp : (markedPath 1).Carries := markedPath_carries 1
  have hlate : (markedPath (2 ^ 64)).Carries := markedPath_carries (2 ^ 64)
  obtain ⟨b, hb⟩ := (toBinary_returns hp).mpr (by decide +kernel)
  refine ⟨⟨hinit, hsorted, hp, b, _, hb, fromReader_written hinit hsorted hp
    hb, by decide, ?_⟩, ?_, hsorted, hlate, ?_⟩
  · intro h
    have hpath : [[some upperHash.toLower, none]] = [[some upperHash, none]] :=
      h
    simp only [List.cons.injEq, Option.some.injEq] at hpath
    exact toLower_upperHash hpath.1.1
  · exact hinit
  · rw [toBinary_returns hlate]
    decide +kernel

end MerklePath

end Pyrxd.Tx
