import Pyrxd.Lib.Bytes
import Mathlib.Data.Nat.Bitwise

/-!
# Bit strings

A number of fixed width as its bits, the most significant first, and a list of
such numbers as the string they spell. Everything here follows from one
equation, `natBits_append`: the bits of a number are those of its quotient and
those of its remainder by a power of two. So a string determines the numbers of
a given width that spell it (`spell_injective`), and any string of a fitting
length is spelled by some (`spell_bitGroups`).
-/

namespace Pyrxd.Lib

abbrev Bits := List Bool

/-- The low `w` bits of `n`. -/
def natBits : Nat → Nat → Bits
  | 0, _ => []
  | w + 1, n => n.testBit w :: natBits w n

/-- The number a bit string writes. -/
def bitsNat : Bits → Nat
  | [] => 0
  | b :: bs => 2 ^ bs.length * b.toNat + bitsNat bs

/-- The string of a list of numbers, `w` bits each. -/
def spell (w : Nat) (ns : List Nat) : Bits := ns.flatMap (natBits w)

/-- The groups of `k` bits a string is made of, the last one perhaps shorter. -/
def bitGroups (k : Nat) (bits : Bits) : List Bits :=
  (List.range ((bits.length + (k - 1)) / k)).map fun i =>
    (bits.drop (k * i)).take k

/-! ## The bits of a number -/

/-- A number is spelled in the width asked for. -/
@[simp] theorem length_natBits (w n : Nat) : (natBits w n).length = w := by
  induction w with
  | zero => rfl
  | succ w ih => rw [natBits, List.length_cons, ih]

/-- Only the low bits count. -/
theorem natBits_congr {w m n : Nat} (h : ∀ i < w, m.testBit i = n.testBit i) :
    natBits w m = natBits w n := by
  induction w with
  | zero => rfl
  | succ w ih =>
    rw [natBits, natBits, h w (Nat.lt_succ_self w),
      ih fun i hi => h i (Nat.lt_succ_of_lt hi)]

/-- Only the low bits are spelled. -/
theorem natBits_mod {w k : Nat} (h : w ≤ k) (n : Nat) :
    natBits w (n % 2 ^ k) = natBits w n := by
  refine natBits_congr fun i hi => ?_
  rw [Nat.testBit_mod_two_pow, decide_eq_true (Nat.lt_of_lt_of_le hi h),
    Bool.true_and]

/-- A wider spelling is the high bits and then the low ones. -/
theorem natBits_add (a b n : Nat) : natBits (a + b) n =
    natBits a (n >>> b) ++ natBits b n := by
  induction a with
  | zero => rw [Nat.zero_add]; rfl
  | succ a ih =>
    rw [Nat.succ_add, natBits, natBits, List.cons_append, ih,
      Nat.testBit_shiftRight, Nat.add_comm b a]

/-- The bits of a quotient, and then those of the remainder. -/
theorem natBits_append {b y : Nat} (a x : Nat) (hy : y < 2 ^ b) :
    natBits (a + b) (2 ^ b * x + y) = natBits a x ++ natBits b y := by
  rw [natBits_add, Nat.shiftRight_eq_div_pow,
    Nat.mul_add_div (Nat.two_pow_pos b), Nat.div_eq_of_lt hy, Nat.add_zero]
  congr 1
  refine natBits_congr fun i hi => ?_
  rw [Nat.testBit_two_pow_mul_add x hy, if_pos hi]

theorem natBits_zero (w : Nat) : natBits w 0 = List.replicate w false := by
  induction w with
  | zero => rfl
  | succ w ih => rw [natBits, ih, Nat.zero_testBit, List.replicate_succ]

/-! ## The number of a string -/

/-- A bit string's number fits its length. -/
theorem bitsNat_lt (bits : Bits) : bitsNat bits < 2 ^ bits.length := by
  induction bits with
  | nil => decide
  | cons b bs ih =>
    rw [bitsNat, List.length_cons, Nat.pow_succ]
    have hb := b.toNat_le
    have hmul : 2 ^ bs.length * b.toNat ≤ 2 ^ bs.length * 1 :=
      Nat.mul_le_mul_left _ hb
    omega

/-- Spelling a bit string's number gives it back. -/
theorem natBits_bitsNat (bits : Bits) :
    natBits bits.length (bitsNat bits) = bits := by
  induction bits with
  | nil => rfl
  | cons b bs ih =>
    rw [bitsNat, List.length_cons, Nat.add_comm,
      natBits_append 1 b.toNat (bitsNat_lt bs), ih]
    cases b <;> rfl

/-- Reading a spelled number gives it back. -/
theorem bitsNat_natBits {w n : Nat} (h : n < 2 ^ w) :
    bitsNat (natBits w n) = n := by
  have hback := natBits_bitsNat (natBits w n)
  rw [length_natBits] at hback
  have hlt := bitsNat_lt (natBits w n)
  rw [length_natBits] at hlt
  refine Nat.eq_of_testBit_eq fun i => ?_
  by_cases hi : i < w
  · -- the bits are read off one by one
    have hget : ∀ m : Nat, (natBits w m)[w - 1 - i]? = some (m.testBit i) := by
      intro m
      clear hback hlt h
      induction w with
      | zero => omega
      | succ w ih =>
        by_cases htop : i = w
        · rw [htop, natBits, show w + 1 - 1 - w = 0 by omega]
          rfl
        · rw [natBits, show w + 1 - 1 - i =
            (w - 1 - i) + 1 by omega, List.getElem?_cons_succ]
          exact ih (by omega)
    have hn := hget n
    rw [← hback, hget, Option.some.injEq] at hn
    exact hn
  · have hpow : 2 ^ w ≤ 2 ^ i :=
      Nat.pow_le_pow_right (by decide) (Nat.le_of_not_lt hi)
    rw [Nat.testBit_lt_two_pow (Nat.lt_of_lt_of_le hlt hpow),
      Nat.testBit_lt_two_pow (Nat.lt_of_lt_of_le h hpow)]

/-- Spelling in one width determines the number. -/
theorem natBits_injective {w m n : Nat} (hm : m < 2 ^ w) (hn : n < 2 ^ w)
    (h : natBits w m = natBits w n) : m = n := by
  rw [← bitsNat_natBits hm, h, bitsNat_natBits hn]

/-! ## The string of a list -/

theorem spell_append (w : Nat) (ms ns : List Nat) :
    spell w (ms ++ ns) = spell w ms ++ spell w ns :=
  List.flatMap_append

@[simp] theorem spell_nil (w : Nat) : spell w [] = [] := rfl

theorem spell_cons (w n : Nat) (ns : List Nat) :
    spell w (n :: ns) = natBits w n ++ spell w ns := rfl

/-- Every number takes the same width. -/
theorem length_spell (w : Nat) (ns : List Nat) :
    (spell w ns).length = w * ns.length := by
  induction ns with
  | nil => rfl
  | cons n ns ih =>
    rw [spell_cons, List.length_append, length_natBits, ih, List.length_cons,
      Nat.mul_succ, Nat.add_comm]

/-- Two lists of numbers of one width that spell the same are the same. -/
theorem spell_injective {w : Nat} (hw : 0 < w) {ms ns : List Nat}
    (hm : ∀ m ∈ ms, m < 2 ^ w) (hn : ∀ n ∈ ns, n < 2 ^ w)
    (h : spell w ms = spell w ns) : ms = ns := by
  have hlen : ms.length = ns.length := by
    have hlen := congrArg List.length h
    rw [length_spell, length_spell] at hlen
    exact Nat.eq_of_mul_eq_mul_left hw hlen
  induction ms generalizing ns with
  | nil => exact (List.length_eq_zero_iff.mp hlen.symm).symm
  | cons m ms ih =>
    cases ns with
    | nil => cases hlen
    | cons n ns =>
      obtain ⟨hhead, htail⟩ :=
        List.append_inj h (by rw [length_natBits, length_natBits])
      rw [natBits_injective (hm m List.mem_cons_self)
        (hn n List.mem_cons_self) hhead,
        ih (fun x hx => hm x (List.mem_cons_of_mem _ hx)) (fun x hx =>
          hn x (List.mem_cons_of_mem _ hx)) htail (Nat.succ.inj hlen)]

/-! ## Groups -/

theorem bitGroups_nil {k : Nat} (hk : 0 < k) : bitGroups k [] = [] := by
  rw [bitGroups, List.length_nil, Nat.zero_add, Nat.div_eq_of_lt (by omega)]
  rfl

/-- A whole group in front. -/
theorem bitGroups_append {k : Nat} (hk : 0 < k) {g : Bits} (hg : g.length = k)
    (bits : Bits) :
    bitGroups k (g ++ bits) = g :: bitGroups k bits := by
  have hcount : ((g ++ bits).length + (k - 1)) / k =
      (bits.length + (k - 1)) / k + 1 := by
    rw [List.length_append, hg, Nat.add_assoc, Nat.add_div_left _ hk]
  rw [bitGroups, hcount, List.range_succ_eq_map, List.map_cons,
    List.map_map, Nat.mul_zero, List.drop_zero, List.take_append_of_le_length
    (Nat.le_of_eq hg.symm), List.take_of_length_le (Nat.le_of_eq hg), bitGroups]
  congr 1
  refine List.map_congr_left fun i _ => ?_
  show ((g ++ bits).drop (k * (i + 1))).take k = (bits.drop (k * i)).take k
  rw [Nat.mul_succ, Nat.add_comm, ← List.drop_drop,
    List.drop_append_of_le_length (Nat.le_of_eq hg.symm),
    List.drop_of_length_le (Nat.le_of_eq hg), List.nil_append]

/-- The groups of a string whose length they fit. -/
theorem bitGroups_flatten {k : Nat} (hk : 0 < k) {gs : List Bits}
    (h : ∀ g ∈ gs, g.length = k) :
    bitGroups k gs.flatten = gs := by
  induction gs with
  | nil => exact bitGroups_nil hk
  | cons g gs ih =>
    rw [List.flatten_cons, bitGroups_append hk (h g List.mem_cons_self),
      ih fun g hg => h g (List.mem_cons_of_mem _ hg)]

/-- A string of a fitting length is made of whole groups. -/
theorem exists_flatten {k : Nat} (m : Nat) {bits : Bits}
    (h : bits.length = k * m) :
    ∃ gs : List Bits, gs.length = m ∧ (∀ g ∈ gs, g.length = k) ∧
    gs.flatten = bits := by
  induction m generalizing bits with
  | zero =>
    rw [Nat.mul_zero, List.length_eq_zero_iff] at h
    exact ⟨[], rfl, List.forall_mem_nil _, h.symm⟩
  | succ m ih =>
    rw [Nat.mul_succ] at h
    have hdrop : (bits.drop k).length = k * m := by rw [List.length_drop]; omega
    obtain ⟨gs, hlen, hgs, hflat⟩ := ih hdrop
    refine ⟨bits.take k :: gs, by rw [List.length_cons, hlen], ?_, ?_⟩
    · rw [List.forall_mem_cons]
      exact ⟨by rw [List.length_take]; omega, hgs⟩
    · rw [List.flatten_cons, hflat, List.take_append_drop]

/-- The numbers of the groups of a string spell it. -/
theorem spell_bitGroups {k : Nat} (hk : 0 < k) (m : Nat) {bits : Bits}
    (h : bits.length = k * m) :
    spell k ((bitGroups k bits).map bitsNat) = bits ∧
    ((bitGroups k bits).map bitsNat).length = m ∧
      ∀ n ∈ (bitGroups k bits).map bitsNat, n < 2 ^ k := by
  obtain ⟨gs, hlen, hgs, rfl⟩ := exists_flatten m h
  rw [bitGroups_flatten hk hgs]
  refine ⟨?_, by rw [List.length_map, hlen], ?_⟩
  · rw [spell, List.flatMap_map, ← List.flatMap_id']
    refine List.flatMap_congr fun g hg => ?_
    have hback := natBits_bitsNat g
    rw [hgs g hg] at hback
    exact hback
  · intro n hn
    obtain ⟨g, hg, rfl⟩ := List.mem_map.mp hn
    have hlt := bitsNat_lt g
    rw [hgs g hg] at hlt
    exact hlt

end Pyrxd.Lib
