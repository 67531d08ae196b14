import Pyrxd.Lib.BitString
import Mathlib.Data.List.Induction

/-!
# Checksums by a linear register

A register of `m` symbols of `w` bits is shifted by one symbol and reduced
(`step`), and the next symbol is added. If that is linear in exclusive or, what
a register holds at the end is what zeros would have left there plus the symbols
themselves (`run_append`), so the last `m` symbols can be chosen to leave any
constant (`run_checksum`).
-/

namespace Pyrxd.Lib

structure XorRegister (w m : Nat) where
  step : Nat → Nat
  linear : ∀ a b, step (a ^^^ b) = step a ^^^ step b
  /-- Below the top symbol a step is a shift. -/
  shifts : ∀ a < 2 ^ (w * (m - 1)), step a = a <<< w
  bounded : ∀ a, step a < 2 ^ (w * m)

/-- What a shift leaves free is filled by exclusive or. -/
theorem shiftLeft_xor {w u : Nat} (a : Nat) (hu : u < 2 ^ w) :
    a <<< w ^^^ u = 2 ^ w * a + u := by
  refine Nat.eq_of_testBit_eq fun i => ?_
  rw [Nat.testBit_xor, Nat.testBit_shiftLeft, Nat.testBit_two_pow_mul_add a hu]
  by_cases hi : i < w
  · rw [if_pos hi, decide_eq_false (Nat.not_le.mpr hi), Bool.false_and,
      Bool.false_xor]
  · have hpow : 2 ^ w ≤ 2 ^ i :=
      Nat.pow_le_pow_right (by decide) (Nat.le_of_not_lt hi)
    rw [if_neg hi, decide_eq_true (Nat.le_of_not_lt hi), Bool.true_and,
      Nat.testBit_lt_two_pow (Nat.lt_of_lt_of_le hu hpow), Bool.xor_false]

namespace XorRegister

variable {w m : Nat} (r : XorRegister w m)

/-- The register after some symbols. -/
def run (c : Nat) (us : List Nat) : Nat :=
  us.foldl (fun c u => r.step c ^^^ u) c

/-- The symbols of a register, the top one first. -/
def symbols (w m p : Nat) : List Nat :=
  (List.range m).map fun i => (p >>> (w * (m - 1 - i))) &&& (2 ^ w - 1)

theorem run_append (c : Nat) (us vs : List Nat) :
    r.run c (us ++ vs) = r.run (r.run c us) vs := List.foldl_append

theorem run_snoc (c : Nat) (us : List Nat) (u : Nat) :
    r.run c (us ++ [u]) = r.step (r.run c us) ^^^ u := by
  rw [run_append]
  rfl

/-- What the register held and what is added to it do not mix. -/
theorem run_xor (c : Nat) (us : List Nat) :
    r.run c us = r.run c (List.replicate us.length 0) ^^^ r.run 0 us := by
  induction us using List.reverseRecOn with
  | nil =>
    show c = c ^^^ 0
    rw [Nat.xor_zero]
  | append_singleton us u ih =>
    rw [run_snoc, run_snoc, ih, r.linear, List.length_append,
      List.length_singleton, List.replicate_succ', run_snoc, Nat.xor_zero,
      Nat.xor_assoc]

/-- As many symbols as fit an empty register are what it then holds. -/
theorem run_zero {us : List Nat} (hlen : us.length ≤ m)
    (hus : ∀ u ∈ us, u < 2 ^ w) :
    r.run 0 us = bitsNat (spell w us) := by
  induction us using List.reverseRecOn with
  | nil => rfl
  | append_singleton us u ih =>
    rw [List.length_append, List.length_singleton] at hlen
    have hu : u < 2 ^ w := hus u (List.mem_append_right _ List.mem_cons_self)
    have hlt : bitsNat (spell w us) < 2 ^ (w * (m - 1)) := by
      refine Nat.lt_of_lt_of_le (bitsNat_lt _)
        (Nat.pow_le_pow_right (by decide) ?_)
      rw [length_spell]
      exact Nat.mul_le_mul_left _ (by omega)
    have hstring : spell w (us ++ [u]) =
        natBits (w * us.length + w) (2 ^ w * bitsNat (spell w us) + u) := by
      rw [natBits_append _ _ hu, ← length_spell, natBits_bitsNat, spell_append,
        spell_cons, spell_nil, List.append_nil]
    have hsum : 2 ^ w * bitsNat (spell w us) + u < 2 ^ (w * us.length + w) := by
      have hstr := bitsNat_lt (spell w us)
      rw [length_spell] at hstr
      rw [Nat.pow_add, Nat.mul_comm (2 ^ (w * us.length))]
      calc 2 ^ w * bitsNat (spell w us) + u < 2 ^ w * bitsNat (spell w
          us) + 2 ^ w := Nat.add_lt_add_left hu _
        _ = 2 ^ w * (bitsNat (spell w us) + 1) := by rw [Nat.mul_succ]
        _ ≤ 2 ^ w * 2 ^ (w * us.length) := Nat.mul_le_mul_left _ hstr
    rw [run_snoc, ih (Nat.le_of_succ_le hlen) fun x hx =>
      hus x (List.mem_append_left _ hx), r.shifts _ hlt, hstring,
      bitsNat_natBits hsum, shiftLeft_xor _ hu]

/-- Symbols are cut out of a register so that they spell its bits. -/
theorem spell_symbols (w m p : Nat) :
    spell w (symbols w m p) = natBits (w * m) p := by
  have hbits : ∀ k, k ≤ m →
      spell w ((symbols w m p).drop (m - k)) = natBits (w * k) p := by
    intro k
    induction k with
    | zero =>
      intro _
      rw [Nat.sub_zero, List.drop_of_length_le (by rw [symbols, List.length_map,
        List.length_range])]
      rfl
    | succ k ih =>
      intro hk
      have hget : (symbols w m p)[m - (k + 1)]? =
          some ((p >>> (w * k)) &&& (2 ^ w - 1)) := by
        rw [symbols, List.getElem?_map, List.getElem?_range (by omega),
          Option.map_some,
          show m - 1 - (m - (k + 1)) = k by omega]
      obtain ⟨hlt, hval⟩ := List.getElem?_eq_some_iff.mp hget
      rw [List.drop_eq_getElem_cons hlt, hval,
        spell_cons, show m - (k + 1) + 1 =
        m - k by omega, ih (by omega), Nat.and_two_pow_sub_one_eq_mod, natBits_mod (Nat.le_refl
        w), Nat.mul_succ, Nat.add_comm, natBits_add]
  have hall := hbits m (Nat.le_refl m)
  rwa [Nat.sub_self, List.drop_zero] at hall

theorem symbols_lt (w m p : Nat) : ∀ u ∈ symbols w m p, u < 2 ^ w := by
  intro u hu
  obtain ⟨i, -, rfl⟩ := List.mem_map.mp hu
  rw [Nat.and_two_pow_sub_one_eq_mod]
  exact Nat.mod_lt _ (Nat.two_pow_pos w)

@[simp] theorem length_symbols (w m p : Nat) : (symbols w m p).length = m := by
  rw [symbols, List.length_map, List.length_range]

/-- Zeros at the end keep the state in its width. -/
theorem run_lt (hm : 0 < m) (c : Nat) (us : List Nat) :
    r.run c (us ++ List.replicate m 0) < 2 ^ (w * m) := by
  obtain ⟨k, rfl⟩ : ∃ k, m = k + 1 := ⟨m - 1, by omega⟩
  rw [List.replicate_succ', ← List.append_assoc, run_snoc, Nat.xor_zero]
  exact r.bounded _

/-- **The checksum leaves the constant**: the symbols of what zeros would leave,
changed by the constant. -/
theorem run_checksum (hm : 0 < m) (c : Nat) (us : List Nat) {const : Nat}
    (hconst : const < 2 ^ (w * m)) :
    r.run c (us ++ symbols w m (r.run c (us ++ List.replicate m 0) ^^^ const)) =
      const := by
  have hlt := r.run_lt hm c us
  rw [run_append] at hlt
  generalize hp : r.run c (us ++ List.replicate m 0) = p
  rw [run_append] at hp
  rw [hp] at hlt
  rw [run_append, run_xor, length_symbols, hp,
    r.run_zero (Nat.le_of_eq (length_symbols w m _)) (symbols_lt w m _),
    spell_symbols, bitsNat_natBits (Nat.xor_lt_two_pow hlt hconst),
    ← Nat.xor_assoc, Nat.xor_self, Nat.zero_xor]

end XorRegister

end Pyrxd.Lib
