import Mathlib.Data.List.GetD
import Mathlib.Tactic.Ring
import Pyrxd.Lib.Bytes

/-!
# Script numbers

The numbers of a script stack: little-endian magnitude with the sign in the top
bit of the last byte, the empty string for zero. An operand may have at most
eight bytes, which holds the numbers of magnitude below `2 ^ 63`.

Main results: `readNum_scriptNum`, the round trip, and `readNum_scriptNum_none`,
that a number out of range is not read back.
-/

namespace Pyrxd.Lib

/-- The bytes of a magnitude: `while n > 0: append(n & 0xff); n >>= 8`. -/
def magBytes (n : Nat) : Bytes := go n n
where
  go : Nat → Nat → Bytes
    | 0, _ => []
    | fuel + 1, n => if n = 0 then [] else UInt8.ofNat n :: go fuel (n / 256)

/-- `CScriptNum::serialize`. -/
def scriptNum (n : Int) : Bytes :=
  let mag := magBytes n.natAbs
  match mag.getLast? with
  | none => []
  | some last =>
    if 0x80 ≤ last then mag ++ [if n < 0 then 0x80 else 0x00]
    else if n < 0 then mag.dropLast ++ [last + 0x80]
    else mag

/-- `CScriptNum::set_vch`. -/
def decodeNum (b : Bytes) : Int :=
  match b.getLast? with
  | none => 0
  | some last =>
    if 0x80 ≤ last then -((leNat b : Int) - 0x80 * 256 ^ (b.length - 1))
      else leNat b

/-- No byte of the encoding could be left out. -/
def isMinimal (b : Bytes) : Bool :=
  match b.reverse with
  | [] => true
  | last :: rest =>
    last &&& 0x7F != 0 || match rest with
      | [] => false
      | next :: _ => decide (0x80 ≤ next)

/-- An operand as a number, or `none` for an aborted script. -/
def readNum (requireMinimal : Bool) (b : Bytes) : Option Int :=
  if 8 < b.length then none
  else if requireMinimal && !isMinimal b then none
  else some (decodeNum b)

/-- The numbers a script can compute with. -/
def NumRange (n : Int) : Prop := -2 ^ 63 < n ∧ n < 2 ^ 63

instance (n : Int) : Decidable (NumRange n) :=
  inferInstanceAs (Decidable (_ ∧ _))

/-! ## Ranges -/

/-- Script numbers are those of 63 bits and a sign. -/
theorem numRange_iff {n : Int} : NumRange n ↔ n.natAbs < 2 ^ 63 := by
  unfold NumRange
  omega

theorem NumRange.tdiv {a b : Int} (h : NumRange a) : NumRange (a.tdiv b) := by
  rw [numRange_iff] at h ⊢
  rw [Int.natAbs_tdiv]
  exact Nat.lt_of_le_of_lt (Nat.div_le_self _ _) h

theorem NumRange.tmod {a b : Int} (h : NumRange a) : NumRange (a.tmod b) := by
  rw [numRange_iff] at h ⊢
  rw [Int.natAbs_tmod]
  exact Nat.lt_of_le_of_lt (Nat.mod_le _ _) h

theorem NumRange.min {a b : Int} (ha : NumRange a) (hb : NumRange b) :
    NumRange (min a b) := by
  rcases min_choice a b with h | h <;> rw [h] <;> assumption

theorem NumRange.max {a b : Int} (ha : NumRange a) (hb : NumRange b) :
    NumRange (max a b) := by
  rcases max_choice a b with h | h <;> rw [h] <;> assumption

/-! ## Magnitudes -/

/-- The loop runs until the magnitude is used up. -/
theorem magBytes_go_spec {fuel n : Nat} (h : n ≤ fuel) :
    leNat (magBytes.go fuel n) = n ∧
    (∀ last ∈ (magBytes.go fuel n).getLast?, last ≠ 0) := by
  induction fuel generalizing n with
  | zero =>
    have hn : n = 0 := by omega
    subst hn
    exact ⟨rfl, nofun⟩
  | succ k ih =>
    rw [magBytes.go]
    by_cases hn : n = 0
    · rw [if_pos hn, hn]
      exact ⟨rfl, nofun⟩
    · rw [if_neg hn]
      obtain ⟨hval, hlast⟩ := ih (n := n / 256) (by omega)
      refine ⟨?_, ?_⟩
      · rw [leNat, hval, UInt8.toNat_ofNat']
        omega
      · intro last hl
        cases htail : magBytes.go k (n / 256) with
        | nil =>
          rw [htail, List.getLast?_singleton, Option.mem_some_iff] at hl
          rw [htail] at hval
          have hsmall : n < 256 := by
            have h0 : leNat ([] : Bytes) = 0 := rfl
            omega
          intro h0
          rw [← hl] at h0
          have := congrArg UInt8.toNat h0
          rw [UInt8.toNat_ofNat'] at this
          have hz : (0 : UInt8).toNat = 0 := rfl
          omega
        | cons y t =>
          rw [htail, List.getLast?_cons_cons] at hl
          exact hlast last (by rw [htail]; exact hl)

/-- The magnitude bytes are the number's. -/
theorem leNat_magBytes (n : Nat) : leNat (magBytes n) = n :=
  (magBytes_go_spec (Nat.le_refl n)).1

theorem magBytes_last_ne_zero {n : Nat} {last : UInt8}
    (h : (magBytes n).getLast? = some last) :
    last ≠ 0 := (magBytes_go_spec (Nat.le_refl n)).2 last h

theorem magBytes_eq_nil {n : Nat} : magBytes n = [] ↔ n = 0 := by
  constructor
  · intro h
    have hval := leNat_magBytes n
    rw [h] at hval
    exact hval.symm
  · intro h
    subst h
    rfl

/-- A magnitude in front of its last byte. -/
theorem magBytes_split {n : Nat} {last : UInt8}
    (h : (magBytes n).getLast? = some last) :
    magBytes n = (magBytes n).dropLast ++ [last] := by
  have hne : magBytes n ≠ [] := by
    intro hnil
    rw [hnil] at h
    cases h
  rw [List.getLast?_eq_some_getLast hne, Option.some.injEq] at h
  rw [← h, List.dropLast_append_getLast]

/-- The last byte is the top digit. -/
theorem magBytes_bounds {n : Nat} {last : UInt8}
    (h : (magBytes n).getLast? = some last) :
    last.toNat * 256 ^ ((magBytes n).length - 1) ≤ n ∧
      n < (last.toNat + 1) * 256 ^ ((magBytes n).length - 1) := by
  have hsplit := magBytes_split h
  have hval := leNat_magBytes n
  have hlen : (magBytes n).length - 1 = (magBytes n).dropLast.length := by
    rw [List.length_dropLast]
  have hlow := leNat_lt (magBytes n).dropLast
  rw [hsplit, leNat_append, leNat_singleton] at hval
  rw [hlen]
  constructor
  · rw [Nat.mul_comm]
    omega
  · rw [Nat.add_mul, Nat.one_mul, Nat.mul_comm]
    omega

/-! ## The round trip -/

/-- The sign bit as a comparison. -/
theorem uint8_ge_iff {x : UInt8} : 0x80 ≤ x ↔ 128 ≤ x.toNat := Iff.rfl

/-- The top bit, as Python tests it. -/
theorem and_128_ne_zero {x : UInt8} : x &&& 0x80 ≠ 0 ↔ 0x80 ≤ x := by
  have hall : ∀ n < 256, UInt8.ofNat n &&& 0x80 ≠ 0 ↔
      0x80 ≤ UInt8.ofNat n := by decide +kernel
  have h := hall x.toNat x.toNat_lt
  rwa [UInt8.ofNat_toNat] at h

/-- The three shapes of an encoding. -/
theorem scriptNum_cases (n : Int) :
    (n = 0 ∧ scriptNum n = []) ∨
    (∃ last, (magBytes n.natAbs).getLast? = some last ∧ 128 ≤ last.toNat ∧
      scriptNum n = magBytes n.natAbs ++ [if n < 0 then 0x80 else 0x00]) ∨
    (∃ last, (magBytes n.natAbs).getLast? = some last ∧
      last.toNat < 128 ∧ last ≠ 0 ∧
      scriptNum n = if n < 0 then (magBytes n.natAbs).dropLast ++ [last + 0x80]
        else magBytes n.natAbs) := by
  cases hl : (magBytes n.natAbs).getLast? with
  | none =>
    have hnil := magBytes_eq_nil.mp (List.getLast?_eq_none_iff.mp hl)
    exact .inl ⟨Int.natAbs_eq_zero.mp hnil, by rw [scriptNum, hl]⟩
  | some last =>
    by_cases hbig : 0x80 ≤ last
    · exact .inr (.inl ⟨last, rfl,
        hbig, by rw [scriptNum, hl]; exact if_pos hbig⟩)
    · refine .inr (.inr ⟨last, rfl, Nat.lt_of_not_le hbig,
        magBytes_last_ne_zero hl, ?_⟩)
      rw [scriptNum, hl]
      exact if_neg hbig

theorem toNat_add_128 {x : UInt8} (h : x.toNat < 128) :
    (x + 0x80).toNat = x.toNat + 128 := by
  rw [UInt8.toNat_add]
  have h128 : (0x80 : UInt8).toNat = 128 := rfl
  omega

/-- Decoding looks at the last byte's sign bit. -/
theorem decodeNum_snoc (b : Bytes) (x : UInt8) : decodeNum (b ++ [x]) =
    if 0x80 ≤ x then -((leNat b : Int) + (x.toNat - 128 : Int) * 256 ^ b.length)
    else leNat b + x.toNat * 256 ^ b.length := by
  rw [decodeNum, List.getLast?_concat, List.length_append,
    List.length_singleton,
    Nat.add_sub_cancel, leNat_append, leNat_singleton]
  simp only
  split
  · push_cast
    ring
  · push_cast
    ring

theorem decodeNum_scriptNum (n : Int) : decodeNum (scriptNum n) = n := by
  rcases scriptNum_cases n with ⟨rfl, h⟩ | ⟨last, hl, hbig, h⟩ | ⟨last, hl,
    hsmall, hne, h⟩
  · rw [h]
    rfl
  · rw [h, decodeNum_snoc, leNat_magBytes]
    by_cases hn : n < 0
    · rw [if_pos hn, if_pos (by decide)]
      show -((n.natAbs : Int) + (128 - 128 : Int) * _) = n
      omega
    · rw [if_neg hn, if_neg (by decide)]
      show (n.natAbs : Int) + (0 : Int) * _ = n
      omega
  · have hcast : (n.natAbs : Int) = leNat (magBytes n.natAbs).dropLast +
        last.toNat * 256 ^ (magBytes n.natAbs).dropLast.length := by
      have hval := leNat_magBytes n.natAbs
      rw [magBytes_split hl, leNat_append, leNat_singleton] at hval
      conv_lhs => rw [← hval]
      push_cast
      ring
    rw [h]
    by_cases hn : n < 0
    · have hadd := toNat_add_128 hsmall
      rw [if_pos hn, decodeNum_snoc, if_pos (uint8_ge_iff.mpr (by omega)), hadd]
      push_cast
      rw [add_sub_cancel_right, ← hcast]
      omega
    · rw [if_neg hn, magBytes_split hl, decodeNum_snoc,
        if_neg (fun hge => absurd (uint8_ge_iff.mp hge) (by omega)), ← hcast]
      omega

theorem and_127_ne_zero {x : UInt8} (h : x.toNat % 128 ≠ 0) :
    (x &&& 0x7F != 0) = true := by
  rw [bne_iff_ne]
  intro h0
  have hn := congrArg UInt8.toNat h0
  rw [UInt8.toNat_and] at hn
  have hmod := Nat.and_two_pow_sub_one_eq_mod x.toNat 7
  have h127 : (0x7F : UInt8).toNat = 2 ^ 7 - 1 := rfl
  rw [h127, hmod] at hn
  exact h hn

/-- Minimality looks at the last two bytes. -/
theorem isMinimal_snoc (b : Bytes) (x : UInt8) : isMinimal (b ++ [x]) =
    (x &&& 0x7F != 0 || match b.getLast? with | none => false | some y => decide (0x80 ≤ y)) := by
  rw [isMinimal, List.reverse_append, List.reverse_singleton,
    List.singleton_append]
  simp only [List.getLast?_eq_head?_reverse]
  cases b.reverse with
  | nil => rfl
  | cons y r => rfl

/-- A written number is minimal. -/
theorem isMinimal_scriptNum (n : Int) : isMinimal (scriptNum n) = true := by
  rcases scriptNum_cases n with ⟨rfl, h⟩ | ⟨last, hl, hbig, h⟩ | ⟨last, hl, hsmall, hne, h⟩
  · rw [h]
    rfl
  · rw [h, isMinimal_snoc, hl]
    simp only [uint8_ge_iff, hbig, decide_true, Bool.or_true]
  · have h0 : last.toNat ≠ 0 := fun h0 => hne (UInt8.toNat_inj.mp h0)
    have hadd := toNat_add_128 hsmall
    rw [h]
    by_cases hn : n < 0
    · rw [if_pos hn, isMinimal_snoc, and_127_ne_zero (by omega), Bool.true_or]
    · rw [if_neg hn, magBytes_split hl, isMinimal_snoc,
        and_127_ne_zero (by omega), Bool.true_or]

/-- The length of an encoding tells how large the number is. -/
theorem length_scriptNum_le (n : Int) (w : Nat) :
    (scriptNum n).length ≤ w + 1 ↔ n.natAbs < 128 * 256 ^ w := by
  have hw : 0 < 256 ^ w := Nat.pow_pos (by decide)
  -- a number takes one byte more when its magnitude uses the sign bit
  rcases scriptNum_cases n with ⟨rfl, h⟩ | ⟨last, hl, hbig, h⟩ | ⟨last, hl,
    hsmall, hne, h⟩
  · rw [h, Int.natAbs_zero, List.length_nil]
    constructor <;> (intro _; omega)
  all_goals
    have hne' : magBytes n.natAbs ≠ [] := by
      intro hnil
      rw [hnil] at hl
      cases hl
    have hpos := List.length_pos_of_ne_nil hne'
    obtain ⟨hlo, hhi⟩ := magBytes_bounds hl
    have hlast := last.toNat_lt
  · rw [h, List.length_append, List.length_singleton]
    constructor
    · intro hlen
      have hpow : 256 * 256 ^ ((magBytes n.natAbs).length - 1) ≤ 256 ^ w := by
        rw [← Nat.pow_succ']
        exact Nat.pow_le_pow_right (by decide) (by omega)
      calc n.natAbs <
          (last.toNat + 1) * 256 ^ ((magBytes n.natAbs).length - 1) := hhi
        _ ≤ 256 * 256 ^ ((magBytes n.natAbs).length - 1) :=
          Nat.mul_le_mul_right _ (by omega)
        _ ≤ 128 * 256 ^ w := by omega
    · intro hlt
      by_contra hlen
      have : 128 * 256 ^ w ≤ n.natAbs := calc
        128 * 256 ^ w ≤ last.toNat * 256 ^ ((magBytes n.natAbs).length - 1) :=
          Nat.mul_le_mul hbig (Nat.pow_le_pow_right (by decide) (by omega))
        _ ≤ n.natAbs := hlo
      omega
  · have hlen : (scriptNum n).length = (magBytes n.natAbs).length := by
      rw [h]
      split
      · rw [List.length_append, List.length_singleton, List.length_dropLast]
        omega
      · rfl
    have hone : 1 ≤ last.toNat := by
      have h0 : last.toNat ≠ 0 := fun h0 => hne (UInt8.toNat_inj.mp h0)
      omega
    rw [hlen]
    constructor
    · intro hle
      calc n.natAbs <
          (last.toNat + 1) * 256 ^ ((magBytes n.natAbs).length - 1) := hhi
        _ ≤ 128 * 256 ^ w := Nat.mul_le_mul (by omega)
          (Nat.pow_le_pow_right (by decide) (by omega))
    · intro hlt
      by_contra hle
      have hpow : 256 * 256 ^ w ≤ 256 ^ ((magBytes n.natAbs).length - 1) := by
        rw [← Nat.pow_succ']
        exact Nat.pow_le_pow_right (by decide) (by omega)
      have : 1 * 256 ^ ((magBytes n.natAbs).length - 1) ≤ n.natAbs :=
        Nat.le_trans (Nat.mul_le_mul_right _ hone) hlo
      omega

/-- An operand of eight bytes is a number in range. -/
theorem length_scriptNum (n : Int) : (scriptNum n).length ≤ 8 ↔ NumRange n := by
  rw [numRange_iff]
  exact length_scriptNum_le n 7

/-- **Round trip.** A number in range is read back as itself. -/
theorem readNum_scriptNum {n : Int} (m : Bool) (h : NumRange n) :
    readNum m (scriptNum n) = some n := by
  rw [readNum, if_neg (Nat.not_lt.mpr ((length_scriptNum n).mpr h)),
    isMinimal_scriptNum,
    Bool.not_true, Bool.and_false, if_neg Bool.false_ne_true,
      decodeNum_scriptNum]

/-- A number out of range is not read at all. -/
theorem readNum_scriptNum_none {n : Int} (m : Bool) (h : ¬ NumRange n) :
    readNum m (scriptNum n) = none := by
  have hlen := mt (length_scriptNum n).mp h
  rw [readNum, if_pos (Nat.lt_of_not_le hlen)]

/-! ## Minimal encodings -/

/-- A number is its string, or the negative of what the sign bit leaves of
it. -/
theorem decodeNum_cases (b : Bytes) : decodeNum b = leNat b ∨ ∃ m : Nat,
    leNat b = m + 128 * 256 ^ (b.length - 1) ∧ decodeNum b = -m := by
  rcases List.eq_nil_or_concat b with rfl | ⟨a, x, rfl⟩
  · exact Or.inl rfl
  rw [List.concat_eq_append, decodeNum_snoc, leNat_append, leNat_singleton,
    List.length_append, List.length_singleton, Nat.add_sub_cancel,
    Nat.mul_comm (256 ^ a.length)]
  by_cases h : 0x80 ≤ x
  · have hge := uint8_ge_iff.mp h
    refine Or.inr ⟨leNat a + (x.toNat - 128) * 256 ^ a.length, ?_, ?_⟩
    · rw [Nat.add_assoc, ← Nat.add_mul, Nat.sub_add_cancel hge]
    · rw [if_pos h]
      push_cast [hge]
      ring
  · rw [if_neg h]
    exact Or.inl (by push_cast; ring)

/-- Encodings of one length are told apart by their number, unless it is
zero. -/
theorem decodeNum_inj {a b : Bytes} (hlen : a.length = b.length)
    (h : decodeNum a = decodeNum b)
    (h0 : decodeNum b ≠ 0) : a = b := by
  apply leNat_inj hlen
  rcases decodeNum_cases a with ha | ⟨m, hm, ha⟩
  · rcases decodeNum_cases b with hb | ⟨n, hn, hb⟩ <;> omega
  · rcases decodeNum_cases b with hb | ⟨n, hn, hb⟩
    · omega
    · rw [hlen] at hm
      omega

/-- The magnitude that is decoded. -/
theorem natAbs_decodeNum_snoc (b : Bytes) (x : UInt8) :
    (decodeNum (b ++ [x])).natAbs =
      leNat b + x.toNat % 128 * 256 ^ b.length := by
  have hx := x.toNat_lt
  rw [decodeNum_snoc]
  split
  · next h =>
    have hge := uint8_ge_iff.mp h
    have hmod : ((x.toNat : Int) - 128) = (x.toNat % 128 : Nat) := by omega
    rw [hmod, Int.natAbs_neg]
    exact Int.natAbs_natCast (leNat b + x.toNat % 128 * 256 ^ b.length)
  · next h =>
    have hlt : x.toNat < 128 :=
      Nat.lt_of_not_le fun hge => h (uint8_ge_iff.mpr hge)
    rw [Nat.mod_eq_of_lt hlt]
    exact Int.natAbs_natCast (leNat b + x.toNat * 256 ^ b.length)

/-- Seven bits of the last byte are the number's. -/
theorem natAbs_decodeNum_lt (b : Bytes) :
    (decodeNum b).natAbs < 128 * 256 ^ (b.length - 1) := by
  rcases List.eq_nil_or_concat b with rfl | ⟨a, x, rfl⟩
  · decide
  have hlow := leNat_lt a
  have htop : x.toNat % 128 * 256 ^ a.length ≤ 127 * 256 ^ a.length :=
    Nat.mul_le_mul_right _ (by omega)
  rw [List.concat_eq_append, natAbs_decodeNum_snoc, List.length_append,
    List.length_singleton,
    Nat.add_sub_cancel]
  omega

/-- A last byte that counts, as arithmetic. -/
theorem mod_128_ne_zero {x : UInt8} (h : (x &&& 0x7F != 0) = true) :
    x.toNat % 128 ≠ 0 := by
  intro h0
  have hmod := Nat.and_two_pow_sub_one_eq_mod x.toNat 7
  have hand : (x &&& 0x7F).toNat = 0 := by
    rw [UInt8.toNat_and]
    exact hmod.trans h0
  exact (bne_iff_ne.mp h) (UInt8.toNat_inj.mp hand)

/-- The two ways an encoding can be minimal. -/
theorem isMinimal_snoc_iff {b : Bytes} {x : UInt8}
    (h : isMinimal (b ++ [x]) = true) :
    x.toNat % 128 ≠ 0 ∨ ∃ a y, b = a ++ [y] ∧ 128 ≤ y.toNat := by
  rw [isMinimal_snoc, Bool.or_eq_true] at h
  rcases h with h | h
  · exact Or.inl (mod_128_ne_zero h)
  · rcases List.eq_nil_or_concat b with rfl | ⟨a, y, rfl⟩
    · cases h
    · rw [List.concat_eq_append, List.getLast?_concat] at h
      exact Or.inr ⟨a,
        y, by rw [List.concat_eq_append], uint8_ge_iff.mp (of_decide_eq_true h)⟩

/-- A minimal encoding has no shorter one. -/
theorem le_natAbs_decodeNum {b : Bytes} (h : isMinimal b = true)
    (hlen : 2 ≤ b.length) :
    128 * 256 ^ (b.length - 2) ≤ (decodeNum b).natAbs := by
  rcases List.eq_nil_or_concat b with rfl | ⟨a, x, rfl⟩
  · cases hlen
  rw [List.concat_eq_append] at *
  rw [List.length_append, List.length_singleton] at *
  rw [natAbs_decodeNum_snoc]
  rcases isMinimal_snoc_iff h with hx | ⟨a', y, rfl, hy⟩
  · have hpow : 256 ^ a.length = 256 * 256 ^ (a.length + 1 - 2) := by
      rw [← Nat.pow_succ']
      congr 1
      omega
    have htop : 1 * 256 ^ a.length ≤ x.toNat % 128 * 256 ^ a.length :=
      Nat.mul_le_mul_right _ (Nat.pos_of_ne_zero hx)
    omega
  · have hpow : 128 * 256 ^ a'.length ≤ 256 ^ a'.length * y.toNat := by
      rw [Nat.mul_comm]
      exact Nat.mul_le_mul_left _ hy
    rw [leNat_append, leNat_singleton, List.length_append,
      List.length_singleton]
    have hsub : a'.length + 1 + 1 - 2 = a'.length := by omega
    rw [hsub]
    omega

/-- Minimal bytes do not spell zero. -/
theorem decodeNum_ne_zero {b : Bytes} (h : isMinimal b = true) (hb : b ≠ []) :
    decodeNum b ≠ 0 := by
  rcases List.eq_nil_or_concat b with rfl | ⟨a, x, rfl⟩
  · exact absurd rfl hb
  rw [List.concat_eq_append] at *
  have habs := natAbs_decodeNum_snoc a x
  intro h0
  rw [h0, Int.natAbs_zero] at habs
  rcases isMinimal_snoc_iff h with hx | ⟨a', y, rfl, hy⟩
  · have htop : 1 * 256 ^ a.length ≤ x.toNat % 128 * 256 ^ a.length :=
      Nat.mul_le_mul_right _ (Nat.pos_of_ne_zero hx)
    have hpow : 0 < 256 ^ a.length := Nat.pow_pos (by decide)
    omega
  · have hpow : 0 < 256 ^ a'.length * y.toNat :=
      Nat.mul_pos (Nat.pow_pos (by decide)) (by omega)
    rw [leNat_append, leNat_singleton] at habs
    omega

/-- **A minimal encoding is the encoding of its number.** -/
theorem scriptNum_decodeNum {b : Bytes} (h : isMinimal b = true) :
    scriptNum (decodeNum b) = b := by
  by_cases hb : b = []
  · subst hb
    rfl
  have h0 := decodeNum_ne_zero h hb
  have hpos := List.length_pos_of_ne_nil hb
  refine decodeNum_inj ?_ (decodeNum_scriptNum _) h0
  have hle : (scriptNum (decodeNum b)).length ≤ b.length := by
    have := (length_scriptNum_le _ _).mpr (natAbs_decodeNum_lt b)
    omega
  have hge : b.length ≤ (scriptNum (decodeNum b)).length := by
    by_cases h1 : b.length = 1
    · have hne : scriptNum (decodeNum b) ≠ [] := by
        intro hnil
        have := decodeNum_scriptNum (decodeNum b)
        rw [hnil] at this
        exact h0 this.symm
      have := List.length_pos_of_ne_nil hne
      omega
    · by_contra hlt
      have := (length_scriptNum_le (decodeNum b) (b.length - 2)).mp (by omega)
      have := le_natAbs_decodeNum h (by omega)
      omega
  omega

end Pyrxd.Lib
