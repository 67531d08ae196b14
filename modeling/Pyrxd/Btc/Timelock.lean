import Pyrxd.Errors
import Pyrxd.Lib.Double

/-!
# Unit-tagged relative timelocks

`Timelock` of `btc_wallet/taproot.py`: a BIP68/112 relative lock, in blocks or
in seconds, refused at construction when it does not fit the sixteen-bit field.

Seconds-per-block figures are Python floats in the source. A finite float *is* a
rational; `/` and `*` round to the nearest double (`Lib.toDouble`), while `//`
and the `math.floor`, `math.ceil` and `int` of a float are exact. NaN and
infinities are outside the model, and so is an operation that overflows to one.
-/

namespace Pyrxd.Btc

open Pyrxd.Lib

inductive TimeUnit where
  | blocks
  | seconds
deriving DecidableEq, Repr

/-- `TimeUnit.value`. -/
def TimeUnit.value : TimeUnit → String
  | .blocks => "blocks"
  | .seconds => "seconds"

def sequenceLocktimeTypeFlag : Nat := 1 <<< 22
def sequenceLocktimeMask : Nat := 0x0000FFFF
def secondsGranularity : Nat := 512

/-- The count that has to fit BIP68's sixteen bits: blocks, or 512-second
units. -/
def bip68Units (value : Nat) : TimeUnit → Nat
  | .blocks => value
  | .seconds => value / secondsGranularity

/-- A relative timelock that fits its encoding. -/
structure Timelock where
  value : Nat
  unit : TimeUnit
  fits : bip68Units value unit ≤ sequenceLocktimeMask
deriving DecidableEq, Repr

namespace Timelock

/-- `Timelock(value, unit)`. -/
def new (value : Int) (unit : TimeUnit) : Except PyErr Timelock :=
  if value < 0 then invalid "Timelock.value must be >= 0"
  else if h : bip68Units value.toNat unit ≤
    sequenceLocktimeMask then .ok ⟨value.toNat, unit, h⟩
  else
    match unit with
    | .blocks => invalid "Timelock blocks must fit in 16 bits (<= 65535)"
    | .seconds =>
      invalid "Timelock seconds too large to encode in BIP68 nSequence"

/-- Encode as a BIP68 nSequence value. -/
def toNsequence (t : Timelock) : Nat :=
  match t.unit with
  | .blocks => t.value &&& sequenceLocktimeMask
  | .seconds =>
    sequenceLocktimeTypeFlag |||
      ((t.value / secondsGranularity) &&& sequenceLocktimeMask)

/-- The equivalent lock in `unit`, by floor conversion at `blockIntervalS`
seconds per block. -/
def normalizeTo (t : Timelock) (unit : TimeUnit) (blockIntervalS : ℚ) :
    Except PyErr Timelock :=
  if blockIntervalS ≤ 0 then invalid "block_interval_s must be > 0"
  else if unit = t.unit then .ok t
  else
    match t.unit with
    | .blocks => new ⌊mulDouble t.value blockIntervalS⌋ .seconds
    | .seconds => new ⌊(t.value : ℚ) / blockIntervalS⌋ .blocks

/-! ## What the constructors and conversions give -/

/-- A lock is built from any number that is not negative. -/
theorem new_ok {v : Int} {u : TimeUnit} {t : Timelock} :
    new v u = .ok t ↔ 0 ≤ v ∧ t.value = v.toNat ∧ t.unit = u := by
  unfold new invalid
  by_cases hv : v < 0
  · rw [if_pos hv]
    simp only [reduceCtorEq, false_iff, not_and]
    omega
  · rw [if_neg hv]
    obtain ⟨tv, tu, tf⟩ := t
    split
    · constructor
      · intro h
        injection h with h
        injection h with h1 h2
        exact ⟨not_lt.mp hv, h1.symm, h2.symm⟩
      · rintro ⟨-, h1, h2⟩
        simp only at h1 h2
        subst h1 h2
        rfl
    · next hf =>
      constructor
      · intro h
        cases u <;> simp at h
      · rintro ⟨-, h1, h2⟩
        simp only at h1 h2
        subst h1 h2
        exact absurd tf hf

/-- A lock built back from its own fields. -/
@[simp] theorem new_self (t : Timelock) : new t.value t.unit = .ok t :=
  new_ok.mpr ⟨by omega, by simp, rfl⟩

/-- Normalising to its own unit leaves a lock alone. -/
theorem normalizeTo_self {t : Timelock} {i : ℚ} (hi : 0 < i) :
    t.normalizeTo t.unit i = .ok t := by
  unfold normalizeTo
  rw [if_neg (not_le.mpr hi), if_pos rfl]

/-- Normalising a block lock to blocks is the identity. -/
theorem normalizeTo_blocks {t : Timelock} {i : ℚ} (hi : 0 < i)
    (hu : t.unit = .blocks) :
    t.normalizeTo .blocks i = .ok t := by
  rw [← hu]
  exact normalizeTo_self hi

/-- Normalising to blocks, when it succeeds: the count of a block lock, the
floored quotient of a seconds lock. -/
theorem normalizeTo_blocks_value {t n : Timelock} {i : ℚ}
    (h : t.normalizeTo .blocks i = .ok n) :
    0 < i ∧ n.unit = .blocks ∧
      (n.value : ℤ) = match t.unit with
        | .blocks => (t.value : ℤ)
        | .seconds => ⌊(t.value : ℚ) / i⌋ := by
  unfold normalizeTo invalid at h
  split at h
  · simp at h
  · next hi =>
    have hi : 0 < i := not_le.mp hi
    split at h
    · next hu =>
      injection h with h
      subst h
      rw [← hu]
      exact ⟨hi, rfl, rfl⟩
    · next hu =>
      cases htu : t.unit with
      | blocks => exact absurd htu.symm hu
      | seconds =>
        simp only [htu] at h
        obtain ⟨h0, hv, hun⟩ := new_ok.mp h
        refine ⟨hi, hun, ?_⟩
        simp only
        omega

end Timelock

end Pyrxd.Btc
