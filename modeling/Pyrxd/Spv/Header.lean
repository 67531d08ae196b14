import Pyrxd.Spv.Witness
import Pyrxd.Lib.Sha256

/-!
# Block headers

`spv/pow.py` and `spv/chain.py`: the proof of work of one 80-byte header, and a
chain of them from an anchor. The hash is compared with the target in eight
big-endian chunks, as the covenant does it; as numbers this is one comparison.
-/

namespace Pyrxd.Spv

open Pyrxd.Lib

/-- `raise SpvVerificationError(msg)`. -/
def unverified {α : Type} (msg : String) : Except PyErr α := .error (.other msg)

/-- `if cond: raise SpvVerificationError(msg)`. -/
def rejectIf (cond : Prop) [Decidable cond] (msg : String) :
    Except PyErr Unit :=
  if cond then unverified msg else .ok ()

/-- A rejection passes when its condition fails. -/
theorem rejectIf_ok {cond : Prop} [Decidable cond] {msg : String} {u : Unit} :
    rejectIf cond msg = .ok u ↔ ¬ cond := by
  unfold rejectIf unverified
  split <;> simp_all

/-- Past a rejection the rest decides. -/
theorem rejectIf_bind_ok {β : Type} {cond : Prop} [Decidable cond]
    {msg : String}
    {f : Unit → Except PyErr β} {b : β} : (rejectIf cond msg >>= f) = .ok b ↔
    ¬ cond ∧ f () = .ok b := by
  unfold rejectIf
  by_cases h : cond
  · rw [if_pos h]
    exact ⟨nofun, fun hc => absurd h hc.1⟩
  · rw [if_neg h]
    exact ⟨fun hf => ⟨h, hf⟩, fun hc => hc.2⟩

/-! ## Proof of work -/

/-- The exponent and the mantissa of a wire `nBits`. -/
def exponentOf (nbits : Bytes) : Nat := (nbits.getD 3 0).toNat

def mantissaOf (nbits : Bytes) : Nat := leNat (nbits.take 3)

/-- `Nbits(value)`. -/
def checkNbits (nbits : Bytes) : Except PyErr Unit := do
  refuseIf (nbits.length ≠ 4) ("Nbits must be 4 bytes, got " ++
    toString nbits.length)
  refuseIf (exponentOf nbits > 0x1D)
    ("Nbits exponent " ++ toString (exponentOf nbits) ++
      " > 0x1d (would overflow 256-bit target)")
  refuseIf (mantissaOf nbits &&& 0x00800000 ≠
    0) "Nbits mantissa has sign bit set (negative target)"
  refuseIf (mantissaOf nbits =
    0) "Nbits mantissa is zero (trivially-satisfied target)"

/-- `struct.unpack_from(">I", b)`, of the first four bytes. -/
def chunk (b : Bytes) : Nat := leNat (b.take 4).reverse

/-- The comparison of two big-endian strings, `n` chunks to go. -/
def powCompare : Nat → Bytes → Bytes → Except PyErr Unit
  | 0, _, _ => unverified "header PoW invalid: hash equals target"
  | n + 1, h, t =>
    if chunk h < chunk t then .ok ()
    else if chunk h >
      chunk t then unverified "header PoW invalid: hash >= target"
    else powCompare n (h.drop 4) (t.drop 4)

def nbitsOf (header : Bytes) : Bytes := slice header 72 76

/-- The 32-byte little-endian target. -/
def targetLe (nbits : Bytes) : Bytes :=
  List.replicate (exponentOf nbits - 3) 0 ++ nbits.take 3 ++
    List.replicate (32 - exponentOf nbits) 0

/-- `verify_header_pow`. -/
def verifyHeaderPow (header : Bytes) : Except PyErr Bytes := do
  refuseIf (header.length ≠ 80) ("header must be 80 bytes, got " ++
    toString header.length)
  checkNbits (nbitsOf header)
  refuseIf (exponentOf (nbitsOf header) < 3)
    ("Nbits exponent " ++ toString (exponentOf (nbitsOf header)) ++
      " < 3 is not supported")
  if (targetLe (nbitsOf header)).length ≠ 32 then
    .error (.other "internal invariant violated: target length != 32")
  else
    powCompare 8 (hash256 header).reverse (targetLe (nbitsOf header)).reverse
    return hash256 header

/-- A header whose hash is below the target it names. -/
structure PowOk (header : Bytes) : Prop where
  length : header.length = 80
  exponent : 3 ≤ exponentOf (nbitsOf header) ∧
    exponentOf (nbitsOf header) ≤ 0x1D
  mantissa : 0 < mantissaOf (nbitsOf header) ∧
    mantissaOf (nbitsOf header) < 2 ^ 23
  work : leNat (hash256 header) <
    mantissaOf (nbitsOf header) * 256 ^ (exponentOf (nbitsOf header) - 3)

/-- The first chunk outweighs all that follow. -/
theorem leNat_reverse_chunk {n : Nat} {b : Bytes} (h : b.length = 4 * (n + 1)) :
    leNat b.reverse = leNat (b.drop 4).reverse + 256 ^ (4 * n) * chunk b ∧
      leNat (b.drop 4).reverse < 256 ^ (4 * n) := by
  have hlen : (b.drop 4).reverse.length = 4 * n := by
    rw [List.length_reverse, List.length_drop]
    omega
  have hsplit : b.reverse = (b.drop 4).reverse ++ (b.take 4).reverse := by
    rw [← List.reverse_append, List.take_append_drop]
  refine ⟨?_, ?_⟩
  · rw [hsplit, leNat_append, hlen, chunk]
  · rw [← hlen]
    exact leNat_lt _

/-- **The chunked comparison is the comparison of the numbers.** -/
theorem powCompare_ok {n : Nat} : ∀ {h t : Bytes}, h.length = 4 * n →
    t.length = 4 * n →
    (powCompare n h t = .ok () ↔ leNat h.reverse < leNat t.reverse) := by
  induction n with
  | zero =>
    intro h t hh ht
    have hnil : h = [] := List.length_eq_zero_iff.mp hh
    have htnil : t = [] := List.length_eq_zero_iff.mp ht
    rw [hnil, htnil]
    exact ⟨nofun, fun hlt => absurd hlt (Nat.lt_irrefl _)⟩
  | succ n ih =>
    intro h t hh ht
    obtain ⟨eh, lh⟩ := leNat_reverse_chunk hh
    obtain ⟨et, lt⟩ := leNat_reverse_chunk ht
    rw [powCompare, eh, et]
    by_cases hlt : chunk h < chunk t
    · rw [if_pos hlt]
      have hmul := Nat.mul_le_mul_left (256 ^ (4 * n)) (Nat.succ_le_of_lt hlt)
      rw [Nat.mul_succ] at hmul
      exact ⟨fun _ => by omega, fun _ => rfl⟩
    · rw [if_neg hlt]
      by_cases hgt : chunk h > chunk t
      · rw [if_pos hgt]
        have hmul := Nat.mul_le_mul_left (256 ^ (4 * n)) (Nat.succ_le_of_lt hgt)
        rw [Nat.mul_succ] at hmul
        exact ⟨nofun, fun _ => by omega⟩
      · have heq : chunk h = chunk t := by omega
        rw [if_neg hgt, ih (by rw [List.length_drop]; omega)
          (by rw [List.length_drop]; omega), heq]
        omega

/-- Below `2 ^ 24` the sign bit is the top one. -/
theorem sign_bit {m : Nat} (hm : m < 2 ^ 24) : m &&& 0x00800000 = 0 ↔
    m < 2 ^ 23 := by
  have hbit : m.testBit 23 = decide (m / 2 ^ 23 % 2 = 1) :=
    Nat.testBit_eq_decide_div_mod_eq
  have hand : ∀ i, (m &&& 2 ^ 23).testBit i =
      (m.testBit i && decide (23 = i)) := by
    intro i
    rw [Nat.testBit_and, Nat.testBit_two_pow]
  constructor
  · intro h
    have hzero : m.testBit 23 = false := by
      have h23 := hand 23
      rw [show m &&& 2 ^ 23 = 0 from h, Nat.zero_testBit, decide_eq_true rfl,
        Bool.and_true] at h23
      exact h23.symm
    rw [hbit, decide_eq_false_iff_not] at hzero
    omega
  · intro h
    apply Nat.eq_of_testBit_eq
    intro i
    show (m &&& 2 ^ 23).testBit i = _
    rw [hand, Nat.zero_testBit]
    by_cases hi : 23 = i
    · rw [← hi, hbit, Nat.div_eq_of_lt h]
      rfl
    · rw [decide_eq_false hi, Bool.and_false]

/-- The expanded target as a number. -/
theorem leNat_targetLe {nbits : Bytes} (hlen : nbits.length = 4)
    (hexp : 3 ≤ exponentOf nbits ∧ exponentOf nbits ≤ 0x1D) :
    (targetLe nbits).length = 32 ∧ leNat (targetLe nbits) = mantissaOf nbits *
      256 ^ (exponentOf nbits - 3) := by
  have h3 : (nbits.take 3).length = 3 := by
    rw [List.length_take]
    omega
  refine ⟨?_, ?_⟩
  · rw [targetLe, List.length_append, List.length_append, List.length_replicate,
      List.length_replicate, h3]
    omega
  · rw [targetLe, leNat_append, leNat_append, leNat_zeros, leNat_zeros,
      List.length_replicate, Nat.mul_zero, Nat.add_zero, Nat.zero_add,
      Nat.mul_comm, mantissaOf]

/-- The `nBits` of the `Nbits` type. -/
theorem checkNbits_ok {nbits : Bytes} (hlen : nbits.length = 4) :
    checkNbits nbits = .ok () ↔ exponentOf nbits ≤ 0x1D ∧ 0 < mantissaOf nbits ∧
    mantissaOf nbits < 2 ^ 23 := by
  have hmant : mantissaOf nbits < 2 ^ 24 := by
    have hl := leNat_lt (nbits.take 3)
    rw [List.length_take, hlen] at hl
    exact hl
  unfold checkNbits
  rw [refuseIf_bind_ok, refuseIf_bind_ok, refuseIf_bind_ok, refuseIf_ok,
    not_not, not_not, sign_bit hmant]
  constructor
  · rintro ⟨-, hexp, hsign, hzero⟩
    exact ⟨by omega, Nat.pos_of_ne_zero hzero, hsign⟩
  · rintro ⟨hexp, hpos, hsign⟩
    exact ⟨hlen, by omega, hsign, by omega⟩

/-- An `nBits` with a target: the `Nbits` type takes it, and its exponent is at
least three. -/
def AdmittedNbits (nbits : Bytes) : Prop := checkNbits nbits = .ok () ∧
  3 ≤ exponentOf nbits

/-- The target as a number. -/
def targetOf (nbits : Bytes) : Nat :=
  mantissaOf nbits * 256 ^ (exponentOf nbits - 3)

/-- Admitted bits have an exponent in range. -/
theorem AdmittedNbits.exponent_le {nbits : Bytes} (h : AdmittedNbits nbits) :
    nbits.length = 4 ∧ 3 ≤ exponentOf nbits ∧ exponentOf nbits ≤ 0x1D := by
  obtain ⟨hcheck, hlow⟩ := h
  have hlen : nbits.length = 4 := by
    unfold checkNbits at hcheck
    exact not_not.mp (refuseIf_bind_ok.mp hcheck).1
  exact ⟨hlen, hlow, ((checkNbits_ok hlen).mp hcheck).1⟩

/-- The chunks of a hash against those of the target: the order of the
numbers. -/
theorem powCompare_target {nbits hash : Bytes} (hn : AdmittedNbits nbits)
    (hhash : hash.length = 32) :
    powCompare 8 hash.reverse (targetLe nbits).reverse = .ok () ↔
    leNat hash < targetOf nbits := by
  obtain ⟨hlen, hexp⟩ := hn.exponent_le
  obtain ⟨htlen, htarget⟩ := leNat_targetLe hlen hexp
  have h := @powCompare_ok 8 hash.reverse (targetLe nbits).reverse
    (by rw [List.length_reverse, hhash])
    (by rw [List.length_reverse, htlen])
  rw [List.reverse_reverse, List.reverse_reverse, htarget] at h
  exact h

/-- What `verify_header_pow` accepts, and what it returns. -/
theorem verifyHeaderPow_iff {header h : Bytes} :
    verifyHeaderPow header = .ok h ↔
    h = hash256 header ∧ header.length = 80 ∧ AdmittedNbits (nbitsOf header) ∧
      leNat (hash256 header) < targetOf (nbitsOf header) := by
  have hhash : (hash256 header).length = 32 := by rw [hash256, length_sha256]
  unfold verifyHeaderPow
  rw [refuseIf_bind_ok, bind_ok, not_not]
  constructor
  · rintro ⟨hlen, ⟨⟩, hcheck, h3⟩
    obtain ⟨h3, hv⟩ := refuseIf_bind_ok.mp h3
    have hn : AdmittedNbits (nbitsOf header) := ⟨hcheck, by omega⟩
    have htlen := (leNat_targetLe hn.exponent_le.1 hn.exponent_le.2).1
    rw [if_neg (not_not.mpr htlen)] at hv
    obtain ⟨⟨⟩, hcompare, hv⟩ := bind_ok.mp hv
    cases hv
    exact ⟨rfl, hlen, hn, (powCompare_target hn hhash).mp hcompare⟩
  · rintro ⟨rfl, hlen, hn, hlt⟩
    have htlen := (leNat_targetLe hn.exponent_le.1 hn.exponent_le.2).1
    refine ⟨hlen, (), hn.1, refuseIf_bind_ok.mpr ⟨Nat.not_lt.mpr hn.2, ?_⟩⟩
    rw [if_neg (not_not.mpr htlen)]
    exact bind_ok.mpr ⟨(), (powCompare_target hn hhash).mpr hlt, rfl⟩

/-- A verified header meets its own target. -/
theorem verifyHeaderPow_ok {header h : Bytes}
    (hv : verifyHeaderPow header = .ok h) :
    h = hash256 header ∧ PowOk header := by
  obtain ⟨hhash, hlen, hn, hlt⟩ := verifyHeaderPow_iff.mp hv
  obtain ⟨hlen4, hexp⟩ := hn.exponent_le
  exact ⟨hhash, hlen, hexp, ((checkNbits_ok hlen4).mp hn.1).2, hlt⟩

/-- **The proof of work is the comparison of two numbers.** A header passes just
if its `nBits` is admitted and its hash is below the target; and for every hash
and every admitted `nBits` the chunked comparison is the order of the
numbers. -/
theorem header_pow_iff (header : Bytes) (h80 : header.length = 80) :
    ((∃ h, verifyHeaderPow header = .ok h) ↔
      AdmittedNbits (nbitsOf header) ∧
        leNat (hash256 header) < targetOf (nbitsOf header)) ∧
    ∀ nbits hash : Bytes, AdmittedNbits nbits → hash.length = 32 →
      (powCompare 8 hash.reverse (targetLe nbits).reverse = .ok () ↔
        leNat hash < targetOf nbits) := by
  refine ⟨?_, fun nbits hash hn hhash => powCompare_target hn hhash⟩
  constructor
  · rintro ⟨h, hv⟩
    exact (verifyHeaderPow_iff.mp hv).2.2
  · rintro ⟨hn, hlt⟩
    exact ⟨_, verifyHeaderPow_iff.mpr ⟨rfl, h80, hn, hlt⟩⟩

/-- The first header of the Bitcoin chain. -/
def genesisHeader : Bytes :=
  [0x01, 0x00, 0x00, 0x00] ++ List.replicate 32 0 ++
  [0x3b, 0xa3, 0xed, 0xfd, 0x7a, 0x7b, 0x12, 0xb2, 0x7a, 0xc7, 0x2c, 0x3e, 0x67,
    0x76, 0x8f, 0x61,
   0x7f, 0xc8, 0x1b, 0xc3, 0x88, 0x8a, 0x51, 0x32, 0x3a, 0x9f, 0xb8, 0xaa, 0x4b,
     0x1e, 0x5e, 0x4a] ++
  [0x29, 0xab, 0x5f, 0x49, 0xff, 0xff, 0x00, 0x1d, 0x1d, 0xac, 0x2b, 0x7c]

/-- The statement at the genesis header. -/
theorem header_pow_iff_genesis :
    ∃ h, verifyHeaderPow genesisHeader = .ok h := by
  refine (header_pow_iff genesisHeader (by decide)).1.mpr ⟨⟨?_, ?_⟩, ?_⟩
  · decide
  · decide
  · decide +kernel

/-! ## Chains -/

def prevHashOf (header : Bytes) : Bytes := slice header 4 36

/-- The `nBits` a chain may use. -/
def allowedNbits (expected next : Option Bytes) : Option (List Bytes) :=
  expected.map fun nb => [nb, next.getD nb]

/-- `sorted(b.hex() for b in allowed_nbits)`, of a set of at most two. -/
def allowedText : List Bytes → String
  | [a, b] =>
    if a = b then "['" ++ hex a ++ "']"
    else if hex a < hex b then "['" ++ hex a ++ "', '" ++ hex b ++ "']"
    else "['" ++ hex b ++ "', '" ++ hex a ++ "']"
  | _ => "[]"

/-- The chain link, or the anchor in front of the first header. -/
def checkLink (anchor : Option Bytes) (i : Nat) (prev : Option Bytes)
    (header : Bytes) : Except PyErr Unit :=
  match prev with
  | none =>
    rejectIf (∃ a ∈ anchor, prevHashOf header ≠
      a) "headers[0].prevHash does not match chain_anchor"
  | some prev =>
    rejectIf (prevHashOf header ≠ prev)
      ("chain link broken at header[" ++ toString i ++
        "]: prevHash does not match hash of header[" ++
        toString (i - 1) ++ "]")

/-- The loop of `verify_chain`, from header `i` on; `prev` is the hash of the
one before. -/
def verifyChainFrom (anchor : Option Bytes) (allowed : Option (List Bytes)) :
    Nat → Option Bytes → List Bytes → Except PyErr (List Bytes)
  | _, _, [] => .ok []
  | i, prev, header :: headers => do
    refuseIf (header.length ≠ 80)
      ("header[" ++ toString i ++ "] must be 80 bytes, got " ++
        toString header.length)
    rejectIf (∃ l ∈ allowed, nbitsOf header ∉ l)
      ("header[" ++ toString i ++ "] nBits " ++ hex (nbitsOf header) ++
        " does not match the committed expected_nbits " ++
          allowedText (allowed.getD []) ++
        " (forged-difficulty / wrong-retarget-window defense)")
    checkLink anchor i prev header
    let headerHash ← verifyHeaderPow header
    let hashes ← verifyChainFrom anchor allowed (i + 1)
      (some headerHash) headers
    return headerHash :: hashes

/-- `verify_chain`. -/
def verifyChain (headers : List Bytes) (anchor expected next : Option Bytes) :
    Except PyErr (List Bytes) := do
  refuseIf (headers = []) "headers list is empty"
  refuseIf (∃ a ∈ anchor, a.length ≠ 32) "chain_anchor must be 32 bytes"
  refuseIf (∃ n ∈ expected, n.length ≠
    4) "expected_nbits must be 4 bytes (wire nBits)"
  refuseIf (∃ n ∈ next, n.length ≠
    4) "expected_nbits_next must be 4 bytes (wire nBits)"
  verifyChainFrom anchor (allowedNbits expected next) 0 none headers

/-- Headers that follow one another: each names the hash of the one before. -/
def Linked (prev : Bytes) : List Bytes → Prop
  | [] => True
  | header :: headers =>
    prevHashOf header = prev ∧ Linked (hash256 header) headers

/-- A chain from an anchor, with the work and the pinned `nBits` of every
header. -/
structure ChainOk (headers : List Bytes) (anchor : Bytes)
    (expected next : Option Bytes) : Prop where
  nonempty : headers ≠ []
  linked : Linked anchor headers
  work : ∀ header ∈ headers, PowOk header
  pinned : ∀ header ∈ headers, ∀ nb ∈ expected, nbitsOf header = nb ∨
    nbitsOf header ∈ next

section Chain

variable {anchor : Option Bytes} {allowed : Option (List Bytes)}

/-- One header of the loop, whichever its place. -/
theorem verifyChainFrom_ok {headers : List Bytes} : ∀ {i : Nat}
      {prev : Option Bytes} {hashes : List Bytes},
      verifyChainFrom anchor allowed i prev headers = .ok hashes →
      (∀ a, (prev.or anchor) = some a → Linked a headers) ∧
        ∀ header ∈ headers, PowOk header ∧
          ∀ l ∈ allowed, nbitsOf header ∈ l := by
  induction headers with
  | nil =>
    intro i prev hashes _
    exact ⟨fun _ _ => trivial, nofun⟩
  | cons header headers ih =>
    intro i prev hashes h
    rw [verifyChainFrom] at h
    obtain ⟨-, h⟩ := refuseIf_bind_ok.mp h
    obtain ⟨hnbits, h⟩ := rejectIf_bind_ok.mp h
    obtain ⟨_, hlink, h⟩ := bind_ok.mp h
    obtain ⟨headerHash, hpow, h⟩ := bind_ok.mp h
    obtain ⟨rest, hrest, -⟩ := bind_ok.mp h
    obtain ⟨rfl, hok⟩ := verifyHeaderPow_ok hpow
    obtain ⟨hlinked, hall⟩ := ih hrest
    have hin : ∀ l ∈ allowed, nbitsOf header ∈ l := by
      intro l hl
      exact not_not.mp fun hc => hnbits ⟨l, hl, hc⟩
    refine ⟨?_, ?_⟩
    · intro a ha
      refine ⟨?_, hlinked _ rfl⟩
      cases prev with
      | none =>
        rw [Option.none_or] at ha
        exact not_not.mp fun hc => rejectIf_ok.mp hlink ⟨a, ha, hc⟩
      | some p =>
        cases ha
        exact not_not.mp (rejectIf_ok.mp hlink)
    · intro x hx
      rcases List.mem_cons.mp hx with rfl | hx
      · exact ⟨hok, hin⟩
      · exact hall x hx

end Chain

/-- **What `verify_chain` accepts.** -/
theorem verifyChain_ok {headers hashes : List Bytes} {anchor : Bytes}
    {expected next : Option Bytes}
    (h : verifyChain headers (some anchor) expected next = .ok hashes) :
    ChainOk headers anchor expected next := by
  unfold verifyChain at h
  obtain ⟨hne, h⟩ := refuseIf_bind_ok.mp h
  obtain ⟨-, h⟩ := refuseIf_bind_ok.mp h
  obtain ⟨-, h⟩ := refuseIf_bind_ok.mp h
  obtain ⟨-, h⟩ := refuseIf_bind_ok.mp h
  obtain ⟨hlinked, hall⟩ := verifyChainFrom_ok h
  refine ⟨hne, hlinked anchor rfl, fun header hm => (hall header hm).1, ?_⟩
  intro header hm nb hnb
  have hmem := (hall header hm).2 [nb,
    next.getD nb] (Option.mem_map.mpr ⟨nb, hnb, rfl⟩)
  cases next with
  | none =>
    have hmem' : nbitsOf header ∈ [nb, nb] := hmem
    simp only [List.mem_cons, List.not_mem_nil, or_false, or_self] at hmem'
    exact .inl hmem'
  | some n =>
    have hmem' : nbitsOf header ∈ [nb, n] := hmem
    simp only [List.mem_cons, List.not_mem_nil, or_false] at hmem'
    rcases hmem' with hmem' | hmem'
    · exact .inl hmem'
    · exact .inr (Option.mem_some_iff.mpr hmem'.symm)

end Pyrxd.Spv
