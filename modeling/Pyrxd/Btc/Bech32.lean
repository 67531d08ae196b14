import Pyrxd.Lib.Traverse
import Pyrxd.Lib.XorRegister

/-!
# Bech32 addresses

The bech32 and bech32m encoder of `btc_wallet/keys.py`. The checksum is that of
a linear register (`polymodRegister`), so it verifies whatever the prefix and
the data are; the regrouping loop keeps 30 bits of its accumulator, and the bits
it has yet to write are among them (`Regrouped`). So an address is read back
(`bech32Encode_reads`) and belongs to one program only.
-/

namespace Pyrxd.Btc

open Pyrxd.Lib

/-- `_BECH32_CHARSET`. -/
def bech32Charset : List Char := "qpzry9x8gf2tvdw0s3jn54khce6mua7l".toList

/-- `_BECH32_GENERATOR`. -/
def bech32Generator : List Nat :=
  [0x3B6A57B2, 0x26508E6D, 0x1EA119FA, 0x3D4233DD, 0x2A1462B3]

/-- `_BECH32_CONST` and `_BECH32M_CONST`. -/
def bech32Const : Nat := 1
def bech32mConst : Nat := 0x2BC830A3

/-- What the inner loop of `_bech32_polymod` adds for the five bits that are
shifted out. -/
def addGenerators (c0 c : Nat) : Nat :=
  bech32Generator.zipIdx.foldl (fun c gen => if (c0 >>> gen.2) &&& 1 ≠
    0 then c ^^^ gen.1 else c) c

/-- `_bech32_polymod`. -/
def bech32Polymod (values : List Nat) : Nat :=
  values.foldl (fun c v =>
    addGenerators (c >>> 25) (((c &&& 0x1FFFFFF) <<< 5) ^^^ v)) 1

/-- `_bech32_hrp_expand`. -/
def bech32HrpExpand (hrp : String) : List Nat :=
  hrp.toList.map (fun x => x.toNat >>> 5) ++ [0] ++ hrp.toList.map fun x =>
    x.toNat &&& 31

/-- `_bech32_create_checksum`. -/
def bech32CreateChecksum (hrp : String) (data : List Nat)
    (spec : Nat) : List Nat :=
  let values := bech32HrpExpand hrp ++ data
  let polymod := bech32Polymod (values ++ [0, 0, 0, 0, 0, 0]) ^^^ spec
  (List.range 6).map fun i => (polymod >>> (5 * (5 - i))) &&& 31

/-- The inner loop of `_convertbits`: the groups that are complete, and how many
bits are left. -/
def completeGroups (tobits acc bits : Nat) : List Nat × Nat :=
  if 0 < tobits ∧ tobits ≤ bits then
    let rest := completeGroups tobits acc (bits - tobits)
    (((acc >>> (bits - tobits)) &&& ((1 <<< tobits) - 1)) :: rest.1, rest.2)
  else ([], bits)
termination_by bits

/-- The accumulator, the bits of it still to be written, and what was
written. -/
structure ConvertState where
  acc : Nat := 0
  bits : Nat := 0
  ret : List Nat := []

/-- The outer loop of `_convertbits`. -/
def ConvertState.next (frombits tobits : Nat) (s : ConvertState)
    (value : UInt8) : ConvertState :=
  let acc := ((s.acc <<< frombits) ||| value.toNat) &&& 0x3FFFFFFF
  let out := completeGroups tobits acc (s.bits + frombits)
  ⟨acc, out.2, s.ret ++ out.1⟩

/-- `_convertbits`. -/
def convertbits (data : Bytes) (frombits tobits : Nat) : List Nat :=
  let s := data.foldl (ConvertState.next frombits tobits) {}
  if s.bits ≠ 0 then s.ret ++
    [(s.acc <<< (tobits - s.bits)) &&& ((1 <<< tobits) - 1)] else s.ret

/-- `_BECH32_CHARSET[d]`. -/
def bech32Char (d : Nat) : Except PyErr Char :=
  match bech32Charset[d]? with
  | some c => .ok c
  | none => .error (.other "string index out of range")

/-- `_bech32_encode`. -/
def bech32Encode (hrp : String) (witnessVersion : Nat)
    (witnessProgram : Bytes) : Except PyErr String := do
  let spec := if 0 < witnessVersion then bech32mConst else bech32Const
  let data := convertbits witnessProgram 8 5
  let combined := witnessVersion :: data
  let checksum := bech32CreateChecksum hrp combined spec
  let chars ← (combined ++ checksum).mapM bech32Char
  return hrp ++ "1" ++ String.ofList chars

/-! ## The checksum -/

/-- The code's bit test is `testBit`. -/
theorem testBit_iff (n i : Nat) : ((n >>> i) &&& 1 ≠ 0) ↔
    n.testBit i = true := by
  rw [Nat.testBit, Nat.and_comm, bne_iff_ne]

/-- Adding generators does not look at what they are added to. -/
theorem addGenerators_xor (c0 a b : Nat) :
    addGenerators c0 (a ^^^ b) = addGenerators c0 a ^^^ b := by
  have hfold : ∀ (gens : List (Nat × Nat)) (a : Nat),
      gens.foldl (fun c gen => if (c0 >>> gen.2) &&& 1 ≠ 0 then c ^^^ gen.1
        else c) (a ^^^ b) =
        gens.foldl (fun c gen => if (c0 >>> gen.2) &&& 1 ≠ 0 then c ^^^ gen.1
          else c) a ^^^ b := by
    intro gens
    induction gens with
    | nil => intro a; rfl
    | cons gen gens ih =>
      intro a
      rw [List.foldl_cons, List.foldl_cons]
      by_cases hbit : (c0 >>> gen.2) &&& 1 ≠ 0
      · rw [if_pos hbit, if_pos hbit, Nat.xor_assoc, Nat.xor_comm b,
          ← Nat.xor_assoc, ih]
      · rw [if_neg hbit, if_neg hbit, ih]
  exact hfold _ a

/-- The generators of a sum are the sums of the generators. -/
theorem addGenerators_linear (c0 d0 a b : Nat) :
    addGenerators (c0 ^^^ d0)
      (a ^^^ b) = addGenerators c0 a ^^^ addGenerators d0 b := by
  have hfold : ∀ (gens : List (Nat × Nat)) (a b : Nat),
      gens.foldl (fun c gen => if ((c0 ^^^ d0) >>> gen.2) &&& 1 ≠
        0 then c ^^^ gen.1 else c) (a ^^^ b) =
        gens.foldl (fun c gen => if (c0 >>> gen.2) &&& 1 ≠
          0 then c ^^^ gen.1 else c) a ^^^
          gens.foldl (fun c gen => if (d0 >>> gen.2) &&& 1 ≠ 0 then c ^^^ gen.1
            else c) b := by
    intro gens
    induction gens with
    | nil => intro a b; rfl
    | cons gen gens ih =>
      intro a b
      rw [List.foldl_cons, List.foldl_cons, List.foldl_cons, ← ih]
      congr 1
      simp only [testBit_iff, Nat.testBit_xor]
      cases c0.testBit gen.2 <;> cases d0.testBit gen.2
      · rfl
      · show a ^^^ b ^^^ gen.1 = a ^^^ (b ^^^ gen.1)
        rw [Nat.xor_assoc]
      · show a ^^^ b ^^^ gen.1 = a ^^^ gen.1 ^^^ b
        rw [Nat.xor_assoc, Nat.xor_assoc, Nat.xor_comm b]
      · show a ^^^ b = a ^^^ gen.1 ^^^ (b ^^^ gen.1)
        rw [Nat.xor_assoc, Nat.xor_comm b, ← Nat.xor_assoc gen.1,
          Nat.xor_self, Nat.zero_xor]
  exact hfold _ a b

/-- Folding the generators in keeps a 30-bit register. -/
theorem addGenerators_lt {c : Nat} (c0 : Nat) (hc : c < 2 ^ 30) :
    addGenerators c0 c < 2 ^ 30 := by
  have hfold : ∀ (gens : List (Nat × Nat)), (∀ gen ∈ gens, gen.1 < 2 ^ 30) →
      ∀ c < 2 ^ 30,
      gens.foldl (fun c gen => if (c0 >>> gen.2) &&& 1 ≠ 0 then c ^^^ gen.1
        else c) c < 2 ^ 30 := by
    intro gens
    induction gens with
    | nil => intro _ c hc; exact hc
    | cons gen gens ih =>
      intro hgens c hc
      obtain ⟨hgen, hgens⟩ := List.forall_mem_cons.mp hgens
      rw [List.foldl_cons]
      refine ih hgens _ ?_
      split
      · exact Nat.xor_lt_two_pow hc hgen
      · exact hc
  exact hfold _ (by decide) c hc

/-- `_bech32_polymod` is a linear register of six symbols of five bits. -/
def polymodRegister : XorRegister 5 6 where
  step c := addGenerators (c >>> 25) ((c &&& 0x1FFFFFF) <<< 5)
  linear a b := by
    rw [Nat.shiftRight_xor_distrib, Nat.and_xor_distrib_right,
      Nat.shiftLeft_xor_distrib, addGenerators_linear]
  shifts a ha := by
    rw [show (0x1FFFFFF : Nat) = 2 ^ 25 - 1 from rfl,
      Nat.and_two_pow_sub_one_of_lt_two_pow ha, Nat.shiftRight_eq_div_pow,
      Nat.div_eq_of_lt ha]
    rfl
  bounded a := by
    refine addGenerators_lt _ ?_
    have hlow : a &&& 0x1FFFFFF < 2 ^ 25 := by
      rw [show (0x1FFFFFF : Nat) = 2 ^ 25 - 1 from rfl,
        Nat.and_two_pow_sub_one_eq_mod]
      exact Nat.mod_lt _ (by decide)
    rw [Nat.shiftLeft_eq]
    omega

/-- The checksum loop is a run of the XOR register. -/
theorem bech32Polymod_eq (values : List Nat) :
    bech32Polymod values = polymodRegister.run 1 values := by
  rw [bech32Polymod, XorRegister.run]
  congr 1
  funext c v
  exact addGenerators_xor _ _ _

/-- The checksum is the register's state, cut into six symbols. -/
theorem bech32CreateChecksum_eq (hrp : String) (data : List Nat) (spec : Nat) :
    bech32CreateChecksum hrp data spec = XorRegister.symbols 5 6
      (polymodRegister.run 1 (bech32HrpExpand hrp ++ data ++
        List.replicate 6 0) ^^^ spec) := by
  rw [bech32CreateChecksum, XorRegister.symbols, ← bech32Polymod_eq]
  rfl

/-- The checksum verifies. -/
theorem bech32Polymod_checksum (hrp : String) (data : List Nat) {spec : Nat}
    (hspec : spec < 2 ^ 30) :
    bech32Polymod (bech32HrpExpand hrp ++
      (data ++ bech32CreateChecksum hrp data spec)) = spec := by
  rw [bech32Polymod_eq, bech32CreateChecksum_eq, ← List.append_assoc]
  exact polymodRegister.run_checksum (by decide) 1 _ hspec

/-! ## The regrouping -/

/-- The low bits survive the mask. -/
theorem natBits_mask (k n : Nat) :
    natBits k (n &&& ((1 <<< k) - 1)) = natBits k n := by
  rw [Nat.one_shiftLeft, Nat.and_two_pow_sub_one_eq_mod,
    natBits_mod (Nat.le_refl k)]

/-- A masked number fits its mask. -/
theorem mask_lt (k n : Nat) : n &&& ((1 <<< k) - 1) < 2 ^ k := by
  rw [Nat.one_shiftLeft, Nat.and_two_pow_sub_one_eq_mod]
  exact Nat.mod_lt _ (Nat.two_pow_pos k)

/-- The inner loop writes the pending bits, all but fewer than a group of
them. -/
theorem completeGroups_bits {tobits : Nat} (hto : 0 < tobits) (acc bits : Nat) :
    (completeGroups tobits acc bits).2 < tobits ∧
      spell tobits (completeGroups tobits acc bits).1 ++
        natBits (completeGroups tobits acc bits).2 acc = natBits bits acc ∧
        ∀ d ∈ (completeGroups tobits acc bits).1, d < 2 ^ tobits := by
  fun_induction completeGroups tobits acc bits with
  | case1 bits h rest ih =>
    obtain ⟨hlt, hbits, hall⟩ := ih
    refine ⟨hlt, ?_, List.forall_mem_cons.mpr ⟨mask_lt _ _, hall⟩⟩
    rw [spell_cons, List.append_assoc, hbits, natBits_mask, ← natBits_add,
      Nat.add_sub_cancel' h.2]
  | case2 bits h =>
    exact ⟨by omega, rfl, List.forall_mem_nil _⟩

/-- The numbers of a byte string. -/
def byteNats (data : Bytes) : List Nat := data.map UInt8.toNat

/-- Bytes read as numbers stay below 256. -/
theorem byteNats_lt (data : Bytes) : ∀ n ∈ byteNats data, n < 2 ^ 8 := by
  intro n hn
  obtain ⟨b, -, rfl⟩ := List.mem_map.mp hn
  exact b.toNat_lt

/-- What the loop keeps: the groups written and the pending bits are the bits of
the bytes read. -/
structure Regrouped (tobits : Nat) (s : ConvertState)
    (data : Bytes) : Prop where
  pending : s.bits < tobits
  written : spell tobits s.ret ++ natBits s.bits s.acc = spell 8 (byteNats data)
  small : ∀ d ∈ s.ret, d < 2 ^ tobits

/-- The pending bits and the next byte are among the 30 bits that are kept. -/
theorem Regrouped.next {tobits : Nat} (hto : 0 < tobits)
    (hfits : tobits + 8 ≤ 30) {s : ConvertState} {data : Bytes}
    (h : Regrouped tobits s data) (value : UInt8) :
    Regrouped tobits (s.next 8 tobits value) (data ++ [value]) := by
  have hpending := h.pending
  have hacc : natBits (s.bits + 8)
      (((s.acc <<< 8) ||| value.toNat) &&& 0x3FFFFFFF) =
      natBits s.bits s.acc ++ natBits 8 value.toNat := by
    rw [show (0x3FFFFFFF : Nat) = 2 ^ 30 - 1 from rfl,
      Nat.and_two_pow_sub_one_eq_mod,
      natBits_mod (by omega), ← Nat.shiftLeft_add_eq_or_of_lt value.toNat_lt,
        Nat.shiftLeft_eq, Nat.mul_comm, natBits_append _ _ value.toNat_lt]
  generalize hval : ((s.acc <<< 8) ||| value.toNat) &&& 0x3FFFFFFF = acc at hacc
  obtain ⟨hlt, hbits, hall⟩ := completeGroups_bits hto acc (s.bits + 8)
  have hnext : s.next 8 tobits value = ⟨acc,
      (completeGroups tobits acc (s.bits + 8)).2,
      s.ret ++ (completeGroups tobits acc (s.bits + 8)).1⟩ := by
    rw [← hval]
    rfl
  rw [hnext]
  refine ⟨hlt, ?_, ?_⟩
  · rw [spell_append, List.append_assoc, hbits, hacc, ← List.append_assoc,
      h.written, byteNats, byteNats, List.map_append, spell_append,
      List.map_singleton, spell_cons, spell_nil, List.append_nil]
  · intro d hd
    rcases List.mem_append.mp hd with hd | hd
    · exact h.small d hd
    · exact hall d hd

/-- The regrouping invariant over a whole run of bytes. -/
theorem regrouped_run {tobits : Nat} (hto : 0 < tobits)
    (hfits : tobits + 8 ≤ 30) {s : ConvertState} {done : Bytes}
    (h : Regrouped tobits s done) (data : Bytes) :
    Regrouped tobits (data.foldl (ConvertState.next 8 tobits) s)
      (done ++ data) := by
  induction data generalizing s done with
  | nil => rwa [List.append_nil]
  | cons value data ih =>
    rw [List.foldl_cons, List.append_cons]
    exact ih (h.next hto hfits value)

/-- `data` is a regrouping of the bytes: their bits, then fewer zeros than a
group has. -/
structure RegroupOf (tobits : Nat) (data : List Nat)
    (bytes : Bytes) : Prop where
  bits : ∃ k < tobits, spell tobits data =
    spell 8 (byteNats bytes) ++ List.replicate k false
  small : ∀ d ∈ data, d < 2 ^ tobits

/-- `convertbits` regroups the bits and pads the last group. -/
theorem convertbits_regroups {tobits : Nat} (hto : 0 < tobits)
    (hfits : tobits + 8 ≤ 30) (bytes : Bytes) :
    RegroupOf tobits (convertbits bytes 8 tobits) bytes := by
  have hrun : Regrouped tobits (bytes.foldl (ConvertState.next 8 tobits) {})
      ([] ++ bytes) :=
    regrouped_run hto hfits ⟨hto, rfl, List.forall_mem_nil _⟩ bytes
  rw [List.nil_append] at hrun
  rw [convertbits]
  generalize bytes.foldl (ConvertState.next 8 tobits) {} = s at hrun
  have hpending := hrun.pending
  have hwritten := hrun.written
  by_cases hbits : s.bits = 0
  · rw [if_neg (not_not.mpr hbits)]
    rw [hbits, natBits, List.append_nil] at hwritten
    exact ⟨⟨0, hto, by rw [hwritten, List.replicate_zero, List.append_nil]⟩,
      hrun.small⟩
  · rw [if_pos hbits]
    refine ⟨⟨tobits - s.bits, by omega, ?_⟩, ?_⟩
    · -- the last group is what is pending and zeros
      have hlast : natBits tobits (s.acc <<< (tobits - s.bits)) =
          natBits s.bits s.acc ++ List.replicate (tobits - s.bits) false := by
        have h :=
          natBits_append s.bits s.acc (Nat.two_pow_pos (tobits - s.bits))
        rwa [Nat.add_zero, natBits_zero,
          Nat.add_sub_cancel' (Nat.le_of_lt hpending), Nat.mul_comm,
          ← Nat.shiftLeft_eq] at h
      rw [spell_append, spell_cons, spell_nil, List.append_nil, natBits_mask,
        hlast, ← List.append_assoc, hwritten]
    · intro d hd
      rcases List.mem_append.mp hd with hd | hd
      · exact hrun.small d hd
      · rw [List.mem_singleton.mp hd]
        exact mask_lt _ _

/-- The symbols determine the bytes: the zeros at the end are fewer than make a
byte. -/
theorem RegroupOf.unique {tobits : Nat} (hto : tobits ≤ 8) {data : List Nat}
    {bytes bytes' : Bytes}
    (h : RegroupOf tobits data bytes) (h' : RegroupOf tobits data bytes') :
    bytes = bytes' := by
  obtain ⟨k, hk, hbits⟩ := h.bits
  obtain ⟨k', hk', hbits'⟩ := h'.bits
  rw [hbits] at hbits'
  have hlen : 8 * bytes.length = 8 * bytes'.length := by
    have hlen := congrArg List.length hbits'
    rw [List.length_append, List.length_append, length_spell, length_spell,
      List.length_replicate, List.length_replicate, byteNats, byteNats,
      List.length_map, List.length_map] at hlen
    omega
  have hspell : spell 8 (byteNats bytes) = spell 8 (byteNats bytes') := by
    refine (List.append_inj hbits' ?_).1
    rw [length_spell, length_spell, byteNats, byteNats, List.length_map,
      List.length_map, hlen]
  exact List.map_injective_iff.mpr (fun _ _ => UInt8.toNat_inj.mp)
    (spell_injective (by decide) (byteNats_lt bytes)
      (byteNats_lt bytes') hspell)

/-! ## The string -/

/-- The character of a symbol. -/
def charOf (d : Nat) : Char := bech32Charset.getD d ' '

/-- Every 5-bit group has a character. -/
theorem bech32Char_ok {d : Nat} (hd : d < 2 ^ 5) :
    bech32Char d = .ok (charOf d) := by
  have hget : bech32Charset[d]? = some (charOf d) := by
    rw [charOf,
      List.getD_eq_getElem _ _ (show d < bech32Charset.length from hd)]
    exact List.getElem?_eq_getElem hd
  rw [bech32Char, hget]

/-- The separator is not among the characters. -/
theorem charOf_ne_one {d : Nat} (hd : d < 2 ^ 5) : charOf d ≠ '1' := by
  have hall : ∀ d < 2 ^ 5, charOf d ≠ '1' := by decide
  exact hall d hd

/-- Different groups have different characters. -/
theorem charOf_injective {d e : Nat} (hd : d < 2 ^ 5) (he : e < 2 ^ 5)
    (h : charOf d = charOf e) : d = e := by
  have hall : ∀ d < 2 ^ 5, bech32Charset.idxOf (charOf d) = d := by decide
  rw [← hall d hd, h, hall e he]

/-- So the data part determines the groups. -/
theorem map_charOf_injective {ds es : List Nat} (hds : ∀ d ∈ ds, d < 2 ^ 5)
    (hes : ∀ e ∈ es, e < 2 ^ 5)
    (h : ds.map charOf = es.map charOf) : ds = es := by
  have hlen : ds.length = es.length := by
    have hlen := congrArg List.length h
    rwa [List.length_map, List.length_map] at hlen
  refine List.ext_getElem hlen fun i hi hi' => ?_
  refine charOf_injective (hds _ (List.getElem_mem hi))
    (hes _ (List.getElem_mem hi')) ?_
  have hget : (ds.map charOf)[i]? = (es.map charOf)[i]? := by rw [h]
  rw [List.getElem?_map, List.getElem?_map, List.getElem?_eq_getElem hi,
    List.getElem?_eq_getElem hi'] at hget
  exact Option.some.inj hget

/-- A list is cut in one way at the last place that holds `a`. -/
theorem last_separator {α : Type} {a : α} {l r l' r' : List α} (hr : a ∉ r) (hr' : a ∉ r')
    (h : l ++ a :: r = l' ++ a :: r') : l = l' ∧ r = r' := by
  rcases List.append_eq_append_iff.mp h with ⟨m, hl, hm⟩ | ⟨m, hl, hm⟩
  · cases m with
    | nil => exact ⟨by rw [hl, List.append_nil], (List.cons.inj hm).2⟩
    | cons b m => exact absurd (by rw [(List.cons.inj hm).2]; exact List.mem_append_right _ List.mem_cons_self) hr
  · cases m with
    | nil => exact ⟨by rw [hl, List.append_nil], (List.cons.inj hm).2.symm⟩
    | cons b m => exact absurd (by rw [(List.cons.inj hm).2]; exact List.mem_append_right _ List.mem_cons_self) hr'

/-- An address, as it is read: the prefix before the last `1`, behind it the
version, the program's symbols and six symbols that make the checksum verify. -/
structure Bech32Of (s hrp : String) (version : Nat) (program : Bytes)
    (data checksum : List Nat) : Prop where
  written : s.toList =
    hrp.toList ++ '1' :: (version :: data ++ checksum).map charOf
  separated : '1' ∉ (version :: data ++ checksum).map charOf
  symbols : ∀ d ∈ version :: data ++ checksum, d < 2 ^ 5
  sized : checksum.length = 6
  verifies : bech32Polymod (bech32HrpExpand hrp ++
    (version :: data ++ checksum)) =
    if version = 0 then bech32Const else bech32mConst
  regroups : RegroupOf 5 data program

/-- What is read is determined by the string. -/
theorem Bech32Of.unique {s hrp hrp' : String} {version version' : Nat}
    {program program' : Bytes}
    {data data' checksum checksum' : List Nat}
    (h : Bech32Of s hrp version program data checksum)
    (h' : Bech32Of s hrp' version' program' data' checksum') :
    hrp' = hrp ∧ version' = version ∧ program' = program := by
  have hsame := h.written
  rw [h'.written] at hsame
  obtain ⟨hhrp, hchars⟩ := last_separator h'.separated h.separated hsame
  have hsymbols := map_charOf_injective h'.symbols h.symbols hchars
  obtain ⟨hcombined, -⟩ := List.append_inj' hsymbols (by rw [h.sized, h'.sized])
  obtain ⟨hversion, rfl⟩ := List.cons.inj hcombined
  exact ⟨String.toList_injective hhrp, hversion,
    h'.regroups.unique (by decide) h.regroups⟩

/-- Every witness version up to 16 is encoded, and to a string of the expected
shape. -/
theorem bech32Encode_ok {version : Nat} (hversion : version ≤ 16) (hrp : String)
    (program : Bytes) :
    ∃ s data checksum, bech32Encode hrp version program = .ok s ∧
    Bech32Of s hrp version program data checksum := by
  generalize hspec : (if 0 < version then bech32mConst else bech32Const) = spec
  have hconst : spec = if version = 0 then bech32Const else bech32mConst := by
    rw [← hspec]
    cases version <;> rfl
  have hlt : spec < 2 ^ 30 := by
    rw [hconst]
    split <;> decide
  have hregroups : RegroupOf 5 (convertbits program 8 5) program :=
    convertbits_regroups (by decide) (by decide) program
  generalize hdata : convertbits program 8 5 = data at hregroups
  generalize hchecksum : bech32CreateChecksum hrp (version :: data) spec =
    checksum
  have hsymbols : ∀ d ∈ version :: data ++ checksum, d < 2 ^ 5 := by
    rw [List.forall_mem_append, List.forall_mem_cons, ← hchecksum,
      bech32CreateChecksum_eq]
    exact ⟨⟨by omega, hregroups.small⟩, XorRegister.symbols_lt 5 6 _⟩
  have hchars : (version :: data ++ checksum).mapM bech32Char =
      .ok ((version :: data ++ checksum).map charOf) :=
    mapM_eq_map fun d hd => bech32Char_ok (hsymbols d hd)
  refine ⟨hrp ++ "1" ++ String.ofList ((version :: data ++ checksum).map
    charOf), data, checksum, ?_, ?_, ?_, hsymbols, ?_, ?_, hregroups⟩
  · unfold bech32Encode
    simp only [hspec, hdata, hchecksum]
    exact bind_ok.mpr ⟨_, hchars, rfl⟩
  · rw [String.toList_append, String.toList_append, List.append_assoc,
      String.toList_ofList (l := (version :: data ++ checksum).map charOf)]
    rfl
  · intro hmem
    obtain ⟨d, hd, hone⟩ := List.mem_map.mp hmem
    exact charOf_ne_one (hsymbols d hd) hone
  · rw [← hchecksum, bech32CreateChecksum_eq, XorRegister.length_symbols]
  · rw [← hchecksum, bech32Polymod_checksum hrp (version :: data) hlt, hconst]

/-- **An address is read back, and no two programs share one.** -/
theorem bech32Encode_reads {version : Nat} (hversion : version ≤ 16)
    (hrp : String) (program : Bytes) :
    ∃ s data checksum, bech32Encode hrp version program = .ok s ∧
    Bech32Of s hrp version program data checksum ∧
      ∀ (hrp' : String) (version' : Nat) (program' : Bytes), version' ≤ 16 →
        bech32Encode hrp' version' program' = .ok s →
          hrp' = hrp ∧ version' = version ∧ program' = program := by
  obtain ⟨s, data, checksum, hencode, hreads⟩ :=
    bech32Encode_ok hversion hrp program
  refine ⟨s, data, checksum, hencode, hreads,
    fun hrp' version' program' hversion' hencode' => ?_⟩
  obtain ⟨s', data', checksum', hs', hreads'⟩ :=
    bech32Encode_ok hversion' hrp' program'
  rw [hs', Except.ok.injEq] at hencode'
  rw [hencode'] at hreads'
  exact hreads.unique hreads'

/-- The statement at a version-0 program of 20 bytes. -/
theorem bech32Encode_reads_p2wpkh :
    ∃ s data checksum, bech32Encode "bc" 0 (List.replicate 20 0x75) = .ok s ∧
    Bech32Of s "bc" 0 (List.replicate 20 0x75) data checksum ∧
      ∀ (hrp' : String) (version' : Nat) (program' : Bytes), version' ≤ 16 →
        bech32Encode hrp' version' program' = .ok s →
          hrp' = "bc" ∧ version' = 0 ∧ program' = List.replicate 20 0x75 :=
  bech32Encode_reads (by decide) "bc" _

end Pyrxd.Btc
