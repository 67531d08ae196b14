import Pyrxd.Hd.Bip32
import Pyrxd.Lib.BitString
import Pyrxd.Lib.Dict
import Pyrxd.Lib.Text
import Pyrxd.Lib.Traverse
import Pyrxd.Tx.RoundTrip

/-!
# Mnemonics

`hd/bip39.py` and the two bit string helpers of `utils.py`. Encoder and checker
split the same string in different places: the encoder into words of eleven
bits, the checker at 32 bits of entropy for each bit of checksum. `Spells` is
what both are about, and `mnemonic_exact` says that a mnemonic is accepted
exactly when it is that of an entropy.
-/

namespace Pyrxd.Hd

open Pyrxd.Lib

/-! ## Bit strings -/

/-- `bin(n)[2:]`. -/
def bin (n : Nat) : Bits := natBits (n.log2 + 1) n

/-- `bits.zfill(width)`. -/
def zfill (width : Nat) (bits : Bits) : Bits :=
  List.replicate (width - bits.length) false ++ bits

/-- `bytes_to_bits`, of bytes. -/
def bytesToBits (b : Bytes) : Bits :=
  let bits := bin (beNat b)
  if bits.length < b.length *
    8 then List.replicate (b.length * 8 - bits.length) false ++ bits else bits

/-- `bits_to_bytes`. -/
def bitsToBytes (bits : Bits) : Except PyErr Bytes :=
  if bits = [] then .error (.other "invalid literal for int() with base 2: ''")
  else toBytesBe (max ((bits.length + 7) / 8) 1) (bitsNat bits)

/-! ## Words -/

/-- A word list that `load_wordlist` accepts: 2048 words, and as BIP39 has it
they differ and hold no space. -/
structure WordList where
  words : List String
  count : words.length = 2048
  distinct : words.Nodup
  spaceless : ∀ w ∈ words, ' ' ∉ w.toList

/-- The word lists by language, and the hash of the checksum. -/
structure Bip39 where
  wordlist : String → Option WordList
  sha256 : Bytes → Bytes
  sha256_length : ∀ b, (sha256 b).length = 32
  /-- `randbits`, of the entropy that is made when none is given. -/
  random : Bytes

namespace Bip39

variable (lib : Bip39) (lang : String)

/-- `WordList.wordlist[lang]`. -/
def listOf : Except PyErr WordList :=
  match lib.wordlist lang with
  | some list => .ok list
  | none => invalid (lang ++ " wordlist not supported")

/-- `WordList.get_word`, of bytes. -/
def getWord (index : Bytes) : Except PyErr String := do
  let list ← lib.listOf lang
  match list.words[beNat index]? with
  | some word => .ok word
  | none => invalid "index out of range"

/-- `WordList.index_word`. -/
def indexWord (word : String) : Except PyErr Nat := do
  let list ← lib.listOf lang
  if word ∈ list.words then .ok (list.words.idxOf word)
    else .error (.other "invalid word")

/-- `BIP39_ENTROPY_BIT_LENGTH_LIST`. -/
def entropyBitLengths : List Nat := [128, 160, 192, 224, 256]

/-- `mnemonic_from_entropy`, of bytes. -/
def mnemonicFromEntropy (entropy : Bytes) : Except PyErr String := do
  let entropyBytes := if entropy = [] then lib.random else entropy
  let entropyBits := bytesToBits entropyBytes
  refuseIf (entropyBits.length ∉ entropyBitLengths) "invalid entropy bit length"
  let checksumBits :=
    (bytesToBits (lib.sha256 entropyBytes)).take (entropyBits.length / 32)
  let words ← (bitGroups 11 (entropyBits ++ checksumBits)).mapM
      fun indexBits => do
    let index ← bitsToBytes indexBits
    lib.getWord lang index
  return Text.join ' ' words

/-- `validate_mnemonic`. -/
def validateMnemonic (mnemonic : String) : Except PyErr Unit := do
  let indexes ← (Text.split ' ' mnemonic).mapM (lib.indexWord lang)
  let bits := indexes.flatMap fun index => zfill 11 (bin index)
  let entropyBitLength := bits.length * 32 / 33
  refuseIf (entropyBitLength ∉ entropyBitLengths)
    "invalid mnemonic, bad entropy bit length"
  let entropyBits := bits.take entropyBitLength
  let entropyBytes ← bitsToBytes entropyBits
  let checksumBits :=
    (bytesToBits (lib.sha256 entropyBytes)).take (entropyBitLength / 32)
  refuseIf (checksumBits ≠ bits.drop entropyBitLength)
    "invalid mnemonic, checksum mismatch"

end Bip39

/-! ## Helpers -/

/-- The binary digits of a number. -/
theorem length_bin (n : Nat) : (bin n).length = n.log2 + 1 := length_natBits _ _

/-- The leading zeros that `bin` drops are filled in again. -/
theorem zfill_bin {width n : Nat} (hwidth : 0 < width) (hn : n < 2 ^ width) :
    zfill width (bin n) = natBits width n := by
  have hlog : n.log2 + 1 ≤ width := by
    by_cases h0 : n = 0
    · rw [h0, Nat.log2_zero]
      exact hwidth
    · exact (Nat.log2_lt h0).mpr hn
  have hsmall : n < 2 ^ (n.log2 + 1) := Nat.lt_log2_self
  have happend := natBits_append (width - (n.log2 + 1)) 0 hsmall
  rw [Nat.mul_zero, Nat.zero_add, natBits_zero,
    Nat.sub_add_cancel hlog] at happend
  rw [zfill, length_bin, bin, happend]

theorem beNat_lt (b : Bytes) : beNat b < 2 ^ (8 * b.length) := by
  have h := leNat_lt b.reverse
  rwa [List.length_reverse, show 256 = 2 ^ 8 from rfl, ← Nat.pow_mul] at h

/-- The bits of the bytes, one after another, are those of the number. -/
theorem spell_bytes (b : Bytes) :
    spell 8 (b.map UInt8.toNat) = natBits (8 * b.length) (beNat b) := by
  induction b with
  | nil => rfl
  | cons x b ih =>
    have hnum : beNat (x :: b) = 2 ^ (8 * b.length) * x.toNat + beNat b := by
      rw [beNat, List.reverse_cons, leNat_append, leNat_singleton,
        List.length_reverse, Nat.add_comm,
        show 256 = 2 ^ 8 from rfl, ← Nat.pow_mul, beNat]
    rw [List.map_cons, spell_cons, ih, hnum, List.length_cons, Nat.mul_succ,
      Nat.add_comm (8 * b.length), natBits_append 8 x.toNat (beNat_lt b)]

/-- The bits of bytes, eight for each. -/
theorem bytesToBits_eq {b : Bytes} (hb : b ≠ []) :
    bytesToBits b = spell 8 (b.map UInt8.toNat) := by
  have hpos : 0 < 8 * b.length := by
    have := List.length_pos_of_ne_nil hb
    omega
  rw [spell_bytes, ← zfill_bin hpos (beNat_lt b), zfill,
    bytesToBits, Nat.mul_comm]
  split
  · rfl
  · rename_i hlen
    rw [Nat.sub_eq_zero_of_le (Nat.le_of_not_lt hlen), List.replicate_zero,
      List.nil_append]

/-- Bytes of one length are determined by their number. -/
theorem beNat_injective {a b : Bytes} (hlen : a.length = b.length)
    (h : beNat a = beNat b) : a = b :=
  List.reverse_injective (leNat_inj (by rw [List.length_reverse,
    List.length_reverse, hlen]) h)

/-- Bits read as a number and back to bytes. -/
theorem bitsToBytes_ok {bits : Bits} (hne : bits ≠ []) :
    ∃ b, bitsToBytes bits = .ok b ∧ beNat b = bitsNat bits ∧
    b.length = max ((bits.length + 7) / 8) 1 := by
  have hfits : bitsNat bits < 256 ^ max ((bits.length + 7) / 8) 1 := by
    refine Nat.lt_of_lt_of_le (bitsNat_lt bits) ?_
    rw [show 256 = 2 ^ 8 from rfl, ← Nat.pow_mul]
    exact Nat.pow_le_pow_right (by decide) (by omega)
  refine ⟨(leBytes (max ((bits.length + 7) / 8) 1) (bitsNat bits)).reverse, ?_,
    ?_, ?_⟩
  · rw [bitsToBytes, if_neg hne, toBytesBe,
      Tx.toBytesLe_of_range ⟨Int.natCast_nonneg _, by exact_mod_cast hfits⟩]
    rfl
  · rw [beNat, List.reverse_reverse, leNat_leBytes hfits]
  · rw [List.length_reverse, length_leBytes]

/-- A string of whole bytes is that of the bytes it is read as. -/
theorem bitsToBytes_bytes {bits : Bits} {n : Nat} (hn : 0 < n)
    (hlen : bits.length = 8 * n) :
    ∃ b, bitsToBytes bits = .ok b ∧ b.length = n ∧
    spell 8 (b.map UInt8.toNat) = bits := by
  have hne : bits ≠ [] := List.ne_nil_of_length_pos (by omega)
  obtain ⟨b, hb, hnat, hblen⟩ := bitsToBytes_ok hne
  have hbn : b.length = n := by omega
  refine ⟨b, hb, hbn, ?_⟩
  rw [spell_bytes, hbn, hnat, ← hlen, natBits_bitsNat]

/-! ## What a mnemonic says -/

/-- The word at an index. -/
def WordList.at (list : WordList) (i : Nat) : String := list.words.getD i ""

theorem WordList.getElem?_at (list : WordList) {i : Nat} (hi : i < 2048) :
    list.words[i]? = some (list.at i) := by
  have hlt : i < list.words.length := by rw [list.count]; exact hi
  rw [WordList.at, List.getD_eq_getElem _ _ hlt, List.getElem?_eq_getElem hlt]

theorem WordList.at_mem (list : WordList) {i : Nat} (hi : i < 2048) :
    list.at i ∈ list.words :=
  List.mem_of_getElem? (list.getElem?_at hi)

theorem WordList.idxOf_at (list : WordList) {i : Nat} (hi : i < 2048) :
    list.words.idxOf (list.at i) = i := by
  have hlt : i < list.words.length := by rw [list.count]; exact hi
  rw [WordList.at, List.getD_eq_getElem _ _ hlt]
  exact list.distinct.idxOf_getElem i hlt

namespace Bip39

variable {lib : Bip39} {lang : String} {list : WordList}

/-- The bits of the entropy and of its checksum. -/
def checkedBits (lib : Bip39) (e : Bytes) : Bits :=
  spell 8 (e.map UInt8.toNat) ++
    (spell 8 ((lib.sha256 e).map UInt8.toNat)).take (e.length * 8 / 32)

/-- The words of `s` spell the entropy and its checksum. -/
def Spells (lib : Bip39) (list : WordList) (e : Bytes) (s : String) : Prop :=
  ∃ idx : List Nat, (∀ i ∈ idx, i < 2 ^ 11) ∧ spell 11 idx = lib.checkedBits e ∧
    s = Text.join ' ' (idx.map list.at)

/-- An entropy that has one of the lengths. -/
def Sized (e : Bytes) : Prop := e.length * 8 ∈ entropyBitLengths

theorem Sized.length {e : Bytes} (h : Sized e) : e.length = 16 ∨ e.length = 20 ∨
    e.length = 24 ∨ e.length = 28 ∨ e.length = 32 := by
  simp only [Sized, entropyBitLengths, List.mem_cons, List.not_mem_nil,
    or_false] at h
  omega

theorem Sized.ne_nil {e : Bytes} (h : Sized e) : e ≠ [] := by
  rintro rfl
  rcases h.length with h | h | h | h | h <;> cases h

theorem length_checkedBits (lib : Bip39) (e : Bytes) :
    (lib.checkedBits e).length = 8 * e.length + min
      (e.length * 8 / 32) 256 := by
  rw [checkedBits, List.length_append, List.length_take, length_spell,
    length_spell, List.length_map, List.length_map, lib.sha256_length]

/-- Eleven bits a word, and 33 bits for each 32 of entropy. -/
theorem Sized.words (lib : Bip39) {e : Bytes} (h : Sized e) :
    (lib.checkedBits e).length = 11 * (e.length * 3 / 4) ∧
    (lib.checkedBits e).length * 32 / 33 = 8 * e.length ∧
    0 < e.length * 3 / 4 := by
  rw [length_checkedBits]
  obtain h | h | h | h | h := h.length <;> rw [h] <;> decide

/-- A known language has its list. -/
theorem listOf_eq (hlist : lib.wordlist lang = some list) :
    lib.listOf lang = .ok list := by
  rw [listOf, hlist]

theorem indexWord_ok (hlist : lib.wordlist lang = some list)
    {word : String} {i : Nat} :
    lib.indexWord lang word = .ok i ↔ i < 2 ^ 11 ∧ list.at i = word := by
  rw [indexWord, listOf_eq hlist, ok_bind]
  constructor
  · intro h
    split at h
    · rename_i hmem
      cases h
      have hlt := List.idxOf_lt_length_of_mem hmem
      refine ⟨by rw [list.count] at hlt; exact hlt, ?_⟩
      rw [WordList.at, List.getD_eq_getElem _ _ hlt, List.getElem_idxOf hlt]
    · cases h
  · rintro ⟨hi, rfl⟩
    rw [if_pos (list.at_mem hi), list.idxOf_at hi]

/-- The encoder writes the words that spell the entropy. -/
theorem mnemonicFromEntropy_spells (hlist : lib.wordlist lang = some list)
    {e : Bytes} (he : Sized e) :
    ∃ s, lib.mnemonicFromEntropy lang e = .ok s ∧ lib.Spells list e s := by
  obtain ⟨hlen, -, -⟩ := he.words lib
  obtain ⟨hspell, -, hsmall⟩ := spell_bitGroups (k := 11) (by decide) _ hlen
  have hsha : lib.sha256 e ≠ [] :=
    List.ne_nil_of_length_pos (by rw [lib.sha256_length]; decide)
  have hbits : (bytesToBits e).length = e.length * 8 := by
    rw [bytesToBits_eq he.ne_nil, length_spell, List.length_map, Nat.mul_comm]
  -- eleven bits name a word of the list
  have hgroups : ∀ g ∈ bitGroups 11 (lib.checkedBits e),
      (do let index ← bitsToBytes g; lib.getWord lang index) =
      .ok (list.at (bitsNat g)) := by
    intro g hg
    have hlt : bitsNat g < 2 ^ 11 := hsmall _ (List.mem_map_of_mem hg)
    have hne : g ≠ [] := by
      obtain ⟨gs, -, hgs, hflat⟩ := exists_flatten _ hlen
      rw [← hflat, bitGroups_flatten (by decide) hgs] at hg
      exact List.ne_nil_of_length_pos (by rw [hgs g hg]; decide)
    obtain ⟨b, hb, hnat, -⟩ := bitsToBytes_ok hne
    rw [hb, ok_bind, getWord, listOf_eq hlist, ok_bind, hnat,
      list.getElem?_at hlt]
  refine ⟨Text.join ' ' ((bitGroups 11 (lib.checkedBits e)).map fun g =>
    list.at (bitsNat g)), ?_,
    (bitGroups 11 (lib.checkedBits e)).map bitsNat, hsmall,
      hspell, by rw [List.map_map]; rfl⟩
  unfold mnemonicFromEntropy
  rw [if_neg he.ne_nil]
  refine refuseIf_bind_ok.mpr ⟨?_, bind_ok.mpr ⟨_, ?_, rfl⟩⟩
  · rw [hbits]
    exact not_not.mpr he
  · rw [hbits, bytesToBits_eq he.ne_nil, bytesToBits_eq hsha]
    exact mapM_eq_map hgroups

/-- A spelled phrase splits into its words. -/
theorem Spells.split (h : lib.Spells list e s) (he : Sized e) :
    ∃ idx : List Nat, (∀ i ∈ idx, i < 2 ^ 11) ∧
    spell 11 idx = lib.checkedBits e ∧ Text.split ' ' s = idx.map list.at := by
  obtain ⟨idx, hsmall, hspell, rfl⟩ := h
  refine ⟨idx, hsmall, hspell, Text.split_join ?_ ?_⟩
  · intro w hw
    obtain ⟨i, hi, rfl⟩ := List.mem_map.mp hw
    exact list.spaceless _ (list.at_mem (hsmall i hi))
  · intro hnil
    have hlen := congrArg List.length hspell
    obtain ⟨hwords, -, hpos⟩ := he.words lib
    rw [List.map_eq_nil_iff.mp hnil, hwords, spell_nil, List.length_nil] at hlen
    omega

/-- The words say which entropy. -/
theorem Spells.unique {e e' : Bytes} {s : String} (h : lib.Spells list e s)
    (h' : lib.Spells list e' s) (he : Sized e) (he' : Sized e') : e = e' := by
  obtain ⟨idx, hsmall, hspell, hsplit⟩ := h.split he
  obtain ⟨idx', hsmall', hspell', hsplit'⟩ := h'.split he'
  have hidx : idx = idx' := by
    have hback : ∀ {idx : List Nat}, (∀ i ∈ idx, i < 2 ^ 11) →
        (idx.map list.at).map list.words.idxOf = idx := by
      intro idx hsmall
      rw [List.map_map]
      refine (List.map_congr_left fun i hi => ?_).trans (List.map_id idx)
      exact list.idxOf_at (hsmall i hi)
    rw [← hback hsmall, ← hsplit, hsplit', hback hsmall']
  rw [← hidx, hspell] at hspell'
  have hlen : e.length = e'.length := by
    have h := congrArg (fun bits => List.length bits * 32 / 33) hspell'
    rw [(he.words lib).2.1, (he'.words lib).2.1] at h
    omega
  have hbits : spell 8 (e.map UInt8.toNat) = spell 8 (e'.map UInt8.toNat) :=
    (List.append_inj hspell' (by rw [length_spell, length_spell,
      List.length_map, List.length_map, hlen])).1
  rw [spell_bytes, spell_bytes, hlen] at hbits
  refine beNat_injective hlen (natBits_injective ?_ (beNat_lt e') hbits)
  rw [← hlen]
  exact beNat_lt e

/-- The checker accepts what spells an entropy and its checksum. -/
theorem validateMnemonic_ok (hlist : lib.wordlist lang = some list)
    {s : String} :
    lib.validateMnemonic lang s = .ok () ↔ ∃ e, Sized e ∧
    lib.Spells list e s := by
  have hzfill : ∀ idx : List Nat, (∀ i ∈ idx, i < 2 ^ 11) →
      (idx.flatMap fun i => zfill 11 (bin i)) = spell 11 idx := by
    intro idx hsmall
    exact List.flatMap_congr fun i hi => zfill_bin (by decide) (hsmall i hi)
  constructor
  · intro h
    obtain ⟨idx, hidx, h⟩ := bind_ok.mp h
    obtain ⟨hlength, h⟩ := refuseIf_bind_ok.mp h
    obtain ⟨e, he, h⟩ := bind_ok.mp h
    have hcheck := not_not.mp (refuseIf_ok.mp h)
    have hword : ∀ word i, lib.indexWord lang word = .ok i → list.at i = word :=
      fun word i h => ((indexWord_ok hlist).mp h).2
    have hsmall : ∀ i ∈ idx, i < 2 ^ 11 := by
      intro i hi
      obtain ⟨word, -, hword⟩ := mapM_mem hidx hi
      exact ((indexWord_ok hlist).mp hword).1
    rw [hzfill idx hsmall] at hlength he hcheck
    -- the lengths that are admitted are those of whole entropies
    have hlen := length_spell 11 idx
    generalize hbits : spell 11 idx = bits at hlength he hcheck hlen
    obtain ⟨n, hn, htotal, heb⟩ : ∃ n, n * 8 ∈ entropyBitLengths ∧
        bits.length = 8 * n + n / 4 ∧
        bits.length * 32 / 33 = 8 * n := by
      rw [not_not] at hlength
      simp only [entropyBitLengths, List.mem_cons, List.not_mem_nil,
        or_false] at hlength ⊢
      exact ⟨bits.length * 32 / 33 / 8, by omega, by omega, by omega⟩
    have hnpos : 0 < n := Nat.pos_of_ne_zero fun h0 =>
      absurd (h0 ▸ hn) (by decide)
    rw [heb] at he hcheck
    have htake : (bits.take (8 * n)).length = 8 * n := by
      rw [List.length_take]
      omega
    obtain ⟨e', he', hlenE, hspell⟩ := bitsToBytes_bytes hnpos htake
    rw [he', Except.ok.injEq] at he
    rw [he] at hlenE hspell
    have hsha : lib.sha256 e ≠ [] :=
      List.ne_nil_of_length_pos (by rw [lib.sha256_length]; decide)
    have hsized : Sized e := by
      rw [Sized, hlenE]
      exact hn
    refine ⟨e, hsized, idx, hsmall, ?_, ?_⟩
    · rw [hbits, checkedBits, hspell, ← bytesToBits_eq hsha, hlenE,
        Nat.mul_comm n, hcheck, List.take_append_drop]
    · have hwords := mapM_map (g := list.at) (k := id) hword hidx
      rw [hwords, List.map_id, Text.join_split]
  · rintro ⟨e, he, h⟩
    obtain ⟨idx, hsmall, hspell, hsplit⟩ := h.split he
    obtain ⟨-, heb, -⟩ := he.words lib
    have hsha : lib.sha256 e ≠ [] :=
      List.ne_nil_of_length_pos (by rw [lib.sha256_length]; decide)
    have hentropy : (spell 8 (e.map UInt8.toNat)).length =
        8 * e.length := by rw [length_spell, List.length_map]
    have hindex : ∀ i ∈ idx, lib.indexWord lang (list.at i) = .ok (id i) :=
      fun i hi => (indexWord_ok hlist).mpr ⟨hsmall i hi, rfl⟩
    have htake : (lib.checkedBits e).take (8 * e.length) =
        spell 8 (e.map UInt8.toNat) := List.take_left' hentropy
    have hdrop : (lib.checkedBits e).drop (8 * e.length) =
        (spell 8 ((lib.sha256 e).map UInt8.toNat)).take (e.length * 8 / 32) :=
          List.drop_left' hentropy
    obtain ⟨b, hb, hlen, hback⟩ :=
      bitsToBytes_bytes (List.length_pos_of_ne_nil he.ne_nil) hentropy
    have hbe : b = e := by
      rw [spell_bytes, spell_bytes, hlen] at hback
      refine beNat_injective hlen (natBits_injective ?_ (beNat_lt e) hback)
      rw [← hlen]
      exact beNat_lt b
    refine bind_ok.mpr ⟨idx, ?_, ?_⟩
    · rw [hsplit, mapM_map_ok idx hindex, List.map_id]
    · rw [hzfill idx hsmall, hspell]
      dsimp only
      rw [heb]
      refine refuseIf_bind_ok.mpr ⟨?_, bind_ok.mpr ⟨e, ?_, refuseIf_ok.mpr ?_⟩⟩
      · rw [Nat.mul_comm]
        exact not_not.mpr he
      · rw [htake, hb, hbe]
      · rw [hdrop, ← bytesToBits_eq hsha, Nat.mul_comm]
        exact not_not.mpr rfl

/-- The encoder returns exactly the spelling. -/
theorem spells_iff (hlist : lib.wordlist lang = some list) {e : Bytes}
    (he : Sized e) {s : String} : lib.mnemonicFromEntropy lang e = .ok s ↔
    lib.Spells list e s := by
  obtain ⟨t, ht, hspells⟩ := mnemonicFromEntropy_spells hlist he
  constructor
  · intro h
    rw [ht, Except.ok.injEq] at h
    rwa [← h]
  · intro h
    obtain ⟨idx, hsmall, hspell, rfl⟩ := h
    obtain ⟨idx', hsmall', hspell', rfl⟩ := hspells
    rw [ht,
      spell_injective (by decide) hsmall hsmall' (hspell.trans hspell'.symm)]

/-- **The mnemonics that are accepted are those of an entropy**, each of one. -/
theorem mnemonic_exact (hlist : lib.wordlist lang = some list) :
    (∀ e, Sized e → ∃ s, lib.mnemonicFromEntropy lang e = .ok s ∧
      lib.validateMnemonic lang s = .ok ()) ∧
    (∀ e e' s, Sized e → Sized e' → lib.mnemonicFromEntropy lang e = .ok s →
      lib.mnemonicFromEntropy lang e' = .ok s → e = e') ∧
    ∀ s, lib.validateMnemonic lang s = .ok () → ∃! e, Sized e ∧
    lib.mnemonicFromEntropy lang e = .ok s := by
  refine ⟨fun e he => ?_, fun e e' s he he' h h' => ?_, fun s h => ?_⟩
  · obtain ⟨s, hs, hspells⟩ := mnemonicFromEntropy_spells hlist he
    exact ⟨s, hs, (validateMnemonic_ok hlist).mpr ⟨e, he, hspells⟩⟩
  · exact ((spells_iff hlist he).mp h).unique
      ((spells_iff hlist he').mp h') he he'
  · obtain ⟨e, he, hspells⟩ := (validateMnemonic_ok hlist).mp h
    refine ⟨e, ⟨he, (spells_iff hlist he).mpr hspells⟩, ?_⟩
    rintro e' ⟨he', h'⟩
    exact ((spells_iff hlist he').mp h').unique hspells he' he

/-- The numbers below 2048 for words. -/
def numerals : WordList where
  words := (List.range 2048).map toString
  count := by rw [List.length_map, List.length_range]
  distinct := by
    refine List.Nodup.map (fun m n h => ?_) List.nodup_range
    have hm := PyVal.intOfStr_toString m
    rw [h, PyVal.intOfStr_toString, Option.some.injEq] at hm
    exact (Int.ofNat_inj.mp hm).symm
  spaceless := by
    intro w hw
    obtain ⟨n, -, rfl⟩ := List.mem_map.mp hw
    intro hspace
    exact absurd (PyVal.isDigit_of_mem_toString hspace) (by decide)

def sampleBip39 : Bip39 where
  wordlist lang := if lang = "en" then some numerals else none
  sha256 b := List.replicate 32 (b.headD 0)
  sha256_length _ := List.length_replicate
  random := List.replicate 16 0

/-- The statement at the sample library. -/
theorem mnemonic_exact_sample :
    (∀ e, Sized e → ∃ s, sampleBip39.mnemonicFromEntropy "en" e = .ok s ∧
      sampleBip39.validateMnemonic "en" s = .ok ()) ∧
    (∀ e e' s, Sized e → Sized e' →
      sampleBip39.mnemonicFromEntropy "en" e = .ok s →
      sampleBip39.mnemonicFromEntropy "en" e' = .ok s → e = e') ∧
    ∀ s, sampleBip39.validateMnemonic "en" s = .ok () →
      ∃! e, Sized e ∧ sampleBip39.mnemonicFromEntropy "en" e = .ok s :=
  mnemonic_exact (show (if "en" = "en" then some numerals else none) =
    some numerals from if_pos rfl)

end Bip39

end Pyrxd.Hd
