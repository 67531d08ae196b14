import Pyrxd.Glyph.EncryptedContent
import Pyrxd.Lib.Sha256

/-!
# Timelocks on content

`glyph/timelock.py`: the commitment to the content key, in the metadata of a
mint, and when it may be revealed.

Four functions read a commitment, each with its own idea of prefix, case and
white space. Where what is left once both spellings of the prefix are removed is
the hash in hex, and there is a prefix, they agree (`Commits`).
-/

namespace Pyrxd.Glyph

open Pyrxd.Lib

def encryptedProtocol : Int := 8
def timelockProtocol : Int := 9

structure TimelockParams where
  mode : String
  unlockAt : Int
  hint : String := ""

structure TimelockMintResult where
  metadata : EncryptedContentStub
  cekForCallerToStore : Bytes

/-- `compute_cek_hash`. -/
def computeCekHash (cek : Bytes) : Except DecodeErr Bytes :=
  if cek.length ≠ 32 then .error (.value ("CEK must be 32 bytes, got " ++
    toString cek.length)) else .ok (sha256 cek)

/-- `format_cek_hash`. -/
def formatCekHash (hash : Bytes) : Except DecodeErr String :=
  if hash.length ≠ 32 then .error (.value ("hash must be 32 bytes, got " ++
    toString hash.length))
  else .ok (String.ofList (sha256Colon ++ hexChars hash))

section

variable (u : CharTables)

/-- `parse_cek_hash`. -/
def parseCekHash (formatted : String) : Except DecodeErr Bytes :=
  let s := u.strip formatted.toList
  if ¬ sha256Colon <+: u.lowerCase s then .error
    (.value ("expected sha256: prefix, got " ++ reprStr formatted))
  else
    let hexPart := s.drop sha256Colon.length
    if hexPart.length ≠ 64 then
      .error (.value ("sha256 hash must be 32 bytes (64 hex chars), got " ++
        toString hexPart.length ++ " chars"))
    else
      match fromHexChars hexPart with
      | some b => .ok b
      | none => .error (.value "non-hexadecimal number found in fromhex() arg")

/-- `verify_cek_reveal`, of a commitment that is a string. -/
def verifyCekReveal (cek : Bytes) (commitment : String) :
    Except DecodeErr Bool := do
  let expected ← parseCekHash u commitment
  let actual ← computeCekHash cek
  return actual = expected

end

/-- `add_timelock_to_metadata`. -/
def addTimelockToMetadata (stub : EncryptedContentStub) (cek : Bytes)
    (params : TimelockParams) :
    Except DecodeErr TimelockMintResult := do
  if cek.length ≠ 32 then .error (.value ("CEK must be 32 bytes, got " ++
    toString cek.length))
  if params.mode ≠ "block" ∧ params.mode ≠ "time" then
    .error (.value ("mode must be 'block' or 'time', got " ++
      reprStr params.mode))
  if encryptedProtocol ∉ stub.p then
    .error (.validation
      ("TIMELOCK requires ENCRYPTED to be present in protocol list; got " ++
      toString stub.p ++
      ". Build the encrypted stub first, then add TIMELOCK."))
  let hash ← computeCekHash cek
  let cekHashStr ← formatCekHash hash
  let newP := if timelockProtocol ∈ stub.p then stub.p
    else stub.p ++ [timelockProtocol]
  let timelock : TimelockSpec :=
    ⟨params.mode, params.unlockAt, cekHashStr, params.hint⟩
  let crypto := { stub.crypto with
    cekHash := if stub.crypto.cekHash ≠ "" then stub.crypto.cekHash
      else cekHashStr
    timelock := some timelock }
  return ⟨{ stub with p := newP, crypto := crypto }, cek⟩

/-- A key verifies against what is parsed to its hash, and against nothing
else. -/
theorem verifyCekReveal_iff {u : CharTables} {cek : Bytes}
    {commitment : String} :
    verifyCekReveal u cek commitment = .ok true ↔
      cek.length = 32 ∧ parseCekHash u commitment = .ok (sha256 cek) := by
  rw [verifyCekReveal, computeCekHash]
  cases hparse : parseCekHash u commitment with
  | error e => exact iff_of_false nofun fun h => by cases h.2
  | ok expected =>
    by_cases hcek : cek.length = 32
    · rw [if_neg (not_not_intro hcek)]
      show Except.ok (decide (sha256 cek = expected)) = .ok true ↔ _
      rw [Except.ok.injEq, decide_eq_true_eq, Except.ok.injEq, eq_comm,
        and_iff_right hcek]
    · rw [if_pos hcek]
      exact iff_of_false nofun fun h => hcek h.1

/-! ## Whether it is due -/

/-- The clock that a mode goes by. -/
def clockOf (mode : String)
    (currentBlock currentTime : Option Int) : Option Int :=
  if mode = "block" then currentBlock
    else if mode = "time" then currentTime else none

/-- `is_unlocked`. -/
def isUnlocked (metadata : EncryptedContentStub)
    (currentBlock currentTime : Option Int) : Bool :=
  if timelockProtocol ∉ metadata.p then true
  else
    match metadata.crypto.timelock with
    | none => false
    | some timelock =>
      match clockOf timelock.mode currentBlock currentTime with
      | none => false
      | some now => decide (timelock.unlockAt ≤ now)

/-- `get_unlock_remaining`. -/
def getUnlockRemaining (metadata : EncryptedContentStub)
    (currentBlock currentTime : Option Int) : Int :=
  if timelockProtocol ∉ metadata.p then 0
  else
    match metadata.crypto.timelock with
    | none => 0
    | some timelock =>
      match clockOf timelock.mode currentBlock currentTime with
      | none => 0
      | some now => max 0 (timelock.unlockAt - now)

section Due

variable {metadata : EncryptedContentStub} {timelock : TimelockSpec}
  {block time : Option Int} {now wait : Int}

/-- A clock in other units is read in those units. -/
theorem clockOf_map (f : Int → Int) (mode : String) (block time : Option Int) :
    clockOf mode (block.map f)
      (time.map f) = (clockOf mode block time).map f := by
  unfold clockOf
  split
  · rfl
  · split
    · rfl
    · rfl

/-- Marked content is due from its height or its time on, and never without a
timelock that names one of the two. -/
theorem isUnlocked_iff (hmarked : timelockProtocol ∈ metadata.p) :
    isUnlocked metadata block time = true ↔
    ∃ timelock now, metadata.crypto.timelock = some timelock ∧
    clockOf timelock.mode block time = some now ∧ timelock.unlockAt ≤ now := by
  rw [isUnlocked, if_neg (not_not_intro hmarked)]
  cases hspec : metadata.crypto.timelock with
  | none =>
    refine iff_of_false Bool.false_ne_true ?_
    rintro ⟨timelock, now, h, -⟩
    cases h
  | some timelock =>
    dsimp only
    cases hclock : clockOf timelock.mode block time with
    | none =>
      refine iff_of_false Bool.false_ne_true ?_
      rintro ⟨timelock', now, h, hnow, -⟩
      cases h
      rw [hclock] at hnow
      cases hnow
    | some now =>
      rw [decide_eq_true_eq]
      refine ⟨fun hdue => ⟨timelock, now, rfl, hclock, hdue⟩, ?_⟩
      rintro ⟨timelock', now', h, hnow, hdue⟩
      cases h
      rw [hclock] at hnow
      cases hnow
      exact hdue

/-- **What remains is how long to wait**: content is due once the clock it goes
by has advanced by that much, and not before. -/
theorem isUnlocked_after_iff (hmarked : timelockProtocol ∈ metadata.p)
    (hspec : metadata.crypto.timelock = some timelock)
    (hclock : clockOf timelock.mode block time = some now)
    (hwait : 0 ≤ wait) :
    isUnlocked metadata (block.map (· + wait)) (time.map (· + wait)) = true ↔
      getUnlockRemaining metadata block time ≤ wait := by
  have hremaining : getUnlockRemaining metadata block time =
      max 0 (timelock.unlockAt - now) := by
    rw [getUnlockRemaining, if_neg (not_not_intro hmarked), hspec]
    dsimp only
    rw [hclock]
  have hlater : clockOf timelock.mode (block.map (· + wait))
      (time.map (· + wait)) = some (now + wait) := by
    rw [clockOf_map, hclock, Option.map_some]
  rw [isUnlocked_iff hmarked, hremaining]
  constructor
  · rintro ⟨timelock', now', h, hnow, hdue⟩
    rw [hspec, Option.some.injEq] at h
    rw [← h] at hnow hdue
    rw [hlater, Option.some.injEq] at hnow
    omega
  · intro hle
    exact ⟨timelock, now + wait, hspec, hlater, by omega⟩

end Due

/-! ## Commitments -/

section Commitments

variable {u : CharTables} {l t front rest : List Char} {digest cek : Bytes}
  {c : Char} {h : String}

/-- The other spelling that is removed. -/
def sha256Upper : List Char := "SHA256:".toList

/-- A commitment that every reader takes for the digest. -/
def Commits (h : String) (digest : Bytes) : Prop :=
  ∃ t, t.map Char.toLower = hexChars digest ∧
    (h.toList = sha256Colon ++ t ∨ h.toList = sha256Upper ++ t)

/-- A character whose lower case is a hex digit. -/
def HexLike (c : Char) : Prop := ∃ n < 16, c.toLower = hexDigit n

/-- Written hex is made of hex digits. -/
theorem hexChars_digits (b : Bytes) :
    ∀ c ∈ hexChars b, ∃ n < 16, c = hexDigit n := by
  induction b with
  | nil => nofun
  | cons x b ih =>
    have hx := x.toNat_lt
    exact List.forall_mem_cons.mpr ⟨⟨_, by omega, rfl⟩,
      List.forall_mem_cons.mpr ⟨⟨_, by omega, rfl⟩, ih⟩⟩

/-- The prefix is plain ASCII without white space, in either case. -/
theorem prefix_plain :
    (∀ c ∈ sha256Colon, c.toNat < 128 ∧ isStrSpace c = false) ∧
    ∀ c ∈ sha256Upper, c.toNat < 128 ∧ isStrSpace c = false := by
  have hall : ∀ l : List Char, (l.all fun c => decide (c.toNat < 128) &&
      !isStrSpace c) = true →
      ∀ c ∈ l, c.toNat < 128 ∧ isStrSpace c = false := by
    intro l hl c hc
    have hboth := List.all_eq_true.mp hl c hc
    rw [Bool.and_eq_true, decide_eq_true_eq, Bool.not_eq_true'] at hboth
    exact hboth
  exact ⟨hall _ (by decide +kernel), hall _ (by decide +kernel)⟩

/-- Hex digits are ASCII, and none of them is in the prefix or a letter that
comes from outside ASCII. -/
theorem hexDigit_plain : ∀ n < 16, (hexDigit n).toNat < 128 ∧ hexDigit n ≠ 'k' ∧
    hexDigit n ≠ 'i' ∧ hexDigit n ≠ 's' := by
  decide

/-- A text that folds to a digest is made of hex-like characters. -/
theorem hexLike_of_map (ht : t.map Char.toLower = hexChars digest) :
    ∀ c ∈ t, HexLike c := by
  intro c hc
  have hmem : c.toLower ∈ hexChars digest := ht ▸ List.mem_map_of_mem hc
  exact hexChars_digits digest _ hmem

theorem toLower_ascii (hc : c.toLower.toNat < 128) : c.toNat < 128 := by
  unfold Char.toLower at hc
  split at hc
  · next hupper => exact Nat.lt_of_le_of_lt (show c.toNat ≤ 90
      from hupper.2) (by decide)
  · exact hc

/-- Either case of a digit has its value. -/
theorem hexVal_ascii : ∀ k < 128, ∀ n < 16, (Char.ofNat k).toLower =
    hexDigit n → hexVal (Char.ofNat k) = some n := by
  decide +kernel

/-- And is neither white space nor the letter that the prefix begins with. -/
theorem hexLike_ascii : ∀ k < 128, isStrSpace (Char.ofNat k) = true ∨
    Char.ofNat k = 's' ∨ Char.ofNat k = 'S' →
    ∀ n < 16, (Char.ofNat k).toLower ≠ hexDigit n := by decide +kernel

/-- What folds to a hex digit has its value and is no white space. -/
theorem hexVal_of_toLower {n : Nat} (hn : n < 16) (h : c.toLower = hexDigit n) :
    c.toNat < 128 ∧ hexVal c = some n ∧ isStrSpace c = false ∧
    c ≠ 's' ∧ c ≠ 'S' := by
  have hc : c.toNat < 128 := toLower_ascii (h ▸ (hexDigit_plain n hn).1)
  have hval := hexVal_ascii c.toNat hc n hn
  have hlike := hexLike_ascii c.toNat hc
  rw [Char.ofNat_toNat] at hval hlike
  have hnone := fun hbad => hlike hbad n hn h
  exact ⟨hc, hval h, Bool.eq_false_iff.mpr fun hs => hnone (.inl hs),
    fun hs => hnone (.inr (.inl hs)),
    fun hs => hnone (.inr (.inr hs))⟩

/-- Hex is read in either case. -/
theorem fromHexChars_lower (ht : t.map Char.toLower = hexChars digest) :
    fromHexChars t = some digest := by
  induction digest generalizing t with
  | nil =>
    obtain rfl : t = [] := List.map_eq_nil_iff.mp ht
    rfl
  | cons x digest ih =>
    have hx := x.toNat_lt
    obtain ⟨a, t, rfl, ha, ht⟩ := List.map_eq_cons_iff.mp ht
    obtain ⟨b, t, rfl, hb, ht⟩ := List.map_eq_cons_iff.mp ht
    obtain ⟨-, hva, -⟩ := hexVal_of_toLower (by omega) ha
    obtain ⟨-, hvb, -⟩ := hexVal_of_toLower (by omega) hb
    have hsum : UInt8.ofNat (16 * (x.toNat / 16) + x.toNat % 16) = x := by
      rw [Nat.div_add_mod, UInt8.ofNat_toNat]
    rw [fromHexChars, if_neg
      (by rw [isAsciiSpace_of_hexVal hva]; exact Bool.false_ne_true), hva, hvb]
    dsimp only
    rw [ih ht, hsum]
    rfl

/-- What a commitment is spelled in. -/
structure Spelled (l : List Char) (digest : Bytes) : Prop where
  lower : l.map Char.toLower = sha256Colon ++ hexChars digest
  plain : ∀ c ∈ l, c.toNat < 128 ∧ isStrSpace c = false
  removed : (removeAll sha256Upper (removeAll sha256Colon l)).map Char.toLower =
    hexChars digest
  drop : fromHexChars (l.drop 7) = some digest

/-- A commitment spells the prefix and the digest, up to case. -/
theorem Commits.spelled (hc : Commits h digest) : Spelled h.toList digest := by
  obtain ⟨t, ht, hspell⟩ := hc
  have hplain : ∀ c ∈ t, c.toNat < 128 ∧ isStrSpace c = false ∧
      c ≠ 's' ∧ c ≠ 'S' := by
    intro c hc
    obtain ⟨n, hn, heq⟩ := hexLike_of_map ht c hc
    obtain ⟨hascii, -, hrest⟩ := hexVal_of_toLower hn heq
    exact ⟨hascii, hrest⟩
  have hs : 's' ∉ t := fun hmem => (hplain _ hmem).2.2.1 rfl
  have hS : 'S' ∉ t := fun hmem => (hplain _ hmem).2.2.2 rfl
  have hremove : removeAll sha256Upper t = t := removeAll_absent hS
  have hremove' : removeAll sha256Colon t = t := removeAll_absent hs
  rcases hspell with hl | hl <;> rw [hl]
  · refine ⟨by rw [List.map_append, ht]; rfl, ?_, ?_, fromHexChars_lower ht⟩
    · refine List.forall_mem_append.mpr ⟨prefix_plain.1,
        fun c hc => ⟨(hplain c hc).1, (hplain c hc).2.1⟩⟩
    · rw [removeAll_needle (by decide), hremove', hremove, ht]
  · refine ⟨by rw [List.map_append, ht]; rfl, ?_, ?_, fromHexChars_lower ht⟩
    · refine List.forall_mem_append.mpr ⟨prefix_plain.2,
        fun c hc => ⟨(hplain c hc).1, (hplain c hc).2.1⟩⟩
    · have hsame : removeAll sha256Colon (sha256Upper ++ t) =
          sha256Upper ++ t := by
        refine removeAll_absent fun hmem => ?_
        rcases List.mem_append.mp hmem with hmem | hmem
        · exact absurd hmem (by decide)
        · exact hs hmem
      rw [hsame, removeAll_needle (by decide), hremove, ht]

theorem Spelled.strip (hl : Spelled l digest) : u.strip l = l :=
  CharTables.strip_of_noSpace fun c hc => by
    rw [CharTables.isSpace, if_pos (hl.plain c hc).1, (hl.plain c hc).2]

/-- Folding it gives the plain spelling. -/
theorem Spelled.lowerCase (hl : Spelled l digest) :
    u.lowerCase l = sha256Colon ++ hexChars digest :=
  (CharTables.lowerCase_ascii fun c hc => (hl.plain c hc).1).trans hl.lower

theorem Spelled.length (hl : Spelled l digest) (hdigest : digest.length = 32) :
    l.length = 71 := by
  have hlen := congrArg List.length hl.lower
  rw [List.length_map, List.length_append, length_hexChars, hdigest] at hlen
  exact hlen

/-- It is parsed to the digest. -/
theorem Commits.parse (hc : Commits h digest) (hdigest : digest.length = 32) :
    parseCekHash u h = .ok digest := by
  have hl := hc.spelled
  have hlen : (h.toList.drop sha256Colon.length).length = 64 := by
    rw [List.length_drop, hl.length hdigest]
    rfl
  have hdrop : fromHexChars (h.toList.drop sha256Colon.length) =
      some digest := hl.drop
  rw [parseCekHash]
  dsimp only
  rw [hl.strip, hl.lowerCase, if_neg (not_not_intro (List.prefix_append _ _)),
    if_neg (not_not_intro hlen), hdrop]

/-- Lower case. -/
def plainCommitment (digest : Bytes) : String :=
  String.ofList (sha256Colon ++ hexChars digest)

theorem commits_plain (digest : Bytes) :
    Commits (plainCommitment digest) digest := by
  have hlower : (hexChars digest).map Char.toLower = hexChars digest := by
    conv_rhs => rw [← List.map_id (hexChars digest)]
    refine List.map_congr_left fun c hc => ?_
    obtain ⟨n, hn, rfl⟩ := hexChars_digits digest c hc
    exact (by decide : ∀ n < 16, (hexDigit n).toLower = hexDigit n) n hn
  exact ⟨hexChars digest, hlower, .inl (String.toList_ofList ..)⟩

/-- A parsed commitment has the prefix, and 64 characters behind it. -/
theorem parse_ok (hparse : parseCekHash u h = .ok digest) :
    sha256Colon <+: u.lowerCase (u.strip h.toList) ∧
    (u.strip h.toList).length = 71 := by
  rw [parseCekHash] at hparse
  dsimp only at hparse
  split at hparse
  · cases hparse
  next hpre =>
    split at hparse
    · cases hparse
    next hlen =>
      rw [List.length_drop] at hlen
      have h7 : sha256Colon.length = 7 := rfl
      exact ⟨not_not.mp hpre, by omega⟩

/-- No hex digit is in front of the prefix. -/
theorem front_nil (hpre : sha256Colon <+: (front ++ rest).map Char.toLower)
    (hfront : ∀ c ∈ front, HexLike c) : front = [] := by
  cases front with
  | nil => rfl
  | cons c front =>
    obtain ⟨n, hn, heq⟩ := hfront c List.mem_cons_self
    have hs : 's' = c.toLower := (List.cons_prefix_cons.mp hpre).1
    exact absurd (hs.trans heq).symm (hexDigit_plain n hn).2.2.2

/-- **Nothing else is read by all.** What can be parsed, and is the digest in
hex once the prefixes are removed, is a commitment in one of the two
spellings. -/
theorem commits_of_reads {d : Bytes} (hu : u.Lawful)
    (hdigest : digest.length = 32) (hparse : parseCekHash u h = .ok d) (hnorm :
      u.lowerCase (removeAll sha256Upper (removeAll sha256Colon h.toList)) =
      hexChars digest) :
    Commits h digest := by
  obtain ⟨hpre, hlen⟩ := parse_ok hparse
  obtain ⟨l, hlist⟩ : ∃ l, h.toList = l := ⟨_, rfl⟩
  rw [hlist] at hpre hlen hnorm
  have hne : sha256Colon ≠ [] := by decide
  have hNE : sha256Upper ≠ [] := by decide
  have hascii : ∀ c ∈ removeAll sha256Upper (removeAll sha256Colon l),
      c.toNat < 128 := by
    refine CharTables.ascii_of_lowerCase hu fun c hc => ?_
    rw [hnorm] at hc
    obtain ⟨n, hn, rfl⟩ := hexChars_digits digest c hc
    exact ⟨(hexDigit_plain n hn).1, (hexDigit_plain n hn).2.1,
      (hexDigit_plain n hn).2.2.1⟩
  rw [CharTables.lowerCase_ascii hascii] at hnorm
  have hlike := hexLike_of_map hnorm
  -- What is not of a prefix is left in the end, and so is a digit.
  have hplain : ∀ c ∈ l, c.toNat < 128 ∧ isStrSpace c = false := by
    intro c hc
    by_cases hs : c ∈ sha256Colon
    · exact prefix_plain.1 c hs
    by_cases hS : c ∈ sha256Upper
    · exact prefix_plain.2 c hS
    obtain ⟨n, hn, heq⟩ :=
      hlike c (mem_removeAll hNE hS (mem_removeAll hne hs hc))
    exact ⟨(hexVal_of_toLower hn heq).1, (hexVal_of_toLower hn heq).2.2.1⟩
  have hstrip : u.strip l = l := CharTables.strip_of_noSpace fun c hc => by
    rw [CharTables.isSpace, if_pos (hplain c hc).1, (hplain c hc).2]
  rw [hstrip] at hlen
  rw [hstrip, CharTables.lowerCase_ascii fun c hc => (hplain c hc).1] at hpre
  have hleft : (removeAll sha256Upper (removeAll sha256Colon l)).length =
      64 := by
    have hmap := congrArg List.length hnorm
    rw [List.length_map, length_hexChars, hdigest] at hmap
    exact hmap
  have hsub := removeAll_sublist sha256Colon l hne
  have h7 : sha256Colon.length = 7 := rfl
  have h7' : sha256Upper.length = 7 := rfl
  rcases removeAll_cases sha256Upper (removeAll sha256Colon l)
    hNE with hsame | ⟨front, rest, hcut, hremoved⟩
  · rw [hsame] at hleft hlike hnorm
    obtain ⟨front, rest, hl, hrest⟩ := removeAll_once hne (by omega : (removeAll
      sha256Colon l).length + sha256Colon.length = l.length)
    rw [hrest] at hlike hnorm
    obtain rfl := front_nil (hl ▸ hpre) fun c hc =>
      hlike c (List.mem_append_left _ hc)
    exact ⟨rest, hnorm, .inl (hlist.trans hl)⟩
  · have hlong : (removeAll sha256Colon l).length = l.length := by
      have hle := hsub.length_le
      have hback := (removeAll_sublist sha256Upper rest hNE).length_le
      have hcut' := congrArg List.length hcut
      rw [hremoved] at hleft
      simp only [List.length_append] at hcut' hleft
      omega
    rw [hsub.eq_of_length hlong] at hleft hlike hnorm
    obtain ⟨front, rest, hl, hrest⟩ := removeAll_once hNE (by omega : (removeAll
      sha256Upper l).length + sha256Upper.length = l.length)
    rw [hrest] at hlike hnorm
    obtain rfl := front_nil (hl ▸ hpre) fun c hc =>
      hlike c (List.mem_append_left _ hc)
    exact ⟨rest, hnorm, .inr (hlist.trans hl)⟩

/-- A commitment is written in lower case. -/
theorem Commits.sha256Prefix (hc : Commits h digest) :
    sha256Prefix u h = plainCommitment digest := by
  have hl := hc.spelled
  have htail : u.lowerCase (h.toList.dropWhile (· != ':')).tail =
      hexChars digest := by
    obtain ⟨t, ht, hspell⟩ := hc
    have hdrop : (h.toList.dropWhile (· != ':')).tail = t := by
      rcases hspell with heq | heq <;> rw [heq] <;> rfl
    rw [hdrop, CharTables.lowerCase_ascii, ht]
    intro c hc
    obtain ⟨n, hn, heq⟩ := hexLike_of_map ht c hc
    exact (hexVal_of_toLower hn heq).1
  rw [Pyrxd.Glyph.sha256Prefix, hl.strip, hl.lowerCase,
    if_pos (List.prefix_append _ _), htail]
  rfl

end Commitments

end Pyrxd.Glyph
