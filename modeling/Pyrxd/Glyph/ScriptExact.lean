import Pyrxd.Glyph.Script
import Pyrxd.Glyph.DmintRoundTrip

/-!
# Which scripts are what

Every classifier of `glyph/script.py` accepts what its builder writes and
nothing else, and no script is of two kinds: a few of its bytes tell the kind
(`frameKind`). The extractors are less exact. `scripts_exact_iff` says on which
byte strings classifiers, builders and extractors agree.
-/

namespace Pyrxd.Glyph

open Pyrxd.Lib Pyrxd.Tx
open Pyrxd.Swap (GlyphRef p2pkhHead p2pkhTail ftHead ftTail buildFtLockingScript
  extractRefFromFtScript)

/-! ## Patterns on the hex of bytes -/

/-- Two hex digits are one byte, also at the front. -/
theorem take_hexChars (s : Bytes) :
    ∀ n, (hexChars s).take (2 * n) = hexChars (s.take n) := by
  induction s with
  | nil =>
    intro n
    rw [hexChars, List.take_nil, List.take_nil]
    rfl
  | cons x s ih =>
    intro n
    cases n with
    | zero => rfl
    | succ n =>
      rw [show 2 * (n + 1) = 2 * n + 1 +
        1 by omega, hexChars, List.take_succ_cons, List.take_succ_cons, ih, List.take_succ_cons]
      rfl

theorem drop_hexChars (s : Bytes) :
    ∀ n, (hexChars s).drop (2 * n) = hexChars (s.drop n) := by
  induction s with
  | nil =>
    intro n
    rw [hexChars, List.drop_nil, List.drop_nil]
    rfl
  | cons x s ih =>
    intro n
    cases n with
    | zero => rfl
    | succ n =>
      rw [show 2 * (n + 1) = 2 * n + 1 +
        1 by omega, hexChars, List.drop_succ_cons, List.drop_succ_cons, ih, List.drop_succ_cons]

theorem hexChars_injective {a b : Bytes}
    (h : hexChars a = hexChars b) : a = b := by
  have hread := congrArg fromHexChars h
  rw [fromHexChars_hexChars, fromHexChars_hexChars] at hread
  exact Option.some.inj hread

/-- A pattern over hex digits matches exactly the bytes that fit it. -/
theorem fullmatchChars_hexChars (p : HexPattern) :
    ∀ s : Bytes, fullmatchChars p (hexChars s) = true ↔ Fits p s := by
  -- item by item: a literal byte, or so many free ones
  induction p with
  | nil =>
    intro s
    cases s with
    | nil => exact ⟨fun _ => rfl, fun _ => rfl⟩
    | cons x s => exact ⟨nofun, nofun⟩
  | cons item p ih =>
    intro s
    cases item with
    | lit b =>
      rw [fullmatchChars, take_hexChars, drop_hexChars, Bool.and_eq_true,
        beq_iff_eq, ih, Fits]
      constructor
      · rintro ⟨htake, hrest⟩
        refine ⟨s.drop b.length, ?_, hrest⟩
        have hsplit := List.take_append_drop b.length s
        rw [hexChars_injective htake] at hsplit
        exact hsplit.symm
      · rintro ⟨t, rfl, hrest⟩
        rw [List.take_left, List.drop_left]
        exact ⟨rfl, hrest⟩
    | digits n =>
      rw [fullmatchChars, take_hexChars, drop_hexChars, Bool.and_eq_true,
        Bool.and_eq_true, beq_iff_eq, Swap.all_hexChars,
        length_hexChars, ih, Fits]
      constructor
      · rintro ⟨⟨hlen, _⟩, hrest⟩
        exact ⟨s.take n,
          s.drop n, by omega, (List.take_append_drop n s).symm, hrest⟩
      · rintro ⟨d, t, rfl, rfl, hrest⟩
        rw [List.take_left, List.drop_left]
        exact ⟨⟨rfl, rfl⟩, hrest⟩

theorem fullmatch_hex {p : HexPattern} {s : Bytes} :
    fullmatch p (hex s) = true ↔ Fits p s := by
  rw [fullmatch, hex, String.toList_ofList]
  exact fullmatchChars_hexChars p s

/-- Hex has no line feed, so `match` and `fullmatch` agree on it. -/
theorem reMatch_hex {p : HexPattern} {s : Bytes} : reMatch p (hex s) = true ↔
    Fits p s := by
  have hlast : ((hex s).toList.getLast? == some '\n') = false := by
    rw [beq_eq_false_iff_ne]
    intro h
    have hspace := noSpace_hex s _ (List.mem_of_getLast? h)
    exact absurd hspace (by decide)
  rw [reMatch, hlast, Bool.false_and, Bool.or_false]
  exact fullmatch_hex

/-- Hex digits are written in lower case. -/
theorem toLower_hexDigit : ∀ n < 16, (hexDigit n).toLower =
    hexDigit n := by decide

/-- So folding written hex changes nothing. -/
theorem toLower_hex (s : Bytes) : (hex s).toLower = hex s := by
  have hchars : (hexChars s).map Char.toLower = hexChars s := by
    induction s with
    | nil => rfl
    | cons x s ih =>
      have hx := x.toNat_lt
      rw [hexChars, List.map_cons, List.map_cons, ih,
        toLower_hexDigit _ (by omega), toLower_hexDigit _ (by omega)]
  rw [← String.toList_inj, toLower_eq_map, String.toList_map, hex,
    String.toList_ofList, hchars]

/-! ## What the classifiers accept -/

/-- The NFT pattern is exactly the NFT frame. -/
theorem isNftScript_hex {s : Bytes} : isNftScript (hex s) = true ↔
    ∃ ref pkh, ref.length = 36 ∧ pkh.length = 20 ∧ s = nftFrame ref pkh := by
  rw [isNftScript, toLower_hex, fullmatch_hex]
  constructor
  · rintro ⟨_, rfl, ref, _, href, rfl, _, rfl, pkh, _, hpkh, rfl, _, rfl, rfl⟩
    exact ⟨ref, pkh, href, hpkh, by simp [nftFrame]⟩
  · rintro ⟨ref, pkh, href, hpkh, rfl⟩
    exact ⟨_, by simp [nftFrame], ref, _, href, rfl, _, rfl, pkh, _, hpkh, rfl, [], rfl, rfl⟩

/-- The bytes of a fungible token's script. -/
def ftFrame (pkh ref : Bytes) : Bytes := p2pkhHead ++ pkh ++ p2pkhTail ++
  (ftHead ++ ref ++ ftTail)

/-- The FT pattern fits exactly the FT frame. -/
theorem fits_ft {s : Bytes} : Fits ftScriptRe s ↔
    ∃ pkh ref, pkh.length = 20 ∧ ref.length = 36 ∧ s = ftFrame pkh ref := by
  constructor
  · rintro ⟨_, rfl, pkh, _, hpkh, rfl, _, rfl, ref, _, href, rfl, _, rfl, rfl⟩
    exact ⟨pkh, ref, hpkh, href, by simp [ftFrame]⟩
  · rintro ⟨pkh, ref, hpkh, href, rfl⟩
    exact ⟨_, by simp [ftFrame], pkh, _, hpkh, rfl, _, rfl, ref, _, href, rfl, [], rfl, rfl⟩

/-- So the FT test accepts exactly it. -/
theorem isFtScript_hex {s : Bytes} : isFtScript (hex s) = true ↔
    ∃ pkh ref, pkh.length = 20 ∧ ref.length = 36 ∧ s = ftFrame pkh ref := by
  rw [isFtScript, toLower_hex, fullmatch_hex, fits_ft]

/-- The commit pattern fits exactly the commit frame. -/
theorem fits_commit {s : Bytes} : Fits commitScriptRe s ↔ ∃ hash refType pkh,
    hash.length = 32 ∧ pkh.length = 20 ∧ s = commitFrame hash refType pkh := by
  constructor
  · rintro ⟨_, rfl, hash, _, hhash, rfl, _, rfl, b, _, hb, rfl, _, rfl, pkh, _,
      hpkh, rfl, _, rfl, rfl⟩
    obtain ⟨refType, rfl⟩ := List.length_eq_one_iff.mp hb
    exact ⟨hash, refType, pkh, hhash, hpkh, by simp [commitFrame]⟩
  · rintro ⟨hash, refType, pkh, hhash, hpkh, rfl⟩
    exact ⟨_, by simp [commitFrame], hash, _, hhash, rfl, _, rfl, [refType], _, rfl,
      rfl, _, rfl, pkh, _, hpkh, rfl, [], rfl, rfl⟩

theorem fits_commitOf {c : UInt8} {s : Bytes} :
    Fits (commitScriptReOf (.lit [c])) s ↔ ∃ hash pkh,
    hash.length = 32 ∧ pkh.length = 20 ∧ s = commitFrame hash c pkh := by
  constructor
  · rintro ⟨_, rfl, hash, _, hhash, rfl, _, rfl, _, rfl, _, rfl, pkh, _, hpkh,
      rfl, _, rfl, rfl⟩
    exact ⟨hash, pkh, hhash, hpkh, by simp [commitFrame]⟩
  · rintro ⟨hash, pkh, hhash, hpkh, rfl⟩
    exact ⟨_, by simp [commitFrame], hash, _, hhash, rfl, _, rfl, _, rfl, _, rfl, pkh,
      _, hpkh, rfl, [], rfl, rfl⟩

/-- The commit test accepts exactly the commit frame. -/
theorem isCommitScript_hex {s : Bytes} : isCommitScript (hex s) = true ↔
    ∃ hash refType pkh,
    hash.length = 32 ∧ pkh.length = 20 ∧ s = commitFrame hash refType pkh := by
  rw [isCommitScript, toLower_hex, fullmatch_hex, fits_commit]

/-- The NFT commit test, the frame of type `OP_2`. -/
theorem isCommitNftScript_hex {s : Bytes} :
    isCommitNftScript (hex s) = true ↔ ∃ hash pkh,
    hash.length = 32 ∧ pkh.length = 20 ∧ s = commitFrame hash 0x52 pkh := by
  rw [isCommitNftScript, toLower_hex, fullmatch_hex, commitScriptNftRe,
    fits_commitOf]

/-- The FT commit test, the frame of type `OP_1`. -/
theorem isCommitFtScript_hex {s : Bytes} :
    isCommitFtScript (hex s) = true ↔ ∃ hash pkh,
    hash.length = 32 ∧ pkh.length = 20 ∧ s = commitFrame hash 0x51 pkh := by
  rw [isCommitFtScript, toLower_hex, fullmatch_hex, commitScriptFtRe,
    fits_commitOf]

/-! ## Slices of the frames -/

/-- A slice at a part's offsets is that part. -/
theorem between_append {a b c : Bytes} {i j : Nat} (hi : a.length = i)
    (hj : i + b.length = j) :
    between (a ++ (b ++ c)) i j = b := by
  rw [between, List.drop_left' hi, List.take_left' (by omega)]

/-- A prefix and the slice behind it are the longer prefix. -/
theorem take_append_between (s : Bytes) {i j : Nat} (h : i ≤ j) :
    s.take i ++ between s i j = s.take j := by
  rw [between, ← List.take_add, Nat.add_sub_cancel' h]

theorem between_one {s : Bytes} {i : Nat} (h : i < s.length) :
    between s i (i + 1) = [s.getD i 0] := by
  rw [between, List.drop_eq_getElem_cons h, Nat.add_sub_cancel_left,
    List.take_succ_cons, List.take_zero, List.getD_eq_getElem _ _ h]

/-- Where the reference stands in an NFT script. -/
theorem between_nft_ref {ref pkh : Bytes} (h : ref.length = 36) :
    between (nftFrame ref pkh) 1 37 = ref := by
  rw [nftFrame, List.append_assoc, List.append_assoc, List.append_assoc]
  exact between_append rfl (by omega)

/-- Where the owner stands in it. -/
theorem between_nft_pkh {ref pkh : Bytes} (href : ref.length = 36)
    (hpkh : pkh.length = 20) :
    between (nftFrame ref pkh) 41 61 = pkh := by
  rw [nftFrame, List.append_assoc]
  refine between_append ?_ (by omega)
  simp only [List.length_append, List.length_cons, List.length_nil, href]

/-- Where the owner stands in an FT script. -/
theorem between_ft_pkh {pkh ref : Bytes} (h : pkh.length = 20) :
    between (ftFrame pkh ref) 3 23 = pkh := by
  rw [ftFrame, List.append_assoc, List.append_assoc]
  exact between_append rfl (by omega)

theorem length_ftFrame {pkh ref : Bytes} (hpkh : pkh.length = 20)
    (href : ref.length = 36) :
    (ftFrame pkh ref).length = 75 := by
  simp only [ftFrame, List.length_append, hpkh, href]
  rfl

theorem between_ft_head {pkh ref : Bytes} (hpkh : pkh.length = 20) :
    between (ftFrame pkh ref) 25 27 = ftHead := by
  rw [ftFrame, List.append_assoc ftHead]
  refine between_append ?_ rfl
  simp only [List.length_append, hpkh]
  rfl

theorem between_ft_ref {pkh ref : Bytes} (hpkh : pkh.length = 20)
    (href : ref.length = 36) :
    between (ftFrame pkh ref) 27 63 = ref := by
  rw [ftFrame, List.append_assoc ftHead, ← List.append_assoc]
  refine between_append ?_ (by omega)
  simp only [List.length_append, hpkh]
  rfl

/-- A commit script is 75 bytes. -/
theorem length_commitFrame {hash pkh : Bytes} {c : UInt8}
    (hhash : hash.length = 32) (hpkh : pkh.length = 20) :
    (commitFrame hash c pkh).length = 75 := by
  simp only [commitFrame, List.length_append, hhash, hpkh]
  rfl

/-- Where the payload hash stands in it. -/
theorem between_commit_hash {hash pkh : Bytes} {c : UInt8}
    (h : hash.length = 32) :
    between (commitFrame hash c pkh) 2 34 = hash := by
  simp only [commitFrame, List.append_assoc]
  exact between_append rfl (by omega)

theorem between_commit_pkh {hash pkh : Bytes} {c : UInt8}
    (hhash : hash.length = 32) (hpkh : pkh.length = 20) :
    between (commitFrame hash c pkh) 53 73 = pkh := by
  rw [commitFrame, List.append_assoc]
  refine between_append ?_ (by omega)
  simp only [List.length_append, hhash]
  rfl

/-- The ref type of a commit script, by its place. -/
theorem getD_commit_refType {hash pkh : Bytes} {c : UInt8}
    (h : hash.length = 32) :
    (commitFrame hash c pkh).getD 48 0 = c := by
  have hfront : ([0xAA, 0x20] ++ hash ++ commitMiddle).length = 48 := by
    simp only [List.length_append, h]
    rfl
  rw [commitFrame, List.append_assoc _ pkh, List.append_assoc _ _ (pkh ++ _),
    List.append_assoc _ [c], List.getD_append_right _ _ _ _ (by omega), hfront]
  rfl

/-! ## Refs and builders -/

/-- Any 36 bytes are read as a reference. -/
theorem exists_spelled {data : Bytes} (h : data.length = 36) :
    ∃ r, GlyphRef.fromBytes data = .ok r := by
  have htxid : Swap.isTxid (hex (data.take 32).reverse) = true :=
    Swap.isTxid_hex (by rw [List.length_reverse, List.length_take]; omega)
  have hvout : leNat (data.drop 32) < 256 ^ 4 := by
    have hlt := leNat_lt (data.drop 32)
    rwa [List.length_drop, h] at hlt
  refine ⟨⟨hex (data.take 32).reverse, leNat (data.drop 32),
    htxid, by omega, by omega⟩, ?_⟩
  rw [GlyphRef.fromBytes, refuseIf, if_neg (not_not.mpr h), ok_bind,
    GlyphRef.make, dif_pos htxid,
    dif_pos ⟨by omega, by omega⟩]

/-- Past the length check the builder goes on. -/
theorem checkHex20_bind_ok {β : Type} {pkh : Bytes}
    {f : Unit → Except PyErr β} {b : β} :
    (checkHex20 pkh >>= f) = .ok b ↔ pkh.length = 20 ∧ f () = .ok b := by
  rw [checkHex20, refuseIf_bind_ok, not_not]

/-- What the NFT builder returns. -/
theorem buildNftLockingScript_ok {pkh s : Bytes} {ref : GlyphRef} :
    buildNftLockingScript pkh ref = .ok s ↔
      pkh.length = 20 ∧ ∃ data, ref.toBytes = .ok data ∧
        s = nftFrame data pkh := by
  rw [buildNftLockingScript, checkHex20_bind_ok]
  refine and_congr_right fun hpkh => ?_
  rw [bind_ok]
  refine exists_congr fun data => and_congr_right fun hdata => ?_
  have hlen : (nftFrame data pkh).length = 63 := by
    simp only [nftFrame, List.length_append, hpkh, (glyphRef_wire hdata).1]
    rfl
  rw [checkLength, if_neg (not_not.mpr hlen), Except.ok.injEq, eq_comm]

/-- What the FT builder returns. -/
theorem buildFtLockingScript_ok {pkh s : Bytes} {ref : GlyphRef} :
    buildFtLockingScript pkh ref = .ok s ↔
      pkh.length = 20 ∧ ∃ data, ref.toBytes = .ok data ∧
        s = ftFrame pkh data := by
  rw [buildFtLockingScript, refuseIf_bind_ok, not_not]
  refine and_congr_right fun hpkh => ?_
  rw [bind_ok]
  refine exists_congr fun data => and_congr_right fun hdata => ?_
  have hlen : (ftFrame pkh data).length = 75 :=
    length_ftFrame hpkh (glyphRef_wire hdata).1
  dsimp only
  rw [show p2pkhHead ++ pkh ++ p2pkhTail ++
    (ftHead ++ data ++ ftTail) = ftFrame pkh data from rfl,
    if_neg (not_not.mpr hlen), pure_eq_ok, Except.ok.injEq, eq_comm]

/-- What the commit builder returns. -/
theorem buildCommitLockingScript_ok {hash pkh s : Bytes} {isNft : Bool} :
    buildCommitLockingScript hash pkh isNft = .ok s ↔
      hash.length = 32 ∧ pkh.length = 20 ∧
        s = commitFrame hash (reftypePush isNft) pkh := by
  rw [buildCommitLockingScript, checkHex20_bind_ok, refuseIf_bind_ok, not_not,
    pure_eq_ok, Except.ok.injEq]
  constructor
  · rintro ⟨hpkh, hhash, rfl⟩
    exact ⟨hhash, hpkh, rfl⟩
  · rintro ⟨hhash, hpkh, rfl⟩
    exact ⟨hpkh, hhash, rfl⟩

/-- A mutable contract is 174 bytes. -/
theorem length_mutableFrame {ref hash : Bytes} (href : ref.length = 36)
    (hhash : hash.length = 32) :
    (mutableFrame ref hash).length = 174 := by
  simp only [mutableFrame, List.length_append, href, hhash]
  rfl

theorem buildMutableNftScript_ok {ref : GlyphRef} {hash s : Bytes} :
    buildMutableNftScript ref hash = .ok s ↔
      hash.length = 32 ∧ ∃ data, ref.toBytes = .ok data ∧
        s = mutableFrame data hash := by
  rw [buildMutableNftScript, refuseIf_bind_ok, not_not]
  refine and_congr_right fun hhash => ?_
  rw [bind_ok]
  refine exists_congr fun data => and_congr_right fun hdata => ?_
  rw [checkLength,
    if_neg (not_not.mpr (length_mutableFrame (glyphRef_wire hdata).1 hhash)),
    Except.ok.injEq, eq_comm]

/-- A mutable NFT script is parsed exactly where its frame is complete. -/
theorem parseMutableNftScript_ok {s hash : Bytes} {ref : GlyphRef} :
    parseMutableNftScript s = .ok (some (ref, hash)) ↔
      hash.length = 32 ∧ ∃ data, GlyphRef.fromBytes data = .ok ref ∧
        s = mutableFrame data hash := by
  unfold parseMutableNftScript
  constructor
  · intro h
    split at h
    · cases h
    · next hlen =>
      split at h
      · cases h
      · next hbytes =>
        split at h
        · cases h
        · next hbody =>
          obtain ⟨r, hr, h⟩ := bind_ok.mp h
          cases h
          rw [not_not] at hlen hbody
          simp only [not_or, not_not] at hbytes
          obtain ⟨h0, h33, h34, h35⟩ := hbytes
          refine ⟨by rw [between, List.length_take,
            List.length_drop]; omega, _, hr, ?_⟩
          have hfront : s.take 36 =
              [0x20] ++ between s 1 33 ++ [0x75, 0xBD, 0xD8] := by
            rw [← take_append_between s (show 35 ≤ 36 by omega),
              ← take_append_between s (show 34 ≤ 35 by omega),
              ← take_append_between s (show 33 ≤ 34 by omega),
                ← take_append_between s (show 1 ≤ 33 by omega),
              ← take_append_between s (show 0 ≤ 1 by omega),
                between_one (by omega), between_one (by omega),
                between_one (by omega), between_one (by omega), h0, h33, h34,
                h35, List.take_zero]
            simp only [List.nil_append, List.append_assoc, List.cons_append]
          rw [mutableFrame, ← hfront, take_append_between s (by omega), ← hbody,
            List.take_append_drop]
  -- the built script passes the parser's three comparisons
  · rintro ⟨hhash, data, hdata, rfl⟩
    have hlen := (Swap.GlyphRef.fromBytes_ok hdata).1
    have hfront : ([0x20] ++ hash).length =
        33 := by rw [List.length_append, hhash]; rfl
    have hat : ∀ k, (mutableFrame data hash).getD (33 + k) 0 =
        ([0x75, 0xBD, 0xD8] ++ (data ++ mutableNftBody)).getD k 0 := by
      intro k
      rw [mutableFrame, List.append_assoc, List.append_assoc,
        List.getD_append_right _ _ _ _ (by omega), hfront,
        Nat.add_sub_cancel_left]
    have hbody : (mutableFrame data hash).drop 72 = mutableNftBody := by
      refine List.drop_left' ?_
      simp only [List.length_append, hhash, hlen]
      rfl
    have href : between (mutableFrame data hash) 36 72 = data := by
      rw [mutableFrame, List.append_assoc]
      refine between_append ?_ (by omega)
      simp only [List.length_append, hhash]
      rfl
    have hhash' : between (mutableFrame data hash) 1 33 = hash := by
      rw [mutableFrame, List.append_assoc, List.append_assoc, List.append_assoc]
      exact between_append rfl (by omega)
    rw [if_neg (not_not.mpr (length_mutableFrame hlen hhash)), if_neg,
      if_neg (not_not.mpr hbody), href, hdata, ok_bind, hhash']
    · rfl
    · simp only [not_or, not_not]
      exact ⟨rfl, hat 0, hat 1, hat 2⟩

/-! ## Kinds of script -/

inductive ScriptKind where
  | nft
  | ft
  | commitNft
  | commitFt
  | mutableNft
  | dmint
deriving DecidableEq

/-- Whether the classifier or parser of this kind takes `s`. -/
def ScriptKind.accepts (s : Bytes) : ScriptKind → Bool
  | nft => isNftScript (hex s)
  | ft => isFtScript (hex s)
  | commitNft => isCommitNftScript (hex s)
  | commitFt => isCommitFtScript (hex s)
  | mutableNft => match parseMutableNftScript s with
    | .ok (some _) => true
    | _ => false
  | dmint => match DmintState.fromScript s with
    | .ok _ => true
    | .error _ => false

/-- The kind a script can be of, by a few of its bytes. -/
def frameKind (s : Bytes) : ScriptKind :=
  if s.getD 0 0 = 0xD8 then .nft
  else if s.getD 0 0 = 0x76 then .ft
  else if s.getD 0 0 = 0xAA then if s.getD 48 0 = 0x52 then .commitNft
    else .commitFt
  else if s.getD 0 0 = 0x20 ∧ s.getD 33 0 = 0x75 then .mutableNft
  else .dmint

/-- The mutable test is the parser's success. -/
theorem accepts_mutableNft {s : Bytes} :
    ScriptKind.mutableNft.accepts s = true ↔
    ∃ ref hash, parseMutableNftScript s = .ok (some (ref, hash)) := by
  rw [ScriptKind.accepts]
  constructor
  · intro h
    split at h
    · next p hp => exact ⟨p.1, p.2, hp⟩
    · cases h
  · rintro ⟨ref, hash, h⟩
    rw [h]

/-- A dMint contract starts with a number, and a contract ref stands behind
it. -/
theorem fromScript_front {s : Bytes} {st : DmintState}
    (h : DmintState.fromScript s = .ok st) :
    s.head? = some 0x04 ∨
      ∃ n c, parseScriptInt ⟨0, s⟩ = .ok (n, c) ∧ c.rest.head? = some 0xD8 := by
  have hparsed : DmintState.fromV2Script s = .ok st ∨
      DmintState.fromV1Script s = .ok st := by
    unfold DmintState.fromScript at h
    split at h
    · next v2 hv2 =>
      split at h
      · cases h
      · exact .inr h
    · exact .inl h
  rcases hparsed with h | h
  · unfold DmintState.fromV2Script DmintState.fromV2ScriptWith at h
    obtain ⟨⟨n, c⟩, hn, h⟩ := bind_ok.mp h
    obtain ⟨⟨ref, c'⟩, href, _⟩ := bind_ok.mp h
    rw [parseRef] at href
    obtain ⟨hhead, _⟩ := refuseIf_bind_ok.mp href
    exact .inr ⟨n, c, hn, not_not.mp hhead⟩
  · unfold DmintState.fromV1Script at h
    obtain ⟨⟨n, c⟩, hn, _⟩ := bind_ok.mp h
    rw [parseFixed] at hn
    obtain ⟨hhead, _⟩ := refuseIf_bind_ok.mp hn
    exact .inl (not_not.mp hhead)

/-- A script with a dMint state is classified as that. -/
theorem frameKind_dmint {s : Bytes} {st : DmintState}
    (h : DmintState.fromScript s = .ok st) :
    frameKind s = .dmint := by
  have hfront := fromScript_front h
  cases s with
  | nil => rcases hfront with h | ⟨n, c, h, _⟩ <;> cases h
  | cons op rest =>
    -- none of the opcodes that open the other frames pushes a number
    have hop : op ≠ 0xD8 ∧ op ≠ 0x76 ∧ op ≠ 0xAA := by
      refine ⟨?_, ?_, ?_⟩ <;>
      · rintro rfl
        rcases hfront with h | ⟨n, c, h, _⟩ <;> cases h
    have hmutable : ¬ (op = 0x20 ∧ (op :: rest).getD 33 0 = 0x75) := by
      rintro ⟨rfl, h33⟩
      rcases hfront with h | ⟨n, c, h, hc⟩
      · cases h
      · have hread : parseScriptInt ⟨0, 0x20 :: rest⟩ =
            if (rest.take 32).length ≠ 32 then
            invalid ("DmintState.from_script: direct push underrun: need " ++
              toString (32 : Nat) ++ ", got " ++ toString (rest.take 32).length)
            else .ok (decodeScriptLeInt (rest.take 32),
                ⟨33, rest.drop 32⟩) := rfl
        rw [hread] at h
        split at h
        · cases h
        · cases h
          have hat : rest.getD 32 0 = 0x75 := h33
          rw [List.head?_drop] at hc
          rw [List.getD_eq_getElem?_getD, hc] at hat
          cases hat
    have h0 : (op :: rest).getD 0 0 = op := rfl
    rw [frameKind, h0, if_neg hop.1, if_neg hop.2.1, if_neg hop.2.2,
      if_neg hmutable]

/-- A script is accepted as at most one kind. -/
theorem frameKind_of_accepts {s : Bytes} {k : ScriptKind}
    (h : k.accepts s = true) : frameKind s = k := by
  cases k with
  | nft =>
    obtain ⟨ref, pkh, _, _, rfl⟩ := isNftScript_hex.mp h
    rfl
  | ft =>
    obtain ⟨pkh, ref, _, _, rfl⟩ := isFtScript_hex.mp h
    rfl
  | commitNft =>
    obtain ⟨hash, pkh, hhash, _, rfl⟩ := isCommitNftScript_hex.mp h
    have h48 : (commitFrame hash 0x52 pkh).getD 48 0 = 0x52 :=
      getD_commit_refType hhash
    have h0 : (commitFrame hash 0x52 pkh).getD 0 0 = 0xAA := rfl
    rw [frameKind, h0, h48]
    rfl
  | commitFt =>
    obtain ⟨hash, pkh, hhash, _, rfl⟩ := isCommitFtScript_hex.mp h
    have h48 : (commitFrame hash 0x51 pkh).getD 48 0 = 0x51 :=
      getD_commit_refType hhash
    have h0 : (commitFrame hash 0x51 pkh).getD 0 0 = 0xAA := rfl
    rw [frameKind, h0, h48]
    rfl
  | mutableNft =>
    obtain ⟨ref, hash, h⟩ := accepts_mutableNft.mp h
    obtain ⟨hhash, data, _, rfl⟩ := parseMutableNftScript_ok.mp h
    have h33 : (mutableFrame data hash).getD 33 0 = 0x75 := by
      have hfront : ([0x20] ++ hash).length =
          33 := by rw [List.length_append, hhash]; rfl
      rw [mutableFrame, List.append_assoc, List.append_assoc,
        List.getD_append_right _ _ _ _ (by omega), hfront]
      rfl
    have h0 : (mutableFrame data hash).getD 0 0 = 0x20 := rfl
    rw [frameKind, h0, h33]
    rfl
  | dmint =>
    rw [ScriptKind.accepts] at h
    split at h
    · next st hst => exact frameKind_dmint hst
    · cases h

/-! ## What the extractors take -/

/-- Twenty bytes pass the hash check. -/
theorem between_hex20 {s : Bytes} {i j : Nat} (hj : j ≤ s.length)
    (hi : i + 20 = j) :
    hex20 (between s i j) = .ok (between s i j) := by
  have hlen : (between s i j).length = 20 := by
    rw [between, List.length_take, List.length_drop]
    omega
  exact checkHex20_bind_ok.mpr ⟨hlen, rfl⟩

/-- What the NFT reference extractor asks. -/
theorem extractRefFromNftScript_ok {s : Bytes} {r : GlyphRef} :
    extractRefFromNftScript s = .ok r ↔
      (s.length = 63 ∧ s.head? = some 0xD8) ∧
        GlyphRef.fromBytes (between s 1 37) = .ok r := by
  rw [extractRefFromNftScript, refuseIf_bind_ok]
  simp only [not_or, not_not]

/-- What the NFT owner extractor asks. -/
theorem extractOwnerPkhFromNftScript_ok {s pkh : Bytes} :
    extractOwnerPkhFromNftScript s = .ok pkh ↔
      (s.length = 63 ∧ s.head? = some 0xD8) ∧ pkh = between s 41 61 := by
  rw [extractOwnerPkhFromNftScript, refuseIf_bind_ok]
  simp only [not_or, not_not]
  refine and_congr_right fun hs => ?_
  rw [between_hex20 (by omega) rfl, Except.ok.injEq, eq_comm]

/-- What the FT reference extractor asks. -/
theorem extractRefFromFtScript_ok {s : Bytes} {r : GlyphRef} :
    extractRefFromFtScript s = .ok r ↔
      (s.length = 75 ∧ between s 25 27 = ftHead) ∧
        GlyphRef.fromBytes (between s 27 63) = .ok r := by
  rw [extractRefFromFtScript, refuseIf_bind_ok]
  simp only [not_or, not_not]
  rfl

/-- What the FT owner extractor asks. -/
theorem extractOwnerPkhFromFtScript_ok {s pkh : Bytes} :
    extractOwnerPkhFromFtScript s = .ok pkh ↔
    (s.length = 75 ∧ Fits ftScriptRe s) ∧ pkh = between s 3 23 := by
  rw [extractOwnerPkhFromFtScript, refuseIf_bind_ok]
  simp only [not_or, not_not, Bool.not_eq_false, reMatch_hex]
  refine and_congr_right fun hs => ?_
  rw [between_hex20 (by omega) rfl, Except.ok.injEq, eq_comm]

/-- What the payload hash extractor asks. -/
theorem extractPayloadHashFromCommitScript_ok {s hash : Bytes} :
    extractPayloadHashFromCommitScript s = .ok hash ↔
      (s.length = 75 ∧ Fits commitScriptRe s) ∧ hash = between s 2 34 := by
  rw [extractPayloadHashFromCommitScript, refuseIf_bind_ok]
  simp only [not_or, not_not, Bool.not_eq_false, reMatch_hex]
  refine and_congr_right fun _ => ?_
  rw [pure_eq_ok, Except.ok.injEq, eq_comm]

/-- What the commit owner extractor asks. -/
theorem extractOwnerPkhFromCommitScript_ok {s pkh : Bytes} :
    extractOwnerPkhFromCommitScript s = .ok pkh ↔
      (s.length = 75 ∧ Fits commitScriptRe s) ∧ pkh = between s 53 73 := by
  rw [extractOwnerPkhFromCommitScript, refuseIf_bind_ok]
  simp only [not_or, not_not, Bool.not_eq_false, reMatch_hex]
  refine and_congr_right fun hs => ?_
  rw [between_hex20 (by omega) rfl, Except.ok.injEq, eq_comm]

/-! ## Where everything agrees -/

/-- Two extractors succeed where the classifier accepts and nowhere else, on
what was built. -/
structure Extracts {α β : Type} (accepted : Prop) (first : Except PyErr α)
    (second : Except PyErr β)
    (built : α → β → Prop) : Prop where
  first_only : ∀ a, first = .ok a → accepted
  second_only : ∀ b, second = .ok b → accepted
  returned : accepted → ∃ a b, first = .ok a ∧ second = .ok b ∧ built a b

/-- What classifiers, builders and extractors promise of `s`. -/
structure ScriptsExact (s : Bytes) : Prop where
  disjoint : ∀ k j : ScriptKind, k.accepts s = true → j.accepts s = true → k = j
  nft : ScriptKind.nft.accepts s = true ↔
    ∃ pkh ref, buildNftLockingScript pkh ref = .ok s
  ft : ScriptKind.ft.accepts s = true ↔
    ∃ pkh ref, buildFtLockingScript pkh ref = .ok s
  commitNft : ScriptKind.commitNft.accepts s = true ↔
    ∃ hash pkh, buildCommitLockingScript hash pkh true = .ok s
  commitFt : ScriptKind.commitFt.accepts s = true ↔
    ∃ hash pkh, buildCommitLockingScript hash pkh false = .ok s
  mutableNft : ScriptKind.mutableNft.accepts s = true ↔
    ∃ ref hash, buildMutableNftScript ref hash = .ok s
  commit : isCommitScript (hex s) = true ↔
    ScriptKind.commitNft.accepts s = true ∨ ScriptKind.commitFt.accepts s = true
  nftFields : Extracts (ScriptKind.nft.accepts s = true)
    (extractRefFromNftScript s)
    (extractOwnerPkhFromNftScript s) fun ref pkh =>
      buildNftLockingScript pkh ref = .ok s
  ftFields : Extracts (ScriptKind.ft.accepts s = true)
    (extractRefFromFtScript s)
    (extractOwnerPkhFromFtScript s) fun ref pkh =>
      buildFtLockingScript pkh ref = .ok s
  commitFields :
    Extracts (ScriptKind.commitNft.accepts s = true ∨
      ScriptKind.commitFt.accepts s = true) (extractPayloadHashFromCommitScript
      s) (extractOwnerPkhFromCommitScript s) fun hash pkh =>
        (ScriptKind.commitNft.accepts s = true →
          buildCommitLockingScript hash pkh true = .ok s) ∧
        (ScriptKind.commitFt.accepts s = true →
          buildCommitLockingScript hash pkh false = .ok s)
  mutableFields : ∀ ref hash, parseMutableNftScript s = .ok (some (ref, hash)) →
    buildMutableNftScript ref hash = .ok s

/-- A script that passes a partial check and is not of the kind it is checked
for. -/
inductive NearMiss (s : Bytes) : Prop where
  /-- 63 bytes behind `d8` that are no NFT script. -/
  | nft (len : s.length = 63) (head : s.head? = some 0xD8)
      (frame : ¬ ∃ ref pkh, ref.length = 36 ∧ pkh.length = 20 ∧
        s = nftFrame ref pkh)
  /-- 75 bytes around `bdd0` that are no FT script. -/
  | ft (len : s.length = 75) (head : between s 25 27 = ftHead)
      (frame : ¬ ∃ pkh ref, pkh.length = 20 ∧ ref.length = 36 ∧
        s = ftFrame pkh ref)
  /-- A commit script that asks for neither a normal nor a singleton ref. -/
  | refType (hash pkh : Bytes) (c : UInt8) (hhash : hash.length = 32)
      (hpkh : pkh.length = 20)
      (frame : s = commitFrame hash c pkh) (nft : c ≠ 0x52) (ft : c ≠ 0x51)

section Exact

variable {s : Bytes}

/-- What is accepted as an NFT was built as one. -/
theorem nft_built : ScriptKind.nft.accepts s = true ↔
    ∃ pkh ref, buildNftLockingScript pkh ref = .ok s := by
  rw [ScriptKind.accepts, isNftScript_hex]
  constructor
  · rintro ⟨data, pkh, hdata, hpkh, rfl⟩
    obtain ⟨r, hr⟩ := exists_spelled hdata
    exact ⟨pkh, r, buildNftLockingScript_ok.mpr ⟨hpkh, data,
      Swap.GlyphRef.Spelled.toBytes hr, rfl⟩⟩
  · rintro ⟨pkh, r, h⟩
    obtain ⟨hpkh, data, hdata, rfl⟩ := buildNftLockingScript_ok.mp h
    exact ⟨data, pkh, (glyphRef_wire hdata).1, hpkh, rfl⟩

/-- What is accepted as an FT was built as one. -/
theorem ft_built : ScriptKind.ft.accepts s = true ↔
    ∃ pkh ref, buildFtLockingScript pkh ref = .ok s := by
  rw [ScriptKind.accepts, isFtScript_hex]
  constructor
  · rintro ⟨pkh, data, hpkh, hdata, rfl⟩
    obtain ⟨r, hr⟩ := exists_spelled hdata
    exact ⟨pkh, r, buildFtLockingScript_ok.mpr ⟨hpkh, data,
      Swap.GlyphRef.Spelled.toBytes hr, rfl⟩⟩
  · rintro ⟨pkh, r, h⟩
    obtain ⟨hpkh, data, hdata, rfl⟩ := buildFtLockingScript_ok.mp h
    exact ⟨pkh, data, hpkh, (glyphRef_wire hdata).1, rfl⟩

/-- What is accepted as an NFT commit was built as one. -/
theorem commitNft_built : ScriptKind.commitNft.accepts s = true ↔
    ∃ hash pkh, buildCommitLockingScript hash pkh true = .ok s := by
  rw [ScriptKind.accepts, isCommitNftScript_hex]
  simp only [buildCommitLockingScript_ok]
  rfl

/-- What is accepted as an FT commit was built as one. -/
theorem commitFt_built : ScriptKind.commitFt.accepts s = true ↔
    ∃ hash pkh, buildCommitLockingScript hash pkh false = .ok s := by
  rw [ScriptKind.accepts, isCommitFtScript_hex]
  simp only [buildCommitLockingScript_ok]
  rfl

/-- What the mutable parser returns builds the script again. -/
theorem mutableNft_parsed {ref : GlyphRef} {hash : Bytes}
    (h : parseMutableNftScript s = .ok (some (ref, hash))) :
    buildMutableNftScript ref hash = .ok s := by
  obtain ⟨hhash, data, hdata, rfl⟩ := parseMutableNftScript_ok.mp h
  exact buildMutableNftScript_ok.mpr ⟨hhash, data,
    Swap.GlyphRef.Spelled.toBytes hdata, rfl⟩

/-- What is accepted as mutable was built as such. -/
theorem mutableNft_built : ScriptKind.mutableNft.accepts s = true ↔
    ∃ ref hash, buildMutableNftScript ref hash = .ok s := by
  rw [accepts_mutableNft]
  constructor
  · rintro ⟨ref, hash, h⟩
    exact ⟨ref, hash, mutableNft_parsed h⟩
  · rintro ⟨ref, hash, h⟩
    obtain ⟨hhash, data, hdata, rfl⟩ := buildMutableNftScript_ok.mp h
    obtain ⟨-, r, hr, -⟩ := glyphRef_wire hdata
    exact ⟨r, hash, parseMutableNftScript_ok.mpr ⟨hhash, data, hr, rfl⟩⟩

/-- Away from a near miss the NFT extractors agree with the classifier. -/
theorem nft_extracts (h : ¬ NearMiss s) :
    Extracts (ScriptKind.nft.accepts s = true)
    (extractRefFromNftScript s) (extractOwnerPkhFromNftScript s)
    fun ref pkh => buildNftLockingScript pkh ref = .ok s := by
  have honly : s.length = 63 ∧ s.head? = some 0xD8 →
      ScriptKind.nft.accepts s = true := by
    rintro ⟨hlen, hhead⟩
    rw [ScriptKind.accepts, isNftScript_hex]
    by_contra hno
    exact h (.nft hlen hhead hno)
  refine ⟨fun r hr => honly (extractRefFromNftScript_ok.mp hr).1,
    fun pkh hpkh => honly (extractOwnerPkhFromNftScript_ok.mp hpkh).1,
      fun hacc => ?_⟩
  obtain ⟨data, pkh, hdata, hpkh, rfl⟩ := isNftScript_hex.mp hacc
  have hshape : (nftFrame data pkh).length = 63 ∧
      (nftFrame data pkh).head? = some 0xD8 := by
    refine ⟨?_, rfl⟩
    simp only [nftFrame, List.length_append, hdata, hpkh]
    rfl
  obtain ⟨r, hr⟩ := exists_spelled hdata
  refine ⟨r, pkh, extractRefFromNftScript_ok.mpr ⟨hshape, ?_⟩,
    extractOwnerPkhFromNftScript_ok.mpr ⟨hshape,
      (between_nft_pkh hdata hpkh).symm⟩,
    buildNftLockingScript_ok.mpr ⟨hpkh, data,
      Swap.GlyphRef.Spelled.toBytes hr, rfl⟩⟩
  rw [between_nft_ref hdata]
  exact hr

theorem ft_extracts (h : ¬ NearMiss s) :
    Extracts (ScriptKind.ft.accepts s = true)
    (extractRefFromFtScript s) (extractOwnerPkhFromFtScript s)
    fun ref pkh => buildFtLockingScript pkh ref = .ok s := by
  refine ⟨fun r hr => ?_, fun pkh hpkh => ?_, fun hacc => ?_⟩
  · obtain ⟨⟨hlen, hhead⟩, _⟩ := extractRefFromFtScript_ok.mp hr
    rw [ScriptKind.accepts, isFtScript_hex]
    by_contra hno
    exact h (.ft hlen hhead hno)
  · obtain ⟨⟨_, hfits⟩, _⟩ := extractOwnerPkhFromFtScript_ok.mp hpkh
    exact isFtScript_hex.mpr (fits_ft.mp hfits)
  · have hfits := fits_ft.mpr (isFtScript_hex.mp hacc)
    obtain ⟨pkh, data, hpkh, hdata, rfl⟩ := isFtScript_hex.mp hacc
    obtain ⟨r, hr⟩ := exists_spelled hdata
    refine ⟨r, pkh, extractRefFromFtScript_ok.mpr
      ⟨⟨length_ftFrame hpkh hdata, between_ft_head hpkh⟩, ?_⟩,
      extractOwnerPkhFromFtScript_ok.mpr ⟨⟨length_ftFrame hpkh hdata, hfits⟩,
      (between_ft_pkh hpkh).symm⟩, buildFtLockingScript_ok.mpr ⟨hpkh, data,
      Swap.GlyphRef.Spelled.toBytes hr, rfl⟩⟩
    rw [between_ft_ref hpkh hdata]
    exact hr

/-- Away from near misses a commit pattern is one of the two commit kinds. -/
theorem commit_kind (h : ¬ NearMiss s) (hfits : Fits commitScriptRe s) :
    ScriptKind.commitNft.accepts s = true ∨
    ScriptKind.commitFt.accepts s = true := by
  obtain ⟨hash, c, pkh, hhash, hpkh, rfl⟩ := fits_commit.mp hfits
  by_cases hnft : c = 0x52
  · subst hnft
    exact .inl (isCommitNftScript_hex.mpr ⟨hash, pkh, hhash, hpkh, rfl⟩)
  · by_cases hft : c = 0x51
    · subst hft
      exact .inr (isCommitFtScript_hex.mpr ⟨hash, pkh, hhash, hpkh, rfl⟩)
    · exact absurd (.refType hash pkh c hhash hpkh rfl hnft hft) h

/-- What either commit kind comes from. -/
theorem commit_parts (h : ScriptKind.commitNft.accepts s = true ∨
      ScriptKind.commitFt.accepts s = true) :
    ∃ hash c pkh, hash.length = 32 ∧ pkh.length = 20 ∧
    s = commitFrame hash c pkh := by
  rcases h with h | h
  · obtain ⟨hash, pkh, hhash, hpkh, hs⟩ := isCommitNftScript_hex.mp h
    exact ⟨hash, 0x52, pkh, hhash, hpkh, hs⟩
  · obtain ⟨hash, pkh, hhash, hpkh, hs⟩ := isCommitFtScript_hex.mp h
    exact ⟨hash, 0x51, pkh, hhash, hpkh, hs⟩

theorem commit_extracts (h : ¬ NearMiss s) :
    Extracts (ScriptKind.commitNft.accepts s = true ∨
      ScriptKind.commitFt.accepts s = true)
      (extractPayloadHashFromCommitScript s)
      (extractOwnerPkhFromCommitScript s) fun hash pkh =>
        (ScriptKind.commitNft.accepts s = true →
          buildCommitLockingScript hash pkh true = .ok s) ∧
        (ScriptKind.commitFt.accepts s = true →
            buildCommitLockingScript hash pkh false = .ok s) := by
  refine ⟨fun hash hh =>
    commit_kind h (extractPayloadHashFromCommitScript_ok.mp hh).1.2,
    fun pkh hh => commit_kind h (extractOwnerPkhFromCommitScript_ok.mp hh).1.2,
      fun hacc => ?_⟩
  obtain ⟨hash, c, pkh, hhash, hpkh, hs⟩ := commit_parts hacc
  -- away from a near miss what fits the pattern is one of the two commits
  have hfits : Fits commitScriptRe s :=
    fits_commit.mpr ⟨hash, c, pkh, hhash, hpkh, hs⟩
  have hlen : s.length = 75 := by
    rw [hs]
    exact length_commitFrame hhash hpkh
  have hat : s.getD 48 0 = c := by
    rw [hs]
    exact getD_commit_refType hhash
  refine ⟨hash, pkh, extractPayloadHashFromCommitScript_ok.mpr ⟨⟨hlen, hfits⟩,
    ?_⟩, extractOwnerPkhFromCommitScript_ok.mpr ⟨⟨hlen, hfits⟩, ?_⟩,
    fun hnft => ?_, fun hft => ?_⟩
  · rw [hs, between_commit_hash hhash]
  · rw [hs, between_commit_pkh hhash hpkh]
  · obtain ⟨hash', pkh', hhash', _, hs'⟩ := isCommitNftScript_hex.mp hnft
    rw [hs', getD_commit_refType hhash'] at hat
    rw [buildCommitLockingScript_ok, hs, ← hat]
    exact ⟨hhash, hpkh, rfl⟩
  · obtain ⟨hash', pkh', hhash', _, hs'⟩ := isCommitFtScript_hex.mp hft
    rw [hs', getD_commit_refType hhash'] at hat
    rw [buildCommitLockingScript_ok, hs, ← hat]
    exact ⟨hhash, hpkh, rfl⟩

end Exact

/-- Classifiers, builders and extractors agree on a byte string exactly when it
is not a near miss: two extractors check less than the pattern, and
`is_commit_script` accepts any ref type. -/
theorem scripts_exact_iff (s : Bytes) : ScriptsExact s ↔ ¬ NearMiss s := by
  constructor
  · rintro h (⟨hlen, hhead, hno⟩ | ⟨hlen, hhead, hno⟩ | ⟨hash, pkh, c, hhash,
      hpkh, rfl, hnft, hft⟩)
    · have hpkh := extractOwnerPkhFromNftScript_ok.mpr ⟨⟨hlen, hhead⟩, rfl⟩
      exact hno (isNftScript_hex.mp (h.nftFields.second_only _ hpkh))
    · obtain ⟨r, hr⟩ : ∃ r, GlyphRef.fromBytes (between s 27 63) = .ok r := by
        refine exists_spelled ?_
        rw [between, List.length_take, List.length_drop]
        omega
      have href := extractRefFromFtScript_ok.mpr ⟨⟨hlen, hhead⟩, hr⟩
      exact hno (isFtScript_hex.mp (h.ftFields.first_only _ href))
    · have hcommit := isCommitScript_hex.mpr ⟨hash, c, pkh, hhash, hpkh, rfl⟩
      have hat : (commitFrame hash c pkh).getD 48 0 = c :=
        getD_commit_refType hhash
      rcases h.commit.mp hcommit with hacc | hacc
      · obtain ⟨hash', pkh', hhash', _, hs⟩ := isCommitNftScript_hex.mp hacc
        rw [hs, getD_commit_refType hhash'] at hat
        exact hnft hat.symm
      · obtain ⟨hash', pkh', hhash', _, hs⟩ := isCommitFtScript_hex.mp hacc
        rw [hs, getD_commit_refType hhash'] at hat
        exact hft hat.symm
  · intro h
    refine ⟨fun k j hk hj => ?_, nft_built, ft_built, commitNft_built,
      commitFt_built, mutableNft_built, ?_, nft_extracts h, ft_extracts h,
      commit_extracts h, fun ref hash => mutableNft_parsed⟩
    · rw [← frameKind_of_accepts hk, frameKind_of_accepts hj]
    · rw [isCommitScript_hex]
      constructor
      · exact fun hparts => commit_kind h (fits_commit.mpr hparts)
      · exact commit_parts

/-- 63 bytes behind `d8`, all zero. -/
def bareNft : Bytes := 0xD8 :: List.replicate 62 0

/-- An extractor reads a ref and an owner out of a script that is no NFT
script. -/
theorem scripts_inexact_bareNft : ¬ ScriptsExact bareNft := by
  intro h
  have howner : extractOwnerPkhFromNftScript bareNft =
      .ok (between bareNft 41 61) :=
    extractOwnerPkhFromNftScript_ok.mpr ⟨⟨rfl, rfl⟩, rfl⟩
  obtain ⟨ref, pkh, href, hpkh, hs⟩ :=
    isNftScript_hex.mp (h.nftFields.second_only _ howner)
  have htail : (nftFrame ref pkh).drop 61 = [0x88, 0xAC] := by
    refine List.drop_left' ?_
    simp only [List.length_append, href, hpkh]
    rfl
  rw [← hs] at htail
  exact absurd htail (by decide)

end Pyrxd.Glyph
