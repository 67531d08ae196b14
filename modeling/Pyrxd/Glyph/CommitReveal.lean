import Pyrxd.Glyph.MutableReveal

/-!
# What is committed can be revealed

The spends a commit script accepts, and from them which metadata can be revealed
once it is committed (`commit_revealable_iff`): `prepare_commit` chooses the ref
type by one rule, `prepare_reveal` checks it by another, and only the second one
looks at the size of the payload.
-/

namespace Pyrxd.Glyph

open Pyrxd.Lib Pyrxd.Tx

/-! ## The commit script -/

section Commit

variable {ctx : SpendCtx} {hash pkh cbor marker key signature : Bytes}
  {code : UInt8} {n : Int} {s : List Bytes}

/-- The payload part demands the committed payload behind the `gly` marker. -/
theorem line_payloadCode : Machine.line (spendOp ctx) (payloadCode hash)
    (cbor :: marker :: s) =
    require (hash256 cbor = hash ∧ marker = glyMarker) s := by
  rw [payloadCode, Machine.line_op, spendOp_hash256, Option.bind_some,
    Machine.line_data, Machine.line_op, spendOp_equalVerify, require]
  by_cases hhash : hash256 cbor = hash
  · rw [if_pos hhash, Option.bind_some, Machine.line_data, Machine.line_op,
      spendOp_equalVerify]
    simp only [hhash, true_and]
    split <;> rfl
  · rw [if_neg hhash, if_neg fun h => hhash h.1]
    rfl

/-- The ref of the outpoint that is spent, as the commit script puts it
together. -/
def ownRef (ctx : SpendCtx) : Bytes :=
  ctx.spent.txid ++ leBytes 4 ctx.spent.vout

theorem length_ownRef : (ownRef ctx).length = 36 := by
  rw [ownRef, List.length_append, ctx.spent.sized.1, length_leBytes]

/-- The code up to the ref. An index of more than 31 bits does not fit four
bytes with its sign. -/
theorem line_ownRef {ts : List Chunk} : Machine.line (spendOp ctx)
    ([.op 0xC0, .op 0xC8, .op 0xC0, .op 0xC9, .op 0x54, .op 0x80,
      .op 0x7E] ++ ts) s =
      if ctx.spent.vout < 2 ^ 31 then Machine.line (spendOp ctx) ts
        (ownRef ctx :: s) else none := by
  have hfour : NumRange 4 := by decide
  have hlen := length_scriptNum_le ctx.spent.vout 3
  rw [Machine.line_append, Machine.line_op, spendOp_ownIndex, Option.bind_some,
    Machine.line_op, spendOp_ownTxid, Option.bind_some, Machine.line_op,
    spendOp_ownIndex, Option.bind_some, Machine.line_op, spendOp_ownVout,
    Option.bind_some, Machine.line_op, spendOp_four, Option.bind_some,
    Machine.line_op, spendOp_num2bin, readNum_scriptNum _ hfour,
    Option.bind_some, if_neg (by decide)]
  by_cases hvout : ctx.spent.vout < 2 ^ 31
  · have hfits : (scriptNum (ctx.spent.vout : Int)).length ≤ 4 :=
      hlen.mpr (by omega)
    rw [if_pos hvout, show (4 : Int).toNat = 4 from rfl, num2bin_natCast hfits]
    rfl
  · have hlong : 4 < (scriptNum (ctx.spent.vout : Int)).length := by
      rw [← Nat.not_le, hlen]
      omega
    rw [if_neg hvout, show (4 : Int).toNat = 4 from rfl, num2bin_none hlong]
    rfl

/-- The reference part demands that the transaction carries the commit's own
outpoint in the wanted way. -/
theorem line_refTypeCode (hcode : ∀ s, spendOp ctx code s = some (scriptNum n ::
      s)) (hn : NumRange n) : Machine.line (spendOp ctx) (refTypeCode code) s =
      require (ctx.spent.vout < 2 ^ 31 ∧ ctx.refType (ownRef ctx) = n) s := by
  have hsplit : refTypeCode code = [.op 0xC0, .op 0xC8, .op 0xC0, .op 0xC9,
    .op 0x54, .op 0x80, .op 0x7E] ++
      [.op 0xDA, .op code, .op 0x9D] := rfl
  rw [hsplit, line_ownRef, require]
  by_cases hvout : ctx.spent.vout < 2 ^ 31
  · rw [if_pos hvout, Machine.line_op, spendOp_refType length_ownRef,
      Option.bind_some, Machine.line_op, hcode, Option.bind_some,
      Machine.line_op, spendOp_numEqualVerify numRange_refType hn, require]
    simp only [hvout, true_and]
    split <;> rfl
  · rw [if_neg hvout, if_neg fun h => hvout h.1]

/-- The ref type a commit asks for. -/
def reftypeOf (isNft : Bool) : Int := if isNft then 2 else 1

theorem spendOp_reftypePush (isNft : Bool) (s : List Bytes) :
    spendOp ctx (reftypePush isNft) s = some
      (scriptNum (reftypeOf isNft) :: s) := by
  cases isNft <;> rfl

/-- The commit script has no branch. -/
theorem straight_commitCode (isNft : Bool) :
    ∀ t ∈ commitCode hash (reftypePush isNft) pkh, Machine.Straight t := by
  have htype :
      Machine.Straight (.op (reftypePush isNft)) := by cases isNft <;> decide
  rw [commitCode, List.forall_mem_append, List.forall_mem_append]
  simp only [payloadCode, refTypeCode, p2pkhCode, List.forall_mem_cons]
  refine ⟨⟨by decide, trivial, by decide, trivial, by decide, List.forall_mem_nil _⟩,
    ⟨by decide, by decide,
    by decide, by decide, by decide, by decide, by decide, by decide, htype, by decide, List.forall_mem_nil _⟩,
    ⟨by decide, by decide, trivial, by decide, by decide, List.forall_mem_nil _⟩⟩

/-- What a spend of a commit with these items on its stack must be. -/
structure CommitSpend (ctx : SpendCtx) (hash pkh : Bytes) (isNft : Bool)
    (cbor marker key signature : Bytes) :
    Prop where
  payload : hash256 cbor = hash ∧ marker = glyMarker
  carried : ctx.spent.vout < 2 ^ 31 ∧ ctx.refType (ownRef ctx) = reftypeOf isNft
  signed : ctx.hash160 key = pkh ∧ ctx.checkSig signature key = true

/-- **The commit script accepts exactly these spends.** -/
theorem commit_accepts (isNft : Bool) (hhash : hash.length = 32)
    (hpkh : pkh.length = 20) :
    Machine.AcceptsClean (spendOp ctx)
      (commitFrame hash (reftypePush isNft) pkh)
      [cbor, marker, key, signature] ↔
    CommitSpend ctx hash pkh isNft cbor marker key signature := by
  have htype : (Chunk.op (reftypePush isNft)).Ok := by cases isNft <;> decide
  have hn : NumRange (reftypeOf isNft) := by cases isNft <;> decide
  rw [← commitCode_bytes hhash hpkh, Machine.AcceptsClean,
    Machine.run_does (commitCode_ok htype hhash hpkh)
    (Machine.does_line (straight_commitCode isNft)), commitCode,
    Machine.line_append, line_payloadCode, require]
  -- the three demands in the script's order: payload, reference, owner
  by_cases hpayload : hash256 cbor = hash ∧ marker = glyMarker
  · rw [if_pos hpayload, Option.bind_some, Machine.line_append,
      line_refTypeCode (spendOp_reftypePush isNft) hn, require]
    by_cases hcarried : ctx.spent.vout < 2 ^ 31 ∧
      ctx.refType (ownRef ctx) = reftypeOf isNft
    · rw [if_pos hcarried, Option.bind_some, line_p2pkh, p2pkh]
      by_cases hkey : ctx.hash160 key = pkh
      · rw [if_pos hkey]
        constructor
        · rintro ⟨top, hrun, htop⟩
          obtain ⟨result, hresult, hcons⟩ := Option.map_eq_some_iff.mp hrun
          cases hcons
          exact ⟨hpayload, hcarried, hkey,
            checkSigResult_truthy.mp ⟨_, hresult, htop⟩⟩
        · intro h
          obtain ⟨top, hresult, htop⟩ := checkSigResult_truthy.mpr h.signed.2
          exact ⟨top, by rw [hresult]; rfl, htop⟩
      · rw [if_neg hkey]
        exact ⟨fun h => (by obtain ⟨_, hrun, -⟩ := h; cases hrun),
          fun h => absurd h.signed.1 hkey⟩
    · rw [if_neg hcarried]
      exact ⟨fun h => (by obtain ⟨_, hrun, -⟩ := h; cases hrun),
        fun h => absurd h.carried hcarried⟩
  · rw [if_neg hpayload]
    exact ⟨fun h => (by obtain ⟨_, hrun, -⟩ := h; cases hrun),
      fun h => absurd h.payload hpayload⟩

end Commit

/-! ## The scriptSig -/

section ScriptSig

variable {ctx : SpendCtx} {cbor suffix key signature rest : Bytes}

/-- A chunk behind a length head is read whole. -/
theorem readChunk_data {width size : Nat} {code : UInt8} (head : Bytes)
    (hcode : carriesRef code = false)
    (hno : ¬ (code = 0 ∨ 0x4E < code)) (hwide : ¬ code < 0x4C)
    (hhead : head.length = width)
    (hwidth : (if code = 0x4C then 1 else if code = 0x4D then 2
      else if code = 0x4E then 4 else 0) = width)
    (hsize : leNat head = size) {d : Bytes} (hd : d.length = size) :
    readChunk (code :: (head ++ d)) = some (.data d, []) := by
  have htake : (head ++ d).take width = head := List.take_left' hhead
  have hdrop : (head ++ d).drop width = d := List.drop_left' hhead
  rw [readChunk, hcode, if_neg Bool.false_ne_true, if_neg hno]
  dsimp only
  rw [hwidth, if_neg hwide, htake, hsize,
    if_neg (by rw [List.length_append]; omega), hdrop,
    List.take_of_length_le (by omega), List.drop_eq_nil_of_le (by omega)]

/-- The suffix pushes the marker and the payload. -/
theorem suffix_pushes (h : buildRevealScriptsigSuffix cbor = .ok suffix) :
    ∃ push t,
    suffix = pushBytes glyMarker ++ push ∧ readChunk push = some (t, []) ∧
    (t = .data cbor ∨ t = .op 0 ∧ cbor = []) := by
  have hmarker : ∀ push : Bytes, 0x03 :: glyMarker ++
      push = pushBytes glyMarker ++ push := fun _ => rfl
  rw [buildRevealScriptsigSuffix] at h
  -- an empty payload is written as a zero opcode, not as a push
  by_cases h75 : cbor.length ≤ 75
  · rw [if_pos h75, Except.ok.injEq, hmarker] at h
    by_cases hnil : cbor = []
    · refine ⟨_, .op 0, h.symm, ?_, .inr ⟨rfl, hnil⟩⟩
      rw [hnil]
      rfl
    · have hpos := List.length_pos_iff.mpr hnil
      have hok : (Chunk.data cbor).Ok := ⟨by omega, by omega⟩
      have hread := @readChunk_push cbor [] hok
      rw [pushBytes, if_pos h75, List.append_nil] at hread
      exact ⟨_, .data cbor, h.symm, hread, .inl rfl⟩
  · rw [if_neg h75] at h
    by_cases h255 : cbor.length ≤ 255
    · rw [if_pos h255, Except.ok.injEq, hmarker] at h
      have hval : leNat [UInt8.ofNat cbor.length] = cbor.length := by
        rw [leNat_singleton, UInt8.toNat_ofNat']
        omega
      exact ⟨_, _, h.symm, readChunk_data [UInt8.ofNat cbor.length] rfl
        (by decide) (by decide) rfl rfl hval rfl, .inl rfl⟩
    · rw [if_neg h255] at h
      by_cases h65535 : cbor.length ≤ 65535
      · rw [if_pos h65535, Except.ok.injEq, hmarker] at h
        exact ⟨_, _, h.symm,
          readChunk_data (leBytes 2 cbor.length) rfl (by decide) (by decide)
          (length_leBytes 2 _) rfl (leNat_leBytes (by omega)) rfl, .inl rfl⟩
      · rw [if_neg h65535] at h
        by_cases hmax : cbor.length ≤ maxCborPayloadBytes
        · rw [if_pos hmax, Except.ok.injEq, hmarker] at h
          have hlt : cbor.length < 256 ^ 4 :=
            Nat.lt_of_le_of_lt hmax (by decide)
          exact ⟨_, _, h.symm,
            readChunk_data (leBytes 4 cbor.length) rfl (by decide) (by decide)
            (length_leBytes 4 _) rfl (leNat_leBytes hlt) rfl, .inl rfl⟩
        · rw [if_neg hmax] at h
          cases h

/-- **The scriptSig of a reveal** leaves the payload on top of the marker, the
key and the signature. -/
theorem run_scriptSig (hsig : (Chunk.data signature).Ok)
    (hkey : (Chunk.data key).Ok)
    (h : buildRevealScriptsigSuffix cbor = .ok suffix) :
    Machine.run (spendOp ctx)
      (pushBytes signature ++ (pushBytes key ++ suffix)) [] =
      some [cbor, glyMarker, key, signature] := by
  obtain ⟨push, t, rfl, hread, ht⟩ := suffix_pushes h
  have hgly : (Chunk.data glyMarker).Ok := by decide
  have hcode : readCode 4 (pushBytes signature ++
      (pushBytes key ++ (pushBytes glyMarker ++ push))) =
      some [.data signature, .data key, .data glyMarker, t] := by
    refine readCode_cons.mpr (.inr ⟨_, _, _, readChunk_push hsig, ?_, rfl⟩)
    refine readCode_cons.mpr (.inr ⟨_, _, _, readChunk_push hkey, ?_, rfl⟩)
    refine readCode_cons.mpr (.inr ⟨_, _, _, readChunk_push hgly, ?_, rfl⟩)
    exact readCode_cons.mpr (.inr ⟨_, _, _, hread, rfl, rfl⟩)
  rw [Machine.run, readCode_length hcode (Nat.le_refl _)]
  rcases ht with rfl | ⟨rfl, rfl⟩ <;> rfl

end ScriptSig

/-! ## The cross-check -/

section CrossCheck

variable {lib : Cbor2} {m : GlyphMetadata}

/-- The library reads what it wrote, in canonical order. -/
def ReadsBack (lib : Cbor2) (m : GlyphMetadata) : Prop :=
  lib.loads (lib.dumpsCanonical (.map m.toCborDict)) =
    .ok (Cbor.canon (.map m.toCborDict))

/-- No metadata field is written twice. -/
theorem nodup_fields (m : GlyphMetadata) : ((m.fieldsBefore ++
    ("creator", m.creator.map GlyphCreator.toCborDict) ::
      m.fieldsAfter).map Prod.fst).Nodup := by
  show ["v", "p", "name", "ticker", "desc", "type", "main", "attrs",
    "loc", "loc_hash", "decimals", "image", "image_ipfs", "image_sha256",
    "dmint", "creator", "royalty", "policy", "rights", "created",
    "commit_outpoint"].Nodup
  decide

/-- A list of integers is canonical as it stands. -/
theorem canonList_ints (l : List Int) :
    Cbor.canonList (l.map .int) = l.map .int := by
  induction l with
  | nil => rfl
  | cons n l ih => rw [List.map_cons, Cbor.canonList, ih, Cbor.canon_int]

/-- The protocol list comes back out of the payload. -/
theorem get_protocol (m : GlyphMetadata) :
    (Cbor.canon (.map m.toCborDict)).get "p" (.list []) = .ok
      (.list (m.protocol.map .int)) := by
  have hlookup : (m.fieldsBefore ++ ("creator",
      m.creator.map GlyphCreator.toCborDict) :: m.fieldsAfter).lookup "p" =
      some (some (.list (m.protocol.map .int))) := rfl
  rw [GlyphMetadata.toCborDict, Cbor.get_canon (nodup_fields m), hlookup]
  show Except.ok (Cbor.canon (.list (m.protocol.map .int))) = _
  rw [Cbor.canon, canonList_ints]

/-- Membership in a written list of integers is membership in the list. -/
theorem hasInt_ints (n : Int) (l : List Int) :
    Cbor.hasInt n (.list (l.map .int)) = .ok (decide (n ∈ l)) := by
  rw [Cbor.hasInt, List.any_map, Except.ok.injEq, Bool.eq_iff_iff,
    List.any_eq_true, decide_eq_true_eq]
  constructor
  · rintro ⟨k, hk, heq⟩
    rwa [← of_decide_eq_true heq]
  · intro hn
    exact ⟨n, hn, decide_eq_true rfl⟩

/-- The protocol list in the payload is the one in the metadata. -/
theorem revealCheck_ok (hread : ReadsBack lib m) (isNft : Bool) :
    revealCheck lib (lib.dumpsCanonical (.map m.toCborDict)) isNft = .ok () ↔
      (if isNft then nftProtocol else ftProtocol) ∈ m.protocol := by
  rw [revealCheck, wrapException_ok, hread, ok_bind, get_protocol, ok_bind]
  cases isNft with
  | true =>
    rw [if_pos rfl, if_pos rfl, requireProtocol_ok, hasInt_ints,
      Except.ok.injEq, decide_eq_true_eq]
  | false =>
    rw [if_neg Bool.false_ne_true, if_neg Bool.false_ne_true,
      requireProtocol_ok, hasInt_ints, Except.ok.injEq, decide_eq_true_eq]

end CrossCheck

/-! ## Reveals -/

section Reveal

/-- The script of a revealed token. -/
def tokenFrame (isNft : Bool) (ref pkh : Bytes) : Bytes :=
  if isNft then nftFrame ref pkh else ftFrame pkh ref

/-- The transaction spends the commit output at this outpoint and has an output
with the reveal's script. A ref that is revealed as a normal one is no singleton
elsewhere. -/
structure Reveals (ctx : SpendCtx) (commitScript txid : Bytes) (vout : Nat)
    (isNft : Bool) (r : RevealScripts) : Prop where
  spends : ctx.spent.txid = txid ∧ ctx.spent.vout = vout ∧
    ctx.spent.out.script = commitScript
  carries : ∃ o ∈ ctx.outputs, o.script = r.lockingScript
  oneKind : isNft = false →
    ∀ o ∈ ctx.outputs, ownRef ctx ∉ singletonRefs o.script

/-- The payload can be revealed to a recipient: `prepare_reveal` returns, and a
spend that carries the script it returned, signed by the owner of the commit,
satisfies the commit script. -/
def Revealable (lib : Cbor2) (c : CommitResult) (isNft : Bool)
    (ownerPkh txid : Bytes) (vout : Nat)
    (recipient : Bytes) : Prop :=
  ∃ r, prepareReveal lib (hex txid.reverse) vout c.cborBytes recipient isNft =
    .ok r ∧
    ∀ (ctx : SpendCtx) (signature key : Bytes),
      Reveals ctx c.commitScript txid vout isNft r →
      (Chunk.data signature).Ok → (Chunk.data key).Ok →
        ctx.hash160 key = ownerPkh →
      ctx.checkSig signature key = true →
      ∃ stack, Machine.run (spendOp ctx) (pushBytes signature ++
        (pushBytes key ++ r.scriptsigSuffix)) [] = some stack ∧
        Machine.AcceptsClean (spendOp ctx) c.commitScript stack

variable {lib : Cbor2} {m : GlyphMetadata} {ownerPkh txid recipient : Bytes}
  {vout : Nat} {c : CommitResult}
  {r : RevealScripts} {isNft : Bool} {ctx : SpendCtx}

/-- What `prepare_commit` returns: the payload, and the script that commits to
its hash and the owner. -/
theorem prepareCommit_ok (h : prepareCommit lib m ownerPkh = .ok c) :
    ownerPkh.length = 20 ∧
    c.cborBytes = lib.dumpsCanonical (.map m.toCborDict) ∧
    c.commitScript = commitFrame (hash256 c.cborBytes)
      (reftypePush (isNftMetadata m)) ownerPkh := by
  rw [prepareCommit] at h
  obtain ⟨script, hscript, h⟩ := bind_ok.mp h
  cases h
  obtain ⟨-, hpkh, hs⟩ := buildCommitLockingScript_ok.mp hscript
  exact ⟨hpkh, rfl, hs⟩

/-- The ref of an outpoint. -/
theorem commitRef_toBytes (hvout : vout < 2 ^ 32) :
    ∃ ref, CommitRef.make (hex txid.reverse) vout = .ok ref ∧
    ref.toBytes = .ok (txid ++ leBytes 4 vout) := by
  have hrange : (0 : Int) ≤ vout ∧ (vout : Int) ≤ 0xFFFFFFFF := by omega
  refine ⟨⟨_, _, hrange⟩, dif_pos hrange, ?_⟩
  have htxid : txidBytes (some (hex txid.reverse)) = .ok txid := by
    rw [txidBytes, fromHex_hex]
    exact congrArg Except.ok (List.reverse_reverse txid)
  have hbytes : toBytesLe 4 (vout : Int) = .ok (leBytes 4 vout) := by
    rw [toBytesLe, if_neg (by omega), if_pos (by omega), Int.toNat_natCast]
  rw [CommitRef.toBytes, htxid, ok_bind, hbytes]
  rfl

/-- What `prepare_reveal` returns, and when. -/
theorem prepareReveal_iff (hread : ReadsBack lib m) (htxid : txid.length = 32)
    (hvout : vout < 2 ^ 32)
    (hrecipient : recipient.length = 20) :
    prepareReveal lib (hex txid.reverse) vout
      (lib.dumpsCanonical (.map m.toCborDict)) recipient isNft = .ok r ↔
      (if isNft then nftProtocol else ftProtocol) ∈ m.protocol ∧
      r.lockingScript = tokenFrame isNft (txid ++ leBytes 4 vout) recipient ∧
      buildRevealScriptsigSuffix (lib.dumpsCanonical (.map m.toCborDict)) =
        .ok r.scriptsigSuffix := by
  obtain ⟨ref, hmake, href⟩ := @commitRef_toBytes txid vout hvout
  have hlen : (txid ++ leBytes 4 vout).length = 36 := by
    rw [List.length_append, htxid, length_leBytes]
  have hlocking : revealScriptOf isNft recipient ref =
      .ok (tokenFrame isNft (txid ++ leBytes 4 vout) recipient) := by
    cases isNft with
    | true => exact nftScriptOf_ok.mpr ⟨hrecipient, _, href, hlen, rfl⟩
    | false => exact ftScriptOf_ok.mpr ⟨hrecipient, _, href, hlen, rfl⟩
  rw [prepareReveal]
  constructor
  · intro h
    obtain ⟨⟨⟩, hcheck, h⟩ := bind_ok.mp h
    rw [hmake, ok_bind, hlocking, ok_bind] at h
    obtain ⟨suffix, hsuffix, h⟩ := bind_ok.mp h
    cases h
    exact ⟨(revealCheck_ok hread isNft).mp hcheck, rfl, hsuffix⟩
  · rintro ⟨hprotocol, hscript, hsuffix⟩
    rw [(revealCheck_ok hread isNft).mpr hprotocol, ok_bind, hmake, ok_bind,
      hlocking, ok_bind, hsuffix, ok_bind, pure_eq_ok, ← hscript]

/-- An FT output pushes its reference. -/
theorem pushedRefs_ft {ref pkh : Bytes} (href : ref.length = 36)
    (hpkh : pkh.length = 20) :
    ref ∈ pushedRefs (ftFrame pkh ref) := by
  have hmem : Chunk.ref 0xD0 ref ∈ ftCode pkh ref :=
    List.mem_append_right _
      (List.mem_append_left _ (List.mem_cons_of_mem _ List.mem_cons_self))
  rw [← ftCode_bytes hpkh, pushedRefs,
    refsBehind_assemble _ (ftCode_ok href hpkh), List.mem_filterMap]
  exact ⟨.ref 0xD0 ref, hmem, rfl⟩

theorem singletonRefs_ft {ref pkh : Bytes} (href : ref.length = 36)
    (hpkh : pkh.length = 20) :
    singletonRefs (ftFrame pkh ref) = [] := by
  rw [← ftCode_bytes hpkh, singletonRefs,
    refsBehind_assemble _ (ftCode_ok href hpkh)]
  rfl

/-- The ref type of a reveal is the one its commit asks for. -/
theorem Reveals.refType (h : Reveals ctx c.commitScript txid vout isNft r)
    (hrecipient : recipient.length = 20)
    (hscript : r.lockingScript = tokenFrame isNft (ownRef ctx) recipient) :
    ctx.refType (ownRef ctx) = reftypeOf isNft := by
  obtain ⟨o, ho, hout⟩ := h.carries
  rw [hscript] at hout
  cases isNft with
  | true =>
    have hmem : ownRef ctx ∈ singletonRefs o.script := by
      rw [hout]
      exact singletonRefs_nft length_ownRef hrecipient
    exact if_pos (List.any_eq_true.mpr ⟨o, ho, decide_eq_true hmem⟩)
  | false =>
    have hmem : ownRef ctx ∈ pushedRefs o.script := by
      rw [hout]
      exact pushedRefs_ft length_ownRef hrecipient
    have hno : ¬ (ctx.outputs.any fun o => ownRef ctx ∈
        singletonRefs o.script) = true := by
      intro hany
      obtain ⟨p, hp, hsingle⟩ := List.any_eq_true.mp hany
      exact h.oneKind rfl p hp (of_decide_eq_true hsingle)
    rw [SpendCtx.refType, if_neg hno,
      if_pos (List.any_eq_true.mpr ⟨o, ho, decide_eq_true hmem⟩)]
    rfl

/-- A reveal of that script alone. -/
def plainReveal (commitScript txid : Bytes) (vout : Nat) (locking pkh : Bytes)
    (htxid : txid.length = 32)
    (hvout : vout < 2 ^ 32) : SpendCtx where
  locktime := 0
  requireMinimal := true
  version := 1
  inputs := [⟨txid, vout, ⟨546, commitScript, TxOut.dust_inRange⟩, 0xFFFFFFFF,
    htxid, hvout⟩]
  outputs := [⟨546, locking, TxOut.dust_inRange⟩]
  index := 0
  here := Nat.zero_lt_one
  counted := ⟨Nat.one_lt_two_pow (by decide), Nat.one_lt_two_pow (by decide)⟩
  hash160 := fun _ => pkh
  checkSig := fun _ _ => true

/-- The plain reveal of a commit is a reveal in the claim's sense. -/
theorem plainReveal_reveals {commitScript : Bytes} (htxid : txid.length = 32)
    (hvout : vout < 2 ^ 32)
    (hrecipient : recipient.length = 20)
    (hscript : r.lockingScript =
      tokenFrame isNft (txid ++ leBytes 4 vout) recipient) :
    Reveals (plainReveal commitScript txid vout r.lockingScript ownerPkh htxid
      hvout) commitScript txid vout isNft r where
  spends := ⟨rfl, rfl, rfl⟩
  carries := ⟨_, List.mem_singleton.mpr rfl, rfl⟩
  oneKind := by
    intro hft o ho hmem
    rw [List.mem_singleton.mp ho] at hmem
    have hlen : (txid ++ leBytes 4 vout).length =
        36 := by rw [List.length_append, htxid, length_leBytes]
    have hempty : singletonRefs r.lockingScript = [] := by
      rw [hscript, hft]
      exact singletonRefs_ft hlen hrecipient
    rw [show (⟨546, r.lockingScript, by decide⟩ : TxOut).script =
      r.lockingScript from rfl, hempty] at hmem
    cases hmem

/-- **What is committed can be revealed just when** the metadata names one of
the two token types, its encoding is not larger than a reveal may be, and the
output's index is below 2^31. -/
theorem commit_revealable_iff (lib : Cbor2) (m : GlyphMetadata)
    (ownerPkh : Bytes) (c : CommitResult)
    (hcommit : prepareCommit lib m ownerPkh = .ok c) (hread : ReadsBack lib m)
    (txid : Bytes) (vout : Nat) (recipient : Bytes) (htxid : txid.length = 32)
    (hvout : vout < 2 ^ 32) (hrecipient : recipient.length = 20) :
    Revealable lib c (isNftMetadata m) ownerPkh txid vout recipient ↔
      (nftProtocol ∈ m.protocol ∨ ftProtocol ∈ m.protocol) ∧
      (lib.dumpsCanonical (.map m.toCborDict)).length ≤ maxCborPayloadBytes ∧
        vout < 2 ^ 31 := by
  obtain ⟨hpkh, hcbor, hscript⟩ := prepareCommit_ok hcommit
  -- the commit asks for the reference type that the protocol list decides
  have hprotocol : (if isNftMetadata m then nftProtocol
      else ftProtocol) ∈ m.protocol ↔
      nftProtocol ∈ m.protocol ∨ ftProtocol ∈ m.protocol := by
    by_cases hnft : nftProtocol ∈ m.protocol
    · have htrue : isNftMetadata m = true := decide_eq_true hnft
      rw [htrue, if_pos rfl]
      exact ⟨.inl, fun _ => hnft⟩
    · have hfalse : isNftMetadata m = false := decide_eq_false hnft
      rw [hfalse, if_neg Bool.false_ne_true]
      exact ⟨.inr, fun h => h.resolve_left hnft⟩
  have haccepts : ∀ {ctx : SpendCtx} {key signature : Bytes},
      Machine.AcceptsClean (spendOp ctx) c.commitScript [c.cborBytes, glyMarker,
        key, signature] ↔
        CommitSpend ctx (hash256 c.cborBytes) ownerPkh
          (isNftMetadata m) c.cborBytes glyMarker key signature := by
    intro ctx key signature
    rw [hscript]
    exact commit_accepts (isNftMetadata m) (length_sha256 _) hpkh
  rw [← hprotocol, Revealable, hcbor]
  constructor
  · rintro ⟨r, hr, hspend⟩
    obtain ⟨hp, hlocking, hsuffix⟩ :=
      (prepareReveal_iff hread htxid hvout hrecipient).mp hr
    refine ⟨hp, buildRevealScriptsigSuffix_returns.mp ⟨_, hsuffix⟩, ?_⟩
    have hok : (Chunk.data [0x02]).Ok := by decide
    obtain ⟨stack, hrun, hstack⟩ := hspend _ [0x02] [0x02]
      (@plainReveal_reveals ownerPkh txid recipient vout r (isNftMetadata m)
        c.commitScript htxid hvout hrecipient hlocking) hok hok rfl rfl
    rw [run_scriptSig hok hok hsuffix, Option.some.injEq] at hrun
    rw [← hrun, ← hcbor, haccepts] at hstack
    exact hstack.carried.1
  · rintro ⟨hp, hsize, hsmall⟩
    obtain ⟨suffix, hsuffix⟩ := buildRevealScriptsigSuffix_returns.mpr hsize
    refine ⟨⟨tokenFrame (isNftMetadata m) (txid ++ leBytes 4 vout) recipient,
      suffix⟩,
      (prepareReveal_iff hread htxid hvout hrecipient).mpr ⟨hp,
        rfl, hsuffix⟩, ?_⟩
    intro ctx signature key hreveals hsig hkey hhash hvalid
    refine ⟨_, run_scriptSig hsig hkey hsuffix, ?_⟩
    rw [← hcbor, haccepts]
    have hown : ownRef ctx = txid ++ leBytes 4 vout := by rw [ownRef,
      hreveals.spends.1, hreveals.spends.2.1]
    exact ⟨⟨rfl, rfl⟩,
      ⟨by rw [hreveals.spends.2.1]; exact hsmall, hreveals.refType hrecipient (by rw [hown])⟩,
      hhash, hvalid⟩

end Reveal

/-! ## A token and a piece of data -/

/-- Metadata with a protocol list and nothing else. -/
def bareFields (protocol : List Int) : MetadataFields where
  protocol := protocol
  name := ""
  ticker := ""
  description := ""
  tokenType := ""
  main := none
  attrs := []
  loc := ""
  locHash := ""
  decimals := 0
  imageUrl := ""
  imageIpfs := ""
  imageSha256 := ""
  v := none
  dmintParams := none
  creator := none
  royalty := none
  policy := none
  rights := none
  created := ""
  commitOutpoint := ""

def nftMetadata : GlyphMetadata := ⟨bareFields [2], List.nodup_nil, by decide⟩

/-- `{"p": [2]}`. -/
def nftPayload : Bytes := [0xA1, 0x61, 0x70, 0x81, 0x02]

def protocolData (protocol : List Int) : Cbor :=
  .map [(.text "p", .list (protocol.map .int))]

/-- The commit of a payload. -/
def sampleCommit (payload : Bytes) (isNft : Bool) : CommitResult :=
  ⟨commitFrame (hash256 payload) (reftypePush isNft) samplePkh, payload,
    hash256 payload, 276 * 10000⟩

/-- The sample commit, whatever payload the library writes. -/
theorem prepareCommit_sample {m : GlyphMetadata} {payload : Bytes} {data : Cbor}
    {shown : String} :
    prepareCommit (knownPayload payload data shown) m samplePkh = .ok
      (sampleCommit payload (isNftMetadata m)) := by
  have hscript : buildCommitLockingScript (hash256 payload) samplePkh
      (isNftMetadata m) =
      .ok (commitFrame (hash256 payload)
        (reftypePush (isNftMetadata m)) samplePkh) :=
    buildCommitLockingScript_ok.mpr ⟨length_sha256 _, rfl, rfl⟩
  show (buildCommitLockingScript (hash256 payload) samplePkh
    (isNftMetadata m) >>= _) = _
  rw [hscript]
  rfl

/-- The statement at an NFT commit. -/
theorem commit_revealable_iff_nft :
    Revealable (knownPayload nftPayload (protocolData [2]) "[2]")
      (sampleCommit nftPayload true) true samplePkh
      (commitRefBytes.take 32) 0 artPkh ↔
      (nftProtocol ∈ nftMetadata.protocol ∨ ftProtocol ∈ nftMetadata.protocol) ∧
      nftPayload.length ≤ maxCborPayloadBytes ∧ 0 < 2 ^ 31 :=
  commit_revealable_iff (knownPayload nftPayload (protocolData [2]) "[2]")
    nftMetadata samplePkh
    (sampleCommit nftPayload true) prepareCommit_sample rfl
      (commitRefBytes.take 32) 0 artPkh rfl (by decide) rfl

def dataMetadata : GlyphMetadata := ⟨bareFields [3], List.nodup_nil, by decide⟩

/-- `{"p": [3]}`. -/
def dataPayload : Bytes := [0xA1, 0x61, 0x70, 0x81, 0x03]

/-- **Data can be committed but not revealed**: the commit asks for a normal ref
and the reveal for a token. -/
theorem data_not_revealable :
    prepareCommit (knownPayload dataPayload (protocolData [3]) "[3]")
      dataMetadata samplePkh =
      .ok (sampleCommit dataPayload false) ∧
    ¬ Revealable (knownPayload dataPayload (protocolData [3]) "[3]")
      (sampleCommit dataPayload false) false samplePkh
      (commitRefBytes.take 32) 0 artPkh := by
  refine ⟨prepareCommit_sample, ?_⟩
  rintro ⟨r, hr, -⟩
  have hrefused : revealCheck (knownPayload dataPayload
      (protocolData [3]) "[3]") dataPayload false = .error (.validation
      "is_nft=False but CBOR protocol field [3] does not include GlyphProtocol.FT (1)") := by rfl
  rw [prepareReveal, sampleCommit, hrefused] at hr
  cases hr

end Pyrxd.Glyph
