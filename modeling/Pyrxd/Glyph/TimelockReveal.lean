import Pyrxd.Glyph.RevealWalk
import Pyrxd.Glyph.DmintV1Deploy
import Pyrxd.Glyph.Timelock

/-!
# Reveals

`glyph/timelock_reveal_tx.py`: the script that publishes a content key, its
parser and its validator.

A mint keeps a commitment that its metadata had already. `reveal_iff` says what
that must have been for the content to be revealed later: nothing, or the hash
of the very key with one of two prefixes. What the validator accepts is another
matter and holds always (`validate_iff`).
-/

namespace Pyrxd.Glyph

open Pyrxd.Lib
open Pyrxd.Swap (getPushdataCode)
open Cbor (present textField lookup_present)
open CborObjects (entry entryOr)

/-! ## The proof -/

structure RevealProof where
  v : Int
  p : List Int
  action : String
  tokenRef : String
  cek : String
  cekHash : String
  hint : String := ""
deriving DecidableEq

def RevealProof.fields (proof : RevealProof) : List (String × Option Cbor) :=
  [("v", some (.int proof.v)), ("p", some (.list (proof.p.map .int))),
    ("action", some (.text proof.action)),
    ("token_ref", some (.text proof.tokenRef)), ("cek", some (.text proof.cek)),
    ("cek_hash", some (.text proof.cekHash)), ("hint", textField proof.hint)]

def RevealProof.toDict (proof : RevealProof) : List (Cbor × Cbor) :=
  present proof.fields

def RevealProof.fromDict (lib : CborObjects) (d : List (Cbor × Cbor)) :
    Except DecodeErr RevealProof := do
  let v ← entry d "v"
  let v ← lib.toInt v
  let p ← entry d "p"
  let p ← lib.items p
  let p ← p.mapM lib.toInt
  let action ← entry d "action"
  let action ← lib.toStr action
  let tokenRef ← entry d "token_ref"
  let tokenRef ← lib.toStr tokenRef
  let cek ← entry d "cek"
  let cek ← lib.toStr cek
  let cekHash ← entry d "cek_hash"
  let cekHash ← lib.toStr cekHash
  let hint ← lib.toStr (entryOr d "hint" (.text ""))
  return ⟨v, p, action, tokenRef, cek, cekHash, hint⟩

/-- `encode_pushdata(data, minimal_push=False)`. -/
def encodePushdataAsIs (data : Bytes) : Except DecodeErr Bytes :=
  if data = [] then .error (.validation "empty pushdata")
  else do
    let code ← (getPushdataCode data.length).mapError fun e => .value e.text
    return code ++ data

/-- `_TOKEN_REF_RE.fullmatch`. -/
def isTokenRef (tokenRef : String) : Bool :=
  let txid := tokenRef.toList.take 64
  decide (txid.length = 64) && txid.all (fun c => (hexVal c).isSome) &&
    match tokenRef.toList.drop 64 with
    | ':' :: vout =>
      !vout.isEmpty && vout.all fun c => decide ('0' ≤ c ∧ c ≤ '9')
    | _ => false

/-- `script_bytes`. -/
def revealScript (encodedProof : Bytes) : Except DecodeErr Bytes := do
  let magic ← encodePushdataAsIs glyMarker
  let version ← encodePushdataAsIs [0x02]
  let marker ← encodePushdataAsIs [0x09]
  let proof ← encodePushdataAsIs encodedProof
  return 0x6A :: (magic ++ version ++ marker ++ proof)

section

variable (u : CharTables) (lib : CborObjects)

/-- The commitment that goes into a proof. -/
def chooseCekHash (computed : Bytes) (cekHashOverride : Option String) :
    Except DecodeErr String :=
  let plain := plainCommitment computed
  match cekHashOverride with
  | none => .ok plain
  | some override =>
    if override = "" then .ok plain
    else
      let normalized := u.lowerCase
        (removeAll sha256Upper (removeAll sha256Colon override.toList))
      if normalized ≠ hexChars computed then
        .error (.value
          ("CEK does not match provided cek_hash_override (expected " ++
          reprStr (String.ofList normalized) ++ ", got " ++
            reprStr (hex computed) ++ ")"))
      else if sha256Colon <+: u.lowerCase override.toList then .ok override
      else .ok (String.ofList (sha256Colon ++ normalized))

/-- `create_reveal_proof`. -/
def createRevealProof (tokenRef : String) (cek : Bytes) (hint : String)
    (cekHashOverride : Option String) :
    Except DecodeErr (Bytes × RevealProof) := do
  if cek.length ≠ 32 then .error (.value ("CEK must be 32 bytes, got " ++
    toString cek.length))
  if ¬ isTokenRef tokenRef then
    .error (.value
      ("token_ref must be 'txid:vout' (64 hex + ':' + decimal), got " ++
      reprStr tokenRef))
  let computed ← computeCekHash cek
  let cekHash ← chooseCekHash u computed cekHashOverride
  let proof : RevealProof := ⟨2, [9], "reveal", tokenRef, hex cek,
    cekHash, hint⟩
  let script ← revealScript (lib.dumps (.map proof.toDict))
  return (script, proof)

/-- `isinstance(x, str)`. -/
def isStr : Cbor → Bool
  | .text _ => true
  | _ => false

/-- `parse_reveal_proof_script`, behind the CBOR. -/
def readProof (decoded : List (Cbor × Cbor)) : Option RevealProof :=
  if (entryOr decoded "action" .none).eqText "reveal" = false then none
  else if isStr (entryOr decoded "token_ref" .none) = false then none
  else if isStr (entryOr decoded "cek" .none) = false then none
  else if isStr (entryOr decoded "cek_hash" .none) = false then none
  else (RevealProof.fromDict lib decoded).toOption

/-- `parse_reveal_proof_script`. -/
def parseRevealProofScript (script : Bytes) : Option RevealProof :=
  if script.head? ≠ some 0x6A then none
  else
    match walkPushdata script with
    | [magic, ver, marker, cborBytes] =>
      if magic ≠ glyMarker ∨ ver ≠ [0x02] ∨ marker ≠ [0x09] then none
      else
        match lib.loads cborBytes with
        | .ok (.map decoded) => readProof lib decoded
        | _ => none
    | _ => none

/-! ## Validation -/

structure RevealValidation where
  valid : Bool
  error : String := ""
  proof : Option RevealProof := none

/-- Step 4 of `validate_reveal_proof`, and its success. -/
def crossCheck (proof : RevealProof) (actual : Bytes)
    (expectedCekHash : Option String) : RevealValidation :=
  match expectedCekHash with
  | none => { valid := true, proof }
  | some expected =>
    match parseCekHash u expected with
    | .error exc =>
      { valid := false, error := "expected_cek_hash malformed: " ++
        exc.text, proof }
    | .ok expectedBytes =>
      if hex actual ≠ hex expectedBytes then
        { valid := false, proof
          error := "cek does not match on-chain commitment: expected " ++
            hex expectedBytes ++ ", got " ++ hex actual }
      else { valid := true, proof }

/-- Step 3: the key against the proof's own commitment. -/
def selfCheck (proof : RevealProof) (actual : Bytes)
    (expectedCekHash : Option String) : RevealValidation :=
  match parseCekHash u proof.cekHash with
  | .error exc =>
    { valid := false, error := "cek_hash malformed: " ++ exc.text, proof }
  | .ok claimed =>
    if hex actual ≠ hex claimed then
      { valid := false, proof
        error := "cek_hash self-consistency failed: sha256(cek)=" ++
          hex actual ++ " but proof.cek_hash claims " ++ hex claimed }
    else crossCheck u proof actual expectedCekHash

/-- `validate_reveal_proof`. -/
def validateRevealProof (proof : RevealProof) (expectedTokenRef : String)
    (expectedCekHash : Option String) : RevealValidation :=
  if proof.action ≠
    "reveal" then { valid := false, error := "action must be 'reveal'", proof }
  else if proof.tokenRef ≠ expectedTokenRef then
    { valid := false, proof
      error := "token_ref mismatch: expected " ++ reprStr expectedTokenRef ++
        ", got " ++ reprStr proof.tokenRef }
  else
    match fromHex proof.cek with
    | none => { valid := false, error := "cek is not valid hex", proof }
    | some cek =>
      match computeCekHash cek with
      | .error _ =>
        { valid := false, error := "cek must decode to 32 bytes, got " ++
          toString cek.length, proof }
      | .ok actual => selfCheck u proof actual expectedCekHash

end

/-! ## What is accepted -/

section Accepted

variable {u : CharTables} {lib : CborObjects}
  {proof : RevealProof} {actual digest cek encoded : Bytes}
  {expectedTokenRef tokenRef hint h : String} {expectedCekHash : Option String}

theorem hex_inj {a b : Bytes} (h : hex a = hex b) : a = b := by
  have hback := fromHex_hex a
  rw [h, fromHex_hex] at hback
  exact (Option.some.inj hback).symm

/-- The cross check asks the expected hash, when there is one. -/
theorem crossCheck_valid :
    (crossCheck u proof actual expectedCekHash).valid = true ↔
    ∀ h ∈ expectedCekHash, parseCekHash u h = .ok actual := by
  cases expectedCekHash with
  | none => exact ⟨fun _ => nofun, fun _ => rfl⟩
  | some h =>
    simp only [Option.mem_some_iff, forall_eq', crossCheck]
    cases hparse : parseCekHash u h with
    | error exc => exact ⟨nofun, nofun⟩
    | ok expected =>
      dsimp only
      split
      · next hne => exact ⟨nofun,
          fun heq => absurd (congrArg hex (Except.ok.inj heq).symm) hne⟩
      · next heq => exact ⟨fun _ => congrArg _ (hex_inj (not_not.mp heq)).symm,
          fun _ => rfl⟩

/-- The self check asks the proof's own hash too. -/
theorem selfCheck_valid :
    (selfCheck u proof actual expectedCekHash).valid = true ↔
    parseCekHash u proof.cekHash = .ok actual ∧
    ∀ h ∈ expectedCekHash, parseCekHash u h = .ok actual := by
  rw [selfCheck]
  cases hparse : parseCekHash u proof.cekHash with
  | error exc => exact ⟨nofun, fun hok => nomatch hok.1⟩
  | ok claimed =>
    dsimp only
    split
    · next hne => exact ⟨nofun,
        fun hok => absurd (congrArg hex (Except.ok.inj hok.1).symm) hne⟩
    · next heq =>
      obtain rfl := hex_inj (not_not.mp heq)
      exact crossCheck_valid.trans ⟨fun hc => ⟨rfl, hc⟩, And.right⟩

/-- **What is accepted**: a proof for this token, of 32 bytes whose SHA-256 is
what it says and what was expected. -/
theorem validate_iff : (validateRevealProof u proof expectedTokenRef
    expectedCekHash).valid = true ↔
    proof.action = "reveal" ∧ proof.tokenRef = expectedTokenRef ∧
      ∃ cek, fromHex proof.cek = some cek ∧ cek.length = 32 ∧
        parseCekHash u proof.cekHash = .ok (sha256 cek) ∧
        ∀ h ∈ expectedCekHash, parseCekHash u h = .ok (sha256 cek) := by
  rw [validateRevealProof]
  split
  · next hne =>
      constructor
      · intro h
        cases h
      · intro h
        exact absurd h.1 hne
  next haction =>
    split
    · next hne =>
        constructor
        · intro h
          cases h
        · intro h
          exact absurd h.2.1 hne
    next href =>
      cases hcek : fromHex proof.cek with
      | none =>
        constructor
        · intro h
          cases h
        · rintro ⟨-, -, cek, h, -⟩
          cases h
      | some cek =>
        by_cases hlen : cek.length = 32
        · simp only [computeCekHash, hlen, ne_eq, not_true_eq_false, if_false,
            selfCheck_valid]
          constructor
          · rintro ⟨hself, hcross⟩
            exact ⟨not_not.mp haction, not_not.mp href, cek, rfl, hlen,
              hself, hcross⟩
          · rintro ⟨-, -, cek', hcek', -, hok⟩
            obtain rfl := Option.some.inj hcek'
            exact hok
        · simp only [computeCekHash, hlen, ne_eq, not_false_eq_true, if_true]
          constructor
          · intro h
            cases h
          · rintro ⟨-, -, cek', hcek', h32, -⟩
            obtain rfl := Option.some.inj hcek'
            exact absurd h32 hlen

/-- What is accepted is a key that verifies against the proof's commitment and
against the one that was expected. -/
theorem verify_of_valid (hvalid :
      (validateRevealProof u proof expectedTokenRef (some h)).valid = true) :
    ∃ key, fromHex proof.cek = some key ∧
    verifyCekReveal u key proof.cekHash = .ok true ∧
      verifyCekReveal u key h = .ok true := by
  obtain ⟨-, -, key, hkey, hlen, hself, hexpected⟩ := validate_iff.mp hvalid
  exact ⟨key, hkey, verifyCekReveal_iff.mpr ⟨hlen, hself⟩,
    verifyCekReveal_iff.mpr ⟨hlen, hexpected h rfl⟩⟩

end Accepted

/-! ## The script, there and back -/

section Script

variable {u : CharTables} {lib : CborObjects} {proof : RevealProof}
  {d encoded script : Bytes}

/-- What is pushed as it is, if it is not too long. -/
theorem encodePushdataAsIs_push (hne : d ≠ []) (hlen : d.length < 2 ^ 32) :
    ∃ q : DataPush, q.data = d ∧ encodePushdataAsIs d = .ok q.bytes := by
  have hframe : ∀ (op : UInt8) (width : Nat), op ≤ 0x4E →
      lengthWidth op = width →
      (if op.toNat ≤ 75 then d.length = op.toNat else d.length < 256 ^ width) →
      getPushdataCode d.length = .ok (op :: leBytes width d.length) →
      ∃ q : DataPush, q.data = d ∧ encodePushdataAsIs d = .ok q.bytes := by
    rintro op _ hop rfl hfits hcode
    refine ⟨⟨op, d, hop, hfits⟩, rfl, ?_⟩
    rw [encodePushdataAsIs, if_neg hne, hcode]
    rfl
  by_cases h75 : d.length ≤ 75
  · have hnat : (UInt8.ofNat d.length).toNat = d.length := by
      rw [UInt8.toNat_ofNat']
      omega
    refine hframe (UInt8.ofNat d.length) 0
      (show (UInt8.ofNat d.length).toNat ≤ 78 by omega)
      (lengthWidth_of_le (by omega)) ?_ ?_
    · rw [if_pos (by omega), hnat]
    · rw [getPushdataCode, if_pos h75]
      rfl
  by_cases h255 : d.length ≤ 255
  · refine hframe 0x4C 1 (by decide) rfl ?_ ?_
    · rw [if_neg (by decide)]
      omega
    · rw [getPushdataCode, if_neg h75, if_pos h255]
  by_cases h64k : d.length ≤ 65535
  · refine hframe 0x4D 2 (by decide) rfl ?_ ?_
    · rw [if_neg (by decide)]
      omega
    · rw [getPushdataCode, if_neg h75, if_neg h255, if_pos h64k]
  · refine hframe 0x4E 4 (by decide) rfl ?_ ?_
    · rw [if_neg (by decide)]
      omega
    · rw [getPushdataCode, if_neg h75, if_neg h255, if_neg h64k,
        if_pos (by omega)]

/-- Data beyond four gigabytes cannot be pushed. -/
theorem encodePushdataAsIs_long (hlen : 2 ^ 32 ≤ d.length) :
    ∃ e, encodePushdataAsIs d = .error e := by
  have hne : d ≠ [] := by
    rintro rfl
    exact absurd hlen (by decide)
  rw [encodePushdataAsIs, if_neg hne, getPushdataCode, if_neg (by omega),
    if_neg (by omega), if_neg (by omega), if_neg (by omega)]
  exact ⟨_, rfl⟩

/-- The walker returns the data of each push behind `OP_RETURN`. -/
theorem walkPushdata_return (qs : List DataPush) :
    walkPushdata (0x6A :: pushesBytes qs) = qs.map DataPush.data := by
  have hhead : (0x6A :: pushesBytes qs).head? = some 0x6A := rfl
  rw [walkPushdata, if_pos hhead]
  show (pushLoop (pushesBytes qs).length (pushesBytes qs)).getD [] = _
  rw [pushLoop_pushes _ _ le_rfl]
  rfl

/-- A script is made exactly if what it publishes is not too long; it is an
`OP_RETURN` and four pushes. -/
theorem revealScript_iff (hne : encoded ≠ []) :
    ((∃ script, revealScript encoded = .ok script) ↔ encoded.length < 2 ^ 32) ∧
    ∀ script, revealScript encoded = .ok script →
      script.head? = some 0x6A ∧ walkPushdata script = [glyMarker, [0x02],
        [0x09], encoded] := by
  have hhead : revealScript encoded = do
      let proof ← encodePushdataAsIs encoded
      return 0x6A :: (0x03 :: glyMarker ++ [0x01, 0x02] ++
          [0x01, 0x09] ++ proof) := rfl
  by_cases hlen : encoded.length < 2 ^ 32
  · obtain ⟨q, rfl, hq⟩ := encodePushdataAsIs_push hne hlen
    have hscript : revealScript q.data =
        .ok (0x6A :: pushesBytes [markerPush, ⟨0x01, [0x02], by decide, rfl⟩,
        ⟨0x01, [0x09], by decide, rfl⟩, q]) := by
      rw [hhead, hq]
      show Except.ok _ = _
      rw [pushesBytes, List.flatMap_cons, List.flatMap_cons, List.flatMap_cons,
        List.flatMap_cons, List.flatMap_nil, List.append_nil]
      rfl
    refine ⟨⟨fun _ => hlen, fun _ => ⟨_, hscript⟩⟩, fun script hok => ?_⟩
    rw [hscript] at hok
    cases hok
    exact ⟨rfl, walkPushdata_return _⟩
  · obtain ⟨e, he⟩ := encodePushdataAsIs_long (Nat.not_lt.mp hlen)
    have herr : revealScript encoded = .error e := by
      rw [hhead, he]
      rfl
    rw [herr]
    exact ⟨⟨nofun, fun h => absurd h hlen⟩, nofun⟩

/-- A proof is read back from its dict. -/
theorem readProof_toDict (haction : proof.action = "reveal") :
    readProof lib proof.toDict = some proof := by
  have hkeys : (proof.fields.map Prod.fst).Nodup :=
    show (["v", "p", "action", "token_ref", "cek", "cek_hash",
      "hint"] : List String).Nodup by decide
  -- every field is looked up under its own key
  have hentry : ∀ key v, (proof.fields.lookup key).join = some v →
      entry proof.toDict key = .ok v :=
    fun _ _ => entry_present hkeys
  have hor : ∀ key v default, (proof.fields.lookup key).join = some v →
      entryOr proof.toDict key default = v := by
    intro key v default hv
    rw [RevealProof.toDict, entryOr_present hkeys, hv]
    rfl
  have hhint : entryOr proof.toDict "hint" (.text "") = .text proof.hint := by
    rw [RevealProof.toDict, entryOr_present hkeys]
    show (textField proof.hint).getD (.text "") = .text proof.hint
    rw [textField]
    split
    · next h => rw [h]; rfl
    · rfl
  have hp : (proof.p.map Cbor.int).mapM lib.toInt = .ok (proof.p.map id) :=
    mapM_map_ok proof.p fun _ _ => rfl
  have hread : RevealProof.fromDict lib proof.toDict = .ok proof := by
    rw [RevealProof.fromDict, hhint]
    simp only [bind, Except.bind]
    rw [hentry "v" _ rfl, hentry "p" _ rfl, hentry "action" _ rfl,
      hentry "token_ref" _ rfl, hentry "cek" _ rfl, hentry "cek_hash" _ rfl]
    simp only [CborObjects.toInt, CborObjects.toStr, CborObjects.items,
      hp, List.map_id]
    rfl
  rw [readProof, hor "action" _ _ rfl, hor "token_ref" _ _ rfl,
    hor "cek" _ _ rfl, hor "cek_hash" _ _ rfl, hread, haction]
  rfl

/-- A script that was made is read back. -/
theorem parse_revealScript (hne : encoded ≠ [])
    (hloads : lib.loads encoded = .ok (.map proof.toDict))
    (haction : proof.action = "reveal")
    (hscript : revealScript encoded = .ok script) :
    parseRevealProofScript lib script = some proof := by
  obtain ⟨hhead, hwalk⟩ := (revealScript_iff hne).2 script hscript
  rw [parseRevealProofScript, if_neg (not_not_intro hhead), hwalk]
  dsimp only
  rw [if_neg (by decide), hloads]
  exact readProof_toDict haction

end Script

/-! ## From the mint to the reveal -/

section Mint

variable {u : CharTables} {lib : CborObjects} {stub : EncryptedContentStub}
  {cek : Bytes} {params : TimelockParams} {tokenRef hint h : String}
  {r : TimelockMintResult} {script : Bytes} {proof : RevealProof}

variable (u lib) in
/-- Both commitments of the metadata are the digest, and the validator takes the
proof against either. -/
def CommitsTo (tokenRef : String) (digest : Bytes) (proof : RevealProof)
    (metadata : EncryptedContentStub) : Prop :=
  ∃ timelock, metadata.crypto.timelock = some timelock ∧
    ∀ h, h = metadata.crypto.cekHash ∨ h = timelock.cekHash →
      parseCekHash u h = .ok digest ∧
        (validateRevealProof u proof tokenRef (some h)).valid = true

variable (u lib) in
/-- What is committed can be revealed: the proof that is made with the mint's
commitment is read back, and it is accepted by the metadata of the mint, also
once that was written and read. -/
def CanBeRevealed (stub : EncryptedContentStub) (cek : Bytes)
    (params : TimelockParams) (tokenRef hint : String) : Prop :=
  ∃ r back script proof, addTimelockToMetadata stub cek params = .ok r ∧
    EncryptedContentStub.fromDict lib (r.metadata.toDict u) = .ok back ∧
    createRevealProof u lib tokenRef cek hint
      (if r.metadata.crypto.cekHash = "" then none
        else some r.metadata.crypto.cekHash) = .ok (script, proof) ∧
        parseRevealProofScript lib script = some proof ∧
    CommitsTo u tokenRef (sha256 cek) proof r.metadata ∧
      CommitsTo u tokenRef (sha256 cek) proof back

/-- The commitment that a mint keeps. -/
def keptCommitment (stub : EncryptedContentStub) (cek : Bytes) : String :=
  if stub.crypto.cekHash ≠ "" then stub.crypto.cekHash
    else plainCommitment (sha256 cek)

/-- The proof that is made for it. -/
def keptProof (stub : EncryptedContentStub) (cek : Bytes)
    (tokenRef hint : String) : RevealProof :=
  ⟨2, [9], "reveal", tokenRef, hex cek, keptCommitment stub cek, hint⟩

/-- A commitment is not the empty text. -/
theorem Commits.ne_empty {digest : Bytes} (hc : Commits h digest) : h ≠ "" := by
  rintro rfl
  obtain ⟨t, -, hspell⟩ := hc
  have hnil : "".toList = [] := rfl
  rw [hnil] at hspell
  rcases hspell with heq | heq <;>
    exact absurd heq.symm (List.append_ne_nil_of_left_ne_nil (by decide) t)

theorem kept_ne_empty : keptCommitment stub cek ≠ "" := by
  rw [keptCommitment]
  split
  · next hne => exact hne
  · exact (commits_plain _).ne_empty

/-- The kept commitment is right exactly when the stub's own was, or was
missing. -/
theorem commits_kept : Commits (keptCommitment stub cek) (sha256 cek) ↔
    stub.crypto.cekHash = "" ∨ Commits stub.crypto.cekHash (sha256 cek) := by
  rw [keptCommitment]
  split
  · next hne => exact (or_iff_right hne).symm
  · next hempty => exact iff_of_true (commits_plain _) (.inl (not_not.mp hempty))

/-- The metadata that a mint writes. -/
def timelocked (stub : EncryptedContentStub) (cek : Bytes)
    (params : TimelockParams) : EncryptedContentStub :=
  { stub with
    p := if timelockProtocol ∈ stub.p then stub.p
      else stub.p ++ [timelockProtocol]
    crypto := { stub.crypto with
      cekHash := keptCommitment stub cek
      timelock := some ⟨params.mode, params.unlockAt, plainCommitment (sha256 cek), params.hint⟩ } }

/-- The timelocked stub carries the kept commitment. -/
theorem timelocked_cekHash : (timelocked stub cek params).crypto.cekHash =
    keptCommitment stub cek := rfl

theorem timelocked_timelock : (timelocked stub cek params).crypto.timelock =
    some ⟨params.mode, params.unlockAt, plainCommitment (sha256 cek),
      params.hint⟩ := rfl

/-- Reading a stub back normalises its commitment. -/
theorem normal_cekHash (s : EncryptedContentStub) :
    (s.normal u).crypto.cekHash = sha256Prefix u s.crypto.cekHash := rfl

theorem normal_timelock (s : EncryptedContentStub) :
    (s.normal u).crypto.timelock = s.crypto.timelock.map fun t =>
      t.normal u := rfl

theorem add_ok (hcek : cek.length = 32)
    (hmode : params.mode = "block" ∨ params.mode = "time")
    (hp : encryptedProtocol ∈ stub.p) :
    addTimelockToMetadata stub cek params =
      .ok ⟨timelocked stub cek params, cek⟩ := by
  have hbad : ¬ (params.mode ≠ "block" ∧ params.mode ≠ "time") :=
    fun h => hmode.elim h.1 h.2
  have hformat : formatCekHash (sha256 cek) =
      .ok (plainCommitment (sha256 cek)) :=
    if_neg (not_not_intro (length_sha256 cek))
  have hhash : computeCekHash cek = .ok (sha256 cek) :=
    if_neg (not_not_intro hcek)
  rw [addTimelockToMetadata, if_neg (not_not_intro hcek), if_neg hbad,
    if_neg (not_not_intro hp), hhash]
  show (formatCekHash (sha256 cek) >>= fun cekHashStr => _) = _
  rw [hformat]
  rfl

/-- What was minted is due when the lock that was asked for is. -/
theorem isUnlocked_minted {block time : Option Int}
    (hadd : addTimelockToMetadata stub cek params = .ok r)
    (hcek : cek.length = 32) (hmode : params.mode = "block" ∨
      params.mode = "time") (hp : encryptedProtocol ∈ stub.p) :
    isUnlocked r.metadata block time = true ↔
      ∃ now, clockOf params.mode block time = some now ∧
        params.unlockAt ≤ now := by
  rw [add_ok hcek hmode hp, Except.ok.injEq] at hadd
  have hmarked : timelockProtocol ∈ (timelocked stub cek params).p := by
    show timelockProtocol ∈ if timelockProtocol ∈ stub.p then stub.p
      else stub.p ++ [timelockProtocol]
    split
    · next hmem => exact hmem
    · exact List.mem_append_right _ List.mem_cons_self
  rw [← hadd, isUnlocked_iff hmarked]
  simp only [timelocked_timelock, Option.some.injEq, exists_and_left,
    exists_eq_left']

/-- With a commitment that it accepts, the reveal publishes the key under that
commitment. -/
theorem create_ok (hcek : cek.length = 32) (href : isTokenRef tokenRef = true)
    (hne : h ≠ "") :
    createRevealProof u lib tokenRef cek hint (some h) = .ok (script, proof) →
      u.lowerCase (removeAll sha256Upper (removeAll sha256Colon h.toList)) =
        hexChars (sha256 cek) ∧
      revealScript (lib.dumps (.map proof.toDict)) = .ok script := by
  have hhash : computeCekHash cek = .ok (sha256 cek) :=
    if_neg (not_not_intro hcek)
  intro hok
  rw [createRevealProof, if_neg (not_not_intro hcek),
    if_neg (not_not_intro href), hhash] at hok
  have hok : (chooseCekHash u (sha256 cek) (some h) >>= fun cekHash => do
      let proof : RevealProof := ⟨2, [9], "reveal", tokenRef, hex cek,
        cekHash, hint⟩
      let script ← revealScript (lib.dumps (.map proof.toDict))
      return (script, proof)) = .ok (script, proof) := hok
  -- the stated hash is taken only when, the prefix removed, it is the key's own
  -- in lower case
  cases hchoose : chooseCekHash u (sha256 cek) (some h) with
  | error e =>
    rw [hchoose] at hok
    cases hok
  | ok cekHash =>
    refine ⟨?_, ?_⟩
    · rw [chooseCekHash] at hchoose
      dsimp only at hchoose
      rw [if_neg hne] at hchoose
      split at hchoose
      · cases hchoose
      · next heq => exact not_not.mp heq
    · rw [hchoose] at hok
      simp only [bind, Except.bind] at hok
      split at hok
      · cases hok
      · next heq =>
        cases hok
        exact heq

theorem create_commits (hcek : cek.length = 32)
    (href : isTokenRef tokenRef = true)
    (hc : Commits h (sha256 cek)) :
    createRevealProof u lib tokenRef cek hint (some h) = do
      let script ← revealScript (lib.dumps
        (.map (RevealProof.mk 2 [9] "reveal" tokenRef (hex cek) h hint).toDict))
      return (script, ⟨2, [9], "reveal", tokenRef, hex cek, h, hint⟩) := by
  have hhash : computeCekHash cek = .ok (sha256 cek) :=
    if_neg (not_not_intro hcek)
  have hl := hc.spelled
  have hsub : ∀ c ∈ removeAll sha256Upper (removeAll sha256Colon h.toList),
      c.toNat < 128 := fun c hmem =>
    (hl.plain c ((removeAll_sublist _ _ (by decide)).subset
      ((removeAll_sublist _ _ (by decide)).subset hmem))).1
  have hchoose : chooseCekHash u (sha256 cek) (some h) = .ok h := by
    rw [chooseCekHash]
    dsimp only
    rw [if_neg hc.ne_empty, CharTables.lowerCase_ascii hsub, hl.removed,
      if_neg (not_not_intro rfl), hl.lowerCase, if_pos (List.prefix_append _ _)]
  rw [createRevealProof, if_neg (not_not_intro hcek),
    if_neg (not_not_intro href), hhash]
  show (chooseCekHash u (sha256 cek) (some h) >>= fun cekHash => _) = _
  rw [hchoose]
  rfl

/-- Metadata whose hashes are commitments accepts a proof of the key. -/
theorem commitsTo_of_commits {metadata : EncryptedContentStub}
    {timelock : TimelockSpec} (hcek : cek.length = 32)
    (haction : proof.action = "reveal") (href : proof.tokenRef = tokenRef)
    (hkey : proof.cek = hex cek)
    (hproof : Commits proof.cekHash (sha256 cek))
    (htimelock : metadata.crypto.timelock = some timelock)
    (hcrypto : Commits metadata.crypto.cekHash (sha256 cek))
    (hlock : Commits timelock.cekHash (sha256 cek)) :
    CommitsTo u tokenRef (sha256 cek) proof metadata := by
  refine ⟨timelock, htimelock, fun h hh => ?_⟩
  have hc : Commits h (sha256 cek) := by
    rcases hh with rfl | rfl
    · exact hcrypto
    · exact hlock
  have hparse := hc.parse (u := u) (length_sha256 cek)
  have hread : fromHex proof.cek = some cek := by rw [hkey, fromHex_hex]
  refine ⟨hparse, validate_iff.mpr ⟨haction, href, cek, hread, hcek,
    hproof.parse (length_sha256 cek), ?_⟩⟩
  rintro _ ⟨⟩
  exact hparse

/-- The metadata of the mint, as it was made and once it was written and
read. -/
theorem commitsTo_timelocked (hcek : cek.length = 32)
    (hcommits : Commits (keptCommitment stub cek) (sha256 cek)) :
    CommitsTo u tokenRef (sha256 cek) (keptProof stub cek tokenRef hint)
      (timelocked stub cek params) ∧
    CommitsTo u tokenRef (sha256 cek) (keptProof stub cek tokenRef hint)
      ((timelocked stub cek params).normal u) := by
  -- the stub's own commitment and the timelock's are both over the key
  have hplain := commits_plain (sha256 cek)
  have hkept : Commits (sha256Prefix u (keptCommitment stub cek))
      (sha256 cek) := by
    rw [hcommits.sha256Prefix]
    exact hplain
  have hlock : Commits (sha256Prefix u (plainCommitment (sha256 cek)))
      (sha256 cek) := by
    rw [hplain.sha256Prefix]
    exact hplain
  have hproof : (keptProof stub cek tokenRef hint).cekHash =
      keptCommitment stub cek := rfl
  have hback : ((timelocked stub cek params).normal u).crypto.timelock =
      some ⟨params.mode, params.unlockAt,
        sha256Prefix u (plainCommitment (sha256 cek)), params.hint⟩ := by
    rw [normal_timelock, timelocked_timelock]
    rfl
  constructor
  · refine commitsTo_of_commits hcek rfl rfl rfl
      (hproof ▸ hcommits) timelocked_timelock ?_ hplain
    rw [timelocked_cekHash]
    exact hcommits
  · refine commitsTo_of_commits hcek rfl rfl rfl (hproof ▸ hcommits) hback ?_ ?_
    · rw [normal_cekHash, timelocked_cekHash]
      exact hkept
    · dsimp only
      exact hlock

/-- **When sealed content can be revealed.** For a mint of encrypted content
under a key, the proof that is made with the mint's own commitment is made, read
back and accepted by either commitment of the metadata exactly if the metadata
had no commitment yet or had that of the key in one of two spellings, and the
proof can be pushed. And whatever is accepted against a hash is a key of 32
bytes with that hash, for that token. -/
theorem reveal_iff (hu : u.Lawful) (hp : encryptedProtocol ∈ stub.p)
    (hcek : cek.length = 32)
    (hmode : params.mode = "block" ∨ params.mode = "time")
    (href : isTokenRef tokenRef = true)
    (hempty : ∃ e, lib.loads [] = .error e)
    (hcbor :
      lib.loads (lib.dumps (.map (keptProof stub cek tokenRef hint).toDict)) =
      .ok (.map (keptProof stub cek tokenRef hint).toDict)) :
    (CanBeRevealed u lib stub cek params tokenRef hint ↔
      (stub.crypto.cekHash = "" ∨ Commits stub.crypto.cekHash (sha256 cek)) ∧
        (lib.dumps (.map (keptProof stub cek tokenRef hint).toDict)).length <
          2 ^ 32) ∧
    ∀ proof expectedTokenRef h, (validateRevealProof u proof expectedTokenRef
      (some h)).valid = true → proof.tokenRef = expectedTokenRef ∧
    ∃ key, fromHex proof.cek = some key ∧ key.length = 32 ∧
        parseCekHash u h = .ok (sha256 key) := by
  have hadd : addTimelockToMetadata stub cek params =
      .ok ⟨timelocked stub cek params, cek⟩ := add_ok hcek hmode hp
  have hback :=
    EncryptedContentStub.fromDict_toDict lib u (timelocked stub cek params)
  have hne : lib.dumps (.map (keptProof stub cek tokenRef hint).toDict) ≠
      [] := by
    intro h
    obtain ⟨e, he⟩ := hempty
    rw [h, he] at hcbor
    cases hcbor
  have hover : (if (timelocked stub cek params).crypto.cekHash = "" then none
      else some (timelocked stub cek params).crypto.cekHash) = some (keptCommitment stub cek) :=
    if_neg kept_ne_empty
  refine ⟨?_, fun proof expectedTokenRef h hvalid => ?_⟩
  · rw [← commits_kept]
    constructor
    · rintro ⟨r, back, script, proof, hr, -, hcreate, -, hto, -⟩
      rw [hadd] at hr
      cases hr
      have hcreate : createRevealProof u lib tokenRef cek hint
          (if (timelocked stub cek params).crypto.cekHash = "" then none
          else some (timelocked stub cek params).crypto.cekHash) = .ok (script,
          proof) := hcreate
      rw [hover] at hcreate
      obtain ⟨hnorm, hscript⟩ := create_ok hcek href kept_ne_empty hcreate
      obtain ⟨timelock, -, hboth⟩ := hto
      -- the maker compares without the prefix, the validator reads it: only the
      -- two spellings pass both
      have hcommits : Commits (keptCommitment stub cek) (sha256 cek) :=
        commits_of_reads hu (length_sha256 cek) (hboth _ (.inl rfl)).1 hnorm
      rw [create_commits hcek href hcommits] at hcreate
      obtain ⟨made, hmade⟩ : ∃ made, revealScript
          (lib.dumps (.map (keptProof stub cek tokenRef hint).toDict)) =
          .ok made := by
        rw [keptProof]
        cases hmade : revealScript
            (lib.dumps (.map (RevealProof.mk 2 [9] "reveal" tokenRef (hex cek)
            (keptCommitment stub cek) hint).toDict)) with
        | error e =>
          rw [hmade] at hcreate
          cases hcreate
        | ok made => exact ⟨made, rfl⟩
      exact ⟨hcommits, (revealScript_iff hne).1.mp ⟨made, hmade⟩⟩
    · rintro ⟨hcommits, hlen⟩
      obtain ⟨script, hscript⟩ := (revealScript_iff hne).1.mpr hlen
      obtain ⟨hmint, hread⟩ :=
        @commitsTo_timelocked u stub cek params tokenRef hint hcek hcommits
      refine ⟨⟨timelocked stub cek params, cek⟩, _, script,
        keptProof stub cek tokenRef hint, hadd, hback, ?_,
        parse_revealScript hne hcbor rfl hscript, hmint, hread⟩
      show createRevealProof u lib tokenRef cek hint
        (if (timelocked stub cek params).crypto.cekHash = "" then none
        else some (timelocked stub cek params).crypto.cekHash) = _
      rw [hover, create_commits hcek href hcommits, ← keptProof, hscript]
      rfl
  · obtain ⟨-, href, key, hkey, hlen, -, hh⟩ := validate_iff.mp hvalid
    exact ⟨href, key, hkey, hlen, hh h rfl⟩

end Mint

/-! ## Two stubs -/

/-- No character outside ASCII. -/
def asciiTables : CharTables := ⟨fun _ => false, fun _ _ c => [c]⟩

/-- The sample case tables behave as assumed. -/
theorem asciiTables_lawful : asciiTables.Lawful where
  lower_ne_nil _ _ _ _ := List.cons_ne_nil _ _
  lower_ascii _ _ c hc d hd hascii := by
    obtain rfl := List.mem_singleton.mp hd
    exact absurd hascii (Nat.not_lt.mpr hc)

/-- A library that reads what it wrote of one object. -/
def knownObjects (known : Cbor) : CborObjects where
  toCbor2 := tokenLibrary known
  intOf _ := .error (.value "invalid literal for int() with base 10")
  strOf _ := .ok ""
  bytesOf _ := .error (.type "cannot convert object to bytes")
  itemsOf _ := .error (.type "object is not iterable")
  itemOf _ _ := .error (.type "object is not subscriptable")
  getOf _ _ _ := .error (.other "object has no attribute 'get'")

/-- The sample library reads back the object it knows. -/
theorem knownObjects_reads (known : Cbor) :
    (knownObjects known).loads ((knownObjects known).dumps known) = .ok known :=
  if_pos rfl

theorem knownObjects_empty (entries : List (Cbor × Cbor)) :
    ∃ e, (knownObjects (.map entries)).loads [] = .error e := by
  have hne : ([] : Bytes) ≠ (Cbor.map entries).encode := by
    rw [Cbor.encode, Cbor.tokens, List.flatMap_cons]
    exact (List.append_ne_nil_of_left_ne_nil (CborToken.bytes_ne_nil _) _).symm
  show ∃ e, (if ([] : Bytes) = (Cbor.map entries).encode then Except.ok
    (Cbor.map entries)
    else .error (PyErr.other "premature end of stream")) = .error e
  rw [if_neg hne]
  exact ⟨_, rfl⟩

/-- A sealed item, with what it says of its key so far. -/
def sealedItem (cekHash : String) : EncryptedContentStub where
  p := [2, 8]
  type := "text/plain"
  name := "Sealed Item"
  main := { type := "text/plain", hash := "" }
  crypto := { cekHash }

def zeroKey : Bytes := List.replicate 32 0

/-- The first output of a transaction. -/
def sealedRef : String := String.ofList (List.replicate 64 '0' ++ [':', '0'])

/-- Without a commitment yet. -/
theorem reveal_fresh :
    CanBeRevealed asciiTables
      (knownObjects (.map (keptProof (sealedItem "") zeroKey
        sealedRef "").toDict)) (sealedItem "") zeroKey ⟨"block", 100,
        ""⟩ sealedRef "" := by
  have hlen : (Cbor.encode (.map (keptProof
      (sealedItem "") zeroKey sealedRef "").toDict)).length < 2 ^ 32 := by
    decide +kernel
  exact (reveal_iff asciiTables_lawful (by decide) rfl (.inl rfl)
    (by decide +kernel) (knownObjects_empty _) (knownObjects_reads _)).1.mpr
    ⟨.inl rfl, hlen⟩

/-- A commitment to another key. -/
def otherCommitment : String := plainCommitment zeroKey

/-- **A commitment that was there is kept**, and no reveal can match it. -/
theorem reveal_of_other :
    ¬ CanBeRevealed asciiTables
      (knownObjects (.map
        (keptProof (sealedItem otherCommitment) zeroKey sealedRef "").toDict))
      (sealedItem otherCommitment) zeroKey ⟨"block", 100, ""⟩ sealedRef "" := by
  rintro ⟨r, back, script, proof, hr, -, -, -, ⟨timelock, -, hboth⟩, -⟩
  rw [add_ok rfl (.inl rfl) (by decide)] at hr
  cases hr
  have hkept : keptCommitment (sealedItem otherCommitment) zeroKey =
      otherCommitment :=
    if_pos (commits_plain zeroKey).ne_empty
  have hparse := (hboth _ (.inl rfl)).1
  rw [timelocked, hkept] at hparse
  have hzero := (commits_plain zeroKey).parse (u := asciiTables) rfl
  have hsame : sha256 zeroKey = zeroKey := by
    have heq := hparse.symm.trans hzero
    injection heq
  exact absurd hsame (by decide +kernel)

end Pyrxd.Glyph
