import Pyrxd.Glyph.CborTokens
import Pyrxd.Glyph.CommitReveal

/-!
# Deploying a V1 dMint token

`_prepare_dmint_v1_deploy` of `glyph/builder.py`. A V1 payload must not have the
key `v`; what is refused is a payload whose bytes have `61 76` in a row
anywhere. With the key they always do. Without it they do for many a payload
that is fine (`version_rejection_iff`): a name with "av" in it, a trait called
`v`, a logo with the two bytes.
-/

namespace Pyrxd.Glyph

open Pyrxd.Lib Pyrxd.Tx
open Pyrxd.Swap (GlyphRef)

/-! ## Parameters -/

structure DmintV1Fields where
  metadata : GlyphMetadata
  ownerPkh : Bytes
  numContracts : Int
  maxHeight : Int
  rewardPhotons : Int
  difficulty : Int
  premineAmount : Option Int
  opReturnMsg : Option Bytes
  algo : DmintAlgo

/-- `DmintV1DeployParams.__post_init__`. -/
def DmintV1Fields.postInit (p : DmintV1Fields) : Except PyErr Unit := do
  refuseIf (¬ (1 ≤ p.numContracts ∧ p.numContracts ≤ 250))
    ("num_contracts must be in [1, 250], got " ++ toString p.numContracts ++
      " (250 is the standardness ceiling for V1 deploy reveal size)")
  refuseIf (p.maxHeight < 1) ("max_height must be >= 1, got " ++
    toString p.maxHeight)
  refuseIf (p.maxHeight > 0xFFFFFF)
    ("max_height (" ++ toString p.maxHeight ++
      ") exceeds V1's 3-byte ceiling (0xFFFFFF)")
  refuseIf (p.rewardPhotons < 1) ("reward_photons must be >= 1, got " ++
    toString p.rewardPhotons)
  refuseIf (p.rewardPhotons > 0xFFFFFF)
    ("reward_photons (" ++ toString p.rewardPhotons ++
      ") exceeds V1's 3-byte ceiling (0xFFFFFF)")
  refuseIf (p.difficulty < 1) ("difficulty must be >= 1, got " ++
    toString p.difficulty)
  refuseIf (p.algo ≠ .sha256d)
    ("V1 dMint only supports SHA256d; got " ++ toString p.algo.value ++
      ". Use DmintV2DeployParams for blake3/k12.")

/-- `DmintV1DeployParams`; the key hash is a `Hex20`. -/
structure DmintV1DeployParams extends DmintV1Fields where
  ofPkh : toDmintV1Fields.ownerPkh.length = 20
  valid : toDmintV1Fields.postInit = .ok ()

structure DmintV1DeployResult where
  commitResult : CommitResult
  cborBytes : Bytes
  ownerPkh : Bytes
  premineAmount : Option Int
  numContracts : Int
  placeholderContractScripts : List Bytes
  maxHeight : Int
  rewardPhotons : Int
  difficulty : Int
  algo : DmintAlgo
  opReturnMsg : Option Bytes

/-! ## The builder -/

/-- `difficulty_to_target`. -/
def difficultyToTarget (difficulty : Int) (algo : DmintAlgo) :
    Except PyErr Int := do
  refuseIf (difficulty < 1) "difficulty must be >= 1"
  if algo = .sha256d then return maxSha256dTarget.fdiv difficulty
  else return maxV2Target256.fdiv difficulty

/-- `key in x`, for a string. -/
def Cbor.hasText (key : String) : Cbor → Except PyErr Bool
  | map entries => .ok (lookup key entries).isSome
  | list xs => .ok (xs.any (eqText key))
  | set xs => .ok (xs.any (eqText key))
  | text s => .ok (decide (key.toList <:+: s.toList))
  | bytes _ => .error (.other "a bytes-like object is required, not 'str'")
  | x =>
    .error (.other ("argument of type '" ++ x.typeName ++ "' is not iterable"))

/-- `x[key]`, for a string. -/
def Cbor.item (key : String) : Cbor → Except PyErr Cbor
  | map entries =>
    match lookup key entries with
    | some v => .ok v
    | Option.none => .error (.other ("'" ++ key ++ "'"))
  | list _ => .error (.other "list indices must be integers or slices, not str")
  | text _ => .error (.other "string indices must be integers, not 'str'")
  | bytes _ =>
    .error (.other "byte indices must be integers or slices, not str")
  | x => .error (.other ("'" ++ x.typeName ++ "' object is not subscriptable"))

/-- `GlyphRef(txid="00" * 32, vout=vout)`. -/
def placeholderRef (vout : Int) : Except PyErr GlyphRef :=
  GlyphRef.make (hex (List.replicate 32 0)) vout

def premineError : PyErr := .validation
  "V1 deploy with premine is deferred work — see docs/DMINT_RESEARCH.md §7.2. Set premine_amount=None for now."

/-- What a payload with a version field is refused with. -/
def versionError : PyErr := .validation
  ("V1 dMint CBOR must NOT include a 'v' field; got one in the encoded body. " ++
    "Set GlyphMetadata(version=None) or omit it.")

/-- The `p` field of the payload holds both protocols. -/
def checkDmintProtocol (lib : Cbor2) (cborBytes : Bytes) :
    Except PyErr Unit := do
  let decoded ← lib.loads cborBytes
  let refused ← do
    let present ← decoded.hasText "p"
    if present = false then pure true
    else
      let protocol ← decoded.item "p"
      let ft ← protocol.hasInt 1
      if ft = false then pure true
      else
        let protocol ← decoded.item "p"
        let dmint ← protocol.hasInt 4
        pure (dmint = false)
  if refused then
    let protocol ← decoded.get "p"
    invalid ("V1 dMint CBOR 'p' field must include both 1 (FT) and 4 (DMINT); got p=" ++
      lib.repr protocol)
  else return ()

/-- One of the placeholder contract scripts. -/
def placeholderScript (p : DmintV1DeployParams) (tokenRef : GlyphRef)
    (target : Int) (i : Nat) : Except PyErr Bytes := do
  let contractRef ← placeholderRef (i + 1)
  buildDmintV1ContractScript ⟨0, contractRef, tokenRef, p.maxHeight,
    p.rewardPhotons, target, p.algo⟩

/-- `_prepare_dmint_v1_deploy`. -/
def prepareDmintV1Deploy (lib : Cbor2) (p : DmintV1DeployParams) :
    Except PyErr DmintV1DeployResult := do
  if p.premineAmount ≠ none then .error premineError
  else
    let (cborBytes, payloadHash) := encodePayload lib p.metadata
    if versionKey <:+: lib.dumps (.map [(.text "v", .int 1)]) ∧
      versionKey <:+: cborBytes then .error versionError
    else
      checkDmintProtocol lib cborBytes
      let commitScript ← buildCommitLockingScript payloadHash p.ownerPkh false
      let tokenRef ← placeholderRef 0
      let target ← difficultyToTarget p.difficulty p.algo
      let scripts ← (List.range p.numContracts.toNat).mapM
        (placeholderScript p tokenRef target)
      return {
        commitResult := ⟨commitScript, cborBytes, payloadHash, 276 * 10000⟩
        cborBytes := cborBytes
        ownerPkh := p.ownerPkh
        premineAmount := p.premineAmount
        numContracts := p.numContracts
        placeholderContractScripts := scripts
        maxHeight := p.maxHeight
        rewardPhotons := p.rewardPhotons
        difficulty := p.difficulty
        algo := p.algo
        opReturnMsg := p.opReturnMsg }

/-! ## Errors that are others -/

/-- A text that starts with another letter than the refusal of a version field
does. -/
def StartsOther (msg : String) : Prop := msg.toList.head?.any (· ≠ 'V') = true

instance (msg : String) : Decidable (StartsOther msg) :=
  inferInstanceAs (Decidable (_ = true))

/-- What starts otherwise still does when more follows. -/
theorem StartsOther.append {a : String} (h : StartsOther a) (b : String) :
    StartsOther (a ++ b) := by
  unfold StartsOther at h ⊢
  rw [String.toList_append]
  cases ha : a.toList with
  | nil =>
    rw [ha] at h
    cases h
  | cons c t =>
    rw [ha] at h
    exact h

/-- The version error itself does not start otherwise. -/
theorem not_startsOther_version :
    ¬ StartsOther
      ("V1 dMint CBOR must NOT include a 'v' field; got one in the encoded body. " ++
      "Set GlyphMetadata(version=None) or omit it.") := by
  decide +kernel

/-- A computation that does not raise that refusal. -/
def NotVersion {α : Type} (x : Except PyErr α) : Prop := x ≠ .error versionError

section NotVersion

variable {α β : Type}

/-- A result is no version error. -/
theorem notVersion_ok (a : α) : NotVersion (.ok a) := nofun

theorem notVersion_other (msg : String) :
    NotVersion (.error (.other msg) : Except PyErr α) := nofun

theorem notVersion_invalid {msg : String} (h : StartsOther msg) :
    NotVersion (invalid msg : Except PyErr α) := by
  intro heq
  injection heq with heq
  injection heq with heq
  exact not_startsOther_version (heq ▸ h)

/-- A guard with another text raises no version error. -/
theorem notVersion_refuseIf {cond : Prop} [Decidable cond] {msg : String}
    (h : StartsOther msg) :
    NotVersion (refuseIf cond msg) := by
  unfold refuseIf
  split
  · exact notVersion_invalid h
  · exact notVersion_ok ()

/-- Two steps that raise none raise none together. -/
theorem notVersion_bind {x : Except PyErr α} {f : α → Except PyErr β}
    (hx : NotVersion x) (hf : ∀ a, NotVersion (f a)) :
    NotVersion (x >>= f) := by
  cases x with
  | error e =>
    intro heq
    exact hx (congrArg Except.error (Except.error.inj heq))
  | ok a => exact hf a

theorem notVersion_mapM {f : α → Except PyErr β} (hf : ∀ a, NotVersion (f a))
    (l : List α) : NotVersion (l.mapM f) := by
  induction l with
  | nil => exact notVersion_ok []
  | cons a l ih =>
    rw [List.mapM_cons]
    exact notVersion_bind (hf a) fun b => notVersion_bind ih fun t =>
      notVersion_ok (b :: t)

end NotVersion

theorem notVersion_structPackU (k : Nat) (n : Int) :
    NotVersion (structPackU k n) := by
  unfold structPackU
  split
  · exact notVersion_ok _
  · exact notVersion_other _

theorem notVersion_pushMinimal (n : Int) : NotVersion (pushMinimal n) := by
  unfold pushMinimal
  split
  · exact notVersion_ok _
  split
  · exact notVersion_ok _
  split
  · exact notVersion_ok _
  dsimp only
  split
  · exact notVersion_ok _
  split
  · exact notVersion_ok _
  · exact notVersion_invalid (by decide)

theorem notVersion_toBytes (r : GlyphRef) : NotVersion r.toBytes := by
  refine notVersion_bind ?_ fun txid => notVersion_bind ?_ fun vout =>
    notVersion_ok _
  · unfold txidBytes
    split
    · exact notVersion_other _
    · split
      · exact notVersion_ok _
      · exact notVersion_other _
  · unfold toBytesLe
    split
    · exact notVersion_other _
    split
    · exact notVersion_ok _
    · exact notVersion_other _

theorem notVersion_contract (a : V1Args) :
    NotVersion (buildDmintV1ContractScript a) := by
  unfold buildDmintV1ContractScript buildDmintV1StateScript
  refine notVersion_bind ?_ fun state => notVersion_ok _
  refine notVersion_bind (notVersion_refuseIf (by decide)) fun _ => ?_
  refine notVersion_bind (notVersion_refuseIf (by decide)) fun _ => ?_
  have hheight : StartsOther "height (" := by decide
  refine notVersion_bind (notVersion_refuseIf
    (((((hheight.append _).append _).append _).append _).append _)) fun _ => ?_
  refine notVersion_bind (notVersion_refuseIf (by decide)) fun _ => ?_
  have htarget :
      StartsOther "target must be in [1, MAX_SHA256D_TARGET=" := by decide
  refine notVersion_bind (notVersion_refuseIf
    (((((htarget.append _).append _).append _).append _).append _)) fun _ => ?_
  refine notVersion_bind (notVersion_bind (notVersion_structPackU 4 _) fun b =>
    notVersion_ok _) fun _ => ?_
  refine notVersion_bind (notVersion_bind (notVersion_toBytes _) fun c =>
    notVersion_bind (notVersion_toBytes _) fun t => notVersion_ok _) fun _ => ?_
  refine notVersion_bind (notVersion_pushMinimal _) fun _ => ?_
  refine notVersion_bind (notVersion_pushMinimal _) fun _ => ?_
  exact notVersion_bind (notVersion_structPackU 8 _) fun _ => notVersion_ok _

theorem notVersion_placeholderRef (vout : Int) :
    NotVersion (placeholderRef vout) := by
  unfold placeholderRef GlyphRef.make
  split
  · split
    · exact notVersion_ok _
    · exact notVersion_invalid (by decide)
  · have htxid : StartsOther
        "Txid must be 64 lowercase hex chars (got length " := by decide
    exact notVersion_invalid ((htxid.append _).append _)

theorem notVersion_target (difficulty : Int) (algo : DmintAlgo) :
    NotVersion (difficultyToTarget difficulty algo) := by
  refine notVersion_bind (notVersion_refuseIf (by decide)) fun _ => ?_
  split <;> exact notVersion_ok _

/-! ## When a payload is refused for a version field -/

section Version

variable {lib : Cbor2} {p : DmintV1DeployParams} {m : GlyphMetadata}

/-- The payload has the protocol list of the metadata. -/
theorem checkDmintProtocol_ok (hread : ReadsBack lib m)
    (hft : 1 ∈ m.protocol) (hdmint : 4 ∈ m.protocol) : checkDmintProtocol lib
    (lib.dumpsCanonical (.map m.toCborDict)) = .ok () := by
  obtain ⟨entries, hcanon⟩ : ∃ entries, Cbor.canon (.map m.toCborDict) =
      .map entries := by
    rw [Cbor.canon]
    exact ⟨_, rfl⟩
  have hlookup : Cbor.lookup "p" entries =
      some (.list (m.protocol.map .int)) := by
    have hfield : (m.fieldsBefore ++ ("creator",
        m.creator.map GlyphCreator.toCborDict) :: m.fieldsAfter).lookup "p" =
        some (some (.list (m.protocol.map .int))) := rfl
    have hget : (Cbor.canon (.map (Cbor.present (m.fieldsBefore ++
        ("creator", m.creator.map GlyphCreator.toCborDict) ::
          m.fieldsAfter)))).get "p" .none = _ :=
      Cbor.get_canon (nodup_fields m) .none
    rw [hfield] at hget
    have hmap : Cbor.map entries =
      Cbor.canon (.map (Cbor.present (m.fieldsBefore ++
        ("creator", m.creator.map GlyphCreator.toCborDict) ::
          m.fieldsAfter))) := hcanon.symm
    rw [← hmap, Cbor.get, Except.ok.injEq] at hget
    have hlist : Cbor.canon (.list (m.protocol.map .int)) =
        .list (m.protocol.map .int) := by
      rw [Cbor.canon, canonList_ints]
    cases hl : Cbor.lookup "p" entries with
    | none =>
      rw [hl] at hget
      have : Cbor.none = Cbor.canon (.list (m.protocol.map .int)) := hget
      rw [hlist] at this
      cases this
    | some x =>
      rw [hl] at hget
      have : x = Cbor.canon (.list (m.protocol.map .int)) := hget
      rw [this, hlist]
  have hone : Cbor.hasInt 1 (.list (m.protocol.map .int)) = .ok true := by
    rw [hasInt_ints, decide_eq_true hft]
  have hfour : Cbor.hasInt 4 (.list (m.protocol.map .int)) = .ok true := by
    rw [hasInt_ints, decide_eq_true hdmint]
  have hhas : (Cbor.map entries).hasText "p" = .ok true := by
    rw [Cbor.hasText, hlookup]
    rfl
  have hitem : (Cbor.map entries).item "p" =
      .ok (.list (m.protocol.map .int)) := by
    rw [Cbor.item, hlookup]
  have hloads : lib.loads (lib.dumpsCanonical (.map m.toCborDict)) =
      .ok (.map entries) := hread.trans (congrArg _ hcanon)
  rw [checkDmintProtocol, hloads, ok_bind, hhas, ok_bind, if_neg (by decide),
    hitem, ok_bind, hone, ok_bind,
    if_neg (by decide), ok_bind, hfour]
  rfl

/-- A payload with a version spells the version key. -/
theorem spells_version (h : m.v ≠ none) :
    Spells (Cbor.canon (.map m.toCborDict)).tokens := by
  obtain ⟨n, hn⟩ := Option.ne_none_iff_exists'.mp h
  have hmem : (Cbor.text "v", Cbor.int n) ∈ Cbor.canonEntries m.toCborDict := by
    have hfields : m.toCborDict = (.text "v", .int n) ::
        Cbor.present (m.fieldsBefore.tail ++
        ("creator", m.creator.map GlyphCreator.toCborDict) ::
          m.fieldsAfter) := by
      show Cbor.present (("v", m.v.map .int) :: _) = _
      rw [hn]
      rfl
    rw [hfields, Cbor.canonEntries, Cbor.canon_int]
    exact List.mem_cons_self
  rw [Cbor.canon]
  exact spells_of_key (List.mem_insertionSort _ |>.mpr hmem)

/-- **What is refused for a version field**: whatever has the pair in its
tokens. -/
theorem prepare_version_iff (hft : 1 ∈ p.metadata.protocol)
    (hdmint : 4 ∈ p.metadata.protocol)
    (hone : lib.dumps (.map [(.text "v", .int 1)]) =
      Cbor.encode (.map [(.text "v", .int 1)]))
    (hdumps : lib.dumpsCanonical (.map p.metadata.toCborDict) = (Cbor.canon
      (.map p.metadata.toCborDict)).encode) (hread : ReadsBack lib p.metadata) :
    prepareDmintV1Deploy lib p = .error versionError ↔
      p.premineAmount = none ∧
        Spells (Cbor.canon (.map p.metadata.toCborDict)).tokens := by
  have hkey : versionKey <:+: lib.dumps (.map [(.text "v", .int 1)]) := by
    rw [hone, spells_iff]
    exact spells_of_key List.mem_cons_self
  by_cases hpremine : p.premineAmount = none
  · rw [prepareDmintV1Deploy, if_neg (not_not.mpr hpremine), encodePayload]
    dsimp only
    -- the code searches the encoded bytes, and any token may spell the key
    by_cases hspells : Spells (Cbor.canon (.map p.metadata.toCborDict)).tokens
    · rw [if_pos ⟨hkey, hdumps ▸ (spells_iff _).mpr hspells⟩]
      exact iff_of_true rfl ⟨hpremine, hspells⟩
    · have hcommit := (@buildCommitLockingScript_ok (hash256 (lib.dumpsCanonical
        (.map p.metadata.toCborDict))) p.ownerPkh _ false).mpr
        ⟨length_sha256 _, p.ofPkh, rfl⟩
      rw [if_neg fun hand => hspells ((spells_iff _).mp (hdumps ▸ hand.2)),
        checkDmintProtocol_ok hread hft hdmint, ok_bind,
        hcommit, ok_bind]
      refine iff_of_false ?_ fun hand => hspells hand.2
      exact notVersion_bind (notVersion_placeholderRef 0) fun tokenRef =>
        notVersion_bind (notVersion_target _ _) fun target =>
          notVersion_bind (notVersion_mapM (fun i =>
              notVersion_bind (notVersion_placeholderRef _) fun _ =>
            notVersion_contract _) _) fun scripts => notVersion_ok _
  · rw [prepareDmintV1Deploy, if_pos hpremine]
    refine iff_of_false (fun heq => ?_) fun hand => hpremine hand.1
    injection heq with heq
    injection heq with heq
    exact absurd heq (by decide)

/-- **When a payload is refused for a version field exactly if it has one**: if
no premine is asked for, it has one, or its canonical form has no `av` in its
texts, bytes and numbers; if one is asked for, which is refused before, it has
none. -/
theorem version_rejection_iff (hft : 1 ∈ p.metadata.protocol)
    (hdmint : 4 ∈ p.metadata.protocol)
    (hone : lib.dumps (.map [(.text "v", .int 1)]) =
      Cbor.encode (.map [(.text "v", .int 1)]))
    (hdumps : lib.dumpsCanonical (.map p.metadata.toCborDict) =
      (Cbor.canon (.map p.metadata.toCborDict)).encode)
    (hread : ReadsBack lib p.metadata) :
    (prepareDmintV1Deploy lib p = .error versionError ↔ p.metadata.v ≠ none) ↔
      (p.premineAmount = none → p.metadata.v ≠ none ∨
        ¬ Spells (Cbor.canon (.map p.metadata.toCborDict)).tokens) ∧
        (p.premineAmount ≠ none → p.metadata.v = none) := by
  rw [prepare_version_iff hft hdmint hone hdumps hread]
  by_cases hv : p.metadata.v = none
  · by_cases hpremine : p.premineAmount = none <;> simp [hv, hpremine]
  · have hspells := spells_version hv
    by_cases hpremine : p.premineAmount = none <;> simp [hv, hpremine, hspells]

end Version

/-! ## Two payloads -/

/-- A library that writes canonically, and reads what it wrote of one object. -/
def tokenLibrary (known : Cbor) : Cbor2 where
  loads b := if b = known.encode then .ok known
    else .error (.other "premature end of stream")
  dumps := Cbor.encode
  dumpsCanonical x := x.canon.encode
  str _ := ""
  repr _ := ""

/-- A deploy of a token with this name. -/
def namedDeploy (name : String) : DmintV1DeployParams where
  metadata := ⟨{ bareFields [1, 4] with name := name }, List.nodup_nil, rfl⟩
  ownerPkh := List.replicate 20 0
  numContracts := 1
  maxHeight := 100
  rewardPhotons := 50
  difficulty := 1
  premineAmount := none
  opReturnMsg := none
  algo := .sha256d
  ofPkh := rfl
  valid := rfl

def deployLibrary (name : String) : Cbor2 :=
  tokenLibrary (Cbor.canon (.map (namedDeploy name).metadata.toCborDict))

/-- The deploy library reads back what it wrote. -/
theorem readsBack_deploy (name : String) : ReadsBack (deployLibrary name)
    (namedDeploy name).metadata := by
  exact if_pos rfl

/-- The statement at a token whose name makes no difference. -/
theorem version_rejection_iff_rust :
    (prepareDmintV1Deploy (deployLibrary "Rust") (namedDeploy "Rust") =
      .error versionError ↔ (none : Option Int) ≠ none) ↔
    ((none : Option Int) = none → (none : Option Int) ≠ none ∨
        ¬ Spells
          (Cbor.canon (.map (namedDeploy "Rust").metadata.toCborDict)).tokens) ∧
      ((none : Option Int) ≠ none → (none : Option Int) = none) :=
  @version_rejection_iff (deployLibrary "Rust") (namedDeploy "Rust") (by decide)
    (by decide) rfl rfl (readsBack_deploy "Rust")

/-- **A token called Java is refused for a version field that it does not
have.** -/
theorem java_refused : (namedDeploy "Java").metadata.v = none ∧
    prepareDmintV1Deploy (deployLibrary "Java")
      (namedDeploy "Java") = .error versionError :=
  ⟨rfl, rfl⟩

end Pyrxd.Glyph
