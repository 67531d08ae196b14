import Pyrxd.Glyph.CommitReveal
import Pyrxd.Glyph.SoulboundSpend

/-!
# Who can spend a token

The token scripts of the builders as functions on the stack, and from them whose
spends they accept (`Spendable`). A ref that a script pushes and does not drop
is what the P2PKH behind it takes for the public key: a container with a child
is such a script.
-/

namespace Pyrxd.Glyph

open Pyrxd.Lib Pyrxd.Tx
open Pyrxd.Swap (GlyphRef buildFtLockingScript)

/-! ## Statements -/

section Statements

variable (ctx : SpendCtx)

/-- What holds of every transaction of the chain: the amounts of its inputs and
of its outputs are in the range of a script's numbers, a public key is of 33 or
of 65 bytes, and no code script has the hash of another one. -/
structure Regular : Prop where
  spent : ((ctx.inputs.map SpentOut.out).map TxOut.value).sum < 2 ^ 63
  paid : (ctx.outputs.map TxOut.value).sum < 2 ^ 63
  keys : ∀ signature key, ctx.checkSig signature key = true → key.length = 33 ∨
    key.length = 65
  collision : NoCollision ctx

/-- What the outputs among `outs` are worth that have the code script of the
spent one. -/
def unitsOf (outs : List TxOut) : Int :=
  ((outs.filter fun o => codeScript o.script =
    codeScript ctx.spent.out.script).map TxOut.value).sum

/-- Every output that carries the ref has the token's code script, and the token
is worth no more in the outputs than in the inputs. -/
structure Conserves (ref : Bytes) : Prop where
  code : ∀ o ∈ ctx.outputs, Carries ref o → Clones ctx o
  units : unitsOf ctx ctx.outputs ≤ unitsOf ctx (ctx.inputs.map SpentOut.out)

end Statements

/-- The owner, and nobody else, spends the script; a fungible token where it is
conserved. -/
structure Spendable (script ref pkh : Bytes) (isFt : Bool) : Prop where
  byOwner : ∀ ctx key signature, Regular ctx → ctx.spent.out.script = script →
    (isFt = true → Conserves ctx ref) → ctx.hash160 key = pkh →
    ctx.checkSig signature key = true →
    Machine.AcceptsClean (spendOp ctx) script [key, signature]
  byOwnerOnly : ∀ ctx stack, Regular ctx → ctx.spent.out.script = script →
    Machine.Accepts (spendOp ctx) script stack → SignedBy ctx pkh stack

/-! ## Singletons -/

section Nft

variable {ctx : SpendCtx} {ref pkh child key signature : Bytes}
  {stack s : List Bytes}

theorem straight_p2pkh : ∀ t ∈ p2pkhCode pkh, Machine.Straight t := by
  simp only [p2pkhCode, List.forall_mem_cons]
  exact ⟨by decide, by decide, trivial, by decide, by decide, List.forall_mem_nil _⟩

theorem straight_nft : ∀ t ∈ nftCode ref pkh, Machine.Straight t := by
  rw [nftCode, List.forall_mem_append, List.forall_mem_cons]
  exact ⟨⟨trivial, by decide⟩, straight_p2pkh⟩

/-- Running the NFT script is running its P2PKH part. -/
theorem line_nft : Machine.line (spendOp ctx)
    (nftCode ref pkh) s = p2pkh ctx pkh s := by
  rw [nftCode, Machine.line_append, Machine.line_ref,
    Machine.line_op, spendOp_drop, Option.bind_some, Machine.line_nil,
    Option.bind_some, line_p2pkh]

theorem run_nft (href : ref.length = 36) (hpkh : pkh.length = 20) :
    Machine.run (spendOp ctx) (nftFrame ref pkh) s = p2pkh ctx pkh s := by
  rw [← nftCode_bytes hpkh, Machine.run_does (nftCode_ok href hpkh)
    (Machine.does_line straight_nft), line_nft]

/-- A valid signature leaves `true` and nothing else. -/
theorem p2pkh_clean (hkey : ctx.hash160 key = pkh)
    (hsig : ctx.checkSig signature key = true) :
    p2pkh ctx pkh [key, signature] = some [[1]] := by
  rw [p2pkh, if_pos hkey, checkSigResult, if_pos hsig]
  rfl

/-- An NFT output is the owner's to spend. -/
theorem nft_spendable (href : ref.length = 36) (hpkh : pkh.length = 20) :
    Spendable (nftFrame ref pkh) ref pkh false where
  byOwner := by
    intro ctx key signature _ _ _ hkey hsig
    exact ⟨[1], by rw [run_nft href hpkh, p2pkh_clean hkey hsig], rfl⟩
  byOwnerOnly := by
    intro ctx stack _ _ hrun
    obtain ⟨top, rest, hrun, htop⟩ := hrun
    rw [run_nft href hpkh] at hrun
    exact p2pkh_true.mp ⟨top, rest, hrun, htop⟩

/-! ## Containers with a child -/

/-- The child's ref stays on the stack. -/
theorem run_container (hchild : child.length = 36) (href : ref.length = 36)
    (hpkh : pkh.length = 20) :
    Machine.run (spendOp ctx) (0xD0 :: child ++ nftFrame ref pkh) s =
      p2pkh ctx pkh (child :: s) := by
  have hbytes : 0xD0 :: child ++ nftFrame ref pkh =
      assembleCode (.ref 0xD0 child :: nftCode ref pkh) := by
    rw [← nftCode_bytes hpkh]
    rfl
  have hok : ∀ t ∈ Chunk.ref 0xD0 child :: nftCode ref pkh, t.Ok := by
    rw [List.forall_mem_cons]
    exact ⟨⟨rfl, hchild⟩, nftCode_ok href hpkh⟩
  have hstraight : ∀ t ∈ Chunk.ref 0xD0 child :: nftCode ref pkh,
      Machine.Straight t := by
    rw [List.forall_mem_cons]
    exact ⟨trivial, straight_nft⟩
  rw [hbytes, Machine.run_does hok (Machine.does_line hstraight),
    Machine.line_ref, line_nft]

/-- No stack whatever unlocks it. -/
theorem container_dead (hchild : child.length = 36) (href : ref.length = 36)
    (hpkh : pkh.length = 20)
    (hctx : Regular ctx) : ¬ Machine.Accepts (spendOp ctx)
      (0xD0 :: child ++ nftFrame ref pkh) stack := by
  rintro ⟨top, rest, hrun, htop⟩
  rw [run_container hchild href hpkh] at hrun
  obtain ⟨key, signature, s, hs, -, hsig⟩ :=
    p2pkh_true.mp ⟨top, rest, hrun, htop⟩
  cases hs
  rcases hctx.keys _ _ hsig with hlen | hlen <;> omega

/-- The outpoint of the plain spend is a possible one. -/
theorem selfSpend_outpoint : (List.replicate 32 (1 : UInt8)).length = 32 ∧
    0 < 2 ^ 32 := by decide

/-- A transaction that spends a script to itself and whose only key is of 33
bytes. -/
def selfSpend (script pkh : Bytes) : SpendCtx where
  locktime := 0
  requireMinimal := true
  version := 1
  inputs := [⟨List.replicate 32 1, 0, ⟨546, script, TxOut.dust_inRange⟩,
    0xFFFFFFFF, selfSpend_outpoint⟩]
  outputs := [⟨546, script, TxOut.dust_inRange⟩]
  index := 0
  here := Nat.zero_lt_one
  counted := ⟨Nat.one_lt_two_pow (by decide), Nat.one_lt_two_pow (by decide)⟩
  hash160 := fun _ => pkh
  checkSig := fun _ key => key.length = 33

/-- The plain spend is a regular context. -/
theorem selfSpend_regular (script pkh : Bytes) :
    Regular (selfSpend script pkh) where
  spent := by
    show (546 : Int) + 0 < 2 ^ 63
    decide
  paid := by
    show (546 : Int) + 0 < 2 ^ 63
    decide
  keys := fun _ _ h => .inl (of_decide_eq_true h)
  collision := by
    intro o ho _
    rw [List.mem_singleton.mp ho]
    rfl

/-- A child reference in front makes the container fail without its child. -/
theorem container_not_spendable (hchild : child.length = 36)
    (href : ref.length = 36) (hpkh : pkh.length = 20) :
    ¬ Spendable (0xD0 :: child ++ nftFrame ref pkh) ref pkh false := by
  intro h
  have haccepts := h.byOwner (selfSpend _ pkh) (List.replicate 33 2) [0x30]
    (selfSpend_regular _ _) rfl nofun rfl rfl
  exact container_dead hchild href hpkh (selfSpend_regular _ _) haccepts.accepts

end Nft

/-! ## Fungible tokens -/

section Ft

variable {ctx : SpendCtx} {ref pkh pkh' key signature : Bytes}
  {stack s : List Bytes} {a b : List Chunk}

/-- What stands behind the first state separator of a row of chunks. -/
theorem afterSeparator_assemble (ha : ∀ t ∈ a, t.Ok ∧ t ≠ .op 0xBD) :
    ∀ {fuel : Nat}, a.length < fuel → afterSeparator fuel
      (assembleCode (a ++ .op 0xBD :: b)) = some (assembleCode b) := by
  induction a with
  | nil =>
    intro fuel hfuel
    obtain ⟨n, rfl⟩ : ∃ n, fuel = n + 1 :=
      ⟨fuel - 1, by rw [List.length_nil] at hfuel; omega⟩
    have hok : (Chunk.op 0xBD).Ok := by decide
    have happ : assembleCode ([] ++ .op 0xBD :: b) =
        (Chunk.op 0xBD).bytes ++ assembleCode b := rfl
    rw [afterSeparator, happ, readChunk_bytes hok]
    show (if Chunk.op 0xBD = .op 0xBD then some (assembleCode b)
      else afterSeparator n (assembleCode b)) = _
    rw [if_pos rfl]
  | cons t a ih =>
    intro fuel hfuel
    obtain ⟨ht, hrest⟩ := List.forall_mem_cons.mp ha
    rw [List.length_cons] at hfuel
    obtain ⟨n, rfl⟩ : ∃ n, fuel = n + 1 := ⟨fuel - 1, by omega⟩
    have happ : assembleCode (t :: a ++ .op 0xBD :: b) =
        t.bytes ++ assembleCode (a ++ .op 0xBD :: b) := rfl
    rw [afterSeparator, happ, readChunk_bytes ht.1]
    show (if t = .op 0xBD then _
      else afterSeparator n (assembleCode (a ++ .op 0xBD :: b))) = _
    rw [if_neg ht.2, ih hrest (by omega)]

/-- The code script of a token is the same for every owner. -/
theorem codeScript_ft (href : ref.length = 36) (hpkh : pkh.length = 20) :
    codeScript (ftFrame pkh ref) = assembleCode
      (.ref 0xD0 ref :: ftTailCode) := by
  have hfront : ∀ t ∈ p2pkhCode pkh, t.Ok ∧ t ≠ .op 0xBD := by
    intro t ht
    refine ⟨p2pkhCode_ok hpkh t ht, ?_⟩
    rintro rfl
    simp only [p2pkhCode, List.mem_cons, List.not_mem_nil, or_false,
      reduceCtorEq, Chunk.op.injEq, false_or] at ht
    revert ht
    decide
  have hlen := length_ftFrame hpkh href
  have hfuel : (p2pkhCode pkh).length < (ftFrame pkh ref).length := by
    rw [hlen]
    show 5 < 75
    decide
  have hcode : afterSeparator (ftFrame pkh ref).length (ftFrame pkh ref) =
      some (assembleCode (.ref 0xD0 ref :: ftTailCode)) := by
    have h :=
      afterSeparator_assemble (b := .ref 0xD0 ref :: ftTailCode) hfront hfuel
    rwa [show p2pkhCode pkh ++ .op 0xBD :: .ref 0xD0 ref :: ftTailCode =
      ftCode pkh ref from rfl, ftCode_bytes hpkh] at h
  rw [codeScript, hcode, Option.getD_some]

/-- The hash the epilogue counts by. -/
def ownHash (ctx : SpendCtx) : Bytes :=
  hash256 (codeScript ctx.spent.out.script)

/-- What the epilogue asks for. -/
def FtHolds (ctx : SpendCtx) (ref : Bytes) : Prop :=
  codeHashCount ctx 0xE4 (ownHash ctx) ≤ codeHashCount ctx 0xE3 (ownHash ctx) ∧
    ctx.txCtx.refOutputCount ref =
      (SpendCtx.withCode ctx.outputs (ownHash ctx)).length

instance : Decidable (FtHolds ctx ref) := inferInstanceAs (Decidable (_ ∧ _))

/-- The FT epilogue demands that no unit is lost. -/
theorem line_ftEpilogue (hctx : Regular ctx) (href : ref.length = 36) :
    Machine.line (spendOp ctx) ([.op 0xBD, .ref 0xD0 ref] ++ ftTailCode) s =
      require (FtHolds ctx ref) s := by
  have hhash : (ownHash ctx).length = 32 := length_sha256 _
  have hin : NumRange (codeHashCount ctx 0xE3 (ownHash ctx)) :=
    numRange_withCodeSum hctx.spent
  have hout : NumRange (codeHashCount ctx 0xE4 (ownHash ctx)) :=
    numRange_withCodeSum hctx.paid
  have hsplit : ftTailCode = [.op 0xDE, .op 0xC0, .op 0xE9,
    .op 0xAA, .op 0x76] ++
      ([.op 0xE3, .op 0x78, .op 0xE4, .op 0xA2, .op 0x69] ++
        [.op 0xE6, .op 0x9D]) := rfl
  -- first the units are compared, then the outputs that carry the reference
  -- counted
  have hcount : Machine.line (spendOp ctx) [.op 0xE6, .op 0x9D]
      (ownHash ctx :: scriptNum (ctx.txCtx.refOutputCount ref) :: s) =
        require (ctx.txCtx.refOutputCount ref =
          (SpendCtx.withCode ctx.outputs (ownHash ctx)).length) s := by
    rw [Machine.line_op, spendOp_codeHashOutputs hhash, Option.bind_some,
      Machine.line_op,
      spendOp_numEqualVerify numRange_refOutputCount numRange_withCode, require]
    split <;> rfl
  rw [Machine.line_append, Machine.line_op, spendOp_separator, Option.bind_some,
    Machine.line_ref, Machine.line_nil, Option.bind_some, hsplit,
    Machine.line_append, Machine.line_op, spendOp_refOutputCount href,
    Option.bind_some, Machine.line_op, spendOp_ownIndex, Option.bind_some,
    Machine.line_op, spendOp_ownCode, Option.bind_some, Machine.line_op,
    spendOp_hash256, Option.bind_some, Machine.line_op, spendOp_dup,
    Option.bind_some, Machine.line_nil, Option.bind_some]
  show Machine.line (spendOp ctx) _
    (ownHash ctx :: ownHash ctx ::
      scriptNum (ctx.txCtx.refOutputCount ref) :: s) = _
  rw [Machine.line_append, Machine.line_op,
    spendOp_codeHashValue (by decide) hhash hin, Option.bind_some,
    Machine.line_op, spendOp_over, Option.bind_some, Machine.line_op,
    spendOp_codeHashValue (by decide) hhash hout, Option.bind_some,
    Machine.line_op, spendOp_greaterOrEqual hin hout, Option.bind_some,
    Machine.line_op, spendOp_verify, truthy_boolNum]
  simp only [decide_eq_true_eq, ge_iff_le]
  by_cases hunits : codeHashCount ctx 0xE4 (ownHash ctx) ≤
    codeHashCount ctx 0xE3 (ownHash ctx)
  · rw [if_pos hunits, Option.bind_some, Machine.line_nil, Option.bind_some,
      hcount, require, require]
    simp only [FtHolds, hunits, true_and]
  · rw [if_neg hunits, require, if_neg fun h => hunits h.1]
    rfl

/-- The FT script has no branch. -/
theorem straight_ft : ∀ t ∈ ftCode pkh ref, Machine.Straight t := by
  rw [ftCode, List.forall_mem_append, List.forall_mem_append,
    List.forall_mem_cons, List.forall_mem_cons]
  exact ⟨straight_p2pkh, ⟨by decide, trivial, List.forall_mem_nil _⟩, by decide⟩

/-- Running it is the owner's check and then the conservation check. -/
theorem run_ft (hctx : Regular ctx) (href : ref.length = 36)
    (hpkh : pkh.length = 20) :
    Machine.run (spendOp ctx) (ftFrame pkh ref) s = (p2pkh ctx pkh s).bind
      (require (FtHolds ctx ref)) := by
  rw [← ftCode_bytes hpkh, Machine.run_does (ftCode_ok href hpkh)
    (Machine.does_line straight_ft), ftCode, Machine.line_append, line_p2pkh]
  exact congrArg (Option.bind _) (funext fun s => line_ftEpilogue hctx href)

/-- Where the token is conserved the epilogue holds. -/
theorem Conserves.holds (h : Conserves ctx ref) (hctx : Regular ctx)
    (hcode : ref ∈ pushedRefs (codeScript ctx.spent.out.script)) :
    FtHolds ctx ref := by
  -- the covenant counts by code hash, which the token's outputs share
  have hsame : ∀ o ∈ ctx.outputs, (hash256 (codeScript o.script) = ownHash ctx ↔
      Clones ctx o) :=
    fun o ho => ⟨hctx.collision o ho, fun hc => by rw [ownHash, ← hc]⟩
  have hwith : SpendCtx.withCode ctx.outputs (ownHash ctx) =
      ctx.outputs.filter fun o => codeScript o.script =
        codeScript ctx.spent.out.script := by
    refine List.filter_congr fun o ho => ?_
    exact decide_eq_decide.mpr (hsame o ho)
  constructor
  · have hpaid : codeHashCount ctx 0xE4 (ownHash ctx) =
        unitsOf ctx ctx.outputs := by
      show ((SpendCtx.withCode ctx.outputs (ownHash ctx)).map TxOut.value).sum =
        _
      rw [hwith]
      rfl
    have hspent : unitsOf ctx (ctx.inputs.map SpentOut.out) ≤
        codeHashCount ctx 0xE3 (ownHash ctx) := by
      have hsub : ((ctx.inputs.map SpentOut.out).filter fun o =>
          codeScript o.script = codeScript ctx.spent.out.script).Sublist
            (SpendCtx.withCode (ctx.inputs.map SpentOut.out)
              (ownHash ctx)) := by
        refine List.monotone_filter_right _ fun o ho => ?_
        rw [decide_eq_true_eq] at ho ⊢
        rw [ownHash, ho]
      refine (hsub.map TxOut.value).sum_le_sum fun v hv => ?_
      obtain ⟨o, -, rfl⟩ := List.mem_map.mp hv
      exact o.inRange.1
    rw [hpaid]
    exact Int.le_trans h.units hspent
  · have hcarry : (ctx.outputs.filter fun o => ref ∈ pushedRefs o.script) =
        ctx.outputs.filter fun o => codeScript o.script =
          codeScript ctx.spent.out.script := by
      refine List.filter_congr fun o ho => ?_
      exact decide_eq_decide.mpr ⟨h.code o ho,
        fun hc => carries_of_clones hcode hc⟩
    show (((ctx.outputs.filter fun o => ref ∈ pushedRefs o.script).length :
      Nat) : Int) = _
    rw [hcarry, hwith]

/-- The code part of an FT script pushes its reference. -/
theorem pushedRefs_ftCode (href : ref.length = 36) (hpkh : pkh.length = 20) :
    ref ∈ pushedRefs (codeScript (ftFrame pkh ref)) := by
  have hok : ∀ t ∈ Chunk.ref 0xD0 ref :: ftTailCode, t.Ok := by
    rw [List.forall_mem_cons]
    exact ⟨⟨rfl, href⟩, by decide⟩
  rw [codeScript_ft href hpkh, pushedRefs, refsBehind_assemble _ hok,
    List.mem_filterMap]
  exact ⟨.ref 0xD0 ref, List.mem_cons_self, rfl⟩

/-- An FT output is the owner's to spend. -/
theorem ft_spendable (href : ref.length = 36) (hpkh : pkh.length = 20) :
    Spendable (ftFrame pkh ref) ref pkh true where
  byOwner := by
    intro ctx key signature hctx hspent hconserves hkey hsig
    have hcode : ref ∈ pushedRefs (codeScript ctx.spent.out.script) := by
      rw [hspent]
      exact pushedRefs_ftCode href hpkh
    refine ⟨[1], ?_, rfl⟩
    rw [run_ft hctx href hpkh, p2pkh_clean hkey hsig, Option.bind_some, require,
      if_pos ((hconserves rfl).holds hctx hcode)]
  byOwnerOnly := by
    intro ctx stack hctx _ hrun
    obtain ⟨top, rest, hrun, htop⟩ := hrun
    rw [run_ft hctx href hpkh] at hrun
    obtain ⟨s, hs, hreq⟩ := Option.bind_eq_some_iff.mp hrun
    rw [require] at hreq
    split at hreq
    · cases hreq
      exact p2pkh_true.mp ⟨top, rest, hs, htop⟩
    · cases hreq

end Ft

/-! ## The builders' scripts -/

/-- A token script that a builder returns, with its ref, its owner and the child
it holds. -/
inductive TokenOutput (lib : Cbor2) (printable : Char → Bool) :
    (script ref pkh : Bytes) → (isFt : Bool) →
    (child : Option GlyphRef) → Prop
  | nft {pkh s ref : Bytes} {r : GlyphRef}
      (h : buildNftLockingScript pkh r = .ok s) (href : r.toBytes = .ok ref) :
      TokenOutput lib printable s ref pkh false none
  | ft {pkh s ref : Bytes} {r : GlyphRef}
      (h : buildFtLockingScript pkh r = .ok s) (href : r.toBytes = .ok ref) :
      TokenOutput lib printable s ref pkh true none
  | reveal {txid : String} {vout : Int} {cbor pkh ref : Bytes} {isNft : Bool}
      {r : RevealScripts} {c : CommitRef}
    (h : prepareReveal lib txid vout cbor pkh isNft = .ok r)
      (hc : CommitRef.make txid vout = .ok c)
    (href : c.toBytes = .ok ref) :
      TokenOutput lib printable r.lockingScript ref pkh (!isNft) none
  | mutable {txid : String} {vout : Int} {cbor pkh ref : Bytes}
      {m : MutableRevealScripts}
    (h : RevealsMutable lib printable txid vout cbor pkh m)
      (href : m.ref.toBytes = .ok ref) :
    TokenOutput lib printable m.nftScript ref pkh false none
  | container {txid : String} {vout : Int} {cbor pkh ref : Bytes}
      {child : Option GlyphRef}
    {c : ContainerRevealScripts}
    (h : prepareContainerReveal lib txid vout cbor pkh
      (child.map CommitRef.ofGlyphRef) = .ok c)
    (href : c.ref.toBytes = .ok ref) :
      TokenOutput lib printable c.lockingScript ref pkh false child

section Builders

variable {lib : Cbor2} {printable : Char → Bool} {script ref pkh cbor : Bytes}
  {isFt isNft : Bool}
  {child : Option GlyphRef} {txid : String} {vout : Int}

/-- What a prepared reveal returns. -/
theorem prepareReveal_ok {r : RevealScripts}
    (h : prepareReveal lib txid vout cbor pkh isNft = .ok r) :
    ∃ c data, CommitRef.make txid vout = .ok c ∧
    c.toBytes = .ok data ∧ data.length = 36 ∧ pkh.length = 20 ∧
    r.lockingScript = tokenFrame isNft data pkh := by
  rw [prepareReveal] at h
  obtain ⟨-, -, h⟩ := bind_ok.mp h
  obtain ⟨c, hc, h⟩ := bind_ok.mp h
  obtain ⟨locking, hlocking, h⟩ := bind_ok.mp h
  obtain ⟨suffix, -, h⟩ := bind_ok.mp h
  cases h
  cases isNft with
  | true =>
    obtain ⟨hpkh, data, hdata, hlen, hs⟩ := nftScriptOf_ok.mp hlocking
    exact ⟨c, data, hc, hdata, hlen, hpkh, hs⟩
  | false =>
    obtain ⟨hpkh, data, hdata, hlen, hs⟩ := ftScriptOf_ok.mp hlocking
    exact ⟨c, data, hc, hdata, hlen, hpkh, hs⟩

/-- What a prepared container returns. -/
theorem prepareContainerReveal_ok {child : Option CommitRef}
    {c : ContainerRevealScripts}
    (h : prepareContainerReveal lib txid vout cbor pkh child = .ok c) :
    ∃ data body, c.ref.toBytes = .ok data ∧ data.length = 36 ∧ pkh.length = 20 ∧
    body = nftFrame data pkh ∧
      containerScript child body = .ok c.lockingScript := by
  rw [prepareContainerReveal] at h
  obtain ⟨-, -, h⟩ := bind_ok.mp h
  obtain ⟨r, hr, h⟩ := bind_ok.mp h
  obtain ⟨body, hbody, h⟩ := bind_ok.mp h
  obtain ⟨locking, hlocking, h⟩ := bind_ok.mp h
  obtain ⟨suffix, -, h⟩ := bind_ok.mp h
  cases h
  obtain ⟨hpkh, data, hdata, hlen, hs⟩ := nftScriptOf_ok.mp hbody
  exact ⟨data, body, hdata, hlen, hpkh, hs, hlocking⟩

/-- The script is one of three shapes. -/
def TokenShape (script ref pkh : Bytes) (isFt : Bool) : Option GlyphRef → Prop
  | none => script = tokenFrame (!isFt) ref pkh
  | some _ =>
    ∃ data : Bytes, data.length = 36 ∧ isFt = false ∧
      script = 0xD0 :: data ++ nftFrame ref pkh

/-- Every token output has one of the modelled shapes. -/
theorem TokenOutput.shape
    (h : TokenOutput lib printable script ref pkh isFt child) :
    ref.length = 36 ∧ pkh.length = 20 ∧
    TokenShape script ref pkh isFt child := by
  -- one case for each builder that makes a token output
  cases h with
  | nft h href =>
    obtain ⟨hpkh, data, hdata, hs⟩ := buildNftLockingScript_ok.mp h
    rw [href, Except.ok.injEq] at hdata
    exact ⟨(glyphRef_wire href).1, hpkh, hs.trans (by rw [← hdata]; rfl)⟩
  | ft h href =>
    obtain ⟨hpkh, data, hdata, hs⟩ := buildFtLockingScript_ok.mp h
    rw [href, Except.ok.injEq] at hdata
    exact ⟨(glyphRef_wire href).1, hpkh, hs.trans (by rw [← hdata]; rfl)⟩
  | reveal h hc href =>
    obtain ⟨c, data, hc', hdata, hlen, hpkh, hs⟩ := prepareReveal_ok h
    rw [hc, Except.ok.injEq] at hc'
    rw [← hc', href, Except.ok.injEq] at hdata
    rw [hdata]
    exact ⟨hlen, hpkh, hs.trans (by rw [Bool.not_not])⟩
  | mutable h href =>
    obtain ⟨data, hlen, hpkh, hdata, hs, -⟩ := prepareMutableReveal_ok h.reveals
    rw [href, Except.ok.injEq] at hdata
    rw [hdata]
    exact ⟨hlen, hpkh, hs⟩
  | container h href =>
    obtain ⟨data, body, hdata, hlen, hpkh, hbody, hscript⟩ :=
      prepareContainerReveal_ok h
    rw [href, Except.ok.injEq] at hdata
    rw [hdata]
    refine ⟨hlen, hpkh, ?_⟩
    cases child with
    | none =>
      have hsame : Except.ok body = Except.ok _ := hscript
      rw [Except.ok.injEq] at hsame
      rw [← hsame, hbody]
      rfl
    | some r =>
      obtain ⟨childBytes, hchild, hs⟩ := bind_ok.mp hscript
      rw [pure_eq_ok, Except.ok.injEq] at hs
      exact ⟨childBytes, (glyphRef_wire hchild).1,
        rfl, by rw [← hs, hbody]; rfl⟩

/-- **A token script is its owner's to spend just when it holds no child.** -/
theorem TokenOutput.spendable_iff
    (h : TokenOutput lib printable script ref pkh isFt child) :
    Spendable script ref pkh isFt ↔ child = none := by
  obtain ⟨href, hpkh, hshape⟩ := h.shape
  cases child with
  | none =>
    refine ⟨fun _ => rfl, fun _ => ?_⟩
    have hs : script = tokenFrame (!isFt) ref pkh := hshape
    rw [hs]
    cases isFt with
    | true => exact ft_spendable href hpkh
    | false => exact nft_spendable href hpkh
  | some r =>
    obtain ⟨data, hdata, rfl, rfl⟩ := hshape
    exact ⟨fun hs => absurd hs (container_not_spendable hdata href hpkh), nofun⟩

end Builders

end Pyrxd.Glyph
