import Pyrxd.Glyph.Script
import Pyrxd.Glyph.SoulboundSpend

/-!
# Scripts that are called soulbound

`assert_soulbound_credential` and `verify_credential_binding` of
`glyph/credential_binding.py` trust `classify_soulbound`, which looks at the
opcodes that occur in a script and not at what they do. A script with the
opcodes in a branch that is never taken passes, and its token can be moved to
another owner (`dead_branch_moves`).

What makes a script soulbound is that every path through it runs one of the
checks (`Replicates`), or that it has the shape of the covenant on the chain
(`deployedCode`), and that the ref and the owner stand in its code part.
`replicating_immovable` shows that this is enough, whatever the other opcodes
mean.
-/

namespace Pyrxd.Glyph

open Pyrxd.Lib Pyrxd.Tx
open Machine (Balanced Ensures)

/-! ## The readers -/

/-- The ref, where one is expected. -/
def checkBoundRef (boundRef expected : Option Bytes) : Except PyErr Unit :=
  match expected with
  | none => .ok ()
  | some ref =>
    refuseIf (boundRef ≠ some ref)
      ("credential binds ref " ++ (boundRef.map hex).getD "None" ++
        ", expected " ++ hex ref)

/-- `assert_soulbound_credential`; the ref need not be given. -/
def assertSoulbound (credential : ResolvedCredential) (minConfirmations : Int)
    (expectedCredentialRef : Option Bytes) : Except PyErr Bytes := do
  let cls := classifySoulbound credential.currentSpk
  refuseIf (cls.transferability ≠ .soulboundCovenant)
    ("credential is not a consensus-soulbound covenant (classified " ++
      cls.transferability.value ++ "); a transferable token can be " ++
      "rented or resold and must not gate a swap")
  checkBoundRef cls.boundRef expectedCredentialRef
  refuseIf (∀ c ∈ credential.confirmations, c < minConfirmations)
    ("credential has " ++ (credential.confirmations.map toString).getD "None" ++
      " confirmations, need >= " ++ toString minConfirmations)
  match extractOwnerPkh credential.currentSpk with
  | some owner => .ok owner
  | none =>
    invalid "could not extract a single owner pkh from the credential script"

/-- `verify_credential_binding`. -/
def verifyCredentialBinding (credential : ResolvedCredential)
    (recipientPkh : Bytes) (minConfirmations : Int)
    (expectedCredentialRef : Option Bytes) : Except PyErr Unit := do
  refuseIf (recipientPkh.length ≠ 20) "recipient_pkh must be 20 bytes (hash160)"
  let owner ← assertSoulbound credential minConfirmations expectedCredentialRef
  refuseIf (owner ≠ recipientPkh)
    ("credential owner " ++ hex owner ++ " != swap recipient " ++
      hex recipientPkh ++
      " (asset would not land with the credential owner — rental would pass the gate)")

/-- One of the two accepts the script, with this owner. -/
def AcceptedAs (spk pkh : Bytes) : Prop :=
  ∃ credential minConfirmations expected,
  credential.currentSpk = spk ∧
    (assertSoulbound credential minConfirmations expected = .ok pkh ∨
    verifyCredentialBinding credential pkh minConfirmations expected = .ok ())

/-! ## Statements -/

/-- The singleton is carried by one output at most. -/
def CarriedOnce (ctx : SpendCtx) (ref : Bytes) : Prop := ∀ (i j : Nat)
  (o p : TxOut),
  ctx.outputs[i]? = some o → ctx.outputs[j]? = some p → Carries ref o →
    Carries ref p → i = j

/-- Whatever spend of the script succeeds, the ref stays in a clone of its code,
which names the owner. -/
def Immovable (opOf : SpendCtx → OpSem) (spk ref pkh : Bytes) :
    Prop := ∀ ctx stack,
  ctx.spent.out.script = spk → CarriedOnce ctx ref → NoCollision ctx →
    Machine.Accepts (opOf ctx) spk stack →
    ∀ o ∈ ctx.outputs, Carries ref o → Clones ctx o ∧
    extractOwnerPkh (codeScript o.script) = some pkh

/-- Every path through the code runs a check that the token is burned or
replicated. -/
inductive Replicates (ref : Bytes) : List Chunk → Prop
  | fixed : Replicates ref (fixedGuard ref)
  | composable : Replicates ref (composableGuard ref)
  | within {pre ts : List Chunk} (post : List Chunk) : Balanced pre →
      Replicates ref ts →
      Replicates ref (pre ++ ts ++ post)
  | branches {a b : List Chunk} : Balanced a → Replicates ref a →
      Replicates ref b →
      Replicates ref ([.op 0x63] ++ a ++ ([.op 0x67] ++ b ++ [.op 0x68]))

/-- `<ref> SWAP IF`. -/
def deployedHead (ref : Bytes) : List Chunk := [.ref 0xD8 ref, .op 0x7C]

/-- `0 CODESCRIPTBYTECODE_OUTPUT INPUTINDEX CODESCRIPTBYTECODE_UTXO EQUAL`. -/
def deployedClone : List Chunk :=
  [.op 0x00, .op 0xEA, .op 0xC0, .op 0xE9, .op 0x87]

/-- `REFOUTPUTCOUNT_OUTPUTS 0 NUMEQUAL VERIFY`. -/
def deployedBurn : List Chunk := [.op 0xDE, .op 0x00, .op 0x9C, .op 0x69]

/-- The shape of the covenant on the chain: the spender chooses between a clone
and a burn. -/
def deployedCode (ref : Bytes) (a b : List Chunk) : List Chunk :=
  deployedHead ref ++ ([.op 0x63] ++ (.op 0x75 :: a ++ deployedClone) ++
    ([.op 0x67] ++ (deployedBurn ++ b) ++ [.op 0x68]))

/-- A script that replicates on every path, with the ref and the owner in its
code part. -/
structure TrulySoulbound (spk ref : Bytes) : Prop where
  paths : ∃ ts, readCode spk.length spk = some ts ∧ (Replicates ref ts ∨
    ∃ a b, Balanced a ∧ Balanced b ∧ ts = deployedCode ref a b)
  ref : ref ∈ pushedRefs (codeScript spk) ∧ ref.length = 36
  owner : extractOwnerPkh (codeScript spk) = extractOwnerPkh spk

/-! ## What the checks ensure -/

section Checks

variable {ctx : SpendCtx} {op : OpSem} {ref : Bytes} {ts a b : List Chunk}

instance (o : TxOut) : Decidable (Clones ctx o) :=
  inferInstanceAs (Decidable (_ = _))

/-- The first output has the code of the spent one. -/
def FirstClones (ctx : SpendCtx) : Prop :=
  ∃ o, ctx.outputs.head? = some o ∧ Clones ctx o

/-- What a check that was passed says. -/
def Passed (ctx : SpendCtx) (ref : Bytes) : Prop :=
  Burned ctx ref ∨ FirstClones ctx ∨ OneClone ctx ref

/-- A clone in the first output is what the deployed script compares. -/
theorem FirstIsClone.firstClones (h : FirstIsClone ctx) : FirstClones ctx := by
  obtain ⟨o, ho, hscript⟩ := Option.map_eq_some_iff.mp h
  exact ⟨o, ho, congrArg codeScript hscript⟩

/-- A part that replicates ensures what the claim calls passed. -/
theorem Replicates.ensures (hop : RunsGuards op ctx) (href : ref.length = 36)
    (hcode : ref ∈ pushedRefs (codeScript ctx.spent.out.script))
    (hcoll : NoCollision ctx)
    (h : Replicates ref ts) : Ensures op ts (Passed ctx ref) := by
  induction h with
  | fixed =>
    refine (does_fixedGuard hop href).ensures fun s s' hs => ?_
    rcases @fixedCheck_cases ctx ref s with ⟨-, hok⟩ | ⟨hno, -⟩
    · exact hok.imp_right fun h => .inl h.firstClones
    · rw [hno] at hs
      cases hs
  | composable =>
    refine (does_composableGuard hop href).ensures fun s s' hs => ?_
    rcases composableCheck_cases hcoll (fun o => carries_of_clones hcode)
      s with ⟨-, hok⟩ | ⟨hno, -⟩
    · exact hok.imp_right .inr
    · rw [hno] at hs
      cases hs
  | within post hpre _ ih => exact ih.within hpre post
  | branches hbal _ _ iha ihb => exact Ensures.ifElse hbal iha ihb

/-- A check that was passed leaves the singleton in a clone. -/
theorem Passed.kept (h : Passed ctx ref) (honce : CarriedOnce ctx ref)
    (hcode : ref ∈ pushedRefs (codeScript ctx.spent.out.script)) {o : TxOut}
    (ho : o ∈ ctx.outputs)
    (hcarries : Carries ref o) : Clones ctx o := by
  obtain ⟨j, hj⟩ := List.mem_iff_getElem?.mp ho
  rcases h with hburned | ⟨p, hp, hclones⟩ | ⟨i, -, p, hp, hclones, -⟩
  · exact absurd hcarries (hburned o ho)
  · rw [List.head?_eq_getElem?] at hp
    obtain rfl := honce j 0 o p hj hp hcarries (carries_of_clones hcode hclones)
    rw [hj] at hp
    cases hp
    exact hclones
  · obtain rfl := honce j i o p hj hp hcarries (carries_of_clones hcode hclones)
    rw [hj] at hp
    cases hp
    exact hclones

/-- The head of the deployed script leaves the reference below. -/
theorem does_deployedHead (hop : RunsGuards op ctx) :
    Machine.Does op (deployedHead ref) fun s =>
    spendOp ctx 0x7C (ref :: s) := by
  refine (does_guardLine hop ?_ ?_).congr fun s => ?_
  · rw [deployedHead, List.forall_mem_cons]
    exact ⟨trivial, by decide⟩
  · simp only [deployedHead, List.mem_cons, List.not_mem_nil, or_false,
      reduceCtorEq, false_or, Chunk.op.injEq]
    rintro code rfl
    decide
  · rw [deployedHead, Machine.line_ref, Machine.line_op]
    cases spendOp ctx 0x7C (ref :: s) <;> rfl

/-- The clone test pushes whether the first output is a clone. -/
theorem does_deployedClone (hop : RunsGuards op ctx) :
    Machine.Does op deployedClone fun s =>
    ctx.outputs.head?.map fun o => boolBytes (Clones ctx o) :: s := by
  refine (does_guardLine hop (by decide) ?_).congr fun s => ?_
  · simp only [deployedClone, List.mem_cons, List.not_mem_nil, or_false,
      Chunk.op.injEq]
    rintro code (rfl | rfl | rfl | rfl | rfl) <;> decide
  · rw [deployedClone, Machine.line_op, spendOp_zero, Option.bind_some,
      Machine.line_op, spendOp_firstCode]
    cases ctx.outputs.head? with
    | none => rfl
    | some o =>
      rw [Option.map_some, Option.bind_some, Machine.line_op, spendOp_ownIndex,
        Option.bind_some,
        Machine.line_op, spendOp_ownCode, Option.bind_some, Machine.line_op,
          spendOp_equal]
      rfl

/-- The burn branch has no branch of its own. -/
theorem does_deployedBurn (hop : RunsGuards op ctx) :
    Machine.Does op deployedBurn (Machine.line (spendOp ctx) deployedBurn) := by
  refine does_guardLine hop (by decide) ?_
  simp only [deployedBurn, List.mem_cons, List.not_mem_nil, or_false,
    Chunk.op.injEq]
  rintro code (rfl | rfl | rfl | rfl) <;> decide

/-- Passing it means the token is gone from the outputs. -/
theorem burned_of_deployedBurn (href : ref.length = 36) {s s' : List Bytes}
    (h : Machine.line (spendOp ctx) deployedBurn (ref :: s) = some s') :
    Burned ctx ref := by
  rw [deployedBurn, Machine.line_op, spendOp_refOutputCount href,
    Option.bind_some, Machine.line_op, spendOp_zero, Option.bind_some,
    Machine.line_op] at h
  have hnum := @spendOp_numEqual ctx s _ 0 (@numRange_refOutputCount ctx ref)
    ⟨by decide, by decide⟩
  rw [show scriptNum 0 = [] from rfl] at hnum
  rw [hnum, Option.bind_some, Machine.line_op, spendOp_verify] at h
  simp only [truthy_boolNum, decide_eq_true_eq] at h
  by_cases hburn : ctx.txCtx.refOutputCount ref = 0
  · exact burned_iff.mp hburn
  · rw [if_neg hburn] at h
    cases h

/-- The covenant on the chain: in the first branch the comparison is what the
script leaves, in the second the ref is still on the stack. -/
theorem deployed_passed (hop : RunsGuards op ctx) (href : ref.length = 36)
    (ha : Balanced a) (hb : Balanced b)
    {s rest : List Bytes} {top : Bytes} {m' : Machine.State}
    (hexec : Machine.exec op (deployedCode ref a b) ⟨s, [], []⟩ = some m')
    (hstack : m'.stack = top :: rest)
    (htop : truthy top = true) : Passed ctx ref := by
  rw [deployedCode, Machine.exec_append] at hexec
  obtain ⟨m₁, hhead, hexec⟩ := Option.bind_eq_some_iff.mp hexec
  rw [(does_deployedHead hop).taken s [] [] rfl] at hhead
  cases s with
  | nil => cases hhead
  | cons x s =>
    rw [spendOp_swap] at hhead
    cases hhead
    have hclone : Balanced (.op 0x75 :: a ++ deployedClone) :=
      (show Balanced (.op 0x75 :: a) from ha).append (by decide)
    have hburn : Balanced (deployedBurn ++ b) := Balanced.append (by decide) hb
    obtain ⟨x', s', m₂, hs, hsame, hbranch⟩ :=
      Machine.exec_ifElse hclone hburn rfl hexec
    cases hs
    by_cases hx : truthy x = true
    · rw [if_pos hx, Machine.exec_append] at hbranch
      obtain ⟨m₃, hfront, hlast⟩ := Option.bind_eq_some_iff.mp hbranch
      have hcond : m₃.cond = [true] :=
        Balanced.cond (show Balanced (.op 0x75 :: a) from ha) hfront
      rw [(does_deployedClone hop).taken m₃.stack m₃.alt m₃.cond
        (by rw [hcond]; rfl)] at hlast
      obtain ⟨s₂, hmap, rfl⟩ := Option.map_eq_some_iff.mp hlast
      obtain ⟨o, ho, rfl⟩ := Option.map_eq_some_iff.mp hmap
      rw [hstack] at hsame
      cases hsame
      exact .inr (.inl ⟨o, ho, truthy_boolBytes.mp htop⟩)
    · rw [if_neg hx, Machine.exec_append] at hbranch
      obtain ⟨m₃, hfront, -⟩ := Option.bind_eq_some_iff.mp hbranch
      rw [(does_deployedBurn hop).taken _ _ _ rfl] at hfront
      obtain ⟨s₂, hline, -⟩ := Option.map_eq_some_iff.mp hfront
      exact .inl (burned_of_deployedBurn href hline)

end Checks

/-! ## The main theorem -/

/-- An accepted credential names the owner its script does. -/
theorem assertSoulbound_owner {credential : ResolvedCredential}
    {minConfirmations : Int} {expected : Option Bytes} {pkh : Bytes}
    (h : assertSoulbound credential minConfirmations expected = .ok pkh) :
    extractOwnerPkh credential.currentSpk = some pkh := by
  unfold assertSoulbound at h
  obtain ⟨-, h⟩ := refuseIf_bind_ok.mp h
  obtain ⟨-, -, h⟩ := bind_ok.mp h
  obtain ⟨-, h⟩ := refuseIf_bind_ok.mp h
  split at h
  · next owner howner =>
    cases h
    exact howner
  · cases h

/-- An accepted script has that owner. -/
theorem AcceptedAs.owner {spk pkh : Bytes} (h : AcceptedAs spk pkh) :
    extractOwnerPkh spk = some pkh := by
  obtain ⟨credential, minConfirmations, expected, rfl, h | h⟩ := h
  · exact assertSoulbound_owner h
  · unfold verifyCredentialBinding at h
    obtain ⟨-, h⟩ := refuseIf_bind_ok.mp h
    obtain ⟨owner, howner, h⟩ := bind_ok.mp h
    rw [← not_not.mp (refuseIf_ok.mp h)]
    exact assertSoulbound_owner howner

/-- **A script that is accepted and checks on every path keeps its token with
its owner**, whatever the opcodes mean that the checks do not use. -/
theorem replicating_immovable (opOf : SpendCtx → OpSem)
    (hop : ∀ ctx, RunsGuards (opOf ctx) ctx)
    (spk ref pkh : Bytes) (haccepted : AcceptedAs spk pkh)
    (htrue : TrulySoulbound spk ref) :
    Immovable opOf spk ref pkh := by
  intro ctx stack hspent honce hcoll hrun o ho hcarries
  obtain ⟨⟨ts, hread, hpaths⟩, ⟨hcode, href⟩, howner⟩ := htrue
  subst hspent
  obtain ⟨top, rest, hrun, htop⟩ := hrun
  obtain ⟨ts', hread', hrun⟩ := Option.bind_eq_some_iff.mp hrun
  rw [hread] at hread'
  cases hread'
  obtain ⟨m, hexec, hend⟩ := Option.bind_eq_some_iff.mp hrun
  have hpassed : Passed ctx ref := by
    rcases hpaths with hreplicates | ⟨a, b, ha, hb, rfl⟩
    · exact hreplicates.ensures (hop ctx) href hcode hcoll _ m rfl hexec
    · split at hend
      · exact deployed_passed (hop ctx) href ha hb hexec
          (Option.some.inj hend) htop
      · cases hend
  have hclones := hpassed.kept honce hcode ho hcarries
  refine ⟨hclones, ?_⟩
  rw [hclones, howner, haccepted.owner]

/-- The script of the token on the chain. -/
def artSpk : Bytes :=
  [0xD8, 0x02, 0x0E, 0xAB, 0x29, 0x10, 0x8D, 0xE3, 0x12, 0x37, 0x29, 0x31, 0x18,
    0xDA, 0x44, 0xEB, 0x87, 0x08, 0x82, 0x88, 0x9A, 0xB8, 0xC7, 0x71, 0x3A,
    0x2C, 0x53, 0x02, 0xD7, 0x3F, 0x6B, 0x0D, 0x7E, 0x00, 0x00, 0x00, 0x00,
    0x7C, 0x63, 0x75, 0x76, 0xA9, 0x14, 0x71, 0x64, 0x77, 0xDE, 0x74, 0x20,
    0x0C, 0x2E, 0x24, 0x16, 0x17, 0x7C, 0x53, 0xAE, 0xA7, 0x16, 0xF5, 0x03,
    0x5A, 0xC2, 0x88, 0xAD, 0x00, 0xEA, 0xC0, 0xE9, 0x87, 0x67, 0xDE, 0x00,
    0x9C, 0x69, 0x76, 0xA9, 0x14, 0x71, 0x64, 0x77, 0xDE, 0x74, 0x20, 0x0C,
    0x2E, 0x24, 0x16, 0x17, 0x7C, 0x53, 0xAE, 0xA7, 0x16, 0xF5, 0x03, 0x5A,
    0xC2, 0x88, 0xAD, 0x51, 0x68]

def artRef : Bytes := between artSpk 1 37

def artPkh : Bytes := between artSpk 43 63

/-- The owner's part of it: `DUP HASH160 <pkh> EQUALVERIFY CHECKSIGVERIFY`. -/
def artOwner : List Chunk := [.op 0x76, .op 0xA9, .data artPkh,
  .op 0x88, .op 0xAD]

/-- The sample script as the reader splits it. -/
theorem artSpk_read : readCode artSpk.length artSpk =
    some (deployedCode artRef artOwner (artOwner ++ [.op 0x51])) := by decide

theorem artSpk_truly : TrulySoulbound artSpk artRef where
  paths := ⟨_, artSpk_read,
    .inr ⟨artOwner, artOwner ++ [.op 0x51], by decide, by decide, rfl⟩⟩
  ref := by decide
  owner := by decide

theorem artSpk_accepted : AcceptedAs artSpk artPkh := by
  have hread : assertSoulbound ⟨artSpk, some 6⟩ 6 none = .ok artPkh := by decide
  exact ⟨_, _, _, rfl, .inl hread⟩

/-- The statement at the sample script. -/
theorem replicating_immovable_art : Immovable spendOp artSpk artRef artPkh :=
  replicating_immovable spendOp (fun _ => runsGuards_spendOp) artSpk artRef
    artPkh artSpk_accepted artSpk_truly

/-- `<ref> DROP 0 IF OUTPUTBYTECODE UTXOBYTECODE EQUALVERIFY ENDIF` before the
owner's P2PKH. -/
def deadBranchSpk (ref pkh : Bytes) : Bytes :=
  [0xD8] ++ ref ++ [0x75, 0x00, 0x63, 0xCD, 0xC7, 0x88, 0x68, 0x76, 0xA9,
    0x14] ++ pkh ++ [0x88, 0xAC]

/-- A public key, and its hash. -/
def sampleKey : Bytes :=
  [0x02, 0x79, 0xBE, 0x66, 0x7E, 0xF9, 0xDC, 0xBB, 0xAC, 0x55, 0xA0, 0x62, 0x95,
    0xCE, 0x87, 0x0B, 0x07, 0x02, 0x9B, 0xFC, 0xDB, 0x2D, 0xCE, 0x28, 0xD9,
    0x59, 0xF2, 0x81, 0x5B, 0x16, 0xF8, 0x17, 0x98]

def samplePkh : Bytes :=
  [0x75, 0x1E, 0x76, 0xE8, 0x19, 0x91, 0x96, 0xD4, 0x54, 0x94, 0x1C, 0x45, 0xD1,
    0xB3, 0xA3, 0x23, 0xF1, 0x43, 0x3B, 0xD6]

/-- The owner's token, given to another. -/
def movedOut : TxOut := ⟨546, nftFrame artRef artPkh, by decide⟩

/-- The owner signs a transaction with that output alone. -/
def movingCtx : SpendCtx where
  locktime := 0
  requireMinimal := true
  version := 1
  inputs := [{
    txid := List.replicate 32 1
    vout := 0
    out := ⟨100000, deadBranchSpk artRef samplePkh, by decide⟩
    sequence := 0xFFFFFFFF
    sized := by decide }]
  outputs := [movedOut]
  index := 0
  here := by decide
  counted := by decide
  hash160 := fun b => if b = sampleKey then samplePkh else []
  checkSig := fun signature key => signature = [0x30, 0x41] && key = sampleKey

/-- **A covenant in a branch that is never taken is accepted**, and its owner
moves the token to another. -/
theorem dead_branch_moves :
    AcceptedAs (deadBranchSpk artRef samplePkh) samplePkh ∧
    (classifySoulbound (deadBranchSpk artRef samplePkh)).boundRef =
      some artRef ∧
    ¬ Immovable spendOp (deadBranchSpk artRef samplePkh) artRef samplePkh := by
  refine ⟨⟨⟨deadBranchSpk artRef samplePkh, some 6⟩, 6, some artRef, rfl,
    .inl (by decide)⟩,
    by decide, fun h => ?_⟩
  -- the guard stands in a branch that the script never takes
  have honce : CarriedOnce movingCtx artRef := by
    intro i j o p ho hp _ _
    obtain ⟨hi, -⟩ := List.getElem?_eq_some_iff.mp ho
    obtain ⟨hj, -⟩ := List.getElem?_eq_some_iff.mp hp
    have hlen : movingCtx.outputs.length = 1 := rfl
    omega
  have hcoll : NoCollision movingCtx := by
    intro o ho hhash
    rw [List.mem_singleton.mp ho] at hhash
    have hne : hash256 (codeScript movedOut.script) ≠
        hash256 (codeScript
          (deadBranchSpk artRef samplePkh)) := by decide +kernel
    exact absurd hhash hne
  have haccepts : Machine.Accepts (spendOp movingCtx)
    (deadBranchSpk artRef samplePkh)
      [sampleKey, [0x30, 0x41]] := ⟨[1], [], by decide, rfl⟩
  have hcarries : Carries artRef movedOut := by
    show artRef ∈ pushedRefs (nftFrame artRef artPkh)
    decide
  have hkept := (h movingCtx _ rfl honce hcoll haccepts movedOut
    (List.mem_singleton.mpr rfl) hcarries).1
  have hno : codeScript movedOut.script ≠
      codeScript (deadBranchSpk artRef samplePkh) := by decide
  exact hno hkept

end Pyrxd.Glyph
