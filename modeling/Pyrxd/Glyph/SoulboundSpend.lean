import Pyrxd.Glyph.Soulbound

/-!
# What a soulbound covenant lets through

The guards of the two covenants as functions on the stack, and from them exactly
the spends the covenants accept (`soulbound_exact`). The guards are run under
any opcodes that agree with `spendOp` on the ones they use, so that they can
stand in other scripts too.
-/

namespace Pyrxd.Glyph

open Pyrxd.Lib Pyrxd.Tx
open Pyrxd.Swap (GlyphRef)

/-! ## Statements -/

section Statements

variable (ctx : SpendCtx) (ref : Bytes)

def Carries (o : TxOut) : Prop := ref ∈ pushedRefs o.script

/-- The output has the code script of the one that is spent. -/
def Clones (o : TxOut) : Prop :=
  codeScript o.script = codeScript ctx.spent.out.script

/-- No output carries the ref. -/
def Burned : Prop := ∀ o ∈ ctx.outputs, ¬ Carries ref o

/-- Output 0 is byte-identical to the script that is spent. -/
def FirstIsClone : Prop := ctx.outputs.head?.map TxOut.script =
  some ctx.spent.out.script

/-- The output at `i` is the only one with the property. -/
def OnlyOutput (P : TxOut → Prop) (i : Nat) : Prop :=
  ∃ o, ctx.outputs[i]? = some o ∧ P o ∧
    ∀ j p, ctx.outputs[j]? = some p → P p → j = i

/-- One output carries the ref and one output is a clone, the same one. -/
def OneClone : Prop := ∃ i, OnlyOutput ctx (Carries ref) i ∧
  OnlyOutput ctx (Clones ctx) i

/-- No output has another code script with the hash of the spent one's. -/
def NoCollision : Prop := ∀ o ∈ ctx.outputs,
  hash256 (codeScript o.script) = hash256 (codeScript ctx.spent.out.script) →
    Clones ctx o

end Statements

/-! ## The guards -/

section Guards

variable {ctx : SpendCtx} {op : OpSem} {ref : Bytes} {s : List Bytes}

/-- The opcodes of the two guards, and of a third that is on the chain. -/
def guardOps : List UInt8 :=
  [0xDE, 0x00, 0x9C, 0xCD, 0xC0, 0xC7, 0x88, 0x76, 0x75, 0x51, 0x9D, 0xE9, 0xAA,
    0xE6, 0xEA, 0x87, 0x69, 0x7C]

/-- Opcodes under which the guards mean what they say. -/
def RunsGuards (op : OpSem) (ctx : SpendCtx) : Prop :=
  ∀ code ∈ guardOps, op code = spendOp ctx code

/-- The spending semantics runs the guard's opcodes as the guard needs. -/
theorem runsGuards_spendOp : RunsGuards (spendOp ctx) ctx := fun _ _ => rfl

/-- A straight part made of guard opcodes runs alike in every such semantics. -/
theorem does_guardLine (hop : RunsGuards op ctx) {ts : List Chunk}
    (hts : ∀ t ∈ ts, Machine.Straight t)
    (hcodes : ∀ code, Chunk.op code ∈ ts → code ∈ guardOps) :
    Machine.Does op ts (Machine.line (spendOp ctx) ts) :=
  (Machine.does_line hts).congr (Machine.line_congr fun code hcode =>
    hop code (hcodes code hcode))

/-- No output carries the reference exactly when the introspection counts none.
-/
theorem burned_iff : ctx.txCtx.refOutputCount ref = 0 ↔ Burned ctx ref := by
  show (((ctx.outputs.filter fun o => ref ∈ pushedRefs o.script).length :
    Nat) : Int) = 0 ↔ _
  rw [Int.natCast_eq_zero, List.length_eq_zero_iff, List.filter_eq_nil_iff]
  simp only [decide_eq_true_eq]
  rfl

/-- Go on with the same stack if `p` holds or else `q`. -/
theorem branchOn_boolNum {p : Prop} [Decidable p]
    {f g : List Bytes → Option (List Bytes)} :
    branchOn f g (scriptNum (boolNum p) :: s) = if p then f s else g s := by
  show (if truthy (scriptNum (boolNum p)) = true then f s else g s) = _
  simp only [truthy_boolNum, decide_eq_true_eq]

/-- What the first guard does. -/
def fixedCheck (ctx : SpendCtx) (ref : Bytes) (s : List Bytes) :
    Option (List Bytes) :=
  if ctx.txCtx.refOutputCount ref = 0 then some s
  else if ctx.outputs.head?.map TxOut.script =
    some ctx.spent.out.script then some s
  else none

/-- What the fixed guard does to a stack. -/
theorem does_fixedGuard (hop : RunsGuards op ctx) (href : ref.length = 36) :
    Machine.Does op (fixedGuard ref) (fixedCheck ctx ref) := by
  -- the head asks whether the token is gone, the other branch compares output 0
  have hhead : Machine.Does op [.ref 0xD8 ref, .op 0xDE, .op 0x00, .op 0x9C]
      fun s =>
        some (scriptNum (boolNum (ctx.txCtx.refOutputCount ref = 0)) :: s) := by
    refine (does_guardLine hop ?_ ?_).congr fun s => ?_
    · rw [List.forall_mem_cons]
      exact ⟨trivial, by decide⟩
    · simp only [List.mem_cons, List.not_mem_nil, or_false, reduceCtorEq,
        false_or, Chunk.op.injEq]
      rintro code (rfl | rfl | rfl) <;> decide
    · rw [Machine.line_ref, Machine.line_op, spendOp_refOutputCount href,
        Option.bind_some, Machine.line_op, spendOp_zero, Option.bind_some,
        Machine.line_op]
      have hnum := @spendOp_numEqual ctx s _ 0
        (@numRange_refOutputCount ctx ref) ⟨by decide, by decide⟩
      rw [show scriptNum 0 = [] from rfl] at hnum
      rw [hnum]
      rfl
  have helse : Machine.Does op [.op 0x00, .op 0xCD, .op 0xC0, .op 0xC7,
      .op 0x88] fun s =>
      if ctx.outputs.head?.map TxOut.script =
          some ctx.spent.out.script then some s else none := by
    refine (does_guardLine hop (by decide) ?_).congr fun s => ?_
    · simp only [List.mem_cons, List.not_mem_nil, or_false, Chunk.op.injEq]
      rintro code (rfl | rfl | rfl | rfl | rfl) <;> decide
    · rw [Machine.line_op, spendOp_zero, Option.bind_some, Machine.line_op,
        spendOp_firstOutput]
      cases ctx.outputs.head? with
      | none => rfl
      | some o =>
        rw [Option.map_some, Option.bind_some, Machine.line_op,
          spendOp_ownIndex, Option.bind_some,
          Machine.line_op, spendOp_ownScript, Option.bind_some, Machine.line_op,
            spendOp_equalVerify, Option.map_some]
        simp only [Option.some.injEq]
        split <;> rfl
  refine (hhead.append (Machine.Does.nil.ifElse helse)).congr fun s => ?_
  rw [Option.bind_some, branchOn_boolNum]
  rfl

/-- What the second guard does. -/
def composableCheck (ctx : SpendCtx) (ref : Bytes) (s : List Bytes) :
    Option (List Bytes) :=
  if ctx.txCtx.refOutputCount ref = 0 then some s
  else if ctx.txCtx.refOutputCount ref = 1 ∧
      (SpendCtx.withCode ctx.outputs
        (hash256 (codeScript ctx.spent.out.script))).length = 1 then some s
  else none

/-- What the composable guard does to a stack. -/
theorem does_composableGuard (hop : RunsGuards op ctx)
    (href : ref.length = 36) :
    Machine.Does op (composableGuard ref) (composableCheck ctx ref) := by
  have hhead : Machine.Does op [.ref 0xD8 ref, .op 0xDE, .op 0x76, .op 0x00,
      .op 0x9C] fun s =>
      some (scriptNum (boolNum (ctx.txCtx.refOutputCount ref = 0)) ::
        scriptNum (ctx.txCtx.refOutputCount ref) :: s) := by
    refine (does_guardLine hop ?_ ?_).congr fun s => ?_
    · rw [List.forall_mem_cons]
      exact ⟨trivial, by decide⟩
    · simp only [List.mem_cons, List.not_mem_nil, or_false, reduceCtorEq,
        false_or, Chunk.op.injEq]
      rintro code (rfl | rfl | rfl | rfl) <;> decide
    · rw [Machine.line_ref, Machine.line_op, spendOp_refOutputCount href,
        Option.bind_some, Machine.line_op, spendOp_dup, Option.bind_some,
        Machine.line_op, spendOp_zero, Option.bind_some, Machine.line_op]
      have hnum := @spendOp_numEqual ctx (scriptNum (ctx.txCtx.refOutputCount
        ref) :: s) _ 0 (@numRange_refOutputCount ctx ref) ⟨by decide, by decide⟩
      rw [show scriptNum 0 = [] from rfl] at hnum
      rw [hnum]
      rfl
  have hdrop : Machine.Does op [.op 0x75]
      (Machine.line (spendOp ctx) [.op 0x75]) := by
    refine does_guardLine hop (by decide) ?_
    simp only [List.mem_cons, List.not_mem_nil, or_false, Chunk.op.injEq]
    rintro code rfl
    decide
  have helse : Machine.Does op [.op 0x51, .op 0x9D, .op 0xC0, .op 0xE9,
      .op 0xAA, .op 0xE6, .op 0x51, .op 0x9D] (Machine.line (spendOp ctx)
        [.op 0x51, .op 0x9D, .op 0xC0, .op 0xE9, .op 0xAA, .op 0xE6, .op 0x51,
          .op 0x9D]) := by
    refine does_guardLine hop (by decide) ?_
    simp only [List.mem_cons, List.not_mem_nil, or_false, Chunk.op.injEq]
    rintro code (rfl | rfl | rfl | rfl | rfl | rfl | rfl | rfl) <;> decide
  refine (hhead.append (hdrop.ifElse helse)).congr fun s => ?_
  rw [Option.bind_some, branchOn_boolNum, composableCheck]
  -- no output with the reference is a burn, one has to be the clone, more fail
  by_cases hburn : ctx.txCtx.refOutputCount ref = 0
  · rw [if_pos hburn, if_pos hburn, Machine.line_op, spendOp_drop]
    rfl
  · rw [if_neg hburn, if_neg hburn, Machine.line_op, spendOp_one,
      Option.bind_some, Machine.line_op, spendOp_numEqualVerify
      numRange_refOutputCount ⟨by decide, by decide⟩, require]
    by_cases hone : ctx.txCtx.refOutputCount ref = 1
    · rw [if_pos hone, Option.bind_some, Machine.line_op, spendOp_ownIndex,
        Option.bind_some, Machine.line_op, spendOp_ownCode, Option.bind_some,
        Machine.line_op, spendOp_hash256, Option.bind_some, Machine.line_op,
        @spendOp_codeHashOutputs ctx s (hash256 _) (length_sha256 _),
        Option.bind_some, Machine.line_op, spendOp_one, Option.bind_some,
        Machine.line_op, spendOp_numEqualVerify numRange_withCode
        ⟨by decide, by decide⟩, require]
      simp only [hone, true_and, Nat.cast_eq_one]
      split <;> rfl
    · rw [if_neg hone, if_neg fun h => hone h.1]
      rfl

end Guards

/-! ## What the covenants accept -/

section Accepts

variable {ctx : SpendCtx} {ref pkh : Bytes} {stack : List Bytes}

/-- A guard in front of a P2PKH tail. -/
theorem accepts_guarded {guard : List Chunk}
    {check : List Bytes → Option (List Bytes)} {ok : Prop}
    (hguard : Machine.Does (spendOp ctx) guard check)
    (hfine : ∀ t ∈ guard ++ p2pkhCode pkh, t.Ok)
    (hcheck : ∀ s, check s = some s ∧ ok ∨ check s = none ∧ ¬ ok) :
    Machine.Accepts (spendOp ctx)
      (assembleCode (guard ++ p2pkhCode pkh)) stack ↔
      SignedBy ctx pkh stack ∧ ok := by
  have htail : Machine.Does (spendOp ctx) (p2pkhCode pkh) (p2pkh ctx pkh) := by
    refine (Machine.does_line ?_).congr fun s => line_p2pkh s
    simp only [p2pkhCode, List.forall_mem_cons]
    exact ⟨by decide, by decide, trivial, by decide, by decide, List.forall_mem_nil _⟩
  rw [Machine.accepts_does hfine (hguard.append htail)]
  rcases hcheck stack with ⟨hrun, hok⟩ | ⟨hrun, hno⟩
  · rw [hrun, Option.bind_some, p2pkh_true]
    exact ⟨fun h => ⟨h, hok⟩, fun h => h.1⟩
  · rw [hrun, Option.bind_none]
    exact ⟨nofun, fun h => absurd h.2 hno⟩

/-- The fixed guard passes on a burn or a clone in the first output, and on
nothing else. -/
theorem fixedCheck_cases (s : List Bytes) :
    fixedCheck ctx ref s = some s ∧ (Burned ctx ref ∨ FirstIsClone ctx) ∨
      fixedCheck ctx ref s = none ∧ ¬ (Burned ctx ref ∨ FirstIsClone ctx) := by
  unfold fixedCheck
  by_cases hburn : ctx.txCtx.refOutputCount ref = 0
  · exact .inl ⟨if_pos hburn, .inl (burned_iff.mp hburn)⟩
  · rw [if_neg hburn]
    rw [burned_iff] at hburn
    by_cases hclone : FirstIsClone ctx
    · exact .inl ⟨if_pos hclone, .inr hclone⟩
    · exact .inr ⟨if_neg hclone, not_or.mpr ⟨hburn, hclone⟩⟩

/-- One output is left by a filter just when it is the only one with the
property. -/
theorem filter_one {α : Type} {P : α → Prop} [DecidablePred P] {l : List α} :
    (l.filter P).length = 1 ↔ ∃ (i : Nat) (o : α), l[i]? = some o ∧ P o ∧
    ∀ (j : Nat) (p : α), l[j]? = some p → P p → j = i := by
  -- along the list: the one hit is the head, or in the tail
  induction l with
  | nil =>
    constructor
    · nofun
    · rintro ⟨i, o, ho, -⟩
      cases ho
  | cons x l ih =>
    by_cases hx : P x
    · have hcons : (x :: l).filter (fun b => P b) =
          x :: l.filter fun b => P b :=
        List.filter_cons_of_pos (decide_eq_true hx)
      rw [hcons, List.length_cons, Nat.add_eq_right,
        List.length_eq_zero_iff, List.filter_eq_nil_iff]
      simp only [decide_eq_true_eq]
      constructor
      · intro hnone
        refine ⟨0, x, rfl, hx, fun j p hp hP => ?_⟩
        cases j with
        | zero => rfl
        | succ j => exact absurd hP (hnone p (List.mem_of_getElem? hp))
      · rintro ⟨i, o, -, -, honly⟩ p hp hP
        obtain ⟨j, hj⟩ := List.mem_iff_getElem?.mp hp
        have h0 := honly 0 x rfl hx
        have hsucc := honly (j + 1) p hj hP
        omega
    · have hcons : (x :: l).filter (fun b => P b) = l.filter fun b => P b :=
        List.filter_cons_of_neg (by rwa [decide_eq_true_eq])
      rw [hcons, ih]
      constructor
      · rintro ⟨i, o, ho, hP, honly⟩
        refine ⟨i + 1, o, ho, hP, fun j p hp hPp => ?_⟩
        cases j with
        | zero =>
          cases hp
          exact absurd hPp hx
        | succ j => rw [honly j p hp hPp]
      · rintro ⟨i, o, ho, hP, honly⟩
        cases i with
        | zero =>
          cases ho
          exact absurd hP hx
        | succ i =>
          refine ⟨i, o, ho, hP, fun j p hp hPp => ?_⟩
          have hsucc := honly (j + 1) p hp hPp
          omega

/-- A count of one is one output that carries the reference. -/
theorem count_one_iff : ctx.txCtx.refOutputCount ref = 1 ↔
    ∃ i, OnlyOutput ctx (Carries ref) i := by
  show (((ctx.outputs.filter fun o => ref ∈ pushedRefs o.script).length :
    Nat) : Int) = 1 ↔ _
  rw [Nat.cast_eq_one]
  exact filter_one

/-- A count of one under the code hash is one output with this very code. -/
theorem clones_one_iff (hcoll : NoCollision ctx) :
    (SpendCtx.withCode ctx.outputs
      (hash256 (codeScript ctx.spent.out.script))).length = 1 ↔
      ∃ i, OnlyOutput ctx (Clones ctx) i := by
  have hsame : ∀ o ∈ ctx.outputs, hash256 (codeScript o.script) =
    hash256 (codeScript ctx.spent.out.script) ↔
      Clones ctx o := fun o ho => ⟨hcoll o ho, fun h => by rw [h]⟩
  rw [SpendCtx.withCode, filter_one]
  refine exists_congr fun i => ?_
  constructor
  · rintro ⟨o, ho, hhash, honly⟩
    exact ⟨o, ho, (hsame o (List.mem_of_getElem? ho)).mp hhash,
      fun j p hp hclone =>
        honly j p hp ((hsame p (List.mem_of_getElem? hp)).mpr hclone)⟩
  · rintro ⟨o, ho, hclone, honly⟩
    exact ⟨o, ho, (hsame o (List.mem_of_getElem? ho)).mpr hclone,
      fun j p hp hhash =>
        honly j p hp ((hsame p (List.mem_of_getElem? hp)).mp hhash)⟩

/-- Code without a state separator is its own code script. -/
theorem codeScript_plain {ts : List Chunk} (hts : ∀ t ∈ ts, t.Ok)
    (hplain : ∀ t ∈ ts, t ≠ .op 0xBD) :
    codeScript (assembleCode ts) = assembleCode ts := by
  have hgo : ∀ fuel, afterSeparator fuel (assembleCode ts) = none := by
    induction ts with
    | nil => intro fuel; cases fuel <;> rfl
    | cons t ts ih =>
      intro fuel
      cases fuel with
      | zero => rfl
      | succ fuel =>
        have happ : assembleCode (t :: ts) = t.bytes ++ assembleCode ts := rfl
        have hrest := ih (fun u hu => hts u (List.mem_cons_of_mem _ hu))
          (fun u hu => hplain u (List.mem_cons_of_mem _ hu)) fuel
        rw [afterSeparator, happ, readChunk_bytes (hts t List.mem_cons_self)]
        show (if t = .op 0xBD then _
          else afterSeparator fuel (assembleCode ts)) = none
        rw [if_neg (hplain t List.mem_cons_self), hrest]
  rw [codeScript, hgo, Option.getD_none]

/-- A clone of code that pushes a ref carries it. -/
theorem carries_of_clones
    (href : ref ∈ pushedRefs (codeScript ctx.spent.out.script)) {o : TxOut}
    (h : Clones ctx o) : Carries ref o := by
  rw [← h] at href
  exact refsBehind_codeScript href

/-- The composable guard passes on a burn or on one clone. -/
theorem composableCheck_cases (hcoll : NoCollision ctx)
    (hclone : ∀ o, Clones ctx o → Carries ref o)
    (s : List Bytes) :
    composableCheck ctx ref s = some s ∧ (Burned ctx ref ∨ OneClone ctx ref) ∨
      composableCheck ctx ref s = none ∧
        ¬ (Burned ctx ref ∨ OneClone ctx ref) := by
  unfold composableCheck
  by_cases hburn : ctx.txCtx.refOutputCount ref = 0
  · exact .inl ⟨if_pos hburn, .inl (burned_iff.mp hburn)⟩
  · have hone : (ctx.txCtx.refOutputCount ref = 1 ∧
        (SpendCtx.withCode ctx.outputs
          (hash256 (codeScript ctx.spent.out.script))).length = 1) ↔
        OneClone ctx ref := by
      rw [count_one_iff, clones_one_iff hcoll]
      constructor
      · rintro ⟨⟨i, hi⟩, j, hj⟩
        obtain ⟨o, ho, hclones, honly⟩ := hj
        obtain ⟨p, hp, hcarries, honly'⟩ := hi
        obtain rfl := honly' j o ho (hclone o hclones)
        exact ⟨j, ⟨p, hp, hcarries, honly'⟩, o, ho, hclones, honly⟩
      · rintro ⟨i, hi, hj⟩
        exact ⟨⟨i, hi⟩, i, hj⟩
    rw [if_neg hburn]
    rw [burned_iff] at hburn
    by_cases h : OneClone ctx ref
    · exact .inl ⟨if_pos (hone.mpr h), .inr h⟩
    · exact .inr ⟨if_neg fun hc => h (hone.mp hc), not_or.mpr ⟨hburn, h⟩⟩

end Accepts

/-! ## The main theorem -/

/-- A covenant whose spends are the owner's and leave the ref nowhere but as
`recurs` says, and which the readers take for what it is. -/
structure SoulboundExact (c : SoulboundNftCovenant) (ref pkh : Bytes)
    (sound recurs : SpendCtx → Prop) : Prop where
  bound : c.genesisRef = ref ∧ c.ownerPkh = pkh
  opens : ∀ ctx stack, ctx.spent.out.script = c.fundedSpk → sound ctx →
    (Machine.Accepts (spendOp ctx) c.fundedSpk stack ↔
      SignedBy ctx pkh stack ∧ (Burned ctx ref ∨ recurs ctx))
  classified : (classifySoulbound c.fundedSpk).transferability =
    .soulboundCovenant ∧
    (classifySoulbound c.fundedSpk).boundRef = some ref
  owner : extractOwnerPkh c.fundedSpk = some pkh

section Main

variable {ref pkh : Bytes}

/-- The fixed covenant is exactly soulbound. -/
theorem fixed_exact (href : ref.length = 36) (hpkh : pkh.length = 20) :
    SoulboundExact ⟨soulboundSpk ref pkh, ref, pkh⟩ ref pkh
      (fun _ => True) FirstIsClone where
  bound := ⟨rfl, rfl⟩
  opens := by
    intro ctx stack _ _
    show Machine.Accepts (spendOp ctx) (soulboundSpk ref pkh) stack ↔ _
    rw [← fixedCode_bytes hpkh]
    exact accepts_guarded (does_fixedGuard runsGuards_spendOp href)
      (fun t ht => (fixedCode_fine href hpkh t ht).1) fixedCheck_cases
  classified := by
    show (classifySoulbound (soulboundSpk ref pkh)).transferability = _ ∧ _
    rw [classify_fixed href hpkh]
    exact ⟨rfl, rfl⟩
  owner := owner_fixed href hpkh

/-- The composable code holds no separator. -/
theorem composableCode_plain : ∀ t ∈ composableCode ref pkh, t ≠ .op 0xBD := by
  have hops : ∀ t ∈ composableOps, t ≠ .op 0xBD := by decide
  intro t ht
  simp only [composableCode, composableGuard_eq, p2pkhCode, List.cons_append,
    List.nil_append, List.mem_cons, List.mem_append, List.not_mem_nil,
    or_false] at ht
  rcases ht with rfl | rfl | rfl | ht | rfl | rfl | rfl | rfl | rfl
  · exact fun h => by cases h
  · decide
  · decide
  · exact hops t ht
  · decide
  · decide
  · exact fun h => by cases h
  · decide
  · decide

/-- The composable covenant is exactly soulbound where hashes do not collide. -/
theorem composable_exact (href : ref.length = 36) (hpkh : pkh.length = 20) :
    SoulboundExact ⟨composableSpk ref pkh, ref,
      pkh⟩ ref pkh NoCollision fun ctx => OneClone ctx ref where
  bound := ⟨rfl, rfl⟩
  opens := by
    intro ctx stack hspent hcoll
    have hfine := fun t ht => (@composableCode_fine ref pkh href hpkh t ht).1
    have hpushed : ref ∈ pushedRefs (codeScript ctx.spent.out.script) := by
      rw [hspent, ← composableCode_bytes hpkh,
        codeScript_plain hfine composableCode_plain, pushedRefs, refsBehind,
        readCode_assemble hfine (Nat.le_refl _)]
      exact List.mem_cons_self
    have hclone : ∀ o, Clones ctx o → Carries ref o :=
      fun o ho => carries_of_clones hpushed ho
    show Machine.Accepts (spendOp ctx) (composableSpk ref pkh) stack ↔ _
    rw [← composableCode_bytes hpkh]
    exact accepts_guarded (does_composableGuard runsGuards_spendOp href) hfine
      (composableCheck_cases hcoll hclone)
  classified := by
    show (classifySoulbound (composableSpk ref pkh)).transferability = _ ∧ _
    rw [classify_composable href hpkh]
    exact ⟨rfl, rfl⟩
  owner := owner_composable href hpkh

end Main

/-- **Both builders return, whatever bytes the ref and the hash hold, and their
covenants open exactly for the owner who burns the token or lets it recur.** -/
theorem soulbound_exact (genesisRef : GlyphRef) (pkh : Bytes)
    (hpkh : pkh.length = 20) : ∃ ref fixed composable, genesisRef.toBytes =
    .ok ref ∧ buildSoulboundNftCovenant genesisRef pkh = .ok fixed ∧
    buildComposableSoulboundNftCovenant genesisRef pkh = .ok composable ∧
      SoulboundExact fixed ref pkh (fun _ => True) FirstIsClone ∧
      SoulboundExact composable ref pkh NoCollision fun ctx =>
        OneClone ctx ref := by
  obtain ⟨ref, -, href, hlen, -, -⟩ := glyphRef_reread genesisRef
  exact ⟨ref, _, _, href, buildSoulboundNftCovenant_returns href hpkh,
    buildComposableSoulboundNftCovenant_returns href hpkh,
      fixed_exact hlen hpkh, composable_exact hlen hpkh⟩

/-- A ref and a hash made of opcode bytes. -/
def opcodeRef : GlyphRef := ⟨hex (List.replicate 32 0xD8), 0xBD,
  Swap.isTxid_hex rfl, by decide, by decide⟩

/-- The statement at a reference and an owner made of opcode bytes. -/
theorem soulbound_exact_opcodes : ∃ ref fixed composable,
    opcodeRef.toBytes = .ok ref ∧ buildSoulboundNftCovenant opcodeRef
      (List.replicate 20 0x76) = .ok fixed ∧ buildComposableSoulboundNftCovenant
      opcodeRef (List.replicate 20 0x76) = .ok composable ∧
      SoulboundExact fixed ref (List.replicate 20 0x76)
        (fun _ => True) FirstIsClone ∧
      SoulboundExact composable ref (List.replicate 20 0x76) NoCollision
        fun ctx => OneClone ctx ref :=
  soulbound_exact opcodeRef (List.replicate 20 0x76) (by decide)

end Pyrxd.Glyph
