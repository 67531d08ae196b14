import Pyrxd.Gravity.CoordinatorSafety
import Pyrxd.Gravity.RadiantLeg

/-!
# What the Radiant leg looks for and spends

The funded script the leg derives carries the terms of the record and no others,
so that comparing scripts compares terms. What it then spends is the output of
that script it finds in the client's list by its value, if there is just one.
-/

namespace Pyrxd.Gravity

open Pyrxd.Lib Pyrxd.Tx Pyrxd.Swap Htlc

/-! ## The terms in the script -/

section Terms

variable {p q : CovenantParams} {c d : HtlcCovenant}

/-- **Equal funded scripts, equal terms.** -/
theorem build_binds (hp : p.build = .ok c) (hq : q.build = .ok d)
    (h : c.fundedSpk = d.fundedSpk) :
    p.variant = q.variant ∧ p.hashlock = q.hashlock ∧
    p.refundCsv = q.refundCsv ∧
      p.amount = q.amount ∧ c.expectedTakerHash = d.expectedTakerHash ∧
      c.expectedMakerHash = d.expectedMakerHash ∧
        c.genesisRef = d.genesisRef := by
  obtain ⟨ref, -, hok, rfl⟩ := build_ok hp
  obtain ⟨ref', -, hok', rfl⟩ := build_ok hq
  have hb := HtlcBinding.fundedCode_injective hok hok' h
  exact ⟨congrArg HtlcBinding.variant hb, congrArg HtlcBinding.hashlock hb,
    congrArg HtlcBinding.refundCsv hb, congrArg HtlcBinding.amount hb,
    congrArg HtlcBinding.takerHash hb, congrArg HtlcBinding.makerHash hb,
      congrArg HtlcBinding.ref hb⟩

/-- Arguments every builder has to accept: a genesis outpoint is a transaction
id of 32 bytes and an index of 32 bits. -/
structure CovenantParams.Valid (p : CovenantParams) : Prop where
  inRange : p.InRange
  outpoint : ∀ txid vout, p.asset = .ft txid vout ∨ p.asset = .nft txid vout →
    (∃ b, fromHex txid = some b ∧ b.length = 32) ∧ 0 ≤ vout ∧ vout ≤ 0xFFFFFFFF

/-- An outpoint in range has a reference on the wire. -/
theorem refWire_of_outpoint {txid : String} {vout : Int} {b : Bytes}
    (hb : fromHex txid = some b)
    (hlen : b.length = 32) (h0 : 0 ≤ vout) (hmax : vout ≤ 0xFFFFFFFF) :
    ∃ ref, refWire txid vout = .ok ref ∧ ref.length = 36 := by
  refine ⟨b.reverse ++ leBytes 4 vout.toNat, ?_, ?_⟩
  · rw [refWire, refuseIf, if_neg (by omega), ok_bind, txidBytes, hb]
    show (toBytesLe 4 vout >>= fun v => Except.ok (b.reverse ++ v)) = _
    rw [toBytesLe, if_neg (by omega), if_pos (by omega), ok_bind]
  · rw [List.length_append, List.length_reverse, hlen, length_leBytes]

/-- So valid parameters have one. -/
theorem CovenantParams.Valid.refIs (h : p.Valid) : ∃ ref, p.RefIs ref := by
  unfold CovenantParams.RefIs
  cases hasset : p.asset with
  | rxd => exact ⟨[], rfl⟩
  | ft txid vout =>
    obtain ⟨⟨b, hb, hlen⟩, h0, hmax⟩ := h.outpoint txid vout (.inl hasset)
    exact refWire_of_outpoint hb hlen h0 hmax
  | nft txid vout =>
    obtain ⟨⟨b, hb, hlen⟩, h0, hmax⟩ := h.outpoint txid vout (.inr hasset)
    exact refWire_of_outpoint hb hlen h0 hmax

end Terms

section Leg

variable {leg : RadiantCovenantLeg} {terms : NegotiatedTerms}
  {cov : HtlcCovenant}

/-- The covenant of these terms. -/
structure CovenantOf (terms : NegotiatedTerms) (amount : Int)
    (cov : HtlcCovenant) : Prop where
  variant : cov.variant = terms.assetVariant
  hashlock : cov.hashlock = terms.hashlock
  refundCsv : cov.refundCsv = terms.tRxd.value
  amount : amount = terms.radiantAmount
  takerHash : cov.expectedTakerHash = terms.takerDestHash
  makerHash : cov.expectedMakerHash = terms.makerDestHash
  genesisRef : cov.genesisRef = if terms.assetVariant = .rxd then []
    else terms.genesisRef

/-- A ref read from its bytes is written back to them. -/
theorem refWire_fromBytes {ref : GlyphRef} {data : Bytes}
    (h : GlyphRef.fromBytes data = .ok ref) :
    refWire ref.txid ref.vout = .ok data := by
  have hwrite := GlyphRef.Spelled.toBytes h
  have hv := ref.ofVout
  rw [GlyphRef.toBytes] at hwrite
  rw [refWire, refuseIf, if_neg (by omega), ok_bind, hwrite]

/-- What `_build_covenant` hands on was built for the terms. -/
theorem buildCovenant_ok (h : leg.buildCovenant terms = .ok cov) :
    ∃ asset, (leg.params terms asset).build = .ok cov ∧
      CovenantOf terms (leg.params terms asset).amount cov := by
  unfold RadiantCovenantLeg.buildCovenant at h
  obtain ⟨-, h⟩ := refuseIf_bind_ok.mp h
  obtain ⟨c, hc, h⟩ := bind_ok.mp h
  obtain ⟨htaker, h⟩ := refuseIf_bind_ok.mp h
  obtain ⟨hmaker, h⟩ := refuseIf_bind_ok.mp h
  cases h
  -- which builder was called, and with which ref
  have hasset : ∃ asset, (leg.params terms asset).build = .ok cov ∧
      (leg.params terms asset).variant = terms.assetVariant ∧
      ∀ ref, (leg.params terms asset).RefIs ref →
        ref = if terms.assetVariant = .rxd then [] else terms.genesisRef := by
    cases hv : terms.assetVariant with
    | rxd =>
      rw [hv] at hc
      exact ⟨.rxd, hc, rfl, fun ref href => href⟩
    | ft =>
      rw [hv] at hc
      obtain ⟨ref, href, hc⟩ := bind_ok.mp hc
      refine ⟨.ft ref.txid ref.vout, hc, rfl, ?_⟩
      rintro r ⟨hr, -⟩
      rw [refWire_fromBytes href] at hr
      exact (Except.ok.inj hr).symm
    | nft =>
      rw [hv] at hc
      obtain ⟨ref, href, hc⟩ := bind_ok.mp hc
      refine ⟨.nft ref.txid ref.vout, hc, rfl, ?_⟩
      rintro r ⟨hr, -⟩
      rw [refWire_fromBytes href] at hr
      exact (Except.ok.inj hr).symm
  obtain ⟨asset, hbuild, hvariant, href⟩ := hasset
  refine ⟨asset, hbuild, ?_⟩
  obtain ⟨ref, hr, -, rfl⟩ := build_ok hbuild
  exact ⟨hvariant, rfl, rfl, rfl, not_not.mp htaker,
    not_not.mp hmaker, href ref hr⟩

/-- The expected script is the built covenant's. -/
theorem expectedCovenantScriptpubkey_ok {spk : Bytes} :
    leg.expectedCovenantScriptpubkey terms = .ok spk ↔
      ∃ cov, leg.buildCovenant terms = .ok cov ∧ spk = cov.fundedSpk := by
  unfold RadiantCovenantLeg.expectedCovenantScriptpubkey
  rw [bind_ok]
  constructor
  · rintro ⟨c, hc, h⟩
    cases h
    exact ⟨c, hc, rfl⟩
  · rintro ⟨c, hc, rfl⟩
    exact ⟨c, hc, rfl⟩

/-- A covenant with the script derived from the terms is a covenant of the
terms. -/
theorem covenantOf_expected {spk : Bytes}
    (h : leg.expectedCovenantScriptpubkey terms = .ok spk)
    {q : CovenantParams} {d : HtlcCovenant} (hq : q.build = .ok d)
    (hspk : d.fundedSpk = spk) :
    CovenantOf terms q.amount d := by
  obtain ⟨cov, hcov, rfl⟩ := expectedCovenantScriptpubkey_ok.mp h
  obtain ⟨asset, hp, hof⟩ := buildCovenant_ok hcov
  obtain ⟨hv, hh, hcsv, ham, ht, hm, hr⟩ := build_binds hq hp hspk
  obtain ⟨ref, -, -, rfl⟩ := build_ok hq
  obtain ⟨ref', -, -, rfl⟩ := build_ok hp
  exact ⟨hv.trans hof.variant, hh.trans hof.hashlock, hcsv.trans hof.refundCsv,
    ham.trans hof.amount,
    ht.trans hof.takerHash, hm.trans hof.makerHash, hr.trans hof.genesisRef⟩

end Leg

/-! ## The comparison -/

/-- The collaborator asked for the script is this leg. -/
def LegAnswers (leg : RadiantCovenantLeg) (env : Env) : Prop :=
  ∀ t terms, env t (.expectedCovenantScriptpubkey terms) =
    (leg.expectedCovenantScriptpubkey terms).map PyObj.bytes

/-- What a run was answered, the world answered. -/
theorem runCalls_answered {c : Coordinator} {env : Env} :
    ∀ {calls : List StepCall} {r : SwapRecord}
      {history : List StepEvent} {d : Done},
      d ∈ runCalls c env calls r history →
        ∀ {s : SwapRecord} {op : Op} {a : Except PyErr PyObj},
      .call s op a ∈ d.run.trace → ∃ t, a = env t op := by
  intro calls
  induction calls with
  | nil => intro r history d hd; cases hd
  | cons call calls ih =>
    intro r history d hd s op a h
    rcases List.mem_cons.mp hd with rfl | hd
    · rcases Prog.run_call_answered _ _ _ _ h with ht | ⟨t, ht⟩
      · cases ht
      · exact ⟨history ++ t, ht⟩
    · exact ih hd h

/-- The script a call compared its argument with was derived from the terms. -/
theorem covenantMatched_leg {leg : RadiantCovenantLeg}
    {c : Coordinator} {env : Env}
    (henv : LegAnswers leg env) {calls : List StepCall} {r : SwapRecord}
    {history : List StepEvent}
    {d : Done} (hd : d ∈ runCalls c env calls r history)
    {pre post : List StepEvent} {e : StepEvent}
    (htrace : d.run.trace = pre ++ e :: post) {s : SwapRecord}
    (h : CovenantMatched d.call pre s) :
    ∃ arg now observed, d.call = .postAssetLockRevalidate arg now ∧
    arg.toBytes = .ok observed ∧
      leg.expectedCovenantScriptpubkey s.terms = .ok observed := by
  obtain ⟨arg, now, observed, s', answer, hcall, harg, hmem, hanswer⟩ := h
  refine ⟨arg, now, observed, hcall, harg, ?_⟩
  obtain ⟨t, ht⟩ := runCalls_answered hd (show _ ∈ d.run.trace by
    rw [htrace]
    exact List.mem_append_left _ hmem)
  rw [henv] at ht
  cases hspk : leg.expectedCovenantScriptpubkey s.terms with
  | error e =>
    rw [hspk] at ht
    cases ht
  | ok spk =>
    rw [hspk] at ht
    cases ht
    rw [← hanswer]
    rfl

/-- The script of the terms is let through. -/
theorem revalidate_enters {c : Coordinator} {env : Env}
    {r : SwapRecord} {spk : Bytes}
    {outpoint : String} {n : Option Int} (hstate : r.state = .btcLocked)
    (hchain : r.terms.counterChain = .btc)
    (hexp : ∀ t, env t (.expectedCovenantScriptpubkey r.terms) =
      .ok (.bytes spk))
    (hout : ∀ t, env t (.covenantOutpoint r.terms) = .ok (.str outpoint)) :
    ∃ pre s s' post,
      ((postAssetLockRevalidate c (.bytes spk) n).run env r []).trace =
      pre ++ .write s s' :: post ∧ s.state = .btcLocked ∧
        s'.state = .bothLocked := by
  obtain ⟨r', hr', hstate'⟩ : ∃ r', r.withRadiantLock (some outpoint)
      (hex spk) = .ok r' ∧
      r'.state = .btcLocked := by
    have hvalid := RecordFields.postInit_ok.mp r.valid
    refine ⟨⟨{ r.toRecordFields with
      radiantCovenantOutpoint := some outpoint, radiantCovenantSpkHex := some (hex spk) },
      RecordFields.postInit_ok.mpr ⟨hvalid.1, ?_⟩⟩, SwapRecord.new_ok.mpr rfl, hstate⟩
    intro h hh
    rw [← Option.some.inj (show some (hex spk) = some h from hh), fromHex_hex]
    exact Option.some_ne_none _
  have hguard : (guardState .postAssetLockRevalidate).run env r [] =
      ⟨.ok r, r, []⟩ := by
    have hpass : ¬ r.state ∉ Step.postAssetLockRevalidate.validFrom := by
      rw [hstate]
      decide
    show Prog.run env (Prog.bind
      (.lift (refuseIf (r.state ∉ Step.postAssetLockRevalidate.validFrom)
      (Step.postAssetLockRevalidate.refusal r.state))) _) r [] = _
    rw [refuseIf, if_neg hpass]
    rfl
  have hrecord : ∀ t, (recordRadiantLock (.str outpoint) spk).run env r t =
      ⟨.ok (), r', t ++ [.write r r']⟩ := by
    intro t
    show Prog.run env (Prog.bind
      (.lift (r.withRadiantLock (some outpoint) (hex spk))) _) r t = _
    rw [hr']
    rfl
  have hadvance : ∀ t, (advanceRecord .makerLocksAsset).run env r' t =
      ⟨.ok (), r'.withState .bothLocked,
        t ++ [.write r' (r'.withState .bothLocked)]⟩ := by
    intro t
    show Prog.run env
      (Prog.bind (.lift (advance r'.state .makerLocksAsset)) _) r' t = _
    rw [hstate']
    rfl
  have hcall : ∀ op a t, env t op = .ok a → ∀ s : SwapRecord, (Prog.invoke op :
      Method PyObj).run env s t = ⟨.ok a, s, t ++ [.call s op (.ok a)]⟩ := by
    intro op a t h s
    show Prog.run env (Prog.lift (env t op)) s (t ++
      [.call s op (env t op)]) = _
    rw [h]
    rfl
  have hcatch : ∀ t,
      (Method.catchException (.invoke (.expectedCovenantScriptpubkey r.terms))
      (unverifiableCovenant c spk)).run env r t =
      ⟨.ok (.bytes spk), r, t ++ [.call r
        (.expectedCovenantScriptpubkey r.terms) (.ok (.bytes spk))]⟩ := by
    intro t
    show Prog.run env (Prog.tryCatch (Prog.lift (env t _)) _) r (t ++
      [.call r _ (env t _)]) = _
    rw [hexp]
    rfl
  unfold postAssetLockRevalidate
  rw [Prog.run_bind, hguard]
  dsimp only
  show ∃ pre s s' post, (Prog.run env (Method.catchException _
    (unverifiableCovenant c spk) >>= _) r []).trace = _ ∧ _
  rw [Prog.run_bind, hcatch]
  dsimp only
  rw [Prog.run_bind, hcall _ _ _ (hout _)]
  dsimp only
  rw [Prog.run_bind, hrecord]
  dsimp only
  show ∃ pre s s' post, (Prog.run env (if spk ≠ spk then _ else _) r' _).trace =
    _ ∧ _
  rw [if_neg (not_not.mpr rfl), if_neg (not_not.mpr hchain)]
  show ∃ pre s s' post, (Prog.run env (advanceRecord .makerLocksAsset >>=
    _) r' _).trace = _ ∧ _
  rw [Prog.run_bind, hadvance]
  dsimp only
  generalize hpre : [] ++ [_] ++ [_] ++ [_] = pre
  obtain ⟨post, hpost⟩ :=
    Prog.run_trace_extends env (persistAndReturn c) (r'.withState .bothLocked)
    (pre ++ [.write r' (r'.withState .bothLocked)])
  refine ⟨pre, r', r'.withState .bothLocked, post, ?_, hstate', rfl⟩
  rw [← hpost, List.append_assoc, List.singleton_append]

/-- **The funded script binds every term.** Equal scripts have equal terms; a
run that enters BOTH_LOCKED was shown the script of a covenant of its record's
terms and of no others; and for valid arguments no guard raises (an amount too
long for any push is refused before them). -/
theorem covenant_binds_terms :
    (∀ (p q : CovenantParams) (c d : HtlcCovenant), p.build = .ok c →
      q.build = .ok d →
      c.fundedSpk = d.fundedSpk →
      p.variant = q.variant ∧ p.hashlock = q.hashlock ∧
        p.refundCsv = q.refundCsv ∧
        p.amount = q.amount ∧ c.expectedTakerHash = d.expectedTakerHash ∧
        c.expectedMakerHash = d.expectedMakerHash ∧
          c.genesisRef = d.genesisRef) ∧
    (∀ (leg : RadiantCovenantLeg) (c : Coordinator) (env : Env),
      LegAnswers leg env →
      ∀ (calls : List StepCall) (r : SwapRecord) (history : List StepEvent),
      ∀ d ∈ runCalls c env calls r history, ∀ pre s s' post, d.run.trace =
        pre ++ .write s s' :: post →
        s'.state = .bothLocked → s.state ≠ .bothLocked →
        ∃ arg now observed, d.call = .postAssetLockRevalidate arg now ∧
          arg.toBytes = .ok observed ∧
          leg.expectedCovenantScriptpubkey r.terms = .ok observed ∧
          ∀ (q : CovenantParams) (e : HtlcCovenant), q.build = .ok e →
            e.fundedSpk = observed →
            CovenantOf r.terms q.amount e) ∧
    (∀ p : CovenantParams, p.Valid →
      (p.Fits → ∃ c, p.build = .ok c) ∧
      (¬ p.Fits → p.build = invalid "push data exceeds 64 KB limit")) := by
  refine ⟨fun p q c d hp hq h => build_binds hp hq h, ?_,
    fun p hp => ⟨fun hfits => ?_, fun hlong => ?_⟩⟩
  · intro leg c env henv calls r history d hd pre s s' post htrace hs' hs
    obtain ⟨hterms, hmatch⟩ :=
      (runCalls_safe hd).bothLocked pre s s' post htrace hs' hs
    obtain ⟨arg, now, observed, hcall, harg, hspk⟩ :=
      covenantMatched_leg henv hd htrace hmatch
    rw [hterms] at hspk
    exact ⟨arg, now, observed, hcall, harg, hspk,
      fun q e hq he => covenantOf_expected hspk hq he⟩
  · obtain ⟨ref, href⟩ := hp.refIs
    exact ⟨_, build_fits hp.inRange href hfits⟩
  · obtain ⟨ref, href⟩ := hp.refIs
    exact build_too_long hp.inRange href hlong

/-- A leg with its two keys. -/
def sampleLeg : RadiantCovenantLeg where
  takerPkh := List.replicate 20 0x11
  makerPkh := List.replicate 20 0x22
  ofTakerPkh := rfl
  ofMakerPkh := rfl
  ofMinConfirmations := by decide

/-- The plain RXD swap, to the holders of those keys; the secret is 32 bytes of
9. -/
def sampleLegTerms : NegotiatedTerms where
  toTermsFields := { sampleBtcTerms.toTermsFields with
    hashlock := [
      0x8C, 0x0C, 0xC1, 0x7A, 0x04, 0x94, 0x2C, 0xC4, 0xF8, 0xE0, 0xFE, 0x0B,
        0x30, 0x26, 0x06, 0xD3,
      0x10, 0x88, 0x60, 0xC1, 0x26, 0x42, 0x8B, 0xA2, 0xCE, 0xEB, 0x5F, 0x9E,
        0xD4, 0x1C, 0x2B, 0x05]
    takerDestHash := [
      0xF5, 0x56, 0xD6, 0xF9, 0xC7, 0xBF, 0xC1, 0x96, 0xC1, 0xAD, 0x35, 0xF8,
        0x96, 0x69, 0xE7, 0xA8,
      0x05, 0x9F, 0x95, 0xCC, 0x6C, 0xB5, 0xE5, 0x7E, 0x54, 0xED, 0xBD, 0x87,
        0xB3, 0x8A, 0xCE, 0x37]
    makerDestHash := [
      0xBA, 0x62, 0x28, 0x61, 0x30, 0xC0, 0x24, 0xD1, 0x25, 0xDC, 0x9A, 0xD9, 0xE1, 0x67, 0x2F, 0x5E,
      0xD7, 0x61, 0x9B, 0x5C, 0xEF, 0x52, 0xB6, 0x6A, 0x34, 0xB4, 0x51, 0x7E, 0x5B, 0x64, 0xB1, 0x62] }
  valid := rfl

/-- The swap once its counter leg is funded. -/
def sampleLegRecord : SwapRecord :=
  ⟨{ sampleBtcRecord.toRecordFields with state := .btcLocked, terms := sampleLegTerms }, rfl⟩

/-- What its covenant binds. -/
def sampleLegBinding : HtlcBinding where
  variant := .rxd
  ref := []
  hashlock := sampleLegTerms.hashlock
  refundCsv := 20
  amount := 5000
  takerHash := sampleLegTerms.takerDestHash
  makerHash := sampleLegTerms.makerDestHash

def sampleLegSpk : Bytes := assembleCode sampleLegBinding.fundedCode

/-- The sample leg pays to the hashes of its terms. -/
theorem sampleLeg_hashes :
    hash256 (Glyph.rxdHolderScript sampleLeg.takerPkh) =
      sampleLegTerms.takerDestHash ∧
      hash256 (Glyph.rxdHolderScript sampleLeg.makerPkh) =
        sampleLegTerms.makerDestHash := by
  decide +kernel

theorem sampleLegParams_inRange :
    (sampleLeg.params sampleLegTerms .rxd).InRange :=
  ⟨rfl, by decide, rfl, rfl, by decide⟩

theorem sampleLegBinding_eq : (sampleLeg.params sampleLegTerms .rxd).binding
    [] = sampleLegBinding := by
  obtain ⟨htaker, hmaker⟩ := sampleLeg_hashes
  show HtlcBinding.mk .rxd [] sampleLegTerms.hashlock 20 5000
    (hash256 (Glyph.rxdHolderScript sampleLeg.takerPkh))
    (hash256 (Glyph.rxdHolderScript sampleLeg.makerPkh)) = _
  rw [htaker, hmaker]
  rfl

theorem sampleLeg_expected :
    sampleLeg.expectedCovenantScriptpubkey sampleLegTerms =
      .ok sampleLegSpk := by
  have href : (sampleLeg.params sampleLegTerms .rxd).RefIs [] := rfl
  have hbuild := build_fits sampleLegParams_inRange href (by decide)
  rw [sampleLegBinding_eq] at hbuild
  refine expectedCovenantScriptpubkey_ok.mpr ⟨sampleLegBinding.covenant
    (Glyph.rxdHolderScript sampleLeg.takerPkh)
      (Glyph.rxdHolderScript sampleLeg.makerPkh), ?_, rfl⟩
  unfold RadiantCovenantLeg.buildCovenant
  rw [refuseIf, if_neg (by decide), ok_bind]
  show ((sampleLeg.params sampleLegTerms .rxd).build >>= _) = _
  rw [hbuild]
  rfl

/-- Collaborators that answer with that leg. -/
def sampleLegEnv : Env := fun _ op => match op with
  | .expectedCovenantScriptpubkey terms =>
    if terms = sampleLegTerms then .ok (.bytes sampleLegSpk)
    else (sampleLeg.expectedCovenantScriptpubkey terms).map .bytes
  | .covenantOutpoint _ => .ok (.str "cd:0")
  | _ => .ok .none

/-- The sample world answers as the leg would. -/
theorem sampleLegEnv_answers : LegAnswers sampleLeg sampleLegEnv := by
  intro t terms
  show (if terms = sampleLegTerms then _ else _) = _
  split
  · next h =>
    rw [h, sampleLeg_expected]
    rfl
  · rfl

def sampleLegCall : StepCall :=
  .postAssetLockRevalidate (.bytes sampleLegSpk) none

/-- At a plain RXD swap whose script is shown to the coordinator. -/
theorem covenant_binds_terms_sample :
    (∀ (q : CovenantParams) (e : HtlcCovenant), q.build = .ok e →
      e.fundedSpk = sampleLegSpk →
      CovenantOf sampleLegTerms q.amount e) ∧
    ∃ c, (sampleLeg.params sampleLegTerms .rxd).build = .ok c ∧
      ∀ (q : CovenantParams) (d : HtlcCovenant), q.build = .ok d →
        c.fundedSpk = d.fundedSpk →
        5000 = q.amount := by
  obtain ⟨hbinds, hlocked, hguards⟩ := covenant_binds_terms
  constructor
  · have hexp : ∀ t, sampleLegEnv t
        (.expectedCovenantScriptpubkey sampleLegRecord.terms) =
        .ok (.bytes sampleLegSpk) := by
      intro t
      rw [sampleLegEnv_answers, show sampleLegRecord.terms = sampleLegTerms from rfl, sampleLeg_expected]
      rfl
    obtain ⟨pre, s, s', post, htrace, hs, hs'⟩ :=
      revalidate_enters (c := sampleCoordinator)
      (n := none) rfl rfl hexp (fun t => rfl)
    obtain ⟨arg, now, observed, hcall, harg, -, hof⟩ := hlocked sampleLeg sampleCoordinator sampleLegEnv
      sampleLegEnv_answers [sampleLegCall] sampleLegRecord [] _ List.mem_cons_self pre s s' post htrace hs'
      (by rw [hs]; decide)
    obtain ⟨rfl, rfl⟩ := StepCall.postAssetLockRevalidate.inj hcall
    rw [Except.ok.inj (show Except.ok sampleLegSpk = .ok observed from harg)]
    exact hof
  · have hvalid : (sampleLeg.params sampleLegTerms .rxd).Valid := by
      refine ⟨sampleLegParams_inRange, ?_⟩
      rintro txid vout (h | h) <;> cases h
    obtain ⟨c, hc⟩ := (hguards _ hvalid).1 (by decide)
    refine ⟨c, hc, fun q d hq h => ?_⟩
    obtain ⟨-, -, -, hamount, -⟩ := hbinds _ q c d hc hq h
    exact hamount

end Pyrxd.Gravity
