import Pyrxd.Glyph.Daa

/-!
# The bytecode computes the miner's target

Run on the state items of a contract, the baked difficulty-adjustment bytecode
leaves every item but the target in place and puts there the number the miner
computed — provided that the numbers it reads are script numbers. The main
theorem, `daa_simulates_iff`, states this for all five rules; a height or a
baked constant outside 64 bits aborts the mint.
-/

namespace Pyrxd.Glyph

open Pyrxd.Lib

/-! ## Truncated division -/

/-- The code's division is truncating. -/
theorem truncDiv_eq {a b : Int} (hb : 1 ≤ b) :
    truncDiv a b = .ok (a.tdiv b) := by
  have hne : (b.natAbs : Int) ≠ 0 := by omega
  have hsign : decide (b < 0) = false := decide_eq_false (by omega)
  have hq : (a.natAbs : Int).fdiv b.natAbs = (a.natAbs / b.natAbs : Nat) := by
    rw [Int.fdiv_eq_ediv_of_nonneg _ (by omega)]
    rfl
  rw [truncDiv, floorDiv, if_neg hne, ok_bind, hq, hsign]
  congr 1
  by_cases ha : a < 0
  · have htd : a.tdiv b = -((a.natAbs / b.natAbs : Nat) : Int) := by
      obtain ⟨k, hk⟩ := Int.eq_ofNat_of_zero_le (by omega : 0 ≤ b)
      have ha' : a = -(a.natAbs : Int) := by omega
      conv_lhs => rw [ha', hk, Int.neg_tdiv]
      rw [hk]
      rfl
    rw [if_pos (by rw [decide_eq_true ha]; decide), htd]
  · have htd : a.tdiv b = ((a.natAbs / b.natAbs : Nat) : Int) := by
      obtain ⟨k, hk⟩ := Int.eq_ofNat_of_zero_le (by omega : 0 ≤ b)
      obtain ⟨j, hj⟩ := Int.eq_ofNat_of_zero_le (by omega : 0 ≤ a)
      rw [hk, hj]
      rfl
    rw [if_neg (by rw [decide_eq_false ha]; decide), htd]

/-- Dividing and multiplying back does not exceed the dividend. -/
theorem tdiv_mul_le {a b : Int} (ha : 0 ≤ a) (hb : b ≠ 0) :
    a.tdiv b * b ≤ a := by
  rw [Int.tdiv_eq_ediv_of_nonneg ha]
  exact Int.ediv_mul_le a hb

/-! ## Pushes -/

/-- The token `_push_minimal` encodes. -/
def numToken (n : Int) : Token :=
  if n = 0 then .push []
  else if n = -1 then .op 0x4F
  else if 1 ≤ n ∧ n ≤ 16 then .op (UInt8.ofNat (0x50 + n.toNat))
  else .push (scriptNum n)

/-- The opcode of a small number as a byte. -/
theorem toNat_smallOp {n : Int} (h : 1 ≤ n ∧ n ≤ 16) :
    (UInt8.ofNat (0x50 + n.toNat)).toNat = 0x50 + n.toNat := by
  rw [UInt8.toNat_ofNat']
  omega

/-- A minimal push is one token. -/
theorem pushMinimal_ok {n : Int} {b : Bytes} (h : pushMinimal n = .ok b) :
    b = assemble [numToken n] ∧ (numToken n).Ok := by
  unfold pushMinimal at h
  unfold numToken
  -- the cases of the builder: zero, minus one, the small numbers, the rest
  by_cases h0 : n = 0
  · rw [if_pos h0, Except.ok.injEq] at h
    rw [if_pos h0, ← h]
    exact ⟨rfl, Nat.zero_le _⟩
  · rw [if_neg h0] at h ⊢
    by_cases h1 : n = -1
    · rw [if_pos h1, Except.ok.injEq] at h
      rw [if_pos h1, ← h]
      exact ⟨rfl, (by decide : (0x4E : UInt8) < 0x4F)⟩
    · rw [if_neg h1] at h ⊢
      by_cases hs : 1 ≤ n ∧ n ≤ 16
      · rw [if_pos hs, Except.ok.injEq] at h
        rw [if_pos hs, ← h]
        refine ⟨rfl, UInt8.lt_iff_toNat_lt.mpr ?_⟩
        rw [toNat_smallOp hs]
        show 78 < _
        omega
      · rw [if_neg hs] at h ⊢
        simp only at h
        show b = Token.bytes _ ++ [] ∧ (scriptNum n).length ≤ 0xFF
        rw [List.append_nil, Token.bytes]
        split at h
        · next hlen =>
          rw [if_pos hlen, ← Except.ok.inj h]
          exact ⟨rfl, by omega⟩
        · next hlen =>
          split at h
          · next hle =>
            rw [if_neg hlen, ← Except.ok.inj h]
            exact ⟨rfl, hle⟩
          · cases h

/-- A number in range has an encoding. -/
theorem pushMinimal_of_range {n : Int} (h : NumRange n) :
    pushMinimal n = .ok (assemble [numToken n]) := by
  have hok : ∃ b, pushMinimal n = .ok b := by
    have hlen := (length_scriptNum n).mpr h
    unfold pushMinimal
    split
    · exact ⟨_, rfl⟩
    · split
      · exact ⟨_, rfl⟩
      · split
        · exact ⟨_, rfl⟩
        · simp only
          rw [if_pos (by omega)]
          exact ⟨_, rfl⟩
  obtain ⟨b, hb⟩ := hok
  rw [hb, (pushMinimal_ok hb).1]

theorem numToken_ok {n : Int} (h : NumRange n) : (numToken n).Ok :=
  (pushMinimal_ok (pushMinimal_of_range h)).2

section Rules

variable {ctx : ScriptCtx} {s : List Bytes} {x y : Bytes} {m n r : Int}

/-- A pushed number is on the stack, whatever its size. -/
theorem runs_num (n : Int) : Runs ctx [numToken n] s (scriptNum n :: s) := by
  unfold numToken
  split
  · next h => subst h; exact Runs.push []
  · split
    · next h => subst h; exact Runs.const (by decide) rfl (by decide)
    · split
      · next h =>
        have hnat := toNat_smallOp h
        have hkind : opKind (UInt8.ofNat (0x50 + n.toNat)) = .const n := by
          unfold opKind
          rw [if_pos]
          · rw [hnat]
            congr 1
            omega
          · rw [UInt8.le_iff_toNat_le, UInt8.le_iff_toNat_le, hnat]
            constructor
            · show 81 ≤ _
              omega
            · show _ ≤ 96
              omega
        refine Runs.const ?_ hkind ?_
        · refine ⟨?_, ?_, ?_⟩ <;>
            (intro he; rw [he] at hnat; have hlit :=
              hnat.symm; simp at hlit; omega)
        · constructor <;> omega
      · exact Runs.push _

/-- A number push is skipped as one instruction. -/
theorem skips_num (n : Int) : Skips ctx [numToken n] := by
  unfold numToken
  split
  · exact Skips.push _
  · split
    · exact Skips.op (by decide)
    · split
      · next h =>
        have hnat := toNat_smallOp h
        refine Skips.op ⟨?_, ?_, ?_⟩ <;>
          (intro he; rw [he] at hnat; have hlit :=
            hnat.symm; simp at hlit; omega)
      · exact Skips.push _

end Rules

/-! ## The state on the stack -/

/-- The ten state items, the target on top. -/
structure StateItems where
  target : Bytes
  lastTime : Bytes
  targetTime : Bytes
  daaMode : Bytes
  algo : Bytes
  reward : Bytes
  maxHeight : Bytes
  tokenRef : Bytes
  contractRef : Bytes
  height : Bytes

/-- What lies under the target. -/
def StateItems.tail (it : StateItems) (below : List Bytes) : List Bytes :=
  [it.lastTime, it.targetTime, it.daaMode, it.algo, it.reward,
    it.maxHeight, it.tokenRef,
    it.contractRef, it.height] ++ below

def StateItems.stack (it : StateItems) (below : List Bytes) : List Bytes :=
  it.target :: it.tail below

/-- The items hold the numbers of `st`; the height is as the covenant and the
state script encode it, the rest in any encoding that reads as the number. -/
structure StateItems.Hold (it : StateItems) (requireMinimal : Bool)
    (st : MintState) : Prop where
  target : readNum requireMinimal it.target = some st.target
  lastTime : readNum requireMinimal it.lastTime = some st.lastTime
  targetTime : readNum requireMinimal it.targetTime = some st.targetTime
  height : it.height = scriptNum st.height

/-- **Simulation.** The baked code runs through on the state items, changes the
target only, and leaves there what the miner computes. -/
def Simulates (requireMinimal : Bool) (daa : Daa) (st : MintState)
    (it : StateItems)
    (below : List Bytes) : Prop :=
  ∃ code next target, daa.build = .ok code ∧ daa.nextTarget st = .ok next ∧
    runScript ⟨st.currentTime, requireMinimal⟩ code (it.stack below) =
      some (target :: it.tail below) ∧
    readNum requireMinimal target = some next

/-! ## Shared pieces -/

section Pieces

variable {ctx : ScriptCtx} {st : MintState} {it : StateItems}
  {below s : List Bytes} {y : Bytes}
  {v : Int}

/-- `TXLOCKTIME 2 PICK SUB`. -/
def deltaTokens : List Token := [.op 0xC5, .op 0x52, .op 0x79, .op 0x94]

/-- `3 PICK SUB` behind it. -/
def excessTokens : List Token := deltaTokens ++ [Token.op 0x53, Token.op 0x79,
  Token.op 0x94]

/-- `DUP 1 LESSTHAN IF DROP 1 ENDIF`. -/
def clampTokens : List Token := [Token.op 0x76, Token.op 0x51, Token.op 0x9F] ++
  ifBlock [Token.op 0x75, Token.op 0x51]

/-- The clamp's tokens are the bytes the builder writes. -/
theorem assemble_clampTokens : assemble clampTokens = clampToOne := rfl

/-- The elapsed time is a script number. -/
theorem delta_range (hst : st.Valid) :
    NumRange (st.currentTime - st.lastTime) := by
  have h := hst.times
  constructor <;> omega

theorem excess_range (hst : st.Valid) :
    NumRange (st.currentTime - st.lastTime - st.targetTime) := by
  have h := hst.times
  have h' := hst.targetTime
  constructor <;> omega

/-- The tokens that leave the elapsed time on the stack. -/
theorem runs_delta (hctx : ctx.locktime = st.currentTime) (hst : st.Valid)
    (hit : it.Hold ctx.requireMinimal st) :
    Runs ctx deltaTokens (it.stack below)
      (scriptNum (st.currentTime - st.lastTime) :: it.stack below) := by
  have h := hst.times
  have hlock : NumRange ctx.locktime := by rw [hctx]; constructor <;> omega
  refine (Runs.locktime hlock).cons ?_
  refine (Runs.copy (k := 2) (by decide) rfl (by decide) rfl).cons₂ ?_
  exact Runs.binary (by decide) rfl (readNum_scriptNum _ hlock) hit.lastTime
    (by rw [hctx])
    (delta_range hst)

/-- The tokens that leave the time over the target. -/
theorem runs_excess (hctx : ctx.locktime = st.currentTime) (hst : st.Valid)
    (hit : it.Hold ctx.requireMinimal st) :
    Runs ctx excessTokens (it.stack below)
      (scriptNum (st.currentTime - st.lastTime - st.targetTime) ::
        it.stack below) := by
  refine (runs_delta hctx hst hit).append ?_
  refine (Runs.copy (k := 3) (by decide) rfl (by decide) rfl).cons₂ ?_
  exact Runs.binary (by decide) rfl (readNum_scriptNum _ (delta_range hst))
    hit.targetTime rfl
    (excess_range hst)

/-- The clamp lifts what is below one. -/
theorem runs_clamp (hy : readNum ctx.requireMinimal y = some v) :
    ∃ y', Runs ctx clampTokens (y :: s) (y' :: s) ∧
      readNum ctx.requireMinimal y' = some (max 1 v) := by
  have htest : Runs ctx [.op 0x76, .op 0x51, .op 0x9F] (y :: s)
      (scriptNum (boolNum (v < 1)) :: y :: s) := by
    refine Runs.dup.cons ?_
    refine (Runs.const (n := 1) (by decide) rfl (by decide)).cons ?_
    exact Runs.binary (by decide) rfl hy (readNum_scriptNum _ (by decide)) rfl
      numRange_boolNum
  have hset : Runs ctx [.op 0x75, .op 0x51] (y :: s) (scriptNum 1 :: s) := by
    refine Runs.drop.cons ?_
    exact Runs.const (by decide) rfl (by decide)
  have hskip : Skips ctx [.op 0x75, .op 0x51] := skips_of_nesting rfl
  by_cases hv : v < 1
  · refine ⟨scriptNum 1, htest.append (Runs.ifThen ?_ hset), ?_⟩
    · rw [truthy_boolNum, decide_eq_true hv]
    · rw [readNum_scriptNum _ (by decide), max_eq_left (by omega)]
  · refine ⟨y, htest.append (Runs.ifThen_not ?_ hskip), ?_⟩
    · rw [truthy_boolNum, decide_eq_false hv]
    · rw [hy, max_eq_right (by omega)]

/-- `<n> MIN` and `<n> MAX`. -/
theorem runs_min {n : Int} (hy : readNum ctx.requireMinimal y = some v)
    (hv : NumRange v)
    (hn : NumRange n) : Runs ctx [numToken n, .op 0xA3] (y :: s)
      (scriptNum (min v n) :: s) := by
  refine (runs_num n).cons ?_
  exact Runs.binary (by decide) rfl hy (readNum_scriptNum _ hn) rfl (hv.min hn)

/-- Taking a maximum against a constant. -/
theorem runs_max {n : Int} (hy : readNum ctx.requireMinimal y = some v)
    (hv : NumRange v)
    (hn : NumRange n) : Runs ctx [numToken n, .op 0xA4] (y :: s)
      (scriptNum (max v n) :: s) := by
  refine (runs_num n).cons ?_
  exact Runs.binary (by decide) rfl hy (readNum_scriptNum _ hn) rfl (hv.max hn)

end Pieces

/-! ## Linear -/

section Linear

def linearTokens : List Token :=
  deltaTokens ++ ([Token.op 0x53, Token.op 0x79] ++ ([Token.op 0x54] ++
    ([Token.op 0x95] ++ ([Token.op 0xA3] ++ ([numToken 0, Token.op 0xA4] ++
    ([Token.op 0x7C] ++ ([numToken asertV2MaxTargetDiv4, Token.op 0xA3] ++
    ([Token.op 0x53, Token.op 0x79] ++ ([Token.op 0x96] ++ ([Token.op 0x95] ++
    ([numToken maxSha256dTarget, Token.op 0xA3] ++ clampTokens)))))))))))

/-- The linear tokens are what the builder writes. -/
theorem assemble_linearTokens :
    assemble linearTokens = buildLinearDaa := by decide

/-- Each of them is well formed. -/
theorem token_ok_linear : ∀ t ∈ linearTokens, t.Ok := by decide

variable {ctx : ScriptCtx} {st : MintState} {it : StateItems}
  {below : List Bytes}

/-- The linear bytecode computes the linear target. -/
theorem runs_linear (hctx : ctx.locktime = st.currentTime) (hst : st.Valid)
    (hit : it.Hold ctx.requireMinimal st) : ∃ next y,
      computeNextTargetLinear st.target st.lastTime st.currentTime
        st.targetTime = .ok next ∧
      Runs ctx linearTokens (it.stack below) (y :: it.tail below) ∧
      readNum ctx.requireMinimal y = some next := by
  obtain ⟨ht1, ht2⟩ := hst.target
  obtain ⟨htt1, htt2⟩ := hst.targetTime
  have hdelta := delta_range hst
  have hmax : maxSha256dTarget = 2 ^ 63 - 1 := rfl
  have hquarter : asertV2MaxTargetDiv4 = 2 ^ 61 - 1 := rfl
  have htarget : NumRange st.target := by constructor <;> omega
  have hquarter' : NumRange asertV2MaxTargetDiv4 := by decide
  have hfour : NumRange (st.targetTime * 4) := by constructor <;> omega
  -- the capped time, the capped target and their quotient
  let delta := max (min (st.currentTime - st.lastTime) (st.targetTime * 4)) 0
  let capped := min st.target asertV2MaxTargetDiv4
  let q := capped.tdiv st.targetTime
  have hdelta : NumRange delta := ((delta_range hst).min hfour).max (by decide)
  have hcapped : NumRange capped := htarget.min hquarter'
  have hq : NumRange q := hcapped.tdiv
  have hcapped0 : 0 ≤ capped := by omega
  have hq0 : 0 ≤ q := Int.tdiv_nonneg hcapped0 (by omega)
  have hqle : q * st.targetTime ≤ capped := tdiv_mul_le hcapped0 (by omega)
  have hprod : NumRange (delta * q) := by
    have hd0 : 0 ≤ delta := le_max_right _ _
    have hd4 : delta ≤ st.targetTime * 4 := by omega
    have hle : delta * q ≤ st.targetTime * 4 * q :=
      Int.mul_le_mul_of_nonneg_right hd4 hq0
    have hlow : 0 ≤ delta * q := Int.mul_nonneg hd0 hq0
    have hcap : capped ≤ asertV2MaxTargetDiv4 := min_le_right _ _
    have hregroup : st.targetTime * 4 * q = 4 * (q * st.targetTime) := by ring
    constructor <;> omega
  obtain ⟨y, hclamp, hy⟩ := runs_clamp (s := it.tail below)
    (readNum_scriptNum ctx.requireMinimal
      (hprod.min (show NumRange maxSha256dTarget by decide)))
  refine ⟨max 1 (min (delta * q) maxSha256dTarget), y, ?_, ?_, hy⟩
  · have hq' : floorDiv (min st.target (maxSha256dTarget.fdiv 4))
        st.targetTime = .ok q := by
      rw [floorDiv, if_neg (by omega)]
      exact congrArg _ (Int.fdiv_eq_tdiv_of_nonneg hcapped0 (by omega))
    have hd : max 0 (min (st.currentTime - st.lastTime) (4 * st.targetTime)) =
        delta := by
      rw [max_comm, Int.mul_comm]
    rw [computeNextTargetLinear, hd, hq', ok_bind, Int.mul_comm]
    rfl
  · refine (runs_delta hctx hst hit).append ?_
    refine (Runs.copy (k := 3) (by decide) rfl (by decide) rfl).append ?_
    refine (Runs.const (n := 4) (by decide) rfl (by decide)).append ?_
    refine (Runs.binary (by decide) rfl hit.targetTime
      (readNum_scriptNum _ (by decide)) rfl
      hfour).append ?_
    refine (Runs.binary (by decide) rfl (readNum_scriptNum _ (delta_range hst))
      (readNum_scriptNum _ hfour) rfl ((delta_range hst).min hfour)).append ?_
    refine (runs_max (readNum_scriptNum _ ((delta_range hst).min hfour))
      ((delta_range hst).min hfour) (by decide)).append ?_
    refine Runs.swap.append ?_
    refine (runs_min hit.target htarget hquarter').append ?_
    refine (Runs.copy (k := 3) (by decide) rfl (by decide) rfl).append ?_
    refine (Runs.binary (by decide) rfl (readNum_scriptNum _ hcapped)
      hit.targetTime
      (if_neg (by omega)) hq).append ?_
    refine (Runs.binary (by decide) rfl (readNum_scriptNum _ hdelta)
      (readNum_scriptNum _ hq) rfl
      hprod).append ?_
    refine (runs_min (readNum_scriptNum _ hprod) hprod (by decide)).append ?_
    exact hclamp

end Linear

/-! ## ASERT, fractional -/

section AsertV2

def asertV2Tokens (halfLife : Int) : List Token :=
  (excessTokens ++ [numToken asertV2Radix, Token.op 0x95]) ++
    ([numToken halfLife] ++ ([Token.op 0x96] ++
    ([numToken asertV2DriftClamp, Token.op 0xA3] ++
      ([numToken (-asertV2DriftClamp), Token.op 0xA4] ++
    ([Token.op 0x7C] ++ ([numToken asertV2MaxTargetDiv4, Token.op 0xA3] ++
      ([Token.op 0x76] ++
    ([numToken asertV2Radix] ++ ([Token.op 0x96] ++ ([Token.op 0x7B] ++
      ([Token.op 0x95] ++ ([Token.op 0x93] ++ ([numToken asertV2MaxTargetDiv4,
      Token.op 0xA3] ++ clampTokens)))))))))))))

variable {ctx : ScriptCtx} {st : MintState} {it : StateItems}
  {below : List Bytes} {halfLife : Int}

/-- The second ASERT builder writes its tokens. -/
theorem buildAsertDaaV2_eq (h : 1 ≤ halfLife ∧ halfLife < 2 ^ 31) :
    buildAsertDaaV2 halfLife = .ok (assemble (asertV2Tokens halfLife)) := by
  have hrange : NumRange halfLife := by constructor <;> omega
  have hq : pushQuarterMaxTarget =
      assemble [numToken asertV2MaxTargetDiv4] := by decide
  have hcons : ∀ (t u : Token), [t, u] = [t] ++ [u] := fun _ _ => rfl
  have hguard : ¬ halfLife < 1 := by omega
  rw [buildAsertDaaV2, refuseIf, if_neg hguard, ok_bind,
    pushMinimal_of_range hrange, ok_bind,
    pushMinimal_of_range (by decide), ok_bind,
      pushMinimal_of_range (by decide), ok_bind,
    pushMinimal_of_range (by decide), ok_bind, hq, ← assemble_clampTokens]
  simp only [asertV2Tokens, hcons (numToken _), assemble_append,
    List.append_assoc]
  rfl

/-- Each of them is well formed. -/
theorem token_ok_asertV2 (h : NumRange halfLife) :
    ∀ t ∈ asertV2Tokens halfLife, t.Ok := by
  refine List.forall_mem_append.mpr
    ⟨by decide, List.forall_mem_append.mpr ⟨?_, ?_⟩⟩
  · exact List.forall_mem_singleton.mpr (numToken_ok h)
  · decide

/-- The second ASERT bytecode computes its target. -/
theorem runs_asertV2 (hctx : ctx.locktime = st.currentTime) (hst : st.Valid)
    (hit : it.Hold ctx.requireMinimal st)
    (h : 1 ≤ halfLife ∧ halfLife < 2 ^ 31) : ∃ next y, computeNextTargetAsertV2
      st.target st.lastTime st.currentTime st.targetTime halfLife =
        .ok next ∧
      Runs ctx (asertV2Tokens halfLife) (it.stack below) (y :: it.tail below) ∧
      readNum ctx.requireMinimal y = some next := by
  obtain ⟨ht1, ht2⟩ := hst.target
  have hmax : maxSha256dTarget = 2 ^ 63 - 1 := rfl
  have hquarter : asertV2MaxTargetDiv4 = 2 ^ 61 - 1 := rfl
  have hradix : asertV2Radix = 2 ^ 16 := rfl
  have hclampv : asertV2DriftClamp = 2 ^ 14 := rfl
  have hhalf : NumRange halfLife := by constructor <;> omega
  have htarget : NumRange st.target := by constructor <;> omega
  have hquarter' : NumRange asertV2MaxTargetDiv4 := by decide
  -- the excess scaled by the radix, then divided and clamped
  let excess := st.currentTime - st.lastTime - st.targetTime
  have hexcess : NumRange excess := excess_range hst
  have hscaled : NumRange (excess * asertV2Radix) := by
    have h1 := hst.times
    have h2 := hst.targetTime
    rw [hradix]
    constructor <;> omega
  let ratio := (excess * asertV2Radix).tdiv halfLife
  have hratio : NumRange ratio := hscaled.tdiv
  let upper := min ratio asertV2DriftClamp
  have hupper : NumRange upper := hratio.min (by decide)
  let drift := max upper (-asertV2DriftClamp)
  have hdrift : NumRange drift := hupper.max (by decide)
  let t := min st.target asertV2MaxTargetDiv4
  have ht : NumRange t := htarget.min hquarter'
  have ht0 : 0 ≤ t := by omega
  let q := t.tdiv asertV2Radix
  have hq : NumRange q := ht.tdiv
  have hprod : -2 ^ 59 ≤ q * drift ∧ q * drift ≤ 2 ^ 59 := by
    have hq0 : 0 ≤ q := Int.tdiv_nonneg ht0 (by decide)
    have hqle : q * asertV2Radix ≤ t := tdiv_mul_le ht0 (by decide)
    rw [hradix] at hqle
    have hq45 : q ≤ 2 ^ 45 := by omega
    have hd1 : drift ≤ 2 ^ 14 := by omega
    have hd2 : -2 ^ 14 ≤ drift := by omega
    have h1 := Int.mul_le_mul_of_nonneg_left hd1 hq0
    have h2 := Int.mul_le_mul_of_nonneg_left hd2 hq0
    constructor <;> omega
  have hprod' : NumRange (q * drift) := by constructor <;> omega
  have hsum : NumRange (t + q * drift) := by constructor <;> omega
  obtain ⟨y, hclamp, hy⟩ := runs_clamp (s := it.tail below)
    (readNum_scriptNum ctx.requireMinimal (hsum.min hquarter'))
  refine ⟨max 1 (min (t + q * drift) asertV2MaxTargetDiv4), y, ?_, ?_, hy⟩
  · have hguard : ¬ halfLife < 1 := by omega
    have hfd : t.fdiv asertV2Radix = q :=
      Int.fdiv_eq_tdiv_of_nonneg ht0 (by decide)
    have hd : max (-asertV2DriftClamp) (min asertV2DriftClamp ratio) =
        drift := by
      rw [max_comm, min_comm]
    rw [computeNextTargetAsertV2, if_neg hguard, truncDiv_eq h.1, ok_bind, hd]
    show Except.ok
      (max 1 (min (t + t.fdiv asertV2Radix * drift) asertV2MaxTargetDiv4)) = _
    rw [hfd]
  · refine ((runs_excess hctx hst hit).append
      ((runs_num _).cons (Runs.binary (by decide) rfl
      (readNum_scriptNum _ hexcess) (readNum_scriptNum _ (by decide)) rfl
        hscaled))).append ?_
    refine (runs_num _).append ?_
    refine (Runs.binary (by decide) rfl (readNum_scriptNum _ hscaled)
      (readNum_scriptNum _ hhalf)
      (if_neg (by omega)) hratio).append ?_
    refine (runs_min (readNum_scriptNum _ hratio) hratio (by decide)).append ?_
    refine (runs_max (readNum_scriptNum _ hupper) hupper (by decide)).append ?_
    refine Runs.swap.append ?_
    refine (runs_min hit.target htarget hquarter').append ?_
    refine Runs.dup.append ?_
    refine (runs_num _).append ?_
    refine (Runs.binary (by decide) rfl (readNum_scriptNum _ ht)
      (readNum_scriptNum _ (by decide))
      (if_neg (by decide)) hq).append ?_
    refine Runs.rot.append ?_
    refine (Runs.binary (by decide) rfl (readNum_scriptNum _ hq)
      (readNum_scriptNum _ hdrift) rfl
      hprod').append ?_
    refine (Runs.binary (by decide) rfl (readNum_scriptNum _ ht)
      (readNum_scriptNum _ hprod') rfl
      hsum).append ?_
    refine (runs_min (readNum_scriptNum _ hsum) hsum hquarter').append ?_
    exact hclamp

end AsertV2

/-! ## ASERT, by powers of two -/

section AsertLegacy

/-- `DUP 0 GREATERTHAN`. -/
def positiveTokens : List Token := [.op 0x76, numToken 0, .op 0xA0]

/-- What the doubling step does while drift is left. -/
def mulBody : List Token :=
  [Token.op 0x8C] ++ ([Token.op 0x7C] ++
    ([Token.op 0x76] ++ ([numToken (maxSha256dTarget.fdiv 2)] ++
    ([Token.op 0xA0] ++ (ifElseBlock [Token.op 0x75,
    numToken maxSha256dTarget] [Token.op 0x8D] ++ [Token.op 0x7C])))))

def divBody : List Token := [Token.op 0x8C] ++
  ([Token.op 0x7C] ++ ([Token.op 0x8E] ++ [Token.op 0x7C]))

def mulStep : List Token := positiveTokens ++ ifBlock mulBody

def divStep : List Token := positiveTokens ++ ifBlock divBody

def repeated (n : Nat) (ts : List Token) : List Token :=
  (List.replicate n ts).flatten

/-- Clamp the drift from above and from below. -/
def upperTokens : List Token := [Token.op 0x76, Token.op 0x54, Token.op 0xA0] ++
  ifBlock [Token.op 0x75, Token.op 0x54]

def lowerTokens : List Token :=
  [Token.op 0x76, Token.op 0x54, Token.op 0x8F, Token.op 0x9F] ++
    ifBlock [Token.op 0x75, Token.op 0x54, Token.op 0x8F]

def raiseTokens : List Token := repeated 4 mulStep ++ [Token.op 0x75]

def lowerTargetTokens : List Token :=
  [Token.op 0x8F] ++ (repeated 4 divStep ++ [Token.op 0x75])

def shiftTokens : List Token :=
  positiveTokens ++ ifElseBlock raiseTokens
    ([Token.op 0x76, numToken 0, Token.op 0x9F] ++
      ifElseBlock lowerTargetTokens [Token.op 0x75])

/-- The code behind the half-life. -/
def legacyRest : List Token :=
  [Token.op 0x96] ++
    (upperTokens ++ (lowerTokens ++ (shiftTokens ++ clampTokens)))

def asertLegacyTokens (halfLife : Int) : List Token :=
  excessTokens ++ ([numToken halfLife] ++ legacyRest)

variable {ctx : ScriptCtx} {st : MintState} {it : StateItems}
  {below s : List Bytes}
  {halfLife v : Int} {k : Nat} {d t : Bytes}

/-- The old ASERT builder writes its tokens. -/
theorem buildAsertDaaLegacy_eq (h : NumRange halfLife) :
    buildAsertDaaLegacy halfLife = .ok
      (assemble (asertLegacyTokens halfLife)) := by
  rw [buildAsertDaaLegacy, pushMinimal_of_range h, ok_bind]
  have hrest : assemble legacyRest =
      [0x96] ++ [0x76, 0x54, 0xA0] ++ [0x63] ++ [0x75, 0x54] ++ [0x68] ++
      [0x76, 0x54, 0x8F] ++ [0x9F] ++ [0x63] ++ [0x75, 0x54, 0x8F] ++ [0x68] ++
      [0x76, 0x00, 0xA0] ++ [0x63] ++ times 4 asert2MulStep ++
        [0x75] ++ [0x67] ++
      [0x76, 0x00, 0x9F] ++ [0x63] ++ [0x8F] ++ times 4 asert2DivStep ++
        [0x75] ++ [0x67] ++
      [0x75] ++ [0x68] ++ [0x68] ++ clampToOne := by decide +kernel
  rw [asertLegacyTokens, assemble_append, assemble_append, hrest]
  simp only [List.append_assoc]
  rfl

/-- Each of them is well formed. -/
theorem token_ok_asertLegacy (h : NumRange halfLife) :
    ∀ t ∈ asertLegacyTokens halfLife, t.Ok := by
  refine List.forall_mem_append.mpr
    ⟨by decide, List.forall_mem_append.mpr ⟨?_, ?_⟩⟩
  · exact List.forall_mem_singleton.mpr (numToken_ok h)
  · decide +kernel

/-- The comparison that opens the unrolled loop. -/
theorem runs_positive (hd : readNum ctx.requireMinimal d = some v) :
    Runs ctx positiveTokens (d :: s)
      (scriptNum (boolNum (v > 0)) :: d :: s) := by
  refine Runs.dup.cons ?_
  refine (runs_num 0).cons ?_
  exact Runs.binary (by decide) rfl hd (readNum_scriptNum _ (by decide)) rfl
    numRange_boolNum

/-- The values a target takes on the way. -/
def TargetRange (v : Int) : Prop := 0 ≤ v ∧ v ≤ maxSha256dTarget

/-- A target in range is a script number. -/
theorem TargetRange.num (h : TargetRange v) : NumRange v := by
  have hmax : maxSha256dTarget = 2 ^ 63 - 1 := rfl
  obtain ⟨h1, h2⟩ := h
  constructor <;> omega

theorem TargetRange.double (h : TargetRange v) :
    TargetRange (asertDouble v) := by
  have hhalf : maxSha256dTarget.fdiv 2 = 2 ^ 62 - 1 := rfl
  have hmax : maxSha256dTarget = 2 ^ 63 - 1 := rfl
  obtain ⟨h1, h2⟩ := h
  unfold asertDouble
  split
  · exact ⟨by omega, le_refl _⟩
  · constructor <;> omega

theorem TargetRange.halve (h : TargetRange v) : TargetRange (asertHalve v) := by
  obtain ⟨h1, h2⟩ := h
  rw [asertHalve, Int.fdiv_eq_ediv_of_nonneg _ (by decide)]
  constructor <;> omega

/-- A step of either kind, while drift is left: it takes one off the drift and
changes the target by `f`. -/
def StepsBy (ctx : ScriptCtx) (body : List Token) (f : Int → Int) : Prop :=
  ∀ (d t : Bytes) (k : Nat) (v : Int) (s : List Bytes), k < 4 → TargetRange v →
    readNum ctx.requireMinimal d = some ((k + 1 : Nat) : Int) →
      readNum ctx.requireMinimal t = some v →
      Runs ctx body (d :: t :: s) (scriptNum k :: scriptNum (f v) :: s)

/-- One turn of the doubling loop. -/
theorem stepsBy_mul : StepsBy ctx mulBody asertDouble := by
  intro d t k v s hk hv hd ht
  have hpred : ((k + 1 : Nat) : Int) - 1 = k := by omega
  have hhalf : NumRange (maxSha256dTarget.fdiv 2) := by decide
  refine (Runs.unary (by decide) rfl hd hpred
    (by constructor <;> omega)).append ?_
  refine Runs.swap.append ?_
  refine Runs.dup.append ?_
  refine (runs_num _).append ?_
  refine (Runs.binary (by decide) rfl ht (readNum_scriptNum _ hhalf) rfl
    numRange_boolNum).append ?_
  have hchoose : Runs ctx (ifElseBlock [.op 0x75,
      numToken maxSha256dTarget] [.op 0x8D])
      (scriptNum (boolNum (v > maxSha256dTarget.fdiv 2)) :: t ::
        scriptNum k :: s)
      (scriptNum (asertDouble v) :: scriptNum k :: s) := by
    unfold asertDouble
    by_cases hbig : v > maxSha256dTarget.fdiv 2
    · rw [if_pos hbig]
      refine Runs.ifElse ?_ (Runs.drop.cons (runs_num _)) (skips_of_nesting rfl)
      rw [truthy_boolNum, decide_eq_true hbig]
    · have hdouble := hv.double.num
      rw [asertDouble, if_neg hbig] at hdouble
      rw [if_neg hbig]
      refine Runs.ifElse_not ?_ (skips_of_nesting rfl) ?_
      · rw [truthy_boolNum, decide_eq_false hbig]
      · exact Runs.unary (by decide) rfl ht rfl hdouble
  exact hchoose.append Runs.swap

/-- One turn of the halving loop. -/
theorem stepsBy_div : StepsBy ctx divBody asertHalve := by
  intro d t k v s hk hv hd ht
  have hpred : ((k + 1 : Nat) : Int) - 1 = k := by omega
  refine (Runs.unary (by decide) rfl hd hpred
    (by constructor <;> omega)).append ?_
  refine Runs.swap.append ?_
  have hhalve : v.tdiv 2 = asertHalve v :=
    (Int.fdiv_eq_tdiv_of_nonneg hv.1 (by decide)).symm
  refine (Runs.unary (by decide) rfl ht hhalve hv.halve.num).append ?_
  exact Runs.swap

/-- The unrolled loop: as many turns as there is drift. -/
theorem runs_repeated {body : List Token} {f : Int → Int}
    (hf : StepsBy ctx body f)
    (hskip : Skips ctx body)
    (hrange : ∀ v, TargetRange v → TargetRange (f v)) (n : Nat) :
    ∀ {d t : Bytes} {k : Nat} {v : Int}, k ≤ 4 → TargetRange v →
      readNum ctx.requireMinimal d = some (k : Int) →
        readNum ctx.requireMinimal t = some v →
      ∃ d' t', Runs ctx (repeated n (positiveTokens ++ ifBlock body))
        (d :: t :: s) (d' :: t' :: s) ∧
        readNum ctx.requireMinimal t' = some (f^[min k n] v) := by
  -- the loop is unrolled: each turn tests the counter and does nothing below
  -- one
  induction n with
  | zero =>
    intro d t k v _ _ _ ht
    exact ⟨d, t, Runs.nil, by rw [Nat.min_zero]; exact ht⟩
  | succ n ih =>
    intro d t k v hk hv hd ht
    have hunroll : repeated (n + 1) (positiveTokens ++ ifBlock body) =
        (positiveTokens ++ ifBlock body) ++
          repeated n (positiveTokens ++ ifBlock body) := by
      rw [repeated, List.replicate_succ, List.flatten_cons]
      rfl
    rw [hunroll]
    cases k with
    | zero =>
      have hno : truthy (scriptNum (boolNum (((0 : Nat) : Int) > 0))) = false :=
        rfl
      obtain ⟨d', t', hruns, ht'⟩ := ih hk hv hd ht
      refine ⟨d', t', ((runs_positive hd).append
        (Runs.ifThen_not hno hskip)).append hruns, ?_⟩
      rw [ht', Nat.zero_min, Nat.zero_min]
    | succ k =>
      have hyes : truthy (scriptNum (boolNum (((k + 1 : Nat) : Int) > 0))) =
          true := by
        rw [truthy_boolNum, decide_eq_true (by omega)]
      have hk' : NumRange k := by constructor <;> omega
      have hstep := hf d t k v s (by omega) hv hd ht
      obtain ⟨d', t', hruns, ht'⟩ := ih (k := k) (by omega) (hrange v hv)
        (readNum_scriptNum _ hk') (readNum_scriptNum _ (hrange v hv).num)
      refine ⟨d', t',
        ((runs_positive hd).append (Runs.ifThen hyes hstep)).append hruns, ?_⟩
      rw [ht', Nat.succ_min_succ, Function.iterate_succ_apply]

theorem runs_upper (hd : readNum ctx.requireMinimal d = some v) :
    ∃ d', Runs ctx upperTokens (d :: s) (d' :: s) ∧
      readNum ctx.requireMinimal d' = some (min 4 v) := by
  have htest : Runs ctx [.op 0x76, .op 0x54, .op 0xA0] (d :: s)
      (scriptNum (boolNum (v > 4)) :: d :: s) := by
    refine Runs.dup.cons ?_
    refine (Runs.const (n := 4) (by decide) rfl (by decide)).cons ?_
    exact Runs.binary (by decide) rfl hd (readNum_scriptNum _ (by decide)) rfl
      numRange_boolNum
  have hset : Runs ctx [.op 0x75, .op 0x54] (d :: s) (scriptNum 4 :: s) := by
    refine Runs.drop.cons ?_
    exact Runs.const (by decide) rfl (by decide)
  by_cases hv : v > 4
  · refine ⟨scriptNum 4, htest.append (Runs.ifThen ?_ hset), ?_⟩
    · rw [truthy_boolNum, decide_eq_true hv]
    · rw [readNum_scriptNum _ (by decide), min_eq_left (by omega)]
  · refine ⟨d, htest.append (Runs.ifThen_not ?_ (skips_of_nesting rfl)), ?_⟩
    · rw [truthy_boolNum, decide_eq_false hv]
    · rw [hd, min_eq_right (by omega)]

theorem runs_lower (hd : readNum ctx.requireMinimal d = some v) :
    ∃ d', Runs ctx lowerTokens (d :: s) (d' :: s) ∧
      readNum ctx.requireMinimal d' = some (max (-4) v) := by
  have hneg : ∀ s, Runs ctx [.op 0x54, .op 0x8F] s (scriptNum (-4) :: s) := by
    intro s
    refine (Runs.const (n := 4) (by decide) rfl (by decide)).cons ?_
    exact Runs.unary (by decide) rfl (readNum_scriptNum _ (by decide))
      rfl (by decide)
  have htest : Runs ctx [.op 0x76, .op 0x54, .op 0x8F, .op 0x9F] (d :: s)
      (scriptNum (boolNum (v < -4)) :: d :: s) := by
    refine Runs.dup.cons ?_
    refine (hneg _).cons₂ ?_
    exact Runs.binary (by decide) rfl hd (readNum_scriptNum _ (by decide)) rfl
      numRange_boolNum
  have hset : Runs ctx [.op 0x75, .op 0x54,
      .op 0x8F] (d :: s) (scriptNum (-4) :: s) :=
    Runs.drop.cons (hneg s)
  by_cases hv : v < -4
  · refine ⟨scriptNum (-4), htest.append (Runs.ifThen ?_ hset), ?_⟩
    · rw [truthy_boolNum, decide_eq_true hv]
    · rw [readNum_scriptNum _ (by decide), max_eq_left (by omega)]
  · refine ⟨d, htest.append (Runs.ifThen_not ?_ (skips_of_nesting rfl)), ?_⟩
    · rw [truthy_boolNum, decide_eq_false hv]
    · rw [hd, max_eq_right (by omega)]

/-- Doubled, halved or left alone, by the sign of the drift. -/
theorem runs_shift {drift : Int} (hdrift : -4 ≤ drift ∧ drift ≤ 4)
    (hv : TargetRange v)
    (hd : readNum ctx.requireMinimal d = some drift)
    (ht : readNum ctx.requireMinimal t = some v) :
    ∃ t', Runs ctx shiftTokens (d :: t :: s)
      (t' :: s) ∧ readNum ctx.requireMinimal t' = some
      (if drift > 0 then asertDouble^[drift.toNat] v
        else if drift < 0 then asertHalve^[(-drift).toNat] v else v) := by
  have hskipMul : Skips ctx mulBody := skips_of_nesting (by decide)
  have hskipDiv : Skips ctx divBody := skips_of_nesting rfl
  -- a positive drift doubles, a negative one halves, zero does neither
  by_cases hpos : drift > 0
  · obtain ⟨d', t', hruns, ht'⟩ := runs_repeated (s := s) stepsBy_mul hskipMul
      (fun _ h => h.double) 4 (k := drift.toNat) (by omega) hv
      (by rw [hd]; congr 1; omega) ht
    refine ⟨t', (runs_positive hd).append
      (Runs.ifElse ?_ (hruns.append Runs.drop) ?_), ?_⟩
    · rw [truthy_boolNum, decide_eq_true hpos]
    · exact skips_of_nesting (by decide)
    · rw [ht', if_pos hpos, Nat.min_eq_left (by omega)]
  · have htest : Runs ctx [.op 0x76, numToken 0, .op 0x9F] (d :: t :: s)
        (scriptNum (boolNum (drift < 0)) :: d :: t :: s) := by
      refine Runs.dup.cons ?_
      refine (runs_num 0).cons ?_
      exact Runs.binary (by decide) rfl hd (readNum_scriptNum _ (by decide)) rfl
        numRange_boolNum
    have hnot : truthy (scriptNum (boolNum (drift > 0))) = false := by
      rw [truthy_boolNum, decide_eq_false hpos]
    have hskip : Skips ctx raiseTokens := skips_of_nesting (by decide)
    rw [if_neg hpos]
    by_cases hneg : drift < 0
    · have hrange : NumRange (-drift) := by constructor <;> omega
      obtain ⟨d', t', hruns, ht'⟩ := runs_repeated (s := s) stepsBy_div hskipDiv
        (fun _ h => h.halve) 4 (k := (-drift).toNat) (by omega) hv
        (by rw [Int.toNat_of_nonneg (by omega), readNum_scriptNum _ hrange]) ht
      have hlower : Runs ctx lowerTargetTokens (d :: t :: s) (t' :: s) :=
        (Runs.unary (by decide) rfl hd rfl hrange).append
          (hruns.append Runs.drop)
      refine ⟨t', (runs_positive hd).append (Runs.ifElse_not hnot hskip
        (htest.append (Runs.ifElse ?_ hlower (skips_of_nesting rfl)))), ?_⟩
      · rw [truthy_boolNum, decide_eq_true hneg]
      · rw [ht', if_pos hneg, Nat.min_eq_left (by omega)]
    · refine ⟨t, (runs_positive hd).append (Runs.ifElse_not hnot hskip
        (htest.append (Runs.ifElse_not ?_ (skips_of_nesting (by decide))
          Runs.drop))), ?_⟩
      · rw [truthy_boolNum, decide_eq_false hneg]
      · rw [ht, if_neg hneg]

/-- The old ASERT bytecode computes its target. -/
theorem runs_asertLegacy (hctx : ctx.locktime = st.currentTime) (hst : st.Valid)
    (hit : it.Hold ctx.requireMinimal st)
    (h : 1 ≤ halfLife ∧ halfLife < 2 ^ 31) : ∃ next y,
      computeNextTargetAsert st.target st.lastTime st.currentTime
        st.targetTime halfLife =
        .ok next ∧
      Runs ctx (asertLegacyTokens halfLife) (it.stack below)
        (y :: it.tail below) ∧
      readNum ctx.requireMinimal y = some next := by
  obtain ⟨ht1, ht2⟩ := hst.target
  have hhalf : NumRange halfLife := by constructor <;> omega
  have hexcess := excess_range hst
  let excess := st.currentTime - st.lastTime - st.targetTime
  let drift := max (-4) (min 4 (excess.tdiv halfLife))
  have hdrift : -4 ≤ drift ∧ drift ≤ 4 := by omega
  have hratio : NumRange (excess.tdiv halfLife) := hexcess.tdiv
  obtain ⟨d1, hupper, hd1⟩ := runs_upper (s := it.stack below)
    (readNum_scriptNum ctx.requireMinimal hratio)
  obtain ⟨d2, hlower, hd2⟩ := runs_lower (s := it.stack below) hd1
  obtain ⟨t1, hshift, ht1'⟩ :=
    runs_shift (s := it.tail below) hdrift ⟨by omega, ht2⟩ hd2 hit.target
  obtain ⟨y, hclamp, hy⟩ := runs_clamp (s := it.tail below) ht1'
  refine ⟨_, y, ?_, ?_, hy⟩
  · rw [computeNextTargetAsert, truncDiv_eq h.1, ok_bind]
    rfl
  · refine (runs_excess hctx hst hit).append ?_
    refine (runs_num _).append ?_
    refine (Runs.binary (by decide) rfl (readNum_scriptNum _ hexcess)
      (readNum_scriptNum _ hhalf)
      (if_neg (by omega)) hratio).append ?_
    exact hupper.append (hlower.append (hshift.append hclamp))

end AsertLegacy

/-! ## Epochs -/

section Epoch

/-- `height > 0 and height % epoch_length == 0`, up to the remainder. -/
def epochHead (epochLength : Int) : List Token :=
  [Token.op 0x59, Token.op 0x79] ++
    ([Token.op 0x76] ++ ([numToken 0] ++ ([Token.op 0xA0] ++
    ([Token.op 0x7C] ++ ([numToken epochLength] ++ [Token.op 0x97])))))

def epochTest (epochLength : Int) : List Token :=
  epochHead epochLength ++
    ([numToken 0] ++ ([Token.op 0x9C] ++ [Token.op 0x9A]))

/-- The retarget at a boundary. -/
def epochBody (n : Nat) : List Token :=
  deltaTokens ++ ([Token.op 0x53, Token.op 0x79] ++
    (List.replicate n (Token.op 0x8D) ++ ([Token.op 0xA3] ++ ([Token.op 0x53,
    Token.op 0x79] ++ (List.replicate n (Token.op 0x8E) ++ ([Token.op 0xA4] ++
    ([Token.op 0x7C] ++ ([numToken epochMaxSafeTarget, Token.op 0xA3] ++
    ([Token.op 0x53, Token.op 0x79] ++ ([Token.op 0x96] ++ ([Token.op 0x95] ++
    ([numToken epochMaxSafeTarget, Token.op 0xA3] ++ clampTokens))))))))))))

def epochTokens (epochLength : Int) (n : Nat) : List Token :=
  epochTest epochLength ++ ifBlock (epochBody n)

variable {ctx : ScriptCtx} {st : MintState} {it : StateItems}
  {below s : List Bytes}
  {epochLength v : Int} {n : Nat} {y : Bytes}

/-- A repeated opcode is its byte, repeated. -/
theorem assemble_replicate (n : Nat) (code : UInt8) :
    assemble (List.replicate n (.op code)) = times n [code] := by
  induction n with
  | zero => rfl
  | succ n ih =>
    rw [List.replicate_succ, times, List.replicate_succ, List.flatten_cons]
    exact congrArg _ ih

/-- The epoch builder writes its tokens. -/
theorem buildEpochDaa_eq {push : Bytes}
    (h : pushMinimal epochLength = .ok push) :
    buildEpochDaa epochLength n = .ok
      (assemble (epochTokens epochLength n)) := by
  have hsafe : pushEpochMaxSafeTarget =
      assemble [numToken epochMaxSafeTarget] := by decide
  have hcons : ∀ u : Token, [numToken epochMaxSafeTarget, u] =
      [numToken epochMaxSafeTarget] ++ [u] :=
    fun _ => rfl
  rw [buildEpochDaa, h, ok_bind, (pushMinimal_ok h).1, hsafe,
    ← assemble_clampTokens,
    ← assemble_replicate, ← assemble_replicate]
  simp only [epochTokens, epochTest, epochHead, epochBody, ifBlock, hcons,
    assemble_append,
    List.append_assoc]
  rfl

/-- Each of them is well formed. -/
theorem token_ok_epoch (h : (numToken epochLength).Ok) (n : Nat) :
    ∀ t ∈ epochTokens epochLength n, t.Ok := by
  have hrep : ∀ code : UInt8, 0x4E < code →
      ∀ t ∈ List.replicate n (Token.op code), t.Ok := by
    intro code hcode t ht
    rw [List.eq_of_mem_replicate ht]
    exact hcode
  simp only [epochTokens, epochTest, epochHead, epochBody, ifBlock,
    List.forall_mem_append, List.forall_mem_singleton]
  refine ⟨⟨⟨?_, ?_, ?_, ?_, ?_, h, ?_⟩, ?_, ?_, ?_⟩, ?_,
    ⟨?_, ?_, hrep _ (by decide), ?_, ?_,
    hrep _ (by decide), ?_, ?_, ?_, ?_, ?_, ?_, ?_, ?_⟩, ?_⟩ <;> decide

theorem runs_twice (n : Nat) : ∀ {y : Bytes}
    {v : Int}, readNum ctx.requireMinimal y = some v →
    0 ≤ v → v * 2 ^ n < 2 ^ 63 → ∃ y', Runs ctx (List.replicate n (.op 0x8D))
      (y :: s) (y' :: s) ∧
      readNum ctx.requireMinimal y' = some (v * 2 ^ n) := by
  induction n with
  | zero =>
    intro y v hy _ _
    exact ⟨y, Runs.nil, by rw [hy, pow_zero, mul_one]⟩
  | succ n ih =>
    intro y v hy h0 hlt
    have hpow : v * 2 ^ (n + 1) = v * 2 * 2 ^ n := by ring
    have hone : (1 : Int) ≤ 2 ^ n := by exact_mod_cast Nat.one_le_two_pow
    have hle : v * 2 * 1 ≤ v * 2 * 2 ^ n :=
      Int.mul_le_mul_of_nonneg_left hone (by omega)
    have hrange : NumRange (v * 2) := by constructor <;> omega
    obtain ⟨y', hruns, hy'⟩ :=
      ih (readNum_scriptNum ctx.requireMinimal hrange) (by omega) (by omega)
    refine ⟨y', (Runs.unary (by decide) rfl hy rfl hrange).cons hruns, ?_⟩
    rw [hy', hpow]

theorem runs_half (n : Nat) : ∀ {y : Bytes}
    {v : Int}, readNum ctx.requireMinimal y = some v →
    0 ≤ v → v < 2 ^ 63 → ∃ y', Runs ctx (List.replicate n (.op 0x8E))
      (y :: s) (y' :: s) ∧
      readNum ctx.requireMinimal y' = some (v / 2 ^ n) := by
  induction n with
  | zero =>
    intro y v hy _ _
    exact ⟨y, Runs.nil, by rw [hy, pow_zero, Int.ediv_one]⟩
  | succ n ih =>
    intro y v hy h0 hlt
    have hhalf : v.tdiv 2 = v / 2 := Int.tdiv_eq_ediv_of_nonneg h0
    have hrange : NumRange (v / 2) := by constructor <;> omega
    obtain ⟨y', hruns, hy'⟩ :=
      ih (readNum_scriptNum ctx.requireMinimal hrange) (by omega) (by omega)
    refine ⟨y', (Runs.unary (by decide) rfl hy hhalf hrange).cons hruns, ?_⟩
    rw [hy', Int.ediv_ediv_of_nonneg (by decide), pow_succ, mul_comm]

/-- The boundary test, on a height and an epoch length that are script
numbers. -/
theorem runs_epochTest (hheight : NumRange st.height)
    (hlen : NumRange epochLength)
    (hpos : 1 ≤ epochLength) (hit : it.Hold ctx.requireMinimal st) :
    Runs ctx (epochTest epochLength) (it.stack below)
      (scriptNum (boolNum (boolNum (st.height > 0) ≠ 0 ∧
        boolNum (st.height.tmod epochLength = 0) ≠ 0)) :: it.stack below) := by
  have hread : readNum ctx.requireMinimal it.height = some st.height := by
    rw [hit.height, readNum_scriptNum _ hheight]
  have hzero : readNum ctx.requireMinimal (scriptNum 0) = some 0 :=
    readNum_scriptNum _ (by decide)
  have hhead : Runs ctx (epochHead epochLength) (it.stack below)
      (scriptNum (st.height.tmod epochLength) ::
        scriptNum (boolNum (st.height > 0)) ::
        it.stack below) := by
    refine (Runs.copy (k := 9) (by decide) rfl (by decide) rfl).append ?_
    refine Runs.dup.append ?_
    refine (runs_num 0).append ?_
    refine (Runs.binary (by decide) rfl hread hzero rfl numRange_boolNum).append
      ?_
    refine Runs.swap.append ?_
    refine (runs_num _).append ?_
    exact Runs.binary (by decide) rfl hread (readNum_scriptNum _ hlen)
      (if_neg (by omega)) hheight.tmod
  refine hhead.append ?_
  refine (runs_num 0).append ?_
  refine (Runs.binary (by decide) rfl
    (readNum_scriptNum _ hheight.tmod) hzero rfl
    numRange_boolNum).append ?_
  exact Runs.binary (by decide) rfl (readNum_scriptNum _ numRange_boolNum)
    (readNum_scriptNum _ numRange_boolNum) rfl numRange_boolNum

/-- Out of range, the test aborts: at the height or at the remainder. -/
theorem aborts_epochTest (h : ¬ (NumRange st.height ∧ NumRange epochLength))
    (hit : it.Hold ctx.requireMinimal st) :
    Aborts ctx (epochTest epochLength) (it.stack below) := by
  have hzero : readNum ctx.requireMinimal (scriptNum 0) = some 0 :=
    readNum_scriptNum _ (by decide)
  have hhead : Aborts ctx (epochHead epochLength) (it.stack below) := by
    refine (Runs.copy (k := 9) (by decide) rfl (by decide) rfl).aborts ?_
    refine Runs.dup.aborts ?_
    refine (runs_num 0).aborts ?_
    by_cases hheight : NumRange st.height
    · have hread : readNum ctx.requireMinimal it.height = some st.height := by
        rw [hit.height, readNum_scriptNum _ hheight]
      have hlen : ¬ NumRange epochLength := fun hlen => h ⟨hheight, hlen⟩
      refine (Runs.binary (by decide) rfl hread hzero rfl
        numRange_boolNum).aborts ?_
      refine Runs.swap.aborts ?_
      refine (runs_num _).aborts ?_
      exact Aborts.binary_right (by decide) rfl (readNum_scriptNum_none _ hlen)
    · refine Aborts.append (Aborts.binary_left (by decide) rfl ?_)
      show readNum _ it.height = none
      rw [hit.height, readNum_scriptNum_none _ hheight]
  exact hhead.append

/-- The retarget itself. -/
theorem runs_epochBody (hctx : ctx.locktime = st.currentTime) (hst : st.Valid)
    (hit : it.Hold ctx.requireMinimal st) (hn : n ∈ [1, 2, 3, 4]) : ∃ y,
      Runs ctx (epochBody n) (it.stack below) (y :: it.tail below) ∧
      readNum ctx.requireMinimal y = some (max 1 (min
        ((min st.target epochMaxSafeTarget).fdiv st.targetTime *
          max (st.targetTime.fdiv (2 ^ n)) (min (st.targetTime * 2 ^ n)
            (st.currentTime - st.lastTime))) epochMaxSafeTarget)) := by
  obtain ⟨ht1, ht2⟩ := hst.target
  obtain ⟨htt1, htt2⟩ := hst.targetTime
  have hmax : maxSha256dTarget = 2 ^ 63 - 1 := rfl
  have hsafe : epochMaxSafeTarget = 2 ^ 48 := rfl
  have hsafe' : NumRange epochMaxSafeTarget := by decide
  have htarget : NumRange st.target := by constructor <;> omega
  have hpow : (1 : Int) ≤ 2 ^ n ∧ (2 : Int) ^ n ≤ 16 := by
    simp only [List.mem_cons, List.not_mem_nil, or_false] at hn
    rcases hn with rfl | rfl | rfl | rfl <;> decide
  -- both bounds of the elapsed time
  let upper := st.targetTime * 2 ^ n
  let lower := st.targetTime / 2 ^ n
  have hup1 : st.targetTime * 1 ≤ upper :=
    Int.mul_le_mul_of_nonneg_left hpow.1 (by omega)
  have hup2 : upper ≤ st.targetTime * 16 :=
    Int.mul_le_mul_of_nonneg_left hpow.2 (by omega)
  have hlow0 : 0 ≤ lower := Int.ediv_nonneg (by omega) (by omega)
  have hlow1 : lower ≤ st.targetTime := Int.ediv_le_self _ (by omega)
  have hlower : NumRange lower := by constructor <;> omega
  have hupper : NumRange upper := by constructor <;> omega
  have hdelta := delta_range hst
  let clamped := max (min (st.currentTime - st.lastTime) upper) lower
  have hclamped : NumRange clamped := (hdelta.min hupper).max hlower
  have hclamped0 : 0 ≤ clamped := by omega
  have hclamped1 : clamped ≤ st.targetTime * 16 := by omega
  -- the capped target divided first
  let capped := min st.target epochMaxSafeTarget
  have hcapped : NumRange capped := htarget.min hsafe'
  have hcapped0 : 0 ≤ capped := by omega
  let q := capped.tdiv st.targetTime
  have hq : NumRange q := hcapped.tdiv
  have hprod : NumRange (clamped * q) := by
    have hq0 : 0 ≤ q := Int.tdiv_nonneg hcapped0 (by omega)
    have hqle : q * st.targetTime ≤ capped := tdiv_mul_le hcapped0 (by omega)
    have hle := Int.mul_le_mul_of_nonneg_right hclamped1 hq0
    have hnonneg := Int.mul_nonneg hclamped0 hq0
    have hregroup : st.targetTime * 16 * q = 16 * (q * st.targetTime) := by ring
    have hcap : capped ≤ epochMaxSafeTarget := min_le_right _ _
    constructor <;> omega
  obtain ⟨u, hu, hu'⟩ :=
    runs_twice (s := scriptNum (st.currentTime - st.lastTime) ::
    it.stack below) n hit.targetTime (by omega) (show upper < 2 ^ 63 by omega)
  obtain ⟨l, hl, hl'⟩ :=
    runs_half (s := scriptNum (min (st.currentTime - st.lastTime) upper) ::
    it.stack below) n hit.targetTime (by omega) (by omega)
  obtain ⟨y, hclamp, hy⟩ := runs_clamp (s := it.tail below)
    (readNum_scriptNum ctx.requireMinimal (hprod.min hsafe'))
  refine ⟨y, ?_, ?_⟩
  · refine (runs_delta hctx hst hit).append ?_
    refine (Runs.copy (k := 3) (by decide) rfl (by decide) rfl).append ?_
    refine hu.append ?_
    refine (Runs.binary (by decide) rfl (readNum_scriptNum _ hdelta) hu' rfl
      (hdelta.min hupper)).append ?_
    refine (Runs.copy (k := 3) (by decide) rfl (by decide) rfl).append ?_
    refine hl.append ?_
    refine (Runs.binary (by decide) rfl
      (readNum_scriptNum _ (hdelta.min hupper)) hl' rfl
      hclamped).append ?_
    refine Runs.swap.append ?_
    refine (runs_min hit.target htarget hsafe').append ?_
    refine (Runs.copy (k := 3) (by decide) rfl (by decide) rfl).append ?_
    refine (Runs.binary (by decide) rfl (readNum_scriptNum _ hcapped)
      hit.targetTime
      (if_neg (by omega)) hq).append ?_
    refine (Runs.binary (by decide) rfl (readNum_scriptNum _ hclamped)
      (readNum_scriptNum _ hq) rfl
      hprod).append ?_
    refine (runs_min (readNum_scriptNum _ hprod) hprod hsafe').append ?_
    exact hclamp
  · have h1 : st.targetTime.fdiv (2 ^ n) = lower :=
      Int.fdiv_eq_ediv_of_nonneg _ (by omega)
    have h2 : (min st.target epochMaxSafeTarget).fdiv st.targetTime = q :=
      Int.fdiv_eq_tdiv_of_nonneg hcapped0 (by omega)
    have h3 : max lower (min (st.targetTime * 2 ^ n)
        (st.currentTime - st.lastTime)) = clamped := by
      rw [max_comm, min_comm]
    rw [hy, h1, h2, h3, Int.mul_comm]

/-- The boundary test as arithmetic. -/
theorem epochBoundary_eq {height : Int} (h : 1 ≤ epochLength) :
    epochBoundary height epochLength = .ok
      (decide (height > 0 ∧ height.tmod epochLength = 0)) := by
  unfold epochBoundary
  by_cases hpos : height > 0
  · rw [if_pos hpos, floorMod, if_neg (by omega), ok_bind,
      Int.fmod_eq_tmod_of_nonneg (by omega) (by omega)]
    simp only [hpos, true_and, pure_eq_ok]
  · rw [if_neg hpos, decide_eq_false (fun hand => hpos hand.1)]

/-- A pushed truth value is zero exactly when false. -/
theorem boolNum_ne_zero {p : Prop} [Decidable p] : boolNum p ≠ 0 ↔ p := by
  unfold boolNum
  by_cases hp : p
  · rw [if_pos hp]
    exact ⟨fun _ => hp, fun _ => by decide⟩
  · rw [if_neg hp]
    exact ⟨fun h => absurd rfl h, fun h => absurd h hp⟩

/-- The epoch bytecode computes the epoch target. -/
theorem runs_epoch (hctx : ctx.locktime = st.currentTime) (hst : st.Valid)
    (hit : it.Hold ctx.requireMinimal st) (hlen : 1 ≤ epochLength)
    (hn : n ∈ [1, 2, 3, 4])
    (hrange : NumRange st.height ∧ NumRange epochLength) : ∃ next y,
      computeNextTargetEpoch st.target st.lastTime st.currentTime
        st.targetTime st.height
        epochLength n = .ok next ∧
      Runs ctx (epochTokens epochLength n) (it.stack below)
        (y :: it.tail below) ∧
      readNum ctx.requireMinimal y = some next := by
  have htest : Runs ctx (epochTest epochLength) (it.stack below) _ :=
    runs_epochTest hrange.1 hrange.2 hlen hit
  rw [computeNextTargetEpoch, epochBoundary_eq hlen, ok_bind]
  -- at a boundary the body runs, elsewhere the target is left as it was
  by_cases hb : st.height > 0 ∧ st.height.tmod epochLength = 0
  · obtain ⟨y, hbody, hy⟩ : ∃ y, Runs ctx (epochBody n) (it.stack below)
        (y :: it.tail below) ∧ _ :=
      runs_epochBody hctx hst hit hn
    have hyes : truthy (scriptNum (boolNum (boolNum (st.height > 0) ≠ 0 ∧
        boolNum (st.height.tmod epochLength = 0) ≠ 0))) = true := by
      rw [truthy_boolNum, decide_eq_true_eq, boolNum_ne_zero, boolNum_ne_zero]
      exact hb
    refine ⟨_, y, ?_, htest.append (Runs.ifThen hyes hbody), hy⟩
    have hq : floorDiv (min st.target epochMaxSafeTarget) st.targetTime =
        .ok ((min st.target epochMaxSafeTarget).fdiv st.targetTime) := by
      have htt := hst.targetTime
      exact if_neg (by omega)
    rw [decide_eq_true hb, if_pos rfl]
    simp only [hq, ok_bind, pure_eq_ok]
  · have hno : truthy (scriptNum (boolNum (boolNum (st.height > 0) ≠ 0 ∧
        boolNum (st.height.tmod epochLength = 0) ≠ 0))) = false := by
      rw [truthy_boolNum, decide_eq_false_iff_not, boolNum_ne_zero,
        boolNum_ne_zero]
      exact hb
    have hskip : Skips ctx (epochBody n) := by
      simp only [List.mem_cons, List.not_mem_nil, or_false] at hn
      rcases hn with rfl | rfl | rfl | rfl <;>
        exact skips_of_nesting (by decide)
    refine ⟨st.target, it.target, ?_,
      htest.append (Runs.ifThen_not hno hskip), hit.target⟩
    rw [decide_eq_false hb]
    rfl

end Epoch

/-! ## Schedules -/

section Schedule

/-- Set the target, or run the code for the lower boundaries if there is any. -/
def scheduleChoice (body : List Token) (target : Int) : List Token :=
  if body = [] then ifBlock ([Token.op 0x75] ++ [numToken target])
  else ifElseBlock ([Token.op 0x75] ++ [numToken target]) body

def scheduleTokens (body : List Token) (entry : Int × Int) : List Token :=
  [Token.op 0x59, Token.op 0x79] ++
    ([numToken entry.1] ++ ([Token.op 0xA2] ++ scheduleChoice body entry.2))

variable {ctx : ScriptCtx} {st : MintState} {it : StateItems}
  {below s : List Bytes}
  {body : List Token} {entry : Int × Int} {entries : List (Int × Int)}
  {code : Bytes}

/-- Only no tokens assemble to no bytes. -/
theorem assemble_eq_nil : assemble body = [] ↔ body = [] := by
  cases body with
  | nil => exact ⟨fun _ => rfl, fun _ => rfl⟩
  | cons t ts =>
    constructor
    · intro h
      rw [assemble, List.flatMap_cons, List.append_eq_nil_iff] at h
      cases t with
      | op code => cases h.1
      | push data =>
        have hbytes := h.1
        rw [Token.bytes] at hbytes
        split at hbytes <;> cases hbytes
    · intro h
      cases h

/-- One schedule entry wraps the body in its height test. -/
theorem assemble_scheduleTokens (body : List Token) (entry : Int × Int) :
    assemble (scheduleTokens body entry) =
    [0x59, 0x79] ++ assemble [numToken entry.1] ++ [0xA2] ++
      [0x63] ++ [0x75] ++ assemble [numToken entry.2] ++
      (if assemble body = [] then [] else [0x67]) ++
        assemble body ++ [0x68] := by
  unfold scheduleTokens scheduleChoice
  by_cases hbody : body = []
  · rw [if_pos hbody, if_pos (assemble_eq_nil.mpr hbody), hbody]
    simp only [ifBlock, assemble_append, List.append_assoc]
    rfl
  · rw [if_neg hbody, if_neg (mt assemble_eq_nil.mp hbody)]
    simp only [ifElseBlock, assemble_append, List.append_assoc]
    rfl

theorem token_ok_schedule (hbody : ∀ t ∈ body, t.Ok)
    (h1 : (numToken entry.1).Ok)
    (h2 : (numToken entry.2).Ok) : ∀ t ∈ scheduleTokens body entry, t.Ok := by
  unfold scheduleTokens scheduleChoice
  split
  · simp only [ifBlock, List.forall_mem_append, List.forall_mem_singleton]
    refine ⟨?_, h1, ?_, ?_, ⟨?_, h2⟩, ?_⟩ <;> decide
  · simp only [ifElseBlock, List.forall_mem_append, List.forall_mem_singleton]
    refine ⟨?_, h1, ?_, ?_, ⟨?_, h2⟩, ?_, hbody, ?_⟩ <;> decide

/-- What is built is the assembly of the nested checks. -/
theorem scheduleTurns_ok : ∀ {body : List Token}
    {code : Bytes}, (∀ t ∈ body, t.Ok) →
    entries.foldlM scheduleTurn (assemble body) = .ok code →
      code = assemble (entries.foldl scheduleTokens body) ∧
        ∀ t ∈ entries.foldl scheduleTokens body, t.Ok := by
  induction entries with
  | nil =>
    intro body code hbody h
    exact ⟨(Except.ok.inj h).symm, hbody⟩
  | cons entry entries ih =>
    intro body code hbody h
    rw [List.foldlM_cons, bind_ok] at h
    obtain ⟨next, hturn, hrest⟩ := h
    simp only [scheduleTurn, bind_ok, pure_eq_ok, Except.ok.injEq] at hturn
    obtain ⟨p1, hp1, p2, hp2, rfl⟩ := hturn
    obtain ⟨rfl, hok1⟩ := pushMinimal_ok hp1
    obtain ⟨rfl, hok2⟩ := pushMinimal_ok hp2
    rw [← assemble_scheduleTokens] at hrest
    exact ih (token_ok_schedule hbody hok1 hok2) hrest

/-- The entries are script numbers. -/
def EntriesFit (entries : List (Int × Int)) : Prop :=
  ∀ e ∈ entries, NumRange e.1 ∧ NumRange e.2

/-- A schedule of entries in range is always built. -/
theorem scheduleTurns_of_fit (h : EntriesFit entries) : ∀ code : Bytes,
    ∃ code', entries.foldlM scheduleTurn code = .ok code' := by
  induction entries with
  | nil => exact fun code => ⟨code, rfl⟩
  | cons entry entries ih =>
    intro code
    obtain ⟨h1, h2⟩ := h entry List.mem_cons_self
    rw [List.foldlM_cons, scheduleTurn, pushMinimal_of_range h1, ok_bind,
      pushMinimal_of_range h2,
      ok_bind, pure_eq_ok, ok_bind]
    exact ih (fun e he => h e (List.mem_cons_of_mem _ he)) _

/-- A wrapped body is skipped as a whole. -/
theorem skips_scheduleTokens (hbody : Skips ctx body) :
    Skips ctx (scheduleTokens body entry) := by
  have hset : Skips ctx ([.op 0x75] ++ [numToken entry.2]) :=
    (Skips.op (by decide)).append (skips_num _)
  have hchoice : Skips ctx (scheduleChoice body entry.2) := by
    unfold scheduleChoice
    split
    · exact hset.ifThen
    · exact hset.ifElse hbody
  exact (skips_of_nesting rfl).append
    ((skips_num _).append ((Skips.op (by decide)).append hchoice))

/-- One boundary: its own target if the height has reached it, else what is
below. -/
theorem runs_scheduleTokens {v : Int} {y : Bytes} (hheight : NumRange st.height)
    (hit : it.Hold ctx.requireMinimal st)
    (hfit : NumRange entry.1 ∧ NumRange entry.2)
    (hskip : Skips ctx body)
    (hbody : Runs ctx body (it.stack below) (y :: it.tail below))
    (hy : readNum ctx.requireMinimal y = some v) : ∃ y',
      Runs ctx (scheduleTokens body entry) (it.stack below)
        (y' :: it.tail below) ∧
      readNum ctx.requireMinimal y' =
        some (if st.height ≥ entry.1 then entry.2 else v) := by
  have hread : readNum ctx.requireMinimal it.height = some st.height := by
    rw [hit.height, readNum_scriptNum _ hheight]
  have hset : Runs ctx ([.op 0x75] ++ [numToken entry.2]) (it.stack below)
      (scriptNum entry.2 :: it.tail below) := Runs.drop.append (runs_num _)
  have hsetSkip : Skips ctx ([.op 0x75] ++ [numToken entry.2]) :=
    (Skips.op (by decide)).append (skips_num _)
  have htest : ∀ {s'}, Runs ctx (scheduleChoice body entry.2)
      (scriptNum (boolNum (st.height ≥ entry.1)) :: it.stack below) s' →
      Runs ctx (scheduleTokens body entry) (it.stack below) s' := by
    intro s' hchoice
    refine (Runs.copy (k := 9) (by decide) rfl (by decide) rfl).append ?_
    refine (runs_num _).append ?_
    exact (Runs.binary (by decide) rfl hread (readNum_scriptNum _ hfit.1) rfl
      numRange_boolNum).append hchoice
  by_cases hge : st.height ≥ entry.1
  · have hyes : truthy (scriptNum (boolNum (st.height ≥ entry.1))) = true := by
      rw [truthy_boolNum, decide_eq_true hge]
    refine ⟨scriptNum entry.2, htest ?_, ?_⟩
    · unfold scheduleChoice
      split
      · exact Runs.ifThen hyes hset
      · exact Runs.ifElse hyes hset hskip
    · rw [if_pos hge, readNum_scriptNum _ hfit.2]
  · have hno : truthy (scriptNum (boolNum (st.height ≥ entry.1))) = false := by
      rw [truthy_boolNum, decide_eq_false hge]
    refine ⟨y, htest ?_, by rw [if_neg hge, hy]⟩
    unfold scheduleChoice
    split
    · next hnil =>
      -- no code below: the target has not moved
      have hstay := hbody [] rfl
      rw [hnil] at hstay
      have hstack : it.stack below = y :: it.tail below :=
        congrArg Vm.stack (Option.some.inj hstay)
      rw [← hstack]
      exact Runs.ifThen_not hno hsetSkip
    · exact Runs.ifElse_not hno hsetSkip hbody

/-- The invariant of the schedule: after every entry the bytecode computes what
the fold computes. -/
theorem runs_scheduleTurns (hheight : NumRange st.height)
    (hit : it.Hold ctx.requireMinimal st)
    (hfit : EntriesFit entries) : ∀ {body : List Token} {v : Int}
      {y : Bytes}, Skips ctx body →
      Runs ctx body (it.stack below) (y :: it.tail below) →
      readNum ctx.requireMinimal y = some v → ∃ y',
        Runs ctx (entries.foldl scheduleTokens body) (it.stack below)
          (y' :: it.tail below) ∧
        readNum ctx.requireMinimal y' =
          some (computeNextTargetSchedule v st.height entries) := by
  induction entries with
  | nil =>
    intro body v y _ hbody hy
    exact ⟨y, hbody, hy⟩
  | cons entry entries ih =>
    intro body v y hskip hbody hy
    obtain ⟨y1, hruns, hy1⟩ :=
      runs_scheduleTokens hheight hit (hfit entry List.mem_cons_self) hskip
      hbody hy
    exact ih (fun e he => hfit e (List.mem_cons_of_mem _ he))
      (skips_scheduleTokens hskip) hruns hy1

/-- The outermost check is the last entry's; it aborts on a number out of
range. -/
theorem aborts_scheduleTokens (h : ¬ (NumRange st.height ∧ NumRange entry.1))
    (hit : it.Hold ctx.requireMinimal st) :
    Aborts ctx (scheduleTokens body entry) (it.stack below) := by
  refine (Runs.copy (k := 9) (by decide) rfl (by decide) rfl).aborts ?_
  refine (runs_num _).aborts ?_
  apply Aborts.append
  by_cases hheight : NumRange st.height
  · exact Aborts.binary_right (by decide) rfl
      (readNum_scriptNum_none _ fun hentry => h ⟨hheight, hentry⟩)
  · refine Aborts.binary_left (by decide) rfl ?_
    show readNum _ it.height = none
    rw [hit.height, readNum_scriptNum_none _ hheight]

end Schedule

/-! ## The main theorem -/

/-- The numbers the code reads, besides the state's target and times, are script
numbers. -/
def Daa.Fits (height : Int) : Daa → Prop
  | .asertV2 _ => True
  | .asertLegacy _ => True
  | .linear => True
  | .epoch epochLength _ => NumRange height ∧ epochLength < 2 ^ 63
  | .schedule entries => NumRange height ∧ ∀ e ∈ entries, e.1 < 2 ^ 63

section Main

variable {requireMinimal : Bool} {daa : Daa} {st : MintState} {it : StateItems}
  {below : List Bytes}

/-- A run of the tokens is a run of the built bytes. -/
theorem simulates_of_runs {ts : List Token} {next : Int} {y : Bytes}
    (hbuild : daa.build = .ok (assemble ts)) (hts : ∀ t ∈ ts, t.Ok)
    (hnext : daa.nextTarget st = .ok next)
    (hruns : Runs ⟨st.currentTime,
      requireMinimal⟩ ts (it.stack below) (y :: it.tail below))
    (hy : readNum requireMinimal y = some next) :
    Simulates requireMinimal daa st it below :=
  ⟨assemble ts, next, y, hbuild, hnext, runScript_of_runs hts hruns, hy⟩

/-- When the numbers fit, every builder's bytecode computes the off-chain
target. -/
theorem simulates_of_fits (hdaa : daa.Deployable) (hst : st.Valid)
    (hit : it.Hold requireMinimal st)
    (hfits : daa.Fits st.height) :
    Simulates requireMinimal daa st it below := by
  let ctx : ScriptCtx := ⟨st.currentTime, requireMinimal⟩
  have hctx : ctx.locktime = st.currentTime := rfl
  have hit' : it.Hold ctx.requireMinimal st := hit
  cases daa with
  | asertV2 halfLife =>
    have h : 1 ≤ halfLife ∧ halfLife < 2 ^ 31 := hdaa
    have hrange : NumRange halfLife := by constructor <;> omega
    obtain ⟨next, y, hnext, hruns, hy⟩ := runs_asertV2 hctx hst hit' hdaa
    exact simulates_of_runs (buildAsertDaaV2_eq hdaa)
      (token_ok_asertV2 hrange) hnext hruns hy
  | asertLegacy halfLife =>
    have h : 1 ≤ halfLife ∧ halfLife < 2 ^ 31 := hdaa
    have hrange : NumRange halfLife := by constructor <;> omega
    obtain ⟨next, y, hnext, hruns, hy⟩ := runs_asertLegacy hctx hst hit' hdaa
    exact simulates_of_runs (buildAsertDaaLegacy_eq hrange)
      (token_ok_asertLegacy hrange) hnext hruns hy
  | linear =>
    obtain ⟨next, y, hnext, hruns, hy⟩ := runs_linear hctx hst hit'
    exact simulates_of_runs (congrArg _ assemble_linearTokens.symm)
      token_ok_linear hnext hruns hy
  | epoch epochLength n =>
    have hlen : NumRange epochLength := by
      have h1 := hdaa.1
      have h2 := hfits.2
      constructor <;> omega
    obtain ⟨next, y, hnext, hruns, hy⟩ :=
      runs_epoch hctx hst hit' hdaa.1 hdaa.2 ⟨hfits.1, hlen⟩
    exact simulates_of_runs (buildEpochDaa_eq (pushMinimal_of_range hlen))
      (token_ok_epoch (numToken_ok hlen) n) hnext hruns hy
  | schedule entries =>
    have hfit : EntriesFit entries := by
      intro e he
      have hmax : maxSha256dTarget = 2 ^ 63 - 1 := rfl
      have h1 := hdaa.2.2.1 e he
      have h2 := hfits.2 e he
      exact ⟨by constructor <;> omega, by constructor <;> omega⟩
    obtain ⟨code, hcode⟩ := scheduleTurns_of_fit hfit []
    obtain ⟨hcode', hok⟩ := scheduleTurns_ok (List.forall_mem_nil _) hcode
    obtain ⟨y, hruns, hy⟩ :=
      runs_scheduleTurns hfits.1 hit' hfit Skips.nil Runs.nil hit'.target
    rw [hcode'] at hcode
    exact simulates_of_runs hcode hok rfl hruns hy

/-- A run that aborts simulates nothing. -/
theorem not_simulates_of_aborts {ts : List Token}
    (hbuild : ∀ code, daa.build = .ok code → code = assemble ts ∧
      ∀ t ∈ ts, t.Ok)
    (haborts : Aborts ⟨st.currentTime, requireMinimal⟩ ts (it.stack below)) :
    ¬ Simulates requireMinimal daa st it below := by
  intro h
  obtain ⟨code, next, y, hcode, -, hrun, -⟩ := h
  obtain ⟨rfl, hok⟩ := hbuild code hcode
  rw [runScript_of_aborts hok haborts] at hrun
  cases hrun

theorem fits_of_simulates (hdaa : daa.Deployable)
    (hit : it.Hold requireMinimal st)
    (h : Simulates requireMinimal daa st it below) : daa.Fits st.height := by
  cases daa with
  | asertV2 halfLife => trivial
  | asertLegacy halfLife => trivial
  | linear => trivial
  | epoch epochLength n =>
    by_contra hfits
    have hout : ¬ (NumRange st.height ∧ NumRange epochLength) := fun hand =>
      hfits ⟨hand.1, hand.2.2⟩
    have haborts : Aborts ⟨st.currentTime,
      requireMinimal⟩ (epochTokens epochLength n)
        (it.stack below) := (aborts_epochTest hout hit).append
    refine not_simulates_of_aborts ?_ haborts h
    intro code hcode
    have hcode' : buildEpochDaa epochLength n = .ok code := hcode
    rw [buildEpochDaa, bind_ok] at hcode'
    obtain ⟨push, hpush, -⟩ := hcode'
    have hbuilt : Daa.build (.epoch epochLength n) = _ := buildEpochDaa_eq hpush
    rw [hbuilt, Except.ok.injEq] at hcode
    exact ⟨hcode.symm, token_ok_epoch (pushMinimal_ok hpush).2 n⟩
  | schedule entries =>
    by_contra hfits
    obtain ⟨hne, -, -, hsorted⟩ := hdaa
    obtain ⟨init, last, rfl⟩ :=
      (List.eq_nil_or_concat' entries).resolve_left hne
    have hout : ¬ (NumRange st.height ∧ NumRange last.1) := by
      intro hand
      refine hfits ⟨hand.1, ?_⟩
      intro e he
      -- the last boundary is the highest
      rcases List.mem_append.mp he with he | he
      · have hlt :=
          (List.pairwise_append.mp hsorted).2.2 e he last List.mem_cons_self
        exact Int.lt_trans hlt hand.2.2
      · rw [List.mem_singleton.mp he]
        exact hand.2.2
    have haborts : Aborts ⟨st.currentTime, requireMinimal⟩
        (scheduleTokens (init.foldl scheduleTokens []) last) (it.stack below) :=
      aborts_scheduleTokens hout hit
    refine not_simulates_of_aborts ?_ haborts h
    intro code hcode
    have hturns := scheduleTurns_ok (List.forall_mem_nil _) hcode
    rw [List.foldl_append] at hturns
    exact hturns

/-- **The bytecode simulates the miner** exactly where the height, the epoch
length and the boundaries it reads are 64-bit script numbers. -/
theorem daa_simulates_iff (requireMinimal : Bool) (daa : Daa) (st : MintState)
    (it : StateItems)
    (below : List Bytes) (hdaa : daa.Deployable) (hst : st.Valid)
    (hit : it.Hold requireMinimal st) :
    Simulates requireMinimal daa st it below ↔ daa.Fits st.height :=
  ⟨fits_of_simulates hdaa hit, simulates_of_fits hdaa hst hit⟩

end Main

/-! ## Two contracts -/

/-- The items as the state script pushes them. -/
def MintState.items (st : MintState) : StateItems where
  target := scriptNum st.target
  lastTime := scriptNum st.lastTime
  targetTime := scriptNum st.targetTime
  daaMode := [0x03]
  algo := []
  reward := [0x64]
  maxHeight := [0x10, 0x27]
  tokenRef := List.replicate 36 0xAA
  contractRef := List.replicate 36 0xBB
  height := scriptNum st.height

/-- The stack the contract really pushes holds the mint state. -/
theorem items_hold {st : MintState} (requireMinimal : Bool) (hst : st.Valid) :
    st.items.Hold requireMinimal st := by
  have hmax : maxSha256dTarget = 2 ^ 63 - 1 := rfl
  have htarget := hst.target
  have htimes := hst.times
  have htargetTime := hst.targetTime
  refine ⟨readNum_scriptNum _ ?_, readNum_scriptNum _ ?_,
    readNum_scriptNum _ ?_, rfl⟩
  · constructor <;> omega
  · constructor <;> omega
  · constructor <;> omega

/-- Two epochs of 2016 mints into a contract. -/
def sampleMint : MintState where
  target := 2 ^ 40
  lastTime := 1700000000
  currentTime := 1700000090
  targetTime := 60
  height := 4032

/-- The sample mint state is a state of the chain. -/
theorem sampleMint_valid : sampleMint.Valid := ⟨by decide, by decide, by decide⟩

/-- An epoch length the deploy checks let through and no script number can hold:
the contract can never be minted. -/
theorem daa_epoch_unreadable :
    (Daa.epoch (2 ^ 63) 2).Deployable ∧ sampleMint.Valid ∧
    sampleMint.items.Hold true sampleMint ∧
      ¬ Simulates true (.epoch (2 ^ 63) 2) sampleMint sampleMint.items [] := by
  have hhold := items_hold true sampleMint_valid
  refine ⟨by decide, sampleMint_valid, hhold, ?_⟩
  intro h
  have hfits : NumRange sampleMint.height ∧ (2 : Int) ^ 63 < 2 ^ 63 :=
    fits_of_simulates (by decide) hhold h
  exact absurd hfits.2 (by decide)

/-- The statement at an epoch rule. -/
theorem daa_simulates_iff_epoch :
    (Daa.epoch 2016 2).Deployable ∧ sampleMint.Valid ∧
    sampleMint.items.Hold true sampleMint ∧
      Simulates true (.epoch 2016 2) sampleMint sampleMint.items [] := by
  have hhold := items_hold true sampleMint_valid
  refine ⟨by decide, sampleMint_valid, hhold, ?_⟩
  refine (daa_simulates_iff true (.epoch 2016 2) sampleMint sampleMint.items
    [] (by decide)
    sampleMint_valid hhold).mpr ?_
  exact ⟨by decide, by decide⟩

end Pyrxd.Glyph
