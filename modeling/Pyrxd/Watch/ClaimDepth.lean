import Pyrxd.Gravity.CoordinatorSafety
import Pyrxd.Watch.DecideSafety

/-!
# How deep is final

Three places turn `policy.btc_claim_reorg_depth` into a number of blocks. The
coordinator and the watchtower floor it (`normalize_to`) to decide when the
maker's BTC claim is FINAL; the gate rounds it up (`_reserve_to_blocks`) to
reserve for it, and refuses to assess a verdict whose depth is not its own. For
a depth in blocks the three are one number, and for one in seconds just if the
quotient the gate rounds up is a whole number already: the seconds are whole
block intervals, or so little more that the double nearest to the quotient is
whole. `depthsAgree_iff` says these are the only policies.
-/

namespace Pyrxd.Watch

open Pyrxd.Btc Pyrxd.Gravity Pyrxd.Lib

/-- The depth the gate reserves for. -/
def reservedDepth (policy : MarginPolicy) : Int :=
  reserveToBlocks policy.btcClaimReorgDepth policy.blockIntervalS

/-- The three depths are one, and what follows for a claim. -/
structure DepthsAgree (policy : MarginPolicy) : Prop where
  coordinator : ∃ d, requiredBtcDepth policy = .ok d ∧
    (d.value : Int) = reservedDepth policy
  tower : ∃ d, requiredBtcDepthBlocks policy = .ok d ∧
    (d : Int) = reservedDepth policy
  /-- Over any sequence of steps, the gated claim of a BTC swap is fired only
  after the leg reported the reserved depth. -/
  fired : ∀ c env calls r d, c.policy = policy → d ∈ runCalls c env calls r [] →
    ∀ pre s r' p a post, d.run.trace =
      pre ++ .call s (.claimAsset r' p) a :: post →
      s.state = .secretRevealed → s.terms.counterChain = .btc →
      ∃ s' tx n, .call s' (.confirmationsOfClaim tx) (.ok (.int n)) ∈ pre ∧
        reservedDepth policy ≤ n
  /-- A BTC swap is paged as claimable only at the reserved depth. -/
  paged : ∀ record obs n d, record.terms.counterChain = .btc →
    decide record obs policy n = .ok d →
    d.intent = .pageClaim → ∃ m : Nat, obs.btcClaimConfirmations = some m ∧
      reservedDepth policy ≤ m
  /-- The gate never turns a verdict of the coordinator's away over its
  depth. -/
  coordinatorAssessed : ∀ confs v now lock tRxd val d r,
    btcClaimVerdict policy confs = .ok v →
    assessClaimFinality v now lock tRxd policy val ≠
      .error (.validation (depthMismatch d r))
  /-- Nor one of the watchtower's. -/
  towerAssessed : ∀ obs v now lock tRxd val d r, btcVerdict obs policy =
    some (.ok v) →
    assessClaimFinality v now lock tRxd policy val ≠
      .error (.validation (depthMismatch d r))

/-- A depth in blocks, or in seconds that are whole block intervals, up to half
the distance between doubles there. -/
def WholeDepth (policy : MarginPolicy) : Prop :=
  policy.btcClaimReorgDepth.unit = .blocks ∨
    ∃ k : Nat, 1 ≤ k ∧
      k * policy.blockIntervalS ≤ policy.btcClaimReorgDepth.value ∧
      policy.btcClaimReorgDepth.value ≤
        (k + halfAbove k) * policy.blockIntervalS

/-! ## Floor against ceiling -/

section Rounding

variable {policy : MarginPolicy}

/-- Seconds fit a double as they are. -/
theorem quotDouble_value (t : Timelock) (i : ℚ) :
    quotDouble t.value i = toDouble (t.value / i) := by
  have hfits := t.fits
  have hvalue : t.value < 2 ^ 53 := by
    cases hu : t.unit with
    | blocks =>
      rw [hu] at hfits
      exact lt_of_le_of_lt hfits (by decide)
    | seconds =>
      rw [hu] at hfits
      simp only [bip68Units, secondsGranularity, sequenceLocktimeMask] at hfits
      omega
  have hint : toDouble ((t.value : ℤ) : ℚ) = t.value := by
    rw [toDouble_intCast (by rw [abs_of_nonneg (by omega)]; omega)]
    norm_cast
  rw [quotDouble, hint]

/-- Rounding the double up gives the floor of the exact quotient just if the
double is whole. -/
theorem ceil_toDouble_iff {x : ℚ} {k : ℕ} (h1 : 1 ≤ k) (hk : k < 2 ^ 52)
    (hx : (k : ℚ) ≤ x) :
    (k : ℤ) = ⌈toDouble x⌉ ↔ x ≤ (k : ℚ) + halfAbove k := by
  rw [← toDouble_le_natCast_iff h1 hk hx]
  have hle : (k : ℚ) ≤ toDouble x :=
    (le_toDouble_natCast_iff h1 hk.le).mpr (by
      have : 0 < halfBelow k := zpow_pos (by norm_num) _
      linarith)
  constructor
  · intro h
    exact_mod_cast Int.ceil_le.mp h.ge
  · intro h
    have heq : toDouble x = (k : ℤ) := by exact_mod_cast le_antisymm h hle
    rw [heq, Int.ceil_intCast]

/-- The floored depth is the reserved one exactly for whole depths. -/
theorem requiredBtcDepth_reserved_iff {d : Timelock}
    (hd : requiredBtcDepth policy = .ok d) :
    (d.value : Int) = reservedDepth policy ↔ WholeDepth policy := by
  obtain ⟨hi, hunit, hval⟩ := Timelock.normalizeTo_blocks_value hd
  have hfits := d.fits
  rw [hunit] at hfits
  have htwo : 2 ≤ d.value := by
    obtain ⟨d', hd', h2⟩ := policy.sound.reorgDepth
    rw [requiredBtcDepth, hd', Except.ok.injEq] at hd
    rwa [← hd]
  unfold reservedDepth reserveToBlocks WholeDepth
  cases hu : policy.btcClaimReorgDepth.unit with
  | blocks => simp [hval, hu]
  | seconds =>
    have hfloor : (d.value : ℤ) =
        ⌊(policy.btcClaimReorgDepth.value : ℚ) / policy.blockIntervalS⌋ := by
      simpa only [hu] using hval
    have hlow := Int.floor_le ((policy.btcClaimReorgDepth.value : ℚ) /
      policy.blockIntervalS)
    rw [← hfloor, Int.cast_natCast] at hlow
    have hk : d.value < 2 ^ 52 := lt_of_le_of_lt hfits (by decide)
    simp only [reduceCtorEq, false_or, quotDouble_value]
    rw [ceil_toDouble_iff (by omega) hk hlow, div_le_iff₀ hi]
    constructor
    · intro h
      exact ⟨d.value, by omega, (le_div_iff₀ hi).mp hlow, h⟩
    · rintro ⟨k, h1, hkl, hku⟩
      -- the number of whole intervals is the floor, as half a spacing is less
      -- than one
      have hkd : k = d.value := by
        have h := (le_div_iff₀ hi).mpr hkl
        have hlt : (k : ℤ) ≤ d.value := by
          rw [hfloor]
          exact Int.le_floor.mpr (by exact_mod_cast h)
        have hk52 : k < 2 ^ 52 := by omega
        have hhalf : halfAbove k < 1 := by
          have := half_lt
            (by have := (log_above h1 hk52).1; omega : (Nat.log 2 k : ℤ) ≤ 51)
          rw [halfAbove]
          linarith
        have hup := (div_le_iff₀ hi).mpr hku
        have hcast : (d.value : ℚ) < k + 1 := by linarith
        have hlt' : d.value < k + 1 := by exact_mod_cast hcast
        omega
      rw [← hkd]
      exact hku

/-- The policy always names a depth. -/
theorem requiredBtcDepth_ok (policy : MarginPolicy) :
    ∃ d, requiredBtcDepth policy = .ok d := by
  obtain ⟨d, hd, -⟩ := policy.sound.reorgDepth
  exact ⟨d, hd⟩

/-- The watchtower floors the same way. -/
theorem requiredBtcDepthBlocks_of {d : Timelock}
    (hd : requiredBtcDepth policy = .ok d) :
    requiredBtcDepthBlocks policy = .ok d.value := by
  unfold requiredBtcDepth at hd
  rw [requiredBtcDepthBlocks, hd]
  rfl

end Rounding

/-! ## What follows from agreement -/

section Agreement

variable {policy : MarginPolicy} {d : Timelock} {v : CounterClaimFinality}

/-- A verdict at depth `d` is final only at `d` confirmations. -/
theorem btcClaimVerdict_depth {confs : PyObj}
    (hd : requiredBtcDepth policy = .ok d)
    (hv : btcClaimVerdict policy confs = .ok v) :
    ∃ n, confs = .int n ∧
    CounterClaimFinality.fromBtcDepth n d.value = .ok v := by
  unfold btcClaimVerdict at hv
  rw [hd, ok_bind] at hv
  cases confs with
  | int n => exact ⟨n, rfl, hv⟩
  | _ => cases hv

/-- A verdict was taken at that depth. -/
theorem btcVerdict_depth {obs : Observations}
    (hd : requiredBtcDepth policy = .ok d)
    (hv : btcVerdict obs policy = some (.ok v)) :
    ∃ n : Nat, obs.btcClaimConfirmations = some n ∧
      CounterClaimFinality.fromBtcDepth n d.value = .ok v := by
  simp only [btcVerdict, Option.map_eq_some_iff, requiredBtcDepthBlocks_of hd,
    ok_bind] at hv
  exact hv

/-- The first character tells the gate's texts apart. -/
def firstChar (text : String) : Option Char := text.toList.head?

/-- A text keeps its first character when more follows. -/
theorem firstChar_append {s t : String} {c : Char} (h : firstChar s = some c) :
    firstChar (s ++ t) = some c := by
  unfold firstChar at h ⊢
  rw [String.toList_append, List.head?_append, h]
  rfl

/-- How the mismatch report starts. -/
theorem firstChar_depthMismatch (d : Nat) (r : Int) :
    firstChar (depthMismatch d r) = some 'f' := by
  unfold depthMismatch
  exact firstChar_append
    (firstChar_append (firstChar_append (firstChar_append rfl)))

/-- A text that starts otherwise is not the one about the depth. -/
theorem ne_depthMismatch {s : String} {c : Char} (hs : firstChar s = some c)
    (hc : c ≠ 'f')
    (d : Nat) (r : Int) : PyErr.validation (depthMismatch d r) ≠
      .validation s := by
  intro h
  injection h with h
  have hf := firstChar_depthMismatch d r
  rw [h, hs] at hf
  exact hc (Option.some.inj hf)

/-- Making a lock fails in other words. -/
theorem new_ne_mismatch (value : Int) (unit : TimeUnit) (d : Nat) (r : Int) :
    Timelock.new value unit ≠ .error (.validation (depthMismatch d r)) := by
  intro h
  unfold Timelock.new invalid at h
  split at h
  · injection h with h
    exact ne_depthMismatch (c := 'T') rfl (by decide) d r h.symm
  · split at h
    · cases h
    · cases unit with
      | blocks =>
        injection h with h
        exact ne_depthMismatch (c := 'T') rfl (by decide) d r h.symm
      | seconds =>
        injection h with h
        exact ne_depthMismatch (c := 'T') rfl (by decide) d r h.symm

/-- And so does converting one. -/
theorem normalizeTo_ne_mismatch (t : Timelock) (unit : TimeUnit) (i : ℚ)
    (d : Nat) (r : Int) :
    t.normalizeTo unit i ≠ .error (.validation (depthMismatch d r)) := by
  intro h
  unfold Timelock.normalizeTo invalid at h
  split at h
  · injection h with h
    exact ne_depthMismatch (c := 'b') rfl (by decide) d r h.symm
  · split at h
    · cases h
    · cases hu : t.unit with
      | blocks =>
        simp only [hu] at h
        exact new_ne_mismatch _ _ d r h
      | seconds =>
        simp only [hu] at h
        exact new_ne_mismatch _ _ d r h

/-- The gate objects to a verdict's depth only if it is not the reserved one. -/
theorem assessClaimFinality_mismatch {now lock r : Int} {tRxd : Timelock}
    {val : Option Int}
    {n : Nat} (h : assessClaimFinality v now lock tRxd policy val =
      .error (.validation (depthMismatch n r))) :
    ∃ m, v.requiredDepth = some m ∧ (m : Int) ≠ reservedDepth policy := by
  unfold assessClaimFinality at h
  simp only [bind_error, refuseIf_error, refuseIf_ok] at h
  rcases h with ⟨-, h⟩ | ⟨-, -, ⟨-, h⟩ | ⟨-, -, ⟨-, h⟩ | ⟨-, -, h | ⟨t, -, h⟩⟩⟩⟩
  · exact absurd h (ne_depthMismatch (c := 'n') rfl (by decide) n r)
  · exact absurd h (ne_depthMismatch (c := 'a') rfl (by decide) n r)
  · refine absurd h (ne_depthMismatch (c := 'n') ?_ (by decide) n r)
    exact firstChar_append
      (firstChar_append (firstChar_append (firstChar_append rfl)))
  · exact absurd h (normalizeTo_ne_mismatch _ _ _ n r)
  · split at h
    · cases h
    · cases hs : v.state with
      | counterChainNotFinalizing => simp [hs] at h
      | final => simp [hs] at h
      | notYetFinalLive =>
        -- the one branch that looks at the verdict's depth
        simp only [hs, bind_error, pure_eq_ok, reduceCtorEq, and_false,
          exists_false, or_false] at h
        unfold counterReserveRxd at h
        cases hm : v.requiredDepth with
        | some m =>
          simp only [hm, bind_error, refuseIf_error, pure_eq_ok,
            reduceCtorEq, and_false,
            exists_false, or_false] at h
          exact ⟨m, rfl, h.1⟩
        | none =>
          cases hw : policy.ethFinalizationWindowS with
          | none =>
            simp only [hm, hw, invalid, Except.error.injEq] at h
            exact absurd h.symm (ne_depthMismatch (firstChar_append rfl)
              (by decide : 'a' ≠ 'f') n r)
          | some w => simp [hm, hw] at h

/-- A verdict at the reserved depth is not turned away over it. -/
theorem assessClaimFinality_ne_mismatch {now lock n r : Int} {m : Nat}
    {tRxd : Timelock}
    {val : Option Int} (hagree : (d.value : Int) = reservedDepth policy)
    (hv : CounterClaimFinality.fromBtcDepth n d.value = .ok v) :
    assessClaimFinality v now lock tRxd policy val ≠ .error
      (.validation (depthMismatch m r)) := by
  intro h
  obtain ⟨m', hm, hne⟩ := assessClaimFinality_mismatch h
  obtain ⟨-, -, rfl⟩ := CounterClaimFinality.fromBtcDepth_ok.mp hv
  simp only [Option.some.injEq] at hm
  subst hm
  exact hne (by rw [Int.toNat_natCast]; exact hagree)

/-- SAFE on such a verdict means the depth was reached. -/
theorem depth_of_safe {now lock n : Int} {tRxd : Timelock} {val : Option Int}
    (hv : CounterClaimFinality.fromBtcDepth n d.value = .ok v)
    (hu : tRxd.unit = .blocks)
    (hsafe : assessClaimFinality v now lock tRxd policy val = .ok .safe) :
    (d.value : Int) ≤ n := by
  obtain ⟨-, -, rfl⟩ := CounterClaimFinality.fromBtcDepth_ok.mp hv
  have hfinal := ((assessClaimFinality_safe_iff hu).mp hsafe).2.2.1
  by_contra hlt
  rw [show (if n ≥ (d.value : Int) then CounterClaimState.final
    else .notYetFinalLive) =
    .notYetFinalLive from if_neg hlt] at hfinal
  cases hfinal

end Agreement

/-- **When the depths agree.** Exactly for a depth tagged in blocks, or one of
whole block intervals up to what the division rounds away. -/
theorem depthsAgree_iff (policy : MarginPolicy) : DepthsAgree policy ↔
    WholeDepth policy := by
  obtain ⟨d, hd⟩ := requiredBtcDepth_ok policy
  constructor
  · intro h
    obtain ⟨d', hd', hagree⟩ := h.coordinator
    exact (requiredBtcDepth_reserved_iff hd').mp hagree
  · intro hwhole
    have hagree := (requiredBtcDepth_reserved_iff hd).mpr hwhole
    refine ⟨⟨d, hd, hagree⟩, ⟨d.value, requiredBtcDepthBlocks_of hd, hagree⟩,
      ?_, ?_, ?_, ?_⟩
    · rintro c env calls r done rfl hdone pre s r' p a post htrace hstate hbtc
      obtain ⟨-, -, -, hgate⟩ :=
        (runCalls_safe hdone).claimAsset pre s r' p a post htrace
      -- the run lemma hands over the SAFE verdict of the same call; its depth
      -- is the floored one
      rcases hgate with hvul | ⟨-, tx, now, lock, v, -, hread, hsafe⟩
      · rw [hstate] at hvul
        cases hvul
      · rw [hbtc] at hread
        obtain ⟨s', answer, hmem, hv⟩ := hread
        obtain ⟨n, rfl, hdepth⟩ := btcClaimVerdict_depth hd hv
        refine ⟨s', tx, n, hmem, ?_⟩
        rw [← hagree]
        exact depth_of_safe hdepth s.terms.sound.tRxd hsafe
    · intro record obs n dec hbtc hdec hpage
      rw [DecisionFields.intent_of_shape (shape_of_decide hdec).2,
        decideShape_pageClaim_iff] at hpage
      obtain ⟨-, -, v, lock, hv, -, hsafe⟩ := hpage
      simp only [counterVerdict, hbtc] at hv
      obtain ⟨m, hm, hv⟩ := btcVerdict_depth hd hv
      refine ⟨m, hm, ?_⟩
      rw [← hagree]
      exact depth_of_safe hv record.terms.sound.tRxd hsafe
    · intro confs v now lock tRxd val m r hv
      obtain ⟨n, -, hdepth⟩ := btcClaimVerdict_depth hd hv
      exact assessClaimFinality_ne_mismatch hagree hdepth
    · intro obs v now lock tRxd val m r hv
      obtain ⟨n, -, hdepth⟩ := btcVerdict_depth hd hv
      exact assessClaimFinality_ne_mismatch hagree hdepth

/-- At 500.2 seconds a block, 5002 seconds are ten blocks and a little more. -/
def roundedDepthPolicy : MarginPolicy :=
  { samplePolicy with
    btcClaimReorgDepth := ⟨5002, .seconds, by decide⟩,
      blockIntervalS := toDouble (5002 / 10),
    valid := by decide +kernel }

example : requiredBtcDepthBlocks roundedDepthPolicy = .ok 10 ∧
    reservedDepth roundedDepthPolicy = 10 ∧
    ⌈5002 / roundedDepthPolicy.blockIntervalS⌉ = 11 := by decide +kernel

/-- A measured policy whose reorg depth is 1500 seconds at 600 seconds a
block. -/
def secondsDepthPolicy : MarginPolicy :=
  { samplePolicy with
    btcClaimReorgDepth := ⟨1500, .seconds, by decide⟩, valid := by decide +kernel }

/-- There both builders call two confirmations final while the gate reserves for
three: at two the claim goes out, at one the gate refuses to assess. -/
theorem depths_disagree_seconds :
    requiredBtcDepthBlocks secondsDepthPolicy = .ok 2 ∧
    reservedDepth secondsDepthPolicy = 3 ∧
    (btcClaimVerdict secondsDepthPolicy (.int 2) >>= fun v =>
      assessClaimFinality v 101 100 sampleBtcTerms.tRxd secondsDepthPolicy) = .ok .safe ∧
    (btcClaimVerdict secondsDepthPolicy (.int 1)).isOk = true ∧
    (btcClaimVerdict secondsDepthPolicy (.int 1) >>= fun v =>
      assessClaimFinality v 101 100 sampleBtcTerms.tRxd secondsDepthPolicy).isOk = false := by
  refine ⟨by decide +kernel, by decide +kernel, by decide +kernel, by decide +kernel,
    by decide +kernel⟩

end Pyrxd.Watch
