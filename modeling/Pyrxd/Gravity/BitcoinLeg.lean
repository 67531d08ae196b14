import Pyrxd.Btc.HtlcSpend
import Pyrxd.Btc.Payment
import Pyrxd.Gravity.Steps

/-!
# The Bitcoin leg

`BitcoinTaprootLeg.fund` of `btc_wallet/htlc_leg.py` and what it reads: build
the payment to the HTLC address, broadcast it, and read the amount back from the
chain, by default only once it is confirmed. `Wired` says that a coordinator's
environment answers `fund` with this leg.
-/

namespace Pyrxd.Gravity

open Pyrxd.Lib Pyrxd.Lib.Prog Pyrxd.Btc Pyrxd.Spv

/-- `InsufficientConfirmationsError`, which the polling loop tells from the
others. -/
inductive BtcLegErr where
  | insufficient (have_ required : Int)
  | raised (e : PyErr)

/-- The exception as the coordinator sees it. -/
def BtcLegErr.toPyErr : BtcLegErr → PyErr
  | .insufficient n required =>
    .other ("tx has " ++ toString n ++ " confirmations, required " ++
      toString required)
  | .raised e => e

/-- What `fund` asks of the broadcaster, the funding reader and the clock. -/
inductive BtcOp where
  | broadcast (rawTx : Bytes)
  | readOutputAmountSats (txid : String) (vout minConfirmations : Int)
  /-- `time.monotonic() >= deadline`. -/
  | pastDeadline
  | sleep (seconds : ℚ)

abbrev BtcMethod := Prog BtcOp PyObj Unit BtcLegErr

abbrev BtcEnv := List (Event BtcOp PyObj Unit BtcLegErr) → BtcOp →
  Except BtcLegErr PyObj

/-- A check or a computation of the leg's own. -/
def BtcMethod.lift {α : Type} (x : Except PyErr α) : BtcMethod α :=
  Prog.lift (x.mapError .raised)

/-- `raise NetworkError(msg)`. -/
def BtcMethod.network {α : Type} (msg : String) : BtcMethod α :=
  .raise (.raised (.other msg))

/-- What `fund` reads of the leg. -/
structure BitcoinTaprootLeg where
  ec : Coincurve
  sign : Bytes → Bytes → Except PyErr Bytes
  network : String
  takerKeypair : BtcKeypair
  fundingUtxo : BtcUtxo
  feeSats : Int
  minConfirmations : Int
  fundingInputType : InputType
  fundConfirmPollS : ℚ

namespace BitcoinTaprootLeg

variable (leg : BitcoinTaprootLeg)

/-- `_htlc`. -/
def htlc (terms : NegotiatedTerms) : Except PyErr BtcHtlc :=
  buildHtlc leg.ec terms.hashlock terms.btcClaimPubkeyXonly
    terms.btcRefundPubkeyXonly terms.tBtc numsInternalKeyXonly leg.network

/-- `output_key`. -/
def outputKey (h : BtcHtlc) : Except PyErr Bytes := do
  let root ← h.scriptTree.merkleRoot
  taprootOutputKey leg.ec h.internalKey root

/-- The polling loop of `_read_funded_amount_sats`; the process is stopped after
`patience` more rounds. -/
def pollFundedAmountSats (txid : String) (vout : Int) : Nat → BtcMethod PyObj
  | 0 => .raise (.raised (.base "stopped"))
  | patience + 1 =>
    (invoke (.readOutputAmountSats txid vout leg.minConfirmations)).tryCatch
        fun e =>
      match e with
      | .insufficient n required => do
        let past ← invoke .pastDeadline
        if past.truthy then .raise (.insufficient n required)
        else
          let _ ← invoke (.sleep leg.fundConfirmPollS)
          pollFundedAmountSats txid vout patience
      | e => .raise e

/-- `_read_funded_amount_sats`. -/
def readFundedAmountSats (patience : Nat) (txid : String) (vout : Int) :
    BtcMethod PyObj :=
  if leg.fundConfirmPollS ≤
    0 then invoke (.readOutputAmountSats txid vout leg.minConfirmations)
  else leg.pollFundedAmountSats txid vout patience

/-- The amount that was read, unless it is not a positive int. -/
def fundedAmount : PyObj → BtcMethod Int
  | .int n =>
    if n ≤ 0 then BtcMethod.network
      "funding reader returned a non-positive on-chain amount; fail-closed"
    else pure n
  | _ =>
    BtcMethod.network "funding reader returned a non-positive on-chain amount; fail-closed"

/-- `fund`. -/
def fund (patience : Nat) (terms : NegotiatedTerms) :
    BtcMethod BtcHtlcLocator := do
  let htlc ← BtcMethod.lift (leg.htlc terms)
  let toHash ← BtcMethod.lift (leg.outputKey htlc)
  let payment ← BtcMethod.lift
    (buildPaymentTx leg.sign leg.takerKeypair leg.fundingUtxo toHash .p2tr
    terms.btcSats leg.feeSats leg.fundingInputType)
  let raw ← BtcMethod.lift (unhex payment.txHex)
  let broadcastTxid ← invoke (.broadcast raw)
  if broadcastTxid.ne (.str payment.txid) then
    BtcMethod.network ("broadcast txid " ++ broadcastTxid.text ++
      " != built funding txid " ++ payment.txid ++
      "; refusing to proceed")
  else
    let outpoint ← BtcMethod.lift (BtcOutpoint.new ⟨payment.txid, 0⟩)
    let onChain ← leg.readFundedAmountSats patience payment.txid 0
    let amount ← fundedAmount onChain
    BtcMethod.lift (htlc.withFunding outpoint amount)

/-- `l` is a funding of the HTLC that `terms` derive. -/
def IsHtlcOf (terms : NegotiatedTerms) (l : Locator) : Prop :=
  ∃ htlc outpoint amount locator, leg.htlc terms = .ok htlc ∧
    htlc.withFunding outpoint amount = .ok locator ∧
    l = .btc locator

/-- The answer that the coordinator gets. -/
def answer (r : Except BtcLegErr BtcHtlcLocator) : Except PyErr PyObj :=
  match r with
  | .ok l => .ok (.locator (.btc l))
  | .error e => .error e.toPyErr

/-- The run of `fund` against a chain. -/
def fundRun (patience : Nat) (chain : BtcEnv) (terms : NegotiatedTerms) :
    Run BtcOp PyObj Unit BtcLegErr BtcHtlcLocator :=
  (leg.fund patience terms).run chain () []

/-- A coordinator's environment whose counter leg is this one: what its chain
answers, and how long its process polls, depends on all that happened before. -/
structure Wired (env : Env) where
  chain : List StepEvent → BtcEnv
  patience : List StepEvent → Nat
  fund : ∀ history terms, env history (.fund terms) =
    answer (leg.fundRun (patience history) (chain history) terms).result

/-- The network accepted the funding transaction. -/
def Broadcast (patience : Nat) (chain : BtcEnv)
    (terms : NegotiatedTerms) : Prop :=
  ∃ raw txid, .call () (.broadcast raw) (.ok txid) ∈
    (leg.fundRun patience chain terms).trace

variable {leg} {terms terms' : NegotiatedTerms}

/-- What `fund` hands over is a funding of the HTLC of its terms. -/
theorem fund_ok {patience : Nat} {chain : BtcEnv} {l : BtcHtlcLocator}
    (h : (leg.fundRun patience chain terms).result = .ok l) :
    leg.IsHtlcOf terms (.btc l) := by
  have hmeets : Meets (fun _ _ => True) (fun r _ _ => ∀ l, r = .ok l →
      leg.IsHtlcOf terms (.btc l))
      (leg.fund patience terms) () [] := by
    unfold fund BtcMethod.lift
    refine meets_lift_bind (fun htlc hhtlc => ?_) fun e l h => by cases h
    refine meets_lift_bind (fun toHash _ => ?_) fun e l h => by cases h
    refine meets_lift_bind (fun payment _ => ?_) fun e l h => by cases h
    refine meets_lift_bind (fun raw _ => ?_) fun e l h => by cases h
    refine meets_invoke_bind (fun _ => trivial) (fun txid => ?_)
      fun e t' l h => by cases h
    rw [meets_ite]
    refine ⟨fun _ l h => (by cases h), fun _ => ?_⟩
    refine meets_lift_bind (fun outpoint _ => ?_) fun e l h => by cases h
    rw [meets_bind]
    refine meets_of_forall (fun _ _ => trivial) (fun r s t => ?_) _
    cases r with
    | error e => exact fun l h => by cases h
    | ok onChain =>
      dsimp only
      rw [meets_bind]
      refine meets_of_forall (fun _ _ => trivial) (fun r s t => ?_) _
      cases r with
      | error e => exact fun l h => by cases h
      | ok amount =>
        dsimp only
        rw [meets_lift]
        intro l hl
        cases hfunded : htlc.withFunding outpoint amount with
        | error e =>
          rw [hfunded] at hl
          cases hl
        | ok l' =>
          rw [hfunded] at hl
          cases hl
          cases hterms : leg.htlc terms with
          | error e =>
            rw [hterms] at hhtlc
            cases hhtlc
          | ok htlc' =>
            rw [hterms] at hhtlc
            cases hhtlc
            exact ⟨htlc, outpoint, amount, _, hterms, hfunded, rfl⟩
  exact (run_meets chain (leg.fund patience terms) () []
    (obeys_nil _) hmeets).2 l h

/-- The claim leaf shows its hashlock. -/
theorem claimLeafScript_hashlock {h h' pk pk' script : Bytes}
    (hs : claimLeafScript h pk = .ok script)
    (hs' : claimLeafScript h' pk' = .ok script) : h = h' := by
  have hshape : ∀ {h pk : Bytes}, claimLeafScript h pk = .ok script →
      h.length = 32 ∧ ∃ tail, script = [0x82, 0x01, 0x20, 0x88, 0xA8, 0x20] ++
        (h ++ tail) := by
    intro h pk hs
    obtain ⟨_, hlen, hs⟩ := bind_ok.mp hs
    obtain ⟨_, -, hs⟩ := bind_ok.mp hs
    obtain ⟨size, hsize, hs⟩ := bind_ok.mp hs
    obtain ⟨push, hpush, hs⟩ := bind_ok.mp hs
    obtain ⟨key, -, hs⟩ := bind_ok.mp hs
    have hlen := asBytes_ok.mp hlen
    have hsize : [0x01, 0x20] = size := Except.ok.inj hsize
    rw [pushData, hlen] at hpush
    have hpush : 0x20 :: h = push := Except.ok.inj hpush
    cases hs
    refine ⟨hlen, [0x88] ++ key ++ [0xAC], ?_⟩
    rw [← hsize, ← hpush]
    simp only [List.append_assoc, List.cons_append, List.nil_append]
  obtain ⟨hlen, tail, rfl⟩ := hshape hs
  obtain ⟨hlen', tail', heq⟩ := hshape hs'
  have hrest := List.append_cancel_left heq
  exact (List.append_inj hrest (hlen.trans hlen'.symm)).1

/-- Fundings of HTLCs under different hashlocks differ. -/
theorem IsHtlcOf.hashlock {l : Locator} (h : leg.IsHtlcOf terms l)
    (h' : leg.IsHtlcOf terms' l) :
    terms.hashlock = terms'.hashlock := by
  obtain ⟨htlc, outpoint, amount, locator, hbuilt, hfunded, rfl⟩ := h
  obtain ⟨htlc', outpoint', amount', locator', hbuilt', hfunded', hl⟩ := h'
  cases hl
  obtain ⟨_, _, _, hclaim⟩ := buildHtlc_ok hbuilt
  obtain ⟨_, _, _, hclaim'⟩ := buildHtlc_ok hbuilt'
  have htree : htlc.scriptTree = htlc'.scriptTree := by
    have h1 :=
      congrArg BtcHtlcLocatorFields.scriptTree (withFunding_ok hfunded).1
    have h2 :=
      congrArg BtcHtlcLocatorFields.scriptTree (withFunding_ok hfunded').1
    exact h1.symm.trans h2
  have hscript := hclaim.claimScript
  rw [htree] at hscript
  exact claimLeafScript_hashlock hscript hclaim'.claimScript

end BitcoinTaprootLeg

end Pyrxd.Gravity
