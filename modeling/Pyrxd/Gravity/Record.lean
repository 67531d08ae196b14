import Pyrxd.Btc.Locator
import Pyrxd.Eth.Locator
import Pyrxd.Gravity.SwapState
import Pyrxd.Gravity.Terms

/-!
# The durable swap record

`SwapRecord` of `gravity/swap_state.py`: the state, the terms, and the on-chain
handles as they land. A record that exists has a locator of its own counter
chain (or none) and a covenant script that is hex (or none); every `with_*` copy
re-runs those checks.

Two wire forms: a BTC locator (or none) is written bare under `btc_locator`
(v1), an ETH one chain-tagged under `counterchain_locator` with a
`schema_version` (v2). The decoder dispatches on the key alone.

Main result: `SwapRecord.fromDict_toDict_iff` — exactly which records can be
reloaded unchanged.
-/

namespace Pyrxd.Gravity

open Pyrxd.Lib Pyrxd.Btc Pyrxd.Eth

/-- `BtcHtlcLocator | EthHtlcLocator`. -/
inductive Locator where
  | btc (l : BtcHtlcLocator)
  | eth (l : EthHtlcLocator)
deriving DecidableEq

/-- The chain a locator lives on. -/
def Locator.chain : Locator → CounterChain
  | .btc _ => .btc
  | .eth _ => .eth

structure RecordFields where
  state : SwapState
  terms : NegotiatedTerms
  counterchainLocator : Option Locator := none
  radiantCovenantOutpoint : Option String := none
  radiantCovenantSpkHex : Option String := none
deriving DecidableEq

namespace RecordFields

/-- The locator chain must match the negotiated counter chain. -/
def checkLocator (f : RecordFields) : Except PyErr Unit :=
  match f.counterchainLocator with
  | none => .ok ()
  | some (.btc _) =>
    refuseIf (f.terms.counterChain ≠
      .btc) "a BtcHtlcLocator requires counter_chain == 'btc'"
  | some (.eth _) =>
    refuseIf (f.terms.counterChain ≠
      .eth) "an EthHtlcLocator requires counter_chain == 'eth'"

def checkSpkHex (f : RecordFields) : Except PyErr Unit :=
  match f.radiantCovenantSpkHex with
  | none => .ok ()
  | some h => refuseIf (fromHex h = none) "radiant_covenant_spk_hex must be hex"

/-- `SwapRecord.__post_init__`. -/
def postInit (f : RecordFields) : Except PyErr Unit := do
  f.checkLocator
  f.checkSpkHex

/-- A locator must be of the terms' chain. -/
theorem checkLocator_ok {f : RecordFields} {u : Unit} :
    f.checkLocator = .ok u ↔ ∀ l, f.counterchainLocator = some l →
    l.chain = f.terms.counterChain := by
  unfold checkLocator
  cases h : f.counterchainLocator with
  | none => simp
  | some l =>
    cases l <;> simp only [refuseIf_ok, Locator.chain, ne_eq, not_not,
      Option.some.injEq,
      forall_eq'] <;> exact eq_comm

/-- A covenant script must be hex. -/
theorem checkSpkHex_ok {f : RecordFields} {u : Unit} :
    f.checkSpkHex = .ok u ↔ ∀ h, f.radiantCovenantSpkHex = some h →
    fromHex h ≠ none := by
  unfold checkSpkHex
  cases f.radiantCovenantSpkHex <;> simp [refuseIf_ok]

/-- What a record is checked for. -/
theorem postInit_ok {f : RecordFields} {u : Unit} :
    f.postInit = .ok u ↔
      (∀ l, f.counterchainLocator = some l → l.chain = f.terms.counterChain) ∧
      (∀ h, f.radiantCovenantSpkHex = some h → fromHex h ≠ none) := by
  simp only [postInit, bind_ok, checkLocator_ok, checkSpkHex_ok, exists_const]

end RecordFields

/-- A record that `__post_init__` has accepted. -/
structure SwapRecord extends RecordFields where
  valid : toRecordFields.postInit = .ok ()
deriving DecidableEq

namespace SwapRecord

/-- `SwapRecord(...)`. -/
def new (f : RecordFields) : Except PyErr SwapRecord := do
  let h ← postInitOk RecordFields.postInit f
  return ⟨f, h.down⟩

/-- A constructed record has the given fields. -/
theorem new_ok {f : RecordFields} {r : SwapRecord} : new f = .ok r ↔
    r.toRecordFields = f := by
  constructor
  · intro h
    obtain ⟨p, -, hr⟩ := bind_ok.mp h
    injection hr with hr
    rw [← hr]
  · rintro rfl
    simp [new, postInitOk_of r.valid]

theorem locator_chain (r : SwapRecord) {l : Locator}
    (h : r.counterchainLocator = some l) :
    l.chain = r.terms.counterChain :=
  (RecordFields.postInit_ok.mp r.valid).1 l h

/-- The BTC-only alias of the locator. -/
def btcLocator (r : SwapRecord) : Option BtcHtlcLocator :=
  match r.counterchainLocator with
  | some (.btc l) => some l
  | _ => none

/-- A copy in `state`; `__post_init__` does not read the state, so the copy is
always accepted. -/
def withState (r : SwapRecord) (state : SwapState) : SwapRecord :=
  ⟨{ r.toRecordFields with state }, r.valid⟩

/-- Attach the counter-leg locator. -/
def withCounterLock (r : SwapRecord) (locator : Option Locator) :
    Except PyErr SwapRecord :=
  new { r.toRecordFields with counterchainLocator := locator }

/-- Attach the covenant handles. -/
def withRadiantLock (r : SwapRecord) (outpoint : Option String)
    (spkHex : String) :
    Except PyErr SwapRecord :=
  new { r.toRecordFields with
    radiantCovenantOutpoint := outpoint, radiantCovenantSpkHex := some spkHex }

@[simp] theorem withState_state (r : SwapRecord) (s : SwapState) :
    (r.withState s).state = s := rfl

@[simp] theorem withState_terms (r : SwapRecord) (s : SwapState) :
    (r.withState s).terms = r.terms := rfl

@[simp] theorem withState_locator (r : SwapRecord) (s : SwapState) :
    (r.withState s).counterchainLocator = r.counterchainLocator := rfl

/-- Recording the counter lock changes the locator only. -/
theorem withCounterLock_ok {r r' : SwapRecord} {l : Option Locator}
    (h : r.withCounterLock l = .ok r') :
    r'.state = r.state ∧ r'.terms = r.terms ∧ r'.counterchainLocator = l := by
  have hf := new_ok.mp h
  simp [hf]

/-- Recording the Radiant lock leaves state, terms and locator alone. -/
theorem withRadiantLock_ok {r r' : SwapRecord} {o : Option String}
    {spk : String}
    (h : r.withRadiantLock o spk = .ok r') :
    r'.state = r.state ∧ r'.terms = r.terms ∧
      r'.counterchainLocator = r.counterchainLocator := by
  have hf := new_ok.mp h
  simp [hf]

/-! ## Wire form -/

/-- `SWAP_RECORD_SCHEMA_VERSION`. -/
def swapRecordSchemaVersion : Int := 2

/-- The locator entries: v2 for an ETH locator, v1 for a BTC one or none. -/
def locatorItems : Option Locator → List (String × PyVal)
  | some (.eth l) =>
    [("schema_version", .int swapRecordSchemaVersion),
     ("counterchain_locator", .dict [("chain", .str "eth"),
       ("locator", l.toDict)])]
  | some (.btc l) => [("btc_locator", l.toDict)]
  | none => [("btc_locator", .none)]

def toDict (r : SwapRecord) : PyVal :=
  .dict
    (("state", .str r.state.value) ::
     ("terms", r.terms.toDict) ::
     ("radiant_covenant_outpoint", PyVal.ofOptStr r.radiantCovenantOutpoint) ::
     ("radiant_covenant_spk_hex", PyVal.ofOptStr r.radiantCovenantSpkHex) ::
     locatorItems r.counterchainLocator)

/-- The v2 chain-tagged locator. -/
def taggedLocator (cc : PyVal) : Except PyErr (Option Locator) := do
  let chain ← cc.get "chain"
  let locd ← cc.get "locator"
  match chain with
  | .str "eth" => return some (.eth (← EthHtlcLocator.fromDict locd))
  | .str "btc" => return some (.btc (← BtcHtlcLocator.fromDict locd))
  | .str c => invalid ("unknown counterchain_locator chain: '" ++ c ++ "'")
  | _ => invalid "unknown counterchain_locator chain"

/-- The v1 bare locator. -/
def bareLocator (bloc : PyVal) : Except PyErr (Option Locator) := do
  match bloc with
  | .none => return none
  | _ => return some (.btc (← BtcHtlcLocator.fromDict bloc))

def locatorFromDict (d : PyVal) : Except PyErr (Option Locator) := do
  -- `schema_version` is written but not read: the key alone tells the forms
  -- apart
  if d.has "counterchain_locator" then
    taggedLocator (← d.item "counterchain_locator")
  else
    bareLocator (← d.get "btc_locator")

/-- `SwapState(d["state"])`. -/
def stateOf : PyVal → Except PyErr SwapState
  | .str s => SwapState.ofValue s
  | _ => .error (.other "is not a valid SwapState")

/-- An optional handle: a `str` or `None`, anything else is refused by the
constructor. -/
def optStr (v : PyVal) (name : String) : Except PyErr (Option String) :=
  match v with
  | .none => .ok none
  | .str s => .ok (some s)
  | _ => invalid (name ++ " must be a str or None")

def fromDict (d : PyVal) : Except PyErr SwapRecord := do
  let counterchainLocator ← locatorFromDict d
  let state ← stateOf (← d.item "state")
  let terms ← NegotiatedTerms.fromDict (← d.item "terms")
  let radiantCovenantOutpoint ←
    optStr (← d.get "radiant_covenant_outpoint") "radiant_covenant_outpoint"
  let radiantCovenantSpkHex ←
    optStr (← d.get "radiant_covenant_spk_hex") "radiant_covenant_spk_hex"
  new { state, terms, counterchainLocator, radiantCovenantOutpoint, radiantCovenantSpkHex }

/-! ### What the decoder reads back -/

/-- A bare Bitcoin locator is recognised by its fields. -/
@[simp] private theorem bareLocator_toDict (l : BtcHtlcLocator) :
    bareLocator l.toDict = .ok (some (.btc l)) := by
  have h : bareLocator l.toDict = do
      return some (.btc (← BtcHtlcLocator.fromDict l.toDict)) := rfl
  simp [h, BtcHtlcLocator.fromDict_toDict]

/-- The locator is read back in all three cases: v2 ETH, v1 BTC, v1 without
one. -/
theorem locatorFromDict_toDict (r : SwapRecord) :
    locatorFromDict r.toDict = .ok r.counterchainLocator := by
  unfold toDict locatorFromDict
  cases r.counterchainLocator with
  | none => simp [locatorItems, PyVal.has, List.lookup_cons, bareLocator]
  | some l =>
    cases l with
    | btc l => simp [locatorItems, PyVal.has, List.lookup_cons]
    | eth l =>
      simp [locatorItems, PyVal.has, List.lookup_cons, taggedLocator,
        EthHtlcLocator.fromDict_toDict]

/-- An optional text reads back. -/
@[simp] private theorem optStr_ofOptStr (o : Option String) (name : String) :
    optStr (PyVal.ofOptStr o) name = .ok o := by
  cases o <;> rfl

@[simp] private theorem stateOf_value (s : SwapState) : stateOf (.str s.value) = .ok s :=
  SwapState.ofValue_value s

/-- Decoding a written record fails or succeeds with its terms, and changes
nothing else. -/
theorem fromDict_toDict_eq (r : SwapRecord) :
    fromDict r.toDict =
      NegotiatedTerms.fromDict r.terms.toDict >>= fun terms =>
        new { r.toRecordFields with terms } := by
  unfold fromDict
  rw [locatorFromDict_toDict]
  simp only [toDict, PyVal.item_head, ne_eq, String.reduceEq,
    not_false_eq_true, PyVal.item_tail, PyVal.get_head, PyVal.get_tail, ok_bind,
      stateOf_value,
    optStr_ofOptStr]

/-- **When a record can be reloaded unchanged**: exactly when its terms can. -/
theorem fromDict_toDict_iff (r : SwapRecord) :
    fromDict r.toDict = .ok r ↔
      r.terms.counterChain = .btc ∨ r.terms.valueAmount ≠ r.terms.btcSats := by
  rw [fromDict_toDict_eq, ← NegotiatedTerms.fromDict_toDict_iff, bind_ok]
  constructor
  · rintro ⟨t, ht, hn⟩
    have hf := congrArg RecordFields.terms (new_ok.mp hn)
    simp only at hf
    rw [ht, hf]
  · intro ht
    exact ⟨r.terms, ht, new_ok.mpr rfl⟩

end SwapRecord

/-- **Reloading what was persisted.** Terms and records come back unchanged
exactly on a BTC swap, or on an ETH swap whose wei amount differs from
`btc_sats`. -/
theorem reload_unchanged_iff (t : NegotiatedTerms) (r : SwapRecord) :
    (NegotiatedTerms.fromDict t.toDict = .ok t ↔
      t.counterChain = .btc ∨ t.valueAmount ≠ t.btcSats) ∧
    (SwapRecord.fromDict r.toDict = .ok r ↔
      r.terms.counterChain = .btc ∨ r.terms.valueAmount ≠ r.terms.btcSats) :=
  ⟨NegotiatedTerms.fromDict_toDict_iff t, SwapRecord.fromDict_toDict_iff r⟩

/-! ## Concrete handles and records, for the closed instances of later modules -/

def sampleBtcLocator : BtcHtlcLocator where
  fundingOutpoint := ⟨⟨String.ofList (List.replicate 64 'a'), 0⟩, by decide⟩
  scriptTree := ⟨⟨[], [], leafVersionTapscript⟩, rfl⟩
  controlBlockClaim := List.replicate 65 0
  controlBlockRefund := List.replicate 65 0
  internalKey := List.replicate 32 0
  amountSats := 100000
  network := "bc"
  valid := rfl

def sampleEthLocator : EthHtlcLocator where
  chainId := 1
  contractAddress := String.ofList ('0' :: 'x' :: List.replicate 40 '1')
  deployTxHash := "0x"
  hashlock := String.ofList ('0' :: 'x' :: List.replicate 64 '7')
  claimant := String.ofList ('0' :: 'x' :: List.replicate 40 '2')
  refundee := String.ofList ('0' :: 'x' :: List.replicate 40 '3')
  timeout := 1800000000
  amountWei := 100000
  valid := by decide

/-- A fresh record of the BTC swap. -/
def sampleBtcRecord : SwapRecord :=
  ⟨{ state := .negotiated, terms := sampleBtcTerms }, rfl⟩

/-- A fresh record of the ETH swap whose wei amount equals its `btc_sats`. -/
def sampleEthParRecord : SwapRecord :=
  ⟨{ state := .negotiated, terms := sampleEthParTerms }, rfl⟩

/-- The decoder refuses those terms and that record: the amount was not written,
and the sentinel is not a wei amount. -/
theorem reload_par_refused :
    ¬ (∀ t : NegotiatedTerms, NegotiatedTerms.fromDict t.toDict = .ok t) ∧
    ¬ (∀ r : SwapRecord, SwapRecord.fromDict r.toDict = .ok r) ∧
    NegotiatedTerms.fromDict sampleEthParTerms.toDict =
      invalid ("value_amount (wei) must be explicitly set for an ETH swap — the 0=>btc_sats " ++
        "sentinel does not cross the sats↔wei unit boundary") := by
  refine ⟨fun h => ?_, fun h => ?_, ?_⟩
  · have := (NegotiatedTerms.fromDict_toDict_iff sampleEthParTerms).mp (h _)
    revert this
    decide
  · have := (SwapRecord.fromDict_toDict_iff sampleEthParRecord).mp (h _)
    revert this
    decide
  · rw [NegotiatedTerms.fromDict_toDict_eq]
    rfl

end Pyrxd.Gravity
