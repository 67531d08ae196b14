import Pyrxd.Btc.Timelock
import Pyrxd.Lib.Dict

/-!
# Negotiated terms

`NegotiatedTerms` of `gravity/swap_state.py`: everything the two parties agree
before any lock, and its wire form. `__post_init__` both checks and rewrites: on
a BTC swap a `value_amount` of `0` is a sentinel for `btc_sats`. Terms that
exist are therefore the *fixed points* of `postInit`, which is what
`NegotiatedTerms.valid` says; `TermsFields.Sound` spells out what the checks
guarantee.

The asset variant and the counter chain are enumerations here, so their two
membership checks move to where the wire strings are parsed (`fromDict`).
-/

namespace Pyrxd.Gravity

open Pyrxd.Lib Pyrxd.Btc

/-- `ASSET_VARIANTS`. -/
inductive AssetVariant where
  | rxd
  | ft
  | nft
deriving DecidableEq, Repr

def AssetVariant.value : AssetVariant → String
  | .rxd => "rxd"
  | .ft => "ft"
  | .nft => "nft"

/-- `asset_variant in ASSET_VARIANTS`, with the refusal otherwise. -/
def AssetVariant.ofValue (s : String) : Except PyErr AssetVariant :=
  if s = "rxd" then .ok .rxd
  else if s = "ft" then .ok .ft
  else if s = "nft" then .ok .nft
  else invalid "asset_variant must be one of ['ft', 'nft', 'rxd']"

/-- A variant is known by its text. -/
@[simp] theorem AssetVariant.ofValue_value (a : AssetVariant) :
    ofValue a.value = .ok a := by
  cases a <;> rfl

/-- `COUNTER_CHAINS`: the non-Radiant side the taker locks first. -/
inductive CounterChain where
  | btc
  | eth
deriving DecidableEq, Repr

def CounterChain.value : CounterChain → String
  | .btc => "btc"
  | .eth => "eth"

/-- `counter_chain in COUNTER_CHAINS`, with the refusal otherwise. -/
def CounterChain.ofValue (s : String) : Except PyErr CounterChain :=
  if s = "btc" then .ok .btc
  else if s = "eth" then .ok .eth
  else invalid "counter_chain must be one of ['btc', 'eth']"

@[simp] theorem CounterChain.ofValue_value (c : CounterChain) :
    ofValue c.value = .ok c := by
  cases c <;> rfl

/-- `_ZERO32`. -/
def zero32 : Bytes := List.replicate 32 0

/-- `_b32` on a value that is already bytes. -/
def b32 (b : Bytes) (name : String) : Except PyErr Unit :=
  refuseIf (b.length ≠ 32) (name ++ " must be 32 bytes, got " ++
    toString b.length)

structure TermsFields where
  hashlock : Bytes
  btcSats : Int
  radiantAmount : Int
  tBtc : Timelock
  tRxd : Timelock
  assetVariant : AssetVariant
  genesisRef : Bytes
  takerDestHash : Bytes
  makerDestHash : Bytes
  btcClaimPubkeyXonly : Bytes
  btcRefundPubkeyXonly : Bytes
  counterChain : CounterChain := .btc
  valueAmount : Int := 0
  ethTimeoutUnixS : Option Int := none
  credentialRef : Bytes := []
deriving DecidableEq

namespace TermsFields

/-- `object.__setattr__(self, "value_amount", v)`. -/
def withValueAmount (f : TermsFields) (v : Int) : TermsFields :=
  { f with valueAmount := v }

/-- The counter-leg amount after the BTC sentinel rule. -/
def resolveValueAmount (f : TermsFields) : Except PyErr Int :=
  match f.counterChain with
  | .btc =>
    -- 0 stands for "not given": on BTC both amounts are satoshis
    if f.valueAmount = 0 then .ok f.btcSats
    else if f.valueAmount ≠ f.btcSats then
      invalid ("for a BTC swap value_amount (" ++ toString f.valueAmount ++
        ") must equal btc_sats (" ++ toString f.btcSats ++ ")")
    else .ok f.valueAmount
  | .eth =>
    if f.valueAmount = 0 then
      invalid ("value_amount (wei) must be explicitly set for an ETH swap — the 0=>btc_sats " ++
        "sentinel does not cross the sats↔wei unit boundary")
    else .ok f.valueAmount

/-- The absolute ETH deadline is required on an ETH swap and forbidden on a BTC
one. -/
def checkEthTimeout (f : TermsFields) : Except PyErr Unit :=
  match f.counterChain, f.ethTimeoutUnixS with
  | .eth, none =>
    invalid "an ETH swap requires eth_timeout_unix_s (a positive absolute unix deadline)"
  | .eth, some n =>
    refuseIf (n ≤ 0)
      "an ETH swap requires eth_timeout_unix_s (a positive absolute unix deadline)"
  | .btc, none => .ok ()
  | .btc, some _ =>
    invalid "eth_timeout_unix_s is only valid on an ETH swap (BTC uses the relative t_btc)"

/-- One Taproot key: 32 bytes, and the zero placeholder on an ETH swap. -/
def checkXonly (f : TermsFields) (key : Bytes) (name : String) :
    Except PyErr Unit := do
  b32 key name
  refuseIf (f.counterChain = .eth ∧ key ≠ zero32)
    (name ++ " must be the 32-byte zero placeholder on an ETH swap")

/-- `NegotiatedTerms.__post_init__`: the accepted fields, `value_amount`
resolved. -/
def postInit (f : TermsFields) : Except PyErr TermsFields := do
  b32 f.hashlock "hashlock"
  refuseIf (f.btcSats ≤ 0) "btc_sats must be a positive int"
  refuseIf (f.radiantAmount ≤ 0) "radiant_amount must be a positive int"
  let valueAmount ← f.resolveValueAmount
  refuseIf (valueAmount ≤ 0) "value_amount must be a positive int"
  f.checkEthTimeout
  refuseIf (f.tRxd.unit ≠ .blocks)
    ("t_rxd must be a BLOCKS timelock (the Radiant CSV has no SECONDS encoding); got " ++
      f.tRxd.unit.value)
  refuseIf (f.assetVariant ≠ .rxd ∧ f.genesisRef.length = 0)
    (f.assetVariant.value ++ " requires a non-empty genesis_ref")
  b32 f.takerDestHash "taker_dest_hash"
  b32 f.makerDestHash "maker_dest_hash"
  refuseIf (f.credentialRef.length ≠ 0 ∧ f.credentialRef.length ≠ 36)
    "credential_ref must be empty or 36 bytes (singleton ref wire form)"
  f.checkXonly f.btcClaimPubkeyXonly "btc_claim_pubkey_xonly"
  f.checkXonly f.btcRefundPubkeyXonly "btc_refund_pubkey_xonly"
  -- locks in different units are not compared here but by the margin gate
  refuseIf (f.tBtc.unit = f.tRxd.unit ∧ f.tBtc.value ≤ f.tRxd.value)
    ("invariant MAKER_SECRET_TAKER_LOCKS_BTC_FIRST requires t_btc > t_rxd (got t_btc=" ++
      toString f.tBtc.value ++ " <= t_rxd=" ++ toString f.tRxd.value ++ " " ++
      f.tBtc.unit.value ++ ")")
  return f.withValueAmount valueAmount

/-- What the checks guarantee of the fields they do not rewrite. -/
structure Sound (f : TermsFields) : Prop where
  hashlock : f.hashlock.length = 32
  btcSats : 0 < f.btcSats
  radiantAmount : 0 < f.radiantAmount
  ethTimeout : match f.counterChain with
    | .btc => f.ethTimeoutUnixS = none
    | .eth => ∃ n, f.ethTimeoutUnixS = some n ∧ 0 < n
  tRxd : f.tRxd.unit = .blocks
  genesisRef : f.assetVariant ≠ .rxd → f.genesisRef ≠ []
  takerDestHash : f.takerDestHash.length = 32
  makerDestHash : f.makerDestHash.length = 32
  credentialRef : f.credentialRef = [] ∨ f.credentialRef.length = 36
  claimKey : f.btcClaimPubkeyXonly.length = 32
  refundKey : f.btcRefundPubkeyXonly.length = 32
  ethKeys : f.counterChain = .eth →
    f.btcClaimPubkeyXonly = zero32 ∧ f.btcRefundPubkeyXonly = zero32
  ordered : f.tBtc.unit = f.tRxd.unit → f.tRxd.value < f.tBtc.value

/-- The checks do not read the amount. -/
theorem Sound.withValueAmount {f : TermsFields} (hs : f.Sound) (v : Int) :
    (f.withValueAmount v).Sound :=
  ⟨hs.1, hs.2, hs.3, hs.4, hs.5, hs.6, hs.7, hs.8, hs.9, hs.10,
    hs.11, hs.12, hs.13⟩

theorem b32_ok {b : Bytes} {name : String} {u : Unit} : b32 b name = .ok u ↔
    b.length = 32 := by
  rw [b32, refuseIf_ok, not_not]

/-- The Ethereum timeout belongs to Ethereum terms. -/
theorem checkEthTimeout_ok {f : TermsFields} {u : Unit} :
    f.checkEthTimeout = .ok u ↔ match f.counterChain with
      | .btc => f.ethTimeoutUnixS = none
      | .eth => ∃ n, f.ethTimeoutUnixS = some n ∧ 0 < n := by
  unfold checkEthTimeout
  cases f.counterChain <;> cases f.ethTimeoutUnixS <;>
    simp [invalid, refuseIf_ok]

/-- A key is 32 bytes, all zero on Ethereum. -/
theorem checkXonly_ok {f : TermsFields} {key : Bytes}
    {name : String} {u : Unit} :
    f.checkXonly key name = .ok u ↔ key.length = 32 ∧
    (f.counterChain = .eth → key = zero32) := by
  simp [checkXonly, bind_ok, b32_ok, refuseIf_ok]

/-- Acceptance, read off the block: the checks hold, the amount resolves to a
positive one, and that amount is the only field rewritten. -/
theorem postInit_ok {f g : TermsFields} :
    f.postInit = .ok g ↔
      f.Sound ∧ ∃ v, f.resolveValueAmount = .ok v ∧ 0 < v ∧
        g = f.withValueAmount v := by
  simp only [postInit, bind_ok, b32_ok, refuseIf_ok, checkEthTimeout_ok,
    checkXonly_ok, pure_eq_ok,
    exists_and_left, exists_const]
  constructor
  -- the checks in the order the constructor makes them
  · rintro ⟨h1, h2, h3, v, hv, h4, h5, h6, h7, h8, h9, h10, h11, h12, h13, h14⟩
    injection h14 with h14
    refine ⟨⟨h1, by omega, by omega, h5, by simpa using h6, ?_, h8, h9, ?_, h11.1, h12.1,
      fun he => ⟨h11.2 he, h12.2 he⟩, ?_⟩, v, hv, by omega, h14.symm⟩
    · intro ha hg
      exact h7 ⟨ha, by simp [hg]⟩
    · by_contra hc
      rw [not_or, ← List.length_eq_zero_iff] at hc
      exact h10 hc
    · intro hu
      by_contra hc
      exact h13 ⟨hu, by omega⟩
  · rintro ⟨hs, v, hv, hpos, rfl⟩
    refine ⟨hs.hashlock, by have := hs.btcSats; omega, by have := hs.radiantAmount; omega, v, hv,
      by omega, hs.ethTimeout, by simpa using hs.tRxd, ?_, hs.takerDestHash, hs.makerDestHash, ?_,
      ⟨hs.claimKey, fun he => (hs.ethKeys he).1⟩,
        ⟨hs.refundKey, fun he => (hs.ethKeys he).2⟩, ?_,
      rfl⟩
    · rintro ⟨ha, hg⟩
      exact hs.genesisRef ha (List.length_eq_zero_iff.mp hg)
    · rintro ⟨h0, h36⟩
      rcases hs.credentialRef with h | h
      · exact h0 (by simp [h])
      · exact h36 h
    · rintro ⟨hu, hle⟩
      have := hs.ordered hu
      omega

/-- A resolved amount resolves to itself. -/
theorem resolveValueAmount_resolved {f : TermsFields} {v : Int}
    (hb : 0 < f.btcSats)
    (h : f.resolveValueAmount = .ok v) :
    (f.withValueAmount v).resolveValueAmount = .ok v := by
  unfold resolveValueAmount invalid withValueAmount at *
  cases hc : f.counterChain with
  | btc =>
    simp only [hc] at h ⊢
    split at h
    · injection h with h
      subst h
      rw [if_neg (by omega), if_neg (by simp)]
    · split at h
      · simp at h
      · next h0 h1 =>
        injection h with h
        subst h
        rw [if_neg h0, if_neg h1]
  | eth =>
    simp only [hc] at h ⊢
    split at h
    · simp at h
    · next h0 =>
      injection h with h
      subst h
      rw [if_neg h0]

/-- What `__post_init__` returns it accepts as it is. -/
theorem postInit_idem {f g : TermsFields} (h : f.postInit = .ok g) :
    g.postInit = .ok g := by
  obtain ⟨hs, v, hv, hpos, rfl⟩ := postInit_ok.mp h
  exact postInit_ok.mpr
    ⟨hs.withValueAmount v, v,
      resolveValueAmount_resolved hs.btcSats hv, hpos, rfl⟩

end TermsFields

/-- Terms that `__post_init__` has accepted and rewritten. -/
structure NegotiatedTerms extends TermsFields where
  valid : toTermsFields.postInit = .ok toTermsFields
deriving DecidableEq

namespace NegotiatedTerms

/-- `NegotiatedTerms(...)`. -/
def new (f : TermsFields) : Except PyErr NegotiatedTerms :=
  match h : f.postInit with
  | .ok g => .ok ⟨g, TermsFields.postInit_idem h⟩
  | .error e => .error e

/-- Constructed terms have passed every check. -/
theorem sound (t : NegotiatedTerms) : t.toTermsFields.Sound :=
  (TermsFields.postInit_ok.mp t.valid).1

/-- The counter-leg amount of existing terms: `btc_sats` on BTC, positive on
ETH. -/
theorem valueAmount_btc (t : NegotiatedTerms) (hc : t.counterChain = .btc) :
    t.valueAmount = t.btcSats := by
  obtain ⟨-, v, hv, hpos, hg⟩ := TermsFields.postInit_ok.mp t.valid
  have hvt : t.valueAmount = v := congrArg TermsFields.valueAmount hg
  have h0 : ¬ t.valueAmount = 0 := by omega
  unfold TermsFields.resolveValueAmount invalid at hv
  simp only [hc, if_neg h0] at hv
  split at hv
  · simp at hv
  · next h1 => exact not_not.mp h1

theorem valueAmount_pos (t : NegotiatedTerms) : 0 < t.valueAmount := by
  obtain ⟨-, v, -, hpos, hg⟩ := TermsFields.postInit_ok.mp t.valid
  have hvt : t.valueAmount = v := congrArg TermsFields.valueAmount hg
  omega

/-- Terms are constructed from fields that pass. -/
theorem new_ok {f : TermsFields} {t : NegotiatedTerms} :
    new f = .ok t ↔ f.postInit = .ok t.toTermsFields := by
  unfold new
  split
  · next g h =>
    obtain ⟨tf, tv⟩ := t
    simp [h]
  · next e h => simp [h]

/-! ## Wire form -/

/-- A unit-tagged timelock as it is written. -/
def timelockDict (t : Timelock) : PyVal :=
  .dict [("value", .int t.value), ("unit", .str t.unit.value)]

/-- `TimeUnit(x)`. -/
def timeUnitOf : PyVal → Except PyErr TimeUnit
  | .str "blocks" => .ok .blocks
  | .str "seconds" => .ok .seconds
  | _ => .error (.other "is not a valid TimeUnit")

/-- `_timelock_from_dict`. -/
def timelockFromDict (d : PyVal) : Except PyErr Timelock := do
  let value ← (← d.item "value").toInt
  let unit ← timeUnitOf (← d.item "unit")
  Timelock.new value unit

@[simp] theorem timelockFromDict_dict (t : Timelock) :
    timelockFromDict (timelockDict t) = .ok t := by
  have hu : timeUnitOf (.str t.unit.value) =
      .ok t.unit := by cases t.unit <;> rfl
  simp [timelockFromDict, timelockDict, hu]

/-- The keys every wire form has. -/
def baseItems (t : TermsFields) : List (String × PyVal) :=
  [("hashlock", .str (hex t.hashlock)),
   ("btc_sats", .int t.btcSats),
   ("radiant_amount", .int t.radiantAmount),
   ("t_btc", timelockDict t.tBtc),
   ("t_rxd", timelockDict t.tRxd),
   ("asset_variant", .str t.assetVariant.value),
   ("genesis_ref", .str (hex t.genesisRef)),
   ("taker_dest_hash", .str (hex t.takerDestHash)),
   ("maker_dest_hash", .str (hex t.makerDestHash)),
   ("btc_claim_pubkey_xonly", .str (hex t.btcClaimPubkeyXonly)),
   ("btc_refund_pubkey_xonly", .str (hex t.btcRefundPubkeyXonly))]

/-- The ETH-additive keys, each written only when it differs from the BTC
default. -/
def extraItems (t : TermsFields) : List (String × PyVal) :=
  PyVal.optEntries
    [("counter_chain", if t.counterChain ≠
      .btc then some (.str t.counterChain.value) else none),
     ("value_amount", if t.valueAmount ≠
       t.btcSats then some (.int t.valueAmount) else none),
     ("eth_timeout_unix_s", t.ethTimeoutUnixS.map .int),
     ("credential_ref", if t.credentialRef ≠
       [] then some (.str (hex t.credentialRef)) else none)]

/-- `to_dict`; the preimage is not a field and is never written. -/
def toDict (t : NegotiatedTerms) : PyVal :=
  .dict (baseItems t.toTermsFields ++ extraItems t.toTermsFields)

/-- `int(d[k]) if d.get(k) is not None else None`. -/
def optInt (d : PyVal) (k : String) : Except PyErr (Option Int) := do
  match ← d.get k with
  | .none => .ok none
  | v => return some (← v.toInt)

/-- `bytes.fromhex(d[k]) if d.get(k) else b""`. -/
def optBytes (d : PyVal) (k : String) : Except PyErr Bytes := do
  let v ← d.get k
  if v.truthy then v.toBytes else return []

def fromDict (d : PyVal) : Except PyErr NegotiatedTerms := do
  let hashlock ← (← d.item "hashlock").toBytes
  let btcSats ← (← d.item "btc_sats").toInt
  let radiantAmount ← (← d.item "radiant_amount").toInt
  let tBtc ← timelockFromDict (← d.item "t_btc")
  let tRxd ← timelockFromDict (← d.item "t_rxd")
  let assetVariant ← (← d.item "asset_variant").toStr
  let genesisRef ← (← d.item "genesis_ref").toBytes
  let takerDestHash ← (← d.item "taker_dest_hash").toBytes
  let makerDestHash ← (← d.item "maker_dest_hash").toBytes
  let btcClaimPubkeyXonly ← (← d.item "btc_claim_pubkey_xonly").toBytes
  let btcRefundPubkeyXonly ← (← d.item "btc_refund_pubkey_xonly").toBytes
  let counterChain ← (← d.get "counter_chain" (.str "btc")).toStr
  let valueAmount ← (← d.get "value_amount" (.int 0)).toInt
  let ethTimeoutUnixS ← optInt d "eth_timeout_unix_s"
  let credentialRef ← optBytes d "credential_ref"
  let counterChain ← CounterChain.ofValue counterChain
  let assetVariant ← AssetVariant.ofValue assetVariant
  new { hashlock, btcSats, radiantAmount, tBtc, tRxd, assetVariant, genesisRef, takerDestHash,
        makerDestHash, btcClaimPubkeyXonly, btcRefundPubkeyXonly, counterChain, valueAmount,
        ethTimeoutUnixS, credentialRef }

/-! ### What the decoder reads back -/

/-- The chain is written under its key. -/
private theorem get_counterChain (t : TermsFields) :
    PyVal.get (.dict (baseItems t ++ extraItems t)) "counter_chain"
      (.str "btc") =
      .ok (.str t.counterChain.value) := by
  simp only [baseItems, extraItems, List.cons_append, List.nil_append]
  cases t.counterChain <;> simp [CounterChain.value]

/-- The amount is left out when it is the Bitcoin amount. -/
private theorem get_valueAmount (t : TermsFields) :
    PyVal.get (.dict (baseItems t ++ extraItems t)) "value_amount" (.int 0) =
      .ok (.int (if t.valueAmount = t.btcSats then 0 else t.valueAmount)) := by
  simp only [baseItems, extraItems, List.cons_append, List.nil_append]
  by_cases h : t.valueAmount = t.btcSats <;> simp [h]

/-- The Ethereum timeout reads back. -/
private theorem optInt_ethTimeout (t : TermsFields) :
    optInt (.dict (baseItems t ++ extraItems t)) "eth_timeout_unix_s" =
      .ok t.ethTimeoutUnixS := by
  simp only [optInt, baseItems, extraItems, List.cons_append, List.nil_append]
  cases t.ethTimeoutUnixS <;> simp

/-- A written byte string is non-empty text as soon as it has a byte. -/
private theorem truthy_hex {b : Bytes} (h : b ≠ []) :
    (PyVal.str (hex b)).truthy = true := by
  cases b with
  | nil => exact absurd rfl h
  | cons x xs => simp [PyVal.truthy, hex, hexChars, ← String.toList_inj]

private theorem optBytes_credential (t : TermsFields) :
    optBytes (.dict (baseItems t ++ extraItems t)) "credential_ref" =
      .ok t.credentialRef := by
  simp only [optBytes, baseItems, extraItems, List.cons_append, List.nil_append]
  by_cases h : t.credentialRef = []
  · simp [h, PyVal.truthy]
  · simp [h, truthy_hex h]

/-- Decoding what was written rebuilds the terms from the same fields, except
that an amount equal to `btc_sats` comes back as the sentinel. -/
theorem fromDict_toDict_eq (t : NegotiatedTerms) :
    fromDict t.toDict =
      new (t.withValueAmount (if t.valueAmount = t.btcSats then 0 else t.valueAmount)) := by
  unfold fromDict toDict
  rw [get_counterChain, get_valueAmount, optInt_ethTimeout, optBytes_credential]
  simp [baseItems, TermsFields.withValueAmount]

/-- **When terms survive their wire form.** The sentinel is undone by
`__post_init__` on a BTC swap only, so an ETH swap whose wei amount happens to
equal `btc_sats` is written without its amount and refused when read. -/
theorem fromDict_toDict_iff (t : NegotiatedTerms) :
    fromDict t.toDict = .ok t ↔ t.counterChain = .btc ∨
    t.valueAmount ≠ t.btcSats := by
  rw [fromDict_toDict_eq]
  by_cases hv : t.valueAmount = t.btcSats
  · -- the amount was not written: the decoder starts from the sentinel
    rw [if_pos hv, new_ok, TermsFields.postInit_ok]
    constructor
    · rintro ⟨-, v, hres, -, -⟩
      left
      cases hc : t.counterChain with
      | btc => rfl
      | eth =>
        simp [TermsFields.resolveValueAmount, TermsFields.withValueAmount, hc,
          invalid] at hres
    · rintro (hc | hne)
      · refine ⟨t.sound.withValueAmount 0, t.btcSats, ?_, t.sound.btcSats, ?_⟩
        · simp [TermsFields.resolveValueAmount, TermsFields.withValueAmount, hc]
        · rw [← hv]
          rfl
      · exact absurd hv hne
  · rw [if_neg hv]
    simp only [ne_eq, hv, not_false_eq_true, or_true, iff_true]
    exact new_ok.mpr t.valid

end NegotiatedTerms

/-! ## Concrete terms, for the closed instances of later modules -/

/-- A plain RXD swap against BTC: 144 blocks on BTC, 20 on Radiant. -/
def sampleBtcTerms : NegotiatedTerms where
  hashlock := List.replicate 32 7
  btcSats := 100000
  radiantAmount := 5000
  tBtc := ⟨144, .blocks, by decide⟩
  tRxd := ⟨20, .blocks, by decide⟩
  assetVariant := .rxd
  genesisRef := []
  takerDestHash := List.replicate 32 1
  makerDestHash := List.replicate 32 2
  btcClaimPubkeyXonly := List.replicate 32 3
  btcRefundPubkeyXonly := List.replicate 32 4
  valueAmount := 100000
  valid := rfl

/-- A plain RXD swap against ETH for `wei`, with `btc_sats` carried along. -/
def sampleEthFields (wei : Int) : TermsFields where
  hashlock := List.replicate 32 7
  btcSats := 100000
  radiantAmount := 5000
  tBtc := ⟨144, .blocks, by decide⟩
  tRxd := ⟨20, .blocks, by decide⟩
  assetVariant := .rxd
  genesisRef := []
  takerDestHash := List.replicate 32 1
  makerDestHash := List.replicate 32 2
  btcClaimPubkeyXonly := zero32
  btcRefundPubkeyXonly := zero32
  counterChain := .eth
  valueAmount := wei
  ethTimeoutUnixS := some 1800000000

/-- An ETH swap whose wei amount is the same number as its `btc_sats`. -/
def sampleEthParTerms : NegotiatedTerms := ⟨sampleEthFields 100000, rfl⟩

end Pyrxd.Gravity
