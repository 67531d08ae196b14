import Mathlib.Data.Fin.VecNotation
import Mathlib.Data.List.OfFn
import Mathlib.Data.Fintype.Card
import Mathlib.Tactic.FinCases
import Pyrxd.Errors
import Pyrxd.Btc.RawTx
import Pyrxd.Lib.Votes

/-!
# Reading Bitcoin through several sources

`MultiSourceBtcFundingReader` and `MultiSourceBtcDataSource` of
`network/bitcoin.py`. Every source is asked once per read; a source that raised
is `none` here and is dropped from the vote, so a reply is a value.

The two classes vote differently. The funding reader takes the most frequent
amount and asks for a quorum only when that amount lies above the dust cap; the
data source takes the first group of equal replies that reaches the quorum.
`readOutputAmountSats_ok` and `read_ok` are the spec lemmas, and
`quorum_reads_sound_iff` says when an answer is worth what it claims.
-/

namespace Pyrxd.Network

open Pyrxd.Lib Pyrxd.Btc

/-- `raise NetworkError(msg)`. -/
def networkError {α : Type} (msg : String) : Except PyErr α :=
  .error (.other msg)

/-! ## The funding reader -/

structure FundingReaderFields where
  /-- How many readers are wired. -/
  readers : Nat
  quorum : Int := 2
  dustCapSats : Int := 10000

/-- `MultiSourceBtcFundingReader.__init__`. -/
def FundingReaderFields.postInit (f : FundingReaderFields) :
    Except PyErr Unit := do
  refuseIf (f.quorum < 1) "quorum must be >= 1"
  refuseIf ((f.readers : Int) < f.quorum)
    ("need at least quorum=" ++ toString f.quorum ++ " readers, got " ++
      toString f.readers)
  refuseIf (f.dustCapSats < 0) "dust_cap_sats must be >= 0"

structure MultiSourceBtcFundingReader extends FundingReaderFields where
  valid : toFundingReaderFields.postInit = .ok ()

namespace MultiSourceBtcFundingReader

/-- `_gather`: the replies of the readers that did not raise, in the readers'
order. -/
def gather {n : Nat} (replies : Fin n → Option Int) : List Int :=
  (List.ofFn replies).filterMap id

/-- Only a value at or below the dust cap is read without a quorum. -/
def requireQuorum (m : MultiSourceBtcFundingReader) : Option Int → Bool
  | none => true
  | some v => v > m.dustCapSats

/-- `confirmations`. -/
def confirmations (m : MultiSourceBtcFundingReader)
    (depths : Fin m.readers → Option Int)
    (valueSats : Option Int) : Except PyErr Int :=
  let oks := gather depths
  if m.requireQuorum valueSats = true ∧ (oks.length : Int) < m.quorum then
    networkError ("confirmation depth corroborated by only " ++
      toString oks.length ++
      " source(s); above-dust reads require quorum=" ++
        toString m.quorum ++ " of " ++
      toString m.readers ++ " (F-17). Fail-closed.")
  else match oks.min? with
    | none => .ok 0
    | some d => .ok d

/-- `read_output_amount_sats`. The depths are asked for after the amounts. -/
def readOutputAmountSats (m : MultiSourceBtcFundingReader)
    (amounts depths : Fin m.readers → Option Int) (minConfirmations : Int) :
    Except PyErr Int :=
  match mostCommon (gather amounts) with
  | none =>
    networkError "no source returned the output amount (F-17 fail-closed)"
  | some (agreed, count) => do
    if agreed > m.dustCapSats ∧ (count : Int) < m.quorum then
      networkError ("above-dust output amount " ++ toString agreed ++
        " sats corroborated by only " ++
        toString count ++ " source(s); need quorum=" ++ toString m.quorum ++
        " (sources disagree). Fail-closed.")
    let confs ← m.confirmations depths (some agreed)
    if confs < minConfirmations then
      networkError ("tx has " ++ toString confs ++
        " confirmations, required " ++
        toString minConfirmations)
    return agreed

/-- One read of one output: what every reader answers, and which readers are
faulty. -/
structure FundingRead (m : MultiSourceBtcFundingReader) where
  amounts : Fin m.readers → Option Int
  depths : Fin m.readers → Option Int
  minConfirmations : Int
  /-- What the output carries. -/
  truth : Int
  faulty : Fin m.readers → Bool
  /-- A reader that is not faulty answers the truth, or does not answer. -/
  honest : ∀ i, faulty i = false → ∀ v, amounts i = some v → v = truth
  few : (((List.ofFn faulty).count true : Nat) : Int) ≤ m.readers - m.quorum

/-- How many readers reported the amount `v`. -/
def reports {m : MultiSourceBtcFundingReader} (r : m.FundingRead)
    (v : Int) : Nat :=
  (gather r.amounts).count v

/-- An amount read for an output above the dust cap was reported by a quorum,
and is the true one. -/
def AmountSound (m : MultiSourceBtcFundingReader) (r : m.FundingRead) : Prop :=
  r.truth > m.dustCapSats →
    ∀ v, m.readOutputAmountSats r.amounts r.depths r.minConfirmations = .ok v →
    m.quorum ≤ reports r v ∧ v = r.truth

/-- A depth read for a value above the dust cap is nowhere above what an honest
reader said. -/
def DepthSound (m : MultiSourceBtcFundingReader) (r : m.FundingRead) : Prop :=
  ∀ valueSats : Option Int, (∀ v, valueSats = some v → v > m.dustCapSats) →
    ∀ d, m.confirmations r.depths valueSats = .ok d →
      ∀ i, r.faulty i = false → ∀ d', r.depths i = some d' → d ≤ d'

/-- No depth that was reported is too shallow, and one was reported if one is
needed. -/
def Buried {m : MultiSourceBtcFundingReader} (r : m.FundingRead) : Prop :=
  (∀ i d, r.depths i = some d → r.minConfirmations ≤ d) ∧
    (r.minConfirmations ≤ 0 ∨ ∃ i d, r.depths i = some d)

/-- The output is above the dust cap, an amount at or below it leads the vote,
and the depths reported let the read go through. -/
def DustLeads (m : MultiSourceBtcFundingReader) (r : m.FundingRead) : Prop :=
  r.truth > m.dustCapSats ∧
    (∃ v ≤ m.dustCapSats, Leads (gather r.amounts) v) ∧ Buried r

section FundingReads

variable {m : MultiSourceBtcFundingReader}

/-- What was gathered, some source replied. -/
theorem mem_gather {n : Nat} {replies : Fin n → Option Int} {v : Int} :
    v ∈ gather replies ↔ ∃ i, replies i = some v := by
  unfold gather
  simp only [List.mem_filterMap, List.mem_ofFn, id_eq]
  constructor
  · rintro ⟨_, ⟨i, rfl⟩, h⟩
    exact ⟨i, h⟩
  · rintro ⟨i, h⟩
    exact ⟨_, ⟨i, rfl⟩, h⟩

theorem quorum_pos (m : MultiSourceBtcFundingReader) : 1 ≤ m.quorum := by
  have h := m.valid
  unfold FundingReaderFields.postInit at h
  obtain ⟨hq, _⟩ := refuseIf_bind_ok.mp h
  omega

/-- A depth is returned only as the least of those reported, or as 0 when none
was. -/
theorem confirmations_ok {depths : Fin m.readers → Option Int}
    {valueSats : Option Int} {d : Int}
    (h : m.confirmations depths valueSats = .ok d) :
    (∀ i d', depths i = some d' → d ≤ d') ∧
      (d = 0 ∧ (∀ i, depths i = none) ∨ ∃ i, depths i = some d) := by
  unfold confirmations at h
  dsimp only at h
  split at h
  · cases h
  · split at h
    · next hnone =>
      cases h
      have hempty := List.min?_eq_none_iff.mp hnone
      have hno : ∀ i d', depths i ≠ some d' := by
        intro i d' hi
        have := mem_gather.mpr ⟨i, hi⟩
        rw [hempty] at this
        exact List.not_mem_nil this
      refine ⟨fun i d' hi => absurd hi (hno i d'), .inl ⟨rfl, fun i => ?_⟩⟩
      exact Option.eq_none_iff_forall_ne_some.mpr (hno i)
    · next least hleast =>
      cases h
      have hmin := List.min?_eq_some_iff.mp hleast
      exact ⟨fun i d' hi => hmin.2 d' (mem_gather.mpr ⟨i, hi⟩),
        .inr (mem_gather.mp hmin.1)⟩

/-- Below the dust cap no quorum is asked for. -/
theorem confirmations_dust {depths : Fin m.readers → Option Int} {v : Int}
    (hv : v ≤ m.dustCapSats) :
    ∃ d, m.confirmations depths (some v) = .ok d := by
  unfold confirmations
  dsimp only
  rw [if_neg (by simp only [requireQuorum, decide_eq_true_eq, not_and]; omega)]
  split
  · exact ⟨_, rfl⟩
  · exact ⟨_, rfl⟩

/-- The spec of a read: the leading amount, with a quorum behind it above the
cap. -/
theorem readOutputAmountSats_ok {amounts depths : Fin m.readers → Option Int}
    {minConf v : Int} : m.readOutputAmountSats amounts depths minConf = .ok v ↔
      Leads (gather amounts) v ∧ (v > m.dustCapSats →
        m.quorum ≤ ((gather amounts).count v : Int)) ∧
        ∃ d, m.confirmations depths (some v) = .ok d ∧ minConf ≤ d := by
  unfold readOutputAmountSats
  cases hcommon : mostCommon (gather amounts) with
  | none =>
    have hempty := mostCommon_eq_none.mp hcommon
    simp only [networkError, reduceCtorEq, false_iff, not_and]
    intro hlead
    rw [hempty] at hlead
    exact absurd hlead.1 List.not_mem_nil
  | some pair =>
    obtain ⟨agreed, count⟩ := pair
    obtain ⟨hlead, rfl⟩ := mostCommon_eq.mp hcommon
    -- only one amount can lead
    have honly : ∀ w, Leads (gather amounts) w → w = agreed := by
      intro w hw
      have hw' := mostCommon_eq.mpr ⟨hw, rfl⟩
      rw [hcommon] at hw'
      cases hw'
      rfl
    dsimp only
    by_cases hfew : agreed > m.dustCapSats ∧
      ((gather amounts).count agreed : Int) < m.quorum
    · rw [if_pos hfew]
      simp only [networkError, error_bind, reduceCtorEq, false_iff]
      rintro ⟨hw, hq, _⟩
      rw [honly v hw] at hq
      have := hq hfew.1
      omega
    · rw [if_neg hfew]
      rw [bind_ok]
      constructor
      · rintro ⟨d, hd, hret⟩
        by_cases hshallow : d < minConf
        · rw [if_pos hshallow] at hret
          cases hret
        · rw [if_neg hshallow] at hret
          cases hret
          exact ⟨hlead, by omega, d, hd, by omega⟩
      · rintro ⟨hw, _, d, hd, hdeep⟩
        have hv := honly v hw
        subst hv
        exact ⟨d, hd, if_neg (by omega)⟩

/-- Reports above the fault bound are not all lies. -/
theorem honest_of_reports {r : m.FundingRead} {v : Int}
    (h : (m.readers : Int) - m.quorum < reports r v) : v = r.truth := by
  by_contra hne
  have hfaulty : ∀ i, r.amounts i = some v → r.faulty i = true := by
    intro i hi
    by_contra hf
    exact hne (r.honest i (by simpa using hf) v hi)
  have hle : reports r v ≤ (List.ofFn r.faulty).count true := by
    unfold reports gather
    rw [List.count_filterMap, List.count, List.ofFn_eq_map, List.ofFn_eq_map,
      List.countP_map, List.countP_map]
    refine List.countP_mono_left fun i _ hi => ?_
    simp only [Function.comp_apply, id_eq, beq_iff_eq] at hi ⊢
    exact hfaulty i hi
  have := r.few
  omega

/-- Under the dust cap the depth decides. -/
theorem buried_iff {r : m.FundingRead} {v : Int} (hv : v ≤ m.dustCapSats) :
    Buried r ↔ ∃ d, m.confirmations r.depths (some v) = .ok d ∧
    r.minConfirmations ≤ d := by
  obtain ⟨d, hd⟩ : ∃ d, m.confirmations r.depths (some v) = .ok d :=
    confirmations_dust hv
  obtain ⟨hleast, hfrom⟩ := confirmations_ok hd
  have hiff : Buried r ↔ r.minConfirmations ≤ d := by
    constructor
    · rintro ⟨hall, hsome⟩
      rcases hfrom with ⟨rfl, hnone⟩ | ⟨i, hi⟩
      · rcases hsome with hzero | ⟨i, d', hi⟩
        · exact hzero
        · rw [hnone i] at hi
          cases hi
      · exact hall i d hi
    · intro hdeep
      refine ⟨fun i d' hi => le_trans hdeep (hleast i d' hi), ?_⟩
      rcases hfrom with ⟨rfl, _⟩ | ⟨i, hi⟩
      · exact .inl hdeep
      · exact .inr ⟨i, d, hi⟩
  rw [hiff]
  constructor
  · exact fun hdeep => ⟨d, hd, hdeep⟩
  · rintro ⟨d', hd', hdeep⟩
    rw [hd] at hd'
    cases hd'
    exact hdeep

/-- With a majority quorum the amount is sound unless dust leads. -/
theorem amountSound_iff {r : m.FundingRead}
    (hmaj : (m.readers : Int) < 2 * m.quorum) :
    m.AmountSound r ↔ ¬ m.DustLeads r := by
  constructor
  · rintro h ⟨habove, ⟨v, hv, hlead⟩, hburied⟩
    have hread := readOutputAmountSats_ok.mpr
      ⟨hlead, fun hgt => absurd hgt (by omega), (buried_iff hv).mp hburied⟩
    have htrue := (h habove v hread).2
    omega
  · intro h habove v hread
    obtain ⟨hlead, hquorum, hdepth⟩ := readOutputAmountSats_ok.mp hread
    have hgt : v > m.dustCapSats := by
      by_contra hle
      exact h ⟨habove, ⟨v, by omega, hlead⟩, (buried_iff (by omega)).mpr hdepth⟩
    have hreports : m.quorum ≤ reports r v := hquorum hgt
    exact ⟨hreports, honest_of_reports (by omega)⟩

theorem depthSound (m : MultiSourceBtcFundingReader) (r : m.FundingRead) :
    m.DepthSound r := by
  intro valueSats _ d hd i _ d' hi
  exact (confirmations_ok hd).1 i d' hi

end FundingReads

end MultiSourceBtcFundingReader

/-! ## The data source -/

structure DataSourceFields where
  /-- How many sources are wired. -/
  sources : Nat
  quorum : Int := 2

/-- `MultiSourceBtcDataSource.__init__`: any quorum at all is accepted. -/
def DataSourceFields.postInit (f : DataSourceFields) : Except PyErr Unit :=
  refuseIf (f.sources =
    0) "MultiSourceBtcDataSource requires at least one source"

structure MultiSourceBtcDataSource extends DataSourceFields where
  valid : toDataSourceFields.postInit = .ok ()

/-- The read methods. The arguments that only select what the sources are asked
for are left out. -/
inductive ReadCall where
  | getTipHeight
  | getBlockHash
  | getBlockHeaderHex
  | getHeaderChain
  | getRawTx (txid : String)
  | getTxBlockHeight
  | getTxOutputScriptType
  | getMerkleProof

namespace ReadCall

/-- What one source answers. -/
def Reply : ReadCall → Type
  | getTipHeight => Nat
  | getBlockHash => Bytes
  | getBlockHeaderHex => Bytes
  | getHeaderChain => List Bytes
  | getRawTx _ => Bytes
  | getTxBlockHeight => Nat
  | getTxOutputScriptType => String
  | getMerkleProof => List String × Int

/-- What two answers are compared by. -/
def Key : ReadCall → Type
  | getTipHeight => Nat
  | getBlockHash => Bytes
  | getBlockHeaderHex => Bytes
  | getHeaderChain => Bytes
  | getRawTx _ => Bytes
  | getTxBlockHeight => Nat
  | getTxOutputScriptType => String
  | getMerkleProof => List String × Int

instance : (call : ReadCall) → DecidableEq call.Reply
  | getTipHeight => inferInstanceAs (DecidableEq Nat)
  | getBlockHash => inferInstanceAs (DecidableEq Bytes)
  | getBlockHeaderHex => inferInstanceAs (DecidableEq Bytes)
  | getHeaderChain => inferInstanceAs (DecidableEq (List Bytes))
  | getRawTx _ => inferInstanceAs (DecidableEq Bytes)
  | getTxBlockHeight => inferInstanceAs (DecidableEq Nat)
  | getTxOutputScriptType => inferInstanceAs (DecidableEq String)
  | getMerkleProof => inferInstanceAs (DecidableEq (List String × Int))

instance : (call : ReadCall) → DecidableEq call.Key
  | getTipHeight => inferInstanceAs (DecidableEq Nat)
  | getBlockHash => inferInstanceAs (DecidableEq Bytes)
  | getBlockHeaderHex => inferInstanceAs (DecidableEq Bytes)
  | getHeaderChain => inferInstanceAs (DecidableEq Bytes)
  | getRawTx _ => inferInstanceAs (DecidableEq Bytes)
  | getTxBlockHeight => inferInstanceAs (DecidableEq Nat)
  | getTxOutputScriptType => inferInstanceAs (DecidableEq String)
  | getMerkleProof => inferInstanceAs (DecidableEq (List String × Int))

/-- `key_fn`. -/
def key : (call : ReadCall) → call.Reply → call.Key
  | getTipHeight => fun h => h
  | getBlockHash => fun h => h
  | getBlockHeaderHex => fun h => h
  | getHeaderChain => fun (chain : List Bytes) => chain.flatten
  | getRawTx _ => fun tx => hash256 tx
  | getTxBlockHeight => fun h => h
  | getTxOutputScriptType => fun t => t
  | getMerkleProof => fun r => r

/-- `_verify_raw_matches_txid`. -/
def verifyRawMatchesTxid (raw : Bytes) (txid : String) : Except PyErr Unit :=
  match btcTxidFromRaw raw with
  | .error _ =>
    networkError "could not derive a txid from the returned tx bytes; fail-closed"
  | .ok derived =>
    if derived.toLower ≠ txid.toLower then
      networkError ("returned tx bytes do not match the requested txid " ++
        txid.take 16 ++
        "…; fail-closed")
    else .ok ()

/-- What is still checked of the reply that was agreed on. -/
def accept : (call : ReadCall) → call.Reply → Except PyErr call.Reply
  | getTipHeight => .ok
  | getBlockHash => .ok
  | getBlockHeaderHex => .ok
  | getHeaderChain => .ok
  | getRawTx txid => fun tx => (verifyRawMatchesTxid tx txid).map fun _ => tx
  | getTxBlockHeight => .ok
  | getTxOutputScriptType => .ok
  | getMerkleProof => .ok

/-- A reply is handed on as it is. -/
theorem accept_ok {call : ReadCall} {r v : call.Reply}
    (h : call.accept r = .ok v) : v = r := by
  cases call with
  | getRawTx txid =>
    unfold accept at h
    dsimp only at h
    cases hv : verifyRawMatchesTxid r txid with
    | error e => rw [hv] at h; cases h
    | ok u => rw [hv] at h; cases h; rfl
  | _ => cases h; rfl

end ReadCall

namespace MultiSourceBtcDataSource

variable {call : ReadCall}

/-- `_require_quorum`. -/
def requireQuorum (m : MultiSourceBtcDataSource) (call : ReadCall)
    (results : List (Option call.Reply)) :
    Except PyErr call.Reply :=
  let oks := results.filterMap id
  match (groups call.key oks).find? fun g => m.quorum ≤ (g.2.length : Int) with
  | some (_, r :: _) => .ok r
  | _ =>
    networkError ("Source quorum not reached: " ++ toString oks.length ++ "/" ++
      toString m.sources ++ " sources responded, quorum is " ++
        toString m.quorum)

/-- A read method: `results` are the sources' answers in the sources' order. -/
def read (m : MultiSourceBtcDataSource) (call : ReadCall)
    (results : List (Option call.Reply)) :
    Except PyErr call.Reply :=
  if (m.sources : Int) < m.quorum then
    networkError ("Not enough sources: have " ++ toString m.sources ++
      ", need quorum " ++
      toString m.quorum)
  else do
    let agreed ← m.requireQuorum call results
    call.accept agreed

/-- What is promised of a read: a returned value has a quorum of its own and no
other reply has one, and the order of the sources does not matter. -/
structure Sound (m : MultiSourceBtcDataSource) (call : ReadCall)
    (results : List (Option call.Reply)) :
    Prop where
  quorum : ∀ v, m.read call results = .ok v →
    m.quorum ≤ (results.filterMap id).count v
  only : ∀ v, m.read call results = .ok v → ∀ w ∈ results.filterMap id, w ≠ v →
    ((results.filterMap id).count w : Int) < m.quorum
  unordered : ∀ results', results'.Perm results →
    m.read call results' = m.read call results

/-- Enough sources gave replies of `r`'s key. -/
def Supported (m : MultiSourceBtcDataSource) (call : ReadCall)
    (results : List (Option call.Reply))
    (r : call.Reply) : Prop :=
  r ∈ results.filterMap id ∧
    m.quorum ≤ support call.key (results.filterMap id) r

/-- Replies whose keys reach the quorum lead to one answer. -/
def OneSupported (m : MultiSourceBtcDataSource) (call : ReadCall)
    (results : List (Option call.Reply)) :
    Prop :=
  ∀ r s, m.Supported call results r → m.Supported call results s →
    call.accept r = call.accept s

section Reads

variable {m : MultiSourceBtcDataSource} {results : List (Option call.Reply)}

/-- What is agreed on has support. -/
theorem requireQuorum_ok {r : call.Reply}
    (h : m.requireQuorum call results = .ok r) :
    m.Supported call results r := by
  unfold requireQuorum at h
  dsimp only at h
  split at h
  · next k r' rest hfind =>
    cases h
    have hlen := List.find?_some hfind
    obtain ⟨s, hs, _, hg⟩ := (mem_groups _).mp (List.mem_of_find?_eq_some hfind)
    have hr : r ∈ (results.filterMap id).filter (call.key · = call.key s) := by
      rw [← hg]
      exact List.mem_cons_self
    rw [List.mem_filter, decide_eq_true_eq] at hr
    rw [decide_eq_true_eq, hg, length_filter_key] at hlen
    refine ⟨hr.1, ?_⟩
    rw [support_congr hr.2]
    exact hlen
  · cases h

/-- Without support nothing is agreed on. -/
theorem requireQuorum_unsupported (h : ∀ r, ¬ m.Supported call results r) :
    m.requireQuorum call results =
      networkError ("Source quorum not reached: " ++
        toString (results.filterMap id).length ++ "/" ++
        toString m.sources ++ " sources responded, quorum is " ++
          toString m.quorum) := by
  cases hq : m.requireQuorum call results with
  | ok r => exact absurd (requireQuorum_ok hq) (h r)
  | error e =>
    unfold requireQuorum at hq
    dsimp only at hq
    split at hq
    · cases hq
    · exact hq.symm

/-- A supported reply of the first source that answered is the one agreed on. -/
theorem requireQuorum_first {r : call.Reply}
    (h : m.Supported call (some r :: results) r) :
    m.requireQuorum call (some r :: results) = .ok r := by
  have hoks : (some r :: results).filterMap id = r :: results.filterMap id :=
    rfl
  have hsup := h.2
  rw [hoks, ← length_filter_key, List.filter_cons_of_pos (by simp)] at hsup
  unfold requireQuorum
  dsimp only
  rw [hoks, groups_cons, List.find?_cons_of_pos (by simpa using hsup)]

/-- Support does not depend on the order of replies. -/
theorem Supported.perm {results' : List (Option call.Reply)} {r : call.Reply}
    (h : m.Supported call results r) (hp : results.Perm results') :
    m.Supported call results' r := by
  have hoks := hp.filterMap id
  refine ⟨hoks.mem_iff.mp h.1, ?_⟩
  rw [← support_perm hoks r]
  exact h.2

/-- Support takes enough sources. -/
theorem Supported.enough {r : call.Reply} (h : m.Supported call results r)
    (hlen : results.length = m.sources) : ¬ (m.sources : Int) < m.quorum := by
  have hle : support call.key (results.filterMap id) r ≤ results.length :=
    le_trans List.countP_le_length (List.length_filterMap_le _ _)
  have := h.2
  omega

/-- With support something is agreed on. -/
theorem Supported.agreed {r : call.Reply} (h : m.Supported call results r) :
    ∃ s, m.requireQuorum call results = .ok s := by
  have hgroup : (call.key r,
    (results.filterMap id).filter (call.key · = call.key r)) ∈
      groups call.key (results.filterMap id) :=
        (mem_groups _).mpr ⟨r, h.1, rfl, rfl⟩
  have hfind : ((groups call.key (results.filterMap id)).find?
      fun g => m.quorum ≤ (g.2.length : Int)).isSome := by
    rw [List.find?_isSome]
    refine ⟨_, hgroup, ?_⟩
    rw [decide_eq_true_eq, length_filter_key]
    exact h.2
  obtain ⟨⟨k, g⟩, hg⟩ := Option.isSome_iff_exists.mp hfind
  obtain ⟨s, hs, _, hgs⟩ := (mem_groups _).mp (List.mem_of_find?_eq_some hg)
  cases g with
  | nil =>
    -- no group is empty
    have hmem : s ∈ (results.filterMap id).filter (call.key · = call.key s) :=
      List.mem_filter.mpr ⟨hs, by simp⟩
    rw [← hgs] at hmem
    exact absurd hmem List.not_mem_nil
  | cons r' rest =>
    refine ⟨r', ?_⟩
    unfold requireQuorum
    dsimp only
    rw [hg]

/-- Some order of the sources brings a supported reply out. -/
theorem Supported.read_first {r : call.Reply} (h : m.Supported call results r)
    (hlen : results.length = m.sources) :
    ∃ results', results'.Perm results ∧
      m.read call results' = call.accept r := by
  have hmem : some r ∈ results := by
    obtain ⟨o, ho, rfl⟩ := List.mem_filterMap.mp h.1
    exact ho
  have hperm := List.perm_cons_erase hmem
  refine ⟨_, hperm.symm, ?_⟩
  rw [read, if_neg (h.enough hlen), requireQuorum_first (h.perm hperm)]
  rfl

/-- What is read: an agreed reply that was accepted, or an error that the order
cannot change. -/
theorem read_cases (m : MultiSourceBtcDataSource) (call : ReadCall)
    (results : List (Option call.Reply)) :
    (∃ r, m.Supported call results r ∧ m.read call results = call.accept r) ∨
      ∀ results', results'.Perm results →
        m.read call results' = m.read call results := by
  by_cases hfew : (m.sources : Int) < m.quorum
  · refine .inr fun results' _ => ?_
    rw [read, read, if_pos hfew, if_pos hfew]
  · cases hq : m.requireQuorum call results with
    | ok r =>
      refine .inl ⟨r, requireQuorum_ok hq, ?_⟩
      rw [read, if_neg hfew, hq]
      rfl
    | error e =>
      by_cases hsome : ∃ r, m.Supported call results r
      · obtain ⟨r, hr⟩ := hsome
        obtain ⟨s, hs⟩ := hr.agreed
        rw [hs] at hq
        cases hq
      · refine .inr fun results' hp => ?_
        have hnone : ∀ r, ¬ m.Supported call results r :=
          fun r hr => hsome ⟨r, hr⟩
        have hnone' : ∀ r, ¬ m.Supported call results' r :=
          fun r hr => hsome ⟨r, hr.perm hp⟩
        rw [read, read, if_neg hfew, if_neg hfew,
          requireQuorum_unsupported hnone,
          requireQuorum_unsupported hnone', (hp.filterMap id).length_eq]

/-- A quorum read is sound when at most one reply is supported. -/
theorem sound_iff (hlen : results.length = m.sources) :
    m.Sound call results ↔ m.OneSupported call results := by
  constructor
  · intro h r s hr hs
    obtain ⟨rs, hrs, hread⟩ := hr.read_first hlen
    obtain ⟨ss, hss, hread'⟩ := hs.read_first hlen
    rw [← hread, ← hread', h.unordered rs hrs, h.unordered ss hss]
  · intro h
    -- a returned value is supported, and so is every reply that shares its key
    have hreturned : ∀ v, m.read call results = .ok v →
        m.Supported call results v ∧ call.accept v = .ok v := by
      intro v hv
      unfold read at hv
      split at hv
      · cases hv
      · obtain ⟨r, hr, hacc⟩ := bind_ok.mp hv
        have hvr := ReadCall.accept_ok hacc
        subst hvr
        exact ⟨requireQuorum_ok hr, hacc⟩
    have hsame : ∀ v, m.read call results = .ok v →
        ∀ w, m.Supported call results w → w = v := by
      intro v hv w hw
      obtain ⟨hsup, hacc⟩ := hreturned v hv
      have heq := h w v hw hsup
      rw [hacc] at heq
      exact (ReadCall.accept_ok heq).symm
    refine ⟨fun v hv => ?_, fun v hv w hw hne => ?_, fun results' hp => ?_⟩
    · obtain ⟨hsup, _⟩ := hreturned v hv
      have hcount : support call.key (results.filterMap id) v =
          (results.filterMap id).count v := by
        refine support_eq_count fun s hs hk => hsame v hv s ⟨hs, ?_⟩
        rw [support_congr hk]
        exact hsup.2
      rw [← hcount]
      exact hsup.2
    · by_contra hmany
      refine hne (hsame v hv w ⟨hw, ?_⟩)
      have := count_le_support call.key (results.filterMap id) w
      omega
    · rcases read_cases m call results' with ⟨r, hr, hread⟩ | hfixed
      · rcases read_cases m call results with ⟨s, hs, hread'⟩ | hfixed
        · rw [hread, hread']
          exact h r s (hr.perm hp) hs
        · exact hfixed results' hp
      · exact (hfixed results hp.symm).symm

end Reads

end MultiSourceBtcDataSource

/-! ## What an answer is worth -/

/-- Quorum reads keep their promise exactly when no dust amount leads a vote
about an output above the dust cap, and the replies that reach the data source's
quorum agree: the first rule is chosen by the amount under vote, the second by
the order of the sources. -/
theorem quorum_reads_sound_iff (m : MultiSourceBtcFundingReader)
    (hmaj : (m.readers : Int) < 2 * m.quorum)
    (r : m.FundingRead) (src : MultiSourceBtcDataSource) (call : ReadCall)
    (results : List (Option call.Reply)) (hlen : results.length = src.sources) :
    (m.AmountSound r ∧ m.DepthSound r ∧ src.Sound call results) ↔
      ¬ m.DustLeads r ∧ src.OneSupported call results := by
  rw [MultiSourceBtcFundingReader.amountSound_iff hmaj,
    MultiSourceBtcDataSource.sound_iff hlen]
  constructor
  · rintro ⟨hdust, _, hone⟩
    exact ⟨hdust, hone⟩
  · rintro ⟨hdust, hone⟩
    exact ⟨hdust, m.depthSound r, hone⟩

/-- Three readers, two votes needed: the operator's policy. -/
def twoOfThree : MultiSourceBtcFundingReader := ⟨{ readers := 3 }, rfl⟩

/-- Everyone answers; the third reader lies. -/
def outvotedRead : twoOfThree.FundingRead where
  amounts := ![some 1000000, some 1000000, some 5000]
  depths := ![some 6, some 6, some 6]
  minConfirmations := 6
  truth := 1000000
  faulty := ![false, false, true]
  honest := by
    intro i hi v hv
    fin_cases i
    · cases hv; rfl
    · cases hv; rfl
    · cases hi
  few := by decide

/-- The first reader lies, the second tells the truth, the third is down. -/
def tiedRead : twoOfThree.FundingRead where
  amounts := ![some 5000, some 1000000, none]
  depths := ![some 6, some 6, some 6]
  minConfirmations := 6
  truth := 1000000
  faulty := ![true, false, false]
  honest := by
    intro i hi v hv
    fin_cases i
    · cases hi
    · cases hv; rfl
    · cases hv
  few := by decide

/-- Two sources, two votes needed. -/
def twoOfTwo : MultiSourceBtcDataSource := ⟨{ sources := 2 }, rfl⟩

/-- Two sources, either of which is believed. -/
def oneOfTwo : MultiSourceBtcDataSource := ⟨{ sources := 2, quorum := 1 }, rfl⟩

/-- The statement at a reader that is outvoted. -/
theorem quorum_reads_sound_outvoted :
    (twoOfThree.AmountSound outvotedRead ∧ twoOfThree.DepthSound outvotedRead ∧
      twoOfTwo.Sound .getTipHeight [some (100 : Nat), some (100 : Nat)]) := by
  refine (quorum_reads_sound_iff twoOfThree
    (by decide) outvotedRead twoOfTwo .getTipHeight
    [some (100 : Nat), some (100 : Nat)] rfl).mpr ⟨?_, ?_⟩
  · rintro ⟨_, ⟨v, hv, hlead⟩, _⟩
    have hread : MultiSourceBtcFundingReader.gather outvotedRead.amounts =
        [1000000, 1000000, 5000] := rfl
    rw [hread] at hlead
    have hcap : v ≤ 10000 := hv
    have hmem : v = 1000000 ∨ v = 1000000 ∨ v = 5000 := by simpa using hlead.1
    have hcount := hlead.2.1 1000000 (by decide)
    rcases hmem with rfl | rfl | rfl
    · exact absurd hcap (by decide)
    · exact absurd hcap (by decide)
    · exact absurd hcount (by decide)
  · intro a b ha hb
    have hall : ∀ x : ReadCall.Reply .getTipHeight, x ∈ [some (100 : Nat),
        some (100 : Nat)].filterMap id →
        x = (100 : Nat) := by
      intro x hx
      have hmem : x ∈ [(100 : Nat), (100 : Nat)] := hx
      rcases List.mem_cons.mp hmem with h | h
      · exact h
      · exact List.mem_singleton.mp h
    rw [hall a ha.1, hall b hb.1]

/-- A lie below the dust cap wins a tie, and a data source with a quorum of one
believes whichever of two sources stands first. -/
theorem quorum_reads_unsound :
    ¬ twoOfThree.AmountSound tiedRead ∧
      ¬ oneOfTwo.Sound .getTipHeight [some (100 : Nat), some (200 : Nat)] := by
  constructor
  · intro h
    have hread : twoOfThree.readOutputAmountSats tiedRead.amounts
        tiedRead.depths 6 = .ok 5000 := by
      rfl
    have := (h (by decide) 5000 hread).2
    exact absurd this (by decide)
  · intro h
    have hfirst : oneOfTwo.read .getTipHeight [some (100 : Nat),
      some (200 : Nat)] =
        .ok (100 : Nat) := by rfl
    have :=
      h.only _ hfirst (200 : Nat) (List.mem_cons_of_mem _ List.mem_cons_self)
      (show (200 : Nat) ≠ 100 by decide)
    exact absurd this (by decide)

end Pyrxd.Network
