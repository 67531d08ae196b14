import Pyrxd.Agent.Signer
import Pyrxd.Hd.Derivation
import Pyrxd.Swap.P2pkhSpend
import Pyrxd.Tx.RoundTrip
import Mathlib.Algebra.BigOperators.Group.Finset.Basic

/-!
# What the agent signs is what it has shown

The main theorem, `sign_shown`: whenever `AgentSigner.sign` gives a transaction,
the user has agreed to a summary first that accounts for every output and every
input of that very transaction, and nothing is signed without that.
-/

namespace Pyrxd.Agent

open Pyrxd.Lib Pyrxd.Tx Pyrxd.Hd
open Pyrxd.Swap
  (PrivateKey DraftInput Draft isP2pkh p2pkhHead p2pkhTail encodePushdata bare)

/-! ## What is claimed -/

/-- `o` is the output that `i` spends, in a transaction that hashes to the txid
`i` names. -/
def Authentic (i : TransactionInput) (o : TransactionOutput) : Prop :=
  ∃ srcBytes src, i.sourceTxid = some (hex (hash256 srcBytes).reverse) ∧
    Transaction.fromHex srcBytes = some src ∧
    0 ≤ i.sourceOutputIndex ∧ src.outputs[i.sourceOutputIndex.toNat]? = some o

/-- An input as its preimage sees it, when it spends `o`. -/
def spending (i : TransactionInput) (o : TransactionOutput) :
    TransactionInput :=
  { i with satoshis := o.satoshis, lockingScript := some o.lockingScript }

def outpoint (i : TransactionInput) : Option String × Int :=
  (i.sourceTxid, i.sourceOutputIndex)

section Claim

variable {Key Secret : Type} (hd : HdCurve Key Secret)
  (wallet : HdWallet Secret)

/-- The P2PKH script of a key's. -/
def keyScript (key : PrivateKey Secret) : Bytes :=
  p2pkhHead ++
    hd.hash160 (hd.format (hd.publicKey key.secret) key.compressed) ++ p2pkhTail

/-- A script that pays a key the wallet derives. -/
def Owned (script : Bytes) : Prop :=
  ∃ change index key, wallet.privkeyFor hd change index = .ok key ∧
    script = keyScript hd key

/-- A summary accounts for the outputs: those in `own` pay the wallet and are
the change, and each of the others is listed, with where it goes and what it
carries. -/
structure Accounts (s : SpendSummary) (outputs : List TransactionOutput)
    (own : Nat → Bool) : Prop where
  change : ∀ (k : Nat) o, outputs[k]? = some o → own k = true →
    Owned hd wallet o.lockingScript
  changeTotal : s.changeTotal = ((outputs.zipIdx.filter fun p => own p.2).map
    fun p => p.1.satoshis.getD 0).sum
  external : s.externalOutputs =
      (outputs.zipIdx.filter fun p => ¬ own p.2).map fun p =>
    ⟨p.2, destOf p.1, p.1.satoshis.getD 0⟩
  attributable : ∀ (k : Nat) o, outputs[k]? = some o → own k = false →
    isP2pkh o.lockingScript = true ∨ o.lockingScript.take 1 = [0x6A]
  totalExternal : s.totalExternal =
    (s.externalOutputs.map ExternalOutput.amount).sum

/-- Input `k` of `t` is signed, for all of `t` and the outputs it spends, by the
wallet's key that owns `o`. -/
def SignedByOwner (t : Transaction) (spent : List TransactionOutput) (k : Nat)
    (i : TransactionInput)
    (o : TransactionOutput) : Prop :=
  ∃ change index key message signaturePush publicKeyPush,
    wallet.privkeyFor hd change index = .ok key ∧
      o.lockingScript = keyScript hd key ∧
    txPreimage k (List.zipWith spending t.inputs spent) t.outputs
      t.version t.locktime = .ok message ∧ encodePushdata
      (hd.sign key.secret (hash256 message) ++ [0x41]) = .ok signaturePush ∧
    encodePushdata (hd.format (hd.publicKey key.secret) key.compressed) =
      .ok publicKeyPush ∧
    i.unlockingScript = some (signaturePush ++ publicKeyPush)

/-- The transaction of a result is the one the summary is about. -/
structure SignedAsShown (s : SpendSummary) (r : SignedResult) : Prop where
  shown : ∃ raw t spent own, Lib.fromHex r.signedTxHex = some raw ∧
    Transaction.fromHex raw = some t ∧
    Accounts hd wallet s t.outputs own ∧
    List.Forall₂ Authentic t.inputs spent ∧
    ((t.inputs.map outpoint).Nodup → ∃ value : Option String × Int → Int,
      List.Forall₂ (fun i o => o.satoshis = some (value (outpoint i)))
        t.inputs spent ∧
      s.inputTotal = ∑ p ∈ (t.inputs.map outpoint).toFinset, value p) ∧
    ∀ (k : Nat) i o, t.inputs[k]? = some i → spent[k]? = some o →
      SignedByOwner hd wallet t spent k i o
  fee : s.fee = s.inputTotal - s.totalExternal - s.changeTotal
  covered : 0 ≤ s.fee

end Claim

/-! ## Preparation -/

section Prepare

variable {Key Secret : Type} {hd : HdCurve Key Secret}
  {wallet : HdWallet Secret}

/-- The 25-byte pattern is the P2PKH script of the hash inside it. -/
theorem isP2pkh_ok {script : Bytes} (h : isP2pkh script = true) :
    script = p2pkhHead ++ ownerOf script ++ p2pkhTail := by
  unfold isP2pkh at h
  simp only [Bool.and_eq_true, beq_iff_eq] at h
  obtain ⟨⟨hlen, hhead⟩, htail⟩ := h
  rw [← hhead, ← htail, ownerOf]
  have hsplit : script.drop 3 = (script.drop 3).take 20 ++ script.drop 23 := by
    rw [show script.drop 23 =
      (script.drop 3).drop 20 by rw [List.drop_drop], List.take_append_drop]
  rw [List.append_assoc, ← hsplit, List.take_append_drop]

/-- An input as it was parsed, ready to be signed for `o`. -/
def attached (i : TransactionInput) (o : TransactionOutput) :
    TransactionInput :=
  { spending i o with sighash := sighashAllForkid, unlockingScript := none }

/-- What a prepared input is. -/
def Attached (hd : HdCurve Key Secret) (wallet : HdWallet Secret)
    (i : TransactionInput) (t : DraftInput Secret) : Prop :=
  ∃ o change index key, Authentic i o ∧ t.input = attached i o ∧
    t.template = some key ∧
    wallet.privkeyFor hd change index = .ok key ∧
      o.lockingScript = keyScript hd key

/-- An input the signer prepares carries the output it spends and the key of its
coordinates. -/
theorem prepareInput_ok {i : TransactionInput} {inp : InputToSign}
    {t : DraftInput Secret}
    (h : prepareInput hd wallet i inp = .ok t) : Attached hd wallet i t := by
  unfold prepareInput at h
  dsimp only at h
  obtain ⟨srcBytes, -, h⟩ := bind_ok.mp h
  obtain ⟨htxid, h⟩ := refuseIf_bind_ok.mp h
  cases hsrc : Transaction.fromHex srcBytes with
  | none =>
    rw [hsrc] at h
    cases h
  | some src =>
    rw [hsrc] at h
    dsimp only at h
    -- a negative index is refused, and so is one beyond the source's outputs
    by_cases hvout : 0 ≤ i.sourceOutputIndex
    · rw [if_pos hvout] at h
      cases ho : src.outputs[i.sourceOutputIndex.toNat]? with
      | none =>
        rw [ho] at h
        cases h
      | some o =>
        rw [ho] at h
        obtain ⟨hp2pkh, h⟩ := refuseIf_bind_ok.mp h
        obtain ⟨-, -, h⟩ := bind_ok.mp h
        obtain ⟨key, hkey, h⟩ := bind_ok.mp h
        obtain ⟨howner, h⟩ := refuseIf_bind_ok.mp h
        obtain ⟨-, h⟩ := refuseIf_bind_ok.mp h
        cases h
        refine ⟨o, inp.change, inp.index, key, ⟨srcBytes, src,
          (not_not.mp htxid).symm, hsrc, hvout, ho⟩, rfl, rfl, hkey, ?_⟩
        rw [keyScript, not_not.mp howner]
        exact isP2pkh_ok (by rwa [Bool.not_eq_false] at hp2pkh)
    · rw [if_neg hvout] at h
      cases h

/-- Preparing an input again prepares the input that was parsed. -/
theorem Attached.again {i : TransactionInput} {t t' : DraftInput Secret}
    (h : Attached hd wallet i t)
    (h' : Attached hd wallet t.input t') : Attached hd wallet i t' := by
  obtain ⟨o, -, -, -, -, ht, -⟩ := h
  obtain ⟨o', change, index, key, hauth, hinput, htemplate, hkey, howner⟩ := h'
  rw [ht] at hauth hinput
  exact ⟨o', change, index, key, hauth, hinput, htemplate, hkey, howner⟩

/-- An input that is still as it was parsed, or prepared. -/
def Parsed (hd : HdCurve Key Secret) (wallet : HdWallet Secret)
    (i : TransactionInput) (t : DraftInput Secret) : Prop :=
  t = ⟨i, none⟩ ∨ Attached hd wallet i t

/-- A draft of the transaction that was parsed. -/
structure Preparing (hd : HdCurve Key Secret) (wallet : HdWallet Secret)
    (t : Transaction) (d : Draft Secret) :
    Prop where
  outputs : d.outputs = t.outputs
  version : d.version = t.version
  locktime : d.locktime = t.locktime
  length : d.inputs.length = t.inputs.length
  inputs : ∀ (k : Nat) i u, t.inputs[k]? = some i → d.inputs[k]? = some u →
    Parsed hd wallet i u

/-- Input `k` is ready to be signed. -/
def ReadyAt (hd : HdCurve Key Secret) (wallet : HdWallet Secret)
    (t : Transaction) (d : Draft Secret) (k : Nat) : Prop :=
  ∀ i u, t.inputs[k]? = some i → d.inputs[k]? = some u → Attached hd wallet i u

variable {t : Transaction}

/-- One turn prepares its input and keeps those that are. -/
theorem verifyAndPrepareInput_ok {d d' : Draft Secret} {inp : InputToSign}
    (hprep : Preparing hd wallet t d)
    (h : verifyAndPrepareInput hd wallet d inp = .ok d') :
    Preparing hd wallet t d' ∧
      ∀ k : Nat, (k : Int) = inp.inputIndex ∨ ReadyAt hd wallet t d k →
        ReadyAt hd wallet t d' k := by
  unfold verifyAndPrepareInput at h
  -- a negative index is refused before the list is read
  by_cases hpos : 0 ≤ inp.inputIndex
  · rw [if_pos hpos] at h
    obtain ⟨n, hn⟩ := Int.eq_ofNat_of_zero_le hpos
    rw [hn] at h ⊢
    rw [Int.toNat_natCast] at h
    cases hget : d.inputs[n]? with
    | none =>
      rw [hget] at h
      cases h
    | some u =>
      rw [hget] at h
      obtain ⟨v, hv, h⟩ := bind_ok.mp h
      cases h
      have hlt : n < d.inputs.length := (List.getElem?_eq_some_iff.mp hget).1
      have hset : ∀ k i w, t.inputs[k]? = some i →
          (d.inputs.set n v)[k]? = some w →
          (n = k ∧ Attached hd wallet i w) ∨
            (n ≠ k ∧ d.inputs[k]? = some w) := by
        intro k i w hi hw
        rw [List.getElem?_set] at hw
        by_cases hk : n = k
        · subst hk
          rw [if_pos rfl, if_pos hlt] at hw
          cases hw
          refine .inl ⟨rfl, ?_⟩
          rcases hprep.inputs n i u hi hget with hu | hu
          · rw [hu] at hv
            exact prepareInput_ok hv
          · exact hu.again (prepareInput_ok hv)
        · rw [if_neg hk] at hw
          exact .inr ⟨hk, hw⟩
      refine ⟨⟨hprep.outputs, hprep.version, hprep.locktime, ?_, ?_⟩, ?_⟩
      · show (d.inputs.set n v).length = _
        rw [List.length_set, hprep.length]
      · intro k i w hi hw
        rcases hset k i w hi hw with ⟨-, ha⟩ | ⟨-, hw'⟩
        · exact .inr ha
        · exact hprep.inputs k i w hi hw'
      · intro k hk i w hi hw
        rcases hset k i w hi hw with ⟨-, ha⟩ | ⟨hne, hw'⟩
        · exact ha
        · rcases hk with hk | hk
          · exact absurd (Int.ofNat.inj hk).symm hne
          · exact hk i w hi hw'
  · rw [if_neg hpos] at h
    cases h

/-- The loop prepares every input the request names. -/
theorem prepareInputs_ok {inputs : List InputToSign} :
    ∀ {d d' : Draft Secret}, Preparing hd wallet t d →
    prepareInputs hd wallet d inputs = .ok d' → Preparing hd wallet t d' ∧
      ∀ k : Nat, (k : Int) ∈ inputs.map InputToSign.inputIndex ∨
        ReadyAt hd wallet t d k →
        ReadyAt hd wallet t d' k := by
  induction inputs with
  | nil =>
    intro d d' hprep h
    cases h
    refine ⟨hprep, fun k hk => ?_⟩
    rcases hk with hk | hk
    · cases hk
    · exact hk
  | cons inp rest ih =>
    intro d d' hprep h
    obtain ⟨e, he, h⟩ := bind_ok.mp h
    obtain ⟨hprep', hstep⟩ := verifyAndPrepareInput_ok hprep he
    obtain ⟨hprep'', hrest⟩ := ih hprep' h
    refine ⟨hprep'', fun k hk => hrest k ?_⟩
    rcases hk with hk | hk
    · rw [List.map_cons, List.mem_cons] at hk
      rcases hk with hk | hk
      · exact .inr (hstep k (.inl hk))
      · exact .inl hk
    · exact .inr (hstep k (.inr hk))

/-- A request that covers everything names every input. -/
theorem coversAll_mem {inputs : List InputToSign} {n : Nat}
    (h : coversAll inputs n) {k : Nat} (hk : k < n) :
    (k : Int) ∈ inputs.map InputToSign.inputIndex := by
  have hperm :=
    List.perm_insertionSort (· ≤ ·) (inputs.map InputToSign.inputIndex)
  rw [show (inputs.map InputToSign.inputIndex).insertionSort (· ≤ ·) = _
    from h] at hperm
  exact hperm.mem_iff.mp (List.mem_map.mpr ⟨k, List.mem_range.mpr hk, rfl⟩)

/-- What the parser accepts is a canonical unsigned transaction whose every
input the request covers. -/
theorem parseUnsigned_ok {request : SigningRequest} {d : Draft Secret}
    (h : parseUnsigned request = .ok d) :
    ∃ w : ReadTx, d = ⟨w.tx.inputs.map fun i => ⟨i, none⟩, w.tx.outputs,
      w.tx.version, w.tx.locktime⟩ ∧
      coversAll request.inputs w.tx.inputs.length := by
  obtain ⟨bytes, -, h⟩ := bind_ok.mp h
  cases hparse : Transaction.fromHex bytes with
  | none =>
    rw [hparse] at h
    cases h
  | some tx =>
    rw [hparse] at h
    obtain ⟨-, h⟩ := refuseIf_bind_ok.mp h
    obtain ⟨hall, h⟩ := refuseIf_bind_ok.mp h
    cases h
    obtain ⟨w, -, rfl⟩ := fromHex_some.mp hparse
    exact ⟨w, rfl, not_not.mp hall⟩

/-- **Every input is attached** to the output it spends before the user is
asked. -/
theorem prepared {request : SigningRequest} {d d' : Draft Secret}
    (h : parseUnsigned request = .ok d)
    (h' : prepareInputs hd wallet d request.inputs = .ok d') :
      ∃ w : ReadTx, d'.outputs = w.tx.outputs ∧
      d'.version = w.tx.version ∧ d'.locktime = w.tx.locktime ∧
      List.Forall₂ (Attached hd wallet) w.tx.inputs d'.inputs := by
  obtain ⟨w, rfl, hall⟩ := parseUnsigned_ok h
  have hstart : Preparing hd wallet w.tx
      ⟨w.tx.inputs.map fun i => ⟨i, none⟩, w.tx.outputs, w.tx.version,
        w.tx.locktime⟩ := by
    refine ⟨rfl, rfl, rfl, List.length_map _, fun k i u hi hu => ?_⟩
    rw [List.getElem?_map, hi] at hu
    cases hu
    exact .inl rfl
  obtain ⟨hend, hready⟩ := prepareInputs_ok hstart h'
  refine ⟨w, hend.outputs, hend.version, hend.locktime, ?_⟩
  refine List.forall₂_iff_get.mpr ⟨hend.length.symm, fun k hk hk' => ?_⟩
  exact hready k (.inl (coversAll_mem hall hk)) _ _
    (List.getElem?_eq_getElem hk) (List.getElem?_eq_getElem hk')

end Prepare

/-! ## Requests in order -/

section InOrder

variable {Key Secret : Type} {hd : HdCurve Key Secret}
  {wallet : HdWallet Secret}

/-- An entry of a request that is as it should be: with the transaction its
input spends, coordinates in range, and the key at these coordinates is the one
that owns the output. -/
structure InOrder (hd : HdCurve Key Secret) (wallet : HdWallet Secret)
    (i : TransactionInput) (inp : InputToSign)
    (o : TransactionOutput) (key : PrivateKey Secret) : Prop where
  source : ∃ srcBytes src, Lib.fromHex inp.sourceTxHex = some srcBytes ∧
    i.sourceTxid = some (hex (hash256 srcBytes).reverse) ∧
      Transaction.fromHex srcBytes = some src ∧
    0 ≤ i.sourceOutputIndex ∧ src.outputs[i.sourceOutputIndex.toNat]? = some o
  chain : inp.change = 0 ∨ inp.change = 1
  index : 0 ≤ inp.index ∧ inp.index ≤ maxDerivationIndex
  derived : wallet.privkeyFor hd inp.change inp.index = .ok key
  owner : o.lockingScript = keyScript hd key
  hashed : (hd.hash160
    (hd.format (hd.publicKey key.secret) key.compressed)).length = 20
  sighash : inp.sighash = sighashAllForkid

/-- Coordinates are the receive or the change chain with an index in range. -/
theorem checkCoords_ok {change index : Int} {what : String} {u : Unit} :
    checkCoords change index what = .ok u ↔ (change = 0 ∨ change = 1) ∧
    0 ≤ index ∧ index ≤ maxDerivationIndex := by
  rw [checkCoords, refuseIf_bind_ok, refuseIf_ok, not_not, not_not]

/-- The owner of a P2PKH lock is the hash it was made of. -/
theorem ownerOf_lock {pkh : Bytes} (h : pkh.length = 20) :
    ownerOf (p2pkhHead ++ pkh ++ p2pkhTail) = pkh := by
  have hdrop : (p2pkhHead ++ pkh ++ p2pkhTail).drop 3 = pkh ++ p2pkhTail := rfl
  rw [ownerOf, hdrop, List.take_left' h]

/-- Such an entry prepares its input. -/
theorem InOrder.prepared {i : TransactionInput}
    {inp : InputToSign} {o : TransactionOutput}
    {key : PrivateKey Secret} (h : InOrder hd wallet i inp o key) :
    prepareInput hd wallet i inp = .ok ⟨attached i o, some key⟩ := by
  obtain ⟨srcBytes, src, hsource, htxid, hparse, hvout, ho⟩ := h.source
  have howner := h.owner
  rw [keyScript] at howner
  have hp2pkh := (Swap.isP2pkh_lock h.hashed).1
  have hpkh := ownerOf_lock h.hashed
  rw [← howner] at hp2pkh hpkh
  unfold prepareInput
  dsimp only
  refine bind_ok.mpr ⟨srcBytes, by rw [bytesFromHex, hsource], ?_⟩
  refine refuseIf_bind_ok.mpr ⟨not_not.mpr htxid.symm, ?_⟩
  rw [hparse]
  dsimp only
  rw [if_pos hvout, ho]
  dsimp only
  refine refuseIf_bind_ok.mpr ⟨by rw [hp2pkh]; exact Bool.noConfusion, ?_⟩
  refine bind_ok.mpr ⟨(), checkCoords_ok.mpr ⟨h.chain, h.index⟩, ?_⟩
  refine bind_ok.mpr ⟨key, h.derived, ?_⟩
  refine refuseIf_bind_ok.mpr ⟨not_not.mpr hpkh.symm, ?_⟩
  exact refuseIf_bind_ok.mpr ⟨not_not.mpr h.sighash, rfl⟩

/-- A request with one such entry for every input, in the order of the inputs,
prepares them all. -/
theorem prepareInputs_returns {α : Type} {parsed : α → TransactionInput}
    {entry : α → Nat → InputToSign}
    {ready : α → DraftInput Secret} {d : Draft Secret} {rest : List α} :
    ∀ {done : List (DraftInput Secret)},
    (∀ a ∈ rest, ∀ i : Nat, (entry a i).inputIndex = i ∧ prepareInput hd wallet
      (parsed a) (entry a i) = .ok (ready a)) → prepareInputs hd wallet
      { d with inputs := done ++ rest.map fun a => ⟨parsed a, none⟩ }
        (rest.mapIdx fun i a => entry a (done.length + i)) =
          .ok { d with inputs := done ++ rest.map ready } := by
  -- the loop: the inputs done are ready, the rest still as parsed
  induction rest with
  | nil =>
    intro done _
    rfl
  | cons a rest ih =>
    intro done h
    obtain ⟨hindex, hready⟩ := h a List.mem_cons_self done.length
    have hget : (done ++ (a :: rest).map fun a =>
        (⟨parsed a, none⟩ : DraftInput Secret))[done.length]? =
        some ⟨parsed a, none⟩ := by
      rw [List.getElem?_append_right (Nat.le_refl _), Nat.sub_self]
      rfl
    have hset : (done ++ (a :: rest).map fun a =>
        (⟨parsed a, none⟩ : DraftInput Secret)).set done.length (ready a) =
        done ++ [ready a] ++ rest.map fun a => ⟨parsed a, none⟩ := by
      rw [List.set_append_right _ _ (Nat.le_refl _), Nat.sub_self,
        List.append_assoc]
      rfl
    have hturn : verifyAndPrepareInput hd wallet
        { d with inputs := done ++ (a :: rest).map fun a => ⟨parsed a, none⟩ }
        (entry a (done.length + 0)) =
        .ok { d with inputs := done ++ [ready a] ++ rest.map fun a => ⟨parsed a,
          none⟩ } := by
      rw [Nat.add_zero, verifyAndPrepareInput, hindex,
        if_pos (Int.natCast_nonneg _), Int.toNat_natCast]
      dsimp only
      rw [hget]
      dsimp only
      rw [hready, ok_bind, hset]
      rfl
    have hih := @ih (done ++ [ready a]) fun b hb =>
      h b (List.mem_cons_of_mem _ hb)
    rw [List.mapIdx_cons, prepareInputs, hturn, ok_bind, List.map_cons]
    have hentries : (fun (i : Nat) b => entry b (done.length + (i + 1))) =
        fun (i : Nat) b => entry b ((done ++ [ready a]).length + i) := by
      funext i b
      rw [List.length_append, List.length_singleton, Nat.add_right_comm,
        Nat.add_assoc]
    rw [hentries, hih, List.append_assoc, List.singleton_append]

end InOrder

/-! ## The summary -/

section Summary

variable {Key Secret : Type} {hd : HdCurve Key Secret}
  {wallet : HdWallet Secret}

/-- An address is decoded to the hash of its key. -/
theorem addressToPublicKeyHash_ok {key : Key} {network : Network} {pkh : Bytes}
    (h : addressToPublicKeyHash (publicKeyAddress hd key network) = .ok pkh) :
    pkh = hd.hash160 (hd.format key true) := by
  unfold addressToPublicKeyHash decodeAddress at h
  obtain ⟨⟨p, net⟩, hdecode, h⟩ := bind_ok.mp h
  cases h
  split at hdecode
  · cases hdecode
  · rw [publicKeyAddress, base58checkDecode_encode, ok_bind] at hdecode
    exact (Prod.mk.inj (Except.ok.inj hdecode)).1.symm

/-- A claim that verifies is about an output of the wallet's. -/
theorem verifyClaim_ok {outputs : List TransactionOutput}
    {claim : ChangeClaim} {n : Nat}
    (h : verifyClaim hd wallet outputs claim = .ok (n : Int)) :
    ∃ o, outputs[n]? = some o ∧ Owned hd wallet o.lockingScript := by
  unfold verifyClaim at h
  -- a negative index would count from the end, and is refused
  by_cases hpos : 0 ≤ claim.outputIndex
  · rw [if_pos hpos] at h
    cases hget : outputs[claim.outputIndex.toNat]? with
    | none =>
      rw [hget] at h
      cases h
    | some o =>
      rw [hget] at h
      obtain ⟨-, -, h⟩ := bind_ok.mp h
      obtain ⟨addr, haddr, h⟩ := bind_ok.mp h
      obtain ⟨pkh, hpkh, h⟩ := bind_ok.mp h
      obtain ⟨hown, h⟩ := refuseIf_bind_ok.mp h
      have hindex : claim.outputIndex = n := Except.ok.inj h
      rw [hindex, Int.toNat_natCast] at hget
      obtain ⟨child, hchild, haddr⟩ := bind_ok.mp haddr
      cases haddr
      have hhash := addressToPublicKeyHash_ok hpkh
      refine ⟨o, hget, claim.change, claim.index, ⟨child.key, true⟩,
        bind_ok.mpr ⟨child, hchild, rfl⟩, ?_⟩
      have hp2pkh : isP2pkh o.lockingScript = true := by
        by_contra hne
        exact hown (.inl (by rwa [Bool.not_eq_true] at hne))
      have howner : ownerOf o.lockingScript = pkh := by
        by_contra hne
        exact hown (.inr hne)
      rw [keyScript, ← hhash, ← howner]
      exact isP2pkh_ok hp2pkh
  · rw [if_neg hpos] at h
    cases h

/-- A readable amount is the one the output declares. -/
theorem amountOf_ok {v : Option Int} {n : Int} (h : amountOf v = .ok n) :
    v = some n := by
  cases v with
  | none => cases h
  | some m =>
    cases h
    rfl

/-- The loop over the outputs splits them by the verified claims. -/
theorem attributeOutputs_ok {own : List Int}
    {outputs : List TransactionOutput} :
    ∀ {idx : Nat} {external : List ExternalOutput} {change : Int},
      attributeOutputs own idx outputs = .ok (external, change) →
      change =
        (((outputs.zipIdx idx).filter fun p => decide ((p.2 : Int) ∈ own)).map
        fun p => p.1.satoshis.getD 0).sum ∧
      external = ((outputs.zipIdx idx).filter fun p =>
        ¬ decide ((p.2 : Int) ∈ own)).map
        (fun p => ⟨p.2, destOf p.1, p.1.satoshis.getD 0⟩) ∧
      ∀ p ∈ outputs.zipIdx idx, (p.2 : Int) ∉ own →
        isP2pkh p.1.lockingScript = true ∨
          p.1.lockingScript.take 1 = [0x6A] := by
  -- the loop, output by output: the wallet's own count as change, the others
  -- are listed
  induction outputs with
  | nil =>
    intro idx external change h
    cases h
    exact ⟨rfl, rfl, nofun⟩
  | cons o rest ih =>
    intro idx external change h
    obtain ⟨amount, hamount, h⟩ := bind_ok.mp h
    have hvalue := amountOf_ok hamount
    rw [List.zipIdx_cons]
    by_cases hown : (idx : Int) ∈ own
    · rw [if_pos hown] at h
      obtain ⟨⟨ext, total⟩, hrest, h⟩ := bind_ok.mp h
      cases h
      obtain ⟨htotal, hext, hall⟩ := ih hrest
      refine ⟨?_, ?_, ?_⟩
      · rw [List.filter_cons_of_pos (by exact decide_eq_true hown),
          List.map_cons, List.sum_cons, ← htotal, hvalue]
        rfl
      · rw [List.filter_cons_of_neg (by simpa using hown), hext]
      · intro p hp hnot
        rcases List.mem_cons.mp hp with rfl | hp
        · exact absurd hown hnot
        · exact hall p hp hnot
    · rw [if_neg hown] at h
      obtain ⟨hscript, h⟩ := refuseIf_bind_ok.mp h
      obtain ⟨⟨ext, total⟩, hrest, h⟩ := bind_ok.mp h
      cases h
      obtain ⟨htotal, hext, hall⟩ := ih hrest
      refine ⟨?_, ?_, ?_⟩
      · rw [List.filter_cons_of_neg (by simpa using hown), htotal]
      · rw [List.filter_cons_of_pos (by simpa using hown), List.map_cons,
          ← hext, hvalue]
        rfl
      · intro p hp hnot
        rcases List.mem_cons.mp hp with rfl | hp
        · by_cases hp2pkh : isP2pkh o.lockingScript = true
          · exact .inl hp2pkh
          · refine .inr (not_not.mp fun hne =>
              hscript ⟨by rwa [Bool.not_eq_true] at hp2pkh, hne⟩)
        · exact hall p hp hnot

/-- What the user is shown. -/
theorem summarize_ok {d : Draft Secret} {request : SigningRequest}
    {s : SpendSummary}
    (h : summarize hd wallet d request = .ok s) :
    (∃ own, Accounts hd wallet s d.outputs own) ∧
      s.fee = s.inputTotal - s.totalExternal - s.changeTotal ∧ 0 ≤ s.fee ∧
      ∃ amounts, d.inputs.mapM (fun t => amountOf t.input.satoshis) =
        .ok amounts ∧ s.inputTotal = amounts.sum := by
  obtain ⟨own, hclaims, h⟩ := bind_ok.mp h
  obtain ⟨⟨external, change⟩, hattr, h⟩ := bind_ok.mp h
  obtain ⟨amounts, hamounts, h⟩ := bind_ok.mp h
  obtain ⟨hfee, h⟩ := refuseIf_bind_ok.mp h
  cases h
  obtain ⟨hchange, hext, hall⟩ := attributeOutputs_ok hattr
  refine ⟨⟨fun k => decide ((k : Int) ∈ own), ?_⟩, ?_, ?_, amounts,
    hamounts, rfl⟩
  · refine ⟨fun k o ho hown => ?_, hchange, hext, fun k o ho hown => ?_, rfl⟩
    · obtain ⟨claim, -, hclaim⟩ := mapM_mem hclaims (of_decide_eq_true hown)
      obtain ⟨o', ho', howned⟩ := verifyClaim_ok hclaim
      rw [ho, Option.some.injEq] at ho'
      rw [ho']
      exact howned
    · refine hall (o, k) ?_ (of_decide_eq_false hown)
      exact List.mem_zipIdx_iff_getElem?.mpr ho
  · show amounts.sum - change - (external.map ExternalOutput.amount).sum =
      amounts.sum - (external.map ExternalOutput.amount).sum - change
    omega
  · exact not_lt.mp hfee

end Summary

/-! ## Signing -/

section Sign

variable {Key Secret : Type} {hd : HdCurve Key Secret}
  {wallet : HdWallet Secret}

/-- What is read back of an input, when the one that was written was read
itself. -/
theorem sameInput_inputOf {u v : WireIn} {o : TransactionOutput} {script : Bytes}
    (h : SameInput { attached (inputOf u) o with unlockingScript := some script } (inputOf v)) :
    inputOf v = { inputOf u with unlockingScript := some script } := by
  have htxid : txidBytes (inputOf v).sourceTxid =
      txidBytes (inputOf u).sourceTxid := h.txid
  rw [inputOf, inputOf, txidBytes, txidBytes, fromHex_hex, fromHex_hex,
    Except.ok.injEq] at htxid
  have hprevout := List.reverse_injective htxid
  have hindex : (inputOf v).sourceOutputIndex = (inputOf u).sourceOutputIndex :=
    h.index
  have hscript : (inputOf v).unlockingScript = some script := h.script
  have hsequence : (inputOf v).sequence = (inputOf u).sequence := h.sequence
  have hv : inputOf v = ⟨(inputOf v).sourceTxid, (inputOf v).sourceOutputIndex,
      (inputOf v).unlockingScript, (inputOf v).sequence, none, none,
      sighashAllForkid⟩ := rfl
  rw [hv, hindex, hscript, hsequence]
  rw [show (inputOf v).sourceTxid = (inputOf u).sourceTxid
    from congrArg (fun b => some (hex b)) hprevout]
  rfl

/-- The sighash byte behind every signature. -/
theorem flagBytes : toBytesLe 1 (sighashAllForkid : Int) = .ok
    [0x41] := by decide

/-- The script that the owner of `o` makes for input `k` of a draft. -/
def UnlockedBy (hd : HdCurve Key Secret) (wallet : HdWallet Secret)
    (d : Draft Secret) (k : Nat)
    (o : TransactionOutput) (script : Bytes) : Prop :=
  ∃ change index key message signaturePush publicKeyPush,
    wallet.privkeyFor hd change index = .ok key ∧
      o.lockingScript = keyScript hd key ∧
    d.preimage k = .ok message ∧
    encodePushdata (hd.sign key.secret (hash256 message) ++ [0x41]) =
      .ok signaturePush ∧
    encodePushdata (hd.format (hd.publicKey key.secret) key.compressed) =
      .ok publicKeyPush ∧
    script = signaturePush ++ publicKeyPush

/-- A prepared input is signed by its owner. -/
theorem signTurn_attached {d : Draft Secret} {k : Nat} {i : TransactionInput}
    {t t' : DraftInput Secret}
    (ha : Attached hd wallet i t)
    (h : Swap.signTurn hd.toCurve d k t = .ok t') :
    ∃ o script, Authentic i o ∧ t.input = attached i o ∧
    UnlockedBy hd wallet d k o script ∧
      t'.input = { attached i o with unlockingScript := some script } := by
  obtain ⟨o, change, index, key, hauth, hinput, htemplate, hkey, howner⟩ := ha
  unfold Swap.signTurn at h
  rw [hinput, htemplate] at h
  obtain ⟨script, hscript, h⟩ := bind_ok.mp h
  cases h
  obtain ⟨message, hmessage, hscript⟩ := bind_ok.mp hscript
  obtain ⟨flag, hflag, hscript⟩ := bind_ok.mp hscript
  rw [show (attached i o).sighash = sighashAllForkid from rfl, flagBytes,
    Except.ok.injEq] at hflag
  rw [← hflag] at hscript
  obtain ⟨signaturePush, hsig, hscript⟩ := bind_ok.mp hscript
  obtain ⟨publicKeyPush, hpub, hscript⟩ := bind_ok.mp hscript
  cases hscript
  exact ⟨o, _, hauth, hinput, ⟨change, index, key, message, signaturePush,
    publicKeyPush, hkey, howner, hmessage, hsig, hpub, rfl⟩, rfl⟩

/-- A push takes five bytes more than its data, at most, and its data are
counted in four. -/
theorem length_encodePushdata {data push : Bytes}
    (h : encodePushdata data = .ok push) :
    push.length ≤ 0x100000004 := by
  match data with
  | [] =>
    cases h
    decide
  | [b] =>
    rw [encodePushdata] at h
    by_cases hsmall : 1 ≤ b ∧ b ≤ 16
    · rw [if_pos hsmall] at h
      cases h
      exact Nat.le_of_lt (by decide : 1 < 0x100000004)
    · rw [if_neg hsmall] at h
      by_cases hminus : b = 0x81
      · rw [if_pos hminus] at h
        cases h
        decide
      · rw [if_neg hminus] at h
        cases h
        exact Nat.le_of_lt (by decide : 2 < 0x100000004)
  | a :: b :: rest =>
    obtain ⟨code, hcode, h⟩ := bind_ok.mp h
    cases h
    unfold Swap.getPushdataCode at hcode
    rw [List.length_append]
    split at hcode
    · cases hcode
      rw [List.length_singleton]
      omega
    · split at hcode
      · cases hcode
        rw [List.length_cons, length_leBytes]
        omega
      · split at hcode
        · cases hcode
          rw [List.length_cons, length_leBytes]
          omega
        · split at hcode
          · cases hcode
            rw [List.length_cons, length_leBytes]
            omega
          · cases hcode

/-- An unlocking script stays below the length a varint can carry. -/
theorem UnlockedBy.length {d : Draft Secret} {k : Nat} {o : TransactionOutput}
    {script : Bytes}
    (h : UnlockedBy hd wallet d k o script) : script.length < 256 ^ 8 := by
  obtain ⟨_, _, _, _, sig, pub, -, -, -, hsig, hpub, rfl⟩ := h
  have h1 := length_encodePushdata hsig
  have h2 := length_encodePushdata hpub
  rw [List.length_append]
  omega

/-- What an attached input spends. -/
def outputSpent (t : DraftInput Secret) : TransactionOutput :=
  ⟨t.input.lockingScript.getD [], t.input.satoshis⟩

/-- The output a prepared input spends is the one attached to it. -/
theorem outputSpent_attached {t : DraftInput Secret} {i : TransactionInput}
    {o : TransactionOutput}
    (h : t.input = attached i o) : outputSpent t = o := by
  rw [outputSpent, h]
  rfl

/-- A draft whose inputs are those that `w` was read with, each attached. -/
structure AllAttached (hd : HdCurve Key Secret) (wallet : HdWallet Secret)
    (w : ReadTx) (d : Draft Secret) : Prop where
  outputs : d.outputs = w.tx.outputs
  version : d.version = w.tx.version
  locktime : d.locktime = w.tx.locktime
  inputs : List.Forall₂ (Attached hd wallet) w.tx.inputs d.inputs

/-- Signing fills in every script, and changes nothing else. -/
theorem AllAttached.sign {w : ReadTx} {d signed : Draft Secret}
    (ha : AllAttached hd wallet w d)
    (h : Swap.sign hd.toCurve d = .ok signed) :
    signed.tx.outputs = w.tx.outputs ∧
      signed.tx.version = w.tx.version ∧ signed.tx.locktime = w.tx.locktime ∧
      List.Forall₂ (fun i i' => ∃ o script, i' =
        { attached i o with unlockingScript := some script } ∧
        script.length < 256 ^ 8) w.tx.inputs signed.tx.inputs ∧
      ∀ (k : Nat) i, w.tx.inputs[k]? = some i → ∃ o script, Authentic i o ∧
        (d.inputs.map outputSpent)[k]? = some o ∧ signed.tx.inputs[k]? =
        some { attached i o with unlockingScript := some script } ∧
        UnlockedBy hd wallet d k o script := by
  obtain ⟨hsame, heach⟩ := Swap.sign_keeps h
  obtain ⟨hlen, hget⟩ := Swap.signEach_ok heach
  -- an input keeps its place, its outpoint and its sequence while it is signed
  have hall : ∀ (k : Nat) i, w.tx.inputs[k]? = some i →
      ∃ o script, Authentic i o ∧
      (d.inputs.map outputSpent)[k]? = some o ∧
      signed.tx.inputs[k]? =
        some { attached i o with unlockingScript := some script } ∧
      UnlockedBy hd wallet d k o script := by
    intro k i hi
    have hk : k < w.tx.inputs.length := (List.getElem?_eq_some_iff.mp hi).1
    have hk' : k < d.inputs.length := by rw [← ha.inputs.length_eq]; exact hk
    have hattached := (List.forall₂_iff_get.mp ha.inputs).2 k hk hk'
    rw [List.get_eq_getElem, List.get_eq_getElem,
      (List.getElem?_eq_some_iff.mp hi).2] at hattached
    obtain ⟨t', ht', hturn⟩ := hget k d.inputs[k] (List.getElem?_eq_getElem hk')
    rw [Nat.zero_add] at hturn
    obtain ⟨o, script, hauth, hinput, hunlock, hsigned⟩ :=
      signTurn_attached hattached hturn
    refine ⟨o, script, hauth, ?_, ?_, hunlock⟩
    · rw [List.getElem?_map, List.getElem?_eq_getElem hk', Option.map_some,
        outputSpent_attached hinput]
    · show (signed.inputs.map DraftInput.input)[k]? = _
      rw [List.getElem?_map, ht', Option.map_some, hsigned]
  refine ⟨hsame.outputs.trans ha.outputs, hsame.version.trans ha.version,
    hsame.locktime.trans ha.locktime, ?_, hall⟩
  refine List.forall₂_iff_get.mpr ⟨?_, fun k hk hk' => ?_⟩
  · show _ = (signed.inputs.map DraftInput.input).length
    rw [List.length_map, hlen, ha.inputs.length_eq]
  · obtain ⟨o, script, -, -, hsigned, hunlock⟩ :=
      hall k _ (List.getElem?_eq_getElem hk)
    rw [List.getElem?_eq_getElem hk', Option.some.injEq] at hsigned
    exact ⟨o, script, hsigned, hunlock.length⟩

/-- The signed transaction is read back as it was signed. -/
theorem AllAttached.reads {w : ReadTx} {d signed : Draft Secret} {raw : Bytes}
    (ha : AllAttached hd wallet w d)
    (h : Swap.sign hd.toCurve d = .ok signed)
    (hraw : signed.tx.serialize = .ok raw) :
    ∃ t, Transaction.fromHex raw = some t ∧ t.outputs = w.tx.outputs ∧
    t.version = w.tx.version ∧
      t.locktime = w.tx.locktime ∧ t.inputs.length = w.tx.inputs.length ∧
      ∀ (k : Nat) i', t.inputs[k]? = some i' → ∃ i o script, w.tx.inputs[k]? =
        some i ∧ Authentic i o ∧ (d.inputs.map outputSpent)[k]? = some o ∧
        i' = { i with unlockingScript := some script } ∧
        UnlockedBy hd wallet d k o script := by
  obtain ⟨hout, hver, hlock, hins, hall⟩ := ha.sign h
  have hwfits := w.fits
  have hfits : signed.tx.Fits := {
    version := by rw [hver]; exact hwfits.version
    locktime := by rw [hlock]; exact hwfits.locktime
    inputs := by
      intro i' hi'
      obtain ⟨k, hk⟩ := List.mem_iff_getElem?.mp hi'
      have hklt : k < signed.tx.inputs.length :=
        (List.getElem?_eq_some_iff.mp hk).1
      have hk' : k < w.tx.inputs.length := by rw [hins.length_eq]; exact hklt
      obtain ⟨o, script, heq, hlen⟩ :=
        (List.forall₂_iff_get.mp hins).2 k hk' hklt
      rw [List.get_eq_getElem, List.get_eq_getElem,
        (List.getElem?_eq_some_iff.mp hk).2] at heq
      have hfit := hwfits.inputs _ (List.getElem_mem hk')
      rw [heq]
      exact ⟨hfit.txid, hfit.index, hlen, hfit.sequence⟩
    outputs := by rw [hout]; exact hwfits.outputs
    inputsCount := by rw [← hins.length_eq]; exact hwfits.inputsCount
    outputsCount := by rw [hout]; exact hwfits.outputsCount }
  obtain ⟨v, -, -, hser, hsame⟩ := hfits.serialize
  rw [hraw, Except.ok.injEq] at hser
  refine ⟨txOf v, by rw [hser, fromHex_stripped], hsame.outputs.trans hout, hsame.version.trans hver,
    hsame.locktime.trans hlock, by rw [← hsame.inputs.length_eq, ← hins.length_eq], ?_⟩
  intro k i' hi'
  have hklt : k < (txOf v).inputs.length := (List.getElem?_eq_some_iff.mp hi').1
  have hk : k <
      signed.tx.inputs.length := by rw [hsame.inputs.length_eq]; exact hklt
  have hkw : k < w.tx.inputs.length := by rw [hins.length_eq]; exact hk
  obtain ⟨o, script, hauth, hspent, hsigned, hunlock⟩ :=
    hall k _ (List.getElem?_eq_getElem hkw)
  have hpair := (List.forall₂_iff_get.mp hsame.inputs).2 k hk hklt
  rw [List.get_eq_getElem, List.get_eq_getElem,
    (List.getElem?_eq_some_iff.mp hi').2,
    (List.getElem?_eq_some_iff.mp hsigned).2] at hpair
  refine ⟨w.tx.inputs[k], o, script, List.getElem?_eq_getElem hkw, hauth,
    hspent, ?_, hunlock⟩
  -- both were read from the wire, so neither spells its txid another way
  obtain ⟨u, -, hu⟩ := List.mem_map.mp (show w.tx.inputs[k] ∈ w.ins.items.map inputOf from List.getElem_mem hkw)
  obtain ⟨x, -, hx⟩ := List.mem_map.mp
    (show i' ∈ v.ins.items.map inputOf from List.mem_iff_getElem?.mpr ⟨k, hi'⟩)
  rw [← hu, ← hx] at hpair ⊢
  exact sameInput_inputOf hpair

/-- The draft's preimage is that of the transaction read back, with the outputs
it spends. -/
theorem AllAttached.preimage {w : ReadTx} {d : Draft Secret} {t : Transaction}
    (ha : AllAttached hd wallet w d) (hout : t.outputs = w.tx.outputs)
    (hver : t.version = w.tx.version) (hlock : t.locktime = w.tx.locktime)
    (hlen : t.inputs.length = w.tx.inputs.length)
    (hins : ∀ (k : Nat) i', t.inputs[k]? = some i' →
      ∃ i script, w.tx.inputs[k]? = some i ∧
      i' = { i with unlockingScript := some script }) {k : Nat}
        {message : Bytes} (h : d.preimage k = .ok message) :
        txPreimage k (List.zipWith spending t.inputs (d.inputs.map outputSpent))
        t.outputs t.version t.locktime =
      .ok message := by
  -- without their scripts the signed inputs are the parsed ones
  have hbare :
      (List.zipWith spending t.inputs (d.inputs.map outputSpent)).map bare =
      (d.inputs.map DraftInput.input).map bare := by
    refine List.ext_getElem ?_ fun n h1 h2 => ?_
    · rw [List.length_map, List.length_zipWith,
        List.length_map, List.length_map, List.length_map, hlen,
        ha.inputs.length_eq, Nat.min_self]
    · have hn : n < t.inputs.length := by
        rw [List.length_map, List.length_zipWith] at h1
        omega
      have hnd : n < d.inputs.length := by rwa [List.length_map,
        List.length_map] at h2
      have hnw : n < w.tx.inputs.length := by rwa [← hlen]
      obtain ⟨i, script, hi, hi'⟩ := hins n _ (List.getElem?_eq_getElem hn)
      obtain ⟨o, -, -, -, -, hinput, -⟩ :=
        (List.forall₂_iff_get.mp ha.inputs).2 n hnw hnd
      rw [List.get_eq_getElem, List.get_eq_getElem,
        (List.getElem?_eq_some_iff.mp hi).2] at hinput
      obtain ⟨u, -, hu⟩ := List.mem_map.mp (show i ∈ w.ins.items.map inputOf
        from List.mem_iff_getElem?.mpr ⟨n, hi⟩)
      rw [List.getElem_map, List.getElem_zipWith,
        List.getElem_map, List.getElem_map, List.getElem_map, hi',
        outputSpent_attached hinput, hinput, ← hu]
      rfl
  unfold Draft.preimage at h
  split at h
  · rw [← Swap.txPreimage_bare, hbare, hout, hver, hlock, ← ha.outputs,
      ← ha.version, ← ha.locktime]
    rw [← Swap.txPreimage_bare] at h
    exact h
  · cases h

end Sign

/-! ## Main theorem -/

/-- Amounts of distinct outpoints, summed over the outpoints. -/
theorem sum_by_outpoint {ps : List (Option String × Int)} {amounts : List Int}
    (hlen : amounts.length = ps.length) (hnodup : ps.Nodup) :
    ∃ value : Option String × Int → Int,
      (∀ (k : Nat) (hk : k < ps.length), value ps[k] = amounts[k]) ∧
        amounts.sum = ∑ p ∈ ps.toFinset, value p := by
  have hvalue : ∀ (k : Nat) (hk : k < ps.length),
      amounts.getD (ps.idxOf ps[k]) 0 = amounts[k] := by
    intro k hk
    rw [hnodup.idxOf_getElem k hk, List.getD_eq_getElem?_getD,
      List.getElem?_eq_getElem (by omega), Option.getD_some]
  refine ⟨fun p => amounts.getD (ps.idxOf p) 0, hvalue, ?_⟩
  rw [List.sum_toFinset _ hnodup]
  congr 1
  refine List.ext_getElem (by rw [List.length_map, hlen]) fun k h1 h2 => ?_
  rw [List.getElem_map]
  exact (hvalue k (by omega)).symm

section Main

variable {Key Secret : Type} {hd : HdCurve Key Secret}
  {wallet : HdWallet Secret}

/-- What was prepared and shown is what the result holds. -/
theorem finish_shown {request : SigningRequest} {d : Draft Secret}
    {s : SpendSummary} {r : SignedResult}
    (hprepare : prepare hd wallet request = .ok (d, s))
    (h : finish hd request d = .ok r) :
    SignedAsShown hd wallet s r := by
  obtain ⟨d₀, hparse, hprepare⟩ := bind_ok.mp hprepare
  obtain ⟨d₁, hinputs, hprepare⟩ := bind_ok.mp hprepare
  obtain ⟨s', hsummary, hprepare⟩ := bind_ok.mp hprepare
  cases hprepare
  obtain ⟨w, houtputs, hversion, hlocktime, hall⟩ := prepared hparse hinputs
  have ha : AllAttached hd wallet w d := ⟨houtputs, hversion, hlocktime, hall⟩
  obtain ⟨⟨own, haccounts⟩, hfee, hcovered, amounts, hamounts, htotal⟩ :=
    summarize_ok hsummary
  obtain ⟨signed, hsigned, h⟩ := bind_ok.mp h
  obtain ⟨-, -, h⟩ := bind_ok.mp h
  obtain ⟨raw, hraw, h⟩ := bind_ok.mp h
  cases h
  obtain ⟨t, ht, hout, hver, hlock, hlen, hins⟩ := ha.reads hsigned hraw
  -- input by input: what was signed is what was prepared and summed up
  have hspentLen : (d.inputs.map outputSpent).length = t.inputs.length := by
    rw [List.length_map, ← hall.length_eq, hlen]
  refine ⟨⟨raw, t, d.inputs.map outputSpent, own, fromHex_hex raw, ht, ?_, ?_,
    ?_, ?_⟩, hfee, hcovered⟩
  · rw [hout, ← houtputs]
    exact haccounts
  · refine List.forall₂_iff_get.mpr ⟨hspentLen.symm, fun k hk hk' => ?_⟩
    obtain ⟨i, o, script, -, hauth, hspent, hi', -⟩ :=
      hins k _ (List.getElem?_eq_getElem hk)
    rw [List.getElem?_eq_getElem hk', Option.some.injEq] at hspent
    rw [List.get_eq_getElem, List.get_eq_getElem, hspent, hi']
    exact hauth
  · intro hnodup
    obtain ⟨hcount, hget⟩ := mapM_ok hamounts
    have hcount' : amounts.length = (t.inputs.map outpoint).length := by
      rw [hcount, List.length_map, hlen, hall.length_eq]
    obtain ⟨value, hvalue, hsum⟩ := sum_by_outpoint hcount' hnodup
    refine ⟨value, List.forall₂_iff_get.mpr ⟨hspentLen.symm,
      fun k hk hk' => ?_⟩, htotal.trans hsum⟩
    have hkd : k < d.inputs.length := by rwa [List.length_map] at hk'
    obtain ⟨n, hn, hamount⟩ := hget k _ (List.getElem?_eq_getElem hkd)
    have hk'' : k < (t.inputs.map outpoint).length := by rwa [List.length_map]
    have hv := hvalue k hk''
    rw [List.getElem_map] at hv
    rw [List.getElem?_eq_getElem (by omega), Option.some.injEq] at hn
    rw [List.get_eq_getElem, List.get_eq_getElem, List.getElem_map, hv, hn]
    exact amountOf_ok hamount
  · intro k i' o hi' ho
    obtain ⟨i, o', script, hi, hauth, hspent, rfl, hunlock⟩ := hins k i' hi'
    rw [ho, Option.some.injEq] at hspent
    subst hspent
    obtain ⟨change, index, key, message, sig, pub, hkey, howner, hmessage, hsig,
        hpub, hscript⟩ := hunlock
    refine ⟨change, index, key, message, sig, pub, hkey, howner, ?_, hsig,
      hpub, by rw [hscript]⟩
    refine ha.preimage hout hver hlock hlen (fun n j hj => ?_) hmessage
    obtain ⟨i, -, script, hi, -, -, hj', -⟩ := hins n j hj
    exact ⟨i, script, hi, hj'⟩

/-- A run whose user agrees. -/
theorem sign_agreed {Key Secret : Type} {hd : HdCurve Key Secret}
    {wallet : HdWallet Secret} {request : SigningRequest}
    {confirm : SpendSummary → Except PyErr Bool} {d : Draft Secret}
    {s : SpendSummary}
    (hprepare : prepare hd wallet request = .ok (d, s))
    (hconfirm : confirm s = .ok true) :
    AgentSigner.sign hd wallet request confirm = ([.asked s true, .signs d],
      finish hd request d) := by
  unfold AgentSigner.sign
  rw [hprepare]
  dsimp only
  rw [hconfirm]

end Main

/-- **What the agent signs is what the user has agreed to**, and nothing is
signed before that: a result comes with a summary that was confirmed and
accounts for the transaction in it. -/
theorem sign_shown {Key Secret : Type} (hd : HdCurve Key Secret)
    (wallet : HdWallet Secret)
    (request : SigningRequest) (confirm : SpendSummary → Except PyErr Bool) :
    (∀ r, (AgentSigner.sign hd wallet request confirm).2 = .ok r →
      ∃ s, confirm s = .ok true ∧
      (AgentSigner.sign hd wallet request confirm).1.head? =
        some (.asked s true) ∧ SignedAsShown hd wallet s r) ∧
    ∀ before d after, (AgentSigner.sign hd wallet request confirm).1 =
    before ++ .signs d :: after →
      ∃ s, .asked s true ∈ before := by
  unfold AgentSigner.sign
  -- nothing is signed unless the draft was prepared and its summary confirmed
  cases hprepare : prepare hd wallet request with
  | error e =>
    refine ⟨nofun, fun before d after h => ?_⟩
    exact absurd (congrArg List.length h) (by
      show 0 ≠ _
      rw [List.length_append, List.length_cons]
      omega)
  | ok p =>
    obtain ⟨d, s⟩ := p
    dsimp only
    cases hconfirm : confirm s with
    | error e =>
      refine ⟨nofun, fun before d after h => ?_⟩
      exact absurd (congrArg List.length h) (by
        show 0 ≠ _
        rw [List.length_append, List.length_cons]
        omega)
    | ok answer =>
      cases answer with
      | false =>
        refine ⟨nofun, fun before e after h => ?_⟩
        cases before with
        | nil => cases h
        | cons b before =>
          injection h with hb hrest
          cases before <;> cases hrest
      | true =>
        refine ⟨fun r hr => ⟨s, hconfirm, rfl, finish_shown hprepare hr⟩,
          fun before e after h => ?_⟩
        cases before with
        | nil => cases h
        | cons b before =>
          injection h with hb hrest
          exact ⟨s, by rw [← hb]; exact List.mem_cons_self⟩

/-! ## Two spends -/

/-- The hash of the wallet's first key. -/
def receivePkh : Bytes :=
  [0x28, 0xF0, 0x2F, 0xA2, 0x74, 0xC2, 0xCC, 0xAE, 0x68, 0x35, 0x29, 0xF0, 0xE4,
    0x87, 0x33, 0x33,
   0x3F, 0x62, 0x73, 0xC2]

def receiveScript : Bytes := p2pkhHead ++ receivePkh ++ p2pkhTail

/-- A transaction whose only output pays the wallet's first address 100000
photons. -/
def sampleSource : Bytes :=
  [0x01, 0x00, 0x00, 0x00, 0x01] ++ List.replicate 32 0x07 ++
    List.replicate 5 0x00 ++
    List.replicate 4 0xFF ++ [0x01] ++ leBytes 8 100000 ++ [0x19] ++
      receiveScript ++
    List.replicate 4 0x00

/-- Its hash. -/
def sampleHash : Bytes :=
  [0x99, 0xB5, 0xD1, 0xF9, 0x10, 0xA2, 0x54, 0x36, 0x3E, 0xEA, 0x7D, 0x79, 0xAB,
    0xBD, 0xD0, 0x0B,
   0x67, 0xA2, 0x33, 0xF9, 0x8A, 0x7C, 0x2F, 0x4A, 0x77, 0x0A, 0xE7, 0x46, 0x5D,
     0x22, 0x94, 0x86]

/-- The txid of the sample source transaction. -/
theorem hash256_sampleSource :
    hash256 sampleSource = sampleHash := by decide +kernel

/-- The sample source transaction as the parser reads it. -/
theorem fromHex_sampleSource : Transaction.fromHex sampleSource =
    some ⟨[⟨some (hex (List.replicate 32 0x07)), 0, some [], 0xFFFFFFFF, none,
      none, sighashAllForkid⟩], [⟨receiveScript, some 100000⟩], 1, 0⟩ := by
  decide

def receiveKey : PrivateKey SampleKey := ⟨.receive, true⟩

def receiveOutput : TransactionOutput := ⟨receiveScript, some 100000⟩

/-- An input that spends it, on the wire and as it is parsed. -/
def twiceInput (script : Bytes) : Bytes :=
  sampleHash ++ List.replicate 4 0x00 ++ [UInt8.ofNat script.length] ++
    script ++ List.replicate 4 0xFF

def twiceParsed (script : Bytes) : TransactionInput where
  sourceTxid := some (hex sampleHash.reverse)
  sourceOutputIndex := 0
  unlockingScript := some script
  sequence := 0xFFFFFFFF
  satoshis := none
  lockingScript := none
  sighash := sighashAllForkid

def twiceEntry (k : Nat) : InputToSign := ⟨k, 0, 0, hex sampleSource, 0x41⟩

/-- Both inputs of the double spend point at the same output. -/
theorem twiceParsed_txid (script : Bytes) :
    (twiceParsed script).sourceTxid = some
      (hex (hash256 sampleSource).reverse) := by
  rw [hash256_sampleSource]
  rfl

/-- The sample wallet derives the receive key. -/
theorem derived_receive : sampleWallet.privkeyFor (sampleHd id) 0 0 =
    .ok receiveKey := rfl

/-- The sample output is locked to that key. -/
theorem owner_receive : receiveOutput.lockingScript = keyScript
    (sampleHd id) receiveKey := by
  decide +kernel

/-- Every such entry is in order, whatever the signatures. -/
theorem inOrder_sample (signature : Bytes → Bytes) (k : Nat) :
    InOrder (sampleHd signature)
    sampleWallet (twiceParsed []) (twiceEntry k) receiveOutput receiveKey where
  source := ⟨sampleSource, _, fromHex_hex sampleSource, twiceParsed_txid [],
    fromHex_sampleSource,
    Int.le_refl 0, rfl⟩
  chain := .inl rfl
  index := by
    show (0 : Int) ≤ 0 ∧ 0 ≤ maxDerivationIndex
    decide
  derived := derived_receive
  owner := owner_receive
  hashed := (sampleHd_lawful signature).ripemd_length _
  sighash := rfl

/-- A txid written from bytes reads back as those bytes. -/
theorem txidBytes_hex (b : Bytes) :
    txidBytes (some (hex b.reverse)) = .ok b := by
  rw [txidBytes, fromHex_hex]
  dsimp only
  rw [List.reverse_reverse]

section Samples

variable (entries : List Unit) (outputs : List TransactionOutput)

/-- The transaction that spends the output once for each entry, with the keys
attached. -/
def sampleDraft : Draft SampleKey :=
  ⟨entries.map fun _ => ⟨attached (twiceParsed []) receiveOutput,
    some receiveKey⟩, outputs, 1, 0⟩

/-- Its request. -/
def sampleRequest (unsigned : Bytes) (claims : List ChangeClaim) :
    SigningRequest :=
  ⟨hex unsigned, entries.mapIdx fun i _ => twiceEntry i, claims⟩

variable {entries outputs}

/-- Every check on the inputs passes. -/
theorem prepare_sample {signature : Bytes → Bytes} {unsigned : Bytes}
    {claims : List ChangeClaim}
    {s : SpendSummary} (hne : entries ≠ []) (houtputs : outputs ≠ [])
    (hparse : Transaction.fromHex unsigned =
      some ⟨entries.map fun _ => twiceParsed [], outputs, 1, 0⟩)
    (hcovers : coversAll (entries.mapIdx fun i _ =>
      twiceEntry i) entries.length)
    (hsummary : summarize (sampleHd signature) sampleWallet
      (sampleDraft entries outputs)
      (sampleRequest entries unsigned claims) = .ok s) :
    prepare (sampleHd signature) sampleWallet
    (sampleRequest entries unsigned claims) =
      .ok (sampleDraft entries outputs, s) := by
  have hunsigned : parseUnsigned (sampleRequest entries unsigned claims) =
      .ok (⟨entries.map fun _ => ⟨twiceParsed [], none⟩, outputs, 1,
        0⟩ : Draft SampleKey) := by
    have hbytes : bytesFromHex (hex unsigned) = .ok unsigned := by
      rw [bytesFromHex, fromHex_hex]
    refine bind_ok.mpr ⟨unsigned, hbytes, ?_⟩
    rw [hparse]
    have hsome : ¬ ((entries.map fun _ => twiceParsed []) = [] ∨
        outputs = []) := by
      rw [List.map_eq_nil_iff]
      exact not_or.mpr ⟨hne, houtputs⟩
    refine refuseIf_bind_ok.mpr ⟨hsome,
      refuseIf_bind_ok.mpr ⟨not_not.mpr ?_, ?_⟩⟩
    · rw [List.length_map]
      exact hcovers
    · rw [List.map_map]
      rfl
  have hinputs :=
    @prepareInputs_returns _ _ (sampleHd signature) sampleWallet _ _ _ _
    ⟨[], outputs, 1, 0⟩ entries [] fun _ _ i => ⟨rfl,
      (inOrder_sample signature i).prepared⟩
  simp only [List.length_nil, Nat.zero_add, List.nil_append] at hinputs
  rw [prepare, hunsigned, ok_bind]
  exact bind_ok.mpr ⟨_, hinputs, bind_ok.mpr ⟨s, hsummary, rfl⟩⟩

/-- Such a transaction can be signed. -/
theorem ready_sample (houtputs : ∀ o ∈ outputs, o.Countable) :
    (sampleDraft entries outputs).Ready where
  version := by
    show (0 : Int) ≤ 1 ∧ (1 : Int) < 256 ^ 4
    decide
  locktime := by
    show (0 : Int) ≤ 0 ∧ (0 : Int) < 256 ^ 4
    decide
  inputs := by
    intro t ht
    obtain ⟨-, -, rfl⟩ := List.mem_map.mp ht
    exact {
      txid := ⟨sampleHash, txidBytes_hex sampleHash, rfl⟩
      index := by decide
      script := by decide
      sequence := by decide
      value := ⟨100000, rfl, by decide⟩
      lockingScript := ⟨receiveScript, rfl, by decide⟩
      sighash := by decide
      blank := rfl
      flag := rfl
      key := ⟨receiveKey, rfl, rfl⟩ }
  outputs := houtputs

/-- The input, signed. -/
def signedInput (signature : Bytes) : DraftInput SampleKey :=
  ⟨{ attached (twiceParsed []) receiveOutput with
      unlockingScript := some (Swap.scriptSig signature (SampleKey.format .receive)) },
    some receiveKey⟩

/-- The bytes of the sample input once it is signed. -/
theorem serialize_signedInput {signature : Bytes}
    (hscript : scriptBytes (signedInput signature).input.unlockingScript =
      .ok ([UInt8.ofNat (Swap.scriptSig signature
        (SampleKey.format .receive)).length] ++
        Swap.scriptSig signature (SampleKey.format .receive))) :
    (signedInput signature).input.serialize =
      .ok (twiceInput (Swap.scriptSig signature
        (SampleKey.format .receive))) := by
  have hindex : toBytesLe 4 0 = .ok (List.replicate 4 0x00) := by decide
  have hsequence : toBytesLe 4 0xFFFFFFFF =
      .ok (List.replicate 4 0xFF) := by decide
  refine bind_ok.mpr ⟨sampleHash, txidBytes_hex sampleHash,
    bind_ok.mpr ⟨_, hindex, ?_⟩⟩
  refine bind_ok.mpr ⟨_, hscript, bind_ok.mpr ⟨_, hsequence, ?_⟩⟩
  rw [twiceInput, List.append_assoc _ [_] _]
  rfl

/-- What signing and serialising gives. -/
theorem finish_sample {signature unsigned raw : Bytes}
    {claims : List ChangeClaim} {us : List Unit}
    (hlength : signature.length ≤ 72) (houtputs : ∀ o ∈ outputs, o.Countable)
    (hchecked : (entries.mapIdx fun i _ => twiceEntry i).mapM (checkSigned
      (⟨entries.map fun _ => signedInput signature, outputs, 1,
        0⟩ : Draft SampleKey)) = .ok us)
    (hserialize : Transaction.serialize ⟨entries.map fun _ =>
      (signedInput signature).input,
      outputs, 1, 0⟩ = .ok raw) :
    finish (sampleHd fun _ => signature) (sampleRequest entries unsigned claims)
      (sampleDraft entries outputs) = .ok ⟨hex raw⟩ := by
  have hsized : (sampleHd fun _ => signature).toCurve.Sized :=
    ⟨fun _ _ => hlength, (sampleHd_lawful _).format_length⟩
  obtain ⟨inputs, hsign, hall⟩ :=
    Swap.sign_returns hsized (ready_sample houtputs)
  have hinputs : inputs = entries.map fun _ => signedInput signature := by
    have hone : ∀ t, Swap.SignedInput (sampleHd fun _ => signature).toCurve
        ⟨attached (twiceParsed []) receiveOutput, some receiveKey⟩ t →
          t = signedInput signature := by
      rintro t ⟨key, digest, hkey, rfl⟩
      cases hkey
      rfl
    have hall : List.Forall₂ (fun _ t => t = signedInput signature)
        entries inputs :=
      (List.forall₂_map_left_iff.mp hall).imp fun _ t ht => hone t ht
    rw [← List.forall₂_eq_eq_eq, List.forall₂_map_right_iff]
    exact hall.flip
  rw [hinputs] at hsign
  refine bind_ok.mpr ⟨_, hsign,
    bind_ok.mpr ⟨us, hchecked, bind_ok.mpr ⟨raw, ?_, rfl⟩⟩⟩
  rw [← hserialize, Draft.tx, List.map_map]
  rfl

end Samples

/-! ### An ordinary spend -/

/-- The hash of the wallet's first change key. -/
def changePkh : Bytes :=
  [0xCC, 0x68, 0x7E, 0xF4, 0x43, 0xFB, 0xF5, 0x6E, 0x89, 0xC9, 0x9C, 0x0F, 0xE9,
    0xBE, 0x1D, 0xE0,
   0x0A, 0xED, 0x72, 0xF6]

/-- 60000 photons for somebody else and 39000 back. -/
def onceOutputs : List TransactionOutput :=
  [⟨p2pkhHead ++ List.replicate 20 0x44 ++ p2pkhTail, some 60000⟩,
   ⟨p2pkhHead ++ changePkh ++ p2pkhTail, some 39000⟩]

def onceWith (script : Bytes) : Bytes :=
  [0x01, 0x00, 0x00, 0x00, 0x01] ++ twiceInput script ++ [0x02] ++
    leBytes 8 60000 ++ [0x19] ++ p2pkhHead ++
      List.replicate 20 0x44 ++ p2pkhTail ++
    leBytes 8 39000 ++ [0x19] ++ p2pkhHead ++ changePkh ++ p2pkhTail ++
      List.replicate 4 0x00

def onceRequest : SigningRequest := sampleRequest [()] (onceWith []) [⟨1, 1, 0⟩]

def onceSignature : Bytes :=
  [0x30, 0x44, 0x02, 0x20, 0x13, 0x7D, 0x9E, 0x27, 0xD8, 0xE0, 0x71, 0x6F, 0x4A,
    0xAF, 0x59, 0x63,
   0x2C, 0xA0, 0xC0, 0xE9, 0x69, 0xC8, 0xB9, 0xEB, 0x81, 0x4C, 0x74, 0x1E, 0x35,
     0xE2, 0x8E, 0x24,
   0x96, 0x01, 0x07, 0x0C, 0x02, 0x20, 0x63, 0x04, 0x0D, 0x3B, 0xB8, 0x1B, 0xB5,
     0xCF, 0x58, 0xE5,
   0x4E, 0x0B, 0x1B, 0xB4, 0x5E, 0x2A, 0xA9, 0xB1, 0x70, 0x76, 0x12, 0xBD, 0x5F,
     0xA2, 0x2E, 0x82,
   0x17, 0x1D, 0x5B, 0xCE, 0x01, 0xDC]

def onceHd : HdCurve SampleKey SampleKey := sampleHd fun _ => onceSignature

def onceDraft : Draft SampleKey := sampleDraft [()] onceOutputs

def onceSummary : SpendSummary :=
  ⟨[⟨0, "p2pkh:4444444444444444444444444444444444444444", 60000⟩], 60000,
    39000, 100000, 1000,
    [0x41]⟩

/-- The summary of the ordinary sample spend. -/
theorem summarize_once : summarize onceHd sampleWallet onceDraft onceRequest =
    .ok onceSummary := by
  decide +kernel

/-- The signer prepares that spend and shows that summary. -/
theorem prepare_once : prepare onceHd sampleWallet onceRequest = .ok (onceDraft,
    onceSummary) :=
  prepare_sample (List.cons_ne_nil _ _) (List.cons_ne_nil _ _) (by decide)
    (by decide) summarize_once

/-- The unlocking script of its input. -/
def onceScript : Bytes := Swap.scriptSig onceSignature
  (SampleKey.format .receive)

/-- The bytes of the ordinary spend. -/
theorem serialize_once : Transaction.serialize
    ⟨[(signedInput onceSignature).input], onceOutputs, 1, 0⟩ = .ok
      (onceWith onceScript) := by
  have hins :
      joinAll TransactionInput.serialize [(signedInput onceSignature).input] =
      .ok (twiceInput onceScript ++ []) := by
    rw [joinAll, serialize_signedInput (by decide), ok_bind]
    rfl
  rw [Transaction.serialize]
  refine bind_ok.mpr ⟨[1, 0, 0, 0], rfl,
    bind_ok.mpr ⟨[1], rfl, bind_ok.mpr ⟨_, hins, ?_⟩⟩⟩
  decide +kernel

/-- The signer returns those bytes. -/
theorem finish_once : finish onceHd onceRequest onceDraft =
    .ok ⟨hex (onceWith onceScript)⟩ := by
  refine finish_sample (by decide) (fun o ho => ?_) rfl serialize_once
  rcases List.mem_cons.mp ho with rfl | ho
  · exact Swap.countable_lock rfl (by decide)
  · rw [List.mem_singleton.mp ho]
    exact Swap.countable_lock rfl (by decide)

/-! ### An output spent twice -/

def payeeOutputs : List TransactionOutput :=
  [⟨[0x6A, 0x02, 0x68, 0x69], some 0⟩,
    ⟨p2pkhHead ++ List.replicate 20 0x44 ++ p2pkhTail, some 150000⟩]

/-- Both sides of a transaction with a note, and 150000 photons for somebody
else. -/
def twiceOutputs : Bytes :=
  [0x02] ++ leBytes 8 0 ++ [0x04, 0x6A, 0x02, 0x68, 0x69] ++
    leBytes 8 150000 ++ [0x19] ++ p2pkhHead ++
      List.replicate 20 0x44 ++ p2pkhTail ++
    List.replicate 4 0x00

/-- The transaction that spends the output twice, with the same script for both
inputs. -/
def twiceWith (script : Bytes) : Bytes :=
  [0x01, 0x00, 0x00, 0x00, 0x02] ++ twiceInput script ++
    twiceInput script ++ twiceOutputs

def twiceRequest : SigningRequest := sampleRequest [(), ()] (twiceWith []) []

/-- The signature of both inputs, which have one preimage. -/
def twiceSignature : Bytes :=
  [0x30, 0x44, 0x02, 0x20, 0x3F, 0xD4, 0x35, 0x0B, 0x67, 0xCD, 0x88, 0x5A, 0x9D,
    0x32, 0xD9, 0x24,
   0x1C, 0x49, 0x12, 0x3C, 0x69, 0x35, 0xF8, 0x55, 0x62, 0x5B, 0x9D, 0x41, 0xBC,
     0x09, 0xE7, 0xDD,
   0x0F, 0xCE, 0x96, 0xCC, 0x02, 0x20, 0x2B, 0xF9, 0xC3, 0xEF, 0x8A, 0xAB, 0xFE,
     0xD3, 0x01, 0x5F,
   0xBA, 0x68, 0xD9, 0x9D, 0x0A, 0x16, 0xFA, 0xDF, 0x73, 0x0C, 0xB1, 0xB2, 0x0E,
     0x4B, 0xF6, 0x66,
   0xE0, 0xC1, 0xBD, 0xF5, 0xEB, 0x62]

def twiceHd : HdCurve SampleKey SampleKey := sampleHd fun _ => twiceSignature

def twiceDraft : Draft SampleKey := sampleDraft [(), ()] payeeOutputs

def twiceSummary : SpendSummary :=
  ⟨[⟨0, "op_return", 0⟩, ⟨1, "p2pkh:4444444444444444444444444444444444444444",
    150000⟩], 150000, 0,
    200000, 50000, [0x41, 0x41]⟩

/-- The summary of the double spend, which counts its output twice. -/
theorem summarize_twice :
    summarize twiceHd sampleWallet twiceDraft twiceRequest =
      .ok twiceSummary := by
  decide

/-- Every check passes, and the user is shown twice what the output is worth. -/
theorem prepare_twice :
    prepare twiceHd sampleWallet twiceRequest = .ok (twiceDraft,
      twiceSummary) :=
  prepare_sample (List.cons_ne_nil _ _) (List.cons_ne_nil _ _) (by decide)
    (by decide) summarize_twice

/-- The unlocking script of both inputs. -/
def twiceScript : Bytes := Swap.scriptSig twiceSignature
  (SampleKey.format .receive)

/-- The bytes of the double spend. -/
theorem serialize_twice : Transaction.serialize
    ⟨[(signedInput twiceSignature).input, (signedInput twiceSignature).input],
      payeeOutputs, 1, 0⟩ =
      .ok (twiceWith twiceScript) := by
  have hins : joinAll TransactionInput.serialize
      [(signedInput twiceSignature).input, (signedInput twiceSignature).input] =
      .ok (twiceInput twiceScript ++ (twiceInput twiceScript ++ [])) := by
    rw [joinAll, serialize_signedInput (by decide), ok_bind, joinAll,
      serialize_signedInput (by decide)]
    rfl
  rw [Transaction.serialize]
  refine bind_ok.mpr ⟨[1, 0, 0, 0], rfl,
    bind_ok.mpr ⟨[2], rfl, bind_ok.mpr ⟨_, hins, ?_⟩⟩⟩
  decide +kernel

/-- The signer returns those too. -/
theorem finish_twice :
    finish twiceHd twiceRequest twiceDraft =
      .ok ⟨hex (twiceWith twiceScript)⟩ := by
  refine finish_sample (by decide) (fun o ho => ?_) rfl serialize_twice
  rcases List.mem_cons.mp ho with rfl | ho
  · exact ⟨⟨⟨0, rfl, by decide⟩, by decide⟩, [], rfl, by decide⟩
  · rw [List.mem_singleton.mp ho]
    exact Swap.countable_lock rfl (by decide)

/-- **An output is counted as often as it is spent**, and a note is listed
without a hash: the agent signs for 200000 photons of a single output worth
100000. -/
theorem sign_counts_twice : ∃ d r raw t,
    AgentSigner.sign twiceHd sampleWallet twiceRequest (fun _ => .ok true) =
      ([.asked twiceSummary true, .signs d], .ok r) ∧
    Lib.fromHex r.signedTxHex = some raw ∧ Transaction.fromHex raw = some t ∧
    (∀ i ∈ t.inputs, outpoint i = (some (hex sampleHash.reverse), 0) ∧
      Authentic i receiveOutput) ∧ receiveOutput.satoshis = some 100000 ∧
    twiceSummary.inputTotal = 200000 ∧
    (∃ o, t.outputs[0]? = some o ∧ isP2pkh o.lockingScript = false ∧
      twiceSummary.externalOutputs[0]? = some ⟨0, "op_return", 0⟩) := by
  have hparse : Transaction.fromHex (twiceWith twiceScript) =
      some ⟨[twiceParsed twiceScript, twiceParsed twiceScript], payeeOutputs, 1,
        0⟩ := by decide
  refine ⟨twiceDraft, ⟨hex (twiceWith twiceScript)⟩, twiceWith twiceScript, _,
    ?_, fromHex_hex _, hparse, ?_, rfl, rfl, ?_⟩
  · rw [sign_agreed prepare_twice rfl, finish_twice]
  · intro i hi
    have hi : i = twiceParsed twiceScript := by simpa using hi
    rw [hi]
    exact ⟨rfl, sampleSource, _, twiceParsed_txid _, fromHex_sampleSource,
      Int.le_refl 0, rfl⟩
  · exact ⟨_, rfl, by decide, rfl⟩

/-- An ordinary spend and the one above, which are both what was shown. -/
theorem sign_shown_spends :
    SignedAsShown onceHd sampleWallet onceSummary ⟨hex (onceWith onceScript)⟩ ∧
    SignedAsShown twiceHd sampleWallet twiceSummary
      ⟨hex (twiceWith twiceScript)⟩ := by
  have honce : AgentSigner.sign onceHd sampleWallet onceRequest
      (fun _ => .ok true) =
      ([.asked onceSummary true, .signs onceDraft],
        .ok ⟨hex (onceWith onceScript)⟩) := by
    rw [sign_agreed prepare_once rfl, finish_once]
  have htwice : AgentSigner.sign twiceHd sampleWallet twiceRequest
      (fun _ => .ok true) =
      ([.asked twiceSummary true, .signs twiceDraft],
        .ok ⟨hex (twiceWith twiceScript)⟩) := by
    rw [sign_agreed prepare_twice rfl, finish_twice]
  constructor
  · obtain ⟨s, -, hasked, hshown⟩ :=
      (sign_shown onceHd sampleWallet onceRequest fun _ => .ok true).1 _
        (by rw [honce])
    rw [honce] at hasked
    cases hasked
    exact hshown
  · obtain ⟨s, -, hasked, hshown⟩ :=
      (sign_shown twiceHd sampleWallet twiceRequest fun _ => .ok true).1 _
        (by rw [htwice])
    rw [htwice] at hasked
    cases hasked
    exact hshown

end Pyrxd.Agent
