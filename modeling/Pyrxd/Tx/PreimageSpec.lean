import Pyrxd.Lib.Traverse
import Pyrxd.Tx.Preimage
import Pyrxd.Tx.RoundTrip

/-!
# What a signature commits to

`tx_preimages` and `tx_preimage` agree wherever the first returns; and a
`SINGLE|ANYONECANPAY` preimage depends on its own input, the output of the same
index, the version and the locktime, on all of them, and on nothing else.

`tx_preimages` hashes all inputs and all outputs before it looks at any flag, so
it raises on data that a particular signature may never touch.
-/

namespace Pyrxd.Tx

open Pyrxd.Lib

/-! ## One and all -/

section Agree

variable {inputs : List TransactionInput} {outputs : List TransactionOutput}
  {txVersion txLocktime : Int}
  {allPrevouts allSequences allOutputs allOutputHashes : Bytes}

/-- The four hashes `tx_preimages` starts with. -/
structure HashesAll (inputs : List TransactionInput)
    (outputs : List TransactionOutput)
    (allPrevouts allSequences allOutputs allOutputHashes : Bytes) : Prop where
  ofPrevouts : hashAllPrevouts inputs = .ok allPrevouts
  ofSequences : hashAllSequences inputs = .ok allSequences
  ofOutputs : hashAllOutputs outputs = .ok allOutputs
  ofOutputHashes : computeHashOutputHashes outputs none = .ok allOutputHashes

/-- With the hashes at hand, a turn of the loop is the single preimage. -/
theorem preimagesTurn_eq (h : HashesAll inputs outputs allPrevouts allSequences
      allOutputs allOutputHashes)
    {i : Nat} {input : TransactionInput} (hi : inputs[i]? = some input) :
    preimagesTurn outputs txVersion txLocktime allPrevouts
      allSequences allOutputs allOutputHashes i input =
      txPreimage i inputs outputs txVersion txLocktime := by
  have h1 : (if (!anyoneCanPay input.sighash) = true then hashAllPrevouts inputs
      else .ok zeroHash) =
      .ok (if anyoneCanPay input.sighash = true then zeroHash
        else allPrevouts) := by
    cases anyoneCanPay input.sighash with
    | true => rfl
    | false => exact h.ofPrevouts
  have h2 : (if (!anyoneCanPay input.sighash &&
      signsAllOutputs input.sighash) = true then
      hashAllSequences inputs else .ok zeroHash) =
      .ok (if (!anyoneCanPay input.sighash && signsAllOutputs input.sighash) =
        true then allSequences
        else zeroHash) := by
    cases !anyoneCanPay input.sighash && signsAllOutputs input.sighash with
    | true => exact h.ofSequences
    | false => rfl
  have h3 : allOutputsHashes outputs = .ok (allOutputs, allOutputHashes) := by
    rw [allOutputsHashes, h.ofOutputs, ok_bind, h.ofOutputHashes,
      ok_bind, pure_eq_ok]
  rw [preimagesTurn, txPreimage, hi]
  simp only
  rw [h1, ok_bind, h2, ok_bind, h3]

/-- **One and all agree.** `tx_preimages` returns exactly when its four hashes
and every single preimage can be computed, and then it lists these. -/
theorem txPreimages_ok {ps : List Bytes} :
    txPreimages inputs outputs txVersion txLocktime = .ok ps ↔
      (∃ p s o oh, HashesAll inputs outputs p s o oh) ∧
        ps.length = inputs.length ∧
        ∀ i < inputs.length, ∃ p, ps[i]? = some p ∧
          txPreimage i inputs outputs txVersion txLocktime = .ok p := by
  -- the loop runs over the inputs paired with their indices
  have hzip : ∀ (i : Nat) (input : TransactionInput), inputs[i]? = some input ↔
      inputs.zipIdx[i]? = some (input, i) := by
    intro i input
    rw [List.getElem?_zipIdx, Nat.zero_add]
    cases inputs[i]? with
    | none => exact ⟨nofun, nofun⟩
    | some a => simp
  constructor
  · intro h
    unfold txPreimages at h
    obtain ⟨allPrevouts, h1, h⟩ := bind_ok.mp h
    obtain ⟨allSequences, h2, h⟩ := bind_ok.mp h
    obtain ⟨allOutputs, h3, h⟩ := bind_ok.mp h
    obtain ⟨allOutputHashes, h4, h⟩ := bind_ok.mp h
    have hall : HashesAll inputs outputs allPrevouts allSequences allOutputs
        allOutputHashes :=
      ⟨h1, h2, h3, h4⟩
    obtain ⟨hlen, hget⟩ := mapM_ok h
    rw [List.length_zipIdx] at hlen
    refine ⟨⟨_, _, _, _, hall⟩, hlen, ?_⟩
    intro i hi
    have hinput := List.getElem?_eq_getElem hi
    obtain ⟨p, hp, hturn⟩ := hget i _ ((hzip i _).mp hinput)
    exact ⟨p, hp, (preimagesTurn_eq hall hinput).symm.trans hturn⟩
  · intro h
    obtain ⟨⟨allPrevouts, allSequences, allOutputs, allOutputHashes, hall⟩,
        hlen, hget⟩ := h
    have hturn : ∀ a ∈ inputs.zipIdx, ∃ p,
        preimagesTurn outputs txVersion txLocktime allPrevouts
        allSequences allOutputs allOutputHashes a.2 a.1 = .ok p ∧
          ps[a.2]? = some p := by
      intro a ha
      obtain ⟨i, hi⟩ := List.mem_iff_getElem?.mp ha
      have hi' : a.2 = i ∧ inputs[i]? = some a.1 := by
        rw [List.getElem?_zipIdx, Nat.zero_add, Option.map_eq_some_iff] at hi
        obtain ⟨x, hx, rfl⟩ := hi
        exact ⟨rfl, hx⟩
      obtain ⟨rfl, hinput⟩ := hi'
      obtain ⟨hlt, -⟩ := List.getElem?_eq_some_iff.mp hinput
      obtain ⟨p, hp, hone⟩ := hget a.2 hlt
      exact ⟨p, (preimagesTurn_eq hall hinput).trans hone, hp⟩
    obtain ⟨m, hm⟩ := mapM_returns fun a ha => (hturn a ha).imp fun p hp => hp.1
    obtain ⟨hmlen, hmget⟩ := mapM_ok hm
    rw [List.length_zipIdx] at hmlen
    -- two lists of preimages that agree at every index are the same
    have heq : m = ps := by
      apply List.ext_getElem?
      intro i
      by_cases hi : i < inputs.length
      · have hinput := (hzip i _).mp (List.getElem?_eq_getElem hi)
        obtain ⟨b, hb, hfb⟩ := hmget i _ hinput
        obtain ⟨p, hp, hps⟩ := hturn _ (List.mem_of_getElem? hinput)
        rw [hb, hps, ← Except.ok.inj (hfb.symm.trans hp)]
      · rw [List.getElem?_eq_none (by omega), List.getElem?_eq_none (by omega)]
    rw [txPreimages, hall.ofPrevouts, ok_bind, hall.ofSequences, ok_bind,
      hall.ofOutputs, ok_bind, hall.ofOutputHashes, ok_bind, ← heq]
    exact hm

end Agree

/-! ## What `SINGLE|ANYONECANPAY` signs -/

/-- `SINGLE|ANYONECANPAY`. -/
def SignsOwnPair (sighash : Nat) : Prop :=
  anyoneCanPay sighash = true ∧ sighash &&& 0x1F = sighashSingle

/-- The preimage of an input and an output, alone in the world. -/
def pairPreimage (input : TransactionInput) (output : TransactionOutput)
    (txVersion txLocktime : Int) :
    Except PyErr Bytes := do
  let raw ← output.serialize
  let summary ← outputSummary output
  preimage input txVersion txLocktime zeroHash zeroHash
    (hash256 summary) (hash256 raw)

theorem computeHashOutputHashes_some {outputs : List TransactionOutput}
    {i : Nat}
    {output : TransactionOutput} (h : outputs[i]? = some output) :
    computeHashOutputHashes outputs (some i) =
      (outputSummary output).map hash256 := by
  rw [computeHashOutputHashes, h]
  simp only
  rw [ok_bind, joinAll, joinAll]
  cases outputSummary output with
  | error e => rfl
  | ok b =>
    rw [ok_bind, ok_bind, pure_eq_ok, ok_bind, pure_eq_ok,
      List.append_nil, Except.map]

/-- **A pair signs for itself.** -/
theorem txPreimage_pair {inputs : List TransactionInput}
    {outputs : List TransactionOutput}
    {txVersion txLocktime : Int} {i : Nat} {input : TransactionInput}
    {output : TransactionOutput}
    (hinput : inputs[i]? = some input) (houtput : outputs[i]? = some output)
    (hsign : SignsOwnPair input.sighash) :
    txPreimage i inputs outputs txVersion txLocktime =
      pairPreimage input output txVersion txLocktime := by
  have hlt : i < outputs.length := (List.getElem?_eq_some_iff.mp houtput).1
  have hnot : ¬ signsAllOutputs input.sighash = true := by
    rw [signsAllOutputs, hsign.2]
    decide
  have hall : ¬ (!anyoneCanPay input.sighash) = true := by
    rw [hsign.1]
    decide
  have hboth : ¬ (!anyoneCanPay input.sighash &&
      signsAllOutputs input.sighash) = true := by
    rw [hsign.1, Bool.not_true, Bool.false_and]
    decide
  -- under SIGHASH_SINGLE only the output at the input's own index is hashed
  have hpair : singleOutput outputs i = (do
      let raw ← output.serialize
      let summary ← outputSummary output
      pure (hash256 raw, hash256 summary)) := by
    rw [singleOutput, houtput]
    simp only [computeHashOutputHashes_some houtput]
    cases output.serialize with
    | error e => rfl
    | ok raw =>
      cases outputSummary output with
      | error e => rfl
      | ok summary => rfl
  rw [txPreimage, hinput]
  simp only
  rw [if_neg hall, ok_bind, if_neg hboth, ok_bind, if_neg hnot,
    if_pos ⟨hsign.2, hlt⟩, hpair, pairPreimage]
  cases output.serialize with
  | error e => rfl
  | ok raw =>
    rw [ok_bind, ok_bind]
    cases outputSummary output with
    | error e => rfl
    | ok summary => rw [ok_bind, ok_bind, pure_eq_ok, ok_bind]

/-! ## Reading a preimage back -/

/-- A packed number has its width. -/
theorem toBytesLe_ok {k : Nat} {n : Int} {b : Bytes}
    (h : toBytesLe k n = .ok b) :
    b.length = k ∧ (leNat b : Int) = n := by
  unfold toBytesLe at h
  split at h
  · cases h
  · next hneg =>
    split at h
    · next hlt =>
      cases h
      exact ⟨length_leBytes k _, leNat_toBytesLe ⟨Int.not_lt.mp hneg, hlt⟩⟩
    · cases h

theorem toBytesLe_inj {k : Nat} {n m : Int} {b : Bytes}
    (hn : toBytesLe k n = .ok b)
    (hm : toBytesLe k m = .ok b) : n = m :=
  (toBytesLe_ok hn).2.symm.trans (toBytesLe_ok hm).2

/-- A packed amount is one that is set. -/
theorem satoshisBytes_ok {v : Option Int} {b : Bytes}
    (h : satoshisBytes v = .ok b) :
    b.length = 8 ∧ v = some (leNat b : Int) := by
  cases v with
  | none => cases h
  | some n =>
    obtain ⟨hlen, hn⟩ := toBytesLe_ok h
    exact ⟨hlen, by rw [hn]⟩

theorem scriptBytes_some_ok {script b : Bytes}
    (h : scriptBytes (some script) = .ok b) :
    ∃ hlt : script.length < 256 ^ 8, b = (Blob.ofBytes script hlt).bytes := by
  by_cases hlt : script.length < 256 ^ 8
  · rw [scriptBytes_some hlt, Except.ok.injEq] at h
    exact ⟨hlt, h.symm⟩
  · rw [scriptBytes, unsignedToVarint, if_pos (by omega)] at h
    cases h

/-- The fields of a preimage, as they stand in it. -/
structure PreimageFields (i : TransactionInput) (txVersion txLocktime : Int)
    (version txid index script value sequence locktime sighash : Bytes) :
    Prop where
  ofVersion : toBytesLe 4 txVersion = .ok version
  ofTxid : txidBytes i.sourceTxid = .ok txid
  ofIndex : toBytesLe 4 i.sourceOutputIndex = .ok index
  ofScript : i.lockingScript = some script
  ofValue : satoshisBytes i.satoshis = .ok value
  ofSequence : toBytesLe 4 i.sequence = .ok sequence
  ofLocktime : toBytesLe 4 txLocktime = .ok locktime
  ofSighash : toBytesLe 4 i.sighash = .ok sighash

/-- What a preimage that returns is made of. -/
theorem preimage_ok {i : TransactionInput} {txVersion txLocktime : Int}
    {hp hs hoh ho p : Bytes}
    (h : preimage i txVersion txLocktime hp hs hoh ho = .ok p) :
    ∃ version txid index script value sequence locktime sighash,
      PreimageFields i txVersion txLocktime version txid index script value
        sequence locktime sighash ∧
      ∃ hlt : script.length < 256 ^ 8, p =
        version ++ (hp ++ (hs ++ (txid ++ (index ++
        ((Blob.ofBytes script hlt).bytes ++
          (value ++ (sequence ++ (hoh ++ (ho ++ (locktime ++
          sighash)))))))))) := by
  unfold preimage at h
  obtain ⟨version, hversion, h⟩ := bind_ok.mp h
  obtain ⟨outpoint, houtpoint, h⟩ := bind_ok.mp h
  obtain ⟨scriptB, hscript, h⟩ := bind_ok.mp h
  obtain ⟨value, hvalue, h⟩ := bind_ok.mp h
  obtain ⟨sequence, hsequence, h⟩ := bind_ok.mp h
  obtain ⟨locktime, hlocktime, h⟩ := bind_ok.mp h
  obtain ⟨sighash, hsighash, h⟩ := bind_ok.mp h
  cases h
  rw [outpointBytes, bind_ok] at houtpoint
  obtain ⟨txid, htxid, houtpoint⟩ := houtpoint
  obtain ⟨index, hindex, houtpoint⟩ := bind_ok.mp houtpoint
  cases houtpoint
  cases hs : i.lockingScript with
  | none =>
    rw [hs] at hscript
    cases hscript
  | some script =>
    rw [hs] at hscript
    obtain ⟨hlt, rfl⟩ := scriptBytes_some_ok hscript
    refine ⟨version, txid, index, script, value, sequence, locktime, sighash,
      ⟨hversion, htxid, hindex, hs, hvalue, hsequence, hlocktime,
        hsighash⟩, hlt, ?_⟩
    simp only [List.append_assoc]

/-- Two inputs that a preimage cannot tell apart. -/
structure SamePreimageInput (i j : TransactionInput) : Prop where
  txid : txidBytes i.sourceTxid = txidBytes j.sourceTxid
  index : i.sourceOutputIndex = j.sourceOutputIndex
  script : i.lockingScript = j.lockingScript
  value : i.satoshis = j.satoshis
  sequence : i.sequence = j.sequence
  sighash : i.sighash = j.sighash

/-- Both outputs written out, different, with one hash. -/
def OutputCollision (o q : TransactionOutput) : Prop :=
  ∃ x y, o.serialize = .ok x ∧ q.serialize = .ok y ∧ x ≠ y ∧
    hash256 x = hash256 y

/-- The txids, or the scripts, take the same room: so it is when either of them
is kept, and whenever the txids have their 32 bytes. -/
def SameRoom (i j : TransactionInput) : Prop :=
  (∀ x y, txidBytes i.sourceTxid = .ok x → txidBytes j.sourceTxid = .ok y →
    x.length = y.length) ∨
    i.lockingScript.map List.length = j.lockingScript.map List.length

/-- An output is determined by its bytes. -/
theorem serialize_output_inj {o q : TransactionOutput} {b : Bytes}
    (ho : o.serialize = .ok b)
    (hq : q.serialize = .ok b) : o = q := by
  obtain ⟨oscript, ovalue⟩ := o
  obtain ⟨qscript, qvalue⟩ := q
  rw [TransactionOutput.serialize, bind_ok] at ho hq
  obtain ⟨ov, hov, ho⟩ := ho
  obtain ⟨os, hos, ho⟩ := bind_ok.mp ho
  obtain ⟨qv, hqv, hq⟩ := hq
  obtain ⟨qs, hqs, hq⟩ := bind_ok.mp hq
  rw [pure_eq_ok, Except.ok.injEq] at ho hq
  obtain ⟨holen, hov⟩ := satoshisBytes_ok hov
  obtain ⟨hqlen, hqv⟩ := satoshisBytes_ok hqv
  obtain ⟨holt, rfl⟩ := scriptBytes_some_ok hos
  obtain ⟨hqlt, rfl⟩ := scriptBytes_some_ok hqs
  obtain ⟨hv, hs⟩ := List.append_inj (ho.trans hq.symm) (holen.trans hqlen.symm)
  have hblob : Blob.ofBytes oscript holt = Blob.ofBytes qscript hqlt := by
    have happ : (Blob.ofBytes oscript holt).bytes ++
        [] = (Blob.ofBytes qscript hqlt).bytes ++ [] := by
      rw [hs]
    exact (Blob.delimited _ _ _ _ happ).1
  have hscript : oscript = qscript := congrArg Blob.data hblob
  simp only at hov hqv
  rw [hscript, hov, hqv, hv]

/-- **What the pair signs is in its preimage**: equal preimages are made from
equal versions, locktimes and inputs, and from equal outputs or a hash
collision. -/
theorem pairPreimage_inj {i j : TransactionInput} {o q : TransactionOutput}
    {v w l m : Int} {p : Bytes}
    (hroom : SameRoom i j) (hi : pairPreimage i o v l = .ok p)
    (hj : pairPreimage j q w m = .ok p) :
    v = w ∧ l = m ∧ SamePreimageInput i j ∧ (o = q ∨ OutputCollision o q) := by
  unfold pairPreimage at hi hj
  obtain ⟨x, hx, hi⟩ := bind_ok.mp hi
  obtain ⟨sx, hsx, hi⟩ := bind_ok.mp hi
  obtain ⟨y, hy, hj⟩ := bind_ok.mp hj
  obtain ⟨sy, hsy, hj⟩ := bind_ok.mp hj
  obtain ⟨iv, it, ii, is, ia, iq, il, ig, fi, hilt, hpi⟩ := preimage_ok hi
  obtain ⟨jv, jt, ji, js, ja, jq, jl, jg, fj, hjlt, hpj⟩ := preimage_ok hj
  have heq := hpi.symm.trans hpj
  have lv :=
    (toBytesLe_ok fi.ofVersion).1.trans (toBytesLe_ok fj.ofVersion).1.symm
  have li := (toBytesLe_ok fi.ofIndex).1.trans (toBytesLe_ok fj.ofIndex).1.symm
  have la :=
    (satoshisBytes_ok fi.ofValue).1.trans (satoshisBytes_ok fj.ofValue).1.symm
  have lq :=
    (toBytesLe_ok fi.ofSequence).1.trans (toBytesLe_ok fj.ofSequence).1.symm
  have ll :=
    (toBytesLe_ok fi.ofLocktime).1.trans (toBytesLe_ok fj.ofLocktime).1.symm
  have lg :=
    (toBytesLe_ok fi.ofSighash).1.trans (toBytesLe_ok fj.ofSighash).1.symm
  have lh : ∀ a b : Bytes, (hash256 a).length = (hash256 b).length := fun a b =>
    (length_sha256 _).trans (length_sha256 _).symm
  -- the txid takes as much room in both
  have lt : it.length = jt.length := by
    rcases hroom with hroom | hroom
    · exact hroom it jt fi.ofTxid fj.ofTxid
    · rw [fi.ofScript, fj.ofScript, Option.map_some, Option.map_some,
        Option.some.injEq] at hroom
      have hblob : (Blob.ofBytes is hilt).bytes.length =
          (Blob.ofBytes js hjlt).bytes.length := by
        show (compactBytes is.length ++ is).length =
          (compactBytes js.length ++ js).length
        rw [List.length_append, List.length_append, hroom]
      have htotal := congrArg List.length heq
      have hh1 := lh sx sy
      have hh2 := lh x y
      simp only [List.length_append] at htotal
      omega
  obtain ⟨hv, heq⟩ := List.append_inj heq lv
  obtain ⟨-, heq⟩ := List.append_inj heq rfl
  obtain ⟨-, heq⟩ := List.append_inj heq rfl
  obtain ⟨ht, heq⟩ := List.append_inj heq lt
  obtain ⟨hidx, heq⟩ := List.append_inj heq li
  obtain ⟨hscript, heq⟩ := Blob.delimited _ _ _ _ heq
  obtain ⟨ha, heq⟩ := List.append_inj heq la
  obtain ⟨hq, heq⟩ := List.append_inj heq lq
  obtain ⟨-, heq⟩ := List.append_inj heq (lh _ _)
  obtain ⟨hout, heq⟩ := List.append_inj heq (lh _ _)
  obtain ⟨hl, hg⟩ := List.append_inj heq ll
  subst hv ht hidx ha hq hl hg
  have hs : is = js := congrArg Blob.data hscript
  refine ⟨toBytesLe_inj fi.ofVersion fj.ofVersion,
    toBytesLe_inj fi.ofLocktime fj.ofLocktime,
    ⟨fi.ofTxid.trans fj.ofTxid.symm,
      toBytesLe_inj fi.ofIndex fj.ofIndex, ?_, ?_,
      toBytesLe_inj fi.ofSequence fj.ofSequence, ?_⟩, ?_⟩
  · rw [fi.ofScript, fj.ofScript, hs]
  · rw [(satoshisBytes_ok fi.ofValue).2, (satoshisBytes_ok fj.ofValue).2]
  · exact_mod_cast toBytesLe_inj fi.ofSighash fj.ofSighash
  · by_cases hxy : x = y
    · subst hxy
      exact .inl (serialize_output_inj hx hy)
    · exact .inr ⟨x, y, hx, hy, hxy, hout⟩

/-! ## Main theorem -/

/-- **Preimages.** `tx_preimages` lists the single preimages whenever it
returns, which it does when they and its four hashes can be computed. A
`SINGLE|ANYONECANPAY` preimage is the same beside any other inputs and outputs,
and differs as soon as its own input, its own output, the version or the
locktime does, up to a hash collision. -/
theorem preimages_spec :
    (∀ inputs outputs txVersion txLocktime ps,
      txPreimages inputs outputs txVersion txLocktime = .ok ps ↔
        (∃ p s o oh, HashesAll inputs outputs p s o oh) ∧
          ps.length = inputs.length ∧
          ∀ i < inputs.length, ∃ p, ps[i]? = some p ∧
            txPreimage i inputs outputs txVersion txLocktime = .ok p) ∧
    (∀ (i : Nat) (inputs inputs' : List TransactionInput) (outputs outputs' :
      List TransactionOutput)
      (txVersion txLocktime : Int) (input : TransactionInput)
        (output : TransactionOutput),
      inputs[i]? = some input → inputs'[i]? = some input →
        outputs[i]? = some output →
      outputs'[i]? = some output → SignsOwnPair input.sighash →
      txPreimage i inputs outputs txVersion txLocktime =
        txPreimage i inputs' outputs' txVersion txLocktime) ∧
    (∀ (i : Nat) (inputs inputs' : List TransactionInput) (outputs outputs' :
      List TransactionOutput)
      (v w l m : Int) (input input' : TransactionInput)
        (output output' : TransactionOutput) (p : Bytes),
      inputs[i]? = some input → inputs'[i]? = some input' →
        outputs[i]? = some output →
      outputs'[i]? = some output' → SignsOwnPair input.sighash →
        SignsOwnPair input'.sighash →
      SameRoom input input' → txPreimage i inputs outputs v l = .ok p →
      txPreimage i inputs' outputs' w m = .ok p →
      v = w ∧ l = m ∧ SamePreimageInput input input' ∧
        (output = output' ∨ OutputCollision output output')) := by
  refine ⟨?_, ?_, ?_⟩
  · intro inputs outputs txVersion txLocktime ps
    exact txPreimages_ok
  · intro i inputs inputs' outputs outputs' txVersion txLocktime input output
      hin hin' hout hout' hsign
    rw [txPreimage_pair hin hout hsign, txPreimage_pair hin' hout' hsign]
  · intro i inputs inputs' outputs outputs' v w l m input input' output output'
      p hin hin' hout hout'
      hsign hsign' hroom hp hp'
    rw [txPreimage_pair hin hout hsign] at hp
    rw [txPreimage_pair hin' hout' hsign'] at hp'
    exact pairPreimage_inj hroom hp hp'

/-! ## Where a preimage is returned -/

/-- A list is written when each item is. -/
theorem joinAll_returns {α : Type} {f : α → Except PyErr Bytes} :
    ∀ {l : List α},
    (∀ a ∈ l, ∃ b, f a = .ok b) → ∃ b, joinAll f l = .ok b := by
  intro l
  induction l with
  | nil => intro _; exact ⟨[], rfl⟩
  | cons a l ih =>
    intro h
    obtain ⟨x, hx⟩ := h a List.mem_cons_self
    obtain ⟨rest, hrest⟩ := ih fun c hc => h c (List.mem_cons_of_mem _ hc)
    exact ⟨x ++ rest, by rw [joinAll, hx, ok_bind, hrest]; rfl⟩

/-- An input whose spent output is known. -/
structure TransactionInput.Signable (i : TransactionInput) :
    Prop extends i.Fits where
  value : ∃ n : Int, i.satoshis = some n ∧ 0 ≤ n ∧ n < 256 ^ 8
  lockingScript : ∃ s, i.lockingScript = some s ∧ s.length < 256 ^ 8
  sighash : i.sighash < 256 ^ 4

/-- An output whose refs can be counted. -/
structure TransactionOutput.Countable (o : TransactionOutput) :
    Prop extends o.Fits where
  refs : ∃ refs, getPushRefs o.lockingScript = .ok refs ∧ refs.length < 256 ^ 4

/-- An outpoint in range is written. -/
theorem outpointBytes_returns {i : TransactionInput} (h : i.Fits) : ∃ b, outpointBytes i = .ok b := by
  obtain ⟨txid, htxid, -⟩ := h.txid
  exact ⟨_, by rw [outpointBytes, htxid, ok_bind, toBytesLe_of_range h.index, ok_bind]; rfl⟩

/-- A countable output is summed up. -/
theorem outputSummary_returns {o : TransactionOutput} (h : o.Countable) :
    ∃ b, outputSummary o = .ok b := by
  obtain ⟨value, hvalue, hrange⟩ := h.value
  obtain ⟨refs, hrefs, hcount⟩ := h.refs
  exact ⟨_, by
    rw [outputSummary, hvalue, satoshisBytes, toBytesLe_of_range hrange,
      ok_bind, hrefs, ok_bind,
      toBytesLe_of_range (by omega), ok_bind]
    rfl⟩

/-- A signable input has a preimage. -/
theorem preimage_returns {i : TransactionInput} (h : i.Signable)
    {txVersion txLocktime : Int}
    (hversion : 0 ≤ txVersion ∧ txVersion < 256 ^ 4)
    (hlocktime : 0 ≤ txLocktime ∧ txLocktime < 256 ^ 4)
    (hp hs hoh ho : Bytes) :
    ∃ p, preimage i txVersion txLocktime hp hs hoh ho = .ok p := by
  obtain ⟨outpoint, houtpoint⟩ := outpointBytes_returns h.toFits
  obtain ⟨value, hvalue, hrange⟩ := h.value
  obtain ⟨script, hscript, hlen⟩ := h.lockingScript
  have hsighash := h.sighash
  exact ⟨_, by
    rw [preimage, toBytesLe_of_range hversion, ok_bind, houtpoint,
      ok_bind, hscript]
    dsimp only
    rw [scriptBytes_some hlen, ok_bind, hvalue, satoshisBytes,
      toBytesLe_of_range hrange, ok_bind, toBytesLe_of_range h.sequence,
      ok_bind, toBytesLe_of_range hlocktime, ok_bind,
      toBytesLe_of_range (by omega), ok_bind]
    rfl⟩

/-- **A signature over everything has a preimage** once everything fits. -/
theorem txPreimage_returns {i : Nat} {inputs : List TransactionInput}
    {outputs : List TransactionOutput}
    {txVersion txLocktime : Int} {input : TransactionInput}
    (hinput : inputs[i]? = some input)
    (hsign : input.Signable) (hall : anyoneCanPay input.sighash = false ∧
      signsAllOutputs input.sighash = true) (hins : ∀ j ∈ inputs, j.Fits)
    (houts : ∀ o ∈ outputs, o.Countable)
    (hversion : 0 ≤ txVersion ∧ txVersion < 256 ^ 4)
    (hlocktime : 0 ≤ txLocktime ∧ txLocktime < 256 ^ 4) :
    ∃ p, txPreimage i inputs outputs txVersion txLocktime = .ok p := by
  obtain ⟨prevouts, hprevouts⟩ :=
    joinAll_returns fun j hj => outpointBytes_returns (hins j hj)
  obtain ⟨sequences, hsequences⟩ := joinAll_returns fun j hj =>
    ⟨_, toBytesLe_of_range (hins j hj).sequence⟩
  obtain ⟨raw, hraw⟩ : ∃ b, joinAll TransactionOutput.serialize outputs =
      .ok b := by
    refine joinAll_returns fun o ho => ?_
    obtain ⟨w, -, hw, -⟩ := (houts o ho).toFits.serialize
    exact ⟨w.bytes, hw⟩
  obtain ⟨summaries, hsummaries⟩ :=
    joinAll_returns fun o ho => outputSummary_returns (houts o ho)
  obtain ⟨p, hp⟩ := preimage_returns hsign hversion hlocktime (hash256 prevouts)
    (hash256 sequences)
    (hash256 summaries) (hash256 raw)
  refine ⟨p, ?_⟩
  have hboth : allOutputsHashes outputs = .ok (hash256 raw,
      hash256 summaries) := by
    rw [allOutputsHashes, hashAllOutputs, hraw, ok_bind, pure_eq_ok, ok_bind,
      computeHashOutputHashes]
    rw [ok_bind, hsummaries]
    rfl
  rw [txPreimage, hinput]
  dsimp only
  rw [hall.1, hall.2, if_pos rfl, if_pos Bool.not_false,
    if_pos (show (!false && true) = true from rfl), hashAllPrevouts, hprevouts,
      ok_bind, pure_eq_ok,
    ok_bind, hashAllSequences, hsequences, ok_bind, pure_eq_ok, ok_bind,
      hboth, ok_bind]
  exact hp

/-- A `SINGLE|ANYONECANPAY` input, and two outputs of which the second pushes
half a ref. -/
def sampleInput : TransactionInput where
  sourceTxid := some (hex (List.replicate 32 0x07))
  sourceOutputIndex := 1
  unlockingScript := none
  sequence := 4294967295
  satoshis := some 5000
  lockingScript := some [0x51]
  sighash := 0xC3

def sampleOutput : TransactionOutput := ⟨[0x51], some 1000⟩

def halfRefOutput : TransactionOutput := ⟨[0xD0, 0x01, 0x02], some 1000⟩

/-- One preimage without all of them. -/
theorem txPreimages_raises_halfRef :
    (∃ p, txPreimage 0 [sampleInput] [sampleOutput,
      halfRefOutput] 1 0 = .ok p) ∧
      ∀ ps, txPreimages [sampleInput] [sampleOutput,
        halfRefOutput] 1 0 ≠ .ok ps := by
  refine ⟨isOk_iff.mp (by decide), ?_⟩
  intro ps h
  have hraises : (txPreimages [sampleInput] [sampleOutput,
      halfRefOutput] 1 0).isOk = false := by
    decide
  rw [h] at hraises
  cases hraises

/-- The statement at the sample transaction. -/
theorem preimages_spec_sample :
    ∃ ps p, txPreimages [sampleInput]
      [sampleOutput, sampleOutput] 1 0 = .ok ps ∧ ps[0]? = some p ∧
      txPreimage 0 [sampleInput] [sampleOutput, sampleOutput] 1 0 = .ok p ∧
      txPreimage 0 [sampleInput, sampleInput] [sampleOutput,
        halfRefOutput] 1 0 = .ok p ∧
      ∀ w m, txPreimage 0 [sampleInput] [sampleOutput] w m = .ok p →
        1 = w ∧ 0 = m := by
  have hsign : SignsOwnPair sampleInput.sighash := by
    refine ⟨?_, ?_⟩ <;> decide
  obtain ⟨ps, hps⟩ := isOk_iff.mp (by decide :
    (txPreimages [sampleInput] [sampleOutput, sampleOutput] 1 0).isOk = true)
  obtain ⟨-, -, hall⟩ := (preimages_spec.1 _ _ _ _ _).mp hps
  obtain ⟨p, hp, hone⟩ := hall 0 (by decide)
  refine ⟨ps, p, hps, hp, hone, ?_, ?_⟩
  · rw [← hone]
    exact preimages_spec.2.1 0 _ _ _ _ 1 0 sampleInput sampleOutput rfl
      rfl rfl rfl hsign
  · intro w m hw
    have hsame := preimages_spec.2.2 0 _ _ _ _ 1 w 0 m sampleInput sampleInput
      sampleOutput sampleOutput p
      rfl rfl rfl rfl hsign hsign (.inr rfl) hone hw
    exact ⟨hsame.1, hsame.2.1⟩

end Pyrxd.Tx
