import Pyrxd.Swap.Partial
import Pyrxd.Tx.PreimageSpec

/-!
# What `Transaction.sign` does

The loop of `Transaction.sign` fills in one unlocking script after another, and
every template is handed the transaction with the scripts filled in so far. A
preimage does not look at unlocking scripts, so each signature is the one over
the transaction as it was before the loop (`signFrom_eq`): what `sign` does is
`signEach`, input by input.
-/

namespace Pyrxd.Swap

open Pyrxd.Lib Pyrxd.Tx

/-- An input without its unlocking script: all that a preimage sees. -/
def bare (i : TransactionInput) : TransactionInput :=
  { i with unlockingScript := none }

theorem joinAll_comp {α β : Type} {f : β → Except PyErr Bytes} {g : α → β} :
    ∀ {l : List α},
    joinAll f (l.map g) = joinAll (fun a => f (g a)) l := by
  intro l
  induction l with
  | nil => rfl
  | cons a l ih => rw [List.map_cons, joinAll, joinAll, ih]

/-- A preimage does not depend on the unlocking scripts. -/
theorem txPreimage_bare (index : Nat) (inputs : List TransactionInput)
    (outputs : List TransactionOutput)
    (version locktime : Int) :
    txPreimage index (inputs.map bare) outputs version locktime =
      txPreimage index inputs outputs version locktime := by
  have hprev : hashAllPrevouts (inputs.map bare) = hashAllPrevouts inputs := by
    rw [hashAllPrevouts, hashAllPrevouts, joinAll_comp]
    rfl
  have hseq : hashAllSequences (inputs.map bare) = hashAllSequences inputs := by
    rw [hashAllSequences, hashAllSequences, joinAll_comp]
    rfl
  unfold txPreimage
  rw [List.getElem?_map, hprev, hseq]
  cases inputs[index]? with
  | none => rfl
  | some input => rfl

section Sign

variable {Key Secret : Type} {curve : Curve Key Secret}

/-- Two drafts that a preimage cannot tell apart. -/
structure SameUnsigned (d e : Draft Secret) : Prop where
  inputs : d.inputs.map (fun t => bare t.input) =
    e.inputs.map fun t => bare t.input
  outputs : d.outputs = e.outputs
  version : d.version = e.version
  locktime : d.locktime = e.locktime

/-- Signatures are over what is the same unsigned. -/
theorem SameUnsigned.preimage {d e : Draft Secret}
    (h : SameUnsigned d e) (i : Nat) :
    d.preimage i = e.preimage i := by
  have hlen : d.inputs.length = e.inputs.length := by
    have := congrArg List.length h.inputs
    rwa [List.length_map, List.length_map] at this
  have hmap : ∀ l : List (DraftInput Secret), l.map (fun t => bare t.input) =
      (l.map DraftInput.input).map bare := by
    intro l
    rw [List.map_map]
    rfl
  have hins := h.inputs
  rw [hmap, hmap] at hins
  rw [Draft.preimage, Draft.preimage, hlen, ← txPreimage_bare _
    (d.inputs.map _), hins, txPreimage_bare, h.outputs, h.version, h.locktime]

theorem SameUnsigned.signTurn {d e : Draft Secret}
    (h : SameUnsigned d e) (i : Nat) (t : DraftInput Secret) :
    signTurn curve d i t = signTurn curve e i t := by
  unfold Swap.signTurn p2pkhSign
  rw [h.preimage i]

/-- Signing changes nothing but the unlocking script. -/
theorem signTurn_bare {d : Draft Secret} {i : Nat} {t t' : DraftInput Secret}
    (h : Swap.signTurn curve d i t = .ok t') : bare t'.input = bare t.input ∧
    t'.template = t.template := by
  unfold Swap.signTurn at h
  split at h
  · cases h
    exact ⟨rfl, rfl⟩
  · split at h
    · cases h
    · obtain ⟨script, -, h⟩ := bind_ok.mp h
      cases h
      exact ⟨rfl, rfl⟩

/-- Every input signed in the transaction as it stands. -/
def signEach (curve : Curve Key Secret) (d : Draft Secret) :
    Nat → List (DraftInput Secret) → Except PyErr (List (DraftInput Secret))
  | _, [] => .ok []
  | i, t :: rest => do
    let t ← Swap.signTurn curve d i t
    let rest ← signEach curve d (i + 1) rest
    return t :: rest

/-- So signing from any turn on does. -/
theorem signFrom_eq {d e : Draft Secret} (houts : d.outputs = e.outputs)
    (hver : d.version = e.version)
    (hlock : d.locktime = e.locktime) (rest : List (DraftInput Secret)) :
    ∀ done : List (DraftInput Secret),
    (done ++ rest).map (fun t => bare t.input) = e.inputs.map
      (fun t => bare t.input) →
      signFrom curve d done rest =
        (signEach curve e done.length rest).map (done ++ ·) := by
  -- turn by turn: what is signed does not depend on the scripts before it
  induction rest with
  | nil =>
    intro done _
    rw [signFrom, signEach, Except.map, List.append_nil]
  | cons t rest ih =>
    intro done hins
    have hsame : SameUnsigned { d with inputs := done ++ t :: rest } e :=
      ⟨hins, houts, hver, hlock⟩
    rw [signFrom, signEach, hsame.signTurn]
    cases hturn : Swap.signTurn curve e done.length t with
    | error err => rfl
    | ok t' =>
      rw [ok_bind, ok_bind]
      have hnext : (done ++ [t'] ++ rest).map (fun t => bare t.input) =
          e.inputs.map fun t => bare t.input := by
        rw [← hins]
        simp only [List.append_assoc, List.singleton_append, List.map_append,
          List.map_cons, (signTurn_bare hturn).1]
      rw [ih _ hnext, List.length_append, List.length_singleton]
      cases signEach curve e (done.length + 1) rest with
      | error err => rfl
      | ok l =>
        show Except.ok (done ++ [t'] ++ l) = Except.ok (done ++ t' :: l)
        rw [List.append_assoc, List.singleton_append]

/-- `Transaction.sign(bypass=True)`, input by input. -/
theorem sign_eq {d : Draft Secret}
    (h : d.outputs.any (fun o => o.satoshis.isNone) = false) :
    sign curve d = (signEach curve d 0 d.inputs).map fun inputs =>
      { d with inputs } := by
  rw [sign, h, if_neg Bool.false_ne_true,
    signFrom_eq rfl rfl rfl d.inputs [] rfl]
  cases signEach curve d 0 d.inputs with
  | error e => rfl
  | ok l => rfl

/-- What became of the inputs, one by one. -/
theorem signEach_ok {d : Draft Secret} {rest : List (DraftInput Secret)} :
    ∀ {i : Nat} {l : List (DraftInput Secret)}, signEach curve d i rest =
      .ok l → l.length = rest.length ∧
      ∀ (k : Nat) (t : DraftInput Secret), rest[k]? = some t →
        ∃ t', l[k]? = some t' ∧ Swap.signTurn curve d (i + k) t = .ok t' := by
  induction rest with
  | nil =>
    intro i l h
    cases h
    exact ⟨rfl, nofun⟩
  | cons t rest ih =>
    intro i l h
    rw [signEach] at h
    obtain ⟨t', ht, h⟩ := bind_ok.mp h
    obtain ⟨l', hl, h⟩ := bind_ok.mp h
    cases h
    obtain ⟨hlen, hget⟩ := ih hl
    refine ⟨by rw [List.length_cons, List.length_cons, hlen], fun k u hu => ?_⟩
    cases k with
    | zero =>
      cases hu
      exact ⟨t', rfl, ht⟩
    | succ k =>
      obtain ⟨u', hu', hturn⟩ := hget k u hu
      refine ⟨u', hu', ?_⟩
      rwa [show i + (k + 1) = i + 1 + k by omega]

/-- Signing keeps what the inputs spend and what they are worth. -/
theorem signEach_bare {d : Draft Secret}
    {rest : List (DraftInput Secret)} : ∀ {i : Nat}
    {l : List (DraftInput Secret)}, signEach curve d i rest = .ok l →
      l.map (fun t => bare t.input) = rest.map fun t => bare t.input := by
  induction rest with
  | nil =>
    intro i l h
    cases h
    rfl
  | cons t rest ih =>
    intro i l h
    rw [signEach] at h
    obtain ⟨t', ht, h⟩ := bind_ok.mp h
    obtain ⟨l', hl, h⟩ := bind_ok.mp h
    cases h
    rw [List.map_cons, List.map_cons, (signTurn_bare ht).1, ih hl]

/-- What a signed draft has of the unsigned one. -/
theorem sign_keeps {d d' : Draft Secret} (h : sign curve d = .ok d') :
    SameUnsigned d' d ∧ signEach curve d 0 d.inputs = .ok d'.inputs := by
  cases hnone : d.outputs.any fun o => o.satoshis.isNone with
  | true =>
    rw [sign, hnone, if_pos rfl] at h
    cases h
  | false =>
    rw [sign_eq hnone] at h
    cases heach : signEach curve d 0 d.inputs with
    | error e =>
      rw [heach] at h
      cases h
    | ok l =>
      rw [heach] at h
      cases h
      exact ⟨⟨signEach_bare heach, rfl, rfl, rfl⟩, rfl⟩

end Sign

end Pyrxd.Swap
