import Mathlib.Logic.Relation
import Pyrxd.Glyph.Daa
import Pyrxd.Hd.Bip32
import Pyrxd.Tx.MerklePath

/-!
# The parallel miner

`contrib/miner/parallel.py`: workers sweep strided slices of the nonces, the
first to find one publishes it, and the parent joins them all and reads what was
published. Who moves is up to the scheduler, and a worker can be lost at any
time. What is invariant (`Swept`) is what a worker has ruled out by the place it
has come to; the parent asks none of them for it, and `mine_sound_iff` says in
which runs its answer is right all the same.
-/

namespace Pyrxd.Glyph

open Pyrxd.Lib
open Pyrxd.Hd (beNat)
open Pyrxd.Tx (raiseIf raiseIf_ok toBytesLe)

/-! ## Solutions -/

/-- `verify_sha256d_solution`. -/
def verifySha256dSolution (preimage nonce : Bytes) (target nonceWidth : Int) :
    Except PyErr Bool := do
  refuseIf (¬ (nonceWidth = 4 ∨ nonceWidth = 8))
    ("nonce_width must be 4 or 8, got " ++ toString nonceWidth)
  refuseIf ((nonce.length : Int) ≠ nonceWidth)
    ("nonce must be " ++ toString nonceWidth ++ " bytes, got " ++
      toString nonce.length)
  if target ≤ 0 then return false
  else
    let effectiveTarget := min target maxSha256dTarget
    let full := hash256 (preimage ++ nonce)
    if full.take 4 ≠ [0, 0, 0, 0] then return false
    else return decide ((beNat ((full.drop 4).take 8) : Int) < effectiveTarget)

structure MineParams where
  preimage : Bytes
  target : Int
  nonceWidth : Int
  nWorkers : Int
  nonceMax : Int

namespace MineParams

variable (p : MineParams)

/-- The checks at the head of `mine`. -/
def check : Except PyErr Unit := do
  raiseIf (¬ (p.nonceWidth = 4 ∨ p.nonceWidth = 8))
    ("nonce_width must be 4 or 8, got " ++ toString p.nonceWidth)
  raiseIf (p.preimage.length ≠ 64) ("preimage must be 64 bytes, got " ++
    toString p.preimage.length)
  raiseIf (p.target ≤ 0) ("target must be positive, got " ++ toString p.target)
  raiseIf (p.nWorkers < 1) ("n_workers must be ≥ 1, got " ++
    toString p.nWorkers)
  raiseIf (p.nonceMax < 1) ("nonce_max must be ≥ 1, got " ++
    toString p.nonceMax)

/-- The test of a worker. -/
def Finds (nonce : Bytes) : Prop :=
  let digest := hash256 (p.preimage ++ nonce)
  digest.take 4 = [0, 0, 0, 0] ∧
    (beNat ((digest.drop 4).take 8) : Int) < min p.target maxSha256dTarget

instance (nonce : Bytes) : Decidable (p.Finds nonce) :=
  inferInstanceAs (Decidable (_ ∧ _))

def width : Nat := p.nonceWidth.toNat
def workers : Nat := p.nWorkers.toNat

/-- The nonce of turn `k` of worker `i`. -/
def nonceAt (i k : Nat) : Nat := i + k * p.workers

end MineParams

/-! ## Workers and their parent -/

/-- Where a worker is, with the number of nonces it has tried. -/
inductive Phase where
  | idle
  | turn (k : Nat)
  /-- It holds a solution, and not yet the lock. -/
  | found (n k : Nat)
  | poll (k : Nat)
  | leave (k : Nat)
  | ended
  /-- Killed, or ended by an exception. -/
  | lost
deriving DecidableEq

namespace Phase

/-- There is no process any more. -/
def Exited (phase : Phase) : Prop := phase = ended ∨ phase = lost

instance (phase : Phase) : Decidable phase.Exited :=
  inferInstanceAs (Decidable (_ ∨ _))

/-- There is one. -/
def Running (phase : Phase) : Prop := phase ≠ idle ∧ ¬ phase.Exited

instance (phase : Phase) : Decidable phase.Running :=
  inferInstanceAs (Decidable (_ ∧ _))

/-- A worker that has started and neither ended nor died is running. -/
theorem running_of_ne {phase : Phase} (hidle : phase ≠ idle)
    (hended : phase ≠ ended) (hlost : phase ≠ lost) : phase.Running :=
  ⟨hidle, fun h => h.elim hended hlost⟩

end Phase

/-- What `mine` returns. -/
inductive MineResult where
  | success (nonce : Bytes) (attempts : Nat)
  | exhausted
deriving DecidableEq

inductive Parent where
  | spawning (i : Nat)
  | joining (i : Nat)
  | returned (r : Except PyErr MineResult)
  /-- Left by an exception of `start`, or by a signal. -/
  | interrupted
deriving DecidableEq

/-- Still in the `with` block. -/
def Parent.Busy : Parent → Prop
  | spawning _ | joining _ => True
  | returned _ | interrupted => False

/-- The processes and what they share: `found_event` with `found_value`, and
`attempts_counter`. -/
structure Mining where
  parent : Parent
  worker : Nat → Phase
  found : Option Nat
  attempts : Nat

/-- The state in which the parent enters the block. -/
def Mining.start : Mining := ⟨.spawning 0, fun _ => .idle, none, 0⟩

/-- `check_interval`. -/
def checkInterval : Nat := 65536

section Moves

variable (p : MineParams) (s : Mining)

def Mining.move (i : Nat) (phase : Phase) : Mining :=
  { s with worker := Function.update s.worker i phase }

/-- One turn of the loop of `_worker`. -/
def workerTurn (i k : Nat) : Phase :=
  let n := p.nonceAt i k
  if ¬ (n : Int) < p.nonceMax then .leave k
  else
    match toBytesLe p.width n with
    | .error _ => .lost
    | .ok nonce =>
      if p.Finds nonce then .found n (k + 1)
      else if (k + 1) &&& (checkInterval - 1) = 0 then .poll (k + 1)
      else .turn (k + 1)

/-- `_worker`. -/
def workerStep (i : Nat) : Mining :=
  match s.worker i with
  | .turn k => s.move i (workerTurn p i k)
  | .found n k =>
    { s.move i (.leave k) with found := some (s.found.getD (n % 2 ^ 64)) }
  | .poll k => s.move i (if s.found.isSome then .leave k else .turn k)
  | .leave k => { s.move i .ended with attempts := (s.attempts + k) % 2 ^ 64 }
  | .idle | .ended | .lost => s

/-- The end of `mine`, behind the joins. -/
def mineAnswer : Except PyErr MineResult :=
  match s.found with
  | none => .ok .exhausted
  | some n => do
    let nonce ← toBytesLe p.width n
    return .success nonce s.attempts

/-- `mine`. -/
def parentStep : Mining :=
  match s.parent with
  | .spawning i =>
    if i <
      p.workers then { s.move i (.turn 0) with parent := .spawning (i + 1) }
    else { s with parent := .joining 0 }
  | .joining i =>
    if i < p.workers then if (s.worker i).Exited then { s with parent := .joining (i + 1) } else s
    else { s with parent := .returned (mineAnswer p s) }
  | .returned _ | .interrupted => s

end Moves

/-- A move of anyone. -/
inductive Mining.Step (p : MineParams) : Mining → Mining → Prop where
  | parent (s : Mining) : Step p s (parentStep p s)
  | worker (s : Mining) (i : Nat) : Step p s (workerStep p s i)
  | lose (s : Mining) (i : Nat) (h : (s.worker i).Running) :
      Step p s (s.move i .lost)
  | interrupt (s : Mining) (h : s.parent.Busy) :
      Step p s { s with parent := .interrupted }

/-- A run of `mine`, whatever the order. -/
def Mining.Run (p : MineParams) : Mining → Prop :=
  Relation.ReflTransGen (Mining.Step p) Mining.start

/-! ## What is ruled out -/

namespace MineParams

variable {p : MineParams}

def Solves (p : MineParams) (n : Nat) : Prop := p.Finds (leBytes p.width n)

/-- The first `k` nonces of worker `i` are no solutions. -/
def RuledOut (p : MineParams) (i k : Nat) : Prop :=
  ∀ j < k, (p.nonceAt i j : Int) < p.nonceMax → ¬ p.Solves (p.nonceAt i j)

/-- What `mine` accepts, with all the nonces of the width at most. -/
structure Accepted (p : MineParams) : Prop where
  check : p.check = .ok ()
  fits : p.nonceMax ≤ 2 ^ (8 * p.width)

namespace Accepted

/-- What the parameter checks have established. -/
theorem checked (h : p.Accepted) : (p.nonceWidth = 4 ∨ p.nonceWidth = 8) ∧
    0 < p.target ∧ 0 < p.workers := by
  obtain ⟨_, hwidth, h⟩ := bind_ok.mp h.check
  obtain ⟨_, _, h⟩ := bind_ok.mp h
  obtain ⟨_, htarget, h⟩ := bind_ok.mp h
  obtain ⟨_, hworkers, _⟩ := bind_ok.mp h
  have hpos := raiseIf_ok.mp hworkers
  exact ⟨not_not.mp (raiseIf_ok.mp hwidth),
    Int.not_le.mp (raiseIf_ok.mp htarget), by unfold workers; omega⟩

/-- A nonce under the bound fits the width. -/
theorem below (h : p.Accepted) {n : Nat} (hn : (n : Int) < p.nonceMax) :
    n < 256 ^ p.width := by
  have hfits := h.fits
  rw [pow_mul, show (2 : Int) ^ 8 = 256 by rfl] at hfits
  exact_mod_cast Int.lt_of_lt_of_le hn hfits

/-- So it is packed without an error. -/
theorem toBytesLe_ok (h : p.Accepted) {n : Nat} (hn : (n : Int) < p.nonceMax) :
    toBytesLe p.width n = .ok (leBytes p.width n) := by
  rw [toBytesLe, if_neg (by omega), if_pos (by exact_mod_cast h.below hn),
    Int.toNat_natCast]

/-- `found_value` holds 64 bits, and no nonce has more. -/
theorem mod_eq (h : p.Accepted) {n : Nat} (hn : (n : Int) < p.nonceMax) :
    n % 2 ^ 64 = n := by
  refine Nat.mod_eq_of_lt (Nat.lt_of_lt_of_le (h.below hn) ?_)
  unfold width
  rcases h.checked.1 with hw | hw
  · rw [hw]
    decide
  · rw [hw]
    decide

/-- Worker and verifier have the same test. -/
theorem verify_iff (h : p.Accepted) (n : Nat) :
    verifySha256dSolution p.preimage (leBytes p.width n) p.target p.nonceWidth =
      .ok true ↔ p.Solves n := by
  obtain ⟨hwidth, htarget, -⟩ := h.checked
  have hlen : ((leBytes p.width n).length : Int) = p.nonceWidth := by
    rw [length_leBytes, width]
    omega
  unfold verifySha256dSolution
  rw [refuseIf_bind_ok, refuseIf_bind_ok, if_neg (Int.not_le.mpr htarget)]
  unfold Solves Finds
  by_cases hzero : (hash256 (p.preimage ++ leBytes p.width n)).take 4 = [0, 0,
    0, 0]
  · simp only [hzero, ne_eq, not_true_eq_false, if_false, true_and, pure_eq_ok,
      Except.ok.injEq, decide_eq_true_eq]
    exact ⟨fun h => h.2.2, fun h => ⟨not_not.mpr hwidth, not_not.mpr hlen, h⟩⟩
  · simp only [hzero, ne_eq, not_false_eq_true, if_true, false_and, iff_false,
      pure_eq_ok, Except.ok.injEq]
    exact fun h => absurd h.2.2 (by decide)

/-- A worker's turn leaves the loop, reports a solution or goes on to its next
nonce. -/
theorem workerTurn_cases (h : p.Accepted) (i k : Nat) :
    ¬ (p.nonceAt i k : Int) < p.nonceMax ∧ workerTurn p i k = .leave k ∨
    ((p.nonceAt i k : Int) < p.nonceMax ∧ p.Solves (p.nonceAt i k)) ∧
      workerTurn p i k = .found (p.nonceAt i k) (k + 1) ∨
    ¬ p.Solves (p.nonceAt i k) ∧ (workerTurn p i k = .poll (k + 1) ∨
      workerTurn p i k = .turn (k + 1)) := by
  unfold workerTurn
  dsimp only
  by_cases hn : (p.nonceAt i k : Int) < p.nonceMax
  · rw [if_neg (not_not.mpr hn), h.toBytesLe_ok hn]
    dsimp only
    by_cases hsolves : p.Finds (leBytes p.width (p.nonceAt i k))
    · exact .inr (.inl ⟨⟨hn, hsolves⟩, if_pos hsolves⟩)
    · rw [if_neg hsolves]
      refine .inr (.inr ⟨hsolves, ?_⟩)
      split
      · exact .inl rfl
      · exact .inr rfl
  · exact .inl ⟨hn, if_pos hn⟩

end Accepted

/-- Every nonce is in the slice of one worker. -/
theorem nonceAt_div (p : MineParams) (n : Nat) : p.nonceAt (n % p.workers)
    (n / p.workers) = n := by
  rw [nonceAt, Nat.mul_comm, Nat.mod_add_div]

end MineParams

/-! ## The invariant -/

section Invariant

variable {p : MineParams} {s s' : Mining} {i k : Nat} {found : Option Nat}

/-- What is known of a worker's slice where the worker has come to `phase`. -/
def Accounts (p : MineParams) (found : Option Nat) (i : Nat) : Phase → Prop
  | .idle | .lost => True
  | .turn k | .poll k => p.RuledOut i k
  | .found n _ => (n : Int) < p.nonceMax ∧ p.Solves n
  | .leave _ | .ended => found ≠ none ∨ ∀ k, p.RuledOut i k

/-- Once something is found a worker's account only gets easier. -/
theorem Accounts.mono {found' : Option Nat}
    (hmono : found ≠ none → found' ≠ none) {phase : Phase}
    (h : Accounts p found i phase) : Accounts p found' i phase := by
  cases phase with
  | idle | lost | turn k | poll k | found n k => exact h
  | leave k => exact h.imp hmono id
  | ended => exact h.imp hmono id

/-- What the parent has seen. -/
def Joined (p : MineParams) (s : Mining) : Parent → Prop
  | .spawning _ | .interrupted => True
  | .joining i => ∀ j < i, (s.worker j).Exited
  | .returned r => (∀ j < p.workers, (s.worker j).Exited) ∧ r = mineAnswer p s

/-- The invariant of a run. -/
structure Swept (p : MineParams) (s : Mining) : Prop where
  published : ∀ n, s.found = some n → (n : Int) < p.nonceMax ∧ p.Solves n
  worker : ∀ i, Accounts p s.found i (s.worker i)
  idle : ∀ i, p.workers ≤ i → s.worker i = .idle
  parent : Joined p s s.parent

/-- Nothing is swept and nothing claimed at the start. -/
theorem swept_start : Swept p Mining.start :=
  ⟨nofun, fun _ => trivial, fun _ _ => rfl, trivial⟩

/-- A worker that runs has not been joined, so the parent's knowledge is not
about it. -/
theorem Swept.move (h : Swept p s) {attempts : Nat} {phase : Phase}
    (hrunning : (s.worker i).Running)
    (hphase : Accounts p found i phase)
    (hpublished : ∀ n, found = some n → (n : Int) < p.nonceMax ∧ p.Solves n)
    (hmono : s.found ≠ none → found ≠ none) :
    Swept p { s.move i phase with found, attempts } := by
  -- the other workers' accounts stand as they did
  have hother : ∀ j, j ≠ i → (s.move i phase).worker j = s.worker j :=
    fun j hj => Function.update_of_ne hj _ _
  have hlt : i < p.workers :=
    Nat.lt_of_not_le fun hle => hrunning.1 (h.idle i hle)
  have hexited : ∀ j, (s.worker j).Exited →
      ((s.move i phase).worker j).Exited := by
    intro j hj
    rwa [hother j (by rintro rfl; exact hrunning.2 hj)]
  refine ⟨hpublished, fun j => ?_, fun j hj => ?_, ?_⟩
  · by_cases hj : j = i
    · rw [hj]
      show Accounts p found i (Function.update s.worker i phase i)
      rwa [Function.update_self]
    · show Accounts p found j ((s.move i phase).worker j)
      rw [hother j hj]
      exact (h.worker j).mono hmono
  · show (s.move i phase).worker j = _
    rw [hother j (by omega), h.idle j hj]
  · have hparent := h.parent
    show Joined p _ s.parent
    cases hp : s.parent with
    | spawning _ => trivial
    | interrupted => trivial
    | joining k =>
      rw [hp] at hparent
      exact fun j hj => hexited j (hparent j hj)
    | returned r =>
      rw [hp] at hparent
      exact absurd (hparent.1 i hlt) hrunning.2

/-- A worker's step keeps the accounts. -/
theorem Swept.workerStep (hp : p.Accepted) (h : Swept p s) (i : Nat) :
    Swept p (workerStep p s i) := by
  have hworker := h.worker i
  unfold Pyrxd.Glyph.workerStep
  cases hphase : s.worker i with
  | idle | ended | lost => exact h
  | turn k =>
    rw [hphase] at hworker
    have hrunning : (s.worker i).Running :=
      hphase ▸ Phase.running_of_ne nofun nofun nofun
    refine h.move hrunning ?_ h.published id
    -- a turn leaves the loop, reports its nonce, or sweeps one nonce more
    rcases hp.workerTurn_cases i k with ⟨hend, hturn⟩ | ⟨hsolves, hturn⟩ | ⟨hno,
      hturn | hturn⟩
    · rw [hturn]
      refine .inr fun k' j _ hj =>
        hworker j (Nat.lt_of_not_le fun hle => hend ?_) hj
      refine Int.lt_of_le_of_lt ?_ hj
      exact_mod_cast Nat.add_le_add_left (Nat.mul_le_mul_right _ hle) i
    · rw [hturn]
      exact hsolves
    all_goals
      rw [hturn]
      intro j hj hlt
      rcases Nat.lt_succ_iff_lt_or_eq.mp hj with hj | rfl
      · exact hworker j hj hlt
      · exact hno
  | found n k =>
    rw [hphase] at hworker
    have hrunning : (s.worker i).Running :=
      hphase ▸ Phase.running_of_ne nofun nofun nofun
    refine h.move hrunning (.inl nofun) ?_ fun _ => nofun
    intro m hm
    cases hfound : s.found with
    | none =>
      rw [hfound, Option.getD_none, hp.mod_eq hworker.1,
        Option.some.injEq] at hm
      rw [← hm]
      exact hworker
    | some m' =>
      rw [hfound, Option.getD_some, Option.some.injEq] at hm
      rw [← hm]
      exact h.published m' hfound
  | poll k =>
    rw [hphase] at hworker
    have hrunning : (s.worker i).Running :=
      hphase ▸ Phase.running_of_ne nofun nofun nofun
    refine h.move hrunning ?_ h.published id
    split
    · rename_i hset
      exact .inl (Option.isSome_iff_ne_none.mp hset)
    · exact hworker
  | leave k =>
    rw [hphase] at hworker
    have hrunning : (s.worker i).Running :=
      hphase ▸ Phase.running_of_ne nofun nofun nofun
    exact h.move hrunning hworker h.published id

theorem Swept.parentStep (h : Swept p s) : Swept p (parentStep p s) := by
  have hparent := h.parent
  unfold Pyrxd.Glyph.parentStep
  cases hp : s.parent with
  | spawning i =>
    dsimp only
    split
    · rename_i hi
      refine ⟨h.published, fun j => ?_, fun j hj => ?_, trivial⟩
      · by_cases hj : j = i
        · rw [hj]
          show Accounts p s.found i (Function.update s.worker i (.turn 0) i)
          rw [Function.update_self]
          exact fun _ hj => absurd hj (Nat.not_lt_zero _)
        · show Accounts p s.found j (Function.update s.worker i (.turn 0) j)
          rw [Function.update_of_ne hj]
          exact h.worker j
      · show Function.update s.worker i (.turn 0) j = _
        rw [Function.update_of_ne (by omega), h.idle j hj]
    · exact ⟨h.published, h.worker, h.idle, fun _ hj => absurd hj (Nat.not_lt_zero _)⟩
  | joining i =>
    rw [hp] at hparent
    dsimp only
    split
    · split
      · rename_i hexited
        refine ⟨h.published, h.worker, h.idle, fun j hj => ?_⟩
        rcases Nat.lt_succ_iff_lt_or_eq.mp hj with hj | rfl
        · exact hparent j hj
        · exact hexited
      · exact h
    · rename_i hi
      exact ⟨h.published, h.worker, h.idle,
        fun j hj => hparent j (by omega), rfl⟩
  | returned r => exact h
  | interrupted => exact h

/-- A step keeps the invariant. -/
theorem Swept.step (hp : p.Accepted) (h : Swept p s)
    (hstep : Mining.Step p s s') : Swept p s' := by
  cases hstep with
  | parent => exact h.parentStep
  | worker i => exact h.workerStep hp i
  | lose i hrunning => exact h.move hrunning trivial h.published id
  | interrupt => exact ⟨h.published, h.worker, h.idle, trivial⟩

/-- So they hold in every interleaving. -/
theorem swept_run (hp : p.Accepted) (hrun : Mining.Run p s) : Swept p s := by
  induction hrun with
  | refl => exact swept_start
  | tail _ hstep ih => exact ih.step hp hstep

end Invariant

/-! ## The answer -/

/-- What the answer of `mine` promises. -/
structure Honest (p : MineParams) (s : Mining)
    (r : Except PyErr MineResult) : Prop where
  success : ∀ nonce attempts, r = .ok (.success nonce attempts) →
    (leNat nonce : Int) < p.nonceMax ∧
    verifySha256dSolution p.preimage nonce p.target p.nonceWidth = .ok true
  exhausted : r = .ok .exhausted → ∀ n : Nat, (n : Int) < p.nonceMax →
    verifySha256dSolution p.preimage (leBytes p.width n) p.target p.nonceWidth ≠
      .ok true
  lost : (∃ i, s.worker i = .lost) → s.found = none → ∃ e, r = .error e

section Answer

variable {p : MineParams} {s : Mining} {r : Except PyErr MineResult}

/-- What is published is what is returned. -/
theorem Swept.success (hp : p.Accepted) (h : Swept p s)
    (hr : r = mineAnswer p s) {nonce : Bytes} {attempts : Nat}
    (hsuccess : r = .ok (.success nonce attempts)) :
    (leNat nonce : Int) < p.nonceMax ∧
      verifySha256dSolution p.preimage nonce p.target p.nonceWidth =
        .ok true := by
  rw [hr] at hsuccess
  unfold mineAnswer at hsuccess
  cases hfound : s.found with
  | none =>
    rw [hfound] at hsuccess
    cases hsuccess
  | some n =>
    obtain ⟨hn, hsolves⟩ := h.published n hfound
    rw [hfound] at hsuccess
    dsimp only at hsuccess
    rw [hp.toBytesLe_ok hn, ok_bind, pure_eq_ok, Except.ok.injEq,
      MineResult.success.injEq] at hsuccess
    rw [← hsuccess.1, leNat_leBytes (hp.below hn)]
    exact ⟨hn, (hp.verify_iff n).mpr hsolves⟩

/-- Where nothing was published, what the workers that ended have swept holds no
solution: a nonce that is one is in the slice of a lost worker. -/
theorem Swept.lost_of_solves (hp : p.Accepted) (h : Swept p s)
    (hexited : ∀ i < p.workers, (s.worker i).Exited) (hnone : s.found = none)
    {n : Nat} (hn : (n : Int) < p.nonceMax) (hsolves : p.Solves n) :
    s.worker (n % p.workers) = .lost := by
  have hlt : n % p.workers < p.workers := Nat.mod_lt n hp.checked.2.2
  refine (hexited _ hlt).resolve_left fun hended => ?_
  have hworker := h.worker (n % p.workers)
  rw [hended] at hworker
  have hslice := hworker.resolve_left (not_not.mpr hnone) (n / p.workers + 1)
    (n / p.workers) (Nat.lt_succ_self _)
  rw [p.nonceAt_div] at hslice
  exact hslice hn hsolves

end Answer

/-- **When the answer of the miner can be trusted**: in the runs in which no
worker was lost, or something was published all the same. -/
theorem mine_honest_iff {p : MineParams} (hp : p.Accepted) {s : Mining}
    (hrun : Mining.Run p s)
    {r : Except PyErr MineResult} (hret : s.parent = .returned r) :
    (Honest p s r ↔ ((∃ i, s.worker i = .lost) → s.found ≠ none)) ∧
    (r = .ok .exhausted → ∀ n : Nat, (n : Int) < p.nonceMax →
      verifySha256dSolution p.preimage (leBytes p.width n) p.target
        p.nonceWidth = .ok true →
        s.worker (n % p.workers) = .lost) := by
  have h := swept_run hp hrun
  obtain ⟨hexited, hr⟩ : Joined p s (.returned r) := hret ▸ h.parent
  -- the parent reports exhaustion only when no worker has stored a nonce
  have hnone : r = .ok .exhausted → s.found = none := by
    intro hnothing
    cases hfound : s.found with
    | none => rfl
    | some m =>
      rw [hr, mineAnswer, hfound] at hnothing
      dsimp only at hnothing
      rw [hp.toBytesLe_ok (h.published m hfound).1] at hnothing
      cases hnothing
  have hslice : r = .ok .exhausted → ∀ n : Nat, (n : Int) < p.nonceMax →
      verifySha256dSolution p.preimage (leBytes p.width n) p.target
        p.nonceWidth = .ok true →
        s.worker (n % p.workers) = .lost := fun hnothing n hn hverify =>
    h.lost_of_solves hp hexited (hnone hnothing) hn
      ((hp.verify_iff n).mp hverify)
  refine ⟨⟨?_, ?_⟩, hslice⟩
  · intro honest hlost hnone
    obtain ⟨e, he⟩ := honest.lost hlost hnone
    rw [hr, mineAnswer, hnone] at he
    cases he
  · intro hpublished
    exact ⟨fun nonce attempts => h.success hp hr,
      fun hnothing n hn hverify => hpublished ⟨_,
        hslice hnothing n hn hverify⟩ (hnone hnothing),
      fun hlost hnothing => absurd hnothing (hpublished hlost)⟩

/-- The run in which the parent (`none`) and the workers move in this order. -/
def Mining.play (p : MineParams) : List (Option Nat) → Mining → Mining
  | [], s => s
  | none :: order, s => play p order (parentStep p s)
  | some i :: order, s => play p order (workerStep p s i)

/-- Playing an order of turns is a run. -/
theorem Mining.Run.play {p : MineParams} {s : Mining} (hrun : Mining.Run p s)
    (order : List (Option Nat)) : Mining.Run p (s.play p order) := by
  induction order generalizing s with
  | nil => exact hrun
  | cons move order ih =>
    cases move with
    | none => exact ih (hrun.tail (.parent s))
    | some i => exact ih (hrun.tail (.worker s i))

/-- Two workers with two nonces each. -/
def twoWorkers : MineParams :=
  ⟨List.replicate 64 0x07, maxSha256dTarget, 8, 2, 4⟩

/-- The first worker is at its second nonce when the other one starts, which is
done first all the same. -/
def interleaved : List (Option Nat) :=
  [none, some 0, none, some 1, some 0, none, some 1, some 1, some 1, some 0,
    none, some 0, none, none, none]

/-- No nonce is a solution, all four are tried, and the miner is exhausted. -/
theorem mine_honest_twoWorkers :
    Mining.Run twoWorkers (Mining.start.play twoWorkers interleaved) ∧
    (Mining.start.play twoWorkers interleaved).parent = .returned
      (.ok .exhausted) ∧
    (Mining.start.play twoWorkers interleaved).attempts = 4 ∧
    Honest twoWorkers (Mining.start.play twoWorkers interleaved)
      (.ok .exhausted) := by
  have hp : twoWorkers.Accepted := ⟨rfl, by decide⟩
  have hrun : Mining.Run twoWorkers
      (Mining.start.play twoWorkers interleaved) :=
    Mining.Run.play .refl interleaved
  obtain ⟨hreturned, hattempts, hended⟩ : (Mining.start.play twoWorkers interleaved).parent = .returned (.ok .exhausted) ∧
      (Mining.start.play twoWorkers interleaved).attempts = 4 ∧
      ∀ i < 2, (Mining.start.play twoWorkers interleaved).worker i = .ended := by decide +kernel
  refine ⟨hrun, hreturned, hattempts,
    (mine_honest_iff hp hrun hreturned).1.mpr ?_⟩
  rintro ⟨i, hlost⟩
  by_cases hi : i < 2
  · rw [hended i hi] at hlost
    cases hlost
  · rw [(swept_run hp hrun).idle i (Nat.not_lt.mp hi)] at hlost
    cases hlost

/-- The worker that would come to the nonce 8705653479. -/
def lostWorker : MineParams :=
  ⟨List.replicate 64 0x07, maxSha256dTarget, 8, 1, 2 ^ 64⟩

/-- **A lost worker passes for an exhausted one.** -/
theorem mine_loses_solution : lostWorker.Accepted ∧
    ((8705653479 : Int) < lostWorker.nonceMax ∧
      verifySha256dSolution lostWorker.preimage
      (leBytes lostWorker.width 8705653479) lostWorker.target
        lostWorker.nonceWidth = .ok true) ∧
    ∃ s, Mining.Run lostWorker s ∧ s.parent = .returned (.ok .exhausted) ∧
    s.worker 0 = .lost ∧ s.found = none ∧
      ¬ Honest lostWorker s (.ok .exhausted) := by
  have hsolves : (8705653479 : Int) < lostWorker.nonceMax ∧
      verifySha256dSolution lostWorker.preimage
      (leBytes lostWorker.width 8705653479) lostWorker.target
        lostWorker.nonceWidth = .ok true :=
    ⟨by decide, by decide +kernel⟩
  have hrun : Mining.Run lostWorker
      (parentStep lostWorker (parentStep lostWorker (parentStep lostWorker
      ((parentStep lostWorker .start).move 0 .lost)))) := by
    have hrunning :
        ((parentStep lostWorker .start).worker 0).Running := by decide
    exact .tail (.tail (.tail (.tail (.tail .refl (.parent _))
      (.lose _ 0 hrunning)) (.parent _)) (.parent _)) (.parent _)
  exact ⟨⟨rfl, by decide⟩, hsolves, _, hrun, rfl, rfl, rfl, fun h => h.exhausted rfl 8705653479 hsolves.1 hsolves.2⟩

end Pyrxd.Glyph
