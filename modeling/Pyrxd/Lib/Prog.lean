import Mathlib.Data.List.Basic
import Mathlib.Logic.Relation

/-!
# Method bodies that call out

A service object is a field (`σ`) plus methods that read it, assign it, call
other objects and raise. What those other objects answer is not the method's
to decide, so a method body is kept as *syntax* with one hole per call: `Prog`.
The same body is then run in two ways:

* `run env` here — one call at a time, to completion, against an arbitrary
  environment `env` that answers each call (a value or an exception) from
  everything that happened before;
* `Pool` in `Pyrxd.Lib.Interleave` — many bodies at once, interleaved at every
  call.

An exception does not roll the field back: `raise` keeps the current state, and
so does every handler. That is the Python rule, and the reason the trace (not
only the final state) is the object the safety statements are about.

`Meets P Q p s t` is the one proof device: started in state `s` with trace `t`,
whatever the environment answers, every event `p` emits satisfies `P` against
the trace before it, and the end satisfies `Q`. Its rules are `simp` lemmas, one
per constructor and combinator, so a body is verified by pushing `Meets` through
it; `run_meets` turns the result into a fact about runs.
-/

namespace Pyrxd.Lib

/-- A method body: return, raise, read the field, assign the field, or call out
and go on with the answer. -/
inductive Prog (Op Res σ ε α : Type) where
  | ret (a : α)
  | raise (e : ε)
  | get (k : σ → Prog Op Res σ ε α)
  | put (s : σ) (k : Prog Op Res σ ε α)
  | call (op : Op) (k : Except ε Res → Prog Op Res σ ε α)

/-- What a run leaves behind: a call made in state `s` with its answer, or an
assignment of the field. -/
inductive Event (Op Res σ ε : Type) where
  | call (s : σ) (op : Op) (r : Except ε Res)
  | write (s s' : σ)

/-- The field at the moment of an event. -/
def Event.field {Op Res σ ε : Type} : Event Op Res σ ε → σ
  | .call s _ _ => s
  | .write s _ => s

/-- The end of a run. -/
structure Run (Op Res σ ε α : Type) where
  result : Except ε α
  state : σ
  trace : List (Event Op Res σ ε)

namespace Prog

variable {Op Res σ ε α β : Type}

/-- Sequencing; a raise cuts the rest off. -/
def bind : Prog Op Res σ ε α → (α → Prog Op Res σ ε β) → Prog Op Res σ ε β
  | ret a, f => f a
  | raise e, _ => raise e
  | get k, f => get fun s => (k s).bind f
  | put s k, f => put s (k.bind f)
  | call op k, f => call op fun r => (k r).bind f

instance : Monad (Prog Op Res σ ε) where
  pure := ret
  bind := bind

/-- `try p except e: h e`. -/
def tryCatch : Prog Op Res σ ε α → (ε → Prog Op Res σ ε α) → Prog Op Res σ ε α
  | ret a, _ => ret a
  | raise e, h => h e
  | get k, h => get fun s => (k s).tryCatch h
  | put s k, h => put s (k.tryCatch h)
  | call op k, h => call op fun r => (k r).tryCatch h

/-- `try p finally: c`. -/
def ensure (p : Prog Op Res σ ε α) (c : Prog Op Res σ ε Unit) :
    Prog Op Res σ ε α :=
  (p.tryCatch fun e => c.bind fun _ => raise e).bind fun a =>
    c.bind fun _ => ret a

/-- Embed a pure fallible computation. -/
def lift : Except ε α → Prog Op Res σ ε α
  | .ok a => ret a
  | .error e => raise e

/-- Call out; an exceptional answer is raised at the call site. -/
def invoke (op : Op) : Prog Op Res σ ε Res := call op lift

/-- Read the field. -/
def read : Prog Op Res σ ε σ := get ret

/-- Assign the field. -/
def write (s : σ) : Prog Op Res σ ε Unit := put s (ret ())

/-! ## Running one body -/

/-- Run to completion against `env`, which answers each call from the trace so
far. -/
def run (env : List (Event Op Res σ ε) → Op → Except ε Res) :
    Prog Op Res σ ε α → σ → List (Event Op Res σ ε) → Run Op Res σ ε α
  | ret a, s, t => ⟨.ok a, s, t⟩
  | raise e, s, t => ⟨.error e, s, t⟩
  | get k, s, t => run env (k s) s t
  | put s' k, s, t => run env k s' (t ++ [.write s s'])
  | call op k, s, t => run env (k (env t op)) s (t ++ [.call s op (env t op)])

/-- A run of a sequence is the second part's, from where the first one ended. -/
theorem run_bind (env : List (Event Op Res σ ε) → Op → Except ε Res)
    (p : Prog Op Res σ ε α)
    (f : α → Prog Op Res σ ε β) (s : σ) (t : List (Event Op Res σ ε)) :
    run env (p >>= f) s t = match (run env p s t).result with
      | .ok a => run env (f a) (run env p s t).state (run env p s t).trace
      | .error e =>
        ⟨.error e, (run env p s t).state, (run env p s t).trace⟩ := by
  show run env (p.bind f) s t = _
  induction p generalizing s t with
  | ret a => rfl
  | raise e => rfl
  | get k ih => exact ih s s t
  | put s' k ih => exact ih s' _
  | call op k ih => exact ih (env t op) s _

/-- A call on the trace was there before, or the environment has answered it. -/
theorem run_answered (env : List (Event Op Res σ ε) → Op → Except ε Res)
    {s' : σ} {op : Op}
    {r : Except ε Res} : ∀ (p : Prog Op Res σ ε α) {s : σ}
      {t : List (Event Op Res σ ε)},
      .call s' op r ∈ (run env p s t).trace → .call s' op r ∈ t ∨
        ∃ pre, r = env pre op := by
  intro p
  induction p with
  | ret a => intro s t h; exact .inl h
  | raise e => intro s t h; exact .inl h
  | get k ih => intro s t h; exact ih s h
  | put s₁ k ih =>
    intro s t h
    rcases ih h with h | h
    · rcases List.mem_append.mp h with h | h
      · exact .inl h
      · cases List.mem_singleton.mp h
    · exact .inr h
  | call op' k ih =>
    intro s t h
    rcases ih (env t op') h with h | h
    · rcases List.mem_append.mp h with h | h
      · exact .inl h
      · cases List.mem_singleton.mp h
        exact .inr ⟨t, rfl⟩
    · exact .inr h

/-- Every event of the trace satisfies `P` against the events before it. -/
def Obeys (P : List (Event Op Res σ ε) → Event Op Res σ ε → Prop)
    (t : List (Event Op Res σ ε)) : Prop :=
  ∀ pre e post, t = pre ++ e :: post → P pre e

theorem obeys_nil (P : List (Event Op Res σ ε) → Event Op Res σ ε → Prop) :
    Obeys P [] := by
  intro pre e post h
  simp at h

/-- Where a list that grew at the end can be cut. -/
theorem snoc_split {γ : Type} {t pre post : List γ} {x e : γ}
    (h : t ++ [x] = pre ++ e :: post) :
    (pre = t ∧ e = x) ∨ ∃ post', t = pre ++ e :: post' := by
  rcases List.eq_nil_or_concat post with rfl | ⟨post', y, rfl⟩
  · obtain ⟨h1, h2⟩ := List.append_inj' h rfl
    simp only [List.cons.injEq, and_true] at h2
    exact .inl ⟨h1.symm, h2.symm⟩
  · have h' : t ++ [x] = (pre ++ e :: post') ++ [y] := by
      rw [h]; simp
    exact .inr ⟨post', (List.append_inj' h' rfl).1⟩

/-- One more event that is permitted. -/
theorem obeys_snoc {P : List (Event Op Res σ ε) → Event Op Res σ ε → Prop}
    {t : List (Event Op Res σ ε)} {e : Event Op Res σ ε}
    (ht : Obeys P t) (he : P t e) : Obeys P (t ++ [e]) := by
  intro pre e' post h
  rcases snoc_split h with ⟨rfl, rfl⟩ | ⟨post', h'⟩
  · exact he
  · exact ht pre e' post' h'

/-! ## The verification rule -/

/-- Whatever the environment answers, every event emitted satisfies `P` against
the trace before it, and the end satisfies `Q`. -/
def Meets (P : List (Event Op Res σ ε) → Event Op Res σ ε → Prop)
    (Q : Except ε α → σ → List (Event Op Res σ ε) → Prop) :
    Prog Op Res σ ε α → σ → List (Event Op Res σ ε) → Prop
  | ret a, s, t => Q (.ok a) s t
  | raise e, s, t => Q (.error e) s t
  | get k, s, t => Meets P Q (k s) s t
  | put s' k, s, t => P t (.write s s') ∧ Meets P Q k s' (t ++ [.write s s'])
  | call op k, s, t =>
    ∀ r, P t (.call s op r) ∧ Meets P Q (k r) s (t ++ [.call s op r])

/-- A verified body, run in any environment, obeys its monitor and ends in its
postcondition. -/
theorem run_meets {P : List (Event Op Res σ ε) → Event Op Res σ ε → Prop}
    {Q : Except ε α → σ → List (Event Op Res σ ε) → Prop}
    (env : List (Event Op Res σ ε) → Op → Except ε Res) :
    ∀ (p : Prog Op Res σ ε α) (s : σ) (t : List (Event Op Res σ ε)),
      Obeys P t → Meets P Q p s t →
      Obeys P (run env p s t).trace ∧
        Q (run env p s t).result (run env p s t).state
          (run env p s t).trace := by
  intro p
  induction p with
  | ret a => intro s t ht h; exact ⟨ht, h⟩
  | raise e => intro s t ht h; exact ⟨ht, h⟩
  | get k ih => intro s t ht h; exact ih s s t ht h
  | put s' k ih =>
    intro s t ht h
    exact ih s' _ (obeys_snoc ht h.1) h.2
  | call op k ih =>
    intro s t ht h
    obtain ⟨h1, h2⟩ := h (env t op)
    exact ih (env t op) s _ (obeys_snoc ht h1) h2

section Rules

variable {P : List (Event Op Res σ ε) → Event Op Res σ ε → Prop}
  {Q Q' : Except ε α → σ → List (Event Op Res σ ε) → Prop}
  {s : σ} {t : List (Event Op Res σ ε)}

theorem meets_mono (hQ : ∀ r s t, Q r s t → Q' r s t) :
    ∀ (p : Prog Op Res σ ε α) {s : σ} {t : List (Event Op Res σ ε)},
      Meets P Q p s t → Meets P Q' p s t := by
  intro p
  induction p with
  | ret a => intro s t h; exact hQ _ _ _ h
  | raise e => intro s t h; exact hQ _ _ _ h
  | get k ih => intro s t h; exact ih s h
  | put s' k ih => intro s t h; exact ⟨h.1, ih h.2⟩
  | call op k ih => intro s t h r; exact ⟨(h r).1, ih r (h r).2⟩

/-- A stricter monitor may be swapped for a laxer one. -/
theorem meets_weaken {P' : List (Event Op Res σ ε) → Event Op Res σ ε → Prop}
    (hP : ∀ t e, P t e → P' t e) :
    ∀ (p : Prog Op Res σ ε α) {s : σ} {t : List (Event Op Res σ ε)},
      Meets P Q p s t → Meets P' Q p s t := by
  intro p
  induction p with
  | ret a => intro s t h; exact h
  | raise e => intro s t h; exact h
  | get k ih => intro s t h; exact ih s h
  | put s' k ih => intro s t h; exact ⟨hP _ _ h.1, ih h.2⟩
  | call op k ih => intro s t h r; exact ⟨hP _ _ (h r).1, ih r (h r).2⟩

/-- What the monitor allows is also known of the trace at the end. -/
theorem meets_obeys :
    ∀ (p : Prog Op Res σ ε α) {s : σ} {t : List (Event Op Res σ ε)}, Obeys P t →
      Meets P Q p s t → Meets P (fun r s t => Q r s t ∧ Obeys P t) p s t := by
  intro p
  induction p with
  | ret a => intro s t ht h; exact ⟨h, ht⟩
  | raise e => intro s t ht h; exact ⟨h, ht⟩
  | get k ih => intro s t ht h; exact ih s ht h
  | put s' k ih => intro s t ht h; exact ⟨h.1, ih (obeys_snoc ht h.1) h.2⟩
  | call op k ih =>
    intro s t ht h r; exact ⟨(h r).1, ih r (obeys_snoc ht (h r).1) (h r).2⟩

/-- Nothing to check. -/
theorem meets_of_forall (hP : ∀ t e, P t e) (hQ : ∀ r s t, Q r s t) :
    ∀ (p : Prog Op Res σ ε α) {s : σ}
      {t : List (Event Op Res σ ε)}, Meets P Q p s t := by
  intro p
  induction p with
  | ret a => intro s t; exact hQ _ _ _
  | raise e => intro s t; exact hQ _ _ _
  | get k ih => intro s t; exact ih s
  | put s' k ih => intro s t; exact ⟨hP _ _, ih⟩
  | call op k ih => intro s t r; exact ⟨hP _ _, ih r⟩

/-- The postcondition in other words. -/
theorem meets_congr (hQ : ∀ r s t, Q r s t ↔ Q' r s t) {p : Prog Op Res σ ε α} :
    Meets P Q p s t ↔ Meets P Q' p s t :=
  ⟨meets_mono (fun r s t => (hQ r s t).mp) p,
    meets_mono (fun r s t => (hQ r s t).mpr) p⟩

@[simp] theorem meets_pure {a : α} :
    Meets P Q (pure a : Prog Op Res σ ε α) s t ↔ Q (.ok a) s t := Iff.rfl

@[simp] theorem meets_raise {e : ε} :
    Meets P Q (raise e : Prog Op Res σ ε α) s t ↔ Q (.error e) s t := Iff.rfl

/-- The rule of sequencing: the first part's result is the second's start. -/
@[simp] theorem meets_bind {Q : Except ε β → σ → List (Event Op Res σ ε) → Prop}
    {p : Prog Op Res σ ε α} {f : α → Prog Op Res σ ε β} :
    Meets P Q (p >>= f) s t ↔
      Meets P (fun r s t => match r with
        | .ok a => Meets P Q (f a) s t
        | .error e => Q (.error e) s t) p s t := by
  show Meets P Q (p.bind f) s t ↔ _
  induction p generalizing s t with
  | ret a => exact Iff.rfl
  | raise e => exact Iff.rfl
  | get k ih => exact ih s
  | put s' k ih => exact and_congr_right fun _ => ih
  | call op k ih => exact forall_congr' fun r => and_congr_right fun _ => ih r

@[simp] theorem meets_tryCatch {p : Prog Op Res σ ε α}
    {h : ε → Prog Op Res σ ε α} :
    Meets P Q (p.tryCatch h) s t ↔
      Meets P (fun r s t => match r with
        | .ok a => Q (.ok a) s t
        | .error e => Meets P Q (h e) s t) p s t := by
  induction p generalizing s t with
  | ret a => exact Iff.rfl
  | raise e => exact Iff.rfl
  | get k ih => exact ih s
  | put s' k ih => exact and_congr_right fun _ => ih
  | call op k ih => exact forall_congr' fun r => and_congr_right fun _ => ih r

@[simp] theorem meets_lift {x : Except ε α} :
    Meets P Q (lift x : Prog Op Res σ ε α) s t ↔ Q x s t := by
  cases x <;> exact Iff.rfl

/-- The rule of a call outside, for whatever it answers. -/
@[simp] theorem meets_invoke
    {Q : Except ε Res → σ → List (Event Op Res σ ε) → Prop} {op : Op} :
    Meets P Q (invoke op : Prog Op Res σ ε Res) s t ↔
      ∀ r, P t (.call s op r) ∧ Q r s (t ++ [.call s op r]) := by
  refine forall_congr' fun r => and_congr_right fun _ => ?_
  exact meets_lift

/-- The rule of reading the state. -/
@[simp] theorem meets_read
    {Q : Except ε σ → σ → List (Event Op Res σ ε) → Prop} :
    Meets P Q (read : Prog Op Res σ ε σ) s t ↔ Q (.ok s) s t := Iff.rfl

@[simp] theorem meets_write
    {Q : Except ε Unit → σ → List (Event Op Res σ ε) → Prop} {s' : σ} :
    Meets P Q (write s' : Prog Op Res σ ε Unit) s t ↔
      P t (.write s s') ∧ Q (.ok ()) s' (t ++ [.write s s']) := Iff.rfl

/-- `finally` runs the cleanup on both ways out; a raising cleanup takes
over. -/
@[simp] theorem meets_ensure {p : Prog Op Res σ ε α}
    {c : Prog Op Res σ ε Unit} :
    Meets P Q (p.ensure c) s t ↔
      Meets P (fun r s t => Meets P (fun rc s t => match rc with
        | .ok _ => Q r s t
        | .error e => Q (.error e) s t) c s t) p s t := by
  induction p generalizing s t with
  | ret a =>
    show Meets P Q (c >>= fun _ => pure a) s t ↔ _
    rw [meets_bind]
    exact meets_congr fun r s t => by cases r <;> exact Iff.rfl
  | raise e =>
    -- the cleanup of a failed body runs in the handler, and the second one is
    -- not reached
    show Meets P Q ((c >>= fun _ => raise e) >>= fun a => c >>=
      fun _ => pure a) s t ↔ _
    rw [meets_bind, meets_bind]
    exact meets_congr fun r s t => by cases r <;> exact Iff.rfl
  | get k ih => exact ih s
  | put s' k ih => exact and_congr_right fun _ => ih
  | call op k ih => exact forall_congr' fun r => and_congr_right fun _ => ih r

/-- A check in sequence: what follows may use that it passed. -/
theorem meets_lift_bind {Q : Except ε β → σ → List (Event Op Res σ ε) → Prop}
    {x : Except ε α}
    {f : α → Prog Op Res σ ε β} (hok : ∀ a, x = .ok a → Meets P Q (f a) s t)
    (herr : ∀ e, Q (.error e) s t) : Meets P Q (lift x >>= f) s t := by
  rw [meets_bind, meets_lift]
  cases x with
  | ok a => exact hok a rfl
  | error e => exact herr e

/-- A call in sequence: what follows may use that the call is on the trace. -/
theorem meets_invoke_bind {Q : Except ε β → σ → List (Event Op Res σ ε) → Prop}
    {op : Op}
    {f : Res → Prog Op Res σ ε β} (hP : ∀ r, P t (.call s op r))
    (hok : ∀ a, Meets P Q (f a) s (t ++ [.call s op (.ok a)]))
    (herr : ∀ e t', Q (.error e) s t') : Meets P Q (invoke op >>= f) s t := by
  rw [meets_bind, meets_invoke]
  intro r
  refine ⟨hP r, ?_⟩
  cases r with
  | ok a => exact hok a
  | error e => exact herr e _

theorem meets_ite {c : Prop} [Decidable c] {p q : Prog Op Res σ ε α} :
    Meets P Q (if c then p else q) s t ↔
      (c → Meets P Q p s t) ∧ (¬ c → Meets P Q q s t) := by
  split <;> simp [*]

end Rules

/-! ## Quiet bodies -/

/-- The body leaves the field alone and does nothing `P` could object to. -/
def Quiet (P : List (Event Op Res σ ε) → Event Op Res σ ε → Prop)
    (p : Prog Op Res σ ε α) : Prop :=
  ∀ s t, Meets P (fun _ s' t' => s' = s ∧ t <+: t') p s t

section QuietRules

variable {P : List (Event Op Res σ ε) → Event Op Res σ ε → Prop}

/-- A quiet body only has to be asked about its result and the trace it adds
to. -/
theorem Quiet.meets {p : Prog Op Res σ ε α} (hp : Quiet P p)
    {Q : Except ε α → σ → List (Event Op Res σ ε) → Prop} {s : σ}
    {t : List (Event Op Res σ ε)}
    (hQ : ∀ r t', t <+: t' → Q r s t') : Meets P Q p s t := by
  refine meets_mono ?_ p (hp s t)
  rintro r s' t' ⟨rfl, ht⟩
  exact hQ r t' ht

/-- A quiet first part in sequence: what follows starts on the same field. -/
theorem Quiet.meets_bind {p : Prog Op Res σ ε α} {f : α → Prog Op Res σ ε β}
    (hp : Quiet P p)
    {Q : Except ε β → σ → List (Event Op Res σ ε) → Prop} {s : σ}
    {t : List (Event Op Res σ ε)}
    (hok : ∀ a t', t <+: t' → Meets P Q (f a) s t')
    (herr : ∀ e t', t <+: t' → Q (.error e) s t') :
    Meets P Q (p >>= f) s t := by
  rw [Prog.meets_bind]
  refine hp.meets fun r t' ht => ?_
  cases r with
  | ok a => exact hok a t' ht
  | error e => exact herr e t' ht

theorem quiet_pure (a : α) : Quiet P (pure a : Prog Op Res σ ε α) :=
  fun _ t => ⟨rfl, List.prefix_refl t⟩

theorem quiet_raise (e : ε) : Quiet P (raise e : Prog Op Res σ ε α) :=
  fun _ t => ⟨rfl, List.prefix_refl t⟩

theorem quiet_lift (x : Except ε α) : Quiet P (lift x : Prog Op Res σ ε α) :=
  fun _ t => meets_lift.mpr ⟨rfl, List.prefix_refl t⟩

theorem quiet_read : Quiet P (read : Prog Op Res σ ε σ) :=
  fun _ t => ⟨rfl, List.prefix_refl t⟩

theorem quiet_invoke {op : Op} (h : ∀ s t r, P t (.call s op r)) :
    Quiet P (invoke op : Prog Op Res σ ε Res) :=
  fun s t => meets_invoke.mpr fun r => ⟨h s t r, rfl, List.prefix_append t _⟩

/-- Quiet parts are quiet together. -/
theorem quiet_bind {p : Prog Op Res σ ε α} {f : α → Prog Op Res σ ε β}
    (hp : Quiet P p)
    (hf : ∀ a, Quiet P (f a)) : Quiet P (p >>= f) := by
  intro s t
  refine hp.meets_bind (fun a t' ht => ?_) fun e t' ht => ⟨rfl, ht⟩
  exact (hf a).meets fun _ t'' ht' => ⟨rfl, ht.trans ht'⟩

theorem quiet_tryCatch {p : Prog Op Res σ ε α} {h : ε → Prog Op Res σ ε α}
    (hp : Quiet P p)
    (hh : ∀ e, Quiet P (h e)) : Quiet P (p.tryCatch h) := by
  intro s t
  rw [meets_tryCatch]
  refine hp.meets fun r t' ht => ?_
  cases r with
  | ok a => exact ⟨rfl, ht⟩
  | error e => exact (hh e).meets fun _ t'' ht' => ⟨rfl, ht.trans ht'⟩

theorem quiet_ite {c : Prop} [Decidable c] {p q : Prog Op Res σ ε α}
    (hp : Quiet P p)
    (hq : Quiet P q) : Quiet P (if c then p else q) := by
  split
  · exact hp
  · exact hq

end QuietRules

/-! ## Collaborators without a memory -/

/-- Run against collaborators that answer each call by itself, without the
trace. -/
def eval (answer : Op → Except ε Res) : Prog Op Res σ ε α → σ → Except ε α × σ
  | ret a, s => (.ok a, s)
  | raise e, s => (.error e, s)
  | get k, s => eval answer (k s) s
  | put s' k, _ => eval answer k s'
  | call op k, s => eval answer (k (answer op)) s

/-- In a world without memory a run is an evaluation. -/
theorem run_eval (answer : Op → Except ε Res) :
    ∀ (p : Prog Op Res σ ε α) (s : σ) (t : List (Event Op Res σ ε)),
      ((run (fun _ => answer) p s t).result,
        (run (fun _ => answer) p s t).state) =
        eval answer p s := by
  intro p
  induction p with
  | ret a => intro s t; rfl
  | raise e => intro s t; rfl
  | get k ih => intro s t; exact ih s s t
  | put s' k ih => intro s t; exact ih s' _
  | call op k ih => intro s t; exact ih (answer op) s _

section Eval

variable {answer : Op → Except ε Res} {s : σ}

@[simp] theorem eval_pure {a : α} :
    eval answer (pure a : Prog Op Res σ ε α) s = (.ok a, s) := rfl

@[simp] theorem eval_bind {p : Prog Op Res σ ε α} {f : α → Prog Op Res σ ε β} :
    eval answer (p >>= f) s = match eval answer p s with
      | (.ok a, s') => eval answer (f a) s'
      | (.error e, s') => (.error e, s') := by
  show eval answer (p.bind f) s = _
  induction p generalizing s with
  | ret a => rfl
  | raise e => rfl
  | get k ih => exact ih s
  | put s' k ih => exact ih
  | call op k ih => exact ih (answer op)

@[simp] theorem eval_tryCatch {p : Prog Op Res σ ε α}
    {h : ε → Prog Op Res σ ε α} :
    eval answer (p.tryCatch h) s = match eval answer p s with
      | (.ok a, s') => (.ok a, s')
      | (.error e, s') => eval answer (h e) s' := by
  induction p generalizing s with
  | ret a => rfl
  | raise e => rfl
  | get k ih => exact ih s
  | put s' k ih => exact ih
  | call op k ih => exact ih (answer op)

@[simp] theorem eval_lift {x : Except ε α} :
    eval answer (lift x : Prog Op Res σ ε α) s = (x, s) := by
  cases x <;> rfl

/-- A call evaluates to its answer. -/
@[simp] theorem eval_invoke {op : Op} :
    eval answer (invoke op : Prog Op Res σ ε Res) s = (answer op,
      s) := eval_lift

@[simp] theorem eval_read : eval answer (read : Prog Op Res σ ε σ) s =
    (.ok s, s) := rfl

@[simp] theorem eval_write {s' : σ} :
    eval answer (write s' : Prog Op Res σ ε Unit) s = (.ok (), s') := rfl

end Eval

/-- The calls made on the way. -/
def calls (answer : Op → Except ε Res) : Prog Op Res σ ε α → σ → List Op
  | ret _, _ => []
  | raise _, _ => []
  | get k, s => calls answer (k s) s
  | put s' k, _ => calls answer k s'
  | call op k, s => op :: calls answer (k (answer op)) s

@[simp] theorem calls_pure {answer : Op → Except ε Res} {s : σ} {a : α} :
    calls answer (pure a : Prog Op Res σ ε α) s = [] := rfl

@[simp] theorem calls_bind {answer : Op → Except ε Res} {s : σ}
    {p : Prog Op Res σ ε α}
    {f : α → Prog Op Res σ ε β} :
    calls answer (p >>= f) s = calls answer p s ++ match eval answer p s with
      | (.ok a, s') => calls answer (f a) s'
      | (.error _, _) => [] := by
  show calls answer (p.bind f) s = _
  induction p generalizing s with
  | ret a => rfl
  | raise e => rfl
  | get k ih => exact ih s
  | put s' k ih => exact ih
  | call op k ih => exact congrArg (op :: ·) (ih (answer op))

@[simp] theorem calls_tryCatch {answer : Op → Except ε Res} {s : σ}
    {p : Prog Op Res σ ε α}
    {h : ε → Prog Op Res σ ε α} :
    calls answer (p.tryCatch h) s = calls answer p s ++
    match eval answer p s with
      | (.ok _, _) => []
      | (.error e, s') => calls answer (h e) s' := by
  induction p generalizing s with
  | ret a => rfl
  | raise e => rfl
  | get k ih => exact ih s
  | put s' k ih => exact ih
  | call op k ih => exact congrArg (op :: ·) (ih (answer op))

@[simp] theorem calls_invoke {answer : Op → Except ε Res} {s : σ} {op : Op} :
    calls answer (invoke op : Prog Op Res σ ε Res) s = [op] := by
  show op :: calls answer (lift (answer op)) s = [op]
  cases answer op <;> rfl

/-! ## The field along a run -/

/-- A run adds to the trace it starts from. -/
theorem run_trace_extends (env : List (Event Op Res σ ε) → Op → Except ε Res) :
    ∀ (p : Prog Op Res σ ε α) (s : σ) (t : List (Event Op Res σ ε)),
      t <+: (run env p s t).trace := by
  intro p
  induction p with
  | ret a => intro s t; exact List.prefix_refl t
  | raise e => intro s t; exact List.prefix_refl t
  | get k ih => intro s t; exact ih s s t
  | put s' k ih => intro s t; exact (List.prefix_append t _).trans (ih s' _)
  | call op k ih => intro s t; exact (List.prefix_append t _).trans (ih _ s _)

/-- The calls are on the trace, with their answers. -/
theorem mem_trace_of_mem_calls (answer : Op → Except ε Res) :
    ∀ (p : Prog Op Res σ ε α) (s : σ) (t : List (Event Op Res σ ε)) (op : Op),
      op ∈ calls answer p s → ∃ s', .call s' op (answer op) ∈
        (run (fun _ => answer) p s t).trace := by
  intro p
  induction p with
  | ret a => intro s t op h; cases h
  | raise e => intro s t op h; cases h
  | get k ih => intro s t op h; exact ih s s t op h
  | put s' k ih => intro s t op h; exact ih s' _ op h
  | call op' k ih =>
    intro s t op h
    rcases List.mem_cons.mp h with rfl | h
    · exact ⟨s, (run_trace_extends _ _ s (t ++
        [.call s op (answer op)])).subset (by simp)⟩
    · exact ih _ s _ op h

/-- A call on the trace was answered by the environment. -/
theorem run_call_answered (env : List (Event Op Res σ ε) → Op → Except ε Res) :
    ∀ (p : Prog Op Res σ ε α) (s : σ) (t : List (Event Op Res σ ε))
      {s' : σ} {op : Op}
      {r : Except ε Res}, .call s' op r ∈ (run env p s t).trace →
      .call s' op r ∈ t ∨ ∃ t', r = env t' op := by
  intro p
  induction p with
  | ret a => intro s t s' op r h; exact .inl h
  | raise e => intro s t s' op r h; exact .inl h
  | get k ih => intro s t s' op r h; exact ih s s t h
  | put s1 k ih =>
    intro s t s' op r h
    rcases ih s1 _ h with ht | hr
    · rcases List.mem_append.mp ht with ht | ht
      · exact .inl ht
      · cases List.mem_singleton.mp ht
    · exact .inr hr
  | call op1 k ih =>
    intro s t s' op r h
    rcases ih _ s _ h with ht | hr
    · rcases List.mem_append.mp ht with ht | ht
      · exact .inl ht
      · cases List.mem_singleton.mp ht
        exact .inr ⟨t, rfl⟩
    · exact .inr hr

/-- Every call of the run was answered from the trace before it. -/
theorem run_obeys_env (env : List (Event Op Res σ ε) → Op → Except ε Res) :
    ∀ (p : Prog Op Res σ ε α) (s : σ) (t : List (Event Op Res σ ε)),
      Obeys (fun pre e => ∀ s' op r, e = .call s' op r → r = env pre op) t →
      Obeys (fun pre e => ∀ s' op r, e = .call s' op r →
        r = env pre op) (run env p s t).trace := by
  intro p
  induction p with
  | ret a => intro s t h; exact h
  | raise e => intro s t h; exact h
  | get k ih => intro s t h; exact ih s s t h
  | put s1 k ih =>
    intro s t h
    refine ih s1 _ (obeys_snoc h ?_)
    intro s' op r he
    cases he
  | call op k ih =>
    intro s t h
    refine ih _ s _ (obeys_snoc h ?_)
    intro s' op' r he
    cases he
    rfl

/-- The field only moves by the assignments in the trace: if each of them is a
step of `R`, the end is reachable from the start. -/
theorem run_reaches {R : σ → σ → Prop}
    (env : List (Event Op Res σ ε) → Op → Except ε Res) :
    ∀ (p : Prog Op Res σ ε α) (s : σ) (t : List (Event Op Res σ ε)),
      (∀ a b, .write a b ∈ (run env p s t).trace → R a b) →
      Relation.ReflTransGen R s (run env p s t).state := by
  intro p
  induction p with
  | ret a => intro s t _; exact .refl
  | raise e => intro s t _; exact .refl
  | get k ih => intro s t h; exact ih s s t h
  | put s' k ih =>
    intro s t h
    have hmem : Event.write s s' ∈ (run env k s' (t ++ [.write s s'])).trace :=
      (run_trace_extends env k s' _).subset (by simp)
    exact .head (h s s' hmem) (ih s' _ h)
  | call op k ih => intro s t h; exact ih _ s _ h

/-- So is the field at every event of the run. -/
theorem run_event_reaches {R : σ → σ → Prop}
    (env : List (Event Op Res σ ε) → Op → Except ε Res) :
    ∀ (p : Prog Op Res σ ε α) (s : σ) (t : List (Event Op Res σ ε)),
      (∀ a b, .write a b ∈ (run env p s t).trace → R a b) →
      ∀ e ∈ (run env p s t).trace, e ∈ t ∨
        Relation.ReflTransGen R s e.field := by
  intro p
  induction p with
  | ret a => intro s t _ e he; exact .inl he
  | raise e => intro s t _ e he; exact .inl he
  | get k ih => intro s t h; exact ih s s t h
  | put s' k ih =>
    intro s t h e he
    have hmem : Event.write s s' ∈ (run env k s' (t ++ [.write s s'])).trace :=
      (run_trace_extends env k s' _).subset (by simp)
    rcases ih s' _ h e he with ht | hr
    · rcases List.mem_append.mp ht with ht | ht
      · exact .inl ht
      · rw [List.mem_singleton.mp ht]
        exact .inr .refl
    · exact .inr (.head (h s s' hmem) hr)
  | call op k ih =>
    intro s t h e he
    rcases ih _ s _ h e he with ht | hr
    · rcases List.mem_append.mp ht with ht | ht
      · exact .inl ht
      · rw [List.mem_singleton.mp ht]
        exact .inr .refl
    · exact .inr hr

end Prog

end Pyrxd.Lib
