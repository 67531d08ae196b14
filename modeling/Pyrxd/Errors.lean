import Mathlib.Data.Fintype.Basic

/-!
# Exceptions

`pyrxd.security.errors.ValidationError` is the family every fail-closed check
raises and the only one most handlers name; the other classes matter only for
which handlers catch them. Three cases are enough: `except ValidationError`
catches the first, `except Exception` the first two, and a cancelled task (or
any other `BaseException`) passes both.

The message is kept as the source writes it. `RxdSdkError` passes it through
`redact`, which can only replace the text, never the class.
-/

namespace Pyrxd

inductive PyErr where
  /-- `ValidationError` and its subclasses. -/
  | validation (msg : String)
  /-- Any other `Exception`: `KeyError`, `TypeError`, `NetworkError`, ... -/
  | other (msg : String)
  /-- A `BaseException` outside `Exception`: `CancelledError`,
  `KeyboardInterrupt`. -/
  | base (msg : String)
deriving DecidableEq, Repr

/-- `str(exc)`. -/
def PyErr.text : PyErr → String
  | .validation m => m
  | .other m => m
  | .base m => m

/-- `raise ValidationError(msg)`. -/
def invalid {α : Type} (msg : String) : Except PyErr α :=
  .error (.validation msg)

/-- `if cond: raise ValidationError(msg)`. -/
def refuseIf (cond : Prop) [Decidable cond] (msg : String) :
    Except PyErr Unit :=
  if cond then invalid msg else .ok ()

/-- The guard returns exactly when its condition fails. -/
theorem refuseIf_ok {cond : Prop} [Decidable cond] {msg : String} {u : Unit} :
    refuseIf cond msg = .ok u ↔ ¬ cond := by
  unfold refuseIf invalid
  split <;> simp_all

@[simp] theorem ok_bind {α β : Type} (a : α) (f : α → Except PyErr β) :
    (Except.ok a >>= f) = f a := rfl

/-- An error ends the computation. -/
@[simp] theorem error_bind {α β : Type} (e : PyErr) (f : α → Except PyErr β) :
    (Except.error e >>= f) = .error e := rfl

@[simp] theorem pure_eq_ok {α : Type} (a : α) :
    (pure a : Except PyErr α) = .ok a := rfl

/-- Peel one statement off a fallible block that succeeded. -/
theorem bind_ok {α β : Type} {x : Except PyErr α}
    {f : α → Except PyErr β} {b : β} :
    (x >>= f) = .ok b ↔ ∃ a, x = .ok a ∧ f a = .ok b := by
  cases x with
  | error e => simp [bind, Except.bind]
  | ok a => simp [bind, Except.bind]

/-- Which statement of a fallible block failed. -/
theorem bind_error {α β : Type} {x : Except PyErr α}
    {f : α → Except PyErr β} {e : PyErr} :
    (x >>= f) = .error e ↔ x = .error e ∨ ∃ a, x = .ok a ∧ f a = .error e := by
  cases x with
  | error e' => simp [bind, Except.bind]
  | ok a => simp [bind, Except.bind]

/-- The guard raises its own message, and only that. -/
theorem refuseIf_error {cond : Prop} [Decidable cond]
    {msg : String} {e : PyErr} :
    refuseIf cond msg = .error e ↔ cond ∧ e = .validation msg := by
  unfold refuseIf invalid
  split <;> simp_all [eq_comm]

/-- A check in front of a block: the block's success includes the check's. -/
theorem refuseIf_bind_ok {β : Type} {cond : Prop} [Decidable cond]
    {msg : String}
    {f : Unit → Except PyErr β} {b : β} :
    (refuseIf cond msg >>= f) = .ok b ↔ ¬ cond ∧ f () = .ok b := by
  rw [bind_ok]
  constructor
  · rintro ⟨u, hu, hf⟩
    exact ⟨refuseIf_ok.mp hu, hf⟩
  · rintro ⟨hc, hf⟩
    exact ⟨(), refuseIf_ok.mpr hc, hf⟩

/-- The same, for a block that returns something. -/
theorem bind_returns {α β : Type} {x : Except PyErr α} {f : α → Except PyErr β}
    {a : α} (hx : x = .ok a)
    (hf : ∃ b, f a = .ok b) : ∃ b, (x >>= f) = .ok b := by
  obtain ⟨b, hb⟩ := hf
  exact ⟨b, bind_ok.mpr ⟨a, hx, hb⟩⟩

/-- Past a condition that fails, the rest decides whether the call returns. -/
theorem refuseIf_returns {β : Type} {cond : Prop} [Decidable cond]
    {msg : String} {f : Unit → Except PyErr β}
    (hcond : ¬ cond) (hf : ∃ b, f () = .ok b) :
    ∃ b, (refuseIf cond msg >>= f) = .ok b :=
  bind_returns (refuseIf_ok.mpr hcond : refuseIf cond msg = .ok ()) hf

/-- Two continuations that agree on every returned value are the same. -/
theorem bind_congr_ok {α β : Type} {x : Except PyErr α}
    {f g : α → Except PyErr β} (h : ∀ a, x = .ok a → f a = g a) :
    (x >>= f) = x >>= g := by
  cases x with
  | error e => rfl
  | ok a => exact h a rfl

/-- A result is `ok` when it has a value. -/
theorem isOk_iff {α : Type} {x : Except PyErr α} : x.isOk = true ↔
    ∃ a, x = .ok a := by
  cases x with
  | error e => exact ⟨nofun, nofun⟩
  | ok a => exact ⟨fun _ => ⟨a, rfl⟩, fun _ => rfl⟩

/-- The fact that `__post_init__` accepted, carried out of its result. -/
def certify {F : Type} {check : F → Except PyErr Unit} {f : F} :
    (x : Except PyErr Unit) → check f = x →
    Except PyErr (PLift (check f = .ok ()))
  | .ok (), h => .ok ⟨h⟩
  | .error e, _ => .error e

/-- Run a dataclass's `__post_init__` and hand back what it certified. -/
def postInitOk {F : Type} (check : F → Except PyErr Unit) (f : F) :
    Except PyErr (PLift (check f = .ok ())) := certify (check f) rfl

theorem postInitOk_of {F : Type} {check : F → Except PyErr Unit} {f : F}
    (h : check f = .ok ()) : postInitOk check f = .ok ⟨h⟩ := by
  have general : ∀ (x : Except PyErr Unit) (hx : check f = x), x = .ok () →
      certify x hx = .ok ⟨h⟩ := by
    rintro x hx rfl
    rfl
  exact general _ rfl h

end Pyrxd
