import Mathlib.Data.List.Basic

/-!
# Histories

Runs of a labelled step relation together with their labels, oldest first. Facts
about the order of events are stated through `Precedes`, which a run only ever
gains.
-/

namespace Pyrxd.Lib

variable {σ ε : Type}

/-- The events of a run from `s₀`, and where it has come to. -/
inductive History (step : σ → ε → σ → Prop) (s₀ : σ) : List ε → σ → Prop where
  | start : History step s₀ [] s₀
  | snoc {es s e s'} : History step s₀ es s → step s e s' →
      History step s₀ (es ++ [e]) s'

namespace History

variable {step : σ → ε → σ → Prop} {s₀ : σ}

/-- What holds at first and is kept by every step holds along the run. -/
theorem invariant {I : List ε → σ → Prop} (hstart : I [] s₀)
    (hstep : ∀ {es s e s'}, I es s → step s e s' → I (es ++ [e]) s')
    {es : List ε} {s : σ}
    (h : History step s₀ es s) : I es s := by
  induction h with
  | start => exact hstart
  | snoc _ hs ih => exact hstep ih hs

/-- A history from its first step on. -/
theorem cons {s₁ s : σ} {e : ε} {es : List ε} (hstep : step s₀ e s₁)
    (h : History step s₁ es s) :
    History step s₀ (e :: es) s := by
  induction h with
  | start => exact snoc start hstep
  | snoc _ hs ih => exact snoc ih hs

end History

/-- An event with `b`, and one with `a` before it. -/
def Precedes (a b : ε → Prop) (es : List ε) : Prop :=
  ∃ pre x mid y post, es = pre ++ x :: (mid ++ y :: post) ∧ a x ∧ b y

namespace Precedes

variable {a a' b b' : ε → Prop} {es : List ε}

/-- What precedes still does when more events come. -/
theorem append (h : Precedes a b es) (more : List ε) :
    Precedes a b (es ++ more) := by
  obtain ⟨pre, x, mid, y, post, rfl, hx, hy⟩ := h
  exact ⟨pre, x, mid, y, post ++ more, by simp, hx, hy⟩

/-- The later of the two happens now. -/
theorem snoc {x y : ε} (hx : x ∈ es) (ha : a x) (hb : b y) :
    Precedes a b (es ++ [y]) := by
  obtain ⟨pre, mid, rfl⟩ := List.append_of_mem hx
  exact ⟨pre, x, mid, y, [], by simp, ha, hb⟩

/-- Precedence passes to weaker conditions. -/
theorem mono (h : Precedes a b es) (ha : ∀ x ∈ es, a x → a' x)
    (hb : ∀ y, b y → b' y) : Precedes a' b' es := by
  obtain ⟨pre, x, mid, y, post, rfl, hx, hy⟩ := h
  exact ⟨pre, x, mid, y, post, rfl, ha x (by simp) hx, hb y hy⟩

/-- The first of the later events, with what came before it. -/
theorem exists_second (h : Precedes a b es) :
    ∃ pre y post, es = pre ++ y :: post ∧ b y ∧ ∃ x ∈ pre, a x := by
  obtain ⟨pre, x, mid, y, post, rfl, hx, hy⟩ := h
  exact ⟨pre ++ x :: mid, y, post, by simp, hy, x, by simp, hx⟩

end Precedes

end Pyrxd.Lib
