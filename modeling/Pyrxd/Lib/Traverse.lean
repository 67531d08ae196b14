import Pyrxd.Errors

/-!
# Traversals

`[f(x) for x in xs]` where a turn may raise: what a traversal that returns has
returned, and when it does.
-/

namespace Pyrxd.Lib

/-- Every turn returns. -/
theorem mapM_eq_map {α γ ε : Type} {f : α → Except ε γ} {r : α → γ} {l : List α}
    (h : ∀ a ∈ l, f a = .ok (r a)) : l.mapM f = .ok (l.map r) := by
  induction l with
  | nil => rfl
  | cons a l ih =>
    rw [List.mapM_cons, h a List.mem_cons_self,
      ih fun b hb => h b (List.mem_cons_of_mem _ hb)]
    rfl

/-- Traversals that agree on the items agree. -/
theorem mapM_congr {α γ ε : Type} {f g : α → Except ε γ} {l : List α}
    (h : ∀ a ∈ l, f a = g a) :
    l.mapM f = l.mapM g := by
  induction l with
  | nil => rfl
  | cons a l ih =>
    rw [List.mapM_cons, List.mapM_cons, h a List.mem_cons_self,
      ih fun b hb => h b (List.mem_cons_of_mem _ hb)]

/-- What every turn begins with can be done once, as there is a turn. -/
theorem mapM_bind {α β γ ε : Type} {m : Except ε β} {f : β → α → Except ε γ}
    {l : List α} (hne : l ≠ []) :
    l.mapM (fun a => m >>= fun b => f b a) = m >>= fun b => l.mapM (f b) := by
  cases m with
  | ok b => rfl
  | error e =>
    obtain ⟨a, t, rfl⟩ := List.exists_cons_of_ne_nil hne
    rw [List.mapM_cons]
    rfl

/-- A traversal that returns everywhere. -/
theorem mapM_map_ok {α β γ ε : Type} {f : β → Except ε γ} {k : α → β}
    {r : α → γ} (l : List α)
    (h : ∀ a ∈ l, f (k a) = .ok (r a)) : (l.map k).mapM f = .ok (l.map r) := by
  rw [List.mapM_map]
  exact mapM_eq_map h

section MapM

variable {α β : Type} {f : α → Except PyErr β}

/-- A traversal by its first item. -/
theorem mapM_cons_ok {a : α} {l : List α} {m : List β} :
    (a :: l).mapM f = .ok m ↔ ∃ b t, f a = .ok b ∧ l.mapM f = .ok t ∧
    m = b :: t := by
  rw [List.mapM_cons, bind_ok]
  constructor
  · rintro ⟨b, hb, h⟩
    obtain ⟨t, ht, h⟩ := bind_ok.mp h
    cases h
    exact ⟨b, t, hb, ht, rfl⟩
  · rintro ⟨b, t, hb, ht, rfl⟩
    exact ⟨b, hb, bind_ok.mpr ⟨t, ht, rfl⟩⟩

/-- What a traversal that returned did at each item. -/
theorem mapM_ok : ∀ {l : List α} {m : List β}, l.mapM f = .ok m →
    m.length = l.length ∧ ∀ (i : Nat) (a : α), l[i]? = some a →
    ∃ b, m[i]? = some b ∧ f a = .ok b := by
  intro l
  induction l with
  | nil =>
    intro m h
    cases h
    exact ⟨rfl, nofun⟩
  | cons a l ih =>
    intro m h
    obtain ⟨b, t, hb, ht, rfl⟩ := mapM_cons_ok.mp h
    obtain ⟨hlen, hget⟩ := ih ht
    refine ⟨by rw [List.length_cons, List.length_cons, hlen], ?_⟩
    intro i c hc
    cases i with
    | zero =>
      cases hc
      exact ⟨b, rfl, hb⟩
    | succ i => exact hget i c hc

/-- Each result comes from an item. -/
theorem mapM_mem {l : List α} {m : List β} {b : β} (h : l.mapM f = .ok m)
    (hb : b ∈ m) :
    ∃ a ∈ l, f a = .ok b := by
  obtain ⟨hlen, hget⟩ := mapM_ok h
  obtain ⟨k, hk, hkb⟩ := List.mem_iff_getElem.mp hb
  have hk' : k < l.length := by omega
  obtain ⟨c, hc, hf⟩ := hget k l[k] (List.getElem?_eq_getElem hk')
  rw [List.getElem?_eq_getElem hk, hkb, Option.some.injEq] at hc
  exact ⟨l[k], List.getElem_mem hk', by rw [hc]; exact hf⟩

/-- What every turn keeps, the whole traversal keeps. -/
theorem mapM_map {γ : Type} {g : β → γ} {k : α → γ}
    (hf : ∀ a b, f a = .ok b → g b = k a) :
    ∀ {l : List α} {m : List β}, l.mapM f = .ok m → m.map g = l.map k := by
  intro l
  induction l with
  | nil =>
    intro m h
    cases h
    rfl
  | cons a l ih =>
    intro m h
    obtain ⟨b, t, hb, ht, rfl⟩ := mapM_cons_ok.mp h
    rw [List.map_cons, List.map_cons, hf a b hb, ih ht]

theorem mapM_returns : ∀ {l : List α}, (∀ a ∈ l, ∃ b, f a = .ok b) →
    ∃ m, l.mapM f = .ok m := by
  intro l
  induction l with
  | nil => intro _; exact ⟨[], rfl⟩
  | cons a l ih =>
    intro h
    obtain ⟨b, hb⟩ := h a List.mem_cons_self
    obtain ⟨t, ht⟩ := ih fun c hc => h c (List.mem_cons_of_mem _ hc)
    exact ⟨b :: t, mapM_cons_ok.mpr ⟨b, t, hb, ht, rfl⟩⟩

end MapM

end Pyrxd.Lib
