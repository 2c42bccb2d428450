import Mathlib.Data.List.Forall2

/-! Computations that succeed with a value or fail with an error: what a success or a failure of
steps one after another says about the steps. -/
namespace GatewayAdmin

theorem bind_eq_ok_iff {ε α β : Type} {x : Except ε α} {f : α → Except ε β} {b : β} :
    x >>= f = .ok b ↔ ∃ a, x = .ok a ∧ f a = .ok b := by
  cases x with
  | error e => simp [bind, Except.bind]
  | ok a => simp [bind, Except.bind]

theorem bind_eq_error_iff {ε α β : Type} {x : Except ε α} {f : α → Except ε β} {e : ε} :
    x >>= f = .error e ↔ x = .error e ∨ ∃ a, x = .ok a ∧ f a = .error e := by
  cases x with
  | error e' => simp [bind, Except.bind]
  | ok a => simp [bind, Except.bind]

theorem map_eq_ok_iff {ε α β : Type} {x : Except ε α} {f : α → β} {b : β} :
    f <$> x = .ok b ↔ ∃ a, x = .ok a ∧ f a = b := by
  cases x with
  | error e => simp [Functor.map, Except.map]
  | ok a => simp [Functor.map, Except.map]

theorem exists_right_of_mem {α β : Type} {R : α → β → Prop} {items : List α} {values : List β}
    (h : List.Forall₂ R items values) {a : α} (ha : a ∈ items) : ∃ b ∈ values, R a b := by
  induction h with
  | nil => simp at ha
  | @cons c d _ _ hcd _ ih =>
    rcases List.mem_cons.mp ha with rfl | ha
    · exact ⟨d, by simp, hcd⟩
    · obtain ⟨b, hb, hab⟩ := ih ha
      exact ⟨b, by simp [hb], hab⟩

theorem exists_forall₂ {α β : Type} {R : α → β → Prop} {items : List α}
    (h : ∀ a ∈ items, ∃ b, R a b) : ∃ values, List.Forall₂ R items values := by
  induction items with
  | nil => exact ⟨[], .nil⟩
  | cons a items ih =>
    obtain ⟨b, hb⟩ := h a List.mem_cons_self
    obtain ⟨values, hvalues⟩ := ih fun c hc => h c (List.mem_cons_of_mem a hc)
    exact ⟨b :: values, .cons hb hvalues⟩

/-- The values of two lists of items, one behind the other. -/
theorem exists_append_of_forall₂ {α β : Type} {R : α → β → Prop} {before after : List α}
    {values : List β} (h : List.Forall₂ R (before ++ after) values) :
    ∃ earlier later, List.Forall₂ R before earlier ∧ List.Forall₂ R after later ∧
      values = earlier ++ later := by
  have htake := List.forall₂_take_append values before after h.flip
  have hdrop := List.forall₂_drop_append values before after h.flip
  exact ⟨_, _, htake.flip, hdrop.flip, (List.take_append_drop before.length values).symm⟩

/-- Every item has its value. -/
theorem mapM_eq_ok_iff {ε α β : Type} {f : α → Except ε β} {items : List α} {values : List β} :
    items.mapM f = .ok values ↔ List.Forall₂ (fun a b => f a = .ok b) items values := by
  induction items generalizing values with
  | nil => simp [pure, Except.pure, eq_comm]
  | cons a items ih =>
    simp only [List.mapM_cons, bind_eq_ok_iff, ih, List.forall₂_cons_left_iff]
    constructor
    · rintro ⟨b, hb, rest, hrest, h⟩
      exact ⟨b, rest, hb, hrest, (Except.ok.inj h).symm⟩
    · rintro ⟨b, rest, hb, hrest, rfl⟩
      exact ⟨b, hb, rest, hrest, rfl⟩

end GatewayAdmin
