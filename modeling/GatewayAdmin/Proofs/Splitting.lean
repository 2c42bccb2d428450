import GatewayAdmin.Text.Cut
import Mathlib.Data.List.Basic

/-! Pieces of a text: how many there are, what is in their join, and what is cut off in front of the
first separator. -/
namespace GatewayAdmin.Text

variable {α : Type}

theorem mem_of_mem_intercalate {x : α} {sep : List α} {pieces : List (List α)}
    (h : x ∈ sep.intercalate pieces) : x ∈ sep ∨ ∃ piece ∈ pieces, x ∈ piece := by
  induction pieces with
  | nil => simp at h
  | cons piece rest ih =>
    cases rest with
    | nil => exact .inr ⟨piece, by simp, by simpa using h⟩
    | cons next rest =>
      rw [List.intercalate_cons_cons] at h
      rcases List.mem_append.mp h with h | h
      · rcases List.mem_append.mp h with h | h
        · exact .inr ⟨piece, by simp, h⟩
        · exact .inl h
      · rcases ih h with hs | ⟨p, hp, hx⟩
        · exact .inl hs
        · exact .inr ⟨p, List.mem_cons_of_mem _ hp, hx⟩

theorem prefix_intercalate (sep piece : List α) (rest : List (List α)) :
    piece <+: sep.intercalate (piece :: rest) := by
  cases rest with
  | nil => simp
  | cons next rest =>
    rw [List.intercalate_cons_cons, List.append_assoc]
    exact List.prefix_append _ _

variable [DecidableEq α]

/-- There is always one piece more than there are separators. -/
theorem length_splitOn (sep : α) (xs : List α) :
    (xs.splitOn sep).length = xs.count sep + 1 := by
  induction xs with
  | nil => simp
  | cons x xs ih =>
    rw [List.splitOn_cons_eq_if_modifyHead]
    by_cases h : x = sep
    · simp [h, ih]
    · simp [h, ih]

theorem splitFirst_of_not_mem {sep : α} {xs : List α} (h : sep ∉ xs) :
    splitFirst sep xs = (xs, none) := by
  induction xs with
  | nil => rfl
  | cons x xs ih =>
    have hx : x ≠ sep := fun he => h (by simp [he])
    have hxs : sep ∉ xs := fun hm => h (List.mem_cons_of_mem _ hm)
    simp [splitFirst, hx, ih hxs]

theorem splitFirst_append {sep : α} {xs : List α} (h : sep ∉ xs) (ys : List α) :
    splitFirst sep (xs ++ sep :: ys) = (xs, some ys) := by
  induction xs with
  | nil => simp [splitFirst]
  | cons x xs ih =>
    have hx : x ≠ sep := fun he => h (by simp [he])
    have hxs : sep ∉ xs := fun hm => h (List.mem_cons_of_mem _ hm)
    simp [splitFirst, hx, ih hxs]

theorem not_mem_splitFirst (sep : α) (xs : List α) : sep ∉ (splitFirst sep xs).1 := by
  induction xs with
  | nil => simp [splitFirst]
  | cons x xs ih =>
    by_cases hx : x = sep
    · simp [splitFirst, hx]
    · simp [splitFirst, hx, Ne.symm hx, ih]

/-- Nothing is lost where a list is cut. -/
theorem splitFirst_append_elim (sep : α) (xs : List α) :
    (splitFirst sep xs).1 ++ (splitFirst sep xs).2.elim [] (sep :: ·) = xs := by
  induction xs with
  | nil => rfl
  | cons x xs ih =>
    by_cases hx : x = sep
    · simp [splitFirst, hx]
    · simp [splitFirst, hx, ih]

end GatewayAdmin.Text
