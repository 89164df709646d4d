import Mathlib.Data.List.TakeWhile

/-!
Runs of a class at the front of a text, of characters or of bytes.

A text splits where the run at its front ends (`span_spec`). A run that is put in front of what does not go on
with it is split off again, and a text in which nothing is of the class begins with no run.
-/

namespace Worksheet.Text

variable {α : Type} {p : α → Bool} {front rest : List α}

theorem span_spec (p : α → Bool) (xs : List α) :
    xs.takeWhile p ++ xs.dropWhile p = xs ∧ (∀ x ∈ xs.takeWhile p, p x = true) ∧
      ∀ x ∈ (xs.dropWhile p).head?, p x = false := by
  refine ⟨List.takeWhile_append_dropWhile, fun x member => List.mem_takeWhile_imp member, ?_⟩
  intro x first
  have fails := List.head?_dropWhile_not p xs
  rw [first] at fails
  simpa using fails

theorem takeWhile_append_of_ends (all : ∀ x ∈ front, p x = true) (ends : ∀ x ∈ rest.head?, p x = false) :
    (front ++ rest).takeWhile p = front := by
  rw [List.takeWhile_append_of_pos all]
  cases rest with
  | nil => exact List.append_nil front
  | cons x rest =>
      rw [List.takeWhile_cons_of_neg (ne_true_of_eq_false (ends x rfl)), List.append_nil]

theorem dropWhile_append_of_ends (all : ∀ x ∈ front, p x = true) (ends : ∀ x ∈ rest.head?, p x = false) :
    (front ++ rest).dropWhile p = rest := by
  rw [List.dropWhile_append_of_pos all]
  cases rest with
  | nil => rfl
  | cons x rest => exact List.dropWhile_cons_of_neg (ne_true_of_eq_false (ends x rfl))

theorem takeWhile_append_of_none (nonempty : front ≠ []) (none : ∀ x ∈ front, p x = false) (rest : List α) :
    (front ++ rest).takeWhile p = [] := by
  obtain ⟨x, xs, rfl⟩ := List.exists_cons_of_ne_nil nonempty
  have first := none x List.mem_cons_self
  rw [List.cons_append, List.takeWhile_cons_of_neg (ne_true_of_eq_false first)]

theorem dropWhile_append_of_none (nonempty : front ≠ []) (none : ∀ x ∈ front, p x = false) (rest : List α) :
    (front ++ rest).dropWhile p = front ++ rest := by
  obtain ⟨x, xs, rfl⟩ := List.exists_cons_of_ne_nil nonempty
  have first := none x List.mem_cons_self
  rw [List.cons_append, List.dropWhile_cons_of_neg (ne_true_of_eq_false first)]

end Worksheet.Text
