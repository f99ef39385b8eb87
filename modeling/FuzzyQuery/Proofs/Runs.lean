/-!
# Maximal runs

A run of elements that a test accepts is maximal where the next element, if there is one, fails the
test. Such a run is what `takeWhile` takes.
-/

namespace FuzzyQuery

variable {α : Type} {p : α → Bool}

theorem takeWhile_append_of_stop {run rest : List α} (h : ∀ a ∈ run, p a = true)
    (stop : ∀ a ∈ rest.head?, p a = false) : (run ++ rest).takeWhile p = run := by
  rw [List.takeWhile_append_of_pos h]
  cases rest with
  | nil => simp
  | cons a l => simp [stop a rfl]

theorem dropWhile_append_of_stop {run rest : List α} (h : ∀ a ∈ run, p a = true)
    (stop : ∀ a ∈ rest.head?, p a = false) : (run ++ rest).dropWhile p = rest := by
  rw [List.dropWhile_append_of_pos h]
  cases rest with
  | nil => rfl
  | cons a l => exact List.dropWhile_cons_of_neg (by simp [stop a rfl])

theorem mem_takeWhile {l : List α} {a : α} (h : a ∈ l.takeWhile p) : p a = true :=
  List.all_eq_true.1 List.all_takeWhile a h

theorem stop_dropWhile (p : α → Bool) (l : List α) :
    ∀ a ∈ (l.dropWhile p).head?, p a = false := by
  intro a ha
  have hh := List.head?_dropWhile_not p l
  rw [Option.mem_def.1 ha] at hh
  exact hh

end FuzzyQuery
