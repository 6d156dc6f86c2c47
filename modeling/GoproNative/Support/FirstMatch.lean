import Mathlib.Data.List.Basic
import Mathlib.Data.List.Perm.Basic

/-!
# Taking the first match out of a list

A scan that stops at the first element with a property and erases it is
`find?` followed by `eraseP`.  These lemmas say what it takes and what it
leaves.
-/

namespace List

variable {α : Type*} {p : α → Bool} {l : List α} {a : α}

/-- The first match splits the list; erasing it joins the two parts. -/
theorem find?_eraseP_split (h : l.find? p = some a) :
    p a = true ∧ ∃ as bs, l = as ++ a :: bs ∧ l.eraseP p = as ++ bs ∧
      ∀ b ∈ as, p b = false := by
  obtain ⟨hpa, as, bs, rfl, has⟩ := List.find?_eq_some_iff_append.mp h
  have has' : ∀ b ∈ as, p b = false := by
    intro b hb
    simpa using has b hb
  refine ⟨hpa, as, bs, rfl, ?_, has'⟩
  rw [List.eraseP_append_right _ (by simpa using has'), List.eraseP_cons_of_pos hpa]

theorem perm_cons_eraseP_of_find? (h : l.find? p = some a) :
    l.Perm (a :: l.eraseP p) := by
  obtain ⟨-, as, bs, rfl, herase, -⟩ := find?_eraseP_split h
  rw [herase]
  exact List.perm_middle

end List
