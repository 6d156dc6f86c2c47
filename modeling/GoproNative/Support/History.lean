import Mathlib.Data.List.Basic
import Mathlib.Data.List.Nodup

/-!
# Histories

A history is a list of events, oldest first.  `Throughout P` says of every
event that `P` relates it to what came before it; this is the form of "nothing
is answered that was not asked".
-/

namespace List

variable {α : Type*} {P : List α → α → Prop} {l l' : List α} {a : α}

/-- Where a list that was extended by one element can be split. -/
theorem append_singleton_eq_append_cons {before after : List α} {b : α}
    (h : l ++ [a] = before ++ b :: after) :
    (after = [] ∧ b = a ∧ before = l) ∨
      ∃ after', after = after' ++ [a] ∧ l = before ++ b :: after' := by
  rcases List.eq_nil_or_concat after with rfl | ⟨after', c, rfl⟩
  · left
    obtain ⟨rfl, hab⟩ := List.append_inj' h rfl
    simp only [List.cons.injEq, and_true] at hab
    exact ⟨rfl, hab.symm, rfl⟩
  · right
    have h' : l ++ [a] = (before ++ b :: after') ++ [c] := by simpa using h
    obtain ⟨rfl, hac⟩ := List.append_inj' h' rfl
    simp only [List.cons.injEq, and_true] at hac
    exact ⟨after', by simp [hac], rfl⟩

/-- Every event stands in the relation `P` to the events before it. -/
def Throughout (P : List α → α → Prop) (l : List α) : Prop :=
  ∀ before a after, l = before ++ a :: after → P before a

theorem throughout_nil : Throughout P [] := by
  intro before a after h
  simp at h

theorem throughout_snoc (h : Throughout P l) (ha : P l a) :
    Throughout P (l ++ [a]) := by
  intro before b after heq
  rcases append_singleton_eq_append_cons heq with ⟨-, rfl, rfl⟩ | ⟨after', -, rfl⟩
  · exact ha
  · exact h before b after' rfl

/-- Events for which `P` holds whatever came before them can be appended. -/
theorem throughout_append (h : Throughout P l)
    (h' : ∀ a ∈ l', ∀ before, P before a) : Throughout P (l ++ l') := by
  induction l' generalizing l with
  | nil => simpa using h
  | cons b l' ih =>
      rw [List.append_cons]
      exact ih (throughout_snoc h (h' b (by simp) l)) fun a ha => h' a (by simp [ha])

/-- A longer history stands when its first part does and what was appended stands
after it. -/
theorem throughout_append_iff :
    Throughout P (l ++ l') ↔
      Throughout P l ∧ Throughout (fun before => P (l ++ before)) l' := by
  constructor
  · intro h
    refine ⟨?_, ?_⟩
    · rintro before a after rfl
      exact h before a (after ++ l') (by simp)
    · rintro before a after rfl
      exact h (l ++ before) a after (by simp)
  · rintro ⟨hleft, hright⟩ before a after heq
    rcases List.append_eq_append_iff.mp heq with ⟨mid, rfl, hmid⟩ | ⟨mid, hmid, hright'⟩
    · exact hright mid a after hmid
    · cases mid with
      | nil =>
          rw [List.append_nil] at hmid
          subst hmid
          simpa using hright [] a after hright'.symm
      | cons b mid =>
          obtain ⟨rfl, rfl⟩ := List.cons.inj hright'
          exact hleft before a mid hmid

/-! ## Extracts of a history -/

/-- Reading less of every event reads a subsequence. -/
theorem filterMap_sublist_filterMap {β : Type*} {f g : α → Option β}
    (h : ∀ a, f a = none ∨ f a = g a) (l : List α) :
    (l.filterMap f).Sublist (l.filterMap g) := by
  induction l with
  | nil => exact List.Sublist.refl _
  | cons a l ih =>
      rcases h a with hskip | hsame
      · rw [List.filterMap_cons_none hskip]
        cases hg : g a with
        | none => rwa [List.filterMap_cons_none hg]
        | some b =>
            rw [List.filterMap_cons_some hg]
            exact ih.cons b
      · cases hg : g a with
        | none => rwa [List.filterMap_cons_none (hsame.trans hg), List.filterMap_cons_none hg]
        | some b =>
            rw [List.filterMap_cons_some (hsame.trans hg), List.filterMap_cons_some hg]
            exact ih.cons_cons b

/-- What comes first, and only once, comes first in every subsequence that has it. -/
theorem Sublist.head?_of_mem {l' l : List α} {a : α} (h : l'.Sublist (a :: l))
    (hnodup : (a :: l).Nodup) (ha : a ∈ l') : l'.head? = some a := by
  cases h with
  | cons _ hrest => exact absurd (hrest.subset ha) (List.nodup_cons.mp hnodup).1
  | cons_cons _ hrest => rfl

end List
