import GoproNative.Support.Transition

/-!
# Progress

A measure that every step of an allowed kind makes smaller bounds the runs of such steps.
Where some such step is possible in every state that is not final, no run of them ends
before a final state.
-/

namespace Lts

variable {σ α : Type*} {M : Lts σ α} {P : α → Prop} {I final : σ → Prop} {rank : σ → Nat}
  {s t : σ} {as : List α}

/-- By steps of an allowed kind the system comes from the `I`-states to a final one, and the
rank says how many steps there are at most. -/
structure Descends (M : Lts σ α) (P : α → Prop) (I final : σ → Prop) (rank : σ → Nat) :
    Prop where
  keeps : ∀ {s a t}, I s → P a → M.step s a t → I t
  falls : ∀ {s a t}, I s → P a → M.step s a t → rank t < rank s
  moves : ∀ {s}, I s → ¬final s → ∃ a t, P a ∧ M.step s a t

namespace Descends

theorem rank_run (h : M.Descends P I final rank) (hs : I s) (hrun : M.Run s as t)
    (has : ∀ a ∈ as, P a) : I t ∧ as.length + rank t ≤ rank s := by
  induction hrun with
  | nil s => exact ⟨hs, by simp⟩
  | cons hstep _ ih =>
      obtain ⟨hfirst, hrest⟩ := List.forall_mem_cons.mp has
      obtain ⟨hlast, hle⟩ := ih (h.keeps hs hfirst hstep) hrest
      have hlt := h.falls hs hfirst hstep
      refine ⟨hlast, ?_⟩
      rw [List.length_cons]
      omega

/-- A run of allowed steps is no longer than the rank says, and goes on or is final. -/
theorem run_final (h : M.Descends P I final rank) (hs : I s) (hrun : M.Run s as t)
    (has : ∀ a ∈ as, P a) :
    as.length ≤ rank s ∧ (final t ∨ ∃ a u, P a ∧ M.step t a u) := by
  obtain ⟨ht, hle⟩ := h.rank_run hs hrun has
  refine ⟨by omega, ?_⟩
  by_cases hfinal : final t
  · exact Or.inl hfinal
  · exact Or.inr (h.moves ht hfinal)

end Descends

end Lts
