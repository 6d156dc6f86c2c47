import Mathlib.Data.List.Basic

/-!
# A log behind a channel

One party keeps a log and posts what some of its entries say.  The channel delivers in
order, each message once.  So what the other party knows is what a front of the log says,
and the channel holds what is said by the rest.
-/

namespace Channel

variable {α μ : Type*} {message : α → Option μ} {log delivered : List α} {port : List μ}

/-- `delivered` is the front of the log whose messages have been delivered. -/
def Shipped (message : α → Option μ) (log : List α) (port : List μ) (delivered : List α) :
    Prop :=
  ∃ rest, log = delivered ++ rest ∧ port = rest.filterMap message

theorem Shipped.nil : Shipped message [] [] [] :=
  ⟨[], rfl, rfl⟩

theorem Shipped.isPrefix (h : Shipped message log port delivered) : delivered <+: log := by
  obtain ⟨rest, rfl, -⟩ := h
  exact List.prefix_append _ _

/-- What is logged is posted behind what the channel holds. -/
theorem Shipped.post (h : Shipped message log port delivered) (entries : List α) :
    Shipped message (log ++ entries) (port ++ entries.filterMap message) delivered := by
  obtain ⟨rest, rfl, rfl⟩ := h
  exact ⟨rest ++ entries, List.append_assoc _ _ _, List.filterMap_append.symm⟩

/-- The message in front is that of the next entry that says anything. -/
theorem Shipped.deliver {m : μ} (h : Shipped message log (m :: port) delivered) :
    ∃ silent a, (∀ x ∈ silent, message x = none) ∧ message a = some m ∧
      Shipped message log port (delivered ++ silent ++ [a]) := by
  obtain ⟨rest, rfl, hport⟩ := h
  obtain ⟨silent, a, later, rfl, hsilent, ha, hlater⟩ := List.filterMap_eq_cons_iff.mp hport.symm
  exact ⟨silent, a, hsilent, ha, later, by simp, hlater.symm⟩

/-- Behind an empty channel all has been said. -/
theorem Shipped.drained (h : Shipped message log [] delivered) :
    ∃ silent, log = delivered ++ silent ∧ ∀ x ∈ silent, message x = none := by
  obtain ⟨rest, rfl, hport⟩ := h
  exact ⟨rest, rfl, List.filterMap_eq_nil_iff.mp hport.symm⟩

end Channel
