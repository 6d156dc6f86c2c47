import GoproNative.Support.Transition
import Mathlib.Algebra.Order.Group.Multiset

/-!
# Forward simulation

A system follows another, more abstract one when each of its steps is matched by a run of
that one.  Some of the abstract labels are shown; those of the matching run spell what the
concrete system was seen to do.
-/

namespace Lts

variable {σ τ β γ ε : Type*} {N : Lts τ β} {R : σ → τ → Prop} {shown : β → Bool}
  {seen : σ → List β} {s s' : σ}

/-- Some run of the abstract system ends in a state related to `s`, and shows what was seen
by then. -/
def Follows (N : Lts τ β) (R : σ → τ → Prop) (shown : β → Bool) (seen : σ → List β) (s : σ) :
    Prop :=
  ∃ t₀ bs t, N.start t₀ ∧ N.Run t₀ bs t ∧ R s t ∧ bs.filter shown = seen s

theorem Follows.start {t₀ : τ} (hstart : N.start t₀) (hrelated : R s t₀) (hseen : seen s = []) :
    N.Follows R shown seen s :=
  ⟨t₀, [], t₀, hstart, .nil t₀, hrelated, hseen.symm⟩

theorem Follows.step (h : N.Follows R shown seen s)
    (hstep : ∀ t, R s t → ∃ bs t', N.Run t bs t' ∧ R s' t' ∧
      seen s' = seen s ++ bs.filter shown) : N.Follows R shown seen s' := by
  obtain ⟨t₀, bs, t, hstart, hrun, hrelated, hseen⟩ := h
  obtain ⟨bs', t', hrun', hrelated', hseen'⟩ := hstep t hrelated
  refine ⟨t₀, bs ++ bs', t', hstart, hrun.append hrun', hrelated', ?_⟩
  rw [List.filter_append, hseen, hseen']

/-- Where an element leaves a list by a step that is not shown, and is entered elsewhere,
all elements of a kind leave it so. -/
theorem run_filter {P : List ε → Prop} {f : List ε → Multiset γ → τ} {entry : ε → γ}
    (p : ε → Bool) (hmono : ∀ as e bs, P (as ++ e :: bs) → P (as ++ bs))
    (hleave : ∀ as e bs S, p e = true → P (as ++ e :: bs) → ∃ b, shown b = false ∧
      N.step (f (as ++ e :: bs) S) b (f (as ++ bs) (S + {entry e})))
    {es : List ε} (hP : P es) (S : Multiset γ) :
    ∃ bs, N.Run (f es S) bs
        (f (es.filter fun e => !p e) (S + ↑((es.filter p).map entry))) ∧
      bs.filter shown = [] := by
  have hgeneral : ∀ es front S, P (front ++ es) → ∃ bs, N.Run (f (front ++ es) S) bs
      (f (front ++ es.filter fun e => !p e) (S + ↑((es.filter p).map entry))) ∧
      bs.filter shown = [] := by
    intro es
    induction es with
    | nil =>
        intro front S _
        refine ⟨[], ?_, rfl⟩
        simpa using Run.nil (f front S)
    | cons e es ih =>
        intro front S hP
        by_cases hp : p e = true
        · obtain ⟨b, hb, hstep⟩ := hleave front e es S hp hP
          obtain ⟨bs, hrun, hbs⟩ := ih front (S + {entry e}) (hmono _ _ _ hP)
          refine ⟨b :: bs, .cons hstep ?_, by simp [hb, hbs]⟩
          simpa [hp, Multiset.singleton_add, add_assoc, ← Multiset.cons_coe] using hrun
        · have hfront : front ++ e :: es = (front ++ [e]) ++ es := by simp
          obtain ⟨bs, hrun, hbs⟩ := ih (front ++ [e]) S (hfront ▸ hP)
          refine ⟨bs, ?_, hbs⟩
          simpa [hp] using hrun
  simpa using hgeneral es [] S hP

end Lts
