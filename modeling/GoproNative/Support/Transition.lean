import Mathlib.Logic.Relation
import Mathlib.Data.List.Basic

/-!
# Labelled transition systems

A system is a predicate on start states together with a labelled step
relation.  This module contains its finite runs, the invariant rules for the
states they reach, and the lockstep rule that relates two runs step by step.

Nothing here mentions a particular program.  An executable model enters
through `Lts.ofPartial` or `Lts.ofTotal`, so that the step function which
evaluates is also the one that the proofs are about.
-/

/-- A labelled transition system with states `σ` and labels `α`. -/
structure Lts (σ α : Type*) where
  /-- The states a run may begin in. -/
  start : σ → Prop
  /-- `step s a t`: from `s` the system can do `a` and be in `t`. -/
  step : σ → α → σ → Prop

namespace Lts

variable {σ τ α β : Type*}

/-- The system of a guarded step function; `none` means not enabled. -/
def ofPartial (start : σ → Prop) (next : σ → α → Option σ) : Lts σ α where
  start := start
  step s a t := next s a = some t

/-- The system of a total step function with outputs.  A label is an input
together with what the step emitted on it. -/
def ofTotal (start : σ → Prop) (next : σ → α → σ × β) : Lts σ (α × β) where
  start := start
  step s a t := next s a.1 = (t, a.2)

/-- The system of a guarded step function with outputs. -/
def ofGuarded (start : σ → Prop) (next : σ → α → Option (σ × β)) : Lts σ (α × β) where
  start := start
  step s a t := next s a.1 = some (t, a.2)

/-- `Run s as t`: performing the labels `as` in order leads from `s` to `t`. -/
inductive Run (M : Lts σ α) : σ → List α → σ → Prop
  | nil (s : σ) : Run M s [] s
  | cons {s t u : σ} {a : α} {as : List α} :
      M.step s a t → Run M t as u → Run M s (a :: as) u

/-- The states some run from a start state ends in. -/
def Reachable (M : Lts σ α) (s : σ) : Prop :=
  ∃ s₀ as, M.start s₀ ∧ M.Run s₀ as s

/-- The part of a system in which every step meets a condition on the state it
leaves and its label. -/
def restrict (M : Lts σ α) (P : σ → α → Prop) : Lts σ α where
  start := M.start
  step s a t := M.step s a t ∧ P s a

/-- `Visits s as t u`: performing `as` leads from `s` to `t` by way of `u`. -/
def Visits (M : Lts σ α) (s : σ) (as : List α) (t u : σ) : Prop :=
  ∃ before after, as = before ++ after ∧ M.Run s before u ∧ M.Run u after t

/-- Performs inputs in order, collecting the labels. -/
def play (next : σ → α → σ × β) : σ → List α → σ × List (α × β)
  | s, [] => (s, [])
  | s, a :: as =>
      ((play next (next s a).1 as).1, (a, (next s a).2) :: (play next (next s a).1 as).2)

/-- Performs labels in order; `none` when one of them is not enabled. -/
def exec (next : σ → α → Option σ) : σ → List α → Option σ
  | s, [] => some s
  | s, a :: as => (next s a).bind fun t => exec next t as

/-- Performs inputs in order, collecting the labels; `none` when one of them is not
enabled. -/
def trace (next : σ → α → Option (σ × β)) : σ → List α → Option (σ × List (α × β))
  | s, [] => some (s, [])
  | s, a :: as =>
      (next s a).bind fun r => (trace next r.1 as).map fun u => (u.1, (a, r.2) :: u.2)

variable {M : Lts σ α} {N : Lts τ β}

theorem run_of_exec {start : σ → Prop} {next : σ → α → Option σ} {s t : σ}
    {as : List α} (h : exec next s as = some t) : (ofPartial start next).Run s as t := by
  induction as generalizing s with
  | nil =>
      simp only [exec, Option.some.injEq] at h
      subst h
      exact .nil s
  | cons a as ih =>
      simp only [exec, Option.bind_eq_some_iff] at h
      obtain ⟨u, hu, hrest⟩ := h
      exact .cons hu (ih hrest)

theorem reachable_of_exec {start : σ → Prop} {next : σ → α → Option σ} {s t : σ}
    {as : List α} (hs : start s) (h : exec next s as = some t) :
    (ofPartial start next).Reachable t :=
  ⟨s, as, hs, run_of_exec h⟩

theorem run_of_play (start : σ → Prop) (next : σ → α → σ × β) (s : σ) (as : List α) :
    (ofTotal start next).Run s (play next s as).2 (play next s as).1 := by
  induction as generalizing s with
  | nil => exact .nil s
  | cons a as ih => exact .cons rfl (ih _)

theorem reachable_of_play {start : σ → Prop} {next : σ → α → σ × β} {s : σ}
    (hs : start s) (as : List α) : (ofTotal start next).Reachable (play next s as).1 :=
  ⟨s, _, hs, run_of_play start next s as⟩

theorem run_of_trace {start : σ → Prop} {next : σ → α → Option (σ × β)} {s t : σ}
    {as : List α} {labels : List (α × β)} (h : trace next s as = some (t, labels)) :
    (ofGuarded start next).Run s labels t := by
  induction as generalizing s labels with
  | nil =>
      simp only [trace, Option.some.injEq, Prod.mk.injEq] at h
      obtain ⟨rfl, rfl⟩ := h
      exact .nil s
  | cons a as ih =>
      simp only [trace, Option.bind_eq_some_iff, Option.map_eq_some_iff] at h
      obtain ⟨r, hr, u, hu, heq⟩ := h
      simp only [Prod.mk.injEq] at heq
      obtain ⟨rfl, rfl⟩ := heq
      exact .cons hr (ih hu)

theorem trace_inputs {next : σ → α → Option (σ × β)} {s t : σ} {as : List α}
    {labels : List (α × β)} (h : trace next s as = some (t, labels)) :
    labels.map Prod.fst = as := by
  induction as generalizing s labels with
  | nil =>
      simp only [trace, Option.some.injEq, Prod.mk.injEq] at h
      rw [← h.2, List.map_nil]
  | cons a as ih =>
      simp only [trace, Option.bind_eq_some_iff, Option.map_eq_some_iff] at h
      obtain ⟨r, -, u, hu, heq⟩ := h
      simp only [Prod.mk.injEq] at heq
      obtain ⟨rfl, rfl⟩ := heq
      rw [List.map_cons, ih hu]

namespace Run

theorem single {s t : σ} {a : α} (h : M.step s a t) : M.Run s [a] t :=
  .cons h (.nil t)

theorem append {s t u : σ} {as bs : List α}
    (h : M.Run s as t) (h' : M.Run t bs u) : M.Run s (as ++ bs) u := by
  induction h with
  | nil => exact h'
  | cons hstep _ ih => exact .cons hstep (ih h')

theorem snoc {s t u : σ} {as : List α} {a : α}
    (h : M.Run s as t) (hstep : M.step t a u) : M.Run s (as ++ [a]) u :=
  h.append (single hstep)

/-- A run over a concatenation passes through a state in the middle. -/
theorem split {s u : σ} {as bs : List α} (h : M.Run s (as ++ bs) u) :
    ∃ t, M.Run s as t ∧ M.Run t bs u := by
  induction as generalizing s with
  | nil => exact ⟨s, .nil s, h⟩
  | cons a as ih =>
      cases h with
      | cons hstep hrest =>
          obtain ⟨t, hleft, hright⟩ := ih hrest
          exact ⟨t, .cons hstep hleft, hright⟩

/-- What every step with an allowed label preserves holds at the end of a run
all of whose labels are allowed. -/
theorem invariant_of_labels {P : α → Prop} {I : σ → Prop} {s t : σ}
    {as : List α} (h : M.Run s as t) (hlabels : ∀ a ∈ as, P a) (hs : I s)
    (hstep : ∀ s a t, P a → I s → M.step s a t → I t) : I t := by
  induction h with
  | nil => exact hs
  | cons hst _ ih =>
      refine ih (fun a ha => hlabels a (by simp [ha])) ?_
      exact hstep _ _ _ (hlabels _ (by simp)) hs hst

theorem invariant {I : σ → Prop} {s t : σ} {as : List α}
    (h : M.Run s as t) (hs : I s)
    (hstep : ∀ s a t, I s → M.step s a t → I t) : I t :=
  h.invariant_of_labels (P := fun _ => True) (by simp) hs
    fun s a t _ => hstep s a t

/-- What every step out of an `I`-state says of its label, a run says of all of its
labels. -/
theorem labels {I : σ → Prop} {Q : α → Prop} {s t : σ} {as : List α}
    (h : M.Run s as t) (hs : I s)
    (hstep : ∀ s a t, I s → M.step s a t → I t ∧ Q a) : I t ∧ ∀ a ∈ as, Q a := by
  induction h with
  | nil => exact ⟨hs, by simp⟩
  | cons hst _ ih =>
      obtain ⟨hI, hQ⟩ := hstep _ _ _ hs hst
      obtain ⟨hlast, hrest⟩ := ih hI
      refine ⟨hlast, ?_⟩
      intro a ha
      rcases List.mem_cons.mp ha with rfl | ha
      · exact hQ
      · exact hrest a ha

/-- Where every step says of its label that one condition holds of it exactly when the
other holds of the step, a run whose labels all meet the first is a run all of whose
steps meet the second. -/
theorem forall_labels_iff_restrict {I : σ → Prop} {Q : α → Prop} {P : σ → α → Prop}
    {s t : σ} {as : List α} (h : M.Run s as t) (hs : I s)
    (hdet : ∀ s a t t', M.step s a t → M.step s a t' → t = t')
    (hstep : ∀ s a t, I s → M.step s a t → I t ∧ (Q a ↔ P s a)) :
    (∀ a ∈ as, Q a) ↔ (M.restrict P).Run s as t := by
  induction h with
  | nil s => exact iff_of_true (by simp) (.nil s)
  | cons hst _ ih =>
      obtain ⟨hI, hiff⟩ := hstep _ _ _ hs hst
      rw [List.forall_mem_cons, hiff, ih hI]
      constructor
      · rintro ⟨hP, hrest⟩
        exact .cons ⟨hst, hP⟩ hrest
      · intro hrun
        cases hrun with
        | cons hfirst hrest =>
            obtain rfl := hdet _ _ _ _ hst hfirst.1
            exact ⟨hfirst.2, hrest⟩

/-- Where a step out of a good state leads to a good state exactly when a condition holds
of the step, the runs that visit good states only are the runs all of whose steps meet
the condition. -/
theorem forall_visits_iff_restrict {I Q : σ → Prop} {P : σ → α → Prop}
    {s t : σ} {as : List α} (h : M.Run s as t) (hs : I s) (hQ : Q s)
    (hdet : ∀ s a t t', M.step s a t → M.step s a t' → t = t')
    (hstep : ∀ s a t, I s → Q s → M.step s a t → I t ∧ (Q t ↔ P s a)) :
    (∀ u, M.Visits s as t u → Q u) ↔ (M.restrict P).Run s as t := by
  induction h with
  | nil s =>
      refine iff_of_true ?_ (.nil s)
      rintro u ⟨before, after, heq, hbefore, -⟩
      obtain ⟨rfl, rfl⟩ := List.append_eq_nil_iff.mp heq.symm
      cases hbefore
      exact hQ
  | @cons s v t a as hst hrest ih =>
      obtain ⟨hI, hiff⟩ := hstep _ _ _ hs hQ hst
      constructor
      · intro hall
        have hv : Q v := hall v ⟨[a], as, rfl, single hst, hrest⟩
        refine .cons ⟨hst, hiff.mp hv⟩ ((ih hI hv).mp ?_)
        rintro u ⟨before, after, rfl, hbefore, hafter⟩
        exact hall u ⟨a :: before, after, rfl, .cons hst hbefore, hafter⟩
      · intro hrun
        cases hrun with
        | cons hfirst htail =>
            obtain rfl := hdet _ _ _ _ hst hfirst.1
            have hv : Q _ := hiff.mpr hfirst.2
            rintro u ⟨before, after, heq, hbefore, hafter⟩
            cases hbefore with
            | nil => exact hQ
            | cons hfirst' hbefore =>
                obtain ⟨rfl, rfl⟩ := List.cons.inj heq
                obtain rfl := hdet _ _ _ _ hst hfirst'
                exact (ih hI hv).mpr htail u ⟨_, after, rfl, hbefore, hafter⟩

/-- What every step preserves of a state together with the labels that led to it
holds at the end of a run. -/
theorem history {I : List α → σ → Prop} {s t : σ} {as : List α} (h : M.Run s as t)
    (hs : I [] s) (hstep : ∀ as s a t, I as s → M.step s a t → I (as ++ [a]) t) :
    I as t := by
  have hgeneral : ∀ before, I before s → I (before ++ as) t := by
    clear hs
    induction h with
    | nil => simp
    | cons hst _ ih =>
        intro before hbefore
        rw [List.append_cons]
        exact ih _ (hstep _ _ _ _ hbefore hst)
  simpa using hgeneral [] hs

/-- Two runs whose labels correspond one by one keep a relation that every
pair of corresponding steps keeps, and what such a pair says of its labels holds
of the labels one by one. -/
theorem lockstep {R : σ → τ → Prop} {S Q : α → β → Prop}
    {s s' : σ} {t t' : τ} {as : List α} {bs : List β}
    (h : M.Run s as s') (h' : N.Run t bs t') (hlabels : List.Forall₂ S as bs)
    (hst : R s t)
    (hstep : ∀ s t a b s₁ t₁, R s t → S a b → M.step s a s₁ → N.step t b t₁ →
      R s₁ t₁ ∧ Q a b) : R s' t' ∧ List.Forall₂ Q as bs := by
  induction h generalizing t bs with
  | nil =>
      cases hlabels
      cases h'
      exact ⟨hst, .nil⟩
  | cons hs _ ih =>
      cases hlabels with
      | cons hab hrest =>
          cases h' with
          | cons ht htail =>
              obtain ⟨hR, hQ⟩ := hstep _ _ _ _ _ _ hst hab hs ht
              obtain ⟨hR', hQ'⟩ := ih htail hrest hR
              exact ⟨hR', .cons hQ hQ'⟩

/-- A run of a restricted system is a run of the system. -/
theorem of_restrict {P : σ → α → Prop} {s t : σ} {as : List α}
    (h : (M.restrict P).Run s as t) : M.Run s as t := by
  induction h with
  | nil => exact .nil _
  | cons hstep _ ih => exact .cons hstep.1 ih

/-- A run all of whose labels meet the condition in any state is one of the restricted
system. -/
theorem restrict {P : σ → α → Prop} {s t : σ} {as : List α} (h : M.Run s as t)
    (hP : ∀ a ∈ as, ∀ s, P s a) : (M.restrict P).Run s as t := by
  induction h with
  | nil => exact .nil _
  | cons hstep _ ih =>
      exact .cons ⟨hstep, hP _ (by simp) _⟩ (ih fun a ha => hP a (by simp [ha]))

end Run

namespace Reachable

theorem of_start {s : σ} (h : M.start s) : M.Reachable s :=
  ⟨s, [], h, .nil s⟩

theorem step {s t : σ} {a : α} (h : M.Reachable s) (hstep : M.step s a t) :
    M.Reachable t := by
  obtain ⟨s₀, as, hs₀, hrun⟩ := h
  exact ⟨s₀, as ++ [a], hs₀, hrun.snoc hstep⟩

theorem run {s t : σ} {as : List α} (h : M.Reachable s)
    (hrun : M.Run s as t) : M.Reachable t :=
  hrun.invariant h fun _ _ _ hs hst => hs.step hst

/-- The invariant rule: what holds of the start states and is preserved by
every step out of a reachable state holds of every reachable state. -/
theorem invariant {I : σ → Prop} {s : σ} (h : M.Reachable s)
    (hstart : ∀ s, M.start s → I s)
    (hstep : ∀ s a t, M.Reachable s → I s → M.step s a t → I t) : I s := by
  obtain ⟨s₀, as, hs₀, hrun⟩ := h
  have hboth : M.Reachable s ∧ I s :=
    hrun.invariant (I := fun s => M.Reachable s ∧ I s)
      ⟨.of_start hs₀, hstart s₀ hs₀⟩
      fun s a t hs hst => ⟨hs.1.step hst, hstep s a t hs.1 hs.2 hst⟩
  exact hboth.2

end Reachable

end Lts
