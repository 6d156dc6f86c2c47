import Mathlib.Data.List.Infix

/-!
# Replacing a word

`replaceAll s p` replaces a word by another, at its occurrences from the left that do not
overlap.  What it returns may hold the word again: inside of what was put in, or across one
of its ends.  This module says exactly for which pairs of words that can happen.
-/

namespace List

/-! ## The first occurrence -/

section

variable {α : Type*} {s p u rest : List α} {a : α}

/-- In `u ++ s` the word does not occur before the end. -/
def Fresh (s u : List α) : Prop := ∀ t, t ≠ [] → t <:+ u → ¬s <+: t ++ s

instance [DecidableEq α] (s u : List α) : Decidable (Fresh s u) :=
  decidable_of_iff (∀ t ∈ u.tails, t ≠ [] → ¬s <+: t ++ s) <| by
    simp only [mem_tails, Fresh]
    exact forall_congr' fun t => ⟨fun h hne ht => h ht hne, fun h ht hne => h hne ht⟩

theorem fresh_nil : Fresh s [] := by
  intro t hne ht
  exact absurd (suffix_nil.mp ht) hne

theorem Fresh.cons (h : Fresh s u) (hs : s ≠ []) (ha : s.head? ≠ some a) :
    Fresh s (a :: u) := by
  intro t hne ht
  rcases suffix_cons_iff.mp ht with rfl | ht
  · rintro ⟨rest, hrest⟩
    rcases s with _ | ⟨b, s⟩
    · exact hs rfl
    · obtain ⟨rfl, -⟩ := cons.inj hrest
      exact ha rfl
  · exact h t hne ht

/-- What comes behind the occurrence makes none before it. -/
theorem Fresh.append (h : Fresh s u) (rest : List α) {t : List α} (hne : t ≠ [])
    (ht : t <:+ u) : ¬s <+: t ++ (s ++ rest) := by
  intro hocc
  refine h t hne ht (prefix_of_prefix_length_le hocc ?_ ?_)
  · rw [← append_assoc]
    exact prefix_append _ _
  · rw [length_append]
    omega

theorem Fresh.not_infix (h : Fresh s u) (hs : s ≠ []) : ¬s <:+: u := by
  rintro ⟨a, b, rfl⟩
  refine h (s ++ b) (by simp [hs]) ?_ ?_
  · rw [append_assoc]
    exact suffix_append _ _
  · rw [append_assoc]
    exact prefix_append _ _

/-- A list with an occurrence has a first one. -/
theorem exists_fresh {l : List α} (h : s <:+: l) :
    ∃ u rest, l = u ++ (s ++ rest) ∧ Fresh s u := by
  induction l with
  | nil =>
      obtain rfl := infix_nil.mp h
      exact ⟨[], [], rfl, fresh_nil⟩
  | cons a l ih =>
      by_cases hfront : s <+: a :: l
      · obtain ⟨rest, hrest⟩ := hfront
        exact ⟨[], rest, hrest.symm, fresh_nil⟩
      · obtain ⟨u, rest, rfl, hfresh⟩ := ih ((infix_cons_iff.mp h).resolve_left hfront)
        refine ⟨a :: u, rest, rfl, ?_⟩
        intro t hne ht
        rcases suffix_cons_iff.mp ht with rfl | ht
        · intro hocc
          apply hfront
          have hlong := hocc.trans (prefix_append _ rest)
          rwa [append_assoc, cons_append] at hlong
        · exact hfresh t hne ht

/-! ## Words that do not come back -/

/-- Putting `p` in the place of `s` makes no `s`: `s` is not a part of `p`; it does not
begin with an end of `p`; and where it ends with a beginning of `p`, or goes on beyond `p`,
what stands before that makes an occurrence with `s` that is to be replaced first. -/
structure Yields (s p : List α) : Prop where
  inside : ¬s <:+: p
  behind : ∀ q, q ≠ [] → q <:+ p → ¬q <+: s
  before : ∀ v r, s = v ++ r → v ≠ [] → r ≠ [] → (r <+: p ∨ p <+: r) → ¬Fresh s v

instance [DecidableEq α] (s p : List α) : Decidable (Yields s p) :=
  decidable_of_iff ((¬s <:+: p ∧ ∀ q ∈ p.tails, q ≠ [] → ¬q <+: s) ∧
    ∀ v ∈ s.inits, v ≠ [] → s.drop v.length ≠ [] →
      (s.drop v.length <+: p ∨ p <+: s.drop v.length) → ¬Fresh s v) <| by
    simp only [mem_tails, mem_inits]
    constructor
    · rintro ⟨⟨hinside, hbehind⟩, hbefore⟩
      refine ⟨hinside, fun q hne hq => hbehind q hq hne, ?_⟩
      rintro v r rfl hv hr hp
      refine hbefore v (prefix_append v r) hv ?_ ?_
      · rwa [drop_left]
      · rwa [drop_left]
    · rintro ⟨hinside, hbehind, hbefore⟩
      refine ⟨⟨hinside, fun q hq hne => hbehind q hne hq⟩, ?_⟩
      intro v hv hne hr hp
      exact hbefore v _ (prefix_append_drop hv) hne hr hp

/-- Where it does not, an occurrence comes back behind letters that make none, and before
fewer letters than it has. -/
theorem yields_of_forall (hs : s ≠ [])
    (h : ∀ u w, Fresh s u → w.length < s.length → ¬s <:+: u ++ (p ++ w)) : Yields s p := by
  have hpos := length_pos_iff.mpr hs
  refine ⟨?_, ?_, ?_⟩
  · intro hinside
    apply h [] [] fresh_nil hpos
    rwa [append_nil, nil_append]
  · rintro q hne ⟨o, rfl⟩ ⟨w, rfl⟩
    have hqpos := length_pos_iff.mpr hne
    refine h [] w fresh_nil ?_ ?_
    · rw [length_append]
      omega
    · rw [nil_append, append_assoc]
      exact (suffix_append _ _).isInfix
  · rintro v r rfl hv hr (⟨w, rfl⟩ | ⟨w, rfl⟩) hfresh
    · apply h v [] hfresh hpos
      rw [append_nil, ← append_assoc]
      exact (prefix_append _ _).isInfix
    · have hvpos := length_pos_iff.mpr hv
      refine h v w hfresh ?_ (infix_refl _)
      rw [length_append, length_append]
      omega

end

/-! ## Replacing -/

variable {α : Type*} [DecidableEq α] {s p l u rest : List α} {a c d : α}

/-- Replaces the word behind the letters that still belong to the last occurrence. -/
def replaceFrom (s p : List α) : Nat → List α → List α
  | _, [] => []
  | skip + 1, _ :: l => replaceFrom s p skip l
  | 0, a :: l =>
      if s <+: a :: l then p ++ replaceFrom s p (s.length - 1) l
      else a :: replaceFrom s p 0 l

/-- Replaces the occurrences of `s` by `p`. -/
def replaceAll (s p l : List α) : List α := replaceFrom s p 0 l

theorem replaceFrom_eq (s p : List α) (skip : Nat) (l : List α) :
    replaceFrom s p skip l = replaceAll s p (l.drop skip) := by
  induction l generalizing skip with
  | nil =>
      rw [drop_nil]
      rcases skip with _ | skip
      · rfl
      · rfl
  | cons a l ih =>
      rcases skip with _ | skip
      · rfl
      · rw [replaceFrom, ih, drop_succ_cons]

theorem replaceAll_cons_of_not (h : ¬s <+: a :: l) :
    replaceAll s p (a :: l) = a :: replaceAll s p l := by
  rw [replaceAll, replaceFrom, if_neg h, replaceAll]

/-- An occurrence at the front. -/
theorem replaceAll_append (hs : s ≠ []) (rest : List α) :
    replaceAll s p (s ++ rest) = p ++ replaceAll s p rest := by
  rcases s with _ | ⟨a, s⟩
  · exact absurd rfl hs
  · have hfront : a :: s <+: a :: (s ++ rest) := ⟨rest, rfl⟩
    rw [cons_append, replaceAll, replaceFrom, if_pos hfront, replaceFrom_eq, length_cons,
      Nat.add_sub_cancel, drop_left]

/-- Letters at which no occurrence begins stay. -/
theorem replaceAll_append_of_not (h : ∀ t, t ≠ [] → t <:+ u → ¬s <+: t ++ l) :
    replaceAll s p (u ++ l) = u ++ replaceAll s p l := by
  induction u with
  | nil => rfl
  | cons a u ih =>
      have hfirst : ¬s <+: a :: (u ++ l) := h (a :: u) (by simp) (suffix_refl _)
      rw [cons_append, replaceAll_cons_of_not hfirst, cons_append,
        ih fun t hne ht => h t hne (ht.trans (suffix_cons a u))]

theorem replaceAll_of_absent (h : ¬s <:+: l) : replaceAll s p l = l := by
  have hkeeps : replaceAll s p (l ++ []) = l ++ replaceAll s p [] := by
    apply replaceAll_append_of_not
    intro t hne ht hocc
    rw [append_nil] at hocc
    exact h (hocc.isInfix.trans ht.isInfix)
  rwa [append_nil, replaceAll, replaceAll, replaceFrom, append_nil] at hkeeps

/-- The first occurrence is replaced, and then what is behind it. -/
theorem replaceAll_of_fresh (hs : s ≠ []) (h : Fresh s u) (rest : List α) :
    replaceAll s p (u ++ (s ++ rest)) = u ++ (p ++ replaceAll s p rest) := by
  rw [replaceAll_append_of_not fun t hne ht => h.append rest hne ht, replaceAll_append hs]

/-! ## Whether the word comes back -/

/-- The word does not come back, ... -/
theorem Yields.not_infix (h : Yields s p) (hs : s ≠ []) (l : List α) :
    ¬s <:+: replaceAll s p l := by
  induction hlength : l.length using Nat.strong_induction_on generalizing l with
  | _ n ih =>
      by_cases hocc : s <:+: l
      · obtain ⟨u, rest, rfl, hfresh⟩ := exists_fresh hocc
        have hrest : ¬s <:+: replaceAll s p rest := by
          have hpos := length_pos_iff.mpr hs
          refine ih rest.length ?_ rest rfl
          rw [← hlength, length_append, length_append]
          omega
        rw [replaceAll_of_fresh hs hfresh, infix_append_iff_ne_nil]
        rintro (hleft | hright | ⟨v, r, hv, hr, heq, hvu, hrp⟩)
        · exact hfresh.not_infix hs hleft
        · rcases infix_append_iff_ne_nil.mp hright with hin | hlater | ⟨q, w, hq, -, rfl, hqp, -⟩
          · exact h.inside hin
          · exact hrest hlater
          · exact h.behind q hq hqp (prefix_append q w)
        · -- what stands before `p` is fresh, as an end of what is
          have hmeet := prefix_or_prefix_of_prefix hrp (prefix_append _ _)
          refine h.before v r heq hv hr hmeet ?_
          exact fun t hne ht => hfresh t hne (ht.trans hvu)
      · rw [replaceAll_of_absent hocc]
        exact hocc

/-- ... or else it does in some list between two given letters, neither of them the one at
which it would begin or end. -/
theorem exists_of_not_yields (hs : s ≠ []) (h : ¬Yields s p) (hc : s.head? ≠ some c)
    (hd : s.getLast? ≠ some d) : ∃ l, s <:+: replaceAll s p (c :: (l ++ [d])) := by
  by_contra hnone
  rw [not_exists] at hnone
  refine h (yields_of_forall hs ?_)
  intro u w hfresh hshort hback
  refine hnone (u ++ (s ++ w)) ?_
  have hrest : ¬s <:+: w ++ [d] := by
    intro hocc
    have hlength := hocc.length_le
    rw [length_append, length_singleton] at hlength
    have hall : s = w ++ [d] := hocc.eq_of_length (by
      rw [length_append, length_singleton]
      omega)
    rw [hall] at hd
    simp at hd
  have hsplit : c :: (u ++ (s ++ w) ++ [d]) = (c :: u) ++ (s ++ (w ++ [d])) := by simp
  rw [hsplit, replaceAll_of_fresh hs (hfresh.cons hs hc), replaceAll_of_absent hrest]
  have hlarger : (c :: u) ++ (p ++ (w ++ [d])) = [c] ++ (u ++ (p ++ w)) ++ [d] := by simp
  rw [hlarger]
  exact hback.trans (infix_append _ _ _)

end List
