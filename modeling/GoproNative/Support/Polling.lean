import GoproNative.Support.Transition
import Mathlib.Algebra.Order.Ring.Int
import Mathlib.Tactic.Linarith

/-!
# Waiting by polling

A wait asks, judges the answer, and rests, over and over, until an answer decides it or
a reading of the clock behind a rest is too late.  The clock may be set back.  Where it is
not, and no rest is shorter than the pause, the timeout says how often a wait asks.

Nothing here mentions a particular program.
-/

/-- A wait for an answer that decides. -/
structure Poll (α ρ : Type*) where
  /-- What an answer makes of the wait; `none` if it goes on. -/
  judge : α → Option ρ
  /-- What comes of a wait that took too long. -/
  expired : ρ
  timeout : Int

namespace Poll

variable {α ρ : Type*}

/-- Where a wait stands. -/
inductive Stage (ρ : Type*)
  | asking
  | resting
  | over (r : ρ)
  deriving DecidableEq

/-- An answer or the end of a rest, at a reading of the clock. -/
inductive Event (α : Type*)
  | answered (a : α) (now : Int)
  | woke (now : Int)

def Event.now : Event α → Int
  | answered _ now => now
  | woke now => now

def Event.answer : Event α → Option α
  | answered a _ => some a
  | woke _ => none

/-- How the loop begins a round. -/
def check (p : Poll α ρ) (start now : Int) : Stage ρ :=
  if now - start < p.timeout then .asking else .over p.expired

/-- How a round goes on behind an answer. -/
def heed (p : Poll α ρ) (a : α) : Stage ρ :=
  match p.judge a with
  | some r => .over r
  | none => .resting

def next (p : Poll α ρ) (start : Int) : Stage ρ → Event α → Option (Stage ρ)
  | .asking, .answered a _ => some (p.heed a)
  | .resting, .woke now => some (p.check start now)
  | _, _ => none

/-- A wait that began at a reading of the clock. -/
def lts (p : Poll α ρ) (start : Int) : Lts (Stage ρ) (Event α) :=
  .ofPartial (fun s => ∃ now, s = p.check start now) (p.next start)

/-- The answers, in order. -/
def answers (as : List (Event α)) : List α := as.filterMap Event.answer

/-- How often a wait has asked: the last question may be open. -/
def asked (as : List (Event α)) : Stage ρ → Nat
  | .asking => (answers as).length + 1
  | _ => (answers as).length

/-- The last reading of the clock. -/
def clock : Int → List (Event α) → Int
  | t, [] => t
  | _, e :: as => clock e.now as

/-- From a reading of the clock on, it is not set back, and no rest is shorter than the
pause. -/
def Paced (pause : Int) : Int → List (Event α) → Prop
  | _, [] => True
  | t, .answered _ now :: as => t ≤ now ∧ Paced pause now as
  | t, .woke now :: as => t + pause ≤ now ∧ Paced pause now as

variable {p : Poll α ρ} {start pause t : Int} {s s' : Stage ρ} {a : α} {r : ρ}
  {as : List (Event α)}

theorem next_cases {e : Event α} (h : p.next start s e = some s') :
    (∃ a now, s = .asking ∧ e = .answered a now ∧ s' = p.heed a) ∨
      ∃ now, s = .resting ∧ e = .woke now ∧ s' = p.check start now := by
  rcases s with _ | _ | r
  · rcases e with ⟨a, now⟩ | now
    · exact Or.inl ⟨a, now, rfl, rfl, (Option.some.inj h).symm⟩
    · simp [next] at h
  · rcases e with ⟨a, now⟩ | now
    · simp [next] at h
    · exact Or.inr ⟨now, rfl, rfl, (Option.some.inj h).symm⟩
  · rcases e with ⟨a, now⟩ | now <;> simp [next] at h

theorem check_cases (p : Poll α ρ) (start now : Int) :
    (p.check start now = .asking ∧ now - start < p.timeout) ∨
      (p.check start now = .over p.expired ∧ p.timeout ≤ now - start) := by
  rw [check]
  split
  · next h => exact Or.inl ⟨rfl, h⟩
  · next h => exact Or.inr ⟨rfl, not_lt.mp h⟩

theorem heed_cases (p : Poll α ρ) (a : α) :
    (p.heed a = .resting ∧ p.judge a = none) ∨
      ∃ r, p.heed a = .over r ∧ p.judge a = some r := by
  rw [heed]
  split
  · next r h => exact Or.inr ⟨r, rfl, h⟩
  · next h => exact Or.inl ⟨rfl, h⟩

theorem answers_snoc (as : List (Event α)) (e : Event α) :
    answers (as ++ [e]) = answers as ++ e.answer.toList := by
  rw [answers, List.filterMap_append]
  rcases e with ⟨a, now⟩ | now <;> rfl

theorem clock_snoc (t : Int) (as : List (Event α)) (e : Event α) :
    clock t (as ++ [e]) = e.now := by
  induction as generalizing t with
  | nil => rfl
  | cons _ _ ih => exact ih _

theorem Paced.left {bs : List (Event α)} (h : Paced pause t (as ++ bs)) : Paced pause t as := by
  induction as generalizing t with
  | nil => trivial
  | cons e as ih =>
      rcases e with ⟨a, now⟩ | now
      · exact ⟨h.1, ih h.2⟩
      · exact ⟨h.1, ih h.2⟩

/-! ## What decides -/

/-- No answer but the last has decided, and a wait that is over was decided by the last or
is too late. -/
def Decided (p : Poll α ρ) (start t : Int) (as : List (Event α)) : Stage ρ → Prop
  | .over r =>
      (∃ before a now, as = before ++ [.answered a now] ∧ p.judge a = some r ∧
        ∀ b ∈ answers before, p.judge b = none) ∨
      (r = p.expired ∧ (∀ b ∈ answers as, p.judge b = none) ∧
        p.timeout ≤ clock t as - start)
  | _ => ∀ b ∈ answers as, p.judge b = none

theorem decided_check (hnone : ∀ b ∈ answers as, p.judge b = none) :
    p.Decided start t as (p.check start (clock t as)) := by
  rcases p.check_cases start (clock t as) with ⟨heq, -⟩ | ⟨heq, hlate⟩
  · rw [heq]
    exact hnone
  · rw [heq]
    exact Or.inr ⟨rfl, hnone, hlate⟩

theorem Decided.step {e : Event α} (h : p.Decided start t as s)
    (hstep : p.next start s e = some s') : p.Decided start t (as ++ [e]) s' := by
  rcases next_cases hstep with ⟨a, now, rfl, rfl, rfl⟩ | ⟨now, rfl, rfl, rfl⟩
  · have hbefore : ∀ b ∈ answers as, p.judge b = none := h
    rcases p.heed_cases a with ⟨heq, hnone⟩ | ⟨r, heq, hr⟩
    · rw [heq]
      intro b hb
      rw [answers_snoc, List.mem_append] at hb
      rcases hb with hb | hb
      · exact hbefore b hb
      · obtain rfl := List.mem_singleton.mp hb
        exact hnone
    · rw [heq]
      exact Or.inl ⟨as, a, now, rfl, hr, hbefore⟩
  · have hnone : ∀ b ∈ answers (as ++ [.woke now]), p.judge b = none := by
      have hbefore : ∀ b ∈ answers as, p.judge b = none := h
      rw [answers_snoc]
      simpa [Event.answer] using hbefore
    have hdecided : p.Decided start t (as ++ [.woke now]) _ := decided_check hnone
    rwa [clock_snoc] at hdecided

theorem asked_next {e : Event α} (h : p.next start s e = some s') :
    asked (as ++ [e]) s' = asked as s + asked ([] : List (Event α)) s' := by
  rcases next_cases h with ⟨a, now, rfl, rfl, rfl⟩ | ⟨now, rfl, rfl, rfl⟩
  · rcases p.heed_cases a with ⟨heq, -⟩ | ⟨r, heq, -⟩
    all_goals
      rw [heq]
      simp [asked, Event.answer, answers]
  · rcases p.check_cases start now with ⟨heq, -⟩ | ⟨heq, -⟩
    all_goals
      rw [heq]
      simp [asked, Event.answer, answers]

theorem asked_answered (now : Int) (as : List (Event α)) (s : Stage ρ) :
    asked (.answered a now :: as) s = asked as s + 1 := by
  cases s <;> rfl

theorem asked_woke (now : Int) (as : List (Event α)) (s : Stage ρ) :
    asked (.woke now :: as) s = asked as s := by
  cases s <;> rfl

/-- What the time that is left says of the questions that are still to come. -/
theorem asked_from (hrun : (p.lts start).Run s as s')
    (hpaced : Paced pause t as) :
    (s = .asking → t - start < p.timeout →
      ((asked as s' : Int) - 1) * pause < p.timeout - (t - start)) ∧
    (s = .resting → 0 < asked as s' →
      (asked as s' : Int) * pause < p.timeout - (t - start)) ∧
    (∀ r, s = .over r → asked as s' = 0) := by
  induction hrun generalizing t with
  | nil s =>
      refine ⟨?_, ?_, ?_⟩
      · rintro rfl hlate
        simpa [asked, answers] using hlate
      · rintro rfl hpos
        simp [asked, answers] at hpos
      · rintro r rfl
        rfl
  | @cons s u s' e as hstep _ ih =>
      rcases next_cases hstep with ⟨a, now, rfl, rfl, rfl⟩ | ⟨now, rfl, rfl, rfl⟩
      · obtain ⟨hnow, hrest⟩ := hpaced
        obtain ⟨-, hresting, hover⟩ := ih hrest
        refine ⟨fun _ hlate => ?_, nofun, nofun⟩
        rw [asked_answered]
        rcases p.heed_cases a with ⟨heq, -⟩ | ⟨r, heq, -⟩
        · rcases Nat.eq_zero_or_pos (asked as s') with hzero | hpos
          · rw [hzero]
            simpa using hlate
          · have hlt := hresting heq hpos
            push_cast
            linarith
        · rw [hover r heq]
          simpa using hlate
      · obtain ⟨hnow, hrest⟩ := hpaced
        obtain ⟨hasking, -, hover⟩ := ih hrest
        refine ⟨nofun, fun _ hpos => ?_, nofun⟩
        rw [asked_woke] at hpos ⊢
        rcases p.check_cases start now with ⟨heq, hlate⟩ | ⟨heq, -⟩
        · have hlt := hasking heq hlate
          linarith
        · rw [hover _ heq] at hpos
          exact absurd hpos (Nat.lt_irrefl 0)

/-- The pauses before the last question fit into the timeout. -/
theorem asked_lt (hstart : start ≤ t)
    (hrun : (p.lts start).Run (p.check start t) as s) (hpaced : Paced pause t as)
    (hpos : 0 < asked as s) : ((asked as s : Int) - 1) * pause < p.timeout := by
  obtain ⟨hasking, -, hover⟩ := asked_from hrun hpaced
  rcases p.check_cases start t with ⟨heq, hlate⟩ | ⟨heq, -⟩
  · have hlt := hasking heq hlate
    linarith
  · rw [hover _ heq] at hpos
    exact absurd hpos (Nat.lt_irrefl 0)

end Poll
