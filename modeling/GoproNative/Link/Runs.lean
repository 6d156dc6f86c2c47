import GoproNative.Link.Machine
import GoproNative.Support.Transition
import Mathlib.Data.List.DropRight

/-!
# Runs of the link machine

An owner updates the machine with observations, tells it of failed attempts and resets
it, in any order.  What a run has been told is kept here as the list of these calls; the
machine itself keeps three numbers of it.
-/

namespace GoproNative

/-- The calls of a machine's owner. -/
inductive LinkOp
  | update (obs : LinkObservation) (nowMs : UInt64)
  | noteAttemptFailed (nowMs : UInt64)
  | reset
  deriving DecidableEq

namespace LinkOp

def time? : LinkOp → Option UInt64
  | update _ nowMs => some nowMs
  | noteAttemptFailed nowMs => some nowMs
  | reset => none

/-- The time of an update. -/
def updated? : LinkOp → Option UInt64
  | update _ nowMs => some nowMs
  | _ => none

/-- The call leaves a machine where it is that is in `state`. -/
def keeps (state : LinkState) : LinkOp → Bool
  | update obs _ => LinkMachine.classify obs = state
  | noteAttemptFailed _ => true
  | reset => false

end LinkOp

/-- The times of calls. -/
def times (ops : List LinkOp) : List UInt64 := ops.filterMap LinkOp.time?

namespace LinkMachine

def next (m : LinkMachine) : LinkOp → LinkMachine × Option LinkAdvice
  | .update obs nowMs => ((m.update obs nowMs).2, some (m.update obs nowMs).1)
  | .noteAttemptFailed nowMs => (m.noteAttemptFailed nowMs, none)
  | .reset => (m.reset, none)

/-- All runs of a machine, from any configuration. -/
def lts : Lts LinkMachine (LinkOp × Option LinkAdvice) :=
  .ofTotal (fun m => ∃ cfg, m = { cfg := cfg }) next

@[simp] theorem enter_cfg (m : LinkMachine) (obs : LinkObservation) (nowMs : UInt64) :
    (m.enter obs nowMs).cfg = m.cfg := by
  unfold enter
  simp only
  split <;> split <;> rfl

/-- What every call preserves of a machine together with the calls made so far. -/
theorem history {I : List LinkOp → LinkMachine → Prop} {cfg : LinkConfig}
    {m : LinkMachine} {labels : List (LinkOp × Option LinkAdvice)}
    (h : lts.Run { cfg := cfg } labels m) (hnew : I [] { cfg := cfg })
    (hnext : ∀ ops m op, I ops m → I (ops ++ [op]) (m.next op).1) :
    I (labels.map Prod.fst) m := by
  refine h.history (I := fun labels m => I (labels.map Prod.fst) m) hnew ?_
  intro labels m label m' hI hstep
  have hm' : (m.next label.1).1 = m' := congrArg Prod.fst hstep
  rw [List.map_append, List.map_singleton, ← hm']
  exact hnext _ m label.1 hI

theorem run_cfg {cfg : LinkConfig} {m : LinkMachine}
    {labels : List (LinkOp × Option LinkAdvice)} (h : lts.Run { cfg := cfg } labels m) :
    m.cfg = cfg := by
  refine history (I := fun _ m => m.cfg = cfg) h rfl ?_
  intro _ m op hm
  cases op with
  | update obs nowMs => exact (m.enter_cfg obs nowMs).trans hm
  | noteAttemptFailed nowMs => exact hm
  | reset => exact hm

/-- The two ways `update` moves the machine: a change of stage, and none. -/
theorem enter_cases (m : LinkMachine) (obs : LinkObservation) (nowMs : UInt64) :
    (classify obs = m.state ∧ (m.enter obs nowMs).stateSinceMs = m.stateSinceMs ∧
      (m.enter obs nowMs).attempts = m.attempts ∧
      (m.enter obs nowMs).lastFailureMs = m.lastFailureMs) ∨
    (classify obs ≠ m.state ∧ (m.enter obs nowMs).stateSinceMs = nowMs ∧
      (m.enter obs nowMs).attempts = 0 ∧ (m.enter obs nowMs).lastFailureMs = 0) := by
  unfold enter
  by_cases hsame : classify obs = m.state
  · left
    simp only [hsame, ne_eq, not_true_eq_false, if_false, true_and]
    split <;> exact ⟨rfl, rfl, rfl⟩
  · right
    simp only [ne_eq, hsame, not_false_eq_true, if_true, true_and]
    split <;> exact ⟨rfl, rfl, rfl⟩

end LinkMachine

end GoproNative
