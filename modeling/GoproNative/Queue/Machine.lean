import GoproNative.Queue.Pump

/-!
# The queue and its re-entrant owner

A completion callback is the owner's code, and may call the queue again.  The
machine keeps the operations that are under way on a stack: `call` begins an
operation, at the top level or from inside the running callback, and `ret`
returns from the running callback.  The owner is free to choose either at every
moment, so the runs of the machine are all the runs of a `CommandQueue`.
-/

namespace GoproNative

/-- Which submission a callback belongs to: the number of operations begun
before it. -/
abbrev Ticket := Nat

/-- An operation under way: the callbacks it has yet to make after the running
one, the pump it ends in, and what it returns. -/
structure Frame where
  calls : List (Call Ticket)
  resume : Option UInt64
  result : Bool
  deriving DecidableEq

inductive LogEntry
  | called (t : Ticket) (op : QueueOp)
  | did (ev : QueueEvent Ticket)
  | returned (result : Bool)

structure Machine where
  queue : CommandQueue Ticket
  /-- The operations under way, innermost first. -/
  stack : List Frame := []
  /-- How many operations have begun. -/
  issued : Nat := 0
  log : List LogEntry := []

inductive Action
  | call (op : QueueOp)
  | ret
  deriving DecidableEq

namespace Machine

/-- Runs an operation up to its first callback. -/
def begin (m : Machine) (op : QueueOp) : Machine :=
  let a := m.queue.activate m.issued op
  { queue := a.queue
    stack := ⟨a.calls, a.resume, a.result⟩ :: m.stack
    issued := m.issued + 1
    log := m.log ++ .called m.issued op :: a.events.map .did }

/-- Takes the innermost operation to its next callback, or to its end. -/
def proceed (m : Machine) : Option Machine :=
  match m.stack with
  | [] => none
  | ⟨c :: cs, resume, result⟩ :: fs =>
      some { m with
        stack := ⟨cs, resume, result⟩ :: fs
        log := m.log ++ [.did (.completed c)] }
  | ⟨[], resume, result⟩ :: fs =>
      some { m with
        queue := (m.queue.resume resume).1
        stack := fs
        log := m.log ++ ((m.queue.resume resume).2.map .did ++ [.returned result]) }

def step (m : Machine) : Action → Option Machine
  | .call op => (m.begin op).proceed
  | .ret => m.proceed

/-- All runs of a queue that was constructed with some options. -/
def lts : Lts Machine Action :=
  .ofPartial (fun m => ∃ opts, m = { queue := { opts := opts } }) step

/-- The machine's three kinds of move are `begin` and the two cases of
`proceed`; what they preserve, every run preserves. -/
theorem invariant {I : Machine → Prop}
    (hnew : ∀ opts, I { queue := { opts := opts } })
    (hbegin : ∀ m op, I m → I (m.begin op))
    (hproceed : ∀ m m', I m → m.proceed = some m' → I m')
    {m : Machine} (h : lts.Reachable m) : I m := by
  refine h.invariant ?_ ?_
  · rintro _ ⟨opts, rfl⟩
    exact hnew opts
  · intro m a m' _ hI hstep
    cases a with
    | call op => exact hproceed _ _ (hbegin m op hI) hstep
    | ret => exact hproceed _ _ hI hstep

theorem proceed_eq_some {m m' : Machine} (h : m.proceed = some m') :
    (∃ c cs resume result fs, m.stack = ⟨c :: cs, resume, result⟩ :: fs ∧
      m' = { m with
        stack := ⟨cs, resume, result⟩ :: fs
        log := m.log ++ [.did (.completed c)] }) ∨
    (∃ resume result fs, m.stack = ⟨[], resume, result⟩ :: fs ∧
      m' = { m with
        queue := (m.queue.resume resume).1
        stack := fs
        log := m.log ++
          ((m.queue.resume resume).2.map .did ++ [.returned result]) }) := by
  unfold proceed at h
  cases hstack : m.stack with
  | nil => simp [hstack] at h
  | cons f fs =>
      obtain ⟨calls, resume, result⟩ := f
      cases calls with
      | nil =>
          simp only [hstack, Option.some.injEq] at h
          exact Or.inr ⟨resume, result, fs, rfl, h.symm⟩
      | cons c cs =>
          simp only [hstack, Option.some.injEq] at h
          exact Or.inl ⟨c, cs, resume, result, fs, rfl, h.symm⟩

/-- An invariant of the queue alone: what operations preserve up to their
first callback and the pump preserves holds at every moment of every run. -/
theorem queue_invariant {I : CommandQueue Ticket → Prop}
    (hnew : ∀ opts, I { opts := opts })
    (hactivate : ∀ q t op, I q → I (q.activate t op).queue)
    (hpump : ∀ q nowMs, I q → I (q.pump nowMs).1)
    {m : Machine} (h : lts.Reachable m) : I m.queue := by
  refine invariant (I := fun m => I m.queue) hnew ?_ ?_ h
  · intro m op hI
    exact hactivate m.queue m.issued op hI
  · intro m m' hI hstep
    rcases proceed_eq_some hstep with
      ⟨c, cs, resume, result, fs, -, rfl⟩ | ⟨resume, result, fs, -, rfl⟩
    · exact hI
    · cases resume with
      | none => exact hI
      | some nowMs => exact hpump m.queue nowMs hI

/-! ## From a call to its return -/

/-- What the stack holds of an operation when it begins. -/
def frame (m : Machine) (op : QueueOp) : Frame :=
  let a := m.queue.activate m.issued op
  ⟨a.calls, a.resume, a.result⟩

theorem begin_stack (m : Machine) (op : QueueOp) :
    (m.begin op).stack = m.frame op :: m.stack := rfl

/-- The operation `op`, called at `m`, returns at `m'`.  In between its callbacks
run, and the owner takes the actions `as`. -/
def Returns (m : Machine) (op : QueueOp) (as : List Action) (m' : Machine) : Prop :=
  ∃ m₁, m.step (.call op) = some m₁ ∧
    (lts.restrict fun s _ => m.stack.length < s.stack.length).Run m₁ as m' ∧
    m'.stack = m.stack

theorem Returns.stack_eq {m m' : Machine} {op : QueueOp} {as : List Action}
    (h : m.Returns op as m') : m'.stack = m.stack := by
  obtain ⟨m₁, -, -, hstack⟩ := h
  exact hstack

theorem Returns.reachable {m m' : Machine} {op : QueueOp} {as : List Action}
    (h : m.Returns op as m') (hm : lts.Reachable m) : lts.Reachable m' := by
  obtain ⟨m₁, hcall, hrun, -⟩ := h
  exact (hm.step hcall).run hrun.of_restrict

/-- The rule for calls.  `I` relates the machine to the frames above those that were
there at the call; at the return there are none. -/
theorem Returns.rule {m m' : Machine} {op : QueueOp} {as : List Action}
    {I : List Frame → Machine → Prop} (h : m.Returns op as m')
    (hfirst : I [m.frame op] (m.begin op))
    (hbegin : ∀ f fs s op', .call op' ∈ as → s.stack = f :: (fs ++ m.stack) →
      I (f :: fs) s → I (s.frame op' :: f :: fs) (s.begin op'))
    (hcallback : ∀ c cs resume result fs s,
      s.stack = ⟨c :: cs, resume, result⟩ :: (fs ++ m.stack) →
      I (⟨c :: cs, resume, result⟩ :: fs) s →
      I (⟨cs, resume, result⟩ :: fs) { s with
        stack := ⟨cs, resume, result⟩ :: (fs ++ m.stack)
        log := s.log ++ [.did (.completed c)] })
    (hreturn : ∀ resume result fs s,
      s.stack = ⟨[], resume, result⟩ :: (fs ++ m.stack) →
      I (⟨[], resume, result⟩ :: fs) s →
      I fs { s with
        queue := (s.queue.resume resume).1
        stack := fs ++ m.stack
        log := s.log ++
          ((s.queue.resume resume).2.map .did ++ [.returned result]) }) :
    I [] m' := by
  have hproceed : ∀ f fs s s', s.stack = f :: (fs ++ m.stack) → I (f :: fs) s →
      s.proceed = some s' → ∃ gs, s'.stack = gs ++ m.stack ∧ I gs s' := by
    intro f fs s s' hstack hI hstep
    rcases proceed_eq_some hstep with
      ⟨c, cs, resume, result, rest, hs, rfl⟩ | ⟨resume, result, rest, hs, rfl⟩
    · obtain ⟨rfl, rfl⟩ := List.cons.inj (hs.symm.trans hstack)
      exact ⟨⟨cs, resume, result⟩ :: fs, rfl, hcallback c cs resume result fs s hstack hI⟩
    · obtain ⟨rfl, rfl⟩ := List.cons.inj (hs.symm.trans hstack)
      exact ⟨fs, rfl, hreturn resume result fs s hstack hI⟩
  obtain ⟨m₁, hcall, hrun, hlast⟩ := h
  have hsome : ∃ fs, m'.stack = fs ++ m.stack ∧ I fs m' := by
    refine hrun.invariant_of_labels (P := (· ∈ as))
      (I := fun s => ∃ fs, s.stack = fs ++ m.stack ∧ I fs s) (fun a ha => ha) ?_ ?_
    · exact hproceed _ [] _ _ (m.begin_stack op) hfirst hcall
    · rintro s a s' ha ⟨fs, hstack, hI⟩ ⟨hstep, hdeeper⟩
      cases fs with
      | nil => simp [hstack] at hdeeper
      | cons f fs =>
          cases a with
          | call op' =>
              refine hproceed _ (f :: fs) _ _ ?_ (hbegin f fs s op' ha hstack hI) hstep
              rw [begin_stack, hstack]
          | ret => exact hproceed f fs s s' hstack hI hstep
  obtain ⟨fs, hstack, hI⟩ := hsome
  have hnone : fs = [] := by simpa [hlast] using hstack
  exact hnone ▸ hI

end Machine

end GoproNative
