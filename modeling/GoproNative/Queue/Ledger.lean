import GoproNative.Queue.Conservation

/-!
# The ledger of a run

The conservation law of one operation is carried along a run of the re-entrant
machine.  The callbacks an operation has still to make wait on the stack; they
are the third column of the ledger, and it is empty between operations.
-/

namespace GoproNative

variable {κ : Type}

namespace CommandQueue

variable {q : CommandQueue κ}

/-! ## What an operation writes -/

theorem pump_inFlight (q : CommandQueue κ) (nowMs : UInt64) :
    ∀ e ∈ (q.pump nowMs).1.inFlight,
      e ∈ q.inFlight ∨ ∃ q', .wrote e q' ∈ (q.pump nowMs).2 := by
  have hrun := pump_run q nowMs
  generalize (q.pump nowMs).2 = evs, (q.pump nowMs).1 = q' at hrun
  induction hrun with
  | nil => exact fun e he => Or.inl he
  | cons hstep _ ih =>
      intro e he
      obtain ⟨e', as, bs, -, -, -, rfl, rfl⟩ := pumpPass_eq_some hstep
      rcases ih e he with hold | ⟨q'', hnew⟩
      · rw [List.mem_append, List.mem_singleton] at hold
        rcases hold with hold | rfl
        · exact Or.inl hold
        · exact Or.inr ⟨_, List.mem_cons_self⟩
      · exact Or.inr ⟨q'', by simp [hnew]⟩

theorem pump_wrote_dones (q : CommandQueue κ) (nowMs : UInt64) :
    ∀ ev ∈ (q.pump nowMs).2, ∃ e q', ev = .wrote e q' ∧ e.done ∈ q.dones := by
  refine pump_events (I := fun q' => q'.dones.Perm q.dones)
    (E := fun ev => ∃ e q', ev = .wrote e q' ∧ e.done ∈ q.dones) (List.Perm.refl _) ?_
  intro q₁ ev q₂ hI hpass
  refine ⟨(pumpPass_outstanding (fun e => e.sent_done nowMs) hpass).trans hI, ?_⟩
  obtain ⟨e, as, bs, hpending, -, -, -, rfl⟩ := pumpPass_eq_some hpass
  refine ⟨_, _, rfl, hI.subset ?_⟩
  simp [dones, outstanding, hpending]

theorem resume_inFlight (q : CommandQueue κ) (resume : Option UInt64) :
    ∀ e ∈ (q.resume resume).1.inFlight,
      e ∈ q.inFlight ∨ ∃ q', .wrote e q' ∈ (q.resume resume).2 := by
  cases resume with
  | none => exact fun e he => Or.inl he
  | some nowMs => exact pump_inFlight q nowMs

theorem resume_wrote_dones (q : CommandQueue κ) (resume : Option UInt64) (e : Entry κ)
    (q' : CommandQueue κ) (h : .wrote e q' ∈ (q.resume resume).2) : e.done ∈ q.dones := by
  cases resume with
  | none => exact absurd h List.not_mem_nil
  | some nowMs =>
      obtain ⟨e', q'', heq, hdone⟩ := pump_wrote_dones q nowMs _ h
      rwa [(QueueEvent.wrote.inj heq).1]

theorem activate_inFlight (q : CommandQueue κ) (done : κ) (op : QueueOp) :
    ∀ e ∈ (q.activate done op).queue.inFlight,
      e ∈ q.inFlight ∨ ∃ q', .wrote e q' ∈ (q.activate done op).events := by
  have hactivates := q.activates done op
  generalize q.activate done op = act at hactivates ⊢
  cases hactivates with
  | accepted id payload priority nowMs e =>
      intro e' he'
      rcases pump_inFlight _ nowMs e' he' with hold | ⟨q', hnew⟩
      · rw [push_inFlight] at hold
        exact Or.inl hold
      · exact Or.inr ⟨q', List.mem_cons_of_mem _ hnew⟩
  | opened nowMs => exact pump_inFlight _ nowMs
  | refused | shut | unknown => exact fun e he => Or.inl he
  | answered => exact fun e he => Or.inl (List.eraseP_subset he)
  | swept => exact fun e he => Or.inl (List.mem_of_mem_filter he)
  | canceled => exact fun e he => absurd he List.not_mem_nil

/-- An operation writes only what was outstanding or what it accepted. -/
theorem activate_wrote (q : CommandQueue κ) (done : κ) (op : QueueOp) :
    ∀ e q', .wrote e q' ∈ (q.activate done op).events →
      e.done ∈ q.dones ∨ e.done ∈ acceptedDones (q.activate done op).events := by
  have hactivates := q.activates done op
  generalize q.activate done op = act at hactivates ⊢
  cases hactivates with
  | accepted id payload priority nowMs e =>
      intro e' q' hev
      rw [List.mem_cons] at hev
      rcases hev with hev | hev
      · simp at hev
      · obtain ⟨e'', q'', heq, hdone⟩ := pump_wrote_dones _ nowMs _ hev
        simp only [QueueEvent.wrote.injEq] at heq
        have hmem := ((q.push_outstanding e).map Entry.done).subset hdone
        rw [heq.1, acceptedDones_cons_accepted, List.mem_cons]
        rw [List.map_cons, List.mem_cons] at hmem
        exact hmem.elim (fun h => Or.inr (Or.inl h)) Or.inl
  | opened nowMs =>
      intro e q' hev
      obtain ⟨e', q'', heq, hdone⟩ := pump_wrote_dones _ nowMs _ hev
      simp only [QueueEvent.wrote.injEq] at heq
      rw [heq.1]
      exact Or.inl hdone
  | refused | shut | unknown | answered => simp
  | swept => simp [tick]
  | canceled => simp [cancelAll]

/-- An operation accepts or refuses nothing but the submission it brings. -/
theorem activate_submits (q : CommandQueue κ) (done : κ) (op : QueueOp) :
    acceptedDones (q.activate done op).events ++
        refusedDones (q.activate done op).events = [] ∨
      acceptedDones (q.activate done op).events ++
        refusedDones (q.activate done op).events = [done] := by
  have hactivates := q.activates done op
  generalize q.activate done op = act at hactivates ⊢
  cases hactivates with
  | refused => exact Or.inr rfl
  | accepted id payload priority nowMs e he =>
      obtain ⟨hacc, href, -⟩ := onlyWrites_reads (pump_wrote (q.push e) nowMs)
      right
      rw [acceptedDones_cons_accepted, refusedDones_cons_accepted, hacc, href, he]
      rfl
  | opened nowMs =>
      obtain ⟨hacc, href, -⟩ :=
        onlyWrites_reads (pump_wrote { q with ready := true } nowMs)
      exact Or.inl (by simp [hacc, href])
  | shut | unknown | answered | swept | canceled => exact Or.inl rfl

end CommandQueue

/-! ## The machine's ledger -/

def LogEntry.event : LogEntry → Option (QueueEvent Ticket)
  | .did ev => some ev
  | _ => none

/-- The queue's events in a log. -/
def eventsOf (log : List LogEntry) : List (QueueEvent Ticket) :=
  log.filterMap LogEntry.event

@[simp] theorem eventsOf_append (xs ys : List LogEntry) :
    eventsOf (xs ++ ys) = eventsOf xs ++ eventsOf ys :=
  List.filterMap_append

@[simp] theorem eventsOf_called (t : Ticket) (op : QueueOp) (xs : List LogEntry) :
    eventsOf (.called t op :: xs) = eventsOf xs := rfl

@[simp] theorem eventsOf_returned (b : Bool) : eventsOf [.returned b] = [] := rfl

@[simp] theorem eventsOf_completed (c : Call Ticket) :
    eventsOf [.did (.completed c)] = [.completed c] := rfl

@[simp] theorem eventsOf_map_did (evs : List (QueueEvent Ticket)) :
    eventsOf (evs.map .did) = evs := by
  simp [eventsOf, LogEntry.event, List.filterMap_map, Function.comp_def]

theorem mem_eventsOf {log : List LogEntry} {ev : QueueEvent Ticket} :
    ev ∈ eventsOf log ↔ LogEntry.did ev ∈ log := by
  constructor
  · intro h
    obtain ⟨x, hx, hev⟩ := List.mem_filterMap.mp h
    cases x with
    | did ev' =>
        simp only [LogEntry.event, Option.some.injEq] at hev
        exact hev ▸ hx
    | called t op => simp [LogEntry.event] at hev
    | returned b => simp [LogEntry.event] at hev
  · intro h
    exact List.mem_filterMap.mpr ⟨_, h, rfl⟩

namespace Machine

open CommandQueue

/-- The callbacks that operations under way have still to make. -/
def waiting (m : Machine) : List (Call Ticket) := m.stack.flatMap Frame.calls

structure Ledger (m : Machine) : Prop where
  /-- Accepted is settled, about to be settled, or outstanding. -/
  balanced : (↑(acceptedDones (eventsOf m.log)) : Multiset Ticket) =
    ↑(settledDones (completions (eventsOf m.log))) + ↑(settledDones m.waiting) +
      ↑m.queue.dones
  refusals : (↑(refusedDones (eventsOf m.log)) : Multiset Ticket) =
    ↑(rejectedDones (completions (eventsOf m.log))) + ↑(rejectedDones m.waiting)
  distinct : (↑(acceptedDones (eventsOf m.log)) +
    ↑(refusedDones (eventsOf m.log)) : Multiset Ticket).Nodup
  numbered : ∀ t ∈ acceptedDones (eventsOf m.log) ++ refusedDones (eventsOf m.log),
    t < m.issued
  /-- What is in flight was written. -/
  written : ∀ e ∈ m.queue.inFlight, ∃ q, .wrote e q ∈ eventsOf m.log
  /-- What was written was accepted. -/
  accepted : ∀ e q, .wrote e q ∈ eventsOf m.log →
    e.done ∈ acceptedDones (eventsOf m.log)

theorem Ledger.mem_accepted {m : Machine} (h : m.Ledger) {t : Ticket}
    (ht : t ∈ m.queue.dones) : t ∈ acceptedDones (eventsOf m.log) := by
  rw [← Multiset.mem_coe, h.balanced, Multiset.mem_add]
  exact Or.inr ht

theorem Ledger.begin {m : Machine} (h : m.Ledger) (op : QueueOp) :
    (m.begin op).Ledger := by
  obtain ⟨hconserve, hreject, hcomp⟩ := activate_conserves m.queue m.issued op
  have hsubmits := activate_submits m.queue m.issued op
  have hmem : ∀ t ∈ acceptedDones (m.queue.activate m.issued op).events ++
      refusedDones (m.queue.activate m.issued op).events, t = m.issued := by
    intro t ht
    rcases hsubmits with hs | hs
    · simp [hs] at ht
    · simpa [hs] using ht
  have hevents : eventsOf (m.begin op).log =
      eventsOf m.log ++ (m.queue.activate m.issued op).events := by
    simp [Machine.begin]
  have hwaiting : (m.begin op).waiting =
      (m.queue.activate m.issued op).calls ++ m.waiting := rfl
  have hqueue : (m.begin op).queue = (m.queue.activate m.issued op).queue := rfl
  refine ⟨?_, ?_, ?_, ?_, ?_, ?_⟩
  · rw [hevents, hwaiting, hqueue, completions_append, hcomp, acceptedDones_append,
      List.append_nil, settledDones_append, ← Multiset.coe_add, h.balanced,
      ← Multiset.coe_add]
    calc
      (_ + ↑m.queue.dones + _ : Multiset Ticket) =
          ↑(settledDones (completions (eventsOf m.log))) +
            ↑(settledDones m.waiting) +
            (↑(acceptedDones (m.queue.activate m.issued op).events) +
              ↑m.queue.dones) := by abel
      _ = _ := by
        rw [hconserve]
        abel
  · rw [hevents, hwaiting, completions_append, hcomp, refusedDones_append,
      List.append_nil, rejectedDones_append, ← Multiset.coe_add, h.refusals,
      hreject, ← Multiset.coe_add]
    abel
  · have hsplit : (↑(acceptedDones (eventsOf (m.begin op).log)) +
          ↑(refusedDones (eventsOf (m.begin op).log)) : Multiset Ticket) =
        (↑(acceptedDones (eventsOf m.log)) + ↑(refusedDones (eventsOf m.log))) +
          ↑(acceptedDones (m.queue.activate m.issued op).events ++
            refusedDones (m.queue.activate m.issued op).events) := by
      rw [hevents, acceptedDones_append, refusedDones_append, ← Multiset.coe_add,
        ← Multiset.coe_add, ← Multiset.coe_add]
      abel
    rw [hsplit, Multiset.nodup_add]
    refine ⟨h.distinct, ?_, ?_⟩
    · rcases hsubmits with hs | hs <;> simp [hs]
    · rw [Multiset.disjoint_left]
      intro t hold hnew
      have hlt := h.numbered t (by simpa using hold)
      rw [hmem t hnew] at hlt
      exact absurd hlt (Nat.lt_irrefl _)
  · intro t ht
    rw [hevents, acceptedDones_append, refusedDones_append] at ht
    have hissued : (m.begin op).issued = m.issued + 1 := rfl
    rw [hissued]
    have hcases : t ∈ acceptedDones (eventsOf m.log) ++
          refusedDones (eventsOf m.log) ∨
        t ∈ acceptedDones (m.queue.activate m.issued op).events ++
          refusedDones (m.queue.activate m.issued op).events := by
      simp only [List.mem_append] at ht ⊢
      tauto
    rcases hcases with hold | hnew
    · exact Nat.lt_succ_of_lt (h.numbered t hold)
    · rw [hmem t hnew]
      exact Nat.lt_succ_self _
  · intro e he
    rw [hqueue] at he
    simp only [hevents, List.mem_append]
    rcases activate_inFlight m.queue m.issued op e he with hold | ⟨q', hnew⟩
    · obtain ⟨q', hq'⟩ := h.written e hold
      exact ⟨q', Or.inl hq'⟩
    · exact ⟨q', Or.inr hnew⟩
  · intro e q hmem'
    simp only [hevents, acceptedDones_append, List.mem_append] at hmem' ⊢
    rcases hmem' with hold | hnew
    · exact Or.inl (h.accepted e q hold)
    · rcases activate_wrote m.queue m.issued op e q hnew with hout | hacc
      · exact Or.inl (h.mem_accepted hout)
      · exact Or.inr hacc

/-- A callback moves its call from what waits to what has completed. -/
theorem Ledger.callback {m : Machine} (h : m.Ledger) {c : Call Ticket}
    {cs : List (Call Ticket)} {resume : Option UInt64} {result : Bool} {fs : List Frame}
    (hstack : m.stack = ⟨c :: cs, resume, result⟩ :: fs) :
    Ledger { m with
      stack := ⟨cs, resume, result⟩ :: fs
      log := m.log ++ [.did (.completed c)] } := by
  have hwaiting : m.waiting = c :: (cs ++ fs.flatMap Frame.calls) := by
    simp [waiting, hstack]
  have hbalanced := h.balanced
  have hrefusals := h.refusals
  have hevents : eventsOf (m.log ++ [LogEntry.did (.completed c)]) =
      eventsOf m.log ++ [.completed c] := by simp
  have hacc : acceptedDones (eventsOf m.log ++ [QueueEvent.completed c]) =
      acceptedDones (eventsOf m.log) := by
    simp [acceptedDones, QueueEvent.acceptedDone]
  have href : refusedDones (eventsOf m.log ++ [QueueEvent.completed c]) =
      refusedDones (eventsOf m.log) := by
    simp [refusedDones, QueueEvent.refusedDone]
  have hcomp : completions (eventsOf m.log ++ [QueueEvent.completed c]) =
      completions (eventsOf m.log) ++ [c] := by
    simp [completions, QueueEvent.completion]
  have hcons : c :: (cs ++ fs.flatMap Frame.calls) =
      [c] ++ (cs ++ fs.flatMap Frame.calls) := rfl
  rw [hwaiting, hcons, settledDones_append, ← Multiset.coe_add] at hbalanced
  rw [hwaiting, hcons, rejectedDones_append, ← Multiset.coe_add] at hrefusals
  refine ⟨?_, ?_, ?_, ?_, ?_, ?_⟩
  · simp only [hevents, hacc, hcomp, settledDones_append, ← Multiset.coe_add]
    rw [hbalanced]
    change _ = _ + _ + (↑(settledDones (cs ++ fs.flatMap Frame.calls)) : Multiset Ticket) + _
    abel
  · simp only [hevents, href, hcomp, rejectedDones_append, ← Multiset.coe_add]
    rw [hrefusals]
    change _ = _ + _ + (↑(rejectedDones (cs ++ fs.flatMap Frame.calls)) : Multiset Ticket)
    abel
  · simpa only [hevents, hacc, href] using h.distinct
  · simpa only [hevents, hacc, href] using h.numbered
  · intro e he
    obtain ⟨q, hq⟩ := h.written e he
    exact ⟨q, by simp [hevents, hq]⟩
  · intro e q hmem
    simp only [hevents, List.mem_append, List.mem_singleton, reduceCtorEq,
      or_false] at hmem
    simpa only [hevents, hacc] using h.accepted e q hmem

/-- A return at most writes what was outstanding. -/
theorem Ledger.returned {m : Machine} (h : m.Ledger) {resume : Option UInt64}
    {result : Bool} {fs : List Frame} (hstack : m.stack = ⟨[], resume, result⟩ :: fs) :
    Ledger { m with
      queue := (m.queue.resume resume).1
      stack := fs
      log := m.log ++ ((m.queue.resume resume).2.map .did ++ [.returned result]) } := by
  obtain ⟨hacc, href, hcomp⟩ := onlyWrites_reads (resume_wrote m.queue resume)
  have hwaiting : m.waiting = fs.flatMap Frame.calls := by
    simp [waiting, hstack]
  have hevents : eventsOf (m.log ++ ((m.queue.resume resume).2.map LogEntry.did ++
      [.returned result])) = eventsOf m.log ++ (m.queue.resume resume).2 := by simp
  have hbalanced := h.balanced
  have hrefusals := h.refusals
  rw [hwaiting] at hbalanced hrefusals
  refine ⟨?_, ?_, ?_, ?_, ?_, ?_⟩
  · simp only [hevents, acceptedDones_append, completions_append, hacc, hcomp,
      List.append_nil, resume_dones]
    exact hbalanced
  · simp only [hevents, refusedDones_append, completions_append, href, hcomp,
      List.append_nil]
    exact hrefusals
  · simpa only [hevents, acceptedDones_append, refusedDones_append, hacc, href,
      List.append_nil] using h.distinct
  · simpa only [hevents, acceptedDones_append, refusedDones_append, hacc, href,
      List.append_nil] using h.numbered
  · intro e he
    simp only [hevents, List.mem_append]
    rcases resume_inFlight m.queue resume e he with hold | ⟨q, hnew⟩
    · obtain ⟨q, hq⟩ := h.written e hold
      exact ⟨q, Or.inl hq⟩
    · exact ⟨q, Or.inr hnew⟩
  · intro e q hmem
    simp only [hevents, List.mem_append, acceptedDones_append, hacc,
      List.append_nil] at hmem ⊢
    rcases hmem with hold | hnew
    · exact h.accepted e q hold
    · exact h.mem_accepted (resume_wrote_dones m.queue resume e q hnew)

theorem Ledger.proceed {m m' : Machine} (h : m.Ledger)
    (hstep : m.proceed = some m') : m'.Ledger := by
  rcases proceed_eq_some hstep with
    ⟨c, cs, resume, result, fs, hstack, rfl⟩ | ⟨resume, result, fs, hstack, rfl⟩
  · exact h.callback hstack
  · exact h.returned hstack

theorem ledger {m : Machine} (h : lts.Reachable m) : m.Ledger := by
  refine invariant ?_ (fun m op hI => hI.begin op) (fun m m' hI hs => hI.proceed hs) h
  intro opts
  exact ⟨rfl, rfl, Multiset.nodup_zero, by simp [eventsOf, acceptedDones, refusedDones],
    by simp, by simp [eventsOf]⟩

/-! ## What completions say -/

theorem Ledger.completions_distinct {m : Machine} (h : m.Ledger) :
    ((completions (eventsOf m.log)).map Call.done).Nodup := by
  rw [← Multiset.coe_nodup, dones_eq_settled_add_rejected]
  refine Multiset.nodup_of_le (add_le_add ?_ ?_) h.distinct
  · rw [h.balanced, add_assoc]
    exact Multiset.le_add_right _ _
  · rw [h.refusals]
    exact Multiset.le_add_right _ _

/-- What is outstanding has not completed. -/
theorem Ledger.not_completed {m : Machine} (h : m.Ledger) {t : Ticket}
    (ht : t ∈ m.queue.dones) :
    ∀ c ∈ completions (eventsOf m.log), c.done ≠ t := by
  intro c hc hct
  have hdistinct := h.distinct
  have hmem : t ∈ (↑((completions (eventsOf m.log)).map Call.done) : Multiset Ticket) := by
    rw [Multiset.mem_coe]
    exact hct ▸ List.mem_map_of_mem hc
  rw [dones_eq_settled_add_rejected, Multiset.mem_add] at hmem
  rcases hmem with hsettled | hrejected
  · have hnodup := (Multiset.nodup_add.mp hdistinct).1
    rw [h.balanced] at hnodup
    exact Multiset.disjoint_left.mp (Multiset.nodup_add.mp hnodup).2.2
      (Multiset.mem_add.mpr (Or.inl hsettled)) ht
  · have hrefused : t ∈ (↑(refusedDones (eventsOf m.log)) : Multiset Ticket) := by
      rw [h.refusals]
      exact Multiset.mem_add.mpr (Or.inl hrejected)
    exact Multiset.disjoint_left.mp (Multiset.nodup_add.mp hdistinct).2.2
      (h.mem_accepted ht) hrefused

/-- What the log says before a completion.  A `responded` comes right after the
`onResponse` whose bytes it passes on, for a command written under that id and
not completed before; every other outcome comes without bytes. -/
def Answered (before : List LogEntry) : LogEntry → Prop
  | .did (.completed c) =>
      (c.outcome = .responded →
        ∃ earlier t id nowMs e q,
          before = earlier ++ [.called t (.onResponse id c.response nowMs)] ∧
          LogEntry.did (.wrote e q) ∈ earlier ∧ e.id = id ∧ e.done = c.done ∧
          ∀ c', LogEntry.did (.completed c') ∈ before → c'.done ≠ c.done) ∧
      (c.outcome ≠ .responded → c.response = [])
  | _ => True

/-- A callback that waits: one of `tick` or `cancelAll`. -/
def Late (c : Call Ticket) : Prop :=
  (c.outcome = .timedOut ∨ c.outcome = .canceled) ∧ c.response = []

theorem Late.answered {c : Call Ticket} (h : Late c) (before : List LogEntry) :
    Answered before (.did (.completed c)) := by
  refine ⟨?_, fun _ => h.2⟩
  intro hresponded
  rcases h.1 with ho | ho <;> simp [ho] at hresponded

/-- The callbacks an operation makes: late ones, one refusal, or one reply. -/
theorem activate_calls (q : CommandQueue Ticket) (t : Ticket) (op : QueueOp) :
    (∀ c ∈ (q.activate t op).calls, Late c) ∨
    (q.activate t op).calls = [⟨t, .rejected, []⟩] ∨
    ∃ id data nowMs e, op = .onResponse id data nowMs ∧ e ∈ q.inFlight ∧ e.id = id ∧
      (q.activate t op).calls = [⟨e.done, .responded, data⟩] ∧
      (q.activate t op).events = [] := by
  have hactivates := q.activates t op
  generalize q.activate t op = act at hactivates ⊢
  cases hactivates with
  | refused => exact Or.inr (Or.inl rfl)
  | answered data nowMs e hfind =>
      exact Or.inr (Or.inr ⟨e.id, data, nowMs, e, rfl, List.mem_of_find?_eq_some hfind,
        rfl, rfl, rfl⟩)
  | accepted | opened | shut | unknown => exact Or.inl (by simp)
  | swept =>
      left
      intro c hc
      obtain ⟨e, -, rfl⟩ := List.mem_map.mp hc
      exact ⟨Or.inl rfl, rfl⟩
  | canceled =>
      left
      intro c hc
      obtain ⟨e, -, rfl⟩ := List.mem_map.mp hc
      exact ⟨Or.inr rfl, rfl⟩

/-- Between steps only late callbacks wait, and the log so far is answered. -/
def Accounted (m : Machine) : Prop :=
  (∀ c ∈ m.waiting, Late c) ∧ m.log.Throughout Answered

theorem answered_of_wrote {evs : List (QueueEvent Ticket)}
    (h : ∀ ev ∈ evs, ∀ c, ev ≠ .completed c) :
    ∀ x ∈ evs.map LogEntry.did, ∀ before, Answered before x := by
  intro x hx before
  obtain ⟨ev, hev, rfl⟩ := List.mem_map.mp hx
  cases ev with
  | completed c => exact absurd rfl (h _ hev c)
  | accepted e => trivial
  | refused t => trivial
  | wrote e q => trivial

theorem resume_not_completed (q : CommandQueue κ) (resume : Option UInt64) :
    ∀ ev ∈ (q.resume resume).2, ∀ c, ev ≠ .completed c := by
  intro ev hev c
  obtain ⟨e, q', rfl⟩ := resume_wrote q resume ev hev
  simp

/-- `proceed` keeps the account when the innermost operation's next callback, if
it has one, is answered by the log. -/
theorem Accounted.proceed {m m' : Machine} (hlog : m.log.Throughout Answered)
    (hcall : ∀ f fs, m.stack = f :: fs → (∀ c ∈ fs.flatMap Frame.calls, Late c) ∧
      ∀ c cs, f.calls = c :: cs →
        Answered m.log (.did (.completed c)) ∧ ∀ c' ∈ cs, Late c')
    (hstep : m.proceed = some m') : m'.Accounted := by
  rcases proceed_eq_some hstep with
    ⟨c, cs, resume, result, fs, hstack, rfl⟩ | ⟨resume, result, fs, hstack, rfl⟩
  · obtain ⟨houter, hinner⟩ := hcall _ _ hstack
    obtain ⟨hc, hlate⟩ := hinner c cs rfl
    refine ⟨?_, List.throughout_snoc hlog hc⟩
    intro c' hc'
    rw [waiting, List.flatMap_cons, List.mem_append] at hc'
    exact hc'.elim (hlate c') (houter c')
  · refine ⟨(hcall _ _ hstack).1, ?_⟩
    rw [← List.append_assoc]
    exact List.throughout_snoc (List.throughout_append hlog
      (answered_of_wrote (resume_not_completed m.queue resume))) trivial

theorem Accounted.ret {m m' : Machine} (h : m.Accounted)
    (hstep : m.proceed = some m') : m'.Accounted := by
  refine Accounted.proceed h.2 ?_ hstep
  intro f fs hstack
  have hlate : ∀ c ∈ f.calls ++ fs.flatMap Frame.calls, Late c := by
    simpa [waiting, hstack] using h.1
  refine ⟨fun c hc => hlate c (List.mem_append_right _ hc), ?_⟩
  intro c cs hcalls
  rw [hcalls] at hlate
  exact ⟨(hlate c (by simp)).answered _, fun c' hc' => hlate c' (by simp [hc'])⟩

/-- Beginning an operation logs no completion, and the first callback it makes is
answered: late, a refusal, or the reply that `onResponse` has just brought. -/
theorem Accounted.call {m m' : Machine} (h : m.Accounted) (hledger : m.Ledger)
    {op : QueueOp} (hstep : (m.begin op).proceed = some m') : m'.Accounted := by
  obtain ⟨-, -, hcomp⟩ := activate_conserves m.queue m.issued op
  have hnone : ∀ ev ∈ (m.queue.activate m.issued op).events, ∀ c, ev ≠ .completed c := by
    rintro ev hev c rfl
    have hc : c ∈ completions (m.queue.activate m.issued op).events :=
      mem_completions.mpr hev
    simp [hcomp] at hc
  have hlog : (m.begin op).log.Throughout Answered := by
    simp only [Machine.begin]
    rw [List.append_cons]
    exact List.throughout_append (List.throughout_snoc h.2 trivial)
      (answered_of_wrote hnone)
  refine Accounted.proceed hlog ?_ hstep
  intro f fs hstack
  simp only [Machine.begin, List.cons.injEq] at hstack
  obtain ⟨rfl, rfl⟩ := hstack
  refine ⟨h.1, ?_⟩
  intro c cs (hcalls : (m.queue.activate m.issued op).calls = c :: cs)
  rcases activate_calls m.queue m.issued op with
    hlate | hrefused | ⟨id, data, nowMs, e, rfl, he, hid, hreply, hevents⟩
  · rw [hcalls] at hlate
    exact ⟨(hlate c (by simp)).answered _, fun c' hc' => hlate c' (by simp [hc'])⟩
  · rw [hrefused, List.cons.injEq] at hcalls
    obtain ⟨rfl, rfl⟩ := hcalls
    exact ⟨⟨by simp, fun _ => rfl⟩, by simp⟩
  · rw [hreply, List.cons.injEq] at hcalls
    obtain ⟨rfl, rfl⟩ := hcalls
    obtain ⟨q, hwrote⟩ := hledger.written e he
    refine ⟨⟨fun _ => ?_, by simp⟩, by simp⟩
    refine ⟨m.log, m.issued, id, nowMs, e, q, ?_, mem_eventsOf.mp hwrote, hid, rfl, ?_⟩
    · simp [Machine.begin, hevents]
    · intro c' hc'
      simp only [Machine.begin, hevents, List.map_nil, List.mem_append,
        List.mem_singleton, reduceCtorEq, or_false] at hc'
      refine hledger.not_completed ?_ c' (mem_completions.mpr (mem_eventsOf.mpr hc'))
      exact List.mem_map_of_mem (List.mem_append_right _ he)

theorem accounted {m : Machine} (h : lts.Reachable m) : m.Accounted := by
  refine h.invariant ?_ ?_
  · rintro _ ⟨opts, rfl⟩
    exact ⟨by simp [waiting], List.throughout_nil⟩
  · intro m a m' hm hI hstep
    cases a with
    | call op => exact hI.call (ledger hm) hstep
    | ret => exact hI.ret hstep

/-! ## The law -/

theorem Ledger.refused_of_rejected {m : Machine} (h : m.Ledger) {c : Call Ticket}
    (hc : c ∈ completions (eventsOf m.log)) (hrejected : c.outcome = .rejected) :
    c.done ∈ refusedDones (eventsOf m.log) := by
  rw [← Multiset.mem_coe, h.refusals, Multiset.mem_add]
  exact Or.inl (List.mem_map_of_mem (List.mem_filter.mpr ⟨hc, by simp [hrejected]⟩))

theorem Ledger.accepted_of_settled {m : Machine} (h : m.Ledger) {c : Call Ticket}
    (hc : c ∈ completions (eventsOf m.log)) (hsettled : c.outcome ≠ .rejected) :
    c.done ∈ acceptedDones (eventsOf m.log) := by
  rw [← Multiset.mem_coe, h.balanced, Multiset.mem_add, Multiset.mem_add]
  exact Or.inl (Or.inl (List.mem_map_of_mem
    (List.mem_filter.mpr ⟨hc, by simp [hsettled]⟩)))

theorem Ledger.not_accepted_of_refused {m : Machine} (h : m.Ledger) {t : Ticket}
    (ht : t ∈ refusedDones (eventsOf m.log)) : t ∉ acceptedDones (eventsOf m.log) :=
  fun hacc => Multiset.disjoint_left.mp (Multiset.nodup_add.mp h.distinct).2.2 hacc ht

/-- The settled callbacks are the completed ones that were accepted. -/
theorem Ledger.settled_eq_filter {m : Machine} (h : m.Ledger) :
    settledDones (completions (eventsOf m.log)) =
      ((completions (eventsOf m.log)).map Call.done).filter
        (· ∈ acceptedDones (eventsOf m.log)) := by
  rw [settledDones, List.filter_map]
  refine congrArg _ (List.filter_congr ?_)
  intro c hc
  by_cases hrejected : c.outcome = .rejected
  · have hnot := h.not_accepted_of_refused (h.refused_of_rejected hc hrejected)
    simp [hrejected, hnot]
  · simp [hrejected, h.accepted_of_settled hc hrejected]

/-- A refusal is completed in the operation that makes it, so none waits. -/
theorem Accounted.no_rejected_waiting {m : Machine} (h : m.Accounted) :
    rejectedDones m.waiting = [] := by
  rw [rejectedDones, List.map_eq_nil_iff, List.filter_eq_nil_iff]
  intro c hc
  rcases (h.1 c hc).1 with ho | ho <;> simp [ho]

/-- No completion is lost or duplicated, over every run, callbacks that call the
queue again included.  No submission completes twice; between operations the
accepted submissions are the completed ones, the pending ones and the ones in
flight; completions say what `Answered` allows; and a refused submission
completes exactly once, as `rejected`, and is never written. -/
theorem no_completion_lost_or_duplicated {m : Machine} (h : lts.Reachable m) :
    (acceptedDones (eventsOf m.log)).Nodup ∧
    ((completions (eventsOf m.log)).map Call.done).Nodup ∧
    (m.stack = [] →
      (↑(acceptedDones (eventsOf m.log)) : Multiset Ticket) =
        ↑(((completions (eventsOf m.log)).map Call.done).filter
          (· ∈ acceptedDones (eventsOf m.log))) +
        ↑(m.queue.pending.map Entry.done) + ↑(m.queue.inFlight.map Entry.done)) ∧
    m.log.Throughout Answered ∧
    ∀ t ∈ refusedDones (eventsOf m.log),
      ((completions (eventsOf m.log)).map Call.done).count t = 1 ∧
      (∀ c ∈ completions (eventsOf m.log), c.done = t →
        c.outcome = .rejected ∧ c.response = []) ∧
      ∀ e q, LogEntry.did (.wrote e q) ∈ m.log → e.done ≠ t := by
  have hledger := ledger h
  obtain ⟨hlate, hanswered⟩ := accounted h
  refine ⟨(Multiset.nodup_add.mp hledger.distinct).1, hledger.completions_distinct,
    ?_, hanswered, ?_⟩
  · intro hrest
    have hbalanced := hledger.balanced
    rw [hledger.settled_eq_filter, coe_dones] at hbalanced
    rw [hbalanced, waiting, hrest, List.flatMap_nil, ← add_assoc]
    simp [settledDones]
  · intro t ht
    have hnot := hledger.not_accepted_of_refused ht
    have hmem : t ∈ (completions (eventsOf m.log)).map Call.done := by
      have hrefusals := hledger.refusals
      rw [(accounted h).no_rejected_waiting, Multiset.coe_nil, add_zero] at hrefusals
      rw [← Multiset.mem_coe, dones_eq_settled_add_rejected, ← hrefusals,
        Multiset.mem_add]
      exact Or.inr ht
    refine ⟨List.count_eq_one_of_mem hledger.completions_distinct hmem, ?_, ?_⟩
    · rintro c hc rfl
      have hrejected : c.outcome = .rejected := by
        by_contra hsettled
        exact hnot (hledger.accepted_of_settled hc hsettled)
      obtain ⟨before, after, hlog⟩ :=
        List.append_of_mem (mem_eventsOf.mp (mem_completions.mp hc))
      exact ⟨hrejected, (hanswered _ _ _ hlog).2 (by simp [hrejected])⟩
    · rintro e q hwrote rfl
      exact hnot (hledger.accepted e q (mem_eventsOf.mpr hwrote))

/-- A command is written; its duplicate is refused, and refused again when the
callback of the first refusal submits it once more; then it is answered. -/
def retryRun : List Action :=
  let submit : Action := .call (.submit 7 [1, 7] .fastpass 10)
  [submit, submit, submit, .ret, .ret, .call (.onResponse 7 [7, 0] 20), .ret]

theorem no_completion_lost_or_duplicated_retry :
    ∃ m, lts.Reachable m ∧ m.stack = [] ∧
      completions (eventsOf m.log) =
        [⟨1, .rejected, []⟩, ⟨2, .rejected, []⟩, ⟨0, .responded, [7, 0]⟩] ∧
      ((completions (eventsOf m.log)).map Call.done).count 2 = 1 := by
  obtain ⟨m, hm, hstack, hcomp, href⟩ : ∃ m,
      Lts.exec step { queue := { opts := {} } } retryRun = some m ∧ m.stack = [] ∧
      completions (eventsOf m.log) =
        [⟨1, .rejected, []⟩, ⟨2, .rejected, []⟩, ⟨0, .responded, [7, 0]⟩] ∧
      refusedDones (eventsOf m.log) = [1, 2] := ⟨_, rfl, rfl, rfl, rfl⟩
  have hreach : lts.Reachable m := Lts.reachable_of_exec ⟨_, rfl⟩ hm
  obtain ⟨-, -, -, -, hrefusals⟩ := no_completion_lost_or_duplicated hreach
  exact ⟨m, hreach, hstack, hcomp, (hrefusals 2 (by simp [href])).1⟩

end Machine

end GoproNative
