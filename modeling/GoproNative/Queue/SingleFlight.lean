import GoproNative.Queue.Machine
import Mathlib.Data.List.Nodup

/-!
# Single flight

Across pending and in-flight entries no correlation id occurs twice, and at
most one ordinary command is in flight.  Both are kept by every operation up to
its first callback and by the pump, so they hold at every moment of every run,
inside callbacks included.
-/

namespace GoproNative

variable {κ : Type}

namespace CommandQueue

/-- The ordinary commands in flight. -/
def ordinaryInFlight (q : CommandQueue κ) : Nat :=
  q.inFlight.countP fun e => e.priority == .queued

structure SingleFlight (q : CommandQueue κ) : Prop where
  ids : (q.outstanding.map Entry.id).Nodup
  ordinary : q.ordinaryInFlight ≤ 1

theorem ordinaryInFlight_eq_zero_iff {q : CommandQueue κ} :
    q.ordinaryInFlight = 0 ↔ ∀ e ∈ q.inFlight, e.priority ≠ .queued := by
  simp [ordinaryInFlight, List.countP_eq_zero]

/-- No two ordinary commands are in flight. -/
theorem SingleFlight.ordinary_unique {q : CommandQueue κ} (h : q.SingleFlight)
    {e f : Entry κ} (he : e ∈ q.inFlight) (hf : f ∈ q.inFlight)
    (hprio : e.priority = .queued) (hprio' : f.priority = .queued) : e = f := by
  have hcount := h.ordinary
  rw [ordinaryInFlight, List.countP_eq_length_filter] at hcount
  have hmem : e ∈ q.inFlight.filter fun e => e.priority == .queued := by simp [he, hprio]
  have hmem' : f ∈ q.inFlight.filter fun e => e.priority == .queued := by simp [hf, hprio']
  obtain ⟨g, hg⟩ := List.length_eq_one_iff.mp
    (Nat.le_antisymm hcount (List.length_pos_of_mem hmem))
  rw [hg, List.mem_singleton] at hmem hmem'
  rw [hmem, hmem']

/-- The id of a pending entry is not in flight. -/
theorem SingleFlight.pending_free {q : CommandQueue κ} (h : q.SingleFlight)
    {e f : Entry κ} (he : e ∈ q.pending) (hf : f ∈ q.inFlight) : f.id ≠ e.id := by
  intro hfe
  have hids := h.ids
  rw [outstanding, List.map_append, List.nodup_append] at hids
  exact hids.2.2 e.id (List.mem_map_of_mem he) f.id (List.mem_map_of_mem hf) hfe.symm

/-- A write of an ordinary command with the gate open and the slot free. -/
def WellTimed : QueueEvent κ → Prop
  | .wrote e q => e.priority = .queued →
      q.ready = true ∧ ∃ others, q.inFlight = others ++ [e] ∧
        ∀ f ∈ others, f.priority ≠ .queued
  | _ => True

theorem SingleFlight.pumpPass {q q' : CommandQueue κ} {nowMs : UInt64}
    {ev : QueueEvent κ} (h : q.SingleFlight)
    (hpass : q.pumpPass nowMs = some (ev, q')) :
    q'.SingleFlight ∧ WellTimed ev := by
  have hids := h.ids.perm (pumpPass_outstanding (fun e => e.sent_id nowMs) hpass).symm
  obtain ⟨e, as, bs, -, hsend, -, rfl, rfl⟩ := pumpPass_eq_some hpass
  obtain ⟨-, hordinary⟩ := canSend_iff.mp hsend
  refine ⟨⟨hids, ?_⟩, ?_⟩
  · have hcount := h.ordinary
    simp only [ordinaryInFlight, List.countP_append, List.countP_singleton,
      Entry.sent_priority] at hcount ⊢
    by_cases hprio : e.priority = .queued
    · have hzero := ordinaryInFlight_eq_zero_iff.mpr (hordinary hprio).2
      rw [ordinaryInFlight] at hzero
      simp [hzero, hprio]
    · simpa [hprio] using hcount
  · intro hprio
    exact ⟨(hordinary hprio).1, q.inFlight, rfl, (hordinary hprio).2⟩

theorem SingleFlight.pump {q : CommandQueue κ} (h : q.SingleFlight)
    (nowMs : UInt64) : (q.pump nowMs).1.SingleFlight :=
  pump_invariant h fun _ _ _ hI hpass => (hI.pumpPass hpass).1

theorem SingleFlight.pump_events {q : CommandQueue κ} (h : q.SingleFlight)
    (nowMs : UInt64) : ∀ ev ∈ (q.pump nowMs).2, WellTimed ev :=
  CommandQueue.pump_events h fun _ _ _ hI hpass => hI.pumpPass hpass

/-- Dropping entries keeps single flight. -/
theorem SingleFlight.sublist {q : CommandQueue κ} (h : q.SingleFlight)
    {pending inFlight : List (Entry κ)} (hp : pending.Sublist q.pending)
    (hf : inFlight.Sublist q.inFlight) :
    SingleFlight { q with pending := pending, inFlight := inFlight } :=
  ⟨h.ids.sublist ((hp.append hf).map _), Nat.le_trans hf.countP_le h.ordinary⟩

theorem SingleFlight.push {q : CommandQueue κ} (h : q.SingleFlight) {e : Entry κ}
    (he : e.id ∉ q.outstanding.map Entry.id) : (q.push e).SingleFlight := by
  refine ⟨?_, ?_⟩
  · have hcons : (e.id :: q.outstanding.map Entry.id).Nodup :=
      List.nodup_cons.mpr ⟨he, h.ids⟩
    exact hcons.perm ((q.push_outstanding e).map _).symm
  · rw [ordinaryInFlight, push_inFlight]
    exact h.ordinary

theorem SingleFlight.activate {q : CommandQueue κ} (h : q.SingleFlight) (done : κ)
    (op : QueueOp) :
    (q.activate done op).queue.SingleFlight ∧
      ∀ ev ∈ (q.activate done op).events, WellTimed ev := by
  have hactivates := q.activates done op
  generalize q.activate done op = act at hactivates ⊢
  cases hactivates with
  | refused => exact ⟨h, by simp [WellTimed]⟩
  | accepted id payload priority nowMs e he hnew =>
      have hpush := h.push hnew
      refine ⟨hpush.pump nowMs, ?_⟩
      intro ev hev
      rw [List.mem_cons] at hev
      rcases hev with rfl | hev
      · trivial
      · exact hpush.pump_events nowMs ev hev
  | opened nowMs =>
      have hset : SingleFlight { q with ready := true } := ⟨h.ids, h.ordinary⟩
      exact ⟨hset.pump nowMs, hset.pump_events nowMs⟩
  | shut => exact ⟨⟨h.ids, h.ordinary⟩, by simp⟩
  | unknown => exact ⟨h, by simp⟩
  | answered => exact ⟨h.sublist (List.Sublist.refl _) List.eraseP_sublist, by simp⟩
  | swept nowMs =>
      exact ⟨h.sublist List.filter_sublist List.filter_sublist, by simp [tick]⟩
  | canceled =>
      exact ⟨h.sublist (List.nil_sublist _) (List.nil_sublist _), by simp [cancelAll]⟩

end CommandQueue

namespace Machine

open CommandQueue

theorem singleFlight {m : Machine} (h : lts.Reachable m) : m.queue.SingleFlight :=
  queue_invariant (I := SingleFlight)
    (fun _ => ⟨List.nodup_nil, Nat.zero_le _⟩)
    (fun _ t op hI => (hI.activate t op).1) (fun _ nowMs hI => hI.pump nowMs) h

/-- Every event in the log of a reachable machine is well timed. -/
theorem wellTimed_of_mem_log {m : Machine} (h : lts.Reachable m) :
    ∀ ev, LogEntry.did ev ∈ m.log → WellTimed ev := by
  have hboth : m.queue.SingleFlight ∧ ∀ ev, LogEntry.did ev ∈ m.log → WellTimed ev := by
    refine invariant (I := fun m => m.queue.SingleFlight ∧
      ∀ ev, LogEntry.did ev ∈ m.log → WellTimed ev) ?_ ?_ ?_ h
    · intro opts
      exact ⟨⟨List.nodup_nil, Nat.zero_le _⟩, by simp⟩
    · intro m op ⟨hI, hlog⟩
      obtain ⟨hI', hevents⟩ := hI.activate m.issued op
      refine ⟨hI', ?_⟩
      intro ev hev
      simp only [begin, List.mem_append, List.mem_cons, reduceCtorEq, false_or,
        List.mem_map, LogEntry.did.injEq, exists_eq_right] at hev
      exact hev.elim (hlog ev) (hevents ev)
    · intro m m' ⟨hI, hlog⟩ hstep
      rcases proceed_eq_some hstep with
        ⟨c, cs, resume, result, fs, -, rfl⟩ | ⟨resume, result, fs, -, rfl⟩
      · refine ⟨hI, ?_⟩
        intro ev hev
        simp only [List.mem_append, List.mem_singleton, LogEntry.did.injEq] at hev
        rcases hev with hev | rfl
        · exact hlog ev hev
        · trivial
      · cases resume with
        | none =>
            refine ⟨hI, ?_⟩
            intro ev hev
            simp only [CommandQueue.resume, List.map_nil, List.nil_append,
              List.mem_append, List.mem_singleton, reduceCtorEq, or_false] at hev
            exact hlog ev hev
        | some nowMs =>
            refine ⟨hI.pump nowMs, ?_⟩
            intro ev hev
            simp only [CommandQueue.resume, List.mem_append, List.mem_map,
              LogEntry.did.injEq, exists_eq_right, List.mem_singleton, reduceCtorEq,
              or_false] at hev
            exact hev.elim (hlog ev) (hI.pump_events nowMs ev)
  exact hboth.2

/-- The refusal of a submission whose id is outstanding: the callback is
invoked with `rejected`, nothing else happens, and the operation has only to
return `false` when the callback does. -/
theorem step_submit_duplicate (m : Machine) {id : CorrelationId}
    (hdup : id ∈ m.queue.outstanding.map Entry.id) (payload : Bytes)
    (priority : Priority) (nowMs : UInt64) :
    m.step (.call (.submit id payload priority nowMs)) = some
      { queue := m.queue
        stack := ⟨[], none, false⟩ :: m.stack
        issued := m.issued + 1
        log := m.log ++ [.called m.issued (.submit id payload priority nowMs),
          .did (.refused m.issued),
          .did (.completed ⟨m.issued, .rejected, []⟩)] } := by
  rcases m.queue.submit_cases id payload priority m.issued nowMs with
    ⟨-, hrefused⟩ | ⟨e, rfl, hnew, -⟩
  · simp [step, begin, activate, hrefused, proceed]
  · exact absurd hdup hnew

/-- Single flight, serialization and gating over whole runs, callbacks that
call the queue again included.  In every reachable state the outstanding ids
are distinct and at most one ordinary command is in flight; every write of an
ordinary command was made with the gate open and no other ordinary command in
flight; and a submission whose id is outstanding is refused: it completes as
`rejected` and returns `false`, touching neither the queue nor the wire. -/
theorem single_flight_and_gating {m : Machine} (h : lts.Reachable m) :
    ((m.queue.pending ++ m.queue.inFlight).map Entry.id).Nodup ∧
    m.queue.inFlight.countP (fun e => e.priority == .queued) ≤ 1 ∧
    (∀ e q, LogEntry.did (.wrote e q) ∈ m.log → e.priority = .queued →
      q.ready = true ∧ ∃ others, q.inFlight = others ++ [e] ∧
        ∀ f ∈ others, f.priority ≠ .queued) ∧
    ∀ id payload priority nowMs,
      id ∈ (m.queue.pending ++ m.queue.inFlight).map Entry.id →
      (∃ m', m.step (.call (.submit id payload priority nowMs)) = some m' ∧
        m'.queue = m.queue ∧
        m'.stack = ⟨[], none, false⟩ :: m.stack ∧
        m'.log = m.log ++ [.called m.issued (.submit id payload priority nowMs),
          .did (.refused m.issued),
          .did (.completed ⟨m.issued, .rejected, []⟩)]) ∧
      ∀ n : Machine, n.stack = ⟨[], none, false⟩ :: m.stack →
        n.step .ret = some
          { n with stack := m.stack, log := n.log ++ [.returned false] } := by
  have hsingle := singleFlight h
  refine ⟨hsingle.ids, hsingle.ordinary, ?_, ?_⟩
  · intro e q hmem
    exact wellTimed_of_mem_log h _ hmem
  · intro id payload priority nowMs hdup
    refine ⟨⟨_, step_submit_duplicate m hdup payload priority nowMs, rfl, rfl, rfl⟩, ?_⟩
    intro n hstack
    simp [step, proceed, hstack, CommandQueue.resume]

/-- An ordinary command waits behind a fastpass one until the gate opens, and is
then written. -/
theorem single_flight_and_gating_opened_gate :
    ∃ m, lts.Reachable m ∧ m.queue.inFlight.map Entry.id = [3, 4] ∧
      ((m.queue.pending ++ m.queue.inFlight).map Entry.id).Nodup := by
  obtain ⟨m, hm, hids⟩ : ∃ m, Lts.exec step { queue := { opts := {} } }
      [.call (.submit 4 [1, 4] .queued 10), .call (.submit 3 [1, 3] .fastpass 11),
        .call (.setReady true 12)] = some m ∧
      m.queue.inFlight.map Entry.id = [3, 4] := ⟨_, rfl, rfl⟩
  have hreach : lts.Reachable m := Lts.reachable_of_exec ⟨_, rfl⟩ hm
  exact ⟨m, hreach, hids, (single_flight_and_gating hreach).1⟩

end Machine

end GoproNative
