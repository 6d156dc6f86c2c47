import GoproNative.Queue.Ledger

/-!
# Ordinary commands keep their order

The pump scans past entries it cannot send, keep-alives enter at the front and
deadlines remove entries in the middle.  What the ordinary commands see of this
is a queue: a pass that sends one sends the first of them, since every ordinary
command before it would have been as sendable.  So the commands written, followed
by the ones that wait, are at every moment a subsequence of the commands accepted.
-/

namespace GoproNative

variable {κ : Type}

/-- The submission of an ordinary command. -/
def Entry.ordinary (e : Entry κ) : Option κ :=
  if e.priority = .queued then some e.done else none

theorem Entry.ordinary_of_queued {e : Entry κ} (h : e.priority = .queued) :
    e.ordinary = some e.done :=
  if_pos h

theorem Entry.ordinary_of_not_queued {e : Entry κ} (h : e.priority ≠ .queued) :
    e.ordinary = none :=
  if_neg h

@[simp] theorem Entry.sent_ordinary (e : Entry κ) (nowMs : UInt64) :
    (e.sent nowMs).ordinary = e.ordinary := rfl

/-- The ordinary commands of a container, front to back. -/
def ordinaries (es : List (Entry κ)) : List κ := es.filterMap Entry.ordinary

@[simp] theorem ordinaries_append (xs ys : List (Entry κ)) :
    ordinaries (xs ++ ys) = ordinaries xs ++ ordinaries ys :=
  List.filterMap_append

def QueueEvent.ordinaryAccepted : QueueEvent κ → Option κ
  | .accepted e => e.ordinary
  | _ => none

def QueueEvent.ordinaryWritten : QueueEvent κ → Option κ
  | .wrote e _ => e.ordinary
  | _ => none

/-- The ordinary commands in the order in which they were accepted. -/
def acceptedOrder (evs : List (QueueEvent κ)) : List κ :=
  evs.filterMap QueueEvent.ordinaryAccepted

/-- The ordinary commands in the order in which they reached the wire. -/
def writtenOrder (evs : List (QueueEvent κ)) : List κ :=
  evs.filterMap QueueEvent.ordinaryWritten

@[simp] theorem acceptedOrder_append (xs ys : List (QueueEvent κ)) :
    acceptedOrder (xs ++ ys) = acceptedOrder xs ++ acceptedOrder ys :=
  List.filterMap_append

@[simp] theorem writtenOrder_append (xs ys : List (QueueEvent κ)) :
    writtenOrder (xs ++ ys) = writtenOrder xs ++ writtenOrder ys :=
  List.filterMap_append

@[simp] theorem acceptedOrder_completed (c : Call κ) :
    acceptedOrder [.completed c] = [] := rfl

@[simp] theorem writtenOrder_completed (c : Call κ) :
    writtenOrder [.completed c] = [] := rfl

def QueueEvent.writtenDone : QueueEvent κ → Option κ
  | .wrote e _ => some e.done
  | _ => none

/-- The commands that reached the wire, of whatever priority. -/
def writtenDones (evs : List (QueueEvent κ)) : List κ :=
  evs.filterMap QueueEvent.writtenDone

@[simp] theorem writtenDones_append (xs ys : List (QueueEvent κ)) :
    writtenDones (xs ++ ys) = writtenDones xs ++ writtenDones ys :=
  List.filterMap_append

theorem mem_writtenDones {evs : List (QueueEvent κ)} {done : κ} :
    done ∈ writtenDones evs ↔ ∃ e q, .wrote e q ∈ evs ∧ e.done = done := by
  rw [writtenDones, List.mem_filterMap]
  constructor
  · rintro ⟨ev, hev, hdone⟩
    cases ev with
    | wrote e q =>
        simp only [QueueEvent.writtenDone, Option.some.injEq] at hdone
        exact ⟨e, q, hev, hdone⟩
    | accepted e => simp [QueueEvent.writtenDone] at hdone
    | refused done => simp [QueueEvent.writtenDone] at hdone
    | completed c => simp [QueueEvent.writtenDone] at hdone
  · rintro ⟨e, q, hev, rfl⟩
    exact ⟨_, hev, rfl⟩

theorem acceptedOrder_of_onlyWrites {evs : List (QueueEvent κ)}
    (h : ∀ ev ∈ evs, ∃ e q, ev = .wrote e q) : acceptedOrder evs = [] := by
  rw [acceptedOrder, List.filterMap_eq_nil_iff]
  intro ev hev
  obtain ⟨e, q, rfl⟩ := h ev hev
  rfl

/-- The ordinary submissions are some of the accepted ones, in the same order. -/
theorem acceptedOrder_sublist (evs : List (QueueEvent κ)) :
    (acceptedOrder evs).Sublist (acceptedDones evs) := by
  refine List.filterMap_sublist_filterMap ?_ evs
  intro ev
  cases ev with
  | accepted e =>
      by_cases hprio : e.priority = .queued
      · exact Or.inr (e.ordinary_of_queued hprio)
      · exact Or.inl (e.ordinary_of_not_queued hprio)
  | refused done => exact Or.inl rfl
  | wrote e q => exact Or.inl rfl
  | completed c => exact Or.inl rfl

theorem ordinaries_sublist (es : List (Entry κ)) :
    (ordinaries es).Sublist (es.map Entry.done) := by
  rw [← List.filterMap_eq_map]
  refine List.filterMap_sublist_filterMap ?_ es
  intro e
  by_cases hprio : e.priority = .queued
  · exact Or.inr (e.ordinary_of_queued hprio)
  · exact Or.inl (e.ordinary_of_not_queued hprio)

namespace CommandQueue

variable {q q' : CommandQueue κ} {nowMs : UInt64}

/-- The ordinary command a pass writes is the first of the waiting ones. -/
theorem pumpPass_ordinaries {ev : QueueEvent κ} (h : q.SingleFlight)
    (hpass : q.pumpPass nowMs = some (ev, q')) :
    writtenOrder [ev] ++ ordinaries q'.pending = ordinaries q.pending := by
  obtain ⟨e, as, bs, hpending, hsend, hblocked, rfl, rfl⟩ := pumpPass_eq_some hpass
  by_cases hprio : e.priority = .queued
  · have hnone : ordinaries as = [] := by
      rw [ordinaries, List.filterMap_eq_nil_iff]
      intro x hx
      refine x.ordinary_of_not_queued fun hprio' => ?_
      -- The gate is open and the slot is free, and the id of `x` is its own.
      have hopen : q.canSend x = true := canSend_iff.mpr
        ⟨fun f hf => h.pending_free (by simp [hpending, hx]) hf,
          fun _ => (canSend_iff.mp hsend).2 hprio⟩
      simp [hblocked x hx] at hopen
    simp only [hpending, ordinaries_append, hnone, List.nil_append]
    simp [writtenOrder, QueueEvent.ordinaryWritten, ordinaries,
      e.ordinary_of_queued hprio]
  · simp only [hpending, ordinaries_append]
    simp [writtenOrder, QueueEvent.ordinaryWritten, ordinaries,
      e.ordinary_of_not_queued hprio]

theorem pump_ordinaries (h : q.SingleFlight) (nowMs : UInt64) :
    writtenOrder (q.pump nowMs).2 ++ ordinaries (q.pump nowMs).1.pending =
      ordinaries q.pending := by
  have hboth := (pump_run q nowMs).history (I := fun evs q₁ => q₁.SingleFlight ∧
    writtenOrder evs ++ ordinaries q₁.pending = ordinaries q.pending) ⟨h, rfl⟩ ?_
  · exact hboth.2
  · intro evs q₁ ev q₂ ⟨hsingle, hkept⟩ hpass
    refine ⟨(hsingle.pumpPass hpass).1, ?_⟩
    rw [writtenOrder_append, List.append_assoc, pumpPass_ordinaries hsingle hpass, hkept]

/-- An accepted submission joins at the back of the ordinary commands, or is none
of them. -/
theorem push_ordinaries (q : CommandQueue κ) (e : Entry κ) :
    ordinaries (q.push e).pending = ordinaries q.pending ++ ordinaries [e] := by
  unfold push
  split
  · next hprio =>
    have hskip : e.ordinary = none := e.ordinary_of_not_queued (by simp [hprio])
    simp [ordinaries, hskip]
  · exact ordinaries_append q.pending [e]

/-- What an operation writes and what waits after it, is what waited before and
what it accepted, less what it dropped. -/
theorem activate_ordinaries (h : q.SingleFlight) (done : κ) (op : QueueOp) :
    (writtenOrder (q.activate done op).events ++
        ordinaries (q.activate done op).queue.pending).Sublist
      (ordinaries q.pending ++ acceptedOrder (q.activate done op).events) := by
  have hactivates := q.activates done op
  generalize q.activate done op = act at hactivates ⊢
  cases hactivates with
  | accepted id payload priority nowMs e he hnew =>
      have hnone := acceptedOrder_of_onlyWrites (pump_wrote (q.push e) nowMs)
      have hwritten : writtenOrder (.accepted e :: ((q.push e).pump nowMs).2) =
          writtenOrder ((q.push e).pump nowMs).2 := rfl
      have hjoins : acceptedOrder (.accepted e :: ((q.push e).pump nowMs).2) =
          ordinaries [e] := by
        rw [← List.singleton_append, acceptedOrder_append, hnone, List.append_nil]
        rfl
      rw [hwritten, hjoins, pump_ordinaries (h.push hnew) nowMs, push_ordinaries]
  | opened nowMs =>
      have hset : SingleFlight { q with ready := true } := ⟨h.ids, h.ordinary⟩
      have hkept := pump_ordinaries hset nowMs
      exact hkept ▸ List.sublist_append_left _ _
  | refused | shut | unknown | answered => exact List.sublist_append_left _ _
  | swept =>
      exact (List.filter_sublist.filterMap _).trans (List.sublist_append_left _ _)
  | canceled => exact List.nil_sublist _

/-! ## What waits has not been written -/

/-- The pump writes what it takes out of `pending`. -/
theorem pump_writtenDones (q : CommandQueue κ) (nowMs : UInt64) :
    (↑(writtenDones (q.pump nowMs).2) + ↑((q.pump nowMs).1.pending.map Entry.done) :
      Multiset κ) = ↑(q.pending.map Entry.done) := by
  refine (pump_run q nowMs).history (I := fun evs q₁ =>
    (↑(writtenDones evs) + ↑(q₁.pending.map Entry.done) : Multiset κ) =
      ↑(q.pending.map Entry.done)) (zero_add _) ?_
  intro evs q₁ ev q₂ hkept hpass
  obtain ⟨e, as, bs, hpending, -, -, rfl, rfl⟩ := pumpPass_eq_some hpass
  rw [← hkept, hpending, writtenDones_append, Multiset.coe_add, Multiset.coe_add,
    Multiset.coe_eq_coe, List.append_assoc]
  apply List.Perm.append_left _
  simpa [writtenDones, QueueEvent.writtenDone] using List.perm_middle.symm

theorem resume_writtenDones (q : CommandQueue κ) (resume : Option UInt64) :
    (↑(writtenDones (q.resume resume).2) +
      ↑((q.resume resume).1.pending.map Entry.done) : Multiset κ) =
        ↑(q.pending.map Entry.done) := by
  cases resume with
  | none => exact zero_add _
  | some nowMs => exact pump_writtenDones q nowMs

/-- What an operation writes and what waits after it, waited before or was accepted
by it. -/
theorem activate_writtenDones (q : CommandQueue κ) (done : κ) (op : QueueOp) :
    (↑(writtenDones (q.activate done op).events) +
      ↑((q.activate done op).queue.pending.map Entry.done) : Multiset κ) ≤
      ↑(acceptedDones (q.activate done op).events) + ↑(q.pending.map Entry.done) := by
  have hfewer : ∀ {pending : List (Entry κ)}, pending.Sublist q.pending →
      (↑(pending.map Entry.done) : Multiset κ) ≤ ↑(q.pending.map Entry.done) :=
    fun h => Multiset.coe_le.mpr (h.map _).subperm
  have hactivates := q.activates done op
  generalize q.activate done op = act at hactivates ⊢
  cases hactivates with
  | accepted id payload priority nowMs e he =>
      have hpush : (↑((q.push e).pending.map Entry.done) : Multiset κ) =
          ↑(e.done :: q.pending.map Entry.done) :=
        Multiset.coe_eq_coe.mpr ((q.push_pending e).map _)
      have hwritten : writtenDones (.accepted e :: ((q.push e).pump nowMs).2) =
          writtenDones ((q.push e).pump nowMs).2 := rfl
      obtain ⟨hacc, -, -⟩ := onlyWrites_reads (pump_wrote (q.push e) nowMs)
      rw [hwritten, pump_writtenDones, hpush, acceptedDones_cons_accepted, hacc]
      exact le_refl _
  | opened nowMs =>
      obtain ⟨hacc, -, -⟩ := onlyWrites_reads (pump_wrote { q with ready := true } nowMs)
      rw [pump_writtenDones, hacc, Multiset.coe_nil, zero_add]
  | refused | shut | unknown | answered => exact le_refl _
  | swept => exact add_le_add_right (hfewer List.filter_sublist) _
  | canceled => exact add_le_add_right (hfewer (List.nil_sublist _)) _

end CommandQueue

namespace Machine

open CommandQueue

/-- Written and waiting ordinary commands stand in the order of acceptance. -/
def InOrder (m : Machine) : Prop :=
  (writtenOrder (eventsOf m.log) ++ ordinaries m.queue.pending).Sublist
    (acceptedOrder (eventsOf m.log))

theorem InOrder.begin {m : Machine} (h : m.InOrder) (hsingle : m.queue.SingleFlight)
    (op : QueueOp) : (m.begin op).InOrder := by
  have hevents : eventsOf (m.begin op).log =
      eventsOf m.log ++ (m.queue.activate m.issued op).events := by
    simp [Machine.begin]
  have hqueue : (m.begin op).queue = (m.queue.activate m.issued op).queue := rfl
  rw [InOrder, hevents, hqueue, writtenOrder_append, acceptedOrder_append,
    List.append_assoc]
  refine ((activate_ordinaries hsingle m.issued op).append_left _).trans ?_
  rw [← List.append_assoc]
  exact h.append_right _

theorem InOrder.proceed {m m' : Machine} (h : m.InOrder)
    (hsingle : m.queue.SingleFlight) (hstep : m.proceed = some m') : m'.InOrder := by
  rcases proceed_eq_some hstep with
    ⟨c, cs, resume, result, fs, -, rfl⟩ | ⟨resume, result, fs, -, rfl⟩
  · rw [InOrder, eventsOf_append, eventsOf_completed, writtenOrder_append,
      acceptedOrder_append, writtenOrder_completed, acceptedOrder_completed,
      List.append_nil, List.append_nil]
    exact h
  · have hkept : writtenOrder (m.queue.resume resume).2 ++
        ordinaries (m.queue.resume resume).1.pending = ordinaries m.queue.pending := by
      cases resume with
      | none => rfl
      | some nowMs => exact pump_ordinaries hsingle nowMs
    rw [InOrder, eventsOf_append, eventsOf_append, eventsOf_map_did, eventsOf_returned,
      List.append_nil, writtenOrder_append, acceptedOrder_append, List.append_assoc,
      hkept, acceptedOrder_of_onlyWrites (resume_wrote m.queue resume), List.append_nil]
    exact h

theorem inOrder {m : Machine} (h : lts.Reachable m) : m.InOrder := by
  have hboth : m.queue.SingleFlight ∧ m.InOrder := by
    refine invariant (I := fun m => m.queue.SingleFlight ∧ m.InOrder) ?_ ?_ ?_ h
    · intro opts
      exact ⟨⟨List.nodup_nil, Nat.zero_le _⟩, List.Sublist.refl _⟩
    · intro m op ⟨hsingle, hI⟩
      exact ⟨(hsingle.activate m.issued op).1, hI.begin hsingle op⟩
    · intro m m' ⟨hsingle, hI⟩ hstep
      refine ⟨?_, hI.proceed hsingle hstep⟩
      rcases proceed_eq_some hstep with
        ⟨c, cs, resume, result, fs, -, rfl⟩ | ⟨resume, result, fs, -, rfl⟩
      · exact hsingle
      · cases resume with
        | none => exact hsingle
        | some nowMs => exact hsingle.pump nowMs
  exact hboth.2

/-- What was written and what waits was accepted, each submission once. -/
def WrittenOnce (m : Machine) : Prop :=
  (↑(writtenDones (eventsOf m.log)) + ↑(m.queue.pending.map Entry.done) :
    Multiset Ticket) ≤ ↑(acceptedDones (eventsOf m.log))

theorem WrittenOnce.begin {m : Machine} (h : m.WrittenOnce) (op : QueueOp) :
    (m.begin op).WrittenOnce := by
  have hevents : eventsOf (m.begin op).log =
      eventsOf m.log ++ (m.queue.activate m.issued op).events := by
    simp [Machine.begin]
  have hqueue : (m.begin op).queue = (m.queue.activate m.issued op).queue := rfl
  rw [WrittenOnce, hevents, hqueue, writtenDones_append, acceptedDones_append,
    ← Multiset.coe_add, ← Multiset.coe_add, add_assoc]
  have hlocal := activate_writtenDones m.queue m.issued op
  refine (add_le_add_right hlocal _).trans ?_
  rw [add_left_comm, add_comm]
  exact add_le_add_left h _

theorem WrittenOnce.proceed {m m' : Machine} (h : m.WrittenOnce)
    (hstep : m.proceed = some m') : m'.WrittenOnce := by
  rcases proceed_eq_some hstep with
    ⟨c, cs, resume, result, fs, -, rfl⟩ | ⟨resume, result, fs, -, rfl⟩
  · have hwritten : writtenDones [QueueEvent.completed c] = [] := rfl
    have haccepted : acceptedDones [QueueEvent.completed c] = [] := rfl
    rw [WrittenOnce, eventsOf_append, eventsOf_completed, writtenDones_append,
      acceptedDones_append, hwritten, haccepted, List.append_nil, List.append_nil]
    exact h
  · obtain ⟨hacc, -, -⟩ := onlyWrites_reads (resume_wrote m.queue resume)
    rw [WrittenOnce, eventsOf_append, eventsOf_append, eventsOf_map_did, eventsOf_returned,
      List.append_nil, writtenDones_append, acceptedDones_append, hacc, List.append_nil,
      ← Multiset.coe_add, add_assoc, resume_writtenDones]
    exact h

theorem writtenOnce {m : Machine} (h : lts.Reachable m) : m.WrittenOnce :=
  invariant (fun _ => le_refl _) (fun _ op hI => hI.begin op)
    (fun _ _ hI hstep => hI.proceed hstep) h

/-- What waits has not been written. -/
theorem not_written_of_pending {m : Machine} (h : lts.Reachable m) {e : Entry Ticket}
    (he : e ∈ m.queue.pending) {f : Entry Ticket} {q : CommandQueue Ticket}
    (hwrote : LogEntry.did (.wrote f q) ∈ m.log) : f.done ≠ e.done := by
  intro hfe
  have hnodup := Multiset.nodup_of_le (writtenOnce h)
    (Multiset.nodup_add.mp (ledger h).distinct).1
  refine Multiset.disjoint_left.mp (Multiset.nodup_add.mp hnodup).2.2
    (Multiset.mem_coe.mpr (mem_writtenDones.mpr ⟨f, q, mem_eventsOf.mpr hwrote, hfe⟩)) ?_
  exact Multiset.mem_coe.mpr (List.mem_map_of_mem he)

/-- Ordinary commands reach the wire in the order in which they were accepted, over
every run, callbacks that submit included.  Each submission is accepted at most
once, so its place in that order is its own; and the commands that still wait come
after the ones written, in that order too. -/
theorem ordinary_commands_keep_order {m : Machine} (h : lts.Reachable m) :
    (writtenOrder (eventsOf m.log) ++ ordinaries m.queue.pending).Sublist
        (acceptedOrder (eventsOf m.log)) ∧
      (writtenOrder (eventsOf m.log)).Sublist (acceptedOrder (eventsOf m.log)) ∧
      (acceptedOrder (eventsOf m.log)).Nodup := by
  have horder := inOrder h
  refine ⟨horder, (List.sublist_append_left _ _).trans horder, ?_⟩
  exact (Multiset.nodup_add.mp (ledger h).distinct).1.sublist (acceptedOrder_sublist _)

/-- The first of two waiting commands expires, and its callback submits a third; a
keep-alive passes them all.  The second and the third are written in that order. -/
def expiryRun : List Action :=
  [.call (.submit 1 [1, 1] .queued 0), .call (.submit 2 [1, 2] .queued 30),
    .call (.submit 3 [1, 3] .keepAlive 40), .call (.tick 55),
    .call (.submit 4 [1, 4] .queued 56), .ret, .call (.setReady true 60),
    .call (.onResponse 2 [] 70), .ret]

theorem ordinary_commands_keep_order_expiry :
    ∃ m, lts.Reachable m ∧ acceptedOrder (eventsOf m.log) = [0, 1, 4] ∧
      writtenOrder (eventsOf m.log) = [1, 4] ∧
      (acceptedOrder (eventsOf m.log)).Nodup := by
  obtain ⟨m, hm, haccepted, hwritten⟩ : ∃ m,
      Lts.exec step { queue := { opts := { queueTimeoutMs := 50 } } } expiryRun = some m ∧
      acceptedOrder (eventsOf m.log) = [0, 1, 4] ∧
      writtenOrder (eventsOf m.log) = [1, 4] := ⟨_, rfl, rfl, rfl⟩
  have hreach : lts.Reachable m := Lts.reachable_of_exec ⟨_, rfl⟩ hm
  exact ⟨m, hreach, haccepted, hwritten, (ordinary_commands_keep_order hreach).2.2⟩

end Machine

end GoproNative
