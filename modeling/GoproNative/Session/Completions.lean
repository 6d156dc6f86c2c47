import GoproNative.Session.KeepAlive
import GoproNative.Queue.Conservation

/-!
# What a session owes

A session owes a report to every submission it accepted and has not reported on.
A call of the session that brings no submission pays some of what is owed and
owes nothing new, so under every id the reports made followed by what is still
owed are what was owed before.  A submission is either accepted, and owed last, or
refused, and reported on at once.
-/

namespace GoproNative

/-- A report on a submission, made or owed. -/
structure Report where
  submission : Submission
  /-- Whether it tells that the submission was refused. -/
  refused : Bool
  deriving DecidableEq

def SessionEvent.report? : SessionEvent → Option Report
  | .response s outcome _ => some ⟨s, outcome == .rejected⟩
  | _ => none

/-- The reports among some events, in order. -/
def reports (evs : List SessionEvent) : List Report :=
  evs.filterMap SessionEvent.report?

@[simp] theorem reports_append (xs ys : List SessionEvent) :
    reports (xs ++ ys) = reports xs ++ reports ys :=
  List.filterMap_append

/-- The reports under an id. -/
def under (id : CorrelationId) (l : List Report) : List Report :=
  l.filter fun r => r.submission.id == id

@[simp] theorem under_append (id : CorrelationId) (xs ys : List Report) :
    under id (xs ++ ys) = under id xs ++ under id ys :=
  List.filter_append ..

theorem under_cons (id : CorrelationId) (r : Report) (l : List Report) :
    under id (r :: l) = if r.submission.id = id then r :: under id l else under id l := by
  simp [under, List.filter_cons]

theorem mem_under {id : CorrelationId} {r : Report} {l : List Report} :
    r ∈ under id l ↔ r ∈ l ∧ r.submission.id = id := by
  simp [under]

/-- What a callback of the queue reports. -/
def Call.report (c : Call Submission) : Report := ⟨c.done, c.outcome == .rejected⟩

theorem reports_report (attPayload : Nat) (evs : List (QueueEvent Submission)) :
    reports (evs.flatMap (BleSession.report attPayload)) =
      (completions evs).map Call.report := by
  induction evs with
  | nil => rfl
  | cons ev evs ih =>
      rw [List.flatMap_cons, reports_append, ih]
      cases ev with
      | completed c => rfl
      | _ => rfl

/-- The callbacks an operation makes are its completions. -/
theorem completions_run (q : CommandQueue Submission) (done : Submission) (op : QueueOp) :
    completions (q.activate done op).run.2 = (q.activate done op).calls := by
  have hresume := (onlyWrites_reads (CommandQueue.resume_wrote
    (q.activate done op).queue (q.activate done op).resume)).2.2
  have hcalls : completions ((q.activate done op).calls.map .completed) =
      (q.activate done op).calls := by
    simp [completions, List.filterMap_map, Function.comp_def, QueueEvent.completion]
  rw [Activation.run]
  simp only [completions_append, hresume, hcalls, (q.activate_conserves done op).2.2]
  simp

/-- An operation that brings no submission accepts and refuses none. -/
theorem activate_silent (q : CommandQueue Submission) (done : Submission) (op : QueueOp)
    (hop : ∀ id payload priority nowMs, op ≠ .submit id payload priority nowMs) :
    acceptedDones (q.activate done op).events = [] ∧
      refusedDones (q.activate done op).events = [] := by
  cases op with
  | submit id payload priority nowMs => exact absurd rfl (hop id payload priority nowMs)
  | setReady ready nowMs =>
      simp only [CommandQueue.activate, CommandQueue.setReady]
      split
      · obtain ⟨haccepted, hrefused, -⟩ :=
          onlyWrites_reads (CommandQueue.pump_wrote { q with ready := ready } nowMs)
        exact ⟨haccepted, hrefused⟩
      · exact ⟨rfl, rfl⟩
  | onResponse id data nowMs =>
      simp only [CommandQueue.activate, CommandQueue.onResponse]
      split <;> exact ⟨rfl, rfl⟩
  | tick nowMs => exact ⟨rfl, rfl⟩
  | cancelAll => exact ⟨rfl, rfl⟩

/-- Such an operation completes some of what was outstanding, and refuses none. -/
theorem run_pays (q : CommandQueue Submission) (done : Submission) (op : QueueOp)
    (hop : ∀ id payload priority nowMs, op ≠ .submit id payload priority nowMs) :
    q.dones.Perm ((q.activate done op).calls.map Call.done ++
        (q.activate done op).run.1.dones) ∧
      ∀ c ∈ (q.activate done op).calls, c.outcome ≠ .rejected := by
  obtain ⟨hconserves, hrejected, -⟩ := q.activate_conserves done op
  obtain ⟨haccepted, hrefused⟩ := activate_silent q done op hop
  rw [hrefused] at hrejected
  refine ⟨?_, ?_⟩
  · rw [← Multiset.coe_eq_coe, ← Multiset.coe_add, dones_eq_settled_add_rejected,
      ← hrejected, Activation.run, CommandQueue.resume_dones]
    rw [haccepted] at hconserves
    simpa using hconserves
  · intro c hc hout
    have hmem : c.done ∈ rejectedDones (q.activate done op).calls :=
      List.mem_map_of_mem (List.mem_filter.mpr ⟨hc, by simp [hout]⟩)
    simp [← hrejected] at hmem

/-- What the session owes. -/
def BleSession.owed (s : BleSession) : List Report := s.queue.dones.map fun done => ⟨done, false⟩

/-- The reports a call made, followed by what is owed then. -/
def Turn.ledger (t : Turn) : List Report := reports t.events ++ t.session.owed

theorem eq_of_perm_of_length_le_one {α : Type*} {l l' : List α} (h : l.Perm l')
    (hshort : l'.length ≤ 1) : l = l' := by
  match l', hshort with
  | [], _ => exact h.eq_nil
  | [x], _ => exact h.eq_singleton

namespace BleSession

variable {s : BleSession}

theorem mem_owed {r : Report} :
    r ∈ s.owed ↔ ∃ e ∈ s.queue.outstanding, r = ⟨e.done, false⟩ := by
  simp only [owed, CommandQueue.dones, List.map_map, List.mem_map, Function.comp_apply]
  exact exists_congr fun e => and_congr_right fun _ => eq_comm

/-- A call that pays some of what was owed, and owes nothing new. -/
def Pays (s : BleSession) (t : Turn) : Prop :=
  ∀ id, under id t.ledger = under id s.owed

/-- At most one submission is owed a report under an id. -/
theorem Orderly.length_under_owed (h : s.Orderly) (id : CorrelationId) :
    (under id s.owed).length ≤ 1 := by
  have hids : s.owed.map (fun r => r.submission.id) = s.queue.outstanding.map Entry.id := by
    simp only [owed, CommandQueue.dones, List.map_map]
    refine List.map_congr_left ?_
    intro e he
    exact (h.attributed e he).1
  have hnodup : (s.owed.map fun r => r.submission.id).Nodup := hids ▸ h.single.ids
  have hcount := List.nodup_iff_count_le_one.mp hnodup id
  rw [List.count, List.countP_map, List.countP_eq_length_filter] at hcount
  exact hcount

theorem Orderly.callQueue_pays (h : s.Orderly) (done : Submission) (op : QueueOp)
    (hop : ∀ id payload priority nowMs, op ≠ .submit id payload priority nowMs) :
    s.Pays (s.callQueue (s.queue.activate done op)) := by
  intro id
  obtain ⟨hperm, hnone⟩ := run_pays s.queue done op hop
  have hreports : reports (s.callQueue (s.queue.activate done op)).events =
      ((s.queue.activate done op).calls.map Call.done).map fun d => ⟨d, false⟩ := by
    rw [BleSession.callQueue, reports_report, completions_run, List.map_map]
    refine List.map_congr_left ?_
    intro c hc
    simp [Call.report, hnone c hc]
  have hledger : (Turn.ledger (s.callQueue (s.queue.activate done op))).Perm s.owed := by
    rw [Turn.ledger, hreports]
    simp only [owed, ← List.map_append]
    exact (hperm.map _).symm
  exact eq_of_perm_of_length_le_one (hledger.filter _) (h.length_under_owed id)

/-! ## Calls that bring no submission -/

/-- Nothing is paid and nothing becomes due. -/
theorem pays_of_idle {t : Turn} (hqueue : t.session.queue = s.queue)
    (hreports : reports t.events = []) : s.Pays t := by
  intro id
  rw [Turn.ledger, hreports, owed, owed, hqueue, List.nil_append]

/-- What two calls pay one after the other. -/
theorem Pays.trans {first second both : Turn} (h : s.Pays first)
    (h' : first.session.Pays second) (hqueue : both.session.queue = second.session.queue)
    (hreports : reports both.events = reports first.events ++ reports second.events) :
    s.Pays both := by
  intro id
  have howed : both.session.owed = second.session.owed := by rw [owed, owed, hqueue]
  have hsecond := h' id
  have hfirst := h id
  rw [Turn.ledger, under_append] at hsecond hfirst
  rw [Turn.ledger, hreports, howed, List.append_assoc, under_append, under_append,
    hsecond, hfirst]

theorem reports_announced (s : BleSession) (word : ReadyState) :
    reports (s.announced word) = [] := by
  unfold announced
  split <;> rfl

theorem Orderly.setGate_pays (h : s.Orderly) (word : ReadyState) (nowMs : UInt64) :
    s.Pays (s.setGate word nowMs) := by
  have hword : Orderly { s with readyState := word } := h.congr rfl rfl
  unfold BleSession.setGate
  split
  · exact pays_of_idle rfl rfl
  · exact hword.callQueue_pays nobody (.setReady word.ready nowMs) (by simp)

/-- The reports of `deliver` are those of the reply and of the gate. -/
theorem deliver_reports (s : BleSession) (channel : Channel) (message : Bytes)
    (nowMs : UInt64) :
    let reply := s.callQueue
      (s.queue.onResponse (s.answeredId channel message) message nowMs)
    reports (s.deliver channel message nowMs).events =
      reports reply.events ++ reports (reply.session.setGate
        (reply.session.readyState.hear message) nowMs).events := by
  have hcons : ∀ evs, reports (.received channel message :: evs) = reports evs :=
    fun _ => rfl
  unfold deliver
  simp only [hcons, reports_append]
  congr 1
  split
  · rw [(foldReply_eq _ message nowMs).2, reports_append, reports_announced,
      List.nil_append]
  · have hpush : ∀ parsed, reports [.push channel parsed message] = [] := fun _ => rfl
    rw [(foldPush_eq _ channel message nowMs).2, reports_append, reports_append,
      reports_announced, hpush, List.append_nil, List.append_nil]

theorem Orderly.deliver_pays (h : s.Orderly) (channel : Channel) (message : Bytes)
    (nowMs : UInt64) : s.Pays (s.deliver channel message nowMs) := by
  let reply := s.callQueue
    (s.queue.onResponse (s.answeredId channel message) message nowMs)
  have hreply : s.Pays reply := h.callQueue_pays nobody
    (.onResponse (s.answeredId channel message) message nowMs) (by simp)
  have hgate : reply.session.Pays
      (reply.session.setGate (reply.session.readyState.hear message) nowMs) :=
    (h.onResponse _ message nowMs).setGate_pays _ nowMs
  exact hreply.trans hgate (by rw [deliver_session]; rfl)
    (s.deliver_reports channel message nowMs)

theorem Orderly.feed_pays (h : s.Orderly) (channel : Channel) (packet : Bytes)
    (nowMs : UInt64) : s.Pays (s.feed channel packet nowMs) := by
  unfold BleSession.feed
  simp only
  split
  · exact pays_of_idle rfl rfl
  · have hrx : Orderly { s with
        rx := Function.update s.rx channel ((s.rx channel).feed packet).2.take.2 } :=
      h.congr rfl rfl
    exact hrx.deliver_pays channel _ nowMs
  · exact pays_of_idle rfl rfl

theorem setAttPayload_pays (s : BleSession) (bytes : Nat) :
    s.Pays { session := s.setAttPayload bytes } := by
  rw [setAttPayload_eq]
  exact pays_of_idle rfl rfl

/-- A disconnect pays everything. -/
theorem onDisconnect_owed (s : BleSession) : s.onDisconnect.session.owed = [] := rfl

theorem Orderly.onDisconnect_pays (h : s.Orderly) : s.Pays s.onDisconnect := by
  let emptied : BleSession := { s with rx := fun _ => {} }
  let canceled := emptied.callQueue emptied.queue.cancelAll
  let reset : BleSession :=
    { canceled.session with readyState := canceled.session.readyState.reset }
  have hempty : emptied.Orderly := h.congr rfl rfl
  have hcanceled : s.Pays canceled := hempty.callQueue_pays nobody .cancelAll (by simp)
  have hreset : reset.Orderly := hempty.cancelAll.congr rfl rfl
  have hset : canceled.session.Pays (reset.callQueue (reset.queue.setReady false 0)) :=
    hreset.callQueue_pays nobody (.setReady false 0) (by simp)
  have hclosed : reports (if s.readyState.ready then [.ready false] else []) = [] := by
    split <;> rfl
  refine hcanceled.trans hset rfl ?_
  change reports (canceled.events ++ _ ++ if s.readyState.ready then _ else _) = _
  rw [reports_append, reports_append, hclosed, List.append_nil]

/-! ## Submissions -/

theorem Orderly.under_owed_eq_nil (h : s.Orderly) {id : CorrelationId}
    (hfree : id ∉ s.queue.outstanding.map Entry.id) : under id s.owed = [] := by
  refine List.filter_eq_nil_iff.mpr ?_
  intro r hr hid
  obtain ⟨e, he, rfl⟩ := mem_owed.mp hr
  rw [beq_iff_eq, (h.attributed e he).1] at hid
  exact hfree (hid ▸ List.mem_map_of_mem he)

/-- A submission whose id is taken is refused, and reported on at once.  Any other
is accepted, and owed a report. -/
theorem Orderly.enqueue_cases (h : s.Orderly) (id : CorrelationId) (payload : Bytes)
    (priority : Priority) (byTick : Bool) (nowMs : UInt64) :
    (id ∈ s.queue.outstanding.map Entry.id ∧
      (s.enqueue id payload priority byTick nowMs).result = false ∧
      reports (s.enqueue id payload priority byTick nowMs).events =
        [⟨⟨id, s.submissions, byTick⟩, true⟩] ∧
      (s.enqueue id payload priority byTick nowMs).session.owed = s.owed) ∨
    (id ∉ s.queue.outstanding.map Entry.id ∧
      (s.enqueue id payload priority byTick nowMs).result = true ∧
      reports (s.enqueue id payload priority byTick nowMs).events = [] ∧
      ∀ id', under id' (s.enqueue id payload priority byTick nowMs).session.owed =
        if id = id' then [⟨⟨id, s.submissions, byTick⟩, false⟩]
        else under id' s.owed) := by
  rcases s.queue.submit_cases id payload priority ⟨id, s.submissions, byTick⟩ nowMs with
    ⟨htaken, hrefused⟩ | ⟨e, rfl, hfree, haccepted⟩
  · left
    refine ⟨htaken, ?_, ?_, ?_⟩
    · rw [BleSession.enqueue, hrefused]
      rfl
    · rw [BleSession.enqueue, hrefused]
      rfl
    · rw [BleSession.enqueue, hrefused]
      rfl
  · right
    let e : Entry Submission :=
      ⟨id, payload, priority, ⟨id, s.submissions, byTick⟩, nowMs, 0⟩
    have hdones : ((s.queue.push e).pump nowMs).1.dones.Perm (e.done :: s.queue.dones) :=
      (CommandQueue.pump_outstanding (fun e => e.sent_done nowMs) _).trans
        ((s.queue.push_outstanding e).map Entry.done)
    have howed : (s.enqueue id payload priority byTick nowMs).session.owed.Perm
        (⟨⟨id, s.submissions, byTick⟩, false⟩ :: s.owed) := by
      rw [BleSession.enqueue, haccepted]
      exact hdones.map _
    refine ⟨hfree, ?_, ?_, ?_⟩
    · rw [BleSession.enqueue, haccepted]
      rfl
    · have hcompleted := completions_run s.queue ⟨id, s.submissions, byTick⟩
        (.submit id payload priority nowMs)
      rw [CommandQueue.activate, haccepted] at hcompleted
      rw [BleSession.enqueue, haccepted, BleSession.callQueue, reports_report, hcompleted]
      rfl
    · intro id'
      have hunder := howed.filter fun r => r.submission.id == id'
      rw [List.filter_cons] at hunder
      by_cases hid : id = id'
      · subst hid
        have hnone := h.under_owed_eq_nil hfree
        rw [under] at hnone
        rw [if_pos rfl]
        rw [if_pos (beq_self_eq_true _), hnone] at hunder
        exact hunder.eq_singleton
      · rw [if_neg hid]
        rw [if_neg (by simpa using hid)] at hunder
        exact eq_of_perm_of_length_le_one hunder (h.length_under_owed id')

/-! ## A tick -/

/-- A tick that is not due is the sweep alone. -/
theorem Orderly.tick_pays (h : s.Orderly) {nowMs : UInt64} (hdue : ¬s.Due nowMs) :
    s.Pays (s.tick nowMs) := by
  have hswept : s.Pays (s.callQueue (s.queue.tick nowMs)) :=
    h.callQueue_pays nobody (.tick nowMs) (by simp)
  obtain ⟨hsession, hevents⟩ := tick_of_not_due hdue
  have hledger : (s.tick nowMs).ledger = (s.callQueue (s.queue.tick nowMs)).ledger := by
    rw [Turn.ledger, hsession, hevents]
    rfl
  intro id
  rw [hledger]
  exact hswept id

/-- The sweep of a due tick. -/
theorem Orderly.anchored_pays (h : s.Orderly) (nowMs : UInt64) :
    s.Pays { session := s.anchored nowMs,
             events := (s.callQueue (s.queue.tick nowMs)).events } :=
  h.callQueue_pays nobody (.tick nowMs) (by simp)

theorem Orderly.anchored (h : s.Orderly) (nowMs : UInt64) : (s.anchored nowMs).Orderly :=
  (h.tick nowMs).congr rfl rfl

end BleSession

end GoproNative
