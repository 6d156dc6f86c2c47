import GoproNative.Queue.Promptness
import GoproNative.Session.Completions
import GoproNative.Session.KeepAliveGap

/-!
# A session keeps the deadlines of its queue

A session works its queue by operations whose callbacks return.  So a command stays
outstanding, under the time that it was accepted at, or is reported on; and where the
session is ticked, no command is outstanding for long.
-/

namespace GoproNative

namespace CommandQueue

variable {κ : Type} {q q' q'' : CommandQueue κ} {calls calls' : List (Call κ)}
  {P : κ → QueueOp → Prop} {slack L : Nat} {T : UInt64} {t? : Option UInt64}

/-- Whose a command is, and when it was accepted. -/
def stamp (e : Entry κ) : κ × UInt64 := (e.done, e.queuedAtMs)

def stamps (q : CommandQueue κ) : List (κ × UInt64) := q.outstanding.map stamp

theorem pump_stamps (q : CommandQueue κ) (nowMs : UInt64) :
    (q.pump nowMs).1.stamps.Perm q.stamps :=
  pump_outstanding (fun _ => rfl) q

theorem resume_stamps (q : CommandQueue κ) (resume : Option UInt64) :
    (q.resume resume).1.stamps.Perm q.stamps := by
  cases resume with
  | none => exact .refl _
  | some nowMs => exact q.pump_stamps nowMs

/-- What is outstanding stays so, or is completed. -/
theorem activate_keeps (q : CommandQueue κ) (done : κ) (op : QueueOp) :
    ∀ x ∈ q.stamps, x ∈ (q.activate done op).queue.stamps ∨
      ∃ c ∈ (q.activate done op).calls, c.done = x.1 := by
  intro x hx
  have hactivates := q.activates done op
  generalize q.activate done op = act at hactivates ⊢
  cases hactivates with
  | refused | shut | unknown => exact Or.inl hx
  | accepted id payload priority nowMs e he =>
      left
      apply (pump_stamps _ nowMs).mem_iff.mpr
      exact ((q.push_outstanding e).map stamp).mem_iff.mpr (List.mem_cons_of_mem _ hx)
  | opened nowMs => exact Or.inl ((pump_stamps _ nowMs).mem_iff.mpr hx)
  | answered data nowMs e hfind =>
      obtain ⟨e', he', rfl⟩ := List.mem_map.mp hx
      rcases List.mem_append.mp he' with hwaits | hflies
      · exact Or.inl (List.mem_map_of_mem (List.mem_append_left _ hwaits))
      · have hsplit := (List.perm_cons_eraseP_of_find? hfind).mem_iff.mp hflies
        rcases List.mem_cons.mp hsplit with rfl | hkept
        · exact Or.inr ⟨_, List.mem_singleton_self _, rfl⟩
        · exact Or.inl (List.mem_map_of_mem (List.mem_append_right _ hkept))
  | swept nowMs =>
      obtain ⟨e, he, rfl⟩ := List.mem_map.mp hx
      rcases List.mem_append.mp he with hwaits | hflies
      · by_cases hlate : q.queueExpired nowMs e = true
        · have hexpired := List.mem_filter.mpr ⟨hwaits, hlate⟩
          exact Or.inr ⟨_, List.mem_map_of_mem (List.mem_append_right _ hexpired), rfl⟩
        · have hkept : e ∈ q.pending.filter fun e => !q.queueExpired nowMs e :=
            List.mem_filter.mpr ⟨hwaits, by simpa using hlate⟩
          exact Or.inl (List.mem_map_of_mem (List.mem_append_left _ hkept))
      · by_cases hlate : q.writeExpired nowMs e = true
        · have hexpired := List.mem_filter.mpr ⟨hflies, hlate⟩
          exact Or.inr ⟨_, List.mem_map_of_mem (List.mem_append_left _ hexpired), rfl⟩
        · have hkept : e ∈ q.inFlight.filter fun e => !q.writeExpired nowMs e :=
            List.mem_filter.mpr ⟨hflies, by simpa using hlate⟩
          exact Or.inl (List.mem_map_of_mem (List.mem_append_right _ hkept))
  | canceled =>
      obtain ⟨e, he, rfl⟩ := List.mem_map.mp hx
      have hcanceled : e ∈ q.inFlight ++ q.pending :=
        List.mem_append.mpr (List.mem_append.mp he).symm
      exact Or.inr ⟨_, List.mem_map_of_mem hcanceled, rfl⟩

/-! ## Operations whose callbacks return -/

/-- Operations that meet `P`, each with the callback that a submission of it brings, lead
from one queue to the other, and make the calls. -/
inductive Worked (P : κ → QueueOp → Prop) :
    CommandQueue κ → List (Call κ) → CommandQueue κ → Prop
  | nil (q : CommandQueue κ) : Worked P q [] q
  | cons {q q' : CommandQueue κ} {calls : List (Call κ)} (done : κ) (op : QueueOp) :
      P done op → Worked P (q.activate done op).run.1 calls q' →
      Worked P q ((q.activate done op).calls ++ calls) q'

theorem Worked.single {done : κ} {op : QueueOp} (h : P done op) :
    q.Worked P (q.activate done op).calls (q.activate done op).run.1 := by
  have hworked := Worked.cons done op h (.nil (q.activate done op).run.1)
  rwa [List.append_nil] at hworked

theorem Worked.append (h : q.Worked P calls q') (h' : q'.Worked P calls' q'') :
    q.Worked P (calls ++ calls') q'' := by
  induction h with
  | nil => exact h'
  | cons done op hop _ ih =>
      rw [List.append_assoc]
      exact .cons done op hop (ih h')

theorem Worked.mono {P' : κ → QueueOp → Prop} (h : q.Worked P calls q')
    (himp : ∀ done op, P done op → P' done op) : q.Worked P' calls q' := by
  induction h with
  | nil q => exact .nil q
  | cons done op hop _ ih => exact .cons done op (himp done op hop) ih

theorem Worked.keeps (h : q.Worked P calls q') :
    ∀ x ∈ q.stamps, x ∈ q'.stamps ∨ ∃ c ∈ calls, c.done = x.1 := by
  induction h with
  | nil => exact fun x hx => Or.inl hx
  | @cons q q' calls done op _ _ ih =>
      intro x hx
      rcases q.activate_keeps done op x hx with hkept | ⟨c, hc, hdone⟩
      · have hrun : x ∈ (q.activate done op).run.1.stamps :=
          (resume_stamps _ _).mem_iff.mpr hkept
        rcases ih x hrun with hlast | ⟨c, hc, hdone⟩
        · exact Or.inl hlast
        · exact Or.inr ⟨c, List.mem_append_right _ hc, hdone⟩
      · exact Or.inr ⟨c, List.mem_append_left _ hc, hdone⟩

/-! ## Time -/

/-- The operation is no tick, and belongs to a call of that time, if of any.  The time of a
gate that shuts does not matter. -/
def Between (t? : Option UInt64) (op : QueueOp) : Prop :=
  (∀ t, op ≠ .tick t) ∧ ∀ t, op.time? = some t → t? = some t ∨ op = .setReady false t

/-- `L` is the time of the last tick and `T` that of the last call. -/
structure Timely (slack L : Nat) (T : UInt64) (q : CommandQueue κ) : Prop where
  prompt : q.Prompt slack L
  stamped : q.Stamped (· ≤ T) (· ≤ T)

/-- Where the last tick was no longer ago than the slack, no command is outstanding for
longer than the two deadlines and twice the slack. -/
theorem Timely.recent (h : q.Timely slack L T) (hnow : T.toNat ≤ L + slack) {x : κ × UInt64}
    (hx : x ∈ q.stamps) :
    T.toNat ≤ x.2.toNat + q.opts.queueTimeoutMs.toNat + q.opts.writeTimeoutMs.toNat +
      2 * slack := by
  obtain ⟨e, he, rfl⟩ := List.mem_map.mp hx
  change T.toNat ≤ e.queuedAtMs.toNat + _ + _ + _
  rcases List.mem_append.mp he with he | he
  · have hwaits := h.prompt.waits e he
    omega
  · have hwritten := h.prompt.written e he
    have hflies := h.prompt.flies e he
    omega

theorem Stamped.mono {Q S Q' S' : UInt64 → Prop} (h : q.Stamped Q S) (hQ : ∀ t, Q t → Q' t)
    (hS : ∀ t, S t → S' t) : q.Stamped Q' S' :=
  ⟨fun e he => hQ _ (h.queued e he), fun e he => hS _ (h.sent e he)⟩

/-- One operation between two ticks. -/
theorem Timely.activate (h : q.Timely slack L T) {op : QueueOp} (hop : Between t? op)
    (htime : ∀ t, t? = some t → L ≤ t.toNat ∧ t.toNat ≤ L + slack ∧ T ≤ t) (done : κ) :
    (q.activate done op).run.1.Timely slack L (t?.getD T) := by
  have hlast : T ≤ t?.getD T := by
    cases t? with
    | none => exact UInt64.le_refl T
    | some t => exact (htime t rfl).2.2
  have hmono : q.Stamped (· ≤ t?.getD T) (· ≤ t?.getD T) :=
    h.stamped.mono (fun t ht => UInt64.le_trans ht hlast) fun t ht => UInt64.le_trans ht hlast
  by_cases hshut : ∃ t, op = .setReady false t
  · obtain ⟨t, rfl⟩ := hshut
    exact ⟨⟨h.prompt.waits, h.prompt.written, h.prompt.flies⟩, hmono.queued, hmono.sent⟩
  · have hown : ∀ t, op.time? = some t → t? = some t := fun t ht =>
      (hop.2 t ht).resolve_right fun heq => hshut ⟨t, heq⟩
    have hwithin : ∀ t, op.time? = some t → L ≤ t.toNat ∧ t.toNat ≤ L + slack := fun t ht =>
      ⟨(htime t (hown t ht)).1, (htime t (hown t ht)).2.1⟩
    have hstamp : ∀ t, op.time? = some t → t ≤ t?.getD T := by
      intro t ht
      rw [hown t ht]
      exact UInt64.le_refl t
    refine ⟨Prompt.resume (h.prompt.activate hop.1 hwithin done) ?_,
      Stamped.resume (hmono.activate (fun t ht => ⟨hstamp t ht, hstamp t ht⟩) done) ?_⟩
    · exact fun t ht => (hwithin t (activate_resume_time q done op ht)).2
    · exact fun t ht => hstamp t (activate_resume_time q done op ht)

theorem Timely.worked (h : q.Timely slack L T)
    (hworked : q.Worked (fun _ op => Between t? op) calls q')
    (htime : ∀ t, t? = some t → L ≤ t.toNat ∧ t.toNat ≤ L + slack ∧ T ≤ t) :
    q'.Timely slack L (t?.getD T) := by
  have hlast : T ≤ t?.getD T := by
    cases t? with
    | none => exact UInt64.le_refl T
    | some t => exact (htime t rfl).2.2
  -- Behind the first operation the last call is that of its time, whichever it was before.
  suffices hall : ∀ {q q' : CommandQueue κ} {calls : List (Call κ)},
      q.Worked (fun _ op => Between t? op) calls q' → q.Timely slack L (t?.getD T) →
        q'.Timely slack L (t?.getD T) by
    refine hall hworked ⟨h.prompt, ?_⟩
    exact h.stamped.mono (fun t ht => UInt64.le_trans ht hlast)
      fun t ht => UInt64.le_trans ht hlast
  intro q q' calls hworked
  induction hworked with
  | nil => exact id
  | cons done op hop _ ih =>
      intro hq
      apply ih
      have hstep := hq.activate hop ?_ done
      · cases t? <;> exact hstep
      · rintro t rfl
        obtain ⟨hlow, hhigh, -⟩ := htime t rfl
        exact ⟨hlow, hhigh, UInt64.le_refl t⟩

/-- The sweep of a tick. -/
theorem Timely.tick (h : q.Timely slack L T) {nowMs : UInt64} (hnow : T ≤ nowMs)
    (hdeadline : q.opts.queueTimeoutMs ≠ 0) (done : κ) :
    (q.activate done (.tick nowMs)).run.1.Timely slack nowMs.toNat nowMs := by
  have hqueued : ∀ e ∈ q.pending, e.queuedAtMs ≤ nowMs := fun e he =>
    UInt64.le_trans (h.stamped.queued e he) hnow
  have hsent : ∀ e ∈ q.inFlight, e.sentAtMs ≤ nowMs := fun e he =>
    UInt64.le_trans (h.stamped.sent e he) hnow
  have hstamped : q.Stamped (· ≤ nowMs) (· ≤ nowMs) := ⟨hqueued, hsent⟩
  refine ⟨Prompt.resume (h.prompt.tick hdeadline hqueued hsent) ?_,
    Stamped.resume (hstamped.activate ?_ done) ?_⟩
  · intro t ht
    obtain rfl := Option.some.inj ht
    exact Nat.le_add_right _ _
  · intro t ht
    obtain rfl := Option.some.inj ht
    exact ⟨UInt64.le_refl _, UInt64.le_refl _⟩
  · intro t ht
    obtain rfl := Option.some.inj ht
    exact UInt64.le_refl _

theorem Worked.opts (h : q.Worked P calls q') : q'.opts = q.opts := by
  induction h with
  | nil => rfl
  | cons done op _ _ ih => exact ih.trans (run_opts _ done op)

end CommandQueue

namespace BleSession

open CommandQueue (Worked Between)

variable {s : BleSession} {calls : List (Call Submission)} {t? : Option UInt64}

/-! ## Calls of a session -/

/-- A call of the session works its queue by operations of its time that are no ticks, and
reports what they complete. -/
def WorksTo (s : BleSession) (t? : Option UInt64) (t : Turn) : Prop :=
  ∃ calls, s.queue.Worked (fun _ op => Between t? op) calls t.session.queue ∧
    reports t.events = calls.map Call.report

theorem worksTo_idle {t : Turn} (hqueue : t.session.queue = s.queue)
    (hreports : reports t.events = []) : s.WorksTo t? t := by
  refine ⟨[], ?_, hreports⟩
  rw [hqueue]
  exact .nil s.queue

theorem WorksTo.trans {first second both : Turn} (h : s.WorksTo t? first)
    (h' : first.session.WorksTo t? second) (hqueue : both.session.queue = second.session.queue)
    (hreports : reports both.events = reports first.events ++ reports second.events) :
    s.WorksTo t? both := by
  obtain ⟨calls, hworked, hcalls⟩ := h
  obtain ⟨calls', hworked', hcalls'⟩ := h'
  refine ⟨calls ++ calls', ?_, ?_⟩
  · rw [hqueue]
    exact hworked.append hworked'
  · rw [hreports, hcalls, hcalls', List.map_append]

theorem WorksTo.mono {t : Turn} (h : s.WorksTo none t) (t? : Option UInt64) :
    s.WorksTo t? t := by
  obtain ⟨calls, hworked, hreports⟩ := h
  refine ⟨calls, hworked.mono ?_, hreports⟩
  rintro _ op ⟨hop, htime⟩
  exact ⟨hop, fun t ht => Or.inr ((htime t ht).resolve_left (by simp))⟩

theorem callQueue_reports (s : BleSession) (done : Submission) (op : QueueOp) :
    reports (s.callQueue (s.queue.activate done op)).events =
      (s.queue.activate done op).calls.map Call.report := by
  rw [callQueue, reports_report, completions_run]

theorem callQueue_worksTo (s : BleSession) (done : Submission) (op : QueueOp)
    (hop : Between t? op) : s.WorksTo t? (s.callQueue (s.queue.activate done op)) :=
  ⟨_, .single hop, s.callQueue_reports done op⟩

theorem between_setReady (ready : Bool) (nowMs : UInt64) :
    Between (some nowMs) (.setReady ready nowMs) :=
  ⟨by simp, fun _ ht => Or.inl ht⟩

theorem setGate_worksTo (s : BleSession) (word : ReadyState) (nowMs : UInt64) :
    s.WorksTo (some nowMs) (s.setGate word nowMs) := by
  rw [setGate]
  split
  · exact worksTo_idle rfl rfl
  · exact callQueue_worksTo { s with readyState := word } nobody
      (.setReady word.ready nowMs) (between_setReady word.ready nowMs)

theorem deliver_worksTo (s : BleSession) (channel : Channel) (message : Bytes)
    (nowMs : UInt64) : s.WorksTo (some nowMs) (s.deliver channel message nowMs) := by
  let reply := s.callQueue (s.queue.onResponse (s.answeredId channel message) message nowMs)
  have hreply : s.WorksTo (some nowMs) reply := s.callQueue_worksTo nobody
    (.onResponse (s.answeredId channel message) message nowMs)
    ⟨by simp, fun _ ht => Or.inl ht⟩
  have hgate := reply.session.setGate_worksTo (reply.session.readyState.hear message) nowMs
  exact hreply.trans hgate (by rw [deliver_session]; rfl)
    (deliver_reports s channel message nowMs)

theorem feed_worksTo (s : BleSession) (channel : Channel) (packet : Bytes)
    (nowMs : UInt64) : s.WorksTo (some nowMs) (s.feed channel packet nowMs) := by
  unfold feed
  simp only
  split
  · exact worksTo_idle rfl rfl
  · exact deliver_worksTo { s with
      rx := Function.update s.rx channel ((s.rx channel).feed packet).2.take.2 } channel _ nowMs
  · exact worksTo_idle rfl rfl

theorem enqueue_worksTo (s : BleSession) (id : CorrelationId) (payload : Bytes)
    (priority : Priority) (byTick : Bool) (nowMs : UInt64) :
    s.WorksTo (some nowMs) (s.enqueue id payload priority byTick nowMs) :=
  callQueue_worksTo { s with submissions := s.submissions + 1 } ⟨id, s.submissions, byTick⟩
    (.submit id payload priority nowMs) ⟨by simp, fun _ ht => Or.inl ht⟩

theorem onDisconnect_worksTo (s : BleSession) : s.WorksTo none s.onDisconnect := by
  let emptied : BleSession := { s with rx := fun _ => {} }
  let canceled := emptied.callQueue emptied.queue.cancelAll
  let reset : BleSession :=
    { canceled.session with readyState := canceled.session.readyState.reset }
  have hcanceled : s.WorksTo none canceled :=
    emptied.callQueue_worksTo nobody .cancelAll ⟨by simp, by simp [QueueOp.time?]⟩
  have hset : reset.WorksTo none (reset.callQueue (reset.queue.setReady false 0)) :=
    reset.callQueue_worksTo nobody (.setReady false 0) ⟨by simp, fun t ht => by
      obtain rfl := Option.some.inj ht
      exact Or.inr rfl⟩
  have hclosed : reports (if s.readyState.ready then [.ready false] else []) = [] := by
    split <;> rfl
  refine hcanceled.trans hset rfl ?_
  change reports (canceled.events ++ _ ++ if s.readyState.ready then _ else _) = _
  rw [reports_append, reports_append, hclosed, List.append_nil]

theorem perform_worksTo (s : BleSession) (op : SessionOp) (hop : op.ticked? = none) :
    s.WorksTo op.time? (s.perform op) := by
  cases op with
  | feed channel packet nowMs => exact s.feed_worksTo channel packet nowMs
  | submit channel payload priority nowMs =>
      cases payload with
      | nil => exact worksTo_idle rfl rfl
      | cons b rest => exact s.enqueue_worksTo _ _ priority false nowMs
  | submitProtobuf channel featureId actionId message priority nowMs =>
      exact s.enqueue_worksTo _ _ priority false nowMs
  | tick nowMs => simp [SessionOp.ticked?] at hop
  | setAttPayload bytes =>
      have hqueue : (s.setAttPayload bytes).queue = s.queue := by
        rw [setAttPayload_eq]
      exact worksTo_idle hqueue rfl
  | onDisconnect => exact s.onDisconnect_worksTo

/-- A tick is a sweep, and behind it operations of its time. -/
theorem tick_works (s : BleSession) (nowMs : UInt64) :
    ∃ calls, (s.queue.activate nobody (.tick nowMs)).run.1.Worked
        (fun _ op => Between (some nowMs) op) calls (s.tick nowMs).session.queue ∧
      reports (s.tick nowMs).events =
        ((s.queue.activate nobody (.tick nowMs)).calls ++ calls).map Call.report := by
  have hswept := s.callQueue_reports nobody (.tick nowMs)
  by_cases hdue : s.Due nowMs
  · obtain ⟨hsession, hevents⟩ := tick_of_due hdue
    obtain ⟨calls, hworked, hcalls⟩ :=
      (s.anchored nowMs).enqueue_worksTo keepAliveId keepAlivePayload .keepAlive true nowMs
    refine ⟨calls, ?_, ?_⟩
    · rw [hsession]
      exact hworked
    · rw [hevents, reports_append, hcalls, List.map_append]
      exact congrArg (· ++ calls.map Call.report) hswept
  · obtain ⟨hsession, hevents⟩ := tick_of_not_due hdue
    refine ⟨[], ?_, ?_⟩
    · rw [hsession]
      exact .nil _
    · rw [hevents, List.append_nil]
      exact hswept

/-! ## What a call keeps -/

/-- What is outstanding stays so, or is reported on. -/
def Keeps (s : BleSession) (t : Turn) : Prop :=
  ∀ x ∈ s.queue.stamps, x ∈ t.session.queue.stamps ∨
    ∃ r ∈ reports t.events, r.submission = x.1

theorem keeps_of_worked {P : Submission → QueueOp → Prop} {t : Turn}
    (hworked : s.queue.Worked P calls t.session.queue)
    (hreports : reports t.events = calls.map Call.report) : s.Keeps t := by
  intro x hx
  refine (hworked.keeps x hx).imp_right ?_
  rintro ⟨call, hcall, hdone⟩
  rw [hreports]
  exact ⟨call.report, List.mem_map_of_mem hcall, hdone⟩

theorem WorksTo.keeps {t : Turn} (h : s.WorksTo t? t) : s.Keeps t := by
  obtain ⟨calls, hworked, hreports⟩ := h
  exact keeps_of_worked hworked hreports

theorem tick_keeps (s : BleSession) (nowMs : UInt64) : s.Keeps (s.tick nowMs) := by
  obtain ⟨calls, hworked, hreports⟩ := s.tick_works nowMs
  exact keeps_of_worked (P := fun _ _ => True)
    (.cons nobody (.tick nowMs) trivial (hworked.mono fun _ _ _ => trivial)) hreports

theorem WorksTo.opts {t : Turn} (h : s.WorksTo t? t) :
    t.session.queue.opts = s.queue.opts := by
  obtain ⟨calls, hworked, -⟩ := h
  exact hworked.opts

theorem WorksTo.timely {t : Turn} {slack L : Nat} {T : UInt64} (h : s.WorksTo t? t)
    (htimely : s.queue.Timely slack L T)
    (htime : ∀ t, t? = some t → L ≤ t.toNat ∧ t.toNat ≤ L + slack ∧ T ≤ t) :
    t.session.queue.Timely slack L (t?.getD T) := by
  obtain ⟨calls, hworked, -⟩ := h
  exact htimely.worked hworked htime

theorem tick_opts (s : BleSession) (nowMs : UInt64) :
    (s.tick nowMs).session.queue.opts = s.queue.opts := by
  obtain ⟨calls, hworked, -⟩ := s.tick_works nowMs
  exact hworked.opts.trans (CommandQueue.run_opts s.queue nobody (.tick nowMs))

/-- A tick in time. -/
theorem tick_timely {slack L : Nat} {T nowMs : UInt64} (h : s.queue.Timely slack L T)
    (hnow : T ≤ nowMs) (hdeadline : s.queue.opts.queueTimeoutMs ≠ 0) :
    (s.tick nowMs).session.queue.Timely slack nowMs.toNat nowMs := by
  obtain ⟨calls, hworked, -⟩ := s.tick_works nowMs
  refine (h.tick hnow hdeadline nobody).worked hworked ?_
  intro t ht
  obtain rfl := Option.some.inj ht
  exact ⟨Nat.le_refl _, Nat.le_add_right _ _, UInt64.le_refl _⟩

/-- What a submission that is accepted leaves in the queue. -/
theorem enqueue_stamps {id : CorrelationId} {payload : Bytes} {priority : Priority}
    {byTick : Bool} {nowMs : UInt64}
    (h : (s.enqueue id payload priority byTick nowMs).result = true) :
    (⟨id, s.submissions, byTick⟩, nowMs) ∈
      (s.enqueue id payload priority byTick nowMs).session.queue.stamps := by
  rcases s.queue.submit_cases id payload priority ⟨id, s.submissions, byTick⟩ nowMs with
    ⟨-, hrefused⟩ | ⟨e, rfl, -, haccepted⟩
  · rw [enqueue, hrefused] at h
    simp [callQueue] at h
  · rw [enqueue, haccepted]
    apply (CommandQueue.pump_stamps _ nowMs).mem_iff.mpr
    apply ((s.queue.push_outstanding _).map CommandQueue.stamp).mem_iff.mpr
    exact List.mem_cons_self

end BleSession

end GoproNative
