import GoproNative.Queue.Relabel
import GoproNative.Session.Isolation
import GoproNative.Session.KeepAlive

/-!
# A disconnect leaves nothing behind

The numbers of submissions are the development's own: the owner hears ids.  Two
sessions that agree up to those numbers, and up to the time of a keep-alive that
no tick has anchored, do the same forever.  A disconnect leaves a session that
agrees in this sense with a new one.
-/

namespace GoproNative

/-! ## What the owner hears -/

/-- The calls of the owner's callbacks, with their arguments. -/
inductive Observed
  | write (channel : UInt8) (packet : Bytes)
  | response (id : CorrelationId) (outcome : Outcome) (payload : Bytes)
  | push (channel : Channel) (parsed : QueryResponse) (message : Bytes)
  | ready (ready : Bool)
  | frameError (channel : Channel) (result : FeedResult)

def SessionEvent.observed : SessionEvent → List Observed
  | .received _ _ => []
  | .write _ channel packets => packets.map (.write channel)
  | .response s outcome payload => [.response s.id outcome payload]
  | .push channel parsed message => [.push channel parsed message]
  | .ready now => [.ready now]
  | .frameError channel result => [.frameError channel result]

def observed (evs : List SessionEvent) : List Observed :=
  evs.flatMap SessionEvent.observed

@[simp] theorem observed_append (xs ys : List SessionEvent) :
    observed (xs ++ ys) = observed xs ++ observed ys :=
  List.flatMap_append

@[simp] theorem observed_cons (ev : SessionEvent) (evs : List SessionEvent) :
    observed (ev :: evs) = ev.observed ++ observed evs :=
  List.flatMap_cons

/-- What the owner hears of a callback given to the queue, once the completion is
reduced to its id. -/
def QueueEvent.observed (attPayload : Nat) : QueueEvent CorrelationId → List Observed
  | .wrote e _ =>
      (fragment e.payload attPayload).map (.write (channelOfCorrelation e.id))
  | .completed c => [.response c.done c.outcome c.response]
  | .accepted _ => []
  | .refused _ => []

theorem observed_report (attPayload : Nat) (evs : List (QueueEvent Submission)) :
    observed (evs.flatMap (BleSession.report attPayload)) =
      (evs.map (QueueEvent.map Submission.id)).flatMap
        (QueueEvent.observed attPayload) := by
  rw [observed, List.flatMap_assoc, List.flatMap_map]
  congr
  funext ev
  cases ev with
  | wrote e q => exact List.append_nil _
  | _ => rfl

namespace BleSession

/-- What the owner hears of every call in turn, and what the calls return. -/
def outputs (s : BleSession) : List SessionOp → List (List Observed × Bool)
  | [] => []
  | op :: ops =>
      (observed (s.perform op).events, (s.perform op).result) ::
        outputs (s.perform op).session ops

/-! ## Sessions that the owner cannot tell apart -/

structure Resembles (s t : BleSession) : Prop where
  cfg : s.cfg = t.cfg
  rx : s.rx = t.rx
  queue : s.queue.map Submission.id = t.queue.map Submission.id
  word : s.readyState = t.readyState
  started : s.keepAliveStarted = t.keepAliveStarted
  anchor : s.keepAliveStarted = true → s.lastKeepAliveMs = t.lastKeepAliveMs

end BleSession

/-- Turns that leave such sessions and look the same. -/
structure Turn.Resembles (a b : Turn) : Prop where
  session : a.session.Resembles b.session
  events : observed a.events = observed b.events
  result : a.result = b.result

namespace BleSession

variable {s t : BleSession}

theorem Resembles.callQueue (h : s.Resembles t) (done done' : Submission)
    (hdone : done.id = done'.id) (op : QueueOp) :
    (s.callQueue (s.queue.activate done op)).Resembles
      (t.callQueue (t.queue.activate done' op)) := by
  have hactivate : (s.queue.activate done op).map Submission.id =
      (t.queue.activate done' op).map Submission.id := by
    rw [← CommandQueue.activate_map, ← CommandQueue.activate_map, h.queue, hdone]
  have hrun := congrArg Activation.run hactivate
  rw [Activation.run_map, Activation.run_map] at hrun
  obtain ⟨hqueue, hevents⟩ := Prod.mk.inj hrun
  have hresult := congrArg Activation.result hactivate
  refine ⟨⟨h.cfg, h.rx, hqueue, h.word, h.started, h.anchor⟩, ?_, hresult⟩
  simp only [BleSession.callQueue, observed_report, hevents, h.cfg]

theorem Resembles.setReady (h : s.Resembles t) (ready : Bool) (nowMs : UInt64) :
    (s.callQueue (s.queue.setReady ready nowMs)).Resembles
      (t.callQueue (t.queue.setReady ready nowMs)) :=
  h.callQueue nobody nobody rfl (.setReady ready nowMs)

theorem Resembles.withWord (h : s.Resembles t) (word : ReadyState) :
    Resembles { s with readyState := word } { t with readyState := word } :=
  ⟨h.cfg, h.rx, h.queue, rfl, h.started, h.anchor⟩

/-- The ids in flight are the same. -/
theorem Resembles.isInFlight (h : s.Resembles t) (id : CorrelationId) :
    s.queue.isInFlight id = t.queue.isInFlight id := by
  rw [← CommandQueue.isInFlight_map Submission.id, h.queue, CommandQueue.isInFlight_map]

theorem Resembles.answeredId (h : s.Resembles t) (channel : Channel) (message : Bytes) :
    s.answeredId channel message = t.answeredId channel message := by
  rcases message with - | ⟨b0, - | ⟨b1, rest⟩⟩
  · rfl
  · rfl
  · simp only [BleSession.answeredId, h.isInFlight]

/-! ## Every call keeps them so -/

theorem Resembles.foldReply (h : s.Resembles t) (message : Bytes) (nowMs : UInt64) :
    (s.foldReply message nowMs).Resembles (t.foldReply message nowMs) := by
  unfold BleSession.foldReply
  rw [h.word]
  rcases parseQuery message with ⟨result, parsed⟩
  cases result with
  | ok =>
      have hword := h.withWord (t.readyState.apply parsed).2
      have hset := hword.setReady (t.readyState.apply parsed).2.ready nowMs
      simp only
      split
      · exact ⟨hset.session, by simp only [observed_append, hset.events], hset.result⟩
      · exact ⟨hword, rfl, rfl⟩
  | tooShort => exact ⟨h, rfl, rfl⟩
  | truncatedTlv => exact ⟨h, rfl, rfl⟩

theorem Resembles.foldPush (h : s.Resembles t) (channel : Channel) (message : Bytes)
    (nowMs : UInt64) :
    (s.foldPush channel message nowMs).Resembles (t.foldPush channel message nowMs) := by
  have hword := h.withWord (t.readyState.apply (parseQuery message).2).2
  have hset := hword.setReady (t.readyState.apply (parseQuery message).2).2.ready nowMs
  unfold BleSession.foldPush
  rw [h.word]
  simp only
  split
  · split
    · exact ⟨hset.session, by simp only [observed_append, hset.events], hset.result⟩
    · split
      · exact ⟨hset.session, by simp only [observed_append, hset.events], hset.result⟩
      · exact ⟨hword, rfl, rfl⟩
  · exact ⟨h, rfl, rfl⟩

theorem Resembles.deliver (h : s.Resembles t) (channel : Channel) (message : Bytes)
    (nowMs : UInt64) :
    (s.deliver channel message nowMs).Resembles (t.deliver channel message nowMs) := by
  have hreply := h.callQueue nobody nobody rfl
    (.onResponse (s.answeredId channel message) message nowMs)
  rw [h.answeredId] at hreply
  have hreplied := hreply.session
  unfold BleSession.deliver
  rw [h.answeredId]
  simp only [CommandQueue.activate] at hreply hreplied ⊢
  have hrest : Turn.Resembles
      (if (s.callQueue (s.queue.onResponse (t.answeredId channel message) message
          nowMs)).result then
        (s.callQueue (s.queue.onResponse (t.answeredId channel message) message
          nowMs)).session.foldReply message nowMs
      else
        (s.callQueue (s.queue.onResponse (t.answeredId channel message) message
          nowMs)).session.foldPush channel message nowMs)
      (if (t.callQueue (t.queue.onResponse (t.answeredId channel message) message
          nowMs)).result then
        (t.callQueue (t.queue.onResponse (t.answeredId channel message) message
          nowMs)).session.foldReply message nowMs
      else
        (t.callQueue (t.queue.onResponse (t.answeredId channel message) message
          nowMs)).session.foldPush channel message nowMs) := by
    rw [hreply.result]
    split
    · exact hreplied.foldReply message nowMs
    · exact hreplied.foldPush channel message nowMs
  refine ⟨hrest.session, ?_, hrest.result⟩
  simp only [observed_cons, observed_append, hreply.events, hrest.events]

theorem Resembles.feed (h : s.Resembles t) (channel : Channel) (packet : Bytes)
    (nowMs : UInt64) :
    (s.feed channel packet nowMs).Resembles (t.feed channel packet nowMs) := by
  have hrx : ∀ rx, Resembles { s with rx := rx } { t with rx := rx } := fun _ =>
    ⟨h.cfg, rfl, h.queue, h.word, h.started, h.anchor⟩
  unfold BleSession.feed
  rw [h.rx]
  simp only
  split
  · exact ⟨hrx _, rfl, rfl⟩
  · exact (hrx _).deliver channel _ nowMs
  · exact ⟨hrx _, rfl, rfl⟩

theorem Resembles.enqueue (h : s.Resembles t) (id : CorrelationId) (payload : Bytes)
    (priority : Priority) (byTick : Bool) (nowMs : UInt64) :
    (s.enqueue id payload priority byTick nowMs).Resembles
      (t.enqueue id payload priority byTick nowMs) := by
  have hcounted : Resembles { s with submissions := s.submissions + 1 }
      { t with submissions := t.submissions + 1 } :=
    ⟨h.cfg, h.rx, h.queue, h.word, h.started, h.anchor⟩
  exact hcounted.callQueue ⟨id, s.submissions, byTick⟩ ⟨id, t.submissions, byTick⟩ rfl
    (.submit id payload priority nowMs)

theorem Resembles.submit (h : s.Resembles t) (channel : Channel) (payload : Bytes)
    (priority : Priority) (byTick : Bool) (nowMs : UInt64) :
    (s.submit channel payload priority byTick nowMs).Resembles
      (t.submit channel payload priority byTick nowMs) := by
  cases payload with
  | nil => exact ⟨h, rfl, rfl⟩
  | cons b payload => exact h.enqueue _ _ _ _ _

theorem Resembles.due_iff (h : s.Resembles t) {nowMs : UInt64} :
    s.Due nowMs ↔ t.Due nowMs := by
  unfold Due
  rw [← h.cfg, ← h.started]
  refine and_congr_right fun hstarted => ?_
  rw [h.anchor hstarted]

theorem tick_result (s : BleSession) (nowMs : UInt64) : (s.tick nowMs).result = true := by
  unfold BleSession.tick
  simp only
  split
  · rfl
  · split <;> rfl

theorem Resembles.tick (h : s.Resembles t) (nowMs : UInt64) :
    (s.tick nowMs).Resembles (t.tick nowMs) := by
  have hswept := h.callQueue nobody nobody rfl (.tick nowMs)
  simp only [CommandQueue.activate] at hswept
  have hs := hswept.session
  have hresult := (s.tick_result nowMs).trans (t.tick_result nowMs).symm
  by_cases hdue : s.Due nowMs
  · have hanchored : (s.anchored nowMs).Resembles (t.anchored nowMs) :=
      ⟨hs.cfg, hs.rx, hs.queue, hs.word, hs.started, fun _ => rfl⟩
    have hsent := hanchored.enqueue keepAliveId keepAlivePayload .keepAlive true nowMs
    obtain ⟨hsession, hevents⟩ := tick_of_due hdue
    obtain ⟨hsession', hevents'⟩ := tick_of_due (h.due_iff.mp hdue)
    refine ⟨?_, ?_, hresult⟩
    · rw [hsession, hsession']
      exact hsent.session
    · rw [hevents, hevents', observed_append, observed_append, hswept.events, hsent.events]
  · obtain ⟨hsession, hevents⟩ := tick_of_not_due hdue
    obtain ⟨hsession', hevents'⟩ := tick_of_not_due fun hdue' => hdue (h.due_iff.mpr hdue')
    refine ⟨?_, ?_, hresult⟩
    · rw [hsession, hsession']
      refine ⟨hs.cfg, hs.rx, hs.queue, hs.word, rfl, fun _ => ?_⟩
      have hanchor := h.anchor
      simp only [h.started] at hanchor ⊢
      split
      · next hstarted => exact hanchor hstarted
      · rfl
    · rw [hevents, hevents']
      exact hswept.events

theorem Resembles.setAttPayload (h : s.Resembles t) (bytes : Nat) :
    (s.setAttPayload bytes).Resembles (t.setAttPayload bytes) := by
  rw [setAttPayload_eq, setAttPayload_eq, h.cfg]
  exact ⟨rfl, h.rx, h.queue, h.word, h.started, h.anchor⟩

/-- A disconnect reports what was outstanding, and then the closing of the gate. -/
theorem onDisconnect_events (s : BleSession) :
    s.onDisconnect.events =
      (s.queue.inFlight ++ s.queue.pending).map
          (fun e => .response e.done .canceled []) ++
        if s.readyState.ready then [.ready false] else [] := by
  have hcanceled : (callQueue { s with rx := fun _ => {} } s.queue.cancelAll).events =
      (s.queue.inFlight ++ s.queue.pending).map
        fun e => .response e.done .canceled [] := by
    simp only [callQueue, CommandQueue.cancelAll, Activation.run, CommandQueue.resume,
      List.nil_append, List.append_nil, List.map_map, List.flatMap_map]
    exact List.flatMap_pure_eq_map _ _
  have hclosing : ∀ s : BleSession, (s.callQueue (s.queue.setReady false 0)).events = [] :=
    fun _ => rfl
  unfold onDisconnect
  simp only [hcanceled, hclosing, List.append_nil]
  rfl

/-- The queue a disconnect leaves. -/
theorem onDisconnect_queue (s : BleSession) :
    s.onDisconnect.session.queue = { opts := s.queue.opts } := rfl

theorem Resembles.onDisconnect (h : s.Resembles t) :
    s.onDisconnect.Resembles t.onDisconnect := by
  have hids : ∀ s : BleSession, observed s.onDisconnect.events =
      ((s.queue.map Submission.id).inFlight ++ (s.queue.map Submission.id).pending).map
          (fun e => .response e.done .canceled []) ++
        if s.readyState.ready then [.ready false] else [] := by
    intro s
    rw [onDisconnect_events, observed_append, observed, List.flatMap_map,
      CommandQueue.map_inFlight, CommandQueue.map_pending, ← List.map_append, List.map_map]
    congr 1
    · exact List.flatMap_pure_eq_map _ _
    · split <;> rfl
  have hopts : s.queue.opts = t.queue.opts := by
    have hmapped := congrArg CommandQueue.opts h.queue
    exact hmapped
  refine ⟨⟨h.cfg, rfl, ?_, rfl, rfl, fun hstarted => ?_⟩, ?_, rfl⟩
  · rw [onDisconnect_queue, onDisconnect_queue, hopts]
  · exact absurd hstarted Bool.false_ne_true
  · rw [hids, hids, h.queue, h.word]

theorem Resembles.perform (h : s.Resembles t) (op : SessionOp) :
    (s.perform op).Resembles (t.perform op) := by
  cases op with
  | feed channel packet nowMs => exact h.feed channel packet nowMs
  | submit channel payload priority nowMs =>
      exact h.submit channel payload priority false nowMs
  | submitProtobuf channel featureId actionId message priority nowMs =>
      exact h.enqueue _ _ _ _ _
  | tick nowMs => exact h.tick nowMs
  | setAttPayload bytes => exact ⟨h.setAttPayload bytes, rfl, rfl⟩
  | onDisconnect => exact h.onDisconnect

theorem Resembles.outputs_eq (h : s.Resembles t) (ops : List SessionOp) :
    s.outputs ops = t.outputs ops := by
  induction ops generalizing s t with
  | nil => rfl
  | cons op ops ih =>
      have hturn := h.perform op
      rw [outputs, outputs, hturn.events, hturn.result, ih hturn.session]

/-! ## The options of the queue -/

/-- The queue goes on with the options it was constructed with. -/
def Configured (s : BleSession) : Prop := s.queue.opts = s.cfg.queue

theorem Configured.callQueue (h : s.Configured) (done : Submission) (op : QueueOp) :
    (s.callQueue (s.queue.activate done op)).session.Configured :=
  (s.queue.run_opts done op).trans h

theorem Configured.setGate (h : s.Configured) (word : ReadyState) (nowMs : UInt64) :
    (s.setGate word nowMs).session.Configured := by
  unfold BleSession.setGate
  split
  · exact h
  · exact Configured.callQueue (s := { s with readyState := word }) h nobody
      (.setReady word.ready nowMs)

theorem Configured.feed (h : s.Configured) (channel : Channel) (packet : Bytes)
    (nowMs : UInt64) : (s.feed channel packet nowMs).session.Configured := by
  have hreceived : (s.received channel packet).Configured := h
  rcases s.feed_cases channel packet nowMs with
    ⟨message, -, hfeed⟩ | ⟨-, hsession, -⟩
  · rw [hfeed, deliver_session]
    exact (hreceived.callQueue nobody (.onResponse _ message nowMs)).setGate _ nowMs
  · rw [hsession]
    exact hreceived

theorem Configured.enqueue (h : s.Configured) (id : CorrelationId) (payload : Bytes)
    (priority : Priority) (byTick : Bool) (nowMs : UInt64) :
    (s.enqueue id payload priority byTick nowMs).session.Configured :=
  Configured.callQueue (s := { s with submissions := s.submissions + 1 }) h
    ⟨id, s.submissions, byTick⟩ (.submit id payload priority nowMs)

theorem Configured.tick (h : s.Configured) (nowMs : UInt64) :
    (s.tick nowMs).session.Configured := by
  have hswept := h.callQueue nobody (.tick nowMs)
  by_cases hdue : s.Due nowMs
  · have hanchored : (s.anchored nowMs).Configured := hswept
    rw [(tick_of_due hdue).1]
    exact hanchored.enqueue _ _ _ _ _
  · rw [(tick_of_not_due hdue).1]
    exact hswept

theorem Configured.perform (h : s.Configured) (op : SessionOp) :
    (s.perform op).session.Configured := by
  cases op with
  | feed channel packet nowMs => exact h.feed channel packet nowMs
  | submit channel payload priority nowMs =>
      cases payload with
      | nil => exact h
      | cons b payload => exact h.enqueue _ _ _ _ _
  | submitProtobuf channel featureId actionId message priority nowMs =>
      exact h.enqueue _ _ _ _ _
  | tick nowMs => exact h.tick nowMs
  | setAttPayload bytes =>
      rw [BleSession.perform, setAttPayload_eq]
      exact h
  | onDisconnect => exact h

theorem configured (h : lts.Reachable s) : s.Configured := by
  refine h.invariant ?_ ?_
  · rintro _ ⟨cfg, rfl⟩
    exact rfl
  · rintro s ⟨op, evs⟩ t - hs hstep
    rw [(step_eq hstep).1]
    exact hs.perform op

/-! ## Disconnect -/

/-- What a disconnect leaves is as good as new. -/
theorem Configured.onDisconnect_resembles_new (h : s.Configured) :
    s.onDisconnect.session.Resembles (new s.cfg) := by
  refine ⟨rfl, rfl, ?_, rfl, rfl, fun hstarted => ?_⟩
  · rw [onDisconnect_queue, h]
    rfl
  · exact absurd hstarted Bool.false_ne_true

/-- Disconnect leaves nothing behind.  Everything outstanding is canceled, each
command once and under the id it was submitted under; the gate is reported shut
exactly when it was open; and whatever is called afterwards, a new session with the
same configuration does and returns the same. -/
theorem disconnect_leaves_nothing_behind (h : lts.Reachable s) :
    s.onDisconnect.events =
        (s.queue.inFlight ++ s.queue.pending).map
            (fun e => .response e.done .canceled []) ++
          (if s.queue.ready then [.ready false] else []) ∧
      ((s.queue.inFlight ++ s.queue.pending).map Entry.id).Nodup ∧
      (∀ e ∈ s.queue.inFlight ++ s.queue.pending, e.done.id = e.id) ∧
      s.onDisconnect.session.queue.outstanding = [] ∧
      ∀ ops, s.onDisconnect.session.outputs ops = (new s.cfg).outputs ops := by
  have hs : s.Sound := sound h
  have hperm : (s.queue.inFlight ++ s.queue.pending).Perm s.queue.outstanding :=
    List.perm_append_comm
  refine ⟨?_, ?_, ?_, rfl, ?_⟩
  · rw [hs.gate]
    exact s.onDisconnect_events
  · exact (hperm.map Entry.id).nodup_iff.mpr hs.single.ids
  · exact fun e he => (hs.attributed e (hperm.subset he)).1
  · exact (configured h).onDisconnect_resembles_new.outputs_eq

/-- A disconnect with a command in flight and the gate open. -/
theorem disconnect_leaves_nothing_behind_ready_camera :
    let s := (Lts.play next (new {}) [.tick 5,
      .feed .query [8, 0x93, 0, 8, 1, 0, 10, 1, 0] 6,
      .submit .command [1, 1, 1] .queued 7, .feed .query [5, 9, 9] 8]).1
    observed s.onDisconnect.events = [.response 1 .canceled [], .ready false] ∧
      ∀ ops, s.onDisconnect.session.outputs ops = (new s.cfg).outputs ops := by
  refine ⟨rfl, ?_⟩
  exact (disconnect_leaves_nothing_behind (Lts.reachable_of_play ⟨{}, rfl⟩ _)).2.2.2.2

end BleSession

end GoproNative
