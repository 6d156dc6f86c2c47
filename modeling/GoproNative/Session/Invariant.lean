import GoproNative.Session.Definitions
import GoproNative.Query.Readiness
import GoproNative.Queue.Settled

/-!
# What every session keeps

The queue's flag and the readiness fold agree, the queue is settled and of
single flight, and every completion is attributed to the submission that is
outstanding under its id.  All of it is kept by every call of the queue, so it
is proved for `callQueue` once.
-/

namespace GoproNative

/-- The id of `tick`'s keep-alive. -/
def keepAliveId : CorrelationId := correlationOf .settings kLedSettingId

/-- What is outstanding belongs to one of `n` submissions, and reports under the id
it was submitted under; `tick` submits keep-alives only. -/
def Attributed (n : Nat) (q : CommandQueue Submission) : Prop :=
  ∀ e ∈ q.outstanding, e.done.id = e.id ∧ e.done.number < n ∧
    (e.done.byTick = true → e.id = keepAliveId ∧ e.priority = .keepAlive)

theorem Attributed.run {n m : Nat} {q : CommandQueue Submission} (h : Attributed n q)
    (hnm : n ≤ m) (done : Submission) (op : QueueOp)
    (hdone : ∀ id payload priority nowMs, op = .submit id payload priority nowMs →
      done.id = id ∧ done.number < m ∧
        (done.byTick = true → id = keepAliveId ∧ priority = .keepAlive)) :
    Attributed m (q.activate done op).run.1 := by
  intro e he
  have hmem := CommandQueue.run_outstanding
    (f := fun e : Entry Submission => (e.id, e.done, e.priority)) (fun _ _ => rfl)
    q done op _ (List.mem_map_of_mem he)
  rcases hmem with hold | ⟨id, payload, priority, nowMs, hop, heq⟩
  · obtain ⟨e', he', heq⟩ := List.mem_map.mp hold
    simp only [Prod.mk.injEq] at heq
    obtain ⟨hid, hdone', hprio⟩ := heq
    obtain ⟨h₁, h₂, h₃⟩ := h e' he'
    rw [← hid, ← hdone', ← hprio]
    exact ⟨h₁, Nat.lt_of_lt_of_le h₂ hnm, h₃⟩
  · simp only [Prod.mk.injEq] at heq
    obtain ⟨hid, hdone', hprio⟩ := heq
    rw [hid, hdone', hprio]
    exact hdone id payload priority nowMs hop

namespace BleSession

/-! ## The queue of a session -/

/-- The part of the invariant that the queue's own calls keep. -/
structure Orderly (s : BleSession) : Prop where
  single : s.queue.SingleFlight
  settled : s.queue.Settled
  attributed : Attributed s.submissions s.queue

structure Sound (s : BleSession) : Prop extends Orderly s where
  gate : s.queue.ready = s.readyState.ready

variable {s : BleSession}

/-- Only the queue, the readiness and the count matter. -/
theorem Orderly.congr {t : BleSession} (h : s.Orderly) (hqueue : t.queue = s.queue)
    (hcount : t.submissions = s.submissions) : t.Orderly :=
  ⟨hqueue ▸ h.single, hqueue ▸ h.settled, by
    rw [hqueue, hcount]
    exact h.attributed⟩

theorem Sound.congr {t : BleSession} (h : s.Sound) (hqueue : t.queue = s.queue)
    (hcount : t.submissions = s.submissions) (hword : t.readyState = s.readyState) :
    t.Sound :=
  ⟨h.toOrderly.congr hqueue hcount, by rw [hqueue, hword, h.gate]⟩

theorem Orderly.callQueue (h : s.Orderly) (done : Submission) (op : QueueOp)
    (hop : ∀ id payload priority nowMs, op ≠ .submit id payload priority nowMs) :
    (s.callQueue (s.queue.activate done op)).session.Orderly :=
  ⟨h.single.run done op, h.settled.run done op,
    h.attributed.run (Nat.le_refl _) done op
      fun _ _ _ _ heq => absurd heq (hop _ _ _ _)⟩

theorem Orderly.enqueue (h : s.Orderly) (id : CorrelationId) (payload : Bytes)
    (priority : Priority) (byTick : Bool) (nowMs : UInt64)
    (htick : byTick = true → id = keepAliveId ∧ priority = .keepAlive) :
    (s.enqueue id payload priority byTick nowMs).session.Orderly := by
  let done : Submission := ⟨id, s.submissions, byTick⟩
  let op : QueueOp := .submit id payload priority nowMs
  refine ⟨h.single.run done op, h.settled.run done op,
    h.attributed.run (Nat.le_succ _) done op ?_⟩
  intro id' payload' priority' nowMs' heq
  simp only [op, QueueOp.submit.injEq] at heq
  obtain ⟨rfl, -, rfl, -⟩ := heq
  exact ⟨rfl, Nat.lt_succ_self _, htick⟩

/-- Stands in where an operation brings no submission. -/
def nobody : Submission := ⟨0, 0, false⟩

theorem Orderly.setReady (h : s.Orderly) (ready : Bool) (nowMs : UInt64) :
    (s.callQueue (s.queue.setReady ready nowMs)).session.Orderly :=
  h.callQueue nobody (.setReady ready nowMs) (by simp)

theorem Orderly.onResponse (h : s.Orderly) (id : CorrelationId) (data : Bytes)
    (nowMs : UInt64) : (s.callQueue (s.queue.onResponse id data nowMs)).session.Orderly :=
  h.callQueue nobody (.onResponse id data nowMs) (by simp)

theorem Orderly.tick (h : s.Orderly) (nowMs : UInt64) :
    (s.callQueue (s.queue.tick nowMs)).session.Orderly :=
  h.callQueue nobody (.tick nowMs) (by simp)

theorem Orderly.cancelAll (h : s.Orderly) :
    (s.callQueue s.queue.cancelAll).session.Orderly :=
  h.callQueue nobody .cancelAll (by simp)

/-- The writes of a call of the queue. -/
theorem write_mem_callQueue {a : Activation Submission} {e : Entry Submission}
    {channel : UInt8} {packets : List Bytes} :
    .write e channel packets ∈ (s.callQueue a).events ↔
      (∃ q, .wrote e q ∈ a.run.2) ∧ channel = channelOfCorrelation e.id ∧
        packets = fragment e.payload s.cfg.attPayload := by
  simp only [callQueue, List.mem_flatMap]
  constructor
  · rintro ⟨qev, hqev, hev⟩
    cases qev with
    | wrote e' q =>
        simp only [report, List.mem_singleton, SessionEvent.write.injEq] at hev
        obtain ⟨rfl, rfl, rfl⟩ := hev
        exact ⟨⟨q, hqev⟩, rfl, rfl⟩
    | _ => simp [report] at hev
  · rintro ⟨⟨q, hq⟩, rfl, rfl⟩
    exact ⟨_, hq, by simp [report]⟩

/-! ## The gate -/

/-- Takes up a new word of the camera, and tells the queue if readiness changed:
what both tails of `deliver` do. -/
def setGate (s : BleSession) (word : ReadyState) (nowMs : UInt64) : Turn :=
  if word.ready = s.readyState.ready then
    { session := { s with readyState := word } }
  else callQueue { s with readyState := word } (s.queue.setReady word.ready nowMs)

/-- The `on_ready_` call that goes with it. -/
def announced (s : BleSession) (word : ReadyState) : List SessionEvent :=
  if word.ready = s.readyState.ready then [] else [.ready word.ready]

theorem foldReply_eq (s : BleSession) (message : Bytes) (nowMs : UInt64) :
    (s.foldReply message nowMs).session =
        (s.setGate (s.readyState.hear message) nowMs).session ∧
      (s.foldReply message nowMs).events =
        s.announced (s.readyState.hear message) ++
          (s.setGate (s.readyState.hear message) nowMs).events := by
  unfold foldReply ReadyState.hear setGate announced
  rcases hparse : parseQuery message with ⟨result, parsed⟩
  cases result with
  | ok =>
      by_cases hsame : (s.readyState.apply parsed).2.ready = s.readyState.ready <;>
        simp [ReadyState.apply_changed, hsame]
  | tooShort => simp
  | truncatedTlv => simp

theorem foldPush_eq (s : BleSession) (channel : Channel) (message : Bytes)
    (nowMs : UInt64) :
    (s.foldPush channel message nowMs).session =
        (s.setGate (s.readyState.hear message) nowMs).session ∧
      (s.foldPush channel message nowMs).events =
        (s.setGate (s.readyState.hear message) nowMs).events ++
          s.announced (s.readyState.hear message) ++
          [.push channel (parseQuery message).2 message] := by
  unfold foldPush ReadyState.hear setGate announced
  rcases hparse : parseQuery message with ⟨result, parsed⟩
  cases result with
  | ok =>
      by_cases hsame : (s.readyState.apply parsed).2.ready = s.readyState.ready <;>
        simp [ReadyState.apply_changed, hsame]
  | tooShort => simp
  | truncatedTlv => simp

@[simp] theorem setGate_readyState (s : BleSession) (word : ReadyState)
    (nowMs : UInt64) : (s.setGate word nowMs).session.readyState = word := by
  unfold setGate
  split <;> rfl

theorem Orderly.setGate (h : s.Orderly) (word : ReadyState) (nowMs : UInt64) :
    (s.setGate word nowMs).session.Orderly := by
  have hword : Orderly { s with readyState := word } := h.congr rfl rfl
  unfold BleSession.setGate
  split
  · exact hword
  · exact hword.setReady word.ready nowMs

theorem Sound.setGate (h : s.Sound) (word : ReadyState) (nowMs : UInt64) :
    (s.setGate word nowMs).session.Sound := by
  refine ⟨h.toOrderly.setGate word nowMs, ?_⟩
  rw [setGate_readyState]
  unfold BleSession.setGate
  split
  · next hsame => exact h.gate.trans hsame.symm
  · exact CommandQueue.run_ready s.queue nobody (.setReady word.ready nowMs)

/-! ## The tick -/

/-- A tick on which the interval has elapsed. -/
def Due (s : BleSession) (nowMs : UInt64) : Prop :=
  s.keepAliveStarted = true ∧
    s.cfg.keepAliveIntervalMs.toUInt64 ≤ nowMs - s.lastKeepAliveMs

/-- The session after the sweep, with the attempt recorded. -/
def anchored (s : BleSession) (nowMs : UInt64) : BleSession :=
  { (s.callQueue (s.queue.tick nowMs)).session with lastKeepAliveMs := nowMs }

/-- A due tick is the sweep and then the submission of a keep-alive. -/
theorem tick_of_due (h : s.Due nowMs) :
    (s.tick nowMs).session = ((s.anchored nowMs).enqueue keepAliveId keepAlivePayload
        .keepAlive true nowMs).session ∧
      (s.tick nowMs).events = (s.callQueue (s.queue.tick nowMs)).events ++
        ((s.anchored nowMs).enqueue keepAliveId keepAlivePayload .keepAlive true
          nowMs).events := by
  obtain ⟨hstarted, hdue⟩ := h
  have hswept : (s.callQueue (s.queue.tick nowMs)).session.keepAliveStarted = true := hstarted
  have hlate : ¬nowMs - (s.callQueue (s.queue.tick nowMs)).session.lastKeepAliveMs <
      (s.callQueue (s.queue.tick nowMs)).session.cfg.keepAliveIntervalMs.toUInt64 :=
    UInt64.not_lt.mpr hdue
  unfold tick
  simp only
  rw [if_neg (by simp [hswept]), if_neg hlate]
  exact ⟨rfl, rfl⟩

/-- Another tick is the sweep alone, but for the anchor. -/
theorem tick_of_not_due (h : ¬s.Due nowMs) :
    (s.tick nowMs).session = { (s.callQueue (s.queue.tick nowMs)).session with
        keepAliveStarted := true
        lastKeepAliveMs := if s.keepAliveStarted then s.lastKeepAliveMs else nowMs } ∧
      (s.tick nowMs).events = (s.callQueue (s.queue.tick nowMs)).events := by
  cases hstarted : s.keepAliveStarted with
  | false =>
      unfold tick
      simp only
      rw [if_pos (by simp [callQueue, hstarted])]
      exact ⟨rfl, rfl⟩
  | true =>
      have hearly : nowMs - (s.callQueue (s.queue.tick nowMs)).session.lastKeepAliveMs <
          (s.callQueue (s.queue.tick nowMs)).session.cfg.keepAliveIntervalMs.toUInt64 := by
        by_contra hlate
        exact h ⟨hstarted, UInt64.not_lt.mp hlate⟩
      unfold tick
      simp only
      rw [if_neg (by simp [callQueue, hstarted]), if_pos hearly]
      exact ⟨by simp [callQueue, hstarted], rfl⟩

/-- `setAttPayload` touches the room in a packet and nothing else. -/
theorem setAttPayload_eq (s : BleSession) (bytes : Nat) :
    s.setAttPayload bytes = { s with cfg := { s.cfg with
      attPayload := if kMinAttPayload ≤ bytes then bytes else s.cfg.attPayload } } := by
  unfold setAttPayload
  split <;> rfl

/-! ## Every call keeps the invariant -/

theorem Sound.onResponse (h : s.Sound) (id : CorrelationId) (data : Bytes)
    (nowMs : UInt64) : (s.callQueue (s.queue.onResponse id data nowMs)).session.Sound :=
  ⟨h.toOrderly.onResponse id data nowMs,
    (CommandQueue.run_ready s.queue nobody (.onResponse id data nowMs)).trans h.gate⟩

/-- What `deliver` does to the session: the reply, and then the word. -/
theorem deliver_session (s : BleSession) (channel : Channel) (message : Bytes)
    (nowMs : UInt64) :
    (s.deliver channel message nowMs).session =
      (setGate (s.callQueue (s.queue.onResponse (s.answeredId channel message) message
        nowMs)).session (s.readyState.hear message) nowMs).session := by
  unfold deliver
  simp only
  split
  · exact (foldReply_eq _ message nowMs).1
  · exact (foldPush_eq _ channel message nowMs).1

theorem Sound.deliver (h : s.Sound) (channel : Channel) (message : Bytes)
    (nowMs : UInt64) : (s.deliver channel message nowMs).session.Sound := by
  rw [deliver_session]
  exact (h.onResponse _ message nowMs).setGate _ nowMs

theorem Sound.feed (h : s.Sound) (channel : Channel) (packet : Bytes)
    (nowMs : UInt64) : (s.feed channel packet nowMs).session.Sound := by
  have hrx : ∀ rx, Sound { s with rx := rx } := fun _ => h.congr rfl rfl rfl
  unfold BleSession.feed
  simp only
  split
  · exact hrx _
  · exact (hrx _).deliver channel _ nowMs
  · exact hrx _

theorem Sound.enqueue (h : s.Sound) (id : CorrelationId) (payload : Bytes)
    (priority : Priority) (byTick : Bool) (nowMs : UInt64)
    (htick : byTick = true → id = keepAliveId ∧ priority = .keepAlive) :
    (s.enqueue id payload priority byTick nowMs).session.Sound :=
  ⟨h.toOrderly.enqueue id payload priority byTick nowMs htick,
    (CommandQueue.run_ready s.queue ⟨id, s.submissions, byTick⟩
      (.submit id payload priority nowMs)).trans h.gate⟩

theorem Sound.tick (h : s.Sound) (nowMs : UInt64) : (s.tick nowMs).session.Sound := by
  have hswept : (s.callQueue (s.queue.tick nowMs)).session.Sound :=
    ⟨h.toOrderly.tick nowMs,
      (CommandQueue.run_ready s.queue nobody (.tick nowMs)).trans h.gate⟩
  have hanchored : (s.anchored nowMs).Sound := hswept.congr rfl rfl rfl
  by_cases hdue : s.Due nowMs
  · rw [(tick_of_due hdue).1]
    exact hanchored.enqueue _ _ _ _ _ fun _ => ⟨rfl, rfl⟩
  · rw [(tick_of_not_due hdue).1]
    exact hswept.congr rfl rfl rfl

theorem Sound.onDisconnect (h : s.Sound) : s.onDisconnect.session.Sound := by
  let canceled := (callQueue { s with rx := fun _ => {} } s.queue.cancelAll).session
  have hcanceled : canceled.Orderly := h.toOrderly.cancelAll.congr rfl rfl
  have hreset : Orderly { canceled with readyState := s.readyState.reset } :=
    hcanceled.congr rfl rfl
  exact ⟨(hreset.setReady false 0).congr rfl rfl, rfl⟩

theorem Sound.perform (h : s.Sound) (op : SessionOp) : (s.perform op).session.Sound := by
  cases op with
  | feed channel packet nowMs => exact h.feed channel packet nowMs
  | submit channel payload priority nowMs =>
      cases payload with
      | nil => exact h
      | cons b payload => exact h.enqueue _ _ _ _ _ (by simp)
  | submitProtobuf channel featureId actionId message priority nowMs =>
      exact h.enqueue _ _ _ _ _ (by simp)
  | tick nowMs => exact h.tick nowMs
  | setAttPayload bytes =>
      rw [BleSession.perform, setAttPayload_eq]
      exact h.congr rfl rfl rfl
  | onDisconnect => exact h.onDisconnect

theorem sound_new (cfg : SessionConfig) : (new cfg).Sound := by
  refine ⟨⟨⟨List.nodup_nil, Nat.zero_le _⟩, ?_, ?_⟩, rfl⟩
  · exact fun e he => absurd he List.not_mem_nil
  · exact fun e he => absurd he List.not_mem_nil

theorem step_eq {t : BleSession} {op : SessionOp} {evs : List SessionEvent}
    (h : lts.step s (op, evs) t) : t = (s.perform op).session ∧
      evs = (s.perform op).events := by
  obtain ⟨hsession, hevents⟩ := Prod.mk.inj h
  exact ⟨hsession.symm, hevents.symm⟩

theorem sound (h : lts.Reachable s) : s.Sound := by
  refine h.invariant ?_ ?_
  · rintro _ ⟨cfg, rfl⟩
    exact sound_new cfg
  · rintro s ⟨op, evs⟩ t - hs hstep
    rw [(step_eq hstep).1]
    exact hs.perform op

end BleSession

end GoproNative
