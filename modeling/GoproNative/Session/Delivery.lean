import GoproNative.Session.Isolation

/-!
# What `deliver` does with a message

A message that answers a command in flight takes it out, is reported to its
submission, and lets the queue go on; then its word is taken up.  A message that
answers none has its word taken up and is pushed.
-/

namespace GoproNative

/-- The queue once the entry in flight under an id is taken out. -/
def CommandQueue.without {κ : Type} (q : CommandQueue κ) (id : CorrelationId) :
    CommandQueue κ :=
  { q with inFlight := q.inFlight.eraseP fun e => e.id == id }

namespace BleSession

variable {s : BleSession}

/-- The command in flight that a message answers. -/
def answers (s : BleSession) (channel : Channel) (message : Bytes) :
    Option (Entry Submission) :=
  s.queue.inFlight.find? fun e => e.id == s.answeredId channel message

/-- The session once the answered command is out and the queue has gone on. -/
def resolved (s : BleSession) (channel : Channel) (message : Bytes)
    (nowMs : UInt64) : BleSession :=
  { s with queue := ((s.queue.without (s.answeredId channel message)).pump nowMs).1 }

theorem deliver_of_answers {channel : Channel} {message : Bytes}
    {e : Entry Submission} (h : s.answers channel message = some e) (nowMs : UInt64) :
    (s.deliver channel message nowMs).session =
        ((s.resolved channel message nowMs).setGate (s.readyState.hear message)
          nowMs).session ∧
      (s.deliver channel message nowMs).events =
        .received channel message :: .response e.done .responded message ::
          ((((s.queue.without (s.answeredId channel message)).pump nowMs).2.flatMap
              (report s.cfg.attPayload)) ++
            (s.announced (s.readyState.hear message) ++
              ((s.resolved channel message nowMs).setGate (s.readyState.hear message)
                nowMs).events)) := by
  have hreply : s.callQueue (s.queue.onResponse (s.answeredId channel message) message
      nowMs) =
      { session := s.resolved channel message nowMs
        events := .response e.done .responded message ::
          ((s.queue.without (s.answeredId channel message)).pump nowMs).2.flatMap
            (report s.cfg.attPayload) } := by
    rw [answers] at h
    simp only [CommandQueue.onResponse, h]
    rfl
  obtain ⟨hsession, hevents⟩ :=
    (s.resolved channel message nowMs).foldReply_eq message nowMs
  unfold deliver
  simp only [hreply, if_true]
  refine ⟨hsession, ?_⟩
  rw [hevents]
  rfl

theorem deliver_of_not_answers {channel : Channel} {message : Bytes}
    (h : s.answers channel message = none) (nowMs : UInt64) :
    (s.deliver channel message nowMs).session =
        (s.setGate (s.readyState.hear message) nowMs).session ∧
      (s.deliver channel message nowMs).events =
        .received channel message ::
          ((s.setGate (s.readyState.hear message) nowMs).events ++
            s.announced (s.readyState.hear message) ++
            [.push channel (parseQuery message).2 message]) := by
  have hreply : s.callQueue (s.queue.onResponse (s.answeredId channel message) message
      nowMs) = { session := s, result := false } := by
    rw [answers] at h
    simp only [CommandQueue.onResponse, h]
    rfl
  obtain ⟨hsession, hevents⟩ := s.foldPush_eq channel message nowMs
  unfold deliver
  simp only [hreply, Bool.false_eq_true, if_false]
  refine ⟨hsession, ?_⟩
  rw [hevents]
  rfl

/-- What a message answers is in flight under the id it was looked up by. -/
theorem answers_eq_some {channel : Channel} {message : Bytes} {e : Entry Submission}
    (h : s.answers channel message = some e) :
    e ∈ s.queue.inFlight ∧ e.id = s.answeredId channel message :=
  ⟨List.mem_of_find?_eq_some h, by simpa using List.find?_some h⟩

theorem answers_eq_none {channel : Channel} {message : Bytes} :
    s.answers channel message = none ↔
      ∀ e ∈ s.queue.inFlight, e.id ≠ s.answeredId channel message := by
  simp [answers]

end BleSession

end GoproNative
