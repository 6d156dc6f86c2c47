import GoproNative.Camera.Correlation
import GoproNative.Camera.Sessions
import GoproNative.Session.Wire

/-!
# Queries and the ready gate

The ready gate is opened by the answer to a query, so a query must not wait behind it.
`send` gives a query the fastpass unless its caller says otherwise.  `sendProtobuf` gives
every request the same priority on every channel, and that is the one of an ordinary
command.
-/

namespace GoproNative

/-- A request on the query channel whose caller names no priority. -/
inductive QueryCall
  | send (payload : List DartInt)
  | sendProtobuf (featureId actionId : DartInt) (message : List DartInt)

namespace QueryCall

/-- The message that is to be framed. -/
def framed : QueryCall → Bytes
  | send payload => payload.map UInt64.toUInt8
  | sendProtobuf featureId actionId message =>
      featureId.toUInt8 :: actionId.toUInt8 :: message.map UInt64.toUInt8

/-- The priority the call chooses. -/
def priority : QueryCall → Priority
  | send _ => .fastpass
  | sendProtobuf _ _ _ => .queued

end QueryCall

/-! ## A submission to a session -/

theorem int32_of_lt {n : Nat} (h : n < 2 ^ 31) : int32 n = n := by
  rw [int32, BitVec.toInt_ofNat', Int.bmod_def]
  omega

/-- The bindings copy a payload whose length is an `Int32`. -/
theorem submit_eq {s : BleSession} {channel : Channel} {b : DartInt} {rest : List DartInt}
    {priority : Priority} {nowMs : UInt64} (hlen : (b :: rest).length < 2 ^ 31) :
    BleBindings.submit s channel (b :: rest) priority nowMs =
      s.enqueue (correlationOf channel b.toUInt8) ((b :: rest).map UInt64.toUInt8)
        priority false nowMs := by
  rw [BleBindings.submit]
  simp only [int32_of_lt hlen]
  rw [if_neg (by simp), Int.toNat_natCast, ← List.length_map (f := UInt64.toUInt8),
    List.take_length]
  rfl

theorem submitProtobuf_eq {s : BleSession} {channel : Channel}
    {featureId actionId : DartInt} {message : List DartInt} {priority : Priority}
    {nowMs : UInt64} (hlen : message.length < 2 ^ 31) :
    BleBindings.submitProtobuf s channel featureId actionId message priority nowMs =
      s.enqueue (BleBindings.protobufCorrelation channel featureId actionId)
        (featureId.toUInt8 :: actionId.toUInt8 :: message.map UInt64.toUInt8) priority
        false nowMs := by
  rw [BleBindings.submitProtobuf]
  simp only [int32_of_lt hlen]
  rw [if_neg (by simp), Int.toNat_natCast, ← List.length_map (f := UInt64.toUInt8),
    List.take_length]
  rfl

namespace BleSession

variable {s : BleSession}

/-- The gate is open and no ordinary command is in flight. -/
def LetsThrough (s : BleSession) : Prop :=
  s.queue.ready = true ∧ ∀ e ∈ s.queue.inFlight, e.priority ≠ .queued

instance (s : BleSession) : Decidable s.LetsThrough := inferInstanceAs (Decidable (_ ∧ _))

/-- A submission that is accepted goes out in the call, alone, or nothing does. -/
theorem Orderly.enqueue_events (h : s.Orderly) {id : CorrelationId} {payload : Bytes}
    {priority : Priority} {byTick : Bool} {nowMs : UInt64}
    (haccepted : (s.enqueue id payload priority byTick nowMs).result = true) :
    ((priority = .queued → s.LetsThrough) ∧
      (s.enqueue id payload priority byTick nowMs).events =
        [.write ⟨id, payload, priority, ⟨id, s.submissions, byTick⟩, nowMs, nowMs⟩
          (channelOfCorrelation id) (fragment payload s.cfg.attPayload)]) ∨
    (¬(priority = .queued → s.LetsThrough) ∧
      (s.enqueue id payload priority byTick nowMs).events = []) := by
  unfold BleSession.enqueue BleSession.callQueue at haccepted ⊢
  rcases s.queue.submit_cases id payload priority ⟨id, s.submissions, byTick⟩ nowMs with
    ⟨-, hrefused⟩ | ⟨e, he, hfree, hsubmit⟩
  · rw [hrefused] at haccepted
    exact absurd haccepted (by simp)
  · have hnot : ∀ f ∈ s.queue.inFlight, f.id ≠ e.id := by
      intro f hf hid
      exact hfree (List.mem_map.mpr ⟨f, List.mem_append_right _ hf, hid⟩)
    have hsend : s.queue.canSend e = true ↔ (priority = .queued → s.LetsThrough) := by
      rw [CommandQueue.canSend_iff, he]
      rw [he] at hnot
      exact and_iff_right hnot
    rw [hsubmit]
    rcases h.settled.pump_push e nowMs with ⟨hyes, q', hpump⟩ | ⟨hno, hpump⟩
    · left
      refine ⟨hsend.mp hyes, ?_⟩
      simp only [Activation.run, CommandQueue.resume, hpump]
      simp [report, he, Entry.sent]
    · right
      rw [← hsend, hno]
      refine ⟨by simp, ?_⟩
      simp [Activation.run, CommandQueue.resume, hpump, report]

end BleSession

/-! ## A call of the camera -/

namespace Camera

variable {c c' : Camera} {f : Completer}

/-- `send`, or `sendProtobuf`, with no priority given. -/
def query (c : Camera) (nowMs : UInt64) : QueryCall → Camera × Except DartError Completer
  | .send payload => c.send .query payload none nowMs
  | .sendProtobuf featureId actionId message =>
      c.sendProtobuf .query featureId actionId message .queued nowMs

/-- The call posted the packets of its own submission, the whole message, for the query
characteristic. -/
def HandedOver (c c' : Camera) (f : Completer) (framed : Bytes) : Prop :=
  ∃ posted e, c'.port = c.port ++ posted ∧ e.done.number = f.number ∧
    e.payload = framed ∧ fragment framed c.session.cfg.attPayload ≠ [] ∧
    (SessionEvent.write e Channel.query.value
      (fragment framed c.session.cfg.attPayload)).post <:+: posted

theorem enter_ok {id : DartInt} {submit : BleSession → Turn} {refusal : DartError}
    (h : c.enter id submit refusal = (c', .ok f)) :
    (submit c.session).result = true ∧ f = ⟨c.session.submissions⟩ ∧
      c' = (c.entered id).call (submit c.session) := by
  unfold enter at h
  simp only at h
  split at h
  · next hresult =>
    obtain ⟨hc, hf⟩ := Prod.mk.inj h
    exact ⟨hresult, (Except.ok.inj hf).symm, hc.symm⟩
  · simp at h

theorem send_ok {channel : Channel} {payload : List DartInt} {priority : Option Priority}
    {nowMs : UInt64} (hlen : payload.length < 2 ^ 31)
    (h : c.send channel payload priority nowMs = (c', .ok f)) :
    c.state = .up ∧ ∃ b rest, payload = b :: rest ∧ ∃ refusal,
      c.enter (BleCodec.correlationOf channel b)
        (fun s => s.enqueue (correlationOf channel b.toUInt8) (payload.map UInt64.toUInt8)
          (priority.getD (if channel = .query then .fastpass else .queued)) false nowMs)
        refusal = (c', .ok f) := by
  unfold Camera.send at h
  split at h
  · simp at h
  · next hup =>
    rw [not_not] at hup
    refine ⟨hup, ?_⟩
    rcases payload with _ | ⟨b, rest⟩
    · simp at h
    · simp only [submit_eq hlen] at h
      split at h
      · simp at h
      · exact ⟨b, rest, rfl, _, h⟩

theorem sendProtobuf_ok {channel : Channel} {featureId actionId : DartInt}
    {message : List DartInt} {priority : Priority} {nowMs : UInt64}
    (hlen : message.length < 2 ^ 31)
    (h : c.sendProtobuf channel featureId actionId message priority nowMs = (c', .ok f)) :
    c.state = .up ∧ ∃ refusal,
      c.enter (BleBindings.protobufCorrelation channel featureId actionId)
        (fun s => s.enqueue (BleBindings.protobufCorrelation channel featureId actionId)
          (featureId.toUInt8 :: actionId.toUInt8 :: message.map UInt64.toUInt8) priority
          false nowMs) refusal = (c', .ok f) := by
  unfold Camera.sendProtobuf at h
  split at h
  · simp at h
  · next hup =>
    rw [not_not] at hup
    refine ⟨hup, ?_⟩
    simp only [submitProtobuf_eq hlen] at h
    split at h
    · simp at h
    · exact ⟨_, h⟩

/-- An accepted query is a submission of what is to be framed, under an id of the query
channel. -/
theorem query_ok {nowMs : UInt64} {q : QueryCall} (hlen : q.framed.length ≤ kMaxMessageLen)
    (h : c.query nowMs q = (c', .ok f)) :
    c.state = .up ∧ q.framed ≠ [] ∧ f = ⟨c.session.submissions⟩ ∧ ∃ id own,
      channelOfCorrelation own = Channel.query.value ∧
      (c.session.enqueue own q.framed q.priority false nowMs).result = true ∧
      c' = (c.entered id).call (c.session.enqueue own q.framed q.priority false nowMs) := by
  have hmax : kMaxMessageLen = 65534 := rfl
  rcases q with payload | ⟨featureId, actionId, message⟩
  · have hshort : payload.length < 2 ^ 31 := by
      rw [QueryCall.framed, List.length_map] at hlen
      omega
    obtain ⟨hup, b, rest, rfl, refusal, henter⟩ := send_ok hshort h
    obtain ⟨hresult, hf, hc'⟩ := enter_ok henter
    exact ⟨hup, by simp [QueryCall.framed], hf, _, _, channelOfCorrelation_correlationOf _ _, hresult, hc'⟩
  · have hshort : message.length < 2 ^ 31 := by
      rw [QueryCall.framed, List.length_cons, List.length_cons, List.length_map] at hlen
      omega
    obtain ⟨hup, refusal, henter⟩ := sendProtobuf_ok hshort h
    obtain ⟨hresult, hf, hc'⟩ := enter_ok henter
    exact ⟨hup, by simp [QueryCall.framed], hf, _, _, channelOfCorrelation_protobuf _ _ _, hresult, hc'⟩

/-- What an accepted query posts. -/
theorem query_posts {nowMs : UInt64} {q : QueryCall} (hlive : c.destroyed = false)
    (hs : c.session.Orderly) (hlen : q.framed.length ≤ kMaxMessageLen)
    (h : c.query nowMs q = (c', .ok f)) :
    ((q.priority = .queued → c.session.LetsThrough) ∧ ∃ e : Entry Submission,
      e.done.number = f.number ∧ e.payload = q.framed ∧
      c'.port = c.port ++ (SessionEvent.write e Channel.query.value
        (fragment q.framed c.session.cfg.attPayload)).post) ∨
    (¬(q.priority = .queued → c.session.LetsThrough) ∧ c'.port = c.port) := by
  obtain ⟨-, -, rfl, id, own, hchannel, hresult, rfl⟩ := query_ok hlen h
  have hport : ((c.entered id).call
      (c.session.enqueue own q.framed q.priority false nowMs)).port = c.port ++
        (c.session.enqueue own q.framed q.priority false nowMs).events.flatMap
          SessionEvent.post := by
    have hentered : (c.entered id).destroyed = false := hlive
    rw [call, if_neg (by simp [hentered])]
    rfl
  rw [hport]
  rcases hs.enqueue_events hresult with ⟨hthrough, hevents⟩ | ⟨hshut, hevents⟩
  · left
    refine ⟨hthrough, ⟨own, q.framed, q.priority, ⟨own, c.session.submissions, false⟩,
      nowMs, nowMs⟩, rfl, rfl, ?_⟩
    rw [hevents, hchannel]
    simp
  · right
    refine ⟨hshut, ?_⟩
    rw [hevents]
    simp

theorem post_ne_nil {e : Entry Submission} {channel : UInt8} {packets : List Bytes}
    (h : packets ≠ []) : (SessionEvent.write e channel packets).post ≠ [] := by
  intro hnil
  have hlength := congrArg List.length hnil
  simp only [SessionEvent.post, SessionEvent.posts, List.length_map, List.length_attach,
    List.length_nil] at hlength
  exact h (List.length_eq_zero_iff.mp hlength)

/-- A camera on whose port nothing new stands has handed nothing over. -/
theorem not_handedOver {framed : Bytes} (h : c'.port = c.port) :
    ¬c.HandedOver c' f framed := by
  rintro ⟨posted, e, hport, -, -, hpackets, hinfix⟩
  have hnil : posted = [] := by simpa [h] using hport
  rw [hnil, List.infix_nil] at hinfix
  exact post_ne_nil hpackets hinfix

/-- When queries are not gated.  In every state of a connected camera, a query of at most
the greatest length that is accepted has been handed to the transport when the call
returns if it was made through `send`, or if the gate was open with no ordinary command in
flight; and otherwise it has not. -/
theorem query_handedOver_iff {cfg : SessionConfig} {reconnectTimeoutMs : Nat} {a : Attached}
    {startMs nowMs : UInt64} {c₀ : Camera} {labels : List (CameraOp × List CameraEvent)}
    {q : QueryCall} (hconnect : connect cfg reconnectTimeoutMs a startMs = .ok c₀)
    (hmin : kMinAttPayload ≤ cfg.attPayload) (hrun : lts.Run c₀ labels c)
    (hlen : q.framed.length ≤ kMaxMessageLen) (haccepted : c.query nowMs q = (c', .ok f)) :
    c.HandedOver c' f q.framed ↔
      (∃ payload, q = .send payload) ∨ c.session.LetsThrough := by
  have hstart : lts.start c₀ := ⟨cfg, reconnectTimeoutMs, a, startMs, hconnect⟩
  have hstaged : Staged c.phase := staged ⟨c₀, labels, hstart, hrun⟩
  obtain ⟨hup, hne, -⟩ := query_ok hlen haccepted
  have hlive : c.destroyed = false := by
    by_contra hdestroyed
    have hdown := hstaged.destroyed (eq_true_of_ne_false hdestroyed)
    exact absurd (hup.symm.trans hdown) (by simp)
  obtain ⟨calls, hcalls⟩ := session_run hconnect hrun
  have hsound : c.session.Sound := BleSession.sound ⟨_, calls, ⟨cfg, rfl⟩, hcalls⟩
  have hpayload : kMinAttPayload ≤ c.session.cfg.attPayload :=
    BleSession.attPayload_run hcalls hmin
  have hcond : (q.priority = .queued → c.session.LetsThrough) ↔
      (∃ payload, q = .send payload) ∨ c.session.LetsThrough := by
    rcases q with payload | ⟨featureId, actionId, message⟩ <;> simp [QueryCall.priority]
  rw [← hcond]
  rcases query_posts hlive hsound.toOrderly hlen haccepted with
    ⟨hthrough, e, hnumber, hframed, hport⟩ | ⟨hshut, hport⟩
  · obtain ⟨start, conts, hpackets, -⟩ :=
      fragment_framed ((BleSession.sendable_iff_length hne hpayload).mpr hlen)
    refine iff_of_true ⟨_, e, hport, hnumber, hframed, ?_, List.infix_refl _⟩ hthrough
    simp [hpackets]
  · exact iff_of_false (not_handedOver hport) hshut

/-- The status query of a connected camera that has just been heard from. -/
theorem query_handedOver_iff_ready :
    ∃ c₀ c labels c' f, connect {} 300000 plainCamera 0 = .ok c₀ ∧ lts.Run c₀ labels c ∧
      c.query 40 (.sendProtobuf 0xF5 0x74 []) = (c', .ok f) ∧
      c.HandedOver c' f [0xF5, 0x74] := by
  obtain ⟨c₀, c, labels, c', f, hconnect, htrace, haccepted, hthrough⟩ :
      ∃ c₀ c labels c' f, connect {} 300000 plainCamera 0 = .ok c₀ ∧
        Lts.trace next c₀ [.notification .query [8, 0x13, 0, 8, 1, 0, 10, 1, 0] 20] =
          some (c, labels) ∧
        c.query 40 (.sendProtobuf 0xF5 0x74 []) = (c', .ok f) ∧
        c.session.LetsThrough :=
    ⟨_, _, _, _, _, rfl, rfl, rfl, by decide⟩
  have hrun : lts.Run c₀ labels c := Lts.run_of_trace htrace
  refine ⟨c₀, c, labels, c', f, hconnect, hrun, haccepted, ?_⟩
  exact (query_handedOver_iff hconnect (by decide) hrun (by decide) haccepted).mpr
    (Or.inr hthrough)

/-- The livestream status is asked for by `sendProtobuf`.  On a camera that has not been
heard from, the request waits. -/
theorem query_not_handedOver :
    ¬∀ cfg reconnectTimeoutMs a startMs c₀ labels c nowMs q c' f,
      connect cfg reconnectTimeoutMs a startMs = .ok c₀ → kMinAttPayload ≤ cfg.attPayload →
      lts.Run c₀ labels c → q.framed.length ≤ kMaxMessageLen →
      c.query nowMs q = (c', .ok f) → c.HandedOver c' f q.framed := by
  intro h
  obtain ⟨c₀, c', f, hconnect, haccepted, hport⟩ :
      ∃ c₀ c' f, connect {} 300000 plainCamera 0 = .ok c₀ ∧
        c₀.query 40 (.sendProtobuf 0xF5 0x74 []) = (c', .ok f) ∧ c'.port = c₀.port :=
    ⟨_, _, _, rfl, rfl, rfl⟩
  exact not_handedOver hport
    (h _ _ _ _ _ _ _ _ _ _ _ hconnect (by decide) (.nil _) (by decide) haccepted)

end Camera

end GoproNative
