import GoproNative.Session.Routing

/-!
# What goes out on the wire

A command is in flight from the moment the queue hands it over for writing, whether
or not a packet comes of it.  The packets are those `fragment` makes, and `fragment`
makes none of a payload that the framing cannot express; nothing on the way from
`submit` to the wire asks for the length of a payload.
-/

namespace GoproNative

namespace BleSession

variable {s : BleSession}

/-! ## In flight is what was written -/

/-- A turn has in flight what it wrote, and nothing else that is new; what it wrote are
the fragments of the payloads, on the channels of the ids. -/
structure Flies (s : BleSession) (turn : Turn) : Prop where
  written : ∀ e channel packets, .write e channel packets ∈ turn.events →
    e ∈ turn.session.queue.inFlight ∧ channel = channelOfCorrelation e.id ∧
      packets = fragment e.payload s.cfg.attPayload
  inFlight : ∀ e ∈ turn.session.queue.inFlight, e ∈ s.queue.inFlight ∨
    ∃ channel packets, .write e channel packets ∈ turn.events

theorem flies_callQueue (s : BleSession) (done : Submission) (op : QueueOp) :
    s.Flies (s.callQueue (s.queue.activate done op)) := by
  constructor
  · intro e channel packets hwrite
    obtain ⟨hwrote, hchannel, hpackets⟩ := write_mem_callQueue.mp hwrite
    exact ⟨(s.queue.run_inFlight done op e).1 hwrote, hchannel, hpackets⟩
  · intro e he
    refine ((s.queue.run_inFlight done op e).2 he).imp_right fun hwrote => ?_
    exact ⟨_, _, write_mem_callQueue.mpr ⟨hwrote, rfl, rfl⟩⟩

/-- Writing nothing and putting nothing in flight. -/
theorem flies_of_silent {turn : Turn}
    (hwrites : ∀ e channel packets, .write e channel packets ∉ turn.events)
    (hsub : ∀ e ∈ turn.session.queue.inFlight, e ∈ s.queue.inFlight) : s.Flies turn :=
  ⟨fun e channel packets hwrite => absurd hwrite (hwrites e channel packets),
    fun e he => Or.inl (hsub e he)⟩

/-- One call of the queue after another, the second of which takes nothing out of
flight. -/
theorem Flies.trans {first second both : Turn} (h : s.Flies first)
    (h' : first.session.Flies second) (hcfg : first.session.cfg = s.cfg)
    (hkeeps : ∀ e ∈ first.session.queue.inFlight, e ∈ second.session.queue.inFlight)
    (hsession : both.session = second.session)
    (hevents : ∀ e channel packets, .write e channel packets ∈ both.events ↔
      .write e channel packets ∈ first.events ∨
        .write e channel packets ∈ second.events) : s.Flies both := by
  constructor
  · intro e channel packets hwrite
    rw [hsession]
    rcases (hevents e channel packets).mp hwrite with hfirst | hsecond
    · obtain ⟨hmem, hrest⟩ := h.written e channel packets hfirst
      exact ⟨hkeeps e hmem, hrest⟩
    · rw [← hcfg]
      exact h'.written e channel packets hsecond
  · intro e he
    rw [hsession] at he
    rcases h'.inFlight e he with hfirst | ⟨channel, packets, hwrite⟩
    · refine (h.inFlight e hfirst).imp_right ?_
      rintro ⟨channel, packets, hwrite⟩
      exact ⟨channel, packets, (hevents e channel packets).mpr (Or.inl hwrite)⟩
    · exact Or.inr ⟨channel, packets, (hevents e channel packets).mpr (Or.inr hwrite)⟩

theorem flies_setGate (s : BleSession) (word : ReadyState) (nowMs : UInt64) :
    s.Flies (s.setGate word nowMs) := by
  unfold setGate
  split
  · exact flies_of_silent (by simp) fun _ he => he
  · have hset := flies_callQueue { s with readyState := word } nobody
      (.setReady word.ready nowMs)
    exact ⟨hset.written, hset.inFlight⟩

theorem not_write_mem_announced {word : ReadyState} {e : Entry Submission}
    {channel : UInt8} {packets : List Bytes} :
    .write e channel packets ∉ s.announced word := by
  unfold announced
  split <;> simp

/-- What is written while a message is delivered. -/
theorem write_mem_deliver {channel : Channel} {message : Bytes} {nowMs : UInt64}
    {e : Entry Submission} {ch : UInt8} {packets : List Bytes} :
    .write e ch packets ∈ (s.deliver channel message nowMs).events ↔
      .write e ch packets ∈ (s.callQueue (s.queue.onResponse
        (s.answeredId channel message) message nowMs)).events ∨
      .write e ch packets ∈ (setGate (s.callQueue (s.queue.onResponse
        (s.answeredId channel message) message nowMs)).session
          (s.readyState.hear message) nowMs).events := by
  have hword : (s.callQueue (s.queue.onResponse (s.answeredId channel message) message
      nowMs)).session.readyState = s.readyState := rfl
  unfold deliver
  simp only
  split
  · rw [(foldReply_eq _ message nowMs).2, hword]
    simp [not_write_mem_announced]
  · rw [(foldPush_eq _ channel message nowMs).2, hword]
    simp [not_write_mem_announced]

theorem flies_deliver (s : BleSession) (channel : Channel) (message : Bytes)
    (nowMs : UInt64) : s.Flies (s.deliver channel message nowMs) := by
  have hreply := s.flies_callQueue nobody
    (.onResponse (s.answeredId channel message) message nowMs)
  exact hreply.trans (flies_setGate _ (s.readyState.hear message) nowMs) rfl
    (setGate_keeps _ _ nowMs).1 (deliver_session s channel message nowMs)
    fun _ _ _ => write_mem_deliver

theorem flies_feed (s : BleSession) (channel : Channel) (packet : Bytes)
    (nowMs : UInt64) : s.Flies (s.feed channel packet nowMs) := by
  rcases s.feed_cases channel packet nowMs with
    ⟨message, -, hfeed⟩ | ⟨-, hsession, hevents⟩
  · rw [hfeed]
    have hdeliver := (s.received channel packet).flies_deliver channel message nowMs
    exact ⟨hdeliver.written, hdeliver.inFlight⟩
  · refine flies_of_silent ?_ ?_
    · rcases hevents with hnil | ⟨result, herror⟩
      · simp [hnil]
      · simp [herror]
    · rw [hsession]
      exact fun _ he => he

theorem flies_enqueue (s : BleSession) (id : CorrelationId) (payload : Bytes)
    (priority : Priority) (byTick : Bool) (nowMs : UInt64) :
    s.Flies (s.enqueue id payload priority byTick nowMs) := by
  have hsubmit := flies_callQueue { s with submissions := s.submissions + 1 }
    ⟨id, s.submissions, byTick⟩ (.submit id payload priority nowMs)
  exact ⟨hsubmit.written, hsubmit.inFlight⟩

theorem flies_tick (s : BleSession) (nowMs : UInt64) : s.Flies (s.tick nowMs) := by
  have hswept := s.flies_callQueue nobody (.tick nowMs)
  by_cases hdue : s.Due nowMs
  · obtain ⟨hsession, hevents⟩ := tick_of_due hdue
    have hanchored : s.Flies
        { session := s.anchored nowMs
          events := (s.callQueue (s.queue.tick nowMs)).events } :=
      ⟨hswept.written, hswept.inFlight⟩
    refine hanchored.trans (flies_enqueue (s.anchored nowMs) keepAliveId keepAlivePayload
      .keepAlive true nowMs) rfl ?_ hsession ?_
    · exact CommandQueue.submit_keeps_inFlight _ _ _ _ _ _
    · intro e channel packets
      rw [hevents, List.mem_append]
  · obtain ⟨hsession, hevents⟩ := tick_of_not_due hdue
    constructor
    · rw [hsession, hevents]
      exact hswept.written
    · rw [hsession, hevents]
      exact hswept.inFlight

/-- So it is with every operation. -/
theorem flies_perform (s : BleSession) (op : SessionOp) : s.Flies (s.perform op) := by
  cases op with
  | feed channel packet nowMs => exact s.flies_feed channel packet nowMs
  | submit channel payload priority nowMs =>
      cases payload with
      | nil => exact flies_of_silent (by simp [perform, submit]) fun _ he => he
      | cons b rest => exact s.flies_enqueue _ _ _ _ _
  | submitProtobuf channel featureId actionId message priority nowMs =>
      exact s.flies_enqueue _ _ _ _ _
  | tick nowMs => exact s.flies_tick nowMs
  | setAttPayload bytes =>
      refine flies_of_silent (by simp [perform]) ?_
      rw [perform, setAttPayload_eq]
      exact fun _ he => he
  | onDisconnect =>
      refine flies_of_silent ?_ fun _ he => absurd he List.not_mem_nil
      intro e channel packets
      rw [perform, onDisconnect_events]
      split <;> simp

/-! ## The room in a packet -/

theorem setGate_cfg (s : BleSession) (word : ReadyState) (nowMs : UInt64) :
    (s.setGate word nowMs).session.cfg = s.cfg := by
  unfold setGate
  split <;> rfl

/-- Only `setAttPayload` touches the configuration. -/
theorem perform_cfg (s : BleSession) {op : SessionOp}
    (hop : ∀ bytes, op ≠ .setAttPayload bytes) : (s.perform op).session.cfg = s.cfg := by
  cases op with
  | feed channel packet nowMs =>
      rw [perform]
      rcases s.feed_cases channel packet nowMs with
        ⟨message, -, hfeed⟩ | ⟨-, hsession, -⟩
      · rw [hfeed, deliver_session, setGate_cfg]
        rfl
      · rw [hsession]
        rfl
  | submit channel payload priority nowMs => cases payload <;> rfl
  | submitProtobuf channel featureId actionId message priority nowMs => rfl
  | tick nowMs =>
      rw [perform]
      by_cases hdue : s.Due nowMs
      · rw [(tick_of_due hdue).1]
        rfl
      · rw [(tick_of_not_due hdue).1]
        rfl
  | setAttPayload bytes => exact absurd rfl (hop bytes)
  | onDisconnect => rfl

theorem perform_attPayload (op : SessionOp) (h : kMinAttPayload ≤ s.cfg.attPayload) :
    kMinAttPayload ≤ (s.perform op).session.cfg.attPayload := by
  by_cases hop : ∃ bytes, op = .setAttPayload bytes
  · obtain ⟨bytes, rfl⟩ := hop
    rw [perform, setAttPayload_eq]
    simp only
    split
    · next hbytes => exact hbytes
    · exact h
  · push Not at hop
    rw [s.perform_cfg hop]
    exact h

theorem attPayload_run {t : BleSession} {labels : List (SessionOp × List SessionEvent)}
    (hrun : lts.Run s labels t) (h : kMinAttPayload ≤ s.cfg.attPayload) :
    kMinAttPayload ≤ t.cfg.attPayload := by
  refine hrun.invariant (I := fun t => kMinAttPayload ≤ t.cfg.attPayload) h ?_
  rintro s ⟨op, evs⟩ t hI hstep
  rw [(step_eq hstep).1]
  exact perform_attPayload op hI

/-- With the room that every link has, the length alone decides. -/
theorem sendable_iff_length {m : Bytes} {attPayload : Nat} (hne : m ≠ [])
    (h : kMinAttPayload ≤ attPayload) : Sendable m attPayload ↔ m.length ≤ kMaxMessageLen := by
  have hpos : 1 ≤ m.length := List.length_pos_iff.mpr hne
  have hroom : (if m.length < 2 ^ 13 - 1 then 2 else 3) < attPayload := by
    have hmin : 20 ≤ attPayload := h
    split <;> omega
  exact ⟨fun hsend => hsend.2.1, fun hlen => ⟨hpos, hlen, hroom⟩⟩

theorem sendable_iff {r : Request} {attPayload : Nat} (h : kMinAttPayload ≤ attPayload) :
    Sendable r.payload attPayload ↔ r.payload.length ≤ kMaxMessageLen := by
  refine sendable_iff_length ?_ h
  cases r <;> simp [Request.payload]

/-! ## Whole or not at all -/

/-- Over a run, what is in flight has been handed over for writing. -/
theorem inFlight_written {t : BleSession} {labels : List (SessionOp × List SessionEvent)}
    (hrun : lts.Run s labels t) (hs : s.queue.inFlight = [])
    (hmin : kMinAttPayload ≤ s.cfg.attPayload) :
    ∀ e ∈ t.queue.inFlight, ∃ attPayload, kMinAttPayload ≤ attPayload ∧
      .write e (channelOfCorrelation e.id) (fragment e.payload attPayload) ∈
        trace labels := by
  have hboth := hrun.history (I := fun labels t => kMinAttPayload ≤ t.cfg.attPayload ∧
    ∀ e ∈ t.queue.inFlight, ∃ attPayload, kMinAttPayload ≤ attPayload ∧
      .write e (channelOfCorrelation e.id) (fragment e.payload attPayload) ∈
        trace labels) ⟨hmin, by simp [hs]⟩ ?_
  · exact hboth.2
  · rintro labels s ⟨op, evs⟩ t ⟨hatt, hI⟩ hstep
    obtain ⟨rfl, rfl⟩ := step_eq hstep
    refine ⟨perform_attPayload op hatt, ?_⟩
    intro e he
    rw [trace, List.flatMap_append, List.flatMap_singleton, ← trace]
    rcases (s.flies_perform op).inFlight e he with hold | ⟨channel, packets, hwrite⟩
    · obtain ⟨attPayload, hroom, hwrite⟩ := hI e hold
      exact ⟨attPayload, hroom, List.mem_append_left _ hwrite⟩
    · obtain ⟨-, rfl, rfl⟩ := (s.flies_perform op).written e channel packets hwrite
      exact ⟨s.cfg.attPayload, hatt, List.mem_append_right _ hwrite⟩

/-- The packets of a request reach the wire: one after another, on its channel, none of
them longer than the link allows, and any receiver gets the payload out of them. -/
structure ReachesWire (s : BleSession) (turn : Turn) (r : Request) (channel : UInt8)
    (packets : List Bytes) : Prop where
  onChannel : channel = r.channel.value
  written : packets ≠ []
  contiguous : packets.map (.write channel) <:+: observed turn.events
  fits : ∀ p ∈ packets, p.length ≤ s.cfg.attPayload
  whole : ∀ rx : Reassembler, (rx.receive packets).1 = [r.payload]

theorem reachesWire_iff {turn : Turn} {r : Request} {e : Entry Submission}
    (hid : r.id = e.id) (hpayload : r.payload = e.payload)
    (hmin : kMinAttPayload ≤ s.cfg.attPayload)
    (hwrite : .write e (channelOfCorrelation e.id) (fragment e.payload s.cfg.attPayload) ∈
      turn.events) :
    s.ReachesWire turn r (channelOfCorrelation e.id) (fragment e.payload s.cfg.attPayload) ↔
      r.payload.length ≤ kMaxMessageLen := by
  rw [← sendable_iff hmin]
  constructor
  · intro hreaches
    by_contra hnot
    rw [hpayload] at hnot
    exact hreaches.written (fragment_eq_nil_of_not_sendable hnot)
  · intro hsend
    rw [hpayload] at hsend
    obtain ⟨start, conts, hfrag, -, hfits⟩ := fragment_framed hsend
    refine ⟨?_, ?_, ?_, ?_, ?_⟩
    · rw [← hid, r.channelOfCorrelation_id]
    · simp [hfrag]
    · obtain ⟨before, after, hevents⟩ := List.append_of_mem hwrite
      rw [hevents, observed_append, observed_cons]
      exact ⟨observed before, observed after, by simp [SessionEvent.observed]⟩
    · rw [hfrag]
      exact fun p hp => (hfits p hp).1
    · rw [hpayload]
      exact receive_fragment hsend

/-- Exactly when an accepted command reaches the wire whole: when its payload is one the
framing can express.  So it is at every dispatch of every run; and what is in flight
was handed over for writing, but without a packet when its payload is longer. -/
theorem dispatched_whole_iff {cfg : SessionConfig}
    {labels : List (SessionOp × List SessionEvent)} (hrun : lts.Run (new cfg) labels s)
    (hmin : kMinAttPayload ≤ cfg.attPayload) :
    (∀ op e channel packets, .write e channel packets ∈ (s.perform op).events →
      ∃ r, ((new cfg).requests (labels.map Prod.fst ++ [op]))[e.done.number]? = some r ∧
        (s.ReachesWire (s.perform op) r channel packets ↔
          r.payload.length ≤ kMaxMessageLen)) ∧
    ∀ e ∈ s.queue.inFlight, ∃ r channel packets,
      ((new cfg).requests (labels.map Prod.fst))[e.done.number]? = some r ∧
      .write e channel packets ∈ trace labels ∧
      (packets ≠ [] ↔ r.payload.length ≤ kMaxMessageLen) := by
  have hroom : kMinAttPayload ≤ s.cfg.attPayload := attPayload_run hrun hmin
  refine ⟨?_, ?_⟩
  · intro op e channel packets hwrite
    have hlater : lts.Run (new cfg) (labels ++ [(op, (s.perform op).events)])
        (s.perform op).session := hrun.snoc rfl
    have hrecorded := (recorded_new cfg).run hlater
    rw [List.nil_append, List.map_append] at hrecorded
    obtain ⟨hmem, rfl, rfl⟩ := (s.flies_perform op).written e channel packets hwrite
    obtain ⟨r, hasked, hid, hpayload⟩ :=
      hrecorded.outstanding e (List.mem_append_right _ hmem)
    exact ⟨r, hasked, reachesWire_iff hid hpayload hroom hwrite⟩
  · intro e he
    have hrecorded := (recorded_new cfg).run hrun
    obtain ⟨r, hasked, hid, hpayload⟩ := hrecorded.outstanding e (List.mem_append_right _ he)
    obtain ⟨attPayload, hatt, hwrite⟩ := inFlight_written hrun rfl hmin e he
    refine ⟨r, _, _, hasked, hwrite, ?_⟩
    rw [← sendable_iff hatt, ← hpayload]
    constructor
    · intro hpackets
      by_contra hnot
      exact hpackets (fragment_eq_nil_of_not_sendable hnot)
    · intro hsend hnil
      obtain ⟨start, conts, hfrag, -, -⟩ := fragment_framed hsend
      simp [hfrag] at hnil

/-- A command of three bytes in flight. -/
theorem dispatched_whole_iff_shutter :
    ∃ r channel packets, ((new {}).requests [.submit .command [1, 1, 1] .fastpass 3])[0]? =
        some r ∧ (packets ≠ [] ↔ r.payload.length ≤ kMaxMessageLen) ∧
      .write ⟨1, [1, 1, 1], .fastpass, ⟨1, 0, false⟩, 3, 3⟩ channel packets ∈
        trace (Lts.play next (new {}) [.submit .command [1, 1, 1] .fastpass 3]).2 := by
  obtain ⟨r, channel, packets, hasked, hwrite, hiff⟩ :=
    (dispatched_whole_iff (Lts.run_of_play _ next (new {})
      [.submit .command [1, 1, 1] .fastpass 3]) (by decide)).2
      ⟨1, [1, 1, 1], .fastpass, ⟨1, 0, false⟩, 3, 3⟩ (by decide)
  exact ⟨r, channel, packets, hasked, hiff, hwrite⟩

/-- What a fresh session writes of a command that no gate holds back. -/
theorem submit_fresh_events (b : UInt8) (rest : Bytes) :
    ((new {}).perform (.submit .command (b :: rest) .fastpass 0)).events =
      [.write ⟨correlationOf .command b, b :: rest, .fastpass,
          ⟨correlationOf .command b, 0, false⟩, 0, 0⟩
        (channelOfCorrelation (correlationOf .command b))
        (fragment (b :: rest) kMinAttPayload)] := rfl

/-- A command of 65535 bytes is accepted and put in flight, and nothing is written. -/
theorem dispatched_without_packets :
    ¬∀ cfg labels s, lts.Run (new cfg) labels s → kMinAttPayload ≤ cfg.attPayload →
      ∀ op e channel packets, .write e channel packets ∈ (s.perform op).events →
        ∃ r, ((new cfg).requests (labels.map Prod.fst ++ [op]))[e.done.number]? = some r ∧
          s.ReachesWire (s.perform op) r channel packets := by
  intro h
  have hwrite := submit_fresh_events 7 (List.replicate 65534 7)
  obtain ⟨r, -, hreaches⟩ := h {} [] (new {}) (.nil _) (by decide)
    (.submit .command (7 :: List.replicate 65534 7) .fastpass 0) _ _ _
    (hwrite ▸ List.mem_singleton.mpr rfl)
  refine hreaches.written (fragment_eq_nil_of_not_sendable ?_)
  rintro ⟨-, hlength, -⟩
  rw [List.length_cons, List.length_replicate] at hlength
  exact absurd hlength (by decide)

end BleSession

end GoproNative
