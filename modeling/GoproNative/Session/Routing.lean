import GoproNative.Session.Completions
import GoproNative.Session.Delivery
import GoproNative.Session.Disconnect
import GoproNative.Session.Heeding
import GoproNative.Session.Requests

/-!
# Where messages go

Every characteristic has its own reassembler, so the messages delivered on one are
those its own packets make.  A message that carries the id of a command in flight
completes that command and nothing else; another one is pushed, and takes nothing
out of the queue.
-/

namespace GoproNative

/-! ## What is delivered and what becomes of it -/

/-- The messages `deliver` was given, with the characteristics they came on. -/
def delivered (evs : List SessionEvent) : List (Channel × Bytes) :=
  evs.filterMap fun ev =>
    match ev with
    | .received channel message => some (channel, message)
    | _ => none

/-- The two things that can become of a message. -/
inductive Routing
  | reply (s : Submission) (payload : Bytes)
  | push (channel : Channel) (message : Bytes)
  deriving DecidableEq

def routings (evs : List SessionEvent) : List Routing :=
  evs.filterMap fun ev =>
    match ev with
    | .response s .responded payload => some (.reply s payload)
    | .push channel _ message => some (.push channel message)
    | _ => none

/-- Writing is all that happens. -/
def OnlyWrites (evs : List SessionEvent) : Prop :=
  ∀ ev ∈ evs, ∃ e channel packets, ev = .write e channel packets

theorem OnlyWrites.delivered {evs : List SessionEvent} (h : OnlyWrites evs) :
    delivered evs = [] := by
  rw [GoproNative.delivered, List.filterMap_eq_nil_iff]
  intro ev hev
  obtain ⟨e, channel, packets, rfl⟩ := h ev hev
  rfl

theorem OnlyWrites.routings {evs : List SessionEvent} (h : OnlyWrites evs) :
    routings evs = [] := by
  rw [GoproNative.routings, List.filterMap_eq_nil_iff]
  intro ev hev
  obtain ⟨e, channel, packets, rfl⟩ := h ev hev
  rfl

theorem delivered_append (xs ys : List SessionEvent) :
    delivered (xs ++ ys) = delivered xs ++ delivered ys :=
  List.filterMap_append

theorem routings_append (xs ys : List SessionEvent) :
    routings (xs ++ ys) = routings xs ++ routings ys :=
  List.filterMap_append

/-- The message bears the id, in its one-byte form or in its two-byte form. -/
def Matches (channel : Channel) (message : Bytes) (id : CorrelationId) : Prop :=
  id = correlationOfMessage channel message ∨
    ∃ b0 b1 rest, message = b0 :: b1 :: rest ∧
      id = protobufCorrelationOfMessage channel b0 b1

theorem Matches.channel {channel : Channel} {message : Bytes} {id : CorrelationId}
    (h : Matches channel message id) : channelOfCorrelation id = channel.value := by
  rcases h with rfl | ⟨b0, b1, rest, -, rfl⟩
  · cases message with
    | nil => exact channelOfCorrelation_correlationOf channel 0
    | cons b rest => exact channelOfCorrelation_correlationOf channel b
  · exact channelOfCorrelation_protobuf channel b0 b1

namespace BleSession

variable {s : BleSession}

/-- The id a message answers: the two-byte one if that is in flight, and otherwise
the one-byte one. -/
def Prefers (s : BleSession) (channel : Channel) (message : Bytes)
    (id : CorrelationId) : Prop :=
  (∃ b0 b1 rest, message = b0 :: b1 :: rest ∧
    id = protobufCorrelationOfMessage channel b0 b1) ∨
  id = correlationOfMessage channel message ∧
    ∀ b0 b1 rest, message = b0 :: b1 :: rest → ∀ e ∈ s.queue.inFlight,
      e.id ≠ protobufCorrelationOfMessage channel b0 b1

theorem Prefers.matches {channel : Channel} {message : Bytes} {id : CorrelationId}
    (h : s.Prefers channel message id) : Matches channel message id := by
  rcases h with hwide | ⟨hplain, -⟩
  · exact Or.inr hwide
  · exact Or.inl hplain

theorem prefers_answeredId (s : BleSession) (channel : Channel) (message : Bytes) :
    s.Prefers channel message (s.answeredId channel message) := by
  rcases message with - | ⟨b0, - | ⟨b1, rest⟩⟩
  · exact Or.inr ⟨rfl, by simp⟩
  · exact Or.inr ⟨rfl, by simp⟩
  · simp only [answeredId]
    split
    · exact Or.inl ⟨b0, b1, rest, rfl, rfl⟩
    · next hfree =>
      refine Or.inr ⟨rfl, ?_⟩
      rintro _ _ _ heq e he hid
      simp only [List.cons.injEq] at heq
      obtain ⟨rfl, rfl, -⟩ := heq
      exact hfree (CommandQueue.isInFlight_iff.mpr ⟨e, he, hid⟩)

/-- A message that answers nothing bears no id in flight. -/
theorem not_matches_of_not_answers {channel : Channel} {message : Bytes}
    (h : s.answers channel message = none) :
    ∀ e ∈ s.queue.inFlight, ¬Matches channel message e.id := by
  have hfree := answers_eq_none.mp h
  rintro e he (hplain | ⟨b0, b1, rest, rfl, hwide⟩)
  · rcases s.prefers_answeredId channel message with ⟨b0, b1, rest, rfl, hid⟩ | ⟨hid, -⟩
    · have htaken : s.queue.isInFlight (protobufCorrelationOfMessage channel b0 b1) = true := by
        by_contra hnot
        have hother : s.answeredId channel (b0 :: b1 :: rest) =
            correlationOfMessage channel (b0 :: b1 :: rest) := by
          simp [answeredId, hnot]
        exact hfree e he (hplain.trans hother.symm)
      obtain ⟨f, hf, hfid⟩ := CommandQueue.isInFlight_iff.mp htaken
      exact hfree f hf (hfid.trans hid.symm)
    · exact hfree e he (hplain.trans hid.symm)
  · have htaken : s.queue.isInFlight (protobufCorrelationOfMessage channel b0 b1) = true :=
      CommandQueue.isInFlight_iff.mpr ⟨e, he, hwide⟩
    have hid : s.answeredId channel (b0 :: b1 :: rest) =
        protobufCorrelationOfMessage channel b0 b1 := by
      simp [answeredId, htaken]
    exact hfree e he (hwide.trans hid.symm)

/-! ## One message -/

theorem onlyWrites_report (attPayload : Nat) {evs : List (QueueEvent Submission)}
    (h : ∀ ev ∈ evs, ∃ e q, ev = .wrote e q) :
    OnlyWrites (evs.flatMap (report attPayload)) := by
  intro ev hev
  obtain ⟨qev, hqev, hreport⟩ := List.mem_flatMap.mp hev
  obtain ⟨e, q, rfl⟩ := h qev hqev
  exact ⟨_, _, _, List.mem_singleton.mp hreport⟩

theorem onlyWrites_setGate (s : BleSession) (word : ReadyState) (nowMs : UInt64) :
    OnlyWrites (s.setGate word nowMs).events := by
  unfold setGate
  split
  · exact fun ev hev => absurd hev List.not_mem_nil
  · refine onlyWrites_report _ ?_
    cases hready : word.ready with
    | true => simpa [CommandQueue.setReady, Activation.run, CommandQueue.resume] using
        CommandQueue.pump_wrote { s.queue with ready := true } nowMs
    | false => simp [CommandQueue.setReady, Activation.run, CommandQueue.resume]

theorem setGate_keeps (s : BleSession) (word : ReadyState) (nowMs : UInt64) :
    (∀ e ∈ s.queue.inFlight, e ∈ (s.setGate word nowMs).session.queue.inFlight) ∧
      ∀ e ∈ s.queue.pending, e ∈ (s.setGate word nowMs).session.queue.pending ∨
        ∃ nowMs', e.sent nowMs' ∈ (s.setGate word nowMs).session.queue.inFlight := by
  unfold setGate
  split
  · exact ⟨fun _ he => he, fun _ he => Or.inl he⟩
  · cases word.ready with
    | false => exact ⟨fun _ he => he, fun _ he => Or.inl he⟩
    | true =>
        refine ⟨CommandQueue.pump_keeps_inFlight { s.queue with ready := true } nowMs, ?_⟩
        intro e he
        refine (CommandQueue.pump_keeps_pending { s.queue with ready := true } nowMs e
          he).imp_right ?_
        exact fun hsent => ⟨nowMs, hsent⟩

theorem announced_silent (s : BleSession) (word : ReadyState) :
    delivered (s.announced word) = [] ∧ routings (s.announced word) = [] := by
  unfold announced
  split <;> exact ⟨rfl, rfl⟩

/-- A reply to a command that was asked for on the channel of the message. -/
def Resolves (asked : List Request) (s : BleSession) (channel : Channel)
    (message : Bytes) (turn : Turn) : Prop :=
  ∃ e ∈ s.queue.inFlight, routings turn.events = [.reply e.done message] ∧
    e.done.id = e.id ∧ s.Prefers channel message e.id ∧
    ∃ r, asked[e.done.number]? = some r ∧ r.id = e.id ∧ r.channel = channel

/-- A push, which leaves everything outstanding. -/
structure Pushes (s : BleSession) (channel : Channel) (message : Bytes)
    (turn : Turn) : Prop where
  pushed : routings turn.events = [.push channel message]
  unmatched : ∀ e ∈ s.queue.inFlight, ¬Matches channel message e.id
  resolvesNothing : ∀ done outcome payload,
    .response done outcome payload ∉ turn.events
  inFlight : ∀ e ∈ s.queue.inFlight, e ∈ turn.session.queue.inFlight
  pending : ∀ e ∈ s.queue.pending, e ∈ turn.session.queue.pending ∨
    ∃ nowMs, e.sent nowMs ∈ turn.session.queue.inFlight

/-- An operation delivers no message and routes none, or delivers one and routes it
once. -/
def RoutedOnce (asked : List Request) (s : BleSession) (op : SessionOp) : Prop :=
  (delivered (s.perform op).events = [] ∧ routings (s.perform op).events = []) ∨
  ∃ channel message, delivered (s.perform op).events = [(channel, message)] ∧
    (Resolves asked s channel message (s.perform op) ∨
      Pushes s channel message (s.perform op))

variable {asked : List Request}

/-- What `deliver` delivers, and what it makes of it. -/
theorem deliver_reads (s : BleSession) (channel : Channel) (message : Bytes)
    (nowMs : UInt64) :
    delivered (s.deliver channel message nowMs).events = [(channel, message)] ∧
      routings (s.deliver channel message nowMs).events =
        match s.answers channel message with
        | some e => [.reply e.done message]
        | none => [.push channel message] := by
  obtain ⟨hquiet, hquiet'⟩ := s.announced_silent (s.readyState.hear message)
  cases hanswers : s.answers channel message with
  | some e =>
      have hpump := onlyWrites_report s.cfg.attPayload
        ((s.queue.without (s.answeredId channel message)).pump_wrote nowMs)
      have hset := (s.resolved channel message nowMs).onlyWrites_setGate
        (s.readyState.hear message) nowMs
      rw [(deliver_of_answers hanswers nowMs).2, ← List.singleton_append,
        ← List.singleton_append (l := _ ++ _)]
      simp only [delivered_append, routings_append, hpump.delivered, hpump.routings,
        hset.delivered, hset.routings, hquiet, hquiet']
      exact ⟨rfl, rfl⟩
  | none =>
      have hset := s.onlyWrites_setGate (s.readyState.hear message) nowMs
      rw [(deliver_of_not_answers hanswers nowMs).2, ← List.singleton_append]
      simp only [delivered_append, routings_append, hset.delivered, hset.routings, hquiet,
        hquiet']
      exact ⟨rfl, rfl⟩

theorem deliver_resolves (hs : s.Sound) (h : Recorded asked s) {channel : Channel}
    {message : Bytes} {e : Entry Submission} (hanswers : s.answers channel message = some e)
    (nowMs : UInt64) :
    Resolves asked s channel message (s.deliver channel message nowMs) := by
  obtain ⟨hmem, hid⟩ := answers_eq_some hanswers
  have houtstanding : e ∈ s.queue.outstanding := List.mem_append_right _ hmem
  obtain ⟨r, hasked, hrid, -⟩ := h.outstanding e houtstanding
  have hprefers : s.Prefers channel message e.id := hid ▸ s.prefers_answeredId channel message
  have hrouted := (s.deliver_reads channel message nowMs).2
  rw [hanswers] at hrouted
  refine ⟨e, hmem, hrouted, (hs.attributed e houtstanding).1, hprefers, r, hasked, hrid, ?_⟩
  have hchannel := hprefers.matches.channel
  rw [← hrid, r.channelOfCorrelation_id] at hchannel
  exact Channel.value_injective hchannel

theorem deliver_pushes {channel : Channel} {message : Bytes}
    (hanswers : s.answers channel message = none) (nowMs : UInt64) :
    Pushes s channel message (s.deliver channel message nowMs) := by
  obtain ⟨hsession, hevents⟩ := deliver_of_not_answers hanswers nowMs
  have hset := s.onlyWrites_setGate (s.readyState.hear message) nowMs
  have hrouted := (s.deliver_reads channel message nowMs).2
  rw [hanswers] at hrouted
  refine ⟨hrouted, not_matches_of_not_answers hanswers, ?_, ?_, ?_⟩
  · intro done outcome payload hmem
    rw [hevents] at hmem
    simp only [List.mem_cons, reduceCtorEq, List.mem_append, List.not_mem_nil, or_false,
      false_or] at hmem
    rcases hmem with hwrite | hannounced
    · obtain ⟨e, ch, packets, heq⟩ := hset _ hwrite
      simp at heq
    · unfold announced at hannounced
      split at hannounced <;> simp at hannounced
  · rw [hsession]
    exact (s.setGate_keeps _ nowMs).1
  · rw [hsession]
    exact (s.setGate_keeps _ nowMs).2

/-! ## Every call -/

theorem delivered_callQueue (s : BleSession) (a : Activation Submission) :
    delivered (s.callQueue a).events = [] := by
  rw [callQueue, delivered, List.filterMap_eq_nil_iff]
  intro ev hev
  obtain ⟨qev, -, hreport⟩ := List.mem_flatMap.mp hev
  cases qev <;> simp only [report, List.mem_singleton, List.not_mem_nil] at hreport <;>
    subst hreport <;> rfl

/-- Only `onResponse` completes a command with a reply. -/
theorem not_responded_of_activate (q : CommandQueue Submission) (done : Submission)
    (op : QueueOp) (hop : ∀ id data nowMs, op ≠ .onResponse id data nowMs) :
    ∀ c ∈ (q.activate done op).calls, c.outcome ≠ .responded := by
  have hactivates := q.activates done op
  generalize q.activate done op = act at hactivates ⊢
  intro c hc
  cases hactivates with
  | refused => simp [List.mem_singleton.mp hc]
  | accepted | opened | shut | unknown => exact absurd hc List.not_mem_nil
  | answered data nowMs e => exact absurd rfl (hop e.id data nowMs)
  | swept | canceled =>
      obtain ⟨e, -, rfl⟩ := List.mem_map.mp hc
      simp

theorem routings_callQueue (s : BleSession) (done : Submission) (op : QueueOp)
    (hop : ∀ id data nowMs, op ≠ .onResponse id data nowMs) :
    routings (s.callQueue (s.queue.activate done op)).events = [] := by
  have hcalls := not_responded_of_activate s.queue done op hop
  rw [callQueue, routings, List.filterMap_eq_nil_iff]
  intro ev hev
  obtain ⟨qev, hqev, hreport⟩ := List.mem_flatMap.mp hev
  cases qev with
  | completed c =>
      obtain rfl := List.mem_singleton.mp hreport
      have hc : c ∈ (s.queue.activate done op).calls := by
        rw [← completions_run]
        exact List.mem_filterMap.mpr ⟨_, hqev, rfl⟩
      have houtcome := hcalls c hc
      obtain ⟨done', outcome, response⟩ := c
      cases outcome with
      | responded => exact absurd rfl houtcome
      | _ => rfl
  | wrote e q =>
      obtain rfl := List.mem_singleton.mp hreport
      rfl
  | _ => exact absurd hreport List.not_mem_nil

/-- Everything but a notification delivers nothing and routes nothing. -/
theorem perform_routes_nothing (s : BleSession) {op : SessionOp}
    (hop : ∀ channel packet nowMs, op ≠ .feed channel packet nowMs) :
    delivered (s.perform op).events = [] ∧ routings (s.perform op).events = [] := by
  have henqueue : ∀ (s : BleSession) id payload priority byTick nowMs,
      delivered (s.enqueue id payload priority byTick nowMs).events = [] ∧
        routings (s.enqueue id payload priority byTick nowMs).events = [] :=
    fun s id payload priority byTick nowMs =>
      ⟨delivered_callQueue _ _,
        routings_callQueue { s with submissions := s.submissions + 1 }
          ⟨id, s.submissions, byTick⟩ (.submit id payload priority nowMs) (by simp)⟩
  cases op with
  | feed channel packet nowMs => exact absurd rfl (hop channel packet nowMs)
  | submit channel payload priority nowMs =>
      cases payload with
      | nil => exact ⟨rfl, rfl⟩
      | cons b payload => exact henqueue _ _ _ _ _ _
  | submitProtobuf channel featureId actionId message priority nowMs =>
      exact henqueue _ _ _ _ _ _
  | tick nowMs =>
      have hswept := s.routings_callQueue nobody (.tick nowMs) (by simp)
      rw [perform]
      by_cases hdue : s.Due nowMs
      · obtain ⟨hdelivered, hrouted⟩ := henqueue (s.anchored nowMs) keepAliveId
          keepAlivePayload .keepAlive true nowMs
        rw [(tick_of_due hdue).2, delivered_append, routings_append, delivered_callQueue,
          hdelivered, hrouted]
        exact ⟨rfl, (List.append_nil _).trans hswept⟩
      · rw [(tick_of_not_due hdue).2]
        exact ⟨delivered_callQueue _ _, hswept⟩
  | setAttPayload bytes => exact ⟨rfl, rfl⟩
  | onDisconnect =>
      rw [perform, onDisconnect_events, delivered_append, routings_append, delivered,
        routings, List.filterMap_map, List.filterMap_map]
      refine ⟨?_, ?_⟩
      · split <;> simp [delivered]
      · split <;> simp [routings]

/-- The message that an operation completes, with its characteristic. -/
def incoming (s : BleSession) : SessionOp → Option (Channel × Bytes)
  | .feed channel packet _ =>
      (s.completes channel packet).map fun message => (channel, message)
  | _ => none

/-- What an operation makes of the message it completes. -/
theorem perform_routings (s : BleSession) (op : SessionOp) :
    routings (s.perform op).events =
      match s.incoming op with
      | none => []
      | some (channel, message) =>
          match s.answers channel message with
          | some e => [.reply e.done message]
          | none => [.push channel message] := by
  by_cases hop : ∃ channel packet nowMs, op = .feed channel packet nowMs
  · obtain ⟨channel, packet, nowMs, rfl⟩ := hop
    rw [perform, incoming]
    rcases s.feed_cases channel packet nowMs with
      ⟨message, hcomplete, hfeed⟩ | ⟨hnone, -, hevents⟩
    · rw [hfeed, hcomplete, (deliver_reads _ _ _ _).2]
      rfl
    · rw [hnone]
      rcases hevents with hnil | ⟨result, herror⟩
      · rw [hnil]
        rfl
      · rw [herror]
        rfl
  · push Not at hop
    rw [(s.perform_routes_nothing hop).2]
    cases op with
    | feed channel packet nowMs => exact absurd rfl (hop channel packet nowMs)
    | _ => rfl

theorem feed_delivered (s : BleSession) (channel : Channel) (packet : Bytes)
    (nowMs : UInt64) :
    delivered (s.feed channel packet nowMs).events =
      ((s.completes channel packet).map fun message => (channel, message)).toList := by
  rcases s.feed_cases channel packet nowMs with
    ⟨message, hcomplete, hfeed⟩ | ⟨hnone, -, hevents⟩
  · rw [hfeed, hcomplete, (deliver_reads _ _ _ _).1]
    rfl
  · rw [hnone]
    rcases hevents with hnil | ⟨result, herror⟩
    · rw [hnil]
      rfl
    · rw [herror]
      rfl

/-- Every operation routes what it delivers, and routes it once. -/
theorem perform_routed_once (hs : s.Sound) (h : Recorded asked s) (op : SessionOp) :
    RoutedOnce asked s op := by
  by_cases hop : ∃ channel packet nowMs, op = .feed channel packet nowMs
  · obtain ⟨channel, packet, nowMs, rfl⟩ := hop
    rcases s.feed_cases channel packet nowMs with
      ⟨message, -, hfeed⟩ | ⟨-, -, hevents⟩
    · have hreceived : (s.received channel packet).Sound := hs.congr rfl rfl rfl
      have hrecorded : Recorded asked (s.received channel packet) := h.congr rfl rfl
      right
      rw [perform, hfeed]
      refine ⟨channel, message, (deliver_reads _ _ _ _).1, ?_⟩
      cases hanswers : (s.received channel packet).answers channel message with
      | some e => exact Or.inl (deliver_resolves hreceived hrecorded hanswers nowMs)
      | none =>
          have hpushes := deliver_pushes hanswers nowMs
          exact Or.inr ⟨hpushes.pushed, hpushes.unmatched, hpushes.resolvesNothing,
            hpushes.inFlight, hpushes.pending⟩
    · left
      rw [perform]
      rcases hevents with hnil | ⟨result, herror⟩
      · rw [hnil]
        exact ⟨rfl, rfl⟩
      · rw [herror]
        exact ⟨rfl, rfl⟩
  · push Not at hop
    exact Or.inl (s.perform_routes_nothing hop)

/-! ## Each characteristic by itself -/

/-- The packets of a characteristic, in the sections that disconnects divide them
into; `current` is the section under way. -/
def sections (channel : Channel) : List SessionOp → List Bytes → List (List Bytes)
  | [], current => [current]
  | .feed channel' packet _ :: ops, current =>
      sections channel ops (if channel' = channel then current ++ [packet] else current)
  | .onDisconnect :: ops, current => current :: sections channel ops []
  | _ :: ops, current => sections channel ops current

/-- The messages that the packets of a characteristic make. -/
def reassembled (channel : Channel) (ops : List SessionOp) (current : List Bytes) :
    List Bytes :=
  (sections channel ops current).flatMap fun packets => (Reassembler.receive {} packets).1

def deliveredOn (channel : Channel) (evs : List SessionEvent) : List Bytes :=
  (delivered evs).filterMap fun d => if d.1 = channel then some d.2 else none

theorem deliveredOn_append (channel : Channel) (xs ys : List SessionEvent) :
    deliveredOn channel (xs ++ ys) = deliveredOn channel xs ++ deliveredOn channel ys := by
  rw [deliveredOn, delivered_append, List.filterMap_append, deliveredOn, deliveredOn]

/-- What an operation does to the reassembler of a characteristic, and what it delivers
from it. -/
theorem perform_rx (s : BleSession) (channel : Channel) (op : SessionOp) :
    match op with
    | .feed channel' packet _ =>
        if channel' = channel then
          (s.perform op).session.rx channel = ((s.rx channel).feedTake packet).2 ∧
            deliveredOn channel (s.perform op).events =
              ((s.rx channel).feedTake packet).1.toList
        else (s.perform op).session.rx channel = s.rx channel ∧
          deliveredOn channel (s.perform op).events = []
    | .onDisconnect => (s.perform op).session.rx channel = {} ∧
        deliveredOn channel (s.perform op).events = []
    | _ => (s.perform op).session.rx channel = s.rx channel ∧
        deliveredOn channel (s.perform op).events = [] := by
  have hquiet : (∀ channel packet nowMs, op ≠ .feed channel packet nowMs) →
      deliveredOn channel (s.perform op).events = [] := by
    intro hop
    rw [deliveredOn, (s.perform_routes_nothing hop).1]
    rfl
  cases op with
  | feed channel' packet nowMs =>
      have hdelivered : deliveredOn channel (s.feed channel' packet nowMs).events =
          if channel' = channel then (s.completes channel' packet).toList else [] := by
        rw [deliveredOn, feed_delivered]
        cases s.completes channel' packet with
        | none => simp
        | some message => by_cases hsame : channel' = channel <;> simp [hsame]
      have hrx : (s.feed channel' packet nowMs).session.rx =
          (s.received channel' packet).rx := by
        rcases s.feed_cases channel' packet nowMs with
          ⟨message, -, hfeed⟩ | ⟨-, hsession, -⟩
        · rw [hfeed, deliver_session, setGate_rx]
          rfl
        · rw [hsession]
      simp only [perform, hdelivered, hrx, received]
      by_cases hsame : channel' = channel
      · subst hsame
        simp only [if_true, Function.update_self]
        exact ⟨trivial, rfl⟩
      · rw [if_neg hsame, if_neg hsame, Function.update_of_ne (Ne.symm hsame)]
        exact ⟨rfl, rfl⟩
  | submit channel' payload priority nowMs =>
      refine ⟨?_, hquiet (by simp)⟩
      cases payload <;> rfl
  | submitProtobuf channel' featureId actionId message priority nowMs =>
      exact ⟨rfl, hquiet (by simp)⟩
  | tick nowMs =>
      refine ⟨?_, hquiet (by simp)⟩
      rw [perform]
      by_cases hdue : s.Due nowMs
      · rw [(tick_of_due hdue).1]
        rfl
      · rw [(tick_of_not_due hdue).1]
        rfl
  | setAttPayload bytes =>
      refine ⟨?_, hquiet (by simp)⟩
      rw [perform, setAttPayload_eq]
  | onDisconnect => exact ⟨rfl, hquiet (by simp)⟩

/-- Over a run a characteristic delivers what its own packets make. -/
theorem deliveredOn_run {t : BleSession} {labels : List (SessionOp × List SessionEvent)}
    (hrun : lts.Run s labels t) (channel : Channel) (current : List Bytes)
    (hrx : s.rx channel = (Reassembler.receive {} current).2) :
    (Reassembler.receive {} current).1 ++ deliveredOn channel (trace labels) =
      reassembled channel (labels.map Prod.fst) current := by
  induction hrun generalizing current with
  | nil s => simp [reassembled, sections, trace, deliveredOn, delivered]
  | @cons s _ u label labels hstep hrest ih =>
      obtain ⟨op, evs⟩ := label
      obtain ⟨rfl, rfl⟩ := step_eq hstep
      have hmoves := s.perform_rx channel op
      rw [trace, List.flatMap_cons, deliveredOn_append, ← trace, List.map_cons]
      cases op with
      | feed channel' packet nowMs =>
          simp only at hmoves
          rw [reassembled, sections, ← reassembled]
          split at hmoves
          · next hsame =>
            obtain ⟨hfed, hmade⟩ := hmoves
            obtain ⟨hmessages, hstate⟩ := Reassembler.receive_snoc {} current packet
            rw [hrx] at hfed hmade
            rw [if_pos hsame, hmade, ← List.append_assoc, ← hmessages]
            exact ih _ (hfed.trans hstate.symm)
          · next hother =>
            obtain ⟨hkept, hnone⟩ := hmoves
            rw [if_neg hother, hnone, List.nil_append]
            exact ih _ (hkept.trans hrx)
      | onDisconnect =>
          obtain ⟨hcleared, hnone⟩ := hmoves
          have hlater := ih [] hcleared
          rw [reassembled, sections, List.flatMap_cons, hnone, List.nil_append]
          rw [reassembled] at hlater
          rw [← hlater]
          rfl
      | _ =>
          obtain ⟨hkept, hnone⟩ := hmoves
          rw [hnone, List.nil_append]
          exact ih _ (hkept.trans hrx)

/-- Every message is routed exactly once, per characteristic and in order.  What a
characteristic delivers is what its own packets make, whatever comes on the others;
and every operation makes of the message it delivers either the reply to a command
in flight that was asked for on that characteristic and whose id the message bears,
or a push that resolves nothing and takes nothing out. -/
theorem messages_routed_once {cfg : SessionConfig}
    {labels : List (SessionOp × List SessionEvent)} (hrun : lts.Run (new cfg) labels s) :
    (∀ channel, deliveredOn channel (trace labels) =
        reassembled channel (labels.map Prod.fst) []) ∧
      ∀ op, RoutedOnce ((new cfg).requests (labels.map Prod.fst)) s op := by
  have hs : s.Sound := sound ⟨_, _, ⟨cfg, rfl⟩, hrun⟩
  have hrecorded := (recorded_new cfg).run hrun
  refine ⟨fun channel => ?_, perform_routed_once hs hrecorded⟩
  exact deliveredOn_run hrun channel [] rfl

/-- Packets of two characteristics in turns. -/
theorem messages_routed_once_interleaved :
    deliveredOn .query (trace (Lts.play next (new {}) [.feed .query [0x20, 3, 1] 1,
      .feed .command [0x20, 2, 7] 2, .feed .query [0x80, 2, 3] 3]).2) = [[1, 2, 3]] :=
  (messages_routed_once (Lts.run_of_play _ next _ _)).1 .query

end BleSession

end GoproNative
