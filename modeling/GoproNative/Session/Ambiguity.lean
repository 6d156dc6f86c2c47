import GoproNative.Session.Routing

/-!
# Replies that two commands wait for

A message bears a one-byte id and, from its second byte on, a two-byte id as well.
The two spaces are disjoint, so a message can bear the ids of two commands in
flight: a plain one, and a protobuf one on the same channel whose feature is the
leading byte of the plain one.  Only ordinary commands are kept apart whatever
their ids are.
-/

namespace GoproNative

/-! ## Ids that one message bears -/

/-- A one-byte id and a two-byte id of the same channel that begin alike. -/
inductive Clash : CorrelationId → CorrelationId → Prop
  | plain (channel : Channel) (b a : UInt8) :
      Clash (correlationOf channel b) (protobufCorrelationOfMessage channel b a)
  | protobuf (channel : Channel) (b a : UInt8) :
      Clash (protobufCorrelationOfMessage channel b a) (correlationOf channel b)

theorem Clash.symm {id id' : CorrelationId} (h : Clash id id') : Clash id' id := by
  cases h with
  | plain channel b a => exact .protobuf channel b a
  | protobuf channel b a => exact .plain channel b a

theorem Clash.ne {id id' : CorrelationId} (h : Clash id id') : id ≠ id' := by
  cases h with
  | plain channel b a => exact correlationOf_ne_protobuf channel channel b b a
  | protobuf channel b a => exact (correlationOf_ne_protobuf channel channel b b a).symm

theorem clash_protobuf_plain {channel channel' : Channel} {b a b' : UInt8}
    (h : Clash (protobufCorrelationOfMessage channel b a) (correlationOf channel' b')) :
    channel = channel' ∧ b = b' := by
  generalize hid : protobufCorrelationOfMessage channel b a = id at h
  generalize hid' : correlationOf channel' b' = id' at h
  cases h with
  | plain c d d' => exact absurd hid.symm (correlationOf_ne_protobuf c channel d b a)
  | protobuf c d d' =>
      obtain ⟨rfl, rfl, -⟩ := protobufCorrelation_inj.mp hid
      obtain ⟨rfl, rfl⟩ := correlationOf_inj.mp hid'
      exact ⟨rfl, rfl⟩

/-- Two ids that one message bears are the same, or they clash. -/
theorem Matches.eq_or_clash {channel : Channel} {message : Bytes} {id id' : CorrelationId}
    (h : Matches channel message id) (h' : Matches channel message id') :
    id = id' ∨ Clash id id' := by
  rcases h with rfl | ⟨b0, b1, rest, rfl, rfl⟩
  · rcases h' with rfl | ⟨b0, b1, rest, rfl, rfl⟩
    · exact Or.inl rfl
    · exact Or.inr (.plain channel b0 b1)
  · rcases h' with rfl | ⟨b0', b1', rest', heq, rfl⟩
    · exact Or.inr (.protobuf channel b0 b1)
    · simp only [List.cons.injEq] at heq
      obtain ⟨rfl, rfl, -⟩ := heq
      exact Or.inl rfl

/-- Ids that clash are borne by one message. -/
theorem Clash.matches {id id' : CorrelationId} (h : Clash id id') :
    ∃ channel message, Matches channel message id ∧ Matches channel message id' := by
  cases h with
  | plain channel b a =>
      exact ⟨channel, [b, a], Or.inl rfl, Or.inr ⟨b, a, [], rfl, rfl⟩⟩
  | protobuf channel b a =>
      exact ⟨channel, [b, a], Or.inr ⟨b, a, [], rfl, rfl⟩, Or.inl rfl⟩

/-! ## What is outstanding, by id and priority -/

def CommandQueue.keys (q : CommandQueue Submission) : List (CorrelationId × Priority) :=
  q.outstanding.map fun e => (e.id, e.priority)

theorem CommandQueue.mem_keys {q : CommandQueue Submission} {e : Entry Submission}
    (h : e ∈ q.outstanding) : (e.id, e.priority) ∈ q.keys :=
  List.mem_map_of_mem h

/-- Of commands whose ids clash, both are ordinary. -/
def ClashesOrdinary (q : CommandQueue Submission) : Prop :=
  ∀ k ∈ q.keys, ∀ k' ∈ q.keys, Clash k.1 k'.1 → k.2 = .queued ∧ k'.2 = .queued

namespace BleSession

variable {s : BleSession}

def priorityOf : SessionOp → Priority
  | .submit _ _ priority _ => priority
  | .submitProtobuf _ _ _ _ priority _ => priority
  | _ => .keepAlive

/-- The queue that an operation submits to: for the keep-alive of `tick`, what the sweep
has left. -/
def found (s : BleSession) : SessionOp → CommandQueue Submission
  | .tick nowMs => s.queue.sweep nowMs
  | _ => s.queue

/-- A submission that is accepted clashes with nothing outstanding, unless both
commands are ordinary. -/
def Unclashing (s : BleSession) (op : SessionOp) : Prop :=
  ∀ r, s.request op = some r → r.id ∉ (s.found op).outstanding.map Entry.id →
    ∀ e ∈ (s.found op).outstanding, Clash r.id e.id →
      priorityOf op = .queued ∧ e.priority = .queued

section Outstanding

variable {β : Type*} {f : Entry Submission → β} (hf : ∀ e t, f (e.sent t) = f e)

include hf

theorem outstanding_callQueue (s : BleSession) (done : Submission) (op : QueueOp)
    (hop : ∀ id payload priority nowMs, op ≠ .submit id payload priority nowMs) :
    ∀ x ∈ (s.callQueue (s.queue.activate done op)).session.queue.outstanding.map f,
      x ∈ s.queue.outstanding.map f := by
  intro x hx
  rcases CommandQueue.run_outstanding hf s.queue done op x hx with
    hold | ⟨id, payload, priority, nowMs, heq, -⟩
  · exact hold
  · exact absurd heq (hop id payload priority nowMs)

theorem outstanding_enqueue (s : BleSession) (id : CorrelationId) (payload : Bytes)
    (priority : Priority) (byTick : Bool) (nowMs : UInt64) :
    ∀ x ∈ (s.enqueue id payload priority byTick nowMs).session.queue.outstanding.map f,
      x ∈ s.queue.outstanding.map f ∨
        id ∉ s.queue.outstanding.map Entry.id ∧
          x = f ⟨id, payload, priority, ⟨id, s.submissions, byTick⟩, nowMs, 0⟩ := by
  intro x hx
  rcases s.queue.submit_cases id payload priority ⟨id, s.submissions, byTick⟩ nowMs with
    ⟨-, hrefused⟩ | ⟨e, rfl, hfree, -⟩
  · rw [enqueue, callQueue, hrefused] at hx
    exact Or.inl hx
  · rcases CommandQueue.run_outstanding hf s.queue
        ⟨id, s.submissions, byTick⟩ (.submit id payload priority nowMs) x hx with
      hold | ⟨id', payload', priority', nowMs', heq, hx⟩
    · exact Or.inl hold
    · simp only [QueueOp.submit.injEq] at heq
      obtain ⟨rfl, rfl, rfl, rfl⟩ := heq
      exact Or.inr ⟨hfree, hx⟩

theorem outstanding_setGate (s : BleSession) (word : ReadyState) (nowMs : UInt64) :
    ∀ x ∈ (s.setGate word nowMs).session.queue.outstanding.map f,
      x ∈ s.queue.outstanding.map f := by
  unfold setGate
  split
  · exact fun _ hx => hx
  · exact outstanding_callQueue hf { s with readyState := word } nobody
      (.setReady word.ready nowMs) (by simp)

theorem outstanding_feed (s : BleSession) (channel : Channel) (packet : Bytes)
    (nowMs : UInt64) :
    ∀ x ∈ (s.feed channel packet nowMs).session.queue.outstanding.map f,
      x ∈ s.queue.outstanding.map f := by
  intro x hx
  rcases s.feed_cases channel packet nowMs with
    ⟨message, -, hfeed⟩ | ⟨-, hsession, -⟩
  · rw [hfeed, deliver_session] at hx
    exact outstanding_callQueue hf (s.received channel packet) nobody
      (.onResponse _ message nowMs) (by simp) x (outstanding_setGate hf _ _ _ x hx)
  · rw [hsession] at hx
    exact hx

omit hf in
theorem outstanding_found (s : BleSession) (op : SessionOp) :
    ∀ x ∈ (s.found op).outstanding.map f, x ∈ s.queue.outstanding.map f := by
  cases op with
  | tick nowMs =>
      exact ((List.filter_sublist.append List.filter_sublist).map _).subset
  | _ => exact fun _ hx => hx

/-- What an operation leaves outstanding: what it found, and the submission it
accepted. -/
theorem outstanding_perform (s : BleSession) (op : SessionOp) :
    ∀ x ∈ (s.perform op).session.queue.outstanding.map f,
      x ∈ (s.found op).outstanding.map f ∨
      ∃ r done nowMs, s.request op = some r ∧
        r.id ∉ (s.found op).outstanding.map Entry.id ∧
        x = f ⟨r.id, r.payload, priorityOf op, done, nowMs, 0⟩ := by
  intro x hx
  cases op with
  | feed channel packet nowMs => exact Or.inl (outstanding_feed hf s channel packet nowMs x hx)
  | submit channel payload priority nowMs =>
      cases payload with
      | nil => exact Or.inl hx
      | cons b rest =>
          refine (outstanding_enqueue hf s _ _ _ _ _ x hx).imp_right ?_
          exact fun ⟨hfree, heq⟩ => ⟨.plain channel b rest, _, _, rfl, hfree, heq⟩
  | submitProtobuf channel featureId actionId message priority nowMs =>
      refine (outstanding_enqueue hf s _ _ _ _ _ x hx).imp_right ?_
      exact fun ⟨hfree, heq⟩ =>
        ⟨.protobuf channel featureId actionId message, _, _, rfl, hfree, heq⟩
  | tick nowMs =>
      have hanchored : ∀ x ∈ (s.anchored nowMs).queue.outstanding.map f,
          x ∈ (s.queue.sweep nowMs).outstanding.map f :=
        fun x hx => (CommandQueue.pump_outstanding (fun e => hf e nowMs)
          (s.queue.sweep nowMs)).subset hx
      rw [perform] at hx
      by_cases hdue : s.Due nowMs
      · rw [(tick_of_due hdue).1] at hx
        rcases outstanding_enqueue hf (s.anchored nowMs) _ _ _ _ _ x hx with
          hold | ⟨hfree, heq⟩
        · exact Or.inl (hanchored x hold)
        · refine Or.inr ⟨keepAliveRequest, _, _, if_pos hdue, ?_, heq⟩
          exact fun hmem => hfree (mem_anchored_ids.mpr hmem)
      · rw [(tick_of_not_due hdue).1] at hx
        exact Or.inl (hanchored x hx)
  | setAttPayload bytes =>
      rw [perform, setAttPayload_eq] at hx
      exact Or.inl hx
  | onDisconnect => exact absurd hx List.not_mem_nil

end Outstanding

theorem found_keys (s : BleSession) (op : SessionOp) :
    ∀ k ∈ (s.found op).keys, k ∈ s.queue.keys :=
  s.outstanding_found op

theorem keys_perform (s : BleSession) (op : SessionOp) :
    ∀ k ∈ (s.perform op).session.queue.keys, k ∈ (s.found op).keys ∨
      ∃ r, s.request op = some r ∧ r.id ∉ (s.found op).outstanding.map Entry.id ∧
        k = (r.id, priorityOf op) := by
  intro k hk
  refine (outstanding_perform (fun _ _ => rfl) s op k hk).imp_right ?_
  rintro ⟨r, done, nowMs, hr, hfree, heq⟩
  exact ⟨r, hr, hfree, heq⟩

/-! ## Runs -/

theorem clashesOrdinary_perform {op : SessionOp} (h : ClashesOrdinary s.queue)
    (hop : s.Unclashing op) : ClashesOrdinary (s.perform op).session.queue := by
  have hnew : ∀ r, s.request op = some r → r.id ∉ (s.found op).outstanding.map Entry.id →
      ∀ k ∈ (s.found op).keys, Clash r.id k.1 →
        priorityOf op = .queued ∧ k.2 = .queued := by
    intro r hr hfree k hk
    obtain ⟨e, he, rfl⟩ := List.mem_map.mp hk
    exact hop r hr hfree e he
  intro k hk k' hk' hclash
  rcases s.keys_perform op k hk with hold | ⟨r, hr, hfree, rfl⟩
  · rcases s.keys_perform op k' hk' with hold' | ⟨r, hr, hfree, rfl⟩
    · exact h k (s.found_keys op k hold) k' (s.found_keys op k' hold') hclash
    · exact (hnew r hr hfree k hold hclash.symm).symm
  · rcases s.keys_perform op k' hk' with hold' | ⟨r', hr', hfree', rfl⟩
    · exact hnew r hr hfree k' hold' hclash
    · obtain rfl := Option.some.inj (hr.symm.trans hr')
      exact absurd rfl hclash.ne

/-- When only ordinary commands clash, no message finds two commands in flight. -/
theorem Sound.unambiguous (hs : s.Sound) (h : ClashesOrdinary s.queue)
    {channel : Channel} {message : Bytes} {e f : Entry Submission}
    (he : e ∈ s.queue.inFlight) (hf : f ∈ s.queue.inFlight)
    (hmatch : Matches channel message e.id) (hmatch' : Matches channel message f.id) :
    e = f := by
  have houtstanding : e ∈ s.queue.outstanding := List.mem_append_right _ he
  have houtstanding' : f ∈ s.queue.outstanding := List.mem_append_right _ hf
  rcases hmatch.eq_or_clash hmatch' with hid | hclash
  · exact List.inj_on_of_nodup_map hs.single.ids houtstanding houtstanding' hid
  · obtain ⟨hprio, hprio'⟩ := h _ (CommandQueue.mem_keys houtstanding) _
      (CommandQueue.mem_keys houtstanding') hclash
    exact hs.single.ordinary_unique he hf hprio hprio'

/-- A reply identifies at most one command in flight, in every state that a run reaches
whose submissions do not clash. -/
theorem reply_identifies_one {cfg : SessionConfig}
    {labels : List (SessionOp × List SessionEvent)}
    (hrun : (lts.restrict fun s label => s.Unclashing label.1).Run (new cfg) labels s) :
    ∀ channel message, ∀ e ∈ s.queue.inFlight, ∀ f ∈ s.queue.inFlight,
      Matches channel message e.id → Matches channel message f.id → e = f := by
  have hs : s.Sound := sound ⟨_, _, ⟨cfg, rfl⟩, hrun.of_restrict⟩
  have hclashes : ClashesOrdinary s.queue := by
    refine hrun.invariant (I := fun s => ClashesOrdinary s.queue) ?_ ?_
    · exact fun k hk => absurd hk List.not_mem_nil
    · rintro s ⟨op, evs⟩ t hI ⟨hstep, hop⟩
      rw [(step_eq hstep).1]
      exact clashesOrdinary_perform hI hop
  exact fun channel message e he f hf => hs.unambiguous hclashes he hf

/-- A shutter command and a protobuf command of another feature in flight: the reply of
the latter fits that one alone. -/
theorem reply_identifies_one_features :
    let s := (Lts.play next (new {}) [.submit .command [1, 1, 1] .fastpass 3,
      .submitProtobuf .command 0xF1 0x69 [] .fastpass 4]).1
    ∃ e ∈ s.queue.inFlight, Matches .command [0xF1, 0xE9, 7] e.id ∧
      ∀ f ∈ s.queue.inFlight, Matches .command [0xF1, 0xE9, 7] f.id → f = e := by
  have hfirst : (new {}).Unclashing (.submit .command [1, 1, 1] .fastpass 3) :=
    fun r _ _ e he => absurd he List.not_mem_nil
  have hsecond : ((new {}).perform (.submit .command [1, 1, 1] .fastpass 3)).session.Unclashing
      (.submitProtobuf .command 0xF1 0x69 [] .fastpass 4) := by
    rintro r hr - e he hclash
    obtain rfl := Option.some.inj hr
    obtain rfl := List.mem_singleton.mp he
    exact absurd (clash_protobuf_plain hclash).2 (by decide)
  have hwide : Matches .command [0xF1, 0xE9, 7]
      (correlationOfProtobuf .command 0xF1 0x69) :=
    Or.inr ⟨0xF1, 0xE9, [7], rfl, rfl⟩
  let e : Entry Submission := ⟨correlationOfProtobuf .command 0xF1 0x69, [0xF1, 0x69],
    .fastpass, ⟨correlationOfProtobuf .command 0xF1 0x69, 1, false⟩, 4, 4⟩
  have hrun : (lts.restrict fun s label => s.Unclashing label.1).Run (new {})
      (Lts.play next (new {}) [.submit .command [1, 1, 1] .fastpass 3,
        .submitProtobuf .command 0xF1 0x69 [] .fastpass 4]).2
      (Lts.play next (new {}) [.submit .command [1, 1, 1] .fastpass 3,
        .submitProtobuf .command 0xF1 0x69 [] .fastpass 4]).1 :=
    .cons ⟨rfl, hfirst⟩ (.cons ⟨rfl, hsecond⟩ (.nil _))
  refine ⟨e, by decide, hwide, ?_⟩
  intro f hf hmatch
  exact reply_identifies_one hrun .command [0xF1, 0xE9, 7] f hf e (by decide) hmatch hwide

/-! ## Submissions that clash at once -/

/-- A submission that is not ordinary and is accepted joins what is in flight. -/
theorem perform_inFlight {op : SessionOp} {r : Request} (hr : s.request op = some r)
    (hfree : r.id ∉ (s.found op).outstanding.map Entry.id)
    (hpriority : priorityOf op ≠ .queued) :
    (∃ f ∈ (s.perform op).session.queue.inFlight, f.id = r.id) ∧
      ∀ e ∈ (s.found op).inFlight, e ∈ (s.perform op).session.queue.inFlight := by
  cases op with
  | submit channel payload priority nowMs =>
      cases payload with
      | nil => simp [request] at hr
      | cons b rest =>
          obtain rfl := Option.some.inj hr
          exact ⟨CommandQueue.submit_inFlight hfree _ hpriority _ nowMs,
            s.queue.submit_keeps_inFlight _ _ priority _ nowMs⟩
  | submitProtobuf channel featureId actionId message priority nowMs =>
      obtain rfl := Option.some.inj hr
      exact ⟨CommandQueue.submit_inFlight hfree _ hpriority _ nowMs,
        s.queue.submit_keeps_inFlight _ _ priority _ nowMs⟩
  | tick nowMs =>
      obtain ⟨hdue, hkeepAlive⟩ := Option.ite_none_right_eq_some.mp hr
      obtain rfl := Option.some.inj hkeepAlive
      have hfree' : keepAliveId ∉ (s.anchored nowMs).queue.outstanding.map Entry.id :=
        fun hmem => hfree (mem_anchored_ids.mp hmem)
      rw [perform, (tick_of_due hdue).1]
      refine ⟨CommandQueue.submit_inFlight hfree' _ (by simp) _ nowMs, fun e he => ?_⟩
      exact (s.anchored nowMs).queue.submit_keeps_inFlight _ _ .keepAlive _ nowMs e
        (CommandQueue.pump_keeps_inFlight (s.queue.sweep nowMs) nowMs e he)
  | _ => simp [request] at hr

/-- When it clashes with a command in flight, one reply fits both. -/
theorem fits_two_at_once {op : SessionOp} {r : Request} (hr : s.request op = some r)
    (hfree : r.id ∉ (s.found op).outstanding.map Entry.id)
    (hpriority : priorityOf op ≠ .queued) {e : Entry Submission}
    (he : e ∈ (s.found op).inFlight) (hclash : Clash r.id e.id) :
    ∃ channel message, ∃ f ∈ (s.perform op).session.queue.inFlight,
      ∃ g ∈ (s.perform op).session.queue.inFlight,
        Matches channel message f.id ∧ Matches channel message g.id ∧ f ≠ g := by
  obtain ⟨⟨f, hf, hid⟩, hkeeps⟩ := perform_inFlight hr hfree hpriority
  obtain ⟨channel, message, hmatch, hmatch'⟩ := hclash.matches
  refine ⟨channel, message, f, hf, e, hkeeps e he, hid ▸ hmatch, hmatch', ?_⟩
  rintro rfl
  exact hclash.ne hid.symm

/-- Two commands in flight that one reply fits: a plain one that begins with byte 2, and
a protobuf one of feature 2. -/
theorem reply_fits_two :
    ¬∀ s, lts.Reachable s → ∀ channel message, ∀ e ∈ s.queue.inFlight,
      ∀ f ∈ s.queue.inFlight, Matches channel message e.id → Matches channel message f.id →
        e = f := by
  intro h
  have hsame := h _ (Lts.reachable_of_play ⟨{}, rfl⟩ [.submit .command [2, 1] .fastpass 3,
    .submitProtobuf .command 2 5 [] .fastpass 4]) .command [2, 0x85]
    ⟨2, [2, 1], .fastpass, ⟨2, 0, false⟩, 3, 3⟩ (by decide)
    ⟨0x1000285, [2, 5], .fastpass, ⟨0x1000285, 1, false⟩, 4, 4⟩ (by decide)
    (Or.inl (by decide)) (Or.inr ⟨2, 0x85, [], rfl, by decide⟩)
  exact absurd hsame (by decide)

end BleSession

end GoproNative
