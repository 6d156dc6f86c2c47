import GoproNative.Session.Isolation
import GoproNative.Support.History

/-!
# Gated writes and the camera's latest word

Readiness is folded from every message that has been received, the one being
delivered included.  The push path folds a message before it tells the queue; the
reply path completes the command first, and the pump that follows may write a
waiting command that the reply itself forbids.  That is the only way a gated
write can go against the latest word.
-/

namespace GoproNative

/-! ## The latest word -/

/-- The messages that `deliver` was given. -/
def heard (evs : List SessionEvent) : List Bytes :=
  evs.filterMap fun ev =>
    match ev with
    | .received _ message => some message
    | _ => none

/-- What the camera last said, folded from all messages received so far. -/
def latestWord (evs : List SessionEvent) : ReadyState :=
  (heard evs).foldl ReadyState.hear {}

/-- An ordinary command that goes out on the wire does so while the camera's
latest word is that it is ready. -/
def Heeded (before : List SessionEvent) : SessionEvent → Prop
  | .write e _ packets =>
      e.priority = .queued → packets ≠ [] → (latestWord before).ready = true
  | _ => True

@[simp] theorem heard_nil : heard [] = [] := rfl

@[simp] theorem heard_append (xs ys : List SessionEvent) :
    heard (xs ++ ys) = heard xs ++ heard ys :=
  List.filterMap_append

theorem latestWord_append_silent {evs : List SessionEvent} (h : heard evs = [])
    (history : List SessionEvent) :
    latestWord (history ++ evs) = latestWord history := by
  rw [latestWord, heard_append, h, List.append_nil, latestWord]

theorem latestWord_received (history : List SessionEvent) (channel : Channel)
    (message : Bytes) :
    latestWord (history ++ [.received channel message]) =
      (latestWord history).hear message := by
  simp [latestWord, heard, List.foldl_append]

/-- Where nothing is received, only the word at the beginning matters. -/
theorem throughout_heeded_of_silent {history evs : List SessionEvent}
    (hsilent : heard evs = []) :
    evs.Throughout (fun before => Heeded (history ++ before)) ↔
      ∀ e channel packets, .write e channel packets ∈ evs → e.priority = .queued →
        packets ≠ [] → (latestWord history).ready = true := by
  have hbefore : ∀ before ev after, evs = before ++ ev :: after →
      latestWord (history ++ before) = latestWord history := by
    intro before ev after hevs
    refine latestWord_append_silent ?_ history
    rw [hevs, heard_append, List.append_eq_nil_iff] at hsilent
    exact hsilent.1
  constructor
  · intro h e channel packets hmem hprio hpackets
    obtain ⟨before, after, hevs⟩ := List.append_of_mem hmem
    rw [← hbefore before _ after hevs]
    exact h before _ after hevs hprio hpackets
  · intro h before ev after hevs
    cases ev with
    | write e channel packets =>
        intro hprio hpackets
        rw [hbefore before _ after hevs]
        exact h e channel packets (by simp [hevs]) hprio hpackets
    | _ => trivial

/-! ## What a session knows -/

namespace ReadyState

/-- A word that says at least what is known. -/
def Confirms (word known : ReadyState) : Prop :=
  (known.busy = none ∨ word.busy = known.busy) ∧
    (known.encoding = none ∨ word.encoding = known.encoding)

theorem eq_of_ready {r r' : ReadyState} (h : r.ready = true) (h' : r'.ready = true) :
    r = r' := by
  obtain ⟨hbusy, hencoding⟩ := ready_iff.mp h
  obtain ⟨hbusy', hencoding'⟩ := ready_iff.mp h'
  obtain ⟨busy, encoding⟩ := r
  obtain ⟨busy', encoding'⟩ := r'
  simp_all

theorem Confirms.eq_of_ready {word known : ReadyState} (h : word.Confirms known)
    (hready : known.ready = true) : word = known := by
  obtain ⟨hbusy, hencoding⟩ := ready_iff.mp hready
  obtain ⟨hb, he⟩ := h
  rw [hbusy] at hb
  rw [hencoding] at he
  obtain ⟨busy, encoding⟩ := word
  obtain ⟨busy', encoding'⟩ := known
  simp_all

theorem Confirms.applyEntry {word known : Option Bool}
    (h : known = none ∨ word = known) (entry : Option QueryEntry) :
    ReadyState.applyEntry known entry = none ∨
      ReadyState.applyEntry word entry = ReadyState.applyEntry known entry := by
  cases entry with
  | none => exact h
  | some e =>
      unfold ReadyState.applyEntry
      simp only
      split
      · exact h
      · exact Or.inr rfl

theorem Confirms.hear {word known : ReadyState} (h : word.Confirms known)
    (message : Bytes) : (word.hear message).Confirms (known.hear message) := by
  unfold ReadyState.hear
  rcases parseQuery message with ⟨result, response⟩
  cases result with
  | ok =>
      simp only [apply]
      split
      · exact h
      · exact ⟨Confirms.applyEntry h.1 _, Confirms.applyEntry h.2 _⟩
  | tooShort => exact h
  | truncatedTlv => exact h

/-- A camera that was ready is not so after a message exactly when the message
moved it. -/
theorem not_ready_hear_iff {r : ReadyState} {message : Bytes} (h : r.ready = true) :
    (r.hear message).ready = false ↔ r.MovedBy message := by
  rw [← not_iff_not, ← hear_eq_iff, Bool.not_eq_false]
  constructor
  · intro hready
    exact ReadyState.eq_of_ready hready h
  · intro hsame
    rw [hsame, h]

end ReadyState

namespace BleSession

variable {s : BleSession}

@[simp] theorem heard_callQueue (s : BleSession) (a : Activation Submission) :
    heard (s.callQueue a).events = [] := by
  simp only [callQueue, heard, List.filterMap_eq_nil_iff, List.mem_flatMap]
  rintro ev ⟨qev, -, hev⟩
  cases qev <;> simp only [report, List.mem_singleton, List.not_mem_nil] at hev <;>
    subst hev <;> rfl

@[simp] theorem heard_setGate (s : BleSession) (word : ReadyState) (nowMs : UInt64) :
    heard (s.setGate word nowMs).events = [] := by
  unfold setGate
  split
  · rfl
  · exact heard_callQueue _ _

@[simp] theorem heard_announced (s : BleSession) (word : ReadyState) :
    heard (s.announced word) = [] := by
  unfold announced
  split <;> rfl

/-- A call of the queue writes an ordinary command only with the gate open. -/
theorem ready_of_write (done : Submission) (op : QueueOp) {e : Entry Submission}
    {channel : UInt8} {packets : List Bytes}
    (h : .write e channel packets ∈ (s.callQueue (s.queue.activate done op)).events)
    (hprio : e.priority = .queued) :
    (s.callQueue (s.queue.activate done op)).session.queue.ready = true := by
  obtain ⟨⟨q, hq⟩, -, -⟩ := write_mem_callQueue.mp h
  exact s.queue.run_wrote_ready done op e q hq hprio

/-! ## Overtaking -/

/-- A step that delivers a message which answers an ordinary command in flight and
moves an open gate, while another ordinary command waits that has packets to
write. -/
def Overtakes (s : BleSession) : SessionOp → Prop
  | .feed channel packet _ => ∃ message answered waiting,
      s.completes channel packet = some message ∧
      (s.queue.inFlight.find? fun e => e.id == s.answeredId channel message) =
        some answered ∧
      answered.priority = .queued ∧
      s.queue.pending.head? = some waiting ∧
      fragment waiting.payload s.cfg.attPayload ≠ [] ∧
      s.readyState.ready = true ∧ s.readyState.MovedBy message
  | _ => False

/-- The reply path's first pump writes something exactly when the reply answers an
ordinary command, the gate is open and another one waits. -/
theorem reply_writes_iff (h : s.Sound) (id : CorrelationId) (data : Bytes)
    (nowMs : UInt64) :
    (∃ e channel packets,
        .write e channel packets ∈ (s.callQueue (s.queue.onResponse id data nowMs)).events ∧
        e.priority = .queued ∧ packets ≠ []) ↔
      ∃ answered waiting, (s.queue.inFlight.find? fun e => e.id == id) = some answered ∧
        answered.priority = .queued ∧ s.queue.pending.head? = some waiting ∧
        fragment waiting.payload s.cfg.attPayload ≠ [] ∧ s.readyState.ready = true := by
  simp only [write_mem_callQueue]
  cases hfind : s.queue.inFlight.find? fun e => e.id == id with
  | none => simp [CommandQueue.onResponse, hfind, Activation.run, CommandQueue.resume]
  | some answered =>
      let q : CommandQueue Submission :=
        { s.queue with inFlight := s.queue.inFlight.eraseP fun e => e.id == id }
      have hrun : (s.queue.onResponse id data nowMs).run.2 =
          .completed ⟨answered.done, .responded, data⟩ :: (q.pump nowMs).2 := by
        simp [CommandQueue.onResponse, hfind, Activation.run, CommandQueue.resume, q]
      have hq : q.SingleFlight :=
        h.single.sublist (List.Sublist.refl _) List.eraseP_sublist
      have hordinary : ∀ e ∈ q.pending, e.priority = .queued :=
        h.settled.ordinary h.single
      have hreleased : ∀ f, q.released = some f ↔ answered.priority = .queued ∧
          s.queue.pending.head? = some f ∧ s.queue.ready = true :=
        fun f => CommandQueue.released_eraseP_iff h.single h.settled hfind
      rw [hrun, ← h.gate]
      rcases CommandQueue.pump_of_ordinary nowMs hq.ids hordinary with
        ⟨hnone, hpump⟩ | ⟨f, fs, hsome, hpending, hpump⟩
      · constructor
        · rintro ⟨e, channel, packets, ⟨⟨q', hwrote⟩, -, -⟩, -, -⟩
          simp [hpump] at hwrote
        · rintro ⟨answered', waiting, heq, hprio, hhead, -, hready⟩
          obtain rfl := Option.some.inj heq
          have hsome := (hreleased waiting).mpr ⟨hprio, hhead, hready⟩
          simp [hnone] at hsome
      · obtain ⟨hprio, hhead, hready⟩ := (hreleased f).mp hsome
        constructor
        · rintro ⟨e, channel, packets, ⟨⟨q', hwrote⟩, -, rfl⟩, -, hpackets⟩
          simp only [hpump, List.mem_cons, reduceCtorEq, QueueEvent.wrote.injEq,
            List.not_mem_nil, or_false, false_or] at hwrote
          obtain ⟨rfl, -⟩ := hwrote
          exact ⟨answered, f, rfl, hprio, hhead, hpackets, hready⟩
        · rintro ⟨answered', waiting, -, -, hhead', hpackets, -⟩
          obtain rfl : f = waiting := Option.some.inj (hhead.symm.trans hhead')
          refine ⟨f.sent nowMs, _, _, ⟨⟨(q.pump nowMs).1, ?_⟩, rfl, rfl⟩, ?_, hpackets⟩
          · rw [hpump]
            exact List.mem_cons_of_mem _ List.mem_cons_self
          · exact hordinary f (by rw [hpending]; exact List.mem_cons_self)

theorem ready_of_setReady_write {ready : Bool} {nowMs : UInt64}
    {e : Entry Submission} {channel : UInt8} {packets : List Bytes}
    (h : .write e channel packets ∈ (s.callQueue (s.queue.setReady ready nowMs)).events)
    (hprio : e.priority = .queued) : ready = true := by
  have hflag : (s.callQueue (s.queue.setReady ready nowMs)).session.queue.ready = ready :=
    s.queue.run_ready nobody (.setReady ready nowMs)
  have hready := ready_of_write nobody (.setReady ready nowMs) h hprio
  exact hflag.symm.trans hready

/-- The word is folded before the queue is told, so what `setGate` releases is
released by the word itself. -/
theorem ready_of_setGate_write {word : ReadyState} {nowMs : UInt64}
    {e : Entry Submission} {channel : UInt8} {packets : List Bytes}
    (h : .write e channel packets ∈ (s.setGate word nowMs).events)
    (hprio : e.priority = .queued) : word.ready = true := by
  unfold setGate at h
  split at h
  · simp at h
  · exact ready_of_setReady_write (s := { s with readyState := word }) h hprio

/-- Both tails of `deliver` write only what the word releases. -/
theorem ready_of_fold_write {word : ReadyState} {nowMs : UInt64}
    {e : Entry Submission} {channel : UInt8} {packets : List Bytes}
    (h : .write e channel packets ∈ s.announced word ++ (s.setGate word nowMs).events)
    (hprio : e.priority = .queued) : word.ready = true := by
  rcases List.mem_append.mp h with hannounced | hset
  · unfold announced at hannounced
    split at hannounced <;> simp at hannounced
  · exact ready_of_setGate_write hset hprio

/-- The events of `deliver`: the message, the reply, and a tail that writes only
what the word releases. -/
theorem deliver_events (s : BleSession) (channel : Channel) (message : Bytes)
    (nowMs : UInt64) :
    ∃ rest, (s.deliver channel message nowMs).events = [.received channel message] ++
        ((s.callQueue (s.queue.onResponse (s.answeredId channel message) message
          nowMs)).events ++ rest) ∧
      heard rest = [] ∧
      ∀ e ch packets, .write e ch packets ∈ rest → e.priority = .queued →
        (s.readyState.hear message).ready = true := by
  unfold deliver
  simp only
  split
  · refine ⟨_, rfl, ?_, ?_⟩
    · rw [(foldReply_eq _ message nowMs).2]
      simp
    · intro e ch packets hmem
      rw [(foldReply_eq _ message nowMs).2] at hmem
      exact ready_of_fold_write hmem
  · refine ⟨_, rfl, ?_, ?_⟩
    · rw [(foldPush_eq _ channel message nowMs).2, heard_append, heard_append,
        heard_setGate, heard_announced]
      rfl
    · intro e ch packets hmem
      rw [(foldPush_eq _ channel message nowMs).2] at hmem
      simp only [List.mem_append, List.mem_singleton, reduceCtorEq, or_false] at hmem
      exact ready_of_fold_write (List.mem_append.mpr hmem.symm)

/-- Delivering a message heeds the word unless the reply path overtakes it. -/
theorem deliver_heeds_iff (h : s.Sound) {history : List SessionEvent}
    (hconfirms : (latestWord history).Confirms s.readyState) (channel : Channel)
    (message : Bytes) (nowMs : UInt64) :
    (s.deliver channel message nowMs).events.Throughout
        (fun before => Heeded (history ++ before)) ↔
      ¬∃ answered waiting, (s.queue.inFlight.find? fun e =>
          e.id == s.answeredId channel message) = some answered ∧
        answered.priority = .queued ∧ s.queue.pending.head? = some waiting ∧
        fragment waiting.payload s.cfg.attPayload ≠ [] ∧
        s.readyState.ready = true ∧ s.readyState.MovedBy message := by
  obtain ⟨rest, hevents, hsilent, hrest⟩ := s.deliver_events channel message nowMs
  have hfirst : [SessionEvent.received channel message].Throughout
      (fun before => Heeded (history ++ before)) :=
    List.throughout_snoc List.throughout_nil trivial
  rw [hevents, List.throughout_append_iff, and_iff_right hfirst]
  simp only [← List.append_assoc history]
  rw [throughout_heeded_of_silent (by simp [hsilent]), latestWord_received]
  have hmoved : s.readyState.ready = true →
      (((latestWord history).hear message).ready = false ↔
        s.readyState.MovedBy message) := by
    intro hready
    rw [hconfirms.eq_of_ready hready]
    exact ReadyState.not_ready_hear_iff hready
  constructor
  · -- A waiting command that goes out needs the word, and the message denied it.
    rintro h ⟨answered, waiting, hfind, hprio, hhead, hpackets, hready, hmoves⟩
    obtain ⟨e, ch, packets, hmem, hordinary, hwritten⟩ := (reply_writes_iff ‹s.Sound› _
      message nowMs).mpr ⟨answered, waiting, hfind, hprio, hhead, hpackets, hready⟩
    have hword := h e ch packets (List.mem_append_left _ hmem) hordinary hwritten
    simp [(hmoved hready).mpr hmoves] at hword
  · intro hnot e ch packets hmem hprio hpackets
    rcases List.mem_append.mp hmem with hreply | htail
    · obtain ⟨answered, waiting, hfind, hordinary, hhead, hfrag, hready⟩ :=
        (reply_writes_iff h _ message nowMs).mp ⟨e, ch, packets, hreply, hprio, hpackets⟩
      by_contra hword
      exact hnot ⟨answered, waiting, hfind, hordinary, hhead, hfrag, hready,
        (hmoved hready).mp (Bool.not_eq_true _ ▸ hword)⟩
    · have hheard := hrest e ch packets htail hprio
      rwa [(hconfirms.hear message).eq_of_ready hheard]

/-! ## Every call -/

/-- The calls that deliver no message write gated commands under the word they find. -/
theorem heeds_of_silent {evs : List SessionEvent} {history : List SessionEvent}
    (hconfirms : (latestWord history).Confirms s.readyState) (hsilent : heard evs = [])
    (hwrites : ∀ e ch packets, .write e ch packets ∈ evs → e.priority = .queued →
      s.readyState.ready = true) :
    evs.Throughout (fun before => Heeded (history ++ before)) := by
  rw [throughout_heeded_of_silent hsilent]
  intro e ch packets hmem hprio _
  have hready := hwrites e ch packets hmem hprio
  rwa [hconfirms.eq_of_ready hready]

theorem ready_of_enqueue_write {id : CorrelationId} {payload : Bytes}
    {priority : Priority} {byTick : Bool} {nowMs : UInt64} {e : Entry Submission}
    {channel : UInt8} {packets : List Bytes}
    (h : .write e channel packets ∈ (s.enqueue id payload priority byTick nowMs).events)
    (hprio : e.priority = .queued) : s.queue.ready = true := by
  obtain ⟨⟨q, hq⟩, -, -⟩ := write_mem_callQueue.mp h
  have hready := s.queue.run_wrote_ready ⟨id, s.submissions, byTick⟩
    (.submit id payload priority nowMs) e q hq hprio
  rwa [CommandQueue.run_ready] at hready

/-- A call that brings no notification hears nothing, keeps the readiness or resets
it, and writes ordinary commands only with the gate open. -/
theorem perform_silent (h : s.Sound) {op : SessionOp}
    (hop : ∀ channel packet nowMs, op ≠ .feed channel packet nowMs) :
    heard (s.perform op).events = [] ∧
      ((s.perform op).session.readyState = s.readyState ∨
        (s.perform op).session.readyState = {}) ∧
      ∀ e ch packets, .write e ch packets ∈ (s.perform op).events →
        e.priority = .queued → s.readyState.ready = true := by
  rw [← h.gate]
  cases op with
  | feed channel packet nowMs => exact absurd rfl (hop channel packet nowMs)
  | submit channel payload priority nowMs =>
      cases payload with
      | nil => exact ⟨rfl, Or.inl rfl, by simp [perform, submit]⟩
      | cons b payload =>
          exact ⟨heard_callQueue _ _, Or.inl rfl, fun _ _ _ => ready_of_enqueue_write⟩
  | submitProtobuf channel featureId actionId message priority nowMs =>
      exact ⟨heard_callQueue _ _, Or.inl rfl, fun _ _ _ => ready_of_enqueue_write⟩
  | tick nowMs =>
      have hflag : (s.callQueue (s.queue.tick nowMs)).session.queue.ready = s.queue.ready :=
        s.queue.run_ready nobody (.tick nowMs)
      have hswept : ∀ e ch packets,
          .write e ch packets ∈ (s.callQueue (s.queue.tick nowMs)).events →
          e.priority = .queued → s.queue.ready = true := by
        intro e ch packets hmem hprio
        have hready := ready_of_write nobody (.tick nowMs) hmem hprio
        exact hflag.symm.trans hready
      rw [perform]
      by_cases hdue : s.Due nowMs
      · rw [(tick_of_due hdue).1, (tick_of_due hdue).2]
        refine ⟨?_, Or.inl rfl, ?_⟩
        · rw [heard_append, heard_callQueue, enqueue, heard_callQueue]
          rfl
        · intro e ch packets hmem hprio
          rcases List.mem_append.mp hmem with hmem | hmem
          · exact hswept e ch packets hmem hprio
          · exact hflag.symm.trans (ready_of_enqueue_write hmem hprio)
      · rw [(tick_of_not_due hdue).1, (tick_of_not_due hdue).2]
        exact ⟨heard_callQueue _ _, Or.inl rfl, hswept⟩
  | setAttPayload bytes =>
      rw [perform, setAttPayload_eq]
      exact ⟨rfl, Or.inl rfl, by simp⟩
  | onDisconnect =>
      refine ⟨?_, Or.inr rfl, ?_⟩
      · rw [perform, onDisconnect]
        simp only [heard_append, heard_callQueue, List.nil_append]
        split <;> rfl
      · intro e ch packets hmem hprio
        simp only [perform, onDisconnect, List.mem_append] at hmem
        rcases hmem with (hmem | hmem) | hmem
        · have hready := ready_of_write (s := { s with rx := fun _ => {} })
            nobody .cancelAll hmem hprio
          exact hready
        · exact absurd (ready_of_setReady_write hmem hprio) (by simp)
        · split at hmem <;> simp at hmem

/-- What the session knows is confirmed by all that was heard. -/
theorem perform_confirms (h : s.Sound) (op : SessionOp) {history : List SessionEvent}
    (hconfirms : (latestWord history).Confirms s.readyState) :
    (latestWord (history ++ (s.perform op).events)).Confirms
      (s.perform op).session.readyState := by
  by_cases hop : ∃ channel packet nowMs, op = .feed channel packet nowMs
  · obtain ⟨channel, packet, nowMs, rfl⟩ := hop
    rcases s.feed_cases channel packet nowMs with
      ⟨message, -, hfeed⟩ | ⟨-, hsession, hevents⟩
    · obtain ⟨rest, hdeliver, hsilent, -⟩ :=
        (s.received channel packet).deliver_events channel message nowMs
      rw [perform, hfeed, deliver_readyState, hdeliver, ← List.append_assoc,
        latestWord_append_silent (by simp [hsilent]), latestWord_received]
      exact hconfirms.hear message
    · rw [perform, hsession]
      have hsilent : heard (s.feed channel packet nowMs).events = [] := by
        rcases hevents with hnil | ⟨result, herror⟩
        · rw [hnil, heard_nil]
        · rw [herror]
          rfl
      rw [latestWord_append_silent hsilent]
      exact hconfirms
  · simp only [not_exists] at hop
    obtain ⟨hsilent, hword, -⟩ := perform_silent h hop
    rw [latestWord_append_silent hsilent]
    rcases hword with hword | hword
    · rwa [hword]
    · rw [hword]
      exact ⟨Or.inl rfl, Or.inl rfl⟩

theorem perform_heeds_iff (h : s.Sound) (op : SessionOp) {history : List SessionEvent}
    (hconfirms : (latestWord history).Confirms s.readyState) :
    (s.perform op).events.Throughout (fun before => Heeded (history ++ before)) ↔
      ¬s.Overtakes op := by
  by_cases hop : ∃ channel packet nowMs, op = .feed channel packet nowMs
  · obtain ⟨channel, packet, nowMs, rfl⟩ := hop
    rcases s.feed_cases channel packet nowMs with
      ⟨message, hcomplete, hfeed⟩ | ⟨hnone, -, hevents⟩
    · have hreceived : (s.received channel packet).Sound := h.congr rfl rfl rfl
      rw [perform, hfeed, deliver_heeds_iff hreceived hconfirms]
      refine not_congr ⟨?_, ?_⟩
      · rintro ⟨answered, waiting, hrest⟩
        exact ⟨message, answered, waiting, hcomplete, hrest⟩
      · rintro ⟨message', answered, waiting, hcomplete', hrest⟩
        obtain rfl := Option.some.inj (hcomplete.symm.trans hcomplete')
        exact ⟨answered, waiting, hrest⟩
    · refine iff_of_true ?_ ?_
      · rw [perform]
        rcases hevents with hnil | ⟨result, herror⟩
        · rw [hnil]
          exact List.throughout_nil
        · rw [herror]
          exact List.throughout_snoc List.throughout_nil trivial
      · rintro ⟨message, answered, waiting, hcomplete, -⟩
        simp [hnone] at hcomplete
  · simp only [not_exists] at hop
    obtain ⟨hsilent, -, hwrites⟩ := perform_silent h hop
    refine iff_of_true (heeds_of_silent hconfirms hsilent hwrites) ?_
    cases op with
    | feed channel packet nowMs => exact absurd rfl (hop channel packet nowMs)
    | _ => exact id

/-! ## Runs -/

/-- What a run reported, in order. -/
def trace (labels : List (SessionOp × List SessionEvent)) : List SessionEvent :=
  labels.flatMap Prod.snd

theorem run_heeds_iff {t : BleSession} {labels : List (SessionOp × List SessionEvent)}
    (hrun : lts.Run s labels t) (h : s.Sound) {history : List SessionEvent}
    (hconfirms : (latestWord history).Confirms s.readyState) :
    (trace labels).Throughout (fun before => Heeded (history ++ before)) ↔
      (lts.restrict fun s label => ¬s.Overtakes label.1).Run s labels t := by
  induction hrun generalizing history with
  | nil s => exact iff_of_true List.throughout_nil (.nil s)
  | @cons s _ u label labels hstep hrest ih =>
      obtain ⟨op, evs⟩ := label
      obtain ⟨rfl, rfl⟩ := step_eq hstep
      rw [trace, List.flatMap_cons, List.throughout_append_iff]
      simp only [← List.append_assoc history]
      rw [perform_heeds_iff h op hconfirms, ← trace,
        ih (h.perform op) (perform_confirms h op hconfirms)]
      constructor
      · rintro ⟨hheeds, hlater⟩
        exact .cons ⟨hstep, hheeds⟩ hlater
      · intro hrun
        cases hrun with
        | cons hfirst hlater =>
            obtain ⟨hstep', hheeds⟩ := hfirst
            rw [(step_eq hstep').1] at hlater
            exact ⟨hheeds, hlater⟩

/-- Exactly when gated commands are never transmitted against the camera's latest
word, over every run: when no reply overtakes, that is, when no message answers
an ordinary command in flight and moves the open gate while another one waits. -/
theorem gated_writes_heed_latest_word {cfg : SessionConfig}
    {labels : List (SessionOp × List SessionEvent)} {s : BleSession}
    (hrun : lts.Run (new cfg) labels s) :
    (trace labels).Throughout Heeded ↔
      (lts.restrict fun s label => ¬s.Overtakes label.1).Run (new cfg) labels s := by
  have hconfirms : (latestWord []).Confirms (new cfg).readyState :=
    ⟨Or.inl rfl, Or.inl rfl⟩
  exact run_heeds_iff hrun (sound_new cfg) hconfirms

/-- Without the reply that shuts the gate: the camera reports that it is ready, and
a command goes out. -/
theorem gated_writes_heed_latest_word_ready_camera :
    (trace (Lts.play next (new {}) [.feed .query [8, 0x93, 0, 8, 1, 0, 10, 1, 0] 1,
      .submit .command [1, 1, 1] .queued 2]).2).Throughout Heeded := by
  refine (gated_writes_heed_latest_word (Lts.run_of_play _ _ _ _)).mpr
    (.cons ⟨rfl, ?_⟩ (.cons ⟨rfl, id⟩ (.nil _)))
  rintro ⟨message, answered, waiting, -, -, -, hhead, -⟩
  simp [new] at hhead

/-- A camera that is ready; an ordinary query in flight and a command behind it; a
reply that says the camera is busy. -/
def overtakenOps : List SessionOp :=
  [.feed .query [8, 0x93, 0, 8, 1, 0, 10, 1, 0] 1,
    .submit .query [0x13, 8, 10] .queued 2,
    .submit .command [1, 1, 1] .queued 3,
    .feed .query [5, 0x13, 0, 8, 1, 1] 4]

/-- The command is written after the message that says the camera is busy. -/
theorem gated_write_overtakes_reply :
    ¬∀ cfg labels s, lts.Run (new cfg) labels s → (trace labels).Throughout Heeded := by
  intro h
  let labels := (Lts.play next (new {}) overtakenOps).2
  have hheeded := h {} labels _ (Lts.run_of_play _ _ _ overtakenOps)
    ((trace labels).take 6)
    (.write ⟨1, [1, 1, 1], .queued, ⟨1, 1, false⟩, 3, 4⟩ 0 [[0x20, 3, 1, 1, 1]])
    [.ready false] rfl rfl (by simp)
  exact absurd hheeded (by decide)

end BleSession

end GoproNative
