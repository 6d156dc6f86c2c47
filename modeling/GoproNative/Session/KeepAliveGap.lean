import GoproNative.Queue.Deadlines
import GoproNative.Session.Ambiguity
import GoproNative.Session.Wire

/-!
# The keep-alive gap

Two timers meet in a tick.  The interval timer advances at every due tick, whether or
not the keep-alive is accepted; the queue's write deadline bounds how long an
unanswered keep-alive can have it refused.  So at a due tick the last keep-alive was
written less than one write timeout ago, or is written now, and between due ticks
less than one interval passes.
-/

namespace GoproNative

namespace SessionOp

/-- The time an operation carries. -/
def time? : SessionOp → Option UInt64
  | .feed _ _ nowMs => some nowMs
  | .submit _ _ _ nowMs => some nowMs
  | .submitProtobuf _ _ _ _ _ nowMs => some nowMs
  | .tick nowMs => some nowMs
  | .setAttPayload _ => none
  | .onDisconnect => none

/-- The time of a tick. -/
def ticked? : SessionOp → Option UInt64
  | .tick nowMs => some nowMs
  | _ => none

/-- A command of the caller under the keep-alive's id. -/
def UsesKeepAliveId : SessionOp → Prop
  | .submit channel (b :: _) _ _ => correlationOf channel b = keepAliveId
  | .submitProtobuf channel featureId actionId _ _ _ =>
      correlationOfProtobuf channel featureId actionId = keepAliveId
  | _ => False

end SessionOp

/-- A write of the keep-alive. -/
def SessionEvent.keptAlive : SessionEvent → Bool
  | .write e _ _ => e.id == keepAliveId
  | _ => false

/-- What one operation does to the time the gap is measured from. -/
def advance (since : Option UInt64) (label : SessionOp × List SessionEvent) :
    Option UInt64 :=
  if label.1 = .onDisconnect then none
  else if label.2.any SessionEvent.keptAlive then label.1.time?
  else since.or label.1.ticked?

/-- The time the gap is measured from: that of the last keep-alive write since the
session was created or disconnected, or else that of the first tick since. -/
def gapStart (labels : List (SessionOp × List SessionEvent)) : Option UInt64 :=
  labels.foldl advance none

theorem gapStart_snoc (labels : List (SessionOp × List SessionEvent))
    (label : SessionOp × List SessionEvent) :
    gapStart (labels ++ [label]) = advance (gapStart labels) label :=
  List.foldl_append

/-- The times of the operations of a run, in order. -/
def labelTimes (labels : List (SessionOp × List SessionEvent)) : List UInt64 :=
  labels.filterMap fun label => label.1.time?

theorem labelTimes_snoc (labels : List (SessionOp × List SessionEvent))
    (label : SessionOp × List SessionEvent) :
    labelTimes (labels ++ [label]) = labelTimes labels ++ label.1.time?.toList := by
  rw [labelTimes, List.filterMap_append, ← labelTimes]
  cases h : label.1.time? <;> simp [h]

/-- The keep-alive fits in a single packet on every link. -/
theorem fragment_keepAlive {attPayload : Nat} (h : kMinAttPayload ≤ attPayload) :
    fragment keepAlivePayload attPayload = [[0x20, 3, 91, 1, 66]] := by
  have hmin : 20 ≤ attPayload := h
  have hsend : Sendable keepAlivePayload attPayload :=
    sendable_keepAlive_iff.mpr (by omega)
  have hhdr : firstHdr 3 = [0x20, 3] := rfl
  have htake : min (attPayload - 2) 3 = 3 := by omega
  rw [fragment_of_sendable hsend]
  simp [keepAlivePayload, fragmentLoop, hhdr, htake, kLedSettingId, kKeepAliveValue]

namespace BleSession

variable {s : BleSession} {op : SessionOp}

/-! ## Stamps of writes -/

theorem callQueue_write_stamp (s : BleSession) (done : Submission) (op : QueueOp)
    {e : Entry Submission} {channel : UInt8} {packets : List Bytes}
    (h : .write e channel packets ∈ (s.callQueue (s.queue.activate done op)).events) :
    op.time? = some e.sentAtMs := by
  obtain ⟨⟨q, hwrote⟩, -, -⟩ := write_mem_callQueue.mp h
  exact CommandQueue.run_wrote_sent s.queue done op hwrote

theorem setGate_write_stamp (s : BleSession) (word : ReadyState) {nowMs : UInt64}
    {e : Entry Submission} {channel : UInt8} {packets : List Bytes}
    (h : .write e channel packets ∈ (s.setGate word nowMs).events) :
    some nowMs = some e.sentAtMs := by
  unfold setGate at h
  split at h
  · exact absurd h List.not_mem_nil
  · exact callQueue_write_stamp { s with readyState := word } nobody
      (.setReady word.ready nowMs) h

theorem enqueue_write_stamp (s : BleSession) {id : CorrelationId} {payload : Bytes}
    {priority : Priority} {byTick : Bool} {nowMs : UInt64} {e : Entry Submission}
    {channel : UInt8} {packets : List Bytes}
    (h : .write e channel packets ∈ (s.enqueue id payload priority byTick nowMs).events) :
    some nowMs = some e.sentAtMs :=
  callQueue_write_stamp { s with submissions := s.submissions + 1 }
    ⟨id, s.submissions, byTick⟩ (.submit id payload priority nowMs) h

/-- A command is stamped with the time of the operation that writes it. -/
theorem perform_write_stamp (s : BleSession) (op : SessionOp) {e : Entry Submission}
    {channel : UInt8} {packets : List Bytes}
    (h : .write e channel packets ∈ (s.perform op).events) :
    op.time? = some e.sentAtMs := by
  cases op with
  | feed ch packet nowMs =>
      rw [perform] at h
      rcases s.feed_cases ch packet nowMs with
        ⟨message, -, hfeed⟩ | ⟨-, -, hnil | ⟨result, herror⟩⟩
      · rw [hfeed] at h
        rcases write_mem_deliver.mp h with hreply | hgate
        · exact callQueue_write_stamp _ nobody (.onResponse _ message nowMs) hreply
        · exact setGate_write_stamp _ _ hgate
      · simp [hnil] at h
      · simp [herror] at h
  | submit ch payload priority nowMs =>
      cases payload with
      | nil => exact absurd h List.not_mem_nil
      | cons b rest => exact enqueue_write_stamp s h
  | submitProtobuf ch featureId actionId message priority nowMs =>
      exact enqueue_write_stamp s h
  | tick nowMs =>
      rw [perform] at h
      by_cases hdue : s.Due nowMs
      · rw [(tick_of_due hdue).2, List.mem_append] at h
        rcases h with hswept | hsent
        · exact callQueue_write_stamp s nobody (.tick nowMs) hswept
        · exact enqueue_write_stamp _ hsent
      · rw [(tick_of_not_due hdue).2] at h
        exact callQueue_write_stamp s nobody (.tick nowMs) h
  | setAttPayload bytes => exact absurd h List.not_mem_nil
  | onDisconnect =>
      rw [perform, onDisconnect_events] at h
      split at h <;> simp at h

/-! ## The interval timer -/

/-- Only a tick or a disconnect touches the interval timer. -/
theorem perform_timer (s : BleSession) (htick : op.ticked? = none)
    (hop : op ≠ .onDisconnect) :
    (s.perform op).session.keepAliveStarted = s.keepAliveStarted ∧
      (s.perform op).session.lastKeepAliveMs = s.lastKeepAliveMs := by
  have hgate : ∀ (s : BleSession) word nowMs,
      (s.setGate word nowMs).session.keepAliveStarted = s.keepAliveStarted ∧
        (s.setGate word nowMs).session.lastKeepAliveMs = s.lastKeepAliveMs := by
    intro s word nowMs
    unfold setGate
    split <;> exact ⟨rfl, rfl⟩
  cases op with
  | feed channel packet nowMs =>
      rw [perform]
      rcases s.feed_cases channel packet nowMs with
        ⟨message, -, hfeed⟩ | ⟨-, hsession, -⟩
      · rw [hfeed, deliver_session]
        exact hgate _ _ _
      · rw [hsession]
        exact ⟨rfl, rfl⟩
  | submit channel payload priority nowMs => cases payload <;> exact ⟨rfl, rfl⟩
  | submitProtobuf channel featureId actionId message priority nowMs => exact ⟨rfl, rfl⟩
  | tick nowMs => simp [SessionOp.ticked?] at htick
  | setAttPayload bytes =>
      rw [perform, setAttPayload_eq]
      exact ⟨rfl, rfl⟩
  | onDisconnect => exact absurd rfl hop

/-- The interval and the queue's options are those of the configuration. -/
theorem perform_interval (s : BleSession) (op : SessionOp) :
    (s.perform op).session.cfg.keepAliveIntervalMs = s.cfg.keepAliveIntervalMs ∧
      (s.perform op).session.cfg.queue = s.cfg.queue := by
  by_cases hop : ∃ bytes, op = .setAttPayload bytes
  · obtain ⟨bytes, rfl⟩ := hop
    rw [perform, setAttPayload_eq]
    exact ⟨rfl, rfl⟩
  · push Not at hop
    rw [s.perform_cfg hop]
    exact ⟨rfl, rfl⟩

/-! ## Commands under the keep-alive's id -/

/-- What is outstanding under the keep-alive's id is a keep-alive. -/
def OwnsKeepAliveId (s : BleSession) : Prop :=
  ∀ e ∈ s.queue.outstanding, e.id = keepAliveId →
    e.payload = keepAlivePayload ∧ e.priority = .keepAlive

/-- Only a due tick asks for a command under that id. -/
theorem request_keepAlive {r : Request} (hop : ¬op.UsesKeepAliveId)
    (hr : s.request op = some r) (hid : r.id = keepAliveId) :
    ∃ nowMs, op = .tick nowMs ∧ s.Due nowMs ∧ r = keepAliveRequest := by
  cases op with
  | submit channel payload priority nowMs =>
      cases payload with
      | nil => simp [request] at hr
      | cons b rest =>
          simp only [request, Option.some.injEq] at hr
          subst hr
          exact absurd hid hop
  | submitProtobuf channel featureId actionId message priority nowMs =>
      simp only [request, Option.some.injEq] at hr
      subst hr
      exact absurd hid hop
  | tick nowMs =>
      simp only [request] at hr
      split at hr
      · next hdue => exact ⟨nowMs, rfl, hdue, (Option.some.inj hr).symm⟩
      · simp at hr
  | feed channel packet nowMs => simp [request] at hr
  | setAttPayload bytes => simp [request] at hr
  | onDisconnect => simp [request] at hr

theorem OwnsKeepAliveId.perform (h : s.OwnsKeepAliveId) (hop : ¬op.UsesKeepAliveId) :
    (s.perform op).session.OwnsKeepAliveId := by
  intro e he hid
  have hmem := outstanding_perform (f := fun e : Entry Submission =>
    (e.id, e.payload, e.priority)) (fun _ _ => rfl) s op _ (List.mem_map_of_mem he)
  rcases hmem with hold | ⟨r, done, nowMs, hr, -, heq⟩
  · obtain ⟨e', he', heq⟩ := List.mem_map.mp (s.outstanding_found op _ hold)
    simp only [Prod.mk.injEq] at heq
    obtain ⟨hid', hpayload, hprio⟩ := heq
    rw [← hpayload, ← hprio]
    exact h e' he' (hid'.trans hid)
  · simp only [Prod.mk.injEq] at heq
    obtain ⟨hid', hpayload, hprio⟩ := heq
    obtain ⟨t, rfl, -, rfl⟩ := request_keepAlive hop hr (hid'.symm.trans hid)
    exact ⟨hpayload, hprio⟩

/-- Such a command is in flight: it has never waited. -/
theorem OwnsKeepAliveId.inFlight (h : s.OwnsKeepAliveId) (hs : s.Sound)
    {e : Entry Submission} (he : e ∈ s.queue.outstanding) (hid : e.id = keepAliveId) :
    e ∈ s.queue.inFlight := by
  rcases List.mem_append.mp he with hpending | hflight
  · have hordinary := hs.settled.ordinary hs.single e hpending
    simp [(h e he hid).2] at hordinary
  · exact hflight

/-! ## One operation -/

/-- Where a session stands that is `since` the start of the gap. -/
structure Paced (timeoutMs : UInt32) (since : Option UInt64) (s : BleSession) : Prop where
  /-- A keep-alive in flight is the last one written. -/
  flying : ∀ e ∈ s.queue.inFlight, e.id = keepAliveId → since = some e.sentAtMs
  resting : s.keepAliveStarted = false → since = none
  /-- The interval timer is less than one write timeout ahead. -/
  running : s.keepAliveStarted = true →
    ∃ t, since = some t ∧ s.lastKeepAliveMs.toNat < t.toNat + timeoutMs.toNat

variable {timeoutMs : UInt32} {since : Option UInt64}

theorem any_keptAlive_iff {evs : List SessionEvent} :
    evs.any SessionEvent.keptAlive = true ↔
      ∃ e channel packets, .write e channel packets ∈ evs ∧ e.id = keepAliveId := by
  rw [List.any_eq_true]
  constructor
  · rintro ⟨ev, hev, hkept⟩
    cases ev with
    | write e channel packets => exact ⟨e, channel, packets, hev, beq_iff_eq.mp hkept⟩
    | _ => simp [SessionEvent.keptAlive] at hkept
  · rintro ⟨e, channel, packets, hev, hid⟩
    exact ⟨_, hev, beq_iff_eq.mpr hid⟩

/-- The keep-alive in flight stays the last one written. -/
theorem Paced.perform_flying (h : s.Paced timeoutMs since) (hs : s.Sound) (op : SessionOp) :
    ∀ e ∈ (s.perform op).session.queue.inFlight, e.id = keepAliveId →
      advance since (op, (s.perform op).events) = some e.sentAtMs := by
  intro e he hid
  have hop : op ≠ .onDisconnect := by
    rintro rfl
    exact absurd he List.not_mem_nil
  have hflies := s.flies_perform op
  rw [advance, if_neg hop]
  split
  · next hkept =>
    obtain ⟨f, channel, packets, hwrite, hfid⟩ := any_keptAlive_iff.mp hkept
    have hf := (hflies.written f channel packets hwrite).1
    -- Ids in flight are distinct, so the written keep-alive is the one in flight.
    have hsame : f = e := List.inj_on_of_nodup_map (hs.perform op).single.ids
      (List.mem_append_right _ hf) (List.mem_append_right _ he) (hfid.trans hid.symm)
    rw [← hsame]
    exact s.perform_write_stamp op hwrite
  · next hquiet =>
    rcases hflies.inFlight e he with hold | ⟨channel, packets, hwrite⟩
    · rw [h.flying e hold hid, Option.some_or]
    · exact absurd (any_keptAlive_iff.mpr ⟨e, channel, packets, hwrite, hid⟩) hquiet

/-- While the interval timer rests no keep-alive is in flight, and only the tick that
starts the timer moves the start of the gap. -/
theorem Paced.quiet (h : s.Paced timeoutMs since) (hs : s.Sound) (hown : s.OwnsKeepAliveId)
    (hop : ¬op.UsesKeepAliveId) (hrest : s.keepAliveStarted = false) :
    (s.perform op).events.any SessionEvent.keptAlive = false := by
  rw [← Bool.not_eq_true, any_keptAlive_iff]
  rintro ⟨e, channel, packets, hwrite, hid⟩
  have he := ((s.flies_perform op).written e channel packets hwrite).1
  rcases outstanding_perform (fun e t => e.sent_id t) s op e.id
      (List.mem_map_of_mem (List.mem_append_right _ he)) with
    hold | ⟨r, done, nowMs, hr, -, heq⟩
  · obtain ⟨e', he', hid'⟩ := List.mem_map.mp (s.outstanding_found op _ hold)
    have hflying := h.flying e' (hown.inFlight hs he' (hid'.trans hid)) (hid'.trans hid)
    rw [h.resting hrest] at hflying
    simp at hflying
  · obtain ⟨t, -, hdue, -⟩ := request_keepAlive hop hr (heq.symm.trans hid)
    simp [hdue.1] at hrest

/-- A due tick on which no keep-alive is written finds one in flight and within its
deadline. -/
theorem Paced.refused (h : s.Paced timeoutMs since) (hs : s.Sound)
    (hown : s.OwnsKeepAliveId) (htimeout : s.queue.opts.writeTimeoutMs = timeoutMs)
    {nowMs : UInt64} (hlate : ∀ t, since = some t → t ≤ nowMs) (hdue : s.Due nowMs)
    (hquiet : (s.tick nowMs).events.any SessionEvent.keptAlive = false) :
    ∃ t, since = some t ∧ nowMs.toNat < t.toNat + timeoutMs.toNat := by
  have htaken : keepAliveId ∈ (s.queue.sweep nowMs).outstanding.map Entry.id := by
    by_contra hfree
    obtain ⟨e, q, hwrote, hid, -⟩ := CommandQueue.submit_keepAlive_wrote
      (mem_anchored_ids.not.mpr hfree) keepAlivePayload
      ⟨keepAliveId, (s.anchored nowMs).submissions, true⟩ nowMs
    rw [← Bool.not_eq_true, any_keptAlive_iff, (tick_of_due hdue).2] at hquiet
    refine hquiet ⟨e, channelOfCorrelation e.id, fragment e.payload s.cfg.attPayload,
      List.mem_append_right _ ?_, hid⟩
    exact write_mem_callQueue.mpr ⟨⟨q, hwrote⟩, rfl, rfl⟩
  obtain ⟨e, he, hid⟩ := List.mem_map.mp htaken
  rcases List.mem_append.mp he with hpending | hflight
  · have hwaits := List.mem_of_mem_filter hpending
    have hordinary := hs.settled.ordinary hs.single e hwaits
    simp [(hown e (List.mem_append_left _ hwaits) hid).2] at hordinary
  · obtain ⟨hmem, hkept⟩ := List.mem_filter.mp hflight
    have hsince := h.flying e hmem hid
    refine ⟨e.sentAtMs, hsince, ?_⟩
    rw [CommandQueue.writeExpired_eq (hlate _ hsince), CommandQueue.writeDue, htimeout,
      Bool.not_eq_true', decide_eq_false_iff_not, Nat.not_le] at hkept
    exact hkept

theorem tick_timer (s : BleSession) (nowMs : UInt64) :
    (s.tick nowMs).session.keepAliveStarted = true ∧
      (s.tick nowMs).session.lastKeepAliveMs =
        if s.keepAliveStarted = true ∧ ¬s.Due nowMs then s.lastKeepAliveMs else nowMs := by
  by_cases hdue : s.Due nowMs
  · rw [(tick_of_due hdue).1, if_neg (fun h => h.2 hdue)]
    exact ⟨hdue.1, rfl⟩
  · rw [(tick_of_not_due hdue).1]
    simp [hdue]

theorem eq_tick_of_ticked {nowMs : UInt64} (h : op.ticked? = some nowMs) :
    op = .tick nowMs := by
  cases op with
  | tick t => rw [Option.some.inj h]
  | _ => simp [SessionOp.ticked?] at h

/-- A running interval timer goes on, or has been set to the time of the operation. -/
theorem perform_timer_cases (s : BleSession) (op : SessionOp)
    (h : (s.perform op).session.keepAliveStarted = true) :
    (s.keepAliveStarted = true ∧
      (s.perform op).session.lastKeepAliveMs = s.lastKeepAliveMs) ∨
    op.time? = some (s.perform op).session.lastKeepAliveMs := by
  cases htick : op.ticked? with
  | some nowMs =>
      obtain rfl := eq_tick_of_ticked htick
      have htimer := (s.tick_timer nowMs).2
      split at htimer
      · next hidle => exact Or.inl ⟨hidle.1, htimer⟩
      · exact Or.inr (congrArg some htimer.symm)
  | none =>
      by_cases hdisconnect : op = .onDisconnect
      · subst hdisconnect
        exact absurd h Bool.false_ne_true
      · obtain ⟨hstarted, hlast⟩ := s.perform_timer htick hdisconnect
        exact Or.inl ⟨hstarted ▸ h, hlast⟩

/-- The timer rests behind an operation only if there is no gap to measure. -/
theorem Paced.perform_resting (h : s.Paced timeoutMs since) (hs : s.Sound)
    (hown : s.OwnsKeepAliveId) (hop : ¬op.UsesKeepAliveId)
    (hrest : (s.perform op).session.keepAliveStarted = false) :
    advance since (op, (s.perform op).events) = none := by
  by_cases hdisconnect : op = .onDisconnect
  · rw [advance, if_pos hdisconnect]
  · cases htick : op.ticked? with
    | some nowMs =>
        obtain rfl := eq_tick_of_ticked htick
        rw [BleSession.perform, (s.tick_timer nowMs).1] at hrest
        simp at hrest
    | none =>
        rw [(s.perform_timer htick hdisconnect).1] at hrest
        simp [advance, hdisconnect, h.quiet hs hown hop hrest, h.resting hrest, htick]

/-- A tick on which no keep-alive is written leaves the timer less than one write timeout
ahead of the last one, or starts to measure. -/
theorem Paced.tick_running (h : s.Paced timeoutMs since) (hs : s.Sound)
    (hown : s.OwnsKeepAliveId) (htimeout : s.queue.opts.writeTimeoutMs = timeoutMs)
    (hpos : 0 < timeoutMs.toNat) {nowMs : UInt64} (hlate : ∀ t, since = some t → t ≤ nowMs)
    (hquiet : (s.tick nowMs).events.any SessionEvent.keptAlive = false) :
    ∃ t, since.or (some nowMs) = some t ∧
      (s.tick nowMs).session.lastKeepAliveMs.toNat < t.toNat + timeoutMs.toNat := by
  rw [(s.tick_timer nowMs).2]
  split
  · next hidle =>
    obtain ⟨t, hsince, hlast⟩ := h.running hidle.1
    exact ⟨t, by rw [hsince, Option.some_or], hlast⟩
  · next hset =>
    cases hstarted : s.keepAliveStarted with
    | false =>
        refine ⟨nowMs, by rw [h.resting hstarted, Option.none_or], ?_⟩
        omega
    | true =>
        have hdue : s.Due nowMs := by
          by_contra hnot
          exact hset ⟨hstarted, hnot⟩
        obtain ⟨t, hsince, hlast⟩ := h.refused hs hown htimeout hlate hdue hquiet
        exact ⟨t, by rw [hsince, Option.some_or], hlast⟩

/-- A running timer is less than one write timeout ahead of the start of the gap. -/
theorem Paced.perform_running (h : s.Paced timeoutMs since) (hs : s.Sound)
    (hown : s.OwnsKeepAliveId) (htimeout : s.queue.opts.writeTimeoutMs = timeoutMs)
    (hpos : 0 < timeoutMs.toNat)
    (hlate : ∀ nowMs, op.time? = some nowMs → ∀ t, since = some t → t ≤ nowMs)
    (htimer : ∀ nowMs, op.time? = some nowMs → s.keepAliveStarted = true →
      s.lastKeepAliveMs ≤ nowMs)
    (hrunning : (s.perform op).session.keepAliveStarted = true) :
    ∃ t, advance since (op, (s.perform op).events) = some t ∧
      (s.perform op).session.lastKeepAliveMs.toNat < t.toNat + timeoutMs.toNat := by
  have hdisconnect : op ≠ .onDisconnect := by
    rintro rfl
    exact absurd hrunning Bool.false_ne_true
  rw [advance, if_neg hdisconnect]
  split
  · next hkept =>
    -- A keep-alive was written now, and the timer is not ahead of now.
    obtain ⟨e, channel, packets, hwrite, -⟩ := any_keptAlive_iff.mp hkept
    have hstamp := s.perform_write_stamp op hwrite
    refine ⟨e.sentAtMs, hstamp, ?_⟩
    rcases s.perform_timer_cases op hrunning with ⟨hstarted, hlast⟩ | hset
    · have hle := UInt64.le_iff_toNat_le.mp (htimer _ hstamp hstarted)
      rw [hlast]
      omega
    · rw [← Option.some.inj (hstamp.symm.trans hset)]
      omega
  · next hquiet =>
    cases htick : op.ticked? with
    | none =>
        obtain ⟨hstarted, hlast⟩ := s.perform_timer htick hdisconnect
        rw [hlast, Option.or_none]
        exact h.running (hstarted ▸ hrunning)
    | some nowMs =>
        obtain rfl := eq_tick_of_ticked htick
        exact h.tick_running hs hown htimeout hpos (fun t ht => hlate nowMs rfl t ht)
          (Bool.eq_false_of_not_eq_true hquiet)

/-- Every operation keeps the pace, as long as time does not run backwards. -/
theorem Paced.perform (h : s.Paced timeoutMs since) (hs : s.Sound) (hown : s.OwnsKeepAliveId)
    (htimeout : s.queue.opts.writeTimeoutMs = timeoutMs) (hpos : timeoutMs ≠ 0)
    (hop : ¬op.UsesKeepAliveId)
    (hlate : ∀ nowMs, op.time? = some nowMs → ∀ t, since = some t → t ≤ nowMs)
    (htimer : ∀ nowMs, op.time? = some nowMs → s.keepAliveStarted = true →
      s.lastKeepAliveMs ≤ nowMs) :
    (s.perform op).session.Paced timeoutMs (advance since (op, (s.perform op).events)) := by
  have hpos' : 0 < timeoutMs.toNat :=
    Nat.pos_of_ne_zero fun hzero => hpos (UInt32.toNat_inj.mp hzero)
  exact ⟨h.perform_flying hs op, h.perform_resting hs hown hop,
    h.perform_running hs hown htimeout hpos' hlate htimer⟩

/-! ## Runs -/

/-- What a run with nondecreasing times, in which no command of the caller uses the
keep-alive's id, keeps. -/
structure OnPace (cfg : SessionConfig) (labels : List (SessionOp × List SessionEvent))
    (s : BleSession) : Prop where
  sound : s.Sound
  owns : s.OwnsKeepAliveId
  timeout : s.queue.opts.writeTimeoutMs = cfg.queue.writeTimeoutMs
  interval : s.cfg.keepAliveIntervalMs = cfg.keepAliveIntervalMs
  paced : s.Paced cfg.queue.writeTimeoutMs (gapStart labels)
  /-- The gap and the timer start at times of the run. -/
  since : ∀ t, gapStart labels = some t → t ∈ labelTimes labels
  timer : s.keepAliveStarted = true → s.lastKeepAliveMs ∈ labelTimes labels

theorem advance_mem {labels : List (SessionOp × List SessionEvent)}
    {label : SessionOp × List SessionEvent}
    (h : ∀ t, gapStart labels = some t → t ∈ labelTimes labels) :
    ∀ t, advance (gapStart labels) label = some t →
      t ∈ labelTimes labels ++ label.1.time?.toList := by
  intro t ht
  have htime : label.1.time? = some t → t ∈ labelTimes labels ++ label.1.time?.toList :=
    fun heq => List.mem_append_right _ (by simp [heq])
  rw [advance] at ht
  split at ht
  · simp at ht
  · split at ht
    · exact htime ht
    · rw [Option.or_eq_some_iff] at ht
      rcases ht with hold | ⟨-, htick⟩
      · exact List.mem_append_left _ (h t hold)
      · apply htime
        rw [eq_tick_of_ticked htick]
        rfl

theorem onPace {cfg : SessionConfig} {labels : List (SessionOp × List SessionEvent)}
    (hrun : lts.Run (new cfg) labels s) (htimes : (labelTimes labels).Pairwise (· ≤ ·))
    (htimeout : cfg.queue.writeTimeoutMs ≠ 0)
    (hids : ∀ label ∈ labels, ¬label.1.UsesKeepAliveId) : s.OnPace cfg labels := by
  have hhistory := hrun.history (I := fun labels s =>
    (labelTimes labels).Pairwise (· ≤ ·) →
      (∀ label ∈ labels, ¬label.1.UsesKeepAliveId) →
        s.Configured ∧ s.cfg.queue = cfg.queue ∧ s.OnPace cfg labels) ?_ ?_
  · exact (hhistory htimes hids).2.2
  · intro _ _
    refine ⟨rfl, rfl, sound_new cfg, ?_, rfl, rfl, ⟨?_, fun _ => rfl, ?_⟩, ?_, ?_⟩
    · exact fun e he => absurd he List.not_mem_nil
    · exact fun e he => absurd he List.not_mem_nil
    · exact fun hstarted => absurd hstarted Bool.false_ne_true
    · exact fun t ht => absurd ht (by simp [gapStart])
    · exact fun hstarted => absurd hstarted Bool.false_ne_true
  · rintro labels s ⟨op, evs⟩ t hI hstep htimes hids
    obtain ⟨rfl, rfl⟩ := step_eq hstep
    rw [labelTimes_snoc, List.pairwise_append] at htimes
    obtain ⟨htimes, -, hlate⟩ := htimes
    obtain ⟨hconf, hqueue, h⟩ := hI htimes fun label hmem =>
      hids label (List.mem_append_left _ hmem)
    have hop : ¬op.UsesKeepAliveId := 
      hids (op, (s.perform op).events) (List.mem_append_right _ (List.mem_singleton_self _))
    have hlate' : ∀ nowMs, op.time? = some nowMs → ∀ u ∈ labelTimes labels, u ≤ nowMs :=
      fun nowMs hnow u hu => hlate u hu nowMs (by simp [hnow])
    have hconf' := hconf.perform op
    obtain ⟨hinterval, hqueue'⟩ := s.perform_interval op
    refine ⟨hconf', hqueue'.trans hqueue, h.sound.perform op, h.owns.perform hop, ?_,
      hinterval.trans h.interval, ?_, ?_, ?_⟩
    · rw [hconf', hqueue', hqueue]
    · rw [gapStart_snoc]
      exact h.paced.perform h.sound h.owns h.timeout htimeout hop
        (fun nowMs hnow u hu => hlate' nowMs hnow u (h.since u hu))
        fun nowMs hnow hstarted => hlate' nowMs hnow _ (h.timer hstarted)
    · rw [gapStart_snoc, labelTimes_snoc]
      exact advance_mem h.since
    · intro hstarted
      rw [labelTimes_snoc, List.mem_append]
      rcases s.perform_timer_cases op hstarted with ⟨hold, hlast⟩ | hset
      · rw [hlast]
        exact Or.inl (h.timer hold)
      · right
        simp [hset]

/-- When a tick returns, less than one interval has passed since the interval timer was
set. -/
theorem tick_timer_lt {nowMs : UInt64} (hinterval : s.cfg.keepAliveIntervalMs ≠ 0)
    (hle : s.keepAliveStarted = true → s.lastKeepAliveMs ≤ nowMs) :
    nowMs.toNat < (s.tick nowMs).session.lastKeepAliveMs.toNat +
      s.cfg.keepAliveIntervalMs.toNat := by
  have hpos : 0 < s.cfg.keepAliveIntervalMs.toNat :=
    Nat.pos_of_ne_zero fun hzero => hinterval (UInt32.toNat_inj.mp hzero)
  rw [(s.tick_timer nowMs).2]
  split
  · next hidle =>
    obtain ⟨hstarted, hnot⟩ := hidle
    by_contra hlate
    refine hnot ⟨hstarted, (CommandQueue.le_sub_iff (hle hstarted)).mpr ?_⟩
    omega
  · omega

/-- When the tick at the end of a run returns, less than one write timeout and one
interval has passed since the start of the gap. -/
theorem gap_lt {cfg : SessionConfig} {labels : List (SessionOp × List SessionEvent)}
    {nowMs : UInt64} {evs : List SessionEvent}
    (hrun : lts.Run (new cfg) (labels ++ [(.tick nowMs, evs)]) s)
    (htimes : (labelTimes (labels ++ [(.tick nowMs, evs)])).Pairwise (· ≤ ·))
    (htimeout : cfg.queue.writeTimeoutMs ≠ 0) (hinterval : cfg.keepAliveIntervalMs ≠ 0)
    (hids : ∀ label ∈ labels ++ [(.tick nowMs, evs)], ¬label.1.UsesKeepAliveId) :
    ∃ t, gapStart (labels ++ [(.tick nowMs, evs)]) = some t ∧ t ≤ nowMs ∧
      nowMs.toNat - t.toNat <
        cfg.queue.writeTimeoutMs.toNat + cfg.keepAliveIntervalMs.toNat := by
  have hpace' := onPace hrun htimes htimeout hids
  obtain ⟨s₀, hbefore, hlast⟩ := hrun.split
  rw [labelTimes_snoc, List.pairwise_append] at htimes
  have hpace := onPace hbefore htimes.1 htimeout fun label hmem =>
    hids label (List.mem_append_left _ hmem)
  have hlate : ∀ u ∈ labelTimes labels ++ [nowMs], u ≤ nowMs := by
    intro u hu
    rcases List.mem_append.mp hu with hold | hnow
    · exact htimes.2.2 u hold nowMs (List.mem_singleton_self _)
    · rw [List.mem_singleton.mp hnow]
      exact UInt64.le_refl _
  obtain ⟨rfl, rfl⟩ : s = (s₀.perform (.tick nowMs)).session ∧
      evs = (s₀.perform (.tick nowMs)).events := by
    cases hlast with
    | cons hstep hnil =>
        cases hnil
        exact step_eq hstep
  obtain ⟨t, hsince, hahead⟩ := hpace'.paced.running (s₀.tick_timer nowMs).1
  have hinterval' : s₀.cfg.keepAliveIntervalMs ≠ 0 := by
    rw [hpace.interval]
    exact hinterval
  have hgap := tick_timer_lt hinterval' fun hstarted =>
    hlate _ (List.mem_append_left _ (hpace.timer hstarted))
  rw [hpace.interval] at hgap
  have hmem := hpace'.since t hsince
  rw [labelTimes_snoc] at hmem
  have hle := UInt64.le_iff_toNat_le.mp (hlate t hmem)
  refine ⟨t, hsince, hlate t hmem, ?_⟩
  rw [BleSession.perform] at hahead
  omega

/-- What is written under the keep-alive's id is the keep-alive's packet. -/
theorem keepAlive_written {cfg : SessionConfig}
    {labels : List (SessionOp × List SessionEvent)} (hrun : lts.Run (new cfg) labels s)
    (hroom : kMinAttPayload ≤ cfg.attPayload)
    (hids : ∀ label ∈ labels, ¬label.1.UsesKeepAliveId) :
    ∀ label ∈ labels, ∀ e channel packets,
      .write e channel packets ∈ label.2 → e.id = keepAliveId →
        channel = Channel.settings.value ∧ packets = [[0x20, 3, 91, 1, 66]] := by
  have hmeets := hrun.restrict (P := fun _ label => ¬label.1.UsesKeepAliveId)
    fun label hmem _ => hids label hmem
  refine (hmeets.labels (I := fun s => s.OwnsKeepAliveId ∧ kMinAttPayload ≤ s.cfg.attPayload)
    (Q := fun label => ∀ e channel packets, .write e channel packets ∈ label.2 →
      e.id = keepAliveId → channel = Channel.settings.value ∧
        packets = [[0x20, 3, 91, 1, 66]]) ?_ ?_).2
  · exact ⟨fun e he => absurd he List.not_mem_nil, hroom⟩
  · rintro s ⟨op, evs⟩ t ⟨hown, hatt⟩ ⟨hstep, hop⟩
    obtain ⟨rfl, rfl⟩ := step_eq hstep
    have hown' := hown.perform hop
    refine ⟨⟨hown', perform_attPayload op hatt⟩, ?_⟩
    intro e channel packets hwrite hid
    obtain ⟨hflight, hchannel, hpackets⟩ :=
      (s.flies_perform op).written e channel packets hwrite
    rw [hchannel, hpackets, hid, (hown' e (List.mem_append_right _ hflight) hid).1]
    exact ⟨rfl, fragment_keepAlive hatt⟩

/-- The keep-alive gap is bounded even when replies are lost.  In a run with nondecreasing
times, a write timeout, an interval and the room in a packet that every link has, in
which no command of the caller uses the keep-alive's id, less than one write timeout and
one interval has passed, when a tick returns, since the last keep-alive write, or since
the first tick if none has been written since the session was created or disconnected.
Every such write is the keep-alive's packet on the settings characteristic. -/
theorem keep_alive_gap_bounded {cfg : SessionConfig}
    {labels : List (SessionOp × List SessionEvent)} {nowMs : UInt64}
    {evs : List SessionEvent}
    (hrun : lts.Run (new cfg) (labels ++ [(.tick nowMs, evs)]) s)
    (htimes : (labelTimes (labels ++ [(.tick nowMs, evs)])).Pairwise (· ≤ ·))
    (htimeout : cfg.queue.writeTimeoutMs ≠ 0) (hinterval : cfg.keepAliveIntervalMs ≠ 0)
    (hroom : kMinAttPayload ≤ cfg.attPayload)
    (hids : ∀ label ∈ labels, ¬label.1.UsesKeepAliveId) :
    (∃ t, gapStart (labels ++ [(.tick nowMs, evs)]) = some t ∧ t ≤ nowMs ∧
      nowMs.toNat - t.toNat <
        cfg.queue.writeTimeoutMs.toNat + cfg.keepAliveIntervalMs.toNat) ∧
    ∀ label ∈ labels ++ [(.tick nowMs, evs)], ∀ e channel packets,
      .write e channel packets ∈ label.2 → e.id = keepAliveId →
        channel = Channel.settings.value ∧ packets = [[0x20, 3, 91, 1, 66]] := by
  have hids' : ∀ label ∈ labels ++ [(.tick nowMs, evs)], ¬label.1.UsesKeepAliveId := by
    intro label hmem
    rcases List.mem_append.mp hmem with hold | hlast
    · exact hids label hold
    · rw [List.mem_singleton.mp hlast]
      exact id
  constructor
  · exact gap_lt hrun htimes htimeout hinterval hids'
  · exact keepAlive_written hrun hroom hids'

/-- A keep-alive is written at 3000 and its reply is lost; the next is refused at 6000,
and the tick at 8500 sweeps the first. -/
theorem keep_alive_gap_bounded_lost_reply :
    ∃ labels evs s, lts.Run (new {}) (labels ++ [(.tick 8500, evs)]) s ∧
      gapStart (labels ++ [(.tick 8500, evs)]) = some 3000 ∧
      ∃ t, gapStart (labels ++ [(.tick 8500, evs)]) = some t ∧ t ≤ 8500 ∧
        8500 - t.toNat < 8000 := by
  let ops : List SessionOp := [.tick 0, .tick 3000, .tick 6000]
  let s := (Lts.play next (new {}) ops).1
  let labels := (Lts.play next (new {}) ops).2
  have hops : labels.map Prod.fst = ops := rfl
  have hstep (s : BleSession) :
      lts.step s (.tick 8500, (s.tick 8500).events) (s.tick 8500).session := rfl
  have hrun : lts.Run (new {}) (labels ++ [(.tick 8500, (s.tick 8500).events)])
      (s.tick 8500).session :=
    (Lts.run_of_play _ next (new {}) ops).snoc (hstep s)
  have hids : ∀ label ∈ labels, ¬label.1.UsesKeepAliveId := by
    intro label hmem
    have hop : label.1 ∈ ops := hops ▸ List.mem_map_of_mem hmem
    simp only [ops, List.mem_cons, List.not_mem_nil, or_false] at hop
    rcases hop with h | h | h <;> rw [h] <;> exact id
  have htimes : labelTimes (labels ++ [(.tick 8500, (s.tick 8500).events)]) =
      [0, 3000, 6000, 8500] := rfl
  have hbounded := keep_alive_gap_bounded hrun (by rw [htimes]; decide)
    (show (5000 : UInt32) ≠ 0 by decide) (show (3000 : UInt32) ≠ 0 by decide)
    (show 20 ≤ 20 from Nat.le_refl _) hids
  have hsince : gapStart (labels ++ [(.tick 8500, (s.tick 8500).events)]) = some 3000 := by
    decide +kernel
  exact ⟨labels, _, _, hrun, hsince, hbounded.1⟩

end BleSession

end GoproNative
