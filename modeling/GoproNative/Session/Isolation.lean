import GoproNative.Session.Invariant

/-!
# What moves the ready gate

The gate by itself is a small machine: it listens to the query characteristic
and to disconnects.  A session follows that machine as long as no message of
another characteristic reads as a status response that says something new; the
parser and the fold do not ask where a message came from, so such a message
moves the gate.
-/

namespace GoproNative

/-! ## What a message says -/

namespace ReadyState

/-- Whether an entry says of a status something other than what is known. -/
def Updates (known : Option Bool) (entry : Option QueryEntry) : Prop :=
  ∃ e, entry = some e ∧ e.value ≠ [] ∧ known ≠ some e.asBool

/-- A status response, sound to its end, whose first BUSY or first ENCODING entry
has a value other than the stored one. -/
def MovedBy (r : ReadyState) (message : Bytes) : Prop :=
  ∃ response, parseQuery message = (.ok, response) ∧ response.isStatus = true ∧
    (Updates r.busy (response.find kStatusBusy) ∨
      Updates r.encoding (response.find kStatusEncoding))

theorem applyEntry_eq_iff {known : Option Bool} {entry : Option QueryEntry} :
    applyEntry known entry = known ↔ ¬Updates known entry := by
  cases entry with
  | none => simp [applyEntry, Updates]
  | some e =>
      by_cases hvalue : e.value = []
      · simp [applyEntry, Updates, hvalue]
      · have hstored : applyEntry known (some e) = some e.asBool := by
          simp [applyEntry, hvalue]
        rw [hstored]
        simp only [Updates, Option.some.injEq, exists_eq_left', ne_eq, hvalue,
          not_false_eq_true, true_and, not_not]
        exact eq_comm

theorem apply_eq_iff {r : ReadyState} {response : QueryResponse} :
    (r.apply response).2 = r ↔ ¬(response.isStatus = true ∧
      (Updates r.busy (response.find kStatusBusy) ∨
        Updates r.encoding (response.find kStatusEncoding))) := by
  by_cases hstatus : response.isStatus = true
  · have heq : (r.apply response).2 = r ↔
        applyEntry r.busy (response.find kStatusBusy) = r.busy ∧
          applyEntry r.encoding (response.find kStatusEncoding) = r.encoding := by
      obtain ⟨busy, encoding⟩ := r
      simp [apply, hstatus]
    rw [heq, applyEntry_eq_iff, applyEntry_eq_iff, ← not_or]
    simp [hstatus]
  · simp [apply, hstatus]

theorem hear_eq_iff {r : ReadyState} {message : Bytes} :
    r.hear message = r ↔ ¬r.MovedBy message := by
  unfold hear MovedBy
  rcases parseQuery message with ⟨result, response⟩
  cases result with
  | ok =>
      rw [apply_eq_iff]
      simp
  | tooShort => simp
  | truncatedTlv => simp

end ReadyState

/-! ## The gate by itself -/

/-- The readiness word and the reassembler of the query characteristic. -/
structure Gate where
  word : ReadyState := {}
  rx : Reassembler := {}

namespace Gate

/-- The gate takes up a word; the Boolean is what is announced. -/
def hear (g : Gate) (message : Bytes) : Gate × List Bool :=
  ({ g with word := g.word.hear message },
    if (g.word.hear message).ready = g.word.ready then []
    else [(g.word.hear message).ready])

/-- Only the query characteristic and disconnects concern the gate. -/
def step (g : Gate) : SessionOp → Gate × List Bool
  | .feed .query packet _ =>
      let g' : Gate := { g with rx := (g.rx.feedTake packet).2 }
      match (g.rx.feedTake packet).1 with
      | some message => g'.hear message
      | none => (g', [])
  | .onDisconnect => ({}, if g.word.ready then [false] else [])
  | _ => (g, [])

theorem step_feed_other {g : Gate} {channel : Channel} (h : channel ≠ .query)
    (packet : Bytes) (nowMs : UInt64) : g.step (.feed channel packet nowMs) = (g, []) := by
  cases channel with
  | query => exact absurd rfl h
  | _ => rfl

theorem hear_of_eq {g : Gate} {message : Bytes} (h : g.word.hear message = g.word) :
    g.hear message = (g, []) := by
  rw [hear, h, if_pos rfl]

end Gate

/-- What `on_ready_` was called with. -/
def gateHistory (evs : List SessionEvent) : List Bool :=
  evs.filterMap fun ev =>
    match ev with
    | .ready ready => some ready
    | _ => none

@[simp] theorem gateHistory_nil : gateHistory [] = [] := rfl

@[simp] theorem gateHistory_append (xs ys : List SessionEvent) :
    gateHistory (xs ++ ys) = gateHistory xs ++ gateHistory ys :=
  List.filterMap_append

@[simp] theorem gateHistory_received (channel : Channel) (message : Bytes)
    (evs : List SessionEvent) :
    gateHistory (.received channel message :: evs) = gateHistory evs := rfl

namespace BleSession

variable {s : BleSession}

/-- The queue's callbacks never announce. -/
@[simp] theorem gateHistory_callQueue (s : BleSession) (a : Activation Submission) :
    gateHistory (s.callQueue a).events = [] := by
  simp only [callQueue, gateHistory, List.filterMap_eq_nil_iff, List.mem_flatMap]
  rintro ev ⟨qev, -, hev⟩
  cases qev <;> simp only [report, List.mem_singleton, List.not_mem_nil] at hev <;>
    subst hev <;> rfl

@[simp] theorem gateHistory_setGate (s : BleSession) (word : ReadyState)
    (nowMs : UInt64) : gateHistory (s.setGate word nowMs).events = [] := by
  unfold setGate
  split
  · rfl
  · exact gateHistory_callQueue _ _

theorem gateHistory_announced (s : BleSession) (word : ReadyState) :
    gateHistory (s.announced word) =
      if word.ready = s.readyState.ready then [] else [word.ready] := by
  unfold announced
  split <;> rfl

/-- The part of a session that is the gate. -/
def gate (s : BleSession) : Gate := ⟨s.readyState, s.rx .query⟩

theorem setGate_rx (s : BleSession) (word : ReadyState) (nowMs : UInt64) :
    (s.setGate word nowMs).session.rx = s.rx := by
  unfold setGate
  split <;> rfl

theorem deliver_readyState (s : BleSession) (channel : Channel) (message : Bytes)
    (nowMs : UInt64) :
    (s.deliver channel message nowMs).session.readyState =
      s.readyState.hear message := by
  rw [deliver_session, setGate_readyState]

theorem gateHistory_deliver (s : BleSession) (channel : Channel) (message : Bytes)
    (nowMs : UInt64) :
    gateHistory (s.deliver channel message nowMs).events =
      if (s.readyState.hear message).ready = s.readyState.ready then []
      else [(s.readyState.hear message).ready] := by
  unfold deliver
  simp only [gateHistory_received, gateHistory_append, gateHistory_callQueue,
    List.nil_append]
  split
  · rw [(foldReply_eq _ message nowMs).2, gateHistory_append, gateHistory_announced,
      gateHistory_setGate, List.append_nil]
    rfl
  · rw [(foldPush_eq _ channel message nowMs).2, gateHistory_append, gateHistory_append,
      gateHistory_announced, gateHistory_setGate]
    simp only [List.nil_append]
    exact List.append_nil _

/-- Delivering a message takes the gate through the message, whatever the
characteristic. -/
theorem deliver_gate (s : BleSession) (channel : Channel) (message : Bytes)
    (nowMs : UInt64) :
    ((s.deliver channel message nowMs).session.gate,
      gateHistory (s.deliver channel message nowMs).events) = s.gate.hear message := by
  rw [gateHistory_deliver, gate, deliver_readyState, deliver_session, setGate_rx]
  rfl

/-- The message a notification completes, if it completes one. -/
def completes (s : BleSession) (channel : Channel) (packet : Bytes) : Option Bytes :=
  ((s.rx channel).feedTake packet).1

/-- The session once its reassembler has taken a notification in. -/
def received (s : BleSession) (channel : Channel) (packet : Bytes) : BleSession :=
  { s with rx := Function.update s.rx channel ((s.rx channel).feedTake packet).2 }

/-- A notification completes a message, which is delivered, or does not, and then
at most a framing error is reported. -/
theorem feed_cases (s : BleSession) (channel : Channel) (packet : Bytes)
    (nowMs : UInt64) :
    (∃ message, s.completes channel packet = some message ∧
      s.feed channel packet nowMs =
        (s.received channel packet).deliver channel message nowMs) ∨
    s.completes channel packet = none ∧
      (s.feed channel packet nowMs).session = s.received channel packet ∧
      ((s.feed channel packet nowMs).events = [] ∨
        ∃ result, (s.feed channel packet nowMs).events =
          [.frameError channel result]) := by
  unfold completes received Reassembler.feedTake feed
  generalize (s.rx channel).feed packet = fed
  obtain ⟨result, r⟩ := fed
  cases result with
  | complete => exact Or.inl ⟨r.take.1, rfl, rfl⟩
  | needMore => exact Or.inr ⟨rfl, rfl, Or.inl rfl⟩
  | _ => exact Or.inr ⟨rfl, rfl, Or.inr ⟨_, rfl⟩⟩

theorem gate_received (s : BleSession) {channel : Channel} (packet : Bytes)
    (h : channel ≠ .query) : (s.received channel packet).gate = s.gate := by
  simp only [gate, received, Function.update_of_ne h.symm]

/-- A step on which no message of another characteristic says anything new. -/
def Quiet (s : BleSession) : SessionOp → Prop
  | .feed channel packet _ => channel ≠ .query →
      ∀ message, s.completes channel packet = some message →
        ¬s.readyState.MovedBy message
  | _ => True

/-- On a quiet step the session does to its gate what the gate does by itself. -/
theorem perform_gate (s : BleSession) (op : SessionOp) (hquiet : s.Quiet op) :
    ((s.perform op).session.gate, gateHistory (s.perform op).events) =
      s.gate.step op := by
  cases op with
  | feed channel packet nowMs =>
      rcases s.feed_cases channel packet nowMs with
        ⟨message, hcomplete, hfeed⟩ | ⟨hnone, hsession, hevents⟩
      · rw [perform, hfeed, deliver_gate]
        by_cases hquery : channel = .query
        · subst hquery
          rw [completes] at hcomplete
          simp [Gate.step, gate, hcomplete, received]
        · rw [gate_received s packet hquery, Gate.step_feed_other hquery]
          exact Gate.hear_of_eq
            (ReadyState.hear_eq_iff.mpr (hquiet hquery message hcomplete))
      · have hsilent : gateHistory (s.feed channel packet nowMs).events = [] := by
          rcases hevents with hnil | ⟨result, herror⟩
          · rw [hnil, gateHistory_nil]
          · rw [herror]
            rfl
        rw [perform, hsession, hsilent]
        by_cases hquery : channel = .query
        · subst hquery
          rw [completes] at hnone
          simp [Gate.step, gate, hnone, received]
        · rw [gate_received s packet hquery, Gate.step_feed_other hquery]
  | submit channel payload priority nowMs =>
      cases payload with
      | nil => rfl
      | cons b payload =>
          rw [perform, submit, enqueue, gateHistory_callQueue]
          rfl
  | submitProtobuf channel featureId actionId message priority nowMs =>
      rw [perform, submitProtobuf, enqueue, gateHistory_callQueue]
      rfl
  | tick nowMs =>
      rw [perform]
      by_cases hdue : s.Due nowMs
      · rw [(tick_of_due hdue).1, (tick_of_due hdue).2, gateHistory_append,
          gateHistory_callQueue, enqueue, gateHistory_callQueue]
        rfl
      · rw [(tick_of_not_due hdue).1, (tick_of_not_due hdue).2, gateHistory_callQueue]
        rfl
  | setAttPayload bytes =>
      rw [perform, setAttPayload_eq]
      rfl
  | onDisconnect =>
      rw [perform, onDisconnect]
      simp only [gateHistory_append, gateHistory_callQueue, List.nil_append]
      change (_, gateHistory (if s.readyState.ready then [.ready false] else [])) =
        (_, if s.readyState.ready then [false] else [])
      cases s.readyState.ready <;> rfl

/-! ## Isolation -/

/-- The same call, but for the contents of a notification of another
characteristic. -/
inductive Alike : SessionOp → SessionOp → Prop
  | same (op : SessionOp) : Alike op op
  | contents {channel : Channel} (h : channel ≠ .query) (packet packet' : Bytes)
      (nowMs : UInt64) :
      Alike (.feed channel packet nowMs) (.feed channel packet' nowMs)

theorem Alike.step_eq {op op' : SessionOp} (h : Alike op op') (g : Gate) :
    g.step op = g.step op' := by
  cases h with
  | same => rfl
  | contents h packet packet' nowMs =>
      rw [Gate.step_feed_other h, Gate.step_feed_other h]

/-- Exactly when a message of another characteristic leaves the gate alone: when
it does not read as a status response with news.  Two runs that differ only in
the contents of such notifications, with no such message in either, have the same
gate at the end and announced the same at every step. -/
theorem gate_moved_by_query_only (cfg : SessionConfig) :
    (∀ as s, lts.Run (new cfg) as s → ∀ channel, channel ≠ .query → ∀ message nowMs,
      ((s.deliver channel message nowMs).session.readyState = s.readyState ∧
        (s.deliver channel message nowMs).session.queue.ready = s.queue.ready ∧
        gateHistory (s.deliver channel message nowMs).events = []) ↔
      ¬s.readyState.MovedBy message) ∧
    ∀ as bs s t,
      (lts.restrict fun s label => s.Quiet label.1).Run (new cfg) as s →
      (lts.restrict fun s label => s.Quiet label.1).Run (new cfg) bs t →
      List.Forall₂ (fun a b => Alike a.1 b.1) as bs →
      s.readyState = t.readyState ∧ s.queue.ready = t.queue.ready ∧
        List.Forall₂ (fun a b => gateHistory a.2 = gateHistory b.2) as bs := by
  have hstart : lts.start (new cfg) := ⟨cfg, rfl⟩
  refine ⟨?_, ?_⟩
  · intro as s hs channel _ message nowMs
    have hsound := sound (.run (.of_start hstart) hs)
    have hflag := (hsound.deliver channel message nowMs).gate
    rw [deliver_readyState] at hflag
    rw [hflag, hsound.gate, deliver_readyState, gateHistory_deliver,
      ← ReadyState.hear_eq_iff]
    constructor
    · exact fun h => h.1
    · intro h
      simp [h]
  · intro as bs s t hs ht halike
    have hboth := hs.lockstep (R := fun s t => s.gate = t.gate) ht halike rfl
      (Q := fun a b => gateHistory a.2 = gateHistory b.2) ?_
    · have hword : s.readyState = t.readyState := congrArg Gate.word hboth.1
      refine ⟨hword, ?_, hboth.2⟩
      rw [(sound (.run (.of_start hstart) hs.of_restrict)).gate,
        (sound (.run (.of_start hstart) ht.of_restrict)).gate, hword]
    · rintro s t ⟨op, evs⟩ ⟨op', evs'⟩ s₁ t₁ hgate halike ⟨hstep, hquiet⟩ ⟨hstep', hquiet'⟩
      obtain ⟨rfl, rfl⟩ := step_eq hstep
      obtain ⟨rfl, rfl⟩ := step_eq hstep'
      have hmove := s.perform_gate op hquiet
      have hmove' := t.perform_gate op' hquiet'
      rw [← hgate, ← halike.step_eq, ← hmove] at hmove'
      obtain ⟨hsame, hhistory⟩ := Prod.mk.inj hmove'
      exact ⟨hsame.symm, hhistory.symm⟩

/-- The camera reports that it is idle. -/
def reportsIdle : SessionOp := .feed .query [8, 0x93, 0, 8, 1, 0, 10, 1, 0] 0

/-- Then it answers a request on the settings characteristic. -/
def settled (answer : Bytes) : List SessionOp := [reportsIdle, .feed .settings answer 5]

theorem quiet_settled {answer message : Bytes}
    (hcompletes :
      ((new {}).perform reportsIdle).session.completes .settings answer = some message)
    (hquiet : (⟨some false, some false⟩ : ReadyState).hear message = ⟨some false, some false⟩) :
    (lts.restrict fun s label => s.Quiet label.1).Run (new {})
      (Lts.play next (new {}) (settled answer)).2 (Lts.play next (new {}) (settled answer)).1 := by
  refine .cons ⟨rfl, fun hquery => absurd rfl hquery⟩ (.single ⟨rfl, ?_⟩)
  intro _ message' hcompletes'
  obtain rfl := Option.some.inj (hcompletes.symm.trans hcompletes')
  exact ReadyState.hear_eq_iff.mp hquiet

/-- An acknowledged setting moves nothing, whichever it is, and neither does a message that
repeats what is known. -/
theorem gate_moved_by_query_only_setting_reply :
    let u := Lts.play next (new {}) (settled [2, 0x13, 0x00])
    let v := Lts.play next (new {}) (settled [2, 0x02, 0x01])
    u.1.readyState.ready = true ∧
      gateHistory (u.1.deliver .settings [0x53, 0, 8, 1, 0, 10, 0] 6).events = [] ∧
      u.1.readyState = v.1.readyState ∧ u.1.queue.ready = v.1.queue.ready ∧
      List.Forall₂ (fun a b => gateHistory a.2 = gateHistory b.2) u.2 v.2 := by
  intro u v
  have hu : (lts.restrict fun s label => s.Quiet label.1).Run (new {}) u.2 u.1 :=
    quiet_settled rfl (by decide)
  have hv : (lts.restrict fun s label => s.Quiet label.1).Run (new {}) v.2 v.1 :=
    quiet_settled rfl (by decide)
  obtain ⟨hmessage, hruns⟩ := gate_moved_by_query_only {}
  refine ⟨by decide, ?_, hruns u.2 v.2 u.1 v.1 hu hv ?_⟩
  · exact ((hmessage u.2 u.1 hu.of_restrict .settings (by decide) [0x53, 0, 8, 1, 0, 10, 0] 6).mpr
      (ReadyState.hear_eq_iff.mp (by decide))).2.2
  · exact .cons (.same _) (.cons (.contents (by decide) _ _ _) .nil)

/-- The other characteristics can move the gate: a message of the command
characteristic that reads as BUSY and ENCODING both zero opens it. -/
theorem gate_moved_by_command_message :
    ¬∀ s, lts.Reachable s → ∀ channel, channel ≠ .query → ∀ message nowMs,
      (s.deliver channel message nowMs).session.readyState = s.readyState ∧
      (s.deliver channel message nowMs).session.queue.ready = s.queue.ready ∧
      gateHistory (s.deliver channel message nowMs).events = [] := by
  intro h
  have hsilent := (h (new {}) (.of_start ⟨{}, rfl⟩) .command (by decide)
    [0x93, 0, 8, 1, 0, 10, 1, 0] 5).2.2
  have hopened : gateHistory ((new {}).deliver .command
      [0x93, 0, 8, 1, 0, 10, 1, 0] 5).events = [true] := by decide
  rw [hopened] at hsilent
  exact absurd hsilent (by decide)

end BleSession

end GoproNative
