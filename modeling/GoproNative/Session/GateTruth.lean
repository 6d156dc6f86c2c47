import GoproNative.Session.Delivery

/-!
# One truth about the gate

Readiness is held by the fold and by the queue, and told to the owner.  An operation
tells it exactly when it changed, so the owner hears openings and closings in turn,
and what it heard last is what the queue acts on.  An operation that opens the gate
lets the oldest waiting command through, unless an ordinary command is in its way.
-/

namespace GoproNative

/-- Every announcement contradicts the one before it, the first one `was`. -/
def Alternates : Bool → List Bool → Prop
  | _, [] => True
  | was, now :: rest => now = !was ∧ Alternates now rest

theorem alternates_snoc {was now : Bool} {history : List Bool}
    (h : Alternates was history) (hnow : now = !history.getLast?.getD was) :
    Alternates was (history ++ [now]) := by
  induction history generalizing was with
  | nil => exact ⟨hnow, trivial⟩
  | cons first rest ih =>
      refine ⟨h.1, ih h.2 ?_⟩
      rw [hnow, List.getLast?_cons]
      rfl

namespace BleSession

variable {s : BleSession}

/-! ## Announcements -/

theorem perform_readyState_of_not_feed (s : BleSession) {op : SessionOp}
    (hop : ∀ channel packet nowMs, op ≠ .feed channel packet nowMs)
    (hdisconnect : op ≠ .onDisconnect) :
    (s.perform op).session.readyState = s.readyState ∧
      gateHistory (s.perform op).events = [] := by
  have hquiet : s.Quiet op := by
    cases op with
    | feed channel packet nowMs => exact absurd rfl (hop channel packet nowMs)
    | _ => trivial
  have hgate := s.perform_gate op hquiet
  have hstep : s.gate.step op = (s.gate, []) := by
    cases op with
    | feed channel packet nowMs => exact absurd rfl (hop channel packet nowMs)
    | onDisconnect => exact absurd rfl hdisconnect
    | _ => rfl
  rw [hstep] at hgate
  obtain ⟨hsame, hsilent⟩ := Prod.mk.inj hgate
  exact ⟨congrArg Gate.word hsame, hsilent⟩

/-- An operation announces readiness exactly when it changed it. -/
theorem gateHistory_perform (s : BleSession) (op : SessionOp) :
    gateHistory (s.perform op).events =
      if (s.perform op).session.readyState.ready = s.readyState.ready then []
      else [(s.perform op).session.readyState.ready] := by
  by_cases hfeed : ∃ channel packet nowMs, op = .feed channel packet nowMs
  · obtain ⟨channel, packet, nowMs, rfl⟩ := hfeed
    rcases s.feed_cases channel packet nowMs with
      ⟨message, -, hfeed⟩ | ⟨-, hsession, hevents⟩
    · rw [perform, hfeed, gateHistory_deliver, deliver_readyState]
      rfl
    · have hsame : (s.received channel packet).readyState = s.readyState := rfl
      rw [perform, hsession, hsame, if_pos rfl]
      rcases hevents with hnil | ⟨result, herror⟩
      · rw [hnil, gateHistory_nil]
      · rw [herror]
        rfl
  · by_cases hdisconnect : op = .onDisconnect
    · subst hdisconnect
      have hgate := congrArg Prod.snd (s.perform_gate .onDisconnect trivial)
      have hreset : (s.perform .onDisconnect).session.readyState.ready = false := rfl
      rw [hreset]
      refine hgate.trans ?_
      cases hready : s.readyState.ready <;> simp [Gate.step, gate, hready]
    · push Not at hfeed
      obtain ⟨hsame, hsilent⟩ := s.perform_readyState_of_not_feed hfeed hdisconnect
      rw [hsame, hsilent, if_pos rfl]

/-! ## Openings -/

/-- Behind a closed gate the queue goes on with nothing. -/
theorem Sound.pump_closed (h : s.Sound) (hclosed : s.queue.ready = false)
    (id : CorrelationId) (nowMs : UInt64) :
    (s.queue.without id).pump nowMs = (s.queue.without id, []) := by
  have hids : ((s.queue.without id).outstanding.map Entry.id).Nodup :=
    h.single.ids.sublist ((List.Sublist.append_left
      List.eraseP_sublist s.queue.pending).map Entry.id)
  rcases CommandQueue.pump_of_ordinary nowMs hids (h.settled.ordinary h.single) with
    ⟨-, hpump⟩ | ⟨e, es, hreleased, -⟩
  · exact hpump
  · have hready : (s.queue.without id).ready = false := hclosed
    simp [CommandQueue.released, hready] at hreleased

/-- The oldest waiting command goes out when the gate opens, unless an ordinary one
stays in flight. -/
theorem setGate_opens {word : ReadyState} {e : Entry Submission}
    {es : List (Entry Submission)} (nowMs : UInt64) (hids : (s.queue.outstanding.map Entry.id).Nodup)
    (hordinary : ∀ e ∈ s.queue.pending, e.priority = .queued)
    (hclosed : s.readyState.ready = false) (hopen : word.ready = true)
    (holdest : s.queue.pending = e :: es) :
    (∃ f ∈ s.queue.inFlight, f.priority = .queued ∧
      f ∈ (s.setGate word nowMs).session.queue.inFlight) ∨
    (e.sent nowMs ∈ (s.setGate word nowMs).session.queue.inFlight ∧
      ∃ packets, .write (e.sent nowMs) (channelOfCorrelation e.id) packets ∈
        (s.setGate word nowMs).events) := by
  let q : CommandQueue Submission := { s.queue with ready := true }
  have hset : s.setGate word nowMs =
      callQueue { s with readyState := word } (s.queue.setReady word.ready nowMs) :=
    if_neg (by simp [hclosed, hopen])
  have hqueue : (s.setGate word nowMs).session.queue = (q.pump nowMs).1 := by
    rw [hset, hopen]
    rfl
  by_cases hbusy : ∃ f ∈ s.queue.inFlight, f.priority = .queued
  · obtain ⟨f, hf, hprio⟩ := hbusy
    refine Or.inl ⟨f, hf, hprio, ?_⟩
    rw [hqueue]
    exact q.pump_keeps_inFlight nowMs f hf
  · right
    push Not at hbusy
    have hreleased : q.released = some e := by
      rw [CommandQueue.released, if_pos ⟨rfl, hbusy⟩]
      simp [q, holdest]
    rcases CommandQueue.pump_of_ordinary (q := q) nowMs hids hordinary with
      ⟨hnone, -⟩ | ⟨e', es', hsome, -, hpump⟩
    · simp [hnone] at hreleased
    · obtain rfl : e = e' := Option.some.inj (hreleased.symm.trans hsome)
      refine ⟨?_, fragment e.payload s.cfg.attPayload, ?_⟩
      · rw [hqueue, hpump]
        simp
      · rw [hset, hopen]
        refine write_mem_callQueue.mpr ⟨?_, rfl, rfl⟩
        have hwrote : .wrote (e.sent nowMs) (q.pump nowMs).1 ∈ (q.pump nowMs).2 := by
          rw [hpump]
          exact List.mem_singleton.mpr rfl
        exact ⟨_, by simpa [CommandQueue.setReady, Activation.run,
          CommandQueue.resume] using hwrote⟩

/-- Only a message opens the gate. -/
theorem Sound.opens_cases (h : s.Sound) {op : SessionOp} (hclosed : s.queue.ready = false)
    (hopen : (s.perform op).session.queue.ready = true) :
    ∃ channel packet nowMs message, op = .feed channel packet nowMs ∧
      s.completes channel packet = some message ∧
      (s.readyState.hear message).ready = true := by
  rw [h.gate] at hclosed
  rw [(h.perform op).gate] at hopen
  by_cases hfeed : ∃ channel packet nowMs, op = .feed channel packet nowMs
  · obtain ⟨channel, packet, nowMs, rfl⟩ := hfeed
    rcases s.feed_cases channel packet nowMs with
      ⟨message, hcomplete, hfeed⟩ | ⟨-, hsession, -⟩
    · rw [BleSession.perform, hfeed, deliver_readyState] at hopen
      exact ⟨channel, packet, nowMs, message, rfl, hcomplete, hopen⟩
    · rw [BleSession.perform, hsession] at hopen
      exact absurd (hopen.symm.trans hclosed) (by simp)
  · push Not at hfeed
    by_cases hdisconnect : op = .onDisconnect
    · subst hdisconnect
      have hreset : (s.perform .onDisconnect).session.readyState.ready = false := rfl
      simp [hreset] at hopen
    · rw [(s.perform_readyState_of_not_feed hfeed hdisconnect).1, hclosed] at hopen
      simp at hopen

/-- An operation that opens the gate has put the oldest waiting command on the wire
by the time it returns, unless an ordinary command that was in flight stays there. -/
theorem Sound.releases (h : s.Sound) {op : SessionOp} (hclosed : s.queue.ready = false)
    (hopen : (s.perform op).session.queue.ready = true) {e : Entry Submission}
    {es : List (Entry Submission)} (holdest : s.queue.pending = e :: es) :
    (∃ f ∈ s.queue.inFlight, f.priority = .queued ∧
      f ∈ (s.perform op).session.queue.inFlight) ∨
    ∃ nowMs, e.sent nowMs ∈ (s.perform op).session.queue.inFlight ∧
      ∃ packets, .write (e.sent nowMs) (channelOfCorrelation e.id) packets ∈
        (s.perform op).events := by
  obtain ⟨channel, packet, nowMs, message, rfl, hcomplete, hword⟩ :=
    h.opens_cases hclosed hopen
  have hfeed : s.perform (.feed channel packet nowMs) =
      (s.received channel packet).deliver channel message nowMs := by
    rcases s.feed_cases channel packet nowMs with
      ⟨message', hcomplete', hfeed⟩ | ⟨hnone, -⟩
    · obtain rfl : message = message' := Option.some.inj (hcomplete.symm.trans hcomplete')
      exact hfeed
    · simp [hnone] at hcomplete
  have ht : (s.received channel packet).Sound := h.congr rfl rfl rfl
  have hshut : s.readyState.ready = false := h.gate ▸ hclosed
  have hordinary := h.settled.ordinary h.single
  rw [hfeed]
  cases hanswers : (s.received channel packet).answers channel message with
  | none =>
      obtain ⟨hsession, hevents⟩ := deliver_of_not_answers hanswers nowMs
      rw [hsession, hevents]
      rcases setGate_opens (s := s.received channel packet) nowMs
          h.single.ids hordinary hshut hword holdest with hstays | ⟨hsent, packets, hwrite⟩
      · exact Or.inl hstays
      · refine Or.inr ⟨nowMs, hsent, packets, List.mem_cons_of_mem _ ?_⟩
        exact List.mem_append_left _ (List.mem_append_left _ hwrite)
  | some answered =>
      obtain ⟨hsession, hevents⟩ := deliver_of_answers hanswers nowMs
      let t := (s.received channel packet).resolved channel message nowMs
      have hqueue : t.queue =
          s.queue.without ((s.received channel packet).answeredId channel message) :=
        congrArg Prod.fst (ht.pump_closed hclosed _ nowMs)
      have hsub : ∀ f ∈ t.queue.inFlight, f ∈ s.queue.inFlight := by
        rw [hqueue]
        exact fun f hf => List.mem_of_mem_eraseP hf
      have hids : (t.queue.outstanding.map Entry.id).Nodup := by
        rw [hqueue]
        exact h.single.ids.sublist ((List.Sublist.append_left
          List.eraseP_sublist s.queue.pending).map Entry.id)
      have hpending : t.queue.pending = s.queue.pending := by
        rw [hqueue]
        rfl
      rw [hsession, hevents]
      rcases setGate_opens (s := t) nowMs hids (hpending ▸ hordinary) hshut
          hword (hpending.trans holdest) with ⟨f, hf, hstays⟩ | ⟨hsent, packets, hwrite⟩
      · exact Or.inl ⟨f, hsub f hf, hstays⟩
      · refine Or.inr ⟨nowMs, hsent, packets, ?_⟩
        refine List.mem_cons_of_mem _ (List.mem_cons_of_mem _ ?_)
        exact List.mem_append_right _ (List.mem_append_right _ hwrite)

/-! ## Runs -/

/-- What `on_ready_` was called with over a run. -/
def announcements (labels : List (SessionOp × List SessionEvent)) : List Bool :=
  labels.flatMap fun label => gateHistory label.2

/-- What the owner heard last is the word, and it heard it in turns. -/
structure Announced (history : List Bool) (s : BleSession) : Prop where
  last : history.getLast?.getD false = s.readyState.ready
  turns : Alternates false history

theorem Announced.perform {history : List Bool} (h : Announced history s)
    (op : SessionOp) :
    Announced (history ++ gateHistory (s.perform op).events) (s.perform op).session := by
  rw [gateHistory_perform]
  split
  · next hsame =>
    rw [List.append_nil]
    exact ⟨h.last.trans hsame.symm, h.turns⟩
  · next hchanged =>
    refine ⟨by simp, alternates_snoc h.turns ?_⟩
    rw [h.last]
    cases hready : s.readyState.ready <;> simp [hready] at hchanged ⊢ <;> exact hchanged

theorem announced_of_run {cfg : SessionConfig}
    {labels : List (SessionOp × List SessionEvent)} (hrun : lts.Run (new cfg) labels s) :
    Announced (announcements labels) s := by
  refine hrun.history (I := fun labels s => Announced (announcements labels) s)
    ⟨rfl, trivial⟩ ?_
  rintro labels s ⟨op, evs⟩ t h hstep
  obtain ⟨rfl, rfl⟩ := step_eq hstep
  rw [announcements, List.flatMap_append, List.flatMap_singleton]
  exact h.perform op

/-- The ready gate has one truth.  Whenever an operation has returned, the queue's
flag, the fold and the last announcement agree; announcements alternate, beginning
with an opening; and an operation that opens the gate has released the oldest
waiting command, unless an ordinary one stays in flight. -/
theorem ready_gate_has_one_truth {cfg : SessionConfig}
    {labels : List (SessionOp × List SessionEvent)}
    (hrun : lts.Run (new cfg) labels s) :
    s.queue.ready = s.readyState.ready ∧
    (announcements labels).getLast?.getD false = s.queue.ready ∧
    Alternates false (announcements labels) ∧
    ∀ op e, s.queue.ready = false → (s.perform op).session.queue.ready = true →
      (s.queue.pending.find? fun e => e.priority == .queued) = some e →
      (∃ f ∈ s.queue.inFlight, f.priority = .queued ∧
        f ∈ (s.perform op).session.queue.inFlight) ∨
      ∃ nowMs, e.sent nowMs ∈ (s.perform op).session.queue.inFlight ∧
        ∃ packets, .write (e.sent nowMs) (channelOfCorrelation e.id) packets ∈
          (s.perform op).events := by
  have hs : s.Sound := sound ⟨_, _, ⟨cfg, rfl⟩, hrun⟩
  obtain ⟨hlast, hturns⟩ := announced_of_run hrun
  refine ⟨hs.gate, hlast.trans hs.gate.symm, hturns, ?_⟩
  intro op e hclosed hopen hfind
  cases hpending : s.queue.pending with
  | nil => simp [hpending] at hfind
  | cons first rest =>
      have hprio := hs.settled.ordinary hs.single first (by simp [hpending])
      obtain rfl : first = e := by
        rw [hpending, List.find?_cons_of_pos (by simp [hprio])] at hfind
        exact Option.some.inj hfind
      exact hs.releases hclosed hopen hpending

/-- A push opens the gate, and the waiting command goes out. -/
theorem ready_gate_has_one_truth_push :
    ∃ labels s, lts.Run (new {}) labels s ∧
      announcements labels = [true] ∧ s.queue.ready = true ∧
      (announcements labels).getLast?.getD false = s.queue.ready := by
  let played := Lts.play next (new {}) [.submit .command [1, 1, 1] .queued 3,
    .feed .query [8, 0x93, 0, 8, 1, 0, 10, 1, 0] 5]
  have hrun : lts.Run (new {}) played.2 played.1 := Lts.run_of_play _ next _ _
  exact ⟨_, _, hrun, by decide, by decide, (ready_gate_has_one_truth hrun).2.1⟩

end BleSession

end GoproNative
