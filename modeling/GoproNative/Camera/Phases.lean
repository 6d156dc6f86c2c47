import GoproNative.Camera.Definitions

/-!
# The phases of a camera

What the bodies of `_onDrop` and `close` do to each other goes through the link state,
the places they are suspended in and the life of the session.  A turn moves these in
few ways, listed once in `Moves`, and the invariant of every run follows from the list.
-/

namespace GoproNative

namespace Camera

structure Phase where
  state : CameraLink
  dropping : Option DropStage
  closing : Option CloseStage
  destroyed : Bool

def phase (c : Camera) : Phase := ⟨c.state, c.dropping, c.closing, c.destroyed⟩

/-- All that a turn can do to the phase. -/
inductive Moves : Phase → Phase → Prop
  | stay (p : Phase) : Moves p p
  /-- A drop is noticed. -/
  | drop (p : Phase) : p.state = .up →
      Moves p { p with state := .reconnecting, dropping := some .detaching }
  /-- `close` begins, on its own or in the `catch` of `_onDrop`. -/
  | shut (p : Phase) (dropping : Option DropStage) (stage : CloseStage) :
      p.state ≠ .down → dropping = p.dropping ∨ dropping = none →
      Moves p { p with state := .down, dropping := dropping, closing := some stage }
  /-- `_onDrop` gives up on a camera that is down. -/
  | abandon (p : Phase) : p.state = .down → Moves p { p with dropping := none }
  /-- `_detach` throws in `_onDrop`. -/
  | stall (p : Phase) : p.dropping = some .detaching →
      Moves p { p with dropping := none }
  | climb (p : Phase) : p.dropping = some .detaching →
      Moves p { p with dropping := some .climbing }
  | attach (p : Phase) (failure : Option DartError) : p.dropping = some .climbing →
      (p.state ≠ .up → failure ≠ none) →
      Moves p { p with dropping := some (.attaching failure) }
  | finish (p : Phase) : p.dropping = some (.attaching none) →
      Moves p { p with state := .up, dropping := none }
  /-- `close` goes on to its `_resolvePending`, or throws. -/
  | shutting (p : Phase) (closing : Option CloseStage) : p.closing ≠ none →
      (∀ rest, p.closing ≠ some (.closingStreams rest)) →
      Moves p { p with closing := closing }
  | destroy (p : Phase) (rest : List CameraStream) : p.closing = some .draining →
      Moves p { p with closing := some (.closingStreams rest), destroyed := true }
  /-- `close` goes on behind it. -/
  | ending (p : Phase) (streams : List CameraStream) (closing : Option CloseStage) :
      p.closing = some (.closingStreams streams) →
      (∀ stage, closing = some stage → ∃ rest, stage = .closingStreams rest) →
      Moves p { p with closing := closing }

variable {c : Camera}

/-! ## What leaves the phase alone -/

theorem call_frame (c : Camera) (t : Turn) :
    ∃ session port, c.call t = { c with session := session, port := port } := by
  unfold call
  split
  · exact ⟨c.session, c.port, rfl⟩
  · exact ⟨_, _, rfl⟩

@[simp] theorem call_phase (c : Camera) (t : Turn) : (c.call t).phase = c.phase := by
  obtain ⟨session, port, hframe⟩ := call_frame c t
  rw [hframe]
  rfl

@[simp] theorem setState_phase (c : Camera) (next : CameraLink) :
    (c.setState next).1.phase = { c.phase with state := next } := by
  unfold setState
  split
  · next h => rw [← h]; rfl
  · rfl

theorem enter_frame (c : Camera) (id : DartInt) (submit : BleSession → Turn)
    (refusal : DartError) : ∃ session port pending,
    (c.enter id submit refusal).1 =
      { c with session := session, port := port, pending := pending } := by
  obtain ⟨session, port, hcall⟩ := call_frame
    { c with pending := c.pending.insert id ⟨c.session.submissions⟩ } (submit c.session)
  unfold enter
  simp only [hcall]
  split
  · exact ⟨session, port, _, rfl⟩
  · exact ⟨session, port, _, rfl⟩

theorem send_frame (c : Camera) (channel : Channel) (payload : List DartInt)
    (priority : Option Priority) (nowMs : UInt64) : ∃ session port pending,
    (c.send channel payload priority nowMs).1 =
      { c with session := session, port := port, pending := pending } := by
  unfold send
  split
  · exact ⟨c.session, c.port, c.pending, rfl⟩
  · split
    · exact ⟨c.session, c.port, c.pending, rfl⟩
    · simp only
      split
      · exact ⟨c.session, c.port, c.pending, rfl⟩
      · exact enter_frame ..

theorem sendProtobuf_frame (c : Camera) (channel : Channel)
    (featureId actionId : DartInt) (message : List DartInt) (priority : Priority)
    (nowMs : UInt64) : ∃ session port pending,
    (c.sendProtobuf channel featureId actionId message priority nowMs).1 =
      { c with session := session, port := port, pending := pending } := by
  unfold sendProtobuf
  split
  · exact ⟨c.session, c.port, c.pending, rfl⟩
  · simp only
    split
    · exact ⟨c.session, c.port, c.pending, rfl⟩
    · exact enter_frame ..

@[simp] theorem send_phase (c : Camera) (channel : Channel) (payload : List DartInt)
    (priority : Option Priority) (nowMs : UInt64) :
    (c.send channel payload priority nowMs).1.phase = c.phase := by
  obtain ⟨session, port, pending, hframe⟩ := send_frame c channel payload priority nowMs
  rw [hframe]
  rfl

@[simp] theorem sendProtobuf_phase (c : Camera) (channel : Channel)
    (featureId actionId : DartInt) (message : List DartInt) (priority : Priority)
    (nowMs : UInt64) :
    (c.sendProtobuf channel featureId actionId message priority nowMs).1.phase =
      c.phase := by
  obtain ⟨session, port, pending, hframe⟩ :=
    sendProtobuf_frame c channel featureId actionId message priority nowMs
  rw [hframe]
  rfl

theorem send_of_not_up (h : c.state ≠ .up) (channel : Channel) (payload : List DartInt)
    (priority : Option Priority) (nowMs : UInt64) :
    c.send channel payload priority nowMs = (c, .error c.notUp) := if_pos h

/-- What `_attach` does before it asks for the statuses. -/
def bind (c : Camera) (a : Attached) : Camera :=
  let c := { c with device := a.device, writes := a.writes, notifies := a.notifies }
  let mtu := leastMtu c.notifies
  let c :=
    if 3 < mtu then
      c.call { session := c.session.setAttPayload (mtu - 3).toUInt32.toNat }
    else c
  { c with subs := c.subs ++ c.notifies.keys.reverse }

theorem attach_eq (c : Camera) (a : Attached) (nowMs : UInt64) :
    c.attach a nowMs =
      match (c.bind a).queryStatuses [kBusyStatusId, kEncodingStatusId] nowMs with
      | (c, .ok f) =>
          ({ c with watch := c.watch ++ [.propertiesChanged a.device,
              .deviceRemoved a.device] }, .ok f)
      | (c, .error e) => (c, .error e) := rfl

theorem bind_frame (c : Camera) (a : Attached) :
    ∃ device writes notifies subs session port, c.bind a =
      { c with
        device := device, writes := writes, notifies := notifies, subs := subs
        session := session, port := port } := by
  unfold bind
  simp only
  split
  · obtain ⟨session, port, hcall⟩ := call_frame
      { c with device := a.device, writes := a.writes, notifies := a.notifies } _
    rw [hcall]
    exact ⟨a.device, a.writes, a.notifies, _, session, port, rfl⟩
  · exact ⟨a.device, a.writes, a.notifies, _, c.session, c.port, rfl⟩

@[simp] theorem bind_phase (c : Camera) (a : Attached) : (c.bind a).phase = c.phase := by
  obtain ⟨device, writes, notifies, subs, session, port, hframe⟩ := bind_frame c a
  rw [hframe]
  rfl

theorem attach_frame (c : Camera) (a : Attached) (nowMs : UInt64) :
    ∃ device writes notifies subs session port pending watch, (c.attach a nowMs).1 =
      { c with
        device := device, writes := writes, notifies := notifies, subs := subs
        session := session, port := port, pending := pending, watch := watch } := by
  obtain ⟨device, writes, notifies, subs, session, port, hbind⟩ := bind_frame c a
  obtain ⟨session', port', pending, hsend⟩ := send_frame (c.bind a) .query
    [0x13, kBusyStatusId, kEncodingStatusId] none nowMs
  rw [attach_eq, queryStatuses]
  rcases hresult : (c.bind a).send .query [0x13, kBusyStatusId, kEncodingStatusId] none
    nowMs with ⟨d, e | f⟩
  all_goals
    rw [hresult, hbind] at hsend
    obtain rfl : d = _ := hsend
    exact ⟨device, writes, notifies, subs, session', port', pending, _, rfl⟩

theorem attach_phase (c : Camera) (a : Attached) (nowMs : UInt64) :
    (c.attach a nowMs).1.phase = c.phase := by
  obtain ⟨_, _, _, _, _, _, _, _, hframe⟩ := attach_frame c a nowMs
  rw [hframe]
  rfl

/-- On a link that is not up the status query throws, and `_attach` with it. -/
theorem attach_of_not_up (h : c.state ≠ .up) (a : Attached) (nowMs : UInt64) :
    c.attach a nowMs = (c.bind a, .error (c.bind a).notUp) := by
  have hstate : (c.bind a).state ≠ .up := by
    have hphase : (c.bind a).state = c.state := congrArg Phase.state (bind_phase c a)
    rwa [hphase]
  rw [attach_eq, queryStatuses, send_of_not_up hstate]

theorem onEvent_frame (c : Camera) (origin : SessionEvent) (ev : BleEvent) :
    ∃ pending, (c.onEvent origin ev).1 = { c with pending := pending } := by
  cases ev with
  | writeRequest channel bytes =>
      simp only [onEvent]
      split <;> exact ⟨c.pending, rfl⟩
  | response r =>
      simp only [onEvent]
      split
      · exact ⟨_, rfl⟩
      · exact ⟨c.pending, rfl⟩
  | _ => exact ⟨c.pending, rfl⟩

theorem onEvent_phase (c : Camera) (origin : SessionEvent) (ev : BleEvent) :
    (c.onEvent origin ev).1.phase = c.phase := by
  obtain ⟨pending, hframe⟩ := onEvent_frame c origin ev
  rw [hframe]
  rfl

/-! ## What moves it -/

theorem unwatched_frame (c : Camera) :
    ∃ writes notifies session port stage, (∀ rest, stage ≠ .closingStreams rest) ∧
      c.unwatched =
        { c with
          writes := writes, notifies := notifies, session := session, port := port
          watch := [], closing := some stage } := by
  obtain ⟨session, port, hcall⟩ := call_frame { c with watch := [] } c.session.onDisconnect
  unfold unwatched
  simp only [hcall]
  split
  · exact ⟨∅, ∅, session, port, .draining, by simp, rfl⟩
  · exact ⟨c.writes, c.notifies, session, port, .detaching, by simp, rfl⟩

theorem unwatched_phase (c : Camera) :
    ∃ stage, c.unwatched.phase = { c.phase with closing := some stage } := by
  obtain ⟨writes, notifies, session, port, stage, -, hframe⟩ := unwatched_frame c
  rw [hframe]
  exact ⟨stage, rfl⟩

/-- `close` on a camera that is not down. -/
theorem close_eq (h : c.state ≠ .down) :
    c.close.1 =
      if c.watch = [] then unwatched { c with state := .down, ticker := false }
      else { c with state := .down, ticker := false, closing := some .unwatching } := by
  unfold close setState
  rw [if_neg h, if_neg h]
  simp only
  split <;> rfl

/-- It takes it down. -/
theorem close_frame (h : c.state ≠ .down) :
    ∃ writes notifies session port watch stage, (∀ rest, stage ≠ .closingStreams rest) ∧
      c.close.1 =
        { c with
          writes := writes, notifies := notifies, session := session, port := port
          watch := watch, state := .down, ticker := false, closing := some stage } := by
  rw [close_eq h]
  split
  · obtain ⟨writes, notifies, session, port, stage, hstage, hframe⟩ :=
      unwatched_frame { c with state := .down, ticker := false }
    exact ⟨writes, notifies, session, port, [], stage, hstage, hframe⟩
  · exact ⟨c.writes, c.notifies, c.session, c.port, c.watch, .unwatching, by simp, rfl⟩

theorem close_phase (h : c.state ≠ .down) :
    ∃ stage, c.close.1.phase = { c.phase with state := .down, closing := some stage } := by
  obtain ⟨writes, notifies, session, port, watch, stage, -, hframe⟩ := close_frame h
  rw [hframe]
  exact ⟨stage, rfl⟩

theorem close_of_down (h : c.state = .down) : c.close = (c, []) := if_pos h

theorem close_moves (c : Camera) : Moves c.phase c.close.1.phase := by
  by_cases h : c.state = .down
  · rw [close_of_down h]
    exact .stay _
  · obtain ⟨stage, hphase⟩ := close_phase h
    rw [hphase]
    exact .shut c.phase c.dropping stage h (Or.inl rfl)

theorem giveUp_moves (c : Camera) (e : DartError) : Moves c.phase (c.giveUp e).1.phase := by
  let d : Camera := { c with dropping := none }
  have hgive : (c.giveUp e).1 = d.close.1 := rfl
  rw [hgive]
  by_cases h : c.state = .down
  · rw [close_of_down (c := d) h]
    exact .abandon c.phase h
  · obtain ⟨stage, hphase⟩ := close_phase (c := d) h
    rw [hphase]
    exact .shut c.phase none stage h (Or.inr rfl)

theorem giveUp_state (c : Camera) (e : DartError) : (c.giveUp e).1.state = .down := by
  let d : Camera := { c with dropping := none }
  have hgive : (c.giveUp e).1 = d.close.1 := rfl
  rw [hgive]
  by_cases h : d.state = .down
  · rw [close_of_down h]
    exact h
  · obtain ⟨stage, hphase⟩ := close_phase h
    exact congrArg Phase.state hphase

/-- The camera once a drop of its link is noticed. -/
def dropped (c : Camera) : Camera :=
  let d : Camera := { c with state := .reconnecting }
  { d.call d.session.onDisconnect with dropping := some .detaching }

theorem dropped_frame (c : Camera) :
    ∃ session port, c.dropped =
      { c with
        session := session, port := port, state := .reconnecting
        dropping := some .detaching } := by
  obtain ⟨session, port, hcall⟩ :=
    call_frame { c with state := .reconnecting } c.session.onDisconnect
  exact ⟨session, port, congrArg
    (fun d : Camera => { d with dropping := some DropStage.detaching }) hcall⟩

theorem dropped_phase (c : Camera) : c.dropped.phase =
    { c.phase with state := .reconnecting, dropping := some .detaching } := by
  obtain ⟨session, port, hframe⟩ := dropped_frame c
  rw [hframe]
  rfl

theorem onDrop_cases (c : Camera) (why : String) :
    (c.state ≠ .up ∧ c.onDrop why = (c, [])) ∨
    (c.state = .up ∧ c.reconnectTimeoutMs = 0 ∧ (c.onDrop why).1 = c.close.1) ∨
    (c.state = .up ∧ c.reconnectTimeoutMs ≠ 0 ∧ (c.onDrop why).1 = c.dropped) := by
  unfold onDrop
  split
  · next h => exact Or.inl ⟨h, rfl⟩
  · next h =>
    rw [not_not] at h
    right
    split
    · next hzero => exact Or.inl ⟨h, hzero, rfl⟩
    · next hzero =>
      refine Or.inr ⟨h, hzero, ?_⟩
      have hset : (c.setState .reconnecting).1 = { c with state := .reconnecting } := by
        simp [setState, h]
      simp only [hset]
      rfl

theorem onDrop_moves (c : Camera) (why : String) :
    Moves c.phase (c.onDrop why).1.phase := by
  rcases c.onDrop_cases why with ⟨-, h⟩ | ⟨-, -, h⟩ | ⟨hup, -, h⟩
  · rw [h]
    exact .stay _
  · rw [h]
    exact close_moves c
  · rw [h, dropped_phase]
    exact .drop _ hup

/-! ## A turn -/

theorem drained_frame (c : Camera) :
    ∃ session, c.drained.1 =
      { c with
        session := session, pending := ∅, destroyed := true, linkDestroyed := true
        port := [], closedStreams := .pushes :: c.closedStreams
        closing := some (.closingStreams [.readyChanges, .faults, .linkChanges]) } := by
  obtain ⟨session, port, hcall⟩ :=
    call_frame { c with pending := ∅ } c.session.onDisconnect
  exact ⟨session, congrArg (fun d : Camera =>
    { d with
      destroyed := true, linkDestroyed := true, port := []
      closedStreams := .pushes :: d.closedStreams
      closing := some (.closingStreams [.readyChanges, .faults, .linkChanges]) }) hcall⟩

theorem drained_phase (c : Camera) : ∃ rest, c.drained.1.phase =
    { c.phase with closing := some (.closingStreams rest), destroyed := true } := by
  obtain ⟨session, hframe⟩ := drained_frame c
  rw [hframe]
  exact ⟨[.readyChanges, .faults, .linkChanges], rfl⟩

/-- The ways a suspended `close` can go on. -/
theorem resumeClose_cases {ok : Bool} {c' : Camera} {evs : List CameraEvent}
    (h : c.resumeClose ok = some (c', evs)) :
    (c.closing = some .draining ∧ c' = c.drained.1 ∧ evs = c.drained.2) ∨
    (c.closing = some .unwatching ∧ c' = c.unwatched ∧ evs = []) ∨
    (c.closing = some .detaching ∧ evs = [] ∧ c' = { c with
      subs := [], writes := ∅, notifies := ∅, closing := some .draining }) ∨
    (c.closing = some .unwatching ∨ c.closing = some .detaching) ∧
      c' = { c with closing := none } ∧ evs = [] ∨
    ∃ streams closed closing, c.closing = some (.closingStreams streams) ∧
      (∀ stage, closing = some stage → ∃ rest, stage = .closingStreams rest) ∧
      c' = { c with closedStreams := closed, closing := closing } ∧ evs = [] := by
  unfold resumeClose at h
  rcases hclosing : c.closing with - | stage
  · simp [hclosing] at h
  · rw [hclosing] at h
    cases stage with
    | unwatching =>
        cases ok with
        | true =>
            obtain ⟨rfl, rfl⟩ := Prod.mk.inj (Option.some.inj h)
            exact Or.inr (Or.inl ⟨rfl, rfl, rfl⟩)
        | false =>
            obtain ⟨rfl, rfl⟩ := Prod.mk.inj (Option.some.inj h)
            exact Or.inr (Or.inr (Or.inr (Or.inl ⟨Or.inl rfl, rfl, rfl⟩)))
    | detaching =>
        cases ok with
        | true =>
            obtain ⟨rfl, rfl⟩ := Prod.mk.inj (Option.some.inj h)
            exact Or.inr (Or.inr (Or.inl ⟨rfl, rfl, rfl⟩))
        | false =>
            obtain ⟨rfl, rfl⟩ := Prod.mk.inj (Option.some.inj h)
            exact Or.inr (Or.inr (Or.inr (Or.inl ⟨Or.inr rfl, rfl, rfl⟩)))
    | draining =>
        have heq : c.drained = (c', evs) := Option.some.inj h
        exact Or.inl ⟨rfl, by rw [heq], by rw [heq]⟩
    | closingStreams streams =>
        cases streams with
        | nil =>
            obtain ⟨rfl, rfl⟩ := Prod.mk.inj (Option.some.inj h)
            exact Or.inr (Or.inr (Or.inr (Or.inr
              ⟨[], c.closedStreams, none, rfl, by simp, rfl, rfl⟩)))
        | cons stream rest =>
            obtain ⟨rfl, rfl⟩ := Prod.mk.inj (Option.some.inj h)
            exact Or.inr (Or.inr (Or.inr (Or.inr ⟨stream :: rest, _,
              some (.closingStreams rest), rfl, by simp, rfl, rfl⟩)))

theorem resumeClose_moves {ok : Bool} {c' : Camera} {evs : List CameraEvent}
    (h : c.resumeClose ok = some (c', evs)) : Moves c.phase c'.phase := by
  rcases resumeClose_cases h with ⟨hstage, rfl, -⟩ | ⟨hstage, rfl, -⟩ |
    ⟨hstage, -, rfl⟩ | ⟨hstage, rfl, -⟩ |
    ⟨streams, closed, closing, hstage, hclosing, rfl, -⟩
  · obtain ⟨rest, hphase⟩ := drained_phase c
    rw [hphase]
    exact .destroy _ rest hstage
  · obtain ⟨stage, hphase⟩ := unwatched_phase c
    rw [hphase]
    exact .shutting _ _ (by simp [phase, hstage]) (by simp [phase, hstage])
  · exact .shutting c.phase _ (by simp [phase, hstage]) (by simp [phase, hstage])
  · rcases hstage with hstage | hstage
    · exact .shutting c.phase none (by simp [phase, hstage]) (by simp [phase, hstage])
    · exact .shutting c.phase none (by simp [phase, hstage]) (by simp [phase, hstage])
  · exact .ending c.phase streams closing hstage hclosing

/-- Whether a turn begins with a notice that a link dropped. -/
def IsDrop : CameraOp → Prop
  | .tick connected _ => connected = false
  | .propertiesChanged _ mentionsConnected connected =>
      mentionsConnected = true ∧ connected = false
  | .deviceRemoved device objectPath => objectPath = device.objectPath
  | _ => False

/-- The ways a turn can go. -/
inductive Turns (c : Camera) : CameraOp → Camera → List CameraEvent → Prop
  | send (channel : Channel) (payload : List DartInt) (priority : Option Priority)
      (nowMs : UInt64) :
      Turns c (.send channel payload priority nowMs)
        (c.send channel payload priority nowMs).1
        [gave (c.send channel payload priority nowMs).2]
  | sendProtobuf (channel : Channel) (featureId actionId : DartInt)
      (message : List DartInt) (priority : Priority) (nowMs : UInt64) :
      Turns c (.sendProtobuf channel featureId actionId message priority nowMs)
        (c.sendProtobuf channel featureId actionId message priority nowMs).1
        [gave (c.sendProtobuf channel featureId actionId message priority nowMs).2]
  | close : Turns c .close c.close.1 c.close.2
  | fed (channel : Channel) (bytes : Bytes) (nowMs : UInt64) :
      Turns c (.notification channel bytes nowMs)
        (c.call (BleBindings.feed c.session channel bytes nowMs)) []
  | skipped (m : Posted) (port : List Posted) : c.port = m :: port →
      BleCodec.decode m.bytes = none → Turns c .deliver { c with port := port } []
  | heard (m : Posted) (port : List Posted) (ev : BleEvent) : c.port = m :: port →
      BleCodec.decode m.bytes = some ev →
      Turns c .deliver (onEvent { c with port := port } m.origin ev).1
        (onEvent { c with port := port } m.origin ev).2
  | ticked (connected : Bool) (nowMs : UInt64) :
      ¬(c.state = .up ∧ IsDrop (.tick connected nowMs)) →
      Turns c (.tick connected nowMs) (c.call (c.session.tick nowMs)) []
  | tickedDown (connected : Bool) (nowMs : UInt64) (why : String) :
      Turns c (.tick connected nowMs) ((c.call (c.session.tick nowMs)).onDrop why).1
        ((c.call (c.session.tick nowMs)).onDrop why).2
  /-- A notice that is not about this link. -/
  | ignored (op : CameraOp) : ¬IsDrop op → Turns c op c []
  | noticed (op : CameraOp) (why : String) : Turns c op (c.onDrop why).1 (c.onDrop why).2
  | detached : c.dropping = some .detaching →
      Turns c (.dropDetached true)
        (resolvePending { c with
          subs := [], writes := ∅, notifies := ∅, dropping := some .climbing }).1
        (resolvePending { c with
          subs := [], writes := ∅, notifies := ∅, dropping := some .climbing }).2
  | stalled : c.dropping = some .detaching →
      Turns c (.dropDetached false) { c with dropping := none } []
  | attached (a : Attached) (nowMs : UInt64) (d : Camera) (f : Completer) :
      c.dropping = some .climbing → c.attach a nowMs = (d, .ok f) →
      Turns c (.broughtUp (.ok a) nowMs) { d with dropping := some (.attaching none) }
        [.sent f]
  | refused (a : Attached) (nowMs : UInt64) (d : Camera) (e : DartError) :
      c.dropping = some .climbing → c.attach a nowMs = (d, .error e) →
      Turns c (.broughtUp (.ok a) nowMs)
        { d with dropping := some (.attaching (some e)) } []
  | gaveUp (op : CameraOp) (e : DartError) : c.dropping ≠ none →
      Turns c op (c.giveUp e).1 (c.giveUp e).2
  | finished : c.dropping = some (.attaching none) →
      Turns c .attachAwaited (setState { c with dropping := none } .up).1
        (setState { c with dropping := none } .up).2
  | closing (ok : Bool) (c' : Camera) (evs : List CameraEvent) :
      c.resumeClose ok = some (c', evs) → Turns c (.closeResumed ok) c' evs

theorem next_turns {op : CameraOp} {c' : Camera} {evs : List CameraEvent}
    (h : c.next op = some (c', evs)) : Turns c op c' evs := by
  cases op with
  | send channel payload priority nowMs =>
      simp only [next, Option.some.injEq, Prod.mk.injEq] at h
      obtain ⟨rfl, rfl⟩ := h
      exact .send channel payload priority nowMs
  | sendProtobuf channel featureId actionId message priority nowMs =>
      simp only [next, Option.some.injEq, Prod.mk.injEq] at h
      obtain ⟨rfl, rfl⟩ := h
      exact .sendProtobuf channel featureId actionId message priority nowMs
  | close =>
      obtain ⟨rfl, rfl⟩ := Prod.mk.inj (Option.some.inj h)
      exact .close
  | notification channel bytes nowMs =>
      simp only [next, Option.ite_none_right_eq_some, Option.some.injEq,
        Prod.mk.injEq] at h
      obtain ⟨-, rfl, rfl⟩ := h
      exact .fed channel bytes nowMs
  | deliver =>
      simp only [next] at h
      split at h
      · simp at h
      · next m port hport =>
        split at h
        · next hnone =>
          obtain ⟨rfl, rfl⟩ := Prod.mk.inj (Option.some.inj h)
          exact .skipped m port hport hnone
        · next ev hsome =>
          obtain ⟨rfl, rfl⟩ := Prod.mk.inj (Option.some.inj h)
          exact .heard m port ev hport hsome
  | tick connected nowMs =>
      simp only [next, Option.ite_none_right_eq_some] at h
      obtain ⟨-, h⟩ := h
      split at h
      · obtain ⟨rfl, rfl⟩ := Prod.mk.inj (Option.some.inj h)
        exact .tickedDown connected nowMs _
      · next hquiet =>
        have hstate : (c.call (c.session.tick nowMs)).state = c.state :=
          congrArg Phase.state (call_phase c _)
        obtain ⟨rfl, rfl⟩ := Prod.mk.inj (Option.some.inj h)
        rw [hstate] at hquiet
        exact .ticked connected nowMs hquiet
  | propertiesChanged device mentionsConnected connected =>
      simp only [next, Option.ite_none_right_eq_some] at h
      obtain ⟨-, h⟩ := h
      split at h
      · obtain ⟨rfl, rfl⟩ := Prod.mk.inj (Option.some.inj h)
        exact .noticed _ _
      · next hother =>
        obtain ⟨rfl, rfl⟩ := Prod.mk.inj (Option.some.inj h)
        exact .ignored _ hother
  | deviceRemoved device objectPath =>
      simp only [next, Option.ite_none_right_eq_some] at h
      obtain ⟨-, h⟩ := h
      split at h
      · obtain ⟨rfl, rfl⟩ := Prod.mk.inj (Option.some.inj h)
        exact .noticed _ _
      · next hother =>
        obtain ⟨rfl, rfl⟩ := Prod.mk.inj (Option.some.inj h)
        exact .ignored _ hother
  | dropDetached ok =>
      simp only [next, Option.ite_none_right_eq_some] at h
      obtain ⟨hstage, h⟩ := h
      cases ok with
      | true =>
          obtain ⟨rfl, rfl⟩ := Prod.mk.inj (Option.some.inj h)
          exact .detached hstage
      | false =>
          obtain ⟨rfl, rfl⟩ := Prod.mk.inj (Option.some.inj h)
          exact .stalled hstage
  | broughtUp result nowMs =>
      simp only [next, Option.ite_none_right_eq_some] at h
      obtain ⟨hstage, h⟩ := h
      cases result with
      | error e =>
          obtain ⟨rfl, rfl⟩ := Prod.mk.inj (Option.some.inj h)
          exact .gaveUp _ e (by simp [hstage])
      | ok a =>
          simp only at h
          rcases hattach : c.attach a nowMs with ⟨d, e | f⟩
          · rw [hattach] at h
            obtain ⟨rfl, rfl⟩ := Prod.mk.inj (Option.some.inj h)
            exact .refused a nowMs d e hstage hattach
          · rw [hattach] at h
            obtain ⟨rfl, rfl⟩ := Prod.mk.inj (Option.some.inj h)
            exact .attached a nowMs d f hstage hattach
  | attachAwaited =>
      simp only [next] at h
      split at h
      · next hstage =>
        obtain ⟨rfl, rfl⟩ := Prod.mk.inj (Option.some.inj h)
        exact .finished hstage
      · next e hstage =>
        obtain ⟨rfl, rfl⟩ := Prod.mk.inj (Option.some.inj h)
        exact .gaveUp _ e (by simp [hstage])
      · simp at h
  | closeResumed ok => exact .closing ok c' evs h

/-- The phase with another place to be suspended in. -/
theorem phase_dropping {d : Camera} (h : d.phase = c.phase) (stage : Option DropStage) :
    phase { d with dropping := stage } = { c.phase with dropping := stage } :=
  congrArg (fun p : Phase => { p with dropping := stage }) h

/-- Every turn moves the phase in one of these ways. -/
theorem next_moves {op : CameraOp} {c' : Camera} {evs : List CameraEvent}
    (h : c.next op = some (c', evs)) : Moves c.phase c'.phase := by
  cases next_turns h with
  | send channel payload priority nowMs =>
      rw [send_phase]
      exact .stay _
  | sendProtobuf channel featureId actionId message priority nowMs =>
      rw [sendProtobuf_phase]
      exact .stay _
  | close => exact close_moves c
  | fed channel bytes nowMs =>
      rw [call_phase]
      exact .stay _
  | skipped m port hport hnone => exact .stay _
  | heard m port ev hport hsome =>
      rw [onEvent_phase]
      exact .stay _
  | ticked connected nowMs hquiet =>
      rw [call_phase]
      exact .stay _
  | tickedDown connected nowMs why =>
      have hmove := onDrop_moves (c.call (c.session.tick nowMs)) why
      rwa [call_phase] at hmove
  | ignored op hother => exact .stay _
  | noticed op why => exact onDrop_moves c why
  | detached hstage => exact .climb c.phase hstage
  | stalled hstage => exact .stall c.phase hstage
  | attached a nowMs d f hstage hattach =>
      have hphase : d.phase = c.phase := by
        rw [← attach_phase c a nowMs, hattach]
      rw [phase_dropping hphase]
      refine .attach c.phase none hstage ?_
      intro hdown
      rw [attach_of_not_up hdown] at hattach
      simp at hattach
  | refused a nowMs d e hstage hattach =>
      have hphase : d.phase = c.phase := by
        rw [← attach_phase c a nowMs, hattach]
      rw [phase_dropping hphase]
      exact .attach c.phase (some e) hstage (by simp)
  | gaveUp op e hstage => exact giveUp_moves c e
  | finished hstage =>
      rw [setState_phase]
      exact .finish c.phase hstage
  | closing ok c' evs hresume => exact resumeClose_moves hresume

/-! ## What every run keeps -/

/-- The bodies are suspended only where the link state says so, and `_attach` has
always thrown where its `await` is pending. -/
structure Staged (p : Phase) : Prop where
  dropping : p.dropping ≠ none → p.state ≠ .up
  failed : p.dropping ≠ some (.attaching none)
  closing : p.closing ≠ none → p.state = .down
  destroyed : p.destroyed = true → p.state = .down
  ended : p.destroyed = true →
    ∀ stage, p.closing = some stage → ∃ rest, stage = .closingStreams rest

theorem Staged.moves {p p' : Phase} (h : Staged p) (hmove : Moves p p') : Staged p' := by
  cases hmove with
  | stay => exact h
  | drop hup =>
      refine ⟨by simp, by simp, ?_, ?_, h.ended⟩
      · intro hclosing
        simp [h.closing hclosing] at hup
      · intro hdestroyed
        simp [h.destroyed hdestroyed] at hup
  | shut dropping stage hstate hdropping =>
      refine ⟨by simp, ?_, by simp, by simp, ?_⟩
      · rcases hdropping with rfl | rfl
        · exact h.failed
        · simp
      · intro hdestroyed
        exact absurd (h.destroyed hdestroyed) hstate
  | abandon hdown => exact ⟨by simp, by simp, h.closing, h.destroyed, h.ended⟩
  | stall hstage => exact ⟨by simp, by simp, h.closing, h.destroyed, h.ended⟩
  | climb hstage =>
      exact ⟨fun _ => h.dropping (by simp [hstage]), by simp, h.closing, h.destroyed,
        h.ended⟩
  | attach failure hstage hfails =>
      have hnot := h.dropping (by simp [hstage])
      refine ⟨fun _ => hnot, ?_, h.closing, h.destroyed, h.ended⟩
      simpa using hfails hnot
  | finish hstage => exact absurd hstage h.failed
  | shutting closing hsome hbefore =>
      refine ⟨h.dropping, h.failed, fun _ => h.closing hsome, h.destroyed, ?_⟩
      intro hdestroyed
      obtain ⟨stage, hstage⟩ := Option.ne_none_iff_exists'.mp hsome
      obtain ⟨rest, rfl⟩ := h.ended hdestroyed stage hstage
      exact absurd hstage (hbefore rest)
  | destroy rest hstage =>
      have hdown := h.closing (by simp [hstage])
      exact ⟨h.dropping, h.failed, fun _ => hdown, fun _ => hdown, by simp⟩
  | ending streams closing hstage hclosing =>
      have hdown := h.closing (by simp [hstage])
      exact ⟨h.dropping, h.failed, fun _ => hdown, fun _ => hdown, fun _ => hclosing⟩

/-- A link that is not up comes up in no way. -/
theorem Staged.not_up {p p' : Phase} (h : Staged p) (hmove : Moves p p')
    (hstate : p.state ≠ .up) : p'.state ≠ .up := by
  cases hmove with
  | finish hstage => exact absurd hstage h.failed
  | drop hup => exact absurd hup hstate
  | shut => simp
  | _ => exact hstate

theorem connect_phase {cfg : SessionConfig} {reconnectTimeoutMs : Nat} {a : Attached}
    {nowMs : UInt64} (h : connect cfg reconnectTimeoutMs a nowMs = .ok c) :
    c.phase = ⟨.up, none, none, false⟩ := by
  let camera : Camera :=
    { device := a.device, session := .new cfg, reconnectTimeoutMs := reconnectTimeoutMs }
  have hphase : (camera.attach a nowMs).1.phase = camera.phase := attach_phase camera a nowMs
  unfold connect at h
  simp only at h
  split at h
  · next d f hattach =>
    obtain rfl := Except.ok.inj h
    rw [hattach] at hphase
    exact hphase
  · simp at h

theorem staged (h : lts.Reachable c) : Staged c.phase := by
  refine h.invariant (I := fun c => Staged c.phase) ?_ ?_
  · rintro c ⟨cfg, reconnectTimeoutMs, a, nowMs, hconnect⟩
    rw [connect_phase hconnect]
    exact ⟨by simp, by simp, by simp, by simp, by simp⟩
  · intro c label c' _ hstaged hstep
    exact hstaged.moves (next_moves hstep)

end Camera

end GoproNative
