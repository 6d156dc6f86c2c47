import GoproNative.Camera.Phases
import GoproNative.Session.Invariant

/-!
# The session inside a camera

Whatever a turn of the camera does to its session, it does by calls that a session's owner
can make.  So the session of a camera is in a state that a run of the session leads to,
and what holds of every session holds of it.
-/

namespace GoproNative

namespace BleSession

/-- Calls of its owner lead a session from one state to another. -/
def LeadsTo (s t : BleSession) : Prop := ∃ labels, lts.Run s labels t

variable {s t u : BleSession}

theorem LeadsTo.refl (s : BleSession) : s.LeadsTo s := ⟨[], .nil s⟩

theorem LeadsTo.trans (h : s.LeadsTo t) (h' : t.LeadsTo u) : s.LeadsTo u := by
  obtain ⟨labels, hrun⟩ := h
  obtain ⟨labels', hrun'⟩ := h'
  exact ⟨labels ++ labels', hrun.append hrun'⟩

theorem leadsTo_perform (s : BleSession) (op : SessionOp) :
    s.LeadsTo (s.perform op).session :=
  ⟨[(op, (s.perform op).events)], .single rfl⟩

/-! ## Through the bindings -/

theorem leadsTo_submit (s : BleSession) (channel : Channel) (payload : List DartInt)
    (priority : Priority) (nowMs : UInt64) :
    s.LeadsTo (BleBindings.submit s channel payload priority nowMs).session := by
  unfold BleBindings.submit
  simp only
  split
  · exact .refl s
  · exact s.leadsTo_perform (.submit channel _ priority nowMs)

theorem leadsTo_submitProtobuf (s : BleSession) (channel : Channel)
    (featureId actionId : DartInt) (message : List DartInt) (priority : Priority)
    (nowMs : UInt64) :
    s.LeadsTo (BleBindings.submitProtobuf s channel featureId actionId message priority
      nowMs).session := by
  unfold BleBindings.submitProtobuf
  simp only
  split
  · exact .refl s
  · exact s.leadsTo_perform (.submitProtobuf channel _ _ _ priority nowMs)

theorem leadsTo_feed (s : BleSession) (channel : Channel) (bytes : Bytes)
    (nowMs : UInt64) : s.LeadsTo (BleBindings.feed s channel bytes nowMs).session := by
  unfold BleBindings.feed
  simp only
  split
  · exact .refl s
  · exact s.leadsTo_perform (.feed channel _ nowMs)

end BleSession

namespace Camera

variable {c d : Camera}

/-! ## Through a turn -/

theorem call_leadsTo {t : Turn} (h : c.session.LeadsTo t.session) :
    c.session.LeadsTo (c.call t).session := by
  unfold call
  split
  · exact .refl _
  · exact h

theorem enter_leadsTo (id : DartInt) {submit : BleSession → Turn}
    (h : c.session.LeadsTo (submit c.session).session) (refusal : DartError) :
    c.session.LeadsTo (c.enter id submit refusal).1.session := by
  let d : Camera := { c with pending := c.pending.insert id ⟨c.session.submissions⟩ }
  have hcall : d.session.LeadsTo (d.call (submit d.session)).session := call_leadsTo h
  unfold enter
  simp only
  split
  · exact hcall
  · exact hcall

theorem send_leadsTo (c : Camera) (channel : Channel) (payload : List DartInt)
    (priority : Option Priority) (nowMs : UInt64) :
    c.session.LeadsTo (c.send channel payload priority nowMs).1.session := by
  unfold send
  split
  · exact .refl _
  · split
    · exact .refl _
    · simp only
      split
      · exact .refl _
      · exact enter_leadsTo _ (BleSession.leadsTo_submit _ _ _ _ _) _

theorem sendProtobuf_leadsTo (c : Camera) (channel : Channel)
    (featureId actionId : DartInt) (message : List DartInt) (priority : Priority)
    (nowMs : UInt64) :
    c.session.LeadsTo
      (c.sendProtobuf channel featureId actionId message priority nowMs).1.session := by
  unfold sendProtobuf
  split
  · exact .refl _
  · simp only
    split
    · exact .refl _
    · exact enter_leadsTo _ (BleSession.leadsTo_submitProtobuf _ _ _ _ _ _ _) _

theorem onDisconnect_leadsTo (c : Camera) :
    c.session.LeadsTo (c.call c.session.onDisconnect).session :=
  call_leadsTo (c.session.leadsTo_perform .onDisconnect)

theorem unwatched_leadsTo (c : Camera) : c.session.LeadsTo c.unwatched.session := by
  have hcall := onDisconnect_leadsTo { c with watch := [] }
  unfold unwatched
  simp only
  split
  · exact hcall
  · exact hcall

theorem close_leadsTo (c : Camera) : c.session.LeadsTo c.close.1.session := by
  by_cases hdown : c.state = .down
  · rw [close_of_down hdown]
    exact .refl _
  · rw [close_eq hdown]
    split
    · exact unwatched_leadsTo { c with state := .down, ticker := false }
    · exact .refl _

theorem dropped_leadsTo (c : Camera) : c.session.LeadsTo c.dropped.session :=
  onDisconnect_leadsTo { c with state := .reconnecting }

theorem onDrop_leadsTo (c : Camera) (why : String) :
    c.session.LeadsTo (c.onDrop why).1.session := by
  rcases c.onDrop_cases why with ⟨-, heq⟩ | ⟨-, -, heq⟩ | ⟨-, -, heq⟩
  · rw [heq]
    exact .refl _
  · rw [heq]
    exact close_leadsTo c
  · rw [heq]
    exact dropped_leadsTo c

theorem drained_leadsTo (c : Camera) : c.session.LeadsTo c.drained.1.session :=
  onDisconnect_leadsTo { c with pending := ∅ }

theorem resumeClose_leadsTo {ok : Bool} {evs : List CameraEvent}
    (h : c.resumeClose ok = some (d, evs)) : c.session.LeadsTo d.session := by
  rcases resumeClose_cases h with ⟨-, rfl, rfl⟩ | ⟨-, rfl, rfl⟩ | ⟨-, rfl, rfl⟩ |
    ⟨-, rfl, rfl⟩ | ⟨streams, closed, closing, -, -, rfl, rfl⟩
  · exact drained_leadsTo c
  · exact unwatched_leadsTo c
  · exact .refl _
  · exact .refl _
  · exact .refl _

theorem bind_leadsTo (c : Camera) (a : Attached) : c.session.LeadsTo (c.bind a).session := by
  let d : Camera :=
    { c with device := a.device, writes := a.writes, notifies := a.notifies }
  unfold bind
  simp only
  split
  · exact call_leadsTo (c := d) (c.session.leadsTo_perform (.setAttPayload _))
  · exact .refl _

theorem attach_leadsTo (c : Camera) (a : Attached) (nowMs : UInt64) :
    c.session.LeadsTo (c.attach a nowMs).1.session := by
  have hsent := (c.bind_leadsTo a).trans
    ((c.bind a).send_leadsTo .query [0x13, kBusyStatusId, kEncodingStatusId] none nowMs)
  rw [attach_eq, queryStatuses]
  split
  · next d f heq =>
    rw [heq] at hsent
    exact hsent
  · next d e heq =>
    rw [heq] at hsent
    exact hsent

theorem onEvent_session (c : Camera) (origin : SessionEvent) (ev : BleEvent) :
    (c.onEvent origin ev).1.session = c.session := by
  obtain ⟨pending, hframe⟩ := onEvent_frame c origin ev
  rw [hframe]

theorem setState_session (c : Camera) (next : CameraLink) :
    (c.setState next).1.session = c.session := by
  unfold setState
  split
  · rfl
  · rfl

theorem next_leadsTo {op : CameraOp} {evs : List CameraEvent}
    (h : c.next op = some (d, evs)) : c.session.LeadsTo d.session := by
  rcases next_turns h with ⟨channel, payload, priority, nowMs⟩ |
    ⟨channel, featureId, actionId, message, priority, nowMs⟩ | _ | ⟨channel, bytes, nowMs⟩ |
    ⟨m, port⟩ | ⟨m, port, ev⟩ | ⟨connected, nowMs⟩ | ⟨connected, nowMs, why⟩ | _ |
    ⟨op, why⟩ | _ | _ | ⟨a, nowMs, d, f, -, hattach⟩ | ⟨a, nowMs, d, e, -, hattach⟩ |
    ⟨op, e⟩ | _ | ⟨ok, d, evs, hresume⟩
  case send => exact c.send_leadsTo channel payload priority nowMs
  case sendProtobuf =>
    exact c.sendProtobuf_leadsTo channel featureId actionId message priority nowMs
  case close => exact c.close_leadsTo
  case fed => exact call_leadsTo (c.session.leadsTo_feed channel bytes nowMs)
  case skipped => exact .refl _
  case heard =>
    rw [onEvent_session]
    exact .refl _
  case ticked => exact call_leadsTo (c.session.leadsTo_perform (.tick nowMs))
  case tickedDown =>
    exact (call_leadsTo (c.session.leadsTo_perform (.tick nowMs))).trans
      (onDrop_leadsTo _ why)
  case ignored => exact .refl _
  case noticed => exact c.onDrop_leadsTo why
  case detached => exact .refl _
  case stalled => exact .refl _
  case attached =>
    have hled := c.attach_leadsTo a nowMs
    rw [hattach] at hled
    exact hled
  case refused =>
    have hled := c.attach_leadsTo a nowMs
    rw [hattach] at hled
    exact hled
  case gaveUp => exact close_leadsTo { c with dropping := none }
  case finished =>
    rw [setState_session]
    exact .refl _
  case closing => exact resumeClose_leadsTo hresume

/-! ## Through a run -/

theorem run_leadsTo {labels : List (CameraOp × List CameraEvent)}
    (hrun : lts.Run c labels d) : c.session.LeadsTo d.session := by
  refine hrun.invariant (I := fun e => c.session.LeadsTo e.session) (.refl _) ?_
  intro e label e' hled hstep
  exact hled.trans (next_leadsTo hstep)

theorem connect_leadsTo {cfg : SessionConfig} {reconnectTimeoutMs : Nat} {a : Attached}
    {nowMs : UInt64} (h : connect cfg reconnectTimeoutMs a nowMs = .ok c) :
    (BleSession.new cfg).LeadsTo c.session := by
  let camera : Camera :=
    { device := a.device, session := .new cfg, reconnectTimeoutMs := reconnectTimeoutMs }
  have hled : (BleSession.new cfg).LeadsTo (camera.attach a nowMs).1.session :=
    camera.attach_leadsTo a nowMs
  unfold connect at h
  simp only at h
  split at h
  · next d f hattach =>
    obtain rfl := Except.ok.inj h
    rw [hattach] at hled
    exact hled
  · simp at h

/-- The session of a camera is a session: a run of the camera is a run of its session, from
the one it was created with. -/
theorem session_run {cfg : SessionConfig} {reconnectTimeoutMs : Nat} {a : Attached}
    {nowMs : UInt64} {labels : List (CameraOp × List CameraEvent)}
    (h : connect cfg reconnectTimeoutMs a nowMs = .ok c) (hrun : lts.Run c labels d) :
    ∃ calls, BleSession.lts.Run (.new cfg) calls d.session :=
  (connect_leadsTo h).trans (run_leadsTo hrun)

end Camera

end GoproNative
