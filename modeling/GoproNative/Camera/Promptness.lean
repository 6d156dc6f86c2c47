import GoproNative.Camera.Futures
import GoproNative.Session.Promptness

/-!
# No future hangs

For every future in the table there is a command that is outstanding in the session, or a
report that is on its way.  The ticker ticks the session, and so nothing is outstanding for
long.
-/

namespace GoproNative

namespace CameraOp

/-- The time that a turn hands to the session. -/
def time? : CameraOp → Option UInt64
  | send _ _ _ nowMs => some nowMs
  | sendProtobuf _ _ _ _ _ nowMs => some nowMs
  | notification _ _ nowMs => some nowMs
  | tick _ nowMs => some nowMs
  | broughtUp _ nowMs => some nowMs
  | _ => none

def isTick : CameraOp → Bool
  | tick _ _ => true
  | _ => false

/-- What is sent begins with a byte, so that Dart and the session have one id for it. -/
def Addressed : CameraOp → Prop
  | send _ (b :: _) _ _ => b < 256
  | _ => True

theorem isTick_of_time {op : CameraOp} (h : op.time? = none) : op.isTick = false := by
  cases op with
  | tick connected nowMs => simp [time?] at h
  | _ => rfl

end CameraOp

namespace Camera

variable {c c' c'' d : Camera} {evs : List CameraEvent} {t? : Option UInt64}
  {labels : List (CameraOp × List CameraEvent)}

/-! ## What a turn does to the session -/

/-- Calls of the session that carry the time, if any, and are no ticks: what they report is
posted. -/
structure Works (t? : Option UInt64) (c c' : Camera) : Prop where
  destroyed : c'.destroyed = c.destroyed
  works : c.destroyed = false → ∃ evs,
    c.session.WorksTo t? { session := c'.session, events := evs } ∧
      c'.port = c.port ++ evs.flatMap SessionEvent.post

theorem works_of_eq (hdestroyed : c'.destroyed = c.destroyed)
    (hsession : c'.session = c.session) (hport : c'.port = c.port) : Works t? c c' := by
  refine ⟨hdestroyed, fun _ => ⟨[], ?_, ?_⟩⟩
  · exact BleSession.worksTo_idle (congrArg BleSession.queue hsession) rfl
  · rw [hport, List.flatMap_nil, List.append_nil]

theorem Works.trans (h : Works t? c c') (h' : Works t? c' c'') : Works t? c c'' := by
  refine ⟨h'.destroyed.trans h.destroyed, fun hlive => ?_⟩
  obtain ⟨evs, hworks, hport⟩ := h.works hlive
  obtain ⟨evs', hworks', hport'⟩ := h'.works (h.destroyed.trans hlive)
  refine ⟨evs ++ evs', hworks.trans hworks' rfl (reports_append evs evs'), ?_⟩
  rw [hport', hport, List.flatMap_append, List.append_assoc]

/-- Fields that the session does not see were changed before. -/
theorem Works.behind (h : Works t? d c') (hdestroyed : d.destroyed = c.destroyed)
    (hsession : d.session = c.session) (hport : d.port = c.port) : Works t? c c' :=
  (works_of_eq hdestroyed hsession hport).trans h

theorem Works.mono (h : Works none c c') (t? : Option UInt64) : Works t? c c' := by
  refine ⟨h.destroyed, fun hlive => ?_⟩
  obtain ⟨evs, hworks, hport⟩ := h.works hlive
  exact ⟨evs, hworks.mono t?, hport⟩

theorem works_call {t : Turn} (h : c.session.WorksTo t? t) : Works t? c (c.call t) := by
  by_cases hlive : c.destroyed = false
  · have hcall : c.call t = { c with
        session := t.session, port := c.port ++ t.events.flatMap SessionEvent.post } := by
      simp [call, hlive]
    rw [hcall]
    exact ⟨rfl, fun _ => ⟨t.events, h, rfl⟩⟩
  · rw [call_of_destroyed (by simpa using hlive)]
    exact works_of_eq rfl rfl rfl

theorem onDisconnect_works (c : Camera) : Works none c (c.call c.session.onDisconnect) :=
  works_call c.session.onDisconnect_worksTo

theorem unwatched_works (c : Camera) : Works none c c.unwatched := by
  have hcall := onDisconnect_works { c with watch := [] }
  have hworks : Works none c (call { c with watch := [] } c.session.onDisconnect) :=
    hcall.behind rfl rfl rfl
  rw [unwatched]
  simp only
  split
  · exact hworks.trans (works_of_eq rfl rfl rfl)
  · exact hworks.trans (works_of_eq rfl rfl rfl)

theorem close_works (c : Camera) : Works none c c.close.1 := by
  by_cases hdown : c.state = .down
  · rw [close_of_down hdown]
    exact works_of_eq rfl rfl rfl
  · rw [close_eq hdown]
    split
    · have hworks := unwatched_works { c with state := .down, ticker := false }
      exact hworks.behind rfl rfl rfl
    · exact works_of_eq rfl rfl rfl

theorem dropped_works (c : Camera) : Works none c c.dropped := by
  have hcall := onDisconnect_works { c with state := .reconnecting }
  have hworks : Works none c (call { c with state := .reconnecting } c.session.onDisconnect) :=
    hcall.behind rfl rfl rfl
  exact hworks.trans (works_of_eq rfl rfl rfl)

theorem onDrop_works (c : Camera) (why : String) : Works none c (c.onDrop why).1 := by
  rcases c.onDrop_cases why with ⟨-, heq⟩ | ⟨-, -, heq⟩ | ⟨-, -, heq⟩
  · rw [heq]
    exact works_of_eq rfl rfl rfl
  · rw [heq]
    exact close_works c
  · rw [heq]
    exact dropped_works c

theorem resumeClose_works {ok : Bool} (h : c.resumeClose ok = some (c', evs)) :
    c'.destroyed = true ∨ Works none c c' := by
  rcases resumeClose_cases h with ⟨-, rfl, -⟩ | ⟨-, rfl, -⟩ | ⟨-, -, rfl⟩ | ⟨-, rfl, -⟩ |
    ⟨_, _, _, -, -, rfl, -⟩
  · obtain ⟨_, hframe⟩ := drained_frame c
    exact Or.inl (by rw [hframe])
  · exact Or.inr (unwatched_works c)
  all_goals exact Or.inr (works_of_eq rfl rfl rfl)

theorem feed_worksTo (s : BleSession) (channel : Channel) (bytes : Bytes) (nowMs : UInt64) :
    s.WorksTo (some nowMs) (BleBindings.feed s channel bytes nowMs) := by
  unfold BleBindings.feed
  simp only
  split
  · exact BleSession.worksTo_idle rfl rfl
  · exact s.feed_worksTo channel _ nowMs

theorem enter_works (id : DartInt) {submit : BleSession → Turn}
    (h : c.session.WorksTo t? (submit c.session)) (refusal : DartError) :
    Works t? c (c.enter id submit refusal).1 := by
  have hcall : Works t? (c.entered id) ((c.entered id).call (submit c.session)) :=
    works_call h
  have hworks : Works t? c ((c.entered id).call (submit c.session)) :=
    hcall.behind rfl rfl rfl
  rw [enter_eq]
  split
  · exact hworks
  · exact hworks.trans (works_of_eq rfl rfl rfl)

theorem send_works (c : Camera) (channel : Channel) (payload : List DartInt)
    (priority : Option Priority) (nowMs : UInt64) :
    Works (some nowMs) c (c.send channel payload priority nowMs).1 := by
  unfold Camera.send
  split
  · exact works_of_eq rfl rfl rfl
  · rcases payload with _ | ⟨b, rest⟩
    · exact works_of_eq rfl rfl rfl
    · simp only
      split
      · exact works_of_eq rfl rfl rfl
      · apply enter_works
        rcases submit_cases c.session channel b rest
          (priority.getD (if channel = .query then .fastpass else .queued)) nowMs with
          hvoid | ⟨-, bytes, henqueue⟩
        · rw [hvoid]
          exact BleSession.worksTo_idle rfl rfl
        · rw [henqueue]
          exact c.session.enqueue_worksTo _ _ _ false nowMs

theorem sendProtobuf_works (c : Camera) (channel : Channel) (featureId actionId : DartInt)
    (message : List DartInt) (priority : Priority) (nowMs : UInt64) :
    Works (some nowMs) c
      (c.sendProtobuf channel featureId actionId message priority nowMs).1 := by
  unfold Camera.sendProtobuf
  split
  · exact works_of_eq rfl rfl rfl
  · simp only
    split
    · exact works_of_eq rfl rfl rfl
    · apply enter_works
      rw [BleBindings.submitProtobuf]
      split
      · exact BleSession.worksTo_idle rfl rfl
      · exact c.session.enqueue_worksTo _ _ _ false nowMs

theorem bind_works (c : Camera) (a : Attached) : Works none c (c.bind a) := by
  let d : Camera :=
    { c with device := a.device, writes := a.writes, notifies := a.notifies }
  have hcall : ∀ bytes, Works none d (d.call { session := d.session.setAttPayload bytes }) :=
    fun bytes => works_call (d.session.perform_worksTo (.setAttPayload bytes) rfl)
  have hframe : Works none c d := works_of_eq rfl rfl rfl
  unfold Camera.bind
  simp only
  split
  · exact (hframe.trans (hcall _)).trans (works_of_eq rfl rfl rfl)
  · exact works_of_eq rfl rfl rfl

theorem attach_works (c : Camera) (a : Attached) (nowMs : UInt64) :
    Works (some nowMs) c (c.attach a nowMs).1 := by
  have hsent := ((c.bind_works a).mono (some nowMs)).trans
    ((c.bind a).send_works .query [0x13, kBusyStatusId, kEncodingStatusId] none nowMs)
  rw [attach_eq, queryStatuses]
  split
  · next d f heq =>
    rw [heq] at hsent
    exact hsent.trans (works_of_eq rfl rfl rfl)
  · next d e heq =>
    rw [heq] at hsent
    exact hsent

/-- A message of the port is worked off; no future is left under the id of a response. -/
structure Delivers (c d : Camera) (m : Posted) : Prop where
  port : c.port = m :: d.port
  session : d.session = c.session
  destroyed : d.destroyed = c.destroyed
  answered : ∀ s outcome payload, m.origin = .response s outcome payload →
    d.pending.lookup s.id = none

theorem heard_delivers {m : Posted} {port : List Posted} {ev : BleEvent}
    (hport : c.port = m :: port) (hdecode : BleCodec.decode m.bytes = some ev) :
    Delivers c (onEvent { c with port := port } m.origin ev).1 m := by
  obtain ⟨pending, hframe⟩ := onEvent_frame { c with port := port } m.origin ev
  refine ⟨by rw [hframe]; exact hport, by rw [hframe], by rw [hframe], ?_⟩
  intro s outcome payload horigin
  obtain rfl := Option.some.inj (hdecode.symm.trans (Posted.decode_of_response horigin))
  simp only [onEvent]
  split
  · exact AList.lookup_erase _ _
  · next hnone => exact hnone

theorem skipped_delivers {m : Posted} {port : List Posted} (hport : c.port = m :: port)
    (hdecode : BleCodec.decode m.bytes = none) : Delivers c { c with port := port } m := by
  refine ⟨hport, rfl, rfl, ?_⟩
  intro s outcome payload horigin
  have hsome := Posted.decode_of_response horigin
  rw [hdecode] at hsome
  simp at hsome

/-- A turn destroys the handles, calls the session between two ticks, ticks it, or works off
a message. -/
inductive Turned (c : Camera) (op : CameraOp) (d : Camera) : Prop
  | destroyed (h : d.destroyed = true)
  | works (hop : op.isTick = false) (h : Works op.time? c d)
  | ticks (nowMs : UInt64) (hop : op.isTick = true) (htime : op.time? = some nowMs)
      (h : Works none (c.call (c.session.tick nowMs)) d)
  | delivers (m : Posted) (hop : op = .deliver) (h : Delivers c d m)

theorem next_turned {op : CameraOp} (h : c.next op = some (d, evs)) : Turned c op d := by
  by_cases htick : ∃ connected nowMs, op = .tick connected nowMs
  · obtain ⟨connected, nowMs, rfl⟩ := htick
    refine .ticks nowMs rfl rfl ?_
    rw [next, Option.ite_none_right_eq_some] at h
    obtain ⟨-, h⟩ := h
    simp only at h
    split at h
    · have hdrop := onDrop_works (c.call (c.session.tick nowMs))
        "the device is no longer connected"
      rwa [Option.some.inj h] at hdrop
    · obtain ⟨rfl, -⟩ := Prod.mk.inj (Option.some.inj h)
      exact works_of_eq rfl rfl rfl
  · have hop : op.isTick = false := by
      cases op with
      | tick connected nowMs => exact absurd ⟨connected, nowMs, rfl⟩ htick
      | _ => rfl
    cases next_turns h with
    | send channel payload priority nowMs =>
        exact .works hop (c.send_works channel payload priority nowMs)
    | sendProtobuf channel featureId actionId message priority nowMs =>
        exact .works hop
          (c.sendProtobuf_works channel featureId actionId message priority nowMs)
    | close => exact .works hop c.close_works
    | fed channel bytes nowMs =>
        exact .works hop (works_call (feed_worksTo c.session channel bytes nowMs))
    | skipped m port hport hdecode => exact .delivers m rfl (skipped_delivers hport hdecode)
    | heard m port ev hport hdecode => exact .delivers m rfl (heard_delivers hport hdecode)
    | ticked connected nowMs | tickedDown connected nowMs why => simp [CameraOp.isTick] at hop
    | ignored => exact .works hop (works_of_eq rfl rfl rfl)
    | noticed op why => exact .works hop ((c.onDrop_works why).mono _)
    | detached => exact .works hop (works_of_eq rfl rfl rfl)
    | stalled => exact .works hop (works_of_eq rfl rfl rfl)
    | attached a nowMs d f hstage hattach =>
        have hworks := c.attach_works a nowMs
        rw [hattach] at hworks
        exact .works hop (hworks.trans (works_of_eq rfl rfl rfl))
    | refused a nowMs d e hstage hattach =>
        have hworks := c.attach_works a nowMs
        rw [hattach] at hworks
        exact .works hop (hworks.trans (works_of_eq rfl rfl rfl))
    | gaveUp op e =>
        have hclose := close_works { c with dropping := none }
        have hgiveUp : Works none c (c.giveUp e).1 := hclose.behind rfl rfl rfl
        exact .works hop (hgiveUp.mono _)
    | finished =>
        refine .works hop ?_
        rw [setState]
        split
        · exact works_of_eq rfl rfl rfl
        · exact works_of_eq rfl rfl rfl
    | closing ok c' evs hresume =>
        rcases resumeClose_works hresume with hdestroyed | hworks
        · exact .destroyed hdestroyed
        · exact .works hop hworks

/-- Handles that are destroyed stay so. -/
theorem not_destroyed_of_next {op : CameraOp} (h : c.next op = some (d, evs))
    (hlive : d.destroyed = false) : c.destroyed = false := by
  cases next_turned h with
  | destroyed hdestroyed =>
      rw [hlive] at hdestroyed
      simp at hdestroyed
  | works hop hworks => exact hworks.destroyed.symm.trans hlive
  | ticks nowMs hop htime hworks =>
      obtain ⟨_, _, hframe⟩ := call_frame c (c.session.tick nowMs)
      have hcalled := hworks.destroyed.symm.trans hlive
      rw [hframe] at hcalled
      exact hcalled
  | delivers m hop hdelivers => exact hdelivers.destroyed.symm.trans hlive

/-! ## What stands behind a future -/

/-- The submission of a future is outstanding since the time given, or its report is on its
way. -/
def Tracked (c : Camera) (f : Completer) (id : DartInt) (t : UInt64) : Prop :=
  ∃ s : Submission, s.id = id ∧ s.number = f.number ∧
    ((s, t) ∈ c.session.queue.stamps ∨ ∃ r ∈ c.undelivered, r.submission = s)

theorem undelivered_append {posted : List SessionEvent}
    (hport : c'.port = c.port ++ posted.flatMap SessionEvent.post) :
    c'.undelivered = c.undelivered ++ reports posted := by
  rw [Camera.undelivered, hport, List.map_append, reports_append, reports_post]
  rfl

theorem Tracked.turn {f : Completer} {id : DartInt} {t : UInt64} (h : c.Tracked f id t)
    {evs : List SessionEvent}
    (hkeeps : c.session.Keeps { session := c'.session, events := evs })
    (hport : c'.port = c.port ++ evs.flatMap SessionEvent.post) : c'.Tracked f id t := by
  obtain ⟨s, hid, hnumber, hbehind⟩ := h
  refine ⟨s, hid, hnumber, ?_⟩
  rw [undelivered_append hport]
  rcases hbehind with hout | ⟨r, hr, hsubmission⟩
  · rcases hkeeps (s, t) hout with hkept | ⟨r, hr, hsubmission⟩
    · exact Or.inl hkept
    · exact Or.inr ⟨r, List.mem_append_right _ hr, hsubmission⟩
  · exact Or.inr ⟨r, List.mem_append_left _ hr, hsubmission⟩

theorem Tracked.works {f : Completer} {id : DartInt} {t : UInt64} (h : c.Tracked f id t)
    (hworks : Works t? c c') (hlive : c.destroyed = false) : c'.Tracked f id t := by
  obtain ⟨evs, hworked, hport⟩ := hworks.works hlive
  exact h.turn hworked.keeps hport

theorem Tracked.call {f : Completer} {id : DartInt} {t : UInt64} (h : c.Tracked f id t)
    {turn : Turn} (hkeeps : c.session.Keeps turn) (hlive : c.destroyed = false) :
    (c.call turn).Tracked f id t := by
  have hcall : c.call turn = { c with
      session := turn.session, port := c.port ++ turn.events.flatMap SessionEvent.post } := by
    simp [Camera.call, hlive]
  rw [hcall]
  exact h.turn hkeeps rfl

theorem Tracked.delivers {f : Completer} {id : DartInt} {t : UInt64} (h : c.Tracked f id t)
    {m : Posted} (hdelivers : Delivers c d m) (hf : d.pending.lookup id = some f) :
    d.Tracked f id t := by
  obtain ⟨s, rfl, hnumber, hbehind⟩ := h
  refine ⟨s, rfl, hnumber, ?_⟩
  rw [hdelivers.session]
  refine hbehind.imp_right ?_
  rintro ⟨r, hr, rfl⟩
  refine ⟨r, ?_, rfl⟩
  rw [undelivered_cons hdelivers.port] at hr
  refine (List.mem_append.mp hr).resolve_left ?_
  intro hown
  obtain ⟨ev, hev, hreport⟩ := List.mem_filterMap.mp hown
  obtain rfl := List.mem_singleton.mp hev
  cases horigin : m.origin with
  | response s outcome payload =>
      rw [horigin] at hreport
      obtain rfl := Option.some.inj hreport
      have hnone := hdelivers.answered s outcome payload horigin
      rw [hf] at hnone
      simp at hnone
  | _ =>
      rw [horigin] at hreport
      simp [SessionEvent.report?] at hreport

/-- A turn that keeps the handles loses track of no future that it keeps. -/
theorem Tracked.next {f : Completer} {id : DartInt} {t : UInt64} (h : c.Tracked f id t)
    {op : CameraOp} (hnext : c.next op = some (d, evs)) (hlive : d.destroyed = false)
    (hf : d.pending.lookup id = some f) : d.Tracked f id t := by
  cases next_turned hnext with
  | destroyed hdestroyed =>
      rw [hlive] at hdestroyed
      simp at hdestroyed
  | works hop hworks => exact h.works hworks (hworks.destroyed.symm.trans hlive)
  | ticks nowMs hop htime hworks =>
      exact (h.call (c.session.tick_keeps nowMs) (not_destroyed_of_next hnext hlive)).works
        hworks (hworks.destroyed.symm.trans hlive)
  | delivers m hop hdelivers => exact h.delivers hdelivers hf

/-! ## New futures -/

theorem correlationOf_byte (channel : Channel) {b : DartInt} (h : b < 256) :
    correlationOf channel b.toUInt8 = BleCodec.correlationOf channel b := by
  have hbyte : b.toUInt8.toUInt64 = b := by
    apply UInt64.toNat_inj.mp
    have hlt := UInt64.lt_iff_toNat_lt.mp h
    rw [UInt8.toNat_toUInt64, UInt64.toNat_toUInt8]
    exact Nat.mod_eq_of_lt hlt
  rw [correlationOf, hbyte]
  rfl

/-- The future is new, and is entered under an id that its submission is outstanding
under. -/
def Begins (c : Camera) (f : Completer) (nowMs : UInt64) (d : Camera) : Prop :=
  f = ⟨c.session.submissions⟩ ∧ ∃ id, c.EntersUnder d id ∧ d.Tracked f id nowMs

theorem enter_begins {own : CorrelationId} {submit : BleSession → Turn} {refusal : DartError}
    {f : Completer} {payload : Bytes} {priority : Priority} {nowMs : UInt64}
    (hlive : c.state = .up → c.destroyed = false) (hup : c.state = .up)
    (hnew : own ∉ c.pending)
    (hsubmit : submit c.session = c.session.enqueue own payload priority false nowMs)
    (h : c.enter own submit refusal = (c', .ok f)) : c.Begins f nowMs c' := by
  rcases enter_gives hlive hup hnew (Or.inr ⟨own, payload, priority, nowMs, hsubmit⟩) h with
    ⟨hok, -, -, henters⟩ | ⟨⟨e, herror⟩, -⟩
  · obtain rfl := Except.ok.inj hok
    refine ⟨rfl, own, henters, ?_⟩
    have hresult : (submit c.session).result = true := by
      by_contra hrefused
      rw [Camera.enter] at h
      simp [hrefused] at h
    have hentered : (c.entered own).destroyed = false := hlive hup
    have hfst : (c.enter own submit refusal).1 = c' := congrArg Prod.fst h
    rw [enter_eq, if_pos hresult] at hfst
    refine ⟨⟨own, c.session.submissions, false⟩, rfl, rfl, Or.inl ?_⟩
    rw [← hfst, call_session hentered, hsubmit]
    exact BleSession.enqueue_stamps (hsubmit ▸ hresult)
  · simp at herror

theorem send_begins {channel : Channel} {payload : List DartInt} {priority : Option Priority}
    {nowMs : UInt64} {f : Completer} (hlive : c.state = .up → c.destroyed = false)
    (hbyte : ∀ b rest, payload = b :: rest → b < 256)
    (h : c.send channel payload priority nowMs = (c', .ok f)) : c.Begins f nowMs c' := by
  unfold Camera.send at h
  split at h
  · simp at h
  · next hup =>
    rw [not_not] at hup
    rcases payload with _ | ⟨b, rest⟩
    · simp at h
    · simp only at h
      split at h
      · simp at h
      · next hnew =>
        have hown := correlationOf_byte channel (hbyte b rest rfl)
        rcases submit_cases c.session channel b rest
          (priority.getD (if channel = .query then .fastpass else .queued)) nowMs with
          hvoid | ⟨-, bytes, henqueue⟩
        · rw [Camera.enter] at h
          simp [hvoid] at h
        · rw [hown] at henqueue
          exact enter_begins hlive hup hnew henqueue h

theorem sendProtobuf_begins {channel : Channel} {featureId actionId : DartInt}
    {message : List DartInt} {priority : Priority} {nowMs : UInt64} {f : Completer}
    (hlive : c.state = .up → c.destroyed = false)
    (h : c.sendProtobuf channel featureId actionId message priority nowMs = (c', .ok f)) :
    c.Begins f nowMs c' := by
  unfold Camera.sendProtobuf at h
  split at h
  · simp at h
  · next hup =>
    rw [not_not] at hup
    simp only at h
    split at h
    · simp at h
    · next hnew =>
      by_cases hlen : int32 message.length < 0
      · rw [Camera.enter] at h
        simp [BleBindings.submitProtobuf, hlen] at h
      · exact enter_begins hlive hup hnew (if_neg hlen) h

theorem Begins.congr {d d' : Camera} {f : Completer} {nowMs : UInt64} (h : c.Begins f nowMs d)
    (hsubmissions : c'.session.submissions = c.session.submissions)
    (hpending : c'.pending = c.pending) (hpending' : d'.pending = d.pending)
    (hsession' : d'.session = d.session) (hport' : d'.port = d.port) :
    c'.Begins f nowMs d' := by
  obtain ⟨hf, id, ⟨hinsert, hlt⟩, s, hid, hnumber, hbehind⟩ := h
  refine ⟨?_, id, ⟨?_, ?_⟩, s, hid, hnumber, ?_⟩
  · rw [hsubmissions, hf]
  · rw [hpending', hpending, hsubmissions, hinsert]
  · rw [hsubmissions, hsession']
    exact hlt
  · rw [hsession', undelivered, hport']
    exact hbehind

theorem attach_begins {a : Attached} {nowMs : UInt64} {f : Completer}
    (hlive : c.state = .up → c.destroyed = false) (h : c.attach a nowMs = (c', .ok f)) :
    c.Begins f nowMs c' := by
  obtain ⟨hpending, -, -⟩ := c.bind_idle a
  have hphase := c.bind_phase a
  have hbound : (c.bind a).state = .up → (c.bind a).destroyed = false := by
    intro hup
    have hstate : (c.bind a).state = c.state := congrArg Phase.state hphase
    have hdestroyed : (c.bind a).destroyed = c.destroyed := congrArg Phase.destroyed hphase
    rw [hdestroyed]
    exact hlive (hstate.symm.trans hup)
  rw [attach_eq, queryStatuses] at h
  split at h
  · next d g heq =>
    obtain ⟨rfl, hok⟩ := Prod.mk.inj h
    obtain rfl := Except.ok.inj hok
    have hbegins : (c.bind a).Begins g nowMs d := by
      apply send_begins hbound _ heq
      intro b rest hpayload
      obtain ⟨rfl, -⟩ := List.cons.inj hpayload
      decide
    exact hbegins.congr (c.bind_submissions a).symm hpending.symm rfl rfl rfl
  · simp at h

theorem Silent.not_sent (h : Silent evs) (f : Completer) : .sent f ∉ evs := by
  intro hsent
  have hnone := (h _ hsent).1
  simp [CameraEvent.given] at hnone

theorem ok_of_gave {result : Except DartError Completer} {f : Completer}
    (h : .sent f ∈ [gave result]) : result = .ok f := by
  have hsent := List.mem_singleton.mp h
  cases result with
  | ok g => rw [CameraEvent.sent.inj hsent]
  | error e => simp [gave] at hsent

theorem next_begins {op : CameraOp} {f : Completer} {t : UInt64}
    (hlive : c.state = .up → c.destroyed = false) (hnext : c.next op = some (d, evs))
    (hsent : .sent f ∈ evs) (htime : op.time? = some t) (haddressed : op.Addressed) :
    c.Begins f t d := by
  cases next_turns hnext with
  | send channel payload priority nowMs =>
      obtain rfl := Option.some.inj htime
      refine send_begins hlive ?_ (Prod.ext rfl (ok_of_gave hsent))
      rintro b rest rfl
      exact haddressed
  | sendProtobuf channel featureId actionId message priority nowMs =>
      obtain rfl := Option.some.inj htime
      exact sendProtobuf_begins hlive (Prod.ext rfl (ok_of_gave hsent))
  | close => exact absurd hsent ((close_silent c).not_sent f)
  | heard m port ev hport hdecode =>
      simp [CameraOp.time?] at htime
  | tickedDown connected nowMs why => exact absurd hsent ((onDrop_silent _ why).not_sent f)
  | noticed op why => exact absurd hsent ((onDrop_silent c why).not_sent f)
  | attached a nowMs d g hstage hattach =>
      obtain rfl := Option.some.inj htime
      obtain rfl := CameraEvent.sent.inj (List.mem_singleton.mp hsent)
      exact (attach_begins hlive hattach).congr rfl rfl rfl rfl rfl
  | gaveUp op e => exact absurd hsent ((giveUp_silent c e).not_sent f)
  | detached | finished | closing => simp [CameraOp.time?] at htime
  | _ => simp at hsent

/-! ## Every run -/

/-- A future that a run began with, or that a turn of it gave, and the time. -/
def GivenAt (c₀ : Camera) (t₀ : UInt64) (labels : List (CameraOp × List CameraEvent))
    (f : Completer) (t : UInt64) : Prop :=
  (f ∈ c₀.held ∧ t = t₀) ∨
    ∃ op evs, (op, evs) ∈ labels ∧ .sent f ∈ evs ∧ op.time? = some t ∧ op.Addressed

theorem GivenAt.mem {c₀ : Camera} {t₀ t : UInt64} {f : Completer}
    (h : GivenAt c₀ t₀ labels f t) : f ∈ c₀.held + given labels := by
  rw [Multiset.mem_add]
  refine h.imp And.left ?_
  rintro ⟨op, evs, hlabel, hsent, -⟩
  rw [given, givenBy, Multiset.mem_coe, List.mem_filterMap]
  exact ⟨.sent f, List.mem_flatMap.mpr ⟨_, hlabel, hsent⟩, rfl⟩

/-- What is held at the end of a turn was held before, or is new. -/
theorem lookup_of_next {op : CameraOp} (hlive : c.state = .up → c.destroyed = false)
    (hnext : c.next op = some (d, evs)) {id : DartInt} {f : Completer}
    (hf : d.pending.lookup id = some f) :
    c.pending.lookup id = some f ∨ f = ⟨c.session.submissions⟩ := by
  rcases (next_files hlive hnext).1 with hkeeps | ⟨own, henters⟩
  · exact Or.inl (hkeeps id f hf)
  · exact (henters.lookup hf).symm.imp_right And.right

theorem Begins.tracked {f : Completer} {t : UInt64} (h : c.Begins f t d)
    (hnumbered : ∀ id g, c.pending.lookup id = some g → g.number < c.session.submissions)
    {id : DartInt} (hf : d.pending.lookup id = some f) : d.Tracked f id t := by
  obtain ⟨rfl, own, henters, htracked⟩ := h
  rcases henters.lookup hf with ⟨rfl, -⟩ | hold
  · exact htracked
  · exact absurd (hnumbered id _ hold) (Nat.lt_irrefl _)

theorem tracked_connect {cfg : SessionConfig} {reconnectTimeoutMs : Nat} {a : Attached}
    {t₀ : UInt64} (h : connect cfg reconnectTimeoutMs a t₀ = .ok c) {id : DartInt}
    {f : Completer} (hf : c.pending.lookup id = some f) : c.Tracked f id t₀ := by
  let camera : Camera :=
    { device := a.device, session := .new cfg, reconnectTimeoutMs := reconnectTimeoutMs }
  rw [connect] at h
  split at h
  · next d g hattach =>
    obtain rfl := Except.ok.inj h
    obtain ⟨rfl, own, henters, htracked⟩ := attach_begins (c := camera) (fun _ => rfl) hattach
    rcases henters.lookup hf with ⟨rfl, rfl⟩ | hold
    · exact htracked
    · have hnone : camera.pending.lookup id = none := AList.lookup_empty id
      rw [hnone] at hold
      simp at hold
  · simp at h

/-- Behind every future in the table there is its own submission. -/
theorem tracked {cfg : SessionConfig} {reconnectTimeoutMs : Nat} {a : Attached} {t₀ : UInt64}
    {c₀ : Camera} (hconnect : connect cfg reconnectTimeoutMs a t₀ = .ok c₀)
    (hrun : lts.Run c₀ labels c) (hlive : c.destroyed = false) {f : Completer} {t : UInt64}
    (hgiven : GivenAt c₀ t₀ labels f t) {id : DartInt} (hf : c.pending.lookup id = some f) :
    c.Tracked f id t := by
  have hstart : lts.start c₀ := ⟨_, _, _, _, hconnect⟩
  have hall : lts.Run c₀ labels c ∧ (c.destroyed = false → ∀ f t, GivenAt c₀ t₀ labels f t →
      ∀ id, c.pending.lookup id = some f → c.Tracked f id t) := by
    refine hrun.history (I := fun labels c => lts.Run c₀ labels c ∧ (c.destroyed = false →
      ∀ f t, GivenAt c₀ t₀ labels f t → ∀ id, c.pending.lookup id = some f →
        c.Tracked f id t)) ?_ ?_
    · refine ⟨.nil c₀, ?_⟩
      rintro - f t (⟨-, rfl⟩ | ⟨op, evs, hlabel, -⟩) id hf
      · exact tracked_connect hconnect hf
      · exact absurd hlabel List.not_mem_nil
    · rintro labels c ⟨op, evs⟩ d ⟨hbefore, hI⟩ hstep
      refine ⟨hbefore.snoc hstep, ?_⟩
      intro hlive f t hgiven id hf
      obtain ⟨hreach, -, hfiled⟩ := filed hstart hbefore
      obtain ⟨haccount, -⟩ := accounted hstart hbefore
      have hup := live_of_staged (staged hreach)
      -- A future that was given before has a smaller number than one that begins now.
      have hold : GivenAt c₀ t₀ labels f t → d.Tracked f id t := by
        intro hgiven
        have hlt := haccount.numbered f hgiven.mem
        rcases lookup_of_next hup hstep hf with hbefore | rfl
        · exact (hI (not_destroyed_of_next hstep hlive) f t hgiven id hbefore).next hstep hlive hf
        · exact absurd hlt (Nat.lt_irrefl _)
      rcases hgiven with hfirst | ⟨op', evs', hlabel, hsent, htime, haddressed⟩
      · exact hold (Or.inl hfirst)
      · rcases List.mem_append.mp hlabel with hlabel | hlabel
        · exact hold (Or.inr ⟨op', evs', hlabel, hsent, htime, haddressed⟩)
        · obtain ⟨rfl, rfl⟩ := Prod.mk.inj (List.mem_singleton.mp hlabel)
          exact (next_begins hup hstep hsent htime haddressed).tracked hfiled.numbered hf
  exact hall.2 hlive f t hgiven id hf

/-! ## Time -/

/-- The times of a run do not decrease, and none is later after the last tick, or the
beginning, than the slack: the ticker keeps firing. -/
def Paced (slack : Nat) : UInt64 → UInt64 → List CameraOp → Prop
  | _, _, [] => True
  | L, T, op :: rest =>
      match op.time? with
      | none => Paced slack L T rest
      | some t =>
          T ≤ t ∧ t.toNat ≤ L.toNat + slack ∧ Paced slack (if op.isTick then t else L) t rest

/-- The last time of a run. -/
def clock (T : UInt64) : List CameraOp → UInt64
  | [] => T
  | op :: rest => clock (op.time?.getD T) rest

/-- The queue of the session is in time, ticked last at `L` and called last at `T`. -/
structure InTime (opts : CommandQueueOptions) (slack : Nat) (L T : UInt64) (c : Camera) :
    Prop where
  opts : c.session.queue.opts = opts
  timely : c.session.queue.Timely slack L.toNat T
  last : L ≤ T
  soon : T.toNat ≤ L.toNat + slack

variable {opts : CommandQueueOptions} {slack : Nat} {L T : UInt64}

theorem InTime.works (h : c.InTime opts slack L T) (hworks : Works t? c d)
    (hlive : c.destroyed = false)
    (htime : ∀ t, t? = some t → T ≤ t ∧ t.toNat ≤ L.toNat + slack) :
    d.InTime opts slack L (t?.getD T) := by
  obtain ⟨evs, hworked, -⟩ := hworks.works hlive
  have hwithin : ∀ t, t? = some t → L.toNat ≤ t.toNat ∧ t.toNat ≤ L.toNat + slack ∧ T ≤ t := by
    intro t ht
    obtain ⟨hlast, hsoon⟩ := htime t ht
    exact ⟨UInt64.le_iff_toNat_le.mp (UInt64.le_trans h.last hlast), hsoon, hlast⟩
  refine ⟨hworked.opts.trans h.opts, hworked.timely h.timely hwithin, ?_, ?_⟩
  · cases t? with
    | none => exact h.last
    | some t => exact UInt64.le_trans h.last (htime t rfl).1
  · cases t? with
    | none => exact h.soon
    | some t => exact (htime t rfl).2

theorem InTime.tick (h : c.InTime opts slack L T) {nowMs : UInt64}
    (hdeadline : opts.queueTimeoutMs ≠ 0) (hlive : c.destroyed = false) (hnow : T ≤ nowMs) :
    (c.call (c.session.tick nowMs)).InTime opts slack nowMs nowMs := by
  have hsession := call_session hlive (c.session.tick nowMs)
  refine ⟨?_, ?_, UInt64.le_refl nowMs, Nat.le_add_right _ _⟩
  · rw [hsession, BleSession.tick_opts]
    exact h.opts
  · rw [hsession]
    exact BleSession.tick_timely h.timely hnow (h.opts.symm ▸ hdeadline)

theorem InTime.next (h : c.InTime opts slack L T) (hdeadline : opts.queueTimeoutMs ≠ 0)
    {op : CameraOp} (hnext : c.next op = some (d, evs)) (hlive : d.destroyed = false)
    (htime : ∀ t, op.time? = some t → T ≤ t ∧ t.toNat ≤ L.toNat + slack) :
    d.InTime opts slack (if op.isTick then op.time?.getD T else L) (op.time?.getD T) := by
  have hbefore := not_destroyed_of_next hnext hlive
  cases next_turned hnext with
  | destroyed hdestroyed =>
      rw [hlive] at hdestroyed
      simp at hdestroyed
  | works hop hworks =>
      rw [hop]
      exact h.works hworks hbefore htime
  | ticks nowMs hop ht hworks =>
      have hticked := h.tick hdeadline hbefore (htime nowMs ht).1
      have hcalled := hworks.destroyed.symm.trans hlive
      rw [hop, ht]
      exact hticked.works hworks hcalled (by simp)
  | delivers m hop hdelivers =>
      subst hop
      exact ⟨hdelivers.session ▸ h.opts, hdelivers.session ▸ h.timely, h.last, h.soon⟩

theorem inTime_run (hrun : lts.Run c labels d) (hdeadline : opts.queueTimeoutMs ≠ 0)
    (hpaced : Paced slack L T (labels.map Prod.fst))
    (h : c.destroyed = false → c.InTime opts slack L T) (hlive : d.destroyed = false) :
    ∃ L', d.InTime opts slack L' (clock T (labels.map Prod.fst)) := by
  induction hrun generalizing L T with
  | nil => exact ⟨L, h hlive⟩
  | @cons c c' d label labels hstep hrest ih =>
      obtain ⟨op, evs⟩ := label
      have hnext : c.next op = some (c', evs) := hstep
      rw [List.map_cons, Paced] at hpaced
      rw [List.map_cons, clock]
      rcases htime : op.time? with _ | t
      · rw [htime] at hpaced
        refine ih hpaced ?_ hlive
        intro hafter
        have hbetween := (h (not_destroyed_of_next hnext hafter)).next hdeadline hnext hafter
          (by simp [htime])
        rwa [htime, CameraOp.isTick_of_time htime] at hbetween
      · rw [htime] at hpaced
        obtain ⟨hlast, hsoon, hpaced⟩ := hpaced
        refine ih hpaced ?_ hlive
        intro hafter
        have hbetween := (h (not_destroyed_of_next hnext hafter)).next hdeadline hnext hafter
          (by
            intro t' ht'
            obtain rfl := Option.some.inj (htime.symm.trans ht')
            exact ⟨hlast, hsoon⟩)
        rwa [htime] at hbetween

theorem inTime_connect {cfg : SessionConfig} {reconnectTimeoutMs : Nat} {a : Attached}
    {t₀ : UInt64} (h : connect cfg reconnectTimeoutMs a t₀ = .ok c) :
    c.InTime cfg.queue slack t₀ t₀ := by
  let camera : Camera :=
    { device := a.device, session := .new cfg, reconnectTimeoutMs := reconnectTimeoutMs }
  have hnew : camera.InTime cfg.queue slack t₀ t₀ := by
    refine ⟨rfl, ⟨⟨?_, ?_, ?_⟩, ⟨?_, ?_⟩⟩, UInt64.le_refl t₀, Nat.le_add_right _ _⟩
    all_goals
      intro e he
      exact absurd he List.not_mem_nil
  rw [connect] at h
  split at h
  · next d f hattach =>
    obtain rfl := Except.ok.inj h
    have hworks := camera.attach_works a t₀
    rw [hattach] at hworks
    have hattached := hnew.works hworks rfl (by
      intro t ht
      obtain rfl := Option.some.inj ht
      exact ⟨UInt64.le_refl t₀, Nat.le_add_right _ _⟩)
    exact ⟨hattached.opts, hattached.timely, hattached.last, hattached.soon⟩
  · simp at h

/-- No future hangs.  In every run of a camera in which the ticker keeps firing, over drops
and reconnects, whatever the camera answers and whenever its gate is shut: a future that was
given longer ago than the two deadlines of the queue and twice the slack is completed, or
the message that completes it is in the port. -/
theorem no_future_hangs {cfg : SessionConfig} {reconnectTimeoutMs : Nat} {a : Attached}
    {t₀ : UInt64} {c₀ : Camera} (hconnect : connect cfg reconnectTimeoutMs a t₀ = .ok c₀)
    (hrun : lts.Run c₀ labels c) (hpaced : Paced slack t₀ t₀ (labels.map Prod.fst))
    (hdeadline : cfg.queue.queueTimeoutMs ≠ 0) {f : Completer} {t : UInt64}
    (hgiven : GivenAt c₀ t₀ labels f t)
    (hlong : t.toNat + cfg.queue.queueTimeoutMs.toNat + cfg.queue.writeTimeoutMs.toNat +
      2 * slack < (clock t₀ (labels.map Prod.fst)).toNat) :
    f ∈ completed labels ∨ ∃ m ∈ c.port, ∃ s outcome payload,
      m.origin = .response s outcome payload ∧ s.number = f.number ∧
        c.pending.lookup s.id = some f := by
  obtain ⟨haccount, hclosed⟩ := accounted ⟨_, _, _, _, hconnect⟩ hrun
  have hmem := hgiven.mem
  rw [haccount.balanced, Multiset.mem_add] at hmem
  refine hmem.imp_right ?_
  intro hheld
  have hlive : c.destroyed = false := by
    by_contra hdestroyed
    rw [hclosed (eq_true_of_ne_false hdestroyed)] at hheld
    exact Multiset.notMem_zero f hheld
  obtain ⟨id, hf⟩ := mem_held.mp hheld
  obtain ⟨s, rfl, hnumber, hbehind⟩ := tracked hconnect hrun hlive hgiven hf
  rcases hbehind with hout | ⟨r, hr, rfl⟩
  · exfalso
    obtain ⟨L, htime⟩ :=
      inTime_run hrun hdeadline hpaced (fun _ => inTime_connect hconnect) hlive
    have hrecent := htime.timely.recent htime.soon hout
    rw [htime.opts] at hrecent
    exact absurd hlong (Nat.not_lt.mpr hrecent)
  · obtain ⟨ev, hev, hreport⟩ := List.mem_filterMap.mp hr
    obtain ⟨m, hm, rfl⟩ := List.mem_map.mp hev
    cases horigin : m.origin with
    | response s outcome payload =>
        rw [horigin] at hreport
        obtain rfl := Option.some.inj hreport
        exact ⟨m, hm, s, outcome, payload, horigin, hnumber, hf⟩
    | _ =>
        rw [horigin] at hreport
        simp [SessionEvent.report?] at hreport

/-- A command that waits at a gate that never opens, on a camera that never answers. -/
theorem no_future_hangs_silent : ∃ c₀ c labels, lts.start c₀ ∧ lts.Run c₀ labels c ∧
    GivenAt c₀ 0 labels ⟨1⟩ 10 ∧
      (⟨1⟩ ∈ completed labels ∨ ∃ m ∈ c.port, ∃ s outcome payload,
        m.origin = .response s outcome payload ∧ s.number = 1 ∧
          c.pending.lookup s.id = some ⟨1⟩) := by
  let cfg : SessionConfig := { queue := ⟨50, 40⟩ }
  let ops : List CameraOp :=
    [.send .command [1, 1, 1] none 10, .tick true 120, .tick true 240, .tick true 360]
  obtain ⟨c₀, c, labels, hconnect, htrace, hfirst⟩ : ∃ c₀ c labels,
      connect cfg 300000 plainCamera 0 = .ok c₀ ∧
        Lts.trace next c₀ ops = some (c, labels) ∧
        labels.head? = some (.send .command [1, 1, 1] none 10, [.sent ⟨1⟩]) :=
    ⟨_, _, _, rfl, rfl, rfl⟩
  have hrun : lts.Run c₀ labels c := Lts.run_of_trace htrace
  have hops : labels.map Prod.fst = ops := Lts.trace_inputs htrace
  have hgiven : GivenAt c₀ 0 labels ⟨1⟩ 10 :=
    Or.inr ⟨_, _, List.mem_of_mem_head? hfirst, List.mem_cons_self, rfl,
      show (1 : UInt64) < 256 by decide⟩
  have hpaced : Paced 120 0 0 (labels.map Prod.fst) := by
    rw [hops]
    simp [Paced, ops, CameraOp.time?, CameraOp.isTick]
  have hlong : (10 : UInt64).toNat + cfg.queue.queueTimeoutMs.toNat +
      cfg.queue.writeTimeoutMs.toNat + 2 * 120 < (clock 0 (labels.map Prod.fst)).toNat := by
    rw [hops]
    decide
  exact ⟨c₀, c, labels, ⟨_, _, _, _, hconnect⟩, hrun, hgiven,
    no_future_hangs hconnect hrun hpaced (by decide) hgiven hlong⟩

end Camera

end GoproNative
