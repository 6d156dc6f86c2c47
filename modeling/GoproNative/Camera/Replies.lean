import GoproNative.Camera.Sessions
import GoproNative.Camera.Correlation
import GoproNative.Session.Routing

/-!
# What a reply begins with

A future of `sendProtobuf` stands in the table of the camera under a two-byte id, and the
session reports under such an id no message but one that begins with the two bytes of it.
So what the clients of the camera strip off a reply is there, and is the header of what they
asked for.
-/

namespace GoproNative

/-- A message that bears the id of a protobuf request begins with the header of its reply. -/
theorem header_of_matches {channel channel' : Channel} {message : Bytes}
    {featureId actionId : UInt8}
    (h : Matches channel message (correlationOfProtobuf channel' featureId actionId)) :
    ∃ rest, message = featureId :: protobufResponseAction actionId :: rest := by
  have hid : correlationOfProtobuf channel' featureId actionId =
    protobufCorrelationOfMessage channel' featureId (protobufResponseAction actionId) := rfl
  rw [hid] at h
  rcases h with hplain | ⟨b0, b1, rest, rfl, hwide⟩
  · rcases message with - | ⟨b, message⟩
    · exact absurd hplain.symm (correlationOf_ne_protobuf channel channel' 0 _ _)
    · exact absurd hplain.symm (correlationOf_ne_protobuf channel channel' b _ _)
  · obtain ⟨-, rfl, rfl⟩ := protobufCorrelation_inj.mp hwide
    exact ⟨rest, rfl⟩

/-- A reply that is reported bears the id it is reported under. -/
def SessionEvent.Labelled : SessionEvent → Prop
  | .response s .responded message => ∃ channel, Matches channel message s.id
  | _ => True

namespace BleSession

variable {s : BleSession}

theorem perform_labelled (hs : s.Sound) (op : SessionOp) :
    ∀ ev ∈ (s.perform op).events, ev.Labelled := by
  intro ev hev
  rcases ev with - | - | ⟨done, outcome, message⟩ | - | - | -
  case response =>
    cases outcome with
    | responded =>
        have hrouted : Routing.reply done message ∈ routings (s.perform op).events :=
          List.mem_filterMap.mpr ⟨_, hev, rfl⟩
        rw [perform_routings] at hrouted
        rcases hincoming : s.incoming op with - | ⟨channel, message'⟩
        · simp [hincoming] at hrouted
        · rcases hanswers : s.answers channel message' with - | e
          · simp [hincoming, hanswers] at hrouted
          · simp only [hincoming, hanswers, List.mem_singleton, Routing.reply.injEq] at hrouted
            obtain ⟨rfl, rfl⟩ := hrouted
            obtain ⟨hmem, hid⟩ := answers_eq_some hanswers
            have hown : e.done.id = e.id :=
              (hs.attributed e (List.mem_append_right _ hmem)).1
            refine ⟨channel, ?_⟩
            rw [hown, hid]
            exact (s.prefers_answeredId channel message).matches
    | _ => trivial
  all_goals trivial

theorem LeadsTo.reachable {t : BleSession} (h : s.LeadsTo t) (hs : lts.Reachable s) :
    lts.Reachable t := by
  obtain ⟨labels, hrun⟩ := h
  exact hs.run hrun

/-- Submissions are only ever counted up. -/
theorem LeadsTo.submissions {t : BleSession} (h : s.LeadsTo t) (hs : lts.Reachable s) :
    s.submissions ≤ t.submissions := by
  obtain ⟨_, calls, ⟨cfg, rfl⟩, hcalls⟩ := hs
  obtain ⟨labels, hrun⟩ := h
  have hbefore := (recorded_new cfg).run hcalls
  have hafter := hbefore.run hrun
  rw [hbefore.count, hafter.count]
  exact (List.sublist_append_left _ _).length_le

theorem submit_labelled (hs : s.Sound) (channel : Channel) (payload : List DartInt)
    (priority : Priority) (nowMs : UInt64) :
    ∀ ev ∈ (BleBindings.submit s channel payload priority nowMs).events, ev.Labelled := by
  rw [BleBindings.submit]
  split
  · simp
  · exact s.perform_labelled hs (.submit channel _ priority nowMs)

theorem submitProtobuf_labelled (hs : s.Sound) (channel : Channel)
    (featureId actionId : DartInt) (message : List DartInt) (priority : Priority)
    (nowMs : UInt64) :
    ∀ ev ∈ (BleBindings.submitProtobuf s channel featureId actionId message priority
      nowMs).events, ev.Labelled := by
  rw [BleBindings.submitProtobuf]
  split
  · simp
  · exact s.perform_labelled hs (.submitProtobuf channel _ _ _ priority nowMs)

theorem feed_labelled (hs : s.Sound) (channel : Channel) (bytes : Bytes) (nowMs : UInt64) :
    ∀ ev ∈ (BleBindings.feed s channel bytes nowMs).events, ev.Labelled := by
  rw [BleBindings.feed]
  split
  · simp
  · exact s.perform_labelled hs (.feed channel _ nowMs)

end BleSession

namespace Camera

variable {c d c' : Camera}

/-! ## What is on the port -/

/-- The session is one that a run leads to, and what it posted bears its id. -/
structure Posts (c : Camera) : Prop where
  reach : BleSession.lts.Reachable c.session
  labelled : ∀ m ∈ c.port, m.origin.Labelled

theorem Posts.sound (h : c.Posts) : c.session.Sound := BleSession.sound h.reach

theorem Posts.congr (h : c.Posts) (hsession : d.session = c.session) (hport : d.port = c.port) :
    d.Posts :=
  ⟨hsession ▸ h.reach, hport ▸ h.labelled⟩

theorem Posts.call (h : c.Posts) {t : Turn} (hled : c.session.LeadsTo t.session)
    (ht : ∀ ev ∈ t.events, ev.Labelled) : (c.call t).Posts := by
  rw [Camera.call]
  split
  · exact h
  · refine ⟨hled.reachable h.reach, ?_⟩
    intro m hm
    rcases List.mem_append.mp hm with hold | hnew
    · exact h.labelled m hold
    · obtain ⟨ev, hev, hmem⟩ := List.mem_flatMap.mp hnew
      obtain ⟨bytes, -, rfl⟩ := List.mem_map.mp hmem
      exact ht ev hev

theorem Posts.perform (h : c.Posts) (op : SessionOp) : (c.call (c.session.perform op)).Posts :=
  h.call (c.session.leadsTo_perform op) (c.session.perform_labelled h.sound op)

theorem Posts.enter (h : c.Posts) (id : DartInt) {submit : BleSession → Turn}
    (hled : c.session.LeadsTo (submit c.session).session)
    (ht : ∀ ev ∈ (submit c.session).events, ev.Labelled) (refusal : DartError) :
    (c.enter id submit refusal).1.Posts := by
  have hentered : (c.entered id).Posts := h.congr rfl rfl
  have hcall := hentered.call hled ht
  rw [enter_eq]
  split
  · exact hcall
  · exact hcall.congr rfl rfl

theorem Posts.send (h : c.Posts) (channel : Channel) (payload : List DartInt)
    (priority : Option Priority) (nowMs : UInt64) :
    (c.send channel payload priority nowMs).1.Posts := by
  unfold Camera.send
  split
  · exact h
  · split
    · exact h
    · simp only
      split
      · exact h
      · exact h.enter _ (BleSession.leadsTo_submit _ _ _ _ _)
          (BleSession.submit_labelled h.sound _ _ _ _) _

theorem Posts.sendProtobuf (h : c.Posts) (channel : Channel) (featureId actionId : DartInt)
    (message : List DartInt) (priority : Priority) (nowMs : UInt64) :
    (c.sendProtobuf channel featureId actionId message priority nowMs).1.Posts := by
  unfold Camera.sendProtobuf
  split
  · exact h
  · simp only
    split
    · exact h
    · exact h.enter _ (BleSession.leadsTo_submitProtobuf _ _ _ _ _ _ _)
        (BleSession.submitProtobuf_labelled h.sound _ _ _ _ _ _) _

theorem Posts.unwatched (h : c.Posts) : c.unwatched.Posts := by
  have hcall := Posts.perform (c := { c with watch := [] }) (h.congr rfl rfl) .onDisconnect
  rw [Camera.unwatched]
  simp only
  split
  · exact hcall.congr rfl rfl
  · exact hcall.congr rfl rfl

theorem Posts.close (h : c.Posts) : c.close.1.Posts := by
  by_cases hdown : c.state = .down
  · rw [close_of_down hdown]
    exact h
  · rw [close_eq hdown]
    split
    · exact Posts.unwatched (c := { c with state := .down, ticker := false }) (h.congr rfl rfl)
    · exact h.congr rfl rfl

theorem Posts.onDrop (h : c.Posts) (why : String) : (c.onDrop why).1.Posts := by
  rcases c.onDrop_cases why with ⟨-, heq⟩ | ⟨-, -, heq⟩ | ⟨-, -, heq⟩
  · rw [heq]
    exact h
  · rw [heq]
    exact h.close
  · rw [heq]
    have hcall := Posts.perform (c := { c with state := .reconnecting }) (h.congr rfl rfl)
      .onDisconnect
    exact hcall.congr rfl rfl

theorem Posts.resumeClose (h : c.Posts) {ok : Bool} {evs : List CameraEvent}
    (hresume : c.resumeClose ok = some (d, evs)) : d.Posts := by
  rcases resumeClose_cases hresume with ⟨-, rfl, rfl⟩ | ⟨-, rfl, rfl⟩ | ⟨-, rfl, rfl⟩ |
    ⟨-, rfl, rfl⟩ | ⟨streams, closed, closing, -, -, rfl, rfl⟩
  · exact ⟨c.drained_leadsTo.reachable h.reach, by simp [drained]⟩
  · exact h.unwatched
  all_goals exact h.congr rfl rfl

theorem Posts.bind (h : c.Posts) (a : Attached) : (c.bind a).Posts := by
  rw [Camera.bind]
  simp only
  split
  · refine Posts.congr (Posts.call
      (c := { c with device := a.device, writes := a.writes, notifies := a.notifies })
      (h.congr rfl rfl) (c.session.leadsTo_perform (.setAttPayload _))
      (c.session.perform_labelled h.sound (.setAttPayload _))) rfl rfl
  · exact h.congr rfl rfl

theorem Posts.attach (h : c.Posts) (a : Attached) (nowMs : UInt64) :
    (c.attach a nowMs).1.Posts := by
  have hsent := (h.bind a).send .query [0x13, kBusyStatusId, kEncodingStatusId] none nowMs
  rw [attach_eq, queryStatuses]
  split
  · next d f heq =>
    rw [heq] at hsent
    exact hsent.congr rfl rfl
  · next d e heq =>
    rw [heq] at hsent
    exact hsent

theorem Posts.next (h : c.Posts) {op : CameraOp} {evs : List CameraEvent}
    (hnext : c.next op = some (c', evs)) : c'.Posts := by
  cases next_turns hnext with
  | send channel payload priority nowMs => exact h.send channel payload priority nowMs
  | sendProtobuf channel featureId actionId message priority nowMs =>
      exact h.sendProtobuf channel featureId actionId message priority nowMs
  | close => exact h.close
  | fed channel bytes nowMs =>
      exact h.call (c.session.leadsTo_feed channel bytes nowMs)
        (BleSession.feed_labelled h.sound channel bytes nowMs)
  | skipped m port hport =>
      exact ⟨h.reach, fun m' hm' => h.labelled m' (by rw [hport]; exact List.mem_cons_of_mem _ hm')⟩
  | heard m port ev hport =>
      obtain ⟨pending, hframe⟩ := onEvent_frame { c with port := port } m.origin ev
      rw [hframe]
      exact ⟨h.reach, fun m' hm' => h.labelled m' (by rw [hport]; exact List.mem_cons_of_mem _ hm')⟩
  | ticked connected nowMs => exact h.perform (.tick nowMs)
  | tickedDown connected nowMs why => exact (h.perform (.tick nowMs)).onDrop why
  | ignored => exact h
  | noticed op why => exact h.onDrop why
  | detached => exact h.congr rfl rfl
  | stalled => exact h.congr rfl rfl
  | attached a nowMs d f hstage hattach =>
      have hposts := h.attach a nowMs
      rw [hattach] at hposts
      exact hposts.congr rfl rfl
  | refused a nowMs d e hstage hattach =>
      have hposts := h.attach a nowMs
      rw [hattach] at hposts
      exact hposts.congr rfl rfl
  | gaveUp op e => exact Posts.close (c := { c with dropping := none }) (h.congr rfl rfl)
  | finished =>
      rw [setState]
      split
      · exact h.congr rfl rfl
      · exact h.congr rfl rfl
  | closing ok c' evs hresume => exact h.resumeClose hresume

/-! ## What is in the table -/

/-- The table has no future that it had not before. -/
def Keeps (c c' : Camera) : Prop :=
  ∀ id f, c'.pending.lookup id = some f → c.pending.lookup id = some f

/-- The table has one future more, of a new number. -/
def EntersUnder (c c' : Camera) (id : DartInt) : Prop :=
  c'.pending = c.pending.insert id ⟨c.session.submissions⟩ ∧
    c.session.submissions < c'.session.submissions

theorem keeps_of_eq (h : c'.pending = c.pending) : c.Keeps c' := by
  intro id f hf
  rwa [h] at hf

theorem keeps_of_empty (h : c'.pending = ∅) : c.Keeps c' := by
  intro id f hf
  simp [h] at hf

/-- What a call that may enter a future did: it gave the future out and entered it under an
id, or threw and left the table alone. -/
def Gives (c : Camera) (id : DartInt) (result : Except DartError Completer) (c' : Camera) :
    Prop :=
  (result = .ok ⟨c.session.submissions⟩ ∧ c.state = .up ∧ id ∉ c.pending ∧
      c.EntersUnder c' id) ∨
    ((∃ e, result = .error e) ∧ c'.pending = c.pending)

theorem Gives.files {id : DartInt} {result : Except DartError Completer}
    (h : c.Gives id result c') : c.Keeps c' ∨ ∃ id, c.EntersUnder c' id := by
  rcases h with ⟨-, -, -, henters⟩ | ⟨-, hsame⟩
  · exact Or.inr ⟨id, henters⟩
  · exact Or.inl (keeps_of_eq hsame)

theorem gives_error {id : DartInt} {e : DartError} {result : Except DartError Completer}
    (h : (c, .error e) = (c', result)) : c.Gives id result c' := by
  obtain ⟨rfl, rfl⟩ := Prod.mk.inj h
  exact Or.inr ⟨⟨e, rfl⟩, rfl⟩

theorem erase_insert {id : DartInt} {pending : DartMap DartInt Completer}
    (hnew : id ∉ pending) (f : Completer) : (pending.insert id f).erase id = pending := by
  apply AList.ext
  rw [AList.insert_of_notMem hnew]
  exact List.kerase_cons_eq rfl

theorem enter_gives {id : DartInt} {submit : BleSession → Turn} {refusal : DartError}
    {result : Except DartError Completer} (hlive : c.state = .up → c.destroyed = false)
    (hup : c.state = .up) (hnew : id ∉ c.pending)
    (hsubmit : submit c.session = { session := c.session, result := false } ∨
      ∃ own payload priority nowMs,
        submit c.session = c.session.enqueue own payload priority false nowMs)
    (h : c.enter id submit refusal = (c', result)) : c.Gives id result c' := by
  have hfst : (c.enter id submit refusal).1 = c' := congrArg Prod.fst h
  have hentered : (c.entered id).destroyed = false := hlive hup
  rw [enter_eq] at hfst
  by_cases hresult : (submit c.session).result = true
  · left
    rw [if_pos hresult] at hfst
    rcases hsubmit with hvoid | ⟨own, payload, priority, nowMs, henqueue⟩
    · rw [hvoid] at hresult
      simp at hresult
    · refine ⟨?_, hup, hnew, ?_, ?_⟩
      · rw [Camera.enter] at h
        simp only [hresult, if_true] at h
        exact (Prod.mk.inj h).2.symm
      · rw [← hfst, call_pending]
        rfl
      · rw [← hfst, call_session hentered, henqueue]
        exact Nat.lt_succ_self _
  · right
    rw [if_neg hresult] at hfst
    refine ⟨⟨refusal, ?_⟩, ?_⟩
    · rw [Camera.enter] at h
      simp only [hresult] at h
      exact (Prod.mk.inj h).2.symm
    · rw [← hfst]
      change ((c.entered id).call (submit c.session)).pending.erase id = c.pending
      rw [call_pending]
      exact erase_insert hnew _

theorem send_gives {channel : Channel} {payload : List DartInt} {priority : Option Priority}
    {nowMs : UInt64} {result : Except DartError Completer}
    (hlive : c.state = .up → c.destroyed = false)
    (h : c.send channel payload priority nowMs = (c', result)) :
    ∃ id, c.Gives id result c' := by
  unfold Camera.send at h
  split at h
  · exact ⟨0, gives_error h⟩
  · next hup =>
    rw [not_not] at hup
    rcases payload with - | ⟨b, rest⟩
    · exact ⟨0, gives_error h⟩
    · simp only at h
      split at h
      · exact ⟨0, gives_error h⟩
      · next hnew =>
        have hsubmit := submit_cases c.session channel b rest
          (priority.getD (if channel = .query then .fastpass else .queued)) nowMs
        exact ⟨_, enter_gives hlive hup hnew
          (hsubmit.imp_right fun ⟨_, bytes, heq⟩ => ⟨_, bytes, _, nowMs, heq⟩) h⟩

theorem sendProtobuf_gives {channel : Channel} {featureId actionId : DartInt}
    {message : List DartInt} {priority : Priority} {nowMs : UInt64}
    {result : Except DartError Completer} (hlive : c.state = .up → c.destroyed = false)
    (h : c.sendProtobuf channel featureId actionId message priority nowMs = (c', result)) :
    c.Gives (BleBindings.protobufCorrelation channel featureId actionId) result c' := by
  rw [Camera.sendProtobuf] at h
  split at h
  · exact gives_error h
  · next hup =>
    rw [not_not] at hup
    simp only at h
    split at h
    · exact gives_error h
    · next hnew =>
      have hsubmit : BleBindings.submitProtobuf c.session channel featureId actionId message
            priority nowMs = { session := c.session, result := false } ∨
          ∃ own payload priority' nowMs', BleBindings.submitProtobuf c.session channel featureId
            actionId message priority nowMs =
              c.session.enqueue own payload priority' false nowMs' := by
        rw [BleBindings.submitProtobuf]
        split
        · exact Or.inl rfl
        · exact Or.inr ⟨_, _, _, _, rfl⟩
      exact enter_gives hlive hup hnew hsubmit h

theorem bind_submissions (c : Camera) (a : Attached) :
    (c.bind a).session.submissions = c.session.submissions := by
  unfold Camera.bind Camera.call
  simp only [BleSession.setAttPayload_eq]
  split
  · split <;> rfl
  · rfl

theorem attach_gives {a : Attached} {nowMs : UInt64} {result : Except DartError Completer}
    (hlive : c.state = .up → c.destroyed = false) (h : c.attach a nowMs = (c', result)) :
    ∃ id, c.Gives id result c' := by
  obtain ⟨hpending, -, -⟩ := c.bind_idle a
  have hnumber := c.bind_submissions a
  have hphase := c.bind_phase a
  have hbound : (c.bind a).state = .up → (c.bind a).destroyed = false := by
    intro hup
    have hstate : (c.bind a).state = c.state := congrArg Phase.state hphase
    have hdestroyed : (c.bind a).destroyed = c.destroyed := congrArg Phase.destroyed hphase
    rw [hdestroyed]
    exact hlive (hstate.symm.trans hup)
  have hgives : ∀ {id : DartInt} {d : Camera}, (c.bind a).Gives id result d →
      c.Gives id result d := by
    have hstate : (c.bind a).state = c.state := congrArg Phase.state hphase
    intro id d hd
    rw [Gives, EntersUnder, hpending, hnumber, hstate] at hd
    exact hd
  rw [attach_eq, queryStatuses] at h
  split at h
  · next d f heq =>
    obtain ⟨rfl, rfl⟩ := Prod.mk.inj h
    obtain ⟨id, hid⟩ := send_gives hbound heq
    exact ⟨id, hgives hid⟩
  · next d e heq =>
    obtain ⟨rfl, rfl⟩ := Prod.mk.inj h
    obtain ⟨id, hid⟩ := send_gives hbound heq
    exact ⟨id, hgives hid⟩

theorem onEvent_keeps (c : Camera) (origin : SessionEvent) (ev : BleEvent) :
    c.Keeps (c.onEvent origin ev).1 := by
  intro id f hf
  cases ev with
  | writeRequest channel bytes =>
      simp only [onEvent] at hf
      split at hf <;> exact hf
  | response r =>
      simp only [onEvent] at hf
      split at hf
      · by_cases hid : id = r.correlationId
        · rw [hid, AList.lookup_erase] at hf
          simp at hf
        · rwa [AList.lookup_erase_ne hid] at hf
      · exact hf
  | _ => exact hf

theorem close_pending (c : Camera) : c.close.1.pending = c.pending := by
  by_cases h : c.state = .down
  · rw [close_of_down h]
  · obtain ⟨_, _, _, _, _, _, -, hframe⟩ := close_frame h
    rw [hframe]

theorem onDrop_pending (c : Camera) (why : String) : (c.onDrop why).1.pending = c.pending := by
  rcases c.onDrop_cases why with ⟨-, heq⟩ | ⟨-, -, heq⟩ | ⟨-, -, heq⟩
  · rw [heq]
  · rw [heq, close_pending]
  · obtain ⟨_, _, hframe⟩ := dropped_frame c
    rw [heq, hframe]

theorem resumeClose_keeps {ok : Bool} {evs : List CameraEvent}
    (h : c.resumeClose ok = some (c', evs)) : c.Keeps c' := by
  rcases resumeClose_cases h with ⟨-, rfl, -⟩ | ⟨-, rfl, -⟩ | ⟨-, -, rfl⟩ | ⟨-, rfl, -⟩ |
    ⟨_, _, _, -, -, rfl, -⟩
  · obtain ⟨_, hframe⟩ := drained_frame c
    exact keeps_of_empty (by rw [hframe])
  · obtain ⟨_, _, _, _, _, -, hframe⟩ := unwatched_frame c
    exact keeps_of_eq (by rw [hframe])
  all_goals exact keeps_of_eq rfl

/-- A turn enters no future, or one; a call of `sendProtobuf` enters it under the id of what
it asks for. -/
theorem next_files {op : CameraOp} {evs : List CameraEvent}
    (hlive : c.state = .up → c.destroyed = false) (h : c.next op = some (c', evs)) :
    (c.Keeps c' ∨ ∃ id, c.EntersUnder c' id) ∧
    ∀ channel featureId actionId message priority nowMs f,
      op = .sendProtobuf channel featureId actionId message priority nowMs →
      evs = [.sent f] → f = ⟨c.session.submissions⟩ ∧
        c.EntersUnder c' (BleBindings.protobufCorrelation channel featureId actionId) := by
  by_cases hop : ∃ channel featureId actionId message priority nowMs,
      op = .sendProtobuf channel featureId actionId message priority nowMs
  · obtain ⟨channel, featureId, actionId, message, priority, nowMs, rfl⟩ := hop
    obtain ⟨rfl, rfl⟩ := Prod.mk.inj (Option.some.inj h)
    have hgave : ∀ {result : Except DartError Completer} {f : Completer},
        [gave result] = [.sent f] → result = .ok f := by
      intro result f hsent
      cases result with
      | ok g => rw [CameraEvent.sent.inj (List.singleton_inj.mp hsent)]
      | error e => simp [gave] at hsent
    rcases sendProtobuf_gives hlive
      (Prod.mk.eta (p := c.sendProtobuf channel featureId actionId message priority nowMs)).symm
      with ⟨hok, -, -, henters⟩ | ⟨⟨e, herror⟩, hsame⟩
    · refine ⟨Or.inr ⟨_, henters⟩, ?_⟩
      rintro channel' featureId' actionId' message' priority' nowMs' f hop hsent
      obtain ⟨rfl, rfl, rfl, rfl, rfl, rfl⟩ := CameraOp.sendProtobuf.inj hop
      have hf := hok.symm.trans (hgave hsent)
      exact ⟨(Except.ok.inj hf).symm, henters⟩
    · refine ⟨Or.inl (keeps_of_eq hsame), ?_⟩
      rintro channel' featureId' actionId' message' priority' nowMs' f - hsent
      exact absurd (herror.symm.trans (hgave hsent)) (by simp)
  · refine ⟨?_, fun channel featureId actionId message priority nowMs f heq =>
      absurd ⟨channel, featureId, actionId, message, priority, nowMs, heq⟩ hop⟩
    cases next_turns h with
    | send channel payload priority nowMs =>
        obtain ⟨id, hgives⟩ := send_gives hlive
          (Prod.mk.eta (p := c.send channel payload priority nowMs)).symm
        exact hgives.files
    | sendProtobuf channel featureId actionId message priority nowMs =>
        exact absurd ⟨channel, featureId, actionId, message, priority, nowMs, rfl⟩ hop
    | close => exact Or.inl (keeps_of_eq c.close_pending)
    | fed channel bytes nowMs => exact Or.inl (keeps_of_eq (call_pending c _))
    | skipped => exact Or.inl (keeps_of_eq rfl)
    | heard m port ev => exact Or.inl (onEvent_keeps { c with port := port } m.origin ev)
    | ticked connected nowMs => exact Or.inl (keeps_of_eq (call_pending c _))
    | tickedDown connected nowMs why =>
        exact Or.inl (keeps_of_eq ((onDrop_pending _ why).trans (call_pending c _)))
    | ignored => exact Or.inl (keeps_of_eq rfl)
    | noticed op why => exact Or.inl (keeps_of_eq (onDrop_pending c why))
    | detached => exact Or.inl (keeps_of_empty rfl)
    | stalled => exact Or.inl (keeps_of_eq rfl)
    | attached a nowMs d f hstage hattach =>
        obtain ⟨id, hgives⟩ := attach_gives hlive hattach
        exact hgives.files
    | refused a nowMs d e hstage hattach =>
        obtain ⟨id, hgives⟩ := attach_gives hlive hattach
        exact hgives.files
    | gaveUp op e => exact Or.inl (keeps_of_eq (close_pending { c with dropping := none }))
    | finished =>
        left
        apply keeps_of_eq
        rw [setState]
        split <;> rfl
    | closing ok c' evs hresume => exact Or.inl (resumeClose_keeps hresume)

/-! ## Every run -/

/-- A call of `sendProtobuf` in a history that gave its caller a future. -/
def Asked (labels : List (CameraOp × List CameraEvent)) (channel : Channel)
    (featureId actionId : DartInt) (f : Completer) : Prop :=
  ∃ message priority nowMs,
    (CameraOp.sendProtobuf channel featureId actionId message priority nowMs, [.sent f]) ∈ labels

/-- Futures have numbers of their own, and one that was given for a protobuf request stands
nowhere but under its id. -/
structure Filed (labels : List (CameraOp × List CameraEvent)) (c : Camera) : Prop where
  numbered : ∀ id f, c.pending.lookup id = some f → f.number < c.session.submissions
  filed : ∀ {channel featureId actionId f}, Asked labels channel featureId actionId f →
    f.number < c.session.submissions ∧ ∀ id, c.pending.lookup id = some f →
      id = BleBindings.protobufCorrelation channel featureId actionId

theorem EntersUnder.lookup {id id' : DartInt} {f : Completer} (h : c.EntersUnder c' id)
    (hf : c'.pending.lookup id' = some f) :
    (id' = id ∧ f = ⟨c.session.submissions⟩) ∨ c.pending.lookup id' = some f := by
  rw [h.1] at hf
  by_cases hid : id' = id
  · subst hid
    rw [AList.lookup_insert] at hf
    exact Or.inl ⟨rfl, (Option.some.inj hf).symm⟩
  · rw [AList.lookup_insert_ne hid] at hf
    exact Or.inr hf

theorem Filed.next {labels : List (CameraOp × List CameraEvent)} (h : Filed labels c)
    (hlive : c.state = .up → c.destroyed = false) (hposts : c.Posts) {op : CameraOp}
    {evs : List CameraEvent} (hnext : c.next op = some (c', evs)) :
    Filed (labels ++ [(op, evs)]) c' := by
  have hle := (next_leadsTo hnext).submissions hposts.reach
  obtain ⟨hfiles, hown⟩ := next_files hlive hnext
  -- What stands in the table stood there before, or has the new number.
  have hlookup : ∀ id f, c'.pending.lookup id = some f → c.pending.lookup id = some f ∨
      (f = ⟨c.session.submissions⟩ ∧ c.session.submissions < c'.session.submissions) := by
    intro id f hf
    rcases hfiles with hkeeps | ⟨own, henters⟩
    · exact Or.inl (hkeeps id f hf)
    · exact (henters.lookup hf).symm.imp_right fun hnew => ⟨hnew.2, henters.2⟩
  refine ⟨fun id f hf => ?_, ?_⟩
  · rcases hlookup id f hf with hold | ⟨rfl, hlt⟩
    · exact Nat.lt_of_lt_of_le (h.numbered id f hold) hle
    · exact hlt
  · rintro channel featureId actionId f ⟨message, priority, nowMs, hmem⟩
    rcases List.mem_append.mp hmem with hold | hnew
    · obtain ⟨hlt, hfiled⟩ := h.filed ⟨message, priority, nowMs, hold⟩
      refine ⟨Nat.lt_of_lt_of_le hlt hle, fun id hf => ?_⟩
      rcases hlookup id f hf with hbefore | ⟨rfl, -⟩
      · exact hfiled id hbefore
      · exact absurd hlt (Nat.lt_irrefl _)
    · obtain ⟨hop, hevs⟩ := Prod.mk.inj (List.mem_singleton.mp hnew)
      obtain ⟨rfl, henters⟩ := hown channel featureId actionId message priority nowMs f hop.symm
        hevs.symm
      refine ⟨henters.2, fun id hf => ?_⟩
      rcases henters.lookup hf with ⟨hid, -⟩ | hbefore
      · exact hid
      · exact absurd (h.numbered id _ hbefore) (Nat.lt_irrefl _)

/-- A future is completed from the port by the message at its head, under the id that it
stands under. -/
theorem answered_of_next {op : CameraOp} {evs : List CameraEvent}
    (h : c.next op = some (c', evs)) {f : Completer} {r : BleResponse} {origin : SessionEvent}
    (hanswered : .answered f r origin ∈ evs) :
    ∃ m ∈ c.port, BleCodec.decode m.bytes = some (.response r) ∧
      c.pending.lookup r.correlationId = some f := by
  cases next_turns h with
  | heard m port ev hport hdecode =>
      refine ⟨m, by rw [hport]; exact List.mem_cons_self, ?_⟩
      cases ev with
      | writeRequest channel bytes =>
          simp only [onEvent] at hanswered
          split at hanswered <;> simp at hanswered
      | response r' =>
          simp only [onEvent] at hanswered
          split at hanswered
          · next g hlookup =>
            obtain ⟨rfl, rfl, -⟩ := CameraEvent.answered.inj (List.mem_singleton.mp hanswered)
            exact ⟨hdecode, hlookup⟩
          · simp at hanswered
      | _ =>
          simp only [onEvent, add] at hanswered
          split at hanswered <;> simp at hanswered
  | send channel payload priority nowMs =>
      rcases hgave : (c.send channel payload priority nowMs).2 with e | g <;>
        simp [hgave, gave] at hanswered
  | sendProtobuf channel featureId actionId message priority nowMs =>
      rcases hgave : (c.sendProtobuf channel featureId actionId message priority nowMs).2
        with e | g <;> simp [hgave, gave] at hanswered
  | close => exact absurd hanswered (close_unanswered c f r origin)
  | tickedDown connected nowMs why =>
      exact absurd hanswered (onDrop_unanswered _ why f r origin)
  | noticed op why => exact absurd hanswered (onDrop_unanswered c why f r origin)
  | detached => exact absurd hanswered (resolvePending_unanswered _ f r origin)
  | gaveUp op e => exact absurd hanswered (giveUp_unanswered c e f r origin)
  | finished => exact absurd hanswered (setState_unanswered _ .up f r origin)
  | closing ok c' evs hresume =>
      rcases resumeClose_cases hresume with ⟨-, -, rfl⟩ | ⟨-, -, rfl⟩ | ⟨-, rfl, -⟩ |
        ⟨-, -, rfl⟩ | ⟨_, _, _, -, -, -, rfl⟩
      · exact absurd hanswered (resolvePending_unanswered c f r origin)
      all_goals simp at hanswered
  | _ => simp at hanswered

theorem connect_posts {cfg : SessionConfig} {reconnectTimeoutMs : Nat} {a : Attached}
    {nowMs : UInt64} (h : connect cfg reconnectTimeoutMs a nowMs = .ok c) :
    c.Posts ∧ Filed [] c := by
  let camera : Camera :=
    { device := a.device, session := .new cfg, reconnectTimeoutMs := reconnectTimeoutMs }
  have hposts : camera.Posts := ⟨.of_start ⟨cfg, rfl⟩, by simp [camera]⟩
  have hattached := hposts.attach a nowMs
  have hempty : ∀ id f, camera.pending.lookup id ≠ some f := by
    intro id f
    rw [show camera.pending = ∅ from rfl, AList.lookup_empty]
    simp
  rw [connect] at h
  split at h
  · next d f hattach =>
    obtain rfl := Except.ok.inj h
    obtain ⟨own, hgives⟩ := attach_gives (c := camera) (fun _ => rfl) hattach
    have hfiles := hgives.files
    rw [hattach] at hattached
    refine ⟨hattached.congr rfl rfl, ?_, ?_⟩
    · intro id g hg
      rcases hfiles with hkeeps | ⟨own, henters⟩
      · exact absurd (hkeeps id g hg) (hempty id g)
      · rcases henters.lookup hg with ⟨-, rfl⟩ | hold
        · exact henters.2
        · exact absurd hold (hempty id g)
    · rintro channel featureId actionId g ⟨message, priority, nowMs', hmem⟩
      exact absurd hmem List.not_mem_nil
  · simp at h

theorem filed {c₀ : Camera} {labels : List (CameraOp × List CameraEvent)}
    (hstart : lts.start c₀) (hrun : lts.Run c₀ labels c) :
    lts.Reachable c ∧ c.Posts ∧ Filed labels c := by
  refine hrun.history (I := fun labels c => lts.Reachable c ∧ c.Posts ∧ Filed labels c) ?_ ?_
  · obtain ⟨cfg, reconnectTimeoutMs, a, nowMs, hconnect⟩ := hstart
    exact ⟨.of_start ⟨cfg, reconnectTimeoutMs, a, nowMs, hconnect⟩, connect_posts hconnect⟩
  · rintro labels c ⟨op, evs⟩ c' ⟨hreach, hposts, hfiled⟩ hstep
    have hlive : c.state = .up → c.destroyed = false := by
      intro hup
      by_contra hdestroyed
      have hdown := (staged hreach).destroyed (eq_true_of_ne_false hdestroyed)
      exact absurd (hup.symm.trans hdown) (by simp)
    exact ⟨hreach.step hstep, hposts.next hstep, hfiled.next hlive hposts hstep⟩

theorem header_of_answered {labels : List (CameraOp × List CameraEvent)} (hposts : c.Posts)
    (hfiled : Filed labels c) {channel : Channel} {featureId actionId : DartInt}
    {f : Completer} (hasked : Asked labels channel featureId actionId f) {op : CameraOp}
    {evs : List CameraEvent} (hnext : c.next op = some (c', evs)) {r : BleResponse}
    {origin : SessionEvent} (hanswered : .answered f r origin ∈ evs)
    (hresponded : r.outcome = .responded) :
    ∃ rest, r.payload =
      featureId.toUInt8 :: protobufResponseAction actionId.toUInt8 :: rest := by
  obtain ⟨m, hm, hdecode, hlookup⟩ := answered_of_next hnext hanswered
  obtain ⟨s, outcome, payload, horigin, rfl⟩ := Posted.origin_of_response hdecode
  obtain rfl : outcome = .responded := hresponded
  have hlabelled := hposts.labelled m hm
  rw [horigin] at hlabelled
  obtain ⟨channel', hmatches⟩ := hlabelled
  have hid : s.id = correlationOfProtobuf channel featureId.toUInt8 actionId.toUInt8 :=
    (hfiled.filed hasked).2 _ hlookup
  rw [hid] at hmatches
  exact header_of_matches hmatches

/-- In every run of a camera, over drops and reconnects: a future that `sendProtobuf` gave,
when it is completed with a reply, is completed with a message that begins with the feature
asked for and the action in response form.  So the two bytes that the clients strip off are
there, and are not part of what follows. -/
theorem reply_has_header {c₀ : Camera} {labels : List (CameraOp × List CameraEvent)}
    (hstart : lts.start c₀) (hrun : lts.Run c₀ labels c) {channel : Channel}
    {featureId actionId : DartInt} {f : Completer}
    (hasked : Asked labels channel featureId actionId f) {op : CameraOp}
    {evs : List CameraEvent} (hnext : c.next op = some (c', evs)) {r : BleResponse}
    {origin : SessionEvent} (hanswered : .answered f r origin ∈ evs)
    (hresponded : r.outcome = .responded) :
    ∃ rest, r.payload =
      featureId.toUInt8 :: protobufResponseAction actionId.toUInt8 :: rest := by
  obtain ⟨-, hposts, hfiled⟩ := filed hstart hrun
  exact header_of_answered hposts hfiled hasked hnext hanswered hresponded

/-- The livestream status, asked for while the first status query is still in flight. -/
theorem reply_has_header_livestream : ∃ c₀ c c' labels r,
    lts.start c₀ ∧ lts.Run c₀ labels c ∧ Asked labels .query 0xF5 0x74 ⟨1⟩ ∧
      (∃ origin, c.next .deliver = some (c', [.answered ⟨1⟩ r origin])) ∧
      ∃ rest, r.payload = 0xF5 :: 0xF4 :: rest := by
  obtain ⟨c₀, c, c', labels, origin, hconnect, htrace, hasked, hnext⟩ :
      ∃ c₀ c c' labels origin, connect {} 300000 plainCamera 0 = .ok c₀ ∧
        Lts.trace next c₀ [.sendProtobuf .query 0xF5 0x74 [] .fastpass 10, .deliver, .deliver,
          .notification .query [4, 0xF5, 0xF4, 8, 1] 20] = some (c, labels) ∧
        labels.head? = some (.sendProtobuf .query 0xF5 0x74 [] .fastpass 10, [.sent ⟨1⟩]) ∧
        c.next .deliver = some (c', [.answered ⟨1⟩
          ⟨correlationOfProtobuf .query 0xF5 0x74, .responded, [0xF5, 0xF4, 8, 1]⟩ origin]) :=
    ⟨_, _, _, _, _, rfl, rfl, rfl, rfl⟩
  have hstart : lts.start c₀ := ⟨_, _, _, _, hconnect⟩
  have hrun : lts.Run c₀ labels c := Lts.run_of_trace htrace
  have hgiven : Asked labels .query 0xF5 0x74 ⟨1⟩ :=
    ⟨_, _, _, List.mem_of_mem_head? hasked⟩
  exact ⟨c₀, c, c', labels, _, hstart, hrun, hgiven, ⟨origin, hnext⟩,
    reply_has_header hstart hrun hgiven hnext List.mem_cons_self rfl⟩

end Camera

end GoproNative
