import GoproNative.Camera.Phases
import GoproNative.Session.Completions

/-!
# Whose answer a future gets

Dart keys its futures by the ids the session is expected to use, and the session
reports by its own.  Under each id the reports on their way and the reports still owed
form an account, in the order in which Dart will hear them.  Where Dart holds a future
under the id, the account begins with that future's own report, and what follows is
stray: it belongs to a keep-alive, or tells of a refusal.  Where Dart holds none, the
whole account is stray.
-/

namespace GoproNative

/-! ## Reports on their way -/

namespace Posted

/-- A message that decodes to a response was posted for one. -/
theorem origin_of_response {m : Posted} {r : BleResponse}
    (h : BleCodec.decode m.bytes = some (.response r)) :
    ∃ s outcome payload, m.origin = .response s outcome payload ∧
      r = ⟨s.id, outcome, payload⟩ := by
  have hheard : .response r ∈ m.origin.heard := by
    rw [← BleCodec.decode_posts]
    exact List.mem_filterMap.mpr ⟨m.bytes, m.posted, h⟩
  cases horigin : m.origin with
  | response s outcome payload =>
      rw [horigin] at hheard
      simp only [SessionEvent.heard, List.mem_singleton, BleEvent.response.injEq] at hheard
      exact ⟨s, outcome, payload, rfl, hheard⟩
  | write e channel packets =>
      rw [horigin] at hheard
      simp only [SessionEvent.heard] at hheard
      split at hheard <;> simp at hheard
  | _ =>
      rw [horigin] at hheard
      simp [SessionEvent.heard] at hheard

/-- A message posted for a response decodes to it. -/
theorem decode_of_response {m : Posted} {s : Submission} {outcome : Outcome}
    {payload : Bytes} (h : m.origin = .response s outcome payload) :
    BleCodec.decode m.bytes = some (.response ⟨s.id, outcome, payload⟩) := by
  have hbytes := m.posted
  have hheard := BleCodec.decode_posts m.origin
  rw [h] at hbytes hheard
  simp only [SessionEvent.posts, List.mem_singleton] at hbytes
  rw [SessionEvent.posts, ← hbytes, SessionEvent.heard] at hheard
  cases hdecode : BleCodec.decode m.bytes with
  | none => simp [hdecode] at hheard
  | some ev =>
      simp only [List.filterMap_cons, hdecode, List.filterMap_nil, List.cons.injEq,
        and_true] at hheard
      rw [hheard]

end Posted

/-- Posting an event posts its report, if it is one. -/
theorem reports_post (evs : List SessionEvent) :
    reports ((evs.flatMap SessionEvent.post).map Posted.origin) = reports evs := by
  have hpost : ∀ ev : SessionEvent, (ev.post.map Posted.origin) =
      List.replicate ev.posts.length ev := by
    intro ev
    simp [SessionEvent.post, Function.comp_def, List.map_const']
  induction evs with
  | nil => rfl
  | cons ev evs ih =>
      rw [List.flatMap_cons, List.map_append, reports_append, ih, hpost]
      have hone : reports (List.replicate ev.posts.length ev) = reports [ev] := by
        cases ev with
        | response s outcome payload => rfl
        | _ => simp [reports, SessionEvent.report?, List.filterMap_replicate]
      rw [hone, ← reports_append, List.singleton_append]

/-- A report that no future is to be completed with. -/
def Report.Stray (r : Report) : Prop := r.submission.byTick = true ∨ r.refused = true

/-- What an entry of `_pending` says of the account under its id. -/
def Tracks : Option Completer → List Report → Prop
  | none, account => ∀ r ∈ account, r.Stray
  | some f, account => ∃ r rest, account = r :: rest ∧ ¬r.Stray ∧
      r.submission.number = f.number ∧ ∀ r' ∈ rest, r'.Stray

/-- A stray report that stands before nothing but stray ones is not noticed. -/
theorem Tracks.insert {entry : Option Completer} {first last : List Report}
    (h : Tracks entry (first ++ last)) {r : Report} (hr : r.Stray)
    (hlast : ∀ r' ∈ last, r'.Stray) : Tracks entry (first ++ r :: last) := by
  cases entry with
  | none =>
      intro r' hmem
      simp only [List.mem_append, List.mem_cons] at hmem
      rcases hmem with hmem | rfl | hmem
      · exact h r' (List.mem_append_left _ hmem)
      · exact hr
      · exact hlast r' hmem
  | some f =>
      obtain ⟨own, rest, haccount, hown, hnumber, hrest⟩ := h
      cases first with
      | nil =>
          rw [List.nil_append] at haccount
          exact absurd (hlast own (by simp [haccount])) hown
      | cons x xs =>
          obtain ⟨rfl, rfl⟩ := List.cons.inj haccount
          refine ⟨x, xs ++ r :: last, rfl, hown, hnumber, ?_⟩
          intro r' hmem
          simp only [List.mem_append, List.mem_cons] at hmem
          rcases hmem with hmem | rfl | hmem
          · exact hrest r' (List.mem_append_left _ hmem)
          · exact hr
          · exact hlast r' hmem

namespace Camera

variable {c : Camera}

/-- The reports on their way. -/
def undelivered (c : Camera) : List Report := reports (c.port.map Posted.origin)

/-- The reports under an id, on their way and owed. -/
def account (c : Camera) (id : CorrelationId) : List Report :=
  under id c.undelivered ++ under id c.session.owed

/-- What every run keeps whose steps heed the ids. -/
structure Correlated (c : Camera) : Prop where
  staged : Staged c.phase
  sound : c.session.Sound
  tracks : ∀ id, Tracks (c.pending.lookup id) (c.account id)

/-- A change to anything else. -/
theorem Correlated.congr {d : Camera} (h : c.Correlated) (hstaged : Staged d.phase)
    (hsession : d.session = c.session) (hpending : d.pending = c.pending)
    (hport : d.port = c.port) : d.Correlated := by
  refine ⟨hstaged, hsession ▸ h.sound, ?_⟩
  intro id
  rw [hpending, account, undelivered, hport, hsession]
  exact h.tracks id

/-! ## Calls of the session -/

theorem call_account (c : Camera) (t : Turn) (hlive : c.destroyed = false)
    (id : CorrelationId) :
    (c.call t).account id = under id c.undelivered ++ under id t.ledger := by
  have hcall : c.call t = { c with
      session := t.session, port := c.port ++ t.events.flatMap SessionEvent.post } := by
    simp [call, hlive]
  rw [hcall, account, undelivered, undelivered, Turn.ledger, List.map_append,
    reports_append, reports_post, under_append, under_append, List.append_assoc]

theorem call_pending (c : Camera) (t : Turn) : (c.call t).pending = c.pending := by
  unfold call
  split <;> rfl

theorem call_of_destroyed (h : c.destroyed = true) (t : Turn) : c.call t = c := if_pos h

theorem call_session (h : c.destroyed = false) (t : Turn) :
    (c.call t).session = t.session := by
  simp [call, h]

/-- A call that brings no submission goes unnoticed. -/
theorem Correlated.call (h : c.Correlated) {t : Turn} (hpays : c.session.Pays t)
    (hsound : t.session.Sound) : (c.call t).Correlated := by
  by_cases hlive : c.destroyed = false
  · refine ⟨by rw [call_phase]; exact h.staged, by rwa [call_session hlive], ?_⟩
    intro id
    rw [call_pending, call_account c t hlive, hpays id]
    exact h.tracks id
  · rw [call_of_destroyed (by simpa using hlive)]
    exact h

theorem Correlated.fed (h : c.Correlated) (channel : Channel) (bytes : Bytes)
    (nowMs : UInt64) :
    (c.call (BleBindings.feed c.session channel bytes nowMs)).Correlated := by
  unfold BleBindings.feed
  simp only
  split
  · exact h.call (BleSession.pays_of_idle rfl rfl) h.sound
  · exact h.call (h.sound.toOrderly.feed_pays channel _ nowMs) (h.sound.feed channel _ nowMs)

/-! ## Sends -/

/-- A send under `id`, which the session is to know as `own`, does not get in the way
of the ids: a submission that will be refused is not under the id of a future that is
pending, and one that will be accepted is entered under the session's own id, with no
response under it on the way. -/
def Clear (c : Camera) (id : DartInt) (own : CorrelationId) : Prop :=
  id ∉ c.pending →
    if own ∈ c.session.queue.outstanding.map Entry.id then own ∉ c.pending
    else id = own ∧ under own c.undelivered = []

/-- A submission that does not reach the queue leaves the table as it was. -/
theorem lookup_erase_insert {id : DartInt} {pending : DartMap DartInt Completer}
    (hnew : id ∉ pending) (f : Completer) (id' : DartInt) :
    ((pending.insert id f).erase id).lookup id' = pending.lookup id' := by
  by_cases hid : id' = id
  · rw [hid, AList.lookup_erase, AList.lookup_eq_none.mpr hnew]
  · rw [AList.lookup_erase_ne hid, AList.lookup_insert_ne hid]

instance (c : Camera) (id : DartInt) (own : CorrelationId) : Decidable (c.Clear id own) :=
  inferInstanceAs (Decidable (id ∉ c.pending →
    if own ∈ c.session.queue.outstanding.map Entry.id then own ∉ c.pending
    else id = own ∧ under own c.undelivered = []))

/-- The table with a new future in it. -/
def entered (c : Camera) (id : DartInt) : Camera :=
  { c with pending := c.pending.insert id ⟨c.session.submissions⟩ }

theorem enter_eq (c : Camera) (id : DartInt) (submit : BleSession → Turn)
    (refusal : DartError) : (c.enter id submit refusal).1 =
      if (submit c.session).result then (c.entered id).call (submit c.session)
      else { (c.entered id).call (submit c.session) with
        pending := (((c.entered id).call (submit c.session)).pending).erase id } := by
  rw [Camera.enter]
  simp only
  split <;> rfl

theorem Correlated.live (h : c.Correlated) (hup : c.state = .up) : c.destroyed = false := by
  cases hdestroyed : c.destroyed with
  | false => rfl
  | true => exact absurd (hup.symm.trans (h.staged.destroyed hdestroyed)) (by simp)

/-- A submission of the user that reaches the queue. -/
theorem Correlated.enter (h : c.Correlated) {id : DartInt} {own : CorrelationId}
    (hup : c.state = .up) (hnew : id ∉ c.pending) (hclear : c.Clear id own)
    {payload : Bytes} {priority : Priority} {nowMs : UInt64} {submit : BleSession → Turn}
    (hsubmit : submit c.session = c.session.enqueue own payload priority false nowMs)
    (refusal : DartError) : (c.enter id submit refusal).1.Correlated := by
  let turn := c.session.enqueue own payload priority false nowMs
  let after := (c.entered id).call turn
  have hlive : (c.entered id).destroyed = false := h.live hup
  have hstaged : Staged after.phase := (call_phase (c.entered id) turn).symm ▸ h.staged
  have hsound : after.session.Sound :=
    (call_session hlive turn).symm ▸ h.sound.enqueue _ _ _ _ _ (by simp)
  have hpending : after.pending = (c.entered id).pending := call_pending _ _
  have haccount : ∀ id', after.account id' =
      under id' c.undelivered ++ under id' turn.ledger :=
    call_account (c.entered id) turn hlive
  have hown := hclear hnew
  rcases h.sound.toOrderly.enqueue_cases own payload priority false nowMs with
    ⟨htaken, hresult, hreports, howed⟩ | ⟨hfree, hresult, hreports, howed⟩
  · -- Refused: the report on the refusal is stray, and no future is there to take it.
    rw [if_pos htaken] at hown
    rw [enter_eq, hsubmit, hresult, if_neg (by simp)]
    refine ⟨hstaged, hsound, ?_⟩
    intro id'
    have hledger : turn.ledger =
        ⟨⟨own, c.session.submissions, false⟩, true⟩ :: c.session.owed := by
      rw [Turn.ledger, hreports, howed, List.singleton_append]
    have htracks := h.tracks id'
    change Tracks ((after.pending.erase id).lookup id') (after.account id')
    rw [hpending, entered, lookup_erase_insert hnew, haccount, hledger, under_cons]
    by_cases hid : own = id'
    · subst hid
      rw [AList.lookup_eq_none.mpr hown] at htracks ⊢
      rw [if_pos rfl]
      exact Tracks.insert htracks (Or.inr rfl)
        fun r hr => htracks r (List.mem_append_right _ hr)
    · rw [if_neg hid]
      exact htracks
  · -- Accepted: the submission's report is all that the account holds.
    rw [if_neg hfree] at hown
    obtain ⟨rfl, hquiet⟩ := hown
    rw [enter_eq, hsubmit, hresult, if_pos rfl]
    refine ⟨hstaged, hsound, ?_⟩
    intro id'
    change Tracks (after.pending.lookup id') (after.account id')
    rw [hpending, entered, haccount, Turn.ledger, hreports, List.nil_append, howed]
    by_cases hid : id = id'
    · subst hid
      rw [if_pos rfl, hquiet, AList.lookup_insert]
      exact ⟨_, [], rfl, by simp [Report.Stray], rfl, by simp⟩
    · rw [if_neg hid, AList.lookup_insert_ne (Ne.symm hid)]
      exact h.tracks id'

/-- A submission that is refused before it reaches the queue. -/
theorem Correlated.enter_void (h : c.Correlated) {id : DartInt} (hnew : id ∉ c.pending)
    {submit : BleSession → Turn}
    (hsubmit : submit c.session = { session := c.session, result := false })
    (refusal : DartError) : (c.enter id submit refusal).1.Correlated := by
  have hcall : (c.entered id).call { session := c.session, result := false } =
      c.entered id := by
    unfold Camera.call
    split
    · rfl
    · simp [entered]
  rw [enter_eq, hsubmit, hcall, if_neg (by simp)]
  refine ⟨h.staged, h.sound, ?_⟩
  intro id'
  change Tracks (((c.entered id).pending.erase id).lookup id') (c.account id')
  rw [entered, lookup_erase_insert hnew]
  exact h.tracks id'

theorem submit_cases (s : BleSession) (channel : Channel) (b : DartInt)
    (payload : List DartInt) (priority : Priority) (nowMs : UInt64) :
    BleBindings.submit s channel (b :: payload) priority nowMs =
        { session := s, result := false } ∨
      0 < int32 (b :: payload).length ∧ ∃ bytes,
        BleBindings.submit s channel (b :: payload) priority nowMs =
          s.enqueue (correlationOf channel b.toUInt8) bytes priority false nowMs := by
  unfold BleBindings.submit
  simp only
  split
  · exact Or.inl rfl
  · next hlen =>
    right
    obtain ⟨n, hn⟩ : ∃ n, (int32 (b :: payload).length).toNat = n + 1 :=
      ⟨(int32 (b :: payload).length).toNat - 1, by omega⟩
    refine ⟨by omega, b.toUInt8 :: (payload.map UInt64.toUInt8).take n, ?_⟩
    rw [hn]
    rfl

theorem Correlated.send (h : c.Correlated) (channel : Channel) (payload : List DartInt)
    (priority : Option Priority) (nowMs : UInt64)
    (hclear : c.state = .up → ∀ b rest, payload = b :: rest → 0 < int32 payload.length →
      c.Clear (BleCodec.correlationOf channel b) (correlationOf channel b.toUInt8)) :
    (c.send channel payload priority nowMs).1.Correlated := by
  unfold Camera.send
  split
  · exact h
  · next hup =>
    rw [not_not] at hup
    split
    · exact h
    · next b rest =>
      simp only
      split
      · exact h
      · next hnew =>
        rcases submit_cases c.session channel b rest
          (priority.getD (if channel = .query then .fastpass else .queued)) nowMs with
          hvoid | ⟨hlen, bytes, hsubmit⟩
        · exact h.enter_void hnew hvoid _
        · exact h.enter hup hnew (hclear hup b rest rfl hlen) hsubmit _

theorem Correlated.sendProtobuf (h : c.Correlated) (channel : Channel)
    (featureId actionId : DartInt) (message : List DartInt) (priority : Priority)
    (nowMs : UInt64)
    (hclear : c.state = .up → 0 ≤ int32 message.length →
      c.Clear (BleBindings.protobufCorrelation channel featureId actionId)
        (BleBindings.protobufCorrelation channel featureId actionId)) :
    (c.sendProtobuf channel featureId actionId message priority nowMs).1.Correlated := by
  unfold Camera.sendProtobuf
  split
  · exact h
  · next hup =>
    rw [not_not] at hup
    simp only
    split
    · exact h
    · next hnew =>
      by_cases hlen : int32 message.length < 0
      · exact h.enter_void hnew (if_pos hlen) _
      · exact h.enter hup hnew (hclear hup (by omega)) (if_neg hlen) _

/-! ## Ticks -/

theorem byTick_of_anchored {s : BleSession} {nowMs : UInt64} (hs : s.Orderly)
    (hheed : ∀ e ∈ (s.queue.sweep nowMs).outstanding, e.id = keepAliveId →
      e.done.byTick = true) :
    ∀ r ∈ under keepAliveId (s.anchored nowMs).owed, r.Stray := by
  intro r hr
  obtain ⟨hr, hid⟩ := mem_under.mp hr
  obtain ⟨e, he, rfl⟩ := BleSession.mem_owed.mp hr
  have hperm : ((s.anchored nowMs).queue.outstanding.map fun e => (e.id, e.done)).Perm
      ((s.queue.sweep nowMs).outstanding.map fun e => (e.id, e.done)) :=
    CommandQueue.pump_outstanding (fun _ => rfl) (s.queue.sweep nowMs)
  obtain ⟨e', he', hsame⟩ := List.mem_map.mp
    (hperm.subset (List.mem_map_of_mem (f := fun e => (e.id, e.done)) he))
  obtain ⟨hsameId, hsameDone⟩ := Prod.mk.inj hsame
  have hown := ((hs.anchored nowMs).attributed e he).1
  refine Or.inl ?_
  rw [← hsameDone]
  exact hheed e' he' (by rw [hsameId, ← hown]; exact hid)

/-- A tick whose keep-alive is not refused on account of a command of the user. -/
theorem Correlated.tick (h : c.Correlated) {nowMs : UInt64}
    (hheed : c.session.Due nowMs → ∀ e ∈ (c.session.queue.sweep nowMs).outstanding,
      e.id = keepAliveId → e.done.byTick = true) :
    (c.call (c.session.tick nowMs)).Correlated := by
  by_cases hdue : c.session.Due nowMs
  · by_cases hlive : c.destroyed = false
    · refine ⟨by rw [call_phase]; exact h.staged, ?_, ?_⟩
      · rw [call_session hlive]
        exact h.sound.tick nowMs
      intro id
      have hswept := h.sound.toOrderly.anchored_pays nowMs id
      have hanchored := h.sound.toOrderly.anchored nowMs
      have hnil : under id [] = [] := rfl
      rw [Turn.ledger, under_append] at hswept
      have hbefore := h.tracks id
      rw [account, ← hswept, ← List.append_assoc] at hbefore
      rw [call_pending, call_account c _ hlive, Turn.ledger, (BleSession.tick_of_due hdue).2,
        (BleSession.tick_of_due hdue).1, reports_append, under_append, under_append]
      rcases hanchored.enqueue_cases keepAliveId keepAlivePayload .keepAlive true nowMs with
        ⟨-, -, hreports, howed⟩ | ⟨hfree, -, hreports, howed⟩
      · rw [hreports, howed]
        by_cases hid : keepAliveId = id
        · subst hid
          have hstray := byTick_of_anchored h.sound.toOrderly (hheed hdue)
          rw [under_cons, if_pos rfl, List.append_assoc, List.cons_append,
            ← List.append_assoc]
          exact hbefore.insert (Or.inr rfl) hstray
        · rw [under_cons, if_neg hid, hnil, List.append_nil, ← List.append_assoc]
          exact hbefore
      · rw [hreports, howed id, hnil, List.append_nil, ← List.append_assoc]
        by_cases hid : keepAliveId = id
        · subst hid
          rw [if_pos rfl]
          rw [hanchored.under_owed_eq_nil hfree] at hbefore
          exact hbefore.insert (Or.inl rfl) (by simp)
        · rw [if_neg hid]
          exact hbefore
    · rw [call_of_destroyed (by simpa using hlive)]
      exact h
  · exact h.call (h.sound.toOrderly.tick_pays hdue) (h.sound.tick nowMs)

/-! ## Deliveries -/

/-- The event completes the future that its submission was made for. -/
def OwnAnswer : CameraEvent → Prop
  | .answered f r origin => ∃ s outcome payload, origin = .response s outcome payload ∧
      s.number = f.number ∧ s.byTick = false ∧ r = ⟨s.id, outcome, payload⟩
  | _ => True

theorem undelivered_cons {m : Posted} {port : List Posted} (h : c.port = m :: port) :
    c.undelivered = reports [m.origin] ++ reports (port.map Posted.origin) := by
  rw [undelivered, h, List.map_cons, ← List.singleton_append, reports_append]

/-- A message that is no response. -/
theorem Correlated.skip (h : c.Correlated) {m : Posted} {port : List Posted}
    (hport : c.port = m :: port) (hother : m.origin.report? = none) :
    Correlated { c with port := port } := by
  have hundelivered : undelivered { c with port := port } = c.undelivered := by
    have hnone : reports [m.origin] = [] := by simp [reports, hother]
    rw [undelivered_cons hport, hnone]
    rfl
  refine ⟨h.staged, h.sound, ?_⟩
  intro id
  rw [account, hundelivered]
  exact h.tracks id

theorem report?_eq_none {m : Posted}
    (h : ∀ r, BleCodec.decode m.bytes ≠ some (.response r)) : m.origin.report? = none := by
  cases horigin : m.origin with
  | response s outcome payload => exact absurd (Posted.decode_of_response horigin) (h _)
  | _ => rfl

/-- The account under the id of a response begins with its report. -/
theorem account_cons {m : Posted} {port : List Posted} (hport : c.port = m :: port)
    {s : Submission} {outcome : Outcome} {payload : Bytes}
    (horigin : m.origin = .response s outcome payload) (id : CorrelationId) :
    c.account id =
      if s.id = id then ⟨s, outcome == .rejected⟩ :: account { c with port := port } id
      else account { c with port := port } id := by
  have hone : reports [m.origin] = [⟨s, outcome == .rejected⟩] := by
    simp [reports, horigin, SessionEvent.report?]
  rw [account, undelivered_cons hport, hone, under_append, under_cons, List.append_assoc]
  split <;> rfl

/-- A response completes the future it was made for, or none. -/
theorem Correlated.answer (h : c.Correlated) {m : Posted} {port : List Posted}
    {r : BleResponse} (hport : c.port = m :: port)
    (hdecode : BleCodec.decode m.bytes = some (.response r)) :
    (onEvent { c with port := port } m.origin (.response r)).1.Correlated ∧
      ∀ ev ∈ (onEvent { c with port := port } m.origin (.response r)).2,
        OwnAnswer ev := by
  obtain ⟨s, outcome, payload, horigin, rfl⟩ := Posted.origin_of_response hdecode
  have haccount := account_cons hport horigin
  have hmine := h.tracks s.id
  rw [haccount s.id, if_pos rfl] at hmine
  have hothers : ∀ id, id ≠ s.id →
      Tracks (c.pending.lookup id) (account { c with port := port } id) := by
    intro id hid
    have htracks := h.tracks id
    rwa [haccount id, if_neg (Ne.symm hid)] at htracks
  cases hlookup : c.pending.lookup s.id with
  | none =>
      rw [hlookup] at hmine
      simp only [onEvent, hlookup]
      refine ⟨⟨h.staged, h.sound, ?_⟩, by simp⟩
      intro id
      by_cases hid : id = s.id
      · subst hid
        change Tracks (c.pending.lookup s.id) _
        rw [hlookup]
        exact fun r hr => hmine r (List.mem_cons_of_mem _ hr)
      · exact hothers id hid
  | some f =>
      rw [hlookup] at hmine
      obtain ⟨own, rest, hlist, hstray, hnumber, hrest⟩ := hmine
      obtain ⟨rfl, htail⟩ := List.cons.inj hlist
      simp only [onEvent, hlookup]
      refine ⟨⟨h.staged, h.sound, ?_⟩, ?_⟩
      · intro id
        by_cases hid : id = s.id
        · subst hid
          change Tracks ((c.pending.erase s.id).lookup s.id)
            (account { c with port := port } s.id)
          rw [AList.lookup_erase, htail]
          exact hrest
        · change Tracks ((c.pending.erase s.id).lookup id)
            (account { c with port := port } id)
          rw [AList.lookup_erase_ne hid]
          exact hothers id hid
      · intro ev hev
        rw [List.mem_singleton] at hev
        subst hev
        have hbyTick : s.byTick = false := by
          have hnot : ¬s.byTick = true := fun htick => hstray (Or.inl htick)
          simpa using hnot
        exact ⟨s, outcome, payload, horigin, hnumber, hbyTick, rfl⟩

theorem Correlated.heard (h : c.Correlated) {m : Posted} {port : List Posted}
    {ev : BleEvent} (hport : c.port = m :: port)
    (hdecode : BleCodec.decode m.bytes = some ev) :
    (onEvent { c with port := port } m.origin ev).1.Correlated ∧
      ∀ out ∈ (onEvent { c with port := port } m.origin ev).2, OwnAnswer out := by
  have hadd : ∀ stream out, OwnAnswer out →
      ∀ x ∈ add { c with port := port } stream out, OwnAnswer x := by
    intro stream out hout x hx
    unfold add at hx
    split at hx
    · simp at hx
    · rwa [List.mem_singleton.mp hx]
  have hskip : (∀ r, ev ≠ .response r) → Correlated { c with port := port } := by
    intro hother
    refine h.skip hport (report?_eq_none ?_)
    intro r hr
    exact hother r (Option.some.inj (hdecode.symm.trans hr))
  cases ev with
  | response r => exact h.answer hport hdecode
  | writeRequest channel bytes =>
      have hc := hskip (by simp)
      simp only [onEvent]
      split
      · refine ⟨hc, ?_⟩
        intro out hout
        rw [List.mem_singleton.mp hout]
        trivial
      · exact ⟨hc, by simp⟩
  | readyChanged ready => exact ⟨hskip (by simp), hadd _ _ trivial⟩
  | push channel message => exact ⟨hskip (by simp), hadd _ _ trivial⟩
  | frameError channel error => exact ⟨hskip (by simp), hadd _ _ trivial⟩

/-! ## Drops and teardown -/

/-- The events of the bodies answer no future from the port. -/
def Unanswered (evs : List CameraEvent) : Prop :=
  ∀ f r origin, .answered f r origin ∉ evs

theorem Unanswered.own {evs : List CameraEvent} (h : Unanswered evs) :
    ∀ ev ∈ evs, OwnAnswer ev := by
  intro ev hev
  cases ev with
  | answered f r origin => exact absurd hev (h f r origin)
  | _ => trivial

theorem setState_unanswered (c : Camera) (next : CameraLink) :
    Unanswered (c.setState next).2 := by
  intro f r origin
  unfold setState add
  split
  · simp
  · split <;> simp

theorem close_unanswered (c : Camera) : Unanswered c.close.2 := by
  intro f r origin
  have hset := setState_unanswered c .down f r origin
  unfold close
  split
  · simp
  · simp only
    split <;> exact hset

theorem resolvePending_unanswered (c : Camera) : Unanswered c.resolvePending.2 := by
  intro f r origin
  simp [resolvePending]

theorem onDrop_unanswered (c : Camera) (why : String) : Unanswered (c.onDrop why).2 := by
  intro f r origin
  have hclose := close_unanswered c f r origin
  have hset := setState_unanswered c .reconnecting f r origin
  unfold onDrop
  split
  · simp
  · split
    · simpa using hclose
    · simpa using hset

theorem giveUp_unanswered (c : Camera) (e : DartError) : Unanswered (c.giveUp e).2 := by
  intro f r origin
  have hclose := close_unanswered { c with dropping := none } f r origin
  unfold giveUp add
  simp only [List.mem_append, not_or]
  refine ⟨?_, hclose⟩
  split <;> simp

theorem Correlated.unwatched (h : c.Correlated) (hstaged : Staged c.unwatched.phase) :
    c.unwatched.Correlated := by
  let d : Camera := { c with watch := [] }
  have hd : d.Correlated := h.congr h.staged rfl rfl rfl
  have hcall := hd.call h.sound.toOrderly.onDisconnect_pays h.sound.onDisconnect
  unfold Camera.unwatched at hstaged ⊢
  simp only at hstaged ⊢
  split
  · next hnone =>
    rw [if_pos hnone] at hstaged
    exact hcall.congr hstaged rfl rfl rfl
  · next hsome =>
    rw [if_neg hsome] at hstaged
    exact hcall.congr hstaged rfl rfl rfl

theorem Correlated.close (h : c.Correlated) : c.close.1.Correlated := by
  have hstaged := h.staged.moves (close_moves c)
  by_cases hdown : c.state = .down
  · rw [close_of_down hdown]
    exact h
  · rw [close_eq hdown] at hstaged ⊢
    split
    · next hwatch =>
      rw [if_pos hwatch] at hstaged
      have hd : Staged (phase { c with state := .down, ticker := false }) :=
        ⟨by simp [phase], h.staged.failed, fun _ => rfl, fun _ => rfl, h.staged.ended⟩
      exact (h.congr hd rfl rfl rfl).unwatched hstaged
    · next hwatch =>
      rw [if_neg hwatch] at hstaged
      exact h.congr hstaged rfl rfl rfl

theorem Correlated.giveUp (h : c.Correlated) (e : DartError) :
    (c.giveUp e).1.Correlated := by
  have hd : Staged (phase { c with dropping := none }) :=
    ⟨by simp [phase], by simp [phase], h.staged.closing, h.staged.destroyed,
      h.staged.ended⟩
  exact (h.congr hd rfl rfl rfl).close

theorem Correlated.onDrop (h : c.Correlated) (why : String) :
    (c.onDrop why).1.Correlated := by
  have hstaged := h.staged.moves (onDrop_moves c why)
  rcases c.onDrop_cases why with ⟨-, heq⟩ | ⟨-, -, heq⟩ | ⟨hup, -, heq⟩
  · rw [heq]
    exact h
  · rw [heq]
    exact h.close
  · rw [heq] at hstaged ⊢
    have hdropping : c.dropping = none := by
      by_contra hsome
      exact h.staged.dropping hsome hup
    have hlink : Staged (phase { c with state := .reconnecting }) := by
      refine ⟨by simp [phase], h.staged.failed, ?_, ?_, h.staged.ended⟩
      · intro hclosing
        exact absurd (hup.symm.trans (h.staged.closing hclosing)) (by simp)
      · intro hdestroyed
        exact absurd (hup.symm.trans (h.staged.destroyed hdestroyed)) (by simp)
    have hd : Correlated { c with state := .reconnecting } := h.congr hlink rfl rfl rfl
    have hcall := hd.call h.sound.toOrderly.onDisconnect_pays h.sound.onDisconnect
    exact hcall.congr hstaged rfl rfl rfl

/-- `_resolvePending` with nothing pending. -/
theorem Correlated.resolve {d : Camera} (h : c.Correlated) (hempty : c.pending = ∅)
    (hstaged : Staged d.phase) (hsession : d.session = c.session)
    (hport : d.port = c.port) : d.resolvePending.1.Correlated :=
  h.congr hstaged hsession hempty.symm hport

/-- The end of `close`: the port is closed, and nothing is owed any more. -/
theorem Correlated.drained (h : c.Correlated) (hstage : c.closing = some .draining) :
    c.drained.1.Correlated := by
  let d : Camera := c.resolvePending.1
  have hlive : c.destroyed = false := by
    by_contra hlive
    obtain ⟨rest, hrest⟩ := h.staged.ended (eq_true_of_ne_false hlive) .draining hstage
    simp at hrest
  have hsession : c.drained.1.session = c.session.onDisconnect.session :=
    call_session (c := d) hlive _
  have hpending : c.drained.1.pending = ∅ := call_pending d _
  have hstaged : Staged c.drained.1.phase := by
    obtain ⟨rest, hphase⟩ := c.drained_phase
    rw [hphase]
    exact h.staged.moves (.destroy c.phase rest hstage)
  refine ⟨hstaged, hsession ▸ h.sound.onDisconnect, ?_⟩
  intro id
  have haccount : c.drained.1.account id = [] := by
    rw [account, hsession, BleSession.onDisconnect_owed]
    rfl
  rw [hpending, haccount]
  exact fun r hr => absurd hr List.not_mem_nil

theorem Correlated.resumeClose (h : c.Correlated) {ok : Bool} {c' : Camera}
    {evs : List CameraEvent} (hresume : c.resumeClose ok = some (c', evs)) :
    c'.Correlated ∧ Unanswered evs := by
  have hstaged := h.staged.moves (resumeClose_moves hresume)
  have hsilent : Unanswered [] := by simp [Unanswered]
  rcases resumeClose_cases hresume with ⟨hstage, rfl, rfl⟩ | ⟨-, rfl, rfl⟩ |
    ⟨-, rfl, rfl⟩ | ⟨-, rfl, rfl⟩ | ⟨streams, closed, closing, -, -, rfl, rfl⟩
  · exact ⟨h.drained hstage, resolvePending_unanswered c⟩
  · exact ⟨h.unwatched hstaged, hsilent⟩
  · exact ⟨h.congr hstaged rfl rfl rfl, hsilent⟩
  · exact ⟨h.congr hstaged rfl rfl rfl, hsilent⟩
  · exact ⟨h.congr hstaged rfl rfl rfl, hsilent⟩

/-! ## Attaching -/

theorem Correlated.bind (h : c.Correlated) (a : Attached) : (c.bind a).Correlated := by
  let d : Camera :=
    { c with device := a.device, writes := a.writes, notifies := a.notifies }
  have hd : d.Correlated := h.congr h.staged rfl rfl rfl
  have hbound : ∀ e : Camera, e.Correlated →
      Correlated { e with subs := e.subs ++ e.notifies.keys.reverse } :=
    fun e he => he.congr he.staged rfl rfl rfl
  unfold Camera.bind
  simp only
  split
  · refine hbound _ (hd.call (c.session.setAttPayload_pays _) ?_)
    exact h.sound.perform (.setAttPayload (leastMtu d.notifies - 3).toUInt32.toNat)
  · exact hbound d hd

theorem bind_idle (c : Camera) (a : Attached) :
    (c.bind a).pending = c.pending ∧ (c.bind a).port = c.port ∧
      (c.bind a).session.queue = c.session.queue := by
  unfold Camera.bind Camera.call
  simp only [BleSession.setAttPayload_eq]
  split
  · split
    · exact ⟨rfl, rfl, rfl⟩
    · exact ⟨rfl, List.append_nil _, rfl⟩
  · exact ⟨rfl, rfl, rfl⟩

/-- The first attachment: nothing is owed or on its way. -/
theorem Correlated.attach (h : c.Correlated)
    (howed : c.session.queue.outstanding = []) (hport : c.port = []) (a : Attached)
    (nowMs : UInt64) : (c.attach a nowMs).1.Correlated := by
  obtain ⟨-, hport', hqueue⟩ := c.bind_idle a
  have hsent := (h.bind a).send .query [0x13, kBusyStatusId, kEncodingStatusId] none nowMs
    (by
      intro _ b rest hpayload _ _
      obtain ⟨rfl, -⟩ := List.cons.inj hpayload
      rw [hqueue, howed, if_neg (by simp)]
      refine ⟨by decide, ?_⟩
      rw [undelivered, hport', hport]
      rfl)
  rw [attach_eq, queryStatuses]
  split
  · next d f heq =>
    rw [heq] at hsent
    exact hsent.congr hsent.staged rfl rfl rfl
  · next d e heq =>
    rw [heq] at hsent
    exact hsent

theorem correlated_connect {cfg : SessionConfig} {reconnectTimeoutMs : Nat}
    {a : Attached} {nowMs : UInt64}
    (h : connect cfg reconnectTimeoutMs a nowMs = .ok c) : c.Correlated := by
  let camera : Camera :=
    { device := a.device, session := .new cfg, reconnectTimeoutMs := reconnectTimeoutMs }
  have hfresh : camera.Correlated := by
    refine ⟨⟨by simp [phase, camera], by simp [phase, camera], by simp [phase, camera],
      by simp [phase, camera], by simp [phase, camera]⟩, BleSession.sound_new cfg, ?_⟩
    intro id r hr
    exact absurd hr List.not_mem_nil
  have hattached := hfresh.attach rfl rfl a nowMs
  unfold connect at h
  simp only at h
  split at h
  · next d f heq =>
    obtain rfl := Except.ok.inj h
    rw [heq] at hattached
    exact hattached.congr hattached.staged rfl rfl rfl
  · simp at h

/-! ## Runs -/

/-- A turn that leaves the ids in order.  A send is `Clear`; a tick refuses no
keep-alive on account of a command of the user; and the `_resolvePending` of `_onDrop`
finds nothing pending. -/
def Heeds (c : Camera) : CameraOp → Prop
  | .send channel payload _ _ => c.state = .up → ∀ b rest, payload = b :: rest →
      0 < int32 payload.length →
        c.Clear (BleCodec.correlationOf channel b) (correlationOf channel b.toUInt8)
  | .sendProtobuf channel featureId actionId message _ _ => c.state = .up →
      0 ≤ int32 message.length →
        c.Clear (BleBindings.protobufCorrelation channel featureId actionId)
          (BleBindings.protobufCorrelation channel featureId actionId)
  | .tick _ nowMs => c.session.Due nowMs →
      ∀ e ∈ (c.session.queue.sweep nowMs).outstanding, e.id = keepAliveId →
        e.done.byTick = true
  | .dropDetached ok => ok = true → c.pending = ∅
  | _ => True

/-- A turn that heeds the ids keeps them in order, and answers no future with the
report on another submission. -/
theorem Correlated.next (h : c.Correlated) {op : CameraOp} {c' : Camera}
    {evs : List CameraEvent} (hheeds : c.Heeds op) (hnext : c.next op = some (c', evs)) :
    c'.Correlated ∧ ∀ ev ∈ evs, OwnAnswer ev := by
  have hstaged := h.staged.moves (next_moves hnext)
  have hgave : ∀ r, ∀ ev ∈ [gave r], OwnAnswer ev := by
    intro r ev hev
    rw [List.mem_singleton.mp hev]
    cases r <;> trivial
  have hsilent : ∀ ev ∈ ([] : List CameraEvent), OwnAnswer ev := by simp
  cases next_turns hnext with
  | send channel payload priority nowMs =>
      exact ⟨h.send channel payload priority nowMs hheeds, hgave _⟩
  | sendProtobuf channel featureId actionId message priority nowMs =>
      exact ⟨h.sendProtobuf channel featureId actionId message priority nowMs hheeds,
        hgave _⟩
  | close => exact ⟨h.close, (close_unanswered c).own⟩
  | fed channel bytes nowMs => exact ⟨h.fed channel bytes nowMs, hsilent⟩
  | skipped m port hport hnone =>
      exact ⟨h.skip hport (report?_eq_none (by simp [hnone])), hsilent⟩
  | heard m port ev hport hsome => exact h.heard hport hsome
  | ticked connected nowMs hquiet => exact ⟨h.tick hheeds, hsilent⟩
  | tickedDown connected nowMs why =>
      exact ⟨(h.tick hheeds).onDrop why, (onDrop_unanswered _ why).own⟩
  | ignored op hother => exact ⟨h, hsilent⟩
  | noticed op why => exact ⟨h.onDrop why, (onDrop_unanswered c why).own⟩
  | detached hstage =>
      exact ⟨h.resolve (hheeds rfl) hstaged rfl rfl, (resolvePending_unanswered _).own⟩
  | stalled hstage => exact ⟨h.congr hstaged rfl rfl rfl, hsilent⟩
  | attached a nowMs d f hstage hattach =>
      have hdown := h.staged.dropping (by simp [phase, hstage])
      rw [attach_of_not_up hdown] at hattach
      simp at hattach
  | refused a nowMs d e hstage hattach =>
      have hdown := h.staged.dropping (by simp [phase, hstage])
      rw [attach_of_not_up hdown] at hattach
      obtain ⟨rfl, -⟩ := Prod.mk.inj hattach
      exact ⟨(h.bind a).congr hstaged rfl rfl rfl, hsilent⟩
  | gaveUp op e hstage => exact ⟨h.giveUp e, (giveUp_unanswered c e).own⟩
  | finished hstage => exact absurd hstage h.staged.failed
  | closing ok c' evs hresume =>
      obtain ⟨hc, hevs⟩ := h.resumeClose hresume
      exact ⟨hc, hevs.own⟩

/-- A command of the user that the session accepted under an id is outstanding, or
its completion is undelivered.  What was refused, and nothing else, completes as
rejected. -/
def Awaited (c : Camera) (id : CorrelationId) : Prop :=
  (∃ e ∈ c.session.queue.outstanding, e.id = id ∧ e.done.byTick = false) ∨
  ∃ m ∈ c.port, ∃ s outcome payload, m.origin = .response s outcome payload ∧
    s.id = id ∧ s.byTick = false ∧ outcome ≠ .rejected

theorem mem_undelivered {r : Report} :
    r ∈ c.undelivered ↔ ∃ m ∈ c.port, m.origin.report? = some r := by
  simp [undelivered, reports]

/-- Such commands are the reports that are not stray. -/
theorem awaited_iff (h : c.session.Sound) (id : CorrelationId) :
    c.Awaited id ↔ ∃ r ∈ c.account id, ¬r.Stray := by
  constructor
  · rintro (⟨e, he, rfl, htick⟩ | ⟨m, hm, s, outcome, payload, horigin, rfl, htick, hout⟩)
    · have hid := (h.attributed e he).1
      refine ⟨⟨e.done, false⟩, List.mem_append_right _ (mem_under.mpr
        ⟨BleSession.mem_owed.mpr ⟨e, he, rfl⟩, hid⟩), ?_⟩
      simp [Report.Stray, htick]
    · refine ⟨⟨s, outcome == .rejected⟩, List.mem_append_left _ (mem_under.mpr
        ⟨mem_undelivered.mpr ⟨m, hm, by rw [horigin]; rfl⟩, rfl⟩), ?_⟩
      simp [Report.Stray, htick, hout]
  · rintro ⟨r, hr, hstray⟩
    simp only [Report.Stray, not_or, Bool.not_eq_true] at hstray
    obtain ⟨htick, hrefused⟩ := hstray
    rcases List.mem_append.mp hr with hr | hr
    · obtain ⟨hr, hid⟩ := mem_under.mp hr
      obtain ⟨m, hm, hreport⟩ := mem_undelivered.mp hr
      right
      cases horigin : m.origin with
      | response s outcome payload =>
          rw [horigin, SessionEvent.report?, Option.some.injEq] at hreport
          subst hreport
          exact ⟨m, hm, s, outcome, payload, horigin, hid, htick, by simpa using hrefused⟩
      | _ => simp [horigin, SessionEvent.report?] at hreport
    · obtain ⟨hr, hid⟩ := mem_under.mp hr
      obtain ⟨e, he, rfl⟩ := BleSession.mem_owed.mp hr
      exact Or.inl ⟨e, he, (h.attributed e he).1 ▸ hid, htick⟩

theorem Correlated.mem_pending_iff (h : c.Correlated) (id : DartInt) :
    id ∈ c.pending ↔ c.Awaited id := by
  rw [awaited_iff h.sound, ← AList.lookup_isSome]
  have htracks := h.tracks id
  cases hlookup : c.pending.lookup id with
  | none =>
      rw [hlookup] at htracks
      simp only [Option.isSome_none, Bool.false_eq_true, false_iff]
      rintro ⟨r, hr, hstray⟩
      exact hstray (htracks r hr)
  | some f =>
      rw [hlookup] at htracks
      obtain ⟨r, rest, haccount, hstray, -, -⟩ := htracks
      simp only [Option.isSome_some, true_iff]
      exact ⟨r, by simp [haccount], hstray⟩

/-- Every future gets the answer to its own submission, in every run whose turns heed
the ids: `_pending` holds an id exactly when a command of the user is awaited under
it, and an event that completes a future is the report on the submission the future
was made for. -/
theorem futures_get_own_answers {c₀ : Camera}
    {labels : List (CameraOp × List CameraEvent)} (hstart : lts.start c₀)
    (hrun : (lts.restrict fun c label => c.Heeds label.1).Run c₀ labels c) :
    (∀ id, id ∈ c.pending ↔ c.Awaited id) ∧
      ∀ label ∈ labels, ∀ ev ∈ label.2, OwnAnswer ev := by
  obtain ⟨cfg, reconnectTimeoutMs, a, nowMs, hconnect⟩ := hstart
  obtain ⟨hlast, hanswers⟩ := hrun.labels (I := Correlated)
    (Q := fun label => ∀ ev ∈ label.2, OwnAnswer ev) (correlated_connect hconnect)
    fun c label c' hc hstep => hc.next hstep.2 hstep.1
  exact ⟨hlast.mem_pending_iff, hanswers⟩

/-- A response on a command of the caller, with the keep-alive left alone. -/
theorem futures_get_own_answers_reply :
    ∃ c₀ c labels f r origin,
      lts.start c₀ ∧ (lts.restrict fun c label => c.Heeds label.1).Run c₀ labels c ∧
        (.deliver, [.answered f r origin]) ∈ labels ∧
        OwnAnswer (.answered f r origin) := by
  obtain ⟨c₀, c₁, c, evs, labels, hconnect, hsend, hclear, htrace, hmem⟩ :
      ∃ c₀ c₁ c evs labels, connect {} 300000 plainCamera 0 = .ok c₀ ∧
        c₀.next (.send .command [1, 1, 1] (some .fastpass) 10) = some (c₁, evs) ∧
        c₀.Clear 1 1 ∧
        Lts.trace next c₁ [.deliver, .deliver, .notification .command [2, 1, 0] 20,
          .deliver] = some (c, labels) ∧
        labels.getLast? = some (.deliver, [.answered ⟨1⟩ ⟨1, .responded, [1, 0]⟩
          (.response ⟨1, 1, false⟩ .responded [1, 0])]) :=
    ⟨_, _, _, _, _, rfl, rfl, by decide, rfl, rfl⟩
  have hstart : lts.start c₀ := ⟨_, _, _, _, hconnect⟩
  have hheeds : c₀.Heeds (.send .command [1, 1, 1] (some .fastpass) 10) := by
    intro _ b rest hpayload _
    obtain ⟨rfl, -⟩ := List.cons.inj hpayload
    exact hclear
  have htail : (lts.restrict fun c label => c.Heeds label.1).Run c₁ labels c := by
    refine (Lts.run_of_trace htrace).restrict ?_
    intro label hlabel c
    have hop : label.1 ∈ labels.map Prod.fst := List.mem_map_of_mem hlabel
    rw [Lts.trace_inputs htrace] at hop
    simp only [List.mem_cons, List.not_mem_nil, or_false] at hop
    rcases hop with hop | hop | hop | hop <;> rw [hop] <;> trivial
  have hrun : (lts.restrict fun c label => c.Heeds label.1).Run c₀
      ((.send .command [1, 1, 1] (some .fastpass) 10, evs) :: labels) c :=
    .cons ⟨hsend, hheeds⟩ htail
  have hlast := List.mem_cons_of_mem (.send .command [1, 1, 1] (some .fastpass) 10, evs)
    (List.mem_of_getLast? hmem)
  exact ⟨c₀, c, _, _, _, _, hstart, hrun, hlast,
    (futures_get_own_answers hstart hrun).2 _ hlast _ List.mem_cons_self⟩

/-- The keep-alive has the id of a write of setting 91.  With that write waiting
behind the gate the keep-alive is refused, and the report on the refusal completes
the future of the write. -/
theorem answered_by_keepAlive :
    ¬∀ c₀ c labels, lts.start c₀ → lts.Run c₀ labels c →
      (∀ id, id ∈ c.pending ↔ c.Awaited id) ∧
        ∀ label ∈ labels, ∀ ev ∈ label.2, OwnAnswer ev := by
  intro h
  obtain ⟨c₀, c, labels, hconnect, htrace, hmem⟩ :
      ∃ c₀ c labels, connect {} 300000 plainCamera 0 = .ok c₀ ∧
        Lts.trace next c₀ [.tick true 0, .send .settings [91, 1, 2] none 10,
          .tick true 3000, .deliver, .deliver] = some (c, labels) ∧
        labels.getLast? = some (.deliver, [.answered ⟨1⟩ ⟨0x15B, .rejected, []⟩
          (.response ⟨0x15B, 2, true⟩ .rejected [])]) :=
    ⟨_, _, _, rfl, rfl, rfl⟩
  obtain ⟨s, outcome, payload, horigin, hnumber, -⟩ :=
    (h c₀ c labels ⟨_, _, _, _, hconnect⟩ (Lts.run_of_trace htrace)).2 _
      (List.mem_of_getLast? hmem) _ List.mem_cons_self
  simp only [SessionEvent.response.injEq] at horigin
  rw [← horigin.1] at hnumber
  exact absurd hnumber (by decide)

/-! ## Turns that break the correspondence at once -/

/-- A future that is entered under an id that is not the session's is awaited by
nobody. -/
theorem misfiled (h : c.Correlated) (hup : c.state = .up) {id : DartInt}
    {own : CorrelationId} (hnew : id ∉ c.pending)
    (hfree : own ∉ c.session.queue.outstanding.map Entry.id) (hother : id ≠ own)
    {payload : Bytes} {priority : Priority} {nowMs : UInt64} {submit : BleSession → Turn}
    (hsubmit : submit c.session = c.session.enqueue own payload priority false nowMs)
    (refusal : DartError) :
    id ∈ (c.enter id submit refusal).1.pending ∧
      ¬(c.enter id submit refusal).1.Awaited id := by
  have hlive : (c.entered id).destroyed = false := h.live hup
  rcases h.sound.toOrderly.enqueue_cases own payload priority false nowMs with
    ⟨htaken, -⟩ | ⟨-, hresult, hreports, howed⟩
  · exact absurd htaken hfree
  · rw [enter_eq, hsubmit, hresult, if_pos rfl]
    refine ⟨?_, ?_⟩
    · rw [call_pending]
      exact AList.mem_insert _ |>.mpr (Or.inl rfl)
    · have hsound : ((c.entered id).call
          (c.session.enqueue own payload priority false nowMs)).session.Sound := by
        rw [call_session hlive]
        exact h.sound.enqueue _ _ _ _ _ (by simp)
      have haccount : ((c.entered id).call
          (c.session.enqueue own payload priority false nowMs)).account id =
          c.account id := by
        rw [call_account _ _ hlive, Turn.ledger, hreports, List.nil_append, howed,
          if_neg hother.symm]
        rfl
      rw [awaited_iff hsound, haccount]
      rintro ⟨r, hr, hstray⟩
      have htracks := h.tracks id
      rw [AList.lookup_eq_none.mpr hnew] at htracks
      exact hstray (htracks r hr)

/-- So is a future that `_resolvePending` takes out while its completion is on the
way. -/
theorem resolved_early (h : c.Correlated) {id : DartInt} (hid : id ∈ c.pending) :
    id ∉ c.resolvePending.1.pending ∧ c.resolvePending.1.Awaited id :=
  ⟨AList.notMem_empty id, (h.mem_pending_iff id).mp hid⟩

end Camera

end GoproNative
