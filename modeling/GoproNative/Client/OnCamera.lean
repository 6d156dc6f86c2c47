import GoproNative.Camera.Futures
import GoproNative.Cohn.Provision

/-!
# A client on its camera

The body of a client runs between the turns of its camera, which others use too.  It waits
for one future at a time.  This module says that the future stands in the table of the
camera until it is completed, and that what it is completed with answers the request that
the body waits for.
-/

namespace GoproNative

/-- What a body waits for at a `sendProtobuf`. -/
inductive Awaited
  | future (f : Completer)
  /-- It threw, or the future is completed; the body has yet to resume. -/
  | over (reply : Except DartError BleResponse)
  deriving DecidableEq

/-- What an event completes a future with. -/
def CameraEvent.completion (f : Completer) : CameraEvent → Option BleResponse
  | answered g r _ => if g = f then some r else none
  | resolved g r => if g = f then some r else none
  | _ => none

def Awaited.hear (evs : List CameraEvent) : Awaited → Awaited
  | .future f =>
      match evs.findSome? (CameraEvent.completion f) with
      | some r => .over (.ok r)
      | none => .future f
  | .over reply => .over reply

structure OnCamera (σ : Type) where
  camera : Camera
  body : σ
  awaited : Option Awaited

inductive OnCameraOp
  /-- A turn of the camera, and of whoever else uses it. -/
  | camera (op : CameraOp)
  /-- The body resumes; `nowMs` is the time that it sends its next request at. -/
  | body (ev : BodyEvent) (nowMs : UInt64)

/-- The event of the body in a turn. -/
def OnCameraOp.event : OnCameraOp → Option BodyEvent
  | camera _ => none
  | body ev _ => some ev

/-- The call of `sendProtobuf` for a request. -/
def ProtobufRequest.op (r : ProtobufRequest) (nowMs : UInt64) : CameraOp :=
  .sendProtobuf r.channel r.featureId r.actionId (r.message.map UInt8.toUInt64) .queued nowMs

namespace OnCamera

variable {σ : Type} (b : Body σ)

/-- The body comes to its next `await`, and sends what it awaits. -/
def ask (c : Camera) (s : σ) (nowMs : UInt64) :
    OnCamera σ × List (CameraOp × List CameraEvent) :=
  match b.awaits s with
  | none => ({ camera := c, body := s, awaited := none }, [])
  | some r =>
      let sent := c.sendProtobuf r.channel r.featureId r.actionId
        (r.message.map UInt8.toUInt64) .queued nowMs
      let awaited :=
        match sent.2 with
        | .ok f => .future f
        | .error e => .over (.error e)
      ({ camera := sent.1, body := s, awaited := some awaited },
        [(r.op nowMs, [Camera.gave sent.2])])

/-- Whether an event is one that the body waits for. -/
def due (awaited : Option Awaited) : BodyEvent → Bool
  | .replied reply _ => awaited = some (.over reply)
  | .woke _ => awaited = none

/-- One turn, with the turns of the camera that it is made of. -/
def next (j : OnCamera σ) :
    OnCameraOp → Option (OnCamera σ × List (CameraOp × List CameraEvent))
  | .camera op =>
      (j.camera.next op).map fun r =>
        ({ j with camera := r.1, awaited := j.awaited.map (Awaited.hear r.2) }, [(op, r.2)])
  | .body ev nowMs =>
      if due j.awaited ev then (b.next j.body ev).map fun s => ask b j.camera s nowMs else none

/-- The runs of a body that begins at some point of a camera's life. -/
def lts : Lts (OnCamera σ) (OnCameraOp × List (CameraOp × List CameraEvent)) :=
  .ofGuarded (fun j => ∃ c s nowMs, Camera.lts.Reachable c ∧ b.start s ∧
    j = (ask b c s nowMs).1) (next b)

variable {b} {j j' : OnCamera σ}

/-! ## What it waits for -/

/-- A reply that answers a request begins with the header of that. -/
def Answers (r : ProtobufRequest) (reply : Except DartError BleResponse) : Prop :=
  ∀ response, reply = .ok response → response.outcome = .responded →
    ∃ rest, response.payload =
      r.featureId.toUInt8 :: protobufResponseAction r.actionId.toUInt8 :: rest

/-- What the body awaits is in the table of the camera, under the id of its request, or is
an answer to that. -/
structure Serves (b : Body σ) (history : List (CameraOp × List CameraEvent))
    (j : OnCamera σ) : Prop where
  future : ∀ f, j.awaited = some (.future f) → ∃ r, b.awaits j.body = some r ∧
    Camera.Asked history r.channel r.featureId r.actionId f ∧ f ∈ j.camera.held
  ended : ∀ reply, j.awaited = some (.over reply) →
    ∃ r, b.awaits j.body = some r ∧ Answers r reply
  idle : j.awaited = none → b.awaits j.body = none

theorem next_cases {op : OnCameraOp} {turns : List (CameraOp × List CameraEvent)}
    (h : next b j op = some (j', turns)) :
    (∃ cop c evs, op = .camera cop ∧ j.camera.next cop = some (c, evs) ∧
      j' = { j with camera := c, awaited := j.awaited.map (Awaited.hear evs) } ∧
      turns = [(cop, evs)]) ∨
    ∃ ev nowMs s, op = .body ev nowMs ∧ due j.awaited ev = true ∧
      b.next j.body ev = some s ∧ j' = (ask b j.camera s nowMs).1 ∧
      turns = (ask b j.camera s nowMs).2 := by
  rcases op with cop | ⟨ev, nowMs⟩
  · rw [next, Option.map_eq_some_iff] at h
    obtain ⟨⟨c, evs⟩, hnext, heq⟩ := h
    obtain ⟨rfl, rfl⟩ := Prod.mk.inj heq
    exact Or.inl ⟨cop, c, evs, rfl, hnext, rfl, rfl⟩
  · rw [next, Option.ite_none_right_eq_some, Option.map_eq_some_iff] at h
    obtain ⟨hdue, s, hnext, heq⟩ := h
    obtain ⟨rfl, rfl⟩ := Prod.mk.inj heq
    exact Or.inr ⟨ev, nowMs, s, rfl, hdue, hnext, rfl, rfl⟩

/-- The turns of the camera that a body makes as it sends. -/
theorem ask_run (c : Camera) (s : σ) (nowMs : UInt64) :
    Camera.lts.Run c (ask b c s nowMs).2 (ask b c s nowMs).1.camera := by
  rw [ask]
  split
  · exact .nil c
  · exact .single rfl

theorem ask_body (c : Camera) (s : σ) (nowMs : UInt64) : (ask b c s nowMs).1.body = s := by
  rw [ask]
  split <;> rfl

theorem Answers.error (r : ProtobufRequest) (e : DartError) : Answers r (.error e) := by
  intro response h
  simp at h

/-- Behind `ask` the body is served. -/
theorem serves_ask {history : List (CameraOp × List CameraEvent)} {c : Camera}
    (hlive : c.state = .up → c.destroyed = false) (s : σ) (nowMs : UInt64) :
    Serves b (history ++ (ask b c s nowMs).2) (ask b c s nowMs).1 := by
  rw [ask]
  split
  · next hnone => exact ⟨nofun, nofun, fun _ => hnone⟩
  · next r hr =>
    rcases hsent : c.sendProtobuf r.channel r.featureId r.actionId
      (r.message.map UInt8.toUInt64) .queued nowMs with ⟨c', e | f⟩
    · refine ⟨nofun, ?_, nofun⟩
      intro reply hover
      obtain rfl := Awaited.over.inj (Option.some.inj hover)
      exact ⟨r, hr, .error r e⟩
    · refine ⟨?_, nofun, nofun⟩
      intro g hfuture
      obtain rfl := Awaited.future.inj (Option.some.inj hfuture)
      refine ⟨r, hr, ⟨_, _, _, List.mem_append_right _ List.mem_cons_self⟩, ?_⟩
      rcases Camera.sendProtobuf_gives hlive hsent with
        ⟨hok, -, -, henters, -⟩ | ⟨⟨e, herror⟩, -⟩
      · apply Camera.mem_held.mpr
        refine ⟨BleBindings.protobufCorrelation r.channel r.featureId r.actionId, ?_⟩
        rw [Except.ok.inj hok]
        change c'.pending.lookup _ = _
        rw [henters]
        exact AList.lookup_insert _
      · simp at herror

/-- A turn of the camera that does not complete a future keeps it in the table. -/
theorem held_of_unheard {c c' : Camera} {evs : List CameraEvent} {f : Completer}
    (hsettles : c.Settles evs c') (hf : f ∈ c.held)
    (hnone : evs.findSome? (CameraEvent.completion f) = none) : f ∈ c'.held := by
  have hmem : f ∈ Camera.completedBy evs + c'.held := by
    rw [← hsettles.balanced]
    exact Multiset.mem_add.mpr (Or.inl hf)
  rcases Multiset.mem_add.mp hmem with hcompleted | hheld
  · exfalso
    obtain ⟨ev, hev, hsome⟩ := List.mem_filterMap.mp hcompleted
    have hev := List.findSome?_eq_none_iff.mp hnone ev hev
    cases ev with
    | answered g r origin =>
        obtain rfl := Option.some.inj hsome
        simp [CameraEvent.completion] at hev
    | resolved g r =>
        obtain rfl := Option.some.inj hsome
        simp [CameraEvent.completion] at hev
    | _ => simp [CameraEvent.completed] at hsome
  · exact hheld

/-- What completes a future answers the request that it was given for. -/
theorem answers_of_heard {history : List (CameraOp × List CameraEvent)} {c c' : Camera}
    {op : CameraOp} {evs : List CameraEvent} {r : ProtobufRequest} {f : Completer}
    {response : BleResponse} (hposts : c.Posts) (hfiled : Camera.Filed history c)
    (hasked : Camera.Asked history r.channel r.featureId r.actionId f)
    (hnext : c.next op = some (c', evs))
    (hsome : evs.findSome? (CameraEvent.completion f) = some response) :
    Answers r (.ok response) := by
  intro response' heq hresponded
  obtain rfl := Except.ok.inj heq
  obtain ⟨ev, hev, hcompletion⟩ := List.exists_of_findSome?_eq_some hsome
  cases ev with
  | answered g r' origin =>
      rw [CameraEvent.completion, Option.ite_none_right_eq_some] at hcompletion
      obtain ⟨rfl, hr⟩ := hcompletion
      obtain rfl := Option.some.inj hr
      exact Camera.header_of_answered hposts hfiled hasked hnext hev hresponded
  | resolved g r' =>
      rw [CameraEvent.completion, Option.ite_none_right_eq_some] at hcompletion
      obtain ⟨rfl, hr⟩ := hcompletion
      obtain rfl := Option.some.inj hr
      have hcanceled := Camera.canceled_of_resolved hnext hev
      exact absurd (hresponded.symm.trans hcanceled) (by simp)
  | _ => simp [CameraEvent.completion] at hcompletion

theorem Serves.camera {history : List (CameraOp × List CameraEvent)} (h : Serves b history j)
    {op : CameraOp} {c : Camera} {evs : List CameraEvent} (hposts : j.camera.Posts)
    (hfiled : Camera.Filed history j.camera)
    (hlive : j.camera.state = .up → j.camera.destroyed = false)
    (hnext : j.camera.next op = some (c, evs)) :
    Serves b (history ++ [(op, evs)])
      { j with camera := c, awaited := j.awaited.map (Awaited.hear evs) } := by
  rcases hawaited : j.awaited with _ | (f | reply)
  · exact ⟨nofun, nofun, fun _ => h.idle hawaited⟩
  · obtain ⟨r, hr, hasked, hheld⟩ := h.future f hawaited
    rw [Option.map_some, Awaited.hear]
    rcases hheard : evs.findSome? (CameraEvent.completion f) with _ | response
    · refine ⟨?_, nofun, nofun⟩
      intro g hfuture
      obtain rfl := Awaited.future.inj (Option.some.inj hfuture)
      obtain ⟨message, priority, nowMs, hmem⟩ := hasked
      exact ⟨r, hr, ⟨message, priority, nowMs, List.mem_append_left _ hmem⟩,
        held_of_unheard (Camera.next_settles hlive hnext) hheld hheard⟩
    · refine ⟨nofun, ?_, nofun⟩
      intro reply hover
      obtain rfl := Awaited.over.inj (Option.some.inj hover)
      exact ⟨r, hr, answers_of_heard hposts hfiled hasked hnext hheard⟩
  · refine ⟨nofun, ?_, nofun⟩
    intro reply' hover
    obtain rfl := Awaited.over.inj (Option.some.inj hover)
    exact h.ended _ hawaited

theorem served (hreach : (lts b).Reachable j) :
    ∃ c₀ history, Camera.lts.start c₀ ∧ Camera.lts.Run c₀ history j.camera ∧
      Serves b history j := by
  obtain ⟨j₀, labels, ⟨c, s, nowMs, ⟨c₀, before, hstart, hbefore⟩, -, rfl⟩, hrun⟩ := hreach
  refine hrun.invariant (I := fun j => ∃ c₀ history, Camera.lts.start c₀ ∧
    Camera.lts.Run c₀ history j.camera ∧ Serves b history j) ?_ ?_
  · have hlive := Camera.live_of_staged (Camera.staged ⟨c₀, before, hstart, hbefore⟩)
    exact ⟨c₀, _, hstart, hbefore.append (ask_run c s nowMs), serves_ask hlive s nowMs⟩
  · rintro j ⟨op, turns⟩ j' ⟨c₀, history, hstart, hhistory, hserves⟩ hstep
    obtain ⟨hreached, hposts, hfiled⟩ := Camera.filed hstart hhistory
    have hlive := Camera.live_of_staged (Camera.staged hreached)
    rcases next_cases hstep with
      ⟨cop, c, evs, -, hnext, rfl, -⟩ | ⟨ev, nowMs, s, -, -, -, rfl, -⟩
    · exact ⟨c₀, _, hstart, hhistory.snoc (a := (cop, evs)) hnext, hserves.camera hposts hfiled hlive hnext⟩
    · exact ⟨c₀, _, hstart, hhistory.append (ask_run j.camera s nowMs),
        serves_ask hlive s nowMs⟩

/-- A turn of the body answers what it waits for. -/
theorem Serves.replied {history : List (CameraOp × List CameraEvent)} (h : Serves b history j)
    {ev : BodyEvent} (hdue : due j.awaited ev = true) {r : ProtobufRequest}
    (hr : b.awaits j.body = some r) : ∃ reply now, ev = .replied reply now ∧ Answers r reply := by
  rcases ev with ⟨reply, now⟩ | now
  · obtain ⟨r', hr', hanswers⟩ := h.ended reply (of_decide_eq_true hdue)
    obtain rfl := Option.some.inj (hr.symm.trans hr')
    exact ⟨reply, now, rfl, hanswers⟩
  · have hnone := h.idle (of_decide_eq_true hdue)
    rw [hr] at hnone
    simp at hnone

/-- Whatever becomes of the camera and whoever else uses it: while a body waits for a future
the camera is not destroyed, and holds the future under the id of the request; and what the
body resumes with answers that. -/
theorem never_waits_in_vain (hreach : (lts b).Reachable j) :
    (∀ f, j.awaited = some (.future f) → j.camera.destroyed = false ∧
      ∃ r, b.awaits j.body = some r ∧ j.camera.pending.lookup
        (BleBindings.protobufCorrelation r.channel r.featureId r.actionId) = some f) ∧
    ∀ ev nowMs j' turns, next b j (.body ev nowMs) = some (j', turns) →
      ∀ r, b.awaits j.body = some r →
        ∃ reply now, ev = .replied reply now ∧ Answers r reply := by
  obtain ⟨c₀, history, hstart, hrun, hserves⟩ := served hreach
  refine ⟨?_, ?_⟩
  · intro f hf
    obtain ⟨r, hr, hasked, hheld⟩ := hserves.future f hf
    obtain ⟨-, -, hfiled⟩ := Camera.filed hstart hrun
    obtain ⟨-, hempty⟩ := Camera.accounted hstart hrun
    refine ⟨?_, r, hr, ?_⟩
    · by_contra hdestroyed
      rw [hempty (eq_true_of_ne_false hdestroyed)] at hheld
      exact Multiset.notMem_zero f hheld
    · obtain ⟨id, hlookup⟩ := Camera.mem_held.mp hheld
      rw [← (hfiled.filed hasked).2 id hlookup]
      exact hlookup
  · intro ev nowMs j' turns hnext r hr
    rcases next_cases hnext with ⟨_, _, _, hop, -⟩ | ⟨_, _, _, hop, hdue, -⟩
    · simp at hop
    · obtain ⟨rfl, rfl⟩ := OnCameraOp.body.inj hop
      exact hserves.replied hdue hr

/-- The camera created the certificate. -/
def created : BleResponse :=
  ⟨BleBindings.protobufCorrelation .command 0xF1 0x67, .responded, [0xF1, 0xE7, 8, 1]⟩

/-- A provisioning that begins as its camera does, up to that. -/
theorem run_created : ∃ j₀ j labels,
    (lts (CohnClient.provision CohnClient.lateProtobuf {})).start j₀ ∧
      (lts (CohnClient.provision CohnClient.lateProtobuf {})).Run j₀ labels j ∧
      j.body = .creating 0 ∧ j.awaited = some (.over (.ok created)) := by
  obtain ⟨c, j, labels, hconnect, htrace, hbody, hawaited⟩ : ∃ c j labels,
      Camera.connect {} 300000 plainCamera 0 = .ok c ∧
        Lts.trace (next (CohnClient.provision CohnClient.lateProtobuf {}))
          (ask (CohnClient.provision CohnClient.lateProtobuf {}) c (.creating 0) 5).1
          [.camera .deliver,
            .camera (.notification .query [8, 0x13, 0, 8, 1, 0, 10, 1, 0] 10),
            .camera .deliver, .camera .deliver, .camera .deliver,
            .camera (.notification .command [4, 0xF1, 0xE7, 8, 1] 20),
            .camera .deliver] = some (j, labels) ∧
        j.body = .creating 0 ∧ j.awaited = some (.over (.ok created)) :=
    ⟨_, _, _, rfl, rfl, rfl, rfl⟩
  have hreach : Camera.lts.Reachable c := .of_start ⟨_, _, _, _, hconnect⟩
  exact ⟨_, j, labels, ⟨c, _, _, hreach, ⟨0, rfl⟩, rfl⟩, Lts.run_of_trace htrace, hbody, hawaited⟩

/-- The body resumes with that. -/
theorem never_waits_in_vain_created : ∃ j,
    (lts (CohnClient.provision CohnClient.lateProtobuf {})).Reachable j ∧
      j.awaited = some (.over (.ok created)) ∧
      Answers (CohnClient.create CohnClient.lateProtobuf false).request (.ok created) := by
  obtain ⟨j₀, j, labels, hstart, hrun, hbody, hawaited⟩ := run_created
  have hresumes : ∃ s, (CohnClient.provision CohnClient.lateProtobuf {}).next j.body
      (.replied (.ok created) 25) = some s := by
    rw [hbody]
    exact ⟨_, rfl⟩
  obtain ⟨s, hs⟩ := hresumes
  have hnext : next (CohnClient.provision CohnClient.lateProtobuf {}) j
      (.body (.replied (.ok created) 25) 30) =
        some (ask (CohnClient.provision CohnClient.lateProtobuf {}) j.camera s 30) := by
    rw [next, due, hawaited, if_pos (decide_eq_true rfl), hs]
    rfl
  obtain ⟨reply, now, heq, hanswers⟩ :=
    (never_waits_in_vain ⟨j₀, labels, hstart, hrun⟩).2 _ _ _ _ hnext _ (congrArg _ hbody)
  obtain ⟨rfl, -⟩ := BodyEvent.replied.inj heq
  exact ⟨j, ⟨j₀, labels, hstart, hrun⟩, hawaited, hanswers⟩

/-! ## What the body does -/

/-- A run on a camera is one of the body. -/
theorem body_run {labels : List (OnCameraOp × List (CameraOp × List CameraEvent))}
    (hrun : (lts b).Run j labels j') :
    ∃ turns, b.lts.Run j.body turns j'.body ∧
      Body.events turns = labels.filterMap fun label => label.1.event := by
  refine hrun.history (I := fun labels j' => ∃ turns, b.lts.Run j.body turns j'.body ∧
    Body.events turns = labels.filterMap fun label => label.1.event)
    ⟨[], .nil j.body, rfl⟩ ?_
  rintro labels j' ⟨op, turns'⟩ j'' ⟨turns, hturns, hevents⟩ hstep
  rw [List.filterMap_append, ← hevents]
  rcases next_cases hstep with
    ⟨cop, c, evs, rfl, -, rfl, -⟩ | ⟨ev, nowMs, s, rfl, -, hnext, rfl, -⟩
  · exact ⟨turns, hturns, (List.append_nil _).symm⟩
  · rw [ask_body]
    refine ⟨turns ++ [(ev, b.awaits s)], hturns.snoc (Body.step_iff.mpr ⟨hnext, rfl⟩), ?_⟩
    rw [Body.events, List.map_append]
    rfl

/-- What the body keeps as long as its requests are answered holds of it on a camera. -/
theorem body_invariant {I : σ → Prop} (hstart : ∀ s, b.start s → I s)
    (hnext : ∀ s ev s', I s → (∀ r, b.awaits s = some r →
      ∃ reply now, ev = .replied reply now ∧ Answers r reply) → b.next s ev = some s' → I s')
    (hreach : (lts b).Reachable j) : I j.body := by
  refine hreach.invariant (I := fun j => I j.body) ?_ ?_
  · rintro _ ⟨c, s, nowMs, -, hs, rfl⟩
    rw [ask_body]
    exact hstart s hs
  · rintro j ⟨op, turns⟩ j' hj hI hstep
    obtain ⟨_, _, _, _, hserves⟩ := served hj
    rcases next_cases hstep with ⟨_, _, _, -, -, rfl, -⟩ | ⟨ev, _, s, -, hdue, hbody, rfl, -⟩
    · exact hI
    · rw [ask_body]
      exact hnext _ ev _ hI (fun r hr => hserves.replied hdue hr) hbody

end OnCamera

/-! ## The first two bytes -/

open OnCamera (Answers)

theorem OnCamera.Answers.length {r : ProtobufRequest} {response : BleResponse}
    (h : Answers r (.ok response)) (hresponded : response.outcome = .responded) :
    2 ≤ response.payload.length := by
  obtain ⟨rest, hpayload⟩ := h response rfl hresponded
  rw [hpayload]
  exact Nat.le_add_left 2 rest.length

namespace CohnClient

variable {pb : CohnProtobuf} {a : ProvisionArguments}

/-- What answers the request of a call has the bytes that the call takes off. -/
def Call.InRange {α : Type} (call : Call α) : Prop :=
  ∀ reply, Answers call.request reply → call.receive reply ≠ .error .rangeError

theorem send_inRange (feature : DartInt) (channel : Channel) (action : DartInt) (body : Bytes)
    (what : String) : (send feature channel action body what).InRange := by
  intro reply hanswers
  rcases reply with e | response
  · simp [send]
  · simp only [send]
    split
    · simp
    · next hresponded =>
      have hlength := hanswers.length (not_not.mp hresponded)
      rw [if_neg (Nat.not_lt.mpr hlength)]
      simp

theorem Call.InRange.andThen {α β : Type} {call : Call α} {f : α → Except CohnError β}
    (h : call.InRange) (hf : ∀ x, f x ≠ .error .rangeError) : (call.andThen f).InRange := by
  intro reply hanswers
  have hcall := h reply hanswers
  change (call.receive reply).bind f ≠ _
  rcases hreceive : call.receive reply with e | x
  · rw [hreceive] at hcall
    intro heq
    exact hcall (congrArg Except.error (Except.error.inj heq))
  · exact hf x

theorem command_inRange (action : DartInt) (message : CohnMessage) (what : String) :
    (command pb action message what).InRange := by
  apply (send_inRange _ _ _ _ _).andThen
  intro reply
  split
  · simp
  · split
    · simp
    · split <;> simp

theorem status_inRange (register : Bool) : (status pb register).InRange := by
  apply (send_inRange _ _ _ _ _).andThen
  intro reply
  split <;> simp

theorem certificate_inRange : (certificate pb).InRange := by
  apply (send_inRange _ _ _ _ _).andThen
  intro reply
  split
  · simp
  · split
    · simp
    · split <;> simp

theorem behind_inRange {α : Type} {call : Call α} (h : call.InRange)
    {reply : Except DartError BleResponse} (hanswers : Answers call.request reply)
    {k : α → Provision} (hk : ∀ x, k x ≠ .finished (.error .rangeError)) :
    behind call reply k ≠ .finished (.error .rangeError) := by
  have hreceive := h reply hanswers
  rw [behind]
  split
  · next e heq =>
    rw [heq] at hreceive
    intro hfinished
    exact hreceive (congrArg Except.error (Except.error.inj (Provision.finished.inj hfinished)))
  · next x heq => exact hk x

theorem whileInTime_inRange (a : ProvisionArguments) (start now : Int) :
    whileInTime a start now ≠ .finished (.error .rangeError) := by
  rw [whileInTime]
  split <;> simp [timedOut]

theorem heedStatus_inRange (start : Int) (s : NotifyCOHNStatus) :
    heedStatus start s ≠ .finished (.error .rangeError) := by
  rw [heedStatus]
  split
  · split <;> simp [noCredentials]
  · simp

/-- On any camera, over drops, a close and whatever others send: `provision` runs as it does
by itself, and no `sublist` of it fails. -/
theorem provision_in_range {j₀ j : OnCamera Provision}
    {labels : List (OnCameraOp × List (CameraOp × List CameraEvent))}
    (hstart : (OnCamera.lts (provision pb a)).start j₀)
    (hrun : (OnCamera.lts (provision pb a)).Run j₀ labels j) :
    (∃ turns, (provision pb a).lts.Run j₀.body turns j.body ∧
      Body.events turns = labels.filterMap fun label => label.1.event) ∧
    j.body ≠ .finished (.error .rangeError) := by
  refine ⟨OnCamera.body_run hrun, ?_⟩
  refine OnCamera.body_invariant (I := fun p => p ≠ .finished (.error .rangeError)) ?_ ?_
    ⟨j₀, labels, hstart, hrun⟩
  · rintro _ ⟨start, rfl⟩
    simp
  · intro p ev p' hp hanswered hnext
    rcases p with start | start | start | start | s | r
    · obtain ⟨reply, now, rfl, hanswers⟩ := hanswered _ rfl
      obtain rfl := Option.some.inj hnext
      exact behind_inRange (command_inRange _ _ _) hanswers (by simp)
    · obtain ⟨reply, now, rfl, hanswers⟩ := hanswered _ rfl
      obtain rfl := Option.some.inj hnext
      exact behind_inRange (command_inRange _ _ _) hanswers fun _ =>
        whileInTime_inRange a start now
    · obtain ⟨reply, now, rfl, hanswers⟩ := hanswered _ rfl
      obtain rfl := Option.some.inj hnext
      exact behind_inRange (status_inRange false) hanswers (heedStatus_inRange start)
    · rcases ev with ⟨reply, now⟩ | now
      · simp [provision, provisionNext] at hnext
      · obtain rfl := Option.some.inj hnext
        exact whileInTime_inRange a start now
    · obtain ⟨reply, now, rfl, hanswers⟩ := hanswered _ rfl
      obtain rfl := Option.some.inj hnext
      exact behind_inRange certificate_inRange hanswers (by simp)
    · simp [provision, provisionNext] at hnext

/-- A provisioning whose certificate the camera creates. -/
theorem provision_in_range_created : ∃ j₀ j labels turns,
    (OnCamera.lts (provision lateProtobuf {})).Run j₀ labels j ∧
      (provision lateProtobuf {}).lts.Run j₀.body turns j.body ∧
      j.body ≠ .finished (.error .rangeError) := by
  obtain ⟨j₀, j, labels, hstart, hrun, -, -⟩ := OnCamera.run_created
  obtain ⟨⟨turns, hturns, -⟩, hbody⟩ := provision_in_range hstart hrun
  exact ⟨j₀, j, labels, turns, hrun, hturns, hbody⟩

end CohnClient

namespace LivestreamClient

variable {message : Bytes} {fromBuffer : Bytes → Option NotifyLiveStreamStatus} {timeout : Int}

theorem receiveStatus_inRange {reply : Except DartError BleResponse}
    (hanswers : Answers (statusRequest message) reply) :
    receiveStatus fromBuffer reply ≠ .error .rangeError := by
  rcases reply with e | response
  · simp [receiveStatus]
  · simp only [receiveStatus]
    split
    · simp
    · next hresponded =>
      have hlength := hanswers.length (not_not.mp hresponded)
      rw [if_neg (Nat.not_lt.mpr hlength)]
      split <;> simp

theorem heedStatus_inRange {s : NotifyLiveStreamStatus}
    {r : Except LivestreamError NotifyLiveStreamStatus} (h : heedStatus s = some r) :
    r ≠ .error .rangeError := by
  rw [heedStatus] at h
  rintro rfl
  split at h
  · simp at h
  · split at h
    · simp at h
    · split at h <;> simp at h

/-- Nor does that of `waitUntilReady`. -/
theorem waitUntilReady_in_range {j : OnCamera Waiting}
    (hreach : (OnCamera.lts (waitUntilReady message fromBuffer timeout)).Reachable j) :
    j.body ≠ .finished (.error .rangeError) := by
  refine OnCamera.body_invariant (I := fun w => w ≠ .finished (.error .rangeError)) ?_ ?_ hreach
  · rintro _ ⟨start, now, rfl⟩
    rw [whileInTime]
    split <;> simp [timedOut]
  · intro w ev w' hw hanswered hnext
    rcases w with start | start | r
    · obtain ⟨reply, now, rfl, hanswers⟩ := hanswered _ rfl
      obtain rfl := Option.some.inj hnext
      have hreceive : receiveStatus fromBuffer reply ≠ .error .rangeError :=
        receiveStatus_inRange hanswers
      split
      · next e heq =>
        rw [heq] at hreceive
        intro hfinished
        exact hreceive (congrArg Except.error (Except.error.inj (Waiting.finished.inj hfinished)))
      · next s heq =>
        split
        · next r hheed =>
          intro hfinished
          exact heedStatus_inRange hheed (Waiting.finished.inj hfinished)
        · simp
    · rcases ev with ⟨reply, now⟩ | now
      · simp [waitUntilReady, waitNext] at hnext
      · obtain rfl := Option.some.inj hnext
        rw [whileInTime]
        split <;> simp [timedOut]
    · simp [waitUntilReady, waitNext] at hnext

end LivestreamClient

end GoproNative
