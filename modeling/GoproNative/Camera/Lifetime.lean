import GoproNative.Camera.Phases

/-!
# Handles and streams

A camera owns two native handles and four stream controllers, and `close` destroys
them.  This module says which of them a turn touches without asking first, and which
runs touch only what is still there.

An `add` behind an `isClosed` guard does not count as a touch.  The passes that
`_bringUp` makes while it climbs, and the getter `ready`, change nothing a turn reads,
but they touch handles: they are steps of their own here.
-/

namespace GoproNative

/-- What `close` takes away. -/
inductive Resource
  /-- `_session`. -/
  | session
  /-- `_link`. -/
  | link
  | stream (stream : CameraStream)
  deriving DecidableEq

namespace Camera

/-- Whether a resource is neither destroyed nor closed. -/
def Live (c : Camera) : Resource → Prop
  | .session => c.destroyed = false
  | .link => c.linkDestroyed = false
  | .stream stream => stream ∉ c.closedStreams

instance (c : Camera) : DecidablePred c.Live
  | .session => inferInstanceAs (Decidable (_ = _))
  | .link => inferInstanceAs (Decidable (_ = _))
  | .stream _ => inferInstanceAs (Decidable (_ ∉ _))

/-! ## What a turn touches -/

/-- `send` on an id: the session, behind the checks. -/
def sendUses (c : Camera) (channel : Channel) : List DartInt → List Resource
  | [] => []
  | b :: _ =>
      if c.state ≠ .up ∨ BleCodec.correlationOf channel b ∈ c.pending then []
      else [.session]

def sendProtobufUses (c : Camera) (channel : Channel) (featureId actionId : DartInt) :
    List Resource :=
  if c.state ≠ .up ∨
      BleBindings.protobufCorrelation channel featureId actionId ∈ c.pending then []
  else [.session]

/-- `close`, up to its first `await`. -/
def closeUses (c : Camera) : List Resource :=
  if c.state ≠ .down ∧ c.watch = [] then [.session] else []

/-- `_onDrop`, up to its first `await`. -/
def dropUses (c : Camera) : List Resource :=
  if c.state ≠ .up then []
  else if c.reconnectTimeoutMs = 0 then .stream .faults :: c.closeUses
  else [.stream .faults, .session]

/-- The `catch` of `_onDrop`. -/
def giveUpUses (c : Camera) : List Resource := .stream .faults :: c.closeUses

/-- `_attach`. -/
def attachUses (c : Camera) (a : Attached) : List Resource :=
  (if 3 < leastMtu a.notifies then [.session] else []) ++
    (c.bind a).sendUses .query [0x13, kBusyStatusId, kEncodingStatusId]

/-- `close`, from one `await` to the next. -/
def resumeUses (c : Camera) (ok : Bool) : List Resource :=
  match c.closing with
  | some .unwatching => if ok then [.session] else []
  | some .draining => [.session, .link]
  | _ => []

/-- What a turn calls with a handle, or adds to a stream without a guard. -/
def uses (c : Camera) : CameraOp → List Resource
  | .send channel payload _ _ => c.sendUses channel payload
  | .sendProtobuf channel featureId actionId _ _ _ =>
      c.sendProtobufUses channel featureId actionId
  | .close => c.closeUses
  | .notification _ bytes _ => if bytes = [] then [] else [.session]
  | .deliver => []
  | .tick connected _ => .session :: if connected = false then c.dropUses else []
  | .propertiesChanged _ mentionsConnected connected =>
      if mentionsConnected ∧ connected = false then c.dropUses else []
  | .deviceRemoved device objectPath =>
      if objectPath = device.objectPath then c.dropUses else []
  -- `_bringUp` makes its first pass in the turn that calls it.
  | .dropDetached ok => if ok then [.link] else []
  | .broughtUp (.error _) _ => c.giveUpUses
  | .broughtUp (.ok a) _ => c.attachUses a
  | .attachAwaited =>
      if c.dropping = some (.attaching none) then [] else c.giveUpUses
  | .closeResumed ok => c.resumeUses ok

/-! ## Runs -/

inductive LifeOp
  | turn (op : CameraOp)
  /-- A pass of `_bringUp`, which calls `linkUpdate` or `linkNoteFailure`. -/
  | climbPass
  /-- The getter `ready`. -/
  | ready

/-- A touch of a resource, and whether the resource was live. -/
abbrev Use := Resource × Bool

def touch (c : Camera) (resources : List Resource) : List Use :=
  resources.map fun r => (r, decide (c.Live r))

def lifeNext (c : Camera) : LifeOp → Option (Camera × List Use)
  | .turn op => (c.next op).map fun r => (r.1, c.touch (c.uses op))
  | .climbPass =>
      if c.dropping = some .climbing then some (c, c.touch [.link]) else none
  | .ready => some (c, c.touch (if c.state = .up then [.session] else []))

/-- All runs of a camera that `connect` returned, with what they touch. -/
def lifeLts : Lts Camera (LifeOp × List Use) := .ofGuarded lts.start lifeNext

/-- Nothing was destroyed or closed yet when it was touched. -/
def TouchesLive (labels : List (LifeOp × List Use)) : Prop :=
  ∀ label ∈ labels, ∀ use ∈ label.2, use.2 = true

/-- When `close` comes to destroy the handles, the body of `_onDrop` has come to its
end and no listener of notifications is left. -/
def Tidy (c : Camera) (label : LifeOp × List Use) : Prop :=
  ∀ ok, label.1 = .turn (.closeResumed ok) → c.closing = some .draining →
    c.dropping = none ∧ c.subs = []

variable {c c' : Camera}

/-! ## What a turn leaves -/

/-- The turns, up to what they leave in the session, the port and the table of
futures. -/
inductive Shifts (c : Camera) : CameraOp → Camera → Prop
  | rest (op : CameraOp) (session : BleSession) (port : List Posted)
      (pending : DartMap DartInt Completer) :
      Shifts c op { c with session := session, port := port, pending := pending }
  | close : Shifts c .close c.close.1
  | drop (op : CameraOp) (session : BleSession) (port : List Posted) (why : String) :
      Shifts c op (onDrop { c with session := session, port := port } why).1
  | detached : c.dropping = some .detaching →
      Shifts c (.dropDetached true)
        { c with
          subs := [], writes := ∅, notifies := ∅, pending := ∅
          dropping := some .climbing }
  | stalled : c.dropping = some .detaching →
      Shifts c (.dropDetached false) { c with dropping := none }
  | attached (op : CameraOp) (failure : Option DartError) (device : BlueZDevice)
      (writes notifies : DartMap Channel BlueZGattCharacteristic) (subs : List Channel)
      (session : BleSession) (port : List Posted) (pending : DartMap DartInt Completer)
      (watch : List Watch) :
      c.dropping = some .climbing →
      Shifts c op
        { c with
          device := device, writes := writes, notifies := notifies, subs := subs
          session := session, port := port, pending := pending, watch := watch
          dropping := some (.attaching failure) }
  | gaveUp (op : CameraOp) (e : DartError) : c.dropping ≠ none →
      Shifts c op (c.giveUp e).1
  | finished : c.dropping = some (.attaching none) →
      Shifts c .attachAwaited (setState { c with dropping := none } .up).1
  | closing (ok : Bool) (c' : Camera) (evs : List CameraEvent) :
      c.resumeClose ok = some (c', evs) → Shifts c (.closeResumed ok) c'

theorem next_shifts {op : CameraOp} {evs : List CameraEvent}
    (h : c.next op = some (c', evs)) : Shifts c op c' := by
  cases next_turns h with
  | send channel payload priority nowMs =>
      obtain ⟨session, port, pending, hframe⟩ := send_frame c channel payload priority nowMs
      rw [hframe]
      exact .rest _ session port pending
  | sendProtobuf channel featureId actionId message priority nowMs =>
      obtain ⟨session, port, pending, hframe⟩ :=
        sendProtobuf_frame c channel featureId actionId message priority nowMs
      rw [hframe]
      exact .rest _ session port pending
  | close => exact .close
  | fed channel bytes nowMs =>
      obtain ⟨session, port, hframe⟩ :=
        call_frame c (BleBindings.feed c.session channel bytes nowMs)
      rw [hframe]
      exact .rest _ session port c.pending
  | skipped m port hport hnone => exact .rest _ c.session port c.pending
  | heard m port ev hport hsome =>
      obtain ⟨pending, hframe⟩ := onEvent_frame { c with port := port } m.origin ev
      rw [hframe]
      exact .rest _ c.session port pending
  | ticked connected nowMs hquiet =>
      obtain ⟨session, port, hframe⟩ := call_frame c (c.session.tick nowMs)
      rw [hframe]
      exact .rest _ session port c.pending
  | tickedDown connected nowMs why =>
      obtain ⟨session, port, hframe⟩ := call_frame c (c.session.tick nowMs)
      rw [hframe]
      exact .drop _ session port why
  | ignored op hother => exact .rest _ c.session c.port c.pending
  | noticed op why => exact .drop _ c.session c.port why
  | detached hstage => exact .detached hstage
  | stalled hstage => exact .stalled hstage
  | attached a nowMs d f hstage hattach =>
      obtain ⟨_, _, _, _, _, _, _, _, hframe⟩ := attach_frame c a nowMs
      rw [hattach] at hframe
      obtain rfl : d = _ := hframe
      exact .attached _ none _ _ _ _ _ _ _ _ hstage
  | refused a nowMs d e hstage hattach =>
      obtain ⟨_, _, _, _, _, _, _, _, hframe⟩ := attach_frame c a nowMs
      rw [hattach] at hframe
      obtain rfl : d = _ := hframe
      exact .attached _ (some e) _ _ _ _ _ _ _ _ hstage
  | gaveUp op e hstage => exact .gaveUp op e hstage
  | finished hstage => exact .finished hstage
  | closing ok c' evs hresume => exact .closing ok c' evs hresume

/-! ## Every run -/

/-- What is destroyed or closed is so from the end of `close` on. -/
structure Kept (c : Camera) : Prop where
  staged : Staged c.phase
  ticker : c.state = .down → c.ticker = false
  closing : ∀ rest, c.closing = some (.closingStreams rest) → c.destroyed = true
  whole : c.destroyed = false → c.linkDestroyed = false ∧ c.closedStreams = []

theorem Kept.congr {d : Camera} (h : c.Kept) (hstaged : Staged d.phase)
    (hstate : d.state = c.state) (hticker : d.ticker = c.ticker)
    (hclosing : d.closing = c.closing) (hdestroyed : d.destroyed = c.destroyed)
    (hlink : d.linkDestroyed = c.linkDestroyed)
    (hstreams : d.closedStreams = c.closedStreams) : d.Kept := by
  refine ⟨hstaged, ?_, ?_, ?_⟩
  · rw [hstate, hticker]
    exact h.ticker
  · rw [hclosing, hdestroyed]
    exact h.closing
  · rw [hdestroyed, hlink, hstreams]
    exact h.whole

theorem Kept.close (h : c.Kept) : c.close.1.Kept := by
  have hstaged := h.staged.moves (close_moves c)
  by_cases hdown : c.state = .down
  · rw [close_of_down hdown]
    exact h
  · obtain ⟨writes, notifies, session, port, watch, stage, hstage, hframe⟩ :=
      close_frame hdown
    rw [hframe] at hstaged ⊢
    refine ⟨hstaged, fun _ => rfl, ?_, h.whole⟩
    intro rest hrest
    exact absurd (Option.some.inj hrest) (hstage rest)

theorem Kept.giveUp (h : c.Kept) (hstaged : Staged (phase { c with dropping := none }))
    (e : DartError) : (c.giveUp e).1.Kept :=
  Kept.close (c := { c with dropping := none }) (h.congr hstaged rfl rfl rfl rfl rfl rfl)

theorem Kept.onDrop (h : c.Kept) (why : String) : (c.onDrop why).1.Kept := by
  have hstaged := h.staged.moves (onDrop_moves c why)
  rcases c.onDrop_cases why with ⟨-, heq⟩ | ⟨-, -, heq⟩ | ⟨hup, -, heq⟩
  · rw [heq]
    exact h
  · rw [heq]
    exact h.close
  · obtain ⟨session, port, hframe⟩ := dropped_frame c
    rw [heq, hframe] at hstaged ⊢
    exact ⟨hstaged, by simp, h.closing, h.whole⟩

theorem Kept.resumeClose (h : c.Kept) {ok : Bool} {evs : List CameraEvent}
    (hresume : c.resumeClose ok = some (c', evs)) : c'.Kept := by
  have hstaged := h.staged.moves (resumeClose_moves hresume)
  rcases resumeClose_cases hresume with ⟨hstage, rfl, -⟩ | ⟨hstage, rfl, -⟩ |
    ⟨hstage, -, rfl⟩ | ⟨hstage, rfl, -⟩ |
    ⟨streams, closed, closing, hstage, hclosing, rfl, -⟩
  · obtain ⟨session, hframe⟩ := drained_frame c
    rw [hframe] at hstaged ⊢
    exact ⟨hstaged, h.ticker, fun _ _ => rfl, by simp⟩
  · obtain ⟨writes, notifies, session, port, stage, hother, hframe⟩ := unwatched_frame c
    rw [hframe] at hstaged ⊢
    refine ⟨hstaged, h.ticker, ?_, h.whole⟩
    intro rest hrest
    exact absurd (Option.some.inj hrest) (hother rest)
  · exact ⟨hstaged, h.ticker, by simp, h.whole⟩
  · exact ⟨hstaged, h.ticker, by simp, h.whole⟩
  · have hdestroyed := h.closing streams hstage
    exact ⟨hstaged, h.ticker, fun _ _ => hdestroyed, fun hlive => by simp [hdestroyed] at hlive⟩

theorem Kept.next (h : c.Kept) {op : CameraOp} {evs : List CameraEvent}
    (hnext : c.next op = some (c', evs)) : c'.Kept := by
  have hstaged := h.staged.moves (next_moves hnext)
  cases next_shifts hnext with
  | rest op session port pending => exact h.congr hstaged rfl rfl rfl rfl rfl rfl
  | close => exact h.close
  | drop op session port why =>
      have hcalled : Kept { c with session := session, port := port } :=
        h.congr h.staged rfl rfl rfl rfl rfl rfl
      exact hcalled.onDrop why
  | detached hstage => exact h.congr hstaged rfl rfl rfl rfl rfl rfl
  | stalled hstage => exact h.congr hstaged rfl rfl rfl rfl rfl rfl
  | attached op failure device writes notifies subs session port pending watch hstage =>
      exact h.congr hstaged rfl rfl rfl rfl rfl rfl
  | gaveUp op e hstage =>
      have hresumed : Staged (phase { c with dropping := none }) :=
        ⟨by simp [phase], by simp [phase], h.staged.closing, h.staged.destroyed,
          h.staged.ended⟩
      exact h.giveUp hresumed e
  | finished hstage => exact absurd hstage h.staged.failed
  | closing ok c' evs hresume => exact h.resumeClose hresume

theorem kept_connect {cfg : SessionConfig} {reconnectTimeoutMs : Nat} {a : Attached}
    {nowMs : UInt64} (h : connect cfg reconnectTimeoutMs a nowMs = .ok c) : c.Kept := by
  have hstaged := staged (.of_start ⟨cfg, reconnectTimeoutMs, a, nowMs, h⟩)
  obtain ⟨_, _, _, _, _, _, _, _, hframe⟩ := attach_frame
    { device := a.device, session := .new cfg, reconnectTimeoutMs := reconnectTimeoutMs }
    a nowMs
  unfold connect at h
  simp only at h
  split at h
  · next d f hattach =>
    rw [hattach] at hframe
    obtain rfl : d = _ := hframe
    obtain rfl := Except.ok.inj h
    exact ⟨hstaged, by simp, by simp, fun _ => ⟨rfl, rfl⟩⟩
  · simp at h

/-- A step is a turn, or leaves the camera alone. -/
theorem lifeNext_cases {op : LifeOp} {touches : List Use}
    (h : c.lifeNext op = some (c', touches)) :
    (∃ turn evs, op = .turn turn ∧ c.next turn = some (c', evs) ∧
      touches = c.touch (c.uses turn)) ∨
    (op = .climbPass ∧ c' = c ∧ c.dropping = some .climbing ∧ touches = c.touch [.link]) ∨
    (op = .ready ∧ c' = c ∧
      touches = c.touch (if c.state = .up then [.session] else [])) := by
  cases op with
  | turn op =>
      simp only [lifeNext, Option.map_eq_some_iff, Prod.mk.injEq] at h
      obtain ⟨⟨d, evs⟩, hnext, rfl, rfl⟩ := h
      exact Or.inl ⟨op, evs, rfl, hnext, rfl⟩
  | climbPass =>
      simp only [lifeNext, Option.ite_none_right_eq_some, Option.some.injEq,
        Prod.mk.injEq] at h
      obtain ⟨hstage, rfl, rfl⟩ := h
      exact Or.inr (Or.inl ⟨rfl, rfl, hstage, rfl⟩)
  | ready =>
      simp only [lifeNext, Option.some.injEq, Prod.mk.injEq] at h
      obtain ⟨rfl, rfl⟩ := h
      exact Or.inr (Or.inr ⟨rfl, rfl, rfl⟩)

theorem Kept.step (h : c.Kept) {label : LifeOp × List Use} (hstep : lifeLts.step c label c') :
    c'.Kept := by
  rcases lifeNext_cases hstep with ⟨turn, evs, -, hnext, -⟩ | ⟨-, rfl, -⟩ | ⟨-, rfl, -⟩
  · exact h.next hnext
  · exact h
  · exact h

theorem kept (h : lifeLts.Reachable c) : c.Kept :=
  h.invariant (fun _ ⟨_, _, _, _, hconnect⟩ => kept_connect hconnect)
    fun _ _ _ _ hkept hstep => hkept.step hstep

/-! ## Down -/

theorem Moves.down {p p' : Phase} (h : Moves p p') (hstaged : Staged p)
    (hdown : p.state = .down) : p'.state = .down := by
  cases h with
  | drop hup => simp [hdown] at hup
  | shut => rfl
  | finish hstage => exact absurd hstage hstaged.failed
  | _ => exact hdown

theorem Kept.stays_down (h : c.Kept) (hdown : c.state = .down) {labels : List (LifeOp × List Use)}
    (hrun : lifeLts.Run c labels c') : c'.state = .down := by
  have hboth : c'.Kept ∧ c'.state = .down := by
    refine hrun.invariant (I := fun c => c.Kept ∧ c.state = .down) ⟨h, hdown⟩ ?_
    rintro c label c' ⟨hkept, hdown⟩ hstep
    refine ⟨hkept.step hstep, ?_⟩
    rcases lifeNext_cases hstep with ⟨turn, evs, -, hnext, -⟩ | ⟨-, rfl, -⟩ | ⟨-, rfl, -⟩
    · exact (next_moves hnext).down hkept.staged hdown
    · exact hdown
    · exact hdown
  exact hboth.2

/-- Down, with nothing suspended that would go on and nothing left to listen to. -/
structure Quiet (c : Camera) : Prop where
  down : c.state = .down
  dropping : c.dropping = none
  subs : c.subs = []

theorem Quiet.next (h : c.Quiet) {op : CameraOp} {evs : List CameraEvent}
    (hnext : c.next op = some (c', evs)) : c'.Quiet := by
  cases next_shifts hnext with
  | rest op session port pending => exact ⟨h.down, h.dropping, h.subs⟩
  | close =>
      rw [close_of_down h.down]
      exact h
  | drop op session port why =>
      have hnotUp : c.state ≠ .up := by simp [h.down]
      rw [onDrop, if_pos hnotUp]
      exact ⟨h.down, h.dropping, h.subs⟩
  | detached hstage => simp [h.dropping] at hstage
  | stalled hstage => simp [h.dropping] at hstage
  | attached op failure device writes notifies subs session port pending watch hstage =>
      simp [h.dropping] at hstage
  | gaveUp op e hstage => exact absurd h.dropping hstage
  | finished hstage => simp [h.dropping] at hstage
  | closing ok c' evs hresume =>
      rcases resumeClose_cases hresume with ⟨-, rfl, -⟩ | ⟨-, rfl, -⟩ | ⟨-, -, rfl⟩ |
        ⟨-, rfl, -⟩ | ⟨streams, closed, closing, -, -, rfl, -⟩
      · obtain ⟨session, hframe⟩ := drained_frame c
        rw [hframe]
        exact ⟨h.down, h.dropping, h.subs⟩
      · obtain ⟨writes, notifies, session, port, stage, -, hframe⟩ := unwatched_frame c
        rw [hframe]
        exact ⟨h.down, h.dropping, h.subs⟩
      · exact ⟨h.down, h.dropping, rfl⟩
      · exact ⟨h.down, h.dropping, h.subs⟩
      · exact ⟨h.down, h.dropping, h.subs⟩

theorem Quiet.step (h : c.Quiet) {label : LifeOp × List Use}
    (hstep : lifeLts.step c label c') : c'.Quiet := by
  rcases lifeNext_cases hstep with ⟨turn, evs, -, hnext, -⟩ | ⟨-, rfl, -⟩ | ⟨-, rfl, -⟩
  · exact h.next hnext
  · exact h
  · exact h

/-! ## What is touched -/

/-- Only the step of `close` that follows its delay destroys the handles. -/
theorem next_destroyed {op : CameraOp} {evs : List CameraEvent}
    (hnext : c.next op = some (c', evs)) :
    c'.destroyed = c.destroyed ∨
      (∃ ok, op = .closeResumed ok) ∧ c.closing = some .draining := by
  have hclose : ∀ d : Camera, d.close.1.destroyed = d.destroyed := by
    intro d
    by_cases hdown : d.state = .down
    · rw [close_of_down hdown]
    · obtain ⟨_, _, _, _, _, _, -, hframe⟩ := close_frame hdown
      rw [hframe]
  cases next_shifts hnext with
  | close => exact Or.inl (hclose c)
  | drop op session port why =>
      let d : Camera := { c with session := session, port := port }
      rcases d.onDrop_cases why with ⟨-, heq⟩ | ⟨-, -, heq⟩ | ⟨-, -, heq⟩
      · exact Or.inl (by rw [heq])
      · exact Or.inl (by rw [heq, hclose d])
      · obtain ⟨_, _, hframe⟩ := dropped_frame d
        exact Or.inl (by rw [heq, hframe])
  | gaveUp op e hstage => exact Or.inl (hclose { c with dropping := none })
  | finished hstage =>
      unfold setState
      split <;> exact Or.inl rfl
  | closing ok c' evs hresume =>
      rcases resumeClose_cases hresume with ⟨hstage, -, -⟩ | ⟨-, rfl, -⟩ | ⟨-, -, rfl⟩ |
        ⟨-, rfl, -⟩ | ⟨streams, closed, closing, -, -, rfl, -⟩
      · exact Or.inr ⟨⟨ok, rfl⟩, hstage⟩
      · obtain ⟨_, _, _, _, _, -, hframe⟩ := unwatched_frame c
        exact Or.inl (by rw [hframe])
      · exact Or.inl rfl
      · exact Or.inl rfl
      · exact Or.inl rfl
  | _ => exact Or.inl rfl

/-- Before the handles are destroyed everything is live. -/
theorem Kept.live (h : c.Kept) (hlive : c.destroyed = false) (r : Resource) : c.Live r := by
  obtain ⟨hlink, hstreams⟩ := h.whole hlive
  cases r with
  | session => exact hlive
  | link => exact hlink
  | stream stream =>
      change stream ∉ c.closedStreams
      simp [hstreams]

/-- Afterwards a quiet camera touches nothing. -/
theorem Quiet.uses (h : c.Quiet) (hkept : c.Kept) (hdestroyed : c.destroyed = true)
    {op : CameraOp} {evs : List CameraEvent} (hnext : c.next op = some (c', evs)) :
    c.uses op = [] := by
  have hnotUp : c.state ≠ .up := by simp [h.down]
  have hclose : c.closeUses = [] := by simp [closeUses, h.down]
  have hdrop : c.dropUses = [] := by simp [dropUses, hnotUp]
  cases op with
  | send channel payload priority nowMs =>
      cases payload <;> simp [Camera.uses, sendUses, hnotUp]
  | sendProtobuf channel featureId actionId message priority nowMs =>
      simp [Camera.uses, sendProtobufUses, hnotUp]
  | close => exact hclose
  | notification channel bytes nowMs => simp [Camera.next, h.subs] at hnext
  | deliver => rfl
  | tick connected nowMs => simp [Camera.next, hkept.ticker h.down] at hnext
  | propertiesChanged device mentionsConnected connected =>
      simp [Camera.uses, hdrop]
  | deviceRemoved device objectPath => simp [Camera.uses, hdrop]
  | dropDetached ok => simp [Camera.next, h.dropping] at hnext
  | broughtUp result nowMs => simp [Camera.next, h.dropping] at hnext
  | attachAwaited => simp [Camera.next, h.dropping] at hnext
  | closeResumed ok =>
      rcases hclosing : c.closing with - | stage
      · simp [Camera.uses, resumeUses, hclosing]
      · obtain ⟨rest, rfl⟩ := hkept.staged.ended hdestroyed stage hclosing
        simp [Camera.uses, resumeUses, hclosing]

theorem touch_live {resources : List Resource} (h : ∀ r ∈ resources, c.Live r) :
    ∀ use ∈ c.touch resources, use.2 = true := by
  intro use huse
  obtain ⟨r, hr, rfl⟩ := List.mem_map.mp huse
  exact decide_eq_true (h r hr)

/-- A step touches what is live, unless the handles are destroyed around something that
is not quiet. -/
theorem Kept.touches (h : c.Kept) (hquiet : c.destroyed = true → c.Quiet)
    {label : LifeOp × List Use} (hstep : lifeLts.step c label c') :
    ∀ use ∈ label.2, use.2 = true := by
  cases hlive : c.destroyed with
  | false =>
      have hall := h.live hlive
      rcases lifeNext_cases hstep with ⟨turn, evs, -, -, htouch⟩ | ⟨-, -, -, htouch⟩ |
        ⟨-, -, htouch⟩
      all_goals
        rw [htouch]
        exact touch_live fun r _ => hall r
  | true =>
      have hq := hquiet hlive
      rcases lifeNext_cases hstep with ⟨turn, evs, -, hnext, htouch⟩ |
        ⟨-, -, hstage, -⟩ | ⟨-, -, htouch⟩
      · rw [htouch, hq.uses h hlive hnext]
        simp [touch]
      · simp [hq.dropping] at hstage
      · rw [htouch]
        simp [hq.down, touch]

/-- On a camera that is quiet but for the end of `close`, whatever comes then. -/
theorem Quiet.run (h : c.Quiet) (hkept : c.Kept) {labels : List (LifeOp × List Use)}
    (hrun : lifeLts.Run c labels c') : TouchesLive labels := by
  have hboth := hrun.labels (I := fun c => c.Kept ∧ c.Quiet)
    (Q := fun label => ∀ use ∈ label.2, use.2 = true) ⟨hkept, h⟩ ?_
  · exact hboth.2
  · rintro c label c' ⟨hkept, hquiet⟩ hstep
    exact ⟨⟨hkept.step hstep, hquiet.step hstep⟩, hkept.touches (fun _ => hquiet) hstep⟩

theorem quiet_of_tidy (hkept : c.Kept) (hquiet : c.destroyed = true → c.Quiet)
    {label : LifeOp × List Use} (hstep : lifeLts.step c label c') (htidy : Tidy c label)
    (hdestroyed : c'.destroyed = true) : c'.Quiet := by
  rcases lifeNext_cases hstep with ⟨turn, evs, hop, hnext, -⟩ | ⟨-, rfl, -⟩ | ⟨-, rfl, -⟩
  · rcases next_destroyed hnext with hsame | ⟨⟨ok, rfl⟩, hstage⟩
    · exact (hquiet (hsame ▸ hdestroyed)).next hnext
    · obtain ⟨hdropping, hsubs⟩ := htidy ok hop hstage
      have hc : c.Quiet := ⟨hkept.staged.closing (by simp [phase, hstage]), hdropping, hsubs⟩
      exact hc.next hnext
  · exact hquiet hdestroyed
  · exact hquiet hdestroyed

theorem touchesLive_of_tidy {c₀ : Camera} {labels : List (LifeOp × List Use)}
    (hstart : lifeLts.start c₀) (hrun : (lifeLts.restrict Tidy).Run c₀ labels c) :
    TouchesLive labels := by
  have hkept := kept (.of_start hstart)
  have hfresh : c₀.destroyed = true → c₀.Quiet := by
    obtain ⟨_, _, _, _, hconnect⟩ := hstart
    intro hdestroyed
    have hphase := congrArg Phase.destroyed (connect_phase hconnect)
    exact absurd (hdestroyed.symm.trans hphase) (by simp)
  have hboth := hrun.labels (I := fun c => c.Kept ∧ (c.destroyed = true → c.Quiet))
    (Q := fun label => ∀ use ∈ label.2, use.2 = true) ⟨hkept, hfresh⟩ ?_
  · exact hboth.2
  · rintro c label c' ⟨hkept, hquiet⟩ ⟨hstep, htidy⟩
    exact ⟨⟨hkept.step hstep, quiet_of_tidy hkept hquiet hstep htidy⟩,
      hkept.touches hquiet hstep⟩

/-! ## Untidy ends -/

theorem step_turn (op : CameraOp) {r : Camera × List CameraEvent} (h : c.next op = some r) :
    lifeLts.step c (.turn op, c.touch (c.uses op)) r.1 := by
  have hnext : c.lifeNext (.turn op) = some (r.1, c.touch (c.uses op)) := by
    simp [lifeNext, h]
  exact hnext

/-- A run that goes on to touch something that is not live. -/
theorem touches_dead {d e : Camera} {labels : List (LifeOp × List Use)}
    (hrun : lifeLts.Run c labels d) {op : LifeOp} {resources : List Resource} {r : Resource}
    (hstep : lifeLts.step d (op, d.touch resources) e) (hr : r ∈ resources)
    (hdead : ¬d.Live r) : ∃ labels c', lifeLts.Run c labels c' ∧ ¬TouchesLive labels := by
  refine ⟨labels ++ [(op, d.touch resources)], e, hrun.snoc hstep, ?_⟩
  intro h
  have huse := h (op, d.touch resources) (by simp) (r, decide (d.Live r))
    (List.mem_map_of_mem hr)
  exact hdead (of_decide_eq_true huse)

theorem step_climbPass (h : c.dropping = some .climbing) :
    lifeLts.step c (.climbPass, c.touch [.link]) c := if_pos h

theorem next_attachAwaited {e : DartError} (h : c.dropping = some (.attaching (some e))) :
    c.next .attachAwaited = some (c.giveUp e) := by
  simp [next, h]

/-- What is still suspended or listens as the handles are destroyed can touch them. -/
theorem untidy_end (h : c.Kept) (hstage : c.closing = some .draining)
    (huntidy : ¬(c.dropping = none ∧ c.subs = [])) :
    ∃ labels c', lifeLts.Run c labels c' ∧ ¬TouchesLive labels := by
  obtain ⟨session, hframe⟩ := drained_frame c
  have hresume : c.resumeClose true = some c.drained := by simp [resumeClose, hstage]
  have hdrain : lifeLts.step c (.turn (.closeResumed true), c.touch (c.resumeUses true))
      c.drained.1 := step_turn (.closeResumed true) hresume
  rw [hframe] at hdrain
  rcases hlist : c.subs with - | ⟨channel, rest⟩
  · rcases hbody : c.dropping with - | stage
    · exact absurd ⟨hbody, hlist⟩ huntidy
    · cases stage with
      | detaching =>
          -- `_detach` comes to its end, and `_bringUp` makes its first pass.
          exact touches_dead (r := .link) (.single hdrain)
            (step_turn (.dropDetached true) (if_pos hbody))
            (by simp [uses]) (by simp [Live])
      | climbing =>
          exact touches_dead (r := .link) (.single hdrain) (step_climbPass hbody)
            (by simp) (by simp [Live])
      | attaching failure =>
          cases failure with
          | none => exact absurd hbody h.staged.failed
          | some e =>
              -- The `await` of `_attach` is over when `_faults` is closed.
              have hpushes := Lts.Run.single hdrain
              have hready := hpushes.snoc (step_turn (.closeResumed true) rfl)
              have hfaults := hready.snoc (step_turn (.closeResumed true) rfl)
              refine touches_dead (r := .stream .faults) hfaults
                (step_turn .attachAwaited (next_attachAwaited hbody)) ?_ (by simp [Live])
              simp [uses, hbody, giveUpUses]
  · have hlistening : channel ∈ c.subs := by simp [hlist]
    exact touches_dead (r := .session) (.single hdrain)
      (step_turn (.notification channel [0] 0) (if_pos hlistening))
      (by simp [uses]) (by simp [Live])

/-! ## Down is terminal, and the handles are safe in a tidy end -/

/-- Down is terminal.  A run that destroys the handles only around a camera with nothing
suspended and nothing listening touches only what is live; and the point where `close`
comes to destroy them is safe exactly then. -/
theorem handles_untouched_iff_tidy {c₀ : Camera} {labels : List (LifeOp × List Use)}
    (hstart : lifeLts.start c₀) (hrun : lifeLts.Run c₀ labels c) :
    (c.state = .down → ∀ rest c', lifeLts.Run c rest c' → c'.state = .down) ∧
      ((lifeLts.restrict Tidy).Run c₀ labels c → TouchesLive labels) ∧
      (c.closing = some .draining →
        ((∀ rest c', lifeLts.Run c rest c' → TouchesLive rest) ↔
          c.dropping = none ∧ c.subs = [])) := by
  have hkept : c.Kept := kept ⟨c₀, labels, hstart, hrun⟩
  refine ⟨fun hdown rest c' => hkept.stays_down hdown,
    fun htidy => touchesLive_of_tidy hstart htidy, ?_⟩
  intro hstage
  constructor
  · intro hsafe
    by_contra huntidy
    obtain ⟨rest, c', hrest, hdead⟩ := untidy_end hkept hstage huntidy
    exact hdead (hsafe rest c' hrest)
  · rintro ⟨hdropping, hsubs⟩ rest c' hrest
    have hdown := hkept.staged.closing (by simp [phase, hstage])
    have hquiet : c.Quiet := ⟨hdown, hdropping, hsubs⟩
    exact hquiet.run hkept hrest

/-- The user closes a camera whose link is up. -/
theorem handles_untouched_iff_tidy_closed :
    ∃ c₀ labels c, lifeLts.start c₀ ∧ lifeLts.Run c₀ labels c ∧ c.destroyed = true ∧
      TouchesLive labels := by
  obtain ⟨c₀, c₁, c₂, c₃, c₄, hconnect, hclose, hunwatch, hdetach, hdrain, hsecond,
      hthird, hlast, hdestroyed⟩ :
      ∃ c₀ c₁ c₂ c₃ c₄, connect {} 300000 plainCamera 0 = .ok c₀ ∧
        c₀.lifeNext (.turn .close) = some (c₁, []) ∧
        c₁.lifeNext (.turn (.closeResumed true)) = some (c₂, [(.session, true)]) ∧
        c₂.lifeNext (.turn (.closeResumed true)) = some (c₃, []) ∧
        c₃.lifeNext (.turn (.closeResumed true)) =
          some (c₄, [(.session, true), (.link, true)]) ∧
        c₁.closing = some .unwatching ∧ c₂.closing = some .detaching ∧
        (c₃.dropping = none ∧ c₃.subs = []) ∧ c₄.destroyed = true :=
    ⟨_, _, _, _, _, rfl, rfl, rfl, rfl, rfl, rfl, rfl, ⟨rfl, rfl⟩, rfl⟩
  have hstart : lifeLts.start c₀ := ⟨_, _, _, _, hconnect⟩
  have htidy : (lifeLts.restrict Tidy).Run c₀ [(.turn .close, []),
      (.turn (.closeResumed true), [(.session, true)]), (.turn (.closeResumed true), []),
      (.turn (.closeResumed true), [(.session, true), (.link, true)])] c₄ :=
    .cons ⟨hclose, by simp [Tidy]⟩ (.cons ⟨hunwatch, by simp [Tidy, hsecond]⟩
      (.cons ⟨hdetach, by simp [Tidy, hthird]⟩ (.single ⟨hdrain, fun _ _ _ => hlast⟩)))
  exact ⟨c₀, _, c₄, hstart, htidy.of_restrict, hdestroyed,
    (handles_untouched_iff_tidy hstart htidy.of_restrict).2.1 htidy⟩

/-- A climb outlives `close`: its next pass goes to the destroyed link. -/
theorem climb_outlives_close :
    ¬∀ c₀ labels c, lifeLts.start c₀ → lifeLts.Run c₀ labels c →
      TouchesLive labels ∧
        (c.state = .down → ∀ rest c', lifeLts.Run c rest c' → c'.state = .down) := by
  intro h
  obtain ⟨c₀, c, labels, hconnect, htrace, hmem⟩ :
      ∃ c₀ c labels, connect {} 300000 plainCamera 0 = .ok c₀ ∧
        Lts.trace lifeNext c₀ [.turn (.tick false 500), .turn (.dropDetached true),
          .turn .close, .turn (.closeResumed true), .turn (.closeResumed true),
          .climbPass] = some (c, labels) ∧
        labels.getLast? = some (.climbPass, [(.link, false)]) :=
    ⟨_, _, _, rfl, rfl, rfl⟩
  have htouches := (h c₀ labels c ⟨_, _, _, _, hconnect⟩ (Lts.run_of_trace htrace)).1
  have hlink := htouches _ (List.mem_of_getLast? hmem) (.link, false) List.mem_cons_self
  simp at hlink

end Camera

end GoproNative
