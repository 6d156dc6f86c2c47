import GoproNative.Transport.Agent
import GoproNative.Camera.Phases

/-!
# A camera stays the camera it was

A climb that reconnects is asked for the address of the camera's device, and picks no other.
So the device of a camera may become another object of BlueZ over the reconnects, but its
address is the one that `connect` was asked for, or found, and remains so.
-/

namespace GoproNative

namespace Camera

variable {c c' : Camera}

/-! ## What touches the device -/

theorem close_device (c : Camera) : c.close.1.device = c.device := by
  by_cases h : c.state = .down
  · rw [close_of_down h]
  · obtain ⟨_, _, _, _, _, _, -, hframe⟩ := close_frame h
    rw [hframe]

theorem onDrop_device (c : Camera) (why : String) : (c.onDrop why).1.device = c.device := by
  rcases c.onDrop_cases why with ⟨-, heq⟩ | ⟨-, -, heq⟩ | ⟨-, -, heq⟩
  · rw [heq]
  · rw [heq, close_device]
  · obtain ⟨_, _, hframe⟩ := dropped_frame c
    rw [heq, hframe]

theorem attach_device (c : Camera) (a : Attached) (nowMs : UInt64) :
    (c.attach a nowMs).1.device = a.device := by
  have hbind : (c.bind a).device = a.device := by
    rw [bind]
    simp only
    split
    · obtain ⟨_, _, hcall⟩ := call_frame
        { c with device := a.device, writes := a.writes, notifies := a.notifies } _
      rw [hcall]
    · rfl
  obtain ⟨_, _, _, hsend⟩ := send_frame (c.bind a) .query
    [0x13, kBusyStatusId, kEncodingStatusId] none nowMs
  rw [attach_eq, queryStatuses]
  rcases hresult : (c.bind a).send .query [0x13, kBusyStatusId, kEncodingStatusId] none
    nowMs with ⟨d, e | f⟩
  all_goals
    rw [hresult] at hsend
    obtain rfl : d = _ := hsend
    exact hbind

theorem resumeClose_device {ok : Bool} {evs : List CameraEvent}
    (h : c.resumeClose ok = some (c', evs)) : c'.device = c.device := by
  rcases resumeClose_cases h with ⟨-, rfl, -⟩ | ⟨-, rfl, -⟩ | ⟨-, -, rfl⟩ | ⟨-, rfl, -⟩ |
    ⟨_, _, _, -, -, rfl, -⟩
  · obtain ⟨_, hframe⟩ := drained_frame c
    rw [hframe]
  · obtain ⟨_, _, _, _, _, -, hframe⟩ := unwatched_frame c
    rw [hframe]
  all_goals rfl

/-- Only `_attach` changes the device. -/
theorem next_device {op : CameraOp} {evs : List CameraEvent} (h : c.next op = some (c', evs)) :
    c'.device = c.device ∨
      ∃ a nowMs, op = .broughtUp (.ok a) nowMs ∧ c'.device = a.device := by
  cases next_turns h with
  | send channel payload priority nowMs =>
      obtain ⟨_, _, _, hframe⟩ := send_frame c channel payload priority nowMs
      exact Or.inl (by rw [hframe])
  | sendProtobuf channel featureId actionId message priority nowMs =>
      obtain ⟨_, _, _, hframe⟩ :=
        sendProtobuf_frame c channel featureId actionId message priority nowMs
      exact Or.inl (by rw [hframe])
  | close => exact Or.inl (close_device c)
  | fed channel bytes nowMs =>
      obtain ⟨_, _, hframe⟩ := call_frame c (BleBindings.feed c.session channel bytes nowMs)
      exact Or.inl (by rw [hframe])
  | skipped => exact Or.inl rfl
  | heard m port ev =>
      obtain ⟨_, hframe⟩ := onEvent_frame { c with port := port } m.origin ev
      exact Or.inl (by rw [hframe])
  | ticked connected nowMs =>
      obtain ⟨_, _, hframe⟩ := call_frame c (c.session.tick nowMs)
      exact Or.inl (by rw [hframe])
  | tickedDown connected nowMs why =>
      obtain ⟨_, _, hframe⟩ := call_frame c (c.session.tick nowMs)
      exact Or.inl (by rw [onDrop_device, hframe])
  | ignored => exact Or.inl rfl
  | noticed op why => exact Or.inl (onDrop_device c why)
  | detached => exact Or.inl rfl
  | stalled => exact Or.inl rfl
  | attached a nowMs d f hstage hattach =>
      have hdevice := attach_device c a nowMs
      rw [hattach] at hdevice
      exact Or.inr ⟨a, nowMs, rfl, hdevice⟩
  | refused a nowMs d e hstage hattach =>
      have hdevice := attach_device c a nowMs
      rw [hattach] at hdevice
      exact Or.inr ⟨a, nowMs, rfl, hdevice⟩
  | gaveUp op e => exact Or.inl (close_device { c with dropping := none })
  | finished =>
      left
      rw [setState]
      split <;> rfl
  | closing ok c' evs hresume => exact Or.inl (resumeClose_device hresume)

theorem connect_device {cfg : SessionConfig} {reconnectTimeoutMs : Nat} {a : Attached}
    {nowMs : UInt64} (h : connect cfg reconnectTimeoutMs a nowMs = .ok c) :
    c.device = a.device := by
  have hdevice := attach_device
    { device := a.device, session := .new cfg, reconnectTimeoutMs := reconnectTimeoutMs }
    a nowMs
  rw [connect] at h
  split at h
  · next d f hattach =>
    rw [hattach] at hdevice
    obtain rfl := Except.ok.inj h
    exact hdevice
  · simp at h

end Camera

namespace Transport

variable {t t' : Transport} {op : TransportOp} {effects : List Effect}

/-! ## The calls and the cameras over a turn -/

theorem Steps.ascent_at (h : t.Steps op t' effects) {i : Nat} {a : Ascent}
    (ha : t.ascents[i]? = some a) : ∃ a', t'.ascents[i]? = some a' ∧ a'.owner = a.owner ∧
      a'.address = a.address ∧
      (a.climb.phase = .returned → a'.climb.phase = .returned ∧ a'.device = a.device) := by
  obtain ⟨hlt, -⟩ := List.getElem?_eq_some_iff.mp ha
  rcases h.ascents with heq | ⟨b, heq, -⟩ | ⟨j, b, b', hb, heq, hfurther⟩
  · rw [heq]
    exact ⟨a, ha, rfl, rfl, fun hreturned => ⟨hreturned, rfl⟩⟩
  · rw [heq, List.getElem?_append_left hlt]
    exact ⟨a, ha, rfl, rfl, fun hreturned => ⟨hreturned, rfl⟩⟩
  · rw [heq]
    by_cases hij : j = i
    · subst hij
      obtain rfl := Option.some.inj (ha.symm.trans hb)
      exact ⟨b', List.getElem?_set_self hlt, hfurther.owner, hfurther.address,
        hfurther.returned⟩
    · rw [List.getElem?_set_ne hij]
      exact ⟨a, ha, rfl, rfl, fun hreturned => ⟨hreturned, rfl⟩⟩

/-- The device is what a climb for this caller returned. -/
def BroughtBy (t : Transport) (owner : Option Nat) (device : BlueZDevice) : Prop :=
  ∃ a ∈ t.ascents, a.owner = owner ∧ a.climb.phase = .returned ∧
    ∃ d, a.device = some d ∧ d.device = device

theorem broughtBy_of_gives {i : Nat} {a : Ascent} {attached : Attached}
    (ha : t.ascents[i]? = some a) (hgives : a.Gives (.ok attached)) :
    t.BroughtBy a.owner attached.device := by
  obtain ⟨hreturned, hdevice⟩ := hgives
  obtain ⟨d, hd, heq⟩ := Option.map_eq_some_iff.mp hdevice
  exact ⟨a, List.mem_of_getElem? ha, rfl, hreturned, d, hd, heq⟩

theorem Steps.broughtBy (h : t.Steps op t' effects) {owner : Option Nat} {device : BlueZDevice}
    (hbrought : t.BroughtBy owner device) : t'.BroughtBy owner device := by
  obtain ⟨a, ha, howner, hreturned, d, hd, heq⟩ := hbrought
  obtain ⟨i, hi⟩ := List.mem_iff_getElem?.mp ha
  obtain ⟨a', ha', howner', -, hkept⟩ := h.ascent_at hi
  obtain ⟨hreturned', hdevice⟩ := hkept hreturned
  exact ⟨a', List.mem_of_getElem? ha', howner'.trans howner, hreturned', d, hdevice.trans hd, heq⟩

/-- What a turn does to the cameras: it lets them be, adds one, or takes one further, whose
device is then as before or what a climb of its own returned. -/
theorem Steps.cameras (h : t.Steps op t' effects) :
    t'.cameras = t.cameras ∨
    (∃ held a, t'.cameras = t.cameras ++ [held] ∧ t.ascents[held.origin]? = some a ∧
      a.owner = none ∧ a.climb.phase = .returned ∧
      ∃ d, a.device = some d ∧ d.device = held.camera.device) ∨
    ∃ k held held', t.cameras[k]? = some held ∧ t'.cameras = t.cameras.set k held' ∧
      held'.origin = held.origin ∧ (held'.camera.device = held.camera.device ∨
        t.BroughtBy (some k) held'.camera.device) := by
  cases h with
  | connected cfg reconnectTimeoutMs attached nowMs ha howner hgives hc =>
      obtain ⟨hreturned, hdevice⟩ := hgives
      obtain ⟨d, hd, heq⟩ := Option.map_eq_some_iff.mp hdevice
      exact Or.inr (Or.inl ⟨_, _, rfl, ha, howner, hreturned, d, hd,
        heq.trans (Camera.connect_device hc).symm⟩)
  | broughtUp result nowMs ha howner hheld hgives hturn =>
      refine Or.inr (Or.inr ⟨_, _, _, hheld, rfl, rfl, ?_⟩)
      rcases Camera.next_device hturn with hsame | ⟨attached, nowMs', hop, hdevice⟩
      · exact Or.inl hsame
      · obtain ⟨rfl, rfl⟩ := CameraOp.broughtUp.inj hop
        right
        rw [hdevice, ← howner]
        exact broughtBy_of_gives ha hgives
  | camera op hheld hother hturn =>
      refine Or.inr (Or.inr ⟨_, _, _, hheld, rfl, rfl, Or.inl ?_⟩)
      rcases Camera.next_device hturn with hsame | ⟨attached, nowMs', hop, -⟩
      · exact hsame
      · exact absurd hop (hother _ nowMs')
  | dropped op hheld hother hturn =>
      refine Or.inr (Or.inr ⟨_, _, _, hheld, rfl, rfl, Or.inl ?_⟩)
      rcases Camera.next_device hturn with hsame | ⟨attached, nowMs', hop, -⟩
      · exact hsame
      · exact absurd hop (hother _ nowMs')
  | _ => exact Or.inl rfl

/-! ## Every run -/

/-- A camera is the one that its `connect` was asked for, and a climb of its own is asked for
it. -/
structure Kin (t : Transport) : Prop where
  reconnects : ∀ a ∈ t.ascents, t.Reconnects a
  origin : ∀ h ∈ t.cameras, ∃ a, t.ascents[h.origin]? = some a ∧ a.owner = none ∧
    ∀ asked, a.address = some asked → upperCase h.camera.device.address = upperCase asked
  brought : ∀ h ∈ t.cameras, ∃ owner, t.BroughtBy owner h.camera.device

theorem Kin.same_address (hkin : t.Kin) (hsound : ∀ a ∈ t.ascents, a.Sound) {k : Nat}
    {held : Held} (hk : t.cameras[k]? = some held) {device : BlueZDevice}
    (hdevice : device = held.camera.device ∨ t.BroughtBy (some k) device) :
    upperCase device.address = upperCase held.camera.device.address := by
  rcases hdevice with rfl | ⟨a, ha, howner, -, d, hd, rfl⟩
  · rfl
  · obtain ⟨held', asked, hheld', haddress, hupper⟩ := hkin.reconnects a ha k howner
    obtain rfl := Option.some.inj (hk.symm.trans hheld')
    rw [((hsound a ha).picks d hd).2.2 asked haddress, hupper]

theorem Steps.camera_at (h : t.Steps op t' effects) (hsound : ∀ a ∈ t.ascents, a.Sound)
    (hkin : t.Kin) {k : Nat} {held : Held} (hk : t.cameras[k]? = some held) :
    ∃ held', t'.cameras[k]? = some held' ∧
      upperCase held'.camera.device.address = upperCase held.camera.device.address := by
  obtain ⟨hlt, -⟩ := List.getElem?_eq_some_iff.mp hk
  rcases h.cameras with heq | ⟨b, -, heq, -⟩ | ⟨j, b, b', hb, heq, -, hdevice⟩
  · rw [heq]
    exact ⟨held, hk, rfl⟩
  · rw [heq, List.getElem?_append_left hlt]
    exact ⟨held, hk, rfl⟩
  · rw [heq]
    by_cases hjk : j = k
    · subst hjk
      obtain rfl := Option.some.inj (hk.symm.trans hb)
      exact ⟨b', List.getElem?_set_self hlt, hkin.same_address hsound hk hdevice⟩
    · rw [List.getElem?_set_ne hjk]
      exact ⟨held, hk, rfl⟩

theorem Steps.reconnects (h : t.Steps op t' effects) (hsound : ∀ a ∈ t.ascents, a.Sound)
    (hkin : t.Kin) {a a' : Ascent} (ha : t.Reconnects a) (howner : a'.owner = a.owner)
    (haddress : a'.address = a.address) : t'.Reconnects a' := by
  intro k hk
  obtain ⟨held, asked, hheld, hasked, hupper⟩ := ha k (howner.symm.trans hk)
  obtain ⟨held', hheld', hupper'⟩ := h.camera_at hsound hkin hheld
  exact ⟨held', asked, hheld', haddress.trans hasked, hupper.trans hupper'.symm⟩

/-- A camera that a turn adds or takes further. -/
theorem Steps.kin_camera (h : t.Steps op t' effects) (hsound : ∀ a ∈ t.ascents, a.Sound)
    (hkin : t.Kin) {held : Held} (hheld : held ∈ t'.cameras) :
    (∃ a, t.ascents[held.origin]? = some a ∧ a.owner = none ∧
      ∀ asked, a.address = some asked →
        upperCase held.camera.device.address = upperCase asked) ∧
      ∃ owner, t.BroughtBy owner held.camera.device := by
  rcases h.cameras with heq | ⟨new, a, heq, ha, howner, hreturned, d, hd, hdevice⟩ |
    ⟨k, before, after, hk, heq, horigin, hdevice⟩
  · rw [heq] at hheld
    exact ⟨hkin.origin held hheld, hkin.brought held hheld⟩
  · rw [heq, List.mem_append, List.mem_singleton] at hheld
    rcases hheld with hold | rfl
    · exact ⟨hkin.origin held hold, hkin.brought held hold⟩
    · have hmem := List.mem_of_getElem? ha
      refine ⟨⟨a, ha, howner, fun asked hasked => ?_⟩, a.owner, a, hmem, rfl, hreturned, d, hd,
        hdevice⟩
      rw [← hdevice]
      exact ((hsound a hmem).picks d hd).2.2 asked hasked
  · rw [heq] at hheld
    have hbefore := List.mem_of_getElem? hk
    rcases List.mem_or_eq_of_mem_set hheld with hold | rfl
    · exact ⟨hkin.origin held hold, hkin.brought held hold⟩
    · refine ⟨?_, ?_⟩
      · obtain ⟨a, ha, howner, haddress⟩ := hkin.origin before hbefore
        rw [horigin]
        exact ⟨a, ha, howner, fun asked hasked =>
          (hkin.same_address hsound hk hdevice).trans (haddress asked hasked)⟩
      · rcases hdevice with hsame | hbrought
        · rw [hsame]
          exact hkin.brought before hbefore
        · exact ⟨some k, hbrought⟩

theorem Steps.kin (h : t.Steps op t' effects) (hsound : ∀ a ∈ t.ascents, a.Sound)
    (hkin : t.Kin) : t'.Kin where
  reconnects := by
    rcases h.ascents with heq | ⟨new, heq, -, hnew⟩ | ⟨i, a, a', ha, heq, hfurther⟩
    · rw [heq]
      exact fun b hb => h.reconnects hsound hkin (hkin.reconnects b hb) rfl rfl
    · rw [heq]
      intro b hb
      rcases List.mem_append.mp hb with hold | hlast
      · exact h.reconnects hsound hkin (hkin.reconnects b hold) rfl rfl
      · rw [List.mem_singleton.mp hlast]
        exact h.reconnects hsound hkin hnew rfl rfl
    · rw [heq]
      intro b hb
      rcases List.mem_or_eq_of_mem_set hb with hold | rfl
      · exact h.reconnects hsound hkin (hkin.reconnects b hold) rfl rfl
      · exact h.reconnects hsound hkin (hkin.reconnects a (List.mem_of_getElem? ha))
          hfurther.owner hfurther.address
  origin := by
    intro held hheld
    obtain ⟨⟨a, ha, howner, haddress⟩, -⟩ := h.kin_camera hsound hkin hheld
    obtain ⟨a', ha', howner', haddress', -⟩ := h.ascent_at ha
    exact ⟨a', ha', howner'.trans howner, haddress' ▸ haddress⟩
  brought := by
    intro held hheld
    obtain ⟨-, owner, hbrought⟩ := h.kin_camera hsound hkin hheld
    exact ⟨owner, h.broughtBy hbrought⟩

theorem kin (h : lts.Reachable t) : t.Kin := by
  refine h.invariant (I := Kin) ?_ ?_
  · rintro _ ⟨agent, rfl⟩
    exact ⟨by simp, by simp, by simp⟩
  · rintro t ⟨op, effects⟩ t' hreach hkin hstep
    exact (next_steps hstep).kin (sound hreach) hkin

/-- Whatever happens to a transport, a camera's device is one that a climb returned: it has a
random address and exposes the control service.  Its address is the one that its `connect`
was asked for, if for any, and over all drops and reconnects to come remains the same. -/
theorem same_camera (hreach : lts.Reachable t) {k : Nat} {held : Held}
    (hk : t.cameras[k]? = some held) :
    (∃ a ∈ t.ascents, a.climb.phase = .returned ∧ ∃ d, a.device = some d ∧
      d.device = held.camera.device ∧ d.addressType = "random" ∧ d.exposesControl = true) ∧
    (∃ a, t.ascents[held.origin]? = some a ∧ a.owner = none ∧
      ∀ asked, a.address = some asked →
        upperCase held.camera.device.address = upperCase asked) ∧
    ∀ labels t', lts.Run t labels t' → ∃ held', t'.cameras[k]? = some held' ∧
      upperCase held'.camera.device.address = upperCase held.camera.device.address := by
  have hmem := List.mem_of_getElem? hk
  refine ⟨?_, (kin hreach).origin held hmem, ?_⟩
  · obtain ⟨owner, a, ha, -, hreturned, d, hd, heq⟩ := (kin hreach).brought held hmem
    obtain ⟨hrandom, hcontrol, -⟩ := (sound hreach a ha).picks d hd
    exact ⟨a, ha, hreturned, d, hd, heq, hrandom, hcontrol⟩
  · intro labels t' hrun
    have hboth := hrun.invariant (I := fun t' => lts.Reachable t' ∧
      ∃ held', t'.cameras[k]? = some held' ∧
        upperCase held'.camera.device.address = upperCase held.camera.device.address)
      ⟨hreach, held, hk, rfl⟩ ?_
    · exact hboth.2
    · rintro u ⟨op, effects⟩ u' ⟨hu, held', hheld', hupper⟩ hstep
      obtain ⟨held'', hheld'', hupper'⟩ :=
        (next_steps hstep).camera_at (sound hu) (kin hu) hheld'
      exact ⟨hu.step hstep, held'', hheld'', hupper'.trans hupper⟩

/-- A climb from its first pass to its return. -/
def upToReturn (i : Nat) (devices : List Listed) : List TransportOp :=
  [.climbed i .reconnected, .looked i devices 0, .paired i, .climbed i .acted,
    .climbed i (.notifyStarted .command), .looked i devices 500, .climbed i .acted,
    .climbed i (.notifyStarted .settings), .climbed i (.notifyStarted .query),
    .looked i devices 900]

def attachedAt (path : String) : Attached :=
  { plainCamera with device := ⟨path, "C0:00:00:00:00:0A"⟩ }

/-- After the drop the camera is another object, and listed behind the other camera. -/
def movedCameras : List Listed :=
  [unbonded "/dev_B" "C0:00:00:00:00:0B", unbonded "/dev_C" "C0:00:00:00:00:0A"]

theorem same_camera_moved : ∃ t held labels t', lts.Reachable t ∧ t.cameras[0]? = some held ∧
    lts.Run t labels t' ∧ ∃ held', t'.cameras[0]? = some held' ∧
      held'.camera.device ≠ held.camera.device ∧
      upperCase held'.camera.device.address = upperCase held.camera.device.address := by
  obtain ⟨t, before, held, htrace, hheld, hpath⟩ : ∃ t before held,
      Lts.trace next { agent := true } (.connect (some "c0:00:00:00:00:0a") ::
        upToReturn 0 twoCameras ++ [.connected 0 {} 300000 (attachedAt "/dev_A") 1000]) =
        some (t, before) ∧ t.cameras[0]? = some held ∧
        held.camera.device = ⟨"/dev_A", "C0:00:00:00:00:0A"⟩ := ⟨_, _, _, rfl, rfl, rfl⟩
  obtain ⟨t', labels, htrace', hpath'⟩ : ∃ t' labels, Lts.trace next t
      ([.camera 0 (.deviceRemoved ⟨"/dev_A", "C0:00:00:00:00:0A"⟩ "/dev_A"),
        .camera 0 (.dropDetached true)] ++ upToReturn 1 movedCameras ++
        [.broughtUp 1 (.ok (attachedAt "/dev_C")) 5000]) = some (t', labels) ∧
      (t'.cameras[0]?.map fun h => h.camera.device) = some ⟨"/dev_C", "C0:00:00:00:00:0A"⟩ := by
    obtain ⟨rfl, -⟩ := Prod.mk.inj (Option.some.inj htrace)
    exact ⟨_, _, rfl, rfl⟩
  have hreach : lts.Reachable t := ⟨_, before, ⟨true, rfl⟩, Lts.run_of_trace htrace⟩
  have hrun : lts.Run t labels t' := Lts.run_of_trace htrace'
  obtain ⟨held', hheld', hupper⟩ := (same_camera hreach hheld).2.2 labels t' hrun
  refine ⟨t, held, labels, t', hreach, hheld, hrun, held', hheld', ?_, hupper⟩
  rw [hheld', Option.map_some, Option.some.injEq] at hpath'
  rw [hpath, hpath']
  decide

end Transport

end GoproNative
