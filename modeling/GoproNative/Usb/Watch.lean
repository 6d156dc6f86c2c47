import GoproNative.Support.Channel
import GoproNative.Usb.Mirror
import Mathlib.Data.Finset.Basic

/-!
# From the bus to the table of cameras

The hotplug callbacks run on the worker thread, what the worker posts waits in a port, and
the isolate takes it from there.  This module puts the three together and couples what is
plugged in with what `cameras` of `GoProDiscovery` holds, over all their interleavings.

libusb calls back about every device of the vendor once for each time it comes or goes, in
order, and lists devices that are plugged in.  What it tells of them is arbitrary.
-/

namespace GoproNative

namespace Usb

/-- The entry of a device: its bus and its path of ports. -/
abbrev Socket := UInt8 × List UInt8

def Device.socket (dev : Device) : Socket := (dev.bus, dev.ports)

/-- A discovery in all its parts. -/
structure Watch where
  /-- Where the devices of the vendor are plugged in. -/
  attached : Finset Socket
  /-- The devices that `watch` has yet to find plugged in as it registers. -/
  enumerating : List Device
  /-- The callbacks that libusb has yet to make, with `true` for an arrival. -/
  callbacks : List (Device × Bool) := []
  bridge : Bridge
  /-- The worker thread runs. -/
  running : Bool := false
  /-- What waits in the port. -/
  port : List Bytes := []
  listening : Listening := ⟨{}, none⟩
  /-- `started` is completed. -/
  started : Bool := false
  /-- The messages that failed to decode. -/
  faults : List DecodeError := []

inductive WatchOp
  | plug (dev : Device)
  | unplug (dev : Device)
  /-- `watch` calls back about the next device that it finds. -/
  | enumerate (env : Snapshot) (now : Nat)
  /-- `watch` has returned, and the worker begins. -/
  | launch
  /-- libusb makes its next callback. -/
  | callback (env : Snapshot) (now : Nat)
  | rescan
  | setTimeout (timeoutMs : Int32)
  | pass (devices : List (Device × Snapshot)) (answers : Nat → Snapshot × Nat)
  /-- The isolate takes a message. -/
  | deliver

namespace Watch

/-- The bridge does something, and posts. -/
def act (w : Watch) (op : BridgeOp) : Watch :=
  { w with
    bridge := (w.bridge.next op).1
    port := w.port ++ (w.bridge.next op).2.filterMap BridgeEvent.message }

/-- The listener of the port. -/
def receive (utf8 : Bytes → String) (w : Watch) (m : Bytes) : Watch :=
  match decodeEvent utf8 m with
  | .error e => { w with faults := w.faults ++ [e] }
  | .ok none => w
  | .ok (some event) =>
      { w with
        listening := (w.listening.next event).1
        started := w.started || (event matches .sentinel) }

/-- libusb lists devices that are plugged in. -/
def Lists (w : Watch) (devices : List (Device × Snapshot)) : Prop :=
  ∀ dev ∈ devices, dev.1.descriptor.map DeviceDescriptor.idVendor = some w.bridge.ctx.vid →
    dev.1.socket ∈ w.attached

instance (w : Watch) (devices : List (Device × Snapshot)) : Decidable (w.Lists devices) :=
  inferInstanceAs (Decidable (∀ dev ∈ devices, _))

def next (utf8 : Bytes → String) (w : Watch) : WatchOp → Option Watch
  | .plug dev => some
      { w with
        attached := insert dev.socket w.attached
        callbacks := w.callbacks ++ [(dev, true)] }
  | .unplug dev => some
      { w with
        attached := w.attached.erase dev.socket
        callbacks := w.callbacks ++ [(dev, false)] }
  | .enumerate env now =>
      match w.enumerating with
      | [] => none
      | dev :: rest => some ({ w with enumerating := rest }.act (.hotplug dev true env now))
  | .launch =>
      if w.enumerating = [] ∧ w.running = false then
        some ({ w with running := true }.act .start)
      else none
  | .callback env now =>
      match w.running, w.callbacks with
      | true, (dev, arrived) :: rest =>
          some ({ w with callbacks := rest }.act (.hotplug dev arrived env now))
      | _, _ => none
  | .rescan => some (w.act .rescan)
  | .setTimeout timeoutMs => some (w.act (.setTimeout timeoutMs))
  | .pass devices answers =>
      if w.running ∧ w.Lists devices then some (w.act (.pass devices answers)) else none
  | .deliver =>
      match w.port with
      | [] => none
      | m :: rest => some ({ w with port := rest }.receive utf8 m)

/-- A discovery over the devices that are plugged in at its start. -/
def create (vid : UInt16) (devices : List Device) : Watch where
  attached := (devices.map Device.socket).toFinset
  enumerating := devices
  bridge := ⟨.create vid, []⟩

/-- All runs of a discovery. -/
def lts (utf8 : Bytes → String) : Lts Watch WatchOp :=
  .ofPartial (fun w => ∃ vid devices, w = create vid devices) (next utf8)

/-- The names in `cameras`. -/
def cameras (w : Watch) : AList fun _ : String => GoProCamera := w.listening.discovery.current

/-- The bridge has posted no text of four gibibytes. -/
def Fits (w : Watch) : Prop := ∀ ev ∈ w.bridge.log, ev.Fits

/-- Everything a step does, guards included. -/
inductive Steps (utf8 : Bytes → String) (w : Watch) : WatchOp → Watch → Prop
  | plugged (dev : Device) : Steps utf8 w (.plug dev)
      { w with
        attached := insert dev.socket w.attached
        callbacks := w.callbacks ++ [(dev, true)] }
  | unplugged (dev : Device) : Steps utf8 w (.unplug dev)
      { w with
        attached := w.attached.erase dev.socket
        callbacks := w.callbacks ++ [(dev, false)] }
  | enumerated (dev : Device) (rest : List Device) (env : Snapshot) (now : Nat)
      (henumerating : w.enumerating = dev :: rest) : Steps utf8 w (.enumerate env now)
      ({ w with enumerating := rest }.act (.hotplug dev true env now))
  | launched (hall : w.enumerating = []) (hnew : w.running = false) : Steps utf8 w .launch
      ({ w with running := true }.act .start)
  | called (dev : Device) (arrived : Bool) (rest : List (Device × Bool)) (env : Snapshot)
      (now : Nat) (hrunning : w.running = true)
      (hcallbacks : w.callbacks = (dev, arrived) :: rest) :
      Steps utf8 w (.callback env now)
      ({ w with callbacks := rest }.act (.hotplug dev arrived env now))
  | asked : Steps utf8 w .rescan (w.act .rescan)
  | bounded (timeoutMs : Int32) :
      Steps utf8 w (.setTimeout timeoutMs) (w.act (.setTimeout timeoutMs))
  | passed (devices : List (Device × Snapshot)) (answers : Nat → Snapshot × Nat)
      (hrunning : w.running = true) (hlists : w.Lists devices) :
      Steps utf8 w (.pass devices answers) (w.act (.pass devices answers))
  | delivered (m : Bytes) (rest : List Bytes) (hport : w.port = m :: rest) :
      Steps utf8 w .deliver ({ w with port := rest }.receive utf8 m)

theorem steps {utf8 : Bytes → String} {w w' : Watch} {op : WatchOp}
    (h : next utf8 w op = some w') : Steps utf8 w op w' := by
  cases op with
  | plug dev => exact Option.some.inj h ▸ .plugged dev
  | unplug dev => exact Option.some.inj h ▸ .unplugged dev
  | enumerate env now =>
      rw [next] at h
      split at h
      · simp at h
      · next henumerating => exact Option.some.inj h ▸ .enumerated _ _ env now henumerating
  | launch =>
      rw [next] at h
      obtain ⟨⟨hall, hnew⟩, h⟩ := Option.ite_none_right_eq_some.mp h
      exact Option.some.inj h ▸ .launched hall hnew
  | callback env now =>
      rw [next] at h
      split at h
      · next hrunning hcallbacks =>
        exact Option.some.inj h ▸ .called _ _ _ env now hrunning hcallbacks
      · simp at h
  | rescan => exact Option.some.inj h ▸ .asked
  | setTimeout timeoutMs => exact Option.some.inj h ▸ .bounded timeoutMs
  | pass devices answers =>
      rw [next] at h
      obtain ⟨⟨hrunning, hlists⟩, h⟩ := Option.ite_none_right_eq_some.mp h
      exact Option.some.inj h ▸ .passed devices answers hrunning hlists
  | deliver =>
      rw [next] at h
      split at h
      · simp at h
      · next hport => exact Option.some.inj h ▸ .delivered _ _ hport

/-! ## What every step keeps -/

/-- What the callbacks still to come make of whether a device is there. -/
def settled (socket : Socket) (here : Prop) (callbacks : List (Device × Bool)) : Prop :=
  callbacks.foldl (fun here c => if c.1.socket = socket then c.2 = true else here) here

theorem settled_snoc (socket : Socket) (here : Prop) (callbacks : List (Device × Bool))
    (dev : Device) (arrived : Bool) :
    settled socket here (callbacks ++ [(dev, arrived)]) ↔
      if dev.socket = socket then arrived = true else settled socket here callbacks := by
  rw [settled, List.foldl_append]
  rfl

/-- Either no callback is about the device, or the last one decides. -/
theorem settled_cases (socket : Socket) (callbacks : List (Device × Bool)) :
    (∀ here, settled socket here callbacks ↔ here) ∨
      ∃ last : Prop, ∀ here, settled socket here callbacks ↔ last := by
  induction callbacks with
  | nil => exact Or.inl fun _ => Iff.rfl
  | cons c callbacks ih =>
      have hcons : ∀ here, settled socket here (c :: callbacks) =
        settled socket (if c.1.socket = socket then c.2 = true else here) callbacks :=
          fun _ => rfl
      simp only [hcons]
      rcases ih with hnone | ⟨last, hlast⟩
      · simp only [hnone]
        by_cases hown : c.1.socket = socket
        · exact Or.inr ⟨c.2 = true, fun here => by rw [if_pos hown]⟩
        · exact Or.inl fun here => by rw [if_neg hown]
      · exact Or.inr ⟨last, fun here => hlast _⟩

theorem settled_arrivals (socket : Socket) (here : Prop) (devices : List Device) :
    settled socket here (devices.map (·, true)) ↔
      socket ∈ devices.map Device.socket ∨ here := by
  induction devices generalizing here with
  | nil => simp [settled]
  | cons dev devices ih =>
      have hcons : settled socket here ((dev :: devices).map (·, true)) =
        settled socket (if dev.socket = socket then true = true else here)
          (devices.map (·, true)) := rfl
      rw [hcons, ih, List.map_cons, List.mem_cons]
      by_cases hown : dev.socket = socket
      · simp [hown]
      · simp [hown, Ne.symm hown]

structure Coupled (utf8 : Bytes → String) (w : Watch) : Prop where
  sound : w.bridge.Sound
  /-- What is plugged in is what the bridge says is there, once all callbacks are made. -/
  attached : ∀ socket, socket ∈ w.attached ↔
    settled socket (Present (sysfsName socket.1 socket.2) w.bridge.log)
      (w.enumerating.map (·, true) ++ w.callbacks)
  /-- The table is what a front of the log says, and the port holds the rest. -/
  told : ∃ delivered, Channel.Shipped BridgeEvent.message w.bridge.log w.port delivered ∧
    w.listening.Reflects utf8 delivered ∧
    (w.started = true → .post .sentinel none ∈ delivered)
  faultless : w.faults = []
  /-- `watch` has found all devices when the worker begins. -/
  launched : w.running = true → w.enumerating = []

variable {utf8 : Bytes → String} {w w' : Watch}

theorem coupled_create (utf8 : Bytes → String) (vid : UInt16) (devices : List Device) :
    (create vid devices).Coupled utf8 := by
  refine ⟨Bridge.sound_start ⟨vid, rfl⟩, ?_, ⟨[], Channel.Shipped.nil, ?_, by simp [create]⟩, rfl,
    by simp [create]⟩
  · intro socket
    have hnone : ¬Present (sysfsName socket.1 socket.2) (create vid devices).bridge.log := by
      rintro ⟨r, hr⟩
      simp [create, heard] at hr
    change socket ∈ (devices.map Device.socket).toFinset ↔
      settled socket _ (devices.map (·, true) ++ [])
    rw [List.append_nil, settled_arrivals, List.mem_toFinset, or_iff_left hnone]
  · exact ⟨fun _ _ => rfl, fun _ hname => absurd hname List.not_mem_nil⟩

/-- The bridge posts what it does, and the rest stands if it says of each device what the
callbacks made of it. -/
theorem Coupled.act (h : w.Coupled utf8) (op : BridgeOp) {v : Watch}
    (hbridge : v.bridge = w.bridge) (hport : v.port = w.port)
    (hlistening : v.listening = w.listening ∧ v.started = w.started)
    (hfaults : v.faults = w.faults)
    (hattached : ∀ socket, socket ∈ v.attached ↔
      settled socket (Present (sysfsName socket.1 socket.2) (w.bridge.next op).1.log)
        (v.enumerating.map (·, true) ++ v.callbacks))
    (hlaunched : v.running = true → v.enumerating = []) : (v.act op).Coupled utf8 := by
  obtain ⟨delivered, hshipped, hreflects, hstarted⟩ := h.told
  refine ⟨?_, ?_, ⟨delivered, ?_, ?_, ?_⟩, ?_, hlaunched⟩
  · rw [Watch.act, hbridge]
    exact h.sound.next op
  · rw [Watch.act, hbridge]
    exact hattached
  · rw [Watch.act, hbridge, hport]
    exact hshipped.post (w.bridge.next op).2
  · rw [Watch.act, hlistening.1]
    exact hreflects
  · rw [Watch.act, hlistening.2]
    exact hstarted
  · rw [Watch.act, hfaults]
    exact h.faultless

/-- A callback is made, and the bridge has heard of it. -/
theorem settled_hotplug (w : Bridge) (dev : Device) (arrived : Bool) (env : Snapshot)
    (now : Nat) (socket : Socket) (callbacks : List (Device × Bool)) :
    settled socket (Present (sysfsName socket.1 socket.2)
        (w.next (.hotplug dev arrived env now)).1.log) callbacks ↔
      settled socket (Present (sysfsName socket.1 socket.2) w.log)
        ((dev, arrived) :: callbacks) := by
  have hsocket : sysfsName dev.bus dev.ports = sysfsName socket.1 socket.2 ↔
      dev.socket = socket := by
    rw [sysfsName_inj, Device.socket, Prod.ext_iff]
  have hcons : settled socket (Present (sysfsName socket.1 socket.2) w.log)
      ((dev, arrived) :: callbacks) = settled socket
        (if dev.socket = socket then arrived = true
          else Present (sysfsName socket.1 socket.2) w.log) callbacks := rfl
  have hpresent := w.present_hotplug dev arrived env now (sysfsName socket.1 socket.2)
  rw [hcons, propext hpresent]
  exact iff_of_eq (congrArg (settled socket · callbacks) (if_congr hsocket rfl rfl))

theorem Coupled.pass (h : w.Coupled utf8) {devices : List (Device × Snapshot)}
    (hlists : w.Lists devices) (answers : Nat → Snapshot × Nat) (socket : Socket) :
    socket ∈ w.attached ↔ settled socket (Present (sysfsName socket.1 socket.2)
      (w.bridge.next (.pass devices answers)).1.log)
        (w.enumerating.map (·, true) ++ w.callbacks) := by
  have hattached := h.attached socket
  have hpass := h.sound.present_pass devices answers (sysfsName socket.1 socket.2)
  rcases settled_cases socket (w.enumerating.map (·, true) ++ w.callbacks) with
    hnone | ⟨last, hlast⟩
  · rw [hnone] at hattached ⊢
    rw [hpass, hattached, iff_self_or]
    rintro ⟨-, c, hc, hname⟩
    obtain ⟨dev, hdev, hvendor, hsysfs⟩ := BridgeContext.mem_enumerate hc
    have hsocket : dev.1.socket = socket :=
      Prod.ext_iff.mpr (sysfsName_inj.mp (hsysfs.symm.trans hname))
    rw [← hattached, ← hsocket]
    exact hlists dev hdev hvendor
  · rw [hlast] at hattached ⊢
    exact hattached

theorem Coupled.receive (hascii : DecodesAscii utf8) (h : w.Coupled utf8) {m : Bytes}
    {rest : List Bytes} (hport : w.port = m :: rest) (hfits : w.Fits) :
    ({ w with port := rest }.receive utf8 m).Coupled utf8 := by
  obtain ⟨delivered, hshipped, hreflects, hstarted⟩ := h.told
  rw [hport] at hshipped
  obtain ⟨silent, ev, hsilent, hm, hshipped⟩ := hshipped.deliver
  have hlog : ev ∈ w.bridge.log := hshipped.isPrefix.subset (by simp)
  have hproper := h.sound.proper ev hlog
  obtain ⟨event, hdecode, hmeant⟩ := decodeEvent_message utf8 hproper
    (hfits ev hlog) hm
  have hreflects' := (hreflects.silent hsilent).deliver hascii hproper hmeant
  rw [Watch.receive, hdecode]
  refine ⟨h.sound, h.attached, ⟨_, hshipped, hreflects', ?_⟩, h.faultless, h.launched⟩
  intro hnow
  simp only [Bool.or_eq_true] at hnow
  rcases hnow with hbefore | hsentinel
  · simp [hstarted hbefore]
  · cases hmeant with
    | sentinel => simp
    | update | left => simp at hsentinel

theorem Coupled.next (hascii : DecodesAscii utf8) (h : w.Coupled utf8) {op : WatchOp}
    (hstep : Steps utf8 w op w') (hfits : w.Fits) : w'.Coupled utf8 := by
  cases hstep with
  | plugged dev =>
      refine ⟨h.sound, fun socket => ?_, h.told, h.faultless, h.launched⟩
      change socket ∈ insert dev.socket w.attached ↔ settled socket _
        (w.enumerating.map (·, true) ++ (w.callbacks ++ [(dev, true)]))
      rw [← List.append_assoc, settled_snoc, ← h.attached, Finset.mem_insert]
      by_cases hown : dev.socket = socket
      · simp [hown]
      · simp [hown, Ne.symm hown]
  | unplugged dev =>
      refine ⟨h.sound, fun socket => ?_, h.told, h.faultless, h.launched⟩
      change socket ∈ w.attached.erase dev.socket ↔ settled socket _
        (w.enumerating.map (·, true) ++ (w.callbacks ++ [(dev, false)]))
      rw [← List.append_assoc, settled_snoc, ← h.attached, Finset.mem_erase]
      by_cases hown : dev.socket = socket
      · simp [hown]
      · simp [hown, Ne.symm hown]
  | enumerated dev rest env now henumerating =>
      refine h.act (.hotplug dev true env now) rfl rfl ⟨rfl, rfl⟩ rfl (fun socket => ?_) ?_
      · rw [settled_hotplug, h.attached, henumerating]
        rfl
      · exact fun hrunning => absurd (h.launched hrunning) (by simp [henumerating])
  | launched hall hnew =>
      refine h.act .start rfl rfl ⟨rfl, rfl⟩ rfl (fun socket => ?_) fun _ => hall
      rw [propext (w.bridge.present_next (by simp) (by simp))]
      exact h.attached socket
  | called dev arrived rest env now hrunning hcallbacks =>
      refine h.act (.hotplug dev arrived env now) rfl rfl ⟨rfl, rfl⟩ rfl (fun socket => ?_)
        h.launched
      rw [settled_hotplug, h.attached, hcallbacks, h.launched hrunning]
      rfl
  | asked | bounded timeoutMs =>
      refine h.act _ rfl rfl ⟨rfl, rfl⟩ rfl (fun socket => ?_) h.launched
      rw [propext (w.bridge.present_next (by simp) (by simp))]
      exact h.attached socket
  | passed devices answers hrunning hlists =>
      exact h.act _ rfl rfl ⟨rfl, rfl⟩ rfl (h.pass hlists answers) h.launched
  | delivered m rest hport => exact h.receive hascii hport hfits

/-- A step leaves the bridge alone or has it do something. -/
theorem Steps.bridge {op : WatchOp} (hstep : Steps utf8 w op w') :
    w'.bridge = w.bridge ∨ ∃ bridgeOp, w'.bridge = (w.bridge.next bridgeOp).1 := by
  cases hstep with
  | plugged | unplugged => exact Or.inl rfl
  | enumerated | launched | called | asked | bounded | passed => exact Or.inr ⟨_, rfl⟩
  | delivered m rest hport =>
      left
      rw [receive]
      split <;> rfl

theorem Fits.of_steps {op : WatchOp} (hstep : Steps utf8 w op w') (hfits : w'.Fits) :
    w.Fits := by
  intro ev hev
  refine hfits ev ?_
  rcases hstep.bridge with hsame | ⟨bridgeOp, hnext⟩
  · rw [hsame]
    exact hev
  · rw [hnext]
    exact List.mem_append_left _ hev

theorem coupled (hascii : DecodesAscii utf8) (h : (lts utf8).Reachable w) (hfits : w.Fits) :
    w.Coupled utf8 := by
  refine h.invariant (I := fun w => w.Fits → w.Coupled utf8) ?_ ?_ hfits
  · rintro _ ⟨vid, devices, rfl⟩ -
    exact coupled_create utf8 vid devices
  · intro w op w' _ hI hstep hfits
    have hbefore : w.Fits := hfits.of_steps (steps hstep)
    exact (hI hbefore).next hascii (steps hstep) hbefore

/-- Latin-1, which ASCII is a part of. -/
def latin1 (bytes : Bytes) : String := String.ofList (bytes.map fun b => Char.ofNat b.toNat)

theorem decodesAscii_latin1 : DecodesAscii latin1 := fun _ _ => rfl

/-- An update about a camera was posted. -/
def Posted (name : Bytes) (log : List BridgeEvent) : Prop :=
  ∃ r, .post .update (some r) ∈ log ∧ r.sysfsName = name

theorem Posted.mono {name : Bytes} {log log' : List BridgeEvent} (h : Posted name log)
    (hsub : log ⊆ log') : Posted name log' := by
  obtain ⟨r, hr, hname⟩ := h
  exact ⟨r, hsub hr, hname⟩

/-- A departure is posted in its callback, and the sentinel at the start. -/
theorem next_post {w : Bridge} (h : w.Sound) {op : BridgeOp} {kind : EventKind}
    {record : Option CameraRecord} (hpost : .post kind record ∈ (w.ctx.next op).2) :
    (kind = .sentinel → op = .start ∧ (w.ctx.next op).2 = [.post .sentinel none]) ∧
    (kind = .left → ∃ dev env now, op = .hotplug dev false env now ∧
      ∀ r, record = some r → r.sysfsName = sysfsName dev.bus dev.ports) := by
  cases op with
  | start =>
      obtain ⟨rfl, rfl⟩ := BridgeEvent.post.inj (List.mem_singleton.mp hpost)
      exact ⟨fun _ => ⟨rfl, rfl⟩, by simp⟩
  | hotplug dev arrived env now =>
      obtain ⟨c, hname, hevs, -⟩ := hotplug_events w.ctx dev arrived env now
      rw [show (w.ctx.next (.hotplug dev arrived env now)).2 = _ from hevs] at hpost
      simp only [List.mem_cons, reduceCtorEq, List.not_mem_nil, or_false, false_or,
        BridgeEvent.post.injEq] at hpost
      obtain ⟨rfl, rfl⟩ := hpost
      cases arrived with
      | true => simp
      | false =>
          refine ⟨by simp, fun _ => ⟨dev, env, now, rfl, ?_⟩⟩
          intro r hr
          rw [← Option.some.inj hr]
          exact hname
  | pass devices answers =>
      obtain ⟨rfl, -⟩ := BridgeContext.mem_pass h.unready hpost
      simp
  | rescan | setTimeout => exact absurd hpost List.not_mem_nil

/-- A device that was there at the start, and stays, is announced before the sentinel. -/
structure Introduced (socket : Socket) (w : Watch) : Prop where
  sound : w.bridge.Sound
  arriving : ∀ c ∈ w.callbacks, c.1.socket = socket → c.2 = true
  staying : ∀ r, .post .left (some r) ∈ w.bridge.log → r.sysfsName ≠ sysfsName socket.1 socket.2
  found : (∃ dev ∈ w.enumerating, dev.socket = socket) ∨
    Posted (sysfsName socket.1 socket.2) w.bridge.log
  first : ∀ before after, w.bridge.log = before ++ .post .sentinel none :: after →
    Posted (sysfsName socket.1 socket.2) before

variable {socket : Socket}

theorem Introduced.act (h : w.Introduced socket) (op : BridgeOp) {v : Watch}
    (hbridge : v.bridge = w.bridge)
    (harriving : ∀ c ∈ v.callbacks, c.1.socket = socket → c.2 = true)
    (hleft : ∀ dev env now, op = .hotplug dev false env now → dev.socket ≠ socket)
    (hfound : (∃ dev ∈ v.enumerating, dev.socket = socket) ∨
      Posted (sysfsName socket.1 socket.2) (w.bridge.next op).1.log)
    (hstart : op = .start → Posted (sysfsName socket.1 socket.2) w.bridge.log) :
    (v.act op).Introduced socket := by
  have hlog : (v.act op).bridge.log = w.bridge.log ++ (w.bridge.ctx.next op).2 := by
    rw [← hbridge]
    rfl
  refine ⟨?_, harriving, ?_, ?_, ?_⟩
  · rw [Watch.act, hbridge]
    exact h.sound.next op
  · intro r hr
    rw [hlog, List.mem_append] at hr
    rcases hr with hr | hr
    · exact h.staying r hr
    · obtain ⟨dev, env, now, hop, hname⟩ := (next_post h.sound hr).2 rfl
      rw [hname r rfl]
      exact fun hsame => hleft dev env now hop (Prod.ext_iff.mpr (sysfsName_inj.mp hsame))
  · rw [Watch.act, hbridge]
    exact hfound
  · intro before after hsplit
    rw [hlog] at hsplit
    rcases List.append_eq_append_iff.mp hsplit with ⟨rest, rfl, hevs⟩ | ⟨rest, hold, hnew⟩
    · -- The sentinel is posted now, by itself.
      have hmem : .post .sentinel none ∈ (w.bridge.ctx.next op).2 := by simp [hevs]
      obtain ⟨hop, -⟩ := (next_post h.sound hmem).1 rfl
      exact (hstart hop).mono (List.subset_append_left _ _)
    · cases rest with
      | nil =>
          have hmem : .post .sentinel none ∈ (w.bridge.ctx.next op).2 := by
            rw [show (w.bridge.ctx.next op).2 = _ from hnew.symm]
            simp
          obtain ⟨hop, -⟩ := (next_post h.sound hmem).1 rfl
          rw [List.append_nil] at hold
          exact hold ▸ hstart hop
      | cons ev rest =>
          obtain ⟨rfl, -⟩ := List.cons.inj hnew
          exact h.first before rest hold

theorem Introduced.next (h : w.Introduced socket) {op : WatchOp}
    (hstep : Steps utf8 w op w') (hstays : ∀ dev, op = .unplug dev → dev.socket ≠ socket) :
    w'.Introduced socket := by
  have hkeeps : ∀ bridgeOp, Posted (sysfsName socket.1 socket.2) w.bridge.log →
      Posted (sysfsName socket.1 socket.2) (w.bridge.next bridgeOp).1.log :=
    fun bridgeOp hposted => hposted.mono (List.subset_append_left _ _)
  cases hstep with
  | plugged dev =>
      refine ⟨h.sound, ?_, h.staying, h.found, h.first⟩
      intro c hc hown
      rcases List.mem_append.mp hc with hc | hc
      · exact h.arriving c hc hown
      · rw [List.mem_singleton.mp hc]
  | unplugged dev =>
      refine ⟨h.sound, ?_, h.staying, h.found, h.first⟩
      intro c hc hown
      rcases List.mem_append.mp hc with hc | hc
      · exact h.arriving c hc hown
      · rw [List.mem_singleton.mp hc] at hown
        exact absurd hown (hstays dev rfl)
  | enumerated dev rest env now henumerating =>
      refine h.act (.hotplug dev true env now) rfl h.arriving (by simp) ?_ (by simp)
      rcases h.found with ⟨dev', hdev', hown⟩ | hposted
      · rw [henumerating, List.mem_cons] at hdev'
        rcases hdev' with rfl | hdev'
        · right
          obtain ⟨c, hname, hevs, -⟩ := hotplug_events w.bridge.ctx dev' true env now
          refine ⟨toRecord c 0, List.mem_append_right _ ?_, ?_⟩
          · rw [show (w.bridge.ctx.next (.hotplug dev' true env now)).2 = _ from hevs]
            simp
          · rw [← hown]
            exact hname
        · exact Or.inl ⟨dev', hdev', hown⟩
      · exact Or.inr (hkeeps _ hposted)
  | launched hall hnew =>
      have hposted : Posted (sysfsName socket.1 socket.2) w.bridge.log := by
        simpa [hall] using h.found
      exact h.act .start rfl h.arriving (by simp) (Or.inr (hkeeps _ hposted)) fun _ => hposted
  | called dev arrived rest env now hrunning hcallbacks =>
      have hmem : (dev, arrived) ∈ w.callbacks := by simp [hcallbacks]
      refine h.act (.hotplug dev arrived env now) rfl ?_ ?_ (h.found.imp_right (hkeeps _))
        (by simp)
      · exact fun c hc => h.arriving c (by simp [hcallbacks, hc])
      · rintro dev' env' now' heq hown
        simp only [BridgeOp.hotplug.injEq] at heq
        obtain ⟨rfl, rfl, -⟩ := heq
        exact absurd (h.arriving _ hmem hown) (by simp)
  | asked | bounded | passed =>
      exact h.act _ rfl h.arriving (by simp) (h.found.imp_right (hkeeps _)) (by simp)
  | delivered m rest hport =>
      rw [receive]
      split <;> exact ⟨h.sound, h.arriving, h.staying, h.found, h.first⟩

/-- When `start` has completed, an empty `cameras` means that none is attached: every device
that was plugged in when the discovery was created, and was not unplugged since, is in the
table, however the worker, the callbacks and the isolate were interleaved. -/
theorem started_knows_the_attached (hascii : DecodesAscii utf8) {vid : UInt16}
    {devices : List Device} {ops : List WatchOp}
    (hrun : (lts utf8).Run (create vid devices) ops w) (hfits : w.Fits)
    (hstarted : w.started = true) {dev : Device} (hdev : dev ∈ devices)
    (hstays : ∀ dev', .unplug dev' ∈ ops → dev'.socket ≠ dev.socket) :
    ∃ c, w.cameras.lookup (text utf8 (sysfsName dev.bus dev.ports)) = some c := by
  have hreach : (lts utf8).Reachable w := ⟨_, ops, ⟨vid, devices, rfl⟩, hrun⟩
  have hintroduced : w.Introduced dev.socket := by
    refine hrun.invariant_of_labels (P := fun op => ∀ dev', op = .unplug dev' →
      dev'.socket ≠ dev.socket) ?_ ?_ fun _ _ _ hop h hstep => h.next (steps hstep) hop
    · rintro op hop dev' rfl
      exact hstays dev' hop
    · exact ⟨Bridge.sound_start ⟨vid, rfl⟩, by simp [create], by simp [create],
        Or.inl ⟨dev, hdev, rfl⟩, by simp [create]⟩
  obtain ⟨delivered, hshipped, hreflects, hsentinel⟩ := (coupled hascii hreach hfits).told
  obtain ⟨before, after, rfl⟩ := List.append_of_mem (hsentinel hstarted)
  obtain ⟨rest, hlog⟩ := hshipped.isPrefix
  rw [List.append_assoc, List.cons_append] at hlog
  obtain ⟨r, hr, hname⟩ := hintroduced.first before _ hlog.symm
  -- The last that was said of the device up to now is no departure.
  have hposts : heard (sysfsName dev.bus dev.ports)
      (before ++ .post .sentinel none :: after) ≠ none := by
    rw [heard, ne_eq, List.getLast?_eq_none_iff]
    exact List.ne_nil_of_mem ((mem_filterMap_postAbout (x := (.update, r))).mpr
      ⟨List.mem_append_left _ hr, hname⟩)
  obtain ⟨⟨kind, last⟩, hlast⟩ := Option.ne_none_iff_exists'.mp hposts
  obtain ⟨hpost, hlastname⟩ := mem_filterMap_postAbout.mp (mem_of_heard hlast)
  have hpost : .post kind (some last) ∈ w.bridge.log := hshipped.isPrefix.subset hpost
  have hagrees := hreflects.agrees dev.bus dev.ports
  rw [hlast] at hagrees
  cases kind with
  | sentinel =>
      have hnone : some last = none := hintroduced.sound.proper _ hpost
      simp at hnone
  | update =>
      obtain ⟨c, hc, -⟩ := hagrees
      exact ⟨c, hc⟩
  | left => exact absurd hlastname (hintroduced.staying last hpost)

/-- The sentinel is taken while another camera is being plugged in. -/
theorem started_knows_the_attached_early :
    ∃ w, (lts latin1).Reachable w ∧ w.started = true ∧ w.callbacks.length = 1 ∧
      ∃ c, w.cameras.lookup "2-1" = some c := by
  let ops : List WatchOp := [.enumerate (Bridge.leased false) 0, .launch,
    .plug { Bridge.max2 with ports := [2] }, .deliver, .deliver]
  obtain ⟨w, hw, hstarted, hfits, hcallbacks⟩ : ∃ w,
      Lts.exec (next latin1) (create 0 [Bridge.max2]) ops = some w ∧ w.started = true ∧
      w.Fits ∧ w.callbacks.length = 1 :=
    ⟨_, rfl, rfl, by unfold Fits; decide, rfl⟩
  have hrun : (lts latin1).Run (create 0 [Bridge.max2]) ops w := Lts.run_of_exec hw
  have hknown := started_knows_the_attached decodesAscii_latin1 hrun hfits hstarted
    (show Bridge.max2 ∈ [Bridge.max2] by simp) (by simp [ops])
  exact ⟨w, ⟨_, ops, ⟨0, _, rfl⟩, hrun⟩, hstarted, hcallbacks, hknown⟩

end Watch

end Usb

end GoproNative
