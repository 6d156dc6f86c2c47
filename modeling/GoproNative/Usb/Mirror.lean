import GoproNative.Support.Unicode
import GoproNative.Usb.Codec
import GoproNative.Usb.Identity
import GoproNative.Usb.Settle

/-!
# What the bridge says and what the table holds

The bridge says of a device that it is there by an update, and that it is not by a
departure; Dart keeps a table of what it was told.  This module relates the two, one
operation of the bridge and one message at a time.

`utf8` need only read a text in ASCII as it is, since the entry of a device is one.
-/

namespace GoproNative

namespace Usb

/-! ## What the bridge says is there -/

/-- The last that was posted about a camera is an update. -/
def Present (name : Bytes) (log : List BridgeEvent) : Prop :=
  ∃ r, heard name log = some (.update, r)

theorem present_append_of_updates {name : Bytes} {log evs : List BridgeEvent}
    (h : ∀ x ∈ evs.filterMap (postAbout name), x.1 = .update) :
    Present name (log ++ evs) ↔ Present name log ∨ evs.filterMap (postAbout name) ≠ [] := by
  rcases hlast : heard name evs with - | ⟨kind, r⟩
  · have hnone := List.getLast?_eq_none_iff.mp hlast
    rw [Present, heard_of_silent hnone]
    simp [hnone, Present]
  · have hmem := mem_of_heard hlast
    have hkind : kind = .update := h _ hmem
    refine iff_of_true ⟨r, ?_⟩ (Or.inr (List.ne_nil_of_mem hmem))
    rw [heard_append, hlast, hkind]
    rfl

/-- A post of the bridge is its sentinel, or a record of a device. -/
def Proper : BridgeEvent → Prop
  | .post .sentinel record => record = none
  | .post _ record => ∃ c elapsed bus ports,
      record = some (toRecord c elapsed) ∧ c.sysfsName = sysfsName bus ports
  | _ => True

theorem mem_filterMap_postAbout {name : Bytes} {evs : List BridgeEvent}
    {x : EventKind × CameraRecord} :
    x ∈ evs.filterMap (postAbout name) ↔
      .post x.1 (some x.2) ∈ evs ∧ x.2.sysfsName = name := by
  rw [List.mem_filterMap]
  constructor
  · rintro ⟨ev, hev, hpost⟩
    rcases ev with ⟨cam, arrived⟩ | ⟨kind, - | r⟩ | p
    · simp [postAbout] at hpost
    · simp [postAbout] at hpost
    · simp only [postAbout, Option.ite_none_right_eq_some, Option.some.injEq] at hpost
      obtain ⟨hname, rfl⟩ := hpost
      exact ⟨hev, hname⟩
    · simp [postAbout] at hpost
  · rintro ⟨hev, hname⟩
    exact ⟨_, hev, if_pos hname⟩

theorem Present.named {name : Bytes} {log : List BridgeEvent} (h : Present name log)
    (hproper : ∀ ev ∈ log, Proper ev) : ∃ bus ports, name = sysfsName bus ports := by
  obtain ⟨r, hr⟩ := h
  obtain ⟨hpost, rfl⟩ := mem_filterMap_postAbout.mp (mem_of_heard hr)
  obtain ⟨c, elapsed, bus, ports, hrecord, hname⟩ := hproper _ hpost
  obtain rfl := Option.some.inj hrecord
  exact ⟨bus, ports, hname⟩

theorem build_sysfsName (dev : Device) (env : Snapshot) :
    (build dev env).sysfsName = sysfsName dev.bus dev.ports := by
  unfold build
  rw [Camera.advanceReadiness_sysfsName]
  simp only
  split <;> split <;> first | rfl | (split <;> rfl)

/-- The record of an arrival or of a departure, by the entry of the device. -/
theorem hotplug_events (ctx : BridgeContext) (dev : Device) (arrived : Bool)
    (env : Snapshot) (now : Nat) :
    ∃ c : Camera, c.sysfsName = sysfsName dev.bus dev.ports ∧
      (ctx.hotplug dev arrived env now).2 = [.hotplug c arrived,
        .post (if arrived then .update else .left) (some (toRecord c 0))] ∧
      ∀ p ∈ (ctx.hotplug dev arrived env now).1.pending,
        (p ∈ ctx.pending ∧ (arrived = false → p.cam.sysfsName ≠ c.sysfsName)) ∨
          (arrived = true ∧ p.cam = c) := by
  cases arrived with
  | true =>
      refine ⟨build dev env, build_sysfsName dev env, rfl, ?_⟩
      intro p hp
      rcases List.mem_append.mp hp with hp | hp
      · exact Or.inl ⟨hp, by simp⟩
      · rw [List.mem_singleton.mp hp]
        exact Or.inr ⟨rfl, rfl⟩
  | false =>
      have hname : (buildIdentity dev).sysfsName = sysfsName dev.bus dev.ports := rfl
      refine ⟨_, ?_, rfl, ?_⟩
      · split <;> exact hname
      · intro p hp
        obtain ⟨hp, hne⟩ := List.mem_filter.mp hp
        exact Or.inl ⟨hp, fun _ => of_decide_eq_true hne⟩

namespace BridgeContext

variable {ctx : BridgeContext} {name : Bytes}

/-- A rescan finds devices of the list, of the vendor. -/
theorem mem_enumerate {devices : List (Device × Snapshot)} {c : Camera}
    (hc : c ∈ (ctx.enumerate devices).2) :
    ∃ dev ∈ devices, dev.1.descriptor.map DeviceDescriptor.idVendor = some ctx.vid ∧
      c.sysfsName = sysfsName dev.1.bus dev.1.ports := by
  obtain ⟨dev, hdev, hfound⟩ := List.mem_filterMap.mp hc
  rcases hdesc : dev.1.descriptor with - | desc
  · simp [hdesc] at hfound
  · simp only [hdesc, Option.ite_none_right_eq_some, Option.some.injEq] at hfound
    obtain ⟨hvendor, rfl⟩ := hfound
    exact ⟨dev, hdev, by rw [hdesc, Option.map_some, hvendor], build_sysfsName dev.1 dev.2⟩

/-- A pass posts updates, of cameras that are being settled or that a rescan found. -/
theorem mem_pass {devices : List (Device × Snapshot)} {answers : Nat → Snapshot × Nat}
    (h : Unready ctx) {kind : EventKind} {record : Option CameraRecord}
    (hpost : .post kind record ∈ (ctx.pass devices answers).2) :
    kind = .update ∧ ∃ c elapsed, record = some (toRecord c elapsed) ∧
      ((∃ p ∈ ctx.pending, c.sysfsName = p.cam.sysfsName) ∨
        (ctx.rescan = true ∧ c ∈ (ctx.enumerate devices).2)) := by
  rw [pass_events, List.mem_append] at hpost
  rcases hpost with hscan | hloop
  · obtain ⟨hrescan, c, hc, heq⟩ := mem_scan hscan
    simp only [BridgeEvent.post.injEq] at heq
    obtain ⟨rfl, rfl⟩ := heq
    exact ⟨rfl, c, 0, rfl, Or.inr ⟨hrescan, hc⟩⟩
  · obtain ⟨r, hr, hev⟩ := List.mem_flatMap.mp hloop
    obtain ⟨p, hp, hsettles⟩ := settles_of_mem h hr
    cases hsettles with
    | quiet => simp at hev
    | moved q elapsed hname =>
        simp only [List.mem_singleton, BridgeEvent.post.injEq] at hev
        obtain ⟨rfl, rfl⟩ := hev
        exact ⟨rfl, q.cam, elapsed, rfl, Or.inl ⟨p, hp, hname⟩⟩
    | gone q elapsed hname =>
        simp only [List.mem_cons, List.not_mem_nil, or_false, BridgeEvent.post.injEq,
          reduceCtorEq] at hev
        obtain ⟨rfl, rfl⟩ := hev
        exact ⟨rfl, q.cam, elapsed, rfl, Or.inl ⟨p, hp, hname⟩⟩

/-- What stays in `pending` over a pass was there. -/
theorem pending_of_pass {devices : List (Device × Snapshot)}
    {answers : Nat → Snapshot × Nat} (h : Unready ctx) {q : Pending}
    (hq : q ∈ (ctx.pass devices answers).1.pending) :
    ∃ p ∈ ctx.pending, q.cam.sysfsName = p.cam.sysfsName := by
  obtain ⟨r, hr, hrq⟩ := List.mem_filterMap.mp hq
  obtain ⟨p, hp, hsettles⟩ := settles_of_mem h hr
  exact ⟨p, hp, hsettles.keeps_name hrq⟩

end BridgeContext

namespace Bridge

/-- What the bridge keeps about the cameras it settles and the records it posts. -/
structure Sound (w : Bridge) : Prop where
  unready : Unready w.ctx
  settling : ∀ p ∈ w.ctx.pending, Present p.cam.sysfsName w.log
  proper : ∀ ev ∈ w.log, Proper ev

variable {w : Bridge} {name : Bytes}

/-- An arrival makes a camera present, and a departure makes it not. -/
theorem present_hotplug (w : Bridge) (dev : Device) (arrived : Bool) (env : Snapshot)
    (now : Nat) (name : Bytes) :
    Present name (w.next (.hotplug dev arrived env now)).1.log ↔
      if sysfsName dev.bus dev.ports = name then arrived = true else Present name w.log := by
  obtain ⟨c, hname, hevs, -⟩ := hotplug_events w.ctx dev arrived env now
  have hlog : (w.next (.hotplug dev arrived env now)).1.log = w.log ++ _ :=
    congrArg (w.log ++ ·) hevs
  rw [hlog, Present, heard_append]
  have hrecord : (toRecord c 0).sysfsName = sysfsName dev.bus dev.ports := hname
  by_cases hown : sysfsName dev.bus dev.ports = name
  · rw [if_pos hown]
    cases arrived <;> simp [heard, postAbout, hrecord, hown]
  · rw [if_neg hown]
    simp [heard, postAbout, hrecord, hown, Present]

/-- A pass makes those cameras present that a rescan finds. -/
theorem Sound.present_pass (h : w.Sound) (devices : List (Device × Snapshot))
    (answers : Nat → Snapshot × Nat) (name : Bytes) :
    Present name (w.next (.pass devices answers)).1.log ↔
      Present name w.log ∨
        (w.ctx.rescan = true ∧ ∃ c ∈ (w.ctx.enumerate devices).2, c.sysfsName = name) := by
  have hlog : (w.next (.pass devices answers)).1.log =
      w.log ++ (w.ctx.pass devices answers).2 := rfl
  rw [hlog, present_append_of_updates]
  · constructor
    · rintro (hbefore | hposts)
      · exact Or.inl hbefore
      · obtain ⟨⟨kind, r⟩, hx⟩ := List.exists_mem_of_ne_nil _ hposts
        obtain ⟨hpost, hname⟩ := mem_filterMap_postAbout.mp hx
        obtain ⟨-, c, elapsed, hrecord, hc⟩ := BridgeContext.mem_pass h.unready hpost
        obtain rfl := Option.some.inj hrecord
        have hname : c.sysfsName = name := hname
        rcases hc with ⟨p, hp, hsame⟩ | ⟨hrescan, hfound⟩
        · rw [← hname, hsame]
          exact Or.inl (h.settling p hp)
        · exact Or.inr ⟨hrescan, c, hfound, hname⟩
    · rintro (hbefore | ⟨hrescan, c, hc, rfl⟩)
      · exact Or.inl hbefore
      · obtain ⟨r, hr, -⟩ := BridgeContext.heard_scan hrescan hc
        right
        rw [BridgeContext.pass_events, List.filterMap_append]
        exact List.append_ne_nil_of_left_ne_nil (List.ne_nil_of_mem (mem_of_heard hr)) _
  · intro x hx
    exact (BridgeContext.mem_pass h.unready (mem_filterMap_postAbout.mp hx).1).1

/-- The other operations say nothing of any camera. -/
theorem present_next (w : Bridge) {op : BridgeOp}
    (hpass : ∀ devices answers, op ≠ .pass devices answers)
    (hhotplug : ∀ dev arrived env now, op ≠ .hotplug dev arrived env now) :
    Present name (w.next op).1.log ↔ Present name w.log := by
  cases op with
  | start => exact iff_of_eq (congrArg (fun x => ∃ r, x = some (EventKind.update, r))
      (heard_of_silent rfl))
  | hotplug dev arrived env now => exact absurd rfl (hhotplug dev arrived env now)
  | pass devices answers => exact absurd rfl (hpass devices answers)
  | rescan | setTimeout =>
      have hlog : w.log ++ [] = w.log := List.append_nil _
      exact iff_of_eq (congrArg (Present name) hlog)

/-- What is posted is of a device. -/
theorem Sound.proper_next (h : w.Sound) {op : BridgeOp} {kind : EventKind}
    {record : Option CameraRecord} (hpost : .post kind record ∈ (w.ctx.next op).2) :
    Proper (.post kind record) := by
  cases op with
  | start =>
      obtain ⟨rfl, rfl⟩ := BridgeEvent.post.inj (List.mem_singleton.mp hpost)
      exact rfl
  | hotplug dev arrived env now =>
      obtain ⟨c, hname, hevs, -⟩ := hotplug_events w.ctx dev arrived env now
      rw [show (w.ctx.next (.hotplug dev arrived env now)).2 = _ from hevs] at hpost
      simp only [List.mem_cons, reduceCtorEq, List.not_mem_nil, or_false, false_or,
        BridgeEvent.post.injEq] at hpost
      obtain ⟨rfl, rfl⟩ := hpost
      cases arrived <;> exact ⟨c, 0, _, _, rfl, hname⟩
  | pass devices answers =>
      obtain ⟨rfl, c, elapsed, rfl, hc⟩ := BridgeContext.mem_pass h.unready hpost
      rcases hc with ⟨p, hp, hsame⟩ | ⟨-, hfound⟩
      · obtain ⟨bus, ports, hname⟩ := (h.settling p hp).named h.proper
        exact ⟨c, elapsed, bus, ports, rfl, hsame.trans hname⟩
      · obtain ⟨dev, -, -, hname⟩ := BridgeContext.mem_enumerate hfound
        exact ⟨c, elapsed, _, _, rfl, hname⟩
  | rescan | setTimeout => exact absurd hpost List.not_mem_nil

theorem Sound.next (h : w.Sound) (op : BridgeOp) : (w.next op).1.Sound := by
  refine ⟨unready_next h.unready op, ?_, ?_⟩
  · intro p hp
    cases op with
    | pass devices answers =>
        obtain ⟨q, hq, hsame⟩ := BridgeContext.pending_of_pass h.unready hp
        rw [hsame, h.present_pass]
        exact Or.inl (h.settling q hq)
    | hotplug dev arrived env now =>
        obtain ⟨c, hname, -, hpending⟩ := hotplug_events w.ctx dev arrived env now
        rw [present_hotplug, ← hname]
        rcases hpending p hp with ⟨hold, hleft⟩ | ⟨harrived, rfl⟩
        · split
          · next hsame => simpa using fun hno => hleft hno hsame.symm
          · exact h.settling p hold
        · rw [if_pos rfl]
          exact harrived
    | start | rescan | setTimeout =>
        rw [present_next w (by simp) (by simp)]
        exact h.settling p hp
  · intro ev hev
    rcases List.mem_append.mp hev with hev | hev
    · exact h.proper ev hev
    · rcases ev with ⟨cam, arrived⟩ | ⟨kind, record⟩ | p
      · trivial
      · exact h.proper_next hev
      · trivial

theorem sound_start {w : Bridge} (h : lts.start w) : w.Sound := by
  obtain ⟨vid, rfl⟩ := h
  exact ⟨by simp [Unready, BridgeContext.create], by simp [BridgeContext.create], by simp⟩

end Bridge

/-! ## What Dart makes of a message -/

/-- The message that an event is. -/
def BridgeEvent.message : BridgeEvent → Option Bytes
  | .post kind record => some (posted kind record)
  | _ => none

/-- `utf8` reads a text in ASCII as it is. -/
def DecodesAscii (utf8 : Bytes → String) : Prop :=
  ∀ s : Bytes, (∀ b ∈ s, b < 0x80) → utf8 s = String.ofList (s.map fun b => Char.ofNat b.toNat)

theorem text_of_ascii {utf8 : Bytes → String} (h : DecodesAscii utf8) {s : Bytes}
    (hs : ∀ b ∈ s, b < 0x80) :
    text utf8 s = String.ofList (s.map fun b => Char.ofNat b.toNat) := by
  rw [text]
  split
  · next hnil => rw [hnil]; rfl
  · exact h s hs

theorem sysfsName_ascii (bus : UInt8) (ports : List UInt8) :
    ∀ b ∈ sysfsName bus ports, b < 0x80 := by
  have hformat : ∀ n : UInt8, ∀ b ∈ format n, b < 0x80 := by
    intro n b hb
    have hdigit := isDigit_format n b hb
    simp only [isDigit, Bool.and_eq_true, decide_eq_true_eq] at hdigit
    exact UInt8.lt_of_le_of_lt hdigit.2 (by decide)
  have husb : ∀ b ∈ ascii "usb", b < 0x80 := by simp [ascii]
  have hdash : ∀ b ∈ ascii "-", b < 0x80 := by simp [ascii]
  have hdot : ∀ b ∈ ascii ".", b < 0x80 := by simp [ascii]
  intro b hb
  cases ports with
  | nil => exact (List.mem_append.mp hb).elim (husb b) (hformat bus b)
  | cons p ports =>
      simp only [sysfsName, List.mem_append, List.mem_flatMap] at hb
      rcases hb with ((hb | hb) | hb) | ⟨q, -, hb | hb⟩
      · exact hformat bus b hb
      · exact hdash b hb
      · exact hformat p b hb
      · exact hdot b hb
      · exact hformat q b hb

/-- Dart tells the devices apart by their entries. -/
theorem text_sysfsName_inj {utf8 : Bytes → String} (h : DecodesAscii utf8)
    {bus bus' : UInt8} {ports ports' : List UInt8} :
    text utf8 (sysfsName bus ports) = text utf8 (sysfsName bus' ports') ↔
      sysfsName bus ports = sysfsName bus' ports' := by
  refine ⟨?_, fun heq => by rw [heq]⟩
  rw [text_of_ascii h (sysfsName_ascii bus ports), text_of_ascii h (sysfsName_ascii bus' ports'),
    String.ofList_inj]
  refine (List.map_inj_right ?_).mp
  intro b b' hchar
  have hvalid : ∀ b : UInt8, (Char.ofNat b.toNat).toNat = b.toNat := by
    intro b
    have hlt : b.toNat < 256 := b.toNat_lt
    exact Utf16.toNat_ofNat (Or.inl (by omega))
  apply UInt8.toNat.inj
  rw [← hvalid b, hchar, hvalid b']

/-- Four bytes hold the length of each text of the record. -/
def CameraRecord.Fits (r : CameraRecord) : Prop :=
  ∀ s ∈ [r.sysfsName, r.serial, r.ip, r.netdev, r.netdevFirstSeen, r.linkState, r.hostIp],
    s.length < 2 ^ 32

instance (r : CameraRecord) : Decidable r.Fits := inferInstanceAs (Decidable (∀ s ∈ _, _))

def BridgeEvent.Fits : BridgeEvent → Prop
  | .post _ (some r) => r.Fits
  | _ => True

instance : DecidablePred BridgeEvent.Fits
  | .post _ (some r) => inferInstanceAs (Decidable r.Fits)
  | .post _ none | .hotplug _ _ | .erased _ => inferInstanceAs (Decidable True)

/-- A decoded event says what was posted. -/
inductive Says (utf8 : Bytes → String) : BridgeEvent → CameraEvent → Prop
  | sentinel : Says utf8 (.post .sentinel none) .sentinel
  | update {r : CameraRecord} {c : GoProCamera} (h : r.Mirrors utf8 c) :
      Says utf8 (.post .update (some r)) (.update c)
  | left {r : CameraRecord} {c : GoProCamera} (h : r.Mirrors utf8 c) :
      Says utf8 (.post .left (some r)) (.left c)

/-- What the bridge posts, Dart decodes. -/
theorem decodeEvent_message (utf8 : Bytes → String) {ev : BridgeEvent} {m : Bytes}
    (hproper : Proper ev) (hfits : ev.Fits) (hm : ev.message = some m) :
    ∃ heard, decodeEvent utf8 m = .ok (some heard) ∧ Says utf8 ev heard := by
  have hrecord : ∀ kind ≠ EventKind.sentinel, ∀ c elapsed,
      ev = .post kind (some (toRecord c elapsed)) →
      ∃ c', (toRecord c elapsed).Mirrors utf8 c' ∧
        decodeEvent utf8 m = .ok (some (.ofKind kind c')) := by
    rintro kind hkind c elapsed rfl
    have hencodable : (toRecord c elapsed).Encodable :=
      encodable_toRecord c elapsed hfits
    obtain ⟨⟨c', hmirrors, hdecode, -⟩, -⟩ :=
      camera_record_round_trips utf8 hencodable hkind
    exact ⟨c', hmirrors, by rw [← Option.some.inj hm, hdecode]⟩
  rcases ev with ⟨cam, arrived⟩ | ⟨kind, record⟩ | p
  · simp [BridgeEvent.message] at hm
  · cases kind with
    | sentinel =>
        have hnone : record = none := hproper
        subst hnone
        obtain rfl : [0] = m := Option.some.inj hm
        exact ⟨.sentinel, rfl, .sentinel⟩
    | update =>
        obtain ⟨c, elapsed, bus, ports, rfl, -⟩ := hproper
        obtain ⟨c', hmirrors, hdecode⟩ := hrecord .update (by decide) c elapsed rfl
        exact ⟨_, hdecode, .update hmirrors⟩
    | left =>
        obtain ⟨c, elapsed, bus, ports, rfl, -⟩ := hproper
        obtain ⟨c', hmirrors, hdecode⟩ := hrecord .left (by decide) c elapsed rfl
        exact ⟨_, hdecode, .left hmirrors⟩
  · simp [BridgeEvent.message] at hm

/-! ## The table against what was said -/

/-- What the table holds under the entry of a device, by what was last posted about it. -/
def Agrees (utf8 : Bytes → String) (last : Option (EventKind × CameraRecord))
    (known : Option GoProCamera) : Prop :=
  match last with
  | some (.update, r) => ∃ c, known = some c ∧ r.Mirrors utf8 c
  | _ => known = none

/-- The table holds the devices that are present by a log, as it last said of them, and
nothing else. -/
structure Listening.Reflects (utf8 : Bytes → String) (l : Listening)
    (log : List BridgeEvent) : Prop where
  agrees : ∀ bus ports, Agrees utf8 (heard (sysfsName bus ports) log)
    (l.discovery.current.lookup (text utf8 (sysfsName bus ports)))
  devices : ∀ name ∈ l.discovery.current, ∃ bus ports, name = text utf8 (sysfsName bus ports)

theorem Listening.Reflects.mem_iff {utf8 : Bytes → String} {l : Listening}
    {log : List BridgeEvent} (h : l.Reflects utf8 log) (bus : UInt8) (ports : List UInt8) :
    text utf8 (sysfsName bus ports) ∈ l.discovery.current ↔
      Present (sysfsName bus ports) log := by
  have hagrees := h.agrees bus ports
  rw [← AList.lookup_isSome, Present]
  rcases hheard : heard (sysfsName bus ports) log with - | ⟨- | - | -, r⟩
  all_goals
    rw [hheard] at hagrees
    simp only [Agrees] at hagrees
  · simp [hagrees]
  · simp [hagrees]
  · obtain ⟨c, hc, -⟩ := hagrees
    simp [hc]
  · simp [hagrees]

/-- What is not posted changes nothing. -/
theorem Listening.Reflects.silent {utf8 : Bytes → String} {l : Listening}
    {log silent : List BridgeEvent} (h : l.Reflects utf8 log)
    (hsilent : ∀ ev ∈ silent, ev.message = none) : l.Reflects utf8 (log ++ silent) := by
  refine ⟨fun bus ports => ?_, h.devices⟩
  rw [heard_of_silent]
  · exact h.agrees bus ports
  · rw [List.filterMap_eq_nil_iff]
    intro ev hev
    have hnone := hsilent ev hev
    rcases ev with ⟨cam, arrived⟩ | ⟨kind, record⟩ | p
    · rfl
    · simp [BridgeEvent.message] at hnone
    · rfl

theorem heard_snoc {name : Bytes} {log : List BridgeEvent} (ev : BridgeEvent) :
    heard name (log ++ [ev]) = (postAbout name ev).or (heard name log) := by
  rw [heard_append]
  congr 1
  rcases hpost : postAbout name ev with - | x <;> simp [heard, hpost]

/-- A message takes the table to what the log says with it. -/
theorem Listening.Reflects.deliver {utf8 : Bytes → String} (hascii : DecodesAscii utf8)
    {l : Listening} {log : List BridgeEvent} (h : l.Reflects utf8 log) {ev : BridgeEvent}
    {event : CameraEvent} (hproper : Proper ev) (hmeant : Says utf8 ev event) :
    (l.next event).1.Reflects utf8 (log ++ [ev]) := by
  have hown : ∀ {r : CameraRecord} {c : GoProCamera}, r.Mirrors utf8 c →
      (∃ bus ports, r.sysfsName = sysfsName bus ports) → ∀ bus ports,
      (c.sysfsName = text utf8 (sysfsName bus ports) ↔ r.sysfsName = sysfsName bus ports) := by
    rintro r c hmirrors ⟨bus', ports', hname⟩ bus ports
    rw [hmirrors.sysfsName, hname, text_sysfsName_inj hascii]
  have hkeys : ∀ name ∈ (l.next event).1.discovery.current,
      name ∈ l.discovery.current ∨ ∃ c, event = .update c ∧ c.sysfsName = name := by
    intro name hname
    rw [← AList.lookup_isSome, next_lookup] at hname
    cases event with
    | sentinel => exact Or.inl (AList.lookup_isSome.mp hname)
    | update c =>
        rw [learn] at hname
        split at hname
        · next hc => exact Or.inr ⟨c, rfl, hc⟩
        · exact Or.inl (AList.lookup_isSome.mp hname)
    | left c =>
        rw [learn] at hname
        split at hname
        · simp at hname
        · exact Or.inl (AList.lookup_isSome.mp hname)
  refine ⟨fun bus ports => ?_, fun name hname => ?_⟩
  · have hbefore := h.agrees bus ports
    rw [next_lookup, heard_snoc]
    cases hmeant with
    | sentinel => exact hbefore
    | @update r c hmirrors =>
        obtain ⟨cam, elapsed, bus', ports', hrecord, hdevice⟩ := hproper
        have hrecord := Option.some.inj hrecord
        have hname := hown hmirrors ⟨bus', ports', hrecord ▸ hdevice⟩ bus ports
        rw [learn, postAbout]
        by_cases hsame : r.sysfsName = sysfsName bus ports
        · rw [if_pos (hname.mpr hsame), if_pos hsame]
          exact ⟨_, rfl, hmirrors⟩
        · rw [if_neg (hname.not.mpr hsame), if_neg hsame]
          exact hbefore
    | @left r c hmirrors =>
        obtain ⟨cam, elapsed, bus', ports', hrecord, hdevice⟩ := hproper
        have hrecord := Option.some.inj hrecord
        have hname := hown hmirrors ⟨bus', ports', hrecord ▸ hdevice⟩ bus ports
        rw [learn, postAbout]
        by_cases hsame : r.sysfsName = sysfsName bus ports
        · rw [if_pos (hname.mpr hsame), if_pos hsame]
          rfl
        · rw [if_neg (hname.not.mpr hsame), if_neg hsame]
          exact hbefore
  · rcases hkeys name hname with hold | ⟨c, rfl, rfl⟩
    · exact h.devices name hold
    · cases hmeant with
      | update hmirrors =>
          obtain ⟨c', elapsed, bus, ports, hrecord, hdevice⟩ := hproper
          have hrecord := Option.some.inj hrecord
          refine ⟨bus, ports, ?_⟩
          rw [hmirrors.sysfsName, hrecord]
          exact congrArg _ hdevice

end Usb

end GoproNative
