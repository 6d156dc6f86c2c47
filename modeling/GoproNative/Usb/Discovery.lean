import GoproNative.Support.Transition
import GoproNative.Usb.Definitions

/-!
# The discovery in Dart

This module embeds `GoProDiscovery` in `discovery.dart`: the table of cameras, the
stream of updates, and the stream `ready` as one listener sees it.  It settles which
attachments of a camera `ready` announces, and how often.

`distinct` drops an event that equals the one it emitted last.
-/

namespace GoproNative

namespace Usb

/-! ## Streams -/

/-- `Stream.distinct` on an event, by the event emitted last. -/
def distinct {α : Type} (equals : α → α → Bool) (previous : Option α) (a : α) :
    Option α × List α :=
  match previous with
  | some b => if equals b a then (previous, []) else (some a, [a])
  | none => (some a, [a])

/-! ## Cameras -/

structure GoProCamera where
  vid : Nat
  pid : Nat
  bus : Nat
  address : Nat
  sysfsName : String
  serial : String
  serialSource : SerialSource
  ip : String
  netdev : String
  netdevFirstSeen : String
  netdevRenamed : Bool
  linkState : String
  hostIp : String
  readiness : Readiness
  hasCdc : Bool
  elapsedMs : Nat
  deriving DecidableEq

def Readiness.isReady (r : Readiness) : Bool := r = .l3Ready

def GoProCamera.isReady (c : GoProCamera) : Bool := c.readiness.isReady

/-- A decoded event from the native bridge. -/
inductive CameraEvent
  | sentinel
  | update (camera : GoProCamera)
  | left (camera : GoProCamera)

/-! ## The discovery -/

structure GoProDiscovery where
  current : AList fun _ : String => GoProCamera := ∅
  /-- `_updates` and `_departures` are closed. -/
  closed : Bool := false

namespace GoProDiscovery

/-- `_onUpdate`, with what it adds to `_updates`. -/
def onUpdate (d : GoProDiscovery) (c : GoProCamera) : GoProDiscovery × List GoProCamera :=
  ({ d with current := d.current.insert c.sysfsName c }, if d.closed then [] else [c])

/-- `_onLeft`, with what it adds to `_departures`. -/
def onLeft (d : GoProDiscovery) (c : GoProCamera) : GoProDiscovery × List GoProCamera :=
  ({ d with current := d.current.erase c.sysfsName }, if d.closed then [] else [c])

/-- `ready` on an event of `updates`, by the event it emitted last. -/
def ready (previous : Option GoProCamera) (c : GoProCamera) :
    Option GoProCamera × List GoProCamera :=
  if c.isReady then distinct (fun a b => a.sysfsName = b.sysfsName) previous c
  else (previous, [])

end GoProDiscovery

/-- A discovery and a listener of its stream `ready`. -/
structure Listening where
  discovery : GoProDiscovery
  /-- What the stream emitted last. -/
  previous : Option GoProCamera

namespace Listening

/-- An event of the bridge, with what the listener sees of it. -/
def next (l : Listening) : CameraEvent → Listening × List GoProCamera
  | .sentinel => (l, [])
  | .update c =>
      let updated := l.discovery.onUpdate c
      if updated.2 = [] then ({ l with discovery := updated.1 }, [])
      else
        let r := GoProDiscovery.ready l.previous c
        (⟨updated.1, r.1⟩, r.2)
  | .left c => ({ l with discovery := (l.discovery.onLeft c).1 }, [])

/-- All runs of a discovery with a listener from its start on. -/
def lts : Lts Listening (CameraEvent × List GoProCamera) :=
  .ofTotal (fun l => l = ⟨{}, none⟩) next

end Listening

/-! ## Attachments -/

/-- The camera that an event is a ready update of. -/
def readyName : CameraEvent → Option String
  | .update c => if c.isReady then some c.sysfsName else none
  | _ => none

/-- The cameras of the ready updates in a run. -/
def readyNames (labels : List (CameraEvent × List GoProCamera)) : List String :=
  labels.filterMap fun label => readyName label.1

/-- Whether an event is the departure of a camera. -/
def isLeft (name : String) (label : CameraEvent × List GoProCamera) : Bool :=
  match label.1 with
  | .left c => c.sysfsName = name
  | _ => false

/-- `during` lies between two consecutive departures of a camera, the start and the end
of the run included. -/
structure Attachment (name : String)
    (labels before during after : List (CameraEvent × List GoProCamera)) : Prop where
  splits : labels = before ++ during ++ after
  opens : before = [] ∨ ∃ label, before.getLast? = some label ∧ isLeft name label
  stays : ∀ label ∈ during, ¬isLeft name label
  closes : after = [] ∨ ∃ label, after.head? = some label ∧ isLeft name label

/-- What the listener sees of a camera. -/
def seen (name : String) (labels : List (CameraEvent × List GoProCamera)) :
    List GoProCamera :=
  (labels.flatMap Prod.snd).filter fun c => c.sysfsName = name

/-- An attachment with a ready update is seen once, and one without is not seen. -/
def SeenOnce (name : String) (during : List (CameraEvent × List GoProCamera)) : Prop :=
  (seen name during).length = if name ∈ readyNames during then 1 else 0

/-- The number of stretches of `a` in a list. -/
def stretches {α : Type} [DecidableEq α] (a : α) : List α → Nat
  | [] => 0
  | b :: l => stretches a l + if b = a ∧ l.head? ≠ some a then 1 else 0

/-- The ready updates of an attachment directly follow one of an earlier attachment, of
the same camera. -/
def Continues (name : String) (before during : List (CameraEvent × List GoProCamera)) :
    Prop :=
  (readyNames before).getLast? = some name ∧ (readyNames during).head? = some name

instance (name : String) (before during : List (CameraEvent × List GoProCamera)) :
    Decidable (Continues name before during) := inferInstanceAs (Decidable (_ ∧ _))

/-- No ready update of another camera comes between those of an attachment, and they
follow none of an earlier attachment; or they do, and come in two stretches. -/
def Uninterrupted (name : String)
    (before during : List (CameraEvent × List GoProCamera)) : Prop :=
  name ∈ readyNames during →
    stretches name (readyNames during) = if Continues name before during then 2 else 1

/-- What an event leaves of what is known of a camera. -/
def learn (name : String) (known : Option GoProCamera) : CameraEvent → Option GoProCamera
  | .sentinel => known
  | .update c => if c.sysfsName = name then some c else known
  | .left c => if c.sysfsName = name then none else known

/-! ## Stretches -/

/-- The number of stretches of `a` that begin in a list, behind an element. -/
def starts {α : Type} [DecidableEq α] (a : α) : Option α → List α → Nat
  | _, [] => 0
  | previous, b :: l =>
      (if b = a ∧ previous ≠ some a then 1 else 0) + starts a (some b) l

/-- A stretch begins in a list unless it is the first and began before. -/
theorem starts_add {α : Type} [DecidableEq α] (a : α) (previous : Option α) (l : List α) :
    starts a previous l + (if previous = some a ∧ l.head? = some a then 1 else 0) =
      stretches a l := by
  induction l generalizing previous with
  | nil => simp [starts, stretches]
  | cons b l ih =>
      have htail := ih (some b)
      rw [starts, stretches, List.head?_cons]
      by_cases hb : b = a
      · subst hb
        by_cases hprevious : previous = some b <;> by_cases hhead : l.head? = some b
        all_goals
          simp [hprevious, hhead] at htail ⊢
          omega
      · simp [hb] at htail ⊢
        omega

theorem stretches_of_notMem {α : Type} [DecidableEq α] {a : α} {l : List α} (h : a ∉ l) :
    stretches a l = 0 := by
  induction l with
  | nil => rfl
  | cons b l ih =>
      rw [List.mem_cons, not_or] at h
      rw [stretches, ih h.2, if_neg fun hb => h.1 hb.1.symm]

/-! ## What the listener sees -/

namespace Listening

variable {l l' : Listening}

theorem next_lookup (l : Listening) (ev : CameraEvent) (name : String) :
    (l.next ev).1.discovery.current.lookup name =
      learn name (l.discovery.current.lookup name) ev := by
  cases ev with
  | sentinel => rfl
  | update c =>
      have hcurrent : (l.next (.update c)).1.discovery.current =
          l.discovery.current.insert c.sysfsName c := by
        simp only [next]
        split <;> rfl
      rw [hcurrent, learn]
      split
      · next hname =>
        rw [← hname, AList.lookup_insert]
      · next hname => rw [AList.lookup_insert_ne fun heq => hname heq.symm]
  | left c =>
      change (l.discovery.current.erase c.sysfsName).lookup name = _
      rw [learn]
      split
      · next hname =>
        rw [← hname, AList.lookup_erase]
      · next hname => rw [AList.lookup_erase_ne fun heq => hname heq.symm]

/-- `cameras` holds every attached camera as it was last heard of, and no other. -/
theorem current_run {labels : List (CameraEvent × List GoProCamera)}
    (hrun : lts.Run l labels l') (name : String) :
    l'.discovery.current.lookup name =
      (labels.map Prod.fst).foldl (learn name) (l.discovery.current.lookup name) := by
  induction hrun with
  | nil l => rfl
  | @cons l m l' label labels hstep hrest ih =>
      have hnext : (l.next label.1).1 = m := congrArg Prod.fst hstep
      rw [ih, List.map_cons, List.foldl_cons, ← next_lookup, hnext]

/-- The camera that the stream emitted last. -/
def last (l : Listening) : Option String := l.previous.map GoProCamera.sysfsName

theorem next_closed (l : Listening) (ev : CameraEvent) :
    (l.next ev).1.discovery.closed = l.discovery.closed := by
  cases ev with
  | update c =>
      simp only [next]
      split <;> rfl
  | _ => rfl

/-- An event that is no ready update is not seen. -/
theorem next_of_not_ready {ev : CameraEvent} (h : readyName ev = none) :
    (l.next ev).1.last = l.last ∧ (l.next ev).2 = [] := by
  cases ev with
  | update c =>
      have hready : c.isReady = false := by
        simpa [readyName] using h
      simp only [next]
      split
      · exact ⟨rfl, rfl⟩
      · simp [GoProDiscovery.ready, hready, last]
  | _ => exact ⟨rfl, rfl⟩

/-- A ready update is seen unless the camera was the last that was seen. -/
theorem next_of_ready (hopen : l.discovery.closed = false) {ev : CameraEvent} {name : String}
    (h : readyName ev = some name) :
    (l.next ev).1.last = some name ∧
      ∃ c : GoProCamera, c.sysfsName = name ∧
        (l.next ev).2 = if l.last = some name then [] else [c] := by
  cases ev with
  | update c =>
      obtain ⟨hready, hname⟩ : c.isReady = true ∧ c.sysfsName = name := by
        simpa [readyName] using h
      have hnext : l.next (.update c) =
          (⟨(l.discovery.onUpdate c).1, (GoProDiscovery.ready l.previous c).1⟩,
            (GoProDiscovery.ready l.previous c).2) := by
        simp [next, GoProDiscovery.onUpdate, hopen]
      rw [hnext, GoProDiscovery.ready, if_pos hready]
      rcases hprevious : l.previous with - | b
      · exact ⟨by simp [distinct, last, hname], c, hname, by simp [distinct, last, hprevious]⟩
      · by_cases hsame : b.sysfsName = c.sysfsName
        · refine ⟨by simp [distinct, last, hsame, hname], c, hname, ?_⟩
          simp [distinct, last, hprevious, hsame, hname]
        · rw [hname] at hsame
          refine ⟨by simp [distinct, last, hsame, hname], c, hname, ?_⟩
          simp [distinct, last, hprevious, hsame, hname]
  | sentinel => simp [readyName] at h
  | left c => simp [readyName] at h

/-- What a run shows of a camera: a record for each stretch of its ready updates that
begins in the run. -/
theorem seen_run {labels : List (CameraEvent × List GoProCamera)}
    (hrun : lts.Run l labels l') (hopen : l.discovery.closed = false) (name : String) :
    l'.discovery.closed = false ∧ l'.last = (readyNames labels).getLast?.or l.last ∧
      (seen name labels).length = starts name l.last (readyNames labels) := by
  induction hrun with
  | nil l => exact ⟨hopen, rfl, rfl⟩
  | @cons l m l' label labels hstep hrest ih =>
      obtain ⟨ev, emitted⟩ := label
      have hnext : l.next ev = (m, emitted) := hstep
      have hopen' : m.discovery.closed = false := by
        rw [← hopen, ← next_closed l ev, hnext]
      obtain ⟨hclosed, hlast, hseen⟩ := ih hopen'
      have hsplit : seen name ((ev, emitted) :: labels) =
          (emitted.filter fun c => c.sysfsName = name) ++ seen name labels := by
        simp [seen]
      rcases hready : readyName ev with - | other
      · have hnames : readyNames ((ev, emitted) :: labels) = readyNames labels := by
          simp [readyNames, hready]
        obtain ⟨hsame, hnone⟩ := l.next_of_not_ready hready
        rw [hnext] at hsame hnone
        obtain rfl : emitted = [] := hnone
        have hsame : m.last = l.last := hsame
        rw [hsplit, hnames, hlast, hsame]
        exact ⟨hclosed, rfl, hsame ▸ hseen⟩
      · have hnames : readyNames ((ev, emitted) :: labels) = other :: readyNames labels := by
          simp [readyNames, hready]
        obtain ⟨hother, c, hc, hemitted⟩ := l.next_of_ready hopen hready
        rw [hnext] at hother hemitted
        have hother : m.last = some other := hother
        have hemitted : emitted = if l.last = some other then [] else [c] := hemitted
        rw [hother] at hlast hseen
        refine ⟨hclosed, ?_, ?_⟩
        · rw [hlast, hnames, List.getLast?_cons]
          cases (readyNames labels).getLast? <;> rfl
        · rw [hsplit, List.length_append, hseen, hnames, starts, hemitted]
          congr 1
          by_cases hname : other = name
          · subst hname
            by_cases hl : l.last = some other <;> simp [hl, hc]
          · by_cases hl : l.last = some other <;> simp [hl, hc, hname]

/-- An attachment is seen once exactly when its ready updates come in one stretch that no
earlier attachment began, or in two the first of which one did. -/
theorem seen_once_iff {l₀ : Listening} {labels : List (CameraEvent × List GoProCamera)}
    (hstart : lts.start l₀) (hrun : lts.Run l₀ labels l) (name : String)
    (before during after : List (CameraEvent × List GoProCamera))
    (hattachment : Attachment name labels before during after) :
    SeenOnce name during ↔ Uninterrupted name before during := by
  obtain rfl : l₀ = ⟨{}, none⟩ := hstart
  rw [hattachment.splits] at hrun
  obtain ⟨l₂, hearlier, -⟩ := hrun.split
  obtain ⟨l₁, hbefore, hduring⟩ := hearlier.split
  obtain ⟨hopen, hlast, -⟩ := seen_run hbefore rfl name
  obtain ⟨-, -, hseen⟩ := seen_run hduring hopen name
  have hlast : l₁.last = (readyNames before).getLast? := by
    rw [hlast]
    exact Option.or_none
  rw [hlast] at hseen
  have hstretches : starts name (readyNames before).getLast? (readyNames during) +
      (if Continues name before during then 1 else 0) =
        stretches name (readyNames during) := starts_add _ _ _
  rw [SeenOnce, Uninterrupted, hseen]
  by_cases hready : name ∈ readyNames during
  · rw [if_pos hready, forall_prop_of_true hready]
    by_cases hcontinues : Continues name before during
    · rw [if_pos hcontinues]
      rw [if_pos hcontinues] at hstretches
      omega
    · rw [if_neg hcontinues]
      rw [if_neg hcontinues] at hstretches
      omega
  · rw [if_neg hready]
    rw [stretches_of_notMem hready] at hstretches
    exact iff_of_true (by omega) fun h => absurd h hready

/-- A camera with a name and a readiness. -/
def camera (name : String) (readiness : Readiness) : GoProCamera where
  vid := 0x2672
  pid := 0x0059
  bus := 2
  address := 7
  sysfsName := name
  serial := "C3531325012345"
  serialSource := .sysfs
  ip := "172.23.145.51"
  netdev := "eth0"
  netdevFirstSeen := "eth0"
  netdevRenamed := false
  linkState := "unknown"
  hostIp := "172.23.145.52"
  readiness := readiness
  hasCdc := true
  elapsedMs := 754

/-- A camera that settles while another one is plugged in and out. -/
theorem seen_once_iff_settled :
    ∃ labels l, lts.Run ⟨{}, none⟩ labels l ∧ "2-1" ∈ readyNames labels ∧
      SeenOnce "2-1" labels := by
  let evs : List CameraEvent := [.sentinel, .update (camera "2-1" .usbPresent),
    .update (camera "2-2" .l3Ready), .update (camera "2-1" .l3Ready),
    .left (camera "2-2" .absent), .update (camera "2-1" .l3Ready)]
  let labels := (Lts.play next ⟨{}, none⟩ evs).2
  have hrun : lts.Run ⟨{}, none⟩ labels _ := Lts.run_of_play _ next ⟨{}, none⟩ evs
  have hattachment : Attachment "2-1" labels [] labels [] :=
    ⟨by simp, Or.inl rfl, by decide, Or.inl rfl⟩
  exact ⟨labels, _, hrun, by decide,
    (seen_once_iff rfl hrun "2-1" [] labels [] hattachment).mpr fun _ => by decide⟩

/-- A camera that is plugged out and in again is not seen a second time. -/
theorem replugged_unseen :
    ¬∀ l₀ labels l, lts.start l₀ → lts.Run l₀ labels l → ∀ name before during after,
      Attachment name labels before during after → SeenOnce name during := by
  intro h
  let first : List CameraEvent := [.update (camera "2-1" .l3Ready),
    .left (camera "2-1" .absent)]
  let second : List CameraEvent := [.update (camera "2-1" .usbPresent),
    .update (camera "2-1" .l3Ready)]
  let before := Lts.play next ⟨{}, none⟩ first
  let during := (Lts.play next before.1 second).2
  have hbefore : lts.Run ⟨{}, none⟩ before.2 before.1 := Lts.run_of_play _ next _ first
  have hduring : lts.Run before.1 during _ := Lts.run_of_play _ next _ second
  have hattachment : Attachment "2-1" (before.2 ++ during) before.2 during [] :=
    ⟨by simp, Or.inr ⟨_, rfl, rfl⟩, by decide, Or.inl rfl⟩
  have hseen : (seen "2-1" during).length = if "2-1" ∈ readyNames during then 1 else 0 :=
    h _ _ _ rfl (hbefore.append hduring) "2-1" _ _ [] hattachment
  exact absurd hseen (by decide)

end Listening

end Usb

end GoproNative
