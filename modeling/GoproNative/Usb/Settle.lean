import GoproNative.Support.Transition
import GoproNative.Usb.Sampling
import Mathlib.Data.List.Induction

/-!
# The settle loop

Records are posted from the hotplug callback, from a rescan and from the loop over
`pending`.  This module couples what was last posted of a camera with what the worker
still intends to do about it, over all runs of the bridge.

The log of a run is carried along with the bridge.  A camera is given up once the loop
took it out of `pending` short of `kL3Ready`, until it is plugged in or out again.  What
the loop posted as it gave the camera up is the final record, until something else is
posted about the camera: a rescan reopens the question, and then an entry has to be there
to settle it.
-/

namespace GoproNative

namespace Usb

/-- A bridge with everything it did. -/
structure Bridge where
  ctx : BridgeContext
  log : List BridgeEvent

namespace Bridge

def next (w : Bridge) (op : BridgeOp) : Bridge × List BridgeEvent :=
  (⟨(w.ctx.next op).1, w.log ++ (w.ctx.next op).2⟩, (w.ctx.next op).2)

/-- All runs of a bridge. -/
def lts : Lts Bridge (BridgeOp × List BridgeEvent) :=
  .ofTotal (fun w => ∃ vid, w = ⟨.create vid, []⟩) next

end Bridge

/-! ## What the log says of a camera -/

/-- What an event posts about a camera. -/
def postAbout (name : Bytes) : BridgeEvent → Option (EventKind × CameraRecord)
  | .post kind (some r) => if r.sysfsName = name then some (kind, r) else none
  | _ => none

/-- What was last posted about a camera. -/
def heard (name : Bytes) (log : List BridgeEvent) : Option (EventKind × CameraRecord) :=
  (log.filterMap (postAbout name)).getLast?

/-- Whether an event gives a camera up, if it decides that. -/
def fateOf (name : Bytes) : BridgeEvent → Option Bool
  | .hotplug cam _ => if cam.sysfsName = name then some false else none
  | .erased p =>
      if p.cam.sysfsName = name ∧ p.cam.readiness ≠ .l3Ready then some true else none
  | .post _ _ => none

/-- The loop took an entry of the camera out of `pending`, because its budget expired or
because it was sampled absent, and the camera was not plugged in or out since. -/
def GivenUp (name : Bytes) (log : List BridgeEvent) : Prop :=
  (log.filterMap (fateOf name)).getLast? = some true

instance (name : Bytes) (log : List BridgeEvent) : Decidable (GivenUp name log) :=
  inferInstanceAs (Decidable (_ = _))

/-- As `fateOf`, where a record posted about the camera reopens the question. -/
def wordOn (name : Bytes) (ev : BridgeEvent) : Option Bool :=
  (fateOf name ev).or ((postAbout name ev).map fun _ => false)

/-- The camera was given up, and nothing was posted about it since. -/
def Concluded (name : Bytes) (log : List BridgeEvent) : Prop :=
  (log.filterMap (wordOn name)).getLast? = some true

instance (name : Bytes) (log : List BridgeEvent) : Decidable (Concluded name log) :=
  inferInstanceAs (Decidable (_ = _))

/-- Whether one of the entries is about a camera. -/
def HasEntry (entries : List Pending) (name : Bytes) : Prop :=
  name ∈ entries.map fun p => p.cam.sysfsName

/-- A camera whose last record is not ready has an entry, or that record is its final
one. -/
def FollowsUp (entries : List Pending) (log : List BridgeEvent) : Prop :=
  ∀ name r, heard name log = some (.update, r) →
    r.readiness < Readiness.l3Ready.value → HasEntry entries name ∨ Concluded name log

namespace Bridge

/-- Whether the loop is still about a camera. -/
def Settling (w : Bridge) (name : Bytes) : Prop := HasEntry w.ctx.pending name

instance (w : Bridge) (name : Bytes) : Decidable (w.Settling name) :=
  inferInstanceAs (Decidable (_ ∈ _))

/-- A camera whose last record is not ready is being settled, or was given up. -/
def Remembers (w : Bridge) : Prop :=
  ∀ name r, heard name w.log = some (.update, r) →
    r.readiness < Readiness.l3Ready.value → w.Settling name ∨ GivenUp name w.log

/-- No record that is not ready stands without anything to update it, be it a rescan that
posted it: its camera is being settled, or it is the final record of a camera that the
loop gave up. -/
def StrandsNone (w : Bridge) : Prop := FollowsUp w.ctx.pending w.log

/-- Whenever an entry left `pending` through the loop, the last record posted for it
carried its final readiness. -/
def Tells (w : Bridge) : Prop :=
  ∀ before p after, w.log = before ++ .erased p :: after →
    ∃ r, heard p.cam.sysfsName before = some (.update, r) ∧
      r.readiness = p.cam.readiness.value

/-- A rescan finds only cameras that are being settled. -/
def FindsSettling (w : Bridge) (label : BridgeOp × List BridgeEvent) : Prop :=
  ∀ devices answers, label.1 = .pass devices answers → w.ctx.rescan = true →
    ∀ c ∈ (w.ctx.enumerate devices).2, w.Settling c.sysfsName

end Bridge

/-! ## Sampling -/

theorem build_readiness (dev : Device) (env : Snapshot) :
    (build dev env).readiness ≠ .l3Ready := Camera.advanceReadiness_zero _ env

theorem Readiness.value_lt_iff (r : Readiness) :
    r.value < Readiness.l3Ready.value ↔ r ≠ .l3Ready := by
  cases r <;> decide

/-! ## The loop -/

/-- What the loop does with an entry: it stays, not ready, and its record is posted or
not; or it goes, and its record is posted as it goes. -/
inductive Settles (p : Pending) : Option Pending × List BridgeEvent → Prop
  | quiet (q : Pending) : q.cam.sysfsName = p.cam.sysfsName → q.last ≠ .l3Ready →
      Settles p (some q, [])
  | moved (q : Pending) (elapsed : UInt32) : q.cam.sysfsName = p.cam.sysfsName →
      q.last ≠ .l3Ready →
      Settles p (some q, [.post .update (some (toRecord q.cam elapsed))])
  | gone (q : Pending) (elapsed : UInt32) : q.cam.sysfsName = p.cam.sysfsName →
      Settles p (none, [.post .update (some (toRecord q.cam elapsed)), .erased q])

theorem BridgeContext.settle_settles (budget : Int32) {p : Pending}
    (hlast : p.last ≠ .l3Ready) (env : Snapshot) (now : Nat) :
    Settles p (settle budget p env now) := by
  have hname := Camera.advanceReadiness_sysfsName p.cam 8080 env
  unfold settle
  simp only
  split
  · next hdone =>
    by_cases hsame : (p.cam.advanceReadiness 8080 env).readiness = p.last
    · simp only [hsame, ne_eq, not_true_eq_false, if_false, List.nil_append, true_and,
        hlast, not_false_eq_true, if_true, List.cons_append]
      exact .gone ⟨_, _, _⟩ _ hname
    · simp only [hsame, ne_eq, not_false_eq_true, if_true, false_and, if_false,
        List.append_nil, List.cons_append, List.nil_append]
      exact .gone ⟨_, _, _⟩ _ hname
  · next hdone =>
    rw [not_or] at hdone
    split
    · exact .moved _ _ hname hdone.1
    · exact .quiet _ hname hdone.1

/-- No entry of `pending` was last seen ready. -/
def Unready (ctx : BridgeContext) : Prop := ∀ p ∈ ctx.pending, p.last ≠ .l3Ready

namespace BridgeContext

/-- The loop over `pending`. -/
def settleAll (ctx : BridgeContext) (answers : Nat → Snapshot × Nat) :
    List (Option Pending × List BridgeEvent) :=
  ctx.pending.mapIdx fun i p => settle ctx.timeoutMs p (answers i).1 (answers i).2

/-- The events of a rescan, if there is one. -/
def scan (ctx : BridgeContext) (devices : List (Device × Snapshot)) : List BridgeEvent :=
  if ctx.rescan then
    (ctx.enumerate devices).2.map fun c => .post .update (some (toRecord c 0))
  else []

theorem pass_events (ctx : BridgeContext) (devices : List (Device × Snapshot))
    (answers : Nat → Snapshot × Nat) :
    (ctx.pass devices answers).2 =
      ctx.scan devices ++ (ctx.settleAll answers).flatMap Prod.snd := by
  unfold pass scan
  simp only
  split <;> rfl

variable {ctx : BridgeContext}

theorem settles_of_mem (h : Unready ctx) {answers : Nat → Snapshot × Nat}
    {r : Option Pending × List BridgeEvent} (hr : r ∈ ctx.settleAll answers) :
    ∃ p ∈ ctx.pending, Settles p r := by
  obtain ⟨i, hi, rfl⟩ := List.mem_mapIdx.mp hr
  have hp := List.getElem_mem hi
  exact ⟨_, hp, settle_settles _ (h _ hp) _ _⟩

theorem forall_settles (h : Unready ctx) (answers : Nat → Snapshot × Nat) :
    List.Forall₂ Settles ctx.pending (ctx.settleAll answers) := by
  refine List.forall₂_iff_get.mpr ⟨by simp [settleAll], ?_⟩
  intro i hi hi'
  simp only [settleAll, List.get_eq_getElem, List.getElem_mapIdx]
  exact settle_settles _ (h _ (List.getElem_mem hi)) _ _

end BridgeContext

variable {p : Pending} {r : Option Pending × List BridgeEvent} {name : Bytes}

theorem Settles.keeps_name (h : Settles p r) {q : Pending} (hq : r.1 = some q) :
    q.cam.sysfsName = p.cam.sysfsName := by
  cases h with
  | quiet q' hname _ => exact Option.some.inj hq ▸ hname
  | moved q' elapsed hname _ => exact Option.some.inj hq ▸ hname
  | gone q' elapsed hname => simp at hq

theorem Settles.unready (h : Settles p r) {q : Pending} (hq : r.1 = some q) :
    q.last ≠ .l3Ready := by
  cases h with
  | quiet q' _ hlast => exact Option.some.inj hq ▸ hlast
  | moved q' elapsed _ hlast => exact Option.some.inj hq ▸ hlast
  | gone q' elapsed _ => simp at hq

/-- The loop says of an entry nothing about another camera. -/
theorem Settles.words (h : Settles p r) (hname : p.cam.sysfsName ≠ name) :
    ∀ ev ∈ r.2, wordOn name ev = none := by
  cases h with
  | quiet q _ _ => simp
  | moved q elapsed hq _ =>
      have hq : q.cam.sysfsName ≠ name := fun heq => hname (hq.symm.trans heq)
      simp [wordOn, fateOf, postAbout, toRecord, hq]
  | gone q elapsed hq =>
      have hq : q.cam.sysfsName ≠ name := fun heq => hname (hq.symm.trans heq)
      simp [wordOn, fateOf, postAbout, toRecord, hq]

theorem Settles.own (h : Settles p r) (hspoken : ¬∀ ev ∈ r.2, wordOn name ev = none) :
    p.cam.sysfsName = name := by
  by_contra hother
  exact hspoken (h.words hother)

/-! ## Logs -/

variable {log evs : List BridgeEvent}

theorem heard_append (log evs : List BridgeEvent) :
    heard name (log ++ evs) = (heard name evs).or (heard name log) := by
  simp [heard, List.filterMap_append, List.getLast?_append]

theorem heard_of_silent (h : evs.filterMap (postAbout name) = []) :
    heard name (log ++ evs) = heard name log := by
  rw [heard_append, heard, h]
  rfl

theorem mem_of_heard {x : EventKind × CameraRecord} (h : heard name log = some x) :
    x ∈ log.filterMap (postAbout name) :=
  List.mem_of_getLast? h

theorem wordOn_eq_none_iff {ev : BridgeEvent} :
    wordOn name ev = none ↔ fateOf name ev = none ∧ postAbout name ev = none := by
  rw [wordOn, Option.or_eq_none_iff, Option.map_eq_none_iff]

/-- Where no word on a camera falls, nothing is posted about it. -/
theorem heard_of_wordless (h : ∀ ev ∈ evs, wordOn name ev = none) :
    heard name (log ++ evs) = heard name log := by
  apply heard_of_silent
  rw [List.filterMap_eq_nil_iff]
  exact fun ev hev => (wordOn_eq_none_iff.mp (h ev hev)).2

theorem concluded_of_wordless (h : ∀ ev ∈ evs, wordOn name ev = none) :
    Concluded name (log ++ evs) ↔ Concluded name log := by
  rw [Concluded, List.filterMap_append, List.filterMap_eq_nil_iff.mpr h, List.append_nil,
    Concluded]

/-- A camera that was given up last, and not heard of since, was given up. -/
theorem Concluded.givenUp (h : Concluded name log) : GivenUp name log := by
  induction log using List.reverseRecOn with
  | nil => exact h
  | append_singleton log ev ih =>
      rw [Concluded, List.filterMap_append] at h
      rw [GivenUp, List.filterMap_append]
      cases hfate : fateOf name ev with
      | some given =>
          have hword : wordOn name ev = some given := by rw [wordOn, hfate, Option.some_or]
          simpa [hword, hfate] using h
      | none =>
          cases hpost : postAbout name ev with
          | some x =>
              have hword : wordOn name ev = some false := by simp [wordOn, hfate, hpost]
              simp [hword] at h
          | none =>
              have hword := wordOn_eq_none_iff.mpr ⟨hfate, hpost⟩
              rw [List.filterMap_cons_none hword, List.filterMap_nil, List.append_nil] at h
              rw [List.filterMap_cons_none hfate, List.filterMap_nil, List.append_nil]
              exact ih h

/-- An entry that goes tells of its camera once more, and short of `kL3Ready` that is its
final record. -/
theorem heard_gone {q : Pending} {elapsed : UInt32} (hq : q.cam.sysfsName = name) :
    heard name (log ++ [.post .update (some (toRecord q.cam elapsed)), .erased q]) =
      some (.update, toRecord q.cam elapsed) := by
  have hpost : postAbout name (.post .update (some (toRecord q.cam elapsed))) =
      some (.update, toRecord q.cam elapsed) := if_pos hq
  rw [heard_append, heard, List.filterMap_cons_some hpost, List.filterMap_cons_none rfl]
  rfl

theorem concluded_gone {q : Pending} {elapsed : UInt32} (hq : q.cam.sysfsName = name)
    (hunready : q.cam.readiness ≠ .l3Ready) :
    Concluded name (log ++ [.post .update (some (toRecord q.cam elapsed)), .erased q]) := by
  simp [Concluded, List.filterMap_append, wordOn, fateOf, postAbout, toRecord, hq, hunready]

/-! ## Following up -/

variable {entries entries' before after : List Pending}

theorem hasEntry_iff : HasEntry entries name ↔ ∃ p ∈ entries, p.cam.sysfsName = name :=
  List.mem_map

theorem hasEntry_append :
    HasEntry (entries ++ entries') name ↔ HasEntry entries name ∨ HasEntry entries' name := by
  simp [HasEntry]

/-- New events are followed up when the cameras that they are silent about keep their
entries, and the others have one or are given up. -/
theorem FollowsUp.append (h : FollowsUp entries log)
    (hsilent : ∀ name, (∀ ev ∈ evs, wordOn name ev = none) → HasEntry entries name →
      HasEntry entries' name)
    (hspoken : ∀ name, (¬∀ ev ∈ evs, wordOn name ev = none) → ∀ r,
      heard name (log ++ evs) = some (.update, r) →
      r.readiness < Readiness.l3Ready.value →
      HasEntry entries' name ∨ Concluded name (log ++ evs)) :
    FollowsUp entries' (log ++ evs) := by
  intro name r hheard hlow
  by_cases hwords : ∀ ev ∈ evs, wordOn name ev = none
  · rw [heard_of_wordless hwords] at hheard
    rw [concluded_of_wordless hwords]
    exact (h name r hheard hlow).imp_left (hsilent name hwords)
  · exact hspoken name hwords r hheard hlow

/-- An entry in the place of another of its camera. -/
theorem HasEntry.replace {q : Pending} (hq : q.cam.sysfsName = p.cam.sysfsName)
    (h : HasEntry (before ++ p :: after) name) : HasEntry (before ++ [q] ++ after) name := by
  simpa [HasEntry, hq, or_assoc] using h

theorem HasEntry.remove (hname : p.cam.sysfsName ≠ name)
    (h : HasEntry (before ++ p :: after) name) : HasEntry (before ++ after) name := by
  simpa [HasEntry, hname.symm] using h

/-- The loop follows up what it posts of an entry: the entry stays, or is given up with
its final record. -/
theorem FollowsUp.settle (h : FollowsUp (before ++ p :: after) log) (hsettles : Settles p r) :
    FollowsUp (before ++ r.1.toList ++ after) (log ++ r.2) := by
  have hown : ∀ name, (¬∀ ev ∈ r.2, wordOn name ev = none) → p.cam.sysfsName = name :=
    fun _ => hsettles.own
  cases hsettles with
  | quiet q hname _ =>
      exact h.append (fun _ _ => HasEntry.replace hname) fun _ hspoken => by simp at hspoken
  | moved q elapsed hname _ =>
      refine h.append (fun _ _ => HasEntry.replace hname) ?_
      intro name hspoken _ _ _
      left
      simp [HasEntry, hname, hown name hspoken]
  | gone q elapsed hname =>
      refine h.append ?_ ?_
      · intro name hsilent
        rw [Option.toList_none, List.append_nil]
        apply HasEntry.remove
        rintro rfl
        have hposts := (wordOn_eq_none_iff.mp (hsilent _ (List.mem_cons_self ..))).2
        simp [postAbout, toRecord, hname] at hposts
      · intro name hspoken record hheard hlow
        right
        have hq : q.cam.sysfsName = name := hname.trans (hown name hspoken)
        rw [heard_gone hq, Option.some.injEq, Prod.mk.injEq] at hheard
        obtain ⟨-, rfl⟩ := hheard
        exact concluded_gone hq ((Readiness.value_lt_iff q.cam.readiness).mp hlow)

/-- The loop follows up what it posts. -/
theorem FollowsUp.settleAll {rs : List (Option Pending × List BridgeEvent)}
    (hall : List.Forall₂ Settles entries rs) (h : FollowsUp (before ++ entries) log) :
    FollowsUp (before ++ rs.filterMap Prod.fst) (log ++ rs.flatMap Prod.snd) := by
  induction hall generalizing before log with
  | nil => simpa using h
  | @cons p r entries rs hsettles _ ih =>
      have hkept : (r :: rs).filterMap Prod.fst = r.1.toList ++ rs.filterMap Prod.fst := by
        cases hr : r.1 <;> simp [hr]
      rw [hkept, List.flatMap_cons, ← List.append_assoc, ← List.append_assoc]
      exact ih (h.settle hsettles)

/-! ## A pass -/

/-- What is said in a rescan is posted about a camera that was found. -/
theorem BridgeContext.mem_scan {ctx : BridgeContext} {devices : List (Device × Snapshot)}
    {ev : BridgeEvent} (h : ev ∈ ctx.scan devices) :
    ctx.rescan = true ∧ ∃ c ∈ (ctx.enumerate devices).2,
      ev = .post .update (some (toRecord c 0)) := by
  unfold scan at h
  split at h
  · next hrescan =>
    obtain ⟨c, hc, rfl⟩ := List.mem_map.mp h
    exact ⟨hrescan, c, hc, rfl⟩
  · simp at h

theorem BridgeContext.mem_scan_of_found {ctx : BridgeContext}
    {devices : List (Device × Snapshot)} (hrescan : ctx.rescan = true) {c : Camera}
    (hc : c ∈ (ctx.enumerate devices).2) :
    .post .update (some (toRecord c 0)) ∈ ctx.scan devices := by
  rw [scan, if_pos hrescan]
  exact List.mem_map_of_mem hc

/-- A rescan that finds only cameras with an entry is followed up. -/
theorem FollowsUp.scan {ctx : BridgeContext} {devices : List (Device × Snapshot)}
    (h : FollowsUp ctx.pending log)
    (hfinds : ctx.rescan = true → ∀ c ∈ (ctx.enumerate devices).2,
      HasEntry ctx.pending c.sysfsName) :
    FollowsUp ctx.pending (log ++ ctx.scan devices) := by
  refine h.append (fun _ _ hentry => hentry) ?_
  intro name hspoken record _ _
  left
  by_contra hnone
  apply hspoken
  intro ev hev
  obtain ⟨hrescan, c, hc, rfl⟩ := BridgeContext.mem_scan hev
  have hother : c.sysfsName ≠ name := by
    rintro rfl
    exact hnone (hfinds hrescan c hc)
  simp [wordOn, fateOf, postAbout, toRecord, hother]

/-- What a rescan finds is not found ready. -/
theorem BridgeContext.enumerate_readiness {ctx : BridgeContext}
    {devices : List (Device × Snapshot)} {c : Camera}
    (hc : c ∈ (ctx.enumerate devices).2) : c.readiness ≠ .l3Ready := by
  obtain ⟨dev, -, hdev⟩ := List.mem_filterMap.mp hc
  split at hdev
  · obtain ⟨-, hbuild⟩ := Option.ite_none_right_eq_some.mp hdev
    obtain rfl := Option.some.inj hbuild
    exact build_readiness _ _
  · simp at hdev

/-- A camera that a rescan finds is heard of as not ready. -/
theorem BridgeContext.heard_scan {ctx : BridgeContext} {devices : List (Device × Snapshot)}
    (hrescan : ctx.rescan = true) {c : Camera} (hc : c ∈ (ctx.enumerate devices).2) :
    ∃ record, heard c.sysfsName (ctx.scan devices) = some (.update, record) ∧
      record.readiness < Readiness.l3Ready.value := by
  have hpost : (.update, toRecord c 0) ∈
      (ctx.scan devices).filterMap (postAbout c.sysfsName) :=
    List.mem_filterMap.mpr ⟨_, mem_scan_of_found hrescan hc, if_pos rfl⟩
  obtain ⟨x, hx⟩ := Option.isSome_iff_exists.mp
    (List.getLast?_isSome.mpr (List.ne_nil_of_mem hpost))
  obtain ⟨ev, hev, hev'⟩ := List.mem_filterMap.mp (List.mem_of_getLast? hx)
  obtain ⟨-, d, hd, rfl⟩ := mem_scan hev
  simp only [postAbout, Option.ite_none_right_eq_some, Option.some.injEq] at hev'
  obtain ⟨-, rfl⟩ := hev'
  exact ⟨_, hx, (Readiness.value_lt_iff d.readiness).mpr (enumerate_readiness hd)⟩

/-- A camera that a rescan finds is not given up since. -/
theorem BridgeContext.not_concluded_scan {ctx : BridgeContext}
    {devices : List (Device × Snapshot)} (hrescan : ctx.rescan = true) {c : Camera}
    (hc : c ∈ (ctx.enumerate devices).2) :
    ¬Concluded c.sysfsName (log ++ ctx.scan devices) := by
  have hword : ∀ word ∈ (ctx.scan devices).filterMap (wordOn c.sysfsName), word = false := by
    intro word hword
    obtain ⟨ev, hev, hword⟩ := List.mem_filterMap.mp hword
    obtain ⟨-, d, -, rfl⟩ := mem_scan hev
    simp only [wordOn, fateOf, Option.none_or, Option.map_eq_some_iff] at hword
    obtain ⟨-, -, rfl⟩ := hword
    rfl
  have hfound : false ∈ (ctx.scan devices).filterMap (wordOn c.sysfsName) := by
    refine List.mem_filterMap.mpr ⟨_, mem_scan_of_found hrescan hc, ?_⟩
    simp [wordOn, fateOf, postAbout, toRecord]
  obtain ⟨word, hlast⟩ := Option.isSome_iff_exists.mp
    (List.getLast?_isSome.mpr (List.ne_nil_of_mem hfound))
  obtain rfl := hword word (List.mem_of_getLast? hlast)
  rw [Concluded, List.filterMap_append, List.getLast?_append, hlast]
  simp

namespace Bridge

variable {w : Bridge}

theorem next_pass_log (w : Bridge) (devices : List (Device × Snapshot))
    (answers : Nat → Snapshot × Nat) :
    (w.next (.pass devices answers)).1.log =
      w.log ++ w.ctx.scan devices ++ (w.ctx.settleAll answers).flatMap Prod.snd := by
  rw [List.append_assoc, ← BridgeContext.pass_events]
  rfl

theorem settling_of_next (hfree : Unready w.ctx) {devices : List (Device × Snapshot)}
    {answers : Nat → Snapshot × Nat}
    (h : (w.next (.pass devices answers)).1.Settling name) : w.Settling name := by
  obtain ⟨q, hq, hname⟩ := hasEntry_iff.mp h
  obtain ⟨r, hr, hrq⟩ := List.mem_filterMap.mp hq
  obtain ⟨p, hp, hsettles⟩ := BridgeContext.settles_of_mem hfree hr
  exact hasEntry_iff.mpr ⟨p, hp, (hsettles.keeps_name hrq).symm.trans hname⟩

theorem StrandsNone.remembers (h : w.StrandsNone) : w.Remembers := fun name r hheard hlow =>
  (h name r hheard hlow).imp_right Concluded.givenUp

/-- A pass that finds only cameras that are being settled strands none. -/
theorem StrandsNone.pass (h : w.StrandsNone) (hfree : Unready w.ctx)
    {devices : List (Device × Snapshot)} {answers : Nat → Snapshot × Nat}
    (hfinds : w.ctx.rescan = true → ∀ c ∈ (w.ctx.enumerate devices).2,
      w.Settling c.sysfsName) :
    (w.next (.pass devices answers)).1.StrandsNone := by
  have hscan : FollowsUp ([] ++ w.ctx.pending) (w.log ++ w.ctx.scan devices) :=
    FollowsUp.scan h hfinds
  have hloop := hscan.settleAll (BridgeContext.forall_settles hfree answers)
  rw [← next_pass_log] at hloop
  exact hloop

/-- A camera that a rescan finds, and that is not being settled, is stranded. -/
theorem StrandsNone.finds {devices : List (Device × Snapshot)}
    {answers : Nat → Snapshot × Nat} (hfree : Unready w.ctx)
    (h : (w.next (.pass devices answers)).1.StrandsNone) (hrescan : w.ctx.rescan = true)
    {c : Camera} (hc : c ∈ (w.ctx.enumerate devices).2) : w.Settling c.sysfsName := by
  by_contra hlost
  have hwordless : ∀ ev ∈ (w.ctx.settleAll answers).flatMap Prod.snd,
      wordOn c.sysfsName ev = none := by
    intro ev hev
    obtain ⟨r, hr, hev⟩ := List.mem_flatMap.mp hev
    obtain ⟨p, hp, hsettles⟩ := BridgeContext.settles_of_mem hfree hr
    exact hsettles.words (fun hname => hlost (hasEntry_iff.mpr ⟨p, hp, hname⟩)) ev hev
  obtain ⟨record, hheard, hlow⟩ := BridgeContext.heard_scan hrescan hc
  have hlast : heard c.sysfsName (w.next (.pass devices answers)).1.log =
      some (.update, record) := by
    rw [next_pass_log, heard_of_wordless hwordless, heard_append, hheard]
    rfl
  rcases h _ _ hlast hlow with hsettling | hconcluded
  · exact hlost (settling_of_next hfree hsettling)
  · rw [next_pass_log, concluded_of_wordless hwordless] at hconcluded
    exact BridgeContext.not_concluded_scan hrescan hc hconcluded

/-! ## The other steps -/

/-- The hotplug callback enters an arrival, not ready, and takes a departure out. -/
theorem hotplug_cases (ctx : BridgeContext) (dev : Device) (arrived : Bool)
    (env : Snapshot) (now : Nat) :
    ∃ c : Camera,
      ((ctx.hotplug dev arrived env now).1.pending =
          ctx.pending ++ [⟨c, now, c.readiness⟩] ∧ c.readiness ≠ .l3Ready ∧
        (ctx.hotplug dev arrived env now).2 =
          [.hotplug c true, .post .update (some (toRecord c 0))]) ∨
      ((ctx.hotplug dev arrived env now).1.pending =
          (ctx.pending.filter fun p => p.cam.sysfsName ≠ c.sysfsName) ∧
        (ctx.hotplug dev arrived env now).2 =
          [.hotplug c false, .post .left (some (toRecord c 0))]) := by
  cases arrived with
  | true => exact ⟨build dev env, Or.inl ⟨rfl, build_readiness dev env, rfl⟩⟩
  | false => exact ⟨_, Or.inr ⟨rfl, rfl⟩⟩

theorem StrandsNone.hotplug (h : w.StrandsNone) (dev : Device) (arrived : Bool)
    (env : Snapshot) (now : Nat) :
    (w.next (.hotplug dev arrived env now)).1.StrandsNone := by
  obtain ⟨c, ⟨hpending, -, hevs⟩ | ⟨hpending, hevs⟩⟩ :=
    hotplug_cases w.ctx dev arrived env now
  · have hnext : FollowsUp (w.ctx.pending ++ [⟨c, now, c.readiness⟩])
        (w.log ++ [.hotplug c true, .post .update (some (toRecord c 0))]) := by
      refine FollowsUp.append h ?_ ?_
      · exact fun name _ hentry => hasEntry_append.mpr (Or.inl hentry)
      · intro name hspoken r _ _
        left
        have hname : c.sysfsName = name := by
          by_contra hother
          exact hspoken (by simp [wordOn, fateOf, postAbout, toRecord, hother])
        exact hasEntry_append.mpr (Or.inr (List.mem_singleton.mpr hname.symm))
    rw [← hpending, ← hevs] at hnext
    exact hnext
  · have hnext : FollowsUp (w.ctx.pending.filter fun p => p.cam.sysfsName ≠ c.sysfsName)
        (w.log ++ [.hotplug c false, .post .left (some (toRecord c 0))]) := by
      refine FollowsUp.append h ?_ ?_
      · intro name hsilent hentry
        obtain ⟨p, hp, rfl⟩ := hasEntry_iff.mp hentry
        refine hasEntry_iff.mpr ⟨p, List.mem_filter.mpr ⟨hp, decide_eq_true ?_⟩, rfl⟩
        intro hname
        simp [wordOn, fateOf, postAbout, toRecord, hname] at hsilent
      · intro name hspoken r hheard _
        have hname : c.sysfsName = name := by
          by_contra hother
          exact hspoken (by simp [wordOn, fateOf, postAbout, toRecord, hother])
        rw [heard_append] at hheard
        simp [heard, postAbout, toRecord, hname] at hheard
    rw [← hpending, ← hevs] at hnext
    exact hnext

/-- The other steps say nothing of any camera. -/
theorem StrandsNone.wordless {w' : Bridge} (h : w.StrandsNone) (evs : List BridgeEvent)
    (hpending : w'.ctx.pending = w.ctx.pending) (hlog : w'.log = w.log ++ evs)
    (hwordless : ∀ name, ∀ ev ∈ evs, wordOn name ev = none) : w'.StrandsNone := by
  rw [StrandsNone, hpending, hlog]
  exact FollowsUp.append h (fun _ _ hentry => hentry)
    fun name hspoken => absurd (hwordless name) hspoken

/-- A step strands no camera exactly when it finds none that is not being settled. -/
theorem strandsNone_next_iff (h : w.StrandsNone) (hfree : Unready w.ctx) (op : BridgeOp) :
    (w.next op).1.StrandsNone ↔ w.FindsSettling (op, (w.next op).2) := by
  cases op with
  | pass devices answers =>
      constructor
      · rintro hnext devices' answers' ⟨rfl, rfl⟩ hrescan c hc
        exact hnext.finds hfree hrescan hc
      · intro hfinds
        exact h.pass hfree (hfinds devices answers rfl)
  | hotplug dev arrived env now =>
      exact iff_of_true (h.hotplug dev arrived env now) fun _ _ hop => by simp at hop
  | start =>
      refine iff_of_true ?_ fun _ _ hop => by simp at hop
      exact StrandsNone.wordless h [.post .sentinel none] rfl rfl
        (by simp [wordOn, fateOf, postAbout])
  | _ =>
      refine iff_of_true ?_ fun _ _ hop => by simp at hop
      exact h.wordless [] rfl rfl (by simp)

theorem unready_next (hfree : Unready w.ctx) (op : BridgeOp) :
    Unready (w.next op).1.ctx := by
  cases op with
  | pass devices answers =>
      intro q hq
      obtain ⟨r, hr, hrq⟩ := List.mem_filterMap.mp hq
      obtain ⟨p, -, hsettles⟩ := BridgeContext.settles_of_mem hfree hr
      exact hsettles.unready hrq
  | hotplug dev arrived env now =>
      obtain ⟨c, ⟨hpending, hready, -⟩ | ⟨hpending, -⟩⟩ :=
        hotplug_cases w.ctx dev arrived env now
      · intro p hp
        rw [show (w.next (.hotplug dev arrived env now)).1.ctx.pending = _ from hpending] at hp
        rcases List.mem_append.mp hp with hp | hp
        · exact hfree p hp
        · obtain rfl := List.mem_singleton.mp hp
          exact hready
      · intro p hp
        rw [show (w.next (.hotplug dev arrived env now)).1.ctx.pending = _ from hpending] at hp
        exact hfree p (List.mem_of_mem_filter hp)
  | _ => exact hfree

/-! ## Final records -/

end Bridge

/-- Right before an entry goes its record is posted. -/
def Announced (log : List BridgeEvent) : Prop :=
  ∀ before p after, log = before ++ .erased p :: after →
    ∃ elapsed, before.getLast? = some (.post .update (some (toRecord p.cam elapsed)))

theorem Announced.append {log evs : List BridgeEvent} (h : Announced log)
    (h' : Announced evs) : Announced (log ++ evs) := by
  intro before p after heq
  rcases List.append_eq_append_iff.mp heq with ⟨rest, rfl, hevs⟩ | ⟨rest, rfl, hrest⟩
  · obtain ⟨elapsed, hlast⟩ := h' rest p after hevs
    exact ⟨elapsed, by rw [List.getLast?_append, hlast]; rfl⟩
  · cases rest with
    | nil =>
        obtain ⟨elapsed, hlast⟩ := h' [] p after hrest.symm
        simp at hlast
    | cons ev rest =>
        obtain ⟨rfl, -⟩ := List.cons.inj hrest
        exact h before p rest rfl

theorem announced_flatMap {l : List (Option Pending × List BridgeEvent)}
    (h : ∀ r ∈ l, Announced r.2) : Announced (l.flatMap Prod.snd) := by
  induction l with
  | nil => simp [Announced]
  | cons r l ih =>
      rw [List.flatMap_cons]
      exact (h r (by simp)).append (ih fun r hr => h r (by simp [hr]))

theorem announced_of_kept {log : List BridgeEvent} (h : ∀ p, .erased p ∉ log) :
    Announced log := by
  rintro before p after rfl
  exact absurd (by simp) (h p)

theorem Settles.announced (h : Settles p r) : Announced r.2 := by
  cases h with
  | quiet q _ _ => exact announced_of_kept (by simp)
  | moved q elapsed _ _ => exact announced_of_kept (by simp)
  | gone q elapsed _ =>
      intro before p' after heq
      cases before with
      | nil => simp at heq
      | cons ev rest =>
          obtain ⟨rfl, htail⟩ := List.cons.inj heq
          cases rest with
          | nil =>
              obtain rfl := BridgeEvent.erased.inj (List.cons.inj htail).1
              exact ⟨elapsed, rfl⟩
          | cons ev' rest => simp at htail

theorem BridgeContext.next_announced (ctx : BridgeContext) (hfree : Unready ctx)
    (op : BridgeOp) : Announced (ctx.next op).2 := by
  cases op with
  | pass devices answers =>
      have hscan : Announced (ctx.scan devices) := by
        refine announced_of_kept fun p hp => ?_
        obtain ⟨-, c, -, heq⟩ := mem_scan hp
        simp at heq
      rw [show (ctx.next (.pass devices answers)).2 = _ from pass_events ctx devices answers]
      refine hscan.append (announced_flatMap ?_)
      intro r hr
      obtain ⟨p, -, hsettles⟩ := settles_of_mem hfree hr
      exact hsettles.announced
  | hotplug dev arrived env now =>
      obtain ⟨c, ⟨-, -, hevs⟩ | ⟨-, hevs⟩⟩ := Bridge.hotplug_cases ctx dev arrived env now
      all_goals
        rw [show (ctx.next (.hotplug dev arrived env now)).2 = _ from hevs]
        exact announced_of_kept (by simp)
  | _ => exact announced_of_kept (by simp [next])

theorem heard_announced {before : List BridgeEvent} {elapsed : UInt32}
    (h : before.getLast? = some (.post .update (some (toRecord p.cam elapsed)))) :
    heard p.cam.sysfsName before = some (.update, toRecord p.cam elapsed) := by
  obtain ⟨rest, rfl⟩ := List.getLast?_eq_some_iff.mp h
  rw [heard_append]
  simp [heard, postAbout, toRecord]

namespace Bridge

/-! ## Every run -/

theorem step_next (w : Bridge) (op : BridgeOp) :
    lts.step w (op, (w.next op).2) (w.next op).1 := rfl

/-- What every run keeps. -/
structure Kept (w : Bridge) : Prop where
  unready : Unready w.ctx
  announced : Announced w.log

theorem Kept.step {w w' : Bridge} (h : w.Kept) {label : BridgeOp × List BridgeEvent}
    (hstep : lts.step w label w') : w'.Kept := by
  have hnext : (w.next label.1).1 = w' := congrArg Prod.fst hstep
  rw [← hnext]
  exact ⟨unready_next h.unready label.1,
    h.announced.append (w.ctx.next_announced h.unready label.1)⟩

theorem kept_start {w : Bridge} (h : lts.start w) : w.Kept ∧ w.StrandsNone := by
  obtain ⟨vid, rfl⟩ := h
  refine ⟨⟨by simp [Unready, BridgeContext.create], announced_of_kept (by simp)⟩, ?_⟩
  intro name r hheard
  simp [heard] at hheard

theorem Kept.tells {w : Bridge} (h : w.Kept) : w.Tells := by
  intro before p after heq
  obtain ⟨elapsed, hlast⟩ := h.announced before p after heq
  exact ⟨_, heard_announced hlast, rfl⟩

/-- The bridge forgets no camera and strands none in any state of a run, and tells the
final readiness of each, exactly in the runs whose rescans find only cameras that are being
settled. -/
theorem never_forgets_iff {w₀ w : Bridge} {labels : List (BridgeOp × List BridgeEvent)}
    (hstart : lts.start w₀) (hrun : lts.Run w₀ labels w) :
    ((∀ u, lts.Visits w₀ labels w u → u.Remembers ∧ u.StrandsNone) ∧ w.Tells) ↔
      (lts.restrict FindsSettling).Run w₀ labels w := by
  obtain ⟨hkept, hstrands⟩ := kept_start hstart
  have htells : w.Tells :=
    (hrun.invariant hkept fun _ _ _ hkept hstep => Kept.step hkept hstep).tells
  rw [and_iff_left htells]
  refine hrun.forall_visits_iff_restrict (I := Kept) hkept ⟨hstrands.remembers, hstrands⟩ ?_ ?_
  · rintro u label v v' hv hv'
    exact (congrArg Prod.fst hv).symm.trans (congrArg Prod.fst hv')
  · rintro u ⟨op, evs⟩ v hu ⟨-, hstrands⟩ hstep
    have hnext : u.next op = (v, evs) := hstep
    have hiff := strandsNone_next_iff hstrands hu.unready op
    rw [hnext] at hiff
    refine ⟨hu.step hstep, ?_⟩
    rw [← hiff]
    exact ⟨And.right, fun hv => ⟨hv.remembers, hv⟩⟩

/-- A camera on the first port of the second bus. -/
def max2 : Device where
  descriptor := some ⟨kGoProVid, 0x0059, 0⟩
  bus := 2
  address := 7
  ports := [1]
  interfaces := [[0x02], [0x0a, 0x0a], [0x06]]
  serialDescriptor := []
  serialAttribute := ascii "C3531325012345"

/-- A camera with a lease, that answers or does not answer. -/
def leased (answers : Bool) : Snapshot where
  present _ := true
  findNetdev _ := ascii "eth0"
  linkState _ := ascii "unknown"
  hostIpv4 _ := ascii "172.23.145.52"
  probeTcp _ _ := answers

/-- A rescan of a camera that is being settled. -/
theorem never_forgets_iff_rescan :
    ∃ w₀ labels w, lts.start w₀ ∧ lts.Run w₀ labels w ∧ w.Settling (sysfsName 2 [1]) ∧
      (∀ u, lts.Visits w₀ labels w u → u.Remembers ∧ u.StrandsNone) ∧ w.Tells := by
  let w₀ : Bridge := ⟨.create 0, []⟩
  let w₁ := (w₀.next (.hotplug max2 true (leased false) 0)).1
  let w₂ := (w₁.next .rescan).1
  have hfinds : w₂.FindsSettling (.pass [(max2, leased false)] fun _ => (leased false, 0),
      (w₂.next (.pass [(max2, leased false)] fun _ => (leased false, 0))).2) := by
    rintro devices answers ⟨rfl, rfl⟩ - c hc
    have hbuild : c = build max2 (leased false) := List.mem_singleton.mp hc
    rw [hbuild]
    decide
  have hplugged : ∀ evs, w₀.FindsSettling (.hotplug max2 true (leased false) 0, evs) :=
    fun _ _ _ hop => by simp at hop
  have hasked : ∀ evs, w₁.FindsSettling (.rescan, evs) := fun _ _ _ hop => by simp at hop
  have hrun : (lts.restrict FindsSettling).Run w₀ _ _ :=
    .cons ⟨step_next w₀ _, hplugged _⟩
      (.cons ⟨step_next w₁ _, hasked _⟩ (.single ⟨step_next w₂ _, hfinds⟩))
  have hstart : lts.start w₀ := ⟨0, rfl⟩
  exact ⟨w₀, _, _, hstart, hrun.of_restrict, by decide,
    (never_forgets_iff hstart hrun.of_restrict).mpr hrun⟩

/-- A rescan of a camera that answers leaves a record that it does not, for good. -/
theorem rescan_forgets :
    ¬∀ w₀ labels w, lts.start w₀ → lts.Run w₀ labels w →
      (∀ u, lts.Visits w₀ labels w u → u.Remembers ∧ u.StrandsNone) ∧ w.Tells := by
  intro h
  let ops : List BridgeOp := [.hotplug max2 true (leased true) 0,
    .pass [] fun _ => (leased true, 754000000), .rescan,
    .pass [(max2, leased true)] fun _ => (leased true, 900000000)]
  let w₀ : Bridge := ⟨.create 0, []⟩
  let w := (Lts.play next w₀ ops).1
  have hrun : lts.Run w₀ (Lts.play next w₀ ops).2 w := Lts.run_of_play _ next w₀ ops
  obtain ⟨hremembers, -⟩ := (h w₀ _ w ⟨0, rfl⟩ hrun).1 w
    ⟨_, [], (List.append_nil _).symm, hrun, .nil w⟩
  obtain ⟨record, hheard, hlow⟩ : ∃ record,
      heard (sysfsName 2 [1]) w.log = some (.update, record) ∧
        record.readiness < Readiness.l3Ready.value := ⟨_, rfl, by decide⟩
  have hforgotten : ¬(w.Settling (sysfsName 2 [1]) ∨ GivenUp (sysfsName 2 [1]) w.log) := by
    decide
  exact hforgotten (hremembers _ record hheard hlow)

end Bridge

end Usb

end GoproNative
