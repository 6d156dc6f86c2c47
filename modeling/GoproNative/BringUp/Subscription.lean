import GoproNative.BringUp.Definitions
import GoproNative.Support.History
import Mathlib.Data.List.Nodup
import Mathlib.Data.List.Perm.Subperm
import Mathlib.Data.List.TakeWhile

/-!
# Which channels a finished climb can hear

Ready is three subscriptions and one of them at least; which three, and on which
connection, the link machine does not ask.  A finished climb hears all required
channels exactly when none of their subscriptions was made without a link or
lost with it, and the last `StartNotify` before the end did not fail on one of
them.
-/

namespace GoproNative

/-! ## The map of notify characteristics -/

theorem mem_insertKey {keys : List Channel} {key c : Channel} :
    c ∈ insertKey keys key ↔ c = key ∨ c ∈ keys := by
  unfold insertKey
  split
  · next h =>
    constructor
    · exact Or.inr
    · rintro (rfl | hc)
      · exact h
      · exact hc
  · simp [or_comm]

theorem nodup_snoc {keys : List Channel} (h : keys.Nodup) {key : Channel}
    (hnew : key ∉ keys) : (keys ++ [key]).Nodup := by
  rw [← List.concat_eq_append]
  exact h.concat hnew

theorem nodup_insertKey {keys : List Channel} (h : keys.Nodup) (key : Channel) :
    (insertKey keys key).Nodup := by
  unfold insertKey
  split
  · exact h
  · next hnew => exact nodup_snoc h hnew

/-- What the passes of `_locate` keep, the whole of it keeps. -/
theorem locate_notifies {I : List Channel → Prop} (chars : List GattUuid)
    (writes : List Channel) {notifies : List Channel} (h : I notifies)
    (hinsert : ∀ keys c, I keys → I (insertKey keys c)) :
    I (locate chars writes notifies).2 := by
  unfold locate
  simp only
  generalize requiredChannels ++ optionalChannels = channels
  induction channels generalizing notifies with
  | nil => exact h
  | cons c cs ih =>
      rw [List.foldl_cons]
      refine ih ?_
      split
      · exact hinsert notifies c h
      · exact h

theorem mem_of_complete {writes notifies : List Channel}
    (h : complete writes notifies = true) : ∀ c ∈ requiredChannels, c ∈ notifies := by
  intro c hc
  have hboth := List.all_eq_true.mp h c hc
  simp only [Bool.and_eq_true, decide_eq_true_eq] at hboth
  exact hboth.2

/-- Of the four channels three leave room for one. -/
theorem eq_of_not_mem {keys : List Channel} (hnodup : keys.Nodup)
    (hlength : 3 ≤ keys.length) {c d : Channel} (hc : c ∉ keys) (hd : d ∉ keys) :
    c = d := by
  by_contra hne
  have hall : ∀ x ∈ d :: c :: keys, x ∈ [Channel.command, .settings, .query, .network] := by
    intro x _
    cases x <;> simp
  have hnodup' : (d :: c :: keys).Nodup := by
    simp [hnodup, hc, hd, Ne.symm hne]
  have hle := (hnodup'.subperm hall).length_le
  simp at hle
  omega

namespace Climb

/-! ## The link machine's part -/

@[simp] theorem relocate_subscribed (c : Climb) (sight : Sighting) :
    (c.relocate sight).subscribed = c.subscribed := by
  unfold relocate
  split <;> rfl

@[simp] theorem relocate_notifying (c : Climb) (sight : Sighting) :
    (c.relocate sight).notifying = c.notifying := by
  unfold relocate
  split <;> rfl

@[simp] theorem relocate_connected (c : Climb) (sight : Sighting) :
    (c.relocate sight).connected = c.connected := by
  unfold relocate
  split <;> rfl

/-- A pass touches neither the subscriptions nor the link. -/
theorem observe_frame (c : Climb) (sight : Sighting) (nowMs : UInt64) :
    (c.observe sight nowMs).subscribed = c.subscribed ∧
      (c.observe sight nowMs).notifying = c.notifying ∧
      (c.observe sight nowMs).connected = c.connected ∧
      (c.observe sight nowMs).notifies = (c.relocate sight).notifies ∧
      (c.observe sight nowMs).writes = (c.relocate sight).writes := by
  unfold observe
  simp only
  split
  · simp
  · split <;> simp

/-- How a pass ends: with the climb failed, finished, or acting, and in the last two
cases the stage tells what was there. -/
theorem observe_phase (c : Climb) (sight : Sighting) (nowMs : UInt64) :
    (c.observe sight nowMs).phase = .failed ∨
    ((c.observe sight nowMs).phase = .returned ∧ 3 ≤ c.subscribed.length ∧
      complete (c.relocate sight).writes (c.relocate sight).notifies = true) ∨
    ∃ action, (c.observe sight nowMs).phase = .acting action ∧
      (action = .pair →
        complete (c.relocate sight).writes (c.relocate sight).notifies = true ∧
          c.subscribed = []) ∧
      (action = .subscribe →
        complete (c.relocate sight).writes (c.relocate sight).notifies = true) := by
  have hobs : ((c.relocate sight).observation sight).bridged.subscribedCount ≤
      c.subscribed.length := by
    rw [← relocate_subscribed c sight]
    exact Nat.mod_le _ _
  unfold observe
  simp only [LinkMachine.linkUpdate_eq]
  split
  · next hready =>
    rw [LinkMachine.advise_state, LinkMachine.enter_state] at hready
    obtain ⟨hcomplete, hcount⟩ := LinkMachine.of_classify_eq_ready hready
    exact Or.inr (Or.inl ⟨rfl, Nat.le_trans hcount hobs, hcomplete⟩)
  · refine Or.inr (Or.inr ⟨_, rfl, ?_, ?_⟩)
    · intro haction
      rw [LinkMachine.advise_pair_iff, LinkMachine.enter_state] at haction
      obtain ⟨hcomplete, hnone⟩ := LinkMachine.of_classify_eq_servicesResolved haction
      refine ⟨hcomplete, ?_⟩
      simpa [LinkObservation.bridged, observation] using hnone
    · intro haction
      rw [LinkMachine.advise_subscribe_iff, LinkMachine.enter_state] at haction
      exact LinkMachine.of_classify_eq_encrypted haction

/-! ## The loop over the channels -/

/-- Where the loop of `_subscribe` goes next: to a channel not yet subscribed, or out
because none is left or because its budget is. -/
theorem nextSubscription_cases (subscribed todo : List Channel) (budget : Option Nat) :
    (nextSubscription subscribed todo budget = .looking ∧
      (budget = none → ∀ c ∈ todo, c ∈ subscribed)) ∨
    ∃ c rest, nextSubscription subscribed todo budget =
        .subscribing c rest (budget.map fun n => n - 1) ∧
      c ∉ subscribed ∧ c ∈ todo ∧ (∀ d ∈ rest, d ∈ todo) ∧
      (∀ d ∈ todo, d ∈ subscribed ∨ d = c ∨ d ∈ rest) ∧ budget ≠ some 0 := by
  unfold nextSubscription
  cases hdrop : todo.dropWhile fun c => decide (c ∈ subscribed) with
  | nil =>
      refine Or.inl ⟨rfl, fun _ => ?_⟩
      simpa [List.dropWhile_eq_nil_iff] using hdrop
  | cons c rest =>
      have hsplit := List.takeWhile_append_dropWhile (p := fun c => decide (c ∈ subscribed))
        (l := todo)
      rw [hdrop] at hsplit
      by_cases hbudget : budget = some 0
      · exact Or.inl ⟨by simp [hbudget], by simp [hbudget]⟩
      · refine Or.inr ⟨c, rest, by simp [hbudget], ?_, ?_, ?_, ?_, hbudget⟩
        · have hstop := List.head?_dropWhile_not (fun c => decide (c ∈ subscribed)) todo
          simpa [hdrop] using hstop
        · rw [← hsplit]
          simp
        · intro d hd
          rw [← hsplit]
          simp [hd]
        · intro d hd
          rw [← hsplit, List.mem_append, List.mem_cons] at hd
          rcases hd with hd | hd
          · left
            simpa using List.mem_takeWhile_imp hd
          · exact Or.inr hd

/-! ## The invariant -/

/-- What a phase promises.  Past the pair stage's one subscription nothing is capped,
and the loop leaves out no channel that is not subscribed. -/
def PhaseOk (c : Climb) : Prop :=
  match c.phase with
  | .acting .pair => complete c.writes c.notifies = true ∧ c.subscribed = []
  | .acting .subscribe => complete c.writes c.notifies = true
  | .subscribing channel todo budget =>
      complete c.writes c.notifies = true ∧ channel ∉ c.subscribed ∧
        channel ∈ c.notifies ∧ (∀ d ∈ todo, d ∈ c.notifies) ∧
        (∀ d ∈ c.notifies, d ∈ c.subscribed ∨ d = channel ∨ d ∈ todo) ∧
        (budget = none ∨ budget = some 0 ∧ c.subscribed = [])
  | .returned => 3 ≤ c.subscribed.length
  | _ => True

structure Ordered (c : Climb) : Prop where
  keys : c.notifies.Nodup
  nodup : c.subscribed.Nodup
  located : ∀ d ∈ c.subscribed, d ∈ c.notifies
  phase : c.PhaseOk

/-- Entering the loop of `_subscribe` from its first entry. -/
theorem phaseOk_of_enter {c : Climb} {budget : Option Nat}
    (hcomplete : complete c.writes c.notifies = true)
    (hbudget : budget = none ∨ budget = some 1 ∧ c.subscribed = []) :
    PhaseOk { c with phase := nextSubscription c.subscribed c.notifies budget } := by
  rcases nextSubscription_cases c.subscribed c.notifies budget with
    ⟨hlooking, -⟩ | ⟨d, rest, hnext, hnew, hmem, hrest, hcover, -⟩
  · simp [PhaseOk, hlooking]
  · simp only [PhaseOk, hnext]
    refine ⟨hcomplete, hnew, hmem, hrest, hcover, ?_⟩
    rcases hbudget with rfl | ⟨rfl, hnone⟩
    · exact Or.inl rfl
    · exact Or.inr ⟨rfl, hnone⟩

theorem Ordered.observe {c : Climb} (h : c.Ordered) (sight : Sighting)
    (nowMs : UInt64) : (c.observe sight nowMs).Ordered := by
  obtain ⟨hsub, -, -, hnotifies, hwrites⟩ := c.observe_frame sight nowMs
  have hlocated : (c.relocate sight).notifies.Nodup ∧
      ∀ d ∈ c.subscribed, d ∈ (c.relocate sight).notifies := by
    unfold relocate
    split
    · refine locate_notifies (I := fun keys => keys.Nodup ∧ ∀ d ∈ c.subscribed, d ∈ keys)
        sight.chars c.writes ⟨h.keys, h.located⟩ ?_
      rintro keys d ⟨hnodup, hmem⟩
      exact ⟨nodup_insertKey hnodup d, fun x hx => mem_insertKey.mpr (Or.inr (hmem x hx))⟩
    · exact ⟨h.keys, h.located⟩
  refine ⟨?_, ?_, ?_, ?_⟩
  · rw [hnotifies]
    exact hlocated.1
  · rw [hsub]
    exact h.nodup
  · rw [hsub, hnotifies]
    exact hlocated.2
  · unfold PhaseOk
    rw [hsub, hnotifies, hwrites]
    rcases c.observe_phase sight nowMs with
      hfailed | ⟨hreturned, hcount, -⟩ | ⟨action, hacting, hpair, hsubscribe⟩
    · simp [hfailed]
    · simpa [hreturned] using hcount
    · rw [hacting]
      cases action with
      | pair => exact hpair rfl
      | subscribe => exact hsubscribe rfl
      | _ => trivial

/-- What a step does to the channels, by the kind of its event. -/
theorem step_cases {c c' : Climb} {e : ClimbEvent} (h : c.step e = some c') :
    (e = .disconnected ∧ c' = { c with connected := false, notifying := [] }) ∨
    (e = .reconnected ∧ c' = { c with connected := true }) ∨
    (∃ sight nowMs, e = .observed sight nowMs ∧ c.phase = .looking ∧
      c' = c.observe sight nowMs) ∨
    (∃ action, e = .acted ∧ c.phase = .acting action ∧
      c' = { c with phase := c.afterAction action }) ∨
    (∃ channel todo budget, e = .notifyStarted channel ∧
      c.phase = .subscribing channel todo budget ∧
      c' = { c with
        subscribed := c.subscribed ++ [channel]
        phase := nextSubscription (c.subscribed ++ [channel]) todo budget
        notifying := if c.connected then c.notifying ++ [channel] else c.notifying }) ∨
    (∃ channel nowMs todo budget, e = .notifyRefused channel nowMs ∧
      c.phase = .subscribing channel todo budget ∧
      c' = { c with machine := c.machine.noteAttemptFailed nowMs, phase := .looking }) ∨
    (∃ nowMs action, e = .actionRefused nowMs ∧ c.phase = .acting action ∧
      c' = { c with machine := c.machine.noteAttemptFailed nowMs, phase := .looking }) ∨
    ((e = .timedOut ∨ e = .aborted) ∧ c' = { c with phase := .failed }) := by
  unfold step at h
  cases e <;> simp only at h <;> split at h <;> (try split at h) <;>
    simp only [Option.some.injEq, reduceCtorEq] at h <;> subst h <;> simp_all

theorem Ordered.step {c c' : Climb} {e : ClimbEvent} (h : c.Ordered)
    (hstep : c.step e = some c') : c'.Ordered := by
  have hphase := h.phase
  rcases step_cases hstep with
    ⟨-, rfl⟩ | ⟨-, rfl⟩ | ⟨sight, nowMs, -, -, rfl⟩ | ⟨action, -, hacting, rfl⟩ |
    ⟨channel, todo, budget, -, hsubscribing, rfl⟩ | ⟨channel, nowMs, todo, budget, -, -, rfl⟩ |
    ⟨nowMs, action, -, -, rfl⟩ | ⟨-, rfl⟩
  · exact ⟨h.keys, h.nodup, h.located, h.phase⟩
  · exact ⟨h.keys, h.nodup, h.located, h.phase⟩
  · exact h.observe sight nowMs
  · refine ⟨h.keys, h.nodup, h.located, ?_⟩
    simp only [PhaseOk, hacting] at hphase
    cases action with
    | pair => exact phaseOk_of_enter hphase.1 (Or.inr ⟨rfl, hphase.2⟩)
    | subscribe => exact phaseOk_of_enter hphase (Or.inl rfl)
    | _ => trivial
  · simp only [PhaseOk, hsubscribing] at hphase
    obtain ⟨hcomplete, hnew, hmem, htodo, hcover, hbudget⟩ := hphase
    refine ⟨h.keys, nodup_snoc h.nodup hnew, ?_, ?_⟩
    · intro d hd
      rw [List.mem_append, List.mem_singleton] at hd
      rcases hd with hd | rfl
      · exact h.located d hd
      · exact hmem
    · rcases nextSubscription_cases (c.subscribed ++ [channel]) todo budget with
        ⟨hlooking, -⟩ | ⟨d, rest, hnext, hnew', hmem', hrest, hcover', hleft⟩
      · simp [PhaseOk, hlooking]
      · simp only [PhaseOk, hnext]
        have huncapped : budget = none := hbudget.resolve_right fun hcap => hleft hcap.1
        refine ⟨hcomplete, hnew', htodo d hmem', fun x hx => htodo x (hrest x hx), ?_,
          Or.inl (by rw [huncapped]; rfl)⟩
        intro x hx
        rw [List.mem_append, List.mem_singleton]
        rcases hcover x hx with hold | rfl | hlater
        · exact Or.inl (Or.inl hold)
        · exact Or.inl (Or.inr rfl)
        · simpa [List.mem_append] using hcover' x hlater
  · exact ⟨h.keys, h.nodup, h.located, trivial⟩
  · exact ⟨h.keys, h.nodup, h.located, trivial⟩
  · exact ⟨h.keys, h.nodup, h.located, trivial⟩

/-! ## What happened to the subscriptions -/

/-- Whether there is a link after some events. -/
def linkUp (up : Bool) (events : List ClimbEvent) : Bool :=
  events.foldl (fun up e =>
    match e with
    | .disconnected => false
    | .reconnected => true
    | _ => up) up

/-- The channel's `StartNotify` returned with a link, and the link held since. -/
def Held (up : Bool) (events : List ClimbEvent) (channel : Channel) : Prop :=
  ∀ before after, events = before ++ .notifyStarted channel :: after →
    linkUp up before = true ∧ .disconnected ∉ after

/-- The channel and the success of the last `StartNotify`. -/
def lastResult (events : List ClimbEvent) : Option (Channel × Bool) :=
  events.foldl (fun last e =>
    match e with
    | .notifyStarted channel => some (channel, true)
    | .notifyRefused channel _ => some (channel, false)
    | _ => last) none

@[simp] theorem linkUp_snoc (up : Bool) (events : List ClimbEvent) (e : ClimbEvent) :
    linkUp up (events ++ [e]) =
      match e with
      | .disconnected => false
      | .reconnected => true
      | _ => linkUp up events := by
  simp [linkUp]

@[simp] theorem lastResult_snoc (events : List ClimbEvent) (e : ClimbEvent) :
    lastResult (events ++ [e]) =
      match e with
      | .notifyStarted channel => some (channel, true)
      | .notifyRefused channel _ => some (channel, false)
      | _ => lastResult events := by
  simp [lastResult]

theorem held_snoc_iff {up : Bool} {events : List ClimbEvent} {e : ClimbEvent}
    {channel : Channel} (he : e ≠ .notifyStarted channel) :
    Held up (events ++ [e]) channel ↔ Held up events channel ∧
      (e = .disconnected → .notifyStarted channel ∉ events) := by
  constructor
  · intro h
    refine ⟨?_, ?_⟩
    · rintro before after rfl
      obtain ⟨hup, hafter⟩ := h before (after ++ [e]) (by simp)
      exact ⟨hup, fun hmem => hafter (List.mem_append_left _ hmem)⟩
    · rintro rfl hmem
      obtain ⟨before, after, rfl⟩ := List.append_of_mem hmem
      exact (h before (after ++ [.disconnected]) (by simp)).2 (by simp)
  · rintro ⟨h, hlost⟩ before after heq
    rcases List.append_singleton_eq_append_cons heq with ⟨-, rfl, -⟩ | ⟨after', rfl, rfl⟩
    · exact absurd rfl he
    · obtain ⟨hup, hafter⟩ := h before after' rfl
      refine ⟨hup, ?_⟩
      rw [List.mem_append, List.mem_singleton]
      rintro (hmem | rfl)
      · exact hafter hmem
      · exact hlost rfl (by simp)

theorem held_snoc_started_iff {up : Bool} {events : List ClimbEvent} {channel : Channel}
    (hnew : .notifyStarted channel ∉ events) :
    Held up (events ++ [.notifyStarted channel]) channel ↔ linkUp up events = true := by
  constructor
  · intro h
    exact (h events [] rfl).1
  · intro hup before after heq
    rcases List.append_singleton_eq_append_cons heq with ⟨rfl, -, rfl⟩ | ⟨after', -, rfl⟩
    · exact ⟨hup, by simp⟩
    · exact absurd (by simp) hnew

/-- The climb remembers in its sets what its events were; and where three channels
are subscribed but a required one is not, a failed `StartNotify` on it was the
last. -/
structure Tracks (up : Bool) (events : List ClimbEvent) (c : Climb) : Prop
    extends Ordered c where
  link : c.connected = linkUp up events
  started : ∀ channel, .notifyStarted channel ∈ events ↔ channel ∈ c.subscribed
  hearing : ∀ channel, channel ∈ c.notifying ↔
    channel ∈ c.subscribed ∧ Held up events channel
  refused : ∀ channel, lastResult events = some (channel, false) → channel ∉ c.subscribed
  missing : (∀ channel todo budget, c.phase ≠ .subscribing channel todo budget) →
    3 ≤ c.subscribed.length → c.phase ≠ .failed →
    (∀ channel ∈ requiredChannels, channel ∈ c.subscribed) ∨
      ∃ channel ∈ requiredChannels, lastResult events = some (channel, false)

variable {up : Bool} {events : List ClimbEvent} {c c' : Climb} {e : ClimbEvent}

/-- An event that is no `StartNotify` and takes no link away. -/
theorem Tracks.quiet (h : c.Tracks up events) (hordered : c'.Ordered)
    (hsub : c'.subscribed = c.subscribed) (hhears : c'.notifying = c.notifying)
    (hlink : c'.connected = linkUp up (events ++ [e]))
    (hlast : lastResult (events ++ [e]) = lastResult events)
    (hstarted : ∀ channel, e ≠ .notifyStarted channel) (hdropped : e ≠ .disconnected)
    (hphase : (∀ channel todo budget, c'.phase ≠ .subscribing channel todo budget) →
      c'.phase ≠ .failed →
      (∀ channel todo budget, c.phase ≠ .subscribing channel todo budget) ∧
        c.phase ≠ .failed) : c'.Tracks up (events ++ [e]) where
  toOrdered := hordered
  link := hlink
  started channel := by
    rw [hsub, List.mem_append, List.mem_singleton, ← h.started channel]
    exact or_iff_left fun heq => hstarted channel heq.symm
  hearing channel := by
    rw [hhears, hsub, h.hearing channel, held_snoc_iff (hstarted channel)]
    simp [hdropped]
  refused channel hresult := by
    rw [hlast] at hresult
    rw [hsub]
    exact h.refused channel hresult
  missing hrest hcount hok := by
    obtain ⟨hrest', hok'⟩ := hphase hrest hok
    rw [hsub, hlast]
    rw [hsub] at hcount
    exact h.missing hrest' hcount hok'

theorem Tracks.dropped (h : c.Tracks up events)
    (hordered : Ordered { c with connected := false, notifying := [] }) :
    Tracks up (events ++ [.disconnected])
      { c with connected := false, notifying := [] } where
  toOrdered := hordered
  link := (linkUp_snoc up events .disconnected).symm
  started channel := by simpa using h.started channel
  hearing channel := by
    rw [held_snoc_iff (by simp)]
    simp only [List.not_mem_nil, false_iff, not_and]
    intro hsub _ hlost
    exact hlost trivial ((h.started channel).mpr hsub)
  refused := by simpa using h.refused
  missing := by simpa using h.missing

theorem Tracks.subscribed {channel : Channel} {todo : List Channel} {budget : Option Nat}
    (h : c.Tracks up events) (hsubscribing : c.phase = .subscribing channel todo budget)
    (hordered : Ordered { c with
      subscribed := c.subscribed ++ [channel]
      phase := nextSubscription (c.subscribed ++ [channel]) todo budget
      notifying := if c.connected then c.notifying ++ [channel] else c.notifying }) :
    Tracks up (events ++ [.notifyStarted channel]) { c with
      subscribed := c.subscribed ++ [channel]
      phase := nextSubscription (c.subscribed ++ [channel]) todo budget
      notifying := if c.connected then c.notifying ++ [channel] else c.notifying } := by
  have hok := h.phase
  simp only [PhaseOk, hsubscribing] at hok
  obtain ⟨hcomplete, hnew, -, -, hcover, hbudget⟩ := hok
  have hfirst : .notifyStarted channel ∉ events := (h.started channel).not.mpr hnew
  have hdeaf : channel ∉ c.notifying := fun hmem => hnew ((h.hearing channel).mp hmem).1
  refine ⟨hordered, ?_, ?_, ?_, ?_, ?_⟩
  · simpa using h.link
  · intro x
    rw [List.mem_append, List.mem_append, h.started x]
    simp
  · intro x
    by_cases hx : x = channel
    · subst hx
      rw [held_snoc_started_iff hfirst, ← h.link]
      cases c.connected <;> simp [hdeaf]
    · rw [held_snoc_iff (by simpa using Ne.symm hx)]
      have hsame : x ∈ (if c.connected then c.notifying ++ [channel] else c.notifying) ↔
          x ∈ c.notifying := by
        split <;> simp [hx]
      simp only [hsame, h.hearing x]
      simp [hx]
  · intro x hresult
    simp at hresult
  · intro hrest hcount _
    left
    rcases nextSubscription_cases (c.subscribed ++ [channel]) todo budget with
      ⟨-, hexhausted⟩ | ⟨d, rest, hnext, -⟩
    · rcases hbudget with rfl | ⟨rfl, hnone⟩
      · intro r hr
        rw [List.mem_append, List.mem_singleton]
        rcases hcover r (mem_of_complete hcomplete r hr) with hold | rfl | hlater
        · exact Or.inl hold
        · exact Or.inr rfl
        · simpa using hexhausted rfl r hlater
      · simp [hnone] at hcount
    · exact absurd hnext (hrest _ _ _)

theorem Tracks.refusedBy {channel : Channel} {todo : List Channel} {budget : Option Nat}
    {nowMs : UInt64} (h : c.Tracks up events)
    (hsubscribing : c.phase = .subscribing channel todo budget)
    (hordered : Ordered { c with
      machine := c.machine.noteAttemptFailed nowMs, phase := .looking }) :
    Tracks up (events ++ [.notifyRefused channel nowMs])
      { c with machine := c.machine.noteAttemptFailed nowMs, phase := .looking } := by
  have hok := h.phase
  simp only [PhaseOk, hsubscribing] at hok
  obtain ⟨-, hnew, -⟩ := hok
  refine ⟨hordered, ?_, ?_, ?_, ?_, ?_⟩
  · simpa using h.link
  · intro x
    simpa using h.started x
  · intro x
    rw [held_snoc_iff (by simp)]
    simpa using h.hearing x
  · intro x hresult
    simp only [lastResult_snoc, Option.some.injEq, Prod.mk.injEq, and_true] at hresult
    exact hresult ▸ hnew
  · intro _ hcount _
    by_cases hall : ∀ r ∈ requiredChannels, r ∈ c.subscribed
    · exact Or.inl hall
    · right
      simp only [not_forall] at hall
      obtain ⟨r, hr, hdeaf⟩ := hall
      refine ⟨r, hr, ?_⟩
      rw [lastResult_snoc, eq_of_not_mem h.nodup hcount hdeaf hnew]

theorem Tracks.step (h : c.Tracks up events) (hstep : c.step e = some c') :
    c'.Tracks up (events ++ [e]) := by
  have hordered := h.toOrdered.step hstep
  rcases step_cases hstep with
    ⟨rfl, rfl⟩ | ⟨rfl, rfl⟩ | ⟨sight, nowMs, rfl, hlooking, rfl⟩ | ⟨action, rfl, hacting, rfl⟩ |
    ⟨channel, todo, budget, rfl, hsubscribing, rfl⟩ |
    ⟨channel, nowMs, todo, budget, rfl, hsubscribing, rfl⟩ |
    ⟨nowMs, action, rfl, hacting, rfl⟩ | ⟨he, rfl⟩
  · exact h.dropped hordered
  · exact h.quiet hordered rfl rfl (linkUp_snoc up events .reconnected).symm
      (lastResult_snoc ..) (by simp) (by simp) fun hrest hok => ⟨hrest, hok⟩
  · obtain ⟨hsub, hhears, hlink, -, -⟩ := c.observe_frame sight nowMs
    refine h.quiet hordered hsub hhears ?_ (lastResult_snoc ..) (by simp) (by simp)
      fun _ _ => by simp [hlooking]
    rw [hlink, linkUp_snoc, h.link]
  · exact h.quiet hordered rfl rfl (h.link.trans (linkUp_snoc up events .acted).symm)
      (lastResult_snoc ..) (by simp) (by simp) fun _ _ => by simp [hacting]
  · exact h.subscribed hsubscribing hordered
  · exact h.refusedBy hsubscribing hordered
  · exact h.quiet hordered rfl rfl
      (h.link.trans (linkUp_snoc up events (.actionRefused nowMs)).symm)
      (lastResult_snoc ..) (by simp) (by simp) fun _ _ => by simp [hacting]
  · refine h.quiet hordered rfl rfl ?_ ?_ ?_ ?_ fun _ hok => absurd rfl hok <;>
      rcases he with rfl | rfl <;> simp [h.link]

theorem tracks_of_run {machine : LinkMachine} (hrun : lts.Run { machine, connected := up }
    events c) : c.Tracks up events := by
  refine hrun.history (I := fun events c => c.Tracks up events) ?_ ?_
  · refine ⟨⟨List.nodup_nil, List.nodup_nil, by simp, trivial⟩, rfl, by simp, by simp,
      by simp [lastResult], by simp⟩
  · intro events c e c' h hstep
    exact h.step hstep

/-! ## A finished climb -/

/-- A climb that returns hears every required channel on the connection that is
current then, exactly when each of their `StartNotify` calls that succeeded did so
with a link that held from then on, and the last `StartNotify` before the return
did not fail on one of them. -/
theorem hears_required_iff {machine : LinkMachine}
    (hrun : lts.Run { machine, connected := up } events c) (hreturned : c.phase = .returned) :
    (∀ channel ∈ requiredChannels, channel ∈ c.notifying) ↔
      (∀ channel ∈ requiredChannels, Held up events channel) ∧
        ∀ channel ∈ requiredChannels, lastResult events ≠ some (channel, false) := by
  have htracks := tracks_of_run hrun
  have hcount : 3 ≤ c.subscribed.length := by
    have hphase := htracks.phase
    simpa only [PhaseOk, hreturned] using hphase
  constructor
  · intro h
    refine ⟨fun r hr => ((htracks.hearing r).mp (h r hr)).2, ?_⟩
    intro r hr hresult
    exact htracks.refused r hresult ((htracks.hearing r).mp (h r hr)).1
  · rintro ⟨hheld, hresult⟩ r hr
    have hall := (htracks.missing (by simp [hreturned]) hcount
      (by simp [hreturned])).resolve_right fun ⟨r, hr, hrefused⟩ => hresult r hr hrefused
    exact (htracks.hearing r).mpr ⟨hall r hr, hheld r hr⟩

/-- A sighting of a bonded camera that exposes the pairs of some channels. -/
def sightingOf (channels : List Channel) : Sighting where
  candidatePresent := true
  classicLinkUp := false
  paired := true
  chars := channels.flatMap fun channel => [.write channel, .notify channel]

/-- A climb without trouble: one subscription to prove encryption, then the rest. -/
def smoothClimb : List ClimbEvent :=
  [.observed (sightingOf requiredChannels) 0, .acted, .notifyStarted .command,
    .observed (sightingOf requiredChannels) 500, .acted, .notifyStarted .settings,
    .notifyStarted .query, .observed (sightingOf requiredChannels) 900]

theorem hears_required_iff_smooth_climb :
    ∃ c, lts.Run { machine := { cfg := {} }, connected := true } smoothClimb c ∧
      c.phase = .returned ∧ ∀ channel ∈ requiredChannels, Held true smoothClimb channel := by
  obtain ⟨c, hexec, hreturned, hhears⟩ : ∃ c, Lts.exec step
      { machine := { cfg := {} }, connected := true } smoothClimb = some c ∧
      c.phase = .returned ∧ ∀ channel ∈ requiredChannels, channel ∈ c.notifying :=
    ⟨_, rfl, rfl, by decide⟩
  have hrun : lts.Run { machine := { cfg := {} }, connected := true } smoothClimb c :=
    Lts.run_of_exec hexec
  exact ⟨c, hrun, hreturned, ((hears_required_iff hrun hreturned).mp hhears).1⟩

/-- The optional pair appears on the bus before the query pair, so it is subscribed
before it and is the third; the query channel's own `StartNotify` fails, and the
next pass finds three subscriptions and returns. -/
theorem deaf_query_channel :
    ¬∀ machine up events c, lts.Run { machine, connected := up } events c →
      c.phase = .returned → ∀ channel ∈ requiredChannels, channel ∈ c.notifying := by
  intro h
  obtain ⟨c, hexec, hreturned, hdeaf⟩ : ∃ c, Lts.exec step
      { machine := { cfg := {} }, connected := true }
      [.observed (sightingOf [.command, .settings, .network]) 0, .acted,
        .observed (sightingOf [.command, .settings, .network, .query]) 500, .acted,
        .notifyStarted .command,
        .observed (sightingOf [.command, .settings, .network, .query]) 600, .acted,
        .notifyStarted .settings, .notifyStarted .network, .notifyRefused .query 700,
        .observed (sightingOf [.command, .settings, .network, .query]) 800] = some c ∧
      c.phase = .returned ∧ Channel.query ∉ c.notifying := ⟨_, rfl, rfl, by decide⟩
  exact hdeaf (h _ _ _ c (Lts.run_of_exec hexec) hreturned .query (by decide))

end Climb

end GoproNative
