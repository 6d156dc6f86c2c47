import GoproNative.Support.Progress
import GoproNative.BringUp.Subscription

/-!
# A climb that nothing disturbs returns

Whatever happened before, once the link holds and the bus shows the camera with all its
control characteristics, every call succeeding takes the climb further: at most ten steps
are left, and the last of them is its return.
-/

namespace GoproNative

/-- The camera is there and exposes every required pair. -/
def Sighting.Full (sight : Sighting) : Prop :=
  sight.candidatePresent = true ∧ sight.chars.length < 2 ^ 32 ∧
    ∀ c ∈ requiredChannels, .write c ∈ sight.chars ∧ .notify c ∈ sight.chars

instance (sight : Sighting) : Decidable sight.Full :=
  inferInstanceAs (Decidable (_ ∧ _ ∧ _))

/-- Nothing goes wrong in this event. -/
def ClimbEvent.Smooth : ClimbEvent → Prop
  | .observed sight _ => sight.Full
  | .acted | .notifyStarted _ => True
  | _ => False

instance : DecidablePred ClimbEvent.Smooth
  | .observed sight _ => inferInstanceAs (Decidable sight.Full)
  | .acted | .notifyStarted _ => isTrue trivial
  | .disconnected | .reconnected | .timedOut | .actionRefused _ | .notifyRefused _ _
  | .aborted => isFalse id

theorem mem_foldl_insertKey {p : Channel → Prop} [DecidablePred p] {channels keys : List Channel}
    {c : Channel} :
    c ∈ channels.foldl (fun keys d => if p d then insertKey keys d else keys) keys ↔
      c ∈ keys ∨ c ∈ channels ∧ p c := by
  induction channels generalizing keys with
  | nil => simp
  | cons d channels ih =>
      rw [List.foldl_cons, ih]
      split
      · next hd =>
        rw [mem_insertKey, List.mem_cons]
        constructor
        · rintro ((rfl | hold) | ⟨hlater, hc⟩)
          · exact Or.inr ⟨Or.inl rfl, hd⟩
          · exact Or.inl hold
          · exact Or.inr ⟨Or.inr hlater, hc⟩
        · rintro (hold | ⟨rfl | hlater, hc⟩)
          · exact Or.inl (Or.inr hold)
          · exact Or.inl (Or.inl rfl)
          · exact Or.inr ⟨hlater, hc⟩
      · next hd =>
        rw [List.mem_cons]
        constructor
        · exact Or.imp_right fun ⟨hlater, hc⟩ => ⟨Or.inr hlater, hc⟩
        · rintro (hold | ⟨rfl | hlater, hc⟩)
          · exact Or.inl hold
          · exact absurd hc hd
          · exact Or.inr ⟨hlater, hc⟩

theorem Sighting.Full.complete_locate {sight : Sighting} (h : sight.Full)
    (writes notifies : List Channel) :
    complete (locate sight.chars writes notifies).1 (locate sight.chars writes notifies).2 =
      true := by
  rw [complete, List.all_eq_true]
  intro c hc
  have hchannel : c ∈ requiredChannels ++ optionalChannels := List.mem_append_left _ hc
  obtain ⟨hwrite, hnotify⟩ := h.2.2 c hc
  simp only [locate, mem_foldl_insertKey, Bool.and_eq_true, decide_eq_true_eq]
  exact ⟨Or.inr ⟨hchannel, hwrite⟩, Or.inr ⟨hchannel, hnotify⟩⟩

theorem length_le_four {keys : List Channel} (h : keys.Nodup) : keys.length ≤ 4 := by
  have hall : ∀ x ∈ keys, x ∈ [Channel.command, .settings, .query, .network] := by
    intro x _
    cases x <;> simp
  exact (h.subperm hall).length_le

theorem three_le_length {writes notifies keys : List Channel}
    (h : complete writes notifies = true) (hkeys : ∀ c ∈ notifies, c ∈ keys) :
    3 ≤ keys.length := by
  have hnodup : requiredChannels.Nodup := by decide
  exact (hnodup.subperm fun c hc => hkeys c (mem_of_complete h c hc)).length_le

namespace Climb

variable {c c' : Climb} {sight : Sighting} {events : List ClimbEvent}

/-- The steps left from the head of the loop, by the number of subscriptions. -/
def looks (subscribed : Nat) : Nat :=
  if subscribed = 0 then 9 else if subscribed < 3 then 7 - subscribed else 1

/-- The steps left when nothing goes wrong. -/
def remaining (c : Climb) : Nat :=
  match c.phase with
  | .looking => looks c.subscribed.length
  | .acting .pair => 8
  | .acting .subscribe => 6 - c.subscribed.length
  | .acting _ => looks c.subscribed.length + 1
  | .subscribing _ _ none => 5 - c.subscribed.length
  | .subscribing _ _ (some _) => 7
  | .returned | .failed => 0

theorem remaining_le (c : Climb) : c.remaining ≤ 10 := by
  unfold remaining looks
  split <;> (try split) <;> (try split) <;> omega

theorem relocate_complete (hlink : c.connected = true) (h : sight.Full) :
    complete (c.relocate sight).writes (c.relocate sight).notifies = true := by
  unfold relocate
  split
  · exact h.complete_locate c.writes c.notifies
  · next hdone => simpa [h.1, hlink] using hdone

/-- With everything in sight the stage depends on the subscriptions alone. -/
theorem classify_full (hlink : c.connected = true) (hcount : c.subscribed.length ≤ 4)
    (hcomplete : complete c.writes c.notifies = true) (h : sight.Full) :
    LinkMachine.classify (c.observation sight).bridged =
      if 3 ≤ c.subscribed.length then .ready
      else if c.subscribed.length = 0 then .servicesResolved else .encrypted := by
  have hpos : 0 < sight.chars.length :=
    List.length_pos_of_mem (h.2.2 .command (by decide)).1
  have hattributes : sight.chars.length % 2 ^ 32 ≠ 0 := by
    rw [Nat.mod_eq_of_lt h.2.1]
    omega
  have hsubscribed : c.subscribed.length % 2 ^ 32 = c.subscribed.length :=
    Nat.mod_eq_of_lt (by omega)
  have hconnected : (c.observation sight).bridged.connected = true := by
    simp [LinkObservation.bridged, observation, h.1, hlink]
  have hserved : ¬((c.observation sight).bridged.attributeCount = 0 ∨
      (c.observation sight).bridged.controlCharsFound = false) := by
    simpa [LinkObservation.bridged, observation, h.1, hcomplete] using hattributes
  have hnotify : (c.observation sight).bridged.notifySucceeded = !c.subscribed.isEmpty := rfl
  have hcounted : (c.observation sight).bridged.subscribedCount = c.subscribed.length :=
    hsubscribed
  have hrequired : (c.observation sight).bridged.requiredSubscriptions = 3 := rfl
  rcases LinkMachine.classify_cases (c.observation sight).bridged with
    ⟨hdown, -⟩ | ⟨hbare, -⟩ | ⟨-, -, -, ⟨hnone, hstage⟩ |
      ⟨hsome, ⟨hfew, hstage⟩ | ⟨hmany, hstage⟩⟩⟩
  · simp [hconnected] at hdown
  · exact absurd hbare hserved
  · have hempty : c.subscribed.length = 0 := by simpa [hnotify] using hnone
    simp [hstage, hempty]
  · have hne : c.subscribed.length ≠ 0 := by simpa [hnotify] using hsome
    rw [hcounted, hrequired] at hfew
    rw [hstage, if_neg (Nat.not_le_of_lt hfew), if_neg hne]
  · rw [hcounted, hrequired] at hmany
    rw [hstage, if_pos hmany]

/-- With everything in sight the subscriptions alone decide how a pass ends. -/
theorem observe_full (nowMs : UInt64) (hlink : c.connected = true)
    (hcount : c.subscribed.length ≤ 4) (h : sight.Full) :
    (c.observe sight nowMs).phase =
      if 3 ≤ c.subscribed.length then .returned
      else if c.subscribed.length = 0 then .acting .pair else .acting .subscribe := by
  have hstage := classify_full (c := c.relocate sight) ((relocate_connected c sight).trans hlink)
    (by rwa [relocate_subscribed]) (relocate_complete hlink h) h
  rw [relocate_subscribed] at hstage
  let obs := ((c.relocate sight).observation sight).bridged
  let m := (c.relocate sight).machine.enter obs nowMs
  have hstate : m.state = _ := (LinkMachine.enter_state _ obs nowMs).trans hstage
  have hphase : (c.observe sight nowMs).phase =
      if m.state = .ready then .returned else .acting (m.advise obs nowMs).action := by
    rw [observe]
    simp only [LinkMachine.linkUpdate_eq, LinkMachine.advise_state]
    split <;> rfl
  rw [hphase, hstate]
  by_cases hall : 3 ≤ c.subscribed.length
  · rw [if_pos hall] at hstate
    simp [hall]
  · rw [if_neg hall] at hstate
    by_cases hnone : c.subscribed.length = 0
    · rw [if_pos hnone] at hstate
      simp [hnone, (LinkMachine.advise_pair_iff m obs nowMs).mpr hstate]
    · rw [if_neg hnone] at hstate
      simp [hall, hnone, (LinkMachine.advise_subscribe_iff m obs nowMs).mpr hstate]

/-- A climb under way on a link that is up. -/
structure Climbing (c : Climb) : Prop extends c.Ordered where
  link : c.connected = true
  live : c.phase ≠ .failed

theorem Climbing.count (h : c.Climbing) : c.subscribed.length ≤ 4 := length_le_four h.nodup

/-- Where the loop of `_subscribe`, uncapped, has every channel before it or behind it, its
end finds all required channels subscribed. -/
theorem remaining_subscribing (hcount : c.subscribed.length ≤ 4)
    (hcomplete : complete c.writes c.notifies = true) {todo : List Channel}
    (hcover : ∀ d ∈ c.notifies, d ∈ c.subscribed ∨ d ∈ todo)
    (hphase : c.phase = nextSubscription c.subscribed todo none) :
    c.phase ≠ .failed ∧ c.remaining + c.subscribed.length ≤ 5 := by
  rcases nextSubscription_cases c.subscribed todo none with
    ⟨hlooking, hall⟩ | ⟨d, rest, hnext, -⟩
  · have hthree := three_le_length hcomplete fun d hd => (hcover d hd).elim id (hall rfl d)
    have hlooks : looks c.subscribed.length = 1 := by
      rw [looks, if_neg (by omega), if_neg (by omega)]
    simp only [remaining, hphase, hlooking, hlooks, ne_eq, reduceCtorEq, not_false_eq_true,
      true_and]
    omega
  · simp only [remaining, hphase, hnext, Option.map_none, ne_eq, reduceCtorEq,
      not_false_eq_true, true_and]
    omega

theorem Climbing.observed (h : c.Climbing) (nowMs : UInt64) (hlooking : c.phase = .looking)
    (hfull : sight.Full) :
    (c.observe sight nowMs).phase ≠ .failed ∧
      (c.observe sight nowMs).remaining < c.remaining := by
  have hphase := observe_full nowMs h.link h.count hfull
  obtain ⟨hsub, -⟩ := c.observe_frame sight nowMs
  have hbefore : c.remaining = looks c.subscribed.length := by simp only [remaining, hlooking]
  rw [hbefore, looks]
  by_cases hall : 3 ≤ c.subscribed.length
  · rw [if_pos hall] at hphase
    simp only [remaining, hphase, ne_eq, reduceCtorEq, not_false_eq_true, true_and]
    split <;> (try split) <;> omega
  · rw [if_neg hall] at hphase
    by_cases hnone : c.subscribed.length = 0
    · rw [if_pos hnone] at hphase
      simp [remaining, hphase, hnone]
    · rw [if_neg hnone] at hphase
      rw [if_neg hnone, if_pos (Nat.lt_of_not_le hall)]
      simp only [remaining, hphase, hsub, ne_eq, reduceCtorEq, not_false_eq_true, true_and]
      omega

theorem Climbing.acted (h : c.Climbing) {action : LinkAction} (hacting : c.phase = .acting action) :
    c.afterAction action ≠ .failed ∧
      remaining { c with phase := c.afterAction action } < c.remaining := by
  have hphase := h.phase
  have hcount := h.count
  simp only [PhaseOk, hacting] at hphase
  cases action with
  | pair =>
      obtain ⟨hcomplete, hnone⟩ := hphase
      obtain ⟨d, rest, hnotifies⟩ := List.exists_cons_of_ne_nil
        (List.ne_nil_of_mem (mem_of_complete hcomplete .command (by decide)))
      have hnext : c.afterAction .pair = .subscribing d rest (some 0) := by
        simp [afterAction, nextSubscription, hnone, hnotifies]
      simp [remaining, hnext, hacting]
  | subscribe =>
      obtain ⟨hlive, hle⟩ := remaining_subscribing
        (c := { c with phase := nextSubscription c.subscribed c.notifies none }) hcount hphase
        (fun d => Or.inr) rfl
      have hbefore : c.remaining = 6 - c.subscribed.length := by simp only [remaining, hacting]
      refine ⟨hlive, ?_⟩
      rw [hbefore]
      change remaining { c with phase := nextSubscription c.subscribed c.notifies none } +
        c.subscribed.length ≤ 5 at hle
      change remaining { c with phase := nextSubscription c.subscribed c.notifies none } < _
      omega
  | _ => simp [afterAction, remaining, hacting]

theorem Climbing.notifyStarted (h : c.Climbing) {channel : Channel} {todo : List Channel}
    {budget : Option Nat} (hsubscribing : c.phase = .subscribing channel todo budget)
    (hafter : c'.Ordered) (hwrites : c'.writes = c.writes) (hnotifies : c'.notifies = c.notifies)
    (hsub : c'.subscribed = c.subscribed ++ [channel])
    (hphase' : c'.phase = nextSubscription c'.subscribed todo budget) :
    c'.phase ≠ .failed ∧ c'.remaining < c.remaining := by
  have hphase := h.phase
  simp only [PhaseOk, hsubscribing] at hphase
  obtain ⟨hcomplete, -, -, -, hcover, rfl | ⟨rfl, hnone⟩⟩ := hphase
  · have hcover' : ∀ d ∈ c'.notifies, d ∈ c'.subscribed ∨ d ∈ todo := by
      intro d hd
      rw [hsub, List.mem_append, List.mem_singleton, or_assoc]
      exact hcover d (hnotifies ▸ hd)
    rw [← hwrites, ← hnotifies] at hcomplete
    obtain ⟨hlive, hle⟩ := remaining_subscribing (length_le_four hafter.nodup) hcomplete hcover'
      hphase'
    have hbefore : c.remaining = 5 - c.subscribed.length := by
      simp only [remaining, hsubscribing]
    rw [hsub, List.length_append, List.length_singleton] at hle
    refine ⟨hlive, ?_⟩
    rw [hbefore]
    omega
  · -- The pair stage stops after its one subscription.
    have hlooking : c'.phase = .looking := by
      rw [hphase']
      rcases nextSubscription_cases c'.subscribed todo (some 0) with
        ⟨hlooking, -⟩ | ⟨d, rest, -, -, -, -, -, hbudget⟩
      · exact hlooking
      · exact absurd rfl hbudget
    simp [remaining, hlooking, hsubscribing, hsub, hnone, looks]

theorem Climbing.step (h : c.Climbing) {e : ClimbEvent} (hsmooth : e.Smooth)
    (hstep : c.step e = some c') : c'.Climbing ∧ c'.remaining < c.remaining := by
  have hordered := h.toOrdered.step hstep
  rcases step_cases hstep with
    ⟨rfl, -⟩ | ⟨rfl, -⟩ | ⟨sight, nowMs, rfl, hlooking, rfl⟩ | ⟨action, rfl, hacting, rfl⟩ |
    ⟨channel, todo, budget, rfl, hsubscribing, rfl⟩ | ⟨channel, nowMs, -, -, rfl, -⟩ |
    ⟨nowMs, -, rfl, -⟩ | ⟨rfl | rfl, -⟩
  · exact hsmooth.elim
  · exact hsmooth.elim
  · obtain ⟨hlive, hlt⟩ := h.observed nowMs hlooking hsmooth
    obtain ⟨-, -, hlink, -⟩ := c.observe_frame sight nowMs
    exact ⟨⟨hordered, hlink.trans h.link, hlive⟩, hlt⟩
  · obtain ⟨hlive, hlt⟩ := h.acted hacting
    exact ⟨⟨hordered, h.link, hlive⟩, hlt⟩
  · obtain ⟨hlive, hlt⟩ := h.notifyStarted hsubscribing hordered rfl rfl rfl rfl
    exact ⟨⟨hordered, h.link, hlive⟩, hlt⟩
  all_goals exact hsmooth.elim

theorem full_sightingOf : (sightingOf requiredChannels).Full := by decide

theorem descends :
    lts.Descends ClimbEvent.Smooth Climbing (fun c => c.phase = .returned) remaining where
  keeps h hsmooth hstep := (h.step hsmooth hstep).1
  falls h hsmooth hstep := (h.step hsmooth hstep).2
  moves {c} h hgoing := by
    have hlive := h.live
    rcases hphase : c.phase with - | action | ⟨channel, todo, budget⟩ | - | -
    · exact ⟨.observed (sightingOf requiredChannels) 0, _, full_sightingOf,
        by simp [lts, Lts.ofPartial, Climb.step, hphase]; rfl⟩
    · exact ⟨.acted, _, trivial, by simp [lts, Lts.ofPartial, Climb.step, hphase]; rfl⟩
    · exact ⟨.notifyStarted channel, _, trivial,
        by simp [lts, Lts.ofPartial, Climb.step, hphase]; rfl⟩
    · exact absurd hphase hgoing
    · exact absurd hphase hlive

/-- From any point of any climb that has not failed, once the link is up: while the passes
see all of the camera and no call fails, there are at most ten steps, and the last of them
is the return. -/
theorem smooth_run_returns (hreach : lts.Reachable c) (hlink : c.connected = true)
    (hlive : c.phase ≠ .failed) (hrun : lts.Run c events c')
    (hsmooth : ∀ e ∈ events, e.Smooth) :
    events.length ≤ 10 ∧
      (c'.phase = .returned ∨ ∃ e c'', e.Smooth ∧ lts.step c' e c'') := by
  have hordered : c.Ordered := by
    refine hreach.invariant ?_ fun c e c' _ h hstep => h.step hstep
    rintro _ ⟨machine, connected, rfl⟩
    exact ⟨List.nodup_nil, List.nodup_nil, by simp, trivial⟩
  obtain ⟨hle, hend⟩ := descends.run_final ⟨hordered, hlink, hlive⟩ hrun hsmooth
  exact ⟨Nat.le_trans hle c.remaining_le, hend⟩

/-- A pass that sees half of the camera, a refused pairing, a link that goes and comes. -/
def troubledClimb : List ClimbEvent :=
  [.observed (sightingOf [.command]) 0, .acted, .observed (sightingOf requiredChannels) 500,
    .actionRefused 600, .disconnected, .observed (sightingOf requiredChannels) 700, .reconnected]

/-- From there on nothing goes wrong. -/
def smoothEnd : List ClimbEvent :=
  [.acted, .observed (sightingOf requiredChannels) 900, .acted, .notifyStarted .command,
    .observed (sightingOf requiredChannels) 1000, .acted, .notifyStarted .settings,
    .notifyStarted .query, .observed (sightingOf requiredChannels) 1100]

theorem smooth_run_returns_troubled :
    ∃ c c', lts.Run { machine := { cfg := {} }, connected := true } troubledClimb c ∧
      lts.Run c smoothEnd c' ∧ smoothEnd.length ≤ 10 ∧
        (c'.phase = .returned ∨ ∃ e c'', e.Smooth ∧ lts.step c' e c'') := by
  obtain ⟨c, hc, hlink, hlive⟩ : ∃ c, Lts.exec step
      { machine := { cfg := {} }, connected := true } troubledClimb = some c ∧
      c.connected = true ∧ c.phase = .acting .connect := ⟨_, rfl, rfl, rfl⟩
  obtain ⟨c', hc'⟩ : ∃ c', Lts.exec step c smoothEnd = some c' := by
    obtain rfl := Option.some.inj hc
    exact ⟨_, rfl⟩
  have hbefore : lts.Run { machine := { cfg := {} }, connected := true } troubledClimb c :=
    Lts.run_of_exec hc
  have hafter : lts.Run c smoothEnd c' := Lts.run_of_exec hc'
  exact ⟨c, c', hbefore, hafter, smooth_run_returns ⟨_, _, ⟨_, _, rfl⟩, hbefore⟩ hlink
    (by simp [hlive]) hafter (by decide)⟩

end Climb

end GoproNative
