import GoproNative.Transport.Definitions
import GoproNative.BringUp.Subscription
import Mathlib.Data.List.Induction

/-!
# Whom the agent lets in

The climbs of a transport share `_pairing`: the one that comes to `pair()` sets it, and any
of them that comes back from `pair()` clears it.  So the agent accepts no request but for a
device that a climb is pairing with just then, and that device is a camera of the address
that the climb was asked for.  What it may do is refuse such a request, when another climb's
pairing began or ended in between.
-/

namespace GoproNative

namespace Transport

variable {t t' : Transport} {op : TransportOp} {effects : List Effect}

/-! ## The turns -/

/-- The turns of a transport, with what they need. -/
inductive Steps (t : Transport) : TransportOp → Transport → List Effect → Prop
  | connect (address : Option String) :
      Steps t (.connect address) (t.ascend none address { cfg := {} }) []
  | looked {i : Nat} {a : Ascent} (devices : List Listed) (nowMs : UInt64) (climb : Climb) :
      t.ascents[i]? = some a →
      a.climb.step (.observed (sighting devices (candidate devices a.address)) nowMs) =
        some climb →
      Steps t (.looked i devices nowMs)
        (t.setAscent i { a with device := candidate devices a.address, climb := climb }) []
  | paired {i : Nat} {a : Ascent} {d : Listed} : t.ascents[i]? = some a → a.device = some d →
      a.climb.phase = .acting .pair →
      Steps t (.paired i)
        { t.setAscent i { a with pairs := true } with pairing := some d.device.objectPath }
        [.pair d.device.objectPath]
  | climbed {i : Nat} {a : Ascent} (e : ClimbEvent) (climb : Climb) :
      t.ascents[i]? = some a → (∀ sight nowMs, e ≠ .observed sight nowMs) →
      a.climb.step e = some climb → (a.pairs = true → climb.phase = .acting .pair) →
      Steps t (.climbed i e) (t.setAscent i { a with climb := climb }) []
  | released {i : Nat} {a : Ascent} (e : ClimbEvent) (climb : Climb) :
      t.ascents[i]? = some a → (∀ sight nowMs, e ≠ .observed sight nowMs) →
      a.climb.step e = some climb →
      Steps t (.climbed i e)
        { t.setAscent i { a with climb := climb, pairs := false } with pairing := none }
        [.pairOver]
  | connected {i : Nat} {a : Ascent} {c : Camera} (cfg : SessionConfig)
      (reconnectTimeoutMs : Nat) (attached : Attached) (nowMs : UInt64) :
      t.ascents[i]? = some a → a.owner = none → a.Gives (.ok attached) →
      Camera.connect cfg reconnectTimeoutMs attached nowMs = .ok c →
      Steps t (.connected i cfg reconnectTimeoutMs attached nowMs)
        { t.setAscent i { a with taken := true } with
          cameras := t.cameras ++ [⟨c, a.climb.machine, i⟩] } []
  | refused {i : Nat} {a : Ascent} (cfg : SessionConfig) (reconnectTimeoutMs : Nat)
      (attached : Attached) (nowMs : UInt64) : t.ascents[i]? = some a →
      Steps t (.connected i cfg reconnectTimeoutMs attached nowMs)
        (t.setAscent i { a with taken := true }) []
  | broughtUp {i k : Nat} {a : Ascent} {h : Held} {c : Camera} {evs : List CameraEvent}
      (result : Except DartError Attached) (nowMs : UInt64) : t.ascents[i]? = some a →
      a.owner = some k → t.cameras[k]? = some h → a.Gives result →
      h.camera.next (.broughtUp result nowMs) = some (c, evs) →
      Steps t (.broughtUp i result nowMs)
        { t.setAscent i { a with taken := true } with
          cameras := t.cameras.set k { h with camera := c, link := a.climb.machine } } []
  | camera {k : Nat} {h : Held} {c : Camera} {evs : List CameraEvent} (op : CameraOp) :
      t.cameras[k]? = some h → (∀ result nowMs, op ≠ .broughtUp result nowMs) →
      h.camera.next op = some (c, evs) →
      Steps t (.camera k op) { t with cameras := t.cameras.set k { h with camera := c } } []
  | dropped {k : Nat} {h : Held} {c : Camera} {evs : List CameraEvent} (op : CameraOp) :
      t.cameras[k]? = some h → (∀ result nowMs, op ≠ .broughtUp result nowMs) →
      h.camera.next op = some (c, evs) →
      Steps t (.camera k op)
        (ascend { t with cameras := t.cameras.set k { h with camera := c } } (some k)
          (some h.camera.device.address) h.link) []
  | agentRequest (path : String) : t.agent = true →
      Steps t (.agentRequest path) t [.respond (decide (t.pairing = some path))]
  | closed : Steps t .closed { t with agent := false } []

theorem next_steps (h : t.next op = some (t', effects)) : Steps t op t' effects := by
  cases op with
  | connect address =>
      obtain ⟨rfl, rfl⟩ := Prod.mk.inj (Option.some.inj h)
      exact .connect address
  | looked i devices nowMs =>
      simp only [next, Option.bind_eq_bind, Option.bind_eq_some_iff,
        Option.ite_none_right_eq_some, Option.some.injEq, Prod.mk.injEq] at h
      obtain ⟨a, ha, -, climb, hclimb, rfl, rfl⟩ := h
      exact .looked devices nowMs climb ha hclimb
  | paired i =>
      simp only [next, Option.bind_eq_bind, Option.bind_eq_some_iff,
        Option.ite_none_right_eq_some, Option.some.injEq, Prod.mk.injEq] at h
      obtain ⟨a, ha, d, hd, ⟨hphase, -⟩, rfl, rfl⟩ := h
      exact .paired ha hd hphase
  | climbed i e =>
      by_cases hlook : ∃ sight nowMs, e = .observed sight nowMs
      · obtain ⟨sight, nowMs, rfl⟩ := hlook
        simp [next] at h
      · have hother : ∀ sight nowMs, e ≠ .observed sight nowMs :=
          fun sight nowMs heq => hlook ⟨sight, nowMs, heq⟩
        have hnext : t.next (.climbed i e) = t.ascents[i]?.bind fun a =>
            (a.climb.step e).bind fun climb =>
              if a.pairs ∧ climb.phase ≠ .acting .pair then
                some ({ t.setAscent i { a with climb := climb, pairs := false } with
                  pairing := none }, [.pairOver])
              else some (t.setAscent i { a with climb := climb }, []) := by
          cases e with
          | observed sight nowMs => exact absurd rfl (hother sight nowMs)
          | _ => rfl
        rw [hnext] at h
        simp only [Option.bind_eq_some_iff] at h
        obtain ⟨a, ha, climb, hclimb, h⟩ := h
        split at h
        · obtain ⟨rfl, rfl⟩ := Prod.mk.inj (Option.some.inj h)
          exact .released e climb ha hother hclimb
        · next hquiet =>
          obtain ⟨rfl, rfl⟩ := Prod.mk.inj (Option.some.inj h)
          refine .climbed e climb ha hother hclimb fun hpairs => ?_
          by_contra hphase
          exact hquiet ⟨hpairs, hphase⟩
  | connected i cfg reconnectTimeoutMs attached nowMs =>
      simp only [next, Option.bind_eq_bind, Option.bind_eq_some_iff,
        Option.ite_none_right_eq_some] at h
      obtain ⟨a, ha, ⟨howner, -, hgives⟩, h⟩ := h
      split at h
      · next c hc =>
        obtain ⟨rfl, rfl⟩ := Prod.mk.inj (Option.some.inj h)
        exact .connected cfg reconnectTimeoutMs attached nowMs ha howner hgives hc
      · obtain ⟨rfl, rfl⟩ := Prod.mk.inj (Option.some.inj h)
        exact .refused cfg reconnectTimeoutMs attached nowMs ha
  | broughtUp i result nowMs =>
      simp only [next, Option.bind_eq_bind, Option.bind_eq_some_iff,
        Option.ite_none_right_eq_some, Option.some.injEq, Prod.mk.injEq] at h
      obtain ⟨a, ha, k, hk, held, hheld, ⟨-, hgives⟩, ⟨c, evs⟩, hturn, rfl, rfl⟩ := h
      exact .broughtUp result nowMs ha hk hheld hgives hturn
  | camera k op =>
      by_cases hback : ∃ result nowMs, op = .broughtUp result nowMs
      · obtain ⟨result, nowMs, rfl⟩ := hback
        simp [next] at h
      · have hother : ∀ result nowMs, op ≠ .broughtUp result nowMs :=
          fun result nowMs heq => hback ⟨result, nowMs, heq⟩
        have hnext : t.next (.camera k op) = t.cameras[k]?.bind fun held =>
            (held.camera.next op).bind fun r =>
              if r.1.dropping = some .climbing ∧ held.camera.dropping ≠ some .climbing then
                some (ascend { t with cameras := t.cameras.set k { held with camera := r.1 } }
                  (some k) (some held.camera.device.address) held.link, [])
              else some ({ t with cameras := t.cameras.set k { held with camera := r.1 } },
                []) := by
          cases op with
          | broughtUp result nowMs => exact absurd rfl (hother result nowMs)
          | _ => rfl
        rw [hnext] at h
        simp only [Option.bind_eq_some_iff] at h
        obtain ⟨held, hheld, ⟨c, evs⟩, hturn, h⟩ := h
        split at h
        · obtain ⟨rfl, rfl⟩ := Prod.mk.inj (Option.some.inj h)
          exact .dropped op hheld hother hturn
        · obtain ⟨rfl, rfl⟩ := Prod.mk.inj (Option.some.inj h)
          exact .camera op hheld hother hturn
  | agentRequest path =>
      simp only [next, Option.ite_none_right_eq_some, Option.some.injEq, Prod.mk.injEq] at h
      obtain ⟨hagent, rfl, rfl⟩ := h
      exact .agentRequest path hagent
  | closed =>
      obtain ⟨rfl, rfl⟩ := Prod.mk.inj (Option.some.inj h)
      exact .closed

/-! ## Whom `_pairing` names -/

/-- What the pairings that began and ended leave in `_pairing`. -/
def lastPairing (effects : List Effect) : Option String :=
  effects.foldl (fun pairing effect =>
    match effect with
    | .pair path => some path
    | .pairOver => none
    | .respond _ => pairing) none

theorem lastPairing_snoc (effects : List Effect) (effect : Effect) :
    lastPairing (effects ++ [effect]) =
      match effect with
      | .pair path => some path
      | .pairOver => none
      | .respond _ => lastPairing effects := by
  rw [lastPairing, List.foldl_append]
  rfl

theorem lastPairing_eq_some_iff (effects : List Effect) (path : String) :
    lastPairing effects = some path ↔ ∃ before after, effects = before ++ .pair path :: after ∧
      ∀ effect ∈ after, ∃ accepted, effect = .respond accepted := by
  induction effects using List.reverseRecOn with
  | nil => simp [lastPairing]
  | append_singleton effects effect ih =>
      rw [lastPairing_snoc]
      constructor
      · intro h
        cases effect with
        | pair path' =>
            obtain rfl := Option.some.inj h
            exact ⟨effects, [], rfl, by simp⟩
        | pairOver => simp at h
        | respond accepted =>
            obtain ⟨before, after, rfl, hafter⟩ := ih.mp h
            refine ⟨before, after ++ [.respond accepted], by simp, ?_⟩
            intro effect heffect
            rcases List.mem_append.mp heffect with hold | hnew
            · exact hafter effect hold
            · exact ⟨accepted, List.mem_singleton.mp hnew⟩
      · rintro ⟨before, after, heq, hafter⟩
        rcases List.append_singleton_eq_append_cons heq with
          ⟨-, rfl, -⟩ | ⟨after', rfl, heffects⟩
        · rfl
        · obtain ⟨accepted, rfl⟩ := hafter effect (by simp)
          exact ih.mpr ⟨before, after', heffects, fun e he => hafter e (by simp [he])⟩

theorem Steps.pairing (h : t.Steps op t' effects) (before : List Effect)
    (hbefore : t.pairing = lastPairing before) : t'.pairing = lastPairing (before ++ effects) := by
  cases h with
  | paired => rw [lastPairing_snoc]
  | released => rw [lastPairing_snoc]
  | agentRequest => rwa [lastPairing_snoc]
  | _ => rwa [List.append_nil]

theorem pairing_of_run {agent : Bool} {labels : List (TransportOp × List Effect)}
    (hrun : lts.Run { agent := agent } labels t) :
    t.pairing = lastPairing (labels.flatMap Prod.snd) := by
  refine hrun.history (I := fun labels t => t.pairing = lastPairing (labels.flatMap Prod.snd))
    rfl ?_
  rintro labels t ⟨op, effects⟩ t' h hstep
  rw [List.flatMap_append, List.flatMap_singleton]
  exact (next_steps hstep).pairing _ h

/-- In every run, whatever the climbs of a transport do between each other's turns, the agent
accepts a request exactly when it is there and, of all the pairings that began or ended by
then, the last thing that happened is that one for this device began. -/
theorem agent_accepts_iff {agent : Bool} {labels : List (TransportOp × List Effect)}
    (hrun : lts.Run { agent := agent } labels t) (path : String) :
    t.next (.agentRequest path) = some (t, [.respond true]) ↔ t.agent = true ∧
      ∃ before after, labels.flatMap Prod.snd = before ++ .pair path :: after ∧
        ∀ effect ∈ after, ∃ accepted, effect = .respond accepted := by
  rw [← lastPairing_eq_some_iff, ← pairing_of_run hrun, next]
  constructor
  · intro h
    rw [Option.ite_none_right_eq_some] at h
    obtain ⟨hagent, h⟩ := h
    simp only [Option.some.injEq, Prod.mk.injEq, List.cons.injEq, Effect.respond.injEq,
      decide_eq_true_eq, and_true, true_and] at h
    exact ⟨hagent, h⟩
  · rintro ⟨hagent, hpairing⟩
    rw [if_pos hagent, decide_eq_true hpairing]

end Transport

/-! ## What a climb has in hand -/

namespace Climb

variable {c c' : Climb}

theorem nextSubscription_ne_returned (subscribed todo : List Channel) (budget : Option Nat) :
    nextSubscription subscribed todo budget ≠ .returned := by
  rcases nextSubscription_cases subscribed todo budget with ⟨hlooking, -⟩ | ⟨d, rest, hnext, -⟩
  · simp [hlooking]
  · simp [hnext]

/-- A climb that returned goes no further. -/
theorem not_returned_of_step {e : ClimbEvent} (hstep : c.step e = some c') :
    c.phase ≠ .returned := by
  intro hreturned
  cases e <;> simp [step, hreturned] at hstep

/-- Only a pass of the loop returns. -/
theorem returned_of_step {e : ClimbEvent} (hstep : c.step e = some c')
    (hother : ∀ sight nowMs, e ≠ .observed sight nowMs) (hreturned : c'.phase = .returned) :
    c.phase = .returned := by
  rcases step_cases hstep with
    ⟨-, rfl⟩ | ⟨-, rfl⟩ | ⟨sight, nowMs, rfl, -⟩ | ⟨action, -, -, rfl⟩ |
    ⟨channel, todo, budget, -, -, rfl⟩ | ⟨channel, nowMs, todo, budget, -, -, rfl⟩ |
    ⟨nowMs, action, -, -, rfl⟩ | ⟨-, rfl⟩
  · exact hreturned
  · exact hreturned
  · exact absurd rfl (hother sight nowMs)
  · cases action with
    | pair | subscribe => exact absurd hreturned (nextSubscription_ne_returned _ _ _)
    | _ => simp [afterAction] at hreturned
  · exact absurd hreturned (nextSubscription_ne_returned _ _ _)
  all_goals simp at hreturned

theorem looking_of_observed {sight : Sighting} {nowMs : UInt64}
    (hstep : c.step (.observed sight nowMs) = some c') :
    c.phase = .looking ∧ c' = c.observe sight nowMs := by
  simp only [step] at hstep
  split at hstep
  · next hlooking => exact ⟨hlooking, (Option.some.inj hstep).symm⟩
  · simp at hstep

/-- A pass that returns has a candidate. -/
theorem present_of_returned {sight : Sighting} {nowMs : UInt64}
    (h : (c.observe sight nowMs).phase = .returned) : sight.candidatePresent = true := by
  rw [observe] at h
  simp only [LinkMachine.linkUpdate_eq] at h
  split at h
  · next hready =>
    rw [LinkMachine.advise_state, LinkMachine.enter_state] at hready
    rcases LinkMachine.classify_cases ((c.relocate sight).observation sight).bridged with
      ⟨-, hstage | hstage⟩ | ⟨-, hstage⟩ | ⟨hconnected, -⟩
    case inr.inr =>
      simp only [LinkObservation.bridged, observation, Bool.and_eq_true] at hconnected
      exact hconnected.1
    all_goals simp [hstage] at hready
  · simp at h

end Climb

namespace Ascent

variable {a : Ascent}

/-- A device that a climb may pick. -/
def Picks (a : Ascent) (d : Listed) : Prop :=
  d.addressType = "random" ∧ d.exposesControl = true ∧
    ∀ asked, a.address = some asked → upperCase d.device.address = upperCase asked

theorem picks_of_candidate {devices : List Listed} {d : Listed}
    (h : candidate devices a.address = some d) : a.Picks d := by
  have hfound := List.find?_some h
  simp only [Bool.and_eq_true, decide_eq_true_eq] at hfound
  obtain ⟨⟨hrandom, haddress⟩, hcontrol⟩ := hfound
  refine ⟨hrandom, hcontrol, fun asked hasked => ?_⟩
  rw [Listed.hasAddress, hasked] at haddress
  simpa using haddress

/-- It awaits `pair()` on the device at this path. -/
def PairsWith (a : Ascent) (path : String) : Prop :=
  a.pairs = true ∧ ∃ d, a.device = some d ∧ d.device.objectPath = path

structure Sound (a : Ascent) : Prop where
  picks : ∀ d, a.device = some d → a.Picks d
  /-- While `pair()` is awaited the climb goes nowhere. -/
  pairing : a.pairs = true → a.climb.phase = .acting .pair
  /-- What `_bringUp` returns is there. -/
  returned : a.climb.phase = .returned → a.device.isSome = true

theorem Sound.looked (h : a.Sound) {devices : List Listed} {nowMs : UInt64} {climb : Climb}
    (hstep : a.climb.step (.observed (sighting devices (candidate devices a.address)) nowMs) =
      some climb) :
    Sound { a with device := candidate devices a.address, climb := climb } := by
  obtain ⟨hlooking, rfl⟩ := Climb.looking_of_observed hstep
  refine ⟨fun d hd => picks_of_candidate hd, fun hpairs => ?_, fun hreturned => ?_⟩
  · have hacting := h.pairing hpairs
    rw [hlooking] at hacting
    simp at hacting
  · exact Climb.present_of_returned hreturned

theorem Sound.climbed (h : a.Sound) {e : ClimbEvent} {climb : Climb}
    (hstep : a.climb.step e = some climb) (hother : ∀ sight nowMs, e ≠ .observed sight nowMs)
    {pairs : Bool} (hpairs : pairs = true → climb.phase = .acting .pair) :
    Sound { a with climb := climb, pairs := pairs } :=
  ⟨h.picks, hpairs, fun hreturned => h.returned (Climb.returned_of_step hstep hother hreturned)⟩

end Ascent

namespace Transport

variable {t t' : Transport} {op : TransportOp} {effects : List Effect}

theorem sound_begun (owner : Option Nat) (address : Option String) (machine : LinkMachine) :
    Ascent.Sound { owner := owner, address := address
                   climb := { machine := machine, connected := false } } :=
  ⟨by simp, by simp, by simp⟩

/-- The climb reconnects a camera under its own address. -/
def Reconnects (t : Transport) (a : Ascent) : Prop :=
  ∀ k, a.owner = some k → ∃ h asked, t.cameras[k]? = some h ∧ a.address = some asked ∧
    upperCase asked = upperCase h.camera.device.address

/-- A climb taken further: it stays a call of `_bringUp` with the same arguments, and what it
returned it keeps. -/
structure Furthers (a a' : Ascent) : Prop where
  sound : a.Sound → a'.Sound
  owner : a'.owner = a.owner
  address : a'.address = a.address
  returned : a.climb.phase = .returned → a'.climb.phase = .returned ∧ a'.device = a.device

theorem Furthers.taken (a : Ascent) : Furthers a { a with taken := true } :=
  ⟨fun hsound => ⟨hsound.picks, hsound.pairing, hsound.returned⟩, rfl, rfl,
    fun hreturned => ⟨hreturned, rfl⟩⟩

/-- What a turn does to the calls of `_bringUp`: it lets them be, begins one, or takes one
further. -/
theorem Steps.ascents (h : t.Steps op t' effects) :
    t'.ascents = t.ascents ∨
    (∃ a, t'.ascents = t.ascents ++ [a] ∧ a.Sound ∧ t.Reconnects a) ∨
    ∃ i a a', t.ascents[i]? = some a ∧ t'.ascents = t.ascents.set i a' ∧ Furthers a a' := by
  cases h with
  | connect address =>
      exact Or.inr (Or.inl ⟨_, rfl, sound_begun none address { cfg := {} }, by simp [Reconnects]⟩)
  | looked devices nowMs climb ha hstep =>
      refine Or.inr (Or.inr ⟨_, _, _, ha, rfl, fun hsound => hsound.looked hstep, rfl, rfl, ?_⟩)
      intro hreturned
      exact absurd hreturned (Climb.not_returned_of_step hstep)
  | paired ha hd hphase =>
      refine Or.inr (Or.inr ⟨_, _, _, ha, rfl,
        fun hsound => ⟨hsound.picks, fun _ => hphase, hsound.returned⟩, rfl, rfl, ?_⟩)
      exact fun hreturned => ⟨hreturned, rfl⟩
  | climbed e climb ha hother hstep hpairs =>
      refine Or.inr (Or.inr ⟨_, _, _, ha, rfl,
        fun hsound => hsound.climbed hstep hother hpairs, rfl, rfl, ?_⟩)
      intro hreturned
      exact absurd hreturned (Climb.not_returned_of_step hstep)
  | released e climb ha hother hstep =>
      refine Or.inr (Or.inr ⟨_, _, _, ha, rfl,
        fun hsound => hsound.climbed hstep hother (by simp), rfl, rfl, ?_⟩)
      intro hreturned
      exact absurd hreturned (Climb.not_returned_of_step hstep)
  | connected cfg reconnectTimeoutMs attached nowMs ha =>
      exact Or.inr (Or.inr ⟨_, _, _, ha, rfl, .taken _⟩)
  | refused cfg reconnectTimeoutMs attached nowMs ha =>
      exact Or.inr (Or.inr ⟨_, _, _, ha, rfl, .taken _⟩)
  | broughtUp result nowMs ha => exact Or.inr (Or.inr ⟨_, _, _, ha, rfl, .taken _⟩)
  | camera => exact Or.inl rfl
  | @dropped k h _ _ _ hk =>
      refine Or.inr (Or.inl ⟨_, rfl, sound_begun _ _ _, ?_⟩)
      intro k' hk'
      obtain rfl := Option.some.inj hk'
      exact ⟨h, _, hk, rfl, rfl⟩
  | agentRequest => exact Or.inl rfl
  | closed => exact Or.inl rfl

/-- Every call of `_bringUp` is sound, in every state that is reached. -/
theorem sound (h : lts.Reachable t) : ∀ a ∈ t.ascents, a.Sound := by
  refine h.invariant (I := fun t => ∀ a ∈ t.ascents, a.Sound) ?_ ?_
  · rintro _ ⟨agent, rfl⟩
    simp
  · rintro t ⟨op, effects⟩ t' - hI hstep
    rcases (next_steps hstep).ascents with
      heq | ⟨a, heq, hsound, -⟩ | ⟨i, a, a', ha, heq, hfurther⟩
    · rw [heq]
      exact hI
    · rw [heq]
      intro b hb
      rcases List.mem_append.mp hb with hold | hnew
      · exact hI b hold
      · rwa [List.mem_singleton.mp hnew]
    · rw [heq]
      intro b hb
      rcases List.mem_or_eq_of_mem_set hb with hold | rfl
      · exact hI b hold
      · exact hfurther.sound (hI a (List.mem_of_getElem? ha))

/-! ## Whom the agent lets in -/

theorem exists_mem_set {α : Type} {P : α → Prop} {l : List α} {i : Nat} {a₀ a' : α}
    (hi : l[i]? = some a₀) (hP : P a₀ → P a') (h : ∃ a ∈ l, P a) : ∃ a ∈ l.set i a', P a := by
  obtain ⟨a, ha, hPa⟩ := h
  obtain ⟨j, hj⟩ := List.mem_iff_getElem?.mp ha
  by_cases hij : i = j
  · subst hij
    obtain rfl := Option.some.inj (hi.symm.trans hj)
    obtain ⟨hlt, -⟩ := List.getElem?_eq_some_iff.mp hi
    exact ⟨a', List.mem_of_getElem? (List.getElem?_set_self hlt), hP hPa⟩
  · exact ⟨a, List.mem_of_getElem? ((List.getElem?_set_ne hij).trans hj), hPa⟩

/-- What `_pairing` names, a climb pairs with. -/
def Truthful (t : Transport) : Prop :=
  ∀ path, t.pairing = some path → ∃ a ∈ t.ascents, a.PairsWith path

theorem Truthful.begun (h : t.Truthful) (a : Ascent) :
    ∀ path, t.pairing = some path → ∃ b ∈ t.ascents ++ [a], b.PairsWith path := by
  intro path hpath
  obtain ⟨b, hb, hpairs⟩ := h path hpath
  exact ⟨b, List.mem_append_left _ hb, hpairs⟩

theorem Steps.truthful (h : t.Steps op t' effects) (hsound : ∀ a ∈ t.ascents, a.Sound)
    (hI : t.Truthful) : t'.Truthful := by
  cases h with
  | connect address => exact hI.begun _
  | @looked i a devices nowMs climb ha hstep =>
      intro path hpath
      refine exists_mem_set ha (fun hpairs => ?_) (hI path hpath)
      have hacting := (hsound a (List.mem_of_getElem? ha)).pairing hpairs.1
      rw [(Climb.looking_of_observed hstep).1] at hacting
      simp at hacting
  | @paired i a d ha hd hphase =>
      intro path hpath
      obtain ⟨hlt, -⟩ := List.getElem?_eq_some_iff.mp ha
      exact ⟨{ a with pairs := true }, List.mem_of_getElem? (List.getElem?_set_self hlt), rfl,
        d, hd, Option.some.inj hpath⟩
  | climbed e climb ha hother hstep hpairs =>
      intro path hpath
      exact exists_mem_set ha id (hI path hpath)
  | released => simp [Truthful]
  | connected cfg reconnectTimeoutMs attached nowMs ha =>
      intro path hpath
      exact exists_mem_set ha id (hI path hpath)
  | refused cfg reconnectTimeoutMs attached nowMs ha =>
      intro path hpath
      exact exists_mem_set ha id (hI path hpath)
  | broughtUp result nowMs ha =>
      intro path hpath
      exact exists_mem_set ha id (hI path hpath)
  | dropped => exact hI.begun _
  | camera | agentRequest | closed => exact hI

theorem truthful (h : lts.Reachable t) : t.Truthful := by
  refine h.invariant (I := Truthful) ?_ ?_
  · rintro _ ⟨agent, rfl⟩
    simp [Truthful]
  · rintro t ⟨op, effects⟩ t' hreach hI hstep
    exact (next_steps hstep).truthful (sound hreach) hI

/-- Whatever climbs are under way at a time, a request that the agent accepts is for a device
that one of them awaits `pair()` of just then, a device with a random address that exposes
the control service, and of the address that the climb was asked for, if of any. -/
theorem accepted_request_is_asked_for (h : lts.Reachable t) {path : String}
    (haccepted : t.next (.agentRequest path) = some (t, [.respond true])) :
    ∃ a ∈ t.ascents, a.climb.phase = .acting .pair ∧ a.PairsWith path ∧
      ∃ d, a.device = some d ∧ d.device.objectPath = path ∧ d.addressType = "random" ∧
        d.exposesControl = true ∧
        ∀ asked, a.address = some asked → upperCase d.device.address = upperCase asked := by
  have hpairing : t.pairing = some path := by
    rw [next, Option.ite_none_right_eq_some] at haccepted
    simpa using haccepted.2
  obtain ⟨a, ha, hpairs, d, hd, hpath⟩ := truthful h path hpairing
  have hsound := sound h a ha
  obtain ⟨hrandom, hcontrol, haddress⟩ := hsound.picks d hd
  exact ⟨a, ha, hsound.pairing hpairs, ⟨hpairs, d, hd, hpath⟩, d, hd, hpath, hrandom, hcontrol,
    haddress⟩

/-! ## Two cameras -/

/-- A camera that is connected and not yet bonded. -/
def unbonded (path address : String) : Listed where
  device := ⟨path, address⟩
  addressType := "random"
  deviceAlias := "GoPro"
  uuids := [controlQueryService]
  connected := true
  paired := false
  chars := (Climb.sightingOf requiredChannels).chars

def twoCameras : List Listed := [unbonded "/dev_A" "C0:00:00:00:00:0A", unbonded "/dev_B"
  "C0:00:00:00:00:0B"]

/-- A climb to a camera, up to `pair()`. -/
def upToPair (i : Nat) (address : String) : List TransportOp :=
  [.connect (some address), .climbed i .reconnected, .looked i twoCameras 0, .paired i]

/-- The second pairing begins while the first is on; then the first ends. -/
def twoPairings : List TransportOp :=
  upToPair 0 "c0:00:00:00:00:0a" ++ upToPair 1 "c0:00:00:00:00:0b"

theorem accepted_request_is_asked_for_second : ∃ t, lts.Reachable t ∧
    ∃ a ∈ t.ascents, a.climb.phase = .acting .pair ∧ a.PairsWith "/dev_B" ∧
      ∃ d, a.device = some d ∧ d.device.objectPath = "/dev_B" ∧ d.addressType = "random" ∧
        d.exposesControl = true ∧
        ∀ asked, a.address = some asked → upperCase d.device.address = upperCase asked := by
  obtain ⟨t, labels, htrace, haccepted⟩ : ∃ t labels,
      Lts.trace next { agent := true } twoPairings = some (t, labels) ∧
        t.next (.agentRequest "/dev_B") = some (t, [.respond true]) := ⟨_, _, rfl, rfl⟩
  have hreach : lts.Reachable t := ⟨_, labels, ⟨true, rfl⟩, Lts.run_of_trace htrace⟩
  exact ⟨t, hreach, accepted_request_is_asked_for hreach haccepted⟩

theorem agent_accepts_iff_overlapping : ∃ t labels, lts.Run { agent := true } labels t ∧
    (∃ a ∈ t.ascents, a.PairsWith "/dev_B") ∧
      ¬(t.agent = true ∧
        ∃ before after, labels.flatMap Prod.snd = before ++ .pair "/dev_B" :: after ∧
          ∀ effect ∈ after, ∃ accepted, effect = .respond accepted) := by
  obtain ⟨t, labels, htrace, hpairs, hrefused⟩ : ∃ t labels,
      Lts.trace next { agent := true } (twoPairings ++ [.climbed 0 (.actionRefused 5)]) =
        some (t, labels) ∧ (∃ a, t.ascents[1]? = some a ∧ a.PairsWith "/dev_B") ∧
        t.next (.agentRequest "/dev_B") = some (t, [.respond false]) :=
    ⟨_, _, rfl, ⟨_, rfl, rfl, _, rfl, rfl⟩, rfl⟩
  have hrun : lts.Run { agent := true } labels t := Lts.run_of_trace htrace
  obtain ⟨a, ha, hpairs⟩ := hpairs
  refine ⟨t, labels, hrun, ⟨a, List.mem_of_getElem? ha, hpairs⟩, ?_⟩
  rw [← agent_accepts_iff hrun, hrefused]
  simp

end Transport

end GoproNative
