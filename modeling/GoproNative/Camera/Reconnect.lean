import GoproNative.Camera.Phases

/-!
# Reconnection

A drop takes the camera to `reconnecting`, and bring-up runs again.  What brings the
link back is `_attach`, and it asks for the statuses before the state is set to `up`.
A link that is not up cannot be asked: `send` throws, `_attach` with it, and the
`catch` of `_onDrop` closes the camera.
-/

namespace GoproNative

namespace Camera

/-- A complete run from the drop of a live link with reconnection enabled, in which
bring-up returns a device and the user does not close the camera. -/
structure LinkLost (c₁ : Camera) (rest : List (CameraOp × List CameraEvent))
    (a : Attached) (c : Camera) : Prop where
  reached : lts.Reachable c₁
  up : c₁.state = .up
  retries : c₁.reconnectTimeoutMs ≠ 0
  run : lts.Run c₁ rest c
  drops : ∃ label tail, rest = label :: tail ∧ IsDrop label.1
  attached : ∃ nowMs evs, (.broughtUp (.ok a) nowMs, evs) ∈ rest
  kept : ∀ label ∈ rest, label.1 ≠ .close
  complete : c.dropping = none ∧ c.closing = none

/-- What the run is to end in. -/
structure Reestablished (c₁ : Camera) (rest : List (CameraOp × List CameraEvent))
    (a : Attached) (c : Camera) : Prop where
  up : c.state = .up
  bound : c.device = a.device ∧ c.writes = a.writes ∧ c.notifies = a.notifies
  /-- The status query was submitted when the new link was attached. -/
  queried : ∃ nowMs f evs, (.broughtUp (.ok a) nowMs, evs) ∈ rest ∧ .sent f ∈ evs
  canceled : ∀ id f, c₁.pending.lookup id = some f →
    ∃ label ∈ rest, .resolved f ⟨id, .canceled, []⟩ ∈ label.2 ∨
      ∃ origin, .answered f ⟨id, .canceled, []⟩ origin ∈ label.2
  neverDown : ∀ first second d, rest = first ++ second → lts.Run c₁ first d →
    d.state ≠ .down

variable {c c' : Camera} {op : CameraOp} {evs : List CameraEvent}

/-! ## After a drop -/

theorem close_not_up (h : c.state ≠ .down) : c.close.1.state ≠ .up := by
  obtain ⟨stage, hphase⟩ := close_phase h
  have hstate : c.close.1.state = .down := congrArg Phase.state hphase
  simp [hstate]

theorem onDrop_not_up (c : Camera) (why : String) : (c.onDrop why).1.state ≠ .up := by
  rcases c.onDrop_cases why with ⟨hstate, h⟩ | ⟨hup, -, h⟩ | ⟨-, -, h⟩
  · rwa [h]
  · rw [h]
    exact close_not_up (by simp [hup])
  · have hstate : c.dropped.state = .reconnecting := congrArg Phase.state c.dropped_phase
    rw [h, hstate]
    simp

/-- A noticed drop takes a live link out of `up`. -/
theorem next_not_up_of_drop (hup : c.state = .up) (hop : IsDrop op)
    (h : c.next op = some (c', evs)) : c'.state ≠ .up := by
  cases next_turns h with
  | ticked connected nowMs hquiet => exact absurd ⟨hup, hop⟩ hquiet
  | tickedDown connected nowMs why => exact onDrop_not_up _ why
  | ignored op hother => exact absurd hop hother
  | noticed op why => exact onDrop_not_up c why
  | gaveUp op e hstage =>
      rw [giveUp_state]
      simp
  | _ => exact hop.elim

/-- From a link that is not up a run leads to links that are not up. -/
theorem run_not_up {labels : List (CameraOp × List CameraEvent)} (h : lts.Run c labels c')
    (hreach : lts.Reachable c) (hstate : c.state ≠ .up) : c'.state ≠ .up := by
  have hboth : Staged c'.phase ∧ c'.state ≠ .up :=
    h.invariant (I := fun c => Staged c.phase ∧ c.state ≠ .up) ⟨staged hreach, hstate⟩
      fun c label c' ⟨hstaged, hstate⟩ hstep =>
        ⟨hstaged.moves (next_moves hstep), hstaged.not_up (next_moves hstep) hstate⟩
  exact hboth.2

/-- Attaching to a link that is not up fails at the status query, and submits
nothing. -/
theorem broughtUp_refused {a : Attached} {nowMs : UInt64} (hstate : c.state ≠ .up)
    (h : c.next (.broughtUp (.ok a) nowMs) = some (c', evs)) :
    evs = [] ∧ ∃ e, c'.dropping = some (.attaching (some e)) := by
  have hattach := attach_of_not_up hstate a nowMs
  simp only [next, hattach, Option.ite_none_right_eq_some, Option.some.injEq,
    Prod.mk.injEq] at h
  obtain ⟨-, rfl, rfl⟩ := h
  exact ⟨rfl, _, rfl⟩

/-- The reconnection has failed: the camera is down, or about to be closed. -/
def Doomed (p : Phase) : Prop :=
  p.state = .down ∨ ∃ e, p.dropping = some (.attaching (some e))

theorem Doomed.moves {p p' : Phase} (h : Doomed p) (hstaged : Staged p)
    (hmove : Moves p p') : Doomed p' := by
  cases hmove with
  | stay => exact h
  | drop hup =>
      rcases h with hdown | ⟨e, hstage⟩
      · simp [hdown] at hup
      · exact absurd hup (hstaged.dropping (by simp [hstage]))
  | shut => exact Or.inl rfl
  | abandon hdown => exact Or.inl hdown
  | stall hstage =>
      rcases h with hdown | ⟨e, hfailed⟩
      · exact Or.inl hdown
      · simp [hstage] at hfailed
  | climb hstage =>
      rcases h with hdown | ⟨e, hfailed⟩
      · exact Or.inl hdown
      · simp [hstage] at hfailed
  | attach failure hstage hfails =>
      rcases h with hdown | ⟨e, hfailed⟩
      · exact Or.inl hdown
      · simp [hstage] at hfailed
  | finish hstage => exact absurd hstage hstaged.failed
  | shutting closing hsome hbefore => exact Or.inl (hstaged.closing hsome)
  | destroy rest hstage => exact Or.inl (hstaged.closing (by simp [hstage]))
  | ending streams closing hstage hclosing =>
      exact Or.inl (hstaged.closing (by simp [hstage]))

theorem run_doomed {labels : List (CameraOp × List CameraEvent)} (h : lts.Run c labels c')
    (hreach : lts.Reachable c) (hdoomed : Doomed c.phase) : Doomed c'.phase := by
  have hboth : Staged c'.phase ∧ Doomed c'.phase :=
    h.invariant (I := fun c => Staged c.phase ∧ Doomed c.phase) ⟨staged hreach, hdoomed⟩
      fun c label c' ⟨hstaged, hdoomed⟩ hstep =>
        ⟨hstaged.moves (next_moves hstep), hdoomed.moves hstaged (next_moves hstep)⟩
  exact hboth.2

/-- What becomes of a link that is lost while bring-up succeeds: the attachment of
`a` submits nothing, and is refused. -/
theorem LinkLost.attachment {c₁ : Camera} {rest : List (CameraOp × List CameraEvent)}
    {a : Attached} (h : LinkLost c₁ rest a c) {nowMs : UInt64}
    (hmem : (.broughtUp (.ok a) nowMs, evs) ∈ rest) :
    evs = [] ∧ Doomed c.phase := by
  obtain ⟨label, tail, hrest, hdrop⟩ := h.drops
  have hrun := h.run
  rw [hrest] at hrun hmem
  cases hrun with
  | cons hfirst htail =>
      have hreach := h.reached.step hfirst
      have hnot := next_not_up_of_drop h.up hdrop hfirst
      rcases List.mem_cons.mp hmem with rfl | hmem
      · exact hdrop.elim
      · obtain ⟨before, after, rfl⟩ := List.append_of_mem hmem
        obtain ⟨d, hbefore, hafter⟩ := htail.split
        cases hafter with
        | cons hattach hafter =>
            have hd := hreach.run hbefore
            obtain ⟨hevs, hstage⟩ :=
              broughtUp_refused (run_not_up hbefore hreach hnot) hattach
            exact ⟨hevs, run_doomed hafter (hd.step hattach) (Or.inr hstage)⟩

/-- No dropped link is re-established.  Whatever else happens, a camera whose bring-up
has returned a device submits no status query and ends down. -/
theorem never_reestablished {c₁ : Camera} {rest : List (CameraOp × List CameraEvent)}
    {a : Attached} (h : LinkLost c₁ rest a c) :
    c.state = .down ∧
      (∀ nowMs evs, (.broughtUp (.ok a) nowMs, evs) ∈ rest → evs = []) ∧
      ¬Reestablished c₁ rest a c := by
  obtain ⟨nowMs, evs, hmem⟩ := h.attached
  have hdown : c.state = .down := by
    rcases (h.attachment hmem).2 with hdown | ⟨e, hstage⟩
    · exact hdown
    · have hnone : c.dropping = some (.attaching (some e)) := hstage
      simp [h.complete.1] at hnone
  refine ⟨hdown, fun nowMs evs hmem => (h.attachment hmem).1, ?_⟩
  intro hgood
  simp [hgood.up] at hdown

/-! ## An unplugged camera -/

/-- The poll notices a drop, and bring-up finds the camera again. -/
def unplugged : List CameraOp :=
  [.tick false 500, .dropDetached true, .broughtUp (.ok plainCamera) 900, .attachAwaited,
    .closeResumed true, .closeResumed true, .closeResumed true, .closeResumed true,
    .closeResumed true, .closeResumed true, .closeResumed true]

theorem linkLost_unplugged :
    ∃ c₁ rest c, LinkLost c₁ rest plainCamera c := by
  obtain ⟨c₁, c, rest, hconnect, hup, hretries, htrace, hcomplete⟩ :
      ∃ c₁ c rest, connect {} 300000 plainCamera 0 = .ok c₁ ∧ c₁.state = .up ∧
        c₁.reconnectTimeoutMs = 300000 ∧ Lts.trace next c₁ unplugged = some (c, rest) ∧
        c.dropping = none ∧ c.closing = none :=
    ⟨_, _, _, rfl, rfl, rfl, rfl, rfl, rfl⟩
  have hinputs : rest.map Prod.fst = unplugged := Lts.trace_inputs htrace
  have hkept : ∀ label ∈ rest, label.1 ∈ unplugged :=
    fun label hlabel => hinputs ▸ List.mem_map_of_mem hlabel
  refine ⟨c₁, rest, c, ⟨.of_start ⟨_, _, _, _, hconnect⟩, hup, by simp [hretries],
    Lts.run_of_trace htrace, ?_, ?_, ?_, hcomplete⟩⟩
  · cases rest with
    | nil => simp [unplugged] at hinputs
    | cons label tail =>
        obtain ⟨hlabel, -⟩ := List.cons.inj hinputs
        exact ⟨label, tail, rfl, by rw [hlabel]; rfl⟩
  · have hmem : CameraOp.broughtUp (.ok plainCamera) 900 ∈ rest.map Prod.fst := by
      rw [hinputs]
      simp [unplugged]
    obtain ⟨⟨op, evs⟩, hlabel, rfl⟩ := List.mem_map.mp hmem
    exact ⟨900, evs, hlabel⟩
  · intro label hlabel hclose
    have hop := hkept label hlabel
    simp [hclose, unplugged] at hop

/-- It ends down. -/
theorem never_reestablished_unplugged :
    ∃ c₁ rest c, LinkLost c₁ rest plainCamera c ∧ c.state = .down := by
  obtain ⟨c₁, rest, c, hlost⟩ := linkLost_unplugged
  exact ⟨c₁, rest, c, hlost, (never_reestablished hlost).1⟩

/-- A dropped link is not always re-established. -/
theorem lost_for_good :
    ¬∀ c₁ rest a c, LinkLost c₁ rest a c → Reestablished c₁ rest a c := by
  intro h
  obtain ⟨c₁, rest, c, hlost⟩ := linkLost_unplugged
  obtain ⟨nowMs, f, evs, hmem, hsent⟩ := (h c₁ rest plainCamera c hlost).queried
  simp [(hlost.attachment hmem).1] at hsent

end Camera

end GoproNative
