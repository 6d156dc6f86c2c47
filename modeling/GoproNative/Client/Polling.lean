import GoproNative.Client.Definitions
import GoproNative.Support.Polling

/-!
# Bodies that poll

The loops of `provision` and of `waitUntilReady` are waits in the sense of `Poll`.  A run of
such a body is a run of the wait, up to the answer that decides it, and sends one request
for each question.
-/

namespace GoproNative

/-- An event, as a wait hears it. -/
def BodyEvent.heard {α : Type} (receive : Except DartError BleResponse → α) :
    BodyEvent → Poll.Event α
  | .replied reply now => .answered (receive reply) now
  | .woke now => .woke now

/-- The clock is not set back, and no pause is shorter than it should be. -/
def BodyEvent.Paced (pause t : Int) (evs : List BodyEvent) : Prop :=
  Poll.Paced pause t (evs.map (heard id))

/-- The last reading of the clock. -/
def BodyEvent.clock (t : Int) (evs : List BodyEvent) : Int := Poll.clock t (evs.map (heard id))

theorem BodyEvent.paced_heard {α : Type} {receive : Except DartError BleResponse → α}
    {pause t : Int} {evs : List BodyEvent} (h : Paced pause t evs) :
    Poll.Paced pause t (evs.map (heard receive)) := by
  induction evs generalizing t with
  | nil => trivial
  | cons ev evs ih =>
      rcases ev with ⟨reply, now⟩ | now
      · exact ⟨h.1, ih h.2⟩
      · exact ⟨h.1, ih h.2⟩

theorem BodyEvent.Paced.left {pause t : Int} {evs evs' : List BodyEvent}
    (h : Paced pause t (evs ++ evs')) : Paced pause t evs := by
  rw [Paced, List.map_append] at h
  exact Poll.Paced.left h

namespace Body

variable {σ α ρ : Type} {b : Body σ} {p : Poll α ρ} {start t : Int}
  {receive : Except DartError BleResponse → α} {request : ProtobufRequest}
  {f : Poll.Stage ρ → σ} {st st₀ : Poll.Stage ρ} {s s₀ : σ}
  {labels : List (BodyEvent × Option ProtobufRequest)}

/-- The events of a run. -/
def events (labels : List (BodyEvent × Option ProtobufRequest)) : List BodyEvent :=
  labels.map Prod.fst

/-- The requests that were sent up to the end of a run. -/
def sent (b : Body σ) (s₀ : σ) (labels : List (BodyEvent × Option ProtobufRequest)) :
    List ProtobufRequest :=
  (b.awaits s₀).toList ++ labels.flatMap fun label => label.2.toList

/-! ## What a wait hears -/

section

variable {evs : List BodyEvent} {r : ρ} {pause : Int}

end

/-! ## Runs -/

/-- Until it is over, the wait and the body do the same. -/
structure Polls (b : Body σ) (p : Poll α ρ) (start : Int)
    (receive : Except DartError BleResponse → α) (request : ProtobufRequest)
    (f : Poll.Stage ρ → σ) : Prop where
  next : ∀ st ev, (∀ r, st ≠ .over r) →
    b.next (f st) ev = (p.next start st (ev.heard receive)).map f
  asking : b.awaits (f .asking) = some request
  resting : b.awaits (f .resting) = none

/-- What a wait hears of a run. -/
def polls (receive : Except DartError BleResponse → α)
    (labels : List (BodyEvent × Option ProtobufRequest)) : List (Poll.Event α) :=
  (events labels).map (·.heard receive)

theorem polls_snoc (receive : Except DartError BleResponse → α)
    (labels : List (BodyEvent × Option ProtobufRequest)) (ev : BodyEvent)
    (o : Option ProtobufRequest) :
    polls receive (labels ++ [(ev, o)]) = polls receive labels ++ [ev.heard receive] := by
  simp [polls, events]

theorem sent_snoc (b : Body σ) (s₀ : σ)
    (labels : List (BodyEvent × Option ProtobufRequest)) (ev : BodyEvent)
    (o : Option ProtobufRequest) :
    b.sent s₀ (labels ++ [(ev, o)]) = b.sent s₀ labels ++ o.toList := by
  simp [sent]

theorem step_iff {ev : BodyEvent} {o : Option ProtobufRequest} {s' : σ} :
    b.lts.step s (ev, o) s' ↔ b.next s ev = some s' ∧ o = b.awaits s' := by
  change b.turn s ev = some (s', o) ↔ _
  rw [turn, Option.map_eq_some_iff]
  constructor
  · rintro ⟨u, hnext, heq⟩
    obtain ⟨rfl, rfl⟩ := Prod.mk.inj heq
    exact ⟨hnext, rfl⟩
  · rintro ⟨hnext, rfl⟩
    exact ⟨s', hnext, rfl⟩

/-- What the body sends as it leaves the wait. -/
def leaving (b : Body σ) (f : Poll.Stage ρ → σ) : Poll.Stage ρ → List ProtobufRequest
  | .over r => (b.awaits (f (.over r))).toList
  | _ => []

theorem run_nil (hstuck : ∀ ev, b.next s₀ ev = none) (hrun : b.lts.Run s₀ labels s) :
    labels = [] ∧ s = s₀ := by
  cases hrun with
  | nil => exact ⟨rfl, rfl⟩
  | @cons _ _ _ label _ hstep _ =>
      obtain ⟨hnext, -⟩ := step_iff.mp hstep
      rw [hstuck label.1] at hnext
      simp at hnext

/-- One request was sent for each question. -/
def Asked (b : Body σ) (receive : Except DartError BleResponse → α)
    (request : ProtobufRequest) (f : Poll.Stage ρ → σ) (s₀ : σ)
    (labels : List (BodyEvent × Option ProtobufRequest)) (st : Poll.Stage ρ) : Prop :=
  b.sent s₀ labels =
    List.replicate (Poll.asked (polls receive labels) st) request ++ b.leaving f st

/-- Where a run of the body is: in the wait, or behind it. -/
inductive Stands (b : Body σ) (p : Poll α ρ) (start : Int)
    (receive : Except DartError BleResponse → α) (request : ProtobufRequest)
    (f : Poll.Stage ρ → σ) (st₀ : Poll.Stage ρ)
    (labels : List (BodyEvent × Option ProtobufRequest)) (s : σ) : Prop
  | within (st : Poll.Stage ρ) (heq : s = f st)
      (hrun : (p.lts start).Run st₀ (polls receive labels) st)
      (hsent : b.Asked receive request f (f st₀) labels st)
  | behind (before after : List (BodyEvent × Option ProtobufRequest)) (r : ρ)
      (hsplit : labels = before ++ after)
      (hrun : (p.lts start).Run st₀ (polls receive before) (.over r))
      (hsent : b.Asked receive request f (f st₀) before (.over r))
      (hafter : b.lts.Run (f (.over r)) after s)

theorem Polls.asked_start (h : b.Polls p start receive request f) :
    b.Asked receive request f (f st₀) [] st₀ := by
  rcases st₀ with _ | _ | r
  · simp [Asked, leaving, sent, h.asking, polls, events, Poll.asked, Poll.answers]
  · simp [Asked, leaving, sent, h.resting, polls, events, Poll.asked, Poll.answers]
  · simp [Asked, leaving, sent, polls, events, Poll.asked, Poll.answers]

theorem Polls.asked_step (h : b.Polls p start receive request f) {ev : BodyEvent}
    {st' : Poll.Stage ρ} (hasked : b.Asked receive request f (f st₀) labels st)
    (hlive : ∀ r, st ≠ .over r) (hnext : p.next start st (ev.heard receive) = some st') :
    b.Asked receive request f (f st₀) (labels ++ [(ev, b.awaits (f st'))]) st' := by
  have hbefore : b.sent (f st₀) labels =
      List.replicate (Poll.asked (polls receive labels) st) request := by
    rcases st with _ | _ | r
    · simpa [Asked, leaving] using hasked
    · simpa [Asked, leaving] using hasked
    · exact absurd rfl (hlive r)
  rw [Asked, sent_snoc, polls_snoc, hbefore, Poll.asked_next hnext]
  rcases st' with _ | _ | r
  · simp [leaving, h.asking, Poll.asked, Poll.answers, List.replicate_succ']
  · simp [leaving, h.resting, Poll.asked, Poll.answers]
  · simp [leaving, Poll.asked, Poll.answers]

/-- A run from a stage of the wait. -/
theorem Polls.stands (h : b.Polls p start receive request f)
    (hrun : b.lts.Run (f st₀) labels s) :
    b.Stands p start receive request f st₀ labels s := by
  refine hrun.history (I := fun labels s => b.Stands p start receive request f st₀ labels s)
    (.within st₀ rfl (.nil st₀) h.asked_start) ?_
  rintro labels s ⟨ev, o⟩ s' hstands hstep
  obtain ⟨hnext, ho⟩ := step_iff.mp hstep
  rcases hstands with ⟨st, rfl, hwait, hsent⟩ | ⟨before, after, r, rfl, hwait, hsent, hafter⟩
  · by_cases hlive : ∀ r, st ≠ .over r
    · rw [h.next st ev hlive, Option.map_eq_some_iff] at hnext
      obtain ⟨st', hst', rfl⟩ := hnext
      refine .within st' rfl ?_ (ho ▸ h.asked_step hsent hlive hst')
      rw [polls_snoc]
      exact hwait.snoc hst'
    · push Not at hlive
      obtain ⟨r, rfl⟩ := hlive
      exact .behind labels [(ev, o)] r rfl hwait hsent (.single hstep)
  · refine .behind before (after ++ [(ev, o)]) r ?_ hwait hsent (hafter.snoc hstep)
    rw [List.append_assoc]

end Body

end GoproNative
