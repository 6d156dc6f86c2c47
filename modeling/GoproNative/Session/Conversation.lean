import GoproNative.Session.Routing

/-!
# A session and a camera that answers

The camera answers each command that was transmitted at most once, after any delay,
with a message on the command's channel that begins with the command's leading byte
or bytes, and sends nothing else.  A session takes such a message for the reply of
the command that is in flight under its id now.  That is another command when the
answer is late and the id is in use again, and when a plain command and a protobuf
command wait for messages that begin alike.
-/

namespace GoproNative

instance decidableMatches (channel : Channel) (message : Bytes) (id : CorrelationId) :
    Decidable (Matches channel message id) :=
  match message with
  | [] => decidable_of_iff (id = correlationOf channel 0) (by simp [Matches, correlationOfMessage])
  | [b] => decidable_of_iff (id = correlationOf channel b) (by simp [Matches, correlationOfMessage])
  | b0 :: b1 :: rest =>
      decidable_of_iff
        (id = correlationOf channel b0 ∨ id = protobufCorrelationOfMessage channel b0 b1) (by
          simp [Matches, correlationOfMessage])

/-- A message of the camera, and the submission it answers. -/
structure Answer where
  submission : Submission
  message : Bytes
  deriving DecidableEq

/-! ## The conversation -/

/-- The submissions of which a packet was written. -/
def transmitted (evs : List SessionEvent) : List Submission :=
  evs.filterMap fun ev =>
    match ev with
    | .write e _ (_ :: _) => some e.done
    | _ => none

structure Conversation where
  session : BleSession
  /-- What was transmitted and has not been answered. -/
  unanswered : List Submission := []

/-- A message that arrives is an answer to something transmitted and not answered yet. -/
def Answered (unanswered : List Submission) :
    Option (Channel × Bytes) → Option Answer → Prop
  | some (channel, message), some answer =>
      answer.submission ∈ unanswered ∧ answer.message = message ∧
        Matches channel message answer.submission.id
  | none, none => True
  | _, _ => False

instance (unanswered : List Submission) :
    ∀ incoming answer, Decidable (Answered unanswered incoming answer)
  | some (_, _), some _ => inferInstanceAs (Decidable (_ ∧ _ ∧ _))
  | none, none => isTrue trivial
  | some _, none => isFalse id
  | none, some _ => isFalse id

namespace Conversation

variable {c : Conversation}

/-- An operation of the session's owner, and the answer it brings if it brings one. -/
def next (c : Conversation) (input : SessionOp × Option Answer) :
    Option (Conversation × List SessionEvent) :=
  if Answered c.unanswered (c.session.incoming input.1) input.2 then
    some ({ session := (c.session.perform input.1).session
            unanswered := (match input.2 with
              | some answer => c.unanswered.erase answer.submission
              | none => c.unanswered) ++
                transmitted (c.session.perform input.1).events },
      (c.session.perform input.1).events)
  else none

def lts : Lts Conversation ((SessionOp × Option Answer) × List SessionEvent) :=
  .ofGuarded (fun c => ∃ cfg, c = { session := .new cfg }) next

/-- Every reply that a step reports is the answer to that very submission. -/
def Own (label : (SessionOp × Option Answer) × List SessionEvent) : Prop :=
  ∀ done payload, .response done .responded payload ∈ label.2 →
    label.1.2 = some ⟨done, payload⟩

end Conversation

/-- When an answer reaches a session in time for its submission: no command but the
answered one is in flight under the message's two-byte id if the answered one is in
flight, and none under either id if it is not. -/
structure BleSession.InTime (s : BleSession) (channel : Channel) (message : Bytes)
    (answered : Submission) : Prop where
  waiting : (∃ e ∈ s.queue.inFlight, e.done = answered) →
    ∀ f ∈ s.queue.inFlight, ∀ b0 b1 rest, message = b0 :: b1 :: rest →
      f.id = protobufCorrelationOfMessage channel b0 b1 → f.done = answered
  gone : (∀ e ∈ s.queue.inFlight, e.done ≠ answered) →
    ∀ f ∈ s.queue.inFlight, ¬Matches channel message f.id

namespace Conversation

variable {c : Conversation}

def Timely (c : Conversation) (input : SessionOp × Option Answer) : Prop :=
  ∀ channel message answer, c.session.incoming input.1 = some (channel, message) →
    input.2 = some answer → c.session.InTime channel message answer.submission

theorem step_eq {d : Conversation} {input : SessionOp × Option Answer}
    {evs : List SessionEvent} (h : lts.step c (input, evs) d) :
    Answered c.unanswered (c.session.incoming input.1) input.2 ∧
      d.session = (c.session.perform input.1).session ∧
      evs = (c.session.perform input.1).events := by
  simp only [lts, Lts.ofGuarded, next] at h
  split at h
  · next hanswered =>
    obtain ⟨rfl, hevs⟩ := Prod.mk.inj (Option.some.inj h)
    exact ⟨hanswered, rfl, hevs.symm⟩
  · simp at h

theorem mem_routings {evs : List SessionEvent} {done : Submission} {payload : Bytes} :
    .response done .responded payload ∈ evs ↔ .reply done payload ∈ routings evs := by
  rw [routings, List.mem_filterMap]
  constructor
  · exact fun h => ⟨_, h, rfl⟩
  · rintro ⟨ev, hev, hread⟩
    cases ev with
    | response done' outcome payload' =>
        cases outcome <;> simp at hread
        obtain ⟨rfl, rfl⟩ := hread
        exact hev
    | _ => simp at hread

/-! ## One step -/

/-- A command in flight under the id that a message is looked up by is answered. -/
theorem answers_of_mem {s : BleSession} (hs : s.Sound) {channel : Channel}
    {message : Bytes} {f : Entry Submission} (hf : f ∈ s.queue.inFlight)
    (hid : f.id = s.answeredId channel message) : s.answers channel message = some f := by
  cases hanswers : s.answers channel message with
  | none => exact absurd hid (BleSession.answers_eq_none.mp hanswers f hf)
  | some g =>
      obtain ⟨hg, hgid⟩ := BleSession.answers_eq_some hanswers
      have hsame := List.inj_on_of_nodup_map hs.single.ids (List.mem_append_right _ hg)
        (List.mem_append_right _ hf) (hgid.trans hid.symm)
      rw [hsame]

/-- The command a message resolves is the answered one exactly when the answer is in
time. -/
theorem answers_own_iff {s : BleSession} (hs : s.Sound) {channel : Channel}
    {message : Bytes} {answered : Submission}
    (hmatch : Matches channel message answered.id) :
    (∀ e, s.answers channel message = some e → e.done = answered) ↔
      s.InTime channel message answered := by
  constructor
  · intro hown
    constructor
    · rintro - f hf b0 b1 rest rfl hwide
      have htaken : s.queue.isInFlight (protobufCorrelationOfMessage channel b0 b1) = true :=
        CommandQueue.isInFlight_iff.mpr ⟨f, hf, hwide⟩
      have hid : s.answeredId channel (b0 :: b1 :: rest) =
          protobufCorrelationOfMessage channel b0 b1 := by
        simp [BleSession.answeredId, htaken]
      exact hown f (answers_of_mem hs hf (hwide.trans hid.symm))
    · intro hgone f hf hfits
      cases hanswers : s.answers channel message with
      | none => exact BleSession.not_matches_of_not_answers hanswers f hf hfits
      | some e => exact hgone e (BleSession.answers_eq_some hanswers).1 (hown e hanswers)
  · rintro ⟨hwaiting, hgone⟩ e hanswers
    obtain ⟨hmem, hid⟩ := BleSession.answers_eq_some hanswers
    by_cases hflies : ∃ f ∈ s.queue.inFlight, f.done = answered
    · obtain ⟨f, hf, rfl⟩ := hflies
      have hfid : f.done.id = f.id := (hs.attributed f (List.mem_append_right _ hf)).1
      rw [hfid] at hmatch
      rcases s.prefers_answeredId channel message with
        ⟨b0, b1, rest, hm, hwide⟩ | ⟨hplain, hfree⟩
      · exact hwaiting ⟨f, hf, rfl⟩ e hmem b0 b1 rest hm (hid.trans hwide)
      · rcases hmatch with hsame | ⟨b0, b1, rest, hm, hwide⟩
        · have heq := List.inj_on_of_nodup_map hs.single.ids (List.mem_append_right _ hmem)
            (List.mem_append_right _ hf) (hid.trans (hplain.trans hsame.symm))
          rw [heq]
        · exact absurd hwide (hfree b0 b1 rest hm f hf)
    · push Not at hflies
      refine absurd ?_ (hgone hflies e hmem)
      rw [hid]
      exact (s.prefers_answeredId channel message).matches

/-- A step reports no reply but the answer's own exactly when the answer is in time. -/
theorem own_iff_timely (hs : c.session.Sound) {input : SessionOp × Option Answer}
    (hanswered : Answered c.unanswered (c.session.incoming input.1) input.2) :
    Own (input, (c.session.perform input.1).events) ↔ c.Timely input := by
  obtain ⟨op, answer⟩ := input
  have hrouted := c.session.perform_routings op
  simp only [Own, Timely, mem_routings, hrouted]
  cases hincoming : c.session.incoming op with
  | none => simp
  | some arrived =>
      obtain ⟨channel, message⟩ := arrived
      rw [hincoming] at hanswered
      cases answer with
      | none => exact hanswered.elim
      | some answer =>
          obtain ⟨-, rfl, hmatch⟩ := hanswered
          have hiff := answers_own_iff hs hmatch
          obtain ⟨answered, message⟩ := answer
          constructor
          · intro hown channel' message' answer' harrived hanswer
            simp only [Option.some.injEq, Prod.mk.injEq] at harrived hanswer
            obtain ⟨rfl, rfl⟩ := harrived
            subst hanswer
            refine hiff.mp fun e hanswers => ?_
            have hreply := hown e.done message (by simp [hanswers])
            exact (Answer.mk.inj (Option.some.inj hreply)).1.symm
          · intro htimely done payload hmem
            have hown := hiff.mpr (htimely channel message ⟨answered, message⟩ rfl rfl)
            cases hanswers : c.session.answers channel message with
            | none => simp [hanswers] at hmem
            | some e =>
                simp only [hanswers, List.mem_singleton, Routing.reply.injEq] at hmem
                obtain ⟨rfl, rfl⟩ := hmem
                rw [hown e hanswers]

/-! ## Runs -/

/-- Replies resolve the commands they answer in exactly those runs in which every answer
is in time: none arrives after its command timed out or was canceled while a command in
flight fits it, and none arrives for a plain command while a protobuf command in flight
fits it too. -/
theorem replies_own_iff {cfg : SessionConfig}
    {labels : List ((SessionOp × Option Answer) × List SessionEvent)}
    (hrun : lts.Run { session := .new cfg } labels c) :
    (∀ label ∈ labels, Own label) ↔
      (lts.restrict fun c label => c.Timely label.1).Run { session := .new cfg }
        labels c := by
  refine hrun.forall_labels_iff_restrict (I := fun c => c.session.Sound)
    (P := fun c label => c.Timely label.1) (BleSession.sound_new cfg) ?_ ?_
  · intro c label d d' hstep hstep'
    exact (Prod.mk.inj (Option.some.inj (hstep.symm.trans hstep'))).1
  · rintro c ⟨input, evs⟩ d hs hstep
    obtain ⟨hanswered, hsession, rfl⟩ := step_eq hstep
    rw [hsession]
    exact ⟨hs.perform input.1, own_iff_timely hs hanswered⟩

/-- A reply that comes two milliseconds after the command. -/
theorem replies_own_iff_shutter :
    ∃ c labels, lts.Run { session := .new {} } labels c ∧
      labels.map Prod.fst = [(.submit .command [1, 1, 1] .fastpass 3, none),
        (.feed .command [2, 1, 0] 5, some ⟨⟨1, 0, false⟩, [1, 0]⟩)] ∧
      ∀ label ∈ labels, Own label := by
  have hquiet : Timely { session := .new {} } (.submit .command [1, 1, 1] .fastpass 3, none) :=
    fun _ _ _ _ hanswer => absurd hanswer (by simp)
  let c : Conversation :=
    { session := ((BleSession.new {}).perform (.submit .command [1, 1, 1] .fastpass 3)).session
      unanswered := [⟨1, 0, false⟩] }
  have htimely : c.Timely (.feed .command [2, 1, 0] 5, some ⟨⟨1, 0, false⟩, [1, 0]⟩) := by
    intro channel message answer _ hanswer
    obtain rfl := Option.some.inj hanswer
    constructor
    · intro _ f hf _ _ _ _ _
      rw [List.mem_singleton.mp hf]
      rfl
    · exact fun hgone => absurd rfl (hgone _ (List.mem_singleton.mpr rfl))
  let d : Conversation :=
    { session := (c.session.perform (.feed .command [2, 1, 0] 5)).session }
  have hfirst : lts.step { session := .new {} }
      ((.submit .command [1, 1, 1] .fastpass 3, none),
        ((BleSession.new {}).perform (.submit .command [1, 1, 1] .fastpass 3)).events) c :=
    rfl
  have hsecond : lts.step c
      ((.feed .command [2, 1, 0] 5, some ⟨⟨1, 0, false⟩, [1, 0]⟩),
        (c.session.perform (.feed .command [2, 1, 0] 5)).events) d := rfl
  have hrun := Lts.Run.cons hfirst (.single hsecond)
  exact ⟨d, _, hrun, rfl, (replies_own_iff hrun).mpr
    (.cons ⟨hfirst, hquiet⟩ (.single ⟨hsecond, htimely⟩))⟩

/-- A command times out and is submitted again; the camera's answer to the first one
resolves the second one. -/
theorem late_answer_resolves_next :
    ¬∀ cfg labels c, lts.Run { session := .new cfg } labels c →
      ∀ label ∈ labels, Own label := by
  intro h
  obtain ⟨c, labels, htrace, evs, hlast, hreply⟩ : ∃ c labels,
      Lts.trace next { session := .new {} }
        [(.submit .command [1, 1, 1] .fastpass 0, none), (.tick 5000, none),
          (.submit .command [1, 1, 0] .fastpass 5001, none),
          (.feed .command [2, 1, 0] 5002, some ⟨⟨1, 0, false⟩, [1, 0]⟩)] =
        some (c, labels) ∧
      ∃ evs, labels[3]? =
          some ((.feed .command [2, 1, 0] 5002, some ⟨⟨1, 0, false⟩, [1, 0]⟩), evs) ∧
        .reply ⟨1, 1, false⟩ [1, 0] ∈ routings evs :=
    ⟨_, _, rfl, _, rfl, by decide⟩
  have hrun : lts.Run { session := .new {} } labels c := Lts.run_of_trace htrace
  have hown := h {} labels c hrun _ (List.mem_of_getElem? hlast) ⟨1, 1, false⟩ [1, 0]
    (mem_routings.mpr hreply)
  simp at hown

end Conversation

end GoproNative
