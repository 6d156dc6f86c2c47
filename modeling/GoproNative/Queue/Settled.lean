import GoproNative.Queue.SingleFlight

/-!
# A queue between calls

When the callbacks of an owner do not call the queue again, every operation runs
to its end, and leaves the queue settled: nothing pending can be sent.  What
pends in a settled queue are ordinary commands, and the next pump releases at
most the first of them.
-/

namespace GoproNative

variable {κ : Type}

namespace CommandQueue

variable {q : CommandQueue κ} {nowMs : UInt64}

/-- Nothing pending can be sent. -/
def Settled (q : CommandQueue κ) : Prop := ∀ e ∈ q.pending, q.canSend e = false

theorem pump_settled (q : CommandQueue κ) (nowMs : UInt64) : (q.pump nowMs).1.Settled :=
  q.pump_stuck nowMs

/-- Only a closed gate or another ordinary command holds an entry back whose id is
free, and both hold back ordinary commands only. -/
theorem Settled.ordinary (h : q.Settled) (hsingle : q.SingleFlight) :
    ∀ e ∈ q.pending, e.priority = .queued := by
  intro e he
  by_contra hprio
  have hsend : q.canSend e = true := canSend_iff.mpr
    ⟨fun f hf => hsingle.pending_free he hf, fun h => absurd h hprio⟩
  simp [h e he] at hsend

theorem Settled.close (h : q.Settled) : Settled { q with ready := false } := by
  intro e he
  have hblocked := h e he
  by_contra hsend
  rw [Bool.not_eq_false, canSend_iff] at hsend
  have hopen : q.canSend e = true :=
    canSend_iff.mpr ⟨hsend.1, fun hprio => absurd (hsend.2 hprio).1 (by simp)⟩
  simp [hopen] at hblocked

/-- Every operation leaves a settled queue settled. -/
theorem Settled.run (h : q.Settled) (done : κ) (op : QueueOp) :
    (q.activate done op).run.1.Settled := by
  have hactivates := q.activates done op
  generalize q.activate done op = act at hactivates ⊢
  cases hactivates with
  | refused | unknown => exact h
  | accepted id payload priority nowMs e => exact pump_settled _ nowMs
  | opened nowMs => exact pump_settled _ nowMs
  | shut => exact h.close
  | answered data nowMs => exact pump_settled _ nowMs
  | swept nowMs => exact pump_settled _ nowMs
  | canceled => exact fun e he => absurd he List.not_mem_nil

theorem SingleFlight.run (h : q.SingleFlight) (done : κ) (op : QueueOp) :
    (q.activate done op).run.1.SingleFlight := by
  have hactive := (h.activate done op).1
  unfold Activation.run
  cases (q.activate done op).resume with
  | none => exact hactive
  | some nowMs => exact hactive.pump nowMs

/-- Only `setReady` touches the gate. -/
theorem run_ready (q : CommandQueue κ) (done : κ) (op : QueueOp) :
    (q.activate done op).run.1.ready =
      match op with
      | .setReady ready _ => ready
      | _ => q.ready := by
  have hactivates := q.activates done op
  generalize q.activate done op = act at hactivates ⊢
  cases hactivates with
  | accepted id payload priority nowMs e => exact (pump_ready _ nowMs).trans (q.push_ready e)
  | opened nowMs => exact pump_ready _ nowMs
  | answered data nowMs => exact pump_ready _ nowMs
  | swept nowMs => exact pump_ready _ nowMs
  | refused | shut | unknown | canceled => rfl

theorem resume_opts (q : CommandQueue κ) (resume : Option UInt64) :
    (q.resume resume).1.opts = q.opts := by
  cases resume with
  | none => rfl
  | some nowMs => exact q.pump_opts nowMs

/-- No operation changes the options. -/
theorem activate_opts (q : CommandQueue κ) (done : κ) (op : QueueOp) :
    (q.activate done op).queue.opts = q.opts := by
  have hactivates := q.activates done op
  generalize q.activate done op = act at hactivates ⊢
  cases hactivates with
  | accepted id payload priority nowMs e =>
      change ((q.push e).pump nowMs).1.opts = q.opts
      rw [pump_opts, push]
      split <;> rfl
  | opened nowMs => exact pump_opts _ nowMs
  | refused | shut | unknown | answered | swept | canceled => rfl

theorem run_opts (q : CommandQueue κ) (done : κ) (op : QueueOp) :
    (q.activate done op).run.1.opts = q.opts :=
  (resume_opts _ _).trans (q.activate_opts done op)

theorem pump_wrote_ready (q : CommandQueue κ) (nowMs : UInt64) :
    ∀ e q', .wrote e q' ∈ (q.pump nowMs).2 → e.priority = .queued → q.ready = true := by
  have hevents : ∀ ev ∈ (q.pump nowMs).2, ∀ e q', ev = .wrote e q' →
      e.priority = .queued → q.ready = true := by
    refine pump_events (I := fun q₁ => q₁.ready = q.ready) rfl ?_
    intro q₁ ev q₂ hI hpass
    obtain ⟨e, as, bs, -, hsend, -, rfl, rfl⟩ := pumpPass_eq_some hpass
    refine ⟨hI, ?_⟩
    intro e' q' heq hprio
    simp only [QueueEvent.wrote.injEq] at heq
    rw [← heq.1] at hprio
    rw [← hI]
    exact ((canSend_iff.mp hsend).2 hprio).1
  exact fun e q' hev => hevents _ hev e q' rfl

/-- An operation writes an ordinary command only with the flag it leaves up. -/
theorem run_wrote_ready (q : CommandQueue κ) (done : κ) (op : QueueOp) :
    ∀ e q', .wrote e q' ∈ (q.activate done op).run.2 → e.priority = .queued →
      (q.activate done op).run.1.ready = true := by
  intro e q' hev hprio
  rw [run_ready]
  have hactivates := q.activates done op
  generalize q.activate done op = act at hactivates hev ⊢
  cases hactivates with
  | accepted id payload priority nowMs e' =>
      simp only [Activation.run, CommandQueue.resume, List.map_nil, List.append_nil,
        List.mem_cons, reduceCtorEq, false_or] at hev
      simpa using pump_wrote_ready _ nowMs e q' hev hprio
  | opened => rfl
  | answered data nowMs =>
      simp only [Activation.run, CommandQueue.resume, List.nil_append, List.map_cons,
        List.map_nil, List.mem_append, List.mem_singleton, reduceCtorEq, false_or] at hev
      have hready := pump_wrote_ready _ nowMs e q' hev hprio
      exact hready
  | swept nowMs =>
      simp only [tick, Activation.run, CommandQueue.resume, List.nil_append, List.mem_append,
        List.mem_map, reduceCtorEq, and_false, exists_false, false_or] at hev
      have hready := pump_wrote_ready _ nowMs e q' hev hprio
      exact hready
  | refused | shut | unknown => simp [Activation.run, CommandQueue.resume] at hev
  | canceled => simp [cancelAll, Activation.run, CommandQueue.resume] at hev

/-! ## The one command a pump can release -/

/-- The command the gate lets through next, if it lets one through. -/
def released (q : CommandQueue κ) : Option (Entry κ) :=
  if q.ready = true ∧ ∀ f ∈ q.inFlight, f.priority ≠ .queued then q.pending.head?
  else none

theorem released_eq_some {e : Entry κ} (h : q.released = some e) :
    (∃ es, q.pending = e :: es) ∧ q.ready = true ∧ ∀ f ∈ q.inFlight, f.priority ≠ .queued := by
  unfold released at h
  split at h
  · next hopen => exact ⟨List.head?_eq_some_iff.mp h, hopen⟩
  · simp at h

theorem pumpLoop_of_settled (h : q.Settled) (fuel : Nat) :
    pumpLoop nowMs fuel q = (q, []) := by
  cases fuel with
  | zero => rfl
  | succ fuel => rw [pumpLoop, pumpPass_eq_none_iff.mpr h]

theorem pump_of_settled (h : q.Settled) : q.pump nowMs = (q, []) :=
  pumpLoop_of_settled h _

/-- If one entry alone can be sent, nothing can be sent behind it: the others could not
before, and what shares its id is held back by it. -/
theorem settled_of_only {e : Entry κ} (honly : ∀ f ∈ q.pending, q.canSend f = true → f = e)
    {rest : List (Entry κ)} (hrest : rest ⊆ q.pending) (nowMs : UInt64) :
    Settled { q with pending := rest, inFlight := q.inFlight ++ [e.sent nowMs] } := by
  intro f hf
  by_contra hsend
  rw [Bool.not_eq_false, canSend_iff] at hsend
  obtain ⟨hids, hopen⟩ := hsend
  have hbefore : q.canSend f = true := by
    refine canSend_iff.mpr ⟨fun g hg => hids g (List.mem_append_left _ hg), ?_⟩
    intro hprio
    exact ⟨(hopen hprio).1, fun g hg => (hopen hprio).2 g (List.mem_append_left _ hg)⟩
  obtain rfl := honly f (hrest hf) hbefore
  exact hids (f.sent nowMs) (List.mem_append_right _ List.mem_cons_self) rfl

/-- If one entry alone can be sent, the pump releases it and no other. -/
theorem pump_of_only {e : Entry κ} (honly : ∀ f ∈ q.pending, q.canSend f = true → f = e)
    (hmem : e ∈ q.pending) (hsend : q.canSend e = true) (nowMs : UInt64) :
    ∃ q', q.pump nowMs = (q', [.wrote (e.sent nowMs) q']) := by
  obtain ⟨fuel, hfuel⟩ := Nat.exists_eq_succ_of_ne_zero
    (Nat.pos_iff_ne_zero.mp (List.length_pos_of_mem hmem))
  rcases hpass : q.pumpPass nowMs with _ | ⟨ev, q'⟩
  · have hstuck := pumpPass_eq_none_iff.mp hpass e hmem
    rw [hsend] at hstuck
    exact absurd hstuck (by simp)
  · obtain ⟨f, as, bs, hpending, hsendf, -, hq', rfl⟩ := pumpPass_eq_some hpass
    have hmemf : f ∈ q.pending := by simp [hpending]
    obtain rfl := honly f hmemf hsendf
    have hrest : as ++ bs ⊆ q.pending := by
      rw [hpending]
      exact ((List.Sublist.refl as).append (List.sublist_cons_self f bs)).subset
    have hsettled : q'.Settled := by
      rw [hq']
      exact settled_of_only honly hrest nowMs
    refine ⟨q', ?_⟩
    rw [pump, hfuel, pumpLoop, hpass]
    simp only [pumpLoop_of_settled hsettled]

/-- Into a settled queue a new entry either goes out alone or joins what waits. -/
theorem Settled.pump_push (h : q.Settled) (e : Entry κ) (nowMs : UInt64) :
    (q.canSend e = true ∧ ∃ q', (q.push e).pump nowMs = (q', [.wrote (e.sent nowMs) q'])) ∨
      (q.canSend e = false ∧ (q.push e).pump nowMs = (q.push e, [])) := by
  have honly : ∀ f ∈ (q.push e).pending, (q.push e).canSend f = true → f = e := by
    intro f hf hsend
    rw [canSend_push] at hsend
    rcases List.mem_cons.mp ((q.push_pending e).subset hf) with rfl | hold
    · rfl
    · simp [h f hold] at hsend
  by_cases hsend : q.canSend e = true
  · have hmem : e ∈ (q.push e).pending := (q.push_pending e).symm.subset List.mem_cons_self
    have hpushed : (q.push e).canSend e = true := by rw [canSend_push, hsend]
    exact .inl ⟨hsend, pump_of_only honly hmem hpushed nowMs⟩
  · rw [Bool.not_eq_true] at hsend
    refine .inr ⟨hsend, pump_of_settled ?_⟩
    intro f hf
    by_contra hsendf
    rw [Bool.not_eq_false] at hsendf
    obtain rfl := honly f hf hsendf
    rw [canSend_push, hsend] at hsendf
    simp at hsendf

/-- Behind a sendable head the pump begins with the head. -/
theorem pump_head (nowMs : UInt64) {e : Entry κ} {es : List (Entry κ)} (hpending : q.pending = e :: es)
    (hsend : q.canSend e = true) :
    q.pump nowMs =
      let q' : CommandQueue κ :=
        { q with pending := es, inFlight := q.inFlight ++ [e.sent nowMs] }
      ((q'.pump nowMs).1, .wrote (e.sent nowMs) q' :: (q'.pump nowMs).2) := by
  have hpass : q.pumpPass nowMs = some (.wrote (e.sent nowMs)
      { q with pending := es, inFlight := q.inFlight ++ [e.sent nowMs] },
      { q with pending := es, inFlight := q.inFlight ++ [e.sent nowMs] }) := by
    simp [pumpPass, hpending, hsend, send, Entry.sent]
  rw [pump, hpending, List.length_cons, pumpLoop, hpass]
  rfl

/-- Of ordinary commands a pump sends the released one and no other. -/
theorem pump_of_ordinary (nowMs : UInt64) (hids : (q.outstanding.map Entry.id).Nodup)
    (hordinary : ∀ e ∈ q.pending, e.priority = .queued) :
    (q.released = none ∧ q.pump nowMs = (q, [])) ∨
    ∃ e es, q.released = some e ∧ q.pending = e :: es ∧
      q.pump nowMs =
        let q' : CommandQueue κ :=
          { q with pending := es, inFlight := q.inFlight ++ [e.sent nowMs] }
        (q', [.wrote (e.sent nowMs) q']) := by
  by_cases hopen : q.ready = true ∧ ∀ f ∈ q.inFlight, f.priority ≠ .queued
  · cases hpending : q.pending with
    | nil =>
        left
        refine ⟨by simp [released, hpending], pump_of_settled ?_⟩
        intro e he
        simp [hpending] at he
    | cons e es =>
        right
        have hsend : q.canSend e = true := by
          refine canSend_iff.mpr ⟨?_, fun _ => hopen⟩
          intro f hf hfe
          rw [outstanding, hpending, List.map_append, List.nodup_append] at hids
          exact hids.2.2 e.id (by simp) f.id (List.mem_map_of_mem hf) hfe.symm
        refine ⟨e, es, by rw [released, if_pos hopen, hpending]; rfl, rfl, ?_⟩
        rw [pump_head nowMs hpending hsend]
        -- The released command is itself ordinary, and holds the others back.
        have hstop : Settled
            { q with pending := es, inFlight := q.inFlight ++ [e.sent nowMs] } := by
          intro f hf
          by_contra hnext
          rw [Bool.not_eq_false, canSend_iff] at hnext
          have hprio := hordinary f (by simp [hpending, show f ∈ es from hf])
          exact (hnext.2 hprio).2 (e.sent nowMs) (by simp)
            (hordinary e (by simp [hpending]))
        simp only [pump_of_settled hstop]
  · left
    refine ⟨by rw [released, if_neg hopen], pump_of_settled ?_⟩
    intro e he
    by_contra hsend
    rw [Bool.not_eq_false, canSend_iff] at hsend
    exact hopen (hsend.2 (hordinary e he))

/-- A completed entry makes way for the first waiting command exactly when it was
the ordinary command in flight and the gate is open. -/
theorem released_eraseP_iff (hsingle : q.SingleFlight) (hsettled : q.Settled)
    {id : CorrelationId} {answered waiting : Entry κ}
    (hfind : (q.inFlight.find? fun e => e.id == id) = some answered) :
    released { q with inFlight := q.inFlight.eraseP fun e => e.id == id } =
        some waiting ↔
      answered.priority = .queued ∧ q.pending.head? = some waiting ∧ q.ready = true := by
  have hperm := List.perm_cons_eraseP_of_find? hfind
  constructor
  · intro hreleased
    obtain ⟨⟨es, (hpending : q.pending = waiting :: es)⟩, hready, hclear⟩ :=
      released_eq_some hreleased
    have hmem : waiting ∈ q.pending := by simp [hpending]
    refine ⟨?_, by rw [hpending]; rfl, hready⟩
    by_contra hother
    have hnone : ∀ f ∈ q.inFlight, f.priority ≠ .queued := by
      intro f hf
      rcases List.mem_cons.mp (hperm.subset hf) with rfl | hf
      · exact hother
      · exact hclear f hf
    have hsend : q.canSend waiting = true := canSend_iff.mpr
      ⟨fun f hf => hsingle.pending_free hmem hf, fun _ => ⟨hready, hnone⟩⟩
    simp [hsettled waiting hmem] at hsend
  · rintro ⟨hprio, hhead, hready⟩
    have hcount := hsingle.ordinary
    rw [ordinaryInFlight, hperm.countP_eq, List.countP_cons] at hcount
    have hzero : List.countP (fun e => e.priority == .queued)
        (q.inFlight.eraseP fun e => e.id == id) = 0 := by
      simp only [hprio, beq_self_eq_true, if_true] at hcount
      omega
    have hclear : ∀ f ∈ q.inFlight.eraseP fun e => e.id == id, f.priority ≠ .queued := by
      simpa [List.countP_eq_zero] using hzero
    rw [released, if_pos ⟨hready, hclear⟩]
    exact hhead

/-! ## The deadline sweep -/

/-- What is outstanding and within its deadline: the queue `tick` pumps. -/
def sweep (q : CommandQueue κ) (nowMs : UInt64) : CommandQueue κ :=
  { q with
    inFlight := q.inFlight.filter fun e => !q.writeExpired nowMs e
    pending := q.pending.filter fun e => !q.queueExpired nowMs e }

theorem SingleFlight.sweep (h : q.SingleFlight) (nowMs : UInt64) :
    (q.sweep nowMs).SingleFlight :=
  h.sublist List.filter_sublist List.filter_sublist

theorem tick_run (q : CommandQueue κ) (nowMs : UInt64) :
    (q.tick nowMs).run.1 = ((q.sweep nowMs).pump nowMs).1 ∧
      ∀ e q', .wrote e q' ∈ (q.tick nowMs).run.2 ↔
        .wrote e q' ∈ ((q.sweep nowMs).pump nowMs).2 := by
  refine ⟨rfl, fun e q' => ?_⟩
  simp [tick, Activation.run, CommandQueue.resume, sweep]

/-- The pump takes nothing out of flight. -/
theorem pump_keeps_inFlight (q : CommandQueue κ) (nowMs : UInt64) :
    ∀ e ∈ q.inFlight, e ∈ (q.pump nowMs).1.inFlight := by
  refine pump_invariant (I := fun q' => ∀ e ∈ q.inFlight, e ∈ q'.inFlight)
    (fun _ he => he) ?_
  intro q₁ ev q₂ hI hpass e he
  obtain ⟨e', as, bs, -, -, -, rfl, -⟩ := pumpPass_eq_some hpass
  exact List.mem_append_left _ (hI e he)

/-- After the pump, in flight is what was in flight and what the pump has written. -/
theorem pump_inFlight_iff (q : CommandQueue κ) (nowMs : UInt64) (e : Entry κ) :
    e ∈ (q.pump nowMs).1.inFlight ↔
      e ∈ q.inFlight ∨ ∃ q', .wrote e q' ∈ (q.pump nowMs).2 := by
  refine (pump_run q nowMs).history (I := fun evs q₁ =>
    e ∈ q₁.inFlight ↔ e ∈ q.inFlight ∨ ∃ q', .wrote e q' ∈ evs) (by simp) ?_
  intro evs q₁ ev q₂ hI hpass
  obtain ⟨e', as, bs, -, -, -, rfl, rfl⟩ := pumpPass_eq_some hpass
  simp only [List.mem_append, hI, List.mem_singleton, QueueEvent.wrote.injEq]
  constructor
  · rintro ((hold | ⟨q', hq'⟩) | rfl)
    · exact Or.inl hold
    · exact Or.inr ⟨q', Or.inl hq'⟩
    · exact Or.inr ⟨_, Or.inr ⟨rfl, rfl⟩⟩
  · rintro (hold | ⟨q', hq' | ⟨rfl, -⟩⟩)
    · exact Or.inl (Or.inl hold)
    · exact Or.inl (Or.inr ⟨q', hq'⟩)
    · exact Or.inr rfl

/-- What an operation writes is in flight after it, and what is in flight after it was
so before or has been written. -/
theorem run_inFlight (q : CommandQueue κ) (done : κ) (op : QueueOp) (e : Entry κ) :
    ((∃ q', .wrote e q' ∈ (q.activate done op).run.2) →
      e ∈ (q.activate done op).run.1.inFlight) ∧
    (e ∈ (q.activate done op).run.1.inFlight →
      e ∈ q.inFlight ∨ ∃ q', .wrote e q' ∈ (q.activate done op).run.2) := by
  have hactivates := q.activates done op
  generalize q.activate done op = act at hactivates ⊢
  cases hactivates with
  | refused | shut | unknown => exact ⟨by simp [Activation.run, resume], Or.inl⟩
  | accepted id payload priority nowMs e' =>
      have hpump := (q.push e').pump_inFlight_iff nowMs e
      rw [push_inFlight] at hpump
      simp only [Activation.run, resume, List.map_nil, List.append_nil, List.mem_cons,
        reduceCtorEq, false_or]
      exact ⟨fun h => hpump.mpr (Or.inr h), hpump.mp⟩
  | opened nowMs =>
      have hpump := pump_inFlight_iff { q with ready := true } nowMs e
      simp only [Activation.run, resume, List.map_nil, List.append_nil]
      exact ⟨fun h => hpump.mpr (Or.inr h), hpump.mp⟩
  | answered data nowMs e' =>
      have hpump := pump_inFlight_iff
        { q with inFlight := q.inFlight.eraseP fun f => f.id == e'.id } nowMs e
      simp only [Activation.run, resume, List.nil_append, List.map_cons, List.map_nil,
        List.cons_append, List.mem_cons, reduceCtorEq, false_or]
      exact ⟨fun h => hpump.mpr (Or.inr h), fun h =>
        (hpump.mp h).imp_left List.mem_of_mem_eraseP⟩
  | swept nowMs =>
      have hpump := (q.sweep nowMs).pump_inFlight_iff nowMs e
      simp only [(q.tick_run nowMs).1, (q.tick_run nowMs).2]
      exact ⟨fun h => hpump.mpr (Or.inr h), fun h =>
        (hpump.mp h).imp_left List.mem_of_mem_filter⟩
  | canceled =>
      exact ⟨by simp [cancelAll, Activation.run, resume], fun h =>
        absurd h List.not_mem_nil⟩

/-- What the pump takes out of `pending` it puts in flight. -/
theorem pump_keeps_pending (q : CommandQueue κ) (nowMs : UInt64) :
    ∀ e ∈ q.pending, e ∈ (q.pump nowMs).1.pending ∨
      e.sent nowMs ∈ (q.pump nowMs).1.inFlight := by
  refine pump_invariant (I := fun q' => ∀ e ∈ q.pending, e ∈ q'.pending ∨
    e.sent nowMs ∈ q'.inFlight) (fun _ he => Or.inl he) ?_
  intro q₁ ev q₂ hI hpass e he
  obtain ⟨e', as, bs, hpending, -, -, rfl, -⟩ := pumpPass_eq_some hpass
  rcases hI e he with hwaits | hsent
  · rw [hpending, List.mem_append, List.mem_cons] at hwaits
    rcases hwaits with has | rfl | hbs
    · exact Or.inl (List.mem_append_left _ has)
    · exact Or.inr (by simp)
    · exact Or.inl (List.mem_append_right _ hbs)
  · exact Or.inr (List.mem_append_left _ hsent)

/-- A keep-alive whose id is free is written at once. -/
theorem submit_keepAlive_wrote {id : CorrelationId} (hfree : id ∉ q.outstanding.map Entry.id)
    (payload : Bytes) (done : κ) (nowMs : UInt64) :
    ∃ e q', .wrote e q' ∈ (q.submit id payload .keepAlive done nowMs).run.2 ∧
      e.id = id ∧ e.payload = payload := by
  rcases q.submit_cases id payload .keepAlive done nowMs with ⟨hdup, -⟩ | ⟨e, rfl, -, heq⟩
  · exact absurd hdup hfree
  · have hsend : canSend (q.push ⟨id, payload, .keepAlive, done, nowMs, 0⟩)
        ⟨id, payload, .keepAlive, done, nowMs, 0⟩ = true := by
      refine canSend_iff.mpr ⟨?_, by simp⟩
      intro f hf hfid
      rw [push_inFlight] at hf
      exact hfree (List.mem_map.mpr ⟨f, List.mem_append_right _ hf, hfid⟩)
    have hfront : (q.push ⟨id, payload, .keepAlive, done, nowMs, 0⟩).pending =
        ⟨id, payload, .keepAlive, done, nowMs, 0⟩ :: q.pending := rfl
    have hpump := pump_head nowMs hfront hsend
    have hwrote : ∃ q', .wrote (Entry.sent ⟨id, payload, .keepAlive, done, nowMs, 0⟩ nowMs)
        q' ∈ (q.submit id payload .keepAlive done nowMs).run.2 := by
      rw [heq]
      simp only [Activation.run, CommandQueue.resume, hpump, List.map_nil, List.append_nil]
      exact ⟨_, List.mem_cons_of_mem _ List.mem_cons_self⟩
    obtain ⟨q', hwrote⟩ := hwrote
    exact ⟨_, q', hwrote, rfl, rfl⟩

/-- A submission that is not ordinary, and whose id is free, is in flight at once. -/
theorem submit_inFlight {id : CorrelationId} (hfree : id ∉ q.outstanding.map Entry.id)
    (payload : Bytes) {priority : Priority} (hpriority : priority ≠ .queued) (done : κ)
    (nowMs : UInt64) :
    ∃ e ∈ (q.submit id payload priority done nowMs).run.1.inFlight, e.id = id := by
  rcases q.submit_cases id payload priority done nowMs with ⟨hdup, -⟩ | ⟨e, rfl, -, heq⟩
  · exact absurd hdup hfree
  · let e : Entry κ := ⟨id, payload, priority, done, nowMs, 0⟩
    have hmem : (id, priority) ∈
        ((q.push e).pump nowMs).1.outstanding.map fun e => (e.id, e.priority) := by
      refine (pump_outstanding (fun _ => rfl) (q.push e)).symm.subset ?_
      refine ((q.push_outstanding e).map _).symm.subset ?_
      exact List.mem_cons_self
    rw [heq]
    obtain ⟨f, hf, hkey⟩ := List.mem_map.mp hmem
    obtain ⟨hid, hprio⟩ := Prod.mk.inj hkey
    rcases List.mem_append.mp hf with hpending | hflight
    · -- The pump has left it behind, so its id is in flight.
      have hstuck := pump_settled (q.push e) nowMs f hpending
      by_contra hnone
      have hsend : canSend ((q.push e).pump nowMs).1 f = true := by
        refine canSend_iff.mpr ⟨?_, fun hqueued => absurd (hprio.symm.trans hqueued) hpriority⟩
        intro g hg hgid
        exact hnone ⟨g, hg, hgid.trans hid⟩
      simp [hsend] at hstuck
    · exact ⟨f, hflight, hid⟩

theorem submit_keeps_inFlight (q : CommandQueue κ) (id : CorrelationId) (payload : Bytes)
    (priority : Priority) (done : κ) (nowMs : UInt64) :
    ∀ e ∈ q.inFlight, e ∈ (q.submit id payload priority done nowMs).run.1.inFlight := by
  intro e he
  rcases q.submit_cases id payload priority done nowMs with ⟨-, heq⟩ | ⟨e', -, -, heq⟩
  · rw [heq]
    exact he
  · rw [heq]
    refine pump_keeps_inFlight _ nowMs e ?_
    rwa [push_inFlight]

/-- A submission whose id is taken writes nothing. -/
theorem submit_duplicate_silent {id : CorrelationId} (hdup : id ∈ q.outstanding.map Entry.id)
    (payload : Bytes) (priority : Priority) (done : κ) (nowMs : UInt64) :
    (q.submit id payload priority done nowMs).run.2 =
      [.refused done, .completed ⟨done, .rejected, []⟩] := by
  rcases q.submit_cases id payload priority done nowMs with ⟨-, heq⟩ | ⟨e, rfl, hfree, -⟩
  · rw [heq]
    rfl
  · exact absurd hdup hfree

/-! ## What an operation leaves outstanding -/

theorem resume_outstanding {β : Type*} {f : Entry κ → β}
    (hf : ∀ e t, f (e.sent t) = f e) (q : CommandQueue κ) (resume : Option UInt64) :
    ((q.resume resume).1.outstanding.map f).Perm (q.outstanding.map f) := by
  cases resume with
  | none => exact List.Perm.refl _
  | some nowMs => exact pump_outstanding (fun e => hf e nowMs) q

/-- What is outstanding at an operation's first callback was so before, or is the
submission the operation brought. -/
theorem activate_outstanding {β : Type*} {f : Entry κ → β} (hf : ∀ e t, f (e.sent t) = f e)
    (q : CommandQueue κ) (done : κ) (op : QueueOp) :
    ∀ x ∈ (q.activate done op).queue.outstanding.map f,
      x ∈ q.outstanding.map f ∨
      ∃ id payload priority nowMs, op = .submit id payload priority nowMs ∧
        x = f ⟨id, payload, priority, done, nowMs, 0⟩ := by
  intro x hx
  have hactivates := q.activates done op
  generalize q.activate done op = act at hactivates hx
  cases hactivates with
  | refused | shut | unknown => exact Or.inl hx
  | accepted id payload priority nowMs e he =>
      replace hx := (pump_outstanding (fun e => hf e nowMs) _).subset hx
      replace hx := ((q.push_outstanding _).map f).subset hx
      rw [List.map_cons, List.mem_cons] at hx
      rcases hx with rfl | hx
      · exact Or.inr ⟨id, payload, priority, nowMs, rfl, by rw [he]⟩
      · exact Or.inl hx
  | opened nowMs =>
      left
      exact (pump_outstanding (fun e => hf e nowMs) { q with ready := true }).subset hx
  | answered =>
      left
      exact ((List.Sublist.refl _).append List.eraseP_sublist).map f |>.subset hx
  | swept =>
      left
      exact (List.filter_sublist.append List.filter_sublist).map f |>.subset hx
  | canceled => exact absurd hx (by simp [cancelAll, outstanding])

theorem run_outstanding {β : Type*} {f : Entry κ → β} (hf : ∀ e t, f (e.sent t) = f e)
    (q : CommandQueue κ) (done : κ) (op : QueueOp) :
    ∀ x ∈ (q.activate done op).run.1.outstanding.map f,
      x ∈ q.outstanding.map f ∨
      ∃ id payload priority nowMs, op = .submit id payload priority nowMs ∧
        x = f ⟨id, payload, priority, done, nowMs, 0⟩ := by
  intro x hx
  exact activate_outstanding hf q done op x ((resume_outstanding hf _ _).subset hx)

end CommandQueue

end GoproNative
