import GoproNative.Queue.WorkConserving

/-!
# Timeouts hit exactly the commands that are due

Every stamp on an entry, and the time of every pump still to come, is the time of
some call of the run.  So in a run whose calls carry nondecreasing times no stamp is
later than the call at hand, and the unsigned subtractions of `tick` are subtractions
of natural numbers.  The rest is what `tick` does with the two containers it sweeps,
up to its first callback and then up to its return.
-/

namespace GoproNative

variable {κ : Type}

/-- The time a call carries. -/
def QueueOp.time? : QueueOp → Option UInt64
  | .submit _ _ _ nowMs => some nowMs
  | .setReady _ nowMs => some nowMs
  | .onResponse _ _ nowMs => some nowMs
  | .tick nowMs => some nowMs
  | .cancelAll => none

def Action.time? : Action → Option UInt64
  | .call op => op.time?
  | .ret => none

/-- The times of the calls among some actions, in order. -/
def callTimes (as : List Action) : List UInt64 := as.filterMap Action.time?

@[simp] theorem callTimes_append (as bs : List Action) :
    callTimes (as ++ bs) = callTimes as ++ callTimes bs :=
  List.filterMap_append

theorem callTimes_tick (nowMs : UInt64) (as : List Action) :
    callTimes (.call (.tick nowMs) :: as) = nowMs :: callTimes as := rfl

theorem mem_callTimes {as : List Action} {op : QueueOp} {nowMs : UInt64}
    (h : .call op ∈ as) (htime : op.time? = some nowMs) : nowMs ∈ callTimes as :=
  List.mem_filterMap.mpr ⟨_, h, htime⟩

namespace CommandQueue

variable {q : CommandQueue κ} {nowMs : UInt64} {Q S : UInt64 → Prop}

/-! ## Stamps -/

/-- `Q` holds of the stamps of what waits, `S` of the stamps of what is in flight. -/
structure Stamped (Q S : UInt64 → Prop) (q : CommandQueue κ) : Prop where
  queued : ∀ e ∈ q.pending, Q e.queuedAtMs
  sent : ∀ e ∈ q.inFlight, S e.sentAtMs

theorem Stamped.pump (h : q.Stamped Q S) (hnow : S nowMs) : (q.pump nowMs).1.Stamped Q S := by
  refine pump_invariant (I := Stamped Q S) h ?_
  intro q₁ ev q₂ hI hpass
  obtain ⟨e, as, bs, hpending, -, -, rfl, -⟩ := pumpPass_eq_some hpass
  refine ⟨?_, ?_⟩
  · intro f hf
    apply hI.queued f
    rw [hpending, List.mem_append, List.mem_cons]
    exact (List.mem_append.mp hf).imp_right Or.inr
  · intro f hf
    rcases List.mem_append.mp hf with hold | hnew
    · exact hI.sent f hold
    · rw [List.mem_singleton.mp hnew]
      exact hnow

theorem Stamped.resume (h : q.Stamped Q S) {resume : Option UInt64}
    (hresume : ∀ t, resume = some t → S t) : (q.resume resume).1.Stamped Q S := by
  cases resume with
  | none => exact h
  | some nowMs => exact h.pump (hresume nowMs rfl)

theorem Stamped.sublist (h : q.Stamped Q S) {pending inFlight : List (Entry κ)}
    (hp : pending.Sublist q.pending) (hf : inFlight.Sublist q.inFlight) :
    Stamped Q S { q with pending := pending, inFlight := inFlight } :=
  ⟨fun e he => h.queued e (hp.subset he), fun e he => h.sent e (hf.subset he)⟩

/-- An operation stamps with its own time only. -/
theorem Stamped.activate (h : q.Stamped Q S) {op : QueueOp}
    (hop : ∀ t, op.time? = some t → Q t ∧ S t) (done : κ) :
    (q.activate done op).queue.Stamped Q S := by
  have hactivates := q.activates done op
  generalize q.activate done op = act at hactivates ⊢
  cases hactivates with
  | refused | unknown => exact h
  | accepted id payload priority nowMs e he =>
      obtain ⟨hqueued, hsent⟩ := hop nowMs rfl
      refine Stamped.pump ⟨?_, ?_⟩ hsent
      · intro f hf
        rcases List.mem_cons.mp ((q.push_pending _).subset hf) with rfl | hf
        · rwa [he]
        · exact h.queued f hf
      · rw [push_inFlight]
        exact h.sent
  | opened nowMs =>
      have hset : Stamped Q S { q with ready := true } := ⟨h.queued, h.sent⟩
      exact hset.pump (hop nowMs rfl).2
  | shut => exact ⟨h.queued, h.sent⟩
  | answered => exact h.sublist (List.Sublist.refl _) List.eraseP_sublist
  | swept => exact h.sublist List.filter_sublist List.filter_sublist
  | canceled => exact h.sublist (List.nil_sublist _) (List.nil_sublist _)

/-- The pump an operation ends in has the operation's time. -/
theorem activate_resume_time (q : CommandQueue κ) (done : κ) (op : QueueOp) {t : UInt64}
    (h : (q.activate done op).resume = some t) : op.time? = some t := by
  have hactivates := q.activates done op
  generalize q.activate done op = act at hactivates h
  cases hactivates with
  | refused | accepted | opened | shut | unknown => simp at h
  | answered => exact h
  | swept => exact h
  | canceled => simp [cancelAll] at h

/-- The pump stamps what it writes. -/
theorem pump_wrote_sent (q : CommandQueue κ) (nowMs : UInt64) :
    ∀ e q', .wrote e q' ∈ (q.pump nowMs).2 → e.sentAtMs = nowMs := by
  have hevents : ∀ ev ∈ (q.pump nowMs).2, ∀ e q', ev = .wrote e q' → e.sentAtMs = nowMs := by
    refine pump_events (I := fun _ => True) trivial ?_
    intro q₁ ev q₂ _ hpass
    obtain ⟨e, as, bs, -, -, -, -, rfl⟩ := pumpPass_eq_some hpass
    refine ⟨trivial, ?_⟩
    intro e' q' heq
    rw [← (QueueEvent.wrote.inj heq).1]
    rfl
  exact fun e q' hev => hevents _ hev e q' rfl

/-- So an operation stamps what it writes with its own time. -/
theorem run_wrote_sent (q : CommandQueue κ) (done : κ) (op : QueueOp) {e : Entry κ}
    {q' : CommandQueue κ} (h : .wrote e q' ∈ (q.activate done op).run.2) :
    op.time? = some e.sentAtMs := by
  rw [Activation.run] at h
  simp only [List.mem_append, List.mem_map, reduceCtorEq, and_false, exists_false,
    or_false] at h
  rcases h with hevent | hresumed
  · have hactivates := q.activates done op
    generalize q.activate done op = act at hactivates hevent
    cases hactivates with
    | accepted id payload priority nowMs e' =>
        simp only [List.mem_cons, reduceCtorEq, false_or] at hevent
        rw [pump_wrote_sent _ nowMs e q' hevent]
        rfl
    | opened nowMs =>
        rw [pump_wrote_sent _ nowMs e q' hevent]
        rfl
    | refused => simp at hevent
    | shut | unknown | answered | swept | canceled => exact absurd hevent List.not_mem_nil
  · cases hresume : (q.activate done op).resume with
    | none => simp [hresume, CommandQueue.resume] at hresumed
    | some nowMs =>
        rw [hresume] at hresumed
        rw [pump_wrote_sent _ nowMs e q' hresumed]
        exact activate_resume_time q done op hresume

/-! ## Deadlines -/

/-- The deadline of a command in flight has passed; times are natural numbers here. -/
def writeDue (q : CommandQueue κ) (nowMs : UInt64) (e : Entry κ) : Bool :=
  decide (e.sentAtMs.toNat + q.opts.writeTimeoutMs.toNat ≤ nowMs.toNat)

/-- The deadline of a pending command has passed; there may be none. -/
def queueDue (q : CommandQueue κ) (nowMs : UInt64) (e : Entry κ) : Bool :=
  q.opts.queueTimeoutMs != 0 &&
    decide (e.queuedAtMs.toNat + q.opts.queueTimeoutMs.toNat ≤ nowMs.toNat)

/-- Where the stamp is not later than the time, the machine's comparison is the one
of natural numbers. -/
theorem le_sub_iff {timeout : UInt32} {stamp nowMs : UInt64} (h : stamp ≤ nowMs) :
    timeout.toUInt64 ≤ nowMs - stamp ↔ stamp.toNat + timeout.toNat ≤ nowMs.toNat := by
  have hle := UInt64.le_iff_toNat_le.mp h
  rw [UInt64.le_iff_toNat_le, UInt64.toNat_sub_of_le _ _ h, UInt32.toNat_toUInt64]
  omega

theorem writeExpired_eq {e : Entry κ} (h : e.sentAtMs ≤ nowMs) :
    q.writeExpired nowMs e = q.writeDue nowMs e :=
  decide_eq_decide.mpr (le_sub_iff h)

theorem queueExpired_eq {e : Entry κ} (h : e.queuedAtMs ≤ nowMs) :
    q.queueExpired nowMs e = q.queueDue nowMs e := by
  rw [queueExpired, queueDue, decide_eq_decide.mpr (le_sub_iff h)]

/-- The calls among some that complete a command as timed out. -/
def timedOuts (cs : List (Call κ)) : List (Call κ) :=
  cs.filter fun c => c.outcome == .timedOut

@[simp] theorem timedOuts_append (cs ds : List (Call κ)) :
    timedOuts (cs ++ ds) = timedOuts cs ++ timedOuts ds :=
  List.filter_append ..

/-- What `tick` reports is timeouts. -/
theorem tick_timedOuts (q : CommandQueue κ) (nowMs : UInt64) :
    timedOuts (q.tick nowMs).calls = (q.tick nowMs).calls := by
  rw [timedOuts, List.filter_eq_self]
  intro c hc
  obtain ⟨e, -, rfl⟩ := List.mem_map.mp hc
  rfl

/-- Only `tick` times commands out. -/
theorem activate_timedOuts (q : CommandQueue κ) (done : κ) {op : QueueOp}
    (hop : ∀ t, op ≠ .tick t) : timedOuts (q.activate done op).calls = [] := by
  rw [timedOuts, List.filter_eq_nil_iff]
  have hactivates := q.activates done op
  generalize q.activate done op = act at hactivates ⊢
  cases hactivates with
  | refused | accepted | opened | shut | unknown | answered => simp
  | swept nowMs => exact absurd rfl (hop nowMs)
  | canceled =>
      intro c hc
      obtain ⟨e, -, rfl⟩ := List.mem_map.mp hc
      simp

end CommandQueue

namespace Machine

open CommandQueue

/-! ## Stamps over a run -/

/-- The stamps of the queue, and the times of the pumps that some frames have still to
make. -/
structure OnTime (Q S : UInt64 → Prop) (fs : List Frame) (q : CommandQueue Ticket) :
    Prop where
  stamped : q.Stamped Q S
  pumps : ∀ f ∈ fs, ∀ t, f.resume = some t → S t

variable {Q S : UInt64 → Prop}

theorem OnTime.mono {Q' S' : UInt64 → Prop} {fs : List Frame} {q : CommandQueue Ticket}
    (h : OnTime Q S fs q) (hQ : ∀ t, Q t → Q' t) (hS : ∀ t, S t → S' t) :
    OnTime Q' S' fs q :=
  ⟨⟨fun e he => hQ _ (h.stamped.queued e he), fun e he => hS _ (h.stamped.sent e he)⟩,
    fun f hf t ht => hS _ (h.pumps f hf t ht)⟩

theorem OnTime.begin {m : Machine} {fs : List Frame} (h : OnTime Q S fs m.queue)
    {op : QueueOp} (hop : ∀ t, op.time? = some t → Q t ∧ S t) :
    OnTime Q S (m.frame op :: fs) (m.begin op).queue := by
  refine ⟨h.stamped.activate hop m.issued, ?_⟩
  rw [List.forall_mem_cons]
  exact ⟨fun t ht => (hop t (activate_resume_time m.queue m.issued op ht)).2, h.pumps⟩

theorem OnTime.callback {c : Call Ticket} {cs : List (Call Ticket)}
    {resume : Option UInt64} {result : Bool} {fs : List Frame} {q : CommandQueue Ticket}
    (h : OnTime Q S (⟨c :: cs, resume, result⟩ :: fs) q) :
    OnTime Q S (⟨cs, resume, result⟩ :: fs) q := by
  refine ⟨h.stamped, ?_⟩
  have hpumps := h.pumps
  rw [List.forall_mem_cons] at hpumps ⊢
  exact hpumps

theorem OnTime.resume {resume : Option UInt64} {result : Bool} {fs : List Frame}
    {q : CommandQueue Ticket} (h : OnTime Q S (⟨[], resume, result⟩ :: fs) q) :
    OnTime Q S fs (q.resume resume).1 :=
  ⟨h.stamped.resume (h.pumps _ List.mem_cons_self),
    fun f hf => h.pumps f (List.mem_cons_of_mem _ hf)⟩

theorem OnTime.proceed {m m' : Machine} (h : OnTime Q S m.stack m.queue)
    (hstep : m.proceed = some m') : OnTime Q S m'.stack m'.queue := by
  rcases proceed_eq_some hstep with
    ⟨c, cs, resume, result, fs, hstack, rfl⟩ | ⟨resume, result, fs, hstack, rfl⟩
  · rw [hstack] at h
    exact h.callback
  · rw [hstack] at h
    exact h.resume

/-- Every stamp is the time of a call. -/
theorem onTime {opts : CommandQueueOptions} {as : List Action} {m : Machine}
    (h : lts.Run { queue := { opts := opts } } as m) :
    OnTime (· ∈ callTimes as) (· ∈ callTimes as) m.stack m.queue := by
  refine h.history (I := fun as m =>
    OnTime (· ∈ callTimes as) (· ∈ callTimes as) m.stack m.queue) ?_ ?_
  · exact ⟨⟨by simp, by simp⟩, by simp⟩
  · intro as m a m' hI hstep
    have hgrown : OnTime (· ∈ callTimes (as ++ [a])) (· ∈ callTimes (as ++ [a]))
        m.stack m.queue := by
      rw [callTimes_append]
      exact hI.mono (fun t ht => List.mem_append_left _ ht) fun t ht => List.mem_append_left _ ht
    cases a with
    | call op =>
        refine (hgrown.begin ?_).proceed hstep
        intro t ht
        have hmem : t ∈ callTimes (as ++ [.call op]) := mem_callTimes (by simp) ht
        exact ⟨hmem, hmem⟩
    | ret => exact hgrown.proceed hstep

/-! ## Up to the first callback -/

/-- What `tick` does to the commands outstanding, up to its first callback. -/
structure Punctual (m : Machine) (nowMs : UInt64) : Prop where
  /-- No subtraction wraps. -/
  sent_le : ∀ e ∈ m.queue.inFlight, e.sentAtMs ≤ nowMs
  queued_le : ∀ e ∈ m.queue.pending, e.queuedAtMs ≤ nowMs
  /-- The write deadline is that of written commands. -/
  written : ∀ e ∈ m.queue.inFlight, ∃ q, LogEntry.did (.wrote e q) ∈ m.log
  /-- The queue deadline is that of commands not written. -/
  unwritten : ∀ e ∈ m.queue.pending, ∀ f q, LogEntry.did (.wrote f q) ∈ m.log →
    f.done ≠ e.done
  /-- The callbacks are those of the commands that are due. -/
  calls : (m.frame (.tick nowMs)).calls =
    (m.queue.inFlight.filter (m.queue.writeDue nowMs) ++
      m.queue.pending.filter (m.queue.queueDue nowMs)).map fun e => ⟨e.done, .timedOut, []⟩
  /-- The others are where they were. -/
  inFlight : (m.begin (.tick nowMs)).queue.inFlight =
    m.queue.inFlight.filter fun e => !m.queue.writeDue nowMs e
  pending : (m.begin (.tick nowMs)).queue.pending =
    m.queue.pending.filter fun e => !m.queue.queueDue nowMs e

theorem punctual {opts : CommandQueueOptions} {as : List Action} {m : Machine}
    {nowMs : UInt64} (hrun : lts.Run { queue := { opts := opts } } as m)
    (htimes : ∀ t ∈ callTimes as, t ≤ nowMs) : m.Punctual nowMs := by
  have hstamped := (onTime hrun).stamped
  have hreach : lts.Reachable m := ⟨_, as, ⟨opts, rfl⟩, hrun⟩
  have hsent : ∀ e ∈ m.queue.inFlight, e.sentAtMs ≤ nowMs :=
    fun e he => htimes _ (hstamped.sent e he)
  have hqueued : ∀ e ∈ m.queue.pending, e.queuedAtMs ≤ nowMs :=
    fun e he => htimes _ (hstamped.queued e he)
  have hwrite : ∀ e ∈ m.queue.inFlight,
      m.queue.writeExpired nowMs e = m.queue.writeDue nowMs e :=
    fun e he => writeExpired_eq (hsent e he)
  have hqueue : ∀ e ∈ m.queue.pending,
      m.queue.queueExpired nowMs e = m.queue.queueDue nowMs e :=
    fun e he => queueExpired_eq (hqueued e he)
  refine ⟨hsent, hqueued, ?_, ?_, ?_, ?_, ?_⟩
  · intro e he
    obtain ⟨q, hwrote⟩ := (ledger hreach).written e he
    exact ⟨q, mem_eventsOf.mp hwrote⟩
  · intro e he f q hwrote
    exact not_written_of_pending hreach he hwrote
  · rw [← List.filter_congr hwrite, ← List.filter_congr hqueue]
    rfl
  · exact List.filter_congr fun e he => by rw [hwrite e he]
  · exact List.filter_congr fun e he => by rw [hqueue e he]

/-! ## Up to the return -/

/-- The callbacks `due` that a call is to make, by the log since the call.  What is not
in the log yet waits in the frames above the call. -/
structure Reported (due : List (Call Ticket)) (alone : Prop) (new : List LogEntry)
    (fs : List Frame) : Prop where
  made : ∀ c ∈ due, LogEntry.did (.completed c) ∈ new ∨ c ∈ fs.flatMap Frame.calls
  /-- If no one else ticks the queue, no other timeout is reported. -/
  only : alone →
    timedOuts (completions (eventsOf new)) ++ timedOuts (fs.flatMap Frame.calls) = due

theorem Reported.begin {due : List (Call Ticket)} {alone : Prop} {new : List LogEntry}
    {fs : List Frame} (h : Reported due alone new fs) (m : Machine) {op : QueueOp}
    (hop : alone → ∀ t, op ≠ .tick t) :
    Reported due alone
      (new ++ (.called m.issued op :: (m.queue.activate m.issued op).events.map .did))
      (m.frame op :: fs) := by
  constructor
  · intro c hc
    refine (h.made c hc).imp (fun h => List.mem_append_left _ h) fun h => ?_
    rw [List.flatMap_cons]
    exact List.mem_append_right _ h
  · intro halone
    have hsilent : timedOuts (m.frame op).calls = [] :=
      activate_timedOuts m.queue m.issued (hop halone)
    have hcomp := (activate_conserves m.queue m.issued op).2.2
    rw [eventsOf_append, eventsOf_called, eventsOf_map_did, completions_append, hcomp,
      List.append_nil, List.flatMap_cons, timedOuts_append (m.frame op).calls, hsilent,
      List.nil_append]
    exact h.only halone

theorem Reported.callback {due : List (Call Ticket)} {alone : Prop} {new : List LogEntry}
    {fs : List Frame} {c : Call Ticket} {cs : List (Call Ticket)} {resume : Option UInt64}
    {result : Bool} (h : Reported due alone new (⟨c :: cs, resume, result⟩ :: fs)) :
    Reported due alone (new ++ [.did (.completed c)]) (⟨cs, resume, result⟩ :: fs) := by
  constructor
  · intro c' hc'
    rcases h.made c' hc' with hlogged | hwaits
    · exact Or.inl (List.mem_append_left _ hlogged)
    · rw [List.flatMap_cons, List.cons_append, List.mem_cons] at hwaits
      rcases hwaits with rfl | hwaits
      · exact Or.inl (by simp)
      · exact Or.inr (by rwa [List.flatMap_cons])
  · intro halone
    have hcomp : completions [QueueEvent.completed c] = [c] := rfl
    rw [eventsOf_append, eventsOf_completed, completions_append, hcomp, timedOuts_append,
      List.append_assoc, ← timedOuts_append, List.flatMap_cons, ← h.only halone,
      List.flatMap_cons]
    rfl

theorem Reported.resume {due : List (Call Ticket)} {alone : Prop} {new : List LogEntry}
    {fs : List Frame} {resume : Option UInt64} {result : Bool}
    (h : Reported due alone new (⟨[], resume, result⟩ :: fs)) (q : CommandQueue Ticket) :
    Reported due alone (new ++ ((q.resume resume).2.map .did ++ [.returned result])) fs := by
  obtain ⟨-, -, hcomp⟩ := onlyWrites_reads (resume_wrote q resume)
  constructor
  · intro c hc
    refine (h.made c hc).imp (fun h => List.mem_append_left _ h) fun h => ?_
    rwa [List.flatMap_cons, List.nil_append] at h
  · intro halone
    rw [eventsOf_append, eventsOf_append, eventsOf_map_did, eventsOf_returned,
      List.append_nil, completions_append, hcomp, List.append_nil]
    exact h.only halone

/-- The log from a tick's call to its return.  Its callbacks are all made; unless they
tick the queue themselves, they are the only ones that report a timeout. -/
theorem Returns.tick_log {m m' : Machine} {nowMs : UInt64} {as : List Action}
    (h : m.Returns (.tick nowMs) as m') :
    ∃ new, m'.log = m.log ++ new ∧
      (∀ c ∈ (m.frame (.tick nowMs)).calls, LogEntry.did (.completed c) ∈ new) ∧
      ((∀ t, .call (.tick t) ∉ as) →
        timedOuts (completions (eventsOf new)) = (m.frame (.tick nowMs)).calls) := by
  have hrule := h.rule (I := fun fs s => ∃ new, s.log = m.log ++ new ∧
    Reported (m.frame (.tick nowMs)).calls (∀ t, .call (.tick t) ∉ as) new fs) ?_ ?_ ?_ ?_
  · obtain ⟨new, hnew, hreported⟩ := hrule
    refine ⟨new, hnew, ?_, ?_⟩
    · intro c hc
      exact (hreported.made c hc).resolve_right List.not_mem_nil
    · intro halone
      simpa [timedOuts] using hreported.only halone
  · refine ⟨[.called m.issued (.tick nowMs)], rfl, ?_, ?_⟩
    · intro c hc
      exact Or.inr (by simpa using hc)
    · intro _
      rw [List.flatMap_singleton]
      exact m.queue.tick_timedOuts nowMs
  · rintro f fs s op' hop hstack ⟨new, hnew, hreported⟩
    refine ⟨_, by rw [Machine.begin, hnew, List.append_assoc], hreported.begin s ?_⟩
    rintro halone t rfl
    exact halone t hop
  · rintro c cs resume result fs s hstack ⟨new, hnew, hreported⟩
    exact ⟨_, by rw [hnew, List.append_assoc], hreported.callback⟩
  · rintro resume result fs s hstack ⟨new, hnew, hreported⟩
    exact ⟨_, by rw [hnew, List.append_assoc], hreported.resume s.queue⟩

/-- A submission keeps its id, payload and priority for as long as it is outstanding. -/
theorem Returns.same_command {m m' : Machine} {op : QueueOp} {as : List Action}
    {t : Ticket} {k : CorrelationId × Bytes × Priority} (h : m.Returns op as m')
    (ht : t < m.issued)
    (hk : ∀ e ∈ (m.begin op).queue.outstanding, e.done = t → (e.id, e.payload, e.priority) = k) :
    ∀ e ∈ m'.queue.outstanding, e.done = t → (e.id, e.payload, e.priority) = k := by
  have hboth := h.rule (I := fun _ s => t < s.issued ∧
    ∀ e ∈ s.queue.outstanding, e.done = t → (e.id, e.payload, e.priority) = k) ?_ ?_ ?_ ?_
  · exact hboth.2
  · exact ⟨Nat.lt_succ_of_lt ht, hk⟩
  · rintro f fs s op' - - ⟨hlt, hI⟩
    refine ⟨Nat.lt_succ_of_lt hlt, ?_⟩
    intro e he hdone
    have hmem := List.mem_map_of_mem
      (f := fun e : Entry Ticket => (e.done, e.id, e.payload, e.priority)) he
    rcases activate_outstanding (fun _ _ => rfl) s.queue s.issued op' _ hmem with
      hold | ⟨id, payload, priority, nowMs, -, hnew⟩
    · obtain ⟨e', he', heq⟩ := List.mem_map.mp hold
      simp only [Prod.mk.injEq] at heq
      obtain ⟨hdone', hid, hpayload, hprio⟩ := heq
      rw [← hid, ← hpayload, ← hprio]
      exact hI e' he' (hdone'.trans hdone)
    · simp only [Prod.mk.injEq] at hnew
      exact absurd (hdone.symm.trans hnew.1) (Nat.ne_of_lt hlt)
  · rintro c cs resume result fs s - ⟨hlt, hI⟩
    exact ⟨hlt, hI⟩
  · rintro resume result fs s - ⟨hlt, hI⟩
    refine ⟨hlt, ?_⟩
    intro e he hdone
    have hmem := List.mem_map_of_mem
      (f := fun e : Entry Ticket => (e.done, e.id, e.payload, e.priority)) he
    replace hmem := (resume_outstanding (fun _ _ => rfl) s.queue resume).subset hmem
    obtain ⟨e', he', heq⟩ := List.mem_map.mp hmem
    simp only [Prod.mk.injEq] at heq
    obtain ⟨hdone', hid, hpayload, hprio⟩ := heq
    rw [← hid, ← hpayload, ← hprio]
    exact hI e' he' (hdone'.trans hdone)

/-- A tick whose callbacks leave the queue alone ends in the pump of what it has
swept. -/
theorem Returns.tick_queue {m m' : Machine} {nowMs : UInt64} {as : List Action}
    (h : m.Returns (.tick nowMs) as m') (halone : ∀ a ∈ as, a = .ret) :
    m'.queue = ((m.begin (.tick nowMs)).queue.pump nowMs).1 := by
  have hrule := h.rule (I := fun fs s =>
    (∃ cs result, fs = [⟨cs, some nowMs, result⟩] ∧
      s.queue = (m.begin (.tick nowMs)).queue) ∨
    (fs = [] ∧ s.queue = ((m.begin (.tick nowMs)).queue.pump nowMs).1)) ?_ ?_ ?_ ?_
  · rcases hrule with ⟨cs, result, hfs, -⟩ | ⟨-, hqueue⟩
    · simp at hfs
    · exact hqueue
  · exact Or.inl ⟨_, _, rfl, rfl⟩
  · intro f fs s op' hop
    exact absurd (halone _ hop) (by simp)
  · rintro c cs resume result fs s - (⟨cs', result', hfs, hqueue⟩ | ⟨hfs, -⟩)
    · simp only [List.cons.injEq, Frame.mk.injEq] at hfs
      obtain ⟨⟨-, rfl, -⟩, rfl⟩ := hfs
      exact Or.inl ⟨cs, result, rfl, hqueue⟩
    · simp at hfs
  · rintro resume result fs s - (⟨cs', result', hfs, hqueue⟩ | ⟨hfs, -⟩)
    · simp only [List.cons.injEq, Frame.mk.injEq] at hfs
      obtain ⟨⟨-, rfl, -⟩, rfl⟩ := hfs
      exact Or.inr ⟨rfl, by rw [← hqueue]; rfl⟩
    · simp at hfs

theorem proceed_opts {m m' : Machine} (h : m.proceed = some m') :
    m'.queue.opts = m.queue.opts := by
  rcases proceed_eq_some h with
    ⟨c, cs, resume, result, fs, -, rfl⟩ | ⟨resume, result, fs, -, rfl⟩
  · rfl
  · exact resume_opts m.queue resume

theorem step_opts {m m' : Machine} {a : Action} (h : m.step a = some m') :
    m'.queue.opts = m.queue.opts := by
  cases a with
  | call op => exact (proceed_opts h).trans (m.queue.activate_opts m.issued op)
  | ret => exact proceed_opts h

/-- What a tick leaves outstanding was not due. -/
theorem Punctual.onTime {m : Machine} {nowMs : UInt64} (h : m.Punctual nowMs)
    (hnow : nowMs.toNat < nowMs.toNat + m.queue.opts.writeTimeoutMs.toNat) :
    OnTime
      (fun t => m.queue.opts.queueTimeoutMs ≠ 0 →
        nowMs.toNat < t.toNat + m.queue.opts.queueTimeoutMs.toNat)
      (fun t => nowMs.toNat < t.toNat + m.queue.opts.writeTimeoutMs.toNat)
      [m.frame (.tick nowMs)] (m.begin (.tick nowMs)).queue := by
  refine ⟨⟨?_, ?_⟩, ?_⟩
  · intro e he hne
    rw [h.pending, List.mem_filter] at he
    have hnot := he.2
    simp only [queueDue, Bool.not_and, Bool.or_eq_true, Bool.not_eq_true',
      decide_eq_false_iff_not, Nat.not_le] at hnot
    exact hnot.resolve_left (by simpa using hne)
  · intro e he
    rw [h.inFlight, List.mem_filter] at he
    have hnot := he.2
    simpa only [writeDue, Bool.not_eq_true', decide_eq_false_iff_not, Nat.not_le] using hnot
  · intro f hf t ht
    rw [List.mem_singleton.mp hf] at ht
    have hsame : nowMs = t := Option.some.inj ht
    exact hsame ▸ hnow

/-- With a write deadline, and calls that are not earlier than the tick, nothing that is
outstanding at the return was due at the tick. -/
theorem Returns.tick_late {m m' : Machine} {nowMs : UInt64} {as : List Action}
    (h : m.Returns (.tick nowMs) as m') (hpunctual : m.Punctual nowMs)
    (htimes : ∀ t ∈ callTimes as, nowMs ≤ t) (htimeout : 0 < m.queue.opts.writeTimeoutMs) :
    (∀ e ∈ m'.queue.inFlight, m'.queue.writeDue nowMs e = false) ∧
    ∀ e ∈ m'.queue.pending, m'.queue.queueDue nowMs e = false := by
  let opts := m.queue.opts
  let S : UInt64 → Prop := fun t => nowMs.toNat < t.toNat + opts.writeTimeoutMs.toNat
  let Q : UInt64 → Prop := fun t =>
    opts.queueTimeoutMs ≠ 0 → nowMs.toNat < t.toNat + opts.queueTimeoutMs.toNat
  have hlater : ∀ t, nowMs ≤ t → Q t ∧ S t := by
    intro t ht
    have hle := UInt64.le_iff_toNat_le.mp ht
    have hpos : 0 < opts.writeTimeoutMs.toNat := UInt32.lt_iff_toNat_lt.mp htimeout
    refine ⟨fun hne => ?_, show _ < _ by omega⟩
    have hpos' : 0 < opts.queueTimeoutMs.toNat := by
      rw [Nat.pos_iff_ne_zero]
      exact fun hzero => hne (UInt32.toNat_inj.mp hzero)
    omega
  have hrule := h.rule (I := fun fs s => OnTime Q S fs s.queue ∧ s.queue.opts = opts) ?_ ?_ ?_ ?_
  · obtain ⟨⟨⟨hqueued, hsent⟩, -⟩, hopts⟩ := hrule
    refine ⟨fun e he => ?_, fun e he => ?_⟩
    · rw [writeDue, hopts]
      exact decide_eq_false (Nat.not_le_of_lt (hsent e he))
    · rw [queueDue, hopts]
      by_cases hzero : opts.queueTimeoutMs = 0
      · simp [hzero]
      · rw [Bool.and_eq_false_iff]
        exact Or.inr (decide_eq_false (Nat.not_le_of_lt (hqueued e he hzero)))
  · have hnow := (hlater nowMs (UInt64.le_refl nowMs)).2
    exact ⟨hpunctual.onTime hnow, m.queue.activate_opts m.issued _⟩
  · rintro f fs s op' hop - ⟨hI, hopts⟩
    refine ⟨hI.begin fun t ht => hlater t (htimes t (mem_callTimes hop ht)), ?_⟩
    exact (s.queue.activate_opts s.issued op').trans hopts
  · rintro c cs resume result fs s - ⟨hI, hopts⟩
    exact ⟨hI.callback, hopts⟩
  · rintro resume result fs s - ⟨hI, hopts⟩
    exact ⟨hI.resume, (resume_opts _ _).trans hopts⟩

/-- What has become of the commands outstanding when `tick` returns; `new` is what was
logged in between. -/
structure TickReturned (m : Machine) (nowMs : UInt64) (as : List Action)
    (new : List LogEntry) (m' : Machine) : Prop where
  /-- Every due command has completed. -/
  completed : ∀ c ∈ (m.frame (.tick nowMs)).calls, LogEntry.did (.completed c) ∈ new
  /-- Unless a callback ticks the queue, nothing else has timed out. -/
  only : (∀ t, .call (.tick t) ∉ as) →
    timedOuts (completions (eventsOf new)) = (m.frame (.tick nowMs)).calls
  /-- Every other command is outstanding and the same, unless a callback has had it
  completed. -/
  kept : ∀ e ∈ (m.begin (.tick nowMs)).queue.outstanding,
    (∃ f ∈ m'.queue.outstanding, f.done = e.done ∧
      (f.id, f.payload, f.priority) = (e.id, e.payload, e.priority)) ∨
    ∃ c, LogEntry.did (.completed c) ∈ new ∧ c.done = e.done ∧
      c ∉ (m.frame (.tick nowMs)).calls
  /-- If the callbacks leave the queue alone, the others are where they were, or have
  been written by the pump. -/
  alone : (∀ a ∈ as, a = .ret) →
    (∀ e ∈ (m.begin (.tick nowMs)).queue.inFlight, e ∈ m'.queue.inFlight) ∧
    ∀ e ∈ (m.begin (.tick nowMs)).queue.pending,
      e ∈ m'.queue.pending ∨ e.sent nowMs ∈ m'.queue.inFlight

/-- The commands a tick completes are not among those it leaves outstanding. -/
theorem tick_disjoint {m : Machine} (h : lts.Reachable m) (nowMs : UInt64) {t : Ticket}
    (ht : t ∈ (m.begin (.tick nowMs)).queue.dones) :
    ∀ c ∈ (m.frame (.tick nowMs)).calls, c.done ≠ t := by
  intro c hc hct
  have hledger := (ledger h).begin (.tick nowMs)
  refine hledger.not_waiting ht (List.mem_map.mpr ⟨c, List.mem_filter.mpr ⟨?_, ?_⟩, hct⟩)
  · exact List.mem_append_left _ hc
  · obtain ⟨e, -, rfl⟩ := List.mem_map.mp hc
    rfl

theorem Returns.tick {m m' : Machine} {nowMs : UInt64} {as : List Action}
    (h : m.Returns (.tick nowMs) as m') (hm : lts.Reachable m) :
    ∃ new, m'.log = m.log ++ new ∧ m.TickReturned nowMs as new m' := by
  obtain ⟨new, hnew, hcompleted, hexact⟩ := h.tick_log
  refine ⟨new, hnew, hcompleted, hexact, ?_, ?_⟩
  · intro e he
    have hbegun := (ledger hm).begin (.tick nowMs)
    have hdone : e.done ∈ (m.begin (.tick nowMs)).queue.dones := List.mem_map_of_mem he
    have hbefore : e.done ∈ m.queue.dones :=
      ((List.filter_sublist.append List.filter_sublist).map Entry.done).subset hdone
    rcases h.kept_or_completed hm hnew hbefore with hout | ⟨c, hc, hcdone⟩
    · obtain ⟨f, hf, hfdone⟩ := List.mem_map.mp hout
      refine Or.inl ⟨f, hf, hfdone, ?_⟩
      refine h.same_command ((ledger hm).lt_issued hbefore) ?_ f hf hfdone
      intro e' he' hdone'
      rw [List.inj_on_of_nodup_map hbegun.dones_nodup he' he hdone']
    · refine Or.inr ⟨c, hc, hcdone, ?_⟩
      exact fun hcall => tick_disjoint hm nowMs hdone c hcall hcdone
  · intro halone
    rw [h.tick_queue halone]
    exact ⟨pump_keeps_inFlight _ nowMs, pump_keeps_pending _ nowMs⟩

/-- Timeouts hit exactly the commands that are due, over every run whose calls carry
nondecreasing times, callbacks that call the queue again included.  At every tick no
subtraction wraps; the callbacks to be made are those of the written commands whose
write deadline has passed and of the unwritten ones whose queue deadline has, and the
others are untouched; when the tick returns the callbacks have been made and the
others are as `TickReturned` says; and with a write deadline nothing that is
outstanding then was due. -/
theorem timeouts_hit_exactly_the_due {opts : CommandQueueOptions} {as : List Action}
    {m : Machine} {nowMs : UInt64} (hrun : lts.Run { queue := { opts := opts } } as m)
    (htimes : (callTimes (as ++ [.call (.tick nowMs)])).Pairwise (· ≤ ·)) :
    m.Punctual nowMs ∧
    ∀ as' m', m.Returns (.tick nowMs) as' m' →
      (∃ new, m'.log = m.log ++ new ∧ m.TickReturned nowMs as' new m') ∧
      ((callTimes (as ++ .call (.tick nowMs) :: as')).Pairwise (· ≤ ·) →
        0 < opts.writeTimeoutMs →
        (∀ e ∈ m'.queue.inFlight, m'.queue.writeDue nowMs e = false) ∧
        ∀ e ∈ m'.queue.pending, m'.queue.queueDue nowMs e = false) := by
  have hreach : lts.Reachable m := ⟨_, as, ⟨opts, rfl⟩, hrun⟩
  rw [callTimes_append, List.pairwise_append] at htimes
  have hpunctual : m.Punctual nowMs :=
    punctual hrun fun t ht => htimes.2.2 t ht nowMs (List.mem_singleton_self _)
  refine ⟨hpunctual, fun as' m' hreturns => ⟨hreturns.tick hreach, ?_⟩⟩
  intro htimes' htimeout
  have hopts : m.queue.opts = opts := by
    refine hrun.invariant (I := fun m => m.queue.opts = opts) rfl ?_
    exact fun s a s' hopts hstep => (step_opts hstep).trans hopts
  rw [callTimes_append, callTimes_tick, List.pairwise_append, List.pairwise_cons] at htimes'
  exact hreturns.tick_late hpunctual htimes'.2.1.1 (hopts ▸ htimeout)

/-- At 60 the write deadline of the first command has passed and the second has waited
too long behind it; the third is written by the tick itself. -/
def dueRun : List Action :=
  [.call (.setReady true 0), .call (.submit 1 [1, 1] .queued 10),
    .call (.submit 2 [1, 2] .queued 20), .call (.submit 3 [1, 3] .queued 45)]

theorem timeouts_hit_exactly_the_due_tick :
    ∃ m m₁ m₂ m', lts.Run { queue := { opts := ⟨50, 40⟩ } } dueRun m ∧
      m.step (.call (.tick 60)) = some m₁ ∧ m₁.step .ret = some m₂ ∧
      m₂.step .ret = some m' ∧
      (m.frame (.tick 60)).calls = [⟨1, .timedOut, []⟩, ⟨2, .timedOut, []⟩] ∧
      (∀ e ∈ m'.queue.inFlight, m'.queue.writeDue 60 e = false) := by
  obtain ⟨m, m₁, m₂, m', hm, hcall, hdeeper, hret, hdeeper', hret', hstack, hcalls⟩ :
      ∃ m m₁ m₂ m', Lts.exec step { queue := { opts := ⟨50, 40⟩ } } dueRun = some m ∧
      m.step (.call (.tick 60)) = some m₁ ∧ m.stack.length < m₁.stack.length ∧
      m₁.step .ret = some m₂ ∧ m.stack.length < m₂.stack.length ∧
      m₂.step .ret = some m' ∧ m'.stack = m.stack ∧
      (m.frame (.tick 60)).calls = [⟨1, .timedOut, []⟩, ⟨2, .timedOut, []⟩] :=
    ⟨_, _, _, _, rfl, rfl, by decide, rfl, by decide, rfl, rfl, rfl⟩
  have hrun : lts.Run { queue := { opts := ⟨50, 40⟩ } } dueRun m := Lts.run_of_exec hm
  have hreturns : m.Returns (.tick 60) [.ret, .ret] m' :=
    ⟨m₁, hcall, .cons ⟨hret, hdeeper⟩ (.cons ⟨hret', hdeeper'⟩ (.nil m')), hstack⟩
  have htimes : (callTimes (dueRun ++ [.call (.tick 60)])).Pairwise (· ≤ ·) := by decide
  have hexact := (timeouts_hit_exactly_the_due hrun htimes).2 _ _ hreturns
  exact ⟨m, m₁, m₂, m', hrun, hcall, hret, hret', hcalls,
    (hexact.2 (by decide) (by decide)).1⟩

end Machine

end GoproNative
