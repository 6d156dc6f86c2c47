import Mathlib.Data.List.Infix
import GoproNative.Queue.Deadlines

/-!
# Every command completes in time

The owner ticks the queue; between two ticks nothing times out.  A command that waits was
not overdue at the last tick, and one in flight was then not overdue either, or was still
waiting.  So where a queue deadline is set and no call comes later after the last tick than
some slack, no command stays outstanding longer than the two deadlines and twice the slack:
it has been answered, canceled or timed out.
-/

namespace GoproNative

variable {κ : Type}

def Action.tickTime? : Action → Option UInt64
  | .call (.tick nowMs) => some nowMs
  | _ => none

/-- The time of the last tick, or of the beginning. -/
def lastTick (t₀ : UInt64) (as : List Action) : UInt64 :=
  (as.filterMap Action.tickTime?).getLast?.getD t₀

/-- The time of the last call, or of the beginning. -/
def latest (t₀ : UInt64) (as : List Action) : UInt64 := (callTimes as).getLast?.getD t₀

/-- No call comes later after the last tick than the slack. -/
def Ticking (t₀ : UInt64) (slack : Nat) (as : List Action) : Prop :=
  ∀ before after, as = before ++ after →
    (latest t₀ before).toNat ≤ (lastTick t₀ before).toNat + slack

instance (t₀ : UInt64) (slack : Nat) (as : List Action) : Decidable (Ticking t₀ slack as) :=
  decidable_of_iff (∀ before ∈ as.inits,
    (latest t₀ before).toNat ≤ (lastTick t₀ before).toNat + slack)
    ⟨fun h before after heq => h before ((List.mem_inits _ _).mpr ⟨after, heq.symm⟩),
      fun h before hbefore => by
        obtain ⟨after, heq⟩ := (List.mem_inits _ _).mp hbefore
        exact h before after heq.symm⟩

theorem Ticking.front {t₀ : UInt64} {slack : Nat} {as bs : List Action}
    (h : Ticking t₀ slack (as ++ bs)) : Ticking t₀ slack as := by
  rintro before after rfl
  exact h before (after ++ bs) (List.append_assoc _ _ _)

theorem Ticking.now {t₀ : UInt64} {slack : Nat} {as : List Action} (h : Ticking t₀ slack as) :
    (latest t₀ as).toNat ≤ (lastTick t₀ as).toNat + slack :=
  h as [] (List.append_nil as).symm

theorem latest_snoc {t₀ t : UInt64} {op : QueueOp} (as : List Action) (h : op.time? = some t) :
    latest t₀ (as ++ [.call op]) = t := by
  have htimes : callTimes [.call op] = [t] := by
    simp [callTimes, Action.time?, h]
  rw [latest, callTimes_append, htimes, List.getLast?_concat, Option.getD_some]

theorem lastTick_tick (t₀ t : UInt64) (as : List Action) :
    lastTick t₀ (as ++ [.call (.tick t)]) = t := by
  have htick : [Action.call (.tick t)].filterMap Action.tickTime? = [t] := rfl
  rw [lastTick, List.filterMap_append, htick, List.getLast?_concat, Option.getD_some]

theorem lastTick_other (t₀ : UInt64) {as : List Action} {a : Action} (h : a.tickTime? = none) :
    lastTick t₀ (as ++ [a]) = lastTick t₀ as := by
  rw [lastTick, List.filterMap_append, List.filterMap_cons_none h, List.filterMap_nil,
    List.append_nil, lastTick]

theorem mem_callTimes_of_tickTime {as : List Action} {t : UInt64}
    (h : t ∈ as.filterMap Action.tickTime?) : t ∈ callTimes as := by
  obtain ⟨a, ha, hat⟩ := List.mem_filterMap.mp h
  refine List.mem_filterMap.mpr ⟨a, ha, ?_⟩
  rcases a with op | -
  · cases op with
    | tick nowMs => exact hat
    | _ => simp [Action.tickTime?] at hat
  · simp [Action.tickTime?] at hat

theorem lastTick_mem (t₀ : UInt64) (as : List Action) : lastTick t₀ as ∈ t₀ :: callTimes as := by
  rw [lastTick]
  rcases hlast : (as.filterMap Action.tickTime?).getLast? with - | t
  · exact List.mem_cons_self
  · exact List.mem_cons_of_mem _ (mem_callTimes_of_tickTime (List.mem_of_getLast? hlast))

/-- In a run with nondecreasing times the last call is not earlier than another. -/
theorem le_latest {t₀ t : UInt64} {as : List Action}
    (htimes : (t₀ :: callTimes as).Pairwise (· ≤ ·)) (ht : t ∈ callTimes as) :
    t ≤ latest t₀ as := by
  obtain ⟨-, hsorted⟩ := List.pairwise_cons.mp htimes
  rw [latest]
  rcases hlast : (callTimes as).getLast? with - | last
  · rw [List.getLast?_eq_none_iff.mp hlast] at ht
    exact absurd ht List.not_mem_nil
  · obtain ⟨front, hfront⟩ := List.getLast?_eq_some_iff.mp hlast
    rw [hfront, List.mem_append, List.mem_singleton] at ht
    rw [hfront, List.pairwise_append] at hsorted
    rcases ht with ht | rfl
    · exact hsorted.2.2 t ht last (List.mem_singleton_self _)
    · exact UInt64.le_refl t

namespace CommandQueue

variable {q : CommandQueue κ} {slack L : Nat} {nowMs : UInt64}

/-- What is outstanding was not overdue at `L`, the time of the last tick, and what is in
flight was written while it was not. -/
structure Prompt (slack L : Nat) (q : CommandQueue κ) : Prop where
  waits : ∀ e ∈ q.pending, L ≤ e.queuedAtMs.toNat + q.opts.queueTimeoutMs.toNat
  written : ∀ e ∈ q.inFlight,
    e.sentAtMs.toNat ≤ e.queuedAtMs.toNat + q.opts.queueTimeoutMs.toNat + slack
  flies : ∀ e ∈ q.inFlight, L ≤ e.queuedAtMs.toNat + q.opts.queueTimeoutMs.toNat ∨
    L ≤ e.sentAtMs.toNat + q.opts.writeTimeoutMs.toNat

theorem Prompt.sublist (h : q.Prompt slack L) {pending inFlight : List (Entry κ)}
    (hp : pending.Sublist q.pending) (hf : inFlight.Sublist q.inFlight) :
    Prompt slack L { q with pending := pending, inFlight := inFlight } :=
  ⟨fun e he => h.waits e (hp.subset he), fun e he => h.written e (hf.subset he),
    fun e he => h.flies e (hf.subset he)⟩

/-- The pump writes what was not overdue at the last tick, and not long after it. -/
theorem Prompt.pump (h : q.Prompt slack L) (hnow : nowMs.toNat ≤ L + slack) :
    (q.pump nowMs).1.Prompt slack L := by
  refine pump_invariant (I := Prompt slack L) h ?_
  intro q₁ ev q₂ hI hpass
  obtain ⟨e, as, bs, hpending, -, -, rfl, -⟩ := pumpPass_eq_some hpass
  have hwaits : L ≤ e.queuedAtMs.toNat + q₁.opts.queueTimeoutMs.toNat :=
    hI.waits e (by simp [hpending])
  refine ⟨fun f hf => hI.waits f ?_, fun f hf => ?_, fun f hf => ?_⟩
  · rw [hpending, List.mem_append, List.mem_cons]
    exact (List.mem_append.mp hf).imp_right Or.inr
  · rcases List.mem_append.mp hf with hold | hnew
    · exact hI.written f hold
    · rw [List.mem_singleton.mp hnew]
      change nowMs.toNat ≤ e.queuedAtMs.toNat + q₁.opts.queueTimeoutMs.toNat + slack
      omega
  · rcases List.mem_append.mp hf with hold | hnew
    · exact hI.flies f hold
    · rw [List.mem_singleton.mp hnew]
      exact Or.inl hwaits

theorem Prompt.resume (h : q.Prompt slack L) {resume : Option UInt64}
    (hresume : ∀ t, resume = some t → t.toNat ≤ L + slack) :
    (q.resume resume).1.Prompt slack L := by
  cases resume with
  | none => exact h
  | some nowMs => exact h.pump (hresume nowMs rfl)

theorem push_opts (q : CommandQueue κ) (e : Entry κ) : (q.push e).opts = q.opts := by
  unfold push
  split <;> rfl

/-- A call between two ticks. -/
theorem Prompt.activate (h : q.Prompt slack L) {op : QueueOp} (hop : ∀ t, op ≠ .tick t)
    (htime : ∀ t, op.time? = some t → L ≤ t.toNat ∧ t.toNat ≤ L + slack) (done : κ) :
    (q.activate done op).queue.Prompt slack L := by
  have hactivates := q.activates done op
  generalize q.activate done op = act at hactivates ⊢
  cases hactivates with
  | refused | unknown => exact h
  | accepted id payload priority nowMs e he =>
      obtain ⟨hlow, hhigh⟩ := htime nowMs rfl
      refine Prompt.pump ⟨?_, ?_, ?_⟩ hhigh
      · intro f hf
        rw [push_opts]
        rcases List.mem_cons.mp ((q.push_pending e).subset hf) with rfl | hf
        · rw [he]
          exact Nat.le_add_right_of_le hlow
        · exact h.waits f hf
      · rw [push_inFlight, push_opts]
        exact h.written
      · rw [push_inFlight, push_opts]
        exact h.flies
  | opened nowMs =>
      have hset : Prompt slack L { q with ready := true } := ⟨h.waits, h.written, h.flies⟩
      exact hset.pump (htime nowMs rfl).2
  | shut => exact ⟨h.waits, h.written, h.flies⟩
  | answered => exact h.sublist (List.Sublist.refl _) List.eraseP_sublist
  | swept nowMs => exact absurd rfl (hop nowMs)
  | canceled => exact h.sublist (List.nil_sublist _) (List.nil_sublist _)

/-- After the sweep of a tick nothing is overdue. -/
theorem Prompt.tick (h : q.Prompt slack L) (hdeadline : q.opts.queueTimeoutMs ≠ 0)
    (hqueued : ∀ e ∈ q.pending, e.queuedAtMs ≤ nowMs)
    (hsent : ∀ e ∈ q.inFlight, e.sentAtMs ≤ nowMs) :
    (q.tick nowMs).queue.Prompt slack nowMs.toNat := by
  refine ⟨fun e he => ?_, fun e he => h.written e (List.mem_of_mem_filter he), fun e he => ?_⟩
  · obtain ⟨hmem, hkept⟩ := List.mem_filter.mp he
    rw [queueExpired_eq (hqueued e hmem), queueDue] at hkept
    simp only [Bool.not_and, Bool.or_eq_true, Bool.not_eq_true', bne_eq_false_iff_eq, hdeadline,
      false_or, decide_eq_false_iff_not, Nat.not_le] at hkept
    exact Nat.le_of_lt hkept
  · obtain ⟨hmem, hkept⟩ := List.mem_filter.mp he
    rw [writeExpired_eq (hsent e hmem), writeDue] at hkept
    simp only [Bool.not_eq_true', decide_eq_false_iff_not, Nat.not_le] at hkept
    exact Or.inr (Nat.le_of_lt hkept)

end CommandQueue

namespace Machine

open CommandQueue

variable {slack L : Nat} {t₀ : UInt64}

theorem Prompt.proceed {m m' : Machine} (h : m.queue.Prompt slack L)
    (hpumps : ∀ f ∈ m.stack, ∀ t, f.resume = some t → t.toNat ≤ L + slack)
    (hstep : m.proceed = some m') : m'.queue.Prompt slack L := by
  rcases proceed_eq_some hstep with
    ⟨c, cs, resume, result, fs, hstack, rfl⟩ | ⟨resume, result, fs, hstack, rfl⟩
  · exact h
  · exact h.resume fun t ht => hpumps _ (by rw [hstack]; exact List.mem_cons_self) t ht

/-- Over a run the queue stays prompt. -/
theorem prompt {opts : CommandQueueOptions} {as : List Action} {m : Machine}
    (hrun : lts.Run { queue := { opts := opts } } as m)
    (htimes : (t₀ :: callTimes as).Pairwise (· ≤ ·)) (hticks : Ticking t₀ slack as)
    (hdeadline : opts.queueTimeoutMs ≠ 0) :
    m.queue.opts = opts ∧ m.queue.Prompt slack (lastTick t₀ as).toNat := by
  have hall := hrun.history (I := fun as m => lts.Run { queue := { opts := opts } } as m ∧
    ((t₀ :: callTimes as).Pairwise (· ≤ ·) → Ticking t₀ slack as →
      m.queue.opts = opts ∧ m.queue.Prompt slack (lastTick t₀ as).toNat)) ?_ ?_
  · exact hall.2 htimes hticks
  · exact ⟨.nil _, fun _ _ => ⟨rfl, by simp, by simp, by simp⟩⟩
  · rintro as m a m' ⟨hbefore, hI⟩ hstep
    refine ⟨hbefore.snoc hstep, fun htimes hticks => ?_⟩
    rw [callTimes_append, ← List.cons_append, List.pairwise_append] at htimes
    obtain ⟨hopts, hprompt⟩ := hI htimes.1 hticks.front
    refine ⟨(step_opts hstep).trans hopts, ?_⟩
    have hpumps : ∀ f ∈ m.stack, ∀ t, f.resume = some t →
        t.toNat ≤ (lastTick t₀ as).toNat + slack := by
      intro f hf t ht
      have hmem : t ∈ callTimes as := (onTime hbefore).pumps f hf t ht
      exact Nat.le_trans (UInt64.le_iff_toNat_le.mp (le_latest htimes.1 hmem)) hticks.front.now
    cases a with
    | ret =>
        rw [lastTick_other t₀ rfl]
        exact Prompt.proceed hprompt hpumps hstep
    | call op =>
        have hlow : ∀ t, op.time? = some t → lastTick t₀ as ≤ t := fun t ht =>
          htimes.2.2 _ (lastTick_mem t₀ as) t (mem_callTimes (by simp) ht)
        have hstack : ∀ f ∈ (m.begin op).stack, ∀ t, f.resume = some t →
            op.time? = some t ∨ t.toNat ≤ (lastTick t₀ as).toNat + slack := by
          intro f hf t ht
          rw [begin_stack, List.mem_cons] at hf
          rcases hf with rfl | hf
          · exact Or.inl (activate_resume_time m.queue m.issued op ht)
          · exact Or.inr (hpumps f hf t ht)
        by_cases htick : ∃ nowMs, op = .tick nowMs
        · obtain ⟨nowMs, rfl⟩ := htick
          have hstamped := (onTime hbefore).stamped
          have hearlier : ∀ t ∈ callTimes as, t ≤ nowMs := by
            intro t ht
            refine htimes.2.2 t (List.mem_cons_of_mem _ ht) nowMs ?_
            rw [callTimes_tick]
            exact List.mem_cons_self
          rw [lastTick_tick]
          refine Prompt.proceed (hprompt.tick (hopts ▸ hdeadline)
            (fun e he => hearlier _ (hstamped.queued e he))
            fun e he => hearlier _ (hstamped.sent e he)) ?_ hstep
          intro f hf t ht
          have hle := UInt64.le_iff_toNat_le.mp (hlow nowMs rfl)
          rcases hstack f hf t ht with hown | hold
          · rw [← Option.some.inj hown]
            omega
          · omega
        · have hother : ∀ nowMs, op ≠ .tick nowMs := fun nowMs heq => htick ⟨nowMs, heq⟩
          have hnone : (Action.call op).tickTime? = none := by
            cases op with
            | tick nowMs => exact absurd rfl (hother nowMs)
            | _ => rfl
          have hnow : ∀ t, op.time? = some t → t.toNat ≤ (lastTick t₀ as).toNat + slack := by
            intro t ht
            have hle := hticks.now
            rwa [latest_snoc as ht, lastTick_other t₀ hnone] at hle
          rw [lastTick_other t₀ hnone]
          refine Prompt.proceed (hprompt.activate hother (fun t ht =>
            ⟨UInt64.le_iff_toNat_le.mp (hlow t ht), hnow t ht⟩) m.issued) ?_ hstep
          exact fun f hf t ht => (hstack f hf t ht).elim (hnow t) id

/-- What an operation accepts, it accepts of its owner, at its own time. -/
theorem activate_accepted {q : CommandQueue κ} {done : κ} {op : QueueOp} {e : Entry κ}
    (h : .accepted e ∈ (q.activate done op).events) :
    e.done = done ∧ op.time? = some e.queuedAtMs := by
  have hactivates := q.activates done op
  generalize q.activate done op = act at hactivates h
  have hwrites : ∀ {q : CommandQueue κ} {nowMs : UInt64}, .accepted e ∉ (q.pump nowMs).2 := by
    intro q nowMs hmem
    obtain ⟨f, q', heq⟩ := pump_wrote q nowMs _ hmem
    simp at heq
  cases hactivates with
  | accepted id payload priority nowMs e' he' =>
      rw [List.mem_cons, or_iff_left hwrites, QueueEvent.accepted.injEq] at h
      rw [h, he']
      exact ⟨rfl, rfl⟩
  | opened nowMs => exact absurd h hwrites
  | refused => simp at h
  | shut | unknown | answered | swept | canceled => exact absurd h List.not_mem_nil

/-- What an acceptance says of a command, its entry still says. -/
theorem queuedAt_of_accepted {m : Machine} (h : lts.Reachable m) {e f : Entry Ticket}
    (he : .accepted e ∈ eventsOf m.log) (hf : f ∈ m.queue.outstanding)
    (hdone : f.done = e.done) : f.queuedAtMs = e.queuedAtMs := by
  have hboth : m.Ledger ∧ ∀ e, .accepted e ∈ eventsOf m.log → ∀ f ∈ m.queue.outstanding,
      f.done = e.done → f.queuedAtMs = e.queuedAtMs := by
    refine invariant (I := fun m => m.Ledger ∧ ∀ e, .accepted e ∈ eventsOf m.log →
      ∀ f ∈ m.queue.outstanding, f.done = e.done → f.queuedAtMs = e.queuedAtMs) ?_ ?_ ?_ h
    · intro opts
      exact ⟨ledger (.of_start ⟨opts, rfl⟩), by simp [eventsOf]⟩
    · rintro m op ⟨hledger, hI⟩
      refine ⟨hledger.begin op, fun e he f hf hdone => ?_⟩
      have hevents : eventsOf (m.begin op).log =
          eventsOf m.log ++ (m.queue.activate m.issued op).events := by
        simp [Machine.begin]
      have hmem := activate_outstanding (f := fun e : Entry Ticket => (e.done, e.queuedAtMs))
        (fun _ _ => rfl) m.queue m.issued op _ (List.mem_map_of_mem hf)
      rw [hevents, List.mem_append] at he
      rcases he with hold | hnew
      · have hlt : e.done < m.issued := hledger.numbered e.done
          (List.mem_append_left _ (List.mem_filterMap.mpr ⟨_, hold, rfl⟩))
        rcases hmem with hmem | ⟨id, payload, priority, nowMs, -, heq⟩
        · obtain ⟨f', hf', heq⟩ := List.mem_map.mp hmem
          obtain ⟨hsame, hqueued⟩ := Prod.mk.inj heq
          rw [← hqueued]
          exact hI e hold f' hf' (hsame.trans hdone)
        · have hown : f.done = m.issued := (Prod.mk.inj heq).1
          exact absurd (hdone.symm.trans hown) (Nat.ne_of_lt hlt)
      · obtain ⟨hown, htime⟩ := activate_accepted hnew
        rcases hmem with hmem | ⟨id, payload, priority, nowMs, rfl, heq⟩
        · obtain ⟨f', hf', heq⟩ := List.mem_map.mp hmem
          have hlt : f'.done < m.issued := hledger.lt_issued (List.mem_map_of_mem hf')
          have hsame : f'.done = m.issued :=
            ((Prod.mk.inj heq).1.trans hdone).trans hown
          exact absurd hsame (Nat.ne_of_lt hlt)
        · have hqueued : f.queuedAtMs = nowMs := (Prod.mk.inj heq).2
          rw [hqueued]
          exact Option.some.inj htime
    · rintro m m' ⟨hledger, hI⟩ hstep
      refine ⟨hledger.proceed hstep, fun e he f hf hdone => ?_⟩
      rcases proceed_eq_some hstep with
        ⟨c, cs, resume, result, fs, -, rfl⟩ | ⟨resume, result, fs, -, rfl⟩
      · exact hI e (by simpa using he) f hf hdone
      · have hold : .accepted e ∈ eventsOf m.log := by
          rcases List.mem_append.mp (by simpa using he) with hold | hnew
          · exact hold
          · obtain ⟨f, q', heq⟩ := resume_wrote m.queue resume _ hnew
            simp at heq
        have hmem := (resume_outstanding (f := fun e : Entry Ticket => (e.done, e.queuedAtMs))
          (fun _ _ => rfl) m.queue resume).subset (List.mem_map_of_mem hf)
        obtain ⟨f', hf', heq⟩ := List.mem_map.mp hmem
        obtain ⟨hsame, hqueued⟩ := Prod.mk.inj heq
        rw [← hqueued]
        exact hI e hold f' hf' (hsame.trans hdone)
  exact hboth.2 e he f hf hdone

/-- What is outstanding was accepted not long ago. -/
theorem outstanding_recent {opts : CommandQueueOptions} {as : List Action} {m : Machine}
    (hrun : lts.Run { queue := { opts := opts } } as m)
    (htimes : (t₀ :: callTimes as).Pairwise (· ≤ ·)) (hticks : Ticking t₀ slack as)
    (hdeadline : opts.queueTimeoutMs ≠ 0) :
    ∀ e ∈ m.queue.outstanding, (latest t₀ as).toNat ≤ e.queuedAtMs.toNat +
      opts.queueTimeoutMs.toNat + opts.writeTimeoutMs.toNat + 2 * slack := by
  obtain ⟨hopts, hprompt⟩ := prompt hrun htimes hticks hdeadline
  have hnow := hticks.now
  intro e he
  rcases List.mem_append.mp he with he | he
  · have hwaits := hprompt.waits e he
    rw [hopts] at hwaits
    omega
  · have hwritten := hprompt.written e he
    have hflies := hprompt.flies e he
    rw [hopts] at hwritten hflies
    omega

/-- No command hangs.  In a run whose calls carry nondecreasing times and come no later
after the last tick than some slack, callbacks that call the queue again included, every
command that was accepted longer ago than the two deadlines and twice the slack is no
longer outstanding: its completion was called, or is about to be by an operation under
way. -/
theorem no_command_hangs {opts : CommandQueueOptions} {as : List Action} {m : Machine}
    (hrun : lts.Run { queue := { opts := opts } } as m)
    (htimes : (t₀ :: callTimes as).Pairwise (· ≤ ·)) (hticks : Ticking t₀ slack as)
    (hdeadline : opts.queueTimeoutMs ≠ 0) {e : Entry Ticket}
    (haccepted : LogEntry.did (.accepted e) ∈ m.log)
    (hlong : e.queuedAtMs.toNat + opts.queueTimeoutMs.toNat + opts.writeTimeoutMs.toNat +
      2 * slack < (latest t₀ as).toNat) :
    ∃ c, c.done = e.done ∧ (LogEntry.did (.completed c) ∈ m.log ∨ c ∈ m.waiting) := by
  have hreach : lts.Reachable m := ⟨_, as, ⟨opts, rfl⟩, hrun⟩
  have hevent : .accepted e ∈ eventsOf m.log := mem_eventsOf.mpr haccepted
  have hgone : e.done ∉ m.queue.dones := by
    intro hmem
    obtain ⟨f, hf, hdone⟩ := List.mem_map.mp hmem
    have hrecent := outstanding_recent hrun htimes hticks hdeadline f hf
    rw [queuedAt_of_accepted hreach hevent hf hdone] at hrecent
    omega
  have haccount : e.done ∈ (↑(acceptedDones (eventsOf m.log)) : Multiset Ticket) :=
    Multiset.mem_coe.mpr (List.mem_filterMap.mpr ⟨_, hevent, rfl⟩)
  have hsettled : ∀ {cs : List (Call Ticket)}, e.done ∈ settledDones cs →
      ∃ c ∈ cs, c.done = e.done := by
    intro cs hmem
    obtain ⟨c, hc, hdone⟩ := List.mem_map.mp hmem
    exact ⟨c, List.mem_of_mem_filter hc, hdone⟩
  rw [(ledger hreach).balanced, Multiset.mem_add, Multiset.mem_add] at haccount
  rcases haccount with (hcompleted | hwaits) | hout
  · obtain ⟨c, hc, hdone⟩ := hsettled hcompleted
    exact ⟨c, hdone, Or.inl (mem_eventsOf.mp (mem_completions.mp hc))⟩
  · obtain ⟨c, hc, hdone⟩ := hsettled hwaits
    exact ⟨c, hdone, Or.inr hc⟩
  · exact absurd hout hgone

/-- The camera never answers the first command, and the second waits at the gate. -/
def silentRun : List Action :=
  [.call (.submit 1 [1, 1] .fastpass 10), .call (.submit 2 [1, 2] .queued 12),
    .call (.tick 60), .ret, .ret, .call (.tick 110)]

theorem no_command_hangs_silent :
    ∃ m, lts.Run { queue := { opts := ⟨50, 40⟩ } } silentRun m ∧
      ∃ c : Call Ticket, c.done = 1 ∧ (LogEntry.did (.completed c) ∈ m.log ∨ c ∈ m.waiting) := by
  obtain ⟨m, hm, haccepted⟩ : ∃ m,
      Lts.exec step { queue := { opts := ⟨50, 40⟩ } } silentRun = some m ∧
      m.log[5]? = some (.did (.accepted ⟨2, [1, 2], .queued, 1, 12, 0⟩)) := ⟨_, rfl, rfl⟩
  have hrun : lts.Run { queue := { opts := ⟨50, 40⟩ } } silentRun m := Lts.run_of_exec hm
  have hcompleted := no_command_hangs hrun
    (show ((10 : UInt64) :: callTimes silentRun).Pairwise (· ≤ ·) by decide)
    (show Ticking 10 2 silentRun by decide) (by decide) (List.mem_of_getElem? haccepted)
    (by decide)
  exact ⟨m, hrun, hcompleted⟩

end Machine

end GoproNative
