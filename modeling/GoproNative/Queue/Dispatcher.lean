import GoproNative.Queue.Order
import GoproNative.Support.Simulation

/-!
# The queue as a dispatcher

What the command queue is for, without its containers, its ids and its clock: ordinary
commands stand in a line before a gate and go out one at a time, into a slot; express ones
wait and fly in no order; and a command leaves for good by being settled, which its
completion then tells.  A dispatcher has no state in which two ordinary commands are on
the wire, and no step by which one overtakes another, passes a closed gate, or completes
twice.

Every run of the queue, callbacks that call it again included, is a run of the dispatcher.
-/

namespace GoproNative

variable {κ : Type}

/-- What becomes of the commands `κ` stand for. -/
structure Dispatcher (κ : Type) where
  gate : Bool := false
  /-- The ordinary commands that wait, the next one first. -/
  line : List κ := []
  /-- The ordinary command on the wire. -/
  slot : Option κ := none
  /-- The express commands that wait. -/
  waiting : Multiset κ := 0
  /-- The express commands on the wire. -/
  flying : Multiset κ := 0
  /-- The completions that are due. -/
  due : Multiset (κ × Outcome) := 0

namespace Dispatcher

inductive Move (κ : Type)
  | gate (isOpen : Bool)
  | accept (express : Bool) (t : κ)
  | refuse (t : κ)
  | write (express : Bool) (t : κ)
  | settle (t : κ) (o : Outcome)
  | complete (t : κ) (o : Outcome)
  deriving DecidableEq

/-- The owner sees all moves but the gate's and the settling. -/
def Move.shown : Move κ → Bool
  | .gate _ | .settle _ _ => false
  | _ => true

inductive Step : Dispatcher κ → Move κ → Dispatcher κ → Prop
  | gate (d : Dispatcher κ) (isOpen : Bool) : Step d (.gate isOpen) { d with gate := isOpen }
  | accept (d : Dispatcher κ) (t : κ) :
      Step d (.accept false t) { d with line := d.line ++ [t] }
  | acceptExpress (d : Dispatcher κ) (t : κ) :
      Step d (.accept true t) { d with waiting := t ::ₘ d.waiting }
  | refuse (d : Dispatcher κ) (t : κ) :
      Step d (.refuse t) { d with due := d.due + {(t, .rejected)} }
  | write (d : Dispatcher κ) (t : κ) (rest : List κ) (hopen : d.gate = true)
      (hfree : d.slot = none) (hnext : d.line = t :: rest) :
      Step d (.write false t) { d with slot := some t, line := rest }
  | writeExpress (d : Dispatcher κ) (t : κ) (rest : Multiset κ) (hwaits : d.waiting = t ::ₘ rest) :
      Step d (.write true t) { d with waiting := rest, flying := t ::ₘ d.flying }
  /-- A command that was not written can only time out or be canceled. -/
  | abandon (d : Dispatcher κ) (t : κ) (o : Outcome) (as bs : List κ)
      (hline : d.line = as ++ t :: bs) (hlate : o = .timedOut ∨ o = .canceled) :
      Step d (.settle t o) { d with line := as ++ bs, due := d.due + {(t, o)} }
  | abandonExpress (d : Dispatcher κ) (t : κ) (o : Outcome) (rest : Multiset κ)
      (hwaits : d.waiting = t ::ₘ rest) (hlate : o = .timedOut ∨ o = .canceled) :
      Step d (.settle t o) { d with waiting := rest, due := d.due + {(t, o)} }
  | finish (d : Dispatcher κ) (t : κ) (o : Outcome) (hslot : d.slot = some t)
      (hsettled : o ≠ .rejected) :
      Step d (.settle t o) { d with slot := none, due := d.due + {(t, o)} }
  | finishExpress (d : Dispatcher κ) (t : κ) (o : Outcome) (rest : Multiset κ)
      (hflies : d.flying = t ::ₘ rest) (hsettled : o ≠ .rejected) :
      Step d (.settle t o) { d with flying := rest, due := d.due + {(t, o)} }
  | complete (d : Dispatcher κ) (t : κ) (o : Outcome) (rest : Multiset (κ × Outcome))
      (hdue : d.due = (t, o) ::ₘ rest) : Step d (.complete t o) { d with due := rest }

/-- All runs of a dispatcher that has nothing to do yet. -/
def lts (κ : Type) : Lts (Dispatcher κ) (Move κ) where
  start d := d = {}
  step := Step

end Dispatcher

/-! ## What a queue is as a dispatcher -/

open Dispatcher

def Entry.isExpress (e : Entry κ) : Bool := e.priority != .queued

/-- The express commands of a container. -/
def expresses (es : List (Entry κ)) : List κ :=
  (es.filter Entry.isExpress).map Entry.done

@[simp] theorem expresses_append (xs ys : List (Entry κ)) :
    expresses (xs ++ ys) = expresses xs ++ expresses ys := by
  simp [expresses]

/-- The dispatcher that a queue is, with the completions that are due. -/
def CommandQueue.dispatcher (q : CommandQueue κ) (due : Multiset (κ × Outcome)) :
    Dispatcher κ where
  gate := q.ready
  line := ordinaries q.pending
  slot := (ordinaries q.inFlight).head?
  waiting := ↑(expresses q.pending)
  flying := ↑(expresses q.inFlight)
  due := due

/-- What the owner sees of an event. -/
def QueueEvent.move : QueueEvent κ → Move κ
  | .accepted e => .accept e.isExpress e.done
  | .refused done => .refuse done
  | .wrote e _ => .write e.isExpress e.done
  | .completed c => .complete c.done c.outcome

theorem QueueEvent.shown_move (ev : QueueEvent κ) : ev.move.shown = true := by
  cases ev <;> rfl

theorem filter_shown_moves (evs : List (QueueEvent κ)) :
    (evs.map QueueEvent.move).filter Move.shown = evs.map QueueEvent.move := by
  rw [List.filter_eq_self]
  intro b hb
  obtain ⟨ev, -, rfl⟩ := List.mem_map.mp hb
  exact ev.shown_move

@[simp] theorem ordinaries_nil : ordinaries ([] : List (Entry κ)) = [] := rfl

@[simp] theorem expresses_nil : expresses ([] : List (Entry κ)) = [] := rfl

theorem ordinaries_cons (e : Entry κ) (es : List (Entry κ)) :
    ordinaries (e :: es) = if e.isExpress then ordinaries es else e.done :: ordinaries es := by
  by_cases hprio : e.priority = .queued
  · simp [ordinaries, e.ordinary_of_queued hprio, Entry.isExpress, hprio]
  · simp [ordinaries, e.ordinary_of_not_queued hprio, Entry.isExpress, hprio]

theorem expresses_cons (e : Entry κ) (es : List (Entry κ)) :
    expresses (e :: es) = if e.isExpress then e.done :: expresses es else expresses es := by
  by_cases hprio : e.isExpress = true
  · simp [expresses, hprio]
  · simp [expresses, hprio]

@[simp] theorem Entry.sent_isExpress (e : Entry κ) (nowMs : UInt64) :
    (e.sent nowMs).isExpress = e.isExpress := rfl

theorem Entry.isExpress_eq_false_iff {e : Entry κ} :
    e.isExpress = false ↔ e.priority = .queued := by
  simp [isExpress]

/-- An express command in a container is none of its ordinary ones. -/
theorem ordinaries_middle {e : Entry κ} (he : e.isExpress = true) (as bs : List (Entry κ)) :
    ordinaries (as ++ e :: bs) = ordinaries (as ++ bs) := by
  rw [ordinaries_append, ordinaries_cons, if_pos he, ordinaries_append]

theorem expresses_middle {e : Entry κ} (he : e.isExpress = false) (as bs : List (Entry κ)) :
    expresses (as ++ e :: bs) = expresses (as ++ bs) := by
  rw [expresses_append, expresses_cons, he, if_neg Bool.false_ne_true, expresses_append]

/-- An express command in a container is one of its express ones. -/
theorem coe_expresses_middle {e : Entry κ} (he : e.isExpress = true) (as bs : List (Entry κ)) :
    (↑(expresses (as ++ e :: bs)) : Multiset κ) = e.done ::ₘ ↑(expresses (as ++ bs)) := by
  rw [expresses_append, expresses_cons, if_pos he, expresses_append, Multiset.cons_coe,
    Multiset.coe_eq_coe]
  exact List.perm_middle

/-- The completions that calls will tell. -/
def duties (calls : List (Call κ)) : Multiset (κ × Outcome) :=
  ↑(calls.map fun c => (c.done, c.outcome))

@[simp] theorem duties_nil : duties ([] : List (Call κ)) = 0 := rfl

@[simp] theorem duties_append (xs ys : List (Call κ)) :
    duties (xs ++ ys) = duties xs + duties ys := by
  simp [duties]

/-- The completions of some commands, all with one outcome. -/
def settledAs (o : Outcome) (es : List (Entry κ)) : Multiset (κ × Outcome) :=
  ↑(es.map fun e => (e.done, o))

theorem duties_map (o : Outcome) (es : List (Entry κ)) :
    duties (es.map fun e => ⟨e.done, o, []⟩) = settledAs o es := by
  simp [duties, settledAs, Function.comp_def]

namespace CommandQueue

variable {q q' : CommandQueue κ} {nowMs : UInt64} {due : Multiset (κ × Outcome)}

/-! ## The pump -/

/-- What a pass of the pump writes, the dispatcher writes. -/
theorem pumpPass_dispatches {ev : QueueEvent κ} (h : q.SingleFlight)
    (hpass : q.pumpPass nowMs = some (ev, q')) :
    Step (q.dispatcher due) ev.move (q'.dispatcher due) := by
  have hline := pumpPass_ordinaries h hpass
  obtain ⟨e, as, bs, hpending, hsend, -, rfl, rfl⟩ := pumpPass_eq_some hpass
  rcases hexpress : e.isExpress with - | -
  · have hprio := Entry.isExpress_eq_false_iff.mp hexpress
    obtain ⟨hopen, hfree⟩ := (canSend_iff.mp hsend).2 hprio
    have hnone : ordinaries q.inFlight = [] := by
      rw [ordinaries, List.filterMap_eq_nil_iff]
      exact fun f hf => f.ordinary_of_not_queued (hfree f hf)
    have hwritten : writtenOrder [QueueEvent.wrote (e.sent nowMs)
        { q with pending := as ++ bs, inFlight := q.inFlight ++ [e.sent nowMs] }] = [e.done] := by
      simp [writtenOrder, QueueEvent.ordinaryWritten, e.ordinary_of_queued hprio]
    rw [hwritten, List.singleton_append] at hline
    have hafter : ({ q with
        pending := as ++ bs, inFlight := q.inFlight ++ [e.sent nowMs] } :
        CommandQueue κ).dispatcher due =
        { q.dispatcher due with slot := some e.done, line := ordinaries (as ++ bs) } := by
      simp [dispatcher, hpending, hnone, ordinaries_cons, expresses_cons, hexpress,
        expresses_middle hexpress]
    rw [hafter, QueueEvent.move, Entry.sent_isExpress, hexpress]
    refine .write _ _ _ hopen ?_ hline.symm
    rw [dispatcher, hnone]
    rfl
  · have hwaits := coe_expresses_middle hexpress as bs
    have hafter : ({ q with
        pending := as ++ bs, inFlight := q.inFlight ++ [e.sent nowMs] } :
        CommandQueue κ).dispatcher due =
        { q.dispatcher due with
          waiting := ↑(expresses (as ++ bs)), flying := e.done ::ₘ (q.dispatcher due).flying } := by
      simp [dispatcher, hpending, ordinaries_cons, expresses_cons, hexpress,
        ordinaries_middle hexpress]
    rw [hafter, QueueEvent.move, Entry.sent_isExpress, hexpress]
    refine .writeExpress _ _ _ ?_
    rw [dispatcher, hpending]
    exact hwaits

theorem pump_dispatches (h : q.SingleFlight) (nowMs : UInt64) (due : Multiset (κ × Outcome)) :
    (Dispatcher.lts κ).Run (q.dispatcher due) ((q.pump nowMs).2.map QueueEvent.move)
      ((q.pump nowMs).1.dispatcher due) := by
  have hboth := (pump_run q nowMs).history (I := fun evs q₁ => q₁.SingleFlight ∧
    (Dispatcher.lts κ).Run (q.dispatcher due) (evs.map QueueEvent.move) (q₁.dispatcher due))
    ⟨h, .nil _⟩ ?_
  · exact hboth.2
  · intro evs q₁ ev q₂ ⟨hsingle, hrun⟩ hpass
    refine ⟨(hsingle.pumpPass hpass).1, ?_⟩
    rw [List.map_append]
    exact hrun.snoc (pumpPass_dispatches hsingle hpass)

/-! ## Settling -/

/-- A command leaves `pending` without having been written. -/
theorem leave_pending {as bs : List (Entry κ)} {e : Entry κ} {o : Outcome}
    (hlate : o = .timedOut ∨ o = .canceled) :
    Step (dispatcher { q with pending := as ++ e :: bs } due) (.settle e.done o)
      (dispatcher { q with pending := as ++ bs } (due + {(e.done, o)})) := by
  rcases hexpress : e.isExpress with - | -
  · have hline : ordinaries (as ++ e :: bs) = ordinaries as ++ e.done :: ordinaries bs := by
      simp [ordinaries_cons, hexpress]
    have hafter := Step.abandon (dispatcher { q with pending := as ++ e :: bs } due) e.done o
      (ordinaries as) (ordinaries bs) hline hlate
    simpa [dispatcher, expresses_middle hexpress] using hafter
  · have hafter := Step.abandonExpress (dispatcher { q with pending := as ++ e :: bs } due) e.done
      o _ (coe_expresses_middle hexpress as bs) hlate
    simpa [dispatcher, ordinaries_middle hexpress] using hafter

/-- A command leaves the wire. -/
theorem leave_inFlight {as bs : List (Entry κ)} {e : Entry κ} {o : Outcome}
    (hone : (ordinaries (as ++ e :: bs)).length ≤ 1) (hsettled : o ≠ .rejected) :
    Step (dispatcher { q with inFlight := as ++ e :: bs } due) (.settle e.done o)
      (dispatcher { q with inFlight := as ++ bs } (due + {(e.done, o)})) := by
  rcases hexpress : e.isExpress with - | -
  · have hsplit : ordinaries (as ++ e :: bs) = ordinaries as ++ e.done :: ordinaries bs := by
      simp [ordinaries_cons, hexpress]
    have hnone : ordinaries as = [] ∧ ordinaries bs = [] := by
      rw [hsplit, List.length_append, List.length_cons] at hone
      exact ⟨List.length_eq_zero_iff.mp (by omega), List.length_eq_zero_iff.mp (by omega)⟩
    have hslot : (ordinaries (as ++ e :: bs)).head? = some e.done := by
      rw [hsplit, hnone.1]
      rfl
    have hafter := Step.finish (dispatcher { q with inFlight := as ++ e :: bs } due) e.done o
      hslot hsettled
    simpa [dispatcher, expresses_middle hexpress, hnone] using hafter
  · have hafter := Step.finishExpress (dispatcher { q with inFlight := as ++ e :: bs } due) e.done
      o _ (coe_expresses_middle hexpress as bs) hsettled
    simpa [dispatcher, ordinaries_middle hexpress] using hafter

theorem length_ordinaries (es : List (Entry κ)) :
    (ordinaries es).length = es.countP fun e => e.priority == .queued := by
  rw [ordinaries, List.length_filterMap_eq_countP]
  congr 1
  funext e
  by_cases hprio : e.priority = .queued
  · simp [e.ordinary_of_queued hprio, hprio]
  · simp [e.ordinary_of_not_queued hprio, hprio]

/-- All entries of a kind are settled out of `pending`. -/
theorem settle_pending (q : CommandQueue κ) (p : Entry κ → Bool) {o : Outcome}
    (hlate : o = .timedOut ∨ o = .canceled) (due : Multiset (κ × Outcome)) :
    ∃ moves, (Dispatcher.lts κ).Run (q.dispatcher due) moves
        (dispatcher { q with pending := q.pending.filter fun e => !p e }
          (due + settledAs o (q.pending.filter p))) ∧
      moves.filter Move.shown = [] :=
  Lts.run_filter (N := Dispatcher.lts κ) (P := fun _ => True)
    (f := fun es due => dispatcher { q with pending := es } due) p (fun _ _ _ _ => trivial)
    (fun _ _ _ _ _ _ => ⟨_, rfl, leave_pending hlate⟩) trivial due

/-- All entries of a kind are settled out of `inFlight`. -/
theorem settle_inFlight {q : CommandQueue κ} (h : q.SingleFlight) (p : Entry κ → Bool)
    {o : Outcome} (hsettled : o ≠ .rejected) (due : Multiset (κ × Outcome)) :
    ∃ moves, (Dispatcher.lts κ).Run (q.dispatcher due) moves
        (dispatcher { q with inFlight := q.inFlight.filter fun e => !p e }
          (due + settledAs o (q.inFlight.filter p))) ∧
      moves.filter Move.shown = [] := by
  refine Lts.run_filter (N := Dispatcher.lts κ) (P := fun es => (ordinaries es).length ≤ 1)
    (f := fun es due => dispatcher { q with inFlight := es } due) p ?_ ?_ ?_ due
  · intro as e bs hone
    rw [length_ordinaries] at hone ⊢
    simp only [List.countP_append, List.countP_cons] at hone ⊢
    omega
  · exact fun as e bs due _ hone => ⟨_, rfl, leave_inFlight hone hsettled⟩
  · rw [length_ordinaries]
    exact h.ordinary

/-! ## Operations -/

/-- A submission joins the line at its end, or the express ones. -/
theorem push_dispatches (q : CommandQueue κ) (e : Entry κ) (due : Multiset (κ × Outcome)) :
    Step (q.dispatcher due) (.accept e.isExpress e.done) ((q.push e).dispatcher due) := by
  have hline := q.push_ordinaries e
  have hwaits : (↑(expresses (q.push e).pending) : Multiset κ) = ↑(expresses (e :: q.pending)) :=
    Multiset.coe_eq_coe.mpr (((q.push_pending e).filter _).map _)
  rcases hexpress : e.isExpress with - | -
  · have hafter : (q.push e).dispatcher due =
        { q.dispatcher due with line := (q.dispatcher due).line ++ [e.done] } := by
      simp [dispatcher, hline, hwaits, ordinaries_cons, expresses_cons, hexpress]
    rw [hafter]
    exact .accept _ _
  · have hafter : (q.push e).dispatcher due =
        { q.dispatcher due with waiting := e.done ::ₘ (q.dispatcher due).waiting } := by
      simp [dispatcher, hline, hwaits, ordinaries_cons, expresses_cons, hexpress]
    rw [hafter]
    exact .acceptExpress _ _

/-- An operation up to its first callback is a run of the dispatcher, which shows what the
operation does. -/
theorem activate_dispatches {q : CommandQueue κ} (h : q.SingleFlight) (done : κ) (op : QueueOp)
    (due : Multiset (κ × Outcome)) :
    ∃ moves, (Dispatcher.lts κ).Run (q.dispatcher due) moves
        ((q.activate done op).queue.dispatcher (due + duties (q.activate done op).calls)) ∧
      moves.filter Move.shown = (q.activate done op).events.map QueueEvent.move := by
  have hactivates := q.activates done op
  generalize q.activate done op = act at hactivates ⊢
  cases hactivates with
  | refused => exact ⟨[.refuse done], .single (.refuse _ done), rfl⟩
  | accepted id payload priority nowMs e he hnew =>
      refine ⟨.accept e.isExpress e.done :: ((q.push e).pump nowMs).2.map QueueEvent.move,
        .cons (push_dispatches q e due) ?_, ?_⟩
      · rw [duties_nil, add_zero]
        exact pump_dispatches (h.push hnew) nowMs due
      · rw [List.filter_cons_of_pos rfl, filter_shown_moves]
        rfl
  | opened nowMs =>
      have hset : SingleFlight { q with ready := true } := ⟨h.ids, h.ordinary⟩
      refine ⟨.gate true :: (pump { q with ready := true } nowMs).2.map QueueEvent.move,
        .cons (.gate _ true) ?_, ?_⟩
      · rw [duties_nil, add_zero]
        exact pump_dispatches hset nowMs due
      · rw [List.filter_cons_of_neg (by simp [Move.shown]), filter_shown_moves]
  | shut nowMs =>
      refine ⟨[.gate false], .single ?_, rfl⟩
      rw [duties_nil, add_zero]
      exact .gate _ false
  | unknown =>
      refine ⟨[], ?_, rfl⟩
      rw [duties_nil, add_zero]
      exact .nil _
  | answered data nowMs e hfind =>
      obtain ⟨-, as, bs, hinFlight, herase, -⟩ := List.find?_eraseP_split hfind
      have hone : (ordinaries (as ++ e :: bs)).length ≤ 1 := by
        rw [← hinFlight, length_ordinaries]
        exact h.ordinary
      have hleave : Step (dispatcher { q with inFlight := as ++ e :: bs } due) _ _ :=
        leave_inFlight hone (show Outcome.responded ≠ .rejected by decide)
      rw [← hinFlight, ← herase] at hleave
      exact ⟨[.settle e.done .responded], .single hleave, rfl⟩
  | swept nowMs =>
      obtain ⟨moves, hrun, hnone⟩ := settle_inFlight h (q.writeExpired nowMs)
        (show Outcome.timedOut ≠ .rejected by decide) due
      obtain ⟨moves', hrun', hnone'⟩ := settle_pending
        { q with inFlight := q.inFlight.filter fun e => !q.writeExpired nowMs e }
        (q.queueExpired nowMs) (Or.inl rfl)
        (due + settledAs .timedOut (q.inFlight.filter (q.writeExpired nowMs)))
      refine ⟨moves ++ moves', ?_, by rw [List.filter_append, hnone, hnone']; rfl⟩
      have hduties : due + duties (q.tick nowMs).calls =
          due + settledAs .timedOut (q.inFlight.filter (q.writeExpired nowMs)) +
            settledAs .timedOut (q.pending.filter (q.queueExpired nowMs)) := by
        rw [tick, List.map_append, duties_append, duties_map, duties_map, add_assoc]
      rw [hduties]
      exact hrun.append hrun'
  | canceled =>
      obtain ⟨moves, hrun, hnone⟩ := settle_inFlight h (fun _ => true)
        (show Outcome.canceled ≠ .rejected by decide) due
      obtain ⟨moves', hrun', hnone'⟩ := settle_pending
        { q with inFlight := q.inFlight.filter fun _ => false } (fun _ => true) (Or.inr rfl)
        (due + settledAs .canceled (q.inFlight.filter fun _ => true))
      refine ⟨moves ++ moves', ?_, by rw [List.filter_append, hnone, hnone']; rfl⟩
      have hqueue : q.cancelAll.queue = { q with
          inFlight := q.inFlight.filter fun _ => false
          pending := q.pending.filter fun _ => false } := by
        simp [cancelAll]
      have hduties : due + duties q.cancelAll.calls =
          due + settledAs .canceled (q.inFlight.filter fun _ => true) +
            settledAs .canceled (q.pending.filter fun _ => true) := by
        rw [cancelAll, List.map_append, duties_append, duties_map, duties_map, List.filter_true,
          List.filter_true, add_assoc]
      rw [hqueue, hduties]
      exact hrun.append hrun'

end CommandQueue

namespace Machine

open CommandQueue

/-- The dispatcher that a machine is: the completions that are due are the callbacks that
operations under way have yet to make. -/
def dispatcher (m : Machine) : Dispatcher Ticket := m.queue.dispatcher (duties m.waiting)

/-- What the owner has seen of a run. -/
def observed (m : Machine) : List (Move Ticket) := (eventsOf m.log).map QueueEvent.move

/-- A run of a dispatcher leads to what the machine is, and shows what it did. -/
def Dispatches (m : Machine) : Prop :=
  (Dispatcher.lts Ticket).Follows (fun m d => d = m.dispatcher) Move.shown observed m

theorem Dispatches.begin {m : Machine} (h : m.Dispatches) (hsingle : m.queue.SingleFlight)
    (op : QueueOp) : (m.begin op).Dispatches := by
  refine h.step ?_
  rintro d rfl
  obtain ⟨moves, hrun, hshown⟩ :=
    activate_dispatches hsingle m.issued op (duties m.waiting)
  refine ⟨moves, _, hrun, ?_, ?_⟩
  · have hwaiting : (m.begin op).waiting =
        (m.queue.activate m.issued op).calls ++ m.waiting := rfl
    rw [dispatcher, hwaiting, duties_append, add_comm]
    rfl
  · rw [hshown]
    simp [observed, Machine.begin]

theorem Dispatches.proceed {m m' : Machine} (h : m.Dispatches) (hsingle : m.queue.SingleFlight)
    (hstep : m.proceed = some m') : m'.Dispatches := by
  refine h.step ?_
  rintro d rfl
  rcases proceed_eq_some hstep with
    ⟨c, cs, resume, result, fs, hstack, rfl⟩ | ⟨resume, result, fs, hstack, rfl⟩
  · have hdue : m.dispatcher.due =
        (c.done, c.outcome) ::ₘ duties (cs ++ fs.flatMap Frame.calls) := by
      simp [dispatcher, CommandQueue.dispatcher, waiting, hstack, duties]
    refine ⟨[.complete c.done c.outcome], _, .single (.complete _ _ _ _ hdue), rfl, ?_⟩
    have hall : [Move.complete c.done c.outcome].filter Move.shown =
      [.complete c.done c.outcome] := rfl
    simp [observed, QueueEvent.move, hall]
  · have hwaiting : duties m.waiting = duties (fs.flatMap Frame.calls) := by
      simp [waiting, hstack]
    refine ⟨(m.queue.resume resume).2.map QueueEvent.move, _, ?_, rfl, ?_⟩
    · rw [dispatcher, hwaiting]
      cases resume with
      | none => exact .nil _
      | some nowMs => exact pump_dispatches hsingle nowMs _
    · rw [filter_shown_moves]
      simp [observed]

end Machine

end GoproNative
