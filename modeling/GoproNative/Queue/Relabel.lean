import GoproNative.Queue.Pump

/-!
# The queue never looks into its callbacks

A completion callback is stored, handed on and called, and nothing is decided by
it.  So every operation commutes with a renaming of the callbacks, and two queues
that differ in the callbacks alone do the same.
-/

namespace GoproNative

variable {κ μ : Type}

/-! ## Renaming -/

def Entry.map (f : κ → μ) (e : Entry κ) : Entry μ where
  id := e.id
  payload := e.payload
  priority := e.priority
  done := f e.done
  queuedAtMs := e.queuedAtMs
  sentAtMs := e.sentAtMs

def CommandQueue.map (f : κ → μ) (q : CommandQueue κ) : CommandQueue μ where
  opts := q.opts
  ready := q.ready
  pending := q.pending.map (Entry.map f)
  inFlight := q.inFlight.map (Entry.map f)

def Call.map (f : κ → μ) (c : Call κ) : Call μ := ⟨f c.done, c.outcome, c.response⟩

def QueueEvent.map (f : κ → μ) : QueueEvent κ → QueueEvent μ
  | .accepted e => .accepted (e.map f)
  | .refused done => .refused (f done)
  | .wrote e q => .wrote (e.map f) (q.map f)
  | .completed c => .completed (c.map f)

def Activation.map (f : κ → μ) (a : Activation κ) : Activation μ where
  queue := a.queue.map f
  events := a.events.map (QueueEvent.map f)
  calls := a.calls.map (Call.map f)
  resume := a.resume
  result := a.result

namespace CommandQueue

variable (f : κ → μ) (q : CommandQueue κ) (nowMs : UInt64)

/-! ## Every operation commutes -/

@[simp] theorem map_ready : (q.map f).ready = q.ready := rfl

theorem map_pending : (q.map f).pending = q.pending.map (Entry.map f) := rfl

theorem map_inFlight : (q.map f).inFlight = q.inFlight.map (Entry.map f) := rfl

@[simp] theorem isInFlight_map (id : CorrelationId) :
    (q.map f).isInFlight id = q.isInFlight id :=
  List.any_map

theorem canSend_map (e : Entry κ) : (q.map f).canSend (e.map f) = q.canSend e := by
  have hclear : (q.map f).inFlight.all (fun g => g.priority != .queued) =
      q.inFlight.all fun g => g.priority != .queued := List.all_map
  simp only [canSend, isInFlight_map, hclear, map_ready, Entry.map]

theorem pumpPass_map :
    (q.map f).pumpPass nowMs =
      (q.pumpPass nowMs).map fun r => (r.1.map f, r.2.map f) := by
  have hsend : (q.map f).canSend ∘ Entry.map f = q.canSend := by
    funext e
    exact q.canSend_map f e
  have hfind : (q.map f).pending.find? (q.map f).canSend =
      (q.pending.find? q.canSend).map (Entry.map f) := by
    rw [← hsend]
    exact List.find?_map
  have herase : (q.map f).pending.eraseP (q.map f).canSend =
      (q.pending.eraseP q.canSend).map (Entry.map f) := by
    rw [← hsend]
    exact List.eraseP_map
  rw [pumpPass, pumpPass, hfind]
  cases q.pending.find? q.canSend with
  | none => rfl
  | some e =>
      simp only [Option.map_some, herase]
      simp [send, map, QueueEvent.map, Entry.map]

theorem pumpLoop_map (fuel : Nat) :
    pumpLoop nowMs fuel (q.map f) =
      ((pumpLoop nowMs fuel q).1.map f,
        (pumpLoop nowMs fuel q).2.map (QueueEvent.map f)) := by
  induction fuel generalizing q with
  | zero => rfl
  | succ fuel ih =>
      rw [pumpLoop, pumpLoop, pumpPass_map]
      cases q.pumpPass nowMs with
      | none => rfl
      | some r => simp only [Option.map_some, ih, List.map_cons]

theorem pump_map :
    (q.map f).pump nowMs =
      ((q.pump nowMs).1.map f, (q.pump nowMs).2.map (QueueEvent.map f)) := by
  have hlength : (q.map f).pending.length = q.pending.length := List.length_map _
  rw [pump, pump, hlength, pumpLoop_map]

theorem push_map (e : Entry κ) : (q.map f).push (e.map f) = (q.push e).map f := by
  have hprio : (e.map f).priority = e.priority := rfl
  rw [push, push, hprio]
  split <;> simp [map]

theorem submit_map (id : CorrelationId) (payload : Bytes) (priority : Priority)
    (done : κ) :
    (q.map f).submit id payload priority (f done) nowMs =
      (q.submit id payload priority done nowMs).map f := by
  have htaken : (q.map f).pending.any (fun e => e.id == id) =
      q.pending.any fun e => e.id == id := List.any_map
  rw [submit, submit]
  simp only [isInFlight_map, htaken]
  split
  · rfl
  · have hpush := q.push_map f ⟨id, payload, priority, done, nowMs, 0⟩
    have hentry : Entry.map f ⟨id, payload, priority, done, nowMs, 0⟩ =
        ⟨id, payload, priority, f done, nowMs, 0⟩ := rfl
    rw [hentry] at hpush
    rw [hpush, pump_map]
    rfl

theorem setReady_map (ready : Bool) :
    (q.map f).setReady ready nowMs = (q.setReady ready nowMs).map f := by
  have hflag : ({ q.map f with ready := ready } : CommandQueue μ) =
      CommandQueue.map f { q with ready := ready } := rfl
  rw [setReady, setReady, hflag, pump_map, map_ready]
  split <;> rfl

theorem onResponse_map (id : CorrelationId) (data : Bytes) :
    (q.map f).onResponse id data nowMs = (q.onResponse id data nowMs).map f := by
  have hid : (fun e : Entry μ => e.id == id) ∘ Entry.map f = fun e => e.id == id := rfl
  have hfind : (q.map f).inFlight.find? (fun e => e.id == id) =
      (q.inFlight.find? fun e => e.id == id).map (Entry.map f) := by
    rw [← hid]
    exact List.find?_map
  have herase : (q.map f).inFlight.eraseP (fun e => e.id == id) =
      (q.inFlight.eraseP fun e => e.id == id).map (Entry.map f) := by
    rw [← hid]
    exact List.eraseP_map
  rw [onResponse, onResponse, hfind, herase]
  cases q.inFlight.find? fun e => e.id == id with
  | none => rfl
  | some e => rfl

theorem filter_map_entry (l : List (Entry κ)) (p : Entry μ → Bool) (p' : Entry κ → Bool)
    (h : ∀ e, p (e.map f) = p' e) :
    (l.map (Entry.map f)).filter p = (l.filter p').map (Entry.map f) := by
  have hcomp : p ∘ Entry.map f = p' := funext h
  rw [List.filter_map, hcomp]

theorem tick_map : (q.map f).tick nowMs = (q.tick nowMs).map f := by
  have hwrite : ∀ e, (q.map f).writeExpired nowMs (e.map f) = q.writeExpired nowMs e :=
    fun _ => rfl
  have hqueue : ∀ e, (q.map f).queueExpired nowMs (e.map f) = q.queueExpired nowMs e :=
    fun _ => rfl
  have hfilters := fun l p p' => filter_map_entry (μ := μ) f l p p'
  rw [tick, tick, map_inFlight, map_pending, hfilters _ _ (q.writeExpired nowMs) hwrite,
    hfilters _ _ (q.queueExpired nowMs) hqueue,
    hfilters _ _ (fun e => !q.queueExpired nowMs e) fun e => by rw [hqueue],
    hfilters _ _ (fun e => !q.writeExpired nowMs e) fun e => by rw [hwrite]]
  simp only [Activation.map, map, ← List.map_append, List.map_map]
  rfl

theorem cancelAll_map : (q.map f).cancelAll = q.cancelAll.map f := by
  rw [cancelAll, cancelAll, Activation.map]
  simp only [map, ← List.map_append, List.map_map]
  rfl

theorem activate_map (done : κ) (op : QueueOp) :
    (q.map f).activate (f done) op = (q.activate done op).map f := by
  cases op with
  | submit id payload priority nowMs => exact q.submit_map f nowMs id payload priority done
  | setReady ready nowMs => exact q.setReady_map f nowMs ready
  | onResponse id data nowMs => exact q.onResponse_map f nowMs id data
  | tick nowMs => exact q.tick_map f nowMs
  | cancelAll => exact q.cancelAll_map f

end CommandQueue

theorem Activation.run_map (f : κ → μ) (a : Activation κ) :
    (a.map f).run = (a.run.1.map f, a.run.2.map (QueueEvent.map f)) := by
  have hcalls : (a.calls.map (Call.map f)).map QueueEvent.completed =
      (a.calls.map QueueEvent.completed).map (QueueEvent.map f) := by
    rw [List.map_map, List.map_map]
    rfl
  rw [run, run]
  simp only [Activation.map, hcalls]
  cases a.resume with
  | none => simp [CommandQueue.resume]
  | some nowMs => simp [CommandQueue.resume, CommandQueue.pump_map]

end GoproNative
