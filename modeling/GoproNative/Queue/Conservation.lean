import GoproNative.Queue.SingleFlight
import GoproNative.Support.History
import Mathlib.Algebra.Order.Group.Multiset
import Mathlib.Tactic.Abel

/-!
# No completion is lost or duplicated

Every operation conserves submissions: what it accepts and what was
outstanding is what it is about to complete and what is still outstanding.
Along a run the callbacks yet to be made wait on the machine's stack, so the
ledger balances at every moment, and between operations nothing waits.
-/

namespace GoproNative

variable {κ : Type}

/-! ## Reading events -/

def QueueEvent.acceptedDone : QueueEvent κ → Option κ
  | .accepted e => some e.done
  | _ => none

def QueueEvent.refusedDone : QueueEvent κ → Option κ
  | .refused done => some done
  | _ => none

def QueueEvent.completion : QueueEvent κ → Option (Call κ)
  | .completed c => some c
  | _ => none

/-- The callbacks of the accepted submissions, in order. -/
def acceptedDones (evs : List (QueueEvent κ)) : List κ :=
  evs.filterMap QueueEvent.acceptedDone

def refusedDones (evs : List (QueueEvent κ)) : List κ :=
  evs.filterMap QueueEvent.refusedDone

def completions (evs : List (QueueEvent κ)) : List (Call κ) :=
  evs.filterMap QueueEvent.completion

theorem mem_completions {evs : List (QueueEvent κ)} {c : Call κ} :
    c ∈ completions evs ↔ .completed c ∈ evs := by
  rw [completions, List.mem_filterMap]
  constructor
  · rintro ⟨ev, hev, hc⟩
    cases ev with
    | completed c' =>
        simp only [QueueEvent.completion, Option.some.injEq] at hc
        exact hc ▸ hev
    | accepted e => simp [QueueEvent.completion] at hc
    | refused done => simp [QueueEvent.completion] at hc
    | wrote e q => simp [QueueEvent.completion] at hc
  · exact fun hev => ⟨_, hev, rfl⟩

/-- The callbacks that calls other than refusals complete. -/
def settledDones (calls : List (Call κ)) : List κ :=
  (calls.filter fun c => c.outcome != .rejected).map Call.done

def rejectedDones (calls : List (Call κ)) : List κ :=
  (calls.filter fun c => c.outcome == .rejected).map Call.done

@[simp] theorem acceptedDones_append (xs ys : List (QueueEvent κ)) :
    acceptedDones (xs ++ ys) = acceptedDones xs ++ acceptedDones ys :=
  List.filterMap_append

@[simp] theorem acceptedDones_cons_accepted (e : Entry κ) (evs : List (QueueEvent κ)) :
    acceptedDones (.accepted e :: evs) = e.done :: acceptedDones evs := rfl

@[simp] theorem refusedDones_cons_accepted (e : Entry κ) (evs : List (QueueEvent κ)) :
    refusedDones (.accepted e :: evs) = refusedDones evs := rfl

@[simp] theorem refusedDones_append (xs ys : List (QueueEvent κ)) :
    refusedDones (xs ++ ys) = refusedDones xs ++ refusedDones ys :=
  List.filterMap_append

@[simp] theorem completions_append (xs ys : List (QueueEvent κ)) :
    completions (xs ++ ys) = completions xs ++ completions ys :=
  List.filterMap_append

@[simp] theorem settledDones_append (xs ys : List (Call κ)) :
    settledDones (xs ++ ys) = settledDones xs ++ settledDones ys := by
  simp [settledDones]

@[simp] theorem rejectedDones_append (xs ys : List (Call κ)) :
    rejectedDones (xs ++ ys) = rejectedDones xs ++ rejectedDones ys := by
  simp [rejectedDones]

/-- Settled and refused callbacks are all the callbacks of some calls. -/
theorem dones_eq_settled_add_rejected (calls : List (Call κ)) :
    (↑(calls.map Call.done) : Multiset κ) =
      ↑(settledDones calls) + ↑(rejectedDones calls) := by
  have hperm := List.filter_append_perm (fun c : Call κ => c.outcome != .rejected) calls
  rw [Multiset.coe_add, Multiset.coe_eq_coe, settledDones, rejectedDones,
    ← List.map_append]
  refine (hperm.map Call.done).symm.trans ?_
  simp [bne]

theorem onlyWrites_reads {evs : List (QueueEvent κ)}
    (h : ∀ ev ∈ evs, ∃ e q, ev = .wrote e q) :
    acceptedDones evs = [] ∧ refusedDones evs = [] ∧ completions evs = [] := by
  simp only [acceptedDones, refusedDones, completions, List.filterMap_eq_nil_iff]
  refine ⟨?_, ?_, ?_⟩ <;>
  · intro ev hev
    obtain ⟨e, q, rfl⟩ := h ev hev
    rfl

namespace CommandQueue

variable {q : CommandQueue κ}

/-! ## One operation -/

/-- The callbacks of everything outstanding. -/
def dones (q : CommandQueue κ) : List κ := q.outstanding.map Entry.done

theorem pump_dones (q : CommandQueue κ) (nowMs : UInt64) :
    (↑((q.pump nowMs).1.dones) : Multiset κ) = ↑q.dones :=
  Multiset.coe_eq_coe.mpr (pump_outstanding (fun e => e.sent_done nowMs) q)

theorem resume_dones (q : CommandQueue κ) (resume : Option UInt64) :
    (↑((q.resume resume).1.dones) : Multiset κ) = ↑q.dones := by
  cases resume with
  | none => rfl
  | some nowMs => exact pump_dones q nowMs

theorem resume_wrote (q : CommandQueue κ) (resume : Option UInt64) :
    ∀ ev ∈ (q.resume resume).2, ∃ e q', ev = .wrote e q' := by
  cases resume with
  | none => simp [CommandQueue.resume]
  | some nowMs => exact pump_wrote q nowMs

theorem coe_dones (q : CommandQueue κ) :
    (↑q.dones : Multiset κ) =
      ↑(q.pending.map Entry.done) + ↑(q.inFlight.map Entry.done) := by
  simp [dones, outstanding]

theorem map_filter_split (l : List (Entry κ)) (p : Entry κ → Bool) :
    (↑(l.map Entry.done) : Multiset κ) =
      ↑((l.filter p).map Entry.done) + ↑((l.filter fun e => !p e).map Entry.done) := by
  rw [Multiset.coe_add, ← List.map_append, Multiset.coe_eq_coe]
  exact ((List.filter_append_perm p l).map _).symm

theorem settledDones_map (l : List (Entry κ)) {o : Outcome} (ho : o ≠ .rejected) :
    settledDones (l.map fun e => (⟨e.done, o, []⟩ : Call κ)) = l.map Entry.done ∧
      rejectedDones (l.map fun e => (⟨e.done, o, []⟩ : Call κ)) = [] := by
  have hne : (o != .rejected) = true := by simpa using ho
  have heq : (o == .rejected) = false := by simpa using ho
  simp [settledDones, rejectedDones, List.filter_map, Function.comp_def, hne, heq]

/-- An operation conserves submissions: what it accepts and what was
outstanding is what it will settle and what is outstanding then; what it
refuses it will reject. -/
theorem activate_conserves (q : CommandQueue κ) (done : κ) (op : QueueOp) :
    (↑(acceptedDones (q.activate done op).events) + ↑q.dones : Multiset κ) =
        ↑(settledDones (q.activate done op).calls) +
          ↑((q.activate done op).queue.dones) ∧
      refusedDones (q.activate done op).events =
        rejectedDones (q.activate done op).calls ∧
      completions (q.activate done op).events = [] := by
  have hactivates := q.activates done op
  generalize q.activate done op = act at hactivates ⊢
  cases hactivates with
  | refused | shut | unknown => exact ⟨rfl, rfl, rfl⟩
  | accepted id payload priority nowMs e he =>
      obtain ⟨hacc, href, hcomp⟩ := onlyWrites_reads (pump_wrote (q.push e) nowMs)
      have hpush : (↑((q.push e).dones) : Multiset κ) = ↑(e.done :: q.dones) :=
        Multiset.coe_eq_coe.mpr ((q.push_outstanding e).map _)
      have hdone : e.done = done := by rw [he]
      refine ⟨?_, href, hcomp⟩
      rw [acceptedDones_cons_accepted, hacc, pump_dones, hpush, hdone]
      simp [settledDones]
  | opened nowMs =>
      obtain ⟨hacc, href, hcomp⟩ :=
        onlyWrites_reads (pump_wrote { q with ready := true } nowMs)
      refine ⟨?_, href, hcomp⟩
      rw [hacc, pump_dones]
      rfl
  | answered data nowMs e hfind =>
      refine ⟨?_, rfl, rfl⟩
      have hperm := (List.perm_cons_eraseP_of_find? hfind).map Entry.done
      have hmulti : (↑(q.inFlight.map Entry.done) : Multiset κ) = ↑(e.done ::
          (q.inFlight.eraseP fun f => f.id == e.id).map Entry.done) :=
        Multiset.coe_eq_coe.mpr hperm
      simp only [coe_dones, hmulti, acceptedDones, List.filterMap_nil, settledDones]
      simp only [← Multiset.cons_coe, ← Multiset.singleton_add]
      simp only [Multiset.coe_nil, zero_add]
      change _ = ({e.done} : Multiset κ) + _
      abel
  | swept nowMs =>
      simp only [tick]
      obtain ⟨hsettled, hrejected⟩ := settledDones_map
        (q.inFlight.filter (q.writeExpired nowMs) ++
          q.pending.filter (q.queueExpired nowMs)) (o := .timedOut) (by simp)
      refine ⟨?_, hrejected.symm, rfl⟩
      rw [hsettled]
      simp only [coe_dones, acceptedDones, List.filterMap_nil, Multiset.coe_nil,
        zero_add, List.map_append, ← Multiset.coe_add]
      rw [map_filter_split q.pending (q.queueExpired nowMs),
        map_filter_split q.inFlight (q.writeExpired nowMs)]
      abel
  | canceled =>
      simp only [cancelAll]
      obtain ⟨hsettled, hrejected⟩ := settledDones_map (q.inFlight ++ q.pending)
        (o := .canceled) (by simp)
      refine ⟨?_, hrejected.symm, rfl⟩
      rw [hsettled]
      simp only [coe_dones, acceptedDones, List.filterMap_nil, Multiset.coe_nil,
        zero_add, List.map_append, ← Multiset.coe_add, List.map_nil, add_zero]
      abel

end CommandQueue

end GoproNative
