import GoproNative.Queue.Definitions
import GoproNative.Support.FirstMatch
import GoproNative.Support.Transition

/-!
# The pump

A pass of the pump is inverted once, in `pumpPass_eq_some`.  The pump is a run
of passes that ends where no pass is possible, so what every pass preserves the
pump preserves, and what every pass writes the pump writes.

An operation up to its first callback is inverted once too, in `activates`.
-/

namespace GoproNative

variable {κ : Type}

/-- The entry as it is once written. -/
def Entry.sent (e : Entry κ) (nowMs : UInt64) : Entry κ :=
  { e with sentAtMs := nowMs }

@[simp] theorem Entry.sent_id (e : Entry κ) (nowMs : UInt64) :
    (e.sent nowMs).id = e.id := rfl

@[simp] theorem Entry.sent_priority (e : Entry κ) (nowMs : UInt64) :
    (e.sent nowMs).priority = e.priority := rfl

@[simp] theorem Entry.sent_done (e : Entry κ) (nowMs : UInt64) :
    (e.sent nowMs).done = e.done := rfl

namespace CommandQueue

variable {q q' : CommandQueue κ} {nowMs : UInt64} {ev : QueueEvent κ}

theorem isInFlight_iff {id : CorrelationId} :
    q.isInFlight id = true ↔ ∃ e ∈ q.inFlight, e.id = id := by
  simp [isInFlight]

/-- What `canSend` demands: the id is free, and an ordinary command needs the
gate open and no other ordinary command in flight. -/
theorem canSend_iff {e : Entry κ} :
    q.canSend e = true ↔
      (∀ f ∈ q.inFlight, f.id ≠ e.id) ∧
        (e.priority = .queued →
          q.ready = true ∧ ∀ f ∈ q.inFlight, f.priority ≠ .queued) := by
  unfold canSend
  by_cases hid : q.isInFlight e.id = true
  · obtain ⟨f, hf, hfid⟩ := isInFlight_iff.mp hid
    simp only [hid, if_true, Bool.false_eq_true, false_iff]
    exact fun h => h.1 f hf hfid
  · have hfree : ∀ f ∈ q.inFlight, f.id ≠ e.id := by
      intro f hf hfid
      exact hid (isInFlight_iff.mpr ⟨f, hf, hfid⟩)
    rw [if_neg hid, and_iff_right hfree]
    cases e.priority with
    | queued => cases q.ready <;> simp
    | fastpass => simp
    | keepAlive => simp

/-! ## One pass -/

theorem pumpPass_eq_none_iff :
    q.pumpPass nowMs = none ↔ ∀ e ∈ q.pending, q.canSend e = false := by
  unfold pumpPass
  cases hfind : q.pending.find? q.canSend with
  | none => simpa using List.find?_eq_none.mp hfind
  | some e =>
      have hmem := List.mem_of_find?_eq_some hfind
      have hsend : q.canSend e = true := List.find?_some hfind
      simp only [reduceCtorEq, false_iff]
      intro hall
      simp [hall e hmem] at hsend

/-- Everything a pass does: the first sendable entry leaves `pending` for the
end of `inFlight`, stamped with the time, and is written. -/
theorem pumpPass_eq_some (h : q.pumpPass nowMs = some (ev, q')) :
    ∃ e as bs, q.pending = as ++ e :: bs ∧ q.canSend e = true ∧
      (∀ x ∈ as, q.canSend x = false) ∧
      q' = { q with
        pending := as ++ bs, inFlight := q.inFlight ++ [e.sent nowMs] } ∧
      ev = .wrote (e.sent nowMs) q' := by
  unfold pumpPass at h
  cases hfind : q.pending.find? q.canSend with
  | none => simp [hfind] at h
  | some e =>
      obtain ⟨hsend, as, bs, hpending, herase, has⟩ := List.find?_eraseP_split hfind
      simp only [hfind, herase, send, Option.some.injEq, Prod.mk.injEq] at h
      obtain ⟨rfl, rfl⟩ := h
      exact ⟨e, as, bs, hpending, hsend, has, rfl, rfl⟩

theorem length_pending_of_pumpPass (h : q.pumpPass nowMs = some (ev, q')) :
    q'.pending.length + 1 = q.pending.length := by
  obtain ⟨e, as, bs, hpending, -, -, rfl, -⟩ := pumpPass_eq_some h
  simp only [hpending, List.length_append, List.length_cons]
  omega

/-! ## The loop -/

/-- The passes of the pump as a transition system, labelled by their writes. -/
def passes (nowMs : UInt64) : Lts (CommandQueue κ) (QueueEvent κ) where
  start _ := True
  step q ev q' := q.pumpPass nowMs = some (ev, q')

theorem pumpLoop_run (fuel : Nat) (q : CommandQueue κ) :
    (passes nowMs).Run q (pumpLoop nowMs fuel q).2 (pumpLoop nowMs fuel q).1 := by
  induction fuel generalizing q with
  | zero => exact .nil q
  | succ fuel ih =>
      rw [pumpLoop]
      cases hpass : q.pumpPass nowMs with
      | none => exact .nil q
      | some r =>
          obtain ⟨ev, q'⟩ := r
          exact .cons hpass (ih q')

theorem pump_run (q : CommandQueue κ) (nowMs : UInt64) :
    (passes nowMs).Run q (q.pump nowMs).2 (q.pump nowMs).1 :=
  pumpLoop_run q.pending.length q

theorem pumpLoop_stuck (fuel : Nat) (q : CommandQueue κ)
    (hfuel : q.pending.length ≤ fuel) :
    (pumpLoop nowMs fuel q).1.pumpPass nowMs = none := by
  induction fuel generalizing q with
  | zero =>
      have hnil : q.pending = [] := List.length_eq_zero_iff.mp (by omega)
      rw [pumpLoop, pumpPass_eq_none_iff]
      simp [hnil]
  | succ fuel ih =>
      rw [pumpLoop]
      cases hpass : q.pumpPass nowMs with
      | none => exact hpass
      | some r =>
          obtain ⟨ev, q'⟩ := r
          have hlen := length_pending_of_pumpPass hpass
          exact ih q' (by omega)

/-- The pump stops only where nothing pending can be sent. -/
theorem pump_stuck (q : CommandQueue κ) (nowMs : UInt64) :
    ∀ e ∈ (q.pump nowMs).1.pending, (q.pump nowMs).1.canSend e = false :=
  pumpPass_eq_none_iff.mp (pumpLoop_stuck q.pending.length q (Nat.le_refl _))

/-- What every pass preserves, the pump preserves. -/
theorem pump_invariant {I : CommandQueue κ → Prop} (h : I q)
    (hpass : ∀ q ev q', I q → q.pumpPass nowMs = some (ev, q') → I q') :
    I (q.pump nowMs).1 :=
  (pump_run q nowMs).invariant h hpass

/-- What every pass from an `I`-state says of its write, the pump says of all
of its writes. -/
theorem pump_events {I : CommandQueue κ → Prop} {E : QueueEvent κ → Prop} (h : I q)
    (hpass : ∀ q ev q', I q → q.pumpPass nowMs = some (ev, q') → I q' ∧ E ev) :
    ∀ ev ∈ (q.pump nowMs).2, E ev := by
  exact ((pump_run q nowMs).labels (I := I) (Q := E) h
    fun q ev q' hI hstep => hpass q ev q' hI hstep).2

theorem pump_ready (q : CommandQueue κ) (nowMs : UInt64) :
    (q.pump nowMs).1.ready = q.ready := by
  apply pump_invariant (I := fun q' => q'.ready = q.ready) rfl
  intro q₁ ev q₂ h hpass
  obtain ⟨e, as, bs, -, -, -, rfl, -⟩ := pumpPass_eq_some hpass
  exact h

theorem pump_opts (q : CommandQueue κ) (nowMs : UInt64) :
    (q.pump nowMs).1.opts = q.opts := by
  apply pump_invariant (I := fun q' => q'.opts = q.opts) rfl
  intro q₁ ev q₂ h hpass
  obtain ⟨e, as, bs, -, -, -, rfl, -⟩ := pumpPass_eq_some hpass
  exact h

/-- The pump only writes. -/
theorem pump_wrote (q : CommandQueue κ) (nowMs : UInt64) :
    ∀ ev ∈ (q.pump nowMs).2, ∃ e q', ev = .wrote e q' := by
  refine pump_events (I := fun _ => True) (E := fun ev => ∃ e q', ev = .wrote e q')
    trivial ?_
  intro q₁ ev q₂ _ hpass
  obtain ⟨e, as, bs, -, -, -, -, rfl⟩ := pumpPass_eq_some hpass
  exact ⟨trivial, _, _, rfl⟩

/-! ## What is outstanding -/

/-- Everything accepted and not completed. -/
def outstanding (q : CommandQueue κ) : List (Entry κ) := q.pending ++ q.inFlight

@[simp] theorem push_ready (q : CommandQueue κ) (e : Entry κ) :
    (q.push e).ready = q.ready := by
  unfold push
  split <;> rfl

@[simp] theorem push_inFlight (q : CommandQueue κ) (e : Entry κ) :
    (q.push e).inFlight = q.inFlight := by
  unfold push
  split <;> rfl

theorem canSend_push (q : CommandQueue κ) (e f : Entry κ) :
    (q.push e).canSend f = q.canSend f := by
  rw [Bool.eq_iff_iff, canSend_iff, canSend_iff, push_inFlight, push_ready]

theorem push_pending (q : CommandQueue κ) (e : Entry κ) :
    (q.push e).pending.Perm (e :: q.pending) := by
  unfold push
  split
  · exact List.Perm.refl _
  · exact List.perm_append_singleton _ _

theorem push_outstanding (q : CommandQueue κ) (e : Entry κ) :
    (q.push e).outstanding.Perm (e :: q.outstanding) := by
  rw [outstanding, push_inFlight, outstanding, ← List.cons_append]
  exact (q.push_pending e).append_right _

/-- The two ways `submit` goes. -/
theorem submit_cases (q : CommandQueue κ) (id : CorrelationId) (payload : Bytes)
    (priority : Priority) (done : κ) (nowMs : UInt64) :
    (id ∈ q.outstanding.map Entry.id ∧
      q.submit id payload priority done nowMs =
        { queue := q
          events := [.refused done]
          calls := [⟨done, .rejected, []⟩]
          result := false }) ∨
    ∃ e : Entry κ, e = ⟨id, payload, priority, done, nowMs, 0⟩ ∧
      e.id ∉ q.outstanding.map Entry.id ∧
      q.submit id payload priority done nowMs =
        { queue := ((q.push e).pump nowMs).1
          events := .accepted e :: ((q.push e).pump nowMs).2 } := by
  have hdup : (q.isInFlight id || q.pending.any fun e => e.id == id) = true ↔
      id ∈ q.outstanding.map Entry.id := by
    simp only [Bool.or_eq_true, isInFlight_iff, List.any_eq_true, beq_iff_eq,
      outstanding, List.map_append, List.mem_append, List.mem_map]
    exact or_comm
  unfold submit
  by_cases h : (q.isInFlight id || q.pending.any fun e => e.id == id) = true
  · left
    exact ⟨hdup.mp h, if_pos h⟩
  · right
    exact ⟨_, rfl, fun hmem => h (hdup.mpr hmem), if_neg h⟩

/-- Everything an operation does up to its first callback, guards included. -/
inductive Activates (q : CommandQueue κ) (done : κ) : QueueOp → Activation κ → Prop
  | refused (id : CorrelationId) (payload : Bytes) (priority : Priority) (nowMs : UInt64)
      (hdup : id ∈ q.outstanding.map Entry.id) :
      Activates q done (.submit id payload priority nowMs)
        { queue := q
          events := [.refused done]
          calls := [⟨done, .rejected, []⟩]
          result := false }
  | accepted (id : CorrelationId) (payload : Bytes) (priority : Priority) (nowMs : UInt64)
      (e : Entry κ) (he : e = ⟨id, payload, priority, done, nowMs, 0⟩)
      (hnew : e.id ∉ q.outstanding.map Entry.id) :
      Activates q done (.submit id payload priority nowMs)
        { queue := ((q.push e).pump nowMs).1
          events := .accepted e :: ((q.push e).pump nowMs).2 }
  | opened (nowMs : UInt64) :
      Activates q done (.setReady true nowMs)
        { queue := (pump { q with ready := true } nowMs).1
          events := (pump { q with ready := true } nowMs).2 }
  | shut (nowMs : UInt64) :
      Activates q done (.setReady false nowMs) { queue := { q with ready := false } }
  | unknown (id : CorrelationId) (data : Bytes) (nowMs : UInt64)
      (hfree : ∀ e ∈ q.inFlight, e.id ≠ id) :
      Activates q done (.onResponse id data nowMs) { queue := q, result := false }
  | answered (data : Bytes) (nowMs : UInt64) (e : Entry κ)
      (hfind : q.inFlight.find? (fun f => f.id == e.id) = some e) :
      Activates q done (.onResponse e.id data nowMs)
        { queue := { q with inFlight := q.inFlight.eraseP fun f => f.id == e.id }
          calls := [⟨e.done, .responded, data⟩]
          resume := some nowMs }
  | swept (nowMs : UInt64) : Activates q done (.tick nowMs) (q.tick nowMs)
  | canceled : Activates q done .cancelAll q.cancelAll

theorem activates (q : CommandQueue κ) (done : κ) (op : QueueOp) :
    q.Activates done op (q.activate done op) := by
  cases op with
  | submit id payload priority nowMs =>
      simp only [activate]
      rcases q.submit_cases id payload priority done nowMs with
        ⟨hdup, hrefused⟩ | ⟨e, he, hnew, haccepted⟩
      · rw [hrefused]
        exact .refused id payload priority nowMs hdup
      · rw [haccepted]
        exact .accepted id payload priority nowMs e he hnew
  | setReady ready nowMs =>
      cases ready with
      | true => exact .opened nowMs
      | false => exact .shut nowMs
  | onResponse id data nowMs =>
      simp only [activate, onResponse]
      split
      · next hfind =>
        exact .unknown id data nowMs (by simpa using List.find?_eq_none.mp hfind)
      · next e hfind =>
        have hid : e.id = id := by simpa using List.find?_some hfind
        subst hid
        exact .answered data nowMs e hfind
  | tick nowMs => exact .swept nowMs
  | cancelAll => exact .canceled

/-- A pass moves an entry and loses none: whatever does not depend on the time
of writing keeps its multiset. -/
theorem pumpPass_outstanding {β : Type*} {f : Entry κ → β}
    (hf : ∀ e, f (e.sent nowMs) = f e) (h : q.pumpPass nowMs = some (ev, q')) :
    (q'.outstanding.map f).Perm (q.outstanding.map f) := by
  obtain ⟨e, as, bs, hpending, -, -, rfl, -⟩ := pumpPass_eq_some h
  simp only [outstanding, hpending, List.map_append, List.map_cons, List.map_nil, hf]
  have hlast : (as.map f ++ bs.map f ++ (q.inFlight.map f ++ [f e])).Perm
      (f e :: (as.map f ++ bs.map f ++ q.inFlight.map f)) := by
    rw [← List.append_assoc]
    exact List.perm_append_singleton _ _
  refine hlast.trans ?_
  rw [List.append_assoc, List.append_assoc, List.cons_append]
  exact List.perm_middle.symm

theorem pump_outstanding {β : Type*} {f : Entry κ → β}
    (hf : ∀ e, f (e.sent nowMs) = f e) (q : CommandQueue κ) :
    ((q.pump nowMs).1.outstanding.map f).Perm (q.outstanding.map f) := by
  apply pump_invariant (I := fun q' => (q'.outstanding.map f).Perm (q.outstanding.map f))
    (List.Perm.refl _)
  intro q₁ ev q₂ h hpass
  exact (pumpPass_outstanding hf hpass).trans h

end CommandQueue

end GoproNative
