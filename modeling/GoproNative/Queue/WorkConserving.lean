import GoproNative.Queue.Order
import GoproNative.Queue.Settled

/-!
# The pump leaves nothing that could be sent

Only ordinary commands ever wait, so a queue in which nothing pending can be sent
is one whose gate is shut or whose ordinary slot is taken.  Every operation that
pumps leaves the queue so.  The others must find it so: at the top level they do,
and inside a callback they do unless an operation under way has its pump still to
come.  That is the only thing an operation has to know of the ones around it, and
it is what `Steady` says of the frames above a point of the stack.
-/

namespace GoproNative

variable {κ : Type}

namespace CommandQueue

variable {q q' : CommandQueue κ} {nowMs : UInt64}

/-- Nothing pending can be sent: ordinary commands wait, behind a shut gate or
another ordinary command. -/
structure WorkConserving (q : CommandQueue κ) : Prop where
  settled : ∀ e ∈ q.pending, q.canSend e = false
  ordinary : ∀ e ∈ q.pending, e.priority = .queued
  held : q.pending ≠ [] → q.ready = false ∨ ∃ f ∈ q.inFlight, f.priority = .queued

theorem SingleFlight.workConserving (h : q.SingleFlight) (hsettled : q.Settled) :
    q.WorkConserving := by
  refine ⟨hsettled, hsettled.ordinary h, ?_⟩
  intro hpending
  obtain ⟨e, he⟩ := List.exists_mem_of_ne_nil _ hpending
  by_contra hnot
  rw [not_or, Bool.not_eq_false] at hnot
  have hsend : q.canSend e = true := canSend_iff.mpr
    ⟨fun f hf => h.pending_free he hf, fun _ => ⟨hnot.1, fun f hf hprio => hnot.2 ⟨f, hf, hprio⟩⟩⟩
  simp [hsettled e he] at hsend

/-! ## One operation -/

theorem settled_of_shut (hready : q.ready = false)
    (hordinary : ∀ e ∈ q.pending, e.priority = .queued) : q.Settled := by
  intro e he
  by_contra hsend
  rw [Bool.not_eq_false, canSend_iff] at hsend
  have hopen := (hsend.2 (hordinary e he)).1
  simp [hready] at hopen

/-- Only ordinary commands wait at an operation's first callback: what it has
pushed it has pumped. -/
theorem SingleFlight.activate_ordinary (h : q.SingleFlight)
    (hordinary : ∀ e ∈ q.pending, e.priority = .queued) (done : κ) (op : QueueOp) :
    ∀ e ∈ (q.activate done op).queue.pending, e.priority = .queued := by
  have hactivates := q.activates done op
  generalize q.activate done op = act at hactivates ⊢
  cases hactivates with
  | refused | shut | unknown | answered => exact hordinary
  | accepted id payload priority nowMs e he hnew =>
      exact (pump_settled (q.push e) nowMs).ordinary ((h.push hnew).pump nowMs)
  | opened nowMs =>
      have hset : SingleFlight { q with ready := true } := ⟨h.ids, h.ordinary⟩
      exact (pump_settled _ nowMs).ordinary (hset.pump nowMs)
  | swept => exact fun e he => hordinary e (List.mem_of_mem_filter he)
  | canceled => exact fun e he => absurd he List.not_mem_nil

/-- The operation is neither a refused submission nor a reply that nothing in flight
asked for. -/
def Effective (q : CommandQueue κ) : QueueOp → Prop
  | .submit id _ _ _ => id ∉ q.outstanding.map Entry.id
  | .onResponse id _ _ => id ∈ q.inFlight.map Entry.id
  | _ => True

/-- An operation with no pump to come has settled the queue, or found it settled. -/
theorem activate_settled (hordinary : ∀ e ∈ q.pending, e.priority = .queued) (done : κ)
    {op : QueueOp} (h : q.Settled ∨ q.Effective op)
    (hresume : (q.activate done op).resume = none) : (q.activate done op).queue.Settled := by
  have hactivates := q.activates done op
  generalize q.activate done op = act at hactivates hresume ⊢
  cases hactivates with
  | refused id payload priority nowMs hdup => exact h.resolve_right fun hnew => hnew hdup
  | accepted id payload priority nowMs e => exact pump_settled _ nowMs
  | opened nowMs => exact pump_settled _ nowMs
  | shut => exact settled_of_shut rfl hordinary
  | unknown id data nowMs hfree =>
      refine h.resolve_right fun hmem => ?_
      obtain ⟨e, he, hid⟩ := List.mem_map.mp hmem
      exact hfree e he hid
  | answered => simp at hresume
  | swept => simp [tick] at hresume
  | canceled => exact fun e he => absurd he List.not_mem_nil

/-- An operation with a pump to come is effective, and has so far only taken entries
out. -/
theorem activate_of_resume (done : κ) {op : QueueOp}
    (hresume : (q.activate done op).resume = some nowMs) :
    q.Effective op ∧ (q.activate done op).queue.pending.Sublist q.pending := by
  have hactivates := q.activates done op
  generalize q.activate done op = act at hactivates hresume ⊢
  cases hactivates with
  | refused | accepted | opened | shut | unknown => simp at hresume
  | answered data nowMs e hfind =>
      exact ⟨List.mem_map.mpr ⟨e, List.mem_of_find?_eq_some hfind, rfl⟩,
        List.Sublist.refl _⟩
  | swept => exact ⟨trivial, List.filter_sublist⟩
  | canceled => exact ⟨trivial, List.nil_sublist _⟩

/-- Every pass takes one entry out of `pending`, so no more passes are possible than
entries wait. -/
theorem passes_length {evs : List (QueueEvent κ)} (h : (passes nowMs).Run q evs q') :
    evs.length + q'.pending.length = q.pending.length := by
  refine h.history (I := fun evs q₁ => evs.length + q₁.pending.length = q.pending.length)
    (Nat.zero_add _) ?_
  intro evs q₁ ev q₂ hlen hpass
  have hpass' := length_pending_of_pumpPass hpass
  rw [List.length_append, List.length_singleton]
  omega

/-- A submission that is not ordinary, and whose id is free, is written before
`submit` returns. -/
theorem SingleFlight.submit_wrote (h : q.SingleFlight) {id : CorrelationId}
    (hfree : id ∉ q.outstanding.map Entry.id) (payload : Bytes) {priority : Priority}
    (hpriority : priority ≠ .queued) (done : κ) (nowMs : UInt64) :
    ∃ f q', .wrote f q' ∈ (q.submit id payload priority done nowMs).events ∧
      f.id = id ∧ f.payload = payload ∧ f.priority = priority ∧ f.done = done := by
  rcases q.submit_cases id payload priority done nowMs with ⟨hdup, -⟩ | ⟨e, rfl, hnew, heq⟩
  · exact absurd hdup hfree
  · let e : Entry κ := ⟨id, payload, priority, done, nowMs, 0⟩
    have hsettled := (pump_settled (q.push e) nowMs).ordinary ((h.push hnew).pump nowMs)
    have hmem : (id, payload, priority, done) ∈ ((q.push e).pump nowMs).1.outstanding.map
        fun e => (e.id, e.payload, e.priority, e.done) := by
      apply (pump_outstanding (fun _ => rfl) (q.push e)).symm.subset
      apply ((q.push_outstanding e).map _).symm.subset
      exact List.mem_cons_self
    obtain ⟨f, hf, hkey⟩ := List.mem_map.mp hmem
    simp only [Prod.mk.injEq] at hkey
    obtain ⟨hid, hpayload, hprio, hdone⟩ := hkey
    rcases List.mem_append.mp hf with hpending | hflight
    · exact absurd (hprio.symm.trans (hsettled f hpending)) hpriority
    · rcases (pump_inFlight_iff _ nowMs f).mp hflight with hold | ⟨q', hwrote⟩
      · rw [push_inFlight] at hold
        exact absurd (List.mem_map.mpr ⟨f, List.mem_append_right _ hold, hid⟩) hnew
      · refine ⟨f, q', ?_, hid, hpayload, hprio, hdone⟩
        rw [heq]
        exact List.mem_cons_of_mem _ hwrote

/-! ## The command whose turn it is -/

/-- If the submission still waits, it is the first to wait and the ordinary slot is
free. -/
def FirstInLine (t : κ) (q : CommandQueue κ) : Prop :=
  t ∈ ordinaries q.pending →
    (ordinaries q.pending).head? = some t ∧ ∀ f ∈ q.inFlight, f.priority ≠ .queued

/-- The first in line stays so when ordinary commands leave `pending` from the
front, join it at the back and enter flight by being written. -/
theorem FirstInLine.of_sublist {t : κ} (h : FirstInLine t q) {written accepted : List κ}
    (hsub : (written ++ ordinaries q'.pending).Sublist (ordinaries q.pending ++ accepted))
    (hnodup : (ordinaries q.pending ++ accepted).Nodup) (ht : t ∉ accepted)
    (hflight : ∀ f ∈ q'.inFlight, f.priority = .queued →
      f ∈ q.inFlight ∨ f.done ∈ written) : FirstInLine t q' := by
  intro hwaits
  have hmem : t ∈ ordinaries q.pending := by
    have hin := hsub.subset (List.mem_append_right written hwaits)
    exact (List.mem_append.mp hin).resolve_right ht
  obtain ⟨hhead, hclear⟩ := h hmem
  obtain ⟨rest, hrest⟩ : ∃ rest, ordinaries q.pending = t :: rest :=
    List.head?_eq_some_iff.mp hhead
  have hfirst := hsub
  rw [hrest, List.cons_append] at hfirst hnodup
  have hlead := hfirst.head?_of_mem hnodup (List.mem_append_right written hwaits)
  cases written with
  | nil =>
      refine ⟨hlead, ?_⟩
      intro f hf hprio
      rcases hflight f hf hprio with hold | hnew
      · exact hclear f hold hprio
      · exact absurd hnew List.not_mem_nil
  | cons w written =>
      -- Written first, it cannot wait as well.
      simp only [List.cons_append, List.head?_cons, Option.some.injEq] at hlead
      subst hlead
      have honce := hnodup.sublist hfirst
      exact absurd (List.mem_append_right written hwaits) (List.nodup_cons.mp honce).1

theorem firstInLine_of_released (hordinary : ∀ e ∈ q.pending, e.priority = .queued)
    {e : Entry κ} (h : q.released = some e) : FirstInLine e.done q := by
  obtain ⟨⟨es, hpending⟩, -, hclear⟩ := released_eq_some h
  intro _
  have hprio := e.ordinary_of_queued (hordinary e (by simp [hpending]))
  exact ⟨by rw [hpending, ordinaries, List.filterMap_cons_some hprio]; rfl, hclear⟩

theorem mem_writtenOrder {evs : List (QueueEvent κ)} {e : Entry κ} (hev : .wrote e q ∈ evs)
    (hprio : e.priority = .queued) : e.done ∈ writtenOrder evs :=
  List.mem_filterMap.mpr ⟨_, hev, e.ordinary_of_queued hprio⟩

theorem FirstInLine.resume {t : κ} (h : FirstInLine t q) (hsingle : q.SingleFlight)
    (hnodup : q.dones.Nodup) (resume : Option UInt64) :
    FirstInLine t (q.resume resume).1 := by
  cases resume with
  | none => exact h
  | some nowMs =>
      have hsub : (writtenOrder (q.pump nowMs).2 ++ ordinaries (q.pump nowMs).1.pending).Sublist
          (ordinaries q.pending ++ []) := by
        rw [pump_ordinaries hsingle nowMs, List.append_nil]
      refine h.of_sublist hsub ?_ List.not_mem_nil ?_
      · rw [List.append_nil]
        refine hnodup.sublist ((ordinaries_sublist _).trans ?_)
        exact (List.sublist_append_left _ _).map _
      · intro f hf hprio
        refine ((pump_inFlight_iff q nowMs f).mp hf).imp_right ?_
        rintro ⟨q', hwrote⟩
        exact mem_writtenOrder hwrote hprio

theorem FirstInLine.activate {t done : κ} (h : FirstInLine t q) (hsingle : q.SingleFlight)
    (hnodup : q.dones.Nodup) (hfresh : done ∉ q.dones) (hne : t ≠ done) (op : QueueOp) :
    FirstInLine t (q.activate done op).queue := by
  have honly : ∀ x ∈ acceptedOrder (q.activate done op).events, x = done := by
    intro x hx
    have hx' := List.mem_append_left (refusedDones (q.activate done op).events)
      ((acceptedOrder_sublist _).subset hx)
    rcases activate_submits q done op with hnone | hone
    · simp [hnone] at hx'
    · simpa [hone] using hx'
  have hsubmits : (acceptedDones (q.activate done op).events ++
      refusedDones (q.activate done op).events).Nodup := by
    rcases activate_submits q done op with hs | hs <;> simp [hs]
  have honce : (acceptedOrder (q.activate done op).events).Nodup :=
    hsubmits.sublist ((acceptedOrder_sublist _).trans (List.sublist_append_left _ _))
  have hwaiting : (ordinaries q.pending).Sublist q.dones :=
    (ordinaries_sublist _).trans ((List.sublist_append_left _ _).map _)
  refine h.of_sublist (activate_ordinaries hsingle done op) ?_ (fun ht => hne (honly t ht)) ?_
  · rw [List.nodup_append]
    refine ⟨hnodup.sublist hwaiting, honce, ?_⟩
    rintro x hx y hy rfl
    exact hfresh (honly x hy ▸ hwaiting.subset hx)
  · intro f hf hprio
    refine (activate_inFlight q done op f hf).imp_right ?_
    rintro ⟨q', hwrote⟩
    exact mem_writtenOrder hwrote hprio

end CommandQueue

namespace Machine

open CommandQueue

/-! ## From a call to its return -/

/-- A point of the stack: unless one of the frames above it has its pump still to
come, the queue is settled. -/
structure Steady (fs : List Frame) (q : CommandQueue Ticket) : Prop where
  single : q.SingleFlight
  ordinary : ∀ e ∈ q.pending, e.priority = .queued
  settled : (∀ f ∈ fs, f.resume = none) → q.Settled

theorem Steady.begin {m : Machine} {fs : List Frame} (hsingle : m.queue.SingleFlight)
    (hordinary : ∀ e ∈ m.queue.pending, e.priority = .queued) {op : QueueOp}
    (h : (∀ f ∈ fs, f.resume = none) → m.queue.Settled ∨ m.queue.Effective op) :
    Steady (m.frame op :: fs) (m.begin op).queue := by
  refine ⟨(hsingle.activate m.issued op).1, hsingle.activate_ordinary hordinary m.issued op, ?_⟩
  intro hnone
  exact activate_settled hordinary m.issued (h fun f hf => hnone f (List.mem_cons_of_mem _ hf))
    (hnone _ List.mem_cons_self)

theorem Steady.callback {c : Call Ticket} {cs : List (Call Ticket)}
    {resume : Option UInt64} {result : Bool} {fs : List Frame} {q : CommandQueue Ticket}
    (h : Steady (⟨c :: cs, resume, result⟩ :: fs) q) : Steady (⟨cs, resume, result⟩ :: fs) q := by
  refine ⟨h.single, h.ordinary, fun hnone => h.settled ?_⟩
  rw [List.forall_mem_cons] at hnone ⊢
  exact hnone

theorem Steady.resume {resume : Option UInt64} {result : Bool} {fs : List Frame}
    {q : CommandQueue Ticket} (h : Steady (⟨[], resume, result⟩ :: fs) q) :
    Steady fs (q.resume resume).1 := by
  cases resume with
  | none =>
      refine ⟨h.single, h.ordinary, fun hnone => h.settled ?_⟩
      rw [List.forall_mem_cons]
      exact ⟨rfl, hnone⟩
  | some nowMs =>
      have hsettled := pump_settled q nowMs
      have hsingle := h.single.pump nowMs
      exact ⟨hsingle, hsettled.ordinary hsingle, fun _ => hsettled⟩

theorem steady {m : Machine} (h : lts.Reachable m) : Steady m.stack m.queue := by
  refine invariant (I := fun m => Steady m.stack m.queue) ?_ ?_ ?_ h
  · intro opts
    exact ⟨⟨List.nodup_nil, Nat.zero_le _⟩, by simp, fun _ => by simp [Settled]⟩
  · intro m op hI
    exact Steady.begin hI.single hI.ordinary fun hnone => Or.inl (hI.settled hnone)
  · intro m m' hI hstep
    rcases proceed_eq_some hstep with
      ⟨c, cs, resume, result, fs, hstack, rfl⟩ | ⟨resume, result, fs, hstack, rfl⟩
    · rw [hstack] at hI
      exact hI.callback
    · rw [hstack] at hI
      exact hI.resume

/-- Between operations nothing pending can be sent. -/
theorem settled_of_rest {m : Machine} (h : lts.Reachable m) (hrest : m.stack = []) :
    m.queue.Settled :=
  (steady h).settled (by simp [hrest])

theorem Returns.settled {m m' : Machine} {op : QueueOp} {as : List Action}
    (h : m.Returns op as m') (hm : lts.Reachable m)
    (hop : m.stack = [] ∨ m.queue.Settled ∨ m.queue.Effective op) : m'.queue.Settled := by
  have hop' : m.queue.Settled ∨ m.queue.Effective op :=
    hop.elim (fun hrest => Or.inl (settled_of_rest hm hrest)) id
  have hsteady := steady hm
  refine (h.rule (I := fun fs s => Steady fs s.queue) ?_ ?_ ?_ ?_).settled (by simp)
  · exact Steady.begin hsteady.single hsteady.ordinary fun _ => hop'
  · intro f fs s op' _ _ hI
    exact Steady.begin hI.single hI.ordinary fun hnone => Or.inl (hI.settled hnone)
  · intro c cs resume result fs s _ hI
    exact hI.callback
  · intro resume result fs s _ hI
    exact hI.resume

/-- A log only grows. -/
theorem Returns.log {m m' : Machine} {op : QueueOp} {as : List Action}
    (h : m.Returns op as m') : ∃ new, m'.log = m.log ++ new := by
  refine h.rule (I := fun _ s => ∃ new, s.log = m.log ++ new) ?_ ?_ ?_ ?_
  · exact ⟨_, rfl⟩
  · rintro f fs s op' - - ⟨new, hnew⟩
    exact ⟨new ++ _, by rw [Machine.begin, hnew, List.append_assoc]⟩
  · rintro c cs resume result fs s - ⟨new, hnew⟩
    exact ⟨new ++ _, by rw [hnew, List.append_assoc]⟩
  · rintro resume result fs s - ⟨new, hnew⟩
    exact ⟨new ++ _, by rw [hnew, List.append_assoc]⟩

theorem Ledger.dones_nodup {m : Machine} (h : m.Ledger) : m.queue.dones.Nodup := by
  rw [← Multiset.coe_nodup]
  refine Multiset.nodup_of_le ?_ (Multiset.nodup_add.mp h.distinct).1
  rw [h.balanced]
  exact Multiset.le_add_left _ _

theorem Ledger.lt_issued {m : Machine} (h : m.Ledger) {t : Ticket}
    (ht : t ∈ m.queue.dones) : t < m.issued :=
  h.numbered t (List.mem_append_left _ (h.mem_accepted ht))

/-- The callbacks of what is outstanding do not wait to be made. -/
theorem Ledger.not_waiting {m : Machine} (h : m.Ledger) {t : Ticket}
    (ht : t ∈ m.queue.dones) : t ∉ settledDones m.waiting := by
  intro hwaiting
  have hnodup := (Multiset.nodup_add.mp h.distinct).1
  rw [h.balanced] at hnodup
  exact Multiset.disjoint_left.mp (Multiset.nodup_add.mp hnodup).2.2
    (Multiset.mem_add.mpr (Or.inr hwaiting)) ht

/-- What was outstanding at the call is so at the return, or was completed in between. -/
theorem Returns.kept_or_completed {m m' : Machine} {op : QueueOp} {as : List Action}
    {new : List LogEntry} {t : Ticket} (h : m.Returns op as m') (hm : lts.Reachable m)
    (hnew : m'.log = m.log ++ new) (ht : t ∈ m.queue.dones) :
    t ∈ m'.queue.dones ∨ ∃ c, LogEntry.did (.completed c) ∈ new ∧ c.done = t := by
  have hledger := ledger hm
  have haccepted : t ∈ acceptedDones (eventsOf m'.log) := by
    rw [hnew, eventsOf_append, acceptedDones_append]
    exact List.mem_append_left _ (hledger.mem_accepted ht)
  rw [← Multiset.mem_coe, (ledger (h.reachable hm)).balanced, Multiset.mem_add,
    Multiset.mem_add] at haccepted
  rcases haccepted with (hcompleted | hwaiting) | hout
  · right
    obtain ⟨c, hc, hdone⟩ := List.mem_map.mp hcompleted
    have hc' := List.mem_of_mem_filter hc
    rw [hnew, eventsOf_append, completions_append, List.mem_append] at hc'
    rcases hc' with hold | hc'
    · exact absurd hdone (hledger.not_completed ht c hold)
    · exact ⟨c, mem_eventsOf.mp (mem_completions.mp hc'), hdone⟩
  · rw [waiting, h.stack_eq, ← waiting] at hwaiting
    exact absurd hwaiting (hledger.not_waiting ht)
  · exact Or.inl hout

/-- A command that is first in line when the callbacks begin is so until it no longer
waits. -/
theorem Returns.firstInLine {m m' : Machine} {op : QueueOp} {as : List Action} {t : Ticket}
    (h : m.Returns op as m') (hm : lts.Reachable m) (ht : t < m.issued)
    (hfirst : FirstInLine t (m.begin op).queue) : FirstInLine t m'.queue := by
  have hboth := h.rule (I := fun _ s => s.Ledger ∧ s.queue.SingleFlight ∧ t < s.issued ∧
    FirstInLine t s.queue) ?_ ?_ ?_ ?_
  · exact hboth.2.2.2
  · exact ⟨(ledger hm).begin op, ((singleFlight hm).activate m.issued op).1,
      Nat.lt_succ_of_lt ht, hfirst⟩
  · rintro f fs s op' - - ⟨hledger, hsingle, hlt, hI⟩
    refine ⟨hledger.begin op', (hsingle.activate s.issued op').1, Nat.lt_succ_of_lt hlt, ?_⟩
    refine hI.activate hsingle hledger.dones_nodup ?_ (Nat.ne_of_lt hlt) op'
    exact fun hmem => Nat.lt_irrefl _ (hledger.lt_issued hmem)
  · rintro c cs resume result fs s hstack ⟨hledger, hsingle, hlt, hI⟩
    refine ⟨hledger.proceed ?_, hsingle, hlt, hI⟩
    simp [proceed, hstack]
  · rintro resume result fs s hstack ⟨hledger, hsingle, hlt, hI⟩
    refine ⟨hledger.proceed ?_, ?_, hlt, hI.resume hsingle hledger.dones_nodup resume⟩
    · simp [proceed, hstack]
    · cases resume with
      | none => exact hsingle
      | some nowMs => exact hsingle.pump nowMs

/-- What becomes of the command an operation's callbacks find at the head of the
ordinary commands, with the gate open and the slot free: by the return it has been
written, unless the callbacks have completed it or shut the gate. -/
theorem Returns.released {m m' : Machine} {op : QueueOp} {as : List Action}
    {nowMs : UInt64} {e : Entry Ticket} (h : m.Returns op as m') (hm : lts.Reachable m)
    (hresume : (m.queue.activate m.issued op).resume = some nowMs)
    (hreleased : (m.queue.activate m.issued op).queue.released = some e) :
    ∃ new, m'.log = m.log ++ new ∧
      ((∃ f q, LogEntry.did (.wrote f q) ∈ new ∧ f.done = e.done) ∨
        (∃ c, LogEntry.did (.completed c) ∈ new ∧ c.done = e.done) ∨
        m'.queue.ready = false) := by
  obtain ⟨heffective, hfewer⟩ := activate_of_resume m.issued hresume
  obtain ⟨⟨es, hhead⟩, -⟩ := released_eq_some hreleased
  have hpending : e ∈ m.queue.pending := hfewer.subset (hhead ▸ List.mem_cons_self)
  have hdone : e.done ∈ m.queue.dones :=
    List.mem_map_of_mem (List.mem_append_left _ hpending)
  have hsteady := steady hm
  have hm' := h.reachable hm
  have hfirst := h.firstInLine hm ((ledger hm).lt_issued hdone) (firstInLine_of_released
    (hsteady.single.activate_ordinary hsteady.ordinary m.issued op) hreleased)
  have hheld := (singleFlight hm').workConserving (h.settled hm (Or.inr (Or.inr heffective)))
  obtain ⟨new, hnew⟩ := h.log
  refine ⟨new, hnew, ?_⟩
  rcases h.kept_or_completed hm hnew hdone with hout | hcompleted
  · obtain ⟨f, hf, hfdone⟩ := List.mem_map.mp hout
    rcases List.mem_append.mp hf with hfpending | hflight
    · right
      right
      -- Still first in line, it is held by the gate alone.
      have hmem : e.done ∈ ordinaries m'.queue.pending :=
        List.mem_filterMap.mpr ⟨f, hfpending, hfdone ▸
          f.ordinary_of_queued (hheld.ordinary f hfpending)⟩
      refine (hheld.held (List.ne_nil_of_mem hfpending)).resolve_right ?_
      rintro ⟨g, hg, hprio⟩
      exact (hfirst hmem).2 g hg hprio
    · left
      obtain ⟨q, hwrote⟩ := (ledger hm').written f hflight
      have hwrote' := mem_eventsOf.mp hwrote
      rw [hnew, List.mem_append] at hwrote'
      rcases hwrote' with hold | hwrote'
      · exact absurd hfdone (not_written_of_pending hm hpending hold)
      · exact ⟨f, q, hwrote', hfdone⟩
  · exact Or.inr (Or.inl hcompleted)

/-- An operation without callbacks returns at once. -/
theorem returns_at_once (m : Machine) {op : QueueOp}
    (hcalls : (m.queue.activate m.issued op).calls = []) :
    ∃ m' rest, m.Returns op [] m' ∧
      m'.log = m.log ++ (.called m.issued op ::
        (m.queue.activate m.issued op).events.map .did ++ rest) := by
  let a := m.queue.activate m.issued op
  let rest := (a.queue.resume a.resume).2.map LogEntry.did ++ [.returned a.result]
  have hstep : m.step (.call op) = some
      { queue := (a.queue.resume a.resume).1
        stack := m.stack
        issued := m.issued + 1
        log := m.log ++ (.called m.issued op :: a.events.map .did ++ rest) } := by
    simp [step, Machine.begin, proceed, hcalls, a, rest]
  exact ⟨_, rest, ⟨_, hstep, .nil _, rfl⟩, rfl⟩

/-- A fastpass or keep-alive command is on the wire when the submission that accepts
it returns. -/
theorem submit_returns_written {m : Machine} (h : lts.Reachable m) {id : CorrelationId}
    (hfree : id ∉ m.queue.outstanding.map Entry.id) (payload : Bytes) {priority : Priority}
    (hpriority : priority ≠ .queued) (nowMs : UInt64) :
    ∃ m' new f q, m.Returns (.submit id payload priority nowMs) [] m' ∧
      m'.log = m.log ++ new ∧ LogEntry.did (.wrote f q) ∈ new ∧ f.id = id ∧
      f.payload = payload ∧ f.priority = priority ∧ f.done = m.issued := by
  obtain ⟨f, q, hwrote, hf⟩ :=
    (singleFlight h).submit_wrote hfree payload hpriority m.issued nowMs
  have hcalls : (m.queue.activate m.issued (.submit id payload priority nowMs)).calls = [] := by
    simp only [activate]
    rcases m.queue.submit_cases id payload priority m.issued nowMs with
      ⟨hdup, -⟩ | ⟨e, -, -, heq⟩
    · exact absurd hdup hfree
    · rw [heq]
  obtain ⟨m', rest, hreturns, hlog⟩ := m.returns_at_once hcalls
  refine ⟨m', _, f, q, hreturns, hlog, ?_, hf⟩
  exact List.mem_append_left _ (List.mem_cons_of_mem _ (List.mem_map_of_mem hwrote))

/-- Opening the gate writes the command that waits first, if the slot is free. -/
theorem setReady_returns_written {m : Machine} (h : lts.Reachable m) {nowMs : UInt64}
    {e : Entry Ticket} (hreleased : released { m.queue with ready := true } = some e) :
    ∃ m' new q, m.Returns (.setReady true nowMs) [] m' ∧ m'.log = m.log ++ new ∧
      LogEntry.did (.wrote (e.sent nowMs) q) ∈ new := by
  have hcalls : (m.queue.activate m.issued (.setReady true nowMs)).calls = [] := rfl
  obtain ⟨m', rest, hreturns, hlog⟩ := m.returns_at_once hcalls
  rcases pump_of_ordinary (q := { m.queue with ready := true }) nowMs (singleFlight h).ids
      (steady h).ordinary with ⟨hnone, -⟩ | ⟨e', es, hsome, -, hpump⟩
  · simp [hnone] at hreleased
  · rw [hsome, Option.some.injEq] at hreleased
    subst hreleased
    obtain ⟨q, hwrote⟩ : ∃ q,
        .wrote (e'.sent nowMs) q ∈ (pump { m.queue with ready := true } nowMs).2 := by
      rw [hpump]
      exact ⟨_, List.mem_singleton_self _⟩
    refine ⟨m', _, q, hreturns, hlog, ?_⟩
    exact List.mem_append_left _ (List.mem_cons_of_mem _ (List.mem_map_of_mem hwrote))

/-- The pump is work-conserving and terminates, over every run, callbacks that call the
queue again included.  When an operation returns, nothing pending can be sent: ordinary
commands wait, behind a shut gate or an ordinary command in flight.  The exception is
a submission refused, or a reply nothing in flight asked for, inside a callback that
found the queue unsettled: both leave the queue to the pump still to come.  A fastpass
or keep-alive command is written before the submission that accepts it returns; a gate
opening, a reply or a timeout that frees the ordinary slot has the command that waits
first written before it returns, unless its callbacks complete that command or shut
the gate.  No more passes of the pump are possible than entries wait, and the pump
ends where none is. -/
theorem work_conserving {m : Machine} (h : lts.Reachable m) :
    (∀ op as m', m.Returns op as m' →
      (m.stack = [] ∨ m.queue.Settled ∨ m.queue.Effective op) → m'.queue.WorkConserving) ∧
    (∀ op as m', m.Returns op as m' → ∀ e ∈ m'.queue.pending, e.priority = .queued) ∧
    (∀ id payload priority nowMs, priority ≠ .queued →
      id ∉ m.queue.outstanding.map Entry.id →
      ∃ m' new f q, m.Returns (.submit id payload priority nowMs) [] m' ∧
        m'.log = m.log ++ new ∧ LogEntry.did (.wrote f q) ∈ new ∧ f.id = id ∧
        f.payload = payload ∧ f.priority = priority ∧ f.done = m.issued) ∧
    (∀ nowMs e, released { m.queue with ready := true } = some e →
      ∃ m' new q, m.Returns (.setReady true nowMs) [] m' ∧ m'.log = m.log ++ new ∧
        LogEntry.did (.wrote (e.sent nowMs) q) ∈ new) ∧
    (∀ op as m' nowMs e, m.Returns op as m' →
      (m.queue.activate m.issued op).resume = some nowMs →
      (m.queue.activate m.issued op).queue.released = some e →
      ∃ new, m'.log = m.log ++ new ∧
        ((∃ f q, LogEntry.did (.wrote f q) ∈ new ∧ f.done = e.done) ∨
          (∃ c, LogEntry.did (.completed c) ∈ new ∧ c.done = e.done) ∨
          m'.queue.ready = false)) ∧
    ∀ (q : CommandQueue Ticket) nowMs,
      (∀ evs q', (passes nowMs).Run q evs q' → evs.length ≤ q.pending.length) ∧
      (passes nowMs).Run q (q.pump nowMs).2 (q.pump nowMs).1 ∧
      (q.pump nowMs).1.pumpPass nowMs = none := by
  refine ⟨?_, ?_, ?_, ?_, ?_, ?_⟩
  · intro op as m' hreturns hop
    exact (singleFlight (hreturns.reachable h)).workConserving (hreturns.settled h hop)
  · intro op as m' hreturns
    exact (steady (hreturns.reachable h)).ordinary
  · intro id payload priority nowMs hpriority hfree
    exact submit_returns_written h hfree payload hpriority nowMs
  · intro nowMs e hreleased
    exact setReady_returns_written h hreleased
  · intro op as m' nowMs e hreturns hresume hreleased
    exact hreturns.released h hresume hreleased
  · intro q nowMs
    refine ⟨?_, q.pump_run nowMs, pumpPass_eq_none_iff.mpr (q.pump_stuck nowMs)⟩
    intro evs q' hrun
    have hlen := passes_length hrun
    omega

/-- One ordinary command in flight and one behind it. -/
def occupiedRun : List Action :=
  [.call (.setReady true 0), .call (.submit 1 [1, 1] .queued 10),
    .call (.submit 2 [1, 2] .queued 20)]

/-- The reply to the first frees the slot, and the call that brings it writes the
second. -/
theorem work_conserving_reply :
    ∃ m as m', lts.Reachable m ∧ m.Returns (.onResponse 1 [1, 0] 30) as m' ∧
      m'.queue.inFlight.map Entry.id = [2] ∧ m'.queue.WorkConserving := by
  obtain ⟨m, m₁, m', hm, hrest, hcall, hdeeper, hret, hstack, hids⟩ : ∃ m m₁ m',
      Lts.exec step { queue := { opts := {} } } occupiedRun = some m ∧ m.stack = [] ∧
      m.step (.call (.onResponse 1 [1, 0] 30)) = some m₁ ∧
      m.stack.length < m₁.stack.length ∧ m₁.step .ret = some m' ∧ m'.stack = m.stack ∧
      m'.queue.inFlight.map Entry.id = [2] :=
    ⟨_, _, _, rfl, rfl, rfl, by decide, rfl, rfl, rfl⟩
  have hreach : lts.Reachable m := Lts.reachable_of_exec ⟨_, rfl⟩ hm
  have hreturns : m.Returns (.onResponse 1 [1, 0] 30) [.ret] m' :=
    ⟨m₁, hcall, .cons ⟨hret, hdeeper⟩ (.nil m'), hstack⟩
  exact ⟨m, [.ret], m', hreach, hreturns, hids,
    (work_conserving hreach).1 _ _ _ hreturns (Or.inl hrest)⟩

/-- Inside the callback of that reply, a reply that answers nothing returns and leaves
the second command pending, although the slot is free and the gate is open. -/
theorem not_work_conserving_inside_callback :
    ¬ ∀ m, lts.Reachable m → ∀ op as m', m.Returns op as m' →
      ∀ e ∈ m'.queue.pending, m'.queue.canSend e = false := by
  obtain ⟨m, m', e, f, hm, hrest, hstep, hrest', hpending, hsend⟩ : ∃ m m' e f,
      Lts.exec step { queue := { opts := {} } }
        (occupiedRun ++ [.call (.onResponse 1 [1, 0] 30)]) = some m ∧ m.stack = [f] ∧
      m.step (.call (.onResponse 99 [1, 0] 31)) = some m' ∧ m'.stack = [f] ∧
      m'.queue.pending = [e] ∧ m'.queue.canSend e = true :=
    ⟨_, _, _, _, rfl, rfl, rfl, rfl, rfl, rfl⟩
  have hstack : m'.stack = m.stack := hrest'.trans hrest.symm
  have hreach : lts.Reachable m := Lts.reachable_of_exec ⟨_, rfl⟩ hm
  intro hall
  have hblocked := hall m hreach _ [] m' ⟨m', hstep, .nil m', hstack⟩ e
    (by simp [hpending])
  simp [hsend] at hblocked

end Machine

end GoproNative
