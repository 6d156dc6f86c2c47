import GoproNative.Camera.Lifetime
import GoproNative.Camera.Replies
import Mathlib.Algebra.Order.Group.Multiset

/-!
# Every future is kept or completed

The futures that a camera gave out are those that it completed and those in its table.  A
future in the table is completed by `_onEvent` or by `_resolvePending`, which take it out.
-/

namespace GoproNative

/-- The future that an event gives out. -/
def CameraEvent.given : CameraEvent → Option Completer
  | sent f => some f
  | _ => none

/-- The future that an event completes. -/
def CameraEvent.completed : CameraEvent → Option Completer
  | answered f _ _ => some f
  | resolved f _ => some f
  | _ => none

namespace Camera

variable {c c' d : Camera} {evs : List CameraEvent}
  {labels : List (CameraOp × List CameraEvent)}

/-- The futures in the table. -/
def held (c : Camera) : Multiset Completer := ↑(c.pending.entries.map Sigma.snd)

def givenBy (evs : List CameraEvent) : Multiset Completer := ↑(evs.filterMap CameraEvent.given)

def completedBy (evs : List CameraEvent) : Multiset Completer :=
  ↑(evs.filterMap CameraEvent.completed)

/-- What a turn gives out, or was held before it, it completes or holds behind it; and what
it gives out bears a number that was not given before. -/
structure Settles (c : Camera) (evs : List CameraEvent) (c' : Camera) : Prop where
  balanced : c.held + givenBy evs = completedBy evs + c'.held
  fresh : givenBy evs = 0 ∨ (c.state = .up ∧ givenBy evs = {⟨c.session.submissions⟩} ∧
    c.session.submissions < c'.session.submissions)

theorem givenBy_append (evs evs' : List CameraEvent) :
    givenBy (evs ++ evs') = givenBy evs + givenBy evs' := by
  rw [givenBy, List.filterMap_append, ← Multiset.coe_add]
  rfl

theorem completedBy_append (evs evs' : List CameraEvent) :
    completedBy (evs ++ evs') = completedBy evs + completedBy evs' := by
  rw [completedBy, List.filterMap_append, ← Multiset.coe_add]
  rfl

/-! ## The table -/

theorem held_congr (h : c'.pending = c.pending) : c'.held = c.held := by
  rw [held, held, h]

theorem held_of_empty (h : c.pending = ∅) : c.held = 0 := by
  rw [held, h]
  rfl

theorem held_insert {id : DartInt} {f : Completer} (hnew : id ∉ c.pending)
    (h : c'.pending = c.pending.insert id f) : c'.held = c.held + {f} := by
  rw [held, h, AList.entries_insert_of_notMem hnew, List.map_cons, ← Multiset.cons_coe,
    ← Multiset.singleton_add, add_comm]
  rfl

theorem mem_held {f : Completer} : f ∈ c.held ↔ ∃ id, c.pending.lookup id = some f := by
  rw [held, Multiset.mem_coe, List.mem_map]
  constructor
  · rintro ⟨⟨id, g⟩, hmem, rfl⟩
    exact ⟨id, AList.mem_lookup_iff.mpr hmem⟩
  · rintro ⟨id, hlookup⟩
    exact ⟨⟨id, f⟩, AList.mem_lookup_iff.mp hlookup, rfl⟩

theorem held_erase {id : DartInt} {f : Completer} (hf : c.pending.lookup id = some f)
    (h : c'.pending = c.pending.erase id) : c.held = {f} + c'.held := by
  have hmem : (⟨id, f⟩ : Sigma fun _ : DartInt => Completer) ∈ c.pending.entries :=
    AList.mem_lookup_iff.mp hf
  obtain ⟨g, before, after, -, hsplit, herased⟩ :=
    List.exists_of_kerase (List.mem_keys_of_mem hmem)
  have hg : c.pending.lookup id = some g :=
    AList.mem_lookup_iff.mpr (by rw [hsplit]; simp)
  obtain rfl := Option.some.inj (hf.symm.trans hg)
  have herase : (c.pending.erase id).entries = before ++ after := herased
  rw [held, held, h, herase, hsplit, List.map_append, List.map_append, List.map_cons,
    ← Multiset.coe_add, ← Multiset.coe_add, ← Multiset.cons_coe, ← Multiset.singleton_add]
  exact add_left_comm _ _ _

/-! ## Turns -/

theorem Settles.congr {d' : Camera} (h : d.Settles evs d') (hpending : c.pending = d.pending)
    (hstate : c.state = d.state) (hsession : c.session = d.session)
    (hpending' : c'.pending = d'.pending) (hsession' : c'.session = d'.session) :
    c.Settles evs c' := by
  refine ⟨?_, ?_⟩
  · rw [held_congr hpending, held_congr hpending']
    exact h.balanced
  · rw [hstate, hsession, hsession']
    exact h.fresh

theorem Gives.settles {id : DartInt} {result : Except DartError Completer}
    (h : c.Gives id result c') : c.Settles [gave result] c' := by
  rcases h with ⟨rfl, hup, hnew, henters, hlt⟩ | ⟨⟨e, rfl⟩, hsame⟩
  · refine ⟨?_, Or.inr ⟨hup, rfl, hlt⟩⟩
    rw [held_insert hnew henters]
    exact (zero_add _).symm
  · refine ⟨?_, Or.inl rfl⟩
    rw [held_congr hsame]
    exact add_comm _ _

theorem Gives.pending_of_error {id : DartInt} {e : DartError} (h : c.Gives id (.error e) c') :
    c'.pending = c.pending := by
  rcases h with ⟨herror, -⟩ | ⟨-, hsame⟩
  · simp at herror
  · exact hsame

/-- The events give no future out and complete none. -/
def Silent (evs : List CameraEvent) : Prop :=
  ∀ ev ∈ evs, ev.given = none ∧ ev.completed = none

theorem Silent.settles (h : Silent evs) (hsame : c'.pending = c.pending) :
    c.Settles evs c' := by
  have hgiven : givenBy evs = 0 := by
    rw [givenBy, List.filterMap_eq_nil_iff.mpr fun ev hev => (h ev hev).1]
    rfl
  have hcompleted : completedBy evs = 0 := by
    rw [completedBy, List.filterMap_eq_nil_iff.mpr fun ev hev => (h ev hev).2]
    rfl
  refine ⟨?_, Or.inl hgiven⟩
  rw [hgiven, hcompleted, held_congr hsame, add_comm]

theorem silent_nil : Silent [] := by
  intro ev hev
  exact absurd hev List.not_mem_nil

theorem Silent.append {evs' : List CameraEvent} (h : Silent evs) (h' : Silent evs') :
    Silent (evs ++ evs') := by
  intro ev hev
  rcases List.mem_append.mp hev with hev | hev
  · exact h ev hev
  · exact h' ev hev

theorem silent_singleton {ev : CameraEvent} (hgiven : ev.given = none)
    (hcompleted : ev.completed = none) : Silent [ev] := by
  intro ev' hev
  obtain rfl := List.mem_singleton.mp hev
  exact ⟨hgiven, hcompleted⟩

theorem add_silent (c : Camera) (stream : CameraStream) {ev : CameraEvent}
    (hgiven : ev.given = none) (hcompleted : ev.completed = none) :
    Silent (c.add stream ev) := by
  rw [add]
  split
  · exact silent_nil
  · exact silent_singleton hgiven hcompleted

theorem setState_silent (c : Camera) (next : CameraLink) : Silent (c.setState next).2 := by
  rw [setState]
  split
  · exact silent_nil
  · exact add_silent c .linkChanges rfl rfl

theorem close_silent (c : Camera) : Silent c.close.2 := by
  rw [close]
  split
  · exact silent_nil
  · simp only
    split
    · exact setState_silent c .down
    · exact setState_silent c .down

theorem onDrop_silent (c : Camera) (why : String) : Silent (c.onDrop why).2 := by
  rw [onDrop]
  split
  · exact silent_nil
  · split
    · exact (silent_singleton rfl rfl).append (close_silent c)
    · exact (setState_silent c .reconnecting).append (silent_singleton rfl rfl)

theorem giveUp_silent (c : Camera) (e : DartError) : Silent (c.giveUp e).2 :=
  (add_silent c .faults rfl rfl).append (close_silent _)

/-- `_resolvePending` completes what is in the table. -/
theorem resolvePending_settles (c : Camera) (h : c'.pending = ∅) :
    c.Settles c.resolvePending.2 c' := by
  have hgiven : givenBy c.resolvePending.2 = 0 := by
    rw [givenBy, List.filterMap_eq_nil_iff.mpr]
    · rfl
    · intro ev hev
      obtain ⟨entry, -, rfl⟩ := List.mem_map.mp hev
      rfl
  have hcompleted : c.resolvePending.2.filterMap CameraEvent.completed =
      (c.pending.entries.map Sigma.snd).reverse := by
    rw [resolvePending, List.filterMap_map, ← List.map_reverse, ← List.filterMap_eq_map]
    rfl
  refine ⟨?_, Or.inl hgiven⟩
  rw [held_of_empty h, hgiven, completedBy, hcompleted, Multiset.coe_reverse]
  rfl

theorem onEvent_settles (c : Camera) (origin : SessionEvent) (ev : BleEvent) :
    c.Settles (c.onEvent origin ev).2 (c.onEvent origin ev).1 := by
  cases ev with
  | writeRequest channel bytes =>
      rw [onEvent]
      split
      · exact (silent_singleton rfl rfl).settles rfl
      · exact silent_nil.settles rfl
  | response r =>
      rw [onEvent]
      split
      · next f hf =>
        let d : Camera := { c with pending := c.pending.erase r.correlationId }
        have hheld : c.held = {f} + d.held := held_erase hf rfl
        refine ⟨?_, Or.inl rfl⟩
        rw [hheld]
        exact add_zero _
      · exact silent_nil.settles rfl
  | readyChanged ready => exact (add_silent c .readyChanges rfl rfl).settles rfl
  | push channel message => exact (add_silent c .pushes rfl rfl).settles rfl
  | frameError channel error => exact (add_silent c .faults rfl rfl).settles rfl

theorem resumeClose_settles {ok : Bool} (h : c.resumeClose ok = some (c', evs)) :
    c.Settles evs c' := by
  rcases resumeClose_cases h with ⟨-, rfl, rfl⟩ | ⟨-, rfl, rfl⟩ | ⟨-, rfl, rfl⟩ |
    ⟨-, rfl, rfl⟩ | ⟨_, _, _, -, -, rfl, rfl⟩
  · obtain ⟨_, hframe⟩ := drained_frame c
    exact resolvePending_settles c (by rw [hframe])
  · obtain ⟨_, _, _, _, _, -, hframe⟩ := unwatched_frame c
    exact silent_nil.settles (by rw [hframe])
  all_goals exact silent_nil.settles rfl

/-- No turn loses a future or completes one that is not there. -/
theorem next_settles {op : CameraOp} (hlive : c.state = .up → c.destroyed = false)
    (h : c.next op = some (c', evs)) : c.Settles evs c' := by
  cases next_turns h with
  | send channel payload priority nowMs =>
      obtain ⟨id, hgives⟩ := send_gives hlive
        (Prod.mk.eta (p := c.send channel payload priority nowMs)).symm
      exact hgives.settles
  | sendProtobuf channel featureId actionId message priority nowMs =>
      exact (sendProtobuf_gives hlive (Prod.mk.eta
        (p := c.sendProtobuf channel featureId actionId message priority nowMs)).symm).settles
  | close => exact (close_silent c).settles c.close_pending
  | fed channel bytes nowMs => exact silent_nil.settles (call_pending c _)
  | skipped => exact silent_nil.settles rfl
  | heard m port ev =>
      exact (onEvent_settles { c with port := port } m.origin ev).congr rfl rfl rfl rfl rfl
  | ticked connected nowMs => exact silent_nil.settles (call_pending c _)
  | tickedDown connected nowMs why =>
      exact (onDrop_silent _ why).settles ((onDrop_pending _ why).trans (call_pending c _))
  | ignored => exact silent_nil.settles rfl
  | noticed op why => exact (onDrop_silent c why).settles (onDrop_pending c why)
  | detached =>
      let d : Camera :=
        { c with subs := [], writes := ∅, notifies := ∅, dropping := some .climbing }
      have hsettles : d.Settles d.resolvePending.2 d.resolvePending.1 :=
        resolvePending_settles d rfl
      exact hsettles.congr rfl rfl rfl rfl rfl
  | stalled => exact silent_nil.settles rfl
  | attached a nowMs d f hstage hattach =>
      obtain ⟨id, hgives⟩ := attach_gives hlive hattach
      exact hgives.settles.congr rfl rfl rfl rfl rfl
  | refused a nowMs d e hstage hattach =>
      obtain ⟨id, hgives⟩ := attach_gives hlive hattach
      exact silent_nil.settles hgives.pending_of_error
  | gaveUp op e => exact (giveUp_silent c e).settles (close_pending { c with dropping := none })
  | finished =>
      apply (setState_silent _ .up).settles
      rw [setState]
      split <;> rfl
  | closing ok c' evs hresume => exact resumeClose_settles hresume

theorem Silent.not_resolved (h : Silent evs) {f : Completer} {r : BleResponse} :
    .resolved f r ∉ evs := by
  intro hmem
  have hnone := (h _ hmem).2
  simp [CameraEvent.completed] at hnone

/-- A future that is completed by the camera itself is canceled. -/
theorem canceled_of_resolved {op : CameraOp} (h : c.next op = some (c', evs)) {f : Completer}
    {r : BleResponse} (hresolved : .resolved f r ∈ evs) : r.outcome = .canceled := by
  have hpending : ∀ d : Camera, .resolved f r ∈ d.resolvePending.2 → r.outcome = .canceled := by
    intro d hmem
    obtain ⟨entry, -, heq⟩ := List.mem_map.mp hmem
    obtain ⟨-, rfl⟩ := CameraEvent.resolved.inj heq
    rfl
  cases next_turns h with
  | send channel payload priority nowMs =>
      rcases hgave : (c.send channel payload priority nowMs).2 with e | g <;>
        simp [hgave, gave] at hresolved
  | sendProtobuf channel featureId actionId message priority nowMs =>
      rcases hgave : (c.sendProtobuf channel featureId actionId message priority nowMs).2
        with e | g <;> simp [hgave, gave] at hresolved
  | close => exact absurd hresolved (close_silent c).not_resolved
  | heard m port ev =>
      cases ev with
      | writeRequest channel bytes =>
          simp only [onEvent] at hresolved
          split at hresolved <;> simp at hresolved
      | response r' =>
          simp only [onEvent] at hresolved
          split at hresolved <;> simp at hresolved
      | _ =>
          simp only [onEvent, add] at hresolved
          split at hresolved <;> simp at hresolved
  | tickedDown connected nowMs why =>
      exact absurd hresolved (onDrop_silent _ why).not_resolved
  | noticed op why => exact absurd hresolved (onDrop_silent c why).not_resolved
  | detached => exact hpending _ hresolved
  | gaveUp op e => exact absurd hresolved (giveUp_silent c e).not_resolved
  | finished => exact absurd hresolved (setState_silent _ .up).not_resolved
  | closing ok c' evs hresume =>
      rcases resumeClose_cases hresume with ⟨-, -, rfl⟩ | ⟨-, -, rfl⟩ | ⟨-, rfl, -⟩ |
        ⟨-, -, rfl⟩ | ⟨_, _, _, -, -, -, rfl⟩
      · exact hpending c hresolved
      all_goals simp at hresolved
  | _ => simp at hresolved

/-! ## Runs -/

def given (labels : List (CameraOp × List CameraEvent)) : Multiset Completer :=
  givenBy (labels.flatMap Prod.snd)

def completed (labels : List (CameraOp × List CameraEvent)) : Multiset Completer :=
  completedBy (labels.flatMap Prod.snd)

theorem given_snoc (labels : List (CameraOp × List CameraEvent)) (op : CameraOp)
    (evs : List CameraEvent) : given (labels ++ [(op, evs)]) = given labels + givenBy evs := by
  rw [given, List.flatMap_append, List.flatMap_singleton, givenBy_append]
  rfl

theorem completed_snoc (labels : List (CameraOp × List CameraEvent)) (op : CameraOp)
    (evs : List CameraEvent) :
    completed (labels ++ [(op, evs)]) = completed labels + completedBy evs := by
  rw [completed, List.flatMap_append, List.flatMap_singleton, completedBy_append]
  rfl

/-- The account of a run that began with some futures in the table. -/
structure Accounted (before : Multiset Completer)
    (labels : List (CameraOp × List CameraEvent)) (c : Camera) : Prop where
  balanced : before + given labels = completed labels + c.held
  distinct : (before + given labels).Nodup
  numbered : ∀ f ∈ before + given labels, f.number < c.session.submissions

theorem Accounted.next {before : Multiset Completer} (h : Accounted before labels c)
    {op : CameraOp} (hle : c.session.submissions ≤ c'.session.submissions)
    (hsettles : c.Settles evs c') : Accounted before (labels ++ [(op, evs)]) c' := by
  refine ⟨?_, ?_, ?_⟩
  · rw [given_snoc, completed_snoc, ← add_assoc, h.balanced, add_assoc, hsettles.balanced,
      add_assoc]
  · rw [given_snoc, ← add_assoc]
    rcases hsettles.fresh with hnone | ⟨-, hone, -⟩
    · rw [hnone, add_zero]
      exact h.distinct
    · rw [hone, add_comm, Multiset.singleton_add, Multiset.nodup_cons]
      refine ⟨?_, h.distinct⟩
      intro hmem
      exact absurd (h.numbered _ hmem) (Nat.lt_irrefl _)
  · intro f hf
    rw [given_snoc, ← add_assoc, Multiset.mem_add] at hf
    rcases hf with hold | hnew
    · exact Nat.lt_of_lt_of_le (h.numbered f hold) hle
    · rcases hsettles.fresh with hnone | ⟨-, hone, hlt⟩
      · rw [hnone] at hnew
        exact absurd hnew (Multiset.notMem_zero f)
      · rw [hone, Multiset.mem_singleton] at hnew
        rw [hnew]
        exact hlt

theorem accounted_connect {cfg : SessionConfig} {reconnectTimeoutMs : Nat} {a : Attached}
    {nowMs : UInt64} (h : connect cfg reconnectTimeoutMs a nowMs = .ok c) :
    Accounted c.held [] c := by
  obtain ⟨-, hfiled⟩ := connect_posts h
  have hnone : c.held + given [] = c.held := add_zero _
  refine ⟨add_comm _ _, ?_, ?_⟩
  · rw [hnone]
    let camera : Camera :=
      { device := a.device, session := .new cfg, reconnectTimeoutMs := reconnectTimeoutMs }
    rw [connect] at h
    split at h
    · next d f hattach =>
      obtain rfl := Except.ok.inj h
      obtain ⟨id, hgives⟩ := attach_gives (c := camera) (fun _ => rfl) hattach
      rcases hgives with ⟨-, -, hnew, henters, -⟩ | ⟨⟨e, herror⟩, -⟩
      · have hheld : d.held = camera.held + {⟨camera.session.submissions⟩} :=
          held_insert hnew henters
        have hempty : camera.held = 0 := held_of_empty rfl
        change d.held.Nodup
        rw [hheld, hempty, zero_add]
        exact Multiset.nodup_singleton _
      · simp at herror
    · simp at h
  · intro f hf
    rw [hnone] at hf
    obtain ⟨id, hlookup⟩ := mem_held.mp hf
    exact hfiled.numbered id f hlookup

/-- A camera whose handles are destroyed waits for nothing. -/
theorem held_of_destroyed (hstaged : Staged c.phase) (hheld : c.destroyed = true → c.held = 0)
    {op : CameraOp} (hnext : c.next op = some (c', evs)) (hsettles : c.Settles evs c')
    (hdestroyed : c'.destroyed = true) : c'.held = 0 := by
  rcases next_destroyed hnext with hsame | ⟨⟨ok, rfl⟩, hstage⟩
  · have hbefore : c.destroyed = true := hsame ▸ hdestroyed
    have hdown : c.state = .down := hstaged.destroyed hbefore
    have hbalanced := hsettles.balanced
    rcases hsettles.fresh with hnone | ⟨hup, -⟩
    · rw [hheld hbefore, hnone, zero_add] at hbalanced
      exact Multiset.le_zero.mp (hbalanced ▸ Multiset.le_add_left c'.held (completedBy evs))
    · rw [hdown] at hup
      simp at hup
  · change c.resumeClose ok = some (c', evs) at hnext
    rcases resumeClose_cases hnext with ⟨-, rfl, -⟩ | ⟨hother, -⟩ | ⟨hother, -⟩ |
      ⟨hother, -⟩ | ⟨_, _, _, hother, -⟩
    · obtain ⟨_, hframe⟩ := drained_frame c
      exact held_of_empty (by rw [hframe])
    all_goals simp [hstage] at hother

theorem live_of_staged (h : Staged c.phase) (hup : c.state = .up) : c.destroyed = false := by
  by_contra hdestroyed
  have hdown := h.destroyed (eq_true_of_ne_false hdestroyed)
  exact absurd (hup.symm.trans hdown) (by simp)

/-- The account of every run. -/
theorem accounted {c₀ : Camera} (hstart : lts.start c₀) (hrun : lts.Run c₀ labels c) :
    Accounted c₀.held labels c ∧ (c.destroyed = true → c.held = 0) := by
  have hall : (lts.Reachable c ∧ c.Posts) ∧ Accounted c₀.held labels c ∧
      (c.destroyed = true → c.held = 0) := by
    refine hrun.history (I := fun labels c => (lts.Reachable c ∧ c.Posts) ∧
      Accounted c₀.held labels c ∧ (c.destroyed = true → c.held = 0)) ?_ ?_
    · obtain ⟨cfg, reconnectTimeoutMs, a, nowMs, hconnect⟩ := hstart
      refine ⟨⟨.of_start ⟨cfg, reconnectTimeoutMs, a, nowMs, hconnect⟩,
        (connect_posts hconnect).1⟩, accounted_connect hconnect, ?_⟩
      intro hdestroyed
      have hphase := congrArg Phase.destroyed (connect_phase hconnect)
      exact absurd (hdestroyed.symm.trans hphase) (by simp)
    · rintro labels c ⟨op, evs⟩ c' ⟨⟨hreach, hposts⟩, haccount, hheld⟩ hstep
      have hstaged := staged hreach
      have hsettles := next_settles (live_of_staged hstaged) hstep
      have hle := (next_leadsTo hstep).submissions hposts.reach
      exact ⟨⟨hreach.step hstep, hposts.next hstep⟩, haccount.next hle hsettles,
        held_of_destroyed hstaged hheld hstep hsettles⟩
  exact hall.2

/-- In every run of a camera, over drops and reconnects: the futures that it gave out, or
held to begin with, are those that it completed, each of them once, and those in its table;
and once its handles are destroyed all of them are completed. -/
theorem futures_conserved {c₀ : Camera} (hstart : lts.start c₀)
    (hrun : lts.Run c₀ labels c) :
    c₀.held + given labels = completed labels + c.held ∧
    (completed labels + c.held).Nodup ∧ (c.destroyed = true → c.held = 0) := by
  obtain ⟨haccount, hheld⟩ := accounted hstart hrun
  exact ⟨haccount.balanced, haccount.balanced ▸ haccount.distinct, hheld⟩

/-- A camera that is closed while its first status query is still in flight. -/
theorem futures_conserved_closed : ∃ c₀ c labels,
    lts.start c₀ ∧ lts.Run c₀ labels c ∧ c.destroyed = true ∧ ⟨0⟩ ∈ c₀.held ∧
      c₀.held + given labels = completed labels + c.held ∧ c.held = 0 := by
  obtain ⟨c₀, c, labels, hconnect, htrace, hdestroyed, hheld⟩ : ∃ c₀ c labels,
      connect {} 300000 plainCamera 0 = .ok c₀ ∧
        Lts.trace next c₀ [.close, .closeResumed true, .closeResumed true, .closeResumed true] =
          some (c, labels) ∧ c.destroyed = true ∧ c₀.pending.entries.map Sigma.snd = [⟨0⟩] :=
    ⟨_, _, _, rfl, rfl, rfl, rfl⟩
  have hstart : lts.start c₀ := ⟨_, _, _, _, hconnect⟩
  have hrun : lts.Run c₀ labels c := Lts.run_of_trace htrace
  obtain ⟨hconserved, -, hnone⟩ := futures_conserved hstart hrun
  refine ⟨c₀, c, labels, hstart, hrun, hdestroyed, ?_, hconserved, hnone hdestroyed⟩
  rw [held, hheld]
  exact Multiset.mem_singleton_self _

end Camera

end GoproNative
