import GoproNative.Link.Runs

/-!
# When a stage is called stalled

The machine measures the time in a stage from the update that brought it there.  Into its
first stage nothing brings it: a machine that was constructed or reset is absent, and has
been since time zero.  So an absent stage that was never left is called stalled by the
clock alone, and every other one by the time spent in it.
-/

namespace GoproNative

/-! ## The stay in a stage -/

/-- The times of the updates in the current uninterrupted run of updates that show a
stage. -/
def stay (state : LinkState) (ops : List LinkOp) : List UInt64 :=
  (ops.rtakeWhile (LinkOp.keeps state)).filterMap LinkOp.updated?

/-- When the current stay in a stage began. -/
def arrival (state : LinkState) (ops : List LinkOp) : Option UInt64 := (stay state ops).head?

/-- The calls since the last reset. -/
def sinceReset (ops : List LinkOp) : List LinkOp := ops.rtakeWhile fun op => op != .reset

/-- Since the machine was constructed or reset, every update has shown the stage
absent. -/
def NeverLeft (ops : List LinkOp) : Prop := ∀ op ∈ sinceReset ops, op.keeps .absent = true

instance (ops : List LinkOp) : Decidable (NeverLeft ops) :=
  inferInstanceAs (Decidable (∀ op ∈ sinceReset ops, op.keeps .absent = true))

theorem stay_update_of_eq {state : LinkState} (ops : List LinkOp) {obs : LinkObservation}
    (h : LinkMachine.classify obs = state) (nowMs : UInt64) :
    stay state (ops ++ [.update obs nowMs]) = stay state ops ++ [nowMs] := by
  rw [stay, List.rtakeWhile_concat_pos _ _ _ (by simp [LinkOp.keeps, h]),
    List.filterMap_append]
  rfl

theorem stay_update_of_ne {state : LinkState} (ops : List LinkOp) {obs : LinkObservation}
    (h : LinkMachine.classify obs ≠ state) (nowMs : UInt64) :
    stay state (ops ++ [.update obs nowMs]) = [] := by
  rw [stay, List.rtakeWhile_concat_neg _ _ _ (by simp [LinkOp.keeps, h])]
  rfl

theorem stay_noteAttemptFailed (state : LinkState) (ops : List LinkOp) (nowMs : UInt64) :
    stay state (ops ++ [.noteAttemptFailed nowMs]) = stay state ops := by
  rw [stay, List.rtakeWhile_concat_pos _ _ _ rfl, List.filterMap_append]
  exact List.append_nil _

theorem stay_reset (state : LinkState) (ops : List LinkOp) : stay state (ops ++ [.reset]) = [] := by
  rw [stay, List.rtakeWhile_concat_neg _ _ _ (by simp [LinkOp.keeps])]
  rfl

theorem neverLeft_snoc_iff {ops : List LinkOp} {op : LinkOp} (h : op ≠ .reset) :
    NeverLeft (ops ++ [op]) ↔ NeverLeft ops ∧ op.keeps .absent = true := by
  rw [NeverLeft, sinceReset, List.rtakeWhile_concat_pos _ _ _ (by simpa using h),
    List.forall_mem_append, List.forall_mem_singleton]
  rfl

theorem neverLeft_reset (ops : List LinkOp) : NeverLeft (ops ++ [.reset]) := by
  rw [NeverLeft, sinceReset, List.rtakeWhile_concat_neg _ _ _ (by simp)]
  simp

/-- A stay is made of times of calls. -/
theorem stay_subset (state : LinkState) (ops : List LinkOp) : stay state ops ⊆ times ops := by
  intro t ht
  obtain ⟨op, hop, htime⟩ := List.mem_filterMap.mp ht
  refine List.mem_filterMap.mpr ⟨op, (List.rtakeWhile_suffix _ _).subset hop, ?_⟩
  cases op with
  | update obs nowMs => exact htime
  | noteAttemptFailed nowMs => simp [LinkOp.updated?] at htime
  | reset => simp [LinkOp.updated?] at htime

namespace LinkMachine

/-- What the machine knows of its stay: no stage but its own is stayed in, and its clock
was started by the arrival, unless it has never left the stage it was constructed in. -/
structure Clocked (ops : List LinkOp) (m : LinkMachine) : Prop where
  elsewhere : ∀ state, state ≠ m.state → stay state ops = []
  fresh : NeverLeft ops → m.state = .absent ∧ m.stateSinceMs = 0
  arrived : ¬NeverLeft ops → arrival m.state ops = some m.stateSinceMs

theorem Clocked.update {ops : List LinkOp} {m : LinkMachine} (h : Clocked ops m)
    (obs : LinkObservation) (nowMs : UInt64) :
    Clocked (ops ++ [.update obs nowMs]) (m.enter obs nowMs) where
  elsewhere state hne := by
    rw [enter_state] at hne
    exact stay_update_of_ne ops hne.symm nowMs
  fresh hnever := by
    obtain ⟨hnever, hshows⟩ := (neverLeft_snoc_iff (by simp)).mp hnever
    obtain ⟨hstate, hsince⟩ := h.fresh hnever
    have hclass : classify obs = .absent := of_decide_eq_true hshows
    rcases m.enter_cases obs nowMs with ⟨-, hkept, -⟩ | ⟨hmoved, -⟩
    · exact ⟨(m.enter_state obs nowMs).trans hclass, hkept.trans hsince⟩
    · exact absurd (hclass.trans hstate.symm) hmoved
  arrived hleft := by
    rw [enter_state, arrival, stay_update_of_eq ops rfl]
    rcases m.enter_cases obs nowMs with ⟨hsame, hkept, -⟩ | ⟨hmoved, hnow, -⟩
    · have hleft' : ¬NeverLeft ops := by
        intro hnever
        refine hleft ((neverLeft_snoc_iff (by simp)).mpr ⟨hnever, ?_⟩)
        exact decide_eq_true (hsame.trans (h.fresh hnever).1)
      have harrived := h.arrived hleft'
      rw [← hsame, arrival] at harrived
      rw [List.head?_append, harrived, hkept]
      rfl
    · rw [h.elsewhere _ hmoved, hnow]
      rfl

theorem Clocked.next {ops : List LinkOp} {m : LinkMachine} (h : Clocked ops m) (op : LinkOp) :
    Clocked (ops ++ [op]) (m.next op).1 := by
  cases op with
  | update obs nowMs => exact h.update obs nowMs
  | noteAttemptFailed nowMs =>
      have hnever : NeverLeft (ops ++ [.noteAttemptFailed nowMs]) ↔ NeverLeft ops := by
        rw [neverLeft_snoc_iff (by simp)]
        exact and_iff_left rfl
      refine ⟨fun state hne => ?_, fun hfresh => h.fresh (hnever.mp hfresh), fun hleft => ?_⟩
      · rw [stay_noteAttemptFailed]
        exact h.elsewhere state hne
      · rw [arrival, stay_noteAttemptFailed]
        exact h.arrived fun hfresh => hleft (hnever.mpr hfresh)
  | reset =>
      exact ⟨fun state _ => stay_reset state ops, fun _ => ⟨rfl, rfl⟩,
        fun hleft => absurd (neverLeft_reset ops) hleft⟩

theorem clocked {cfg : LinkConfig} {m : LinkMachine}
    {labels : List (LinkOp × Option LinkAdvice)} (h : lts.Run { cfg := cfg } labels m) :
    Clocked (labels.map Prod.fst) m :=
  history h ⟨fun _ _ => rfl, fun _ => ⟨rfl, rfl⟩, fun hleft => absurd (by simp [NeverLeft, sinceReset]) hleft⟩
    fun _ _ op hclocked => hclocked.next op

end LinkMachine

/-! ## The advice -/

/-- How long a stage may take. -/
def LinkConfig.timeoutMs (cfg : LinkConfig) : LinkState → UInt32
  | .absent => cfg.connectTimeoutMs
  | .advertising => cfg.connectTimeoutMs
  | .connected => cfg.servicesTimeoutMs
  | .servicesResolved => cfg.encryptTimeoutMs
  | .encrypted => cfg.subscribeTimeoutMs
  | .ready => 0

/-- A stall that a stage is given for taking too long. -/
def StallReason.Timed (stall : StallReason) : Prop :=
  stall ≠ .none ∧ stall ≠ .classicBlocking

namespace LinkMachine

/-- The stages that are called stalled as soon as they have taken too long. -/
def Watched (obs : LinkObservation) : LinkState → Prop
  | .absent => obs.classicLinkUp = false
  | .connected => True
  | .servicesResolved => True
  | .encrypted => True
  | .advertising => False
  | .ready => False

/-- What else a stage needs to be called stalled. -/
def Stallable (m : LinkMachine) (obs : LinkObservation) : Prop :=
  Watched obs m.state ∨ m.state = .advertising ∧ 0 < m.attempts

theorem advise_timed_iff (m : LinkMachine) (obs : LinkObservation) (nowMs : UInt64) :
    (m.advise obs nowMs).stall.Timed ↔
      (m.cfg.timeoutMs m.state).toUInt64 ≤ nowMs - m.stateSinceMs ∧ m.Stallable obs := by
  unfold advise Stallable
  cases hstate : m.state <;>
    simp only [LinkConfig.timeoutMs, Watched, reduceCtorEq, false_and, or_false, true_and,
      false_or, and_true, and_false, iff_false] <;>
    repeat' split
  all_goals simp_all [StallReason.Timed]

/-! ## Runs -/

/-- The machine has been seen in a stage without interruption for as long as the stage
may take. -/
def Spent (cfg : LinkConfig) (ops : List LinkOp) (state : LinkState) (nowMs : UInt64) : Prop :=
  ∃ t, arrival state ops = some t ∧ t.toNat + (cfg.timeoutMs state).toNat ≤ nowMs.toNat

/-- An advice that calls the stage stalled for its time only when the time was spent in
it, and does so for the stages that are watched. -/
def JustStall (cfg : LinkConfig) (ops : List LinkOp) (obs : LinkObservation) (nowMs : UInt64)
    (adv : LinkAdvice) : Prop :=
  (adv.stall.Timed → Spent cfg ops (classify obs) nowMs) ∧
    (Watched obs (classify obs) → Spent cfg ops (classify obs) nowMs → adv.stall.Timed)

/-- No update since construction or the last reset has shown a candidate or a link, this
one shows no Classic link either, and the clock is past the timeout while the time since
the first of these updates is not. -/
def Premature (cfg : LinkConfig) (ops : List LinkOp) (obs : LinkObservation)
    (nowMs : UInt64) : Prop :=
  NeverLeft ops ∧ obs.classicLinkUp = false ∧ cfg.connectTimeoutMs.toNat ≤ nowMs.toNat ∧
    ∃ t, arrival .absent ops = some t ∧ nowMs.toNat < t.toNat + cfg.connectTimeoutMs.toNat

/-- Every stay began by now. -/
theorem arrival_le {ops : List LinkOp} {obs : LinkObservation} {nowMs t : UInt64}
    {state : LinkState} (htimes : (times (ops ++ [.update obs nowMs])).Pairwise (· ≤ ·))
    (h : arrival state (ops ++ [.update obs nowMs]) = some t) : t ≤ nowMs := by
  have hmem := stay_subset state _ (List.mem_of_mem_head? h)
  have hsplit : times (ops ++ [.update obs nowMs]) = times ops ++ [nowMs] := by
    simp [times, LinkOp.time?]
  rw [hsplit, List.mem_append, List.mem_singleton] at hmem
  rw [hsplit, List.pairwise_append] at htimes
  rcases hmem with hmem | rfl
  · exact htimes.2.2 t hmem nowMs (List.mem_singleton.mpr rfl)
  · exact UInt64.le_refl _

/-- An update is in the stay that it continues or begins. -/
theorem exists_arrival (ops : List LinkOp) (obs : LinkObservation) (nowMs : UInt64) :
    ∃ t, arrival (classify obs) (ops ++ [.update obs nowMs]) = some t := by
  rw [arrival, stay_update_of_eq ops rfl]
  cases stay (classify obs) ops with
  | nil => exact ⟨nowMs, rfl⟩
  | cons t ts => exact ⟨t, rfl⟩

/-- In the stage the machine was constructed in, the advice goes by the clock alone. -/
theorem Clocked.just_iff_of_neverLeft {ops : List LinkOp} {m : LinkMachine}
    (h : Clocked ops m) (hnever : NeverLeft ops) {obs : LinkObservation}
    (hstate : m.state = classify obs) {t : UInt64}
    (harrival : arrival (classify obs) ops = some t) (nowMs : UInt64) :
    JustStall m.cfg ops obs nowMs (m.advise obs nowMs) ↔ ¬Premature m.cfg ops obs nowMs := by
  obtain ⟨habsent, hsince⟩ := h.fresh hnever
  have hclass : classify obs = .absent := hstate.symm.trans habsent
  have htimed : (m.advise obs nowMs).stall.Timed ↔
      m.cfg.connectTimeoutMs.toNat ≤ nowMs.toNat ∧ obs.classicLinkUp = false := by
    rw [advise_timed_iff, habsent, hsince, UInt64.sub_zero, UInt64.le_iff_toNat_le,
      UInt32.toNat_toUInt64, Stallable, habsent]
    simp [LinkConfig.timeoutMs, Watched]
  rw [hclass] at harrival
  simp only [JustStall, Premature, Spent, htimed, hclass, harrival, Option.some.injEq,
    exists_eq_left', LinkConfig.timeoutMs, Watched]
  constructor
  · rintro ⟨hspent, -⟩ ⟨-, hclassic, hpast, hearly⟩
    exact Nat.not_lt.mpr (hspent ⟨hpast, hclassic⟩) hearly
  · intro hmature
    refine ⟨fun ⟨hpast, hclassic⟩ => ?_, fun hclassic hspent => ⟨by omega, hclassic⟩⟩
    by_contra hearly
    exact hmature ⟨hnever, hclassic, hpast, by omega⟩

/-- In every other stay it goes by the time since the arrival. -/
theorem Clocked.just_of_left {ops : List LinkOp} {m : LinkMachine} (h : Clocked ops m)
    (hleft : ¬NeverLeft ops) {obs : LinkObservation} (hstate : m.state = classify obs)
    {nowMs : UInt64} (hle : m.stateSinceMs ≤ nowMs) :
    JustStall m.cfg ops obs nowMs (m.advise obs nowMs) := by
  have harrived := h.arrived hleft
  have hsub : (nowMs - m.stateSinceMs).toNat = nowMs.toNat - m.stateSinceMs.toNat :=
    UInt64.toNat_sub_of_le _ _ hle
  rw [UInt64.le_iff_toNat_le] at hle
  have htimed := advise_timed_iff m obs nowMs
  rw [UInt64.le_iff_toNat_le, UInt32.toNat_toUInt64, hsub] at htimed
  rw [JustStall, ← hstate]
  constructor
  · intro hstall
    exact ⟨_, harrived, by have := (htimed.mp hstall).1; omega⟩
  · rintro hwatched ⟨t, harrival, hspent⟩
    obtain rfl : t = m.stateSinceMs := Option.some.inj (harrival.symm.trans harrived)
    exact htimed.mpr ⟨by omega, Or.inl hwatched⟩

/-- A stage is called stalled for time spent in it, but for one kind of update.  Along
every run with times that do not go back, the clock of the machine was started by now,
so no elapsed time wraps; and an advice is just exactly when the update is not
premature. -/
theorem stalled_for_time_spent_iff {cfg : LinkConfig} {m : LinkMachine}
    {labels : List (LinkOp × Option LinkAdvice)} (hrun : lts.Run { cfg := cfg } labels m)
    {obs : LinkObservation} {nowMs : UInt64}
    (htimes : (times (labels.map Prod.fst ++ [.update obs nowMs])).Pairwise (· ≤ ·)) :
    (m.update obs nowMs).2.stateSinceMs ≤ nowMs ∧
      (JustStall cfg (labels.map Prod.fst ++ [.update obs nowMs]) obs nowMs
          (m.update obs nowMs).1 ↔
        ¬Premature cfg (labels.map Prod.fst ++ [.update obs nowMs]) obs nowMs) := by
  have hclocked := (clocked hrun).update obs nowMs
  have hstate := m.enter_state obs nowMs
  have hcfg : (m.enter obs nowMs).cfg = cfg := (m.enter_cfg obs nowMs).trans (run_cfg hrun)
  obtain ⟨t, harrival⟩ := exists_arrival (labels.map Prod.fst) obs nowMs
  rw [update, ← hcfg]
  by_cases hnever : NeverLeft (labels.map Prod.fst ++ [.update obs nowMs])
  · refine ⟨?_, hclocked.just_iff_of_neverLeft hnever hstate harrival nowMs⟩
    rw [(hclocked.fresh hnever).2]
    exact UInt64.zero_le
  · have hle := arrival_le htimes (hclocked.arrived hnever)
    refine ⟨hle, iff_of_true (hclocked.just_of_left hnever hstate hle) ?_⟩
    exact fun hpremature => hnever hpremature.1

/-- A camera that advertised at 5 s and is then not seen for the ten seconds a scan may
take. -/
theorem stalled_for_time_spent_iff_lost :
    JustStall {} ([.update { leCandidatePresent := true } 5000, .update {} 7000] ++
        [.update {} 17000]) {} 17000
      (((Lts.play next ({ cfg := {} } : LinkMachine)
        [.update { leCandidatePresent := true } 5000, .update {} 7000]).1).update {} 17000).1 := by
  have hrun := Lts.run_of_play (fun m => ∃ cfg, m = { cfg := cfg }) next
    ({ cfg := {} } : LinkMachine)
    [.update { leCandidatePresent := true } 5000, .update {} 7000]
  have hiff := @stalled_for_time_spent_iff _ _ _ hrun {} 17000 (by decide)
  exact hiff.2.mpr fun hpremature => absurd hpremature.1 (by decide)

/-- A machine that has just been constructed calls its first update a stall, though
nothing was tried before. -/
theorem stalled_before_anything_was_tried :
    ¬∀ cfg (m : LinkMachine) labels, lts.Run { cfg := cfg } labels m → ∀ obs nowMs,
      (times (labels.map Prod.fst ++ [.update obs nowMs])).Pairwise (· ≤ ·) →
      JustStall cfg (labels.map Prod.fst ++ [.update obs nowMs]) obs nowMs
        (m.update obs nowMs).1 := by
  intro h
  obtain ⟨hspent, -⟩ := h {} { cfg := {} } [] (.nil _) {} 10000 (by decide)
  obtain ⟨t, harrival, hlate⟩ := hspent ⟨by decide, by decide⟩
  obtain rfl : t = 10000 := Option.some.inj (harrival.symm.trans (by decide))
  exact absurd hlate (by decide)

end LinkMachine

end GoproNative
