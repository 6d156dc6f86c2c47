import GoproNative.Link.Runs
import Mathlib.Algebra.Order.Ring.Nat

/-!
# Backoff

A failure is counted for the stage it happens in, and a change of stage forgives all of
them.  The wait after the last failure doubles with every failure up to a cap; the loop
that computes it stops before it can overflow.
-/

namespace GoproNative

/-- The stage the updates have led to, and the times of the failures since it was
entered. -/
def tally (s : LinkState × List UInt64) : LinkOp → LinkState × List UInt64
  | .update obs _ =>
      if LinkMachine.classify obs = s.1 then s else (LinkMachine.classify obs, [])
  | .noteAttemptFailed nowMs => (s.1, s.2 ++ [nowMs])
  | .reset => (.absent, [])

/-- The times of the failures since the machine last changed its stage or was reset. -/
def failures (ops : List LinkOp) : List UInt64 := (ops.foldl tally (.absent, [])).2

/-- The wait after the last of a number of failures. -/
def LinkConfig.delayMs (cfg : LinkConfig) (failures : Nat) : Nat :=
  min (cfg.backoffInitialMs.toNat * 2 ^ (failures - 1)) cfg.backoffMaxMs.toNat

theorem LinkConfig.delayMs_mono (cfg : LinkConfig) {n n' : Nat} (h : n ≤ n') :
    cfg.delayMs n ≤ cfg.delayMs n' := by
  refine min_le_min_right _ (Nat.mul_le_mul_left _ ?_)
  exact Nat.pow_le_pow_right (by omega) (by omega)

theorem LinkConfig.delayMs_le (cfg : LinkConfig) (n : Nat) :
    cfg.delayMs n ≤ cfg.backoffMaxMs.toNat :=
  min_le_right _ _

/-- A failure is counted under the time it was noted at. -/
theorem failures_subset (ops : List LinkOp) : failures ops ⊆ times ops := by
  induction ops using List.reverseRecOn with
  | nil => exact List.Subset.refl _
  | append_singleton ops op ih =>
      have htimes : times (ops ++ [op]) = times ops ++ times [op] := List.filterMap_append
      rw [failures, List.foldl_concat, htimes]
      cases op with
      | update obs nowMs =>
          rw [tally]
          split
          · exact List.subset_append_of_subset_left _ ih
          · exact List.nil_subset _
      | noteAttemptFailed nowMs =>
          intro t ht
          rcases List.mem_append.mp ht with hold | hnew
          · exact List.mem_append_left _ (ih hold)
          · exact List.mem_append_right _ hnew
      | reset => exact List.nil_subset _

namespace LinkMachine

/-! ## The loop -/

/-- The loop doubles without overflow up to the cap. -/
theorem backoffLoop_eq {cap : UInt64} (hcap : cap.toNat < 2 ^ 32) (n : Nat) {ms : UInt64}
    (hms : ms.toNat < 2 ^ 33) :
    min (backoffLoop cap n ms).toNat cap.toNat = min (ms.toNat * 2 ^ n) cap.toNat := by
  induction n generalizing ms with
  | zero => rw [backoffLoop, Nat.pow_zero, Nat.mul_one]
  | succ n ih =>
      rw [backoffLoop]
      by_cases hlt : ms < cap
      · rw [UInt64.lt_iff_toNat_lt] at hlt
        have hdouble : (ms * 2).toNat = ms.toNat * 2 := by
          rw [UInt64.toNat_mul]
          exact Nat.mod_eq_of_lt (by simp; omega)
        rw [if_pos (UInt64.lt_iff_toNat_lt.mpr hlt), ih (by omega), hdouble, Nat.mul_assoc,
          ← Nat.pow_succ']
      · rw [if_neg hlt]
        rw [UInt64.lt_iff_toNat_lt, Nat.not_lt] at hlt
        have hpow : ms.toNat ≤ ms.toNat * 2 ^ (n + 1) :=
          Nat.le_mul_of_pos_right _ (Nat.two_pow_pos _)
        rw [min_eq_right hlt, min_eq_right (le_trans hlt hpow)]

/-- The wait is the closed form, for every configuration and every count. -/
theorem backoffMs_eq (m : LinkMachine) (h : m.attempts ≠ 0) :
    m.backoffMs.toNat = m.cfg.delayMs m.attempts.toNat := by
  have hcap : m.cfg.backoffMaxMs.toUInt64.toNat = m.cfg.backoffMaxMs.toNat :=
    UInt32.toNat_toUInt64 _
  have hinitial : m.cfg.backoffInitialMs.toUInt64.toNat = m.cfg.backoffInitialMs.toNat :=
    UInt32.toNat_toUInt64 _
  have hmax := m.cfg.backoffMaxMs.toNat_lt
  have hstart := m.cfg.backoffInitialMs.toNat_lt
  have hloop := @backoffLoop_eq m.cfg.backoffMaxMs.toUInt64 (by rw [hcap]; exact hmax)
    (m.attempts.toNat - 1) m.cfg.backoffInitialMs.toUInt64 (by rw [hinitial]; omega)
  rw [hcap, hinitial] at hloop
  rw [LinkConfig.delayMs, ← hloop, backoffMs, if_neg h]
  simp only
  generalize backoffLoop m.cfg.backoffMaxMs.toUInt64 (m.attempts.toNat - 1)
    m.cfg.backoffInitialMs.toUInt64 = ms
  by_cases hlt : ms < m.cfg.backoffMaxMs.toUInt64
  · rw [if_pos hlt, UInt64.toNat_toUInt32]
    rw [UInt64.lt_iff_toNat_lt, hcap] at hlt
    rw [min_eq_left (le_of_lt hlt), Nat.mod_eq_of_lt (lt_trans hlt hmax)]
  · rw [if_neg hlt, UInt64.toNat_toUInt32, hcap]
    rw [UInt64.lt_iff_toNat_lt, hcap, Nat.not_lt] at hlt
    rw [min_eq_right hlt, Nat.mod_eq_of_lt hmax]

/-! ## The count -/

/-- The machine counts the failures since it changed its stage, and knows the last. -/
structure Counted (ops : List LinkOp) (m : LinkMachine) : Prop where
  state : (ops.foldl tally (.absent, [])).1 = m.state
  attempts : m.attempts = UInt32.ofNat (failures ops).length
  last : m.lastFailureMs = (failures ops).getLast?.getD 0

theorem Counted.next {ops : List LinkOp} {m : LinkMachine} (h : Counted ops m) (op : LinkOp) :
    Counted (ops ++ [op]) (m.next op).1 := by
  obtain ⟨hstate, hattempts, hlast⟩ := h
  cases op with
  | update obs nowMs =>
      rcases m.enter_cases obs nowMs with ⟨hsame, -, hkept, hkept'⟩ | ⟨hmoved, -, hzero, hzero'⟩
      · have htally : (ops ++ [LinkOp.update obs nowMs]).foldl tally (.absent, []) =
            ops.foldl tally (.absent, []) := by
          rw [List.foldl_concat, tally, if_pos (hsame.trans hstate.symm)]
        refine ⟨?_, ?_, ?_⟩
        · rw [htally, hstate]
          exact hsame.symm.trans (m.enter_state obs nowMs).symm
        · rw [failures, htally]
          exact hkept.trans hattempts
        · rw [failures, htally]
          exact hkept'.trans hlast
      · have htally : (ops ++ [LinkOp.update obs nowMs]).foldl tally (.absent, []) =
            (classify obs, []) := by
          rw [List.foldl_concat, tally, if_neg (by rw [hstate]; exact hmoved)]
        refine ⟨?_, ?_, ?_⟩
        · rw [htally]
          exact (m.enter_state obs nowMs).symm
        · rw [failures, htally]
          exact hzero
        · rw [failures, htally]
          exact hzero'
  | noteAttemptFailed nowMs =>
      have htally : (ops ++ [LinkOp.noteAttemptFailed nowMs]).foldl tally (.absent, []) =
          ((ops.foldl tally (.absent, [])).1, failures ops ++ [nowMs]) := by
        rw [List.foldl_concat, tally, failures]
      refine ⟨?_, ?_, ?_⟩
      · rw [htally]
        exact hstate
      · rw [failures, htally, List.length_append, List.length_singleton, UInt32.ofNat_add]
        exact congrArg (· + 1) hattempts
      · rw [failures, htally, List.getLast?_concat]
        rfl
  | reset =>
      have htally : (ops ++ [LinkOp.reset]).foldl tally (.absent, []) = (.absent, []) := by
        rw [List.foldl_concat, tally]
      refine ⟨?_, ?_, ?_⟩
      · rw [htally]
        rfl
      · rw [failures, htally]
        rfl
      · rw [failures, htally]
        rfl

theorem counted {cfg : LinkConfig} {m : LinkMachine}
    {labels : List (LinkOp × Option LinkAdvice)} (h : lts.Run { cfg := cfg } labels m) :
    Counted (labels.map Prod.fst) m :=
  history h ⟨rfl, rfl, rfl⟩ fun _ _ op hcounted => hcounted.next op

theorem advise_retryAtMs (m : LinkMachine) (obs : LinkObservation) (nowMs : UInt64)
    (h : m.state ≠ .ready) : (m.advise obs nowMs).retryAtMs =
      if 0 < m.attempts then m.lastFailureMs + m.backoffMs.toUInt64 else 0 := by
  unfold advise
  cases hstate : m.state <;> simp only <;> repeat' split
  case ready => exact absurd hstate h
  all_goals rfl

/-! ## Runs -/

theorem Counted.retryAtMs {ops : List LinkOp} {m : LinkMachine} (h : Counted ops m)
    (hready : m.state ≠ .ready) (hcount : (failures ops).length < 2 ^ 32)
    (hlast : ∀ t ∈ failures ops, t.toNat < 2 ^ 63) (obs : LinkObservation) (nowMs : UInt64) :
    (m.advise obs nowMs).retryAtMs.toNat =
      match (failures ops).getLast? with
      | none => 0
      | some t => t.toNat + m.cfg.delayMs (failures ops).length := by
  have hattempts : m.attempts.toNat = (failures ops).length := by
    rw [h.attempts, UInt32.toNat_ofNat', Nat.mod_eq_of_lt hcount]
  rw [advise_retryAtMs m obs nowMs hready, h.last]
  cases hfind : (failures ops).getLast? with
  | none =>
      rw [List.getLast?_eq_none_iff] at hfind
      have hzero : ¬0 < m.attempts := by
        rw [UInt32.lt_iff_toNat_lt, hattempts, hfind]
        exact Nat.lt_irrefl 0
      rw [if_neg hzero]
      rfl
  | some t =>
      have hpos : 0 < (failures ops).length := List.length_pos_of_mem (List.mem_of_getLast? hfind)
      have hfailed : 0 < m.attempts := by
        rw [UInt32.lt_iff_toNat_lt, hattempts]
        exact hpos
      have hsome : m.attempts ≠ 0 := fun hzero => by simp [hzero] at hfailed
      have hwait := m.cfg.delayMs_le (failures ops).length
      have hcap := m.cfg.backoffMaxMs.toNat_lt
      have htime := hlast t (List.mem_of_getLast? hfind)
      rw [if_pos hfailed, Option.getD_some, UInt64.toNat_add, UInt32.toNat_toUInt64,
        m.backoffMs_eq hsome, hattempts]
      exact Nat.mod_eq_of_lt (by omega)

/-- Backoff is exact, capped and forgiven.  Along every run, an update that ends in a
stage other than ready says to retry at the time of the last failure in this stage plus
the closed form for their number, and at once if there was none; the wait grows with the
number and stays within the cap; and a change of stage, whichever it is, forgives the
failures. -/
theorem backoff_exact {cfg : LinkConfig} {m : LinkMachine}
    {labels : List (LinkOp × Option LinkAdvice)} (hrun : lts.Run { cfg := cfg } labels m)
    {obs : LinkObservation} {nowMs : UInt64}
    (hcount : (failures (labels.map Prod.fst ++ [.update obs nowMs])).length < 2 ^ 32)
    (htimes : ∀ t ∈ times (labels.map Prod.fst ++ [.update obs nowMs]), t.toNat < 2 ^ 63) :
    ((m.update obs nowMs).2.state ≠ .ready → (m.update obs nowMs).1.retryAtMs.toNat =
      match (failures (labels.map Prod.fst ++ [.update obs nowMs])).getLast? with
      | none => 0
      | some t => t.toNat + min
          (cfg.backoffInitialMs.toNat *
            2 ^ ((failures (labels.map Prod.fst ++ [.update obs nowMs])).length - 1))
          cfg.backoffMaxMs.toNat) ∧
    (∀ n n', n ≤ n' → cfg.delayMs n ≤ cfg.delayMs n') ∧
    (∀ n, cfg.delayMs n ≤ cfg.backoffMaxMs.toNat) ∧
    ((m.update obs nowMs).2.state ≠ m.state →
      failures (labels.map Prod.fst ++ [.update obs nowMs]) = [] ∧
        (m.update obs nowMs).2.attempts = 0) := by
  have hcounted := (counted hrun).next (.update obs nowMs)
  have hcfg : (m.enter obs nowMs).cfg = cfg := (m.enter_cfg obs nowMs).trans (run_cfg hrun)
  refine ⟨?_, fun _ _ => cfg.delayMs_mono, cfg.delayMs_le, ?_⟩
  · intro hready
    have hretry := hcounted.retryAtMs hready hcount
      (fun t ht => htimes t (failures_subset _ ht)) obs nowMs
    rw [← hcfg]
    exact hretry
  · intro hmoved
    rcases m.enter_cases obs nowMs with ⟨hsame, -⟩ | ⟨hnew, -, hzero, -⟩
    · exact absurd ((m.enter_state obs nowMs).trans hsame) hmoved
    · refine ⟨?_, hzero⟩
      rw [failures, List.foldl_concat, tally, if_neg (by rw [(counted hrun).state]; exact hnew)]

/-- The third failure of a connection attempt. -/
theorem backoff_exact_connecting :
    ((Lts.play next ({ cfg := {} } : LinkMachine)
        [.update { leCandidatePresent := true } 10, .noteAttemptFailed 20,
          .noteAttemptFailed 1020, .noteAttemptFailed 3020]).1.update
      { leCandidatePresent := true } 3100).1.retryAtMs.toNat = 3020 + 4000 := by
  let ops : List LinkOp := [.update { leCandidatePresent := true } 10, .noteAttemptFailed 20,
    .noteAttemptFailed 1020, .noteAttemptFailed 3020]
  have hrun := Lts.run_of_play (fun m => ∃ cfg, m = { cfg := cfg }) next
    ({ cfg := {} } : LinkMachine) ops
  have hops : (Lts.play next ({ cfg := {} } : LinkMachine) ops).2.map Prod.fst = ops := rfl
  have hfailures : failures (ops ++ [.update { leCandidatePresent := true } 3100]) =
      [20, 1020, 3020] := by decide
  have htimes : times (ops ++ [.update { leCandidatePresent := true } 3100]) =
      [10, 20, 1020, 3020, 3100] := by decide
  have hexact := @backoff_exact _ _ _ hrun { leCandidatePresent := true } 3100
  rw [hops, hfailures, htimes] at hexact
  have hlate : ∀ t ∈ ([10, 20, 1020, 3020, 3100] : List UInt64), t.toNat < 2 ^ 63 := by simp
  have hretry := (hexact (by simp) hlate).1 (by decide)
  simpa [ops] using hretry

end LinkMachine

end GoproNative
