import GoproNative.Link.Runs

/-!
# The Bonded flag

The machine keeps in mind that it saw the Bonded flag on a link that was not encrypted,
and reads that back at later updates.  Forgetting it commutes with every call, and no
advice but the text of one stall depends on it.  So two runs that differ in the flag
alone are one run once the flag is forgotten.
-/

namespace GoproNative

/-! ## Forgetting the flag -/

def LinkObservation.forgetBonded (obs : LinkObservation) : LinkObservation :=
  { obs with bondedFlag := false }

def LinkOp.forgetBonded : LinkOp → LinkOp
  | update obs nowMs => update obs.forgetBonded nowMs
  | noteAttemptFailed nowMs => noteAttemptFailed nowMs
  | reset => reset

/-- What an advice tells the caller to do, without the explanation for a human. -/
def LinkAdvice.instruction (adv : LinkAdvice) : LinkAdvice := { adv with detail := "" }

/-- The advice is the same up to the text that explains a refused `StartNotify`. -/
def LinkAdvice.SameUpToDetail (a b : LinkAdvice) : Prop :=
  a.instruction = b.instruction ∧ (a.stall ≠ .notEncrypted → a = b)

namespace LinkMachine

def forgetBonded (m : LinkMachine) : LinkMachine :=
  { m with seenBondedWithoutEncryption := false }

theorem classify_forgetBonded (obs : LinkObservation) :
    classify obs.forgetBonded = classify obs := rfl

theorem forgetBonded_enter (m : LinkMachine) (obs : LinkObservation) (nowMs : UInt64) :
    (m.enter obs nowMs).forgetBonded = m.forgetBonded.enter obs.forgetBonded nowMs := by
  have hunbonded : obs.forgetBonded.bondedFlag = false := by rfl
  by_cases hsame : classify obs = m.state
  · simp only [enter, classify_forgetBonded, hsame, hunbonded, forgetBonded, ne_eq,
      not_true_eq_false, if_false, Bool.false_and, Bool.false_eq_true]
    split <;> rfl
  · simp only [enter, classify_forgetBonded, hsame, hunbonded, forgetBonded, ne_eq,
      not_false_eq_true, if_true, Bool.false_and, Bool.false_eq_true, if_false]
    split <;> rfl

/-- The advice reads what was kept of the flag in the text of one stall only. -/
theorem advise_forgetBonded (m : LinkMachine) (obs : LinkObservation) (nowMs : UInt64) :
    (m.advise obs nowMs).SameUpToDetail
      (m.forgetBonded.advise obs.forgetBonded nowMs) := by
  by_cases hstate : m.state = .servicesResolved
  · have hforgot : m.forgetBonded.state = .servicesResolved := hstate
    simp only [advise, hstate, hforgot]
    by_cases hlate : m.cfg.encryptTimeoutMs.toUInt64 ≤ nowMs - m.stateSinceMs
    · have hlate' : m.forgetBonded.cfg.encryptTimeoutMs.toUInt64 ≤
          nowMs - m.forgetBonded.stateSinceMs := hlate
      rw [if_pos hlate, if_pos hlate']
      refine ⟨?_, fun hstall => absurd ?_ hstall⟩ <;> rfl
    · have hlate' : ¬m.forgetBonded.cfg.encryptTimeoutMs.toUInt64 ≤
          nowMs - m.forgetBonded.stateSinceMs := hlate
      rw [if_neg hlate, if_neg hlate']
      exact ⟨rfl, fun _ => rfl⟩
  · have heq : m.advise obs nowMs = m.forgetBonded.advise obs.forgetBonded nowMs := by
      obtain ⟨cfg, state, since, failure, attempts, seen⟩ := m
      cases state with
      | servicesResolved => exact absurd rfl hstate
      | _ => rfl
    exact ⟨congrArg _ heq, fun _ => heq⟩

theorem forgetBonded_next (m : LinkMachine) (op : LinkOp) :
    (m.next op).1.forgetBonded = (m.forgetBonded.next op.forgetBonded).1 := by
  rcases op with ⟨obs, nowMs⟩ | nowMs | _
  · exact m.forgetBonded_enter obs nowMs
  · rfl
  · rfl

end LinkMachine

theorem LinkAdvice.SameUpToDetail.stall {a b : LinkAdvice} (h : a.SameUpToDetail b) :
    a.stall = b.stall := by
  have hstall : a.instruction.stall = b.instruction.stall := by rw [h.1]
  exact hstall

theorem LinkAdvice.SameUpToDetail.symm {a b : LinkAdvice} (h : a.SameUpToDetail b) :
    b.SameUpToDetail a := by
  have hstall : a.stall = b.stall := h.stall
  exact ⟨h.1.symm, fun hb => (h.2 (by rwa [hstall])).symm⟩

theorem LinkAdvice.SameUpToDetail.trans {a b c : LinkAdvice} (h : a.SameUpToDetail b)
    (h' : b.SameUpToDetail c) : a.SameUpToDetail c := by
  have hstall : a.stall = b.stall := h.stall
  exact ⟨h.1.trans h'.1, fun ha => (h.2 ha).trans (h'.2 (by rwa [← hstall]))⟩

namespace LinkMachine

/-- Machines that agree up to what they keep of the flag give, on observations that
agree up to the flag, the same advice up to its detail. -/
theorem update_sameUpToDetail {m n : LinkMachine} (h : m.forgetBonded = n.forgetBonded)
    {obs obs' : LinkObservation} (hobs : obs.forgetBonded = obs'.forgetBonded)
    (nowMs : UInt64) :
    (m.update obs nowMs).1.SameUpToDetail (n.update obs' nowMs).1 := by
  have hm := (m.enter obs nowMs).advise_forgetBonded obs nowMs
  have hn := (n.enter obs' nowMs).advise_forgetBonded obs' nowMs
  rw [forgetBonded_enter, h, hobs] at hm
  rw [forgetBonded_enter] at hn
  exact hm.trans hn.symm

/-- The Bonded flag never gates anything.  Take two runs from one configuration whose
calls are the same up to the flags of their observations.  Every update of the one gives
the advice of its counterpart, detail apart, and even the details agree unless the stall
is a refused `StartNotify`; and both machines are in the same state, with the same number
of attempts. -/
theorem bonded_never_gates {cfg : LinkConfig} {m n : LinkMachine}
    {as bs : List (LinkOp × Option LinkAdvice)} (hm : lts.Run { cfg := cfg } as m)
    (hn : lts.Run { cfg := cfg } bs n)
    (hcalls : List.Forall₂ (fun a b => a.1.forgetBonded = b.1.forgetBonded) as bs) :
    List.Forall₂ (fun a b => Option.Rel LinkAdvice.SameUpToDetail a.2 b.2) as bs ∧
      m.state = n.state ∧ m.attempts = n.attempts := by
  have hboth := hm.lockstep (R := fun m n => m.forgetBonded = n.forgetBonded) hn hcalls rfl
    (Q := fun a b => Option.Rel LinkAdvice.SameUpToDetail a.2 b.2) ?_
  · have hstate : m.forgetBonded.state = n.forgetBonded.state := by rw [hboth.1]
    have hattempts : m.forgetBonded.attempts = n.forgetBonded.attempts := by rw [hboth.1]
    exact ⟨hboth.2, hstate, hattempts⟩
  · rintro m n ⟨op, out⟩ ⟨op', out'⟩ m₁ n₁ hforgot hop hstep hstep'
    obtain ⟨rfl, rfl⟩ : (m.next op).1 = m₁ ∧ (m.next op).2 = out := Prod.mk.inj hstep
    obtain ⟨rfl, rfl⟩ : (n.next op').1 = n₁ ∧ (n.next op').2 = out' := Prod.mk.inj hstep'
    refine ⟨?_, ?_⟩
    · rw [forgetBonded_next, forgetBonded_next, hforgot, hop]
    · rcases op with ⟨obs, nowMs⟩ | nowMs | _ <;>
        rcases op' with ⟨obs', nowMs'⟩ | nowMs' | _ <;>
        simp only [LinkOp.forgetBonded, LinkOp.update.injEq, reduceCtorEq] at hop
      · obtain ⟨hobs, rfl⟩ := hop
        exact .some (update_sameUpToDetail hforgot hobs nowMs)
      · exact .none
      · exact .none

/-- A link that `StartNotify` is refused on, with the flag and without. -/
theorem bonded_never_gates_refused :
    let seen : LinkObservation :=
      { connected := true, attributeCount := 9, controlCharsFound := true }
    let calls (bonded : Bool) : List LinkOp :=
      [.update { seen with bondedFlag := bonded } 5, .noteAttemptFailed 7,
        .update seen 60005]
    let m := Lts.play next ({ cfg := {} } : LinkMachine) (calls true)
    let n := Lts.play next ({ cfg := {} } : LinkMachine) (calls false)
    m.1.attempts = n.1.attempts ∧ m.2 ≠ n.2 := by
  intro seen calls m n
  refine ⟨?_, by decide⟩
  apply (bonded_never_gates (Lts.run_of_play _ _ _ (calls true))
    (Lts.run_of_play _ _ _ (calls false)) ?_).2.2
  exact .cons rfl (.cons rfl (.cons rfl .nil))

end LinkMachine

end GoproNative
