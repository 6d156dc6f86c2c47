import GoproNative.Link.Definitions

/-!
# What the link machine's advice says

The bridge loses nothing of an advice, an advice always tells the stage that the
observation shows, and what it proposes to do is determined by that stage.
-/

namespace GoproNative

theorem LinkState.mem_values (state : LinkState) :
    LinkState.values[LinkState.values.idxOf state]? = some state ∧
      LinkState.values.idxOf state < 6 := by
  cases state <;> decide

theorem LinkAction.mem_values (action : LinkAction) :
    LinkAction.values[LinkAction.values.idxOf action]? = some action ∧
      LinkAction.values.idxOf action < 7 := by
  cases action <;> decide

theorem StallReason.mem_values (stall : StallReason) :
    StallReason.values[StallReason.values.idxOf stall]? = some stall ∧
      StallReason.values.idxOf stall < 8 := by
  cases stall <;> decide

/-- The three fields of a packed advice do not overlap. -/
theorem packed_fields {a b c : Nat} (ha : a < 8) (hb : b < 8) (hc : c < 8) :
    let packed := (UInt32.ofNat a <<< 16) ||| (UInt32.ofNat b <<< 8) ||| UInt32.ofNat c
    ((packed >>> 16) &&& 0xFF).toNat = a ∧ ((packed >>> 8) &&& 0xFF).toNat = b ∧
      (packed &&& 0xFF).toNat = c := by
  have hall : ∀ a b c : Fin 8,
      let packed := (UInt32.ofNat a <<< 16) ||| (UInt32.ofNat b <<< 8) ||| UInt32.ofNat c
      ((packed >>> 16) &&& 0xFF).toNat = a ∧ ((packed >>> 8) &&& 0xFF).toNat = b ∧
        (packed &&& 0xFF).toNat = c := by decide +kernel
  exact hall ⟨a, ha⟩ ⟨b, hb⟩ ⟨c, hc⟩

/-- The bridge hands over the advice as it was given. -/
theorem LinkAdvice.unpack_pack (adv : LinkAdvice) :
    LinkAdvice.unpack adv.pack adv.detail adv.retryAtMs = some adv := by
  obtain ⟨hstate, hs⟩ := adv.state.mem_values
  obtain ⟨haction, ha⟩ := adv.action.mem_values
  obtain ⟨hstall, hr⟩ := adv.stall.mem_values
  obtain ⟨h₁, h₂, h₃⟩ := packed_fields (a := LinkState.values.idxOf adv.state)
    (b := LinkAction.values.idxOf adv.action) (c := StallReason.values.idxOf adv.stall)
    (by omega) (by omega) (by omega)
  simp only [unpack, pack, h₁, h₂, h₃, hstate, haction, hstall, Option.bind_eq_bind,
    Option.bind_some, Option.pure_def]

namespace LinkMachine

theorem enter_state (m : LinkMachine) (obs : LinkObservation) (nowMs : UInt64) :
    (m.enter obs nowMs).state = classify obs := by
  unfold enter
  by_cases hsame : classify obs = m.state
  · simp only [hsame, ne_eq, not_true_eq_false, if_false]
    split <;> rfl
  · simp only [ne_eq, hsame, not_false_eq_true, if_true]
    split <;> rfl

theorem advise_state (m : LinkMachine) (obs : LinkObservation) (nowMs : UInt64) :
    (m.advise obs nowMs).state = m.state := by
  unfold advise
  cases hstate : m.state <;> simp only <;> repeat' split
  all_goals rfl

theorem advise_pair_iff (m : LinkMachine) (obs : LinkObservation) (nowMs : UInt64) :
    (m.advise obs nowMs).action = .pair ↔ m.state = .servicesResolved := by
  unfold advise
  cases hstate : m.state <;> simp only <;> repeat' split
  all_goals simp

theorem advise_subscribe_iff (m : LinkMachine) (obs : LinkObservation) (nowMs : UInt64) :
    (m.advise obs nowMs).action = .subscribe ↔ m.state = .encrypted := by
  unfold advise
  cases hstate : m.state <;> simp only <;> repeat' split
  all_goals simp

/-- Over the bridge the advice is the one the machine gives. -/
theorem linkUpdate_eq (m : LinkMachine) (obs : LinkObservation) (nowMs : UInt64) :
    m.linkUpdate obs nowMs =
      (some ((m.enter obs.bridged nowMs).advise obs.bridged nowMs),
        m.enter obs.bridged nowMs) := by
  simp only [linkUpdate, update, LinkAdvice.unpack_pack]

/-! ## Stages -/

/-- What an observation has to show for its stage, rung by rung. -/
theorem classify_cases (obs : LinkObservation) :
    (obs.connected = false ∧ (classify obs = .advertising ∨ classify obs = .absent)) ∨
    ((obs.attributeCount = 0 ∨ obs.controlCharsFound = false) ∧
      classify obs = .connected) ∨
    obs.connected = true ∧ obs.attributeCount ≠ 0 ∧ obs.controlCharsFound = true ∧
      ((obs.notifySucceeded = false ∧ classify obs = .servicesResolved) ∨
        obs.notifySucceeded = true ∧
          ((obs.subscribedCount < obs.requiredSubscriptions ∧ classify obs = .encrypted) ∨
            (obs.requiredSubscriptions ≤ obs.subscribedCount ∧ classify obs = .ready))) := by
  unfold classify
  by_cases hconnected : obs.connected = true
  · by_cases hserved : obs.attributeCount = 0 ∨ obs.controlCharsFound = false
    · right; left
      exact ⟨hserved, by rcases hserved with h | h <;> simp [hconnected, h]⟩
    · rw [not_or, Bool.not_eq_false] at hserved
      right; right
      refine ⟨hconnected, hserved.1, hserved.2, ?_⟩
      by_cases hnotify : obs.notifySucceeded = true
      · right
        refine ⟨hnotify, ?_⟩
        by_cases hcount : obs.subscribedCount < obs.requiredSubscriptions
        · exact Or.inl ⟨hcount, by simp [hconnected, hserved, hnotify, hcount]⟩
        · exact Or.inr ⟨Nat.le_of_not_lt hcount,
            by simp [hconnected, hserved, hnotify, hcount]⟩
      · left
        rw [Bool.not_eq_true] at hnotify
        exact ⟨hnotify, by simp [hconnected, hserved, hnotify]⟩
  · rw [Bool.not_eq_true] at hconnected
    left
    refine ⟨hconnected, ?_⟩
    cases hseen : obs.leCandidatePresent with
    | true => exact Or.inl (by simp [hconnected])
    | false => exact Or.inr (by simp [hconnected])

theorem of_classify_eq_ready {obs : LinkObservation} (h : classify obs = .ready) :
    obs.controlCharsFound = true ∧ obs.requiredSubscriptions ≤ obs.subscribedCount := by
  rcases classify_cases obs with ⟨-, hstage | hstage⟩ | ⟨-, hstage⟩ |
    ⟨-, -, hfound, ⟨-, hstage⟩ | ⟨-, ⟨-, hstage⟩ | ⟨hcount, -⟩⟩⟩
  case inr.inr.inr.inr => exact ⟨hfound, hcount⟩
  all_goals simp [hstage] at h

theorem of_classify_eq_servicesResolved {obs : LinkObservation}
    (h : classify obs = .servicesResolved) :
    obs.controlCharsFound = true ∧ obs.notifySucceeded = false := by
  rcases classify_cases obs with ⟨-, hstage | hstage⟩ | ⟨-, hstage⟩ |
    ⟨-, -, hfound, ⟨hnotify, -⟩ | ⟨-, ⟨-, hstage⟩ | ⟨-, hstage⟩⟩⟩
  case inr.inr.inl => exact ⟨hfound, hnotify⟩
  all_goals simp [hstage] at h

theorem of_classify_eq_encrypted {obs : LinkObservation}
    (h : classify obs = .encrypted) : obs.controlCharsFound = true := by
  rcases classify_cases obs with ⟨-, hstage | hstage⟩ | ⟨-, hstage⟩ | ⟨-, -, hfound, -⟩
  case inr.inr => exact hfound
  all_goals simp [hstage] at h

end LinkMachine

end GoproNative
