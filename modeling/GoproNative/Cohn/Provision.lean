import GoproNative.Client.Polling

/-!
# What a provisioning returns

The credentials that `provision` returns are those of one status, the first that has the
camera on the network, and go with a certificate that was fetched behind it.  Before that
the camera accepted the creation of the certificate and the setting.
-/

namespace GoproNative

namespace CohnClient

open Body (sent events)

variable {pb : CohnProtobuf} {a : ProvisionArguments} {start t : Int} {p : Provision}
  {c : CohnCredentials} {labels : List (BodyEvent × Option ProtobufRequest)}

/-- What an answer to `status` makes of the wait. -/
def judge : Except CohnError NotifyCOHNStatus → Option (Except CohnError NotifyCOHNStatus)
  | .error e => some (.error e)
  | .ok s => if connected s then some (.ok s) else none

def reachesNetwork (a : ProvisionArguments) :
    Poll (Except CohnError NotifyCOHNStatus) (Except CohnError NotifyCOHNStatus) where
  judge := judge
  expired := .error timedOut
  timeout := a.timeout

/-- The body at a stage of the wait. -/
def atStage (start : Int) : Poll.Stage (Except CohnError NotifyCOHNStatus) → Provision
  | .asking => .asking start
  | .resting => .resting start
  | .over (.error e) => .finished (.error e)
  | .over (.ok s) =>
      if s.username = none ∨ s.password = none then .finished (.error noCredentials)
      else .fetching s

theorem atStage_check (a : ProvisionArguments) (start now : Int) :
    atStage start ((reachesNetwork a).check start now) = whileInTime a start now := by
  rw [Poll.check, apply_ite (atStage start)]
  rfl

theorem atStage_heed (start : Int) (reply : Except DartError BleResponse) :
    atStage start ((reachesNetwork a).heed ((status pb false).receive reply)) =
      behind (status pb false) reply (heedStatus start) := by
  rw [behind]
  rcases (status pb false).receive reply with e | s
  · rfl
  · have hjudge : (reachesNetwork a).judge (.ok s) =
        if connected s then some (.ok s) else none := rfl
    by_cases hconnected : connected s = true
    all_goals
      simp only [Poll.heed, hjudge, heedStatus, hconnected, if_true, if_false,
        Bool.false_eq_true]
      rfl

theorem provision_polls (start : Int) :
    (provision pb a).Polls (reachesNetwork a) start (status pb false).receive
      (status pb false).request (atStage start) where
  next := by
    intro st ev hlive
    rcases st with _ | _ | r
    · rcases ev with ⟨reply, now⟩ | now
      · exact congrArg some (atStage_heed start reply).symm
      · rfl
    · rcases ev with ⟨reply, now⟩ | now
      · rfl
      · exact congrArg some (atStage_check a start now).symm
    · exact absurd rfl (hlive r)
  asking := rfl
  resting := rfl

/-! ## The first two calls -/

theorem behind_cases {α : Type} (call : Call α) (reply : Except DartError BleResponse)
    (k : α → Provision) :
    (∃ e, call.receive reply = .error e ∧ behind call reply k = .finished (.error e)) ∨
      ∃ x, call.receive reply = .ok x ∧ behind call reply k = k x := by
  rw [behind]
  rcases call.receive reply with e | x
  · exact Or.inl ⟨e, rfl, rfl⟩
  · exact Or.inr ⟨x, rfl, rfl⟩

theorem finished_stuck (r : Except CohnError CohnCredentials) (ev : BodyEvent) :
    (provision pb a).next (.finished r) ev = none := by
  cases ev <;> rfl

/-- The camera accepted both calls, and behind them the loop was entered. -/
def Entered (pb : CohnProtobuf) (a : ProvisionArguments) (start : Int)
    (labels : List (BodyEvent × Option ProtobufRequest)) (p : Provision) : Prop :=
  ∃ created t₀ enabled t₁ polled,
    labels = (.replied created t₀, some (setEnabled pb true).request) ::
      (.replied enabled t₁, provisionAwaits pb a (whileInTime a start t₁)) :: polled ∧
    (create pb a.override).receive created = .ok () ∧
    (setEnabled pb true).receive enabled = .ok () ∧
    (provision pb a).lts.Run (whileInTime a start t₁) polled p

/-- The requests of a provisioning that asks for the status `n` times. -/
def requests (pb : CohnProtobuf) (a : ProvisionArguments) (n : Nat) : List ProtobufRequest :=
  (create pb a.override).request :: (setEnabled pb true).request ::
    (List.replicate n (status pb false).request ++ [(certificate pb).request])

theorem entered_of_run (hrun : (provision pb a).lts.Run (.creating start) labels p) :
    Entered pb a start labels p ∨
      (sent (provision pb a) (.creating start) labels <+: requests pb a 0 ∧
        ∀ c, p ≠ .finished (.ok c)) := by
  cases hrun with
  | nil => exact Or.inr ⟨⟨_, rfl⟩, nofun⟩
  | @cons _ u _ label rest hstep hrest =>
      obtain ⟨ev, o⟩ := label
      obtain ⟨hnext, rfl⟩ := Body.step_iff.mp hstep
      rcases ev with ⟨created, t₀⟩ | t₀
      · obtain rfl := Option.some.inj hnext
        rcases behind_cases (create pb a.override) created fun _ => .enabling start with
          ⟨e, -, heq⟩ | ⟨⟨⟩, hcreated, heq⟩
        · rw [heq] at hrest ⊢
          obtain ⟨rfl, rfl⟩ := Body.run_nil (finished_stuck _) hrest
          exact Or.inr ⟨⟨_, rfl⟩, nofun⟩
        · rw [heq] at hrest ⊢
          cases hrest with
          | nil => exact Or.inr ⟨⟨_, rfl⟩, nofun⟩
          | @cons _ v _ label polled hstep hrest =>
              obtain ⟨ev, o⟩ := label
              obtain ⟨hnext, rfl⟩ := Body.step_iff.mp hstep
              rcases ev with ⟨enabled, t₁⟩ | t₁
              · obtain rfl := Option.some.inj hnext
                rcases behind_cases (setEnabled pb true) enabled
                    fun _ => whileInTime a start t₁ with ⟨e, -, heq⟩ | ⟨⟨⟩, henabled, heq⟩
                · rw [heq] at hrest ⊢
                  obtain ⟨rfl, rfl⟩ := Body.run_nil (finished_stuck _) hrest
                  exact Or.inr ⟨⟨_, rfl⟩, nofun⟩
                · rw [heq] at hrest ⊢
                  exact Or.inl ⟨created, t₀, enabled, t₁, polled, rfl, hcreated, henabled, hrest⟩
              · simp [provision, provisionNext] at hnext
      · simp [provision, provisionNext] at hnext

/-! ## The loop and the certificate -/

/-- The certificate was asked for behind a status, and something came of that. -/
def Fetched (pb : CohnProtobuf)
    (st : Poll.Stage (Except CohnError NotifyCOHNStatus))
    (after : List (BodyEvent × Option ProtobufRequest)) (p : Provision) : Prop :=
  ∃ s reply now, st = .over (.ok s) ∧ s.username ≠ none ∧ s.password ≠ none ∧
    after = [(.replied reply now, none)] ∧
    p = behind (certificate pb) reply fun cert => .finished (.ok (credentials s cert))

theorem fetched_of_run {r : Except CohnError NotifyCOHNStatus}
    (hrun : (provision pb a).lts.Run (atStage start (.over r)) labels p) :
    (labels = [] ∧ p = atStage start (.over r)) ∨ Fetched pb (.over r) labels p := by
  rcases r with e | s
  · exact Or.inl (Body.run_nil (finished_stuck _) hrun)
  · by_cases hmissing : s.username = none ∨ s.password = none
    · have hstage : atStage start (.over (.ok s)) = .finished (.error noCredentials) :=
        if_pos hmissing
      rw [hstage] at hrun ⊢
      exact Or.inl (Body.run_nil (finished_stuck _) hrun)
    · have hstage : atStage start (.over (.ok s)) = .fetching s := if_neg hmissing
      rw [hstage] at hrun ⊢
      push Not at hmissing
      cases hrun with
      | nil => exact Or.inl ⟨rfl, rfl⟩
      | @cons _ u _ label rest hstep hrest =>
          obtain ⟨ev, o⟩ := label
          obtain ⟨hnext, rfl⟩ := Body.step_iff.mp hstep
          rcases ev with ⟨reply, now⟩ | now
          · obtain rfl := Option.some.inj hnext
            refine Or.inr ⟨s, reply, now, rfl, hmissing.1, hmissing.2, ?_⟩
            rcases behind_cases (certificate pb) reply
                fun cert => .finished (.ok (credentials s cert)) with
              ⟨e, -, heq⟩ | ⟨cert, -, heq⟩
            · rw [heq] at hrest ⊢
              obtain ⟨rfl, rfl⟩ := Body.run_nil (finished_stuck _) hrest
              exact ⟨rfl, rfl⟩
            · rw [heq] at hrest ⊢
              obtain ⟨rfl, rfl⟩ := Body.run_nil (finished_stuck _) hrest
              exact ⟨rfl, rfl⟩
          · simp [provision, provisionNext] at hnext

/-- A run of the loop: what it asked, and where it ended. -/
theorem loop_of_run (hrun : (provision pb a).lts.Run (whileInTime a start t) labels p) :
    ∃ polled after st, labels = polled ++ after ∧
      ((reachesNetwork a).lts start).Run ((reachesNetwork a).check start t)
        (Body.polls (status pb false).receive polled) st ∧
      sent (provision pb a) (whileInTime a start t) polled =
        List.replicate (Poll.asked (Body.polls (status pb false).receive polled) st)
          (status pb false).request ++ (provision pb a).leaving (atStage start) st ∧
      ((after = [] ∧ p = atStage start st) ∨ Fetched pb st after p) := by
  rw [← atStage_check] at hrun ⊢
  rcases (provision_polls start).stands hrun with
    ⟨st, rfl, hwait, hsent⟩ | ⟨polled, after, r, rfl, hwait, hsent, hafter⟩
  · exact ⟨labels, [], st, (List.append_nil _).symm, hwait, hsent, Or.inl ⟨rfl, rfl⟩⟩
  · exact ⟨polled, after, .over r, rfl, hwait, hsent, fetched_of_run hafter⟩

theorem sent_entered {created enabled : Except DartError BleResponse} {t₀ t₁ : Int}
    (polled : List (BodyEvent × Option ProtobufRequest)) :
    sent (provision pb a) (.creating start)
      ((.replied created t₀, some (setEnabled pb true).request) ::
        (.replied enabled t₁, provisionAwaits pb a (whileInTime a start t₁)) :: polled) =
      (create pb a.override).request :: (setEnabled pb true).request ::
        sent (provision pb a) (whileInTime a start t₁) polled := rfl

theorem sent_append_none (s₀ : Provision) (ev : BodyEvent) :
    sent (provision pb a) s₀ (labels ++ [(ev, none)]) = sent (provision pb a) s₀ labels := by
  rw [Body.sent_snoc, Option.toList_none, List.append_nil]

theorem leaving_prefix (st : Poll.Stage (Except CohnError NotifyCOHNStatus)) :
    (provision pb a).leaving (atStage start) st <+: [(certificate pb).request] := by
  rcases st with _ | _ | (e | s)
  · exact List.nil_prefix
  · exact List.nil_prefix
  · exact List.nil_prefix
  · by_cases hmissing : s.username = none ∨ s.password = none
    · rw [Body.leaving, atStage, if_pos hmissing]
      exact List.nil_prefix
    · rw [Body.leaving, atStage, if_neg hmissing]
      exact List.prefix_refl _

/-! ## What it returns -/

/-- A camera that is on its network at the second look: the messages as their bytes are. -/
def lateProtobuf : CohnProtobuf where
  writeToBuffer
    | .requestGetCOHNStatus register => [0x08, if register then 1 else 0]
    | .requestCreateCOHNCert override => [0x08, if override then 1 else 0]
    | .requestCOHNCert => []
    | .requestSetCOHNSetting active => [0x08, if active then 1 else 0]
  notifyCOHNStatus bytes :=
    if bytes = [0x08, 1] then some { status := some .provisioned }
    else if bytes = [0x08, 1, 0x1A, 1, 0x75, 0x22, 1, 0x70, 0x2A, 1, 0x31] then
      some {
        status := some .provisioned
        username := some (utf16 "u")
        password := some (utf16 "p")
        ipaddress := some (utf16 "1") }
    else none
  responseCOHNCert bytes :=
    if bytes = [0x08, 1, 0x12, 1, 0x78] then
      some { result := some .success, cert := some (utf16 "x") }
    else none
  responseGeneric bytes := if bytes = [0x08, 1] then some { result := .success } else none

def responded (channel : Channel) (featureId actionId : DartInt) (message : Bytes) (now : Int) :
    BodyEvent :=
  .replied (.ok
    { correlationId := BleBindings.protobufCorrelation channel featureId actionId
      outcome := .responded
      payload := featureId.toUInt8 :: protobufResponseAction actionId.toUInt8 :: message }) now

/-- The turns of a provisioning on it. -/
def lateEvents : List BodyEvent :=
  [responded .command featureCommand requestCreateCohnCert [0x08, 1] 10,
    responded .command featureCommand requestCohnSetting [0x08, 1] 20,
    responded .query featureQuery requestGetCohnStatus [0x08, 1] 30, .woke 2000040,
    responded .query featureQuery requestGetCohnStatus
      [0x08, 1, 0x1A, 1, 0x75, 0x22, 1, 0x70, 0x2A, 1, 0x31] 2000050,
    responded .query featureQuery requestGetCohnCert [0x08, 1, 0x12, 1, 0x78] 2000060]

/-- What comes of it. -/
def lateCredentials : CohnCredentials where
  username := utf16 "u"
  password := utf16 "p"
  certificate := utf16 "x"
  ipAddress := some (utf16 "1")

theorem run_late : ∃ labels,
    (provision lateProtobuf {}).lts.Run (.creating 0) labels (.finished (.ok lateCredentials)) ∧
      events labels = lateEvents := by
  obtain ⟨labels, htrace⟩ : ∃ labels, Lts.trace (provision lateProtobuf {}).turn (.creating 0)
      lateEvents = some (.finished (.ok lateCredentials), labels) := ⟨_, rfl⟩
  exact ⟨labels, Lts.run_of_trace htrace, Lts.trace_inputs htrace⟩

/-- In every run of `provision`: what it sends is, in order, the first part of what it would
send in all, with as many status requests as there are, and the pauses between these fit
into the timeout. -/
theorem provision_asks (hrun : (provision pb a).lts.Run (.creating start) labels p)
    (hpaced : BodyEvent.Paced a.poll start (events labels)) :
    ∃ n : Nat, sent (provision pb a) (.creating start) labels <+: requests pb a n ∧
      (0 < n → ((n : Int) - 1) * a.poll < a.timeout) := by
  rcases entered_of_run hrun with
    ⟨created, t₀, enabled, t₁, polled, rfl, -, -, hloop⟩ | ⟨hsent, -⟩
  · obtain ⟨polled, after, st, rfl, hwait, hsent, hend⟩ := loop_of_run hloop
    obtain ⟨hfirst, hsecond, hrest⟩ : start ≤ t₀ ∧ t₀ ≤ t₁ ∧
        BodyEvent.Paced a.poll t₁ (events (polled ++ after)) := hpaced
    have hpolled : BodyEvent.Paced a.poll t₁ (events polled) := by
      rw [events, List.map_append] at hrest
      exact hrest.left
    refine ⟨Poll.asked (Body.polls (status pb false).receive polled) st, ?_,
      Poll.asked_lt (le_trans hfirst hsecond) hwait (BodyEvent.paced_heard hpolled)⟩
    have hafter : sent (provision pb a) (whileInTime a start t₁) (polled ++ after) =
        sent (provision pb a) (whileInTime a start t₁) polled := by
      rcases hend with ⟨rfl, -⟩ | ⟨-, -, -, -, -, -, rfl, -⟩
      · rw [List.append_nil]
      · exact sent_append_none _ _
    rw [sent_entered, hafter, hsent, requests, List.prefix_cons_inj, List.prefix_cons_inj,
      List.prefix_append_right_inj]
    exact leaving_prefix st
  · exact ⟨0, hsent, fun hpos => absurd hpos (Nat.lt_irrefl 0)⟩

/-- Two looks, with a pause of two seconds between them. -/
theorem provision_asks_late : ∃ labels n,
    events labels = lateEvents ∧
      sent (provision lateProtobuf {}) (.creating 0) labels <+: requests lateProtobuf {} n ∧
      (0 < n → ((n : Int) - 1) * 2000000 < 120000000) := by
  obtain ⟨labels, hrun, hevents⟩ := run_late
  have hpaced : BodyEvent.Paced 2000000 0 (events labels) := by
    rw [hevents]
    simp [BodyEvent.Paced, lateEvents, responded, BodyEvent.heard, Poll.Paced]
  obtain ⟨n, hsent, hlt⟩ := provision_asks hrun hpaced
  exact ⟨labels, n, hevents, hsent, hlt⟩

end CohnClient

end GoproNative
