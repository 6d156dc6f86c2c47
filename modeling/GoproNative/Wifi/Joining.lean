import GoproNative.Support.Transition
import GoproNative.Wifi.Definitions

/-!
# Joining a network

`scan`, `connect` and `connectNew` listen for the notification that ends them before they
send their request, and await it only once the request is answered.  So each makes a future
that may fail while its body is suspended elsewhere.  A future that completes with an error
while nothing listens to it reports the error to the zone, out of reach of the caller.

The three are one machine.  Its events come in any order: a push is delivered, the push
stream ends, the timer fires, the request is answered or fails, and the body goes on behind
the `await` of its future.  An event says which futures complete, and who listens to each.
-/

namespace GoproNative

structure ResponseStartScanning where
  result : EnumResultGeneric
  deriving DecidableEq

/-- `ResponseConnect` and `ResponseConnectNew`; a missing field is `none`. -/
structure ResponseConnect where
  result : EnumResultGeneric
  provisioningState : Option EnumProvisioning
  deriving DecidableEq

/-- The futures that a call makes before its body is over. -/
inductive JoinFuture
  /-- Of `firstWhere`. -/
  | first
  /-- Of the `timeout` on it. -/
  | timed
  /-- Of the `then` on that. -/
  | settled
  /-- Of `_send`. -/
  | sent
  deriving DecidableEq

inductive Listener
  /-- The future that was made of this one. -/
  | chained
  /-- The body, which throws what it hears to the caller. -/
  | body
  /-- `catchError`, which swallows it. -/
  | catchError
  deriving DecidableEq

/-- A future completes, with an error or with a value. -/
structure Completion where
  future : JoinFuture
  error : Option ClientError
  listener : Option Listener
  deriving DecidableEq

/-- No error goes unheard. -/
def Handled (cs : List Completion) : Prop := ∀ c ∈ cs, c.error ≠ none → c.listener ≠ none

instance (cs : List Completion) : Decidable (Handled cs) :=
  inferInstanceAs (Decidable (∀ c ∈ cs, _))

inductive JoinEvent
  | pushed (message : Bytes)
  /-- The push stream ends. -/
  | closed
  /-- The timer fires. -/
  | timedOut
  /-- `sendProtobuf` throws, or its future completes. -/
  | replied (reply : Except DartError BleResponse)
  /-- The body goes on behind the `await` of the future that it waits for. -/
  | resumed

/-- Where the body is. -/
inductive JoinStage
  /-- At the `await` of `_send`. -/
  | sending
  /-- At the `await` of the future. -/
  | awaiting
  /-- It threw because of the request. -/
  | failed
  /-- It went on behind the future, or never made one. -/
  | finished
  deriving DecidableEq

/-- What tells one of the operations from another: the notifications hold an `α`, and the
call returns a `β`. -/
structure JoinOperation (α β : Type) where
  /-- What a push makes of `firstWhere`; `none` if it goes on waiting. -/
  first : Bytes → Option (Except ClientError α)
  /-- What the timeout throws. -/
  timeout : ClientError
  /-- Whether there is a `then` behind the timeout. -/
  chains : Bool
  /-- What its callback throws. -/
  callback : α → Option ClientError
  /-- What the request is called in errors. -/
  what : String
  /-- What the body throws at the bytes of a reply. -/
  check : Bytes → Option ClientError
  /-- Whether a failed request leaves a `catchError` on the future. -/
  catches : Bool
  finish : α → β

/-- The state of a call. -/
structure Joining (α β : Type) where
  stage : JoinStage := .sending
  /-- `firstWhere` is listening to the pushes. -/
  first : Bool := true
  /-- The timer is active. -/
  timer : Bool := true
  /-- What the future that the body waits for completed with. -/
  inner : Option (Except ClientError α) := none
  /-- What the future that the caller holds completed with. -/
  result : Option (Except ClientError β) := none

/-- The error a future completes with, if it is one. -/
def errorOf {α : Type} : Except ClientError α → Option ClientError
  | .error e => some e
  | .ok _ => none

/-! ## The machine -/

namespace JoinOperation

variable {α β : Type} (op : JoinOperation α β)

/-- What becomes of a completion of `firstWhere` behind the `then`. -/
def andThen : Except ClientError α → Except ClientError α
  | .error e => .error e
  | .ok a =>
      match op.callback a with
      | some e => .error e
      | none => .ok a

/-- Who listens to the future that the body is to wait for, until it completes. -/
def listener (j : Joining α β) : Option Listener :=
  match j.stage with
  | .awaiting => some .body
  | .failed => if op.catches then some .catchError else none
  | _ => none

/-- The `timeout` future completes, and with it the rest of the chain. -/
def settle (j : Joining α β) (r : Except ClientError α) :
    Joining α β × List Completion :=
  let inner := op.andThen r
  ({ j with timer := false, inner := some inner },
    if op.chains then
      [⟨.timed, errorOf r, some .chained⟩, ⟨.settled, errorOf inner, op.listener j⟩]
    else [⟨.timed, errorOf inner, op.listener j⟩])

/-- `firstWhere` completes.  Once the timer has fired, the chain takes no notice. -/
def complete (j : Joining α β) (r : Except ClientError α) :
    Joining α β × List Completion :=
  let j := { j with first := false }
  let first : Completion := ⟨.first, errorOf r, some .chained⟩
  if j.timer then ((op.settle j r).1, first :: (op.settle j r).2) else (j, [first])

/-- What the body throws because of its request. -/
def rejects (reply : Except DartError BleResponse) : Option ClientError :=
  match NetworkClient.send op.what reply with
  | .error e => some e
  | .ok bytes => op.check bytes

def next (j : Joining α β) : JoinEvent → Option (Joining α β × List Completion)
  | .pushed message =>
      if j.first then
        match op.first message with
        | some r => some (op.complete j r)
        | none => some (j, [])
      else some (j, [])
  | .closed => if j.first then some (op.complete j (.error .noElement)) else some (j, [])
  | .timedOut => if j.timer then some (op.settle j (.error op.timeout)) else none
  | .replied reply =>
      if j.stage = .sending then
        let sent : Completion :=
          ⟨.sent, errorOf (NetworkClient.send op.what reply), some .body⟩
        match op.rejects reply with
        | none => some ({ j with stage := .awaiting }, [sent])
        | some e => some ({ j with stage := .failed, result := some (.error e) }, [sent])
      else none
  | .resumed =>
      if j.stage = .awaiting then
        match j.inner with
        | none => none
        | some r => some ({ j with stage := .finished, result := some (r.map op.finish) }, [])
      else none

/-- All runs of a call that begins in `start`. -/
def lts (start : Joining α β) : Lts (Joining α β) (JoinEvent × List Completion) :=
  .ofGuarded (fun j => j = start) op.next

/-! ## The condition -/

/-- What an event completes the future with, if nothing has completed it before. -/
def ends : JoinEvent → Option (Except ClientError α)
  | .pushed message => (op.first message).map op.andThen
  | .closed => some (.error .noElement)
  | .timedOut => some (.error op.timeout)
  | _ => none

/-- The request was answered with success; or it failed, where that leaves a
`catchError`. -/
def Listening (evs : List JoinEvent) : Prop :=
  ∃ reply, .replied reply ∈ evs ∧ (op.rejects reply = none ∨ op.catches = true)

/-- If the first event to end the wait ends it with an error, the future was being listened
to. -/
def InTime (evs : List JoinEvent) : Prop :=
  ∀ before ev after, evs = before ++ ev :: after → (∀ x ∈ before, op.ends x = none) →
    (∃ e, op.ends ev = some (.error e)) → op.Listening before

/-- What the body heard behind its `await` is what the caller hears. -/
def Delivered (j : Joining α β) : Prop :=
  ∀ r, j.stage = .finished → j.inner = some r → j.result = some (r.map op.finish)

end JoinOperation

/-! ## The operations -/

namespace NetworkClient

/-- `FeatureId.networkManagement`. -/
def networkManagement : UInt8 := 2

def notifStartScan : UInt8 := 11
def notifProvisState : UInt8 := 12

/-- Matches a notification by its action id. -/
def isNotification (action : UInt8) : Bytes → Bool
  | feature :: a :: _ => feature == networkManagement && a == action
  | _ => false

/-- `firstWhere` on the notifications with an action, decoded. -/
def firstWhere {α : Type} (action : UInt8) (fromBuffer : Bytes → Except ClientError α)
    (test : α → Bool) (message : Bytes) : Option (Except ClientError α) :=
  if isNotification action message then
    match fromBuffer (message.drop 2) with
    | .error e => some (.error e)
    | .ok a => if test a then some (.ok a) else none
  else none

def scan (fromBuffer : Bytes → Except ClientError NotifStartScanning)
    (response : Bytes → Except ClientError ResponseStartScanning) :
    JoinOperation NotifStartScanning ScanResult where
  first := firstWhere notifStartScan fromBuffer fun n => n.scanningState = .success
  timeout := .network { what := "timed out waiting for the scan to finish" }
  chains := false
  callback := fun _ => none
  what := "start scan"
  check := fun reply =>
    match response reply with
    | .error e => some e
    | .ok started =>
        if started.result ≠ .success then
          some (.network { what := "start scan", result := some started.result })
        else none
  catches := true
  finish := NotifStartScanning.scanResult

def succeeded : List EnumProvisioning := [.successNewAp, .successOldAp]

def pending : List EnumProvisioning := [.unknown, .neverStarted, .started]

/-- What `connect` and `connectNew` have in common, `_awaitProvisioned` with it. -/
def joins (what : String) (fromBuffer : Bytes → Except ClientError EnumProvisioning)
    (response : Bytes → Except ClientError ResponseConnect) :
    JoinOperation EnumProvisioning Unit where
  first := firstWhere notifProvisState fromBuffer fun s => s ∉ pending
  timeout := .network { what := "timed out waiting for the camera to join" }
  chains := true
  callback := fun state =>
    if state ∉ succeeded then
      some (.network { what := "the camera did not join", provisioning := some state })
    else none
  what := what
  check := fun reply =>
    match response reply with
    | .error e => some e
    | .ok r =>
        if r.result ≠ .success then
          some (.network
            { what := what, result := some r.result, provisioning := r.provisioningState })
        else none
  catches := false
  finish := fun _ => ()

def connect (fromBuffer : Bytes → Except ClientError EnumProvisioning)
    (response : Bytes → Except ClientError ResponseConnect) :
    JoinOperation EnumProvisioning Unit :=
  joins "connect" fromBuffer response

def connectNew (fromBuffer : Bytes → Except ClientError EnumProvisioning)
    (response : Bytes → Except ClientError ResponseConnect) :
    JoinOperation EnumProvisioning Unit :=
  joins "connect to a new network" fromBuffer response

/-- Both throw at an empty ssid, before they make a future. -/
def joinStart (ssid : String) : Joining EnumProvisioning Unit :=
  if ssid.isEmpty then
    { stage := .finished, first := false, timer := false
      result := some (.error (.dart (.argumentError "ssid is empty"))) }
  else {}

end NetworkClient

/-! ## A step -/

namespace JoinOperation

variable {α β : Type} {op : JoinOperation α β} {j j' : Joining α β} {ev : JoinEvent}
  {cs : List Completion}

/-- What an event does. -/
inductive Moves (op : JoinOperation α β) (j : Joining α β) :
    JoinEvent → Joining α β × List Completion → Prop
  | ignored {ev : JoinEvent} : (j.first = true → op.ends ev = none) →
      (∀ reply, ev ≠ .replied reply) → Moves op j ev (j, [])
  | completed {ev : JoinEvent} (r : Except ClientError α) : j.first = true →
      op.ends ev = some (op.andThen r) → Moves op j ev (op.complete j r)
  | timedOut : j.timer = true → Moves op j .timedOut (op.settle j (.error op.timeout))
  | replied (reply : Except DartError BleResponse) (result : Option (Except ClientError β)) :
      j.stage = .sending → Moves op j (.replied reply)
        ({ j with
          stage := if op.rejects reply = none then .awaiting else .failed
          result := result },
          [⟨.sent, errorOf (NetworkClient.send op.what reply), some .body⟩])
  | resumed (r : Except ClientError α) : j.stage = .awaiting → j.inner = some r →
      Moves op j .resumed
        ({ j with stage := .finished, result := some (r.map op.finish) }, [])

theorem next_moves {r : Joining α β × List Completion} (h : op.next j ev = some r) :
    op.Moves j ev r := by
  rcases ev with message | _ | _ | reply | _
  · rw [next] at h
    by_cases hlistens : j.first = true
    · rw [if_pos hlistens] at h
      rcases hfirst : op.first message with _ | result
      · rw [hfirst] at h
        obtain rfl := Option.some.inj h
        exact .ignored (fun _ => by rw [ends, hfirst, Option.map_none]) (by simp)
      · rw [hfirst] at h
        obtain rfl := Option.some.inj h
        exact .completed result hlistens (by rw [ends, hfirst, Option.map_some])
    · rw [if_neg hlistens] at h
      obtain rfl := Option.some.inj h
      exact .ignored (fun hon => absurd hon hlistens) (by simp)
  · rw [next] at h
    by_cases hlistens : j.first = true
    · rw [if_pos hlistens] at h
      obtain rfl := Option.some.inj h
      exact .completed _ hlistens rfl
    · rw [if_neg hlistens] at h
      obtain rfl := Option.some.inj h
      exact .ignored (fun hon => absurd hon hlistens) (by simp)
  · rw [next, Option.ite_none_right_eq_some] at h
    obtain ⟨hon, h⟩ := h
    obtain rfl := Option.some.inj h
    exact .timedOut hon
  · rw [next, Option.ite_none_right_eq_some] at h
    obtain ⟨hsending, h⟩ := h
    simp only at h
    split at h
    · next haccepted =>
      obtain rfl := Option.some.inj h
      have hmove : op.Moves j _ _ := .replied reply j.result hsending
      rwa [if_pos haccepted] at hmove
    · next e hrejected =>
      obtain rfl := Option.some.inj h
      have hmove : op.Moves j _ _ := .replied reply (some (.error e)) hsending
      rwa [if_neg (by simp [hrejected])] at hmove
  · rw [next, Option.ite_none_right_eq_some] at h
    obtain ⟨hawaiting, h⟩ := h
    split at h
    · simp at h
    · next result hinner =>
      obtain rfl := Option.some.inj h
      exact .resumed result hawaiting hinner

/-- The error of the future is all that can go unheard. -/
theorem handled_settle (r : Except ClientError α) :
    Handled (op.settle j r).2 ↔ ((∃ e, op.andThen r = .error e) → op.listener j ≠ none) := by
  have herror : errorOf (op.andThen r) ≠ none ↔ ∃ e, op.andThen r = .error e := by
    rcases op.andThen r with e | a
    · simp [errorOf]
    · simp [errorOf]
  rw [← herror, settle]
  by_cases hchains : op.chains
  · simp [Handled, hchains]
  · simp [Handled, hchains]

theorem handled_complete (r : Except ClientError α) :
    Handled (op.complete j r).2 ↔
      (j.timer = true → (∃ e, op.andThen r = .error e) → op.listener j ≠ none) := by
  have hlistener : op.listener { j with first := false } = op.listener j := rfl
  rw [complete]
  simp only
  by_cases htimer : j.timer = true
  · rw [if_pos htimer, ← hlistener, ← handled_settle]
    simp [Handled, htimer]
  · rw [if_neg htimer]
    simp [Handled, htimer]

theorem complete_timer (r : Except ClientError α) : (op.complete j r).1.timer = false := by
  rw [complete]
  simp only
  split
  · rfl
  · next hoff => exact Bool.not_eq_true _ |>.mp hoff

/-- While the timer is active, nothing has completed. -/
structure Fresh (j : Joining α β) : Prop where
  first : j.timer = true → j.first = true
  inner : j.timer = true → j.inner = none

/-- What a step can do to a state. -/
inductive Steps (op : JoinOperation α β) (j : Joining α β) (ev : JoinEvent) :
    Joining α β → Prop
  | ended (j' : Joining α β) : j.timer = true → op.ends ev ≠ none → j'.timer = false →
      Steps op j ev j'
  | late (j' : Joining α β) : j.timer = false → j'.timer = false → Steps op j ev j'
  | idle : op.ends ev = none → (∀ reply, ev ≠ .replied reply) → Steps op j ev j
  | replied (reply : Except DartError BleResponse) (result : Option (Except ClientError β)) :
      ev = .replied reply → j.stage = .sending →
      Steps op j ev { j with
        stage := if op.rejects reply = none then .awaiting else .failed
        result := result }

/-- What goes unheard in a step is the failure of the future, where nothing listens to
it. -/
def Hears (op : JoinOperation α β) (j : Joining α β) (ev : JoinEvent)
    (cs : List Completion) : Prop :=
  Handled cs ↔
    (j.timer = true → (∃ e, op.ends ev = some (.error e)) → op.listener j ≠ none)

theorem hears_silent (h : j.timer = true → op.ends ev = none) : op.Hears j ev [] := by
  refine iff_of_true (by simp [Handled]) ?_
  rintro hon ⟨e, hends⟩
  simp [h hon] at hends

theorem next_spec (hfresh : Fresh j) {r : Joining α β × List Completion}
    (h : op.next j ev = some r) : op.Hears j ev r.2 ∧ op.Steps j ev r.1 := by
  rcases next_moves h with ⟨hignored, hreply⟩ | ⟨result, -, hends⟩ | ⟨hon⟩ |
    ⟨reply, result, hsending⟩ | ⟨result, -, hinner⟩
  case ignored =>
    by_cases hon : j.timer = true
    · have hends := hignored (hfresh.first hon)
      exact ⟨hears_silent fun _ => hends, .idle hends hreply⟩
    · rw [Bool.not_eq_true] at hon
      exact ⟨hears_silent (by simp [hon]), .late _ hon hon⟩
  case completed =>
    refine ⟨?_, ?_⟩
    · rw [Hears, handled_complete, hends]
      simp
    · by_cases hon : j.timer = true
      · exact .ended _ hon (by simp [hends]) (complete_timer result)
      · exact .late _ (Bool.not_eq_true _ |>.mp hon) (complete_timer result)
  case timedOut =>
    refine ⟨?_, .ended _ hon (by simp [ends]) rfl⟩
    rw [Hears, handled_settle]
    simp [ends, andThen, hon]
  case replied =>
    exact ⟨iff_of_true (by simp [Handled]) (by simp [ends]), .replied reply result rfl hsending⟩
  case resumed =>
    have hoff : j.timer = false := by
      by_contra hon
      rw [hfresh.inner (Bool.not_eq_false _ |>.mp hon)] at hinner
      simp at hinner
    exact ⟨hears_silent (by simp [hoff]), .late _ hoff hoff⟩

/-! ## A run -/

/-- Where the body is while nothing has ended the wait, by the replies so far. -/
def Awaits (op : JoinOperation α β) (evs : List JoinEvent) : JoinStage → Prop
  | .sending => ∀ reply, .replied reply ∉ evs
  | .awaiting => ∃ reply, .replied reply ∈ evs ∧ op.rejects reply = none
  | .failed => (∃ reply, .replied reply ∈ evs) ∧
      ∀ reply, .replied reply ∈ evs → op.rejects reply ≠ none
  | .finished => False

/-- What a run keeps of the state and the events that led to it. -/
structure Tracked (op : JoinOperation α β) (evs : List JoinEvent) (j : Joining α β) :
    Prop where
  fresh : Fresh j
  timer : j.timer = true ↔ ∀ ev ∈ evs, op.ends ev = none
  awaits : j.timer = true → op.Awaits evs j.stage

variable {evs : List JoinEvent}

/-- While nothing has ended the wait, the future is listened to exactly if the condition
says so. -/
theorem Tracked.listener_iff (h : op.Tracked evs j) (hon : j.timer = true) :
    op.listener j ≠ none ↔ op.Listening evs := by
  have hawaits := h.awaits hon
  rw [listener]
  rcases hstage : j.stage with _ | _ | _ | _
  · rw [hstage] at hawaits
    refine iff_of_false (by simp) ?_
    rintro ⟨reply, hreply, -⟩
    exact hawaits reply hreply
  · rw [hstage] at hawaits
    obtain ⟨reply, hreply, haccepted⟩ := hawaits
    exact iff_of_true (by simp) ⟨reply, hreply, Or.inl haccepted⟩
  · rw [hstage] at hawaits
    obtain ⟨⟨reply, hreply⟩, hrejected⟩ := hawaits
    have hcatches : op.Listening evs ↔ op.catches = true := by
      constructor
      · rintro ⟨reply', hreply', haccepted | hcatches⟩
        · exact absurd haccepted (hrejected reply' hreply')
        · exact hcatches
      · intro hcatches
        exact ⟨reply, hreply, Or.inr hcatches⟩
    rw [hcatches]
    by_cases hop : op.catches = true <;> simp [hop]
  · rw [hstage] at hawaits
    exact hawaits.elim

theorem awaits_snoc {stage : JoinStage} (h : op.Awaits evs stage)
    (hreply : ∀ reply, ev ≠ .replied reply) : op.Awaits (evs ++ [ev]) stage := by
  have hmem : ∀ reply, .replied reply ∈ evs ++ [ev] ↔ .replied reply ∈ evs := by
    intro reply
    rw [List.mem_append, List.mem_singleton, or_iff_left (Ne.symm (hreply reply))]
  rcases stage with _ | _ | _ | _
  · simpa only [Awaits, hmem] using h
  · simpa only [Awaits, hmem] using h
  · simpa only [Awaits, hmem] using h
  · exact h

theorem Tracked.step (h : op.Tracked evs j) (hstep : op.Steps j ev j') :
    op.Tracked (evs ++ [ev]) j' := by
  have hends : (∀ x ∈ evs ++ [ev], op.ends x = none) ↔
      (∀ x ∈ evs, op.ends x = none) ∧ op.ends ev = none := by
    simp [or_imp, forall_and]
  rcases hstep with ⟨_, hon, hend, hoff⟩ | ⟨_, hoff, hoff'⟩ | ⟨hend, hreply⟩ |
    ⟨reply, result, rfl, hsending⟩
  · refine ⟨⟨by simp [hoff], by simp [hoff]⟩, ?_, by simp [hoff]⟩
    rw [hends, hoff]
    exact iff_of_false (by simp) fun hall => hend hall.2
  · refine ⟨⟨by simp [hoff'], by simp [hoff']⟩, ?_, by simp [hoff']⟩
    rw [hends, hoff', ← h.timer, hoff]
    simp
  · refine ⟨h.fresh, ?_, fun hon => awaits_snoc (h.awaits hon) hreply⟩
    rw [hends, ← h.timer, and_iff_left hend]
  · have hnoend : op.ends (.replied reply) = none := rfl
    refine ⟨⟨h.fresh.first, h.fresh.inner⟩, ?_, ?_⟩
    · rw [hends, ← h.timer, and_iff_left hnoend]
    · intro hon
      have hnone := h.awaits hon
      rw [hsending] at hnone
      change op.Awaits (evs ++ [.replied reply])
        (if op.rejects reply = none then .awaiting else .failed)
      by_cases haccepted : op.rejects reply = none
      · rw [if_pos haccepted]
        exact ⟨reply, by simp, haccepted⟩
      · rw [if_neg haccepted]
        refine ⟨⟨reply, by simp⟩, ?_⟩
        intro reply' hreply'
        rcases List.mem_append.mp hreply' with hold | hnew
        · exact absurd hold (hnone reply')
        · obtain rfl : reply' = reply := by simpa using hnew
          exact haccepted

theorem inTime_nil (op : JoinOperation α β) : op.InTime [] := by
  intro before ev after heq
  simp at heq

theorem inTime_snoc :
    op.InTime (evs ++ [ev]) ↔ op.InTime evs ∧
      ((∀ x ∈ evs, op.ends x = none) → (∃ e, op.ends ev = some (.error e)) →
        op.Listening evs) := by
  constructor
  · intro h
    refine ⟨?_, h evs ev [] rfl⟩
    rintro before x after rfl
    exact h before x (after ++ [ev]) (by simp)
  · rintro ⟨hold, hnew⟩ before x after heq
    rcases List.eq_nil_or_concat after with rfl | ⟨after', last, rfl⟩
    · obtain ⟨rfl, hx⟩ := List.append_inj' heq rfl
      obtain rfl : ev = x := by simpa using hx
      exact hnew
    · rw [List.concat_eq_append, ← List.cons_append, ← List.append_assoc] at heq
      exact hold before x after' (List.append_inj' heq rfl).1

theorem tracked_start (op : JoinOperation α β) : op.Tracked [] {} :=
  ⟨⟨fun _ => rfl, fun _ => rfl⟩, by simp, by simp [Awaits]⟩

/-- No error of a run goes unheard exactly if the wait is not ended with an error too
early. -/
theorem handled_run_iff {labels : List (JoinEvent × List Completion)} {j : Joining α β}
    (hrun : (op.lts {}).Run {} labels j) :
    (∀ label ∈ labels, Handled label.2) ↔ op.InTime (labels.map Prod.fst) := by
  refine (hrun.history (I := fun labels j => op.Tracked (labels.map Prod.fst) j ∧
    ((∀ label ∈ labels, Handled label.2) ↔ op.InTime (labels.map Prod.fst)))
    ⟨tracked_start op, by simp [inTime_nil]⟩ ?_).2
  rintro labels j ⟨ev, cs⟩ j' ⟨htracked, hiff⟩ hstep
  obtain ⟨hhears, hsteps⟩ := next_spec htracked.fresh hstep
  have hlast : Handled cs ↔ ((∀ x ∈ labels.map Prod.fst, op.ends x = none) →
      (∃ e, op.ends ev = some (.error e)) → op.Listening (labels.map Prod.fst)) := by
    rw [← htracked.timer]
    refine hhears.trans (forall_congr' fun hon => ?_)
    rw [htracked.listener_iff hon]
  rw [List.map_append, List.map_singleton]
  refine ⟨htracked.step hsteps, ?_⟩
  rw [inTime_snoc, ← hiff, ← hlast]
  simp [or_imp, forall_and]

/-- The body goes on once, behind a future that is complete. -/
structure Told (op : JoinOperation α β) (j : Joining α β) : Prop where
  inner : j.timer = true → j.inner = none
  finished : j.stage = .finished →
    ∃ r, j.inner = some r ∧ j.result = some (r.map op.finish)

theorem Told.settle (h : op.Told j) (hon : j.timer = true) (r : Except ClientError α) :
    op.Told (op.settle j r).1 := by
  refine ⟨by simp [JoinOperation.settle], ?_⟩
  intro hfinished
  obtain ⟨r', hinner, -⟩ := h.finished hfinished
  rw [h.inner hon] at hinner
  simp at hinner

theorem Told.complete (h : op.Told j) (r : Except ClientError α) :
    op.Told (op.complete j r).1 := by
  have hj : op.Told { j with first := false } := ⟨h.inner, h.finished⟩
  rw [JoinOperation.complete]
  simp only
  split
  · next hon => exact hj.settle hon r
  · exact hj

theorem Told.next (h : op.Told j) {r : Joining α β × List Completion}
    (hnext : op.next j ev = some r) : op.Told r.1 := by
  rcases next_moves hnext with _ | ⟨result, -, -⟩ | ⟨hon⟩ | ⟨reply, result, -⟩ |
    ⟨result, -, hinner⟩
  case ignored => exact h
  case completed => exact h.complete result
  case timedOut => exact h.settle hon _
  case replied =>
    refine ⟨h.inner, fun hfinished => ?_⟩
    by_cases haccepted : op.rejects reply = none
    · simp [haccepted] at hfinished
    · simp [haccepted] at hfinished
  case resumed => exact ⟨h.inner, fun _ => ⟨result, hinner, rfl⟩⟩

theorem delivered_run {labels : List (JoinEvent × List Completion)} {j : Joining α β}
    (hrun : (op.lts {}).Run {} labels j) : op.Delivered j := by
  have htold : op.Told j := by
    refine hrun.invariant (I := op.Told) ⟨fun _ => rfl, by simp⟩ ?_
    rintro j ⟨ev, cs⟩ j' hj hstep
    exact hj.next hstep
  intro r hfinished hinner
  obtain ⟨r', hinner', hresult⟩ := htold.finished hfinished
  obtain rfl := Option.some.inj (hinner.symm.trans hinner')
  exact hresult

/-- A call that is over and made no future stays as it is. -/
theorem silent_run {start j : Joining α β} (hfirst : start.first = false)
    (htimer : start.timer = false) (hstage : start.stage = .finished)
    {labels : List (JoinEvent × List Completion)} (hrun : (op.lts start).Run start labels j) :
    j = start ∧ ∀ label ∈ labels, label.2 = [] := by
  refine hrun.labels (I := fun j => j = start) (Q := fun label => label.2 = []) rfl ?_
  rintro j ⟨ev, cs⟩ j' rfl hstep
  have hnext : op.next j ev = some (j', cs) := hstep
  generalize hr : (j', cs) = r at hnext
  rcases next_moves hnext with _ | ⟨_, hon, -⟩ | ⟨hon⟩ | ⟨_, _, hsending⟩ | ⟨_, hawaiting, -⟩
  case ignored => exact Prod.mk.inj hr
  case completed => exact absurd (hfirst.symm.trans hon) Bool.false_ne_true
  case timedOut => exact absurd (htimer.symm.trans hon) Bool.false_ne_true
  case replied => exact absurd (hstage.symm.trans hsending) JoinStage.noConfusion
  case resumed => exact absurd (hstage.symm.trans hawaiting) JoinStage.noConfusion

end JoinOperation

namespace NetworkClient

variable {what : String} {fromBuffer : Bytes → Except ClientError EnumProvisioning}
  {response : Bytes → Except ClientError ResponseConnect}

theorem joins_run_iff {ssid : String} {labels : List (JoinEvent × List Completion)}
    {j : Joining EnumProvisioning Unit}
    (hrun : ((joins what fromBuffer response).lts (joinStart ssid)).Run (joinStart ssid)
      labels j) :
    ((∀ label ∈ labels, Handled label.2) ↔
        ssid = "" ∨ (joins what fromBuffer response).InTime (labels.map Prod.fst)) ∧
      (joins what fromBuffer response).Delivered j := by
  by_cases hssid : ssid = ""
  · subst hssid
    obtain ⟨rfl, hsilent⟩ := JoinOperation.silent_run rfl rfl rfl hrun
    refine ⟨iff_of_true ?_ (Or.inl rfl), ?_⟩
    · intro label hlabel
      rw [hsilent label hlabel]
      simp [Handled]
    · rintro r - hinner
      simp [joinStart] at hinner
  · have hstart : joinStart ssid = {} := by
      rw [joinStart, if_neg (by simpa using hssid)]
    rw [hstart] at hrun
    rw [or_iff_right hssid]
    exact ⟨JoinOperation.handled_run_iff hrun, JoinOperation.delivered_run hrun⟩

/-- When joining a network leaks no error.  In every run of `scan`, `connect` and
`connectNew`, each error of a future is heard exactly if the wait is not ended with an
error before the request is answered with success; for `scan`, before it is answered or
fails.  With an empty ssid no future is made.  What the body hears, the caller hears. -/
theorem join_errors_handled_iff
    (fromScan : Bytes → Except ClientError NotifStartScanning)
    (started : Bytes → Except ClientError ResponseStartScanning)
    (fromBuffer : Bytes → Except ClientError EnumProvisioning)
    (response : Bytes → Except ClientError ResponseConnect) :
    (∀ labels j, ((scan fromScan started).lts {}).Run {} labels j →
      ((∀ label ∈ labels, Handled label.2) ↔
        (scan fromScan started).InTime (labels.map Prod.fst)) ∧
      (scan fromScan started).Delivered j) ∧
    (∀ ssid labels j,
      ((connect fromBuffer response).lts (joinStart ssid)).Run (joinStart ssid) labels j →
      ((∀ label ∈ labels, Handled label.2) ↔
        ssid = "" ∨ (connect fromBuffer response).InTime (labels.map Prod.fst)) ∧
      (connect fromBuffer response).Delivered j) ∧
    ∀ ssid labels j,
      ((connectNew fromBuffer response).lts (joinStart ssid)).Run (joinStart ssid) labels j →
      ((∀ label ∈ labels, Handled label.2) ↔
        ssid = "" ∨ (connectNew fromBuffer response).InTime (labels.map Prod.fst)) ∧
      (connectNew fromBuffer response).Delivered j := by
  refine ⟨?_, ?_, ?_⟩
  · intro labels j hrun
    exact ⟨JoinOperation.handled_run_iff hrun, JoinOperation.delivered_run hrun⟩
  · intro ssid labels j hrun
    exact joins_run_iff hrun
  · intro ssid labels j hrun
    exact joins_run_iff hrun

/-- The reply of a camera that starts to join, and one that refuses to. -/
def acceptedReply : Except DartError BleResponse := .ok ⟨0x1030284, .responded, [2, 0x84, 8, 1]⟩

def refusedReply : Except DartError BleResponse := .ok ⟨0x1030284, .responded, [2, 0x84, 8, 5]⟩

/-- What the protobuf runtime makes of their bodies, and of a notification's. -/
def plainResponse (bytes : Bytes) : Except ClientError ResponseConnect :=
  if bytes = [8, 1] then .ok ⟨.success, none⟩
  else if bytes = [8, 5] then .ok ⟨.argumentInvalid, none⟩
  else .error .invalidProtocolBuffer

def plainProvisioning (bytes : Bytes) : Except ClientError EnumProvisioning :=
  if bytes = [8, 5] then .ok .successNewAp
  else if bytes = [8, 8] then .ok .errorPasswordAuth
  else .error .invalidProtocolBuffer

/-- A wrong passphrase reaches the caller. -/
theorem join_errors_handled_iff_password :
    ∃ labels j, ((connectNew plainProvisioning plainResponse).lts (joinStart "home")).Run
        (joinStart "home") labels j ∧
      j.result = some (.error (.network
        { what := "the camera did not join", provisioning := some .errorPasswordAuth })) ∧
      ∀ label ∈ labels, Handled label.2 := by
  obtain ⟨labels, j, htrace, hresult, hinner⟩ : ∃ labels j,
      Lts.trace (connectNew plainProvisioning plainResponse).next (joinStart "home")
        [.replied acceptedReply, .pushed [2, 12, 8, 8], .resumed] = some (j, labels) ∧
      j.stage = .finished ∧ j.inner = some (.error (.network
        { what := "the camera did not join", provisioning := some .errorPasswordAuth })) :=
    ⟨_, _, rfl, rfl, rfl⟩
  have hrun : ((connectNew plainProvisioning plainResponse).lts (joinStart "home")).Run
      (joinStart "home") labels j := Lts.run_of_trace htrace
  obtain ⟨hiff, hdelivered⟩ := (join_errors_handled_iff (fun _ => .error .invalidProtocolBuffer)
    (fun _ => .error .invalidProtocolBuffer) plainProvisioning plainResponse).2.2 _ _ _ hrun
  refine ⟨labels, j, hrun, hdelivered _ hresult hinner, hiff.mpr (Or.inr ?_)⟩
  rw [Lts.trace_inputs htrace]
  -- the reply is there before the first event that ends the wait
  have hlistening : (connectNew plainProvisioning plainResponse).Listening
      [.replied acceptedReply] := ⟨_, List.mem_singleton.mpr rfl, Or.inl rfl⟩
  change JoinOperation.InTime _ ((([] ++ [.replied acceptedReply]) ++ [.pushed [2, 12, 8, 8]]) ++
    [.resumed])
  rw [JoinOperation.inTime_snoc, JoinOperation.inTime_snoc, JoinOperation.inTime_snoc]
  refine ⟨⟨⟨JoinOperation.inTime_nil _, ?_⟩, fun _ _ => hlistening⟩, ?_⟩
  · rintro - ⟨e, hends⟩
    simp [JoinOperation.ends] at hends
  · rintro - ⟨e, hends⟩
    simp [JoinOperation.ends] at hends

/-- The camera refuses to connect, and later its push stream ends. -/
theorem connect_leaks :
    ¬∀ (fromScan : Bytes → Except ClientError NotifStartScanning)
      (started : Bytes → Except ClientError ResponseStartScanning)
      (fromBuffer : Bytes → Except ClientError EnumProvisioning)
      (response : Bytes → Except ClientError ResponseConnect),
      (∀ labels j, ((scan fromScan started).lts {}).Run {} labels j →
        ∀ label ∈ labels, Handled label.2) ∧
      (∀ ssid labels j,
        ((connect fromBuffer response).lts (joinStart ssid)).Run (joinStart ssid) labels j →
        ∀ label ∈ labels, Handled label.2) ∧
      ∀ ssid labels j,
        ((connectNew fromBuffer response).lts (joinStart ssid)).Run (joinStart ssid) labels j →
        ∀ label ∈ labels, Handled label.2 := by
  intro h
  obtain ⟨labels, j, htrace, hleak⟩ : ∃ labels j,
      Lts.trace (connect plainProvisioning plainResponse).next (joinStart "home")
        [.replied refusedReply, .closed] = some (j, labels) ∧
      ∃ label ∈ labels, ¬Handled label.2 :=
    ⟨_, _, rfl, _, List.mem_cons_of_mem _ List.mem_cons_self, by decide⟩
  obtain ⟨label, hlabel, hunheard⟩ := hleak
  exact hunheard ((h (fun _ => .error .invalidProtocolBuffer)
    (fun _ => .error .invalidProtocolBuffer) plainProvisioning plainResponse).2.1 "home" labels j
    (Lts.run_of_trace htrace) label hlabel)

end NetworkClient

end GoproNative
