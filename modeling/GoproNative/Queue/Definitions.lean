import GoproNative.Framing.Definitions

/-!
# The command queue

This module embeds `command_queue.cpp`.  Transmission and completion are
callbacks of the owner, so an operation is modelled by what it does up to its
first completion callback, the callbacks it then makes in order, and the pump
that follows them: an `Activation`.  What happens inside a callback is decided
by the owner, and the queue is in a consistent state at that moment.

`κ` is the type of completion callbacks.  An empty `std::function` is one whose
invocation does nothing, so the null test needs no case of its own.
-/

namespace GoproNative

/-- Opaque correlation key. -/
abbrev CorrelationId := UInt64

inductive Priority
  | queued
  | fastpass
  | keepAlive
  deriving DecidableEq, Repr

inductive Outcome
  | responded
  | timedOut
  | canceled
  | rejected
  deriving DecidableEq, Repr

structure CommandQueueOptions where
  writeTimeoutMs : UInt32 := 5000
  queueTimeoutMs : UInt32 := 30000
  deriving DecidableEq

structure Entry (κ : Type) where
  id : CorrelationId
  payload : Bytes
  priority : Priority
  done : κ
  queuedAtMs : UInt64
  sentAtMs : UInt64 := 0
  deriving DecidableEq

structure CommandQueue (κ : Type) where
  opts : CommandQueueOptions
  ready : Bool := false
  pending : List (Entry κ) := []
  inFlight : List (Entry κ) := []

/-- A completion callback with the arguments it is invoked with. -/
structure Call (κ : Type) where
  done : κ
  outcome : Outcome
  response : Bytes
  deriving DecidableEq

/-- What the queue does that its owner can see.  `accepted` and `refused` are
the two ways `submit` takes a submission; `wrote` carries the queue as it is
when `write_` runs. -/
inductive QueueEvent (κ : Type)
  | accepted (e : Entry κ)
  | refused (done : κ)
  | wrote (e : Entry κ) (q : CommandQueue κ)
  | completed (c : Call κ)

namespace CommandQueue

variable {κ : Type}

def isInFlight (q : CommandQueue κ) (id : CorrelationId) : Bool :=
  q.inFlight.any fun e => e.id == id

def canSend (q : CommandQueue κ) (e : Entry κ) : Bool :=
  if q.isInFlight e.id then false
  else
    match e.priority with
    | .keepAlive => true
    | .fastpass => true
    | .queued =>
        if !q.ready then false
        else q.inFlight.all fun f => f.priority != .queued

/-- Records the entry as in flight, then writes it. -/
def send (q : CommandQueue κ) (e : Entry κ) (nowMs : UInt64) :
    QueueEvent κ × CommandQueue κ :=
  let e := { e with sentAtMs := nowMs }
  let q := { q with inFlight := q.inFlight ++ [e] }
  (.wrote e q, q)

/-- One pass of the pump: the first sendable entry goes out. -/
def pumpPass (q : CommandQueue κ) (nowMs : UInt64) :
    Option (QueueEvent κ × CommandQueue κ) :=
  match q.pending.find? q.canSend with
  | none => none
  | some e => some (send { q with pending := q.pending.eraseP q.canSend } e nowMs)

/-- The `while (progressed)` loop.  Every pass but the last one takes an entry
out of `pending`, so `pending.length` passes are enough. -/
def pumpLoop (nowMs : UInt64) :
    Nat → CommandQueue κ → CommandQueue κ × List (QueueEvent κ)
  | 0, q => (q, [])
  | fuel + 1, q =>
      match q.pumpPass nowMs with
      | none => (q, [])
      | some (ev, q') =>
          ((pumpLoop nowMs fuel q').1, ev :: (pumpLoop nowMs fuel q').2)

def pump (q : CommandQueue κ) (nowMs : UInt64) :
    CommandQueue κ × List (QueueEvent κ) :=
  pumpLoop nowMs q.pending.length q

/-- The in-flight half of `tick`'s deadline test. -/
def writeExpired (q : CommandQueue κ) (nowMs : UInt64) (e : Entry κ) : Bool :=
  decide (q.opts.writeTimeoutMs.toUInt64 ≤ nowMs - e.sentAtMs)

/-- The pending half; a zero deadline disables it. -/
def queueExpired (q : CommandQueue κ) (nowMs : UInt64) (e : Entry κ) : Bool :=
  q.opts.queueTimeoutMs != 0 &&
    decide (q.opts.queueTimeoutMs.toUInt64 ≤ nowMs - e.queuedAtMs)

end CommandQueue

/-- An operation up to its first completion callback. -/
structure Activation (κ : Type) where
  /-- The queue when the first callback runs. -/
  queue : CommandQueue κ
  /-- What was done by then. -/
  events : List (QueueEvent κ) := []
  /-- The callbacks to make, in order. -/
  calls : List (Call κ) := []
  /-- The pump after the last callback, if the operation ends in one. -/
  resume : Option UInt64 := none
  /-- What the operation returns; `true` for the ones that return nothing. -/
  result : Bool := true

namespace CommandQueue

variable {κ : Type}

/-- Where `submit` puts a new entry: keep-alive jumps the queue. -/
def push (q : CommandQueue κ) (e : Entry κ) : CommandQueue κ :=
  if e.priority = .keepAlive then { q with pending := e :: q.pending }
  else { q with pending := q.pending ++ [e] }

def submit (q : CommandQueue κ) (id : CorrelationId) (payload : Bytes)
    (priority : Priority) (done : κ) (nowMs : UInt64) : Activation κ :=
  let duplicate := q.isInFlight id || q.pending.any fun e => e.id == id
  if duplicate then
    { queue := q
      events := [.refused done]
      calls := [⟨done, .rejected, []⟩]
      result := false }
  else
    let e : Entry κ := {
      id := id, payload := payload, priority := priority, done := done,
      queuedAtMs := nowMs }
    let q := q.push e
    { queue := (q.pump nowMs).1, events := .accepted e :: (q.pump nowMs).2 }

def setReady (q : CommandQueue κ) (ready : Bool) (nowMs : UInt64) : Activation κ :=
  let q := { q with ready := ready }
  if q.ready then { queue := (q.pump nowMs).1, events := (q.pump nowMs).2 }
  else { queue := q }

def onResponse (q : CommandQueue κ) (id : CorrelationId) (data : Bytes)
    (nowMs : UInt64) : Activation κ :=
  match q.inFlight.find? fun e => e.id == id with
  | none => { queue := q, result := false }
  | some e =>
      { queue := { q with inFlight := q.inFlight.eraseP fun e => e.id == id }
        calls := [⟨e.done, .responded, data⟩]
        resume := some nowMs }

def tick (q : CommandQueue κ) (nowMs : UInt64) : Activation κ :=
  let expired := q.inFlight.filter (q.writeExpired nowMs) ++
    q.pending.filter (q.queueExpired nowMs)
  { queue := { q with
      inFlight := q.inFlight.filter fun e => !q.writeExpired nowMs e
      pending := q.pending.filter fun e => !q.queueExpired nowMs e }
    calls := expired.map fun e => ⟨e.done, .timedOut, []⟩
    resume := some nowMs }

def cancelAll (q : CommandQueue κ) : Activation κ :=
  { queue := { q with inFlight := [], pending := [] }
    calls := (q.inFlight ++ q.pending).map fun e => ⟨e.done, .canceled, []⟩ }

end CommandQueue

/-- The calls an owner can make. -/
inductive QueueOp
  | submit (id : CorrelationId) (payload : Bytes) (priority : Priority)
      (nowMs : UInt64)
  | setReady (ready : Bool) (nowMs : UInt64)
  | onResponse (id : CorrelationId) (data : Bytes) (nowMs : UInt64)
  | tick (nowMs : UInt64)
  | cancelAll
  deriving DecidableEq

/-- The activation of an operation; `done` is the callback a submission brings. -/
def CommandQueue.activate {κ : Type} (q : CommandQueue κ) (done : κ) :
    QueueOp → Activation κ
  | .submit id payload priority nowMs => q.submit id payload priority done nowMs
  | .setReady ready nowMs => q.setReady ready nowMs
  | .onResponse id data nowMs => q.onResponse id data nowMs
  | .tick nowMs => q.tick nowMs
  | .cancelAll => q.cancelAll

/-- The pump an operation ends in, if it ends in one. -/
def CommandQueue.resume {κ : Type} (q : CommandQueue κ) :
    Option UInt64 → CommandQueue κ × List (QueueEvent κ)
  | none => (q, [])
  | some nowMs => q.pump nowMs

/-- An operation whose callbacks return without calling the queue. -/
def Activation.run {κ : Type} (a : Activation κ) :
    CommandQueue κ × List (QueueEvent κ) :=
  ((a.queue.resume a.resume).1,
    a.events ++ a.calls.map .completed ++ (a.queue.resume a.resume).2)

end GoproNative
