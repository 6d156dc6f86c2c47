import GoproNative.Queue.Definitions
import GoproNative.Query.Definitions
import GoproNative.Support.Transition

/-!
# The BLE session

This module embeds `ble_session.cpp`, which joins a reassembler for each
characteristic, the query parser, the readiness fold and the command queue.
A call of the session is a `Turn`: the session afterwards and what it reported.
The callbacks of a session are those its bridge installs.  They post what they
are told and return, so no call of the session begins inside another one.

Submissions are numbered as they are made, so that a completion tells whose it
is; the source hands the queue a fresh closure each time.
-/

namespace GoproNative

/-! ## Channels and correlation -/

/-- The characteristic pairs. -/
inductive Channel
  | command
  | settings
  | query
  | network
  deriving DecidableEq, Repr

/-- The enumerator's value. -/
def Channel.value : Channel → UInt8
  | command => 0
  | settings => 1
  | query => 2
  | network => 3

def correlationOf (channel : Channel) (leadingByte : UInt8) : CorrelationId :=
  (channel.value.toUInt64 <<< 8) ||| leadingByte.toUInt64

/-- Keeps protobuf ids out of the one-byte space. -/
def kProtobufCorrelationBit : CorrelationId := (1 : UInt64) <<< 24

def protobufResponseAction (request : UInt8) : UInt8 := request ||| 0x80

/-- The channel of a correlation id of either width. -/
def channelOfCorrelation (id : CorrelationId) : UInt8 :=
  let shift := if id &&& kProtobufCorrelationBit ≠ 0 then 16 else 8
  ((id >>> shift) &&& 0xFF).toUInt8

def correlationOfProtobuf (channel : Channel) (featureId requestActionId : UInt8) :
    CorrelationId :=
  kProtobufCorrelationBit ||| (channel.value.toUInt64 <<< 16) |||
    (featureId.toUInt64 <<< 8) ||| (protobufResponseAction requestActionId).toUInt64

def correlationOfMessage (channel : Channel) : Bytes → CorrelationId
  | [] => correlationOf channel 0
  | b :: _ => correlationOf channel b

/-- The id a protobuf reply carries: its action is already in response form. -/
def protobufCorrelationOfMessage (channel : Channel) (b0 b1 : UInt8) :
    CorrelationId :=
  kProtobufCorrelationBit ||| (channel.value.toUInt64 <<< 16) |||
    (b0.toUInt64 <<< 8) ||| b1.toUInt64

/-! ## Keep-alive -/

def kLedSettingId : UInt8 := 91
def kKeepAliveValue : UInt8 := 66

/-- Setting write: `[setting id][length][value]`. -/
def keepAlivePayload : Bytes := [kLedSettingId, 1, kKeepAliveValue]

/-! ## The session -/

structure SessionConfig where
  keepAliveIntervalMs : UInt32 := 3000
  attPayload : Nat := kMinAttPayload
  queue : CommandQueueOptions := {}
  deriving DecidableEq

/-- What the closure that `enqueue` hands to the queue stands for. -/
structure Submission where
  /-- The id the closure captures. -/
  id : CorrelationId
  /-- How many submissions came before. -/
  number : Nat
  /-- Whether it is `tick`'s own. -/
  byTick : Bool
  deriving DecidableEq

inductive SessionEvent
  /-- `deliver` begins to work on a message. -/
  | received (channel : Channel) (message : Bytes)
  /-- The queue writes an entry: one `write_` on the channel for each packet. -/
  | write (e : Entry Submission) (channel : UInt8) (packets : List Bytes)
  | response (s : Submission) (outcome : Outcome) (payload : Bytes)
  | push (channel : Channel) (parsed : QueryResponse) (message : Bytes)
  | ready (ready : Bool)
  | frameError (channel : Channel) (result : FeedResult)

structure BleSession where
  cfg : SessionConfig
  rx : Channel → Reassembler := fun _ => {}
  queue : CommandQueue Submission
  readyState : ReadyState := {}
  lastKeepAliveMs : UInt64 := 0
  keepAliveStarted : Bool := false
  /-- How many submissions were made. -/
  submissions : Nat := 0

/-- A call of the session: the session afterwards, what it reported in order, and
what it returned (`true` for the ones that return nothing). -/
structure Turn where
  session : BleSession
  events : List SessionEvent := []
  result : Bool := true

namespace BleSession

def new (cfg : SessionConfig) : BleSession where
  cfg := cfg
  queue := { opts := cfg.queue }

/-- What the callbacks given to the queue report. -/
def report (attPayload : Nat) : QueueEvent Submission → List SessionEvent
  | .wrote e _ =>
      [.write e (channelOfCorrelation e.id) (fragment e.payload attPayload)]
  | .completed c => [.response c.done c.outcome c.response]
  | .accepted _ => []
  | .refused _ => []

/-- Calls the queue. -/
def callQueue (s : BleSession) (a : Activation Submission) : Turn where
  session := { s with queue := a.run.1 }
  events := a.run.2.flatMap (report s.cfg.attPayload)
  result := a.result

def setAttPayload (s : BleSession) (bytes : Nat) : BleSession :=
  if kMinAttPayload ≤ bytes then
    { s with cfg := { s.cfg with attPayload := bytes } }
  else s

/-- The id `deliver` answers with a message: the two-byte one if it is in flight. -/
def answeredId (s : BleSession) (channel : Channel) (message : Bytes) :
    CorrelationId :=
  let id := correlationOfMessage channel message
  match message with
  | b0 :: b1 :: _ =>
      let wide := protobufCorrelationOfMessage channel b0 b1
      if s.queue.isInFlight wide then wide else id
  | _ => id

/-- The tail of `deliver` when the message resolved a command. -/
def foldReply (s : BleSession) (message : Bytes) (nowMs : UInt64) : Turn :=
  match parseQuery message with
  | (.ok, parsed) =>
      let was := s.readyState.ready
      let applied := s.readyState.apply parsed
      let s := { s with readyState := applied.2 }
      let announced : List SessionEvent :=
        if applied.1 then [.ready s.readyState.ready] else []
      if s.readyState.ready != was then
        let set := s.callQueue (s.queue.setReady s.readyState.ready nowMs)
        { set with events := announced ++ set.events }
      else { session := s, events := announced }
  | _ => { session := s }

/-- The tail of `deliver` when nobody was waiting for the message. -/
def foldPush (s : BleSession) (channel : Channel) (message : Bytes)
    (nowMs : UInt64) : Turn :=
  let parsed := parseQuery message
  let pushed : List SessionEvent := [.push channel parsed.2 message]
  if parsed.1 = .ok then
    let was := s.readyState.ready
    let applied := s.readyState.apply parsed.2
    let s := { s with readyState := applied.2 }
    if applied.1 then
      let set := s.callQueue (s.queue.setReady s.readyState.ready nowMs)
      { set with events := set.events ++ .ready s.readyState.ready :: pushed }
    else if s.readyState.ready != was then
      let set := s.callQueue (s.queue.setReady s.readyState.ready nowMs)
      { set with events := set.events ++ pushed }
    else { session := s, events := pushed }
  else { session := s, events := pushed }

def deliver (s : BleSession) (channel : Channel) (message : Bytes)
    (nowMs : UInt64) : Turn :=
  let reply := s.callQueue
    (s.queue.onResponse (s.answeredId channel message) message nowMs)
  let rest :=
    if reply.result then reply.session.foldReply message nowMs
    else reply.session.foldPush channel message nowMs
  { rest with events := .received channel message :: (reply.events ++ rest.events) }

def feed (s : BleSession) (channel : Channel) (packet : Bytes)
    (nowMs : UInt64) : Turn :=
  let fed := (s.rx channel).feed packet
  match fed.1 with
  | .needMore => { session := { s with rx := Function.update s.rx channel fed.2 } }
  | .complete =>
      deliver { s with rx := Function.update s.rx channel fed.2.take.2 }
        channel fed.2.take.1 nowMs
  | result =>
      { session := { s with rx := Function.update s.rx channel fed.2 }
        events := [.frameError channel result] }

/-- The shared tail of both submit forms. -/
def enqueue (s : BleSession) (id : CorrelationId) (payload : Bytes)
    (priority : Priority) (byTick : Bool) (nowMs : UInt64) : Turn :=
  callQueue { s with submissions := s.submissions + 1 }
    (s.queue.submit id payload priority ⟨id, s.submissions, byTick⟩ nowMs)

def submit (s : BleSession) (channel : Channel) (payload : Bytes)
    (priority : Priority) (byTick : Bool) (nowMs : UInt64) : Turn :=
  match payload with
  | [] => { session := s, result := false }
  | b :: _ => s.enqueue (correlationOf channel b) payload priority byTick nowMs

def submitProtobuf (s : BleSession) (channel : Channel) (featureId actionId : UInt8)
    (message : Bytes) (priority : Priority) (nowMs : UInt64) : Turn :=
  s.enqueue (correlationOfProtobuf channel featureId actionId)
    (featureId :: actionId :: message) priority false nowMs

def tick (s : BleSession) (nowMs : UInt64) : Turn :=
  let swept := s.callQueue (s.queue.tick nowMs)
  let s := swept.session
  if !s.keepAliveStarted then
    { swept with session :=
        { s with keepAliveStarted := true, lastKeepAliveMs := nowMs } }
  else if nowMs - s.lastKeepAliveMs < s.cfg.keepAliveIntervalMs.toUInt64 then swept
  else
    let sent := submit { s with lastKeepAliveMs := nowMs }
      .settings keepAlivePayload .keepAlive true nowMs
    { session := sent.session, events := swept.events ++ sent.events }

def onDisconnect (s : BleSession) : Turn :=
  let canceled := callQueue { s with rx := fun _ => {} } s.queue.cancelAll
  let s := canceled.session
  let was := s.readyState.ready
  let s := { s with readyState := s.readyState.reset }
  let set := s.callQueue (s.queue.setReady false 0)
  { session := { set.session with keepAliveStarted := false }
    events := canceled.events ++ set.events ++
      if was then [.ready false] else [] }

end BleSession

/-! ## Runs -/

/-- The calls of a session's owner. -/
inductive SessionOp
  | feed (channel : Channel) (packet : Bytes) (nowMs : UInt64)
  | submit (channel : Channel) (payload : Bytes) (priority : Priority)
      (nowMs : UInt64)
  | submitProtobuf (channel : Channel) (featureId actionId : UInt8)
      (message : Bytes) (priority : Priority) (nowMs : UInt64)
  | tick (nowMs : UInt64)
  | setAttPayload (bytes : Nat)
  | onDisconnect
  deriving DecidableEq

namespace BleSession

def perform (s : BleSession) : SessionOp → Turn
  | .feed channel packet nowMs => s.feed channel packet nowMs
  | .submit channel payload priority nowMs =>
      s.submit channel payload priority false nowMs
  | .submitProtobuf channel featureId actionId message priority nowMs =>
      s.submitProtobuf channel featureId actionId message priority nowMs
  | .tick nowMs => s.tick nowMs
  | .setAttPayload bytes => { session := s.setAttPayload bytes }
  | .onDisconnect => s.onDisconnect

def next (s : BleSession) (op : SessionOp) : BleSession × List SessionEvent :=
  ((s.perform op).session, (s.perform op).events)

/-- All runs of a session, from any configuration it can be constructed with. -/
def lts : Lts BleSession (SessionOp × List SessionEvent) :=
  .ofTotal (fun s => ∃ cfg, s = new cfg) next

end BleSession

end GoproNative
