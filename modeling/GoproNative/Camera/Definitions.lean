import GoproNative.Bridge.Codec
import GoproNative.Link.Definitions
import Mathlib.Data.List.AList

/-!
# The camera

This module embeds `GoProBleCamera` in `ble_transport.dart` with its half of the
bindings in `ble_bindings.dart`, its native session, and the port the session posts
to.  The isolate runs one turn at a time, so the camera is a state machine whose
events begin the turns: a call of the user, a notification, a message of the port, a
tick, a notice of a drop, or the resumption of an `async` body at the `await` it is
suspended in.

What the listeners, the bus and `_bringUp` hand over is the environment's choice,
and so is how long an `await` takes and whether it throws.  While `_detach` is
suspended, any of the subscriptions it is cancelling may still be live.
-/

namespace GoproNative

/-! ## Bindings -/

/-- A Dart integer passed as an `Int32`. -/
def int32 (n : Nat) : Int := (BitVec.ofNat 32 n).toInt

namespace BleBindings

/-- Copies the payload into native memory, a byte for each element. -/
def submit (s : BleSession) (channel : Channel) (payload : List DartInt)
    (priority : Priority) (nowMs : UInt64) : Turn :=
  let buf := payload.map UInt64.toUInt8
  let len := int32 payload.length
  if len ≤ 0 then { session := s, result := false }
  else s.submit channel (buf.take len.toNat) priority false nowMs

def submitProtobuf (s : BleSession) (channel : Channel) (featureId actionId : DartInt)
    (message : List DartInt) (priority : Priority) (nowMs : UInt64) : Turn :=
  let buf := message.map UInt64.toUInt8
  let len := int32 message.length
  if len < 0 then { session := s, result := false }
  else s.submitProtobuf channel featureId.toUInt8 actionId.toUInt8 (buf.take len.toNat)
    priority nowMs

def protobufCorrelation (channel : Channel) (featureId actionId : DartInt) : DartInt :=
  correlationOfProtobuf channel featureId.toUInt8 actionId.toUInt8

def feed (s : BleSession) (channel : Channel) (bytes : Bytes) (nowMs : UInt64) : Turn :=
  let len := int32 bytes.length
  if bytes = [] ∨ len < 0 then { session := s }
  else s.feed channel (bytes.take len.toNat) nowMs

end BleBindings

/-! ## Data -/

/-- Whether the camera can be talked to. -/
inductive CameraLink
  | up
  | reconnecting
  | down
  deriving DecidableEq, Repr

def CameraLink.name : CameraLink → String
  | up => "up"
  | reconnecting => "reconnecting"
  | down => "down"

def Channel.name : Channel → String
  | command => "command"
  | settings => "settings"
  | query => "query"
  | network => "network"

/-- `BleFrameError.name`. -/
def FeedResult.name : FeedResult → String
  | needMore => "needMore"
  | complete => "complete"
  | emptyPacket => "emptyPacket"
  | truncatedHdr => "truncatedHeader"
  | reservedHdr => "reservedHeader"
  | strayCont => "strayContinuation"
  | overflow => "overflow"
  | zeroLength => "zeroLength"

/-- `toRadixString`. -/
def DartInt.toRadixString (x : DartInt) (radix : Nat) : String :=
  if x < 0x8000000000000000 then String.ofList (Nat.toDigits radix x.toNat)
  else "-" ++ String.ofList (Nat.toDigits radix (0 - x).toNat)

/-- A map with its entries, the latest first. -/
abbrev DartMap (κ ν : Type) := AList fun _ : κ => ν

structure BlueZDevice where
  objectPath : String
  address : String
  deriving DecidableEq

structure BlueZGattCharacteristic where
  objectPath : String
  mtu : Nat
  deriving DecidableEq

def kBusyStatusId : DartInt := 8
def kEncodingStatusId : DartInt := 10

/-- What bring-up produced. -/
structure Attached where
  device : BlueZDevice
  writes : DartMap Channel BlueZGattCharacteristic
  notifies : DartMap Channel BlueZGattCharacteristic

/-- What bring-up returns for a camera without a Camera Management service. -/
def plainCamera : Attached where
  device := ⟨"/org/bluez/hci0/dev", "C0:FF:EE:00:00:01"⟩
  writes := [⟨.command, ⟨"0072", 517⟩⟩, ⟨.settings, ⟨"0074", 517⟩⟩,
    ⟨.query, ⟨"0076", 517⟩⟩].toAList
  notifies := [⟨.command, ⟨"0073", 517⟩⟩, ⟨.settings, ⟨"0075", 517⟩⟩,
    ⟨.query, ⟨"0077", 517⟩⟩].toAList

inductive DartError
  | stateError (message : String)
  | argumentError (message : String)
  /-- `GoProBleException`. -/
  | bringUp (state : LinkState) (reason : StallReason) (detail : String)
  deriving DecidableEq

/-- The completer of a call of `send`, by the number of the submission it was made
for. -/
structure Completer where
  number : Nat
  deriving DecidableEq

/-- A message on its way to `_onEvent`.  Dart sees the bytes only. -/
structure Posted where
  bytes : Bytes
  /-- The event the session posted them for. -/
  origin : SessionEvent
  posted : bytes ∈ origin.posts

def SessionEvent.post (ev : SessionEvent) : List Posted :=
  ev.posts.attach.map fun bytes => ⟨bytes.1, ev, bytes.2⟩

/-- The controllers of a camera's streams. -/
inductive CameraStream
  | pushes
  | readyChanges
  | faults
  | linkChanges
  deriving DecidableEq

/-- A subscription that watches for a drop, by the device it was made for. -/
inductive Watch
  | propertiesChanged (device : BlueZDevice)
  | deviceRemoved (device : BlueZDevice)
  deriving DecidableEq

/-- Where `_onDrop` is suspended. -/
inductive DropStage
  /-- In `_detach`. -/
  | detaching
  /-- At `await _transport._bringUp`. -/
  | climbing
  /-- At `await _attach`, by what it threw. -/
  | attaching (failure : Option DartError)
  deriving DecidableEq

/-- Where `close` is suspended. -/
inductive CloseStage
  /-- Cancelling `_watch`. -/
  | unwatching
  /-- In `_detach`. -/
  | detaching
  /-- At `Future.delayed`. -/
  | draining
  /-- Closing the streams; `rest` are yet to be closed. -/
  | closingStreams (rest : List CameraStream)
  deriving DecidableEq

structure Camera where
  device : BlueZDevice
  session : BleSession
  /-- `_session` was handed to `destroy`, and `_events` closed. -/
  destroyed : Bool := false
  /-- `_link` was handed to `linkDestroy`. -/
  linkDestroyed : Bool := false
  writes : DartMap Channel BlueZGattCharacteristic := ∅
  notifies : DartMap Channel BlueZGattCharacteristic := ∅
  subs : List Channel := []
  watch : List Watch := []
  pending : DartMap DartInt Completer := ∅
  /-- Posted and not delivered. -/
  port : List Posted := []
  ticker : Bool := false
  reconnectTimeoutMs : Nat
  state : CameraLink := .up
  closedStreams : List CameraStream := []
  /-- The suspended body of `_onDrop`. -/
  dropping : Option DropStage := none
  /-- The suspended body of `close`. -/
  closing : Option CloseStage := none

/-- What a turn did that can be seen. -/
inductive CameraEvent
  | linkChanged (next : CameraLink)
  | fault (e : DartError)
  | readyChanged (ready : Bool)
  | pushed (channel : Channel) (message : Bytes)
  | wrote (c : BlueZGattCharacteristic) (bytes : Bytes)
  /-- A call of `send` returned its future. -/
  | sent (f : Completer)
  | threw (e : DartError)
  /-- `_onEvent` completed a future with a message of the port. -/
  | answered (f : Completer) (response : BleResponse) (origin : SessionEvent)
  /-- `_resolvePending` completed a future. -/
  | resolved (f : Completer) (response : BleResponse)

namespace Camera

/-! ## The session and the streams -/

/-- A call of the session.  On a destroyed handle it is undefined; here it is void. -/
def call (c : Camera) (t : Turn) : Camera :=
  if c.destroyed then c
  else { c with session := t.session, port := c.port ++ t.events.flatMap SessionEvent.post }

/-- `add` behind an `isClosed` guard. -/
def add (c : Camera) (stream : CameraStream) (ev : CameraEvent) : List CameraEvent :=
  if stream ∈ c.closedStreams then [] else [ev]

def setState (c : Camera) (next : CameraLink) : Camera × List CameraEvent :=
  if c.state = next then (c, [])
  else ({ c with state := next }, c.add .linkChanges (.linkChanged next))

/-! ## Sending -/

/-- The common end of `send` and `sendProtobuf`: the completer is entered under its
id, and taken out again if the submission is refused. -/
def enter (c : Camera) (id : DartInt) (submit : BleSession → Turn)
    (refusal : DartError) : Camera × Except DartError Completer :=
  let completer : Completer := ⟨c.session.submissions⟩
  let turn := submit c.session
  let c := { c with pending := c.pending.insert id completer }.call turn
  if turn.result then (c, .ok completer)
  else ({ c with pending := c.pending.erase id }, .error refusal)

def notUp (c : Camera) : DartError := .stateError ("camera link is " ++ c.state.name)

def send (c : Camera) (channel : Channel) (payload : List DartInt)
    (priority : Option Priority) (nowMs : UInt64) : Camera × Except DartError Completer :=
  if c.state ≠ .up then (c, .error c.notUp)
  else
    match payload with
    | [] => (c, .error (.argumentError "payload is empty"))
    | b :: _ =>
        let priority :=
          priority.getD (if channel = .query then .fastpass else .queued)
        let id := BleCodec.correlationOf channel b
        if id ∈ c.pending then
          (c, .error (.stateError ("a command with correlation 0x" ++
            id.toRadixString 16 ++ " is already outstanding on " ++ channel.name)))
        else
          c.enter id (fun s => BleBindings.submit s channel payload priority nowMs)
            (.stateError ("submission refused for 0x" ++ id.toRadixString 16))

def sendProtobuf (c : Camera) (channel : Channel) (featureId actionId : DartInt)
    (message : List DartInt) (priority : Priority) (nowMs : UInt64) :
    Camera × Except DartError Completer :=
  if c.state ≠ .up then (c, .error c.notUp)
  else
    let id := BleBindings.protobufCorrelation channel featureId actionId
    if id ∈ c.pending then
      (c, .error (.stateError ("a protobuf command for feature 0x" ++
        featureId.toRadixString 16 ++ " action " ++ actionId.toRadixString 10 ++
        " is already outstanding")))
    else
      c.enter id
        (fun s => BleBindings.submitProtobuf s channel featureId actionId message
          priority nowMs)
        (.stateError ("submission refused for feature 0x" ++
          featureId.toRadixString 16 ++ " action " ++ actionId.toRadixString 10))

def queryStatuses (c : Camera) (statusIds : List DartInt) (nowMs : UInt64) :
    Camera × Except DartError Completer :=
  c.send .query (0x13 :: statusIds) none nowMs

/-! ## Attaching and closing -/

/-- The least of the known MTUs, zero if none is known. -/
def leastMtu (notifies : DartMap Channel BlueZGattCharacteristic) : Nat :=
  (notifies.entries.reverse.map fun entry => entry.2.mtu).foldl
    (fun a b => if a = 0 ∨ b < a then b else a) 0

/-- `_attach`.  The status query is not awaited, but what it throws before it
returns a future, `_attach` throws. -/
def attach (c : Camera) (a : Attached) (nowMs : UInt64) :
    Camera × Except DartError Completer :=
  let c := { c with device := a.device, writes := a.writes, notifies := a.notifies }
  let mtu := leastMtu c.notifies
  let c :=
    if 3 < mtu then
      c.call { session := c.session.setAttPayload (mtu - 3).toUInt32.toNat }
    else c
  let c := { c with subs := c.subs ++ c.notifies.keys.reverse }
  match c.queryStatuses [kBusyStatusId, kEncodingStatusId] nowMs with
  | (c, .ok f) =>
      ({ c with watch := c.watch ++ [.propertiesChanged a.device,
          .deviceRemoved a.device] }, .ok f)
  | (c, .error e) => (c, .error e)

/-- `_resolvePending`. -/
def resolvePending (c : Camera) : Camera × List CameraEvent :=
  ({ c with pending := ∅ },
    c.pending.entries.reverse.map fun entry =>
      .resolved entry.2 ⟨entry.1, .canceled, []⟩)

/-- `close` behind the cancellation of `_watch`.  Nothing suspends a `_detach` that has
nothing to cancel. -/
def unwatched (c : Camera) : Camera :=
  let c := { c with watch := [] }
  let c := c.call c.session.onDisconnect
  if c.subs = [] ∧ c.notifies.keys = [] then
    { c with writes := ∅, notifies := ∅, closing := some .draining }
  else { c with closing := some .detaching }

/-- `close`, up to its first `await`. -/
def close (c : Camera) : Camera × List CameraEvent :=
  if c.state = .down then (c, [])
  else
    let set := c.setState .down
    let c : Camera := { set.1 with ticker := false }
    if c.watch = [] then (c.unwatched, set.2)
    else ({ c with closing := some .unwatching }, set.2)

/-- `close` behind the turn it gives the event loop: what is still pending is
resolved, the handles are destroyed, and the port and the first stream closed. -/
def drained (c : Camera) : Camera × List CameraEvent :=
  let resolved := c.resolvePending
  let c := resolved.1.call resolved.1.session.onDisconnect
  ({ c with
      destroyed := true, linkDestroyed := true, port := []
      closedStreams := .pushes :: c.closedStreams
      closing := some (.closingStreams [.readyChanges, .faults, .linkChanges]) },
    resolved.2)

/-! ## Drops -/

/-- `_onDrop`, up to its first `await`. -/
def onDrop (c : Camera) (why : String) : Camera × List CameraEvent :=
  if c.state ≠ .up then (c, [])
  else if c.reconnectTimeoutMs = 0 then
    let closed := c.close
    (closed.1, .fault (.stateError ("link lost: " ++ why)) :: closed.2)
  else
    let set := c.setState .reconnecting
    let c := set.1.call set.1.session.onDisconnect
    ({ c with dropping := some .detaching },
      set.2 ++ [.fault (.stateError ("link lost: " ++ why ++ "; reconnecting"))])

/-- The `catch` of `_onDrop`.  On a closed stream `add` throws, and then the camera
is down already. -/
def giveUp (c : Camera) (e : DartError) : Camera × List CameraEvent :=
  let closed := close { c with dropping := none }
  (closed.1, c.add .faults (.fault e) ++ closed.2)

/-! ## Events of the port -/

/-- `_onEvent`, on a decoded event. -/
def onEvent (c : Camera) (origin : SessionEvent) : BleEvent → Camera × List CameraEvent
  | .writeRequest channel bytes =>
      match c.writes.lookup channel with
      | some characteristic => (c, [.wrote characteristic bytes])
      | none => (c, [])
  | .response r =>
      match c.pending.lookup r.correlationId with
      | some f =>
          ({ c with pending := c.pending.erase r.correlationId },
            [.answered f r origin])
      | none => (c, [])
  | .readyChanged ready => (c, c.add .readyChanges (.readyChanged ready))
  | .push channel message => (c, c.add .pushes (.pushed channel message))
  | .frameError channel error =>
      (c, c.add .faults (.fault (.stateError
        ("framing error on " ++ channel.name ++ ": " ++ error.name))))

end Camera

/-! ## Runs -/

inductive CameraOp
  | send (channel : Channel) (payload : List DartInt) (priority : Option Priority)
      (nowMs : UInt64)
  | sendProtobuf (channel : Channel) (featureId actionId : DartInt)
      (message : List DartInt) (priority : Priority) (nowMs : UInt64)
  /-- The user calls `close`. -/
  | close
  | notification (channel : Channel) (bytes : Bytes) (nowMs : UInt64)
  /-- The port delivers its next message. -/
  | deliver
  /-- The ticker fires. -/
  | tick (connected : Bool) (nowMs : UInt64)
  | propertiesChanged (device : BlueZDevice) (mentionsConnected connected : Bool)
  | deviceRemoved (device : BlueZDevice) (objectPath : String)
  /-- `_detach` ends in `_onDrop`; `ok` is whether it returns. -/
  | dropDetached (ok : Bool)
  /-- `_bringUp` ends. -/
  | broughtUp (result : Except DartError Attached) (nowMs : UInt64)
  /-- The `await` of `_attach` is over. -/
  | attachAwaited
  /-- The `await` that `close` is suspended in is over. -/
  | closeResumed (ok : Bool)

namespace Camera

/-- What a call of `send` gave its caller. -/
def gave : Except DartError Completer → CameraEvent
  | .ok f => .sent f
  | .error e => .threw e

/-- The turn that a resumption of `close` begins. -/
def resumeClose (c : Camera) (ok : Bool) : Option (Camera × List CameraEvent) :=
  match c.closing with
  | none => none
  | some .draining => some c.drained
  | some (.closingStreams []) => some ({ c with closing := none }, [])
  | some (.closingStreams (stream :: rest)) =>
      some ({ c with
        closedStreams := stream :: c.closedStreams
        closing := some (.closingStreams rest) }, [])
  | some stage =>
      if !ok then some ({ c with closing := none }, [])
      else if stage = .unwatching then some (c.unwatched, [])
      else
        some ({ c with
          subs := [], writes := ∅, notifies := ∅, closing := some .draining }, [])

/-- One turn of the isolate; `none` where it cannot begin. -/
def next (c : Camera) : CameraOp → Option (Camera × List CameraEvent)
  | .send channel payload priority nowMs =>
      let r := c.send channel payload priority nowMs
      some (r.1, [gave r.2])
  | .sendProtobuf channel featureId actionId message priority nowMs =>
      let r := c.sendProtobuf channel featureId actionId message priority nowMs
      some (r.1, [gave r.2])
  | .close => some c.close
  | .notification channel bytes nowMs =>
      if channel ∈ c.subs then
        some (c.call (BleBindings.feed c.session channel bytes nowMs), [])
      else none
  | .deliver =>
      match c.port with
      | [] => none
      | m :: port =>
          let c := { c with port := port }
          match BleCodec.decode m.bytes with
          | none => some (c, [])
          | some ev => some (c.onEvent m.origin ev)
  | .tick connected nowMs =>
      if c.ticker then
        let c := c.call (c.session.tick nowMs)
        if c.state = .up ∧ connected = false then
          some (c.onDrop "the device is no longer connected")
        else some (c, [])
      else none
  | .propertiesChanged device mentionsConnected connected =>
      if .propertiesChanged device ∈ c.watch then
        if mentionsConnected ∧ connected = false then
          some (c.onDrop "BlueZ reported the device disconnected")
        else some (c, [])
      else none
  | .deviceRemoved device objectPath =>
      if .deviceRemoved device ∈ c.watch then
        if objectPath = device.objectPath then
          some (c.onDrop "the device object was removed from BlueZ")
        else some (c, [])
      else none
  | .dropDetached ok =>
      if c.dropping = some .detaching then
        if ok then
          let detached :=
            { c with subs := [], writes := ∅, notifies := ∅, dropping := some .climbing }
          some detached.resolvePending
        else some ({ c with dropping := none }, [])
      else none
  | .broughtUp result nowMs =>
      if c.dropping = some .climbing then
        match result with
        | .error e => some (c.giveUp e)
        | .ok a =>
            match c.attach a nowMs with
            | (c, .ok f) => some ({ c with dropping := some (.attaching none) }, [.sent f])
            | (c, .error e) => some ({ c with dropping := some (.attaching (some e)) }, [])
      else none
  | .attachAwaited =>
      match c.dropping with
      | some (.attaching none) => some (setState { c with dropping := none } .up)
      | some (.attaching (some e)) => some (c.giveUp e)
      | _ => none
  | .closeResumed ok => c.resumeClose ok

/-- `connect`, from the return of its climb on. -/
def connect (cfg : SessionConfig) (reconnectTimeoutMs : Nat) (a : Attached)
    (nowMs : UInt64) : Except DartError Camera :=
  let camera : Camera :=
    { device := a.device, session := .new cfg, reconnectTimeoutMs := reconnectTimeoutMs }
  match camera.attach a nowMs with
  | (c, .ok _) => .ok { c with ticker := true }
  | (_, .error e) => .error e

/-- All runs of a camera that `connect` returned. -/
def lts : Lts Camera (CameraOp × List CameraEvent) :=
  .ofGuarded (fun c => ∃ cfg reconnectTimeoutMs a nowMs,
    connect cfg reconnectTimeoutMs a nowMs = .ok c) next

end Camera

end GoproNative
