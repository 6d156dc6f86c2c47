import GoproNative.Camera.Definitions
import GoproNative.Cohn.Definitions
import GoproNative.Wifi.Definitions

/-!
# Clients of a camera

This module embeds `cohn_client.dart`, and `status` and `waitUntilReady` of
`livestream.dart`.  The body of a client is suspended at the `await` of a `sendProtobuf` or
of a pause, and an event resumes it.  What comes of the one, how long the other takes and
what the clock reads is the environment's choice.  A `Duration` is its microseconds, and so
is a reading of the clock.

The protobuf runtime, which turns the bytes of a reply into a message or throws, and a
message into bytes, is a parameter.
-/

namespace GoproNative

/-! ## Bodies -/

/-- What is handed to `sendProtobuf`, its priority being the default. -/
structure ProtobufRequest where
  featureId : DartInt
  actionId : DartInt
  message : Bytes
  channel : Channel
  deriving DecidableEq

/-- What resumes a body. -/
inductive BodyEvent
  /-- `sendProtobuf` threw, or its future completed.  The clock is read behind it. -/
  | replied (reply : Except DartError BleResponse) (now : Int)
  /-- A pause is over. -/
  | woke (now : Int)

/-- A body by the states that its `await`s leave it in. -/
structure Body (σ : Type) where
  /-- The states it may begin in. -/
  start : σ → Prop
  /-- The request that it awaits. -/
  awaits : σ → Option ProtobufRequest
  next : σ → BodyEvent → Option σ

namespace Body

variable {σ : Type} (b : Body σ)

/-- The turns of a body.  Every turn leads to another `await` or to the end, so the request
awaited behind a turn was sent in it. -/
def turn (s : σ) (ev : BodyEvent) : Option (σ × Option ProtobufRequest) :=
  (b.next s ev).map fun s' => (s', b.awaits s')

def lts : Lts σ (BodyEvent × Option ProtobufRequest) := .ofGuarded b.start b.turn

end Body

/-! ## COHN -/

inductive EnumCOHNStatus
  | unprovisioned
  | provisioned
  deriving DecidableEq

/-- As far as it is read. -/
structure NotifyCOHNStatus where
  status : Option EnumCOHNStatus := none
  username : Option Text := none
  password : Option Text := none
  ipaddress : Option Text := none
  ssid : Option Text := none
  macaddress : Option Text := none
  deriving DecidableEq

structure ResponseCOHNCert where
  result : Option EnumResultGeneric := none
  cert : Option Text := none
  deriving DecidableEq

/-- A missing `result` reads as the first of its values. -/
structure ResponseGeneric where
  result : EnumResultGeneric := .unknown
  deriving DecidableEq

/-- The messages of a COHN client that provisions. -/
inductive CohnMessage
  | requestGetCOHNStatus (registerCohnStatus : Bool)
  | requestCreateCOHNCert (override : Bool)
  | requestCOHNCert
  | requestSetCOHNSetting (cohnActive : Bool)
  deriving DecidableEq

structure CohnProtobuf where
  writeToBuffer : CohnMessage → Bytes
  notifyCOHNStatus : Bytes → Option NotifyCOHNStatus
  responseCOHNCert : Bytes → Option ResponseCOHNCert
  responseGeneric : Bytes → Option ResponseGeneric

structure CohnException where
  what : String
  result : Option EnumResultGeneric := none
  deriving DecidableEq

inductive CohnError
  | cohn (e : CohnException)
  /-- What `sendProtobuf` throws. -/
  | dart (e : DartError)
  /-- `sublist` past the end. -/
  | rangeError
  /-- What `fromBuffer` throws. -/
  | invalidProtocolBuffer
  deriving DecidableEq

namespace CohnClient

def featureCommand : DartInt := 241
def featureQuery : DartInt := 245

def requestCohnSetting : DartInt := 101
def requestCreateCohnCert : DartInt := 103
def requestGetCohnCert : DartInt := 110
def requestGetCohnStatus : DartInt := 111

/-- A call of the client: what it sends, and what becomes of what comes of that. -/
structure Call (α : Type) where
  request : ProtobufRequest
  receive : Except DartError BleResponse → Except CohnError α

def Call.andThen {α β : Type} (c : Call α) (f : α → Except CohnError β) : Call β where
  request := c.request
  receive reply := c.receive reply >>= f

variable (pb : CohnProtobuf)

/-- `_send`. -/
def send (feature : DartInt) (channel : Channel) (action : DartInt) (body : Bytes)
    (what : String) : Call Bytes where
  request := ⟨feature, action, body, channel⟩
  receive
    | .error e => .error (.dart e)
    | .ok reply =>
        if reply.outcome ≠ .responded then
          .error (.cohn { what := what ++ ": " ++ reply.outcome.name })
        else if reply.payload.length < 2 then .error .rangeError
        else .ok (reply.payload.drop 2)

/-- `_query`. -/
def query (action : DartInt) (message : CohnMessage) (what : String) : Call Bytes :=
  send featureQuery .query action (pb.writeToBuffer message) what

/-- `_command`. -/
def command (action : DartInt) (message : CohnMessage) (what : String) : Call Unit :=
  (send featureCommand .command action (pb.writeToBuffer message) what).andThen fun reply =>
    if reply = [] then .ok ()
    else
      match pb.responseGeneric reply with
      | none => .error .invalidProtocolBuffer
      | some r =>
          if r.result ≠ .success then .error (.cohn ⟨what, some r.result⟩) else .ok ()

def status (register : Bool) : Call NotifyCOHNStatus :=
  (query pb requestGetCohnStatus (.requestGetCOHNStatus register) "get status").andThen
    fun reply =>
      match pb.notifyCOHNStatus reply with
      | none => .error .invalidProtocolBuffer
      | some s => .ok s

/-- `createCertificate`, as `provision` calls it: without `bypassEulaCheck`, which throws. -/
def create (override : Bool) : Call Unit :=
  command pb requestCreateCohnCert (.requestCreateCOHNCert override) "create certificate"

def certificate : Call Text :=
  (query pb requestGetCohnCert .requestCOHNCert "get certificate").andThen fun reply =>
    match pb.responseCOHNCert reply with
    | none => .error .invalidProtocolBuffer
    | some r =>
        if r.result ≠ none ∧ r.result ≠ some .success then
          .error (.cohn ⟨"get certificate", r.result⟩)
        else
          match r.cert with
          | none | some [] => .error (.cohn { what := "get certificate: empty" })
          | some cert => .ok cert

def setEnabled (enabled : Bool) : Call Unit :=
  command pb requestCohnSetting (.requestSetCOHNSetting enabled) "set enabled"

/-! ## Provisioning -/

/-- `connected` of the loop of `provision`. -/
def connected (s : NotifyCOHNStatus) : Bool :=
  s.status = some .provisioned && s.ipaddress.any (· ≠ [])

/-- What is returned for a status and a certificate.  A missing string reads as empty. -/
def credentials (s : NotifyCOHNStatus) (certificate : Text) : CohnCredentials where
  username := s.username.getD []
  password := s.password.getD []
  certificate := certificate
  ipAddress := s.ipaddress
  ssid := s.ssid
  macAddress := s.macaddress

/-- Where the body of `provision` is; `start` is what the clock read at its beginning. -/
inductive Provision
  /-- At `await createCertificate`. -/
  | creating (start : Int)
  /-- At `await setEnabled`. -/
  | enabling (start : Int)
  /-- At `await status`. -/
  | asking (start : Int)
  /-- At `await Future.delayed`. -/
  | resting (start : Int)
  /-- At `await certificate`, by the status. -/
  | fetching (s : NotifyCOHNStatus)
  | finished (r : Except CohnError CohnCredentials)
  deriving DecidableEq

/-- The arguments of `provision`. -/
structure ProvisionArguments where
  override : Bool := false
  timeout : Int := 120000000
  poll : Int := 2000000

def timedOut : CohnError :=
  .cohn { what := "timed out waiting for the camera to reach the network" }

def noCredentials : CohnError :=
  .cohn { what := "provisioned but the camera reported no credentials" }

/-- The condition of the loop. -/
def whileInTime (a : ProvisionArguments) (start now : Int) : Provision :=
  if now - start < a.timeout then .asking start else .finished (.error timedOut)

/-- The body of the loop behind `await status`. -/
def heedStatus (start : Int) (s : NotifyCOHNStatus) : Provision :=
  if connected s then
    if s.username = none ∨ s.password = none then .finished (.error noCredentials)
    else .fetching s
  else .resting start

/-- An event at the `await` of a call: it throws, or the body goes on. -/
def behind {α : Type} (call : Call α) (reply : Except DartError BleResponse)
    (k : α → Provision) : Provision :=
  match call.receive reply with
  | .error e => .finished (.error e)
  | .ok a => k a

def provisionNext (a : ProvisionArguments) : Provision → BodyEvent → Option Provision
  | .creating start, .replied reply _ =>
      some (behind (create pb a.override) reply fun _ => .enabling start)
  | .enabling start, .replied reply now =>
      some (behind (setEnabled pb true) reply fun _ => whileInTime a start now)
  | .asking start, .replied reply _ =>
      some (behind (status pb false) reply (heedStatus start))
  | .resting start, .woke now => some (whileInTime a start now)
  | .fetching s, .replied reply _ =>
      some (behind (certificate pb) reply fun cert => .finished (.ok (credentials s cert)))
  | _, _ => none

def provisionAwaits (a : ProvisionArguments) : Provision → Option ProtobufRequest
  | .creating _ => some (create pb a.override).request
  | .enabling _ => some (setEnabled pb true).request
  | .asking _ => some (status pb false).request
  | .resting _ => none
  | .fetching _ => some (certificate pb).request
  | .finished _ => none

/-- `provision`, with its first request sent. -/
def provision (a : ProvisionArguments) : Body Provision where
  start p := ∃ start, p = .creating start
  awaits := provisionAwaits pb a
  next := provisionNext pb a

end CohnClient

/-! ## Livestreaming -/

inductive EnumLiveStreamStatus
  | idle
  | config
  | ready
  | streaming
  | completeStayOn
  | failedStayOn
  | reconnecting
  | unavailable
  deriving DecidableEq

inductive EnumLiveStreamError
  | none
  | network
  | createStream
  | outOfMemory
  | inputStream
  | internet
  | osNetwork
  | selectedNetworkTimeout
  | sslHandshake
  | cameraBlocked
  | unknown
  | sdCardFull
  | sdCardRemoved
  deriving DecidableEq

/-- As far as it is read. -/
structure NotifyLiveStreamStatus where
  liveStreamStatus : Option EnumLiveStreamStatus := none
  liveStreamError : Option EnumLiveStreamError := none
  deriving DecidableEq

structure LivestreamException where
  what : String
  error : Option EnumLiveStreamError := none
  state : Option EnumLiveStreamStatus := none
  deriving DecidableEq

inductive LivestreamError
  | livestream (e : LivestreamException)
  /-- What `sendProtobuf` throws. -/
  | dart (e : DartError)
  /-- `sublist` past the end. -/
  | rangeError
  /-- What `fromBuffer` throws. -/
  | invalidProtocolBuffer
  deriving DecidableEq

namespace LivestreamClient

def featureQuery : DartInt := 245
def getLivestreamStatus : DartInt := 116

variable (message : Bytes) (fromBuffer : Bytes → Option NotifyLiveStreamStatus)

/-- What `status` sends for the message. -/
def statusRequest : ProtobufRequest :=
  ⟨featureQuery, getLivestreamStatus, message, .query⟩

/-- `status`, from what came of its `sendProtobuf` on. -/
def receiveStatus :
    Except DartError BleResponse → Except LivestreamError NotifyLiveStreamStatus
  | .error e => .error (.dart e)
  | .ok reply =>
      if reply.outcome ≠ .responded then
        .error (.livestream { what := "get status: " ++ reply.outcome.name })
      else if reply.payload.length < 2 then .error .rangeError
      else
        match fromBuffer (reply.payload.drop 2) with
        | none => .error .invalidProtocolBuffer
        | some s => .ok s

/-- Where the body of `waitUntilReady` is. -/
inductive Waiting
  | asking (start : Int)
  | resting (start : Int)
  | finished (r : Except LivestreamError NotifyLiveStreamStatus)
  deriving DecidableEq

def timedOut : LivestreamError :=
  .livestream { what := "timed out waiting for the stream to be ready" }

def whileInTime (timeout start now : Int) : Waiting :=
  if now - start < timeout then .asking start else .finished (.error timedOut)

/-- What the body of the loop returns or throws behind `await status`, if it does. -/
def heedStatus (s : NotifyLiveStreamStatus) :
    Option (Except LivestreamError NotifyLiveStreamStatus) :=
  if s.liveStreamStatus = some .ready ∨ s.liveStreamStatus = some .streaming then
    some (.ok s)
  else if s.liveStreamStatus = some .failedStayOn then
    some (.error (.livestream
      ⟨"the camera failed to configure the stream", s.liveStreamError, s.liveStreamStatus⟩))
  else if s.liveStreamStatus = some .unavailable then
    some (.error (.livestream
      { what := "livestreaming is unavailable in this lens configuration"
        state := s.liveStreamStatus }))
  else none

def waitNext (timeout : Int) : Waiting → BodyEvent → Option Waiting
  | .asking start, .replied reply _ =>
      some (match receiveStatus fromBuffer reply with
        | .error e => .finished (.error e)
        | .ok s =>
            match heedStatus s with
            | some r => .finished r
            | none => .resting start)
  | .resting start, .woke now => some (whileInTime timeout start now)
  | _, _ => none

def waitAwaits : Waiting → Option ProtobufRequest
  | .asking _ => some (statusRequest message)
  | _ => none

/-- `waitUntilReady`, with its first request sent unless there is no time for it. -/
def waitUntilReady (timeout : Int) : Body Waiting where
  start w := ∃ start now, w = whileInTime timeout start now
  awaits := waitAwaits message
  next := waitNext fromBuffer timeout

end LivestreamClient

end GoproNative
