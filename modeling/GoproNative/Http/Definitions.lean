import GoproNative.Support.Transition
import GoproNative.Support.Unicode
import GoproNative.Framing.Definitions

/-!
# The HTTP client

This module embeds `HttpMessage.url` of `http_message.dart` and `GoProHttp.download` of
`gopro_http.dart`.  The isolate runs one turn at a time, so a download is a state
machine.  Its events are the completions of the futures that the body awaits, the
events of the response, the progress of the sink under it, the passing of time, and
the resumption of the body.

What the camera answers, what the file system does with the destination, and whether
`onProgress` throws, is the environment's choice.  A future of the body that was
completed may be overtaken by other events before the body resumes.  Nothing but the
download touches the destination.
-/

namespace GoproNative

/-- A Dart string, by its UTF-16 units. -/
abbrev Text := List UInt16

def utf16 (text : String) : Text := Utf16.encode text.toList

/-! ## Requests -/

/-- The parts of a `Uri` that `url` replaces, behind what stands before the path. -/
structure Uri where
  origin : String
  pathSegments : List Text := []
  query : Option String := none
  deriving DecidableEq

/-- What a call of the client can throw. -/
inductive HttpError
  | argumentError (message : Text)
  /-- `GoProHttpException`, its body by its UTF-16 units. -/
  | exception (message : String) (uri : Uri) (statusCode : Int) (body : List UInt16)
  /-- `GoProStalledException`, the durations in microseconds. -/
  | stalled (uri : Uri) (idle : Int) (received : Nat)
  /-- An error of `dart:io`, or of `onProgress`. -/
  | other (description : String)
  deriving DecidableEq

inductive HttpResponseKind
  | json
  | binary
  deriving DecidableEq

structure HttpMessage where
  name : Text
  endpoint : Text
  response : HttpResponseKind
  components : List Text := []
  arguments : List Text := []

/-- A digit of a percent escape. -/
def hexDigit (n : Nat) : Char := (Nat.digitChar n).toUpper

/-- The bytes that `Uri.encodeComponent` leaves alone. -/
def unreserved (b : UInt8) : Bool :=
  let c := Char.ofNat b.toNat
  c.isAlphanum || c ∈ ['-', '_', '.', '!', '~', '*', '\'', '(', ')']

/-- `Uri.encodeComponent`. -/
def encodeComponent (text : Text) : List Char :=
  (Utf8.encode (Utf16.decode text)).flatMap fun b =>
    if unreserved b then [Char.ofNat b.toNat]
    else ['%', hexDigit (b.toNat / 16), hexDigit (b.toNat % 16)]

/-- `replaceAll('%2F', '/')`. -/
def restoreSlashes : List Char → List Char
  | '%' :: '2' :: 'F' :: rest => '/' :: restoreSlashes rest
  | c :: rest => c :: restoreSlashes rest
  | [] => []

def encodeQuery (value : Text) : String :=
  String.ofList (restoreSlashes (encodeComponent value))

/-- `split('/').where((s) => s.isNotEmpty)`. -/
def segmentsOf (text : Text) : List Text := (text.splitOn 0x2F).filter (· ≠ [])

namespace HttpMessage

/-- The segments of the components, or what is thrown for the first that is missing. -/
def componentSegments (m : HttpMessage) (values : Text → Option Text) :
    List Text → Except HttpError (List Text)
  | [] => .ok []
  | c :: rest =>
      match values c with
      | none =>
          .error (.argumentError
            (m.name ++ utf16 ": missing path component \"" ++ c ++ utf16 "\""))
      | some v => (m.componentSegments values rest).map (segmentsOf v ++ ·)

/-- The arguments that have a value, as the query spells them. -/
def queryParts (m : HttpMessage) (values : Text → Option Text) : List String :=
  m.arguments.filterMap fun a =>
    (values a).map fun v => encodeQuery a ++ "=" ++ encodeQuery v

/-- Builds the request URI against `base`.  `values` has the text of each value that is
not null. -/
def url (m : HttpMessage) (base : Uri) (values : Text → Option Text) :
    Except HttpError Uri :=
  match m.componentSegments values m.components with
  | .error e => .error e
  | .ok segments =>
      let query := m.queryParts values
      .ok { base with
        pathSegments := segmentsOf m.endpoint ++ segments
        query := if query = [] then base.query else some ("&".intercalate query) }

end HttpMessage

/-! ## Data -/

structure GoProHttp where
  base : Uri
  /-- In microseconds. -/
  stallTimeout : Int := 30000000

structure HttpResponse where
  statusCode : Int
  reasonPhrase : String := ""
  /-- Negative when the camera declares none. -/
  contentLength : Int := -1
  deriving DecidableEq

namespace HttpResponse

def success (r : HttpResponse) : Bool := 200 ≤ r.statusCode && r.statusCode < 300

def total (r : HttpResponse) : Option Nat :=
  if r.contentLength < 0 then none else some r.contentLength.toNat

end HttpResponse

/-- What `String.trim` removes. -/
def isWhiteSpace (u : UInt16) : Bool :=
  (0x0009 ≤ u && u ≤ 0x000D) || (0x2000 ≤ u && u ≤ 0x200A) ||
    u ∈ [0x0020, 0x0085, 0x00A0, 0x1680, 0x2028, 0x2029, 0x202F, 0x205F, 0x3000, 0xFEFF]

def trim (text : List UInt16) : List UInt16 :=
  ((text.dropWhile isWhiteSpace).reverse.dropWhile isWhiteSpace).reverse

/-- `_truncate`. -/
def truncate (text : List UInt16) : List UInt16 :=
  if text.length ≤ 512 then trim text else trim (text.take 512) ++ [0x2026]

/-- The sink that `openWrite` returns, by the file under it. -/
inductive Sink
  /-- `openWrite` was not called. -/
  | none
  | opening
  | opened
  /-- Opening, writing or closing failed; `close` completes with the error. -/
  | failed (e : HttpError)
  | closed
  deriving DecidableEq

/-- Where the body of `download` is suspended, and how it ended. -/
inductive Stage
  /-- At `await _client.getUrl`. -/
  | connecting
  /-- At `await request.close()`. -/
  | requesting
  /-- Reading the body of an answer that is not a success. -/
  | rejecting (r : HttpResponse)
  /-- At `await destination.parent.create`. -/
  | creatingParent (r : HttpResponse)
  /-- At `await Future.any`. -/
  | transferring (r : HttpResponse)
  /-- At `await sink.close()`, by what the transfer came to: in the `catch`, or behind
  the `try`. -/
  | closing (r : HttpResponse) (outcome : Except HttpError Unit)
  /-- At `await destination.exists()`, with the error to be thrown. -/
  | checking (e : HttpError)
  /-- At `await destination.delete()`, with the error to be thrown. -/
  | deleting (e : HttpError)
  | returned
  | threw (e : HttpError)
  deriving DecidableEq

namespace Stage

/-- The sink is not there yet. -/
def beforeOpen : Stage → Bool
  | connecting | requesting | rejecting _ | creatingParent _ => true
  | _ => false

def finished : Stage → Bool
  | returned | threw _ => true
  | _ => false

end Stage

structure Download where
  uri : Uri
  stallTimeout : Int
  stage : Stage
  /-- What is at the destination. -/
  file : Option Bytes
  sink : Sink := .none
  /-- Added to the sink and not written. -/
  buffered : List Bytes := []
  /-- `sink.close()` was called. -/
  sinkClosed : Bool := false
  received : Nat := 0
  /-- The pump listens to the response. -/
  pumping : Bool := false
  /-- What `Future.any` completed with. -/
  race : Option (Except HttpError Unit) := none
  /-- When `stall` fires. -/
  stall : Option Nat := none
  nowUs : Nat := 0

/-- The turns of a download, and what happens to its file. -/
inductive DownloadOp
  | connected
  | responded (r : HttpResponse)
  | bodyRead (text : List UInt16)
  | parentCreated
  /-- Before the sink is there, the future awaited fails, or a header is refused. -/
  | failed (e : HttpError)
  | opened
  | openFailed (e : HttpError)
  /-- The file has the next chunk. -/
  | wrote
  /-- The file has `count` bytes of the next chunk, and will have no more. -/
  | writeFailed (count : Nat) (e : HttpError)
  | closed
  | closeFailed (e : HttpError)
  /-- The response delivers, and `onProgress` may throw. -/
  | chunk (data : Bytes) (thrown : Option HttpError)
  | done
  | broken (e : HttpError)
  | elapsed (us : Nat)
  | stalled
  /-- The body resumes at `Future.any` or at `sink.close()`. -/
  | resumed
  | existed
  | existsFailed (e : HttpError)
  | deleted
  | deleteFailed (e : HttpError)
  deriving DecidableEq

namespace Download

/-! ## The body -/

/-- `download`, up to its first `await`. -/
def download (client : GoProHttp) (message : HttpMessage) (destination : Option Bytes)
    (values : Text → Option Text) : Download :=
  let d (stage : Stage) : Download :=
    { uri := client.base, stallTimeout := client.stallTimeout, file := destination
      stage := stage }
  if message.response ≠ .binary then
    d (.threw (.argumentError (message.name ++ utf16 " does not return binary")))
  else
    match message.url client.base values with
    | .error e => d (.threw e)
    | .ok uri => { d .connecting with uri := uri }

def respond (d : Download) (r : HttpResponse) : Download :=
  { d with stage := if r.success then .creatingParent r else .rejecting r }

/-- The stall timer is set anew, with no deadline for a timeout of zero.  A negative
timeout is due at once. -/
def arm (d : Download) : Download :=
  { d with
    stall := if d.stallTimeout = 0 then none else some (d.nowUs + d.stallTimeout.toNat) }

/-- Behind the creation of the parent: the sink is there, and the pump listens. -/
def openWrite (d : Download) (r : HttpResponse) : Download :=
  { d with sink := .opening, pumping := true, stage := .transferring r }.arm

/-- The pump ends.  The first of the pump and the stall decides the race. -/
def pumped (d : Download) (outcome : Except HttpError Unit) : Download :=
  { d with pumping := false, race := d.race.or (some outcome) }

/-- A sink that failed takes no more. -/
def add (d : Download) (data : Bytes) : Download :=
  { d with
    buffered :=
      match d.sink with
      | .opening | .opened => d.buffered ++ [data]
      | _ => d.buffered }

/-- One turn of the `await for`. -/
def pump (d : Download) (data : Bytes) (thrown : Option HttpError) : Download :=
  let d := { d with received := d.received + data.length }
  if d.sinkClosed then d.pumped (.error (.other "StreamSink is closed"))
  else
    let d := (d.add data).arm
    match thrown with
    | none => d
    | some e => d.pumped (.error e)

/-- What is thrown when fewer or more bytes came than were declared. -/
def truncated (d : Download) (r : HttpResponse) (total : Nat) : HttpError :=
  .exception ("truncated: " ++ toString d.received ++ " of " ++ toString total ++ " bytes")
    d.uri r.statusCode []

/-- Behind `await sink.close()`. -/
def settle (d : Download) (r : HttpResponse) : Except HttpError Unit → Stage
  | .error e => .checking e
  | .ok _ =>
      match r.total with
      | none => .returned
      | some total =>
          if d.received ≠ total then .checking (d.truncated r total) else .returned

/-- The body resumes: `none` while the future it awaits is not completed. -/
def resume (d : Download) : Option Download :=
  match d.stage with
  | .transferring r =>
      d.race.map fun outcome =>
        { d with stall := none, sinkClosed := true, stage := .closing r outcome }
  | .closing r outcome =>
      match d.sink with
      | .failed e => some { d with stage := .threw e }
      | .closed => some { d with stage := d.settle r outcome }
      | _ => none
  | _ => none

/-! ## The machine -/

/-- One event of a download; `none` where it cannot happen. -/
def next (d : Download) : DownloadOp → Option Download
  | .connected =>
      if d.stage = .connecting then some { d with stage := .requesting } else none
  | .responded r => if d.stage = .requesting then some (d.respond r) else none
  | .bodyRead text =>
      match d.stage with
      | .rejecting r =>
          some { d with
            stage := .threw (.exception r.reasonPhrase d.uri r.statusCode (truncate text)) }
      | _ => none
  | .parentCreated =>
      match d.stage with
      | .creatingParent r => some (d.openWrite r)
      | _ => none
  | .failed e => if d.stage.beforeOpen then some { d with stage := .threw e } else none
  | .opened =>
      if d.sink = .opening then some { d with sink := .opened, file := some [] } else none
  | .openFailed e =>
      if d.sink = .opening then some { d with sink := .failed e, buffered := [] } else none
  | .wrote =>
      match d.sink, d.buffered with
      | .opened, data :: rest =>
          some { d with file := d.file.map (· ++ data), buffered := rest }
      | _, _ => none
  | .writeFailed count e =>
      match d.sink, d.buffered with
      | .opened, data :: _ =>
          some { d with
            file := d.file.map (· ++ data.take count), buffered := [], sink := .failed e }
      | _, _ => none
  | .closed =>
      if d.sink = .opened ∧ d.sinkClosed ∧ d.buffered = [] then
        some { d with sink := .closed }
      else none
  | .closeFailed e =>
      if d.sink = .opened ∧ d.sinkClosed ∧ d.buffered = [] then
        some { d with sink := .failed e }
      else none
  | .chunk data thrown => if d.pumping then some (d.pump data thrown) else none
  | .done => if d.pumping then some (d.pumped (.ok ())) else none
  | .broken e => if d.pumping then some (d.pumped (.error e)) else none
  | .elapsed us => some { d with nowUs := d.nowUs + us }
  | .stalled =>
      match d.stall with
      | some deadline =>
          if deadline ≤ d.nowUs then
            some { d with
              stall := none
              race := d.race.or (some (.error (.stalled d.uri d.stallTimeout d.received))) }
          else none
      | none => none
  | .resumed => d.resume
  | .existed =>
      match d.stage with
      | .checking e =>
          some { d with stage := if d.file.isSome then .deleting e else .threw e }
      | _ => none
  | .existsFailed e =>
      match d.stage with
      | .checking _ => some { d with stage := .threw e }
      | _ => none
  | .deleted =>
      match d.stage with
      | .deleting e => some { d with file := none, stage := .threw e }
      | _ => none
  | .deleteFailed e =>
      match d.stage with
      | .deleting _ => some { d with stage := .threw e }
      | _ => none

/-- The downloads of a client, one at a time. -/
def lts : Lts Download DownloadOp :=
  .ofPartial
    (fun d => ∃ client message destination values,
      d = download client message destination values)
    next

end Download

end GoproNative
