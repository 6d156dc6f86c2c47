import GoproNative.Framing.Definitions

/-!
# Query responses and readiness

This module embeds `query_parser.cpp`: the parser of reassembled query
responses, and the fold that derives the camera's readiness from the BUSY and
ENCODING statuses they report.
-/

namespace GoproNative

/-! ## Parsing -/

def kGetStatusVal : UInt8 := 0x13
def kRegStatusValUpdate : UInt8 := 0x53
def kUnregStatusValUpdate : UInt8 := 0x73
def kStatusValPush : UInt8 := 0x93

def kStatusBusy : UInt8 := 8
def kStatusEncoding : UInt8 := 10

structure QueryEntry where
  id : UInt8
  value : Bytes
  deriving DecidableEq, Repr

namespace QueryEntry

/-- The value as a big-endian number, unless it is empty or wider than eight
bytes. -/
def asUint (e : QueryEntry) : Option UInt64 :=
  if e.value.isEmpty || decide (8 < e.value.length) then none
  else some (e.value.foldl (fun v b => (v <<< 8) ||| b.toUInt64) 0)

def asBool (e : QueryEntry) : Bool := e.asUint.getD 0 != 0

end QueryEntry

structure QueryResponse where
  queryCmdId : UInt8 := 0
  status : UInt8 := 0
  entries : List QueryEntry := []
  deriving DecidableEq, Repr

namespace QueryResponse

/-- Whether the entries are status ids rather than setting ids. -/
def isStatus (r : QueryResponse) : Bool :=
  r.queryCmdId == kGetStatusVal || r.queryCmdId == kRegStatusValUpdate ||
    r.queryCmdId == kUnregStatusValUpdate || r.queryCmdId == kStatusValPush

/-- The first entry with an id. -/
def find (r : QueryResponse) (id : UInt8) : Option QueryEntry :=
  r.entries.find? fun e => e.id == id

end QueryResponse

inductive QueryParseResult
  | ok
  | tooShort
  | truncatedTlv
  deriving DecidableEq, Repr

/-- The `while (i + 1 < payload.size())` loop over what is left of the payload.
Every iteration consumes at least two bytes, so its length is enough fuel. -/
def parseEntries : Nat → Bytes → QueryParseResult × List QueryEntry
  | fuel + 1, id :: len :: rest =>
      if rest.length < len.toNat then (.truncatedTlv, [])
      else
        let e : QueryEntry := { id := id, value := rest.take len.toNat }
        ((parseEntries fuel (rest.drop len.toNat)).1,
          e :: (parseEntries fuel (rest.drop len.toNat)).2)
  | _, _ => (.ok, [])

/-- On `truncatedTlv` the response holds the entries before the bad one. -/
def parseQuery : Bytes → QueryParseResult × QueryResponse
  | queryCmdId :: status :: rest =>
      ((parseEntries rest.length rest).1,
        { queryCmdId := queryCmdId
          status := status
          entries := (parseEntries rest.length rest).2 })
  | _ => (.tooShort, {})

/-! ## Readiness -/

/-- What the camera last said of the two statuses; `none` is unknown. -/
structure ReadyState where
  busy : Option Bool := none
  encoding : Option Bool := none
  deriving DecidableEq, Repr

namespace ReadyState

def ready (r : ReadyState) : Bool :=
  r.busy == some false && r.encoding == some false

def reset (_ : ReadyState) : ReadyState := {}

/-- Folds one entry into what is known of its status.  An entry with no value
carries no information. -/
def applyEntry (known : Option Bool) : Option QueryEntry → Option Bool
  | some e => if e.value.isEmpty then known else some e.asBool
  | none => known

/-- Folds in a response; returns whether `ready` changed. -/
def apply (r : ReadyState) (response : QueryResponse) : Bool × ReadyState :=
  if !response.isStatus then (false, r)
  else
    let r' : ReadyState := {
      busy := applyEntry r.busy (response.find kStatusBusy)
      encoding := applyEntry r.encoding (response.find kStatusEncoding) }
    (r'.ready != r.ready, r')

end ReadyState

end GoproNative
