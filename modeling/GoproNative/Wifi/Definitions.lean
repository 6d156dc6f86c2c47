import GoproNative.Camera.Definitions

/-!
# The network client

This module embeds the part of `network_client.dart` that all of its requests share.  What
comes of a `sendProtobuf` is the environment's choice: it throws, or its future completes
with the outcome of a command.  The protobuf runtime, which turns the bytes of a reply into
a message or throws, is a parameter.
-/

namespace GoproNative

/-- `BleOutcome.name`. -/
def Outcome.name : Outcome → String
  | responded => "responded"
  | timedOut => "timedOut"
  | canceled => "canceled"
  | rejected => "rejected"

inductive EnumResultGeneric
  | unknown
  | success
  | illFormed
  | notSupported
  | argumentOutOfBounds
  | argumentInvalid
  | resourceNotAvailable
  deriving DecidableEq

inductive EnumProvisioning
  | unknown
  | neverStarted
  | started
  | abortedBySystem
  | cancelledByUser
  | successNewAp
  | successOldAp
  | errorFailedToAssociate
  | errorPasswordAuth
  | errorEulaBlocking
  | errorNoInternet
  | errorUnsupportedType
  deriving DecidableEq

inductive EnumScanning
  | unknown
  | neverStarted
  | started
  | abortedBySystem
  | cancelledByUser
  | success
  deriving DecidableEq

structure NetworkException where
  what : String
  result : Option EnumResultGeneric := none
  provisioning : Option EnumProvisioning := none
  deriving DecidableEq

/-- What a call of the client can throw. -/
inductive ClientError
  | network (e : NetworkException)
  /-- What `sendProtobuf` throws, and the client's own `ArgumentError`. -/
  | dart (e : DartError)
  /-- `sublist` past the end. -/
  | rangeError
  /-- The `ArgumentError` of a setter whose field is an `int32`. -/
  | notInt32 (value : Int)
  /-- What `fromBuffer` throws. -/
  | invalidProtocolBuffer
  /-- What `firstWhere` throws when its stream ends. -/
  | noElement
  deriving DecidableEq

namespace NetworkClient

/-! ## Requests -/

/-- `_send`, from what came of its `sendProtobuf` on. -/
def send (what : String) : Except DartError BleResponse → Except ClientError Bytes
  | .error e => .error (.dart e)
  | .ok reply =>
      if reply.outcome ≠ .responded then
        .error (.network { what := what ++ ": " ++ reply.outcome.name })
      else if reply.payload.length < 2 then .error .rangeError
      else .ok (reply.payload.drop 2)

end NetworkClient

/-! ## Scan results -/

/-- The value of some `int32`. -/
def IsInt32 (v : Int) : Prop := (Int32.ofInt v).toInt = v

instance (v : Int) : Decidable (IsInt32 v) := inferInstanceAs (Decidable (_ = _))

theorem isInt32_toInt (v : Int32) : IsInt32 v.toInt := by
  rw [IsInt32, Int32.ofInt_toInt]

theorem isInt32_iff {v : Int} : IsInt32 v ↔ -0x80000000 ≤ v ∧ v < 0x80000000 := by
  rw [IsInt32, Int32.toInt_ofInt, Int.bmod_def]
  simp only [Int32.size]
  omega

/-- The notification that ends a scan, as far as it is read. -/
structure NotifStartScanning where
  scanningState : EnumScanning
  scanId : Option Int32
  totalEntries : Option Int32
  deriving DecidableEq

/-- What `scan` returns.  It is made of the `int32` fields of a notification. -/
structure ScanResult where
  scanId : Int
  totalEntries : Int
  scanId_int32 : IsInt32 scanId
  totalEntries_int32 : IsInt32 totalEntries

def NotifStartScanning.scanResult (n : NotifStartScanning) : ScanResult where
  scanId := (n.scanId.getD 0).toInt
  totalEntries := (n.totalEntries.getD 0).toInt
  scanId_int32 := isInt32_toInt _
  totalEntries_int32 := isInt32_toInt _

end GoproNative
