import GoproNative.Session.Definitions
import Mathlib.Algebra.Group.Nat.Defs

/-!
# The event format of the bridge

This module embeds the encoder in `ble_bridge.cpp` and the decoder in
`ble_codec.dart`.  The enumerations exist on both sides.  They are one type here,
numbered by the native enumerators where an event is encoded and indexed by the
Dart `values` where it is decoded, so that a drift of the two would show.
-/

namespace GoproNative

/-- Dart's `int`, by its 64 bits. -/
abbrev DartInt := UInt64

/-! ## Numbers of the enumerators -/

def Outcome.value : Outcome → UInt8
  | responded => 0
  | timedOut => 1
  | canceled => 2
  | rejected => 3

def FeedResult.value : FeedResult → UInt8
  | needMore => 0
  | complete => 1
  | emptyPacket => 2
  | truncatedHdr => 3
  | reservedHdr => 4
  | strayCont => 5
  | overflow => 6
  | zeroLength => 7

/-- `BleOutcome.values`. -/
def bleOutcomes : List Outcome := [.responded, .timedOut, .canceled, .rejected]

/-- `BleFrameError.values`. -/
def bleFrameErrors : List FeedResult :=
  [.needMore, .complete, .emptyPacket, .truncatedHdr, .reservedHdr, .strayCont,
    .overflow, .zeroLength]

/-- `BleChannel.values`. -/
def bleChannels : List Channel := [.command, .settings, .query, .network]

/-- `BleChannel.fromByte`. -/
def Channel.fromByte (b : UInt8) : Option Channel :=
  bleChannels.find? fun c => c.value == b

@[simp] theorem Channel.fromByte_value (c : Channel) : fromByte c.value = some c := by
  cases c <;> rfl

@[simp] theorem bleOutcomes_value (o : Outcome) :
    bleOutcomes[o.value.toNat]? = some o := by
  cases o <;> rfl

@[simp] theorem bleFrameErrors_value (r : FeedResult) :
    bleFrameErrors[r.value.toNat]? = some r := by
  cases r <;> rfl

/-! ## Encoding -/

def kGoProBleWrite : UInt8 := 0x10
def kGoProBleResponse : UInt8 := 0x11
def kGoProBleReady : UInt8 := 0x12
def kGoProBlePush : UInt8 := 0x13
def kGoProBleFrameError : UInt8 := 0x14

/-- `append_u64`, little-endian. -/
def u64Bytes (v : UInt64) : Bytes :=
  ([0, 1, 2, 3, 4, 5, 6, 7] : List UInt64).map fun i => ((v >>> (i * 8)) &&& 0xFF).toUInt8

/-- The messages the callbacks of the bridge post for an event. -/
def SessionEvent.posts : SessionEvent → List Bytes
  | .received _ _ => []
  | .write _ channel packets =>
      packets.map fun packet => kGoProBleWrite :: channel :: packet
  | .response s outcome payload =>
      [kGoProBleResponse :: (u64Bytes s.id ++ outcome.value :: payload)]
  | .ready isReady => [[kGoProBleReady, if isReady then 1 else 0]]
  | .push channel _ message => [kGoProBlePush :: channel.value :: message]
  | .frameError channel result =>
      [[kGoProBleFrameError, channel.value, result.value]]

/-! ## Decoding -/

structure BleResponse where
  correlationId : DartInt
  outcome : Outcome
  payload : Bytes
  deriving DecidableEq

inductive BleEvent
  | writeRequest (channel : Channel) (bytes : Bytes)
  | response (r : BleResponse)
  | readyChanged (ready : Bool)
  | push (channel : Channel) (message : Bytes)
  | frameError (channel : Channel) (error : FeedResult)
  deriving DecidableEq

namespace BleCodec

/-- `getUint64` with `Endian.little`: the first eight bytes. -/
def getUint64 (data : Bytes) : DartInt :=
  .ofNat ((data.take 8).foldr (fun b rest => b.toNat + 256 * rest) 0)

/-- The channel and what follows it. -/
def channelThen (rest : Bytes) : Option (Channel × Bytes) :=
  match rest with
  | [] => none
  | b :: bytes => (Channel.fromByte b).map fun channel => (channel, bytes)

def decodeResponse (rest : Bytes) : Option BleEvent :=
  if rest.length < 9 then none
  else
    (bleOutcomes[(rest.getD 8 0).toNat]?).map fun outcome =>
      .response ⟨getUint64 rest, outcome, rest.drop 9⟩

def decodeFrameError (rest : Bytes) : Option BleEvent :=
  match rest with
  | c :: e :: _ => do
      let channel ← Channel.fromByte c
      let error ← bleFrameErrors[e.toNat]?
      return .frameError channel error
  | _ => none

/-- `BleCodec.decode`; `none` is its null. -/
def decode (data : Bytes) : Option BleEvent :=
  match data with
  | [] => none
  | kind :: rest =>
      if kind = 0x10 then
        (channelThen rest).map fun x => .writeRequest x.1 x.2
      else if kind = 0x11 then decodeResponse rest
      else if kind = 0x12 then rest.head?.map fun b => .readyChanged (b != 0)
      else if kind = 0x13 then (channelThen rest).map fun x => .push x.1 x.2
      else if kind = 0x14 then decodeFrameError rest
      else none

/-- The id a caller expects for a payload that begins with `leadingByte`. -/
def correlationOf (channel : Channel) (leadingByte : DartInt) : DartInt :=
  (channel.value.toUInt64 <<< 8) ||| leadingByte

end BleCodec

/-! ## Decoding what was posted -/

/-- What Dart is to make of an event. -/
def SessionEvent.heard : SessionEvent → List BleEvent
  | .received _ _ => []
  | .write _ channel packets =>
      match Channel.fromByte channel with
      | some channel => packets.map (.writeRequest channel)
      | none => []
  | .response s outcome payload => [.response ⟨s.id, outcome, payload⟩]
  | .ready isReady => [.readyChanged isReady]
  | .push channel _ message => [.push channel message]
  | .frameError channel result => [.frameError channel result]

namespace BleCodec

/-- The byte of a word at a position. -/
theorem byte_toNat (v i : UInt64) (hi : i.toNat < 64) :
    ((v >>> i) &&& 0xFF).toUInt8.toNat = v.toNat / 2 ^ i.toNat % 256 := by
  have hmask : ∀ n : Nat, n &&& 255 = n % 256 :=
    fun n => Nat.and_two_pow_sub_one_eq_mod n 8
  simp only [UInt64.toNat_toUInt8, UInt64.toNat_and, UInt64.toNat_shiftRight,
    Nat.mod_eq_of_lt hi, Nat.shiftRight_eq_div_pow]
  change (v.toNat / 2 ^ i.toNat &&& 255) % 2 ^ 8 = _
  rw [hmask, Nat.mod_mod]

theorem length_u64Bytes (v : UInt64) : (u64Bytes v).length = 8 := by
  simp [u64Bytes]

theorem getUint64_u64Bytes (v : UInt64) (rest : Bytes) :
    getUint64 (u64Bytes v ++ rest) = v := by
  have hvalue : (u64Bytes v).foldr (fun b rest => b.toNat + 256 * rest) 0 = v.toNat := by
    have hv := v.toNat_lt
    simp only [u64Bytes, List.map_cons, List.map_nil, List.foldr_cons, List.foldr_nil]
    simp (disch := decide) only [byte_toNat]
    simp only [UInt64.reduceMul, UInt64.reduceToNat, Nat.reducePow]
    omega
  rw [getUint64, List.take_left' (length_u64Bytes v), hvalue, UInt64.ofNat_toNat]

theorem decodeResponse_posted (id : CorrelationId) (o : Outcome) (payload : Bytes) :
    decodeResponse (u64Bytes id ++ o.value :: payload) =
      some (.response ⟨id, o, payload⟩) := by
  have hbyte : (u64Bytes id ++ o.value :: payload).getD 8 0 = o.value := by
    simp [length_u64Bytes]
  have hdrop : (u64Bytes id ++ o.value :: payload).drop 9 = payload := by
    simp [List.drop_append, length_u64Bytes]
  have hlong : ¬(u64Bytes id ++ o.value :: payload).length < 9 := by
    simp only [List.length_append, length_u64Bytes, List.length_cons]
    omega
  rw [decodeResponse, if_neg hlong, hbyte, hdrop, getUint64_u64Bytes, bleOutcomes_value]
  rfl

/-- Dart hears every event that was posted, with what it says intact. -/
theorem decode_posts (ev : SessionEvent) : ev.posts.filterMap decode = ev.heard := by
  cases ev with
  | received channel message => rfl
  | write e channel packets =>
      have hdecode : ∀ packet, decode (kGoProBleWrite :: channel :: packet) =
          (Channel.fromByte channel).map fun c => .writeRequest c packet := by
        intro packet
        simp [decode, kGoProBleWrite, channelThen, Function.comp_def]
      simp only [SessionEvent.posts, SessionEvent.heard, List.filterMap_map,
        Function.comp_def, hdecode]
      cases Channel.fromByte channel <;> simp
  | response s outcome payload =>
      simp [SessionEvent.posts, SessionEvent.heard, decode, kGoProBleResponse,
        decodeResponse_posted]
  | push channel parsed message =>
      simp [SessionEvent.posts, SessionEvent.heard, decode, kGoProBlePush, channelThen]
  | ready isReady => cases isReady <;> rfl
  | frameError channel result =>
      simp [SessionEvent.posts, SessionEvent.heard, decode, kGoProBleFrameError,
        decodeFrameError]

end BleCodec

end GoproNative
