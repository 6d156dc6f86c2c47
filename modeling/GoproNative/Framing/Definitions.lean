import Mathlib.Data.List.Basic
import Mathlib.Tactic.Common

/-!
# BLE packet framing

Every BLE message longer than one ATT payload is split across packets with a
one-, two- or three-byte header on the first and a one-byte continuation
header on each later one.  This module embeds `ble_protocol.cpp`: `fragment`
on the sending side and `Reassembler` on the receiving side.
-/

namespace GoproNative

/-- A byte string, as the source's `std::vector<uint8_t>` and
`std::span<const uint8_t>`. -/
abbrev Bytes := List UInt8

/-- A fact about a byte is a fact about each of the 256 bytes. -/
theorem forall_byte {P : UInt8 → Prop} (h : ∀ n : Fin 256, P ⟨⟨n⟩⟩) (b : UInt8) :
    P b := h b.toFin

def kContMask : UInt8 := 0b10000000
def kHdrMask : UInt8 := 0b01100000
def kGenLenMask : UInt8 := 0b00011111
def kExt13Byte0Mask : UInt8 := 0b00011111

inductive PacketHeader
  | general
  | ext13
  | ext16
  | reserved
  deriving DecidableEq, Repr

/-- The enumerator's value on the wire. -/
def PacketHeader.value : PacketHeader → Nat
  | general => 0b00
  | ext13 => 0b01
  | ext16 => 0b10
  | reserved => 0b11

/-- `static_cast<PacketHeader>` of the two header bits. -/
def PacketHeader.ofBits (bits : UInt8) : PacketHeader :=
  if bits = 0 then general
  else if bits = 1 then ext13
  else if bits = 2 then ext16
  else reserved

/-- Largest message the framing can express. -/
def kMaxMessageLen : Nat := (1 <<< 16) - 2

/-- Minimum ATT payload: the BLE 4.0 default MTU of 23 less 3 bytes. -/
def kMinAttPayload : Nat := 20

/-! ## Transmit -/

/-- The header of a message's first packet, chosen by the message's length. -/
def firstHdr (len : Nat) : Bytes :=
  if len < (1 <<< 13) - 1 then
    [UInt8.ofNat ((PacketHeader.ext13.value <<< 5) |||
        ((len >>> 8) &&& kExt13Byte0Mask.toNat)),
      UInt8.ofNat (len &&& 0xFF)]
  else
    [UInt8.ofNat (PacketHeader.ext16.value <<< 5),
      UInt8.ofNat ((len >>> 8) &&& 0xFF),
      UInt8.ofNat (len &&& 0xFF)]

/-- The `while (offset < len)` loop of `fragment`.  Every iteration consumes at
least one byte when a packet has room for one, so `data.length` iterations are
enough. -/
def fragmentLoop (data : Bytes) (attPayload : Nat) :
    Nat → Bool → Nat → List Bytes
  | 0, _, _ => []
  | fuel + 1, first, offset =>
      if offset < data.length then
        let packet := if first then firstHdr data.length else [kContMask]
        let room := attPayload - packet.length
        let take := min room (data.length - offset)
        (packet ++ (data.drop offset).take take) ::
          fragmentLoop data attPayload fuel false (offset + take)
      else []

/-- Splits `data` into packets that each fit in `attPayload` bytes. -/
def fragment (data : Bytes) (attPayload : Nat) : List Bytes :=
  if data.isEmpty || decide (kMaxMessageLen < data.length) then []
  else if attPayload ≤ (firstHdr data.length).length then []
  else fragmentLoop data attPayload data.length true 0

/-! ## Receive -/

inductive FeedResult
  | needMore
  | complete
  | emptyPacket
  | truncatedHdr
  | reservedHdr
  | strayCont
  | overflow
  | zeroLength
  deriving DecidableEq, Repr

/-- Every result but the two accepting ones. -/
def FeedResult.isError : FeedResult → Bool
  | needMore | complete => false
  | _ => true

/-- Accumulates the packets of one characteristic into messages. -/
structure Reassembler where
  buf : Bytes := []
  remaining : Nat := 0
  declared : Nat := 0
  inProgress : Bool := false
  deriving DecidableEq, Repr

namespace Reassembler

/-- Discards any partial message. -/
def reset (_ : Reassembler) : Reassembler :=
  { buf := [], remaining := 0, declared := 0, inProgress := false }

/-- The tail of `feed`, shared by start and continuation packets: appends the
payload from `payloadStart` on, or resets when it exceeds what is expected. -/
def accept (r : Reassembler) (packet : Bytes) (payloadStart : Nat) :
    FeedResult × Reassembler :=
  let payloadLen := packet.length - payloadStart
  if r.remaining < payloadLen then (.overflow, r.reset)
  else
    let r := { r with
      buf := r.buf ++ packet.drop payloadStart
      remaining := r.remaining - payloadLen }
    if r.remaining = 0 then (.complete, { r with inProgress := false })
    else (.needMore, r)

/-- The branch of `feed` for a start packet whose header has been read. -/
def begin (r : Reassembler) (declared : Nat) (packet : Bytes)
    (payloadStart : Nat) : FeedResult × Reassembler :=
  if declared = 0 then (.zeroLength, r.reset)
  else
    accept { r with
      declared := declared, remaining := declared, inProgress := true }
      packet payloadStart

/-- Feeds one notification. -/
def feed (r : Reassembler) (packet : Bytes) : FeedResult × Reassembler :=
  match packet with
  | [] => (.emptyPacket, r.reset)
  | b0 :: rest =>
      if b0 &&& kContMask ≠ 0 then
        if !r.inProgress then (.strayCont, r.reset)
        else r.accept packet 1
      else
        -- A new message discards any partial one: the camera has moved on.
        let r := { r with buf := [] }
        match PacketHeader.ofBits ((b0 &&& kHdrMask) >>> 5) with
        | .general => r.begin (b0 &&& kGenLenMask).toNat packet 1
        | .ext13 =>
            match rest with
            | b1 :: _ =>
                r.begin (((b0 &&& kExt13Byte0Mask).toNat <<< 8) ||| b1.toNat)
                  packet 2
            | _ => (.truncatedHdr, r.reset)
        | .ext16 =>
            match rest with
            | b1 :: b2 :: _ =>
                r.begin ((b1.toNat <<< 8) ||| b2.toNat) packet 3
            | _ => (.truncatedHdr, r.reset)
        | .reserved => (.reservedHdr, r.reset)

/-- Moves out the completed message. -/
def take (r : Reassembler) : Bytes × Reassembler :=
  (r.buf, { buf := [], remaining := 0, declared := 0, inProgress := false })

/-- One notification as `BleSession::feed` handles it: `take` follows every
`complete`. -/
def feedTake (r : Reassembler) (packet : Bytes) :
    Option Bytes × Reassembler :=
  if (r.feed packet).1 = .complete then
    (some (r.feed packet).2.take.1, (r.feed packet).2.take.2)
  else (none, (r.feed packet).2)

/-- Feeds packets in order, collecting the messages taken. -/
def receive (r : Reassembler) : List Bytes → List Bytes × Reassembler
  | [] => ([], r)
  | p :: ps =>
      ((r.feedTake p).1.toList ++ ((r.feedTake p).2.receive ps).1,
        ((r.feedTake p).2.receive ps).2)

/-- Feeds packets in order without taking, collecting the results. -/
def feedAll (r : Reassembler) : List Bytes → List FeedResult × Reassembler
  | [] => ([], r)
  | p :: ps =>
      ((r.feed p).1 :: ((r.feed p).2.feedAll ps).1,
        ((r.feed p).2.feedAll ps).2)

end Reassembler

end GoproNative
