import GoproNative.Support.Reader
import GoproNative.Usb.Discovery

/-!
# The camera record on the wire

This module embeds the encoder that `glaze_meta.h` derives from the field list of
`CameraRecord` in `gopro_types.h`, and the decoder in `codec.dart`, which reads the same
fields in the same order by hand.  The decoder is given back every record, and nothing
that is cut short.

The host is little-endian.  `utf8` is Dart's `utf8.decode` with `allowMalformed`, which
is total; nothing depends on what it makes of bytes.
-/

namespace GoproNative

namespace Usb

/-! ## Encoding -/

/-- A member of a record, with the overload of `encode_field` that its type selects. -/
inductive Field
  | uint8 (v : UInt8)
  | bool (v : Bool)
  | uint16 (v : UInt16)
  | uint32 (v : UInt32)
  | string (s : Bytes)

def encodeField : Field → Bytes
  | .uint8 v => [v]
  | .bool v => [if v then 1 else 0]
  | .uint16 v => leBytes 2 v.toNat
  | .uint32 v => leBytes 4 v.toNat
  | .string s => leBytes 4 (UInt32.ofNat s.length).toNat ++ s

/-- `glz::meta<gp::CameraRecord>`. -/
def CameraRecord.fields (r : CameraRecord) : List Field :=
  [.uint16 r.vid,
    .uint16 r.pid,
    .uint8 r.bus,
    .uint8 r.address,
    .string r.sysfsName,
    .string r.serial,
    .uint8 r.serialSource,
    .string r.ip,
    .string r.netdev,
    .string r.netdevFirstSeen,
    .bool r.netdevRenamed,
    .string r.linkState,
    .string r.hostIp,
    .uint8 r.readiness,
    .bool r.hasCdc,
    .uint32 r.elapsedMs]

/-- `glz::encode`. -/
def CameraRecord.encode (r : CameraRecord) : Bytes := r.fields.flatMap encodeField

/-- The payload that `post` builds. -/
def posted (kind : EventKind) : Option CameraRecord → Bytes
  | some r => kind.value :: r.encode
  | none => [kind.value]

/-! ## Decoding -/

inductive DecodeError
  | rangeError
  | stateError (message : String)
  deriving DecidableEq

/-- `_Reader`. -/
abbrev Read (β : Type) := Reader UInt8 DecodeError β

def readUint8 : Read Nat := fun r =>
  match r.data[r.offset]? with
  | some b => .ok (b.toNat, { r with offset := r.offset + 1 })
  | none => .error .rangeError

def readBool : Read Bool := (· != 0) <$> readUint8

/-- `getUint16` and `getUint32` with `Endian.little`, at the offset and then past it. -/
def readUint (width : Nat) : Read Nat := fun r =>
  match r.data.slice? r.offset (r.offset + width) with
  | some bytes => .ok (leValue bytes, { r with offset := r.offset + width })
  | none => .error .rangeError

def readUint16 : Read Nat := readUint 2

def readUint32 : Read Nat := readUint 4

/-- What `readString` does once it has the length. -/
def readChars (utf8 : Bytes → String) (len : Nat) : Read String := fun r =>
  if len = 0 then .ok ("", r)
  else if r.data.length < r.offset + len then
    .error (.stateError
      ("GlazeCodec: string length " ++ toString len ++ " at offset " ++
        toString (r.offset - 4) ++ " exceeds " ++
        "payload (" ++ toString r.data.length ++
        " bytes). The Dart read order in codec.dart " ++
        "and glz::meta<gp::CameraRecord> in gopro_types.h have drifted."))
  else
    match r.data.slice? r.offset (r.offset + len) with
    | some bytes => .ok (utf8 bytes, { r with offset := r.offset + len })
    | none => .error .rangeError

def readString (utf8 : Bytes → String) : Read String := do
  let len ← readUint32
  readChars utf8 len

/-- `SerialSource.values`. -/
def SerialSource.values : List SerialSource := [.none, .descriptor, .sysfs]

/-- `Readiness.values`. -/
def Readiness.values : List Readiness :=
  [.absent, .usbPresent, .netdevBound, .hostAddressed, .l3Ready]

def serialSource (v : Nat) : SerialSource := SerialSource.values[v]?.getD .none

def readiness (v : Nat) : Readiness := Readiness.values[v]?.getD .absent

def readCamera (utf8 : Bytes → String) : Read GoProCamera := do
  let vid ← readUint16
  let pid ← readUint16
  let bus ← readUint8
  let address ← readUint8
  let sysfsName ← readString utf8
  let serial ← readString utf8
  let serialSource ← serialSource <$> readUint8
  let ip ← readString utf8
  let netdev ← readString utf8
  let netdevFirstSeen ← readString utf8
  let netdevRenamed ← readBool
  let linkState ← readString utf8
  let hostIp ← readString utf8
  let readiness ← readiness <$> readUint8
  let hasCdc ← readBool
  let elapsedMs ← readUint32
  return {
    vid, pid, bus, address, sysfsName, serial, serialSource, ip, netdev, netdevFirstSeen,
    netdevRenamed, linkState, hostIp, readiness, hasCdc, elapsedMs }

/-- `EventKind.values`. -/
def EventKind.values : List EventKind := [.sentinel, .update, .left]

def EventKind.fromByte (b : UInt8) : Option EventKind :=
  EventKind.values.find? fun k => k.value == b

/-- `CameraEvent(kind, camera)`. -/
def CameraEvent.ofKind : EventKind → GoProCamera → CameraEvent
  | .sentinel, _ => .sentinel
  | .update, c => .update c
  | .left, c => .left c

/-- `GlazeCodec.decodeEvent`; `none` is its null. -/
def decodeEvent (utf8 : Bytes → String) (data : Bytes) :
    Except DecodeError (Option CameraEvent) :=
  match data with
  | [] => .ok none
  | b :: _ =>
      match EventKind.fromByte b with
      | none => .ok none
      | some .sentinel => .ok (some .sentinel)
      | some kind => (readCamera utf8 ⟨data, 1⟩).map fun r => some (.ofKind kind r.1)

/-! ## One field -/

open Reader

theorem decodes_readUint8 (v : UInt8) : Decodes readUint8 (encodeField (.uint8 v)) v.toNat where
  whole before after := by simp [readUint8, encodeField]
  cut before front hfront hne := by
    have hlt := List.length_lt_of_prefix_of_ne hfront hne
    have hnil : front = [] := List.eq_nil_of_length_eq_zero (Nat.lt_one_iff.mp hlt)
    exact ⟨.rangeError, by simp [readUint8, hnil]⟩

theorem decodes_readBool (v : Bool) : Decodes readBool (encodeField (.bool v)) v := by
  have hbyte := (decodes_readUint8 (if v then 1 else 0)).map (· != 0)
  cases v <;> exact hbyte

theorem decodes_readUint {width n : Nat} (h : n < 256 ^ width) :
    Decodes (readUint width) (leBytes width n) n where
  whole before after := by
    have hslice := List.slice?_append before (leBytes width n) after
    rw [length_leBytes] at hslice
    simp only [readUint, hslice, leValue_leBytes h, length_leBytes]
  cut before front hfront hne := by
    have hlt : front.length < width := by
      rw [← length_leBytes width n]
      exact List.length_lt_of_prefix_of_ne hfront hne
    refine ⟨.rangeError, ?_⟩
    rw [readUint, List.slice?_of_lt (by simpa using hlt)]

theorem decodes_readChars (utf8 : Bytes → String) (s : Bytes) :
    Decodes (readChars utf8 s.length) s (if s = [] then "" else utf8 s) where
  whole before after := by
    by_cases hs : s = []
    · subst hs
      rfl
    · rw [readChars, if_neg (by simpa using hs), if_neg (by simp), List.slice?_append,
        if_neg hs]
  cut before front hfront hne := by
    have hlt := List.length_lt_of_prefix_of_ne hfront hne
    rw [readChars, if_neg (by omega), if_pos (by simpa using hlt)]
    exact ⟨_, rfl⟩

/-- What Dart makes of the bytes of a text; it hands none but those to `utf8`. -/
def text (utf8 : Bytes → String) (s : Bytes) : String := if s = [] then "" else utf8 s

theorem decodes_readString (utf8 : Bytes → String) {s : Bytes} (h : s.length < 2 ^ 32) :
    Decodes (readString utf8) (encodeField (.string s)) (text utf8 s) := by
  have hlen : (UInt32.ofNat s.length).toNat = s.length := by
    rw [UInt32.toNat_ofNat', Nat.mod_eq_of_lt h]
  rw [encodeField, hlen]
  exact (@decodes_readUint 4 s.length h).bind (decodes_readChars utf8 s)

/-! ## The record -/

/-- A record that fits the format: its texts have a length that four bytes hold, and its
two enumerations are known to Dart. -/
structure CameraRecord.Encodable (r : CameraRecord) : Prop where
  sysfsName : r.sysfsName.length < 2 ^ 32
  serial : r.serial.length < 2 ^ 32
  serialSource : ∃ s : SerialSource, s.value = r.serialSource
  ip : r.ip.length < 2 ^ 32
  netdev : r.netdev.length < 2 ^ 32
  netdevFirstSeen : r.netdevFirstSeen.length < 2 ^ 32
  linkState : r.linkState.length < 2 ^ 32
  hostIp : r.hostIp.length < 2 ^ 32
  readiness : ∃ s : Readiness, s.value = r.readiness

/-- The camera says in every field what the record says. -/
structure CameraRecord.Mirrors (utf8 : Bytes → String) (r : CameraRecord)
    (c : GoProCamera) : Prop where
  vid : c.vid = r.vid.toNat
  pid : c.pid = r.pid.toNat
  bus : c.bus = r.bus.toNat
  address : c.address = r.address.toNat
  sysfsName : c.sysfsName = text utf8 r.sysfsName
  serial : c.serial = text utf8 r.serial
  serialSource : c.serialSource.value = r.serialSource
  ip : c.ip = text utf8 r.ip
  netdev : c.netdev = text utf8 r.netdev
  netdevFirstSeen : c.netdevFirstSeen = text utf8 r.netdevFirstSeen
  netdevRenamed : c.netdevRenamed = r.netdevRenamed
  linkState : c.linkState = text utf8 r.linkState
  hostIp : c.hostIp = text utf8 r.hostIp
  readiness : c.readiness.value = r.readiness
  hasCdc : c.hasCdc = r.hasCdc
  elapsedMs : c.elapsedMs = r.elapsedMs.toNat

theorem serialSource_value (s : SerialSource) : serialSource s.value.toNat = s := by
  cases s <;> rfl

theorem readiness_value (s : Readiness) : readiness s.value.toNat = s := by
  cases s <;> rfl

/-- The texts apart, every record the bridge makes fits. -/
theorem encodable_toRecord (c : Camera) (elapsedMs : UInt32)
    (htexts : ∀ s ∈ [c.sysfsName, c.serial, c.ip, c.netdev, c.netdevFirstSeen, c.linkState,
      c.hostIp], s.length < 2 ^ 32) : (toRecord c elapsedMs).Encodable := by
  simp only [List.forall_mem_cons] at htexts
  obtain ⟨hname, hserial, hip, hnetdev, hfirst, hlink, hhost, -⟩ := htexts
  exact ⟨hname, hserial, ⟨_, rfl⟩, hip, hnetdev, hfirst, hlink, hhost, ⟨_, rfl⟩⟩

/-- Field by field, the decoder reads what the encoder has written. -/
theorem decodes_readCamera (utf8 : Bytes → String) {r : CameraRecord} (h : r.Encodable) :
    ∃ c, r.Mirrors utf8 c ∧ Decodes (readCamera utf8) r.encode c := by
  obtain ⟨source, hsource⟩ := h.serialSource
  obtain ⟨stage, hstage⟩ := h.readiness
  refine ⟨⟨r.vid.toNat, r.pid.toNat, r.bus.toNat, r.address.toNat, text utf8 r.sysfsName,
    text utf8 r.serial, serialSource r.serialSource.toNat, text utf8 r.ip,
    text utf8 r.netdev, text utf8 r.netdevFirstSeen, r.netdevRenamed,
    text utf8 r.linkState, text utf8 r.hostIp, readiness r.readiness.toNat, r.hasCdc,
    r.elapsedMs.toNat⟩, ?_, ?_⟩
  · constructor
    case serialSource => rw [← hsource, serialSource_value]
    case readiness => rw [← hstage, readiness_value]
    all_goals rfl
  · unfold readCamera
    apply (decodes_readUint r.vid.toNat_lt).bind
    apply (decodes_readUint r.pid.toNat_lt).bind
    apply (decodes_readUint8 r.bus).bind
    apply (decodes_readUint8 r.address).bind
    apply (decodes_readString utf8 h.sysfsName).bind
    apply (decodes_readString utf8 h.serial).bind
    apply ((decodes_readUint8 r.serialSource).map serialSource).bind
    apply (decodes_readString utf8 h.ip).bind
    apply (decodes_readString utf8 h.netdev).bind
    apply (decodes_readString utf8 h.netdevFirstSeen).bind
    apply (decodes_readBool r.netdevRenamed).bind
    apply (decodes_readString utf8 h.linkState).bind
    apply (decodes_readString utf8 h.hostIp).bind
    apply ((decodes_readUint8 r.readiness).map readiness).bind
    apply (decodes_readBool r.hasCdc).bind
    apply (decodes_readUint r.elapsedMs.toNat_lt).bind
    exact Decodes.pure _

/-! ## The event -/

theorem decodeEvent_posted (utf8 : Bytes → String) {kind : EventKind}
    (hkind : kind ≠ .sentinel) (rest : Bytes) :
    decodeEvent utf8 (kind.value :: rest) =
      (readCamera utf8 ⟨kind.value :: rest, 1⟩).map fun r => some (.ofKind kind r.1) := by
  cases kind with
  | sentinel => exact absurd rfl hkind
  | update => rfl
  | left => rfl

/-- The record format is one format in both languages: Dart is given back every record
in every field and reads its payload to the last byte, and a payload that is cut short
behind its first byte is an error. -/
theorem camera_record_round_trips (utf8 : Bytes → String) {r : CameraRecord}
    (hr : r.Encodable) {kind : EventKind} (hkind : kind ≠ .sentinel) :
    (∃ c, r.Mirrors utf8 c ∧
      decodeEvent utf8 (posted kind (some r)) = .ok (some (.ofKind kind c)) ∧
      readCamera utf8 ⟨posted kind (some r), 1⟩ =
        .ok (c, ⟨posted kind (some r), (posted kind (some r)).length⟩)) ∧
    ∀ front, front <+: posted kind (some r) → front ≠ posted kind (some r) →
      front ≠ [] → ∃ e, decodeEvent utf8 front = .error e := by
  obtain ⟨c, hmirrors, hdecodes⟩ := decodes_readCamera utf8 hr
  refine ⟨⟨c, hmirrors, ?_⟩, ?_⟩
  · have hread := hdecodes.whole [kind.value] []
    rw [List.append_nil] at hread
    have hwhole : readCamera utf8 ⟨posted kind (some r), 1⟩ =
        .ok (c, ⟨posted kind (some r), (posted kind (some r)).length⟩) := by
      rw [posted, List.length_cons, Nat.add_comm]
      exact hread
    refine ⟨?_, hwhole⟩
    rw [posted, decodeEvent_posted utf8 hkind, ← posted, hwhole]
    rfl
  · intro front hfront hne hnil
    rcases List.prefix_cons_iff.mp hfront with rfl | ⟨rest, rfl, hrest⟩
    · exact absurd rfl hnil
    · have hcut : rest ≠ r.encode := fun heq => hne (by rw [heq, posted])
      obtain ⟨e, he⟩ := hdecodes.cut [kind.value] rest hrest hcut
      refine ⟨e, ?_⟩
      rw [decodeEvent_posted utf8 hkind]
      change Except.map _ (readCamera utf8 ⟨[kind.value] ++ rest, 1⟩) = _
      rw [show (1 : Nat) = [kind.value].length from rfl, he]
      rfl

/-- A camera in its first sample, with no interface yet. -/
theorem camera_record_round_trips_present :
    ∃ c, decodeEvent (fun bytes => String.ofList (bytes.map fun b => Char.ofNat b.toNat))
        (posted .update (some
          ⟨0x2672, 0x0061, 2, 7, ascii "2-1", [], 0, [], [], [], false, [], [], 1, true, 46⟩)) =
      .ok (some (.update c)) ∧ c.sysfsName = "2-1" ∧ c.elapsedMs = 46 := by
  obtain ⟨⟨c, hmirrors, hdecode, -⟩, -⟩ := camera_record_round_trips
    (fun bytes => String.ofList (bytes.map fun b => Char.ofNat b.toNat))
    (r := ⟨0x2672, 0x0061, 2, 7, ascii "2-1", [], 0, [], [], [], false, [], [], 1, true, 46⟩)
    ⟨by decide, by decide, ⟨.none, rfl⟩, by decide, by decide, by decide, by decide, by decide,
      ⟨.usbPresent, rfl⟩⟩ (show EventKind.update ≠ .sentinel by decide)
  exact ⟨c, hdecode, hmirrors.sysfsName.trans (by decide), hmirrors.elapsedMs⟩

end Usb

end GoproNative
