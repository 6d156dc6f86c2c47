import GoproNative.Bridge.Codec
import GoproNative.Support.Reader

/-!
# Which bytes are an event

The decoder rejects a payload for its kind, for its length, or for a byte that numbers no
enumerator, and accepts every other one.  It is embedded here once more as it stands,
with every read checked: it makes none past the end.
-/

namespace GoproNative

/-- The number that 64 bits are in Dart. -/
def DartInt.signed (x : DartInt) : Int := x.toBitVec.toInt

theorem DartInt.signed_of_lt {x : DartInt} (h : x.toNat < 2 ^ 63) : x.signed = x.toNat :=
  BitVec.toInt_eq_toNat_of_lt (by rw [UInt64.toNat_toBitVec]; omega)

namespace BleCodec

/-! ## The decoder with checked reads -/

/-- `BleCodec.decode` with its reads; the outer `none` is a read past the end. -/
def decodeAt (data : Bytes) : Option (Option BleEvent) :=
  if data.isEmpty then return none
  else do
    let kind ← data[0]?
    if kind = 0x10 then
      if data.length < 2 then return none
      else
        let b ← data[1]?
        match Channel.fromByte b with
        | none => return none
        | some channel =>
            let bytes ← data.slice? 2 data.length
            return some (.writeRequest channel bytes)
    else if kind = 0x11 then
      if data.length < 10 then return none
      else
        let id ← data.slice? 1 9
        let outcomeByte ← data[9]?
        if bleOutcomes.length ≤ outcomeByte.toNat then return none
        else
          let outcome ← bleOutcomes[outcomeByte.toNat]?
          let payload ← data.slice? 10 data.length
          return some (.response ⟨getUint64 id, outcome, payload⟩)
    else if kind = 0x12 then
      if data.length < 2 then return none
      else
        let b ← data[1]?
        return some (.readyChanged (b != 0))
    else if kind = 0x13 then
      if data.length < 2 then return none
      else
        let b ← data[1]?
        match Channel.fromByte b with
        | none => return none
        | some channel =>
            let message ← data.slice? 2 data.length
            return some (.push channel message)
    else if kind = 0x14 then
      if data.length < 3 then return none
      else
        let b ← data[1]?
        match Channel.fromByte b with
        | none => return none
        | some channel =>
            let e ← data[2]?
            if bleFrameErrors.length ≤ e.toNat then return none
            else
              let error ← bleFrameErrors[e.toNat]?
              return some (.frameError channel error)
    else return none

theorem slice?_drop (data : Bytes) {start : Nat} (h : start ≤ data.length) :
    data.slice? start data.length = some (data.drop start) := by
  rw [List.slice?_of_le h (Nat.le_refl _), List.take_of_length_le (by simp)]

/-- A lookup behind its bounds check. -/
theorem bind_getElem?_of_check {β γ : Type} (values : List β) (n : Nat) (f : β → γ) :
    (if values.length ≤ n then some none
      else (values[n]?).bind fun v => some (some (f v))) = some ((values[n]?).map f) := by
  cases hn : values[n]? with
  | none => rw [if_pos (List.getElem?_eq_none_iff.mp hn), Option.map_none]
  | some v =>
      have hlt : n < values.length := (List.getElem?_eq_some_iff.mp hn).1
      rw [if_neg (Nat.not_le.mpr hlt)]
      rfl

/-- The decoder makes no read past the end. -/
theorem decodeAt_eq (data : Bytes) : decodeAt data = some (decode data) := by
  cases data with
  | nil => rfl
  | cons kind rest =>
      unfold decodeAt decode
      simp only [List.isEmpty_cons, Bool.false_eq_true, if_false, List.getElem?_cons_zero,
        Option.bind_eq_bind, Option.bind_some, Option.pure_def]
      by_cases hwrite : kind = 0x10
      · rw [if_pos hwrite, if_pos hwrite]
        cases rest with
        | nil => rfl
        | cons b bytes =>
            rw [if_neg (by simp), slice?_drop _ (by simp)]
            simp only [List.getElem?_cons_succ, List.getElem?_cons_zero, Option.bind_some,
              channelThen]
            cases Channel.fromByte b <;> rfl
      rw [if_neg hwrite, if_neg hwrite]
      by_cases hresponse : kind = 0x11
      · rw [if_pos hresponse, if_pos hresponse, decodeResponse, List.length_cons]
        by_cases hshort : rest.length < 9
        · rw [if_pos (by omega), if_pos hshort]
        · have hid : (kind :: rest).slice? 1 9 = some (rest.take 8) :=
            List.slice?_of_le (by omega) (by rw [List.length_cons]; omega)
          have htail : (kind :: rest).slice? 10 (rest.length + 1) = some (rest.drop 9) :=
            slice?_drop (kind :: rest) (by rw [List.length_cons]; omega)
          have hlast : rest[8]? = some (rest.getD 8 0) := by
            rw [List.getD_eq_getElem?_getD, List.getElem?_eq_getElem (by omega)]
            rfl
          rw [if_neg (by omega), if_neg hshort, hid, htail]
          simp only [List.getElem?_cons_succ, hlast, Option.bind_some]
          rw [bind_getElem?_of_check]
          simp only [getUint64, List.take_take, Nat.min_self]
      rw [if_neg hresponse, if_neg hresponse]
      by_cases hready : kind = 0x12
      · rw [if_pos hready, if_pos hready]
        cases rest with
        | nil => rfl
        | cons b bytes => rw [if_neg (by simp)]; rfl
      rw [if_neg hready, if_neg hready]
      by_cases hpush : kind = 0x13
      · rw [if_pos hpush, if_pos hpush]
        cases rest with
        | nil => rfl
        | cons b bytes =>
            rw [if_neg (by simp), slice?_drop _ (by simp)]
            simp only [List.getElem?_cons_succ, List.getElem?_cons_zero, Option.bind_some,
              channelThen]
            cases Channel.fromByte b <;> rfl
      rw [if_neg hpush, if_neg hpush]
      by_cases hframe : kind = 0x14
      · rw [if_pos hframe, if_pos hframe]
        rcases rest with _ | ⟨b, _ | ⟨e, bytes⟩⟩
        · rfl
        · rfl
        · rw [if_neg (by simp)]
          simp only [List.getElem?_cons_succ, List.getElem?_cons_zero, Option.bind_some,
            decodeFrameError]
          cases Channel.fromByte b with
          | none => rfl
          | some channel =>
              refine (bind_getElem?_of_check bleFrameErrors e.toNat _).trans ?_
              cases bleFrameErrors[e.toNat]? <;> rfl
      rw [if_neg hframe, if_neg hframe]

/-! ## What is malformed -/

/-- The fixed header of a kind: how long it is, and which of its bytes number an
enumerator of how many. -/
def header (kind : UInt8) : Option (Nat × List (Nat × Nat)) :=
  if kind = 0x10 then some (2, [(1, 4)])
  else if kind = 0x11 then some (10, [(9, 4)])
  else if kind = 0x12 then some (2, [])
  else if kind = 0x13 then some (2, [(1, 4)])
  else if kind = 0x14 then some (3, [(1, 4), (2, 8)])
  else none

/-- A payload of no known kind, with an incomplete header, or with a byte that is out of
range. -/
def Malformed (data : Bytes) : Prop :=
  ∀ kind length enumerated, data.head? = some kind → header kind = some (length, enumerated) →
    data.length < length ∨
      ∃ field ∈ enumerated, ∃ b, data[field.1]? = some b ∧ field.2 ≤ b.toNat

theorem fromByte_eq_none_iff (b : UInt8) : Channel.fromByte b = none ↔ 4 ≤ b.toNat := by
  simp only [Channel.fromByte, List.find?_eq_none, bleChannels, List.forall_mem_cons,
    List.not_mem_nil, Channel.value, beq_iff_eq, ← UInt8.toNat_inj,
    false_imp_iff, implies_true, and_true]
  simp
  omega

theorem malformed_cons_iff (kind : UInt8) (rest : Bytes) :
    Malformed (kind :: rest) ↔ ∀ length enumerated, header kind = some (length, enumerated) →
      rest.length + 1 < length ∨
        ∃ field ∈ enumerated, ∃ b, (kind :: rest)[field.1]? = some b ∧ field.2 ≤ b.toNat := by
  constructor
  · intro h length enumerated hheader
    exact h kind length enumerated rfl hheader
  · intro h kind' length enumerated hkind hheader
    obtain rfl : kind = kind' := Option.some.inj hkind
    exact h length enumerated hheader

theorem channelThen_eq_none_iff (kind : UInt8) (rest : Bytes) :
    channelThen rest = none ↔ rest.length + 1 < 2 ∨
      ∃ b, (kind :: rest)[1]? = some b ∧ 4 ≤ b.toNat := by
  cases rest with
  | nil => simp [channelThen]
  | cons b bytes =>
      have hlong : ¬bytes.length + 1 + 1 < 2 := by omega
      simp [channelThen, fromByte_eq_none_iff, hlong]

theorem decodeResponse_eq_none_iff (kind : UInt8) (rest : Bytes) :
    decodeResponse rest = none ↔ rest.length + 1 < 10 ∨
      ∃ b, (kind :: rest)[9]? = some b ∧ 4 ≤ b.toNat := by
  unfold decodeResponse
  by_cases hshort : rest.length + 1 < 10
  · rw [if_pos (by omega)]
    exact iff_of_true rfl (Or.inl hshort)
  · have hlast : (kind :: rest)[9]? = some (rest.getD 8 0) := by
      rw [List.getElem?_cons_succ, List.getD_eq_getElem?_getD,
        List.getElem?_eq_getElem (by omega)]
      rfl
    rw [if_neg (by omega), Option.map_eq_none_iff, List.getElem?_eq_none_iff, hlast]
    simp [hshort, bleOutcomes]

theorem decodeFrameError_eq_none_iff (kind : UInt8) (rest : Bytes) :
    decodeFrameError rest = none ↔ rest.length + 1 < 3 ∨
      (∃ b, (kind :: rest)[1]? = some b ∧ 4 ≤ b.toNat) ∨
        ∃ b, (kind :: rest)[2]? = some b ∧ 8 ≤ b.toNat := by
  match rest with
  | [] => simp [decodeFrameError]
  | [_] => simp [decodeFrameError]
  | b :: e :: bytes =>
      have herror : bleFrameErrors[e.toNat]? = none ↔ 8 ≤ e.toNat :=
        List.getElem?_eq_none_iff
      have hchannel := fromByte_eq_none_iff b
      simp only [decodeFrameError, List.length_cons, List.getElem?_cons_succ,
        List.getElem?_cons_zero, Option.some.injEq, exists_eq_left', ← hchannel, ← herror]
      cases Channel.fromByte b <;> cases bleFrameErrors[e.toNat]? <;> simp

/-- The decoder rejects what is malformed and nothing else. -/
theorem decode_eq_none_iff (data : Bytes) : decode data = none ↔ Malformed data := by
  match data with
  | [] => exact iff_of_true rfl fun kind _ _ hkind => absurd hkind (by simp)
  | kind :: rest =>
      rw [malformed_cons_iff]
      unfold decode header
      by_cases hwrite : kind = 0x10
      · simp [hwrite, channelThen_eq_none_iff 0x10]
      by_cases hresponse : kind = 0x11
      · simp [hresponse, decodeResponse_eq_none_iff 0x11]
      by_cases hready : kind = 0x12
      · cases rest <;> simp [hready]
      by_cases hpush : kind = 0x13
      · simp [hpush, channelThen_eq_none_iff 0x13]
      by_cases hframe : kind = 0x14
      · simp [hframe, decodeFrameError_eq_none_iff 0x14, or_and_right, exists_or]
      simp [hwrite, hresponse, hready, hpush, hframe]

/-! ## Both halves -/

/-- The event format round-trips, and the decoder rejects exactly the malformed.  Every
event that the bridge posts is decoded with the fields it was posted with; a correlation
id below `2 ^ 63` is the number it was.  The decoder makes no read past the end of any
payload, and its null is for the malformed ones. -/
theorem ble_events_round_trip :
    (∀ e channel packets, (SessionEvent.write e (Channel.value channel) packets).posts.map decode =
      packets.map fun packet => some (.writeRequest channel packet)) ∧
    (∀ s outcome payload, (SessionEvent.response s outcome payload).posts.map decode =
      [some (.response ⟨s.id, outcome, payload⟩)]) ∧
    (∀ id : CorrelationId, id.toNat < 2 ^ 63 → DartInt.signed id = id.toNat) ∧
    (∀ isReady, (SessionEvent.ready isReady).posts.map decode =
      [some (.readyChanged isReady)]) ∧
    (∀ channel parsed message, (SessionEvent.push channel parsed message).posts.map decode =
      [some (.push channel message)]) ∧
    (∀ channel result, (SessionEvent.frameError channel result).posts.map decode =
      [some (.frameError channel result)]) ∧
    (∀ data, decodeAt data = some (decode data)) ∧
    ∀ data, decode data = none ↔ Malformed data := by
  refine ⟨?_, ?_, fun _ => DartInt.signed_of_lt, ?_, ?_, ?_, decodeAt_eq, decode_eq_none_iff⟩
  · intro e channel packets
    simp [SessionEvent.posts, decode, kGoProBleWrite, channelThen, Function.comp_def]
  · intro s outcome payload
    simp [SessionEvent.posts, decode, kGoProBleResponse, decodeResponse_posted]
  · intro isReady
    cases isReady <;> rfl
  · intro channel parsed message
    simp [SessionEvent.posts, decode, kGoProBlePush, channelThen]
  · intro channel result
    simp [SessionEvent.posts, decode, kGoProBleFrameError, decodeFrameError]

end BleCodec

end GoproNative
