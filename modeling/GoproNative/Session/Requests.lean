import GoproNative.Framing.Reassembler
import GoproNative.Session.KeepAlive
import Mathlib.Data.Nat.Bitwise

/-!
# Requests

A submission asks for a command on a channel, in one of two forms, and the
correlation id alone is kept of that.  The two layouts of ids do not overlap, both
are injective, and the channel can be read back from either; so what is outstanding
can be traced to the request it came from.
-/

namespace GoproNative

/-! ## Correlation ids as numbers -/

theorem correlationOf_toNat (channel : Channel) (b : UInt8) :
    (correlationOf channel b).toNat = channel.value.toNat * 256 + b.toNat := by
  have hchannel : (channel.value.toUInt64 <<< 8).toNat = channel.value.toNat <<< 8 := by
    cases channel <;> decide
  rw [correlationOf, UInt64.toNat_or, hchannel, UInt8.toNat_toUInt64]
  exact shiftLeft_or_byte _ _

/-- The number a two-byte id is. -/
theorem protobufCorrelationOfMessage_toNat (channel : Channel) (b0 b1 : UInt8) :
    (protobufCorrelationOfMessage channel b0 b1).toNat =
      16777216 + channel.value.toNat * 65536 + b0.toNat * 256 + b1.toNat := by
  have hchannel : (kProtobufCorrelationBit ||| channel.value.toUInt64 <<< 16).toNat =
      ((256 + channel.value.toNat) <<< 8) <<< 8 := by
    cases channel <;> decide
  have hfeature : (b0.toUInt64 <<< 8).toNat = b0.toNat <<< 8 := by
    have hlt := b0.toNat_lt
    rw [UInt64.toNat_shiftLeft, UInt8.toNat_toUInt64]
    simp only [Nat.shiftLeft_eq]
    refine Nat.mod_eq_of_lt ?_
    calc b0.toNat * 2 ^ 8 < 2 ^ 8 * 2 ^ 8 := by omega
      _ < 2 ^ 64 := by decide
  rw [protobufCorrelationOfMessage, UInt64.toNat_or, UInt64.toNat_or, hchannel, hfeature,
    ← Nat.shiftLeft_or_distrib, shiftLeft_or_byte, UInt8.toNat_toUInt64, shiftLeft_or_byte]
  omega

/-- The bit that tells the two layouts apart. -/
theorem and_protobufBit_eq_zero_iff (id : CorrelationId) :
    id &&& kProtobufCorrelationBit = 0 ↔ id.toNat / 16777216 % 2 = 0 := by
  have hbit : kProtobufCorrelationBit.toNat = 2 ^ 24 := by decide
  rw [← UInt64.toNat_inj, UInt64.toNat_and, hbit, Nat.and_two_pow,
    Nat.testBit_eq_decide_div_mod_eq]
  rcases Nat.mod_two_eq_zero_or_one (id.toNat / 2 ^ 24) with hmod | hmod <;> simp

/-- The byte `channelOfCorrelation` reads. -/
theorem channelOfCorrelation_toNat (id : CorrelationId) :
    (channelOfCorrelation id).toNat =
      if id.toNat / 16777216 % 2 = 0 then id.toNat / 256 % 256
      else id.toNat / 65536 % 256 := by
  have hmask : ∀ v : UInt64, (v &&& 0xFF).toUInt8.toNat = v.toNat % 256 := by
    intro v
    rw [UInt64.toNat_toUInt8, UInt64.toNat_and]
    have hand : v.toNat &&& (0xFF : UInt64).toNat = v.toNat % 2 ^ 8 :=
      Nat.and_two_pow_sub_one_eq_mod v.toNat 8
    rw [hand]
    exact Nat.mod_mod _ _
  have hshift : ∀ v n : UInt64, n.toNat < 64 → (v >>> n).toNat = v.toNat / 2 ^ n.toNat := by
    intro v n hn
    rw [UInt64.toNat_shiftRight, Nat.mod_eq_of_lt hn, Nat.shiftRight_eq_div_pow]
  have hread : ∀ n : UInt64, n.toNat < 64 →
      ((id >>> n) &&& 0xFF).toUInt8.toNat = id.toNat / 2 ^ n.toNat % 256 := by
    intro n hn
    rw [hmask, hshift id n hn]
  unfold channelOfCorrelation
  simp only [ne_eq, and_protobufBit_eq_zero_iff]
  by_cases hplain : id.toNat / 16777216 % 2 = 0
  · rw [if_pos hplain, if_neg (not_not.mpr hplain)]
    exact hread 8 (by decide)
  · rw [if_neg hplain, if_pos hplain]
    exact hread 16 (by decide)

theorem channelOfCorrelation_correlationOf (channel : Channel) (b : UInt8) :
    channelOfCorrelation (correlationOf channel b) = channel.value := by
  have hlt := b.toNat_lt
  have hchannel : channel.value.toNat < 4 := by cases channel <;> decide
  rw [← UInt8.toNat_inj, channelOfCorrelation_toNat, correlationOf_toNat]
  rw [if_pos (by omega)]
  omega

theorem channelOfCorrelation_protobuf (channel : Channel) (b0 b1 : UInt8) :
    channelOfCorrelation (protobufCorrelationOfMessage channel b0 b1) = channel.value := by
  have hlt := b0.toNat_lt
  have hlt' := b1.toNat_lt
  have hchannel : channel.value.toNat < 4 := by cases channel <;> decide
  rw [← UInt8.toNat_inj, channelOfCorrelation_toNat, protobufCorrelationOfMessage_toNat]
  rw [if_neg (by omega)]
  omega

theorem Channel.value_injective {channel channel' : Channel}
    (h : channel.value = channel'.value) : channel = channel' := by
  cases channel <;> cases channel' <;> first | rfl | exact absurd h (by decide)

theorem correlationOf_ne_protobuf (channel channel' : Channel) (b b0 b1 : UInt8) :
    correlationOf channel b ≠ protobufCorrelationOfMessage channel' b0 b1 := by
  intro h
  have hlt := b.toNat_lt
  have hchannel : channel.value.toNat < 4 := by cases channel <;> decide
  have hnat := congrArg UInt64.toNat h
  rw [correlationOf_toNat, protobufCorrelationOfMessage_toNat] at hnat
  omega

theorem correlationOf_inj {channel channel' : Channel} {b b' : UInt8} :
    correlationOf channel b = correlationOf channel' b' ↔ channel = channel' ∧ b = b' := by
  constructor
  · intro h
    have hchannel := congrArg channelOfCorrelation h
    rw [channelOfCorrelation_correlationOf, channelOfCorrelation_correlationOf] at hchannel
    obtain rfl := Channel.value_injective hchannel
    have hnat := congrArg UInt64.toNat h
    rw [correlationOf_toNat, correlationOf_toNat] at hnat
    exact ⟨rfl, UInt8.toNat_inj.mp (by omega)⟩
  · rintro ⟨rfl, rfl⟩
    rfl

theorem protobufCorrelation_inj {channel channel' : Channel} {b0 b1 b0' b1' : UInt8} :
    protobufCorrelationOfMessage channel b0 b1 =
        protobufCorrelationOfMessage channel' b0' b1' ↔
      channel = channel' ∧ b0 = b0' ∧ b1 = b1' := by
  constructor
  · intro h
    have hchannel := congrArg channelOfCorrelation h
    rw [channelOfCorrelation_protobuf, channelOfCorrelation_protobuf] at hchannel
    obtain rfl := Channel.value_injective hchannel
    have hlt := b1.toNat_lt
    have hlt' := b1'.toNat_lt
    have hnat := congrArg UInt64.toNat h
    rw [protobufCorrelationOfMessage_toNat, protobufCorrelationOfMessage_toNat] at hnat
    exact ⟨rfl, UInt8.toNat_inj.mp (by omega), UInt8.toNat_inj.mp (by omega)⟩
  · rintro ⟨rfl, rfl, rfl⟩
    rfl

/-! ## Requests -/

/-- What a submission asks for. -/
inductive Request
  | plain (channel : Channel) (leadingByte : UInt8) (rest : Bytes)
  | protobuf (channel : Channel) (featureId actionId : UInt8) (message : Bytes)
  deriving DecidableEq

namespace Request

def channel : Request → Channel
  | plain channel _ _ => channel
  | protobuf channel _ _ _ => channel

def id : Request → CorrelationId
  | plain channel leadingByte _ => correlationOf channel leadingByte
  | protobuf channel featureId actionId _ =>
      correlationOfProtobuf channel featureId actionId

def payload : Request → Bytes
  | plain _ leadingByte rest => leadingByte :: rest
  | protobuf _ featureId actionId message => featureId :: actionId :: message

/-- The channel is read back from the id, in both layouts. -/
theorem channelOfCorrelation_id (r : Request) :
    channelOfCorrelation r.id = r.channel.value := by
  cases r with
  | plain channel leadingByte rest =>
      exact channelOfCorrelation_correlationOf channel leadingByte
  | protobuf channel featureId actionId message =>
      exact channelOfCorrelation_protobuf channel featureId _

end Request

/-- What a due tick asks for. -/
def keepAliveRequest : Request := .plain .settings kLedSettingId [1, kKeepAliveValue]

namespace BleSession

variable {s : BleSession}

instance (s : BleSession) (nowMs : UInt64) : Decidable (s.Due nowMs) :=
  inferInstanceAs (Decidable (_ ∧ _))

/-- The request an operation submits, if it submits one. -/
def request (s : BleSession) : SessionOp → Option Request
  | .submit channel (b :: rest) _ _ => some (.plain channel b rest)
  | .submitProtobuf channel featureId actionId message _ _ =>
      some (.protobuf channel featureId actionId message)
  | .tick nowMs => if s.Due nowMs then some keepAliveRequest else none
  | _ => none

/-- The requests of a run, in the order they are submitted. -/
def requests : BleSession → List SessionOp → List Request
  | _, [] => []
  | s, op :: ops => (s.request op).toList ++ requests (s.perform op).session ops

/-! ## What is outstanding was asked for -/

/-- Submissions are numbered by the requests, and what is outstanding under a number
has that request's id and payload. -/
structure Recorded (asked : List Request) (s : BleSession) : Prop where
  count : s.submissions = asked.length
  outstanding : ∀ e ∈ s.queue.outstanding, ∃ r, asked[e.done.number]? = some r ∧
    r.id = e.id ∧ r.payload = e.payload

variable {asked : List Request}

theorem Recorded.callQueue (h : Recorded asked s) (done : Submission) (op : QueueOp)
    (hop : ∀ id payload priority nowMs, op ≠ .submit id payload priority nowMs) :
    Recorded asked (s.callQueue (s.queue.activate done op)).session := by
  refine ⟨h.count, ?_⟩
  intro e he
  have hmem := CommandQueue.run_outstanding
    (f := fun e : Entry Submission => (e.id, e.payload, e.done)) (fun _ _ => rfl)
    s.queue done op _ (List.mem_map_of_mem he)
  rcases hmem with hold | ⟨id, payload, priority, nowMs, heq, -⟩
  · obtain ⟨e', he', heq⟩ := List.mem_map.mp hold
    obtain ⟨hid, hrest⟩ := Prod.mk.inj heq
    obtain ⟨hpayload, hdone⟩ := Prod.mk.inj hrest
    rw [← hid, ← hpayload, ← hdone]
    exact h.outstanding e' he'
  · exact absurd heq (hop id payload priority nowMs)

theorem Recorded.congr {t : BleSession} (h : Recorded asked s) (hqueue : t.queue = s.queue)
    (hcount : t.submissions = s.submissions) : Recorded asked t :=
  ⟨hcount.trans h.count, hqueue ▸ h.outstanding⟩

theorem Recorded.setGate (h : Recorded asked s) (word : ReadyState) (nowMs : UInt64) :
    Recorded asked (s.setGate word nowMs).session := by
  have hword : Recorded asked { s with readyState := word } := h.congr rfl rfl
  unfold BleSession.setGate
  split
  · exact hword
  · exact hword.callQueue nobody (.setReady word.ready nowMs) (by simp)

theorem Recorded.feed (h : Recorded asked s) (channel : Channel) (packet : Bytes)
    (nowMs : UInt64) : Recorded asked (s.feed channel packet nowMs).session := by
  have hrx : ∀ rx, Recorded asked { s with rx := rx } := fun _ => h.congr rfl rfl
  unfold BleSession.feed
  simp only
  split
  · exact hrx _
  · rw [deliver_session]
    exact ((hrx _).callQueue nobody (.onResponse _ _ nowMs) (by simp)).setGate _ nowMs
  · exact hrx _

theorem Recorded.enqueue (h : Recorded asked s) (r : Request) (priority : Priority)
    (byTick : Bool) (nowMs : UInt64) :
    Recorded (asked ++ [r])
      (s.enqueue r.id r.payload priority byTick nowMs).session := by
  refine ⟨by simp [BleSession.enqueue, BleSession.callQueue, h.count], ?_⟩
  intro e he
  have hmem := CommandQueue.run_outstanding
    (f := fun e : Entry Submission => (e.id, e.payload, e.done)) (fun _ _ => rfl)
    s.queue ⟨r.id, s.submissions, byTick⟩ (.submit r.id r.payload priority nowMs) _
    (List.mem_map_of_mem he)
  rcases hmem with hold | ⟨id, payload, priority', nowMs', hop, heq⟩
  · obtain ⟨e', he', heq⟩ := List.mem_map.mp hold
    obtain ⟨hid, hrest⟩ := Prod.mk.inj heq
    obtain ⟨hpayload, hdone⟩ := Prod.mk.inj hrest
    rw [← hid, ← hpayload, ← hdone]
    obtain ⟨r', hasked, hr'⟩ := h.outstanding e' he'
    refine ⟨r', ?_, hr'⟩
    rw [List.getElem?_append_left (List.getElem?_eq_some_iff.mp hasked).1]
    exact hasked
  · simp only [QueueOp.submit.injEq] at hop
    obtain ⟨rfl, rfl, -, -⟩ := hop
    obtain ⟨hid, hrest⟩ := Prod.mk.inj heq
    obtain ⟨hpayload, hdone⟩ := Prod.mk.inj hrest
    refine ⟨r, ?_, hid.symm, hpayload.symm⟩
    rw [hdone, h.count]
    simp

theorem Recorded.perform (h : Recorded asked s) (op : SessionOp) :
    Recorded (asked ++ (s.request op).toList) (s.perform op).session := by
  have hnone : ∀ {t}, Recorded asked t → Recorded (asked ++ none.toList) t := by
    intro t ht
    simpa using ht
  cases op with
  | feed channel packet nowMs => exact hnone (h.feed channel packet nowMs)
  | submit channel payload priority nowMs =>
      cases payload with
      | nil => exact hnone h
      | cons b rest => exact h.enqueue (.plain channel b rest) priority false nowMs
  | submitProtobuf channel featureId actionId message priority nowMs =>
      exact h.enqueue (.protobuf channel featureId actionId message) priority false nowMs
  | tick nowMs =>
      have hswept := h.callQueue nobody (.tick nowMs) (by simp)
      unfold BleSession.perform request
      by_cases hdue : s.Due nowMs
      · have hanchored : Recorded asked (s.anchored nowMs) := hswept.congr rfl rfl
        simp only [(tick_of_due hdue).1, if_pos hdue]
        exact hanchored.enqueue keepAliveRequest .keepAlive true nowMs
      · simp only [(tick_of_not_due hdue).1, if_neg hdue]
        exact hnone (hswept.congr rfl rfl)
  | setAttPayload bytes =>
      rw [BleSession.perform, setAttPayload_eq]
      exact hnone (h.congr rfl rfl)
  | onDisconnect =>
      refine hnone ⟨h.count, ?_⟩
      intro e he
      exact absurd he List.not_mem_nil

theorem recorded_new (cfg : SessionConfig) : Recorded [] (new cfg) :=
  ⟨rfl, fun _ he => absurd he List.not_mem_nil⟩

/-- Over a run the requests account for what is outstanding. -/
theorem Recorded.run {t : BleSession} {labels : List (SessionOp × List SessionEvent)}
    (hrun : lts.Run s labels t) (h : Recorded asked s) :
    Recorded (asked ++ s.requests (labels.map Prod.fst)) t := by
  induction hrun generalizing asked with
  | nil s =>
      rw [List.map_nil, requests, List.append_nil]
      exact h
  | @cons s _ u label labels hstep hrest ih =>
      obtain ⟨op, evs⟩ := label
      obtain ⟨rfl, rfl⟩ := step_eq hstep
      rw [List.map_cons, requests, ← List.append_assoc]
      exact ih (h.perform op)

end BleSession

end GoproNative
