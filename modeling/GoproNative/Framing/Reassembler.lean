import GoproNative.Framing.Receiver
import Mathlib.Tactic.IntervalCases
import Mathlib.Data.Fintype.Basic

/-!
# The reassembler refines the abstract receiver

A reassembler between two calls is idle and equal to a new one, or it holds an
`Assembly`.  `feed` computes what `offer` says, whatever state it starts in on
a start packet, and every error leaves a new reassembler behind.
-/

namespace GoproNative

/-! ## Header bits -/

theorem contBit_iff (b : UInt8) : b &&& kContMask ≠ 0 ↔ 128 ≤ b.toNat :=
  forall_byte (P := fun b => b &&& kContMask ≠ 0 ↔ 128 ≤ b.toNat)
    (by decide +kernel) b

/-- The header type of a start packet is its leading byte divided by 32. -/
def headerOf (n : Nat) : PacketHeader :=
  if n = 0 then .general
  else if n = 1 then .ext13
  else if n = 2 then .ext16
  else .reserved

theorem headerBits_eq (b : UInt8) (h : b.toNat < 128) :
    PacketHeader.ofBits ((b &&& kHdrMask) >>> 5) = headerOf (b.toNat / 32) :=
  forall_byte (P := fun b => b.toNat < 128 →
    PacketHeader.ofBits ((b &&& kHdrMask) >>> 5) = headerOf (b.toNat / 32))
    (by decide +kernel) b h

theorem lengthBits_eq (b : UInt8) : (b &&& kGenLenMask).toNat = b.toNat % 32 :=
  forall_byte (P := fun b => (b &&& kGenLenMask).toNat = b.toNat % 32)
    (by decide +kernel) b

theorem shiftLeft_or_byte (a : Nat) (b : UInt8) :
    (a <<< 8) ||| b.toNat = a * 256 + b.toNat := by
  rw [← Nat.shiftLeft_add_eq_or_of_lt (i := 8) b.toNat_lt, Nat.shiftLeft_eq]

namespace Reassembler

/-! ## One packet -/

/-- Where `accept` arrives, by how much of the declared length has been got. -/
def settle (declared : Nat) (got : Bytes) : FeedResult × Reassembler :=
  if got.length < declared then
    (.needMore, ⟨got, declared - got.length, declared, true⟩)
  else if got.length = declared then (.complete, ⟨got, 0, declared, false⟩)
  else (.overflow, {})

theorem accept_eq_settle {declared : Nat} (buf : Bytes)
    (h : buf.length ≤ declared) (packet : Bytes) (k : Nat) :
    accept ⟨buf, declared - buf.length, declared, true⟩ packet k =
      settle declared (buf ++ packet.drop k) := by
  simp only [accept, settle, reset, List.length_append, List.length_drop]
  by_cases hover : declared - buf.length < packet.length - k
  · rw [if_pos hover, if_neg (by omega), if_neg (by omega)]
  · rw [if_neg hover]
    by_cases hshort : buf.length + (packet.length - k) < declared
    · rw [if_pos hshort, if_neg (by omega), Nat.sub_sub]
    · rw [if_neg hshort, if_pos (by omega), if_pos (by omega)]
      congr 2
      omega

theorem begin_of_pos {declared : Nat} (hpos : declared ≠ 0) (r : Reassembler)
    (packet : Bytes) (k : Nat) :
    begin { r with buf := [] } declared packet k =
      settle declared (packet.drop k) := by
  have h := accept_eq_settle [] (Nat.zero_le declared) packet k
  simp only [List.length_nil, Nat.sub_zero, List.nil_append] at h
  rw [begin, if_neg hpos, h]

theorem begin_declaring {declared d : Nat} {body got : Bytes}
    (h : declaring declared body = some (d, got)) (r : Reassembler)
    {packet : Bytes} {k : Nat} (hbody : packet.drop k = body) :
    begin { r with buf := [] } declared packet k = settle d got := by
  unfold declaring at h
  split at h
  · simp at h
  · next hpos =>
    simp only [Option.some.injEq, Prod.mk.injEq] at h
    obtain ⟨rfl, rfl⟩ := h
    rw [begin_of_pos hpos, hbody]

theorem begin_of_declaring_none {declared : Nat} {body : Bytes}
    (h : declaring declared body = none) (r : Reassembler) (packet : Bytes)
    (k : Nat) : begin r declared packet k = (.zeroLength, {}) := by
  unfold declaring at h
  split at h
  · next hzero => rw [begin, if_pos hzero]; rfl
  · simp at h

/-- A start packet is judged on its own, whatever state it arrives in. -/
theorem feed_start {p body : Bytes} {declared : Nat}
    (h : startOf p = some (declared, body)) (r : Reassembler) :
    r.feed p = settle declared body := by
  cases p with
  | nil => simp [startOf] at h
  | cons b0 rest =>
      by_cases hb : 128 ≤ b0.toNat
      · simp [startOf, hb] at h
      · have hcont : ¬(b0 &&& kContMask ≠ 0) := by rwa [contBit_iff]
        simp only [startOf, if_neg hb] at h
        simp only [feed, if_neg hcont, headerBits_eq b0 (by omega)]
        have hlt : b0.toNat / 32 < 4 := by omega
        interval_cases htype : b0.toNat / 32
        · simp only [headerOf, if_true]
          rw [lengthBits_eq]
          exact begin_declaring h r rfl
        · cases rest with
          | nil => simp at h
          | cons b1 body' =>
              simp only [headerOf, Nat.one_ne_zero, if_true, if_false]
              rw [shiftLeft_or_byte]
              change begin _ ((b0 &&& kGenLenMask).toNat * 256 + _) _ _ = _
              rw [lengthBits_eq]
              exact begin_declaring h r rfl
        · rcases rest with _ | ⟨b1, _ | ⟨b2, body'⟩⟩
          · simp at h
          · simp at h
          · simp only [headerOf, OfNat.ofNat_ne_zero, OfNat.ofNat_ne_one,
              if_true, if_false]
            rw [shiftLeft_or_byte]
            exact begin_declaring h r rfl
        · simp at h

/-- A continuation extends the assembly in progress. -/
theorem feed_cont {p body : Bytes} (h : contOf p = some body) (a : Assembly) :
    feed ⟨a.got, a.declared - a.got.length, a.declared, true⟩ p =
      settle a.declared (a.got ++ body) := by
  cases p with
  | nil => simp [contOf] at h
  | cons b0 rest =>
      by_cases hb : 128 ≤ b0.toNat
      · have hcont : b0 &&& kContMask ≠ 0 := (contBit_iff b0).mpr hb
        simp only [contOf, if_pos hb, Option.some.injEq] at h
        simp only [feed, if_pos hcont, Bool.not_true, Bool.false_eq_true,
          if_false]
        rw [accept_eq_settle a.got a.short.le]
        simp [h]
      · simp [contOf, hb] at h

/-- Whatever is neither a well-formed start packet nor a continuation of a
message in progress is an error, and leaves a new reassembler. -/
theorem feed_dropped {p : Bytes} {r : Reassembler} (hstart : startOf p = none)
    (hcont : contOf p = none ∨ r.inProgress = false) :
    (r.feed p).1.isError = true ∧ (r.feed p).2 = {} := by
  cases p with
  | nil => exact ⟨rfl, rfl⟩
  | cons b0 rest =>
      by_cases hb : 128 ≤ b0.toNat
      · have hbit : b0 &&& kContMask ≠ 0 := (contBit_iff b0).mpr hb
        have hidle : r.inProgress = false := by
          rcases hcont with hcont | hidle
          · simp [contOf, hb] at hcont
          · exact hidle
        simp only [feed, if_pos hbit, hidle, Bool.not_false, if_true]
        exact ⟨rfl, rfl⟩
      · have hbit : ¬(b0 &&& kContMask ≠ 0) := by rwa [contBit_iff]
        simp only [startOf, if_neg hb] at hstart
        simp only [feed, if_neg hbit, headerBits_eq b0 (by omega)]
        have hlt : b0.toNat / 32 < 4 := by omega
        interval_cases htype : b0.toNat / 32
        · simp only [headerOf, if_true]
          rw [lengthBits_eq, begin_of_declaring_none hstart]
          exact ⟨rfl, rfl⟩
        · cases rest with
          | nil => exact ⟨rfl, rfl⟩
          | cons b1 body =>
              simp only [headerOf, Nat.one_ne_zero, if_true, if_false]
              rw [shiftLeft_or_byte]
              change (begin _ ((b0 &&& kGenLenMask).toNat * 256 + _) _ _).1.isError
                = _ ∧ (begin _ ((b0 &&& kGenLenMask).toNat * 256 + _) _ _).2 = _
              rw [lengthBits_eq, begin_of_declaring_none hstart]
              exact ⟨rfl, rfl⟩
        · rcases rest with _ | ⟨b1, _ | ⟨b2, body⟩⟩
          · exact ⟨rfl, rfl⟩
          · exact ⟨rfl, rfl⟩
          · simp only [headerOf, OfNat.ofNat_ne_zero, OfNat.ofNat_ne_one,
              if_true, if_false]
            rw [shiftLeft_or_byte, begin_of_declaring_none hstart]
            exact ⟨rfl, rfl⟩
        · exact ⟨rfl, rfl⟩

/-! ## The refinement -/

/-- The reassembler that holds what the abstract receiver holds. -/
def ofReceiver : Option Assembly → Reassembler
  | none => {}
  | some a => ⟨a.got, a.declared - a.got.length, a.declared, true⟩

/-- A result of `feed` that agrees with what the abstract receiver says. -/
def Refines (out : FeedResult × Reassembler) : Intake → Prop
  | .message m =>
      out.1 = .complete ∧ out.2.take.1 = m ∧ out.2.inProgress = false
  | .more a => out = (.needMore, ofReceiver (some a))
  | .dropped => out.1.isError = true ∧ out.2 = {}

theorem settle_refines (declared : Nat) (got : Bytes) :
    Refines (settle declared got) (gather declared got) := by
  unfold settle gather
  by_cases hshort : got.length < declared
  · rw [if_pos hshort, dif_pos hshort]
    rfl
  · rw [if_neg hshort, dif_neg hshort]
    by_cases heq : got.length = declared
    · rw [if_pos heq, if_pos heq]
      exact ⟨rfl, rfl, rfl⟩
    · rw [if_neg heq, if_neg heq]
      exact ⟨rfl, rfl⟩

/-- Feeding a packet computes what offering it comes to. -/
theorem feed_refines (st : Option Assembly) (p : Bytes) :
    Refines ((ofReceiver st).feed p) (offer st p) := by
  unfold offer
  cases hstart : startOf p with
  | some sb =>
      rw [feed_start hstart]
      exact settle_refines sb.1 sb.2
  | none =>
      cases hcont : contOf p with
      | none => cases st <;> exact feed_dropped hstart (Or.inl hcont)
      | some body =>
          cases st with
          | none => exact feed_dropped hstart (Or.inr rfl)
          | some a =>
              have hfeed := feed_cont hcont a
              change Refines (feed ⟨_, _, _, true⟩ p) _
              rw [hfeed]
              exact settle_refines a.declared (a.got ++ body)

theorem feedTake_refines (st : Option Assembly) (p : Bytes) :
    (ofReceiver st).feedTake p =
      ((offer st p).taken, ofReceiver (offer st p).next) := by
  have href := feed_refines st p
  unfold feedTake
  cases hoffer : offer st p with
  | message m =>
      rw [hoffer] at href
      rw [if_pos href.1, href.2.1]
      rfl
  | more a =>
      rw [hoffer] at href
      rw [href, if_neg (by simp)]
      rfl
  | dropped =>
      rw [hoffer] at href
      have hne : ((ofReceiver st).feed p).1 ≠ .complete := by
        intro hcomplete
        simp [hcomplete, Refines, FeedResult.isError] at href
      rw [if_neg hne, href.2]
      rfl

theorem receive_refines (st : Option Assembly) (ps : List Bytes) :
    ((ofReceiver st).receive ps).2 =
      ofReceiver (ps.foldl (fun st p => (offer st p).next) st) := by
  induction ps generalizing st with
  | nil => rfl
  | cons p ps ih =>
      rw [receive, feedTake_refines]
      exact ih _

/-- After any packets, each completed message taken, the reassembler is the
image of the receiver. -/
theorem receive_eq_ofReceiver (ps : List Bytes) :
    (receive {} ps).2 = ofReceiver (offerAll ps) :=
  receive_refines none ps

/-! ## Acceptance -/

/-- The counters agree with the buffer whenever a message is in progress. -/
def Consistent (r : Reassembler) : Prop :=
  r.inProgress = true →
    r.buf.length + r.remaining = r.declared ∧
      r.remaining = r.declared - r.buf.length ∧ 0 < r.remaining

theorem consistent_ofReceiver (st : Option Assembly) :
    (ofReceiver st).Consistent := by
  cases st with
  | none => simp [ofReceiver, Consistent]
  | some a =>
      have hshort := a.short
      intro _
      exact ⟨Nat.add_sub_cancel' hshort.le, rfl, Nat.sub_pos_of_lt hshort⟩

theorem consistent_feed (st : Option Assembly) (p : Bytes) :
    ((ofReceiver st).feed p).2.Consistent := by
  have href := feed_refines st p
  cases hoffer : offer st p with
  | message m =>
      rw [hoffer] at href
      intro hprogress
      rw [href.2.2] at hprogress
      simp at hprogress
  | more a =>
      rw [hoffer] at href
      rw [href]
      exact consistent_ofReceiver (some a)
  | dropped =>
      rw [hoffer] at href
      rw [href.2]
      exact consistent_ofReceiver none

theorem feed_complete_iff {st : Option Assembly} {p : Bytes} :
    ((ofReceiver st).feed p).1 = .complete ↔ ∃ m, offer st p = .message m := by
  have href := feed_refines st p
  cases hoffer : offer st p with
  | message m =>
      rw [hoffer] at href
      simp [href.1]
  | more a =>
      rw [hoffer] at href
      have hout : (ofReceiver st).feed p = (.needMore, ofReceiver (some a)) := href
      simp [hout]
  | dropped =>
      rw [hoffer] at href
      have hne : ((ofReceiver st).feed p).1 ≠ .complete := by
        intro hcomplete
        simp [hcomplete, Refines, FeedResult.isError] at href
      simp [hne]

theorem feed_error_reset {st : Option Assembly} {p : Bytes}
    (h : ((ofReceiver st).feed p).1.isError = true) :
    ((ofReceiver st).feed p).2 = {} := by
  have href := feed_refines st p
  cases hoffer : offer st p with
  | message m =>
      rw [hoffer] at href
      simp [href.1, FeedResult.isError] at h
  | more a =>
      rw [hoffer] at href
      have hout : (ofReceiver st).feed p = (.needMore, ofReceiver (some a)) := href
      simp [hout, FeedResult.isError] at h
  | dropped =>
      rw [hoffer] at href
      exact href.2

/-- The reassembler accepts exactly the framing grammar: after any packets
`ps`, each completed message taken, the packet `p` completes a message if and
only if the packets since the last start packet are well framed and carry
exactly the declared length; what is then taken is just their payload.  The
counters are consistent before and after, and an error leaves a new
reassembler. -/
theorem feed_complete_iff_framed (ps : List Bytes) (p : Bytes) :
    let r := (receive {} ps).2
    ((r.feed p).1 = .complete ↔
      ∃ pre start conts m, ps ++ [p] = pre ++ start :: conts ∧
        Framed start conts m.length m) ∧
    (∀ pre start conts m, ps ++ [p] = pre ++ start :: conts →
      Framed start conts m.length m → (r.feed p).2.take.1 = m) ∧
    r.Consistent ∧ (r.feed p).2.Consistent ∧
    ((r.feed p).1.isError = true → (r.feed p).2 = {}) := by
  intro r
  have hr : r = ofReceiver (offerAll ps) := receive_eq_ofReceiver ps
  rw [hr]
  refine ⟨?_, ?_, consistent_ofReceiver _, consistent_feed _ p, feed_error_reset⟩
  · rw [feed_complete_iff]
    constructor
    · rintro ⟨m, hoffer⟩
      obtain ⟨pre, start, conts, hps, hframed⟩ := offer_eq_message_iff.mp hoffer
      exact ⟨pre, start, conts, m, hps, hframed⟩
    · rintro ⟨pre, start, conts, m, hps, hframed⟩
      exact ⟨m, offer_eq_message_iff.mpr ⟨pre, start, conts, hps, hframed⟩⟩
  · intro pre start conts m hps hframed
    have hoffer : offer (offerAll ps) p = .message m :=
      offer_eq_message_iff.mpr ⟨pre, start, conts, hps, hframed⟩
    have href := feed_refines (offerAll ps) p
    rw [hoffer] at href
    exact href.2.1

end Reassembler

end GoproNative
