import GoproNative.Framing.Definitions
import GoproNative.Support.History
import Mathlib.Data.List.Induction

/-!
# What the reassembler is for

The abstract receiver knows at most one unfinished message, and an unfinished
message is always short of its declared length: `Assembly` carries that as a
field.  `offer` says what one packet does to it.  The reassembler of
`ble_protocol.cpp` refines this receiver, and the receiver's state is
determined by the packets since the last start packet.
-/

namespace GoproNative

/-! ## Reading one packet -/

/-- A header that declares a length, unless that length is zero. -/
def declaring (declared : Nat) (body : Bytes) : Option (Nat × Bytes) :=
  if declared = 0 then none else some (declared, body)

/-- The declared length and the payload of a well-formed start packet:
continuation bit clear, a header that is fully present and not reserved, and a
positive length. -/
def startOf : Bytes → Option (Nat × Bytes)
  | [] => none
  | b0 :: rest =>
      if 128 ≤ b0.toNat then none
      else
        match b0.toNat / 32, rest with
        | 0, body => declaring (b0.toNat % 32) body
        | 1, b1 :: body => declaring (b0.toNat % 32 * 256 + b1.toNat) body
        | 2, b1 :: b2 :: body => declaring (b1.toNat * 256 + b2.toNat) body
        | _, _ => none

/-- The payload of a continuation packet. -/
def contOf : Bytes → Option Bytes
  | [] => none
  | b0 :: rest => if 128 ≤ b0.toNat then some rest else none

theorem startOf_eq_none_of_contOf {p body : Bytes} (h : contOf p = some body) :
    startOf p = none := by
  cases p with
  | nil => rfl
  | cons b0 rest =>
      by_cases hb : 128 ≤ b0.toNat
      · simp [startOf, hb]
      · simp [contOf, hb] at h

theorem tail_of_contOf {p body : Bytes} (h : contOf p = some body) :
    p.tail = body := by
  cases p with
  | nil => simp [contOf] at h
  | cons b0 rest =>
      by_cases hb : 128 ≤ b0.toNat
      · simpa [contOf, hb] using h
      · simp [contOf, hb] at h

/-! ## The abstract receiver -/

/-- An unfinished message: what it declared and what has arrived, which is
less. -/
structure Assembly where
  declared : Nat
  got : Bytes
  short : got.length < declared

/-- What offering a packet comes to. -/
inductive Intake
  | dropped
  | more (a : Assembly)
  | message (m : Bytes)

/-- Judge what has arrived against what was declared. -/
def gather (declared : Nat) (got : Bytes) : Intake :=
  if h : got.length < declared then .more ⟨declared, got, h⟩
  else if got.length = declared then .message got
  else .dropped

/-- A start packet begins afresh whatever was underway; a continuation extends
what is underway; anything else is dropped together with it. -/
def offer (st : Option Assembly) (p : Bytes) : Intake :=
  match startOf p with
  | some (declared, body) => gather declared body
  | none =>
      match st, contOf p with
      | some a, some body => gather a.declared (a.got ++ body)
      | _, _ => .dropped

def Intake.next : Intake → Option Assembly
  | .more a => some a
  | _ => none

def Intake.taken : Intake → Option Bytes
  | .message m => some m
  | _ => none

theorem gather_eq_message_iff {declared : Nat} {got m : Bytes} :
    gather declared got = .message m ↔ got = m ∧ m.length = declared := by
  unfold gather
  split
  · next h =>
    constructor
    · intro hcontra
      simp at hcontra
    · rintro ⟨rfl, rfl⟩
      omega
  · split
    · next heq =>
      constructor
      · intro hm
        simp only [Intake.message.injEq] at hm
        exact ⟨hm, hm ▸ heq⟩
      · rintro ⟨rfl, -⟩
        rfl
    · next hne =>
      constructor
      · intro hcontra
        simp at hcontra
      · rintro ⟨rfl, hlen⟩
        exact absurd hlen hne

theorem gather_next_eq_some_iff {declared : Nat} {got : Bytes} {a : Assembly} :
    (gather declared got).next = some a ↔ a.declared = declared ∧ a.got = got := by
  unfold gather
  split
  · next h =>
    simp only [Intake.next, Option.some.injEq]
    constructor
    · rintro rfl
      exact ⟨rfl, rfl⟩
    · rintro ⟨rfl, rfl⟩
      rfl
  · next h =>
    constructor
    · split <;> simp [Intake.next]
    · rintro ⟨rfl, rfl⟩
      exact absurd a.short h

/-! ## Runs of packets -/

/-- What a start packet's payload and its continuations carry together. -/
def carried (body : Bytes) (conts : List Bytes) : Bytes :=
  body ++ (conts.map List.tail).flatten

/-- `Framed start conts declared got`: a well-formed start packet followed only
by continuation packets, carrying `got` together, every proper prefix of them
carrying less than was declared. -/
structure Framed (start : Bytes) (conts : List Bytes) (declared : Nat)
    (got : Bytes) : Prop where
  header : ∃ body, startOf start = some (declared, body) ∧
    got = carried body conts ∧
    ∀ k < conts.length, (carried body (conts.take k)).length < declared
  continuations : ∀ c ∈ conts, (contOf c).isSome

theorem carried_snoc (body : Bytes) (conts : List Bytes) (p : Bytes) :
    carried body (conts ++ [p]) = carried body conts ++ p.tail := by
  simp [carried]

theorem framed_start_iff {p : Bytes} {declared : Nat} {got : Bytes} :
    Framed p [] declared got ↔ startOf p = some (declared, got) := by
  constructor
  · rintro ⟨⟨body, hstart, rfl, -⟩, -⟩
    simpa [carried] using hstart
  · intro hstart
    exact ⟨⟨got, hstart, by simp [carried], by simp⟩, by simp⟩

theorem framed_snoc_iff {start p : Bytes} {conts : List Bytes}
    {declared : Nat} {got : Bytes} :
    Framed start (conts ++ [p]) declared got ↔
      ∃ a : Assembly, ∃ body, Framed start conts declared a.got ∧
        a.declared = declared ∧ contOf p = some body ∧
        got = a.got ++ body := by
  constructor
  · rintro ⟨⟨body, hstart, hgot, hshort⟩, hconts⟩
    have hlast := hshort conts.length (by simp)
    rw [List.take_left] at hlast
    obtain ⟨payload, hp⟩ := Option.isSome_iff_exists.mp (hconts p (by simp))
    refine ⟨⟨declared, carried body conts, hlast⟩, payload, ?_, rfl, hp, ?_⟩
    · refine ⟨⟨body, hstart, rfl, ?_⟩, fun c hc => hconts c (by simp [hc])⟩
      intro k hk
      have := hshort k (by simp; omega)
      rwa [List.take_append_of_le_length (by omega)] at this
    · rw [hgot, carried_snoc, tail_of_contOf hp]
  · rintro ⟨a, payload, ⟨⟨body, hstart, hgot, hshort⟩, hconts⟩, rfl, hp, rfl⟩
    refine ⟨⟨body, hstart, ?_, ?_⟩, ?_⟩
    · rw [carried_snoc, tail_of_contOf hp, ← hgot]
    · intro k hk
      rcases Nat.lt_or_ge k conts.length with hlt | hge
      · rw [List.take_append_of_le_length (by omega)]
        exact hshort k hlt
      · have hk' : k = conts.length := by
          simp at hk
          omega
        rw [hk', List.take_left, ← hgot]
        exact a.short
    · intro c hc
      rw [List.mem_append, List.mem_singleton] at hc
      rcases hc with hc | rfl
      · exact hconts c hc
      · simp [hp]

/-- The receiver's state after packets offered to an idle receiver. -/
def offerAll (ps : List Bytes) : Option Assembly :=
  ps.foldl (fun st p => (offer st p).next) none

@[simp] theorem offerAll_snoc (ps : List Bytes) (p : Bytes) :
    offerAll (ps ++ [p]) = (offer (offerAll ps) p).next := by
  simp [offerAll]

/-- What is underway is what the packets since the last start packet say. -/
theorem offerAll_eq_some_iff {ps : List Bytes} {a : Assembly} :
    offerAll ps = some a ↔
      ∃ pre start conts, ps = pre ++ start :: conts ∧
        Framed start conts a.declared a.got := by
  induction ps using List.reverseRecOn generalizing a with
  | nil => simp [offerAll]
  | append_singleton ps p ih =>
      rw [offerAll_snoc]
      unfold offer
      constructor
      · split
        · next declared body hstart =>
          rw [gather_next_eq_some_iff]
          rintro ⟨hd, hg⟩
          refine ⟨ps, p, [], rfl, ?_⟩
          rwa [framed_start_iff, hd, hg]
        · next hstart =>
          split
          · next b body hst hcont =>
            rw [gather_next_eq_some_iff]
            rintro ⟨hd, hg⟩
            obtain ⟨pre, start, conts, rfl, hframed⟩ := ih.mp hst
            refine ⟨pre, start, conts ++ [p], by simp, ?_⟩
            rw [framed_snoc_iff]
            exact ⟨b, body, hd ▸ hframed, hd.symm, hcont, hg⟩
          · simp [Intake.next]
      · rintro ⟨pre, start, conts, hps, hframed⟩
        rcases List.append_singleton_eq_append_cons hps with
          ⟨rfl, rfl, rfl⟩ | ⟨conts', rfl, rfl⟩
        · rw [framed_start_iff] at hframed
          rw [hframed]
          exact gather_next_eq_some_iff.mpr ⟨rfl, rfl⟩
        · obtain ⟨b, body, hb, hd, hcont, hg⟩ := framed_snoc_iff.mp hframed
          have hst := ih.mpr ⟨pre, start, conts', rfl, hd ▸ hb⟩
          rw [startOf_eq_none_of_contOf hcont, hst, hcont]
          exact gather_next_eq_some_iff.mpr ⟨hd.symm, hg⟩

/-- A packet completes a message exactly when the packets since the last start
packet, itself included, carry exactly what that one declared. -/
theorem offer_eq_message_iff {ps : List Bytes} {p m : Bytes} :
    offer (offerAll ps) p = .message m ↔
      ∃ pre start conts, ps ++ [p] = pre ++ start :: conts ∧
        Framed start conts m.length m := by
  constructor
  · unfold offer
    split
    · next declared body hstart =>
      rw [gather_eq_message_iff]
      rintro ⟨rfl, rfl⟩
      exact ⟨ps, p, [], rfl, framed_start_iff.mpr hstart⟩
    · next hstart =>
      split
      · next b body hst hcont =>
        rw [gather_eq_message_iff]
        rintro ⟨rfl, hlen⟩
        obtain ⟨pre, start, conts, rfl, hframed⟩ :=
          offerAll_eq_some_iff.mp hst
        refine ⟨pre, start, conts ++ [p], by simp, ?_⟩
        rw [framed_snoc_iff]
        exact ⟨b, body, hlen ▸ hframed, hlen.symm, hcont, rfl⟩
      · simp
  · rintro ⟨pre, start, conts, hps, hframed⟩
    unfold offer
    rcases List.append_singleton_eq_append_cons hps with
      ⟨rfl, rfl, rfl⟩ | ⟨conts', rfl, rfl⟩
    · rw [framed_start_iff.mp hframed]
      exact gather_eq_message_iff.mpr ⟨rfl, rfl⟩
    · obtain ⟨b, body, hb, hd, hcont, hg⟩ := framed_snoc_iff.mp hframed
      have hst : offerAll (pre ++ start :: conts') = some b :=
        offerAll_eq_some_iff.mpr ⟨pre, start, conts', rfl, hd ▸ hb⟩
      rw [startOf_eq_none_of_contOf hcont, hst, hcont]
      exact gather_eq_message_iff.mpr ⟨hg.symm, hd.symm⟩

end GoproNative
