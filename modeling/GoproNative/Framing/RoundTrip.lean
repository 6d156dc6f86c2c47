import GoproNative.Framing.Reassembler

/-!
# Framing round trip

What `fragment` emits is well framed, and whatever is well framed is received
from any state of the reassembler.  Together they give the round trip for
every message and every ATT payload that `fragment` accepts, and hence the
recovery of messages sent back to back after arbitrary garbage.
-/

namespace GoproNative

/-! ## The sender -/

/-- The domain of `fragment`: a message the framing can express, and room in a
packet for the first header and one byte more. -/
def Sendable (m : Bytes) (attPayload : Nat) : Prop :=
  1 ≤ m.length ∧ m.length ≤ kMaxMessageLen ∧
    (if m.length < 2 ^ 13 - 1 then 2 else 3) < attPayload

instance (m : Bytes) (attPayload : Nat) : Decidable (Sendable m attPayload) :=
  inferInstanceAs (Decidable (_ ∧ _ ∧ _))

/-- The payload a packet carries, by the reading of either kind of header. -/
def payloadOf (p : Bytes) : Bytes :=
  match startOf p with
  | some (_, body) => body
  | none => (contOf p).getD []

theorem firstHdr_length (len : Nat) :
    (firstHdr len).length = if len < 2 ^ 13 - 1 then 2 else 3 := by
  unfold firstHdr
  split
  · next h => rw [if_pos (show len < 2 ^ 13 - 1 from h)]; rfl
  · next h => rw [if_neg (show ¬len < 2 ^ 13 - 1 from h)]; rfl

theorem fragment_eq_nil_of_not_sendable {m : Bytes} {attPayload : Nat}
    (h : ¬Sendable m attPayload) : fragment m attPayload = [] := by
  unfold fragment
  by_cases hlen : m.isEmpty || decide (kMaxMessageLen < m.length)
  · rw [if_pos hlen]
  · rw [if_neg hlen, firstHdr_length, if_pos]
    simp only [Bool.or_eq_true, List.isEmpty_iff, decide_eq_true_eq, not_or] at hlen
    have hpos : 1 ≤ m.length := List.length_pos_iff.mpr hlen.1
    by_contra hroom
    exact h ⟨hpos, by omega, by omega⟩

theorem fragment_of_sendable {m : Bytes} {attPayload : Nat}
    (h : Sendable m attPayload) :
    fragment m attPayload = fragmentLoop m attPayload m.length true 0 := by
  obtain ⟨hpos, hmax, hroom⟩ := h
  have hne : m ≠ [] := List.length_pos_iff.mp hpos
  rw [fragment, if_neg (by simp [hne, hmax]), if_neg (by rw [firstHdr_length]; omega)]

/-- Reading the first header back gives the length it was built from. -/
theorem startOf_firstHdr {len : Nat} (hpos : 1 ≤ len) (hmax : len ≤ kMaxMessageLen)
    (body : Bytes) : startOf (firstHdr len ++ body) = some (len, body) := by
  have hmax' : len ≤ 65534 := hmax
  have hlow : len &&& 0xFF = len % 256 := Nat.and_two_pow_sub_one_eq_mod len 8
  have hhigh : len >>> 8 = len / 256 := Nat.shiftRight_eq_div_pow len 8
  unfold firstHdr
  split
  · next h =>
    have h' : len < 8191 := h
    have hbits : ∀ n < 32, (PacketHeader.ext13.value <<< 5) |||
        (n &&& kExt13Byte0Mask.toNat) = 32 + n := by decide
    rw [hlow, hhigh, hbits _ (by omega)]
    have h0 : (UInt8.ofNat (32 + len / 256)).toNat = 32 + len / 256 := by
      rw [UInt8.toNat_ofNat']
      omega
    have h1 : (UInt8.ofNat (len % 256)).toNat = len % 256 := by
      rw [UInt8.toNat_ofNat']
      omega
    have htype : (32 + len / 256) / 32 = 1 := by omega
    simp only [List.cons_append, List.nil_append, startOf, h0, h1, htype]
    rw [if_neg (by omega), declaring, if_neg (by omega)]
    congr 2
    omega
  · next h =>
    have h' : ¬len < 8191 := h
    have hmask : len / 256 &&& 0xFF = len / 256 := by
      rw [Nat.and_two_pow_sub_one_eq_mod _ 8]
      omega
    rw [hlow, hhigh, hmask]
    have h1 : (UInt8.ofNat (len / 256)).toNat = len / 256 := by
      rw [UInt8.toNat_ofNat']
      omega
    have h2 : (UInt8.ofNat (len % 256)).toNat = len % 256 := by
      rw [UInt8.toNat_ofNat']
      omega
    have h0 : (UInt8.ofNat (PacketHeader.ext16.value <<< 5)).toNat = 64 := rfl
    simp only [List.cons_append, List.nil_append, startOf, h0, h1, h2]
    rw [if_neg (by omega), declaring, if_neg (by omega)]
    congr 2
    omega

/-- A continuation packet of the sender: it fits, and carries a byte. -/
structure ContPacket (attPayload : Nat) (p : Bytes) : Prop where
  fits : p.length ≤ attPayload
  cont : contOf p = some p.tail
  carries : p.tail ≠ []

/-- The loop past the first packet: with room for a byte in each packet, it
emits the rest of the message in continuation packets. -/
theorem fragmentLoop_cont (data : Bytes) {attPayload : Nat}
    (hroom : 1 < attPayload) (fuel offset : Nat)
    (hfuel : data.length - offset ≤ fuel) :
    ((fragmentLoop data attPayload fuel false offset).map List.tail).flatten =
        data.drop offset ∧
      ∀ p ∈ fragmentLoop data attPayload fuel false offset,
        ContPacket attPayload p := by
  induction fuel generalizing offset with
  | zero => simp [fragmentLoop, List.drop_eq_nil_of_le (show data.length ≤ offset by omega)]
  | succ fuel ih =>
      by_cases hoff : offset < data.length
      · simp only [fragmentLoop, if_pos hoff, Bool.false_eq_true, if_false,
          List.length_singleton]
        have htake : 0 < min (attPayload - 1) (data.length - offset) := by omega
        obtain ⟨hrest, hpackets⟩ := ih
          (offset + min (attPayload - 1) (data.length - offset)) (by omega)
        constructor
        · rw [List.map_cons, List.flatten_cons, hrest, ← List.drop_drop]
          simp
        · intro p hp
          rw [List.mem_cons] at hp
          rcases hp with rfl | hp
          · refine ⟨?_, rfl, ?_⟩
            · simp only [List.singleton_append, List.length_cons, List.length_take,
                List.length_drop]
              omega
            · apply List.ne_nil_of_length_pos
              simp only [List.singleton_append, List.tail_cons, List.length_take,
                List.length_drop]
              omega
          · exact hpackets p hp
      · simp [fragmentLoop, if_neg hoff,
          List.drop_eq_nil_of_le (show data.length ≤ offset by omega)]

/-- Continuations that each carry a byte leave every proper prefix short. -/
theorem carried_take_lt {body : Bytes} {conts : List Bytes} {k : Nat}
    (hcarry : ∀ c ∈ conts, c.tail ≠ []) (hk : k < conts.length) :
    (carried body (conts.take k)).length < (carried body conts).length := by
  have hsplit : carried body conts =
      carried body (conts.take k) ++ ((conts.drop k).map List.tail).flatten := by
    rw [carried, carried, List.append_assoc, ← List.flatten_append,
      ← List.map_append, List.take_append_drop]
  obtain ⟨c, rest, hdrop⟩ : ∃ c rest, conts.drop k = c :: rest :=
    List.exists_cons_of_ne_nil (by simpa using hk)
  have hc : c.tail ≠ [] :=
    hcarry c (List.mem_of_mem_drop (hdrop ▸ List.mem_cons_self))
  have hpos : 0 < c.tail.length := List.length_pos_iff.mpr hc
  rw [hsplit, List.length_append, hdrop]
  simp only [List.map_cons, List.flatten_cons, List.length_append]
  omega

/-- What `fragment` emits is one well-framed run that carries the message,
every packet of it within the ATT payload and carrying a byte. -/
theorem fragment_framed {m : Bytes} {attPayload : Nat}
    (h : Sendable m attPayload) :
    ∃ start conts, fragment m attPayload = start :: conts ∧
      Framed start conts m.length m ∧
      ∀ p ∈ start :: conts, p.length ≤ attPayload ∧ payloadOf p ≠ [] := by
  rw [fragment_of_sendable h]
  obtain ⟨hpos, hmax, hroom⟩ := h
  rw [← firstHdr_length] at hroom
  have hhdr : 2 ≤ (firstHdr m.length).length := by
    rw [firstHdr_length]
    split <;> omega
  obtain ⟨fuel, hfuel⟩ := Nat.exists_eq_succ_of_ne_zero (show m.length ≠ 0 by omega)
  set take := min (attPayload - (firstHdr m.length).length) (m.length - 0) with htake
  have htakePos : 0 < take := by omega
  obtain ⟨hrest, hpackets⟩ := fragmentLoop_cont m
    (show 1 < attPayload by omega) fuel (0 + take) (by omega)
  set conts := fragmentLoop m attPayload fuel false (0 + take)
  have hloop : fragmentLoop m attPayload m.length true 0 =
      (firstHdr m.length ++ m.take take) :: conts := by
    conv_lhs => rw [hfuel, fragmentLoop]
    rw [if_pos (by omega)]
    rfl
  have hstart := startOf_firstHdr hpos hmax (m.take take)
  have hwhole : m = carried (m.take take) conts := by
    rw [carried, hrest, Nat.zero_add, List.take_append_drop]
  refine ⟨_, conts, hloop, ⟨⟨m.take take, hstart, hwhole, ?_⟩, ?_⟩, ?_⟩
  · intro k hk
    conv_rhs => rw [hwhole]
    exact carried_take_lt (fun c hc => (hpackets c hc).carries) hk
  · intro c hc
    rw [(hpackets c hc).cont]
    rfl
  · intro p hp
    rw [List.mem_cons] at hp
    rcases hp with rfl | hp
    · constructor
      · rw [List.length_append, List.length_take]
        omega
      · simp only [payloadOf, hstart]
        apply List.ne_nil_of_length_pos
        rw [List.length_take]
        omega
    · have hcont := (hpackets p hp).cont
      refine ⟨(hpackets p hp).fits, ?_⟩
      simp only [payloadOf, startOf_eq_none_of_contOf hcont, hcont]
      exact (hpackets p hp).carries

/-! ## The receiver -/

namespace Reassembler

/-- The continuations of a message in progress, up to the last one. -/
theorem feedAll_conts {a : Assembly} {conts : List Bytes}
    (hconts : ∀ c ∈ conts, (contOf c).isSome) (hne : conts ≠ [])
    (hshort : ∀ k < conts.length, (carried a.got (conts.take k)).length < a.declared)
    (hwhole : (carried a.got conts).length = a.declared) :
    ((ofReceiver (some a)).feedAll conts).1 =
        List.replicate (conts.length - 1) .needMore ++ [.complete] ∧
      ((ofReceiver (some a)).feedAll conts).2.take.1 = carried a.got conts := by
  induction conts generalizing a with
  | nil => exact absurd rfl hne
  | cons c cs ih =>
      obtain ⟨body, hc⟩ := Option.isSome_iff_exists.mp (hconts c (by simp))
      have hcarried : ∀ xs, carried a.got (c :: xs) = carried (a.got ++ body) xs := by
        intro xs
        simp [carried, tail_of_contOf hc]
      have hoffer : offer (some a) c = gather a.declared (a.got ++ body) := by
        simp [offer, startOf_eq_none_of_contOf hc, hc]
      have href := feed_refines (some a) c
      rw [hoffer] at href
      rw [hcarried] at hwhole
      cases cs with
      | nil =>
          rw [gather_eq_message_iff.mpr ⟨rfl, by simpa [carried] using hwhole⟩] at href
          simp only [feedAll, hcarried]
          exact ⟨by simp [href.1], by rw [href.2.1]; simp [carried]⟩
      | cons c' cs' =>
          have hlt : (a.got ++ body).length < a.declared := by
            have := hshort 1 (by simp)
            rw [List.take_succ_cons, hcarried] at this
            simpa [carried] using this
          have hmore : gather a.declared (a.got ++ body) = .more ⟨_, _, hlt⟩ := by
            rw [gather, dif_pos hlt]
          rw [hmore] at href
          have hfeed : (ofReceiver (some a)).feed c =
            (.needMore, ofReceiver (some ⟨a.declared, a.got ++ body, hlt⟩)) := href
          obtain ⟨hresults, htaken⟩ := ih (a := ⟨a.declared, a.got ++ body, hlt⟩)
            (fun x hx => hconts x (by simp [hx])) (by simp)
            (fun k hk => by
              have := hshort (k + 1) (by simpa using hk)
              rwa [List.take_succ_cons, hcarried] at this)
            hwhole
          rw [feedAll, hfeed, hcarried]
          refine ⟨?_, htaken⟩
          rw [hresults]
          simp [List.replicate_succ]

/-- A well-framed run is received from any state of the reassembler: every
packet but the last needs more, the last one completes, and `take` yields what
the run carries. -/
theorem feedAll_framed {start : Bytes} {conts : List Bytes} {m : Bytes}
    (h : Framed start conts m.length m) (r : Reassembler) :
    (r.feedAll (start :: conts)).1 =
        List.replicate conts.length .needMore ++ [.complete] ∧
      (r.feedAll (start :: conts)).2.take.1 = m := by
  obtain ⟨⟨body, hstart, hgot, hshort⟩, hconts⟩ := h
  rw [feedAll, feed_start hstart]
  rcases List.eq_nil_or_concat conts with rfl | ⟨_, _, hconcat⟩
  · have hbody : body = m := by simpa [carried] using hgot.symm
    subst hbody
    simp [settle, feedAll, take]
  · have hne : conts ≠ [] := by simp [hconcat]
    have hlt : body.length < m.length := by
      simpa [carried] using hshort 0 (List.length_pos_iff.mpr hne)
    have hsettle : settle m.length body =
        (.needMore, ofReceiver (some ⟨m.length, body, hlt⟩)) := by
      rw [settle, if_pos hlt]
      rfl
    obtain ⟨hresults, htaken⟩ := feedAll_conts (a := ⟨m.length, body, hlt⟩)
      hconts hne hshort (by rw [← hgot])
    rw [hsettle]
    refine ⟨?_, htaken.trans hgot.symm⟩
    have hlen : 0 < conts.length := List.length_pos_iff.mpr hne
    simp only [hresults]
    rw [← List.cons_append, ← List.replicate_succ, Nat.sub_add_cancel hlen]

/-- Taking after `complete` collects the one message of a run that completes
with its last packet only. -/
theorem receive_of_feedAll {ps : List Bytes} {r : Reassembler} {n : Nat}
    (h : (r.feedAll ps).1 = List.replicate n .needMore ++ [.complete]) :
    (r.receive ps).1 = [(r.feedAll ps).2.take.1] := by
  induction ps generalizing r n with
  | nil =>
      have := congrArg List.length h
      simp [feedAll] at this
  | cons p ps ih =>
      cases n with
      | zero =>
          simp only [feedAll, List.replicate_zero, List.nil_append, List.cons.injEq] at h
          have hps : ps = [] := by
            cases ps with
            | nil => rfl
            | cons q qs => simp [feedAll] at h
          subst hps
          simp [receive, feedTake, feedAll, h.1]
      | succ n =>
          simp only [feedAll, List.replicate_succ, List.cons_append,
            List.cons.injEq] at h
          have hne : (r.feed p).1 ≠ .complete := by simp [h.1]
          have htake : r.feedTake p = (none, (r.feed p).2) := by
            rw [feedTake, if_neg hne]
          rw [receive, htake]
          simpa [feedAll] using ih h.2

theorem receive_append (r : Reassembler) (ps qs : List Bytes) :
    (r.receive (ps ++ qs)).1 =
      (r.receive ps).1 ++ ((r.receive ps).2.receive qs).1 := by
  induction ps generalizing r with
  | nil => rfl
  | cons p ps ih =>
      rw [List.cons_append, receive, receive, ih]
      simp

/-- One more packet. -/
theorem receive_snoc (r : Reassembler) (ps : List Bytes) (p : Bytes) :
    (r.receive (ps ++ [p])).1 =
        (r.receive ps).1 ++ ((r.receive ps).2.feedTake p).1.toList ∧
      (r.receive (ps ++ [p])).2 = ((r.receive ps).2.feedTake p).2 := by
  induction ps generalizing r with
  | nil => simp [receive]
  | cons q ps ih =>
      obtain ⟨hmessages, hstate⟩ := ih (r.feedTake q).2
      rw [List.cons_append, receive, receive, hmessages, hstate, List.append_assoc]
      exact ⟨rfl, rfl⟩

end Reassembler

/-! ## The round trip -/

theorem receive_fragment {m : Bytes} {attPayload : Nat}
    (h : Sendable m attPayload) (r : Reassembler) :
    (r.receive (fragment m attPayload)).1 = [m] := by
  obtain ⟨start, conts, hfrag, hframed, -⟩ := fragment_framed h
  obtain ⟨hresults, htaken⟩ := Reassembler.feedAll_framed hframed r
  rw [hfrag, Reassembler.receive_of_feedAll hresults, htaken]

theorem receive_fragments (msgs : List (Bytes × Nat))
    (h : ∀ x ∈ msgs, Sendable x.1 x.2) (r : Reassembler) :
    (r.receive (msgs.flatMap fun x => fragment x.1 x.2)).1 = msgs.map Prod.fst := by
  induction msgs generalizing r with
  | nil => rfl
  | cons x xs ih =>
      rw [List.flatMap_cons, Reassembler.receive_append,
        receive_fragment (h x (by simp)), ih (fun y hy => h y (by simp [hy]))]
      rfl

/-- Framing round-trips from any state.  On its domain `fragment` emits a
nonempty list of packets that fit and carry a byte each, which any reassembler
turns back into the message with its last packet and not before; off its domain
it emits nothing.  So messages sent back to back, each with an ATT payload of
its own, are recovered one by one after any garbage. -/
theorem fragment_round_trip (m : Bytes) (attPayload : Nat) :
    (Sendable m attPayload →
      fragment m attPayload ≠ [] ∧
      (∀ p ∈ fragment m attPayload, p.length ≤ attPayload ∧ payloadOf p ≠ []) ∧
      ∀ r : Reassembler,
        (r.feedAll (fragment m attPayload)).1 =
          List.replicate ((fragment m attPayload).length - 1) .needMore ++
            [.complete] ∧
        (r.feedAll (fragment m attPayload)).2.take.1 = m) ∧
    (¬Sendable m attPayload → fragment m attPayload = []) ∧
    ∀ (r : Reassembler) (garbage : List Bytes) (msgs : List (Bytes × Nat)),
      (∀ x ∈ msgs, Sendable x.1 x.2) →
      (r.receive (garbage ++ msgs.flatMap fun x => fragment x.1 x.2)).1 =
        (r.receive garbage).1 ++ msgs.map Prod.fst := by
  refine ⟨?_, fragment_eq_nil_of_not_sendable, ?_⟩
  · intro hsend
    obtain ⟨start, conts, hfrag, hframed, hpackets⟩ := fragment_framed hsend
    rw [hfrag]
    exact ⟨by simp, hpackets, Reassembler.feedAll_framed hframed⟩
  · intro r garbage msgs hmsgs
    rw [Reassembler.receive_append, receive_fragments msgs hmsgs]

theorem fragment_round_trip_keep_alive :
    (fragment [91, 1, 66] 4 = [[0x20, 3, 91, 1], [0x80, 66]] ∧
      fragment [91, 1, 66] 4 ≠ []) ∧
    ((⟨[7], 2, 3, true⟩ : Reassembler).feedAll (fragment [91, 1, 66] 4)).2.take.1 =
      [91, 1, 66] ∧
    fragment [91, 1, 66] 2 = [] ∧
    (({} : Reassembler).receive ([[0x80, 1]] ++
      [([91, 1, 66], 4), ([5], 20)].flatMap fun x => fragment x.1 x.2)).1 =
        (({} : Reassembler).receive [[0x80, 1]]).1 ++ [[91, 1, 66], [5]] :=
  ⟨⟨by decide, ((fragment_round_trip [91, 1, 66] 4).1 (by decide)).1⟩,
    (((fragment_round_trip [91, 1, 66] 4).1 (by decide)).2.2 _).2,
    (fragment_round_trip [91, 1, 66] 2).2.1 (by decide),
    (fragment_round_trip [] 0).2.2 {} [[0x80, 1]] [([91, 1, 66], 4), ([5], 20)]
      (by decide)⟩

end GoproNative
