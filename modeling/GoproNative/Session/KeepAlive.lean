import GoproNative.Session.Invariant
import GoproNative.Framing.RoundTrip

/-!
# Keep-alive

A due tick first sweeps the queue's deadlines and then submits a keep-alive, which
the queue writes at once unless its id is taken.  The id is that of any command
on the settings characteristic that begins with the same byte, so a command of
the caller that survives the sweep takes it and the keep-alive is refused.
-/

namespace GoproNative

/-! ## On the wire -/

/-- The packets written to a characteristic. -/
def writesOn (channel : UInt8) (evs : List SessionEvent) : List Bytes :=
  evs.flatMap fun ev =>
    match ev with
    | .write _ ch packets => if ch = channel then packets else []
    | _ => []

theorem infix_writesOn {channel : UInt8} {evs : List SessionEvent}
    {e : Entry Submission} {packets : List Bytes}
    (h : .write e channel packets ∈ evs) : packets <:+: writesOn channel evs := by
  obtain ⟨before, after, rfl⟩ := List.append_of_mem h
  refine ⟨writesOn channel before, writesOn channel after, ?_⟩
  simp [writesOn, List.flatMap_cons]

/-- Every write carries the packets of its command. -/
def Fragmented (attPayload : Nat) (evs : List SessionEvent) : Prop :=
  ∀ e channel packets, .write e channel packets ∈ evs →
    packets = fragment e.payload attPayload

/-- A receiver on a characteristic is handed the payloads of the commands written to
it, and nothing else. -/
theorem receive_writesOn {attPayload : Nat} {evs : List SessionEvent}
    (h : Fragmented attPayload evs) (channel : UInt8) (r : Reassembler) {m : Bytes}
    (hm : m ∈ (r.receive (writesOn channel evs)).1) :
    ∃ e packets, .write e channel packets ∈ evs ∧ e.payload = m := by
  induction evs generalizing r with
  | nil => simp [writesOn, Reassembler.receive] at hm
  | cons ev evs ih =>
      have hrest : Fragmented attPayload evs :=
        fun e ch packets hmem => h e ch packets (List.mem_cons_of_mem _ hmem)
      rw [writesOn, List.flatMap_cons, Reassembler.receive_append, List.mem_append] at hm
      rcases hm with hm | hm
      · cases ev with
        | write e ch packets =>
            simp only at hm
            split at hm
            · next hch =>
              subst hch
              rw [h e ch packets List.mem_cons_self] at hm
              by_cases hsend : Sendable e.payload attPayload
              · rw [receive_fragment hsend, List.mem_singleton] at hm
                exact ⟨e, packets, List.mem_cons_self, hm.symm⟩
              · rw [fragment_eq_nil_of_not_sendable hsend] at hm
                simp [Reassembler.receive] at hm
            · simp [Reassembler.receive] at hm
        | _ => simp [Reassembler.receive] at hm
      · obtain ⟨e, packets, hmem, hpayload⟩ := ih hrest _ hm
        exact ⟨e, packets, List.mem_cons_of_mem _ hmem, hpayload⟩

/-- The packets of a message stand on a characteristic exactly when a command with
that payload was written there. -/
theorem infix_writesOn_iff {attPayload : Nat} {evs : List SessionEvent}
    (h : Fragmented attPayload evs) (channel : UInt8) {m : Bytes}
    (hsend : Sendable m attPayload) :
    fragment m attPayload <:+: writesOn channel evs ↔
      ∃ e packets, .write e channel packets ∈ evs ∧ e.payload = m := by
  constructor
  · rintro ⟨before, after, heq⟩
    refine receive_writesOn h channel {} ?_
    rw [← heq, Reassembler.receive_append, Reassembler.receive_append,
      receive_fragment hsend]
    simp
  · rintro ⟨e, packets, hmem, rfl⟩
    rw [← h e channel packets hmem]
    exact infix_writesOn hmem

theorem sendable_keepAlive_iff {attPayload : Nat} :
    Sendable keepAlivePayload attPayload ↔ 2 < attPayload := by
  simp [Sendable, keepAlivePayload, kMaxMessageLen]

theorem fragment_keepAlive_ne_nil {attPayload : Nat} (h : 2 < attPayload) :
    fragment keepAlivePayload attPayload ≠ [] := by
  intro hnil
  have hreceived := receive_fragment (sendable_keepAlive_iff.mpr h) {}
  simp [hnil, Reassembler.receive] at hreceived

namespace BleSession

variable {s : BleSession} {nowMs : UInt64}

/-! ## A due tick -/

/-- The keep-alive frame is written on the settings characteristic during the tick,
or an earlier keep-alive of `tick` stays in flight. -/
def KeptAlive (s : BleSession) (nowMs : UInt64) : Prop :=
  (fragment keepAlivePayload s.cfg.attPayload ≠ [] ∧
    fragment keepAlivePayload s.cfg.attPayload <:+:
      writesOn Channel.settings.value (s.tick nowMs).events) ∨
  ∃ e ∈ s.queue.inFlight, e.done.byTick = true ∧
    e ∈ (s.tick nowMs).session.queue.inFlight

/-- The state a due tick needs: an earlier keep-alive in flight and within its
deadline, or room for a packet and either no command under the keep-alive's id
that survives the sweep, or a waiting command that the sweep releases and that is
a keep-alive frame itself. -/
def Unobstructed (s : BleSession) (nowMs : UInt64) : Prop :=
  (∃ e ∈ (s.queue.sweep nowMs).inFlight, e.done.byTick = true) ∨
  2 < s.cfg.attPayload ∧
    (keepAliveId ∉ (s.queue.sweep nowMs).outstanding.map Entry.id ∨
      ∃ e, (s.queue.sweep nowMs).released = some e ∧
        channelOfCorrelation e.id = Channel.settings.value ∧
        e.payload = keepAlivePayload)

theorem callQueue_fragmented (s : BleSession) (a : Activation Submission) :
    Fragmented s.cfg.attPayload (s.callQueue a).events :=
  fun _ _ _ hmem => (write_mem_callQueue.mp hmem).2.2

theorem tick_fragmented (h : s.Due nowMs) :
    Fragmented s.cfg.attPayload (s.tick nowMs).events := by
  intro e channel packets hmem
  rw [(tick_of_due h).2, List.mem_append] at hmem
  rcases hmem with hmem | hmem
  · exact callQueue_fragmented _ _ e channel packets hmem
  · exact callQueue_fragmented _ _ e channel packets hmem

theorem mem_anchored_ids {id : CorrelationId} :
    id ∈ (s.anchored nowMs).queue.outstanding.map Entry.id ↔
      id ∈ (s.queue.sweep nowMs).outstanding.map Entry.id :=
  (CommandQueue.pump_outstanding (fun e => e.sent_id nowMs) (s.queue.sweep nowMs)).mem_iff

/-- What the sweep keeps in flight, the tick keeps in flight. -/
theorem tick_keeps_inFlight (h : s.Due nowMs) :
    ∀ e ∈ (s.queue.sweep nowMs).inFlight, e ∈ (s.tick nowMs).session.queue.inFlight := by
  intro e he
  rw [(tick_of_due h).1]
  exact CommandQueue.submit_keeps_inFlight _ _ _ _ _ _ e
    (CommandQueue.pump_keeps_inFlight _ nowMs e he)

/-- An earlier keep-alive that is still in flight was within its deadline: the tick
puts nothing into flight under an old number. -/
theorem survives_of_inFlight (hs : s.Sound) (h : s.Due nowMs) {e : Entry Submission}
    (hbefore : e ∈ s.queue.inFlight) (htick : e.done.byTick = true)
    (hafter : e ∈ (s.tick nowMs).session.queue.inFlight) :
    ∃ e' ∈ (s.queue.sweep nowMs).inFlight, e'.done.byTick = true := by
  obtain ⟨-, hnumber, hkeepAlive⟩ := hs.attributed e (List.mem_append_right _ hbefore)
  rw [(tick_of_due h).1] at hafter
  have hmem := CommandQueue.run_outstanding (f := Entry.done) (fun _ _ => rfl)
    (s.anchored nowMs).queue ⟨keepAliveId, (s.anchored nowMs).submissions, true⟩
    (.submit keepAliveId keepAlivePayload .keepAlive nowMs) e.done
    (List.mem_map_of_mem (List.mem_append_right _ hafter))
  rcases hmem with hold | ⟨id, payload, priority, t, hop, hdone⟩
  · have hswept := (CommandQueue.pump_outstanding (fun e => e.sent_done nowMs)
      (s.queue.sweep nowMs)).mem_iff.mp hold
    obtain ⟨e', he', hsame⟩ := List.mem_map.mp hswept
    rcases List.mem_append.mp he' with hpending | hinFlight
    · have hwaits : e' ∈ s.queue.pending := List.mem_of_mem_filter hpending
      have hordinary := hs.settled.ordinary hs.single e' hwaits
      obtain ⟨-, -, hprio⟩ := hs.attributed e' (List.mem_append_left _ hwaits)
      simp [(hprio (by rw [hsame, htick])).2] at hordinary
    · exact ⟨e', hinFlight, by rw [hsame, htick]⟩
  · have hnew : e.done.number = s.submissions := by rw [hdone]; rfl
    omega

/-- Keep-alive is sent on every due tick that is unobstructed, and on no other: a
command of the caller that survives the sweep under the keep-alive's id starves
it, and so does an ATT payload too small for the frame. -/
theorem keptAlive_iff {s : BleSession} (h : lts.Reachable s) {nowMs : UInt64}
    (hdue : s.Due nowMs) : s.KeptAlive nowMs ↔ s.Unobstructed nowMs := by
  have hs := sound h
  have hsweep := hs.single.sweep nowMs
  have hordinary : ∀ e ∈ (s.queue.sweep nowMs).pending, e.priority = .queued :=
    fun e he => hs.settled.ordinary hs.single e (List.mem_of_mem_filter he)
  have hframe := fun hroom : 2 < s.cfg.attPayload =>
    infix_writesOn_iff (tick_fragmented hdue) Channel.settings.value
      (sendable_keepAlive_iff.mpr hroom)
  constructor
  · rintro (⟨hroom, hinfix⟩ | ⟨e, hbefore, htick, hafter⟩)
    · have hroom' : 2 < s.cfg.attPayload := by
        by_contra hsmall
        exact hroom (fragment_eq_nil_of_not_sendable (sendable_keepAlive_iff.not.mpr hsmall))
      refine Or.inr ⟨hroom', ?_⟩
      by_cases hfree : keepAliveId ∈ (s.queue.sweep nowMs).outstanding.map Entry.id
      · -- The submission is refused, so the frame is a command the sweep released.
        right
        obtain ⟨e, packets, hmem, hpayload⟩ := (hframe hroom').mp hinfix
        rw [(tick_of_due hdue).2, List.mem_append] at hmem
        rcases hmem with hmem | hmem
        · obtain ⟨⟨q, hwrote⟩, hchannel, -⟩ := write_mem_callQueue.mp hmem
          rw [(s.queue.tick_run nowMs).2] at hwrote
          rcases CommandQueue.pump_of_ordinary nowMs hsweep.ids hordinary with
            ⟨-, hpump⟩ | ⟨f, fs, hreleased, -, hpump⟩
          · simp [hpump] at hwrote
          · simp only [hpump, List.mem_singleton, QueueEvent.wrote.injEq] at hwrote
            obtain ⟨rfl, -⟩ := hwrote
            exact ⟨f, hreleased, hchannel.symm, hpayload⟩
        · obtain ⟨⟨q, hwrote⟩, -, -⟩ := write_mem_callQueue.mp hmem
          rw [CommandQueue.submit_duplicate_silent (mem_anchored_ids.mpr hfree)] at hwrote
          simp at hwrote
      · exact Or.inl hfree
    · exact Or.inl (survives_of_inFlight hs hdue hbefore htick hafter)
  · rintro (⟨e, hinFlight, htick⟩ | ⟨hroom, hfree | ⟨f, hreleased, hchannel, hpayload⟩⟩)
    · exact Or.inr ⟨e, List.mem_of_mem_filter hinFlight, htick,
        tick_keeps_inFlight hdue e hinFlight⟩
    · refine Or.inl ⟨fragment_keepAlive_ne_nil hroom, (hframe hroom).mpr ?_⟩
      obtain ⟨e, q, hwrote, hid, hpayload⟩ := CommandQueue.submit_keepAlive_wrote
        (mem_anchored_ids.not.mpr hfree) keepAlivePayload
        ⟨keepAliveId, (s.anchored nowMs).submissions, true⟩ nowMs
      refine ⟨e, fragment e.payload s.cfg.attPayload, ?_, hpayload⟩
      rw [(tick_of_due hdue).2]
      refine List.mem_append_right _ (write_mem_callQueue.mpr ⟨⟨q, hwrote⟩, ?_, rfl⟩)
      rw [hid]
      rfl
    · refine Or.inl ⟨fragment_keepAlive_ne_nil hroom, (hframe hroom).mpr ?_⟩
      rcases CommandQueue.pump_of_ordinary nowMs hsweep.ids hordinary with
        ⟨hnone, -⟩ | ⟨e, es, hsome, -, hpump⟩
      · simp [hnone] at hreleased
      · obtain rfl : e = f := Option.some.inj (hsome.symm.trans hreleased)
        have hwrote : ∃ q, .wrote (e.sent nowMs) q ∈
            ((s.queue.sweep nowMs).pump nowMs).2 := by
          rw [hpump]
          exact ⟨_, List.mem_singleton.mpr rfl⟩
        obtain ⟨q, hwrote⟩ := hwrote
        refine ⟨e.sent nowMs, fragment e.payload s.cfg.attPayload, ?_, hpayload⟩
        rw [(tick_of_due hdue).2]
        exact List.mem_append_left _ (write_mem_callQueue.mpr
          ⟨⟨q, ((s.queue.tick_run nowMs).2 _ _).mpr hwrote⟩, hchannel.symm, rfl⟩)

/-- Commands of the caller that wait behind the shut gate, and one in flight, leave the
keep-alive alone. -/
theorem keptAlive_iff_waiting :
    let s := (Lts.play next (new {}) [.tick 0, .submit .command [1, 1, 1] .queued 10,
      .submit .settings [2, 1, 9] .queued 20, .submit .query [0x13, 8, 10] .fastpass 30]).1
    s.queue.pending.map Entry.id = [0x001, 0x102] ∧ s.queue.inFlight.map Entry.id = [0x213] ∧
      s.KeptAlive 3000 := by
  intro s
  have hreach : lts.Reachable s := Lts.reachable_of_play ⟨{}, rfl⟩ _
  have hdue : s.Due 3000 := ⟨rfl, by decide⟩
  refine ⟨by decide, by decide, (keptAlive_iff hreach hdue).mpr ?_⟩
  exact Or.inr ⟨by decide, Or.inl (by decide)⟩

/-- A command of the caller on the settings characteristic that begins with the
keep-alive's byte, waiting behind the shut gate, starves the keep-alive. -/
theorem starved_keepAlive :
    ¬∀ s, lts.Reachable s → ∀ nowMs, s.Due nowMs → s.KeptAlive nowMs := by
  intro h
  let s := (Lts.play next (new {}) [.tick 0, .submit .settings [91, 1, 2] .queued 10]).1
  have hsilent : writesOn Channel.settings.value (s.tick 3000).events = [] := by decide
  have hnone : s.queue.inFlight = [] := rfl
  rcases h s (Lts.reachable_of_play ⟨{}, rfl⟩ _) 3000 ⟨rfl, by decide⟩ with
    ⟨hframe, hinfix⟩ | ⟨e, he, -⟩
  · rw [hsilent, List.infix_nil] at hinfix
    exact hframe hinfix
  · simp [hnone] at he

end BleSession

end GoproNative
