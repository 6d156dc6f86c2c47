import GoproNative.Camera.Phases
import GoproNative.Session.Wire
import Mathlib.Data.List.DropRight

/-!
# The MTUs of an attach

`_attach` folds the MTUs of the notify characteristics into one, and hands it to the
session less the overhead of ATT.  Zero stands for an MTU that is not known and for a fold
that has not begun, so a zero in the list begins the fold anew: what comes of it is the
least of the entries behind the last zero, and where that is the last entry the session
keeps the payload size it had.
-/

namespace GoproNative

/-! ## The fold -/

/-- The fold over the MTUs, in the order of the characteristics. -/
def foldMtu (mtus : List Nat) : Nat :=
  mtus.foldl (fun a b => if a = 0 ∨ b < a then b else a) 0

/-- The entries behind the last zero. -/
def behindZero (mtus : List Nat) : List Nat := mtus.rtakeWhile fun m => m ≠ 0

theorem foldMtu_snoc (mtus : List Nat) (m : Nat) :
    foldMtu (mtus ++ [m]) = if foldMtu mtus = 0 ∨ m < foldMtu mtus then m else foldMtu mtus := by
  rw [foldMtu, List.foldl_append]
  rfl

theorem behindZero_snoc (mtus : List Nat) (m : Nat) :
    behindZero (mtus ++ [m]) = if m = 0 then [] else behindZero mtus ++ [m] := by
  by_cases hm : m = 0
  · rw [behindZero, List.rtakeWhile_concat_neg _ _ _ (by simp [hm]), if_pos hm]
  · rw [behindZero, List.rtakeWhile_concat_pos _ _ _ (by simp [hm]), if_neg hm, behindZero]

theorem mem_of_mem_behindZero {mtus : List Nat} {m : Nat} (h : m ∈ behindZero mtus) :
    m ∈ mtus ∧ m ≠ 0 :=
  ⟨(List.rtakeWhile_suffix _ _).subset h, by simpa using List.mem_rtakeWhile_imp h⟩

/-- The fold gives the least entry behind the last zero, or zero if there is none. -/
theorem foldMtu_cases (mtus : List Nat) :
    (behindZero mtus = [] ∧ foldMtu mtus = 0) ∨
      (foldMtu mtus ∈ behindZero mtus ∧ ∀ t ∈ behindZero mtus, foldMtu mtus ≤ t) := by
  induction mtus using List.reverseRecOn with
  | nil => exact Or.inl ⟨rfl, rfl⟩
  | append_singleton mtus m ih =>
      rw [foldMtu_snoc, behindZero_snoc]
      by_cases hm : m = 0
      · left
        rw [if_pos hm]
        refine ⟨rfl, ?_⟩
        split
        · exact hm
        · next hkeep =>
            rw [not_or, hm, Nat.not_lt] at hkeep
            exact Nat.le_zero.mp (by omega)
      · right
        rw [if_neg hm]
        rcases ih with ⟨hnil, hzero⟩ | ⟨hmem, hleast⟩
        · rw [if_pos (Or.inl hzero), hnil]
          simp
        · have hpos : foldMtu mtus ≠ 0 := (mem_of_mem_behindZero hmem).2
          by_cases hless : m < foldMtu mtus
          · rw [if_pos (Or.inr hless)]
            refine ⟨by simp, ?_⟩
            intro t ht
            rcases List.mem_append.mp ht with ht | ht
            · exact (Nat.le_of_lt hless).trans (hleast t ht)
            · exact Nat.le_of_eq (List.mem_singleton.mp ht).symm
          · rw [if_neg (by simp [hpos, hless])]
            refine ⟨List.mem_append_left _ hmem, ?_⟩
            intro t ht
            rcases List.mem_append.mp ht with ht | ht
            · exact hleast t ht
            · rw [List.mem_singleton.mp ht]
              exact Nat.le_of_not_lt hless

/-! ## The payload of a session -/

namespace BleSession

/-- What `_attach` does to the session before it asks for the statuses. -/
def adoptMtus (s : BleSession) (mtus : List Nat) : BleSession :=
  if 3 < foldMtu mtus then s.setAttPayload (foldMtu mtus - 3).toUInt32.toNat else s

/-- The condition under which an attach leaves a payload size that every known MTU has
room for: an MTU in front of the last zero is not less than all of those behind it; and if
the last entry is a zero, the size in force before already fits. -/
def Respects (before : Nat) (mtus : List Nat) : Prop :=
  ∀ m ∈ mtus, m ≠ 0 →
    (∃ t ∈ behindZero mtus, t ≤ m) ∨ (behindZero mtus = [] ∧ before + 3 ≤ m)

instance (before : Nat) (mtus : List Nat) : Decidable (Respects before mtus) :=
  inferInstanceAs (Decidable (∀ m ∈ mtus, m ≠ 0 → _ ∨ _))

end BleSession

/-- The camera hands its session the MTUs in the order of the characteristics. -/
theorem Camera.bind_session (c : Camera) (a : Attached) (h : c.destroyed = false) :
    (c.bind a).session =
      c.session.adoptMtus (a.notifies.entries.reverse.map fun entry => entry.2.mtu) := by
  have hfold : leastMtu a.notifies =
      foldMtu (a.notifies.entries.reverse.map fun entry => entry.2.mtu) := rfl
  unfold bind BleSession.adoptMtus
  simp only [hfold]
  split
  · simp only [call, h, Bool.false_eq_true, if_false]
  · rfl

namespace BleSession

/-- What an attach leaves of the payload size, by the entries behind the last zero. -/
theorem adoptMtus_cases (s : BleSession) {mtus : List Nat}
    (hknown : ∀ m ∈ mtus, m = 0 ∨ 23 ≤ m) :
    (behindZero mtus = [] ∧ s.adoptMtus mtus = s) ∨
      ∃ t ∈ behindZero mtus, (∀ u ∈ behindZero mtus, t ≤ u) ∧ 23 ≤ t ∧
        ((t - 3 < 2 ^ 32 ∧ (s.adoptMtus mtus).cfg.attPayload = t - 3) ∨
          (2 ^ 32 ≤ t - 3 ∧ ((s.adoptMtus mtus).cfg.attPayload < 2 ^ 32 ∨
            s.adoptMtus mtus = s))) := by
  rcases foldMtu_cases mtus with ⟨hnil, hzero⟩ | ⟨hmem, hleast⟩
  · left
    rw [adoptMtus, hzero, if_neg (by decide)]
    exact ⟨hnil, rfl⟩
  · right
    obtain ⟨hin, hne⟩ := mem_of_mem_behindZero hmem
    have hmin : 23 ≤ foldMtu mtus := (hknown _ hin).resolve_left hne
    have hword : (foldMtu mtus - 3).toUInt32.toNat = (foldMtu mtus - 3) % 2 ^ 32 :=
      UInt32.toNat_ofNat'
    have hlow : kMinAttPayload = 20 := rfl
    refine ⟨_, hmem, hleast, hmin, ?_⟩
    rw [adoptMtus, if_pos (by omega), setAttPayload]
    by_cases hfits : foldMtu mtus - 3 < 2 ^ 32
    · left
      rw [Nat.mod_eq_of_lt hfits] at hword
      refine ⟨hfits, ?_⟩
      rw [if_pos (by omega)]
      exact hword
    · right
      refine ⟨Nat.le_of_not_lt hfits, ?_⟩
      split
      · exact Or.inl (hword ▸ Nat.mod_lt _ (by decide))
      · exact Or.inr rfl

/-- The condition is enough, ... -/
theorem Respects.fits {s : BleSession} {mtus : List Nat} (h : Respects s.cfg.attPayload mtus)
    (hknown : ∀ m ∈ mtus, m = 0 ∨ 23 ≤ m) (hword : s.cfg.attPayload < 2 ^ 32) :
    ∀ m ∈ mtus, m ≠ 0 → (s.adoptMtus mtus).cfg.attPayload + 3 ≤ m := by
  intro m hm hne
  rcases s.adoptMtus_cases hknown with ⟨hnil, hsame⟩ | ⟨t, ht, hleast, hmin, hsize⟩
  · rcases h m hm hne with ⟨u, hu, -⟩ | ⟨-, hroom⟩
    · exact absurd hu (by simp [hnil])
    · rw [hsame]
      exact hroom
  · rcases h m hm hne with ⟨u, hu, hle⟩ | ⟨hnil, -⟩
    · have htm : t ≤ m := (hleast u hu).trans hle
      rcases hsize with ⟨-, hsize⟩ | ⟨hwide, hsize | hsame⟩
      · omega
      · omega
      · rw [hsame]
        omega
    · exact absurd ht (by simp [hnil])

/-- ... and for MTUs that are 16-bit words it is needed. -/
theorem exists_of_not_respects {s : BleSession} {mtus : List Nat}
    (h : ¬Respects s.cfg.attPayload mtus) (hknown : ∀ m ∈ mtus, m = 0 ∨ 23 ≤ m)
    (hwords : ∀ m ∈ mtus, m < 2 ^ 16) :
    ∃ m ∈ mtus, m ≠ 0 ∧ m < (s.adoptMtus mtus).cfg.attPayload + 3 := by
  simp only [Respects, not_forall, not_or, not_exists, not_and, Nat.not_le] at h
  obtain ⟨m, hm, hne, hbehind, hbefore⟩ := h
  refine ⟨m, hm, hne, ?_⟩
  rcases s.adoptMtus_cases hknown with ⟨hnil, hsame⟩ | ⟨t, ht, -, hmin, hsize⟩
  · rw [hsame]
    exact hbefore hnil
  · have hmt : m < t := hbehind t ht
    have hsmall : t < 2 ^ 16 := hwords t (mem_of_mem_behindZero ht).1
    rcases hsize with ⟨-, hsize⟩ | ⟨hwide, -⟩
    · omega
    · omega

end BleSession

/-! ## Packets -/

theorem length_le_of_mem_fragment {m p : Bytes} {attPayload : Nat}
    (h : p ∈ fragment m attPayload) : p.length ≤ attPayload := by
  by_cases hsend : Sendable m attPayload
  · obtain ⟨start, conts, hfrag, -, hfits⟩ := fragment_framed hsend
    rw [hfrag] at h
    exact (hfits p h).1
  · rw [fragment_eq_nil_of_not_sendable hsend] at h
    exact absurd h List.not_mem_nil

/-- The first packet of a long message is full. -/
theorem exists_long_packet {attPayload k : Nat} (hmin : kMinAttPayload ≤ attPayload)
    (hpos : 0 < k) (hk : k ≤ attPayload) (hmax : k ≤ kMaxMessageLen) :
    ∃ p ∈ fragment (List.replicate k 0) attPayload, k ≤ p.length := by
  have hlow : kMinAttPayload = 20 := rfl
  have hhdr : (firstHdr k).length ≤ 3 := by
    rw [firstHdr_length]
    split <;> decide
  have hsend : Sendable (List.replicate k 0) attPayload := by
    rw [Sendable, List.length_replicate]
    refine ⟨hpos, hmax, ?_⟩
    split <;> omega
  obtain ⟨fuel, rfl⟩ := Nat.exists_eq_succ_of_ne_zero (Nat.pos_iff_ne_zero.mp hpos)
  rw [fragment_of_sendable hsend, List.length_replicate, fragmentLoop,
    if_pos (by rw [List.length_replicate]; exact hpos)]
  refine ⟨_, List.mem_cons_self, ?_⟩
  simp only [if_true, List.length_append, List.length_take, List.length_drop,
    List.length_replicate, Nat.sub_zero]
  omega

/-! ## Runs -/

/-- A session under its owner, with the MTUs of the latest attach. -/
structure Bound where
  session : BleSession
  mtus : List Nat := []

inductive BoundOp
  | attach (mtus : List Nat)
  /-- Any other call.  Nothing but an attach sets the payload size. -/
  | call (op : SessionOp)

/-- Every packet that is written has room under each MTU that is known. -/
def FitsMtus (mtus : List Nat) (evs : List SessionEvent) : Prop :=
  ∀ e channel packets, .write e channel packets ∈ evs →
    ∀ p ∈ packets, ∀ m ∈ mtus, m ≠ 0 → p.length + 3 ≤ m

namespace Bound

def attach (b : Bound) (mtus : List Nat) : Bound := ⟨b.session.adoptMtus mtus, mtus⟩

def next (b : Bound) : BoundOp → Option (Bound × List SessionEvent)
  | .attach mtus => some (b.attach mtus, [])
  | .call (.setAttPayload _) => none
  | .call op =>
      some ({ b with session := (b.session.perform op).session },
        (b.session.perform op).events)

/-- All runs of a session from its creation by the bridge on. -/
def lts : Lts Bound (BoundOp × List SessionEvent) :=
  .ofGuarded (fun b => ∃ cfg : SessionConfig, cfg.attPayload = kMinAttPayload ∧
    b = { session := .new cfg }) next

/-- Whatever commands are dispatched before the next attach, their packets fit. -/
def FitsUntilAttach (b : Bound) : Prop :=
  ∀ labels t, lts.Run b labels t → (∀ label ∈ labels, ∃ op, label.1 = .call op) →
    ∀ label ∈ labels, FitsMtus b.mtus label.2

variable {b : Bound}

theorem next_call {op : SessionOp} {r : Bound × List SessionEvent}
    (h : b.next (.call op) = some r) :
    (∀ bytes, op ≠ .setAttPayload bytes) ∧
      r = ({ b with session := (b.session.perform op).session },
        (b.session.perform op).events) := by
  rcases op with _ | _ | _ | _ | bytes | _
  case setAttPayload => simp [next] at h
  all_goals
    refine ⟨by simp, ?_⟩
    exact (Option.some.inj h).symm

/-- The payload size stays a word that the protocol allows. -/
theorem payload_bounds (h : lts.Reachable b) :
    kMinAttPayload ≤ b.session.cfg.attPayload ∧ b.session.cfg.attPayload < 2 ^ 32 := by
  refine h.invariant (I := fun b => kMinAttPayload ≤ b.session.cfg.attPayload ∧
    b.session.cfg.attPayload < 2 ^ 32) ?_ ?_
  · rintro b ⟨cfg, hcfg, rfl⟩
    have hnew : (BleSession.new cfg).cfg.attPayload = kMinAttPayload := hcfg
    rw [hnew]
    decide
  · rintro b ⟨op, evs⟩ t - hb hstep
    have hnext : b.next op = some (t, evs) := hstep
    rcases op with mtus | op
    · obtain ⟨rfl, -⟩ := Prod.mk.inj (Option.some.inj hnext)
      unfold attach BleSession.adoptMtus BleSession.setAttPayload
      simp only
      split
      · split
        · next hlow => exact ⟨hlow, UInt32.toNat_lt _⟩
        · exact hb
      · exact hb
    · obtain ⟨hop, heq⟩ := next_call hnext
      obtain ⟨rfl, -⟩ := Prod.mk.inj heq
      change kMinAttPayload ≤ (b.session.perform op).session.cfg.attPayload ∧
        (b.session.perform op).session.cfg.attPayload < 2 ^ 32
      rw [b.session.perform_cfg hop]
      exact hb

/-- Calls write within the payload size, and leave it. -/
theorem fits_of_payload (h : ∀ m ∈ b.mtus, m ≠ 0 → b.session.cfg.attPayload + 3 ≤ m) :
    b.FitsUntilAttach := by
  intro labels t hrun hcalls
  have hrestricted := hrun.restrict (P := fun _ label => ∃ op, label.1 = .call op)
    fun label hlabel _ => hcalls label hlabel
  refine (hrestricted.labels (I := fun u => u.session.cfg = b.session.cfg)
    (Q := fun label => FitsMtus b.mtus label.2) rfl ?_).2
  rintro u ⟨op, evs⟩ v hcfg ⟨hstep, call, rfl⟩
  obtain ⟨hop, heq⟩ := next_call hstep
  obtain ⟨rfl, rfl⟩ := Prod.mk.inj heq
  refine ⟨(u.session.perform_cfg hop).trans hcfg, ?_⟩
  intro e channel packets hwrite p hp m hm hne
  obtain ⟨-, -, rfl⟩ := (u.session.flies_perform call).written e channel packets hwrite
  rw [hcfg] at hp
  exact (Nat.add_le_add_right (length_le_of_mem_fragment hp) 3).trans (h m hm hne)

/-- A command on an idle session is dispatched at once. -/
theorem payload_of_fits (h : b.FitsUntilAttach)
    (hmin : kMinAttPayload ≤ b.session.cfg.attPayload) {m : Nat} (hm : m ∈ b.mtus)
    (hlow : 23 ≤ m) (hword : m < 2 ^ 16) : b.session.cfg.attPayload + 3 ≤ m := by
  by_contra hover
  have hmax : kMaxMessageLen = 65534 := rfl
  obtain ⟨p, hp, hlong⟩ := exists_long_packet (k := m - 2) hmin (by omega) (by omega) (by omega)
  -- cancel what is outstanding, and send a message that fills a packet
  let idle : Bound := { b with session := b.session.onDisconnect.session }
  let body : Bytes := List.replicate (m - 3) 0
  let op : SessionOp := .submit .command (0 :: body) .fastpass 0
  have hrun : lts.Run b [(.call .onDisconnect, _), (.call op, (idle.session.perform op).events)] _ :=
    .cons (t := idle) rfl (.single rfl)
  have hwrite : (idle.session.perform op).events =
      [.write ⟨correlationOf .command 0, 0 :: body, .fastpass,
          ⟨correlationOf .command 0, idle.session.submissions, false⟩, 0, 0⟩
        (channelOfCorrelation (correlationOf .command 0))
        (fragment (0 :: body) b.session.cfg.attPayload)] := rfl
  have hbody : List.replicate (m - 2) (0 : UInt8) = 0 :: body := by
    rw [show m - 2 = (m - 3) + 1 by omega, List.replicate_succ]
  have hfits := h _ _ hrun (by simp) _ (List.mem_cons_of_mem _ List.mem_cons_self) _ _ _
    (hwrite ▸ List.mem_singleton.mpr rfl) p (hbody ▸ hp) m hm (by omega)
  omega

end Bound

/-- When emitted packets fit.  Take any run of a session, and attach with any MTUs that
are known or zero.  If an MTU in front of the last zero is never less than all of those
behind it, and the size in force before fits where the last entry is a zero, then every
packet of every command dispatched up to the next attach has room under each MTU that is
known.  For MTUs that are 16-bit words, which BlueZ's are, the condition is needed too. -/
theorem packets_fit_iff {b : Bound} (hreach : Bound.lts.Reachable b) {mtus : List Nat}
    (hknown : ∀ m ∈ mtus, m = 0 ∨ 23 ≤ m) :
    (BleSession.Respects b.session.cfg.attPayload mtus → (b.attach mtus).FitsUntilAttach) ∧
    ((∀ m ∈ mtus, m < 2 ^ 16) → (b.attach mtus).FitsUntilAttach →
      BleSession.Respects b.session.cfg.attPayload mtus) := by
  have hbounds := Bound.payload_bounds hreach
  refine ⟨?_, ?_⟩
  · intro hrespects
    exact Bound.fits_of_payload (hrespects.fits hknown hbounds.2)
  · intro hwords hfits
    by_contra hnot
    obtain ⟨m, hm, hne, hover⟩ := BleSession.exists_of_not_respects hnot hknown hwords
    have hafter : Bound.lts.Reachable (b.attach mtus) :=
      hreach.step (a := (.attach mtus, [])) rfl
    have hroom := Bound.payload_of_fits hfits (Bound.payload_bounds hafter).1 hm
      ((hknown m hm).resolve_left hne) (hwords m hm)
    exact absurd hover (Nat.not_lt.mpr hroom)

/-- What the three required characteristics of a camera report, when it is bound. -/
theorem packets_fit_iff_max2 :
    let c : Camera :=
    { device := plainCamera.device, session := .new {}, reconnectTimeoutMs := 0 }
    (⟨(c.bind plainCamera).session, [517, 517, 517]⟩ : Bound).FitsUntilAttach := by
  intro c
  have hstart : Bound.lts.start ⟨.new {}, []⟩ := ⟨{}, rfl, rfl⟩
  have hmtus : (plainCamera.notifies.entries.reverse.map fun entry => entry.2.mtu) =
      [517, 517, 517] := rfl
  rw [c.bind_session plainCamera rfl, hmtus]
  exact (packets_fit_iff (.of_start hstart) (by decide)).1 (by decide)

/-- An MTU in front of one that is not known is forgotten. -/
theorem packets_exceed_mtu :
    ¬∀ b, Bound.lts.Reachable b → ∀ mtus : List Nat, (∀ m ∈ mtus, m = 0 ∨ 23 ≤ m) →
      (b.attach mtus).FitsUntilAttach := by
  intro h
  have hstart : Bound.lts.start ⟨.new {}, []⟩ := ⟨{}, rfl, rfl⟩
  have hfits := h _ (.of_start hstart) [23, 0, 517] (by decide)
  have hroom := Bound.payload_of_fits hfits (by decide) (m := 23) (by decide) (by decide)
    (by decide)
  exact absurd hroom (by decide)

end GoproNative
