import GoproNative.Support.Transition
import GoproNative.Usb.Definitions

/-!
# What a readiness sample reflects

A sample climbs the stages with the interface that is bound under the device now.  Where
none is bound it keeps the name it had, and climbs with that: an interface that is gone
still counts as bound, and if another device was given its name, still as addressed.
-/

namespace GoproNative

namespace Usb

/-! ## The stages in a snapshot -/

/-- A stage by itself, for a device with this entry and this address. -/
def Readiness.Holds (env : Snapshot) (name ip : Bytes) (probePort : UInt16) :
    Readiness → Prop
  | absent => True
  | usbPresent => env.present name = true
  | netdevBound => env.findNetdev name ≠ []
  | hostAddressed => env.hostIpv4 (env.findNetdev name) ≠ []
  | l3Ready => probePort ≠ 0 ∧ ip ≠ [] ∧ env.probeTcp ip probePort = true

/-- A stage holds, and so does every earlier one. -/
def Readiness.Reached (env : Snapshot) (name ip : Bytes) (probePort : UInt16)
    (r : Readiness) : Prop :=
  ∀ r' : Readiness, r'.value ≤ r.value → r'.Holds env name ip probePort

/-- The highest stage that is reached in a snapshot. -/
structure Readiness.Reflects (env : Snapshot) (name ip : Bytes) (probePort : UInt16)
    (r : Readiness) : Prop where
  reached : r.Reached env name ip probePort
  highest : ∀ r' : Readiness, r'.Reached env name ip probePort → r'.value ≤ r.value

/-- How far a snapshot lets a device climb with the interface `netdev`. -/
def Snapshot.climb (env : Snapshot) (name ip : Bytes) (probePort : UInt16)
    (netdev : Bytes) : Readiness :=
  if env.present name = false then .absent
  else if netdev = [] then .usbPresent
  else if env.hostIpv4 netdev = [] then .netdevBound
  else if probePort = 0 ∨ ip = [] ∨ env.probeTcp ip probePort = false then .hostAddressed
  else .l3Ready

section Stages

variable {env : Snapshot} {name ip : Bytes} {probePort : UInt16} {r r' : Readiness}

theorem Readiness.value_injective : Function.Injective Readiness.value := by
  rintro (_ | _ | _ | _ | _) (_ | _ | _ | _ | _) h
  all_goals first | rfl | exact absurd h (by decide)

theorem Readiness.Reflects.unique (h : r.Reflects env name ip probePort)
    (h' : r'.Reflects env name ip probePort) : r = r' := by
  apply Readiness.value_injective
  exact UInt8.le_antisymm (h'.highest r h.reached) (h.highest r' h'.reached)

theorem Readiness.forall_iff {P : Readiness → Prop} :
    (∀ r, P r) ↔ P absent ∧ P usbPresent ∧ P netdevBound ∧ P hostAddressed ∧ P l3Ready := by
  refine ⟨fun h => ⟨h _, h _, h _, h _, h _⟩, ?_⟩
  rintro ⟨h₀, h₁, h₂, h₃, h₄⟩ (_ | _ | _ | _ | _)
  · exact h₀
  · exact h₁
  · exact h₂
  · exact h₃
  · exact h₄

/-- Climbing with the interface that is bound now reflects the snapshot. -/
theorem reflects_climb :
    (env.climb name ip probePort (env.findNetdev name)).Reflects env name ip probePort := by
  by_cases hpresent : env.present name = true
  · by_cases hbound : env.findNetdev name = []
    · constructor <;>
        simp [Readiness.Reached, Readiness.forall_iff, Readiness.Holds, Readiness.value,
          Snapshot.climb, hpresent, hbound]
    · by_cases haddressed : env.hostIpv4 (env.findNetdev name) = []
      · constructor <;>
          simp [Readiness.Reached, Readiness.forall_iff, Readiness.Holds, Readiness.value,
            Snapshot.climb, hpresent, hbound, haddressed]
      · by_cases hprobe : probePort ≠ 0 ∧ ip ≠ [] ∧ env.probeTcp ip probePort = true
        · constructor <;>
            simp [Readiness.Reached, Readiness.forall_iff, Readiness.Holds, Readiness.value,
              Snapshot.climb, hpresent, hbound, haddressed, hprobe]
        · have hshort : probePort = 0 ∨ ip = [] ∨ env.probeTcp ip probePort = false := by
            by_contra hall
            simp only [not_or, Bool.not_eq_false] at hall
            exact hprobe hall
          constructor <;>
            simp [Readiness.Reached, Readiness.forall_iff, Readiness.Holds, Readiness.value,
              Snapshot.climb, hpresent, hbound, haddressed, hprobe, hshort]
  · constructor <;>
      simp [Readiness.Reached, Readiness.forall_iff, Readiness.Holds, Readiness.value,
        Snapshot.climb, hpresent]

theorem reflects_iff :
    r.Reflects env name ip probePort ↔
      r = env.climb name ip probePort (env.findNetdev name) := by
  constructor
  · intro h
    exact h.unique reflects_climb
  · rintro rfl
    exact reflects_climb

theorem climb_of_absent (h : env.present name = false) (netdev : Bytes) :
    env.climb name ip probePort netdev = .absent := if_pos h

/-- A device that is present stops at its first stage exactly without an interface. -/
theorem climb_eq_usbPresent_iff (h : env.present name = true) {netdev : Bytes} :
    env.climb name ip probePort netdev = .usbPresent ↔ netdev = [] := by
  by_cases hnetdev : netdev = []
  · simp [Snapshot.climb, h, hnetdev]
  · simp only [Snapshot.climb, h, Bool.true_eq_false, if_false, hnetdev, iff_false]
    split
    · simp
    · split <;> simp

end Stages

/-! ## One sample -/

namespace Camera

/-- What `resolve_netdev` changes: the name, and two diagnostics. -/
theorem resolveNetdev_eq (c : Camera) (now : Bytes) :
    ∃ firstSeen renamed, c.resolveNetdev now =
      { c with
        netdev := if now = [] then c.netdev else now
        netdevFirstSeen := firstSeen
        netdevRenamed := renamed } := by
  by_cases hnow : now = []
  · exact ⟨c.netdevFirstSeen, c.netdevRenamed, by simp only [resolveNetdev, hnow, if_true]⟩
  · simp only [resolveNetdev, hnow, if_false]
    by_cases hfirst : c.netdevFirstSeen = []
    · exact ⟨now, c.netdevRenamed, by rw [if_pos hfirst]⟩
    · by_cases hsame : c.netdevFirstSeen = now
      · exact ⟨c.netdevFirstSeen, c.netdevRenamed,
          by rw [if_neg hfirst, if_neg (not_not_intro hsame)]⟩
      · exact ⟨c.netdevFirstSeen, true, by rw [if_neg hfirst, if_pos hsame]⟩

/-- The interface a sample climbs with: the one that is bound now, or else the one the
record kept. -/
def climbsWith (c : Camera) (env : Snapshot) : Bytes :=
  if env.findNetdev c.sysfsName = [] then c.netdev else env.findNetdev c.sysfsName

/-- What a sample leaves of the fields that the next one reads, and the stage it came
to. -/
theorem advanceReadiness_spec (c : Camera) (probePort : UInt16) (env : Snapshot) :
    (c.advanceReadiness probePort env).readiness =
        env.climb c.sysfsName c.ip probePort (c.climbsWith env) ∧
      (c.advanceReadiness probePort env).netdev =
        (if env.present c.sysfsName then c.climbsWith env else c.netdev) ∧
      (c.advanceReadiness probePort env).sysfsName = c.sysfsName ∧
      (c.advanceReadiness probePort env).ip = c.ip := by
  by_cases hpresent : env.present c.sysfsName = true
  · obtain ⟨firstSeen, renamed, hfound⟩ :=
      resolveNetdev_eq { c with readiness := .usbPresent } (env.findNetdev c.sysfsName)
    change _ = { c with
      netdev := c.climbsWith env, netdevFirstSeen := firstSeen, netdevRenamed := renamed
      readiness := .usbPresent } at hfound
    rw [advanceReadiness, Snapshot.climb]
    simp only [hpresent, hfound, Bool.not_true, Bool.true_eq_false, Bool.false_eq_true,
      if_false, if_true]
    by_cases hbound : c.climbsWith env = []
    · simp only [hbound, if_true, and_self]
    · by_cases haddressed : env.hostIpv4 (c.climbsWith env) = []
      · simp only [hbound, haddressed, if_true, if_false, and_self]
      · by_cases hasked : probePort = 0 ∨ c.ip = []
        · have hshort : probePort = 0 ∨ c.ip = [] ∨ env.probeTcp c.ip probePort = false :=
            hasked.elim Or.inl fun h => Or.inr (Or.inl h)
          simp only [hbound, haddressed, hasked, hshort, if_true, if_false, and_self]
        · obtain ⟨hport, hip⟩ := not_or.mp hasked
          by_cases hanswer : env.probeTcp c.ip probePort = true
          · simp only [hbound, haddressed, hport, hip, hanswer, Bool.true_eq_false, or_self,
              if_true, if_false, and_self]
          · rw [Bool.not_eq_true] at hanswer
            simp only [hbound, haddressed, hport, hip, hanswer, Bool.false_eq_true, or_true,
              if_true, if_false, or_self, and_self]
  · rw [Bool.not_eq_true] at hpresent
    rw [advanceReadiness, climb_of_absent hpresent]
    simp [hpresent]

theorem advanceReadiness_sysfsName (c : Camera) (probePort : UInt16) (env : Snapshot) :
    (c.advanceReadiness probePort env).sysfsName = c.sysfsName :=
  (c.advanceReadiness_spec probePort env).2.2.1

/-- Without a port to probe a camera is not found ready. -/
theorem advanceReadiness_zero (c : Camera) (env : Snapshot) :
    (c.advanceReadiness 0 env).readiness ≠ .l3Ready := by
  rw [(c.advanceReadiness_spec 0 env).1, Snapshot.climb]
  split
  · simp
  · split
    · simp
    · split <;> simp

/-! ## Runs of samplings -/

/-- One call of `advance_readiness`: its port, and what the probes answered. -/
structure Sample where
  probePort : UInt16
  env : Snapshot

/-- A record that was never sampled. -/
def Unsampled (c : Camera) : Prop :=
  c.netdev = [] ∧ c.netdevFirstSeen = [] ∧ c.netdevRenamed = false ∧ c.linkState = [] ∧
    c.hostIp = [] ∧ c.readiness = .absent

def sample (c : Camera) (s : Sample) : Camera × Readiness :=
  (c.advanceReadiness s.probePort s.env, (c.advanceReadiness s.probePort s.env).readiness)

/-- All runs of samplings of a record. -/
def sampling : Lts Camera (Sample × Readiness) := .ofTotal Unsampled sample

/-- An earlier sampling found an interface under the device. -/
def WasBound (name : Bytes) (labels : List (Sample × Readiness)) : Prop :=
  ∃ label ∈ labels, label.1.env.present name = true ∧ label.1.env.findNetdev name ≠ []

theorem wasBound_snoc {name : Bytes} {labels : List (Sample × Readiness)}
    {label : Sample × Readiness} :
    WasBound name (labels ++ [label]) ↔ WasBound name labels ∨
      (label.1.env.present name = true ∧ label.1.env.findNetdev name ≠ []) := by
  simp only [WasBound, List.mem_append, List.mem_singleton, or_and_right, exists_or,
    exists_eq_left]

/-- A sampled record keeps the identity, and a name exactly when one was found. -/
theorem kept {c₀ c : Camera} {labels : List (Sample × Readiness)} (hstart : Unsampled c₀)
    (hrun : sampling.Run c₀ labels c) :
    c.sysfsName = c₀.sysfsName ∧ c.ip = c₀.ip ∧
      (c.netdev ≠ [] ↔ WasBound c.sysfsName labels) := by
  refine hrun.history (I := fun labels c => c.sysfsName = c₀.sysfsName ∧ c.ip = c₀.ip ∧
    (c.netdev ≠ [] ↔ WasBound c.sysfsName labels)) ?_ ?_
  · refine ⟨rfl, rfl, ?_⟩
    simp [WasBound, hstart.1]
  · rintro labels c ⟨s, out⟩ c' ⟨hname, hip, hkept⟩ hstep
    obtain ⟨rfl, -⟩ : (c.sample s).1 = c' ∧ (c.sample s).2 = out := Prod.mk.inj hstep
    obtain ⟨-, hnetdev, hname', hip'⟩ := c.advanceReadiness_spec s.probePort s.env
    refine ⟨hname'.trans hname, hip'.trans hip, ?_⟩
    rw [wasBound_snoc]
    have hsame : (c.sample s).1.sysfsName = c.sysfsName := hname'
    have hleft : (c.sample s).1.netdev = _ := hnetdev
    rw [hsame, hleft, ← hkept, climbsWith]
    by_cases hpresent : s.env.present c.sysfsName = true
    · by_cases hbound : s.env.findNetdev c.sysfsName = []
      · simp [hpresent, hbound]
      · simp [hpresent, hbound]
    · simp [hpresent]

/-- A name the record kept changes the stage of a device that is there unbound. -/
theorem sample_unbound {c : Camera} {env : Snapshot} (hpresent : env.present c.sysfsName = true)
    (hbound : env.findNetdev c.sysfsName = []) (probePort : UInt16) :
    (c.advanceReadiness probePort env).readiness = .usbPresent ↔ c.netdev = [] := by
  rw [(c.advanceReadiness_spec probePort env).1, climb_eq_usbPresent_iff hpresent, climbsWith,
    if_pos hbound]

/-- Elsewhere the record has no say. -/
theorem sample_bound {c : Camera} {env : Snapshot}
    (h : env.present c.sysfsName = true → env.findNetdev c.sysfsName ≠ [])
    (probePort : UInt16) :
    (c.advanceReadiness probePort env).readiness =
      env.climb c.sysfsName c.ip probePort (env.findNetdev c.sysfsName) := by
  rw [(c.advanceReadiness_spec probePort env).1]
  by_cases hpresent : env.present c.sysfsName = true
  · rw [climbsWith, if_neg (h hpresent)]
  · rw [Bool.not_eq_true] at hpresent
    rw [climb_of_absent hpresent, climb_of_absent hpresent]

/-- The record as it was before it was sampled. -/
def unsampled (c : Camera) : Camera :=
  { c with
    netdev := [], netdevFirstSeen := [], netdevRenamed := false, linkState := []
    hostIp := [], readiness := .absent }

/-- Every device has a record that kept a name. -/
theorem exists_kept (c : Camera) : ∃ c', sampling.Reachable c' ∧
    c'.sysfsName = c.sysfsName ∧ c'.ip = c.ip ∧ c'.netdev ≠ [] := by
  let env : Snapshot :=
    { present := fun _ => true
      findNetdev := fun _ => ascii "eth0"
      linkState := fun _ => []
      hostIpv4 := fun _ => []
      probeTcp := fun _ _ => false }
  obtain ⟨-, hnetdev, hname, hip⟩ := c.unsampled.advanceReadiness_spec 0 env
  have hstart : sampling.start c.unsampled := ⟨rfl, rfl, rfl, rfl, rfl, rfl⟩
  refine ⟨(c.unsampled.sample ⟨0, env⟩).1, ?_, hname, hip, ?_⟩
  · exact (Lts.Reachable.of_start hstart).step (a := (⟨0, env⟩, _)) rfl
  · exact hnetdev.trans_ne (by simp [env, climbsWith, ascii])

/-- When a readiness sample reflects the present.  After any samplings, a sample gives the
highest stage of its snapshot, and gives it whatever else the record was sampled for,
exactly if the device is gone or an interface is bound under it.  Where it is there with
none, the highest stage is still given exactly if no earlier sampling found one. -/
theorem sample_reflects_present_iff {c₀ c : Camera} {labels : List (Sample × Readiness)}
    (hstart : Unsampled c₀) (hrun : sampling.Run c₀ labels c) (probePort : UInt16)
    (env : Snapshot) :
    (((c.advanceReadiness probePort env).readiness.Reflects env c.sysfsName c.ip probePort ∧
        ∀ c', sampling.Reachable c' → c'.sysfsName = c.sysfsName → c'.ip = c.ip →
          (c'.advanceReadiness probePort env).readiness =
            (c.advanceReadiness probePort env).readiness) ↔
      (env.present c.sysfsName = true → env.findNetdev c.sysfsName ≠ [])) ∧
    ((c.advanceReadiness probePort env).readiness.Reflects env c.sysfsName c.ip probePort ↔
      (env.present c.sysfsName = true → env.findNetdev c.sysfsName = [] →
        ¬WasBound c.sysfsName labels)) := by
  refine ⟨⟨?_, ?_⟩, ?_⟩
  · rintro ⟨-, hsame⟩ hpresent hbound
    -- the same device has a record without a name and one with a name
    have hfresh := hsame c.unsampled (.of_start ⟨rfl, rfl, rfl, rfl, rfl, rfl⟩) rfl rfl
    obtain ⟨c', hreach, hname, hip, hkept⟩ := c.exists_kept
    have hstale := hsame c' hreach hname hip
    rw [← hfresh] at hstale
    have hlow : (c.unsampled.advanceReadiness probePort env).readiness = .usbPresent :=
      (sample_unbound (c := c.unsampled) hpresent hbound probePort).mpr rfl
    rw [hlow, sample_unbound (by rwa [hname]) (by rwa [hname])] at hstale
    exact hkept hstale
  · intro h
    refine ⟨reflects_iff.mpr (sample_bound h probePort), ?_⟩
    intro c' _ hname hip
    rw [sample_bound h probePort, sample_bound (by rwa [hname]) probePort, hname, hip]
  · rw [← (kept hstart hrun).2.2, not_not, reflects_iff]
    by_cases h : env.present c.sysfsName = true ∧ env.findNetdev c.sysfsName = []
    · rw [h.2, (climb_eq_usbPresent_iff h.1).mpr rfl, sample_unbound h.1 h.2]
      exact ⟨fun hnone _ _ => hnone, fun hnone => hnone h.1 rfl⟩
    · refine iff_of_true (sample_bound (not_and.mp h) probePort) ?_
      exact fun hpresent hbound => absurd ⟨hpresent, hbound⟩ h

/-- A camera with an interface and a lease, and the same camera with its driver
unbound. -/
def attached (bound : Bool) : Snapshot where
  present _ := true
  findNetdev _ := if bound then ascii "enp17s0u1" else []
  linkState _ := ascii "unknown"
  hostIpv4 _ := ascii "172.23.145.52"
  probeTcp _ _ := true

/-- A sample of a camera whose driver was unbound for a while. -/
theorem sample_reflects_present_iff_lease :
    let c₀ : Camera := { bus := 2, address := 7, ports := [1], sysfsName := ascii "2-1" }
    let c := (Lts.play sample c₀ [⟨8080, attached true⟩, ⟨8080, attached false⟩]).1
    c.netdev = ascii "enp17s0u1" ∧
      (c.advanceReadiness 8080 (attached true)).readiness.Reflects (attached true) c.sysfsName
        c.ip 8080 ∧
      ∀ c', sampling.Reachable c' → c'.sysfsName = c.sysfsName → c'.ip = c.ip →
        (c'.advanceReadiness 8080 (attached true)).readiness =
          (c.advanceReadiness 8080 (attached true)).readiness := by
  intro c₀ c
  have hrun := Lts.run_of_play Unsampled sample c₀
    [⟨8080, attached true⟩, ⟨8080, attached false⟩]
  refine ⟨by decide, ?_⟩
  exact (sample_reflects_present_iff ⟨rfl, rfl, rfl, rfl, rfl, rfl⟩ hrun 8080
    (attached true)).1.mpr fun _ => by decide

/-- A camera whose driver was unbound is still reported with a lease. -/
theorem sample_of_unbound_driver :
    ¬∀ c₀ c labels, Unsampled c₀ → sampling.Run c₀ labels c → ∀ probePort env,
      (c.advanceReadiness probePort env).readiness.Reflects env c.sysfsName c.ip
        probePort := by
  intro h
  let c₀ : Camera := { bus := 2, address := 7, ports := [1], sysfsName := ascii "2-1" }
  have hreflects := h c₀ _ _ ⟨rfl, rfl, rfl, rfl, rfl, rfl⟩
    (Lts.run_of_play Unsampled sample c₀ [⟨8080, attached true⟩]) 8080 (attached false)
  exact absurd (reflects_iff.mp hreflects) (by decide)

end Camera

end Usb

end GoproNative
