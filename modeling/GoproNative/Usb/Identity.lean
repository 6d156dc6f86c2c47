import GoproNative.Support.Delimited
import GoproNative.Usb.Definitions

/-!
# The identity of a device

The arrival cache, the pending list and Dart's table of cameras know a device by its entry
in `/sys/bus/usb/devices`.  A decimal numeral can be read back, its digits are told from
`-`, from `.` and from the `u` of a root hub, and so the entry determines the bus and the
path of ports.
-/

namespace GoproNative

namespace Usb

/-! ## Numerals -/

theorem toNat_toUInt8_of_isDigit {c : Char} (h : c.isDigit = true) :
    Char.ofNat c.toNat.toUInt8.toNat = c := by
  have hrange : c.toNat < 256 := by
    simp only [Char.isDigit, Bool.and_eq_true, decide_eq_true_eq, UInt32.le_iff_toNat_le] at h
    exact Nat.lt_of_le_of_lt h.2 (by decide)
  rw [Nat.toUInt8, UInt8.toNat_ofNat', Nat.mod_eq_of_lt hrange, Char.ofNat_toNat]

theorem isDigit_format (n : UInt8) : ∀ b ∈ format n, isDigit b = true := by
  intro b hb
  obtain ⟨c, hc, rfl⟩ := List.mem_map.mp hb
  have hdigit := Nat.isDigit_of_mem_toDigits (by decide) (by decide) hc
  simp only [Char.isDigit, Bool.and_eq_true, decide_eq_true_eq, UInt32.le_iff_toNat_le] at hdigit
  have hlow : 48 ≤ c.toNat := hdigit.1
  have hhigh : c.toNat ≤ 57 := hdigit.2
  simp only [isDigit, Bool.and_eq_true, decide_eq_true_eq, UInt8.le_iff_toNat_le, Nat.toUInt8,
    UInt8.toNat_ofNat', UInt8.toNat_ofNat]
  omega

/-- The characters of a numeral can be read back from its bytes. -/
theorem format_chars (n : UInt8) :
    (format n).map (fun b => Char.ofNat b.toNat) = Nat.toDigits 10 n.toNat := by
  rw [format, List.map_map]
  refine (List.map_congr_left ?_).trans (List.map_id _)
  intro c hc
  exact toNat_toUInt8_of_isDigit (Nat.isDigit_of_mem_toDigits (by decide) (by decide) hc)

theorem format_injective : Function.Injective format := by
  intro m n h
  have hdigits : Nat.toDigits 10 m.toNat = Nat.toDigits 10 n.toNat := by
    rw [← format_chars, ← format_chars, h]
  apply UInt8.toNat.inj
  rw [← Nat.ofDigitChars_ten_toDigits (n := m.toNat), hdigits, Nat.ofDigitChars_ten_toDigits]

/-! ## Entries -/

/-- The entry of a device behind a port: numerals with `-` and `.` before all but the
first. -/
theorem sysfsName_cons (bus p : UInt8) (ports : List UInt8) :
    sysfsName bus (p :: ports) =
      format bus ++ 0x2D :: (format p ++ List.precede 0x2E format ports) := by
  have hdot : ascii "." = [0x2E] := by decide
  have hdash : ascii "-" = [0x2D] := by decide
  simp only [sysfsName, List.precede, hdot, hdash, List.append_assoc, List.nil_append,
    List.cons_append]

/-- A root hub has an entry of its own form, which begins with no digit. -/
theorem sysfsName_nil_ne (bus bus' p : UInt8) (ports : List UInt8) :
    sysfsName bus [] ≠ sysfsName bus' (p :: ports) := by
  intro h
  have husb : ascii "usb" = [0x75, 0x73, 0x62] := by decide
  rw [sysfsName_cons, sysfsName, husb] at h
  rcases hformat : format bus' with _ | ⟨b, digits⟩
  · simp [hformat] at h
  · have hdigit := isDigit_format bus' b (by simp [hformat])
    simp only [hformat, List.cons_append, List.cons.injEq] at h
    rw [← h.1] at hdigit
    exact absurd hdigit (by decide)

theorem sysfsName_inj {bus bus' : UInt8} {ports ports' : List UInt8} :
    sysfsName bus ports = sysfsName bus' ports' ↔ bus = bus' ∧ ports = ports' := by
  refine ⟨?_, fun ⟨hbus, hports⟩ => by rw [hbus, hports]⟩
  intro h
  rcases ports with _ | ⟨p, ports⟩ <;> rcases ports' with _ | ⟨p', ports'⟩
  · exact ⟨format_injective (List.append_cancel_left h), rfl⟩
  · exact absurd h (sysfsName_nil_ne _ _ _ _)
  · exact absurd h.symm (sysfsName_nil_ne _ _ _ _)
  · rw [sysfsName_cons, sysfsName_cons,
      List.word_append_inj (isDigit_format bus) (isDigit_format bus')
        (List.delimited_cons (by decide) _) (List.delimited_cons (by decide) _),
      List.cons.injEq,
      List.word_append_inj (isDigit_format p) (isDigit_format p')
        (List.delimited_precede (by decide) _ _) (List.delimited_precede (by decide) _ _),
      List.precede_inj (by decide) isDigit_format format_injective] at h
    obtain ⟨hbus, -, hp, hports⟩ := h
    exact ⟨format_injective hbus, by rw [format_injective hp, hports]⟩

/-! ## Keys -/

/-- A departure takes the device's own key out of the cache and of the pending list. -/
theorem BridgeContext.hotplug_left (ctx : BridgeContext) (dev : Device) (env : Snapshot)
    (now : Nat) :
    (ctx.hotplug dev false env now).1.cache = ctx.cache.erase (sysfsName dev.bus dev.ports) ∧
      (ctx.hotplug dev false env now).1.pending =
        ctx.pending.filter fun p => p.cam.sysfsName ≠ sysfsName dev.bus dev.ports := by
  have hname : (buildIdentity dev).sysfsName = sysfsName dev.bus dev.ports := rfl
  rcases hlookup : ctx.cache.lookup (buildIdentity dev).sysfsName with _ | prev <;>
    simp [hotplug, hlookup, hname]

/-- The name of a device identifies it.  Two devices with one name have the same bus and
the same path of ports; so the departure of a device forgets what is cached of it, leaves
what is cached of every other one, and erases the pending entries of this device and no
others. -/
theorem device_key_unambiguous :
    (∀ bus ports bus' ports',
      sysfsName bus ports = sysfsName bus' ports' ↔ bus = bus' ∧ ports = ports') ∧
    ∀ (ctx : BridgeContext) (dev : Device) (env : Snapshot) (now : Nat) bus ports,
      (ctx.hotplug dev false env now).1.cache.lookup (sysfsName bus ports) =
        (if bus = dev.bus ∧ ports = dev.ports then none
        else ctx.cache.lookup (sysfsName bus ports)) ∧
      ∀ p : Pending, p.cam.sysfsName = sysfsName bus ports →
        (p ∈ (ctx.hotplug dev false env now).1.pending ↔
          p ∈ ctx.pending ∧ ¬(bus = dev.bus ∧ ports = dev.ports)) := by
  refine ⟨fun _ _ _ _ => sysfsName_inj, ?_⟩
  intro ctx dev env now bus ports
  obtain ⟨hcache, hpending⟩ := ctx.hotplug_left dev env now
  refine ⟨?_, ?_⟩
  · rw [hcache]
    by_cases hown : bus = dev.bus ∧ ports = dev.ports
    · rw [if_pos hown, hown.1, hown.2]
      exact AList.lookup_erase _ _
    · rw [if_neg hown]
      exact AList.lookup_erase_ne fun h => hown (sysfsName_inj.mp h)
  · intro p hp
    rw [hpending, List.mem_filter, hp, decide_eq_true_iff, ne_eq, sysfsName_inj]

end Usb

end GoproNative
