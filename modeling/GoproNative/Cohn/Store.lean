import GoproNative.Cohn.Definitions
import Mathlib.Data.List.Induction

/-!
# The store as a map

The store is a map from the names of its files: a file holds what was last written to it.
So it is a map from serials where no two of the serials in use share a name.
-/

namespace GoproNative

open FileCredentialStore (Op)

namespace CohnCredentials

/-- What is written is read back, whatever the strings hold and whichever are missing. -/
theorem fromJson_toJson (c : CohnCredentials) : fromJson c.toJson = some c := by
  rcases c with ⟨username, password, certificate, _ | ipAddress, _ | ssid, _ | macAddress⟩ <;> rfl

end CohnCredentials

theorem readAsString_writeAsString {text : Text} (h : Utf16.Paired text) :
    readAsString (writeAsString text) = some text := by
  rw [readAsString, writeAsString, Utf8.decode_encode, Option.map_some,
    Utf16.paired_iff.mp h]

/-- The file that `write` leaves. -/
def CohnCredentials.stored (c : CohnCredentials) : StoredFile :=
  { mode := 0o600, bytes := writeAsString (Json.encode c.toJson) }

theorem decode_stored (c : CohnCredentials) :
    ((readAsString c.stored.bytes).bind Json.decode).bind CohnCredentials.fromJson = some c := by
  rw [CohnCredentials.stored, readAsString_writeAsString (Json.paired_encode _),
    Option.bind_some, Json.decode_encode, Option.bind_some, CohnCredentials.fromJson_toJson]

namespace FileCredentialStore

variable {s : FileCredentialStore} {serial : Text} {op : Op}

theorem path_inj (s : FileCredentialStore) {safe safe' : Text} :
    s.path safe = s.path safe' ↔ safe = safe' := by
  rw [path, path, List.append_left_inj, List.append_right_inj]

theorem Accepts.fileFor_eq (h : Accepts serial) (s : FileCredentialStore) :
    s.fileFor serial = .ok (s.path (safeName serial)) := by
  obtain ⟨f, hf⟩ := h s
  rw [fileFor] at hf ⊢
  split at hf
  · simp at hf
  · next husable => rw [if_neg husable]

/-! ## Files and values -/

/-- Every file holds what the map has under its name, and no other is there. -/
def Holds (s : FileCredentialStore) (m : Text → Option CohnCredentials) : Prop :=
  ∀ safe, s.files (s.path safe) = (m safe).map CohnCredentials.stored

theorem Holds.read_eq {m : Text → Option CohnCredentials} (h : s.Holds m)
    (haccepts : Accepts serial) : s.read serial = .ok (m (safeName serial)) := by
  rw [read, haccepts.fileFor_eq]
  simp only [h (safeName serial)]
  rcases m (safeName serial) with _ | c
  · rfl
  · have hprivate : ¬(c.stored.mode &&& 0x1FF &&& 0x03F ≠ 0) := by
      change ¬(0o600 &&& 0x1FF &&& 0x03F ≠ 0)
      decide
    simp only [Option.map_some]
    rw [if_neg hprivate, decode_stored]

theorem write_eq (haccepts : Accepts serial) (s : FileCredentialStore) (c : CohnCredentials) :
    s.write serial c =
      ({ s with
        dirMode := some 0o700
        files := Function.update s.files (s.path (safeName serial)) (some c.stored) },
        .ok ()) := by
  have hfile := haccepts.fileFor_eq { s with dirMode := some 0o700 }
  rw [write]
  simp only [hfile]
  rfl

theorem delete_eq (haccepts : Accepts serial) (s : FileCredentialStore) :
    s.delete serial =
      ({ s with files := Function.update s.files (s.path (safeName serial)) none },
        .ok ()) := by
  rw [delete]
  simp only [haccepts.fileFor_eq s]
  split
  · rfl
  · next habsent =>
    rw [Bool.not_eq_true, Option.isSome_eq_false_iff, Option.isNone_iff_eq_none] at habsent
    rw [Function.update_eq_self_iff.mpr habsent.symm]

/-- One operation on the store is one on the map of its names. -/
theorem Holds.step {earlier : List Op} (h : s.Holds fun safe => Keyed.latest safe earlier)
    (haccepts : Accepts op.key) :
    (s.step op).Holds fun safe => Keyed.latest safe (op.rename safeName :: earlier) := by
  have hupdate : ∀ serial value,
      ∀ safe, Function.update s.files (s.path (safeName serial)) value (s.path safe) =
        if safeName serial = safe then value
        else (Keyed.latest safe earlier).map CohnCredentials.stored := by
    intro serial value safe
    split
    · next hsame => rw [hsame, Function.update_self]
    · next hne =>
      have hpath : s.path safe ≠ s.path (safeName serial) :=
        fun heq => hne (s.path_inj.mp heq).symm
      rw [Function.update_of_ne hpath, h safe]
  rcases op with serial | ⟨serial, c⟩ | serial
  · exact h
  · intro safe
    have hserial : Accepts serial := haccepts
    rw [FileCredentialStore.step, write_eq hserial]
    change Function.update s.files _ (some c.stored) (s.path safe) =
      (if safeName serial = safe then some c else Keyed.latest safe earlier).map
        CohnCredentials.stored
    rw [hupdate, apply_ite (Option.map _)]
    rfl
  · intro safe
    have hserial : Accepts serial := haccepts
    rw [FileCredentialStore.step, delete_eq hserial]
    change Function.update s.files _ none (s.path safe) =
      (if safeName serial = safe then none else Keyed.latest safe earlier).map
        CohnCredentials.stored
    rw [hupdate, apply_ite (Option.map _)]
    rfl

theorem run_append (s : FileCredentialStore) (ops : List Op) (op : Op) :
    s.run (ops ++ [op]) = (s.run ops).step op := List.foldl_concat ..

/-- From an empty directory, the store is the map of its names. -/
theorem holds_run (hempty : ∀ f, s.files f = none) (ops : List Op)
    (haccepts : ∀ op ∈ ops, Accepts op.key) :
    (s.run ops).Holds fun safe => Keyed.latest safe (ops.reverse.map (·.rename safeName)) := by
  induction ops using List.reverseRecOn with
  | nil => exact fun safe => hempty _
  | append_singleton ops op ih =>
      obtain ⟨hops, hop⟩ := List.forall_mem_append.mp haccepts
      rw [run_append, List.reverse_append, List.reverse_singleton, List.singleton_append,
        List.map_cons]
      exact (ih hops).step (hop op List.mem_cons_self)

/-! ## Serials -/

/-- Over the serials the store is a map: from an empty directory, and behind any sequence
of operations, it reads under each what was last written under it and not deleted. -/
def IsMap (S : Set Text) : Prop :=
  ∀ (s : FileCredentialStore) (ops : List Op), (∀ f, s.files f = none) →
    (∀ op ∈ ops, op.key ∈ S) → ∀ serial ∈ S,
      (s.run ops).read serial = .ok (Keyed.latest serial ops.reverse)

theorem read_run (hempty : ∀ f, s.files f = none) {ops : List Op}
    (haccepts : ∀ op ∈ ops, Accepts op.key) (hserial : Accepts serial) :
    (s.run ops).read serial =
      .ok (Keyed.latest (safeName serial) (ops.reverse.map (·.rename safeName))) :=
  (holds_run hempty ops haccepts).read_eq hserial

/-- The store is a map over serials that it accepts exactly when no two of them have one
name. -/
theorem isMap_iff {S : Set Text} (haccepts : ∀ serial ∈ S, Accepts serial) :
    IsMap S ↔ S.InjOn safeName := by
  constructor
  · intro hmap
    refine Keyed.injOn_of_latest_rename
      ({ username := [], password := [], certificate := [] } : CohnCredentials) ?_
    intro ops hops serial hserial
    have hback : ∀ op ∈ ops.reverse, op.key ∈ S :=
      fun op hop => hops op (List.mem_reverse.mp hop)
    have hread := hmap { dir := [], created := 0 } ops.reverse (fun _ => rfl) hback serial hserial
    rw [read_run (fun _ => rfl) (fun op hop => haccepts _ (hback op hop))
      (haccepts serial hserial), List.reverse_reverse] at hread
    exact Except.ok.inj hread
  · intro hinj s ops hempty hops serial hserial
    rw [read_run hempty (fun op hop => haccepts _ (hops op hop)) (haccepts serial hserial),
      Keyed.latest_rename hinj hserial fun op hop => hops op (List.mem_reverse.mp hop)]

theorem accepts_of_usable (h : (safeName serial).filter (· ≠ 0x5F) ≠ []) : Accepts serial := by
  intro s
  refine ⟨s.path (safeName serial), ?_⟩
  rw [fileFor, if_neg]
  rintro (hnil | hnone)
  · rw [hnil] at h
    exact h rfl
  · exact h hnone

/-- Two cameras. -/
theorem isMap_iff_cameras : IsMap {utf16 "C3441326543210", utf16 "C3441326543211"} := by
  refine (isMap_iff ?_).mpr ?_
  · rintro serial (rfl | rfl)
    · exact accepts_of_usable (by decide)
    · exact accepts_of_usable (by decide)
  · rintro a (rfl | rfl) b (rfl | rfl) hsame
    · rfl
    · exact absurd hsame (by decide)
    · exact absurd hsame (by decide)
    · rfl

/-- What is written under `A.B` is read under `A_B`. -/
theorem not_isMap_accepts : ¬IsMap {serial | Accepts serial} := by
  intro hmap
  have hdot : Accepts (utf16 "A.B") := accepts_of_usable (by decide)
  have hline : Accepts (utf16 "A_B") := accepts_of_usable (by decide)
  let c : CohnCredentials :=
    { username := utf16 "gopro", password := utf16 "hunter2", certificate := utf16 "PEM" }
  let ops : List Op := [.write (utf16 "A.B") c]
  have hops : ∀ op ∈ ops, Accepts op.key := by
    intro op hop
    obtain rfl := List.mem_singleton.mp hop
    exact hdot
  have hread := hmap { dir := utf16 "state", created := 0o644 } ops (fun _ => rfl) hops _ hline
  rw [read_run (fun _ => rfl) hops hline] at hread
  exact absurd hread (by decide)

end FileCredentialStore

end GoproNative
