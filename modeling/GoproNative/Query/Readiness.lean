import GoproNative.Query.Definitions
import GoproNative.Support.History
import Mathlib.Algebra.Group.Nat.Defs
import Mathlib.Algebra.Order.Ring.Nat
import Mathlib.Data.List.Induction
import Mathlib.Tactic.Linarith

/-!
# What opens the ready gate

The fold remembers of either status the value that was reported last.  A value of at
most eight bytes is read as the number it is, so it counts as clear when its bytes are
all zero.  A wider one has no reading as a number, and counts as clear whatever its
bytes are.

The histories here are those of `parse_query` followed by `apply`: whatever `parse_query`
returns, the entries it kept are applied.  A session applies the messages that parse to
their end only, which is `hear`.
-/

namespace GoproNative

/-! ## Reading a value -/

/-- Every byte of a value is zero. -/
def Clear (value : Bytes) : Prop := ∀ b ∈ value, b = 0

instance (value : Bytes) : Decidable (Clear value) :=
  inferInstanceAs (Decidable (∀ b ∈ value, b = 0))

/-- A value that is not clear, and is too wide to be read. -/
def Misread (value : Bytes) : Prop := 8 < value.length ∧ ¬Clear value

instance (value : Bytes) : Decidable (Misread value) :=
  inferInstanceAs (Decidable (_ ∧ _))

/-- Shifting a byte in, with room for it. -/
theorem toNat_shift_in {v : UInt64} (b : UInt8) (hroom : v.toNat * 256 + 255 < 2 ^ 64) :
    ((v <<< 8) ||| b.toUInt64).toNat = v.toNat * 256 + b.toNat := by
  have hb : b.toNat < 2 ^ 8 := b.toNat_lt
  have hshift : (v <<< 8).toNat = v.toNat <<< 8 := by
    have hbits : (8 : UInt64).toNat % 64 = 8 := rfl
    have hlt : v.toNat * 2 ^ 8 < 2 ^ 64 :=
      lt_of_le_of_lt (show v.toNat * 256 ≤ v.toNat * 256 + 255 by omega) hroom
    rw [UInt64.toNat_shiftLeft, hbits, Nat.shiftLeft_eq, Nat.mod_eq_of_lt hlt]
  rw [UInt64.toNat_or, hshift, UInt8.toNat_toUInt64, ← Nat.shiftLeft_add_eq_or_of_lt hb,
    Nat.shiftLeft_eq]

/-- The loop of `as_uint` ends in zero when it began with zero and met no other
byte. -/
theorem foldl_eq_zero_iff (value : Bytes) {v : UInt64}
    (hroom : (v.toNat + 1) * 256 ^ value.length ≤ 2 ^ 64) :
    value.foldl (fun (v : UInt64) (b : UInt8) => (v <<< 8) ||| b.toUInt64) v = 0 ↔
      v = 0 ∧ Clear value := by
  induction value generalizing v with
  | nil => simp [Clear]
  | cons b value ih =>
      have hb : b.toNat < 256 := b.toNat_lt
      have hpos : 1 ≤ 256 ^ value.length := Nat.one_le_pow _ _ (by omega)
      rw [List.length_cons, Nat.pow_succ, Nat.mul_comm (256 ^ value.length),
        ← Nat.mul_assoc] at hroom
      have hnext := toNat_shift_in (v := v) b (by nlinarith)
      have hroom' : (((v <<< 8) ||| b.toUInt64).toNat + 1) * 256 ^ value.length ≤ 2 ^ 64 := by
        rw [hnext]
        exact le_trans (Nat.mul_le_mul_right _ (by omega)) hroom
      have hzero : (v <<< 8) ||| b.toUInt64 = 0 ↔ v = 0 ∧ b = 0 := by
        rw [← UInt64.toNat_inj, hnext, ← UInt64.toNat_inj, ← UInt8.toNat_inj]
        simp
      rw [List.foldl_cons, ih hroom', hzero, and_assoc]
      simp [Clear]

/-- A value that is there reads as false when it is clear, and when it is too wide. -/
theorem QueryEntry.asBool_eq_false_iff {e : QueryEntry} (hvalue : e.value ≠ []) :
    e.asBool = false ↔ Clear e.value ∨ Misread e.value := by
  by_cases hwide : 8 < e.value.length
  · have hnone : e.asUint = none := if_pos (by simp [hwide])
    have hfalse : e.asBool = false := by rw [asBool, hnone]; rfl
    simp only [hfalse, Misread, hwide, true_and, true_iff]
    exact em _
  · have hroom : ((0 : UInt64).toNat + 1) * 256 ^ e.value.length ≤ 2 ^ 64 := by
      rw [UInt64.toNat_zero, Nat.zero_add, Nat.one_mul]
      exact Nat.pow_le_pow_right (by omega) (Nat.le_of_not_lt hwide)
    have hsome : e.asUint = some (e.value.foldl
        (fun (v : UInt64) (b : UInt8) => (v <<< 8) ||| b.toUInt64) 0) :=
      if_neg (by simp [hwide, hvalue])
    rw [asBool, hsome, Option.getD_some, bne_eq_false_iff_eq, foldl_eq_zero_iff _ hroom]
    simp [Misread, hwide]

/-! ## The fold -/

namespace ReadyState

/-- Folds in a message as a session does: one that does not parse to its end says
nothing. -/
def hear (r : ReadyState) (message : Bytes) : ReadyState :=
  match parseQuery message with
  | (.ok, parsed) => (r.apply parsed).2
  | _ => r

theorem apply_changed (r : ReadyState) (response : QueryResponse) :
    (r.apply response).1 = ((r.apply response).2.ready != r.ready) := by
  unfold apply
  split <;> simp

theorem ready_iff {r : ReadyState} :
    r.ready = true ↔ r.busy = some false ∧ r.encoding = some false := by
  simp [ready]

theorem apply_of_setting (r : ReadyState) {response : QueryResponse}
    (h : response.isStatus = false) : r.apply response = (false, r) := by
  simp [apply, h]

theorem applyEntry_of_empty (known : Option Bool) {e : QueryEntry} (h : e.value = []) :
    applyEntry known (some e) = known := by
  simp [applyEntry, h]

/-- An entry without a value leaves its status alone. -/
theorem apply_of_empty (r : ReadyState) {response : QueryResponse} {e : QueryEntry}
    (hvalue : e.value = []) :
    (response.find kStatusBusy = some e → (r.apply response).2.busy = r.busy) ∧
      (response.find kStatusEncoding = some e →
        (r.apply response).2.encoding = r.encoding) := by
  by_cases hstatus : response.isStatus = true
  · constructor
    · intro hfind
      simp [apply, hstatus, hfind, applyEntry_of_empty r.busy hvalue]
    · intro hfind
      simp [apply, hstatus, hfind, applyEntry_of_empty r.encoding hvalue]
  · rw [apply_of_setting r (by simpa using hstatus)]
    exact ⟨fun _ => rfl, fun _ => rfl⟩

/-! ## The history of a status -/

/-- Parses a message and applies what was kept of it. -/
def applyMessage (r : ReadyState) (message : Bytes) : ReadyState :=
  (r.apply (parseQuery message).2).2

/-- What a message reports of a status: the value of the first entry with its id in a
status response, unless it is empty.  Of a message with a truncated tail the entries
before it count. -/
def reported (id : UInt8) (message : Bytes) : Option Bytes :=
  let response := (parseQuery message).2
  if response.isStatus then
    (response.find id).bind fun e => if e.value = [] then none else some e.value
  else none

/-- The value reported last. -/
def latest (id : UInt8) (messages : List Bytes) : Option Bytes :=
  (messages.filterMap (reported id)).getLast?

/-- What is known after some messages, from a reset on. -/
def heard (messages : List Bytes) : ReadyState := messages.foldl applyMessage {}

theorem latest_snoc (id : UInt8) (messages : List Bytes) (message : Bytes) :
    latest id (messages ++ [message]) = (reported id message).or (latest id messages) := by
  rw [latest, List.filterMap_append]
  cases hreported : reported id message with
  | none => simp [hreported, latest]
  | some value => simp [hreported]

/-- How a value is read. -/
def reads (value : Bytes) : Bool := QueryEntry.asBool { id := 0, value := value }

theorem applyEntry_eq (known : Option Bool) (entry : Option QueryEntry) :
    applyEntry known entry =
      ((entry.bind fun e => if e.value = [] then none else some e.value).map reads).or
        known := by
  cases entry with
  | none => rfl
  | some e =>
      by_cases hvalue : e.value = []
      · simp [applyEntry, hvalue]
      · simp only [applyEntry, List.isEmpty_iff, hvalue, if_false, Option.bind_some,
          Option.map_some, Option.some_or]
        rfl

theorem applyMessage_eq (r : ReadyState) (message : Bytes) :
    r.applyMessage message =
      { busy := ((reported kStatusBusy message).map reads).or r.busy
        encoding := ((reported kStatusEncoding message).map reads).or r.encoding } := by
  by_cases hstatus : (parseQuery message).2.isStatus = true
  · simp only [applyMessage, reported, apply, hstatus, Bool.not_true, Bool.false_eq_true,
      if_false, if_true, applyEntry_eq]
  · simp [applyMessage, reported, apply, hstatus]

/-- Of either status the value reported last is known, as it reads. -/
theorem heard_eq (messages : List Bytes) :
    heard messages =
      { busy := (latest kStatusBusy messages).map reads
        encoding := (latest kStatusEncoding messages).map reads } := by
  induction messages using List.reverseRecOn with
  | nil => rfl
  | append_singleton messages message ih =>
      rw [heard, List.foldl_append, List.foldl_cons, List.foldl_nil, ← heard, ih,
        applyMessage_eq]
      simp only [latest_snoc]
      congr 1
      · cases reported kStatusBusy message <;> rfl
      · cases reported kStatusEncoding message <;> rfl

theorem reported_ne_nil {id : UInt8} {message value : Bytes}
    (h : reported id message = some value) : value ≠ [] := by
  simp only [reported] at h
  split at h
  · obtain ⟨e, -, hvalue⟩ := Option.bind_eq_some_iff.mp h
    split at hvalue
    · simp at hvalue
    · next hne =>
      obtain rfl := Option.some.inj hvalue
      exact hne
  · simp at h

theorem latest_ne_nil {id : UInt8} {messages : List Bytes} {value : Bytes}
    (h : latest id messages = some value) : value ≠ [] := by
  obtain ⟨message, -, hreported⟩ :=
    List.mem_filterMap.mp (List.mem_of_getLast? h)
  exact reported_ne_nil hreported

/-- A status is known to be clear when its latest value is clear or misread. -/
theorem latest_reads_false_iff (id : UInt8) (messages : List Bytes) :
    (latest id messages).map reads = some false ↔
      ∃ value, latest id messages = some value ∧ (Clear value ∨ Misread value) := by
  rw [Option.map_eq_some_iff]
  refine exists_congr fun value => and_congr_right ?_
  intro hlatest
  exact QueryEntry.asBool_eq_false_iff (e := ⟨0, value⟩) (latest_ne_nil hlatest)

/-! ## The gate -/

/-- The statuses readiness depends on. -/
def gating : List UInt8 := [kStatusBusy, kStatusEncoding]

/-- Readiness is what the camera reported: of both statuses the latest value is
there, and clear. -/
def OpensOnZeros (messages : List Bytes) : Prop :=
  (heard messages).ready = true ↔
    ∀ id ∈ gating, ∃ value, latest id messages = some value ∧ Clear value

/-- Of both statuses the latest value is clear or misread, and one is misread. -/
def Misled (messages : List Bytes) : Prop :=
  (∀ id ∈ gating, ∃ value, latest id messages = some value ∧
    (Clear value ∨ Misread value)) ∧
  ∃ id ∈ gating, ∃ value, latest id messages = some value ∧ Misread value

theorem ready_heard_iff (messages : List Bytes) :
    (heard messages).ready = true ↔
      ∀ id ∈ gating, ∃ value, latest id messages = some value ∧
        (Clear value ∨ Misread value) := by
  rw [heard_eq, ready_iff, latest_reads_false_iff, latest_reads_false_iff]
  simp [gating]

/-- A truncated tail says nothing about the entries before it. -/
example : (heard [[0x13, 0, 8, 1, 0, 10, 1, 0, 5, 9]]).ready = true := by decide

/-- The gate opens on zeros the camera reported, except where a value too wide to be
read stands for one of them.  Setting responses and entries without a value change
nothing, and `apply` tells exactly of changes of readiness. -/
theorem opens_on_zeros_iff (messages : List Bytes) :
    (OpensOnZeros messages ↔ ¬Misled messages) ∧
    ∀ response,
      (response.isStatus = false → ((heard messages).apply response).2 = heard messages) ∧
      (∀ e, e.value = [] →
        (response.find kStatusBusy = some e →
          ((heard messages).apply response).2.busy = (heard messages).busy) ∧
        (response.find kStatusEncoding = some e →
          ((heard messages).apply response).2.encoding = (heard messages).encoding)) ∧
      (((heard messages).apply response).1 = true ↔
        ((heard messages).apply response).2.ready ≠ (heard messages).ready) := by
  refine ⟨?_, fun response => ⟨?_, fun e he => apply_of_empty _ he, ?_⟩⟩
  · rw [OpensOnZeros, ready_heard_iff]
    constructor
    · rintro hiff ⟨hall, id, hid, value, hlatest, hwide, hvalue⟩
      obtain ⟨value', hlatest', hclear⟩ := hiff.mp hall id hid
      obtain rfl := Option.some.inj (hlatest.symm.trans hlatest')
      exact hvalue hclear
    · intro hread
      constructor
      · intro hall id hid
        obtain ⟨value, hlatest, hclear | hmisread⟩ := hall id hid
        · exact ⟨value, hlatest, hclear⟩
        · exact absurd ⟨hall, id, hid, value, hlatest, hmisread⟩ hread
      · intro hall id hid
        obtain ⟨value, hlatest, hclear⟩ := hall id hid
        exact ⟨value, hlatest, Or.inl hclear⟩
  · intro hsetting
    rw [apply_of_setting _ hsetting]
  · rw [apply_changed, bne_iff_ne]

/-- A BUSY value of nine bytes opens the gate, though none of them is zero. -/
theorem opens_on_wide_value : ¬∀ messages, OpensOnZeros messages := by
  intro h
  obtain ⟨value, hlatest, hclear⟩ :=
    (h [[0x93, 0, 8, 9, 1, 1, 1, 1, 1, 1, 1, 1, 1, 10, 1, 0]]).mp (by decide) kStatusBusy
      (by decide)
  have hvalue : latest kStatusBusy
      [[0x93, 0, 8, 9, 1, 1, 1, 1, 1, 1, 1, 1, 1, 10, 1, 0]] =
      some [1, 1, 1, 1, 1, 1, 1, 1, 1] := by decide
  obtain rfl := Option.some.inj (hvalue.symm.trans hlatest)
  exact absurd hclear (by decide)

end ReadyState

end GoproNative
