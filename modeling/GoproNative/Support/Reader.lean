import Mathlib.Algebra.Group.Nat.Defs
import Mathlib.Data.List.Basic
import Mathlib.Data.List.Infix

/-!
# Reading a buffer from the front

A reader is a computation with a cursor into a buffer, which fails or goes on.
`Decodes p code b` says that `p` reads `code` and yields `b`, wherever in a buffer the
code stands, and that it fails where the buffer ends within the code.  Codes are put
together as readers are: the rules follow `pure`, `bind` and `map`.

Nothing here mentions a particular format.  Its last section is the one number format
that readers of bytes need most often: a fixed number of bytes, the lowest first.
-/

variable {α β γ ε : Type}

namespace List

/-- What lies between two positions; `none` if they are not positions of the list, in
order. -/
def slice? (data : List α) (start stop : Nat) : Option (List α) :=
  if start ≤ stop ∧ stop ≤ data.length then some ((data.drop start).take (stop - start))
  else none

theorem slice?_of_le {data : List α} {start stop : Nat} (hle : start ≤ stop)
    (hstop : stop ≤ data.length) :
    data.slice? start stop = some ((data.drop start).take (stop - start)) :=
  if_pos ⟨hle, hstop⟩

theorem slice?_of_lt {data : List α} {start stop : Nat} (h : data.length < stop) :
    data.slice? start stop = none :=
  if_neg fun hle => Nat.not_lt.mpr hle.2 h

theorem slice?_append (before code after : List α) :
    (before ++ (code ++ after)).slice? before.length (before.length + code.length) =
      some code := by
  rw [slice?_of_le (Nat.le_add_right _ _) (by simp), drop_left, Nat.add_sub_cancel_left,
    take_left]

theorem length_lt_of_prefix_of_ne {front code : List α} (h : front <+: code)
    (hne : front ≠ code) : front.length < code.length := by
  refine Nat.lt_of_le_of_ne h.length_le fun heq => hne ?_
  exact h.eq_of_length heq

end List

/-- A buffer and a position in it. -/
structure Cursor (α : Type) where
  data : List α
  offset : Nat
  deriving DecidableEq

/-- A computation that reads a buffer and may fail. -/
abbrev Reader (α ε β : Type) := StateT (Cursor α) (Except ε) β

namespace Reader

/-- `p` reads `code` and yields `b`; where the buffer ends within `code`, it fails. -/
structure Decodes (p : Reader α ε β) (code : List α) (b : β) : Prop where
  whole : ∀ before after, p ⟨before ++ (code ++ after), before.length⟩ =
    .ok (b, ⟨before ++ (code ++ after), before.length + code.length⟩)
  cut : ∀ before front, front <+: code → front ≠ code →
    ∃ e, p ⟨before ++ front, before.length⟩ = .error e

namespace Decodes

theorem pure (b : β) : Decodes (pure b : Reader α ε β) [] b where
  whole _ _ := rfl
  cut _ _ hfront hne := absurd (List.prefix_nil.mp hfront) hne

/-- One reader after another reads one code after another. -/
theorem bind {p : Reader α ε β} {f : β → Reader α ε γ} {code code' : List α} {b : β}
    {c : γ} (hp : Decodes p code b) (hf : Decodes (f b) code' c) :
    Decodes (p >>= f) (code ++ code') c where
  whole before after := by
    have hsecond := hf.whole (before ++ code) after
    rw [List.length_append, List.append_assoc] at hsecond
    rw [List.append_assoc, List.length_append, ← Nat.add_assoc, ← hsecond]
    change (p _ >>= fun r => f r.1 r.2) = _
    rw [hp.whole before (code' ++ after)]
    rfl
  cut before front hfront hne := by
    obtain ⟨rest, hrest⟩ := hfront
    change ∃ e, (p _ >>= fun r => f r.1 r.2) = .error e
    by_cases hshort : front <+: code ∧ front ≠ code
    · obtain ⟨e, he⟩ := hp.cut before front hshort.1 hshort.2
      exact ⟨e, by rw [he]; rfl⟩
    · -- The first code is whole, so the second is cut.
      have hsplit : ∃ front', front = code ++ front' ∧ code' = front' ++ rest := by
        rcases List.append_eq_append_iff.mp hrest with ⟨missing, hcode, hrest'⟩ | hsplit
        · have hwhole : front = code := by
            by_contra hcut
            exact hshort ⟨⟨missing, hcode.symm⟩, hcut⟩
          rw [hwhole, List.self_eq_append_right] at hcode
          exact ⟨[], by rw [hwhole, List.append_nil], by rw [hrest', hcode]; rfl⟩
        · exact hsplit
      obtain ⟨front', rfl, rfl⟩ := hsplit
      obtain ⟨e, he⟩ := hf.cut (before ++ code) front' (List.prefix_append _ _)
        fun heq => hne (by rw [← heq])
      rw [List.length_append, List.append_assoc] at he
      exact ⟨e, by rw [hp.whole before front', ← he]; rfl⟩

theorem map {p : Reader α ε β} {code : List α} {b : β} (hp : Decodes p code b)
    (g : β → γ) : Decodes (g <$> p) code (g b) := by
  have hbind := hp.bind (f := fun b => Pure.pure (g b)) (Decodes.pure (g b))
  rw [List.append_nil, bind_pure_comp] at hbind
  exact hbind

end Decodes

end Reader

/-! ## Little-endian numbers -/

/-- A number in a fixed number of bytes, the lowest first. -/
def leBytes : Nat → Nat → List UInt8
  | 0, _ => []
  | width + 1, n => UInt8.ofNat n :: leBytes width (n / 256)

def leValue : List UInt8 → Nat
  | [] => 0
  | b :: bs => b.toNat + 256 * leValue bs

@[simp] theorem length_leBytes (width n : Nat) : (leBytes width n).length = width := by
  induction width generalizing n with
  | zero => rfl
  | succ width ih => rw [leBytes, List.length_cons, ih]

theorem leValue_leBytes {width n : Nat} (h : n < 256 ^ width) :
    leValue (leBytes width n) = n := by
  induction width generalizing n with
  | zero =>
      rw [Nat.pow_zero, Nat.lt_one_iff] at h
      exact h.symm
  | succ width ih =>
      have hrest : n / 256 < 256 ^ width := Nat.div_lt_of_lt_mul (by rwa [← Nat.pow_succ'])
      rw [leBytes, leValue, ih hrest, UInt8.toNat_ofNat']
      omega
