import Mathlib.Data.Set.Function

/-!
# Maps behind names

A map from keys to values is read, written and deleted from.  A store that keeps the value
of a key under a name of it is a map from names.  This module says for which keys it is a
map from keys.
-/

namespace Keyed

variable {κ ν V : Type*}

inductive Op (κ V : Type*)
  | read (key : κ)
  | write (key : κ) (value : V)
  | delete (key : κ)

namespace Op

def key : Op κ V → κ
  | read k | write k _ | delete k => k

/-- The operation on the name of its key. -/
def rename (name : κ → ν) : Op κ V → Op ν V
  | read k => read (name k)
  | write k v => write (name k) v
  | delete k => delete (name k)

end Op

variable [DecidableEq κ] [DecidableEq ν] {name : κ → ν} {S : Set κ}

/-- The value last written under the key and not deleted since.  The operations are given
from the last one back. -/
def latest (key : κ) : List (Op κ V) → Option V
  | [] => none
  | .read _ :: earlier => latest key earlier
  | .write k v :: earlier => if k = key then some v else latest key earlier
  | .delete k :: earlier => if k = key then none else latest key earlier

/-- Where the names differ, a name has what its key has. -/
theorem latest_rename (hinj : S.InjOn name) {key : κ} (hkey : key ∈ S) {ops : List (Op κ V)}
    (hops : ∀ op ∈ ops, op.key ∈ S) :
    latest (name key) (ops.map (Op.rename name)) = latest key ops := by
  induction ops with
  | nil => rfl
  | cons op earlier ih =>
      obtain ⟨hop, hearlier⟩ := List.forall_mem_cons.mp hops
      have hsame : name op.key = name key ↔ op.key = key := hinj.eq_iff hop hkey
      rcases op with k | ⟨k, v⟩ | k
      · exact ih hearlier
      · exact if_congr hsame rfl (ih hearlier)
      · exact if_congr hsame rfl (ih hearlier)

/-- Where they do not, what is written under one key is read under another. -/
theorem injOn_of_latest_rename (v : V)
    (h : ∀ ops : List (Op κ V), (∀ op ∈ ops, op.key ∈ S) → ∀ key ∈ S,
      latest (name key) (ops.map (Op.rename name)) = latest key ops) : S.InjOn name := by
  intro a ha b hb hsame
  have hread := h [.write a v] (by simpa [Op.key] using ha) b hb
  by_contra hne
  have hleft : latest (name b) ([Op.write a v].map (Op.rename name)) = some v := if_pos hsame
  have hright : latest b [Op.write a v] = none := if_neg hne
  rw [hleft, hright] at hread
  exact absurd hread (Option.some_ne_none v)

end Keyed
