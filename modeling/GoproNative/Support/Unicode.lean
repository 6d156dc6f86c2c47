import Mathlib.Data.List.Basic

/-!
# UTF-16, UTF-8 and hexadecimal digits

A text of UTF-16 units need not be the spelling of characters: a surrogate may stand alone.
`decode` puts the replacement character for such a unit, as an encoder to UTF-8 does.
-/

namespace Utf16

variable {u v : UInt16} {units : List UInt16}

def isHigh (u : UInt16) : Bool := 0xD800 ≤ u.toNat && u.toNat < 0xDC00

def isLow (u : UInt16) : Bool := 0xDC00 ≤ u.toNat && u.toNat < 0xE000

def ofChar (c : Char) : List UInt16 :=
  if c.toNat < 0x10000 then [.ofNat c.toNat]
  else
    let v := c.toNat - 0x10000
    [.ofNat (0xD800 + v / 0x400), .ofNat (0xDC00 + v % 0x400)]

def encode (text : List Char) : List UInt16 := text.flatMap ofChar

/-- The character of a unit outside of a pair. -/
def single (u : UInt16) : Char :=
  if isHigh u || isLow u then Char.ofNat 0xFFFD else Char.ofNat u.toNat

/-- The character of a pair. -/
def pair (u v : UInt16) : Char :=
  Char.ofNat (0x10000 + (u.toNat - 0xD800) * 0x400 + (v.toNat - 0xDC00))

def decode : List UInt16 → List Char
  | [] => []
  | [u] => [single u]
  | u :: v :: rest =>
      if isHigh u && isLow v then pair u v :: decode rest
      else single u :: decode (v :: rest)

theorem decode_cons (h : isHigh u = false) (rest : List UInt16) :
    decode (u :: rest) = single u :: decode rest := by
  rcases rest with _ | ⟨v, rest⟩
  · rfl
  · rw [decode, h, Bool.false_and, if_neg Bool.false_ne_true]

theorem decode_pair (hu : isHigh u = true) (hv : isLow v = true) (rest : List UInt16) :
    decode (u :: v :: rest) = pair u v :: decode rest := by
  rw [decode, hu, hv, Bool.true_and, if_pos rfl]

/-- A character is not a surrogate. -/
theorem toNat_valid (c : Char) :
    c.toNat < 0xD800 ∨ (0xDFFF < c.toNat ∧ c.toNat < 0x110000) :=
  c.valid

theorem toNat_ofNat {n : Nat} (h : n < 0xD800 ∨ (0xDFFF < n ∧ n < 0x110000)) :
    (Char.ofNat n).toNat = n := by
  rw [Char.ofNat, dif_pos h]
  rfl

theorem decode_ofChar_append (c : Char) (rest : List UInt16) :
    decode (ofChar c ++ rest) = c :: decode rest := by
  have hvalid := toNat_valid c
  rw [ofChar]
  split
  · next hsmall =>
    have hunit : (UInt16.ofNat c.toNat).toNat = c.toNat := by
      rw [UInt16.toNat_ofNat']
      omega
    have hhigh : isHigh (.ofNat c.toNat) = false := by
      rw [isHigh, hunit, Bool.and_eq_false_iff, decide_eq_false_iff_not,
        decide_eq_false_iff_not]
      omega
    have hlow : isLow (.ofNat c.toNat) = false := by
      rw [isLow, hunit, Bool.and_eq_false_iff, decide_eq_false_iff_not,
        decide_eq_false_iff_not]
      omega
    rw [List.singleton_append, decode_cons hhigh, single, hhigh, hlow, hunit,
      Bool.or_self, if_neg Bool.false_ne_true, Char.ofNat_toNat]
  · next hlarge =>
    let w := c.toNat - 0x10000
    have hfront : (UInt16.ofNat (0xD800 + w / 0x400)).toNat = 0xD800 + w / 0x400 := by
      rw [UInt16.toNat_ofNat']
      omega
    have hback : (UInt16.ofNat (0xDC00 + w % 0x400)).toNat = 0xDC00 + w % 0x400 := by
      rw [UInt16.toNat_ofNat']
      omega
    have hhigh : isHigh (.ofNat (0xD800 + w / 0x400)) = true := by
      rw [isHigh, hfront, Bool.and_eq_true, decide_eq_true_iff, decide_eq_true_iff]
      omega
    have hlow : isLow (.ofNat (0xDC00 + w % 0x400)) = true := by
      rw [isLow, hback, Bool.and_eq_true, decide_eq_true_iff, decide_eq_true_iff]
      omega
    have hsame : 0x10000 + (0xD800 + w / 0x400 - 0xD800) * 0x400 +
        (0xDC00 + w % 0x400 - 0xDC00) = c.toNat := by
      omega
    change decode (.ofNat (0xD800 + w / 0x400) :: .ofNat (0xDC00 + w % 0x400) :: rest) = _
    rw [decode_pair hhigh hlow, pair, hfront, hback, hsame, Char.ofNat_toNat]

@[simp] theorem decode_encode (text : List Char) : decode (encode text) = text := by
  induction text with
  | nil => rfl
  | cons c text ih => rw [encode, List.flatMap_cons, decode_ofChar_append, ← encode, ih]

/-- The units spell characters: every surrogate stands in a pair. -/
def Paired (units : List UInt16) : Prop := ∃ text, encode text = units

theorem paired_iff : Paired units ↔ encode (decode units) = units := by
  constructor
  · rintro ⟨text, rfl⟩
    rw [decode_encode]
  · intro h
    exact ⟨_, h⟩

instance : Decidable (Paired units) := decidable_of_iff _ paired_iff.symm

theorem Paired.append {units' : List UInt16} (h : Paired units) (h' : Paired units') :
    Paired (units ++ units') := by
  obtain ⟨text, rfl⟩ := h
  obtain ⟨text', rfl⟩ := h'
  exact ⟨text ++ text', List.flatMap_append⟩

theorem paired_single (hhigh : isHigh u = false) (hlow : isLow u = false) : Paired [u] := by
  have hunit : u.toNat < 0xD800 ∨ (0xDFFF < u.toNat ∧ u.toNat < 0x10000) := by
    have hsize := u.toNat_lt
    rw [isHigh, Bool.and_eq_false_iff, decide_eq_false_iff_not, decide_eq_false_iff_not]
      at hhigh
    rw [isLow, Bool.and_eq_false_iff, decide_eq_false_iff_not, decide_eq_false_iff_not]
      at hlow
    omega
  refine ⟨[Char.ofNat u.toNat], ?_⟩
  rw [encode, List.flatMap_singleton, ofChar, toNat_ofNat (by omega), if_pos (by omega),
    UInt16.ofNat_toNat]

/-- The unit is a character by itself. -/
def isPlain (u : UInt16) : Bool := !isHigh u && !isLow u

theorem paired_of_all (h : units.all isPlain = true) : Paired units := by
  induction units with
  | nil => exact ⟨[], rfl⟩
  | cons u rest ih =>
      rw [List.all_cons, Bool.and_eq_true, isPlain, Bool.and_eq_true, Bool.not_eq_true',
        Bool.not_eq_true'] at h
      exact (paired_single h.1.1 h.1.2).append (ih h.2)

theorem paired_pair (hhigh : isHigh u = true) (hlow : isLow v = true) : Paired [u, v] := by
  rw [isHigh, Bool.and_eq_true, decide_eq_true_iff, decide_eq_true_iff] at hhigh
  rw [isLow, Bool.and_eq_true, decide_eq_true_iff, decide_eq_true_iff] at hlow
  let n := 0x10000 + (u.toNat - 0xD800) * 0x400 + (v.toNat - 0xDC00)
  have hcode : (Char.ofNat n).toNat = n := toNat_ofNat (by omega)
  have hfront : 0xD800 + (n - 0x10000) / 0x400 = u.toNat := by omega
  have hback : 0xDC00 + (n - 0x10000) % 0x400 = v.toNat := by omega
  refine ⟨[Char.ofNat n], ?_⟩
  rw [encode, List.flatMap_singleton, ofChar, hcode, if_neg (by omega)]
  simp only [hfront, hback, UInt16.ofNat_toNat]

end Utf16

namespace Utf8

def encode (text : List Char) : List UInt8 := text.flatMap String.utf8EncodeChar

def decode (bytes : List UInt8) : Option (List Char) :=
  bytes.toByteArray.utf8Decode?.map Array.toList

@[simp] theorem decode_encode (text : List Char) : decode (encode text) = some text := by
  change text.utf8Encode.utf8Decode?.map Array.toList = some text
  rw [List.utf8Decode?_utf8Encode, Option.map_some]

end Utf8

namespace Hex

/-- The value of a digit, in either case. -/
def value (c : Char) : Option Nat :=
  if '0' ≤ c ∧ c ≤ '9' then some (c.toNat - 0x30)
  else if 'A' ≤ c ∧ c ≤ 'F' then some (c.toNat - 0x41 + 10)
  else if 'a' ≤ c ∧ c ≤ 'f' then some (c.toNat - 0x61 + 10)
  else none

theorem value_digitChar_toUpper : ∀ n < 16, value (Nat.digitChar n).toUpper = some n := by
  decide

end Hex
