import GoproNative.Support.Unicode

/-!
# JSON objects of strings

An object is a list of names with a string or `null` each.  `encode` writes it without
blanks.  Quotes, backslashes and control characters of a string are escaped, and so is a
surrogate that stands alone, so the text spells characters whatever the strings hold.
`decode` reads an object with any escapes, and with blanks between its tokens.

The texts are lists of UTF-16 units.
-/

namespace Json

/-- A name with its value; `null` is `none`. -/
abbrev Member := List UInt16 × Option (List UInt16)

/-! ## Writing -/

def digit (n : Nat) : UInt16 := .ofNat (Nat.digitChar n).toNat

/-- `\u` and four digits. -/
def escapeCode (u : UInt16) : List UInt16 :=
  [0x5C, 0x75, digit (u.toNat / 0x1000), digit (u.toNat / 0x100 % 0x10),
    digit (u.toNat / 0x10 % 0x10), digit (u.toNat % 0x10)]

/-- The units that a letter behind a backslash stands for, with the letter. -/
def shortEscapes : List (UInt16 × UInt16) :=
  [(0x22, 0x22), (0x5C, 0x5C), (0x08, 0x62), (0x09, 0x74), (0x0A, 0x6E), (0x0C, 0x66),
    (0x0D, 0x72)]

/-- A unit outside of a pair. -/
def escapeUnit (u : UInt16) : List UInt16 :=
  match shortEscapes.find? fun p => p.1 = u with
  | some p => [0x5C, p.2]
  | none =>
      if u < 0x20 ∨ Utf16.isHigh u = true ∨ Utf16.isLow u = true then escapeCode u else [u]

def escape : List UInt16 → List UInt16
  | [] => []
  | [u] => escapeUnit u
  | u :: v :: rest =>
      if Utf16.isHigh u && Utf16.isLow v then u :: v :: escape rest
      else escapeUnit u ++ escape (v :: rest)

def encodeString (s : List UInt16) : List UInt16 := 0x22 :: (escape s ++ [0x22])

def null : List UInt16 := [0x6E, 0x75, 0x6C, 0x6C]

def encodeMember (m : Member) : List UInt16 :=
  encodeString m.1 ++ 0x3A :: (m.2.elim null encodeString)

def encode (members : List Member) : List UInt16 :=
  0x7B :: ([0x2C].intercalate (members.map encodeMember) ++ [0x7D])

/-! ## Reading -/

def isBlank (u : UInt16) : Bool := u ∈ [0x20, 0x09, 0x0A, 0x0D]

def skip (text : List UInt16) : List UInt16 := text.dropWhile isBlank

def digitValue (u : UInt16) : Option Nat := Hex.value (Char.ofNat u.toNat)

/-- The unit of a letter behind a backslash. -/
def letter (e : UInt16) : Option UInt16 :=
  if e = 0x2F then some e else (shortEscapes.find? fun p => p.2 = e).map Prod.fst

def push (u : UInt16) (read : List UInt16 × List UInt16) : List UInt16 × List UInt16 :=
  (u :: read.1, read.2)

/-- Where the reader of a string is. -/
inductive Mode
  | plain
  /-- Behind a backslash. -/
  | escaped
  /-- In a code, with the number of digits behind the next one, and the value so far. -/
  | code (missing : Nat) (read : Nat)

def stringFrom : Mode → List UInt16 → Option (List UInt16 × List UInt16)
  | _, [] => none
  | .plain, u :: rest =>
      if u = 0x22 then some ([], rest)
      else if u = 0x5C then stringFrom .escaped rest
      else if u < 0x20 then none
      else (stringFrom .plain rest).map (push u)
  | .escaped, u :: rest =>
      if u = 0x75 then stringFrom (.code 3 0) rest
      else (letter u).bind fun u => (stringFrom .plain rest).map (push u)
  | .code 0 read, u :: rest =>
      (digitValue u).bind fun d =>
        (stringFrom .plain rest).map (push (.ofNat (read * 0x10 + d)))
  | .code (missing + 1) read, u :: rest =>
      (digitValue u).bind fun d => stringFrom (.code missing (read * 0x10 + d)) rest

/-- The rest of a string behind the opening quote, and what stands behind the closing
one. -/
def string (text : List UInt16) : Option (List UInt16 × List UInt16) :=
  stringFrom .plain text

/-- What stands behind the token. -/
def expect (token : UInt16) (text : List UInt16) : Option (List UInt16) :=
  match skip text with
  | [] => none
  | u :: rest => if u = token then some rest else none

def value (text : List UInt16) : Option (Option (List UInt16) × List UInt16) :=
  if null <+: skip text then some (none, (skip text).drop 4)
  else do
    let rest ← expect 0x22 text
    let (s, rest) ← string rest
    return (some s, rest)

def member (text : List UInt16) : Option (Member × List UInt16) := do
  let rest ← expect 0x22 text
  let (name, rest) ← string rest
  let rest ← expect 0x3A rest
  let (v, rest) ← value rest
  return ((name, v), rest)

/-- At least one member, and the closing brace. -/
def members : Nat → List UInt16 → Option (List Member × List UInt16)
  | 0, _ => none
  | fuel + 1, text => do
      let (m, rest) ← member text
      match expect 0x2C rest with
      | some rest => do
          let (ms, rest) ← members fuel rest
          return (m :: ms, rest)
      | none => do
          let rest ← expect 0x7D rest
          return ([m], rest)

/-- Every member takes a unit at least, so the length of the text is fuel enough. -/
def decode (text : List UInt16) : Option (List Member) := do
  let rest ← expect 0x7B text
  let (ms, rest) ←
    match expect 0x7D rest with
    | some rest => some ([], rest)
    | none => members text.length rest
  if skip rest = [] then some ms else none

/-! ## Strings are read back -/

variable {u v : UInt16} {rest : List UInt16}

theorem string_plain (hquote : u ≠ 0x22) (hback : u ≠ 0x5C) (hcontrol : ¬u < 0x20)
    (rest : List UInt16) : string (u :: rest) = (string rest).map (push u) := by
  rw [string, stringFrom, if_neg hquote, if_neg hback, if_neg hcontrol]
  rfl

theorem string_letter {e : UInt16} (he : e ≠ 0x75) (h : letter e = some u)
    (rest : List UInt16) : string (0x5C :: e :: rest) = (string rest).map (push u) := by
  rw [string, stringFrom, if_neg (by decide), if_pos rfl, stringFrom, if_neg he, h]
  rfl

theorem digitValue_digit : ∀ n < 0x10, digitValue (digit n) = some n := by decide

theorem digit_plain : ∀ n < 0x10, Utf16.isPlain (digit n) = true := by decide

theorem string_escapeCode (u : UInt16) (rest : List UInt16) :
    string (escapeCode u ++ rest) = (string rest).map (push u) := by
  have hsize := u.toNat_lt
  have hsame : (((0 * 0x10 + u.toNat / 0x1000) * 0x10 + u.toNat / 0x100 % 0x10) * 0x10 +
      u.toNat / 0x10 % 0x10) * 0x10 + u.toNat % 0x10 = u.toNat := by omega
  rw [escapeCode, string]
  simp only [List.cons_append, List.nil_append]
  rw [stringFrom, if_neg (by decide), if_pos rfl, stringFrom, if_pos rfl,
    stringFrom, digitValue_digit _ (by omega), Option.bind_some,
    stringFrom, digitValue_digit _ (by omega), Option.bind_some,
    stringFrom, digitValue_digit _ (by omega), Option.bind_some,
    stringFrom, digitValue_digit _ (by omega), Option.bind_some, hsame, UInt16.ofNat_toNat]
  rfl

/-- What is escaped by a letter is read by it. -/
theorem shortEscapes_spec : shortEscapes.all (fun p =>
    p.2 != 0x75 && letter p.2 == some p.1 && Utf16.isPlain p.2) = true := by decide

theorem find_shortEscapes {p : UInt16 × UInt16}
    (h : (shortEscapes.find? fun p => p.1 = u) = some p) :
    p.2 ≠ 0x75 ∧ letter p.2 = some u ∧ Utf16.isPlain p.2 = true := by
  have hu : p.1 = u := by simpa using List.find?_some h
  have hspec := List.all_eq_true.mp shortEscapes_spec p (List.mem_of_find?_eq_some h)
  rw [Bool.and_eq_true, Bool.and_eq_true, bne_iff_ne, beq_iff_eq, hu] at hspec
  exact ⟨hspec.1.1, hspec.1.2, hspec.2⟩

theorem string_escapeUnit (u : UInt16) (rest : List UInt16) :
    string (escapeUnit u ++ rest) = (string rest).map (push u) := by
  rw [escapeUnit]
  split
  · next p hfind =>
    obtain ⟨hcode, hletter, -⟩ := find_shortEscapes hfind
    exact string_letter hcode hletter rest
  · next hfind =>
    split
    · exact string_escapeCode u rest
    · next hplain =>
      rw [not_or] at hplain
      apply string_plain
      · rintro rfl
        exact absurd hfind (by decide)
      · rintro rfl
        exact absurd hfind (by decide)
      · exact hplain.1

/-- A surrogate has no meaning in a string. -/
theorem string_surrogate (h : Utf16.isHigh u = true ∨ Utf16.isLow u = true)
    (rest : List UInt16) : string (u :: rest) = (string rest).map (push u) := by
  apply string_plain
  · rintro rfl
    exact absurd h (by decide)
  · rintro rfl
    exact absurd h (by decide)
  · intro hlt
    rw [UInt16.lt_iff_toNat_lt] at hlt
    change u.toNat < 32 at hlt
    rw [Utf16.isHigh, Utf16.isLow, Bool.and_eq_true, Bool.and_eq_true, decide_eq_true_iff,
      decide_eq_true_iff, decide_eq_true_iff, decide_eq_true_iff] at h
    omega

theorem string_escape (s rest : List UInt16) :
    string (escape s ++ 0x22 :: rest) = some (s, rest) := by
  induction s using escape.induct with
  | case1 => rfl
  | case2 u =>
      rw [escape, string_escapeUnit]
      rfl
  | case3 u v s hpair ih =>
      rw [Bool.and_eq_true] at hpair
      rw [escape, if_pos (Bool.and_eq_true _ _ ▸ hpair), List.cons_append, List.cons_append,
        string_surrogate (.inl hpair.1), string_surrogate (.inr hpair.2), ih]
      rfl
  | case4 u v s hpair ih =>
      rw [escape, if_neg hpair, List.append_assoc, string_escapeUnit, ih]
      rfl

/-! ## Objects are read back -/

theorem expect_cons (token : UInt16) (h : isBlank u = false) (rest : List UInt16) :
    expect token (u :: rest) = if u = token then some rest else none := by
  rw [expect, skip, List.dropWhile_cons_of_neg (by simp [h])]

theorem expect_encodeString (s rest : List UInt16) :
    expect 0x22 (encodeString s ++ rest) = some (escape s ++ 0x22 :: rest) := by
  rw [encodeString, List.cons_append, expect_cons _ (by decide), if_pos rfl,
    List.append_assoc, List.singleton_append]

theorem value_encode (v : Option (List UInt16)) (rest : List UInt16) :
    value (v.elim null encodeString ++ rest) = some (v, rest) := by
  rcases v with _ | s
  · have hskip : skip (null ++ rest) = null ++ rest := rfl
    rw [Option.elim_none, value, hskip, if_pos (List.prefix_append null rest)]
    rfl
  · have hno : ¬null <+: skip (encodeString s ++ rest) := by
      rintro ⟨t, ht⟩
      exact absurd (List.cons.inj ht).1 (by decide)
    rw [Option.elim_some, value, if_neg hno, expect_encodeString]
    change (string _).bind _ = _
    rw [string_escape]
    rfl

theorem member_encodeMember (m : Member) (rest : List UInt16) :
    member (encodeMember m ++ rest) = some (m, rest) := by
  have hcolon : expect 0x3A (0x3A :: (m.2.elim null encodeString ++ rest)) =
      some (m.2.elim null encodeString ++ rest) := rfl
  rw [member, encodeMember, List.append_assoc, List.cons_append, expect_encodeString]
  simp only [Option.bind_eq_bind, Option.bind_some, string_escape, hcolon, value_encode]
  rfl

theorem members_encode (m : Member) (ms : List Member) (rest : List UInt16) :
    ∀ fuel, ms.length < fuel →
      members fuel ([0x2C].intercalate ((m :: ms).map encodeMember) ++ 0x7D :: rest) =
        some (m :: ms, rest) := by
  induction ms generalizing m with
  | nil =>
      intro fuel hfuel
      obtain ⟨fuel, rfl⟩ := Nat.exists_eq_succ_of_ne_zero (Nat.ne_zero_of_lt hfuel)
      rw [List.map_singleton, List.intercalate_singleton, members, member_encodeMember]
      rfl
  | cons m' ms ih =>
      intro fuel hfuel
      obtain ⟨fuel, rfl⟩ := Nat.exists_eq_succ_of_ne_zero (Nat.ne_zero_of_lt hfuel)
      have hlater := ih m' fuel (by simpa using hfuel)
      rw [List.map_cons, List.map_cons, List.intercalate_cons_cons, List.append_assoc,
        List.append_assoc, members, member_encodeMember]
      change (members fuel ([0x2C].intercalate ((m' :: ms).map encodeMember) ++
        0x7D :: rest)).bind _ = _
      rw [hlater]
      rfl

/-- A member has a quote at least. -/
theorem length_le_intercalate (m : Member) (ms : List Member) :
    ms.length < ([0x2C].intercalate ((m :: ms).map encodeMember)).length := by
  have hquote : ∀ m : Member, 0 < (encodeMember m).length := fun m => Nat.succ_pos _
  induction ms generalizing m with
  | nil =>
      rw [List.map_singleton, List.intercalate_singleton]
      exact hquote m
  | cons m' ms ih =>
      have hlater := ih m'
      have hfirst := hquote m
      rw [List.map_cons, List.map_cons, List.intercalate_cons_cons, List.length_append,
        List.length_append, List.length_cons, ← List.map_cons]
      omega

/-- What is written is read back. -/
theorem decode_encode (ms : List Member) : decode (encode ms) = some ms := by
  have hopen : ∀ rest, expect 0x7B (0x7B :: rest) = some rest := fun _ => rfl
  rw [decode, encode, hopen]
  rcases ms with _ | ⟨m, ms⟩
  · rfl
  · have hmember : expect 0x7D ([0x2C].intercalate ((m :: ms).map encodeMember) ++ [0x7D]) =
        none := by
      rcases ms with _ | ⟨m', ms⟩
      · rfl
      · rfl
    have hfuel := length_le_intercalate m ms
    have hread := members_encode m ms [] _ (Nat.lt_add_right 2 hfuel)
    have hlength : (0x7B :: ([0x2C].intercalate ((m :: ms).map encodeMember) ++
        [(0x7D : UInt16)])).length =
        ([0x2C].intercalate ((m :: ms).map encodeMember)).length + 2 := by
      rw [List.length_cons, List.length_append]
      rfl
    simp only [Option.bind_eq_bind, Option.bind_some, hmember, hlength, hread]
    rfl

/-! ## What is written spells characters -/

open Utf16 (Paired)

theorem paired_escapeCode (u : UInt16) : Paired (escapeCode u) := by
  have hsize := u.toNat_lt
  apply Utf16.paired_of_all
  rw [escapeCode]
  simp only [List.all_cons, List.all_nil, Bool.and_true, Bool.and_eq_true]
  exact ⟨by decide, by decide, digit_plain _ (by omega), digit_plain _ (by omega),
    digit_plain _ (by omega), digit_plain _ (by omega)⟩

theorem paired_escapeUnit (u : UInt16) : Paired (escapeUnit u) := by
  rw [escapeUnit]
  split
  · next p hfind =>
    apply Utf16.paired_of_all
    simp only [List.all_cons, List.all_nil, Bool.and_true, Bool.and_eq_true]
    exact ⟨by decide, (find_shortEscapes hfind).2.2⟩
  · split
    · exact paired_escapeCode u
    · next hplain =>
      rw [not_or, not_or, Bool.not_eq_true, Bool.not_eq_true] at hplain
      exact Utf16.paired_single hplain.2.1 hplain.2.2

theorem paired_escape (s : List UInt16) : Paired (escape s) := by
  induction s using escape.induct with
  | case1 => exact ⟨[], rfl⟩
  | case2 u => exact paired_escapeUnit u
  | case3 u v s hpair ih =>
      rw [escape, if_pos hpair]
      rw [Bool.and_eq_true] at hpair
      exact (Utf16.paired_pair hpair.1 hpair.2).append ih
  | case4 u v s hpair ih =>
      rw [escape, if_neg hpair]
      exact (paired_escapeUnit u).append ih

theorem paired_encodeString (s : List UInt16) : Paired (encodeString s) := by
  have hquote : Paired [0x22] := Utf16.paired_of_all (by decide)
  exact hquote.append ((paired_escape s).append hquote)

theorem paired_encodeMember (m : Member) : Paired (encodeMember m) := by
  have hcolon : Paired [0x3A] := Utf16.paired_of_all (by decide)
  have hvalue : Paired (m.2.elim null encodeString) := by
    rcases m.2 with _ | s
    · exact Utf16.paired_of_all (by decide)
    · exact paired_encodeString s
  exact (paired_encodeString m.1).append (hcolon.append hvalue)

theorem paired_members (ms : List Member) :
    Paired ([0x2C].intercalate (ms.map encodeMember)) := by
  have hcomma : Paired [0x2C] := Utf16.paired_of_all (by decide)
  rcases ms with _ | ⟨m, ms⟩
  · exact ⟨[], rfl⟩
  · induction ms generalizing m with
    | nil =>
        rw [List.map_singleton, List.intercalate_singleton]
        exact paired_encodeMember m
    | cons m' ms ih =>
        rw [List.map_cons, List.map_cons, List.intercalate_cons_cons]
        exact ((paired_encodeMember m).append hcomma).append (ih m')

theorem paired_encode (ms : List Member) : Paired (encode ms) := by
  have hopen : Paired [0x7B] := Utf16.paired_of_all (by decide)
  have hclose : Paired [0x7D] := Utf16.paired_of_all (by decide)
  exact hopen.append ((paired_members ms).append hclose)

end Json
