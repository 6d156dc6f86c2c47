import GoproNative.Http.Definitions
import Mathlib.Data.List.Forall2

/-!
# What a request URL says

The camera parses the query: it splits it at every `&`, each part at its first `=`, and
decodes the escapes of what it finds.  The path is given by its segments.  This module says
which path and which arguments a call asks for, and when `HttpMessage.url` builds a URL that
says so.
-/

namespace GoproNative

/-! ## Segments -/

/-- The segments are the parts of the text between its slashes that are not empty. -/
inductive Spells : List Text → Text → Prop
  | nil : Spells [] []
  | slash {segments text} (h : Spells segments text) : Spells segments (0x2F :: text)
  | last {segment} (hne : segment ≠ []) (hno : 0x2F ∉ segment) : Spells [segment] segment
  | segment {segment segments text} (hne : segment ≠ []) (hno : 0x2F ∉ segment)
      (h : Spells segments text) : Spells (segment :: segments) (segment ++ 0x2F :: text)

theorem segmentsOf_slash (text : Text) : segmentsOf (0x2F :: text) = segmentsOf text := by
  have hsplit := List.splitOn_append_cons_self_of_not_mem (a := (0x2F : UInt16))
    List.not_mem_nil text
  rw [List.nil_append] at hsplit
  simp [segmentsOf, hsplit]

theorem segmentsOf_last {segment : Text} (hne : segment ≠ []) (hno : 0x2F ∉ segment) :
    segmentsOf segment = [segment] := by
  simp [segmentsOf, List.splitOn_eq_singleton hno, hne]

theorem segmentsOf_segment {segment : Text} (hne : segment ≠ []) (hno : 0x2F ∉ segment)
    (text : Text) : segmentsOf (segment ++ 0x2F :: text) = segment :: segmentsOf text := by
  simp [segmentsOf, List.splitOn_append_cons_self_of_not_mem hno, hne]

theorem spells_segmentsOf (text : Text) : Spells (segmentsOf text) text := by
  induction hlength : text.length using Nat.strongRecOn generalizing text with
  | _ n ih =>
    by_cases hslash : 0x2F ∈ text
    · obtain ⟨front, rest, rfl, hno⟩ := List.eq_append_cons_of_mem hslash
      have hshort : rest.length < n := by
        rw [← hlength, List.length_append, List.length_cons]
        omega
      have hrest := ih _ hshort rest rfl
      by_cases hne : front = []
      · rw [hne, List.nil_append, segmentsOf_slash]
        exact .slash hrest
      · rw [segmentsOf_segment hne hno]
        exact .segment hne hno hrest
    · by_cases hne : text = []
      · rw [hne]
        exact .nil
      · rw [segmentsOf_last hne hslash]
        exact .last hne hslash

/-- A text has a segment where it does not consist of slashes. -/
theorem Spells.ne_nil_iff {segments : List Text} {text : Text} (h : Spells segments text) :
    segments ≠ [] ↔ ∃ u ∈ text, u ≠ 0x2F := by
  induction h with
  | nil => simp
  | slash _ ih => simpa using ih
  | last hne hno =>
      obtain ⟨u, hu⟩ := List.exists_mem_of_ne_nil _ hne
      refine iff_of_true (List.cons_ne_nil _ _) ⟨u, hu, ?_⟩
      rintro rfl
      exact hno hu
  | segment hne hno _ _ =>
      obtain ⟨u, hu⟩ := List.exists_mem_of_ne_nil _ hne
      refine iff_of_true (List.cons_ne_nil _ _) ⟨u, List.mem_append_left _ hu, ?_⟩
      rintro rfl
      exact hno hu

/-! ## Reading a query -/

/-- The bytes behind percent escapes; `none` at a text that is not such. -/
def unescape : List Char → Option (List UInt8)
  | [] => some []
  | '%' :: a :: b :: rest =>
      match Hex.value a, Hex.value b with
      | some high, some low => (unescape rest).map (.ofNat (high * 16 + low) :: ·)
      | _, _ => none
  | c :: rest =>
      if c = '%' ∨ 0x80 ≤ c.toNat then none else (unescape rest).map (.ofNat c.toNat :: ·)

/-- `Uri.decodeComponent`. -/
def decodeComponent (part : List Char) : Option Text := do
  let bytes ← unescape part
  let text ← Utf8.decode bytes
  return Utf16.encode text

/-- A part of a query: a name, and behind the first `=` a value. -/
def decodeArgument (part : List Char) : Option (Text × Text) := do
  let name ← decodeComponent (part.takeWhile (· ≠ '='))
  let value ← decodeComponent ((part.dropWhile (· ≠ '=')).drop 1)
  return (name, value)

/-- The arguments of a query, in order.  There are none where there is no query, or an empty
one. -/
def decodeQuery : Option String → Option (List (Text × Text))
  | none => some []
  | some query =>
      if query = "" then some [] else (query.toList.splitOn '&').mapM decodeArgument

/-! ## Escapes -/

/-- What the encoder writes for a byte. -/
def escapeByte (b : UInt8) : List Char :=
  if unreserved b then [Char.ofNat b.toNat]
  else ['%', hexDigit (b.toNat / 16), hexDigit (b.toNat % 16)]

/-- What is left of that in a query. -/
def spellByte (b : UInt8) : List Char := if b = 0x2F then ['/'] else escapeByte b

/-- A byte that is left alone is not one that has a meaning in a query. -/
theorem unreserved_plain : ∀ b : UInt8, unreserved b = true →
    (Char.ofNat b.toNat).toNat = b.toNat ∧ b.toNat < 0x80 ∧
      Char.ofNat b.toNat ≠ '%' ∧ Char.ofNat b.toNat ≠ '&' ∧ Char.ofNat b.toNat ≠ '=' :=
  forall_byte (P := fun b => unreserved b = true →
    (Char.ofNat b.toNat).toNat = b.toNat ∧ b.toNat < 0x80 ∧
      Char.ofNat b.toNat ≠ '%' ∧ Char.ofNat b.toNat ≠ '&' ∧ Char.ofNat b.toNat ≠ '=')
    (by decide +kernel)

theorem value_hexDigit : ∀ n < 16, Hex.value (hexDigit n) = some n :=
  Hex.value_digitChar_toUpper

theorem hexDigit_plain : ∀ n < 16,
    hexDigit n ≠ '%' ∧ hexDigit n ≠ '&' ∧ hexDigit n ≠ '=' := by decide

theorem hexDigit_inj {m n : Nat} (hm : m < 16) (hn : n < 16) (h : hexDigit m = hexDigit n) :
    m = n := by
  have hvalue := congrArg Hex.value h
  rw [value_hexDigit m hm, value_hexDigit n hn] at hvalue
  exact Option.some.inj hvalue

theorem restoreSlashes_cons {c : Char} (h : c ≠ '%') (rest : List Char) :
    restoreSlashes (c :: rest) = c :: restoreSlashes rest := by
  rw [restoreSlashes]
  rintro rest' rfl
  exact absurd rfl h

/-- The replacement in the encoded text puts a slash where a byte is one, and nowhere
else. -/
theorem restoreSlashes_escapeByte (b : UInt8) (rest : List Char) :
    restoreSlashes (escapeByte b ++ rest) = spellByte b ++ restoreSlashes rest := by
  by_cases hslash : b = 0x2F
  · rw [hslash]
    rfl
  rw [spellByte, if_neg hslash, escapeByte]
  split
  · next hfree =>
    obtain ⟨-, -, hpercent, -⟩ := unreserved_plain b hfree
    exact restoreSlashes_cons hpercent rest
  · have hb := b.toNat_lt
    have hhigh : b.toNat / 16 < 16 := by omega
    have hlow : b.toNat % 16 < 16 := by omega
    have hhighPlain := (hexDigit_plain _ hhigh).1
    have hlowPlain := (hexDigit_plain _ hlow).1
    change restoreSlashes ('%' :: hexDigit (b.toNat / 16) :: hexDigit (b.toNat % 16) :: rest) = _
    rw [restoreSlashes, restoreSlashes_cons hhighPlain, restoreSlashes_cons hlowPlain]
    · rfl
    · -- the digits are those of a slash for a slash only
      intro rest' hpercent hdigits
      obtain ⟨htwo, hdigits⟩ := List.cons.inj hdigits
      obtain ⟨hfifteen, -⟩ := List.cons.inj hdigits
      have hhighIs := hexDigit_inj hhigh (n := 2) (by omega) htwo
      have hlowIs := hexDigit_inj hlow (n := 15) (by omega) hfifteen
      apply hslash
      rw [← UInt8.toNat_inj]
      change b.toNat = 47
      omega

theorem restoreSlashes_flatMap (bytes : List UInt8) :
    restoreSlashes (bytes.flatMap escapeByte) = bytes.flatMap spellByte := by
  induction bytes with
  | nil => rfl
  | cons b bytes ih =>
      rw [List.flatMap_cons, restoreSlashes_escapeByte, ih, List.flatMap_cons]

theorem unescape_cons {c : Char} (h : c ≠ '%') (hascii : c.toNat < 0x80) (rest : List Char) :
    unescape (c :: rest) = (unescape rest).map (.ofNat c.toNat :: ·) := by
  rw [unescape, if_neg]
  · rintro (heq | hle)
    · exact h heq
    · omega
  · rintro a b rest' rfl
    exact absurd rfl h

theorem unescape_spellByte (b : UInt8) (rest : List Char) :
    unescape (spellByte b ++ rest) = (unescape rest).map (b :: ·) := by
  rw [spellByte]
  split
  · next hslash =>
    rw [hslash]
    exact unescape_cons (by decide) (by decide) rest
  · rw [escapeByte]
    split
    · next hfree =>
      obtain ⟨hsame, hascii, hpercent, -⟩ := unreserved_plain b hfree
      rw [List.singleton_append, unescape_cons hpercent (by rwa [hsame]), hsame,
        UInt8.ofNat_toNat]
    · have hb := b.toNat_lt
      have hhigh : b.toNat / 16 < 16 := by omega
      have hlow : b.toNat % 16 < 16 := by omega
      have hsame : b.toNat / 16 * 16 + b.toNat % 16 = b.toNat := by omega
      change unescape
        ('%' :: hexDigit (b.toNat / 16) :: hexDigit (b.toNat % 16) :: rest) = _
      rw [unescape, value_hexDigit _ hhigh, value_hexDigit _ hlow]
      simp only [hsame, UInt8.ofNat_toNat]

theorem unescape_flatMap (bytes : List UInt8) :
    unescape (bytes.flatMap spellByte) = some bytes := by
  induction bytes with
  | nil => rfl
  | cons b bytes ih => rw [List.flatMap_cons, unescape_spellByte, ih, Option.map_some]

/-- No byte is spelled by what separates the arguments. -/
theorem spellByte_plain (b : UInt8) : ∀ c ∈ spellByte b, c ≠ '&' ∧ c ≠ '=' := by
  intro c hc
  rw [spellByte] at hc
  split at hc
  · obtain rfl := List.mem_singleton.mp hc
    decide
  · rw [escapeByte] at hc
    split at hc
    · next hfree =>
      obtain rfl := List.mem_singleton.mp hc
      exact (unreserved_plain b hfree).2.2.2
    · have hb := b.toNat_lt
      simp only [List.mem_cons, List.not_mem_nil, or_false] at hc
      rcases hc with rfl | rfl | rfl
      · decide
      · exact (hexDigit_plain (b.toNat / 16) (by omega)).2
      · exact (hexDigit_plain (b.toNat % 16) (by omega)).2

/-! ## What is read back -/

/-- The text without its lone surrogates. -/
def clean (text : Text) : Text := Utf16.encode (Utf16.decode text)

theorem clean_eq_iff (text : Text) : clean text = text ↔ Utf16.Paired text :=
  Utf16.paired_iff.symm

theorem toList_encodeQuery (text : Text) :
    (encodeQuery text).toList = (Utf8.encode (Utf16.decode text)).flatMap spellByte := by
  rw [encodeQuery, String.toList_ofList]
  exact restoreSlashes_flatMap _

example : encodeQuery (utf16 "100GOPRO/a b&c=d") = "100GOPRO/a%20b%26c%3Dd" := by decide +kernel

theorem encodeQuery_plain (text : Text) :
    ∀ c ∈ (encodeQuery text).toList, c ≠ '&' ∧ c ≠ '=' := by
  intro c hc
  rw [toList_encodeQuery] at hc
  obtain ⟨b, -, hb⟩ := List.mem_flatMap.mp hc
  exact spellByte_plain b c hb

theorem decodeComponent_encodeQuery (text : Text) :
    decodeComponent (encodeQuery text).toList = some (clean text) := by
  rw [toList_encodeQuery, decodeComponent, unescape_flatMap]
  change (Utf8.decode (Utf8.encode (Utf16.decode text))).bind _ = _
  rw [Utf8.decode_encode]
  rfl

/-- The part of a query that an argument makes. -/
def queryPart (argument : Text × Text) : String :=
  encodeQuery argument.1 ++ "=" ++ encodeQuery argument.2

theorem toList_queryPart (argument : Text × Text) :
    (queryPart argument).toList =
      (encodeQuery argument.1).toList ++ '=' :: (encodeQuery argument.2).toList := by
  simp [queryPart]

theorem decodeArgument_queryPart (argument : Text × Text) :
    decodeArgument (queryPart argument).toList =
      some (clean argument.1, clean argument.2) := by
  have hname : ∀ c ∈ (encodeQuery argument.1).toList, decide (c ≠ '=') = true := by
    intro c hc
    exact decide_eq_true (encodeQuery_plain _ c hc).2
  rw [decodeArgument, toList_queryPart, List.takeWhile_append_of_pos hname,
    List.dropWhile_append_of_pos hname, List.takeWhile_cons_of_neg (by decide),
    List.dropWhile_cons_of_neg (by decide), List.append_nil, List.drop_one, List.tail_cons,
    decodeComponent_encodeQuery, decodeComponent_encodeQuery]
  rfl

theorem amp_not_mem_queryPart (argument : Text × Text) :
    '&' ∉ (queryPart argument).toList := by
  rw [toList_queryPart, List.mem_append, List.mem_cons]
  rintro (hname | heq | hvalue)
  · exact (encodeQuery_plain _ _ hname).1 rfl
  · exact absurd heq (by decide)
  · exact (encodeQuery_plain _ _ hvalue).1 rfl

/-- The arguments are read back as they were, without their lone surrogates. -/
theorem decodeQuery_queryParts {arguments : List (Text × Text)} (hne : arguments ≠ []) :
    decodeQuery (some ("&".intercalate (arguments.map queryPart))) =
      some (arguments.map fun argument => (clean argument.1, clean argument.2)) := by
  have hlist : ("&".intercalate (arguments.map queryPart)).toList =
      ['&'].intercalate (arguments.map fun argument => (queryPart argument).toList) := by
    rw [String.toList_intercalate, List.map_map]
    rfl
  have hsplit : ("&".intercalate (arguments.map queryPart)).toList.splitOn '&' =
      arguments.map fun argument => (queryPart argument).toList := by
    rw [hlist]
    apply List.splitOn_intercalate
    · intro part hpart
      obtain ⟨argument, -, rfl⟩ := List.mem_map.mp hpart
      exact amp_not_mem_queryPart argument
    · rwa [ne_eq, List.map_eq_nil_iff]
  have hsome : "&".intercalate (arguments.map queryPart) ≠ "" := by
    intro hempty
    rw [hempty] at hsplit
    rcases arguments with _ | ⟨argument, rest⟩
    · exact hne rfl
    · have hpart : [] = (queryPart argument).toList := (List.cons.inj hsplit).1
      rw [toList_queryPart] at hpart
      simp at hpart
  rw [decodeQuery, if_neg hsome, hsplit]
  clear hlist hsplit hsome hne
  induction arguments with
  | nil => rfl
  | cons argument rest ih =>
      rw [List.map_cons, List.mapM_cons, decodeArgument_queryPart, ih]
      rfl

/-- A query in which nothing is read is none, or empty. -/
theorem decodeQuery_eq_nil_iff (query : Option String) :
    decodeQuery query = some [] ↔ query = none ∨ query = some "" := by
  rcases query with _ | query
  · simp [decodeQuery]
  · rw [decodeQuery]
    split
    · next hempty => simp [hempty]
    · next hsome =>
      refine iff_of_false ?_ (by simp [hsome])
      intro hread
      obtain ⟨part, parts, hsplit⟩ :=
        List.exists_cons_of_ne_nil (List.splitOn_ne_nil '&' query.toList)
      rw [hsplit, List.mapM_cons] at hread
      simp [Option.bind_eq_some_iff] at hread

/-! ## The URL of a call -/

namespace HttpMessage

variable {m : HttpMessage} {base : Uri} {values : Text → Option Text}

/-- The arguments of a call that have a value. -/
def argumentsOf (m : HttpMessage) (values : Text → Option Text) : List (Text × Text) :=
  m.arguments.filterMap fun a => (values a).map (a, ·)

/-- The URL says what the caller asked: behind the endpoint, at least one segment for each
component, which spell its value; and the arguments that have a value. -/
structure Says (m : HttpMessage) (values : Text → Option Text) (uri : Uri) : Prop where
  path : ∃ front spelled, uri.pathSegments = front ++ spelled.flatten ∧
    Spells front m.endpoint ∧
    m.components.Forall₂ (fun c segments =>
      segments ≠ [] ∧ ∃ v, values c = some v ∧ Spells segments v) spelled
  query : decodeQuery uri.query = some (m.argumentsOf values)

/-- The call is refused, or its URL says what was asked. -/
def Exact (m : HttpMessage) (base : Uri) (values : Text → Option Text) : Prop :=
  match m.url base values with
  | .error e => ∃ message, e = .argumentError message
  | .ok uri => m.Says values uri

theorem componentSegments_missing {components : List Text}
    (h : ∃ c ∈ components, values c = none) :
    ∃ message, m.componentSegments values components = .error (.argumentError message) := by
  induction components with
  | nil => simp at h
  | cons c rest ih =>
      rw [componentSegments]
      split
      · exact ⟨_, rfl⟩
      · next v hv =>
        have hrest : ∃ c ∈ rest, values c = none := by
          obtain ⟨c', hmem, hnone⟩ := h
          rcases List.mem_cons.mp hmem with rfl | hmem
          · rw [hv] at hnone
            exact absurd hnone (by simp)
          · exact ⟨c', hmem, hnone⟩
        obtain ⟨message, hmessage⟩ := ih hrest
        exact ⟨message, by rw [hmessage]; rfl⟩

theorem componentSegments_spelled {components : List Text}
    (h : ∀ c ∈ components, values c ≠ none) :
    ∃ spelled, m.componentSegments values components = .ok spelled.flatten ∧
      components.Forall₂ (fun c segments => ∃ v, values c = some v ∧ Spells segments v)
        spelled := by
  induction components with
  | nil => exact ⟨[], rfl, .nil⟩
  | cons c rest ih =>
      obtain ⟨v, hv⟩ := Option.ne_none_iff_exists'.mp (h c List.mem_cons_self)
      obtain ⟨spelled, hrest, hall⟩ := ih fun c' hmem => h c' (List.mem_cons_of_mem c hmem)
      refine ⟨segmentsOf v :: spelled, ?_, .cons ⟨v, hv, spells_segmentsOf v⟩ hall⟩
      rw [componentSegments, hv]
      simp [hrest, Except.map]

theorem queryParts_eq (m : HttpMessage) (values : Text → Option Text) :
    m.queryParts values = (m.argumentsOf values).map queryPart := by
  rw [queryParts, argumentsOf, List.map_filterMap]
  congr 1
  funext a
  rw [Option.map_map]
  rfl

theorem mem_argumentsOf {argument : Text × Text} :
    argument ∈ m.argumentsOf values ↔
      argument.1 ∈ m.arguments ∧ values argument.1 = some argument.2 := by
  rcases argument with ⟨a, v⟩
  simp only [argumentsOf, List.mem_filterMap, Option.map_eq_some_iff, Prod.mk.injEq]
  constructor
  · rintro ⟨a', hmem, v', hv, rfl, rfl⟩
    exact ⟨hmem, hv⟩
  · rintro ⟨hmem, hv⟩
    exact ⟨a, hmem, v, hv, rfl, rfl⟩

/-! ## When it says so -/

/-- What a call needs for its URL to say what was asked: no component is empty or made of
slashes, what becomes an argument has no lone surrogate, and the query of the base does not
stay. -/
structure Expressible (m : HttpMessage) (base : Uri) (values : Text → Option Text) :
    Prop where
  components : ∀ c ∈ m.components, ∀ v, values c = some v → ∃ u ∈ v, u ≠ 0x2F
  arguments : ∀ a ∈ m.arguments, ∀ v, values a = some v → Utf16.Paired a ∧ Utf16.Paired v
  query : (∃ a ∈ m.arguments, values a ≠ none) ∨ base.query = none ∨ base.query = some ""

theorem spelled_iff {c : Text} {segments : List Text} :
    (segments ≠ [] ∧ ∃ v, values c = some v ∧ Spells segments v) ↔
      (∀ v, values c = some v → ∃ u ∈ v, u ≠ 0x2F) ∧
        ∃ v, values c = some v ∧ Spells segments v := by
  constructor
  · rintro ⟨hne, v, hv, hspells⟩
    refine ⟨?_, v, hv, hspells⟩
    intro v' hv'
    obtain rfl := Option.some.inj (hv.symm.trans hv')
    exact hspells.ne_nil_iff.mp hne
  · rintro ⟨hall, v, hv, hspells⟩
    exact ⟨hspells.ne_nil_iff.mpr (hall v hv), v, hv, hspells⟩

/-- Every component has a segment where each has something besides slashes. -/
theorem forall₂_spelled_iff {spelled : List (List Text)} :
    m.components.Forall₂ (fun c segments =>
      segments ≠ [] ∧ ∃ v, values c = some v ∧ Spells segments v) spelled ↔
      (∀ c ∈ m.components, ∀ v, values c = some v → ∃ u ∈ v, u ≠ 0x2F) ∧
        m.components.Forall₂ (fun c segments => ∃ v, values c = some v ∧ Spells segments v)
          spelled := by
  rw [← List.forall₂_and_left]
  constructor
  · exact fun h => h.imp fun _ _ => spelled_iff.mp
  · exact fun h => h.imp fun _ _ => spelled_iff.mpr

theorem argumentsOf_eq_nil_iff : m.argumentsOf values = [] ↔
    ¬∃ a ∈ m.arguments, values a ≠ none := by
  simp [argumentsOf, List.filterMap_eq_nil_iff]

/-- The arguments survive the encoding where they have no lone surrogates. -/
theorem map_clean_argumentsOf_iff :
    ((m.argumentsOf values).map fun a => (clean a.1, clean a.2)) = m.argumentsOf values ↔
      ∀ a ∈ m.arguments, ∀ v, values a = some v → Utf16.Paired a ∧ Utf16.Paired v := by
  have hfixed := List.map_inj_left (f := fun a : Text × Text => (clean a.1, clean a.2))
    (g := id) (l := m.argumentsOf values)
  rw [List.map_id] at hfixed
  rw [hfixed]
  constructor
  · intro hall a hmem v hv
    have hsame := hall (a, v) (mem_argumentsOf.mpr ⟨hmem, hv⟩)
    rw [id_eq, Prod.mk.injEq, clean_eq_iff, clean_eq_iff] at hsame
    exact hsame
  · rintro hall ⟨a, v⟩ hmem
    obtain ⟨hmem, hv⟩ := mem_argumentsOf.mp hmem
    obtain ⟨hname, hvalue⟩ := hall a hmem v hv
    rw [id_eq, Prod.mk.injEq, clean_eq_iff, clean_eq_iff]
    exact ⟨hname, hvalue⟩

/-- The query of the URL says which arguments have a value. -/
theorem decodeQuery_url_iff :
    decodeQuery (if m.queryParts values = [] then base.query
      else some ("&".intercalate (m.queryParts values))) = some (m.argumentsOf values) ↔
      (∀ a ∈ m.arguments, ∀ v, values a = some v → Utf16.Paired a ∧ Utf16.Paired v) ∧
        ((∃ a ∈ m.arguments, values a ≠ none) ∨
          base.query = none ∨ base.query = some "") := by
  rw [← map_clean_argumentsOf_iff]
  by_cases hempty : m.argumentsOf values = []
  · have hparts : m.queryParts values = [] := by rw [queryParts_eq, hempty, List.map_nil]
    rw [if_pos hparts, hempty, decodeQuery_eq_nil_iff, List.map_nil,
      or_iff_right (argumentsOf_eq_nil_iff.mp hempty)]
    exact (and_iff_right rfl).symm
  · have hparts : m.queryParts values ≠ [] := by
      rwa [queryParts_eq, ne_eq, List.map_eq_nil_iff]
    have hsome := not_not.mp (mt argumentsOf_eq_nil_iff.mpr hempty)
    rw [if_neg hparts, queryParts_eq, decodeQuery_queryParts hempty, Option.some_inj]
    exact (and_iff_left (.inl hsome)).symm

/-- A call is refused or builds a URL that says what was asked, exactly when a component is
missing or the call can be expressed. -/
theorem url_exact_iff (m : HttpMessage) (base : Uri) (values : Text → Option Text) :
    m.Exact base values ↔
      (∃ c ∈ m.components, values c = none) ∨ m.Expressible base values := by
  by_cases hmissing : ∃ c ∈ m.components, values c = none
  · obtain ⟨message, hthrow⟩ := componentSegments_missing (m := m) hmissing
    refine iff_of_true ?_ (.inl hmissing)
    rw [Exact, url, hthrow]
    exact ⟨message, rfl⟩
  · have hthere : ∀ c ∈ m.components, values c ≠ none :=
      fun c hmem hnone => hmissing ⟨c, hmem, hnone⟩
    obtain ⟨spelled, hok, hall⟩ := componentSegments_spelled (m := m) hthere
    rw [or_iff_right hmissing, Exact, url, hok]
    constructor
    · rintro ⟨⟨front, spelled', -, -, hspelled⟩, hquery⟩
      obtain ⟨harguments, hquery⟩ := decodeQuery_url_iff.mp hquery
      exact ⟨(forall₂_spelled_iff.mp hspelled).1, harguments, hquery⟩
    · rintro ⟨hcomponents, harguments, hquery⟩
      constructor
      case path =>
        exact ⟨segmentsOf m.endpoint, spelled, rfl, spells_segmentsOf _,
          forall₂_spelled_iff.mpr ⟨hcomponents, hall⟩⟩
      case query => exact decodeQuery_url_iff.mpr ⟨harguments, hquery⟩

/-- `set_shutter`. -/
def setShutter : HttpMessage :=
  { name := utf16 "set_shutter", endpoint := utf16 "gopro/camera/shutter", response := .json
    components := [utf16 "mode"] }

/-- With an empty mode, the URL is that of another endpoint. -/
theorem not_url_exact :
    ¬∀ (m : HttpMessage) (base : Uri) (values : Text → Option Text), m.Exact base values := by
  intro hexact
  obtain ⟨⟨front, spelled, -, -, hspelled⟩, -⟩ : setShutter.Says (fun _ => some [])
      { origin := "http://10.5.5.9:8080", pathSegments := segmentsOf setShutter.endpoint } :=
    hexact setShutter { origin := "http://10.5.5.9:8080" } fun _ => some []
  obtain ⟨u, hu, -⟩ := (forall₂_spelled_iff.mp hspelled).1 _ List.mem_cons_self [] rfl
  exact absurd hu List.not_mem_nil

end HttpMessage

end GoproNative
