import GoproNative.Query.Definitions
import GoproNative.Support.Reader

/-!
# What `parse_query` accepts

The body of a response is a run of entries, each its id, the length of its value and the
value.  Every body falls in one way into complete entries and a rest that begins with
none.  The parser yields these entries, and its result says which rest it stopped at.

The source walks the payload with an index; the walk is embedded here once more as it
stands, with every read checked.
-/

namespace GoproNative

/-! ## The grammar -/

/-- An entry on the wire. -/
def QueryEntry.encode (e : QueryEntry) : Bytes :=
  e.id :: UInt8.ofNat e.value.length :: e.value

/-- The length of the value fits its byte. -/
def QueryEntry.Encodable (e : QueryEntry) : Prop := e.value.length ≤ 255

/-- A rest that begins with no complete entry. -/
def Incomplete (rest : Bytes) : Prop :=
  ∀ e : QueryEntry, e.Encodable → ∀ more, rest ≠ e.encode ++ more

/-- A body falls into entries and a rest. -/
structure Decomposes (body : Bytes) (entries : List QueryEntry) (rest : Bytes) : Prop where
  split : body = entries.flatMap QueryEntry.encode ++ rest
  encodable : ∀ e ∈ entries, e.Encodable
  incomplete : Incomplete rest

/-- The length of a value and its encoding say the same. -/
theorem toNat_ofNat_length {value : Bytes} (h : value.length ≤ 255) :
    (UInt8.ofNat value.length).toNat = value.length := by
  rw [UInt8.toNat_ofNat', Nat.mod_eq_of_lt (by omega)]

theorem incomplete_of_short {rest : Bytes} (h : rest.length < 2) : Incomplete rest := by
  rintro e - more rfl
  simp only [QueryEntry.encode, List.cons_append, List.length_cons] at h
  omega

theorem incomplete_of_lt {id len : UInt8} {value : Bytes} (h : value.length < len.toNat) :
    Incomplete (id :: len :: value) := by
  rintro e he more heq
  simp only [QueryEntry.encode, List.cons_append, List.cons.injEq] at heq
  obtain ⟨-, rfl, rfl⟩ := heq
  rw [toNat_ofNat_length he, List.length_append] at h
  omega

/-- The complete entry that a body begins with is the only one it begins with. -/
theorem QueryEntry.encode_append_inj {e e' : QueryEntry} (he : e.Encodable)
    (he' : e'.Encodable) {more more' : Bytes}
    (h : e.encode ++ more = e'.encode ++ more') : e = e' ∧ more = more' := by
  obtain ⟨id, value⟩ := e
  obtain ⟨id', value'⟩ := e'
  simp only [encode, List.cons_append, List.cons.injEq] at h
  obtain ⟨rfl, hlen, hvalue⟩ := h
  have hlength : value.length = value'.length := by
    rw [← toNat_ofNat_length he, ← toNat_ofNat_length he', hlen]
  obtain ⟨rfl, rfl⟩ := List.append_inj hvalue hlength
  exact ⟨rfl, rfl⟩

/-- The decomposition is unique. -/
theorem Decomposes.unique {body rest rest' : Bytes} {entries entries' : List QueryEntry}
    (h : Decomposes body entries rest) (h' : Decomposes body entries' rest') :
    entries = entries' ∧ rest = rest' := by
  induction entries generalizing body entries' with
  | nil =>
      have hbody : body = rest := h.split
      cases entries' with
      | nil => exact ⟨rfl, hbody.symm.trans h'.split⟩
      | cons e' es' =>
          refine absurd ?_ (h.incomplete e' (h'.encodable e' List.mem_cons_self)
            (es'.flatMap QueryEntry.encode ++ rest'))
          rw [← hbody, h'.split, List.flatMap_cons, List.append_assoc]
  | cons e es ih =>
      have hsplit := h.split
      rw [List.flatMap_cons, List.append_assoc] at hsplit
      have he := h.encodable e List.mem_cons_self
      cases entries' with
      | nil =>
          have hbody : body = rest' := h'.split
          exact absurd (hbody ▸ hsplit) (h'.incomplete e he _)
      | cons e' es' =>
          have hsplit' := h'.split
          rw [List.flatMap_cons, List.append_assoc] at hsplit'
          obtain ⟨rfl, hmore⟩ := QueryEntry.encode_append_inj he
            (h'.encodable e' List.mem_cons_self) (hsplit.symm.trans hsplit')
          obtain ⟨rfl, rfl⟩ := ih
            ⟨rfl, fun f hf => h.encodable f (List.mem_cons_of_mem _ hf), h.incomplete⟩
            ⟨hmore, fun f hf => h'.encodable f (List.mem_cons_of_mem _ hf), h'.incomplete⟩
          exact ⟨rfl, rfl⟩

/-! ## The loop -/

/-- The loop of `parse_query` from an index on; `none` is a read past the end. -/
def parseFrom (payload : Bytes) (i : Nat) : Option (QueryParseResult × List QueryEntry) :=
  if i + 1 < payload.length then do
    let id ← payload[i]?
    let len ← payload[i + 1]?
    if payload.length < i + 2 + len.toNat then return (.truncatedTlv, [])
    else
      let value ← payload.slice? (i + 2) (i + 2 + len.toNat)
      let r ← parseFrom payload (i + 2 + len.toNat)
      return (r.1, ⟨id, value⟩ :: r.2)
  else return (.ok, [])
termination_by payload.length - i

/-- `parse_query` itself. -/
def parseQueryAt (payload : Bytes) : Option (QueryParseResult × QueryResponse) :=
  if payload.length < 2 then return (.tooShort, {})
  else do
    let queryCmdId ← payload[0]?
    let status ← payload[1]?
    let r ← parseFrom payload 2
    return (r.1, { queryCmdId, status, entries := r.2 })

theorem parseEntries_of_short {body : Bytes} (h : body.length < 2) (fuel : Nat) :
    parseEntries fuel body = (.ok, []) := by
  match fuel, body, h with
  | 0, _, _ => rfl
  | _ + 1, [], _ => rfl
  | _ + 1, [b], _ => rfl

/-- The walk reads nothing past the end, and from an index on it finds what the rest of
the payload holds. -/
theorem parseFrom_eq (payload : Bytes) (i fuel : Nat) (hfuel : payload.length - i ≤ fuel) :
    parseFrom payload i = some (parseEntries fuel (payload.drop i)) := by
  induction fuel generalizing i with
  | zero =>
      rw [parseFrom, if_neg (by omega)]
      rfl
  | succ fuel ih =>
      rw [parseFrom]
      by_cases hmore : i + 1 < payload.length
      · have hlast : i < payload.length := Nat.lt_of_succ_lt hmore
        have hdrop : payload.drop i =
            payload[i] :: payload[i + 1] :: payload.drop (i + 2) := by
          rw [List.drop_eq_getElem_cons hlast, List.drop_eq_getElem_cons hmore]
        have hlen : (payload.drop (i + 2)).length = payload.length - (i + 2) :=
          List.length_drop
        rw [if_pos hmore, hdrop, parseEntries, List.getElem?_eq_getElem hlast,
          List.getElem?_eq_getElem hmore]
        simp only [Option.bind_eq_bind, Option.bind_some, Option.pure_def]
        by_cases hfits : payload.length < i + 2 + payload[i + 1].toNat
        · rw [if_pos hfits, if_pos (by omega)]
        · rw [if_neg hfits, if_neg (by omega), ih _ (by omega),
            List.slice?_of_le (Nat.le_add_right _ _) (Nat.not_lt.mp hfits)]
          simp only [Option.bind_some, List.drop_drop, Nat.add_sub_cancel_left]
      · rw [if_neg hmore, parseEntries_of_short (by rw [List.length_drop]; omega)]
        rfl

theorem parseQueryAt_eq (payload : Bytes) : parseQueryAt payload = some (parseQuery payload) := by
  match payload with
  | [] => rfl
  | [_] => rfl
  | queryCmdId :: status :: body =>
      have hwalk := parseFrom_eq (queryCmdId :: status :: body) 2 body.length (by simp)
      rw [parseQueryAt, if_neg (by simp), hwalk]
      rfl

/-! ## The parser and the grammar -/

/-- What is left over decides the result. -/
def Concludes (rest : Bytes) : QueryParseResult → Prop
  | .ok => rest = [] ∨ ∃ b, rest = [b]
  | .truncatedTlv =>
      ∃ id len value, rest = id :: len :: value ∧ value.length < len.toNat
  | .tooShort => False

theorem Concludes.of_nil {result : QueryParseResult} (h : Concludes [] result) :
    result = .ok := by
  cases result with
  | ok => rfl
  | truncatedTlv =>
      obtain ⟨_, _, _, hrest, -⟩ := h
      exact absurd hrest (by simp)
  | tooShort => exact absurd h id

theorem parseEntries_decomposes (fuel : Nat) {body : Bytes} (hfuel : body.length ≤ fuel) :
    ∃ rest, Decomposes body (parseEntries fuel body).2 rest ∧
      Concludes rest (parseEntries fuel body).1 := by
  induction fuel generalizing body with
  | zero =>
      obtain rfl : body = [] := List.eq_nil_of_length_eq_zero (Nat.le_zero.mp hfuel)
      exact ⟨[], ⟨rfl, by simp [parseEntries], incomplete_of_short (by simp)⟩, Or.inl rfl⟩
  | succ fuel ih =>
      match body, hfuel with
      | [], _ =>
          exact ⟨[], ⟨rfl, by simp [parseEntries], incomplete_of_short (by simp)⟩, Or.inl rfl⟩
      | [b], _ =>
          exact ⟨[b], ⟨rfl, by simp [parseEntries], incomplete_of_short (by simp)⟩,
            Or.inr ⟨b, rfl⟩⟩
      | id :: len :: body, hfuel =>
          by_cases hshort : body.length < len.toNat
          · rw [parseEntries, if_pos hshort]
            exact ⟨id :: len :: body, ⟨rfl, by simp, incomplete_of_lt hshort⟩,
              id, len, body, rfl, hshort⟩
          · rw [parseEntries, if_neg hshort]
            have hlen : (body.take len.toNat).length = len.toNat :=
              List.length_take_of_le (Nat.not_lt.mp hshort)
            have hbyte := len.toNat_lt
            obtain ⟨rest, hsplit, hconcludes⟩ := @ih (body.drop len.toNat) (by
              simp only [List.length_cons] at hfuel
              rw [List.length_drop]
              omega)
            refine ⟨rest, ⟨?_, ?_, hsplit.incomplete⟩, hconcludes⟩
            · simp only [List.flatMap_cons, QueryEntry.encode, hlen, UInt8.ofNat_toNat,
                List.cons_append, List.append_assoc, ← hsplit.split, List.take_append_drop]
            · intro e he
              rcases List.mem_cons.mp he with rfl | he
              · rw [QueryEntry.Encodable, hlen]
                omega
              · exact hsplit.encodable e he

/-- `parse_query` decodes the grammar and nothing else.  It never reads past the end of a
payload.  A payload of fewer than two bytes is too short; any other one falls in one way
into entries and a rest, and the parser reports its first two bytes and these entries,
with `kOk` for an empty rest or a single byte and `kTruncatedTlv` for a value cut short.
A list of entries is read back from its encoding. -/
theorem parse_query_grammar :
    (∀ payload, parseQueryAt payload = some (parseQuery payload)) ∧
    (∀ payload : Bytes, payload.length < 2 → parseQuery payload = (.tooShort, {})) ∧
    (∀ queryCmdId status body, ∃ entries rest,
      Decomposes body entries rest ∧
      (∀ entries' rest', Decomposes body entries' rest' →
        entries' = entries ∧ rest' = rest) ∧
      (parseQuery (queryCmdId :: status :: body)).2 = ⟨queryCmdId, status, entries⟩ ∧
      (((rest = [] ∨ ∃ b, rest = [b]) ∧
          (parseQuery (queryCmdId :: status :: body)).1 = .ok) ∨
        ((∃ id len value, rest = id :: len :: value ∧ value.length < len.toNat) ∧
          (parseQuery (queryCmdId :: status :: body)).1 = .truncatedTlv))) ∧
    ∀ queryCmdId status entries, (∀ e ∈ entries, e.value.length ≤ 255) →
      parseQuery (queryCmdId :: status :: entries.flatMap QueryEntry.encode) =
        (.ok, ⟨queryCmdId, status, entries⟩) := by
  refine ⟨parseQueryAt_eq, ?_, ?_, ?_⟩
  · intro payload hshort
    match payload, hshort with
    | [], _ => rfl
    | [_], _ => rfl
  · intro queryCmdId status body
    obtain ⟨rest, hsplit, hconcludes⟩ := parseEntries_decomposes body.length (Nat.le_refl _)
    refine ⟨_, rest, hsplit, fun _ _ h => h.unique hsplit, rfl, ?_⟩
    rw [parseQuery]
    cases hresult : (parseEntries body.length body).1 with
    | ok =>
        rw [hresult] at hconcludes
        exact Or.inl ⟨hconcludes, rfl⟩
    | truncatedTlv =>
        rw [hresult] at hconcludes
        exact Or.inr ⟨hconcludes, rfl⟩
    | tooShort =>
        rw [hresult] at hconcludes
        exact absurd hconcludes id
  · intro queryCmdId status entries hentries
    have hencoded : Decomposes (entries.flatMap QueryEntry.encode) entries [] :=
      ⟨(List.append_nil _).symm, hentries, incomplete_of_short (by simp)⟩
    obtain ⟨rest, hsplit, hconcludes⟩ := parseEntries_decomposes
      (entries.flatMap QueryEntry.encode).length (Nat.le_refl _)
    obtain ⟨hsame, rfl⟩ := hencoded.unique hsplit
    rw [parseQuery, ← hsame, hconcludes.of_nil]

end GoproNative
