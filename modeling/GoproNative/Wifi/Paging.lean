import GoproNative.Wifi.Definitions

/-!
# Paging through the access points

`accessPoints` gathers the entries of a scan in pages whose size the camera chooses.  The
camera is whatever answers the requests, and may heed all of them when it answers one, so
it is a function of the requests up to the one it answers.  The cursor is the number of
entries gathered, and every turn of the loop either ends it or moves the cursor.
-/

namespace GoproNative

/-- `ResponseGetApEntries.ScanEntry`. -/
structure ScanEntry where
  ssid : String
  signalStrengthBars : Int32
  signalFrequencyMhz : Int32
  scanEntryFlags : Int32
  deriving DecidableEq

structure ResponseGetApEntries where
  result : EnumResultGeneric
  entries : List ScanEntry
  deriving DecidableEq

structure RequestGetApEntries where
  startIndex : Int
  maxEntries : Int
  scanId : Int
  deriving DecidableEq

/-- One access point the camera can see. -/
structure AccessPoint where
  ssid : String
  signalBars : Int
  frequencyMhz : Int
  flags : Int
  deriving DecidableEq

def AccessPoint.ofEntry (e : ScanEntry) : AccessPoint where
  ssid := e.ssid
  signalBars := e.signalStrengthBars.toInt
  frequencyMhz := e.signalFrequencyMhz.toInt
  flags := e.scanEntryFlags.toInt

/-- A request with its three setters run in order. -/
def RequestGetApEntries.make (startIndex maxEntries scanId : Int) :
    Except ClientError RequestGetApEntries :=
  if ¬IsInt32 startIndex then .error (.notInt32 startIndex)
  else if ¬IsInt32 maxEntries then .error (.notInt32 maxEntries)
  else if ¬IsInt32 scanId then .error (.notInt32 scanId)
  else .ok ⟨startIndex, maxEntries, scanId⟩

namespace NetworkClient

/-- How many entries are to be gathered. -/
def wanted (scan : ScanResult) : Option Int → Int
  | none => scan.totalEntries
  | some maxEntries =>
      if maxEntries < scan.totalEntries then maxEntries else scan.totalEntries

section

variable (camera : List RequestGetApEntries → Except DartError BleResponse)
  (fromBuffer : Bytes → Except ClientError ResponseGetApEntries)

/-- The entries of the camera's answer to the last of the requests. -/
def readPage (sent : List RequestGetApEntries) : Except ClientError (List ScanEntry) :=
  match send "get access points" (camera sent) with
  | .error e => .error e
  | .ok reply =>
      match fromBuffer reply with
      | .error e => .error e
      | .ok page =>
          if page.result ≠ .success then
            .error (.network { what := "get access points", result := some page.result })
          else .ok page.entries

/-- The loop of `accessPoints`, with the requests it sends: `sent` are sent and `out` is
gathered. -/
def accessPointsLoop (scan : ScanResult) (pageSize want : Int)
    (sent : List RequestGetApEntries) (out : List AccessPoint) :
    List RequestGetApEntries × Except ClientError (List AccessPoint) :=
  if (out.length : Int) < want then
    let remaining := want - out.length
    match RequestGetApEntries.make out.length
        (if remaining < pageSize then remaining else pageSize) scan.scanId with
    | .error e => (sent, .error e)
    | .ok req =>
        match readPage camera fromBuffer (sent ++ [req]) with
        | .error e => (sent ++ [req], .error e)
        | .ok [] => (sent ++ [req], .ok out)
        | .ok (entry :: entries) =>
            accessPointsLoop scan pageSize want (sent ++ [req])
              (out ++ (entry :: entries).map AccessPoint.ofEntry)
  else (sent, .ok out)
termination_by (want - out.length).toNat
decreasing_by
  simp only [List.length_append, List.length_map, List.length_cons]
  omega

/-- The requests that are sent, and what the future of the call completes with. -/
def accessPoints (scan : ScanResult) (pageSize : Int) (maxEntries : Option Int) :
    List RequestGetApEntries × Except ClientError (List AccessPoint) :=
  accessPointsLoop camera fromBuffer scan pageSize (wanted scan maxEntries) [] []

end

/-! ## One turn -/

variable {camera : List RequestGetApEntries → Except DartError BleResponse}
  {fromBuffer : Bytes → Except ClientError ResponseGetApEntries} {scan : ScanResult}
  {pageSize want : Int} {sent : List RequestGetApEntries} {out : List AccessPoint}

/-- The request of a turn. -/
def nextRequest (scan : ScanResult) (pageSize want : Int) (out : List AccessPoint) :
    RequestGetApEntries where
  startIndex := out.length
  maxEntries := if want - out.length < pageSize then want - out.length else pageSize
  scanId := scan.scanId

/-- A request of a scan asks for at least one entry, for no more than a page, and for
nothing beyond what is wanted. -/
structure Proper (scan : ScanResult) (pageSize want : Int) (req : RequestGetApEntries) :
    Prop where
  scanId : req.scanId = scan.scanId
  start : 0 ≤ req.startIndex
  pos : 1 ≤ req.maxEntries
  page : req.maxEntries ≤ pageSize
  bound : req.startIndex + req.maxEntries ≤ want

theorem proper_nextRequest (hpage : 1 ≤ pageSize) (hmore : (out.length : Int) < want) :
    Proper scan pageSize want (nextRequest scan pageSize want out) := by
  refine ⟨rfl, Int.natCast_nonneg _, ?_, ?_, ?_⟩
  · simp only [nextRequest]
    split <;> omega
  · simp only [nextRequest]
    split <;> omega
  · simp only [nextRequest]
    split <;> omega

theorem wanted_eq (scan : ScanResult) (maxEntries : Option Int) :
    wanted scan maxEntries = maxEntries.elim scan.totalEntries (min scan.totalEntries) := by
  cases maxEntries with
  | none => rfl
  | some maxEntries =>
      rw [wanted, Option.elim_some]
      split <;> omega

theorem wanted_le (scan : ScanResult) (maxEntries : Option Int) :
    wanted scan maxEntries ≤ scan.totalEntries := by
  rw [wanted_eq]
  cases maxEntries with
  | none => exact Int.le_refl _
  | some maxEntries => exact Int.min_le_left _ _

/-- No setter throws. -/
theorem make_nextRequest (hpage : 1 ≤ pageSize) (hwant : want ≤ scan.totalEntries)
    (hmore : (out.length : Int) < want) :
    RequestGetApEntries.make out.length
      (if want - out.length < pageSize then want - out.length else pageSize) scan.scanId =
      .ok (nextRequest scan pageSize want out) := by
  obtain ⟨-, htotal⟩ := isInt32_iff.mp scan.totalEntries_int32
  have hstart : IsInt32 out.length := isInt32_iff.mpr ⟨by omega, by omega⟩
  have hmax : IsInt32
      (if want - out.length < pageSize then want - out.length else pageSize) := by
    rw [isInt32_iff]
    split <;> omega
  rw [RequestGetApEntries.make, if_neg (not_not.mpr hstart), if_neg (not_not.mpr hmax),
    if_neg (not_not.mpr scan.scanId_int32)]
  rfl

/-- What holds of the ends of the loop, and of a turn if it holds of the rest, holds of the
loop. -/
theorem loop_rule {P : List RequestGetApEntries → List AccessPoint →
      List RequestGetApEntries × Except ClientError (List AccessPoint) → Prop}
    (hpage : 1 ≤ pageSize) (hwant : want ≤ scan.totalEntries)
    (hdone : ∀ sent out, want ≤ out.length → P sent out (sent, .ok out))
    (hfail : ∀ sent out e, (out.length : Int) < want →
      readPage camera fromBuffer (sent ++ [nextRequest scan pageSize want out]) = .error e →
      P sent out (sent ++ [nextRequest scan pageSize want out], .error e))
    (hempty : ∀ sent out, (out.length : Int) < want →
      readPage camera fromBuffer (sent ++ [nextRequest scan pageSize want out]) = .ok [] →
      P sent out (sent ++ [nextRequest scan pageSize want out], .ok out))
    (hmore : ∀ sent out entries r, (out.length : Int) < want → entries ≠ [] →
      readPage camera fromBuffer (sent ++ [nextRequest scan pageSize want out]) =
        .ok entries →
      P (sent ++ [nextRequest scan pageSize want out])
        (out ++ entries.map AccessPoint.ofEntry) r → P sent out r)
    (sent : List RequestGetApEntries) (out : List AccessPoint) :
    P sent out (accessPointsLoop camera fromBuffer scan pageSize want sent out) := by
  fun_induction accessPointsLoop camera fromBuffer scan pageSize want sent out with
  | case1 sent out hlt remaining e hmake =>
      have hreq := (make_nextRequest hpage hwant hlt).symm.trans hmake
      simp at hreq
  | case2 sent out hlt remaining req hmake e hread =>
      obtain rfl := Except.ok.inj
        ((make_nextRequest hpage hwant hlt).symm.trans hmake)
      exact hfail sent out e hlt hread
  | case3 sent out hlt remaining req hmake hread =>
      obtain rfl := Except.ok.inj
        ((make_nextRequest hpage hwant hlt).symm.trans hmake)
      exact hempty sent out hlt hread
  | case4 sent out hlt remaining req hmake entry entries hread ih =>
      obtain rfl := Except.ok.inj
        ((make_nextRequest hpage hwant hlt).symm.trans hmake)
      exact hmore sent out _ _ hlt (by simp) hread ih
  | case5 sent out hle => exact hdone sent out (by omega)

/-! ## Whole conversations -/

/-- The requests sent extend those sent before, are proper, and are not more than what is
still wanted. -/
theorem loop_requests (hpage : 1 ≤ pageSize) (hwant : want ≤ scan.totalEntries)
    (sent : List RequestGetApEntries) (out : List AccessPoint) :
    ∃ new, (accessPointsLoop camera fromBuffer scan pageSize want sent out).1 = sent ++ new ∧
      new.length ≤ (want - out.length).toNat ∧ ∀ req ∈ new, Proper scan pageSize want req := by
  refine loop_rule (P := fun sent out r => ∃ new, r.1 = sent ++ new ∧
    new.length ≤ (want - out.length).toNat ∧ ∀ req ∈ new, Proper scan pageSize want req)
    hpage hwant ?_ ?_ ?_ ?_ sent out
  · intro sent out hdone
    exact ⟨[], by simp, by simp, by simp⟩
  · intro sent out e hmore hread
    refine ⟨_, rfl, by rw [List.length_singleton]; omega, ?_⟩
    rintro req hreq
    rw [List.mem_singleton.mp hreq]
    exact proper_nextRequest hpage hmore
  · intro sent out hmore hread
    refine ⟨_, rfl, by rw [List.length_singleton]; omega, ?_⟩
    rintro req hreq
    rw [List.mem_singleton.mp hreq]
    exact proper_nextRequest hpage hmore
  · rintro sent out entries r hmore hne hread ⟨new, hnew, hlength, hproper⟩
    have hpos := List.length_pos_iff.mpr hne
    refine ⟨nextRequest scan pageSize want out :: new, by simp [hnew], ?_, ?_⟩
    · rw [List.length_append, List.length_map] at hlength
      rw [List.length_cons]
      omega
    · rintro req hreq
      rcases List.mem_cons.mp hreq with rfl | hreq
      · exact proper_nextRequest hpage hmore
      · exact hproper req hreq

/-- What the camera answered the request at a position. -/
def answer (camera : List RequestGetApEntries → Except DartError BleResponse)
    (fromBuffer : Bytes → Except ClientError ResponseGetApEntries)
    (sent : List RequestGetApEntries) (k : Nat) : Except ClientError (List ScanEntry) :=
  readPage camera fromBuffer (sent.take (k + 1))

/-- An answer among those to the requests from a position on. -/
def Answered (camera : List RequestGetApEntries → Except DartError BleResponse)
    (fromBuffer : Bytes → Except ClientError ResponseGetApEntries)
    (sent : List RequestGetApEntries) (start : Nat)
    (page : Except ClientError (List ScanEntry)) : Prop :=
  ∃ k, start ≤ k ∧ k < sent.length ∧ answer camera fromBuffer sent k = page

theorem not_answered (page : Except ClientError (List ScanEntry)) :
    ¬Answered camera fromBuffer sent sent.length page := by
  rintro ⟨k, hstart, hlt, -⟩
  omega

/-- The first of the requests from a position on gets its answer, and then come the
others. -/
theorem answered_cons {req : RequestGetApEntries} {all : List RequestGetApEntries}
    (hinit : sent ++ [req] <+: all) (page : Except ClientError (List ScanEntry)) :
    Answered camera fromBuffer all sent.length page ↔
      readPage camera fromBuffer (sent ++ [req]) = page ∨
        Answered camera fromBuffer all (sent ++ [req]).length page := by
  obtain ⟨rest, rfl⟩ := hinit
  have hfirst : (sent ++ [req] ++ rest).take (sent.length + 1) = sent ++ [req] := by
    rw [List.take_left' (by simp)]
  constructor
  · rintro ⟨k, hstart, hlt, hanswer⟩
    rcases Nat.eq_or_lt_of_le hstart with rfl | hlater
    · left
      rw [← hfirst]
      exact hanswer
    · right
      exact ⟨k, by rw [List.length_append, List.length_singleton]; omega, hlt, hanswer⟩
  · rintro (hread | ⟨k, hstart, hlt, hanswer⟩)
    · refine ⟨sent.length, le_rfl, by simp, ?_⟩
      rw [answer, hfirst]
      exact hread
    · rw [List.length_append, List.length_singleton] at hstart
      exact ⟨k, by omega, hlt, hanswer⟩

/-- The loop throws what an answer fails with, and nothing else. -/
theorem loop_throws_iff (hpage : 1 ≤ pageSize) (hwant : want ≤ scan.totalEntries)
    (sent : List RequestGetApEntries) (out : List AccessPoint) (e : ClientError) :
    (accessPointsLoop camera fromBuffer scan pageSize want sent out).2 = .error e ↔
      Answered camera fromBuffer
        (accessPointsLoop camera fromBuffer scan pageSize want sent out).1 sent.length
        (.error e) := by
  refine (loop_rule (P := fun sent out r => sent <+: r.1 ∧
    (r.2 = .error e ↔ Answered camera fromBuffer r.1 sent.length (.error e)))
    hpage hwant ?_ ?_ ?_ ?_ sent out).2
  · intro sent out hdone
    exact ⟨List.prefix_refl _, iff_of_false (by simp) (not_answered _)⟩
  · intro sent out e' hmore hread
    refine ⟨List.prefix_append _ _, ?_⟩
    rw [answered_cons (List.prefix_refl _), hread, or_iff_left (not_answered _)]
    simp
  · intro sent out hmore hread
    refine ⟨List.prefix_append _ _, ?_⟩
    rw [answered_cons (List.prefix_refl _), hread, or_iff_left (not_answered _)]
    simp
  · rintro sent out entries r hmore hne hread ⟨hinit, hiff⟩
    refine ⟨(List.prefix_append _ _).trans hinit, ?_⟩
    rw [answered_cons hinit, hread, hiff]
    simp

/-! ## A camera with a list -/

/-- The camera answers the last of the requests with success and a page. -/
def Gives (camera : List RequestGetApEntries → Except DartError BleResponse)
    (fromBuffer : Bytes → Except ClientError ResponseGetApEntries)
    (sent : List RequestGetApEntries) (page : List ScanEntry) : Prop :=
  ∃ correlationId feature action body,
    camera sent = .ok ⟨correlationId, .responded, feature :: action :: body⟩ ∧
      fromBuffer body = .ok ⟨.success, page⟩

/-- The camera holds a list of entries for a scan, and answers each request with some of
what stands in it from the index on, no more than it was asked for. -/
def Serves (camera : List RequestGetApEntries → Except DartError BleResponse)
    (fromBuffer : Bytes → Except ClientError ResponseGetApEntries) (scanId : Int)
    (entries : List ScanEntry) : Prop :=
  ∀ sent req, req.scanId = scanId → 0 ≤ req.startIndex → 1 ≤ req.maxEntries →
    ∃ page, Gives camera fromBuffer (sent ++ [req]) page ∧
      page <+: entries.drop req.startIndex.toNat ∧ (page.length : Int) ≤ req.maxEntries

/-- What is read is behind the header of a response. -/
theorem send_eq_ok_iff {what : String} {reply : Except DartError BleResponse} {body : Bytes} :
    send what reply = .ok body ↔ ∃ correlationId feature action,
      reply = .ok ⟨correlationId, .responded, feature :: action :: body⟩ := by
  rcases reply with e | ⟨correlationId, outcome, payload⟩
  · simp [send]
  · rw [send]
    by_cases houtcome : outcome = .responded
    · rw [if_neg (not_not.mpr houtcome)]
      match payload with
      | [] => simp
      | [_] => simp
      | feature :: action :: rest =>
          rw [if_neg (by simp)]
          simp [houtcome]
    · rw [if_pos houtcome]
      simp [houtcome]
/-- The pages that are read are those that the camera gives. -/
theorem readPage_eq_ok_iff {page : List ScanEntry} :
    readPage camera fromBuffer sent = .ok page ↔ Gives camera fromBuffer sent page := by
  rw [readPage]
  constructor
  · intro hread
    split at hread
    · simp at hread
    · next body hsend =>
      obtain ⟨correlationId, feature, action, hanswer⟩ := send_eq_ok_iff.mp hsend
      refine ⟨correlationId, feature, action, body, hanswer, ?_⟩
      split at hread
      · simp at hread
      · next answered hbuffer =>
        obtain ⟨result, entries⟩ := answered
        simp only [ne_eq, ite_not] at hread
        split at hread
        · next hsuccess =>
          obtain rfl := Except.ok.inj hread
          rw [hbuffer, hsuccess]
        · simp at hread
  · rintro ⟨correlationId, feature, action, body, hanswer, hbuffer⟩
    rw [send_eq_ok_iff.mpr ⟨correlationId, feature, action, hanswer⟩]
    simp [hbuffer]

/-- What was gathered is the beginning of the list. -/
def Gathered (entries : List ScanEntry) (out : List AccessPoint) : Prop :=
  out = (entries.take out.length).map .ofEntry

theorem Gathered.length_le {entries : List ScanEntry} {out : List AccessPoint}
    (h : Gathered entries out) : out.length ≤ entries.length := by
  have hlength := congrArg List.length h
  rw [List.length_map, List.length_take] at hlength
  omega

/-- A page that continues the list where the gathered part ends is gathered. -/
theorem Gathered.append {entries page : List ScanEntry} {out : List AccessPoint}
    (h : Gathered entries out) (hpart : page <+: entries.drop out.length) :
    Gathered entries (out ++ page.map .ofEntry) := by
  have hlength : (out ++ page.map AccessPoint.ofEntry).length = out.length + page.length := by
    rw [List.length_append, List.length_map]
  have htake : entries.take (out.length + page.length) =
      entries.take out.length ++ page := by
    rw [List.take_add, ← List.prefix_iff_eq_take.mp hpart]
  rw [Gathered, hlength, htake, List.map_append, ← h]

/-- From a list gathered in part, the loop goes on to gather it. -/
theorem loop_gathers {entries : List ScanEntry}
    (hserves : Serves camera fromBuffer scan.scanId entries) (hpage : 1 ≤ pageSize)
    (hwant : want ≤ scan.totalEntries) (sent : List RequestGetApEntries)
    (out : List AccessPoint) (hout : Gathered entries out)
    (hbound : out.length ≤ want.toNat) :
    ∃ n, n ≤ entries.length ∧ n ≤ want.toNat ∧
      (accessPointsLoop camera fromBuffer scan pageSize want sent out).2 =
        .ok ((entries.take n).map .ofEntry) ∧
      (n < want.toNat ↔ Answered camera fromBuffer
        (accessPointsLoop camera fromBuffer scan pageSize want sent out).1 sent.length
        (.ok [])) := by
  refine (loop_rule (P := fun sent out r => sent <+: r.1 ∧
    (Gathered entries out → out.length ≤ want.toNat →
      ∃ n, n ≤ entries.length ∧ n ≤ want.toNat ∧
        r.2 = .ok ((entries.take n).map .ofEntry) ∧
        (n < want.toNat ↔ Answered camera fromBuffer r.1 sent.length (.ok []))))
    hpage hwant ?_ ?_ ?_ ?_ sent out).2 hout hbound
  · intro sent out hdone
    refine ⟨List.prefix_refl _, ?_⟩
    intro hout hbound
    refine ⟨out.length, hout.length_le, hbound, congrArg _ hout, ?_⟩
    exact iff_of_false (by omega) (not_answered _)
  · intro sent out e hmore hread
    have hproper : Proper scan pageSize want _ := proper_nextRequest hpage hmore
    obtain ⟨page, hgives, -⟩ := hserves sent _ hproper.scanId hproper.start hproper.pos
    have hserved := readPage_eq_ok_iff.mpr hgives
    rw [hread] at hserved
    simp at hserved
  · intro sent out hmore hread
    refine ⟨List.prefix_append _ _, ?_⟩
    intro hout hbound
    refine ⟨out.length, hout.length_le, hbound, congrArg _ hout, ?_⟩
    refine iff_of_true (by omega) ?_
    rw [answered_cons (List.prefix_refl _)]
    exact Or.inl hread
  · rintro sent out page r hmore hne hread ⟨hinit, hrest⟩
    refine ⟨(List.prefix_append _ _).trans hinit, ?_⟩
    intro hout hbound
    have hproper : Proper scan pageSize want _ := proper_nextRequest hpage hmore
    obtain ⟨page', hgives, hpart, hshort⟩ :=
      hserves sent _ hproper.scanId hproper.start hproper.pos
    have hserved := readPage_eq_ok_iff.mpr hgives
    rw [hread] at hserved
    obtain rfl := Except.ok.inj hserved
    have hstart : (nextRequest scan pageSize want out).startIndex = out.length := rfl
    rw [hstart, Int.toNat_natCast] at hpart
    have hstill : (out ++ page.map AccessPoint.ofEntry).length ≤ want.toNat := by
      have hbelow := hproper.bound
      rw [List.length_append, List.length_map]
      omega
    obtain ⟨n, hn, hnwant, hresult, hiff⟩ := hrest (hout.append hpart) hstill
    refine ⟨n, hn, hnwant, hresult, ?_⟩
    rw [hiff, answered_cons hinit, hread]
    simp [hne]

/-- Paging is complete, ordered and bounded.  What is wanted is the total of the scan, or
the lesser of it and `maxEntries`.  Whatever the camera answers, the call ends after as
many requests as there are entries wanted or fewer, each of which asks for one to
`pageSize` entries and for nothing beyond what is wanted; it throws exactly where the camera
fails a page, and what it throws is what reading that page failed with.  If the camera
serves a list, the call returns its first `n` entries in order, where `n` is less than what
is wanted exactly when the camera gave an empty page. -/
theorem accessPoints_complete (scan : ScanResult) {pageSize : Int} (hpage : 1 ≤ pageSize)
    (maxEntries : Option Int) {want : Int}
    (hwant : want = maxEntries.elim scan.totalEntries (min scan.totalEntries))
    (camera : List RequestGetApEntries → Except DartError BleResponse)
    (fromBuffer : Bytes → Except ClientError ResponseGetApEntries) :
    ∃ requests result,
      accessPoints camera fromBuffer scan pageSize maxEntries = (requests, result) ∧
      requests.length ≤ want.toNat ∧
      (∀ req ∈ requests, Proper scan pageSize want req) ∧
      (∀ e, result = .error e ↔
        ∃ k < requests.length, answer camera fromBuffer requests k = .error e) ∧
      ((∃ e, result = .error e) ↔
        ∃ k < requests.length, ∀ page, ¬Gives camera fromBuffer (requests.take (k + 1)) page) ∧
      ∀ entries, Serves camera fromBuffer scan.scanId entries →
        ∃ n, n ≤ entries.length ∧ n ≤ want.toNat ∧
          result = .ok ((entries.take n).map fun e =>
            { ssid := e.ssid
              signalBars := e.signalStrengthBars.toInt
              frequencyMhz := e.signalFrequencyMhz.toInt
              flags := e.scanEntryFlags.toInt }) ∧
          (n < want.toNat ↔
            ∃ k < requests.length, Gives camera fromBuffer (requests.take (k + 1)) []) := by
  have hwanted : wanted scan maxEntries = want := by rw [wanted_eq, hwant]
  have hle : want ≤ scan.totalEntries := hwanted ▸ wanted_le scan maxEntries
  obtain ⟨requests, hnew, hlength, hproper⟩ : ∃ new,
      (accessPointsLoop camera fromBuffer scan pageSize want [] []).1 = [] ++ new ∧
      new.length ≤ (want - ([] : List AccessPoint).length).toNat ∧
      ∀ req ∈ new, Proper scan pageSize want req := loop_requests hpage hle [] []
  rw [List.nil_append] at hnew
  have hthrows : ∀ e, (accessPointsLoop camera fromBuffer scan pageSize want [] []).2 = .error e ↔
      ∃ k < requests.length, answer camera fromBuffer requests k = .error e := by
    intro e
    rw [loop_throws_iff hpage hle, hnew]
    simp [Answered]
  refine ⟨requests, _, by rw [accessPoints, hwanted, ← hnew], by simpa using hlength, hproper,
    hthrows, ?_, ?_⟩
  · simp only [hthrows, ← readPage_eq_ok_iff]
    constructor
    · rintro ⟨e, k, hk, hfailed⟩
      refine ⟨k, hk, fun page hread => ?_⟩
      rw [answer, hread] at hfailed
      simp at hfailed
    · rintro ⟨k, hk, hnone⟩
      cases hread : readPage camera fromBuffer (requests.take (k + 1)) with
      | error e => exact ⟨e, k, hk, hread⟩
      | ok page => exact absurd hread (hnone page)
  · intro entries hserves
    obtain ⟨n, hn, hnwant, hresult, hempty⟩ :=
      loop_gathers hserves hpage hle [] [] rfl (Nat.zero_le _)
    refine ⟨n, hn, hnwant, hresult, ?_⟩
    rw [hempty, hnew]
    simp [Answered, answer, readPage_eq_ok_iff]

/-- The two networks that a camera sees. -/
def garage : ScanEntry := ⟨"garage", 3, 5180, 1⟩

def cabin : ScanEntry := ⟨"cabin", 2, 2412, 0⟩

/-- It answers with the bytes of a page of one of them. -/
def garageCamera (sent : List RequestGetApEntries) : Except DartError BleResponse :=
  let start := sent.getLast?.map RequestGetApEntries.startIndex
  let page : Bytes :=
    if start = some 0 then
      [26, 15, 10, 6, 103, 97, 114, 97, 103, 101, 16, 3, 32, 188, 40, 40, 1]
    else if start = some 1 then
      [26, 14, 10, 5, 99, 97, 98, 105, 110, 16, 2, 32, 236, 18, 40, 0]
    else []
  .ok ⟨0x1030283, .responded, [2, 0x83, 8, 1, 16, 7] ++ page⟩

/-- What the protobuf runtime makes of them. -/
def garageBuffer (bytes : Bytes) : Except ClientError ResponseGetApEntries :=
  if bytes = [8, 1, 16, 7] then .ok ⟨.success, []⟩
  else if bytes = [8, 1, 16, 7, 26, 15, 10, 6, 103, 97, 114, 97, 103, 101, 16, 3, 32, 188, 40,
      40, 1] then .ok ⟨.success, [garage]⟩
  else if bytes = [8, 1, 16, 7, 26, 14, 10, 5, 99, 97, 98, 105, 110, 16, 2, 32, 236, 18, 40,
      0] then .ok ⟨.success, [cabin]⟩
  else .error .invalidProtocolBuffer

theorem readPage_garage (sent : List RequestGetApEntries) (req : RequestGetApEntries) :
    readPage garageCamera garageBuffer (sent ++ [req]) =
      .ok (if req.startIndex = 0 then [garage] else if req.startIndex = 1 then [cabin]
        else []) := by
  by_cases hfirst : req.startIndex = 0
  · simp [readPage, send, garageCamera, garageBuffer, hfirst]
  · by_cases hsecond : req.startIndex = 1
    · simp [readPage, send, garageCamera, garageBuffer, hsecond]
    · simp [readPage, send, garageCamera, garageBuffer, hfirst, hsecond]

theorem garageCamera_serves : Serves garageCamera garageBuffer 7 [garage, cabin] := by
  intro sent req hscan hstart hmax
  refine ⟨_, readPage_eq_ok_iff.mp (readPage_garage sent req), ?_⟩
  split
  · next h => simpa [h] using hmax
  · split
    · next h => simpa [h] using hmax
    · next => simpa using (by omega : 0 ≤ req.maxEntries)

/-- No page is empty that is asked for within the list. -/
theorem not_gives_garage_nil (sent : List RequestGetApEntries) {req : RequestGetApEntries}
    (hstart : 0 ≤ req.startIndex) (hlt : req.startIndex < 2) :
    ¬Gives garageCamera garageBuffer (sent ++ [req]) [] := by
  rw [← readPage_eq_ok_iff, readPage_garage]
  by_cases hfirst : req.startIndex = 0
  · simp [hfirst]
  · have hsecond : req.startIndex = 1 := by omega
    simp [hsecond]

/-- The camera gives one network a page, and both are gathered. -/
theorem accessPoints_complete_garage :
    (accessPoints garageCamera garageBuffer ⟨7, 2, by decide, by decide⟩ 20 (some 5)).2 =
      .ok [⟨"garage", 3, 5180, 1⟩, ⟨"cabin", 2, 2412, 0⟩] := by
  obtain ⟨requests, result, hcall, -, hproper, -, -, hserved⟩ :=
    accessPoints_complete ⟨7, 2, by decide, by decide⟩ (show (1 : Int) ≤ 20 by decide) (some 5)
      (show 2 = _ by decide) garageCamera garageBuffer
  obtain ⟨n, hn, -, hresult, hempty⟩ := hserved [garage, cabin] garageCamera_serves
  have hfull : ¬n < 2 := by
    intro hlt
    obtain ⟨k, hk, hgives⟩ := hempty.mp hlt
    have hreq := hproper _ (List.getElem_mem hk)
    have hwithin := Int.lt_of_lt_of_le (Int.lt_add_of_pos_right _ hreq.pos) hreq.bound
    rw [List.take_add_one, List.getElem?_eq_getElem hk, Option.toList_some] at hgives
    exact not_gives_garage_nil _ hreq.start hwithin hgives
  obtain rfl : n = 2 := le_antisymm hn (Nat.le_of_not_lt hfull)
  rw [hcall, hresult]
  rfl

end NetworkClient

end GoproNative
