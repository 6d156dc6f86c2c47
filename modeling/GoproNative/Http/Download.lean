import GoproNative.Http.Definitions

/-!
# Downloads

A partial file is worse than none.  A download that throws after its file was opened
deletes it, unless the file fails it: `await sink.close()` is in front of the deletion,
and where it throws, the file stays.
-/

namespace GoproNative

namespace DownloadOp

/-- What the response delivers. -/
def delivered : DownloadOp → Bytes
  | chunk data _ => data
  | _ => []

/-- A step on the opened file fails: the write of a chunk, the closing, or a step of the
deletion. -/
def spoils : DownloadOp → Bool
  | writeFailed _ _ | closeFailed _ | existsFailed _ | deleteFailed _ => true
  | _ => false

end DownloadOp

namespace Download

/-- The chunks received, one behind the other. -/
def receivedBytes (labels : List DownloadOp) : Bytes :=
  labels.flatMap DownloadOp.delivered

/-- No step on the opened file failed. -/
def Smooth (labels : List DownloadOp) : Prop :=
  ∀ op ∈ labels, op.spoils = false

/-- What the caller finds at the destination when the download ends: after a return the
whole file, as long as declared; after a throw no file, if it was opened, and what was
there before, if it was not. -/
def Kept (destination : Option Bytes) (labels : List DownloadOp) (d : Download) : Prop :=
  match d.stage with
  | .returned =>
      d.file = some (receivedBytes labels) ∧
        ∀ r total, .responded r ∈ labels → r.total = some total →
          (receivedBytes labels).length = total
  | .threw _ => if .opened ∈ labels then d.file = none else d.file = destination
  | _ => True

variable {d d' : Download} {op : DownloadOp} {labels : List DownloadOp}
  {destination : Option Bytes}

@[simp] theorem receivedBytes_snoc :
    receivedBytes (labels ++ [op]) = receivedBytes labels ++ op.delivered := by
  simp [receivedBytes]

@[simp] theorem smooth_snoc :
    Smooth (labels ++ [op]) ↔ Smooth labels ∧ op.spoils = false := by
  simp [Smooth, or_imp, forall_and]

/-! ## Turns -/

/-- What an event does, and where it can happen. -/
inductive Moves (d : Download) : DownloadOp → Download → Prop
  | connected (h : d.stage = .connecting) :
      Moves d .connected { d with stage := .requesting }
  | responded (r : HttpResponse) (stage : Stage) (h : d.stage = .requesting)
      (hstage : stage = .creatingParent r ∨ stage = .rejecting r) :
      Moves d (.responded r) { d with stage := stage }
  | refused (r : HttpResponse) (text : List UInt16) (e : HttpError)
      (h : d.stage = .rejecting r) : Moves d (.bodyRead text) { d with stage := .threw e }
  | failed (e : HttpError) (h : d.stage.beforeOpen) :
      Moves d (.failed e) { d with stage := .threw e }
  | parentCreated (r : HttpResponse) (h : d.stage = .creatingParent r) :
      Moves d .parentCreated (d.openWrite r)
  | opened (h : d.sink = .opening) :
      Moves d .opened { d with sink := .opened, file := some [] }
  | openFailed (e : HttpError) (h : d.sink = .opening) :
      Moves d (.openFailed e) { d with sink := .failed e, buffered := [] }
  | wrote (data : Bytes) (rest : List Bytes) (h : d.sink = .opened)
      (hbuffered : d.buffered = data :: rest) :
      Moves d .wrote { d with file := d.file.map (· ++ data), buffered := rest }
  | writeFailed (count : Nat) (e : HttpError) (data : Bytes) (h : d.sink = .opened) :
      Moves d (.writeFailed count e)
        { d with file := d.file.map (· ++ data.take count), buffered := [], sink := .failed e }
  | closed (h : d.sink = .opened) (hcalled : d.sinkClosed = true) (hdrained : d.buffered = []) :
      Moves d .closed { d with sink := .closed }
  | closeFailed (e : HttpError) (h : d.sink = .opened) :
      Moves d (.closeFailed e) { d with sink := .failed e }
  | late (data : Bytes) (thrown : Option HttpError) (e : HttpError) (h : d.pumping = true)
      (hcalled : d.sinkClosed = true) :
      Moves d (.chunk data thrown)
        ({ d with received := d.received + data.length }.pumped (.error e))
  | added (data : Bytes) (h : d.pumping = true) (hcalled : d.sinkClosed = false) :
      Moves d (.chunk data none) ({ d with received := d.received + data.length }.add data).arm
  | aborted (data : Bytes) (e : HttpError) (h : d.pumping = true)
      (hcalled : d.sinkClosed = false) :
      Moves d (.chunk data (some e))
        (({ d with received := d.received + data.length }.add data).arm.pumped (.error e))
  | done (h : d.pumping = true) : Moves d .done (d.pumped (.ok ()))
  | broken (e : HttpError) (h : d.pumping = true) : Moves d (.broken e) (d.pumped (.error e))
  | elapsed (us : Nat) : Moves d (.elapsed us) { d with nowUs := d.nowUs + us }
  | stalled (deadline : Nat) (e : HttpError) (h : d.stall = some deadline)
      (hdue : deadline ≤ d.nowUs) :
      Moves d .stalled { d with stall := none, race := d.race.or (some (.error e)) }
  | raced (r : HttpResponse) (outcome : Except HttpError Unit) (h : d.stage = .transferring r)
      (hrace : d.race = some outcome) :
      Moves d .resumed { d with stall := none, sinkClosed := true, stage := .closing r outcome }
  | closeThrew (r : HttpResponse) (outcome : Except HttpError Unit) (e : HttpError)
      (h : d.stage = .closing r outcome) (hsink : d.sink = .failed e) :
      Moves d .resumed { d with stage := .threw e }
  | settled (r : HttpResponse) (outcome : Except HttpError Unit)
      (h : d.stage = .closing r outcome) (hsink : d.sink = .closed) :
      Moves d .resumed { d with stage := d.settle r outcome }
  | existed (e : HttpError) (h : d.stage = .checking e) :
      Moves d .existed { d with stage := if d.file.isSome then .deleting e else .threw e }
  | existsFailed (e e' : HttpError) (h : d.stage = .checking e) :
      Moves d (.existsFailed e') { d with stage := .threw e' }
  | deleted (e : HttpError) (h : d.stage = .deleting e) :
      Moves d .deleted { d with file := none, stage := .threw e }
  | deleteFailed (e e' : HttpError) (h : d.stage = .deleting e) :
      Moves d (.deleteFailed e') { d with stage := .threw e' }

theorem resume_moves (h : d.resume = some d') : Moves d .resumed d' := by
  unfold resume at h
  split at h
  · rename_i r hstage
    obtain ⟨outcome, hrace, rfl⟩ := Option.map_eq_some_iff.mp h
    exact .raced r outcome hstage hrace
  · rename_i r outcome hstage
    split at h
    · rename_i e hsink
      obtain rfl := Option.some.inj h
      exact .closeThrew r outcome e hstage hsink
    · rename_i hsink
      obtain rfl := Option.some.inj h
      exact .settled r outcome hstage hsink
    · cases h
  · cases h

theorem pump_moves {data : Bytes} {thrown : Option HttpError} (h : d.pumping = true) :
    Moves d (.chunk data thrown) (d.pump data thrown) := by
  unfold pump
  dsimp only
  split
  · rename_i hcalled
    exact .late data thrown _ h hcalled
  · rename_i hcalled
    cases thrown with
    | none => exact .added data h (by simpa using hcalled)
    | some e => exact .aborted data e h (by simpa using hcalled)

theorem next_moves (h : d.next op = some d') : Moves d op d' := by
  cases op <;>
    simp only [next, Option.ite_none_right_eq_some, Option.some.injEq] at h
  case connected =>
      obtain ⟨hstage, rfl⟩ := h
      exact .connected hstage
  case responded r =>
      obtain ⟨hstage, rfl⟩ := h
      refine .responded r _ hstage ?_
      split
      · exact Or.inl rfl
      · exact Or.inr rfl
  case failed e =>
      obtain ⟨hstage, rfl⟩ := h
      exact .failed e hstage
  case opened =>
      obtain ⟨hsink, rfl⟩ := h
      exact .opened hsink
  case openFailed e =>
      obtain ⟨hsink, rfl⟩ := h
      exact .openFailed e hsink
  case closed =>
      obtain ⟨⟨hsink, hcalled, hdrained⟩, rfl⟩ := h
      exact .closed hsink hcalled hdrained
  case closeFailed e =>
      obtain ⟨⟨hsink, -, -⟩, rfl⟩ := h
      exact .closeFailed e hsink
  case chunk data thrown =>
      obtain ⟨hpumping, rfl⟩ := h
      exact pump_moves hpumping
  case done =>
      obtain ⟨hpumping, rfl⟩ := h
      exact .done hpumping
  case broken e =>
      obtain ⟨hpumping, rfl⟩ := h
      exact .broken e hpumping
  case elapsed us =>
      obtain rfl := h
      exact .elapsed us
  case resumed => exact resume_moves h
  case wrote =>
      split at h
      · rename_i data rest hsink hbuffered
        obtain rfl := Option.some.inj h
        exact .wrote data rest hsink hbuffered
      · cases h
  case writeFailed count e =>
      split at h
      · rename_i data rest hsink hbuffered
        obtain rfl := Option.some.inj h
        exact .writeFailed count e data hsink
      · cases h
  case stalled =>
      split at h
      · rename_i deadline hstall
        obtain ⟨hdue, h⟩ := Option.ite_none_right_eq_some.mp h
        obtain rfl := Option.some.inj h
        exact .stalled deadline _ hstall hdue
      · cases h
  all_goals
    split at h
    · rename_i hstage
      obtain rfl := Option.some.inj h
      constructor
      exact hstage
    · cases h

/-! ## The destination -/

/-- What is at the destination, by the sink and the history. -/
def Held (destination : Option Bytes) (labels : List DownloadOp) (file : Option Bytes) :
    Sink → Prop
  | .none | .opening => .opened ∉ labels ∧ Smooth labels ∧ file = destination
  | .opened => .opened ∈ labels ∧ Smooth labels ∧ file.isSome
  | .failed _ =>
      (.opened ∉ labels ∧ Smooth labels ∧ file = destination) ∨
        (.opened ∈ labels ∧ ¬Smooth labels ∧ file.isSome)
  | .closed => .opened ∈ labels

/-- The response is the one that came. -/
def Answered (labels : List DownloadOp) (r : HttpResponse) : Prop :=
  ∀ r', .responded r' ∈ labels → r' = r

/-- The file, and behind it what is buffered, is what was received. -/
def Whole (labels : List DownloadOp) (d : Download) : Prop :=
  match d.sink with
  | .none => d.buffered = [] ∧ receivedBytes labels = []
  | .opening => d.buffered.flatten = receivedBytes labels
  | .opened | .closed => d.file.getD [] ++ d.buffered.flatten = receivedBytes labels
  | .failed _ => True

/-- The body, by where it is suspended. -/
def Fits (labels : List DownloadOp) (d : Download) : Prop :=
  match d.stage with
  | .connecting | .requesting =>
      d.sink = .none ∧ d.sinkClosed = false ∧ ∀ r, .responded r ∉ labels
  | .rejecting r | .creatingParent r =>
      d.sink = .none ∧ d.sinkClosed = false ∧ Answered labels r
  | .transferring r => d.sink ≠ .none ∧ d.sinkClosed = false ∧ Answered labels r
  | .closing r outcome =>
      d.sink ≠ .none ∧ (d.sink = .closed → Smooth labels ∧ d.file.isSome) ∧
        (outcome = .ok () → Answered labels r ∧ Whole labels d ∧ d.pumping = false)
  | .checking _ | .deleting _ => d.sink = .closed ∧ Smooth labels ∧ d.file.isSome
  | .returned =>
      d.sink = .closed ∧ Smooth labels ∧ d.pumping = false ∧
        d.file = some (receivedBytes labels) ∧
        ∀ r total, .responded r ∈ labels → r.total = some total →
          (receivedBytes labels).length = total
  | .threw _ =>
      d.sink ≠ .opening ∧ d.sink ≠ .opened ∧
        (d.sink = .closed → (Smooth labels ↔ d.file = none))

/-- What holds of a download after `labels`. -/
structure Stands (destination : Option Bytes) (labels : List DownloadOp) (d : Download) :
    Prop where
  counted : d.received = (receivedBytes labels).length
  piped : d.pumping = true → d.sink ≠ .none
  raced : d.race = some (.ok ()) → d.pumping = false ∧ d.sink ≠ .none
  shut : d.sink = .closed → d.sinkClosed = true ∧ d.buffered = []
  whole : d.sinkClosed = false → Whole labels d
  held : Held destination labels d.file d.sink
  fits : Fits labels d

/-! ### What the turns leave alone -/

theorem Held.keep {file : Option Bytes} {sink : Sink} (h : Held destination labels file sink)
    (hopened : op ≠ .opened) (hsmooth : op.spoils = false) :
    Held destination (labels ++ [op]) file sink := by
  cases sink <;> simpa [Held, hopened, hopened.symm, hsmooth] using h

theorem Answered.keep {r : HttpResponse} (h : Answered labels r)
    (hop : ∀ r, op ≠ .responded r) : Answered (labels ++ [op]) r := by
  intro r' hmem
  rcases List.mem_append.mp hmem with hold | hlast
  · exact h r' hold
  · exact absurd (List.mem_singleton.mp hlast).symm (hop r')

/-- A turn that moves neither the body nor the file. -/
theorem Fits.keep (h : Fits labels d) (hstage : d'.stage = d.stage) (hsink : d'.sink = d.sink)
    (hfile : d'.file = d.file) (hcalled : d'.sinkClosed = d.sinkClosed)
    (hop : ∀ r, op ≠ .responded r) (hsmooth : op.spoils = false)
    (hpump : d.pumping = false → d'.pumping = false ∧ d'.buffered = d.buffered ∧
      op.delivered = []) :
    Fits (labels ++ [op]) d' := by
  have hwhole : d.buffered = d'.buffered → op.delivered = [] → Whole labels d →
      Whole (labels ++ [op]) d' := by
    intro hbuffered hsilent hwhole
    simpa [Whole, hsink, hfile, ← hbuffered, hsilent] using hwhole
  unfold Fits at h ⊢
  rw [hstage]
  cases hd : d.stage with
  | connecting | requesting =>
      rw [hd] at h
      obtain ⟨hnone, hopen, hnew⟩ := h
      refine ⟨hsink.trans hnone, hcalled.trans hopen, ?_⟩
      simpa [or_imp, forall_and, fun r => (hop r).symm] using hnew
  | rejecting r | creatingParent r =>
      rw [hd] at h
      obtain ⟨hnone, hopen, hanswered⟩ := h
      exact ⟨hsink.trans hnone, hcalled.trans hopen, hanswered.keep hop⟩
  | transferring r =>
      rw [hd] at h
      obtain ⟨hsome, hopen, hanswered⟩ := h
      exact ⟨by rwa [hsink], hcalled.trans hopen, hanswered.keep hop⟩
  | closing r outcome =>
      rw [hd] at h
      obtain ⟨hsome, hclosed, hok⟩ := h
      refine ⟨by rwa [hsink], ?_, ?_⟩
      · intro hshut
        obtain ⟨hall, hfull⟩ := hclosed (hsink ▸ hshut)
        exact ⟨smooth_snoc.mpr ⟨hall, hsmooth⟩, hfile ▸ hfull⟩
      · intro hdone
        obtain ⟨hanswered, hheld, hpumping⟩ := hok hdone
        obtain ⟨hpumping', hbuffered, hsilent⟩ := hpump hpumping
        exact ⟨hanswered.keep hop, hwhole hbuffered.symm hsilent hheld, hpumping'⟩
  | checking e | deleting e =>
      rw [hd] at h
      simpa [hsink, hfile, hsmooth] using h
  | returned =>
      rw [hd] at h
      obtain ⟨hshut, hall, hpumping, hwritten, htotal⟩ := h
      obtain ⟨hpumping', -, hsilent⟩ := hpump hpumping
      refine ⟨hsink.trans hshut, smooth_snoc.mpr ⟨hall, hsmooth⟩, hpumping', ?_, ?_⟩
      · simpa [hfile, hsilent] using hwritten
      · simpa [or_imp, forall_and, fun r => (hop r).symm, hsilent] using htotal
  | threw e =>
      rw [hd] at h
      simpa [hsink, hfile, hsmooth] using h

/-- While the sink is open, the body is transferring or closing. -/
theorem Fits.live (h : Fits labels d) (hlive : d.sink = .opening ∨ d.sink = .opened) :
    (∃ r, d.stage = .transferring r) ∨ ∃ r outcome, d.stage = .closing r outcome := by
  unfold Fits at h
  cases hd : d.stage with
  | transferring r => exact Or.inl ⟨r, rfl⟩
  | closing r outcome => exact Or.inr ⟨r, outcome, rfl⟩
  | connecting | requesting | rejecting | creatingParent | checking | deleting | returned =>
      rw [hd] at h
      rcases hlive with hsink | hsink <;> simp [hsink] at h
  | threw e =>
      rw [hd] at h
      rcases hlive with hsink | hsink
      · exact absurd hsink h.1
      · exact absurd hsink h.2.1

/-- While the file is on its way out, it is there, and closed. -/
theorem Fits.leaving {e : HttpError} (h : Fits labels d)
    (hstage : d.stage = .checking e ∨ d.stage = .deleting e) :
    d.sink = .closed ∧ Smooth labels ∧ d.file.isSome := by
  unfold Fits at h
  rcases hstage with hd | hd <;> rwa [hd] at h

/-- A turn of the file moves neither the body nor the pump. -/
theorem Fits.file (h : Fits labels d) (hlive : d.sink = .opening ∨ d.sink = .opened)
    (hstage : d'.stage = d.stage) (hcalled : d'.sinkClosed = d.sinkClosed)
    (hpumping : d'.pumping = d.pumping) (hop : ∀ r, op ≠ .responded r)
    (hsome : d'.sink ≠ .none) (hwhole : Whole labels d → Whole (labels ++ [op]) d')
    (hclosed : d'.sink = .closed → Smooth (labels ++ [op]) ∧ d'.file.isSome) :
    Fits (labels ++ [op]) d' := by
  rcases h.live hlive with ⟨r, hd⟩ | ⟨r, outcome, hd⟩
  · unfold Fits at h ⊢
    rw [hstage, hd]
    rw [hd] at h
    obtain ⟨-, hopen, hanswered⟩ := h
    exact ⟨hsome, hcalled.trans hopen, hanswered.keep hop⟩
  · unfold Fits at h ⊢
    rw [hstage, hd]
    rw [hd] at h
    obtain ⟨-, -, hok⟩ := h
    refine ⟨hsome, hclosed, ?_⟩
    intro hdone
    obtain ⟨hanswered, hheld, hidle⟩ := hok hdone
    exact ⟨hanswered.keep hop, hwhole hheld, hpumping.trans hidle⟩

theorem Fits.beforeOpen (h : Fits labels d) (hstage : d.stage.beforeOpen) :
    d.sink = .none ∧ d.sinkClosed = false := by
  unfold Fits at h
  cases hd : d.stage with
  | connecting | requesting | rejecting | creatingParent =>
      rw [hd] at h
      exact ⟨h.1, h.2.1⟩
  | _ => simp [hd, Stage.beforeOpen] at hstage

theorem Moves.received (h : Moves d op d') :
    d'.received = d.received + op.delivered.length := by
  cases h <;> rfl

/-- Nobody listens to the response before the sink is there. -/
theorem Moves.piped (h : Moves d op d') (hpiped : d.pumping = true → d.sink ≠ .none)
    (hpumping : d'.pumping = true) : d'.sink ≠ .none := by
  cases h with
  | parentCreated r hstage => exact Sink.noConfusion
  | opened | openFailed | writeFailed | closed | closeFailed => exact Sink.noConfusion
  | late | aborted | done | broken => exact Bool.noConfusion hpumping
  | _ => exact hpiped hpumping

theorem Moves.won (h : Moves d op d') (hfits : Fits labels d)
    (hpiped : d.pumping = true → d.sink ≠ .none)
    (hraced : d.race = some (.ok ()) → d.pumping = false ∧ d.sink ≠ .none)
    (hrace : d'.race = some (.ok ())) : d'.pumping = false ∧ d'.sink ≠ .none := by
  cases h with
  | parentCreated r hstage =>
      have hnone := (hfits.beforeOpen (by rw [hstage]; rfl)).1
      exact absurd hnone (hraced hrace).2
  | opened | openFailed | writeFailed | closed | closeFailed =>
      exact ⟨(hraced hrace).1, Sink.noConfusion⟩
  | late _ _ _ hpumping | aborted _ _ hpumping | done hpumping | broken _ hpumping =>
      exact ⟨rfl, hpiped hpumping⟩
  | stalled deadline e hstall =>
      apply hraced
      cases hd : d.race with
      | none => simp [hd] at hrace
      | some outcome => simpa [hd] using hrace
  | _ => exact hraced hrace

theorem Moves.shut (h : Moves d op d')
    (hshut : d.sink = .closed → d.sinkClosed = true ∧ d.buffered = [])
    (hsink : d'.sink = .closed) : d'.sinkClosed = true ∧ d'.buffered = [] := by
  cases h with
  | parentCreated | opened | openFailed | writeFailed | closeFailed => cases hsink
  | wrote data rest h => exact absurd (h.symm.trans hsink) Sink.noConfusion
  | closed h hcalled hdrained => exact ⟨hcalled, hdrained⟩
  | added data _ hcalled =>
      have hstill := (hshut hsink).1
      exact absurd (hcalled.symm.trans hstill) Bool.noConfusion
  | aborted data _ _ hcalled =>
      have hstill := (hshut hsink).1
      exact absurd (hcalled.symm.trans hstill) Bool.noConfusion
  | raced => exact ⟨rfl, (hshut hsink).2⟩
  | _ => exact hshut hsink

theorem Moves.called (h : Moves d op d') (hopen : d'.sinkClosed = false) :
    d.sinkClosed = false := by
  cases h with
  | raced => exact Bool.noConfusion hopen
  | _ => exact hopen

/-! ### What the file and the buffer hold -/

theorem Whole.silent (h : Whole labels d) (hsink : d'.sink = d.sink) (hfile : d'.file = d.file)
    (hbuffered : d'.buffered = d.buffered) (hsilent : op.delivered = []) :
    Whole (labels ++ [op]) d' := by
  simpa [Whole, hsink, hfile, hbuffered, hsilent] using h

theorem Whole.openWrite {r : HttpResponse} (h : Whole labels d) (hsink : d.sink = .none)
    (hsilent : op.delivered = []) : Whole (labels ++ [op]) (d.openWrite r) := by
  simp only [Whole, hsink] at h
  simp [Whole, Download.openWrite, arm, h.1, h.2, hsilent]

theorem Whole.opened (h : Whole labels d) (hsink : d.sink = .opening)  :
    Whole (labels ++ [.opened]) { d with sink := .opened, file := some [] } := by
  simp only [Whole, hsink] at h
  simp [Whole, h, DownloadOp.delivered]

theorem Whole.wrote {data : Bytes} {rest : List Bytes} (h : Whole labels d)
    (hsink : d.sink = .opened) (hfile : d.file.isSome) (hbuffered : d.buffered = data :: rest) :
    Whole (labels ++ [.wrote])
      { d with file := d.file.map (· ++ data), buffered := rest } := by
  obtain ⟨written, hwritten⟩ := Option.isSome_iff_exists.mp hfile
  simp only [Whole, hsink, hbuffered, hwritten] at h
  simpa [Whole, hsink, hwritten, DownloadOp.delivered] using h

theorem Whole.closed (h : Whole labels d) (hsink : d.sink = .opened) :
    Whole (labels ++ [.closed]) { d with sink := .closed } := by
  simp only [Whole, hsink] at h
  simpa [Whole, DownloadOp.delivered] using h

theorem Whole.add {data : Bytes} {thrown : Option HttpError} {received : Nat}
    (h : Whole labels d) (hnone : d.sink ≠ .none) (hclosed : d.sink ≠ .closed) :
    Whole (labels ++ [.chunk data thrown]) ({ d with received := received }.add data) := by
  unfold Whole at h ⊢
  cases hsink : d.sink with
  | none => exact absurd hsink hnone
  | closed => exact absurd hsink hclosed
  | failed e => simp [Download.add]
  | opening =>
      rw [hsink] at h
      simp [Download.add, h, DownloadOp.delivered]
  | opened =>
      rw [hsink] at h
      simp [Download.add, ← h, DownloadOp.delivered]

theorem Moves.whole (h : Moves d op d') (hstands : Stands destination labels d)
    (hopen : d'.sinkClosed = false) : Whole (labels ++ [op]) d' := by
  have hwhole := hstands.whole (h.called hopen)
  cases h with
  | parentCreated r hstage =>
      have hnone := (hstands.fits.beforeOpen (by rw [hstage]; rfl)).1
      exact hwhole.openWrite hnone rfl
  | opened hsink => exact hwhole.opened hsink
  | wrote data rest hsink hbuffered =>
      have hfull := hstands.held
      rw [hsink] at hfull
      exact hwhole.wrote hsink hfull.2.2 hbuffered
  | closed hsink => exact hwhole.closed hsink
  | openFailed | writeFailed | closeFailed => exact trivial
  | late data thrown e hpumping hcalled => exact absurd (hcalled.symm.trans hopen) Bool.noConfusion
  | deleted e hstage =>
      have hcalled := (hstands.shut (hstands.fits.leaving (Or.inr hstage)).1).1
      exact absurd (hcalled.symm.trans hopen) Bool.noConfusion
  | added data hpumping hcalled =>
      apply hwhole.add (hstands.piped hpumping)
      intro hshut
      exact absurd (hcalled.symm.trans (hstands.shut hshut).1) Bool.noConfusion
  | aborted data e hpumping hcalled =>
      apply hwhole.add (hstands.piped hpumping)
      intro hshut
      exact absurd (hcalled.symm.trans (hstands.shut hshut).1) Bool.noConfusion
  | _ => exact hwhole.silent rfl rfl rfl rfl

/-! ### What is at the destination -/

theorem Moves.held (h : Moves d op d') (hfits : Fits labels d)
    (hheld : Held destination labels d.file d.sink) :
    Held destination (labels ++ [op]) d'.file d'.sink := by
  cases h with
  | parentCreated r hstage =>
      rw [(hfits.beforeOpen (by rw [hstage]; rfl)).1] at hheld
      have hopening : Held destination labels d.file .opening := hheld
      exact hopening.keep DownloadOp.noConfusion rfl
  | opened hsink =>
      rw [hsink] at hheld
      exact ⟨by simp, smooth_snoc.mpr ⟨hheld.2.1, rfl⟩, rfl⟩
  | openFailed e hsink =>
      rw [hsink] at hheld
      obtain ⟨hnever, hall, hbefore⟩ := hheld
      exact Or.inl ⟨by simp [hnever], smooth_snoc.mpr ⟨hall, rfl⟩, hbefore⟩
  | wrote data rest hsink =>
      rw [hsink] at hheld ⊢
      obtain ⟨hopened, hall, hfull⟩ := hheld
      exact ⟨by simp [hopened], smooth_snoc.mpr ⟨hall, rfl⟩, by simpa using hfull⟩
  | writeFailed count e data hsink =>
      rw [hsink] at hheld
      obtain ⟨hopened, -, hfull⟩ := hheld
      exact Or.inr ⟨by simp [hopened], by simp [DownloadOp.spoils], by simpa using hfull⟩
  | closed hsink =>
      rw [hsink] at hheld
      exact List.mem_append_left _ hheld.1
  | closeFailed e hsink =>
      rw [hsink] at hheld
      obtain ⟨hopened, -, hfull⟩ := hheld
      exact Or.inr ⟨by simp [hopened], by simp [DownloadOp.spoils], hfull⟩
  | existsFailed e e' hstage =>
      rw [(hfits.leaving (Or.inl hstage)).1] at hheld ⊢
      exact List.mem_append_left _ hheld
  | deleted e hstage | deleteFailed e e' hstage =>
      rw [(hfits.leaving (Or.inr hstage)).1] at hheld ⊢
      exact List.mem_append_left _ hheld
  | _ => exact hheld.keep DownloadOp.noConfusion rfl

/-- Behind `await sink.close()` the file is the response, or it has to go. -/
theorem Stands.settle {r : HttpResponse} {outcome : Except HttpError Unit}
    (h : Stands destination labels d) (hstage : d.stage = .closing r outcome)
    (hsink : d.sink = .closed) :
    Fits (labels ++ [.resumed]) { d with stage := d.settle r outcome } := by
  have hfits := h.fits
  simp only [Fits, hstage] at hfits
  obtain ⟨-, hclosed, hok⟩ := hfits
  obtain ⟨hall, hfull⟩ := hclosed hsink
  have hall' : Smooth (labels ++ [.resumed]) := smooth_snoc.mpr ⟨hall, rfl⟩
  cases outcome with
  | error e => exact ⟨hsink, hall', hfull⟩
  | ok =>
      obtain ⟨hanswered, hwhole, hidle⟩ := hok rfl
      obtain ⟨written, hwritten⟩ := Option.isSome_iff_exists.mp hfull
      have hbytes : d.file = some (receivedBytes labels) := by
        simpa [Whole, hsink, hwritten, (h.shut hsink).2] using hwhole
      have hreturned (htotal : ∀ total, r.total = some total → d.received = total) :
          Fits (labels ++ [.resumed]) { d with stage := .returned } := by
        refine ⟨hsink, hall', hidle, by simpa [DownloadOp.delivered] using hbytes, ?_⟩
        intro r' total hmem hdeclared
        have hsame : r' = r := hanswered r' (by simpa using hmem)
        simpa [DownloadOp.delivered, ← h.counted] using htotal total (hsame ▸ hdeclared)
      unfold Download.settle
      cases htotal : r.total with
      | none => exact hreturned (by simp [htotal])
      | some total =>
          dsimp only
          split
          · exact ⟨hsink, hall', hfull⟩
          · rename_i hlength
            exact hreturned (by simpa [htotal] using hlength)

theorem Moves.fits (h : Moves d op d') (hstands : Stands destination labels d) :
    Fits (labels ++ [op]) d' := by
  have hfits := hstands.fits
  cases h with
  | connected hstage =>
      simp only [Fits, hstage] at hfits
      obtain ⟨hnone, hopen, hnew⟩ := hfits
      exact ⟨hnone, hopen, by simp [hnew]⟩
  | responded r stage hstage hnext =>
      simp only [Fits, hstage] at hfits
      obtain ⟨hnone, hopen, hnew⟩ := hfits
      have hanswered : Answered (labels ++ [.responded r]) r := by
        intro r' hmem
        simpa [hnew] using hmem
      rcases hnext with rfl | rfl <;> exact ⟨hnone, hopen, hanswered⟩
  | refused r text e hstage =>
      have hnone := (hfits.beforeOpen (by rw [hstage]; rfl)).1
      simp [Fits, hnone]
  | failed e hstage =>
      have hnone := (hfits.beforeOpen hstage).1
      simp [Fits, hnone]
  | parentCreated r hstage =>
      simp only [Fits, hstage] at hfits
      obtain ⟨hnone, hopen, hanswered⟩ := hfits
      exact ⟨Sink.noConfusion, hopen, hanswered.keep fun _ => DownloadOp.noConfusion⟩
  | opened hsink =>
      exact hfits.file (Or.inl hsink) rfl rfl rfl (fun _ => DownloadOp.noConfusion)
        Sink.noConfusion (fun hwhole => hwhole.opened hsink) Sink.noConfusion
  | openFailed e hsink =>
      exact hfits.file (Or.inl hsink) rfl rfl rfl (fun _ => DownloadOp.noConfusion)
        Sink.noConfusion (fun _ => trivial) Sink.noConfusion
  | wrote data rest hsink hbuffered =>
      have hfull := hstands.held
      rw [hsink] at hfull
      exact hfits.file (Or.inr hsink) rfl rfl rfl (fun _ => DownloadOp.noConfusion)
        (by simp [hsink]) (fun hwhole => hwhole.wrote hsink hfull.2.2 hbuffered)
        (by simp [hsink])
  | writeFailed count e data hsink =>
      exact hfits.file (Or.inr hsink) rfl rfl rfl (fun _ => DownloadOp.noConfusion)
        Sink.noConfusion (fun _ => trivial) Sink.noConfusion
  | closed hsink hcalled hdrained =>
      have hfull := hstands.held
      rw [hsink] at hfull
      exact hfits.file (Or.inr hsink) rfl rfl rfl (fun _ => DownloadOp.noConfusion)
        Sink.noConfusion (fun hwhole => hwhole.closed hsink)
        fun _ => ⟨smooth_snoc.mpr ⟨hfull.2.1, rfl⟩, hfull.2.2⟩
  | closeFailed e hsink =>
      exact hfits.file (Or.inr hsink) rfl rfl rfl (fun _ => DownloadOp.noConfusion)
        Sink.noConfusion (fun _ => trivial) Sink.noConfusion
  | raced r outcome hstage hrace =>
      simp only [Fits, hstage] at hfits
      obtain ⟨hsome, hopen, hanswered⟩ := hfits
      refine ⟨hsome, ?_, ?_⟩
      · intro hshut
        exact absurd (hopen.symm.trans (hstands.shut hshut).1) Bool.noConfusion
      · rintro rfl
        exact ⟨hanswered.keep fun _ => DownloadOp.noConfusion,
          (hstands.whole hopen).silent rfl rfl rfl rfl, (hstands.raced hrace).1⟩
  | closeThrew r outcome e hstage hsink => simp [Fits, hsink]
  | settled r outcome hstage hsink => exact hstands.settle hstage hsink
  | existed e hstage =>
      obtain ⟨hshut, hall, hfull⟩ := hfits.leaving (Or.inl hstage)
      simp only [hfull, if_true]
      exact ⟨hshut, smooth_snoc.mpr ⟨hall, rfl⟩, hfull⟩
  | existsFailed e e' hstage =>
      obtain ⟨hshut, -, hfull⟩ := hfits.leaving (Or.inl hstage)
      have hthere := Option.isSome_iff_ne_none.mp hfull
      simp [Fits, hshut, hthere, DownloadOp.spoils]
  | deleted e hstage =>
      obtain ⟨hshut, hall, -⟩ := hfits.leaving (Or.inr hstage)
      simp [Fits, hshut, hall, DownloadOp.spoils]
  | deleteFailed e e' hstage =>
      obtain ⟨hshut, -, hfull⟩ := hfits.leaving (Or.inr hstage)
      have hthere := Option.isSome_iff_ne_none.mp hfull
      simp [Fits, hshut, hthere, DownloadOp.spoils]
  | late _ _ _ hpumping | added _ hpumping | aborted _ _ hpumping | done hpumping
  | broken _ hpumping =>
      refine hfits.keep rfl rfl rfl rfl (fun _ => DownloadOp.noConfusion) rfl ?_
      intro hidle
      exact absurd (hpumping.symm.trans hidle) Bool.noConfusion
  | elapsed | stalled =>
      exact hfits.keep rfl rfl rfl rfl (fun _ => DownloadOp.noConfusion) rfl
        fun hidle => ⟨hidle, rfl, rfl⟩

theorem Stands.step (h : Stands destination labels d) (hstep : d.next op = some d') :
    Stands destination (labels ++ [op]) d' := by
  have hmove := next_moves hstep
  constructor
  case counted => simp [hmove.received, h.counted]
  case piped => exact hmove.piped h.piped
  case raced => exact hmove.won h.fits h.piped h.raced
  case shut => exact hmove.shut h.shut
  case whole => exact hmove.whole h
  case held => exact hmove.held h.fits h.held
  case fits => exact hmove.fits h

theorem stands_download (client : GoProHttp) (message : HttpMessage)
    (destination : Option Bytes) (values : Text → Option Text) :
    Stands destination [] (download client message destination values) := by
  have hsmooth : Smooth [] := fun op hmem => absurd hmem List.not_mem_nil
  unfold download
  split
  · constructor <;> simp [Whole, Held, Fits, receivedBytes, hsmooth]
  · split <;> constructor <;> simp [Whole, Held, Fits, receivedBytes, hsmooth]

theorem stands {client : GoProHttp} {message : HttpMessage}
    {values : Text → Option Text}
    (hrun : lts.Run (download client message destination values) labels d) :
    Stands destination labels d :=
  hrun.history (stands_download client message destination values)
    fun _ _ _ _ h hstep => h.step hstep

/-- At the end of a download the destination is kept exactly when no step on the opened
file failed. -/
theorem Stands.kept_iff (h : Stands destination labels d) (hfinished : d.stage.finished) :
    Kept destination labels d ↔ Smooth labels := by
  have hfits := h.fits
  have hheld := h.held
  unfold Fits at hfits
  unfold Kept
  cases hd : d.stage with
  | returned =>
      rw [hd] at hfits
      obtain ⟨-, hall, -, hwritten, htotal⟩ := hfits
      exact iff_of_true ⟨hwritten, htotal⟩ hall
  | threw e =>
      rw [hd] at hfits
      obtain ⟨hopening, hopened, hclosed⟩ := hfits
      cases hsink : d.sink with
      | opening => exact absurd hsink hopening
      | opened => exact absurd hsink hopened
      | none =>
          rw [hsink] at hheld
          obtain ⟨hnever, hall, hbefore⟩ := hheld
          simp [hnever, hall, hbefore]
      | failed e' =>
          rw [hsink] at hheld
          rcases hheld with ⟨hnever, hall, hbefore⟩ | ⟨honce, hspoilt, hfull⟩
          · simp [hnever, hall, hbefore]
          · have hthere := Option.isSome_iff_ne_none.mp hfull
            simp [honce, hspoilt, hthere]
      | closed =>
          rw [hsink] at hheld
          have honce : .opened ∈ labels := hheld
          simp [honce, hclosed hsink]
  | _ => simp [hd, Stage.finished] at hfinished

/-- At the end of a download the destination is kept exactly when no step on the opened
file failed. -/
theorem download_keeps_iff {client : GoProHttp} {message : HttpMessage}
    {values : Text → Option Text}
    (hrun : lts.Run (download client message destination values) labels d)
    (hfinished : d.stage.finished) : Kept destination labels d ↔ Smooth labels :=
  (stands hrun).kept_iff hfinished

/-- A download of a video to a path where nothing is. -/
def sample : Download :=
  download { base := { origin := "http://172.21.123.51:8080" } }
    { name := utf16 "download_file", endpoint := utf16 "videos/DCIM", response := .binary } none
    fun _ => none

/-- The camera goes away in the middle of the transfer. -/
def silence : List DownloadOp :=
  [.connected, .responded { statusCode := 200, contentLength := 4 }, .parentCreated, .opened,
    .chunk [1, 2, 3] none, .wrote, .elapsed 30000000, .stalled, .resumed, .closed, .resumed,
    .existed, .deleted]

theorem download_keeps_iff_silence :
    ∃ d, lts.Run sample silence d ∧ d.file = none ∧
      (Kept none silence d ↔ Smooth silence) := by
  obtain ⟨d, hexec, hfinished, hfile⟩ : ∃ d, Lts.exec next sample silence = some d ∧
      d.stage.finished ∧ d.file = none := ⟨_, rfl, rfl, rfl⟩
  have hrun : lts.Run sample silence d := Lts.run_of_exec hexec
  exact ⟨d, hrun, hfile, download_keeps_iff hrun hfinished⟩

/-- The response is complete, and the disk is full. -/
def fullDisk : List DownloadOp :=
  [.connected, .responded { statusCode := 200, contentLength := 4 }, .parentCreated, .opened,
    .chunk [1, 2, 3, 4] none, .writeFailed 2 (.other "No space left on device"), .done,
    .resumed, .resumed]

/-- Closing the sink throws, and two of four bytes stay. -/
theorem not_download_keeps :
    ¬∀ (client : GoProHttp) (message : HttpMessage) (destination : Option Bytes)
      (values : Text → Option Text) (labels : List DownloadOp) (d : Download),
      lts.Run (download client message destination values) labels d → d.stage.finished →
        Kept destination labels d := by
  intro hkeeps
  obtain ⟨d, hexec, hthrew, hfile⟩ : ∃ d, Lts.exec next sample fullDisk = some d ∧
      d.stage = .threw (.other "No space left on device") ∧ d.file = some [1, 2] :=
    ⟨_, rfl, rfl, rfl⟩
  have hkept := hkeeps _ _ none _ fullDisk d (Lts.run_of_exec hexec) (by rw [hthrew]; rfl)
  have hopened : .opened ∈ fullDisk := by decide
  simp [Kept, hthrew, hopened, hfile] at hkept

/-! ## Silence -/

/-- A transfer that is not decided listens, under a deadline. -/
def Armed (d : Download) : Prop :=
  ∀ r, d.stage = .transferring r → d.race = none →
    d.pumping = true ∧
      (d.stallTimeout ≠ 0 → ∃ deadline, d.stall = some deadline ∧
        deadline ≤ d.nowUs + d.stallTimeout.toNat)

theorem arm_armed (d : Download) (h : d.pumping = true) : Armed d.arm := by
  intro r hstage hrace
  refine ⟨h, fun htimeout => ?_⟩
  exact ⟨_, if_neg htimeout, Nat.le_refl _⟩

theorem settle_ne_transferring (d : Download) (r : HttpResponse)
    (outcome : Except HttpError Unit) (r' : HttpResponse) :
    d.settle r outcome ≠ .transferring r' := by
  unfold settle
  split
  · exact Stage.noConfusion
  · split
    · exact Stage.noConfusion
    · split <;> exact Stage.noConfusion

theorem Moves.armed (h : Moves d op d') (harmed : Armed d) : Armed d' := by
  cases h with
  | parentCreated r hstage => exact arm_armed _ rfl
  | added data hpumping => exact arm_armed _ hpumping
  | elapsed us =>
      intro r hstage hrace
      obtain ⟨hpumping, hdue⟩ := harmed r hstage hrace
      refine ⟨hpumping, fun htimeout => ?_⟩
      obtain ⟨deadline, hstall, hle⟩ := hdue htimeout
      exact ⟨deadline, hstall, by dsimp only; omega⟩
  | late | aborted | done | broken | stalled =>
      intro r hstage hrace
      simp [pumped] at hrace
  | responded r stage hstage hnext =>
      rintro r' rfl
      rcases hnext with hnext | hnext <;> cases hnext
  | settled r outcome hstage =>
      intro r' hsettle
      exact absurd hsettle (settle_ne_transferring d r outcome r')
  | existed e hstage =>
      intro r' hnext
      dsimp only at hnext
      split at hnext <;> cases hnext
  | connected | refused | failed | raced | closeThrew | existsFailed | deleted | deleteFailed =>
      intro r hstage
      cases hstage
  | _ => exact harmed

theorem download_not_transferring (client : GoProHttp) (message : HttpMessage)
    (destination : Option Bytes) (values : Text → Option Text) (r : HttpResponse) :
    (download client message destination values).stage ≠ .transferring r := by
  unfold download
  split
  · exact Stage.noConfusion
  · split <;> exact Stage.noConfusion

/-- A camera that falls silent is given up: the deadline passes, the timer fires, and the
body goes on to close the file and to throw. -/
theorem silence_is_given_up {client : GoProHttp} {message : HttpMessage}
    {values : Text → Option Text} {r : HttpResponse}
    (hrun : lts.Run (download client message destination values) labels d)
    (hstage : d.stage = .transferring r) (hrace : d.race = none) (htimeout : d.stallTimeout ≠ 0) :
    ∃ d', lts.Run d [.elapsed d.stallTimeout.toNat, .stalled, .resumed] d' ∧
      d'.stage = .closing r (.error (.stalled d.uri d.stallTimeout d.received)) := by
  have harmed : Armed d :=
    hrun.invariant (fun r hstage => absurd hstage (download_not_transferring _ _ _ _ r))
      fun _ _ _ harmed hstep => (next_moves hstep).armed harmed
  obtain ⟨-, hdue⟩ := harmed r hstage hrace
  obtain ⟨deadline, hstall, hle⟩ := hdue htimeout
  have hexec : Lts.exec next d [.elapsed d.stallTimeout.toNat, .stalled, .resumed] =
      some { d with
        nowUs := d.nowUs + d.stallTimeout.toNat
        stall := none
        race := some (.error (.stalled d.uri d.stallTimeout d.received))
        sinkClosed := true
        stage := .closing r (.error (.stalled d.uri d.stallTimeout d.received)) } := by
    simp [Lts.exec, next, resume, hstall, hle, hstage, hrace]
  exact ⟨_, Lts.run_of_exec hexec, rfl⟩

end Download

end GoproNative
