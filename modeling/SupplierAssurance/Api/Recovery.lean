import SupplierAssurance.Api.Decisions
import SupplierAssurance.Graphs.Client

/-! # Review requests one at a time, with failures

A request is taken when no other is in process.  It goes from await to await until it has
an answer, or it stops on the way: the process crashed, or the repository raised.

`persist_completed_review` makes three writes and decides from the first one alone whether
they are still to be made.  `Progress` is how far they have come; a request that stops
between the first and the last leaves a progress that no retry resumes.
-/

namespace SupplierAssurance.Api

open Python Lib Graphs

/-- The writes of the repository whose order matters. -/
inductive RepositoryWrite where
  | setStatus (caseId : UUID) (status : CaseStatus)
  | saveReview (reviewId : UUID)
deriving DecidableEq

/-- The write that a request makes at its next await. -/
def Handler.writes (request : ApiRequest) : Handler → Option RepositoryWrite
  | .markingInReview _ => some (.setStatus request.caseId .inReview)
  | .markingFailed .. => some (.setStatus request.caseId .reviewFailed)
  | .markingNew .. => some (.setStatus request.caseId .new)
  | .savingReview _ result => some (.saveReview result.reviewId)
  | .markingPending _ result => some (.setStatus result.caseId .pendingApproval)
  | _ => none

def Handler.raised : Handler → Bool
  | .done (.error _) => true
  | _ => false

structure SerialWorld where
  app : Application
  current : Option Handling
  /-- The application that the current request found. -/
  taken : Application
  journal : List RepositoryWrite

inductive SerialLabel where
  | submit (request : ApiRequest)
  | advance (services : Services) (ambient : Ambient)
  | stop

namespace SerialWorld

def idle (app : Application) : SerialWorld := ⟨app, none, app, []⟩

/-- The request in process. -/
def pending (w : SerialWorld) : Option Handling :=
  match w.current with
  | some ⟨_, .done _⟩ | none => none
  | some handling => some handling

def step (schemas : JsonSchemas) (w : SerialWorld) : SerialLabel → Option SerialWorld
  | .submit request =>
    match w.pending with
    | none => some { w with current := some ⟨request, .authorizing⟩, taken := w.app }
    | some _ => none
  | .advance services ambient =>
    match w.pending with
    | none => none
    | some ⟨request, handler⟩ =>
      (handler.advance schemas services ambient w.app request).map fun (app, next) =>
        { w with
          app
          current := some ⟨request, next⟩
          journal := if next.raised then w.journal else w.journal ++ (handler.writes request).toList }
  | .stop => w.pending.map fun _ => { w with current := none }

end SerialWorld

/-- The requests are for this execution. -/
def SerialLabel.ForExecution (home : SupplierCase) (executionId : UUID) : SerialLabel → Prop
  | .submit request => request.caseId = home.id ∧ request.executionId home = executionId
  | .advance .. | .stop => True

instance (home : SupplierCase) (executionId : UUID) :
    DecidablePred (SerialLabel.ForExecution home executionId)
  | .submit _ => inferInstanceAs (Decidable (_ ∧ _))
  | .advance .. | .stop => instDecidableTrue

/-! ## The property -/

/-- A case of which the execution has not started. -/
structure NotStarted (home : SupplierCase) (executionId : UUID) (app : Application) : Prop where
  case_ : app.repo.cases home.id = some home
  thread : app.threads executionId = none
  review : app.repo.reviewsById executionId = none
  events : ∀ event ∈ app.repo.events home.id, isCompleted executionId event = false

/-- The completed review is recorded in full. -/
structure ReviewRecorded (home : SupplierCase) (executionId : UUID) (w : SerialWorld) : Prop where
  stored : ∃ result, w.app.repo.reviewsById executionId = some result
  completed : (w.app.repo.events home.id).countP (isCompleted executionId) = 1
  moved : List.Sublist [.saveReview executionId, .setStatus home.id .pendingApproval] w.journal

/-- The request answers that the review is completed. -/
def SerialWorld.AnswersCompleted (w : SerialWorld) : Prop :=
  ∃ request execution, w.current = some ⟨request, .done (.ok execution)⟩ ∧
    execution.status = .completed

/-! ## How far the record has come -/

inductive Progress where
  | absent | saved | pending | recorded
deriving DecidableEq

structure Ledger (home : SupplierCase) (executionId : UUID) (repo : InMemoryCaseRepository)
    (journal : List RepositoryWrite) (progress : Progress) : Prop where
  stored : repo.reviewsById executionId = none ↔ progress = .absent
  events : (repo.events home.id).countP (isCompleted executionId) =
    if progress = .recorded then 1 else 0
  saved : progress ≠ .absent → List.Sublist [.saveReview executionId] journal
  moved : progress = .pending ∨ progress = .recorded →
    List.Sublist [.saveReview executionId, .setStatus home.id .pendingApproval] journal

/-- The progress that a request leaves when it stops between the first write and the last. -/
def Handler.window : Handler → Option Progress
  | .markingPending .. => some .saved
  | .recordingCompleted .. => some .pending
  | _ => none

def SerialWorld.window (w : SerialWorld) : Option Progress :=
  w.current.bind (·.handler.window)

/-- No request stops between its `save_review` and its `review.completed`. -/
def SerialWorld.Unbroken (w : SerialWorld) : SerialLabel → Prop
  | .stop => w.window = none
  | .submit _ | .advance .. => True

instance (w : SerialWorld) : DecidablePred w.Unbroken
  | .stop => inferInstanceAs (Decidable (_ = none))
  | .submit _ | .advance .. => instDecidableTrue

structure OwnResult (home : SupplierCase) (executionId : UUID) (result : ReviewResult) : Prop where
  reviewId : result.reviewId = executionId
  caseId : result.caseId = home.id

def OwnExecution (home : SupplierCase) (executionId : UUID) (execution : ReviewExecution) : Prop :=
  execution.status = .completed →
    ∃ result, execution.result = some result ∧ OwnResult home executionId result

/-- What the local variables of a request say, given the progress. -/
def Handler.Fits (home : SupplierCase) (executionId : UUID) (progress : Progress) : Handler → Prop
  | .authorizing | .markingFailed .. | .recordingFailed .. | .done (.error _) => True
  | .loading supplierCase | .markingInReview supplierCase | .recordingStarted supplierCase
  | .starting supplierCase | .resuming supplierCase _ => SameCase home supplierCase
  | .recordingResumed _ _ execution => OwnExecution home executionId execution
  | .recordingAwaiting _ execution | .markingNew _ execution | .recordingCancelled _ execution =>
    execution.status ≠ .completed
  | .findingReview _ result => OwnResult home executionId result
  | .savingReview _ result => OwnResult home executionId result ∧ progress = .absent
  | .markingPending _ result => OwnResult home executionId result ∧ progress = .saved
  | .recordingCompleted _ result => OwnResult home executionId result ∧ progress = .pending
  | .done (.ok execution) => execution.status = .completed → progress ≠ .absent

structure SerialOk (home : SupplierCase) (executionId : UUID) (w : SerialWorld)
    (progress : Progress) : Prop where
  case_ : ∃ supplierCase, w.app.repo.cases home.id = some supplierCase ∧ SameCase home supplierCase
  inScope : ∀ checkpoint, w.app.threads executionId = some checkpoint →
    InScope home executionId checkpoint.values
  target : ∀ handling ∈ w.current, handling.request.caseId = home.id ∧
    handling.request.executionId home = executionId
  handler : ∀ handling ∈ w.current, handling.handler.Fits home executionId progress
  ledger : Ledger home executionId w.app.repo w.journal progress

/-- What a step does to the progress. -/
inductive Moves (w w' : SerialWorld) (label : SerialLabel) : Progress → Progress → Prop
  | stays {progress : Progress} : w.window = none ∨ label = .stop → w'.window = none →
      Moves w w' label progress progress
  | saves : w'.window = some .saved → Moves w w' label .absent .saved
  | pends : w.window = some .saved → w'.window = some .pending → Moves w w' label .saved .pending
  | records : w.window = some .pending → w'.window = none → Moves w w' label .pending .recorded

section

variable {schemas : JsonSchemas} {services : Services} {ambient : Ambient}
variable {home supplierCase : SupplierCase} {executionId : UUID} {execution : ReviewExecution}
variable {w w' : SerialWorld} {app : Application} {progress : Progress}
variable {request : ApiRequest} {handler next : Handler}

/-! ## The workflow keeps to the execution -/

theorem Performs.inScope {thread : Thread} {call : ClientCall}
    {result : Thread × Except ReviewError ReviewExecution} {exchanges : List Exchange}
    (performed : Performs schemas services executionId thread call result exchanges)
    (inScope : ∀ checkpoint, thread = some checkpoint → InScope home executionId checkpoint.values)
    (same : SameCase home call.supplierCase) :
    ∀ checkpoint, result.1 = some checkpoint → InScope home executionId checkpoint.values := by
  intro checkpoint left
  cases performed with
  | absent => cases left
  | refused thread | read thread =>
    cases left
    exact inScope _ thread
  | @started _ required _ thread isInput =>
    cases left
    subst isInput
    exact InScope.outcome (InScope.startOver services none required same)
  | resumed thread _ _ isResume =>
    cases left
    subst isResume
    exact InScope.outcome (inScope _ thread)

theorem ownExecution_of_snapshot {checkpoint : ReviewCheckpoint}
    (inScope : InScope home executionId checkpoint.values)
    (read : executionFromSnapshot checkpoint = .ok execution) :
    OwnExecution home executionId execution := by
  intro completed
  obtain ⟨result, got, reviewId, caseId⟩ := completed_result read completed
  exact ⟨result, got, reviewId.trans inScope.executionId, caseId.trans inScope.caseId⟩

theorem Performs.ownExecution {thread : Thread} {call : ClientCall}
    {result : Thread × Except ReviewError ReviewExecution} {exchanges : List Exchange}
    (performed : Performs schemas services executionId thread call result exchanges)
    (inScope : ∀ checkpoint, thread = some checkpoint → InScope home executionId checkpoint.values)
    (same : SameCase home call.supplierCase) (ok : result.2 = .ok execution) :
    OwnExecution home executionId execution := by
  obtain ⟨checkpoint, left, read⟩ := performed.snapshot ok
  exact ownExecution_of_snapshot (Performs.inScope performed inScope same checkpoint left) read

/-! ## Where the branches lead -/

theorem completedBranch_fits (own : OwnExecution home executionId execution)
    (completed : execution.status = .completed) :
    (completedBranch execution).Fits home executionId progress ∧
      (completedBranch execution).window = none := by
  obtain ⟨result, got, ownResult⟩ := own completed
  simp only [completedBranch, got]
  exact ⟨ownResult, rfl⟩

theorem startBranch_fits (created : Bool) (own : OwnExecution home executionId execution) :
    (startBranch executionId supplierCase created execution).Fits home executionId progress ∧
      (startBranch executionId supplierCase created execution).window = none := by
  cases status : execution.status with
  | completed =>
    simp only [startBranch, status]
    exact completedBranch_fits own status
  | cancelled | awaitingInput =>
    simp only [startBranch, status]
    split <;> simp [Handler.Fits, Handler.window, status]
  | running => simp [startBranch, status, Handler.Fits, Handler.window]

/-- After `workflow.start`. -/
def afterStart (executionId : UUID) (supplierCase : SupplierCase) :
    Except ReviewError ReviewExecution → Handler
  | .ok execution => startBranch executionId supplierCase true execution
  | .error e => .markingFailed executionId e

theorem afterStart_fits {answer : Except ReviewError ReviewExecution}
    (own : ∀ execution, answer = .ok execution → OwnExecution home executionId execution) :
    (afterStart executionId supplierCase answer).Fits home executionId progress ∧
      (afterStart executionId supplierCase answer).window = none := by
  cases answer with
  | error e => exact ⟨trivial, rfl⟩
  | ok execution => exact startBranch_fits true (own execution rfl)

theorem resumeBranch_fits (current : ReviewExecution) (own : OwnExecution home executionId execution) :
    (resumeBranch executionId supplierCase current execution).Fits home executionId progress ∧
      (resumeBranch executionId supplierCase current execution).window = none := by
  cases status : execution.status with
  | completed =>
    simp only [resumeBranch, status]
    exact completedBranch_fits own status
  | cancelled =>
    simp only [resumeBranch, status]
    split <;> simp [Handler.Fits, Handler.window, status]
  | awaitingInput | running => simp [resumeBranch, status, Handler.Fits, Handler.window]

theorem afterResume_fits (current : ReviewExecution) {answer : Except ReviewError ReviewExecution}
    (own : ∀ execution, answer = .ok execution → OwnExecution home executionId execution) :
    (afterResume executionId supplierCase current answer).Fits home executionId progress ∧
      (afterResume executionId supplierCase current answer).window = none := by
  cases answer with
  | error e => simp [afterResume, Handler.Fits, Handler.window]
  | ok execution =>
    by_cases waiting : current.status = .awaitingInput
    · simp only [afterResume, waiting, if_true]
      exact ⟨own execution rfl, rfl⟩
    · simp only [afterResume, waiting, if_false]
      exact resumeBranch_fits current (own execution rfl)

/-! ## Writes of the repository

The case is there, so none of them raises. -/

theorem SerialOk.setStatus (ok : SerialOk home executionId w progress) (ambient : Ambient)
    (status : CaseStatus) (next : Handler) :
    ∃ repo, w.app.write (w.app.repo.setStatus ambient home.id status) next =
        ({ w.app with repo }, next) ∧
      repo.reviewsById = w.app.repo.reviewsById ∧ repo.events = w.app.repo.events ∧
      ∃ supplierCase, repo.cases home.id = some supplierCase ∧ SameCase home supplierCase := by
  obtain ⟨supplierCase, known, same⟩ := ok.case_
  simp only [Application.write, InMemoryCaseRepository.setStatus, InMemoryCaseRepository.get, known,
    bind, Except.bind, pure, Except.pure]
  exact ⟨_, rfl, rfl, rfl, _, Function.update_self .., same⟩

theorem SerialOk.appendAuditEvent (ok : SerialOk home executionId w progress) (ambient : Ambient)
    (event : AuditEventCreate) (onCase : event.caseId = home.id) (next : Handler) :
    ∃ repo, w.app.write (w.app.repo.appendAuditEvent ambient event) next =
        ({ w.app with repo }, next) ∧
      repo.reviewsById = w.app.repo.reviewsById ∧ repo.cases = w.app.repo.cases ∧
      repo.events home.id = w.app.repo.events home.id ++
        [{ event with id := ambient.uuid, createdAt := ambient.now }] := by
  obtain ⟨supplierCase, known, _⟩ := ok.case_
  simp only [Application.write, InMemoryCaseRepository.appendAuditEvent, InMemoryCaseRepository.get,
    onCase, known, bind, Except.bind, pure, Except.pure]
  exact ⟨_, rfl, rfl, rfl, Function.update_self ..⟩

/-! ## One step of a request -/

/-- The world after a step of the current request. -/
def SerialWorld.advanced (w : SerialWorld) (request : ApiRequest) (handler : Handler)
    (app : Application) (next : Handler) : SerialWorld :=
  { w with
    app
    current := some ⟨request, next⟩
    journal := if next.raised then w.journal else w.journal ++ (handler.writes request).toList }

theorem sublist_advanced (w : SerialWorld) (request : ApiRequest) (handler : Handler)
    (app : Application) (next : Handler) :
    w.journal.Sublist (w.advanced request handler app next).journal := by
  simp only [SerialWorld.advanced]
  split
  · exact .refl _
  · exact List.sublist_append_left ..

/-- The progress after a step. -/
def Advances (home : SupplierCase) (executionId : UUID) (w w' : SerialWorld) (label : SerialLabel)
    (progress : Progress) : Prop :=
  ∃ progress', SerialOk home executionId w' progress' ∧ Moves w w' label progress progress'

theorem SerialOk.advanced (ok : SerialOk home executionId w progress) {progress' : Progress}
    (at_ : w.current = some ⟨request, handler⟩)
    (case_ : ∃ supplierCase, app.repo.cases home.id = some supplierCase ∧ SameCase home supplierCase)
    (inScope : ∀ checkpoint, app.threads executionId = some checkpoint →
      InScope home executionId checkpoint.values)
    (fits : next.Fits home executionId progress')
    (ledger : Ledger home executionId app.repo (w.advanced request handler app next).journal progress') :
    SerialOk home executionId (w.advanced request handler app next) progress' where
  case_ := case_
  inScope := inScope
  target := by
    intro handling isCurrent
    cases isCurrent
    exact ok.target ⟨request, handler⟩ at_
  handler := by
    intro handling isCurrent
    cases isCurrent
    exact fits
  ledger := ledger

/-- A step that leaves the record of the review alone. -/
theorem SerialOk.stays (ok : SerialOk home executionId w progress)
    (at_ : w.current = some ⟨request, handler⟩)
    (outside : handler.window = none) (outside' : next.window = none)
    (fits : next.Fits home executionId progress)
    (case_ : ∃ supplierCase, app.repo.cases home.id = some supplierCase ∧ SameCase home supplierCase)
    (inScope : ∀ checkpoint, app.threads executionId = some checkpoint →
      InScope home executionId checkpoint.values)
    (reviews : app.repo.reviewsById = w.app.repo.reviewsById)
    (events : (app.repo.events home.id).countP (isCompleted executionId) =
      (w.app.repo.events home.id).countP (isCompleted executionId)) :
    Advances home executionId w (w.advanced request handler app next) (.advance services ambient)
      progress := by
  refine ⟨progress, ok.advanced at_ case_ inScope fits ?_, .stays (.inl ?_) outside'⟩
  · have grown := sublist_advanced w request handler app next
    constructor
    · rw [reviews]
      exact ok.ledger.stored
    · exact events.trans ok.ledger.events
    · exact fun stored => (ok.ledger.saved stored).trans grown
    · exact fun late => (ok.ledger.moved late).trans grown
  · simp [SerialWorld.window, at_, outside]

/-- A step that only reads. -/
theorem SerialOk.reads (ok : SerialOk home executionId w progress)
    (at_ : w.current = some ⟨request, handler⟩)
    (outside : handler.window = none) (outside' : next.window = none)
    (fits : next.Fits home executionId progress) :
    Advances home executionId w (w.advanced request handler w.app next) (.advance services ambient)
      progress :=
  ok.stays at_ outside outside' fits ok.case_ ok.inScope rfl rfl

theorem SerialOk.marks (ok : SerialOk home executionId w progress)
    (at_ : w.current = some ⟨request, handler⟩) (status : CaseStatus) (next : Handler)
    (outside : handler.window = none) (outside' : next.window = none)
    (fits : next.Fits home executionId progress) :
    Advances home executionId w
      (w.advanced request handler
        (w.app.write (w.app.repo.setStatus ambient home.id status) next).1
        (w.app.write (w.app.repo.setStatus ambient home.id status) next).2)
      (.advance services ambient) progress := by
  obtain ⟨repo, written, reviews, events, case_⟩ := ok.setStatus ambient status next
  rw [written]
  exact ok.stays at_ outside outside' fits case_ ok.inScope reviews (by simp only [events])

/-- A step that appends an event other than `review.completed`. -/
theorem SerialOk.appends (ok : SerialOk home executionId w progress)
    (at_ : w.current = some ⟨request, handler⟩) (event : AuditEventCreate) (next : Handler)
    (onCase : event.caseId = home.id) (other : event.eventType ≠ "review.completed")
    (outside : handler.window = none) (outside' : next.window = none)
    (fits : next.Fits home executionId progress) :
    Advances home executionId w
      (w.advanced request handler
        (w.app.write (w.app.repo.appendAuditEvent ambient event) next).1
        (w.app.write (w.app.repo.appendAuditEvent ambient event) next).2)
      (.advance services ambient) progress := by
  obtain ⟨repo, written, reviews, cases_, events⟩ := ok.appendAuditEvent ambient event onCase next
  rw [written]
  refine ok.stays at_ outside outside' fits ?_ ok.inScope reviews ?_
  · simp only [cases_]
    exact ok.case_
  · simp [events, isCompleted, other]

/-- The first write of `persist_completed_review`. -/
theorem SerialOk.saves (ok : SerialOk home executionId w progress) {result : ReviewResult}
    (at_ : w.current = some ⟨request, .savingReview execution result⟩) :
    Advances home executionId w
      (w.advanced request (.savingReview execution result)
        { w.app with repo := w.app.repo.saveReview result } (.markingPending execution result))
      (.advance services ambient) progress := by
  obtain ⟨own, absent⟩ := ok.handler _ at_
  subst absent
  have fresh : w.app.repo.reviewsById result.reviewId = none :=
    own.reviewId ▸ ok.ledger.stored.mpr rfl
  have saved : w.app.repo.saveReview result = { w.app.repo with
      reviews := Function.update w.app.repo.reviews result.caseId
        (w.app.repo.reviews result.caseId ++ [result])
      reviewsById := Function.update w.app.repo.reviewsById result.reviewId (some result) } := by
    simp only [InMemoryCaseRepository.saveReview, fresh]
  rw [saved]
  refine ⟨.saved, ok.advanced at_ ok.case_ ok.inScope ⟨own, rfl⟩ ?_, .saves rfl⟩
  constructor
  · simp [own.reviewId]
  · exact ok.ledger.events
  · intro _
    simp [SerialWorld.advanced, Handler.raised, Handler.writes, own.reviewId]
  · simp

/-- The second. -/
theorem SerialOk.pends (ok : SerialOk home executionId w progress) {result : ReviewResult}
    (at_ : w.current = some ⟨request, .markingPending execution result⟩) :
    Advances home executionId w
      (w.advanced request (.markingPending execution result)
        (w.app.write (w.app.repo.setStatus ambient result.caseId .pendingApproval)
          (.recordingCompleted execution result)).1
        (w.app.write (w.app.repo.setStatus ambient result.caseId .pendingApproval)
          (.recordingCompleted execution result)).2)
      (.advance services ambient) progress := by
  obtain ⟨own, isSaved⟩ := ok.handler _ at_
  subst isSaved
  obtain ⟨repo, written, reviews, events, case_⟩ :=
    ok.setStatus ambient .pendingApproval (.recordingCompleted execution result)
  rw [own.caseId, written]
  refine ⟨.pending, ok.advanced at_ case_ ok.inScope ⟨own, rfl⟩ ?_, .pends ?_ rfl⟩
  · have saved := ok.ledger.saved (by simp)
    have stored := ok.ledger.stored
    have none := ok.ledger.events
    have journal : (w.advanced request (.markingPending execution result) { w.app with repo }
        (.recordingCompleted execution result)).journal =
          w.journal ++ [.setStatus home.id .pendingApproval] := by
      simp [SerialWorld.advanced, Handler.raised, Handler.writes, own.caseId]
    constructor
    · simpa [reviews] using stored
    · simpa [events] using none
    · intro _
      rw [journal]
      exact saved.trans (List.sublist_append_left ..)
    · intro _
      rw [journal]
      exact saved.append (.refl [RepositoryWrite.setStatus home.id .pendingApproval])
  · simp [SerialWorld.window, at_, Handler.window]

/-- The last: the event. -/
theorem SerialOk.records (ok : SerialOk home executionId w progress) {result : ReviewResult}
    (at_ : w.current = some ⟨request, .recordingCompleted execution result⟩) :
    Advances home executionId w
      (w.advanced request (.recordingCompleted execution result)
        (w.app.write (w.app.repo.appendAuditEvent ambient (reviewCompleted result))
          (.done (.ok execution))).1
        (w.app.write (w.app.repo.appendAuditEvent ambient (reviewCompleted result))
          (.done (.ok execution))).2)
      (.advance services ambient) progress := by
  obtain ⟨own, isPending⟩ := ok.handler _ at_
  subst isPending
  obtain ⟨repo, written, reviews, cases_, events⟩ :=
    ok.appendAuditEvent ambient (reviewCompleted result) own.caseId (.done (.ok execution))
  rw [written]
  refine ⟨.recorded, ok.advanced at_ ?_ ok.inScope (by simp [Handler.Fits]) ?_, .records ?_ rfl⟩
  · simp only [cases_]
    exact ok.case_
  · have stored := ok.ledger.stored
    have none := ok.ledger.events
    have moved := ok.ledger.moved (.inl rfl)
    have saved := ok.ledger.saved (by simp)
    have journal : (w.advanced request (.recordingCompleted execution result) { w.app with repo }
        (.done (.ok execution))).journal = w.journal := by
      simp [SerialWorld.advanced, Handler.raised, Handler.writes]
    constructor
    · simpa [reviews] using stored
    · simp only [reduceCtorEq, if_false] at none
      simp [events, none, isCompleted, reviewCompleted, own.reviewId]
    · intro _
      rw [journal]
      exact saved
    · intro _
      rw [journal]
      exact moved
  · simp [SerialWorld.window, at_, Handler.window]

theorem SerialOk.authorized (ok : SerialOk home executionId w progress) {principal : Principal}
    (authorized : authorize w.app.repo home.id principal = .ok supplierCase) :
    SameCase home supplierCase := by
  obtain ⟨stored, known, same⟩ := ok.case_
  simp only [authorize, InMemoryCaseRepository.get, known] at authorized
  split at authorized
  · cases authorized
  · split at authorized
    · cases authorized
    · cases authorized
      exact same

/-- What `get_execution` returns belongs to the execution. -/
theorem SerialOk.loaded (ok : SerialOk home executionId w progress)
    (found : getExecution (w.app.threads executionId) supplierCase executionId = .ok execution) :
    OwnExecution home executionId execution := by
  obtain ⟨checkpoint, thread, read⟩ := getExecution_ok found
  exact ownExecution_of_snapshot (ok.inScope checkpoint thread) read

/-- A step that calls the workflow. -/
theorem SerialOk.calls (ok : SerialOk home executionId w progress)
    (at_ : w.current = some ⟨request, handler⟩) (call : ClientCall)
    (same : SameCase home call.supplierCase) (branch : Except ReviewError ReviewExecution → Handler)
    (outside : handler.window = none)
    (branch_fits : ∀ answer, (∀ execution, answer = .ok execution →
      OwnExecution home executionId execution) →
      (branch answer).Fits home executionId progress ∧ (branch answer).window = none) :
    let performed := call.perform schemas services executionId (w.app.threads executionId)
    Advances home executionId w
      (w.advanced request handler (w.app.setThread executionId performed.1) (branch performed.2))
      (.advance services ambient) progress := by
  intro performed
  have performs : Performs schemas services executionId (w.app.threads executionId) call performed _ :=
    performs call
  obtain ⟨fits, outside'⟩ := branch_fits performed.2
    fun execution answered => Performs.ownExecution performs ok.inScope same answered
  refine ok.stays at_ outside outside' fits ok.case_ ?_ rfl rfl
  intro checkpoint left
  simp only [Application.setThread, Function.update_self] at left
  exact Performs.inScope performs ok.inScope same checkpoint left

theorem serialOk_advance (ok : SerialOk home executionId w progress)
    (at_ : w.current = some ⟨request, handler⟩)
    (moved : handler.advance schemas services ambient w.app request = some (app, next)) :
    Advances home executionId w (w.advanced request handler app next) (.advance services ambient)
      progress := by
  obtain ⟨onCase, onExecution⟩ := ok.target _ at_
  have fits := ok.handler _ at_
  simp only at onCase onExecution fits
  cases handler with
  | authorizing =>
    simp only [Handler.advance, onCase] at moved
    split at moved
    · cases moved
      exact ok.reads at_ rfl rfl trivial
    next authorized =>
      cases moved
      exact ok.reads at_ rfl rfl (ok.authorized authorized)
  | loading supplierCase =>
    have target : request.executionId supplierCase = executionId :=
      (executionId_of_sameCase fits request).trans onExecution
    simp only [Handler.advance, target] at moved
    split at moved
    next found =>
      cases moved
      obtain ⟨branch, outside⟩ := startBranch_fits false (ok.loaded found)
      exact ok.reads at_ rfl outside branch
    all_goals
      cases moved
      exact ok.reads at_ rfl rfl (by first | exact fits | trivial)
  | markingInReview supplierCase =>
    simp only [Handler.advance, onCase, Option.some.injEq, Prod.ext_iff] at moved
    obtain ⟨rfl, rfl⟩ := moved
    exact ok.marks at_ .inReview _ rfl rfl fits
  | recordingStarted supplierCase =>
    cases request with
    | resume => cases moved
    | start caseId idempotencyKey required principal =>
      simp only [Handler.advance, Option.some.injEq, Prod.ext_iff] at moved
      obtain ⟨rfl, rfl⟩ := moved
      exact ok.appends at_ _ _ onCase (by simp [reviewStarted]) rfl rfl fits
  | starting supplierCase =>
    cases request with
    | resume => cases moved
    | start caseId idempotencyKey required principal =>
      have target := (executionId_of_sameCase fits _).trans onExecution
      simp only [Handler.advance, target, Option.some.injEq, Prod.ext_iff] at moved
      obtain ⟨rfl, rfl⟩ := moved
      -- whatever `start` answers, the next await is outside the window
      exact ok.calls at_ (.start supplierCase required) fits (afterStart executionId supplierCase) rfl
        fun answer own => afterStart_fits own
  | markingFailed executionId' e =>
    simp only [Handler.advance, onCase, Option.some.injEq, Prod.ext_iff] at moved
    obtain ⟨rfl, rfl⟩ := moved
    exact ok.marks at_ .reviewFailed _ rfl rfl trivial
  | recordingFailed executionId' e =>
    simp only [Handler.advance, Option.some.injEq, Prod.ext_iff] at moved
    obtain ⟨rfl, rfl⟩ := moved
    exact ok.appends at_ _ _ onCase (by simp [reviewFailed]) rfl rfl trivial
  | recordingAwaiting executionId' execution =>
    simp only [Handler.advance, Option.some.injEq, Prod.ext_iff] at moved
    obtain ⟨rfl, rfl⟩ := moved
    exact ok.appends at_ _ _ onCase (by simp [reviewAwaitingInput]) rfl rfl
      fun completed => absurd completed fits
  | resuming supplierCase current =>
    cases request with
    | start => cases moved
    | resume caseId executionId' confirmation principal =>
      have target : executionId' = executionId := onExecution
      subst target
      simp only [Handler.advance, Option.some.injEq, Prod.ext_iff] at moved
      obtain ⟨rfl, rfl⟩ := moved
      exact ok.calls at_ (.resume supplierCase confirmation) fits
        (afterResume executionId' supplierCase current) rfl
        fun answer own => afterResume_fits current own
  | recordingResumed supplierCase current execution =>
    cases request with
    | start => cases moved
    | resume caseId executionId' confirmation principal =>
      have target : executionId' = executionId := onExecution
      subst target
      simp only [Handler.advance, Option.some.injEq, Prod.ext_iff] at moved
      obtain ⟨rfl, rfl⟩ := moved
      obtain ⟨branch, outside⟩ := resumeBranch_fits current fits
      exact ok.appends at_ _ _ onCase (by simp [reviewResumed]) rfl outside branch
  | findingReview execution result =>
    simp only [Handler.advance] at moved
    split at moved
    next found =>
      cases moved
      -- the review is stored, so the request cannot have come before the first write
      refine ok.reads at_ rfl rfl ?_
      intro _ absent
      rw [InMemoryCaseRepository.getReview, fits.reviewId, ok.ledger.stored.mpr absent] at found
      cases found
    next missing =>
      cases moved
      refine ok.reads at_ rfl rfl ⟨fits, ?_⟩
      apply ok.ledger.stored.mp
      simp only [InMemoryCaseRepository.getReview, fits.reviewId] at missing
      split at missing
      · assumption
      · cases missing
  | savingReview execution result =>
    cases moved
    exact ok.saves at_
  | markingPending execution result =>
    simp only [Handler.advance, Option.some.injEq, Prod.ext_iff] at moved
    obtain ⟨rfl, rfl⟩ := moved
    exact ok.pends at_
  | recordingCompleted execution result =>
    simp only [Handler.advance, Option.some.injEq, Prod.ext_iff] at moved
    obtain ⟨rfl, rfl⟩ := moved
    exact ok.records at_
  | markingNew executionId' execution =>
    simp only [Handler.advance, onCase, Option.some.injEq, Prod.ext_iff] at moved
    obtain ⟨rfl, rfl⟩ := moved
    exact ok.marks at_ .new _ rfl rfl fits
  | recordingCancelled executionId' execution =>
    simp only [Handler.advance, Option.some.injEq, Prod.ext_iff] at moved
    obtain ⟨rfl, rfl⟩ := moved
    exact ok.appends at_ _ _ onCase (by simp [reviewCancelled]) rfl rfl
      fun completed => absurd completed fits
  | done => cases moved

theorem SerialWorld.current_of_pending {handling : Handling} (inProcess : w.pending = some handling) :
    w.current = some handling := by
  simp only [SerialWorld.pending] at inProcess
  split at inProcess <;> simp_all

theorem SerialWorld.window_of_not_pending (resting : w.pending = none) : w.window = none := by
  simp only [SerialWorld.pending] at resting
  split at resting
  next current => simp [SerialWorld.window, current, Handler.window]
  next current => simp [SerialWorld.window, current]
  · cases resting

/-- The step lemma, whether or not the request stops at the wrong time. -/
theorem serialOk_step {label : SerialLabel} (ok : SerialOk home executionId w progress)
    (onExecution : label.ForExecution home executionId) (moved : w.step schemas label = some w') :
    Advances home executionId w w' label progress := by
  cases label with
  | submit request =>
    simp only [SerialWorld.step] at moved
    split at moved
    next resting =>
      cases moved
      refine ⟨progress, ⟨ok.case_, ok.inScope, ?_, ?_, ok.ledger⟩,
        .stays (.inl (SerialWorld.window_of_not_pending resting)) rfl⟩
      · intro handling isCurrent
        cases isCurrent
        exact onExecution
      · intro handling isCurrent
        cases isCurrent
        exact trivial
    next => cases moved
  | advance services ambient =>
    simp only [SerialWorld.step] at moved
    split at moved
    next => cases moved
    next request handler inProcess =>
      obtain ⟨⟨app, next⟩, advanced, rfl⟩ := Option.map_eq_some_iff.mp moved
      exact serialOk_advance ok (SerialWorld.current_of_pending inProcess) advanced
  | stop =>
    obtain ⟨_, _, rfl⟩ := Option.map_eq_some_iff.mp moved
    exact ⟨progress, ⟨ok.case_, ok.inScope, by simp, by simp, ok.ledger⟩, .stays (.inr rfl) rfl⟩

/-! ## Whole and broken records -/

/-- The record of the review is empty, complete, or being written by the current request. -/
def Whole (w : SerialWorld) (progress : Progress) : Prop :=
  progress = .saved ∨ progress = .pending → w.window = some progress

/-- The record is incomplete, and no request is about to complete it. -/
def Broken (w : SerialWorld) (progress : Progress) : Prop :=
  (progress = .saved ∨ progress = .pending) ∧ w.window = none

/-- The current request stands between two writes of the record. -/
theorem SerialOk.incomplete (ok : SerialOk home executionId w progress) (inside : w.window ≠ none) :
    progress = .saved ∨ progress = .pending := by
  cases current : w.current with
  | none => simp [SerialWorld.window, current] at inside
  | some handling =>
    obtain ⟨request, handler⟩ := handling
    have fits := ok.handler _ current
    cases handler with
    | markingPending => exact .inl fits.2
    | recordingCompleted => exact .inr fits.2
    | _ => simp [SerialWorld.window, current, Handler.window] at inside

theorem Moves.whole {label : SerialLabel} {progress' : Progress}
    (moves : Moves w w' label progress progress') (whole : Whole w progress)
    (unbroken : w.Unbroken label) : Whole w' progress' := by
  intro incomplete
  cases moves with
  | stays before after =>
    have outside : w.window = none := by
      cases before with
      | inl outside => exact outside
      | inr stops =>
        subst stops
        exact unbroken
    have inside := whole incomplete
    rw [outside] at inside
    cases inside
  | saves after | pends _ after => exact after
  | records => simp at incomplete

theorem Moves.broken {label : SerialLabel} {progress' : Progress}
    (moves : Moves w w' label progress progress') (broken : Broken w progress) :
    Broken w' progress' := by
  obtain ⟨incomplete, outside⟩ := broken
  cases moves with
  | stays _ after => exact ⟨incomplete, after⟩
  | saves => simp at incomplete
  | pends inside | records inside =>
    rw [outside] at inside
    cases inside

theorem SerialOk.reviewRecorded (ok : SerialOk home executionId w progress) (whole : Whole w progress)
    (answers : w.AnswersCompleted) : ReviewRecorded home executionId w := by
  obtain ⟨request, execution, current, completed⟩ := answers
  have outside : w.window = none := by simp [SerialWorld.window, current, Handler.window]
  have stored : progress ≠ .absent := ok.handler _ current completed
  have isRecorded : progress = .recorded := by
    cases progress with
    | absent => exact absurd rfl stored
    | saved | pending =>
      have inside := whole (by simp)
      rw [outside] at inside
      cases inside
    | recorded => rfl
  subst isRecorded
  have ledger := ok.ledger
  refine ⟨?_, by simpa using ledger.events, ledger.moved (.inr rfl)⟩
  apply Option.ne_none_iff_exists'.mp
  intro none
  exact stored (ledger.stored.mp none)

theorem SerialOk.not_reviewRecorded (ok : SerialOk home executionId w progress)
    (broken : Broken w progress) : ¬ ReviewRecorded home executionId w := by
  intro recorded
  have events := ok.ledger.events
  rw [recorded.completed] at events
  cases broken.1 with
  | inl saved => simp [saved] at events
  | inr pending => simp [pending] at events

theorem NotStarted.serialOk (fresh : NotStarted home executionId app) :
    SerialOk home executionId (.idle app) .absent where
  case_ := ⟨home, fresh.case_, rfl, rfl⟩
  inScope := by simp [SerialWorld.idle, fresh.thread]
  target := by simp [SerialWorld.idle]
  handler := by simp [SerialWorld.idle]
  ledger := by
    constructor
    · simp [SerialWorld.idle, fresh.review]
    · simpa [SerialWorld.idle, List.countP_eq_zero] using fresh.events
    · simp
    · simp

/-- Runs in which no request stops between `save_review` and `review.completed`: whoever is
    told that the review is completed finds it recorded in full.  The condition is sharp:
    after a stop in between, nobody who is told so does. -/
theorem reviewRecorded_of_unbroken (fresh : NotStarted home executionId app)
    (steps : StepsWhen (SerialWorld.step schemas) (fun w label =>
      label.ForExecution home executionId ∧ w.Unbroken label) (.idle app) w) :
    (w.AnswersCompleted → ReviewRecorded home executionId w) ∧
      ∀ stopped later, ¬ w.Unbroken .stop → w.step schemas .stop = some stopped →
        StepsWhen (SerialWorld.step schemas) (fun _ label => label.ForExecution home executionId)
          stopped later →
        later.AnswersCompleted → ¬ ReviewRecorded home executionId later := by
  -- no stop inside the window: what was begun is finished
  have whole : ∃ progress, SerialOk home executionId w progress ∧ Whole w progress := by
    refine steps.invariant (I := fun w => ∃ progress, SerialOk home executionId w progress ∧
      Whole w progress) ⟨.absent, fresh.serialOk, by simp [Whole]⟩ ?_
    rintro w label w' ⟨progress, ok, whole⟩ ⟨onExecution, unbroken⟩ moved
    obtain ⟨progress', ok', moves⟩ := serialOk_step ok onExecution moved
    exact ⟨progress', ok', moves.whole whole unbroken⟩
  obtain ⟨progress, ok, whole⟩ := whole
  refine ⟨ok.reviewRecorded whole, ?_⟩
  intro stopped later inside stops further answers
  have broken : ∃ progress, SerialOk home executionId later progress ∧ Broken later progress := by
    refine further.invariant (I := fun w => ∃ progress, SerialOk home executionId w progress ∧
      Broken w progress) ?_ ?_
    · obtain ⟨_, _, rfl⟩ := Option.map_eq_some_iff.mp stops
      exact ⟨progress, ⟨ok.case_, ok.inScope, by simp, by simp, ok.ledger⟩, ok.incomplete inside, rfl⟩
    · rintro w label w' ⟨progress, ok, broken⟩ onExecution moved
      obtain ⟨progress', ok', moves⟩ := serialOk_step ok onExecution moved
      exact ⟨progress', ok', moves.broken broken⟩
  obtain ⟨progress', ok', broken⟩ := broken
  exact ok'.not_reviewRecorded broken

end

namespace Sample

open Graphs.Sample

def key : UUID := ⟨0x5⟩

def newCase : SupplierCase := { supplierCase with status := .new }

/-- The execution that the requests start. -/
def startedId : UUID := executionIdFor newCase.tenantId newCase.id key

def newApp : Application where
  repo := ⟨fun id => if id = newCase.id then some newCase else none, fun _ => [], fun _ => none, fun _ => []⟩
  threads _ := none

theorem newApp_notStarted : NotStarted newCase startedId newApp where
  case_ := rfl
  thread := rfl
  review := rfl
  events := by simp [newApp]

def startRequest : SerialLabel := .submit (.start newCase.id key false analyst)

def proceed : SerialLabel := .advance approving ⟨0, ⟨0⟩, ⟨0⟩⟩

/-- A start that stops before its first write of the record, and its retry. -/
def stoppedEarly : List SerialLabel :=
  [startRequest] ++ List.replicate 6 proceed ++ [.stop, startRequest] ++ List.replicate 6 proceed

/-- A start that stops after `save_review`, and its retry. -/
def stoppedLate : List SerialLabel :=
  [startRequest] ++ List.replicate 7 proceed ++ [.stop, startRequest] ++ List.replicate 3 proceed

def SerialWorld.answersCompleted (w : SerialWorld) : Bool :=
  match w.current with
  | some ⟨_, .done (.ok execution)⟩ => execution.status = .completed
  | _ => false

theorem answersCompleted_iff {w : SerialWorld} :
    SerialWorld.answersCompleted w = true ↔ w.AnswersCompleted := by
  unfold SerialWorld.answersCompleted SerialWorld.AnswersCompleted
  split <;> simp_all

end Sample

open Graphs.Sample Sample in
theorem reviewRecorded_of_unbroken_retried :
    ∃ w : SerialWorld, w.AnswersCompleted ∧ ReviewRecorded newCase startedId w := by
  have replayed : ((runWhen (SerialWorld.step schemas) (fun w label =>
      decide (label.ForExecution newCase startedId ∧ w.Unbroken label)) (.idle newApp)
      stoppedEarly).map SerialWorld.answersCompleted) = some true := by decide +kernel
  obtain ⟨w, ran, passed⟩ := Option.map_eq_some_iff.mp replayed
  have steps : StepsWhen (SerialWorld.step schemas) (fun w label =>
      label.ForExecution newCase startedId ∧ w.Unbroken label) (.idle newApp) w :=
    stepsWhen_of_runWhen (fun _ _ _ passed => of_decide_eq_true passed) ran
  have answers := answersCompleted_iff.mp passed
  exact ⟨w, answers, (reviewRecorded_of_unbroken newApp_notStarted steps).1 answers⟩

open Graphs.Sample Sample in
/-- The retry of a start that stopped after `save_review` answers completed, and the log has
    no `review.completed`. -/
theorem not_reviewRecorded_stopped_late :
    ¬ ∀ (schemas : JsonSchemas) (home : SupplierCase) (executionId : UUID) (app : Application)
      (w : SerialWorld), NotStarted home executionId app →
      StepsWhen (SerialWorld.step schemas) (fun _ label => label.ForExecution home executionId)
        (.idle app) w →
      w.AnswersCompleted → ReviewRecorded home executionId w := by
  intro claimed
  have replayed : ((runWhen (SerialWorld.step schemas) (fun _ label =>
      decide (label.ForExecution newCase startedId)) (.idle newApp) stoppedLate).map fun w =>
        SerialWorld.answersCompleted w &&
          (w.app.repo.events newCase.id).countP (isCompleted startedId) = 0) = some true := by
    decide +kernel
  obtain ⟨w, ran, passed⟩ := Option.map_eq_some_iff.mp replayed
  obtain ⟨answered, none⟩ := Bool.and_eq_true_iff.mp passed
  have steps : StepsWhen (SerialWorld.step schemas)
      (fun _ label => label.ForExecution newCase startedId) (.idle newApp) w :=
    stepsWhen_of_runWhen (fun _ _ _ passed => of_decide_eq_true passed) ran
  have recorded := claimed schemas newCase startedId newApp w newApp_notStarted steps
    (answersCompleted_iff.mp answered)
  exact absurd (recorded.completed.symm.trans (of_decide_eq_true none)) (by decide)

end SupplierAssurance.Api
