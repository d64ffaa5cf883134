import SupplierAssurance.Api.ReviewExecutions
import SupplierAssurance.Graphs.Execution

/-! # One analyst decision per execution

Requests on an execution that awaits input.  The workflow takes one decision only: a resume
that comes later finds the gate closed.  The handler, however, records what it read before
it called the workflow, so a resume that lost the race still records its own decision.

`Uncontended` excludes the three orders in which a request acts on a read that another
request has overtaken.  Under it every audit event has one request that owes it: `resumes`
and `ends` count the events that a request still owes, and the events in the log together
with those owed are at most one.
-/

namespace SupplierAssurance.Api

open Python Lib Graphs

/-! ## The events of an execution -/

def isResumed (executionId : UUID) (event : AuditEvent) : Bool :=
  event.eventType = "review.resumed" && event.payload.lookup "execution_id" = some (.str executionId.str)

def isCompleted (executionId : UUID) (event : AuditEvent) : Bool :=
  event.eventType = "review.completed" && event.payload.lookup "review_id" = some (.str executionId.str)

def isCancelled (executionId : UUID) (event : AuditEvent) : Bool :=
  event.eventType = "review.cancelled" && event.payload.lookup "execution_id" = some (.str executionId.str)

/-- `review.completed` or `review.cancelled`. -/
def isEnded (executionId : UUID) (event : AuditEvent) : Bool :=
  isCompleted executionId event || isCancelled executionId event

namespace Application

/-- The decision in effect: `evidence_confirmation` of the checkpoint. -/
def decision (app : Application) (executionId : UUID) : Option EvidenceConfirmation :=
  (app.threads executionId).bind (·.values.evidenceConfirmation)

/-- The status that `get_execution` derives. -/
def status (app : Application) (executionId : UUID) : Option ReviewExecutionStatus :=
  (app.threads executionId).bind fun checkpoint =>
    (executionFromSnapshot checkpoint).toOption.map (·.status)

end Application

/-- The records of one execution of a case follow one decision. -/
structure OneDecision (caseId executionId : UUID) (app : Application) : Prop where
  resumed : (app.repo.events caseId).countP (isResumed executionId) ≤ 1
  recorded : ∀ event ∈ app.repo.events caseId, isResumed executionId event →
    ∃ confirmation, app.decision executionId = some confirmation ∧
      event.payload.lookup "decision" = some (.str confirmation.decision.value)
  ended : (app.repo.events caseId).countP (isEnded executionId) ≤ 1
  stored : ∀ result, app.repo.reviewsById executionId = some result →
    ∃ confirmation, app.decision executionId = some confirmation ∧ confirmation.decision = .confirm

/-- An execution that awaits input, with nothing recorded of a decision. -/
structure AwaitingInput (home : SupplierCase) (executionId : UUID) (app : Application) : Prop where
  case_ : app.repo.cases home.id = some home
  thread : ∃ checkpoint, app.threads executionId = some checkpoint ∧ Awaits checkpoint ∧
    InScope home executionId checkpoint.values
  review : app.repo.reviewsById executionId = none
  events : ∀ event ∈ app.repo.events home.id,
    isResumed executionId event = false ∧ isEnded executionId event = false

/-- The requests are for this execution. -/
def ForExecution (home : SupplierCase) (executionId : UUID) : ApiLabel → Prop
  | .submit request => request.caseId = home.id ∧ request.executionId home = executionId
  | .advance .. => True

instance (home : SupplierCase) (executionId : UUID) :
    DecidablePred (ForExecution home executionId)
  | .submit _ => inferInstanceAs (Decidable (_ ∧ _))
  | .advance .. => instDecidableTrue

/-- A request does not act on a read that another one has overtaken. -/
def Current (executionId : UUID) (app : Application) (request : ApiRequest) : Handler → Prop
  -- A replayed start that read the case in review does not find the execution cancelled.
  | .loading supplierCase =>
    match request with
    | .start .. => supplierCase.status = .inReview → app.status executionId ≠ some .cancelled
    | .resume .. => True
  -- A resume that read the execution as waiting does not find it over; one that read the
  -- case in review does not find the execution cancelled.
  | .resuming supplierCase current =>
    (current.status = .awaitingInput → app.status executionId ≠ some .completed ∧
      app.status executionId ≠ some .cancelled) ∧
    (supplierCase.status = .inReview → app.status executionId ≠ some .cancelled)
  -- A review that was not found is still not stored.
  | .savingReview _ result => app.repo.reviewsById result.reviewId = none
  | _ => True

instance (executionId : UUID) (app : Application) (request : ApiRequest) (handler : Handler) :
    Decidable (Current executionId app request handler) :=
  match handler, request with
  | .loading _, .start .. => inferInstanceAs (Decidable (_ → _))
  | .loading _, .resume .. => instDecidableTrue
  | .resuming .., _ => inferInstanceAs (Decidable ((_ → _) ∧ (_ → _)))
  | .savingReview .., _ => inferInstanceAs (Decidable (_ = none))
  | .authorizing, _ | .markingInReview _, _ | .recordingStarted _, _ | .starting _, _
  | .markingFailed .., _ | .recordingFailed .., _ | .recordingAwaiting .., _
  | .recordingResumed .., _ | .findingReview .., _ | .markingPending .., _
  | .recordingCompleted .., _ | .markingNew .., _ | .recordingCancelled .., _ | .done _, _ =>
    instDecidableTrue

def Uncontended (executionId : UUID) (w : ApiWorld) : ApiLabel → Prop
  | .submit _ => True
  | .advance index .. =>
    ∀ handling ∈ w.requests[index]?, Current executionId w.app handling.request handling.handler

instance (executionId : UUID) (w : ApiWorld) : DecidablePred (Uncontended executionId w)
  | .submit _ => instDecidableTrue
  | .advance index .. => inferInstanceAs (Decidable (∀ handling ∈ w.requests[index]?, _))

/-! ## What the gate can be -/

/-- The execution of a checkpoint that is over. -/
def Over (checkpoint : ReviewCheckpoint) (execution : ReviewExecution) : Prop :=
  executionFromSnapshot checkpoint = .ok execution ∧
    (execution.status = .completed ∨ execution.status = .cancelled)

/-- A checkpoint at or past the gate.  An execution that is over has a decision, and a
    completed one a confirmation. -/
inductive Gate (checkpoint : ReviewCheckpoint) : Prop
  | awaiting : Awaits checkpoint → Gate checkpoint
  | stuck : Stuck checkpoint → Gate checkpoint
  | finished {execution : ReviewExecution} {confirmation : EvidenceConfirmation} :
      Over checkpoint execution →
      checkpoint.values.evidenceConfirmation = some confirmation →
      (execution.status = .completed → confirmation.decision = .confirm) → Gate checkpoint

section

variable {checkpoint : ReviewCheckpoint} {execution : ReviewExecution}

theorem awaits_execution (awaits : Awaits checkpoint) :
    ∃ execution, executionFromSnapshot checkpoint = .ok execution ∧
      execution.status = .awaitingInput := by
  obtain ⟨request, interrupts⟩ := awaits.interrupts
  simp [executionFromSnapshot, awaits.undecided.cancelled, awaits.undecided.recommendation,
    interrupts]

/-- A completed execution comes with the result of its state. -/
theorem completed_result (read : executionFromSnapshot checkpoint = .ok execution)
    (completed : execution.status = .completed) :
    ∃ result, execution.result = some result ∧ result.reviewId = checkpoint.values.executionId ∧
      result.caseId = checkpoint.values.caseId := by
  simp only [executionFromSnapshot] at read
  split at read
  · cases read
    cases completed
  · split at read
    · cases got : resultFromState checkpoint.values with
      | error e => simp [got, Except.map] at read
      | ok result =>
        simp only [got, Except.map, Except.ok.injEq] at read
        subst read
        refine ⟨result, rfl, ?_⟩
        simp only [resultFromState] at got
        split at got <;> cases got
        exact ⟨rfl, rfl⟩
    · split at read <;> cases read <;> cases completed

/-- The second state belongs to whatever the first belongs to. -/
def SameScope (state state' : ReviewGraphState) : Prop :=
  state'.tenantId = state.tenantId ∧ state'.caseId = state.caseId ∧
    state'.executionId = state.executionId

theorem inScope_of_sameScope {home : SupplierCase} {executionId : UUID} {state state' : ReviewGraphState}
    (inScope : InScope home executionId state) (scope : SameScope state state') :
    InScope home executionId state' :=
  ⟨scope.1.trans inScope.tenantId, scope.2.1.trans inScope.caseId,
    scope.2.2.trans inScope.executionId⟩

/-- What `workflow.resume` does to a thread at or past the gate. -/
inductive Resumed (checkpoint : ReviewCheckpoint) (confirmation : EvidenceConfirmation) :
    Thread × Except ReviewError ReviewExecution → Prop
  | decided {checkpoint' : ReviewCheckpoint} {execution : ReviewExecution} :
      Awaits checkpoint → SameScope checkpoint.values checkpoint'.values →
      Over checkpoint' execution → Gate checkpoint' →
      checkpoint'.values.evidenceConfirmation = some confirmation →
      Resumed checkpoint confirmation (some checkpoint', .ok execution)
  | failed {checkpoint' : ReviewCheckpoint} {e : ReviewError} :
      Awaits checkpoint → SameScope checkpoint.values checkpoint'.values → Stuck checkpoint' →
      Resumed checkpoint confirmation (some checkpoint', .error e)
  | finished {execution : ReviewExecution} : Over checkpoint execution →
      Resumed checkpoint confirmation (some checkpoint, .ok execution)
  | refused : Stuck checkpoint → Resumed checkpoint confirmation (some checkpoint, .error .notAwaiting)

variable {schemas : JsonSchemas} {services : Services} {home supplierCase : SupplierCase}
variable {executionId : UUID} {confirmation : EvidenceConfirmation}

theorem awaits_resumed (awaits : Awaits checkpoint) :
    Resumed checkpoint confirmation
      (some ((reviewGraph schemas).resume services recursionLimit checkpoint confirmation).1,
        answer ((reviewGraph schemas).resume services recursionLimit checkpoint confirmation)) := by
  cases decision : confirmation.decision with
  -- a rejection cancels the review without asking the model
  | reject =>
    rw [awaits.resume_reject decision]
    let state := checkpoint.values.merge (.confirmation confirmation true
      (some (services.clock .evidenceConfirmation)))
    have finished : Over ⟨state, [], []⟩ ⟨state.executionId, state.caseId, .cancelled, none, none⟩ :=
      ⟨rfl, .inr rfl⟩
    exact .decided awaits ⟨rfl, rfl, rfl⟩ finished (.finished finished rfl (by simp)) rfl
  | confirm =>
    rw [awaits.resume_confirm decision]
    let state := checkpoint.values.merge (.confirmation confirmation false none)
    have recommendation : state.recommendation = none := awaits.undecided.recommendation
    cases asked : services.synthesize (synthesisRequest schemas state) with
    | error e =>
      simp only [state] at asked
      simp only [asked]
      -- the confirmation stays although the synthesis failed
      exact .failed awaits ⟨rfl, rfl, rfl⟩ ⟨.inr rfl, rfl, rfl, recommendation⟩
    | ok recommended =>
      simp only [state] at asked
      simp only [asked]
      let result : ReviewResult := ⟨state.executionId, state.caseId, state.findings, recommended,
        state.modelBackend, state.startedAt, services.clock .synthesize⟩
      have finished : Over ⟨state.merge (.recommendation recommended (services.clock .synthesize)), [], []⟩
          ⟨state.executionId, state.caseId, .completed, none, some result⟩ := ⟨rfl, .inl rfl⟩
      exact .decided awaits ⟨rfl, rfl, rfl⟩ finished (.finished finished rfl fun _ => decision) rfl

theorem resume_resumed (gate : Gate checkpoint)
    (inScope : InScope home executionId checkpoint.values) (same : SameCase home supplierCase) :
    Resumed checkpoint confirmation
      (resume schemas services (some checkpoint) supplierCase executionId confirmation) := by
  cases gate with
  | awaiting awaits =>
    obtain ⟨execution, read, waiting⟩ := awaits_execution awaits
    simp only [resume, resumeRead, inScope.getExecution same, read, waiting]
    exact awaits_resumed awaits
  | stuck stuck =>
    obtain ⟨execution, read, running⟩ := stuck.execution
    simp only [resume, resumeRead, inScope.getExecution same, read, running]
    exact .refused stuck
  | finished finished =>
    have returned := finished.1
    cases finished.2 with
    | inl status | inr status =>
      simp only [resume, resumeRead, inScope.getExecution same, returned, status]
      exact .finished finished

end

/-! ## The events that requests owe -/

/-- The `review.resumed` events that a request is about to append. -/
def Handler.resumes : Handler → Nat
  | .recordingResumed .. => 1
  | _ => 0

/-- The `review.completed` and `review.cancelled` events that a request is about to append. -/
def Handler.ends : Handler → Nat
  | .recordingResumed _ _ execution => if execution.status = .cancelled then 1 else 0
  | .markingPending .. | .recordingCompleted .. | .markingNew .. | .recordingCancelled .. => 1
  | _ => 0

namespace ApiWorld

/-- The events of a kind, in the log of a case and owed. -/
def total (caseId : UUID) (kind : AuditEvent → Bool) (owed : Handler → Nat) (w : ApiWorld) : Nat :=
  (w.app.repo.events caseId).countP kind +
    tally (fun handling : Handling => owed handling.handler) w.requests

theorem total_set {w : ApiWorld} {index : Nat} {request : ApiRequest} {handler : Handler}
    (caseId : UUID) (kind : AuditEvent → Bool) (owed : Handler → Nat) (app : Application)
    (handler' : Handler) (at_ : w.requests[index]? = some ⟨request, handler⟩) :
    total caseId kind owed ⟨app, w.requests.set index ⟨request, handler'⟩⟩ +
        ((w.app.repo.events caseId).countP kind + owed handler) =
      w.total caseId kind owed + ((app.repo.events caseId).countP kind + owed handler') := by
  have moved := tally_set (f := fun handling : Handling => owed handling.handler) at_
    ⟨request, handler'⟩
  simp only [total] at *
  omega

end ApiWorld

/-- What the local variables of a request say about the execution. -/
def HandlerOk (home : SupplierCase) (executionId : UUID) (checkpoint : ReviewCheckpoint)
    (request : ApiRequest) : Handler → Prop
  | .authorizing | .done _ => True
  | .loading supplierCase | .resuming supplierCase _ => SameCase home supplierCase
  | .recordingResumed _ current execution =>
    current.status = .awaitingInput ∧ Over checkpoint execution ∧
      match request with
      | .start .. => False
      | .resume _ _ confirmation _ => checkpoint.values.evidenceConfirmation = some confirmation
  | .findingReview execution result | .savingReview execution result
  | .markingPending execution result | .recordingCompleted execution result =>
    Over checkpoint execution ∧ execution.status = .completed ∧ execution.result = some result
  | .markingNew executionId' execution | .recordingCancelled executionId' execution =>
    executionId' = executionId ∧ Over checkpoint execution ∧ execution.status = .cancelled
  -- The branch of a new execution is not taken: the thread exists.
  | .markingInReview _ | .recordingStarted _ | .starting _ | .markingFailed .. | .recordingFailed ..
  | .recordingAwaiting .. => False

structure Recording (home : SupplierCase) (executionId : UUID) (checkpoint : ReviewCheckpoint)
    (w : ApiWorld) : Prop where
  case_ : ∃ supplierCase, w.app.repo.cases home.id = some supplierCase ∧ SameCase home supplierCase
  thread : w.app.threads executionId = some checkpoint
  gate : Gate checkpoint
  inScope : InScope home executionId checkpoint.values
  targets : ∀ handling ∈ w.requests, handling.request.caseId = home.id ∧
    handling.request.executionId home = executionId
  handlers : ∀ handling ∈ w.requests,
    HandlerOk home executionId checkpoint handling.request handling.handler
  recorded : ∀ event ∈ w.app.repo.events home.id, isResumed executionId event →
    ∃ confirmation, checkpoint.values.evidenceConfirmation = some confirmation ∧
      event.payload.lookup "decision" = some (.str confirmation.decision.value)
  resumed : w.total home.id (isResumed executionId) Handler.resumes ≤ 1
  ended : w.total home.id (isEnded executionId) Handler.ends ≤ 1
  -- Nothing is recorded or owed before the execution is over.
  silent : (∀ execution, ¬ Over checkpoint execution) →
    w.total home.id (isResumed executionId) Handler.resumes = 0 ∧
      w.total home.id (isEnded executionId) Handler.ends = 0
  unstored : w.app.repo.reviewsById executionId = none →
    ∀ execution, executionFromSnapshot checkpoint = .ok execution → execution.status = .completed →
      w.total home.id (isEnded executionId) Handler.ends = 0
  stored : ∀ result, w.app.repo.reviewsById executionId = some result →
    ∃ execution, executionFromSnapshot checkpoint = .ok execution ∧ execution.status = .completed

section

variable {home : SupplierCase} {executionId : UUID} {checkpoint : ReviewCheckpoint} {w : ApiWorld}
variable {index : Nat} {request : ApiRequest} {handler handler' next : Handler}
variable {app : Application}

theorem Recording.targets_set (recording : Recording home executionId checkpoint w)
    (at_ : w.requests[index]? = some ⟨request, handler⟩) (handler' : Handler) :
    ∀ handling ∈ w.requests.set index ⟨request, handler'⟩, handling.request.caseId = home.id ∧
      handling.request.executionId home = executionId := by
  intro handling member
  cases List.mem_or_eq_of_mem_set member with
  | inl old => exact recording.targets handling old
  | inr new =>
    subst new
    exact recording.targets ⟨request, handler⟩ (List.mem_of_getElem? at_)

theorem Recording.handlers_set (recording : Recording home executionId checkpoint w)
    (ok : HandlerOk home executionId checkpoint request handler') :
    ∀ handling ∈ w.requests.set index ⟨request, handler'⟩,
      HandlerOk home executionId checkpoint handling.request handling.handler := by
  intro handling member
  cases List.mem_or_eq_of_mem_set member with
  | inl old => exact recording.handlers handling old
  | inr new =>
    subst new
    exact ok

/-- A step that leaves the thread and the reviews alone, and that owes less by what it
    appends. -/
theorem Recording.keep (recording : Recording home executionId checkpoint w)
    (at_ : w.requests[index]? = some ⟨request, handler⟩)
    (ok : HandlerOk home executionId checkpoint request handler')
    (case_ : ∃ supplierCase, app.repo.cases home.id = some supplierCase ∧ SameCase home supplierCase)
    (threads : app.threads = w.app.threads) (reviews : app.repo.reviewsById = w.app.repo.reviewsById)
    (recorded : ∀ event ∈ app.repo.events home.id, isResumed executionId event →
      ∃ confirmation, checkpoint.values.evidenceConfirmation = some confirmation ∧
        event.payload.lookup "decision" = some (.str confirmation.decision.value))
    (resumes : (app.repo.events home.id).countP (isResumed executionId) + handler'.resumes =
      (w.app.repo.events home.id).countP (isResumed executionId) + handler.resumes)
    (ends : (app.repo.events home.id).countP (isEnded executionId) + handler'.ends =
      (w.app.repo.events home.id).countP (isEnded executionId) + handler.ends) :
    Recording home executionId checkpoint ⟨app, w.requests.set index ⟨request, handler'⟩⟩ := by
  -- what the handler no longer owes is recorded, so the totals stay
  have resumedMoved := ApiWorld.total_set home.id (isResumed executionId) Handler.resumes app handler' at_
  have endedMoved := ApiWorld.total_set home.id (isEnded executionId) Handler.ends app handler' at_
  have resumedTotal : ApiWorld.total home.id (isResumed executionId) Handler.resumes
      ⟨app, w.requests.set index ⟨request, handler'⟩⟩ =
        w.total home.id (isResumed executionId) Handler.resumes := by omega
  have endedTotal : ApiWorld.total home.id (isEnded executionId) Handler.ends
      ⟨app, w.requests.set index ⟨request, handler'⟩⟩ =
        w.total home.id (isEnded executionId) Handler.ends := by omega
  exact {
    case_ := case_
    thread := threads ▸ recording.thread
    gate := recording.gate
    inScope := recording.inScope
    targets := recording.targets_set at_ handler'
    handlers := recording.handlers_set ok
    recorded := recorded
    resumed := resumedTotal ▸ recording.resumed
    ended := endedTotal ▸ recording.ended
    silent := by
      rw [resumedTotal, endedTotal]
      exact recording.silent
    unstored := by
      rw [endedTotal]
      exact reviews ▸ recording.unstored
    stored := reviews ▸ recording.stored }

/-- A request that only reads. -/
theorem Recording.read (recording : Recording home executionId checkpoint w)
    (at_ : w.requests[index]? = some ⟨request, handler⟩)
    (ok : HandlerOk home executionId checkpoint request handler')
    (resumes : handler'.resumes = handler.resumes) (ends : handler'.ends = handler.ends) :
    Recording home executionId checkpoint ⟨w.app, w.requests.set index ⟨request, handler'⟩⟩ :=
  recording.keep at_ ok recording.case_ rfl rfl recording.recorded (by rw [resumes]) (by rw [ends])

theorem Recording.setStatus (recording : Recording home executionId checkpoint w)
    (at_ : w.requests[index]? = some ⟨request, handler⟩) {ambient : Ambient} {caseId : UUID}
    {status : CaseStatus}
    (written : w.app.write (w.app.repo.setStatus ambient caseId status) handler' = (app, next))
    (onCase : caseId = home.id) (ok : HandlerOk home executionId checkpoint request handler')
    (resumes : handler'.resumes = handler.resumes) (ends : handler'.ends = handler.ends) :
    Recording home executionId checkpoint ⟨app, w.requests.set index ⟨request, next⟩⟩ := by
  subst onCase
  obtain ⟨supplierCase, known, same⟩ := recording.case_
  simp only [Application.write, InMemoryCaseRepository.setStatus, InMemoryCaseRepository.get, known,
    bind, Except.bind, pure, Except.pure, Prod.mk.injEq] at written
  obtain ⟨rfl, rfl⟩ := written
  refine recording.keep at_ ok ⟨_, Function.update_self .., ?_⟩ rfl rfl recording.recorded
    (by rw [resumes]) (by rw [ends])
  exact same

/-- A request appends an event that it owes. -/
theorem Recording.append (recording : Recording home executionId checkpoint w)
    (at_ : w.requests[index]? = some ⟨request, handler⟩) {ambient : Ambient}
    {event : AuditEventCreate}
    (written : w.app.write (w.app.repo.appendAuditEvent ambient event) handler' = (app, next))
    (onCase : event.caseId = home.id) (ok : HandlerOk home executionId checkpoint request handler')
    (decided : isResumed executionId { event with id := ambient.uuid, createdAt := ambient.now } →
      ∃ confirmation, checkpoint.values.evidenceConfirmation = some confirmation ∧
        event.payload.lookup "decision" = some (.str confirmation.decision.value))
    (resumes : handler.resumes = handler'.resumes + if isResumed executionId
      { event with id := ambient.uuid, createdAt := ambient.now } then 1 else 0)
    (ends : handler.ends = handler'.ends + if isEnded executionId
      { event with id := ambient.uuid, createdAt := ambient.now } then 1 else 0) :
    Recording home executionId checkpoint ⟨app, w.requests.set index ⟨request, next⟩⟩ := by
  obtain ⟨supplierCase, known, same⟩ := recording.case_
  simp only [Application.write, InMemoryCaseRepository.appendAuditEvent, InMemoryCaseRepository.get,
    onCase, known, bind, Except.bind, pure, Except.pure, Prod.mk.injEq] at written
  obtain ⟨rfl, rfl⟩ := written
  refine recording.keep at_ ok recording.case_ rfl rfl ?_ ?_ ?_
  · intro event' member
    simp only [Function.update_self] at member
    cases List.mem_append.mp member with
    | inl old => exact recording.recorded event' old
    | inr new =>
      cases List.mem_singleton.mp new
      exact decided
  · simp only [Function.update_self, List.countP_append, List.countP_singleton]
    omega
  · simp only [Function.update_self, List.countP_append, List.countP_singleton]
    omega

/-- The first request to store the review owes its event. -/
theorem Recording.saved (recording : Recording home executionId checkpoint w)
    {execution : ReviewExecution} {result : ReviewResult}
    (at_ : w.requests[index]? = some ⟨request, .savingReview execution result⟩)
    (fresh : w.app.repo.reviewsById result.reviewId = none)
    (saved : app = { w.app with repo := w.app.repo.saveReview result }) :
    Recording home executionId checkpoint
      ⟨app, w.requests.set index ⟨request, .markingPending execution result⟩⟩ := by
  obtain ⟨finished, completed, got⟩ := recording.handlers _ (List.mem_of_getElem? at_)
  obtain ⟨result', got', reviewId, -⟩ := completed_result finished.1 completed
  cases got.symm.trans got'
  have onExecution : result.reviewId = executionId := reviewId.trans recording.inScope.executionId
  rw [onExecution] at fresh
  simp only [InMemoryCaseRepository.saveReview, onExecution, fresh] at saved
  have events : app.repo.events = w.app.repo.events := by rw [saved]
  have none_owed := recording.unstored fresh execution finished.1 completed
  have resumed := recording.resumed
  have resumedMoved := ApiWorld.total_set home.id (isResumed executionId) Handler.resumes app
    (.markingPending execution result) at_
  have endedMoved := ApiWorld.total_set home.id (isEnded executionId) Handler.ends app
    (.markingPending execution result) at_
  simp only [events, Handler.resumes, Handler.ends] at resumedMoved endedMoved
  exact {
    case_ := by
      rw [saved]
      exact recording.case_
    thread := by
      rw [saved]
      exact recording.thread
    gate := recording.gate
    inScope := recording.inScope
    targets := recording.targets_set at_ _
    handlers := recording.handlers_set ⟨finished, completed, got⟩
    recorded := by
      rw [events]
      exact recording.recorded
    resumed := by omega
    ended := by omega
    silent := fun unfinished => absurd finished (unfinished execution)
    unstored := by simp [saved]
    stored := fun _ _ => ⟨execution, finished.1, completed⟩ }

/-- While the execution is not over, requests hold nothing that depends on the thread. -/
theorem HandlerOk.of_unfinished (ok : HandlerOk home executionId checkpoint request handler)
    (unfinished : ∀ execution, ¬ Over checkpoint execution) (checkpoint' : ReviewCheckpoint) :
    HandlerOk home executionId checkpoint' request handler := by
  cases handler with
  | authorizing | done | loading | resuming => exact ok
  | recordingResumed => exact absurd ok.2.1 (unfinished _)
  | findingReview | savingReview | markingPending | recordingCompleted =>
    exact absurd ok.1 (unfinished _)
  | markingNew | recordingCancelled => exact absurd ok.2.1 (unfinished _)
  | _ => exact ok.elim

/-- The thread takes a decision: until then nothing was recorded, so all that can be owed is
    what this request owes. -/
theorem Recording.decided (recording : Recording home executionId checkpoint w)
    {supplierCase : SupplierCase} {current : ReviewExecution}
    (at_ : w.requests[index]? = some ⟨request, .resuming supplierCase current⟩)
    (unfinished : ∀ execution, ¬ Over checkpoint execution) {checkpoint' : ReviewCheckpoint}
    (gate : Gate checkpoint') (inScope : InScope home executionId checkpoint'.values)
    (ok : HandlerOk home executionId checkpoint' request handler')
    (resumes : handler'.resumes ≤ 1) (ends : handler'.ends ≤ 1)
    (silent : (∀ execution, ¬ Over checkpoint' execution) → handler'.resumes = 0 ∧ handler'.ends = 0)
    (unended : ∀ execution, executionFromSnapshot checkpoint' = .ok execution →
      execution.status = .completed → handler'.ends = 0) :
    Recording home executionId checkpoint' ⟨w.app.setThread executionId (some checkpoint'),
      w.requests.set index ⟨request, handler'⟩⟩ := by
  obtain ⟨noneResumed, noneEnded⟩ := recording.silent unfinished
  have resumedMoved := ApiWorld.total_set home.id (isResumed executionId) Handler.resumes
    (w.app.setThread executionId (some checkpoint')) handler' at_
  have endedMoved := ApiWorld.total_set home.id (isEnded executionId) Handler.ends
    (w.app.setThread executionId (some checkpoint')) handler' at_
  have unstored (result : ReviewResult) : w.app.repo.reviewsById executionId ≠ some result := by
    intro stored
    obtain ⟨execution, read, completed⟩ := recording.stored result stored
    exact unfinished execution ⟨read, .inl completed⟩
  have owesNone : (Handler.resuming supplierCase current).resumes = 0 ∧
      (Handler.resuming supplierCase current).ends = 0 := ⟨rfl, rfl⟩
  simp only [Application.setThread] at resumedMoved endedMoved
  have quiet : (w.app.repo.events home.id).countP (isResumed executionId) = 0 :=
    Nat.eq_zero_of_add_eq_zero_right noneResumed
  have resumedTotal : ApiWorld.total home.id (isResumed executionId) Handler.resumes
      ⟨w.app.setThread executionId (some checkpoint'), w.requests.set index ⟨request, handler'⟩⟩ =
        handler'.resumes := by
    simp only [Application.setThread]
    omega
  have endedTotal : ApiWorld.total home.id (isEnded executionId) Handler.ends ⟨w.app.setThread executionId
      (some checkpoint'), w.requests.set index ⟨request, handler'⟩⟩ = handler'.ends := by
    simp only [Application.setThread]
    omega
  exact {
    case_ := recording.case_
    thread := Function.update_self ..
    gate := gate
    inScope := inScope
    targets := recording.targets_set at_ handler'
    handlers := by
      intro handling member
      cases List.mem_or_eq_of_mem_set member with
      | inl old => exact (recording.handlers handling old).of_unfinished unfinished checkpoint'
      | inr new =>
        subst new
        exact ok
    recorded := by
      intro event member isResumed
      have positive := List.countP_pos_iff.mpr ⟨event, member, isResumed⟩
      simp only [Application.setThread] at positive
      omega
    resumed := by rwa [resumedTotal]
    ended := by rwa [endedTotal]
    silent := by rwa [resumedTotal, endedTotal]
    unstored := by
      rw [endedTotal]
      exact fun _ => unended
    stored := fun result stored => absurd stored (unstored result) }

/-! ## Where the branches lead -/

variable {supplierCase : SupplierCase} {current execution : ReviewExecution}

theorem completedBranch_ok (finished : Over checkpoint execution) (completed : execution.status = .completed) :
    HandlerOk home executionId checkpoint request (completedBranch execution) ∧
      (completedBranch execution).resumes = 0 ∧ (completedBranch execution).ends = 0 := by
  obtain ⟨result, got, -⟩ := completed_result finished.1 completed
  simp only [completedBranch, got]
  exact ⟨⟨finished, completed, got⟩, rfl, rfl⟩

/-- A replayed start owes nothing, unless it acts on an outdated status of the case. -/
theorem startBranch_ok (read : executionFromSnapshot checkpoint = .ok execution)
    (current : supplierCase.status = .inReview → execution.status ≠ .cancelled) :
    HandlerOk home executionId checkpoint request
        (startBranch executionId supplierCase false execution) ∧
      (startBranch executionId supplierCase false execution).resumes = 0 ∧
      (startBranch executionId supplierCase false execution).ends = 0 := by
  cases status : execution.status with
  | completed =>
    simp only [startBranch, status]
    exact completedBranch_ok ⟨read, .inl status⟩ status
  | cancelled =>
    have notInReview : supplierCase.status ≠ .inReview := fun inReview => current inReview status
    simp only [startBranch, status, notInReview, if_false]
    exact ⟨trivial, rfl, rfl⟩
  | awaitingInput | running =>
    simp only [startBranch, status]
    exact ⟨trivial, rfl, rfl⟩

theorem resumeBranch_ok (finished : Over checkpoint execution) :
    HandlerOk home executionId checkpoint request
        (resumeBranch executionId supplierCase current execution) ∧
      (resumeBranch executionId supplierCase current execution).resumes = 0 ∧
      (resumeBranch executionId supplierCase current execution).ends =
        if execution.status = .cancelled ∧
          (current.status = .awaitingInput ∨ supplierCase.status = .inReview) then 1 else 0 := by
  cases finished.2 with
  | inl status =>
    simp only [resumeBranch, status, reduceCtorEq, false_and, if_false]
    exact completedBranch_ok finished status
  | inr status =>
    simp only [resumeBranch, status, true_and]
    split
    · exact ⟨⟨rfl, finished, status⟩, rfl, rfl⟩
    · exact ⟨trivial, rfl, rfl⟩

theorem Gate.readable (gate : Gate checkpoint) :
    ∃ execution, executionFromSnapshot checkpoint = .ok execution := by
  cases gate with
  | awaiting awaits =>
    obtain ⟨execution, read, -⟩ := awaits_execution awaits
    exact ⟨execution, read⟩
  | stuck stuck =>
    obtain ⟨execution, read, -⟩ := stuck.execution
    exact ⟨execution, read⟩
  | finished finished => exact ⟨_, finished.1⟩

theorem awaits_unfinished (awaits : Awaits checkpoint) (execution : ReviewExecution) :
    ¬ Over checkpoint execution := by
  intro finished
  obtain ⟨execution', read, waiting⟩ := awaits_execution awaits
  cases read.symm.trans finished.1
  have status := finished.2
  simp [waiting] at status

theorem Recording.status (recording : Recording home executionId checkpoint w)
    (read : executionFromSnapshot checkpoint = .ok execution) :
    w.app.status executionId = some execution.status := by
  simp [Application.status, recording.thread, read, Except.toOption]

theorem Recording.authorize (recording : Recording home executionId checkpoint w)
    {principal : Principal} (authorized : authorize w.app.repo home.id principal = .ok supplierCase) :
    SameCase home supplierCase := by
  obtain ⟨stored, known, same⟩ := recording.case_
  simp only [Api.authorize, InMemoryCaseRepository.get, known] at authorized
  split at authorized
  · cases authorized
  · split at authorized
    · cases authorized
    · cases authorized
      exact same

/-- A request derives the same execution from every state of the case. -/
theorem executionId_of_sameCase (same : SameCase home supplierCase) (request : ApiRequest) :
    request.executionId supplierCase = request.executionId home := by
  cases request with
  | start => simp only [ApiRequest.executionId, same.1, same.2]
  | resume => rfl

theorem setThread_self {thread : Thread} (unchanged : app.threads executionId = thread) :
    app.setThread executionId thread = app := by
  simp only [Application.setThread, ← unchanged, Function.update_eq_self]

/-! ## One step of a request -/

variable {schemas : JsonSchemas} {services : Services} {ambient : Ambient}

/-- The request that calls `workflow.resume`. -/
theorem Recording.resuming (recording : Recording home executionId checkpoint w)
    {caseId : UUID} {confirmation : EvidenceConfirmation} {principal : Principal}
    (at_ : w.requests[index]? =
      some ⟨.resume caseId executionId confirmation principal, .resuming supplierCase current⟩)
    (unraced : Current executionId w.app (.resume caseId executionId confirmation principal)
      (.resuming supplierCase current))
    {thread : Thread} {answer : Except ReviewError ReviewExecution}
    (called : resume schemas services (some checkpoint) supplierCase executionId confirmation =
      (thread, answer)) :
    ∃ checkpoint', Recording home executionId checkpoint' ⟨w.app.setThread executionId thread,
        w.requests.set index ⟨.resume caseId executionId confirmation principal,
          afterResume executionId supplierCase current answer⟩⟩ ∧
      (checkpoint' = checkpoint ∨ Awaits checkpoint) := by
  have same : SameCase home supplierCase := recording.handlers _ (List.mem_of_getElem? at_)
  have resumed : Resumed checkpoint confirmation
      (resume schemas services (some checkpoint) supplierCase executionId confirmation) :=
    resume_resumed recording.gate recording.inScope same
  rw [called] at resumed
  cases resumed with
  | @decided checkpoint' execution awaits scope finished gate decided =>
    refine ⟨checkpoint', ?_, .inr awaits⟩
    have unique {execution' : ReviewExecution}
        (read : executionFromSnapshot checkpoint' = .ok execution') : execution' = execution := by
      cases read.symm.trans finished.1
      rfl
    by_cases waiting : current.status = .awaitingInput
    · -- The request saw the gate open: it owes the event of its decision.
      simp only [afterResume, waiting, if_true]
      refine recording.decided at_ (awaits_unfinished awaits) gate
        (inScope_of_sameScope recording.inScope scope) ⟨waiting, finished, decided⟩ (Nat.le_refl 1) ?_
        (fun unfinished => absurd finished (unfinished execution)) ?_
      · simp only [Handler.ends]
        split <;> omega
      · intro execution' read completed
        rw [unique read] at completed
        simp [Handler.ends, completed]
    · simp only [afterResume, waiting, if_false]
      obtain ⟨branchOk, branchResumes, branchEnds⟩ :
          HandlerOk home executionId checkpoint' (.resume caseId executionId confirmation principal)
            (resumeBranch executionId supplierCase current execution) ∧ _ ∧ _ := resumeBranch_ok finished
      refine recording.decided at_ (awaits_unfinished awaits) gate
        (inScope_of_sameScope recording.inScope scope) branchOk (by omega) ?_
        (fun unfinished => absurd finished (unfinished execution)) ?_
      · rw [branchEnds]
        split <;> omega
      · intro execution' read completed
        rw [unique read] at completed
        simp [branchEnds, completed]
  | @failed checkpoint' e awaits scope stuck =>
    exact ⟨checkpoint', recording.decided at_ (awaits_unfinished awaits) (.stuck stuck)
      (inScope_of_sameScope recording.inScope scope) trivial (Nat.zero_le 1) (Nat.zero_le 1)
      (fun _ => ⟨rfl, rfl⟩) (fun _ _ _ => rfl), .inr awaits⟩
  | @finished execution finished =>
    have status := recording.status finished.1
    -- `unraced`: the request did not see the gate open, so it owes nothing
    have notWaiting : current.status ≠ .awaitingInput := by
      intro waiting
      obtain ⟨notCompleted, notCancelled⟩ := unraced.1 waiting
      rw [status] at notCompleted notCancelled
      cases finished.2 with
      | inl completed => exact notCompleted (congrArg some completed)
      | inr cancelled => exact notCancelled (congrArg some cancelled)
    obtain ⟨branchOk, branchResumes, branchEnds⟩ :
        HandlerOk home executionId checkpoint (.resume caseId executionId confirmation principal)
          (resumeBranch executionId supplierCase current execution) ∧ _ ∧ _ := resumeBranch_ok finished
    refine ⟨checkpoint, ?_, .inl rfl⟩
    simp only [afterResume, notWaiting, if_false, setThread_self recording.thread]
    refine recording.read at_ branchOk branchResumes ?_
    rw [branchEnds, if_neg]
    · rfl
    · rintro ⟨cancelled, waiting | inReview⟩
      · exact notWaiting waiting
      · exact unraced.2 inReview (status.trans (congrArg some cancelled))
  | refused stuck =>
    refine ⟨checkpoint, ?_, .inl rfl⟩
    simp only [setThread_self recording.thread]
    exact recording.read at_ trivial rfl rfl

theorem recording_advance (recording : Recording home executionId checkpoint w)
    (at_ : w.requests[index]? = some ⟨request, handler⟩)
    (unraced : Current executionId w.app request handler)
    (moved : handler.advance schemas services ambient w.app request = some (app, next)) :
    ∃ checkpoint', Recording home executionId checkpoint'
        ⟨app, w.requests.set index ⟨request, next⟩⟩ ∧
      (checkpoint' = checkpoint ∨ Awaits checkpoint) := by
  obtain ⟨onCase, onExecution⟩ := recording.targets _ (List.mem_of_getElem? at_)
  have ok := recording.handlers _ (List.mem_of_getElem? at_)
  cases handler with
  | authorizing =>
    simp only [Handler.advance, onCase] at moved
    split at moved <;> cases moved
    next => exact ⟨checkpoint, recording.read at_ trivial rfl rfl, .inl rfl⟩
    next authorized =>
      exact ⟨checkpoint, recording.read at_ (recording.authorize authorized) rfl rfl, .inl rfl⟩
  | loading supplierCase =>
    obtain ⟨execution, read⟩ := recording.gate.readable
    have target : request.executionId supplierCase = executionId :=
      (executionId_of_sameCase ok request).trans onExecution
    simp only [Handler.advance, target, recording.thread, recording.inScope.getExecution ok, read]
      at moved
    cases request with
    | start =>
      cases moved
      -- a start that finds the execution cancelled must not have read the case in review
      have current : supplierCase.status = .inReview → execution.status ≠ .cancelled :=
        fun inReview cancelled =>
          unraced inReview ((recording.status read).trans (congrArg some cancelled))
      obtain ⟨branchOk, resumes, ends⟩ := startBranch_ok read current
      exact ⟨checkpoint, recording.read at_ branchOk resumes ends, .inl rfl⟩
    | resume =>
      cases moved
      exact ⟨checkpoint, recording.read at_ ok rfl rfl, .inl rfl⟩
  | resuming supplierCase current =>
    cases request with
    | start => cases moved
    | resume caseId executionId' confirmation principal =>
      have target : executionId' = executionId := onExecution
      subst target
      simp only [Handler.advance, recording.thread] at moved
      cases moved
      exact recording.resuming at_ unraced rfl
  | recordingResumed supplierCase current execution =>
    obtain ⟨waiting, finished, decided⟩ := ok
    cases request with
    | start => exact decided.elim
    | resume caseId executionId' confirmation principal =>
      have target : executionId' = executionId := onExecution
      subst target
      simp only [Handler.advance, Option.some.injEq] at moved
      obtain ⟨branchOk, branchResumes, branchEnds⟩ :
          HandlerOk home executionId' checkpoint (.resume caseId executionId' confirmation principal)
            (resumeBranch executionId' supplierCase current execution) ∧ _ ∧ _ := resumeBranch_ok finished
      refine ⟨checkpoint, recording.append at_ moved onCase branchOk ?_ ?_ ?_, .inl rfl⟩
      · intro _
        exact ⟨confirmation, decided, rfl⟩
      · rw [branchResumes]
        simp [isResumed, reviewResumed, Handler.resumes]
      · rw [branchEnds]
        simp [waiting, isEnded, isCompleted, isCancelled, reviewResumed, Handler.ends]
  | findingReview execution result =>
    simp only [Handler.advance] at moved
    split at moved <;> cases moved
    · exact ⟨checkpoint, recording.read at_ trivial rfl rfl, .inl rfl⟩
    · exact ⟨checkpoint, recording.read at_ ok rfl rfl, .inl rfl⟩
  | savingReview execution result =>
    cases moved
    exact ⟨checkpoint, recording.saved at_ unraced rfl, .inl rfl⟩
  | markingPending execution result =>
    obtain ⟨finished, completed, got⟩ := ok
    obtain ⟨result', got', -, resultCase⟩ := completed_result finished.1 completed
    cases got.symm.trans got'
    simp only [Handler.advance, Option.some.injEq] at moved
    exact ⟨checkpoint, recording.setStatus at_ moved (resultCase.trans recording.inScope.caseId)
      ⟨finished, completed, got⟩ rfl rfl, .inl rfl⟩
  | recordingCompleted execution result =>
    obtain ⟨finished, completed, got⟩ := ok
    obtain ⟨result', got', reviewId, resultCase⟩ := completed_result finished.1 completed
    cases got.symm.trans got'
    have target : result.reviewId = executionId := reviewId.trans recording.inScope.executionId
    simp only [Handler.advance, Option.some.injEq] at moved
    refine ⟨checkpoint, recording.append at_ moved (resultCase.trans recording.inScope.caseId) trivial
      ?_ ?_ ?_, .inl rfl⟩
    · simp [isResumed, reviewCompleted]
    · simp [isResumed, reviewCompleted, Handler.resumes]
    · simp [isEnded, isCompleted, reviewCompleted, Handler.ends, target]
  | markingNew executionId' execution =>
    simp only [Handler.advance, Option.some.injEq] at moved
    exact ⟨checkpoint, recording.setStatus at_ moved onCase ok rfl rfl, .inl rfl⟩
  | recordingCancelled executionId' execution =>
    obtain ⟨rfl, finished, cancelled⟩ := ok
    simp only [Handler.advance, Option.some.injEq] at moved
    refine ⟨checkpoint, recording.append at_ moved onCase trivial ?_ ?_ ?_, .inl rfl⟩
    · simp [isResumed, reviewCancelled]
    · simp [isResumed, reviewCancelled, Handler.resumes]
    · simp [isEnded, isCancelled, reviewCancelled, Handler.ends]
  | done => cases moved
  | markingInReview | recordingStarted | starting | markingFailed | recordingFailed
  | recordingAwaiting => exact ok.elim

theorem Recording.submit (recording : Recording home executionId checkpoint w)
    (onExecution : request.caseId = home.id ∧ request.executionId home = executionId) :
    Recording home executionId checkpoint { w with requests := w.requests ++ [⟨request, .authorizing⟩] } := by
  have resumedTotal : ApiWorld.total home.id (isResumed executionId) Handler.resumes
      { w with requests := w.requests ++ [⟨request, .authorizing⟩] } =
        w.total home.id (isResumed executionId) Handler.resumes := by
    simp [ApiWorld.total, tally_concat, Handler.resumes]
  have endedTotal : ApiWorld.total home.id (isEnded executionId) Handler.ends
      { w with requests := w.requests ++ [⟨request, .authorizing⟩] } =
        w.total home.id (isEnded executionId) Handler.ends := by
    simp [ApiWorld.total, tally_concat, Handler.ends]
  exact { recording with
    targets := by
      intro handling member
      cases List.mem_append.mp member with
      | inl old => exact recording.targets handling old
      | inr new =>
        cases List.mem_singleton.mp new
        exact onExecution
    handlers := by
      intro handling member
      cases List.mem_append.mp member with
      | inl old => exact recording.handlers handling old
      | inr new =>
        cases List.mem_singleton.mp new
        exact trivial
    resumed := resumedTotal ▸ recording.resumed
    ended := endedTotal ▸ recording.ended
    silent := by
      rw [resumedTotal, endedTotal]
      exact recording.silent
    unstored := by
      rw [endedTotal]
      exact recording.unstored }

theorem recording_step {label : ApiLabel} {w' : ApiWorld}
    (recording : Recording home executionId checkpoint w) (onExecution : ForExecution home executionId label)
    (uncontended : Uncontended executionId w label) (moved : w.step schemas label = some w') :
    ∃ checkpoint', Recording home executionId checkpoint' w' ∧
      (checkpoint' = checkpoint ∨ Awaits checkpoint) := by
  cases label with
  | submit request =>
    cases moved
    exact ⟨checkpoint, recording.submit onExecution, .inl rfl⟩
  | advance index services ambient =>
    simp only [ApiWorld.step] at moved
    split at moved
    · cases moved
    next handling at_ =>
      obtain ⟨request, handler⟩ := handling
      obtain ⟨⟨app, next⟩, advanced, rfl⟩ := Option.map_eq_some_iff.mp moved
      exact recording_advance recording at_ (uncontended _ at_) advanced

/-- An execution that awaits input before any request. -/
theorem AwaitingInput.recording (awaiting : AwaitingInput home executionId app) :
    ∃ checkpoint, Recording home executionId checkpoint ⟨app, []⟩ := by
  obtain ⟨checkpoint, thread, awaits, inScope⟩ := awaiting.thread
  have resumedTotal : ApiWorld.total home.id (isResumed executionId) Handler.resumes ⟨app, []⟩ = 0 := by
    simpa [ApiWorld.total, tally] using fun event member => (awaiting.events event member).1
  have endedTotal : ApiWorld.total home.id (isEnded executionId) Handler.ends ⟨app, []⟩ = 0 := by
    simpa [ApiWorld.total, tally] using fun event member => (awaiting.events event member).2
  exact ⟨checkpoint, {
    case_ := ⟨home, awaiting.case_, rfl, rfl⟩
    thread := thread
    gate := .awaiting awaits
    inScope := inScope
    targets := by simp
    handlers := by simp
    recorded := by
      intro event member resumed
      simp [(awaiting.events event member).1] at resumed
    resumed := by omega
    ended := by omega
    silent := fun _ => ⟨resumedTotal, endedTotal⟩
    unstored := fun _ _ _ _ => endedTotal
    stored := by simp [awaiting.review] }⟩

theorem Recording.oneDecision (recording : Recording home executionId checkpoint w) :
    OneDecision home.id executionId w.app where
  resumed := Nat.le_trans (Nat.le_add_right ..) recording.resumed
  recorded := by
    simpa [Application.decision, recording.thread] using recording.recorded
  ended := Nat.le_trans (Nat.le_add_right ..) recording.ended
  stored := by
    intro result stored
    obtain ⟨execution, read, completed⟩ := recording.stored result stored
    cases recording.gate with
    | awaiting awaits => exact absurd ⟨read, .inl completed⟩ (awaits_unfinished awaits execution)
    | stuck stuck =>
      obtain ⟨execution', read', running⟩ := stuck.execution
      cases read.symm.trans read'
      simp [running] at completed
    | finished finished decided confirmed =>
      cases read.symm.trans finished.1
      exact ⟨_, by simp [Application.decision, recording.thread, decided], confirmed completed⟩

/-- Any number of resume requests and start replays in any order, as long as none acts on a
    read that another has overtaken: the records follow one decision, and the decision in
    effect is never replaced. -/
theorem oneDecision_of_uncontended (awaiting : AwaitingInput home executionId app)
    (steps : StepsWhen (ApiWorld.step schemas) (fun w label =>
      ForExecution home executionId label ∧ Uncontended executionId w label) ⟨app, []⟩ w) :
    OneDecision home.id executionId w.app ∧
      ∀ w', StepsWhen (ApiWorld.step schemas) (fun w label =>
        ForExecution home executionId label ∧ Uncontended executionId w label) w w' →
        ∀ confirmation, w.app.decision executionId = some confirmation →
          w'.app.decision executionId = some confirmation := by
  have keep {w w' : ApiWorld} {label : ApiLabel}
      (recording : ∃ checkpoint, Recording home executionId checkpoint w)
      (met : ForExecution home executionId label ∧ Uncontended executionId w label)
      (moved : w.step schemas label = some w') :
      ∃ checkpoint, Recording home executionId checkpoint w' := by
    obtain ⟨checkpoint, recording⟩ := recording
    obtain ⟨checkpoint', recording', -⟩ := recording_step recording met.1 met.2 moved
    exact ⟨checkpoint', recording'⟩
  -- the invariant of the run, from which later runs start again
  have recording := steps.invariant awaiting.recording keep
  obtain ⟨checkpoint, atEnd⟩ := id recording
  refine ⟨atEnd.oneDecision, ?_⟩
  intro w' further confirmation
  refine further.related (R := fun w w' : ApiWorld => w.app.decision executionId = some confirmation →
    w'.app.decision executionId = some confirmation) recording keep (fun _ decided => decided)
    (fun first second decided => second (first decided)) ?_
  rintro w label w' ⟨checkpoint, recording⟩ met moved decided
  obtain ⟨checkpoint', recording', same | awaits⟩ := recording_step recording met.1 met.2 moved
  · simpa [Application.decision, recording'.thread, recording.thread, same] using decided
  · simp [Application.decision, recording.thread, awaits.unanswered] at decided

end

/-- A gated start whose specialists answer waits at the gate. -/
theorem start_awaits {schemas : JsonSchemas} {services : Services} (supplierCase : SupplierCase)
    (executionId : UUID) (answered : ∀ node ∈ specialistNodes, node.answered schemas services
      (startInput services supplierCase executionId true)) :
    ∃ checkpoint, (start schemas services none supplierCase executionId true).1 = some checkpoint ∧
      Awaits checkpoint ∧ InScope supplierCase executionId checkpoint.values := by
  let values := startInput services supplierCase executionId true
  let gathered := { values with
    findings := values.findings ++ services.specialists.flatMap fun task =>
      (rawBatch schemas services values task).map (storedFinding values.executionId) }
  have advanced : (reviewGraph schemas).superStep services ⟨values, specialistNodes, []⟩ none =
      .advanced ⟨gathered, [.evidenceConfirmation], []⟩ := specialists_superStep rfl answered
  have paused : (reviewGraph schemas).superStep services ⟨gathered, [.evidenceConfirmation], []⟩ none =
      .paused ⟨gathered, [.evidenceConfirmation], [interruptRequest gathered]⟩ :=
    Pregel.superStep_interrupt _ _ _ rfl rfl
  have ran : (reviewGraph schemas).invoke services recursionLimit none values =
      (⟨gathered, [.evidenceConfirmation], [interruptRequest gathered]⟩, .ok ()) :=
    (Pregel.run_advanced (by simp [specialistNodes]) advanced).trans
      (Pregel.run_paused (by simp) paused)
  have left : (start schemas services none supplierCase executionId true).1 =
      some ⟨gathered, [.evidenceConfirmation], [interruptRequest gathered]⟩ := by
    rw [start]
    exact congrArg (fun invoked => some (Prod.fst invoked)) ran
  exact ⟨_, left, ⟨rfl, ⟨_, rfl⟩, ⟨rfl, rfl⟩, rfl, rfl⟩, ⟨rfl, rfl, rfl⟩⟩

namespace Sample

open Graphs.Sample

def home : SupplierCase := { supplierCase with status := .inReview }

def analyst : Principal :=
  ⟨"ana", "tenant-a", [.analyst], sampleAnalyst_bounded, sampleTenant_bounded⟩

def rejection : EvidenceConfirmation := ⟨.reject, "Not enough.", by decide⟩

/-- The application after a gated start of the case. -/
def app : Application where
  repo := ⟨fun id => if id = home.id then some home else none, fun _ => [], fun _ => none, fun _ => []⟩
  threads id := if id = executionId then (start schemas approving none home executionId true).1 else none

def resumeRequest (confirmation : EvidenceConfirmation) : ApiLabel :=
  .submit (.resume home.id executionId confirmation analyst)

def advance (index : Nat) : ApiLabel := .advance index approving ⟨0, ⟨0⟩, ⟨0⟩⟩

theorem app_awaitingInput : AwaitingInput home executionId app where
  case_ := rfl
  thread := start_awaits home executionId (by decide +kernel)
  review := rfl
  events := by simp [app]

/-- A confirmation up to its last event, then a rejection that comes too late. -/
def confirmThenReject : List ApiLabel :=
  [resumeRequest confirmation] ++ List.replicate 8 (advance 0) ++
    [resumeRequest rejection] ++ List.replicate 4 (advance 1)

/-- A confirmation and a rejection that both read the execution before either resumes it. -/
def confirmAndReject : List ApiLabel :=
  [resumeRequest confirmation, resumeRequest rejection, advance 0, advance 1, advance 0, advance 1,
    advance 0, advance 1, advance 0, advance 1]

end Sample

open Graphs.Sample Sample in
theorem oneDecision_of_uncontended_late_reject :
    ∃ w : ApiWorld, w.app.decision executionId = some confirmation ∧
      (w.app.repo.events home.id).map (·.eventType) = ["review.resumed", "review.completed"] ∧
      OneDecision home.id executionId w.app := by
  have replayed : ((runWhen (ApiWorld.step schemas) (fun w label =>
      decide (ForExecution home executionId label ∧ Uncontended executionId w label)) ⟨app, []⟩
      confirmThenReject).map fun w => decide (w.app.decision executionId = some confirmation ∧
        (w.app.repo.events home.id).map (·.eventType) = ["review.resumed", "review.completed"])) =
      some true := by decide +kernel
  obtain ⟨w, ran, passed⟩ := Option.map_eq_some_iff.mp replayed
  obtain ⟨decided, events⟩ := of_decide_eq_true passed
  have steps : StepsWhen (ApiWorld.step schemas) (fun w label =>
      ForExecution home executionId label ∧ Uncontended executionId w label) ⟨app, []⟩ w :=
    stepsWhen_of_runWhen (fun _ _ _ passed => of_decide_eq_true passed) ran
  exact ⟨w, decided, events, (oneDecision_of_uncontended app_awaitingInput steps).1⟩

open Graphs.Sample Sample in
/-- Both resumes have read the execution as waiting: the second records its rejection of an
    execution that the first confirmed. -/
theorem not_oneDecision_two_resumes :
    ¬ ∀ (schemas : JsonSchemas) (home : SupplierCase) (executionId : UUID) (app : Application)
      (w : ApiWorld), AwaitingInput home executionId app →
      StepsWhen (ApiWorld.step schemas) (fun _ label => ForExecution home executionId label) ⟨app, []⟩ w →
      OneDecision home.id executionId w.app := by
  intro claimed
  have replayed : ((runWhen (ApiWorld.step schemas)
      (fun _ label => decide (ForExecution home executionId label)) ⟨app, []⟩ confirmAndReject).map
        fun w => decide ((w.app.repo.events home.id).countP (isResumed executionId) ≤ 1)) =
      some false := by decide +kernel
  obtain ⟨w, ran, failed⟩ := Option.map_eq_some_iff.mp replayed
  have steps : StepsWhen (ApiWorld.step schemas)
      (fun _ label => ForExecution home executionId label) ⟨app, []⟩ w :=
    stepsWhen_of_runWhen (fun _ _ _ passed => of_decide_eq_true passed) ran
  exact of_decide_eq_false failed
    (claimed schemas home executionId app w app_awaitingInput steps).resumed

end SupplierAssurance.Api
