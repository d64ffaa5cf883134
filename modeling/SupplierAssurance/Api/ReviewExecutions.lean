import SupplierAssurance.Graphs.Workflow
import SupplierAssurance.Persistence.Cases
import SupplierAssurance.Lib.Transition

/-! # The review execution endpoints

`start_review_execution` and `resume_review_execution`, each as the awaits it goes through:
a step is one call of the case repository or of the workflow.  Any number of requests are
in flight; runs are their interleavings.
-/

namespace SupplierAssurance.Api

open Python Lib Graphs

def executionIdFor (tenantId : String) (caseId idempotencyKey : UUID) : UUID :=
  uuid5 NAMESPACE_URL
    ("supplier-review:" ++ tenantId ++ ":" ++ caseId.str ++ ":" ++ idempotencyKey.str)

inductive ApiRequest where
  | start (caseId idempotencyKey : UUID) (requireEvidenceConfirmation : Bool) (principal : Principal)
  | resume (caseId executionId : UUID) (confirmation : EvidenceConfirmation) (principal : Principal)

namespace ApiRequest

def caseId : ApiRequest → UUID
  | .start caseId .. => caseId
  | .resume caseId .. => caseId

def principal : ApiRequest → Principal
  | .start _ _ _ principal => principal
  | .resume _ _ _ principal => principal

/-- The execution that a request on a case is about. -/
def executionId (supplierCase : SupplierCase) : ApiRequest → UUID
  | .start _ idempotencyKey .. => executionIdFor supplierCase.tenantId supplierCase.id idempotencyKey
  | .resume _ executionId .. => executionId

end ApiRequest

/-- An `HTTPException`, or an exception that no handler translates. -/
inductive ApiError where
  | notFound (detail : String)
  | forbidden (detail : String)
  | conflict (detail : String)
  | unhandled (errorType : String)
deriving DecidableEq

def ApiError.statusCode : ApiError → Nat
  | .notFound _ => 404
  | .forbidden _ => 403
  | .conflict _ => 409
  | .unhandled _ => 500

/-- `type(exc).__name__`; the exception of a node is known by its type. -/
def errorType : ReviewError → String
  | .notFound => "ReviewExecutionNotFoundError"
  | .notAwaiting => "ReviewExecutionStateError"
  | .missingResult => "RuntimeError"
  | .graph (.node e) => e
  | .graph .recursionLimit => "GraphRecursionError"

/-- The `except` clauses of `resume_review_execution`. -/
def resumeError (executionId : UUID) : ReviewError → ApiError
  | .notFound => .notFound ("Review execution " ++ executionId.str ++ " was not found")
  | .notAwaiting => .conflict
      ("Review execution " ++ executionId.str ++ " is not awaiting analyst input")
  | e => .unhandled (errorType e)

/-! ## Audit events -/

def reviewStarted (caseId executionId : UUID) (initiatedBy : String) (required : Bool) :
    AuditEventCreate where
  caseId := caseId
  eventType := "review.started"
  actorId := "system:review-workflow"
  payload := [("execution_id", .str executionId.str), ("initiated_by", .str initiatedBy),
    ("evidence_confirmation_required", .bool required)]

def reviewFailed (caseId executionId : UUID) (e : ReviewError) : AuditEventCreate where
  caseId := caseId
  eventType := "review.failed"
  actorId := "system:review-workflow"
  payload := [("execution_id", .str executionId.str), ("error_type", .str (errorType e))]

def reviewAwaitingInput (caseId executionId : UUID) : AuditEventCreate where
  caseId := caseId
  eventType := "review.awaiting_input"
  actorId := "system:review-workflow"
  payload := [("execution_id", .str executionId.str)]

def reviewResumed (caseId executionId : UUID) (actorId : String)
    (decision : EvidenceConfirmationDecision) : AuditEventCreate where
  caseId := caseId
  eventType := "review.resumed"
  actorId := actorId
  payload := [("execution_id", .str executionId.str), ("decision", .str decision.value)]

def reviewCompleted (result : ReviewResult) : AuditEventCreate where
  caseId := result.caseId
  eventType := "review.completed"
  actorId := "system:review-workflow"
  payload := [("review_id", .str result.reviewId.str),
    ("decision", .str result.recommendation.decision.value),
    ("finding_count", .int result.findings.length)]

def reviewCancelled (caseId executionId : UUID) (actorId : String) : AuditEventCreate where
  caseId := caseId
  eventType := "review.cancelled"
  actorId := actorId
  payload := [("execution_id", .str executionId.str)]

/-! ## Handlers -/

/-- The await at which a request stands, with the local variables read after it. -/
inductive Handler where
  | authorizing
  | loading (supplierCase : SupplierCase)
  -- `start_review_execution` when the execution is new
  | markingInReview (supplierCase : SupplierCase)
  | recordingStarted (supplierCase : SupplierCase)
  | starting (supplierCase : SupplierCase)
  | markingFailed (executionId : UUID) (e : ReviewError)
  | recordingFailed (executionId : UUID) (e : ReviewError)
  | recordingAwaiting (executionId : UUID) (execution : ReviewExecution)
  -- `resume_review_execution`
  | resuming (supplierCase : SupplierCase) (current : ReviewExecution)
  | recordingResumed (supplierCase : SupplierCase) (current execution : ReviewExecution)
  -- `persist_completed_review`
  | findingReview (execution : ReviewExecution) (result : ReviewResult)
  | savingReview (execution : ReviewExecution) (result : ReviewResult)
  | markingPending (execution : ReviewExecution) (result : ReviewResult)
  | recordingCompleted (execution : ReviewExecution) (result : ReviewResult)
  -- the branch of a cancelled execution
  | markingNew (executionId : UUID) (execution : ReviewExecution)
  | recordingCancelled (executionId : UUID) (execution : ReviewExecution)
  | done (answer : Except ApiError ReviewExecution)

/-- `get_authorized_case` and `require_analyst`. -/
def authorize (repo : InMemoryCaseRepository) (caseId : UUID) (principal : Principal) :
    Except ApiError SupplierCase :=
  match repo.get caseId with
  | .error e => .error (.notFound e.text)
  | .ok supplierCase =>
    if .admin ∉ principal.roles ∧ supplierCase.tenantId ≠ principal.tenantId then
      .error (.notFound (CaseError.caseNotFound caseId).text)
    else if !principal.hasRole .analyst then .error (.forbidden "The analyst role is required")
    else .ok supplierCase

/-- The branch of a completed execution: `persist_completed_review`. -/
def completedBranch (execution : ReviewExecution) : Handler :=
  match execution.result with
  | none => .done (.error (.unhandled "RuntimeError"))
  | some result => .findingReview execution result

/-- The end of `start_review_execution`. -/
def startBranch (executionId : UUID) (supplierCase : SupplierCase) (created : Bool)
    (execution : ReviewExecution) : Handler :=
  match execution.status with
  | .completed => completedBranch execution
  | .cancelled =>
    if supplierCase.status = .inReview then .markingNew executionId execution
    else .done (.ok execution)
  | .awaitingInput =>
    if created then .recordingAwaiting executionId execution else .done (.ok execution)
  | .running => .done (.ok execution)

/-- The end of `resume_review_execution`. -/
def resumeBranch (executionId : UUID) (supplierCase : SupplierCase)
    (current execution : ReviewExecution) : Handler :=
  match execution.status with
  | .completed => completedBranch execution
  | .cancelled =>
    if current.status = .awaitingInput ∨ supplierCase.status = .inReview then
      .markingNew executionId execution
    else .done (.ok execution)
  | _ => .done (.ok execution)

/-- After `workflow.resume`. -/
def afterResume (executionId : UUID) (supplierCase : SupplierCase) (current : ReviewExecution) :
    Except ReviewError ReviewExecution → Handler
  | .error e => .done (.error (resumeError executionId e))
  | .ok execution =>
    if current.status = .awaitingInput then .recordingResumed supplierCase current execution
    else resumeBranch executionId supplierCase current execution

/-! ## The application -/

structure Application where
  repo : InMemoryCaseRepository
  threads : UUID → Thread

def Application.setThread (app : Application) (executionId : UUID) (thread : Thread) : Application :=
  { app with threads := Function.update app.threads executionId thread }

/-- A write of the repository, after which the request stands at `next`; an exception of the
    repository ends it. -/
def Application.write (app : Application) (written : Except CaseError InMemoryCaseRepository)
    (next : Handler) : Application × Handler :=
  match written with
  | .error e => (app, .done (.error (.unhandled e.errorType)))
  | .ok repo => ({ app with repo }, next)

/-- The next await of a request. -/
def Handler.advance (schemas : JsonSchemas) (services : Services) (ambient : Ambient)
    (app : Application) (request : ApiRequest) : Handler → Option (Application × Handler)
  | .authorizing =>
    match authorize app.repo request.caseId request.principal with
    | .error e => some (app, .done (.error e))
    | .ok supplierCase => some (app, .loading supplierCase)
  | .loading supplierCase =>
    let executionId := request.executionId supplierCase
    match request, getExecution (app.threads executionId) supplierCase executionId with
    | .start .., .ok execution =>
      some (app, startBranch executionId supplierCase false execution)
    | .start .., .error .notFound => some (app, .markingInReview supplierCase)
    | .start .., .error e => some (app, .done (.error (.unhandled (errorType e))))
    | .resume .., .ok current => some (app, .resuming supplierCase current)
    | .resume .., .error e => some (app, .done (.error (resumeError executionId e)))
  | .markingInReview supplierCase =>
    some (app.write (app.repo.setStatus ambient request.caseId .inReview)
      (.recordingStarted supplierCase))
  | .recordingStarted supplierCase =>
    match request with
    | .start caseId _ required principal =>
      some (app.write (app.repo.appendAuditEvent ambient (reviewStarted caseId
        (request.executionId supplierCase) principal.subject required)) (.starting supplierCase))
    | .resume .. => none
  | .starting supplierCase =>
    match request with
    | .start _ _ required _ =>
      let executionId := request.executionId supplierCase
      let (thread, answer) :=
        start schemas services (app.threads executionId) supplierCase executionId required
      some (app.setThread executionId thread,
        match answer with
        | .ok execution => startBranch executionId supplierCase true execution
        | .error e => .markingFailed executionId e)
    | .resume .. => none
  | .markingFailed executionId e =>
    some (app.write (app.repo.setStatus ambient request.caseId .reviewFailed)
      (.recordingFailed executionId e))
  | .recordingFailed executionId e =>
    some (app.write (app.repo.appendAuditEvent ambient (reviewFailed request.caseId executionId e))
      (.done (.error (.unhandled (errorType e)))))
  | .recordingAwaiting executionId execution =>
    some (app.write (app.repo.appendAuditEvent ambient
      (reviewAwaitingInput request.caseId executionId)) (.done (.ok execution)))
  | .resuming supplierCase current =>
    match request with
    | .resume _ executionId confirmation _ =>
      let (thread, answer) :=
        resume schemas services (app.threads executionId) supplierCase executionId confirmation
      some (app.setThread executionId thread, afterResume executionId supplierCase current answer)
    | .start .. => none
  | .recordingResumed supplierCase current execution =>
    match request with
    | .resume caseId executionId confirmation principal =>
      some (app.write (app.repo.appendAuditEvent ambient
        (reviewResumed caseId executionId principal.subject confirmation.decision))
        (resumeBranch executionId supplierCase current execution))
    | .start .. => none
  | .findingReview execution result =>
    match app.repo.getReview result.reviewId with
    | .ok _ => some (app, .done (.ok execution))
    | .error _ => some (app, .savingReview execution result)
  | .savingReview execution result =>
    some ({ app with repo := app.repo.saveReview result }, .markingPending execution result)
  | .markingPending execution result =>
    some (app.write (app.repo.setStatus ambient result.caseId .pendingApproval)
      (.recordingCompleted execution result))
  | .recordingCompleted execution result =>
    some (app.write (app.repo.appendAuditEvent ambient (reviewCompleted result))
      (.done (.ok execution)))
  | .markingNew executionId execution =>
    some (app.write (app.repo.setStatus ambient request.caseId .new)
      (.recordingCancelled executionId execution))
  | .recordingCancelled executionId execution =>
    some (app.write (app.repo.appendAuditEvent ambient
      (reviewCancelled request.caseId executionId request.principal.subject))
      (.done (.ok execution)))
  | .done _ => none

structure Handling where
  request : ApiRequest
  handler : Handler

structure ApiWorld where
  app : Application
  requests : List Handling

inductive ApiLabel where
  | submit (request : ApiRequest)
  | advance (index : Nat) (services : Services) (ambient : Ambient)

def ApiWorld.step (schemas : JsonSchemas) (w : ApiWorld) : ApiLabel → Option ApiWorld
  | .submit request => some { w with requests := w.requests ++ [⟨request, .authorizing⟩] }
  | .advance index services ambient =>
    match w.requests[index]? with
    | none => none
    | some handling =>
      (handling.handler.advance schemas services ambient w.app handling.request).map
        fun (app, handler) => ⟨app, w.requests.set index ⟨handling.request, handler⟩⟩

end SupplierAssurance.Api
