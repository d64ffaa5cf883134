import SupplierAssurance.Api.ReviewExecutions
import SupplierAssurance.Governance.Sequential

/-! # The business endpoints, one request at a time

The application with `repository_backend = "memory"`: the case repository, the action
repository over its `append_audit_event`, and the checkpointer.  A request runs from its
authorization to its response; `start_review_execution` and `resume_review_execution` go
through the awaits of `Handler` with nothing in between.

With these repositories the approval workflow is `LocalApprovalWorkflow`: the container
refuses Step Functions without PostgreSQL.
-/

namespace SupplierAssurance

open Python

/-- What `get_latest_review` raises. -/
inductive LatestReviewError where
  | caseError (e : CaseError)
  /-- `ReviewNotFoundError`. -/
  | noReview (caseId : UUID)
deriving DecidableEq

def LatestReviewError.text : LatestReviewError → String
  | .caseError e => e.text
  | .noReview caseId => "Supplier case " ++ caseId.str ++ " has no completed review"

namespace InMemoryCaseRepository

def getLatestReview (repo : InMemoryCaseRepository) (caseId : UUID) :
    Except LatestReviewError ReviewResult :=
  match repo.get caseId with
  | .error e => .error (.caseError e)
  | .ok _ =>
    match (repo.reviews caseId).getLast? with
    | none => .error (.noReview caseId)
    | some result => .ok result

def listAuditEvents (repo : InMemoryCaseRepository) (caseId : UUID) :
    Except CaseError (List AuditEvent) := do
  let _ ← repo.get caseId
  return repo.events caseId

end InMemoryCaseRepository

end SupplierAssurance

namespace SupplierAssurance.Api

open Python Lib Graphs Governance

structure ApiState where
  cases : InMemoryCaseRepository
  actions : InMemoryActionRepository
  threads : UUID → Thread

def ApiState.app (s : ApiState) : Application := ⟨s.cases, s.threads⟩

def ApiState.governed (s : ApiState) : AuditedRepository := ⟨s.actions, s.cases⟩

inductive Endpoint where
  | getCase (caseId : UUID)
  | startReviewExecution (caseId idempotencyKey : UUID) (requireEvidenceConfirmation : Bool)
  | getReviewExecution (caseId executionId : UUID)
  | resumeReviewExecution (caseId executionId : UUID) (confirmation : EvidenceConfirmation)
  | getLatestReview (caseId : UUID)
  | listAuditEvents (caseId : UUID)
  | proposeCaseAction (caseId : UUID) (request : ActionProposalRequest)
  | getAction (actionId : UUID)
  | decideAction (actionId : UUID) (request : ApprovalRequest)

inductive Body where
  | supplierCase (c : SupplierCase)
  | execution (e : ReviewExecution)
  | review (r : ReviewResult)
  | events (es : List AuditEvent)
  | action (a : GovernedAction)
  | detail (text : String)
  /-- The answer of the framework to an exception that no handler translates. -/
  | internalServerError

structure HttpResponse where
  status : Nat
  body : Body

/-- What a request draws from outside: the answers of the model backend, and the clock and
    `uuid4` at each of its awaits. -/
structure Draws where
  services : Services
  ambient : Nat → Ambient

def ApiError.body : ApiError → Body
  | .notFound detail | .forbidden detail | .conflict detail => .detail detail
  | .unhandled _ => .internalServerError

def httpResponse (status : Nat) : Except ApiError Body → HttpResponse
  | .ok body => ⟨status, body⟩
  | .error e => ⟨e.statusCode, e.body⟩

/-! ## Cases and reviews -/

def getAuthorizedCase (repo : InMemoryCaseRepository) (caseId : UUID) (principal : Principal) :
    Except ApiError SupplierCase :=
  match repo.get caseId with
  | .error e => .error (.notFound e.text)
  | .ok supplierCase =>
    if .admin ∉ principal.roles ∧ supplierCase.tenantId ≠ principal.tenantId then
      .error (.notFound (CaseError.caseNotFound caseId).text)
    else .ok supplierCase

def getReviewExecution (s : ApiState) (caseId executionId : UUID) (principal : Principal) :
    Except ApiError ReviewExecution := do
  let supplierCase ← getAuthorizedCase s.cases caseId principal
  match getExecution (s.threads executionId) supplierCase executionId with
  | .ok execution => return execution
  | .error .notFound => throw (.notFound ("Review execution " ++ executionId.str ++ " was not found"))
  | .error e => throw (.unhandled (errorType e))

def getLatestReview (s : ApiState) (caseId : UUID) (principal : Principal) :
    Except ApiError ReviewResult := do
  let _ ← getAuthorizedCase s.cases caseId principal
  match s.cases.getLatestReview caseId with
  | .ok result => return result
  | .error e => throw (.notFound e.text)

def listAuditEvents (s : ApiState) (caseId : UUID) (principal : Principal) :
    Except ApiError (List AuditEvent) := do
  let _ ← getAuthorizedCase s.cases caseId principal
  match s.cases.listAuditEvents caseId with
  | .ok events => return events
  | .error e => throw (.unhandled e.errorType)

/-! ## Start and resume -/

section

variable (schemas : JsonSchemas) (draws : Draws)

/-- The awaits of a request, one after the other. -/
def Handler.complete (request : ApiRequest) : Nat → Application → Handler → Application × Handler
  | 0, app, handler => (app, handler)
  | fuel + 1, app, handler =>
    match handler.advance schemas draws.services (draws.ambient fuel) app request with
    | none => (app, handler)
    | some (app', next) => Handler.complete request fuel app' next

def Handler.answer : Handler → Except ApiError ReviewExecution
  | .done answer => answer
  | _ => .error (.unhandled "")

/-- No request has more awaits than this; see `complete_done`. -/
def awaits : Nat := 10

def process (s : ApiState) (request : ApiRequest) : ApiState × Except ApiError ReviewExecution :=
  let (app, handler) := Handler.complete schemas draws request awaits s.app .authorizing
  ({ s with cases := app.repo, threads := app.threads }, handler.answer)

/-! ## Governance -/

/-- `type(exc).__name__`; the exceptions of the parts that the service calls are known by it. -/
def governanceErrorType : GovernanceError → String
  | .authorizationDenied _ => "AuthorizationDeniedError"
  | .actionState _ => "ActionStateError"
  | .idempotencyConflict _ => "IdempotencyConflictError"
  | .actionNotFound _ => "ActionNotFoundError"
  | .transitionConflict _ => "ActionTransitionConflictError"
  | .valueError _ => "ValueError"
  | .validationError => "ValidationError"
  | .integrityError => "IntegrityError"
  | .dataError => "DBAPIError"
  | .keyError => "KeyError"
  | .supplierError errorType | .workflowError errorType | .auditError errorType => errorType

/-- The `except` clauses of `propose_case_action`. -/
def proposeError : GovernanceError → ApiError
  | .authorizationDenied detail => .forbidden detail
  | .idempotencyConflict detail => .conflict detail
  | e => .unhandled (governanceErrorType e)

def proposeMoment (principal : Principal) (request : ActionProposalRequest) : Moment Unit where
  now := (draws.ambient 0).now
  workflow := .ok ("local://approval/" ++ (actionIdFor principal.tenantId request.idempotencyKey).str)
  ambient := draws.ambient 1
  input := ()

def proposeCaseAction (s : ApiState) (caseId : UUID) (request : ActionProposalRequest)
    (principal : Principal) : ApiState × Except ApiError GovernedAction :=
  match getAuthorizedCase s.cases caseId principal with
  | .error e => (s, .error e)
  | .ok supplierCase =>
    match s.cases.getLatestReview caseId with
    | .error (.noReview caseId) => (s, .error (.conflict (LatestReviewError.noReview caseId).text))
    | .error (.caseError e) => (s, .error (.unhandled e.errorType))
    | .ok review =>
      let (governed, answer) := GovernanceService.propose inMemoryActionRepository s.governed
        ⟨supplierCase, review, request, principal⟩ (proposeMoment draws principal request)
      ({ s with actions := governed.repo, cases := governed.cases }, answer.mapError proposeError)

def getAction (s : ApiState) (actionId : UUID) (principal : Principal) :
    Except ApiError GovernedAction :=
  match GovernanceService.get inMemoryActionRepository s.governed actionId principal with
  | .ok action => .ok action
  | .error (.actionNotFound _) | .error (.authorizationDenied _) =>
    .error (.notFound ("Governed action " ++ actionId.str ++ " was not found"))
  | .error e => .error (.unhandled (governanceErrorType e))

/-- The `except` clauses of `decide_action`. -/
def decideError : GovernanceError → ApiError
  | .actionNotFound detail => .notFound detail
  | .authorizationDenied detail => .forbidden detail
  | .actionState detail => .conflict detail
  | e => .unhandled (governanceErrorType e)

def decideMoment : Moment Unit where
  now := (draws.ambient 0).now
  workflow := .ok ""
  ambient := draws.ambient 1
  input := ()

def decideAction (s : ApiState) (actionId : UUID) (request : ApprovalRequest) (principal : Principal) :
    ApiState × Except ApiError GovernedAction :=
  let (governed, answer) := GovernanceService.decide inMemoryActionRepository s.governed actionId
    request principal (decideMoment draws)
  ({ s with actions := governed.repo, cases := governed.cases }, answer.mapError decideError)

/-! ## The application -/

def respond (s : ApiState) (principal : Principal) : Endpoint → ApiState × HttpResponse
  | .getCase caseId =>
    (s, httpResponse 200 ((getAuthorizedCase s.cases caseId principal).map .supplierCase))
  | .startReviewExecution caseId idempotencyKey required =>
    let (s', answer) := process schemas draws s (.start caseId idempotencyKey required principal)
    (s', httpResponse 201 (answer.map .execution))
  | .getReviewExecution caseId executionId =>
    (s, httpResponse 200 ((getReviewExecution s caseId executionId principal).map .execution))
  | .resumeReviewExecution caseId executionId confirmation =>
    let (s', answer) := process schemas draws s (.resume caseId executionId confirmation principal)
    (s', httpResponse 200 (answer.map .execution))
  | .getLatestReview caseId =>
    (s, httpResponse 200 ((getLatestReview s caseId principal).map .review))
  | .listAuditEvents caseId =>
    (s, httpResponse 200 ((listAuditEvents s caseId principal).map .events))
  | .proposeCaseAction caseId request =>
    let (s', answer) := proposeCaseAction draws s caseId request principal
    (s', httpResponse 201 (answer.map .action))
  | .getAction actionId =>
    (s, httpResponse 200 ((getAction s actionId principal).map .action))
  | .decideAction actionId request =>
    let (s', answer) := decideAction draws s actionId request principal
    (s', httpResponse 200 (answer.map .action))

end

/-! ## Every request is answered -/

/-- How many awaits are left at most. -/
def Handler.rank : Handler → Nat
  | .authorizing => 9
  | .loading _ => 8
  | .markingInReview _ => 7
  | .recordingStarted _ | .resuming .. => 6
  | .starting _ | .recordingResumed .. => 5
  | .findingReview .. => 4
  | .savingReview .. => 3
  | .markingPending .. | .markingFailed .. | .markingNew .. => 2
  | .recordingCompleted .. | .recordingFailed .. | .recordingCancelled .. | .recordingAwaiting .. => 1
  | .done _ => 0

/-- Each endpoint has its own awaits; those of rank at most 4 are shared. -/
def Handler.Suits : ApiRequest → Handler → Prop
  | .resume .., .markingInReview _ | .resume .., .recordingStarted _ | .resume .., .starting _ => False
  | .start .., .resuming .. | .start .., .recordingResumed .. => False
  | _, _ => True

structure Handler.Below (bound : Nat) (request : ApiRequest) (handler : Handler) : Prop where
  suits : handler.Suits request
  rank : handler.rank < bound

section

variable {schemas : JsonSchemas} {draws : Draws} {request : ApiRequest} {handler next : Handler}
variable {app : Application} {bound : Nat}

theorem below_of_shared (shared : next.rank ≤ 4) (rank : next.rank < bound) : next.Below bound request := by
  refine ⟨?_, rank⟩
  cases request <;> cases next <;> simp_all [Handler.Suits, Handler.rank]

theorem startBranch_below (executionId : UUID) (supplierCase : SupplierCase) (created : Bool)
    (execution : ReviewExecution) (bounded : 5 ≤ bound) :
    (startBranch executionId supplierCase created execution).Below bound request := by
  have rank : (startBranch executionId supplierCase created execution).rank ≤ 4 := by
    unfold startBranch completedBranch
    repeat' split
    all_goals simp [Handler.rank]
  exact below_of_shared rank (by omega)

theorem resumeBranch_below (executionId : UUID) (supplierCase : SupplierCase)
    (current execution : ReviewExecution) (bounded : 5 ≤ bound) :
    (resumeBranch executionId supplierCase current execution).Below bound request := by
  have rank : (resumeBranch executionId supplierCase current execution).rank ≤ 4 := by
    unfold resumeBranch completedBranch
    repeat' split
    all_goals simp [Handler.rank]
  exact below_of_shared rank (by omega)

theorem write_below (written : Except CaseError InMemoryCaseRepository)
    (below : next.Below bound request) : (app.write written next).2.Below bound request := by
  cases written with
  | error e =>
    exact below_of_shared (Nat.zero_le _) (Nat.lt_of_le_of_lt (Nat.zero_le _) below.rank)
  | ok repo => exact below

variable (schemas draws app) in
theorem advance_below (suits : handler.Suits request) (unfinished : handler.rank ≠ 0) (ambient : Ambient) :
    ∃ app' next, handler.advance schemas draws.services ambient app request = some (app', next) ∧
      next.Below handler.rank request := by
  have shared {next : Handler} (rank : next.rank ≤ 4) (less : next.rank < handler.rank) :
      next.Below handler.rank request := below_of_shared rank less
  cases handler with
  | authorizing =>
    simp only [Handler.advance]
    split
    · exact ⟨_, _, rfl, shared (by simp [Handler.rank]) (by simp [Handler.rank])⟩
    · exact ⟨_, _, rfl, by cases request <;> trivial, by simp [Handler.rank]⟩
  | loading supplierCase =>
    simp only [Handler.advance]
    split
    · exact ⟨_, _, rfl, startBranch_below _ _ _ _ (by simp [Handler.rank])⟩
    · exact ⟨_, _, rfl, trivial, by simp [Handler.rank]⟩
    · exact ⟨_, _, rfl, shared (by simp [Handler.rank]) (by simp [Handler.rank])⟩
    · exact ⟨_, _, rfl, trivial, by simp [Handler.rank]⟩
    · exact ⟨_, _, rfl, shared (by simp [Handler.rank]) (by simp [Handler.rank])⟩
  | markingInReview supplierCase =>
    cases request with
    | resume => cases suits
    | start => exact ⟨_, _, rfl, write_below _ ⟨trivial, by simp [Handler.rank]⟩⟩
  | recordingStarted supplierCase =>
    cases request with
    | resume => cases suits
    | start => exact ⟨_, _, rfl, write_below _ ⟨trivial, by simp [Handler.rank]⟩⟩
  | starting supplierCase =>
    cases request with
    | resume => cases suits
    | start =>
      refine ⟨_, _, rfl, ?_⟩
      split
      · exact startBranch_below _ _ _ _ (by simp [Handler.rank])
      · exact shared (by simp [Handler.rank]) (by simp [Handler.rank])
  | resuming supplierCase current =>
    cases request with
    | start => cases suits
    | resume _ executionId confirmation =>
      refine ⟨_, _, rfl, ?_⟩
      unfold afterResume
      split
      · exact shared (by simp [Handler.rank]) (by simp [Handler.rank])
      · split
        · exact ⟨trivial, by simp [Handler.rank]⟩
        · exact resumeBranch_below _ _ _ _ (by simp [Handler.rank])
  | recordingResumed supplierCase current execution =>
    cases request with
    | start => cases suits
    | resume => exact ⟨_, _, rfl, write_below _ (resumeBranch_below _ _ _ _ (by simp [Handler.rank]))⟩
  | findingReview execution result =>
    simp only [Handler.advance]
    split <;> exact ⟨_, _, rfl, shared (by simp [Handler.rank]) (by simp [Handler.rank])⟩
  | savingReview execution result =>
    exact ⟨_, _, rfl, shared (by simp [Handler.rank]) (by simp [Handler.rank])⟩
  | markingFailed | recordingFailed | recordingAwaiting | markingPending | recordingCompleted
  | markingNew | recordingCancelled =>
    exact ⟨_, _, rfl, write_below _ (shared (by simp [Handler.rank]) (by simp [Handler.rank]))⟩
  | done answer => exact absurd rfl unfinished

/-- With as many awaits as its rank a request comes to its answer. -/
theorem complete_done (fuel : Nat) (enough : handler.rank ≤ fuel) (suits : handler.Suits request) :
    ∃ answer, (Handler.complete schemas draws request fuel app handler).2 = .done answer := by
  induction fuel generalizing app handler with
  | zero => cases handler <;> simp_all [Handler.rank, Handler.complete]
  | succ fuel ih =>
    by_cases finished : handler.rank = 0
    · cases handler <;> simp_all [Handler.rank, Handler.complete, Handler.advance]
    · obtain ⟨app', next, moved, below⟩ := advance_below schemas draws app suits finished
        (draws.ambient fuel)
      simp only [Handler.complete, moved]
      have less := below.rank
      exact ih (by omega) below.suits

end

end SupplierAssurance.Api
