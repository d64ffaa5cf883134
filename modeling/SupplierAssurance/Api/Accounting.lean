import SupplierAssurance.Api.History

/-! # Every request accounts for what it writes

Within a request the records are ahead of the history for a moment.  `Handler.Accounts` says by
how much at each await of a start or a resume, and `advance_accounts` that the next await keeps
to it; the other requests are a few writes in a row.
-/

namespace SupplierAssurance.Api

open Python Lib Graphs Governance Retrieval

/-! ## Calls of the workflow -/

/-- What a call of the workflow does to the thread of the execution: it reads it, or moves it on
    from a checkpoint without a result. -/
inductive Works (supplierCase : SupplierCase) (executionId : UUID) (thread : Thread) :
    Thread × Except ReviewError ReviewExecution → Prop
  | reads {answer : Except ReviewError ReviewExecution} :
      (∀ execution, answer = .ok execution → ∃ checkpoint, thread = some checkpoint ∧
        InScope supplierCase executionId checkpoint.values ∧
        executionFromSnapshot checkpoint = .ok execution) →
      Works supplierCase executionId thread (thread, answer)
  | moves {checkpoint : ReviewCheckpoint} {answer : Except ReviewError ReviewExecution} :
      (∀ before, thread = some before → checkpointResult before = none ∧
        InScope supplierCase executionId before.values) →
      InScope supplierCase executionId checkpoint.values → Settled checkpoint ∨ Stuck checkpoint →
      (∀ execution, answer = .ok execution → executionFromSnapshot checkpoint = .ok execution) →
      (∀ e, answer = .error e → checkpointResult checkpoint = none) →
      Works supplierCase executionId thread (some checkpoint, answer)

section

variable {schemas : JsonSchemas} {services : Services} {supplierCase : SupplierCase}
variable {executionId : UUID} {thread : Thread} {checkpoint : ReviewCheckpoint}
variable {execution : ReviewExecution}

/-- Only a completed execution has a result. -/
theorem checkpointResult_unfinished (read : executionFromSnapshot checkpoint = .ok execution)
    (unfinished : execution.status ≠ .completed) : checkpointResult checkpoint = none := by
  simp only [checkpointResult, read]
  cases got : execution.result with
  | none => rfl
  | some result => exact absurd (completed_of_result read got) unfinished

theorem works_getExecution (thread : Thread) :
    Works supplierCase executionId thread (thread, getExecution thread supplierCase executionId) := by
  apply Works.reads
  intro execution got
  obtain ⟨checkpoint, stored, inScope⟩ := (held_of_getExecution got).thread
  refine ⟨checkpoint, stored, inScope, ?_⟩
  rwa [stored, inScope.getExecution ⟨rfl, rfl⟩] at got

theorem works_invoked {invocation : Invocation} (ended : Ended schemas invocation.services
      (invocation.visited schemas) (invocation.outcome schemas))
    (inScope : InScope supplierCase executionId invocation.checkpoint.values)
    (before : ∀ before, thread = some before → checkpointResult before = none ∧
      InScope supplierCase executionId before.values) :
    Works supplierCase executionId thread
      (some (invocation.outcome schemas).1, answer (invocation.outcome schemas)) := by
  have scope : InScope supplierCase executionId (invocation.outcome schemas).1.values := inScope.outcome
  generalize invocation.outcome schemas = outcome at ended scope
  cases ended with
  | returned settled =>
    apply Works.moves before scope (.inl settled) (fun _ answered => answered)
    intro e raised
    obtain ⟨execution, read, _⟩ := settled.execution
    cases read.symm.trans raised
  | raised stuck =>
    apply Works.moves before scope (.inr stuck) (fun _ answered => by cases answered)
    intro _ _
    obtain ⟨execution, read, running⟩ := stuck.execution
    exact checkpointResult_unfinished read (by simp [running])

variable (schemas services) in
theorem start_works (thread : Thread) (supplierCase : SupplierCase) (executionId : UUID) (required : Bool) :
    Works supplierCase executionId thread
      (start schemas services thread supplierCase executionId required) := by
  cases thread with
  | some checkpoint => exact works_getExecution (some checkpoint)
  | none =>
    let invocation : Invocation :=
      .input services none (startInput services supplierCase executionId required)
    have inScope : InScope supplierCase executionId invocation.checkpoint.values :=
      InScope.startOver services none required ⟨rfl, rfl⟩
    have ended : Ended schemas invocation.services (invocation.visited schemas)
        (invocation.outcome schemas) := invoke_ended none supplierCase executionId required
    exact works_invoked ended inScope (fun _ none => by cases none)

variable (schemas services) in
theorem resume_works (supplierCase : SupplierCase) (executionId : UUID)
    (confirmation : EvidenceConfirmation)
    (resting : ∀ checkpoint, thread = some checkpoint → Settled checkpoint ∨ Stuck checkpoint) :
    Works supplierCase executionId thread
      (resume schemas services thread supplierCase executionId confirmation) := by
  cases thread with
  | none => exact .reads fun _ refused => by cases refused
  | some checkpoint =>
    cases got : getExecution (some checkpoint) supplierCase executionId with
    | error e =>
      simp only [resume, resumeRead, got]
      exact .reads fun _ refused => by cases refused
    | ok current =>
      obtain ⟨_, stored, inScope⟩ := (held_of_getExecution got).thread
      cases stored
      have read : executionFromSnapshot checkpoint = .ok current := by
        rwa [inScope.getExecution ⟨rfl, rfl⟩] at got
      cases status : current.status with
      | completed | cancelled =>
        simp only [resume, resumeRead, got, status]
        exact .reads fun _ same => ⟨checkpoint, rfl, inScope, by rw [read, same]⟩
      | running =>
        simp only [resume, resumeRead, got, status]
        exact .reads fun _ refused => by cases refused
      | awaitingInput =>
        -- only here the graph is run again
        simp only [resume, resumeRead, got, status]
        let invocation : Invocation := ⟨services, checkpoint, some confirmation⟩
        have ended : Ended schemas invocation.services (invocation.visited schemas)
            (invocation.outcome schemas) := resume_ended (resting checkpoint rfl) confirmation
        have unfinished := checkpointResult_unfinished read (by simp [status])
        exact works_invoked ended inScope fun _ same => by
          cases same
          exact ⟨unfinished, inScope⟩

end

/-! ## One await of a request -/

/-- What follows an answer of the workflow: a completed execution owes its review. -/
structure Answered (app : Application) (caseId : UUID) (execution : ReviewExecution) : Prop where
  completed : execution.status = .completed →
    ∃ result, execution.result = some result ∧ Owes app caseId result
  otherwise : execution.status ≠ .completed → Accounted none app
  unfinished : execution.status ≠ .completed → execution.result = none

/-- The request was let through to the case. -/
structure Entered (app : Application) (request : ApiRequest) (supplierCase : SupplierCase) : Prop where
  sameId : supplierCase.id = request.caseId
  found : ∃ current, app.repo.cases request.caseId = some current ∧
    current.tenantId = supplierCase.tenantId

def Stored (app : Application) (caseId : UUID) : Prop :=
  ∃ current, app.repo.cases caseId = some current

/-- The case has the status, and the event is to follow. -/
def Marked (app : Application) (caseId : UUID) (status : CaseStatus) : Prop :=
  ∃ repo current updatedAt, Accounted none ⟨repo, app.threads⟩ ∧ repo.cases caseId = some current ∧
    app.repo = repo.put caseId { current with status, updatedAt }

/-- How far the records are ahead of the history. -/
def Handler.Accounts (request : ApiRequest) (app : Application) : Handler → Prop
  | .authorizing | .done _ => Accounted none app
  | .loading supplierCase | .markingInReview supplierCase | .resuming supplierCase _ =>
    Accounted none app ∧ Entered app request supplierCase
  | .recordingStarted supplierCase =>
    Marked app request.caseId .inReview ∧ Entered app request supplierCase
  | .starting supplierCase => Accounted none app ∧ Entered app request supplierCase ∧
    ∃ event ∈ told (app.repo.events request.caseId),
      Starts request.caseId (request.executionId supplierCase) event
  | .markingFailed .. | .recordingAwaiting .. | .markingNew .. =>
    Accounted none app ∧ Stored app request.caseId
  | .recordingFailed .. => Marked app request.caseId .reviewFailed
  | .recordingCancelled .. => Marked app request.caseId .new
  | .recordingResumed _ _ execution => Answered app request.caseId execution ∧ Stored app request.caseId
  | .findingReview _ result => Owes app request.caseId result
  | .savingReview _ result =>
    Owes app request.caseId result ∧ app.repo.reviewsById result.reviewId = none
  | .markingPending _ result => ∃ repo, Owes ⟨repo, app.threads⟩ request.caseId result ∧
    repo.reviewsById result.reviewId = none ∧ app.repo = repo.saveReview result
  | .recordingCompleted _ result => ∃ repo current updatedAt,
    Owes ⟨repo, app.threads⟩ request.caseId result ∧ repo.reviewsById result.reviewId = none ∧
      repo.cases result.caseId = some current ∧
      app.repo = (repo.saveReview result).put result.caseId
        { current with status := .pendingApproval, updatedAt }

section

variable {schemas : JsonSchemas} {services : Services} {ambient : Ambient} {app : Application}
variable {request : ApiRequest} {caseId executionId : UUID} {current supplierCase : SupplierCase}
variable {execution : ReviewExecution} {result : ReviewResult} {next : Handler}

theorem write_status (found : app.repo.cases caseId = some current) (status : CaseStatus) :
    app.write (app.repo.setStatus ambient caseId status) next =
      ({ app with repo := app.repo.put caseId { current with status, updatedAt := ambient.now } },
        next) := by
  rw [InMemoryCaseRepository.setStatus_found found]
  rfl

theorem write_event {event : AuditEventCreate} (found : app.repo.cases event.caseId = some current) :
    app.write (app.repo.appendAuditEvent ambient event) next =
      ({ app with repo := app.repo.logged ambient event }, next) := by
  rw [InMemoryCaseRepository.appendAuditEvent_found found]
  rfl

/-- The event that the status was waiting for. -/
theorem Marked.logs {status : CaseStatus} {event : AuditEventCreate}
    (marked : Marked app event.caseId status) (speaks : eventStatus event.eventType = some status)
    (notCreated : event.eventType ≠ "case.created") (notCompletion : isCompletion event = false)
    (ambient : Ambient) :
    (∃ current, app.repo.cases event.caseId = some current) ∧
      Accounted none { app with repo := app.repo.logged ambient event } := by
  obtain ⟨repo, current, updatedAt, accounted, found, isPut⟩ := marked
  have stated : status = (eventStatus event.eventType).getD current.status := by
    rw [speaks]
    rfl
  have entered := accounted.enters found notCreated notCompletion stated updatedAt ambient
  refine ⟨⟨{ current with status, updatedAt }, ?_⟩, ?_⟩
  · simp [isPut, InMemoryCaseRepository.put]
  · rwa [isPut]

theorem Owes.stored (owes : Owes app caseId result) : Stored app caseId := by
  obtain ⟨checkpoint, stored, finished⟩ := owes.thread
  obtain ⟨current, found, _⟩ := (owes.accounted.threads _ checkpoint stored).found
  rw [← (checkpointResult_ids finished).2, owes.caseId] at found
  exact ⟨current, found⟩

/-- A review that is stored is not owed. -/
theorem Owes.paid {saved : ReviewResult} (owes : Owes app caseId result)
    (found : app.repo.reviewsById result.reviewId = some saved) : Accounted none app := by
  apply owes.accounted.paid
  intro checkpoint finished isStored isFinished
  obtain ⟨checkpoint', isStored', isFinished'⟩ := (owes.accounted.recorded _ saved found).thread
  cases isStored.symm.trans isStored'
  rw [found, ← isFinished, isFinished']

/-- What a checkpoint shows of its execution. -/
theorem answered_of_snapshot {checkpoint : ReviewCheckpoint}
    (accounted : Accounted (some executionId) app) (stored : app.threads executionId = some checkpoint)
    (inScope : InScope supplierCase executionId checkpoint.values)
    (read : executionFromSnapshot checkpoint = .ok execution) :
    Answered app supplierCase.id execution := by
  refine ⟨?_, ?_, ?_⟩
  · intro completed
    obtain ⟨result, got, reviewId, ofCase⟩ := completed_result read completed
    rw [inScope.executionId] at reviewId
    have finished : checkpointResult checkpoint = some result := by simp only [checkpointResult, read, got]
    refine ⟨result, got, ?_, ?_, ofCase.trans inScope.caseId⟩
    · rwa [reviewId]
    · rw [reviewId]
      exact ⟨checkpoint, stored, finished⟩
  · intro unfinished
    apply accounted.paid
    intro checkpoint' result isStored finished
    cases stored.symm.trans isStored
    rw [checkpointResult_unfinished read unfinished] at finished
    cases finished
  · intro unfinished
    have none := checkpointResult_unfinished read unfinished
    simpa only [checkpointResult, read] using none

/-- A call of the workflow for a case of which the execution has been started. -/
theorem Works.answered {worked : Thread × Except ReviewError ReviewExecution}
    (works : Works supplierCase executionId (app.threads executionId) worked)
    (accounted : Accounted none app)
    (found : ∃ current, app.repo.cases supplierCase.id = some current ∧
      current.tenantId = supplierCase.tenantId)
    (started : app.threads executionId = none →
      ∃ event ∈ told (app.repo.events supplierCase.id), Starts supplierCase.id executionId event) :
    (∀ e, worked.2 = .error e → Accounted none (app.setThread executionId worked.1)) ∧
      ∀ execution, worked.2 = .ok execution →
        Answered (app.setThread executionId worked.1) supplierCase.id execution := by
  cases works with
  | reads answers =>
    have same : app.setThread executionId (app.threads executionId) = app := by
      simp [Application.setThread]
    simp only [same]
    refine ⟨fun _ _ => accounted, ?_⟩
    intro execution answered
    obtain ⟨checkpoint, stored, inScope, read⟩ := answers execution answered
    exact answered_of_snapshot (accounted.owing _) stored inScope read
  | moves before inScope resting answers raises =>
    rename_i checkpoint answer
    have told_ : ∃ event ∈ told (app.repo.events supplierCase.id),
        Starts supplierCase.id executionId event := by
      cases stored : app.threads executionId with
      | none => exact started stored
      | some old =>
        have thread := (accounted.threads executionId old stored).started
        rwa [(before old stored).2.caseId] at thread
    have thread : ThreadTold app.repo executionId checkpoint := by
      refine ⟨inScope.executionId, ?_, ?_, resting⟩
      · rw [inScope.caseId, inScope.tenantId]
        exact found
      · rw [inScope.caseId]
        exact told_
    have moved := accounted.moves thread fun old stored => (before old stored).1
    have stored : (app.setThread executionId (some checkpoint)).threads executionId =
        some checkpoint := by
      simp [Application.setThread]
    constructor
    · intro e raised
      refine moved.paid ?_
      intro checkpoint' result isStored finished
      cases stored.symm.trans isStored
      rw [raises e raised] at finished
      cases finished
    · intro execution answered
      exact answered_of_snapshot moved stored inScope (answers execution answered)

/-! ### Where the branches lead -/

theorem completedBranch_accounts (answered : Answered app request.caseId execution)
    (completed : execution.status = .completed) : (completedBranch execution).Accounts request app := by
  obtain ⟨result, got, owes⟩ := answered.completed completed
  simp only [completedBranch, got]
  exact owes

theorem startBranch_accounts (answered : Answered app request.caseId execution)
    (stored : Stored app request.caseId) (created : Bool) :
    (startBranch executionId supplierCase created execution).Accounts request app := by
  cases status : execution.status with
  | completed =>
    simp only [startBranch, status]
    exact completedBranch_accounts answered status
  | cancelled =>
    have accounted := answered.otherwise (by simp [status])
    simp only [startBranch, status]
    split
    · exact ⟨accounted, stored⟩
    · exact accounted
  | awaitingInput =>
    have accounted := answered.otherwise (by simp [status])
    simp only [startBranch, status]
    split
    · exact ⟨accounted, stored⟩
    · exact accounted
  | running =>
    simp only [startBranch, status]
    exact answered.otherwise (by simp [status])

theorem resumeBranch_accounts (answered : Answered app request.caseId execution)
    (stored : Stored app request.caseId) (current : ReviewExecution) :
    (resumeBranch executionId supplierCase current execution).Accounts request app := by
  cases status : execution.status with
  | completed =>
    simp only [resumeBranch, status]
    exact completedBranch_accounts answered status
  | cancelled =>
    have accounted := answered.otherwise (by simp [status])
    simp only [resumeBranch, status]
    split
    · exact ⟨accounted, stored⟩
    · exact accounted
  | awaitingInput | running =>
    simp only [resumeBranch, status]
    exact answered.otherwise (by simp [status])

theorem Entered.stored (entered : Entered app request supplierCase) : Stored app request.caseId := by
  obtain ⟨current, found, _⟩ := entered.found
  exact ⟨current, found⟩

theorem Entered.extends {app' : Application} (entered : Entered app request supplierCase)
    (extends_ : Extends app.repo app'.repo) : Entered app' request supplierCase :=
  ⟨entered.sameId, extends_.found entered.found⟩

/-- What the first read of the execution answers. -/
theorem Entered.loaded (entered : Entered app request supplierCase) (accounted : Accounted none app)
    (got : getExecution (app.threads executionId) supplierCase executionId = .ok execution) :
    Answered app request.caseId execution := by
  obtain ⟨checkpoint, stored, inScope⟩ := (held_of_getExecution got).thread
  rw [stored, inScope.getExecution ⟨rfl, rfl⟩] at got
  rw [← entered.sameId]
  exact answered_of_snapshot (accounted.owing _) stored inScope got

/-- `set_status` before its event. -/
theorem marked_status (accounted : Accounted none app) (stored : Stored app caseId) (status : CaseStatus)
    (ambient : Ambient) (next : Handler) :
    ∃ app', app.write (app.repo.setStatus ambient caseId status) next = (app', next) ∧
      Marked app' caseId status ∧ Extends app.repo app'.repo := by
  obtain ⟨current, found⟩ := stored
  exact ⟨_, write_status found status, ⟨app.repo, current, ambient.now, accounted, found, rfl⟩,
    extends_put found status ambient.now⟩

/-- An event beside the status. -/
theorem accounted_event (event : AuditEventCreate) (accounted : Accounted none app)
    (stored : Stored app event.caseId) (silent : eventStatus event.eventType = none)
    (ambient : Ambient) (next : Handler) :
    ∃ app', app.write (app.repo.appendAuditEvent ambient event) next = (app', next) ∧
      Accounted none app' ∧ Extends app.repo app'.repo := by
  obtain ⟨current, found⟩ := stored
  exact ⟨_, write_event found, accounted.logs found silent, extends_logged _ _ _⟩

theorem answered_event (event : AuditEventCreate) (answered : Answered app caseId execution)
    (stored : Stored app event.caseId) (silent : eventStatus event.eventType = none)
    (ambient : Ambient) (next : Handler) :
    ∃ app', app.write (app.repo.appendAuditEvent ambient event) next = (app', next) ∧
      Answered app' caseId execution ∧ Extends app.repo app'.repo := by
  obtain ⟨current, found⟩ := stored
  refine ⟨_, write_event found, ⟨?_, ?_, answered.unfinished⟩, extends_logged _ _ _⟩
  · intro completed
    obtain ⟨result, got, owes⟩ := answered.completed completed
    exact ⟨result, got, owes.accounted.logs found silent, owes.thread, owes.caseId⟩
  · intro unfinished
    exact (answered.otherwise unfinished).logs found silent

/-- An event of the status that is set. -/
theorem accounted_marked {status : CaseStatus} (event : AuditEventCreate)
    (marked : Marked app event.caseId status) (speaks : eventStatus event.eventType = some status)
    (notCreated : event.eventType ≠ "case.created") (notCompletion : isCompletion event = false)
    (ambient : Ambient) (next : Handler) :
    ∃ app', app.write (app.repo.appendAuditEvent ambient event) next = (app', next) ∧
      Accounted none app' ∧ Extends app.repo app'.repo ∧
      event ∈ told (app'.repo.events event.caseId) := by
  obtain ⟨⟨current, found⟩, accounted⟩ := marked.logs speaks notCreated notCompletion ambient
  refine ⟨_, write_event found, accounted, extends_logged _ _ _, ?_⟩
  rw [told_logged]
  simp

end

/-! ### The step -/

section

variable {schemas : JsonSchemas} {services : Services} {ambient : Ambient} {app app' : Application}
variable {request : ApiRequest} {handler next : Handler}

theorem advance_accounts (accounts : handler.Accounts request app)
    (moved : handler.advance schemas services ambient app request = some (app', next)) :
    next.Accounts request app' ∧ Extends app.repo app'.repo := by
  cases handler with
  | done answer => cases moved
  | authorizing =>
    have accounted : Accounted none app := accounts
    cases ok : authorize app.repo request.caseId request.principal with
    | error e =>
      simp only [Handler.advance, ok] at moved
      cases moved
      exact ⟨accounted, .refl _⟩
    | ok supplierCase =>
      simp only [Handler.advance, ok] at moved
      cases moved
      have found := getAuthorizedCase_found (authorize_ok ok)
      exact ⟨⟨accounted, accounted.cases.keyed _ _ found, supplierCase, found, rfl⟩, .refl _⟩
  | loading supplierCase =>
    obtain ⟨accounted, entered⟩ := accounts
    cases got : getExecution (app.threads (request.executionId supplierCase)) supplierCase
        (request.executionId supplierCase) with
    | ok execution =>
      have answered := entered.loaded accounted got
      cases request with
      | start =>
        simp only [Handler.advance, got] at moved
        cases moved
        exact ⟨startBranch_accounts answered entered.stored false, .refl _⟩
      | resume =>
        simp only [Handler.advance, got] at moved
        cases moved
        exact ⟨⟨accounted, entered⟩, .refl _⟩
    | error e =>
      cases request with
      | start =>
        cases e <;> simp only [Handler.advance, got] at moved <;> cases moved
        · exact ⟨⟨accounted, entered⟩, .refl _⟩
        all_goals exact ⟨accounted, .refl _⟩
      | resume =>
        simp only [Handler.advance, got] at moved
        cases moved
        exact ⟨accounted, .refl _⟩
  | markingInReview supplierCase =>
    obtain ⟨accounted, entered⟩ := accounts
    obtain ⟨marked, written, isMarked, extends_⟩ := marked_status accounted entered.stored
      .inReview ambient (.recordingStarted supplierCase)
    simp only [Handler.advance, written] at moved
    cases moved
    exact ⟨⟨isMarked, entered.extends extends_⟩, extends_⟩
  | recordingStarted supplierCase =>
    cases request with
    | resume => cases moved
    | start caseId key required principal =>
      obtain ⟨marked, entered⟩ := accounts
      obtain ⟨logged, written, accounted, extends_, member⟩ := accounted_marked (reviewStarted caseId
          ((ApiRequest.start caseId key required principal).executionId supplierCase)
          principal.subject required) marked rfl (by simp [reviewStarted]) rfl ambient
          (.starting supplierCase)
      simp only [Handler.advance, written] at moved
      cases moved
      exact ⟨⟨accounted, entered.extends extends_, _, member, .inl ⟨_, _, rfl⟩⟩, extends_⟩
  | starting supplierCase =>
    cases request with
    | resume => cases moved
    | start caseId key required principal =>
      obtain ⟨accounted, entered, started⟩ := accounts
      have sameId : supplierCase.id = caseId := entered.sameId
      have works := start_works schemas services (app.threads ((ApiRequest.start caseId key required
        principal).executionId supplierCase)) supplierCase
        ((ApiRequest.start caseId key required principal).executionId supplierCase) required
      obtain ⟨raised, answered⟩ := works.answered accounted (by rw [sameId]; exact entered.found)
        fun _ => by rw [sameId]; exact started
      rw [advance_starting] at moved
      cases moved
      refine ⟨?_, .refl _⟩
      rw [sameId] at answered
      have stored : Stored app caseId := entered.stored
      unfold afterStart
      split
      next execution ok => exact startBranch_accounts (answered execution ok) stored true
      next e refused => exact ⟨raised e refused, stored⟩
  | resuming supplierCase current =>
    cases request with
    | start => cases moved
    | resume caseId executionId confirmation principal =>
      obtain ⟨accounted, entered⟩ := accounts
      have sameId : supplierCase.id = caseId := entered.sameId
      have stored : Stored app caseId := entered.stored
      simp only [Handler.advance, Option.some.injEq, Prod.mk.injEq] at moved
      obtain ⟨rfl, rfl⟩ := moved
      refine ⟨?_, .refl _⟩
      have works := resume_works schemas services supplierCase executionId confirmation
        fun checkpoint stored => (accounted.threads executionId checkpoint stored).resting
      cases thread : app.threads executionId with
      | none =>
        have same : app.setThread executionId none = app := by
          rw [← thread]
          simp [Application.setThread]
        have unknown : resume schemas services none supplierCase executionId confirmation =
          (none, .error .notFound) := rfl
        simp only [unknown, afterResume, same]
        exact accounted
      | some checkpoint =>
        obtain ⟨raised, answered⟩ := works.answered accounted (by rw [sameId]; exact entered.found)
          fun none => by cases none.symm.trans thread
        rw [sameId, thread] at answered
        rw [thread] at raised
        unfold afterResume
        split
        next e refused => exact raised e refused
        next execution ok =>
          split
          · exact ⟨answered execution ok, stored⟩
          · exact resumeBranch_accounts (answered execution ok) stored current
  | recordingResumed supplierCase current execution =>
    cases request with
    | start => cases moved
    | resume caseId executionId confirmation principal =>
      obtain ⟨answered, stored⟩ := accounts
      have stored' : Stored app caseId := stored
      obtain ⟨resumed, written, answered', extends_⟩ := answered_event
        (reviewResumed caseId executionId principal.subject confirmation.decision) answered stored' rfl
        ambient (resumeBranch executionId supplierCase current execution)
      simp only [Handler.advance, written] at moved
      cases moved
      obtain ⟨supplierCase', found⟩ := stored'
      obtain ⟨_, _, found'⟩ := extends_.cases caseId supplierCase' found
      exact ⟨resumeBranch_accounts answered' ⟨_, found'⟩ current, extends_⟩
  | markingFailed executionId e =>
    obtain ⟨accounted, stored⟩ := accounts
    obtain ⟨marked, written, isMarked, extends_⟩ := marked_status accounted stored .reviewFailed
      ambient (.recordingFailed executionId e)
    simp only [Handler.advance, written] at moved
    cases moved
    exact ⟨isMarked, extends_⟩
  | markingNew executionId execution =>
    obtain ⟨accounted, stored⟩ := accounts
    obtain ⟨marked, written, isMarked, extends_⟩ := marked_status accounted stored .new ambient
      (.recordingCancelled executionId execution)
    simp only [Handler.advance, written] at moved
    cases moved
    exact ⟨isMarked, extends_⟩
  | recordingFailed executionId e =>
    obtain ⟨logged, written, accounted, extends_, _⟩ := accounted_marked
      (reviewFailed request.caseId executionId e) accounts rfl (by simp [reviewFailed]) rfl ambient
      (.done (.error (.unhandled (errorType e))))
    simp only [Handler.advance, written] at moved
    cases moved
    exact ⟨accounted, extends_⟩
  | recordingCancelled executionId execution =>
    obtain ⟨logged, written, accounted, extends_, _⟩ := accounted_marked
      (reviewCancelled request.caseId executionId request.principal.subject) accounts rfl
      (by simp [reviewCancelled]) rfl ambient (.done (.ok execution))
    simp only [Handler.advance, written] at moved
    cases moved
    exact ⟨accounted, extends_⟩
  | recordingAwaiting executionId execution =>
    obtain ⟨accounted, stored⟩ := accounts
    obtain ⟨logged, written, accounted', extends_⟩ := accounted_event
      (reviewAwaitingInput request.caseId executionId) accounted stored rfl ambient (.done (.ok execution))
    simp only [Handler.advance, written] at moved
    cases moved
    exact ⟨accounted', extends_⟩
  | findingReview execution result =>
    have owes : Owes app request.caseId result := accounts
    cases found : app.repo.reviewsById result.reviewId with
    | some saved =>
      simp only [Handler.advance, InMemoryCaseRepository.getReview, found] at moved
      cases moved
      exact ⟨owes.paid found, .refl _⟩
    | none =>
      simp only [Handler.advance, InMemoryCaseRepository.getReview, found] at moved
      cases moved
      exact ⟨⟨owes, found⟩, .refl _⟩
  | savingReview execution result =>
    obtain ⟨owes, isNew⟩ := accounts
    simp only [Handler.advance, Option.some.injEq, Prod.mk.injEq] at moved
    obtain ⟨rfl, rfl⟩ := moved
    exact ⟨⟨app.repo, owes, isNew, rfl⟩, extends_saveReview _ _⟩
  | markingPending execution result =>
    obtain ⟨repo, owes, isNew, saved⟩ := accounts
    obtain ⟨current, found⟩ := owes.stored
    rw [← owes.caseId] at found
    have found' : app.repo.cases result.caseId = some current := by
      rw [saved, saveReview_new isNew]
      exact found
    simp only [Handler.advance, write_status found', Option.some.injEq, Prod.mk.injEq] at moved
    obtain ⟨rfl, rfl⟩ := moved
    exact ⟨⟨repo, current, ambient.now, owes, isNew, found, by rw [saved]⟩, extends_put found' _ _⟩
  | recordingCompleted execution result =>
    obtain ⟨repo, current, updatedAt, owes, isNew, found, saved⟩ := accounts
    have found' : app.repo.cases (reviewCompleted result).caseId =
        some { current with status := .pendingApproval, updatedAt } := by
      rw [saved]
      simp [InMemoryCaseRepository.put, reviewCompleted]
    simp only [Handler.advance, write_event found', Option.some.injEq, Prod.mk.injEq] at moved
    obtain ⟨rfl, rfl⟩ := moved
    refine ⟨?_, extends_logged _ _ _⟩
    have accounted := owes.completes isNew found updatedAt ambient
    rwa [← saved] at accounted

variable (schemas) in
/-- A whole request: at its end nothing is owed. -/
theorem complete_accounts (draws : Draws) (fuel : Nat) (accounts : handler.Accounts request app) :
    (Handler.complete schemas draws request fuel app handler).2.Accounts request
        (Handler.complete schemas draws request fuel app handler).1 ∧
      Extends app.repo (Handler.complete schemas draws request fuel app handler).1.repo := by
  induction fuel generalizing app handler with
  | zero => exact ⟨accounts, .refl _⟩
  | succ fuel ih =>
    simp only [Handler.complete]
    cases moved : handler.advance schemas draws.services (draws.ambient fuel) app request with
    | none => exact ⟨accounts, .refl _⟩
    | some advanced =>
      obtain ⟨app', next⟩ := advanced
      obtain ⟨accounts', extends_⟩ := advance_accounts accounts moved
      obtain ⟨completed, further⟩ := ih accounts'
      exact ⟨completed, extends_.trans further⟩

end

/-! ## Whole requests -/

section

variable {schemas : JsonSchemas} {draws : Draws} {principal : Principal} {s : ApiState}
variable {caseId : UUID} {current : SupplierCase} {ambient : Ambient}

variable (schemas draws) in
/-- `start_review_execution` and `resume_review_execution`. -/
theorem process_accounted (accounted : Accounted none s.app) (request : ApiRequest) :
    Accounted none (process schemas draws s request).1.app ∧
      Extends s.cases (process schemas draws s request).1.cases ∧
      (process schemas draws s request).1.actions = s.actions := by
  have suits : Handler.authorizing.Suits request := by cases request <;> trivial
  obtain ⟨answer, isDone⟩ : ∃ answer, (Handler.complete schemas draws request awaits s.app
      .authorizing).2 = .done answer := complete_done awaits (by simp [Handler.rank, awaits]) suits
  have accounts : Handler.authorizing.Accounts request s.app := accounted
  obtain ⟨completed, extends_⟩ := complete_accounts schemas draws awaits accounts
  rw [isDone] at completed
  exact ⟨completed, extends_, rfl⟩

theorem ApiState.write_status {α : Type} {next : ApiState → ApiState × Except ApiError α}
    (found : s.cases.cases caseId = some current) (status : CaseStatus) :
    s.write (s.cases.setStatus ambient caseId status) next =
      next { s with cases := s.cases.put caseId { current with status, updatedAt := ambient.now } } := by
  rw [InMemoryCaseRepository.setStatus_found found]
  rfl

theorem ApiState.write_event {α : Type} {next : ApiState → ApiState × Except ApiError α}
    {event : AuditEventCreate} (found : s.cases.cases event.caseId = some current) :
    s.write (s.cases.appendAuditEvent ambient event) next =
      next { s with cases := s.cases.logged ambient event } := by
  rw [InMemoryCaseRepository.appendAuditEvent_found found]
  rfl

/-- A new case, with the event that opens its history. -/
theorem Accounted.opens {repo : InMemoryCaseRepository} {threads : UUID → Thread}
    (accounted : Accounted none ⟨repo, threads⟩) (fresh : repo.cases current.id = none)
    (isNew : current.status = .new) (actorId : String) (ambient : Ambient) :
    Accounted none ⟨(repo.put current.id current).logged ambient (caseCreated current actorId), threads⟩ ∧
      Extends repo ((repo.put current.id current).logged ambient (caseCreated current actorId)) := by
  have empty : repo.events current.id = [] := accounted.cases.unopened _ fresh
  have elsewhere {caseId : UUID} (other : caseId ≠ current.id) :
      ((repo.put current.id current).logged ambient (caseCreated current actorId)).cases caseId =
        repo.cases caseId ∧
      ((repo.put current.id current).logged ambient (caseCreated current actorId)).events caseId =
        repo.events caseId := by
    simp [InMemoryCaseRepository.put, InMemoryCaseRepository.logged, caseCreated, other]
  have here : ((repo.put current.id current).logged ambient (caseCreated current actorId)).cases
      current.id = some current := by
    simp [InMemoryCaseRepository.put, InMemoryCaseRepository.logged]
  have tells : told (((repo.put current.id current).logged ambient
      (caseCreated current actorId)).events current.id) = [caseCreated current actorId] := by
    have sameCase : current.id = (caseCreated current actorId).caseId := rfl
    rw [told_logged, if_pos sameCase]
    simp [InMemoryCaseRepository.put, empty, told]
  have extends_ : Extends repo
      ((repo.put current.id current).logged ambient (caseCreated current actorId)) := by
    refine ⟨?_, fun _ _ stored => stored, ?_⟩
    · intro caseId supplierCase found
      have other : caseId ≠ current.id := by
        intro same
        rw [same, fresh] at found
        cases found
      exact ⟨_, _, (elsewhere other).1.trans found⟩
    · intro caseId
      by_cases same : caseId = current.id
      · subst same
        rw [empty]
        exact List.nil_prefix
      · rw [(elsewhere same).2]
  refine ⟨⟨⟨?_, ?_, ?_, ?_⟩, ?_, accounted.filed,
    fun executionId checkpoint stored => (accounted.threads executionId checkpoint stored).extends extends_,
    fun reviewId result stored => (accounted.recorded reviewId result stored).extends extends_,
    accounted.finished⟩, extends_⟩
  · intro caseId supplierCase found
    by_cases same : caseId = current.id
    · subst same
      cases here.symm.trans found
      rfl
    · exact accounted.cases.keyed caseId supplierCase ((elsewhere same).1.symm.trans found)
  · intro caseId
    by_cases same : caseId = current.id
    · subst same
      rw [here]
      simp [InMemoryCaseRepository.put, InMemoryCaseRepository.logged, caseCreated, empty, statusTold,
        eventStatus, isNew]
    · rw [(elsewhere same).1, (elsewhere same).2, accounted.cases.status]
  · intro caseId supplierCase found
    by_cases same : caseId = current.id
    · subst same
      cases here.symm.trans found
      exact ⟨actorId, [], tells, by simp⟩
    · rw [(elsewhere same).2]
      exact accounted.cases.opened caseId supplierCase ((elsewhere same).1.symm.trans found)
  · intro caseId absent
    by_cases same : caseId = current.id
    · subst same
      cases here.symm.trans absent
    · rw [(elsewhere same).2]
      exact accounted.cases.unopened caseId ((elsewhere same).1.symm.trans absent)
  · intro caseId
    have before := accounted.completions caseId
    by_cases same : caseId = current.id
    · subst same
      simp only [empty] at before
      rw [tells]
      exact before
    · rw [(elsewhere same).2]
      exact before

variable (principal) in
theorem createCase_accounted (accounted : Accounted none s.app)
    (fresh : s.cases.cases (draws.ambient 0).uuid = none) (payload : SupplierCaseCreate) :
    Accounted none (createCase draws s payload principal).1.app ∧
      Extends s.cases (createCase draws s payload principal).1.cases ∧
      (createCase draws s payload principal).1.actions = s.actions := by
  have freshId : s.cases.cases (newCase draws payload principal).id = none := fresh
  obtain ⟨opened, extends_⟩ := accounted.opens freshId rfl principal.subject (draws.ambient 1)
  have created : (createCase draws s payload principal).1 = { s with
      cases := (s.cases.put (newCase draws payload principal).id (newCase draws payload principal)).logged
        (draws.ambient 1) (caseCreated (newCase draws payload principal) principal.subject) } := by
    have found : (s.cases.put (newCase draws payload principal).id
        (newCase draws payload principal)).cases
        (caseCreated (newCase draws payload principal) principal.subject).caseId =
        some (newCase draws payload principal) := by
      simp [InMemoryCaseRepository.put, caseCreated]
    exact congrArg Prod.fst (ApiState.write_event found)
  rw [created]
  exact ⟨opened, extends_, rfl⟩

variable (draws) in
/-- `persist_completed_review`. -/
theorem persistCompletedReview_accounted {result : ReviewResult} (owes : Owes s.app caseId result) :
    Accounted none (persistCompletedReview draws s result).1.app ∧
      Extends s.cases (persistCompletedReview draws s result).1.cases ∧
      (persistCompletedReview draws s result).1.actions = s.actions := by
  cases stored : s.cases.reviewsById result.reviewId with
  | some saved =>
    have kept : persistCompletedReview draws s result = (s, .ok false) := by
      simp only [persistCompletedReview, InMemoryCaseRepository.getReview, stored]
    rw [kept]
    exact ⟨owes.paid stored, .refl _, rfl⟩
  | none =>
    obtain ⟨current, found⟩ := owes.stored
    rw [← owes.caseId] at found
    have found' : (s.cases.saveReview result).cases result.caseId = some current := by
      rw [saveReview_new stored]
      exact found
    have written : (persistCompletedReview draws s result).1 = { s with
        cases := ((s.cases.saveReview result).put result.caseId
          { current with status := .pendingApproval, updatedAt := (draws.ambient 3).now }).logged
            (draws.ambient 4) (reviewCompleted result) } := by
      have isPut : ((s.cases.saveReview result).put result.caseId
          { current with status := .pendingApproval, updatedAt := (draws.ambient 3).now }).cases
          (reviewCompleted result).caseId =
          some { current with status := .pendingApproval, updatedAt := (draws.ambient 3).now } := by
        simp [InMemoryCaseRepository.put, reviewCompleted]
      simp only [persistCompletedReview, InMemoryCaseRepository.getReview, stored]
      rw [ApiState.write_status found']
      exact congrArg Prod.fst (ApiState.write_event isPut)
    rw [written]
    exact ⟨owes.completes stored found _ _,
      ((extends_saveReview _ _).trans (extends_put found' _ _)).trans (extends_logged _ _ _), rfl⟩

/-- A status of the case and its event, of a request that has been let through to it. -/
theorem Accounted.marks (event : AuditEventCreate) {status : CaseStatus} (accounted : Accounted none s.app)
    (found : s.cases.cases caseId = some current) (onCase : event.caseId = caseId)
    (speaks : eventStatus event.eventType = some status) (notCreated : event.eventType ≠ "case.created")
    (notCompletion : isCompletion event = false) (ambient ambient' : Ambient) :
    ∃ s', Accounted none s'.app ∧ Extends s.cases s'.cases ∧ s'.actions = s.actions ∧
      s'.threads = s.threads ∧ event ∈ told (s'.cases.events caseId) ∧
      ∀ {α : Type} (next : ApiState → ApiState × Except ApiError α),
        s.write (s.cases.setStatus ambient caseId status)
          (fun s => s.write (s.cases.appendAuditEvent ambient' event) next) = next s' := by
  subst onCase
  have extends_ : Extends s.cases ((s.cases.put event.caseId
      { current with status, updatedAt := ambient.now }).logged ambient' event) :=
    (extends_put found status _).trans (extends_logged _ _ _)
  refine ⟨{ s with cases := (s.cases.put event.caseId
      { current with status, updatedAt := ambient.now }).logged ambient' event },
    accounted.enters found notCreated notCompletion (by rw [speaks]; rfl) _ _, extends_, rfl, rfl, ?_, ?_⟩
  · rw [told_logged]
    simp
  · intro α next
    have isPut : (s.cases.put event.caseId { current with status, updatedAt := ambient.now }).cases
        event.caseId = some { current with status, updatedAt := ambient.now } := by
      simp [InMemoryCaseRepository.put]
    rw [ApiState.write_status found]
    exact ApiState.write_event isPut

variable (schemas draws principal caseId) in
/-- `review_case`. -/
theorem reviewCase_accounted (accounted : Accounted none s.app) :
    Accounted none (reviewCase schemas draws s caseId principal).1.app ∧
      Extends s.cases (reviewCase schemas draws s caseId principal).1.cases ∧
      (reviewCase schemas draws s caseId principal).1.actions = s.actions := by
  simp only [reviewCase]
  cases ok : authorize s.cases caseId principal with
  | error e => exact ⟨accounted, .refl _, rfl⟩
  | ok supplierCase =>
    have found := getAuthorizedCase_found (authorize_ok ok)
    have sameId : supplierCase.id = caseId := accounted.cases.keyed _ _ found
    obtain ⟨s₁, accounted₁, extends₁, actions₁, threads₁, member, written⟩ := accounted.marks
      (reviewCaseStarted caseId principal.subject) found rfl rfl (by simp [reviewCaseStarted]) rfl
      (draws.ambient 0) (draws.ambient 1)
    simp only
    rw [written]
    have works : Works supplierCase (draws.ambient 2).uuid (s₁.app.threads (draws.ambient 2).uuid)
        (start schemas draws.services (s₁.threads (draws.ambient 2).uuid) supplierCase
          (draws.ambient 2).uuid false) := start_works _ _ _ _ _ _
    have known : ∃ current, s₁.cases.cases supplierCase.id = some current ∧
        current.tenantId = supplierCase.tenantId := by
      rw [sameId]
      exact extends₁.found ⟨supplierCase, found, rfl⟩
    obtain ⟨raised, answered⟩ := works.answered accounted₁ known fun _ =>
      ⟨_, sameId ▸ member, .inr ⟨_, by rw [sameId]⟩⟩
    generalize start schemas draws.services (s₁.threads (draws.ambient 2).uuid) supplierCase
      (draws.ambient 2).uuid false = started at raised answered
    let s₂ : ApiState := { s₁ with
      threads := Function.update s₁.threads (draws.ambient 2).uuid started.1 }
    cases ran : runResult started.2 with
    | error e =>
      have unpaid : Accounted none s₂.app := by
        cases isAnswer : started.2 with
        | error raise => exact raised raise isAnswer
        | ok execution =>
          apply (answered execution isAnswer).otherwise
          intro completed
          obtain ⟨result, got, _⟩ := (answered execution isAnswer).completed completed
          simp [runResult, isAnswer, got] at ran
      obtain ⟨current, isCurrent, _⟩ := known
      have found₂ : s₂.cases.cases caseId = some current := sameId ▸ isCurrent
      obtain ⟨s₃, accounted₃, extends₃, actions₃, _, _, written₃⟩ := unpaid.marks
        (reviewCaseFailed caseId e) found₂ rfl rfl (by simp [reviewCaseFailed]) rfl
        (draws.ambient 3) (draws.ambient 4)
      simp only
      rw [written₃]
      exact ⟨accounted₃, extends₁.trans extends₃, actions₃.trans actions₁⟩
    | ok result =>
      obtain ⟨execution, isAnswer, got⟩ := runResult_ok ran
      have completed : execution.status = .completed := by
        by_contra unfinished
        rw [(answered execution isAnswer).unfinished unfinished] at got
        cases got
      obtain ⟨result', got', owes⟩ := (answered execution isAnswer).completed completed
      cases got.symm.trans got'
      have owes₂ : Owes s₂.app supplierCase.id result := owes
      obtain ⟨persisted, extends₃, actions₃⟩ := persistCompletedReview_accounted draws owes₂
      exact ⟨persisted, extends₁.trans extends₃, actions₃.trans actions₁⟩

end

end SupplierAssurance.Api
