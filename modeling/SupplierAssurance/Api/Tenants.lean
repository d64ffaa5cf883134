import SupplierAssurance.Api.Endpoints
import SupplierAssurance.Api.Recovery

/-! # Tenants do not see each other

`restrict` is what the application would hold if one tenant were alone.  Two states agree
on a tenant's data when their restrictions are equal, and a request leaves another
tenant's data unchanged when it leaves that tenant's restriction as it was.

A request of a tenant goes through the application as it goes through the restriction, one
await after the other, except where the code looks an action up by an identifier alone:
`decide_action` answers 403 where the restriction answers 404, and `propose_case_action`
writes to an identifier that another tenant's action may have.
-/

namespace SupplierAssurance.Api

open Python Lib Graphs Governance

/-! ## What belongs to a tenant -/

/-- The case is one of the tenant's. -/
def owns (repo : InMemoryCaseRepository) (tenantId : String) (caseId : UUID) : Bool :=
  (repo.cases caseId).any (·.tenantId = tenantId)

def restrictCases (tenantId : String) (repo : InMemoryCaseRepository) : InMemoryCaseRepository where
  cases caseId := (repo.cases caseId).filter (·.tenantId = tenantId)
  reviews caseId := if owns repo tenantId caseId then repo.reviews caseId else []
  reviewsById reviewId := (repo.reviewsById reviewId).filter (owns repo tenantId ·.caseId)
  events caseId := if owns repo tenantId caseId then repo.events caseId else []

def restrictThread (tenantId : String) (thread : Thread) : Thread :=
  thread.filter (·.values.tenantId = tenantId)

def restrictActions (tenantId : String) (repo : InMemoryActionRepository) :
    InMemoryActionRepository where
  actions actionId := (repo.actions actionId).filter (·.tenantId = tenantId)
  idempotency key := if key.1 = tenantId then repo.idempotency key else none

def Application.restrict (tenantId : String) (app : Application) : Application :=
  ⟨restrictCases tenantId app.repo, fun executionId => restrictThread tenantId (app.threads executionId)⟩

def ApiState.restrict (tenantId : String) (s : ApiState) : ApiState :=
  ⟨restrictCases tenantId s.cases, restrictActions tenantId s.actions,
    fun executionId => restrictThread tenantId (s.threads executionId)⟩

section

variable {repo : InMemoryCaseRepository} {tenantId other : String} {caseId : UUID}
variable {supplierCase : SupplierCase}

theorem owns_iff : owns repo tenantId caseId = true ↔
    ∃ supplierCase, repo.cases caseId = some supplierCase ∧ supplierCase.tenantId = tenantId := by
  simp [owns, Option.any_eq_true]

/-- A case has one tenant. -/
theorem owns_other (owned : owns repo tenantId caseId = true) (differ : other ≠ tenantId) :
    owns repo other caseId = false := by
  obtain ⟨supplierCase, found, isTenant⟩ := owns_iff.mp owned
  have notOther : supplierCase.tenantId ≠ other := by
    rw [isTenant]
    exact differ.symm
  simp [owns, found, notOther]

theorem restrictCases_get (owned : owns repo tenantId caseId = true) :
    (restrictCases tenantId repo).get caseId = repo.get caseId := by
  obtain ⟨supplierCase, found, isTenant⟩ := owns_iff.mp owned
  simp [InMemoryCaseRepository.get, restrictCases, found, isTenant, Option.filter_some]

/-! ## The writes of the case repository -/

/-- A write on a case of the tenant: the restriction makes the same write, and nothing else of
    the application changes. -/
structure WritesCase (tenantId : String) (repo repo' : InMemoryCaseRepository)
    (write : InMemoryCaseRepository → Except CaseError InMemoryCaseRepository) : Prop where
  made : write repo = .ok repo'
  restricted : write (restrictCases tenantId repo) = .ok (restrictCases tenantId repo')
  others : ∀ other ≠ tenantId, restrictCases other repo' = restrictCases other repo
  kept : ∀ tenantId caseId, owns repo' tenantId caseId = owns repo tenantId caseId
  ids : ∀ caseId supplierCase, repo'.cases caseId = some supplierCase →
    ∃ old, repo.cases caseId = some old ∧ supplierCase.id = old.id

theorem setStatus_writes (owned : owns repo tenantId caseId = true) (ambient : Ambient)
    (status : CaseStatus) :
    ∃ repo', WritesCase tenantId repo repo' (·.setStatus ambient caseId status) ∧
      repo'.reviewsById = repo.reviewsById := by
  obtain ⟨supplierCase, found, isTenant⟩ := owns_iff.mp owned
  let updated : SupplierCase := { supplierCase with status, updatedAt := ambient.now }
  let repo' : InMemoryCaseRepository :=
    { repo with cases := Function.update repo.cases caseId (some updated) }
  have kept : ∀ tenantId id, owns repo' tenantId id = owns repo tenantId id := by
    intro tenantId id
    by_cases here : id = caseId
    · subst here
      simp [owns, repo', found, updated]
    · simp [owns, repo', here]
  refine ⟨repo', ⟨?_, ?_, ?_, kept, ?_⟩, rfl⟩
  · simp [InMemoryCaseRepository.setStatus, InMemoryCaseRepository.get, found, repo', updated, bind,
      Except.bind, pure, Except.pure]
  · -- the case is the tenant's, so the restriction has it and updates it alike
    have same : restrictCases tenantId repo' = { restrictCases tenantId repo with
        cases := Function.update (restrictCases tenantId repo).cases caseId (some updated) } := by
      simp only [restrictCases, kept]
      congr 1
      funext id
      by_cases here : id = caseId
      · subst here
        simp [repo', updated, isTenant, Option.filter_some]
      · simp [repo', here]
    have found' : (restrictCases tenantId repo).cases caseId = some supplierCase := by
      simp [restrictCases, found, isTenant, Option.filter_some]
    rw [same]
    simp [InMemoryCaseRepository.setStatus, InMemoryCaseRepository.get, found', updated, bind,
      Except.bind, pure, Except.pure]
  · -- the restriction to another tenant has the case neither before nor after
    intro other differ
    have notOther : tenantId ≠ other := differ.symm
    simp only [restrictCases, kept]
    congr 1
    funext id
    by_cases here : id = caseId
    · subst here
      simp [repo', updated, found, isTenant, Option.filter_some, notOther]
    · simp [repo', here]
  · intro id new found'
    by_cases here : id = caseId
    · subst here
      simp only [repo', Function.update_self, Option.some.injEq] at found'
      exact ⟨supplierCase, found, by rw [← found']⟩
    · simp only [repo', Function.update_of_ne here] at found'
      exact ⟨new, found', rfl⟩

theorem appendAuditEvent_writes {event : AuditEventCreate}
    (owned : owns repo tenantId event.caseId = true) (ambient : Ambient) :
    ∃ repo', WritesCase tenantId repo repo' (·.appendAuditEvent ambient event) ∧
      repo'.reviewsById = repo.reviewsById := by
  obtain ⟨supplierCase, found, isTenant⟩ := owns_iff.mp owned
  let stored : AuditEvent := { event with id := ambient.uuid, createdAt := ambient.now }
  let repo' : InMemoryCaseRepository := { repo with
    events := Function.update repo.events event.caseId (repo.events event.caseId ++ [stored]) }
  have kept : ∀ tenantId id, owns repo' tenantId id = owns repo tenantId id := fun _ _ => rfl
  refine ⟨repo', ⟨?_, ?_, ?_, kept, fun _ old found => ⟨old, found, rfl⟩⟩, rfl⟩
  · simp [InMemoryCaseRepository.appendAuditEvent, InMemoryCaseRepository.get, found, repo', stored,
      bind, Except.bind, pure, Except.pure]
  · have found' : (restrictCases tenantId repo).cases event.caseId = some supplierCase := by
      simp [restrictCases, found, isTenant, Option.filter_some]
    simp only [InMemoryCaseRepository.appendAuditEvent, InMemoryCaseRepository.get, found', bind,
      Except.bind, pure, Except.pure, Except.ok.injEq]
    simp only [restrictCases, kept]
    congr 1
    funext id
    by_cases here : id = event.caseId
    · subst here
      simp [repo', stored, owned]
    · simp [repo', here]
  · intro other differ
    have foreign : owns repo other event.caseId = false := owns_other owned differ
    simp only [restrictCases, kept]
    congr 1
    funext id
    by_cases here : id = event.caseId
    · subst here
      simp [foreign]
    · simp [repo', here]

/-- A review is saved on a case of the tenant, and no other tenant has a review of its
    identifier. -/
theorem saveReview_writes {result : ReviewResult} (owned : owns repo tenantId result.caseId = true)
    (free : ∀ old, repo.reviewsById result.reviewId = some old → owns repo tenantId old.caseId = true) :
    WritesCase tenantId repo (repo.saveReview result) fun repo => .ok (repo.saveReview result) := by
  cases found : repo.reviewsById result.reviewId with
  | some old =>
    -- a second save of the identifier is ignored, in the restriction too as the first is in it
    have unchanged : repo.saveReview result = repo := by
      simp [InMemoryCaseRepository.saveReview, found]
    have found' : (restrictCases tenantId repo).reviewsById result.reviewId = some old := by
      simp [restrictCases, found, free old found, Option.filter_some]
    rw [unchanged]
    refine ⟨?_, ?_, fun _ _ => rfl, fun _ _ => rfl, fun _ old found => ⟨old, found, rfl⟩⟩
    · simp [InMemoryCaseRepository.saveReview, found]
    · simp [InMemoryCaseRepository.saveReview, found']
  | none =>
    let repo' : InMemoryCaseRepository := { repo with
      reviews := Function.update repo.reviews result.caseId (repo.reviews result.caseId ++ [result])
      reviewsById := Function.update repo.reviewsById result.reviewId (some result) }
    have saved : repo.saveReview result = repo' := by
      simp [InMemoryCaseRepository.saveReview, found, repo']
    have found' : (restrictCases tenantId repo).reviewsById result.reviewId = none := by
      simp [restrictCases, found]
    have kept : ∀ tenantId id, owns repo' tenantId id = owns repo tenantId id := fun _ _ => rfl
    rw [saved]
    refine ⟨congrArg Except.ok saved, ?_, ?_, kept, fun _ old found => ⟨old, found, rfl⟩⟩
    · simp only [InMemoryCaseRepository.saveReview, found', Except.ok.injEq]
      simp only [restrictCases, kept, InMemoryCaseRepository.mk.injEq]
      refine ⟨rfl, ?_, ?_, rfl⟩
      · funext id
        by_cases here : id = result.caseId
        · subst here
          simp [repo', owned]
        · simp [repo', here]
      · funext id
        by_cases here : id = result.reviewId
        · subst here
          simp [repo', owned, Option.filter_some]
        · simp [repo', here]
    · intro other differ
      have foreign : owns repo other result.caseId = false := owns_other owned differ
      simp only [restrictCases, kept, InMemoryCaseRepository.mk.injEq]
      refine ⟨rfl, ?_, ?_, rfl⟩
      · funext id
        by_cases here : id = result.caseId
        · subst here
          simp [foreign]
        · simp [repo', here]
      · funext id
        by_cases here : id = result.reviewId
        · subst here
          simp [repo', found, foreign, Option.filter_some]
        · simp [repo', here]

end

/-! ## The states of the application -/

def executionName (tenantId : String) (caseId idempotencyKey : UUID) : String :=
  "supplier-review:" ++ tenantId ++ ":" ++ caseId.str ++ ":" ++ idempotencyKey.str

theorem executionName_inj {tenantId tenantId' : String} {caseId caseId' key key' : UUID}
    (same : executionName tenantId caseId key = executionName tenantId' caseId' key') :
    tenantId = tenantId' := by
  obtain ⟨scopes, _⟩ := scopedName_inj same
  obtain ⟨tenants, _⟩ := scopedName_inj scopes
  have chars := congrArg String.toList tenants
  simp only [String.toList_append] at chars
  exact String.toList_inj.mp (List.append_cancel_left chars)

/-- What holds of every application: a case is stored under its identifier, an execution under
    one that is derived from its tenant and its case or is random, and a review under the
    identifier of an execution of its case. -/
structure Formed (names : Set String) (app : Application) : Prop where
  keyed : ∀ caseId supplierCase, app.repo.cases caseId = some supplierCase → supplierCase.id = caseId
  named : ∀ executionId checkpoint, app.threads executionId = some checkpoint →
    executionId.version = 4 ∨ ∃ key,
      executionName checkpoint.values.tenantId checkpoint.values.caseId key ∈ names ∧
      executionId = executionIdFor checkpoint.values.tenantId checkpoint.values.caseId key
  reviewed : ∀ reviewId result, app.repo.reviewsById reviewId = some result →
    ∃ checkpoint, app.threads reviewId = some checkpoint ∧ checkpoint.values.caseId = result.caseId

section

variable {names : Set String} {app : Application} {tenantId : String} {supplierCase : SupplierCase}
variable {executionId : UUID} {thread : Thread} {execution : ReviewExecution} {request : ApiRequest}
variable {schemas : JsonSchemas} {services : Services} {ambient : Ambient}

/-- The execution that a start derives from the tenant and the case is the tenant's. -/
theorem Formed.own_thread (formed : Formed names app) (injective : Set.InjOn (uuid5 NAMESPACE_URL) names)
    {caseId key : UUID} (named : executionName tenantId caseId key ∈ names)
    {checkpoint : ReviewCheckpoint}
    (found : app.threads (executionIdFor tenantId caseId key) = some checkpoint) :
    checkpoint.values.tenantId = tenantId := by
  have version : (executionIdFor tenantId caseId key).version = 5 := uuid5_version _ _
  cases formed.named _ checkpoint found with
  | inl random => omega
  | inr derived =>
    obtain ⟨key', named', same⟩ := derived
    exact (executionName_inj (injective named named' same)).symm

/-! ## The workflow on a thread -/

/-- The execution is that of a thread in the scope of the case. -/
structure Held (supplierCase : SupplierCase) (executionId : UUID) (thread : Thread)
    (execution : ReviewExecution) : Prop where
  own : OwnExecution supplierCase executionId execution
  completed : ∀ result, execution.result = some result → execution.status = .completed
  thread : ∃ checkpoint, thread = some checkpoint ∧ InScope supplierCase executionId checkpoint.values

/-- Only a completed execution has a result. -/
theorem completed_of_result {checkpoint : ReviewCheckpoint} {result : ReviewResult}
    (read : executionFromSnapshot checkpoint = .ok execution) (got : execution.result = some result) :
    execution.status = .completed := by
  simp only [executionFromSnapshot] at read
  split at read
  · cases read
    cases got
  · split at read
    · cases built : resultFromState checkpoint.values with
      | error e => simp [built, Except.map] at read
      | ok stored =>
        simp only [built, Except.map, Except.ok.injEq] at read
        rw [← read]
    · split at read <;> cases read <;> cases got

theorem inScope_of_validated {state : ReviewGraphState}
    (valid : validateScope state supplierCase executionId = .ok ()) :
    InScope supplierCase executionId state := by
  unfold validateScope at valid
  split at valid
  next => cases valid
  next same =>
    simp only [not_or, not_not] at same
    exact ⟨same.1, same.2.1, same.2.2⟩

theorem held_of_getExecution (got : getExecution thread supplierCase executionId = .ok execution) :
    Held supplierCase executionId thread execution := by
  cases thread with
  | none => cases got
  | some checkpoint =>
    cases valid : validateScope checkpoint.values supplierCase executionId with
    | error e => simp [getExecution, valid, bind, Except.bind] at got
    | ok =>
      have inScope := inScope_of_validated valid
      simp only [getExecution, valid, bind, Except.bind] at got
      exact ⟨ownExecution_of_snapshot inScope got, fun _ => completed_of_result got, checkpoint, rfl,
        inScope⟩

theorem held_of_answer {invocation : Invocation}
    (inScope : InScope supplierCase executionId invocation.checkpoint.values)
    (answered : answer (invocation.outcome schemas) = .ok execution) :
    Held supplierCase executionId (some (invocation.outcome schemas).1) execution := by
  have outcome : InScope supplierCase executionId (invocation.outcome schemas).1.values := inScope.outcome
  unfold answer at answered
  split at answered
  next => cases answered
  next =>
    exact ⟨ownExecution_of_snapshot outcome answered, fun _ => completed_of_result answered, _, rfl, outcome⟩

variable (schemas services) in
/-- `start` leaves a thread as it is, or begins one in the scope of the case. -/
theorem start_cases (thread : Thread) (supplierCase : SupplierCase) (executionId : UUID) (required : Bool) :
    let started := start schemas services thread supplierCase executionId required
    (started.1 = thread ∨ thread = none ∧ ∃ checkpoint, started.1 = some checkpoint ∧
      InScope supplierCase executionId checkpoint.values) ∧
    ∀ execution, started.2 = .ok execution → Held supplierCase executionId started.1 execution := by
  cases thread with
  | some checkpoint => exact ⟨.inl rfl, fun execution got => held_of_getExecution got⟩
  | none =>
    let invocation : Invocation :=
      .input services none (startInput services supplierCase executionId required)
    have inScope : InScope supplierCase executionId invocation.checkpoint.values :=
      InScope.startOver services none required ⟨rfl, rfl⟩
    have outcome : InScope supplierCase executionId (invocation.outcome schemas).1.values :=
      inScope.outcome
    exact ⟨.inr ⟨rfl, _, rfl, outcome⟩, fun execution answered => held_of_answer inScope answered⟩

variable (schemas services) in
/-- `resume` leaves a thread as it is, or moves one in the scope of the case. -/
theorem resume_cases (thread : Thread) (supplierCase : SupplierCase) (executionId : UUID)
    (confirmation : EvidenceConfirmation) :
    let resumed := resume schemas services thread supplierCase executionId confirmation
    (resumed.1 = thread ∨ ∃ checkpoint checkpoint', thread = some checkpoint ∧
      InScope supplierCase executionId checkpoint.values ∧ resumed.1 = some checkpoint' ∧
      InScope supplierCase executionId checkpoint'.values) ∧
    ∀ execution, resumed.2 = .ok execution → Held supplierCase executionId resumed.1 execution := by
  cases thread with
  | none =>
    refine ⟨.inl rfl, ?_⟩
    intro execution got
    cases got
  | some checkpoint =>
    cases got : getExecution (some checkpoint) supplierCase executionId with
    | error e =>
      simp only [resume, resumeRead, got]
      refine ⟨.inl trivial, ?_⟩
      intro execution refused
      cases refused
    | ok current =>
      have held := held_of_getExecution got
      cases status : current.status with
      | completed | cancelled =>
        simp only [resume, resumeRead, got, status]
        refine ⟨.inl trivial, ?_⟩
        intro execution same
        cases same
        exact held
      | running =>
        simp only [resume, resumeRead, got, status]
        refine ⟨.inl trivial, ?_⟩
        intro execution refused
        cases refused
      | awaitingInput =>
        -- only here the graph is run again, from a checkpoint of the case
        obtain ⟨_, same, held'⟩ := held.thread
        cases same
        let invocation : Invocation := ⟨services, checkpoint, some confirmation⟩
        have inScope : InScope supplierCase executionId invocation.checkpoint.values := held'
        have outcome : InScope supplierCase executionId (invocation.outcome schemas).1.values :=
          inScope.outcome
        simp only [resume, resumeRead, got, status]
        exact ⟨.inr ⟨_, _, rfl, inScope, rfl, outcome⟩,
          fun execution answered => held_of_answer inScope answered⟩

/-- A thread of another tenant is like no thread. -/
theorem getExecution_restrict (isTenant : supplierCase.tenantId = tenantId) (thread : Thread)
    (executionId : UUID) :
    getExecution (restrictThread tenantId thread) supplierCase executionId =
      getExecution thread supplierCase executionId := by
  cases thread with
  | none => rfl
  | some checkpoint =>
    by_cases own : checkpoint.values.tenantId = tenantId
    · simp [restrictThread, own, Option.filter_some]
    · have foreign : checkpoint.values.tenantId ≠ supplierCase.tenantId := by rwa [isTenant]
      simp [restrictThread, own, Option.filter_some, getExecution, validateScope, foreign, bind,
        Except.bind]

theorem restrictThread_own
    (own : ∀ checkpoint, thread = some checkpoint → checkpoint.values.tenantId = tenantId) :
    restrictThread tenantId thread = thread := by
  cases thread with
  | none => rfl
  | some checkpoint => simp [restrictThread, own checkpoint rfl, Option.filter_some]

variable (schemas services executionId) in
theorem start_restrict (isTenant : supplierCase.tenantId = tenantId)
    (own : ∀ checkpoint, thread = some checkpoint → checkpoint.values.tenantId = tenantId)
    (required : Bool) :
    let started := start schemas services thread supplierCase executionId required
    start schemas services (restrictThread tenantId thread) supplierCase executionId required =
      (restrictThread tenantId started.1, started.2) := by
  obtain ⟨moved, _⟩ := start_cases schemas services thread supplierCase executionId required
  have own' : ∀ checkpoint, (start schemas services thread supplierCase executionId required).1 =
      some checkpoint → checkpoint.values.tenantId = tenantId := by
    intro checkpoint' left
    cases moved with
    | inl same =>
      rw [same] at left
      exact own checkpoint' left
    | inr begun =>
      obtain ⟨_, checkpoint, isNew, inScope⟩ := begun
      cases left.symm.trans isNew
      exact inScope.tenantId.trans isTenant
  simp only [restrictThread_own own, restrictThread_own own']

variable (schemas services executionId thread) in
theorem resume_restrict (isTenant : supplierCase.tenantId = tenantId)
    (confirmation : EvidenceConfirmation) :
    let resumed := resume schemas services thread supplierCase executionId confirmation
    resume schemas services (restrictThread tenantId thread) supplierCase executionId confirmation =
      (restrictThread tenantId resumed.1, resumed.2) := by
  cases thread with
  | none => rfl
  | some checkpoint =>
    by_cases own : checkpoint.values.tenantId = tenantId
    · obtain ⟨moved, _⟩ := resume_cases schemas services (some checkpoint) supplierCase executionId
        confirmation
      have own' : ∀ checkpoint', (resume schemas services (some checkpoint) supplierCase executionId
          confirmation).1 = some checkpoint' → checkpoint'.values.tenantId = tenantId := by
        intro checkpoint' left
        rcases moved with same | ⟨_, _, _, _, isNew, inScope⟩
        · cases left.symm.trans same
          exact own
        · cases left.symm.trans isNew
          exact inScope.tenantId.trans isTenant
      have same : restrictThread tenantId (some checkpoint) = some checkpoint := by
        simp [restrictThread, own, Option.filter_some]
      simp only [same, restrictThread_own own']
    · have foreign : checkpoint.values.tenantId ≠ supplierCase.tenantId := by rwa [isTenant]
      have refused : getExecution (some checkpoint) supplierCase executionId = .error .notFound := by
        simp [getExecution, validateScope, foreign, bind, Except.bind]
      simp [restrictThread, own, Option.filter_some, resume, resumeRead, refused]

/-- The application after a request of the tenant has written a thread. -/
theorem setThread_restrict (thread : Thread) :
    (app.setThread executionId thread).restrict tenantId =
      (app.restrict tenantId).setThread executionId (restrictThread tenantId thread) := by
  simp only [Application.restrict, Application.setThread, Application.mk.injEq, true_and]
  funext id
  by_cases here : id = executionId
  · subst here
    simp
  · simp [here]

theorem setThread_others {thread' : Thread} {other : String} (differ : other ≠ tenantId)
    (own : ∀ checkpoint, app.threads executionId = some checkpoint → checkpoint.values.tenantId = tenantId)
    (own' : ∀ checkpoint, thread' = some checkpoint → checkpoint.values.tenantId = tenantId) :
    (app.setThread executionId thread').restrict other = app.restrict other := by
  have notOther : tenantId ≠ other := differ.symm
  simp only [Application.restrict, Application.setThread, Application.mk.injEq, true_and]
  funext id
  by_cases here : id = executionId
  · subst here
    have before : (app.threads id).filter (·.values.tenantId = other) = none := by
      cases found : app.threads id with
      | none => rfl
      | some checkpoint => simp [own checkpoint found, Option.filter_some, notOther]
    have after : thread'.filter (·.values.tenantId = other) = none := by
      cases found : thread' with
      | none => rfl
      | some checkpoint => simp [own' checkpoint found, Option.filter_some, notOther]
    simp [restrictThread, before, after]
  · simp [here]

/-! ## One await of a request -/

/-- A result for the case of the request, from an execution that is stored. -/
structure OwnReview (app : Application) (request : ApiRequest) (result : ReviewResult) : Prop where
  caseId : result.caseId = request.caseId
  thread : ∃ checkpoint, app.threads result.reviewId = some checkpoint ∧
    checkpoint.values.caseId = result.caseId

/-- A completed execution comes with a result for the case. -/
def OwnCompleted (app : Application) (request : ApiRequest) (execution : ReviewExecution) : Prop :=
  execution.status = .completed → ∃ result, execution.result = some result ∧ OwnReview app request result

/-- What the local variables of a request of the tenant say. -/
def Handler.Local (tenantId : String) (app : Application) (request : ApiRequest) : Handler → Prop
  | .authorizing | .done _ => True
  | .loading supplierCase | .markingInReview supplierCase | .recordingStarted supplierCase
  | .starting supplierCase | .resuming supplierCase _ =>
    owns app.repo tenantId request.caseId = true ∧ supplierCase.tenantId = tenantId ∧
      supplierCase.id = request.caseId
  | .recordingResumed _ _ execution =>
    owns app.repo tenantId request.caseId = true ∧ OwnCompleted app request execution
  | .findingReview _ result | .savingReview _ result | .markingPending _ result
  | .recordingCompleted _ result =>
    owns app.repo tenantId request.caseId = true ∧ OwnReview app request result
  | .markingFailed .. | .recordingFailed .. | .recordingAwaiting .. | .markingNew ..
  | .recordingCancelled .. => owns app.repo tenantId request.caseId = true

/-- The name from which a start derives its execution. -/
def ApiRequest.Named (names : Set String) (tenantId : String) : ApiRequest → Prop
  | .start caseId key .. => executionName tenantId caseId key ∈ names
  | .resume .. => True

/-- One await of a request of the tenant: in the restriction it is the same await, and it stays
    within the tenant's data. -/
structure Confined (names : Set String) (tenantId : String) (app app' : Application)
    (request : ApiRequest) (next : Handler) : Prop where
  others : ∀ other ≠ tenantId, app'.restrict other = app.restrict other
  kept : ∀ tenantId caseId, owns app'.repo tenantId caseId = owns app.repo tenantId caseId
  formed : Formed names app'
  local_ : next.Local tenantId app' request

variable {app' : Application} {next handler : Handler}

/-- An await that only reads. -/
theorem Confined.refl (formed : Formed names app) (isLocal : next.Local tenantId app request) :
    Confined names tenantId app app request next :=
  ⟨fun _ _ => rfl, fun _ _ => rfl, formed, isLocal⟩

theorem Handler.Local.of_kept {repo' : InMemoryCaseRepository}
    (kept : ∀ tenantId caseId, owns repo' tenantId caseId = owns app.repo tenantId caseId)
    (isLocal : next.Local tenantId app request) :
    next.Local tenantId { app with repo := repo' } request := by
  cases next with
  | authorizing | done => trivial
  | loading | markingInReview | recordingStarted | starting | resuming =>
    exact ⟨(kept _ _).trans isLocal.1, isLocal.2⟩
  | recordingResumed =>
    refine ⟨(kept _ _).trans isLocal.1, ?_⟩
    intro completed
    obtain ⟨result, got, own⟩ := isLocal.2 completed
    exact ⟨result, got, own.caseId, own.thread⟩
  | findingReview | savingReview | markingPending | recordingCompleted =>
    exact ⟨(kept _ _).trans isLocal.1, isLocal.2.caseId, isLocal.2.thread⟩
  | markingFailed | recordingFailed | recordingAwaiting | markingNew | recordingCancelled =>
    exact (kept _ _).trans isLocal

/-- Cases keep their identifiers. -/
theorem Formed.write (formed : Formed names app) {repo' : InMemoryCaseRepository}
    {write : InMemoryCaseRepository → Except CaseError InMemoryCaseRepository}
    (written : WritesCase tenantId app.repo repo' write)
    (reviewed : ∀ reviewId result, repo'.reviewsById reviewId = some result →
      ∃ checkpoint, app.threads reviewId = some checkpoint ∧ checkpoint.values.caseId = result.caseId) :
    Formed names { app with repo := repo' } := by
  refine ⟨?_, formed.named, reviewed⟩
  intro caseId supplierCase found
  obtain ⟨old, wasFound, sameId⟩ := written.ids caseId supplierCase found
  rw [sameId]
  exact formed.keyed caseId old wasFound

/-- A status or an audit event for a case of the tenant. -/
theorem write_confined (formed : Formed names app)
    {write : InMemoryCaseRepository → Except CaseError InMemoryCaseRepository}
    (writes : ∃ repo', WritesCase tenantId app.repo repo' write ∧
      repo'.reviewsById = app.repo.reviewsById)
    (isLocal : next.Local tenantId app request) :
    ∃ app', app.write (write app.repo) next = (app', next) ∧
      (app.restrict tenantId).write (write (app.restrict tenantId).repo) next =
        (app'.restrict tenantId, next) ∧ Confined names tenantId app app' request next := by
  obtain ⟨repo', written, sameReviews⟩ := writes
  refine ⟨{ app with repo := repo' }, ?_, ?_, ?_, written.kept, ?_, isLocal.of_kept written.kept⟩
  · simp [Application.write, written.made]
  · simp [Application.write, Application.restrict, written.restricted]
  · intro other differ
    simp [Application.restrict, written.others other differ]
  · apply formed.write written
    rw [sameReviews]
    exact formed.reviewed

variable (executionId) in
theorem ownCompleted_of_held (held : Held supplierCase executionId (app.threads executionId) execution)
    (isCase : supplierCase.id = request.caseId) : OwnCompleted app request execution := by
  intro completed
  obtain ⟨result, got, own⟩ := held.own completed
  obtain ⟨checkpoint, found, inScope⟩ := held.thread
  refine ⟨result, got, own.caseId.trans isCase, checkpoint, ?_, ?_⟩
  · rw [own.reviewId, found]
  · rw [own.caseId, inScope.caseId]

theorem completedBranch_local (owned : owns app.repo tenantId request.caseId = true)
    (own : OwnCompleted app request execution) (completed : execution.status = .completed) :
    (completedBranch execution).Local tenantId app request := by
  obtain ⟨result, got, review⟩ := own completed
  simp only [completedBranch, got]
  exact ⟨owned, review⟩

theorem startBranch_local (owned : owns app.repo tenantId request.caseId = true)
    (own : OwnCompleted app request execution) (executionId : UUID) (supplierCase : SupplierCase)
    (created : Bool) :
    (startBranch executionId supplierCase created execution).Local tenantId app request := by
  cases status : execution.status with
  | completed =>
    simp only [startBranch, status]
    exact completedBranch_local owned own status
  | cancelled | awaitingInput =>
    simp only [startBranch, status]
    split
    · exact owned
    · trivial
  | running =>
    simp only [startBranch, status]
    trivial

theorem resumeBranch_local (owned : owns app.repo tenantId request.caseId = true)
    (own : OwnCompleted app request execution) (executionId : UUID) (supplierCase : SupplierCase)
    (current : ReviewExecution) :
    (resumeBranch executionId supplierCase current execution).Local tenantId app request := by
  cases status : execution.status with
  | completed =>
    simp only [resumeBranch, status]
    exact completedBranch_local owned own status
  | cancelled =>
    simp only [resumeBranch, status]
    split
    · exact owned
    · trivial
  | running | awaitingInput =>
    simp only [resumeBranch, status]
    trivial

/-- The execution that a start finds is the tenant's own. -/
theorem own_of_start (formed : Formed names app) (injective : Set.InjOn (uuid5 NAMESPACE_URL) names)
    {caseId key : UUID} (named : executionName tenantId caseId key ∈ names)
    (isTenant : supplierCase.tenantId = tenantId) (isCase : supplierCase.id = caseId) :
    ∀ checkpoint, app.threads (executionIdFor supplierCase.tenantId supplierCase.id key) =
      some checkpoint → checkpoint.values.tenantId = tenantId := by
  subst isTenant isCase
  intro checkpoint found
  exact formed.own_thread injective named found

/-- A thread is written in the scope of a case of the tenant. -/
theorem Formed.setThread (formed : Formed names app) {checkpoint' : ReviewCheckpoint}
    (named : executionId.version = 4 ∨ ∃ key,
      executionName checkpoint'.values.tenantId checkpoint'.values.caseId key ∈ names ∧
      executionId = executionIdFor checkpoint'.values.tenantId checkpoint'.values.caseId key)
    (sameCase : ∀ checkpoint, app.threads executionId = some checkpoint →
      checkpoint'.values.caseId = checkpoint.values.caseId) :
    Formed names (app.setThread executionId (some checkpoint')) := by
  refine ⟨formed.keyed, ?_, ?_⟩
  · intro id checkpoint found
    by_cases here : id = executionId
    · subst here
      simp only [Application.setThread, Function.update_self, Option.some.injEq] at found
      rw [← found]
      exact named
    · simp only [Application.setThread, Function.update_of_ne here] at found
      exact formed.named id checkpoint found
  · intro reviewId result found
    obtain ⟨checkpoint, held, caseId⟩ := formed.reviewed reviewId result found
    by_cases here : reviewId = executionId
    · subst here
      refine ⟨checkpoint', ?_, ?_⟩
      · simp [Application.setThread]
      · rw [sameCase checkpoint held, caseId]
    · refine ⟨checkpoint, ?_, caseId⟩
      simp [Application.setThread, here, held]

/-- A thread is left as it is, or written in the scope of a case of the tenant. -/
theorem thread_confined (formed : Formed names app) (isTenant : supplierCase.tenantId = tenantId)
    {thread' : Thread}
    (moved : thread' = app.threads executionId ∨ ∃ checkpoint', thread' = some checkpoint' ∧
      InScope supplierCase executionId checkpoint'.values ∧
      (∀ checkpoint, app.threads executionId = some checkpoint →
        InScope supplierCase executionId checkpoint.values) ∧
      (app.threads executionId = none → ∃ key,
        executionName supplierCase.tenantId supplierCase.id key ∈ names ∧
        executionId = executionIdFor supplierCase.tenantId supplierCase.id key))
    (isLocal : next.Local tenantId (app.setThread executionId thread') request) :
    Confined names tenantId app (app.setThread executionId thread') request next := by
  rcases moved with unchanged | ⟨checkpoint', isNew, inScope', inScope, named⟩
  · rw [setThread_self unchanged.symm] at isLocal ⊢
    exact .refl formed isLocal
  · subst isNew
    refine ⟨?_, fun _ _ => rfl, ?_, isLocal⟩
    · intro other differ
      refine setThread_others differ ?_ ?_
      · intro checkpoint found
        exact (inScope checkpoint found).tenantId.trans isTenant
      · rintro _ ⟨⟩
        exact inScope'.tenantId.trans isTenant
    · apply formed.setThread
      · rw [inScope'.tenantId, inScope'.caseId]
        cases found : app.threads executionId with
        | none => exact .inr (named found)
        | some checkpoint =>
          have before := formed.named executionId checkpoint found
          rwa [(inScope checkpoint found).tenantId, (inScope checkpoint found).caseId] at before
      · intro checkpoint found
        rw [inScope'.caseId, (inScope checkpoint found).caseId]

theorem advance_starting (app : Application) (supplierCase : SupplierCase) (caseId key : UUID)
    (required : Bool) (principal : Principal) :
    (Handler.starting supplierCase).advance schemas services ambient app
      (.start caseId key required principal) =
    let executionId := executionIdFor supplierCase.tenantId supplierCase.id key
    let started := start schemas services (app.threads executionId) supplierCase executionId required
    some (app.setThread executionId started.1, afterStart executionId supplierCase started.2) := by
  simp only [Handler.advance, ApiRequest.executionId]
  generalize start schemas services _ supplierCase _ required = started
  obtain ⟨thread, answer⟩ := started
  cases answer <;> rfl

theorem starting_confined (formed : Formed names app)
    (injective : Set.InjOn (uuid5 NAMESPACE_URL) names) {caseId key : UUID} {required : Bool}
    {principal : Principal} (isStart : request = .start caseId key required principal)
    (named : executionName tenantId caseId key ∈ names)
    (isLocal : (Handler.starting supplierCase).Local tenantId app request) :
    ∃ app' next, (Handler.starting supplierCase).advance schemas services ambient app request =
        some (app', next) ∧
      (Handler.starting supplierCase).advance schemas services ambient (app.restrict tenantId) request =
        some (app'.restrict tenantId, next) ∧ Confined names tenantId app app' request next := by
  subst isStart
  obtain ⟨owned, isTenant, isCase⟩ := isLocal
  -- the identifier names the tenant, so no other tenant's execution has it
  have own := own_of_start formed injective named isTenant isCase
  simp only [advance_starting]
  generalize identified : executionIdFor supplierCase.tenantId supplierCase.id key = executionId at own
  obtain ⟨moved, held⟩ := start_cases schemas services (app.threads executionId) supplierCase
    executionId required
  have restricted := start_restrict executionId schemas services isTenant own required
  have sameThread : (app.restrict tenantId).threads executionId =
      restrictThread tenantId (app.threads executionId) := rfl
  rw [sameThread, restricted]
  generalize start schemas services (app.threads executionId) supplierCase executionId required = started
    at moved held
  obtain ⟨thread', answer⟩ := started
  refine ⟨app.setThread executionId thread', _, rfl, ?_, ?_⟩
  · rw [setThread_restrict]
  · apply thread_confined formed isTenant
    · rcases moved with unchanged | ⟨absent, checkpoint, isNew, inScope⟩
      · exact .inl unchanged
      · refine .inr ⟨checkpoint, isNew, inScope, ?_, ?_⟩
        · intro checkpoint found
          cases absent.symm.trans found
        · intro _
          refine ⟨key, ?_, identified.symm⟩
          rwa [isTenant, isCase]
    · have owned' : owns (app.setThread executionId thread').repo tenantId caseId = true := owned
      cases answer with
      | error e => exact owned'
      | ok execution =>
        refine startBranch_local owned' ?_ _ _ _
        refine ownCompleted_of_held executionId ?_ isCase
        simp only [Application.setThread, Function.update_self]
        exact held execution rfl

theorem resuming_confined (formed : Formed names app) {caseId : UUID} {current : ReviewExecution}
    {confirmation : EvidenceConfirmation} {principal : Principal}
    (isResume : request = .resume caseId executionId confirmation principal)
    (isLocal : (Handler.resuming supplierCase current).Local tenantId app request) :
    ∃ app' next, (Handler.resuming supplierCase current).advance schemas services ambient app request =
        some (app', next) ∧
      (Handler.resuming supplierCase current).advance schemas services ambient (app.restrict tenantId)
        request = some (app'.restrict tenantId, next) ∧ Confined names tenantId app app' request next := by
  subst isResume
  obtain ⟨owned, isTenant, isCase⟩ := isLocal
  obtain ⟨moved, held⟩ := resume_cases schemas services (app.threads executionId) supplierCase
    executionId confirmation
  have restricted := resume_restrict executionId (app.threads executionId) schemas services isTenant
    confirmation
  have sameThread : (app.restrict tenantId).threads executionId =
      restrictThread tenantId (app.threads executionId) := rfl
  simp only [Handler.advance]
  rw [sameThread, restricted]
  generalize resume schemas services (app.threads executionId) supplierCase executionId confirmation =
    resumed at moved held
  obtain ⟨thread', answer⟩ := resumed
  refine ⟨app.setThread executionId thread', _, rfl, ?_, ?_⟩
  · rw [setThread_restrict]
  · apply thread_confined formed isTenant
    · rcases moved with unchanged | ⟨checkpoint, checkpoint', found, inScope, isNew, inScope'⟩
      · exact .inl unchanged
      · refine .inr ⟨checkpoint', isNew, inScope', ?_, ?_⟩
        · intro other found'
          cases found.symm.trans found'
          exact inScope
        · intro absent
          cases absent.symm.trans found
    · have owned' : owns (app.setThread executionId thread').repo tenantId caseId = true := owned
      cases answer with
      | error e => trivial
      | ok execution =>
        have own : OwnCompleted (app.setThread executionId thread')
            (.resume caseId executionId confirmation principal) execution := by
          refine ownCompleted_of_held executionId ?_ isCase
          simp only [Application.setThread, Function.update_self]
          exact held execution rfl
        simp only [afterResume]
        split
        · exact ⟨owned', own⟩
        · exact resumeBranch_local owned' own _ _ _

/-- No other tenant has a review of the identifier. -/
theorem Formed.own_review (formed : Formed names app) {result : ReviewResult}
    (owned : owns app.repo tenantId result.caseId = true)
    (thread : ∃ checkpoint, app.threads result.reviewId = some checkpoint ∧
      checkpoint.values.caseId = result.caseId) :
    ∀ old, app.repo.reviewsById result.reviewId = some old →
      owns app.repo tenantId old.caseId = true := by
  intro old found
  obtain ⟨checkpoint, held, caseId⟩ := formed.reviewed _ old found
  obtain ⟨checkpoint', held', caseId'⟩ := thread
  cases held.symm.trans held'
  rw [← caseId, caseId']
  exact owned

/-- A review is saved under the identifier of an execution of its case. -/
theorem Formed.saveReview (formed : Formed names app) {result : ReviewResult}
    (owned : owns app.repo tenantId result.caseId = true)
    (thread : ∃ checkpoint, app.threads result.reviewId = some checkpoint ∧
      checkpoint.values.caseId = result.caseId) :
    Formed names { app with repo := app.repo.saveReview result } := by
  apply formed.write (saveReview_writes owned (formed.own_review owned thread))
  intro reviewId stored found
  cases before : app.repo.reviewsById result.reviewId with
  | some old =>
    simp only [InMemoryCaseRepository.saveReview, before] at found
    exact formed.reviewed reviewId stored found
  | none =>
    simp only [InMemoryCaseRepository.saveReview, before] at found
    by_cases here : reviewId = result.reviewId
    · subst here
      simp only [Function.update_self, Option.some.injEq] at found
      rw [← found]
      exact thread
    · simp only [Function.update_of_ne here] at found
      exact formed.reviewed reviewId stored found

/-- `get_review` finds the same in the restriction. -/
theorem getReview_restrict {result : ReviewResult}
    (free : ∀ old, app.repo.reviewsById result.reviewId = some old →
      owns app.repo tenantId old.caseId = true) :
    (app.restrict tenantId).repo.getReview result.reviewId = app.repo.getReview result.reviewId := by
  simp only [Application.restrict, InMemoryCaseRepository.getReview, restrictCases]
  cases found : app.repo.reviewsById result.reviewId with
  | none => rfl
  | some old => simp [free old found, Option.filter_some]

/-- `save_review`. -/
theorem saving_confined (formed : Formed names app) {result : ReviewResult}
    (owned : owns app.repo tenantId request.caseId = true) (own : OwnReview app request result)
    (isLocal : next.Local tenantId app request) :
    ({ app with repo := app.repo.saveReview result }).restrict tenantId =
        { app.restrict tenantId with repo := (app.restrict tenantId).repo.saveReview result } ∧
      Confined names tenantId app { app with repo := app.repo.saveReview result } request next := by
  have ownedCase : owns app.repo tenantId result.caseId = true := by rwa [own.caseId]
  have written := saveReview_writes ownedCase (formed.own_review ownedCase own.thread)
  refine ⟨?_, ?_, written.kept, formed.saveReview ownedCase own.thread, isLocal.of_kept written.kept⟩
  · have restricted := Except.ok.inj written.restricted
    simp only [Application.restrict, restricted]
  · intro other differ
    simp only [Application.restrict, written.others other differ]

/-- `set_status` on the case of the request. -/
theorem status_confined (formed : Formed names app) {caseId : UUID}
    (owned : owns app.repo tenantId caseId = true) (status : CaseStatus)
    (isLocal : next.Local tenantId app request) :
    ∃ app' next', some (app.write (app.repo.setStatus ambient caseId status) next) = some (app', next') ∧
      some ((app.restrict tenantId).write
          ((app.restrict tenantId).repo.setStatus ambient caseId status) next) =
        some (app'.restrict tenantId, next') ∧ Confined names tenantId app app' request next' := by
  obtain ⟨app', written, restricted, confined⟩ :=
    write_confined formed (setStatus_writes owned ambient status) isLocal
  exact ⟨app', next, congrArg some written, congrArg some restricted, confined⟩

/-- `append_audit_event` on the case of the request. -/
theorem event_confined (formed : Formed names app) {event : AuditEventCreate}
    (owned : owns app.repo tenantId event.caseId = true) (isLocal : next.Local tenantId app request) :
    ∃ app' next', some (app.write (app.repo.appendAuditEvent ambient event) next) = some (app', next') ∧
      some ((app.restrict tenantId).write
          ((app.restrict tenantId).repo.appendAuditEvent ambient event) next) =
        some (app'.restrict tenantId, next') ∧ Confined names tenantId app app' request next' := by
  obtain ⟨app', written, restricted, confined⟩ :=
    write_confined formed (appendAuditEvent_writes owned ambient) isLocal
  exact ⟨app', next, congrArg some written, congrArg some restricted, confined⟩

theorem loading_confined (formed : Formed names app)
    (isLocal : (Handler.loading supplierCase).Local tenantId app request) :
    ∃ next, (Handler.loading supplierCase).advance schemas services ambient app request =
        some (app, next) ∧
      (Handler.loading supplierCase).advance schemas services ambient (app.restrict tenantId) request =
        some (app.restrict tenantId, next) ∧ Confined names tenantId app app request next := by
  obtain ⟨owned, isTenant, isCase⟩ := isLocal
  have sameExecution : getExecution ((app.restrict tenantId).threads (request.executionId supplierCase))
      supplierCase (request.executionId supplierCase) =
      getExecution (app.threads (request.executionId supplierCase)) supplierCase
        (request.executionId supplierCase) :=
    getExecution_restrict isTenant _ _
  simp only [Handler.advance, sameExecution]
  cases got : getExecution (app.threads (request.executionId supplierCase)) supplierCase
      (request.executionId supplierCase) with
  | ok execution =>
    have own := ownCompleted_of_held _ (held_of_getExecution got) isCase
    cases request with
    | start => exact ⟨_, rfl, rfl, .refl formed (startBranch_local owned own _ _ _)⟩
    | resume => exact ⟨_, rfl, rfl, .refl formed ⟨owned, isTenant, isCase⟩⟩
  | error e =>
    cases request with
    | start =>
      cases e with
      | notFound => exact ⟨_, rfl, rfl, .refl formed ⟨owned, isTenant, isCase⟩⟩
      | _ => exact ⟨_, rfl, rfl, .refl formed trivial⟩
    | resume => exact ⟨_, rfl, rfl, .refl formed trivial⟩

variable (schemas services ambient) in
/-- One await of a request that has been let through to a case of the tenant. -/
theorem advance_confined (formed : Formed names app)
    (injective : Set.InjOn (uuid5 NAMESPACE_URL) names) (named : request.Named names tenantId)
    (suits : handler.Suits request) (unfinished : handler.rank ≠ 0) (admitted : handler.rank ≠ 9)
    (isLocal : handler.Local tenantId app request) :
    ∃ app' next, handler.advance schemas services ambient app request = some (app', next) ∧
      handler.advance schemas services ambient (app.restrict tenantId) request =
        some (app'.restrict tenantId, next) ∧ Confined names tenantId app app' request next := by
  cases handler with
  | authorizing => exact absurd rfl admitted
  | done answer => exact absurd rfl unfinished
  | loading supplierCase =>
    obtain ⟨next, loaded, restricted, confined⟩ := loading_confined formed isLocal
    exact ⟨app, next, loaded, restricted, confined⟩
  | markingInReview supplierCase => exact status_confined formed isLocal.1 .inReview isLocal
  | recordingStarted supplierCase =>
    cases request with
    | resume => cases suits
    | start => exact event_confined formed isLocal.1 isLocal
  | starting supplierCase =>
    cases request with
    | resume => cases suits
    | start => exact starting_confined formed injective rfl named isLocal
  | resuming supplierCase current =>
    cases request with
    | start => cases suits
    | resume => exact resuming_confined formed rfl isLocal
  | recordingResumed supplierCase current execution =>
    cases request with
    | start => cases suits
    | resume =>
      exact event_confined formed isLocal.1 (resumeBranch_local isLocal.1 isLocal.2 _ _ _)
  | findingReview execution result =>
    obtain ⟨owned, own⟩ := isLocal
    have ownedCase : owns app.repo tenantId result.caseId = true := by rwa [own.caseId]
    have same := getReview_restrict (formed.own_review ownedCase own.thread)
    simp only [Handler.advance, same]
    cases app.repo.getReview result.reviewId with
    | ok stored => exact ⟨app, _, rfl, rfl, .refl formed trivial⟩
    | error e => exact ⟨app, _, rfl, rfl, .refl formed ⟨owned, own⟩⟩
  | savingReview execution result =>
    obtain ⟨owned, own⟩ := isLocal
    have next : (Handler.markingPending execution result).Local tenantId app request := ⟨owned, own⟩
    obtain ⟨restricted, confined⟩ := saving_confined formed owned own next
    refine ⟨_, _, rfl, ?_, confined⟩
    rw [restricted]
    rfl
  | markingPending execution result =>
    refine status_confined formed ?_ .pendingApproval isLocal
    rw [isLocal.2.caseId]
    exact isLocal.1
  | recordingCompleted execution result =>
    refine event_confined formed ?_ trivial
    have sameCase : (reviewCompleted result).caseId = request.caseId := isLocal.2.caseId
    rw [sameCase]
    exact isLocal.1
  | markingFailed executionId e => exact status_confined formed isLocal .reviewFailed isLocal
  | markingNew executionId execution => exact status_confined formed isLocal .new isLocal
  | recordingFailed | recordingAwaiting | recordingCancelled =>
    exact event_confined formed isLocal trivial

variable (schemas) in
/-- All awaits of a request that has been let through. -/
theorem complete_confined (draws : Draws) (fuel : Nat) (formed : Formed names app)
    (injective : Set.InjOn (uuid5 NAMESPACE_URL) names) (named : request.Named names tenantId)
    (suits : handler.Suits request) (admitted : handler.rank < 9)
    (isLocal : handler.Local tenantId app request) :
    let completed := Handler.complete schemas draws request fuel app handler
    Handler.complete schemas draws request fuel (app.restrict tenantId) handler =
        (completed.1.restrict tenantId, completed.2) ∧
      (∀ other ≠ tenantId, completed.1.restrict other = app.restrict other) ∧
      (∀ tenantId caseId, owns completed.1.repo tenantId caseId = owns app.repo tenantId caseId) ∧
      Formed names completed.1 := by
  induction fuel generalizing app handler with
  | zero => exact ⟨rfl, fun _ _ => rfl, fun _ _ => rfl, formed⟩
  | succ fuel ih =>
    by_cases finished : handler.rank = 0
    · cases handler with
      | done answer => exact ⟨rfl, fun _ _ => rfl, fun _ _ => rfl, formed⟩
      | _ => cases finished
    · obtain ⟨app', next, moved, restricted, confined⟩ := advance_confined schemas draws.services
        (draws.ambient fuel) formed injective named suits finished (by omega) isLocal
      obtain ⟨_, _, moved', below⟩ := advance_below schemas draws app suits finished (draws.ambient fuel)
      cases moved.symm.trans moved'
      have less := below.rank
      obtain ⟨same, others, kept, formed'⟩ := ih confined.formed below.suits (by omega) confined.local_
      simp only [Handler.complete, moved, restricted]
      refine ⟨same, ?_, ?_, formed'⟩
      · intro other differ
        rw [others other differ, confined.others other differ]
      · intro tenantId caseId
        rw [kept, confined.kept]

/-! ## Authorization -/

variable {principal : Principal} {repo : InMemoryCaseRepository} {caseId : UUID}

/-- A case of another tenant is answered like an unknown one. -/
theorem getAuthorizedCase_restrict (notAdmin : .admin ∉ principal.roles) :
    getAuthorizedCase (restrictCases principal.tenantId repo) caseId principal =
      getAuthorizedCase repo caseId principal := by
  simp only [getAuthorizedCase, InMemoryCaseRepository.get, restrictCases]
  cases found : repo.cases caseId with
  | none => rfl
  | some supplierCase =>
    by_cases own : supplierCase.tenantId = principal.tenantId
    · simp [own, Option.filter_some]
    · simp [own, Option.filter_some, notAdmin]

theorem getAuthorizedCase_ok (notAdmin : .admin ∉ principal.roles)
    (ok : getAuthorizedCase repo caseId principal = .ok supplierCase) :
    repo.cases caseId = some supplierCase ∧ supplierCase.tenantId = principal.tenantId := by
  simp only [getAuthorizedCase, InMemoryCaseRepository.get] at ok
  cases found : repo.cases caseId with
  | none => simp [found] at ok
  | some held =>
    by_cases own : held.tenantId = principal.tenantId
    · simp only [found, own, ne_eq, not_true_eq_false, and_false, if_false, Except.ok.injEq] at ok
      exact ⟨congrArg some ok, ok ▸ own⟩
    · simp [found, own, notAdmin] at ok

theorem authorize_eq (repo : InMemoryCaseRepository) (caseId : UUID) (principal : Principal) :
    authorize repo caseId principal = (getAuthorizedCase repo caseId principal).bind fun supplierCase =>
      if !principal.hasRole .analyst then .error (.forbidden "The analyst role is required")
      else .ok supplierCase := by
  simp only [authorize, getAuthorizedCase]
  cases repo.get caseId with
  | error e => rfl
  | ok supplierCase =>
    simp only
    split <;> rfl

/-- The first await decides whether there are others. -/
theorem complete_authorizing (draws : Draws) (fuel : Nat) :
    Handler.complete schemas draws request (fuel + 1) app .authorizing =
      match authorize app.repo request.caseId request.principal with
      | .error e => (app, .done (.error e))
      | .ok supplierCase => Handler.complete schemas draws request fuel app (.loading supplierCase) := by
  simp only [Handler.complete, Handler.advance]
  cases authorize app.repo request.caseId request.principal with
  | error e => cases fuel <;> rfl
  | ok supplierCase => rfl

theorem authorize_restrict (notAdmin : .admin ∉ principal.roles) :
    authorize (restrictCases principal.tenantId repo) caseId principal =
      authorize repo caseId principal := by
  rw [authorize_eq, authorize_eq, getAuthorizedCase_restrict notAdmin]

theorem authorize_ok (ok : authorize repo caseId principal = .ok supplierCase) :
    getAuthorizedCase repo caseId principal = .ok supplierCase := by
  rw [authorize_eq] at ok
  cases got : getAuthorizedCase repo caseId principal with
  | error e => simp [got, Except.bind] at ok
  | ok held =>
    simp only [got, Except.bind] at ok
    split at ok
    · cases ok
    · exact ok

variable (schemas) in
/-- A whole request of a principal who is not an administrator. -/
theorem request_confined (draws : Draws) (fuel : Nat) (formed : Formed names app)
    (injective : Set.InjOn (uuid5 NAMESPACE_URL) names) (notAdmin : .admin ∉ request.principal.roles)
    (named : request.Named names request.principal.tenantId) :
    let tenantId := request.principal.tenantId
    let completed := Handler.complete schemas draws request (fuel + 1) app .authorizing
    Handler.complete schemas draws request (fuel + 1) (app.restrict tenantId) .authorizing =
        (completed.1.restrict tenantId, completed.2) ∧
      ∀ other ≠ tenantId, completed.1.restrict other = app.restrict other := by
  have restricted : authorize (app.restrict request.principal.tenantId).repo request.caseId
      request.principal = authorize app.repo request.caseId request.principal :=
    authorize_restrict notAdmin
  simp only [complete_authorizing, restricted]
  cases ok : authorize app.repo request.caseId request.principal with
  | error e => exact ⟨rfl, fun _ _ => rfl⟩
  | ok supplierCase =>
    obtain ⟨found, isTenant⟩ := getAuthorizedCase_ok notAdmin (authorize_ok ok)
    have isLocal : (Handler.loading supplierCase).Local request.principal.tenantId app request :=
      ⟨owns_iff.mpr ⟨supplierCase, found, isTenant⟩, isTenant, formed.keyed _ _ found⟩
    have suits : (Handler.loading supplierCase).Suits request := by cases request <;> trivial
    obtain ⟨same, others, _⟩ := complete_confined schemas draws fuel formed injective named suits
      (by simp [Handler.rank]) isLocal
    exact ⟨same, others⟩

variable (schemas) in
/-- `start_review_execution` and `resume_review_execution` go through the application as through
    the part of the tenant. -/
theorem process_confined {s : ApiState} (draws : Draws) (formed : Formed names s.app)
    (injective : Set.InjOn (uuid5 NAMESPACE_URL) names) (notAdmin : .admin ∉ request.principal.roles)
    (named : request.Named names request.principal.tenantId) :
    let tenantId := request.principal.tenantId
    let processed := process schemas draws s request
    process schemas draws (s.restrict tenantId) request =
        (processed.1.restrict tenantId, processed.2) ∧
      ∀ other ≠ tenantId, processed.1.restrict other = s.restrict other := by
  obtain ⟨same, others⟩ := request_confined schemas draws 9 formed injective notAdmin named
  have restricted : (s.restrict request.principal.tenantId).app =
      s.app.restrict request.principal.tenantId := rfl
  simp only [process, awaits, restricted, same]
  refine ⟨rfl, ?_⟩
  intro other differ
  have unchanged := others other differ
  simp only [Application.restrict, Application.mk.injEq] at unchanged
  simp only [ApiState.restrict, ApiState.mk.injEq, true_and]
  exact unchanged

end

end SupplierAssurance.Api
