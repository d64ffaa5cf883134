import SupplierAssurance.Api.Server

/-! # The audit history accounts for the records

The audit history of a case is all that its readers see.  Between two requests it tells the whole
story: the status of the case is what its last event of a status says, the stored reviews are
those of its `review.completed` events, every execution in the checkpointer has its
`review.started`, and those that are completed are the ones whose review is stored.

`Accounted` is this, and the module has what the writes of a request make of it.
-/

namespace SupplierAssurance

open Python

namespace InMemoryCaseRepository

/-- `self._cases[case_id] = updated`. -/
def put (repo : InMemoryCaseRepository) (caseId : UUID) (updated : SupplierCase) :
    InMemoryCaseRepository :=
  { repo with cases := Function.update repo.cases caseId (some updated) }

/-- `append_audit_event` on a stored case. -/
def logged (repo : InMemoryCaseRepository) (ambient : Ambient) (event : AuditEventCreate) :
    InMemoryCaseRepository :=
  let stored : AuditEvent := { event with id := ambient.uuid, createdAt := ambient.now }
  { repo with
    events := Function.update repo.events event.caseId (repo.events event.caseId ++ [stored]) }

variable {repo : InMemoryCaseRepository} {caseId : UUID} {current : SupplierCase}

theorem put_self (found : repo.cases caseId = some current) : repo.put caseId current = repo := by
  rw [put, ← found, Function.update_eq_self]

theorem setStatus_found (found : repo.cases caseId = some current) (ambient : Ambient)
    (status : CaseStatus) : repo.setStatus ambient caseId status =
      .ok (repo.put caseId { current with status, updatedAt := ambient.now }) := by
  simp [setStatus, get, found, put, bind, Except.bind, pure, Except.pure]

theorem appendAuditEvent_found {event : AuditEventCreate}
    (found : repo.cases event.caseId = some current) (ambient : Ambient) :
    repo.appendAuditEvent ambient event = .ok (repo.logged ambient event) := by
  simp [appendAuditEvent, get, found, logged, bind, Except.bind, pure, Except.pure]

end InMemoryCaseRepository

end SupplierAssurance

namespace SupplierAssurance.Api

open Python Lib Graphs Governance Retrieval

/-! ## What events tell -/

/-- The status that an event leaves its case in; `none` for events that leave it as it was. -/
def eventStatus : String → Option CaseStatus
  | "case.created" | "review.cancelled" => some .new
  | "review.started" => some .inReview
  | "review.completed" => some .pendingApproval
  | "review.failed" => some .reviewFailed
  | _ => none

def statusTold (events : List AuditEvent) : Option CaseStatus :=
  (events.filterMap fun event => eventStatus event.eventType).getLast?

/-- What the events were written with. -/
def told (events : List AuditEvent) : List AuditEventCreate :=
  events.map AuditEvent.toAuditEventCreate

def isCompletion (event : AuditEventCreate) : Bool :=
  event.eventType = "review.completed"

/-- The `review.started` of an execution: `review_case` does not tell its identifier. -/
def Starts (caseId executionId : UUID) (event : AuditEventCreate) : Prop :=
  (∃ initiatedBy required, event = reviewStarted caseId executionId initiatedBy required) ∨
    ∃ initiatedBy, event = reviewCaseStarted caseId initiatedBy

/-- The result of the execution that a checkpoint shows. -/
def checkpointResult (checkpoint : ReviewCheckpoint) : Option ReviewResult :=
  match executionFromSnapshot checkpoint with
  | .ok execution => execution.result
  | .error _ => none

/-- The result is that of the execution and of its case. -/
theorem checkpointResult_ids {checkpoint : ReviewCheckpoint} {result : ReviewResult}
    (finished : checkpointResult checkpoint = some result) :
    result.reviewId = checkpoint.values.executionId ∧ result.caseId = checkpoint.values.caseId := by
  unfold checkpointResult at finished
  split at finished
  next execution read =>
    obtain ⟨result', got, reviewId, caseId⟩ := completed_result read (completed_of_result read finished)
    cases finished.symm.trans got
    exact ⟨reviewId, caseId⟩
  next => cases finished

section

variable {events : List AuditEvent} {event : AuditEvent}

theorem statusTold_concat : statusTold (events ++ [event]) =
    (eventStatus event.eventType).or (statusTold events) := by
  cases sets : eventStatus event.eventType <;> simp [statusTold, sets]

theorem Starts.eventType {caseId executionId : UUID} {event : AuditEventCreate}
    (starts : Starts caseId executionId event) : event.eventType = "review.started" := by
  cases starts with
  | inl durable =>
    obtain ⟨_, _, rfl⟩ := durable
    rfl
  | inr direct =>
    obtain ⟨_, rfl⟩ := direct
    rfl

end

/-! ## The records -/

/-- The cases and their histories. -/
structure CasesTold (repo : InMemoryCaseRepository) : Prop where
  keyed : ∀ caseId supplierCase, repo.cases caseId = some supplierCase → supplierCase.id = caseId
  status : ∀ caseId, statusTold (repo.events caseId) = (repo.cases caseId).map (·.status)
  opened : ∀ caseId supplierCase, repo.cases caseId = some supplierCase →
    ∃ actorId rest, told (repo.events caseId) = caseCreated supplierCase actorId :: rest ∧
      ∀ event ∈ rest, event.eventType ≠ "case.created"
  unopened : ∀ caseId, repo.cases caseId = none → repo.events caseId = []

/-- What is told of an execution in the checkpointer. -/
structure ThreadTold (repo : InMemoryCaseRepository) (executionId : UUID)
    (checkpoint : ReviewCheckpoint) : Prop where
  sameId : checkpoint.values.executionId = executionId
  found : ∃ supplierCase, repo.cases checkpoint.values.caseId = some supplierCase ∧
    supplierCase.tenantId = checkpoint.values.tenantId
  started : ∃ event ∈ told (repo.events checkpoint.values.caseId),
    Starts checkpoint.values.caseId executionId event
  resting : Settled checkpoint ∨ Stuck checkpoint

/-- What is told of a stored review. -/
structure ReviewTold (app : Application) (reviewId : UUID) (result : ReviewResult) : Prop where
  thread : ∃ checkpoint, app.threads reviewId = some checkpoint ∧
    checkpointResult checkpoint = some result
  story : ∃ started, Starts result.caseId reviewId started ∧
    [started, reviewCompleted result].Sublist (told (app.repo.events result.caseId))

/-- The records and the audit history agree, except that the review of the execution `owed` may
    not be stored yet. -/
structure Accounted (owed : Option UUID) (app : Application) : Prop where
  cases : CasesTold app.repo
  completions : ∀ caseId, (told (app.repo.events caseId)).filter isCompletion =
    (app.repo.reviews caseId).map reviewCompleted
  filed : ∀ caseId result, result ∈ app.repo.reviews caseId ↔
    result.caseId = caseId ∧ app.repo.reviewsById result.reviewId = some result
  threads : ∀ executionId checkpoint, app.threads executionId = some checkpoint →
    ThreadTold app.repo executionId checkpoint
  recorded : ∀ reviewId result, app.repo.reviewsById reviewId = some result →
    ReviewTold app reviewId result
  finished : ∀ executionId checkpoint result, app.threads executionId = some checkpoint →
    checkpointResult checkpoint = some result → owed ≠ some executionId →
    app.repo.reviewsById executionId = some result

/-! ## What requests leave of the records

Cases change in their status only, reviews stay, and the history is appended to. -/

structure Extends (repo repo' : InMemoryCaseRepository) : Prop where
  cases : ∀ caseId supplierCase, repo.cases caseId = some supplierCase →
    ∃ status updatedAt, repo'.cases caseId = some { supplierCase with status, updatedAt }
  reviews : ∀ reviewId result, repo.reviewsById reviewId = some result →
    repo'.reviewsById reviewId = some result
  events : ∀ caseId, repo.events caseId <+: repo'.events caseId

section

variable {repo repo' repo'' : InMemoryCaseRepository} {caseId : UUID} {current : SupplierCase}

theorem Extends.refl (repo : InMemoryCaseRepository) : Extends repo repo :=
  ⟨fun _ supplierCase found => ⟨supplierCase.status, supplierCase.updatedAt, found⟩,
    fun _ _ stored => stored, fun _ => List.prefix_rfl⟩

theorem Extends.trans (first : Extends repo repo') (second : Extends repo' repo'') :
    Extends repo repo'' := by
  refine ⟨?_, fun _ _ stored => second.reviews _ _ (first.reviews _ _ stored),
    fun caseId => (first.events caseId).trans (second.events caseId)⟩
  intro caseId supplierCase found
  obtain ⟨_, _, found'⟩ := first.cases caseId supplierCase found
  obtain ⟨status, updatedAt, found''⟩ := second.cases caseId _ found'
  exact ⟨status, updatedAt, found''⟩

theorem Extends.told (extends_ : Extends repo repo') (caseId : UUID) :
    Api.told (repo.events caseId) <+: Api.told (repo'.events caseId) :=
  (extends_.events caseId).map _

/-- A case keeps its tenant. -/
theorem Extends.found (extends_ : Extends repo repo') {tenantId : String}
    (found : ∃ supplierCase, repo.cases caseId = some supplierCase ∧ supplierCase.tenantId = tenantId) :
    ∃ supplierCase, repo'.cases caseId = some supplierCase ∧ supplierCase.tenantId = tenantId := by
  obtain ⟨supplierCase, found, isTenant⟩ := found
  obtain ⟨_, _, found'⟩ := extends_.cases caseId supplierCase found
  exact ⟨_, found', isTenant⟩

theorem extends_put (found : repo.cases caseId = some current) (status : CaseStatus)
    (updatedAt : Datetime) : Extends repo (repo.put caseId { current with status, updatedAt }) := by
  refine ⟨?_, fun _ _ stored => stored, fun _ => List.prefix_rfl⟩
  intro other supplierCase isOther
  by_cases here : other = caseId
  · subst here
    cases found.symm.trans isOther
    exact ⟨status, updatedAt, by simp [InMemoryCaseRepository.put]⟩
  · exact ⟨_, _, by simpa [InMemoryCaseRepository.put, here] using isOther⟩

theorem extends_logged (repo : InMemoryCaseRepository) (ambient : Ambient) (event : AuditEventCreate) :
    Extends repo (repo.logged ambient event) := by
  refine ⟨(Extends.refl repo).cases, fun _ _ stored => stored, ?_⟩
  intro caseId
  by_cases here : caseId = event.caseId
  · subst here
    simp [InMemoryCaseRepository.logged]
  · simp [InMemoryCaseRepository.logged, here]

theorem extends_saveReview (repo : InMemoryCaseRepository) (result : ReviewResult) :
    Extends repo (repo.saveReview result) := by
  unfold InMemoryCaseRepository.saveReview
  split
  · exact .refl repo
  next absent =>
    refine ⟨(Extends.refl repo).cases, ?_, fun _ => List.prefix_rfl⟩
    intro reviewId stored found
    have other : reviewId ≠ result.reviewId := by
      intro same
      rw [same, absent] at found
      cases found
    simpa [other] using found

theorem ThreadTold.extends {executionId : UUID} {checkpoint : ReviewCheckpoint}
    (thread : ThreadTold repo executionId checkpoint) (extends_ : Extends repo repo') :
    ThreadTold repo' executionId checkpoint := by
  obtain ⟨event, member, starts⟩ := thread.started
  exact ⟨thread.sameId, extends_.found thread.found,
    ⟨event, (extends_.told _).subset member, starts⟩, thread.resting⟩

theorem ReviewTold.extends {threads : UUID → Thread} {reviewId : UUID} {result : ReviewResult}
    (review : ReviewTold ⟨repo, threads⟩ reviewId result) (extends_ : Extends repo repo') :
    ReviewTold ⟨repo', threads⟩ reviewId result := by
  obtain ⟨started, starts, story⟩ := review.story
  exact ⟨review.thread, started, starts, story.trans (extends_.told _).sublist⟩

end

/-! ## One event more -/

section

variable {repo : InMemoryCaseRepository} {threads : UUID → Thread} {owed : Option UUID}
variable {event : AuditEventCreate} {current : SupplierCase} {ambient : Ambient}

theorem told_logged (caseId : UUID) : told ((repo.logged ambient event).events caseId) =
    told (repo.events caseId) ++ if caseId = event.caseId then [event] else [] := by
  by_cases here : caseId = event.caseId
  · subst here
    simp [InMemoryCaseRepository.logged, told]
  · simp [InMemoryCaseRepository.logged, here]

/-- A case is in the status that the event says, or in the one it was in. -/
theorem CasesTold.enters (cases_ : CasesTold repo) (found : repo.cases event.caseId = some current)
    (notCreated : event.eventType ≠ "case.created") {status : CaseStatus}
    (stated : status = (eventStatus event.eventType).getD current.status) (updatedAt : Datetime) :
    CasesTold ((repo.put event.caseId { current with status, updatedAt }).logged ambient event) := by
  have elsewhere {caseId : UUID} (other : caseId ≠ event.caseId) :
      ((repo.put event.caseId { current with status, updatedAt }).logged ambient event).cases caseId =
        repo.cases caseId ∧
      ((repo.put event.caseId { current with status, updatedAt }).logged ambient event).events caseId =
        repo.events caseId := by
    simp [InMemoryCaseRepository.put, InMemoryCaseRepository.logged, other]
  have here : ((repo.put event.caseId { current with status, updatedAt }).logged ambient event).cases
      event.caseId = some { current with status, updatedAt } := by
    simp [InMemoryCaseRepository.put, InMemoryCaseRepository.logged]
  refine ⟨?_, ?_, ?_, ?_⟩
  · intro caseId supplierCase isCase
    by_cases same : caseId = event.caseId
    · subst same
      cases here.symm.trans isCase
      exact cases_.keyed _ current found
    · exact cases_.keyed caseId supplierCase ((elsewhere same).1.symm.trans isCase)
  · intro caseId
    by_cases same : caseId = event.caseId
    · subst same
      have before := cases_.status event.caseId
      rw [found] at before
      rw [here, stated]
      simp only [InMemoryCaseRepository.put, InMemoryCaseRepository.logged, Function.update_self,
        statusTold_concat, before]
      cases eventStatus event.eventType <;> rfl
    · rw [(elsewhere same).1, (elsewhere same).2, cases_.status]
  · intro caseId supplierCase isCase
    by_cases same : caseId = event.caseId
    · subst same
      cases here.symm.trans isCase
      obtain ⟨actorId, rest, opened, later⟩ := cases_.opened _ current found
      have opened' : told (repo.events event.caseId) =
        caseCreated { current with status, updatedAt } actorId :: rest := opened
      refine ⟨actorId, rest ++ [event], ?_, ?_⟩
      · rw [told_logged, if_pos rfl]
        simp [InMemoryCaseRepository.put, opened']
      · intro event' member
        simp only [List.mem_append, List.mem_singleton] at member
        cases member with
        | inl old => exact later event' old
        | inr new => exact new ▸ notCreated
    · rw [(elsewhere same).2]
      exact cases_.opened caseId supplierCase ((elsewhere same).1.symm.trans isCase)
  · intro caseId absent
    by_cases same : caseId = event.caseId
    · subst same
      cases here.symm.trans absent
    · rw [(elsewhere same).2]
      exact cases_.unopened caseId ((elsewhere same).1.symm.trans absent)

/-- An event that completes no review, with the status that it says. -/
theorem Accounted.enters (accounted : Accounted owed ⟨repo, threads⟩)
    (found : repo.cases event.caseId = some current) (notCreated : event.eventType ≠ "case.created")
    (notCompletion : isCompletion event = false) {status : CaseStatus}
    (stated : status = (eventStatus event.eventType).getD current.status) (updatedAt : Datetime)
    (ambient : Ambient) : Accounted owed
      ⟨(repo.put event.caseId { current with status, updatedAt }).logged ambient event, threads⟩ := by
  have extends_ : Extends repo
      ((repo.put event.caseId { current with status, updatedAt }).logged ambient event) :=
    (extends_put found status updatedAt).trans (extends_logged _ _ _)
  refine ⟨accounted.cases.enters found notCreated stated updatedAt, ?_, accounted.filed,
    fun executionId checkpoint stored => (accounted.threads executionId checkpoint stored).extends extends_,
    fun reviewId result stored => (accounted.recorded reviewId result stored).extends extends_,
    accounted.finished⟩
  intro caseId
  have before := accounted.completions caseId
  have ignored : ((if caseId = event.caseId then [event] else []).filter isCompletion) = [] := by
    by_cases here : caseId = event.caseId <;> simp [here, notCompletion]
  rw [told_logged, List.filter_append, ignored, List.append_nil]
  exact before

/-- An event that says no status. -/
theorem Accounted.logs (accounted : Accounted owed ⟨repo, threads⟩)
    (found : repo.cases event.caseId = some current) (silent : eventStatus event.eventType = none) :
    Accounted owed ⟨repo.logged ambient event, threads⟩ := by
  have differs {eventType : String} (speaks : eventStatus eventType ≠ none) :
      event.eventType ≠ eventType := by
    intro same
    exact speaks (same ▸ silent)
  have same : current.status = (eventStatus event.eventType).getD current.status := by
    rw [silent]
    rfl
  have notCompletion : isCompletion event = false := by
    simpa [isCompletion] using differs (by simp [eventStatus])
  have entered := accounted.enters found (differs (by simp [eventStatus])) notCompletion same
    current.updatedAt ambient
  rwa [InMemoryCaseRepository.put_self found] at entered

/-! ## A completed review -/

variable {result : ReviewResult}

/-- `save_review` of a review that is not stored. -/
theorem saveReview_new (isNew : repo.reviewsById result.reviewId = none) : repo.saveReview result =
    { repo with
      reviews := Function.update repo.reviews result.caseId (repo.reviews result.caseId ++ [result])
      reviewsById := Function.update repo.reviewsById result.reviewId (some result) } := by
  simp only [InMemoryCaseRepository.saveReview, isNew]

/-- The review that is owed. -/
structure Owes (app : Application) (caseId : UUID) (result : ReviewResult) : Prop where
  accounted : Accounted (some result.reviewId) app
  thread : ∃ checkpoint, app.threads result.reviewId = some checkpoint ∧
    checkpointResult checkpoint = some result
  caseId : result.caseId = caseId

/-- The three writes of `persist_completed_review`. -/
theorem Owes.completes {caseId : UUID} (owes : Owes ⟨repo, threads⟩ caseId result)
    (isNew : repo.reviewsById result.reviewId = none)
    (found : repo.cases result.caseId = some current) (updatedAt : Datetime) (ambient : Ambient) :
    Accounted none ⟨((repo.saveReview result).put result.caseId
      { current with status := .pendingApproval, updatedAt }).logged ambient (reviewCompleted result),
      threads⟩ := by
  have saved := saveReview_new isNew
  have accounted := owes.accounted
  obtain ⟨checkpoint, stored, finished⟩ := owes.thread
  have thread := accounted.threads _ checkpoint stored
  have caseTold : CasesTold (repo.saveReview result) := by
    rw [saved]
    exact ⟨accounted.cases.keyed, accounted.cases.status, accounted.cases.opened, accounted.cases.unopened⟩
  have found' : (repo.saveReview result).cases (reviewCompleted result).caseId = some current := by
    rw [saved]
    exact found
  have extends_ : Extends repo (((repo.saveReview result).put result.caseId
      { current with status := .pendingApproval, updatedAt }).logged ambient (reviewCompleted result)) :=
    ((extends_saveReview repo result).trans (extends_put found' _ _)).trans (extends_logged _ _ _)
  refine ⟨caseTold.enters found' (by simp [reviewCompleted]) rfl updatedAt, ?_, ?_, ?_, ?_, ?_⟩
  · intro caseId
    have before := accounted.completions caseId
    rw [told_logged, List.filter_append]
    by_cases here : caseId = result.caseId
    · subst here
      simpa [InMemoryCaseRepository.put, InMemoryCaseRepository.logged, saved, reviewCompleted,
        isCompletion] using before
    · have elsewhere : caseId ≠ (reviewCompleted result).caseId := here
      simpa [InMemoryCaseRepository.put, InMemoryCaseRepository.logged, saved, here, elsewhere]
        using before
  · intro caseId result'
    have before := accounted.filed caseId result'
    simp only [InMemoryCaseRepository.put, InMemoryCaseRepository.logged, saved]
    by_cases same : result' = result
    · subst same
      by_cases here : caseId = result'.caseId
      · simp [here]
      · have elsewhere : result'.caseId ≠ caseId := fun there => here there.symm
        simpa [here, elsewhere, isNew] using before
    · have member : result' ∈ Function.update repo.reviews result.caseId
          (repo.reviews result.caseId ++ [result]) caseId ↔ result' ∈ repo.reviews caseId := by
        by_cases here : caseId = result.caseId <;> simp [here, same]
      rw [member, before]
      by_cases sameId : result'.reviewId = result.reviewId
      · have other : result ≠ result' := fun equal => same equal.symm
        simp [sameId, isNew, other]
      · simp [sameId]
  · intro executionId checkpoint' stored'
    exact (accounted.threads executionId checkpoint' stored').extends extends_
  · intro reviewId result' stored'
    by_cases here : reviewId = result.reviewId
    · subst here
      have same : result = result' := by
        simpa [InMemoryCaseRepository.put, InMemoryCaseRepository.logged, saved] using stored'
      subst same
      obtain ⟨started, member, starts⟩ := thread.started
      rw [← (checkpointResult_ids finished).2] at member starts
      have kept : told (((repo.saveReview result).put result.caseId
          { current with status := .pendingApproval, updatedAt }).events result.caseId) =
          told (repo.events result.caseId) := by
        rw [saved]
        rfl
      have sameCase : result.caseId = (reviewCompleted result).caseId := rfl
      refine ⟨⟨checkpoint, stored, finished⟩, started, starts, ?_⟩
      rw [told_logged, if_pos sameCase, kept, ← List.singleton_append]
      exact (List.singleton_sublist.mpr member).append (List.Sublist.refl _)
    · have old : repo.reviewsById reviewId = some result' := by
        simpa [InMemoryCaseRepository.put, InMemoryCaseRepository.logged, saved, here] using stored'
      exact (accounted.recorded reviewId result' old).extends extends_
  · intro executionId checkpoint' result' stored' finished' _
    simp only [InMemoryCaseRepository.put, InMemoryCaseRepository.logged, saved]
    by_cases here : executionId = result.reviewId
    · subst here
      cases stored.symm.trans stored'
      rw [Function.update_self, ← finished, finished']
    · rw [Function.update_of_ne here]
      exact accounted.finished executionId checkpoint' result' stored' finished' (by simpa using Ne.symm here)

/-! ## A new checkpoint -/

theorem Accounted.owing (accounted : Accounted none ⟨repo, threads⟩) (owed : Option UUID) :
    Accounted owed ⟨repo, threads⟩ :=
  { accounted with
    finished := fun executionId checkpoint result stored finished _ =>
      accounted.finished executionId checkpoint result stored finished (by simp) }

/-- Nothing is owed for an execution without a result, or with a stored one. -/
theorem Accounted.paid {executionId : UUID} (accounted : Accounted (some executionId) ⟨repo, threads⟩)
    (paid : ∀ checkpoint result, threads executionId = some checkpoint →
      checkpointResult checkpoint = some result → repo.reviewsById executionId = some result) :
    Accounted none ⟨repo, threads⟩ := by
  refine { accounted with finished := ?_ }
  intro other checkpoint result stored finished _
  by_cases here : other = executionId
  · subst here
    exact paid checkpoint result stored finished
  · exact accounted.finished other checkpoint result stored finished (by simpa using Ne.symm here)

/-- A thread without a result moves on; it may have a result now. -/
theorem Accounted.moves {executionId : UUID} {checkpoint : ReviewCheckpoint}
    (accounted : Accounted none ⟨repo, threads⟩) (thread : ThreadTold repo executionId checkpoint)
    (unfinished : ∀ before, threads executionId = some before → checkpointResult before = none) :
    Accounted (some executionId) ⟨repo, Function.update threads executionId (some checkpoint)⟩ := by
  refine ⟨accounted.cases, accounted.completions, accounted.filed, ?_, ?_, ?_⟩
  · intro other stored isStored
    by_cases here : other = executionId
    · subst here
      simp only [Function.update_self, Option.some.injEq] at isStored
      exact isStored ▸ thread
    · simp only [Function.update_of_ne here] at isStored
      exact accounted.threads other stored isStored
  · intro reviewId result stored
    have review := accounted.recorded reviewId result stored
    refine ⟨?_, review.story⟩
    obtain ⟨before, isStored, finished⟩ := review.thread
    by_cases here : reviewId = executionId
    · subst here
      rw [unfinished before isStored] at finished
      cases finished
    · exact ⟨before, by simpa [here] using isStored, finished⟩
  · intro other stored result isStored finished notOwed
    have here : other ≠ executionId := fun same => notOwed (same ▸ rfl)
    simp only [Function.update_of_ne here] at isStored
    exact accounted.finished other stored result isStored finished (by simp)

end

end SupplierAssurance.Api
