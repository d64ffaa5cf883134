import SupplierAssurance.Api.Observations

/-! # The states that requests lead to

`create_case` and `review_case` beside the endpoints of `Endpoints`, and runs of all of them
by any principals, administrators included.  Every state of such a run is `Formed`, which is
what `Noninterference` takes of the two states it compares.

What a run needs from outside is that `uuid4` returns new identifiers and that `uuid5` tells
the names of the executions apart.
-/

namespace SupplierAssurance.Api

open Python Lib Graphs Governance

/-! ## `create_case` and `review_case` -/

structure SupplierCaseCreate where
  supplierName : String
  description : String
  documents : List DocumentInput

/-- The next await of a request that only writes; an exception of the repository ends it. -/
def ApiState.write {α : Type} (s : ApiState) (written : Except CaseError InMemoryCaseRepository)
    (next : ApiState → ApiState × Except ApiError α) : ApiState × Except ApiError α :=
  match written with
  | .error e => (s, .error (.unhandled e.errorType))
  | .ok cases => next { s with cases }

def caseCreated (supplierCase : SupplierCase) (actorId : String) : AuditEventCreate where
  caseId := supplierCase.id
  eventType := "case.created"
  actorId := actorId
  payload := [("supplier_name", .str supplierCase.supplierName)]

section

variable (schemas : JsonSchemas) (draws : Draws)

def newCase (payload : SupplierCaseCreate) (principal : Principal) : SupplierCase where
  id := (draws.ambient 0).uuid
  tenantId := principal.tenantId
  supplierName := payload.supplierName
  description := payload.description
  status := .new
  documents := payload.documents
  createdAt := (draws.ambient 0).now
  updatedAt := (draws.ambient 0).now
  tenantId_bounded := principal.tenantId_bounded

def createCase (s : ApiState) (payload : SupplierCaseCreate) (principal : Principal) :
    ApiState × Except ApiError SupplierCase :=
  let created := newCase draws payload principal
  let cases := { s.cases with
    cases := Function.update s.cases.cases created.id (some created) }
  let s := { s with cases }
  s.write (s.cases.appendAuditEvent (draws.ambient 1) (caseCreated created principal.subject))
    fun s => (s, .ok created)

/-- `persist_completed_review`. -/
def persistCompletedReview (s : ApiState) (result : ReviewResult) : ApiState × Except ApiError Bool :=
  match s.cases.getReview result.reviewId with
  | .ok _ => (s, .ok false)
  | .error _ =>
    let s := { s with cases := s.cases.saveReview result }
    s.write (s.cases.setStatus (draws.ambient 3) result.caseId .pendingApproval) fun s =>
      s.write (s.cases.appendAuditEvent (draws.ambient 4) (reviewCompleted result)) fun s =>
        (s, .ok true)

def reviewCaseStarted (caseId : UUID) (initiatedBy : String) : AuditEventCreate where
  caseId := caseId
  eventType := "review.started"
  actorId := "system:review-workflow"
  payload := [("initiated_by", .str initiatedBy)]

def reviewCaseFailed (caseId : UUID) (e : ReviewError) : AuditEventCreate where
  caseId := caseId
  eventType := "review.failed"
  actorId := "system:review-workflow"
  payload := [("error_type", .str (errorType e))]

/-- What `workflow.run` makes of the answer of `start`. -/
def runResult : Except ReviewError ReviewExecution → Except ReviewError ReviewResult
  | .error e => .error e
  | .ok execution =>
    match execution.result with
    | none => .error .missingResult
    | some result => .ok result

def reviewCase (s : ApiState) (caseId : UUID) (principal : Principal) :
    ApiState × Except ApiError ReviewResult :=
  match authorize s.cases caseId principal with
  | .error e => (s, .error e)
  | .ok supplierCase =>
    s.write (s.cases.setStatus (draws.ambient 0) caseId .inReview) fun s =>
      s.write (s.cases.appendAuditEvent (draws.ambient 1)
          (reviewCaseStarted caseId principal.subject)) fun s =>
        -- `workflow.run` starts an execution of a random identifier
        let executionId := (draws.ambient 2).uuid
        let started :=
          start schemas draws.services (s.threads executionId) supplierCase executionId false
        let s := { s with threads := Function.update s.threads executionId started.1 }
        match runResult started.2 with
        | .error e =>
          s.write (s.cases.setStatus (draws.ambient 3) caseId .reviewFailed) fun s =>
            s.write (s.cases.appendAuditEvent (draws.ambient 4) (reviewCaseFailed caseId e)) fun s =>
              (s, .error (.unhandled (errorType e)))
        | .ok result =>
          let persisted := persistCompletedReview draws s result
          (persisted.1, persisted.2.map fun _ => result)

end

/-! ## Runs -/

inductive ApiCall where
  | respond (endpoint : Endpoint)
  | createCase (payload : SupplierCaseCreate)
  | reviewCase (caseId : UUID)

structure ApiStep where
  call : ApiCall
  principal : Principal
  draws : Draws

def ApiState.step (schemas : JsonSchemas) (s : ApiState) (label : ApiStep) : Option ApiState :=
  match label.call with
  | .respond endpoint => some (respond schemas label.draws s label.principal endpoint).1
  | .createCase payload => some (createCase label.draws s payload label.principal).1
  | .reviewCase caseId => some (reviewCase schemas label.draws s caseId label.principal).1

def ApiState.empty : ApiState :=
  ⟨⟨fun _ => none, fun _ => [], fun _ => none, fun _ => []⟩, .empty, fun _ => none⟩

/-- `uuid4` returns new identifiers, and the names of executions are among `names`. -/
def ApiState.Fresh (names : Set String) (s : ApiState) (label : ApiStep) : Prop :=
  match label.call with
  | .respond (.startReviewExecution caseId key _) => ∀ supplierCase,
      s.cases.cases caseId = some supplierCase → executionName supplierCase.tenantId caseId key ∈ names
  | .respond _ => True
  | .createCase _ => s.cases.cases (label.draws.ambient 0).uuid = none
  | .reviewCase _ => (label.draws.ambient 2).uuid.version = 4 ∧
      s.threads (label.draws.ambient 2).uuid = none

section

variable {names : Set String} {s : ApiState} {tenantId : String} {caseId : UUID} {ambient : Ambient}
variable {schemas : JsonSchemas} {draws : Draws} {principal : Principal}

theorem formed_empty : ApiState.empty.Formed names := by
  refine ⟨⟨?_, ?_, ?_⟩, ?_, ?_, ?_⟩ <;> intro _ _ found <;> cases found

/-! ## Writes on a case -/

/-- A state after writes on cases of the tenant. -/
structure Follows (names : Set String) (tenantId : String) (s s' : ApiState) : Prop where
  formed : s'.Formed names
  others : ∀ other ≠ tenantId, s'.restrict other = s.restrict other
  kept : ∀ tenantId caseId, owns s'.cases tenantId caseId = owns s.cases tenantId caseId
  threads : s'.threads = s.threads
  actions : s'.actions = s.actions

theorem ApiState.Formed.write (formed : s.Formed names) {cases : InMemoryCaseRepository}
    {write : InMemoryCaseRepository → Except CaseError InMemoryCaseRepository}
    (written : WritesCase tenantId s.cases cases write)
    (app : Api.Formed names ⟨cases, s.threads⟩) : Follows names tenantId s { s with cases } := by
  refine ⟨⟨app, formed.keyed, ?_, formed.indexed⟩, ?_, written.kept, rfl, rfl⟩
  · intro actionId action found
    rw [written.kept]
    exact formed.cased actionId action found
  · intro other differ
    simp only [ApiState.restrict, written.others other differ]

theorem follows_setStatus (formed : s.Formed names) (owned : owns s.cases tenantId caseId = true)
    (ambient : Ambient) (status : CaseStatus) :
    ∃ s', Follows names tenantId s s' ∧ ∀ {α : Type} (next : ApiState → ApiState × Except ApiError α),
      s.write (s.cases.setStatus ambient caseId status) next = next s' := by
  obtain ⟨cases, written, sameReviews⟩ := setStatus_writes owned ambient status
  have app : Api.Formed names ⟨cases, s.threads⟩ := by
    apply formed.app.write written
    rw [sameReviews]
    exact formed.app.reviewed
  have made : s.cases.setStatus ambient caseId status = .ok cases := written.made
  refine ⟨{ s with cases }, formed.write written app, ?_⟩
  intro α next
  simp only [ApiState.write, made]

theorem append_formed (formed : s.Formed names) {event : AuditEventCreate}
    (owned : owns s.cases tenantId event.caseId = true) (ambient : Ambient) :
    ∃ cases, s.cases.appendAuditEvent ambient event = .ok cases ∧
      Follows names tenantId s { s with cases } := by
  obtain ⟨cases, written, sameReviews⟩ := appendAuditEvent_writes owned ambient
  refine ⟨cases, written.made, formed.write written ?_⟩
  apply formed.app.write written
  rw [sameReviews]
  exact formed.app.reviewed

theorem follows_append (formed : s.Formed names) {event : AuditEventCreate}
    (owned : owns s.cases tenantId event.caseId = true) (ambient : Ambient) :
    ∃ s', Follows names tenantId s s' ∧ ∀ {α : Type} (next : ApiState → ApiState × Except ApiError α),
      s.write (s.cases.appendAuditEvent ambient event) next = next s' := by
  obtain ⟨cases, made, follows⟩ := append_formed formed owned ambient
  refine ⟨{ s with cases }, follows, ?_⟩
  intro α next
  simp only [ApiState.write, made]

/-- A status and the audit event of it. -/
theorem follows_recorded (formed : s.Formed names) (owned : owns s.cases tenantId caseId = true)
    {event : AuditEventCreate} (onCase : event.caseId = caseId) (ambient ambient' : Ambient)
    (status : CaseStatus) :
    ∃ s', Follows names tenantId s s' ∧ ∀ {α : Type} (next : ApiState → ApiState × Except ApiError α),
      s.write (s.cases.setStatus ambient caseId status)
        (fun s => s.write (s.cases.appendAuditEvent ambient' event) next) = next s' := by
  obtain ⟨s₁, first, written⟩ := follows_setStatus formed owned ambient status
  have owned' : owns s₁.cases tenantId event.caseId = true := by rwa [first.kept, onCase]
  obtain ⟨s₂, second, appended⟩ := follows_append first.formed owned' ambient'
  refine ⟨s₂, ⟨second.formed, ?_, ?_, ?_, ?_⟩, ?_⟩
  · intro other differ
    rw [second.others other differ, first.others other differ]
  · intro tenantId caseId
    rw [second.kept, first.kept]
  · rw [second.threads, first.threads]
  · rw [second.actions, first.actions]
  · intro α next
    rw [written, appended]

/-! ## Each call keeps the states formed

`create_case` and `review_case` also leave the data of all tenants but one as it was. -/

structure Within (names : Set String) (tenantId : String) (s s' : ApiState) : Prop where
  formed : s'.Formed names
  others : ∀ other ≠ tenantId, s'.restrict other = s.restrict other

theorem Follows.within {s' s'' : ApiState} (follows : Follows names tenantId s' s'')
    (others : ∀ other ≠ tenantId, s'.restrict other = s.restrict other) :
    Within names tenantId s s'' := by
  refine ⟨follows.formed, ?_⟩
  intro other differ
  rw [follows.others other differ, others other differ]

/-- A new case has no reviews or events that another tenant could have. -/
theorem restrict_insert {supplierCase : SupplierCase} {other : String}
    (fresh : s.cases.cases supplierCase.id = none) (differ : other ≠ supplierCase.tenantId) :
    ({ s with cases := { s.cases with
      cases := Function.update s.cases.cases supplierCase.id (some supplierCase) } }).restrict other =
    s.restrict other := by
  have notOther : supplierCase.tenantId ≠ other := differ.symm
  have kept (id : UUID) : owns { s.cases with
      cases := Function.update s.cases.cases supplierCase.id (some supplierCase) } other id =
      owns s.cases other id := by
    by_cases here : id = supplierCase.id
    · subst here
      simp [owns, fresh, notOther]
    · simp [owns, here]
  have sameCases (id : UUID) :
      (Function.update s.cases.cases supplierCase.id (some supplierCase) id).filter
        (·.tenantId = other) = (s.cases.cases id).filter (·.tenantId = other) := by
    by_cases here : id = supplierCase.id
    · subst here
      simp [fresh, notOther, Option.filter_some]
    · simp [here]
  simp only [ApiState.restrict, restrictCases, kept, sameCases]

theorem createCase_within (formed : s.Formed names) (payload : SupplierCaseCreate)
    (fresh : s.cases.cases (draws.ambient 0).uuid = none) :
    Within names principal.tenantId s (createCase draws s payload principal).1 := by
  let created := newCase draws payload principal
  let s₁ : ApiState := { s with cases := { s.cases with
    cases := Function.update s.cases.cases created.id (some created) } }
  have freshId : s.cases.cases created.id = none := fresh
  have formed₁ : s₁.Formed names := by
    refine ⟨⟨?_, formed.app.named, formed.app.reviewed⟩, formed.keyed, ?_, formed.indexed⟩
    · intro id supplierCase found
      by_cases here : id = created.id
      · subst here
        simp only [ApiState.app, s₁, Function.update_self, Option.some.injEq] at found
        rw [← found]
      · simp only [ApiState.app, s₁, Function.update_of_ne here] at found
        exact formed.app.keyed id supplierCase found
    · -- the new identifier is not that of a case with actions
      intro actionId action found
      obtain ⟨supplierCase, isCase, isTenant⟩ := owns_iff.mp (formed.cased actionId action found)
      have other : action.caseId ≠ created.id := by
        intro same
        rw [same, freshId] at isCase
        cases isCase
      refine owns_iff.mpr ⟨supplierCase, ?_, isTenant⟩
      simp only [s₁, Function.update_of_ne other, isCase]
  have owned : owns s₁.cases created.tenantId (caseCreated created principal.subject).caseId = true := by
    refine owns_iff.mpr ⟨created, ?_, rfl⟩
    simp [s₁, caseCreated]
  obtain ⟨s₂, follows, appended⟩ := follows_append formed₁ owned (draws.ambient 1)
  have answered : createCase draws s payload principal = (s₂, .ok created) :=
    appended fun s => (s, .ok created)
  rw [answered]
  exact follows.within fun other differ => restrict_insert freshId differ

variable (draws) in
theorem persistCompletedReview_within (formed : s.Formed names) {result : ReviewResult}
    (owned : owns s.cases tenantId result.caseId = true)
    (thread : ∃ checkpoint, s.threads result.reviewId = some checkpoint ∧
      checkpoint.values.caseId = result.caseId) :
    Within names tenantId s (persistCompletedReview draws s result).1 := by
  simp only [persistCompletedReview]
  cases s.cases.getReview result.reviewId with
  | ok stored => exact ⟨formed, fun _ _ => rfl⟩
  | error e =>
    have written := saveReview_writes owned (formed.app.own_review owned thread)
    have saved := formed.write written (formed.app.saveReview owned thread)
    have owned' : owns (s.cases.saveReview result) tenantId result.caseId = true := by
      rwa [written.kept]
    have onCase : (reviewCompleted result).caseId = result.caseId := rfl
    obtain ⟨s₂, follows, recorded⟩ := follows_recorded saved.formed owned' onCase (draws.ambient 3)
      (draws.ambient 4) .pendingApproval
    simp only
    rw [recorded]
    exact follows.within saved.others

theorem getAuthorizedCase_found {repo : InMemoryCaseRepository} {supplierCase : SupplierCase}
    (ok : getAuthorizedCase repo caseId principal = .ok supplierCase) :
    repo.cases caseId = some supplierCase := by
  simp only [getAuthorizedCase, InMemoryCaseRepository.get] at ok
  cases found : repo.cases caseId with
  | none => simp [found] at ok
  | some held =>
    simp only [found] at ok
    split at ok
    · cases ok
    · cases ok
      rfl

variable (schemas draws) in
/-- `start` on a new identifier. -/
theorem start_within (formed : s.Formed names) {executionId : UUID} (random : executionId.version = 4)
    (fresh : s.threads executionId = none) (supplierCase : SupplierCase) (required : Bool) :
    let started := start schemas draws.services none supplierCase executionId required
    Within names supplierCase.tenantId s
      { s with threads := Function.update s.threads executionId started.1 } := by
  obtain ⟨moved, _⟩ := start_cases schemas draws.services none supplierCase executionId required
  rcases moved with unchanged | ⟨_, checkpoint, isNew, inScope⟩
  · simp only [unchanged]
    rw [← fresh, Function.update_eq_self]
    exact ⟨formed, fun _ _ => rfl⟩
  · simp only [isNew]
    have app : Api.Formed names (s.app.setThread executionId (some checkpoint)) := by
      refine formed.app.setThread (.inl random) ?_
      intro before found
      cases fresh.symm.trans found
    refine ⟨⟨app, formed.keyed, formed.cased, formed.indexed⟩, ?_⟩
    intro other differ
    have notOther : checkpoint.values.tenantId ≠ other := by
      rw [inScope.tenantId]
      exact differ.symm
    have sameThread (id : UUID) :
        restrictThread other (Function.update s.threads executionId (some checkpoint) id) =
          restrictThread other (s.threads id) := by
      by_cases here : id = executionId
      · subst here
        simp [restrictThread, fresh, notOther, Option.filter_some]
      · simp [here]
    simp only [ApiState.restrict, sameThread]

theorem runResult_ok {answer : Except ReviewError ReviewExecution} {result : ReviewResult}
    (ran : runResult answer = .ok result) :
    ∃ execution, answer = .ok execution ∧ execution.result = some result := by
  cases answer with
  | error e => cases ran
  | ok execution =>
    simp only [runResult] at ran
    split at ran
    · cases ran
    next got =>
      cases ran
      exact ⟨execution, rfl, got⟩

theorem reviewCase_within (formed : s.Formed names) (random : (draws.ambient 2).uuid.version = 4)
    (fresh : s.threads (draws.ambient 2).uuid = none) :
    ∃ tenantId, (.admin ∉ principal.roles → tenantId = principal.tenantId) ∧
      Within names tenantId s (reviewCase schemas draws s caseId principal).1 := by
  simp only [reviewCase]
  cases ok : authorize s.cases caseId principal with
  | error e => exact ⟨principal.tenantId, fun _ => rfl, formed, fun _ _ => rfl⟩
  | ok supplierCase =>
    have found := getAuthorizedCase_found (authorize_ok ok)
    have isCase := formed.app.keyed caseId supplierCase found
    have owned : owns s.cases supplierCase.tenantId caseId = true :=
      owns_iff.mpr ⟨supplierCase, found, rfl⟩
    have onCase : (reviewCaseStarted caseId principal.subject).caseId = caseId := rfl
    obtain ⟨s₁, follows, recorded⟩ := follows_recorded formed owned onCase (draws.ambient 0)
      (draws.ambient 1) .inReview
    have fresh₁ : s₁.threads (draws.ambient 2).uuid = none := by rw [follows.threads, fresh]
    have within₂ := start_within schemas draws follows.formed random fresh₁ supplierCase false
    have owned₁ : owns s₁.cases supplierCase.tenantId caseId = true := by rwa [follows.kept]
    obtain ⟨_, held⟩ := start_cases schemas draws.services none supplierCase (draws.ambient 2).uuid false
    refine ⟨supplierCase.tenantId, fun notAdmin => (getAuthorizedCase_ok notAdmin (authorize_ok ok)).2, ?_⟩
    simp only
    rw [recorded]
    simp only [fresh₁]
    generalize start schemas draws.services none supplierCase (draws.ambient 2).uuid false = started
      at within₂ held
    obtain ⟨thread, answer⟩ := started
    have others₂ : ∀ other ≠ supplierCase.tenantId, ApiState.restrict other
        { s₁ with threads := Function.update s₁.threads (draws.ambient 2).uuid thread } =
        s.restrict other := by
      intro other differ
      rw [within₂.others other differ, follows.others other differ]
    cases ran : runResult answer with
    | error e =>
      have failed : (reviewCaseFailed caseId e).caseId = caseId := rfl
      obtain ⟨s₂, follows₂, recorded₂⟩ := follows_recorded within₂.formed owned₁ failed
        (draws.ambient 3) (draws.ambient 4) .reviewFailed
      simp only
      rw [recorded₂]
      exact follows₂.within others₂
    | ok result =>
      obtain ⟨execution, isAnswer, got⟩ := runResult_ok ran
      have held' := held execution isAnswer
      obtain ⟨result', got', own⟩ := held'.own (held'.completed result got)
      cases got.symm.trans got'
      obtain ⟨checkpoint, stored, inScope⟩ := held'.thread
      have ownedResult : owns s₁.cases supplierCase.tenantId result.caseId = true := by
        rwa [own.caseId, isCase]
      have isStored : Function.update s₁.threads (draws.ambient 2).uuid thread result.reviewId =
          some checkpoint := by
        rw [own.reviewId, Function.update_self]
        exact stored
      have sameCase : checkpoint.values.caseId = result.caseId := by
        rw [own.caseId, inScope.caseId]
      have persisted := persistCompletedReview_within draws within₂.formed ownedResult
        ⟨checkpoint, isStored, sameCase⟩
      refine ⟨persisted.formed, ?_⟩
      intro other differ
      exact (persisted.others other differ).trans (others₂ other differ)

/-- An execution is started or resumed on a case of any tenant. -/
theorem process_formed (formed : s.Formed names) (injective : Set.InjOn (uuid5 NAMESPACE_URL) names)
    {request : ApiRequest}
    (named : ∀ supplierCase, s.cases.cases request.caseId = some supplierCase →
      request.Named names supplierCase.tenantId) :
    (process schemas draws s request).1.Formed names := by
  simp only [process, awaits, complete_authorizing]
  cases ok : authorize s.app.repo request.caseId request.principal with
  | error e => exact formed
  | ok supplierCase =>
    have found := getAuthorizedCase_found (authorize_ok ok)
    have isLocal : (Handler.loading supplierCase).Local supplierCase.tenantId s.app request :=
      ⟨owns_iff.mpr ⟨supplierCase, found, rfl⟩, rfl, formed.app.keyed _ _ found⟩
    have suits : (Handler.loading supplierCase).Suits request := by cases request <;> trivial
    obtain ⟨_, _, kept, app⟩ := complete_confined schemas draws 9 formed.app injective
      (named supplierCase found) suits (by simp [Handler.rank]) isLocal
    refine ⟨app, formed.keyed, ?_, formed.indexed⟩
    intro actionId action stored
    exact (kept _ _).trans (formed.cased actionId action stored)

/-- An action of a case is stored under its identifier. -/
theorem ApiState.Formed.setAction (formed : s.Formed names) {action : GovernedAction}
    (owned : owns s.cases action.tenantId action.caseId = true) :
    ({ s with actions := s.actions.setAction action.id action } : ApiState).Formed names := by
  have stored {actionId : UUID} {held : GovernedAction}
      (found : (s.actions.setAction action.id action).actions actionId = some held) :
      (actionId = action.id ∧ held = action) ∨ s.actions.actions actionId = some held := by
    by_cases here : actionId = action.id
    · subst here
      simp only [InMemoryActionRepository.setAction, Function.update_self, Option.some.injEq] at found
      exact .inl ⟨rfl, found.symm⟩
    · simp only [InMemoryActionRepository.setAction, Function.update_of_ne here] at found
      exact .inr found
  refine ⟨formed.app, ?_, ?_, ?_⟩
  · intro actionId held found
    obtain ⟨rfl, rfl⟩ | found := stored found
    · rfl
    · exact formed.keyed actionId held found
  · intro actionId held found
    obtain ⟨rfl, rfl⟩ | found := stored found
    · exact owned
    · exact formed.cased actionId held found
  · intro key actionId indexed
    obtain ⟨held, found⟩ := formed.indexed key actionId indexed
    by_cases here : actionId = action.id
    · exact ⟨action, by simp [InMemoryActionRepository.setAction, here]⟩
    · exact ⟨held, by simp [InMemoryActionRepository.setAction, here, found]⟩

theorem ApiState.Formed.storeProposal (formed : s.Formed names) {action : GovernedAction}
    (owned : owns s.cases action.tenantId action.caseId = true) :
    ({ s with actions := s.actions.storeProposal action } : ApiState).Formed names := by
  have placed := formed.setAction owned
  refine ⟨formed.app, placed.keyed, placed.cased, ?_⟩
  intro key actionId indexed
  by_cases isKey : key = action.tenantKey
  · subst isKey
    simp only [InMemoryActionRepository.storeProposal, Function.update_self, Option.some.injEq] at indexed
    exact ⟨action, by simp [InMemoryActionRepository.storeProposal, ← indexed]⟩
  · simp only [InMemoryActionRepository.storeProposal, Function.update_of_ne isKey] at indexed
    exact placed.indexed key actionId indexed

/-- `create_proposal` of the repository in memory. -/
theorem createProposal_formed (formed : s.Formed names) {action : GovernedAction}
    (owned : owns s.cases action.tenantId action.caseId = true) (message : OutboxMessageCreate)
    (ambient : Ambient) :
    let created := (inMemoryActionRepository.createProposal s.governed action (proposedEvent action)
      message ambient).1
    ({ s with actions := created.repo, cases := created.cases } : ApiState).Formed names := by
  simp only [inMemoryActionRepository, ApiState.governed]
  cases indexed : s.actions.idempotency action.tenantKey with
  | some existingId =>
    obtain ⟨stored, found⟩ := formed.indexed _ _ indexed
    simp only [InMemoryActionRepository.createProposal, indexed, found]
    exact formed
  | none =>
    have ownedEvent : owns s.cases action.tenantId (proposedEvent action).caseId = true := owned
    obtain ⟨cases, appended, follows⟩ := append_formed (formed.storeProposal owned) ownedEvent ambient
    have appended' : s.cases.appendAuditEvent ambient (proposedEvent action) = .ok cases := appended
    simp only [InMemoryActionRepository.createProposal, indexed, appended']
    exact follows.formed

theorem proposeCaseAction_formed (formed : s.Formed names) (proposal : ActionProposalRequest) :
    (proposeCaseAction draws s caseId proposal principal).1.Formed names := by
  simp only [proposeCaseAction]
  cases ok : getAuthorizedCase s.cases caseId principal with
  | error e => exact formed
  | ok supplierCase =>
    simp only
    split
    · exact formed
    · exact formed
    next review _ =>
      cases prepared : prepareAction ⟨supplierCase, review, proposal, principal⟩
          (draws.ambient 0).now with
      | error e =>
        have refused : GovernanceService.prepareProposal inMemoryActionRepository
            ⟨supplierCase, review, proposal, principal⟩ (proposeMoment draws principal proposal) =
            .error e := by
          rw [prepareProposal_eq ⟨supplierCase, review, proposal, principal⟩, prepared]
          rfl
        simp only [GovernanceService.propose, refused]
        exact formed
      | ok action =>
        have isFor := proposedFor_of_prepared prepared
        have found := getAuthorizedCase_found ok
        have owned : owns s.cases (startedAction principal proposal action).tenantId
            (startedAction principal proposal action).caseId = true := by
          rw [isFor.tenantId, isFor.caseId, formed.app.keyed caseId supplierCase found]
          exact owns_iff.mpr ⟨supplierCase, found, rfl⟩
        have created := createProposal_formed formed owned
          (startMessage (startedAction principal proposal action))
          (proposeMoment draws principal proposal).ambient
        simp only [GovernanceService.propose, prepareProposal_started prepared]
        generalize inMemoryActionRepository.createProposal s.governed _ _ _ _ = outcome at created
        obtain ⟨governed, answer⟩ := outcome
        cases answer <;> exact created

theorem decideAction_formed (formed : s.Formed names) (actionId : UUID) (request : ApprovalRequest) :
    (decideAction draws s actionId request principal).1.Formed names := by
  cases approver : principal.hasRole .approver with
  | false =>
    rw [decideAction_unentitled approver]
    exact formed
  | true =>
    cases found : s.actions.actions actionId with
    | none =>
      rw [decideAction_unknown approver found]
      exact formed
    | some action =>
      rcases decideAction_own request draws formed approver found rfl with
        ⟨e, _, refused⟩ | ⟨decided, cases, judged, _, written, saved⟩
      · rw [refused]
        exact formed
      · obtain ⟨_, _, _, isDecided⟩ := judge_ok judged
        have sameId : decided.id = actionId := by
          rw [isDecided]
          exact formed.keyed actionId action found
        have owned : owns s.cases decided.tenantId (decidedEvent decided principal).caseId = true := by
          rw [isDecided]
          exact formed.cased actionId action found
        obtain ⟨cases', appended, follows⟩ :=
          append_formed (formed.setAction owned) owned (draws.ambient 1)
        cases written.made.symm.trans appended
        rw [saved, ← sameId]
        exact follows.formed

/-! ## Every state of a run -/

theorem step_formed {label : ApiStep} {s' : ApiState} (injective : Set.InjOn (uuid5 NAMESPACE_URL) names)
    (formed : s.Formed names) (fresh : s.Fresh names label) (moved : s.step schemas label = some s') :
    s'.Formed names := by
  obtain ⟨call, principal, draws⟩ := label
  cases call with
  | createCase payload =>
    cases moved
    exact (createCase_within formed payload fresh).formed
  | reviewCase caseId =>
    cases moved
    obtain ⟨_, _, within⟩ := reviewCase_within formed fresh.1 fresh.2
    exact within.formed
  | respond endpoint =>
    cases moved
    cases endpoint with
    | startReviewExecution caseId key required =>
      exact process_formed formed injective fresh
    | resumeReviewExecution caseId executionId confirmation =>
      exact process_formed formed injective fun _ _ => trivial
    | proposeCaseAction caseId proposal => exact proposeCaseAction_formed formed proposal
    | decideAction actionId request => exact decideAction_formed formed actionId request
    | getCase | getReviewExecution | getLatestReview | listAuditEvents | getAction => exact formed

/-- Every state that requests of any principals lead to. -/
theorem formed_of_run (injective : Set.InjOn (uuid5 NAMESPACE_URL) names)
    (steps : StepsWhen (ApiState.step schemas) (ApiState.Fresh names) ApiState.empty s) :
    s.Formed names :=
  steps.invariant formed_empty (step_formed injective)

end

end SupplierAssurance.Api
