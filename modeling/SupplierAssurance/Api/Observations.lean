import SupplierAssurance.Api.Tenants

/-! # What an endpoint tells a tenant about another

Each endpoint on two states that agree on the data of the principal's tenant.  The endpoints
that read answer alike.  `decide_action` answers 403 for an action of another tenant and 404
for an unknown one.  `propose_case_action` derives the action's identifier from the
principal's tenant, and the action that has it already may be another tenant's.
-/

namespace SupplierAssurance.Api

open Python Lib Graphs Governance

/-- What holds of every state: an action is stored under its identifier, it has the tenant of its
    case, and an idempotency key leads to an action. -/
structure ApiState.Formed (names : Set String) (s : ApiState) : Prop where
  app : Api.Formed names s.app
  keyed : ∀ actionId action, s.actions.actions actionId = some action → action.id = actionId
  cased : ∀ actionId action, s.actions.actions actionId = some action →
    owns s.cases action.tenantId action.caseId = true
  indexed : ∀ key actionId, s.actions.idempotency key = some actionId →
    ∃ action, s.actions.actions actionId = some action

/-- The identifier is that of another tenant's action. -/
def ApiState.Foreign (s : ApiState) (tenantId : String) (actionId : UUID) : Prop :=
  ∃ action, s.actions.actions actionId = some action ∧ action.tenantId ≠ tenantId

section

variable {names : Set String} {s s' : ApiState} {tenantId : String} {principal : Principal}
variable {caseId executionId actionId : UUID} {supplierCase : SupplierCase}

/-! ## The endpoints that only read -/

/-- A read behind `get_authorized_case` sees no case but the tenant's own. -/
theorem authorizedRead_restrict {α : Type} {read read' : SupplierCase → Except ApiError α}
    (notAdmin : .admin ∉ principal.roles)
    (same : ∀ supplierCase, s.cases.cases caseId = some supplierCase →
      supplierCase.tenantId = principal.tenantId → read' supplierCase = read supplierCase) :
    (getAuthorizedCase (s.restrict principal.tenantId).cases caseId principal >>= read') =
      (getAuthorizedCase s.cases caseId principal >>= read) := by
  have restricted : getAuthorizedCase (s.restrict principal.tenantId).cases caseId principal =
      getAuthorizedCase s.cases caseId principal := getAuthorizedCase_restrict notAdmin
  rw [restricted]
  cases ok : getAuthorizedCase s.cases caseId principal with
  | error e => rfl
  | ok supplierCase =>
    obtain ⟨found, isTenant⟩ := getAuthorizedCase_ok notAdmin ok
    exact same supplierCase found isTenant

theorem getReviewExecution_restrict (notAdmin : .admin ∉ principal.roles) :
    getReviewExecution (s.restrict principal.tenantId) caseId executionId principal =
      getReviewExecution s caseId executionId principal := by
  apply authorizedRead_restrict notAdmin
  intro supplierCase _ isTenant
  have sameExecution : getExecution ((s.restrict principal.tenantId).threads executionId) supplierCase
      executionId = getExecution (s.threads executionId) supplierCase executionId :=
    getExecution_restrict isTenant _ _
  simp only [sameExecution]

/-- The reviews and the events of a case of the tenant. -/
theorem restrictCases_reads {repo : InMemoryCaseRepository} (owned : owns repo tenantId caseId = true) :
    (restrictCases tenantId repo).getLatestReview caseId = repo.getLatestReview caseId ∧
      (restrictCases tenantId repo).listAuditEvents caseId = repo.listAuditEvents caseId := by
  have sameCase := restrictCases_get owned
  have sameReviews : (restrictCases tenantId repo).reviews caseId = repo.reviews caseId := by
    simp [restrictCases, owned]
  have sameEvents : (restrictCases tenantId repo).events caseId = repo.events caseId := by
    simp [restrictCases, owned]
  simp only [InMemoryCaseRepository.getLatestReview, InMemoryCaseRepository.listAuditEvents, sameCase,
    sameReviews, sameEvents]
  exact ⟨trivial, trivial⟩

theorem getLatestReview_restrict (notAdmin : .admin ∉ principal.roles) :
    getLatestReview (s.restrict principal.tenantId) caseId principal =
      getLatestReview s caseId principal := by
  apply authorizedRead_restrict notAdmin
  intro supplierCase found isTenant
  have owned := owns_iff.mpr ⟨supplierCase, found, isTenant⟩
  simp only [ApiState.restrict, (restrictCases_reads owned).1]

theorem listAuditEvents_restrict (notAdmin : .admin ∉ principal.roles) :
    listAuditEvents (s.restrict principal.tenantId) caseId principal =
      listAuditEvents s caseId principal := by
  apply authorizedRead_restrict notAdmin
  intro supplierCase found isTenant
  have owned := owns_iff.mpr ⟨supplierCase, found, isTenant⟩
  simp only [ApiState.restrict, (restrictCases_reads owned).2]

/-- `get_action` answers for another tenant's action as for an unknown one. -/
theorem getAction_restrict (notAdmin : .admin ∉ principal.roles) :
    getAction (s.restrict principal.tenantId) actionId principal = getAction s actionId principal := by
  have get (s : ApiState) : inMemoryActionRepository.get s.governed actionId =
      s.actions.get actionId := rfl
  simp only [getAction, GovernanceService.get, get, InMemoryActionRepository.get, ApiState.restrict,
    restrictActions]
  cases found : s.actions.actions actionId with
  | none => rfl
  | some action =>
    by_cases own : action.tenantId = principal.tenantId
    · simp [own, Option.filter_some]
    · have refused : requireTenant principal action.tenantId =
          .error (.authorizationDenied "The resource belongs to another tenant") := by
        have other : principal.tenantId ≠ action.tenantId := fun same => own same.symm
        simp [requireTenant, notAdmin, other]
      simp [own, Option.filter_some, refused, bind, Except.bind, actionNotFound]

/-! ## Two states that agree on a tenant's data -/

theorem agree_actions (agree : s.restrict tenantId = s'.restrict tenantId) (actionId : UUID) :
    (s.actions.actions actionId).filter (·.tenantId = tenantId) =
      (s'.actions.actions actionId).filter (·.tenantId = tenantId) :=
  congrArg (fun s => s.actions.actions actionId) agree

theorem agree_idempotency (agree : s.restrict tenantId = s'.restrict tenantId) (key : UUID) :
    s.actions.idempotency (tenantId, key) = s'.actions.idempotency (tenantId, key) := by
  have same := congrArg (fun s => s.actions.idempotency (tenantId, key)) agree
  simpa [ApiState.restrict, restrictActions] using same

theorem agree_cases (agree : s.restrict tenantId = s'.restrict tenantId) :
    restrictCases tenantId s.cases = restrictCases tenantId s'.cases :=
  congrArg ApiState.cases agree

/-- An action of the tenant is in both states. -/
theorem agree_own (agree : s.restrict tenantId = s'.restrict tenantId) {action : GovernedAction}
    (found : s.actions.actions actionId = some action) (own : action.tenantId = tenantId) :
    s'.actions.actions actionId = some action := by
  have same := agree_actions agree actionId
  rw [found, Option.filter_some_pos (by simpa using own)] at same
  obtain ⟨found', _⟩ := Option.filter_eq_some_iff.mp same.symm
  exact found'

/-! ## `decide_action` -/

variable {request : ApprovalRequest} {draws : Draws} {action : GovernedAction}

/-- `decide` raises before it writes. -/
theorem decideAction_refused {e : GovernanceError}
    (refused : GovernanceService.prepareDecision inMemoryActionRepository s.governed actionId request
      principal (draws.ambient 0).now = .error e) :
    decideAction draws s actionId request principal = (s, .error (decideError e)) := by
  simp only [decideAction, GovernanceService.decide, decideMoment, refused]
  rfl

/-- The principal is not an approver: the state is not read. -/
theorem decideAction_unentitled (unentitled : principal.hasRole .approver = false) :
    decideAction draws s actionId request principal =
      (s, .error (.forbidden "The approver role is required")) := by
  apply decideAction_refused (e := .authorizationDenied "The approver role is required")
  simp [GovernanceService.prepareDecision, requireRole, unentitled, bind, Except.bind, Role.value]

theorem decideAction_unknown (approver : principal.hasRole .approver = true)
    (absent : s.actions.actions actionId = none) :
    decideAction draws s actionId request principal =
      (s, .error (.notFound ("Governed action " ++ actionId.str ++ " was not found"))) := by
  apply decideAction_refused (e := actionNotFound actionId)
  have missing : inMemoryActionRepository.get s.governed actionId = .error (actionNotFound actionId) := by
    simp [inMemoryActionRepository, InMemoryActionRepository.get, ApiState.governed, absent]
  simp [GovernanceService.prepareDecision, requireRole, approver, missing, bind, Except.bind]

variable (request) in
theorem prepareDecision_found (approver : principal.hasRole .approver = true)
    (found : s.actions.actions actionId = some action) (now : Datetime) :
    GovernanceService.prepareDecision inMemoryActionRepository s.governed actionId request principal now =
      judge action request principal now := by
  have got : inMemoryActionRepository.get s.governed actionId = .ok action := by
    simp [inMemoryActionRepository, InMemoryActionRepository.get, ApiState.governed, found]
  simp [GovernanceService.prepareDecision, requireRole, approver, got, bind, Except.bind]

theorem decideAction_foreign (notAdmin : .admin ∉ principal.roles)
    (approver : principal.hasRole .approver = true) (found : s.actions.actions actionId = some action)
    (foreign : action.tenantId ≠ principal.tenantId) :
    decideAction draws s actionId request principal =
      (s, .error (.forbidden "The resource belongs to another tenant")) := by
  apply decideAction_refused (e := .authorizationDenied "The resource belongs to another tenant")
  have refused : requireTenant principal action.tenantId =
      .error (.authorizationDenied "The resource belongs to another tenant") := by
    simp [requireTenant, notAdmin, foreign.symm]
  rw [prepareDecision_found request approver found]
  simp [judge, refused, bind, Except.bind]

variable (request draws) in
/-- An action of the tenant: the decision is saved, or a check of it raises. -/
theorem decideAction_own (formed : s.Formed names) (approver : principal.hasRole .approver = true)
    (found : s.actions.actions actionId = some action) (own : action.tenantId = tenantId) :
    (∃ e, judge action request principal (draws.ambient 0).now = .error e ∧
      decideAction draws s actionId request principal = (s, .error (decideError e))) ∨
    ∃ decided cases', judge action request principal (draws.ambient 0).now = .ok decided ∧
      decided.tenantId = tenantId ∧
      WritesCase tenantId s.cases cases'
        (·.appendAuditEvent (draws.ambient 1) (decidedEvent decided principal)) ∧
      decideAction draws s actionId request principal =
        ({ s with actions := s.actions.setAction actionId decided, cases := cases' }, .ok decided) := by
  have prepared := prepareDecision_found request approver found (draws.ambient 0).now
  cases judged : judge action request principal (draws.ambient 0).now with
  | error e =>
    rw [judged] at prepared
    exact .inl ⟨e, rfl, decideAction_refused prepared⟩
  | ok decided =>
    rw [judged] at prepared
    obtain ⟨_, _, pending, isDecided⟩ := judge_ok judged
    have sameId : decided.id = actionId := by
      rw [isDecided]
      exact formed.keyed actionId action found
    have sameTenant : decided.tenantId = tenantId := by
      rw [isDecided]
      exact own
    have ownedCase : owns s.cases tenantId (decidedEvent decided principal).caseId = true := by
      have cased := formed.cased actionId action found
      rw [own] at cased
      rw [isDecided]
      exact cased
    obtain ⟨cases', written, _⟩ := appendAuditEvent_writes ownedCase (draws.ambient 1)
    refine .inr ⟨decided, cases', rfl, sameTenant, written, ?_⟩
    have checked : s.actions.checkTransition decided .pendingApproval = .ok action := by
      simp [InMemoryActionRepository.checkTransition, sameId, found, pending]
    have appended : s.cases.appendAuditEvent (draws.ambient 1) (decidedEvent decided principal) =
        .ok cases' := written.made
    have saved : inMemoryActionRepository.saveTransition s.governed decided
        (decidedEvent decided principal) .pendingApproval (draws.ambient 1) =
        (⟨s.actions.setAction actionId decided, cases'⟩, .ok ()) := by
      simp [inMemoryActionRepository, ApiState.governed, checked, appended, sameId]
    simp only [decideAction, GovernanceService.decide, decideMoment, prepared, saved]
    rfl

/-! ## The property -/

/-- The request answers the same in both states and changes nothing of other tenants in either. -/
structure Noninterfering (schemas : JsonSchemas) (draws : Draws) (principal : Principal)
    (endpoint : Endpoint) (s s' : ApiState) : Prop where
  answers : (respond schemas draws s principal endpoint).2 =
    (respond schemas draws s' principal endpoint).2
  unchanged : ∀ other ≠ principal.tenantId,
    (respond schemas draws s principal endpoint).1.restrict other = s.restrict other
  unchanged' : ∀ other ≠ principal.tenantId,
    (respond schemas draws s' principal endpoint).1.restrict other = s'.restrict other

variable {schemas : JsonSchemas}

/-- A request that answers the same and writes nothing in either state. -/
theorem noninterfering_of_quiet {endpoint : Endpoint} {response : HttpResponse}
    (quiet : respond schemas draws s principal endpoint = (s, response))
    (quiet' : respond schemas draws s' principal endpoint = (s', response)) :
    Noninterfering schemas draws principal endpoint s s' := by
  refine ⟨?_, ?_, ?_⟩
  · rw [quiet, quiet']
  · intro other _
    rw [quiet]
  · intro other _
    rw [quiet']

theorem respond_decide {e : ApiError}
    (answer : decideAction draws s actionId request principal = (s, .error e)) :
    respond schemas draws s principal (.decideAction actionId request) =
      (s, ⟨e.statusCode, e.body⟩) := by
  simp only [respond, answer]
  rfl

/-- A request that reads. -/
theorem noninterfering_of_read {endpoint : Endpoint} {response : ApiState → HttpResponse}
    (reads : ∀ s, respond schemas draws s principal endpoint = (s, response s))
    (restricted : ∀ s : ApiState, response (s.restrict principal.tenantId) = response s)
    (agree : s.restrict principal.tenantId = s'.restrict principal.tenantId) :
    Noninterfering schemas draws principal endpoint s s' := by
  have same : response s' = response s := by rw [← restricted s', ← agree, restricted s]
  apply noninterfering_of_quiet (reads s)
  rw [reads, same]

/-- The tenant's action is replaced by another of the tenant's. -/
theorem restrictActions_setAction {repo : InMemoryActionRepository} {old new : GovernedAction}
    {other : String} (differ : other ≠ tenantId) (found : repo.actions actionId = some old)
    (own : old.tenantId = tenantId) (own' : new.tenantId = tenantId) :
    restrictActions other (repo.setAction actionId new) = restrictActions other repo := by
  have notOther : tenantId ≠ other := differ.symm
  simp only [restrictActions, InMemoryActionRepository.setAction, InMemoryActionRepository.mk.injEq,
    and_true]
  funext id
  by_cases here : id = actionId
  · subst here
    simp [found, own, own', notOther, Option.filter_some]
  · simp [here]

theorem decideAction_own_unchanged (formed : s.Formed names)
    (approver : principal.hasRole .approver = true) (found : s.actions.actions actionId = some action)
    (own : action.tenantId = tenantId) {other : String} (differ : other ≠ tenantId) :
    (decideAction draws s actionId request principal).1.restrict other = s.restrict other := by
  rcases decideAction_own request draws formed approver found own with
    ⟨e, _, refused⟩ | ⟨decided, cases', _, own', written, decidedTo⟩
  · rw [refused]
  · rw [decidedTo]
    simp only [ApiState.restrict, written.others other differ,
      restrictActions_setAction differ found own own']

/-- Both states have the same action of the tenant. -/
theorem decide_noninterfering_own (formed : s.Formed names) (formed' : s'.Formed names)
    (approver : principal.hasRole .approver = true) (found : s.actions.actions actionId = some action)
    (found' : s'.actions.actions actionId = some action) (own : action.tenantId = principal.tenantId) :
    Noninterfering schemas draws principal (.decideAction actionId request) s s' := by
  refine ⟨?_, ?_, ?_⟩
  · simp only [respond]
    rcases decideAction_own request draws formed approver found own with
      ⟨e, judged, refused⟩ | ⟨decided, _, judged, _, _, saved⟩
    · rcases decideAction_own request draws formed' approver found' own with
        ⟨e', judged', refused'⟩ | ⟨decided', _, judged', _⟩
      · cases judged.symm.trans judged'
        rw [refused, refused']
      · cases judged.symm.trans judged'
    · rcases decideAction_own request draws formed' approver found' own with
        ⟨e', judged', _⟩ | ⟨decided', _, judged', _, _, saved'⟩
      · cases judged.symm.trans judged'
      · cases judged.symm.trans judged'
        rw [saved, saved']
  · intro other differ
    exact decideAction_own_unchanged formed approver found own differ
  · intro other differ
    exact decideAction_own_unchanged formed' approver found' own differ

variable (request draws) in
/-- No action of the tenant: 403 or 404, and nothing is written. -/
theorem decideAction_not_own (notAdmin : .admin ∉ principal.roles)
    (approver : principal.hasRole .approver = true)
    (notOwn : ∀ action, s.actions.actions actionId = some action → action.tenantId ≠ principal.tenantId) :
    (s.Foreign principal.tenantId actionId ∧ decideAction draws s actionId request principal =
      (s, .error (.forbidden "The resource belongs to another tenant"))) ∨
    (¬ s.Foreign principal.tenantId actionId ∧ decideAction draws s actionId request principal =
      (s, .error (.notFound ("Governed action " ++ actionId.str ++ " was not found")))) := by
  cases found : s.actions.actions actionId with
  | some action =>
    exact .inl ⟨⟨action, found, notOwn action found⟩,
      decideAction_foreign notAdmin approver found (notOwn action found)⟩
  | none =>
    refine .inr ⟨?_, decideAction_unknown approver found⟩
    rintro ⟨action, found', _⟩
    cases found.symm.trans found'

theorem decide_noninterfering_not_own (notAdmin : .admin ∉ principal.roles)
    (approver : principal.hasRole .approver = true)
    (notOwn : ∀ action, s.actions.actions actionId = some action → action.tenantId ≠ principal.tenantId)
    (notOwn' : ∀ action, s'.actions.actions actionId = some action →
      action.tenantId ≠ principal.tenantId) :
    Noninterfering schemas draws principal (.decideAction actionId request) s s' ↔
      (s.Foreign principal.tenantId actionId ↔ s'.Foreign principal.tenantId actionId) := by
  have same {e : ApiError} (answer : decideAction draws s actionId request principal = (s, .error e))
      (answer' : decideAction draws s' actionId request principal = (s', .error e)) :
      Noninterfering schemas draws principal (.decideAction actionId request) s s' :=
    noninterfering_of_quiet (respond_decide answer) (respond_decide answer')
  have differ {e e' : ApiError} (codes : e.statusCode ≠ e'.statusCode)
      (answer : decideAction draws s actionId request principal = (s, .error e))
      (answer' : decideAction draws s' actionId request principal = (s', .error e')) :
      ¬ Noninterfering schemas draws principal (.decideAction actionId request) s s' := by
    intro noninterfering
    have answers := noninterfering.answers
    rw [respond_decide answer, respond_decide answer'] at answers
    exact codes (congrArg HttpResponse.status answers)
  rcases decideAction_not_own request draws notAdmin approver notOwn with
    ⟨foreign, answer⟩ | ⟨unknown, answer⟩
  · rcases decideAction_not_own request draws notAdmin approver notOwn' with
      ⟨foreign', answer'⟩ | ⟨unknown', answer'⟩
    · simp only [same answer answer', foreign, foreign']
    · have codes := differ (by simp [ApiError.statusCode]) answer answer'
      simp only [codes, foreign, unknown', true_iff]
  · rcases decideAction_not_own request draws notAdmin approver notOwn' with
      ⟨foreign', answer'⟩ | ⟨unknown', answer'⟩
    · have codes := differ (by simp [ApiError.statusCode]) answer answer'
      simp only [codes, unknown, foreign', iff_true]
    · simp only [same answer answer', unknown, unknown']

/-- `decide_action` does not tell other tenants' actions from unknown ones, unless an approver
    asks. -/
theorem decide_noninterfering_iff (formed : s.Formed names) (formed' : s'.Formed names)
    (notAdmin : .admin ∉ principal.roles)
    (agree : s.restrict principal.tenantId = s'.restrict principal.tenantId) :
    Noninterfering schemas draws principal (.decideAction actionId request) s s' ↔
      (principal.hasRole .approver = true →
        (s.Foreign principal.tenantId actionId ↔ s'.Foreign principal.tenantId actionId)) := by
  cases approver : principal.hasRole .approver with
  | false =>
    simp only [Bool.false_eq_true, false_implies, iff_true]
    exact noninterfering_of_quiet (respond_decide (decideAction_unentitled approver))
      (respond_decide (decideAction_unentitled approver))
  | true =>
    simp only [true_implies]
    -- the own action is there in both states or in neither
    by_cases held : ∃ action, s.actions.actions actionId = some action ∧
        action.tenantId = principal.tenantId
    · obtain ⟨action, found, own⟩ := held
      have found' := agree_own agree found own
      have notForeign {s : ApiState} (found : s.actions.actions actionId = some action) :
          ¬ s.Foreign principal.tenantId actionId := by
        rintro ⟨action', found', foreign⟩
        cases found.symm.trans found'
        exact foreign own
      have both : Noninterfering schemas draws principal (.decideAction actionId request) s s' :=
        decide_noninterfering_own formed formed' approver found found' own
      simp only [both, notForeign found, notForeign found']
    · have notOwn : ∀ action, s.actions.actions actionId = some action →
          action.tenantId ≠ principal.tenantId :=
        fun action found own => held ⟨action, found, own⟩
      have notOwn' : ∀ action, s'.actions.actions actionId = some action →
          action.tenantId ≠ principal.tenantId :=
        fun action found own => held ⟨action, agree_own agree.symm found own, own⟩
      exact decide_noninterfering_not_own notAdmin approver notOwn notOwn'

/-! ## `propose_case_action` -/

variable {proposal : ActionProposalRequest} {review : ReviewResult}

/-- The action that `LocalApprovalWorkflow` has started. -/
def startedAction (principal : Principal) (proposal : ActionProposalRequest) (action : GovernedAction) :
    GovernedAction :=
  { action with
    workflowExecutionArn :=
      some ("local://approval/" ++ (actionIdFor principal.tenantId proposal.idempotencyKey).str) }

/-- The request gets as far as a new action. -/
structure Creates (draws : Draws) (s : ApiState) (principal : Principal) (caseId : UUID)
    (proposal : ActionProposalRequest) (supplierCase : SupplierCase) (review : ReviewResult)
    (action : GovernedAction) : Prop where
  authorized : getAuthorizedCase s.cases caseId principal = .ok supplierCase
  reviewed : s.cases.getLatestReview caseId = .ok review
  prepared : prepareAction ⟨supplierCase, review, proposal, principal⟩ (draws.ambient 0).now = .ok action
  isNew : s.actions.idempotency (principal.tenantId, proposal.idempotencyKey) = none

theorem prepareProposal_eq (r : ProposeRequest) :
    GovernanceService.prepareProposal inMemoryActionRepository r
      (proposeMoment draws r.principal r.request) =
    (prepareAction r (draws.ambient 0).now).map (startedAction r.principal r.request) := by
  simp only [GovernanceService.prepareProposal, inMemoryActionRepository, proposeMoment]
  cases prepareAction r (draws.ambient 0).now <;> rfl

/-- What a prepared action says. -/
structure ProposedFor (principal : Principal) (supplierCase : SupplierCase)
    (proposal : ActionProposalRequest) (action : GovernedAction) : Prop where
  id : action.id = actionIdFor principal.tenantId proposal.idempotencyKey
  caseId : action.caseId = supplierCase.id
  tenantId : action.tenantId = supplierCase.tenantId
  key : action.idempotencyKey = proposal.idempotencyKey

theorem proposedFor_of_prepared
    (prepared : prepareAction ⟨supplierCase, review, proposal, principal⟩ (draws.ambient 0).now =
      .ok action) :
    ProposedFor principal supplierCase proposal (startedAction principal proposal action) := by
  obtain ⟨_, _, _, arguments, isProposed⟩ := prepareAction_ok prepared
  rw [isProposed]
  exact ⟨rfl, rfl, rfl, rfl⟩

theorem prepareProposal_started
    (prepared : prepareAction ⟨supplierCase, review, proposal, principal⟩ (draws.ambient 0).now =
      .ok action) :
    GovernanceService.prepareProposal inMemoryActionRepository
      ⟨supplierCase, review, proposal, principal⟩ (proposeMoment draws principal proposal) =
      .ok (startedAction principal proposal action) := by
  rw [prepareProposal_eq ⟨supplierCase, review, proposal, principal⟩, prepared]
  rfl

theorem ProposedFor.tenantKey (isFor : ProposedFor principal supplierCase proposal action)
    (isTenant : supplierCase.tenantId = principal.tenantId) :
    action.tenantKey = (principal.tenantId, proposal.idempotencyKey) := by
  rw [GovernedAction.tenantKey, isFor.tenantId, isFor.key, isTenant]

/-- A proposal whose key the tenant has used. -/
theorem proposeCaseAction_existing
    (authorized : getAuthorizedCase s.cases caseId principal = .ok supplierCase)
    (reviewed : s.cases.getLatestReview caseId = .ok review)
    (prepared : prepareAction ⟨supplierCase, review, proposal, principal⟩ (draws.ambient 0).now =
      .ok action)
    (isTenant : supplierCase.tenantId = principal.tenantId) {stored : GovernedAction}
    (indexed : s.actions.idempotency (principal.tenantId, proposal.idempotencyKey) = some actionId)
    (found : s.actions.actions actionId = some stored) :
    proposeCaseAction draws s caseId proposal principal =
      (s, (settleProposal (startedAction principal proposal action) stored).mapError proposeError) := by
  have key := (proposedFor_of_prepared prepared).tenantKey isTenant
  have created : inMemoryActionRepository.createProposal s.governed
      (startedAction principal proposal action)
      (proposedEvent (startedAction principal proposal action))
      (startMessage (startedAction principal proposal action))
      (proposeMoment draws principal proposal).ambient = (s.governed, .ok (stored, false)) := by
    simp [inMemoryActionRepository, InMemoryActionRepository.createProposal, ApiState.governed, key,
      indexed, found]
  simp only [proposeCaseAction, authorized, reviewed, GovernanceService.propose,
    prepareProposal_started prepared, created]
  rfl

/-- A new proposal. -/
theorem proposeCaseAction_new (formed : s.Formed names)
    (creates : Creates draws s principal caseId proposal supplierCase review action)
    (found : s.cases.cases caseId = some supplierCase)
    (isTenant : supplierCase.tenantId = principal.tenantId) :
    ∃ cases', WritesCase principal.tenantId s.cases cases' (·.appendAuditEvent (draws.ambient 1)
        (proposedEvent (startedAction principal proposal action))) ∧
      proposeCaseAction draws s caseId proposal principal =
        ({ s with
            actions := s.actions.storeProposal (startedAction principal proposal action)
            cases := cases' }, .ok (startedAction principal proposal action)) := by
  have isFor := proposedFor_of_prepared creates.prepared
  have key := isFor.tenantKey isTenant
  have owned : owns s.cases principal.tenantId
      (proposedEvent (startedAction principal proposal action)).caseId = true := by
    have sameCase : (proposedEvent (startedAction principal proposal action)).caseId = caseId :=
      isFor.caseId.trans (formed.app.keyed caseId supplierCase found)
    rw [sameCase]
    exact owns_iff.mpr ⟨supplierCase, found, isTenant⟩
  obtain ⟨cases', written, _⟩ := appendAuditEvent_writes owned (draws.ambient 1)
  have appended : s.cases.appendAuditEvent (draws.ambient 1)
      (proposedEvent (startedAction principal proposal action)) = .ok cases' := written.made
  have created : inMemoryActionRepository.createProposal s.governed
      (startedAction principal proposal action)
      (proposedEvent (startedAction principal proposal action))
      (startMessage (startedAction principal proposal action))
      (proposeMoment draws principal proposal).ambient =
      (⟨s.actions.storeProposal (startedAction principal proposal action), cases'⟩,
        .ok (startedAction principal proposal action, true)) := by
    simp [inMemoryActionRepository, InMemoryActionRepository.createProposal, ApiState.governed,
      proposeMoment, key, creates.isNew, appended]
  have settled (action : GovernedAction) : settleProposal action action = .ok action := by
    simp [settleProposal]
  refine ⟨cases', written, ?_⟩
  simp only [proposeCaseAction, creates.authorized, creates.reviewed, GovernanceService.propose,
    prepareProposal_started creates.prepared, created, settled]
  rfl

/-- The new action takes the identifier of another tenant's, or of none. -/
theorem storeProposal_others (repo : InMemoryActionRepository) (own : action.tenantId = tenantId) :
    (∀ other ≠ tenantId, restrictActions other (repo.storeProposal action) = restrictActions other repo) ↔
      ¬ ∃ old, repo.actions action.id = some old ∧ old.tenantId ≠ tenantId := by
  constructor
  · -- the owner of the old action loses it
    rintro unchanged ⟨old, found, foreign⟩
    have same := congrArg (fun repo => repo.actions action.id) (unchanged old.tenantId foreign)
    simp only [restrictActions, InMemoryActionRepository.storeProposal, Function.update_self, found,
      Option.filter_some, own, foreign.symm, decide_false, decide_true, if_true] at same
    cases same
  · intro free other differ
    have notOther : tenantId ≠ other := differ.symm
    simp only [restrictActions, InMemoryActionRepository.storeProposal,
      InMemoryActionRepository.mk.injEq]
    refine ⟨?_, ?_⟩
    · funext id
      by_cases here : id = action.id
      · subst here
        cases found : repo.actions action.id with
        | none => simp [own, notOther, Option.filter_some]
        | some old =>
          have isOwn : old.tenantId = tenantId := by
            by_contra foreign
            exact free ⟨old, found, foreign⟩
          simp [own, isOwn, notOther, Option.filter_some]
      · simp [here]
    · funext key
      by_cases ofOther : key.1 = other
      · have notKey : key ≠ action.tenantKey := by
          intro same
          rw [same] at ofOther
          exact notOther (own.symm.trans ofOther)
        simp [notKey]
      · simp [ofOther]

/-- Both states give the same answer and write nothing. -/
theorem propose_noninterfering_of_quiet {answer : Except ApiError GovernedAction}
    (quiet : proposeCaseAction draws s caseId proposal principal = (s, answer))
    (quiet' : proposeCaseAction draws s' caseId proposal principal = (s', answer)) :
    Noninterfering schemas draws principal (.proposeCaseAction caseId proposal) s s' := by
  have response {s : ApiState} (quiet : proposeCaseAction draws s caseId proposal principal = (s, answer)) :
      respond schemas draws s principal (.proposeCaseAction caseId proposal) =
        (s, httpResponse 201 (answer.map .action)) := by
    simp only [respond, quiet]
  exact noninterfering_of_quiet (response quiet) (response quiet')

theorem agree_authorized (notAdmin : .admin ∉ principal.roles)
    (agree : s.restrict principal.tenantId = s'.restrict principal.tenantId) :
    getAuthorizedCase s'.cases caseId principal = getAuthorizedCase s.cases caseId principal := by
  rw [← getAuthorizedCase_restrict notAdmin, ← agree_cases agree, getAuthorizedCase_restrict notAdmin]

theorem agree_latestReview (agree : s.restrict tenantId = s'.restrict tenantId)
    (owned : owns s.cases tenantId caseId = true) (owned' : owns s'.cases tenantId caseId = true) :
    s'.cases.getLatestReview caseId = s.cases.getLatestReview caseId := by
  rw [← (restrictCases_reads owned).1, ← (restrictCases_reads owned').1, agree_cases agree]

/-- The tenant's key leads to an action of another tenant: its case is another one. -/
theorem settleProposal_foreign (formed : s.Formed names) {stored : GovernedAction}
    (found : s.actions.actions actionId = some stored) (foreign : stored.tenantId ≠ tenantId)
    (owned : owns s.cases tenantId action.caseId = true) :
    settleProposal action stored = .error
      (.idempotencyConflict "The idempotency key is already associated with another proposal") := by
  have cased := formed.cased actionId stored found
  have differ : stored.caseId ≠ action.caseId := by
    intro same
    rw [same, owns_other owned foreign] at cased
    cases cased
  simp [settleProposal, differ]

/-- A key that the tenant has used. -/
theorem propose_noninterfering_existing (formed : s.Formed names) (formed' : s'.Formed names)
    (agree : s.restrict principal.tenantId = s'.restrict principal.tenantId)
    (authorized : getAuthorizedCase s.cases caseId principal = .ok supplierCase)
    (authorized' : getAuthorizedCase s'.cases caseId principal = .ok supplierCase)
    (reviewed : s.cases.getLatestReview caseId = .ok review)
    (reviewed' : s'.cases.getLatestReview caseId = .ok review)
    (prepared : prepareAction ⟨supplierCase, review, proposal, principal⟩ (draws.ambient 0).now =
      .ok action)
    (isTenant : supplierCase.tenantId = principal.tenantId)
    (owned : owns s.cases principal.tenantId supplierCase.id = true)
    (owned' : owns s'.cases principal.tenantId supplierCase.id = true)
    (indexed : s.actions.idempotency (principal.tenantId, proposal.idempotencyKey) = some actionId) :
    Noninterfering schemas draws principal (.proposeCaseAction caseId proposal) s s' := by
  have indexed' := (agree_idempotency agree proposal.idempotencyKey).symm.trans indexed
  obtain ⟨stored, found⟩ := formed.indexed _ _ indexed
  obtain ⟨stored', found'⟩ := formed'.indexed _ _ indexed'
  have existing := proposeCaseAction_existing authorized reviewed prepared isTenant indexed found
  have existing' := proposeCaseAction_existing authorized' reviewed' prepared isTenant indexed' found'
  by_cases own : stored.tenantId = principal.tenantId
  · cases found'.symm.trans (agree_own agree found own)
    exact propose_noninterfering_of_quiet existing existing'
  · have own' : stored'.tenantId ≠ principal.tenantId := by
      intro own'
      cases found.symm.trans (agree_own agree.symm found' own')
      exact own own'
    have sameCase := (proposedFor_of_prepared prepared).caseId
    rw [← sameCase] at owned owned'
    rw [settleProposal_foreign formed found own owned] at existing
    rw [settleProposal_foreign formed' found' own' owned'] at existing'
    exact propose_noninterfering_of_quiet existing existing'

/-- A new action in both states. -/
theorem propose_noninterfering_new (formed : s.Formed names) (formed' : s'.Formed names)
    (creates : Creates draws s principal caseId proposal supplierCase review action)
    (creates' : Creates draws s' principal caseId proposal supplierCase review action)
    (found : s.cases.cases caseId = some supplierCase)
    (found' : s'.cases.cases caseId = some supplierCase)
    (isTenant : supplierCase.tenantId = principal.tenantId) :
    Noninterfering schemas draws principal (.proposeCaseAction caseId proposal) s s' ↔
      ¬ s.Foreign principal.tenantId (actionIdFor principal.tenantId proposal.idempotencyKey) ∧
      ¬ s'.Foreign principal.tenantId (actionIdFor principal.tenantId proposal.idempotencyKey) := by
  have isFor := proposedFor_of_prepared creates.prepared
  have own : (startedAction principal proposal action).tenantId = principal.tenantId :=
    isFor.tenantId.trans isTenant
  obtain ⟨cases₁, written, created⟩ := proposeCaseAction_new formed creates found isTenant
  obtain ⟨cases₂, written', created'⟩ := proposeCaseAction_new formed' creates' found' isTenant
  have others := storeProposal_others s.actions own
  have others' := storeProposal_others s'.actions own
  rw [isFor.id] at others others'
  constructor
  · -- the new action hides the action of another tenant under its identifier
    intro noninterfering
    refine ⟨others.mp ?_, others'.mp ?_⟩
    · intro other differ
      have unchanged := noninterfering.unchanged other differ
      simp only [respond, created] at unchanged
      exact congrArg ApiState.actions unchanged
    · intro other differ
      have unchanged := noninterfering.unchanged' other differ
      simp only [respond, created'] at unchanged
      exact congrArg ApiState.actions unchanged
  · rintro ⟨free, free'⟩
    refine ⟨?_, ?_, ?_⟩
    · simp only [respond, created, created']
    · intro other differ
      simp only [respond, created, ApiState.restrict, written.others other differ,
        others.mpr free other differ]
    · intro other differ
      simp only [respond, created', ApiState.restrict, written'.others other differ,
        others'.mpr free' other differ]

/-- The request does not come upon another tenant's action: an approver decides on an identifier
    that is another tenant's in both states or in neither, and a new proposal does not get an
    identifier that another tenant's action has. -/
def Separated (draws : Draws) (principal : Principal) (s s' : ApiState) : Endpoint → Prop
  | .decideAction actionId _ => principal.hasRole .approver = true →
      (s.Foreign principal.tenantId actionId ↔ s'.Foreign principal.tenantId actionId)
  | .proposeCaseAction caseId proposal =>
      (∃ supplierCase review action,
        Creates draws s principal caseId proposal supplierCase review action) →
      ¬ s.Foreign principal.tenantId (actionIdFor principal.tenantId proposal.idempotencyKey) ∧
      ¬ s'.Foreign principal.tenantId (actionIdFor principal.tenantId proposal.idempotencyKey)
  | _ => True

/-- A request that writes nothing in either state. -/
theorem propose_iff_of_quiet (answer : Except ApiError GovernedAction)
    (nothing : ∀ supplierCase review action,
      ¬ Creates draws s principal caseId proposal supplierCase review action)
    (quiet : proposeCaseAction draws s caseId proposal principal = (s, answer))
    (quiet' : proposeCaseAction draws s' caseId proposal principal = (s', answer)) :
    Noninterfering schemas draws principal (.proposeCaseAction caseId proposal) s s' ↔
      Separated draws principal s s' (.proposeCaseAction caseId proposal) := by
  refine ⟨?_, fun _ => propose_noninterfering_of_quiet quiet quiet'⟩
  rintro _ ⟨supplierCase, review, action, creates⟩
  exact absurd creates (nothing supplierCase review action)

/-- The checks of `propose` raise. -/
theorem proposeCaseAction_refused {e : GovernanceError}
    (authorized : getAuthorizedCase s.cases caseId principal = .ok supplierCase)
    (reviewed : s.cases.getLatestReview caseId = .ok review)
    (refused : prepareAction ⟨supplierCase, review, proposal, principal⟩ (draws.ambient 0).now =
      .error e) :
    proposeCaseAction draws s caseId proposal principal = (s, .error (proposeError e)) := by
  have refused' : GovernanceService.prepareProposal inMemoryActionRepository
      ⟨supplierCase, review, proposal, principal⟩ (proposeMoment draws principal proposal) =
      .error e := by
    rw [prepareProposal_eq ⟨supplierCase, review, proposal, principal⟩, refused]
    rfl
  simp only [proposeCaseAction, authorized, reviewed, GovernanceService.propose, refused']
  rfl

theorem propose_noninterfering_iff (formed : s.Formed names) (formed' : s'.Formed names)
    (notAdmin : .admin ∉ principal.roles)
    (agree : s.restrict principal.tenantId = s'.restrict principal.tenantId) :
    Noninterfering schemas draws principal (.proposeCaseAction caseId proposal) s s' ↔
      Separated draws principal s s' (.proposeCaseAction caseId proposal) := by
  have authorized' : getAuthorizedCase s'.cases caseId principal =
      getAuthorizedCase s.cases caseId principal := agree_authorized notAdmin agree
  cases authorized : getAuthorizedCase s.cases caseId principal with
  | error e =>
    rw [authorized] at authorized'
    refine propose_iff_of_quiet (.error e) ?_ ?_ ?_
    · intro supplierCase review action creates
      cases authorized.symm.trans creates.authorized
    · simp only [proposeCaseAction, authorized]
    · simp only [proposeCaseAction, authorized']
  | ok supplierCase =>
    rw [authorized] at authorized'
    obtain ⟨found, isTenant⟩ := getAuthorizedCase_ok notAdmin authorized
    obtain ⟨found', _⟩ := getAuthorizedCase_ok notAdmin authorized'
    have owned := owns_iff.mpr ⟨supplierCase, found, isTenant⟩
    have owned' := owns_iff.mpr ⟨supplierCase, found', isTenant⟩
    have isCase := formed.app.keyed caseId supplierCase found
    have reviewed' := agree_latestReview agree owned owned'
    cases reviewed : s.cases.getLatestReview caseId with
    | error e =>
      rw [reviewed] at reviewed'
      have nothing : ∀ supplierCase review action,
          ¬ Creates draws s principal caseId proposal supplierCase review action := by
        intro supplierCase review action creates
        cases reviewed.symm.trans creates.reviewed
      cases e with
      | noReview missing =>
        refine propose_iff_of_quiet (.error (.conflict (LatestReviewError.noReview missing).text))
          nothing ?_ ?_
        · simp only [proposeCaseAction, authorized, reviewed]
        · simp only [proposeCaseAction, authorized', reviewed']
      | caseError e =>
        refine propose_iff_of_quiet (.error (.unhandled e.errorType)) nothing ?_ ?_
        · simp only [proposeCaseAction, authorized, reviewed]
        · simp only [proposeCaseAction, authorized', reviewed']
    | ok review =>
      rw [reviewed] at reviewed'
      cases prepared : prepareAction ⟨supplierCase, review, proposal, principal⟩
          (draws.ambient 0).now with
      | error e =>
        refine propose_iff_of_quiet (.error (proposeError e)) ?_
          (proposeCaseAction_refused authorized reviewed prepared)
          (proposeCaseAction_refused authorized' reviewed' prepared)
        intro other review' action creates
        cases authorized.symm.trans creates.authorized
        cases reviewed.symm.trans creates.reviewed
        cases prepared.symm.trans creates.prepared
      | ok action =>
        cases indexed : s.actions.idempotency (principal.tenantId, proposal.idempotencyKey) with
        | some actionId =>
          refine ⟨?_, fun _ => ?_⟩
          · rintro _ ⟨_, _, _, creates⟩
            cases indexed.symm.trans creates.isNew
          · rw [← isCase] at owned owned'
            exact propose_noninterfering_existing formed formed' agree authorized authorized' reviewed
              reviewed' prepared isTenant owned owned' indexed
        | none =>
          have indexed' := (agree_idempotency agree proposal.idempotencyKey).symm.trans indexed
          have creates : Creates draws s principal caseId proposal supplierCase review action :=
            ⟨authorized, reviewed, prepared, indexed⟩
          have creates' : Creates draws s' principal caseId proposal supplierCase review action :=
            ⟨authorized', reviewed', prepared, indexed'⟩
          have new : Noninterfering schemas draws principal (.proposeCaseAction caseId proposal) s s' ↔ _ :=
            propose_noninterfering_new formed formed' creates creates' found found' isTenant
          exact ⟨fun noninterfering _ => new.mp noninterfering,
            fun separated => new.mpr (separated ⟨_, _, _, creates⟩)⟩

end

end SupplierAssurance.Api
