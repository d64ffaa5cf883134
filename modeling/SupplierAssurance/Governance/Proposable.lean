import SupplierAssurance.Governance.Proposals
import SupplierAssurance.Governance.Sequential

/-! # Which completed reviews can be proposed

`propose` copies the rationale and the required actions of a recommendation into the arguments
of the action, whose schema bounds them; the schema of the recommendation does not.  For an
analyst of the case's tenant with a fresh key nothing else can go wrong, with either repository.
-/

namespace SupplierAssurance.Governance

open Python Lib Outbox
open World (CanCommit insertProposal_none_iff)

/-- The recommendation is within the bounds of `SupplierDecisionArguments`. -/
def FitsArguments (recommendation : Recommendation) : Prop :=
  1 ≤ recommendation.rationale.length ∧ recommendation.rationale.length ≤ 4000 ∧
    recommendation.requiredActions.length ≤ 100

instance (recommendation : Recommendation) : Decidable (FitsArguments recommendation) :=
  inferInstanceAs (Decidable (_ ∧ _ ∧ _))

/-- An analyst of the case's tenant proposes a review of the case. -/
structure Eligible (r : ProposeRequest) : Prop where
  analyst : r.principal.hasRole .analyst = true
  tenant : r.principal.tenantId = r.supplierCase.tenantId
  belongs : r.review.caseId = r.supplierCase.id

/-- The call returned the action of the review, pending approval. -/
def ReturnsPending (r : ProposeRequest) (answer : Except GovernanceError GovernedAction) : Prop :=
  ∃ action, answer = .ok action ∧ action.status = .pendingApproval ∧
    action.caseId = r.supplierCase.id ∧ action.reviewId = r.review.reviewId ∧
    action.arguments.decision = r.review.recommendation.decision ∧
    action.arguments.rationale = r.review.recommendation.rationale ∧
    action.arguments.requiredActions = r.review.recommendation.requiredActions

section

variable {r : ProposeRequest}

theorem buildAction_some (fits : FitsArguments r.review.recommendation) (now : Datetime) :
    ∃ arguments : SupplierDecisionArguments, buildAction r now = some (proposedAction r now arguments) ∧
      arguments.decision = r.review.recommendation.decision ∧
      arguments.rationale = r.review.recommendation.rationale ∧
      arguments.requiredActions = r.review.recommendation.requiredActions := by
  have bounds : Bounded 1 4000 r.review.recommendation.rationale ∧
      r.review.recommendation.requiredActions.length ≤ 100 := ⟨⟨fits.1, fits.2.1⟩, fits.2.2⟩
  rw [buildAction, SupplierDecisionArguments.validate?, dif_pos bounds]
  exact ⟨_, rfl, rfl, rfl, rfl⟩

theorem buildAction_none (unfit : ¬ FitsArguments r.review.recommendation) (now : Datetime) :
    buildAction r now = none := by
  have bounds : ¬ (Bounded 1 4000 r.review.recommendation.rationale ∧
      r.review.recommendation.requiredActions.length ≤ 100) :=
    fun bounds => unfit ⟨bounds.1.1, bounds.1.2, bounds.2⟩
  rw [buildAction, SupplierDecisionArguments.validate?, dif_neg bounds]
  rfl

/-- For an eligible request only the arguments of the action are checked. -/
theorem Eligible.prepareAction (eligible : Eligible r) (now : Datetime) :
    prepareAction r now =
      match buildAction r now with
      | none => .error .validationError
      | some action => .ok action := by
  have role : requireRole r.principal .analyst = .ok () := by
    rw [requireRole, if_pos eligible.analyst]
  have tenant : requireTenant r.principal r.supplierCase.tenantId = .ok () := by
    rw [requireTenant, if_neg]
    rintro ⟨_, other⟩
    exact other eligible.tenant
  unfold Governance.prepareAction
  rw [role, tenant]
  cases built : buildAction r now with
  | none =>
    simp only [eligible.belongs, ne_eq, not_true_eq_false, if_false, bind, Except.bind, throw,
      throwThe, MonadExceptOf.throw]
  | some action =>
    simp only [eligible.belongs, ne_eq, not_true_eq_false, if_false, bind, Except.bind, pure,
      Except.pure]

/-! ## The SQL repository -/

/-- The key of a request and the drawn identifiers are fresh, and its case and review are stored.  A
    key is fresh where nothing was proposed under it, by whatever tenant: the identifier that is
    derived from it is unused as well. -/
structure FreshSql (db : Store) (r : ProposeRequest) (ambient : Ambient) : Prop where
  case_ : r.supplierCase.id ∈ db.caseIds
  review : r.review.reviewId ∈ db.reviewIds
  key : ∀ a ∈ db.actions.rows, a.tenantKey ≠ (r.supplierCase.tenantId, r.request.idempotencyKey)
  actionId : ∀ a ∈ db.actions.rows, a.id ≠ actionIdFor r.principal.tenantId r.request.idempotencyKey
  auditId : ∀ e ∈ db.audit.rows, e.id ≠ ambient.uuid
  messageId : ∀ m ∈ db.outbox.rows, m.id ≠ ambient.uuid'
  /-- Every stored message is about a stored action. -/
  delivers : Delivers db.actions.rows db.outbox.rows

theorem FreshSql.createProposal {db : Store} {ambient : Ambient} (fresh : FreshSql db r ambient)
    (now : Datetime) (arguments : SupplierDecisionArguments) :
    let action := proposedAction r now arguments
    (sqlAlchemyActionRepository.createProposal db action (proposedEvent action)
      (startMessage action) ambient).2 = .ok (action, true) := by
  intro action
  have unused : SqlAlchemyActionRepository.getByIdempotency db action.tenantId
      action.idempotencyKey = none := Table.findAlt?_eq_none.mpr fresh.key
  have can : CanCommit db action ambient :=
    ⟨fresh.case_, fresh.review, fresh.key, fresh.auditId, fresh.messageId⟩
  cases committed : SqlAlchemyActionRepository.insertProposal db action (proposedEvent action)
      (startMessage action) ambient with
  | some db' => simp [sqlAlchemyActionRepository, unused, committed]
  | none =>
    obtain ⟨a, member, same⟩ := (insertProposal_none_iff fresh.delivers can).mp committed
    exact absurd same (fresh.actionId a member)

/-! ## The in-memory repository -/

/-- The key of a request is fresh and its case is stored. -/
structure FreshInMemory (state : AuditedRepository) (r : ProposeRequest) : Prop where
  case_ : ∃ supplierCase, state.cases.cases r.supplierCase.id = some supplierCase
  key : state.repo.idempotency (r.supplierCase.tenantId, r.request.idempotencyKey) = none

theorem FreshInMemory.createProposal {state : AuditedRepository} {ambient : Ambient}
    (fresh : FreshInMemory state r) {action : GovernedAction} (message : OutboxMessageCreate)
    (key : action.tenantKey = (r.supplierCase.tenantId, r.request.idempotencyKey))
    (onCase : action.caseId = r.supplierCase.id) :
    (inMemoryActionRepository.createProposal state action (proposedEvent action) message
      ambient).2 = .ok (action, true) := by
  obtain ⟨supplierCase, stored⟩ := fresh.case_
  have unused : state.repo.idempotency action.tenantKey = none := key ▸ fresh.key
  have audited : ∃ cases, state.cases.appendAuditEvent ambient (proposedEvent action) = .ok cases := by
    simp [InMemoryCaseRepository.appendAuditEvent, InMemoryCaseRepository.get, proposedEvent, onCase,
      stored, bind, Except.bind, pure, Except.pure]
  obtain ⟨cases, appended⟩ := audited
  simp [inMemoryActionRepository, unused, appended, InMemoryActionRepository.createProposal]

/-! ## `propose` -/

variable {ρ ε : Type} {repository : ActionRepository ρ} {state : ρ} {moment : Moment ε}

/-- Arguments out of bounds raise before anything is stored or started. -/
theorem propose_unfit (eligible : Eligible r) (unfit : ¬ FitsArguments r.review.recommendation) :
    GovernanceService.propose repository state r moment = (state, .error .validationError) := by
  have refused : GovernanceService.prepareProposal repository r moment = .error .validationError := by
    rw [GovernanceService.prepareProposal, eligible.prepareAction, buildAction_none unfit]
    rfl
  rw [GovernanceService.propose, refused]

theorem fits_of_returnsPending (eligible : Eligible r)
    (pending : ReturnsPending r (GovernanceService.propose repository state r moment).2) :
    FitsArguments r.review.recommendation := by
  obtain ⟨action, returned, _⟩ := pending
  by_contra unfit
  rw [propose_unfit eligible unfit] at returned
  cases returned

theorem propose_created {action : GovernedAction}
    (prepared : GovernanceService.prepareProposal repository r moment = .ok action)
    (created : (repository.createProposal state action (proposedEvent action) (startMessage action)
      moment.ambient).2 = .ok (action, true)) :
    (GovernanceService.propose repository state r moment).2 = .ok action := by
  simp only [GovernanceService.propose, prepared]
  generalize repository.createProposal state action (proposedEvent action) (startMessage action)
    moment.ambient = outcome at created
  obtain ⟨state', answer⟩ := outcome
  cases created
  exact settleProposal_self _

theorem ReturnsPending.of_proposed {now : Datetime} {arguments : SupplierDecisionArguments}
    {action : GovernedAction}
    (copied : arguments.decision = r.review.recommendation.decision ∧
      arguments.rationale = r.review.recommendation.rationale ∧
      arguments.requiredActions = r.review.recommendation.requiredActions)
    (built : { action with workflowExecutionArn := none } = proposedAction r now arguments) :
    ReturnsPending r (.ok action) := by
  have field {α : Type} (f : GovernedAction → α) (same : ∀ a : GovernedAction,
      f { a with workflowExecutionArn := none } = f a) :
      f action = f (proposedAction r now arguments) := by
    rw [← built, same]
  have given := field (·.arguments) fun _ => rfl
  refine ⟨action, rfl, field (·.status) fun _ => rfl, field (·.caseId) fun _ => rfl,
    field (·.reviewId) fun _ => rfl, ?_⟩
  rw [given]
  exact copied

theorem propose_sql_pending_iff {db : Store} (eligible : Eligible r)
    (fresh : FreshSql db r moment.ambient) :
    ReturnsPending r (GovernanceService.propose sqlAlchemyActionRepository db r moment).2 ↔
      FitsArguments r.review.recommendation := by
  constructor
  · exact fits_of_returnsPending eligible
  · intro fits
    obtain ⟨arguments, built, copied⟩ := buildAction_some fits moment.now
    have prepared : GovernanceService.prepareProposal sqlAlchemyActionRepository r moment =
        .ok (proposedAction r moment.now arguments) := by
      rw [GovernanceService.prepareProposal, eligible.prepareAction, built]
      rfl
    rw [propose_created prepared (fresh.createProposal moment.now arguments)]
    exact .of_proposed copied rfl

theorem propose_inMemory_pending_iff {state : AuditedRepository} {reference : String}
    (eligible : Eligible r) (fresh : FreshInMemory state r)
    (started : moment.workflow = .ok reference) :
    ReturnsPending r (GovernanceService.propose inMemoryActionRepository state r moment).2 ↔
      FitsArguments r.review.recommendation := by
  constructor
  · exact fits_of_returnsPending eligible
  · intro fits
    obtain ⟨arguments, built, copied⟩ := buildAction_some fits moment.now
    -- this repository has the workflow started before the action is stored
    let action : GovernedAction :=
      { proposedAction r moment.now arguments with workflowExecutionArn := some reference }
    have prepared : GovernanceService.prepareProposal inMemoryActionRepository r moment =
        .ok action := by
      rw [GovernanceService.prepareProposal, eligible.prepareAction, built, started]
      rfl
    rw [propose_created prepared (fresh.createProposal _ rfl rfl)]
    exact .of_proposed copied rfl

end

namespace OneReview

def supplierCase : SupplierCase where
  id := ⟨1⟩
  tenantId := "tenant-a"
  supplierName := "Acme"
  description := ""
  status := .inReview
  documents := []
  createdAt := 0
  updatedAt := 0
  tenantId_bounded := sampleTenant_bounded

/-- A completed review of the case with the given rationale. -/
def review (rationale : String) : ReviewResult where
  reviewId := ⟨2⟩
  caseId := ⟨1⟩
  findings := []
  recommendation := ⟨.approve, rationale, [], 1, certain_range⟩
  modelBackend := "openai"
  startedAt := 0
  completedAt := 1

/-- The proposal of the case's analyst. -/
def request (rationale : String) : ProposeRequest :=
  ⟨supplierCase, review rationale, ⟨⟨3⟩⟩,
    ⟨"ana", "tenant-a", [.analyst], sampleAnalyst_bounded, sampleTenant_bounded⟩⟩

theorem request_eligible (rationale : String) : Eligible (request rationale) :=
  ⟨rfl, rfl, rfl⟩

def moment : Moment Unit :=
  ⟨10, .ok "local://approval", ⟨10, ⟨5⟩, ⟨6⟩⟩, ()⟩

theorem freshSql (rationale : String) :
    FreshSql (Store.empty [⟨1⟩] [⟨2⟩]) (request rationale) moment.ambient where
  case_ := List.mem_singleton_self _
  review := List.mem_singleton_self _
  key := by simp [Store.empty]
  actionId := by simp [Store.empty]
  auditId := by simp [Store.empty]
  messageId := by simp [Store.empty]
  delivers := .nil

def state : AuditedRepository :=
  ⟨.empty, ⟨fun _ => some supplierCase, fun _ => [], fun _ => none, fun _ => []⟩⟩

theorem freshInMemory (rationale : String) : FreshInMemory state (request rationale) :=
  ⟨⟨supplierCase, rfl⟩, rfl⟩

end OneReview

end SupplierAssurance.Governance
