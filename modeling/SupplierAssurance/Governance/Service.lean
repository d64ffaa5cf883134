import SupplierAssurance.Governance.Repository

/-! # `GovernanceService` over the SQL repository

The service reads an action in one transaction and writes a changed copy of it in a
later one, so a call is a small state machine: a `Call` says which transaction (or which
call of the supplier system) comes next and holds the local variables that are live
there.  `Call.advance` runs exactly one of them.  Everything between two awaits — the
policy checks, the construction of the new action — is a pure function.

The supplier system is a parameter: a state `σ`, and inputs `ε` of its own that are
drawn afresh for each call.
-/

namespace SupplierAssurance.Governance

open Python Lib
open SqlAlchemyActionRepository (getByIdempotency saveTransition)

/-- `SupplierSystem.set_onboarding_decision`; an error is the exception it raises. -/
structure SupplierSystem (σ ε : Type) where
  setOnboardingDecision : σ → ε → (actionId idempotencyKey : UUID) →
    SupplierDecisionArguments → σ × Except String ExecutionReceipt

theorem externalReference_bounded (actionId : UUID) :
    Bounded 1 255 ("supplier-system://decisions/" ++ actionId.str) := by
  have length : ("supplier-system://decisions/" ++ actionId.str).length = 64 := by
    rw [String.length_append, UUID.str_length]
    rfl
  constructor <;> omega

/-- `InMemorySupplierSystem`.  Its state is the dictionary `_receipts`, which is keyed by the
    idempotency key alone; its input is the clock. -/
def inMemorySupplierSystem : SupplierSystem (List (UUID × ExecutionReceipt)) Datetime where
  setOnboardingDecision receipts now actionId idempotencyKey arguments :=
    match receipts.lookup idempotencyKey with
    | some existing => (receipts, .ok existing)
    | none =>
      let receipt : ExecutionReceipt := {
        actionId := actionId
        externalReference := "supplier-system://decisions/" ++ actionId.str
        appliedDecision := arguments.decision
        executedAt := now
        externalReference_bounded := externalReference_bounded actionId }
      (receipts ++ [(idempotencyKey, receipt)], .ok receipt)

/-! ## Policy -/

def requireRole (principal : Principal) (role : Role) : Except GovernanceError Unit :=
  if principal.hasRole role then .ok ()
  else .error (.authorizationDenied ("The " ++ role.value ++ " role is required"))

def requireTenant (principal : Principal) (tenantId : String) : Except GovernanceError Unit :=
  if .admin ∉ principal.roles ∧ principal.tenantId ≠ tenantId then
    .error (.authorizationDenied "The resource belongs to another tenant")
  else .ok ()

/-! ## The pure parts of `propose` -/

structure ProposeRequest where
  supplierCase : SupplierCase
  review : ReviewResult
  request : ActionProposalRequest
  principal : Principal
deriving DecidableEq

/-- `uuid5(NAMESPACE_URL, f"{principal.tenant_id}:{request.idempotency_key}")`. -/
def actionIdFor (tenantId : String) (idempotencyKey : UUID) : UUID :=
  uuid5 NAMESPACE_URL (tenantId ++ ":" ++ idempotencyKey.str)

def proposedAction (r : ProposeRequest) (now : Datetime) (arguments : SupplierDecisionArguments) :
    GovernedAction where
  id := actionIdFor r.principal.tenantId r.request.idempotencyKey
  caseId := r.supplierCase.id
  reviewId := r.review.reviewId
  tenantId := r.supplierCase.tenantId
  toolName := "supplier.set_onboarding_decision"
  arguments := arguments
  status := .pendingApproval
  proposerId := r.principal.subject
  approverId := none
  approvalComment := ""
  idempotencyKey := r.request.idempotencyKey
  workflowExecutionArn := none
  executionReceipt := none
  createdAt := now
  decidedAt := none
  executedAt := none

/-- The action that `propose` builds; `none` is a `ValidationError` of the arguments. -/
def buildAction (r : ProposeRequest) (now : Datetime) : Option GovernedAction :=
  (SupplierDecisionArguments.validate? r.supplierCase.id r.review.reviewId
    r.review.recommendation.decision r.review.recommendation.rationale
    r.review.recommendation.requiredActions).map (proposedAction r now)

/-- The checks of `propose` and the construction of the action. -/
def prepareAction (r : ProposeRequest) (now : Datetime) : Except GovernanceError GovernedAction := do
  requireRole r.principal .analyst
  requireTenant r.principal r.supplierCase.tenantId
  if r.review.caseId ≠ r.supplierCase.id then
    throw (.valueError "The review does not belong to the supplier case")
  match buildAction r now with
  | none => throw .validationError
  | some action => return action

def proposedEvent (action : GovernedAction) : AuditEventCreate where
  caseId := action.caseId
  eventType := "action.proposed"
  actorId := action.proposerId
  payload := [("action_id", .str action.id.str), ("review_id", .str action.reviewId.str),
    ("tool_name", .str action.toolName)]

def startMessage (action : GovernedAction) : OutboxMessageCreate where
  aggregateType := "governed_action"
  aggregateId := action.id
  eventType := approvalWorkflowStart
  payload := ⟨action.id, action.caseId, action.tenantId⟩

/-- The last check of `propose`, on what `create_proposal` returned. -/
def settleProposal (action stored : GovernedAction) : Except GovernanceError GovernedAction :=
  if stored.caseId ≠ action.caseId ∨ stored.reviewId ≠ action.reviewId then
    .error (.idempotencyConflict "The idempotency key is already associated with another proposal")
  else .ok stored

/-! ## The pure parts of `decide` -/

def decidedStatus : ApprovalDecision → ActionStatus
  | .approve => .approved
  | .reject => .rejected

/-- The checks of `decide` on the action it read, and the copy it will write. -/
def judge (action : GovernedAction) (request : ApprovalRequest) (principal : Principal)
    (now : Datetime) : Except GovernanceError GovernedAction := do
  requireTenant principal action.tenantId
  if action.proposerId = principal.subject then
    throw (.authorizationDenied "A proposer cannot approve their own action")
  if action.status ≠ .pendingApproval then
    throw (.actionState ("Action " ++ action.id.str ++ " is already " ++ action.status.value))
  return { action with
    status := decidedStatus request.decision
    approverId := some principal.subject
    approvalComment := request.comment
    decidedAt := some now }

def decidedEvent (decided : GovernedAction) (principal : Principal) : AuditEventCreate where
  caseId := decided.caseId
  eventType := "action." ++ decided.status.value
  actorId := principal.subject
  payload := [("action_id", .str decided.id.str), ("comment", .str decided.approvalComment)]

/-! ## The pure parts of `execute` -/

/-- What `execute` does with the action it read: answer with its receipt, or go on to the
    supplier system. -/
def planExecution (action : GovernedAction) (principal : Principal) :
    Except GovernanceError (Option ExecutionReceipt) := do
  requireTenant principal action.tenantId
  match action.status, action.executionReceipt with
  | .executed, some receipt => return some receipt
  | .approved, _ => return none
  | _, _ => throw (.actionState ("Action " ++ action.id.str ++ " is not approved"))

def executedAction (action : GovernedAction) (receipt : ExecutionReceipt) : GovernedAction :=
  { action with
    status := .executed
    executionReceipt := some receipt
    executedAt := some receipt.executedAt }

def executedEvent (executed : GovernedAction) (receipt : ExecutionReceipt) (principal : Principal) :
    AuditEventCreate where
  caseId := executed.caseId
  eventType := "action.executed"
  actorId := principal.subject
  payload := [("action_id", .str executed.id.str),
    ("external_reference", .str receipt.externalReference)]

/-! ## What the checks ensure -/

section Checks

variable {principal : Principal} {role : Role} {tenantId : String} {action decided : GovernedAction}
  {request : ApprovalRequest} {receipt : ExecutionReceipt} {now : Datetime}

theorem requireRole_ok {u : Unit} (passed : requireRole principal role = .ok u) :
    principal.hasRole role = true := by
  unfold requireRole at passed
  split at passed
  · assumption
  · cases passed

theorem requireTenant_ok {u : Unit} (passed : requireTenant principal tenantId = .ok u) :
    .admin ∈ principal.roles ∨ principal.tenantId = tenantId := by
  unfold requireTenant at passed
  split at passed
  · cases passed
  next allowed =>
    by_cases admin : .admin ∈ principal.roles
    · exact .inl admin
    · exact .inr (not_not.mp fun other => allowed ⟨admin, other⟩)

theorem prepareAction_ok {r : ProposeRequest} (prepared : prepareAction r now = .ok action) :
    r.principal.hasRole .analyst = true ∧
      (.admin ∈ r.principal.roles ∨ r.principal.tenantId = r.supplierCase.tenantId) ∧
      r.review.caseId = r.supplierCase.id ∧ ∃ arguments, action = proposedAction r now arguments := by
  unfold prepareAction at prepared
  cases role : requireRole r.principal .analyst with
  | error e => simp [role, bind, Except.bind] at prepared
  | ok u =>
    cases tenant : requireTenant r.principal r.supplierCase.tenantId with
    | error e => simp [role, tenant, bind, Except.bind] at prepared
    | ok v =>
      by_cases own : r.review.caseId = r.supplierCase.id
      · cases built : buildAction r now with
        | none =>
          simp [role, tenant, own, built, bind, Except.bind, throw, throwThe,
            MonadExceptOf.throw] at prepared
        | some a =>
          simp only [role, tenant, own, built, bind, Except.bind, pure, Except.pure, ne_eq,
            not_true_eq_false, if_false, Except.ok.injEq] at prepared
          subst prepared
          obtain ⟨arguments, _, rfl⟩ := Option.map_eq_some_iff.mp built
          exact ⟨requireRole_ok role, requireTenant_ok tenant, own, arguments, rfl⟩
      · simp [role, tenant, own, bind, Except.bind, throw, throwThe, MonadExceptOf.throw] at prepared

theorem judge_ok (judged : judge action request principal now = .ok decided) :
    (.admin ∈ principal.roles ∨ principal.tenantId = action.tenantId) ∧
      action.proposerId ≠ principal.subject ∧ action.status = .pendingApproval ∧
      decided = { action with
        status := decidedStatus request.decision
        approverId := some principal.subject
        approvalComment := request.comment
        decidedAt := some now } := by
  unfold judge at judged
  cases tenant : requireTenant principal action.tenantId with
  | error e => simp [tenant, bind, Except.bind] at judged
  | ok u =>
    by_cases own : action.proposerId = principal.subject
    · simp [tenant, own, bind, Except.bind, throw, throwThe, MonadExceptOf.throw] at judged
    · by_cases pending : action.status = .pendingApproval
      · simp only [tenant, own, pending, bind, Except.bind, pure, Except.pure, if_false, ne_eq,
          not_true_eq_false, Except.ok.injEq] at judged
        exact ⟨requireTenant_ok tenant, own, pending, judged.symm⟩
      · simp [tenant, own, pending, bind, Except.bind, throw, throwThe, MonadExceptOf.throw] at judged

theorem planExecution_receipt (planned : planExecution action principal = .ok (some receipt)) :
    action.status = .executed ∧ action.executionReceipt = some receipt := by
  unfold planExecution at planned
  cases tenant : requireTenant principal action.tenantId with
  | error e => simp [tenant, bind, Except.bind] at planned
  | ok u =>
    simp only [tenant, bind, Except.bind] at planned
    split at planned
    next executed stored =>
      cases planned
      exact ⟨executed, stored⟩
    next => cases planned
    next => cases planned

theorem planExecution_apply (planned : planExecution action principal = .ok none) :
    action.status = .approved := by
  unfold planExecution at planned
  cases tenant : requireTenant principal action.tenantId with
  | error e => simp [tenant, bind, Except.bind] at planned
  | ok u =>
    simp only [tenant, bind, Except.bind] at planned
    split at planned
    next => cases planned
    next approved => exact approved
    next => cases planned

end Checks

/-! ## Calls -/

inductive Request where
  | propose (r : ProposeRequest)
  | decide (actionId : UUID) (request : ApprovalRequest) (principal : Principal)
  | execute (actionId : UUID) (principal : Principal)

inductive Response where
  | action (a : GovernedAction)
  | receipt (r : ExecutionReceipt)
deriving DecidableEq

/-- Where a call stands.  Each constructor but the last names the transaction, or the call
    of the supplier system, that comes next. -/
inductive Call where
  | lookupProposal (action : GovernedAction)
  | insertProposal (action : GovernedAction)
  | reloadProposal (action : GovernedAction)
  | loadToDecide (actionId : UUID) (request : ApprovalRequest) (principal : Principal)
  | saveDecision (decided : GovernedAction) (principal : Principal)
  | loadToExecute (actionId : UUID) (principal : Principal)
  | applyDecision (action : GovernedAction) (principal : Principal)
  | saveExecution (action : GovernedAction) (receipt : ExecutionReceipt) (principal : Principal)
  | reloadExecution (actionId : UUID) (conflict : String)
  | returned (result : Except GovernanceError Response)

/-- What a run records beside the tables: each decision that was committed, with the
    principal that made it, and each call of the supplier system. -/
inductive Event where
  | decided (actionId : UUID) (principal : Principal) (status : ActionStatus)
  | applied (actionId idempotencyKey : UUID) (arguments : SupplierDecisionArguments)
deriving DecidableEq

/-- The part of a call before its first await. -/
def Call.enter (now : Datetime) : Request → Call
  | .propose r =>
    match prepareAction r now with
    | .error e => .returned (.error e)
    | .ok action => .lookupProposal action
  | .decide actionId request principal =>
    match requireRole principal .approver with
    | .error e => .returned (.error e)
    | .ok () => .loadToDecide actionId request principal
  | .execute actionId principal =>
    match requireRole principal .executor with
    | .error e => .returned (.error e)
    | .ok () => .loadToExecute actionId principal

structure Progress (σ : Type) where
  store : Store
  supplier : σ
  call : Call
  events : List Event

section Advance

variable {σ ε : Type} (system : SupplierSystem σ ε)

/-- One transaction of a call, or its call of the supplier system. -/
def Call.advance (db : Store) (supplier : σ) (ambient : Ambient) (input : ε) : Call → Progress σ
  | .lookupProposal action =>
    match getByIdempotency db action.tenantId action.idempotencyKey with
    | some existing => ⟨db, supplier, .returned ((settleProposal action existing).map .action), []⟩
    | none => ⟨db, supplier, .insertProposal action, []⟩
  | .insertProposal action =>
    match SqlAlchemyActionRepository.insertProposal db action (proposedEvent action)
        (startMessage action) ambient with
    | some db' => ⟨db', supplier, .returned ((settleProposal action action).map .action), []⟩
    | none => ⟨db, supplier, .reloadProposal action, []⟩
  | .reloadProposal action =>
    match getByIdempotency db action.tenantId action.idempotencyKey with
    | some existing => ⟨db, supplier, .returned ((settleProposal action existing).map .action), []⟩
    | none => ⟨db, supplier, .returned (.error .integrityError), []⟩
  | .loadToDecide actionId request principal =>
    match SqlAlchemyActionRepository.get db actionId with
    | .error e => ⟨db, supplier, .returned (.error e), []⟩
    | .ok action =>
      match judge action request principal ambient.now with
      | .error e => ⟨db, supplier, .returned (.error e), []⟩
      | .ok decided => ⟨db, supplier, .saveDecision decided principal, []⟩
  | .saveDecision decided principal =>
    match saveTransition db decided (decidedEvent decided principal) .pendingApproval ambient with
    | .ok db' => ⟨db', supplier, .returned (.ok (.action decided)),
        [.decided decided.id principal decided.status]⟩
    | .error (.transitionConflict detail) =>
      ⟨db, supplier, .returned (.error (.actionState detail)), []⟩
    | .error e => ⟨db, supplier, .returned (.error e), []⟩
  | .loadToExecute actionId principal =>
    match SqlAlchemyActionRepository.get db actionId with
    | .error e => ⟨db, supplier, .returned (.error e), []⟩
    | .ok action =>
      match planExecution action principal with
      | .error e => ⟨db, supplier, .returned (.error e), []⟩
      | .ok (some receipt) => ⟨db, supplier, .returned (.ok (.receipt receipt)), []⟩
      | .ok none => ⟨db, supplier, .applyDecision action principal, []⟩
  | .applyDecision action principal =>
    let (supplier', answer) := system.setOnboardingDecision supplier input action.id
      action.idempotencyKey action.arguments
    let call := match answer with
      | .ok receipt => .saveExecution action receipt principal
      | .error detail => .returned (.error (.supplierError detail))
    ⟨db, supplier', call, [.applied action.id action.idempotencyKey action.arguments]⟩
  | .saveExecution action receipt principal =>
    let executed := executedAction action receipt
    match saveTransition db executed (executedEvent executed receipt principal) .approved ambient with
    | .ok db' => ⟨db', supplier, .returned (.ok (.receipt receipt)), []⟩
    | .error (.transitionConflict detail) => ⟨db, supplier, .reloadExecution action.id detail, []⟩
    | .error e => ⟨db, supplier, .returned (.error e), []⟩
  | .reloadExecution actionId conflict =>
    match SqlAlchemyActionRepository.get db actionId with
    | .error e => ⟨db, supplier, .returned (.error e), []⟩
    | .ok current =>
      match current.status, current.executionReceipt with
      | .executed, some receipt => ⟨db, supplier, .returned (.ok (.receipt receipt)), []⟩
      | _, _ => ⟨db, supplier, .returned (.error (.actionState conflict)), []⟩
  | .returned result => ⟨db, supplier, .returned result, []⟩

end Advance

/-! ## What one step of a call can do

`Advances` lists the steps of a call by their effect.  Every invariant of the system is
proved by a case analysis on it, so `Call.advance` is taken apart only here. -/

/-- How a call ends without a commit of its own. -/
inductive Settles (db : Store) : Call → Except GovernanceError Response → Prop
  | failed {call : Call} (e : GovernanceError) : Settles db call (.error e)
  | looked {action existing : GovernedAction} :
      getByIdempotency db action.tenantId action.idempotencyKey = some existing →
      Settles db (.lookupProposal action) ((settleProposal action existing).map .action)
  | reloaded {action existing : GovernedAction} :
      getByIdempotency db action.tenantId action.idempotencyKey = some existing →
      Settles db (.reloadProposal action) ((settleProposal action existing).map .action)
  | replayed {action : GovernedAction} {principal : Principal} {receipt : ExecutionReceipt} :
      action ∈ db.actions.rows → action.status = .executed →
      action.executionReceipt = some receipt →
      Settles db (.loadToExecute action.id principal) (.ok (.receipt receipt))
  | overtaken {action : GovernedAction} {conflict : String} {receipt : ExecutionReceipt} :
      action ∈ db.actions.rows → action.status = .executed →
      action.executionReceipt = some receipt →
      Settles db (.reloadExecution action.id conflict) (.ok (.receipt receipt))
  | again (result : Except GovernanceError Response) : Settles db (.returned result) result

/-- The steps that read the database and change nothing but the call. -/
inductive Reads (db : Store) (now : Datetime) : Call → Call → Prop
  | toInsert {action : GovernedAction} :
      Reads db now (.lookupProposal action) (.insertProposal action)
  | toReload {action : GovernedAction} :
      Reads db now (.insertProposal action) (.reloadProposal action)
  | toSave {request : ApprovalRequest} {principal : Principal} {action decided : GovernedAction} :
      action ∈ db.actions.rows → judge action request principal now = .ok decided →
      Reads db now (.loadToDecide action.id request principal) (.saveDecision decided principal)
  | toApply {principal : Principal} {action : GovernedAction} :
      action ∈ db.actions.rows → planExecution action principal = .ok none →
      Reads db now (.loadToExecute action.id principal) (.applyDecision action principal)
  | toReconsider {action : GovernedAction} {receipt : ExecutionReceipt} {principal : Principal}
      {conflict : String} :
      Reads db now (.saveExecution action receipt principal) (.reloadExecution action.id conflict)
  | settles {call : Call} {result : Except GovernanceError Response} :
      Settles db call result → Reads db now call (.returned result)

/-- One step of a call, by its effect on the tables and on the supplier system. -/
inductive Advances {σ ε : Type} (system : SupplierSystem σ ε) (db : Store) (supplier : σ)
    (ambient : Ambient) (input : ε) : Call → Progress σ → Prop
  | reads {call call' : Call} : Reads db ambient.now call call' →
      Advances system db supplier ambient input call ⟨db, supplier, call', []⟩
  | inserts {action : GovernedAction} {db' : Store} :
      SqlAlchemyActionRepository.insertProposal db action (proposedEvent action)
        (startMessage action) ambient = some db' →
      Advances system db supplier ambient input (.insertProposal action)
        ⟨db', supplier, .returned (.ok (.action action)), []⟩
  | decides {decided : GovernedAction} {principal : Principal} {db' : Store} :
      saveTransition db decided (decidedEvent decided principal) .pendingApproval ambient = .ok db' →
      Advances system db supplier ambient input (.saveDecision decided principal)
        ⟨db', supplier, .returned (.ok (.action decided)),
          [.decided decided.id principal decided.status]⟩
  | applies {action : GovernedAction} {principal : Principal} {supplier' : σ}
      {receipt : ExecutionReceipt} :
      system.setOnboardingDecision supplier input action.id action.idempotencyKey
        action.arguments = (supplier', .ok receipt) →
      Advances system db supplier ambient input (.applyDecision action principal)
        ⟨db, supplier', .saveExecution action receipt principal,
          [.applied action.id action.idempotencyKey action.arguments]⟩
  | applyRaises {action : GovernedAction} {principal : Principal} {supplier' : σ}
      {detail : String} :
      system.setOnboardingDecision supplier input action.id action.idempotencyKey
        action.arguments = (supplier', .error detail) →
      Advances system db supplier ambient input (.applyDecision action principal)
        ⟨db, supplier', .returned (.error (.supplierError detail)),
          [.applied action.id action.idempotencyKey action.arguments]⟩
  | executes {action : GovernedAction} {receipt : ExecutionReceipt} {principal : Principal}
      {db' : Store} :
      saveTransition db (executedAction action receipt)
        (executedEvent (executedAction action receipt) receipt principal) .approved ambient = .ok db' →
      Advances system db supplier ambient input (.saveExecution action receipt principal)
        ⟨db', supplier, .returned (.ok (.receipt receipt)), []⟩

@[simp] theorem settleProposal_self (action : GovernedAction) :
    settleProposal action action = .ok action := by
  simp [settleProposal]

theorem Call.advance_cases {σ ε : Type} (system : SupplierSystem σ ε) (db : Store) (supplier : σ)
    (ambient : Ambient) (input : ε) (call : Call) :
    Advances system db supplier ambient input call
      (call.advance system db supplier ambient input) := by
  cases call with
  | lookupProposal action =>
    simp only [advance]
    split
    next found => exact .reads (.settles (.looked found))
    next => exact .reads .toInsert
  | insertProposal action =>
    simp only [advance]
    split
    next committed =>
      rw [settleProposal_self]
      exact .inserts committed
    next => exact .reads .toReload
  | reloadProposal action =>
    simp only [advance]
    split
    next found => exact .reads (.settles (.reloaded found))
    next => exact .reads (.settles (.failed _))
  | loadToDecide actionId request principal =>
    simp only [advance]
    split
    next => exact .reads (.settles (.failed _))
    next action loaded =>
      obtain ⟨member, rfl⟩ := SqlAlchemyActionRepository.get_ok loaded
      split
      next => exact .reads (.settles (.failed _))
      next judged => exact .reads (.toSave member judged)
  | saveDecision decided principal =>
    simp only [advance]
    split
    next committed => exact .decides committed
    next => exact .reads (.settles (.failed _))
    next => exact .reads (.settles (.failed _))
  | loadToExecute actionId principal =>
    simp only [advance]
    split
    next => exact .reads (.settles (.failed _))
    next action loaded =>
      obtain ⟨member, rfl⟩ := SqlAlchemyActionRepository.get_ok loaded
      split
      next => exact .reads (.settles (.failed _))
      next receipt planned =>
        obtain ⟨executed, stored⟩ := planExecution_receipt planned
        exact .reads (.settles (.replayed member executed stored))
      next planned => exact .reads (.toApply member planned)
  | applyDecision action principal =>
    simp only [advance]
    split
    next receipt answer =>
      exact .applies (Prod.ext rfl answer)
    next detail answer =>
      exact .applyRaises (Prod.ext rfl answer)
  | saveExecution action receipt principal =>
    simp only [advance]
    split
    next committed => exact .executes committed
    next => exact .reads .toReconsider
    next => exact .reads (.settles (.failed _))
  | reloadExecution actionId conflict =>
    simp only [advance]
    split
    next => exact .reads (.settles (.failed _))
    next current loaded =>
      obtain ⟨member, rfl⟩ := SqlAlchemyActionRepository.get_ok loaded
      split
      -- another execution was faster
      next executed stored => exact .reads (.settles (.overtaken member executed stored))
      next => exact .reads (.settles (.failed _))
  | returned result => exact .reads (.settles (.again result))

end SupplierAssurance.Governance
