import SupplierAssurance.Governance.InMemoryService
import SupplierAssurance.Persistence.Cases

/-! # `GovernanceService` over an `ActionRepository`, one call at a time

The protocol `ActionRepository` as a record of operations on a state, the service over it,
and the two repositories as instances of it.  The in-memory one has
`InMemoryCaseRepository.append_audit_event` for its audit writer, as the API wires it.

A call here runs from its first line to its answer.  `Call.alone_perform` and
`Task.alone_perform` say that this is what the calls of `Service` and `InMemoryService` do
when nothing interleaves.
-/

namespace SupplierAssurance.Governance

open Python Lib

structure ActionRepository (ρ : Type) where
  usesTransactionalOutbox : Bool
  createProposal : ρ → GovernedAction → AuditEventCreate → OutboxMessageCreate → Ambient →
    ρ × Except GovernanceError (GovernedAction × Bool)
  get : ρ → UUID → Except GovernanceError GovernedAction
  saveTransition : ρ → GovernedAction → AuditEventCreate → ActionStatus → Ambient →
    ρ × Except GovernanceError Unit

/-! ## The two repositories -/

/-- Each operation of the SQL repository with its transactions one after the other. -/
def sqlAlchemyActionRepository : ActionRepository Store where
  usesTransactionalOutbox := true
  createProposal db action auditEvent message ambient :=
    match SqlAlchemyActionRepository.getByIdempotency db action.tenantId action.idempotencyKey with
    | some existing => (db, .ok (existing, false))
    | none =>
      match SqlAlchemyActionRepository.insertProposal db action auditEvent message ambient with
      | some db' => (db', .ok (action, true))
      | none =>
        match SqlAlchemyActionRepository.getByIdempotency db action.tenantId
            action.idempotencyKey with
        | some existing => (db, .ok (existing, false))
        | none => (db, .error .integrityError)
  get := SqlAlchemyActionRepository.get
  saveTransition db action auditEvent expectedStatus ambient :=
    match SqlAlchemyActionRepository.saveTransition db action auditEvent expectedStatus ambient with
    | .ok db' => (db', .ok ())
    | .error e => (db, .error e)

/-- `InMemoryActionRepository(audit_writer=cases.append_audit_event)`. -/
structure AuditedRepository where
  repo : InMemoryActionRepository
  cases : InMemoryCaseRepository

def inMemoryActionRepository : ActionRepository AuditedRepository where
  usesTransactionalOutbox := false
  createProposal state action auditEvent _ ambient :=
    match state.repo.idempotency action.tenantKey with
    | some _ =>
      let (repo, answer) := state.repo.createProposal action none
      ({ state with repo }, answer)
    | none =>
      match state.cases.appendAuditEvent ambient auditEvent with
      | .error e =>
        let (repo, answer) := state.repo.createProposal action (some e.errorType)
        ({ state with repo }, answer)
      | .ok cases =>
        let (repo, answer) := state.repo.createProposal action none
        (⟨repo, cases⟩, answer)
  get state := state.repo.get
  saveTransition state action auditEvent expectedStatus ambient :=
    match state.repo.checkTransition action expectedStatus with
    | .error e => (state, .error e)
    | .ok current =>
      match state.cases.appendAuditEvent ambient auditEvent with
      | .error e =>
        ({ state with repo := (state.repo.setAction action.id action).setAction action.id current },
          .error (.auditError e.errorType))
      | .ok cases => (⟨state.repo.setAction action.id action, cases⟩, .ok ())

/-! ## The service -/

/-- What one call is given from outside. -/
structure Moment (ε : Type) where
  now : Datetime
  workflow : Except String String
  ambient : Ambient
  input : ε

structure GovernanceService (ρ σ : Type) where
  repository : ρ
  supplier : σ

inductive ServiceCall where
  | propose (r : ProposeRequest)
  | decide (actionId : UUID) (request : ApprovalRequest) (principal : Principal)
  | get (actionId : UUID) (principal : Principal)
  | execute (actionId : UUID) (principal : Principal)

namespace GovernanceService

section

variable {ρ σ ε : Type} (repository : ActionRepository ρ) (system : SupplierSystem σ ε)

/-- `propose` up to the call of the repository. -/
def prepareProposal (r : ProposeRequest) (moment : Moment ε) :
    Except GovernanceError GovernedAction := do
  let action ← prepareAction r moment.now
  if repository.usesTransactionalOutbox then return action
  else
    match moment.workflow with
    | .error detail => throw (.workflowError detail)
    | .ok reference => return { action with workflowExecutionArn := some reference }

def propose (state : ρ) (r : ProposeRequest) (moment : Moment ε) :
    ρ × Except GovernanceError GovernedAction :=
  match prepareProposal repository r moment with
  | .error e => (state, .error e)
  | .ok action =>
    match repository.createProposal state action (proposedEvent action) (startMessage action)
        moment.ambient with
    | (state', .error e) => (state', .error e)
    | (state', .ok (stored, _)) => (state', settleProposal action stored)

/-- `decide` up to the call of the repository. -/
def prepareDecision (state : ρ) (actionId : UUID) (request : ApprovalRequest)
    (principal : Principal) (now : Datetime) : Except GovernanceError GovernedAction := do
  requireRole principal .approver
  let action ← repository.get state actionId
  judge action request principal now

def decide (state : ρ) (actionId : UUID) (request : ApprovalRequest) (principal : Principal)
    (moment : Moment ε) : ρ × Except GovernanceError GovernedAction :=
  match prepareDecision repository state actionId request principal moment.now with
  | .error e => (state, .error e)
  | .ok decided =>
    match repository.saveTransition state decided (decidedEvent decided principal)
        .pendingApproval moment.ambient with
    | (state', .ok ()) => (state', .ok decided)
    | (state', .error (.transitionConflict detail)) => (state', .error (.actionState detail))
    | (state', .error e) => (state', .error e)

def get (state : ρ) (actionId : UUID) (principal : Principal) :
    Except GovernanceError GovernedAction := do
  let action ← repository.get state actionId
  requireTenant principal action.tenantId
  return action

/-- `execute` up to the call of the supplier system: the action to apply, or the receipt of one
    that is executed. -/
def prepareExecution (state : ρ) (actionId : UUID) (principal : Principal) :
    Except GovernanceError (GovernedAction × Option ExecutionReceipt) := do
  requireRole principal .executor
  let action ← repository.get state actionId
  let planned ← planExecution action principal
  return (action, planned)

/-- The end of `execute`, after the supplier system has answered. -/
def recordExecution (state : ρ) (action : GovernedAction) (receipt : ExecutionReceipt)
    (principal : Principal) (ambient : Ambient) : ρ × Except GovernanceError ExecutionReceipt :=
  let executed := executedAction action receipt
  match repository.saveTransition state executed (executedEvent executed receipt principal)
      .approved ambient with
  | (state', .ok ()) => (state', .ok receipt)
  | (state', .error (.transitionConflict detail)) =>
    match repository.get state' action.id with
    | .error e => (state', .error e)
    | .ok current =>
      match current.status, current.executionReceipt with
      | .executed, some receipt => (state', .ok receipt)
      | _, _ => (state', .error (.actionState detail))
  | (state', .error e) => (state', .error e)

def execute (service : GovernanceService ρ σ) (actionId : UUID) (principal : Principal)
    (moment : Moment ε) : GovernanceService ρ σ × Except GovernanceError ExecutionReceipt :=
  match prepareExecution repository service.repository actionId principal with
  | .error e => (service, .error e)
  | .ok (_, some receipt) => (service, .ok receipt)
  | .ok (action, none) =>
    match system.setOnboardingDecision service.supplier moment.input action.id
        action.idempotencyKey action.arguments with
    | (supplier, .error detail) => ({ service with supplier }, .error (.supplierError detail))
    | (supplier, .ok receipt) =>
      let (state, answer) :=
        recordExecution repository service.repository action receipt principal moment.ambient
      (⟨state, supplier⟩, answer)

def perform (service : GovernanceService ρ σ) (moment : Moment ε) :
    ServiceCall → GovernanceService ρ σ × Except GovernanceError Response
  | .propose r =>
    let (repository, answer) := propose repository service.repository r moment
    ({ service with repository }, answer.map .action)
  | .decide actionId request principal =>
    let (repository, answer) := decide repository service.repository actionId request principal moment
    ({ service with repository }, answer.map .action)
  | .get actionId principal =>
    (service, (get repository service.repository actionId principal).map .action)
  | .execute actionId principal =>
    let (service', answer) := execute repository system service actionId principal moment
    (service', answer.map .receipt)

end

end GovernanceService

/-! ## The calls of `Service` on their own -/

section

variable {σ ε : Type} (system : SupplierSystem σ ε)

/-- A call over the SQL repository that runs to its answer with no other step in between. -/
inductive Call.Alone : Store → σ → Call → Store → σ → Except GovernanceError Response → Prop
  | returned {db : Store} {supplier : σ} {answer : Except GovernanceError Response} :
      Alone db supplier (.returned answer) db supplier answer
  | step {db db' : Store} {supplier supplier' : σ} {call : Call}
      {answer : Except GovernanceError Response} (ambient : Ambient) (input : ε) {p : Progress σ} :
      call.advance system db supplier ambient input = p →
      Alone p.store p.supplier p.call db' supplier' answer → Alone db supplier call db' supplier' answer

/-- The requests of `Service`; a `get` is a single read. -/
def Request.toServiceCall : Request → ServiceCall
  | .propose r => .propose r
  | .decide actionId request principal => .decide actionId request principal
  | .execute actionId principal => .execute actionId principal

variable {system} {db : Store} {supplier : σ}

theorem Call.Alone.propose (r : ProposeRequest) (moment : Moment ε) :
    let proposed := GovernanceService.propose sqlAlchemyActionRepository db r moment
    Call.Alone system db supplier (.enter moment.now (.propose r)) proposed.1 supplier
      (proposed.2.map .action) := by
  simp only [GovernanceService.propose, GovernanceService.prepareProposal,
    sqlAlchemyActionRepository, Call.enter]
  cases prepareAction r moment.now with
  | error e => exact .returned
  | ok action =>
    simp only [bind, Except.bind, pure, Except.pure, if_true]
    cases looked : SqlAlchemyActionRepository.getByIdempotency db action.tenantId
        action.idempotencyKey with
    | some existing =>
      refine .step moment.ambient moment.input rfl ?_
      simp only [Call.advance, looked]
      exact .returned
    -- an unknown key: the insertion, and a second look if it is refused
    | none =>
      refine .step moment.ambient moment.input rfl ?_
      simp only [Call.advance, looked]
      refine .step moment.ambient moment.input rfl ?_
      simp only [Call.advance]
      cases SqlAlchemyActionRepository.insertProposal db action (proposedEvent action)
          (startMessage action) moment.ambient with
      | some db' => exact .returned
      | none =>
        refine .step moment.ambient moment.input rfl ?_
        simp only [Call.advance, looked]
        exact .returned

theorem Call.Alone.decide (actionId : UUID) (request : ApprovalRequest) (principal : Principal)
    (moment : Moment ε) :
    let decided := GovernanceService.decide sqlAlchemyActionRepository db actionId request principal moment
    Call.Alone system db supplier (.enter moment.now (.decide actionId request principal)) decided.1
      supplier (decided.2.map .action) := by
  simp only [GovernanceService.decide, GovernanceService.prepareDecision,
    sqlAlchemyActionRepository, Call.enter]
  cases requireRole principal .approver with
  | error e => exact .returned
  | ok =>
    refine .step { moment.ambient with now := moment.now } moment.input rfl ?_
    simp only [Call.advance, bind, Except.bind]
    cases SqlAlchemyActionRepository.get db actionId with
    | error e => exact .returned
    | ok action =>
      simp only
      cases judge action request principal moment.now with
      | error e => exact .returned
      | ok decided =>
        refine .step moment.ambient moment.input rfl ?_
        simp only [Call.advance]
        cases SqlAlchemyActionRepository.saveTransition db decided (decidedEvent decided principal)
            .pendingApproval moment.ambient with
        | ok db' => exact .returned
        | error e => cases e <;> exact .returned

theorem Call.Alone.execute (actionId : UUID) (principal : Principal) (moment : Moment ε) :
    let executed := GovernanceService.execute sqlAlchemyActionRepository system ⟨db, supplier⟩ actionId
      principal moment
    Call.Alone system db supplier (.enter moment.now (.execute actionId principal))
      executed.1.repository executed.1.supplier (executed.2.map .receipt) := by
  simp only [GovernanceService.execute, GovernanceService.prepareExecution,
    sqlAlchemyActionRepository, Call.enter]
  cases requireRole principal .executor with
  | error e => exact .returned
  | ok =>
    refine .step moment.ambient moment.input rfl ?_
    simp only [Call.advance, bind, Except.bind]
    cases SqlAlchemyActionRepository.get db actionId with
    | error e => exact .returned
    | ok action =>
      simp only
      cases planExecution action principal with
      | error e => exact .returned
      | ok planned =>
        cases planned with
        | some receipt => exact .returned
        | none =>
          -- the supplier system answers between the two transactions
          obtain ⟨⟨supplier', answer⟩, supplied⟩ : ∃ supplied, system.setOnboardingDecision supplier
            moment.input action.id action.idempotencyKey action.arguments = supplied := ⟨_, rfl⟩
          refine .step moment.ambient moment.input rfl ?_
          simp only [Call.advance, pure, Except.pure, supplied]
          cases answer with
          | error detail => exact .returned
          | ok receipt =>
            refine .step moment.ambient moment.input rfl ?_
            simp only [Call.advance, GovernanceService.recordExecution]
            cases SqlAlchemyActionRepository.saveTransition db (executedAction action receipt)
                (executedEvent (executedAction action receipt) receipt principal) .approved
                moment.ambient with
            | ok db' => exact .returned
            | error e =>
              cases e with
              | transitionConflict detail =>
                -- a lost race is settled by what the other execution stored
                refine .step moment.ambient moment.input rfl ?_
                simp only [Call.advance]
                cases SqlAlchemyActionRepository.get db action.id with
                | error e => exact .returned
                | ok current =>
                  simp only
                  cases current.status <;> cases current.executionReceipt <;> exact .returned
              | _ => exact .returned

/-- `GovernanceService` over the SQL repository is what a `Call` does on its own. -/
theorem Call.alone_perform (request : Request) (moment : Moment ε) :
    let performed := GovernanceService.perform sqlAlchemyActionRepository system ⟨db, supplier⟩ moment
      request.toServiceCall
    Call.Alone system db supplier (.enter moment.now request) performed.1.repository
      performed.1.supplier performed.2 := by
  cases request with
  | propose r => exact Call.Alone.propose r moment
  | decide actionId request principal => exact Call.Alone.decide actionId request principal moment
  | execute actionId principal => exact Call.Alone.execute actionId principal moment

end

/-! ## The calls of `InMemoryService` on their own -/

/-- A call over the in-memory repository that runs to its answer with no other step in between. -/
inductive Task.Alone :
    InMemoryActionRepository → Task → InMemoryActionRepository → Except GovernanceError Response → Prop
  | returned {repo : InMemoryActionRepository} {answer : Except GovernanceError Response} :
      Alone repo (.returned answer) repo answer
  | step {repo repo' repo'' : InMemoryActionRepository} {task next : Task}
      {answer : Except GovernanceError Response} (reply : Reply) :
      task.advance repo false reply = some (repo', next) → Alone repo' next repo'' answer →
      Alone repo task repo'' answer

section

variable {σ ε : Type} {system : SupplierSystem σ ε} {state : AuditedRepository} {supplier : σ}

variable (state) in
/-- The second half of `propose`: `create_proposal`, whose two writes are undone when
    `append_audit_event` raises. -/
theorem Task.Alone.create (action : GovernedAction) (moment : Moment ε) :
    let created := inMemoryActionRepository.createProposal state action (proposedEvent action)
      (startMessage action) moment.ambient
    Task.Alone state.repo (.creating action) created.1.repo
      ((created.2.bind fun stored => settleProposal action stored.1).map .action) := by
  simp only [inMemoryActionRepository, InMemoryActionRepository.createProposal]
  cases indexed : state.repo.idempotency action.tenantKey with
  | some existingId =>
    cases held : state.repo.actions existingId with
    | some existing =>
      have moved : (Task.creating action).advance state.repo false ⟨moment.now, .ok "", none, .error ""⟩ =
          some (state.repo, .returned ((settleProposal action existing).map .action)) := by
        simp [Task.advance, indexed, held]
      simp only [held]
      exact .step _ moved .returned
    | none =>
      -- the index may name an action that is gone
      have moved : (Task.creating action).advance state.repo false ⟨moment.now, .ok "", none, .error ""⟩ =
          some (state.repo, .returned (.error .keyError)) := by
        simp [Task.advance, indexed, held]
      simp only [held]
      exact .step _ moved .returned
  | none =>
    have moved : (Task.creating action).advance state.repo false ⟨moment.now, .ok "", none, .error ""⟩ =
        some (state.repo.storeProposal action, .auditingProposal action) := by
      simp [Task.advance, indexed]
    refine .step _ moved ?_
    cases state.cases.appendAuditEvent moment.ambient (proposedEvent action) with
    | error e => exact .step ⟨moment.now, .ok "", some e.errorType, .error ""⟩ rfl .returned
    | ok cases => exact .step ⟨moment.now, .ok "", none, .error ""⟩ rfl .returned

theorem Task.Alone.propose (r : ProposeRequest) (moment : Moment ε) :
    let proposed := GovernanceService.propose inMemoryActionRepository state r moment
    Task.Alone state.repo (.enter moment.now (.propose r)) proposed.1.repo (proposed.2.map .action) := by
  simp only [GovernanceService.propose, GovernanceService.prepareProposal, Task.enter]
  cases prepareAction r moment.now with
  | error e => exact .returned
  | ok action =>
    have noOutbox : inMemoryActionRepository.usesTransactionalOutbox = false := rfl
    simp only [bind, Except.bind, noOutbox, Bool.false_eq_true, if_false]
    cases moment.workflow with
    | error detail => exact .step ⟨moment.now, .error detail, none, .error ""⟩ rfl .returned
    | ok reference =>
      refine .step ⟨moment.now, .ok reference, none, .error ""⟩ rfl ?_
      have created := Task.Alone.create state { action with workflowExecutionArn := some reference }
        moment
      simp only [pure, Except.pure] at created ⊢
      generalize inMemoryActionRepository.createProposal state _ _ _ _ = stored at created ⊢
      obtain ⟨state', answer⟩ := stored
      cases answer <;> exact created

theorem Task.Alone.decide (actionId : UUID) (request : ApprovalRequest) (principal : Principal)
    (moment : Moment ε) :
    let decided := GovernanceService.decide inMemoryActionRepository state actionId request principal moment
    Task.Alone state.repo (.enter moment.now (.decide actionId request principal)) decided.1.repo
      (decided.2.map .action) := by
  simp only [GovernanceService.decide, GovernanceService.prepareDecision, inMemoryActionRepository,
    Task.enter]
  cases requireRole principal .approver with
  | error e => exact .returned
  | ok =>
    -- each `moved` is the segment up to the next await, with the reply it resumes on
    let reply (audit : Option String) : Reply := ⟨moment.now, .ok "", audit, .error ""⟩
    simp only [bind, Except.bind]
    cases got : state.repo.get actionId with
    | error e =>
      have moved : (Task.loadToDecide actionId request principal).advance state.repo false (reply none) =
          some (state.repo, .returned (.error e)) := by
        simp [Task.advance, got]
      exact .step _ moved .returned
    | ok action =>
      simp only
      cases judged : judge action request principal moment.now with
      | error e =>
        have moved : (Task.loadToDecide actionId request principal).advance state.repo false (reply none) =
            some (state.repo, .returned (.error e)) := by
          simp [Task.advance, got, reply, judged]
        exact .step _ moved .returned
      | ok decided =>
        have moved : (Task.loadToDecide actionId request principal).advance state.repo false (reply none) =
            some (state.repo, .savingDecision decided) := by
          simp [Task.advance, got, reply, judged]
        refine .step _ moved ?_
        simp only
        cases checked : state.repo.checkTransition decided .pendingApproval with
        | error e =>
          -- a failed comparison is answered as a wrong state, any other error as itself
          cases e with
          | transitionConflict detail =>
            have moved : (Task.savingDecision decided).advance state.repo false (reply none) =
                some (state.repo, .returned (.error (.actionState detail))) := by
              simp [Task.advance, checked]
            exact .step _ moved .returned
          | _ =>
            exact .step (reply none) (by simp only [Task.advance, checked]; rfl) .returned
        | ok current =>
          have moved : (Task.savingDecision decided).advance state.repo false (reply none) =
              some (state.repo.setAction decided.id decided, .auditingDecision decided current) := by
            simp [Task.advance, checked]
          refine .step _ moved ?_
          simp only
          cases state.cases.appendAuditEvent moment.ambient (decidedEvent decided principal) with
          | error e => exact .step (reply (some e.errorType)) rfl .returned
          | ok cases => exact .step (reply none) rfl .returned

/-- The end of `execute`. -/
theorem Task.Alone.record (action : GovernedAction) (receipt : ExecutionReceipt) (principal : Principal)
    (moment : Moment ε) :
    let recorded := GovernanceService.recordExecution inMemoryActionRepository state action receipt
      principal moment.ambient
    Task.Alone state.repo (.savingExecution action receipt) recorded.1.repo
      (recorded.2.map .receipt) := by
  let reply (audit : Option String) : Reply := ⟨moment.now, .ok "", audit, .error ""⟩
  simp only [GovernanceService.recordExecution, inMemoryActionRepository]
  cases checked : state.repo.checkTransition (executedAction action receipt) .approved with
  | error e =>
    cases e with
    | transitionConflict detail =>
      have moved : (Task.savingExecution action receipt).advance state.repo false (reply none) =
          some (state.repo, .reloadExecution action.id detail) := by
        simp [Task.advance, checked]
      refine .step _ moved ?_
      simp only
      cases got : state.repo.get action.id with
      | error e =>
        have moved : (Task.reloadExecution action.id detail).advance state.repo false (reply none) =
            some (state.repo, .returned (.error e)) := by
          simp [Task.advance, got]
        exact .step _ moved .returned
      | ok current =>
        have moved : (Task.reloadExecution action.id detail).advance state.repo false (reply none) =
            some (state.repo, .returned (match current.status, current.executionReceipt with
              | .executed, some receipt => .ok (.receipt receipt)
              | _, _ => .error (.actionState detail))) := by
          simp only [Task.advance, got]
          cases current.status <;> cases current.executionReceipt <;> rfl
        refine .step _ moved ?_
        simp only
        cases current.status <;> cases current.executionReceipt <;> exact .returned
    | _ =>
      refine .step (reply none) (by simp only [Task.advance, checked, Bool.false_eq_true, if_false]; rfl) ?_
      simp only
      exact .returned
  | ok current =>
    have moved : (Task.savingExecution action receipt).advance state.repo false (reply none) =
        some (state.repo.setAction action.id (executedAction action receipt),
          .auditingExecution (executedAction action receipt) current receipt) := by
      simp [Task.advance, checked]
    refine .step _ moved ?_
    simp only
    cases state.cases.appendAuditEvent moment.ambient
        (executedEvent (executedAction action receipt) receipt principal) with
    | error e => exact .step (reply (some e.errorType)) rfl .returned
    | ok cases => exact .step (reply none) rfl .returned

theorem Task.Alone.execute (actionId : UUID) (principal : Principal) (moment : Moment ε) :
    let executed := GovernanceService.execute inMemoryActionRepository system ⟨state, supplier⟩ actionId
      principal moment
    Task.Alone state.repo (.enter moment.now (.execute actionId principal)) executed.1.repository.repo
      (executed.2.map .receipt) := by
  have got (actionId : UUID) : inMemoryActionRepository.get state actionId = state.repo.get actionId := rfl
  simp only [GovernanceService.execute, GovernanceService.prepareExecution, Task.enter, got]
  cases requireRole principal .executor with
  | error e => exact .returned
  | ok =>
    let reply (receipt : Except String ExecutionReceipt) : Reply := ⟨moment.now, .ok "", none, receipt⟩
    simp only [bind, Except.bind]
    cases got : state.repo.get actionId with
    | error e =>
      have moved : (Task.loadToExecute actionId principal).advance state.repo false (reply (.error "")) =
          some (state.repo, .returned (.error e)) := by
        simp [Task.advance, got]
      exact .step _ moved .returned
    | ok action =>
      simp only
      cases planned : planExecution action principal with
      | error e =>
        have moved : (Task.loadToExecute actionId principal).advance state.repo false (reply (.error "")) =
            some (state.repo, .returned (.error e)) := by
          simp [Task.advance, got, planned]
        exact .step _ moved .returned
      | ok plan =>
        cases plan with
        | some receipt =>
          have moved : (Task.loadToExecute actionId principal).advance state.repo false
              (reply (.error "")) = some (state.repo, .returned (.ok (.receipt receipt))) := by
            simp [Task.advance, got, planned]
          exact .step _ moved .returned
        | none =>
          have moved : (Task.loadToExecute actionId principal).advance state.repo false
              (reply (.error "")) = some (state.repo, .applying action) := by
            simp [Task.advance, got, planned]
          refine .step _ moved ?_
          simp only [pure, Except.pure]
          generalize system.setOnboardingDecision supplier moment.input action.id
            action.idempotencyKey action.arguments = supplied
          obtain ⟨supplier', answer⟩ := supplied
          cases answer with
          | error detail => exact .step (reply (.error detail)) rfl .returned
          | ok receipt =>
            exact .step (reply (.ok receipt)) rfl (Task.Alone.record action receipt principal moment)

/-- `GovernanceService` over the in-memory repository is what a `Task` does on its own. -/
theorem Task.alone_perform (request : Request) (moment : Moment ε) :
    let performed := GovernanceService.perform inMemoryActionRepository system ⟨state, supplier⟩ moment
      request.toServiceCall
    Task.Alone state.repo (.enter moment.now request) performed.1.repository.repo performed.2 := by
  cases request with
  | propose r => exact Task.Alone.propose r moment
  | decide actionId request principal => exact Task.Alone.decide actionId request principal moment
  | execute actionId principal => exact Task.Alone.execute actionId principal moment

end

end SupplierAssurance.Governance
