import SupplierAssurance.Persistence.Store

/-! # `SqlAlchemyActionRepository`

Each function is one committed transaction.  `createProposal` of the source runs three
of them — a lookup, the insert, and a second lookup when the insert violates a
constraint — and other transactions may commit in between, so they are separate here
and sequenced in `Governance.Service`.

A transaction that raises is rolled back: it gives no store.
-/

namespace SupplierAssurance.Governance

open Python Lib

/-- The exceptions that leave the governance service. -/
inductive GovernanceError where
  | authorizationDenied (detail : String)
  | actionState (detail : String)
  | idempotencyConflict (detail : String)
  | actionNotFound (detail : String)
  | transitionConflict (detail : String)
  | valueError (detail : String)
  | validationError
  | integrityError
  /-- `DBAPIError` of a value that a column does not take. -/
  | dataError
  | keyError
  | supplierError (detail : String)
  | workflowError (detail : String)
  | auditError (detail : String)
deriving DecidableEq

def actionNotFound (actionId : UUID) : GovernanceError :=
  .actionNotFound ("Governed action " ++ actionId.str ++ " was not found")

namespace SqlAlchemyActionRepository

def getByIdempotency (db : Store) (tenantId : String) (idempotencyKey : UUID) :
    Option GovernedAction :=
  db.actions.findAlt? (tenantId, idempotencyKey)

def recordFromAction (action : GovernedAction) : GovernedAction :=
  { action with executionReceipt := none }

def auditRecord (event : AuditEventCreate) (id : UUID) (createdAt : Datetime) : AuditEvent :=
  { event with id := id, createdAt := createdAt }

def outboxRecord (message : OutboxMessageCreate) (id : UUID) (now : Datetime) : OutboxMessage :=
  { message with
    id := id
    attemptCount := 0
    availableAt := now
    lockedAt := none
    lockedBy := none
    publishedAt := none
    deadLetteredAt := none
    lastError := none
    deliveryResult := none
    createdAt := now }

/-- The insert transaction of `create_proposal`; `none` is `IntegrityError`. -/
def insertProposal (db : Store) (action : GovernedAction) (auditEvent : AuditEventCreate)
    (message : OutboxMessageCreate) (ambient : Ambient) : Option Store :=
  if action.caseId ∈ db.caseIds ∧ action.reviewId ∈ db.reviewIds ∧
      auditEvent.caseId ∈ db.caseIds then do
    let actions ← db.actions.insert? (recordFromAction action)
    let audit ← db.audit.insert? (auditRecord auditEvent ambient.uuid ambient.now)
    let outbox ← db.outbox.insert? (outboxRecord message ambient.uuid' ambient.now)
    return { db with actions, audit, outbox }
  else none

def get (db : Store) (actionId : UUID) : Except GovernanceError GovernedAction :=
  match db.actions.find? actionId with
  | none => .error (actionNotFound actionId)
  | some record => .ok record

/-- The columns that `save_transition` assigns; all others keep the row's value. -/
def assignTransition (action record : GovernedAction) : GovernedAction :=
  { record with
    status := action.status
    approverId := action.approverId
    approvalComment := action.approvalComment
    executionReceipt := action.executionReceipt
    decidedAt := action.decidedAt
    executedAt := action.executedAt }

theorem assignTransition_keepsKeys (action : GovernedAction) :
    Table.KeepsKeys GovernedAction.id GovernedAction.tenantKey (assignTransition action) :=
  fun _ => ⟨rfl, rfl⟩

def applyTransition (db : Store) (action : GovernedAction) (audit : Table AuditEvent.id AuditEvent.id) :
    Store :=
  { db with
    actions := db.actions.updateWhere (fun record => record.id = action.id)
      (assignTransition action) (assignTransition_keepsKeys action)
    audit := audit }

/-- The session writes the columns that have changed, and PostgreSQL refuses the new comment. -/
def RefusesComment (action record : GovernedAction) : Prop :=
  action.approvalComment ≠ record.approvalComment ∧ ¬ StorableText action.approvalComment

instance (action record : GovernedAction) : Decidable (RefusesComment action record) :=
  inferInstanceAs (Decidable (_ ∧ _))

def saveTransition (db : Store) (action : GovernedAction) (auditEvent : AuditEventCreate)
    (expectedStatus : ActionStatus) (ambient : Ambient) : Except GovernanceError Store :=
  match db.actions.find? action.id with
  | none => .error (actionNotFound action.id)
  | some record =>
    if record.status ≠ expectedStatus then
      .error (.transitionConflict
        ("Action " ++ action.id.str ++ " is already " ++ record.status.value))
    else if RefusesComment action record then .error .dataError
    else if auditEvent.caseId ∉ db.caseIds then .error .integrityError
    else
      match db.audit.insert? (auditRecord auditEvent ambient.uuid ambient.now) with
      | none => .error .integrityError
      | some audit => .ok (applyTransition db action audit)

/-! ## What each transaction commits -/

variable {db db' : Store} {action : GovernedAction} {auditEvent : AuditEventCreate}
  {message : OutboxMessageCreate} {ambient : Ambient}

@[simp] theorem recordFromAction_id : (recordFromAction action).id = action.id := rfl

@[simp] theorem recordFromAction_tenantKey :
    (recordFromAction action).tenantKey = action.tenantKey := rfl

theorem get_ok {actionId : UUID} (found : get db actionId = .ok action) :
    action ∈ db.actions.rows ∧ action.id = actionId := by
  unfold get at found
  split at found
  · cases found
  next record lookup =>
    cases found
    exact Table.find?_eq_some.mp lookup

/-- A committed proposal adds one row to each of the three tables, and none of the new
    keys was taken. -/
theorem insertProposal_some
    (committed : insertProposal db action auditEvent message ambient = some db') :
    db'.caseIds = db.caseIds ∧ db'.reviewIds = db.reviewIds ∧
      db'.actions.rows = db.actions.rows ++ [recordFromAction action] ∧
      db'.audit.rows = db.audit.rows ++ [auditRecord auditEvent ambient.uuid ambient.now] ∧
      db'.outbox.rows = db.outbox.rows ++ [outboxRecord message ambient.uuid' ambient.now] ∧
      (∀ old ∈ db.actions.rows, old.id ≠ action.id) ∧
      (∀ old ∈ db.actions.rows, old.tenantKey ≠ action.tenantKey) ∧
      (∀ old ∈ db.outbox.rows, old.id ≠ ambient.uuid') := by
  unfold insertProposal at committed
  split at committed
  next =>
    simp only [Option.bind_eq_bind, Option.bind_eq_some_iff] at committed
    obtain ⟨actions, actionsInserted, audit, auditInserted, outbox, outboxInserted, equal⟩ :=
      committed
    cases equal
    obtain ⟨actionRows, idFresh, keyFresh⟩ := Table.insert?_eq_some actionsInserted
    obtain ⟨auditRows, _, _⟩ := Table.insert?_eq_some auditInserted
    obtain ⟨outboxRows, messageFresh, _⟩ := Table.insert?_eq_some outboxInserted
    exact ⟨rfl, rfl, actionRows, auditRows, outboxRows, idFresh, keyFresh, messageFresh⟩
  next => cases committed

/-- A committed transition found the row in the expected status, rewrote its transition
    columns and appended the audit event. -/
theorem saveTransition_ok {expected : ActionStatus}
    (committed : saveTransition db action auditEvent expected ambient = .ok db') :
    ∃ record audit, record ∈ db.actions.rows ∧ record.id = action.id ∧ record.status = expected ∧
      audit.rows = db.audit.rows ++ [auditRecord auditEvent ambient.uuid ambient.now] ∧
      db' = applyTransition db action audit := by
  unfold saveTransition at committed
  split at committed
  · cases committed
  next record found =>
    split at committed
    · cases committed
    next status =>
      split at committed
      · cases committed
      · split at committed
        · cases committed
        · split at committed
          · cases committed
          next audit inserted =>
            cases committed
            obtain ⟨member, id⟩ := Table.find?_eq_some.mp found
            exact ⟨record, audit, member, id, not_not.mp status,
              (Table.insert?_eq_some inserted).1, rfl⟩

/-- The rows after a transition of `action`. -/
def transitionRows (action : GovernedAction) (rows : List GovernedAction) : List GovernedAction :=
  rows.map fun old => if old.id = action.id then assignTransition action old else old

theorem applyTransition_rows {audit : Table AuditEvent.id AuditEvent.id} :
    (applyTransition db action audit).actions.rows = transitionRows action db.actions.rows := by
  simp [applyTransition, Table.updateWhere, transitionRows]

end SqlAlchemyActionRepository

end SupplierAssurance.Governance
