import Mathlib.Data.List.Sort
import SupplierAssurance.Persistence.Store

/-! # `SqlAlchemyOutboxRepository`

One function for each transaction.  A transaction that raises is rolled back and gives
no store.

`claim_batch` selects with `FOR UPDATE SKIP LOCKED` and an `ORDER BY` that may leave ties.
Both are the database's choice, so a `Scan` is drawn for each claim: the rows that other
transactions hold locked at that moment, and a rank that breaks the ties.
-/

namespace SupplierAssurance.Outbox

open Python Lib

inductive OutboxError where
  | messageNotFound (detail : String)
  | leaseLost (detail : String)
  | valueError (detail : String)
  /-- The `DBAPIError` of a value that does not fit its column. -/
  | dataError
deriving DecidableEq

structure Scan where
  skipLocked : List UUID
  rank : UUID → Nat

namespace SqlAlchemyOutboxRepository

/-! ## `claim_batch` -/

/-- The `WHERE` clause of the claim query. -/
def claimable (now : Datetime) (lockTimeout : Timedelta) (message : OutboxMessage) : Bool :=
  message.publishedAt.isNone && message.deadLetteredAt.isNone && message.availableAt ≤ now &&
    match message.lockedAt with
    | none => true
    | some lockedAt => lockedAt ≤ now - lockTimeout

/-- `ORDER BY available_at, created_at`. -/
def claimOrder (rank : UUID → Nat) (m n : OutboxMessage) : Prop :=
  m.availableAt < n.availableAt ∨ (m.availableAt = n.availableAt ∧
    (m.createdAt < n.createdAt ∨ (m.createdAt = n.createdAt ∧ rank m.id ≤ rank n.id)))

instance (rank : UUID → Nat) : DecidableRel (claimOrder rank) := fun m n =>
  inferInstanceAs (Decidable (m.availableAt < n.availableAt ∨ (m.availableAt = n.availableAt ∧
    (m.createdAt < n.createdAt ∨ (m.createdAt = n.createdAt ∧ rank m.id ≤ rank n.id)))))

def selectBatch (db : Store) (batchSize : Nat) (lockTimeout : Timedelta) (now : Datetime)
    (scan : Scan) : List OutboxMessage :=
  ((db.outbox.rows.filter fun m => claimable now lockTimeout m && m.id ∉ scan.skipLocked).insertionSort
    (claimOrder scan.rank)).take batchSize

def lease (workerId : String) (now : Datetime) (message : OutboxMessage) : OutboxMessage :=
  { message with lockedAt := some now, lockedBy := some workerId }

theorem lease_keepsKeys (workerId : String) (now : Datetime) :
    Table.KeepsKeys OutboxMessage.id OutboxMessage.aggregateEvent (lease workerId now) :=
  fun _ => ⟨rfl, rfl⟩

def leaseAll (db : Store) (workerId : String) (now : Datetime) (ids : List UUID) : Store :=
  { db with
    outbox := db.outbox.updateWhere (fun m => m.id ∈ ids) (lease workerId now)
      (lease_keepsKeys workerId now) }

def claimBatch (db : Store) (workerId : String) (batchSize : Nat) (lockTimeout : Timedelta)
    (now : Datetime) (scan : Scan) : Store × List OutboxMessage :=
  let chosen := selectBatch db batchSize lockTimeout now scan
  (leaseAll db workerId now (chosen.map (·.id)), chosen.map (lease workerId now))

/-! ## `mark_published` -/

def requireLease (record : OutboxMessage) (workerId : String) : Except OutboxError Unit :=
  if record.lockedBy ≠ some workerId then
    .error (.leaseLost
      ("Worker " ++ workerId ++ " no longer owns outbox message " ++ record.id.str))
  else .ok ()

def messageNotFound (messageId : UUID) : OutboxError :=
  .messageNotFound ("Outbox message " ++ messageId.str ++ " was not found")

/-- `delivery_result.get("workflow_execution_arn")`, with the empty string as absent. -/
def workflowReference (deliveryResult : List (String × String)) : Option String :=
  (deliveryResult.lookup "workflow_execution_arn").filter (· ≠ "")

def assignReference (reference : String) (action : GovernedAction) : GovernedAction :=
  { action with workflowExecutionArn := some reference }

theorem assignReference_keepsKeys (reference : String) :
    Table.KeepsKeys GovernedAction.id GovernedAction.tenantKey (assignReference reference) :=
  fun _ => ⟨rfl, rfl⟩

def assignPublished (deliveryResult : List (String × String)) (now : Datetime)
    (message : OutboxMessage) : OutboxMessage :=
  { message with
    publishedAt := some now
    lockedAt := none
    lockedBy := none
    lastError := none
    deliveryResult := some deliveryResult }

theorem assignPublished_keepsKeys (deliveryResult : List (String × String)) (now : Datetime) :
    Table.KeepsKeys OutboxMessage.id OutboxMessage.aggregateEvent
      (assignPublished deliveryResult now) :=
  fun _ => ⟨rfl, rfl⟩

def publish (db : Store) (messageId actionId : UUID) (reference : String)
    (deliveryResult : List (String × String)) (now : Datetime) : Store :=
  { db with
    actions := db.actions.updateWhere (fun a => a.id = actionId) (assignReference reference)
      (assignReference_keepsKeys reference)
    outbox := db.outbox.updateWhere (fun m => m.id = messageId) (assignPublished deliveryResult now)
      (assignPublished_keepsKeys deliveryResult now) }

def markPublished (db : Store) (messageId : UUID) (workerId : String)
    (deliveryResult : List (String × String)) (now : Datetime) : Except OutboxError Store :=
  match db.outbox.find? messageId with
  | none => .error (messageNotFound messageId)
  | some record =>
    if record.publishedAt.isSome then .ok db
    else
      match requireLease record workerId with
      | .error e => .error e
      | .ok () =>
        if record.eventType ≠ approvalWorkflowStart then
          .error (.valueError ("Unsupported outbox event type " ++ record.eventType))
        else
          match workflowReference deliveryResult with
          | none => .error (.valueError "Workflow delivery did not return an execution reference")
          | some reference =>
            match db.actions.find? record.payload.actionId with
            | none => .error (.valueError
                ("Governed action " ++ record.payload.actionId.str ++ " was not found"))
            | some _ =>
              if Varchar 2048 reference then
                .ok (publish db messageId record.payload.actionId reference deliveryResult now)
              else .error .dataError

/-! ## `record_failure` -/

def assignFailure (errorType : String) (retryAt : Datetime) (maxAttempts : Nat) (now : Datetime)
    (message : OutboxMessage) : OutboxMessage :=
  let released := { message with
    attemptCount := message.attemptCount + 1
    lastError := some (String.ofList (errorType.toList.take 255))
    lockedAt := none
    lockedBy := none }
  if message.attemptCount + 1 ≥ maxAttempts then { released with deadLetteredAt := some now }
  else { released with availableAt := retryAt }

theorem assignFailure_keepsKeys (errorType : String) (retryAt : Datetime) (maxAttempts : Nat)
    (now : Datetime) :
    Table.KeepsKeys OutboxMessage.id OutboxMessage.aggregateEvent
      (assignFailure errorType retryAt maxAttempts now) := by
  intro message
  unfold assignFailure
  split <;> exact ⟨rfl, rfl⟩

def fail (db : Store) (messageId : UUID) (errorType : String) (retryAt : Datetime)
    (maxAttempts : Nat) (now : Datetime) : Store :=
  { db with
    outbox := db.outbox.updateWhere (fun m => m.id = messageId)
      (assignFailure errorType retryAt maxAttempts now)
      (assignFailure_keepsKeys errorType retryAt maxAttempts now) }

/-- The store and whether the message was dead-lettered. -/
def recordFailure (db : Store) (messageId : UUID) (workerId errorType : String)
    (retryAt : Datetime) (maxAttempts : Nat) (now : Datetime) : Except OutboxError (Store × Bool) :=
  match db.outbox.find? messageId with
  | none => .error (messageNotFound messageId)
  | some record =>
    match requireLease record workerId with
    | .error e => .error e
    | .ok () =>
      .ok (fail db messageId errorType retryAt maxAttempts now,
        record.attemptCount + 1 ≥ maxAttempts)

/-! ## What each transaction commits -/

variable {db db' : Store} {messageId : UUID} {workerId : String} {record : OutboxMessage}

theorem leaseAll_rows (workerId : String) (now : Datetime) (ids : List UUID) :
    (leaseAll db workerId now ids).outbox.rows =
      db.outbox.rows.map fun m => if m.id ∈ ids then lease workerId now m else m := by
  simp [leaseAll, Table.updateWhere]

/-- Publishing writes one column of one action. -/
theorem publish_actions (messageId actionId : UUID) (reference : String)
    (deliveryResult : List (String × String)) (now : Datetime) :
    (publish db messageId actionId reference deliveryResult now).actions.rows =
      db.actions.rows.map fun a => if a.id = actionId then assignReference reference a else a := by
  simp [publish, Table.updateWhere]

theorem publish_rows (messageId actionId : UUID) (reference : String)
    (deliveryResult : List (String × String)) (now : Datetime) :
    (publish db messageId actionId reference deliveryResult now).outbox.rows =
      db.outbox.rows.map fun m => if m.id = messageId then assignPublished deliveryResult now m else m := by
  simp [publish, Table.updateWhere]

theorem fail_rows (messageId : UUID) (errorType : String) (retryAt : Datetime) (maxAttempts : Nat)
    (now : Datetime) :
    (fail db messageId errorType retryAt maxAttempts now).outbox.rows =
      db.outbox.rows.map fun m =>
        if m.id = messageId then assignFailure errorType retryAt maxAttempts now m else m := by
  simp [fail, Table.updateWhere]

theorem requireLease_ok {u : Unit} (owned : requireLease record workerId = .ok u) :
    record.lockedBy = some workerId := by
  unfold requireLease at owned
  split at owned
  · cases owned
  next held => exact not_not.mp held

/-- `mark_published` returns normally for a message that is published already, and
    otherwise only to the worker that holds the lease. -/
theorem markPublished_ok {deliveryResult : List (String × String)} {now : Datetime}
    (committed : markPublished db messageId workerId deliveryResult now = .ok db') :
    db' = db ∨ ∃ record ∈ db.outbox.rows, ∃ action ∈ db.actions.rows, ∃ reference,
      record.id = messageId ∧ record.publishedAt = none ∧ record.lockedBy = some workerId ∧
      workflowReference deliveryResult = some reference ∧ action.id = record.payload.actionId ∧
      db' = publish db messageId record.payload.actionId reference deliveryResult now := by
  unfold markPublished at committed
  split at committed
  · cases committed
  next record found =>
    obtain ⟨member, same⟩ := Table.find?_eq_some.mp found
    split at committed
    · cases committed
      exact .inl rfl
    next unpublished =>
      split at committed
      · cases committed
      next owned =>
        split at committed
        · cases committed
        · split at committed
          · cases committed
          next reference delivered =>
            split at committed
            · cases committed
            next action lookup =>
              split at committed
              · cases committed
                obtain ⟨actionMember, actionId⟩ := Table.find?_eq_some.mp lookup
                exact .inr ⟨record, member, action, actionMember, reference, same,
                  Option.not_isSome_iff_eq_none.mp unpublished, requireLease_ok owned, delivered,
                  actionId, rfl⟩
              · cases committed

theorem recordFailure_ok {errorType : String} {retryAt now : Datetime} {maxAttempts : Nat}
    {deadLettered : Bool}
    (committed : recordFailure db messageId workerId errorType retryAt maxAttempts now =
      .ok (db', deadLettered)) :
    ∃ record ∈ db.outbox.rows, record.id = messageId ∧ record.lockedBy = some workerId ∧
      db' = fail db messageId errorType retryAt maxAttempts now := by
  unfold recordFailure at committed
  split at committed
  · cases committed
  next record found =>
    obtain ⟨member, same⟩ := Table.find?_eq_some.mp found
    split at committed
    · cases committed
    next owned =>
      cases committed
      exact ⟨record, member, same, requireLease_ok owned, rfl⟩

end SqlAlchemyOutboxRepository

end SupplierAssurance.Outbox
