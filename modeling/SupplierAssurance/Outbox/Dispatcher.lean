import SupplierAssurance.Governance.Repository
import SupplierAssurance.Outbox.Repository

/-! # `ApprovalWorkflowStartHandler` and `OutboxDispatcher`

A worker runs `dispatch_once` in a loop.  `Worker` says where the loop stands: between
two polls, before the read of the handler, before the external call, or before the
acknowledgement.  Each of these is a step of its own, and a crash may take the place of
any of them.  The messages that are still to be delivered and the counters of the result
are local variables of the worker and are lost in a crash.-/

namespace SupplierAssurance.Outbox

open Python Lib
open SqlAlchemyOutboxRepository

/-- The constructor arguments of `OutboxDispatcher`, less its worker identifier. -/
structure DispatcherConfig where
  batchSize : Nat
  lockTimeout : Timedelta
  maxAttempts : Nat
  retryBase : Timedelta
  retryMax : Timedelta

def retryDelay (config : DispatcherConfig) (attemptCount : Nat) : Timedelta :=
  let multiplier := 2 ^ min attemptCount 20
  min (config.retryBase * multiplier) config.retryMax

structure Batch where
  now : Datetime
  rest : List OutboxMessage
  result : OutboxDispatchResult

inductive Worker where
  | idle (last : Option (Except OutboxError OutboxDispatchResult))
  | loading (message : OutboxMessage) (batch : Batch)
  | starting (message : OutboxMessage) (action : GovernedAction) (batch : Batch)
  | acknowledging (message : OutboxMessage) (delivery : Except String (List (String × String)))
      (batch : Batch)

/-- The head of the `for message in messages` loop. -/
def Worker.next (batch : Batch) : Worker :=
  match batch.rest with
  | [] => .idle (some (.ok batch.result))
  | message :: rest => .loading message { batch with rest }

/-- The handler up to its external call; an error is the type name of the exception. -/
def loadAction (db : Store) (message : OutboxMessage) : Except String GovernedAction :=
  if message.eventType ≠ approvalWorkflowStart then .error "ValueError"
  else
    match db.actions.find? message.payload.actionId with
    | none => .error "ActionNotFoundError"
    | some action => if action.id ≠ message.aggregateId then .error "ValueError" else .ok action

/-- The start of a poll: the claim of a batch. -/
def Worker.claim (workerId : String) (config : DispatcherConfig) (db : Store) (now : Datetime)
    (scan : Scan) : Store × Worker :=
  let (db', messages) := claimBatch db workerId config.batchSize config.lockTimeout now scan
  (db', .next ⟨now, messages, ⟨messages.length, 0, 0, 0⟩⟩)

def Worker.load (db : Store) (message : OutboxMessage) (batch : Batch) : Worker :=
  match loadAction db message with
  | .error e => .acknowledging message (.error e) batch
  | .ok action => .starting message action batch

def Worker.started (message : OutboxMessage) (batch : Batch) : Except String String → Worker
  | .error e => .acknowledging message (.error e) batch
  | .ok reference => .acknowledging message (.ok [("workflow_execution_arn", reference)]) batch

/-- The acknowledgement of one delivery.  An exception it raises leaves `dispatch_once`, so
    the rest of the batch is dropped. -/
def Worker.acknowledge (workerId : String) (config : DispatcherConfig) (db : Store)
    (message : OutboxMessage) (delivery : Except String (List (String × String))) (batch : Batch) :
    Store × Worker :=
  match delivery with
  | .ok deliveryResult =>
    match markPublished db message.id workerId deliveryResult batch.now with
    | .error e => (db, .idle (some (.error e)))
    | .ok db' =>
      (db', .next { batch with result := { batch.result with published := batch.result.published + 1 } })
  | .error errorType =>
    let retryAt := batch.now + retryDelay config message.attemptCount
    match recordFailure db message.id workerId errorType retryAt config.maxAttempts batch.now with
    | .error e => (db, .idle (some (.error e)))
    | .ok (db', true) =>
      (db', .next { batch with
        result := { batch.result with deadLettered := batch.result.deadLettered + 1 } })
    | .ok (db', false) =>
      (db', .next { batch with result := { batch.result with retried := batch.result.retried + 1 } })

/-- A reference that is about to be stored fits its column. -/
def Worker.Referenced : Worker → Prop
  | .acknowledging _ (.ok deliveryResult) _ =>
    ∀ reference, workflowReference deliveryResult = some reference → Varchar 2048 reference
  | _ => True

/-- What `mark_published` stores. -/
def Deliverable (deliveryResult : List (String × String)) : Prop :=
  ∃ reference, workflowReference deliveryResult = some reference ∧ Varchar 2048 reference

theorem Worker.Referenced.deliverable {message : OutboxMessage} {batch : Batch}
    {deliveryResult : List (String × String)}
    (referenced : (Worker.acknowledging message (.ok deliveryResult) batch).Referenced)
    (delivered : (workflowReference deliveryResult).isSome) : Deliverable deliveryResult := by
  obtain ⟨reference, found⟩ := Option.isSome_iff_exists.mp delivered
  exact ⟨reference, found, referenced reference found⟩

theorem Worker.referenced_next (batch : Batch) : (Worker.next batch).Referenced := by
  unfold Worker.next
  split <;> trivial

theorem Worker.referenced_load (db : Store) (message : OutboxMessage) (batch : Batch) :
    (Worker.load db message batch).Referenced := by
  unfold Worker.load
  split <;> trivial

theorem Worker.referenced_started (message : OutboxMessage) (batch : Batch)
    {answer : Except String String} (fits : ∀ reference, answer = .ok reference → Varchar 2048 reference) :
    (Worker.started message batch answer).Referenced := by
  cases answer with
  | error e => trivial
  | ok reference =>
    intro stored found
    rw [workflowReference, Option.filter_eq_some_iff] at found
    cases found.1
    exact fits reference rfl

theorem Worker.referenced_acknowledge (workerId : String) (config : DispatcherConfig) (db : Store)
    (message : OutboxMessage) (delivery : Except String (List (String × String))) (batch : Batch) :
    (Worker.acknowledge workerId config db message delivery batch).2.Referenced := by
  cases delivery with
  | ok result =>
    simp only [Worker.acknowledge]
    split
    · trivial
    · exact Worker.referenced_next _
  | error errorType =>
    simp only [Worker.acknowledge]
    split
    · trivial
    · exact Worker.referenced_next _
    · exact Worker.referenced_next _

/-! ## What an acknowledgement can do to the tables -/

/-- The store after an acknowledgement.  `unchanged` covers the exceptions, which roll the
    transaction back, and a message that is published already. -/
inductive Acknowledged (workerId : String) (config : DispatcherConfig) (db : Store)
    (message : OutboxMessage) (delivery : Except String (List (String × String))) (batch : Batch) :
    Store → Prop
  | unchanged : Acknowledged workerId config db message delivery batch db
  | published {record : OutboxMessage} {action : GovernedAction} {reference : String}
      {deliveryResult : List (String × String)} :
      delivery = .ok deliveryResult → record ∈ db.outbox.rows → record.id = message.id →
      record.publishedAt = none → record.lockedBy = some workerId →
      workflowReference deliveryResult = some reference →
      action ∈ db.actions.rows → action.id = record.payload.actionId →
      Acknowledged workerId config db message delivery batch
        (publish db message.id record.payload.actionId reference deliveryResult batch.now)
  | failed {record : OutboxMessage} {errorType : String} :
      delivery = .error errorType → record ∈ db.outbox.rows → record.id = message.id →
      record.lockedBy = some workerId →
      Acknowledged workerId config db message delivery batch
        (fail db message.id errorType (batch.now + retryDelay config message.attemptCount)
          config.maxAttempts batch.now)

theorem Worker.acknowledge_cases (workerId : String) (config : DispatcherConfig) (db : Store)
    (message : OutboxMessage) (delivery : Except String (List (String × String))) (batch : Batch) :
    Acknowledged workerId config db message delivery batch
      (Worker.acknowledge workerId config db message delivery batch).1 := by
  cases delivery with
  | ok deliveryResult =>
    simp only [Worker.acknowledge]
    split
    next => exact .unchanged
    next committed =>
      rcases markPublished_ok committed with rfl |
        ⟨record, member, action, actionMember, reference, same, unpublished, owned, delivered,
          actionId, rfl⟩
      · exact .unchanged
      · exact .published rfl member same unpublished owned delivered actionMember actionId
  | error errorType =>
    -- a dead letter and a retry are the same update of the row
    have failure : ∀ {db' : Store} {dead : Bool},
        recordFailure db message.id workerId errorType
          (batch.now + retryDelay config message.attemptCount) config.maxAttempts batch.now =
          .ok (db', dead) →
        Acknowledged workerId config db message (.error errorType) batch db' := by
      intro db' dead committed
      obtain ⟨record, member, same, owned, rfl⟩ := recordFailure_ok committed
      exact .failed rfl member same owned
    simp only [Worker.acknowledge]
    split
    next => exact .unchanged
    next committed => exact failure committed
    next committed => exact failure committed

end SupplierAssurance.Outbox
