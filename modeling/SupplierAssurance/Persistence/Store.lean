import SupplierAssurance.Lib.Table
import SupplierAssurance.Schemas

/-! # The tables written by governance and by the outbox

`Store` is the committed content of `governed_actions`, `audit_events` and
`outbox_messages` with their primary keys and unique constraints.  Of `supplier_cases`
and `review_runs` only the primary keys are kept: the three tables refer to them
through foreign keys and read nothing else of them.

A text column takes no U+0000.  The one such column that a request fills freely is
`approval_comment`, and `save_transition` writes it under `StorableText`; `mark_published` writes
`workflow_execution_arn` under `Varchar 2048`.  The other strings of these tables are constants, names
of exception types cut to the width, and identifiers of principals, which are taken to fit.
-/

namespace SupplierAssurance

open Python Lib

/-- A text that PostgreSQL can store. -/
def StorableText (text : String) : Prop :=
  Char.ofNat 0 ∉ text.toList

instance (text : String) : Decidable (StorableText text) :=
  inferInstanceAs (Decidable (¬ _))

/-- `VARCHAR(width)`. -/
def Varchar (width : Nat) (text : String) : Prop :=
  text.length ≤ width ∧ StorableText text

instance (width : Nat) (text : String) : Decidable (Varchar width text) :=
  inferInstanceAs (Decidable (_ ∧ _))

/-- `uq_governed_actions_tenant_idempotency`. -/
def GovernedAction.tenantKey (action : GovernedAction) : String × UUID :=
  (action.tenantId, action.idempotencyKey)

/-- `uq_outbox_messages_aggregate_event`. -/
def OutboxMessage.aggregateEvent (message : OutboxMessage) : String × UUID × String :=
  (message.aggregateType, message.aggregateId, message.eventType)

structure Store where
  caseIds : List UUID
  reviewIds : List UUID
  actions : Table GovernedAction.id GovernedAction.tenantKey
  audit : Table AuditEvent.id AuditEvent.id
  outbox : Table OutboxMessage.id OutboxMessage.aggregateEvent

namespace Store

/-- A store with no action, audit event or message; cases and reviews may exist. -/
def empty (caseIds reviewIds : List UUID) : Store :=
  ⟨caseIds, reviewIds, .empty, .empty, .empty⟩

end Store

/-- What a step of a process reads from its surroundings: the clock and fresh `uuid4`
    values.  Nothing is assumed of either. -/
structure Ambient where
  now : Datetime
  uuid : UUID
  uuid' : UUID

end SupplierAssurance
