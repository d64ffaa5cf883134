import SupplierAssurance.Python.Json
import Mathlib.Data.Rat.Defs
import Mathlib.Algebra.Order.Ring.Rat

/-! # Domain schemas

The Pydantic models of `packages/schemas`.  A model whose `Field(...)` bounds are checked
whenever a value of it is built carries these bounds as fields, so a value outside them
cannot be formed here either.  `GovernedAction` carries none: the service changes it with
`model_copy`, which does not validate.

A `datetime` is a number of microseconds since the epoch in UTC, a `timedelta` a number
of microseconds, and a float that is only stored and compared is its exact rational value.
-/

namespace SupplierAssurance

open Python

abbrev Datetime := Int
abbrev Timedelta := Int

/-- `Field(min_length=lo, max_length=hi)`. -/
def Bounded (lo hi : Nat) (s : String) : Prop :=
  lo ≤ s.length ∧ s.length ≤ hi

instance (lo hi : Nat) (s : String) : Decidable (Bounded lo hi s) :=
  inferInstanceAs (Decidable (lo ≤ s.length ∧ s.length ≤ hi))

/-! ## `identity.py` -/

inductive Role where
  | analyst | approver | executor | admin
deriving DecidableEq, Repr

def Role.value : Role → String
  | .analyst => "analyst"
  | .approver => "approver"
  | .executor => "executor"
  | .admin => "admin"

structure Principal where
  subject : String
  tenantId : String
  roles : List Role
  subject_bounded : Bounded 1 255 subject
  tenantId_bounded : Bounded 1 255 tenantId
deriving DecidableEq

def Principal.hasRole (principal : Principal) (role : Role) : Bool :=
  role ∈ principal.roles || .admin ∈ principal.roles

/-! ## `cases.py` -/

inductive CaseStatus where
  | new | inReview | pendingApproval | approved | rejected | reviewFailed
deriving DecidableEq, Repr

structure DocumentInput where
  title : String
  content : String
  sourceUri : Option String
  title_bounded : Bounded 1 255 title
  content_nonempty : 1 ≤ content.length
deriving DecidableEq

structure SupplierCase where
  id : UUID
  tenantId : String
  supplierName : String
  description : String
  status : CaseStatus
  documents : List DocumentInput
  createdAt : Datetime
  updatedAt : Datetime
  tenantId_bounded : Bounded 1 255 tenantId
deriving DecidableEq

/-! ## `reviews.py` -/

inductive RiskCategory where
  | security | legal | financial
deriving DecidableEq, Repr

inductive Severity where
  | low | medium | high | critical
deriving DecidableEq, Repr

structure Evidence where
  documentTitle : String
  quote : String
  sourceUri : Option String
  quote_bounded : Bounded 1 1000 quote
deriving DecidableEq

structure Finding where
  id : UUID
  category : RiskCategory
  severity : Severity
  title : String
  summary : String
  evidence : List Evidence
  remediation : String
  confidence : ℚ
  confidence_range : 0 ≤ confidence ∧ confidence ≤ 1
deriving DecidableEq

structure FindingBatch where
  findings : List Finding
deriving DecidableEq

inductive Decision where
  | approve | remediate | escalate | reject
deriving DecidableEq, Repr

def Decision.value : Decision → String
  | .approve => "approve"
  | .remediate => "remediate"
  | .escalate => "escalate"
  | .reject => "reject"

structure Recommendation where
  decision : Decision
  rationale : String
  requiredActions : List String
  confidence : ℚ
  confidence_range : 0 ≤ confidence ∧ confidence ≤ 1
deriving DecidableEq

structure ReviewResult where
  reviewId : UUID
  caseId : UUID
  findings : List Finding
  recommendation : Recommendation
  modelBackend : String
  startedAt : Datetime
  completedAt : Datetime
deriving DecidableEq

inductive EvidenceConfirmationDecision where
  | confirm | reject
deriving DecidableEq, Repr

def EvidenceConfirmationDecision.value : EvidenceConfirmationDecision → String
  | .confirm => "confirm"
  | .reject => "reject"

structure EvidenceConfirmation where
  decision : EvidenceConfirmationDecision
  comment : String
  comment_bounded : Bounded 1 2000 comment
deriving DecidableEq

inductive ReviewExecutionStatus where
  | running | awaitingInput | completed | cancelled
deriving DecidableEq, Repr

structure ReviewInterrupt where
  question : String
  findingCount : Nat
  categories : List RiskCategory
deriving DecidableEq

structure ReviewExecution where
  executionId : UUID
  caseId : UUID
  status : ReviewExecutionStatus
  interrupt : Option ReviewInterrupt
  result : Option ReviewResult
deriving DecidableEq

/-! ## `actions.py` -/

inductive ActionStatus where
  | pendingApproval | approved | rejected | executed | failed
deriving DecidableEq, Repr

def ActionStatus.value : ActionStatus → String
  | .pendingApproval => "pending_approval"
  | .approved => "approved"
  | .rejected => "rejected"
  | .executed => "executed"
  | .failed => "failed"

inductive ApprovalDecision where
  | approve | reject
deriving DecidableEq, Repr

structure SupplierDecisionArguments where
  supplierCaseId : UUID
  reviewId : UUID
  decision : Decision
  rationale : String
  requiredActions : List String
  rationale_bounded : Bounded 1 4000 rationale
  requiredActions_bounded : requiredActions.length ≤ 100
deriving DecidableEq

/-- The validating constructor; `none` is Pydantic's `ValidationError`. -/
def SupplierDecisionArguments.validate? (supplierCaseId reviewId : UUID) (decision : Decision)
    (rationale : String) (requiredActions : List String) : Option SupplierDecisionArguments :=
  if h : Bounded 1 4000 rationale ∧ requiredActions.length ≤ 100 then
    some ⟨supplierCaseId, reviewId, decision, rationale, requiredActions, h.1, h.2⟩
  else none

structure ActionProposalRequest where
  idempotencyKey : UUID
deriving DecidableEq

structure ApprovalRequest where
  decision : ApprovalDecision
  comment : String
  comment_bounded : comment.length ≤ 2000
deriving DecidableEq

structure ExecutionReceipt where
  actionId : UUID
  externalReference : String
  appliedDecision : Decision
  executedAt : Datetime
  externalReference_bounded : Bounded 1 255 externalReference
deriving DecidableEq

/-- `GovernedAction`, and the row of `governed_actions`: the table has one column for
    each field. -/
structure GovernedAction where
  id : UUID
  caseId : UUID
  reviewId : UUID
  tenantId : String
  toolName : String
  arguments : SupplierDecisionArguments
  status : ActionStatus
  proposerId : String
  approverId : Option String
  approvalComment : String
  idempotencyKey : UUID
  workflowExecutionArn : Option String
  executionReceipt : Option ExecutionReceipt
  createdAt : Datetime
  decidedAt : Option Datetime
  executedAt : Option Datetime
deriving DecidableEq

/-! ## `audit.py` -/

structure AuditEventCreate where
  caseId : UUID
  eventType : String
  actorId : String
  payload : List (String × Scalar)
deriving DecidableEq

/-- `AuditEvent`, and the row of `audit_events`. -/
structure AuditEvent extends AuditEventCreate where
  id : UUID
  createdAt : Datetime
deriving DecidableEq

/-! ## `outbox.py` -/

structure ApprovalWorkflowStartPayload where
  actionId : UUID
  caseId : UUID
  tenantId : String
deriving DecidableEq

/-- `OutboxEventType.APPROVAL_WORKFLOW_START`, its only member. -/
def approvalWorkflowStart : String := "approval.workflow.start"

structure OutboxMessageCreate where
  aggregateType : String
  aggregateId : UUID
  eventType : String
  payload : ApprovalWorkflowStartPayload
deriving DecidableEq

/-- The row of `outbox_messages`; `OutboxMessage` has the same fields and a status that is
    derived from them. -/
structure OutboxMessage extends OutboxMessageCreate where
  id : UUID
  attemptCount : Nat
  availableAt : Datetime
  lockedAt : Option Datetime
  lockedBy : Option String
  publishedAt : Option Datetime
  deadLetteredAt : Option Datetime
  lastError : Option String
  deliveryResult : Option (List (String × String))
  createdAt : Datetime
deriving DecidableEq

inductive OutboxStatus where
  | pending | published | deadLettered
deriving DecidableEq, Repr

/-- The status that `_message_from_record` derives. -/
def OutboxMessage.status (message : OutboxMessage) : OutboxStatus :=
  if message.publishedAt.isSome then .published
  else if message.deadLetteredAt.isSome then .deadLettered
  else .pending

structure OutboxDispatchResult where
  claimed : Nat
  published : Nat
  retried : Nat
  deadLettered : Nat
deriving DecidableEq

/-! ## The values that examples share -/

theorem sampleTenant_bounded : Bounded 1 255 "tenant-a" := by decide

theorem sampleAnalyst_bounded : Bounded 1 255 "ana" := by decide

theorem certain_range : 0 ≤ (1 : ℚ) ∧ (1 : ℚ) ≤ 1 := ⟨zero_le_one, le_rfl⟩

end SupplierAssurance
