import SupplierAssurance.Governance.Repository
import SupplierAssurance.Lib.StatesLanguage

/-! # The approval workflow in production

The function that reads the committed status of an action for Step Functions, and the
state machine that polls it.

The state machine carries the action's id around a loop: the input of an execution is the
text that `StepFunctionsApprovalWorkflow.start` wrote, with five fields, and after the first
poll it is the response of the function, with two.  Both have the id at `$.action_id`.
-/

namespace SupplierAssurance.ApprovalStatus

open Python Lib Governance

/-! ## The function -/

structure ApprovalStatusRequest where
  actionId : UUID

structure ApprovalStatusResponse where
  actionId : UUID
  status : ActionStatus

/-- `ApprovalStatusRequest.model_validate`: one field, and no other one. -/
def ApprovalStatusRequest.modelValidate : Json → Option ApprovalStatusRequest
  | .obj [(name, .str text)] =>
    if name = "action_id" then (UUID.parse text).map ApprovalStatusRequest.mk else none
  | _ => none

def ApprovalStatusResponse.modelDump (response : ApprovalStatusResponse) : Json :=
  .obj [("action_id", .str response.actionId.str), ("status", .str response.status.value)]

/-- `_read_status`; an error is the type name of the exception. -/
def readStatus (db : Store) (request : ApprovalStatusRequest) :
    Except String ApprovalStatusResponse :=
  match db.actions.find? request.actionId with
  | none => .error "RuntimeError"
  | some record => .ok ⟨request.actionId, record.status⟩

def handler (db : Store) (event : Json) : Except String Json :=
  match ApprovalStatusRequest.modelValidate event with
  | none => .error "ValidationError"
  | some request => (readStatus db request).map ApprovalStatusResponse.modelDump

/-! ## The state machine -/

def checkApproval : States.State :=
  .task [("action_id", "action_id")]
    { errorEquals := ["Lambda.ServiceException", "Lambda.AWSLambdaException",
        "Lambda.SdkClientException", "Lambda.TooManyRequestsException"]
      intervalSeconds := 2
      maxAttempts := 6
      backoffRate := 2 }
    "RouteApprovalStatus"

def routeApproval : States.State :=
  .choice [⟨"status", "pending_approval", "WaitForHumanDecision"⟩,
    ⟨"status", "approved", "ApprovalSucceeded"⟩,
    ⟨"status", "executed", "ApprovalSucceeded"⟩,
    ⟨"status", "rejected", "ApprovalRejected"⟩] "ApprovalUnexpectedState"

def approvalStateMachine : States.Machine where
  startAt := "CheckCommittedApproval"
  states := [("CheckCommittedApproval", checkApproval),
    ("RouteApprovalStatus", routeApproval),
    ("WaitForHumanDecision", .wait 300 "CheckCommittedApproval"),
    ("ApprovalSucceeded", .succeed),
    ("ApprovalRejected", .fail "SupplierActionRejected"
      "The governed supplier action was rejected by a human approver."),
    ("ApprovalUnexpectedState", .fail "SupplierActionUnexpectedState"
      "The governed supplier action entered an unexpected terminal state.")]
  timeoutSeconds := 2592000

/-- What a poll answers: `fault` is the error of an invocation that does not reach the
    database, or does not come back from it. -/
def invoke (db : Store) (fault : Option String) (event : Json) : Except String Json :=
  match fault with
  | some error => .error error
  | none => handler db event

/-! ## One step of an execution -/

variable {db : Store} {a : GovernedAction} {now due attempts : Nat} {input : Json}

/-- The response of the function for `id`. -/
def answer (id : UUID) (status : ActionStatus) : Json :=
  ApprovalStatusResponse.modelDump ⟨id, status⟩

@[simp] theorem field_answer_id (id : UUID) (status : ActionStatus) :
    States.field (answer id status) "action_id" = some (.str id.str) := rfl

@[simp] theorem field_answer_status (id : UUID) (status : ActionStatus) :
    States.field (answer id status) "status" = some (.str status.value) := by
  rw [answer, ApprovalStatusResponse.modelDump, States.field, List.lookup_cons, List.lookup_cons]
  rfl

/-- A stored action is found under the id that the state machine passes on. -/
theorem handler_stored (member : a ∈ db.actions.rows) :
    handler db (.obj [("action_id", .str a.id.str)]) = .ok (answer a.id a.status) := by
  have found : db.actions.find? a.id = some a := Table.find?_eq_some.mpr ⟨member, rfl⟩
  simp only [handler, ApprovalStatusRequest.modelValidate, if_true, UUID.parse_str, Option.map_some,
    readStatus, found]
  rfl

/-- The state that a committed status leads to. -/
def routeOf : ActionStatus → String
  | .pendingApproval => "WaitForHumanDecision"
  | .approved | .executed => "ApprovalSucceeded"
  | .rejected => "ApprovalRejected"
  | .failed => "ApprovalUnexpectedState"

theorem payload_action {id : UUID} (about : States.field input "action_id" = some (.str id.str)) :
    States.payload [("action_id", "action_id")] input = some (.obj [("action_id", .str id.str)]) := by
  simp [States.payload, about]

theorem run_check (member : a ∈ db.actions.rows)
    (about : States.field input "action_id" = some (.str a.id.str)) :
    States.State.run approvalStateMachine now (invoke db none) "CheckCommittedApproval" input attempts
        checkApproval =
      .running "RouteApprovalStatus" (answer a.id a.status) now 0 := by
  simp only [checkApproval, States.State.run, payload_action about, invoke, handler_stored member]
  rfl

theorem run_route (id : UUID) (status : ActionStatus) :
    States.State.run approvalStateMachine now invoked "RouteApprovalStatus" (answer id status) attempts
        routeApproval =
      approvalStateMachine.enter (routeOf status) (answer id status) now := by
  cases status <;> simp [routeApproval, States.State.run, States.choose, routeOf, ActionStatus.value]

end SupplierAssurance.ApprovalStatus
