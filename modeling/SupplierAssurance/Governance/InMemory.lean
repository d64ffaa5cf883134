import Mathlib.Logic.Function.Basic
import SupplierAssurance.Governance.Service

/-! # `InMemoryActionRepository`

Two dictionaries under one lock.  Each write is followed by the audit writer, whose
exception undoes it; the parts before and after that await are functions of their own.

A dictionary is a function to `Option`: `d[k] = v` is `Function.update d k (some v)` and
`d.pop(k, None)` is `Function.update d k none`.
-/

namespace SupplierAssurance.Governance

open Python

structure InMemoryActionRepository where
  actions : UUID → Option GovernedAction
  idempotency : String × UUID → Option UUID

namespace InMemoryActionRepository

def empty : InMemoryActionRepository := ⟨fun _ => none, fun _ => none⟩

/-- The two assignments of `create_proposal`. -/
def storeProposal (repo : InMemoryActionRepository) (action : GovernedAction) :
    InMemoryActionRepository where
  actions := Function.update repo.actions action.id (some action)
  idempotency := Function.update repo.idempotency action.tenantKey (some action.id)

/-- What the `except` clause of `create_proposal` does. -/
def dropProposal (repo : InMemoryActionRepository) (action : GovernedAction) :
    InMemoryActionRepository where
  actions := Function.update repo.actions action.id none
  idempotency := Function.update repo.idempotency action.tenantKey none

/-- `create_proposal` with the outcome of the audit writer, `none` for a normal return.  The
    repository that is left behind matters also when the call raises. -/
def createProposal (repo : InMemoryActionRepository) (action : GovernedAction)
    (audit : Option String) :
    InMemoryActionRepository × Except GovernanceError (GovernedAction × Bool) :=
  match repo.idempotency action.tenantKey with
  | some existingId =>
    match repo.actions existingId with
    | some existing => (repo, .ok (existing, false))
    | none => (repo, .error .keyError)
  | none =>
    match audit with
    | none => (repo.storeProposal action, .ok (action, true))
    | some detail => ((repo.storeProposal action).dropProposal action, .error (.auditError detail))

def get (repo : InMemoryActionRepository) (actionId : UUID) :
    Except GovernanceError GovernedAction :=
  match repo.actions actionId with
  | none => .error (actionNotFound actionId)
  | some action => .ok action

/-- The checks of `save_transition`; what they return is the action to restore. -/
def checkTransition (repo : InMemoryActionRepository) (action : GovernedAction)
    (expectedStatus : ActionStatus) : Except GovernanceError GovernedAction :=
  match repo.actions action.id with
  | none => .error (actionNotFound action.id)
  | some current =>
    if current.status ≠ expectedStatus then
      .error (.transitionConflict
        ("Action " ++ action.id.str ++ " is already " ++ current.status.value))
    else .ok current

/-- The checks pass for a stored action with the expected status. -/
theorem checkTransition_eq_ok {repo : InMemoryActionRepository} {action current : GovernedAction}
    {expectedStatus : ActionStatus} : repo.checkTransition action expectedStatus = .ok current ↔
      repo.actions action.id = some current ∧ current.status = expectedStatus := by
  unfold checkTransition
  cases repo.actions action.id with
  | none => simp
  | some found =>
    by_cases expected : found.status = expectedStatus
    · simp only [expected, ne_eq, not_true_eq_false, if_false, Except.ok.injEq, Option.some.injEq]
      constructor
      · rintro rfl
        exact ⟨rfl, expected⟩
      · exact fun same => same.1
    · simp only [ne_eq, expected, not_false_eq_true, if_true, reduceCtorEq, Option.some.injEq,
        false_iff, not_and]
      rintro rfl
      exact expected

/-- `_actions[action_id] = action`. -/
def setAction (repo : InMemoryActionRepository) (actionId : UUID) (action : GovernedAction) :
    InMemoryActionRepository :=
  { repo with actions := Function.update repo.actions actionId (some action) }

end InMemoryActionRepository

/-! ## `propose` without an outbox -/

/-- One call of `propose`: its arguments, the clock, and how the approval workflow and the audit
    writer answer. -/
structure ProposeCall where
  request : ProposeRequest
  now : Datetime
  workflow : Except String String
  audit : Option String

/-- The action that the call hands to `create_proposal`. -/
def ProposeCall.action (call : ProposeCall) : Except GovernanceError GovernedAction := do
  let action ← prepareAction call.request call.now
  match call.workflow with
  | .error detail => throw (.workflowError detail)
  | .ok reference => return { action with workflowExecutionArn := some reference }

def proposeInMemory (repo : InMemoryActionRepository) (call : ProposeCall) :
    InMemoryActionRepository × Except GovernanceError GovernedAction :=
  match call.action with
  | .error e => (repo, .error e)
  | .ok action =>
    match repo.createProposal action call.audit with
    | (repo', .error e) => (repo', .error e)
    | (repo', .ok (stored, _)) => (repo', settleProposal action stored)

end SupplierAssurance.Governance
