import SupplierAssurance.Governance.InMemory
import SupplierAssurance.Persistence.Cases

/-! # Writes of `InMemoryActionRepository` and their audit events

Both writes of the repository are made before the audit writer is awaited and undone in an
`except Exception` clause.  Two things leave the repository changed without the event:
`CancelledError` is no `Exception`, so the clause does not run when the task is cancelled; and the
clause of `create_proposal` removes the entry of the action's identifier, which also removes an
action that was stored there before.

`InMemory` has the outcome of the audit writer as an optional exception.  Here the writer is a
function on a log, and its await may also end in a cancellation.
-/

namespace SupplierAssurance.Governance

open Python

/-- How an await ends. -/
inductive AwaitEnd where
  | returned
  /-- An `Exception`. -/
  | raised (detail : String)
  /-- `CancelledError`, or another `BaseException` that is no `Exception`. -/
  | interrupted (detail : String)
deriving DecidableEq, Repr

/-- How a call ends. -/
inductive CallEnd (α : Type) where
  | returned (value : α)
  | raised (error : GovernanceError)
  | interrupted (detail : String)

/-- An audit writer on a log of type `σ`, with what it means that an event has been recorded between
    two states of the log. -/
structure AuditWriter (σ : Type) where
  write : σ → AuditEventCreate → σ × AwaitEnd
  Records : σ → σ → AuditEventCreate → Prop
  records : ∀ log event, (write log event).2 = .returned → Records log (write log event).1 event

/-- `InMemoryCaseRepository.append_audit_event` as an audit writer.  Its lock is never held across an
    `await`, so it never suspends. -/
def caseAuditWriter (ambient : Ambient) : AuditWriter InMemoryCaseRepository where
  write cases event :=
    match cases.appendAuditEvent ambient event with
    | .error e => (cases, .raised e.errorType)
    | .ok cases' => (cases', .returned)
  Records cases cases' event :=
    cases'.events event.caseId =
      cases.events event.caseId ++ [{ event with id := ambient.uuid, createdAt := ambient.now }]
  records := by
    intro cases event ended
    cases found : cases.get event.caseId with
    | error e => simp [InMemoryCaseRepository.appendAuditEvent, found, bind, Except.bind] at ended
    | ok supplierCase =>
      simp [found, InMemoryCaseRepository.appendAuditEvent, bind, Except.bind, pure, Except.pure]

/-- A writer that suspends before it writes.  Where its task is `cancelled` there, nothing is written. -/
def AuditWriter.suspending {σ : Type} (writer : AuditWriter σ) (cancelled : Option String) :
    AuditWriter σ where
  write log event :=
    match cancelled with
    | some detail => (log, .interrupted detail)
    | none => writer.write log event
  Records := writer.Records
  records := by
    intro log event ended
    cases cancelled with
    | some detail => simp at ended
    | none => exact writer.records log event ended

/-- A repository and the log of its audit writer. -/
structure AuditedActions (σ : Type) where
  repo : InMemoryActionRepository
  log : σ

namespace AuditedActions

variable {σ α : Type} (writer : AuditWriter σ) (store : AuditedActions σ)

/-- `try: await self._audit_writer(audit_event)` over a repository that is already `changed`;
    `except Exception` puts `undone` in its place. -/
def awaitAudit (changed undone : InMemoryActionRepository) (auditEvent : AuditEventCreate) (value : α) :
    AuditedActions σ × CallEnd α :=
  match writer.write store.log auditEvent with
  | (log, .returned) => (⟨changed, log⟩, .returned value)
  | (log, .raised detail) => (⟨undone, log⟩, .raised (.auditError detail))
  | (log, .interrupted detail) => (⟨changed, log⟩, .interrupted detail)

/-- `create_proposal`. -/
def createProposal (action : GovernedAction) (auditEvent : AuditEventCreate) :
    AuditedActions σ × CallEnd (GovernedAction × Bool) :=
  match store.repo.idempotency action.tenantKey with
  | some existingId =>
    match store.repo.actions existingId with
    | some existing => (store, .returned (existing, false))
    | none => (store, .raised .keyError)
  | none =>
    let changed := store.repo.storeProposal action
    store.awaitAudit writer changed (changed.dropProposal action) auditEvent (action, true)

/-- `save_transition`. -/
def saveTransition (action : GovernedAction) (auditEvent : AuditEventCreate)
    (expectedStatus : ActionStatus) : AuditedActions σ × CallEnd GovernedAction :=
  match store.repo.checkTransition action expectedStatus with
  | .error e => (store, .raised e)
  | .ok current =>
    let changed := store.repo.setAction action.id action
    store.awaitAudit writer changed (changed.setAction action.id current) auditEvent action

/-- A call that returns has made its change and recorded the event, unless what it returns says that
    it is no write; a call that does not return leaves the repository as it was. -/
def Atomic (changed : InMemoryActionRepository) (auditEvent : AuditEventCreate) (writes : α → Bool)
    (result : AuditedActions σ × CallEnd α) : Prop :=
  match result.2 with
  | .returned value =>
    if writes value then result.1.repo = changed ∧ writer.Records store.log result.1.log auditEvent
    else result.1 = store
  | .raised _ | .interrupted _ => result.1.repo = store.repo

/-- `create_proposal` is atomic; it returns `False` for the replay of a known key. -/
def CreatesAtomically (action : GovernedAction) (auditEvent : AuditEventCreate) : Prop :=
  store.Atomic writer (store.repo.storeProposal action) auditEvent Prod.snd
    (store.createProposal writer action auditEvent)

/-- `save_transition` is atomic. -/
def TransitsAtomically (action : GovernedAction) (auditEvent : AuditEventCreate)
    (expectedStatus : ActionStatus) : Prop :=
  store.Atomic writer (store.repo.setAction action.id action) auditEvent (fun _ => true)
    (store.saveTransition writer action auditEvent expectedStatus)

/-! ## The await -/

variable {writer store} {changed undone : InMemoryActionRepository} {action : GovernedAction}
  {auditEvent : AuditEventCreate} {value : α}

/-- What the three ends of the await need. -/
theorem atomic_awaitAudit_iff {writes : α → Bool} (isWrite : writes value = true) :
    store.Atomic writer changed auditEvent writes
        (store.awaitAudit writer changed undone auditEvent value) ↔
      match (writer.write store.log auditEvent).2 with
      | .returned => True
      | .raised _ => undone = store.repo
      | .interrupted _ => changed = store.repo := by
  have records := writer.records store.log auditEvent
  unfold Atomic awaitAudit
  revert records
  cases writer.write store.log auditEvent with
  | mk log ending =>
    intro records
    cases ending with
    | returned => simpa [isWrite] using records rfl
    | raised detail => exact Iff.rfl
    | interrupted detail => exact Iff.rfl

/-- Without a cancellation this is `create_proposal` with an optional exception of the writer. -/
theorem createProposal_repo {audit : Option String}
    (ended : (writer.write store.log auditEvent).2 = audit.elim .returned .raised) :
    (store.createProposal writer action auditEvent).1.repo =
      (store.repo.createProposal action audit).1 := by
  unfold createProposal InMemoryActionRepository.createProposal awaitAudit
  cases store.repo.idempotency action.tenantKey with
  | some existingId => cases found : store.repo.actions existingId <;> simp [found]
  | none =>
    revert ended
    cases writer.write store.log auditEvent with
    | mk log ending =>
      rintro rfl
      cases audit <;> rfl

/-! ## The two changes -/

theorem storeProposal_ne (fresh : store.repo.idempotency action.tenantKey = none) :
    store.repo.storeProposal action ≠ store.repo := by
  intro same
  have bound : (store.repo.storeProposal action).idempotency action.tenantKey = some action.id :=
    Function.update_self ..
  rw [same, fresh] at bound
  cases bound

/-- Both entries are removed, so both have to be new. -/
theorem dropProposal_storeProposal_iff (fresh : store.repo.idempotency action.tenantKey = none) :
    (store.repo.storeProposal action).dropProposal action = store.repo ↔
      store.repo.actions action.id = none := by
  constructor
  · intro same
    have dropped : ((store.repo.storeProposal action).dropProposal action).actions action.id = none :=
      Function.update_self ..
    rw [same] at dropped
    exact dropped
  · intro absent
    have actions := Function.update_eq_self action.id store.repo.actions
    have keys := Function.update_eq_self action.tenantKey store.repo.idempotency
    rw [absent] at actions
    rw [fresh] at keys
    simp [InMemoryActionRepository.dropProposal, InMemoryActionRepository.storeProposal, actions, keys]

theorem setAction_eq_self_iff {actionId : UUID} :
    store.repo.setAction actionId action = store.repo ↔ store.repo.actions actionId = some action := by
  constructor
  · intro same
    have bound : (store.repo.setAction actionId action).actions actionId = some action :=
      Function.update_self ..
    rw [same] at bound
    exact bound
  · intro found
    have actions := Function.update_eq_self actionId store.repo.actions
    rw [found] at actions
    simp [InMemoryActionRepository.setAction, actions]

theorem setAction_setAction (action current : GovernedAction) :
    (store.repo.setAction action.id action).setAction action.id current =
      store.repo.setAction action.id current := by
  simp [InMemoryActionRepository.setAction]

/-! ## Where the writes are atomic -/

/-- `create_proposal`: the key is known and nothing is written; or the audit writer returns; or it
    raises an `Exception` and no action was stored under the identifier. -/
theorem createsAtomically_iff :
    store.CreatesAtomically writer action auditEvent ↔
      store.repo.idempotency action.tenantKey ≠ none ∨
        match (writer.write store.log auditEvent).2 with
        | .returned => True
        | .raised _ => store.repo.actions action.id = none
        | .interrupted _ => False := by
  unfold CreatesAtomically createProposal
  cases known : store.repo.idempotency action.tenantKey with
  | some existingId =>
    refine iff_of_true ?_ (.inl (Option.some_ne_none existingId))
    cases found : store.repo.actions existingId with
    | none => simp [Atomic, found]
    | some existing => simp [Atomic, found]
  | none =>
    rw [atomic_awaitAudit_iff rfl]
    simp only [ne_eq, not_true_eq_false, false_or]
    cases (writer.write store.log auditEvent).2 with
    | returned => exact Iff.rfl
    | raised detail => exact dropProposal_storeProposal_iff known
    | interrupted detail => exact iff_of_false (storeProposal_ne known) id

/-- `save_transition`: no stored action passes its checks; or the await is not interrupted; or the
    stored action is the one to be saved. -/
theorem transitsAtomically_iff {expectedStatus : ActionStatus} :
    store.TransitsAtomically writer action auditEvent expectedStatus ↔
      (∀ current, store.repo.actions action.id = some current → current.status ≠ expectedStatus) ∨
        (∀ detail, (writer.write store.log auditEvent).2 ≠ .interrupted detail) ∨
        store.repo.actions action.id = some action := by
  unfold TransitsAtomically saveTransition
  cases checked : store.repo.checkTransition action expectedStatus with
  | error e =>
    refine iff_of_true rfl (.inl fun current found expected => ?_)
    have passed := InMemoryActionRepository.checkTransition_eq_ok.mpr ⟨found, expected⟩
    rw [checked] at passed
    cases passed
  | ok current =>
    obtain ⟨found, expected⟩ := InMemoryActionRepository.checkTransition_eq_ok.mp checked
    -- the undo stores the action that was checked
    have restored : (store.repo.setAction action.id action).setAction action.id current = store.repo := by
      rw [setAction_setAction, setAction_eq_self_iff, found]
    have passes : ¬ ∀ stored, store.repo.actions action.id = some stored →
        stored.status ≠ expectedStatus := fun fails => fails current found expected
    rw [atomic_awaitAudit_iff rfl, or_iff_right passes]
    cases (writer.write store.log auditEvent).2 with
    | returned => simp
    | raised detail => simp [restored]
    | interrupted detail => simp [setAction_eq_self_iff]

end AuditedActions

section

variable {σ : Type} (writer : AuditWriter σ) (store : AuditedActions σ) (action : GovernedAction)
  (auditEvent : AuditEventCreate)

/-- A write is undone by an `Exception` only, and the undone proposal takes with it what was stored
    under its identifier. -/
theorem writes_atomic_iff :
    (store.CreatesAtomically writer action auditEvent ↔
      store.repo.idempotency action.tenantKey ≠ none ∨
        match (writer.write store.log auditEvent).2 with
        | .returned => True
        | .raised _ => store.repo.actions action.id = none
        | .interrupted _ => False) ∧
    ∀ expectedStatus, store.TransitsAtomically writer action auditEvent expectedStatus ↔
      (∀ current, store.repo.actions action.id = some current → current.status ≠ expectedStatus) ∨
        (∀ detail, (writer.write store.log auditEvent).2 ≠ .interrupted detail) ∨
        store.repo.actions action.id = some action :=
  ⟨AuditedActions.createsAtomically_iff, fun _ => AuditedActions.transitsAtomically_iff⟩

end

/-! ## Cancelled writes -/

def pendingAction : GovernedAction where
  id := ⟨1⟩
  caseId := ⟨2⟩
  reviewId := ⟨3⟩
  tenantId := "tenant"
  toolName := "set_onboarding_decision"
  arguments := ⟨⟨2⟩, ⟨3⟩, .approve, "No findings.", [], by decide, by decide⟩
  status := .pendingApproval
  proposerId := "analyst"
  approverId := none
  approvalComment := ""
  idempotencyKey := ⟨4⟩
  workflowExecutionArn := none
  executionReceipt := none
  createdAt := 0
  decidedAt := none
  executedAt := none

/-- Its case. -/
def openCases : InMemoryCaseRepository where
  cases _ := some {
    id := ⟨2⟩
    tenantId := "tenant"
    supplierName := "Supplier"
    description := ""
    status := .pendingApproval
    documents := []
    createdAt := 0
    updatedAt := 0
    tenantId_bounded := by decide
  }
  reviews _ := []
  reviewsById _ := none
  events _ := []

def noCases : InMemoryCaseRepository :=
  ⟨fun _ => none, fun _ => [], fun _ => none, fun _ => []⟩

def sampleWriter : AuditWriter InMemoryCaseRepository :=
  caseAuditWriter ⟨0, ⟨5⟩, ⟨6⟩⟩

def cancelledWriter : AuditWriter InMemoryCaseRepository :=
  sampleWriter.suspending (some "CancelledError")

def approvedAction : GovernedAction :=
  { pendingAction with status := .approved, approverId := some "approver", decidedAt := some 1 }

def approvalEvent : AuditEventCreate :=
  decidedEvent approvedAction ⟨"approver", "tenant", [.approver], by decide, by decide⟩

/-- Cancelled while it waits for an audit writer that suspends, either write stays; and a proposal whose
    audit event `append_audit_event` refuses removes an action of the same identifier under another
    key. -/
theorem writes_stay_behind :
    ¬ (AuditedActions.mk .empty openCases).CreatesAtomically cancelledWriter pendingAction
        (proposedEvent pendingAction) ∧
      ¬ (AuditedActions.mk (InMemoryActionRepository.empty.storeProposal pendingAction)
          openCases).TransitsAtomically cancelledWriter approvedAction approvalEvent .pendingApproval ∧
      ¬ (AuditedActions.mk (InMemoryActionRepository.empty.storeProposal pendingAction)
          noCases).CreatesAtomically sampleWriter { pendingAction with idempotencyKey := ⟨7⟩ }
          (proposedEvent pendingAction) := by
  have cancelled : (cancelledWriter.write openCases approvalEvent).2 = .interrupted "CancelledError" := rfl
  refine ⟨?_, ?_, ?_⟩
  · rw [AuditedActions.createsAtomically_iff]
    rintro (known | ended)
    · exact known rfl
    · exact ended
  · rw [AuditedActions.transitsAtomically_iff]
    rintro (fails | uninterrupted | same)
    · exact fails pendingAction rfl rfl
    · exact uninterrupted _ cancelled
    · exact absurd same (by decide)
  · rw [AuditedActions.createsAtomically_iff]
    rintro (known | absent)
    · exact known rfl
    · exact absurd (show some pendingAction = none from absent) (by decide)

end SupplierAssurance.Governance
