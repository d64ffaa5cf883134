import SupplierAssurance.Governance.Proposals
import SupplierAssurance.Governance.Sequential

/-! # The in-memory repository is a double of the SQL one

The service over both repositories, call by call.  What the two sides draw for themselves
may differ: the clock, the identifiers of audit events and messages, the workflow
reference; `timeless` leaves these out.  A comment with U+0000 tells the two apart: the
dictionary holds it, the column of PostgreSQL does not.

`Twins` is the simulation: the dictionary of actions and the table of rows agree on every
identifier, the dictionary of idempotency keys and the unique constraint on every key, and
the two audit logs on every case.
-/

namespace SupplierAssurance

def ExecutionReceipt.timeless (receipt : ExecutionReceipt) : ExecutionReceipt :=
  { receipt with executedAt := 0 }

def GovernedAction.timeless (action : GovernedAction) : GovernedAction :=
  { action with
    workflowExecutionArn := none
    executionReceipt := action.executionReceipt.map ExecutionReceipt.timeless
    createdAt := 0
    decidedAt := action.decidedAt.map fun _ => 0
    executedAt := action.executedAt.map fun _ => 0 }

end SupplierAssurance

namespace SupplierAssurance.Governance

open Python Lib

def Response.timeless : Response → Response
  | .action a => .action a.timeless
  | .receipt r => .receipt r.timeless

/-! ## Results that agree under a function -/

theorem option_map_eq {α β γ : Type} {f : α → γ} {g : β → γ} {x : Option α} {y : Option β}
    (same : x.map f = y.map g) :
    (x = none ∧ y = none) ∨ ∃ a b, x = some a ∧ y = some b ∧ f a = g b := by
  cases x with
  | none =>
    cases y with
    | none => exact .inl ⟨rfl, rfl⟩
    | some b => simp at same
  | some a =>
    cases y with
    | none => simp at same
    | some b => exact .inr ⟨a, b, rfl, rfl, by simpa using same⟩

theorem except_map_eq {ε α β γ : Type} {f : α → γ} {g : β → γ} {x : Except ε α} {y : Except ε β}
    (same : x.map f = y.map g) :
    (∃ e, x = .error e ∧ y = .error e) ∨ ∃ a b, x = .ok a ∧ y = .ok b ∧ f a = g b := by
  cases x with
  | error e =>
    cases y with
    | error e' => exact .inl ⟨e, rfl, by simpa [Except.map] using same.symm⟩
    | ok b => simp [Except.map] at same
  | ok a =>
    cases y with
    | error e' => simp [Except.map] at same
    | ok b => exact .inr ⟨a, b, rfl, rfl, by simpa [Except.map] using same⟩

/-! ## The pure parts do not look at the clock -/

section

variable {a b : GovernedAction} {principal : Principal}

/-- The fields that `timeless` keeps. -/
structure Alike (a b : GovernedAction) : Prop where
  id : a.id = b.id
  caseId : a.caseId = b.caseId
  reviewId : a.reviewId = b.reviewId
  tenantId : a.tenantId = b.tenantId
  arguments : a.arguments = b.arguments
  status : a.status = b.status
  proposerId : a.proposerId = b.proposerId
  approvalComment : a.approvalComment = b.approvalComment
  idempotencyKey : a.idempotencyKey = b.idempotencyKey
  toolName : a.toolName = b.toolName
  receipt : a.executionReceipt.map ExecutionReceipt.timeless =
    b.executionReceipt.map ExecutionReceipt.timeless

theorem alike_of_timeless (same : a.timeless = b.timeless) : Alike a b := by
  obtain ⟨⟩ := a
  obtain ⟨⟩ := b
  simp only [GovernedAction.timeless, GovernedAction.mk.injEq] at same
  constructor <;> simp [same]

theorem settleProposal_timeless {stored stored' : GovernedAction} (same : a.timeless = b.timeless)
    (same' : stored.timeless = stored'.timeless) :
    (settleProposal a stored).map GovernedAction.timeless =
      (settleProposal b stored').map GovernedAction.timeless := by
  have alike := alike_of_timeless same
  have alike' := alike_of_timeless same'
  simp only [settleProposal, alike.caseId, alike.reviewId, alike'.caseId, alike'.reviewId]
  split
  · rfl
  · simp [Except.map, same']

/-- What `decide` writes into its copy. -/
def decidedCopy (action : GovernedAction) (request : ApprovalRequest) (principal : Principal)
    (now : Datetime) : GovernedAction :=
  { action with
    status := decidedStatus request.decision
    approverId := some principal.subject
    approvalComment := request.comment
    decidedAt := some now }

theorem decidedCopy_timeless (same : a.timeless = b.timeless) (request : ApprovalRequest)
    (principal : Principal) (now now' : Datetime) :
    (decidedCopy a request principal now).timeless = (decidedCopy b request principal now').timeless := by
  have copies (c : GovernedAction) (now : Datetime) : (decidedCopy c request principal now).timeless =
      decidedCopy c.timeless request principal 0 := rfl
  rw [copies, copies, same]

theorem executedAction_timeless {receipt receipt' : ExecutionReceipt} (same : a.timeless = b.timeless)
    (sameReceipt : receipt.timeless = receipt'.timeless) :
    (executedAction a receipt).timeless = (executedAction b receipt').timeless := by
  have copies (c : GovernedAction) (receipt : ExecutionReceipt) :
      (executedAction c receipt).timeless = executedAction c.timeless receipt.timeless := rfl
  rw [copies, copies, same, sameReceipt]

/-- The checks of `decide` give the same exception, or both sides write alike copies. -/
theorem judge_timeless (same : a.timeless = b.timeless) (request : ApprovalRequest)
    (principal : Principal) (now now' : Datetime) :
    (judge a request principal now).map GovernedAction.timeless =
      (judge b request principal now').map GovernedAction.timeless := by
  have alike := alike_of_timeless same
  have copies := decidedCopy_timeless same request principal now now'
  unfold judge
  simp only [decidedCopy, alike.id, alike.tenantId, alike.proposerId] at copies
  rw [alike.id, alike.tenantId, alike.proposerId, alike.status]
  cases requireTenant principal b.tenantId with
  | error e => rfl
  | ok =>
    by_cases own : b.proposerId = principal.subject
    · simp [own, bind, Except.bind, throw, throwThe, MonadExceptOf.throw]
    · by_cases pending : b.status = .pendingApproval
      · simp only [own, pending, bind, Except.bind, pure, Except.pure, if_false, ne_eq,
          not_true_eq_false]
        exact congrArg Except.ok copies
      · simp [own, pending, bind, Except.bind, throw, throwThe, MonadExceptOf.throw]

theorem planExecution_timeless (same : a.timeless = b.timeless) (principal : Principal) :
    (planExecution a principal).map (Option.map ExecutionReceipt.timeless) =
      (planExecution b principal).map (Option.map ExecutionReceipt.timeless) := by
  have alike := alike_of_timeless same
  have receipt := alike.receipt
  unfold planExecution
  rw [alike.id, alike.tenantId, alike.status]
  cases requireTenant principal b.tenantId with
  | error e => rfl
  | ok =>
    rcases option_map_eq receipt with ⟨found, found'⟩ | ⟨r, r', found, found', sameReceipt⟩
    · simp only [found, found']
    · simp only [found, found']
      cases b.status <;> simp [bind, Except.bind, Except.map, pure, Except.pure, sameReceipt]

theorem prepareAction_timeless (r : ProposeRequest) (now now' : Datetime) :
    (prepareAction r now).map GovernedAction.timeless =
      (prepareAction r now').map GovernedAction.timeless := by
  have built : (buildAction r now).map GovernedAction.timeless =
      (buildAction r now').map GovernedAction.timeless := by
    simp only [buildAction, Option.map_map]
    rfl
  unfold prepareAction
  cases requireRole r.principal .analyst with
  | error e => rfl
  | ok =>
    cases requireTenant r.principal r.supplierCase.tenantId with
    | error e => rfl
    | ok =>
      by_cases own : r.review.caseId = r.supplierCase.id
      · rcases option_map_eq built with ⟨found, found'⟩ | ⟨action, action', found, found', same⟩
        · simp [own, found, found', bind, Except.bind]
        · simp [own, found, found', bind, Except.bind, Except.map, pure, Except.pure, same]
      · simp [own, bind, Except.bind, throw, throwThe, MonadExceptOf.throw]

end

/-! ## The simulation -/

/-- `uuid5` tells the names of the proposals apart, so it is `names` that the rows are from. -/
structure Twins (names : Set String) (mem : AuditedRepository) (db : Store) : Prop where
  actions : ∀ actionId, (mem.repo.actions actionId).map GovernedAction.timeless =
    (db.actions.find? actionId).map GovernedAction.timeless
  index : ∀ key, mem.repo.idempotency key = (db.actions.findAlt? key).map (·.id)
  named : ∀ row ∈ db.actions.rows, row.id = actionIdFor row.tenantId row.idempotencyKey ∧
    row.tenantId ++ ":" ++ row.idempotencyKey.str ∈ names
  stored : ∀ row ∈ db.actions.rows, row.caseId ∈ db.caseIds
  comments : ∀ row ∈ db.actions.rows, StorableText row.approvalComment
  messages : ∀ message ∈ db.outbox.rows, ∃ row ∈ db.actions.rows, row.id = message.aggregateId
  cases : ∀ caseId ∈ db.caseIds, ∃ supplierCase, mem.cases.cases caseId = some supplierCase
  audit : ∀ caseId, (mem.cases.events caseId).map (·.toAuditEventCreate) =
    (db.audit.rows.filter (·.caseId = caseId)).map (·.toAuditEventCreate)

section

variable {names : Set String} {mem : AuditedRepository} {db : Store} {actionId : UUID}
variable {ambient ambient' : Ambient} {event : AuditEventCreate}

theorem Twins.get (twins : Twins names mem db) (actionId : UUID) :
    (inMemoryActionRepository.get mem actionId = .error (Governance.actionNotFound actionId) ∧
      sqlAlchemyActionRepository.get db actionId = .error (Governance.actionNotFound actionId)) ∨
    ∃ action row, inMemoryActionRepository.get mem actionId = .ok action ∧
      sqlAlchemyActionRepository.get db actionId = .ok row ∧ mem.repo.actions actionId = some action ∧
      db.actions.find? actionId = some row ∧ action.timeless = row.timeless := by
  simp only [inMemoryActionRepository, sqlAlchemyActionRepository, InMemoryActionRepository.get,
    SqlAlchemyActionRepository.get]
  rcases option_map_eq (twins.actions actionId) with
    ⟨missing, missing'⟩ | ⟨action, row, found, found', same⟩
  · simp [missing, missing']
  · simp [found, found', same]

variable (ambient) in
/-- The audit logs after an event. -/
theorem Twins.append (twins : Twins names mem db) (onCase : event.caseId ∈ db.caseIds)
    (fresh : ∀ old ∈ db.audit.rows, old.id ≠ ambient'.uuid) :
    ∃ cases audit, mem.cases.appendAuditEvent ambient event = .ok cases ∧
      cases.cases = mem.cases.cases ∧
      db.audit.insert? (SqlAlchemyActionRepository.auditRecord event ambient'.uuid ambient'.now) =
        some audit ∧
      ∀ caseId, (cases.events caseId).map (·.toAuditEventCreate) =
        (audit.rows.filter (·.caseId = caseId)).map (·.toAuditEventCreate) := by
  obtain ⟨supplierCase, known⟩ := twins.cases event.caseId onCase
  obtain ⟨audit, inserted⟩ := Option.isSome_iff_exists.mp (db.audit.insert?_isSome
    (r := SqlAlchemyActionRepository.auditRecord event ambient'.uuid ambient'.now) fresh fresh)
  obtain ⟨rows, _, _⟩ := Table.insert?_eq_some inserted
  simp only [InMemoryCaseRepository.appendAuditEvent, InMemoryCaseRepository.get, known, bind,
    Except.bind, pure, Except.pure]
  refine ⟨_, audit, rfl, rfl, inserted, ?_⟩
  intro caseId
  rw [rows, List.filter_append, List.map_append, ← twins.audit caseId]
  by_cases same : caseId = event.caseId
  · subst same
    simp [SqlAlchemyActionRepository.auditRecord]
  · have other : event.caseId ≠ caseId := fun equal => same equal.symm
    simp [SqlAlchemyActionRepository.auditRecord, same, other]

/-! ## Transitions -/

open SqlAlchemyActionRepository (assignTransition applyTransition transitionRows recordFromAction
  RefusesComment)

theorem assignTransition_timeless {action action' current row : GovernedAction}
    (same : action.timeless = action'.timeless) (same' : current.timeless = row.timeless) :
    (assignTransition action current).timeless = (assignTransition action' row).timeless := by
  have commutes (action record : GovernedAction) : (assignTransition action record).timeless =
      assignTransition action.timeless record.timeless := rfl
  rw [commutes, commutes, same, same']

/-- A row after a transition is one of before, with its transition columns assigned. -/
theorem exists_of_mem_transitionRows {action row : GovernedAction} {rows : List GovernedAction}
    (member : row ∈ transitionRows action rows) :
    ∃ old ∈ rows, row.id = old.id ∧ row.tenantId = old.tenantId ∧
      row.idempotencyKey = old.idempotencyKey ∧ row.caseId = old.caseId := by
  obtain ⟨old, isOld, rfl⟩ := List.mem_map.mp member
  refine ⟨old, isOld, ?_⟩
  split <;> exact ⟨rfl, rfl, rfl, rfl⟩

/-- One transition on both sides: of the dictionary's entry and of the row. -/
theorem Twins.transition (twins : Twins names mem db) {action action' current row : GovernedAction}
    (found : mem.repo.actions action.id = some current)
    (found' : db.actions.find? action'.id = some row)
    (same : action.timeless = action'.timeless) (derived : assignTransition action current = action)
    (taken : ¬ RefusesComment action' row)
    {cases : InMemoryCaseRepository} {audit : Table AuditEvent.id AuditEvent.id}
    (known : cases.cases = mem.cases.cases)
    (logs : ∀ caseId, (cases.events caseId).map (·.toAuditEventCreate) =
      (audit.rows.filter (·.caseId = caseId)).map (·.toAuditEventCreate)) :
    Twins names ⟨mem.repo.setAction action.id action, cases⟩ (applyTransition db action' audit) := by
  have id : action.id = action'.id := (alike_of_timeless same).id
  have sameRow : current.timeless = row.timeless := by
    have both := twins.actions action.id
    rw [found, id, found'] at both
    exact Option.some.inj both
  have rows : (applyTransition db action' audit).actions.rows = transitionRows action' db.actions.rows :=
    SqlAlchemyActionRepository.applyTransition_rows
  have storable : StorableText action'.approvalComment := by
    by_contra unstorable
    refine taken ⟨?_, unstorable⟩
    intro kept
    exact unstorable (kept ▸ twins.comments row (Table.find?_eq_some.mp found').1)
  refine ⟨?_, ?_, ?_, ?_, ?_, ?_, ?_, logs⟩
  · -- the SQL repository assigns some columns of its row, which leaves the action up to times
    intro actionId
    simp only [InMemoryActionRepository.setAction, applyTransition, Table.find?_updateWhere]
    by_cases here : actionId = action.id
    · subst here
      have isRow : row.id = action'.id := (Table.find?_eq_some.mp found').2
      rw [Function.update_self, id, found']
      simp only [Option.map_some, isRow, decide_true, if_true, Option.some.injEq]
      rw [← assignTransition_timeless same sameRow, derived]
    · rw [Function.update_of_ne here, twins.actions actionId]
      cases other : db.actions.find? actionId with
      | none => rfl
      | some old =>
        have isOther : old.id ≠ action'.id := by
          rw [(Table.find?_eq_some.mp other).2, ← id]
          exact here
        simp [isOther]
  · intro key
    simp only [InMemoryActionRepository.setAction, applyTransition, Table.findAlt?_updateWhere,
      Option.map_map, twins.index key]
    congr 1
    funext old
    simp only [Function.comp_apply]
    split <;> rfl
  · intro new member
    rw [rows] at member
    obtain ⟨old, isOld, sameId, tenantId, key, _⟩ := exists_of_mem_transitionRows member
    rw [sameId, tenantId, key]
    exact twins.named old isOld
  · intro new member
    rw [rows] at member
    obtain ⟨old, isOld, _, _, _, caseId⟩ := exists_of_mem_transitionRows member
    rw [caseId]
    exact twins.stored old isOld
  · intro new member
    rw [rows] at member
    obtain ⟨old, isOld, rfl⟩ := List.mem_map.mp member
    split
    · exact storable
    · exact twins.comments old isOld
  · intro message isMessage
    obtain ⟨old, isOld, aggregate⟩ := twins.messages message isMessage
    rw [rows]
    refine ⟨_, List.mem_map_of_mem isOld, ?_⟩
    rw [← aggregate]
    split <;> rfl
  · intro caseId isCase
    rw [known]
    exact twins.cases caseId isCase

variable (ambient event) in
/-- Both sides save alike copies of an action that they hold. -/
theorem Twins.saveTransition (twins : Twins names mem db) {action action' current row : GovernedAction}
    (found : mem.repo.actions actionId = some current) (found' : db.actions.find? actionId = some row)
    (same : action.timeless = action'.timeless) (derived : assignTransition action current = action)
    (onCase : event.caseId = action.caseId) (expected : ActionStatus)
    (taken : ¬ RefusesComment action' row) (fresh : ∀ old ∈ db.audit.rows, old.id ≠ ambient'.uuid) :
    let saved := inMemoryActionRepository.saveTransition mem action event expected ambient
    let saved' := sqlAlchemyActionRepository.saveTransition db action' event expected ambient'
    saved.2 = saved'.2 ∧ Twins names saved.1 saved'.1 := by
  have id : action.id = action'.id := (alike_of_timeless same).id
  have sameRow : current.timeless = row.timeless := by
    have both := twins.actions actionId
    rw [found, found'] at both
    exact Option.some.inj both
  have status : row.status = current.status := (alike_of_timeless sameRow).status.symm
  have isStored : event.caseId ∈ db.caseIds := by
    have caseId : action.caseId = current.caseId := by rw [← derived]; rfl
    rw [onCase, caseId, (alike_of_timeless sameRow).caseId]
    exact twins.stored row (Table.find?_eq_some.mp found').1
  have isAction : actionId = action.id := by
    have copied : action.id = current.id := by rw [← derived]; rfl
    rw [copied, (alike_of_timeless sameRow).id, (Table.find?_eq_some.mp found').2]
  subst isAction
  rw [id] at found'
  simp only [inMemoryActionRepository, sqlAlchemyActionRepository,
    InMemoryActionRepository.checkTransition, SqlAlchemyActionRepository.saveTransition, found, found',
    status]
  by_cases isExpected : current.status = expected
  · obtain ⟨cases, audit, appended, known, inserted, logs⟩ :=
      twins.append ambient isStored fresh
    simp only [isExpected, ne_eq, not_true_eq_false, if_false, taken, appended, isStored, inserted]
    exact ⟨trivial, twins.transition found found' same derived taken known logs⟩
  · simp only [isExpected, ne_eq, not_false_eq_true, if_true, id]
    exact ⟨trivial, twins⟩

/-! ## Proposals -/

/-- An action that is about to be proposed. -/
structure Proposable (names : Set String) (db : Store) (action action' : GovernedAction) : Prop where
  same : action.timeless = action'.timeless
  unexecuted : action'.executionReceipt = none
  undecided : action'.approvalComment = ""
  id : action'.id = actionIdFor action'.tenantId action'.idempotencyKey
  named : action'.tenantId ++ ":" ++ action'.idempotencyKey.str ∈ names
  case_ : action'.caseId ∈ db.caseIds
  review : action'.reviewId ∈ db.reviewIds

/-- A new key comes with a new identifier. -/
theorem Twins.fresh_id (twins : Twins names mem db) (injective : Set.InjOn (uuid5 NAMESPACE_URL) names)
    {action action' : GovernedAction} (proposable : Proposable names db action action')
    (isNew : db.actions.findAlt? action'.tenantKey = none) :
    ∀ old ∈ db.actions.rows, old.id ≠ action'.id := by
  intro old member sameId
  obtain ⟨oldId, oldNamed⟩ := twins.named old member
  rw [oldId, proposable.id] at sameId
  obtain ⟨tenantId, key⟩ := scopedName_inj (injective oldNamed proposable.named sameId)
  refine Table.findAlt?_eq_none.mp isNew old member ?_
  rw [GovernedAction.tenantKey, GovernedAction.tenantKey, tenantId, key]

/-- The insert of a new proposal succeeds. -/
theorem Twins.inserted (twins : Twins names mem db) {action action' : GovernedAction}
    (proposable : Proposable names db action action')
    (isNew : db.actions.findAlt? action'.tenantKey = none)
    (freshId : ∀ old ∈ db.actions.rows, old.id ≠ action'.id)
    (fresh : ∀ old ∈ db.audit.rows, old.id ≠ ambient'.uuid)
    (freshMessage : ∀ old ∈ db.outbox.rows, old.id ≠ ambient'.uuid') :
    ∃ db', SqlAlchemyActionRepository.insertProposal db action' (proposedEvent action')
      (startMessage action') ambient' = some db' := by
  have freshKey : ∀ old ∈ db.actions.rows, old.tenantKey ≠ action'.tenantKey :=
    Table.findAlt?_eq_none.mp isNew
  -- a message about the new action would belong to a row with its identifier
  have freshAggregate : ∀ old ∈ db.outbox.rows, old.aggregateEvent ≠ OutboxMessage.aggregateEvent
      (SqlAlchemyActionRepository.outboxRecord (startMessage action') ambient'.uuid' ambient'.now) := by
    intro old isMessage sameEvent
    obtain ⟨row, isRow, aggregate⟩ := twins.messages old isMessage
    apply freshId row isRow
    rw [aggregate]
    exact congrArg (fun event => event.2.1) sameEvent
  obtain ⟨actions, insertedAction⟩ := Option.isSome_iff_exists.mp
    (db.actions.insert?_isSome (r := recordFromAction action') freshId freshKey)
  obtain ⟨audit, insertedAudit⟩ := Option.isSome_iff_exists.mp (db.audit.insert?_isSome
    (r := SqlAlchemyActionRepository.auditRecord (proposedEvent action') ambient'.uuid ambient'.now)
    fresh fresh)
  obtain ⟨outbox, insertedMessage⟩ := Option.isSome_iff_exists.mp (db.outbox.insert?_isSome
    (r := SqlAlchemyActionRepository.outboxRecord (startMessage action') ambient'.uuid' ambient'.now)
    freshMessage freshAggregate)
  have isCase : (proposedEvent action').caseId ∈ db.caseIds := proposable.case_
  refine ⟨{ db with actions, audit, outbox }, ?_⟩
  simp [SqlAlchemyActionRepository.insertProposal, proposable.case_, proposable.review, isCase,
    insertedAction, insertedAudit, insertedMessage]

/-- A new proposal on both sides. -/
theorem Twins.proposed (twins : Twins names mem db) {action action' : GovernedAction}
    (proposable : Proposable names db action action') {db' : Store}
    (inserted : SqlAlchemyActionRepository.insertProposal db action' (proposedEvent action')
      (startMessage action') ambient' = some db')
    {cases : InMemoryCaseRepository} (known : cases.cases = mem.cases.cases)
    (logs : ∀ caseId, (cases.events caseId).map (·.toAuditEventCreate) =
      (db'.audit.rows.filter (·.caseId = caseId)).map (·.toAuditEventCreate)) :
    Twins names ⟨mem.repo.storeProposal action, cases⟩ db' := by
  have alike := alike_of_timeless proposable.same
  obtain ⟨caseIds, reviewIds, rows, _, messages, _, _, _⟩ :=
    SqlAlchemyActionRepository.insertProposal_some inserted
  have record : (recordFromAction action').timeless = action.timeless := by
    rw [proposable.same]
    simp [recordFromAction, GovernedAction.timeless, proposable.unexecuted]
  refine ⟨?_, ?_, ?_, ?_, ?_, ?_, ?_, logs⟩
  · intro actionId
    rw [Table.find?_of_rows_concat rows]
    simp only [InMemoryActionRepository.storeProposal, alike.id]
    by_cases here : actionId = action'.id
    · subst here
      simp [record]
    · have other : action'.id ≠ actionId := fun equal => here equal.symm
      simp [here, other, twins.actions actionId]
  · -- and under its key, where the one has a dictionary and the other a unique index
    intro key
    have sameKey : action.tenantKey = action'.tenantKey := by
      rw [GovernedAction.tenantKey, GovernedAction.tenantKey, alike.tenantId, alike.idempotencyKey]
    rw [Table.findAlt?_of_rows_concat rows]
    simp only [InMemoryActionRepository.storeProposal, sameKey, alike.id]
    by_cases here : key = action'.tenantKey
    · subst here
      simp
    · have other : action'.tenantKey ≠ key := fun equal => here equal.symm
      simp [here, other, twins.index key]
  · intro row member
    rw [rows] at member
    cases List.mem_append.mp member with
    | inl old => exact twins.named row old
    | inr new =>
      cases List.mem_singleton.mp new
      exact ⟨proposable.id, proposable.named⟩
  · intro row member
    rw [rows] at member
    rw [caseIds]
    cases List.mem_append.mp member with
    | inl old => exact twins.stored row old
    | inr new =>
      cases List.mem_singleton.mp new
      exact proposable.case_
  · intro row member
    rw [rows] at member
    cases List.mem_append.mp member with
    | inl old => exact twins.comments row old
    | inr new =>
      cases List.mem_singleton.mp new
      show StorableText action'.approvalComment
      rw [proposable.undecided]
      simp [StorableText]
  · intro message isMessage
    rw [messages] at isMessage
    rw [rows]
    cases List.mem_append.mp isMessage with
    | inl old =>
      obtain ⟨row, isRow, aggregate⟩ := twins.messages message old
      exact ⟨row, List.mem_append_left _ isRow, aggregate⟩
    | inr new =>
      cases List.mem_singleton.mp new
      exact ⟨_, List.mem_append_right _ (List.mem_singleton_self _), rfl⟩
  · intro caseId isCase
    rw [caseIds] at isCase
    rw [known]
    exact twins.cases caseId isCase

variable (ambient) in
theorem Twins.createProposal (twins : Twins names mem db)
    (injective : Set.InjOn (uuid5 NAMESPACE_URL) names) {action action' : GovernedAction}
    (proposable : Proposable names db action action')
    (fresh : ∀ old ∈ db.audit.rows, old.id ≠ ambient'.uuid)
    (freshMessage : ∀ old ∈ db.outbox.rows, old.id ≠ ambient'.uuid') :
    let created := inMemoryActionRepository.createProposal mem action (proposedEvent action)
      (startMessage action) ambient
    let created' := sqlAlchemyActionRepository.createProposal db action' (proposedEvent action')
      (startMessage action') ambient'
    created.2.map (fun stored => stored.1.timeless) = created'.2.map (fun stored => stored.1.timeless) ∧
      Twins names created.1 created'.1 := by
  have alike := alike_of_timeless proposable.same
  have sameKey : action.tenantKey = action'.tenantKey := by
    rw [GovernedAction.tenantKey, GovernedAction.tenantKey, alike.tenantId, alike.idempotencyKey]
  have sameEvent : proposedEvent action = proposedEvent action' := by
    simp only [proposedEvent, alike.caseId, alike.proposerId, alike.id, alike.reviewId, alike.toolName]
  have indexed := twins.index action'.tenantKey
  simp only [inMemoryActionRepository, sqlAlchemyActionRepository,
    SqlAlchemyActionRepository.getByIdempotency, InMemoryActionRepository.createProposal, sameKey,
    sameEvent]
  cases found : db.actions.findAlt? action'.tenantKey with
  | some row =>
    have found' : db.actions.findAlt? (action'.tenantId, action'.idempotencyKey) = some row := found
    obtain ⟨isRow, _⟩ := Table.findAlt?_eq_some.mp found
    have atId : db.actions.find? row.id = some row := Table.find?_eq_some.mpr ⟨isRow, rfl⟩
    simp only [found, Option.map_some] at indexed
    rcases option_map_eq (twins.actions row.id) with
      ⟨_, missing⟩ | ⟨stored, row', held, found'', same⟩
    · rw [atId] at missing
      cases missing
    · cases atId.symm.trans found''
      simp only [indexed, held, found', Except.map, same]
      exact ⟨trivial, twins⟩
  | none =>
    have found' : db.actions.findAlt? (action'.tenantId, action'.idempotencyKey) = none := found
    simp only [found, Option.map_none] at indexed
    -- a new key has a new identifier, so the insert violates no constraint
    have freshId := twins.fresh_id injective proposable found
    obtain ⟨db', inserted⟩ := twins.inserted proposable found freshId fresh freshMessage
    have onCase : (proposedEvent action').caseId ∈ db.caseIds := proposable.case_
    obtain ⟨cases, audit, appended, known, insertedAudit, logs⟩ := twins.append ambient onCase fresh
    obtain ⟨_, _, _, auditRows, _⟩ := SqlAlchemyActionRepository.insertProposal_some inserted
    rw [(Table.insert?_eq_some insertedAudit).1, ← auditRows] at logs
    simp only [indexed, found', inserted, appended, Except.map, proposable.same]
    exact ⟨trivial, twins.proposed proposable inserted known logs⟩

end

/-! ## The supplier system -/

/-- Two copies of a supplier system that answer alike, up to the clock, when they are given
    alike inputs. -/
structure SupplierTwin {σ ε : Type} (system : SupplierSystem σ ε) where
  state : σ → σ → Prop
  input : ε → ε → Prop
  answers : ∀ {s s' e e'}, state s s' → input e e' → ∀ actionId key arguments,
    (system.setOnboardingDecision s e actionId key arguments).2.map ExecutionReceipt.timeless =
        (system.setOnboardingDecision s' e' actionId key arguments).2.map ExecutionReceipt.timeless ∧
      state (system.setOnboardingDecision s e actionId key arguments).1
        (system.setOnboardingDecision s' e' actionId key arguments).1

/-- The receipts without their times. -/
def timelessReceipts (receipts : List (UUID × ExecutionReceipt)) : List (UUID × ExecutionReceipt) :=
  receipts.map fun entry => (entry.1, entry.2.timeless)

theorem lookup_timelessReceipts (receipts : List (UUID × ExecutionReceipt)) (key : UUID) :
    (timelessReceipts receipts).lookup key = (receipts.lookup key).map ExecutionReceipt.timeless := by
  induction receipts with
  | nil => rfl
  | cons entry rest ih =>
    obtain ⟨entryKey, receipt⟩ := entry
    simp only [timelessReceipts, List.map_cons] at ih ⊢
    by_cases here : key = entryKey
    · subst here
      simp
    · have other : (key == entryKey) = false := by simpa using here
      simp [List.lookup_cons, other, ih]

/-- `InMemorySupplierSystem` is such a system, with two clocks that need not agree. -/
def inMemorySupplierTwin : SupplierTwin inMemorySupplierSystem where
  state receipts receipts' := timelessReceipts receipts = timelessReceipts receipts'
  input _ _ := True
  answers := by
    intro receipts receipts' now now' same _ actionId key arguments
    have found := lookup_timelessReceipts receipts key
    rw [same, lookup_timelessReceipts] at found
    simp only [inMemorySupplierSystem]
    rcases option_map_eq found with ⟨second, first⟩ | ⟨receipt', receipt, second, first, sameReceipt⟩
    · simp only [first, second]
      refine ⟨rfl, ?_⟩
      simp only [timelessReceipts, List.map_append] at same ⊢
      rw [same]
      rfl
    · simp [first, second, Except.map, same, sameReceipt]

/-! ## The service over the two repositories -/

/-- A principal proposes for a stored case and review of its own tenant. -/
def ServiceCall.Permitted (db : Store) : ServiceCall → Prop
  | .propose r => r.principal.tenantId = r.supplierCase.tenantId ∧ r.supplierCase.id ∈ db.caseIds ∧
      r.review.reviewId ∈ db.reviewIds
  | .decide .. | .get .. | .execute .. => True

instance (db : Store) : DecidablePred (ServiceCall.Permitted db)
  | .propose _ => inferInstanceAs (Decidable (_ ∧ _ ∧ _))
  | .decide .. | .get .. | .execute .. => instDecidableTrue

/-- The texts with which a call fills columns of the database: the subject of its principal, and
    the comment of a decision. -/
def ServiceCall.texts : ServiceCall → List String
  | .propose r => [r.principal.subject]
  | .decide _ request principal => [principal.subject, request.comment]
  | .get .. => []
  | .execute _ principal => [principal.subject]

/-- The call passes the checks that come before its write, and is no repetition. -/
def ServiceCall.writes {ε : Type} (mem : AuditedRepository) (moment : Moment ε) : ServiceCall → Bool
  | .propose r =>
    match GovernanceService.prepareProposal inMemoryActionRepository r moment with
    | .ok action => (mem.repo.idempotency action.tenantKey).isNone
    | .error _ => false
  | .decide actionId request principal =>
    (GovernanceService.prepareDecision inMemoryActionRepository mem actionId request principal
      moment.now).isOk
  | .get .. => false
  | .execute actionId principal =>
    match GovernanceService.prepareExecution inMemoryActionRepository mem actionId principal with
    | .ok (_, none) => true
    | .ok (_, some _) | .error _ => false

/-- PostgreSQL takes the texts that the call writes. -/
def ServiceCall.Storable {ε : Type} (mem : AuditedRepository) (moment : Moment ε)
    (call : ServiceCall) : Prop :=
  call.writes mem moment → ∀ text ∈ call.texts, StorableText text

instance {ε : Type} (mem : AuditedRepository) (moment : Moment ε) (call : ServiceCall) :
    Decidable (call.Storable mem moment) :=
  inferInstanceAs (Decidable (_ → ∀ text ∈ call.texts, StorableText text))

/-- The name from which a call derives an action's identifier. -/
def ServiceCall.idName : ServiceCall → Option String
  | .propose r => some r.idName
  | .decide .. | .get .. | .execute .. => none

/-- What the surroundings give to the two sides of a call: the workflow returns a reference,
    `uuid4` a new identifier, and the supplier system is given alike inputs. -/
structure Surroundings {σ ε : Type} {system : SupplierSystem σ ε} (twin : SupplierTwin system)
    (db : Store) (moment moment' : Moment ε) : Prop where
  workflow : ∃ reference, moment.workflow = .ok reference
  events : ∀ old ∈ db.audit.rows, old.id ≠ moment'.ambient.uuid
  messages : ∀ old ∈ db.outbox.rows, old.id ≠ moment'.ambient.uuid'
  input : twin.input moment.input moment'.input

namespace GovernanceService

section

variable {σ ε : Type} {system : SupplierSystem σ ε} {twin : SupplierTwin system}
variable {names : Set String} {mem : AuditedRepository} {db : Store} {moment moment' : Moment ε}

theorem propose_twins (twins : Twins names mem db) (injective : Set.InjOn (uuid5 NAMESPACE_URL) names)
    {r : ProposeRequest} (permitted : (ServiceCall.propose r).Permitted db) (named : r.idName ∈ names)
    (surroundings : Surroundings twin db moment moment') :
    let proposed := propose inMemoryActionRepository mem r moment
    let proposed' := propose sqlAlchemyActionRepository db r moment'
    proposed.2.map GovernedAction.timeless = proposed'.2.map GovernedAction.timeless ∧
      Twins names proposed.1 proposed'.1 := by
  obtain ⟨ownTenant, isCase, isReview⟩ := permitted
  -- in memory the workflow is started first, and `timeless` forgets its reference
  obtain ⟨reference, started⟩ := surroundings.workflow
  have inMemory : prepareProposal inMemoryActionRepository r moment =
      (prepareAction r moment.now).map fun action =>
        { action with workflowExecutionArn := some reference } := by
    simp only [prepareProposal, inMemoryActionRepository, started]
    cases prepareAction r moment.now <;> rfl
  have sql : prepareProposal sqlAlchemyActionRepository r moment' = prepareAction r moment'.now := by
    simp only [prepareProposal, sqlAlchemyActionRepository]
    cases prepareAction r moment'.now <;> rfl
  simp only [propose, inMemory, sql]
  rcases except_map_eq (prepareAction_timeless r moment.now moment'.now) with
    ⟨e, failed, failed'⟩ | ⟨action, action', prepared, prepared', same⟩
  · simp only [failed, failed', Except.map]
    exact ⟨trivial, twins⟩
  · simp only [prepared, prepared', Except.map]
    obtain ⟨_, _, _, arguments, isProposed⟩ := prepareAction_ok prepared'
    have proposable : Proposable names db { action with workflowExecutionArn := some reference }
        action' := by
      subst isProposed
      refine ⟨same, rfl, rfl, ?_, ?_, isCase, isReview⟩
      · rw [← show r.principal.tenantId = (proposedAction r moment'.now arguments).tenantId from
          ownTenant]
        rfl
      · rw [← show r.principal.tenantId = (proposedAction r moment'.now arguments).tenantId from
          ownTenant]
        exact named
    obtain ⟨answers, created⟩ := twins.createProposal moment.ambient injective proposable
      surroundings.events surroundings.messages
    generalize inMemoryActionRepository.createProposal mem _ _ _ moment.ambient = proposed
      at answers created ⊢
    generalize sqlAlchemyActionRepository.createProposal db action' _ _ moment'.ambient = proposed'
      at answers created ⊢
    obtain ⟨mem', answer⟩ := proposed
    obtain ⟨db', answer'⟩ := proposed'
    rcases except_map_eq answers with ⟨e, failed, failed'⟩ | ⟨stored, stored', ok, ok', sameStored⟩
    · cases failed
      cases failed'
      exact ⟨rfl, created⟩
    · cases ok
      cases ok'
      exact ⟨settleProposal_timeless proposable.same sameStored, created⟩

theorem decidedEvent_alike {decided decided' : GovernedAction} (same : decided.timeless = decided'.timeless)
    (principal : Principal) : decidedEvent decided principal = decidedEvent decided' principal := by
  have alike := alike_of_timeless same
  simp only [decidedEvent, alike.caseId, alike.status, alike.id, alike.approvalComment]

theorem decide_twins (twins : Twins names mem db) (actionId : UUID) (request : ApprovalRequest)
    (principal : Principal) (surroundings : Surroundings twin db moment moment')
    (storable : (ServiceCall.decide actionId request principal).Storable mem moment) :
    let decided := decide inMemoryActionRepository mem actionId request principal moment
    let decided' := decide sqlAlchemyActionRepository db actionId request principal moment'
    decided.2.map GovernedAction.timeless = decided'.2.map GovernedAction.timeless ∧
      Twins names decided.1 decided'.1 := by
  simp only [decide, prepareDecision]
  cases role : requireRole principal .approver with
  | error e => exact ⟨rfl, twins⟩
  | ok =>
    rcases twins.get actionId with ⟨missing, missing'⟩ | ⟨action, row, got, got', found, found', same⟩
    · simp only [missing, missing', bind, Except.bind]
      exact ⟨trivial, twins⟩
    · simp only [got, got', bind, Except.bind]
      rcases except_map_eq (judge_timeless same request principal moment.now moment'.now) with
        ⟨e, failed, failed'⟩ | ⟨decided, decided', judged, judged', sameDecided⟩
      · simp only [failed, failed']
        exact ⟨trivial, twins⟩
      · simp only [judged, judged']
        obtain ⟨_, _, _, isDecided⟩ := judge_ok judged
        -- the fields that `assign_transition` copies are all that a decision changes
        have derived : SqlAlchemyActionRepository.assignTransition decided action = decided := by
          rw [isDecided]
          rfl
        have taken : ¬ SqlAlchemyActionRepository.RefusesComment decided' row := by
          obtain ⟨_, _, _, isDecided'⟩ := judge_ok judged'
          intro refused
          refine refused.2 ?_
          rw [isDecided']
          refine storable ?_ request.comment (by simp [ServiceCall.texts])
          simp [ServiceCall.writes, prepareDecision, role, got, judged, bind, Except.bind,
            Except.isOk, Except.toBool]
        rw [decidedEvent_alike sameDecided principal]
        obtain ⟨answers, saved⟩ := twins.saveTransition moment.ambient
          (decidedEvent decided' principal) found found' sameDecided derived
          (alike_of_timeless sameDecided).caseId.symm .pendingApproval taken surroundings.events
        generalize inMemoryActionRepository.saveTransition mem _ _ _ moment.ambient = first
          at answers saved ⊢
        generalize sqlAlchemyActionRepository.saveTransition db decided' _ _ moment'.ambient = second
          at answers saved ⊢
        obtain ⟨mem', answer⟩ := first
        obtain ⟨db', answer'⟩ := second
        cases answers
        cases answer with
        | ok => exact ⟨congrArg Except.ok sameDecided, saved⟩
        | error e => cases e <;> exact ⟨rfl, saved⟩

/-- A decision with a comment that PostgreSQL refuses is taken in memory. -/
theorem decide_refused (twins : Twins names mem db) {actionId : UUID} {request : ApprovalRequest}
    {principal : Principal} (surroundings : Surroundings twin db moment moment')
    (passes : (ServiceCall.decide actionId request principal).writes mem moment)
    (unstorable : ¬ StorableText request.comment) :
    (∃ decided, (decide inMemoryActionRepository mem actionId request principal moment).2 =
      .ok decided) ∧
    (decide sqlAlchemyActionRepository db actionId request principal moment').2 =
      .error .dataError := by
  simp only [ServiceCall.writes, prepareDecision] at passes
  cases role : requireRole principal .approver with
  | error e => simp [role, bind, Except.bind, Except.isOk, Except.toBool] at passes
  | ok =>
    rcases twins.get actionId with ⟨missing, _⟩ | ⟨action, row, got, got', found, found', same⟩
    · simp [role, missing, bind, Except.bind, Except.isOk, Except.toBool] at passes
    · rcases except_map_eq (judge_timeless same request principal moment.now moment'.now) with
        ⟨e, failed, _⟩ | ⟨decided, decided', judged, judged', _⟩
      · simp [role, got, failed, bind, Except.bind, Except.isOk, Except.toBool] at passes
      · obtain ⟨_, _, pending, isDecided⟩ := judge_ok judged
        obtain ⟨_, _, pending', isDecided'⟩ := judge_ok judged'
        obtain ⟨isRow, rowId⟩ := Table.find?_eq_some.mp found'
        have alike := alike_of_timeless same
        have actionIs : action.id = actionId := alike.id.trans rowId
        have checked : mem.repo.checkTransition decided .pendingApproval = .ok action := by
          refine InMemoryActionRepository.checkTransition_eq_ok.mpr ⟨?_, pending⟩
          simpa only [isDecided, actionIs] using found
        have onCase : (decidedEvent decided principal).caseId ∈ db.caseIds := by
          simp only [decidedEvent, isDecided, alike.caseId]
          exact twins.stored row isRow
        obtain ⟨cases, _, appended, _⟩ := twins.append moment.ambient onCase surroundings.events
        -- the row still has another comment, which PostgreSQL took
        have written : decided'.approvalComment = request.comment := by rw [isDecided']
        have refused : SqlAlchemyActionRepository.RefusesComment decided' row := by
          rw [SqlAlchemyActionRepository.RefusesComment, written]
          exact ⟨fun kept => unstorable (kept ▸ twins.comments row isRow), unstorable⟩
        have same' : db.actions.find? decided'.id = some row := by
          simpa only [isDecided', rowId] using found'
        have first : (decide inMemoryActionRepository mem actionId request principal moment).2 =
            .ok decided := by
          simp only [decide, prepareDecision, role, got, judged, bind, Except.bind]
          simp only [inMemoryActionRepository, checked, appended]
        refine ⟨⟨decided, first⟩, ?_⟩
        simp only [decide, prepareDecision, role, got', judged', bind, Except.bind]
        simp only [sqlAlchemyActionRepository, SqlAlchemyActionRepository.saveTransition, same',
          pending', ne_eq, not_true_eq_false, if_false, refused, if_true]

theorem get_twins (twins : Twins names mem db) (actionId : UUID) (principal : Principal) :
    (get inMemoryActionRepository mem actionId principal).map GovernedAction.timeless =
      (get sqlAlchemyActionRepository db actionId principal).map GovernedAction.timeless := by
  simp only [get]
  rcases twins.get actionId with ⟨missing, missing'⟩ | ⟨action, row, got, got', _, _, same⟩
  · simp only [missing, missing', bind, Except.bind]
  · simp only [got, got', bind, Except.bind, (alike_of_timeless same).tenantId]
    cases requireTenant principal row.tenantId with
    | error e => rfl
    | ok => exact congrArg Except.ok same

theorem recordExecution_twins (twins : Twins names mem db) {actionId : UUID} {action row : GovernedAction}
    (found : mem.repo.actions actionId = some action) (found' : db.actions.find? actionId = some row)
    (same : action.timeless = row.timeless) {receipt receipt' : ExecutionReceipt}
    (sameReceipt : receipt.timeless = receipt'.timeless) (principal : Principal)
    (surroundings : Surroundings twin db moment moment') :
    let recorded := recordExecution inMemoryActionRepository mem action receipt principal moment.ambient
    let recorded' := recordExecution sqlAlchemyActionRepository db row receipt' principal moment'.ambient
    recorded.2.map ExecutionReceipt.timeless = recorded'.2.map ExecutionReceipt.timeless ∧
      Twins names recorded.1 recorded'.1 := by
  have sameExecuted := executedAction_timeless same sameReceipt
  have sameEvent : executedEvent (executedAction action receipt) receipt principal =
      executedEvent (executedAction row receipt') receipt' principal := by
    have reference : receipt.externalReference = receipt'.externalReference :=
      show receipt.timeless.externalReference = receipt'.timeless.externalReference by rw [sameReceipt]
    simp only [executedEvent, executedAction, (alike_of_timeless same).caseId,
      (alike_of_timeless same).id, reference]
  simp only [recordExecution]
  rw [sameEvent]
  obtain ⟨answers, saved⟩ := twins.saveTransition moment.ambient
    (executedEvent (executedAction row receipt') receipt' principal) found found' sameExecuted rfl
    (alike_of_timeless sameExecuted).caseId.symm .approved (fun refused => refused.1 rfl)
    surroundings.events
  generalize inMemoryActionRepository.saveTransition mem _ _ _ moment.ambient = first
    at answers saved ⊢
  generalize sqlAlchemyActionRepository.saveTransition db _ _ _ moment'.ambient = second
    at answers saved ⊢
  obtain ⟨mem', answer⟩ := first
  obtain ⟨db', answer'⟩ := second
  cases answers
  cases answer with
  | ok => exact ⟨congrArg Except.ok sameReceipt, saved⟩
  | error e =>
    cases e with
    | transitionConflict detail =>
      -- another execution was first: its receipt is read back on both sides
      simp only [(alike_of_timeless same).id]
      rcases saved.get row.id with ⟨missing, missing'⟩ | ⟨current, current', got, got', _, _, same'⟩
      · simp only [missing, missing']
        exact ⟨trivial, saved⟩
      · have alike := alike_of_timeless same'
        simp only [got, got', alike.status]
        rcases option_map_eq alike.receipt with ⟨held, held'⟩ | ⟨kept, kept', held, held', sameKept⟩
        · simp only [held, held']
          cases current'.status <;> exact ⟨rfl, saved⟩
        · simp only [held, held']
          cases current'.status with
          | executed => exact ⟨congrArg Except.ok sameKept, saved⟩
          | _ => exact ⟨rfl, saved⟩
    | _ => exact ⟨rfl, saved⟩

variable {supplier supplier' : σ}

theorem execute_twins (twins : Twins names mem db) (state : twin.state supplier supplier')
    (actionId : UUID) (principal : Principal) (surroundings : Surroundings twin db moment moment') :
    let executed := execute inMemoryActionRepository system ⟨mem, supplier⟩ actionId principal moment
    let executed' := execute sqlAlchemyActionRepository system ⟨db, supplier'⟩ actionId principal moment'
    executed.2.map ExecutionReceipt.timeless = executed'.2.map ExecutionReceipt.timeless ∧
      Twins names executed.1.repository executed'.1.repository ∧
      twin.state executed.1.supplier executed'.1.supplier := by
  simp only [execute, prepareExecution]
  cases requireRole principal .executor with
  | error e => exact ⟨rfl, twins, state⟩
  | ok =>
    rcases twins.get actionId with ⟨missing, missing'⟩ | ⟨action, row, got, got', found, found', same⟩
    · simp only [missing, missing', bind, Except.bind]
      exact ⟨trivial, twins, state⟩
    · simp only [got, got', bind, Except.bind]
      rcases except_map_eq (planExecution_timeless same principal) with
        ⟨e, failed, failed'⟩ | ⟨plan, plan', planned, planned', samePlan⟩
      · simp only [failed, failed']
        exact ⟨trivial, twins, state⟩
      · rcases option_map_eq samePlan with
          ⟨isNone, isNone'⟩ | ⟨receipt, receipt', isSome, isSome', sameReceipt⟩
        · subst isNone isNone'
          have alike := alike_of_timeless same
          simp only [planned, planned', pure, Except.pure, alike.id, alike.idempotencyKey,
            alike.arguments]
          obtain ⟨answers, next⟩ := twin.answers state surroundings.input row.id row.idempotencyKey
            row.arguments
          generalize system.setOnboardingDecision supplier _ _ _ _ = first at answers next ⊢
          generalize system.setOnboardingDecision supplier' _ _ _ _ = second at answers next ⊢
          obtain ⟨supplied, answer⟩ := first
          obtain ⟨supplied', answer'⟩ := second
          rcases except_map_eq answers with ⟨e, failed, failed'⟩ | ⟨receipt, receipt', ok, ok', sameReceipt⟩
          · cases failed
            cases failed'
            exact ⟨rfl, twins, next⟩
          · cases ok
            cases ok'
            obtain ⟨recorded, saved⟩ :=
              recordExecution_twins twins found found' same sameReceipt principal surroundings
            exact ⟨recorded, saved, next⟩
        · subst isSome isSome'
          simp only [planned, planned', pure, Except.pure]
          exact ⟨congrArg Except.ok sameReceipt, twins, state⟩

theorem perform_twins (injective : Set.InjOn (uuid5 NAMESPACE_URL) names)
    {service : GovernanceService AuditedRepository σ} {service' : GovernanceService Store σ}
    (twins : Twins names service.repository service'.repository)
    (state : twin.state service.supplier service'.supplier) {call : ServiceCall}
    (permitted : call.Permitted service'.repository) (named : ∀ name ∈ call.idName, name ∈ names)
    (surroundings : Surroundings twin service'.repository moment moment')
    (storable : call.Storable service.repository moment) :
    let performed := perform inMemoryActionRepository system service moment call
    let performed' := perform sqlAlchemyActionRepository system service' moment' call
    performed.2.map Response.timeless = performed'.2.map Response.timeless ∧
      Twins names performed.1.repository performed'.1.repository ∧
      twin.state performed.1.supplier performed'.1.supplier := by
  have asAction (answer answer' : Except GovernanceError GovernedAction)
      (same : answer.map GovernedAction.timeless = answer'.map GovernedAction.timeless) :
      (answer.map Response.action).map Response.timeless =
        (answer'.map Response.action).map Response.timeless := by
    rcases except_map_eq same with ⟨e, rfl, rfl⟩ | ⟨action, action', rfl, rfl, alike⟩
    · rfl
    · exact congrArg (fun action => Except.ok (Response.action action)) alike
  cases call with
  | propose r =>
    obtain ⟨answers, next⟩ :=
      propose_twins twins injective permitted (named r.idName rfl) surroundings
    exact ⟨asAction _ _ answers, next, state⟩
  | decide actionId request principal =>
    obtain ⟨answers, next⟩ := decide_twins twins actionId request principal surroundings storable
    exact ⟨asAction _ _ answers, next, state⟩
  | get actionId principal => exact ⟨asAction _ _ (get_twins twins actionId principal), twins, state⟩
  | execute actionId principal =>
    obtain ⟨answers, next, state'⟩ := execute_twins twins state actionId principal surroundings
    refine ⟨?_, next, state'⟩
    rcases except_map_eq answers with ⟨e, failed, failed'⟩ | ⟨receipt, receipt', ok, ok', same⟩
    · simp only [perform, failed, failed', Except.map]
    · simp only [perform, ok, ok', Except.map, Response.timeless, same]

end

end GovernanceService

/-! ## Runs -/

/-- The two services side by side, with the answers so far. -/
structure TwinRun (σ : Type) where
  memory : GovernanceService AuditedRepository σ
  sql : GovernanceService Store σ
  answers : List (Except GovernanceError Response × Except GovernanceError Response)

/-- One call of both services, each at its own moment, or a case and reviews of it that both
    sides store. -/
inductive TwinLabel (ε : Type) where
  | call (call : ServiceCall) (moment moment' : Moment ε)
  | store (supplierCase : SupplierCase) (reviewIds : List UUID)

def AuditedRepository.storeCase (mem : AuditedRepository) (supplierCase : SupplierCase) :
    AuditedRepository :=
  { mem with cases := { mem.cases with
      cases := Function.update mem.cases.cases supplierCase.id (some supplierCase) } }

def insertCase (db : Store) (caseId : UUID) (reviewIds : List UUID) : Store :=
  { db with caseIds := db.caseIds ++ [caseId], reviewIds := db.reviewIds ++ reviewIds }

namespace TwinRun

section

variable {σ ε : Type} (system : SupplierSystem σ ε)

def step (w : TwinRun σ) : TwinLabel ε → Option (TwinRun σ)
  | .call call moment moment' =>
    let (memory, answer) := GovernanceService.perform inMemoryActionRepository system w.memory moment call
    let (sql, answer') := GovernanceService.perform sqlAlchemyActionRepository system w.sql moment' call
    some ⟨memory, sql, w.answers ++ [(answer, answer')]⟩
  | .store supplierCase reviewIds => some { w with
      memory.repository := w.memory.repository.storeCase supplierCase
      sql.repository := insertCase w.sql.repository supplierCase.id reviewIds }

variable {system}

/-- Two services without actions, over the same cases and audit events. -/
structure Initial (twin : SupplierTwin system) (w : TwinRun σ) : Prop where
  memory : w.memory.repository.repo = .empty
  actions : w.sql.repository.actions.rows = []
  outbox : w.sql.repository.outbox.rows = []
  cases : ∀ caseId ∈ w.sql.repository.caseIds,
    ∃ supplierCase, w.memory.repository.cases.cases caseId = some supplierCase
  audit : ∀ caseId, (w.memory.repository.cases.events caseId).map (·.toAuditEventCreate) =
    (w.sql.repository.audit.rows.filter (·.caseId = caseId)).map (·.toAuditEventCreate)
  supplier : twin.state w.memory.supplier w.sql.supplier
  answers : w.answers = []

/-- The runs that are compared. -/
def Admissible (twin : SupplierTwin system) (names : Set String) (w : TwinRun σ) :
    TwinLabel ε → Prop
  | .call call moment moment' => call.Permitted w.sql.repository ∧
      (∀ name ∈ call.idName, name ∈ names) ∧ Surroundings twin w.sql.repository moment moment'
  | .store .. => True

/-- PostgreSQL takes the texts that the step writes. -/
def Storable (w : TwinRun σ) : TwinLabel ε → Prop
  | .call call moment _ => call.Storable w.memory.repository moment
  | .store .. => True

instance (w : TwinRun σ) : DecidablePred (w.Storable (ε := ε))
  | .call call moment _ => inferInstanceAs (Decidable (call.Storable w.memory.repository moment))
  | .store .. => instDecidableTrue

/-- Each call has had the same result or the same exception, and the audit events are the same. -/
structure Doubled (w : TwinRun σ) : Prop where
  answers : ∀ pair ∈ w.answers, pair.1.map Response.timeless = pair.2.map Response.timeless
  audit : ∀ caseId, (w.memory.repository.cases.events caseId).map (·.toAuditEventCreate) =
    (w.sql.repository.audit.rows.filter (·.caseId = caseId)).map (·.toAuditEventCreate)

structure TwinOk (twin : SupplierTwin system) (names : Set String) (w : TwinRun σ) : Prop where
  twins : Twins names w.memory.repository w.sql.repository
  supplier : twin.state w.memory.supplier w.sql.supplier
  answers : ∀ pair ∈ w.answers, pair.1.map Response.timeless = pair.2.map Response.timeless

variable {twin : SupplierTwin system} {names : Set String} {w w' : TwinRun σ} {label : TwinLabel ε}

theorem twinOk_initial (initial : Initial twin w) : TwinOk twin names w := by
  refine ⟨⟨?_, ?_, ?_, ?_, ?_, ?_, initial.cases, initial.audit⟩, initial.supplier, ?_⟩
  · intro actionId
    rw [Table.find?_eq_none.mpr (by simp [initial.actions]), initial.memory]
    rfl
  · intro key
    rw [Table.findAlt?_eq_none.mpr (by simp [initial.actions]), initial.memory]
    rfl
  · simp [initial.actions]
  · simp [initial.actions]
  · simp [initial.actions]
  · simp [initial.outbox]
  · simp [initial.answers]

theorem twinOk_step (injective : Set.InjOn (uuid5 NAMESPACE_URL) names) (ok : TwinOk twin names w)
    (admissible : Admissible twin names w label) (storable : w.Storable label)
    (stepped : step system w label = some w') : TwinOk twin names w' := by
  cases label with
  | call call moment moment' =>
    obtain ⟨permitted, named, surroundings⟩ := admissible
    obtain ⟨answers, twins, supplier⟩ := GovernanceService.perform_twins injective ok.twins
      ok.supplier permitted named surroundings storable
    simp only [step, Option.some.injEq] at stepped
    subst stepped
    refine ⟨twins, supplier, ?_⟩
    intro pair member
    cases List.mem_append.mp member with
    | inl old => exact ok.answers pair old
    | inr new =>
      cases List.mem_singleton.mp new
      exact answers
  | store supplierCase reviewIds =>
    simp only [step, Option.some.injEq] at stepped
    subst stepped
    refine ⟨⟨ok.twins.actions, ok.twins.index, ok.twins.named, ?_, ok.twins.comments,
      ok.twins.messages, ?_, ok.twins.audit⟩, ok.supplier, ok.answers⟩
    · intro row member
      exact List.mem_append_left _ (ok.twins.stored row member)
    · intro caseId isCase
      simp only [AuditedRepository.storeCase]
      by_cases new : caseId = supplierCase.id
      · subst new
        simp
      · rw [Function.update_of_ne new]
        refine ok.twins.cases caseId ?_
        simpa [insertCase, new] using isCase

/-- The in-memory repository is a double of the SQL one, whatever the calls, as long as PostgreSQL
    takes the texts that they write; a decision with a comment that it refuses is told apart. -/
theorem doubled_of_storable (twin : SupplierTwin system) (names : Set String)
    (injective : Set.InjOn (uuid5 NAMESPACE_URL) names) (initial : Initial twin w)
    (steps : StepsWhen (step system) (fun w label => Admissible twin names w label ∧ w.Storable label)
      w w') :
    Doubled w' ∧ ∀ actionId request principal moment moment' w'',
      Admissible twin names w' (.call (.decide actionId request principal) moment moment') →
      (ServiceCall.decide actionId request principal).writes w'.memory.repository moment →
      ¬ StorableText request.comment →
      step system w' (.call (.decide actionId request principal) moment moment') = some w'' →
      ¬ Doubled w'' := by
  have ok : TwinOk twin names w' :=
    steps.invariant (twinOk_initial initial) fun ok met stepped =>
      twinOk_step injective ok met.1 met.2 stepped
  refine ⟨⟨ok.answers, ok.twins.audit⟩, ?_⟩
  intro actionId request principal moment moment' w'' admissible passes unstorable stepped doubled
  obtain ⟨_, _, surroundings⟩ := admissible
  obtain ⟨⟨decided, taken⟩, refused⟩ :=
    GovernanceService.decide_refused ok.twins surroundings passes unstorable
  simp only [step, GovernanceService.perform, Option.some.injEq] at stepped
  subst stepped
  have same := doubled.answers _ (List.mem_append_right _ (List.mem_singleton_self _))
  rw [taken, refused] at same
  cases same

end

/-- Two services over no case yet. -/
def sampleTwins : TwinRun (List (UUID × ExecutionReceipt)) where
  memory := ⟨⟨.empty, fun _ => none, fun _ => [], fun _ => none, fun _ => []⟩, []⟩
  sql := ⟨.empty [] [], []⟩
  answers := []

def sampleMoment (now : Datetime) (n : Nat) : Moment Datetime where
  now := now
  workflow := .ok "local://approval"
  ambient := Sample.ambient now n
  input := now

/-- The side of the database runs an hour later, with other identifiers. -/
def sampleCall (now : Datetime) (n : Nat) (call : ServiceCall) : TwinLabel Datetime :=
  .call call (sampleMoment now n) (sampleMoment (now + 3600000000) (n + 100))

/-- A proposal, the proposer's own attempt to decide it, the decision, the execution, and one more
    execution. -/
def sampleLife : List (TwinLabel Datetime) :=
  let id := actionIdFor "tenant-a" ⟨0xc⟩
  [.store Sample.caseA [Sample.reviewA.reviewId], sampleCall 1 0 (.propose Sample.proposalA),
    sampleCall 2 1 (.decide id Sample.approval Sample.analystA),
    sampleCall 3 2 (.decide id Sample.approval Sample.approverA),
    sampleCall 4 3 (.execute id Sample.executor), sampleCall 5 4 (.execute id Sample.executor)]

def sampleNames : Set String := {Sample.proposalA.idName}

def sampleTest (w : TwinRun (List (UUID × ExecutionReceipt))) : TwinLabel Datetime → Bool
  | .call call moment moment' => Decidable.decide (call.Permitted w.sql.repository) &&
      call.idName.all (· == Sample.proposalA.idName) && moment.workflow.isOk &&
      w.sql.repository.audit.rows.all (·.id ≠ moment'.ambient.uuid) &&
      w.sql.repository.outbox.rows.all (·.id ≠ moment'.ambient.uuid')
  | .store .. => true

theorem admissible_of_sampleTest {w : TwinRun (List (UUID × ExecutionReceipt))}
    {label : TwinLabel Datetime} (passed : sampleTest w label = true) :
    Admissible inMemorySupplierTwin sampleNames w label := by
  cases label with
  | store => trivial
  | call call moment moment' =>
    simp only [sampleTest, Bool.and_eq_true, decide_eq_true_eq, List.all_eq_true] at passed
    obtain ⟨⟨⟨⟨permitted, named⟩, workflow⟩, events⟩, messages⟩ := passed
    refine ⟨permitted, ?_, ?_, events, messages, trivial⟩
    · intro name isName
      rw [Option.mem_def.mp isName] at named
      simpa [sampleNames] using named
    · cases started : moment.workflow with
      | error e => simp [started, Except.isOk, Except.toBool] at workflow
      | ok reference => exact ⟨reference, rfl⟩

theorem initial_sampleTwins : Initial inMemorySupplierTwin sampleTwins :=
  ⟨rfl, rfl, rfl, by simp [sampleTwins, Store.empty], fun _ => rfl, rfl, rfl⟩

theorem doubled_of_storable_full_life : ∃ w,
    StepsWhen (step inMemorySupplierSystem)
      (fun w label => Admissible inMemorySupplierTwin sampleNames w label ∧ w.Storable label)
      sampleTwins w ∧
    w.answers.map (fun pair => (pair.1.isOk, pair.2.isOk)) =
      [(true, true), (false, false), (true, true), (true, true), (true, true)] ∧ Doubled w := by
  have replayed : (runWhen (step inMemorySupplierSystem)
      (fun w label => sampleTest w label && Decidable.decide (w.Storable label)) sampleTwins
      sampleLife).map (fun w => Decidable.decide (
        w.answers.map (fun pair => (pair.1.isOk, pair.2.isOk)) =
          [(true, true), (false, false), (true, true), (true, true), (true, true)])) = some true := by
    decide +kernel
  obtain ⟨w, ran, answered⟩ := Option.map_eq_some_iff.mp replayed
  have steps : StepsWhen (step inMemorySupplierSystem)
      (fun w label => Admissible inMemorySupplierTwin sampleNames w label ∧ w.Storable label)
      sampleTwins w := by
    refine stepsWhen_of_runWhen ?_ ran
    intro w label _ passed
    obtain ⟨tested, storable⟩ := Bool.and_eq_true_iff.mp passed
    exact ⟨admissible_of_sampleTest tested, of_decide_eq_true storable⟩
  exact ⟨w, steps, of_decide_eq_true answered, (doubled_of_storable inMemorySupplierTwin sampleNames
    (Set.injOn_singleton _ _) initial_sampleTwins steps).1⟩

theorem nul_bounded : "\x00".length ≤ 2000 := by decide

/-- An approval whose comment is U+0000. -/
def nulApproval : ApprovalRequest := ⟨.approve, "\x00", nul_bounded⟩

/-- In memory the approval is taken, and PostgreSQL refuses its comment. -/
theorem not_doubled_nul_comment :
    ¬ ∀ (σ ε : Type) (system : SupplierSystem σ ε) (twin : SupplierTwin system) (names : Set String)
      (w w' : TwinRun σ), Set.InjOn (uuid5 NAMESPACE_URL) names → Initial twin w →
      StepsWhen (step system) (Admissible twin names) w w' → Doubled w' := by
  intro claimed
  have replayed : (runWhen (step inMemorySupplierSystem) sampleTest sampleTwins
      [.store Sample.caseA [Sample.reviewA.reviewId], sampleCall 1 0 (.propose Sample.proposalA),
        sampleCall 2 1 (.decide (actionIdFor "tenant-a" ⟨0xc⟩) nulApproval Sample.approverA)]).map
      (fun w => Decidable.decide (w.answers.map (fun pair => (pair.1.isOk, pair.2.isOk)) =
        [(true, true), (true, false)])) = some true := by decide +kernel
  obtain ⟨w, ran, answered⟩ := Option.map_eq_some_iff.mp replayed
  have doubled := claimed _ _ inMemorySupplierSystem inMemorySupplierTwin sampleNames sampleTwins w
    (Set.injOn_singleton _ _) initial_sampleTwins
    (stepsWhen_of_runWhen (fun _ _ _ passed => admissible_of_sampleTest passed) ran)
  have apart : (true, false) ∈ w.answers.map fun pair => (pair.1.isOk, pair.2.isOk) := by
    rw [of_decide_eq_true answered]
    decide
  obtain ⟨⟨answer, answer'⟩, member, outcomes⟩ := List.mem_map.mp apart
  have same := doubled.answers _ member
  cases answer <;> cases answer' <;> cases outcomes
  cases same

end TwinRun

end SupplierAssurance.Governance
