import SupplierAssurance.System

/-! # No workflow start is lost

Each committed proposal leaves exactly one message in the outbox, and the message stays
claimable until it is published or dead-lettered.  Governance and the outbox write the
same rows of `governed_actions` from copies read earlier: `save_transition` and
`mark_published` assign disjoint columns, so neither undoes what the other wrote.
-/

namespace SupplierAssurance.Outbox

open Python Lib Governance SqlAlchemyOutboxRepository
open SqlAlchemyActionRepository (recordFromAction outboxRecord assignTransition transitionRows
  applyTransition_rows insertProposal_some saveTransition_ok)

variable {actions : List GovernedAction} {messages : List OutboxMessage} {db db' : Store}

/-! ## The invariant -/

/-- The reference that a published message has delivered. -/
def DeliveredReference (message : OutboxMessage) (reference : String) : Prop :=
  ∃ result, message.deliveryResult = some result ∧ workflowReference result = some reference

/-- A message that asks for the start of `action_id`'s workflow. -/
structure StartsAction (message : OutboxMessage) : Prop where
  aggregateType : message.aggregateType = "governed_action"
  eventType : message.eventType = approvalWorkflowStart
  payload : message.payload.actionId = message.aggregateId

/-- What message and action say about each other. -/
inductive Paired (action : GovernedAction) (message : OutboxMessage) : Prop
  | pending : message.publishedAt = none → action.workflowExecutionArn = none →
      Paired action message
  | published {reference : String} : message.publishedAt.isSome →
      action.workflowExecutionArn = some reference → DeliveredReference message reference →
      Paired action message

structure Delivers (actions : List GovernedAction) (messages : List OutboxMessage) : Prop where
  hasMessage : ∀ a ∈ actions, ∃ m ∈ messages, m.aggregateId = a.id
  hasAction : ∀ m ∈ messages, ∃ a ∈ actions, a.id = m.aggregateId
  starts : ∀ m ∈ messages, StartsAction m
  paired : ∀ a ∈ actions, ∀ m ∈ messages, m.aggregateId = a.id → Paired a m
  locked : ∀ m ∈ messages, m.lockedAt = none ↔ m.lockedBy = none

theorem Delivers.nil : Delivers [] [] := by
  constructor <;> simp

/-! ## Updates of one table -/

/-- An update of `governed_actions` that leaves the outbox's columns alone. -/
theorem Delivers.mapActions (delivers : Delivers actions messages)
    (f : GovernedAction → GovernedAction) (id : ∀ a, (f a).id = a.id)
    (arn : ∀ a, (f a).workflowExecutionArn = a.workflowExecutionArn) :
    Delivers (actions.map f) messages := by
  refine ⟨?_, ?_, delivers.starts, ?_, delivers.locked⟩
  · intro a' member
    obtain ⟨a, old, rfl⟩ := List.mem_map.mp member
    rw [id]
    exact delivers.hasMessage a old
  · intro m member
    obtain ⟨a, old, same⟩ := delivers.hasAction m member
    exact ⟨f a, List.mem_map_of_mem old, (id a).trans same⟩
  · intro a' member m mMember same
    obtain ⟨a, old, rfl⟩ := List.mem_map.mp member
    rw [id] at same
    cases delivers.paired a old m mMember same with
    | pending unpublished unset => exact .pending unpublished ((arn a).trans unset)
    | published published set delivered => exact .published published ((arn a).trans set) delivered

/-- The columns of a message that a lease or a failure leaves alone. -/
structure SameDelivery (m m' : OutboxMessage) : Prop where
  aggregateType : m'.aggregateType = m.aggregateType
  aggregateId : m'.aggregateId = m.aggregateId
  eventType : m'.eventType = m.eventType
  payload : m'.payload = m.payload
  publishedAt : m'.publishedAt = m.publishedAt
  deliveryResult : m'.deliveryResult = m.deliveryResult

theorem SameDelivery.refl (m : OutboxMessage) : SameDelivery m m :=
  ⟨rfl, rfl, rfl, rfl, rfl, rfl⟩

theorem SameDelivery.paired {a : GovernedAction} {m m' : OutboxMessage} (same : SameDelivery m m')
    (paired : Paired a m) : Paired a m' := by
  cases paired with
  | pending unpublished unset => exact .pending (same.publishedAt.trans unpublished) unset
  | published published set delivered =>
    obtain ⟨result, stored, reference⟩ := delivered
    refine .published ?_ set ⟨result, same.deliveryResult.trans stored, reference⟩
    rw [same.publishedAt]
    exact published

theorem SameDelivery.starts {m m' : OutboxMessage} (same : SameDelivery m m')
    (starts : StartsAction m) : StartsAction m' := by
  refine ⟨same.aggregateType.trans starts.aggregateType, same.eventType.trans starts.eventType, ?_⟩
  rw [same.payload, same.aggregateId]
  exact starts.payload

theorem Delivers.mapMessages (delivers : Delivers actions messages)
    (f : OutboxMessage → OutboxMessage) (same : ∀ m, SameDelivery m (f m))
    (locked : ∀ m ∈ messages, (f m).lockedAt = none ↔ (f m).lockedBy = none) :
    Delivers actions (messages.map f) := by
  refine ⟨?_, ?_, ?_, ?_, ?_⟩
  · intro a member
    obtain ⟨m, old, about⟩ := delivers.hasMessage a member
    exact ⟨f m, List.mem_map_of_mem old, (same m).aggregateId.trans about⟩
  · intro m' member
    obtain ⟨m, old, rfl⟩ := List.mem_map.mp member
    obtain ⟨a, aMember, about⟩ := delivers.hasAction m old
    exact ⟨a, aMember, about.trans (same m).aggregateId.symm⟩
  · intro m' member
    obtain ⟨m, old, rfl⟩ := List.mem_map.mp member
    exact (same m).starts (delivers.starts m old)
  · intro a aMember m' member about
    obtain ⟨m, old, rfl⟩ := List.mem_map.mp member
    rw [(same m).aggregateId] at about
    exact (same m).paired (delivers.paired a aMember m old about)
  · intro m' member
    obtain ⟨m, old, rfl⟩ := List.mem_map.mp member
    exact locked m old

theorem sameDelivery_lease (workerId : String) (now : Datetime) (m : OutboxMessage) :
    SameDelivery m (lease workerId now m) :=
  ⟨rfl, rfl, rfl, rfl, rfl, rfl⟩

theorem sameDelivery_failure (errorType : String) (retryAt : Datetime) (maxAttempts : Nat)
    (now : Datetime) (m : OutboxMessage) :
    SameDelivery m (assignFailure errorType retryAt maxAttempts now m) := by
  unfold assignFailure
  split <;> exact ⟨rfl, rfl, rfl, rfl, rfl, rfl⟩

theorem assignFailure_unlocked (errorType : String) (retryAt : Datetime) (maxAttempts : Nat)
    (now : Datetime) (m : OutboxMessage) :
    (assignFailure errorType retryAt maxAttempts now m).lockedAt = none ∧
      (assignFailure errorType retryAt maxAttempts now m).lockedBy = none := by
  unfold assignFailure
  split <;> exact ⟨rfl, rfl⟩

/-! ## Transactions -/

theorem Delivers.insert {a : GovernedAction} {m : OutboxMessage}
    (delivers : Delivers actions messages) (fresh : ∀ old ∈ actions, old.id ≠ a.id)
    (unset : a.workflowExecutionArn = none) (about : m.aggregateId = a.id) (starts : StartsAction m)
    (unpublished : m.publishedAt = none) (unlocked : m.lockedAt = none ∧ m.lockedBy = none) :
    Delivers (actions ++ [a]) (messages ++ [m]) := by
  -- no old message is about the new action, and the new message is about no old one
  have noMessage : ∀ old ∈ messages, old.aggregateId ≠ a.id := by
    intro old member same
    obtain ⟨b, bMember, bSame⟩ := delivers.hasAction old member
    exact fresh b bMember (bSame.trans same)
  refine ⟨?_, ?_, ?_, ?_, ?_⟩
  · intro b member
    rcases List.mem_append.mp member with old | new
    · obtain ⟨n, nMember, same⟩ := delivers.hasMessage b old
      exact ⟨n, List.mem_append_left _ nMember, same⟩
    · rw [List.mem_singleton.mp new]
      exact ⟨m, List.mem_append_right _ (List.mem_singleton.mpr rfl), about⟩
  · intro n member
    rcases List.mem_append.mp member with old | new
    · obtain ⟨b, bMember, same⟩ := delivers.hasAction n old
      exact ⟨b, List.mem_append_left _ bMember, same⟩
    · rw [List.mem_singleton.mp new]
      exact ⟨a, List.mem_append_right _ (List.mem_singleton.mpr rfl), about.symm⟩
  · intro n member
    rcases List.mem_append.mp member with old | new
    · exact delivers.starts n old
    · rw [List.mem_singleton.mp new]
      exact starts
  · intro b bMember n nMember same
    rcases List.mem_append.mp bMember with bOld | bNew
    · rcases List.mem_append.mp nMember with nOld | nNew
      · exact delivers.paired b bOld n nOld same
      · rw [List.mem_singleton.mp nNew, about] at same
        exact absurd same.symm (fresh b bOld)
    · rw [List.mem_singleton.mp bNew] at same ⊢
      rcases List.mem_append.mp nMember with nOld | nNew
      · exact absurd same (noMessage n nOld)
      · rw [List.mem_singleton.mp nNew]
        exact .pending unpublished unset
  · intro n member
    rcases List.mem_append.mp member with old | new
    · exact delivers.locked n old
    · rw [List.mem_singleton.mp new]
      exact ⟨fun _ => unlocked.2, fun _ => unlocked.1⟩

/-- Two messages about one action agree in their unique key. -/
theorem Delivers.same_message {m n : OutboxMessage}
    (delivers : Delivers db.actions.rows db.outbox.rows) (mMember : m ∈ db.outbox.rows)
    (nMember : n ∈ db.outbox.rows) (same : m.aggregateId = n.aggregateId) : m = n := by
  have starts := delivers.starts m mMember
  have nStarts := delivers.starts n nMember
  apply Table.eq_of_alt mMember nMember
  rw [OutboxMessage.aggregateEvent, OutboxMessage.aggregateEvent, same, starts.aggregateType,
    starts.eventType, nStarts.aggregateType, nStarts.eventType]

/-- Publishing writes the reference to the action that its message is about, and to no
    other. -/
theorem Delivers.publish {record : OutboxMessage} {reference : String}
    {deliveryResult : List (String × String)} {now : Datetime}
    (delivers : Delivers db.actions.rows db.outbox.rows) (found : record ∈ db.outbox.rows)
    (delivered : workflowReference deliveryResult = some reference) :
    Delivers
      (publish db record.id record.payload.actionId reference deliveryResult now).actions.rows
      (publish db record.id record.payload.actionId reference deliveryResult now).outbox.rows := by
  rw [publish_actions, publish_rows]
  have payload := (delivers.starts record found).payload
  refine ⟨?_, ?_, ?_, ?_, ?_⟩
  · intro a' member
    obtain ⟨a, old, rfl⟩ := List.mem_map.mp member
    obtain ⟨m, mMember, same⟩ := delivers.hasMessage a old
    refine ⟨_, List.mem_map_of_mem mMember, ?_⟩
    split <;> split <;> exact same
  · intro m' member
    obtain ⟨m, old, rfl⟩ := List.mem_map.mp member
    obtain ⟨a, aMember, same⟩ := delivers.hasAction m old
    refine ⟨_, List.mem_map_of_mem aMember, ?_⟩
    split <;> split <;> exact same
  · intro m' member
    obtain ⟨m, old, rfl⟩ := List.mem_map.mp member
    obtain ⟨aggregateType, eventType, about⟩ := delivers.starts m old
    split <;> exact ⟨aggregateType, eventType, about⟩
  · intro a' aMember m' mMember same
    obtain ⟨a, aOld, rfl⟩ := List.mem_map.mp aMember
    obtain ⟨m, mOld, rfl⟩ := List.mem_map.mp mMember
    have about : m.aggregateId = a.id := by
      revert same
      split <;> split <;> exact fun same => same
    -- one message per action, so the pair is the published one or untouched on both sides
    by_cases target : m.aggregateId = record.aggregateId
    · have isRecord := delivers.same_message mOld found target
      subst isRecord
      have here : a.id = m.payload.actionId := about.symm.trans payload.symm
      rw [if_pos here, if_pos rfl]
      exact .published rfl rfl ⟨deliveryResult, rfl, delivered⟩
    · have elsewhere : a.id ≠ record.payload.actionId := by
        rw [payload, ← about]
        exact target
      have other : m.id ≠ record.id := by
        intro sameId
        rw [Table.eq_of_pk mOld found sameId] at target
        exact target rfl
      rw [if_neg elsewhere, if_neg other]
      exact delivers.paired a aOld m mOld about
  · intro m' member
    obtain ⟨m, old, rfl⟩ := List.mem_map.mp member
    split
    · exact ⟨fun _ => rfl, fun _ => rfl⟩
    · exact delivers.locked m old

theorem Delivers.transition {a : GovernedAction} (delivers : Delivers actions messages) :
    Delivers (transitionRows a actions) messages := by
  apply delivers.mapActions <;> intro old <;> split <;> rfl

theorem Delivers.leaseAll {workerId : String} {now : Datetime} {ids : List UUID}
    (delivers : Delivers db.actions.rows db.outbox.rows) :
    Delivers (leaseAll db workerId now ids).actions.rows
      (leaseAll db workerId now ids).outbox.rows := by
  rw [leaseAll_rows]
  apply delivers.mapMessages
  · intro m
    split
    · exact sameDelivery_lease workerId now m
    · exact .refl m
  · intro m member
    split
    · simp [lease]
    · exact delivers.locked m member

theorem Delivers.fail {messageId : UUID} {errorType : String} {retryAt now : Datetime}
    {maxAttempts : Nat} (delivers : Delivers db.actions.rows db.outbox.rows) :
    Delivers (fail db messageId errorType retryAt maxAttempts now).actions.rows
      (fail db messageId errorType retryAt maxAttempts now).outbox.rows := by
  rw [fail_rows]
  apply delivers.mapMessages
  · intro m
    split
    · exact sameDelivery_failure errorType retryAt maxAttempts now m
    · exact .refl m
  · intro m member
    split
    · obtain ⟨atNone, byNone⟩ := assignFailure_unlocked errorType retryAt maxAttempts now m
      exact ⟨fun _ => byNone, fun _ => atNone⟩
    · exact delivers.locked m member

theorem Delivers.advance {σ ε : Type} {system : SupplierSystem σ ε} {supplier : σ}
    {ambient : Ambient} {input : ε} {call : Call} {p : Progress σ}
    (delivers : Delivers db.actions.rows db.outbox.rows)
    (proposed : ∀ a, call = .insertProposal a → a.workflowExecutionArn = none)
    (advances : Advances system db supplier ambient input call p) :
    Delivers p.store.actions.rows p.store.outbox.rows := by
  cases advances with
  | reads | applies | applyRaises => exact delivers
  | @inserts action _ committed =>
    obtain ⟨_, _, actionRows, _, messageRows, fresh, _⟩ := insertProposal_some committed
    show Delivers (Store.actions _).rows (Store.outbox _).rows
    rw [actionRows, messageRows]
    exact delivers.insert fresh (proposed action rfl) rfl ⟨rfl, rfl, rfl⟩ rfl ⟨rfl, rfl⟩
  | decides committed | executes committed =>
    obtain ⟨record, audit, _, _, _, _, rfl⟩ := saveTransition_ok committed
    show Delivers (Store.actions _).rows db.outbox.rows
    rw [applyTransition_rows]
    exact delivers.transition

/-! ## Eligibility -/

/-- A message that waits for its delivery is selected by a claim, unless the batch is full. -/
theorem selected_of_claimable {now : Datetime} {lockTimeout : Timedelta} {m : OutboxMessage}
    (member : m ∈ db.outbox.rows) (eligible : claimable now lockTimeout m = true) (batchSize : Nat)
    (scan : Scan) (free : m.id ∉ scan.skipLocked) :
    m ∈ selectBatch db batchSize lockTimeout now scan ∨
      (selectBatch db batchSize lockTimeout now scan).length = batchSize := by
  unfold selectBatch
  generalize sorted : (db.outbox.rows.filter fun m =>
    claimable now lockTimeout m && m.id ∉ scan.skipLocked).insertionSort
      (claimOrder scan.rank) = waiting
  have waits : m ∈ waiting := by
    rw [← sorted, List.mem_insertionSort, List.mem_filter]
    exact ⟨member, by simp [eligible, free]⟩
  by_cases fits : waiting.length ≤ batchSize
  · rw [List.take_of_length_le fits]
    exact .inl waits
  · right
    rw [List.length_take]
    omega

end SupplierAssurance.Outbox

namespace SupplierAssurance.World

open Python Lib Governance Outbox SqlAlchemyOutboxRepository

variable {σ ε ω φ : Type} {platform : Platform σ ε ω φ} {w w' : World σ ω} {label : Label ε φ}

/-! ## Runs -/

/-- The delivery invariant, with what it needs of the calls: a proposal that is about to be
    inserted has no workflow reference. -/
structure Delivering (w : World σ ω) : Prop where
  delivers : Delivers w.store.actions.rows w.store.outbox.rows
  proposed : ∀ c ∈ w.calls, ∀ a,
    c.call = .lookupProposal a ∨ c.call = .insertProposal a → a.workflowExecutionArn = none

theorem enter_unstarted {now : Datetime} {request : Request} {a : GovernedAction}
    (entered : Call.enter now request = .lookupProposal a) : a.workflowExecutionArn = none := by
  cases request with
  | propose r =>
    simp only [Call.enter] at entered
    split at entered
    · cases entered
    next prepared =>
      cases entered
      obtain ⟨_, _, _, arguments, rfl⟩ := prepareAction_ok prepared
      rfl
  | decide | execute =>
    simp only [Call.enter] at entered
    split at entered <;> cases entered

theorem enter_not_insert {now : Datetime} {request : Request} {a : GovernedAction} :
    Call.enter now request ≠ .insertProposal a := by
  cases request <;> simp only [Call.enter] <;> split <;> simp

/-- A call reaches its insert only from its lookup. -/
theorem advances_proposal {system : SupplierSystem σ ε} {db : Store} {supplier : σ}
    {ambient : Ambient} {input : ε} {call : Call} {p : Progress σ} {a : GovernedAction}
    (advances : Advances system db supplier ambient input call p)
    (next : p.call = .lookupProposal a ∨ p.call = .insertProposal a) :
    call = .lookupProposal a := by
  rcases next with next | next
  · cases advances with
    | reads read =>
      cases next
      cases read
    | inserts | decides | applies | applyRaises | executes => cases next
  · cases advances with
    | reads read =>
      cases next
      cases read
      rfl
    | inserts | decides | applies | applyRaises | executes => cases next

theorem delivering_step (delivering : w.Delivering) (moved : step platform w label = some w') :
    w'.Delivering := by
  cases step_moves moved with
  | submit request now =>
    refine ⟨delivering.delivers, ?_⟩
    intro c member a call
    rcases List.mem_append.mp member with old | new
    · exact delivering.proposed c old a call
    · rw [List.mem_singleton.mp new] at call
      rcases call with entered | entered
      · exact enter_unstarted entered
      · exact absurd entered enter_not_insert
  | @advance index ambient input c p at_ advances =>
    have inCalls := List.mem_of_getElem? at_
    refine ⟨delivering.delivers.advance (fun a now => delivering.proposed c inCalls a (.inr now))
      advances, ?_⟩
    intro c' member a call
    rcases List.mem_or_eq_of_mem_set member with old | rfl
    · exact delivering.proposed c' old a call
    · exact delivering.proposed c inCalls a (.inl (advances_proposal advances call))
  | claim => exact ⟨delivering.delivers.leaseAll, delivering.proposed⟩
  | @acknowledge _ message _ _ _ _ _ _ acknowledged =>
    refine ⟨?_, delivering.proposed⟩
    cases acknowledged with
    | unchanged => exact delivering.delivers
    | published _ found same _ _ delivered =>
      simp only [← same]
      exact delivering.delivers.publish found delivered
    | failed => exact delivering.delivers.fail
  | load | start | crash | storeCase | storeReview =>
    exact ⟨delivering.delivers, delivering.proposed⟩

theorem delivering_inductive : Inductive platform (@Delivering σ ω) where
  initial _ _ _ _ := ⟨.nil, by simp [World.initial]⟩
  keep := delivering_step

/-! ## References that fit -/

/-- What the workers are about to store came from the workflow, so it fits its column. -/
def Referenced (w : World σ ω) : Prop :=
  ∀ workerId, (w.workers workerId).Referenced

theorem Referenced.setWorker (referenced : w.Referenced) {worker : Worker} (new : worker.Referenced)
    (moving workerId : String) : (Function.update w.workers moving worker workerId).Referenced := by
  by_cases same : workerId = moving
  · rw [same, Function.update_self]
    exact new
  · rw [Function.update_of_ne same]
    exact referenced workerId

theorem referenced_step (referenced : w.Referenced) (moved : step platform w label = some w') :
    w'.Referenced := by
  cases step_moves moved with
  | submit | advance | storeCase | storeReview => exact referenced
  | claim => exact referenced.setWorker (Worker.referenced_next _) _
  | load => exact referenced.setWorker (Worker.referenced_load ..) _
  | @start _ input _ action _ _ answer _ started =>
    have fits := platform.references_fit w.workflow input action
    rw [started] at fits
    exact referenced.setWorker (Worker.referenced_started _ _ fits) _
  | @acknowledge workerId message batch delivery _ _ _ done =>
    have next := Worker.referenced_acknowledge workerId (platform.config workerId) w.store message
      delivery batch
    rw [done] at next
    exact referenced.setWorker next workerId
  | crash workerId =>
    have idle : (Worker.idle none).Referenced := trivial
    exact referenced.setWorker idle workerId

theorem referenced_inductive : Inductive platform (@Referenced σ ω) where
  initial _ _ _ _ _ := trivial
  keep := referenced_step

/-! ## The two writers of an action -/

/-- A governance step leaves the workflow reference of every row alone. -/
theorem advance_keeps_reference {system : SupplierSystem σ ε} {db : Store} {supplier : σ}
    {ambient : Ambient} {input : ε} {call : Call} {p : Progress σ}
    (advances : Advances system db supplier ambient input call p) {a : GovernedAction}
    (member : a ∈ db.actions.rows) :
    ∃ a' ∈ p.store.actions.rows, a'.id = a.id ∧
      a'.workflowExecutionArn = a.workflowExecutionArn := by
  cases advances with
  | reads | applies | applyRaises => exact ⟨a, member, rfl, rfl⟩
  | inserts committed =>
    obtain ⟨_, _, rows, _⟩ := SqlAlchemyActionRepository.insertProposal_some committed
    refine ⟨a, ?_, rfl, rfl⟩
    show a ∈ (Store.actions _).rows
    rw [rows]
    exact List.mem_append_left _ member
  | decides committed | executes committed =>
    obtain ⟨record, audit, _, _, _, _, rfl⟩ :=
      SqlAlchemyActionRepository.saveTransition_ok committed
    rw [SqlAlchemyActionRepository.applyTransition_rows]
    refine ⟨_, List.mem_map_of_mem member, ?_⟩
    split <;> exact ⟨rfl, rfl⟩

/-- An acknowledgement changes no column of an action but its workflow reference. -/
theorem acknowledge_keeps_decision {workerId : String} {config : DispatcherConfig} {db db' : Store}
    {message : OutboxMessage} {delivery : Except String (List (String × String))} {batch : Batch}
    (acknowledged : Acknowledged workerId config db message delivery batch db') {a : GovernedAction}
    (member : a ∈ db.actions.rows) :
    ∃ a' ∈ db'.actions.rows,
      a' = { a with workflowExecutionArn := a'.workflowExecutionArn } := by
  cases acknowledged with
  | unchanged | failed => exact ⟨a, member, rfl⟩
  | published =>
    rw [publish_actions]
    refine ⟨_, List.mem_map_of_mem member, ?_⟩
    split <;> rfl

/-- Only a message that is not published yet is published, so a reference is set once. -/
theorem acknowledge_keeps_reference {workerId : String} {config : DispatcherConfig} {db db' : Store}
    {message : OutboxMessage} {delivery : Except String (List (String × String))} {batch : Batch}
    (delivers : Delivers db.actions.rows db.outbox.rows)
    (acknowledged : Acknowledged workerId config db message delivery batch db') {a : GovernedAction}
    (member : a ∈ db.actions.rows) (set : a.workflowExecutionArn.isSome) :
    ∃ a' ∈ db'.actions.rows, a'.id = a.id ∧ a'.workflowExecutionArn = a.workflowExecutionArn := by
  cases acknowledged with
  | unchanged | failed => exact ⟨a, member, rfl, rfl⟩
  | @published record action _ _ _ found _ unpublished _ _ _ _ =>
    rw [publish_actions]
    refine ⟨_, List.mem_map_of_mem member, ?_⟩
    split
    next target =>
      have about : record.aggregateId = a.id :=
        ((delivers.starts record found).payload.symm.trans target.symm)
      cases delivers.paired a member record found about with
      | pending _ unset =>
        rw [unset] at set
        cases set
      | published published =>
        rw [unpublished] at published
        cases published
    next => exact ⟨rfl, rfl⟩

/-- Every reference that `w` has set is still there in `w'`. -/
def KeepsReferences (w w' : World σ ω) : Prop :=
  ∀ a ∈ w.store.actions.rows, a.workflowExecutionArn.isSome →
    ∃ a' ∈ w'.store.actions.rows, a'.id = a.id ∧ a'.workflowExecutionArn = a.workflowExecutionArn

theorem keepsReferences_step (delivering : w.Delivering)
    (moved : step platform w label = some w') : KeepsReferences w w' := by
  intro a member set
  cases step_moves moved with
  | advance _ advances => exact advance_keeps_reference advances member
  | acknowledge _ _ acknowledged =>
    exact acknowledge_keeps_reference delivering.delivers acknowledged member set
  | submit | claim | load | start | crash | storeCase | storeReview => exact ⟨a, member, rfl, rfl⟩

theorem keepsReferences_steps (delivering : w.Delivering) (steps : Steps (step platform) w w') :
    KeepsReferences w w' := by
  apply steps.related delivering
  · intro _ _ _ holds _ moved
    exact delivering_step holds moved
  · intro w a member _
    exact ⟨a, member, rfl, rfl⟩
  · intro w₁ w₂ w₃ first second a member set
    obtain ⟨b, bMember, bId, bSame⟩ := first a member set
    obtain ⟨c, cMember, cId, cSame⟩ := second b bMember (bSame ▸ set)
    exact ⟨c, cMember, cId.trans bId, cSame.trans bSame⟩
  · intro _ _ _ holds _ moved
    exact keepsReferences_step holds moved

/-! ## Every committed proposal keeps its workflow start -/

structure NoLostStart (platform : Platform σ ε ω φ) (w : World σ ω) : Prop where
  oneMessage : ∀ a ∈ w.store.actions.rows, ∃ m ∈ w.store.outbox.rows,
    m.aggregateId = a.id ∧ m.payload.actionId = a.id ∧
    ∀ n ∈ w.store.outbox.rows, n.aggregateId = a.id ∨ n.payload.actionId = a.id → n = m
  reference : ∀ a ∈ w.store.actions.rows, ∀ m ∈ w.store.outbox.rows, m.aggregateId = a.id →
    (a.workflowExecutionArn.isSome ↔ m.publishedAt.isSome) ∧
    (m.publishedAt.isSome → ∃ result, m.deliveryResult = some result ∧
      a.workflowExecutionArn = result.lookup "workflow_execution_arn")
  /-- A reference stays, however the run goes on. -/
  kept : ∀ w', Steps (step platform) w w' → KeepsReferences w w'
  /-- No step of a governance call touches a reference. -/
  governanceFrame : ∀ index ambient input w',
    step platform w (.advance index ambient input) = some w' →
    ∀ a ∈ w.store.actions.rows, ∃ a' ∈ w'.store.actions.rows, a'.id = a.id ∧
      a'.workflowExecutionArn = a.workflowExecutionArn
  /-- No acknowledgement touches anything else. -/
  outboxFrame : ∀ workerId w', step platform w (.acknowledge workerId) = some w' →
    ∀ a ∈ w.store.actions.rows, ∃ a' ∈ w'.store.actions.rows,
      a' = { a with workflowExecutionArn := a'.workflowExecutionArn }
  eligible : ∀ m ∈ w.store.outbox.rows, m.publishedAt = none → m.deadLetteredAt = none →
    ∀ now lockTimeout, m.availableAt ≤ now →
    (m.lockedBy = none ∨ ∃ lockedAt, m.lockedAt = some lockedAt ∧ lockedAt ≤ now - lockTimeout) →
    claimable now lockTimeout m = true ∧
    ∀ workerId batchSize scan, m.id ∉ scan.skipLocked →
      lease workerId now m ∈
        (claimBatch w.store workerId batchSize lockTimeout now scan).2 ∨
      (claimBatch w.store workerId batchSize lockTimeout now scan).2.length = batchSize

theorem one_message {db : Store} (delivers : Delivers db.actions.rows db.outbox.rows)
    {a : GovernedAction} (member : a ∈ db.actions.rows) :
    ∃ m ∈ db.outbox.rows, m.aggregateId = a.id ∧ m.payload.actionId = a.id ∧
      ∀ n ∈ db.outbox.rows, n.aggregateId = a.id ∨ n.payload.actionId = a.id → n = m := by
  obtain ⟨m, mMember, same⟩ := delivers.hasMessage a member
  have starts := delivers.starts m mMember
  refine ⟨m, mMember, same, starts.payload.trans same, ?_⟩
  intro n nMember about
  rw [(delivers.starts n nMember).payload, or_self] at about
  exact delivers.same_message nMember mMember (about.trans same.symm)

theorem workflowReference_lookup {result : List (String × String)} {reference : String}
    (delivered : workflowReference result = some reference) :
    result.lookup "workflow_execution_arn" = some reference := by
  rw [workflowReference, Option.filter_eq_some_iff] at delivered
  exact delivered.1

theorem reachable_noLostStart (reachable : Reachable platform w) : NoLostStart platform w := by
  have delivering : w.Delivering := reachable.invariant delivering_inductive
  refine ⟨?_, ?_, ?_, ?_, ?_, ?_⟩
  · intro a member
    exact one_message delivering.delivers member
  · intro a member m mMember about
    cases delivering.delivers.paired a member m mMember about with
    | pending unpublished unset => simp [unpublished, unset]
    | published published set delivered =>
      obtain ⟨result, stored, reference⟩ := delivered
      refine ⟨by simp [published, set], fun _ => ⟨result, stored, ?_⟩⟩
      rw [set, workflowReference_lookup reference]
  · intro w' steps
    exact keepsReferences_steps delivering steps
  · intro index ambient input w' moved a member
    cases step_moves moved with
    | advance _ advances => exact advance_keeps_reference advances member
  · intro workerId w' moved a member
    cases step_moves moved with
    | acknowledge _ _ acknowledged => exact acknowledge_keeps_decision acknowledged member
  · intro m member unpublished alive now lockTimeout due free
    have eligible : claimable now lockTimeout m = true := by
      rcases free with unowned | ⟨lockedAt, locked, stale⟩
      · have unlocked := (delivering.delivers.locked m member).mpr unowned
        simp [claimable, unpublished, alive, due, unlocked]
      · simp [claimable, unpublished, alive, due, locked, stale]
    refine ⟨eligible, ?_⟩
    intro workerId batchSize scan notSkipped
    rcases selected_of_claimable member eligible batchSize scan notSkipped with chosen | full
    · exact .inl (List.mem_map_of_mem chosen)
    · right
      rw [claimBatch, List.length_map]
      exact full

/-- A proposal whose message a worker has delivered. -/
theorem reachable_noLostStart_published :
    ∃ w, Reachable Sample.platform w ∧
      w.store.outbox.rows.map (·.status) = [.published] ∧ NoLostStart Sample.platform w := by
  have replayed : ((run (step Sample.platform)
      (initial [⟨0xa⟩, ⟨0xb⟩] [⟨0x1a⟩, ⟨0x1b⟩] [] ())
      (Sample.fullLife 0 Sample.proposalA Sample.approverA ++ Sample.deliver "worker" 11)).map
        fun w => decide (w.store.outbox.rows.map (·.status) = [.published])) = some true := by
    decide +kernel
  obtain ⟨w, reachable, published⟩ := reachable_of_run replayed
  exact ⟨w, reachable, of_decide_eq_true published, reachable_noLostStart reachable⟩

end SupplierAssurance.World
