import SupplierAssurance.Outbox.Lease

/-! # One workflow execution for each action

Delivery is at least once: a message may be claimed again after its workflow was started,
because the lease ran out or the worker crashed before `mark_published`.  The execution
name is a function of the action's identifier, so Step Functions refuses the second
start, and the adapter answers with the ARN that the first one was answered with.
-/

namespace SupplierAssurance.Outbox

open Python Lib Governance Workflows SqlAlchemyOutboxRepository StepFunctionsApprovalWorkflow

/-- What a start of the action's workflow returns to the dispatcher. -/
def deliveryOf (arn : StateMachineArn) (actionId : UUID) : List (String × String) :=
  [("workflow_execution_arn", arn.execution (executionName actionId))]

variable {arn : StateMachineArn} {names names' : List String} {db db' : Store} {worker : Worker}
  {message : OutboxMessage} {batch : Batch}

/-! ## Messages and workers against the executions -/

/-- A published message carries the ARN of its action's execution, which exists. -/
def MessageOk (arn : StateMachineArn) (names : List String) (m : OutboxMessage) : Prop :=
  m.publishedAt.isSome → m.deliveryResult = some (deliveryOf arn m.aggregateId) ∧
    executionName m.aggregateId ∈ names

theorem MessageOk.mono (ok : MessageOk arn names message) (grown : names ⊆ names') :
    MessageOk arn names' message := by
  intro published
  obtain ⟨delivered, started⟩ := ok published
  exact ⟨delivered, grown started⟩

theorem MessageOk.same {m m' : OutboxMessage} (ok : MessageOk arn names m)
    (same : SameDelivery m m') : MessageOk arn names m' := by
  unfold MessageOk
  rw [same.publishedAt, same.deliveryResult, same.aggregateId]
  exact ok

/-- The rows that identifiers in the hands of a worker refer to stay. -/
structure Persists (db db' : Store) : Prop where
  actions : ∀ a ∈ db.actions.rows, ∃ a' ∈ db'.actions.rows, a'.id = a.id
  messages : ∀ m ∈ db.outbox.rows, ∃ m' ∈ db'.outbox.rows,
    m'.id = m.id ∧ m'.aggregateId = m.aggregateId

theorem Persists.refl (db : Store) : Persists db db :=
  ⟨fun a member => ⟨a, member, rfl⟩, fun m member => ⟨m, member, rfl, rfl⟩⟩

structure WorkerOk (arn : StateMachineArn) (names : List String) (db : Store) (worker : Worker) :
    Prop where
  copies : ∀ m ∈ worker.hands, ∃ row ∈ db.outbox.rows,
    row.id = m.id ∧ row.aggregateId = m.aggregateId
  loaded : ∀ m action batch, worker = .starting m action batch →
    action.id = m.aggregateId ∧ ∃ a ∈ db.actions.rows, a.id = action.id
  delivered : ∀ m result batch, worker = .acknowledging m (.ok result) batch →
    result = deliveryOf arn m.aggregateId ∧ executionName m.aggregateId ∈ names

theorem WorkerOk.idle (last : Option (Except OutboxError OutboxDispatchResult)) :
    WorkerOk arn names db (.idle last) := by
  constructor <;> simp [Worker.hands]

theorem WorkerOk.mono (ok : WorkerOk arn names db worker) (grown : names ⊆ names')
    (persists : Persists db db') : WorkerOk arn names' db' worker := by
  refine ⟨?_, ?_, ?_⟩
  · intro m member
    obtain ⟨row, rowMember, same, about⟩ := ok.copies m member
    obtain ⟨row', rowMember', same', about'⟩ := persists.messages row rowMember
    exact ⟨row', rowMember', same'.trans same, about'.trans about⟩
  · intro m action batch isStarting
    obtain ⟨about, a, member, same⟩ := ok.loaded m action batch isStarting
    obtain ⟨a', member', same'⟩ := persists.actions a member
    exact ⟨about, a', member', same'.trans same⟩
  · intro m result batch isAcknowledging
    obtain ⟨delivered, started⟩ := ok.delivered m result batch isAcknowledging
    exact ⟨delivered, grown started⟩

/-- The head of the loop starts no delivery. -/
theorem WorkerOk.next (copies : ∀ m ∈ batch.rest, ∃ row ∈ db.outbox.rows,
    row.id = m.id ∧ row.aggregateId = m.aggregateId) : WorkerOk arn names db (.next batch) := by
  refine ⟨?_, ?_, ?_⟩
  · intro m member
    rw [Worker.hands_next] at member
    exact copies m member
  · intro m action batch' isStarting
    unfold Worker.next at isStarting
    split at isStarting <;> cases isStarting
  · intro m result batch' isAcknowledging
    unfold Worker.next at isAcknowledging
    split at isAcknowledging <;> cases isAcknowledging

theorem WorkerOk.load (ok : WorkerOk arn names db (.loading message batch)) :
    WorkerOk arn names db (.load db message batch) := by
  refine ⟨?_, ?_, ?_⟩
  · intro m member
    rw [Worker.hands_load] at member
    exact ok.copies m member
  · intro m action batch' isStarting
    unfold Worker.load at isStarting
    split at isStarting
    · cases isStarting
    next a loaded =>
      cases isStarting
      unfold loadAction at loaded
      split at loaded
      · cases loaded
      · split at loaded
        · cases loaded
        next found =>
          split at loaded
          · cases loaded
          next same =>
            cases loaded
            exact ⟨not_not.mp same, action, (Table.find?_eq_some.mp found).1, rfl⟩
  · intro m result batch' isAcknowledging
    unfold Worker.load at isAcknowledging
    split at isAcknowledging <;> cases isAcknowledging

theorem WorkerOk.started {action : GovernedAction} {answer : Except String String}
    (ok : WorkerOk arn names db (.starting message action batch))
    (answers : ∀ reference, answer = .ok reference →
      reference = arn.execution (executionName action.id) ∧ executionName action.id ∈ names) :
    WorkerOk arn names db (.started message batch answer) := by
  obtain ⟨about, _⟩ := ok.loaded message action batch rfl
  refine ⟨?_, ?_, ?_⟩
  · intro m member
    rw [Worker.hands_started] at member
    exact ok.copies m member
  · intro m action' batch' isStarting
    cases answer <;> cases isStarting
  · intro m result batch' isAcknowledging
    cases answer with
    | error e => cases isAcknowledging
    | ok reference =>
      cases isAcknowledging
      obtain ⟨rfl, started⟩ := answers reference rfl
      rw [about] at started ⊢
      exact ⟨rfl, started⟩

theorem WorkerOk.acknowledged {workerId : String} {config : DispatcherConfig}
    {delivery : Except String (List (String × String))}
    (ok : WorkerOk arn names db (.acknowledging message delivery batch))
    (done : Worker.acknowledge workerId config db message delivery batch = (db', worker)) :
    WorkerOk arn names db worker := by
  have rest : ∀ m ∈ batch.rest, ∃ row ∈ db.outbox.rows,
      row.id = m.id ∧ row.aggregateId = m.aggregateId :=
    fun m member => ok.copies m (List.mem_cons_of_mem _ member)
  cases delivery with
  | ok result =>
    simp only [Worker.acknowledge] at done
    split at done <;> cases done
    · exact .idle _
    · exact .next rest
  | error errorType =>
    simp only [Worker.acknowledge] at done
    split at done <;> cases done
    · exact .idle _
    · exact .next rest
    · exact .next rest

end SupplierAssurance.Outbox

namespace SupplierAssurance.World

open Python Lib Governance Outbox Workflows SqlAlchemyOutboxRepository StepFunctionsApprovalWorkflow

variable {σ ε ω φ : Type} {platform : Platform σ ε ω φ} {w w' : World σ ω} {label : Label ε φ}
  {arn : StateMachineArn} {client : StepFunctionsClient ω φ} {executions : ω → List Execution}

/-! ## Steps -/

theorem persists_map_messages {db db' : Store} {f : OutboxMessage → OutboxMessage}
    {p : OutboxMessage → Prop} [DecidablePred p]
    (actions : ∀ a ∈ db.actions.rows, ∃ a' ∈ db'.actions.rows, a'.id = a.id)
    (rows : db'.outbox.rows = db.outbox.rows.map fun m => if p m then f m else m)
    (keeps : ∀ m, (f m).id = m.id ∧ (f m).aggregateId = m.aggregateId) : Persists db db' := by
  refine ⟨actions, ?_⟩
  intro m member
  refine ⟨_, rows ▸ List.mem_map_of_mem member, ?_⟩
  split
  · exact keeps m
  · exact ⟨rfl, rfl⟩

theorem persists_acknowledge {workerId : String} {config : DispatcherConfig} {db db' : Store}
    {message : OutboxMessage} {delivery : Except String (List (String × String))} {batch : Batch}
    (acknowledged : Acknowledged workerId config db message delivery batch db') :
    Persists db db' := by
  have actions : ∀ a ∈ db.actions.rows, ∃ a' ∈ db'.actions.rows, a'.id = a.id := by
    intro a member
    obtain ⟨a', member', same⟩ := acknowledge_keeps_decision acknowledged member
    refine ⟨a', member', ?_⟩
    rw [same]
  cases acknowledged with
  | unchanged => exact .refl _
  | published => exact persists_map_messages actions (publish_rows ..) fun _ => ⟨rfl, rfl⟩
  | failed =>
    refine persists_map_messages actions (fail_rows ..) fun m => ?_
    exact ⟨(assignFailure_keepsKeys _ _ _ _ m).1, (sameDelivery_failure _ _ _ _ m).aggregateId⟩

theorem persists_step (moved : step platform w label = some w') : Persists w.store w'.store := by
  have unchanged := Persists.refl w.store
  cases step_moves moved with
  | advance _ advances =>
    refine ⟨?_, fun m member => ⟨m, advance_keeps_messages advances member, rfl, rfl⟩⟩
    intro a member
    obtain ⟨a', member', same, _⟩ := advance_keeps_reference advances member
    exact ⟨a', member', same⟩
  | claim => exact persists_map_messages unchanged.actions (leaseAll_rows ..) fun _ => ⟨rfl, rfl⟩
  | acknowledge _ _ acknowledged => exact persists_acknowledge acknowledged
  | submit | load | start | crash => exact unchanged
  | storeCase | storeReview => exact ⟨unchanged.actions, unchanged.messages⟩

/-! ## The invariant -/

/-- Executions, workers and messages agree on which workflow was started for which action. -/
structure StartInv (arn : StateMachineArn) (executions : List Execution) (w : World σ ω) :
    Prop where
  distinct : (executions.map (·.name)).Nodup
  owned : ∀ e ∈ executions, ∃ a ∈ w.store.actions.rows, e.name = executionName a.id
  answered : ∀ id reference, (id, .ok reference) ∈ w.starts →
    reference = arn.execution (executionName id) ∧ executionName id ∈ executions.map (·.name)
  workers : ∀ workerId, WorkerOk arn (executions.map (·.name)) w.store (w.workers workerId)
  messages : ∀ m ∈ w.store.outbox.rows, MessageOk arn (executions.map (·.name)) m

/-- A step that leaves Step Functions alone: what is left to check is the one worker that
    moved and the messages. -/
theorem StartInv.keep {list : List Execution} (inv : StartInv arn list w)
    (persists : Persists w.store w'.store) (starts : w'.starts = w.starts)
    (workers : ∀ workerId, w'.workers workerId ≠ w.workers workerId →
      WorkerOk arn (list.map (·.name)) w'.store (w'.workers workerId))
    (messages : ∀ m ∈ w'.store.outbox.rows, MessageOk arn (list.map (·.name)) m) :
    StartInv arn list w' := by
  refine ⟨inv.distinct, ?_, starts ▸ inv.answered, ?_, messages⟩
  · intro e member
    obtain ⟨a, aMember, named⟩ := inv.owned e member
    obtain ⟨a', aMember', same⟩ := persists.actions a aMember
    exact ⟨a', aMember', same ▸ named⟩
  · intro workerId
    by_cases moved : w'.workers workerId = w.workers workerId
    · rw [moved]
      exact (inv.workers workerId).mono (List.Subset.refl _) persists
    · exact workers workerId moved

theorem setWorker_moved {workerId other : String} {worker : Worker}
    (moved : Function.update w.workers workerId worker other ≠ w.workers other) :
    other = workerId := by
  by_contra differ
  exact moved (Function.update_of_ne differ _ _)

theorem messageOk_advance {system : SupplierSystem σ ε} {db : Store} {supplier : σ}
    {ambient : Ambient} {input : ε} {call : Call} {p : Progress σ} {names : List String}
    (advances : Advances system db supplier ambient input call p)
    (ok : ∀ m ∈ db.outbox.rows, MessageOk arn names m) :
    ∀ m ∈ p.store.outbox.rows, MessageOk arn names m := by
  cases advance_messages advances with
  | same rows =>
    rw [rows]
    exact ok
  | inserted rows _ =>
    rw [rows]
    intro m member
    rcases List.mem_append.mp member with old | new
    · exact ok m old
    · rw [List.mem_singleton.mp new]
      intro published
      cases published

/-- The message that a worker publishes is the row it holds a copy of. -/
theorem messageOk_acknowledge {workerId : String} {config : DispatcherConfig} {db db' : Store}
    {message : OutboxMessage} {delivery : Except String (List (String × String))} {batch : Batch}
    {names : List String}
    (worker : WorkerOk arn names db (.acknowledging message delivery batch))
    (acknowledged : Acknowledged workerId config db message delivery batch db')
    (ok : ∀ m ∈ db.outbox.rows, MessageOk arn names m) :
    ∀ m ∈ db'.outbox.rows, MessageOk arn names m := by
  cases acknowledged with
  | unchanged => exact ok
  | published returned =>
    subst returned
    rw [publish_rows]
    intro m' member
    obtain ⟨m, old, rfl⟩ := List.mem_map.mp member
    split
    next here =>
      -- the worker's copy names the execution that was started
      obtain ⟨row, rowMember, same, about⟩ := worker.copies message List.mem_cons_self
      obtain ⟨delivered, started⟩ := worker.delivered message _ batch rfl
      have isRow : m = row := Table.eq_of_pk old rowMember (here.trans same.symm)
      subst isRow
      intro _
      show some _ = some (deliveryOf arn m.aggregateId) ∧ executionName m.aggregateId ∈ names
      rw [about, delivered]
      exact ⟨rfl, started⟩
    next => exact ok m old
  | failed =>
    rw [fail_rows]
    intro m' member
    obtain ⟨m, old, rfl⟩ := List.mem_map.mp member
    split
    · exact (ok m old).same (sameDelivery_failure _ _ _ _ m)
    · exact ok m old

/-- The start of a workflow. -/
theorem StartInv.start {list list' : List Execution} {workerId : String} {message : OutboxMessage}
    {action : GovernedAction} {batch : Batch} {workflow : ω} {answer : Except String String}
    (inv : StartInv arn list w) (starting : w.workers workerId = .starting message action batch)
    (grown : list' = list ∨ (executionName action.id ∉ list.map (·.name) ∧
      list' = list ++ [⟨executionName action.id, startInput action⟩]))
    (answers : ∀ reference, answer = .ok reference →
      reference = arn.execution (executionName action.id) ∧
        executionName action.id ∈ list'.map (·.name)) :
    StartInv arn list' { w.setWorker workerId (.started message batch answer) with
      workflow := workflow
      starts := w.starts ++ [(action.id, answer)] } := by
  have subset : list.map (·.name) ⊆ list'.map (·.name) := by
    rcases grown with rfl | ⟨_, rfl⟩
    · exact List.Subset.refl _
    · rw [List.map_append]
      exact List.subset_append_left _ _
  have isStarting := inv.workers workerId
  rw [starting] at isStarting
  refine ⟨?_, ?_, ?_, ?_, ?_⟩
  · rcases grown with rfl | ⟨absent, rfl⟩
    · exact inv.distinct
    · rw [List.map_append, List.map_singleton]
      exact inv.distinct.append (List.nodup_singleton _) (by simpa using absent)
  · intro e member
    rcases grown with rfl | ⟨_, rfl⟩
    · exact inv.owned e member
    · rcases List.mem_append.mp member with old | new
      · exact inv.owned e old
      · obtain ⟨_, a, aMember, same⟩ := isStarting.loaded message action batch rfl
        rw [List.mem_singleton.mp new]
        exact ⟨a, aMember, by rw [same]⟩
  · intro id reference member
    rcases List.mem_append.mp member with old | new
    · obtain ⟨isArn, started⟩ := inv.answered id reference old
      exact ⟨isArn, subset started⟩
    · obtain ⟨rfl, returned⟩ := Prod.mk.inj (List.mem_singleton.mp new)
      exact answers reference returned.symm
  · intro other
    show WorkerOk arn _ w.store (Function.update w.workers workerId _ other)
    by_cases same : other = workerId
    · subst same
      rw [Function.update_self]
      exact (isStarting.mono subset (.refl _)).started answers
    · rw [Function.update_of_ne same]
      exact (inv.workers other).mono subset (.refl _)
  · intro m member
    exact (inv.messages m member).mono subset

theorem startInv_step (contract : StepFunctionsContract client arn executions)
    (adapter : platform.workflow = stepFunctionsApprovalWorkflow client arn.text)
    (inv : StartInv arn (executions w.workflow) w) (moved : step platform w label = some w') :
    StartInv arn (executions w'.workflow) w' := by
  have persists := persists_step moved
  cases step_moves moved with
  | submit | storeCase | storeReview =>
    exact inv.keep persists rfl (fun _ changed => absurd rfl changed) inv.messages
  | advance _ advances =>
    exact inv.keep persists rfl (fun _ changed => absurd rfl changed)
      (messageOk_advance advances inv.messages)
  | @claim workerId now scan last chosen idle selected =>
    refine inv.keep persists rfl ?_ ?_
    · intro other changed
      obtain rfl := setWorker_moved changed
      show WorkerOk arn _ _ (Function.update w.workers other _ other)
      rw [Function.update_self]
      apply WorkerOk.next
      intro m member
      obtain ⟨n, nChosen, rfl⟩ := List.mem_map.mp member
      rw [selected] at nChosen
      exact persists.messages n (mem_selectBatch nChosen).1
    · intro m' member
      change m' ∈ (leaseAll _ _ _ _).outbox.rows at member
      rw [leaseAll_rows] at member
      obtain ⟨m, old, rfl⟩ := List.mem_map.mp member
      split
      · exact (inv.messages m old).same (sameDelivery_lease workerId now m)
      · exact inv.messages m old
  | @load workerId message batch loading =>
    refine inv.keep persists rfl ?_ inv.messages
    intro other changed
    obtain rfl := setWorker_moved changed
    show WorkerOk arn _ _ (Function.update w.workers other _ other)
    rw [Function.update_self]
    exact WorkerOk.load (loading ▸ inv.workers other)
  | @start workerId input message action batch workflow answer starting started =>
    rw [adapter] at started
    obtain ⟨grown, answers⟩ := start_spec contract started
    exact inv.start starting grown answers
  | @acknowledge workerId message batch delivery db' worker acknowledging done acknowledged =>
    have isAcknowledging := inv.workers workerId
    rw [acknowledging] at isAcknowledging
    refine inv.keep persists rfl ?_ (messageOk_acknowledge isAcknowledging acknowledged inv.messages)
    intro other changed
    obtain rfl := setWorker_moved changed
    show WorkerOk arn _ _ (Function.update w.workers other _ other)
    rw [Function.update_self]
    exact (isAcknowledging.acknowledged done).mono (List.Subset.refl _) persists
  | crash workerId =>
    refine inv.keep persists rfl ?_ inv.messages
    intro other changed
    obtain rfl := setWorker_moved changed
    show WorkerOk arn _ _ (Function.update w.workers other _ other)
    rw [Function.update_self]
    exact .idle none

/-! ## Delivery with the effect of exactly one start -/

structure StartedOnce (arn : StateMachineArn) (executions : List Execution) (w : World σ ω) :
    Prop where
  atMostOne : ∀ a ∈ w.store.actions.rows,
    (executions.filter fun e => e.name = executionName a.id).length ≤ 1
  owned : ∀ e ∈ executions, ∃ a ∈ w.store.actions.rows, e.name = executionName a.id
  unshared : ∀ e ∈ executions, ∀ a ∈ w.store.actions.rows, ∀ b ∈ w.store.actions.rows,
    e.name = executionName a.id → e.name = executionName b.id → a = b
  /-- Two starts return the same reference just when they are for the same action. -/
  references : ∀ id id' reference reference', (id, .ok reference) ∈ w.starts →
    (id', .ok reference') ∈ w.starts → (reference = reference' ↔ id = id')
  published : ∀ m ∈ w.store.outbox.rows, m.publishedAt.isSome →
    ∀ a ∈ w.store.actions.rows, a.id = m.aggregateId →
    ∃ e ∈ executions, e.name = executionName a.id ∧
      a.workflowExecutionArn = some (arn.execution e.name)

theorem execution_injective (arn : StateMachineArn) {name name' : String}
    (same : arn.execution name = arn.execution name') : name = name' := by
  have chars := congrArg String.toList same
  simp only [StateMachineArn.execution, String.toList_append, List.append_cancel_left_eq] at chars
  exact String.toList_inj.mp chars

theorem StartInv.startedOnce {list : List Execution} (inv : StartInv arn list w)
    (delivering : w.Delivering) : StartedOnce arn list w := by
  refine ⟨?_, inv.owned, ?_, ?_, ?_⟩
  · intro a _
    have counted : (list.filter fun e => e.name = executionName a.id).length =
        (list.map (·.name)).count (executionName a.id) := by
      rw [← List.countP_eq_length_filter, List.count, List.countP_map]
      rfl
    rw [counted]
    exact List.nodup_iff_count_le_one.mp inv.distinct _
  · intro e _ a aMember b bMember forA forB
    exact Table.eq_of_pk aMember bMember (executionName_injective (forA.symm.trans forB))
  · intro id id' reference reference' first second
    obtain ⟨rfl, _⟩ := inv.answered id reference first
    obtain ⟨rfl, _⟩ := inv.answered id' reference' second
    constructor
    · intro same
      exact executionName_injective (execution_injective arn same)
    · intro same
      rw [same]
  · intro m member published a aMember about
    obtain ⟨delivered, started⟩ := inv.messages m member published
    obtain ⟨e, eMember, named⟩ := List.mem_map.mp started
    refine ⟨e, eMember, about ▸ named, ?_⟩
    -- the reference on the action is the one its message delivered
    cases delivering.delivers.paired a aMember m member about.symm with
    | pending unpublished _ =>
      rw [unpublished] at published
      cases published
    | @published reference _ set referenced =>
      obtain ⟨result, stored, isReference⟩ := referenced
      rw [delivered] at stored
      cases stored
      have looked := workflowReference_lookup isReference
      rw [deliveryOf, List.lookup_cons_self] at looked
      rw [set, named]
      exact looked.symm

theorem workflow_startedOnce (contract : StepFunctionsContract client arn executions)
    (adapter : platform.workflow = stepFunctionsApprovalWorkflow client arn.text)
    {caseIds reviewIds : List UUID} {supplier : σ} {workflow : ω}
    (unused : executions workflow = [])
    (steps : Steps (step platform) (initial caseIds reviewIds supplier workflow) w) :
    StartedOnce arn (executions w.workflow) w := by
  have inv : StartInv arn (executions w.workflow) w := by
    refine steps.invariant (I := fun w => StartInv arn (executions w.workflow) w) ?_
      fun holds _ moved => startInv_step contract adapter holds moved
    show StartInv arn (executions workflow) _
    rw [unused]
    refine ⟨List.nodup_nil, ?_, ?_, fun _ => .idle none, ?_⟩ <;> simp [initial, Store.empty]
  exact inv.startedOnce (Reachable.invariant ⟨caseIds, reviewIds, supplier, workflow, steps⟩
    delivering_inductive)

/-! ### Redelivery after a crash, with the action approved in between -/

/-- Step Functions for one state machine: a start with the name and the input of an
    existing execution is answered, one with another input is refused. -/
def stepFunctions (arn : StateMachineArn) : StepFunctionsClient (List Execution) Unit where
  startExecution executions _ _ name input :=
    match executions.find? fun e => e.name = name with
    | none => (executions ++ [⟨name, input⟩], .ok (some (arn.execution name)))
    | some existing =>
      if existing.input = input then (executions, .ok (some (arn.execution name)))
      else (executions,
        .error (.clientError (some "ExecutionAlreadyExists") "ExecutionAlreadyExists"))

theorem stepFunctions_contract (arn : StateMachineArn) :
    StepFunctionsContract (stepFunctions arn) arn (fun executions => executions) := by
  constructor
  intro before _ name input after response called
  simp only [stepFunctions] at called
  split at called
  next absent =>
    cases called
    refine .created ?_
    simpa using absent
  next existing found =>
    have present : name ∈ before.map (·.name) := by
      have named := List.find?_some found
      exact List.mem_map.mpr ⟨existing, List.mem_of_find?_eq_some found, by simpa using named⟩
    split at called
    · cases called
      exact .answered present
    · cases called
      exact .alreadyExists present rfl

def sampleArn : StateMachineArn where
  front := "arn:aws:states:eu-west-1:123456789012"
  machine := "approvals"
  unqualified := by decide
  oneMarker := by
    intro front machine same
    have chars := congrArg String.toList same
    rw [String.toList_append, String.toList_append, String.toList_append, String.toList_append]
      at chars
    apply String.toList_inj.mp
    refine (front_eq_of_positions (n := 37) ?_ chars).trans (by decide)
    decide

theorem sampleArn_fits : Varchar 256 sampleArn.text := by
  decide

/-- A first worker starts the workflow and crashes, the action is approved, and a second
    worker delivers the message again. -/
theorem workflow_startedOnce_redelivered :
    ∃ w : World (List (UUID × ExecutionReceipt)) (List Execution),
      w.store.outbox.rows.map (·.status) = [.published] ∧ w.starts.length = 2 ∧
      w.workflow.length = 1 ∧ StartedOnce sampleArn w.workflow w := by
  let platform : Platform (List (UUID × ExecutionReceipt)) Datetime (List Execution) Unit :=
    ⟨inMemorySupplierSystem,
      stepFunctionsApprovalWorkflow (stepFunctions sampleArn) sampleArn.text, fun _ => Sample.config,
      start_fits (stepFunctions_contract sampleArn) sampleArn_fits⟩
  let life := Sample.fullLife 0 Sample.proposalA Sample.approverA
  have replayed : ((run (step platform) (initial [⟨0xa⟩] [⟨0x1a⟩] [] [])
      (life.take 3 ++ (Sample.deliver "first" 10).take 3 ++ [.crash "first"] ++
        (life.drop 3).take 3 ++ Sample.deliver "second" 130000000)).map fun w =>
      decide (w.store.outbox.rows.map (·.status) = [.published] ∧ w.starts.length = 2 ∧
        w.workflow.length = 1)) = some true := by
    decide +kernel
  obtain ⟨w, ran, passed⟩ := Option.map_eq_some_iff.mp replayed
  obtain ⟨published, starts, executions⟩ := of_decide_eq_true passed
  exact ⟨w, published, starts, executions,
    workflow_startedOnce (stepFunctions_contract sampleArn) rfl rfl (steps_of_run ran)⟩

end SupplierAssurance.World
