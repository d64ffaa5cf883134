import SupplierAssurance.Governance.AuditTrail

/-! # Concurrent executions agree on one receipt

An `execute` call has three ways to return normally: the action it read was executed
already, its own transition committed, or the transition was overtaken and the action it
read again is executed.  `Agreed` says that each of them answers with the receipt on the
row; the row keeps that receipt because no transition starts from `executed`.

The supplier system is arbitrary: it may answer each call with another receipt, or raise.
-/

namespace SupplierAssurance.Governance

open Python Lib SqlAlchemyActionRepository

/-- `a` is executed with this receipt. -/
structure ExecutedWith (rows : List GovernedAction) (id : UUID) (receipt : ExecutionReceipt)
    (a : GovernedAction) : Prop where
  member : a ∈ rows
  id : a.id = id
  status : a.status = .executed
  receipt : a.executionReceipt = some receipt

structure Agreed (rows : List GovernedAction) (calls : List InFlight) : Prop where
  receipted : ∀ a ∈ rows, a.status = .executed → ∃ receipt, a.executionReceipt = some receipt
  answers : ∀ c ∈ calls, ∀ id principal response, c.request = .execute id principal →
    c.call = .returned (.ok response) →
    ∃ receipt, response = .receipt receipt ∧ ∃ a, ExecutedWith rows id receipt a

section Steps

variable {rows rows' : List GovernedAction} {calls : List InFlight} {db : Store} {a : GovernedAction}
  {request : Request} {call call' : Call} {index : Nat}

/-- The executed rows are still there, with their receipts. -/
def KeepsReceipts (rows rows' : List GovernedAction) : Prop :=
  ∀ id receipt a, ExecutedWith rows id receipt a → ∃ a', ExecutedWith rows' id receipt a'

theorem Agreed.setRows (agreed : Agreed rows calls) (keeps : KeepsReceipts rows rows')
    (receipted : ∀ a ∈ rows', a.status = .executed → ∃ receipt, a.executionReceipt = some receipt) :
    Agreed rows' calls := by
  refine ⟨receipted, ?_⟩
  intro c member id principal response isExecute returned
  obtain ⟨receipt, same, a, executed⟩ := agreed.answers c member id principal response isExecute returned
  exact ⟨receipt, same, keeps id receipt a executed⟩

/-- Call `index` moves on to `call'`. -/
theorem Agreed.setCall (agreed : Agreed rows calls)
    (answers : ∀ id principal response, request = .execute id principal →
      call' = .returned (.ok response) →
      ∃ receipt, response = .receipt receipt ∧ ∃ a, ExecutedWith rows id receipt a) :
    Agreed rows (calls.set index ⟨request, call'⟩) := by
  refine ⟨agreed.receipted, ?_⟩
  intro c member
  rcases List.mem_or_eq_of_mem_set member with old | rfl
  · exact agreed.answers c old
  · exact answers

theorem keepsReceipts_transition {record : GovernedAction}
    (only : ∀ old ∈ rows, old.id = a.id → old = record) (notYet : record.status ≠ .executed) :
    KeepsReceipts rows (transitionRows a rows) := by
  rintro id receipt b ⟨member, rfl, executed, stored⟩
  have other : b.id ≠ a.id := fun same => notYet (only b member same ▸ executed)
  refine ⟨b, List.mem_map.mpr ⟨b, member, if_neg other⟩, rfl, executed, stored⟩

/-- An insert adds a row that is not executed. -/
theorem Agreed.insert (agreed : Agreed rows calls) (notYet : a.status ≠ .executed) :
    Agreed (rows ++ [a]) calls := by
  apply agreed.setRows
  · rintro id receipt b ⟨member, same, executed, stored⟩
    exact ⟨b, List.mem_append_left _ member, same, executed, stored⟩
  · intro b member executed
    rcases List.mem_append.mp member with old | new
    · exact agreed.receipted b old executed
    · rw [List.mem_singleton.mp new] at executed
      exact absurd executed notYet

theorem Agreed.transition {record : GovernedAction} (agreed : Agreed rows calls)
    (only : ∀ old ∈ rows, old.id = a.id → old = record) (notYet : record.status ≠ .executed)
    (receipted : a.status = .executed → ∃ receipt, a.executionReceipt = some receipt) :
    Agreed (transitionRows a rows) calls := by
  apply agreed.setRows (keepsReceipts_transition only notYet)
  intro row member executed
  rcases mem_transitionRows member with ⟨old, _, _, rfl⟩ | ⟨old, _⟩
  · exact receipted executed
  · exact agreed.receipted row old executed

theorem Agreed.of_map (agreed : Agreed rows calls) (f : GovernedAction → GovernedAction)
    (id : ∀ a, (f a).id = a.id) (status : ∀ a, (f a).status = a.status)
    (receipt : ∀ a, (f a).executionReceipt = a.executionReceipt) : Agreed (rows.map f) calls := by
  apply agreed.setRows
  · rintro _ r a ⟨member, rfl, executed, stored⟩
    exact ⟨f a, List.mem_map_of_mem member, id a, (status a).trans executed, (receipt a).trans stored⟩
  · intro a' member executed
    obtain ⟨a, old, rfl⟩ := List.mem_map.mp member
    rw [receipt]
    exact agreed.receipted a old ((status a).symm.trans executed)

/-- A read that ends an `execute` call normally found the receipt on the row. -/
theorem Settles.execute_receipt {id : UUID} {principal : Principal} {response : Response}
    (settles : Settles db call (.ok response)) (ok : CallOk db.actions.rows (.execute id principal) call) :
    call = .returned (.ok response) ∨
      ∃ receipt, response = .receipt receipt ∧ ∃ a, ExecutedWith db.actions.rows id receipt a := by
  generalize isOk : (.ok response : Except GovernanceError Response) = result at settles
  cases settles with
  | failed => cases isOk
  | looked | reloaded => cases ok
  | replayed member executed stored | overtaken member executed stored =>
    cases isOk
    cases ok
    exact .inr ⟨_, rfl, _, member, rfl, executed, stored⟩
  | again result => exact .inl rfl

/-- The step lemma: one step of a governance call. -/
theorem Agreed.advance {σ ε : Type} {system : SupplierSystem σ ε} {supplier : σ}
    {ambient : Ambient} {input : ε} {p : Progress σ} (agreed : Agreed db.actions.rows calls)
    (member : ⟨request, call⟩ ∈ calls) (ok : CallOk db.actions.rows request call)
    (advances : Advances system db supplier ambient input call p) :
    Agreed p.store.actions.rows (calls.set index ⟨request, p.call⟩) := by
  cases advances with
  | reads read =>
    apply agreed.setCall
    rintro id principal response rfl rfl
    cases read with
    | settles settles =>
      rcases settles.execute_receipt ok with rfl | found
      · exact agreed.answers _ member id principal response rfl rfl
      · exact found
  | inserts committed =>
    obtain ⟨_, _, rows, _⟩ := insertProposal_some committed
    cases ok with
    | insertProposal now prepared =>
      rw [rows]
      have pending := prepareAction_pending prepared
      apply (agreed.insert fun executed => by rw [pending] at executed; cases executed).setCall
      intro id principal response isExecute
      cases isExecute
  | decides committed =>
    obtain ⟨record, audit, found, sameId, open_, _, rfl⟩ := saveTransition_ok committed
    cases ok with
    | saveDecision verdict =>
      rw [applyTransition_rows]
      apply (agreed.transition (only_row found sameId) (by rw [open_]; decide) ?_).setCall
      · intro id principal response isExecute
        cases isExecute
      · intro executed
        rcases verdict.status with status | status <;> rw [status] at executed <;> cases executed
  | applies | applyRaises =>
    apply agreed.setCall
    intro id principal response _ returned
    cases returned
  | @executes action receipt principal _ committed =>
    -- the row was approved, so its receipt is the first one
    obtain ⟨record, audit, found, sameId, approved, _, rfl⟩ := saveTransition_ok committed
    cases ok with
    | saveExecution copy =>
      rw [applyTransition_rows]
      apply (agreed.transition (only_row found sameId) (by rw [approved]; decide)
        fun _ => ⟨receipt, rfl⟩).setCall
      rintro id principal response ⟨⟩ ⟨⟩
      exact ⟨receipt, rfl, _, List.mem_map.mpr ⟨record, found, if_pos sameId⟩, sameId, rfl, rfl⟩

end Steps

/-! ## An execution that runs alone -/

section Alone

variable {σ ε : Type} (system : SupplierSystem σ ε) {db : Store} (supplier : σ) {supplier' : σ}
  (ambient : Ambient) (input : ε) {a : GovernedAction} {principal : Principal}
  {receipt : ExecutionReceipt}

theorem requireTenant_of {tenantId : String}
    (allowed : .admin ∈ principal.roles ∨ principal.tenantId = tenantId) :
    requireTenant principal tenantId = .ok () := by
  unfold requireTenant
  rcases allowed with admin | own <;> simp [*]

theorem get_of_mem (member : a ∈ db.actions.rows) :
    SqlAlchemyActionRepository.get db a.id = .ok a := by
  unfold SqlAlchemyActionRepository.get
  rw [Table.find?_eq_some.mpr ⟨member, rfl⟩]

theorem Call.advance_load_executed (member : a ∈ db.actions.rows) (executed : a.status = .executed)
    (stored : a.executionReceipt = some receipt)
    (allowed : .admin ∈ principal.roles ∨ principal.tenantId = a.tenantId) :
    (Call.loadToExecute a.id principal).advance system db supplier ambient input =
      ⟨db, supplier, .returned (.ok (.receipt receipt)), []⟩ := by
  simp [Call.advance, get_of_mem member, planExecution, requireTenant_of allowed, executed, stored,
    bind, Except.bind, pure, Except.pure]

theorem Call.advance_load_approved (member : a ∈ db.actions.rows) (approved : a.status = .approved)
    (allowed : .admin ∈ principal.roles ∨ principal.tenantId = a.tenantId) :
    (Call.loadToExecute a.id principal).advance system db supplier ambient input =
      ⟨db, supplier, .applyDecision a principal, []⟩ := by
  simp [Call.advance, get_of_mem member, planExecution, requireTenant_of allowed, approved,
    bind, Except.bind, pure, Except.pure]

variable {system supplier input} in
theorem Call.advance_apply (db : Store) (principal : Principal)
    (answered : system.setOnboardingDecision supplier input a.id a.idempotencyKey a.arguments =
      (supplier', .ok receipt)) :
    (Call.applyDecision a principal).advance system db supplier ambient input =
      ⟨db, supplier', .saveExecution a receipt principal,
        [.applied a.id a.idempotencyKey a.arguments]⟩ := by
  simp [Call.advance, answered]

variable {ambient} in
/-- The transition commits: the row is approved still and the new audit event is fresh. -/
theorem Call.advance_save (principal : Principal) (receipt : ExecutionReceipt)
    (member : a ∈ db.actions.rows) (approved : a.status = .approved)
    (stored : a.caseId ∈ db.caseIds) (fresh : ∀ e ∈ db.audit.rows, e.id ≠ ambient.uuid) :
    ∃ db', (Call.saveExecution a receipt principal).advance system db supplier ambient input =
      ⟨db', supplier, .returned (.ok (.receipt receipt)), []⟩ ∧
      db'.actions.rows = transitionRows (executedAction a receipt) db.actions.rows := by
  have inserted : (db.audit.insert? (auditRecord (executedEvent (executedAction a receipt) receipt
      principal) ambient.uuid ambient.now)).isSome = true :=
    db.audit.insert?_isSome fresh fresh
  obtain ⟨audit, inserted⟩ := Option.isSome_iff_exists.mp inserted
  have found : db.actions.find? (executedAction a receipt).id = some a :=
    Table.find?_eq_some.mpr ⟨member, rfl⟩
  have ownCase : (executedEvent (executedAction a receipt) receipt principal).caseId ∈ db.caseIds :=
    stored
  have taken : ¬ RefusesComment (executedAction a receipt) a := fun refused => refused.1 rfl
  refine ⟨applyTransition db (executedAction a receipt) audit, ?_, applyTransition_rows⟩
  simp [Call.advance, saveTransition, found, approved, taken, ownCase, inserted]

end Alone

end SupplierAssurance.Governance

/-! ## Runs -/

namespace SupplierAssurance.World

open Python Lib Governance Outbox SqlAlchemyActionRepository SqlAlchemyOutboxRepository

variable {σ ε ω φ : Type} {platform : Platform σ ε ω φ} {w w' : World σ ω}

structure Executing (w : World σ ω) : Prop where
  governed : w.Governed
  trailed : w.Trailed
  agreed : Agreed w.store.actions.rows w.calls

theorem agreed_step {label : Label ε φ} (governed : w.Governed)
    (agreed : Agreed w.store.actions.rows w.calls) (moved : step platform w label = some w') :
    Agreed w'.store.actions.rows w'.calls := by
  cases step_moves moved with
  | submit request now =>
    refine ⟨agreed.receipted, ?_⟩
    intro c member
    rcases List.mem_append.mp member with old | new
    · exact agreed.answers c old
    · rw [List.mem_singleton.mp new]
      rintro id principal response rfl entered
      simp only [Call.enter] at entered
      split at entered <;> simp at entered
  | advance at_ advances =>
    have member := List.mem_of_getElem? at_
    exact agreed.advance member (governed.callsOk _ member) advances
  | acknowledge _ _ acknowledged =>
    cases acknowledged with
    | unchanged | failed => exact agreed
    | published =>
      show Agreed (Table.rows _) _
      rw [publish_actions]
      apply agreed.of_map <;> intro a <;> split <;> rfl
  | claim | load | start | crash | storeCase | storeReview => exact agreed

theorem executing_inductive : Inductive platform (@Executing σ ω) where
  initial _ _ _ _ := ⟨Governance.Governed.nil, ⟨Audited.nil, by simp [initial, Store.empty]⟩,
    by simp [initial, Store.empty], by simp [initial]⟩
  keep holds moved := ⟨governed_step holds.governed moved,
    trailed_step holds.governed holds.trailed moved, agreed_step holds.governed holds.agreed moved⟩

/-- The run of a new `execute` call alone: it is submitted and takes its three steps. -/
def aloneTrace (w : World σ ω) (id : UUID) (principal : Principal) (now : Datetime)
    (ambients : Ambient × Ambient × Ambient) (inputs : ε × ε × ε) : List (Label ε φ) :=
  [.submit (.execute id principal) now,
    .advance w.calls.length ambients.1 inputs.1,
    .advance w.calls.length ambients.2.1 inputs.2.1,
    .advance w.calls.length ambients.2.2 inputs.2.2]

/-- A new `execute` call of the action, by a principal that may execute it, succeeds when it
    runs alone, the supplier system answers and the identifier drawn for its audit event is
    fresh. -/
def StillExecutable (platform : Platform σ ε ω φ) (w : World σ ω) (a : GovernedAction) : Prop :=
  ∀ (principal : Principal), principal.hasRole .executor = true →
  (.admin ∈ principal.roles ∨ principal.tenantId = a.tenantId) →
  ∀ (now : Datetime) (ambients : Ambient × Ambient × Ambient) (inputs : ε × ε × ε)
    (supplier' : σ) (receipt : ExecutionReceipt),
  platform.supplier.setOnboardingDecision w.supplier inputs.2.1 a.id a.idempotencyKey a.arguments =
    (supplier', .ok receipt) →
  (∀ e ∈ w.store.audit.rows, e.id ≠ ambients.2.2.uuid) →
  ∃ w' receipt' row,
    run (step platform) w (aloneTrace w a.id principal now ambients inputs) = some w' ∧
    w'.calls[w.calls.length]? =
      some ⟨.execute a.id principal, .returned (.ok (.receipt receipt'))⟩ ∧
    ExecutedWith w'.store.actions.rows a.id receipt' row

theorem enter_execute {id : UUID} {principal : Principal} (now : Datetime)
    (role : principal.hasRole .executor = true) :
    Call.enter now (.execute id principal) = .loadToExecute id principal := by
  simp [Call.enter, requireRole, role]

/-- Running a new call alone is running its steps one after the other. -/
theorem run_alone {id : UUID} {principal : Principal} {now : Datetime}
    {ambients : Ambient × Ambient × Ambient} {inputs : ε × ε × ε} {first second third : Progress σ}
    (load : (Call.enter now (.execute id principal)).advance platform.supplier w.store w.supplier
      ambients.1 inputs.1 = first)
    (apply_ : first.call.advance platform.supplier first.store first.supplier
      ambients.2.1 inputs.2.1 = second)
    (save : second.call.advance platform.supplier second.store second.supplier
      ambients.2.2 inputs.2.2 = third) :
    ∃ w', run (step platform) w (aloneTrace w id principal now ambients inputs) = some w' ∧
      w'.store = third.store ∧
      w'.calls[w.calls.length]? = some ⟨.execute id principal, third.call⟩ := by
  subst load apply_ save
  simp [aloneTrace, run, step, progressed]

theorem stillExecutable {a : GovernedAction} (executing : w.Executing)
    (member : a ∈ w.store.actions.rows) (past : PastApproval a.status) :
    StillExecutable platform w a := by
  intro principal role allowed now ambients inputs supplier' receipt answered fresh
  rcases past with approved | executed
  · have load := Call.advance_load_approved platform.supplier w.supplier ambients.1 inputs.1 member
      approved allowed
    have apply_ := Call.advance_apply ambients.2.1 w.store principal answered
    obtain ⟨db', save, rows⟩ := Call.advance_save platform.supplier supplier' inputs.2.2 principal
      receipt member approved (executing.trailed.stored a member) fresh
    rw [← enter_execute now role] at load
    obtain ⟨w', ran, store, answer⟩ := run_alone (φ := φ) load apply_ save
    refine ⟨w', receipt, assignTransition (executedAction a receipt) a, ran, answer, ?_, rfl, rfl, rfl⟩
    rw [store, rows]
    exact List.mem_map.mpr ⟨a, member, if_pos rfl⟩
  · obtain ⟨receipt', stored⟩ := executing.agreed.receipted a member executed
    have load := Call.advance_load_executed platform.supplier w.supplier ambients.1 inputs.1 member
      executed stored allowed
    rw [← enter_execute now role] at load
    obtain ⟨w', ran, store, answer⟩ := run_alone (φ := φ) load rfl rfl
    exact ⟨w', receipt', a, ran, answer, by rw [store]; exact member, rfl, executed, stored⟩

/-- The `action.executed` events that name an action. -/
def executedEvents (audit : List AuditEvent) (id : UUID) : List AuditEvent :=
  audit.filter fun e => e.eventType == "action.executed" && namesAction id e.toAuditEventCreate

theorem executedEvents_eq (audit : List AuditEvent) (id : UUID) :
    executedEvents audit id =
      (actionHistory audit id).filter fun e => e.eventType == "action.executed" := by
  unfold executedEvents actionHistory
  rw [List.filter_filter]
  apply List.filter_congr
  intro e _
  by_cases executed : e.eventType = "action.executed"
  · have kind : isActionEvent e.toAuditEventCreate = true :=
      isActionEvent_append "executed" (executed.trans (by decide))
    rw [concerns, kind, Bool.true_and]
  · have different : (e.eventType == "action.executed") = false := beq_eq_false_iff_ne.mpr executed
    rw [different, Bool.false_and, Bool.false_and]

theorem length_executedEvents {a : GovernedAction} {audit : List AuditEvent}
    (path : AuditPath a (actionHistory audit a.id)) :
    (executedEvents audit a.id).length = if a.status = .executed then 1 else 0 := by
  rw [executedEvents_eq]
  generalize actionHistory audit a.id = history at path
  cases path with
  | proposed status p => simp [status, p.eventType]
  | approved status p d | rejected status p d => simp [status, p.eventType, d.eventType]
  | executed status p d x => simp [status, p.eventType, d.eventType, x.eventType]

/-- What concurrent executions of an action agree on. -/
structure ReceiptsAgree (platform : Platform σ ε ω φ) (w : World σ ω) : Prop where
  stored : ∀ c ∈ w.calls, ∀ id principal response, c.request = .execute id principal →
    c.call = .returned (.ok response) →
    ∃ receipt, response = .receipt receipt ∧ ∃ a, ExecutedWith w.store.actions.rows id receipt a
  same : ∀ c ∈ w.calls, ∀ c' ∈ w.calls, ∀ id principal principal' response response',
    c.request = .execute id principal → c'.request = .execute id principal' →
    c.call = .returned (.ok response) → c'.call = .returned (.ok response') → response = response'
  logged : ∀ a ∈ w.store.actions.rows,
    (executedEvents w.store.audit.rows a.id).length = if a.status = .executed then 1 else 0
  loads : ∀ index c id principal ambient input w', w.calls[index]? = some c →
    c.call = .loadToExecute id principal →
    step platform w (.advance index ambient input) = some w' → w'.store = w.store
  raises : ∀ index c action principal ambient input supplier' detail, w.calls[index]? = some c →
    c.call = .applyDecision action principal →
    platform.supplier.setOnboardingDecision w.supplier input action.id action.idempotencyKey
      action.arguments = (supplier', .error detail) →
    ∃ w' a, step platform w (.advance index ambient input) = some w' ∧ w'.store = w.store ∧
      w'.calls[index]? = some ⟨c.request, .returned (.error (.supplierError detail))⟩ ∧
      a ∈ w'.store.actions.rows ∧ a.id = action.id ∧ StillExecutable platform w' a

theorem step_load_store {index : Nat} {request : Request} {id : UUID} {principal : Principal}
    {ambient : Ambient} {input : ε} (at_ : w.calls[index]? = some ⟨request, .loadToExecute id principal⟩)
    (moved : step platform w (.advance index ambient input) = some w') : w'.store = w.store := by
  cases step_moves moved with
  | advance at' advances =>
    cases at_.symm.trans at'
    cases advances
    rfl

/-- The step in which the supplier system raises. -/
theorem step_raises {index : Nat} {request : Request} {action : GovernedAction}
    {principal : Principal} (ambient : Ambient) {input : ε} {supplier' : σ} {detail : String}
    (at_ : w.calls[index]? = some ⟨request, .applyDecision action principal⟩)
    (raised : platform.supplier.setOnboardingDecision w.supplier input action.id
      action.idempotencyKey action.arguments = (supplier', .error detail)) :
    ∃ w', step platform w (.advance index ambient input) = some w' ∧ w'.store = w.store ∧
      w'.calls[index]? = some ⟨request, .returned (.error (.supplierError detail))⟩ := by
  obtain ⟨w', moved, store, answer⟩ := step_advance platform at_ ambient input
  have advanced : (Call.applyDecision action principal).advance platform.supplier w.store w.supplier
      ambient input = ⟨w.store, supplier', .returned (.error (.supplierError detail)),
        [.applied action.id action.idempotencyKey action.arguments]⟩ := by
    simp [Call.advance, raised]
  rw [advanced] at store answer
  exact ⟨w', moved, store, answer⟩

theorem Executing.receiptsAgree (executing : w.Executing) : ReceiptsAgree platform w where
  stored := executing.agreed.answers
  same := by
    intro c member c' member' id principal principal' response response' asks asks' returned returned'
    obtain ⟨receipt, rfl, a, executed⟩ :=
      executing.agreed.answers c member id principal response asks returned
    obtain ⟨receipt', rfl, a', executed'⟩ :=
      executing.agreed.answers c' member' id principal' response' asks' returned'
    have row := Table.eq_of_pk executed.member executed'.member (executed.id.trans executed'.id.symm)
    subst row
    cases executed.receipt.symm.trans executed'.receipt
    rfl
  logged a member := length_executedEvents (executing.trailed.audited.path a member)
  loads := by
    rintro index ⟨request, call⟩ id principal ambient input w' at_ rfl moved
    exact step_load_store at_ moved
  raises := by
    rintro index ⟨request, call⟩ action principal ambient input supplier' detail at_ rfl raised
    obtain ⟨w', moved, store, answer⟩ := step_raises ambient at_ raised
    have ok := executing.governed.callsOk _ (List.mem_of_getElem? at_)
    cases ok with
    | applyDecision copy =>
      obtain ⟨b, member, identity, past, _⟩ := copy.row
      have kept : b ∈ w'.store.actions.rows := store.symm ▸ member
      exact ⟨w', b, moved, store, answer, kept, congrArg ActionIdentity.id identity,
        stillExecutable (executing_inductive.keep executing moved) kept past⟩

theorem reachable_receiptsAgree (reachable : Reachable platform w) : ReceiptsAgree platform w :=
  (reachable.invariant executing_inductive).receiptsAgree

end SupplierAssurance.World

/-! ## Two racing executions -/

namespace SupplierAssurance.Sample

open Python Lib Governance

/-- A supplier system that stamps each call with its own time, or raises. -/
def stampingSystem : SupplierSystem Unit (Option Datetime) where
  setOnboardingDecision _ input actionId _ arguments :=
    match input with
    | none => ((), .error "timeout")
    | some now =>
      ((), .ok ⟨actionId, "supplier-system://decisions/" ++ actionId.str, arguments.decision, now,
        externalReference_bounded actionId⟩)

def stampingPlatform : Platform Unit (Option Datetime) Unit Unit where
  supplier := stampingSystem
  workflow := Workflows.localApprovalWorkflow
  config _ := config
  references_fit := Workflows.localApprovalWorkflow_fits

/-- One call meets a timeout; two others both reach the supplier system, and the slower one
    is overtaken. -/
def racingExecutions : List (Label (Option Datetime) Unit) :=
  let id := actionIdFor analystA.tenantId ⟨0xc⟩
  [.submit (.propose proposalA) 1, .advance 0 (ambient 2 0) none, .advance 0 (ambient 3 1) none,
    .submit (.decide id approval approverA) 4, .advance 1 (ambient 5 2) none,
    .advance 1 (ambient 6 3) none,
    .submit (.execute id executor) 7, .advance 2 (ambient 8 4) none, .advance 2 (ambient 9 5) none,
    .submit (.execute id executor) 10, .submit (.execute id executor) 10,
    .advance 3 (ambient 11 6) none, .advance 4 (ambient 12 7) none,
    .advance 3 (ambient 13 8) (some 13), .advance 4 (ambient 14 9) (some 14),
    .advance 4 (ambient 15 10) none, .advance 3 (ambient 16 11) none, .advance 3 (ambient 17 12) none]

def receiptTime (c : InFlight) : Option Datetime :=
  match c.call with
  | .returned (.ok (.receipt receipt)) => some receipt.executedAt
  | _ => none

end SupplierAssurance.Sample

namespace SupplierAssurance.World

open Python Lib Governance

theorem reachable_receiptsAgree_racing :
    ∃ w, Reachable Sample.stampingPlatform w ∧ w.calls.filterMap Sample.receiptTime = [14, 14] ∧
      ReceiptsAgree Sample.stampingPlatform w := by
  have replayed : (run (step Sample.stampingPlatform) (initial [⟨0xa⟩] [⟨0x1a⟩] () ())
      Sample.racingExecutions).map
        (fun w => decide (w.calls.filterMap Sample.receiptTime = [14, 14])) = some true := by
    decide +kernel
  obtain ⟨w, reachable, passed⟩ := reachable_of_run replayed
  exact ⟨w, reachable, of_decide_eq_true passed, reachable_receiptsAgree reachable⟩

end SupplierAssurance.World
