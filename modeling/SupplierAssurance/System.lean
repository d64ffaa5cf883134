import Mathlib.Logic.Function.Basic
import SupplierAssurance.Governance.Service
import SupplierAssurance.Lib.Transition
import SupplierAssurance.Outbox.Dispatcher
import SupplierAssurance.Workflows.Approvals

/-! # The governed-action system

Any number of governance calls and outbox workers over one database, one supplier system
and one approval workflow.  A step of the `World` is one transaction or one external call
of one party, so runs are exactly the interleavings at transaction granularity.  A call
that stops for good is one that takes no further step; a worker may crash at any point.

`history`, `leases` and `starts` record what happened and are read by no step: the
committed decisions and the calls of the supplier system with the index of the governance
call they belong to, the claims and effective acknowledgements of outbox messages, and
the calls of the approval workflow with their answers.
-/

namespace SupplierAssurance

open Python Lib Governance Outbox SqlAlchemyOutboxRepository Workflows

structure Platform (σ ε ω φ : Type) where
  supplier : SupplierSystem σ ε
  workflow : ApprovalWorkflow ω φ
  config : String → DispatcherConfig
  /-- The references of the workflow fit the column that they are stored in. -/
  references_fit : ∀ service input action reference,
    (workflow.start service input action).2 = .ok reference → Varchar 2048 reference

structure InFlight where
  request : Request
  call : Call

inductive LeaseEvent where
  | claimed (workerId : String) (messageId : UUID)
  | failed (workerId : String) (messageId : UUID)
  | published (workerId : String) (messageId : UUID)
deriving DecidableEq

structure World (σ ω : Type) where
  store : Store
  calls : List InFlight
  workers : String → Worker
  supplier : σ
  workflow : ω
  history : List (Nat × Event)
  leases : List LeaseEvent
  starts : List (UUID × Except String String)

inductive Label (ε φ : Type) where
  | submit (request : Request) (now : Datetime)
  | advance (index : Nat) (ambient : Ambient) (input : ε)
  | claim (workerId : String) (now : Datetime) (scan : Scan)
  | load (workerId : String)
  | start (workerId : String) (input : φ)
  | acknowledge (workerId : String)
  | crash (workerId : String)
  | storeCase (caseId : UUID)
  | storeReview (reviewId : UUID)

namespace World

variable {σ ε ω φ : Type} (platform : Platform σ ε ω φ)

/-- The effective acknowledgement that took `db` to `db'`, if the message's row changed. -/
def ackEvents (db db' : Store) (workerId : String) (messageId : UUID)
    (delivery : Except String (List (String × String))) : List LeaseEvent :=
  if db'.outbox.find? messageId = db.outbox.find? messageId then []
  else
    match delivery with
    | .ok _ => [.published workerId messageId]
    | .error _ => [.failed workerId messageId]

def setWorker (w : World σ ω) (workerId : String) (worker : Worker) : World σ ω :=
  { w with workers := Function.update w.workers workerId worker }

/-- Call `index` made progress. -/
def progressed (w : World σ ω) (index : Nat) (request : Request) (p : Progress σ) : World σ ω :=
  { w with
    store := p.store
    supplier := p.supplier
    calls := w.calls.set index ⟨request, p.call⟩
    history := w.history ++ p.events.map fun e => (index, e) }

def step (w : World σ ω) : Label ε φ → Option (World σ ω)
  | .submit request now => some { w with calls := w.calls ++ [⟨request, .enter now request⟩] }
  | .advance index ambient input =>
    match w.calls[index]? with
    | none => none
    | some c =>
      some (w.progressed index c.request
        (c.call.advance platform.supplier w.store w.supplier ambient input))
  | .claim workerId now scan =>
    match w.workers workerId with
    | .idle _ =>
      let config := platform.config workerId
      let (db', worker) := Worker.claim workerId config w.store now scan
      let chosen := selectBatch w.store config.batchSize
        config.lockTimeout now scan
      some { w.setWorker workerId worker with
        store := db'
        leases := w.leases ++ chosen.map fun m => .claimed workerId m.id }
    | _ => none
  | .load workerId =>
    match w.workers workerId with
    | .loading message batch => some (w.setWorker workerId (.load w.store message batch))
    | _ => none
  | .start workerId input =>
    match w.workers workerId with
    | .starting message action batch =>
      let (workflow, answer) := platform.workflow.start w.workflow input action
      some { w.setWorker workerId (.started message batch answer) with
        workflow := workflow
        starts := w.starts ++ [(action.id, answer)] }
    | _ => none
  | .acknowledge workerId =>
    match w.workers workerId with
    | .acknowledging message delivery batch =>
      let (db', worker) :=
        Worker.acknowledge workerId (platform.config workerId) w.store message delivery batch
      some { w.setWorker workerId worker with
        store := db'
        leases := w.leases ++ ackEvents w.store db' workerId message.id delivery }
    | _ => none
  | .crash workerId => some (w.setWorker workerId (.idle none))
  | .storeCase caseId =>
    some { w with store := { w.store with caseIds := caseId :: w.store.caseIds } }
  | .storeReview reviewId =>
    some { w with store := { w.store with reviewIds := reviewId :: w.store.reviewIds } }

/-- A step of the world with what it found on the way.  Every invariant is proved by cases
    on this relation. -/
inductive Moves (w : World σ ω) : Label ε φ → World σ ω → Prop
  | submit (request : Request) (now : Datetime) :
      Moves w (.submit request now) { w with calls := w.calls ++ [⟨request, .enter now request⟩] }
  | advance {index : Nat} {ambient : Ambient} {input : ε} {c : InFlight} {p : Progress σ} :
      w.calls[index]? = some c →
      Advances platform.supplier w.store w.supplier ambient input c.call p →
      Moves w (.advance index ambient input) (w.progressed index c.request p)
  | claim {workerId : String} {now : Datetime} {scan : Scan}
      {last : Option (Except OutboxError OutboxDispatchResult)} {chosen : List OutboxMessage} :
      w.workers workerId = .idle last →
      chosen = selectBatch w.store (platform.config workerId).batchSize
        (platform.config workerId).lockTimeout now scan →
      Moves w (.claim workerId now scan)
        { w.setWorker workerId (.next ⟨now, chosen.map (lease workerId now),
            ⟨(chosen.map (lease workerId now)).length, 0, 0, 0⟩⟩) with
          store := leaseAll w.store workerId now (chosen.map (·.id))
          leases := w.leases ++ chosen.map fun m => .claimed workerId m.id }
  | load {workerId : String} {message : OutboxMessage} {batch : Batch} :
      w.workers workerId = .loading message batch →
      Moves w (.load workerId) (w.setWorker workerId (.load w.store message batch))
  | start {workerId : String} {input : φ} {message : OutboxMessage} {action : GovernedAction}
      {batch : Batch} {workflow : ω} {answer : Except String String} :
      w.workers workerId = .starting message action batch →
      platform.workflow.start w.workflow input action = (workflow, answer) →
      Moves w (.start workerId input)
        { w.setWorker workerId (.started message batch answer) with
          workflow := workflow
          starts := w.starts ++ [(action.id, answer)] }
  | acknowledge {workerId : String} {message : OutboxMessage} {batch : Batch}
      {delivery : Except String (List (String × String))} {db' : Store} {worker : Worker} :
      w.workers workerId = .acknowledging message delivery batch →
      Worker.acknowledge workerId (platform.config workerId) w.store message delivery batch =
        (db', worker) →
      Acknowledged workerId (platform.config workerId) w.store message delivery batch db' →
      Moves w (.acknowledge workerId)
        { w.setWorker workerId worker with
          store := db'
          leases := w.leases ++ ackEvents w.store db' workerId message.id delivery }
  | crash (workerId : String) : Moves w (.crash workerId) (w.setWorker workerId (.idle none))
  | storeCase (caseId : UUID) : Moves w (.storeCase caseId)
      { w with store := { w.store with caseIds := caseId :: w.store.caseIds } }
  | storeReview (reviewId : UUID) : Moves w (.storeReview reviewId)
      { w with store := { w.store with reviewIds := reviewId :: w.store.reviewIds } }

variable {platform} in
theorem step_moves {w w' : World σ ω} {label : Label ε φ}
    (moved : step platform w label = some w') : Moves platform w label w' := by
  cases label with
  | submit request now =>
    cases moved
    exact .submit request now
  | advance index ambient input =>
    simp only [step] at moved
    split at moved
    · cases moved
    next c at_ =>
      cases moved
      exact .advance at_ (Call.advance_cases ..)
  | claim workerId now scan =>
    simp only [step] at moved
    split at moved
    next idle =>
      cases moved
      exact .claim idle rfl
    next => cases moved
  | load workerId =>
    simp only [step] at moved
    split at moved
    next loading =>
      cases moved
      exact .load loading
    next => cases moved
  | start workerId input =>
    simp only [step] at moved
    split at moved
    next starting =>
      cases moved
      exact .start starting rfl
    next => cases moved
  | acknowledge workerId =>
    simp only [step] at moved
    split at moved
    next acknowledging =>
      cases moved
      exact .acknowledge acknowledging rfl (Worker.acknowledge_cases ..)
    next => cases moved
  | crash workerId =>
    cases moved
    exact .crash workerId
  | storeCase caseId =>
    cases moved
    exact .storeCase caseId
  | storeReview reviewId =>
    cases moved
    exact .storeReview reviewId

/-- A call in flight can always take its next step. -/
theorem step_advance {w : World σ ω} {index : Nat} {request : Request} {call : Call}
    (at_ : w.calls[index]? = some ⟨request, call⟩) (ambient : Ambient) (input : ε) :
    ∃ w', step platform w (.advance index ambient input) = some w' ∧
      w'.store = (call.advance platform.supplier w.store w.supplier ambient input).store ∧
      w'.calls[index]? =
        some ⟨request, (call.advance platform.supplier w.store w.supplier ambient input).call⟩ := by
  refine ⟨w.progressed index request (call.advance platform.supplier w.store w.supplier ambient input),
    by simp only [step, at_], rfl, ?_⟩
  exact List.getElem?_set_self (List.getElem?_eq_some_iff.mp at_).1

/-- No action, message or call yet; cases and reviews may be stored already. -/
def initial (caseIds reviewIds : List UUID) (supplier : σ) (workflow : ω) : World σ ω where
  store := .empty caseIds reviewIds
  calls := []
  workers := fun _ => .idle none
  supplier := supplier
  workflow := workflow
  history := []
  leases := []
  starts := []

/-- The worlds that some run from an empty store reaches. -/
def Reachable (w : World σ ω) : Prop :=
  ∃ caseIds reviewIds supplier workflow,
    Steps (step platform) (initial caseIds reviewIds supplier workflow) w

/-- An invariant: it holds of every initial world and every step keeps it. -/
structure Inductive (I : World σ ω → Prop) : Prop where
  initial : ∀ caseIds reviewIds supplier workflow,
    I (World.initial caseIds reviewIds supplier workflow)
  keep : ∀ {w w' : World σ ω} {label : Label ε φ}, I w → step platform w label = some w' → I w'

variable {platform}

theorem Reachable.invariant {I : World σ ω → Prop} {w : World σ ω}
    (reachable : Reachable platform w) (inductive_ : Inductive platform I) : I w := by
  obtain ⟨caseIds, reviewIds, supplier, workflow, steps⟩ := reachable
  exact steps.invariant (inductive_.initial caseIds reviewIds supplier workflow)
    fun holds _ moved => inductive_.keep holds moved

theorem Reachable.step {w w' : World σ ω} {label : Label ε φ} (reachable : Reachable platform w)
    (moved : World.step platform w label = some w') : Reachable platform w' := by
  obtain ⟨caseIds, reviewIds, supplier, workflow, steps⟩ := reachable
  exact ⟨caseIds, reviewIds, supplier, workflow, steps.snoc moved⟩

/-- A trace that can be replayed from an initial world ends in a reachable one. -/
theorem reachable_of_run {caseIds reviewIds : List UUID} {supplier : σ} {workflow : ω}
    {trace : List (Label ε φ)} {test : World σ ω → Bool}
    (replayed : ((run (World.step platform) (initial caseIds reviewIds supplier workflow) trace).map
      test) = some true) :
    ∃ w, Reachable platform w ∧ test w = true := by
  obtain ⟨w, ran, passed⟩ := Option.map_eq_some_iff.mp replayed
  exact ⟨w, ⟨caseIds, reviewIds, supplier, workflow, steps_of_run ran⟩, passed⟩

end World

/-! ## A concrete deployment

Two tenants with one reviewed case each, for replaying traces. -/

namespace Sample

def supplierCase (id : UUID) (tenantId : String) (bounded : Bounded 1 255 tenantId) : SupplierCase where
  id := id
  tenantId := tenantId
  supplierName := "Acme"
  description := ""
  status := .pendingApproval
  documents := []
  createdAt := 0
  updatedAt := 0
  tenantId_bounded := bounded

def caseA : SupplierCase := supplierCase ⟨0xa⟩ "tenant-a" sampleTenant_bounded
def caseB : SupplierCase := supplierCase ⟨0xb⟩ "tenant-b" (by decide)

def reviewOf (supplierCase : SupplierCase) (reviewId : UUID) (decision : Decision) : ReviewResult where
  reviewId := reviewId
  caseId := supplierCase.id
  findings := []
  recommendation := ⟨decision, "No finding.", [], 1, certain_range⟩
  modelBackend := "deterministic"
  startedAt := 0
  completedAt := 1

def reviewA : ReviewResult := reviewOf caseA ⟨0x1a⟩ .approve
def reviewB : ReviewResult := reviewOf caseB ⟨0x1b⟩ .reject

def analystA : Principal := ⟨"ana", "tenant-a", [.analyst], sampleAnalyst_bounded, sampleTenant_bounded⟩
def analystB : Principal := ⟨"bob", "tenant-b", [.analyst], by decide, by decide⟩
def approverA : Principal := ⟨"ada", "tenant-a", [.approver], by decide, sampleTenant_bounded⟩
def approverB : Principal := ⟨"bea", "tenant-b", [.approver], by decide, by decide⟩
def admin : Principal := ⟨"root", "tenant-a", [.admin], by decide, sampleTenant_bounded⟩

def approval : ApprovalRequest := ⟨.approve, "", by decide⟩

/-- `service:mcp-supplier-executor`. -/
def executor : Principal :=
  ⟨"service:mcp-supplier-executor", "service", [.admin, .executor], by decide, by decide⟩

def ambient (now : Datetime) (n : Nat) : Ambient :=
  ⟨now, ⟨BitVec.ofNat 128 (2 * n)⟩, ⟨BitVec.ofNat 128 (2 * n + 1)⟩⟩

def config : DispatcherConfig where
  batchSize := 20
  lockTimeout := 120000000
  maxAttempts := 2
  retryBase := 2000000
  retryMax := 300000000

def platform : Platform (List (UUID × ExecutionReceipt)) Datetime Unit Unit where
  supplier := inMemorySupplierSystem
  workflow := localApprovalWorkflow
  config _ := config
  references_fit := localApprovalWorkflow_fits

/-- Propose, approve and execute an action, one call after the other. -/
def fullLife (index : Nat) (r : ProposeRequest) (approver : Principal) : List (Label Datetime Unit) :=
  let id := actionIdFor r.principal.tenantId r.request.idempotencyKey
  [.submit (.propose r) 1, .advance index (ambient 2 (6 * index)) 0,
    .advance index (ambient 3 (6 * index + 1)) 0,
    .submit (.decide id approval approver) 4, .advance (index + 1) (ambient 5 (6 * index + 2)) 0,
    .advance (index + 1) (ambient 6 (6 * index + 3)) 0,
    .submit (.execute id executor) 7, .advance (index + 2) (ambient 8 (6 * index + 4)) 0,
    .advance (index + 2) (ambient 9 (6 * index + 4)) 9,
    .advance (index + 2) (ambient 10 (6 * index + 5)) 0]

/-- One poll of a worker that finds one message. -/
def deliver (workerId : String) (now : Datetime) : List (Label Datetime Unit) :=
  [.claim workerId now ⟨[], fun _ => 0⟩, .load workerId, .start workerId (), .acknowledge workerId]

def proposalA : ProposeRequest := ⟨caseA, reviewA, ⟨⟨0xc⟩⟩, analystA⟩
def proposalB : ProposeRequest := ⟨caseB, reviewB, ⟨⟨0xc⟩⟩, analystB⟩

end Sample

end SupplierAssurance
