import SupplierAssurance.Governance.InMemory
import SupplierAssurance.Lib.Transition
import SupplierAssurance.System

/-! # `GovernanceService` over the in-memory repository

Any number of propose, decide and execute calls, interleaved at their awaits.  The writers
of the repository hold its lock from the check until the audit writer has answered, and an
exception of the audit writer undoes the write; `get` takes no lock.  So a `get` may return
a state whose audit event is still being written.

The approval workflow, the supplier system and the audit writer answer as they like: a
`Reply` holds the answers for one step.
-/

namespace SupplierAssurance.Governance

open Python Lib

/-- The await at which a call stands. -/
inductive Task where
  | startingWorkflow (action : GovernedAction)
  | creating (action : GovernedAction)
  | auditingProposal (action : GovernedAction)
  | loadToDecide (actionId : UUID) (request : ApprovalRequest) (principal : Principal)
  | savingDecision (decided : GovernedAction)
  | auditingDecision (decided current : GovernedAction)
  | loadToExecute (actionId : UUID) (principal : Principal)
  | applying (action : GovernedAction)
  | savingExecution (action : GovernedAction) (receipt : ExecutionReceipt)
  | auditingExecution (executed current : GovernedAction) (receipt : ExecutionReceipt)
  | reloadExecution (actionId : UUID) (conflict : String)
  | returned (result : Except GovernanceError Response)

namespace Task

/-- The part of a call before its first await. -/
def enter (now : Datetime) : Request → Task
  | .propose r =>
    match prepareAction r now with
    | .error e => .returned (.error e)
    | .ok action => .startingWorkflow action
  | .decide actionId request principal =>
    match requireRole principal .approver with
    | .error e => .returned (.error e)
    | .ok () => .loadToDecide actionId request principal
  | .execute actionId principal =>
    match requireRole principal .executor with
    | .error e => .returned (.error e)
    | .ok () => .loadToExecute actionId principal

/-- The action whose write waits for its audit event; the call holds the lock. -/
def writing : Task → Option UUID
  | .auditingProposal action => some action.id
  | .auditingDecision decided _ => some decided.id
  | .auditingExecution executed _ _ => some executed.id
  | _ => none

/-- The action that the next step gets. -/
def getting : Task → Option UUID
  | .loadToDecide actionId .. | .loadToExecute actionId _ | .reloadExecution actionId _ => some actionId
  | _ => none

/-- The action for which the next step calls `set_onboarding_decision`. -/
def applies : Task → Option UUID
  | .applying action => some action.id
  | _ => none

end Task

structure Reply where
  now : Datetime
  workflow : Except String String
  /-- `none` is a normal return. -/
  audit : Option String
  supplier : Except String ExecutionReceipt

/-- The next await of a call; `none` when it waits for the lock. -/
def Task.advance (repo : InMemoryActionRepository) (locked : Bool) (reply : Reply) :
    Task → Option (InMemoryActionRepository × Task)
  | .startingWorkflow action =>
    match reply.workflow with
    | .error detail => some (repo, .returned (.error (.workflowError detail)))
    | .ok reference => some (repo, .creating { action with workflowExecutionArn := some reference })
  | .creating action =>
    if locked then none
    else
      match repo.idempotency action.tenantKey with
      | some existingId =>
        match repo.actions existingId with
        | some existing => some (repo, .returned ((settleProposal action existing).map .action))
        | none => some (repo, .returned (.error .keyError))
      | none => some (repo.storeProposal action, .auditingProposal action)
  | .auditingProposal action =>
    match reply.audit with
    | none => some (repo, .returned ((settleProposal action action).map .action))
    | some detail => some (repo.dropProposal action, .returned (.error (.auditError detail)))
  | .loadToDecide actionId request principal =>
    match repo.get actionId with
    | .error e => some (repo, .returned (.error e))
    | .ok action =>
      match judge action request principal reply.now with
      | .error e => some (repo, .returned (.error e))
      | .ok decided => some (repo, .savingDecision decided)
  | .savingDecision decided =>
    if locked then none
    else
      match repo.checkTransition decided .pendingApproval with
      | .error (.transitionConflict detail) =>
        some (repo, .returned (.error (.actionState detail)))
      | .error e => some (repo, .returned (.error e))
      | .ok current => some (repo.setAction decided.id decided, .auditingDecision decided current)
  | .auditingDecision decided current =>
    match reply.audit with
    | none => some (repo, .returned (.ok (.action decided)))
    | some detail =>
      some (repo.setAction decided.id current, .returned (.error (.auditError detail)))
  | .loadToExecute actionId principal =>
    match repo.get actionId with
    | .error e => some (repo, .returned (.error e))
    | .ok action =>
      match planExecution action principal with
      | .error e => some (repo, .returned (.error e))
      | .ok (some receipt) => some (repo, .returned (.ok (.receipt receipt)))
      | .ok none => some (repo, .applying action)
  | .applying action =>
    match reply.supplier with
    | .error detail => some (repo, .returned (.error (.supplierError detail)))
    | .ok receipt => some (repo, .savingExecution action receipt)
  | .savingExecution action receipt =>
    if locked then none
    else
      match repo.checkTransition (executedAction action receipt) .approved with
      | .error (.transitionConflict detail) => some (repo, .reloadExecution action.id detail)
      | .error e => some (repo, .returned (.error e))
      | .ok current =>
        some (repo.setAction action.id (executedAction action receipt),
          .auditingExecution (executedAction action receipt) current receipt)
  | .auditingExecution executed current receipt =>
    match reply.audit with
    | none => some (repo, .returned (.ok (.receipt receipt)))
    | some detail =>
      some (repo.setAction executed.id current, .returned (.error (.auditError detail)))
  | .reloadExecution actionId conflict =>
    match repo.get actionId with
    | .error e => some (repo, .returned (.error e))
    | .ok current =>
      match current.status, current.executionReceipt with
      | .executed, some receipt => some (repo, .returned (.ok (.receipt receipt)))
      | _, _ => some (repo, .returned (.error (.actionState conflict)))
  | .returned _ => none

/-! ## Runs -/

structure Tasked where
  request : Request
  task : Task

structure Service where
  repo : InMemoryActionRepository
  tasks : List Tasked
  /-- The actions for which `set_onboarding_decision` was called. -/
  applied : List UUID
  /-- Each `get`, with the call that was writing the action at that time. -/
  gets : List (UUID × Option Nat)

inductive ServiceLabel where
  | submit (request : Request) (now : Datetime)
  | advance (index : Nat) (reply : Reply)

namespace Service

def initial : Service := ⟨.empty, [], [], []⟩

def locked (s : Service) : Bool :=
  s.tasks.any (·.task.writing.isSome)

/-- The call that is writing the action. -/
def writer (s : Service) (actionId : UUID) : Option Nat :=
  s.tasks.findIdx? fun tasked => tasked.task.writing = some actionId

def step (s : Service) : ServiceLabel → Option Service
  | .submit request now => some { s with tasks := s.tasks ++ [⟨request, .enter now request⟩] }
  | .advance index reply =>
    match s.tasks[index]? with
    | none => none
    | some ⟨request, task⟩ =>
      (task.advance s.repo s.locked reply).map fun (repo, next) => {
        repo
        tasks := s.tasks.set index ⟨request, next⟩
        applied := s.applied ++ task.applies.toList
        gets := s.gets ++ (task.getting.map fun actionId => (actionId, s.writer actionId)).toList }

end Service

/-! ## The property -/

/-- A `decide(approve)` for the action that returned normally. -/
def Tasked.Approves (actionId : UUID) (tasked : Tasked) : Prop :=
  ∃ request principal response, tasked.request = .decide actionId request principal ∧
    request.decision = .approve ∧ tasked.task = .returned (.ok response)

def Service.Approved (s : Service) (actionId : UUID) : Prop :=
  ∃ tasked ∈ s.tasks, tasked.Approves actionId

structure Service.NothingUndone (s : Service) : Prop where
  /-- Every external write rests on an approval that stands. -/
  approved : ∀ actionId ∈ s.applied, s.Approved actionId
  /-- No `get` returned a state whose writer raised. -/
  kept : ∀ actionId index, (actionId, some index) ∈ s.gets →
    ∀ request e, s.tasks[index]? ≠ some ⟨request, .returned (.error e)⟩

/-- No `get` of an action while its writer waits for the audit writer. -/
def Service.Committed (s : Service) : ServiceLabel → Prop
  | .submit .. => True
  | .advance index _ => ∀ tasked ∈ s.tasks[index]?, ∀ actionId ∈ tasked.task.getting,
      s.writer actionId = none

instance (s : Service) : DecidablePred s.Committed
  | .submit .. => instDecidableTrue
  | .advance index _ => inferInstanceAs (Decidable (∀ tasked ∈ s.tasks[index]?, _))

/-! ## The invariant -/

/-- What the local variables of a call say. -/
def Task.Fits (s : Service) (request : Request) : Task → Prop
  | .startingWorkflow action | .creating action => action.status = .pendingApproval
  | .auditingProposal action =>
    action.status = .pendingApproval ∧ s.repo.actions action.id = some action
  | .loadToDecide actionId approval principal => request = .decide actionId approval principal
  | .savingDecision decided => ∃ approval principal,
      request = .decide decided.id approval principal ∧ decided.status = decidedStatus approval.decision
  | .auditingDecision decided current => current.id = decided.id ∧
      current.status = .pendingApproval ∧ s.repo.actions decided.id = some decided ∧
      ∃ approval principal, request = .decide decided.id approval principal ∧
        decided.status = decidedStatus approval.decision
  | .applying action | .savingExecution action _ => s.Approved action.id
  | .auditingExecution executed current _ => current.id = executed.id ∧ s.Approved executed.id
  | .loadToExecute .. | .reloadExecution .. | .returned _ => True

structure ServiceOk (s : Service) : Prop where
  keyed : ∀ actionId action, s.repo.actions actionId = some action → action.id = actionId
  -- the lock
  one : ∀ (i j : Nat) (tasked tasked' : Tasked), s.tasks[i]? = some tasked → s.tasks[j]? = some tasked' →
    tasked.task.writing ≠ none → tasked'.task.writing ≠ none → i = j
  -- a state that nobody is writing rests on an approval
  committed : ∀ actionId action, s.repo.actions actionId = some action →
    action.status = .approved ∨ action.status = .executed →
    (∀ tasked ∈ s.tasks, tasked.task.writing ≠ some actionId) → s.Approved actionId
  fits : ∀ tasked ∈ s.tasks, tasked.task.Fits s tasked.request

section

variable {s s' : Service} {index : Nat} {request : Request} {task next : Task} {reply : Reply}
variable {repo : InMemoryActionRepository} {actionId : UUID}

theorem mem_set_of_ne {α : Type} {l : List α} {i : Nat} {a b : α} (at_ : l[i]? = some a) (c : α)
    (member : b ∈ l) (other : b ≠ a) : b ∈ l.set i c := by
  obtain ⟨j, found⟩ := List.mem_iff_getElem?.mp member
  have elsewhere : i ≠ j := by
    rintro rfl
    exact other (Option.some.inj (found.symm.trans at_))
  exact List.mem_iff_getElem?.mpr ⟨j, by rw [List.getElem?_set_ne elsewhere, found]⟩

/-- The service after a step of the call. -/
def Service.moved (s : Service) (index : Nat) (request : Request) (task : Task)
    (repo : InMemoryActionRepository) (next : Task) : Service where
  repo := repo
  tasks := s.tasks.set index ⟨request, next⟩
  applied := s.applied ++ task.applies.toList
  gets := s.gets ++ (task.getting.map fun actionId => (actionId, s.writer actionId)).toList

/-- An approval that returned stands. -/
theorem Service.Approved.moved (approved : s.Approved actionId)
    (at_ : s.tasks[index]? = some ⟨request, task⟩) (running : ∀ result, task ≠ .returned result) :
    (s.moved index request task repo next).Approved actionId := by
  obtain ⟨tasked, member, approves⟩ := approved
  refine ⟨tasked, mem_set_of_ne at_ _ member ?_, approves⟩
  rintro rfl
  obtain ⟨_, _, response, _, _, returned⟩ := approves
  exact running _ returned

/-- What a step does to the write of its call. -/
structure Writes (s : Service) (task : Task) (repo : InMemoryActionRepository) (next : Task) :
    Prop where
  running : ∀ result, task ≠ .returned result
  -- a call changes only the action that it is writing
  only : ∀ actionId, task.writing ≠ some actionId → next.writing ≠ some actionId →
    repo.actions actionId = s.repo.actions actionId
  -- it takes the lock when nobody has it
  lock : task.writing = none → next.writing ≠ none → s.locked = false
  keyed : ∀ actionId action, repo.actions actionId = some action → action.id = actionId

theorem Service.not_writing (free : s.locked = false) {tasked : Tasked} (member : tasked ∈ s.tasks) :
    tasked.task.writing = none := by
  simp only [Service.locked, List.any_eq_false, Option.isSome_iff_ne_none, ne_eq, Decidable.not_not] at free
  exact free tasked member

/-- While another call is writing, the step of this one leaves that action alone and takes no
    lock. -/
theorem Writes.other (writes : Writes s task repo next) (ok : ServiceOk s)
    (at_ : s.tasks[index]? = some ⟨request, task⟩) {j : Nat} {tasked : Tasked}
    (found : s.tasks[j]? = some tasked) (other : index ≠ j)
    (busy : tasked.task.writing = some actionId) :
    next.writing = none ∧ repo.actions actionId = s.repo.actions actionId := by
  have notWriting : task.writing = none := by
    by_contra writing
    exact other (ok.one index j _ _ at_ found writing (by simp [busy]))
  have noLock : next.writing = none := by
    by_contra takes
    have free := Service.not_writing (writes.lock notWriting takes) (List.mem_of_getElem? found)
    simp [busy] at free
  exact ⟨noLock, writes.only actionId (by simp [notWriting]) (by simp [noLock])⟩

theorem Task.Fits.other {tasked : Tasked} (fits : tasked.task.Fits s tasked.request)
    (same : ∀ actionId, tasked.task.writing = some actionId →
      s'.repo.actions actionId = s.repo.actions actionId)
    (approved : ∀ actionId, s.Approved actionId → s'.Approved actionId) :
    tasked.task.Fits s' tasked.request := by
  obtain ⟨request, task⟩ := tasked
  cases task with
  | auditingProposal action => exact ⟨fits.1, (same _ rfl).trans fits.2⟩
  | auditingDecision decided current =>
    exact ⟨fits.1, fits.2.1, (same _ rfl).trans fits.2.2.1, fits.2.2.2⟩
  | applying | savingExecution => exact approved _ fits
  | auditingExecution => exact ⟨fits.1, approved _ fits.2⟩
  | _ => exact fits

/-- The step lemma: what is left to show of a step is about the action that its call was
    writing, and about the call itself. -/
theorem ServiceOk.moved (ok : ServiceOk s) (at_ : s.tasks[index]? = some ⟨request, task⟩)
    (writes : Writes s task repo next)
    (ended : ∀ actionId action, task.writing = some actionId → repo.actions actionId = some action →
      action.status = .approved ∨ action.status = .executed →
      (s.moved index request task repo next).Approved actionId)
    (fits : next.Fits (s.moved index request task repo next) request) :
    ServiceOk (s.moved index request task repo next) where
  keyed := writes.keyed
  one := by
    intro i j tasked tasked' found found' writing writing'
    simp only [Service.moved] at found found'
    -- two writers, of which at most one is the call that moved
    by_cases here : index = i <;> by_cases here' : index = j
    · exact here.symm.trans here'
    · subst here
      rw [List.getElem?_set_ne here'] at found'
      obtain ⟨actionId, busy⟩ := Option.ne_none_iff_exists'.mp writing'
      rw [List.getElem?_set_self (List.getElem?_eq_some_iff.mp at_).1] at found
      cases found
      exact absurd (writes.other ok at_ found' here' busy).1 writing
    · subst here'
      rw [List.getElem?_set_ne here] at found
      obtain ⟨actionId, busy⟩ := Option.ne_none_iff_exists'.mp writing
      rw [List.getElem?_set_self (List.getElem?_eq_some_iff.mp at_).1] at found'
      cases found'
      exact absurd (writes.other ok at_ found here busy).1 writing'
    · rw [List.getElem?_set_ne here] at found
      rw [List.getElem?_set_ne here'] at found'
      exact ok.one i j tasked tasked' found found' writing writing'
  committed := by
    intro actionId action stored status free
    by_cases wrote : task.writing = some actionId
    · exact ended actionId action wrote stored status
    · have notWriting : next.writing ≠ some actionId :=
        free ⟨request, next⟩ (List.mem_iff_getElem?.mpr
          ⟨index, List.getElem?_set_self (List.getElem?_eq_some_iff.mp at_).1⟩)
      have stored : s.repo.actions actionId = some action :=
        (writes.only actionId wrote notWriting).symm.trans stored
      refine (ok.committed actionId action stored status ?_).moved at_ writes.running
      intro tasked member writing
      have other : tasked ≠ ⟨request, task⟩ := by
        rintro rfl
        exact wrote writing
      exact free tasked (mem_set_of_ne at_ _ member other) writing
  fits := by
    intro tasked member
    obtain ⟨j, found⟩ := List.mem_iff_getElem?.mp member
    simp only [Service.moved] at found
    by_cases here : index = j
    · subst here
      rw [List.getElem?_set_self (List.getElem?_eq_some_iff.mp at_).1] at found
      cases found
      exact fits
    · rw [List.getElem?_set_ne here] at found
      refine (ok.fits tasked (List.mem_of_getElem? found)).other ?_
        fun actionId approved => approved.moved at_ writes.running
      intro actionId busy
      exact (writes.other ok at_ found here busy).2

/-! ## One step of a call -/

theorem ServiceOk.reads (ok : ServiceOk s) (at_ : s.tasks[index]? = some ⟨request, task⟩)
    (running : ∀ result, task ≠ .returned result) (idle : task.writing = none)
    (idle' : next.writing = none)
    (fits : next.Fits (s.moved index request task s.repo next) request) :
    ServiceOk (s.moved index request task s.repo next) := by
  have writes : Writes s task s.repo next :=
    ⟨running, fun _ _ _ => rfl, fun _ takes => absurd idle' takes, ok.keyed⟩
  refine ok.moved at_ writes ?_ fits
  intro actionId action wrote
  simp [idle] at wrote

/-- A call that starts to write an action, under the lock. -/
theorem ServiceOk.begins (ok : ServiceOk s) (at_ : s.tasks[index]? = some ⟨request, task⟩)
    (running : ∀ result, task ≠ .returned result) (idle : task.writing = none)
    (free : s.locked = false) (action : GovernedAction) (writing : next.writing = some action.id)
    (written : repo.actions = Function.update s.repo.actions action.id (some action))
    (fits : next.Fits (s.moved index request task repo next) request) :
    ServiceOk (s.moved index request task repo next) := by
  have writes : Writes s task repo next := by
    refine ⟨running, ?_, fun _ _ => free, ?_⟩
    · intro actionId _ other
      rw [written]
      apply Function.update_of_ne
      rintro rfl
      exact other writing
    · intro actionId stored found
      rw [written] at found
      by_cases same : actionId = action.id
      · subst same
        rw [Function.update_self] at found
        cases found
        rfl
      · rw [Function.update_of_ne same] at found
        exact ok.keyed actionId stored found
  refine ok.moved at_ writes ?_ fits
  intro actionId action wrote
  simp [idle] at wrote

/-- A call whose audit writer has answered. -/
theorem ServiceOk.ends (ok : ServiceOk s) (at_ : s.tasks[index]? = some ⟨request, task⟩)
    (running : ∀ result, task ≠ .returned result) {result : Except GovernanceError Response}
    (writing : task.writing = some actionId)
    (only : ∀ other, other ≠ actionId → repo.actions other = s.repo.actions other)
    (ended : ∀ action, repo.actions actionId = some action → action.id = actionId ∧
      (action.status = .approved ∨ action.status = .executed →
        (s.moved index request task repo (.returned result)).Approved actionId)) :
    ServiceOk (s.moved index request task repo (.returned result)) := by
  have writes : Writes s task repo (.returned result) := by
    refine ⟨running, ?_, fun idle => by simp [writing] at idle, ?_⟩
    · intro other wrote _
      apply only
      rintro rfl
      exact wrote writing
    · intro other action found
      by_cases same : other = actionId
      · subst same
        exact (ended action found).1
      · rw [only other same] at found
        exact ok.keyed other action found
  refine ok.moved at_ writes ?_ trivial
  intro other action wrote found status
  cases writing.symm.trans wrote
  exact (ended action found).2 status

theorem Service.writer_eq_none :
    s.writer actionId = none ↔ ∀ tasked ∈ s.tasks, tasked.task.writing ≠ some actionId := by
  simp [Service.writer, List.findIdx?_eq_none_iff]

theorem ServiceOk.get (ok : ServiceOk s) {action : GovernedAction}
    (found : s.repo.get actionId = .ok action) :
    s.repo.actions actionId = some action ∧ action.id = actionId := by
  unfold InMemoryActionRepository.get at found
  split at found
  · cases found
  next stored =>
    cases found
    exact ⟨stored, ok.keyed _ _ stored⟩

/-- A call that reads and returns. -/
theorem ServiceOk.answers (ok : ServiceOk s) (at_ : s.tasks[index]? = some ⟨request, task⟩)
    (running : ∀ result, task ≠ .returned result) (idle : task.writing = none)
    {result : Except GovernanceError Response} :
    ServiceOk (s.moved index request task s.repo (.returned result)) :=
  ok.reads at_ running idle rfl trivial

theorem ServiceOk.proposalAudited {action : GovernedAction} (ok : ServiceOk s)
    (at_ : s.tasks[index]? = some ⟨request, .auditingProposal action⟩)
    (fits : (Task.auditingProposal action).Fits s request)
    (moved : (Task.auditingProposal action).advance s.repo s.locked reply = some (repo, next)) :
    ServiceOk (s.moved index request (.auditingProposal action) repo next) := by
  obtain ⟨pending, stored⟩ := fits
  simp only [Task.advance] at moved
  split at moved <;> cases moved
  · refine ok.ends at_ (by simp) rfl (fun _ _ => rfl) ?_
    intro action' found
    cases stored.symm.trans found
    simp [pending]
  · -- the `except` clause removes the action again
    refine ok.ends at_ (by simp) rfl (fun other different => Function.update_of_ne different ..) ?_
    intro action' found
    simp [InMemoryActionRepository.dropProposal] at found

theorem ServiceOk.decisionLoaded {approval : ApprovalRequest} {principal : Principal} (ok : ServiceOk s)
    (at_ : s.tasks[index]? = some ⟨request, .loadToDecide actionId approval principal⟩)
    (fits : (Task.loadToDecide actionId approval principal).Fits s request)
    (moved : (Task.loadToDecide actionId approval principal).advance s.repo s.locked reply =
      some (repo, next)) :
    ServiceOk (s.moved index request (.loadToDecide actionId approval principal) repo next) := by
  simp only [Task.advance] at moved
  split at moved
  · cases moved
    exact ok.answers at_ (by simp) rfl
  next action loaded =>
    obtain ⟨_, same⟩ := ok.get loaded
    split at moved
    · cases moved
      exact ok.answers at_ (by simp) rfl
    next decided judged =>
      cases moved
      refine ok.reads at_ (by simp) rfl rfl ⟨approval, principal, ?_⟩
      obtain ⟨_, _, _, decidedIs⟩ := judge_ok judged
      subst decidedIs
      exact ⟨same ▸ fits, rfl⟩

theorem ServiceOk.decisionAudited {decided current : GovernedAction} (ok : ServiceOk s)
    (at_ : s.tasks[index]? = some ⟨request, .auditingDecision decided current⟩)
    (fits : (Task.auditingDecision decided current).Fits s request)
    (moved : (Task.auditingDecision decided current).advance s.repo s.locked reply = some (repo, next)) :
    ServiceOk (s.moved index request (.auditingDecision decided current) repo next) := by
  obtain ⟨same, pending, stored, approval, principal, isDecide, status⟩ := fits
  simp only [Task.advance] at moved
  split at moved <;> cases moved
  · refine ok.ends at_ (by simp) rfl (fun _ _ => rfl) ?_
    intro action found
    cases stored.symm.trans found
    refine ⟨rfl, fun approved => ?_⟩
    have approve : approval.decision = .approve := by
      cases decision : approval.decision with
      | approve => rfl
      | reject => simp [status, decision, decidedStatus] at approved
    exact ⟨⟨request, .returned (.ok (.action decided))⟩, List.mem_iff_getElem?.mpr
      ⟨index, List.getElem?_set_self (List.getElem?_eq_some_iff.mp at_).1⟩,
      approval, principal, _, isDecide, approve, rfl⟩
  · refine ok.ends at_ (by simp) rfl (fun other different => Function.update_of_ne different ..) ?_
    intro action found
    simp only [InMemoryActionRepository.setAction, Function.update_self, Option.some.injEq] at found
    subst found
    simp [same, pending]

theorem ServiceOk.executionLoaded {principal : Principal} (ok : ServiceOk s)
    (at_ : s.tasks[index]? = some ⟨request, .loadToExecute actionId principal⟩)
    (committed : s.writer actionId = none)
    (moved : (Task.loadToExecute actionId principal).advance s.repo s.locked reply = some (repo, next)) :
    ServiceOk (s.moved index request (.loadToExecute actionId principal) repo next) := by
  simp only [Task.advance] at moved
  split at moved
  · cases moved
    exact ok.answers at_ (by simp) rfl
  next action loaded =>
    obtain ⟨stored, same⟩ := ok.get loaded
    split at moved
    · cases moved
      exact ok.answers at_ (by simp) rfl
    · cases moved
      exact ok.answers at_ (by simp) rfl
    next planned =>
      cases moved
      -- nobody is writing the action, so its approval has returned
      have free := Service.writer_eq_none.mp committed
      have approved := ok.committed actionId action stored (.inl (planExecution_apply planned)) free
      refine ok.reads at_ (by simp) rfl rfl ?_
      rw [Task.Fits, same]
      exact approved.moved at_ (by simp)

theorem ServiceOk.executionAudited {executed current : GovernedAction} {receipt : ExecutionReceipt}
    (ok : ServiceOk s)
    (at_ : s.tasks[index]? = some ⟨request, .auditingExecution executed current receipt⟩)
    (fits : (Task.auditingExecution executed current receipt).Fits s request)
    (moved : (Task.auditingExecution executed current receipt).advance s.repo s.locked reply =
      some (repo, next)) :
    ServiceOk (s.moved index request (.auditingExecution executed current receipt) repo next) := by
  obtain ⟨same, approved⟩ := fits
  simp only [Task.advance] at moved
  split at moved <;> cases moved
  · refine ok.ends at_ (by simp) rfl (fun _ _ => rfl) ?_
    intro action found
    exact ⟨ok.keyed _ _ found, fun _ => approved.moved at_ (by simp)⟩
  · refine ok.ends at_ (by simp) rfl (fun other different => Function.update_of_ne different ..) ?_
    intro action found
    simp only [InMemoryActionRepository.setAction, Function.update_self, Option.some.injEq] at found
    subst found
    exact ⟨same, fun _ => approved.moved at_ (by simp)⟩

theorem serviceOk_advance (ok : ServiceOk s) (at_ : s.tasks[index]? = some ⟨request, task⟩)
    (committed : ∀ actionId ∈ task.getting, s.writer actionId = none)
    (moved : task.advance s.repo s.locked reply = some (repo, next)) :
    ServiceOk (s.moved index request task repo next) := by
  have fits := ok.fits _ (List.mem_of_getElem? at_)
  simp only at fits
  cases task with
  | startingWorkflow action =>
    simp only [Task.advance] at moved
    split at moved <;> cases moved
    · exact ok.answers at_ (by simp) rfl
    · exact ok.reads at_ (by simp) rfl rfl fits
  | creating action =>
    simp only [Task.advance] at moved
    split at moved
    · cases moved
    next free =>
      split at moved
      · split at moved <;> cases moved
        · exact ok.answers at_ (by simp) rfl
        · exact ok.answers at_ (by simp) rfl
      · cases moved
        refine ok.begins at_ (by simp) rfl (by simpa using free) action rfl rfl ?_
        exact ⟨fits, Function.update_self ..⟩
  | auditingProposal action => exact ok.proposalAudited at_ fits moved
  | loadToDecide actionId approval principal => exact ok.decisionLoaded at_ fits moved
  | savingDecision decided =>
    simp only [Task.advance] at moved
    split at moved
    · cases moved
    next free =>
      split at moved
      · cases moved
        exact ok.answers at_ (by simp) rfl
      · cases moved
        exact ok.answers at_ (by simp) rfl
      next current checked =>
        cases moved
        obtain ⟨stored, pending⟩ := InMemoryActionRepository.checkTransition_eq_ok.mp checked
        refine ok.begins at_ (by simp) rfl (by simpa using free) decided rfl rfl ?_
        exact ⟨ok.keyed _ _ stored, pending, Function.update_self .., fits⟩
  | auditingDecision decided current => exact ok.decisionAudited at_ fits moved
  | loadToExecute actionId principal => exact ok.executionLoaded at_ (committed actionId rfl) moved
  | applying action =>
    simp only [Task.advance] at moved
    split at moved <;> cases moved
    · exact ok.answers at_ (by simp) rfl
    · exact ok.reads at_ (by simp) rfl rfl (fits.moved at_ (by simp))
  | savingExecution action receipt =>
    simp only [Task.advance] at moved
    split at moved
    · cases moved
    next free =>
      split at moved
      · cases moved
        exact ok.reads at_ (by simp) rfl rfl trivial
      · cases moved
        exact ok.answers at_ (by simp) rfl
      next current checked =>
        cases moved
        obtain ⟨stored, _⟩ := InMemoryActionRepository.checkTransition_eq_ok.mp checked
        refine ok.begins at_ (by simp) rfl (by simpa using free)
          (executedAction action receipt) rfl rfl ?_
        exact ⟨ok.keyed _ _ stored, fits.moved at_ (by simp)⟩
  | auditingExecution executed current receipt => exact ok.executionAudited at_ fits moved
  | reloadExecution actionId conflict =>
    simp only [Task.advance] at moved
    split at moved
    · cases moved
      exact ok.answers at_ (by simp) rfl
    · split at moved <;> cases moved
      · exact ok.answers at_ (by simp) rfl
      · exact ok.answers at_ (by simp) rfl
  | returned result => cases moved

theorem serviceOk_submit (ok : ServiceOk s) (request : Request) (now : Datetime) :
    ServiceOk { s with tasks := s.tasks ++ [⟨request, .enter now request⟩] } := by
  have idle : (Task.enter now request).writing = none := by
    cases request <;> simp only [Task.enter] <;> split <;> rfl
  have approved (actionId : UUID) (approved : s.Approved actionId) :
      Service.Approved { s with tasks := s.tasks ++ [⟨request, .enter now request⟩] } actionId := by
    obtain ⟨tasked, member, approves⟩ := approved
    exact ⟨tasked, List.mem_append_left _ member, approves⟩
  refine ⟨ok.keyed, ?_, ?_, ?_⟩
  · have old {i : Nat} {tasked : Tasked}
        (found : (s.tasks ++ [⟨request, .enter now request⟩])[i]? = some tasked)
        (writing : tasked.task.writing ≠ none) : s.tasks[i]? = some tasked := by
      by_cases inside : i < s.tasks.length
      · rwa [List.getElem?_append_left inside] at found
      · rw [List.getElem?_append_right (by omega)] at found
        have isNew := List.mem_singleton.mp (List.mem_of_getElem? found)
        subst isNew
        exact absurd idle writing
    intro i j tasked tasked' found found' writing writing'
    exact ok.one i j tasked tasked' (old found writing) (old found' writing') writing writing'
  · intro actionId action stored status free
    exact approved actionId (ok.committed actionId action stored status
      fun tasked member => free tasked (List.mem_append_left _ member))
  · intro tasked member
    cases List.mem_append.mp member with
    | inl old => exact (ok.fits tasked old).other (fun _ _ => rfl) approved
    | inr new =>
      cases List.mem_singleton.mp new
      cases request with
      | propose r =>
        simp only [Task.enter]
        split
        · trivial
        next prepared =>
          obtain ⟨_, _, _, _, rfl⟩ := prepareAction_ok prepared
          rfl
      | decide =>
        simp only [Task.enter]
        split
        · trivial
        · rfl
      | execute =>
        simp only [Task.enter]
        split <;> trivial

/-! ## Runs -/

/-- What a run in which no `get` sees an open write keeps. -/
structure Undisturbed (s : Service) : Prop where
  ok : ServiceOk s
  applied : ∀ actionId ∈ s.applied, s.Approved actionId
  gets : ∀ read ∈ s.gets, read.2 = none

theorem undisturbed_step {label : ServiceLabel} (undisturbed : Undisturbed s)
    (committed : s.Committed label) (moved : s.step label = some s') : Undisturbed s' := by
  cases label with
  | submit request now =>
    cases moved
    refine ⟨serviceOk_submit undisturbed.ok request now, ?_, undisturbed.gets⟩
    intro actionId applied
    obtain ⟨tasked, member, approves⟩ := undisturbed.applied actionId applied
    exact ⟨tasked, List.mem_append_left _ member, approves⟩
  | advance index reply =>
    simp only [Service.step] at moved
    split at moved
    · cases moved
    next request task at_ =>
      obtain ⟨⟨repo, next⟩, advanced, rfl⟩ := Option.map_eq_some_iff.mp moved
      have getsCommitted := committed _ at_
      have running : ∀ result, task ≠ .returned result := by
        rintro result rfl
        cases advanced
      refine ⟨serviceOk_advance undisturbed.ok at_ getsCommitted advanced, ?_, ?_⟩
      · intro actionId applied
        cases List.mem_append.mp applied with
        | inl old => exact (undisturbed.applied actionId old).moved at_ running
        | inr new =>
          -- only a call at `applying` adds to the list, and it holds an approved action
          cases task with
          | applying action =>
            cases List.mem_singleton.mp new
            have approved : s.Approved action.id := undisturbed.ok.fits _ (List.mem_of_getElem? at_)
            exact approved.moved at_ running
          | _ => cases new
      · intro read isGet
        cases List.mem_append.mp isGet with
        | inl old => exact undisturbed.gets read old
        | inr new =>
          simp only [Option.mem_toList, Option.map_eq_some_iff] at new
          obtain ⟨actionId, getting, rfl⟩ := new
          exact getsCommitted actionId getting

theorem Undisturbed.nothingUndone (undisturbed : Undisturbed s) : s.NothingUndone where
  approved := undisturbed.applied
  kept := by
    intro actionId index isGet
    cases undisturbed.gets _ isGet

/-! ## A `get` of an open write -/

theorem Task.advance_get (repo : InMemoryActionRepository) (locked : Bool) (reply : Reply)
    (getting : task.getting = some actionId) :
    ∃ next, task.advance repo locked reply = some (repo, next) := by
  cases task with
  | loadToDecide | loadToExecute | reloadExecution =>
    simp only [Task.advance]
    repeat' split
    all_goals exact ⟨_, rfl⟩
  | _ => cases getting

/-- The audit writer of a call that is writing may raise. -/
theorem Task.advance_raise (repo : InMemoryActionRepository) (locked : Bool) (reply : Reply)
    (detail : String) (writing : task.writing = some actionId) :
    ∃ repo', task.advance repo locked { reply with audit := some detail } =
      some (repo', .returned (.error (.auditError detail))) := by
  cases task with
  | auditingProposal | auditingDecision | auditingExecution => exact ⟨_, rfl⟩
  | _ => cases writing

theorem Service.step_advance (at_ : s.tasks[index]? = some ⟨request, task⟩)
    (advanced : task.advance s.repo s.locked reply = some (repo, next)) :
    s.step (.advance index reply) = some (s.moved index request task repo next) := by
  simp only [Service.step, at_, advanced]
  rfl

/-- A `get` of an open write can be undone. -/
theorem not_nothingUndone_of_get {label : ServiceLabel} (opened : ¬ s.Committed label) :
    ∃ s', Steps Service.step s s' ∧ ¬ s'.NothingUndone := by
  cases label with
  | submit => exact absurd trivial opened
  | advance index reply =>
    simp only [Service.Committed, not_forall] at opened
    obtain ⟨⟨request, task⟩, at_, actionId, getting, busy⟩ := opened
    obtain ⟨j, writer⟩ := Option.ne_none_iff_exists'.mp busy
    obtain ⟨⟨request', task'⟩, found, writing⟩ : ∃ tasked, s.tasks[j]? = some tasked ∧
        tasked.task.writing = some actionId := by
      obtain ⟨inside, writes, _⟩ := List.findIdx?_eq_some_iff_getElem.mp writer
      exact ⟨s.tasks[j], List.getElem?_eq_getElem inside, by simpa using writes⟩
    -- a task does not read while it writes, so the writer is another task
    have other : index ≠ j := by
      rintro rfl
      cases at_.symm.trans found
      cases task with
      | loadToDecide | loadToExecute | reloadExecution => cases writing
      | _ => cases getting
    obtain ⟨next, got⟩ := Task.advance_get s.repo s.locked reply getting
    let read := s.moved index request task s.repo next
    have kept : read.tasks[j]? = some ⟨request', task'⟩ := by
      rw [← found]
      exact List.getElem?_set_ne other
    obtain ⟨repo', raised⟩ := Task.advance_raise read.repo read.locked reply "" writing
    refine ⟨_, ((Steps.snoc .refl (Service.step_advance at_ got)).snoc
      (Service.step_advance kept raised)), ?_⟩
    intro nothing
    refine nothing.kept actionId j ?_ request' _
      (List.getElem?_set_self (List.getElem?_eq_some_iff.mp kept).1)
    have isGet : (actionId, some j) ∈ read.gets := by
      apply List.mem_append_right
      rw [show task.getting = some actionId from getting, ← writer]
      exact List.mem_singleton_self _
    exact List.mem_append_left _ isGet

/-- Calls in any order, as long as no `get` reads an action whose write waits for its audit
    event: every external write rests on an approval that has returned, and no state that a
    `get` returned is undone.  Whenever a `get` could read such an action, a run in which it
    does and the write is undone exists. -/
theorem nothingUndone_of_committed
    (steps : StepsWhen Service.step Service.Committed .initial s) :
    s.NothingUndone ∧ ∀ label, ¬ s.Committed label →
      ∃ s', Steps Service.step s s' ∧ ¬ s'.NothingUndone := by
  have initially : Undisturbed .initial := by
    refine ⟨⟨?_, ?_, ?_, ?_⟩, ?_, ?_⟩ <;>
      simp [Service.initial, InMemoryActionRepository.empty]
  have undisturbed : Undisturbed s :=
    steps.invariant initially fun undisturbed committed moved =>
      undisturbed_step undisturbed committed moved
  exact ⟨undisturbed.nothingUndone, fun label opened => not_nothingUndone_of_get opened⟩

end

def Service.Quiet (s : Service) : Prop :=
  ∀ tasked ∈ s.tasks, ∃ result, tasked.task = .returned result

namespace Service.Sample

open SupplierAssurance.Sample

def actionId : UUID := actionIdFor "tenant-a" ⟨0xc⟩

def reply : Reply where
  now := 2
  workflow := .ok "local://approval"
  audit := none
  supplier := .ok ⟨actionId, "supplier-system://decisions/" ++ actionId.str, .approve, 3,
    externalReference_bounded actionId⟩

def raising : Reply := { reply with audit := some "RuntimeError" }

def proposed : List ServiceLabel :=
  .submit (.propose proposalA) 1 :: List.replicate 3 (.advance 0 reply)

/-- The action is proposed, approved and executed. -/
def executedAfterwards : List ServiceLabel :=
  proposed ++ .submit (.decide actionId approval approverA) 2 :: List.replicate 3 (.advance 1 reply) ++
    .submit (.execute actionId executor) 3 :: List.replicate 4 (.advance 2 reply)

/-- The action is executed while the audit event of its approval is being written, which then
    fails. -/
def executedMeanwhile : List ServiceLabel :=
  proposed ++ [.submit (.decide actionId approval approverA) 2, .advance 1 reply, .advance 1 reply,
    .submit (.execute actionId executor) 3, .advance 2 reply, .advance 2 reply, .advance 1 raising,
    .advance 2 reply, .advance 2 reply]

def Tasked.isReturned (tasked : Tasked) : Bool :=
  match tasked.task with
  | .returned _ => true
  | _ => false

def Tasked.failed (tasked : Tasked) : Bool :=
  match tasked.request, tasked.task with
  | .decide .., .returned (.error _) | .propose _, _ | .execute .., _ => true
  | _, _ => false

end Service.Sample

open Service.Sample in
theorem nothingUndone_of_committed_executed :
    ∃ s : Service, s.applied = [actionId] ∧ s.NothingUndone := by
  have replayed : ((runWhen Service.step (fun s label => decide (s.Committed label)) .initial
      executedAfterwards).map fun s => decide (s.applied = [actionId])) = some true := by
    decide +kernel
  obtain ⟨s, ran, passed⟩ := Option.map_eq_some_iff.mp replayed
  have steps : StepsWhen Service.step Service.Committed .initial s :=
    stepsWhen_of_runWhen (fun _ _ _ passed => of_decide_eq_true passed) ran
  exact ⟨s, of_decide_eq_true passed, (nothingUndone_of_committed steps).1⟩

open Service.Sample in
/-- All calls have returned, the supplier system was called, and no approval stands. -/
theorem not_nothingUndone_failed_audit :
    ¬ ∀ s : Service, Steps Service.step .initial s → s.Quiet → s.NothingUndone := by
  intro claimed
  have replayed : ((run Service.step .initial executedMeanwhile).map fun s =>
      decide (s.applied = [actionId]) && s.tasks.all Tasked.isReturned &&
        s.tasks.all Tasked.failed) = some true := by decide +kernel
  obtain ⟨s, ran, passed⟩ := Option.map_eq_some_iff.mp replayed
  simp only [Bool.and_eq_true, decide_eq_true_eq, List.all_eq_true] at passed
  obtain ⟨⟨applied, returned⟩, failed⟩ := passed
  have quiet : s.Quiet := by
    intro tasked member
    have isReturned := returned tasked member
    unfold Tasked.isReturned at isReturned
    split at isReturned
    next result ended => exact ⟨result, ended⟩
    next => cases isReturned
  have nothing := claimed s (steps_of_run ran) quiet
  obtain ⟨tasked, member, _, _, _, isDecide, _, succeeded⟩ :=
    nothing.approved actionId (by rw [applied]; exact List.mem_singleton_self _)
  have contradiction := failed tasked member
  simp [Tasked.failed, isDecide, succeeded] at contradiction

end SupplierAssurance.Governance
