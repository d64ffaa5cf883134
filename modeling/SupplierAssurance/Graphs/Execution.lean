import SupplierAssurance.Graphs.Evidence
import SupplierAssurance.Graphs.Workflow
import SupplierAssurance.Lib.Transition

/-! # Any number of calls on one execution

Start and resume calls on the thread of one execution, interleaved at their awaits: reading
the state, invoking the graph and reading the state again are one step each.  The backend
is drawn anew for every invocation, so any of its calls may fail.

`invocations` records what the graph was invoked with and is read by no step.  The thread
is always what the last invocation left.
-/

namespace SupplierAssurance.Graphs

open Python Lib ModelGateway

/-- An invocation of the graph: where it starts, and the value of a resume. -/
structure Invocation where
  services : Services
  checkpoint : ReviewCheckpoint
  value : Option EvidenceConfirmation

namespace Invocation

/-- `ainvoke(input)` on a thread. -/
def input (services : Services) (thread : Thread) (input : ReviewGraphState) : Invocation :=
  ⟨services, ⟨.startOver (thread.map (·.values)) input, specialistNodes, []⟩, none⟩

variable (schemas : JsonSchemas) (invocation : Invocation)

def outcome : ReviewCheckpoint × Except (GraphError String) Unit :=
  (reviewGraph schemas).run invocation.services recursionLimit invocation.value
    invocation.checkpoint

def visited : List ReviewCheckpoint :=
  (reviewGraph schemas).visited invocation.services recursionLimit invocation.value
    invocation.checkpoint

/-- The backend answered every call of the invocation. -/
def Answered : Prop := AllAnswered schemas invocation.services (invocation.visited schemas)

instance : Decidable (invocation.Answered schemas) :=
  inferInstanceAs (Decidable (AllAnswered ..))

end Invocation

inductive ReviewRequest where
  | start (supplierCase : SupplierCase) (requireEvidenceConfirmation : Bool)
  | resume (supplierCase : SupplierCase) (confirmation : EvidenceConfirmation)

/-- The call of the workflow that a request is. -/
def ReviewRequest.perform (schemas : JsonSchemas) (services : Services) (executionId : UUID)
    (thread : Thread) : ReviewRequest → Thread × Except ReviewError ReviewExecution
  | .start supplierCase required =>
    Graphs.start schemas services thread supplierCase executionId required
  | .resume supplierCase confirmation =>
    Graphs.resume schemas services thread supplierCase executionId confirmation

/-- Where a call stands: before its first read, before it invokes the graph, before it reads
    the state again, or done. -/
inductive ReviewCall where
  | reading
  | invoking
  | reloading
  | returned (answer : Except ReviewError ReviewExecution)

def ReviewCall.isReturned : ReviewCall → Bool
  | .returned _ => true
  | _ => false

structure ReviewCalled where
  request : ReviewRequest
  call : ReviewCall

structure ReviewWorld where
  thread : Thread
  calls : List ReviewCalled
  invocations : List Invocation

inductive ReviewLabel where
  | submit (request : ReviewRequest)
  | advance (index : Nat) (services : Services)

/-- `supplierCase` is the case that `home` was when the execution got its identifier: the
    identifier is derived from the tenant and the case, other fields may have changed. -/
def SameCase (home supplierCase : SupplierCase) : Prop :=
  supplierCase.id = home.id ∧ supplierCase.tenantId = home.tenantId

instance (home supplierCase : SupplierCase) : Decidable (SameCase home supplierCase) :=
  inferInstanceAs (Decidable (_ ∧ _))

/-- Every start of the execution comes with its own case. -/
def ReviewRequest.Admitted (home : SupplierCase) : ReviewRequest → Prop
  | .start supplierCase _ => SameCase home supplierCase
  | .resume .. => True

instance (home : SupplierCase) : DecidablePred (ReviewRequest.Admitted home)
  | .start .. => inferInstanceAs (Decidable (SameCase ..))
  | .resume .. => instDecidableTrue

namespace ReviewWorld

variable (schemas : JsonSchemas) (home : SupplierCase) (executionId : UUID)

def initial : ReviewWorld := ⟨none, [], []⟩

/-- Call `index` now stands at `call`; the thread did not change. -/
def answered (w : ReviewWorld) (index : Nat) (request : ReviewRequest) (call : ReviewCall) :
    ReviewWorld :=
  { w with calls := w.calls.set index ⟨request, call⟩ }

/-- Call `index` invoked the graph. -/
def invoked (w : ReviewWorld) (index : Nat) (request : ReviewRequest) (invocation : Invocation) :
    ReviewWorld where
  thread := some (invocation.outcome schemas).1
  calls := w.calls.set index ⟨request,
    match (invocation.outcome schemas).2 with
    | .error e => .returned (.error (.graph e))
    | .ok () => .reloading⟩
  invocations := w.invocations ++ [invocation]

/-- The next await of call `index`. -/
def advance (w : ReviewWorld) (index : Nat) (services : Services) (called : ReviewCalled) :
    Option ReviewWorld :=
  match called.call, called.request, w.thread with
  | .reading, .start .., none => some (w.answered index called.request .invoking)
  | .reading, .start supplierCase _, thread@(some _) =>
    some (w.answered index called.request (.returned (getExecution thread supplierCase executionId)))
  | .invoking, .start supplierCase required, thread =>
    some (w.invoked schemas index called.request
      (.input services thread (startInput services supplierCase executionId required)))
  | .reading, .resume supplierCase _, thread =>
    match resumeRead thread supplierCase executionId with
    | some answer => some (w.answered index called.request (.returned answer))
    | none => some (w.answered index called.request .invoking)
  | .invoking, .resume _ confirmation, some checkpoint =>
    some (w.invoked schemas index called.request ⟨services, checkpoint, some confirmation⟩)
  | .reloading, _, some checkpoint =>
    some (w.answered index called.request (.returned (executionFromSnapshot checkpoint)))
  | _, _, _ => none

def step (w : ReviewWorld) : ReviewLabel → Option ReviewWorld
  | .submit request =>
    if request.Admitted home then some { w with calls := w.calls ++ [⟨request, .reading⟩] }
    else none
  | .advance index services =>
    match w.calls[index]? with
    | none => none
    | some called => w.advance schemas executionId index services called

/-- The worlds that some run of calls on the execution reaches. -/
def Reachable (w : ReviewWorld) : Prop :=
  Steps (step schemas home executionId) initial w

/-- No request is in flight. -/
def Quiet (w : ReviewWorld) : Prop :=
  ∀ called ∈ w.calls, called.call.isReturned

instance (w : ReviewWorld) : Decidable w.Quiet :=
  inferInstanceAs (Decidable (∀ called ∈ w.calls, _))

/-- A step of the world with what it found on the way. -/
inductive Moves (w : ReviewWorld) : ReviewLabel → ReviewWorld → Prop
  | submit {request : ReviewRequest} : request.Admitted home →
      Moves w (.submit request) { w with calls := w.calls ++ [⟨request, .reading⟩] }
  | startFresh {index : Nat} {services : Services} {supplierCase : SupplierCase} {required : Bool} :
      w.calls[index]? = some ⟨.start supplierCase required, .reading⟩ → w.thread = none →
      Moves w (.advance index services) (w.answered index (.start supplierCase required) .invoking)
  | startExisting {index : Nat} {services : Services} {supplierCase : SupplierCase}
      {required : Bool} {checkpoint : ReviewCheckpoint} :
      w.calls[index]? = some ⟨.start supplierCase required, .reading⟩ →
      w.thread = some checkpoint →
      Moves w (.advance index services) (w.answered index (.start supplierCase required)
        (.returned (getExecution (some checkpoint) supplierCase executionId)))
  | startInvoke {index : Nat} {services : Services} {supplierCase : SupplierCase}
      {required : Bool} :
      w.calls[index]? = some ⟨.start supplierCase required, .invoking⟩ →
      Moves w (.advance index services) (w.invoked schemas index (.start supplierCase required)
        (.input services w.thread (startInput services supplierCase executionId required)))
  | resumeAnswer {index : Nat} {services : Services} {supplierCase : SupplierCase}
      {confirmation : EvidenceConfirmation} {answer : Except ReviewError ReviewExecution} :
      w.calls[index]? = some ⟨.resume supplierCase confirmation, .reading⟩ →
      resumeRead w.thread supplierCase executionId = some answer →
      Moves w (.advance index services)
        (w.answered index (.resume supplierCase confirmation) (.returned answer))
  | resumeAwaiting {index : Nat} {services : Services} {supplierCase : SupplierCase}
      {confirmation : EvidenceConfirmation} :
      w.calls[index]? = some ⟨.resume supplierCase confirmation, .reading⟩ →
      resumeRead w.thread supplierCase executionId = none →
      Moves w (.advance index services)
        (w.answered index (.resume supplierCase confirmation) .invoking)
  | resumeInvoke {index : Nat} {services : Services} {supplierCase : SupplierCase}
      {confirmation : EvidenceConfirmation} {checkpoint : ReviewCheckpoint} :
      w.calls[index]? = some ⟨.resume supplierCase confirmation, .invoking⟩ →
      w.thread = some checkpoint →
      Moves w (.advance index services) (w.invoked schemas index (.resume supplierCase confirmation)
        ⟨services, checkpoint, some confirmation⟩)
  | reload {index : Nat} {services : Services} {request : ReviewRequest}
      {checkpoint : ReviewCheckpoint} :
      w.calls[index]? = some ⟨request, .reloading⟩ → w.thread = some checkpoint →
      Moves w (.advance index services)
        (w.answered index request (.returned (executionFromSnapshot checkpoint)))

variable {schemas home executionId}

theorem step_moves {w w' : ReviewWorld} {label : ReviewLabel}
    (moved : step schemas home executionId w label = some w') :
    Moves schemas home executionId w label w' := by
  cases label with
  | submit request =>
    simp only [step] at moved
    split at moved
    next admitted =>
      cases moved
      exact .submit admitted
    next => cases moved
  | advance index services =>
    simp only [step] at moved
    split at moved
    · cases moved
    next called at_ =>
      -- one case for each await of a call
      obtain ⟨request, call⟩ := called
      simp only [advance] at moved
      split at moved
      next thread =>
        cases moved
        exact .startFresh at_ thread
      next thread =>
        cases moved
        exact .startExisting at_ thread
      next =>
        cases moved
        exact .startInvoke at_
      next =>
        split at moved
        next read =>
          cases moved
          exact .resumeAnswer at_ read
        next read =>
          cases moved
          exact .resumeAwaiting at_ read
      next thread =>
        cases moved
        exact .resumeInvoke at_ thread
      next thread =>
        cases moved
        exact .reload at_ thread
      next => cases moved

/-! ## A call that runs alone -/

theorem answered_at {w : ReviewWorld} {index : Nat} {request : ReviewRequest} {call : ReviewCall}
    (call' : ReviewCall) (at_ : w.calls[index]? = some ⟨request, call⟩) :
    (w.answered index request call').calls[index]? = some ⟨request, call'⟩ := by
  obtain ⟨bound, _⟩ := List.getElem?_eq_some_iff.mp at_
  simp [answered, bound]

/-- After the invocation only the exception or the second read is left. -/
theorem finish_invoked {w : ReviewWorld} {index : Nat} {request : ReviewRequest} {call : ReviewCall}
    (services : Services) (invocation : Invocation)
    (at_ : w.calls[index]? = some ⟨request, call⟩) :
    ∃ w', Steps (step schemas home executionId) (w.invoked schemas index request invocation) w' ∧
      w'.thread = some (invocation.outcome schemas).1 ∧
      w'.calls[index]? = some ⟨request, .returned (answer (invocation.outcome schemas))⟩ := by
  have now := answered_at (match (invocation.outcome schemas).2 with
    | .error e => .returned (.error (.graph e))
    | .ok () => .reloading) at_
  cases outcome : (invocation.outcome schemas).2 with
  | error e =>
    rw [outcome] at now
    exact ⟨_, .refl, rfl, by simpa [invoked, answered, answer, outcome] using now⟩
  | ok done =>
    rw [outcome] at now
    have at_ : (w.invoked schemas index request invocation).calls[index]? =
        some ⟨request, .reloading⟩ := by simpa [invoked, answered, outcome] using now
    have moved : step schemas home executionId (w.invoked schemas index request invocation)
        (.advance index services) = some ((w.invoked schemas index request invocation).answered index
          request (.returned (executionFromSnapshot (invocation.outcome schemas).1))) := by
      simp only [step, at_]
      rfl
    refine ⟨_, Steps.snoc .refl moved, rfl, ?_⟩
    simpa [answer, outcome] using answered_at _ at_

/-- From its first read on, a call that nothing interleaves with answers what the call of the
    workflow answers. -/
theorem finish_reading {w : ReviewWorld} {index : Nat} {request : ReviewRequest} (services : Services)
    (at_ : w.calls[index]? = some ⟨request, .reading⟩) :
    ∃ w', Steps (step schemas home executionId) w w' ∧
      w'.thread = (request.perform schemas services executionId w.thread).1 ∧
      w'.calls[index]? =
        some ⟨request, .returned (request.perform schemas services executionId w.thread).2⟩ := by
  have advances (call : ReviewCall) (moved : w.advance schemas executionId index services
      ⟨request, .reading⟩ = some (w.answered index request call)) :
      Steps (step schemas home executionId) w (w.answered index request call) := by
    refine Steps.snoc (a := .advance index services) .refl ?_
    simpa only [step, at_] using moved
  have invokes (invocation : Invocation) (moved : (w.answered index request .invoking).advance
      schemas executionId index services ⟨request, .invoking⟩ =
        some ((w.answered index request .invoking).invoked schemas index request invocation)) :
      Steps (step schemas home executionId) (w.answered index request .invoking)
        ((w.answered index request .invoking).invoked schemas index request invocation) := by
    refine Steps.snoc (a := .advance index services) .refl ?_
    simpa only [step, answered_at .invoking at_] using moved
  cases request with
  | start supplierCase required =>
    cases thread : w.thread with
    | none =>
      have read := advances .invoking (by simp [advance, thread])
      have invoked := invokes (.input services none
        (startInput services supplierCase executionId required)) (by simp [advance, answered, thread])
      obtain ⟨w', finished, thread', answer⟩ := finish_invoked services _ (answered_at .invoking at_)
      exact ⟨w', (read.trans invoked).trans finished, thread', answer⟩
    | some checkpoint =>
      have read := advances (.returned (getExecution (some checkpoint) supplierCase executionId))
        (by simp [advance, thread])
      exact ⟨_, read, thread, answered_at _ at_⟩
  | resume supplierCase confirmation =>
    cases first : resumeRead w.thread supplierCase executionId with
    | some answer =>
      have read := advances (.returned answer) (by simp [advance, first])
      have performed : (ReviewRequest.resume supplierCase confirmation).perform schemas services
          executionId w.thread = (w.thread, answer) := by
        cases thread : w.thread with
        | none =>
          rw [thread] at first
          cases first
          rfl
        | some checkpoint =>
          rw [thread] at first
          simp [ReviewRequest.perform, resume, first]
      rw [performed]
      exact ⟨_, read, rfl, answered_at _ at_⟩
    | none =>
      cases thread : w.thread with
      | none => simp [thread, resumeRead, getExecution] at first
      | some checkpoint =>
        have read := advances .invoking (by simp [advance, first])
        have invoked := invokes ⟨services, checkpoint, some confirmation⟩
          (by simp [advance, answered, thread])
        obtain ⟨w', finished, thread', answer⟩ :=
          finish_invoked services _ (answered_at .invoking at_)
        have performed : (ReviewRequest.resume supplierCase confirmation).perform schemas services
            executionId (some checkpoint) =
              (some (Invocation.outcome schemas ⟨services, checkpoint, some confirmation⟩).1,
                Graphs.answer (Invocation.outcome schemas
                  ⟨services, checkpoint, some confirmation⟩)) := by
          rw [thread] at first
          simp [ReviewRequest.perform, resume, first, Pregel.resume, Invocation.outcome]
        rw [performed]
        exact ⟨w', (read.trans invoked).trans finished, thread', answer⟩

end ReviewWorld

/-! ## The thread is what the last invocation left -/

/-- The state belongs to the execution. -/
structure InScope (home : SupplierCase) (executionId : UUID) (state : ReviewGraphState) : Prop where
  tenantId : state.tenantId = home.tenantId
  caseId : state.caseId = home.id
  executionId : state.executionId = executionId

structure Threaded (schemas : JsonSchemas) (home : SupplierCase) (executionId : UUID)
    (w : ReviewWorld) : Prop where
  last : w.thread = w.invocations.getLast?.map fun i => (i.outcome schemas).1
  ended : ∀ i ∈ w.invocations, Ended schemas i.services (i.visited schemas) (i.outcome schemas)
  inScope : ∀ checkpoint, w.thread = some checkpoint → InScope home executionId checkpoint.values
  admitted : ∀ called ∈ w.calls, called.request.Admitted home

section

variable {schemas : JsonSchemas} {home : SupplierCase} {executionId : UUID}

theorem InScope.outcome {invocation : Invocation}
    (inScope : InScope home executionId invocation.checkpoint.values) :
    InScope home executionId (invocation.outcome schemas).1.values := by
  refine Pregel.run_values (P := InScope home executionId) ?_ _ _ _ inScope
  intro state update kept
  cases update <;> exact ⟨kept.tenantId, kept.caseId, kept.executionId⟩

theorem InScope.startOver (services : Services) (thread : Thread) {supplierCase : SupplierCase}
    (required : Bool) (same : SameCase home supplierCase) :
    InScope home executionId (.startOver (thread.map (·.values))
      (startInput services supplierCase executionId required)) := by
  cases thread with
  | none => exact ⟨same.2, same.1, rfl⟩
  | some checkpoint => exact ⟨same.2, same.1, rfl⟩

/-- A case of the execution passes the check of its scope. -/
theorem InScope.getExecution {checkpoint : ReviewCheckpoint} {supplierCase : SupplierCase}
    (inScope : InScope home executionId checkpoint.values) (same : SameCase home supplierCase) :
    getExecution (some checkpoint) supplierCase executionId = executionFromSnapshot checkpoint := by
  simp [Graphs.getExecution, validateScope, inScope.tenantId, inScope.caseId, inScope.executionId,
    same.1, same.2, bind, Except.bind]

variable {w w' : ReviewWorld}

theorem Threaded.no_invocation (threaded : Threaded schemas home executionId w)
    (fresh : w.thread = none) : w.invocations = [] := by
  have last := threaded.last
  rw [fresh] at last
  simpa using last.symm

theorem Threaded.resting (threaded : Threaded schemas home executionId w)
    {checkpoint : ReviewCheckpoint} (thread : w.thread = some checkpoint) :
    Settled checkpoint ∨ Stuck checkpoint := by
  rw [threaded.last] at thread
  obtain ⟨i, last, rfl⟩ := Option.map_eq_some_iff.mp thread
  exact (threaded.ended i (List.mem_of_getLast? last)).resting

theorem Threaded.answered (threaded : Threaded schemas home executionId w) {index : Nat}
    {request : ReviewRequest} {call : ReviewCall} (call' : ReviewCall)
    (at_ : w.calls[index]? = some ⟨request, call⟩) :
    Threaded schemas home executionId (w.answered index request call') where
  last := threaded.last
  ended := threaded.ended
  inScope := threaded.inScope
  admitted := by
    intro called member
    cases List.mem_or_eq_of_mem_set member with
    | inl old => exact threaded.admitted called old
    | inr new =>
      subst new
      exact threaded.admitted ⟨request, call⟩ (List.mem_of_getElem? at_)

theorem Threaded.invoked (threaded : Threaded schemas home executionId w) {index : Nat}
    {request : ReviewRequest} {call : ReviewCall} {invocation : Invocation}
    (at_ : w.calls[index]? = some ⟨request, call⟩)
    (ended : Ended schemas invocation.services (invocation.visited schemas)
      (invocation.outcome schemas))
    (inScope : InScope home executionId invocation.checkpoint.values) :
    Threaded schemas home executionId (w.invoked schemas index request invocation) where
  last := by simp [ReviewWorld.invoked]
  ended := by
    intro i member
    cases List.mem_append.mp member with
    | inl old => exact threaded.ended i old
    | inr new =>
      cases List.mem_singleton.mp new
      exact ended
  inScope := by
    intro checkpoint thread
    cases thread
    exact inScope.outcome
  admitted := (threaded.answered _ at_).admitted

theorem threaded_step {label : ReviewLabel} (threaded : Threaded schemas home executionId w)
    (moved : ReviewWorld.step schemas home executionId w label = some w') :
    Threaded schemas home executionId w' := by
  cases ReviewWorld.step_moves moved with
  | submit admitted =>
    refine ⟨threaded.last, threaded.ended, threaded.inScope, ?_⟩
    intro called member
    cases List.mem_append.mp member with
    | inl old => exact threaded.admitted called old
    | inr new =>
      cases List.mem_singleton.mp new
      exact admitted
  | startFresh at_ | startExisting at_ | resumeAnswer at_ | resumeAwaiting at_ | reload at_ =>
    exact threaded.answered _ at_
  | startInvoke at_ =>
    have same := threaded.admitted _ (List.mem_of_getElem? at_)
    exact threaded.invoked at_ (invoke_ended ..) (.startOver _ _ _ same)
  | resumeInvoke at_ thread =>
    exact threaded.invoked at_ (resume_ended (threaded.resting thread) _) (threaded.inScope _ thread)

theorem threaded_of_reachable (reachable : ReviewWorld.Reachable schemas home executionId w) :
    Threaded schemas home executionId w := by
  refine StepsWhen.invariant reachable ?_ fun kept _ moved => threaded_step kept moved
  exact ⟨rfl, by simp [ReviewWorld.initial], by simp [ReviewWorld.initial],
    by simp [ReviewWorld.initial]⟩

end

/-! ## Repeating a request -/

/-- The call raised an exception of the backend, or returned an execution that waits for the
    analyst or is over. -/
def Recovers (services : Services) : Except ReviewError ReviewExecution → Prop
  | .error e => ∃ raised, e = .graph (.node raised) ∧ services.Raises raised
  | .ok execution => execution.status = .awaitingInput ∨ execution.status = .completed ∨
      execution.status = .cancelled

def isRunning : Except ReviewError ReviewExecution → Bool
  | .error _ => false
  | .ok execution => execution.status = .running

theorem not_recovers_of_isRunning {services : Services}
    {answer : Except ReviewError ReviewExecution} (running : isRunning answer) :
    ¬ Recovers services answer := by
  cases answer with
  | error e => cases running
  | ok execution =>
    have status : execution.status = .running := by simpa [isRunning] using running
    simp [Recovers, status]

/-- Whatever the backend does then, a start request and — once there is an execution — a
    resume request can be made again. -/
structure Repeatable (schemas : JsonSchemas) (home : SupplierCase) (executionId : UUID)
    (thread : Thread) : Prop where
  start : ∀ services supplierCase required, SameCase home supplierCase →
    Recovers services (start schemas services thread supplierCase executionId required).2
  resume : thread.isSome → ∀ services supplierCase confirmation, SameCase home supplierCase →
    Recovers services (resume schemas services thread supplierCase executionId confirmation).2

section

variable {schemas : JsonSchemas} {home : SupplierCase} {executionId : UUID} {services : Services}
variable {checkpoint : ReviewCheckpoint}

theorem Ended.recovers {checkpoints : List ReviewCheckpoint}
    {result : ReviewCheckpoint × Except (GraphError String) Unit}
    (ended : Ended schemas services checkpoints result) : Recovers services (answer result) := by
  cases ended with
  | returned settled =>
    obtain ⟨execution, eq, finished⟩ := settled.execution
    simpa [answer, eq, Recovers] using finished
  | raised _ raises => exact ⟨_, rfl, raises⟩

theorem repeatable_fresh : Repeatable schemas home executionId none where
  start := by
    intro services supplierCase required _
    exact (invoke_ended none supplierCase executionId required).recovers
  resume := by simp

theorem repeatable_settled (settled : Settled checkpoint)
    (inScope : InScope home executionId checkpoint.values) :
    Repeatable schemas home executionId (some checkpoint) where
  start := by
    intro services supplierCase required same
    obtain ⟨execution, eq, finished⟩ := settled.execution
    simpa [start, inScope.getExecution same, eq, Recovers] using finished
  resume := by
    intro _ services supplierCase confirmation same
    obtain ⟨execution, eq, finished⟩ := settled.execution
    -- A terminal execution is returned as it is; the gate of a waiting one is answered.
    cases status : execution.status with
    | running => simp [status] at finished
    | completed | cancelled =>
      simp [resume, resumeRead, inScope.getExecution same, eq, status, Recovers]
    | awaitingInput =>
      simp only [resume, resumeRead, inScope.getExecution same, eq, status]
      exact (resume_ended (.inl settled) confirmation).recovers

/-- The repeated start of a stuck execution returns it as running. -/
theorem not_repeatable_stuck (stuck : Stuck checkpoint)
    (inScope : InScope home executionId checkpoint.values) :
    ¬ Repeatable schemas home executionId (some checkpoint) := by
  intro repeatable
  obtain ⟨execution, eq, running⟩ := stuck.execution
  have same : SameCase home home := ⟨rfl, rfl⟩
  refine not_recovers_of_isRunning ?_ (repeatable.start
    ⟨"", fun _ => .error "", fun _ => .error "", 0, fun _ => 0, .sortedBy fun _ => 0⟩ home false same)
  simp [start, inScope.getExecution same, eq, isRunning, running]

end

section

variable {schemas : JsonSchemas} {home : SupplierCase} {executionId : UUID} {w : ReviewWorld}

/-- In every state that calls on the execution reach, requests can be repeated exactly when
    the backend answered every call of the last invocation of the graph.  A failed call
    leaves a checkpoint that start and resume both take for a running one. -/
theorem repeatable_iff_last_answered
    (reachable : ReviewWorld.Reachable schemas home executionId w) :
    Repeatable schemas home executionId w.thread ↔
      ∀ invocation ∈ w.invocations.getLast?, invocation.Answered schemas := by
  have threaded := threaded_of_reachable reachable
  cases last : w.invocations.getLast? with
  | none =>
    have fresh : w.thread = none := by simp [threaded.last, last]
    simpa [fresh] using repeatable_fresh
  | some invocation =>
    have thread : w.thread = some (invocation.outcome schemas).1 := by simp [threaded.last, last]
    have inScope := threaded.inScope _ thread
    have ended := threaded.ended invocation (List.mem_of_getLast? last)
    simp only [thread, Option.mem_def, Option.some.injEq, forall_eq']
    generalize invocation.outcome schemas = outcome at ended inScope
    cases ended with
    | returned settled all => exact ⟨fun _ => all, fun _ => repeatable_settled settled inScope⟩
    | raised stuck _ unanswered =>
      constructor
      · intro repeatable
        exact absurd repeatable (not_repeatable_stuck stuck inScope)
      · intro answered
        exact absurd answered unanswered

end

namespace Sample

/-- Where the name of a node stands in the alphabetical order, in which LangGraph merges. -/
def alphabetical : ReviewNode → Nat
  | .evidenceConfirmation => 0
  | .financialReview => 1
  | .legalReview => 2
  | .securityReview => 3
  | .synthesize => 4

/-- A backend that finds nothing and approves. -/
def approving : Services where
  name := "deterministic"
  review _ := .ok []
  synthesize _ := .ok ⟨.approve, "No finding.", [], 1, certain_range⟩
  now := 0
  clock _ := 1
  order := .sortedBy alphabetical

/-- The same with a provider that is down. -/
def unavailable : Services :=
  { approving with review := fun _ => .error "timeout", synthesize := fun _ => .error "timeout" }

/-- A gated start that waits for the analyst. -/
def gatedStart (index : Nat) : List ReviewLabel :=
  [.submit (.start supplierCase true), .advance index approving, .advance index approving,
    .advance index approving]

/-- A confirmation of the evidence. -/
def confirming (index : Nat) (services : Services) : List ReviewLabel :=
  [.submit (.resume supplierCase confirmation), .advance index services, .advance index services,
    .advance index services]

end Sample

open Sample in
theorem repeatable_iff_last_answered_confirmed :
    ∃ w, ReviewWorld.Reachable schemas supplierCase executionId w ∧ w.invocations.length = 2 ∧
      Repeatable schemas supplierCase executionId w.thread := by
  have replayed : ((run (ReviewWorld.step schemas supplierCase executionId) .initial
      (gatedStart 0 ++ confirming 1 approving)).map fun w => decide (w.invocations.length = 2 ∧
        ∀ i ∈ w.invocations.getLast?, i.Answered schemas)) = some true := by decide +kernel
  obtain ⟨w, ran, passed⟩ := Option.map_eq_some_iff.mp replayed
  obtain ⟨two, answered⟩ := of_decide_eq_true passed
  have reachable : ReviewWorld.Reachable schemas supplierCase executionId w := steps_of_run ran
  exact ⟨w, reachable, two, (repeatable_iff_last_answered reachable).mpr answered⟩

open Sample in
/-- A start whose specialists fail: it has returned, and a repeated start returns `running`
    for good. -/
theorem not_repeatable_after_timeout :
    ¬ ∀ (schemas : JsonSchemas) (home : SupplierCase) (executionId : UUID) (w : ReviewWorld),
      ReviewWorld.Reachable schemas home executionId w → w.Quiet →
      Repeatable schemas home executionId w.thread := by
  intro claimed
  have replayed : ((run (ReviewWorld.step schemas supplierCase executionId) .initial
      [.submit (.start supplierCase false), .advance 0 unavailable, .advance 0 unavailable]).map
        fun w => decide w.Quiet &&
          isRunning (start schemas approving w.thread supplierCase executionId false).2) =
      some true := by decide +kernel
  obtain ⟨w, ran, passed⟩ := Option.map_eq_some_iff.mp replayed
  simp only [Bool.and_eq_true, decide_eq_true_eq] at passed
  obtain ⟨quiet, running⟩ := passed
  have repeatable := claimed schemas supplierCase executionId w (steps_of_run ran) quiet
  exact not_recovers_of_isRunning running
    (repeatable.start approving supplierCase false ⟨rfl, rfl⟩)

end SupplierAssurance.Graphs
