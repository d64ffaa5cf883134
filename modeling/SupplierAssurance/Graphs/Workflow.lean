import SupplierAssurance.Graphs.SupplierReview

/-! # `SupplierReviewWorkflow`: start, load and resume

The calls of the workflow on the thread of one execution, each run without another call in
between.  The checkpointer keeps every execution under its own thread, so the thread of
one execution is the state that its calls share.

`Settled` and `Stuck` are the checkpoints at which an invocation of the graph can leave a
thread: it returned, or a backend call of it raised.
-/

namespace SupplierAssurance.Graphs

open Python Lib ModelGateway

inductive ReviewError where
  /-- `ReviewExecutionNotFoundError`. -/
  | notFound
  /-- `ReviewExecutionStateError`: "... is not awaiting analyst input". -/
  | notAwaiting
  /-- "Completed review checkpoint is missing its result". -/
  | missingResult
  | graph (e : GraphError String)

/-- The last checkpoint of a thread, if it has one. -/
abbrev Thread := Option ReviewCheckpoint

def resultFromState (state : ReviewGraphState) : Except ReviewError ReviewResult :=
  match state.recommendation, state.completedAt with
  | some recommendation, some completedAt =>
    .ok {
      reviewId := state.executionId
      caseId := state.caseId
      findings := state.findings
      recommendation := recommendation
      modelBackend := state.modelBackend
      startedAt := state.startedAt
      completedAt := completedAt }
  | _, _ => .error .missingResult

def executionFromSnapshot (snapshot : ReviewCheckpoint) : Except ReviewError ReviewExecution :=
  let state := snapshot.values
  let interrupt := snapshot.interrupts.head?
  let execution (status : ReviewExecutionStatus) (result : Option ReviewResult) : ReviewExecution :=
    ⟨state.executionId, state.caseId, status, interrupt, result⟩
  if state.cancelled then .ok (execution .cancelled none)
  else if state.recommendation.isSome then
    (resultFromState state).map fun result => execution .completed (some result)
  else if interrupt.isSome then .ok (execution .awaitingInput none)
  else .ok (execution .running none)

def validateScope (state : ReviewGraphState) (supplierCase : SupplierCase) (executionId : UUID) :
    Except ReviewError Unit :=
  if state.tenantId ≠ supplierCase.tenantId ∨ state.caseId ≠ supplierCase.id ∨
      state.executionId ≠ executionId then
    .error .notFound
  else .ok ()

def getExecution (thread : Thread) (supplierCase : SupplierCase) (executionId : UUID) :
    Except ReviewError ReviewExecution :=
  match thread with
  | none => .error .notFound
  | some snapshot => do
    validateScope snapshot.values supplierCase executionId
    executionFromSnapshot snapshot

/-- The input of `start`. -/
def startInput (services : Services) (supplierCase : SupplierCase) (executionId : UUID)
    (requireEvidenceConfirmation : Bool) : ReviewGraphState where
  tenantId := supplierCase.tenantId
  caseId := supplierCase.id
  executionId := executionId
  supplierCase := supplierCase
  findings := []
  recommendation := none
  modelBackend := services.name
  startedAt := services.now
  completedAt := none
  requireEvidenceConfirmation := requireEvidenceConfirmation
  evidenceConfirmation := none
  cancelled := false

/-- What the caller of an invocation gets: the execution of the checkpoint it left, or the
    exception. -/
def answer (invoked : ReviewCheckpoint × Except (GraphError String) Unit) :
    Except ReviewError ReviewExecution :=
  match invoked.2 with
  | .error e => .error (.graph e)
  | .ok () => executionFromSnapshot invoked.1

def start (schemas : JsonSchemas) (services : Services) (thread : Thread)
    (supplierCase : SupplierCase) (executionId : UUID) (requireEvidenceConfirmation : Bool) :
    Thread × Except ReviewError ReviewExecution :=
  match thread with
  | some _ => (thread, getExecution thread supplierCase executionId)
  | none =>
    let invoked := (reviewGraph schemas).invoke services recursionLimit none
      (startInput services supplierCase executionId requireEvidenceConfirmation)
    (some invoked.1, answer invoked)

/-- The first half of `resume`: an answer, or `none` to go on and invoke the graph. -/
def resumeRead (thread : Thread) (supplierCase : SupplierCase) (executionId : UUID) :
    Option (Except ReviewError ReviewExecution) :=
  match getExecution thread supplierCase executionId with
  | .error e => some (.error e)
  | .ok current =>
    match current.status with
    | .completed | .cancelled => some (.ok current)
    | .running => some (.error .notAwaiting)
    | .awaitingInput => none

def resume (schemas : JsonSchemas) (services : Services) (thread : Thread)
    (supplierCase : SupplierCase) (executionId : UUID) (confirmation : EvidenceConfirmation) :
    Thread × Except ReviewError ReviewExecution :=
  match thread, resumeRead thread supplierCase executionId with
  | none, _ => (thread, .error .notFound)
  | _, some answered => (thread, answered)
  | some checkpoint, none =>
    let invoked := (reviewGraph schemas).resume services recursionLimit checkpoint confirmation
    (some invoked.1, answer invoked)

/-! ## The checkpoints that an invocation leaves -/

structure Undecided (state : ReviewGraphState) : Prop where
  cancelled : state.cancelled = false
  recommendation : state.recommendation = none

/-- What an invocation that returned leaves. -/
inductive Settled (checkpoint : ReviewCheckpoint) : Prop
  | awaiting {request : ReviewInterrupt} : checkpoint.next = [.evidenceConfirmation] →
      checkpoint.interrupts = [request] → Undecided checkpoint.values → Settled checkpoint
  | cancelled : checkpoint.next = [] → checkpoint.values.cancelled = true → Settled checkpoint
  | completed {recommendation : Recommendation} {completedAt : Datetime} : checkpoint.next = [] →
      checkpoint.values.cancelled = false →
      checkpoint.values.recommendation = some recommendation →
      checkpoint.values.completedAt = some completedAt → Settled checkpoint

/-- What an invocation leaves in which a backend call raised. -/
structure Stuck (checkpoint : ReviewCheckpoint) : Prop where
  next : checkpoint.next = specialistNodes ∨ checkpoint.next = [.synthesize]
  interrupts : checkpoint.interrupts = []
  undecided : Undecided checkpoint.values

theorem Settled.execution {checkpoint : ReviewCheckpoint} (settled : Settled checkpoint) :
    ∃ execution, executionFromSnapshot checkpoint = .ok execution ∧
      (execution.status = .awaitingInput ∨ execution.status = .completed ∨
        execution.status = .cancelled) := by
  cases settled with
  | awaiting _ interrupts undecided =>
    simp [executionFromSnapshot, undecided.cancelled, undecided.recommendation, interrupts]
  | cancelled _ cancelled => simp [executionFromSnapshot, cancelled]
  | completed _ cancelled recommendation completedAt =>
    simp [executionFromSnapshot, resultFromState, cancelled, recommendation, completedAt, Except.map]

theorem Stuck.execution {checkpoint : ReviewCheckpoint} (stuck : Stuck checkpoint) :
    ∃ execution, executionFromSnapshot checkpoint = .ok execution ∧
      execution.status = .running := by
  simp [executionFromSnapshot, stuck.undecided.cancelled, stuck.undecided.recommendation,
    stuck.interrupts]

/-! ## Backend calls -/

section

variable (schemas : JsonSchemas) (services : Services)

/-- The backend answers the call of a node, if it makes one. -/
def ReviewNode.answered (state : ReviewGraphState) : ReviewNode → Bool
  | .securityReview => (services.review (specialistRequest schemas state .securityReview)).isOk
  | .legalReview => (services.review (specialistRequest schemas state .legalReview)).isOk
  | .financialReview => (services.review (specialistRequest schemas state .financialReview)).isOk
  | .evidenceConfirmation => true
  | .synthesize => (services.synthesize (synthesisRequest schemas state)).isOk

/-- The findings that a specialist gets from the backend. -/
def rawBatch (state : ReviewGraphState) (task : ModelTask) : List Finding :=
  match services.review (specialistRequest schemas state task) with
  | .ok findings => findings
  | .error _ => []

/-- The backend answers every call that is made at these checkpoints. -/
def AllAnswered (checkpoints : List ReviewCheckpoint) : Prop :=
  ∀ checkpoint ∈ checkpoints, ∀ node ∈ checkpoint.next, node.answered schemas services checkpoint.values

instance (checkpoints : List ReviewCheckpoint) : Decidable (AllAnswered schemas services checkpoints) :=
  inferInstanceAs (Decidable (∀ checkpoint ∈ checkpoints, ∀ node ∈ checkpoint.next, _))

/-- `e` is an exception of the backend. -/
def Services.Raises (e : String) : Prop :=
  ∃ request, services.review request = .error e ∨ services.synthesize request = .error e

/-- How an invocation ends that takes its super-steps at `checkpoints`. -/
inductive Ended (checkpoints : List ReviewCheckpoint) :
    ReviewCheckpoint × Except (GraphError String) Unit → Prop
  | returned {checkpoint : ReviewCheckpoint} : Settled checkpoint →
      AllAnswered schemas services checkpoints → Ended checkpoints (checkpoint, .ok ())
  | raised {checkpoint : ReviewCheckpoint} {e : String} : Stuck checkpoint →
      services.Raises e → ¬ AllAnswered schemas services checkpoints →
      Ended checkpoints (checkpoint, .error (.node e))

end

variable {schemas : JsonSchemas} {services : Services}

theorem ReviewNode.run_raise_iff {node : ReviewNode} {state : ReviewGraphState}
    {value : Option EvidenceConfirmation} :
    (∃ e, node.run schemas services state value = .raise e) ↔
      node.answered schemas services state = false := by
  cases node with
  | securityReview | legalReview | financialReview =>
    simp only [run, specialistNode, runSpecialist, answered]
    cases services.review _ <;> simp [Except.map, Except.isOk, Except.toBool]
  | evidenceConfirmation =>
    simp only [run, confirmationNode, answered]
    cases value <;> split <;> simp
  | synthesize =>
    simp only [run, synthesizeNode, answered]
    cases services.synthesize _ <;> simp [Except.isOk, Except.toBool]

/-- A node only passes exceptions of the backend on. -/
theorem ReviewNode.raises_of_run {node : ReviewNode} {state : ReviewGraphState}
    {value : Option EvidenceConfirmation} {e : String}
    (raised : node.run schemas services state value = .raise e) : services.Raises e := by
  cases node with
  | securityReview | legalReview | financialReview =>
    simp only [run, specialistNode, runSpecialist] at raised
    cases asked : services.review _ with
    | error e' =>
      rw [asked] at raised
      simp only [Except.map, Outcome.raise.injEq] at raised
      exact ⟨_, .inl (raised ▸ asked)⟩
    | ok => rw [asked] at raised; cases raised
  | evidenceConfirmation =>
    simp only [run, confirmationNode] at raised
    cases value <;> split at raised <;> cases raised
  | synthesize =>
    simp only [run, synthesizeNode] at raised
    cases asked : services.synthesize _ with
    | error e' =>
      rw [asked] at raised
      simp only [Outcome.raise.injEq] at raised
      exact ⟨_, .inr (raised ▸ asked)⟩
    | ok => rw [asked] at raised; cases raised

/-! ## How invocations end

From each set of pending nodes, backwards along the edges. -/

theorem Ended.cons {checkpoint : ReviewCheckpoint} {checkpoints : List ReviewCheckpoint}
    {result : ReviewCheckpoint × Except (GraphError String) Unit}
    (answered : ∀ node ∈ checkpoint.next, node.answered schemas services checkpoint.values)
    (ended : Ended schemas services checkpoints result) :
    Ended schemas services (checkpoint :: checkpoints) result := by
  cases ended with
  | returned settled all => exact .returned settled (by simpa [AllAnswered] using ⟨answered, all⟩)
  | raised stuck raises unanswered =>
    refine .raised stuck raises ?_
    intro all
    exact unanswered fun checkpoint' member => all checkpoint' (List.mem_cons_of_mem _ member)

variable {checkpoint : ReviewCheckpoint} {value : Option EvidenceConfirmation} {limit : Nat}

/-- A pending node whose backend call fails ends the invocation where it stands. -/
theorem ended_unanswered {node : ReviewNode} (stuck : Stuck checkpoint)
    (pending : node ∈ checkpoint.next)
    (unanswered : node.answered schemas services checkpoint.values = false) :
    Ended schemas services ((reviewGraph schemas).visited services (limit + 1) value checkpoint)
      ((reviewGraph schemas).run services (limit + 1) value checkpoint) := by
  obtain ⟨e, raised⟩ := ReviewNode.run_raise_iff.mpr unanswered
  obtain ⟨e', stepped, node', _, raised'⟩ := Pregel.superStep_raise (reviewGraph schemas)
    services value pending raised
  have nonempty := List.ne_nil_of_mem pending
  rw [Pregel.visited_raised nonempty stepped, Pregel.run_raised nonempty stepped]
  refine .raised stuck (ReviewNode.raises_of_run raised') ?_
  intro all
  have answered := all checkpoint List.mem_cons_self node pending
  simp [unanswered] at answered

theorem ended_idle (idle : checkpoint.next = []) (settled : Settled checkpoint) :
    Ended schemas services ((reviewGraph schemas).visited services (limit + 1) value checkpoint)
      ((reviewGraph schemas).run services (limit + 1) value checkpoint) := by
  rw [Pregel.visited_idle idle, Pregel.run_idle idle]
  exact .returned settled (by simp [AllAnswered])

/-- When the super-step advances, the invocation ends as it does from the next checkpoint. -/
theorem ended_advanced {checkpoint' : ReviewCheckpoint} (pending : checkpoint.next ≠ [])
    (answered : ∀ node ∈ checkpoint.next, node.answered schemas services checkpoint.values)
    (advanced : (reviewGraph schemas).superStep services checkpoint value = .advanced checkpoint')
    (ended : Ended schemas services ((reviewGraph schemas).visited services limit none checkpoint')
      ((reviewGraph schemas).run services limit none checkpoint')) :
    Ended schemas services ((reviewGraph schemas).visited services (limit + 1) value checkpoint)
      ((reviewGraph schemas).run services (limit + 1) value checkpoint) := by
  rw [Pregel.visited_advanced pending advanced, Pregel.run_advanced pending advanced]
  exact ended.cons answered

theorem ended_synthesize (next : checkpoint.next = [.synthesize])
    (interrupts : checkpoint.interrupts = []) (undecided : Undecided checkpoint.values) :
    Ended schemas services ((reviewGraph schemas).visited services (limit + 2) value checkpoint)
      ((reviewGraph schemas).run services (limit + 2) value checkpoint) := by
  by_cases answered : ReviewNode.synthesize.answered schemas services checkpoint.values
  · cases asked : services.synthesize (synthesisRequest schemas checkpoint.values) with
    | error e => simp [ReviewNode.answered, asked, Except.isOk, Except.toBool] at answered
    | ok recommendation =>
      refine ended_advanced (by simp [next]) (by simp [next, answered])
        (Pregel.superStep_update (u := .recommendation recommendation (services.clock .synthesize))
          next ?_) ?_
      · simp [reviewGraph, ReviewNode.run, synthesizeNode, asked]
      · have idle : edges (checkpoint.values.merge (.recommendation recommendation
            (services.clock .synthesize))) [.synthesize] = [] := by
          simp [edges, specialistNodes]
        exact ended_idle idle (.completed idle undecided.cancelled rfl rfl)
  · have pending : ReviewNode.synthesize ∈ checkpoint.next := by simp [next]
    exact ended_unanswered ⟨.inr next, interrupts, undecided⟩ pending (by simpa using answered)

/-- The gate, with the value of a resume or without one. -/
theorem ended_confirmation (next : checkpoint.next = [.evidenceConfirmation])
    (undecided : Undecided checkpoint.values) :
    Ended schemas services ((reviewGraph schemas).visited services (limit + 3) value checkpoint)
      ((reviewGraph schemas).run services (limit + 3) value checkpoint) := by
  have pending : checkpoint.next ≠ [] := by simp [next]
  have answered : ∀ node ∈ checkpoint.next, node.answered schemas services checkpoint.values := by
    simp [next, ReviewNode.answered]
  by_cases required : checkpoint.values.requireEvidenceConfirmation
  · cases value with
    | none =>
      have paused := Pregel.superStep_interrupt (reviewGraph schemas) services none
        (i := interruptRequest checkpoint.values) next
        (by simp [reviewGraph, ReviewNode.run, confirmationNode, required])
      rw [Pregel.visited_paused pending paused, Pregel.run_paused pending paused]
      exact .returned (.awaiting next rfl undecided) (by simpa [AllAnswered] using answered)
    | some response =>
      refine ended_advanced pending answered (Pregel.superStep_update
        (u := .confirmation response (response.decision = .reject)
          (if response.decision = .reject then some (services.clock .evidenceConfirmation)
           else none)) next ?_) ?_
      · simp [reviewGraph, ReviewNode.run, confirmationNode, required]
      · by_cases rejected : response.decision = .reject
        · -- A rejection ends the execution; nothing is triggered.
          refine ended_idle ?_ (.cancelled ?_ ?_) <;>
            simp [reviewGraph, edges, specialistNodes, ReviewGraphState.merge, rejected]
        · refine ended_synthesize ?_ rfl ⟨?_, undecided.recommendation⟩ <;>
            simp [reviewGraph, edges, specialistNodes, ReviewGraphState.merge, rejected]
  · refine ended_advanced pending answered (Pregel.superStep_update (u := .nothing) next ?_) ?_
    · simp [reviewGraph, ReviewNode.run, confirmationNode, required]
    · refine ended_synthesize ?_ rfl undecided
      simp [reviewGraph, edges, specialistNodes, ReviewGraphState.merge, undecided.cancelled]

/-- A specialist whose call is answered returns the batch of its task. -/
theorem ReviewNode.run_specialist {node : ReviewNode} {state : ReviewGraphState}
    (value : Option EvidenceConfirmation) (specialist : node ∈ specialistNodes)
    (answered : node.answered schemas services state) :
    ∃ task, node.specialistTask = some task ∧ node.run schemas services state value =
      .update (.findings ((rawBatch schemas services state task).map
        (storedFinding state.executionId))) := by
  have updates (task : ModelTask)
      (ok : (services.review (specialistRequest schemas state task)).isOk) :
      specialistNode schemas services state task =
        .update (.findings ((rawBatch schemas services state task).map
          (storedFinding state.executionId))) := by
    simp only [specialistNode, runSpecialist, rawBatch]
    cases asked : services.review (specialistRequest schemas state task) with
    | error e => simp [asked, Except.isOk, Except.toBool] at ok
    | ok findings => rfl
  cases node with
  | securityReview | legalReview | financialReview => exact ⟨_, rfl, updates _ answered⟩
  | evidenceConfirmation | synthesize => simp [specialistNodes] at specialist

/-- Answered specialists that are merged in some order. -/
theorem map_run_specialists {nodes : List ReviewNode} {state : ReviewGraphState}
    (value : Option EvidenceConfirmation) (specialists : ∀ node ∈ nodes, node ∈ specialistNodes)
    (answered : ∀ node ∈ nodes, node.answered schemas services state) :
    (nodes.map fun node => node.run schemas services state value) =
      ((nodes.filterMap ReviewNode.specialistTask).map fun task => ReviewUpdate.findings
        ((rawBatch schemas services state task).map (storedFinding state.executionId))).map .update := by
  induction nodes with
  | nil => rfl
  | cons node nodes ih =>
    obtain ⟨task, isTask, ran⟩ := ReviewNode.run_specialist value
      (specialists node List.mem_cons_self) (answered node List.mem_cons_self)
    have rest := ih (fun node member => specialists node (List.mem_cons_of_mem _ member))
      fun node member => answered node (List.mem_cons_of_mem _ member)
    simp only [List.map_cons, List.filterMap_cons, isTask, ran, rest]

theorem merge_findings (batch : ModelTask → List Finding) (tasks : List ModelTask)
    (state : ReviewGraphState) :
    (tasks.map fun task => ReviewUpdate.findings (batch task)).foldl ReviewGraphState.merge state =
      { state with findings := state.findings ++ tasks.flatMap batch } := by
  induction tasks generalizing state with
  | nil => simp
  | cons task tasks ih =>
    simp only [List.map_cons, List.foldl_cons, ih, ReviewGraphState.merge, List.flatMap_cons,
      List.append_assoc]

/-- The three batches of findings are appended in the order in which the nodes are merged. -/
theorem specialists_superStep (next : checkpoint.next = specialistNodes)
    (answered : ∀ node ∈ checkpoint.next, node.answered schemas services checkpoint.values) :
    (reviewGraph schemas).superStep services checkpoint value =
      .advanced ⟨{ checkpoint.values with
        findings := checkpoint.values.findings ++ services.specialists.flatMap fun task =>
          (rawBatch schemas services checkpoint.values task).map
            (storedFinding checkpoint.values.executionId) }, [.evidenceConfirmation], []⟩ := by
  have arranged (node : ReviewNode) (member : node ∈ services.order.arrange specialistNodes) :
      node ∈ specialistNodes := services.order.mem_arrange.mp member
  have ended : (reviewGraph schemas).outcomes services checkpoint value =
      (services.specialists.map fun task => ReviewUpdate.findings
        ((rawBatch schemas services checkpoint.values task).map
          (storedFinding checkpoint.values.executionId))).map .update := by
    simp only [Pregel.outcomes, next]
    exact map_run_specialists value arranged fun node member =>
      answered node (next.symm ▸ arranged node member)
  rw [Pregel.superStep_updates _ ended]
  simp only [reviewGraph, next, merge_findings]
  rfl

theorem ended_specialists (next : checkpoint.next = specialistNodes)
    (interrupts : checkpoint.interrupts = []) (undecided : Undecided checkpoint.values) :
    Ended schemas services ((reviewGraph schemas).visited services (limit + 4) value checkpoint)
      ((reviewGraph schemas).run services (limit + 4) value checkpoint) := by
  by_cases answered : ∀ node ∈ checkpoint.next, node.answered schemas services checkpoint.values
  · refine ended_advanced (by simp [next, specialistNodes]) answered
      (specialists_superStep next answered) ?_
    exact ended_confirmation rfl ⟨undecided.cancelled, undecided.recommendation⟩
  · obtain ⟨node, pending, unanswered⟩ : ∃ node ∈ checkpoint.next,
        node.answered schemas services checkpoint.values = false := by
      simpa using answered
    exact ended_unanswered ⟨.inl next, interrupts, undecided⟩ pending unanswered

/-- A new input starts over at the specialists, whatever the thread holds. -/
theorem invoke_ended (thread : Thread) (supplierCase : SupplierCase) (executionId : UUID)
    (required : Bool) :
    Ended schemas services
      ((reviewGraph schemas).visited services recursionLimit none
        ⟨ReviewGraphState.startOver (thread.map (·.values))
          (startInput services supplierCase executionId required), specialistNodes, []⟩)
      ((reviewGraph schemas).invoke services recursionLimit thread
        (startInput services supplierCase executionId required)) := by
  refine ended_specialists rfl rfl ?_
  cases thread with
  | none => exact ⟨rfl, rfl⟩
  | some checkpoint => exact ⟨rfl, rfl⟩

theorem resume_ended (resting : Settled checkpoint ∨ Stuck checkpoint)
    (confirmation : EvidenceConfirmation) :
    Ended schemas services
      ((reviewGraph schemas).visited services recursionLimit (some confirmation) checkpoint)
      ((reviewGraph schemas).resume services recursionLimit checkpoint confirmation) := by
  cases resting with
  | inl settled =>
    cases settled with
    | awaiting next _ undecided => exact ended_confirmation next undecided
    | cancelled idle cancelled => exact ended_idle idle (.cancelled idle cancelled)
    | completed idle cancelled recommendation completedAt =>
      exact ended_idle idle (.completed idle cancelled recommendation completedAt)
  | inr stuck =>
    cases stuck.next with
    | inl next => exact ended_specialists next stuck.interrupts stuck.undecided
    | inr next => exact ended_synthesize next stuck.interrupts stuck.undecided

/-! ## The gate -/

/-- The execution waits for the analyst. -/
structure Awaits (checkpoint : ReviewCheckpoint) : Prop where
  next : checkpoint.next = [.evidenceConfirmation]
  interrupts : ∃ request, checkpoint.interrupts = [request]
  undecided : Undecided checkpoint.values
  required : checkpoint.values.requireEvidenceConfirmation = true
  unanswered : checkpoint.values.evidenceConfirmation = none

variable (schemas services) in
theorem Awaits.superStep (awaits : Awaits checkpoint) (response : EvidenceConfirmation) :
    (reviewGraph schemas).superStep services checkpoint (some response) =
      .advanced ⟨checkpoint.values.merge (.confirmation response (response.decision = .reject)
        (if response.decision = .reject then some (services.clock .evidenceConfirmation) else none)),
        if response.decision = .reject then [] else [.synthesize], []⟩ := by
  rw [Pregel.superStep_update (u := .confirmation response (response.decision = .reject)
    (if response.decision = .reject then some (services.clock .evidenceConfirmation) else none))
    awaits.next]
  · simp [reviewGraph, edges, specialistNodes, ReviewGraphState.merge]
  · simp [reviewGraph, ReviewNode.run, confirmationNode, awaits.required]

/-- A rejection cancels the execution. -/
theorem Awaits.resume_reject (awaits : Awaits checkpoint) {response : EvidenceConfirmation}
    (rejected : response.decision = .reject) :
    (reviewGraph schemas).resume services recursionLimit checkpoint response =
      (⟨checkpoint.values.merge (.confirmation response true
        (some (services.clock .evidenceConfirmation))), [], []⟩, .ok ()) := by
  have advanced := awaits.superStep schemas services response
  simp only [rejected, decide_true, if_true] at advanced
  have pending : checkpoint.next ≠ [] := by simp [awaits.next]
  exact (Pregel.run_advanced pending advanced).trans (Pregel.run_idle rfl)

/-- A confirmation goes on to the synthesis, which completes the execution or raises. -/
theorem Awaits.resume_confirm (awaits : Awaits checkpoint) {response : EvidenceConfirmation}
    (confirmed : response.decision = .confirm) :
    (reviewGraph schemas).resume services recursionLimit checkpoint response =
      let values := checkpoint.values.merge (.confirmation response false none)
      match services.synthesize (synthesisRequest schemas values) with
      | .error e => (⟨values, [.synthesize], []⟩, .error (.node e))
      | .ok recommendation =>
        (⟨values.merge (.recommendation recommendation (services.clock .synthesize)), [], []⟩,
          .ok ()) := by
  have advanced := awaits.superStep schemas services response
  simp only [confirmed, reduceCtorEq, decide_false, if_false] at advanced
  have pending : checkpoint.next ≠ [] := by simp [awaits.next]
  refine (Pregel.run_advanced pending advanced).trans ?_
  cases asked : services.synthesize (synthesisRequest schemas
    (checkpoint.values.merge (.confirmation response false none))) with
  | error e =>
    have raised : (reviewGraph schemas).superStep services
        ⟨checkpoint.values.merge (.confirmation response false none), [.synthesize], []⟩ none =
          .raised e := by
      simp [Pregel.superStep, Pregel.outcomes, reviewGraph, ReviewNode.run, synthesizeNode, asked,
        Pregel.gather]
    simpa [asked] using Pregel.run_raised (by simp) raised
  | ok recommendation =>
    have advanced' : (reviewGraph schemas).superStep services
        ⟨checkpoint.values.merge (.confirmation response false none), [.synthesize], []⟩ none =
          .advanced _ :=
      Pregel.superStep_update (u := .recommendation recommendation (services.clock .synthesize)) rfl
        (by simp [reviewGraph, ReviewNode.run, synthesizeNode, asked])
    refine (Pregel.run_advanced (by simp) advanced').trans ?_
    rw [Pregel.run_idle (by simp [reviewGraph, edges, specialistNodes])]
    simp [asked, reviewGraph, edges, specialistNodes]

theorem Ended.resting {checkpoints : List ReviewCheckpoint}
    {result : ReviewCheckpoint × Except (GraphError String) Unit}
    (ended : Ended schemas services checkpoints result) : Settled result.1 ∨ Stuck result.1 := by
  cases ended with
  | returned settled => exact .inl settled
  | raised stuck => exact .inr stuck

end SupplierAssurance.Graphs
