import SupplierAssurance.Graphs.ConcurrentStarts

/-! # One client of a review execution

Start, load and resume calls on one execution, one after the other.  Every call comes with
services of its own, so the process may have been restarted in between with another
backend; the checkpointer, and with it the thread, is shared.  The backend answers every
call with a schema-valid output.

`log` records for each call what it sent to the backend, with the outputs, and what it
answered.  `Phase` is where the execution stands: fresh, waiting at the gate, cancelled or
completed, each with what the log then holds.
-/

namespace SupplierAssurance.Graphs

open Python Lib ModelGateway

inductive ClientCall where
  | start (supplierCase : SupplierCase) (requireEvidenceConfirmation : Bool)
  | get (supplierCase : SupplierCase)
  | resume (supplierCase : SupplierCase) (confirmation : EvidenceConfirmation)

def ClientCall.supplierCase : ClientCall → SupplierCase
  | .start supplierCase _ | .get supplierCase | .resume supplierCase _ => supplierCase

/-- `require_evidence_confirmation` of a start. -/
def ClientCall.required : ClientCall → Option Bool
  | .start _ required => some required
  | .get _ | .resume _ _ => none

def ClientCall.perform (schemas : JsonSchemas) (services : Services) (executionId : UUID)
    (thread : Thread) : ClientCall → Thread × Except ReviewError ReviewExecution
  | .start supplierCase required =>
    Graphs.start schemas services thread supplierCase executionId required
  | .get supplierCase => (thread, getExecution thread supplierCase executionId)
  | .resume supplierCase confirmation =>
    Graphs.resume schemas services thread supplierCase executionId confirmation

/-- The invocation of the graph that a call makes. -/
def ClientCall.invocation (services : Services) (executionId : UUID) (thread : Thread) :
    ClientCall → Option Invocation
  | .start supplierCase required =>
    match thread with
    | none => some (.input services none (startInput services supplierCase executionId required))
    | some _ => none
  | .get _ => none
  | .resume supplierCase confirmation =>
    match thread, resumeRead thread supplierCase executionId with
    | some checkpoint, none => some ⟨services, checkpoint, some confirmation⟩
    | _, _ => none

/-! ## What is sent to the backend -/

/-- One `generate` call with its validated output. -/
inductive Exchange where
  | review (task : ModelTask) (request : ModelRequest) (output : Except String (List Finding))
  | synthesis (request : ModelRequest) (output : Except String Recommendation)

def Exchange.task : Exchange → ModelTask
  | .review task _ _ => task
  | .synthesis _ _ => .synthesize

section

variable (schemas : JsonSchemas) (services : Services)

def reviewExchange (state : ReviewGraphState) (task : ModelTask) : Exchange :=
  .review task (specialistRequest schemas state task)
    (services.review (specialistRequest schemas state task))

def synthesisExchange (state : ReviewGraphState) : Exchange :=
  .synthesis (synthesisRequest schemas state) (services.synthesize (synthesisRequest schemas state))

/-- The `generate` call of a node. -/
def ReviewNode.exchange (state : ReviewGraphState) : ReviewNode → Option Exchange
  | .securityReview => some (reviewExchange schemas services state .securityReview)
  | .legalReview => some (reviewExchange schemas services state .legalReview)
  | .financialReview => some (reviewExchange schemas services state .financialReview)
  | .evidenceConfirmation => none
  | .synthesize => some (synthesisExchange schemas services state)

/-- The `generate` calls of an invocation: those of the nodes of its super-steps. -/
def Invocation.exchanges (invocation : Invocation) : List Exchange :=
  (invocation.visited schemas).flatMap fun checkpoint =>
    checkpoint.next.filterMap (ReviewNode.exchange schemas invocation.services checkpoint.values)

end

/-- The `generate` calls of a call of the workflow. -/
def ClientCall.exchanges (schemas : JsonSchemas) (services : Services) (executionId : UUID)
    (thread : Thread) (call : ClientCall) : List Exchange :=
  match call.invocation services executionId thread with
  | none => []
  | some invocation => invocation.exchanges schemas

/-! ## Runs of calls -/

structure Entry where
  call : ClientCall
  exchanges : List Exchange
  answer : Except ReviewError ReviewExecution

structure Client where
  thread : Thread
  log : List Entry

namespace Client

def initial : Client := ⟨none, []⟩

def step (schemas : JsonSchemas) (executionId : UUID) (client : Client)
    (label : ClientCall × Services) : Option Client :=
  let (call, services) := label
  let (thread, answer) := call.perform schemas services executionId client.thread
  some ⟨thread, client.log ++ [⟨call, call.exchanges schemas services executionId client.thread, answer⟩]⟩

/-- The backend of the call answers with schema-valid outputs. -/
def ValidBackend (_ : Client) (label : ClientCall × Services) : Prop :=
  label.2.Valid

def exchanges (client : Client) : List Exchange :=
  client.log.flatMap Entry.exchanges

/-- `require_evidence_confirmation` of the first start. -/
def required (client : Client) : Option Bool :=
  client.log.findSome? (·.call.required)

end Client

/-! ## Invocations with a valid backend

What each of them leaves, and the checkpoints at which it takes its super-steps. -/

section

variable {schemas : JsonSchemas} {services : Services} {checkpoint : ReviewCheckpoint} {limit : Nat}

theorem Services.Valid.synthesized (valid : services.Valid) (request : ModelRequest) :
    ∃ recommendation, services.synthesize request = .ok recommendation := by
  have answered := valid.synthesize request
  cases asked : services.synthesize request with
  | error e => simp [asked, Except.isOk, Except.toBool] at answered
  | ok recommendation => exact ⟨recommendation, rfl⟩

theorem Services.Valid.reviewed (valid : services.Valid) (state : ReviewGraphState)
    (task : ModelTask) :
    services.review (specialistRequest schemas state task) =
      .ok (rawBatch schemas services state task) := by
  have answered := valid.review (specialistRequest schemas state task)
  cases asked : services.review (specialistRequest schemas state task) with
  | error e => simp [asked, Except.isOk, Except.toBool] at answered
  | ok findings => simp [rawBatch, asked]

variable (limit) in
theorem synthesize_run (checkpoint : ReviewCheckpoint) (value : Option EvidenceConfirmation)
    {recommendation : Recommendation} (next : checkpoint.next = [.synthesize])
    (asked : services.synthesize (synthesisRequest schemas checkpoint.values) = .ok recommendation) :
    (reviewGraph schemas).run services (limit + 2) value checkpoint =
        (⟨checkpoint.values.merge (.recommendation recommendation (services.clock .synthesize)), [], []⟩,
          .ok ()) ∧
      (reviewGraph schemas).visited services (limit + 2) value checkpoint = [checkpoint] := by
  have pending : checkpoint.next ≠ [] := by simp [next]
  have advanced : (reviewGraph schemas).superStep services checkpoint value = .advanced
      ⟨checkpoint.values.merge (.recommendation recommendation (services.clock .synthesize)), [], []⟩ := by
    rw [Pregel.superStep_update (u := .recommendation recommendation (services.clock .synthesize)) next]
    · simp [reviewGraph, edges, specialistNodes]
    · simp [reviewGraph, ReviewNode.run, synthesizeNode, asked]
  rw [Pregel.run_advanced pending advanced, Pregel.visited_advanced pending advanced,
    Pregel.run_idle rfl, Pregel.visited_idle rfl]
  exact ⟨rfl, rfl⟩

variable (schemas services limit) in
/-- The gate interrupts when confirmation is required. -/
theorem gate_run_required (checkpoint : ReviewCheckpoint) (next : checkpoint.next = [.evidenceConfirmation])
    (required : checkpoint.values.requireEvidenceConfirmation = true) :
    (reviewGraph schemas).run services (limit + 1) none checkpoint =
        ({ checkpoint with interrupts := [interruptRequest checkpoint.values] }, .ok ()) ∧
      (reviewGraph schemas).visited services (limit + 1) none checkpoint = [checkpoint] := by
  have pending : checkpoint.next ≠ [] := by simp [next]
  have paused := Pregel.superStep_interrupt (reviewGraph schemas) services none
    (i := interruptRequest checkpoint.values) next
    (by simp [reviewGraph, ReviewNode.run, confirmationNode, required])
  rw [Pregel.run_paused pending paused, Pregel.visited_paused pending paused]
  exact ⟨rfl, rfl⟩

variable (schemas services limit) in
/-- The gate lets the execution pass when confirmation is not required. -/
theorem gate_run_free (checkpoint : ReviewCheckpoint) (next : checkpoint.next = [.evidenceConfirmation])
    (free : checkpoint.values.requireEvidenceConfirmation = false)
    (open_ : checkpoint.values.cancelled = false) :
    (reviewGraph schemas).run services (limit + 1) none checkpoint =
        (reviewGraph schemas).run services limit none ⟨checkpoint.values, [.synthesize], []⟩ ∧
      (reviewGraph schemas).visited services (limit + 1) none checkpoint =
        checkpoint :: (reviewGraph schemas).visited services limit none
          ⟨checkpoint.values, [.synthesize], []⟩ := by
  have pending : checkpoint.next ≠ [] := by simp [next]
  have advanced : (reviewGraph schemas).superStep services checkpoint none =
      .advanced ⟨checkpoint.values, [.synthesize], []⟩ := by
    rw [Pregel.superStep_update (u := .nothing) next]
    · simp [reviewGraph, edges, specialistNodes, ReviewGraphState.merge, open_]
    · simp [reviewGraph, ReviewNode.run, confirmationNode, free]
  rw [Pregel.run_advanced pending advanced, Pregel.visited_advanced pending advanced]
  exact ⟨rfl, rfl⟩

/-- The state after the specialists. -/
def reviewedState (schemas : JsonSchemas) (services : Services) (state : ReviewGraphState) :
    ReviewGraphState :=
  { state with
    findings := state.findings ++ services.specialists.flatMap fun task =>
      (rawBatch schemas services state task).map (storedFinding state.executionId) }

variable (schemas) in
/-- The specialists run, and the gate is next. -/
theorem input_run (valid : services.Valid) (input : ReviewGraphState) :
    (Invocation.input services none input).outcome schemas =
        (reviewGraph schemas).run services 24 none
          ⟨reviewedState schemas services input, [.evidenceConfirmation], []⟩ ∧
      (Invocation.input services none input).visited schemas =
        ⟨input, specialistNodes, []⟩ :: (reviewGraph schemas).visited services 24 none
          ⟨reviewedState schemas services input, [.evidenceConfirmation], []⟩ := by
  have pending : (Invocation.input services none input).checkpoint.next ≠ [] := by
    simp [Invocation.input, specialistNodes]
  have answered : ∀ node ∈ (Invocation.input services none input).checkpoint.next,
      node.answered schemas services (Invocation.input services none input).checkpoint.values :=
    fun node _ => node.answered_of_valid valid _
  exact ⟨Pregel.run_advanced pending (specialists_superStep rfl answered),
    Pregel.visited_advanced pending (specialists_superStep rfl answered)⟩

theorem specialists_exchanges (state : ReviewGraphState) :
    specialistNodes.filterMap (ReviewNode.exchange schemas services state) =
      ModelTask.specialists.map (reviewExchange schemas services state) := rfl

variable (schemas) in
/-- A start that requires confirmation stops at the gate. -/
theorem input_required (valid : services.Valid) (input : ReviewGraphState)
    (required : input.requireEvidenceConfirmation = true) :
    (Invocation.input services none input).outcome schemas =
        (⟨reviewedState schemas services input, [.evidenceConfirmation],
          [interruptRequest (reviewedState schemas services input)]⟩, .ok ()) ∧
      (Invocation.input services none input).exchanges schemas =
        ModelTask.specialists.map (reviewExchange schemas services input) := by
  obtain ⟨outcome, visited⟩ := input_run schemas valid input
  obtain ⟨gate, gateVisited⟩ := gate_run_required schemas services 23
    ⟨reviewedState schemas services input, [.evidenceConfirmation], []⟩ rfl required
  refine ⟨outcome.trans gate, ?_⟩
  rw [Invocation.exchanges, visited, gateVisited]
  simp [specialists_exchanges, ReviewNode.exchange, Invocation.input]

variable (schemas) in
/-- A start that requires none goes through to the synthesis. -/
theorem input_free (valid : services.Valid) (input : ReviewGraphState)
    (free : input.requireEvidenceConfirmation = false) (open_ : input.cancelled = false) :
    ∃ recommendation,
      services.synthesize (synthesisRequest schemas (reviewedState schemas services input)) =
        .ok recommendation ∧
      (Invocation.input services none input).outcome schemas =
        (⟨(reviewedState schemas services input).merge (.recommendation recommendation
          (services.clock .synthesize)), [], []⟩, .ok ()) ∧
      (Invocation.input services none input).exchanges schemas =
        ModelTask.specialists.map (reviewExchange schemas services input) ++
          [synthesisExchange schemas services (reviewedState schemas services input)] := by
  obtain ⟨recommendation, asked⟩ := valid.synthesized
    (synthesisRequest schemas (reviewedState schemas services input))
  obtain ⟨outcome, visited⟩ := input_run schemas valid input
  obtain ⟨gate, gateVisited⟩ := gate_run_free schemas services 23
    ⟨reviewedState schemas services input, [.evidenceConfirmation], []⟩ rfl free open_
  obtain ⟨done, doneVisited⟩ := synthesize_run 21
    ⟨reviewedState schemas services input, [.synthesize], []⟩ none rfl asked
  refine ⟨recommendation, asked, outcome.trans (gate.trans done), ?_⟩
  rw [Invocation.exchanges, visited, gateVisited, doneVisited]
  simp [specialists_exchanges, ReviewNode.exchange, Invocation.input]

theorem resume_reject_exchanges (awaits : Awaits checkpoint) {response : EvidenceConfirmation}
    (rejected : response.decision = .reject) :
    (Invocation.mk services checkpoint (some response)).exchanges schemas = [] := by
  have advanced := awaits.superStep schemas services response
  simp only [rejected, decide_true, if_true] at advanced
  have pending : checkpoint.next ≠ [] := by simp [awaits.next]
  have visited : (Invocation.mk services checkpoint (some response)).visited schemas = [checkpoint] :=
    (Pregel.visited_advanced pending advanced).trans (by rw [Pregel.visited_idle rfl])
  rw [Invocation.exchanges, visited]
  simp [awaits.next, ReviewNode.exchange]

theorem resume_confirm_exchanges (valid : services.Valid) (awaits : Awaits checkpoint)
    {response : EvidenceConfirmation} (confirmed : response.decision = .confirm) :
    (Invocation.mk services checkpoint (some response)).exchanges schemas =
      [synthesisExchange schemas services
        (checkpoint.values.merge (.confirmation response false none))] := by
  have advanced := awaits.superStep schemas services response
  simp only [confirmed, reduceCtorEq, decide_false, if_false] at advanced
  have pending : checkpoint.next ≠ [] := by simp [awaits.next]
  obtain ⟨recommendation, asked⟩ := valid.synthesized (synthesisRequest schemas
    (checkpoint.values.merge (.confirmation response false none)))
  obtain ⟨-, done⟩ := synthesize_run 22
    ⟨checkpoint.values.merge (.confirmation response false none), [.synthesize], []⟩ none rfl asked
  have visited : (Invocation.mk services checkpoint (some response)).visited schemas = [checkpoint,
      ⟨checkpoint.values.merge (.confirmation response false none), [.synthesize], []⟩] :=
    (Pregel.visited_advanced pending advanced).trans (by rw [done])
  rw [Invocation.exchanges, visited]
  simp [awaits.next, ReviewNode.exchange]

end

/-! ## Where the execution stands -/

/-- Each specialist was asked once, and `findings` are their batches, in some order, under the
    identifiers of the execution. -/
structure Batches (executionId : UUID) (reviews : List Exchange) (findings : List Finding)
    (request : ModelTask → ModelRequest) (batch : ModelTask → List Finding) : Prop where
  asked : reviews = ModelTask.specialists.map fun task => .review task (request task) (.ok (batch task))
  findings : ∃ order : List ModelTask, order.Perm ModelTask.specialists ∧
    findings = order.flatMap fun task => (batch task).map (storedFinding executionId)

/-- The values of a thread of the execution, with the exchanges that led to its findings. -/
structure Held (executionId : UUID) (values : ReviewGraphState) (reviews : List Exchange) : Prop where
  own : values.executionId = executionId
  batches : ∃ request batch, Batches executionId reviews values.findings request batch

inductive Phase (executionId : UUID) (client : Client) : Prop
  | fresh : client.thread = none → client.exchanges = [] → Phase executionId client
  | awaiting {checkpoint : ReviewCheckpoint} : client.thread = some checkpoint → Awaits checkpoint →
      Held executionId checkpoint.values client.exchanges → Phase executionId client
  | cancelled {checkpoint : ReviewCheckpoint} : client.thread = some checkpoint →
      checkpoint.values.cancelled = true → checkpoint.values.recommendation = none →
      Held executionId checkpoint.values client.exchanges → Phase executionId client
  | completed {checkpoint : ReviewCheckpoint} {reviews : List Exchange} {request : ModelRequest}
      {recommendation : Recommendation} {completedAt : Datetime} :
      client.thread = some checkpoint → checkpoint.values.cancelled = false →
      checkpoint.values.recommendation = some recommendation →
      checkpoint.values.completedAt = some completedAt →
      Held executionId checkpoint.values reviews →
      client.exchanges = reviews ++ [.synthesis request (.ok recommendation)] →
      request.context = .synthesis checkpoint.values.findings checkpoint.values.evidenceConfirmation →
      Phase executionId client

/-! ## What one call can do -/

/-- A call answers from the thread, or invokes the graph: a start on an empty thread, a
    resume of an execution that waits. -/
inductive Performs (schemas : JsonSchemas) (services : Services) (executionId : UUID)
    (thread : Thread) : ClientCall → Thread × Except ReviewError ReviewExecution →
    List Exchange → Prop
  | absent {call : ClientCall} {e : ReviewError} : thread = none → call.required = none →
      Performs schemas services executionId thread call (none, .error e) []
  | refused {call : ClientCall} {checkpoint : ReviewCheckpoint} {e : ReviewError} :
      thread = some checkpoint →
      Performs schemas services executionId thread call (some checkpoint, .error e) []
  | read {call : ClientCall} {checkpoint : ReviewCheckpoint} : thread = some checkpoint →
      Performs schemas services executionId thread call
        (some checkpoint, executionFromSnapshot checkpoint) []
  | started {supplierCase : SupplierCase} {required : Bool} {invocation : Invocation} :
      thread = none →
      invocation = .input services none (startInput services supplierCase executionId required) →
      Performs schemas services executionId thread (.start supplierCase required)
        (some (invocation.outcome schemas).1, answer (invocation.outcome schemas))
        (invocation.exchanges schemas)
  | resumed {supplierCase : SupplierCase} {confirmation : EvidenceConfirmation}
      {checkpoint : ReviewCheckpoint} {execution : ReviewExecution} {invocation : Invocation} :
      thread = some checkpoint → executionFromSnapshot checkpoint = .ok execution →
      execution.status = .awaitingInput → invocation = ⟨services, checkpoint, some confirmation⟩ →
      Performs schemas services executionId thread (.resume supplierCase confirmation)
        (some (invocation.outcome schemas).1, answer (invocation.outcome schemas))
        (invocation.exchanges schemas)

section

variable {schemas : JsonSchemas} {services : Services} {executionId : UUID} {thread : Thread}

theorem getExecution_cases (checkpoint : ReviewCheckpoint) (supplierCase : SupplierCase)
    (executionId : UUID) :
    getExecution (some checkpoint) supplierCase executionId = .error .notFound ∨
      getExecution (some checkpoint) supplierCase executionId = executionFromSnapshot checkpoint := by
  unfold getExecution validateScope
  split
  next heq => cases heq
  next heq =>
    cases heq
    split
    · exact .inl rfl
    · exact .inr rfl

theorem performs (call : ClientCall) :
    Performs schemas services executionId thread call
      (call.perform schemas services executionId thread)
      (call.exchanges schemas services executionId thread) := by
  cases thread with
  | none =>
    cases call with
    | start supplierCase required => exact .started rfl rfl
    | get supplierCase => exact .absent rfl rfl
    | resume supplierCase confirmation => exact .absent rfl rfl
  | some checkpoint =>
    -- on a thread that exists `start` does what `get` does
    have reads (supplierCase : SupplierCase) (call : ClientCall) :
        Performs schemas services executionId (some checkpoint) call
          (some checkpoint, getExecution (some checkpoint) supplierCase executionId) [] := by
      rcases getExecution_cases checkpoint supplierCase executionId with missing | found
      · rw [missing]
        exact .refused rfl
      · rw [found]
        exact .read rfl
    cases call with
    | start supplierCase required => exact reads supplierCase _
    | get supplierCase => exact reads supplierCase _
    | resume supplierCase confirmation =>
      simp only [ClientCall.perform, ClientCall.exchanges, ClientCall.invocation, resume, resumeRead]
      rcases getExecution_cases checkpoint supplierCase executionId with missing | found
      · simp only [missing]
        exact .refused rfl
      · rw [found]
        cases snapshot : executionFromSnapshot checkpoint with
        | error e => exact .refused rfl
        | ok execution =>
          cases status : execution.status with
          | completed | cancelled =>
            simp only [status]
            rw [← snapshot]
            exact .read rfl
          | running =>
            simp only [status]
            exact .refused rfl
          | awaitingInput =>
            simp only [status]
            exact .resumed rfl snapshot status rfl

variable {client client' : Client} {call : ClientCall}

theorem Client.exchanges_concat (thread : Thread) (log : List Entry) (entry : Entry) :
    (Client.mk thread (log ++ [entry])).exchanges = (Client.mk thread log).exchanges ++ entry.exchanges := by
  simp [Client.exchanges]

/-- A step of a client with what the call did. -/
theorem Client.step_performs (moved : Client.step schemas executionId client (call, services) = some client') :
    ∃ result exchanges, Performs schemas services executionId client.thread call result exchanges ∧
      client' = ⟨result.1, client.log ++ [⟨call, exchanges, result.2⟩]⟩ := by
  cases moved
  exact ⟨_, _, performs call, rfl⟩

theorem Phase.keep (phase : Phase executionId client) (thread : client'.thread = client.thread)
    (exchanges : client'.exchanges = client.exchanges) : Phase executionId client' := by
  cases phase with
  | fresh none nothing => exact .fresh (thread.trans none) (exchanges.trans nothing)
  | awaiting at_ awaits held => exact .awaiting (thread.trans at_) awaits (exchanges ▸ held)
  | cancelled at_ cancelled unrecommended held =>
    exact .cancelled (thread.trans at_) cancelled unrecommended (exchanges ▸ held)
  | completed at_ cancelled recommended completedAt held log context =>
    exact .completed (thread.trans at_) cancelled recommended completedAt held
      (exchanges.trans log) context

variable (schemas executionId) in
/-- What the start leaves for the later phases. -/
theorem held_reviewed (valid : services.Valid) (supplierCase : SupplierCase) (required : Bool) :
    Held executionId
      (reviewedState schemas services (startInput services supplierCase executionId required))
      (ModelTask.specialists.map (reviewExchange schemas services
        (startInput services supplierCase executionId required))) := by
  refine ⟨rfl, specialistRequest schemas (startInput services supplierCase executionId required),
    rawBatch schemas services (startInput services supplierCase executionId required), ?_, ?_⟩
  · apply List.map_congr_left
    intro task _
    rw [reviewExchange, valid.reviewed]
  · exact ⟨services.specialists, services.specialists_perm, by simp [reviewedState, startInput]⟩

theorem Awaits.snapshot {checkpoint : ReviewCheckpoint} (awaits : Awaits checkpoint) :
    ∃ execution, executionFromSnapshot checkpoint = .ok execution ∧
      execution.status = .awaitingInput := by
  obtain ⟨request, interrupts⟩ := awaits.interrupts
  simp [executionFromSnapshot, awaits.undecided.cancelled, awaits.undecided.recommendation, interrupts]

theorem snapshot_cancelled {checkpoint : ReviewCheckpoint}
    (cancelled : checkpoint.values.cancelled = true) :
    ∃ execution, executionFromSnapshot checkpoint = .ok execution ∧ execution.status = .cancelled := by
  simp [executionFromSnapshot, cancelled]

theorem snapshot_completed {checkpoint : ReviewCheckpoint} {recommendation : Recommendation}
    {completedAt : Datetime} (cancelled : checkpoint.values.cancelled = false)
    (recommended : checkpoint.values.recommendation = some recommendation)
    (finished : checkpoint.values.completedAt = some completedAt) :
    ∃ execution result, executionFromSnapshot checkpoint = .ok execution ∧
      execution.status = .completed ∧ execution.result = some result ∧
      result.findings = checkpoint.values.findings ∧ result.recommendation = recommendation := by
  simp [executionFromSnapshot, resultFromState, cancelled, recommended, finished, Except.map]

/-- An execution that waits for input is in the phase that says so. -/
theorem Phase.of_awaitingInput {checkpoint : ReviewCheckpoint} {execution : ReviewExecution}
    (phase : Phase executionId client) (at_ : client.thread = some checkpoint)
    (snapshot : executionFromSnapshot checkpoint = .ok execution)
    (status : execution.status = .awaitingInput) :
    Awaits checkpoint ∧ Held executionId checkpoint.values client.exchanges := by
  cases phase with
  | fresh none => rw [at_] at none; cases none
  | awaiting at' awaits held =>
    cases at_.symm.trans at'
    exact ⟨awaits, held⟩
  | cancelled at' cancelled =>
    cases at_.symm.trans at'
    obtain ⟨execution', snapshot', status'⟩ := snapshot_cancelled cancelled
    cases snapshot.symm.trans snapshot'
    cases status.symm.trans status'
  | completed at' cancelled recommended completedAt =>
    cases at_.symm.trans at'
    obtain ⟨execution', _, snapshot', status', _⟩ :=
      snapshot_completed cancelled recommended completedAt
    cases snapshot.symm.trans snapshot'
    cases status.symm.trans status'

/-- The start of an execution. -/
theorem Phase.start (fresh : client.exchanges = []) (valid : services.Valid)
    (supplierCase : SupplierCase) (required : Bool) {invocation : Invocation}
    (isInput : invocation =
      .input services none (startInput services supplierCase executionId required)) (entry : Entry)
    (exchanges : entry.exchanges = invocation.exchanges schemas) :
    Phase executionId ⟨some (invocation.outcome schemas).1, client.log ++ [entry]⟩ := by
  subst isInput
  have log : (Client.mk (some ((Invocation.input services none
      (startInput services supplierCase executionId required)).outcome schemas).1)
        (client.log ++ [entry])).exchanges = entry.exchanges := by
    rw [Client.exchanges_concat]
    show client.exchanges ++ _ = _
    rw [fresh, List.nil_append]
  cases required with
  -- a required confirmation stops the graph before the synthesis
  | true =>
    obtain ⟨outcome, asked⟩ := input_required schemas valid
      (startInput services supplierCase executionId true) rfl
    rw [exchanges, asked] at log
    rw [outcome] at log ⊢
    refine .awaiting rfl ⟨rfl, ⟨_, rfl⟩, ⟨rfl, rfl⟩, rfl, rfl⟩ ?_
    rw [log]
    exact held_reviewed schemas executionId valid supplierCase true
  | false =>
    obtain ⟨recommendation, answered, outcome, asked⟩ := input_free schemas valid
      (startInput services supplierCase executionId false) rfl rfl
    rw [exchanges, asked] at log
    rw [outcome] at log ⊢
    rw [synthesisExchange, answered] at log
    have held := held_reviewed schemas executionId valid supplierCase false
    exact .completed rfl rfl rfl rfl ⟨held.own, held.batches⟩ log rfl

/-- The analyst's response to an execution that waits. -/
theorem Phase.resume {checkpoint : ReviewCheckpoint} (awaits : Awaits checkpoint)
    (held : Held executionId checkpoint.values client.exchanges) (valid : services.Valid)
    (confirmation : EvidenceConfirmation) {invocation : Invocation}
    (isResume : invocation = ⟨services, checkpoint, some confirmation⟩) (entry : Entry)
    (exchanges : entry.exchanges = invocation.exchanges schemas) :
    Phase executionId ⟨some (invocation.outcome schemas).1, client.log ++ [entry]⟩ := by
  subst isResume
  have log : (Client.mk (some ((Invocation.mk services checkpoint (some confirmation)).outcome schemas).1)
        (client.log ++ [entry])).exchanges = client.exchanges ++ entry.exchanges :=
    Client.exchanges_concat ..
  cases decision : confirmation.decision with
  | reject =>
    have outcome : (Invocation.mk services checkpoint (some confirmation)).outcome schemas = _ :=
      awaits.resume_reject decision
    rw [exchanges, resume_reject_exchanges awaits decision, List.append_nil] at log
    rw [outcome] at log ⊢
    refine .cancelled rfl rfl awaits.undecided.recommendation ?_
    rw [log]
    exact ⟨held.own, held.batches⟩
  | confirm =>
    obtain ⟨recommendation, answered⟩ := valid.synthesized (synthesisRequest schemas
      (checkpoint.values.merge (.confirmation confirmation false none)))
    have outcome : (Invocation.mk services checkpoint (some confirmation)).outcome schemas = _ :=
      awaits.resume_confirm decision
    simp only [answered] at outcome
    rw [exchanges, resume_confirm_exchanges valid awaits decision, synthesisExchange, answered] at log
    rw [outcome] at log ⊢
    exact .completed rfl rfl rfl rfl ⟨held.own, held.batches⟩ log rfl

/-- The step lemma of the phases. -/
theorem phase_step (phase : Phase executionId client) (valid : services.Valid)
    (moved : Client.step schemas executionId client (call, services) = some client') :
    Phase executionId client' := by
  obtain ⟨result, exchanges, performed, rfl⟩ := Client.step_performs moved
  have idle (answer : Except ReviewError ReviewExecution) : (Client.mk client.thread
      (client.log ++ [⟨call, [], answer⟩])).exchanges = client.exchanges := by
    rw [Client.exchanges_concat, List.append_nil]
  cases performed with
  | absent thread | refused thread | read thread =>
    have kept := idle
    rw [thread] at kept
    exact phase.keep thread.symm (kept _)
  | started thread isInput =>
    cases phase with
    | fresh _ nothing => exact .start nothing valid _ _ isInput _ rfl
    | awaiting at_ | cancelled at_ | completed at_ => rw [thread] at at_; cases at_
  | resumed thread snapshot status isResume =>
    obtain ⟨awaits, held⟩ := phase.of_awaitingInput thread snapshot status
    exact .resume awaits held valid _ isResume _ rfl

/-! ## The log -/

def ClientCall.Confirms : ClientCall → Prop
  | .resume _ confirmation => confirmation.decision = .confirm
  | _ => False

structure ClientOk (executionId : UUID) (client : Client) : Prop where
  phase : Phase executionId client
  answers : ∀ entry ∈ client.log, ∀ execution, entry.answer = .ok execution →
    execution.status = .completed →
    ∃ checkpoint, client.thread = some checkpoint ∧ executionFromSnapshot checkpoint = .ok execution
  required : client.required = client.thread.map (·.values.requireEvidenceConfirmation)
  gated : ∀ checkpoint, client.thread = some checkpoint →
    checkpoint.values.requireEvidenceConfirmation = true → ∀ entry ∈ client.log,
    ∀ request output, .synthesis request output ∈ entry.exchanges → entry.call.Confirms

/-- Only a resume of an execution that waits changes a thread. -/
theorem Performs.thread_eq {result : Thread × Except ReviewError ReviewExecution}
    {exchanges : List Exchange} {checkpoint : ReviewCheckpoint} {execution : ReviewExecution}
    (performed : Performs schemas services executionId client.thread call result exchanges)
    (at_ : client.thread = some checkpoint)
    (snapshot : executionFromSnapshot checkpoint = .ok execution)
    (final : execution.status ≠ .awaitingInput) : result.1 = client.thread := by
  cases performed with
  | absent thread | refused thread | read thread => exact thread.symm
  | started thread => rw [thread] at at_; cases at_
  | resumed thread snapshot' status =>
    cases at_.symm.trans thread
    cases snapshot.symm.trans snapshot'
    exact absurd status final

/-- A normal answer is the execution of the thread that the call leaves. -/
theorem Performs.snapshot {result : Thread × Except ReviewError ReviewExecution}
    {exchanges : List Exchange} {execution : ReviewExecution}
    (performed : Performs schemas services executionId thread call result exchanges)
    (ok : result.2 = .ok execution) :
    ∃ checkpoint, result.1 = some checkpoint ∧ executionFromSnapshot checkpoint = .ok execution := by
  have invoked (invocation : Invocation) (ok : answer (invocation.outcome schemas) = .ok execution) :
      executionFromSnapshot (invocation.outcome schemas).1 = .ok execution := by
    unfold answer at ok
    split at ok
    · cases ok
    · exact ok
  cases performed with
  | absent | refused => cases ok
  | read => exact ⟨_, rfl, ok⟩
  | started | resumed => exact ⟨_, rfl, invoked _ ok⟩

theorem Client.mem_exchanges {entry : Entry} {exchange : Exchange} (member : entry ∈ client.log)
    (sent : exchange ∈ entry.exchanges) : exchange ∈ client.exchanges :=
  List.mem_flatMap.mpr ⟨entry, member, sent⟩

theorem not_synthesis_of_reviews {request : ModelRequest} {output : Except String Recommendation}
    (state : ReviewGraphState) :
    .synthesis request output ∉ ModelTask.specialists.map (reviewExchange schemas services state) := by
  simp [ModelTask.specialists, reviewExchange]

theorem gated_step (ok : ClientOk executionId client) (valid : services.Valid)
    {result : Thread × Except ReviewError ReviewExecution} {exchanges : List Exchange}
    (performed : Performs schemas services executionId client.thread call result exchanges)
    {checkpoint : ReviewCheckpoint} (at_ : result.1 = some checkpoint)
    (required : checkpoint.values.requireEvidenceConfirmation = true) :
    ∀ entry ∈ client.log ++ [⟨call, exchanges, result.2⟩],
      ∀ request output, .synthesis request output ∈ entry.exchanges → entry.call.Confirms := by
  intro entry member request output sent
  cases performed with
  | absent => cases at_
  | refused thread | read thread =>
    cases at_
    rcases List.mem_append.mp member with old | new
    · exact ok.gated _ thread required entry old request output sent
    · rw [List.mem_singleton.mp new] at sent
      cases sent
  | @started supplierCase confirm _ thread isInput =>
    rcases List.mem_append.mp member with old | new
    · cases ok.phase with
      | fresh _ nothing =>
        have earlier := Client.mem_exchanges old sent
        rw [nothing] at earlier
        cases earlier
      | awaiting at' | cancelled at' | completed at' => rw [thread] at at'; cases at'
    · rw [List.mem_singleton.mp new] at sent
      subst isInput
      cases confirm with
      | true =>
        obtain ⟨_, asked⟩ := input_required schemas valid
          (startInput services supplierCase executionId true) rfl
        simp only [asked] at sent
        exact absurd sent (not_synthesis_of_reviews _)
      | false =>
        obtain ⟨_, _, outcome, _⟩ := input_free schemas valid
          (startInput services supplierCase executionId false) rfl rfl
        rw [outcome] at at_
        cases at_
        cases required
  | @resumed supplierCase confirmation before _ _ thread snapshot status isResume =>
    obtain ⟨awaits, _⟩ := ok.phase.of_awaitingInput thread snapshot status
    rcases List.mem_append.mp member with old | new
    · exact ok.gated _ thread awaits.required entry old request output sent
    · rw [List.mem_singleton.mp new] at sent ⊢
      subst isResume
      cases decision : confirmation.decision with
      | confirm => exact decision
      | reject =>
        simp only [resume_reject_exchanges awaits decision] at sent
        cases sent

theorem required_step (ok : ClientOk executionId client) (valid : services.Valid)
    {result : Thread × Except ReviewError ReviewExecution} {exchanges : List Exchange}
    (performed : Performs schemas services executionId client.thread call result exchanges) :
    (Client.mk result.1 (client.log ++ [⟨call, exchanges, result.2⟩])).required =
      result.1.map (·.values.requireEvidenceConfirmation) := by
  have concat : (Client.mk result.1 (client.log ++ [⟨call, exchanges, result.2⟩])).required =
      (client.thread.map (·.values.requireEvidenceConfirmation)).or call.required := by
    rw [← ok.required]
    simp [Client.required, List.findSome?_append]
  rw [concat]
  -- only the first start sets the flag, and no node of the graph writes it
  cases performed with
  | absent thread noStart => rw [thread, noStart]; rfl
  | refused thread | read thread => rw [thread]; rfl
  | @started supplierCase required _ thread isInput =>
    subst isInput
    rw [thread]
    cases required with
    | true =>
      obtain ⟨outcome, _⟩ := input_required schemas valid
        (startInput services supplierCase executionId true) rfl
      rw [outcome]
      rfl
    | false =>
      obtain ⟨_, _, outcome, _⟩ := input_free schemas valid
        (startInput services supplierCase executionId false) rfl rfl
      rw [outcome]
      rfl
  | @resumed supplierCase confirmation before _ _ thread snapshot status isResume =>
    subst isResume
    obtain ⟨awaits, _⟩ := ok.phase.of_awaitingInput thread snapshot status
    rw [thread]
    cases decision : confirmation.decision with
    | reject =>
      have outcome : (Invocation.mk services before (some confirmation)).outcome schemas = _ :=
        awaits.resume_reject decision
      rw [outcome]
      rfl
    | confirm =>
      obtain ⟨recommendation, answered⟩ := valid.synthesized (synthesisRequest schemas
        (before.values.merge (.confirmation confirmation false none)))
      have outcome : (Invocation.mk services before (some confirmation)).outcome schemas = _ :=
        awaits.resume_confirm decision
      simp only [answered] at outcome
      rw [outcome]
      rfl

theorem clientOk_step (ok : ClientOk executionId client) (valid : services.Valid)
    (moved : Client.step schemas executionId client (call, services) = some client') :
    ClientOk executionId client' := by
  have phase := phase_step ok.phase valid moved
  obtain ⟨result, exchanges, performed, rfl⟩ := Client.step_performs moved
  refine ⟨phase, ?_, required_step ok valid performed,
    fun checkpoint at_ required => gated_step ok valid performed at_ required⟩
  intro entry member execution answered completed
  rcases List.mem_append.mp member with old | new
  · obtain ⟨checkpoint, thread, snapshot⟩ := ok.answers entry old execution answered completed
    have same := performed.thread_eq thread snapshot (by rw [completed]; decide)
    exact ⟨checkpoint, same.trans thread, snapshot⟩
  · rw [List.mem_singleton.mp new] at answered
    exact performed.snapshot answered

/-! ## Final executions -/

/-- The call is for the case. -/
def ClientCall.Concerns (call : ClientCall) (supplierCase : SupplierCase) : Prop :=
  call.supplierCase.tenantId = supplierCase.tenantId ∧ call.supplierCase.id = supplierCase.id

variable (schemas executionId) in
/-- Whatever calls follow, the thread stays as it is and every call for the case answers with
    `execution`. -/
def Client.Final (client : Client) (supplierCase : SupplierCase) (execution : ReviewExecution) : Prop :=
  ∀ later, StepsWhen (Client.step schemas executionId) Client.ValidBackend client later →
    later.thread = client.thread ∧
    ∀ (call : ClientCall) (services : Services), call.Concerns supplierCase →
      call.perform schemas services executionId later.thread = (later.thread, .ok execution)

variable (schemas executionId) in
structure ReviewCorrect (client : Client) : Prop where
  /-- Every task is generated at most once. -/
  once : (client.exchanges.map Exchange.task).Nodup
  /-- The findings of a completed result are the batches of the specialists, in some order, and
      the synthesis was given these. -/
  findings : ∀ entry ∈ client.log, ∀ execution, entry.answer = .ok execution →
    execution.status = .completed →
    ∃ (result : ReviewResult) (request : ModelTask → ModelRequest)
      (batch : ModelTask → List Finding) (synthesis : ModelRequest)
      (confirmation : Option EvidenceConfirmation), execution.result = some result ∧
      (∀ task ∈ ModelTask.specialists,
        .review task (request task) (.ok (batch task)) ∈ client.exchanges) ∧
      (∃ order : List ModelTask, order.Perm ModelTask.specialists ∧
        result.findings = order.flatMap fun task => (batch task).map (storedFinding executionId)) ∧
      .synthesis synthesis (.ok result.recommendation) ∈ client.exchanges ∧
      synthesis.context = .synthesis result.findings confirmation
  /-- With `require_evidence_confirmation` the synthesis belongs to a call that confirms. -/
  gated : client.required = some true → ∀ entry ∈ client.log, ∀ request output,
    .synthesis request output ∈ entry.exchanges → entry.call.Confirms
  /-- A rejection is final, and there is no recommendation after it. -/
  rejected : ∀ supplierCase current confirmation services after,
    getExecution client.thread supplierCase executionId = .ok current →
    current.status = .awaitingInput → confirmation.decision = .reject → services.Valid →
    Client.step schemas executionId client (.resume supplierCase confirmation, services) = some after →
    (∃ execution, execution.status = .cancelled ∧ execution.result = none ∧
      after.Final schemas executionId supplierCase execution) ∧
    ∀ later, StepsWhen (Client.step schemas executionId) Client.ValidBackend after later →
      (∀ checkpoint, later.thread = some checkpoint → checkpoint.values.recommendation = none) ∧
      ∀ request output, .synthesis request output ∉ later.exchanges
  /-- Completed and cancelled are terminal. -/
  terminal : ∀ supplierCase execution,
    getExecution client.thread supplierCase executionId = .ok execution →
    execution.status = .completed ∨ execution.status = .cancelled →
    client.Final schemas executionId supplierCase execution

theorem getExecution_ok {supplierCase : SupplierCase} {execution : ReviewExecution}
    (found : getExecution thread supplierCase executionId = .ok execution) :
    ∃ checkpoint, thread = some checkpoint ∧ executionFromSnapshot checkpoint = .ok execution := by
  cases thread with
  | none => cases found
  | some checkpoint =>
    refine ⟨checkpoint, rfl, ?_⟩
    rcases getExecution_cases checkpoint supplierCase executionId with missing | same
    · rw [missing] at found
      cases found
    · exact same.symm.trans found

theorem getExecution_of_concerns {supplierCase : SupplierCase} (concerns : call.Concerns supplierCase) :
    getExecution thread call.supplierCase executionId = getExecution thread supplierCase executionId := by
  simp only [getExecution, validateScope, concerns.1, concerns.2]

/-- A call on a final execution reads it. -/
theorem perform_final {supplierCase : SupplierCase} {execution : ReviewExecution}
    (found : getExecution thread supplierCase executionId = .ok execution)
    (final : execution.status = .completed ∨ execution.status = .cancelled)
    (services : Services) (concerns : call.Concerns supplierCase) :
    call.perform schemas services executionId thread = (thread, .ok execution) := by
  obtain ⟨checkpoint, rfl, _⟩ := getExecution_ok found
  rw [← getExecution_of_concerns concerns] at found
  cases call with
  | start | get => simp only [ClientCall.perform, Graphs.start]; rw [← found]; rfl
  | resume other confirmation =>
    have read : resumeRead (some checkpoint) other executionId = some (.ok execution) := by
      have found : getExecution (some checkpoint) other executionId = .ok execution := found
      rw [resumeRead, found]
      rcases final with completed | cancelled
      · simp only [completed]
      · simp only [cancelled]
    simp only [ClientCall.perform, Graphs.resume, read]

variable (schemas) in
theorem Client.final {supplierCase : SupplierCase} {execution : ReviewExecution}
    (found : getExecution client.thread supplierCase executionId = .ok execution)
    (final : execution.status = .completed ∨ execution.status = .cancelled) :
    client.Final schemas executionId supplierCase execution := by
  obtain ⟨checkpoint, at_, snapshot⟩ := getExecution_ok found
  have settled : execution.status ≠ .awaitingInput := by
    rcases final with completed | cancelled
    · simp [completed]
    · simp [cancelled]
  intro later steps
  have same : later.thread = client.thread := by
    refine steps.invariant (I := fun later => later.thread = client.thread) rfl ?_
    intro middle label next same _ moved
    obtain ⟨result, exchanges, performed, rfl⟩ := Client.step_performs moved
    exact (performed.thread_eq (same.trans at_) snapshot settled).trans same
  refine ⟨same, fun call services concerns => ?_⟩
  exact perform_final (same.symm ▸ found) final services concerns

variable (schemas services) in
/-- A rejection of an execution that waits cancels it. -/
theorem reject_cancels {checkpoint : ReviewCheckpoint} {supplierCase : SupplierCase}
    {current : ReviewExecution} {confirmation : EvidenceConfirmation} (awaits : Awaits checkpoint)
    (found : getExecution (some checkpoint) supplierCase executionId = .ok current)
    (waits : current.status = .awaitingInput) (reject : confirmation.decision = .reject) :
    ∃ cancelled execution,
      (ClientCall.resume supplierCase confirmation).perform schemas services executionId
        (some checkpoint) = (some cancelled, .ok execution) ∧
      cancelled.values.cancelled = true ∧
      getExecution (some cancelled) supplierCase executionId = .ok execution ∧
      execution.status = .cancelled ∧ execution.result = none := by
  have read : resumeRead (some checkpoint) supplierCase executionId = none := by
    rw [resumeRead, found]
    simp only [waits]
  obtain ⟨execution, snapshot, status, noResult⟩ : ∃ execution,
      executionFromSnapshot ⟨checkpoint.values.merge (.confirmation confirmation true
        (some (services.clock .evidenceConfirmation))), [], []⟩ = .ok execution ∧
      execution.status = .cancelled ∧ execution.result = none := by
    simp [executionFromSnapshot, ReviewGraphState.merge]
  refine ⟨⟨checkpoint.values.merge (.confirmation confirmation true
    (some (services.clock .evidenceConfirmation))), [], []⟩, execution, ?_, rfl, ?_, status, noResult⟩
  · simp only [ClientCall.perform, Graphs.resume, read, awaits.resume_reject reject]
    exact congrArg (Prod.mk _) snapshot
  · cases inScope : validateScope checkpoint.values supplierCase executionId with
    | error e => simp [getExecution, inScope, bind, Except.bind] at found
    | ok =>
      have same : validateScope (checkpoint.values.merge (.confirmation confirmation true
          (some (services.clock .evidenceConfirmation)))) supplierCase executionId = .ok () := inScope
      simp [getExecution, same, snapshot, bind, Except.bind]

/-! ## What the phase says of the log -/

theorem Held.tasks {values : ReviewGraphState} {reviews : List Exchange}
    (held : Held executionId values reviews) : reviews.map Exchange.task = ModelTask.specialists := by
  obtain ⟨request, batch, batches⟩ := held.batches
  rw [batches.asked]
  rfl

theorem Held.not_synthesis {values : ReviewGraphState} {reviews : List Exchange}
    {request : ModelRequest} {output : Except String Recommendation}
    (held : Held executionId values reviews) : .synthesis request output ∉ reviews := by
  obtain ⟨_, _, batches⟩ := held.batches
  rw [batches.asked]
  simp

theorem Phase.once (phase : Phase executionId client) :
    (client.exchanges.map Exchange.task).Nodup := by
  cases phase with
  | fresh _ nothing => simp [nothing]
  | awaiting _ _ held | cancelled _ _ _ held =>
    rw [held.tasks]
    decide
  | completed _ _ _ _ held log =>
    rw [log, List.map_append, held.tasks]
    show (ModelTask.specialists ++ [ModelTask.synthesize]).Nodup
    decide

/-- A cancelled execution has no recommendation, and none was asked for. -/
theorem Phase.of_cancelled {checkpoint : ReviewCheckpoint} (phase : Phase executionId client)
    (at_ : client.thread = some checkpoint) (isCancelled : checkpoint.values.cancelled = true) :
    checkpoint.values.recommendation = none ∧
      ∀ request output, .synthesis request output ∉ client.exchanges := by
  cases phase with
  | fresh thread => rw [at_] at thread; cases thread
  | awaiting thread awaits =>
    cases at_.symm.trans thread
    rw [awaits.undecided.cancelled] at isCancelled
    cases isCancelled
  | cancelled thread _ unrecommended held =>
    cases at_.symm.trans thread
    exact ⟨unrecommended, fun _ _ => held.not_synthesis⟩
  | completed thread cancelled =>
    cases at_.symm.trans thread
    rw [cancelled] at isCancelled
    cases isCancelled

/-- A completed execution has the findings of the specialists, and its synthesis was given
    these. -/
theorem Phase.of_completed {checkpoint : ReviewCheckpoint} {execution : ReviewExecution}
    (phase : Phase executionId client) (at_ : client.thread = some checkpoint)
    (snapshot : executionFromSnapshot checkpoint = .ok execution)
    (status : execution.status = .completed) :
    ∃ result request batch synthesis, execution.result = some result ∧
      Batches executionId (client.exchanges.dropLast) result.findings request batch ∧
      .synthesis synthesis (.ok result.recommendation) ∈ client.exchanges ∧
      synthesis.context = .synthesis result.findings checkpoint.values.evidenceConfirmation := by
  cases phase with
  | fresh thread => rw [at_] at thread; cases thread
  | awaiting thread awaits =>
    cases at_.symm.trans thread
    obtain ⟨_, waiting, waits⟩ := awaits.snapshot
    cases snapshot.symm.trans waiting
    cases status.symm.trans waits
  | cancelled thread isCancelled =>
    cases at_.symm.trans thread
    obtain ⟨_, cancelled, isCancelled⟩ := snapshot_cancelled isCancelled
    cases snapshot.symm.trans cancelled
    cases status.symm.trans isCancelled
  | completed thread cancelled recommended finished held log context =>
    cases at_.symm.trans thread
    obtain ⟨_, result, completed, _, hasResult, findings, recommendation⟩ :=
      snapshot_completed cancelled recommended finished
    cases snapshot.symm.trans completed
    obtain ⟨request, batch, batches⟩ := held.batches
    subst recommendation
    refine ⟨result, request, batch, _, hasResult, ?_, ?_, findings ▸ context⟩
    · rw [log, List.dropLast_concat, findings]
      exact batches
    · rw [log]
      exact List.mem_append_right _ List.mem_cons_self

/-- One client, any calls, any restarts: what the review graph promises. -/
theorem reviewCorrect_of_stepsWhen
    (steps : StepsWhen (Client.step schemas executionId) Client.ValidBackend .initial client) :
    ReviewCorrect schemas executionId client := by
  have initially : ClientOk executionId .initial :=
    ⟨.fresh rfl rfl, by simp [Client.initial], rfl, by simp [Client.initial]⟩
  have ok : ClientOk executionId client :=
    steps.invariant initially fun ok valid moved => clientOk_step ok valid moved
  refine ⟨ok.phase.once, ?_, ?_, ?_, ?_⟩
  · intro entry member execution answered completed
    obtain ⟨checkpoint, at_, snapshot⟩ := ok.answers entry member execution answered completed
    obtain ⟨result, request, batch, synthesis, hasResult, batches, asked, context⟩ :=
      ok.phase.of_completed at_ snapshot completed
    refine ⟨result, request, batch, synthesis, _, hasResult, ?_, batches.findings, asked, context⟩
    intro task isTask
    apply List.mem_of_mem_dropLast
    rw [batches.asked]
    exact List.mem_map_of_mem isTask
  · intro required
    rw [ok.required, Option.map_eq_some_iff] at required
    obtain ⟨checkpoint, at_, required⟩ := required
    exact ok.gated checkpoint at_ required
  · intro supplierCase current confirmation services after found waits reject valid moved
    obtain ⟨checkpoint, at_, snapshot⟩ := getExecution_ok found
    obtain ⟨awaits, _⟩ := ok.phase.of_awaitingInput at_ snapshot waits
    obtain ⟨cancelled, execution, performed, isCancelled, reads, status, noResult⟩ :=
      reject_cancels schemas services awaits (at_ ▸ found) waits reject
    have after_ : after.thread = some cancelled := by
      simp only [Client.step, at_, performed, Option.some.injEq] at moved
      rw [← moved]
    have final : after.Final schemas executionId supplierCase execution :=
      Client.final schemas (after_.symm ▸ reads) (.inr status)
    refine ⟨⟨execution, status, noResult, final⟩, ?_⟩
    intro later more
    have reached : StepsWhen (Client.step schemas executionId) Client.ValidBackend .initial after :=
      .tail (a := (.resume supplierCase confirmation, services)) steps valid moved
    have laterOk : ClientOk executionId later :=
      (reached.trans more).invariant initially fun ok valid moved => clientOk_step ok valid moved
    have same : later.thread = some cancelled := (final later more).1.trans after_
    obtain ⟨unrecommended, unasked⟩ := laterOk.phase.of_cancelled same isCancelled
    refine ⟨?_, unasked⟩
    intro checkpoint' at'
    cases same.symm.trans at'
    exact unrecommended
  · intro supplierCase execution found final
    exact Client.final schemas found final

end

namespace Sample

/-- A gated start, an early look, the confirmation, its redelivery and a last look. -/
def confirmedReview : List (ClientCall × Services) :=
  [.start supplierCase true, .get supplierCase, .resume supplierCase confirmation,
    .resume supplierCase confirmation, .get supplierCase].map (·, reporting)

def Entry.completed (entry : Entry) : Bool :=
  match entry.answer with
  | .ok execution => execution.status = .completed
  | .error _ => false

end Sample

open Sample in
theorem reviewCorrect_confirmed_review :
    ∃ client : Client, client.log.map Entry.completed = [false, false, true, true, true] ∧
      client.exchanges.map Exchange.task =
        [.securityReview, .legalReview, .financialReview, .synthesize] ∧
      ReviewCorrect schemas executionId client := by
  have replayed : ((runWhen (Client.step schemas executionId) (fun _ _ => true) .initial
      confirmedReview).map fun client => decide (
        client.log.map Entry.completed = [false, false, true, true, true] ∧
        client.exchanges.map Exchange.task =
          [.securityReview, .legalReview, .financialReview, .synthesize])) = some true := by
    decide +kernel
  obtain ⟨client, ran, passed⟩ := Option.map_eq_some_iff.mp replayed
  obtain ⟨answers, tasks⟩ := of_decide_eq_true passed
  have steps : StepsWhen (Client.step schemas executionId) Client.ValidBackend .initial client := by
    refine stepsWhen_of_runWhen ?_ ran
    intro _ label member _
    obtain ⟨call, _, rfl⟩ := List.mem_map.mp member
    exact reporting_valid
  exact ⟨client, answers, tasks, reviewCorrect_of_stepsWhen steps⟩

end SupplierAssurance.Graphs
