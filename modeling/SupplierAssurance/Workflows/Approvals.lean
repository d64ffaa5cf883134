import SupplierAssurance.Lib.Split
import SupplierAssurance.Persistence.Store

/-! # Approval workflow adapters

`ApprovalWorkflow` is the protocol that the outbox handler calls: a state `ω` of the
external service, and inputs `φ` for what the service chooses.

The Step Functions client is a parameter in the same way.  `StepFunctionsContract` states
what the adapter relies on: a call that is answered has created the execution or found
it, and the answer is its ARN.  A call may also fail for another reason, before or after
it took effect.
-/

namespace SupplierAssurance.Workflows

open Python Lib

/-- `ApprovalWorkflow.start`; an error is the type name of the exception it raises. -/
structure ApprovalWorkflow (ω φ : Type) where
  start : ω → φ → GovernedAction → ω × Except String String

def localApprovalWorkflow : ApprovalWorkflow Unit Unit where
  start _ _ action := ((), .ok ("local://approval/" ++ action.id.str))

theorem localApprovalWorkflow_fits (service : Unit) (input : Unit) (action : GovernedAction)
    (reference : String) (started : (localApprovalWorkflow.start service input action).2 = .ok reference) :
    Varchar 2048 reference := by
  cases started
  constructor
  · rw [String.length_append, UUID.str_length]
    decide
  · rw [StorableText, String.toList_append, List.mem_append]
    rintro (front | id)
    · exact absurd front (by decide)
    · exact UUID.nul_notMem_str action.id id

/-! ## Step Functions -/

/-- What leaves a call of the client: a `ClientError` with its error code, or another
    exception. -/
inductive StartFault where
  | clientError (code : Option String) (typeName : String)
  | raised (typeName : String)

def StartFault.alreadyExists : StartFault → Prop
  | .clientError code _ => code = some "ExecutionAlreadyExists"
  | .raised _ => False

/-- `_StepFunctionsClient.start_execution`; the answer is the `executionArn` of the response,
    if it is a string. -/
structure StepFunctionsClient (ω φ : Type) where
  startExecution : ω → φ → (stateMachineArn name input : String) →
    ω × Except StartFault (Option String)

namespace StepFunctionsApprovalWorkflow

def marker : String := ":stateMachine:"

def executionName (actionId : UUID) : String :=
  "supplier-action-" ++ actionId.hex

def startInput (action : GovernedAction) : String :=
  Json.dumps (.obj [("action_id", .str action.id.str), ("case_id", .str action.caseId.str),
    ("tenant_id", .str action.tenantId), ("tool_name", .str action.toolName),
    ("status", .str action.status.value)])

/-- `_execution_arn`; an error is the detail of the `ValueError`. -/
def executionArn (stateMachineArn executionName : String) : Except String String :=
  match splitOnce marker.toList stateMachineArn.toList with
  | none => .error "The Step Functions state machine ARN is invalid"
  | some (front, stateMachineName) =>
    if ':' ∈ stateMachineName then
      .error "Use an unqualified state machine ARN for idempotent delivery"
    else
      .ok (String.ofList front ++ ":execution:" ++ String.ofList stateMachineName ++ ":" ++
        executionName)

def start {ω φ : Type} (client : StepFunctionsClient ω φ) (stateMachineArn : String) (service : ω)
    (input : φ) (action : GovernedAction) : ω × Except String String :=
  let name := executionName action.id
  let (service', response) :=
    client.startExecution service input stateMachineArn name (startInput action)
  match response with
  | .error (.raised typeName) => (service', .error typeName)
  | .error (.clientError code typeName) =>
    if code ≠ some "ExecutionAlreadyExists" then (service', .error typeName)
    else
      match executionArn stateMachineArn name with
      | .error _ => (service', .error "ValueError")
      | .ok arn => (service', .ok arn)
  | .ok none => (service', .error "RuntimeError")
  | .ok (some arn) => (service', .ok arn)

end StepFunctionsApprovalWorkflow

def stepFunctionsApprovalWorkflow {ω φ : Type} (client : StepFunctionsClient ω φ)
    (stateMachineArn : String) : ApprovalWorkflow ω φ where
  start := StepFunctionsApprovalWorkflow.start client stateMachineArn

/-! ## What the adapter relies on -/

/-- An execution of the state machine. -/
structure Execution where
  name : String
  input : String
deriving DecidableEq

/-- An unqualified state machine ARN: one marker, and no colon after it. -/
structure StateMachineArn where
  front : String
  machine : String
  unqualified : ':' ∉ machine.toList
  oneMarker : ∀ front' machine' : String,
    front ++ StepFunctionsApprovalWorkflow.marker ++ machine =
      front' ++ StepFunctionsApprovalWorkflow.marker ++ machine' → front' = front

namespace StateMachineArn

def text (arn : StateMachineArn) : String :=
  arn.front ++ StepFunctionsApprovalWorkflow.marker ++ arn.machine

/-- The ARN that Step Functions gives an execution. -/
def execution (arn : StateMachineArn) (name : String) : String :=
  arn.front ++ ":execution:" ++ arn.machine ++ ":" ++ name

end StateMachineArn

/-- What one call of `start_execution` on a state machine does to its executions, and how
    it answers. -/
inductive StartsExecution (arn : StateMachineArn) (name input : String) (before : List Execution) :
    List Execution → Except StartFault (Option String) → Prop
  | created : name ∉ before.map (·.name) →
      StartsExecution arn name input before (before ++ [⟨name, input⟩])
        (.ok (some (arn.execution name)))
  | answered : name ∈ before.map (·.name) →
      StartsExecution arn name input before before (.ok (some (arn.execution name)))
  | alreadyExists {fault : StartFault} : name ∈ before.map (·.name) → fault.alreadyExists →
      StartsExecution arn name input before before (.error fault)
  | refused {fault : StartFault} : ¬ fault.alreadyExists →
      StartsExecution arn name input before before (.error fault)
  | lostAnswer {fault : StartFault} : name ∉ before.map (·.name) → ¬ fault.alreadyExists →
      StartsExecution arn name input before (before ++ [⟨name, input⟩]) (.error fault)

/-- Step Functions, as far as the adapter sees it: `executions` are those of the state machine. -/
structure StepFunctionsContract {ω φ : Type} (client : StepFunctionsClient ω φ)
    (arn : StateMachineArn) (executions : ω → List Execution) : Prop where
  starts : ∀ service input name text service' response,
    client.startExecution service input arn.text name text = (service', response) →
    StartsExecution arn name text (executions service) (executions service') response

/-! ## The adapter -/

namespace StepFunctionsApprovalWorkflow

theorem executionName_injective : Function.Injective executionName := by
  intro u v same
  have chars := congrArg String.toList same
  simp only [executionName, String.toList_append, List.append_cancel_left_eq] at chars
  exact UUID.hex_injective (String.toList_inj.mp chars)

/-- The rebuilt ARN is the one that Step Functions answers with. -/
theorem executionArn_text (arn : StateMachineArn) (name : String) :
    executionArn arn.text name = .ok (arn.execution name) := by
  have found : splitOnce marker.toList arn.text.toList =
      some (arn.front.toList, arn.machine.toList) := by
    simp only [StateMachineArn.text, String.toList_append]
    apply splitOnce_eq_of_unique
    intro front back same
    have texts : arn.front ++ marker ++ arn.machine =
        String.ofList front ++ marker ++ String.ofList back := by
      apply String.toList_inj.mp
      simpa only [String.toList_append, String.toList_ofList] using same
    have sameFront : front = arn.front.toList := by
      rw [← arn.oneMarker _ _ texts, String.toList_ofList]
    subst sameFront
    exact ⟨rfl, (List.append_cancel_left same).symm⟩
  simp [executionArn, found, arn.unqualified, StateMachineArn.execution]

variable {ω φ : Type} {client : StepFunctionsClient ω φ} {arn : StateMachineArn}
  {executions : ω → List Execution} {service service' : ω} {input : φ} {action : GovernedAction}
  {answer : Except String String}

/-- One start: the executions grow by at most the action's own, and a normal answer is the
    ARN of that execution, which exists by then. -/
theorem start_spec (contract : StepFunctionsContract client arn executions)
    (started : start client arn.text service input action = (service', answer)) :
    (executions service' = executions service ∨
      (executionName action.id ∉ (executions service).map (·.name) ∧
        executions service' =
          executions service ++ [⟨executionName action.id, startInput action⟩])) ∧
    ∀ reference, answer = .ok reference → reference = arn.execution (executionName action.id) ∧
      executionName action.id ∈ (executions service').map (·.name) := by
  rcases called : client.startExecution service input arn.text (executionName action.id)
    (startInput action) with ⟨next, response⟩
  have effect := contract.starts _ _ _ _ _ _ called
  simp only [start, called, executionArn_text] at started
  -- `start` swallows one exception only, `ExecutionAlreadyExists`
  have raises : ∀ fault : StartFault, ¬ fault.alreadyExists → response = .error fault →
      next = service' ∧ ∀ reference, answer ≠ .ok reference := by
    rintro fault other rfl
    cases fault with
    | raised typeName =>
      cases started
      exact ⟨rfl, fun _ => by simp⟩
    | clientError code typeName =>
      have differ : code ≠ some "ExecutionAlreadyExists" := other
      simp only [if_pos differ] at started
      cases started
      exact ⟨rfl, fun _ => by simp⟩
  generalize laterIs : executions next = later at effect
  cases effect with
  | created absent =>
    cases started
    refine ⟨.inr ⟨absent, laterIs⟩, ?_⟩
    rintro reference ⟨⟩
    refine ⟨rfl, ?_⟩
    rw [laterIs]
    simp
  | answered present =>
    cases started
    refine ⟨.inl laterIs, ?_⟩
    rintro reference ⟨⟩
    refine ⟨rfl, ?_⟩
    rw [laterIs]
    exact present
  | @alreadyExists fault present exists_ =>
    cases fault with
    | raised typeName => cases exists_
    | clientError code typeName =>
      have same : ¬ code ≠ some "ExecutionAlreadyExists" := not_not.mpr exists_
      simp only [if_neg same] at started
      cases started
      refine ⟨.inl laterIs, ?_⟩
      rintro reference ⟨⟩
      refine ⟨rfl, ?_⟩
      rw [laterIs]
      exact present
  | refused other =>
    obtain ⟨rfl, noAnswer⟩ := raises _ other rfl
    exact ⟨.inl laterIs, fun reference returned => absurd returned (noAnswer reference)⟩
  | lostAnswer absent other =>
    -- the service has started the execution and the caller does not learn of it
    obtain ⟨rfl, noAnswer⟩ := raises _ other rfl
    exact ⟨.inr ⟨absent, laterIs⟩, fun reference returned => absurd returned (noAnswer reference)⟩

/-- The ARN of an execution fits the column that it is stored in, where the ARN of the state machine has
    at most the 256 characters that Step Functions allows. -/
theorem start_fits (contract : StepFunctionsContract client arn executions) (fits : Varchar 256 arn.text)
    (service : ω) (input : φ) (action : GovernedAction) (reference : String)
    (started : (start client arn.text service input action).2 = .ok reference) :
    Varchar 2048 reference := by
  obtain ⟨isArn, -⟩ := (start_spec contract rfl).2 reference started
  obtain ⟨short, storable⟩ := fits
  rw [isArn, StateMachineArn.execution, executionName]
  simp only [StorableText, StateMachineArn.text, marker, String.toList_append, List.mem_append,
    not_or] at storable
  constructor
  · rw [StateMachineArn.text, String.length_append, String.length_append] at short
    have prefixes : ":execution:".length = 11 ∧ ":".length = 1 ∧ "supplier-action-".length = 16 := by
      decide
    have hex : action.id.hex.length = 32 := by
      rw [UUID.hex, String.length_ofList, UUID.hexChars_length]
    simp only [String.length_append, prefixes, hex]
    omega
  · simp only [StorableText, String.toList_append, List.mem_append, not_or]
    exact ⟨⟨⟨⟨storable.1.1, by decide⟩, storable.2⟩, by decide⟩, by decide,
      UUID.nul_notMem_hex action.id⟩

end StepFunctionsApprovalWorkflow

end SupplierAssurance.Workflows
