import SupplierAssurance.Python.JsonLoads

/-! # State machines in the Amazon States Language

The Task, Choice, Wait, Succeed and Fail states of the language and what one step of an
execution does.  A machine is data; what a task calls is an argument of the step, because
it depends on the world at that moment.

* `Machine`, `State` — the definition of a state machine.  Paths are those of the form
  `$.field`, a task has at most one retrier.
* `Execution.step` — one step at a time `now`, in seconds since some epoch.
* `Execution.Moves` — the same step as a relation with one constructor for each way a step
  can end.  `step_moves` is the inversion lemma that invariants are proved by.
* `Execution.exists_due` and `Execution.step_ended` — an execution that is running can take
  its next step once it is due, and one that has ended takes none.
-/

namespace SupplierAssurance.Lib.States

open Python

/-- The value at the path `$.field`. -/
def field (document : Json) (name : String) : Option Json :=
  match document with
  | .obj fields => fields.lookup name
  | _ => none

structure Retrier where
  errorEquals : List String
  intervalSeconds : Nat
  maxAttempts : Nat
  backoffRate : Nat
deriving DecidableEq

/-- A `StringEquals` rule of a Choice state. -/
structure Rule where
  variable_ : String
  stringEquals : String
  next : String
deriving DecidableEq

inductive State where
  | task (parameters : List (String × String)) (retry : Retrier) (next : String)
  | choice (rules : List Rule) (default : String)
  | wait (seconds : Nat) (next : String)
  | succeed
  | fail (error cause : String)
deriving DecidableEq

structure Machine where
  startAt : String
  states : List (String × State)
  timeoutSeconds : Nat

/-- A running execution is in a state with its input; `attempts` counts the retries of the
    state, and `due` is the earliest time of its next step.  A failed one remembers the state
    in which it failed. -/
inductive Status where
  | running (state : String) (input : Json) (due : Nat) (attempts : Nat)
  | succeeded (output : Json)
  | failed (state : String) (error : String)
  | timedOut

def Status.Ended : Status → Prop
  | .running .. => False
  | _ => True

structure Execution where
  startedAt : Nat
  status : Status

/-- The seconds between entering a state and its step. -/
def State.delay : State → Nat
  | .wait seconds _ => seconds
  | _ => 0

def Machine.enter (machine : Machine) (state : String) (input : Json) (now : Nat) : Status :=
  .running state input (now + ((machine.states.lookup state).map State.delay).getD 0) 0

def Machine.start (machine : Machine) (input : Json) (now : Nat) : Execution :=
  ⟨now, machine.enter machine.startAt input now⟩

/-- The payload of a task: every parameter takes its value from a field of the input. -/
def payload (parameters : List (String × String)) (input : Json) : Option Json :=
  (parameters.mapM fun p => (field input p.2).map fun value => (p.1, value)).map Json.obj

/-- The state that a Choice state leads to; `none` when a rule looks for a field that the
    input lacks. -/
def choose : List Rule → String → Json → Option String
  | [], default, _ => some default
  | rule :: rules, default, input =>
    match field input rule.variable_ with
    | none => none
    | some (.str value) =>
      if value = rule.stringEquals then some rule.next else choose rules default input
    | some _ => choose rules default input

def Retrier.delay (retry : Retrier) (attempts : Nat) : Nat :=
  retry.intervalSeconds * retry.backoffRate ^ attempts

/-- The next status of an execution that is in `state` and due. -/
def State.run (machine : Machine) (now : Nat) (invoke : Json → Except String Json) (name : String)
    (input : Json) (attempts : Nat) : State → Status
  | .task parameters retry next =>
    match payload parameters input with
    | none => .failed name "States.ParameterPathFailure"
    | some event =>
      match invoke event with
      | .ok output => machine.enter next output now
      | .error error =>
        if error ∈ retry.errorEquals ∧ attempts < retry.maxAttempts then
          .running name input (now + retry.delay attempts) (attempts + 1)
        else .failed name error
  | .choice rules default =>
    match choose rules default input with
    | none => .failed name "States.Runtime"
    | some next => machine.enter next input now
  | .wait _ next => machine.enter next input now
  | .succeed => .succeeded input
  | .fail error _ => .failed name error

/-- One step of an execution at the time `now`; `none` when it has ended or is not yet due.
    Past its deadline an execution only times out. -/
def Execution.step (machine : Machine) (now : Nat) (invoke : Json → Except String Json)
    (execution : Execution) : Option Execution :=
  match execution.status with
  | .running name input due attempts =>
    if execution.startedAt + machine.timeoutSeconds ≤ now then
      some { execution with status := .timedOut }
    else if now < due then none
    else
      match machine.states.lookup name with
      | none => some { execution with status := .failed name "States.Runtime" }
      | some state => some { execution with status := state.run machine now invoke name input attempts }
  | _ => none

/-- How a step of a running execution ends. -/
inductive Execution.Moves (machine : Machine) (now : Nat) (invoke : Json → Except String Json)
    (execution : Execution) : Execution → Prop
  | timedOut {name : String} {input : Json} {due attempts : Nat} :
      execution.status = .running name input due attempts →
      execution.startedAt + machine.timeoutSeconds ≤ now →
      Moves machine now invoke execution { execution with status := .timedOut }
  | unknown {name : String} {input : Json} {due attempts : Nat} :
      execution.status = .running name input due attempts →
      machine.states.lookup name = none →
      Moves machine now invoke execution { execution with status := .failed name "States.Runtime" }
  | ran {name : String} {input : Json} {due attempts : Nat} {state : State} :
      execution.status = .running name input due attempts →
      now < execution.startedAt + machine.timeoutSeconds → due ≤ now →
      machine.states.lookup name = some state →
      Moves machine now invoke execution
        { execution with status := state.run machine now invoke name input attempts }

variable {machine : Machine} {now : Nat} {invoke : Json → Except String Json}
  {execution execution' : Execution}

theorem Execution.step_moves (moved : execution.step machine now invoke = some execution') :
    execution.Moves machine now invoke execution' := by
  cases status : execution.status with
  | running name input due attempts =>
    simp only [step, status] at moved
    split at moved
    next late =>
      cases moved
      exact .timedOut status late
    next early =>
      split at moved
      next => cases moved
      next isDue =>
        split at moved
        next unknown =>
          cases moved
          exact .unknown status unknown
        next state found =>
          cases moved
          exact .ran status (Nat.lt_of_not_le early) (Nat.le_of_not_lt isDue) found
  | succeeded output => simp [step, status] at moved
  | failed name error => simp [step, status] at moved
  | timedOut => simp [step, status] at moved

/-- A running execution takes its next step at any time from when it is due. -/
theorem Execution.exists_due (running : ¬ execution.status.Ended) (machine : Machine) :
    ∃ due, ∀ now invoke, due ≤ now → ∃ execution', execution.step machine now invoke = some execution' := by
  cases status : execution.status with
  | running name input due attempts =>
    refine ⟨due, fun now invoke isDue => ?_⟩
    simp only [step, status, if_neg (Nat.not_lt.mpr isDue)]
    split
    · exact ⟨_, rfl⟩
    · split <;> exact ⟨_, rfl⟩
  | succeeded output => simp [status, Status.Ended] at running
  | failed name error => simp [status, Status.Ended] at running
  | timedOut => simp [status, Status.Ended] at running

/-- An execution that has ended takes no step. -/
theorem Execution.step_ended (ended : execution.status.Ended) :
    execution.step machine now invoke = none := by
  cases status : execution.status with
  | running name input due attempts => simp [status, Status.Ended] at ended
  | succeeded output => simp [step, status]
  | failed name error => simp [step, status]
  | timedOut => simp [step, status]

/-- The time at which an execution started stays. -/
theorem Execution.Moves.startedAt (moves : execution.Moves machine now invoke execution') :
    execution'.startedAt = execution.startedAt := by
  cases moves <;> rfl

end SupplierAssurance.Lib.States
