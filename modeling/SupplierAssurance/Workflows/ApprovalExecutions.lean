import SupplierAssurance.Governance.Lifecycle
import SupplierAssurance.Outbox.ExactlyOnce
import SupplierAssurance.Workflows.ApprovalStatus

/-! # The verdict of an approval workflow

The governed-action system together with the executions of the production state machine.
A step of the deployment is a step of the system or a step of one execution, so a poll may
fall anywhere between the transactions of the calls and the steps of the workers, and see a
status that has changed by the time it is routed.

`StatusOk a` says what the status of an execution tells about the action `a` it belongs to.
It survives every move of the action's status because a poll that saw `pending_approval`
only leads to another poll, and the other statuses a poll can see are final up to execution.
-/

namespace SupplierAssurance.ApprovalStatus

open Python Lib Governance Outbox Workflows StepFunctionsApprovalWorkflow

/-! ## The deployment -/

structure Deployment (σ ω : Type) where
  world : World σ ω
  approvals : List (String × States.Execution)

inductive DeploymentLabel (ε φ : Type) where
  | world (label : Label ε φ) (now : Nat)
  | execution (name : String) (now : Nat) (fault : Option String)

/-- A new execution, with the JSON value of its input. -/
def begin_ (now : Nat) (e : Execution) : Option (String × States.Execution) :=
  (Json.loads e.input).map fun input => (e.name, approvalStateMachine.start input now)

/-- The executions that the service has and the list does not. -/
def created (approvals : List (String × States.Execution)) (executions : List Execution) :
    List Execution :=
  executions.filter fun e => e.name ∉ approvals.map (·.1)

def setExecution (approvals : List (String × States.Execution)) (name : String)
    (execution : States.Execution) : List (String × States.Execution) :=
  approvals.map fun p => if p.1 = name then (name, execution) else p

namespace Deployment

variable {σ ε ω φ : Type}

def step (platform : Platform σ ε ω φ) (executions : ω → List Execution) (d : Deployment σ ω) :
    DeploymentLabel ε φ → Option (Deployment σ ω)
  | .world label now =>
    (World.step platform d.world label).map fun w =>
      { world := w
        approvals := d.approvals ++
          (created d.approvals (executions w.workflow)).filterMap (begin_ now) }
  | .execution name now fault =>
    match d.approvals.lookup name with
    | none => none
    | some e =>
      (e.step approvalStateMachine now (invoke d.world.store fault)).map fun e' =>
        { d with approvals := setExecution d.approvals name e' }

/-- No execution yet, and nothing stored but cases and reviews. -/
def initial (caseIds reviewIds : List UUID) (supplier : σ) (workflow : ω) : Deployment σ ω :=
  ⟨World.initial caseIds reviewIds supplier workflow, []⟩

/-- The deployments that some run from an empty store and a service without executions
    reaches. -/
def Reachable (platform : Platform σ ε ω φ) (executions : ω → List Execution) (d : Deployment σ ω) :
    Prop :=
  ∃ caseIds reviewIds supplier workflow, executions workflow = [] ∧
    Steps (step platform executions) (initial caseIds reviewIds supplier workflow) d

/-- A step of the deployment with what it found. -/
inductive Moves (platform : Platform σ ε ω φ) (executions : ω → List Execution)
    (d : Deployment σ ω) : DeploymentLabel ε φ → Deployment σ ω → Prop
  | world {label : Label ε φ} {w : World σ ω} (now : Nat) :
      World.step platform d.world label = some w →
      Moves platform executions d (.world label now)
        { world := w
          approvals := d.approvals ++
            (created d.approvals (executions w.workflow)).filterMap (begin_ now) }
  | execution {name : String} {now : Nat} {fault : Option String} {e e' : States.Execution} :
      d.approvals.lookup name = some e →
      e.step approvalStateMachine now (invoke d.world.store fault) = some e' →
      e.Moves approvalStateMachine now (invoke d.world.store fault) e' →
      Moves platform executions d (.execution name now fault)
        { d with approvals := setExecution d.approvals name e' }

variable {platform : Platform σ ε ω φ} {executions : ω → List Execution} {d d' : Deployment σ ω}

theorem step_moves {label : DeploymentLabel ε φ} (moved : step platform executions d label = some d') :
    Moves platform executions d label d' := by
  cases label with
  | world label now =>
    obtain ⟨w, stepped, rfl⟩ := Option.map_eq_some_iff.mp moved
    exact .world now stepped
  | execution name now fault =>
    simp only [step] at moved
    cases found : d.approvals.lookup name with
    | none => simp [found] at moved
    | some e =>
      rw [found] at moved
      obtain ⟨e', stepped, rfl⟩ := Option.map_eq_some_iff.mp moved
      exact .execution found stepped (States.Execution.step_moves stepped)

end Deployment

/-! ## What the status of an execution tells -/

/-- A status that a poll saw and the current one. -/
def Saw (seen current : ActionStatus) : Prop :=
  Relation.ReflTransGen StatusMove seen current ∧ seen ≠ .failed

inductive StatusOk (a : GovernedAction) : States.Status → Prop
  | checking {input : Json} {due attempts : Nat} :
      States.field input "action_id" = some (.str a.id.str) →
      StatusOk a (.running "CheckCommittedApproval" input due attempts)
  | routing {seen : ActionStatus} {due attempts : Nat} : Saw seen a.status →
      StatusOk a (.running "RouteApprovalStatus" (answer a.id seen) due attempts)
  | waiting {due attempts : Nat} :
      StatusOk a (.running "WaitForHumanDecision" (answer a.id .pendingApproval) due attempts)
  | approving {input : Json} {due attempts : Nat} : PastApproval a.status →
      StatusOk a (.running "ApprovalSucceeded" input due attempts)
  | rejecting {input : Json} {due attempts : Nat} : a.status = .rejected →
      StatusOk a (.running "ApprovalRejected" input due attempts)
  | succeeded {output : Json} : PastApproval a.status → StatusOk a (.succeeded output)
  | rejected : a.status = .rejected → StatusOk a (.failed "ApprovalRejected" "SupplierActionRejected")
  | aborted {error : String} : StatusOk a (.failed "CheckCommittedApproval" error)
  | timedOut : StatusOk a .timedOut

variable {a a' : GovernedAction} {status : States.Status}

theorem moves_from_rejected {current : ActionStatus}
    (moves : Relation.ReflTransGen StatusMove .rejected current) : current = .rejected := by
  cases moves.cases_head with
  | inl same => exact same.symm
  | inr moved =>
    obtain ⟨next, move, _⟩ := moved
    cases move

theorem moves_pastApproval {before after : ActionStatus} (past : PastApproval before)
    (moves : Relation.ReflTransGen StatusMove before after) : PastApproval after := by
  induction moves with
  | refl => exact past
  | tail _ move ih =>
    cases move with
    | approve => rcases ih with h | h <;> cases h
    | reject => rcases ih with h | h <;> cases h
    | execute => exact .inr rfl

theorem StatusOk.evolve (ok : StatusOk a status) (same : a'.id = a.id)
    (moves : Relation.ReflTransGen StatusMove a.status a'.status) : StatusOk a' status := by
  cases ok with
  | checking about => exact .checking (by rw [same]; exact about)
  | routing saw =>
    rw [← same]
    exact .routing ⟨saw.1.trans moves, saw.2⟩
  | waiting =>
    rw [← same]
    exact .waiting
  | approving past => exact .approving (moves_pastApproval past moves)
  | rejecting isRejected => exact .rejecting (moves_from_rejected (isRejected ▸ moves))
  | succeeded past => exact .succeeded (moves_pastApproval past moves)
  | rejected isRejected => exact .rejected (moves_from_rejected (isRejected ▸ moves))
  | aborted => exact .aborted
  | timedOut => exact .timedOut

/-! ## One step of an execution -/

theorem lookup_check :
    approvalStateMachine.states.lookup "CheckCommittedApproval" = some checkApproval := rfl

theorem lookup_route :
    approvalStateMachine.states.lookup "RouteApprovalStatus" = some routeApproval := by
  simp [approvalStateMachine, List.lookup_cons]

theorem lookup_wait : approvalStateMachine.states.lookup "WaitForHumanDecision" =
    some (.wait 300 "CheckCommittedApproval") := by
  simp [approvalStateMachine, List.lookup_cons]

theorem lookup_succeeded :
    approvalStateMachine.states.lookup "ApprovalSucceeded" = some .succeed := by
  simp [approvalStateMachine, List.lookup_cons]

theorem lookup_rejected : approvalStateMachine.states.lookup "ApprovalRejected" =
    some (.fail "SupplierActionRejected"
      "The governed supplier action was rejected by a human approver.") := by
  simp [approvalStateMachine, List.lookup_cons]

variable {db : Store} {e e' : States.Execution} {now : Nat} {fault : Option String}

/-- What a step makes of the status of an execution for `a`, with the deadline of the execution and
    the fault of the poll. -/
inductive StatusStep (a : GovernedAction) (now deadline : Nat) (fault : Option String) :
    States.Status → States.Status → Prop
  | timedOut {status : States.Status} : deadline ≤ now → StatusStep a now deadline fault status .timedOut
  | answered {input : Json} {due attempts : Nat} : fault = none →
      StatusStep a now deadline fault (.running "CheckCommittedApproval" input due attempts)
        (.running "RouteApprovalStatus" (answer a.id a.status) now 0)
  | retried {input : Json} {due due' attempts : Nat} {error : String} : fault = some error →
      States.field input "action_id" = some (.str a.id.str) →
      StatusStep a now deadline fault (.running "CheckCommittedApproval" input due attempts)
        (.running "CheckCommittedApproval" input due' (attempts + 1))
  | aborted {input : Json} {due attempts : Nat} {error : String} : fault = some error →
      StatusStep a now deadline fault (.running "CheckCommittedApproval" input due attempts)
        (.failed "CheckCommittedApproval" error)
  | routed {seen : ActionStatus} {due attempts : Nat} : Saw seen a.status →
      StatusStep a now deadline fault
        (.running "RouteApprovalStatus" (answer a.id seen) due attempts)
        (approvalStateMachine.enter (routeOf seen) (answer a.id seen) now)
  | waited {due attempts : Nat} :
      StatusStep a now deadline fault
        (.running "WaitForHumanDecision" (answer a.id .pendingApproval) due attempts)
        (approvalStateMachine.enter "CheckCommittedApproval" (answer a.id .pendingApproval) now)
  | succeeded {input : Json} {due attempts : Nat} : PastApproval a.status →
      StatusStep a now deadline fault (.running "ApprovalSucceeded" input due attempts)
        (.succeeded input)
  | rejected {input : Json} {due attempts : Nat} : a.status = .rejected →
      StatusStep a now deadline fault (.running "ApprovalRejected" input due attempts)
        (.failed "ApprovalRejected" "SupplierActionRejected")

/-- An execution is never in a state that the machine lacks. -/
theorem StatusOk.lookup_ne_none {name : String} {input : Json} {due attempts : Nat}
    (ok : StatusOk a (.running name input due attempts)) :
    approvalStateMachine.states.lookup name ≠ none := by
  cases ok with
  | checking => simp [lookup_check]
  | routing => simp [lookup_route]
  | waiting => simp [lookup_wait]
  | approving => simp [lookup_succeeded]
  | rejecting => simp [lookup_rejected]

/-- A poll that is answered leads to the routing of what it saw; one that is not is repeated
    or ends the execution where it is. -/
theorem statusStep_check {input : Json} {due attempts deadline : Nat} (member : a ∈ db.actions.rows)
    (about : States.field input "action_id" = some (.str a.id.str)) :
    StatusStep a now deadline fault (.running "CheckCommittedApproval" input due attempts)
      (States.State.run approvalStateMachine now (invoke db fault) "CheckCommittedApproval"
        input attempts checkApproval) := by
  cases fault with
  | none =>
    rw [run_check member about]
    exact .answered rfl
  | some error =>
    simp only [checkApproval, States.State.run, payload_action about, invoke]
    split
    · exact .retried rfl about
    · exact .aborted rfl

theorem StatusOk.statusStep (ok : StatusOk a e.status) (member : a ∈ db.actions.rows)
    (moves : e.Moves approvalStateMachine now (invoke db fault) e') :
    StatusStep a now (e.startedAt + approvalStateMachine.timeoutSeconds) fault e.status e'.status := by
  cases moves with
  | timedOut _ late => exact .timedOut late
  | unknown running missing =>
    rw [running] at ok
    exact absurd missing ok.lookup_ne_none
  | ran running early isDue found =>
    rw [running] at ok ⊢
    cases ok with
    | checking about =>
      rw [lookup_check] at found
      cases found
      exact statusStep_check member about
    | routing saw =>
      rw [lookup_route] at found
      cases found
      simp only [run_route]
      exact .routed saw
    | waiting =>
      rw [lookup_wait] at found
      cases found
      exact .waited
    | approving past =>
      rw [lookup_succeeded] at found
      cases found
      exact .succeeded past
    | rejecting isRejected =>
      rw [lookup_rejected] at found
      cases found
      exact .rejected isRejected

theorem StatusOk.routed {seen : ActionStatus} (saw : Saw seen a.status) (now : Nat) :
    StatusOk a (approvalStateMachine.enter (routeOf seen) (answer a.id seen) now) := by
  cases seen with
  | pendingApproval => exact .waiting
  | approved => exact .approving (moves_pastApproval (.inl rfl) saw.1)
  | executed => exact .approving (moves_pastApproval (.inr rfl) saw.1)
  | rejected => exact .rejecting (moves_from_rejected saw.1)
  | failed => exact absurd rfl saw.2

theorem StatusStep.ok {deadline : Nat} {status status' : States.Status} (notFailed : a.status ≠ .failed)
    (stepped : StatusStep a now deadline fault status status') : StatusOk a status' := by
  cases stepped with
  | timedOut => exact .timedOut
  | answered => exact .routing ⟨.refl, notFailed⟩
  | retried _ about => exact .checking about
  | aborted => exact .aborted
  | routed saw => exact .routed saw now
  | waited => exact .checking (field_answer_id a.id .pendingApproval)
  | succeeded past => exact .succeeded past
  | rejected isRejected => exact .rejected isRejected

/-- An execution fails in its poll only when the poll was not answered, with the error of the call. -/
theorem StatusStep.unanswered {deadline : Nat} {status status' : States.Status} {error : String}
    (stepped : StatusStep a now deadline fault status status')
    (failed : status' = .failed "CheckCommittedApproval" error) : fault = some error := by
  cases stepped with
  | aborted faulted =>
    cases failed
    exact faulted
  | timedOut | answered | retried | routed | waited | succeeded => cases failed
  | rejected => simp at failed

/-! ## One step of the deployment -/

section

variable {σ ε ω φ : Type} {platform : Platform σ ε ω φ} {client : StepFunctionsClient ω φ}
  {arn : StateMachineArn} {executions : ω → List Execution} {d d' : Deployment σ ω}

theorem not_failed {w : World σ ω} (governed : w.Governed) (member : a ∈ w.store.actions.rows) :
    a.status ≠ .failed := by
  intro failed
  have decided : a.status ≠ .pendingApproval := by simp [failed]
  obtain ⟨_, _, status, _, _, _, follows, outcome⟩ := governed.decided a member decided
  rcases follows with same | ⟨_, executed⟩
  · rw [failed] at same
    rcases outcome with h | h <;> simp [← same] at h
  · rw [failed] at executed
    cases executed

theorem serializable_startInput (action : GovernedAction) :
    Json.Serializable (.obj [("action_id", .str action.id.str), ("case_id", .str action.caseId.str),
      ("tenant_id", .str action.tenantId), ("tool_name", .str action.toolName),
      ("status", .str action.status.value)]) := by
  have keys : ["action_id", "case_id", "tenant_id", "tool_name", "status"].Nodup := by decide
  refine .obj keys ?_
  intro field member
  simp only [List.mem_cons, List.not_mem_nil, or_false] at member
  rcases member with rfl | rfl | rfl | rfl | rfl <;> exact .str _

/-- A new execution starts with a poll for the action whose start created it. -/
theorem begin_startInput (now : Nat) (action : GovernedAction) :
    ∃ execution, begin_ now ⟨executionName action.id, startInput action⟩ =
        some (executionName action.id, execution) ∧
      ∀ a : GovernedAction, a.id = action.id → StatusOk a execution.status := by
  refine ⟨_, by rw [begin_, startInput, Json.loads_dumps (serializable_startInput action)]; rfl, ?_⟩
  intro a same
  exact .checking (same ▸ rfl)

/-- A step of the system starts at most one execution, for a stored action. -/
theorem executions_step {w w' : World σ ω} {label : Label ε φ}
    (contract : StepFunctionsContract client arn executions)
    (adapter : platform.workflow = stepFunctionsApprovalWorkflow client arn.text)
    (inv : World.StartInv arn (executions w.workflow) w)
    (moved : World.step platform w label = some w') :
    executions w'.workflow = executions w.workflow ∨
      ∃ action : GovernedAction, (∃ a ∈ w'.store.actions.rows, a.id = action.id) ∧
        executionName action.id ∉ (executions w.workflow).map (·.name) ∧
        executions w'.workflow =
          executions w.workflow ++ [⟨executionName action.id, startInput action⟩] := by
  cases World.step_moves moved with
  | @start workerId input message action batch workflow answer starting started =>
    rw [adapter] at started
    obtain ⟨grown, _⟩ := start_spec contract started
    have isStarting := inv.workers workerId
    rw [starting] at isStarting
    obtain ⟨_, a, member, same⟩ := isStarting.loaded message action batch rfl
    rcases grown with same | ⟨absent, grown⟩
    · exact .inl same
    · exact .inr ⟨action, ⟨a, member, by assumption⟩, absent, grown⟩
  | submit | advance | claim | load | acknowledge | crash | storeCase | storeReview => exact .inl rfl

/-- What holds of every reachable deployment, beside the invariants of its system. -/
structure Tracked (executions : ω → List Execution) (d : Deployment σ ω) : Prop where
  names : d.approvals.map (·.1) = (executions d.world.workflow).map (·.name)
  tells : ∀ name e, (name, e) ∈ d.approvals →
    ∃ a ∈ d.world.store.actions.rows, name = executionName a.id ∧ StatusOk a e.status

theorem created_of_names {approvals : List (String × States.Execution)} {list : List Execution}
    (names : approvals.map (·.1) = list.map (·.name)) : created approvals list = [] := by
  apply List.filter_eq_nil_iff.mpr
  intro e member
  rw [names]
  simpa using ⟨e, member, rfl⟩

theorem created_concat {approvals : List (String × States.Execution)} {list : List Execution}
    (names : approvals.map (·.1) = list.map (·.name)) {e : Execution}
    (absent : e.name ∉ list.map (·.name)) : created approvals (list ++ [e]) = [e] := by
  have old := created_of_names names
  rw [created] at old ⊢
  rw [List.filter_append, old, List.nil_append, names]
  simpa using absent

theorem Tracked.tells_evolve {d : Deployment σ ω} {w : World σ ω} (tracked : Tracked executions d)
    (advance : World.RowsAdvance d.world w) {name : String} {e : States.Execution}
    (member : (name, e) ∈ d.approvals) :
    ∃ a ∈ w.store.actions.rows, name = executionName a.id ∧ StatusOk a e.status := by
  obtain ⟨a, aMember, named, ok⟩ := tracked.tells name e member
  obtain ⟨a', aMember', identity, moves⟩ := advance a aMember
  have same : a'.id = a.id := congrArg ActionIdentity.id identity
  exact ⟨a', aMember', by rw [same]; exact named, ok.evolve same moves⟩

theorem mem_of_lookup {approvals : List (String × States.Execution)} {name : String}
    {e : States.Execution} (found : approvals.lookup name = some e) : (name, e) ∈ approvals := by
  induction approvals with
  | nil => cases found
  | cons p rest ih =>
    obtain ⟨first, execution⟩ := p
    rw [List.lookup_cons] at found
    split at found
    next same =>
      cases found
      rw [beq_iff_eq.mp same]
      exact List.mem_cons_self
    next => exact List.mem_cons_of_mem _ (ih found)

theorem setExecution_names (approvals : List (String × States.Execution)) (name : String)
    (e : States.Execution) : (setExecution approvals name e).map (·.1) = approvals.map (·.1) := by
  rw [setExecution, List.map_map]
  apply List.map_congr_left
  intro p _
  simp only [Function.comp]
  split
  next same => exact same.symm
  next => rfl

theorem mem_setExecution {approvals : List (String × States.Execution)} {name other : String}
    {e e' : States.Execution} (member : (other, e') ∈ setExecution approvals name e) :
    (other = name ∧ e' = e) ∨ (other ≠ name ∧ (other, e') ∈ approvals) := by
  obtain ⟨p, old, changed⟩ := List.mem_map.mp member
  split at changed
  next same =>
    cases changed
    exact .inl ⟨rfl, rfl⟩
  next differ =>
    subst changed
    exact .inr ⟨differ, old⟩

theorem tracked_step {label : DeploymentLabel ε φ}
    (contract : StepFunctionsContract client arn executions)
    (adapter : platform.workflow = stepFunctionsApprovalWorkflow client arn.text)
    (governed : d.world.Governed) (inv : World.StartInv arn (executions d.world.workflow) d.world)
    (tracked : Tracked executions d) (moved : d.step platform executions label = some d') :
    Tracked executions d' := by
  cases Deployment.step_moves moved with
  | @world label w now stepped =>
    have advance : World.RowsAdvance d.world w := World.rowsAdvance_steps governed (.snoc .refl stepped)
    rcases executions_step contract adapter inv stepped with same | ⟨action, stored, absent, grown⟩
    · have none : created d.approvals (executions w.workflow) = [] := by
        rw [same]
        exact created_of_names tracked.names
      constructor
      · simp only [none, List.filterMap_nil, List.append_nil]
        rw [same]
        exact tracked.names
      · intro name e member
        simp only [none, List.filterMap_nil, List.append_nil] at member
        exact tracked.tells_evolve advance member
    · obtain ⟨execution, begun, ok⟩ := begin_startInput now action
      have one : created d.approvals (executions w.workflow) =
          [⟨executionName action.id, startInput action⟩] := by
        rw [grown]
        exact created_concat tracked.names absent
      constructor
      · simp only [one, List.filterMap_cons, begun, List.filterMap_nil]
        rw [grown, List.map_append, List.map_append, tracked.names]
        rfl
      · intro name e member
        simp only [one, List.filterMap_cons, begun, List.filterMap_nil] at member
        rcases List.mem_append.mp member with old | new
        · exact tracked.tells_evolve advance old
        · -- a new execution only knows the id of its action
          cases List.mem_singleton.mp new
          obtain ⟨a, aMember, same⟩ := stored
          exact ⟨a, aMember, by rw [same], ok a same⟩
  | @execution name now fault e e' found stepped moves =>
    constructor
    · rw [← tracked.names]
      exact setExecution_names d.approvals name e'
    · intro other f member
      rcases mem_setExecution member with ⟨rfl, rfl⟩ | ⟨_, old⟩
      · obtain ⟨a, aMember, named, ok⟩ := tracked.tells other e (mem_of_lookup found)
        exact ⟨a, aMember, named, (ok.statusStep aMember moves).ok (not_failed governed aMember)⟩
      · exact tracked.tells other f old

/-! ## The verdict is sound -/

structure Sound (arn : StateMachineArn) (executions : ω → List Execution) (d : Deployment σ ω) :
    Prop where
  governed : d.world.Governed
  delivering : d.world.Delivering
  started : World.StartInv arn (executions d.world.workflow) d.world
  tracked : Tracked executions d

theorem Sound.names (sound : Sound arn executions d) : (d.approvals.map (·.1)).Nodup := by
  rw [sound.tracked.names]
  exact sound.started.distinct

theorem sound_step {label : DeploymentLabel ε φ}
    (contract : StepFunctionsContract client arn executions)
    (adapter : platform.workflow = stepFunctionsApprovalWorkflow client arn.text)
    (sound : Sound arn executions d) (moved : d.step platform executions label = some d') :
    Sound arn executions d' := by
  have tracked := tracked_step contract adapter sound.governed sound.started sound.tracked moved
  cases Deployment.step_moves moved with
  | world now stepped =>
    exact ⟨World.governed_step sound.governed stepped, World.delivering_step sound.delivering stepped,
      World.startInv_step contract adapter sound.started stepped, tracked⟩
  | execution => exact ⟨sound.governed, sound.delivering, sound.started, tracked⟩

theorem sound_reachable (contract : StepFunctionsContract client arn executions)
    (adapter : platform.workflow = stepFunctionsApprovalWorkflow client arn.text)
    (reachable : Deployment.Reachable platform executions d) : Sound arn executions d := by
  obtain ⟨caseIds, reviewIds, supplier, workflow, unused, steps⟩ := reachable
  refine steps.invariant ?_ fun holds _ moved => sound_step contract adapter holds moved
  have initially : World.Reachable platform
      (World.initial caseIds reviewIds supplier workflow) :=
    ⟨caseIds, reviewIds, supplier, workflow, .refl⟩
  refine ⟨initially.invariant World.governed_inductive, initially.invariant World.delivering_inductive,
    ?_, ?_⟩
  · show World.StartInv arn (executions workflow) (World.initial caseIds reviewIds supplier workflow)
    rw [unused]
    refine ⟨List.nodup_nil, ?_, ?_, fun _ => .idle none, ?_⟩ <;> simp [World.initial, Store.empty]
  · constructor
    · show [] = (executions workflow).map (·.name)
      rw [unused]
      rfl
    · intro name e member
      cases member

/-- An entry is the one that is found under its name. -/
theorem lookup_of_mem {approvals : List (String × States.Execution)}
    (distinct : (approvals.map (·.1)).Nodup) {name : String} {e : States.Execution}
    (member : (name, e) ∈ approvals) : approvals.lookup name = some e := by
  induction approvals with
  | nil => cases member
  | cons p rest ih =>
    obtain ⟨first, execution⟩ := p
    obtain ⟨fresh, distinct⟩ := List.nodup_cons.mp distinct
    rw [List.lookup_cons]
    rcases List.mem_cons.mp member with same | later
    · cases same
      simp
    · have differ : ¬ name = first := by
        rintro rfl
        exact fresh (List.mem_map.mpr ⟨_, later, rfl⟩)
      rw [beq_eq_false_iff_ne.mpr differ]
      exact ih distinct later

/-- The verdict of an ended execution is final. -/
theorem ended_step {label : DeploymentLabel ε φ} (sound : Sound arn executions d)
    (moved : d.step platform executions label = some d') {name : String} {e : States.Execution}
    (member : (name, e) ∈ d.approvals) (ended : e.status.Ended) : (name, e) ∈ d'.approvals := by
  cases Deployment.step_moves moved with
  | world now stepped => exact List.mem_append_left _ member
  | @execution other now fault f f' found stepped moves =>
    have differ : name ≠ other := by
      rintro rfl
      cases found.symm.trans (lookup_of_mem sound.names member)
      rw [States.Execution.step_ended ended] at stepped
      cases stepped
    exact List.mem_map.mpr ⟨(name, e), member, if_neg differ⟩

structure VerdictSound (platform : Platform σ ε ω φ) (executions : ω → List Execution)
    (d : Deployment σ ω) : Prop where
  /-- Every published proposal is polled. -/
  polled : ∀ m ∈ d.world.store.outbox.rows, m.publishedAt.isSome →
    ∃ e, (executionName m.aggregateId, e) ∈ d.approvals
  belongs : ∀ name e, (name, e) ∈ d.approvals → ∃ a ∈ d.world.store.actions.rows,
    name = executionName a.id ∧
    ∀ b ∈ d.world.store.actions.rows, name = executionName b.id → b = a
  single : ∀ name e e', (name, e) ∈ d.approvals → (name, e') ∈ d.approvals → e = e'
  approved : ∀ a ∈ d.world.store.actions.rows, ∀ e output, (executionName a.id, e) ∈ d.approvals →
    e.status = .succeeded output → PastApproval a.status
  /-- An execution fails because its action was rejected, or in a poll; it never finds the action in
      an unexpected state. -/
  rejected : ∀ a ∈ d.world.store.actions.rows, ∀ e state error,
    (executionName a.id, e) ∈ d.approvals → e.status = .failed state error →
    (state = "ApprovalRejected" ∧ error = "SupplierActionRejected" ∧ a.status = .rejected) ∨
      state = "CheckCommittedApproval"
  /-- It fails in a poll only if this is not answered. -/
  unanswered : ∀ name now fault error d' e,
    Deployment.step platform executions d (.execution name now fault) = some d' →
    (name, e) ∈ d'.approvals → e.status = .failed "CheckCommittedApproval" error → fault = some error
  final : ∀ d', Steps (Deployment.step platform executions) d d' → ∀ name e, (name, e) ∈ d.approvals →
    e.status.Ended → (name, e) ∈ d'.approvals

theorem Tracked.row (tracked : Tracked executions d) {e : States.Execution}
    (member : a ∈ d.world.store.actions.rows) (approval : (executionName a.id, e) ∈ d.approvals) :
    StatusOk a e.status := by
  obtain ⟨b, bMember, named, ok⟩ := tracked.tells _ e approval
  rwa [Table.eq_of_pk member bMember (executionName_injective named)]

/-- How many steps an execution of a decided action has left, if its polls are answered. -/
def rank : States.Status → Nat
  | .running name input _ _ =>
    if name = "WaitForHumanDecision" then 4
    else if name = "CheckCommittedApproval" then 3
    else if name = "RouteApprovalStatus" then
      match States.field input "status" with
      | some (.str status) => if status = "pending_approval" then 5 else 2
      | _ => 2
    else 1
  | _ => 0

inductive Verdict (a : GovernedAction) : States.Status → Prop
  | approved {output : Json} : PastApproval a.status → Verdict a (.succeeded output)
  | rejected : a.status = .rejected → Verdict a (.failed "ApprovalRejected" "SupplierActionRejected")

theorem Verdict.evolve (verdict : Verdict a status)
    (moves : Relation.ReflTransGen StatusMove a.status a'.status) : Verdict a' status := by
  cases verdict with
  | approved past => exact .approved (moves_pastApproval past moves)
  | rejected isRejected => exact .rejected (moves_from_rejected (isRejected ▸ moves))

theorem rank_answer (id : UUID) (seen : ActionStatus) (due attempts : Nat) :
    rank (.running "RouteApprovalStatus" (answer id seen) due attempts) =
      if seen = .pendingApproval then 5 else 2 := by
  cases seen <;> simp [rank, ActionStatus.value]

theorem rank_routeOf (seen : ActionStatus) (input : Json) (now : Nat) :
    rank (approvalStateMachine.enter (routeOf seen) input now) <
      if seen = .pendingApproval then 5 else 2 := by
  cases seen <;> simp [routeOf, States.Machine.enter, rank]

theorem rank_le_five (status : States.Status) : rank status ≤ 5 := by
  cases status with
  | running name input due attempts =>
    simp only [rank]
    repeat' split
    all_goals decide
  | succeeded output => exact Nat.zero_le 5
  | failed name error => exact Nat.zero_le 5
  | timedOut => exact Nat.zero_le 5

/-- An answered step before the deadline brings the execution of a decided action closer to
    its verdict. -/
theorem StatusStep.rank_lt {now deadline : Nat} {status status' : States.Status}
    (decided : a.status ≠ .pendingApproval) (early : now < deadline)
    (stepped : StatusStep a now deadline none status status') :
    rank status' < rank status ∧ (¬ status'.Ended ∨ Verdict a status') := by
  cases stepped with
  | timedOut late => omega
  | answered =>
    rw [rank_answer, if_neg decided]
    exact ⟨by simp [rank], .inl id⟩
  | retried faulted => cases faulted
  | aborted faulted => cases faulted
  | @routed seen =>
    rw [rank_answer]
    exact ⟨rank_routeOf seen (answer a.id seen) now, .inl id⟩
  | waited => exact ⟨by simp [States.Machine.enter, rank], .inl id⟩
  | succeeded past => exact ⟨by simp [rank], .inr (.approved past)⟩
  | rejected isRejected => exact ⟨by simp [rank], .inr (.rejected isRejected)⟩

/-- A step of the execution `name`. -/
def isStepOf (name : String) : DeploymentLabel ε φ → Bool
  | .world _ _ => false
  | .execution other _ _ => other = name

/-- The steps of the execution `name` are answered, and taken before its deadline. -/
def Answered (name : String) (deadline : Nat) : DeploymentLabel ε φ → Prop
  | .world _ _ => True
  | .execution other now fault => other = name → fault = none ∧ now < deadline

/-- The execution of a decided action, on its way or with its verdict. -/
structure Settling (arn : StateMachineArn) (executions : ω → List Execution) (id : UUID)
    (startedAt : Nat) (d : Deployment σ ω) : Prop where
  sound : Sound arn executions d
  decided : ∃ a ∈ d.world.store.actions.rows, a.id = id ∧ a.status ≠ .pendingApproval ∧
    ∃ e, (executionName id, e) ∈ d.approvals ∧ e.startedAt = startedAt ∧
      (¬ e.status.Ended ∨ Verdict a e.status)

def rankOf (name : String) (d : Deployment σ ω) : Nat :=
  ((d.approvals.lookup name).map fun e => rank e.status).getD 0

theorem rankOf_eq (sound : Sound arn executions d) {name : String} {e : States.Execution}
    (member : (name, e) ∈ d.approvals) : rankOf name d = rank e.status := by
  rw [rankOf, lookup_of_mem sound.names member]
  rfl

theorem not_pending_of_moves {before after : ActionStatus} (decided : before ≠ .pendingApproval)
    (moves : Relation.ReflTransGen StatusMove before after) : after ≠ .pendingApproval := by
  induction moves with
  | refl => exact decided
  | tail _ move _ => cases move <;> simp

theorem settling_step {label : DeploymentLabel ε φ} {id : UUID} {startedAt : Nat}
    (contract : StepFunctionsContract client arn executions)
    (adapter : platform.workflow = stepFunctionsApprovalWorkflow client arn.text)
    (settling : Settling arn executions id startedAt d)
    (answered : Answered (executionName id) (startedAt + approvalStateMachine.timeoutSeconds) label)
    (moved : d.step platform executions label = some d') :
    Settling arn executions id startedAt d' ∧
      rankOf (executionName id) d' + (if isStepOf (executionName id) label then 1 else 0) ≤
        rankOf (executionName id) d := by
  have sound' := sound_step contract adapter settling.sound moved
  obtain ⟨a, member, rfl, decided, e, approval, started, outcome⟩ := settling.decided
  cases Deployment.step_moves moved with
  | @world label w now stepped =>
    obtain ⟨a', member', identity, moves⟩ :=
      World.rowsAdvance_steps settling.sound.governed (.snoc .refl stepped) a member
    have kept := List.mem_append_left
      ((created d.approvals (executions w.workflow)).filterMap (begin_ now)) approval
    refine ⟨⟨sound', a', member', congrArg ActionIdentity.id identity,
      not_pending_of_moves decided moves, e, kept, started, outcome.imp_right (·.evolve moves)⟩, ?_⟩
    rw [rankOf_eq sound' kept, rankOf_eq settling.sound approval]
    exact Nat.le_refl _
  | @execution other now fault f f' found stepped moves =>
    by_cases own : other = executionName a.id
    · subst own
      cases found.symm.trans (lookup_of_mem settling.sound.names approval)
      obtain ⟨rfl, early⟩ := answered rfl
      rw [← started] at early
      have ok := settling.sound.tracked.row member approval
      obtain ⟨lower, outcome'⟩ := (ok.statusStep member moves).rank_lt decided early
      have kept : (executionName a.id, f') ∈ setExecution d.approvals (executionName a.id) f' :=
        List.mem_map.mpr ⟨_, approval, if_pos rfl⟩
      refine ⟨⟨sound', a, member, rfl, decided, f', kept, moves.startedAt.trans started, outcome'⟩, ?_⟩
      rw [rankOf_eq sound' kept, rankOf_eq settling.sound approval]
      simp only [isStepOf, decide_true, if_true]
      exact lower
    · have kept : (executionName a.id, e) ∈ setExecution d.approvals other f' :=
        List.mem_map.mpr ⟨_, approval, if_neg fun same => own same.symm⟩
      refine ⟨⟨sound', a, member, rfl, decided, e, kept, started, outcome⟩, ?_⟩
      rw [rankOf_eq sound' kept, rankOf_eq settling.sound approval]
      simp [isStepOf, own]

/-- What a run from the decision of an action on comes to, for its execution. -/
structure VerdictReached (platform : Platform σ ε ω φ) (executions : ω → List Execution) (id : UUID)
    (labels : List (DeploymentLabel ε φ)) (d : Deployment σ ω) : Prop where
  /-- The execution takes five more steps at most. -/
  bounded : labels.countP (isStepOf (executionName id)) ≤ 5
  /-- As long as it has not ended with the verdict of the action, it can go on. -/
  settles : ∃ a ∈ d.world.store.actions.rows, a.id = id ∧ ∃ e, (executionName id, e) ∈ d.approvals ∧
    (Verdict a e.status ∨ ∃ due, ∀ now fault, due ≤ now →
      ∃ d', d.step platform executions (.execution (executionName id) now fault) = some d')

end

/-! ## A polled approval

A proposal is delivered and polled while it is pending, then it is approved. -/

namespace Sample

def platform : Platform (List (UUID × ExecutionReceipt)) Datetime (List Execution) Unit where
  supplier := inMemorySupplierSystem
  workflow := stepFunctionsApprovalWorkflow (World.stepFunctions World.sampleArn) World.sampleArn.text
  config _ := SupplierAssurance.Sample.config
  references_fit := start_fits (World.stepFunctions_contract World.sampleArn) World.sampleArn_fits

def actionId : UUID := actionIdFor "tenant-a" ⟨0xc⟩

def poll (now : Nat) : DeploymentLabel Datetime Unit := .execution (executionName actionId) now none

/-- Proposed, delivered, and polled once before it is approved. -/
def approvedAfterPoll : List (DeploymentLabel Datetime Unit) :=
  let life := SupplierAssurance.Sample.fullLife 0 SupplierAssurance.Sample.proposalA
    SupplierAssurance.Sample.approverA
  ((life.take 3 ++ SupplierAssurance.Sample.deliver "outbox" 10).map fun label => .world label 0) ++
    [poll 1, poll 2] ++ ((life.drop 3).take 3).map fun label => .world label 3

/-- The wait is over, the next poll sees the approval. -/
def settled : List (DeploymentLabel Datetime Unit) :=
  [poll 302, poll 303, poll 304, poll 305]

def initial : Deployment (List (UUID × ExecutionReceipt)) (List Execution) :=
  Deployment.initial [⟨0xa⟩] [⟨0x1a⟩] [] []

def summary (d : Deployment (List (UUID × ExecutionReceipt)) (List Execution)) :
    List ActionStatus × List Nat :=
  (d.world.store.actions.rows.map (·.status), d.approvals.map fun p => rank p.2.status)

end Sample

end SupplierAssurance.ApprovalStatus
