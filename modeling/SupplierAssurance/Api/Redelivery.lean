import SupplierAssurance.Api.Recovery

/-! # Redelivery of a finished execution

Requests for any number of executions of a case, one at a time.  A request for an execution
that is over, and whose outcome is recorded, only reads as long as it does not find the
case in review.  When it does, because another execution of the case is under way, the
branch of a cancelled execution takes the status of the case for its own: it cancels again.
-/

namespace SupplierAssurance.Api

open Python Lib Graphs

/-- The outcome of an execution that is over is recorded. -/
def OutcomeRecorded (app : Application) (caseId executionId : UUID) (execution : ReviewExecution) :
    Prop :=
  match execution.status with
  | .completed => app.repo.reviewsById executionId ≠ none ∧
      ∃ event ∈ app.repo.events caseId, isCompleted executionId event
  | .cancelled => ∃ event ∈ app.repo.events caseId, isCancelled executionId event
  | .awaitingInput | .running => False

/-- The request is for an execution that is over and recorded. -/
structure Redelivered (app : Application) (request : ApiRequest) (supplierCase : SupplierCase)
    (execution : ReviewExecution) : Prop where
  case_ : app.repo.cases request.caseId = some supplierCase
  finished : getExecution (app.threads (request.executionId supplierCase)) supplierCase
    (request.executionId supplierCase) = .ok execution
  recorded : OutcomeRecorded app request.caseId (request.executionId supplierCase) execution

/-- Case status, stored reviews and audit log are as before. -/
structure Unchanged (app app' : Application) : Prop where
  status : ∀ caseId, (app'.repo.cases caseId).map (·.status) = (app.repo.cases caseId).map (·.status)
  reviews : app'.repo.reviews = app.repo.reviews
  reviewsById : app'.repo.reviewsById = app.repo.reviewsById
  events : app'.repo.events = app.repo.events

/-- A redelivered request is refused, or its execution is completed, or the case is not in
    review. -/
def Application.Harmless (app : Application) (request : ApiRequest) : Prop :=
  ∀ supplierCase execution, Redelivered app request supplierCase execution →
    (∃ e, authorize app.repo request.caseId request.principal = .error e) ∨
      execution.status = .completed ∨ supplierCase.status ≠ .inReview

namespace SerialWorld

/-- The requests are for the case, and none of them fails. -/
def OnCase (home : SupplierCase) : SerialLabel → Prop
  | .submit request => request.caseId = home.id
  | .advance .. => True
  | .stop => False

instance (home : SupplierCase) : DecidablePred (OnCase home)
  | .submit _ => inferInstanceAs (Decidable (_ = _))
  | .advance .. => instDecidableTrue
  | .stop => instDecidableFalse

def Harmless (w : SerialWorld) : SerialLabel → Prop
  | .submit request => w.app.Harmless request
  | .advance .. | .stop => True

/-- A redelivered request has left the records as it found them. -/
def RedeliveryInert (w : SerialWorld) : Prop :=
  ∀ handling ∈ w.current, ∀ supplierCase execution,
    Redelivered w.taken handling.request supplierCase execution → Unchanged w.taken w.app

end SerialWorld

section

variable {schemas : JsonSchemas} {services : Services} {ambient : Ambient}
variable {app app' : Application} {request : ApiRequest} {supplierCase : SupplierCase}
variable {execution : ReviewExecution} {handler next : Handler} {w w' : SerialWorld}

theorem Redelivered.over (redelivered : Redelivered app request supplierCase execution) :
    execution.status = .completed ∨ execution.status = .cancelled := by
  have recorded := redelivered.recorded
  cases status : execution.status with
  | completed => exact .inl rfl
  | cancelled => exact .inr rfl
  | awaitingInput | running => simp [OutcomeRecorded, status] at recorded

/-- A request that is not refused works on the case of the repository. -/
theorem Redelivered.authorized {found : SupplierCase}
    (redelivered : Redelivered app request supplierCase execution)
    (authorized : authorize app.repo request.caseId request.principal = .ok found) :
    found = supplierCase := by
  simp only [authorize, InMemoryCaseRepository.get, redelivered.case_] at authorized
  split at authorized
  · cases authorized
  · split at authorized
    · cases authorized
    · cases authorized
      rfl

/-- A completed execution is stored under its own identifier. -/
theorem Redelivered.result (redelivered : Redelivered app request supplierCase execution)
    (completed : execution.status = .completed) :
    ∃ result, execution.result = some result ∧
      app.repo.reviewsById result.reviewId ≠ none := by
  obtain ⟨checkpoint, thread, read⟩ := getExecution_ok redelivered.finished
  obtain ⟨result, got, reviewId, -⟩ := completed_result read completed
  have inScope : checkpoint.values.executionId = request.executionId supplierCase := by
    have finished := redelivered.finished
    simp only [thread, getExecution, validateScope] at finished
    split at finished
    · cases finished
    next passed =>
      simp only [not_or, Decidable.not_not] at passed
      exact passed.2.2
  have recorded := redelivered.recorded
  simp only [OutcomeRecorded, completed] at recorded
  refine ⟨result, got, ?_⟩
  rw [reviewId, inScope]
  exact recorded.1

/-! ## The way of a redelivered request -/

/-- Where a redelivered request can stand before it has written anything. -/
inductive Replaying (app : Application) (request : ApiRequest) (supplierCase : SupplierCase)
    (execution : ReviewExecution) : Handler → Prop
  | authorizing : Replaying app request supplierCase execution .authorizing
  | loading : authorize app.repo request.caseId request.principal = .ok supplierCase →
      Replaying app request supplierCase execution (.loading supplierCase)
  | resuming : authorize app.repo request.caseId request.principal = .ok supplierCase →
      Replaying app request supplierCase execution (.resuming supplierCase execution)
  | finding {result : ReviewResult} : app.repo.reviewsById result.reviewId ≠ none →
      Replaying app request supplierCase execution (.findingReview execution result)
  | cancelling {executionId : UUID} :
      authorize app.repo request.caseId request.principal = .ok supplierCase →
      execution.status = .cancelled → supplierCase.status = .inReview →
      Replaying app request supplierCase execution (.markingNew executionId execution)
  | done {answer : Except ApiError ReviewExecution} :
      Replaying app request supplierCase execution (.done answer)

theorem Redelivered.completedBranch (redelivered : Redelivered app request supplierCase execution)
    (completed : execution.status = .completed) :
    Replaying app request supplierCase execution (completedBranch execution) := by
  obtain ⟨result, got, stored⟩ := redelivered.result completed
  simp only [Api.completedBranch, got]
  exact .finding stored

theorem Redelivered.startBranch (redelivered : Redelivered app request supplierCase execution)
    (authorized : authorize app.repo request.caseId request.principal = .ok supplierCase) :
    Replaying app request supplierCase execution
      (startBranch (request.executionId supplierCase) supplierCase false execution) := by
  cases redelivered.over with
  | inl completed =>
    simp only [Api.startBranch, completed]
    exact redelivered.completedBranch completed
  | inr cancelled =>
    by_cases inReview : supplierCase.status = .inReview
    · simp only [Api.startBranch, cancelled, inReview, if_true]
      exact .cancelling authorized cancelled inReview
    · simp only [Api.startBranch, cancelled, inReview, if_false]
      exact .done

theorem Redelivered.resumeBranch (redelivered : Redelivered app request supplierCase execution)
    (authorized : authorize app.repo request.caseId request.principal = .ok supplierCase) :
    Replaying app request supplierCase execution
      (resumeBranch (request.executionId supplierCase) supplierCase execution execution) := by
  cases redelivered.over with
  | inl completed =>
    simp only [Api.resumeBranch, completed]
    exact redelivered.completedBranch completed
  | inr cancelled =>
    by_cases inReview : supplierCase.status = .inReview
    · simp only [Api.resumeBranch, cancelled, inReview, or_true, if_true]
      exact .cancelling authorized cancelled inReview
    · simp only [Api.resumeBranch, cancelled, inReview, reduceCtorEq, or_false, if_false]
      exact .done

variable (schemas services) in
/-- The workflow answers a resume of an execution that is over from its thread. -/
theorem Redelivered.resume (redelivered : Redelivered app request supplierCase execution)
    (confirmation : EvidenceConfirmation) :
    Graphs.resume schemas services (app.threads (request.executionId supplierCase)) supplierCase
        (request.executionId supplierCase) confirmation =
      (app.threads (request.executionId supplierCase), .ok execution) := by
  have concerns : (ClientCall.resume supplierCase confirmation).Concerns supplierCase := ⟨rfl, rfl⟩
  exact perform_final redelivered.finished redelivered.over services concerns

/-- A redelivered request that is not about to cancel writes nothing. -/
theorem replaying_advance (redelivered : Redelivered app request supplierCase execution)
    (replaying : Replaying app request supplierCase execution handler)
    (harmless : ∀ executionId, handler ≠ .markingNew executionId execution)
    (moved : handler.advance schemas services ambient app request = some (app', next)) :
    app' = app ∧ Replaying app request supplierCase execution next := by
  cases replaying with
  | authorizing =>
    simp only [Handler.advance] at moved
    split at moved
    · cases moved
      exact ⟨rfl, .done⟩
    next found authorized =>
      cases moved
      have same := redelivered.authorized authorized
      subst same
      exact ⟨rfl, .loading authorized⟩
  | loading authorized =>
    simp only [Handler.advance, redelivered.finished] at moved
    cases request with
    | start =>
      cases moved
      exact ⟨rfl, redelivered.startBranch authorized⟩
    | resume =>
      cases moved
      exact ⟨rfl, .resuming authorized⟩
  | resuming authorized =>
    cases request with
    | start => cases moved
    | resume caseId executionId confirmation principal =>
      -- `resume` returns a finished execution as it is and leaves its thread
      have answered := redelivered.resume schemas services confirmation
      have notWaiting : execution.status ≠ .awaitingInput := by
        cases redelivered.over with
        | inl completed => simp [completed]
        | inr cancelled => simp [cancelled]
      simp only [ApiRequest.executionId] at answered
      simp only [Handler.advance, answered, afterResume, notWaiting, if_false, Option.some.injEq,
        Prod.mk.injEq] at moved
      obtain ⟨rfl, rfl⟩ := moved
      exact ⟨setThread_self rfl, redelivered.resumeBranch authorized⟩
  | @finding result stored =>
    simp only [Handler.advance, InMemoryCaseRepository.getReview] at moved
    split at moved
    · cases moved
      exact ⟨rfl, .done⟩
    next missing =>
      split at missing
      · contradiction
      · cases missing
  | cancelling =>
    exact absurd rfl (harmless _)
  | done => cases moved

/-! ## Runs -/

/-- The redelivered request has written nothing, and will not. -/
def Replays (w : SerialWorld) : Prop :=
  ∀ handling ∈ w.current, w.taken.Harmless handling.request ∧
    ∀ supplierCase execution, Redelivered w.taken handling.request supplierCase execution →
      w.app = w.taken ∧ Replaying w.taken handling.request supplierCase execution handling.handler

theorem replays_step {home : SupplierCase} {label : SerialLabel} (replays : Replays w)
    (onCase : SerialWorld.OnCase home label) (harmless : w.Harmless label)
    (moved : w.step schemas label = some w') : Replays w' := by
  cases label with
  | submit request =>
    simp only [SerialWorld.step] at moved
    split at moved
    · cases moved
      intro handling isCurrent
      cases isCurrent
      exact ⟨harmless, fun _ _ _ => ⟨rfl, .authorizing⟩⟩
    · cases moved
  | advance services ambient =>
    simp only [SerialWorld.step] at moved
    split at moved
    · cases moved
    next request handler inProcess =>
      obtain ⟨⟨app, next⟩, advanced, rfl⟩ := Option.map_eq_some_iff.mp moved
      obtain ⟨taken, replaying⟩ := replays _ (SerialWorld.current_of_pending inProcess)
      intro handling isCurrent
      cases isCurrent
      refine ⟨taken, fun supplierCase execution redelivered => ?_⟩
      obtain ⟨same, stands⟩ := replaying supplierCase execution redelivered
      have notCancelling : ∀ executionId, handler ≠ .markingNew executionId execution := by
        rintro executionId rfl
        cases stands with
        | cancelling authorized cancelled inReview =>
          obtain ⟨_, refused⟩ | completed | notInReview :=
            taken supplierCase execution redelivered
          · rw [authorized] at refused
            cases refused
          · rw [cancelled] at completed
            cases completed
          · exact notInReview inReview
      rw [same] at advanced
      exact replaying_advance redelivered stands notCancelling advanced
  | stop => exact onCase.elim

theorem SerialWorld.step_advance (current : w.current = some ⟨request, handler⟩)
    (advanced : handler.advance schemas services ambient w.app request = some (app, next)) :
    w.step schemas (.advance services ambient) = some (w.advanced request handler app next) := by
  have inProcess : w.pending = some ⟨request, handler⟩ := by
    cases handler with
    | done => cases advanced
    | _ => simp only [SerialWorld.pending, current]
  simp only [SerialWorld.step, inProcess, advanced]
  rfl

theorem SerialWorld.step_submit (schemas : JsonSchemas) (resting : w.pending = none) (request : ApiRequest) :
    w.step schemas (.submit request) =
      some { w with current := some ⟨request, .authorizing⟩, taken := w.app } := by
  simp only [SerialWorld.step, resting]

/-! ## The case in review -/

/-- A request of a cancelled execution that finds the case in review. -/
structure Harmful (app : Application) (request : ApiRequest) (supplierCase : SupplierCase)
    (execution : ReviewExecution) : Prop where
  redelivered : Redelivered app request supplierCase execution
  authorized : authorize app.repo request.caseId request.principal = .ok supplierCase
  cancelled : execution.status = .cancelled
  inReview : supplierCase.status = .inReview

theorem exists_harmful (harmful : ¬ app.Harmless request) :
    ∃ supplierCase execution, Harmful app request supplierCase execution := by
  simp only [Application.Harmless, not_forall, not_or, not_exists, Decidable.not_not] at harmful
  obtain ⟨supplierCase, execution, redelivered, accepted, notCompleted, inReview⟩ := harmful
  refine ⟨supplierCase, execution, redelivered, ?_, ?_, inReview⟩
  · cases authorized : authorize app.repo request.caseId request.principal with
    | error e => exact absurd authorized (accepted e)
    | ok found => rw [redelivered.authorized authorized]
  · cases redelivered.over with
    | inl completed => exact absurd completed notCompleted
    | inr cancelled => exact cancelled

/-- The steps of the request with this backend. -/
def Processes (request : ApiRequest) (services : Services) (ambient : Ambient) (_ : SerialWorld)
    (label : SerialLabel) : Prop :=
  label = .submit request ∨ label = .advance services ambient

/-- It comes to cancel the execution again. -/
theorem Harmful.cancels (schemas : JsonSchemas) (services : Services) (ambient : Ambient)
    (harmful : Harmful w.app request supplierCase execution)
    (resting : w.pending = none) :
    ∃ w', StepsWhen (SerialWorld.step schemas) (Processes request services ambient) w w' ∧
      w'.app = w.app ∧ w'.taken = w.app ∧
      w'.current = some ⟨request, .markingNew (request.executionId supplierCase) execution⟩ := by
  have redelivered := harmful.redelivered
  have submitted := SerialWorld.step_submit schemas resting request
  have authorizing : Handler.authorizing.advance schemas services ambient w.app request =
      some (w.app, .loading supplierCase) := by
    simp only [Handler.advance, harmful.authorized]
  have authorized : StepsWhen (SerialWorld.step schemas) (Processes request services ambient) w _ :=
    .tail (.tail .refl (.inl rfl) submitted) (.inr rfl) (SerialWorld.step_advance rfl authorizing)
  cases request with
  | start caseId idempotencyKey required principal =>
    have loading : (Handler.loading supplierCase).advance schemas services ambient w.app
        (.start caseId idempotencyKey required principal) = some (w.app, .markingNew
          (ApiRequest.executionId supplierCase (.start caseId idempotencyKey required principal))
          execution) := by
      simp only [Handler.advance, redelivered.finished, startBranch, harmful.cancelled,
        harmful.inReview, if_true]
    exact ⟨_, .tail authorized (.inr rfl) (SerialWorld.step_advance rfl loading), rfl, rfl, rfl⟩
  | resume caseId executionId confirmation principal =>
    have loading : (Handler.loading supplierCase).advance schemas services ambient w.app
        (.resume caseId executionId confirmation principal) =
          some (w.app, .resuming supplierCase execution) := by
      simp only [Handler.advance, redelivered.finished]
    have answered := redelivered.resume schemas services confirmation
    have resuming : (Handler.resuming supplierCase execution).advance schemas services ambient w.app
        (.resume caseId executionId confirmation principal) =
          some (w.app, .markingNew executionId execution) := by
      simp only [ApiRequest.executionId] at answered
      simp only [Handler.advance, answered, afterResume, resumeBranch, harmful.cancelled,
        harmful.inReview, reduceCtorEq, or_true, if_true, if_false, setThread_self rfl]
    have loaded := authorized.tail (.inr rfl) (SerialWorld.step_advance rfl loading)
    exact ⟨_, .tail loaded (.inr rfl) (SerialWorld.step_advance rfl resuming), rfl, rfl, rfl⟩

/-- At its end the case is new. -/
theorem Harmful.ends (schemas : JsonSchemas) (services : Services) (ambient : Ambient)
    (harmful : Harmful w.app request supplierCase execution) (resting : w.pending = none) :
    ∃ w', StepsWhen (SerialWorld.step schemas) (Processes request services ambient) w w' ∧
      w'.taken = w.app ∧
      w'.current = some ⟨request, .done (.ok execution)⟩ ∧
      (w'.app.repo.cases request.caseId).map (·.status) = some .new := by
  obtain ⟨before, steps, same, taken, current⟩ := harmful.cancels schemas services ambient resting
  have known : before.app.repo.get request.caseId = .ok supplierCase := by
    simp only [same, InMemoryCaseRepository.get, harmful.redelivered.case_]
  have marking : ∃ repo, (Handler.markingNew (request.executionId supplierCase) execution).advance
      schemas services ambient before.app request =
        some ({ before.app with repo }, .recordingCancelled (request.executionId supplierCase) execution) ∧
      repo.cases request.caseId = some { supplierCase with status := .new, updatedAt := ambient.now } := by
    simp only [Handler.advance, Application.write, InMemoryCaseRepository.setStatus, known, bind,
      Except.bind, pure, Except.pure]
    exact ⟨_, rfl, Function.update_self ..⟩
  obtain ⟨repo, marked, isNew⟩ := marking
  have recording : ∃ repo', (Handler.recordingCancelled (request.executionId supplierCase) execution).advance
      schemas services ambient { before.app with repo } request =
        some ({ before.app with repo := repo' }, .done (.ok execution)) ∧ repo'.cases = repo.cases := by
    simp only [Handler.advance, Application.write, InMemoryCaseRepository.appendAuditEvent,
      reviewCancelled, InMemoryCaseRepository.get, isNew, bind, Except.bind, pure, Except.pure]
    exact ⟨_, rfl, rfl⟩
  obtain ⟨repo', recorded, kept⟩ := recording
  have cancelled := steps.tail (.inr rfl) (SerialWorld.step_advance current marked)
  refine ⟨_, .tail cancelled (.inr rfl) (SerialWorld.step_advance rfl recorded), taken, rfl, ?_⟩
  simp [SerialWorld.advanced, kept, isNew]

/-- Requests for any executions of a case, one at a time and without failures: those that are
    redelivered leave the records as they are, as long as each is harmless where it is
    taken.  One that is not changes them, whatever the backend. -/
theorem redeliveryInert_of_harmless {home : SupplierCase}
    (steps : StepsWhen (SerialWorld.step schemas) (fun w label =>
      SerialWorld.OnCase home label ∧ w.Harmless label) (.idle app) w) :
    w.RedeliveryInert ∧
      ∀ request services ambient, w.pending = none → ¬ w.Harmless (.submit request) →
        ∃ w', StepsWhen (SerialWorld.step schemas) (Processes request services ambient) w w' ∧
          w'.taken = w.app ∧ (∃ execution, w'.current = some ⟨request, .done (.ok execution)⟩) ∧
          ¬ w'.RedeliveryInert := by
  -- a redelivered request only replays what its execution has done
  have replays : Replays w :=
    steps.invariant (by simp [Replays, SerialWorld.idle])
      fun replays met moved => replays_step replays met.1 met.2 moved
  constructor
  · intro handling isCurrent supplierCase execution redelivered
    obtain ⟨same, _⟩ := (replays handling isCurrent).2 supplierCase execution redelivered
    rw [same]
    exact ⟨fun _ => rfl, rfl, rfl, rfl⟩
  · intro request services ambient resting notHarmless
    obtain ⟨supplierCase, execution, harmful⟩ := exists_harmful notHarmless
    obtain ⟨w', further, taken, current, isNew⟩ := harmful.ends schemas services ambient resting
    refine ⟨w', further, taken, ⟨execution, current⟩, ?_⟩
    intro inert
    have unchanged := inert _ current supplierCase execution (taken ▸ harmful.redelivered)
    -- the status of the case was changed behind the new execution
    have status := unchanged.status request.caseId
    rw [isNew, taken, harmful.redelivered.case_, Option.map_some, harmful.inReview] at status
    cases status

end

namespace Sample

open Graphs.Sample

def otherKey : UUID := ⟨0x6⟩

def start (idempotencyKey : UUID) : SerialLabel :=
  .submit (.start newCase.id idempotencyKey true analyst)

def reject : SerialLabel := .submit (.resume newCase.id startedId rejection analyst)

/-- An execution that the analyst rejects. -/
def rejected : List SerialLabel :=
  [start key] ++ List.replicate 6 proceed ++ [reject] ++ List.replicate 6 proceed

/-- The rejection is redelivered while the case is new. -/
def redelivered : List SerialLabel :=
  rejected ++ [reject] ++ List.replicate 3 proceed

/-- The rejection is redelivered while another execution of the case waits for its analyst. -/
def redeliveredInReview : List SerialLabel :=
  rejected ++ [start otherKey] ++ List.replicate 6 proceed ++ [reject] ++ List.replicate 5 proceed

/-- The request is redelivered to a cancelled execution. -/
def cancelledBefore (app : Application) (request : ApiRequest) : Bool :=
  match app.repo.cases request.caseId with
  | none => false
  | some supplierCase =>
    let executionId := request.executionId supplierCase
    match getExecution (app.threads executionId) supplierCase executionId with
    | .error _ => false
    | .ok execution => execution.status = .cancelled &&
        (app.repo.events request.caseId).any (isCancelled executionId)

theorem exists_redelivered {app : Application} {request : ApiRequest}
    (before : cancelledBefore app request = true) :
    ∃ supplierCase execution, Redelivered app request supplierCase execution := by
  simp only [cancelledBefore] at before
  split at before
  · cases before
  next supplierCase known =>
    split at before
    · cases before
    next execution found =>
      simp only [Bool.and_eq_true, decide_eq_true_eq, List.any_eq_true] at before
      refine ⟨supplierCase, execution, known, found, ?_⟩
      simp only [OutcomeRecorded, before.1]
      exact before.2

/-- A case in review is not that of a cancelled execution. -/
def testHarmless (w : SerialWorld) : SerialLabel → Bool
  | .submit request => (w.app.repo.cases request.caseId).all fun supplierCase =>
      supplierCase.status ≠ .inReview ||
        w.app.status (request.executionId supplierCase) ≠ some .cancelled
  | _ => true

theorem testHarmless_sound {w : SerialWorld} {label : SerialLabel}
    (passed : testHarmless w label = true) : w.Harmless label := by
  cases label with
  | advance | stop => trivial
  | submit request =>
    intro supplierCase execution redelivered
    obtain ⟨checkpoint, thread, read⟩ := getExecution_ok redelivered.finished
    have status : w.app.status (request.executionId supplierCase) = some execution.status := by
      simp [Application.status, thread, read, Except.toOption]
    simp only [testHarmless, redelivered.case_, Option.all_some, status] at passed
    cases redelivered.over with
    | inl completed => exact .inr (.inl completed)
    | inr cancelled =>
      simp only [cancelled] at passed
      simp only [ne_eq, not_true_eq_false, decide_false, Bool.or_false, decide_eq_true_eq] at passed
      exact .inr (.inr passed)

end Sample

open Graphs.Sample Sample in
theorem redeliveryInert_of_harmless_rejected :
    ∃ w : SerialWorld, (w.app.repo.events newCase.id).map (·.eventType) =
        ["review.started", "review.awaiting_input", "review.resumed", "review.cancelled"] ∧
      (∃ handling ∈ w.current, cancelledBefore w.taken handling.request = true) ∧
      w.RedeliveryInert := by
  have replayed : ((runWhen (SerialWorld.step schemas) (fun w label =>
      decide (SerialWorld.OnCase newCase label) && testHarmless w label) (.idle newApp)
      redelivered).map fun w => decide ((w.app.repo.events newCase.id).map (·.eventType) =
        ["review.started", "review.awaiting_input", "review.resumed", "review.cancelled"]) &&
          w.current.any fun handling => cancelledBefore w.taken handling.request) = some true := by
    decide +kernel
  obtain ⟨w, ran, passed⟩ := Option.map_eq_some_iff.mp replayed
  obtain ⟨events, before⟩ := Bool.and_eq_true_iff.mp passed
  have steps : StepsWhen (SerialWorld.step schemas) (fun w label =>
      SerialWorld.OnCase newCase label ∧ w.Harmless label) (.idle newApp) w := by
    refine stepsWhen_of_runWhen ?_ ran
    intro w label _ passed
    obtain ⟨onCase, harmless⟩ := Bool.and_eq_true_iff.mp passed
    exact ⟨of_decide_eq_true onCase, testHarmless_sound harmless⟩
  exact ⟨w, of_decide_eq_true events, (Option.any_eq_true _ _).mp before,
    (redeliveryInert_of_harmless steps).1⟩

open Graphs.Sample Sample in
/-- Another execution of the case waits for its analyst when the rejection of the first one is
    redelivered: the log gets a second `review.cancelled`. -/
theorem not_redeliveryInert_two_executions :
    ¬ ∀ (schemas : JsonSchemas) (home : SupplierCase) (app : Application) (w : SerialWorld),
      StepsWhen (SerialWorld.step schemas) (fun _ label => SerialWorld.OnCase home label)
        (.idle app) w → w.RedeliveryInert := by
  intro claimed
  have replayed : ((runWhen (SerialWorld.step schemas) (fun _ label =>
      decide (SerialWorld.OnCase newCase label)) (.idle newApp) redeliveredInReview).map fun w =>
        decide ((w.app.repo.events newCase.id).length = 7 ∧
          (w.taken.repo.events newCase.id).length = 6) &&
          w.current.any fun handling => cancelledBefore w.taken handling.request) = some true := by
    decide +kernel
  obtain ⟨w, ran, passed⟩ := Option.map_eq_some_iff.mp replayed
  obtain ⟨lengths, before⟩ := Bool.and_eq_true_iff.mp passed
  obtain ⟨seven, six⟩ := of_decide_eq_true lengths
  have steps : StepsWhen (SerialWorld.step schemas)
      (fun _ label => SerialWorld.OnCase newCase label) (.idle newApp) w :=
    stepsWhen_of_runWhen (fun _ _ _ passed => of_decide_eq_true passed) ran
  have inert := claimed schemas newCase newApp w steps
  cases current : w.current with
  | none => simp [current] at before
  | some handling =>
    simp only [current, Option.any_some] at before
    obtain ⟨supplierCase, execution, redelivered⟩ := exists_redelivered before
    have events := (inert handling current supplierCase execution redelivered).events
    rw [events, six] at seven
    cases seven

end SupplierAssurance.Api
