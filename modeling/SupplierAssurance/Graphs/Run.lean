import SupplierAssurance.Graphs.Client

/-! # `SupplierReviewWorkflow.run`

A review without a human pause: `start` on a fresh execution identifier.  When the backend
answers its four calls the execution completes in one invocation, with the three batches in
the order in which LangGraph merges them.
-/

namespace SupplierAssurance.Graphs

open Python Lib ModelGateway

inductive RunError where
  | review (e : ReviewError)
  /-- "Review graph completed without a result". -/
  | withoutResult

/-- `run`; `executionId` is the `uuid4()` it draws, whose thread is new. -/
def run (schemas : JsonSchemas) (services : Services) (supplierCase : SupplierCase)
    (executionId : UUID) : Except RunError ReviewResult :=
  match (start schemas services none supplierCase executionId false).2 with
  | .error e => .error (.review e)
  | .ok execution =>
    match execution.result with
    | none => .error .withoutResult
    | some result => .ok result

/-- The findings of the three specialists, under the identifiers of the execution. -/
def reviewFindings (schemas : JsonSchemas) (services : Services) (input : ReviewGraphState) :
    List Finding :=
  services.specialists.flatMap fun task =>
    (rawBatch schemas services input task).map (storedFinding input.executionId)

section

variable {schemas : JsonSchemas} {services : Services} {supplierCase : SupplierCase}
  {executionId : UUID} {recommendation : Recommendation}

/-- A start without the gate completes when all four calls are answered. -/
theorem start_completed
    (answered : ∀ node ∈ specialistNodes, node.answered schemas services
      (startInput services supplierCase executionId false))
    (asked : services.synthesize (synthesisRequest schemas
      (reviewedState schemas services (startInput services supplierCase executionId false))) =
        .ok recommendation) :
    start schemas services none supplierCase executionId false =
      (some ⟨(reviewedState schemas services (startInput services supplierCase executionId false)).merge
        (.recommendation recommendation (services.clock .synthesize)), [], []⟩,
       .ok ⟨executionId, supplierCase.id, .completed, none, some {
        reviewId := executionId
        caseId := supplierCase.id
        findings := reviewFindings schemas services
          (startInput services supplierCase executionId false)
        recommendation := recommendation
        modelBackend := services.name
        startedAt := services.now
        completedAt := services.clock .synthesize }⟩) := by
  let input := startInput services supplierCase executionId false
  have specialists : (reviewGraph schemas).invoke services recursionLimit none input =
      (reviewGraph schemas).run services 24 none
        ⟨reviewedState schemas services input, [.evidenceConfirmation], []⟩ := by
    have pending : (⟨input, specialistNodes, []⟩ : ReviewCheckpoint).next ≠ [] := by
      simp [specialistNodes]
    exact Pregel.run_advanced pending (specialists_superStep rfl answered)
  obtain ⟨gate, -⟩ := gate_run_free schemas services 23
    ⟨reviewedState schemas services input, [.evidenceConfirmation], []⟩ rfl rfl rfl
  obtain ⟨done, -⟩ := synthesize_run 21
    ⟨reviewedState schemas services input, [.synthesize], []⟩ none rfl asked
  have outcome := specialists.trans (gate.trans done)
  calc start schemas services none supplierCase executionId false
      = (some ((reviewGraph schemas).invoke services recursionLimit none input).1,
          answer ((reviewGraph schemas).invoke services recursionLimit none input)) := rfl
    _ = _ := by rw [outcome]; rfl

/-- `run` returns the result of the completed execution. -/
theorem run_completed
    (answered : ∀ node ∈ specialistNodes, node.answered schemas services
      (startInput services supplierCase executionId false))
    (asked : services.synthesize (synthesisRequest schemas
      (reviewedState schemas services (startInput services supplierCase executionId false))) =
        .ok recommendation) :
    run schemas services supplierCase executionId = .ok {
      reviewId := executionId
      caseId := supplierCase.id
      findings := reviewFindings schemas services (startInput services supplierCase executionId false)
      recommendation := recommendation
      modelBackend := services.name
      startedAt := services.now
      completedAt := services.clock .synthesize } := by
  rw [run, start_completed answered asked]

end

end SupplierAssurance.Graphs
