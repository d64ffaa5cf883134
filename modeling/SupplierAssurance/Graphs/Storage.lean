import SupplierAssurance.Graphs.Run
import SupplierAssurance.Persistence.Reviews

/-! # Which completed reviews can be stored

The workflow renames the findings of each batch with the execution's namespace and puts them
together as they are; the tables want identifiers of their own for all findings, and texts
within the widths of their columns.  The schemas of the backend's outputs ask for neither.
-/

namespace SupplierAssurance

open Python Lib

namespace SqlAlchemyCaseRepository

/-- `save_review` commits the result, and `get_review` returns it. -/
def Saves (order : RowOrder) (db : ReviewTables) (result : ReviewResult) : Prop :=
  ∃ db', saveReview order db result = (db', .ok result) ∧
    ∃ read, getReview order db' result.reviewId = .ok read ∧ ReadsAs result read

variable {order : RowOrder} {db db' : ReviewTables} {result : ReviewResult}

theorem saveReview_of_fresh (fresh : ∀ old ∈ db.reviews.rows, old.id ≠ result.reviewId)
    (saved : saveReview order db result = (db', .ok result)) : insertResult db result = .ok db' := by
  have unknown : db.reviews.find? result.reviewId = none := Table.find?_eq_none.mpr fresh
  simp only [saveReview, unknown] at saved
  split at saved
  · cases saved
  next flushed parent =>
    split at saved
    next db'' inserted =>
      cases saved
      exact insertResult_of_inserted parent inserted
    · simp [getReview, unknown] at saved
    · cases saved

/-- A new result is saved exactly when the tables accept it. -/
theorem saves_iff_storable (order : RowOrder)
    (fresh : ∀ old ∈ db.reviews.rows, old.id ≠ result.reviewId) :
    Saves order db result ↔ Storable db result := by
  constructor
  · rintro ⟨db', saved, _⟩
    exact (insertResult_ok (saveReview_of_fresh fresh saved)).1
  · intro storable
    obtain ⟨flushed, db', parent, inserted⟩ := storable.insertResult fresh
    have unknown : db.reviews.find? result.reviewId = none := Table.find?_eq_none.mpr fresh
    have committed := insertResult_of_inserted parent inserted
    refine ⟨db', ?_, (stored_of_insertResult committed).getReview order⟩
    simp only [saveReview, unknown, parent, inserted]

end SqlAlchemyCaseRepository

namespace Graphs

open ModelGateway SqlAlchemyCaseRepository

/-- What the backend contributed to a completed review: its name, the findings of the three
    batches as it returned them, and the recommendation. -/
structure Answers where
  modelBackend : String
  findings : List Finding
  recommendation : Recommendation

/-- The answers meet the constraints of the tables when they are stored for the execution. -/
structure Answers.Fit (answers : Answers) (executionId : UUID) (db : ReviewTables) : Prop where
  modelBackend : Varchar 64 answers.modelBackend
  rationale : StorableText answers.recommendation.rationale
  texts : ∀ finding ∈ answers.findings, Varchar 255 finding.title ∧ StorableText finding.summary ∧
    StorableText finding.remediation
  distinct : (answers.findings.map (storedId executionId)).Nodup
  unused : ∀ finding ∈ answers.findings, ∀ old ∈ db.findings.rows, old.id ≠ storedId executionId finding

/-- The three batches of a start, as the backend returned them. -/
def answeredFindings (schemas : JsonSchemas) (services : Services) (input : ReviewGraphState) :
    List Finding :=
  services.specialists.flatMap (rawBatch schemas services input)

section

variable {schemas : JsonSchemas} {services services' : Services} {supplierCase : SupplierCase}
  {executionId : UUID} {db : ReviewTables}

theorem reviewFindings_eq (schemas : JsonSchemas) (services : Services) (input : ReviewGraphState) :
    reviewFindings schemas services input =
      (answeredFindings schemas services input).map (storedFinding input.executionId) := by
  simp only [reviewFindings, answeredFindings, List.map_flatMap]

/-- The result of an execution whose backend gave these answers. -/
def Answers.result (answers : Answers) (supplierCase : SupplierCase) (executionId : UUID)
    (startedAt completedAt : Datetime) : ReviewResult where
  reviewId := executionId
  caseId := supplierCase.id
  findings := answers.findings.map (storedFinding executionId)
  recommendation := answers.recommendation
  modelBackend := answers.modelBackend
  startedAt := startedAt
  completedAt := completedAt

theorem Answers.storable_iff {answers : Answers} {startedAt completedAt : Datetime}
    (onCase : supplierCase.id ∈ db.caseIds) :
    Storable db (answers.result supplierCase executionId startedAt completedAt) ↔
      answers.Fit executionId db := by
  have ids : (answers.findings.map (storedFinding executionId)).map (·.id) =
      answers.findings.map (storedId executionId) := by
    simp [storedFinding, Function.comp_def]
  constructor
  · intro storable
    have distinct := storable.distinct
    refine ⟨storable.modelBackend, storable.rationale, ?_, ids ▸ distinct, ?_⟩
    · intro finding member
      exact storable.fits (storedFinding executionId finding) (List.mem_map_of_mem member)
    · intro finding member
      exact storable.unused (storedFinding executionId finding) (List.mem_map_of_mem member)
  · intro fit
    refine ⟨onCase, fit.modelBackend, fit.rationale, ?_, ids.symm ▸ fit.distinct, ?_⟩
    · intro finding member
      obtain ⟨raw, isRaw, rfl⟩ := List.mem_map.mp member
      exact fit.texts raw isRaw
    · intro finding member
      obtain ⟨raw, isRaw, rfl⟩ := List.mem_map.mp member
      exact fit.unused raw isRaw

/-! ## The results of the workflow -/

variable (schemas supplierCase executionId) in
/-- A run with a valid backend. -/
theorem run_valid (valid : services.Valid) : ∃ recommendation,
    services.synthesize (synthesisRequest schemas
      (reviewedState schemas services (startInput services supplierCase executionId false))) =
        .ok recommendation ∧
    run schemas services supplierCase executionId = .ok
      ((Answers.mk services.name (answeredFindings schemas services
        (startInput services supplierCase executionId false)) recommendation).result supplierCase
          executionId services.now (services.clock .synthesize)) := by
  obtain ⟨recommendation, asked⟩ := valid.synthesized (synthesisRequest schemas
    (reviewedState schemas services (startInput services supplierCase executionId false)))
  refine ⟨recommendation, asked, ?_⟩
  rw [run_completed (fun node _ => node.answered_of_valid valid _) asked, reviewFindings_eq]
  rfl

variable (schemas supplierCase executionId) in
/-- A start that requires confirmation, with a valid backend, waits at the gate. -/
theorem start_gated (valid : services.Valid) :
    (start schemas services none supplierCase executionId true).1 =
      some ⟨reviewedState schemas services (startInput services supplierCase executionId true),
        [.evidenceConfirmation], [interruptRequest (reviewedState schemas services
          (startInput services supplierCase executionId true))]⟩ := by
  obtain ⟨outcome, _⟩ := input_required schemas valid
    (startInput services supplierCase executionId true) rfl
  exact congrArg (fun invoked => some invoked.1) outcome

theorem resume_gated (request : ReviewInterrupt) {values : ReviewGraphState}
    {confirmation : EvidenceConfirmation} {recommendation : Recommendation}
    (undecided : Undecided values) (required : values.requireEvidenceConfirmation = true)
    (unanswered : values.evidenceConfirmation = none)
    (scope : validateScope values supplierCase executionId = .ok ())
    (confirmed : confirmation.decision = .confirm)
    (asked : services'.synthesize (synthesisRequest schemas
      (values.merge (.confirmation confirmation false none))) = .ok recommendation) :
    (resume schemas services' (some ⟨values, [.evidenceConfirmation], [request]⟩) supplierCase
      executionId confirmation).2 = .ok ⟨values.executionId, values.caseId, .completed, none, some {
        reviewId := values.executionId
        caseId := values.caseId
        findings := values.findings
        recommendation := recommendation
        modelBackend := values.modelBackend
        startedAt := values.startedAt
        completedAt := services'.clock .synthesize }⟩ := by
  have awaits : Awaits ⟨values, [.evidenceConfirmation], [request]⟩ :=
    ⟨rfl, ⟨request, rfl⟩, undecided, required, unanswered⟩
  have read : resumeRead (some ⟨values, [.evidenceConfirmation], [request]⟩) supplierCase
      executionId = none := by
    simp [resumeRead, getExecution, scope, executionFromSnapshot, undecided.cancelled,
      undecided.recommendation, bind, Except.bind]
  have resumed : (reviewGraph schemas).resume services' recursionLimit
      ⟨values, [.evidenceConfirmation], [request]⟩ confirmation = _ :=
    awaits.resume_confirm confirmed
  simp only [asked] at resumed
  simp only [resume, read, resumed, answer]
  simp [executionFromSnapshot, resultFromState, ReviewGraphState.merge, Except.map]

end

/-- For every valid backend and every case that is stored, under an identifier of no stored review:
    the result of a run, and that of a gated execution that was confirmed, can be saved and read
    back exactly when the backend's answers meet the constraints of the tables. -/
theorem completed_review_saves_iff (schemas : JsonSchemas) (services services' : Services)
    (supplierCase : SupplierCase) (executionId : UUID) (confirmation : EvidenceConfirmation)
    (order : RowOrder) (db : ReviewTables) (valid : services.Valid) (valid' : services'.Valid)
    (confirmed : confirmation.decision = .confirm) (onCase : supplierCase.id ∈ db.caseIds)
    (fresh : ∀ old ∈ db.reviews.rows, old.id ≠ executionId) :
    (∃ recommendation result,
      services.synthesize (synthesisRequest schemas
        (reviewedState schemas services (startInput services supplierCase executionId false))) =
          .ok recommendation ∧
      run schemas services supplierCase executionId = .ok result ∧
      (Saves order db result ↔ (Answers.mk services.name (answeredFindings schemas services
        (startInput services supplierCase executionId false)) recommendation).Fit executionId db)) ∧
    ∃ recommendation execution result,
      services'.synthesize (synthesisRequest schemas
        ((reviewedState schemas services (startInput services supplierCase executionId true)).merge
          (.confirmation confirmation false none))) = .ok recommendation ∧
      (resume schemas services' (start schemas services none supplierCase executionId true).1
        supplierCase executionId confirmation).2 = .ok execution ∧
      execution.result = some result ∧
      (Saves order db result ↔ (Answers.mk services.name (answeredFindings schemas services
        (startInput services supplierCase executionId true)) recommendation).Fit executionId db) := by
  constructor
  · obtain ⟨recommendation, asked, completed⟩ := run_valid schemas supplierCase executionId valid
    refine ⟨recommendation, _, asked, completed, ?_⟩
    exact (saves_iff_storable order fresh).trans (Answers.storable_iff onCase)
  · have started := start_gated schemas supplierCase executionId valid
    obtain ⟨recommendation, asked⟩ := valid'.synthesized (synthesisRequest schemas
      ((reviewedState schemas services (startInput services supplierCase executionId true)).merge
        (.confirmation confirmation false none)))
    have scope : validateScope (reviewedState schemas services
        (startInput services supplierCase executionId true)) supplierCase executionId = .ok () := by
      simp [validateScope, reviewedState, startInput]
    have resumed := resume_gated (interruptRequest (reviewedState schemas services
      (startInput services supplierCase executionId true))) ⟨rfl, rfl⟩ rfl rfl scope confirmed asked
    -- what the backend answered is all that the database sees of it
    let answers := Answers.mk services.name (answeredFindings schemas services
      (startInput services supplierCase executionId true)) recommendation
    refine ⟨recommendation, _, answers.result supplierCase executionId services.now
      (services'.clock .synthesize), asked, started ▸ resumed, ?_, ?_⟩
    · simp [answers, Answers.result, reviewedState, startInput, answeredFindings, List.map_flatMap]
    · exact (saves_iff_storable order fresh).trans (Answers.storable_iff onCase)

namespace Sample

def emptyTables : ReviewTables := .empty [supplierCase.id]

/-- All three reviewers return the same finding, identifier included. -/
def repeating : Services :=
  { approving with review := fun _ => .ok [finding] }

theorem repeating_valid : repeating.Valid :=
  ⟨fun _ => rfl, fun _ => rfl⟩

theorem finding_texts : Varchar 255 finding.title ∧ StorableText finding.summary ∧
    StorableText finding.remediation := by decide

end Sample

open Sample in
/-- One finding of one reviewer is saved, in a run and in a gated execution. -/
theorem completed_review_saves_iff_one_finding :
    (∃ result, run schemas reporting supplierCase executionId = .ok result ∧
      Saves .insertion emptyTables result) ∧
    ∃ execution result, (resume schemas reporting
        (start schemas reporting none supplierCase executionId true).1 supplierCase executionId
        confirmation).2 = .ok execution ∧
      execution.result = some result ∧ Saves .insertion emptyTables result := by
  obtain ⟨⟨recommendation, result, asked, completed, iff_⟩,
    recommendation', execution, result', asked', resumed, given, iff'⟩ :=
      completed_review_saves_iff schemas reporting reporting supplierCase executionId confirmation
        .insertion emptyTables reporting_valid reporting_valid rfl (by decide)
        (by simp [emptyTables, ReviewTables.empty])
  have fit : ∀ required recommendation, recommendation.rationale = "No finding." →
      (Answers.mk reporting.name (answeredFindings schemas reporting
        (startInput reporting supplierCase executionId required)) recommendation).Fit executionId
          emptyTables := by
    intro required recommendation rationale
    have one : answeredFindings schemas reporting
        (startInput reporting supplierCase executionId required) = [Sample.finding] := rfl
    rw [one]
    refine ⟨show Varchar 64 reporting.name by decide, ?_, by simpa using finding_texts, by simp,
      by simp [emptyTables, ReviewTables.empty]⟩
    rw [rationale]
    decide
  obtain rfl := Except.ok.inj asked
  obtain rfl := Except.ok.inj asked'
  exact ⟨⟨result, completed, iff_.mpr (fit false _ rfl)⟩,
    execution, result', resumed, given, iff'.mpr (fit true _ rfl)⟩

open Sample in
/-- The same identifier in all three batches: the result cannot be saved. -/
theorem repeated_finding_not_saved :
    ¬ ∀ (schemas : JsonSchemas) (services : Services) (supplierCase : SupplierCase)
        (executionId : UUID) (order : RowOrder) (db : ReviewTables), services.Valid →
      supplierCase.id ∈ db.caseIds → (∀ old ∈ db.reviews.rows, old.id ≠ executionId) →
      ∃ result, run schemas services supplierCase executionId = .ok result ∧ Saves order db result := by
  intro claimed
  have fresh : ∀ old ∈ emptyTables.reviews.rows, old.id ≠ executionId := by
    simp [emptyTables, ReviewTables.empty]
  obtain ⟨result, completed, saved⟩ := claimed schemas repeating supplierCase executionId .insertion
    emptyTables repeating_valid (by decide) fresh
  obtain ⟨recommendation, _, completed'⟩ := run_valid schemas supplierCase executionId
    repeating_valid
  obtain rfl := Except.ok.inj (completed'.symm.trans completed)
  have fit := (Answers.storable_iff (by decide)).mp ((saves_iff_storable .insertion fresh).mp saved)
  have distinct := fit.distinct
  have three : answeredFindings schemas repeating
      (startInput repeating supplierCase executionId false) =
        [Sample.finding, Sample.finding, Sample.finding] := rfl
  rw [three] at distinct
  simp at distinct

end Graphs

end SupplierAssurance
