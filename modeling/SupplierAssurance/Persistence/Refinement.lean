import SupplierAssurance.Persistence.RoundTrip

/-! # The reviews and their columns

`ReviewTables` keeps the rows of reviews and findings with their enumerations as values and no
column empty.  Here the tables with columns carry it out: `save_review` and `get_review` answer
the same on both, and leave both in the same state.
-/

namespace SupplierAssurance.Sql

open Python Lib SqlAlchemyCaseRepository

/-! ## Rows and columns -/

def encodeReview (record : SupplierAssurance.ReviewRunRecord) : ReviewRunRecord where
  id := record.id
  caseId := record.caseId
  modelBackend := record.modelBackend
  decision := some record.decision.value
  rationale := some record.rationale
  requiredActionsJson := stringsJson record.requiredActions
  confidence := some record.confidence
  startedAt := record.startedAt
  completedAt := some record.completedAt

def encodeFinding (record : SupplierAssurance.FindingRecord) : FindingRecord :=
  findingRecord record.reviewRunId record.finding

/-- The tables with columns hold the same rows. -/
structure Holds (db : Database) (tables : ReviewTables) : Prop where
  cases : db.cases.rows.map SupplierCaseRecord.id = tables.caseIds
  reviews : db.reviews.rows = tables.reviews.rows.map encodeReview
  findings : db.findings.rows = tables.findings.rows.map encodeFinding

variable {db : Database} {tables : ReviewTables} {result : ReviewResult}

theorem encodeReview_fits {record : SupplierAssurance.ReviewRunRecord} :
    (encodeReview record).Fits ↔ record.Fits := by
  have decision : Varchar 32 record.decision.value := by
    cases record.decision <;> decide
  simp [encodeReview, ReviewRunRecord.Fits, SupplierAssurance.ReviewRunRecord.Fits, decision]

theorem encodeFinding_fits {record : SupplierAssurance.FindingRecord} :
    (encodeFinding record).Fits ↔ record.Fits := by
  have category : Varchar 32 record.finding.category.value := by
    cases record.finding.category <;> decide
  have severity : Varchar 16 record.finding.severity.value := by
    cases record.finding.severity <;> decide
  simp [encodeFinding, findingRecord, FindingRecord.Fits, SupplierAssurance.FindingRecord.Fits, category,
    severity]

theorem encodeReview_reviewRecord (result : ReviewResult) :
    encodeReview (SqlAlchemyCaseRepository.reviewRecord result) = reviewRecord result := rfl

theorem map_encodeFinding (result : ReviewResult) :
    (SqlAlchemyCaseRepository.findingRecords result).map encodeFinding = findingRecords result := by
  rw [SqlAlchemyCaseRepository.findingRecords, List.map_map]
  rfl

/-- Two readings of one result. -/
theorem readsAs_of_common {stored read read' : ReviewResult} (reads : ReadsAs stored read)
    (reads' : ReadsAs stored read') : ReadsAs read read' := by
  refine ⟨reads'.findings.trans reads.findings.symm, ?_⟩
  have same : { read' with findings := stored.findings } = { read with findings := stored.findings } :=
    reads'.other.trans reads.other.symm
  calc
    { read' with findings := read.findings } =
        { { read' with findings := stored.findings } with findings := read.findings } := rfl
    _ = { { read with findings := stored.findings } with findings := read.findings } := by rw [same]
    _ = read := rfl

/-! ## Reads -/

/-- Answers that agree: the same error, or two readings of one review. -/
inductive Agree : Except Failure ReviewResult → Except StoreError ReviewResult → Prop
  | ok {read read' : ReviewResult} : ReadsAs read' read → Agree (.ok read) (.ok read')
  | database (e : DatabaseError) : Agree (.error (.database e)) (.error (.database e))
  | caseError (e : CaseError) : Agree (.error (.caseError e)) (.error (.caseError e))

theorem Holds.findReview (holds : Holds db tables) (reviewId : UUID) :
    db.reviews.find? reviewId = (tables.reviews.find? reviewId).map encodeReview := by
  rw [Table.find?, Table.find?, holds.reviews, List.find?_map]
  rfl

theorem Holds.findingsOf (holds : Holds db tables) (reviewId : UUID) :
    db.findingsOf reviewId = (tables.findingsOf reviewId).map encodeFinding := by
  rw [Database.findingsOf, ReviewTables.findingsOf, holds.findings, List.filter_map]
  rfl

/-- `get_review` answers the same, up to the order of the rows. -/
theorem Holds.getReview (holds : Holds db tables) (order : RowOrder)
    (order' : SupplierAssurance.RowOrder) (reviewId : UUID) :
    Agree (getReview order db reviewId) (SqlAlchemyCaseRepository.getReview order' tables reviewId) := by
  rw [Sql.getReview, SqlAlchemyCaseRepository.getReview, holds.findReview]
  cases found : tables.reviews.find? reviewId with
  | none => exact .caseError _
  | some review =>
    have id_ : review.id = reviewId := (Table.find?_eq_some.mp found).2
    let written := SqlAlchemyCaseRepository.reviewFromRecords review (tables.findingsOf reviewId)
    have records : findingRecords written = (tables.findingsOf reviewId).map encodeFinding := by
      change ((tables.findingsOf reviewId).map (·.finding)).map (findingRecord review.id) = _
      rw [List.map_map]
      apply List.map_congr_left
      intro record member
      have own : record.reviewRunId = reviewId := of_decide_eq_true (List.mem_filter.mp member).2
      rw [Function.comp_apply, encodeFinding, own, id_]
    have rows : (order.findings (db.findingsOf reviewId)).Perm (findingRecords written) := by
      rw [records, ← holds.findingsOf]
      exact order.findings_perm _
    obtain ⟨read, answered, reads⟩ := reviewFromRecords_reviewRecord written rows
    have answered' : reviewFromRecords (encodeReview review)
        (order.findings (db.findingsOf reviewId)) = .ok read := answered
    simp only [Option.map_some, answered']
    have reads' : ReadsAs written (SqlAlchemyCaseRepository.reviewFromRecords review
        (order'.findings (tables.findingsOf reviewId))) :=
      ⟨(order'.findings_perm _).map _, rfl⟩
    exact .ok (readsAs_of_common reads' reads)

/-! ## Writes -/

/-- Transactions that agree: the same error, or tables that are related. -/
inductive Related {α β : Type} (R : α → β → Prop) :
    Except DatabaseError α → Except DatabaseError β → Prop
  | ok {a : α} {b : β} : R a b → Related R (.ok a) (.ok b)
  | error (e : DatabaseError) : Related R (.error e) (.error e)

section

variable {α β : Type} {R : α → β → Prop} {answer : Except DatabaseError β}

theorem Related.of_ok {a : α} (related : Related R (.ok a) answer) : ∃ b, answer = .ok b ∧ R a b := by
  cases related with
  | ok holds => exact ⟨_, rfl, holds⟩

theorem Related.of_error {e : DatabaseError} (related : Related R (.error e) answer) :
    answer = .error e := by
  cases related
  rfl

end

/-- Row after row, both tables accept the finding or refuse it for the same reason. -/
theorem insertAll_related {records : List SupplierAssurance.FindingRecord}
    {table : Table FindingRecord.id FindingRecord.id}
    (rows : table.rows = tables.findings.rows.map encodeFinding)
    (parents : ∀ record ∈ records, ∃ review ∈ tables.reviews.rows, review.id = record.reviewRunId) :
    Related (fun table' tables' => table'.rows = tables'.findings.rows.map encodeFinding ∧
        tables'.reviews = tables.reviews ∧ tables'.caseIds = tables.caseIds)
      (insertAll FindingRecord.Fits table (records.map encodeFinding)) (tables.insertFindings records) := by
  -- each row changes both tables, so the invariant is for all pairs of them
  induction records generalizing table tables with
  | nil => exact .ok ⟨rows, rfl, rfl⟩
  | cons record rest ih =>
    rw [List.map_cons, insertAll, ReviewTables.insertFindings]
    by_cases fits : record.Fits
    · rw [if_neg (not_not.mpr (encodeFinding_fits.mpr fits)), if_neg (not_not.mpr fits),
        dif_pos (parents record List.mem_cons_self)]
      -- the same keys are taken in both, so a row is new in both or in neither
      have keys : table.rows.map FindingRecord.id =
          tables.findings.rows.map SupplierAssurance.FindingRecord.id := by
        rw [rows, List.map_map]
        rfl
      have accepts : (table.insert? (encodeFinding record)).isSome = (tables.findings.insert? record).isSome :=
        Table.insert?_isSome_congr keys keys rfl rfl
      split
      next refused =>
        split
        · exact .error _
        next findings added => simp [refused, added] at accepts
      next table' added =>
        split
        next refused => simp [refused, added] at accepts
        next findings added' =>
          have rows' : table'.rows =
              (tables.addFinding (parents record List.mem_cons_self) added').findings.rows.map
                encodeFinding := by
            simp [ReviewTables.addFinding, (Table.insert?_eq_some added).1,
              (Table.insert?_eq_some added').1, rows]
          exact ih rows' fun other member => parents other (List.mem_cons_of_mem _ member)
    · rw [if_pos fits, if_pos (encodeFinding_fits.not.mpr fits)]
      exact .error _

theorem Holds.insertReview_isSome (holds : Holds db tables) (result : ReviewResult) :
    (db.reviews.insert? (reviewRecord result)).isSome =
      (tables.reviews.insert? (SqlAlchemyCaseRepository.reviewRecord result)).isSome := by
  have keys : db.reviews.rows.map ReviewRunRecord.id =
      tables.reviews.rows.map SupplierAssurance.ReviewRunRecord.id := by
    rw [holds.reviews, List.map_map]
    rfl
  exact Table.insert?_isSome_congr keys keys rfl rfl

/-- The row of the review: both tables accept it or refuse it for the same reason. -/
theorem insertReview_related (holds : Holds db tables) (result : ReviewResult) :
    Related (fun db' tables' => Holds db' tables' ∧
        ∃ review ∈ tables'.reviews.rows, review.id = result.reviewId)
      (db.insertReview result) (tables.insertReview (SqlAlchemyCaseRepository.reviewRecord result)) := by
  have fits : (reviewRecord result).Fits ↔ (SqlAlchemyCaseRepository.reviewRecord result).Fits := by
    rw [← encodeReview_reviewRecord, encodeReview_fits]
  have accepts := holds.insertReview_isSome result
  have onCase : (∃ record ∈ db.cases.rows, record.id = result.caseId) ↔ result.caseId ∈ tables.caseIds := by
    rw [← holds.cases, List.mem_map]
  obtain ⟨misfit, row⟩ | ⟨fit, taken, row⟩ | ⟨fit, reviews, added, row⟩ :=
    insertAll_singleton ReviewRunRecord.Fits db.reviews (reviewRecord result)
  · rw [ReviewTables.insertReview, if_pos (fits.not.mp misfit), insertReview_of_error row]
    exact .error _
  · -- the key is taken; a missing case is refused with the same error
    rw [ReviewTables.insertReview, if_neg (not_not.mpr (fits.mp fit)), insertReview_of_error row]
    split
    · exact .error _
    · split
      · exact .error _
      next added => simp [taken, added] at accepts
  · have fresh : ∀ old ∈ tables.reviews.rows, old.id ≠ result.reviewId := by
      intro old isOld
      exact (Table.insert?_eq_some added).2.1 (encodeReview old) (holds.reviews ▸ List.mem_map_of_mem isOld)
    obtain ⟨stored, db', inserted⟩ | ⟨missing, refused⟩ := insertReview_of_ok row
    · obtain ⟨tables', inserted'⟩ := ReviewTables.insertReview_isOk tables
        (SqlAlchemyCaseRepository.reviewRecord result) (fits.mp fit) (onCase.mp stored) fresh
      obtain ⟨_, rows, cases_, _, findings⟩ := insertReview_ok inserted
      obtain ⟨_, _, _, caseIds, rows', findings'⟩ := ReviewTables.insertReview_ok inserted'
      rw [inserted, inserted']
      refine .ok ⟨⟨?_, ?_, ?_⟩, SqlAlchemyCaseRepository.reviewRecord result, by simp [rows'], rfl⟩
      · rw [cases_, caseIds, holds.cases]
      · rw [rows, rows', holds.reviews, List.map_append]
        rfl
      · rw [findings, findings', holds.findings]
    · have unknown : (SqlAlchemyCaseRepository.reviewRecord result).caseId ∉ tables.caseIds :=
        onCase.not.mp missing
      rw [refused, ReviewTables.insertReview, if_neg (not_not.mpr (fits.mp fit)), if_pos unknown]
      exact .error _

/-- The rows of the findings. -/
theorem insertFindings_related (holds : Holds db tables)
    (parent : ∃ review ∈ tables.reviews.rows, review.id = result.reviewId) :
    Related Holds (db.insertFindings result)
      (tables.insertFindings (SqlAlchemyCaseRepository.findingRecords result)) := by
  have parents : ∀ record ∈ SqlAlchemyCaseRepository.findingRecords result,
      ∃ review ∈ tables.reviews.rows, review.id = record.reviewRunId := by
    intro record member
    obtain ⟨_, _, rfl⟩ := List.mem_map.mp member
    exact parent
  have parent' : ∃ review ∈ db.reviews.rows, review.id = result.reviewId := by
    obtain ⟨review, isReview, same⟩ := parent
    exact ⟨encodeReview review, holds.reviews ▸ List.mem_map_of_mem isReview, same⟩
  have related := insertAll_related holds.findings parents
  rw [map_encodeFinding] at related
  cases rows : insertAll FindingRecord.Fits db.findings (findingRecords result) with
  | error e =>
    rw [rows] at related
    rw [insertFindings_of_error rows, related.of_error]
    exact .error e
  | ok findings =>
    rw [rows] at related
    obtain ⟨tables', accepted, _⟩ := related.of_ok
    obtain ⟨db', inserted⟩ := insertFindings_of_ok parent' rows
    obtain ⟨added, cases_, _, reviews⟩ := insertFindings_ok inserted
    obtain ⟨_, _, _, caseIds, reviews', added'⟩ := ReviewTables.insertFindings_ok accepted
    rw [inserted, accepted]
    refine .ok ⟨?_, ?_, ?_⟩
    · rw [cases_, caseIds, holds.cases]
    · rw [reviews, reviews', holds.reviews]
    · rw [added, added', holds.findings, List.map_append, map_encodeFinding]

/-- `save_review` answers the same and leaves the same behind. -/
theorem Holds.saveReview (holds : Holds db tables) (order : RowOrder)
    (order' : SupplierAssurance.RowOrder) (result : ReviewResult) :
    Holds (saveReview order db result).1 (SqlAlchemyCaseRepository.saveReview order' tables result).1 ∧
      Agree (saveReview order db result).2 (SqlAlchemyCaseRepository.saveReview order' tables result).2 := by
  rw [Sql.saveReview, SqlAlchemyCaseRepository.saveReview, holds.findReview]
  cases tables.reviews.find? result.reviewId with
  | some review => exact ⟨holds, holds.getReview order order' result.reviewId⟩
  | none =>
    have flushes := insertReview_related holds result
    cases flush : db.insertReview result with
    | error e =>
      rw [flush] at flushes
      simp only [Option.map_none, flushes.of_error]
      exact ⟨holds, .database e⟩
    | ok flushed =>
      rw [flush] at flushes
      obtain ⟨tables', flush', holds', parent⟩ := flushes.of_ok
      have commits := insertFindings_related holds' parent
      cases commit : flushed.insertFindings result with
      | error e =>
        rw [commit] at commits
        -- the commit fails; an `IntegrityError` is answered with the review of the other session
        simp only [Option.map_none, flush', commit, commits.of_error]
        cases e with
        | integrityError => exact ⟨holds, holds.getReview order order' result.reviewId⟩
        | dataError => exact ⟨holds, .database .dataError⟩
      | ok db' =>
        rw [commit] at commits
        obtain ⟨tables'', commit', holds''⟩ := commits.of_ok
        simp only [Option.map_none, flush', commit, commit']
        exact ⟨holds'', .ok (.refl result)⟩

/-! ## The rest of the calls -/

/-- The status of a case is no column of these tables. -/
theorem Holds.setStatus (holds : Holds db tables) (order : RowOrder) (now : Datetime) (caseId : UUID)
    (status : CaseStatus) : Holds (setStatus order db now caseId status).1 tables := by
  obtain same | updated := setStatus_changes order db now caseId status
  · rw [same]
    exact holds
  · rw [updated]
    refine ⟨?_, holds.reviews, holds.findings⟩
    rw [← holds.cases]
    apply Table.map_pk_updateWhere
    exact fun _ => ⟨rfl, rfl⟩

/-- A new case is one more identifier. -/
theorem Holds.create (holds : Holds db tables) (draw : Nat → UUID) (supplierCase : SupplierCase) :
    ∃ caseIds, Holds (create db draw supplierCase).1 { tables with caseIds } := by
  obtain same | created := create_changes db draw supplierCase
  · refine ⟨tables.caseIds, ?_⟩
    rw [same]
    exact holds
  · refine ⟨tables.caseIds ++ [supplierCase.id], ?_, ?_, ?_⟩
    · rw [created.cases, List.map_append, holds.cases]
      rfl
    · rw [created.reviews, holds.reviews]
    · rw [created.findings, holds.findings]

theorem Holds.empty : Holds .empty (.empty []) :=
  ⟨rfl, rfl, rfl⟩

/-- Whatever calls are made from empty tables on, the tables with columns hold rows of `ReviewTables`. -/
theorem holds_of_steps (steps : Steps step .empty db) : ∃ tables, Holds db tables := by
  refine steps.invariant (I := fun db => ∃ tables, Holds db tables) ⟨_, .empty⟩ ?_
  intro db call db' held _ moved
  obtain ⟨tables, holds⟩ := held
  cases call with
  | create draw supplierCase =>
    cases moved
    obtain ⟨caseIds, holds'⟩ := holds.create draw supplierCase
    exact ⟨_, holds'⟩
  | setStatus order now caseId status =>
    cases moved
    exact ⟨tables, holds.setStatus order now caseId status⟩
  | saveReview order result =>
    cases moved
    exact ⟨_, (holds.saveReview order .insertion result).1⟩

end SupplierAssurance.Sql
