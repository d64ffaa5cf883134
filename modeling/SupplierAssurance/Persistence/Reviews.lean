import SupplierAssurance.Persistence.Cases

/-! # The reviews in PostgreSQL

`review_runs` and `findings` with their primary keys, foreign keys and column widths, and the
review operations of `SqlAlchemyCaseRepository` with their transactions.  The enumerations are
kept as values: the codes in their columns are shorter than the columns and read back as what
they were.

A query without an ORDER BY returns its rows in an order of the database's choosing, which is
a parameter here.
-/

namespace SupplierAssurance

open Python Lib

/-! ## Rows -/

structure ReviewRunRecord where
  id : UUID
  caseId : UUID
  modelBackend : String
  decision : Decision
  rationale : String
  requiredActions : List String
  confidence : ℚ
  startedAt : Datetime
  completedAt : Datetime
  confidence_range : 0 ≤ confidence ∧ confidence ≤ 1

structure FindingRecord where
  finding : Finding
  reviewRunId : UUID
deriving DecidableEq

/-- The primary key of `findings`. -/
def FindingRecord.id (record : FindingRecord) : UUID :=
  record.finding.id

/-- The values of a row fit its columns; the columns of type JSON take every string. -/
def ReviewRunRecord.Fits (record : ReviewRunRecord) : Prop :=
  Varchar 64 record.modelBackend ∧ StorableText record.rationale

instance (record : ReviewRunRecord) : Decidable record.Fits :=
  inferInstanceAs (Decidable (_ ∧ _))

def FindingRecord.Fits (record : FindingRecord) : Prop :=
  Varchar 255 record.finding.title ∧ StorableText record.finding.summary ∧
    StorableText record.finding.remediation

instance (record : FindingRecord) : Decidable record.Fits :=
  inferInstanceAs (Decidable (_ ∧ _))

/-- Every finding belongs to a stored review. -/
structure ReviewTables where
  caseIds : List UUID
  reviews : Table ReviewRunRecord.id ReviewRunRecord.id
  findings : Table FindingRecord.id FindingRecord.id
  parents : ∀ record ∈ findings.rows, ∃ review ∈ reviews.rows, review.id = record.reviewRunId

def ReviewTables.empty (caseIds : List UUID) : ReviewTables :=
  ⟨caseIds, .empty, .empty, by simp⟩

/-! ## Statements -/

/-- `IntegrityError`: a key is taken or missing.  `DataError`: a value does not fit its column. -/
inductive DatabaseError where
  | integrityError | dataError
deriving DecidableEq

namespace ReviewTables

def addReview (db : ReviewTables) {record : ReviewRunRecord}
    {reviews : Table ReviewRunRecord.id ReviewRunRecord.id}
    (inserted : db.reviews.insert? record = some reviews) : ReviewTables where
  caseIds := db.caseIds
  reviews := reviews
  findings := db.findings
  parents := by
    intro finding member
    obtain ⟨review, isReview, parent⟩ := db.parents finding member
    exact ⟨review, by simp [(Table.insert?_eq_some inserted).1, isReview], parent⟩

def addFinding (db : ReviewTables) {record : FindingRecord}
    {findings : Table FindingRecord.id FindingRecord.id}
    (parent : ∃ review ∈ db.reviews.rows, review.id = record.reviewRunId)
    (inserted : db.findings.insert? record = some findings) : ReviewTables where
  caseIds := db.caseIds
  reviews := db.reviews
  findings := findings
  parents := by
    intro finding member
    rw [(Table.insert?_eq_some inserted).1, List.mem_append, List.mem_singleton] at member
    cases member with
    | inl old => exact db.parents finding old
    | inr new => exact new ▸ parent

/-- `INSERT INTO review_runs`. -/
def insertReview (db : ReviewTables) (record : ReviewRunRecord) :
    Except DatabaseError ReviewTables :=
  if ¬ record.Fits then .error .dataError
  else if record.caseId ∉ db.caseIds then .error .integrityError
  else
    match inserted : db.reviews.insert? record with
    | none => .error .integrityError
    | some _ => .ok (db.addReview inserted)

/-- `INSERT INTO findings`, row after row. -/
def insertFindings (db : ReviewTables) : List FindingRecord → Except DatabaseError ReviewTables
  | [] => .ok db
  | record :: rest =>
    if ¬ record.Fits then .error .dataError
    else if parent : ∃ review ∈ db.reviews.rows, review.id = record.reviewRunId then
      match inserted : db.findings.insert? record with
      | none => .error .integrityError
      | some _ => insertFindings (db.addFinding parent inserted) rest
    else .error .integrityError

/-- The findings of a review, in the order of the table. -/
def findingsOf (db : ReviewTables) (reviewId : UUID) : List FindingRecord :=
  db.findings.rows.filter fun record => record.reviewRunId = reviewId

end ReviewTables

/-- The orders in which the database returns rows that no ORDER BY orders. -/
structure RowOrder where
  reviews : List ReviewRunRecord → List ReviewRunRecord
  findings : List FindingRecord → List FindingRecord
  reviews_perm : ∀ records, (reviews records).Perm records
  findings_perm : ∀ records, (findings records).Perm records

/-- The order of insertion. -/
def RowOrder.insertion : RowOrder :=
  ⟨id, id, fun _ => .refl _, fun _ => .refl _⟩

/-! ## `SqlAlchemyCaseRepository` -/

namespace SqlAlchemyCaseRepository

def reviewRecord (result : ReviewResult) : ReviewRunRecord where
  id := result.reviewId
  caseId := result.caseId
  modelBackend := result.modelBackend
  decision := result.recommendation.decision
  rationale := result.recommendation.rationale
  requiredActions := result.recommendation.requiredActions
  confidence := result.recommendation.confidence
  startedAt := result.startedAt
  completedAt := result.completedAt
  confidence_range := result.recommendation.confidence_range

def findingRecords (result : ReviewResult) : List FindingRecord :=
  result.findings.map fun finding => ⟨finding, result.reviewId⟩

def reviewFromRecords (review : ReviewRunRecord) (findings : List FindingRecord) : ReviewResult where
  reviewId := review.id
  caseId := review.caseId
  findings := findings.map (·.finding)
  recommendation :=
    ⟨review.decision, review.rationale, review.requiredActions, review.confidence,
      review.confidence_range⟩
  modelBackend := review.modelBackend
  startedAt := review.startedAt
  completedAt := review.completedAt

/-- What leaves `save_review` and the reads. -/
inductive StoreError where
  | database (e : DatabaseError)
  | caseError (e : CaseError)
  /-- "Supplier case ... has no completed review". -/
  | noReview (caseId : UUID)
deriving DecidableEq

section

variable (order : RowOrder)

def getReview (db : ReviewTables) (reviewId : UUID) : Except StoreError ReviewResult :=
  match db.reviews.find? reviewId with
  | none => .error (.caseError (.reviewNotFound reviewId))
  | some review => .ok (reviewFromRecords review (order.findings (db.findingsOf reviewId)))

/-- The row of the review, and the findings with the commit. -/
def insertResult (db : ReviewTables) (result : ReviewResult) : Except DatabaseError ReviewTables := do
  let flushed ← db.insertReview (reviewRecord result)
  flushed.insertFindings (findingRecords result)

/-- `save_review` with no other transaction in between.  Only an exception of the commit is
    caught, and only an `IntegrityError`. -/
def saveReview (db : ReviewTables) (result : ReviewResult) :
    ReviewTables × Except StoreError ReviewResult :=
  match db.reviews.find? result.reviewId with
  | some _ => (db, getReview order db result.reviewId)
  | none =>
    match db.insertReview (reviewRecord result) with
    | .error e => (db, .error (.database e))
    | .ok flushed =>
      match flushed.insertFindings (findingRecords result) with
      | .ok db' => (db', .ok result)
      | .error .integrityError => (db, getReview order db result.reviewId)
      | .error .dataError => (db, .error (.database .dataError))

/-- `ORDER BY completed_at DESC`. -/
def Later (review review' : ReviewRunRecord) : Prop :=
  review'.completedAt ≤ review.completedAt

instance : DecidableRel Later := fun _ _ => inferInstanceAs (Decidable (_ ≤ _))

instance : Std.Total Later where
  total _ _ := Int.le_total _ _

instance : IsTrans ReviewRunRecord Later where
  trans _ _ _ le le' := Int.le_trans le' le

/-- The reviews of a case, as the database returns them. -/
def reviewsOf (db : ReviewTables) (caseId : UUID) : List ReviewRunRecord :=
  order.reviews (db.reviews.rows.filter fun review => review.caseId = caseId)

def getLatestReview (db : ReviewTables) (caseId : UUID) : Except StoreError ReviewResult :=
  if caseId ∉ db.caseIds then .error (.caseError (.caseNotFound caseId))
  else
    match ((reviewsOf order db caseId).insertionSort Later).head? with
    | none => .error (.noReview caseId)
    | some review => getReview order db review.id

end

/-! ## Reads -/

/-- A result as it is read back: the findings may come in another order. -/
structure ReadsAs (stored read : ReviewResult) : Prop where
  findings : read.findings.Perm stored.findings
  other : { read with findings := stored.findings } = stored

theorem ReadsAs.refl (result : ReviewResult) : ReadsAs result result :=
  ⟨.refl _, rfl⟩

variable {order : RowOrder} {db db' : ReviewTables} {result : ReviewResult}

theorem reviewFromRecords_reviewRecord (result : ReviewResult) :
    reviewFromRecords (reviewRecord result) (findingRecords result) = result := by
  simp [reviewFromRecords, reviewRecord, findingRecords, Function.comp_def]

/-- The result is stored: its row, and its findings and no others under its identifier. -/
structure Stored (db : ReviewTables) (result : ReviewResult) : Prop where
  review : reviewRecord result ∈ db.reviews.rows
  findings : (db.findingsOf result.reviewId).Perm (findingRecords result)

theorem Stored.getReview (stored : Stored db result) (order : RowOrder) :
    ∃ read, getReview order db result.reviewId = .ok read ∧ ReadsAs result read := by
  have found : db.reviews.find? result.reviewId = some (reviewRecord result) :=
    Table.find?_eq_some.mpr ⟨stored.review, rfl⟩
  refine ⟨reviewFromRecords (reviewRecord result)
    (order.findings (db.findingsOf result.reviewId)), ?_, ?_, rfl⟩
  · rw [SqlAlchemyCaseRepository.getReview, found]
  · have records := (order.findings_perm (db.findingsOf result.reviewId)).trans stored.findings
    have findings := records.map (·.finding)
    rwa [show (findingRecords result).map (·.finding) = result.findings by
      simp [findingRecords, Function.comp_def]] at findings

end SqlAlchemyCaseRepository

/-! ## Inserts -/

namespace ReviewTables

variable {db db' : ReviewTables}

theorem insertReview_ok {record : ReviewRunRecord} (inserted : db.insertReview record = .ok db') :
    record.Fits ∧ record.caseId ∈ db.caseIds ∧ (∀ old ∈ db.reviews.rows, old.id ≠ record.id) ∧
      db'.caseIds = db.caseIds ∧ db'.reviews.rows = db.reviews.rows ++ [record] ∧
      db'.findings = db.findings := by
  unfold insertReview at inserted
  split at inserted
  · cases inserted
  next fits =>
    split at inserted
    · cases inserted
    next onCase =>
      split at inserted
      · cases inserted
      next reviews added =>
        cases inserted
        obtain ⟨rows, fresh, _⟩ := Table.insert?_eq_some added
        exact ⟨not_not.mp fits, not_not.mp onCase, fresh, rfl, rows, rfl⟩

variable (db) in
theorem insertReview_isOk (record : ReviewRunRecord) (fits : record.Fits)
    (onCase : record.caseId ∈ db.caseIds) (fresh : ∀ old ∈ db.reviews.rows, old.id ≠ record.id) :
    ∃ db', db.insertReview record = .ok db' := by
  unfold insertReview
  rw [if_neg (not_not.mpr fits), if_neg (not_not.mpr onCase)]
  split
  next refused =>
    have inserted := db.reviews.insert?_isSome (r := record) fresh fresh
    simp [refused] at inserted
  next => exact ⟨_, rfl⟩

theorem insertFindings_ok {records : List FindingRecord}
    (inserted : db.insertFindings records = .ok db') :
    (∀ record ∈ records, record.Fits) ∧ (records.map FindingRecord.id).Nodup ∧
      (∀ record ∈ records, ∀ old ∈ db.findings.rows, old.id ≠ record.id) ∧
      db'.caseIds = db.caseIds ∧ db'.reviews = db.reviews ∧
      db'.findings.rows = db.findings.rows ++ records := by
  induction records generalizing db with
  | nil =>
    cases inserted
    simp
  | cons record rest ih =>
    unfold insertFindings at inserted
    split at inserted
    · cases inserted
    next fits =>
      split at inserted
      next parent =>
        split at inserted
        · cases inserted
        next findings added =>
          obtain ⟨restFits, distinct, unused, caseIds, reviews, rows⟩ := ih inserted
          obtain ⟨addedRows, fresh, _⟩ := Table.insert?_eq_some added
          simp only [addFinding, addedRows] at unused rows
          -- the row is in the table by now, so `unused` speaks of it and of the old ones
          refine ⟨?_, ?_, ?_, caseIds, reviews, by simp [rows]⟩
          · intro other member
            cases List.mem_cons.mp member with
            | inl same => exact same ▸ not_not.mp fits
            | inr later => exact restFits other later
          · rw [List.map_cons, List.nodup_cons]
            refine ⟨?_, distinct⟩
            intro member
            obtain ⟨other, later, same⟩ := List.mem_map.mp member
            exact unused other later record (by simp) same.symm
          · intro other member old isOld
            cases List.mem_cons.mp member with
            | inl same => exact same ▸ fresh old isOld
            | inr later => exact unused other later old (by simp [isOld])
      next => cases inserted

variable (db) in
theorem insertFindings_isOk (records : List FindingRecord) (fits : ∀ record ∈ records, record.Fits)
    (parents : ∀ record ∈ records, ∃ review ∈ db.reviews.rows, review.id = record.reviewRunId)
    (distinct : (records.map FindingRecord.id).Nodup)
    (unused : ∀ record ∈ records, ∀ old ∈ db.findings.rows, old.id ≠ record.id) :
    ∃ db', db.insertFindings records = .ok db' := by
  induction records generalizing db with
  | nil => exact ⟨db, rfl⟩
  | cons record rest ih =>
    rw [List.map_cons, List.nodup_cons] at distinct
    have fresh := unused record List.mem_cons_self
    unfold insertFindings
    rw [if_neg (not_not.mpr (fits record List.mem_cons_self)),
      dif_pos (parents record List.mem_cons_self)]
    split
    next refused =>
      have inserted := db.findings.insert?_isSome (r := record) fresh fresh
      simp [refused] at inserted
    next findings added =>
      refine ih (db.addFinding _ added) (fun other member => fits other (List.mem_cons_of_mem _ member))
        (fun other member => parents other (List.mem_cons_of_mem _ member)) distinct.2 ?_
      intro other later old isOld
      simp only [addFinding, (Table.insert?_eq_some added).1, List.mem_append,
        List.mem_singleton] at isOld
      cases isOld with
      | inl isOld => exact unused other (List.mem_cons_of_mem _ later) old isOld
      | inr same =>
        intro clash
        exact distinct.1 (List.mem_map.mpr ⟨other, later, by rw [← clash, same]⟩)

end ReviewTables

namespace SqlAlchemyCaseRepository

/-- The tables accept a new result. -/
structure Storable (db : ReviewTables) (result : ReviewResult) : Prop where
  onCase : result.caseId ∈ db.caseIds
  modelBackend : Varchar 64 result.modelBackend
  rationale : StorableText result.recommendation.rationale
  fits : ∀ finding ∈ result.findings, Varchar 255 finding.title ∧ StorableText finding.summary ∧
    StorableText finding.remediation
  distinct : (result.findings.map (·.id)).Nodup
  unused : ∀ finding ∈ result.findings, ∀ old ∈ db.findings.rows, old.id ≠ finding.id

section

variable {order : RowOrder} {db db' : ReviewTables} {result : ReviewResult}

theorem findingRecords_ids (result : ReviewResult) :
    (findingRecords result).map FindingRecord.id = result.findings.map (·.id) := by
  simp [findingRecords, FindingRecord.id, Function.comp_def]

theorem insertResult_of_inserted {flushed : ReviewTables}
    (parent : db.insertReview (reviewRecord result) = .ok flushed)
    (inserted : flushed.insertFindings (findingRecords result) = .ok db') :
    insertResult db result = .ok db' := by
  simp only [insertResult, parent, bind, Except.bind]
  exact inserted

theorem findingsOf_fresh (fresh : ∀ old ∈ db.reviews.rows, old.id ≠ result.reviewId) :
    db.findingsOf result.reviewId = [] := by
  refine List.filter_eq_nil_iff.mpr ?_
  intro record member same
  obtain ⟨review, isReview, parent⟩ := db.parents record member
  exact fresh review isReview (parent.trans (of_decide_eq_true same))

/-- What the two inserts of a result do when both succeed. -/
theorem insertResult_ok (inserted : insertResult db result = .ok db') :
    Storable db result ∧ (∀ old ∈ db.reviews.rows, old.id ≠ result.reviewId) ∧
      db'.caseIds = db.caseIds ∧ db'.reviews.rows = db.reviews.rows ++ [reviewRecord result] ∧
      db'.findings.rows = db.findings.rows ++ findingRecords result := by
  cases parent : db.insertReview (reviewRecord result) with
  | error e => simp [insertResult, parent, bind, Except.bind] at inserted
  | ok flushed =>
    simp only [insertResult, parent, bind, Except.bind] at inserted
    obtain ⟨⟨modelBackend, rationale⟩, onCase, fresh, caseIds, reviews, findings⟩ :=
      ReviewTables.insertReview_ok parent
    obtain ⟨fits, distinct, unused, caseIds', reviews', findings'⟩ :=
      ReviewTables.insertFindings_ok inserted
    rw [findingRecords_ids] at distinct
    rw [findings] at unused findings'
    refine ⟨⟨onCase, modelBackend, rationale, ?_, distinct, ?_⟩, fresh, caseIds'.trans caseIds,
      reviews' ▸ reviews, findings'⟩
    · intro finding member
      exact fits ⟨finding, result.reviewId⟩ (List.mem_map_of_mem member)
    · intro finding member
      exact unused ⟨finding, result.reviewId⟩ (List.mem_map_of_mem member)

theorem Storable.insertResult (storable : Storable db result)
    (fresh : ∀ old ∈ db.reviews.rows, old.id ≠ result.reviewId) :
    ∃ flushed db', db.insertReview (reviewRecord result) = .ok flushed ∧
      flushed.insertFindings (findingRecords result) = .ok db' := by
  obtain ⟨flushed, parent⟩ := ReviewTables.insertReview_isOk db (reviewRecord result)
    ⟨storable.modelBackend, storable.rationale⟩ storable.onCase fresh
  obtain ⟨_, _, _, _, reviews, findings⟩ := ReviewTables.insertReview_ok parent
  have records : ∀ {p : FindingRecord → Prop}, (∀ finding ∈ result.findings,
      p ⟨finding, result.reviewId⟩) → ∀ record ∈ findingRecords result, p record := by
    intro p all record member
    obtain ⟨finding, isFinding, rfl⟩ := List.mem_map.mp member
    exact all finding isFinding
  obtain ⟨db', inserted⟩ := ReviewTables.insertFindings_isOk flushed
    (findingRecords result) (records storable.fits)
    (records fun _ _ => ⟨reviewRecord result, by simp [reviews], rfl⟩)
    (by rw [findingRecords_ids]; exact storable.distinct)
    (records fun finding member old isOld => storable.unused finding member old (findings ▸ isOld))
  exact ⟨flushed, db', parent, inserted⟩

theorem stored_of_insertResult (inserted : insertResult db result = .ok db') : Stored db' result := by
  obtain ⟨_, fresh, _, reviews, findings⟩ := insertResult_ok inserted
  refine ⟨by simp [reviews], ?_⟩
  have new : (findingRecords result).filter (fun record => record.reviewRunId = result.reviewId) =
      findingRecords result := by
    refine List.filter_eq_self.mpr ?_
    intro record member
    obtain ⟨finding, _, rfl⟩ := List.mem_map.mp member
    simp
  have old := findingsOf_fresh fresh
  unfold ReviewTables.findingsOf at old ⊢
  rw [findings, List.filter_append, old, new]
  exact .refl _

end

end SqlAlchemyCaseRepository

end SupplierAssurance
