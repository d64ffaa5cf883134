import SupplierAssurance.Persistence.Records

/-! # `SqlAlchemyCaseRepository` over its tables

The four tables of cases, documents, reviews and findings with their keys and columns, and the
operations of the repository as one transaction each: a call that raises leaves the tables as they
were.
-/

namespace SupplierAssurance.Sql

open Python Lib

/-! ## Tables -/

/-- Every row that refers to another one has it. -/
structure Database where
  cases : Table SupplierCaseRecord.id SupplierCaseRecord.id
  documents : Table DocumentRecord.id DocumentRecord.id
  reviews : Table ReviewRunRecord.id ReviewRunRecord.id
  findings : Table FindingRecord.id FindingRecord.id
  documents_case : ∀ document ∈ documents.rows, ∃ record ∈ cases.rows, record.id = document.caseId
  reviews_case : ∀ review ∈ reviews.rows, ∃ record ∈ cases.rows, record.id = review.caseId
  findings_review : ∀ finding ∈ findings.rows, ∃ review ∈ reviews.rows, review.id = finding.reviewRunId

def Database.empty : Database :=
  ⟨.empty, .empty, .empty, .empty, by simp, by simp, by simp⟩

/-- `INSERT`, row after row. -/
def insertAll {ρ : Type} {pk : ρ → UUID} (Fits : ρ → Prop) [DecidablePred Fits] (table : Table pk pk) :
    List ρ → Except DatabaseError (Table pk pk)
  | [] => .ok table
  | row :: rest =>
    if ¬ Fits row then .error .dataError
    else
      match table.insert? row with
      | none => .error .integrityError
      | some table' => insertAll Fits table' rest

/-- The orders in which the database returns rows that no ORDER BY orders. -/
structure RowOrder where
  documents : List DocumentRecord → List DocumentRecord
  findings : List FindingRecord → List FindingRecord
  documents_perm : ∀ records, (documents records).Perm records
  findings_perm : ∀ records, (findings records).Perm records

/-- The order of insertion. -/
def RowOrder.insertion : RowOrder :=
  ⟨id, id, fun _ => .refl _, fun _ => .refl _⟩

namespace Database

def documentsOf (db : Database) (caseId : UUID) : List DocumentRecord :=
  db.documents.rows.filter fun document => document.caseId = caseId

def findingsOf (db : Database) (reviewId : UUID) : List FindingRecord :=
  db.findings.rows.filter fun finding => finding.reviewRunId = reviewId

end Database

/-! ## Inserts -/

section

variable {ρ : Type} {pk : ρ → UUID} {Fits : ρ → Prop} [DecidablePred Fits] {table table' : Table pk pk}
  {rows : List ρ}

/-- What a successful insert says: no row held a key, and the rows are added. -/
theorem insertAll_ok (inserted : insertAll Fits table rows = .ok table') :
    table'.rows = table.rows ++ rows ∧ ∀ row ∈ rows, ∀ old ∈ table.rows, pk old ≠ pk row := by
  induction rows generalizing table with
  | nil =>
    cases inserted
    simp
  | cons row rest ih =>
    rw [insertAll] at inserted
    split at inserted
    · cases inserted
    next =>
      split at inserted
      · cases inserted
      next middle added =>
        obtain ⟨addedRows, fresh, _⟩ := Table.insert?_eq_some added
        obtain ⟨final, unused⟩ := ih inserted
        rw [addedRows] at final unused
        refine ⟨by simp [final], ?_⟩
        intro other member old isOld
        cases List.mem_cons.mp member with
        | inl same => exact same ▸ fresh old isOld
        | inr later => exact unused other later old (List.mem_append_left _ isOld)

/-- Rows that are inserted fit. -/
theorem insertAll_fits (inserted : insertAll Fits table rows = .ok table') : ∀ row ∈ rows, Fits row := by
  induction rows generalizing table with
  | nil => simp
  | cons row rest ih =>
    rw [insertAll] at inserted
    split at inserted
    · cases inserted
    next fits =>
      split at inserted
      · cases inserted
      next middle added =>
        intro other member
        cases List.mem_cons.mp member with
        | inl same => exact same ▸ not_not.mp fits
        | inr later => exact ih inserted other later

/-- Rows that fit and have fresh keys are inserted. -/
theorem insertAll_isOk (table : Table pk pk) (fits : ∀ row ∈ rows, Fits row)
    (distinct : (rows.map pk).Nodup) (unused : ∀ row ∈ rows, ∀ old ∈ table.rows, pk old ≠ pk row) :
    ∃ table', insertAll Fits table rows = .ok table' := by
  induction rows generalizing table with
  | nil => exact ⟨table, rfl⟩
  | cons row rest ih =>
    rw [List.map_cons, List.nodup_cons] at distinct
    have fresh := unused row List.mem_cons_self
    obtain ⟨middle, added⟩ := Option.isSome_iff_exists.mp (table.insert?_isSome (r := row) fresh fresh)
    rw [insertAll, if_neg (not_not.mpr (fits row List.mem_cons_self)), added]
    refine ih middle (fun other later => fits other (List.mem_cons_of_mem _ later)) distinct.2 ?_
    intro other later old isOld
    rw [(Table.insert?_eq_some added).1, List.mem_append, List.mem_singleton] at isOld
    cases isOld with
    | inl isOld => exact unused other (List.mem_cons_of_mem _ later) old isOld
    | inr same =>
      intro clash
      exact distinct.1 (List.mem_map.mpr ⟨other, later, by rw [← clash, same]⟩)

variable (Fits) in
/-- One row is refused because a value does not fit, or else because its key is taken. -/
theorem insertAll_singleton (table : Table pk pk) (row : ρ) :
    (¬ Fits row ∧ insertAll Fits table [row] = .error .dataError) ∨
      (Fits row ∧ table.insert? row = none ∧ insertAll Fits table [row] = .error .integrityError) ∨
      (Fits row ∧ ∃ table', table.insert? row = some table' ∧ insertAll Fits table [row] = .ok table') := by
  rw [insertAll]
  by_cases fits : Fits row
  · rw [if_neg (not_not.mpr fits)]
    cases table.insert? row with
    | none => exact .inr (.inl ⟨fits, rfl, rfl⟩)
    | some table' => exact .inr (.inr ⟨fits, table', rfl, rfl⟩)
  · exact .inl ⟨fits, if_pos fits⟩

theorem insertAll_singleton_isOk (table : Table pk pk) {row : ρ} (fits : Fits row)
    (fresh : ∀ old ∈ table.rows, pk old ≠ pk row) : ∃ table', insertAll Fits table [row] = .ok table' :=
  insertAll_isOk table (by simpa using fits) (List.nodup_singleton _) (by simpa using fresh)

end

/-! ## Transactions -/

namespace Database

/-- The rows of a case and of its documents. -/
def insertCase (db : Database) (draw : Nat → UUID) (supplierCase : SupplierCase) :
    Except DatabaseError Database :=
  match row : insertAll SupplierCaseRecord.Fits db.cases [caseRecord supplierCase] with
  | .error e => .error e
  | .ok cases =>
    match rows : insertAll DocumentRecord.Fits db.documents (documentRecords draw supplierCase) with
    | .error e => .error e
    | .ok documents => .ok {
        db with
        cases
        documents
        documents_case := by
          rw [(insertAll_ok row).1, (insertAll_ok rows).1]
          intro document member
          cases List.mem_append.mp member with
          | inl old =>
            obtain ⟨record, isCase, same⟩ := db.documents_case document old
            exact ⟨record, List.mem_append_left _ isCase, same⟩
          | inr new =>
            refine ⟨caseRecord supplierCase, by simp, ?_⟩
            exact (caseId_of_mem_documentRecords new).symm
        reviews_case := by
          rw [(insertAll_ok row).1]
          intro review member
          obtain ⟨record, isCase, same⟩ := db.reviews_case review member
          exact ⟨record, List.mem_append_left _ isCase, same⟩ }

/-- The row of a review. -/
def insertReview (db : Database) (result : ReviewResult) : Except DatabaseError Database :=
  match row : insertAll ReviewRunRecord.Fits db.reviews [reviewRecord result] with
  | .error e => .error e
  | .ok reviews =>
    if onCase : ∃ record ∈ db.cases.rows, record.id = result.caseId then .ok {
      db with
      reviews
      reviews_case := by
        rw [(insertAll_ok row).1]
        intro review member
        cases List.mem_append.mp member with
        | inl old => exact db.reviews_case review old
        | inr new =>
          rw [List.mem_singleton.mp new]
          exact onCase
      findings_review := by
        rw [(insertAll_ok row).1]
        intro finding member
        obtain ⟨review, isReview, same⟩ := db.findings_review finding member
        exact ⟨review, List.mem_append_left _ isReview, same⟩ }
    else .error .integrityError

/-- The rows of the findings. -/
def insertFindings (db : Database) (result : ReviewResult) : Except DatabaseError Database :=
  match rows : insertAll FindingRecord.Fits db.findings (findingRecords result) with
  | .error e => .error e
  | .ok findings =>
    if parent : ∃ review ∈ db.reviews.rows, review.id = result.reviewId then .ok {
      db with
      findings
      findings_review := by
        rw [(insertAll_ok rows).1]
        intro finding member
        cases List.mem_append.mp member with
        | inl old => exact db.findings_review finding old
        | inr new => exact reviewRunId_of_mem_findingRecords new ▸ parent }
    else .error .integrityError

/-- `UPDATE supplier_cases SET status, updated_at`. -/
def updateStatus (db : Database) (now : Datetime) (caseId : UUID) (status : CaseStatus) : Database where
  cases := db.cases.updateWhere (fun record => record.id = caseId)
    (fun record => { record with status := status.value, updatedAt := now }) fun _ => ⟨rfl, rfl⟩
  documents := db.documents
  reviews := db.reviews
  findings := db.findings
  documents_case document member := Table.exists_pk_updateWhere (db.documents_case document member)
  reviews_case review member := Table.exists_pk_updateWhere (db.reviews_case review member)
  findings_review := db.findings_review

end Database

/-! ## `SqlAlchemyCaseRepository` -/

/-- What leaves the operations. -/
inductive Failure where
  | database (e : DatabaseError)
  | caseError (e : CaseError)
  | read (e : ReadError)
deriving DecidableEq

def create (db : Database) (draw : Nat → UUID) (supplierCase : SupplierCase) :
    Database × Except Failure SupplierCase :=
  match db.insertCase draw supplierCase with
  | .error e => (db, .error (.database e))
  | .ok db' => (db', .ok supplierCase)

section

variable (order : RowOrder) (db : Database)

def get (caseId : UUID) : Except Failure SupplierCase :=
  match db.cases.find? caseId with
  | none => .error (.caseError (.caseNotFound caseId))
  | some record =>
    match caseFromRecord record (order.documents (db.documentsOf caseId)) with
    | none => .error (.read .invalid)
    | some supplierCase => .ok supplierCase

def setStatus (now : Datetime) (caseId : UUID) (status : CaseStatus) :
    Database × Except Failure SupplierCase :=
  match db.cases.find? caseId with
  | none => (db, .error (.caseError (.caseNotFound caseId)))
  | some _ => (db.updateStatus now caseId status, get order (db.updateStatus now caseId status) caseId)

def getReview (reviewId : UUID) : Except Failure ReviewResult :=
  match db.reviews.find? reviewId with
  | none => .error (.caseError (.reviewNotFound reviewId))
  | some review =>
    match reviewFromRecords review (order.findings (db.findingsOf reviewId)) with
    | .error e => .error (.read e)
    | .ok result => .ok result

/-- Only an exception of the commit is caught, and only an `IntegrityError`. -/
def saveReview (result : ReviewResult) : Database × Except Failure ReviewResult :=
  match db.reviews.find? result.reviewId with
  | some _ => (db, getReview order db result.reviewId)
  | none =>
    match db.insertReview result with
    | .error e => (db, .error (.database e))
    | .ok flushed =>
      match flushed.insertFindings result with
      | .ok db' => (db', .ok result)
      | .error .integrityError => (db, getReview order db result.reviewId)
      | .error .dataError => (db, .error (.database .dataError))

end

/-! ## What the transactions change -/

variable {db db' : Database} {draw : Nat → UUID} {supplierCase : SupplierCase} {result : ReviewResult}
  {order : RowOrder}

/-- The rows of a new case. -/
structure Created (db db' : Database) (draw : Nat → UUID) (supplierCase : SupplierCase) : Prop where
  fresh : ∀ old ∈ db.cases.rows, old.id ≠ supplierCase.id
  cases : db'.cases.rows = db.cases.rows ++ [caseRecord supplierCase]
  documents : db'.documents.rows = db.documents.rows ++ documentRecords draw supplierCase
  reviews : db'.reviews = db.reviews
  findings : db'.findings = db.findings

/-- The rows of a new review. -/
structure Saved (db db' : Database) (result : ReviewResult) : Prop where
  fresh : ∀ old ∈ db.reviews.rows, old.id ≠ result.reviewId
  reviews : db'.reviews.rows = db.reviews.rows ++ [reviewRecord result]
  findings : db'.findings.rows = db.findings.rows ++ findingRecords result
  cases : db'.cases = db.cases
  documents : db'.documents = db.documents

theorem insertCase_ok (inserted : db.insertCase draw supplierCase = .ok db') :
    Created db db' draw supplierCase := by
  rw [Database.insertCase] at inserted
  split at inserted
  · cases inserted
  next cases_ row =>
    split at inserted
    · cases inserted
    next documents rows =>
      cases inserted
      obtain ⟨added, fresh⟩ := insertAll_ok row
      exact ⟨fun old isOld => fresh (caseRecord supplierCase) List.mem_cons_self old isOld, added,
        (insertAll_ok rows).1, rfl, rfl⟩

theorem insertReview_ok {flushed : Database} (inserted : db.insertReview result = .ok flushed) :
    (∀ old ∈ db.reviews.rows, old.id ≠ result.reviewId) ∧
      flushed.reviews.rows = db.reviews.rows ++ [reviewRecord result] ∧
      flushed.cases = db.cases ∧ flushed.documents = db.documents ∧ flushed.findings = db.findings := by
  rw [Database.insertReview] at inserted
  split at inserted
  · cases inserted
  next reviews row =>
    split at inserted
    next =>
      cases inserted
      obtain ⟨added, fresh⟩ := insertAll_ok row
      exact ⟨fun old isOld => fresh (reviewRecord result) List.mem_cons_self old isOld, added, rfl, rfl,
        rfl⟩
    next => cases inserted

theorem insertFindings_ok {flushed : Database} (inserted : flushed.insertFindings result = .ok db') :
    db'.findings.rows = flushed.findings.rows ++ findingRecords result ∧
      db'.cases = flushed.cases ∧ db'.documents = flushed.documents ∧ db'.reviews = flushed.reviews := by
  rw [Database.insertFindings] at inserted
  split at inserted
  · cases inserted
  next findings rows =>
    split at inserted
    next =>
      cases inserted
      exact ⟨(insertAll_ok rows).1, rfl, rfl, rfl⟩
    next => cases inserted

/-! A transaction ends as its inserts and its foreign key end. -/

theorem insertReview_of_error {e : DatabaseError}
    (row : insertAll ReviewRunRecord.Fits db.reviews [reviewRecord result] = .error e) :
    db.insertReview result = .error e := by
  rw [Database.insertReview]
  split
  next refused =>
    rw [row] at refused
    cases refused
    rfl
  next added =>
    rw [row] at added
    cases added

theorem insertReview_of_ok {reviews : Table ReviewRunRecord.id ReviewRunRecord.id}
    (row : insertAll ReviewRunRecord.Fits db.reviews [reviewRecord result] = .ok reviews) :
    ((∃ record ∈ db.cases.rows, record.id = result.caseId) ∧ ∃ db', db.insertReview result = .ok db') ∨
      ((¬ ∃ record ∈ db.cases.rows, record.id = result.caseId) ∧
        db.insertReview result = .error .integrityError) := by
  rw [Database.insertReview]
  split
  next refused =>
    rw [row] at refused
    cases refused
  next =>
    split
    next onCase => exact .inl ⟨onCase, _, rfl⟩
    next noCase => exact .inr ⟨noCase, rfl⟩

theorem insertFindings_of_error {e : DatabaseError}
    (rows : insertAll FindingRecord.Fits db.findings (findingRecords result) = .error e) :
    db.insertFindings result = .error e := by
  rw [Database.insertFindings]
  split
  next refused =>
    rw [rows] at refused
    cases refused
    rfl
  next added =>
    rw [rows] at added
    cases added

theorem insertFindings_of_ok {findings : Table FindingRecord.id FindingRecord.id}
    (parent : ∃ review ∈ db.reviews.rows, review.id = result.reviewId)
    (rows : insertAll FindingRecord.Fits db.findings (findingRecords result) = .ok findings) :
    ∃ db', db.insertFindings result = .ok db' := by
  rw [Database.insertFindings]
  split
  next refused =>
    rw [rows] at refused
    cases refused
  next =>
    rw [dif_pos parent]
    exact ⟨_, rfl⟩

/-- The row of the review, and the findings with the commit. -/
theorem saved_of_inserted {flushed : Database} (parent : db.insertReview result = .ok flushed)
    (inserted : flushed.insertFindings result = .ok db') : Saved db db' result := by
  obtain ⟨fresh, reviews, cases_, documents, findings⟩ := insertReview_ok parent
  obtain ⟨findings', cases', documents', reviews'⟩ := insertFindings_ok inserted
  exact ⟨fresh, reviews' ▸ reviews, findings ▸ findings', cases'.trans cases_,
    documents'.trans documents⟩

/-- `create` adds the rows of a new case, or changes nothing. -/
theorem create_changes (db : Database) (draw : Nat → UUID) (supplierCase : SupplierCase) :
    (create db draw supplierCase).1 = db ∨
      Created db (create db draw supplierCase).1 draw supplierCase := by
  rw [create]
  cases inserted : db.insertCase draw supplierCase with
  | error e => exact .inl rfl
  | ok db' => exact .inr (insertCase_ok inserted)

/-- `set_status` updates the row of its case, or changes nothing. -/
theorem setStatus_changes (order : RowOrder) (db : Database) (now : Datetime) (caseId : UUID)
    (status : CaseStatus) :
    (setStatus order db now caseId status).1 = db ∨
      (setStatus order db now caseId status).1 = db.updateStatus now caseId status := by
  rw [setStatus]
  cases db.cases.find? caseId with
  | none => exact .inl rfl
  | some record => exact .inr rfl

/-- `save_review` adds the rows of a new review, or changes nothing. -/
theorem saveReview_changes (order : RowOrder) (db : Database) (result : ReviewResult) :
    (saveReview order db result).1 = db ∨ Saved db (saveReview order db result).1 result := by
  cases found : db.reviews.find? result.reviewId with
  | some review => simp only [saveReview, found, true_or]
  | none =>
    cases parent : db.insertReview result with
    | error e => simp only [saveReview, found, parent, true_or]
    | ok flushed =>
      cases inserted : flushed.insertFindings result with
      | error e => cases e <;> simp only [saveReview, found, parent, inserted, true_or]
      | ok db' =>
        simp only [saveReview, found, parent, inserted]
        exact .inr (saved_of_inserted parent inserted)

end SupplierAssurance.Sql
