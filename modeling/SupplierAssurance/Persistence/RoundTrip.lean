import SupplierAssurance.Lib.Transition
import SupplierAssurance.Persistence.Repository

/-! # What the repository stores is read back

The round trip of cases and reviews through the tables, over every run of the repository: a case is
read back until its status is set and a review for ever, whatever other calls come in between and in
whatever order the database returns rows.
-/

namespace SupplierAssurance.Sql

open Python Lib

variable {db db' : Database} {draw : Nat → UUID} {supplierCase : SupplierCase} {result : ReviewResult}

/-! ## What is stored -/

/-- The case is stored: its row, and the rows of its documents and no others. -/
structure CaseHeld (db : Database) (supplierCase : SupplierCase) : Prop where
  record : caseRecord supplierCase ∈ db.cases.rows
  documents : ∃ draw, db.documentsOf supplierCase.id = documentRecords draw supplierCase

/-- The review is stored: its row, and the rows of its findings and no others. -/
structure ReviewHeld (db : Database) (result : ReviewResult) : Prop where
  record : reviewRecord result ∈ db.reviews.rows
  findings : db.findingsOf result.reviewId = findingRecords result

theorem CaseHeld.get (held : CaseHeld db supplierCase) (order : RowOrder) :
    get order db supplierCase.id = .ok supplierCase := by
  obtain ⟨draw, documents⟩ := held.documents
  have found : db.cases.find? supplierCase.id = some (caseRecord supplierCase) :=
    Table.find?_eq_some.mpr ⟨held.record, rfl⟩
  have rows : (order.documents (db.documentsOf supplierCase.id)).Perm
      (documentRecords draw supplierCase) := documents ▸ order.documents_perm _
  rw [Sql.get, found]
  simp only [caseFromRecord_caseRecord draw supplierCase rows]

theorem ReviewHeld.getReview (held : ReviewHeld db result) (order : RowOrder) :
    ∃ read, getReview order db result.reviewId = .ok read ∧
      SqlAlchemyCaseRepository.ReadsAs result read := by
  have found : db.reviews.find? result.reviewId = some (reviewRecord result) :=
    Table.find?_eq_some.mpr ⟨held.record, rfl⟩
  have rows : (order.findings (db.findingsOf result.reviewId)).Perm (findingRecords result) :=
    held.findings ▸ order.findings_perm _
  obtain ⟨read, converted, reads⟩ := reviewFromRecords_reviewRecord result rows
  refine ⟨read, ?_, reads⟩
  rw [Sql.getReview, found]
  simp only [converted]

/-! Rows of another case or review are not among the ones read. -/

theorem filter_append_own {ρ : Type} {owner : ρ → UUID} {id : UUID} {old new : List ρ}
    (fresh : ∀ row ∈ old, owner row ≠ id) (own : ∀ row ∈ new, owner row = id) :
    (old ++ new).filter (fun row => owner row = id) = new := by
  have none_ : old.filter (fun row => owner row = id) = [] :=
    List.filter_eq_nil_iff.mpr fun row member => by simpa using fresh row member
  have all : new.filter (fun row => owner row = id) = new :=
    List.filter_eq_self.mpr fun row member => by simpa using own row member
  rw [List.filter_append, none_, all, List.nil_append]

theorem filter_append_other {ρ : Type} {owner : ρ → UUID} {id : UUID} {old new : List ρ}
    (other : ∀ row ∈ new, owner row ≠ id) :
    (old ++ new).filter (fun row => owner row = id) = old.filter (fun row => owner row = id) := by
  have none_ : new.filter (fun row => owner row = id) = [] :=
    List.filter_eq_nil_iff.mpr fun row member => by simpa using other row member
  rw [List.filter_append, none_, List.append_nil]

theorem Created.held (created : Created db db' draw supplierCase) : CaseHeld db' supplierCase := by
  refine ⟨by simp [created.cases], draw, ?_⟩
  rw [Database.documentsOf, created.documents]
  apply filter_append_own
  · intro document member same
    obtain ⟨record, isCase, parent⟩ := db.documents_case document member
    exact created.fresh record isCase (parent.trans same)
  · exact fun document member => caseId_of_mem_documentRecords member

theorem Saved.held (saved : Saved db db' result) : ReviewHeld db' result := by
  refine ⟨by simp [saved.reviews], ?_⟩
  rw [Database.findingsOf, saved.findings]
  apply filter_append_own
  · intro finding member same
    obtain ⟨review, isReview, parent⟩ := db.findings_review finding member
    exact saved.fresh review isReview (parent.trans same)
  · exact fun finding member => reviewRunId_of_mem_findingRecords member

/-! ## Runs -/

/-- A call of the repository that may write. -/
inductive Call where
  | create (draw : Nat → UUID) (supplierCase : SupplierCase)
  | setStatus (order : RowOrder) (now : Datetime) (caseId : UUID) (status : CaseStatus)
  | saveReview (order : RowOrder) (result : ReviewResult)

/-- The tables after a call, whether it returns or raises. -/
def step (db : Database) : Call → Option Database
  | .create draw supplierCase => some (create db draw supplierCase).1
  | .setStatus order now caseId status => some (setStatus order db now caseId status).1
  | .saveReview order result => some (saveReview order db result).1

/-- The call does not set the status of this case. -/
def Call.Leaves (caseId : UUID) : Call → Prop
  | .setStatus _ _ id _ => id ≠ caseId
  | _ => True

/-- A stored case stays until its status is set. -/
theorem CaseHeld.step {call : Call} (held : CaseHeld db supplierCase)
    (leaves : call.Leaves supplierCase.id) (moved : step db call = some db') :
    CaseHeld db' supplierCase := by
  obtain ⟨draw, documents⟩ := held.documents
  cases call with
  | create draw' other =>
    cases moved
    obtain same | created := create_changes db draw' other
    · rw [same]
      exact held
    · refine ⟨by simp [created.cases, held.record], draw, ?_⟩
      -- a created case is new, so its documents are not those of the stored one
      have different : other.id ≠ supplierCase.id := (created.fresh _ held.record).symm
      rw [Database.documentsOf, created.documents, filter_append_other, ← documents,
        Database.documentsOf]
      intro document member same
      exact different ((caseId_of_mem_documentRecords member).symm.trans same)
  | setStatus order now caseId status =>
    cases moved
    obtain same | updated := setStatus_changes order db now caseId status
    · rw [same]
      exact held
    · rw [updated]
      refine ⟨List.mem_map.mpr ⟨_, held.record, if_neg ?_⟩, draw, documents⟩
      exact fun here => leaves (of_decide_eq_true here).symm
  | saveReview order result =>
    cases moved
    obtain same | saved := saveReview_changes order db result
    · rw [same]
      exact held
    · refine ⟨by rw [saved.cases]; exact held.record, draw, ?_⟩
      rw [Database.documentsOf, saved.documents]
      exact documents

/-- A stored review stays. -/
theorem ReviewHeld.step {call : Call} (held : ReviewHeld db result)
    (moved : step db call = some db') : ReviewHeld db' result := by
  cases call with
  | create draw supplierCase =>
    cases moved
    obtain same | created := create_changes db draw supplierCase
    · rw [same]
      exact held
    · refine ⟨by rw [created.reviews]; exact held.record, ?_⟩
      rw [Database.findingsOf, created.findings]
      exact held.findings
  | setStatus order now caseId status =>
    cases moved
    obtain same | updated := setStatus_changes order db now caseId status
    · rw [same]
      exact held
    · rw [updated]
      exact ⟨held.record, held.findings⟩
  | saveReview order other =>
    cases moved
    obtain same | saved := saveReview_changes order db other
    · rw [same]
      exact held
    · refine ⟨by simp [saved.reviews, held.record], ?_⟩
      -- a saved review is new, so its findings are not those of the stored one
      have different : other.reviewId ≠ result.reviewId := (saved.fresh _ held.record).symm
      rw [Database.findingsOf, saved.findings, filter_append_other, ← Database.findingsOf, held.findings]
      intro finding member same
      exact different ((reviewRunId_of_mem_findingRecords member).symm.trans same)

/-! ## The round trip -/

/-- The strings of a case fit their columns. -/
structure CaseFits (supplierCase : SupplierCase) : Prop where
  tenantId : Varchar 255 supplierCase.tenantId
  supplierName : Varchar 255 supplierCase.supplierName
  description : StorableText supplierCase.description
  documents : ∀ document ∈ supplierCase.documents, Varchar 255 document.title ∧
    StorableText document.content ∧ ∀ uri ∈ document.sourceUri, Varchar 2048 uri

/-- The strings of a result fit their columns. -/
structure ResultFits (result : ReviewResult) : Prop where
  modelBackend : Varchar 64 result.modelBackend
  rationale : StorableText result.recommendation.rationale
  findings : ∀ finding ∈ result.findings, Varchar 255 finding.title ∧ StorableText finding.summary ∧
    StorableText finding.remediation

/-- `uuid4()` draws distinct identifiers that no document has. -/
structure Unused (db : Database) (draw : Nat → UUID) (count : Nat) : Prop where
  distinct : ∀ i < count, ∀ j < count, draw i = draw j → i = j
  unused : ∀ i < count, ∀ old ∈ db.documents.rows, old.id ≠ draw i

theorem CaseFits.caseRecord (fits : CaseFits supplierCase) : (caseRecord supplierCase).Fits := by
  refine ⟨fits.tenantId, fits.supplierName, fits.description, ?_⟩
  simp only [Sql.caseRecord]
  cases supplierCase.status <;> decide

theorem CaseFits.documentRecords (fits : CaseFits supplierCase) (draw : Nat → UUID) :
    ∀ record ∈ documentRecords draw supplierCase, record.Fits := by
  intro record member
  obtain ⟨⟨document, position⟩, listed, rfl⟩ := List.mem_map.mp member
  exact fits.documents document (List.fst_mem_of_mem_zipIdx listed)

theorem ResultFits.reviewRecord (fits : ResultFits result) : (reviewRecord result).Fits := by
  refine ⟨fits.modelBackend, ?_, ?_⟩
  · simp only [Sql.reviewRecord, Option.mem_some_iff, forall_eq']
    cases result.recommendation.decision <;> decide
  · simpa [Sql.reviewRecord] using fits.rationale

theorem ResultFits.findingRecords (fits : ResultFits result) :
    ∀ record ∈ findingRecords result, record.Fits := by
  intro record member
  obtain ⟨finding, listed, rfl⟩ := List.mem_map.mp member
  refine ⟨?_, ?_, fits.findings finding listed⟩
  · simp only [findingRecord]
    cases finding.category <;> decide
  · simp only [findingRecord]
    cases finding.severity <;> decide

theorem documentRecords_ids (draw : Nat → UUID) (supplierCase : SupplierCase) :
    (documentRecords draw supplierCase).map DocumentRecord.id =
      (List.range supplierCase.documents.length).map draw := by
  rw [List.range_eq_range', ← List.zipIdx_map_snd 0 supplierCase.documents, List.map_map,
    documentRecords, List.map_map]
  rfl

/-- A fitting case with a fresh identifier is stored. -/
theorem create_ok (fresh : ∀ old ∈ db.cases.rows, old.id ≠ supplierCase.id)
    (fits : CaseFits supplierCase) (draws : Unused db draw supplierCase.documents.length) :
    ∃ db', create db draw supplierCase = (db', .ok supplierCase) ∧
      Created db db' draw supplierCase := by
  obtain ⟨cases_, row⟩ := insertAll_singleton_isOk db.cases fits.caseRecord fresh
  have distinct : ((documentRecords draw supplierCase).map DocumentRecord.id).Nodup := by
    rw [documentRecords_ids, List.nodup_map_iff_inj_on List.nodup_range]
    intro i isDrawn j isDrawn'
    exact draws.distinct i (List.mem_range.mp isDrawn) j (List.mem_range.mp isDrawn')
  have unused : ∀ record ∈ documentRecords draw supplierCase, ∀ old ∈ db.documents.rows,
      old.id ≠ record.id := by
    intro record member old isOld
    have drawn : record.id ∈ (List.range supplierCase.documents.length).map draw :=
      documentRecords_ids draw supplierCase ▸ List.mem_map_of_mem member
    obtain ⟨i, inRange, same⟩ := List.mem_map.mp drawn
    exact same ▸ draws.unused i (List.mem_range.mp inRange) old isOld
  obtain ⟨documents, rows⟩ :=
    insertAll_isOk db.documents (fits.documentRecords draw) distinct unused
  cases inserted : db.insertCase draw supplierCase with
  | ok db' => exact ⟨db', by rw [create, inserted], insertCase_ok inserted⟩
  | error e =>
    rw [Database.insertCase] at inserted
    split at inserted
    next refused => simp [row] at refused
    next =>
      split at inserted
      next refused => simp [rows] at refused
      next => cases inserted

/-- A fitting result of a stored case is stored. -/
theorem saveReview_ok (order : RowOrder) (onCase : ∃ record ∈ db.cases.rows, record.id = result.caseId)
    (fresh : ∀ old ∈ db.reviews.rows, old.id ≠ result.reviewId) (fits : ResultFits result)
    (distinct : (result.findings.map (·.id)).Nodup)
    (unused : ∀ finding ∈ result.findings, ∀ old ∈ db.findings.rows, old.id ≠ finding.id) :
    ∃ db', saveReview order db result = (db', .ok result) ∧ Saved db db' result := by
  have found : db.reviews.find? result.reviewId = none := Table.find?_eq_none.mpr fresh
  obtain ⟨reviews, row⟩ := insertAll_singleton_isOk db.reviews fits.reviewRecord fresh
  obtain ⟨-, flushed, parent⟩ | ⟨noCase, -⟩ := insertReview_of_ok row
  · obtain ⟨_, reviews, _, _, findings⟩ := insertReview_ok parent
    have ids : (findingRecords result).map FindingRecord.id = result.findings.map (·.id) := by
      simp [findingRecords, findingRecord, Function.comp_def]
    have unused' : ∀ record ∈ findingRecords result, ∀ old ∈ flushed.findings.rows,
        old.id ≠ record.id := by
      intro record member old isOld
      obtain ⟨finding, listed, rfl⟩ := List.mem_map.mp member
      exact unused finding listed old (findings ▸ isOld)
    obtain ⟨findings, rows⟩ :=
      insertAll_isOk flushed.findings fits.findingRecords (ids ▸ distinct) unused'
    obtain ⟨db', inserted⟩ :=
      insertFindings_of_ok ⟨reviewRecord result, by simp [reviews], rfl⟩ rows
    exact ⟨db', by simp only [saveReview, found, parent, inserted], saved_of_inserted parent inserted⟩
  · exact absurd onCase noCase

/-- What `create` stores is read back until the status of the case is set, and what `save_review`
    stores for ever, under a review identifier that no other result has. -/
theorem round_trip (db : Database) :
    (∀ supplierCase draw, (∀ old ∈ db.cases.rows, old.id ≠ supplierCase.id) → CaseFits supplierCase →
      Unused db draw supplierCase.documents.length →
      ∃ db', create db draw supplierCase = (db', .ok supplierCase) ∧
        ∀ db'', StepsWhen step (fun _ call => call.Leaves supplierCase.id) db' db'' →
          ∀ order, get order db'' supplierCase.id = .ok supplierCase) ∧
    (∀ result order, (∃ record ∈ db.cases.rows, record.id = result.caseId) → ResultFits result →
      (result.findings.map (·.id)).Nodup →
      (∀ finding ∈ result.findings, ∀ old ∈ db.findings.rows, old.id ≠ finding.id) →
      (∀ old ∈ db.reviews.rows, old.id = result.reviewId → ReviewHeld db result) →
      ∃ db' answer, saveReview order db result = (db', .ok answer) ∧
        SqlAlchemyCaseRepository.ReadsAs result answer ∧
        ∀ db'', Steps step db' db'' → ∀ order, ∃ read,
          getReview order db'' result.reviewId = .ok read ∧
            SqlAlchemyCaseRepository.ReadsAs result read) := by
  constructor
  · intro supplierCase draw fresh fits draws
    obtain ⟨db', returned, created⟩ := create_ok fresh fits draws
    refine ⟨db', returned, ?_⟩
    intro db'' steps order
    have held := steps.invariant (I := fun db => CaseHeld db supplierCase) created.held
      fun held leaves moved => held.step leaves moved
    exact held.get order
  · intro result order onCase fits distinct unused new
    have stored : ∃ db' answer, saveReview order db result = (db', .ok answer) ∧
        SqlAlchemyCaseRepository.ReadsAs result answer ∧ ReviewHeld db' result := by
      cases found : db.reviews.find? result.reviewId with
      | none =>
        obtain ⟨db', returned, saved⟩ :=
          saveReview_ok order onCase (Table.find?_eq_none.mp found) fits distinct unused
        exact ⟨db', result, returned, .refl _, saved.held⟩
      | some old =>
        obtain ⟨member, same⟩ := Table.find?_eq_some.mp found
        have held := new old member same
        obtain ⟨read, answered, reads⟩ := held.getReview order
        exact ⟨db, read, by simp only [saveReview, found, answered], reads, held⟩
    obtain ⟨db', answer, returned, reads, held⟩ := stored
    refine ⟨db', answer, returned, reads, ?_⟩
    intro db'' steps order'
    have held' := steps.invariant (I := fun db => ReviewHeld db result) held
      fun held _ moved => held.step moved
    exact held'.getReview order'

namespace Sample

def document (title content : String) (bounded : Bounded 1 255 title ∧ 1 ≤ content.length) :
    DocumentInput :=
  ⟨title, content, none, bounded.1, bounded.2⟩

def durable : SupplierCase where
  id := ⟨1⟩
  tenantId := "tenant-test"
  supplierName := "Durable Supplier"
  description := "Persistence test"
  status := .new
  documents := [document "Questionnaire" "Shared credentials are permitted." (by decide),
    document "Contract" "Unlimited liability applies." (by decide)]
  createdAt := 0
  updatedAt := 0
  tenantId_bounded := by decide

def finding (id : BitVec 128) : Finding where
  id := ⟨id⟩
  category := .security
  severity := .high
  title := "Shared credentials"
  summary := "Credentials are shared."
  evidence := [⟨"Questionnaire", "Shared credentials are permitted.", none, by decide⟩]
  remediation := "Issue personal accounts."
  confidence := 1
  confidence_range := certain_range

def review (rationale : String) (findingIds : List (BitVec 128)) : ReviewResult where
  reviewId := ⟨5⟩
  caseId := durable.id
  findings := findingIds.map finding
  recommendation := ⟨.remediate, rationale, ["Issue personal accounts."], 1, certain_range⟩
  modelBackend := "deterministic"
  startedAt := 1
  completedAt := 2

def drawn (position : Nat) : UUID := ⟨BitVec.ofNat 128 (10 + position)⟩

/-- The case is stored. -/
def withCase : Database := (create .empty drawn durable).1

/-- A review with one finding is stored on it. -/
def withReview : Database := (saveReview .insertion withCase (review "One finding." [7])).1

theorem durable_fits : CaseFits durable := by
  refine ⟨by decide, by decide, by decide, ?_⟩
  decide

theorem drawn_unused : Unused .empty drawn durable.documents.length := by
  refine ⟨by decide, ?_⟩
  intro i _ old isOld
  cases isOld

theorem review_fits {rationale : String} (storable : StorableText rationale)
    (findingIds : List (BitVec 128)) : ResultFits (review rationale findingIds) := by
  refine ⟨show Varchar 64 "deterministic" by decide, storable, ?_⟩
  intro written member
  obtain ⟨id, _, rfl⟩ := List.mem_map.mp member
  exact ⟨show Varchar 255 "Shared credentials" by decide,
    show StorableText "Credentials are shared." by decide,
    show StorableText "Issue personal accounts." by decide⟩

end Sample

open Sample in
/-- The case is read back from empty tables, and the review from the tables with the case. -/
theorem round_trip_first :
    (∃ db', create .empty drawn durable = (db', .ok durable) ∧
      get .insertion db' durable.id = .ok durable) ∧
    ∃ db' answer, saveReview .insertion withCase (review "One finding." [7]) = (db', .ok answer) ∧
      ∃ read, getReview .insertion db' ⟨5⟩ = .ok read ∧
        SqlAlchemyCaseRepository.ReadsAs (review "One finding." [7]) read := by
  constructor
  · obtain ⟨db', created, reads⟩ := (round_trip .empty).1 durable drawn (by intro old isOld; cases isOld)
      durable_fits drawn_unused
    exact ⟨db', created, reads db' .refl .insertion⟩
  · have noReview : withCase.reviews.rows = [] := List.isEmpty_iff.mp (by decide +kernel)
    obtain ⟨db', answer, saved, _, reads⟩ := (round_trip withCase).2 (review "One finding." [7])
      .insertion ⟨caseRecord durable, by decide +kernel, rfl⟩ (review_fits (by decide) _)
      (by decide) (by decide +kernel) (by simp [noReview])
    exact ⟨db', answer, saved, reads db' .refl .insertion⟩

open Sample in
/-- A second result under the identifier of a stored review is answered with that review. -/
theorem second_result_lost :
    ¬ ∀ (db : Database) (result : ReviewResult) (order : RowOrder),
      (∃ record ∈ db.cases.rows, record.id = result.caseId) → ResultFits result →
      (result.findings.map (·.id)).Nodup →
      (∀ finding ∈ result.findings, ∀ old ∈ db.findings.rows, old.id ≠ finding.id) →
      ∃ read, getReview order (saveReview order db result).1 result.reviewId = .ok read ∧
        SqlAlchemyCaseRepository.ReadsAs result read := by
  intro claimed
  obtain ⟨read, answered, reads⟩ := claimed withReview (review "Another finding." [8]) .insertion
    ⟨caseRecord durable, by decide +kernel, rfl⟩ (review_fits (by decide) _) (by decide) (by decide +kernel)
  have stored : ((getReview .insertion (saveReview .insertion withReview (review "Another finding." [8])).1
      (review "Another finding." [8]).reviewId).toOption.map fun read => read.recommendation.rationale) =
        some "One finding." := by
    decide +kernel
  rw [answered] at stored
  have first : read.recommendation.rationale = "One finding." := Option.some.inj stored
  have second : read.recommendation.rationale = "Another finding." :=
    congrArg (fun result => result.recommendation.rationale) reads.other
  exact absurd (first.symm.trans second) (by decide)

end SupplierAssurance.Sql
