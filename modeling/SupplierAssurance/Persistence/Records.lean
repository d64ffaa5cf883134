import Mathlib.Data.List.Sort
import SupplierAssurance.ModelGateway.Deterministic
import SupplierAssurance.Persistence.Reviews

/-! # The records of `packages/persistence/models.py`

The rows of cases, documents, reviews and findings as their columns hold them: enumerations as
text, evidence and required actions as JSON, and the columns that may be NULL as options.
`SqlAlchemyCaseRepository` writes them field by field and rebuilds the nested models from them;
each conversion here is next to the one that undoes it.

Two orders are at work on the way back.  Documents are sorted by the position that was written
with them, so the order of their rows is of no account; findings come in the order of their rows.
-/

namespace SupplierAssurance

open Python Lib

/-! ## Enumerations -/

/-- `Enumeration(text)` for an enumeration with these members; `none` is the `ValueError`. -/
def memberOf? {α : Type} (members : List α) (value : α → String) (text : String) : Option α :=
  members.find? fun member => value member = text

theorem memberOf?_value {α : Type} {members : List α} {value : α → String}
    (injective : Function.Injective value) {member : α} (known : member ∈ members) :
    memberOf? members value (value member) = some member := by
  cases found : memberOf? members value (value member) with
  | none => simpa using List.find?_eq_none.mp found member known
  | some other =>
    have same : value other = value member := by simpa using List.find?_some found
    rw [injective same]

def CaseStatus.value : CaseStatus → String
  | .new => "new"
  | .inReview => "in_review"
  | .pendingApproval => "pending_approval"
  | .approved => "approved"
  | .rejected => "rejected"
  | .reviewFailed => "review_failed"

def Severity.value : Severity → String
  | .low => "low"
  | .medium => "medium"
  | .high => "high"
  | .critical => "critical"

def CaseStatus.ofValue? : String → Option CaseStatus :=
  memberOf? [.new, .inReview, .pendingApproval, .approved, .rejected, .reviewFailed] CaseStatus.value

def RiskCategory.ofValue? : String → Option RiskCategory :=
  memberOf? [.security, .legal, .financial] RiskCategory.value

def Severity.ofValue? : String → Option Severity :=
  memberOf? [.low, .medium, .high, .critical] Severity.value

def Decision.ofValue? : String → Option Decision :=
  memberOf? [.approve, .remediate, .escalate, .reject] Decision.value

@[simp] theorem CaseStatus.ofValue?_value (status : CaseStatus) :
    CaseStatus.ofValue? status.value = some status :=
  memberOf?_value (by intro s s'; cases s <;> cases s' <;> simp [CaseStatus.value])
    (by cases status <;> decide)

@[simp] theorem RiskCategory.ofValue?_value (category : RiskCategory) :
    RiskCategory.ofValue? category.value = some category :=
  memberOf?_value (by intro c c'; cases c <;> cases c' <;> simp [RiskCategory.value])
    (by cases category <;> decide)

@[simp] theorem Severity.ofValue?_value (severity : Severity) :
    Severity.ofValue? severity.value = some severity :=
  memberOf?_value (by intro s s'; cases s <;> cases s' <;> simp [Severity.value])
    (by cases severity <;> decide)

@[simp] theorem Decision.ofValue?_value (decision : Decision) :
    Decision.ofValue? decision.value = some decision :=
  memberOf?_value (by intro d d'; cases d <;> cases d' <;> simp [Decision.value])
    (by cases decision <;> decide)

/-! ## JSON columns -/

/-- What was written element by element is read element by element. -/
theorem mapM_map_eq_some {α β : Type} {write : α → β} {read : β → Option α} (values : List α)
    (inverse : ∀ value, read (write value) = some value) : (values.map write).mapM read = some values := by
  induction values with
  | nil => rfl
  | cons value rest ih => simp [List.mapM_cons, inverse, ih]

/-- Elements that can all be read are read in their order. -/
theorem mapM_eq_some_filterMap {α β : Type} {read : β → Option α} {texts : List β}
    (readable : ∀ text ∈ texts, ∃ value, read text = some value) :
    texts.mapM read = some (texts.filterMap read) := by
  induction texts with
  | nil => rfl
  | cons text rest ih =>
    obtain ⟨value, here⟩ := readable text List.mem_cons_self
    have later := ih fun text member => readable text (List.mem_cons_of_mem _ member)
    simp [List.mapM_cons, here, later]

namespace Python.Json

def str? : Json → Option String
  | .str text => some text
  | _ => none

def arr? : Json → Option (List Json)
  | .arr items => some items
  | _ => none

/-- A `str | None` with the default `None`. -/
def optionalStr? : Option Json → Option (Option String)
  | none | some .null => some none
  | some value => value.str?.map some

def ofOptionalStr : Option String → Json
  | none => .null
  | some text => .str text

end Python.Json

/-- `list[str]`. -/
def stringsJson (texts : List String) : Json :=
  .arr (texts.map Json.str)

def strings? (value : Json) : Option (List String) := do
  let items ← value.arr?
  items.mapM Json.str?

@[simp] theorem strings?_stringsJson (texts : List String) : strings? (stringsJson texts) = some texts :=
  mapM_map_eq_some texts fun _ => rfl

/-- `item.model_dump(mode="json")`. -/
def Evidence.dump (evidence : Evidence) : Json :=
  .obj [("document_title", .str evidence.documentTitle), ("quote", .str evidence.quote),
    ("source_uri", .ofOptionalStr evidence.sourceUri)]

/-- `Evidence.model_validate(item)`; `none` is the `ValidationError`. -/
def Evidence.validate? : Json → Option Evidence
  | .obj fields =>
    if fields.all fun (name, _) => name ∈ ["document_title", "quote", "source_uri"] then do
      let documentTitle ← (← fields.lookup "document_title").str?
      let quote ← (← fields.lookup "quote").str?
      let sourceUri ← Json.optionalStr? (fields.lookup "source_uri")
      if bounded : Bounded 1 1000 quote then some ⟨documentTitle, quote, sourceUri, bounded⟩ else none
    else none
  | _ => none

@[simp] theorem Evidence.validate?_dump (evidence : Evidence) :
    Evidence.validate? evidence.dump = some evidence := by
  have uri : Json.optionalStr? (some (.ofOptionalStr evidence.sourceUri)) = some evidence.sourceUri := by
    cases evidence.sourceUri <;> rfl
  simp [Evidence.dump, Evidence.validate?, List.lookup_cons, Json.str?, uri, evidence.quote_bounded]

/-- The column `evidence_json`. -/
def evidenceJson (evidence : List Evidence) : Json :=
  .arr (evidence.map Evidence.dump)

def evidence? (value : Json) : Option (List Evidence) := do
  let items ← value.arr?
  items.mapM Evidence.validate?

@[simp] theorem evidence?_evidenceJson (evidence : List Evidence) :
    evidence? (evidenceJson evidence) = some evidence :=
  mapM_map_eq_some evidence Evidence.validate?_dump

/-! ## Records -/

namespace Sql

structure SupplierCaseRecord where
  id : UUID
  tenantId : String
  supplierName : String
  description : String
  status : String
  createdAt : Datetime
  updatedAt : Datetime
deriving DecidableEq

structure DocumentRecord where
  id : UUID
  caseId : UUID
  title : String
  position : Nat
  content : String
  sourceUri : Option String
  metadataJson : Json

structure ReviewRunRecord where
  id : UUID
  caseId : UUID
  modelBackend : String
  decision : Option String
  rationale : Option String
  requiredActionsJson : Json
  confidence : Option ℚ
  startedAt : Datetime
  completedAt : Option Datetime

structure FindingRecord where
  id : UUID
  reviewRunId : UUID
  category : String
  severity : String
  title : String
  summary : String
  evidenceJson : Json
  remediation : String
  confidence : ℚ

/-! The values of a row fit its columns; the columns of type JSON take every value. -/

def SupplierCaseRecord.Fits (record : SupplierCaseRecord) : Prop :=
  Varchar 255 record.tenantId ∧ Varchar 255 record.supplierName ∧ StorableText record.description ∧
    Varchar 32 record.status

instance (record : SupplierCaseRecord) : Decidable record.Fits :=
  inferInstanceAs (Decidable (_ ∧ _))

def DocumentRecord.Fits (record : DocumentRecord) : Prop :=
  Varchar 255 record.title ∧ StorableText record.content ∧ ∀ uri ∈ record.sourceUri, Varchar 2048 uri

instance (record : DocumentRecord) : Decidable record.Fits :=
  inferInstanceAs (Decidable (_ ∧ _))

def ReviewRunRecord.Fits (record : ReviewRunRecord) : Prop :=
  Varchar 64 record.modelBackend ∧ (∀ decision ∈ record.decision, Varchar 32 decision) ∧
    ∀ rationale ∈ record.rationale, StorableText rationale

instance (record : ReviewRunRecord) : Decidable record.Fits :=
  inferInstanceAs (Decidable (_ ∧ _))

def FindingRecord.Fits (record : FindingRecord) : Prop :=
  Varchar 32 record.category ∧ Varchar 16 record.severity ∧ Varchar 255 record.title ∧
    StorableText record.summary ∧ StorableText record.remediation

instance (record : FindingRecord) : Decidable record.Fits :=
  inferInstanceAs (Decidable (_ ∧ _))

/-! ## Cases and documents -/

def caseRecord (supplierCase : SupplierCase) : SupplierCaseRecord where
  id := supplierCase.id
  tenantId := supplierCase.tenantId
  supplierName := supplierCase.supplierName
  description := supplierCase.description
  status := supplierCase.status.value
  createdAt := supplierCase.createdAt
  updatedAt := supplierCase.updatedAt

/-- `enumerate(supplier_case.documents)`; the identifiers are the default `uuid4()`, drawn once for
    each position. -/
def documentRecords (draw : Nat → UUID) (supplierCase : SupplierCase) : List DocumentRecord :=
  supplierCase.documents.zipIdx.map fun (document, position) => {
    id := draw position
    caseId := supplierCase.id
    title := document.title
    position
    content := document.content
    sourceUri := document.sourceUri
    metadataJson := .obj [] }

/-- `DocumentInput(...)`; `none` is the `ValidationError`. -/
def documentFromRecord (record : DocumentRecord) : Option DocumentInput :=
  if bounded : Bounded 1 255 record.title ∧ 1 ≤ record.content.length then
    some ⟨record.title, record.content, record.sourceUri, bounded.1, bounded.2⟩
  else none

/-- The key of `sorted(record.documents, key=lambda item: item.position)`. -/
def ByPosition (record record' : DocumentRecord) : Prop :=
  record.position ≤ record'.position

instance : DecidableRel ByPosition := fun _ _ => inferInstanceAs (Decidable (_ ≤ _))

instance : Std.Total ByPosition where
  total record record' := Nat.le_total record.position record'.position

instance : IsTrans DocumentRecord ByPosition where
  trans _ _ _ le le' := Nat.le_trans le le'

/-- `_case_from_record`; `none` is the `ValueError` of an enumeration or a schema. -/
def caseFromRecord (record : SupplierCaseRecord) (documents : List DocumentRecord) :
    Option SupplierCase := do
  let status ← CaseStatus.ofValue? record.status
  let documents ← (documents.insertionSort ByPosition).mapM documentFromRecord
  if bounded : Bounded 1 255 record.tenantId then
    some ⟨record.id, record.tenantId, record.supplierName, record.description, status, documents,
      record.createdAt, record.updatedAt, bounded⟩
  else none

/-! ## Reviews and findings -/

def reviewRecord (result : ReviewResult) : ReviewRunRecord where
  id := result.reviewId
  caseId := result.caseId
  modelBackend := result.modelBackend
  decision := some result.recommendation.decision.value
  rationale := some result.recommendation.rationale
  requiredActionsJson := stringsJson result.recommendation.requiredActions
  confidence := some result.recommendation.confidence
  startedAt := result.startedAt
  completedAt := some result.completedAt

def findingRecord (reviewId : UUID) (finding : Finding) : FindingRecord where
  id := finding.id
  reviewRunId := reviewId
  category := finding.category.value
  severity := finding.severity.value
  title := finding.title
  summary := finding.summary
  evidenceJson := SupplierAssurance.evidenceJson finding.evidence
  remediation := finding.remediation
  confidence := finding.confidence

def findingRecords (result : ReviewResult) : List FindingRecord :=
  result.findings.map (findingRecord result.reviewId)

/-- `Finding(...)`; `none` is the `ValueError` of an enumeration or a schema. -/
def findingFromRecord (record : FindingRecord) : Option Finding := do
  let category ← RiskCategory.ofValue? record.category
  let severity ← Severity.ofValue? record.severity
  let evidence ← evidence? record.evidenceJson
  if range : 0 ≤ record.confidence ∧ record.confidence ≤ 1 then
    some ⟨record.id, category, severity, record.title, record.summary, evidence, record.remediation,
      record.confidence, range⟩
  else none

/-- `Recommendation(...)`; `none` is the `ValidationError`. -/
def recommendationFromRecord (record : ReviewRunRecord) (decision : String) (confidence : ℚ) :
    Option Recommendation := do
  let decision ← Decision.ofValue? decision
  let requiredActions ← strings? record.requiredActionsJson
  if range : 0 ≤ confidence ∧ confidence ≤ 1 then
    -- `review.rationale or ""`
    some ⟨decision, record.rationale.getD "", requiredActions, confidence, range⟩
  else none

/-- What a conversion raises. -/
inductive ReadError where
  /-- "Review ... is incomplete". -/
  | incomplete (reviewId : UUID)
  /-- A value that its enumeration or its schema refuses. -/
  | invalid
deriving DecidableEq

/-- `_review_from_records`. -/
def reviewFromRecords (review : ReviewRunRecord) (findings : List FindingRecord) :
    Except ReadError ReviewResult :=
  match review.decision, review.completedAt, review.confidence with
  | some decision, some completedAt, some confidence =>
    match findings.mapM findingFromRecord, recommendationFromRecord review decision confidence with
    | some findings, some recommendation => .ok ⟨review.id, review.caseId, findings, recommendation,
        review.modelBackend, review.startedAt, completedAt⟩
    | _, _ => .error .invalid
  | _, _, _ => .error (.incomplete review.id)

/-! ## The conversions undo one another -/

theorem caseId_of_mem_documentRecords {draw : Nat → UUID} {supplierCase : SupplierCase}
    {record : DocumentRecord} (member : record ∈ documentRecords draw supplierCase) :
    record.caseId = supplierCase.id := by
  obtain ⟨_, _, rfl⟩ := List.mem_map.mp member
  rfl

theorem reviewRunId_of_mem_findingRecords {result : ReviewResult} {record : FindingRecord}
    (member : record ∈ findingRecords result) : record.reviewRunId = result.reviewId := by
  obtain ⟨_, _, rfl⟩ := List.mem_map.mp member
  rfl

section

variable {records : List DocumentRecord}

theorem documentRecords_increasing (draw : Nat → UUID) (supplierCase : SupplierCase) :
    (documentRecords draw supplierCase).Pairwise fun record record' => record.position < record'.position := by
  have numbers : (documentRecords draw supplierCase).map DocumentRecord.position =
      List.range' 0 supplierCase.documents.length := by
    rw [documentRecords, List.map_map, ← List.zipIdx_map_snd 0 supplierCase.documents]
    rfl
  rw [← List.pairwise_map, numbers]
  exact List.pairwise_lt_range'

/-- Sorting by position undoes every order of the rows. -/
theorem insertionSort_documentRecords (draw : Nat → UUID) (supplierCase : SupplierCase)
    (rows : records.Perm (documentRecords draw supplierCase)) :
    records.insertionSort ByPosition = documentRecords draw supplierCase := by
  apply eq_of_perm_of_increasing ((List.perm_insertionSort ByPosition records).trans rows) _
    (documentRecords_increasing draw supplierCase)
  exact List.pairwise_insertionSort ByPosition records

theorem documentFromRecord_documentRecords (draw : Nat → UUID) (supplierCase : SupplierCase) :
    (documentRecords draw supplierCase).mapM documentFromRecord = some supplierCase.documents := by
  rw [documentRecords]
  generalize supplierCase.documents = documents
  generalize 0 = start
  induction documents generalizing start with
  | nil => rfl
  | cons document rest ih =>
    simp [List.mapM_cons, documentFromRecord, document.title_bounded, document.content_nonempty, ih]

/-- A case comes back from its row and the rows of its documents. -/
theorem caseFromRecord_caseRecord (draw : Nat → UUID) (supplierCase : SupplierCase)
    (rows : records.Perm (documentRecords draw supplierCase)) :
    caseFromRecord (caseRecord supplierCase) records = some supplierCase := by
  rw [caseFromRecord, insertionSort_documentRecords draw supplierCase rows,
    documentFromRecord_documentRecords]
  simp [caseRecord, supplierCase.tenantId_bounded]

end

theorem findingFromRecord_findingRecord (reviewId : UUID) (finding : Finding) :
    findingFromRecord (findingRecord reviewId finding) = some finding := by
  simp [findingFromRecord, findingRecord, finding.confidence_range]

theorem recommendationFromRecord_reviewRecord (result : ReviewResult) :
    recommendationFromRecord (reviewRecord result) result.recommendation.decision.value
      result.recommendation.confidence = some result.recommendation := by
  simp [recommendationFromRecord, reviewRecord, result.recommendation.confidence_range]

/-- A result comes back from its row and the rows of its findings, which may be in another order. -/
theorem reviewFromRecords_reviewRecord (result : ReviewResult) {records : List FindingRecord}
    (rows : records.Perm (findingRecords result)) :
    ∃ read, reviewFromRecords (reviewRecord result) records = .ok read ∧
      SqlAlchemyCaseRepository.ReadsAs result read := by
  have own : ∀ record ∈ records, ∃ finding, findingFromRecord record = some finding := by
    intro record member
    obtain ⟨finding, _, rfl⟩ := List.mem_map.mp (rows.mem_iff.mp member)
    exact ⟨finding, findingFromRecord_findingRecord _ finding⟩
  have findings : (records.filterMap findingFromRecord).Perm result.findings := by
    have all : (findingRecords result).filterMap findingFromRecord = result.findings := by
      rw [findingRecords, List.filterMap_map]
      simp [findingFromRecord_findingRecord]
    exact all ▸ rows.filterMap findingFromRecord
  refine ⟨{ result with findings := records.filterMap findingFromRecord }, ?_, findings, rfl⟩
  have recommendation := recommendationFromRecord_reviewRecord result
  rw [reviewFromRecords, mapM_eq_some_filterMap own]
  simp only [reviewRecord] at recommendation ⊢
  rw [recommendation]

end Sql

end SupplierAssurance
