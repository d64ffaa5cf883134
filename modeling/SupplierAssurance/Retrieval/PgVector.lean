import Mathlib.Order.WithBot
import SupplierAssurance.Lib.Nearest
import SupplierAssurance.Persistence.Repository
import SupplierAssurance.Retrieval.Service

/-! # `packages/retrieval/service.py`: search, and the index in PostgreSQL

`PgVectorRetrievalService` keeps the chunks of a case in a table of their own.  `index_case` reads
the documents of the case in one transaction, has the chunks embedded, and replaces the rows in
another one; `search` is one query.

The transactions are READ COMMITTED, the default of PostgreSQL.  So a call whose `DELETE` has run may
still be overtaken by another one for the same case, whose rows it then finds in its way.

A scalar of a vector is an `R`.  Nothing is assumed of its arithmetic, so it may round.
-/

namespace SupplierAssurance.Retrieval

open SupplierAssurance.Lib SupplierAssurance.Python SupplierAssurance.Sql

/-- `RetrievedChunk`. -/
structure RetrievedChunk (R : Type) [LinearOrder R] [Zero R] extends DocumentChunk where
  documentTitle : String
  sourceUri : Option String
  distance : R
  distance_nonneg : 0 ≤ distance

/-- What `search` raises. -/
inductive SearchError (ε : Type) where
  | embedding (raised : ε)
  /-- The `IndexError` of `[0]`. -/
  | noVector
  /-- The `ValueError` of `zip(..., strict=True)`. -/
  | lengths
  | database (e : DatabaseError)
  /-- The `ValidationError` of `RetrievedChunk`. -/
  | invalid

/-- `(await self._embeddings.embed([query]))[0]`. -/
def queryVector {ε V : Type} (answer : Except ε (List V)) : Except (SearchError ε) V :=
  match answer with
  | .error raised => .error (.embedding raised)
  | .ok [] => .error .noVector
  | .ok (vector :: _) => .ok vector

/-! ## `InMemoryRetrievalService.search` -/

namespace InMemoryRetrievalService

variable {ε R : Type} [LinearOrder R] [Zero R] [One R] [Sub R] [Mul R]

/-- `max(0.0, 1.0 - sum(...))`; `none` is the `ValueError` of `zip(..., strict=True)`. -/
def distance (sum : List R → R) (embedding query : List R) : Option R :=
  if embedding.length ≠ query.length then none
  else some (max 0 (1 - sum (embedding.zipWith (· * ·) query)))

/-- `scored`. -/
def scored (sum : List R → R) (query : List R) (items : List (IndexedChunk (List R))) :
    Option (List (R × IndexedChunk (List R))) :=
  items.mapM fun item => (distance sum item.embedding query).map fun distance => (distance, item)

/-- `RetrievedChunk(**item.chunk.model_dump(), ...)`; `none` is the `ValidationError`. -/
def retrieved : R × IndexedChunk (List R) → Option (RetrievedChunk R)
  | (distance, item) =>
    if nonneg : 0 ≤ distance then
      some ⟨item.chunk, item.documentTitle, item.sourceUri, distance, nonneg⟩
    else none

def search (service : InMemoryRetrievalService ε (List R)) (sum : List R → R)
    (answer : Except ε (List (List R))) (caseId : UUID) (limit : Nat) :
    Except (SearchError ε) (List (RetrievedChunk R)) :=
  match queryVector answer with
  | .error e => .error e
  | .ok query =>
    match scored sum query ((service.chunks caseId).getD []) with
    | none => .error .lengths
    | some items =>
      match (nearest Prod.fst limit items).mapM retrieved with
      | none => .error .invalid
      | some found => .ok found

end InMemoryRetrievalService

/-! ## The table of chunks -/

structure DocumentChunkRecord (R : Type) where
  id : UUID
  documentId : UUID
  caseId : UUID
  position : Nat
  heading : Option (List Char)
  content : List Char
  tokenCount : Nat
  metadataJson : List (String × Json)
  embedding : List R

/-- The values of a row fit its columns. -/
def DocumentChunkRecord.Fits {R : Type} (record : DocumentChunkRecord R) : Prop :=
  (∀ heading ∈ record.heading, Varchar 500 (String.ofList heading)) ∧
    StorableText (String.ofList record.content) ∧ record.embedding.length = 1024

instance {R : Type} (record : DocumentChunkRecord R) : Decidable record.Fits :=
  inferInstanceAs (Decidable (_ ∧ _))

/-- Every chunk has its document and its case. -/
structure EvidenceDatabase (R : Type) extends Database where
  chunks : Table (@DocumentChunkRecord.id R) (@DocumentChunkRecord.id R)
  /-- How often the chunks of a case have been replaced; no column, but what a statement has seen. -/
  revisions : UUID → Nat
  chunks_document : ∀ chunk ∈ chunks.rows, ∃ document ∈ documents.rows, document.id = chunk.documentId
  chunks_case : ∀ chunk ∈ chunks.rows, ∃ record ∈ cases.rows, record.id = chunk.caseId

namespace EvidenceDatabase

variable {R : Type}

def empty : EvidenceDatabase R :=
  ⟨Database.empty, .empty, fun _ => 0, by simp, by simp⟩

def chunksOf (db : EvidenceDatabase R) (caseId : UUID) : List (DocumentChunkRecord R) :=
  db.chunks.rows.filter fun chunk => chunk.caseId = caseId

/-- What `delete(...)` leaves when it has seen the chunks in the revision `seen`.  If they have been
    replaced since, the rows that it has seen are gone, and it does not touch the others. -/
def remaining (db : EvidenceDatabase R) (caseId : UUID) (seen : Nat) :
    Table (@DocumentChunkRecord.id R) (@DocumentChunkRecord.id R) :=
  if db.revisions caseId = seen then db.chunks.deleteWhere fun chunk => chunk.caseId = caseId
  else db.chunks

theorem mem_of_mem_remaining {db : EvidenceDatabase R} {caseId : UUID} {seen : Nat}
    {chunk : DocumentChunkRecord R} (member : chunk ∈ (db.remaining caseId seen).rows) :
    chunk ∈ db.chunks.rows := by
  unfold remaining at member
  split at member
  · exact List.mem_of_mem_filter member
  · exact member

/-- `add_all(records)` and `commit()` after the `delete(...)`. -/
def replaceChunks (db : EvidenceDatabase R) (caseId : UUID) (seen : Nat)
    (records : List (DocumentChunkRecord R)) : Except DatabaseError (EvidenceDatabase R) :=
  match rows : insertAll DocumentChunkRecord.Fits (db.remaining caseId seen) records with
  | .error e => .error e
  | .ok chunks =>
    if parents : ∀ record ∈ records, (∃ document ∈ db.documents.rows, document.id = record.documentId) ∧
        ∃ row ∈ db.cases.rows, row.id = record.caseId then .ok {
      db with
      chunks
      revisions := Function.update db.revisions caseId (db.revisions caseId + 1)
      chunks_document := by
        rw [(insertAll_ok rows).1]
        intro chunk member
        cases List.mem_append.mp member with
        | inl old => exact db.chunks_document chunk (mem_of_mem_remaining old)
        | inr new => exact (parents chunk new).1
      chunks_case := by
        rw [(insertAll_ok rows).1]
        intro chunk member
        cases List.mem_append.mp member with
        | inl old => exact db.chunks_case chunk (mem_of_mem_remaining old)
        | inr new => exact (parents chunk new).2 }
    else .error .integrityError

end EvidenceDatabase

/-! ## `PgVectorRetrievalService` -/

/-- The fields that `__init__` sets; `embed` answers from outside. -/
structure PgVectorRetrievalService where
  embeddingsName : String
  dimension : Nat
  chunker : StructuralChunker
  dimension_eq : dimension = 1024

/-- What `index_case` raises. -/
inductive IndexFailure (ε : Type) where
  | index (e : IndexError ε)
  | database (e : DatabaseError)
  /-- PostgreSQL ends a deadlock of two calls with an error for one of them. -/
  | deadlock

namespace PgVectorRetrievalService

variable (service : PgVectorRetrievalService) {ε R : Type}

/-- The arguments of `chunk` for a document. -/
def request (caseId : UUID) (document : DocumentRecord) : ChunkRequest where
  caseId := caseId
  documentId := document.id
  metadata := some [("document_position", .int document.position)]

/-- The loop over the documents, each `while` loop in it with at most `fuel` iterations. -/
def chunkRecords (fuel : Nat) (caseId : UUID) :
    List DocumentChunk → List DocumentRecord → Option (List DocumentChunk)
  | chunks, [] => some chunks
  | chunks, document :: rest =>
    (service.chunker.chunk fuel (request caseId document) document.content.toList).bind fun more =>
      chunkRecords fuel caseId (chunks ++ more) rest

/-- `ORDER BY position`. -/
def orderedDocuments (order : Sql.RowOrder) (db : Database) (caseId : UUID) : List DocumentRecord :=
  (order.documents (db.documentsOf caseId)).insertionSort ByPosition

def record (chunk : DocumentChunk) (embedding : List R) : DocumentChunkRecord R where
  id := chunk.id
  documentId := chunk.documentId
  caseId := chunk.caseId
  position := chunk.position
  heading := chunk.heading
  content := chunk.content
  tokenCount := chunk.tokenCount
  metadataJson := chunk.metadata
  embedding := embedding

/-- `zip(chunks, vectors)`. -/
def records (chunks : List DocumentChunk) (vectors : List (List R)) : List (DocumentChunkRecord R) :=
  chunks.zipWith record vectors

end PgVectorRetrievalService

/-- Where a call of `index_case` stands: before the read, before the vectors, before the `DELETE`,
    before the `INSERT` and its `COMMIT`, or at its end. -/
inductive IndexCall (ε R : Type) where
  | reading (caseId : UUID)
  | embedding (caseId : UUID) (documentCount : Nat) (chunks : List DocumentChunk)
  | replacing (caseId : UUID) (documentCount : Nat) (records : List (DocumentChunkRecord R))
  | inserting (caseId : UUID) (documentCount : Nat) (records : List (DocumentChunkRecord R)) (seen : Nat)
  | returned (result : IndexResult)
  | raised (e : IndexFailure ε)

/-- What a call meets from outside: the bound on its loops, the order of the rows that it reads, the
    answer of `embed`, and whether it is the victim of a deadlock. -/
structure IndexInput (ε R : Type) where
  fuel : Nat
  order : Sql.RowOrder
  answer : Except ε (List (List R))
  deadlocked : Bool

/-- One step of `index_case`; `none` at its end, or when a `while` loop needs more iterations. -/
def IndexCall.advance {ε R : Type} (service : PgVectorRetrievalService) (db : EvidenceDatabase R)
    (input : IndexInput ε R) : IndexCall ε R → Option (EvidenceDatabase R × IndexCall ε R)
  | .reading caseId =>
    let documents := PgVectorRetrievalService.orderedDocuments input.order db.toDatabase caseId
    (service.chunkRecords input.fuel caseId [] documents).map fun chunks =>
      (db, .embedding caseId documents.length chunks)
  | .embedding caseId documentCount chunks =>
    match input.answer with
    | .error fault => some (db, .raised (.index (.embedding fault)))
    | .ok vectors =>
      if chunks.length ≠ vectors.length then some (db, .raised (.index .lengths))
      else some (db, .replacing caseId documentCount (PgVectorRetrievalService.records chunks vectors))
  | .replacing caseId documentCount records =>
    if input.deadlocked then some (db, .raised .deadlock)
    else some (db, .inserting caseId documentCount records (db.revisions caseId))
  | .inserting caseId documentCount records seen =>
    if input.deadlocked then some (db, .raised .deadlock)
    else
      match db.replaceChunks caseId seen records with
      | .error e => some (db, .raised (.database e))
      | .ok db' => some (db', .returned ⟨caseId, documentCount, records.length, service.embeddingsName⟩)
  | .returned _ => none
  | .raised _ => none

/-! ## `PgVectorRetrievalService.search` -/

/-- The operator `<=>`; `⊤` is NaN, which `ORDER BY` puts last. -/
abbrev CosineDistance (R : Type) := List R → List R → WithTop R

/-- A row of the joined tables. -/
structure Candidate (R : Type) where
  chunk : DocumentChunkRecord R
  title : String
  sourceUri : Option String

/-- The rows that the plan of the query visits.  A scan of the index for nearest neighbours is
    approximate: it may miss rows. -/
structure Plan (R : Type) where
  visit : List (Candidate R) → List (Candidate R)
  visit_subperm : ∀ rows, (visit rows).Subperm rows

/-- A plan that visits every row. -/
def Plan.Exact {R : Type} (plan : Plan R) : Prop :=
  ∀ rows, (plan.visit rows).Perm rows

/-- `.join(...)` and `.where(...)`. -/
def EvidenceDatabase.candidates {R : Type} (db : EvidenceDatabase R) (caseId : UUID) : List (Candidate R) :=
  (db.chunksOf caseId).filterMap fun chunk =>
    (db.documents.find? chunk.documentId).map fun document => ⟨chunk, document.title, document.sourceUri⟩

namespace PgVectorRetrievalService

variable {ε R : Type} [LinearOrder R] [Zero R]

/-- `RetrievedChunk(...)`; `none` is the `ValidationError`. -/
def retrieved (distance : WithTop R) (row : Candidate R) : Option (RetrievedChunk R) :=
  match distance with
  | ⊤ => none
  | (distance : R) =>
    if valid : row.chunk.content ≠ [] ∧ 1 ≤ row.chunk.tokenCount ∧ 0 ≤ distance then
      some {
        id := row.chunk.id
        documentId := row.chunk.documentId
        caseId := row.chunk.caseId
        position := row.chunk.position
        heading := row.chunk.heading
        content := row.chunk.content
        tokenCount := row.chunk.tokenCount
        metadata := row.chunk.metadataJson
        content_ne_nil := valid.1
        tokenCount_pos := valid.2.1
        documentTitle := row.title
        sourceUri := row.sourceUri
        distance := distance
        distance_nonneg := valid.2.2 }
    else none

/-- Vectors of different dimensions have no distance, so a query of another dimension fails on the
    first row. -/
def search (cosine : CosineDistance R) (plan : Plan R) (db : EvidenceDatabase R)
    (answer : Except ε (List (List R))) (caseId : UUID) (limit : Nat) :
    Except (SearchError ε) (List (RetrievedChunk R)) :=
  match queryVector answer with
  | .error e => .error e
  | .ok query =>
    let rows := plan.visit (db.candidates caseId)
    if rows ≠ [] ∧ query.length ≠ 1024 then .error (.database .dataError)
    else
      let distance := fun row : Candidate R => cosine row.chunk.embedding query
      match (nearest distance limit rows).mapM fun row => retrieved (distance row) row with
      | none => .error .invalid
      | some found => .ok found

end PgVectorRetrievalService

end SupplierAssurance.Retrieval
