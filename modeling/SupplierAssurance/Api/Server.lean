import SupplierAssurance.Api.States
import SupplierAssurance.Retrieval.PgVector

/-! # The whole API

`index_case_documents` and `search_case_evidence` beside the endpoints of `States`, over the
retrieval service in memory, and runs of requests to all of them.  An exception of the embedding
provider is known by its type.

The loops of the chunker need not end.  A request carries the iterations it is given, and one that
needs more is no step: it never answers, and writes nothing.
-/

namespace SupplierAssurance.Api

open Python Lib Graphs Governance Retrieval

structure Server (R : Type) where
  state : ApiState
  retrieval : InMemoryRetrievalService String (List R)

/-- `query` of `search_case_evidence`: `Query(min_length=2, max_length=500)`. -/
structure EvidenceQuery where
  text : String
  bounded : Bounded 2 500 text

def documentsIndexed (caseId : UUID) (result : IndexResult) : AuditEventCreate where
  caseId := caseId
  eventType := "documents.indexed"
  actorId := "system:retrieval"
  payload := [("document_count", .int result.documentCount), ("chunk_count", .int result.chunkCount),
    ("embedding_backend", .str result.embeddingBackend)]

/-- `type(exc).__name__`. -/
def indexErrorType : IndexError String → String
  | .embedding raised => raised
  | .lengths => "ValueError"

def searchErrorType : SearchError String → String
  | .embedding raised => raised
  | .noVector => "IndexError"
  | .lengths => "ValueError"
  | .database .integrityError => "IntegrityError"
  | .database .dataError => "DBAPIError"
  | .invalid => "ValidationError"

namespace Server

section

variable {R : Type}

/-- `none` when a loop of the chunker needs more than `fuel` iterations. -/
def indexCaseDocuments (server : Server R) (caseId : UUID) (principal : Principal) (ambient : Ambient)
    (fuel : Nat) : Option (Server R × Except ApiError IndexResult) :=
  match authorize server.state.cases caseId principal with
  | .error e => some (server, .error e)
  | .ok supplierCase =>
    (server.retrieval.indexCase fuel supplierCase).map fun
      | .error e => (server, .error (.unhandled (indexErrorType e)))
      | .ok (result, retrieval) =>
        let server := { server with retrieval }
        let written := server.state.write
          (server.state.cases.appendAuditEvent ambient (documentsIndexed caseId result))
          fun state => (state, .ok result)
        ({ server with state := written.1 }, written.2)

/-- `limit` is `settings.retrieval_limit`. -/
def searchCaseEvidence [LinearOrder R] [Zero R] [One R] [Sub R] [Mul R] (server : Server R)
    (sum : List R → R) (limit : Nat) (caseId : UUID) (query : EvidenceQuery) (principal : Principal) :
    Except ApiError (List (RetrievedChunk R)) :=
  match getAuthorizedCase server.state.cases caseId principal with
  | .error e => .error e
  | .ok _ =>
    (server.retrieval.search sum (server.retrieval.embeddings.embed [query.text.toList]) caseId
      limit).mapError fun e => .unhandled (searchErrorType e)

end

/-! ## Runs -/

/-- `search_case_evidence` and the other requests that only read lead nowhere.  The same call of
    `embed` may be answered otherwise in another request. -/
inductive Request (R : Type) where
  | api (step : ApiStep)
  | indexCaseDocuments (caseId : UUID) (principal : Principal) (ambient : Ambient)
    (embed : List (List Char) → Except String (List (List R))) (fuel : Nat)

variable {R : Type}

/-- The server while its provider answers with `embed`. -/
def answering (server : Server R) (embed : List (List Char) → Except String (List (List R))) : Server R :=
  { server with retrieval.embeddings.embed := embed }

def step (schemas : JsonSchemas) (server : Server R) : Request R → Option (Server R)
  | .api step => (server.state.step schemas step).map fun state => { server with state }
  | .indexCaseDocuments caseId principal ambient embed fuel =>
    ((server.answering embed).indexCaseDocuments caseId principal ambient fuel).map Prod.fst

/-- The application as `create_container` leaves it. -/
def initial (embeddings : EmbeddingProvider String (List R)) (chunker : StructuralChunker) : Server R :=
  ⟨.empty, ⟨embeddings, chunker, fun _ => none⟩⟩

/-- `create_case` draws a new identifier. -/
def Fresh (server : Server R) : Request R → Prop
  | .api ⟨.createCase _, _, draws⟩ => server.state.cases.cases (draws.ambient 0).uuid = none
  | _ => True

/-- The states that requests of any principals lead to. -/
def Reachable (schemas : JsonSchemas) (embeddings : EmbeddingProvider String (List R))
    (chunker : StructuralChunker) (server : Server R) : Prop :=
  StepsWhen (step schemas) Fresh (initial embeddings chunker) server

end Server

end SupplierAssurance.Api
