import SupplierAssurance.Api.Provenance
import SupplierAssurance.Retrieval.Search

/-! # What a search of the API answers

`search_case_evidence` answers a principal who may read the case, from the documents that the case
was created with: every result is a chunk of one of them, under its title and address, nearest first.
A case that has not been indexed is searched without a result.
-/

namespace SupplierAssurance.Api

open Python Lib Graphs Governance Retrieval

/-! ## The chunks of a case -/

section Chunks

variable {ε V : Type} {service : InMemoryRetrievalService ε V} {supplierCase : SupplierCase}

/-- A chunk of the case, with the provenance of one of the documents. -/
def FromDocument (caseId : UUID) (documents : List DocumentInput) (source : Sourced) : Prop :=
  source.1.caseId = caseId ∧
    ∃ document ∈ documents, source.2 = (document.title, document.sourceUri)

theorem chunkDocuments_from {fuel position : Nat} {chunks all : List Sourced}
    {documents : List DocumentInput}
    (ended : service.chunkDocuments fuel supplierCase position chunks documents = some all) :
    ∀ source ∈ all, source ∈ chunks ∨ FromDocument supplierCase.id documents source := by
  induction documents generalizing position chunks with
  | nil =>
    cases ended
    exact fun source member => .inl member
  | cons document rest ih =>
    obtain ⟨found, first, others⟩ := Option.bind_eq_some_iff.mp ended
    intro source member
    cases ih others source member with
    | inl sofar =>
      cases List.mem_append.mp sofar with
      | inl old => exact .inl old
      | inr new =>
        obtain ⟨c, isFound, rfl⟩ := List.mem_map.mp new
        have own := StructuralChunker.chunk_caseId first c isFound
        exact .inr ⟨own, document, List.mem_cons_self, rfl⟩
    | inr later =>
      obtain ⟨own, document', inRest, same⟩ := later
      exact .inr ⟨own, document', List.mem_cons_of_mem _ inRest, same⟩

/-- A chunk as it is indexed, without its vector. -/
def storedSource (item : IndexedChunk V) : Sourced :=
  (item.chunk, item.documentTitle, item.sourceUri)

theorem source_of_mem_indexed {chunks : List Sourced} {vectors : List V} {item : IndexedChunk V}
    (member : item ∈ InMemoryRetrievalService.indexed chunks vectors) :
    storedSource item ∈ chunks := by
  obtain ⟨⟨source, vector⟩, inZip, rfl⟩ := List.mem_map.mp member
  exact (List.of_mem_zip inZip).1

end Chunks

/-! ## The results of a search -/

section Results

variable {ε R : Type} [LinearOrder R] [Zero R]

/-- A result without its distance. -/
def foundSource (item : RetrievedChunk R) : Sourced :=
  (item.toDocumentChunk, item.documentTitle, item.sourceUri)

theorem retrieved_source {pair : R × IndexedChunk (List R)} {item : RetrievedChunk R}
    (read : InMemoryRetrievalService.retrieved pair = some item) :
    item.distance = pair.1 ∧ foundSource item = storedSource pair.2 := by
  obtain ⟨distance, indexed⟩ := pair
  rw [InMemoryRetrievalService.retrieved] at read
  split at read
  · cases read
    exact ⟨rfl, rfl⟩
  · cases read

variable [One R] [Sub R] [Mul R]

theorem scored_snd {sum : List R → R} {query : List R} {items : List (IndexedChunk (List R))}
    {pairs : List (R × IndexedChunk (List R))}
    (scored : InMemoryRetrievalService.scored sum query items = some pairs) : pairs.map Prod.snd = items := by
  have same := map_of_mapM (f := Prod.snd) (g := id) scored fun item _ pair isPair => by
    obtain ⟨distance, -, rfl⟩ := Option.map_eq_some_iff.mp isPair
    rfl
  rw [same, List.map_id]

/-- The results are the nearest of the chunks of the case. -/
theorem search_results {service : InMemoryRetrievalService ε (List R)} {sum : List R → R}
    {answer : Except ε (List (List R))} {caseId : UUID} {limit : Nat} {found : List (RetrievedChunk R)}
    (searched : service.search sum answer caseId limit = .ok found) :
    found.length ≤ limit ∧ found.Pairwise (fun item item' => item.distance ≤ item'.distance) ∧
      ∀ item ∈ found, ∃ stored ∈ (service.chunks caseId).getD [],
        foundSource item = storedSource stored := by
  unfold InMemoryRetrievalService.search at searched
  split at searched
  · cases searched
  next query asked =>
    split at searched
    · cases searched
    next pairs scored =>
      split at searched
      · cases searched
      next read =>
        cases searched
        have near := nearest_isNearest Prod.fst limit pairs
        have distances := map_of_mapM read fun pair _ item isItem => (retrieved_source isItem).1
        have sources := map_of_mapM read fun pair _ item isItem => (retrieved_source isItem).2
        have subset := near.subset
        obtain ⟨rest, split⟩ := near
        have length := congrArg List.length distances
        rw [List.length_map, List.length_map] at length
        refine ⟨?_, ?_, ?_⟩
        · rw [length, split.count]
          exact Nat.min_le_left ..
        · have ordered : (found.map (·.distance)).Pairwise (· ≤ ·) := by
            rw [distances, List.pairwise_map]
            exact split.ordered
          exact List.pairwise_map.mp ordered
        · intro item member
          have isSource : foundSource item ∈ found.map foundSource :=
            List.mem_map_of_mem member
          rw [sources] at isSource
          obtain ⟨pair, picked, same⟩ := List.mem_map.mp isSource
          refine ⟨pair.2, ?_, same.symm⟩
          rw [← scored_snd scored]
          exact List.mem_map_of_mem (subset picked)

end Results

/-! ## Over every run -/

section

variable {R : Type} [LinearOrder R] [Zero R] [One R] [Sub R] [Mul R] {schemas : JsonSchemas}
  {embeddings : EmbeddingProvider String (List R)} {chunker : StructuralChunker} {server : Server R}
  {caseId : UUID} {principal : Principal} {sum : List R → R} {limit : Nat} {query : EvidenceQuery}
  {found : List (RetrievedChunk R)}

/-- The evidence of an answer is that of the case, which the principal may read. -/
structure EvidenceOf (server : Server R) (caseId : UUID) (principal : Principal) (limit : Nat)
    (found : List (RetrievedChunk R)) : Prop where
  own : ∃ supplierCase, server.state.cases.cases caseId = some supplierCase ∧
    (.admin ∉ principal.roles → supplierCase.tenantId = principal.tenantId) ∧
    ∀ item ∈ found, FromDocument caseId supplierCase.documents (foundSource item)
  bounded : found.length ≤ limit
  ordered : found.Pairwise fun item item' => item.distance ≤ item'.distance

theorem Server.evidence_own (reached : Server.Reachable schemas embeddings chunker server)
    (answered : server.searchCaseEvidence sum limit caseId query principal = .ok found) :
    EvidenceOf server caseId principal limit found := by
  have isTold := reachable_told reached
  unfold Server.searchCaseEvidence at answered
  split at answered
  · cases answered
  next supplierCase authorized =>
    have stored := getAuthorizedCase_found authorized
    have sameId := isTold.state.accounted.cases.keyed caseId supplierCase stored
    cases searched : server.retrieval.search sum
        (server.retrieval.embeddings.embed [query.text.toList]) caseId limit with
    | error e =>
      rw [searched] at answered
      cases answered
    | ok results =>
      rw [searched] at answered
      cases answered
      obtain ⟨bounded, ordered, sources⟩ := search_results searched
      refine ⟨⟨supplierCase, stored, ?_, ?_⟩, bounded, ordered⟩
      · intro notAdmin
        exact (getAuthorizedCase_ok notAdmin authorized).2
      · intro item member
        obtain ⟨indexed, inIndex, same⟩ := sources item member
        cases isIndexed : server.retrieval.chunks caseId with
        | none =>
          rw [isIndexed] at inIndex
          cases inIndex
        | some items =>
          rw [isIndexed, Option.getD_some] at inIndex
          obtain ⟨held, fuel, chunks, vectors, isHeld, ended, -, rfl, -⟩ :=
            isTold.index caseId items isIndexed
          rw [stored] at isHeld
          cases isHeld
          rw [same, ← sameId]
          exact (chunkDocuments_from ended _ (source_of_mem_indexed inIndex)).resolve_left
            List.not_mem_nil

end

end SupplierAssurance.Api
