import SupplierAssurance.Retrieval.Indexing

/-! # Search

A search in PostgreSQL answers from the rows of its case, each with the title and the address of its
own document, whatever the plan visits; a plan that visits every row leaves out no row that is closer
than one it returns.

The service in memory and the one in PostgreSQL chunk the same texts, so where they measure the same
distances, they answer alike.
-/

namespace SupplierAssurance.Retrieval

open SupplierAssurance.Lib SupplierAssurance.Python SupplierAssurance.Sql

/-- A view of the results is a view of what they are read from. -/
theorem map_of_mapM {α β γ : Type} {read : α → Option β} {f : β → γ} {g : α → γ} {items : List α}
    {found : List β} (ended : items.mapM read = some found)
    (view : ∀ a ∈ items, ∀ b, read a = some b → f b = g a) : found.map f = items.map g := by
  induction items generalizing found with
  | nil =>
    cases ended
    rfl
  | cons a rest ih =>
    rw [List.mapM_cons] at ended
    obtain ⟨b, first, ended⟩ := Option.bind_eq_some_iff.mp ended
    obtain ⟨others, later, same⟩ := Option.bind_eq_some_iff.mp ended
    cases same
    rw [List.map_cons, List.map_cons, view a List.mem_cons_self b first,
      ih later fun a member => view a (List.mem_cons_of_mem _ member)]

/-! ## In PostgreSQL -/

section Rows

variable {service : PgVectorRetrievalService} {ε R : Type} {w : RetrievalWorld ε R} {caseId : UUID}

/-- The join finds the one document of every row. -/
theorem candidates_eq (indexed : w.Indexed service) (caseId : UUID) :
    (w.db.candidates caseId).map (·.chunk) = w.db.chunksOf caseId ∧
      ∀ row ∈ w.db.candidates caseId, row.chunk ∈ w.db.chunksOf caseId ∧
        ∃ document ∈ w.db.documentsOf caseId, document.id = row.chunk.documentId ∧
          row.title = document.title ∧ row.sourceUri = document.sourceUri := by
  have joined : ∀ chunk ∈ w.db.chunksOf caseId, ∃ document ∈ w.db.documentsOf caseId,
      w.db.documents.find? chunk.documentId = some document := by
    intro chunk member
    obtain ⟨inRows, own⟩ := List.mem_filter.mp member
    obtain ⟨document, isDocument, same, ofCase⟩ := indexed.owned inRows
    exact ⟨document, mem_documentsOf.mpr ⟨isDocument, ofCase.trans (of_decide_eq_true own)⟩,
      Table.find?_eq_some.mpr ⟨isDocument, same⟩⟩
  constructor
  · rw [EvidenceDatabase.candidates, List.map_filterMap]
    refine Eq.trans ?_ (List.filterMap_some (l := w.db.chunksOf caseId))
    apply List.filterMap_congr
    intro chunk member
    obtain ⟨document, -, found⟩ := joined chunk member
    rw [found]
    rfl
  · intro row member
    obtain ⟨chunk, inRows, isRow⟩ := List.mem_filterMap.mp member
    obtain ⟨document, isDocument, found⟩ := joined chunk inRows
    rw [found] at isRow
    cases isRow
    exact ⟨inRows, document, isDocument, (Table.find?_eq_some.mp found).2, rfl, rfl⟩

end Rows

section Search

variable {service : PgVectorRetrievalService} {ε R : Type} [LinearOrder R] [Zero R]
  {w : RetrievalWorld ε R} {caseId : UUID} {limit : Nat} {cosine : CosineDistance R} {plan : Plan R}
  {answer : Except ε (List (List R))} {query : List R} {found : List (RetrievedChunk R)}

/-- What a result shows of a row. -/
theorem retrieved_eq {distance : WithTop R} {row : Candidate R} {item : RetrievedChunk R}
    (read : PgVectorRetrievalService.retrieved distance row = some item) :
    (item.distance : WithTop R) = distance ∧
      PgVectorRetrievalService.record item.toDocumentChunk row.chunk.embedding = row.chunk ∧
      item.documentTitle = row.title ∧ item.sourceUri = row.sourceUri := by
  unfold PgVectorRetrievalService.retrieved at read
  split at read
  · cases read
  · split at read
    next =>
      cases read
      exact ⟨rfl, rfl, rfl, rfl⟩
    next => cases read

/-- The rows that a search returns. -/
theorem search_picked (searched : PgVectorRetrievalService.search cosine plan w.db answer caseId limit =
      .ok found) (asked : queryVector answer = .ok query) :
    ∃ picked, IsNearest (fun row : Candidate R => cosine row.chunk.embedding query) limit
        (plan.visit (w.db.candidates caseId)) picked ∧
      picked.mapM (fun row => PgVectorRetrievalService.retrieved (cosine row.chunk.embedding query) row) =
        some found := by
  unfold PgVectorRetrievalService.search at searched
  rw [asked] at searched
  simp only at searched
  split at searched
  · cases searched
  · split at searched
    · cases searched
    next read =>
      cases searched
      exact ⟨_, nearest_isNearest _ limit _, read⟩

/-- What a search returns. -/
structure SearchSafe (cosine : CosineDistance R) (plan : Plan R) (db : EvidenceDatabase R) (caseId : UUID)
    (limit : Nat) (query : List R) (found : List (RetrievedChunk R)) : Prop where
  /-- Every result is a row of the case, with the provenance of its own document. -/
  own : ∀ item ∈ found, ∃ row ∈ db.chunksOf caseId, ∃ document ∈ db.documentsOf caseId,
    PgVectorRetrievalService.record item.toDocumentChunk row.embedding = row ∧
      document.id = item.documentId ∧ item.documentTitle = document.title ∧
      item.sourceUri = document.sourceUri ∧ cosine row.embedding query = item.distance
  distinct : (found.map (·.id)).Nodup
  ordered : found.Pairwise fun item item' => item.distance ≤ item'.distance
  bounded : found.length ≤ limit
  /-- What an exact plan leaves out is no closer than what it returns. -/
  nearest : plan.Exact → found.length = min limit (db.chunksOf caseId).length ∧
    ∀ row ∈ db.chunksOf caseId, (∀ item ∈ found, item.id ≠ row.id) →
      ∀ item ∈ found, (item.distance : WithTop R) ≤ cosine row.embedding query

/-- Evidence comes from the case that is searched, in every state of the index. -/
theorem search_safe (reachable : w.Reachable service)
    (searched : PgVectorRetrievalService.search cosine plan w.db answer caseId limit = .ok found)
    (asked : queryVector answer = .ok query) :
    SearchSafe cosine plan w.db caseId limit query found := by
  have indexed := RetrievalWorld.reachable_indexed reachable
  obtain ⟨chunks, joined⟩ := candidates_eq indexed caseId
  obtain ⟨picked, near, read⟩ := search_picked searched asked
  have visited : ∀ row ∈ picked, row ∈ w.db.candidates caseId := fun row member =>
    (plan.visit_subperm _).subset (near.subset member)
  have ids : found.map (·.id) = picked.map fun row => row.chunk.id := by
    refine map_of_mapM read fun row _ item isItem => ?_
    exact congrArg DocumentChunkRecord.id (retrieved_eq isItem).2.1
  have distances : found.map (fun item => (item.distance : WithTop R)) =
      picked.map fun row => cosine row.chunk.embedding query :=
    map_of_mapM read fun row _ item isItem => (retrieved_eq isItem).1
  have length : found.length = picked.length := by
    simpa using congrArg List.length ids
  have items := map_of_mapM (f := some) read fun row _ item isItem => isItem.symm
  have distinctRows : ((w.db.candidates caseId).map fun row => row.chunk.id).Nodup := by
    have keys : ((w.db.candidates caseId).map (·.chunk)).map (·.id) = (w.db.chunksOf caseId).map (·.id) := by
      rw [chunks]
    rw [List.map_map] at keys
    rw [show (fun row : Candidate R => row.chunk.id) = (·.id) ∘ (·.chunk) from rfl, keys]
    exact w.db.chunks.pkUnique.sublist (List.filter_sublist.map _)
  obtain ⟨rest, split⟩ := near
  obtain ⟨reached, same, reachedRows⟩ := plan.visit_subperm (w.db.candidates caseId)
  have distinctPicked : (picked.map fun row => row.chunk.id).Nodup := by
    have all := (split.parts.trans same.symm).map fun row : Candidate R => row.chunk.id
    rw [List.map_append] at all
    exact (List.nodup_append.mp (all.nodup_iff.mpr (distinctRows.sublist (reachedRows.map _)))).1
  refine ⟨?_, ids ▸ distinctPicked, ?_, ?_, ?_⟩
  · intro item member
    have isItem : some item ∈ picked.map fun row =>
        PgVectorRetrievalService.retrieved (cosine row.chunk.embedding query) row := by
      rw [← items]
      exact List.mem_map_of_mem member
    obtain ⟨row, isPicked, read⟩ := List.mem_map.mp isItem
    obtain ⟨distance, isRow, title, sourceUri⟩ := retrieved_eq read
    obtain ⟨inRows, document, isDocument, source, ofTitle, ofUri⟩ := joined row (visited row isPicked)
    have documentId : item.documentId = row.chunk.documentId :=
      congrArg DocumentChunkRecord.documentId isRow
    exact ⟨row.chunk, inRows, document, isDocument, isRow, source.trans documentId.symm,
      title.trans ofTitle, sourceUri.trans ofUri, distance.symm⟩
  · have ordered : (found.map fun item => (item.distance : WithTop R)).Pairwise (· ≤ ·) := by
      rw [distances, List.pairwise_map]
      exact split.ordered
    refine (List.pairwise_map.mp ordered).imp ?_
    intro item item' le
    exact WithTop.coe_le_coe.mp le
  · rw [length, split.count]
    exact Nat.min_le_left ..
  · intro exact_
    have all : (picked ++ rest).Perm (w.db.candidates caseId) := split.parts.trans (exact_ _)
    have count : (w.db.chunksOf caseId).length = (plan.visit (w.db.candidates caseId)).length := by
      rw [← chunks, List.length_map, (exact_ _).length_eq]
    refine ⟨by rw [length, split.count, count], ?_⟩
    intro chunk inRows leftOut item member
    rw [← chunks] at inRows
    obtain ⟨row, isCandidate, rfl⟩ := List.mem_map.mp inRows
    have isRest : row ∈ rest := by
      refine (List.mem_append.mp (all.mem_iff.mpr isCandidate)).resolve_left ?_
      intro isPicked
      have returned : row.chunk.id ∈ found.map (·.id) := by
        rw [ids]
        exact List.mem_map.mpr ⟨row, isPicked, rfl⟩
      obtain ⟨other, isFound, sameId⟩ := List.mem_map.mp returned
      exact leftOut other isFound sameId
    have isDistance : (item.distance : WithTop R) ∈ picked.map fun row =>
        cosine row.chunk.embedding query := by
      rw [← distances]
      exact List.mem_map.mpr ⟨item, member, rfl⟩
    obtain ⟨nearer, isPicked, isNearer⟩ := List.mem_map.mp isDistance
    rw [← isNearer]
    exact split.closer nearer isPicked row isRest

end Search

/-! ### A search for the text of the sample -/

def dot (left right : List Int) : Int :=
  (left.zipWith (· * ·) right).foldl (· + ·) 0

/-- The cosine distance of unit vectors. -/
def unitCosine : CosineDistance Int := fun left right =>
  if dot left left = 1 ∧ dot right right = 1 then WithTop.some (1 - dot left right) else ⊤

def scanAll (R : Type) : Plan R :=
  ⟨id, fun rows => List.Subperm.refl rows⟩

theorem exists_ok {ε α : Type} {answer : Except ε α} {test : α → Bool}
    (passed : answer.toOption.any test = true) : ∃ a, answer = .ok a ∧ test a = true := by
  cases answer with
  | error e => cases passed
  | ok a => exact ⟨a, rfl, passed⟩

open RetrievalWorld in
theorem search_safe_indexed : ∃ (w : RetrievalWorld Empty Int) (found : List (RetrievedChunk Int)),
    w.Reachable sampleService ∧ found.length = 2 ∧
      SearchSafe unitCosine (scanAll Int) w.db ⟨1⟩ 8 sampleVector found := by
  have replayed : ((run (step sampleService) initial
      (sampleTrace ++ [.advance 0 sampleInput, .advance 0 sampleInput])).map fun w =>
      (PgVectorRetrievalService.search (ε := Empty) unitCosine (scanAll Int) w.db (.ok [sampleVector])
        ⟨1⟩ 8).toOption.any fun found => decide (found.length = 2)) = some true := by
    decide +kernel
  obtain ⟨w, reachable, passed⟩ := reachable_of_run replayed
  obtain ⟨found, searched, two⟩ := exists_ok passed
  exact ⟨w, found, reachable, of_decide_eq_true two, search_safe reachable searched rfl⟩

end SupplierAssurance.Retrieval
