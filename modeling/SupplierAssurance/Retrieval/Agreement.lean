import SupplierAssurance.Retrieval.Search

/-! # Two services, one answer

`InMemoryRetrievalService` indexes the documents of the case that it is given, and
`PgVectorRetrievalService` the rows that the case repository has made of them.  The identifiers of
documents and chunks differ; the excerpts, which are what a reader of the evidence sees, do not.  So
where the two measure the same distances from the query to the chunks of the case, and the plan visits
all of these, each answers a search with excerpts from one and the same list, nearest first.
-/

namespace SupplierAssurance.Retrieval

open SupplierAssurance.Lib SupplierAssurance.Python SupplierAssurance.Sql

/-- A chunk without its identifiers, and the provenance of its document. -/
structure Excerpt where
  position : Nat
  heading : Option (List Char)
  content : List Char
  tokenCount : Nat
  metadata : List (String × Json)
  title : String
  sourceUri : Option String

def excerpt (c : DocumentChunk) (source : String × Option String) : Excerpt :=
  ⟨c.position, c.heading, c.content, c.tokenCount, c.metadata, source.1, source.2⟩

/-- The parts of a chunk that do not depend on its document. -/
def chunkText (c : DocumentChunk) : Nat × Option (List Char) × List Char × Nat × List (String × Json) :=
  (c.position, c.heading, c.content, c.tokenCount, c.metadata)

/-! ## The same chunks -/

section Chunks

variable {request request' : ChunkRequest} {outputs outputs' all : List DocumentChunk}

theorem appendChunk_text (metadata : request'.metadata = request.metadata)
    (same : outputs'.map chunkText = outputs.map chunkText) (heading : Option (List Char))
    (text : List Char) :
    (appendChunk request' heading outputs' text).map chunkText =
      (appendChunk request heading outputs text).map chunkText := by
  have length : outputs'.length = outputs.length := by simpa using congrArg List.length same
  by_cases empty : strip text = []
  · have kept : appendChunk request heading outputs text = outputs := dif_pos empty
    have kept' : appendChunk request' heading outputs' text = outputs' := dif_pos empty
    rw [kept, kept', same]
  · rw [show appendChunk request heading outputs text = outputs ++ [_] from dif_neg empty,
      show appendChunk request' heading outputs' text = outputs' ++ [_] from dif_neg empty,
      List.map_append, List.map_append, same]
    simp [chunkText, length, metadata]

theorem chunkSections_text {chunker : StructuralChunker} {fuel : Nat} {found : List Section}
    (metadata : request'.metadata = request.metadata)
    (ended : chunker.chunkSections fuel request outputs found = some all)
    (same : outputs'.map chunkText = outputs.map chunkText) :
    ∃ all', chunker.chunkSections fuel request' outputs' found = some all' ∧
      all'.map chunkText = all.map chunkText := by
  induction found generalizing outputs outputs' with
  | nil =>
    cases ended
    exact ⟨outputs', rfl, same⟩
  | cons first rest ih =>
    obtain ⟨parts, bounded, others⟩ := Option.bind_eq_some_iff.mp ended
    have folded : ∀ (parts : List (List Char)) (outputs outputs' : List DocumentChunk),
        outputs'.map chunkText = outputs.map chunkText →
        (parts.foldl (appendChunk request' first.heading) outputs').map chunkText =
          (parts.foldl (appendChunk request first.heading) outputs).map chunkText := by
      intro parts
      induction parts with
      | nil => exact fun _ _ same => same
      | cons text parts ih =>
        intro outputs outputs' same
        exact ih _ _ (appendChunk_text metadata same first.heading text)
    obtain ⟨all', ended', texts⟩ := ih others (folded parts outputs outputs' same)
    exact ⟨all', Option.bind_eq_some_iff.mpr ⟨parts, bounded, ended'⟩, texts⟩

end Chunks

section Documents

variable {ε V : Type} {service : InMemoryRetrievalService ε V} {pg : PgVectorRetrievalService}
  {supplierCase : SupplierCase} {draw : Nat → UUID} {fuel : Nat}

/-- The row of one document. -/
def documentRow (draw : Nat → UUID) (caseId : UUID) (document : DocumentInput) (position : Nat) :
    DocumentRecord :=
  ⟨draw position, caseId, document.title, position, document.content, document.sourceUri, .obj []⟩

/-- A chunk with the provenance of one of the rows. -/
def SourcedFrom (rows : List DocumentRecord) (item : Sourced) : Prop :=
  ∃ row ∈ rows, row.id = item.1.documentId ∧ item.2 = (row.title, row.sourceUri)

theorem excerpts_of_texts {found found' : List DocumentChunk} (source : String × Option String)
    (texts : found'.map chunkText = found.map chunkText) :
    (found'.map fun c => excerpt c source) = found.map fun c => excerpt c source := by
  have read := congrArg (List.map fun (position, heading, content, tokenCount, metadata) =>
    (⟨position, heading, content, tokenCount, metadata, source.1, source.2⟩ : Excerpt)) texts
  rw [List.map_map, List.map_map] at read
  exact read

def documentRows (draw : Nat → UUID) (caseId : UUID) (position : Nat) (documents : List DocumentInput) :
    List DocumentRecord :=
  (documents.zipIdx position).map fun (document, position) => documentRow draw caseId document position

/-- The chunks of the rows of the documents are those of the documents. -/
theorem chunkRecords_of_chunkDocuments (chunker : pg.chunker = service.chunker)
    {documents : List DocumentInput} {position : Nat} {chunks chunks' all : List Sourced}
    (ended : service.chunkDocuments fuel supplierCase position chunks documents = some all)
    (same : (chunks'.map fun item => excerpt item.1 item.2) = chunks.map fun item => excerpt item.1 item.2) :
    ∃ all' : List Sourced, pg.chunkRecords fuel supplierCase.id (chunks'.map (·.1))
        (documentRows draw supplierCase.id position documents) = some (all'.map (·.1)) ∧
      (all'.map fun item => excerpt item.1 item.2) = (all.map fun item => excerpt item.1 item.2) ∧
      ∀ item ∈ all', item ∈ chunks' ∨
        SourcedFrom (documentRows draw supplierCase.id position documents) item := by
  induction documents generalizing position chunks chunks' with
  | nil =>
    cases ended
    exact ⟨chunks', rfl, same, fun item member => .inl member⟩
  | cons document rest ih =>
    obtain ⟨found, first, others⟩ := Option.bind_eq_some_iff.mp ended
    obtain ⟨found', first', texts⟩ : ∃ found', pg.chunker.chunk fuel
        (PgVectorRetrievalService.request supplierCase.id
          (documentRow draw supplierCase.id document position)) document.content.toList = some found' ∧
        found'.map chunkText = found.map chunkText := by
      have metadata : (PgVectorRetrievalService.request supplierCase.id
          (documentRow draw supplierCase.id document position)).metadata =
          (InMemoryRetrievalService.request supplierCase position document).metadata := rfl
      rw [chunker]
      exact chunkSections_text metadata first rfl
    have identified := StructuralChunker.chunk_identified first'
    have more : ((chunks' ++ found'.map fun c => (c, document.title, document.sourceUri)).map
        fun item => excerpt item.1 item.2) =
        (chunks ++ found.map fun c => (c, document.title, document.sourceUri)).map
          fun item => excerpt item.1 item.2 := by
      rw [List.map_append, List.map_append, same, List.map_map, List.map_map]
      congr 1
      exact excerpts_of_texts (document.title, document.sourceUri) texts
    obtain ⟨all', ended', excerpts, sourced⟩ := ih others more
    refine ⟨all', ?_, excerpts, ?_⟩
    · refine Option.bind_eq_some_iff.mpr ⟨found', first', ?_⟩
      have fronts : (chunks' ++ found'.map fun c => (c, document.title, document.sourceUri)).map (·.1) =
          chunks'.map (·.1) ++ found' := by
        simp [Function.comp_def]
      rw [fronts] at ended'
      exact ended'
    · intro item member
      rcases sourced item member with sofar | ⟨source, inRest, from_⟩
      · cases List.mem_append.mp sofar with
        | inl old => exact .inl old
        | inr new =>
          obtain ⟨c, isFound, rfl⟩ := List.mem_map.mp new
          exact .inr ⟨_, List.mem_cons_self, (identified.document c isFound).symm, rfl⟩
      · exact .inr ⟨source, List.mem_cons_of_mem _ inRest, from_⟩

end Documents

/-! ## The same excerpts -/

def Candidate.excerpt {R : Type} (row : Candidate R) : Excerpt :=
  ⟨row.chunk.position, row.chunk.heading, row.chunk.content, row.chunk.tokenCount, row.chunk.metadataJson,
    row.title, row.sourceUri⟩

def IndexedChunk.excerpt {V : Type} (item : IndexedChunk V) : Excerpt :=
  Retrieval.excerpt item.chunk (item.documentTitle, item.sourceUri)

/-- What a search shows of a result: its excerpt and its distance. -/
def RetrievedChunk.hit {R : Type} [LinearOrder R] [Zero R] (item : RetrievedChunk R) : Excerpt × R :=
  (excerpt item.toDocumentChunk (item.documentTitle, item.sourceUri), item.distance)

section Excerpts

variable {ε R : Type} {service : InMemoryRetrievalService ε (List R)} {pg : PgVectorRetrievalService}
  {w : RetrievalWorld ε R} {supplierCase : SupplierCase} {draw : Nat → UUID} {fuel : Nat}

theorem excerpts_of_rows {db : EvidenceDatabase R} {sourced : List Sourced} {vectors : List (List R)}
    (lengths : vectors.length = sourced.length)
    (found : ∀ item ∈ sourced, SourcedFrom db.documents.rows item) :
    ((PgVectorRetrievalService.records (sourced.map (·.1)) vectors).filterMap fun chunk =>
      (db.documents.find? chunk.documentId).map fun document =>
        (⟨chunk, document.title, document.sourceUri⟩ : Candidate R)).map Candidate.excerpt =
      sourced.map fun item => excerpt item.1 item.2 := by
  induction sourced generalizing vectors with
  | nil => rfl
  | cons item rest ih =>
    cases vectors with
    | nil => cases lengths
    | cons vector others =>
      obtain ⟨document, isDocument, same, source⟩ := found item List.mem_cons_self
      have joined : db.documents.find? item.1.documentId = some document :=
        Table.find?_eq_some.mpr ⟨isDocument, same⟩
      have later := ih (Nat.succ.inj lengths) fun item member => found item (List.mem_cons_of_mem _ member)
      rw [PgVectorRetrievalService.records, List.map_cons, List.zipWith_cons_cons, List.filterMap_cons]
      simp only [PgVectorRetrievalService.record, joined, Option.map_some, List.map_cons]
      rw [PgVectorRetrievalService.records] at later
      rw [later]
      congr 1
      simp [Candidate.excerpt, excerpt, source]

/-- The rows that a search in PostgreSQL chooses from have the excerpts of the index in memory. -/
theorem same_excerpts {chunks : List Sourced} (chunker : pg.chunker = service.chunker)
    (full : FullIndex pg w.db.toDatabase supplierCase.id (w.db.chunksOf supplierCase.id))
    (stored : w.db.documentsOf supplierCase.id = documentRecords draw supplierCase)
    (ended : service.caseChunks fuel supplierCase = some chunks) :
    (w.db.candidates supplierCase.id).map Candidate.excerpt =
      chunks.map fun item => excerpt item.1 item.2 := by
  obtain ⟨sourced, ended', excerpts, from_⟩ :=
    @chunkRecords_of_chunkDocuments _ _ _ _ _ draw _ chunker _ _ _ [] _ ended rfl
  have computed : CaseChunks pg w.db.toDatabase supplierCase.id (sourced.map (·.1)) :=
    ⟨fuel, by rw [stored]; exact ended'⟩
  obtain ⟨computedChunks, vectors, computed', lengths, rows⟩ := full
  rw [computed'.unique computed] at lengths rows
  rw [EvidenceDatabase.candidates, rows, ← excerpts]
  refine excerpts_of_rows (lengths.trans (List.length_map ..)) fun item member => ?_
  obtain ⟨row, isRow, source⟩ := (from_ item member).resolve_left List.not_mem_nil
  have ofCase : row ∈ w.db.documentsOf supplierCase.id := by
    rw [stored]
    exact isRow
  exact ⟨row, (mem_documentsOf.mp ofCase).1, source⟩

theorem indexed_map (chunks : List Sourced) (embed : List Char → List R) :
    InMemoryRetrievalService.indexed chunks ((chunks.map fun item => item.1.content).map embed) =
      chunks.map fun item => ⟨item.1, embed item.1.content, item.2.1, item.2.2⟩ := by
  induction chunks with
  | nil => rfl
  | cons item rest ih =>
    rw [List.map_cons, List.map_cons, List.map_cons, ← ih]
    rfl

/-- What the service in memory stores of a case. -/
theorem indexed_items {after : InMemoryRetrievalService ε (List R)} {embed : List Char → List R}
    {result : IndexResult}
    (embeds : ∀ texts, service.embeddings.embed texts = .ok (texts.map embed))
    (indexed : service.indexCase fuel supplierCase = some (.ok (result, after))) :
    ∃ chunks items, service.caseChunks fuel supplierCase = some chunks ∧
      after.chunks supplierCase.id = some items ∧ (∀ item ∈ items, item.embedding = embed item.chunk.content) ∧
      items.map IndexedChunk.excerpt = chunks.map fun item => excerpt item.1 item.2 := by
  obtain ⟨chunks, ended, stored⟩ := Option.map_eq_some_iff.mp indexed
  rw [embeds] at stored
  simp only [List.length_map, ne_eq, not_true_eq_false, if_false] at stored
  cases stored
  refine ⟨chunks, _, ended, Function.update_self .., ?_, ?_⟩
  · rw [indexed_map]
    intro item member
    obtain ⟨source, -, rfl⟩ := List.mem_map.mp member
    rfl
  · rw [indexed_map, List.map_map]
    rfl

/-- A case has the rows of its documents from its creation on. -/
theorem documentsOf_steps {w₀ w₁ : RetrievalWorld ε R}
    (created : ∃ stored, (Sql.create w₀.db.toDatabase draw supplierCase).2 = .ok stored)
    (creates : RetrievalWorld.step pg w₀ (.create draw supplierCase) = some w₁)
    (steps : Steps (RetrievalWorld.step pg) w₁ w) :
    w.db.documentsOf supplierCase.id = documentRecords draw supplierCase := by
  obtain ⟨stored, created⟩ := created
  cases creates
  have kept := RetrievalWorld.kept_steps steps
  cases inserted : w₀.db.toDatabase.insertCase draw supplierCase with
  | error e => simp [Sql.create, inserted] at created
  | ok db' =>
    have rows := insertCase_ok inserted
    have isNew : (Sql.create w₀.db.toDatabase draw supplierCase).1 = db' := by
      simp [Sql.create, inserted]
    have found : CaseExists db' supplierCase.id :=
      ⟨caseRecord supplierCase, by simp [rows.cases], rfl⟩
    have none : w₀.db.documentsOf supplierCase.id = [] := by
      rw [List.eq_nil_iff_forall_not_mem]
      intro document member
      obtain ⟨inRows, same⟩ := mem_documentsOf.mp member
      obtain ⟨row, isRow, ofCase⟩ := w₀.db.documents_case document inRows
      exact rows.fresh row isRow (ofCase.trans same)
    have here : db'.documentsOf supplierCase.id = documentRecords draw supplierCase := by
      rw [documentsOf_created rows, if_pos rfl, none, List.nil_append]
    rw [← here, ← isNew]
    exact kept.documents supplierCase.id (isNew ▸ found)

end Excerpts

/-! ## The same answers -/

section Searches

variable {ε R : Type} [LinearOrder R] [Zero R] [One R] [Sub R] [Mul R]

/-- The distance that the service in memory measures between vectors of one length. -/
def measured (sum : List R → R) (embedding query : List R) : R :=
  max 0 (1 - sum (embedding.zipWith (· * ·) query))

/-- The service in memory answers with the nearest of its excerpts. -/
theorem inMemory_nearest {service : InMemoryRetrievalService ε (List R)} {sum : List R → R}
    {query : List R} {caseId : UUID} {items : List (IndexedChunk (List R))} {embed : List Char → List R}
    (indexed : service.chunks caseId = some items)
    (embedded : ∀ item ∈ items, item.embedding = embed item.chunk.content)
    (dimensions : ∀ text, (embed text).length = query.length) (limit : Nat) :
    ∃ found, service.search sum (.ok [query]) caseId limit = .ok found ∧
      IsNearest Prod.snd limit (items.map fun item =>
        (item.excerpt, measured sum (embed item.excerpt.content) query)) (found.map (·.hit)) := by
  have read : ∀ item ∈ items, InMemoryRetrievalService.distance sum item.embedding query =
      some (measured sum (embed item.excerpt.content) query) := by
    intro item member
    have same : item.embedding.length = query.length := by rw [embedded item member, dimensions]
    rw [InMemoryRetrievalService.distance, if_neg (not_not.mpr same), embedded item member]
    rfl
  have scored : InMemoryRetrievalService.scored sum query items =
      some (items.map fun item => (measured sum (embed item.excerpt.content) query, item)) := by
    rw [InMemoryRetrievalService.scored]
    clear indexed embedded
    induction items with
    | nil => rfl
    | cons item rest ih =>
      rw [List.mapM_cons, read item List.mem_cons_self,
        ih fun item member => read item (List.mem_cons_of_mem _ member)]
      rfl
  have near := nearest_isNearest Prod.fst limit
    (items.map fun item => (measured sum (embed item.excerpt.content) query, item))
  have valid : ∀ pair ∈ nearest Prod.fst limit
      (items.map fun item => (measured sum (embed item.excerpt.content) query, item)),
      ∃ found, InMemoryRetrievalService.retrieved pair = some found := by
    intro pair member
    obtain ⟨item, -, rfl⟩ := List.mem_map.mp (near.subset member)
    exact ⟨_, dif_pos (le_max_left ..)⟩
  obtain ⟨found, all⟩ : ∃ found, (nearest Prod.fst limit (items.map fun item =>
      (measured sum (embed item.excerpt.content) query, item))).mapM InMemoryRetrievalService.retrieved =
      some found := ⟨_, mapM_eq_some_filterMap valid⟩
  refine ⟨found, ?_, ?_⟩
  · rw [InMemoryRetrievalService.search]
    simp only [queryVector, indexed, Option.getD_some, scored, all]
  · have hits := map_of_mapM (f := RetrievedChunk.hit)
      (g := fun pair : R × IndexedChunk (List R) => (pair.2.excerpt, pair.1)) all fun pair _ found isFound => by
        obtain ⟨distance, item⟩ := pair
        rw [InMemoryRetrievalService.retrieved] at isFound
        split at isFound
        · cases isFound
          rfl
        · cases isFound
    rw [hits]
    have mapped : IsNearest Prod.snd limit
        ((items.map fun item => (measured sum (embed item.excerpt.content) query, item)).map
          fun pair => (pair.2.excerpt, pair.1)) _ := near.map fun _ _ => rfl
    rw [List.map_map] at mapped
    exact mapped

/-- The service in PostgreSQL answers with the nearest of its excerpts, if the plan is exact. -/
theorem pgVector_nearest {pg : PgVectorRetrievalService} {w : RetrievalWorld ε R} {cosine : CosineDistance R}
    {plan : Plan R} {query : List R} {caseId : UUID} {embed : List Char → List R} {sum : List R → R}
    (reachable : w.Reachable pg) (exact_ : plan.Exact) (dimension : query.length = 1024)
    (embedded : ∀ row ∈ w.db.chunksOf caseId, row.embedding = embed row.content)
    (distances : ∀ row ∈ w.db.chunksOf caseId,
      cosine row.embedding query = WithTop.some (measured sum row.embedding query)) (limit : Nat) :
    ∃ found, PgVectorRetrievalService.search (ε := ε) cosine plan w.db (.ok [query]) caseId limit = .ok found ∧
      IsNearest Prod.snd limit ((w.db.candidates caseId).map fun row =>
        (row.excerpt, measured sum (embed row.excerpt.content) query)) (found.map (·.hit)) := by
  have indexed := RetrievalWorld.reachable_indexed reachable
  obtain ⟨-, joined⟩ := candidates_eq indexed caseId
  have near := (nearest_isNearest (fun row : Candidate R => cosine row.chunk.embedding query) limit
    (plan.visit (w.db.candidates caseId))).perm (exact_ _)
  have keys : ∀ row ∈ w.db.candidates caseId, cosine row.chunk.embedding query =
      WithTop.some (measured sum (embed row.excerpt.content) query) := by
    intro row member
    obtain ⟨inRows, -⟩ := joined row member
    rw [distances _ inRows, embedded _ inRows]
    rfl
  -- what the chunker has checked passes the schema again
  have read : ∀ row ∈ w.db.candidates caseId, ∃ item : RetrievedChunk R,
      PgVectorRetrievalService.retrieved (cosine row.chunk.embedding query) row = some item ∧
        item.hit = (row.excerpt, measured sum (embed row.excerpt.content) query) := by
    intro row member
    obtain ⟨inRows, -⟩ := joined row member
    obtain ⟨c, -, isRow⟩ := ((indexed.whole caseId).resolve_left (List.ne_nil_of_mem inRows)).row inRows
    have content := congrArg DocumentChunkRecord.content isRow
    have tokens := congrArg DocumentChunkRecord.tokenCount isRow
    have valid : row.chunk.content ≠ [] ∧ 1 ≤ row.chunk.tokenCount ∧
        0 ≤ measured sum (embed row.excerpt.content) query := by
      refine ⟨?_, ?_, le_max_left ..⟩
      · rw [content]
        exact c.content_ne_nil
      · rw [tokens]
        exact c.tokenCount_pos
    rw [keys row member]
    exact ⟨_, dif_pos valid, rfl⟩
  have visited : ∀ row ∈ nearest (fun row : Candidate R => cosine row.chunk.embedding query) limit
      (plan.visit (w.db.candidates caseId)), row ∈ w.db.candidates caseId := fun row member =>
    near.subset member
  obtain ⟨found, all⟩ : ∃ found, (nearest (fun row : Candidate R => cosine row.chunk.embedding query) limit
      (plan.visit (w.db.candidates caseId))).mapM (fun row =>
        PgVectorRetrievalService.retrieved (cosine row.chunk.embedding query) row) = some found := by
    refine ⟨_, mapM_eq_some_filterMap fun row member => ?_⟩
    obtain ⟨item, isItem, -⟩ := read row (visited row member)
    exact ⟨item, isItem⟩
  refine ⟨found, ?_, ?_⟩
  · rw [PgVectorRetrievalService.search]
    simp only [queryVector]
    rw [if_neg fun mismatch => mismatch.2 dimension, all]
  · have hits := map_of_mapM (f := RetrievedChunk.hit)
      (g := fun row : Candidate R => (row.excerpt, measured sum (embed row.excerpt.content) query)) all
      fun row member item isItem => by
        obtain ⟨other, isOther, hit⟩ := read row (visited row member)
        rw [isItem] at isOther
        cases isOther
        exact hit
    rw [hits]
    have mapped : IsNearest (fun hit : Excerpt × R => WithTop.some hit.2) limit
        ((w.db.candidates caseId).map fun row =>
          (row.excerpt, measured sum (embed row.excerpt.content) query)) _ :=
      near.map fun row member => (keys row member).symm
    exact mapped.of_comp fun _ _ => WithTop.coe_le_coe

/-- The two services chunk alike, and have the same vectors for the same texts. -/
structure Comparable (service : InMemoryRetrievalService ε (List R)) (pg : PgVectorRetrievalService)
    (embed : List Char → List R) : Prop where
  chunker : pg.chunker = service.chunker
  embeds : ∀ texts, service.embeddings.embed texts = .ok (texts.map embed)
  dimension : ∀ text, (embed text).length = 1024

/-- Two answers to a search over the same excerpts. -/
structure Alike (limit : Nat) (hits : List (Excerpt × R)) (found found' : List (RetrievedChunk R)) :
    Prop where
  nearest : IsNearest Prod.snd limit hits (found.map (·.hit))
  nearest' : IsNearest Prod.snd limit hits (found'.map (·.hit))
  distances : found.map (·.distance) = found'.map (·.distance)
  /-- Only excerpts at the same distance may change places. -/
  same : (hits.map Prod.snd).Nodup → found.map (·.hit) = found'.map (·.hit)

end Searches

/-! ### The sample in both services -/

def sampleEmbed (_ : List Char) : List Int :=
  RetrievalWorld.sampleVector

def inMemorySample : InMemoryRetrievalService Empty (List Int) where
  embeddings := ⟨"deterministic-hash", fun texts => .ok (texts.map sampleEmbed)⟩
  chunker := RetrievalWorld.sampleService.chunker
  chunks := fun _ => none

theorem sample_comparable : Comparable inMemorySample RetrievalWorld.sampleService sampleEmbed where
  chunker := rfl
  embeds _ := rfl
  dimension _ := by
    have dimension : RetrievalWorld.sampleVector.length = 1024 := by decide +kernel
    exact dimension

theorem sample_distance : unitCosine RetrievalWorld.sampleVector RetrievalWorld.sampleVector =
    WithTop.some (measured (List.foldl (· + ·) 0) RetrievalWorld.sampleVector
      RetrievalWorld.sampleVector) := by
  decide +kernel

/-- The identifiers of the documents. -/
def sampleDraw (position : Nat) : UUID :=
  ⟨BitVec.ofNat 128 (position + 2)⟩

theorem exists_returned {ε R : Type} {caseId : UUID} {calls : List (IndexCall ε R)}
    (passed : calls.any (RetrievalWorld.returnedCall caseId) = true) :
    ∃ result, .returned result ∈ calls ∧ result.caseId = caseId := by
  obtain ⟨call, member, returned⟩ := List.any_eq_true.mp passed
  unfold RetrievalWorld.returnedCall at returned
  split at returned
  next result => exact ⟨result, member, of_decide_eq_true returned⟩
  next => cases returned

end SupplierAssurance.Retrieval
