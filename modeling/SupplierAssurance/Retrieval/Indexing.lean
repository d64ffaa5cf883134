import SupplierAssurance.Lib.Transition
import SupplierAssurance.Retrieval.PgVector

/-! # The index in PostgreSQL over whole runs

Any number of `index_case` calls over one database, beside the writes of the case repository.  A
step is one statement, with the `COMMIT` that follows it, or one answer of `embed`, and a call that
stops for good is one that takes no further step.

The documents of a case are written with the case and never again.  So all calls for a case compute
the same chunks, and what they differ in is the vectors: the rows of a case are none, or the chunks
of all its documents with the vectors of one call.  A call that another one overtakes between its
`DELETE` and its `INSERT` finds its own primary keys in the table, and raises.
-/

namespace SupplierAssurance.Retrieval

open SupplierAssurance.Lib SupplierAssurance.Python SupplierAssurance.Sql

/-! ## The writes of the case repository -/

def CaseExists (db : Database) (caseId : UUID) : Prop :=
  ∃ row ∈ db.cases.rows, row.id = caseId

/-- The rows of the documents of a case are in the order of their positions. -/
def PositionsOrdered (db : Database) : Prop :=
  ∀ caseId, (db.documentsOf caseId).Pairwise fun document document' =>
    document.position < document'.position

/-- Cases stay, with their documents. -/
structure Kept (db db' : Database) : Prop where
  cases : ∀ caseId, CaseExists db caseId → CaseExists db' caseId
  documents : ∀ caseId, CaseExists db caseId → db'.documentsOf caseId = db.documentsOf caseId
  ordered : PositionsOrdered db → PositionsOrdered db'

section Kept

variable {db db' db'' : Database}

theorem Kept.refl (db : Database) : Kept db db :=
  ⟨fun _ found => found, fun _ _ => rfl, fun ordered => ordered⟩

theorem Kept.trans (first : Kept db db') (second : Kept db' db'') : Kept db db'' where
  cases caseId found := second.cases caseId (first.cases caseId found)
  documents caseId found :=
    (second.documents caseId (first.cases caseId found)).trans (first.documents caseId found)
  ordered sorted := second.ordered (first.ordered sorted)

theorem mem_documentsOf {document : DocumentRecord} {caseId : UUID} :
    document ∈ db.documentsOf caseId ↔ document ∈ db.documents.rows ∧ document.caseId = caseId := by
  simp [Database.documentsOf]

theorem Kept.document (kept : Kept db db') {document : DocumentRecord}
    (member : document ∈ db.documents.rows) : document ∈ db'.documents.rows := by
  have own : document ∈ db'.documentsOf document.caseId := by
    rw [kept.documents _ (db.documents_case document member)]
    exact mem_documentsOf.mpr ⟨member, rfl⟩
  exact (mem_documentsOf.mp own).1

theorem documentsOf_created {draw : Nat → UUID} {supplierCase : SupplierCase}
    (created : Sql.Created db db' draw supplierCase) (caseId : UUID) :
    db'.documentsOf caseId =
      db.documentsOf caseId ++ if caseId = supplierCase.id then documentRecords draw supplierCase else [] := by
  rw [Database.documentsOf, created.documents, List.filter_append, ← Database.documentsOf]
  congr 1
  by_cases own : caseId = supplierCase.id
  · rw [if_pos own, List.filter_eq_self]
    intro document member
    rw [decide_eq_true_eq, own]
    exact caseId_of_mem_documentRecords member
  · rw [if_neg own, List.filter_eq_nil_iff]
    intro document member
    rw [decide_eq_true_eq, caseId_of_mem_documentRecords member]
    exact Ne.symm own

theorem kept_create (db : Database) (draw : Nat → UUID) (supplierCase : SupplierCase) :
    Kept db (Sql.create db draw supplierCase).1 := by
  cases create_changes db draw supplierCase with
  | inl same =>
    rw [same]
    exact .refl db
  | inr created =>
    have other : ∀ caseId, CaseExists db caseId → caseId ≠ supplierCase.id := by
      intro caseId ⟨row, member, same⟩
      exact same ▸ created.fresh row member
    refine ⟨?_, ?_, ?_⟩
    · intro caseId ⟨row, member, same⟩
      exact ⟨row, created.cases ▸ List.mem_append_left _ member, same⟩
    · intro caseId found
      rw [documentsOf_created created, if_neg (other caseId found), List.append_nil]
    · intro ordered caseId
      rw [documentsOf_created created]
      split
      next own =>
        have none : db.documentsOf caseId = [] := by
          rw [List.eq_nil_iff_forall_not_mem]
          intro document member
          obtain ⟨inRows, same⟩ := mem_documentsOf.mp member
          exact other caseId (same ▸ db.documents_case document inRows) own
        rw [none, List.nil_append]
        exact documentRecords_increasing draw supplierCase
      next =>
        rw [List.append_nil]
        exact ordered caseId

theorem kept_setStatus (order : Sql.RowOrder) (db : Database) (now : Datetime) (caseId : UUID)
    (status : CaseStatus) : Kept db (Sql.setStatus order db now caseId status).1 := by
  cases setStatus_changes order db now caseId status with
  | inl same =>
    rw [same]
    exact .refl db
  | inr updated =>
    rw [updated]
    refine ⟨fun _ found => ?_, fun _ _ => rfl, fun ordered => ordered⟩
    exact @Table.exists_pk_updateWhere _ _ _ _ _ db.cases (fun row => row.id = caseId)
      (fun row => { row with status := status.value, updatedAt := now }) (fun _ => ⟨rfl, rfl⟩) _ found

theorem kept_saveReview (order : Sql.RowOrder) (db : Database) (result : ReviewResult) :
    Kept db (Sql.saveReview order db result).1 := by
  cases saveReview_changes order db result with
  | inl same =>
    rw [same]
    exact .refl db
  | inr saved =>
    have documents : ∀ caseId,
        (Sql.saveReview order db result).1.documentsOf caseId = db.documentsOf caseId := by
      intro caseId
      rw [Database.documentsOf, saved.documents]
      rfl
    refine ⟨?_, fun caseId _ => documents caseId, ?_⟩
    · intro caseId found
      rw [CaseExists, saved.cases]
      exact found
    · intro ordered caseId
      rw [documents caseId]
      exact ordered caseId

end Kept

/-- A write of the case repository beside the chunks. -/
def EvidenceDatabase.written {R : Type} (db : EvidenceDatabase R) (db' : Database)
    (kept : Kept db.toDatabase db') : EvidenceDatabase R where
  toDatabase := db'
  chunks := db.chunks
  revisions := db.revisions
  chunks_document chunk member := by
    obtain ⟨document, isDocument, same⟩ := db.chunks_document chunk member
    exact ⟨document, kept.document isDocument, same⟩
  chunks_case chunk member := kept.cases _ (db.chunks_case chunk member)

/-! ## Runs -/

structure RetrievalWorld (ε R : Type) where
  db : EvidenceDatabase R
  calls : List (IndexCall ε R)

inductive RetrievalLabel (ε R : Type) where
  | create (draw : Nat → UUID) (supplierCase : SupplierCase)
  | setStatus (order : Sql.RowOrder) (now : Datetime) (caseId : UUID) (status : CaseStatus)
  | saveReview (order : Sql.RowOrder) (result : ReviewResult)
  /-- The endpoint has loaded the case and calls `index_case`. -/
  | index (caseId : UUID)
  | advance (index : Nat) (input : IndexInput ε R)

namespace RetrievalWorld

variable {ε R : Type}

def initial : RetrievalWorld ε R :=
  ⟨.empty, []⟩

def step (service : PgVectorRetrievalService) (w : RetrievalWorld ε R) :
    RetrievalLabel ε R → Option (RetrievalWorld ε R)
  | .create draw supplierCase =>
    some { w with db := w.db.written _ (kept_create w.db.toDatabase draw supplierCase) }
  | .setStatus order now caseId status =>
    some { w with db := w.db.written _ (kept_setStatus order w.db.toDatabase now caseId status) }
  | .saveReview order result =>
    some { w with db := w.db.written _ (kept_saveReview order w.db.toDatabase result) }
  | .index caseId =>
    match w.db.cases.find? caseId with
    | none => none
    | some _ => some { w with calls := w.calls ++ [.reading caseId] }
  | .advance index input =>
    match w.calls[index]? with
    | none => none
    | some call => (call.advance service w.db input).map fun (db, call) => ⟨db, w.calls.set index call⟩

def Reachable (service : PgVectorRetrievalService) (w : RetrievalWorld ε R) : Prop :=
  Steps (step service) initial w

end RetrievalWorld

/-! ## The chunks of a case -/

/-- What every chunk does to the list of chunks holds of the chunks of a text. -/
theorem StructuralChunker.chunk_rule {chunker : StructuralChunker} {fuel : Nat} {request : ChunkRequest}
    {markdown : List Char} {chunks : List DocumentChunk} {P : List DocumentChunk → Prop}
    (ended : chunker.chunk fuel request markdown = some chunks) (base : P [])
    (keep : ∀ outputs heading text, P outputs → P (appendChunk request heading outputs text)) : P chunks := by
  have sections_ : ∀ found outputs, P outputs →
      chunker.chunkSections fuel request outputs found = some chunks → P chunks := by
    intro found
    induction found with
    | nil =>
      intro outputs holds ended
      cases ended
      exact holds
    | cons first rest ih =>
      intro outputs holds ended
      obtain ⟨parts, -, others⟩ := Option.bind_eq_some_iff.mp ended
      refine ih _ ?_ others
      exact List.foldlRecOn parts _ holds fun outputs sofar text _ => keep outputs first.heading text sofar
  exact sections_ (sections markdown) [] base ended

theorem StructuralChunker.chunk_identified {chunker : StructuralChunker} {fuel : Nat}
    {request : ChunkRequest} {markdown : List Char} {chunks : List DocumentChunk}
    (ended : chunker.chunk fuel request markdown = some chunks) : Identified request chunks :=
  chunk_rule ended ⟨rfl, by simp, by simp⟩ fun _ heading text identified => identified.append heading text

theorem StructuralChunker.chunk_caseId {chunker : StructuralChunker} {fuel : Nat}
    {request : ChunkRequest} {markdown : List Char} {chunks : List DocumentChunk}
    (ended : chunker.chunk fuel request markdown = some chunks) :
    ∀ c ∈ chunks, c.caseId = request.caseId := by
  refine chunk_rule (P := fun chunks => ∀ c ∈ chunks, c.caseId = request.caseId) ended (by simp) ?_
  intro outputs heading text own
  rw [appendChunk]
  split
  · exact own
  · intro c member
    cases List.mem_append.mp member with
    | inl old => exact own c old
    | inr new => rw [List.mem_singleton.mp new]

section Chunks

variable {service : PgVectorRetrievalService} {ε R : Type} {caseId : UUID} {db db' : Database}
  {documents : List DocumentRecord} {chunks all all' : List DocumentChunk} {fuel fuel' more : Nat}

theorem chunkRecords_mono (ended : service.chunkRecords fuel caseId chunks documents = some all)
    (le : fuel ≤ more) : service.chunkRecords more caseId chunks documents = some all := by
  induction documents generalizing chunks with
  | nil => exact ended
  | cons document rest ih =>
    obtain ⟨found, first, others⟩ := Option.bind_eq_some_iff.mp ended
    exact Option.bind_eq_some_iff.mpr ⟨found, StructuralChunker.chunkSections_mono first le, ih others⟩

theorem chunkRecords_unique (ended : service.chunkRecords fuel caseId chunks documents = some all)
    (ended' : service.chunkRecords fuel' caseId chunks documents = some all') : all = all' := by
  have longer := chunkRecords_mono ended (Nat.le_max_left fuel fuel')
  have longer' := chunkRecords_mono ended' (Nat.le_max_right fuel fuel')
  exact Option.some.inj (longer.symm.trans longer')

/-- A chunk of the case, of one of these documents. -/
structure ChunkOf (caseId : UUID) (documents : List DocumentRecord) (c : DocumentChunk) : Prop where
  own : c.caseId = caseId
  source : ∃ document ∈ documents, document.id = c.documentId
  named : c.id = uuid5 NAMESPACE_URL (positionedName c.documentId c.position (String.ofList c.content))

theorem chunkRecords_from (ended : service.chunkRecords fuel caseId chunks documents = some all) :
    ∀ c ∈ all, c ∈ chunks ∨ ChunkOf caseId documents c := by
  induction documents generalizing chunks with
  | nil =>
    cases ended
    exact fun c member => .inl member
  | cons document rest ih =>
    obtain ⟨found, first, others⟩ := Option.bind_eq_some_iff.mp ended
    have identified := StructuralChunker.chunk_identified first
    intro c member
    rcases ih others c member with sofar | ⟨own, ⟨source, inRest, same⟩, named⟩
    · cases List.mem_append.mp sofar with
      | inl old => exact .inl old
      | inr new =>
        refine .inr ⟨StructuralChunker.chunk_caseId first c new, ?_, identified.named c new⟩
        exact ⟨document, List.mem_cons_self, (identified.document c new).symm⟩
    · exact .inr ⟨own, ⟨source, List.mem_cons_of_mem _ inRest, same⟩, named⟩

/-- What every call for the case computes. -/
def CaseChunks (service : PgVectorRetrievalService) (db : Database) (caseId : UUID)
    (chunks : List DocumentChunk) : Prop :=
  ∃ fuel, service.chunkRecords fuel caseId [] (db.documentsOf caseId) = some chunks

theorem CaseChunks.unique (computed : CaseChunks service db caseId all)
    (computed' : CaseChunks service db caseId all') : all = all' := by
  obtain ⟨fuel, ended⟩ := computed
  obtain ⟨fuel', ended'⟩ := computed'
  exact chunkRecords_unique ended ended'

theorem CaseChunks.chunkOf (computed : CaseChunks service db caseId chunks) :
    ∀ c ∈ chunks, ChunkOf caseId (db.documentsOf caseId) c := by
  obtain ⟨fuel, ended⟩ := computed
  intro c member
  exact (chunkRecords_from ended c member).resolve_left List.not_mem_nil

/-- The chunks of all documents of the case, with as many vectors. -/
def FullIndex (service : PgVectorRetrievalService) (db : Database) (caseId : UUID)
    (rows : List (DocumentChunkRecord R)) : Prop :=
  ∃ chunks vectors, CaseChunks service db caseId chunks ∧ vectors.length = chunks.length ∧
    rows = PgVectorRetrievalService.records chunks vectors

/-- A row without its vector. -/
def passage (row : DocumentChunkRecord R) : DocumentChunkRecord R :=
  { row with embedding := [] }

theorem records_passages {vectors : List (List R)} (lengths : vectors.length = chunks.length) :
    (PgVectorRetrievalService.records chunks vectors).map passage =
      chunks.map fun c => PgVectorRetrievalService.record c [] := by
  induction chunks generalizing vectors with
  | nil => rfl
  | cons c rest ih =>
    cases vectors with
    | nil => cases lengths
    | cons vector others =>
      rw [PgVectorRetrievalService.records, List.zipWith_cons_cons, List.map_cons, List.map_cons,
        ← PgVectorRetrievalService.records, ih (Nat.succ.inj lengths)]
      rfl

theorem FullIndex.passages {rows rows' : List (DocumentChunkRecord R)}
    (full : FullIndex service db caseId rows) (full' : FullIndex service db caseId rows') :
    rows.map passage = rows'.map passage := by
  obtain ⟨chunks, vectors, computed, lengths, rfl⟩ := full
  obtain ⟨chunks', vectors', computed', lengths', rfl⟩ := full'
  rw [records_passages lengths, records_passages lengths', computed.unique computed']

theorem FullIndex.row {rows : List (DocumentChunkRecord R)} {row : DocumentChunkRecord R}
    (full : FullIndex service db caseId rows) (member : row ∈ rows) :
    ∃ c, ChunkOf caseId (db.documentsOf caseId) c ∧ row = PgVectorRetrievalService.record c row.embedding := by
  obtain ⟨chunks, vectors, computed, -, rfl⟩ := full
  obtain ⟨index, bound, rfl⟩ := List.mem_iff_getElem.mp member
  simp only [PgVectorRetrievalService.records, List.getElem_zipWith]
  exact ⟨_, computed.chunkOf _ (List.getElem_mem _), rfl⟩

theorem FullIndex.length {rows : List (DocumentChunkRecord R)} (full : FullIndex service db caseId rows)
    (computed : CaseChunks service db caseId chunks) : rows.length = chunks.length := by
  obtain ⟨chunks', vectors, computed', lengths, rfl⟩ := full
  rw [computed.unique computed', PgVectorRetrievalService.records, List.length_zipWith, lengths, Nat.min_self]

theorem FullIndex.own {rows : List (DocumentChunkRecord R)} (full : FullIndex service db caseId rows) :
    ∀ row ∈ rows, row.caseId = caseId := by
  intro row member
  obtain ⟨c, from_, isRow⟩ := full.row member
  rw [isRow]
  exact from_.own

theorem CaseChunks.kept (computed : CaseChunks service db caseId chunks)
    (same : db'.documentsOf caseId = db.documentsOf caseId) : CaseChunks service db' caseId chunks := by
  obtain ⟨fuel, ended⟩ := computed
  exact ⟨fuel, same ▸ ended⟩

theorem FullIndex.kept {rows : List (DocumentChunkRecord R)} (full : FullIndex service db caseId rows)
    (same : db'.documentsOf caseId = db.documentsOf caseId) : FullIndex service db' caseId rows := by
  obtain ⟨chunks, vectors, computed, rest⟩ := full
  exact ⟨chunks, vectors, computed.kept same, rest⟩

/-- The name that `uuid5` has made the identifier of a row from. -/
def rowName (row : DocumentChunkRecord R) : String :=
  positionedName row.documentId row.position (String.ofList row.content)

def rowPlace (row : DocumentChunkRecord R) : UUID × Nat :=
  (row.documentId, row.position)

theorem FullIndex.named {rows : List (DocumentChunkRecord R)} {row : DocumentChunkRecord R}
    (full : FullIndex service db caseId rows) (member : row ∈ rows) :
    row.id = uuid5 NAMESPACE_URL (rowName row) := by
  obtain ⟨c, from_, isRow⟩ := full.row member
  rw [isRow]
  exact from_.named

/-- No two chunks have the same place. -/
theorem chunkRecords_places
    (ended : service.chunkRecords fuel caseId chunks documents = some all)
    (apart : (documents.map (·.id)).Nodup)
    (sofar : (chunks.map fun c => (c.documentId, c.position)).Nodup)
    (fresh : ∀ c ∈ chunks, ∀ document ∈ documents, c.documentId ≠ document.id) :
    (all.map fun c => (c.documentId, c.position)).Nodup := by
  induction documents generalizing chunks with
  | nil =>
    cases ended
    exact sofar
  | cons document rest ih =>
    obtain ⟨found, first, others⟩ := Option.bind_eq_some_iff.mp ended
    have identified := StructuralChunker.chunk_identified first
    rw [List.map_cons, List.nodup_cons] at apart
    refine ih others apart.2 ?_ ?_
    · rw [List.map_append, List.nodup_append]
      refine ⟨sofar, ?_, ?_⟩
      · have numbers : (found.map (·.position)).Nodup := by
          rw [identified.positions]
          exact List.nodup_range
        exact List.Nodup.of_map Prod.snd (by rwa [List.map_map])
      · intro place old place' new same
        obtain ⟨c, isOld, rfl⟩ := List.mem_map.mp old
        obtain ⟨c', isNew, rfl⟩ := List.mem_map.mp new
        have documents := congrArg Prod.fst same
        rw [identified.document c' isNew] at documents
        exact fresh c isOld document List.mem_cons_self documents
    · intro c member other inRest
      cases List.mem_append.mp member with
      | inl old => exact fresh c old other (List.mem_cons_of_mem _ inRest)
      | inr new =>
        rw [identified.document c new]
        intro same
        exact apart.1 (List.mem_map.mpr ⟨other, inRest, same.symm⟩)

theorem FullIndex.places {rows : List (DocumentChunkRecord R)} (full : FullIndex service db caseId rows) :
    (rows.map rowPlace).Nodup := by
  obtain ⟨chunks, vectors, ⟨fuel, ended⟩, lengths, rfl⟩ := full
  have apart : ((db.documentsOf caseId).map (·.id)).Nodup :=
    db.documents.pkUnique.sublist (List.filter_sublist.map _)
  have places := chunkRecords_places ended apart List.nodup_nil (by simp)
  have same := congrArg (List.map rowPlace) (records_passages (R := R) lengths)
  rw [List.map_map, List.map_map] at same
  have forget : (rowPlace ∘ passage : DocumentChunkRecord R → UUID × Nat) = rowPlace := rfl
  rw [forget] at same
  rw [same]
  exact places

end Chunks

/-! ## One step -/

section Steps

variable {service : PgVectorRetrievalService} {ε R : Type} {caseId : UUID}
  {db db' : EvidenceDatabase R} {records : List (DocumentChunkRecord R)} {seen : Nat}

/-- A replacement that commits. -/
theorem replaceChunks_ok (replaced : db.replaceChunks caseId seen records = .ok db') :
    db'.toDatabase = db.toDatabase ∧
      db'.chunks.rows = (db.remaining caseId seen).rows ++ records ∧
      db'.revisions = Function.update db.revisions caseId (db.revisions caseId + 1) ∧
      (∀ row ∈ records, row.Fits) ∧
      ∀ row ∈ records, ∀ old ∈ (db.remaining caseId seen).rows, old.id ≠ row.id := by
  unfold EvidenceDatabase.replaceChunks at replaced
  split at replaced
  · cases replaced
  next rows =>
    split at replaced
    next =>
      cases replaced
      exact ⟨rfl, (insertAll_ok rows).1, rfl, insertAll_fits rows, (insertAll_ok rows).2⟩
    next => cases replaced

/-- The chunks of the case are those that its `DELETE` has seen, or another call has replaced them. -/
def SeenOrReplaced (service : PgVectorRetrievalService) (db : EvidenceDatabase R) (caseId : UUID)
    (seen : Nat) : Prop :=
  db.revisions caseId = seen ∨ FullIndex service db.toDatabase caseId (db.chunksOf caseId)

/-- A call that has been overtaken commits only where there is nothing to insert: its rows have the
    keys of those in the table. -/
theorem replaced_overtaken (replaced : db.replaceChunks caseId seen records = .ok db')
    (full : FullIndex service db.toDatabase caseId records)
    (seenOr : SeenOrReplaced service db caseId seen) (overtaken : db.revisions caseId ≠ seen) :
    records = [] ∧ db.chunksOf caseId = [] := by
  have same := (seenOr.resolve_left overtaken).passages full
  have none : records = [] := by
    apply List.eq_nil_iff_forall_not_mem.mpr
    intro row member
    have stored : passage row ∈ (db.chunksOf caseId).map passage := by
      rw [same]
      exact List.mem_map_of_mem member
    obtain ⟨old, isOld, samePassage⟩ := List.mem_map.mp stored
    have sameId : (passage old).id = (passage row).id := congrArg DocumentChunkRecord.id samePassage
    have there : old ∈ (db.remaining caseId seen).rows := by
      rw [EvidenceDatabase.remaining, if_neg overtaken]
      exact List.mem_of_mem_filter isOld
    exact (replaceChunks_ok replaced).2.2.2.2 row member old there sameId
  rw [none, List.map_nil, List.map_eq_nil_iff] at same
  exact ⟨none, same⟩

theorem replaced_rows (replaced : db.replaceChunks caseId seen records = .ok db')
    (full : FullIndex service db.toDatabase caseId records)
    (seenOr : SeenOrReplaced service db caseId seen) :
    db'.chunks.rows = (db.chunks.rows.filter fun chunk => !(chunk.caseId = caseId : Bool)) ++ records := by
  rw [(replaceChunks_ok replaced).2.1]
  by_cases current : db.revisions caseId = seen
  · rw [EvidenceDatabase.remaining, if_pos current]
    rfl
  · obtain ⟨-, none⟩ := replaced_overtaken replaced full seenOr current
    rw [EvidenceDatabase.chunksOf, List.filter_eq_nil_iff] at none
    have all : (db.chunks.rows.filter fun chunk => !(chunk.caseId = caseId : Bool)) = db.chunks.rows := by
      rw [List.filter_eq_self]
      intro chunk member
      simpa using none chunk member
    rw [EvidenceDatabase.remaining, if_neg current, all]

/-- The other cases keep their rows. -/
theorem chunksOf_replaced (replaced : db.replaceChunks caseId seen records = .ok db')
    (full : FullIndex service db.toDatabase caseId records)
    (seenOr : SeenOrReplaced service db caseId seen) (other : UUID) :
    db'.chunksOf other = if other = caseId then records else db.chunksOf other := by
  have own := full.own
  rw [EvidenceDatabase.chunksOf, replaced_rows replaced full seenOr, List.filter_append, List.filter_filter]
  split
  next same =>
    have gone : (db.chunks.rows.filter fun chunk =>
        decide (chunk.caseId = other) && !(chunk.caseId = caseId : Bool)) = [] := by
      rw [List.filter_eq_nil_iff]
      intro chunk _
      simp [same]
    rw [gone, List.nil_append, List.filter_eq_self]
    intro row member
    rw [decide_eq_true_eq, own row member, same]
  next differ =>
    have none : records.filter (fun row => decide (row.caseId = other)) = [] := by
      rw [List.filter_eq_nil_iff]
      intro row member
      rw [decide_eq_true_eq, own row member]
      exact Ne.symm differ
    rw [none, List.append_nil, EvidenceDatabase.chunksOf]
    apply List.filter_congr
    intro chunk _
    by_cases here : chunk.caseId = other
    · simp [here, differ]
    · simp [here]

/-- A call that has come to its end. -/
def IndexCall.Ended : IndexCall ε R → Prop
  | .returned _ | .raised _ => True
  | _ => False

/-- What one step of a call can do. -/
inductive IndexCall.Advances (service : PgVectorRetrievalService) (db : EvidenceDatabase R) :
    IndexCall ε R → EvidenceDatabase R → IndexCall ε R → Prop
  | read {caseId : UUID} {order : Sql.RowOrder} {fuel : Nat} {chunks : List DocumentChunk} :
      service.chunkRecords fuel caseId []
        (PgVectorRetrievalService.orderedDocuments order db.toDatabase caseId) = some chunks →
      Advances service db (.reading caseId) db (.embedding caseId
        (PgVectorRetrievalService.orderedDocuments order db.toDatabase caseId).length chunks)
  | embedded {caseId : UUID} {documentCount : Nat} {chunks : List DocumentChunk} {vectors : List (List R)} :
      vectors.length = chunks.length →
      Advances service db (.embedding caseId documentCount chunks) db
        (.replacing caseId documentCount (PgVectorRetrievalService.records chunks vectors))
  | deleted {caseId : UUID} {documentCount : Nat} {records : List (DocumentChunkRecord R)} :
      Advances service db (.replacing caseId documentCount records) db
        (.inserting caseId documentCount records (db.revisions caseId))
  | replaced {caseId : UUID} {documentCount : Nat} {records : List (DocumentChunkRecord R)} {seen : Nat}
      {db' : EvidenceDatabase R} : db.replaceChunks caseId seen records = .ok db' →
      Advances service db (.inserting caseId documentCount records seen) db'
        (.returned ⟨caseId, documentCount, records.length, service.embeddingsName⟩)
  | failed {call : IndexCall ε R} {e : IndexFailure ε} : ¬ call.Ended →
      Advances service db call db (.raised e)

theorem IndexCall.advance_cases {input : IndexInput ε R} {call call' : IndexCall ε R}
    (advanced : call.advance service db input = some (db', call')) : call.Advances service db db' call' := by
  cases call with
  | reading caseId =>
    obtain ⟨chunks, ended, same⟩ := Option.map_eq_some_iff.mp advanced
    cases same
    exact .read ended
  | embedding caseId documentCount chunks =>
    simp only [IndexCall.advance] at advanced
    split at advanced
    · cases advanced
      exact .failed id
    next vectors =>
      split at advanced
      · cases advanced
        exact .failed id
      next lengths =>
        cases advanced
        exact .embedded (not_not.mp lengths).symm
  | replacing caseId documentCount records =>
    simp only [IndexCall.advance] at advanced
    split at advanced
    · cases advanced
      exact .failed id
    · cases advanced
      exact .deleted
  | inserting caseId documentCount records seen =>
    simp only [IndexCall.advance] at advanced
    split at advanced
    · cases advanced
      exact .failed id
    · split at advanced
      · cases advanced
        exact .failed id
      next committed =>
        cases advanced
        exact .replaced committed
  | returned => cases advanced
  | raised => cases advanced

/-- The sort of the read makes the order of the rows irrelevant. -/
theorem orderedDocuments_eq {db : Database} (ordered : PositionsOrdered db) (order : Sql.RowOrder)
    (caseId : UUID) :
    PgVectorRetrievalService.orderedDocuments order db caseId = db.documentsOf caseId := by
  apply eq_of_perm_of_increasing _ _ (ordered caseId)
  · exact (List.perm_insertionSort ByPosition _).trans (order.documents_perm _)
  · exact List.pairwise_insertionSort ByPosition _

end Steps

namespace RetrievalWorld

variable {service : PgVectorRetrievalService} {ε R : Type} {w w' : RetrievalWorld ε R}
  {label : RetrievalLabel ε R}

inductive Moves (service : PgVectorRetrievalService) (w : RetrievalWorld ε R) :
    RetrievalWorld ε R → Prop
  | written {db' : Database} (kept : Kept w.db.toDatabase db') :
      Moves service w { w with db := w.db.written db' kept }
  | index {caseId : UUID} : CaseExists w.db.toDatabase caseId →
      Moves service w { w with calls := w.calls ++ [.reading caseId] }
  | advance {index : Nat} {call call' : IndexCall ε R} {db' : EvidenceDatabase R} :
      w.calls[index]? = some call → call.Advances service w.db db' call' →
      Moves service w ⟨db', w.calls.set index call'⟩

theorem step_advance {index : Nat} {input : IndexInput ε R}
    (moved : step service w (.advance index input) = some w') : ∃ call db' call',
      w.calls[index]? = some call ∧ call.Advances service w.db db' call' ∧
        w' = ⟨db', w.calls.set index call'⟩ := by
  simp only [step] at moved
  split at moved
  · cases moved
  next call at_ =>
    obtain ⟨⟨db', call'⟩, advanced, same⟩ := Option.map_eq_some_iff.mp moved
    exact ⟨call, db', call', at_, IndexCall.advance_cases advanced, same.symm⟩

theorem step_moves (moved : step service w label = some w') : Moves service w w' := by
  cases label with
  | create | setStatus | saveReview =>
    cases moved
    exact .written _
  | index caseId =>
    simp only [step] at moved
    split at moved
    · cases moved
    next row found =>
      cases moved
      exact .index ⟨row, Table.find?_eq_some.mp found⟩
  | advance index input =>
    obtain ⟨call, db', call', at_, advances, rfl⟩ := step_advance moved
    exact .advance at_ advances

/-! ## The invariant -/

/-- What a call has in its hands belongs to its case. -/
def CallOk (service : PgVectorRetrievalService) (db : EvidenceDatabase R) : IndexCall ε R → Prop
  | .reading caseId => CaseExists db.toDatabase caseId
  | .embedding caseId documentCount chunks => CaseExists db.toDatabase caseId ∧
    documentCount = (db.documentsOf caseId).length ∧ CaseChunks service db.toDatabase caseId chunks
  | .replacing caseId documentCount records => CaseExists db.toDatabase caseId ∧
    documentCount = (db.documentsOf caseId).length ∧ FullIndex service db.toDatabase caseId records
  | .inserting caseId documentCount records seen => CaseExists db.toDatabase caseId ∧
    documentCount = (db.documentsOf caseId).length ∧ FullIndex service db.toDatabase caseId records ∧
    SeenOrReplaced service db caseId seen
  | .returned result => CaseExists db.toDatabase result.caseId ∧
    result.documentCount = (db.documentsOf result.caseId).length ∧
    result.chunkCount = (db.chunksOf result.caseId).length ∧
    FullIndex service db.toDatabase result.caseId (db.chunksOf result.caseId)
  | .raised _ => True

structure Indexed (service : PgVectorRetrievalService) (w : RetrievalWorld ε R) : Prop where
  ordered : PositionsOrdered w.db.toDatabase
  whole : ∀ caseId, w.db.chunksOf caseId = [] ∨
    FullIndex service w.db.toDatabase caseId (w.db.chunksOf caseId)
  calls : ∀ call ∈ w.calls, CallOk service w.db call

/-- A write of the case repository leaves the calls as they are. -/
theorem CallOk.written {db : EvidenceDatabase R} {db' : Database} {call : IndexCall ε R}
    (ok : CallOk service db call) (kept : Kept db.toDatabase db') :
    CallOk service (db.written db' kept) call := by
  cases call with
  | reading caseId => exact kept.cases caseId ok
  | embedding caseId documentCount chunks =>
    obtain ⟨found, count, computed⟩ := ok
    have same := kept.documents caseId found
    exact ⟨kept.cases caseId found, same ▸ count, computed.kept same⟩
  | replacing caseId documentCount records =>
    obtain ⟨found, count, full⟩ := ok
    have same := kept.documents caseId found
    exact ⟨kept.cases caseId found, same ▸ count, full.kept same⟩
  | inserting caseId documentCount records seen =>
    obtain ⟨found, count, full, seenOr⟩ := ok
    have same := kept.documents caseId found
    refine ⟨kept.cases caseId found, same ▸ count, full.kept same, ?_⟩
    exact Or.imp_right (fun replaced => replaced.kept same) seenOr
  | returned result =>
    obtain ⟨found, count, chunkCount, full⟩ := ok
    have same := kept.documents result.caseId found
    exact ⟨kept.cases result.caseId found, same ▸ count, chunkCount, full.kept same⟩
  | raised => trivial

/-- A replacement leaves the other calls as they are: where they are about the same case, they have
    computed the same chunks. -/
theorem CallOk.replaced {db db' : EvidenceDatabase R} {caseId : UUID} {seen : Nat}
    {records : List (DocumentChunkRecord R)} {call : IndexCall ε R} (ok : CallOk service db call)
    (replaced : db.replaceChunks caseId seen records = .ok db')
    (full : FullIndex service db.toDatabase caseId records)
    (seenOr : SeenOrReplaced service db caseId seen) : CallOk service db' call := by
  obtain ⟨base, -, revisions, -⟩ := replaceChunks_ok replaced
  have rows := chunksOf_replaced replaced full seenOr
  cases call with
  | reading | embedding | replacing =>
    simp only [CallOk, base]
    exact ok
  | inserting other documentCount pending seenOther =>
    obtain ⟨found, count, fullOther, before⟩ := ok
    refine ⟨base ▸ found, by rw [base]; exact count, by rw [base]; exact fullOther, ?_⟩
    unfold SeenOrReplaced
    rw [rows other, base, revisions]
    by_cases same : other = caseId
    · rw [if_pos same, same]
      exact .inr full
    · rw [if_neg same, Function.update_of_ne same]
      exact before
  | returned result =>
    obtain ⟨found, count, chunkCount, before⟩ := ok
    refine ⟨base ▸ found, by rw [base]; exact count, ?_⟩
    rw [rows result.caseId, base]
    split
    next same =>
      rw [← same] at full
      have ⟨chunks, _, computed, _⟩ := full
      refine ⟨?_, full⟩
      rw [chunkCount, before.length computed, full.length computed]
    next => exact ⟨chunkCount, before⟩
  | raised => trivial

theorem Indexed.advance {index : Nat} {call call' : IndexCall ε R} {db' : EvidenceDatabase R}
    (indexed : w.Indexed service) (at_ : w.calls[index]? = some call)
    (advances : call.Advances service w.db db' call') :
    Indexed service ⟨db', w.calls.set index call'⟩ := by
  have ok := indexed.calls call (List.mem_of_getElem? at_)
  have keep : CallOk service w.db call' → db' = w.db →
      Indexed service ⟨db', w.calls.set index call'⟩ := by
    intro next same
    rw [same]
    refine ⟨indexed.ordered, indexed.whole, fun other member => ?_⟩
    rcases List.mem_or_eq_of_mem_set member with old | rfl
    · exact indexed.calls other old
    · exact next
  cases advances with
  | read ended =>
    rw [orderedDocuments_eq indexed.ordered] at ended
    exact keep ⟨ok, by rw [orderedDocuments_eq indexed.ordered], _, ended⟩ rfl
  | embedded lengths =>
    obtain ⟨found, count, computed⟩ := ok
    exact keep ⟨found, count, _, _, computed, lengths, rfl⟩ rfl
  | deleted =>
    obtain ⟨found, count, full⟩ := ok
    exact keep ⟨found, count, full, .inl rfl⟩ rfl
  | failed => exact keep trivial rfl
  | @replaced caseId documentCount records seen _ committed =>
    obtain ⟨found, count, full, seenOr⟩ := ok
    have base := (replaceChunks_ok committed).1
    have rows := chunksOf_replaced committed full seenOr
    refine ⟨base ▸ indexed.ordered, ?_, ?_⟩
    · intro other
      rw [rows other, base]
      split
      next same => exact .inr (same ▸ full)
      next => exact indexed.whole other
    · intro other member
      rcases List.mem_or_eq_of_mem_set member with old | rfl
      · exact (indexed.calls other old).replaced committed full seenOr
      · refine ⟨base ▸ found, by rw [base]; exact count, ?_⟩
        rw [rows caseId, if_pos rfl, base]
        exact ⟨rfl, full⟩

theorem indexed_step (indexed : w.Indexed service) (moved : step service w label = some w') :
    w'.Indexed service := by
  cases step_moves moved with
  | @written db' kept =>
    refine ⟨kept.ordered indexed.ordered, ?_, fun call member => (indexed.calls call member).written kept⟩
    intro caseId
    rcases indexed.whole caseId with none | full
    · exact .inl none
    · by_cases empty : w.db.chunksOf caseId = []
      · exact .inl empty
      · obtain ⟨chunk, member⟩ := List.exists_mem_of_ne_nil _ empty
        have found : CaseExists w.db.toDatabase caseId := by
          obtain ⟨inRows, same⟩ := List.mem_filter.mp member
          exact of_decide_eq_true same ▸ w.db.chunks_case chunk inRows
        exact .inr (full.kept (kept.documents caseId found))
  | index found =>
    refine ⟨indexed.ordered, indexed.whole, fun call member => ?_⟩
    cases List.mem_append.mp member with
    | inl old => exact indexed.calls call old
    | inr new =>
      rw [List.mem_singleton.mp new]
      exact found
  | advance at_ advances => exact indexed.advance at_ advances

theorem reachable_indexed (reachable : Reachable service w) : w.Indexed service := by
  refine reachable.invariant ?_ fun indexed _ moved => indexed_step indexed moved
  refine ⟨?_, fun _ => .inl rfl, by simp [initial]⟩
  intro caseId
  exact List.Pairwise.nil

/-! ## Over every run -/

/-- What readers of the index rely on. -/
structure IndexSafe (service : PgVectorRetrievalService) (w : RetrievalWorld ε R) : Prop where
  /-- A row belongs to the case of its document. -/
  owned : ∀ row ∈ w.db.chunks.rows, ∃ document ∈ w.db.documents.rows,
    document.id = row.documentId ∧ document.caseId = row.caseId
  /-- There is never a part of an index. -/
  whole : ∀ caseId, w.db.chunksOf caseId = [] ∨
    FullIndex service w.db.toDatabase caseId (w.db.chunksOf caseId)
  /-- From the first index of a case on, its rows change in their vectors only. -/
  lasting : ∀ w', Steps (step service) w w' → ∀ caseId, w.db.chunksOf caseId ≠ [] →
    (w'.db.chunksOf caseId).map passage = (w.db.chunksOf caseId).map passage
  /-- The result of a call describes the index, whatever has happened since. -/
  described : ∀ result, .returned result ∈ w.calls →
    result.documentCount = (w.db.documentsOf result.caseId).length ∧
      result.chunkCount = (w.db.chunksOf result.caseId).length ∧
      FullIndex service w.db.toDatabase result.caseId (w.db.chunksOf result.caseId)
  /-- A call that raises changes nothing. -/
  failing : ∀ index input w' e, step service w (.advance index input) = some w' →
    w'.calls[index]? = some (.raised e) → w'.db = w.db

theorem Indexed.owned (indexed : w.Indexed service) {row : DocumentChunkRecord R}
    (member : row ∈ w.db.chunks.rows) : ∃ document ∈ w.db.documents.rows,
      document.id = row.documentId ∧ document.caseId = row.caseId := by
  have own : row ∈ w.db.chunksOf row.caseId := List.mem_filter.mpr ⟨member, decide_eq_true rfl⟩
  rcases indexed.whole row.caseId with none | full
  · rw [none] at own
    cases own
  · obtain ⟨c, from_, isRow⟩ := full.row own
    obtain ⟨document, isDocument, same⟩ := from_.source
    obtain ⟨inRows, ofCase⟩ := mem_documentsOf.mp isDocument
    refine ⟨document, inRows, ?_, ofCase⟩
    rw [isRow]
    exact same

/-- One step keeps the passages of an indexed case. -/
theorem passages_step (indexed : w.Indexed service) (moved : step service w label = some w')
    {caseId : UUID} (there : w.db.chunksOf caseId ≠ []) :
    (w'.db.chunksOf caseId).map passage = (w.db.chunksOf caseId).map passage := by
  cases step_moves moved with
  | written => rfl
  | index => rfl
  | advance at_ advances =>
    have ok := indexed.calls _ (List.mem_of_getElem? at_)
    cases advances with
    | read | embedded | deleted | failed => rfl
    | replaced committed =>
      obtain ⟨-, -, full, seenOr⟩ := ok
      rw [chunksOf_replaced committed full seenOr]
      split
      next same =>
        subst same
        exact full.passages ((indexed.whole caseId).resolve_left there)
      next => rfl

theorem passages_steps (indexed : w.Indexed service) (steps : Steps (step service) w w') {caseId : UUID}
    (there : w.db.chunksOf caseId ≠ []) :
    (w'.db.chunksOf caseId).map passage = (w.db.chunksOf caseId).map passage := by
  have kept := steps.invariant
    (I := fun t => t.Indexed service ∧
      (t.db.chunksOf caseId).map passage = (w.db.chunksOf caseId).map passage)
    ⟨indexed, rfl⟩ ?_
  · exact kept.2
  · intro t label u ⟨holds, same⟩ _ moved
    have nonempty : t.db.chunksOf caseId ≠ [] := by
      intro none
      rw [none, List.map_nil] at same
      exact there (List.map_eq_nil_iff.mp same.symm)
    exact ⟨indexed_step holds moved, (passages_step holds moved nonempty).trans same⟩

theorem kept_steps (steps : Steps (step service) w w') : Kept w.db.toDatabase w'.db.toDatabase := by
  refine steps.invariant (I := fun t => Kept w.db.toDatabase t.db.toDatabase) (.refl _) ?_
  intro t label u sofar _ moved
  refine sofar.trans ?_
  cases step_moves moved with
  | written kept => exact kept
  | index => exact .refl _
  | advance _ advances =>
    cases advances with
    | read | embedded | deleted | failed => exact .refl _
    | replaced committed =>
      simp only [(replaceChunks_ok committed).1]
      exact .refl _

def sampleService : PgVectorRetrievalService :=
  ⟨"deterministic-hash", 1024, offlineService.chunker, rfl⟩

/-- The vector of the one token "a:b". -/
def sampleVector : List Int :=
  1 :: List.replicate 1023 0

def sampleInput : IndexInput Empty Int :=
  ⟨10, .insertion, .ok [sampleVector, sampleVector], false⟩

/-- Create and index the case, up to the last transaction. -/
def sampleTrace : List (RetrievalLabel Empty Int) :=
  [.create (fun position => ⟨BitVec.ofNat 128 (position + 2)⟩) repeatingCase, .index ⟨1⟩,
    .advance 0 sampleInput, .advance 0 sampleInput]

theorem reachable_of_run {trace : List (RetrievalLabel ε R)} {test : RetrievalWorld ε R → Bool}
    (replayed : ((run (step service) initial trace).map test) = some true) :
    ∃ w, Reachable service w ∧ test w = true := by
  obtain ⟨w, ran, passed⟩ := Option.map_eq_some_iff.mp replayed
  exact ⟨w, steps_of_run ran, passed⟩

/-- A call for the case that has returned. -/
def returnedCall (caseId : UUID) : IndexCall ε R → Bool
  | .returned result => result.caseId = caseId
  | _ => false

theorem returnedCall_eq_false (caseId : UUID) {call : IndexCall ε R} (runs : ¬ call.Ended) :
    returnedCall caseId call = false := by
  cases call with
  | returned => exact absurd trivial runs
  | reading | embedding | replacing | inserting | raised => rfl

/-- How many calls for the case have returned. -/
def returnedFor (w : RetrievalWorld ε R) (caseId : UUID) : Nat :=
  w.calls.countP (returnedCall caseId)

theorem countP_set_of_false {α : Type} {p : α → Bool} {items : List α} {index : Nat} {old : α}
    (at_ : items[index]? = some old) (notOld : p old = false) (new : α) :
    (items.set index new).countP p = items.countP p + if p new then 1 else 0 := by
  obtain ⟨bound, rfl⟩ := List.getElem?_eq_some_iff.mp at_
  simp [List.countP_set bound, notOld]

/-- Every replacement is the end of a call. -/
theorem reachable_revisions (reachable : Reachable service w) (caseId : UUID) :
    w.db.revisions caseId = w.returnedFor caseId := by
  refine reachable.invariant (I := fun t => t.db.revisions caseId = t.returnedFor caseId) rfl ?_
  intro t label u same _ moved
  cases step_moves moved with
  | written => exact same
  | index => simpa [returnedFor, returnedCall] using same
  | @advance index call call' db' at_ advances =>
    have runs : ¬ call.Ended := by
      cases advances with
      | failed runs => exact runs
      | read | embedded | deleted | replaced => exact id
    have count := countP_set_of_false at_ (returnedCall_eq_false caseId runs) call'
    rw [returnedFor, count, ← returnedFor, ← same]
    cases advances with
    | read | embedded | deleted | failed => rfl
    | @replaced other _ _ _ _ committed =>
      rw [(replaceChunks_ok committed).2.2.1]
      by_cases own : caseId = other
      · simp [own, returnedCall]
      · simp [Function.update_of_ne own, returnedCall, Ne.symm own]

/-- Where `uuid5` does not clash, the rows find their keys free. -/
theorem insertable {caseId : UUID} {records : List (DocumentChunkRecord R)} (indexed : w.Indexed service)
    (full : FullIndex service w.db.toDatabase caseId records)
    (injective : Set.InjOn (uuid5 NAMESPACE_URL)
      {name | (∃ row ∈ w.db.chunks.rows, name = rowName row) ∨ ∃ row ∈ records, name = rowName row}) :
    (records.map (·.id)).Nodup ∧ ∀ row ∈ records,
      ∀ old ∈ (w.db.chunks.deleteWhere fun chunk => chunk.caseId = caseId).rows, old.id ≠ row.id := by
  have sameName : ∀ row ∈ records, ∀ row' : DocumentChunkRecord R,
      row' ∈ w.db.chunks.rows ∨ row' ∈ records → row'.id = uuid5 NAMESPACE_URL (rowName row') →
      row'.id = row.id → rowPlace row' = rowPlace row := by
    intro row member row' somewhere named same
    rw [named, full.named member] at same
    have names := injective (somewhere.imp (fun old => ⟨row', old, rfl⟩) fun new => ⟨row', new, rfl⟩)
      (.inr ⟨row, member, rfl⟩) same
    obtain ⟨documents, positions, -⟩ := positionedName_inj names
    exact Prod.ext documents positions
  constructor
  · rw [List.Nodup, List.pairwise_map]
    refine (List.pairwise_map.mp full.places).imp_of_mem ?_
    intro row row' member member' differ same
    exact differ (sameName row' member' row (.inr member) (full.named member) same)
  · intro row member old isOld same
    -- an old row with this identifier would be about the same document, so about this case
    obtain ⟨inRows, kept⟩ := List.mem_filter.mp isOld
    have own : old ∈ w.db.chunksOf old.caseId := List.mem_filter.mpr ⟨inRows, decide_eq_true rfl⟩
    have named : old.id = uuid5 NAMESPACE_URL (rowName old) := by
      rcases indexed.whole old.caseId with none | fullOld
      · rw [none] at own
        cases own
      · exact fullOld.named own
    have documents := congrArg Prod.fst (sameName row member old (.inl inRows) named same)
    obtain ⟨document, isDocument, isSource, ofCase⟩ := indexed.owned inRows
    obtain ⟨c, from_, isRow⟩ := full.row member
    obtain ⟨document', isDocument', isSource'⟩ := from_.source
    obtain ⟨inDocuments, ofCase'⟩ := mem_documentsOf.mp isDocument'
    have sourceRow : document'.id = row.documentId := by
      rw [isRow]
      exact isSource'
    obtain rfl := Table.eq_of_pk isDocument inDocuments (isSource.trans (documents.trans sourceRow.symm))
    simp [← ofCase, ofCase'] at kept

theorem step_committed {index documentCount seen : Nat} {caseId : UUID}
    {records : List (DocumentChunkRecord R)} {db' : EvidenceDatabase R} {input : IndexInput ε R}
    (at_ : w.calls[index]? = some (.inserting caseId documentCount records seen))
    (alive : input.deadlocked = false) (committed : w.db.replaceChunks caseId seen records = .ok db') :
    step service w (.advance index input) = some ⟨db', w.calls.set index
      (.returned ⟨caseId, documentCount, records.length, service.embeddingsName⟩)⟩ := by
  simp only [step, at_, IndexCall.advance, alive, committed]
  rfl

theorem committed_of_returned {index documentCount seen : Nat} {caseId : UUID}
    {records : List (DocumentChunkRecord R)} {input : IndexInput ε R} {result : IndexResult}
    (at_ : w.calls[index]? = some (.inserting caseId documentCount records seen))
    (moved : step service w (.advance index input) = some w')
    (returned : w'.calls[index]? = some (.returned result)) :
    input.deadlocked = false ∧ ∃ db', w.db.replaceChunks caseId seen records = .ok db' := by
  have bound := (List.getElem?_eq_some_iff.mp at_).1
  simp only [step, at_, IndexCall.advance] at moved
  split at moved
  · cases moved
    rw [List.getElem?_set_self bound] at returned
    cases returned
  next alive =>
    split at moved
    · cases moved
      rw [List.getElem?_set_self bound] at returned
      cases returned
    next db' committed =>
      exact ⟨Bool.eq_false_of_not_eq_true alive, db', committed⟩

theorem exists_replaced {documentCount seen : Nat} {caseId : UUID} {records : List (DocumentChunkRecord R)}
    (indexed : w.Indexed service)
    (ok : CallOk (ε := ε) service w.db (.inserting caseId documentCount records seen))
    (injective : Set.InjOn (uuid5 NAMESPACE_URL)
      {name | (∃ row ∈ w.db.chunks.rows, name = rowName row) ∨ ∃ row ∈ records, name = rowName row})
    (fits : ∀ row ∈ records, row.Fits) (free : records = [] ∨ w.db.revisions caseId = seen) :
    ∃ db', w.db.replaceChunks caseId seen records = .ok db' := by
  obtain ⟨found, -, full, -⟩ := ok
  obtain ⟨distinct, unused⟩ := insertable indexed full injective
  have unmet : ∀ row ∈ records, ∀ old ∈ (w.db.remaining caseId seen).rows, old.id ≠ row.id := by
    rcases free with rfl | current
    · simp
    · rw [EvidenceDatabase.remaining, if_pos current]
      exact unused
  obtain ⟨chunks, inserted⟩ := insertAll_isOk _ fits distinct unmet
  have parents : ∀ row ∈ records,
      (∃ document ∈ w.db.documents.rows, document.id = row.documentId) ∧
        ∃ case_ ∈ w.db.cases.rows, case_.id = row.caseId := by
    intro row member
    obtain ⟨c, from_, isRow⟩ := full.row member
    obtain ⟨document, isDocument, same⟩ := from_.source
    rw [full.own row member, isRow]
    exact ⟨⟨document, (mem_documentsOf.mp isDocument).1, same⟩, found⟩
  unfold EvidenceDatabase.replaceChunks
  split
  next refused =>
    rw [inserted] at refused
    cases refused
  next => exact ⟨_, dif_pos parents⟩

/-- The rows that the first call is about to write. -/
def pending (w : RetrievalWorld ε R) : Option (UUID × Nat × List (DocumentChunkRecord R)) :=
  match (w.calls[0]? : Option (IndexCall ε R)) with
  | some (.replacing caseId documentCount records) => some (caseId, documentCount, records)
  | _ => none

theorem of_pending {caseId : UUID} {documentCount : Nat} {records : List (DocumentChunkRecord R)}
    (found : w.pending = some (caseId, documentCount, records)) :
    w.calls[0]? = some (.replacing caseId documentCount records) := by
  unfold pending at found
  split at found
  next at_ =>
    cases found
    exact at_
  next => cases found

end RetrievalWorld

end SupplierAssurance.Retrieval
