import Mathlib.Data.Set.Function
import SupplierAssurance.Lib.Split
import SupplierAssurance.Schemas
import SupplierAssurance.Retrieval.Coverage

/-! # `packages/retrieval/service.py`: the in-memory index

`index_case` numbers the documents of a case, derives an identifier for each of them from the
case, the number and the title, and has the chunker derive one for each chunk from the document,
the position and the content.  The index is replaced as a whole once every chunk has its vector.

Both identifiers are `uuid5` of a text of three parts, of which only the last is free: the text
determines the parts, so identifiers clash no earlier than `uuid5` does on the names it is given.
-/

namespace SupplierAssurance.Retrieval

open SupplierAssurance.Lib SupplierAssurance.Python

/-- `IndexResult`. -/
structure IndexResult where
  caseId : UUID
  documentCount : Nat
  chunkCount : Nat
  embeddingBackend : String

/-- `EmbeddingProvider`: `embed` returns vectors of type `V` or raises an `ε`. -/
structure EmbeddingProvider (ε V : Type) where
  name : String
  embed : List (List Char) → Except ε (List V)

/-- `_IndexedChunk`. -/
structure IndexedChunk (V : Type) where
  chunk : DocumentChunk
  embedding : V
  documentTitle : String
  sourceUri : Option String

/-- `InMemoryRetrievalService`, with the fields that `__init__` sets. -/
structure InMemoryRetrievalService (ε V : Type) where
  embeddings : EmbeddingProvider ε V
  chunker : StructuralChunker
  chunks : UUID → Option (List (IndexedChunk V))

/-- What `index_case` raises. -/
inductive IndexError (ε : Type) where
  | embedding (raised : ε)
  /-- The `ValueError` of `zip(..., strict=True)`. -/
  | lengths

/-- `f"{key}:{position}:{text}"`. -/
def positionedName (key : UUID) (position : Nat) (text : String) : String :=
  key.str ++ ":" ++ toString position ++ ":" ++ text

/-- `document_id` of the document at `position`. -/
def documentId (supplierCase : SupplierCase) (position : Nat) (document : DocumentInput) : UUID :=
  uuid5 NAMESPACE_URL (positionedName supplierCase.id position document.title)

/-- A chunk with the title and the address of its document. -/
abbrev Sourced := DocumentChunk × String × Option String

namespace InMemoryRetrievalService

variable {ε V : Type} (service : InMemoryRetrievalService ε V)

/-- The arguments of `chunk` for the document at `position`. -/
def request (supplierCase : SupplierCase) (position : Nat) (document : DocumentInput) : ChunkRequest where
  caseId := supplierCase.id
  documentId := documentId supplierCase position document
  metadata := some [("document_position", .int position)]

/-- The loop over the documents from `position` on, each `while` loop in it with at most `fuel`
    iterations. -/
def chunkDocuments (fuel : Nat) (supplierCase : SupplierCase) :
    Nat → List Sourced → List DocumentInput → Option (List Sourced)
  | _, chunks, [] => some chunks
  | position, chunks, document :: rest =>
    (service.chunker.chunk fuel (request supplierCase position document) document.content.toList).bind
      fun documentChunks =>
        chunkDocuments fuel supplierCase (position + 1)
          (chunks ++ documentChunks.map fun chunk => (chunk, document.title, document.sourceUri)) rest

/-- `chunks` of `index_case`. -/
def caseChunks (fuel : Nat) (supplierCase : SupplierCase) : Option (List Sourced) :=
  service.chunkDocuments fuel supplierCase 0 [] supplierCase.documents

/-- `zip(chunks, vectors)`. -/
def indexed (chunks : List Sourced) (vectors : List V) : List (IndexedChunk V) :=
  (chunks.zip vectors).map fun ((chunk, title, sourceUri), vector) => ⟨chunk, vector, title, sourceUri⟩

/-- `index_case`; `none` when a `while` loop needs more than `fuel` iterations. -/
def indexCase (fuel : Nat) (supplierCase : SupplierCase) :
    Option (Except (IndexError ε) (IndexResult × InMemoryRetrievalService ε V)) :=
  (service.caseChunks fuel supplierCase).map fun chunks =>
    match service.embeddings.embed (chunks.map fun item => item.1.content) with
    | .error raised => .error (.embedding raised)
    | .ok vectors =>
      if chunks.length ≠ vectors.length then .error .lengths
      else
        .ok ({
          caseId := supplierCase.id
          documentCount := supplierCase.documents.length
          chunkCount := chunks.length
          embeddingBackend := service.embeddings.name
        }, { service with
          chunks := Function.update service.chunks supplierCase.id (some (indexed chunks vectors)) })

end InMemoryRetrievalService

/-! ## Names -/

/-- A name determines its parts: the key has a fixed length, and a number has no colon. -/
theorem positionedName_inj {key key' : UUID} {position position' : Nat} {text text' : String}
    (same : positionedName key position text = positionedName key' position' text') :
    key = key' ∧ position = position' ∧ text = text' := by
  have chars := congrArg String.toList same
  simp only [positionedName, String.toList_append, UUID.str, String.toList_ofList, toString,
    Nat.toList_repr, List.append_assoc] at chars
  obtain ⟨keys, rest⟩ := List.append_inj chars (by simp)
  obtain ⟨digits, texts⟩ := append_cons_inj (notMem_toDigits (by decide) position)
    (notMem_toDigits (by decide) position') (List.cons.inj rest).2
  refine ⟨UUID.strChars_injective keys, ?_, String.toList_inj.mp texts⟩
  calc
    position = Nat.ofDigitChars 10 (Nat.toDigits 10 position) 0 := Nat.ofDigitChars_ten_toDigits.symm
    _ = Nat.ofDigitChars 10 (Nat.toDigits 10 position') 0 := by rw [digits]
    _ = position' := Nat.ofDigitChars_ten_toDigits

/-- The names that `uuid5` is given while a case with these chunks is indexed. -/
def hashedNames (supplierCase : SupplierCase) (chunks : List Sourced) : List String :=
  (supplierCase.documents.mapIdx fun position document =>
      positionedName supplierCase.id position document.title) ++
    chunks.map fun item =>
      positionedName item.1.documentId item.1.position (String.ofList item.1.content)

/-! ## The chunks of one document -/

/-- Chunks are numbered, and named after their document. -/
structure Identified (request : ChunkRequest) (chunks : List DocumentChunk) : Prop where
  positions : chunks.map (·.position) = List.range chunks.length
  document : ∀ c ∈ chunks, c.documentId = request.documentId
  named : ∀ c ∈ chunks,
    c.id = uuid5 NAMESPACE_URL (positionedName c.documentId c.position (String.ofList c.content))

theorem Identified.append {request : ChunkRequest} {outputs : List DocumentChunk}
    (identified : Identified request outputs) (heading : Option (List Char)) (text : List Char) :
    Identified request (appendChunk request heading outputs text) := by
  by_cases empty : strip text = []
  · have kept : appendChunk request heading outputs text = outputs := dif_pos empty
    rw [kept]
    exact identified
  · obtain ⟨c, appended, position, document, named⟩ :
        ∃ c, appendChunk request heading outputs text = outputs ++ [c] ∧
          c.position = outputs.length ∧ c.documentId = request.documentId ∧
          c.id = uuid5 NAMESPACE_URL
            (positionedName c.documentId c.position (String.ofList c.content)) :=
      ⟨_, dif_neg empty, rfl, rfl, rfl⟩
    rw [appended]
    refine ⟨?_, ?_, ?_⟩
    · simp [identified.positions, position, List.range_succ]
    · intro d member
      cases List.mem_append.mp member with
      | inl old => exact identified.document d old
      | inr new => rw [List.mem_singleton.mp new, document]
    · intro d member
      cases List.mem_append.mp member with
      | inl old => exact identified.named d old
      | inr new => rw [List.mem_singleton.mp new, named]

namespace StructuralChunker

variable {chunker : StructuralChunker}

theorem exists_chunkSections (room : chunker.overlapChars + 2 < chunker.maxChars) (request : ChunkRequest)
    (found : List Section) {outputs : List DocumentChunk} (identified : Identified request outputs) :
    ∃ fuel chunks, chunker.chunkSections fuel request outputs found = some chunks ∧
      Identified request chunks := by
  induction found generalizing outputs with
  | nil => exact ⟨0, outputs, rfl, identified⟩
  | cons first rest ih =>
    obtain ⟨fuel, parts, -, bounded, -, -, -⟩ := boundedParts_decomposes room first.text
    have appended : Identified request (parts.foldl (appendChunk request first.heading) outputs) :=
      List.foldlRecOn parts _ identified fun _ sofar text _ => sofar.append first.heading text
    obtain ⟨more, chunks, others, all⟩ := ih appended
    exact ⟨max fuel more, chunks, Option.bind_eq_some_iff.mpr ⟨parts,
      boundedParts_mono bounded (by omega), chunkSections_mono others (by omega)⟩, all⟩

theorem exists_chunk (room : chunker.overlapChars + 2 < chunker.maxChars) (request : ChunkRequest)
    (markdown : List Char) :
    ∃ fuel chunks, chunker.chunk fuel request markdown = some chunks ∧ Identified request chunks :=
  exists_chunkSections room request (sections markdown) ⟨rfl, by simp, by simp⟩

end StructuralChunker

/-! ## The chunks of a case -/

/-- Every chunk of the first `count` documents comes from one of them, and is named after it. -/
def Located (supplierCase : SupplierCase) (count : Nat) (chunks : List Sourced) : Prop :=
  ∀ item ∈ chunks, ∃ position document, position < count ∧
    supplierCase.documents[position]? = some document ∧
    item.1.documentId = documentId supplierCase position document ∧
    item.1.id = uuid5 NAMESPACE_URL
      (positionedName item.1.documentId item.1.position (String.ofList item.1.content))

/-- No two documents of the case have the same identifier. -/
def DocumentsApart (supplierCase : SupplierCase) : Prop :=
  ∀ position position' document document',
    supplierCase.documents[position]? = some document →
    supplierCase.documents[position']? = some document' →
    documentId supplierCase position document = documentId supplierCase position' document' →
    position = position'

/-- The place of a chunk: its document and its number in it. -/
def place (item : Sourced) : UUID × Nat :=
  (item.1.documentId, item.1.position)

section Indexing

variable {ε V : Type} {service : InMemoryRetrievalService ε V} {supplierCase : SupplierCase}
  {chunks : List Sourced}

/-- The chunks of one more document. -/
theorem Located.append {document : DocumentInput} {position : Nat} {more : List DocumentChunk}
    (located : Located supplierCase position chunks)
    (here : supplierCase.documents[position]? = some document)
    (identified : Identified (InMemoryRetrievalService.request supplierCase position document) more) :
    Located supplierCase (position + 1)
      (chunks ++ more.map fun chunk => (chunk, document.title, document.sourceUri)) := by
  intro item member
  cases List.mem_append.mp member with
  | inl old =>
    obtain ⟨before, source, below, found, named⟩ := located item old
    exact ⟨before, source, by omega, found, named⟩
  | inr new =>
    obtain ⟨c, inMore, rfl⟩ := List.mem_map.mp new
    exact ⟨position, document, by omega, here, identified.document c inMore, identified.named c inMore⟩

theorem places_append {document : DocumentInput} {position : Nat} {more : List DocumentChunk}
    (apart : DocumentsApart supplierCase) (located : Located supplierCase position chunks)
    (distinct : (chunks.map place).Nodup)
    (here : supplierCase.documents[position]? = some document)
    (identified : Identified (InMemoryRetrievalService.request supplierCase position document) more) :
    ((chunks ++ more.map fun chunk => (chunk, document.title, document.sourceUri)).map place).Nodup := by
  rw [List.map_append, List.nodup_append]
  refine ⟨distinct, ?_, ?_⟩
  · have numbers : (more.map (·.position)).Nodup := by
      rw [identified.positions]
      exact List.nodup_range
    rw [List.map_map]
    exact List.Nodup.of_map Prod.snd (by rwa [List.map_map])
  · intro old inOld new inNew same
    obtain ⟨item, member, rfl⟩ := List.mem_map.mp inOld
    obtain ⟨_, inItems, rfl⟩ := List.mem_map.mp inNew
    obtain ⟨c, inMore, rfl⟩ := List.mem_map.mp inItems
    obtain ⟨before, source, below, found, isSource, -⟩ := located item member
    have documents : item.1.documentId = c.documentId := congrArg Prod.fst same
    rw [isSource, identified.document c inMore] at documents
    exact absurd (apart _ _ _ _ found here documents) (by omega)

theorem chunkDocuments_mono {fuel more : Nat} {rest : List DocumentInput} {position : Nat}
    {all : List Sourced}
    (ended : service.chunkDocuments fuel supplierCase position chunks rest = some all)
    (le : fuel ≤ more) : service.chunkDocuments more supplierCase position chunks rest = some all := by
  induction rest generalizing position chunks with
  | nil => exact ended
  | cons document rest ih =>
    obtain ⟨found, first, others⟩ := Option.bind_eq_some_iff.mp ended
    exact Option.bind_eq_some_iff.mpr ⟨found, StructuralChunker.chunkSections_mono first le, ih others⟩

theorem exists_chunkDocuments (room : service.chunker.overlapChars + 2 < service.chunker.maxChars)
    (rest : List DocumentInput) {position : Nat} (remaining : supplierCase.documents.drop position = rest)
    (located : Located supplierCase position chunks)
    (distinct : DocumentsApart supplierCase → (chunks.map place).Nodup) :
    ∃ fuel all, service.chunkDocuments fuel supplierCase position chunks rest = some all ∧
      Located supplierCase supplierCase.documents.length all ∧
      (DocumentsApart supplierCase → (all.map place).Nodup) := by
  induction rest generalizing position chunks with
  | nil =>
    refine ⟨0, chunks, rfl, ?_, distinct⟩
    intro item member
    obtain ⟨before, source, -, found, named⟩ := located item member
    exact ⟨before, source, (List.getElem?_eq_some_iff.mp found).1, found, named⟩
  | cons document rest ih =>
    have here : supplierCase.documents[position]? = some document := by
      rw [← List.head?_drop, remaining]
      rfl
    have behind : supplierCase.documents.drop (position + 1) = rest := by
      rw [← List.drop_drop, remaining]
      rfl
    obtain ⟨fuel, more, ended, identified⟩ := StructuralChunker.exists_chunk room
      (InMemoryRetrievalService.request supplierCase position document) document.content.toList
    obtain ⟨further, all, others, allLocated, allDistinct⟩ := ih behind (located.append here identified)
      fun apart => places_append apart located (distinct apart) here identified
    refine ⟨max fuel further, all, ?_, allLocated, allDistinct⟩
    exact Option.bind_eq_some_iff.mpr ⟨more, StructuralChunker.chunkSections_mono ended (by omega),
      chunkDocuments_mono others (by omega)⟩

theorem exists_caseChunks (room : service.chunker.overlapChars + 2 < service.chunker.maxChars)
    (supplierCase : SupplierCase) :
    ∃ fuel chunks, service.caseChunks fuel supplierCase = some chunks ∧
      Located supplierCase supplierCase.documents.length chunks ∧
      (DocumentsApart supplierCase → (chunks.map place).Nodup) :=
  exists_chunkDocuments room supplierCase.documents rfl (by simp [Located]) (by simp)

end Indexing

/-! ## Identifiers -/

/-- The chunks have different identifiers. -/
def IdsDistinct (chunks : List Sourced) : Prop :=
  (chunks.map fun item => item.1.id).Nodup

/-- The identifier of a chunk determines its document, its number in it and its content. -/
def IdsUnambiguous (chunks chunks' : List Sourced) : Prop :=
  ∀ item ∈ chunks, ∀ item' ∈ chunks', item.1.id = item'.1.id →
    item.1.documentId = item'.1.documentId ∧ item.1.position = item'.1.position ∧
      item.1.content = item'.1.content

section Ids

variable {supplierCase supplierCase' : SupplierCase} {chunks chunks' : List Sourced} {names : Set String}

theorem mem_hashedNames_document {position : Nat} {document : DocumentInput}
    (here : supplierCase.documents[position]? = some document) (chunks : List Sourced) :
    positionedName supplierCase.id position document.title ∈ hashedNames supplierCase chunks := by
  obtain ⟨bound, rfl⟩ := List.getElem?_eq_some_iff.mp here
  exact List.mem_append_left _ (List.mem_mapIdx.mpr ⟨position, bound, rfl⟩)

theorem mem_hashedNames_chunk {item : Sourced} (member : item ∈ chunks) :
    positionedName item.1.documentId item.1.position (String.ofList item.1.content) ∈
      hashedNames supplierCase chunks :=
  List.mem_append_right _ (List.mem_map_of_mem member)

theorem documentsApart (injective : Set.InjOn (uuid5 NAMESPACE_URL) names)
    (hashed : ∀ name ∈ hashedNames supplierCase chunks, name ∈ names) : DocumentsApart supplierCase := by
  intro position position' document document' here here' same
  have sameNames := injective (hashed _ (mem_hashedNames_document here chunks))
    (hashed _ (mem_hashedNames_document here' chunks)) same
  exact (positionedName_inj sameNames).2.1

theorem idsUnambiguous (injective : Set.InjOn (uuid5 NAMESPACE_URL) names)
    (hashed : ∀ name ∈ hashedNames supplierCase chunks, name ∈ names)
    (hashed' : ∀ name ∈ hashedNames supplierCase' chunks', name ∈ names)
    (located : Located supplierCase supplierCase.documents.length chunks)
    (located' : Located supplierCase' supplierCase'.documents.length chunks') :
    IdsUnambiguous chunks chunks' := by
  intro item member item' member' same
  obtain ⟨-, -, -, -, -, named⟩ := located item member
  obtain ⟨-, -, -, -, -, named'⟩ := located' item' member'
  rw [named, named'] at same
  have sameNames := injective (hashed _ (mem_hashedNames_chunk member))
    (hashed' _ (mem_hashedNames_chunk member')) same
  obtain ⟨documents, positions, contents⟩ := positionedName_inj sameNames
  exact ⟨documents, positions, String.ofList_injective contents⟩

theorem idsDistinct (places : (chunks.map place).Nodup) (unambiguous : IdsUnambiguous chunks chunks) :
    IdsDistinct chunks := by
  rw [IdsDistinct, List.Nodup, List.pairwise_map]
  refine (List.pairwise_map.mp places).imp_of_mem ?_
  intro item item' member member' differ same
  obtain ⟨documents, positions, -⟩ := unambiguous item member item' member' same
  exact differ (Prod.ext documents positions)

end Ids

section Index

variable {ε V : Type} {service after : InMemoryRetrievalService ε V} {supplierCase : SupplierCase}

theorem caseChunks_unique {fuel fuel' : Nat} {chunks chunks' : List Sourced}
    (ended : service.caseChunks fuel supplierCase = some chunks)
    (ended' : service.caseChunks fuel' supplierCase = some chunks') : chunks = chunks' := by
  have longer := chunkDocuments_mono ended (Nat.le_max_left fuel fuel')
  have longer' := chunkDocuments_mono ended' (Nat.le_max_right fuel fuel')
  exact Option.some.inj (longer.symm.trans longer')

theorem map_chunk_indexed {chunks : List Sourced} {vectors : List V}
    (lengths : chunks.length = vectors.length) :
    (InMemoryRetrievalService.indexed chunks vectors).map (·.chunk) = chunks.map (·.1) := by
  have fronts : (chunks.zip vectors).map Prod.fst = chunks := List.map_fst_zip lengths.le
  rw [InMemoryRetrievalService.indexed, List.map_map]
  calc
    (chunks.zip vectors).map (fun pair => pair.1.1) = ((chunks.zip vectors).map Prod.fst).map (·.1) := by
      rw [List.map_map]; rfl
    _ = chunks.map (·.1) := by rw [fronts]

/-- The index of the case holds its chunks. -/
theorem indexCase_stores {fuel : Nat} {result : IndexResult}
    (returned : service.indexCase fuel supplierCase = some (.ok (result, after))) :
    ∃ chunks, service.caseChunks fuel supplierCase = some chunks ∧
      (after.chunks supplierCase.id).map (fun stored => stored.map (·.chunk)) =
        some (chunks.map (·.1)) := by
  obtain ⟨chunks, ended, stored⟩ := Option.map_eq_some_iff.mp returned
  refine ⟨chunks, ended, ?_⟩
  split at stored
  next => cases stored
  next vectors embedded =>
    split at stored
    next => cases stored
    next lengths =>
      cases stored
      simp [map_chunk_indexed (not_not.mp lengths)]

end Index

/-- Indexing reads the chunks of a case.  Where `uuid5` does not clash on the names that it is
    given for two cases, the identifiers of the chunks do not clash either, in one case or between
    the two. -/
theorem chunk_ids_unique {ε V : Type} (service service' : InMemoryRetrievalService ε V)
    (room : service.chunker.overlapChars + 2 < service.chunker.maxChars)
    (room' : service'.chunker.overlapChars + 2 < service'.chunker.maxChars)
    (supplierCase supplierCase' : SupplierCase) :
    ∃ fuel chunks chunks', service.caseChunks fuel supplierCase = some chunks ∧
      service'.caseChunks fuel supplierCase' = some chunks' ∧
      (∀ more result after, service.indexCase more supplierCase = some (.ok (result, after)) →
        (after.chunks supplierCase.id).map (fun stored => stored.map (·.chunk)) =
          some (chunks.map (·.1))) ∧
      (Set.InjOn (uuid5 NAMESPACE_URL)
          {name | name ∈ hashedNames supplierCase chunks ∨ name ∈ hashedNames supplierCase' chunks'} →
        IdsDistinct chunks ∧ IdsUnambiguous chunks chunks') := by
  obtain ⟨fuel, chunks, ended, located, distinct⟩ := exists_caseChunks room supplierCase
  obtain ⟨fuel', chunks', ended', located', -⟩ := exists_caseChunks room' supplierCase'
  refine ⟨max fuel fuel', chunks, chunks', chunkDocuments_mono ended (by omega),
    chunkDocuments_mono ended' (by omega), ?_, ?_⟩
  · intro more result after returned
    obtain ⟨again, endedAgain, stored⟩ := indexCase_stores returned
    rw [stored, caseChunks_unique endedAgain ended]
  · intro injective
    have own := idsUnambiguous injective (fun _ => .inl) (fun _ => .inl) located located
    exact ⟨idsDistinct (distinct (documentsApart injective fun _ => .inl)) own,
      idsUnambiguous injective (fun _ => .inl) (fun _ => .inr) located located'⟩

/-- An offline service with the default chunker. -/
def offlineService : InMemoryRetrievalService Empty Unit where
  embeddings := ⟨"deterministic-hash", fun texts => .ok (texts.map fun _ => ())⟩
  chunker := ⟨1600, 200, by decide, by decide⟩
  chunks := fun _ => none

def repeatedDocument : DocumentInput := ⟨"Policy: A", "a:b", none, by decide, by decide⟩

theorem repeating_bounded : Bounded 1 255 "tenant" := by decide

/-- Two documents with the same title and content. -/
def repeatingCase : SupplierCase where
  id := ⟨1⟩
  tenantId := "tenant"
  supplierName := "Supplier"
  description := ""
  status := .new
  documents := [repeatedDocument, repeatedDocument]
  createdAt := 0
  updatedAt := 0
  tenantId_bounded := repeating_bounded

/-- The names of its documents and of its chunks. -/
def repeatingNames : List String :=
  ["00000000-0000-0000-0000-000000000001:0:Policy: A", "00000000-0000-0000-0000-000000000001:1:Policy: A",
    "d1878e2c-4ee6-50b3-adc2-53c37c3be4c1:0:a:b", "d4620a0b-bed7-53b9-8567-4310c8a0e62c:0:a:b"]

theorem chunk_ids_unique_repeated_document :
    ∃ fuel chunks, offlineService.caseChunks fuel repeatingCase = some chunks ∧ chunks.length = 2 ∧
      IdsDistinct chunks := by
  obtain ⟨fuel, chunks, chunks', ended, ended', -, unique⟩ := chunk_ids_unique offlineService
    offlineService (by decide) (by decide) repeatingCase repeatingCase
  obtain rfl := caseChunks_unique ended ended'
  have computed : (offlineService.caseChunks 10 repeatingCase).map
      (fun chunks => (hashedNames repeatingCase chunks, chunks.length)) = some (repeatingNames, 2) := by
    decide +kernel
  obtain ⟨again, endedAgain, found⟩ := Option.map_eq_some_iff.mp computed
  obtain rfl := caseChunks_unique ended endedAgain
  obtain ⟨names, two⟩ := Prod.mk.inj found
  have noClash : ∀ a ∈ repeatingNames, ∀ b ∈ repeatingNames,
      uuid5 NAMESPACE_URL a = uuid5 NAMESPACE_URL b → a = b := by
    decide +kernel
  refine ⟨fuel, chunks, ended, two, (unique ?_).1⟩
  intro a inNames b inNames' same
  rw [names] at inNames inNames'
  exact noClash a (inNames.elim id id) b (inNames'.elim id id) same

end SupplierAssurance.Retrieval
