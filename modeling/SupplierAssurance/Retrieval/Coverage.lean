import Mathlib.Data.List.Chain
import SupplierAssurance.Retrieval.Sections

/-! # Chunking loses nothing of the body

A part is what was carried over from the part before it, followed by what is new in it.  The
loops of `_bounded_parts` are followed with these two halves in view: `Carrying` says that the
new halves, with what is still to be read, hold the characters of the paragraphs, and every
carried half is a suffix of the part before it.
-/

namespace SupplierAssurance.Retrieval

open SupplierAssurance.Lib SupplierAssurance.Python

/-- Every part is a carried half, of at most `overlap` characters, and a new half.  The first
    part carries nothing, and each later one a suffix of the part before it. -/
structure Decomposes (overlap : Nat) (parts : List (List Char))
    (halves : List (List Char × List Char)) : Prop where
  parts : parts = halves.map fun p => p.1 ++ p.2
  first : ∀ p ∈ halves.head?, p.1 = []
  carried : halves.IsChain fun p q => q.1 <:+ p.1 ++ p.2
  short : ∀ p ∈ halves, p.1.length ≤ overlap

/-- The characters that the new halves bring. -/
def newText (halves : List (List Char × List Char)) : List Char :=
  nonSpace (halves.flatMap (·.2))

@[simp] theorem newText_append (front back : List (List Char × List Char)) :
    newText (front ++ back) = newText front ++ newText back := by
  simp [newText]

@[simp] theorem newText_singleton (carried new : List Char) : newText [(carried, new)] = nonSpace new := by
  simp [newText]

section Decomposes

variable {overlap : Nat} {parts : List (List Char)} {halves : List (List Char × List Char)}
  {carried new current : List Char}

theorem Decomposes.nil (overlap : Nat) : Decomposes overlap [[]] [([], [])] where
  parts := rfl
  first := by simp
  carried := .singleton _
  short := by simp

theorem Decomposes.last (decomposes : Decomposes overlap (parts ++ [current]) (halves ++ [(carried, new)])) :
    parts = halves.map (fun p => p.1 ++ p.2) ∧ current = carried ++ new := by
  have parts := decomposes.parts
  rw [List.map_append] at parts
  obtain ⟨before, last⟩ := List.append_inj' parts rfl
  exact ⟨before, List.singleton_inj.mp last⟩

/-- More new text in the last part. -/
theorem Decomposes.extend
    (decomposes : Decomposes overlap (parts ++ [current]) (halves ++ [(carried, new)]))
    (more : List Char) :
    Decomposes overlap (parts ++ [current ++ more]) (halves ++ [(carried, new ++ more)]) := by
  obtain ⟨before, last⟩ := decomposes.last
  refine ⟨?_, ?_, ?_, ?_⟩
  · simp [before, last]
  · have first := decomposes.first
    cases halves with
    | nil => simpa using first
    | cons half rest => exact first
  · obtain ⟨chain, -, joint⟩ := List.isChain_append.mp decomposes.carried
    refine List.isChain_append.mpr ⟨chain, .singleton _, ?_⟩
    intro p atEnd q isLast
    cases isLast
    exact joint p atEnd (carried, new) rfl
  · intro p member
    rcases List.mem_append.mp member with old | isLast
    · exact decomposes.short p (List.mem_append_left _ old)
    · rw [List.mem_singleton.mp isLast]
      exact decomposes.short (carried, new) (List.mem_append_right _ (List.mem_singleton.mpr rfl))

/-- A part that carries a suffix of the last one. -/
theorem Decomposes.flush
    (decomposes : Decomposes overlap (parts ++ [current]) (halves ++ [(carried, new)]))
    {again : List Char} (suffix : again <:+ current) (short : again.length ≤ overlap) :
    Decomposes overlap (parts ++ [current] ++ [again]) (halves ++ [(carried, new)] ++ [(again, [])]) := by
  obtain ⟨before, last⟩ := decomposes.last
  refine ⟨?_, ?_, ?_, ?_⟩
  · simp [before, last]
  · have first := decomposes.first
    cases halves with
    | nil => exact first
    | cons half rest => exact first
  · refine List.isChain_append.mpr ⟨decomposes.carried, .singleton _, ?_⟩
    intro p atEnd q isLast
    rw [List.getLast?_concat] at atEnd
    cases atEnd
    cases isLast
    rw [← last]
    exact suffix
  · intro p member
    rcases List.mem_append.mp member with old | isLast
    · exact decomposes.short p old
    · rw [List.mem_singleton.mp isLast]
      exact short

/-- Without an empty last part. -/
theorem Decomposes.front
    (decomposes : Decomposes overlap (parts ++ [current]) (halves ++ [(carried, new)])) :
    Decomposes overlap parts halves := by
  refine ⟨decomposes.last.1, ?_, (List.isChain_append.mp decomposes.carried).1, ?_⟩
  · intro p isFirst
    apply decomposes.first p
    rw [List.head?_append, isFirst]
    rfl
  · intro p member
    exact decomposes.short p (List.mem_append_left _ member)

end Decomposes

namespace StructuralChunker

variable {chunker : StructuralChunker} {state filled : Filling} {read piece : List Char}

/-! ## The loops -/

/-- The flushed parts and the one in progress, in halves, have read the characters `read`. -/
structure Carrying (chunker : StructuralChunker) (read : List Char) (state : Filling) : Prop where
  bounded : ∀ part ∈ state.parts ++ [state.current], part.length ≤ chunker.maxChars
  halves : ∃ halves carried new,
    Decomposes chunker.overlapChars (state.parts ++ [state.current]) (halves ++ [(carried, new)]) ∧
    newText (halves ++ [(carried, new)]) = nonSpace read

theorem Carrying.start (chunker : StructuralChunker) : Carrying chunker [] ⟨[], [], []⟩ where
  bounded := by simp
  halves := ⟨[], [], [], .nil _, rfl⟩

theorem join_eq_append (current piece : List Char) :
    ∃ gap, join current piece = current ++ (gap ++ piece) ∧ nonSpace gap = [] := by
  unfold join
  split
  next empty => exact ⟨[], by simp [List.isEmpty_iff.mp empty], rfl⟩
  next => exact ⟨['\n', '\n'], by simp, by decide⟩

/-- Text joined to the part in progress is new in it. -/
theorem Carrying.join (carrying : Carrying chunker read state)
    (fits : (join state.current piece).length ≤ chunker.maxChars) (remaining : List Char) :
    Carrying chunker (read ++ piece)
      { state with current := StructuralChunker.join state.current piece, remaining := remaining } := by
  obtain ⟨halves, carried, new, decomposes, brought⟩ := carrying.halves
  obtain ⟨gap, joined, blank⟩ := join_eq_append state.current piece
  constructor
  · intro part member
    rcases List.mem_append.mp member with old | isLast
    · exact carrying.bounded part (List.mem_append_left _ old)
    · rw [List.mem_singleton.mp isLast]
      exact fits
  · refine ⟨halves, carried, new ++ (gap ++ piece), ?_, ?_⟩
    · show Decomposes _ (_ ++ [StructuralChunker.join state.current piece]) _
      rw [joined]
      exact decomposes.extend _
    · rw [nonSpace_append, ← brought]
      simp [blank]

/-- A flush carries the end of the part over. -/
theorem Carrying.flush (carrying : Carrying chunker read state) :
    Carrying chunker read (chunker.flush state) := by
  obtain ⟨halves, carried, new, decomposes, brought⟩ := carrying.halves
  have short : (lastChars chunker.overlapChars state.current).length ≤ chunker.overlapChars := by
    rw [length_lastChars]
    omega
  constructor
  · intro part member
    rcases List.mem_append.mp member with old | isLast
    · exact carrying.bounded part old
    · have below := chunker.overlapChars_lt
      rw [List.mem_singleton.mp isLast]
      exact short.trans (by omega)
  · refine ⟨halves ++ [(carried, new)], _, [], decomposes.flush (lastChars_suffix _ _) short, ?_⟩
    rw [newText_append, brought, newText_singleton, nonSpace_nil, List.append_nil]

/-- What has been read of the paragraph moves on by what an iteration takes from it. -/
theorem Carrying.iteration {rest : List Char} (carrying : Carrying chunker read state)
    (read_remaining : read ++ state.remaining = rest) :
    ∃ more, Carrying chunker more (chunker.iteration state) ∧
      more ++ (chunker.iteration state).remaining = rest := by
  obtain ⟨-, moved⟩ | ⟨below, moved⟩ | ⟨room, reached, moved⟩ := iteration_cases chunker state
  · rw [moved]
    exact ⟨read, carrying.flush, read_remaining⟩
  · rw [moved]
    refine ⟨read ++ state.remaining, carrying.join ?_ [], by rw [List.append_nil, read_remaining]⟩
    rw [length_join]
    omega
  · rw [moved]
    refine ⟨read ++ state.remaining.take (chunker.available state.current),
      (carrying.join ?_ _).flush, ?_⟩
    · exact (length_join_take room reached).le
    · show _ ++ state.remaining.drop _ = rest
      rw [List.append_assoc, List.take_append_drop, read_remaining]

theorem fill_carries (room : chunker.overlapChars + 2 < chunker.maxChars)
    (carrying : Carrying chunker read state) (paragraph : List Char) :
    ∃ fuel filled, chunker.fill fuel { state with remaining := paragraph } = some filled ∧
      Carrying chunker (read ++ paragraph) filled := by
  obtain ⟨filled, ended, ⟨more, carries, whole⟩, done⟩ :
      ∃ filled, chunker.fill _ { state with remaining := paragraph } = some filled ∧
        (∃ more, Carrying chunker more filled ∧ more ++ filled.remaining = read ++ paragraph) ∧ _ := by
    -- what is unread shrinks, and every iteration moves on by what it reads
    refine loop_of_variant chunker.unread ?_
      ⟨read, ⟨carrying.bounded, carrying.halves⟩, rfl⟩
    rintro middle ⟨more, carries, whole⟩ left
    exact ⟨carries.iteration whole, unread_iteration room (by simpa using left)⟩
  have empty : filled.remaining = [] := by simpa using done
  rw [empty, List.append_nil] at whole
  exact ⟨_, filled, ended, whole ▸ carries⟩

theorem fillAll_carries (room : chunker.overlapChars + 2 < chunker.maxChars)
    (carrying : Carrying chunker read state) (paragraphs : List (List Char)) :
    ∃ fuel filled, chunker.fillAll fuel state paragraphs = some filled ∧
      Carrying chunker (read ++ paragraphs.flatten) filled := by
  induction paragraphs generalizing state read with
  | nil => exact ⟨0, state, rfl, by simpa using carrying⟩
  | cons paragraph rest ih =>
    obtain ⟨fuel, middle, first, carries⟩ := fill_carries room carrying paragraph
    obtain ⟨more, filled, others, carries⟩ := ih carries
    refine ⟨_, filled, fillAll_cons first others, ?_⟩
    rw [List.flatten_cons, ← List.append_assoc]
    exact carries

/-! ## The parts of a text -/

theorem nonSpace_paragraphs (text : List Char) : nonSpace (paragraphs text).flatten = nonSpace text := by
  rw [← nonSpace_splitBlank text, paragraphs]
  induction splitBlank text with
  | nil => rfl
  | cons piece rest ih =>
    rw [List.map_cons, List.filter_cons, List.flatten_cons, nonSpace_append, ← ih]
    split
    next => rw [List.flatten_cons, nonSpace_append, nonSpace_strip]
    next blank =>
      have empty : strip piece = [] := by simpa using blank
      rw [← nonSpace_strip piece, empty, nonSpace_nil, List.nil_append]

theorem boundedParts_decomposes (room : chunker.overlapChars + 2 < chunker.maxChars) (text : List Char) :
    ∃ fuel parts halves, chunker.boundedParts fuel text = some parts ∧
      Decomposes chunker.overlapChars parts halves ∧ newText halves = nonSpace text ∧
      ∀ part ∈ parts, part.length ≤ chunker.maxChars := by
  obtain ⟨fuel, filled, ended, carries⟩ :=
    fillAll_carries room (Carrying.start chunker) (paragraphs text)
  obtain ⟨halves, carried, new, decomposes, brought⟩ := carries.halves
  rw [List.nil_append, nonSpace_paragraphs] at brought
  by_cases empty : filled.current = []
  · have last := decomposes.last.2
    rw [empty] at last
    obtain ⟨-, rfl⟩ := List.append_eq_nil_iff.mp last.symm
    refine ⟨fuel, filled.parts, halves, by simp [boundedParts, ended, empty], decomposes.front, ?_, ?_⟩
    · simpa using brought
    · exact fun part member => carries.bounded part (List.mem_append_left _ member)
  · exact ⟨fuel, _, _, by simp [boundedParts, ended, empty], decomposes, brought, carries.bounded⟩

end StructuralChunker

/-! ## Sections -/

/-- A line of the body: neither a heading nor blank. -/
def isBody (line : List Char) : Bool :=
  (headingText line).isNone && notBlank line

/-- The text of the last heading among the lines. -/
def precedingHeading (lines : List (List Char)) : Option (List Char) :=
  (lines.filterMap headingText).getLast?

/-- The lines of a section and the lines in front of it. -/
structure Block where
  before : List (List Char)
  body : List (List Char)

namespace Block

def toSection (block : Block) : Section :=
  ⟨precedingHeading block.before, ['\n'].intercalate block.body⟩

/-- A block is a stretch of the lines without a heading. -/
structure In (lines : List (List Char)) (block : Block) : Prop where
  place : block.before ++ block.body <+: lines
  plain : ∀ line ∈ block.body, headingText line = none

theorem In.append {lines : List (List Char)} {block : Block} (found : block.In lines)
    (line : List Char) : block.In (lines ++ [line]) :=
  ⟨found.place.trans (List.prefix_append _ _), found.plain⟩

end Block

/-- The blocks in order hold the lines of the body. -/
def Complete (blocks : List Block) (lines : List (List Char)) : Prop :=
  blocks.flatMap (fun b => b.body.filter notBlank) = lines.filter isBody

/-- What the loop of `_sections` has found in the lines it has read. -/
structure Outlined (lines : List (List Char)) (blocks : List Block) (last : Block)
    (outline : Outline) : Prop where
  sections : outline.sections = blocks.map Block.toSection
  heading : outline.heading = precedingHeading last.before
  body : outline.lines = last.body
  whole : last.before ++ last.body = lines
  found : ∀ b ∈ blocks ++ [last], b.In lines
  complete : Complete (blocks ++ [last]) lines

section Outlined

variable {lines : List (List Char)} {blocks : List Block} {last : Block} {outline : Outline}

theorem Outlined.start : Outlined [] [] ⟨[], []⟩ ⟨[], none, []⟩ where
  sections := rfl
  heading := rfl
  body := rfl
  whole := rfl
  found := by simpa using ⟨List.nil_prefix, by simp⟩
  complete := rfl

theorem filter_concat_heading {line : List Char} (isHeading : (headingText line).isSome)
    (lines : List (List Char)) : (lines ++ [line]).filter isBody = lines.filter isBody := by
  have notBody : isBody line = false := by
    rw [isBody, Option.isNone_eq_false_iff.mpr isHeading, Bool.false_and]
  simp [notBody]

/-- Closing a block keeps it if it has a line that is not blank. -/
theorem Outlined.close (outlined : Outlined lines blocks last outline) :
    ∃ closed, outline.close = closed.map Block.toSection ∧ (∀ b ∈ closed, b.In lines) ∧
      Complete closed lines := by
  have complete := outlined.complete
  unfold Outline.close
  split
  next =>
    refine ⟨blocks ++ [last], ?_, outlined.found, complete⟩
    rw [outlined.sections, outlined.heading, outlined.body, List.map_append]
    rfl
  next blank =>
    refine ⟨blocks, outlined.sections, fun b member => outlined.found b (by simp [member]), ?_⟩
    have nothing : last.body.filter notBlank = [] := by
      rw [← outlined.body]
      simpa using blank
    rw [Complete, List.flatMap_append] at complete
    simpa [Complete, nothing] using complete

theorem Outlined.readLine (outlined : Outlined lines blocks last outline) (line : List Char) :
    ∃ blocks last, Outlined (lines ++ [line]) blocks last (outline.readLine line) := by
  unfold Outline.readLine
  split
  next text isHeading =>
    -- the block is closed, and an empty one begins behind the heading
    obtain ⟨closed, sections, found, complete⟩ := outlined.close
    refine ⟨closed, ⟨lines ++ [line], []⟩, sections, ?_, rfl, by simp, ?_, ?_⟩
    · simp [precedingHeading, List.filterMap_append, isHeading]
    · intro b member
      rcases List.mem_append.mp member with old | new
      · exact (found b old).append line
      · rw [List.mem_singleton.mp new]
        exact ⟨by simp, by simp⟩
    · rw [Complete, filter_concat_heading (by simp [isHeading]), ← complete]
      simp
  next plain =>
    refine ⟨blocks, ⟨last.before, last.body ++ [line]⟩, outlined.sections, outlined.heading, ?_, ?_, ?_,
      ?_⟩
    · simp [outlined.body]
    · rw [← outlined.whole, List.append_assoc]
    · intro b member
      rcases List.mem_append.mp member with old | new
      · exact (outlined.found b (List.mem_append_left _ old)).append line
      · rw [List.mem_singleton.mp new]
        constructor
        · rw [← outlined.whole, List.append_assoc]
        · intro l inBody
          rcases List.mem_append.mp inBody with inOld | isLine
          · exact (outlined.found last (by simp)).plain l inOld
          · rw [List.mem_singleton.mp isLine]
            exact plain
    · have complete := outlined.complete
      have same : [line].filter notBlank = [line].filter isBody := by
        simp [List.filter_cons, isBody, plain]
      rw [Complete, List.flatMap_append] at complete ⊢
      rw [List.filter_append, ← complete, ← same]
      simp

theorem outlined_foldl (outlined : Outlined lines blocks last outline) (more : List (List Char)) :
    ∃ blocks last, Outlined (lines ++ more) blocks last (more.foldl Outline.readLine outline) := by
  induction more generalizing lines blocks last outline with
  | nil => exact ⟨blocks, last, by simpa using outlined⟩
  | cons line rest ih =>
    obtain ⟨_, _, next⟩ := outlined.readLine line
    have all := ih next
    rw [List.append_assoc, List.singleton_append] at all
    exact all

end Outlined

/-- The sections of a text with a body. -/
theorem sections_eq_blocks {markdown : List Char} (body : ∃ line ∈ splitlines markdown, isBody line) :
    ∃ blocks, sections markdown = blocks.map Block.toSection ∧
      (∀ b ∈ blocks, b.In (splitlines markdown)) ∧ Complete blocks (splitlines markdown) := by
  obtain ⟨_, _, outlined⟩ := outlined_foldl Outlined.start (splitlines markdown)
  obtain ⟨blocks, closed, found, complete⟩ := outlined.close
  refine ⟨blocks, ?_, found, complete⟩
  unfold sections
  cases blocks with
  | nil =>
    obtain ⟨line, member, isLine⟩ := body
    have none : (splitlines markdown).filter isBody = [] := complete.symm
    exact absurd isLine (by simpa using List.filter_eq_nil_iff.mp none line member)
  | cons block rest => rw [closed, List.map_cons]

/-! ## Chunks -/

/-- A section with its parts, in halves. -/
structure Portion extends Block where
  parts : List (List Char)
  halves : List (List Char × List Char)

/-- The stripped parts that are not empty, with the heading of their section. -/
def Portion.chunked (portion : Portion) : List (Option (List Char) × List Char) :=
  ((portion.parts.map strip).filter fun content => !content.isEmpty).map
    (precedingHeading portion.before, ·)

/-- Positions in order, and the stripped contents within the bound. -/
structure Numbered (maxChars : Nat) (chunks : List DocumentChunk) : Prop where
  positions : chunks.map (·.position) = List.range chunks.length
  stripped : ∀ c ∈ chunks, c.content ≠ [] ∧ strip c.content = c.content
  bounded : ∀ c ∈ chunks, c.content.length ≤ maxChars

theorem length_strip_le (text : List Char) : (strip text).length ≤ text.length :=
  (strip_within text).length_le

theorem appendChunk_cases (request : ChunkRequest) (heading : Option (List Char))
    (outputs : List DocumentChunk) (text : List Char) :
    (strip text = [] ∧ appendChunk request heading outputs text = outputs) ∨
      ∃ c, appendChunk request heading outputs text = outputs ++ [c] ∧
        c.position = outputs.length ∧ c.heading = heading ∧ c.content = strip text := by
  unfold appendChunk
  by_cases empty : strip text = []
  · exact .inl ⟨empty, dif_pos empty⟩
  · exact .inr ⟨_, dif_neg empty, rfl, rfl, rfl⟩

section Appending

variable {maxChars : Nat} {request : ChunkRequest} {heading : Option (List Char)}
  {outputs : List DocumentChunk} {text : List Char}

theorem Numbered.append (numbered : Numbered maxChars outputs) (fits : text.length ≤ maxChars) :
    Numbered maxChars (appendChunk request heading outputs text) := by
  obtain ⟨-, kept⟩ | ⟨c, appended, position, -, content⟩ :=
    appendChunk_cases request heading outputs text
  · rw [kept]
    exact numbered
  · rw [appended]
    refine ⟨?_, ?_, ?_⟩
    · simp [numbered.positions, position, List.range_succ]
    · intro d member
      rcases List.mem_append.mp member with old | new
      · exact numbered.stripped d old
      · rw [List.mem_singleton.mp new]
        exact ⟨c.content_ne_nil, by rw [content, strip_strip]⟩
    · intro d member
      rcases List.mem_append.mp member with old | new
      · exact numbered.bounded d old
      · rw [List.mem_singleton.mp new, content]
        exact (length_strip_le text).trans fits

variable (request heading) in
theorem Numbered.foldl {parts : List (List Char)} (numbered : Numbered maxChars outputs)
    (fits : ∀ part ∈ parts, part.length ≤ maxChars) :
    Numbered maxChars (parts.foldl (appendChunk request heading) outputs) := by
  induction parts generalizing outputs with
  | nil => exact numbered
  | cons part rest ih =>
    exact ih (numbered.append (fits part (by simp))) fun p member => fits p (by simp [member])

/-- What the loop over the parts of a section appends. -/
theorem chunked_foldl (parts : List (List Char)) :
    (parts.foldl (appendChunk request heading) outputs).map (fun c => (c.heading, c.content)) =
      outputs.map (fun c => (c.heading, c.content)) ++
        ((parts.map strip).filter fun content => !content.isEmpty).map (heading, ·) := by
  induction parts generalizing outputs with
  | nil => simp
  | cons part rest ih =>
    rw [List.foldl_cons, ih]
    obtain ⟨empty, kept⟩ | ⟨c, appended, -, isHeading, content⟩ :=
      appendChunk_cases request heading outputs part
    · rw [kept]
      simp [empty]
    · have some : strip part ≠ [] := content ▸ c.content_ne_nil
      rw [appended]
      simp [some, isHeading, content]

end Appending

namespace StructuralChunker

variable {chunker : StructuralChunker}

/-- The parts of a section, in halves that bring its lines. -/
structure Parted (chunker : StructuralChunker) (portion : Portion) : Prop where
  parts : ∃ fuel, chunker.boundedParts fuel (['\n'].intercalate portion.body) = some portion.parts
  decomposed : Decomposes chunker.overlapChars portion.parts portion.halves
  brought : newText portion.halves = nonSpace portion.body.flatten
  bounded : ∀ part ∈ portion.parts, part.length ≤ chunker.maxChars

theorem nonSpace_intercalate (lines : List (List Char)) :
    nonSpace (['\n'].intercalate lines) = nonSpace lines.flatten := by
  induction lines with
  | nil => rfl
  | cons line rest ih =>
    cases rest with
    | nil => simp
    | cons next rest =>
      have newline : nonSpace ['\n'] = [] := by decide
      rw [List.intercalate_cons_cons, nonSpace_append, nonSpace_append, ih, newline, List.append_nil,
        ← nonSpace_append]
      rfl

theorem exists_portion (room : chunker.overlapChars + 2 < chunker.maxChars) (block : Block) :
    ∃ portion : Portion, portion.toBlock = block ∧ chunker.Parted portion := by
  obtain ⟨fuel, parts, halves, ended, decomposes, brought, bounded⟩ :=
    boundedParts_decomposes room (['\n'].intercalate block.body)
  rw [nonSpace_intercalate] at brought
  exact ⟨⟨block, parts, halves⟩, rfl, ⟨fuel, ended⟩, decomposes, brought, bounded⟩

theorem boundedParts_mono {fuel more : Nat} {text : List Char} {parts : List (List Char)}
    (ended : chunker.boundedParts fuel text = some parts) (le : fuel ≤ more) :
    chunker.boundedParts more text = some parts := by
  obtain ⟨filled, first, last⟩ := Option.map_eq_some_iff.mp ended
  exact Option.map_eq_some_iff.mpr ⟨filled, fillAll_mono first le, last⟩

theorem chunkSections_mono {fuel more : Nat} {request : ChunkRequest} {found : List Section}
    {outputs chunks : List DocumentChunk}
    (ended : chunker.chunkSections fuel request outputs found = some chunks) (le : fuel ≤ more) :
    chunker.chunkSections more request outputs found = some chunks := by
  induction found generalizing outputs with
  | nil => exact ended
  | cons first rest ih =>
    obtain ⟨parts, bounded, others⟩ := Option.bind_eq_some_iff.mp ended
    exact Option.bind_eq_some_iff.mpr ⟨parts, boundedParts_mono bounded le, ih others⟩

theorem chunkSections_blocks (room : chunker.overlapChars + 2 < chunker.maxChars)
    (request : ChunkRequest) (blocks : List Block) {outputs : List DocumentChunk}
    (numbered : Numbered chunker.maxChars outputs) :
    ∃ fuel chunks, ∃ portions : List Portion,
      chunker.chunkSections fuel request outputs (blocks.map Block.toSection) = some chunks ∧
      portions.map Portion.toBlock = blocks ∧ (∀ p ∈ portions, chunker.Parted p) ∧
      Numbered chunker.maxChars chunks ∧
      chunks.map (fun c => (c.heading, c.content)) =
        outputs.map (fun c => (c.heading, c.content)) ++ portions.flatMap Portion.chunked := by
  induction blocks generalizing outputs with
  | nil => exact ⟨0, outputs, [], rfl, rfl, by simp, numbered, by simp⟩
  | cons block rest ih =>
    obtain ⟨portion, rfl, parted⟩ := exists_portion room block
    obtain ⟨fuel, ended⟩ := parted.parts
    obtain ⟨more, chunks, portions, others, blocksEq, allParted, allNumbered, contents⟩ :=
      ih (numbered.foldl request (precedingHeading portion.before) parted.bounded)
    refine ⟨max fuel more, chunks, portion :: portions, ?_, by rw [List.map_cons, blocksEq], ?_,
      allNumbered, ?_⟩
    · rw [List.map_cons]
      exact Option.bind_eq_some_iff.mpr ⟨portion.parts, boundedParts_mono ended (by omega),
        chunkSections_mono others (by omega)⟩
    · intro p member
      rcases List.mem_cons.mp member with rfl | later
      · exact parted
      · exact allParted p later
    · rw [contents, chunked_foldl, List.flatMap_cons, List.append_assoc]
      rfl

/-- The chunks of a document: what `chunk` promises of them. -/
structure Covers (chunker : StructuralChunker) (markdown : List Char) (portions : List Portion)
    (chunks : List DocumentChunk) : Prop where
  numbered : Numbered chunker.maxChars chunks
  sections : sections markdown = portions.map fun p => p.toSection
  /-- The sections are blocks of lines without a heading, and hold every line of the body. -/
  blocks : ∀ p ∈ portions, p.toBlock.In (splitlines markdown)
  complete : Complete (portions.map Portion.toBlock) (splitlines markdown)
  parted : ∀ p ∈ portions, chunker.Parted p
  /-- Each chunk is a part, under the heading that precedes the block. -/
  contents : chunks.map (fun c => (c.heading, c.content)) = portions.flatMap Portion.chunked
  everyCharacter : ∀ line ∈ splitlines markdown, isBody line → ∀ c ∈ nonSpace line,
    ∃ chunk ∈ chunks, c ∈ chunk.content

theorem mem_chunked {portion : Portion} (parted : chunker.Parted portion) {line : List Char}
    (inBody : line ∈ portion.body) {c : Char} (member : c ∈ nonSpace line) :
    ∃ content, (precedingHeading portion.before, content) ∈ portion.chunked ∧ c ∈ content := by
  obtain ⟨inLine, visible⟩ := mem_nonSpace.mp member
  have brought : c ∈ newText portion.halves := by
    rw [parted.brought]
    exact mem_nonSpace.mpr ⟨List.mem_flatten_of_mem inBody inLine, visible⟩
  obtain ⟨half, inHalves, inNew⟩ := List.mem_flatMap.mp (mem_nonSpace.mp brought).1
  have inPart : half.1 ++ half.2 ∈ portion.parts := by
    rw [parted.decomposed.parts]
    exact List.mem_map_of_mem inHalves
  have kept : c ∈ strip (half.1 ++ half.2) := by
    have inText : c ∈ nonSpace (half.1 ++ half.2) :=
      mem_nonSpace.mpr ⟨List.mem_append_right _ inNew, visible⟩
    rw [← nonSpace_strip] at inText
    exact (mem_nonSpace.mp inText).1
  refine ⟨_, List.mem_map.mpr ⟨strip (half.1 ++ half.2), ?_, rfl⟩, kept⟩
  refine List.mem_filter.mpr ⟨List.mem_map_of_mem inPart, ?_⟩
  have some : strip (half.1 ++ half.2) ≠ [] := List.ne_nil_of_mem kept
  simpa using some

theorem chunk_covers (room : chunker.overlapChars + 2 < chunker.maxChars) (request : ChunkRequest)
    (markdown : List Char) (body : ∃ line ∈ splitlines markdown, isBody line) :
    ∃ fuel chunks portions, chunker.chunk fuel request markdown = some chunks ∧
      chunker.Covers markdown portions chunks := by
  obtain ⟨blocks, sectionsEq, found, complete⟩ := sections_eq_blocks body
  obtain ⟨fuel, chunks, portions, ended, blocksEq, parted, numbered, contents⟩ :=
    chunkSections_blocks room request blocks (⟨rfl, by simp, by simp⟩ : Numbered _ [])
  rw [List.map_nil, List.nil_append] at contents
  subst blocksEq
  refine ⟨fuel, chunks, portions, by rw [chunk, sectionsEq, ended], numbered, ?_, ?_, complete, parted,
    contents, ?_⟩
  · rw [sectionsEq, List.map_map]
    rfl
  · intro p member
    exact found _ (List.mem_map_of_mem member)
  · intro line member isLine c inLine
    -- the line belongs to a block, and the character to one of its parts
    have inBlocks : line ∈ (portions.map Portion.toBlock).flatMap fun b => b.body.filter notBlank := by
      rw [complete]
      exact List.mem_filter.mpr ⟨member, isLine⟩
    obtain ⟨block, inPortions, inBody⟩ := List.mem_flatMap.mp inBlocks
    obtain ⟨portion, isPortion, rfl⟩ := List.mem_map.mp inPortions
    obtain ⟨content, chunked, inContent⟩ :=
      mem_chunked (parted portion isPortion) (List.mem_filter.mp inBody).1 inLine
    have listed := List.mem_flatMap.mpr ⟨portion, isPortion, chunked⟩
    rw [← contents] at listed
    obtain ⟨chunk, isChunk, same⟩ := List.mem_map.mp listed
    refine ⟨chunk, isChunk, ?_⟩
    rw [(Prod.mk.inj same).2]
    exact inContent

theorem chunk_covers_two_sections : ∃ fuel chunks portions,
    StructuralChunker.chunk ⟨200, 20, by decide, by decide⟩ fuel ⟨⟨0xa⟩, ⟨0xd⟩, none⟩
        "# Security\n\nShared credentials are prohibited.\n\n# Legal\n\nLiability is capped.".toList =
      some chunks ∧
    Covers ⟨200, 20, by decide, by decide⟩
      "# Security\n\nShared credentials are prohibited.\n\n# Legal\n\nLiability is capped.".toList
      portions chunks :=
  chunk_covers (by decide) _ _ (by decide +kernel)

end StructuralChunker

end SupplierAssurance.Retrieval
