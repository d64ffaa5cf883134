import SupplierAssurance.Retrieval.Coverage
import SupplierAssurance.Retrieval.Overlap

/-! # Headings in chunks

`_sections` keeps the heading it has read last and gives it to the section that follows, if that
section has a line that is not blank.  A heading with no such line before the next heading is
dropped, unless no section has one and the whole document becomes a section.  Its text may still be
found in the contents of chunks, where a paragraph repeats it and is not cut inside it.
-/

namespace SupplierAssurance.Retrieval

open SupplierAssurance.Lib SupplierAssurance.Python

/-! ## Stretches between headings -/

/-- A line that `_HEADING` matches. -/
def IsHeading (line : List Char) : Prop :=
  (headingText line).isSome

/-- The lines end with a heading, or there are none. -/
def EndsWithHeading (lines : List (List Char)) : Prop :=
  ∀ line ∈ lines.getLast?, IsHeading line

/-- The lines `body` behind `before`, from a heading or the start of the document to the next
    heading or the end. -/
structure Stretch (lines before body : List (List Char)) : Prop where
  place : ∃ after, lines = before ++ body ++ after ∧ ∀ line ∈ after.head?, IsHeading line
  begins : EndsWithHeading before
  plain : ∀ line ∈ body, headingText line = none

/-- The section of a stretch that is not blank. -/
def StretchSection (before body : List (List Char)) (found : Section) : Prop :=
  body.any notBlank = true ∧ found = ⟨precedingHeading before, ['\n'].intercalate body⟩

/-- The section of a stretch that another heading ends. -/
def ClosedSection (lines : List (List Char)) (found : Section) : Prop :=
  ∃ before body line after, lines = before ++ body ++ line :: after ∧ IsHeading line ∧
    EndsWithHeading before ∧ (∀ line ∈ body, headingText line = none) ∧ StretchSection before body found

/-- What the loop of `_sections` has found: the closed stretches, and the one it is in. -/
structure Stretched (lines before body : List (List Char)) (outline : Outline) : Prop where
  whole : lines = before ++ body
  begins : EndsWithHeading before
  plain : ∀ line ∈ body, headingText line = none
  heading : outline.heading = precedingHeading before
  body : outline.lines = body
  closed : ∀ found, found ∈ outline.sections ↔ ClosedSection lines found

section Stretched

variable {lines before body before' body' : List (List Char)} {line : List Char} {outline : Outline}
  {found : Section}

/-- The lines end in one stretch only. -/
theorem stretch_unique (begins : EndsWithHeading before) (plain : ∀ line ∈ body, headingText line = none)
    (begins' : EndsWithHeading before') (plain' : ∀ line ∈ body', headingText line = none)
    (same : before ++ body = before' ++ body') : before = before' ∧ body = body' := by
  have notLonger {front middle back : List (List Char)} (ends : EndsWithHeading (front ++ middle))
      (plain : ∀ line ∈ middle ++ back, headingText line = none) : middle = [] := by
    by_contra some
    obtain ⟨early, last, rfl⟩ := (List.eq_nil_or_concat middle).resolve_left some
    have isHeading : IsHeading last := ends last (by simp)
    rw [IsHeading, plain last (by simp)] at isHeading
    cases isHeading
  rcases List.append_eq_append_iff.mp same with ⟨middle, rfl, rfl⟩ | ⟨middle, rfl, rfl⟩
  · obtain rfl := notLonger begins' plain
    simp
  · obtain rfl := notLonger begins plain'
    simp

theorem closedSection_concat (whole : lines = before ++ body) (begins : EndsWithHeading before)
    (plain : ∀ line ∈ body, headingText line = none) :
    ClosedSection (lines ++ [line]) found ↔
      ClosedSection lines found ∨ (IsHeading line ∧ StretchSection before body found) := by
  constructor
  · rintro ⟨before', body', heading, after, split, isHeading, begins', plain', isSection⟩
    rcases List.eq_nil_or_concat after with rfl | ⟨front, last, rfl⟩
    · obtain ⟨same, isLine⟩ := List.append_inj' split rfl
      cases isLine
      obtain ⟨rfl, rfl⟩ := stretch_unique begins plain begins' plain' (whole.symm.trans same)
      exact .inr ⟨isHeading, isSection⟩
    · rw [List.concat_eq_append, ← List.cons_append, ← List.append_assoc] at split
      obtain ⟨same, -⟩ := List.append_inj' split rfl
      exact .inl ⟨before', body', heading, front, same, isHeading, begins', plain', isSection⟩
  · rintro (⟨before', body', heading, after, rfl, rest⟩ | ⟨isHeading, isSection⟩)
    · exact ⟨before', body', heading, after ++ [line], by simp, rest⟩
    · exact ⟨before, body, line, [], by rw [whole], isHeading, begins, plain, isSection⟩

theorem Stretched.start : Stretched [] [] [] ⟨[], none, []⟩ where
  whole := rfl
  begins := by simp [EndsWithHeading]
  plain := by simp
  heading := rfl
  body := rfl
  closed := by simp [ClosedSection]

theorem Stretched.mem_close (stretched : Stretched lines before body outline) :
    found ∈ outline.close ↔ ClosedSection lines found ∨ StretchSection before body found := by
  unfold Outline.close StretchSection
  rw [stretched.body, stretched.heading]
  split
  next some => simp [stretched.closed, some]
  next blank => simp [stretched.closed, blank]

theorem Stretched.readLine (stretched : Stretched lines before body outline) (line : List Char) :
    ∃ before body, Stretched (lines ++ [line]) before body (outline.readLine line) := by
  have closed (found : Section) := @closedSection_concat lines before body line found stretched.whole
    stretched.begins stretched.plain
  unfold Outline.readLine
  split
  next text isHeading =>
    have heading : IsHeading line := by simp [IsHeading, isHeading]
    refine ⟨lines ++ [line], [], by simp, by simpa [EndsWithHeading] using heading, by simp, ?_, rfl, ?_⟩
    · simp [precedingHeading, List.filterMap_append, isHeading]
    · intro found
      rw [closed, stretched.mem_close]
      simp [heading]
  next isPlain =>
    have noHeading : ¬ IsHeading line := by simp [IsHeading, isPlain]
    refine ⟨before, body ++ [line], by rw [stretched.whole, List.append_assoc], stretched.begins, ?_,
      stretched.heading, by rw [stretched.body], ?_⟩
    · intro l member
      cases List.mem_append.mp member with
      | inl old => exact stretched.plain l old
      | inr new => rwa [List.mem_singleton.mp new]
    · intro found
      rw [closed, stretched.closed]
      simp [noHeading]

theorem stretched_foldl (stretched : Stretched lines before body outline) (more : List (List Char)) :
    ∃ before body, Stretched (lines ++ more) before body (more.foldl Outline.readLine outline) := by
  induction more generalizing lines before body outline with
  | nil => exact ⟨before, body, by simpa using stretched⟩
  | cons line rest ih =>
    obtain ⟨_, _, next⟩ := stretched.readLine line
    have all := ih next
    rw [List.append_assoc, List.singleton_append] at all
    exact all

end Stretched

/-- The sections that the loop finds are the stretches that are not blank. -/
theorem mem_close_iff {lines : List (List Char)} {found : Section} :
    found ∈ (lines.foldl Outline.readLine ⟨[], none, []⟩).close ↔
      ∃ before body, Stretch lines before body ∧ StretchSection before body found := by
  obtain ⟨before, body, stretched⟩ := stretched_foldl Stretched.start lines
  rw [List.nil_append] at stretched
  rw [stretched.mem_close]
  -- a stretch ends before a heading line, and then it is closed, or at the end of the text
  constructor
  · rintro (⟨before', body', line, after, split, isHeading, begins, plain, isSection⟩ | isSection)
    · exact ⟨before', body', ⟨⟨line :: after, split, by simpa using isHeading⟩, begins, plain⟩, isSection⟩
    · exact ⟨before, body, ⟨⟨[], by rw [stretched.whole, List.append_nil], by simp⟩, stretched.begins,
        stretched.plain⟩, isSection⟩
  · rintro ⟨before', body', ⟨⟨after, split, ends⟩, begins, plain⟩, isSection⟩
    cases after with
    | nil =>
      rw [List.append_nil] at split
      obtain ⟨rfl, rfl⟩ := stretch_unique stretched.begins stretched.plain begins plain
        (stretched.whole.symm.trans split)
      exact .inr isSection
    | cons line after =>
      exact .inl ⟨before', body', line, after, split, ends line rfl, begins, plain, isSection⟩

/-! ## Blank texts -/

theorem nonSpace_eq_nil_iff {text : List Char} : nonSpace text = [] ↔ strip text = [] := by
  constructor
  · intro blank
    rw [← nonSpace_strip] at blank
    cases stripped : strip text with
    | nil => rfl
    | cons c rest =>
      have visible : isSpace c = false := head_strip text c (by simp [stripped])
      have inText : c ∈ nonSpace (strip text) := mem_nonSpace.mpr ⟨by simp [stripped], visible⟩
      rw [blank] at inText
      cases inText
  · intro empty
    rw [← nonSpace_strip, empty, nonSpace_nil]

theorem paragraphs_eq_nil_iff {text : List Char} :
    StructuralChunker.paragraphs text = [] ↔ nonSpace text = [] := by
  have nonSpace_flatten := StructuralChunker.nonSpace_paragraphs text
  constructor
  · intro none
    rw [← nonSpace_flatten, none, List.flatten_nil, nonSpace_nil]
  · intro blank
    rw [blank] at nonSpace_flatten
    refine List.eq_nil_iff_forall_not_mem.mpr fun paragraph member => ?_
    obtain ⟨piece, -, rfl⟩ := List.mem_map.mp (List.mem_filter.mp member).1
    have some : strip piece ≠ [] := StructuralChunker.ne_nil_of_mem_paragraphs member
    have visible : nonSpace (strip piece) ≠ [] := by
      rw [ne_eq, nonSpace_eq_nil_iff, strip_strip]
      exact some
    obtain ⟨c, rest, isCons⟩ := List.exists_cons_of_ne_nil visible
    have inPiece : c ∈ nonSpace (strip piece) := by simp [isCons]
    obtain ⟨inStrip, notSpace⟩ := mem_nonSpace.mp inPiece
    have inAll : c ∈ nonSpace (StructuralChunker.paragraphs text).flatten :=
      mem_nonSpace.mpr ⟨List.mem_flatten_of_mem member inStrip, notSpace⟩
    rw [nonSpace_flatten] at inAll
    cases inAll

theorem any_notBlank_iff {body : List (List Char)} :
    body.any notBlank = true ↔ StructuralChunker.paragraphs (['\n'].intercalate body) ≠ [] := by
  rw [ne_eq, paragraphs_eq_nil_iff, StructuralChunker.nonSpace_intercalate, ← not_iff_not, not_not,
    Bool.not_eq_true, List.any_eq_false]
  have blank (line : List Char) : ¬ notBlank line = true ↔ nonSpace line = [] := by
    rw [nonSpace_eq_nil_iff]
    simp [notBlank]
  simp only [blank]
  induction body with
  | nil => simp
  | cons line rest ih => simp [ih]

/-! ## The headings of sections -/

/-- A heading with this text is followed by a line of the body before the next heading. -/
def HeadsBody (lines : List (List Char)) (text : List Char) : Prop :=
  ∃ before heading between line after, lines = before ++ heading :: between ++ line :: after ∧
    headingText heading = some text ∧ (∀ l ∈ between, headingText l = none) ∧ isBody line = true

theorem precedingHeading_concat {before : List (List Char)} {line : List Char} (isHeading : IsHeading line) :
    precedingHeading (before ++ [line]) = headingText line := by
  obtain ⟨text, found⟩ := Option.isSome_iff_exists.mp isHeading
  simp [precedingHeading, found]

theorem isBody_iff {line : List Char} :
    isBody line = true ↔ headingText line = none ∧ notBlank line = true := by
  simp [isBody]

theorem headsBody_iff {lines : List (List Char)} {text : List Char} :
    HeadsBody lines text ↔ ∃ before body, Stretch lines before body ∧ body.any notBlank = true ∧
      precedingHeading before = some text := by
  constructor
  · rintro ⟨before, heading, between, line, after, rfl, found, plain, isLine⟩
    obtain ⟨noHeading, visible⟩ := isBody_iff.mp isLine
    have isHeading : IsHeading heading := by simp [IsHeading, found]
    refine ⟨before ++ [heading],
      between ++ line :: after.takeWhile fun l => (headingText l).isNone, ⟨⟨
        after.dropWhile fun l => (headingText l).isNone, ?_, ?_⟩, ?_, ?_⟩, ?_, ?_⟩
    · simp [List.takeWhile_append_dropWhile]
    · intro next isNext
      have stopped := List.head?_dropWhile_not (fun l => (headingText l).isNone) after
      rw [isNext] at stopped
      simpa [IsHeading] using stopped
    · simpa [EndsWithHeading] using isHeading
    · intro l member
      rcases List.mem_append.mp member with inBetween | later
      · exact plain l inBetween
      · rcases List.mem_cons.mp later with rfl | behind
        · exact noHeading
        · simpa using List.mem_takeWhile_imp behind
    · simp [visible]
    · rw [precedingHeading_concat isHeading, found]
  · rintro ⟨before, body, ⟨⟨after, rfl, -⟩, begins, plain⟩, visible, found⟩
    obtain ⟨front, heading, rfl⟩ : ∃ front heading, before = front ++ [heading] := by
      rcases List.eq_nil_or_concat before with rfl | ⟨front, heading, rfl⟩
      · cases found
      · exact ⟨front, heading, List.concat_eq_append⟩
    have isHeading : IsHeading heading := begins heading (by simp)
    rw [precedingHeading_concat isHeading] at found
    obtain ⟨line, inBody, isLine⟩ := List.any_eq_true.mp visible
    obtain ⟨between, rest, rfl⟩ := List.append_of_mem inBody
    refine ⟨front, heading, between, line, rest ++ after, by simp, found, ?_, ?_⟩
    · exact fun l member => plain l (List.mem_append_left _ member)
    · exact isBody_iff.mpr ⟨plain line inBody, isLine⟩

/-- The loop finds a section unless no line belongs to the body. -/
theorem close_eq_nil_iff {lines : List (List Char)} :
    (lines.foldl Outline.readLine ⟨[], none, []⟩).close = [] ↔ ∀ line ∈ lines, isBody line = false := by
  constructor
  · intro nothing line member
    obtain ⟨_, _, outlined⟩ := outlined_foldl Outlined.start lines
    obtain ⟨closed, found, -, complete⟩ := outlined.close
    rw [List.nil_append] at complete
    rw [nothing] at found
    obtain rfl := List.map_eq_nil_iff.mp found.symm
    have none : lines.filter isBody = [] := complete.symm
    simpa using List.filter_eq_nil_iff.mp none line member
  · intro noBody
    refine List.eq_nil_iff_forall_not_mem.mpr fun found member => ?_
    obtain ⟨before, body, ⟨⟨after, rfl, -⟩, -, plain⟩, visible, -⟩ := mem_close_iff.mp member
    obtain ⟨line, inBody, isLine⟩ := List.any_eq_true.mp visible
    have isBody := isBody_iff.mpr ⟨plain line inBody, isLine⟩
    rw [noBody line (by simp [inBody])] at isBody
    cases isBody

/-! ## Chunks -/

namespace StructuralChunker

variable {chunker : StructuralChunker} {request : ChunkRequest} {fuel : Nat}
  {outputs chunks : List DocumentChunk} {text : List Char}

/-- What a chunk shows: its heading and its content. -/
def shown (c : DocumentChunk) : Option (List Char) × List Char :=
  (c.heading, c.content)

/-- The stripped parts of a section that are not empty, under its heading. -/
def PartOf (chunker : StructuralChunker) (fuel : Nat) (found : Section)
    (entry : Option (List Char) × List Char) : Prop :=
  entry.1 = found.heading ∧ ∃ parts, chunker.boundedParts fuel found.text = some parts ∧
    ∃ part ∈ parts, strip part = entry.2 ∧ entry.2 ≠ []

theorem mem_chunkSections {found : List Section}
    (ended : chunker.chunkSections fuel request outputs found = some chunks)
    (entry : Option (List Char) × List Char) :
    entry ∈ chunks.map shown ↔ entry ∈ outputs.map shown ∨ ∃ s ∈ found, PartOf chunker fuel s entry := by
  induction found generalizing outputs with
  | nil =>
    cases ended
    simp
  | cons first rest ih =>
    obtain ⟨parts, bounded, others⟩ := Option.bind_eq_some_iff.mp ended
    have appended := @chunked_foldl request first.heading outputs parts
    have ofFirst : entry ∈ (parts.foldl (appendChunk request first.heading) outputs).map shown ↔
        entry ∈ outputs.map shown ∨ PartOf chunker fuel first entry := by
      unfold shown
      rw [appended, List.mem_append]
      refine or_congr_right ?_
      obtain ⟨heading, content⟩ := entry
      simp only [PartOf, bounded, List.mem_map, List.mem_filter, Option.some.injEq, exists_eq_left',
        Prod.mk.injEq]
      constructor
      · rintro ⟨_, ⟨⟨part, member, rfl⟩, some⟩, rfl, rfl⟩
        exact ⟨rfl, part, member, rfl, by simpa using some⟩
      · rintro ⟨rfl, part, member, rfl, some⟩
        exact ⟨strip part, ⟨⟨part, member, rfl⟩, by simpa using some⟩, rfl, rfl⟩
    rw [ih others, ofFirst, or_assoc, List.exists_mem_cons_iff]

/-- The loop has ended for every section. -/
theorem boundedParts_of_chunkSections {found : List Section}
    (ended : chunker.chunkSections fuel request outputs found = some chunks) :
    ∀ s ∈ found, ∃ parts, chunker.boundedParts fuel s.text = some parts := by
  induction found generalizing outputs with
  | nil => simp
  | cons first rest ih =>
    obtain ⟨parts, bounded, others⟩ := Option.bind_eq_some_iff.mp ended
    intro s member
    cases List.mem_cons.mp member with
    | inl isFirst => exact ⟨parts, isFirst ▸ bounded⟩
    | inr later => exact ih others s later

theorem exists_chunkSections_iff {found : List Section} :
    (∃ fuel chunks, chunker.chunkSections fuel request outputs found = some chunks) ↔
      ∀ s ∈ found, chunker.Terminates s.text := by
  constructor
  · rintro ⟨fuel, chunks, ended⟩ s member
    exact ⟨fuel, boundedParts_of_chunkSections ended s member⟩
  · intro terminates
    induction found generalizing outputs with
    | nil => exact ⟨0, outputs, rfl⟩
    | cons first rest ih =>
      obtain ⟨fuel, parts, bounded⟩ := terminates first List.mem_cons_self
      obtain ⟨more, chunks, others⟩ := @ih (parts.foldl (appendChunk request first.heading) outputs)
        fun s member => terminates s (List.mem_cons_of_mem _ member)
      exact ⟨max fuel more, chunks, Option.bind_eq_some_iff.mpr ⟨parts,
        boundedParts_mono bounded (by omega), chunkSections_mono others (by omega)⟩⟩

/-- `chunk` returns: there is room behind an overlap, or no section needs a second part. -/
def Returns (chunker : StructuralChunker) (markdown : List Char) : Prop :=
  chunker.overlapChars + 2 < chunker.maxChars ∨ ∀ s ∈ sections markdown,
    (['\n', '\n'].intercalate (paragraphs s.text)).length ≤ chunker.maxChars

theorem exists_chunk_iff_returns {markdown : List Char} :
    (∃ fuel chunks, chunker.chunk fuel request markdown = some chunks) ↔ chunker.Returns markdown := by
  refine exists_chunkSections_iff.trans ?_
  simp only [terminates_iff_room_or_fits]
  by_cases room : chunker.overlapChars + 2 < chunker.maxChars
  · simp [room, Returns]
  · simp [room, Returns]

/-- A text that a heading may have: not empty, without line breaks and without white space at its
    ends. -/
structure HeadingText (text : List Char) : Prop where
  nonempty : text ≠ []
  oneLine : '\n' ∉ text
  stripped : strip text = text

theorem HeadingText.compact (heading : HeadingText text) : Compact text where
  noBlank occurs := heading.oneLine (occurs.subset List.mem_cons_self)
  head isHead := heading.oneLine (List.mem_of_mem_head? isHead)
  last isLast := heading.oneLine (List.mem_of_getLast? isLast)

theorem HeadingText.of_line {markdown line : List Char} (member : line ∈ splitlines markdown)
    (found : headingText line = some text) (nonempty : text ≠ []) : HeadingText text := by
  have within : text <:+: line ∧ strip text = text := by
    unfold headingText at found
    simp only at found
    split at found
    next space c rest split =>
      split at found
      · cases found
        have suffix : c :: rest <:+: line :=
          (List.suffix_cons space _).isInfix.trans (split ▸ (List.dropWhile_suffix _).isInfix)
        exact ⟨( strip_within _).trans suffix, strip_strip _⟩
      · cases found
    next => cases found
  exact ⟨nonempty, fun newline => newline_notMem_splitlines markdown line member (within.1.subset newline),
    within.2⟩

theorem HeadingText.infix_strip_iff (heading : HeadingText text) {part : List Char} :
    text <:+: strip part ↔ text <:+: part := by
  constructor
  · exact fun occurs => occurs.trans ( strip_within part)
  · refine infix_strip heading.nonempty ?_ ?_
    · exact heading.stripped ▸ head_strip text
    · exact heading.stripped ▸ getLast_strip text

/-- The text is the heading of a chunk or in its content. -/
def HeadingFound (chunks : List DocumentChunk) (text : List Char) : Prop :=
  ∃ c ∈ chunks, c.heading = some text ∨ text <:+: c.content

/-- The text is the heading of a section with a paragraph, or in a paragraph that is not cut there. -/
def KeptIn (chunker : StructuralChunker) (text : List Char) (found : Section) : Prop :=
  (found.heading = some text ∧ paragraphs found.text ≠ []) ∨
    KeptAt chunker text 0 (paragraphs found.text)

theorem headingFound_iff_section {markdown : List Char} (heading : HeadingText text)
    (ended : chunker.chunk fuel request markdown = some chunks) :
    HeadingFound chunks text ↔ ∃ s ∈ sections markdown, KeptIn chunker text s := by
  have entries := mem_chunkSections ended
  constructor
  · rintro ⟨c, member, shows⟩
    obtain ⟨s, inSections, sameHeading, parts, bounded, part, inParts, isContent, some⟩ :=
      ((entries (shown c)).mp (List.mem_map_of_mem member)).resolve_left (by simp)
    refine ⟨s, inSections, ?_⟩
    cases shows with
    | inl isHeading =>
      refine .inl ⟨sameHeading.symm.trans isHeading, fun none => ?_⟩
      simp only [boundedParts, none, fillAll, Option.map_some, Option.some.injEq] at bounded
      subst bounded
      cases inParts
    | inr inContent =>
      refine .inr ((boundedParts_holds heading.compact heading.nonempty bounded).mp ⟨part, inParts, ?_⟩)
      rw [← heading.infix_strip_iff, isContent]
      exact inContent
  · rintro ⟨s, inSections, kept⟩
    obtain ⟨parts, bounded⟩ := boundedParts_of_chunkSections ended s inSections
    have chunkOf {part : List Char} (inParts : part ∈ parts) (some : strip part ≠ []) :
        ∃ c ∈ chunks, c.heading = s.heading ∧ c.content = strip part := by
      have listed := (entries (s.heading, strip part)).mpr
        (.inr ⟨s, inSections, rfl, parts, bounded, part, inParts, rfl, some⟩)
      obtain ⟨c, member, same⟩ := List.mem_map.mp listed
      exact ⟨c, member, (Prod.mk.inj same).1, (Prod.mk.inj same).2⟩
    cases kept with
    | inl headed =>
      obtain ⟨part, inParts, visible⟩ := exists_visible_part headed.2 bounded
      obtain ⟨c, member, sameHeading, -⟩ := chunkOf inParts visible
      exact ⟨c, member, .inl (sameHeading.trans headed.1)⟩
    | inr inText =>
      obtain ⟨part, inParts, occurs⟩ :=
        (boundedParts_holds heading.compact heading.nonempty bounded).mpr inText
      have inStrip := heading.infix_strip_iff.mpr occurs
      have visible : strip part ≠ [] := by
        intro blank
        rw [blank, List.infix_nil] at inStrip
        exact heading.nonempty inStrip
      obtain ⟨c, member, -, sameContent⟩ := chunkOf inParts visible
      exact ⟨c, member, .inr (sameContent ▸ inStrip)⟩

/-! ## Where headings are kept -/

/-- Where the text of a heading is kept: over a line of the body; in a paragraph between two
    headings that is not cut there; or, in a document without a body, in a paragraph of the whole
    document. -/
def HeadingKept (chunker : StructuralChunker) (markdown text : List Char) : Prop :=
  HeadsBody (splitlines markdown) text ∨
    (∃ before body, Stretch (splitlines markdown) before body ∧
      KeptAt chunker text 0 (paragraphs (['\n'].intercalate body))) ∨
    ((∀ line ∈ splitlines markdown, isBody line = false) ∧ KeptAt chunker text 0 (paragraphs markdown))

theorem not_keptAt_nil {level : Nat} : ¬ KeptAt chunker text level [] := by
  rintro ⟨before, paragraph, after, impossible, -⟩
  simp at impossible

/-- A document without a body is one section. -/
theorem sections_of_no_body {markdown : List Char}
    (noBody : ∀ line ∈ splitlines markdown, isBody line = false) : sections markdown = [⟨none, markdown⟩] := by
  unfold sections
  rw [close_eq_nil_iff.mpr noBody]

/-- The sections of a document with a body are its stretches. -/
theorem mem_sections_iff {markdown : List Char} {found : Section}
    (body : ¬ ∀ line ∈ splitlines markdown, isBody line = false) :
    found ∈ sections markdown ↔
      ∃ before body, Stretch (splitlines markdown) before body ∧ StretchSection before body found := by
  rw [← mem_close_iff]
  rw [← close_eq_nil_iff] at body
  unfold sections
  split
  next nothing => exact absurd nothing body
  next => rfl

theorem any_notBlank_of_keptAt {body : List (List Char)} {level : Nat}
    (kept : KeptAt chunker text level (paragraphs (['\n'].intercalate body))) :
    body.any notBlank = true := by
  refine any_notBlank_iff.mpr fun none => ?_
  rw [none] at kept
  exact not_keptAt_nil kept

theorem sections_keep_iff {markdown : List Char} :
    (∃ s ∈ sections markdown, KeptIn chunker text s) ↔ HeadingKept chunker markdown text := by
  by_cases noBody : ∀ line ∈ splitlines markdown, isBody line = false
  · -- neither a heading over a body nor a stretch with a paragraph
    have noHeads : ¬ HeadsBody (splitlines markdown) text := by
      rintro ⟨before, heading, between, line, after, split, -, -, isLine⟩
      rw [noBody line (by simp [split])] at isLine
      cases isLine
    have noStretch : ¬ ∃ before body, Stretch (splitlines markdown) before body ∧
        KeptAt chunker text 0 (paragraphs (['\n'].intercalate body)) := by
      rintro ⟨before, body, stretch, kept⟩
      have found := mem_close_iff.mpr ⟨before, body, stretch, any_notBlank_of_keptAt kept, rfl⟩
      rw [close_eq_nil_iff.mpr noBody] at found
      cases found
    rw [HeadingKept, or_iff_right noHeads, or_iff_right noStretch, and_iff_right noBody,
      sections_of_no_body noBody]
    simp [KeptIn]
  · unfold HeadingKept
    rw [headsBody_iff, or_iff_left (b := _ ∧ KeptAt chunker text 0 (paragraphs markdown))
      fun fallback => noBody fallback.1]
    constructor
    · rintro ⟨s, member, kept⟩
      obtain ⟨before, body, stretch, visible, rfl⟩ := (mem_sections_iff noBody).mp member
      cases kept with
      | inl headed => exact .inl ⟨before, body, stretch, visible, headed.1⟩
      | inr inText => exact .inr ⟨before, body, stretch, inText⟩
    · rintro (⟨before, body, stretch, visible, headed⟩ | ⟨before, body, stretch, inText⟩)
      · exact ⟨_, (mem_sections_iff noBody).mpr ⟨before, body, stretch, visible, rfl⟩,
          .inl ⟨headed, any_notBlank_iff.mp visible⟩⟩
      · have visible := any_notBlank_of_keptAt inText
        exact ⟨_, (mem_sections_iff noBody).mpr ⟨before, body, stretch, visible, rfl⟩, .inr inText⟩

/-- The texts of the headings, apart from blank ones. -/
def IsHeadingOf (markdown text : List Char) : Prop :=
  ∃ line ∈ splitlines markdown, headingText line = some text ∧ text ≠ []

/-- `chunk` returns chunks with every heading, as their heading or in their content, exactly if it
    returns and every heading is kept. -/
theorem headings_found_iff (chunker : StructuralChunker) (request : ChunkRequest)
    (markdown : List Char) :
    (∃ fuel chunks, chunker.chunk fuel request markdown = some chunks ∧
        ∀ text, IsHeadingOf markdown text → HeadingFound chunks text) ↔
      chunker.Returns markdown ∧
        ∀ text, IsHeadingOf markdown text → HeadingKept chunker markdown text := by
  have found_iff_kept {fuel : Nat} {chunks : List DocumentChunk}
      (returned : chunker.chunk fuel request markdown = some chunks) {text : List Char}
      (isHeading : IsHeadingOf markdown text) :
      HeadingFound chunks text ↔ HeadingKept chunker markdown text := by
    obtain ⟨line, member, found, nonempty⟩ := isHeading
    rw [headingFound_iff_section (.of_line member found nonempty) returned, sections_keep_iff]
  constructor
  · rintro ⟨fuel, chunks, returned, all⟩
    exact ⟨exists_chunk_iff_returns.mp ⟨fuel, chunks, returned⟩,
      fun text isHeading => (found_iff_kept returned isHeading).mp (all text isHeading)⟩
  · rintro ⟨returns, kept⟩
    obtain ⟨fuel, chunks, returned⟩ := exists_chunk_iff_returns.mpr returns
    exact ⟨fuel, chunks, returned,
      fun text isHeading => (found_iff_kept returned isHeading).mpr (kept text isHeading)⟩

/-- A request for one document. -/
def sampleRequest : ChunkRequest := ⟨⟨0xa⟩, ⟨0xd⟩, none⟩

/-- The heading of a section that begins with another heading is in no chunk. -/
theorem heading_lost : ∃ chunks,
    chunk ⟨200, 20, by decide, by decide⟩ 10 sampleRequest
        "# Security\n## Access control\nKeys are rotated.".toList = some chunks ∧
      ¬ ∀ text, IsHeadingOf "# Security\n## Access control\nKeys are rotated.".toList text →
        HeadingFound chunks text := by
  have computed : (chunk ⟨200, 20, by decide, by decide⟩ 10 sampleRequest
      "# Security\n## Access control\nKeys are rotated.".toList).map (fun chunks => chunks.map shown) =
      some [(some "Access control".toList, "Keys are rotated.".toList)] := by decide +kernel
  obtain ⟨chunks, returned, entries⟩ := Option.map_eq_some_iff.mp computed
  refine ⟨chunks, returned, fun all => ?_⟩
  obtain ⟨c, member, shows⟩ := all "Security".toList ⟨"# Security".toList, by decide, by decide, by decide⟩
  have entry : shown c ∈ chunks.map shown := List.mem_map_of_mem member
  rw [entries, List.mem_singleton] at entry
  obtain ⟨heading, content⟩ := Prod.mk.inj entry
  rw [heading, content] at shows
  revert shows
  decide

end StructuralChunker

end SupplierAssurance.Retrieval
