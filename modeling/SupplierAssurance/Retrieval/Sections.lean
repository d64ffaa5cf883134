import SupplierAssurance.Python.Json
import SupplierAssurance.Retrieval.Chunking

/-! # `packages/retrieval/chunking.py`: sections and chunks

`_sections` cuts the lines of a document at its heading lines, and `chunk` turns the parts of
each section into numbered chunks.

A section is a block of lines without a heading between two headings.  `Outlined` states what
the loop of `_sections` has found in the lines it has read so far.
-/

namespace SupplierAssurance.Retrieval

open SupplierAssurance.Lib SupplierAssurance.Python

/-! ## `_sections` -/

/-- `_HEADING.match(line)` and `match.group(2).strip()`, for a line without line breaks: one to
    six marks, white space, and at least one more character.  The match is backtracked into the
    white space, so that the text may be blank. -/
def headingText (line : List Char) : Option (List Char) :=
  let marks := (line.takeWhile fun c => c = '#').length
  match line.dropWhile fun c => c = '#' with
  | space :: c :: rest =>
    if 1 ≤ marks ∧ marks ≤ 6 ∧ isSpace space then some (strip (c :: rest)) else none
  | _ => none

example : headingText "## Data  ".toList = some "Data".toList := by decide
example : headingText "#  ".toList = some [] := by decide
example : headingText "# ".toList = none := by decide
example : headingText "####### Data".toList = none := by decide

/-- `_Section`. -/
structure Section where
  heading : Option (List Char)
  text : List Char
deriving DecidableEq, Repr

/-- `item.strip()` is true. -/
def notBlank (line : List Char) : Bool :=
  !(strip line).isEmpty

/-- The variables of the `for` loop. -/
structure Outline where
  sections : List Section
  heading : Option (List Char)
  lines : List (List Char)

namespace Outline

/-- The section of the lines collected so far, if one of them is not blank. -/
def close (outline : Outline) : List Section :=
  if outline.lines.any notBlank then
    outline.sections ++ [⟨outline.heading, ['\n'].intercalate outline.lines⟩]
  else outline.sections

def readLine (outline : Outline) (line : List Char) : Outline :=
  match headingText line with
  | some heading => ⟨outline.close, some heading, []⟩
  | none => { outline with lines := outline.lines ++ [line] }

end Outline

/-- `_sections`. -/
def sections (markdown : List Char) : List Section :=
  match ((splitlines markdown).foldl Outline.readLine ⟨[], none, []⟩).close with
  | [] => [⟨none, markdown⟩]
  | found => found

/-! ## `chunk` -/

structure DocumentChunk where
  id : UUID
  documentId : UUID
  caseId : UUID
  position : Nat
  heading : Option (List Char)
  content : List Char
  tokenCount : Nat
  metadata : List (String × Json)
  content_ne_nil : content ≠ []
  tokenCount_pos : 1 ≤ tokenCount

/-- The arguments of `chunk` besides the text. -/
structure ChunkRequest where
  caseId : UUID
  documentId : UUID
  metadata : Option (List (String × Json))

/-- The body of the inner loop. -/
def appendChunk (request : ChunkRequest) (heading : Option (List Char)) (outputs : List DocumentChunk)
    (text : List Char) : List DocumentChunk :=
  let content := strip text
  if empty : content = [] then outputs
  else
    let position := outputs.length
    outputs ++ [{
      id := uuid5 NAMESPACE_URL
        (request.documentId.str ++ ":" ++ toString position ++ ":" ++ String.ofList content)
      documentId := request.documentId
      caseId := request.caseId
      position := position
      heading := heading
      content := content
      tokenCount := max 1 (splitWords content).length
      metadata := request.metadata.getD []
      content_ne_nil := empty
      tokenCount_pos := Nat.le_max_left _ _
    }]

namespace StructuralChunker

variable (chunker : StructuralChunker)

/-- The loop over the sections, each `while` loop in it with at most `fuel` iterations. -/
def chunkSections (fuel : Nat) (request : ChunkRequest) :
    List DocumentChunk → List Section → Option (List DocumentChunk)
  | outputs, [] => some outputs
  | outputs, found :: rest =>
    (chunker.boundedParts fuel found.text).bind fun parts =>
      chunkSections fuel request (parts.foldl (appendChunk request found.heading) outputs) rest

/-- `chunk`; `none` when a `while` loop needs more than `fuel` iterations. -/
def chunk (fuel : Nat) (request : ChunkRequest) (markdown : List Char) :
    Option (List DocumentChunk) :=
  chunker.chunkSections fuel request [] (sections markdown)

end StructuralChunker

end SupplierAssurance.Retrieval
