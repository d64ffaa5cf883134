import SupplierAssurance.Retrieval.Coverage
import SupplierAssurance.Retrieval.Cuts

/-! # Parts that repeat the overlap only

A flush leaves the overlap in the part in progress.  What comes next is joined to it, unless nothing
comes next: a last paragraph that ends exactly where the part is full leaves a last part that is
the overlap alone.
-/

namespace SupplierAssurance.Retrieval.StructuralChunker

open SupplierAssurance.Lib SupplierAssurance.Python

/-- Behind the overlap with the part before it, the part has text of a paragraph. -/
def BringsNew (overlap : Nat) (paragraphs : List (List Char)) (previous part : List Char) : Prop :=
  ∃ front piece, part = lastChars overlap previous ++ (front ++ piece) ∧ piece ≠ [] ∧
    ∃ paragraph ∈ paragraphs, piece <:+: paragraph

/-- Every part brings text, the first one behind nothing. -/
def NoRepetition (overlap : Nat) (paragraphs parts : List (List Char)) : Prop :=
  (([] : List Char) :: parts).IsChain (BringsNew overlap paragraphs)

variable {chunker : StructuralChunker} {state filled : Filling} {all : List (List Char)}
  {overlap : Nat} {previous part : List Char}

theorem BringsNew.longer (brings : BringsNew overlap all previous part) :
    (lastChars overlap previous).length < part.length := by
  obtain ⟨front, piece, rfl, some, -⟩ := brings
  have positive := List.length_pos_iff.mpr some
  simp only [List.length_append]
  omega

/-- More of a paragraph behind what a part has. -/
theorem bringsNew_join {front piece : List Char} (some : piece ≠ [])
    (inText : ∃ paragraph ∈ all, piece <:+: paragraph) :
    BringsNew overlap all previous (join (lastChars overlap previous ++ front) piece) := by
  obtain ⟨gap, joined, -⟩ := join_eq_append (lastChars overlap previous ++ front) piece
  refine ⟨front ++ gap, piece, ?_, some, inText⟩
  rw [joined]
  simp only [List.append_assoc]

/-! ## The part in progress -/

/-- The part that was flushed last. -/
def lastPart (state : Filling) : List Char :=
  state.parts.getLast?.getD []

/-- The flushed parts bring text; the part in progress does too, or is the overlap. -/
structure Advancing (chunker : StructuralChunker) (all : List (List Char)) (state : Filling) : Prop where
  flushed : NoRepetition chunker.overlapChars all state.parts
  current : state.current = lastChars chunker.overlapChars (lastPart state) ∨
    BringsNew chunker.overlapChars all (lastPart state) state.current

/-- What a paragraph leaves: the overlap if it ends at a cut, and otherwise a part with text. -/
structure Leaves (chunker : StructuralChunker) (all : List (List Char)) (isCut : Prop)
    (filled : Filling) : Prop where
  advancing : Advancing chunker all filled
  ends : (isCut ∧ filled.current = lastChars chunker.overlapChars (lastPart filled) ∧
      filled.current.length = chunker.overlapChars) ∨
    (¬ isCut ∧ BringsNew chunker.overlapChars all (lastPart filled) filled.current)

theorem noRepetition_concat {parts : List (List Char)} :
    NoRepetition overlap all (parts ++ [part]) ↔
      NoRepetition overlap all parts ∧ BringsNew overlap all (parts.getLast?.getD []) part := by
  unfold NoRepetition
  rw [← List.cons_append, List.isChain_append]
  simp [List.getLast?_cons]

theorem Advancing.join (advancing : Advancing chunker all state) {piece : List Char} (some : piece ≠ [])
    (inText : ∃ paragraph ∈ all, piece <:+: paragraph) :
    BringsNew chunker.overlapChars all (lastPart state) (StructuralChunker.join state.current piece) := by
  cases advancing.current with
  | inl overlapped =>
    have joined := @bringsNew_join all chunker.overlapChars (lastPart state) [] piece some inText
    rwa [List.append_nil, ← overlapped] at joined
  | inr brings =>
    obtain ⟨front, old, isCurrent, -, -⟩ := brings
    rw [isCurrent]
    exact bringsNew_join some inText

theorem flush_advancing (flushed : NoRepetition chunker.overlapChars all state.parts)
    (brings : BringsNew chunker.overlapChars all (lastPart state) state.current) :
    Advancing chunker all (chunker.flush state) where
  flushed := noRepetition_concat.mpr ⟨flushed, brings⟩
  current := .inl (by simp [flush, lastPart])

/-- A part without room is longer than the overlap. -/
theorem Advancing.of_full (advancing : Advancing chunker all state)
    (room : chunker.overlapChars + 2 < chunker.maxChars)
    (full : chunker.maxChars ≤ state.current.length + 2) : Advancing chunker all (chunker.flush state) := by
  refine flush_advancing advancing.flushed (advancing.current.resolve_left fun overlapped => ?_)
  have short := length_lastChars chunker.overlapChars (lastPart state)
  rw [← overlapped] at short
  omega

theorem Advancing.cutOff (advancing : Advancing chunker all state)
    (room : chunker.overlapChars + 2 < chunker.maxChars) (left : state.remaining ≠ [])
    (inText : ∃ paragraph ∈ all, state.remaining <:+: paragraph) :
    Advancing chunker all (chunker.cutOff state) := by
  refine flush_advancing advancing.flushed (advancing.join ?_ ?_)
  · have positive := roomFor_pos room state.current.length
    rw [ne_eq, List.take_eq_nil_iff]
    rintro (zero | empty)
    · omega
    · exact left empty
  · obtain ⟨paragraph, member, occurs⟩ := inText
    exact ⟨paragraph, member, (List.take_prefix _ _).isInfix.trans occurs⟩

/-- A cut in the middle of a paragraph leaves the question where its end is cut as it was. -/
theorem cutAt_cutOff (hasRoom : state.current.length + 2 < chunker.maxChars)
    (reaches : chunker.roomFor state.current.length < state.remaining.length) :
    chunker.CutAt state.current.length state.remaining.length ↔
      chunker.CutAt (chunker.cutOff state).current.length (chunker.cutOff state).remaining.length := by
  have remaining : (chunker.cutOff state).remaining =
      state.remaining.drop (chunker.roomFor state.current.length) := rfl
  have behind := @cutAt_behind chunker state.current.length
    (state.remaining.length - chunker.roomFor state.current.length) (by omega)
  rw [Nat.add_sub_cancel' reaches.le] at behind
  rw [length_cutOff hasRoom reaches.le, remaining, List.length_drop, behind]

/-- So does a flush of a part without room. -/
theorem cutAt_flush (room : chunker.overlapChars + 2 < chunker.maxChars)
    (full : chunker.maxChars ≤ state.current.length + 2) :
    chunker.CutAt state.current.length state.remaining.length ↔
      chunker.CutAt (chunker.flush state).current.length (chunker.flush state).remaining.length := by
  rw [length_flush full room, cutAt_of_full full]
  rfl

/-- The invariant of the loop over one paragraph: the part in progress ends up as the overlap alone
    if and only if the paragraph ends at one of its cuts. -/
theorem fill_leaves (room : chunker.overlapChars + 2 < chunker.maxChars) {fuel : Nat}
    (left : state.remaining ≠ []) (inText : ∃ paragraph ∈ all, state.remaining <:+: paragraph)
    (advancing : Advancing chunker all state) (ended : chunker.fill fuel state = some filled) :
    Leaves chunker all (chunker.CutAt state.current.length state.remaining.length) filled := by
  refine fill_rule (P := fun state filled => state.remaining ≠ [] →
    (∃ paragraph ∈ all, state.remaining <:+: paragraph) → Advancing chunker all state →
    Leaves chunker all (chunker.CutAt state.current.length state.remaining.length) filled)
    ?_ ?_ ?_ ?_ left ended left inText advancing
  · -- the rest fits: it is joined to the part, which is short of a cut
    intro state _ ends left inText advancing
    have brings := advancing.join left inText
    refine ⟨⟨advancing.flushed, .inr brings⟩, .inr ⟨fun isCut => ?_, brings⟩⟩
    have far := roomFor_le_of_cutAt isCut
    omega
  · -- the rest fills the part, which is flushed although nothing is left to read
    intro state hasRoom last left inText advancing
    have cut := advancing.cutOff room left inText
    refine ⟨cut, .inl ⟨?_, by simp [StructuralChunker.cutOff, flush, lastPart],
      length_cutOff hasRoom last.ge⟩⟩
    rw [last]
    exact cutAt_first chunker _
  · -- the paragraph is cut and goes on behind the overlap
    intro state filled _ hasRoom reaches later left inText advancing
    have more : (chunker.cutOff state).remaining ≠ [] := by
      change state.remaining.drop (chunker.roomFor state.current.length) ≠ []
      rw [ne_eq, List.drop_eq_nil_iff]
      omega
    obtain ⟨paragraph, member, occurs⟩ := inText
    have suffix : (chunker.cutOff state).remaining <:+: paragraph :=
      (List.drop_suffix _ _).isInfix.trans occurs
    rw [cutAt_cutOff hasRoom reaches]
    exact later more ⟨paragraph, member, suffix⟩
      (advancing.cutOff room left ⟨paragraph, member, occurs⟩)
  · -- a part without room is flushed before anything is read
    intro state filled _ full later left inText advancing
    rw [cutAt_flush room full]
    exact later left inText (advancing.of_full room full)

/-! ## All paragraphs -/

theorem fillAll_leaves (room : chunker.overlapChars + 2 < chunker.maxChars) {fuel : Nat}
    {before : List (List Char)} {last : List Char} (nonempty : ∀ p ∈ before ++ [last], p ≠ [])
    (inText : ∀ p ∈ before ++ [last], p ∈ all) (advancing : Advancing chunker all state)
    (ended : chunker.fillAll fuel state (before ++ [last]) = some filled) :
    Leaves chunker all
      (chunker.CutAt (chunker.levelPastAll state.current.length before) last.length) filled := by
  induction before generalizing state with
  | nil =>
    obtain ⟨middle, first, others⟩ := Option.bind_eq_some_iff.mp ended
    cases others
    have some : last ≠ [] := nonempty last (by simp)
    have found : last ∈ all := inText last (by simp)
    exact @fill_leaves _ { state with remaining := last } _ _ room _ some
      ⟨last, found, List.infix_rfl⟩ ⟨advancing.flushed, advancing.current⟩ first
  | cons paragraph rest ih =>
    obtain ⟨middle, first, others⟩ := Option.bind_eq_some_iff.mp ended
    have some : paragraph ≠ [] := nonempty paragraph (by simp)
    have found : paragraph ∈ all := inText paragraph (by simp)
    have leaves := @fill_leaves _ { state with remaining := paragraph } _ _ room _ some
      ⟨paragraph, found, List.infix_rfl⟩ ⟨advancing.flushed, advancing.current⟩ first
    have level := @fill_level _ { state with remaining := paragraph } _ _ some first
    have later := ih (fun p member => nonempty p (List.mem_cons_of_mem _ member))
      (fun p member => inText p (List.mem_cons_of_mem _ member)) leaves.advancing others
    rw [level] at later
    exact later

/-! ## The parts of a text -/

/-- No last paragraph that ends where it is cut, unless there is no overlap. -/
def EndsUncut (chunker : StructuralChunker) (paragraphs : List (List Char)) : Prop :=
  chunker.overlapChars = 0 ∨ ∀ before last, paragraphs = before ++ [last] →
    ¬ chunker.CutAt (chunker.levelPastAll 0 before) last.length

theorem endsUncut_append {before : List (List Char)} {last : List Char} :
    chunker.EndsUncut (before ++ [last]) ↔
      chunker.overlapChars = 0 ∨ ¬ chunker.CutAt (chunker.levelPastAll 0 before) last.length := by
  refine or_congr_right ⟨fun all => all before last rfl, ?_⟩
  intro uncut before' last' split
  obtain ⟨rfl, sameLast⟩ := List.append_inj' split rfl
  cases sameLast
  exact uncut

/-- The parts of a text.  What the last paragraph leaves becomes the last part if it is not empty. -/
theorem noRepetition_iff (room : chunker.overlapChars + 2 < chunker.maxChars) {fuel : Nat}
    {text : List Char} {parts : List (List Char)} (ended : chunker.boundedParts fuel text = some parts) :
    NoRepetition chunker.overlapChars (paragraphs text) parts ↔
      chunker.EndsUncut (paragraphs text) := by
  obtain ⟨filled, filling, last⟩ := Option.map_eq_some_iff.mp ended
  rcases List.eq_nil_or_concat (paragraphs text) with none | ⟨before, paragraph, split⟩
  · rw [none] at filling ⊢
    cases filling
    cases last
    refine iff_of_true (.singleton _) (.inr fun before last impossible => ?_)
    simp at impossible
  rw [List.concat_eq_append] at split
  have start : Advancing chunker (paragraphs text) ⟨[], [], []⟩ :=
    ⟨.singleton _, .inl (by simp [lastPart, lastChars])⟩
  rw [split] at filling
  have leaves := fillAll_leaves room
    (fun p member => ne_nil_of_mem_paragraphs (split ▸ member : p ∈ paragraphs text))
    (fun p member => (split ▸ member : p ∈ paragraphs text)) start filling
  rw [split, endsUncut_append, ← split]
  subst last
  rcases leaves.ends with ⟨isCut, overlapped, length⟩ | ⟨uncut, brings⟩
  · by_cases zero : chunker.overlapChars = 0
    · have empty : filled.current = [] := List.eq_nil_of_length_eq_zero (length.trans zero)
      refine iff_of_true ?_ (.inl zero)
      simpa [empty] using leaves.advancing.flushed
    · -- the overlap itself is the last part
      have some : filled.current.isEmpty = false := by
        rw [List.isEmpty_eq_false_iff, ← List.length_pos_iff]
        omega
      refine iff_of_false ?_ (not_or.mpr ⟨zero, not_not.mpr isCut⟩)
      rw [if_neg (by simp [some]), noRepetition_concat]
      rintro ⟨-, brings⟩
      have longer := brings.longer
      rw [overlapped] at longer
      exact absurd longer (Nat.lt_irrefl _)
  · have some : filled.current ≠ [] := by
      intro empty
      have longer := brings.longer
      rw [empty] at longer
      exact absurd longer (Nat.not_lt_zero _)
    refine iff_of_true ?_ (.inr uncut)
    rw [if_neg (by simpa using some)]
    exact noRepetition_concat.mpr ⟨leaves.advancing.flushed, brings⟩

theorem roomFor_zero (chunker : StructuralChunker) : chunker.roomFor 0 = chunker.maxChars := by
  have big := chunker.maxChars_ge
  simp [roomFor, opened_of_room (show 0 + 2 < chunker.maxChars by omega)]

/-- The loop over a first paragraph that fits. -/
theorem fill_of_fits {fuel : Nat} {paragraph : List Char} (nonempty : paragraph ≠ [])
    (fits : paragraph.length ≤ chunker.maxChars)
    (ended : chunker.fill fuel ⟨[], [], paragraph⟩ = some filled) :
    (paragraph.length < chunker.maxChars ∧ filled = ⟨[], paragraph, []⟩) ∨
      (paragraph.length = chunker.maxChars ∧
        filled = ⟨[paragraph], lastChars chunker.overlapChars paragraph, []⟩) := by
  have big := chunker.maxChars_ge
  have space := roomFor_zero chunker
  cases fuel with
  | zero => simp [fill, loop, nonempty] at ended
  | succ fuel =>
    rw [fill_next nonempty, iteration_eq, if_neg (by simp; omega)] at ended
    simp only [List.length_nil, space] at ended
    split at ended
    next short =>
      rw [fill_done rfl] at ended
      cases ended
      exact .inl ⟨short, by simp [joinAll, join]⟩
    next exact_ =>
      have whole : paragraph.length = chunker.maxChars := by omega
      have cut : chunker.cutOff ⟨[], [], paragraph⟩ =
          ⟨[paragraph], lastChars chunker.overlapChars paragraph, []⟩ := by
        simp [cutOff, flush, join, space, ← whole]
      rw [cut, fill_done rfl] at ended
      cases ended
      exact .inr ⟨whole, rfl⟩

/-- A paragraph that fits gives one part, unless it fills it and the overlap becomes another. -/
theorem length_boundedParts_of_fits {fuel : Nat} {text paragraph : List Char}
    {parts : List (List Char)} (single : paragraphs text = [paragraph])
    (fits : paragraph.length ≤ chunker.maxChars) (ended : chunker.boundedParts fuel text = some parts) :
    parts.length = 1 ↔ chunker.overlapChars = 0 ∨ paragraph.length < chunker.maxChars := by
  have some : paragraph ≠ [] := ne_nil_of_mem_paragraphs (single ▸ List.mem_singleton_self paragraph)
  obtain ⟨filled, filling, rfl⟩ := Option.map_eq_some_iff.mp ended
  rw [single] at filling
  obtain ⟨middle, first, others⟩ := Option.bind_eq_some_iff.mp filling
  cases others
  have positive := List.length_pos_iff.mpr some
  rcases @fill_of_fits _ filled _ _ some fits first with ⟨short, rfl⟩ | ⟨whole, rfl⟩
  · exact iff_of_true (by simp [some]) (.inr short)
  · have length := length_lastChars chunker.overlapChars paragraph
    have empty : lastChars chunker.overlapChars paragraph = [] ↔ chunker.overlapChars = 0 := by
      rw [← List.length_eq_zero_iff, length]
      omega
    rw [or_iff_left (by omega)]
    split
    next none => exact iff_of_true rfl (empty.mp (List.isEmpty_iff.mp none))
    next more => exact iff_of_false (by simp) fun zero => more (List.isEmpty_iff.mpr (empty.mpr zero))

/-- Every part brings text of its own unless the last paragraph ends where it is cut; then the last
    part is the overlap alone.  A text of one paragraph that fits is such a text if the paragraph
    fills its part. -/
theorem no_repetition_iff (room : chunker.overlapChars + 2 < chunker.maxChars) (text : List Char) :
    ∃ fuel parts, chunker.boundedParts fuel text = some parts ∧
      (NoRepetition chunker.overlapChars (paragraphs text) parts ↔
        chunker.EndsUncut (paragraphs text)) ∧
      ∀ paragraph, paragraphs text = [paragraph] → paragraph.length ≤ chunker.maxChars →
        (parts.length = 1 ↔ chunker.overlapChars = 0 ∨ paragraph.length < chunker.maxChars) := by
  obtain ⟨fuel, parts, -, ended, -, -, -⟩ := boundedParts_decomposes room text
  exact ⟨fuel, parts, ended, noRepetition_iff room ended, fun paragraph single fits =>
    length_boundedParts_of_fits single fits ended⟩

theorem no_repetition_iff_short_paragraph : ∃ fuel parts,
    boundedParts ⟨200, 20, by decide, by decide⟩ fuel "Backups are encrypted.".toList = some parts ∧
      parts.length = 1 := by
  have single : paragraphs "Backups are encrypted.".toList = ["Backups are encrypted.".toList] := by
    decide
  obtain ⟨fuel, parts, ended, -, one⟩ := @no_repetition_iff ⟨200, 20, by decide, by decide⟩ (by decide)
    "Backups are encrypted.".toList
  exact ⟨fuel, parts, ended, (one _ single (by decide)).mpr (.inr (by decide))⟩

/-- One paragraph of 200 characters fills a part of 200, and its last 20 characters become a part
    of their own. -/
theorem overlap_alone : ∃ fuel parts,
    boundedParts ⟨200, 20, by decide, by decide⟩ fuel (List.replicate 200 'a') = some parts ∧
      ¬ NoRepetition 20 (paragraphs (List.replicate 200 'a')) parts ∧ parts.length = 2 := by
  have computed : boundedParts ⟨200, 20, by decide, by decide⟩ 1 (List.replicate 200 'a') =
      some [List.replicate 200 'a', List.replicate 20 'a'] := by decide +kernel
  refine ⟨1, _, computed, ?_, rfl⟩
  intro brings
  have last := (List.isChain_cons_cons.mp (List.isChain_cons_cons.mp brings).2).1
  have longer := last.longer
  rw [length_lastChars, List.length_replicate, List.length_replicate] at longer
  omega

end SupplierAssurance.Retrieval.StructuralChunker
