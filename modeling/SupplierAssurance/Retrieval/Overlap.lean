import SupplierAssurance.Lib.Infix
import SupplierAssurance.Retrieval.Cuts

/-! # What the overlap keeps

A part starts with the last characters of the part before it, so that text around the end of
a part can be found in one piece.  But `_bounded_parts` joins whatever comes next with a blank
line, also when it is the rest of the paragraph that has just been cut: an occurrence with a
cut strictly inside is in no part.

Where a paragraph is cut follows from its length and from the length of the part that it is
begun in, and both are computed here from the lengths of the paragraphs alone.
-/

namespace SupplierAssurance.Retrieval.StructuralChunker

open SupplierAssurance.Lib SupplierAssurance.Python

/-! ## Parts that hold a word -/

variable {chunker : StructuralChunker} {word : List Char} {state filled : Filling}

/-- A word that a join with a blank line cannot bring about. -/
structure Compact (word : List Char) : Prop where
  noBlank : ¬ ['\n', '\n'] <:+: word
  head : '\n' ∉ word.head?
  last : '\n' ∉ word.getLast?

/-- Some part, flushed or in progress, contains the word. -/
def Holds (word : List Char) (state : Filling) : Prop :=
  (∃ part ∈ state.parts, word <:+: part) ∨ word <:+: state.current

/-- The overlap is in the part before it. -/
theorem holds_flush : Holds word (chunker.flush state) ↔ Holds word state := by
  have carried : word <:+: lastChars chunker.overlapChars state.current → word <:+: state.current :=
    fun occurs => occurs.trans (lastChars_suffix _ _).isInfix
  constructor
  · rintro (⟨part, member, occurs⟩ | occurs)
    · rcases List.mem_append.mp member with old | new
      · exact .inl ⟨part, old, occurs⟩
      · rw [List.mem_singleton.mp new] at occurs
        exact .inr occurs
    · exact .inr (carried occurs)
  · rintro (⟨part, member, occurs⟩ | occurs)
    · exact .inl ⟨part, List.mem_append_left _ member, occurs⟩
    · exact .inl ⟨state.current, List.mem_append_right _ (List.mem_singleton.mpr rfl), occurs⟩

theorem holds_join (compact : Compact word) (piece remaining : List Char) :
    Holds word { state with current := join state.current piece, remaining := remaining } ↔
      Holds word state ∨ word <:+: piece := by
  have joined : word <:+: join state.current piece ↔ word <:+: state.current ∨ word <:+: piece := by
    unfold join
    split
    next empty =>
      rw [List.isEmpty_iff.mp empty, List.infix_nil, or_iff_right_of_imp]
      rintro rfl
      exact List.nil_infix
    next => exact infix_append_cons_cons_iff compact.noBlank compact.head compact.last
  unfold Holds
  rw [joined, or_assoc]

/-- A paragraph keeps the word if it has it between two cuts. -/
theorem fill_holds (compact : Compact word) {fuel : Nat} (left : state.remaining ≠ [])
    (ended : chunker.fill fuel state = some filled) :
    Holds word filled ↔ Holds word state ∨
      OccursUncut (chunker.CutAt state.current.length) word state.remaining := by
  refine fill_rule (P := fun state filled => Holds word filled ↔ Holds word state ∨
    OccursUncut (chunker.CutAt state.current.length) word state.remaining) ?_ ?_ ?_ ?_ left ended
  · -- the rest fits: no cut lies inside it
    intro state _ ends
    rw [joinAll, holds_join compact, occursUncut_iff_occurs]
    intro n cut
    have := roomFor_le_of_cutAt cut
    omega
  · -- the rest fills the part: the cut is at its end
    intro state _ last
    have whole : state.remaining.drop (chunker.roomFor state.current.length) = [] := by
      rw [List.drop_eq_nil_iff, last]
    rw [cutOff, holds_flush, holds_join compact,
      occursUncut_iff_take_drop (cutAt_first chunker _) fun n => roomFor_le_of_cutAt, whole,
      occursUncut_nil, or_iff_left_of_imp (b := word = [])]
    rintro rfl
    exact List.nil_infix
  · -- a cut in the middle splits the rest in two
    intro state filled _ room reaches later
    rw [later, length_cutOff room reaches.le, cutOff, holds_flush, holds_join compact, or_assoc,
      occursUncut_iff_take_drop (cutAt_first chunker state.current.length) fun n =>
        roomFor_le_of_cutAt, occursUncut_congr fun n positive => cutAt_behind positive]
    rfl
  · -- a part without room is flushed before anything is read
    intro state filled room noRoom later
    rw [later, holds_flush, length_flush noRoom room, cutAt_of_full noRoom]
    rfl

/-- Some paragraph, begun at its level, has the word between two cuts. -/
def KeptAt (chunker : StructuralChunker) (word : List Char) (level : Nat)
    (paragraphs : List (List Char)) : Prop :=
  ∃ before paragraph after, paragraphs = before ++ paragraph :: after ∧
    OccursUncut (chunker.CutAt (chunker.levelPastAll level before)) word paragraph

theorem keptAt_cons {level : Nat} {paragraph : List Char} {rest : List (List Char)} :
    KeptAt chunker word level (paragraph :: rest) ↔
      OccursUncut (chunker.CutAt level) word paragraph ∨
        KeptAt chunker word (chunker.levelPast level paragraph.length) rest := by
  constructor
  · rintro ⟨before, found, after, split, uncut⟩
    cases before with
    | nil =>
      cases split
      exact .inl uncut
    | cons first before =>
      cases split
      exact .inr ⟨before, found, after, rfl, uncut⟩
  · rintro (uncut | ⟨before, found, after, rfl, uncut⟩)
    · exact ⟨[], paragraph, rest, rfl, uncut⟩
    · exact ⟨paragraph :: before, found, after, rfl, uncut⟩

theorem fillAll_holds (compact : Compact word) {fuel : Nat} {paragraphs : List (List Char)}
    (nonempty : ∀ p ∈ paragraphs, p ≠ []) (ended : chunker.fillAll fuel state paragraphs = some filled) :
    Holds word filled ↔ Holds word state ∨ KeptAt chunker word state.current.length paragraphs := by
  induction paragraphs generalizing state with
  | nil =>
    cases ended
    refine (or_iff_left ?_).symm
    rintro ⟨before, paragraph, after, split, -⟩
    cases before <;> cases split
  | cons paragraph rest ih =>
    obtain ⟨middle, first, others⟩ := Option.bind_eq_some_iff.mp ended
    have some : { state with remaining := paragraph }.remaining ≠ [] :=
      nonempty paragraph List.mem_cons_self
    have holds := fill_holds compact some first
    have level := fill_level some first
    rw [ih (fun p member => nonempty p (List.mem_cons_of_mem _ member)) others, holds, level, keptAt_cons,
      or_assoc]
    rfl

/-- A word is in a part if some paragraph has it between two cuts. -/
theorem boundedParts_holds (compact : Compact word) (nonempty : word ≠ []) {fuel : Nat} {text : List Char}
    {parts : List (List Char)} (ended : chunker.boundedParts fuel text = some parts) :
    (∃ part ∈ parts, word <:+: part) ↔ KeptAt chunker word 0 (paragraphs text) := by
  obtain ⟨filled, filling, last⟩ := Option.map_eq_some_iff.mp ended
  have holds := fillAll_holds compact (fun p => ne_nil_of_mem_paragraphs) filling
  have before : ¬ Holds word ⟨[], [], []⟩ := by
    rintro (⟨part, impossible, -⟩ | occurs)
    · cases impossible
    · exact nonempty (List.infix_nil.mp occurs)
  rw [or_iff_right before] at holds
  refine Iff.trans ?_ holds
  subst last
  split
  next empty => simp [Holds, List.isEmpty_iff.mp empty, nonempty]
  next => simp [Holds, or_and_right, exists_or]

/-- A text with a paragraph has a part that is not blank. -/
theorem exists_visible_part {fuel : Nat} {text : List Char} {parts : List (List Char)}
    (begun : paragraphs text ≠ []) (ended : chunker.boundedParts fuel text = some parts) :
    ∃ part ∈ parts, strip part ≠ [] := by
  obtain ⟨paragraph, rest, split⟩ := List.exists_cons_of_ne_nil begun
  have inText : paragraph ∈ paragraphs text := by simp [split]
  obtain ⟨c, tail, isCons⟩ := List.exists_cons_of_ne_nil (ne_nil_of_mem_paragraphs inText)
  -- a paragraph begins with a character that is no line break, and one character is never cut
  have visible : isSpace c = false := by
    obtain ⟨piece, -, rfl⟩ := List.mem_map.mp (List.mem_filter.mp inText).1
    exact head_strip piece c (by simp [isCons])
  have noBreak : '\n' ≠ c := by
    rintro rfl
    exact absurd visible (by decide)
  have compact : Compact [c] :=
    ⟨fun long => absurd long.length_le (by simp), by simpa using noBreak.symm, by simpa using noBreak.symm⟩
  have kept : KeptAt chunker [c] 0 (paragraphs text) := by
    refine ⟨[], paragraph, rest, split, [], tail, isCons, ?_⟩
    rintro n - ⟨behind, inside⟩
    simp only [List.length_nil, List.length_singleton] at behind inside
    omega
  obtain ⟨part, member, occurs⟩ := (boundedParts_holds compact (by simp) ended).mpr kept
  have shown : [c] <:+: strip part :=
    infix_strip (by simp) (by simpa using visible) (by simpa using visible) occurs
  refine ⟨part, member, fun blank => ?_⟩
  rw [blank, List.infix_nil] at shown
  cases shown

/-! ## Wide bounds -/

section Wide

variable (chunker)

/-- The room behind an overlap and its separator. -/
def stride : Nat :=
  chunker.maxChars - chunker.overlapChars - 2

/-- The cuts of a paragraph that is begun in a part of length `level`. -/
def Cut (level n : Nat) : Prop :=
  ∃ k, n = chunker.roomFor level + k * chunker.stride

/-- The length of the part in progress behind a paragraph of `length` characters. -/
def levelAfter (level length : Nat) : Nat :=
  if length < chunker.roomFor level then
    chunker.opened level + (if chunker.opened level = 0 then 0 else 2) + length
  else
    let left := (length - chunker.roomFor level) % chunker.stride
    if left = 0 then chunker.overlapChars else chunker.overlapChars + 2 + left

/-- The length of the part that the next paragraph is begun in. -/
def levelBehind (level : Nat) (paragraphs : List (List Char)) : Nat :=
  paragraphs.foldl (fun level paragraph => chunker.levelAfter level paragraph.length) level

/-- Some paragraph, begun at its level, has the word between two cuts. -/
def Kept (word : List Char) (level : Nat) (paragraphs : List (List Char)) : Prop :=
  ∃ before paragraph after, paragraphs = before ++ paragraph :: after ∧
    OccursUncut (chunker.Cut (chunker.levelBehind level before)) word paragraph

/-- The bounds that the default `max_chars=1_600, overlap_chars=200` keeps. -/
structure Wide : Prop where
  overlap : 2 ≤ chunker.overlapChars
  room : 2 * chunker.overlapChars + 2 ≤ chunker.maxChars

variable {chunker}

theorem Wide.roomFor_overlap (wide : Wide chunker) :
    chunker.roomFor chunker.overlapChars = chunker.stride := by
  have := wide.overlap
  simp only [roomFor, opened_overlap, stride]
  split <;> omega

theorem Wide.cut_eq (wide : Wide chunker) : chunker.Cut = chunker.CutAt := by
  funext level n
  rw [Cut, CutAt, wide.roomFor_overlap]

theorem Wide.levelAfter_eq (wide : Wide chunker) : chunker.levelAfter = chunker.levelPast := by
  have separated : chunker.overlapChars ≠ 0 := by
    have := wide.overlap
    omega
  funext level length
  simp only [levelAfter, levelPast, lengthWith, wide.roomFor_overlap, if_neg separated]

theorem Wide.kept_iff (wide : Wide chunker) {level : Nat} {paragraphs : List (List Char)} :
    Kept chunker word level paragraphs ↔ KeptAt chunker word level paragraphs := by
  simp only [Kept, KeptAt, levelBehind, levelPastAll, wide.cut_eq, wide.levelAfter_eq]

end Wide

/-! ## Windows -/

theorem no_blank_of_mem_paragraphs {text paragraph : List Char} (member : paragraph ∈ paragraphs text) :
    ¬ ['\n', '\n'] <:+: paragraph := by
  obtain ⟨piece, inPieces, rfl⟩ := List.mem_map.mp (List.mem_filter.mp member).1
  intro occurs
  exact no_blank_of_mem_splitBlankFrom 0 text piece inPieces (occurs.trans ( strip_within piece))

/-- A substring of a paragraph, no longer than the overlap, with no white space at its ends. -/
structure Window (chunker : StructuralChunker) (text word : List Char) : Prop where
  occurs : ∃ paragraph ∈ paragraphs text, word <:+: paragraph
  short : word.length ≤ chunker.overlapChars
  head : ∀ c ∈ word.head?, isSpace c = false
  last : ∀ c ∈ word.getLast?, isSpace c = false

theorem Window.compact {text : List Char} (window : Window chunker text word) : Compact word := by
  obtain ⟨paragraph, member, occurs⟩ := window.occurs
  refine ⟨fun blank => no_blank_of_mem_paragraphs member (blank.trans occurs), ?_, ?_⟩
  · intro isHead
    exact absurd (window.head _ isHead) (by decide)
  · intro isLast
    exact absurd (window.last _ isLast) (by decide)

theorem Window.of_stripped {text : List Char} (occurs : ∃ paragraph ∈ paragraphs text, word <:+: paragraph)
    (short : word.length ≤ chunker.overlapChars) (stripped : strip word = word) :
    Window chunker text word where
  occurs := occurs
  short := short
  head := stripped ▸ head_strip word
  last := stripped ▸ getLast_strip word

theorem window_kept_iff (wide : Wide chunker) {text : List Char} (window : Window chunker text word) :
    ∃ fuel parts, chunker.boundedParts fuel text = some parts ∧
      ((∃ part ∈ parts, word <:+: part) ↔ Kept chunker word 0 (paragraphs text)) := by
  have overlap := wide.overlap
  have bounds := wide.room
  have room : chunker.overlapChars + 2 < chunker.maxChars := by omega
  obtain ⟨fuel, filled, filling⟩ := fillAll_of_room room (paragraphs text) ⟨[], [], []⟩
  have ended : ∃ parts, chunker.boundedParts fuel text = some parts := by simp [boundedParts, filling]
  obtain ⟨parts, ended⟩ := ended
  refine ⟨fuel, parts, ended, ?_⟩
  rw [wide.kept_iff]
  by_cases empty : word = []
  · obtain ⟨paragraph, member, -⟩ := window.occurs
    obtain ⟨part, inParts, -⟩ := exists_visible_part (List.ne_nil_of_mem member) ended
    obtain ⟨before, after, split⟩ := List.append_of_mem member
    refine iff_of_true ⟨part, inParts, by simp [empty]⟩ ⟨before, paragraph, after, split, [],
      paragraph, by simp [empty], ?_⟩
    rintro n - ⟨behind, inside⟩
    simp [empty] at inside
  · exact boundedParts_holds window.compact empty ended

theorem window_kept_iff_short_paragraph : ∃ fuel parts,
    boundedParts ⟨200, 20, by decide, by decide⟩ fuel "Shared credentials are prohibited.".toList =
      some parts ∧
    ((∃ part ∈ parts, "credentials".toList <:+: part) ↔
      Kept ⟨200, 20, by decide, by decide⟩ "credentials".toList 0
        (paragraphs "Shared credentials are prohibited.".toList)) :=
  window_kept_iff ⟨by decide, by decide⟩
    (.of_stripped (by decide +kernel) (by decide +kernel) (by decide +kernel))

/-- A paragraph of 214 characters is cut after 200 of them, in the middle of a word that occurs
    nowhere else. -/
theorem exists_window_in_no_part : ∃ (chunker : StructuralChunker) (text word : List Char),
    Wide chunker ∧ Window chunker text word ∧ ∃ fuel parts,
      chunker.boundedParts fuel text = some parts ∧ ∀ part ∈ parts, ¬ word <:+: part := by
  have found : Window ⟨200, 20, by decide, by decide⟩
      (List.replicate 195 'x' ++ "quotation".toList ++ List.replicate 10 'y') "quotation".toList :=
    (.of_stripped (by decide +kernel) (by decide +kernel) (by decide +kernel))
  have lost : (boundedParts ⟨200, 20, by decide, by decide⟩ 2
      (List.replicate 195 'x' ++ "quotation".toList ++ List.replicate 10 'y')).any (fun parts =>
        parts.all fun part => !decide ("quotation".toList <:+: part)) = true := by decide +kernel
  generalize List.replicate 195 'x' ++ "quotation".toList ++ List.replicate 10 'y' = text at found lost
  obtain ⟨parts, ended, none⟩ := (Option.any_eq_true _ _).mp lost
  refine ⟨_, text, _, ⟨by decide, by decide⟩, found, 2, parts, ended, ?_⟩
  intro part member occurs
  have passed := List.all_eq_true.mp none part member
  rw [decide_eq_true occurs] at passed
  cases passed

end SupplierAssurance.Retrieval.StructuralChunker
