import SupplierAssurance.Lib.Loop
import SupplierAssurance.Python.Text

/-! # `packages/retrieval/chunking.py`: bounded paragraph groups

`StructuralChunker` joins the paragraphs of a section into parts of at most `max_chars`
characters, and starts each part with the last `overlap_chars` characters of the one
before.  The constructor's checks are fields of the structure.

The `while` loop over one paragraph has an iteration that reads nothing of it: when the
text carried over leaves no room behind the two separator characters, the part is
flushed and the overlap is carried over again.  That makes room exactly when
`overlap_chars + 2 < max_chars`.
-/

namespace SupplierAssurance.Retrieval

open SupplierAssurance.Lib SupplierAssurance.Python

/-- The chunkers that `__init__` accepts. -/
structure StructuralChunker where
  maxChars : Nat
  overlapChars : Nat
  maxChars_ge : 200 ≤ maxChars
  overlapChars_lt : overlapChars < maxChars

namespace StructuralChunker

/-- `StructuralChunker.__init__`. -/
def init (maxChars overlapChars : Int) : Except String StructuralChunker :=
  if small : maxChars < 200 then .error "max_chars must be at least 200"
  else if outside : overlapChars < 0 ∨ overlapChars ≥ maxChars then
    .error "overlap_chars must be between zero and max_chars"
  else
    .ok {
      maxChars := maxChars.toNat
      overlapChars := overlapChars.toNat
      maxChars_ge := by omega
      overlapChars_lt := by omega
    }

/-- The constructor accepts exactly the chunkers of the structure, each for its own values. -/
theorem init_eq_ok_iff {maxChars overlapChars : Int} {chunker : StructuralChunker} :
    init maxChars overlapChars = .ok chunker ↔
      maxChars = chunker.maxChars ∧ overlapChars = chunker.overlapChars := by
  obtain ⟨bound, overlap, big, below⟩ := chunker
  unfold init
  split
  next small => simp; omega
  next large =>
    split
    next outside => simp; omega
    next inside => simp; omega

/-- `paragraphs` of `_bounded_parts`. -/
def paragraphs (text : List Char) : List (List Char) :=
  ((splitBlank text).map strip).filter fun item => !item.isEmpty

/-- The variables of the `while` loop. -/
structure Filling where
  parts : List (List Char)
  current : List Char
  remaining : List Char
deriving DecidableEq, Repr

/-- `2 if current else 0`. -/
def separator (current : List Char) : Nat :=
  if current.isEmpty then 0 else 2

variable (chunker : StructuralChunker)

/-- `available`; the loop only compares it with zero and takes that many characters, so a
    negative value is as good as zero. -/
def available (current : List Char) : Nat :=
  chunker.maxChars - current.length - separator current

/-- `parts.append(current)` and the overlap carried over. -/
def flush (state : Filling) : Filling :=
  { state with
    parts := state.parts ++ [state.current]
    current := lastChars chunker.overlapChars state.current }

/-- `f"{current}\n\n{piece}" if current else piece`. -/
def join (current piece : List Char) : List Char :=
  if current.isEmpty then piece else current ++ '\n' :: '\n' :: piece

/-- The part of the iteration that reads `remaining`. -/
def take (state : Filling) : Filling :=
  let piece := state.remaining.take (chunker.available state.current)
  { state with
    current := join state.current piece
    remaining := state.remaining.drop piece.length }

/-- One iteration of the `while` loop. -/
def iteration (state : Filling) : Filling :=
  if chunker.available state.current ≤ 0 then chunker.flush state
  else
    let taken := chunker.take state
    if chunker.maxChars ≤ taken.current.length then chunker.flush taken else taken

/-- `while remaining`, over one paragraph. -/
def fill (fuel : Nat) : Filling → Option Filling :=
  loop (fun state => !state.remaining.isEmpty) chunker.iteration fuel

/-- `for paragraph in paragraphs`, each loop with at most `fuel` iterations. -/
def fillAll (fuel : Nat) : Filling → List (List Char) → Option Filling
  | state, [] => some state
  | state, paragraph :: rest =>
    (chunker.fill fuel { state with remaining := paragraph }).bind fun filled =>
      fillAll fuel filled rest

/-- `_bounded_parts`; `none` when a `while` loop needs more than `fuel` iterations. -/
def boundedParts (fuel : Nat) (text : List Char) : Option (List (List Char)) :=
  (chunker.fillAll fuel ⟨[], [], []⟩ (paragraphs text)).map fun filled =>
    if filled.current.isEmpty then filled.parts else filled.parts ++ [filled.current]

/-- The `while` loop ends for every paragraph of the text. -/
def Terminates (text : List Char) : Prop :=
  ∃ fuel parts, chunker.boundedParts fuel text = some parts

/-! ## One iteration -/

variable {chunker} {state filled : Filling} {current piece : List Char} {parts rest : List (List Char)}

theorem separator_le (current : List Char) : separator current ≤ 2 := by
  unfold separator
  split <;> omega

@[simp] theorem length_join (current piece : List Char) :
    (join current piece).length = current.length + separator current + piece.length := by
  unfold join separator
  split
  next empty => simp [List.isEmpty_iff.mp empty]
  next => simp; omega

theorem separator_join (some : piece ≠ []) (current : List Char) :
    separator (join current piece) = 2 := by
  unfold join
  split <;> simp [separator, some]

theorem available_eq_zero : chunker.available current = 0 ↔ chunker.maxChars ≤ current.length + 2 := by
  have big := chunker.maxChars_ge
  unfold available separator
  split
  next empty => simp [List.isEmpty_iff.mp empty]; omega
  next => omega

/-- A part without room is not empty. -/
theorem separator_of_full (full : chunker.maxChars ≤ current.length + 2) : separator current = 2 := by
  have big := chunker.maxChars_ge
  cases current with
  | nil => simp only [List.length_nil] at full; omega
  | cons c rest => rfl

/-- As much of the paragraph as there is room for fills the part up to its bound. -/
theorem length_join_take (room : current.length + 2 < chunker.maxChars)
    (reached : chunker.maxChars ≤ current.length + separator current + piece.length) :
    (join current (piece.take (chunker.available current))).length = chunker.maxChars := by
  have small := separator_le current
  rw [length_join, List.length_take, available]
  omega

/-- What an iteration can do: flush for want of room; take the rest of the paragraph and
    stay below the bound; or fill the part up to the bound and flush it. -/
theorem iteration_cases (chunker : StructuralChunker) (state : Filling) :
    (chunker.maxChars ≤ state.current.length + 2 ∧ chunker.iteration state = chunker.flush state) ∨
    (state.current.length + separator state.current + state.remaining.length < chunker.maxChars ∧
      chunker.iteration state =
        { state with current := join state.current state.remaining, remaining := [] }) ∨
    (state.current.length + 2 < chunker.maxChars ∧
      chunker.maxChars ≤
        state.current.length + separator state.current + state.remaining.length ∧
      chunker.iteration state = chunker.flush { state with
        current := join state.current (state.remaining.take (chunker.available state.current))
        remaining := state.remaining.drop (chunker.available state.current) }) := by
  by_cases full : chunker.available state.current ≤ 0
  · left
    exact ⟨available_eq_zero.mp (by omega), by simp [iteration, full]⟩
  have room : ¬ chunker.maxChars ≤ state.current.length + 2 :=
    fun enough => full (by rw [available_eq_zero.mpr enough])
  have measured : chunker.available state.current =
      chunker.maxChars - state.current.length - separator state.current := rfl
  have small := separator_le state.current
  right
  -- the rest of the paragraph fits, or the chunk is filled to the bound
  by_cases short : state.remaining.length < chunker.available state.current
  · left
    refine ⟨by omega, ?_⟩
    have whole : state.remaining.take (chunker.available state.current) = state.remaining :=
      List.take_of_length_le (by omega)
    have below : ¬ chunker.maxChars ≤ (join state.current state.remaining).length := by
      rw [length_join]
      omega
    simp only [iteration, take, if_neg full, whole, if_neg below, List.drop_length]
  · right
    refine ⟨by omega, by omega, ?_⟩
    have count : (state.remaining.take (chunker.available state.current)).length =
        chunker.available state.current := List.length_take_of_le (by omega)
    have reached : chunker.maxChars ≤
        (join state.current (state.remaining.take (chunker.available state.current))).length :=
      (length_join_take (by omega) (by omega)).ge
    simp only [iteration, take, if_neg full, count, if_pos reached]

theorem fill_done {fuel : Nat} (empty : state.remaining = []) : chunker.fill fuel state = some state :=
  loop_done (by simp [empty])

theorem fill_next {fuel : Nat} (left : state.remaining ≠ []) :
    chunker.fill (fuel + 1) state = chunker.fill fuel (chunker.iteration state) :=
  loop_next (by simp [left])

/-- One iteration is enough when it leaves nothing of the paragraph. -/
theorem fill_once {fuel : Nat} (left : state.remaining ≠ [])
    (done : (chunker.iteration state).remaining = []) :
    chunker.fill (fuel + 1) state = some (chunker.iteration state) := by
  rw [fill_next left, fill_done done]

/-! ## Enough room behind the overlap -/

/-- An iteration that reads nothing is followed by one that does: it counts half a
    character. -/
def unread (chunker : StructuralChunker) (state : Filling) : Nat :=
  2 * state.remaining.length + if chunker.maxChars ≤ state.current.length + 2 then 1 else 0

theorem unread_iteration (room : chunker.overlapChars + 2 < chunker.maxChars)
    (left : state.remaining ≠ []) : chunker.unread (chunker.iteration state) < chunker.unread state := by
  have some : 0 < state.remaining.length := List.length_pos_iff.mpr left
  have carried (text : List Char) :
      ¬ chunker.maxChars ≤ (lastChars chunker.overlapChars text).length + 2 := by
    rw [length_lastChars]
    omega
  obtain ⟨full, moved⟩ | ⟨-, moved⟩ | ⟨room', -, moved⟩ := iteration_cases chunker state
  · rw [moved]
    simp only [unread, flush, carried, if_false, if_pos full]
    omega
  · rw [moved]
    simp only [unread, List.length_nil]
    split <;> omega
  · rw [moved]
    have positive : chunker.available state.current ≠ 0 :=
      fun zero => absurd (available_eq_zero.mp zero) (by omega)
    simp only [unread, flush, carried, if_false, List.length_drop]
    omega

theorem fill_of_room (room : chunker.overlapChars + 2 < chunker.maxChars) (state : Filling) :
    ∃ fuel filled, chunker.fill fuel state = some filled := by
  obtain ⟨filled, ended, -⟩ : ∃ t, chunker.fill (chunker.unread state) state = some t ∧ True ∧ _ :=
    loop_of_variant (I := fun _ => True) chunker.unread
      (fun state _ left => ⟨trivial, unread_iteration room (by simpa using left)⟩) trivial
  exact ⟨_, filled, ended⟩

/-- More fuel does not change the outcome of the paragraphs. -/
theorem fillAll_mono {fuel more : Nat} {paragraphs : List (List Char)}
    (ended : chunker.fillAll fuel state paragraphs = some filled) (le : fuel ≤ more) :
    chunker.fillAll more state paragraphs = some filled := by
  induction paragraphs generalizing state with
  | nil => exact ended
  | cons paragraph rest ih =>
    obtain ⟨middle, first, others⟩ := Option.bind_eq_some_iff.mp ended
    exact Option.bind_eq_some_iff.mpr ⟨middle, loop_mono first le, ih others⟩

/-- A paragraph followed by the others, each with its own fuel. -/
theorem fillAll_cons {paragraph : List Char} {fuel more : Nat} {middle : Filling}
    (first : chunker.fill fuel { state with remaining := paragraph } = some middle)
    (others : chunker.fillAll more middle rest = some filled) :
    chunker.fillAll (max fuel more) state (paragraph :: rest) = some filled := by
  refine Option.bind_eq_some_iff.mpr ⟨middle, loop_mono first (by omega), ?_⟩
  exact fillAll_mono others (by omega)

theorem fillAll_of_room (room : chunker.overlapChars + 2 < chunker.maxChars)
    (paragraphs : List (List Char)) (state : Filling) :
    ∃ fuel filled, chunker.fillAll fuel state paragraphs = some filled := by
  induction paragraphs generalizing state with
  | nil => exact ⟨0, state, rfl⟩
  | cons paragraph rest ih =>
    obtain ⟨fuel, middle, first⟩ := fill_of_room room { state with remaining := paragraph }
    obtain ⟨more, filled, others⟩ := ih middle
    exact ⟨_, filled, fillAll_cons first others⟩

/-! ## Paragraphs that fit into one part -/

theorem length_le_foldl_join (paragraphs : List (List Char)) (current : List Char) :
    current.length ≤ (paragraphs.foldl join current).length := by
  induction paragraphs generalizing current with
  | nil => exact Nat.le_refl _
  | cons paragraph rest ih =>
    have longer := ih (join current paragraph)
    rw [length_join] at longer
    exact (by omega : current.length ≤ _).trans longer

/-- Behind a paragraph every other one takes at least its separator. -/
theorem eq_nil_of_foldl_join_le (rest : List (List Char)) (some : piece ≠ []) (current : List Char)
    (fits : (rest.foldl join (join current piece)).length ≤ (join current piece).length) :
    rest = [] := by
  cases rest with
  | nil => rfl
  | cons paragraph rest =>
    have longer := length_le_foldl_join rest (join (join current piece) paragraph)
    rw [length_join (join current piece), separator_join some] at longer
    simp only [List.foldl_cons] at fits
    omega

theorem fillAll_of_fits (paragraphs : List (List Char)) (filled : ∀ p ∈ paragraphs, p ≠ [])
    (state : Filling) (fits : (paragraphs.foldl join state.current).length ≤ chunker.maxChars) :
    ∃ fuel final, chunker.fillAll fuel state paragraphs = some final := by
  induction paragraphs generalizing state with
  | nil => exact ⟨0, state, rfl⟩
  | cons paragraph rest ih =>
    have some : paragraph ≠ [] := filled paragraph (by simp)
    have length : 0 < paragraph.length := List.length_pos_iff.mpr some
    have joined := length_le_foldl_join rest (join state.current paragraph)
    simp only [List.foldl_cons] at fits
    have sized := length_join state.current paragraph
    obtain ⟨full, -⟩ | ⟨below, moved⟩ | ⟨-, reached, moved⟩ :=
      iteration_cases chunker { state with remaining := paragraph }
    · -- the paragraph alone would leave no room for a separator
      exfalso
      have two := separator_of_full full
      simp only at full two
      omega
    · have once : chunker.fill 1 { state with remaining := paragraph } = _ :=
        fill_once some (by rw [moved])
      rw [moved] at once
      obtain ⟨more, final, others⟩ := ih (fun p member => filled p (by simp [member]))
        { state with current := join state.current paragraph, remaining := [] } fits
      exact ⟨_, final, fillAll_cons once others⟩
    · -- exactly full: the part is flushed and no paragraph is left
      simp only at reached moved
      have exact_fit : (join state.current paragraph).length = chunker.maxChars := by omega
      obtain rfl := eq_nil_of_foldl_join_le rest some state.current (by omega)
      have whole : chunker.available state.current = paragraph.length := by
        unfold available
        omega
      rw [whole, List.drop_length] at moved
      have once : chunker.fill 1 { state with remaining := paragraph } = _ :=
        fill_once some (by rw [moved]; rfl)
      rw [moved] at once
      exact ⟨1, _, Option.bind_eq_some_iff.mpr ⟨_, once, rfl⟩⟩

/-! ## No room behind the overlap -/

/-- When the overlap leaves no room, flushing a part that has none makes none. -/
theorem fill_never {fuel : Nat} (tight : chunker.maxChars ≤ chunker.overlapChars + 2)
    (left : state.remaining ≠ []) (full : chunker.maxChars ≤ state.current.length + 2) :
    chunker.fill fuel state = none := by
  refine loop_never (I := fun state =>
    state.remaining ≠ [] ∧ chunker.maxChars ≤ state.current.length + 2) ?_ ⟨left, full⟩
  rintro state ⟨left, full⟩
  refine ⟨by simp [left], ?_⟩
  obtain ⟨-, moved⟩ | ⟨below, -⟩ | ⟨room, -⟩ := iteration_cases chunker state
  · rw [moved]
    simp only [flush, length_lastChars]
    exact ⟨left, by omega⟩
  · exfalso
    have two := separator_of_full full
    omega
  · omega

theorem fillAll_never_cons {fuel : Nat} {paragraph : List Char}
    (tight : chunker.maxChars ≤ chunker.overlapChars + 2)
    (some : paragraph ≠ []) (full : chunker.maxChars ≤ state.current.length + 2) :
    chunker.fillAll fuel state (paragraph :: rest) = none := by
  have stuck : chunker.fill fuel { state with remaining := paragraph } = none :=
    fill_never tight some full
  simp only [fillAll, stuck, Option.bind_none]

/-- The paragraphs that do not fit into one part reach a part without room. -/
theorem fillAll_never {fuel : Nat} (tight : chunker.maxChars ≤ chunker.overlapChars + 2)
    (paragraphs : List (List Char)) (filled : ∀ p ∈ paragraphs, p ≠ [])
    (bounded : state.current.length ≤ chunker.maxChars)
    (long : chunker.maxChars < (paragraphs.foldl join state.current).length) :
    chunker.fillAll fuel state paragraphs = none := by
  induction paragraphs generalizing state with
  | nil =>
    simp only [List.foldl_nil] at long
    omega
  | cons paragraph rest ih =>
    have some : paragraph ≠ [] := filled paragraph (by simp)
    simp only [List.foldl_cons] at long
    have sized := length_join state.current paragraph
    have below_overlap := chunker.overlapChars_lt
    rw [fillAll]
    cases fuel with
    | zero => simp [fill, loop, some]
    | succ fuel =>
      obtain ⟨full, -⟩ | ⟨below, moved⟩ | ⟨room, reached, moved⟩ :=
        iteration_cases chunker { state with remaining := paragraph }
      · exact fillAll_never_cons tight some full
      · rw [fill_next some, moved, fill_done rfl]
        exact ih (fun p member => filled p (by simp [member])) (by simp only at below ⊢; omega) long
      · simp only at room reached moved
        have small := separator_le state.current
        have count : (paragraph.take (chunker.available state.current)).length =
            chunker.maxChars - state.current.length - separator state.current :=
          List.length_take_of_le (by unfold available; omega)
        -- the part is filled up to the bound, and the overlap carried over leaves no room
        have full : chunker.maxChars ≤
            (chunker.iteration { state with remaining := paragraph }).current.length + 2 := by
          rw [moved]
          simp only [flush, length_lastChars, length_join, count]
          omega
        rw [fill_next some]
        by_cases left : (chunker.iteration { state with remaining := paragraph }).remaining = []
        · rw [fill_done left]
          cases rest with
          | nil =>
            exfalso
            rw [moved] at left
            simp only [flush, List.drop_eq_nil_iff] at left
            unfold available at left
            simp only [List.foldl_nil] at long
            omega
          | cons next rest => exact fillAll_never_cons tight (filled next (by simp)) full
        · rw [fill_never tight left full]
          rfl

/-! ## Termination -/

theorem ne_nil_of_mem_paragraphs {text paragraph : List Char} (member : paragraph ∈ paragraphs text) :
    paragraph ≠ [] := by
  simpa using (List.mem_filter.mp member).2

theorem foldl_join_of_ne_nil (rest : List (List Char)) (begun : current ≠ []) :
    rest.foldl join current = ['\n', '\n'].intercalate (current :: rest) := by
  induction rest generalizing current with
  | nil => simp
  | cons paragraph rest ih =>
    have joined : join current paragraph = current ++ '\n' :: '\n' :: paragraph := by
      simp [join, begun]
    rw [List.foldl_cons, joined, ih (by simp), List.intercalate_cons_cons]
    cases rest with
    | nil => simp
    | cons next rest => simp

/-- The loop joins the paragraphs by blank lines. -/
theorem foldl_join_eq_intercalate (filled : ∀ p ∈ rest, p ≠ []) :
    rest.foldl join [] = ['\n', '\n'].intercalate rest := by
  cases rest with
  | nil => rfl
  | cons paragraph rest => exact foldl_join_of_ne_nil rest (filled paragraph (by simp))

theorem terminates_iff_fillAll {text : List Char} :
    chunker.Terminates text ↔ ∃ fuel filled,
      chunker.fillAll fuel ⟨[], [], []⟩ (paragraphs text) = some filled := by
  simp [Terminates, boundedParts, Option.map_eq_some_iff]

theorem terminates_iff_room_or_fits (chunker : StructuralChunker) (text : List Char) :
    chunker.Terminates text ↔
      chunker.overlapChars + 2 < chunker.maxChars ∨
      (['\n', '\n'].intercalate (paragraphs text)).length ≤ chunker.maxChars := by
  have filled : ∀ p ∈ paragraphs text, p ≠ [] := fun _ => ne_nil_of_mem_paragraphs
  rw [terminates_iff_fillAll, ← foldl_join_eq_intercalate filled]
  constructor
  · rintro ⟨fuel, final, ended⟩
    by_contra neither
    obtain ⟨tight, long⟩ := not_or.mp neither
    rw [fillAll_never (by omega) _ filled (Nat.zero_le _) (Nat.lt_of_not_le long)] at ended
    cases ended
  · rintro (room | fits)
    · exact fillAll_of_room room _ _
    · exact fillAll_of_fits _ filled _ fits

/-- With one paragraph of 201 characters and `overlap_chars = 199` of `max_chars = 200`,
    which the constructor accepts, the loop flushes the last 199 characters for ever. -/
theorem exists_accepted_not_terminates :
    ∃ chunker, init 200 199 = .ok chunker ∧ ¬ chunker.Terminates (List.replicate 201 'a') := by
  refine ⟨⟨200, 199, by omega, by omega⟩, rfl, ?_⟩
  have single : paragraphs (List.replicate 201 'a') = [List.replicate 201 'a'] := by
    decide +kernel
  rw [terminates_iff_fillAll, single]
  rintro ⟨fuel, final, ended⟩
  rw [fillAll_never (by decide) _ (by simp) (Nat.zero_le _) (by decide +kernel)] at ended
  cases ended

end StructuralChunker

end SupplierAssurance.Retrieval
