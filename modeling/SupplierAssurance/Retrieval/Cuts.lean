import SupplierAssurance.Retrieval.Chunking

/-! # Where paragraphs are cut

The parts of a text depend on the lengths of its paragraphs alone: a paragraph is begun in the part
in progress, or behind the overlap when that part has no room, and every time the part reaches its
bound the paragraph is cut and goes on behind the overlap.

`fill_rule` is the rule for what the loop over one paragraph does: the paragraph ends before its
first cut, or at it, or it is cut there and the rest is filled like a paragraph that is begun behind
the overlap.
-/

namespace SupplierAssurance.Retrieval.StructuralChunker

open SupplierAssurance.Lib SupplierAssurance.Python

variable (chunker : StructuralChunker)

/-- The length of the part in progress once it has room, from its length `level` before. -/
def opened (level : Nat) : Nat :=
  if level + 2 < chunker.maxChars then level else chunker.overlapChars

/-- The room for a paragraph that is begun in a part of length `level`. -/
def roomFor (level : Nat) : Nat :=
  let opened := chunker.opened level
  chunker.maxChars - opened - if opened = 0 then 0 else 2

/-- The positions at which a paragraph that is begun in a part of length `level` is cut. -/
def CutAt (level n : Nat) : Prop :=
  ∃ k, n = chunker.roomFor level + k * chunker.roomFor chunker.overlapChars

/-- The length of a part of length `level` with `added` more characters. -/
def lengthWith (level added : Nat) : Nat :=
  level + (if level = 0 then 0 else 2) + added

/-- The length of the part in progress behind a paragraph of `length` characters. -/
def levelPast (level length : Nat) : Nat :=
  if length < chunker.roomFor level then lengthWith (chunker.opened level) length
  else
    let left := (length - chunker.roomFor level) % chunker.roomFor chunker.overlapChars
    if left = 0 then chunker.overlapChars else lengthWith chunker.overlapChars left

/-- The length of the part in progress behind all of the paragraphs. -/
def levelPastAll (level : Nat) (paragraphs : List (List Char)) : Nat :=
  paragraphs.foldl (fun level paragraph => chunker.levelPast level paragraph.length) level

variable {chunker} {level n length : Nat} {state filled : Filling}

@[simp] theorem opened_overlap : chunker.opened chunker.overlapChars = chunker.overlapChars := by
  unfold opened
  split <;> rfl

theorem opened_of_room (room : level + 2 < chunker.maxChars) : chunker.opened level = level :=
  if_pos room

/-- Without room the part is flushed, and the paragraph begun behind the overlap. -/
theorem opened_of_full (full : chunker.maxChars ≤ level + 2) : chunker.opened level = chunker.overlapChars :=
  if_neg (by omega)

theorem roomFor_of_full (full : chunker.maxChars ≤ level + 2) :
    chunker.roomFor level = chunker.roomFor chunker.overlapChars := by
  simp only [roomFor, opened_of_full full, opened_overlap]

theorem roomFor_pos (room : chunker.overlapChars + 2 < chunker.maxChars) (level : Nat) :
    0 < chunker.roomFor level := by
  have opened : chunker.opened level + 2 < chunker.maxChars := by
    unfold StructuralChunker.opened
    split <;> assumption
  simp only [roomFor]
  split <;> omega

theorem cutAt_first (chunker : StructuralChunker) (level : Nat) :
    chunker.CutAt level (chunker.roomFor level) :=
  ⟨0, by simp⟩

/-- A part without room is flushed first, so it is cut as one that is begun behind an overlap. -/
theorem cutAt_of_full (full : chunker.maxChars ≤ level + 2) :
    chunker.CutAt level = chunker.CutAt chunker.overlapChars := by
  funext n
  simp only [CutAt, roomFor_of_full full]

theorem roomFor_le_of_cutAt (cut : chunker.CutAt level n) : chunker.roomFor level ≤ n := by
  obtain ⟨k, rfl⟩ := cut
  exact Nat.le_add_right _ _

/-- Behind the first cut the paragraph is cut as one that is begun behind an overlap, apart from
    the cut itself. -/
theorem cutAt_behind (positive : 0 < n) :
    chunker.CutAt level (chunker.roomFor level + n) ↔ chunker.CutAt chunker.overlapChars n := by
  unfold CutAt
  constructor
  · rintro ⟨k, at_⟩
    cases k with
    | zero => omega
    | succ k =>
      refine ⟨k, ?_⟩
      rw [Nat.succ_mul] at at_
      omega
  · rintro ⟨k, rfl⟩
    refine ⟨k + 1, ?_⟩
    rw [Nat.succ_mul]
    omega

theorem levelPast_behind (behind : chunker.roomFor level < length) :
    chunker.levelPast level length =
      chunker.levelPast chunker.overlapChars (length - chunker.roomFor level) := by
  have past : ¬ length < chunker.roomFor level := by omega
  simp only [levelPast, opened_overlap, if_neg past]
  by_cases short : length - chunker.roomFor level < chunker.roomFor chunker.overlapChars
  · rw [if_pos short, Nat.mod_eq_of_lt short, if_neg (by omega)]
  · rw [if_neg short, Nat.mod_eq_sub_mod (by omega)]

/-! ## The loop over a paragraph -/

theorem available_eq_roomFor (room : state.current.length + 2 < chunker.maxChars) :
    chunker.available state.current = chunker.roomFor state.current.length := by
  simp only [available, roomFor, opened, if_pos room, separator, List.isEmpty_iff,
    List.length_eq_zero_iff]

/-- All that is left of the paragraph is joined to the part. -/
def joinAll (state : Filling) : Filling :=
  { state with current := join state.current state.remaining, remaining := [] }

variable (chunker) in
/-- The paragraph is cut where the part is full. -/
def cutOff (state : Filling) : Filling :=
  chunker.flush {
    parts := state.parts
    current := join state.current (state.remaining.take (chunker.roomFor state.current.length))
    remaining := state.remaining.drop (chunker.roomFor state.current.length) }

theorem length_joinAll (room : state.current.length + 2 < chunker.maxChars) :
    (joinAll state).current.length =
      lengthWith (chunker.opened state.current.length) state.remaining.length := by
  simp only [joinAll, length_join, lengthWith, opened_of_room room, separator, List.isEmpty_iff,
    List.length_eq_zero_iff]

/-- What is flushed has at least the length of the overlap. -/
theorem length_flush (long : chunker.maxChars ≤ state.current.length + 2)
    (room : chunker.overlapChars + 2 < chunker.maxChars) :
    (chunker.flush state).current.length = chunker.overlapChars := by
  show (lastChars _ _).length = _
  rw [length_lastChars]
  omega

theorem length_cutOff (room : state.current.length + 2 < chunker.maxChars)
    (long : chunker.roomFor state.current.length ≤ state.remaining.length) :
    (chunker.cutOff state).current.length = chunker.overlapChars := by
  have small := separator_le state.current
  have below := chunker.overlapChars_lt
  have space := available_eq_roomFor room
  have full : (join state.current
      (state.remaining.take (chunker.roomFor state.current.length))).length = chunker.maxChars := by
    rw [← space]
    refine length_join_take room ?_
    rw [← space, available] at long
    omega
  show (lastChars _ _).length = _
  rw [length_lastChars, full]
  omega

/-- The iteration in terms of the lengths. -/
theorem iteration_eq (chunker : StructuralChunker) (state : Filling) :
    chunker.iteration state =
      if chunker.maxChars ≤ state.current.length + 2 then chunker.flush state
      else if state.remaining.length < chunker.roomFor state.current.length then joinAll state
      else chunker.cutOff state := by
  have small := separator_le state.current
  obtain ⟨full, moved⟩ | ⟨below, moved⟩ | ⟨room, reached, moved⟩ := iteration_cases chunker state
  · rw [moved, if_pos full]
  · rw [moved]
    by_cases full : chunker.maxChars ≤ state.current.length + 2
    · have two := separator_of_full full
      omega
    · rw [if_neg full, if_pos, joinAll]
      rw [← available_eq_roomFor (by omega), available]
      omega
  · have space := available_eq_roomFor room
    rw [moved, if_neg (by omega), if_neg, cutOff, space]
    rw [← space, available]
    omega

/-- The rule for a paragraph: `P` relates the states in front of and behind the loop over it. -/
theorem fill_rule {P : Filling → Filling → Prop}
    (short : ∀ state, state.current.length + 2 < chunker.maxChars →
      state.remaining.length < chunker.roomFor state.current.length → P state (joinAll state))
    (done : ∀ state, state.current.length + 2 < chunker.maxChars →
      state.remaining.length = chunker.roomFor state.current.length → P state (chunker.cutOff state))
    (cut : ∀ state filled, chunker.overlapChars + 2 < chunker.maxChars →
      state.current.length + 2 < chunker.maxChars →
      chunker.roomFor state.current.length < state.remaining.length →
      P (chunker.cutOff state) filled → P state filled)
    (full : ∀ state filled, chunker.overlapChars + 2 < chunker.maxChars →
      chunker.maxChars ≤ state.current.length + 2 → P (chunker.flush state) filled → P state filled)
    {fuel : Nat} (left : state.remaining ≠ []) (ended : chunker.fill fuel state = some filled) :
    P state filled := by
  induction fuel generalizing state with
  | zero => simp [fill, loop, left] at ended
  | succ fuel ih =>
    rw [fill_next left, iteration_eq] at ended
    split at ended
    next noRoom =>
      -- a flush makes room, or the loop would not have ended
      have room : chunker.overlapChars + 2 < chunker.maxChars := by
        by_contra tight
        have never : chunker.fill (fuel + 1) state = none := fill_never (by omega) left noRoom
        rw [fill_next left, iteration_eq, if_pos noRoom, ended] at never
        cases never
      exact full state filled room noRoom (ih left ended)
    next hasRoom =>
      split at ended
      next ends =>
        rw [fill_done rfl] at ended
        cases ended
        exact short state (by omega) ends
      next reaches =>
        by_cases last : state.remaining.length = chunker.roomFor state.current.length
        · have nothing : (chunker.cutOff state).remaining = [] := by
            show state.remaining.drop _ = []
            rw [List.drop_eq_nil_iff, last]
          rw [fill_done nothing] at ended
          cases ended
          exact done state (by omega) last
        · have more : (chunker.cutOff state).remaining ≠ [] := by
            show state.remaining.drop _ ≠ []
            rw [ne_eq, List.drop_eq_nil_iff]
            omega
          have overlapped : (chunker.cutOff state).current.length = chunker.overlapChars :=
            length_cutOff (by omega) (by omega)
          have room : chunker.overlapChars + 2 < chunker.maxChars := by
            by_contra tight
            rw [fill_never (by omega) more (by omega)] at ended
            cases ended
          exact cut state filled room (by omega) (by omega) (ih more ended)

/-- The length of the part in progress behind a paragraph. -/
theorem fill_level {fuel : Nat} (left : state.remaining ≠ [])
    (ended : chunker.fill fuel state = some filled) :
    filled.current.length = chunker.levelPast state.current.length state.remaining.length := by
  refine fill_rule (P := fun state filled =>
    filled.current.length = chunker.levelPast state.current.length state.remaining.length)
    ?_ ?_ ?_ ?_ left ended
  · intro state room ends
    rw [length_joinAll room, levelPast, if_pos ends]
  · intro state room last
    rw [length_cutOff room last.ge, levelPast, if_neg (by omega)]
    simp [last]
  · intro state filled _ room reaches later
    have behind : (chunker.cutOff state).remaining.length =
        state.remaining.length - chunker.roomFor state.current.length := List.length_drop
    rw [later, length_cutOff room reaches.le, behind]
    exact (levelPast_behind reaches).symm
  · intro state filled room noRoom later
    rw [later, length_flush noRoom room]
    simp only [levelPast, roomFor_of_full noRoom, opened_of_full noRoom, opened_overlap]
    rfl

end SupplierAssurance.Retrieval.StructuralChunker
