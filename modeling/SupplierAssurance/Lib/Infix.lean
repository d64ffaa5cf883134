import Mathlib.Data.List.Infix

/-! # Words in joined and in cut texts

A word that does not contain the separator occurs in a joined text only inside one of the
pieces: an occurrence cannot reach over a separator.  The same holds for a separator of two
equal characters, if the word neither begins nor ends with that character.

A text that is cut at some positions keeps an occurrence of a word if none of them is
strictly inside it.
-/

namespace SupplierAssurance.Lib

universe u

variable {α : Type u} {x : α} {word left right : List α}

/-- A word without `x` does not reach over an `x`. -/
theorem infix_append_cons_iff (free : x ∉ word) :
    word <:+: left ++ x :: right ↔ word <:+: left ∨ word <:+: right := by
  constructor
  · intro occurs
    rcases List.infix_append_iff.mp occurs with inLeft | inRight | ⟨front, back, rfl, ends, begins⟩
    · exact .inl inLeft
    · rcases List.infix_cons_iff.mp inRight with begins | inRight
      · cases word with
        | nil => exact .inl List.nil_infix
        | cons c rest =>
          obtain ⟨rfl, _⟩ := List.cons_prefix_cons.mp begins
          exact absurd List.mem_cons_self free
      · exact .inr inRight
    · cases back with
      | nil => exact .inl (by simpa using ends.isInfix)
      | cons c rest =>
        obtain ⟨rfl, _⟩ := List.cons_prefix_cons.mp begins
        exact absurd (by simp) free
  · intro occurs
    cases occurs with
    | inl inLeft => exact List.infix_append_of_infix_left inLeft
    | inr inRight =>
      exact List.infix_append_of_infix_right (List.infix_cons_iff.mpr (.inr inRight))

theorem infix_intercalate_iff (free : x ∉ word) (nonempty : word ≠ []) {pieces : List (List α)} :
    word <:+: [x].intercalate pieces ↔ ∃ piece ∈ pieces, word <:+: piece := by
  induction pieces with
  | nil => simp [nonempty]
  | cons piece rest ih =>
    cases rest with
    | nil => simp
    | cons next rest =>
      rw [List.intercalate_cons_cons, List.append_assoc, List.singleton_append,
        infix_append_cons_iff free, ih]
      simp

/-- A word that has no `x` at its ends and no two in a row does not reach over two of them. -/
theorem infix_append_cons_cons_iff (single : ¬ [x, x] <:+: word) (head : x ∉ word.head?)
    (last : x ∉ word.getLast?) :
    word <:+: left ++ x :: x :: right ↔ word <:+: left ∨ word <:+: right := by
  have begins : ∀ {text : List α}, word <+: x :: text → word = [] := by
    intro text starts
    cases word with
    | nil => rfl
    | cons c rest =>
      obtain ⟨rfl, _⟩ := List.cons_prefix_cons.mp starts
      exact absurd rfl head
  have skip : ∀ {text : List α}, word <:+: x :: text → word <:+: text := by
    intro text occurs
    rcases List.infix_cons_iff.mp occurs with starts | later
    · rw [begins starts]
      exact List.nil_infix
    · exact later
  constructor
  · intro occurs
    rcases List.infix_append_iff.mp occurs with inLeft | inRight | ⟨front, back, rfl, ends, starts⟩
    · exact .inl inLeft
    · exact .inr (skip (skip inRight))
    · -- what reaches into the separator would end with `x` or contain it whole
      match back, starts with
      | [], _ => exact .inl (by simpa using ends.isInfix)
      | [c], starts =>
        obtain ⟨rfl, _⟩ := List.cons_prefix_cons.mp starts
        exact absurd (by simp) last
      | c :: d :: rest, starts =>
        obtain ⟨rfl, starts⟩ := List.cons_prefix_cons.mp starts
        obtain ⟨rfl, _⟩ := List.cons_prefix_cons.mp starts
        exact absurd ⟨front, rest, by simp⟩ single
  · rintro (inLeft | inRight)
    · exact List.infix_append_of_infix_left inLeft
    · exact List.infix_append_of_infix_right
        (List.infix_cons_iff.mpr (.inr (List.infix_cons_iff.mpr (.inr inRight))))

/-! ## Cuts -/

/-- `word` occurs in `text` with no position of `cuts` strictly inside. -/
def OccursUncut (cuts : Nat → Prop) (word text : List α) : Prop :=
  ∃ front back, text = front ++ word ++ back ∧
    ∀ n, cuts n → ¬ (front.length < n ∧ n < front.length + word.length)

variable {cuts : Nat → Prop} {text : List α} {r : Nat}

/-- No word has a position in front of it inside. -/
theorem occursUncut_congr {cuts' : Nat → Prop} (same : ∀ n, 0 < n → (cuts n ↔ cuts' n)) :
    OccursUncut cuts word text ↔ OccursUncut cuts' word text := by
  unfold OccursUncut
  constructor
  · rintro ⟨front, back, split, uncut⟩
    exact ⟨front, back, split, fun n isCut inside => uncut n ((same n (by omega)).mpr isCut) inside⟩
  · rintro ⟨front, back, split, uncut⟩
    exact ⟨front, back, split, fun n isCut inside => uncut n ((same n (by omega)).mp isCut) inside⟩

/-- Cuts behind the text do not matter. -/
theorem occursUncut_iff_occurs (beyond : ∀ n, cuts n → text.length ≤ n) :
    OccursUncut cuts word text ↔ word <:+: text := by
  constructor
  · rintro ⟨front, back, rfl, _⟩
    exact ⟨front, back, rfl⟩
  · rintro ⟨front, back, rfl⟩
    refine ⟨front, back, rfl, fun n isCut inside => ?_⟩
    have far := beyond n isCut
    simp only [List.length_append] at far
    omega

@[simp] theorem occursUncut_nil : OccursUncut cuts word [] ↔ word = [] := by
  have beyond : ∀ n, cuts n → ([] : List α).length ≤ n := fun n _ => Nat.zero_le n
  rw [occursUncut_iff_occurs beyond, List.infix_nil]

/-- An uncut occurrence is in front of the first cut or behind it. -/
theorem occursUncut_iff_take_drop (first : cuts r) (beyond : ∀ n, cuts n → r ≤ n) :
    OccursUncut cuts word text ↔
      word <:+: text.take r ∨ OccursUncut (fun n => cuts (r + n)) word (text.drop r) := by
  constructor
  · rintro ⟨front, back, rfl, uncut⟩
    by_cases before : (front ++ word).length ≤ r
    · left
      rw [List.take_append, List.take_of_length_le before]
      exact ⟨front, _, rfl⟩
    · right
      -- the first cut is not strictly inside, so the occurrence begins behind it
      have behind : r ≤ front.length := by
        have outside := uncut r first
        rw [List.length_append] at before
        omega
      refine ⟨front.drop r, back, ?_, ?_⟩
      · rw [List.append_assoc, List.drop_append_of_le_length behind, List.append_assoc]
      · intro n isCut inside
        apply uncut (r + n) isCut
        rw [List.length_drop] at inside
        omega
  · rintro (⟨front, back, inFront⟩ | ⟨front, back, inBack, uncut⟩)
    · refine ⟨front, back ++ text.drop r, ?_, ?_⟩
      · rw [← List.append_assoc, inFront, List.take_append_drop]
      · intro n isCut inside
        have far := beyond n isCut
        have short := congrArg List.length inFront
        simp only [List.length_append, List.length_take] at short
        omega
    · refine ⟨text.take r ++ front, back, ?_, ?_⟩
      · rw [List.append_assoc, List.append_assoc, ← List.append_assoc front, ← inBack,
          List.take_append_drop]
      · intro n isCut inside
        have far := beyond n isCut
        simp only [List.length_append, List.length_take] at inside
        -- behind the first cut nothing is left of a shorter text
        by_cases short : text.length ≤ r
        · rw [List.drop_of_length_le short] at inBack
          have empty := congrArg List.length inBack
          simp only [List.length_nil, List.length_append] at empty
          omega
        · apply uncut (n - r) (by rwa [Nat.add_sub_cancel' far])
          omega

end SupplierAssurance.Lib
