import Mathlib.Data.List.DropRight

/-! # `str` and `re` on texts

A text is the list of its characters.  `isSpace` is `str.isspace` of one character, which
is also what `\s` matches and what `str.strip` removes.
-/

namespace SupplierAssurance.Python

/-- The characters that Python counts as white space. -/
def isSpace (c : Char) : Bool :=
  let n := c.toNat
  (9 ≤ n && n ≤ 13) || (28 ≤ n && n ≤ 32) || n == 0x85 || n == 0xA0 || n == 0x1680 ||
    (0x2000 ≤ n && n ≤ 0x200A) || n == 0x2028 || n == 0x2029 || n == 0x202F || n == 0x205F ||
    n == 0x3000

/-- `text.strip()`. -/
def strip (text : List Char) : List Char :=
  (text.dropWhile isSpace).rdropWhile isSpace

/-- `text[-n:] if n else ""`. -/
def lastChars (n : Nat) (text : List Char) : List Char :=
  if n = 0 then [] else text.rtake n

@[simp] theorem length_lastChars (n : Nat) (text : List Char) :
    (lastChars n text).length = min n text.length := by
  unfold lastChars
  split
  next zero => simp [zero]
  next => simp [List.rtake]; omega

theorem lastChars_suffix (n : Nat) (text : List Char) : lastChars n text <:+ text := by
  unfold lastChars
  split
  · exact List.nil_suffix
  · exact List.drop_suffix _ _

/-- The length of the match of `\s*\n` at the start of a text: the white space is taken
    greedily and given back up to its last line break. -/
def blankLength : List Char → Option Nat
  | [] => none
  | c :: rest =>
    if isSpace c then
      match blankLength rest with
      | some n => some (n + 1)
      | none => if c = '\n' then some 1 else none
    else none

/-- Put a character in front of the first piece. -/
def consHead (c : Char) : List (List Char) → List (List Char)
  | [] => [[c]]
  | piece :: pieces => (c :: piece) :: pieces

/-- `re.split(r"\n\s*\n", text)`, after skipping the characters of a match. -/
def splitBlankFrom : Nat → List Char → List (List Char)
  | _, [] => [[]]
  | skip + 1, _ :: rest => splitBlankFrom skip rest
  | 0, c :: rest =>
    if c = '\n' then
      match blankLength rest with
      | some n => [] :: splitBlankFrom n rest
      | none => consHead c (splitBlankFrom 0 rest)
    else consHead c (splitBlankFrom 0 rest)

/-- `re.split(r"\n\s*\n", text)`. -/
def splitBlank (text : List Char) : List (List Char) :=
  splitBlankFrom 0 text

example : splitBlank "a\n \n\nb\nc".toList = ["a".toList, "b\nc".toList] := by decide

/-- The line boundaries of `str.splitlines`. -/
def isLineBreak (c : Char) : Bool :=
  let n := c.toNat
  (10 ≤ n && n ≤ 13) || (28 ≤ n && n ≤ 30) || n == 0x85 || n == 0x2028 || n == 0x2029

/-- `text.splitlines()`. -/
def splitlines : List Char → List (List Char)
  | [] => []
  | '\r' :: '\n' :: rest => [] :: splitlines rest
  | c :: rest => if isLineBreak c then [] :: splitlines rest else consHead c (splitlines rest)

example : splitlines "a\r\n\nb\n".toList = ["a".toList, [], "b".toList] := by decide

/-- `text.split()`. -/
def splitWords (text : List Char) : List (List Char) :=
  (text.splitOnP isSpace).filter fun word => !word.isEmpty

/-! ## The characters that are not white space -/

def nonSpace (text : List Char) : List Char :=
  text.filter fun c => !isSpace c

variable {text front back : List Char} {c : Char}

@[simp] theorem nonSpace_nil : nonSpace [] = [] := rfl

@[simp] theorem nonSpace_append (front back : List Char) :
    nonSpace (front ++ back) = nonSpace front ++ nonSpace back :=
  List.filter_append ..

theorem nonSpace_of_space (space : isSpace c = true) (text : List Char) :
    nonSpace (c :: text) = nonSpace text := by
  simp [nonSpace, space]

theorem nonSpace_eq_nil (spaces : ∀ c ∈ text, isSpace c = true) : nonSpace text = [] := by
  simpa [nonSpace, List.filter_eq_nil_iff] using spaces

theorem mem_nonSpace : c ∈ nonSpace text ↔ c ∈ text ∧ isSpace c = false := by
  simp [nonSpace]

theorem nonSpace_dropWhile (text : List Char) : nonSpace (text.dropWhile isSpace) = nonSpace text := by
  induction text with
  | nil => rfl
  | cons c rest ih =>
    rw [List.dropWhile_cons]
    split
    next space => rw [ih, nonSpace_of_space space]
    next => rfl

/-- Stripping loses white space only. -/
@[simp] theorem nonSpace_strip (text : List Char) : nonSpace (strip text) = nonSpace text := by
  have reversed (text : List Char) : nonSpace text.reverse = (nonSpace text).reverse :=
    List.filter_reverse ..
  rw [strip, List.rdropWhile, reversed, nonSpace_dropWhile, reversed, List.reverse_reverse,
    nonSpace_dropWhile]

theorem strip_within (text : List Char) : strip text <:+: text :=
  (List.rdropWhile_prefix isSpace _).isInfix.trans (List.dropWhile_suffix isSpace).isInfix

theorem strip_eq_self_of_edges (head : ∀ c ∈ text.head?, isSpace c = false)
    (last : ∀ c ∈ text.getLast?, isSpace c = false) : strip text = text := by
  have front : text.dropWhile isSpace = text := by
    cases text with
    | nil => rfl
    | cons c rest =>
      rw [List.dropWhile_cons, if_neg]
      simpa using head c rfl
  rw [strip, front, List.rdropWhile_eq_self_iff]
  intro some
  simpa using last _ (List.getLast?_eq_some_getLast some)

theorem head_strip (text : List Char) : ∀ c ∈ (strip text).head?, isSpace c = false := by
  intro c first
  obtain ⟨back, split⟩ := List.rdropWhile_prefix isSpace (text.dropWhile isSpace)
  have begins : (text.dropWhile isSpace).head? = some c := by
    rw [← split, List.head?_append, show (List.rdropWhile isSpace _).head? = some c from first]
    rfl
  have stopped := List.head?_dropWhile_not isSpace text
  rw [begins] at stopped
  simpa using stopped

theorem getLast_strip (text : List Char) : ∀ c ∈ (strip text).getLast?, isSpace c = false := by
  intro c last
  obtain ⟨some, rfl⟩ := List.mem_getLast?_eq_getLast last
  exact eq_false_of_ne_true (List.rdropWhile_last_not isSpace (text.dropWhile isSpace) some)

@[simp] theorem strip_strip (text : List Char) : strip (strip text) = strip text :=
  strip_eq_self_of_edges (head_strip text) (getLast_strip text)

/-! ## Splitting loses white space only -/

@[simp] theorem flatten_consHead (c : Char) (pieces : List (List Char)) :
    (consHead c pieces).flatten = c :: pieces.flatten := by
  cases pieces <;> rfl

theorem isSpace_of_blankLength {n : Nat} (blank : blankLength text = some n) :
    ∀ c ∈ text.take n, isSpace c = true := by
  induction text generalizing n with
  | nil => cases blank
  | cons c rest ih =>
    simp only [blankLength] at blank
    split at blank
    next space =>
      split at blank
      next m longer =>
        cases blank
        intro d member
        rcases List.mem_cons.mp member with rfl | later
        · exact space
        · exact ih longer d later
      next =>
        split at blank
        · cases blank
          simpa using space
        · cases blank
    next => cases blank

theorem nonSpace_splitBlankFrom (skip : Nat) (text : List Char) :
    nonSpace (splitBlankFrom skip text).flatten = nonSpace (text.drop skip) := by
  induction text generalizing skip with
  | nil => simp [splitBlankFrom]
  | cons c rest ih =>
    cases skip with
    | succ skip => exact ih skip
    | zero =>
      have kept : nonSpace (consHead c (splitBlankFrom 0 rest)).flatten = nonSpace (c :: rest) := by
        rw [flatten_consHead, ← List.singleton_append, nonSpace_append, ih 0, List.drop_zero,
          ← nonSpace_append, List.singleton_append]
      simp only [splitBlankFrom]
      split
      next newline =>
        split
        next n blank =>
          have lost : nonSpace rest = nonSpace (rest.drop n) := by
            rw [← List.take_append_drop n rest, nonSpace_append,
              nonSpace_eq_nil (isSpace_of_blankLength blank), List.nil_append,
              List.take_append_drop]
          rw [List.flatten_cons, List.nil_append, ih n, ← lost, List.drop_zero, newline,
            nonSpace_of_space (by decide)]
        next => exact kept
      next => exact kept

theorem nonSpace_splitBlank (text : List Char) :
    nonSpace (splitBlank text).flatten = nonSpace text :=
  nonSpace_splitBlankFrom 0 text

/-! ## No blank line is left -/

theorem blankLength_newline (rest : List Char) : blankLength ('\n' :: rest) ≠ none := by
  have space : isSpace '\n' = true := by decide
  simp only [blankLength, space, if_true]
  split <;> simp

theorem head_splitBlankFrom (text : List Char) :
    ∀ piece ∈ (splitBlankFrom 0 text).head?, piece <+: text := by
  induction text with
  | nil => simp [splitBlankFrom]
  | cons c rest ih =>
    have kept : ∀ piece ∈ (consHead c (splitBlankFrom 0 rest)).head?, piece <+: c :: rest := by
      cases pieces : splitBlankFrom 0 rest with
      | nil => simp [consHead]
      | cons first others =>
        intro piece isFirst
        rw [pieces] at ih
        cases isFirst
        exact List.cons_prefix_cons.mpr ⟨rfl, ih first rfl⟩
    simp only [splitBlankFrom]
    split
    · split
      · simp
      · exact kept
    · exact kept

theorem no_blank_of_mem_splitBlankFrom (skip : Nat) (text : List Char) :
    ∀ piece ∈ splitBlankFrom skip text, ¬ ['\n', '\n'] <:+: piece := by
  induction text generalizing skip with
  | nil => simp [splitBlankFrom]
  | cons c rest ih =>
    cases skip with
    | succ skip => exact ih skip
    | zero =>
      -- a line break in front of another one would have begun a separator
      have kept : (c = '\n' → blankLength rest = none) →
          ∀ piece ∈ consHead c (splitBlankFrom 0 rest), ¬ ['\n', '\n'] <:+: piece := by
        intro noBlank piece member occurs
        have heads := head_splitBlankFrom rest
        have later := ih 0
        cases pieces : splitBlankFrom 0 rest with
        | nil =>
          rw [pieces] at member
          rw [List.mem_singleton.mp member] at occurs
          exact absurd occurs.length_le (by simp)
        | cons first others =>
          rw [pieces] at member heads later
          rcases List.mem_cons.mp member with rfl | inOthers
          · rcases List.infix_cons_iff.mp occurs with starts | inFirst
            · obtain ⟨rfl, again⟩ := List.cons_prefix_cons.mp starts
              obtain ⟨back, rfl⟩ := again.trans (heads first rfl)
              exact blankLength_newline back (noBlank rfl)
            · exact later first List.mem_cons_self inFirst
          · exact later piece (List.mem_cons_of_mem _ inOthers) occurs
      simp only [splitBlankFrom]
      split
      next newline =>
        split
        next n _ =>
          intro piece member
          rcases List.mem_cons.mp member with rfl | later
          · simp
          · exact ih n piece later
        next noBlank => exact kept fun _ => noBlank
      next other => exact kept fun newline => absurd newline other

/-! ## Words in lines -/

variable {word line : List Char}

theorem infix_dropWhile_isSpace (nonempty : word ≠ []) (head : ∀ c ∈ word.head?, isSpace c = false)
    (occurs : word <:+: text) : word <:+: text.dropWhile isSpace := by
  obtain ⟨front, back, rfl⟩ := occurs
  obtain ⟨c, rest, rfl⟩ := List.exists_cons_of_ne_nil nonempty
  have stops : ((c :: rest) ++ back).dropWhile isSpace = (c :: rest) ++ back := by
    simp [head c rfl]
  rw [List.append_assoc, List.dropWhile_append, stops]
  split
  · exact (List.prefix_append _ _).isInfix
  · exact List.infix_append_of_infix_right (List.prefix_append _ _).isInfix

/-- Stripping a text keeps the words without white space at their ends. -/
theorem infix_strip (nonempty : word ≠ []) (head : ∀ c ∈ word.head?, isSpace c = false)
    (last : ∀ c ∈ word.getLast?, isSpace c = false) (occurs : word <:+: text) : word <:+: strip text := by
  have front := infix_dropWhile_isSpace nonempty head occurs
  have reversed : word.reverse <:+: (text.dropWhile isSpace).reverse := List.reverse_infix.mpr front
  have back := infix_dropWhile_isSpace (by simpa using nonempty) (by simpa using last) reversed
  rw [strip, List.rdropWhile, ← List.reverse_infix, List.reverse_reverse]
  exact back

theorem newline_notMem_consHead {pieces : List (List Char)} (other : c ≠ '\n')
    (lines : ∀ line ∈ pieces, '\n' ∉ line) : ∀ line ∈ consHead c pieces, '\n' ∉ line := by
  cases pieces with
  | nil => simpa [consHead] using other.symm
  | cons first rest =>
    intro line member
    cases List.mem_cons.mp member with
    | inl isHead =>
      rw [isHead, List.mem_cons, not_or]
      exact ⟨other.symm, lines first List.mem_cons_self⟩
    | inr later => exact lines line (List.mem_cons_of_mem _ later)

/-- A line has no line feed. -/
theorem newline_notMem_splitlines (text : List Char) : ∀ line ∈ splitlines text, '\n' ∉ line := by
  induction text using splitlines.induct with
  | case1 => simp [splitlines]
  | case2 rest ih => simpa [splitlines] using ih
  | case3 c rest notPair isBreak ih =>
    rw [splitlines, if_pos isBreak]
    · simpa using ih
    · exact notPair
  | case4 c rest notPair noBreak ih =>
    have other : c ≠ '\n' := by
      rintro rfl
      exact noBreak (by decide)
    rw [splitlines, if_neg noBreak]
    · exact newline_notMem_consHead other ih
    · exact notPair

/-! ## `str` of a number -/

theorem notMem_toDigits {c : Char} (noDigit : c.isDigit = false) (n : Nat) :
    c ∉ Nat.toDigits 10 n := by
  intro member
  have digit := Nat.isDigit_of_mem_toDigits (by decide) (by decide) member
  rw [noDigit] at digit
  cases digit

end SupplierAssurance.Python
