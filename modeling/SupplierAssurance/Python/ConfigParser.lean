import Mathlib.Data.List.Infix

/-! # `configparser.ConfigParser` with its basic interpolation

A section maps option names to values.  `set` refuses a value with a percent sign that begins
neither an escape `%%` nor a reference `%(name)s`, and `get` expands both.  A value without a
percent sign is accepted and comes back unchanged; a value with one does not, unless other options
supply the difference.
-/

namespace SupplierAssurance.Python.ConfigParser

/-! ## References -/

/-- `_KEYCRE.match(text)`: the name of the reference `%(name)s` that a text starts with. -/
def reference? : List Char → Option (List Char)
  | '%' :: '(' :: rest =>
    let name := rest.takeWhile fun c => c ≠ ')'
    if name ≠ [] ∧ [')', 's'] <+: rest.drop name.length then some name else none
  | _ => none

example : reference? "%(here)s/versions".toList = some "here".toList := by decide

/-! ## Setting an option -/

/-- `value.replace("%%", "")`. -/
def removeEscapes : List Char → List Char
  | '%' :: '%' :: rest => removeEscapes rest
  | c :: rest => c :: removeEscapes rest
  | [] => []

/-- `_KEYCRE.sub("", value)`, after skipping the characters of a match. -/
def removeReferences : Nat → List Char → List Char
  | _, [] => []
  | skip + 1, _ :: rest => removeReferences skip rest
  | 0, c :: rest =>
    match reference? (c :: rest) with
    | some name => removeReferences (name.length + 3) rest
    | none => c :: removeReferences 0 rest

/-- `before_set`; `none` is the `ValueError`. -/
def beforeSet (value : List Char) : Option (List Char) :=
  if '%' ∈ removeReferences 0 (removeEscapes value) then none else some value

/-- The options that a name finds in a section. -/
abbrev Section := List Char → Option (List Char)

/-- `optionxform`, on the names used here. -/
def optionxform (name : List Char) : List Char :=
  name.map Char.toLower

/-- `set(section, option, value)`; `none` is the `ValueError`. -/
def set (options : Section) (option value : List Char) : Option Section :=
  (beforeSet value).map fun accepted name =>
    if optionxform name = optionxform option then some accepted else options name

/-! ## Looking an option up -/

/-- What `_interpolate_some` distinguishes in a value. -/
inductive Piece where
  | char (c : Char)
  | percent
  | reference (name : List Char)
deriving DecidableEq

/-- The pieces of a value, after skipping the characters of one; `none` is the
    `InterpolationSyntaxError`. -/
def pieces : Nat → List Char → Option (List Piece)
  | _, [] => some []
  | skip + 1, _ :: rest => pieces skip rest
  | 0, c :: rest =>
    if c ≠ '%' then (pieces 0 rest).map (Piece.char c :: ·)
    else if rest.head? = some '%' then (pieces 1 rest).map (Piece.percent :: ·)
    else if rest.head? = some '(' then
      (reference? (c :: rest)).bind fun name =>
        (pieces (name.length + 3) rest).map (Piece.reference name :: ·)
    else none

/-- Concatenate what the pieces stand for. -/
def joinPieces (expand : List Char → Option (List Char)) : List Piece → Option (List Char)
  | [] => some []
  | .char c :: rest => (joinPieces expand rest).map (c :: ·)
  | .percent :: rest => (joinPieces expand rest).map ('%' :: ·)
  | .reference name :: rest =>
    (expand name).bind fun referred => (joinPieces expand rest).map (referred ++ ·)

/-- `_interpolate_some` with this many levels left. -/
def interpolate (options : Section) : Nat → List Char → Option (List Char)
  | 0, _ => none
  | levels + 1, value =>
    (pieces 0 value).bind <| joinPieces fun name =>
      (options name).bind fun referred =>
        if '%' ∈ referred then interpolate options levels referred else some referred

/-- `MAX_INTERPOLATION_DEPTH`. -/
def maxInterpolationDepth : Nat := 10

/-- `get(section, option)`; `none` is an error. -/
def get (options : Section) (option : List Char) : Option (List Char) :=
  (options option).bind (interpolate options maxInterpolationDepth)

/-- `set` and then `get` of one option. -/
def setThenGet (options : Section) (option value : List Char) : Option (List Char) :=
  (set options option value).bind fun changed => get changed option

variable {options : Section} {option value front back : List Char} {c : Char}

/-! ## Values without a percent sign -/

theorem reference?_eq_none (other : c ≠ '%') (rest : List Char) : reference? (c :: rest) = none := by
  rw [reference?]
  rintro tail same
  exact absurd (List.cons.inj same).1 other

theorem removeEscapes_cons (other : c ≠ '%') (rest : List Char) :
    removeEscapes (c :: rest) = c :: removeEscapes rest := by
  rw [removeEscapes]
  rintro tail same
  exact fun _ => absurd same other

theorem removeReferences_cons (none : reference? (c :: back) = none) :
    removeReferences 0 (c :: back) = c :: removeReferences 0 back := by
  rw [removeReferences, none]

/-- A front without percent signs stays. -/
theorem removeEscapes_append (free : '%' ∉ front) (back : List Char) :
    removeEscapes (front ++ back) = front ++ removeEscapes back := by
  induction front with
  | nil => rfl
  | cons c front ih =>
    obtain ⟨other, later⟩ := not_or.mp (List.mem_cons.not.mp free)
    rw [List.cons_append, removeEscapes_cons (Ne.symm other), ih later, List.cons_append]

theorem removeReferences_append (free : '%' ∉ front) (back : List Char) :
    removeReferences 0 (front ++ back) = front ++ removeReferences 0 back := by
  induction front with
  | nil => rfl
  | cons c front ih =>
    obtain ⟨other, later⟩ := not_or.mp (List.mem_cons.not.mp free)
    rw [List.cons_append, removeReferences_cons (reference?_eq_none (Ne.symm other) _), ih later,
      List.cons_append]

theorem beforeSet_of_free (free : '%' ∉ value) : beforeSet value = some value := by
  have escapes : removeEscapes value = value := by
    simpa [removeEscapes] using removeEscapes_append free []
  have references : removeReferences 0 value = value := by
    simpa [removeReferences] using removeReferences_append free []
  rw [beforeSet, escapes, references, if_neg free]

theorem pieces_of_free (free : '%' ∉ value) : pieces 0 value = some (value.map Piece.char) := by
  induction value with
  | nil => rfl
  | cons c rest ih =>
    obtain ⟨other, later⟩ := not_or.mp (List.mem_cons.not.mp free)
    rw [pieces, if_pos (Ne.symm other), ih later]
    rfl

theorem joinPieces_map_char (expand : List Char → Option (List Char)) (value : List Char) :
    joinPieces expand (value.map Piece.char) = some value := by
  induction value with
  | nil => rfl
  | cons c rest ih => rw [List.map_cons, joinPieces, ih, Option.map_some]

/-- A value without a percent sign is accepted and comes back. -/
theorem setThenGet_of_free (free : '%' ∉ value) : setThenGet options option value = some value := by
  rw [setThenGet, set, beforeSet_of_free free, Option.map_some, Option.bind_some, get, if_pos rfl,
    Option.bind_some, maxInterpolationDepth, interpolate, pieces_of_free free, Option.bind_some,
    joinPieces_map_char]

/-! ## Values with a percent sign -/

/-- The first percent sign begins neither an escape nor a reference. -/
def BareSign (value : List Char) : Prop :=
  ∃ front d back, value = front ++ '%' :: d :: back ∧ '%' ∉ front ∧ d ≠ '%' ∧ d ≠ '('

theorem BareSign.append_left (free : '%' ∉ front) (bare : BareSign value) :
    BareSign (front ++ value) := by
  obtain ⟨before, d, back, rfl, free', other⟩ := bare
  refine ⟨front ++ before, d, back, (List.append_assoc ..).symm, ?_, other⟩
  exact List.mem_append.not.mpr (not_or_intro free free')

theorem BareSign.append_right (bare : BareSign value) (back : List Char) :
    BareSign (value ++ back) := by
  obtain ⟨before, d, rest, rfl, other⟩ := bare
  exact ⟨before, d, rest ++ back, by simp, other⟩

/-- `set` refuses a bare sign. -/
theorem beforeSet_eq_none (bare : BareSign value) : beforeSet value = none := by
  obtain ⟨front, d, back, rfl, free, noEscape, noReference⟩ := bare
  have escapes : removeEscapes ('%' :: d :: back) = '%' :: d :: removeEscapes back := by
    rw [removeEscapes, removeEscapes_cons noEscape]
    rintro tail _ same
    exact absurd (List.cons.inj same).1 noEscape
  have plain : reference? ('%' :: d :: removeEscapes back) = none := by
    rw [reference?]
    rintro tail same
    exact absurd (List.cons.inj (List.cons.inj same).2).1 noReference
  rw [beforeSet, removeEscapes_append free, escapes, removeReferences_append free,
    removeReferences_cons plain, if_pos]
  exact List.mem_append_right _ List.mem_cons_self

/-- An escape is longer than what it stands for, and so is a reference than one piece. -/
theorem length_pieces {skip : Nat} {parts : List Piece} (parsed : pieces skip value = some parts) :
    parts.length ≤ value.length - skip ∧
      (skip = 0 → '%' ∈ value → parts.length < value.length) := by
  induction skip, value using pieces.induct generalizing parts with
  | case1 skip =>
    cases parsed
    exact ⟨Nat.zero_le _, fun _ member => absurd member List.not_mem_nil⟩
  | case2 skip c rest ih =>
    have later := (ih parsed).1
    rw [List.length_cons]
    exact ⟨by omega, by omega⟩
  | case3 c rest other ih =>
    rw [pieces, if_pos other] at parsed
    obtain ⟨later, found, rfl⟩ := Option.map_eq_some_iff.mp parsed
    obtain ⟨bound, strict⟩ := ih found
    simp only [List.length_cons]
    refine ⟨by omega, fun _ member => ?_⟩
    have := strict rfl ((List.mem_cons.mp member).resolve_left (Ne.symm other))
    omega
  | case4 c rest sign escape ih =>
    -- `%%` is one piece for two characters
    rw [pieces, if_neg sign, if_pos escape] at parsed
    obtain ⟨later, found, rfl⟩ := Option.map_eq_some_iff.mp parsed
    have bound := (ih found).1
    have inhabited : 0 < rest.length := List.length_pos_iff.mpr fun empty => by simp [empty] at escape
    simp only [List.length_cons]
    exact ⟨by omega, by omega⟩
  | case5 c rest sign noEscape paren ih =>
    -- `%(name)s` is one piece for at least four
    rw [pieces, if_neg sign, if_neg noEscape, if_pos paren] at parsed
    obtain ⟨name, _, rest'⟩ := Option.bind_eq_some_iff.mp parsed
    obtain ⟨later, found, rfl⟩ := Option.map_eq_some_iff.mp rest'
    have bound := (ih name found).1
    have inhabited : 0 < rest.length := List.length_pos_iff.mpr fun empty => by simp [empty] at paren
    simp only [List.length_cons]
    exact ⟨by omega, by omega⟩
  | case6 c rest sign noEscape noParen =>
    rw [pieces, if_neg sign, if_neg noEscape, if_neg noParen] at parsed
    cases parsed

/-- Without references there is one character for each piece. -/
theorem length_joinPieces {expand : List Char → Option (List Char)} {parts : List Piece}
    {text : List Char} (noReference : ∀ name, Piece.reference name ∉ parts)
    (joined : joinPieces expand parts = some text) : text.length = parts.length := by
  induction parts generalizing text with
  | nil =>
    cases joined
    rfl
  | cons part rest ih =>
    have later : ∀ name, Piece.reference name ∉ rest :=
      fun name member => noReference name (List.mem_cons_of_mem _ member)
    cases part with
    | char c =>
      obtain ⟨tail, found, rfl⟩ := Option.map_eq_some_iff.mp joined
      rw [List.length_cons, List.length_cons, ih later found]
    | percent =>
      obtain ⟨tail, found, rfl⟩ := Option.map_eq_some_iff.mp joined
      rw [List.length_cons, List.length_cons, ih later found]
    | reference name => exact absurd List.mem_cons_self (noReference name)

/-- A name that cannot be expanded stops the whole value. -/
theorem joinPieces_eq_none {expand : List Char → Option (List Char)} {parts : List Piece}
    {name : List Char} (member : Piece.reference name ∈ parts) (unknown : expand name = none) :
    joinPieces expand parts = none := by
  induction parts with
  | nil => cases member
  | cons part rest ih =>
    cases List.mem_cons.mp member with
    | inl here => rw [← here, joinPieces, unknown, Option.bind_none]
    | inr later =>
      cases part with
      | char c => rw [joinPieces, ih later, Option.map_none]
      | percent => rw [joinPieces, ih later, Option.map_none]
      | reference other =>
        rw [joinPieces, ih later]
        cases expand other <;> rfl

/-- In a section that holds nothing but a value with a reference, the reference leads to no name or
    back to the value, down to the depth limit. -/
theorem interpolate_self_eq_none {parts : List Piece} {name : List Char}
    (alone : ∀ name, options name = none ∨ options name = some value) (percent : '%' ∈ value)
    (parsed : pieces 0 value = some parts) (member : Piece.reference name ∈ parts) (levels : Nat) :
    interpolate options levels value = none := by
  induction levels with
  | zero => rfl
  | succ levels ih =>
    rw [interpolate, parsed, Option.bind_some]
    apply joinPieces_eq_none member
    cases alone name with
    | inl missing => rw [missing, Option.bind_none]
    | inr itself => rw [itself, Option.bind_some, if_pos percent, ih]

/-- A value with a percent sign does not come back from a section without other options. -/
theorem setThenGet_ne_of_percent (percent : '%' ∈ value) :
    setThenGet (fun _ => none) option value ≠ some value := by
  intro unchanged
  simp only [setThenGet, set, get, Option.bind_eq_some_iff, Option.map_eq_some_iff] at unchanged
  obtain ⟨_, ⟨accepted, checked, rfl⟩, found, looked, expanded⟩ := unchanged
  have same : accepted = value := by
    rw [beforeSet] at checked
    split at checked
    · cases checked
    · exact (Option.some.inj checked).symm
  subst same
  obtain rfl : accepted = found := by simpa using looked
  set options : Section := fun name =>
    if optionxform name = optionxform option then some accepted else none with section_
  -- every name leads to the option itself or nowhere
  have alone : ∀ name, options name = none ∨ options name = some accepted := by
    intro name
    rw [section_]
    dsimp only
    split
    · exact .inr rfl
    · exact .inl rfl
  cases parsed : pieces 0 accepted with
  | none =>
    rw [maxInterpolationDepth, interpolate, parsed] at expanded
    cases expanded
  | some parts =>
    by_cases referring : ∃ name, Piece.reference name ∈ parts
    · obtain ⟨name, member⟩ := referring
      rw [interpolate_self_eq_none alone percent parsed member] at expanded
      cases expanded
    · rw [maxInterpolationDepth, interpolate, parsed, Option.bind_some] at expanded
      have shorter := (length_pieces parsed).2 rfl percent
      have same := length_joinPieces (not_exists.mp referring) expanded
      omega

end SupplierAssurance.Python.ConfigParser
