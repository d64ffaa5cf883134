import SupplierAssurance.Python.Json

/-! # `json.loads`

The reader of JSON text, and that it undoes `json.dumps`.

Strings go through UTF-16 code units, because that is what an escape writes: a character
outside the basic plane comes back from a pair of surrogates.  A lone surrogate, which
Python keeps in a string, is refused here.  The fuel of the reader is the length of the
text, and every value takes at least one character of it.
-/

namespace SupplierAssurance.Python

namespace Json

/-! ## Strings

A literal is read as UTF-16 code units, which is what its escapes write, and the units are
then decoded. -/

def utf16 (c : Char) : List Nat :=
  if c.toNat < 0x10000 then [c.toNat]
  else [0xD800 + (c.toNat - 0x10000) / 0x400, 0xDC00 + (c.toNat - 0x10000) % 0x400]

def shortEscape (c : Char) : Option Nat :=
  if c = '"' ∨ c = '\\' ∨ c = '/' then some c.toNat
  else if c = 'n' then some 10
  else if c = 'r' then some 13
  else if c = 't' then some 9
  else if c = 'b' then some 8
  else if c = 'f' then some 12
  else none

/-- The code units up to the closing quote, and the text after it. -/
def scanString : List Char → Option (List Nat × List Char)
  | [] => none
  | c :: text =>
    if c = '"' then some ([], text)
    else if c = '\\' then
      match text with
      | [] => none
      | e :: text =>
        if e = 'u' then
          match text with
          | d₁ :: d₂ :: d₃ :: d₄ :: text =>
            (readHex [d₁, d₂, d₃, d₄]).bind fun unit =>
              (scanString text).map fun found => (unit :: found.1, found.2)
          | _ => none
        else
          (shortEscape e).bind fun unit =>
            (scanString text).map fun found => (unit :: found.1, found.2)
    else if c.toNat < 32 then none
    else (scanString text).map fun found => (utf16 c ++ found.1, found.2)
termination_by structural text => text

/-- A lone surrogate is no character. -/
def decodeUnits : List Nat → Option (List Char)
  | [] => some []
  | unit :: units =>
    if 0xD800 ≤ unit ∧ unit < 0xDC00 then
      match units with
      | [] => none
      | low :: units =>
        if 0xDC00 ≤ low ∧ low < 0xE000 then
          (decodeUnits units).map fun chars =>
            Char.ofNat (0x10000 + (unit - 0xD800) * 0x400 + (low - 0xDC00)) :: chars
        else none
    else if 0xDC00 ≤ unit ∧ unit < 0xE000 then none
    else (decodeUnits units).map fun chars => Char.ofNat unit :: chars

/-- The rest of a string literal whose opening quote has been read. -/
def readString (text : List Char) : Option (String × List Char) :=
  (scanString text).bind fun found =>
    (decodeUnits found.1).map fun chars => (String.ofList chars, found.2)

theorem scanString_quote (text : List Char) : scanString ('"' :: text) = some ([], text) := by
  rw [scanString.eq_def]
  simp

theorem scanString_plain {c : Char} (quote : c ≠ '"') (backslash : c ≠ '\\') (printable : 32 ≤ c.toNat)
    (text : List Char) :
    scanString (c :: text) = (scanString text).map fun found => (utf16 c ++ found.1, found.2) := by
  rw [scanString.eq_def]
  simp only [if_neg quote, if_neg backslash, if_neg (Nat.not_lt.mpr printable)]

theorem scanString_short {e : Char} {unit : Nat} (unicode : e ≠ 'u') (escape : shortEscape e = some unit)
    (text : List Char) :
    scanString ('\\' :: e :: text) = (scanString text).map fun found => (unit :: found.1, found.2) := by
  rw [scanString.eq_def]
  simp [unicode, escape]

theorem scanString_unicodeEscape {unit : Nat} (bound : unit < 0x10000) (text : List Char) :
    scanString (unicodeEscape unit ++ text) =
      (scanString text).map fun found => (unit :: found.1, found.2) := by
  obtain ⟨d₁, d₂, d₃, d₄, digits⟩ : ∃ d₁ d₂ d₃ d₄, hexDigits 4 unit = [d₁, d₂, d₃, d₄] :=
    List.length_eq_four.mp (hexDigits_length 4 unit)
  have value : readHex [d₁, d₂, d₃, d₄] = some unit := by
    rw [← digits, readHex_hexDigits]
    exact congrArg some (Nat.mod_eq_of_lt bound)
  rw [unicodeEscape, digits, List.cons_append, List.cons_append, scanString.eq_def]
  simp [value]

/-- The offset of a character above the basic plane fits in two surrogates. -/
theorem surrogates {c : Char} (large : 0x10000 ≤ c.toNat) :
    (c.toNat - 0x10000) / 0x400 < 0x400 ∧ (c.toNat - 0x10000) % 0x400 < 0x400 := by
  have valid : c.toNat < 0xD800 ∨ 0xDFFF < c.toNat ∧ c.toNat < 0x110000 := c.valid
  omega

theorem scanString_escapeChar (c : Char) (text : List Char) :
    scanString (escapeChar c ++ text) =
      (scanString text).map fun found => (utf16 c ++ found.1, found.2) := by
  rw [escapeChar]
  split
  next isQuote =>
    subst isQuote
    exact scanString_short (by decide) (by decide) text
  split
  next isBackslash =>
    subst isBackslash
    exact scanString_short (by decide) (by decide) text
  split
  next isNewline =>
    subst isNewline
    exact scanString_short (by decide) (by decide) text
  split
  next isReturn =>
    subst isReturn
    exact scanString_short (by decide) (by decide) text
  split
  next isTab =>
    subst isTab
    exact scanString_short (by decide) (by decide) text
  split
  next isBackspace =>
    rw [utf16, isBackspace, if_pos (by decide)]
    exact scanString_short (by decide) (by decide) text
  split
  next isFormFeed =>
    rw [utf16, isFormFeed, if_pos (by decide)]
    exact scanString_short (by decide) (by decide) text
  next quote backslash _ _ _ _ _ =>
    split
    next printable => exact scanString_plain quote backslash printable.1 text
    split
    next small =>
      rw [utf16, if_pos small, scanString_unicodeEscape small]
      rfl
    next large =>
      obtain ⟨high, low⟩ := surrogates (Nat.le_of_not_lt large)
      rw [utf16, if_neg large, List.append_assoc, scanString_unicodeEscape (by omega),
        scanString_unicodeEscape (by omega), Option.map_map]
      rfl

theorem decodeUnits_utf16 (c : Char) (units : List Nat) :
    decodeUnits (utf16 c ++ units) = (decodeUnits units).map (c :: ·) := by
  have valid : c.toNat < 0xD800 ∨ 0xDFFF < c.toNat ∧ c.toNat < 0x110000 := c.valid
  rw [utf16]
  split
  next small =>
    have noHigh : ¬ (0xD800 ≤ c.toNat ∧ c.toNat < 0xDC00) := by omega
    have noLow : ¬ (0xDC00 ≤ c.toNat ∧ c.toNat < 0xE000) := by omega
    rw [List.singleton_append, decodeUnits.eq_def]
    simp only [if_neg noHigh, if_neg noLow, Char.ofNat_toNat]
  next large =>
    obtain ⟨high, low⟩ := surrogates (Nat.le_of_not_lt large)
    have isHigh : 0xD800 ≤ 0xD800 + (c.toNat - 0x10000) / 0x400 ∧
        0xD800 + (c.toNat - 0x10000) / 0x400 < 0xDC00 := by omega
    have isLow : 0xDC00 ≤ 0xDC00 + (c.toNat - 0x10000) % 0x400 ∧
        0xDC00 + (c.toNat - 0x10000) % 0x400 < 0xE000 := by omega
    have value : 0x10000 + (0xD800 + (c.toNat - 0x10000) / 0x400 - 0xD800) * 0x400 +
        (0xDC00 + (c.toNat - 0x10000) % 0x400 - 0xDC00) = c.toNat := by omega
    rw [List.cons_append, List.singleton_append, decodeUnits.eq_def]
    simp only [if_pos isHigh, if_pos isLow, value, Char.ofNat_toNat]

theorem readString_dumpsStr (s : String) (text : List Char) :
    readString (s.toList.flatMap escapeChar ++ '"' :: text) = some (s, text) := by
  have scanned : ∀ chars : List Char, scanString (chars.flatMap escapeChar ++ '"' :: text) =
      some (chars.flatMap utf16, text) := by
    intro chars
    induction chars with
    | nil => exact scanString_quote text
    | cons c chars ih =>
      rw [List.flatMap_cons, List.append_assoc, scanString_escapeChar, ih]
      rfl
  have decoded : ∀ chars : List Char, decodeUnits (chars.flatMap utf16) = some chars := by
    intro chars
    induction chars with
    | nil => rfl
    | cons c chars ih =>
      rw [List.flatMap_cons, decodeUnits_utf16, ih]
      rfl
  simp [readString, scanned, decoded]
/-! ## Numbers -/

def numberChar (c : Char) : Bool :=
  c.isDigit || c = '-' || c = '+' || c = '.' || c = 'e' || c = 'E'

/-- Digits without a superfluous zero in front. -/
def natural (digits : List Char) : Bool :=
  digits ≠ [] && digits.all Char.isDigit && (digits.head? ≠ some '0' || digits.length = 1)

/-- What may follow the whole part of a float: a fraction, an exponent or both. -/
def fractional (text : List Char) : Bool :=
  let afterPoint :=
    match text with
    | [] => text
    | c :: rest => if c = '.' ∧ rest.takeWhile Char.isDigit ≠ [] then rest.dropWhile Char.isDigit else text
  text ≠ [] &&
    match afterPoint with
    | [] => true
    | c :: rest =>
      let digits := if rest.head? = some '-' ∨ rest.head? = some '+' then rest.drop 1 else rest
      (c = 'e' || c = 'E') && digits ≠ [] && digits.all Char.isDigit

/-- An integer is read as a number; a float keeps its text. -/
def readNumber (token : List Char) : Option Json :=
  let digits := if token.head? = some '-' then token.drop 1 else token
  if natural digits then
    let n := Nat.ofDigitChars 10 digits 0
    some (.int (if token.head? = some '-' then -(n : Int) else n))
  else if natural (digits.takeWhile Char.isDigit) ∧ fractional (digits.dropWhile Char.isDigit) then
    some (.float (String.ofList token))
  else none

/-! ## Values -/

def isSpace (c : Char) : Bool :=
  c = ' ' || c = '\t' || c = '\n' || c = '\r'

/-- The text after `c`, with white space before it. -/
def expect (c : Char) (text : List Char) : Option (List Char) :=
  match text.dropWhile isSpace with
  | [] => none
  | d :: rest => if d = c then some rest else none

def readLiteral (literal : List Char) (value : Json) (text : List Char) : Option (Json × List Char) :=
  if text.take literal.length = literal then some (value, text.drop literal.length) else none

/-- `fields[key] = value`: a key keeps its first place and takes its last value. -/
def setField (fields : List (String × Json)) (key : String) (value : Json) : List (String × Json) :=
  if key ∈ fields.map (·.1) then
    fields.map fun field => if field.1 = key then (key, value) else field
  else fields ++ [(key, value)]

mutual

def readValue : Nat → List Char → Option (Json × List Char)
  | 0, _ => none
  | fuel + 1, text =>
    match text.dropWhile isSpace with
    | [] => none
    | c :: rest =>
      if c = '"' then (readString rest).map fun found => (.str found.1, found.2)
      else if c = '[' then
        match expect ']' rest with
        | some rest => some (.arr [], rest)
        | none => (readItems fuel rest).map fun found => (.arr found.1, found.2)
      else if c = '\x7b' then
        match expect '\x7d' rest with
        | some rest => some (.obj [], rest)
        | none => (readFields fuel [] rest).map fun found => (.obj found.1, found.2)
      else if c = 'n' then readLiteral "null".toList .null (c :: rest)
      else if c = 't' then readLiteral "true".toList (.bool true) (c :: rest)
      else if c = 'f' then readLiteral "false".toList (.bool false) (c :: rest)
      else (readNumber ((c :: rest).takeWhile numberChar)).map fun number =>
        (number, (c :: rest).dropWhile numberChar)

/-- The items of an array that has one, and the text after its bracket. -/
def readItems : Nat → List Char → Option (List Json × List Char)
  | 0, _ => none
  | fuel + 1, text =>
    (readValue fuel text).bind fun item =>
      match expect ',' item.2 with
      | some rest => (readItems fuel rest).map fun found => (item.1 :: found.1, found.2)
      | none => (expect ']' item.2).map fun rest => ([item.1], rest)

/-- The fields of an object that has one, after those already read. -/
def readFields : Nat → List (String × Json) → List Char → Option (List (String × Json) × List Char)
  | 0, _, _ => none
  | fuel + 1, fields, text =>
    (expect '"' text).bind fun rest =>
      (readString rest).bind fun key =>
        (expect ':' key.2).bind fun rest =>
          (readValue fuel rest).bind fun value =>
            let fields := setField fields key.1 value.1
            match expect ',' value.2 with
            | some rest => readFields fuel fields rest
            | none => (expect '\x7d' value.2).map fun rest => (fields, rest)

end

/-- `json.loads(text)`; `none` stands for the `JSONDecodeError`. -/
def loads (text : String) : Option Json :=
  (readValue (text.length + 1) text.toList).bind fun found =>
    if found.2.all isSpace then some found.1 else none

/-! ## The round trip -/

/-- Values that Python's `json` writes: the keys of a dictionary are distinct, and a float is
    written as a number that is not an integer. -/
inductive Serializable : Json → Prop
  | null : Serializable .null
  | bool (b : Bool) : Serializable (.bool b)
  | int (n : Int) : Serializable (.int n)
  | float {repr : String} : repr.toList.all numberChar = true →
      readNumber repr.toList = some (.float repr) → Serializable (.float repr)
  | str (s : String) : Serializable (.str s)
  | arr {items : List Json} : (∀ item ∈ items, Serializable item) → Serializable (.arr items)
  | obj {fields : List (String × Json)} : (fields.map (·.1)).Nodup →
      (∀ field ∈ fields, Serializable field.2) → Serializable (.obj fields)

/-- What follows does not continue a number. -/
def Ends (text : List Char) : Prop :=
  ∀ c, text.head? = some c → numberChar c = false

def textWith (separators : Separators) (j : Json) : List Char :=
  (dumpsWith separators j).toList

/-- The separators of a comma and a colon with blanks after them. -/
structure Separators.Plain (separators : Separators) : Prop where
  item : ∃ n, separators.item.toList = ',' :: List.replicate n ' '
  key : ∃ n, separators.key.toList = ':' :: List.replicate n ' '

theorem head_toDigits (n : Nat) : (Nat.toDigits 10 (n + 1)).head? ≠ some '0' := by
  induction n using Nat.strong_induction_on with
  | _ n ih =>
    by_cases small : n + 1 < 10
    · simp [Nat.toDigits_of_lt_base small]
    · have shorter : (n + 1) / 10 - 1 < n := by omega
      have high := ih _ shorter
      rw [Nat.sub_add_cancel (by omega)] at high
      rw [Nat.toDigits_of_base_le (by decide) (by omega)]
      cases digits : Nat.toDigits 10 ((n + 1) / 10) with
      | nil => exact absurd digits Nat.toDigits_ne_nil
      | cons d rest => simpa [digits] using high

theorem natural_toDigits (n : Nat) : natural (Nat.toDigits 10 n) = true := by
  have digits : (Nat.toDigits 10 n).all Char.isDigit = true :=
    List.all_eq_true.mpr fun c member => Nat.isDigit_of_mem_toDigits (by decide) (by decide) member
  have noZero : (Nat.toDigits 10 n).head? ≠ some '0' ∨ (Nat.toDigits 10 n).length = 1 := by
    cases n with
    | zero => exact .inr rfl
    | succ n => exact .inl (head_toDigits n)
  simp only [natural, digits, Bool.and_true, Bool.and_eq_true, Bool.or_eq_true, decide_eq_true_eq]
  exact ⟨Nat.toDigits_ne_nil, noZero⟩

theorem readNumber_toString (n : Int) : readNumber (toString n).toList = some (.int n) := by
  have noSign : ∀ m : Nat, (Nat.toDigits 10 m).head? ≠ some '-' := by
    intro m first
    have digit : Char.isDigit '-' = true :=
      Nat.isDigit_of_mem_toDigits (by decide) (by decide) (List.mem_of_head? first)
    exact absurd digit (by decide)
  rw [Int.toString_eq_repr, Int.repr_eq_if]
  split
  next nonneg =>
    rw [Nat.toList_repr, readNumber]
    simp only [if_neg (noSign _), natural_toDigits, if_true, Nat.ofDigitChars_ten_toDigits]
    rw [Int.toNat_of_nonneg nonneg]
  next negative =>
    rw [String.toList_append, Nat.toList_repr, readNumber]
    simp [natural_toDigits]
    omega

theorem numberChar_toString (n : Int) : (toString n).toList.all numberChar = true := by
  have digits : ∀ m : Nat, (Nat.toDigits 10 m).all numberChar = true := by
    intro m
    apply List.all_eq_true.mpr
    intro c member
    simp [numberChar, Nat.isDigit_of_mem_toDigits (by decide) (by decide) member]
  rw [Int.toString_eq_repr, Int.repr_eq_if]
  split
  next => rw [Nat.toList_repr, digits]
  next =>
    rw [String.toList_append, Nat.toList_repr, List.all_append, digits]
    decide

theorem span_number {token text : List Char} (number : token.all numberChar = true) (ends : Ends text) :
    (token ++ text).takeWhile numberChar = token ∧ (token ++ text).dropWhile numberChar = text := by
  have stops : text.takeWhile numberChar = [] ∧ text.dropWhile numberChar = text := by
    cases text with
    | nil => exact ⟨rfl, rfl⟩
    | cons c rest => simp [ends c rfl]
  have all := List.all_eq_true.mp number
  constructor
  · rw [List.takeWhile_append_of_pos all, stops.1, List.append_nil]
  · rw [List.dropWhile_append_of_pos all, stops.2]

/-! ### Blanks -/

theorem dropWhile_blanks (n : Nat) (text : List Char) :
    (List.replicate n ' ' ++ text).dropWhile isSpace = text.dropWhile isSpace := by
  apply List.dropWhile_append_of_pos
  intro c member
  obtain rfl := List.eq_of_mem_replicate member
  decide

theorem expect_blanks (c : Char) (n : Nat) (text : List Char) :
    expect c (List.replicate n ' ' ++ text) = expect c text := by
  rw [expect, dropWhile_blanks, expect]

theorem expect_cons {c d : Char} (solid : isSpace d = false) (text : List Char) :
    expect c (d :: text) = if d = c then some text else none := by
  simp [expect, solid]

theorem readValue_blanks (fuel n : Nat) (text : List Char) :
    readValue fuel (List.replicate n ' ' ++ text) = readValue fuel text := by
  cases fuel with
  | zero => rfl
  | succ fuel => simp only [readValue, dropWhile_blanks]

theorem readItems_blanks (fuel n : Nat) (text : List Char) :
    readItems fuel (List.replicate n ' ' ++ text) = readItems fuel text := by
  cases fuel with
  | zero => rfl
  | succ fuel => simp only [readItems, readValue_blanks]

theorem readFields_blanks (fuel n : Nat) (fields : List (String × Json)) (text : List Char) :
    readFields fuel fields (List.replicate n ' ' ++ text) = readFields fuel fields text := by
  cases fuel with
  | zero => rfl
  | succ fuel => simp only [readFields, expect_blanks]

/-! ### The parts of a text -/

variable {separators : Separators}

/-- The text of `j`, with anything after it that ends it, reads as `j`. -/
def Reads (separators : Separators) (j : Json) : Prop :=
  ∀ fuel rest, (textWith separators j).length ≤ fuel → Ends rest →
    readValue fuel (textWith separators j ++ rest) = some (j, rest)

def itemsText (separators : Separators) (items : List Json) : List Char :=
  (dumpsItems separators items).toList

def fieldsText (separators : Separators) (fields : List (String × Json)) : List Char :=
  (dumpsFields separators fields).toList

theorem textWith_str (s : String) :
    textWith separators (.str s) = '"' :: (s.toList.flatMap escapeChar ++ ['"']) := by
  simp [textWith, dumpsWith, dumpsStr]

theorem textWith_arr (items : List Json) :
    textWith separators (.arr items) = '[' :: (itemsText separators items ++ [']']) := by
  simp [textWith, dumpsWith, itemsText]

theorem textWith_obj (fields : List (String × Json)) :
    textWith separators (.obj fields) = '\x7b' :: (fieldsText separators fields ++ ['\x7d']) := by
  simp [textWith, dumpsWith, fieldsText]

theorem itemsText_singleton (item : Json) : itemsText separators [item] = textWith separators item := by
  simp [itemsText, textWith, dumpsItems]

theorem itemsText_cons (item next : Json) (items : List Json) :
    itemsText separators (item :: next :: items) =
      textWith separators item ++ (separators.item.toList ++ itemsText separators (next :: items)) := by
  simp [itemsText, textWith, dumpsItems]

theorem fieldsText_singleton (key : String) (value : Json) :
    fieldsText separators [(key, value)] =
      textWith separators (.str key) ++ (separators.key.toList ++ textWith separators value) := by
  simp [fieldsText, textWith, dumpsFields, dumpsWith]

theorem fieldsText_cons (key : String) (value : Json) (next : String × Json)
    (fields : List (String × Json)) :
    fieldsText separators ((key, value) :: next :: fields) =
      textWith separators (.str key) ++ (separators.key.toList ++ (textWith separators value ++
        (separators.item.toList ++ fieldsText separators (next :: fields)))) := by
  simp [fieldsText, textWith, dumpsFields, dumpsWith]

theorem ends_cons {c : Char} (closes : numberChar c = false) (text : List Char) : Ends (c :: text) := by
  intro d first
  cases first
  exact closes

/-- A number starts with a digit or a sign. -/
theorem number_head {token : List Char} (number : token.all numberChar = true) {value : Json}
    (reads : readNumber token = some value) :
    ∃ c rest, token = c :: rest ∧ numberChar c = true := by
  cases token with
  | nil => cases reads
  | cons c rest => exact ⟨c, rest, rfl, (List.all_eq_true.mp number) c List.mem_cons_self⟩

theorem number_ne {c d : Char} (number : numberChar c = true) (other : numberChar d = false) : c ≠ d := by
  rintro rfl
  exact Bool.noConfusion (number.symm.trans other)

theorem number_solid {c : Char} (number : numberChar c = true) : isSpace c = false := by
  have blank : c ≠ ' ' := number_ne number (by decide)
  have tab : c ≠ '\t' := number_ne number (by decide)
  have newline : c ≠ '\n' := number_ne number (by decide)
  have return_ : c ≠ '\r' := number_ne number (by decide)
  simp [isSpace, blank, tab, newline, return_]

/-- A value starts with a character that is no white space and closes no array. -/
theorem head_textWith {j : Json} (serializable : Serializable j) :
    ∃ c rest, textWith separators j = c :: rest ∧ isSpace c = false ∧ c ≠ ']' := by
  have ofNumber : ∀ {token : List Char} {value : Json}, token.all numberChar = true →
      readNumber token = some value → ∃ c rest, token = c :: rest ∧ isSpace c = false ∧ c ≠ ']' := by
    intro token value number reads
    obtain ⟨c, rest, rfl, isNumber⟩ := number_head number reads
    exact ⟨c, rest, rfl, number_solid isNumber, number_ne isNumber (by decide)⟩
  cases serializable with
  | null => exact ⟨'n', "ull".toList, by simp [textWith, dumpsWith], by decide, by decide⟩
  | bool b =>
    cases b with
    | false => exact ⟨'f', "alse".toList, by simp [textWith, dumpsWith], by decide, by decide⟩
    | true => exact ⟨'t', "rue".toList, by simp [textWith, dumpsWith], by decide, by decide⟩
  | int n =>
    rw [textWith, dumpsWith]
    exact ofNumber (numberChar_toString n) (readNumber_toString n)
  | float number reads =>
    rw [textWith, dumpsWith]
    exact ofNumber number reads
  | str s => exact ⟨'"', _, textWith_str s, by decide, by decide⟩
  | arr members => exact ⟨'[', _, textWith_arr _, by decide, by decide⟩
  | obj distinct members => exact ⟨'\x7b', _, textWith_obj _, by decide, by decide⟩

/-! ### Reading back -/

theorem readValue_number {token text : List Char} {value : Json} (number : token.all numberChar = true)
    (reads : readNumber token = some value) (ends : Ends text) (fuel : Nat) :
    readValue (fuel + 1) (token ++ text) = some (value, text) := by
  obtain ⟨taken, dropped⟩ := span_number number ends
  obtain ⟨c, rest, rfl, isNumber⟩ := number_head number reads
  have solid := number_solid isNumber
  rw [List.cons_append] at taken dropped ⊢
  have start : (c :: (rest ++ text)).dropWhile isSpace = c :: (rest ++ text) := by simp [solid]
  rw [readValue, start]
  simp only [if_neg (number_ne isNumber (d := '"') (by decide)),
    if_neg (number_ne isNumber (d := '[') (by decide)),
    if_neg (number_ne isNumber (d := '\x7b') (by decide)),
    if_neg (number_ne isNumber (d := 'n') (by decide)),
    if_neg (number_ne isNumber (d := 't') (by decide)),
    if_neg (number_ne isNumber (d := 'f') (by decide)), taken, dropped, reads, Option.map_some]

theorem readItems_text (plain : separators.Plain) {items : List Json}
    (reads : ∀ item ∈ items, Serializable item → Reads separators item)
    (serializable : ∀ item ∈ items, Serializable item) (notEmpty : items ≠ []) :
    ∀ fuel rest, (itemsText separators items).length < fuel →
      readItems fuel (itemsText separators items ++ ']' :: rest) = some (items, rest) := by
  obtain ⟨blanks, comma⟩ := plain.item
  induction items with
  | nil => exact absurd rfl notEmpty
  | cons item items ih =>
    intro fuel rest enough
    cases fuel with
    | zero => omega
    | succ fuel =>
      have reading := reads item List.mem_cons_self (serializable item List.mem_cons_self)
      rw [readItems]
      cases items with
      | nil =>
        rw [itemsText_singleton] at enough ⊢
        rw [reading fuel _ (by omega) (ends_cons (by decide) rest), Option.bind_some]
        simp [expect_cons (d := ']') (by decide)]
      | cons next items =>
        rw [itemsText_cons, comma] at enough ⊢
        simp only [List.length_append, List.length_cons, List.length_replicate] at enough
        have later := ih (fun item member => reads item (List.mem_cons_of_mem _ member))
          (fun item member => serializable item (List.mem_cons_of_mem _ member))
          (List.cons_ne_nil _ _) fuel rest (by omega)
        simp only [List.append_assoc, List.cons_append]
        rw [reading fuel _ (by omega) (ends_cons (by decide) _), Option.bind_some]
        simp only [expect_cons (c := ',') (d := ',') (by decide), if_true, readItems_blanks, later,
          Option.map_some]

theorem setField_fresh {fields : List (String × Json)} {key : String} (fresh : key ∉ fields.map (·.1))
    (value : Json) : setField fields key value = fields ++ [(key, value)] := by
  rw [setField, if_neg fresh]

theorem readFields_text (plain : separators.Plain) {fields : List (String × Json)}
    (reads : ∀ field ∈ fields, Serializable field.2 → Reads separators field.2)
    (serializable : ∀ field ∈ fields, Serializable field.2) (notEmpty : fields ≠ []) :
    ∀ fuel before rest, (fieldsText separators fields).length < fuel →
      ((before ++ fields).map (·.1)).Nodup →
      readFields fuel before (fieldsText separators fields ++ '\x7d' :: rest) =
        some (before ++ fields, rest) := by
  obtain ⟨blanks, comma⟩ := plain.item
  obtain ⟨keyBlanks, colon⟩ := plain.key
  induction fields with
  | nil => exact absurd rfl notEmpty
  | cons field fields ih =>
    obtain ⟨key, value⟩ := field
    intro fuel before rest enough distinct
    cases fuel with
    | zero => omega
    | succ fuel =>
      have reading : Reads separators value :=
        reads (key, value) List.mem_cons_self (serializable (key, value) List.mem_cons_self)
      have fresh : key ∉ before.map (·.1) := by
        intro old
        rw [List.map_append, List.nodup_append] at distinct
        exact distinct.2.2 key old key List.mem_cons_self rfl
      rw [readFields]
      cases fields with
      | nil =>
        rw [fieldsText_singleton, textWith_str, colon] at enough ⊢
        simp only [List.length_append, List.length_cons, List.length_replicate] at enough
        simp only [List.append_assoc, List.cons_append, List.nil_append,
          expect_cons (c := '"') (d := '"') (by decide), if_true, Option.bind_some, readString_dumpsStr,
          expect_cons (c := ':') (d := ':') (by decide), readValue_blanks]
        rw [reading fuel _ (by omega) (ends_cons (by decide) rest), Option.bind_some]
        simp [expect_cons (d := '\x7d') (by decide), setField_fresh fresh]
      | cons next fields =>
        rw [fieldsText_cons, textWith_str, colon, comma] at enough ⊢
        simp only [List.length_append, List.length_cons, List.length_replicate] at enough
        have later := ih (fun field member => reads field (List.mem_cons_of_mem _ member))
          (fun field member => serializable field (List.mem_cons_of_mem _ member))
          (List.cons_ne_nil _ _) fuel (before ++ [(key, value)]) rest (by omega)
          (by rwa [List.append_assoc])
        simp only [List.append_assoc, List.cons_append, List.nil_append,
          expect_cons (c := '"') (d := '"') (by decide), if_true, Option.bind_some, readString_dumpsStr,
          expect_cons (c := ':') (d := ':') (by decide), readValue_blanks]
        rw [reading fuel _ (by omega) (ends_cons (by decide) _), Option.bind_some]
        simp only [expect_cons (c := ',') (d := ',') (by decide), if_true, readFields_blanks,
          setField_fresh fresh]
        simpa only [List.append_assoc, List.cons_append, List.nil_append] using later

theorem reads_of_serializable (plain : separators.Plain) {j : Json} (serializable : Serializable j) :
    Reads separators j := by
  induction serializable with
  | null =>
    intro fuel rest enough _
    cases fuel with
    | zero => simp [textWith, dumpsWith] at enough
    | succ fuel => simp [textWith, dumpsWith, readValue, isSpace, readLiteral]
  | bool b =>
    intro fuel rest enough _
    cases fuel with
    | zero => cases b <;> simp [textWith, dumpsWith] at enough
    | succ fuel => cases b <;> simp [textWith, dumpsWith, readValue, isSpace, readLiteral]
  | int n =>
    intro fuel rest enough ends
    rw [textWith, dumpsWith] at enough ⊢
    cases fuel with
    | zero =>
      obtain ⟨c, digits, shape, _⟩ := number_head (numberChar_toString n) (readNumber_toString n)
      rw [shape] at enough
      cases enough
    | succ fuel => exact readValue_number (numberChar_toString n) (readNumber_toString n) ends fuel
  | float number reads =>
    intro fuel rest enough ends
    rw [textWith, dumpsWith] at enough ⊢
    cases fuel with
    | zero =>
      obtain ⟨c, digits, shape, _⟩ := number_head number reads
      rw [shape] at enough
      cases enough
    | succ fuel => exact readValue_number number reads ends fuel
  | str s =>
    intro fuel rest enough _
    rw [textWith_str] at enough ⊢
    cases fuel with
    | zero => simp at enough
    | succ fuel => simp [readValue, isSpace, readString_dumpsStr]
  | @arr items members ih =>
    intro fuel rest enough _
    rw [textWith_arr] at enough ⊢
    simp only [List.length_cons, List.length_append, List.length_nil] at enough
    cases fuel with
    | zero => omega
    | succ fuel =>
      cases items with
      | nil => simp [readValue, isSpace, itemsText, dumpsItems, expect]
      | cons item items =>
        have later := readItems_text plain (fun item member _ => ih item member) members
          (List.cons_ne_nil _ _) fuel rest (by omega)
        -- the text of an item does not start with a bracket that closes
        have noClose : expect ']' (itemsText separators (item :: items) ++ ']' :: rest) = none := by
          obtain ⟨c, text, shape, solid, other⟩ : ∃ c text, textWith separators item = c :: text ∧
              isSpace c = false ∧ c ≠ ']' := head_textWith (members item List.mem_cons_self)
          cases items with
          | nil =>
            rw [itemsText_singleton, shape, List.cons_append, expect_cons solid, if_neg other]
          | cons next items =>
            rw [itemsText_cons, shape, List.cons_append, List.cons_append, expect_cons solid,
              if_neg other]
        simp only [List.cons_append, List.append_assoc, List.nil_append]
        simp [readValue, isSpace, noClose, later]
  | @obj fields distinct members ih =>
    intro fuel rest enough _
    rw [textWith_obj] at enough ⊢
    simp only [List.length_cons, List.length_append, List.length_nil] at enough
    cases fuel with
    | zero => omega
    | succ fuel =>
      cases fields with
      | nil => simp [readValue, isSpace, fieldsText, dumpsFields, expect]
      | cons field fields =>
        have later := readFields_text plain (fun field member _ => ih field member) members
          (List.cons_ne_nil _ _) fuel [] rest (by omega) distinct
        have noClose : expect '\x7d' (fieldsText separators (field :: fields) ++ '\x7d' :: rest) = none := by
          cases fields with
          | nil => rw [fieldsText_singleton, textWith_str]; simp [expect, isSpace]
          | cons next fields => rw [fieldsText_cons, textWith_str]; simp [expect, isSpace]
        simp only [List.cons_append, List.append_assoc, List.nil_append]
        simp [readValue, isSpace, noClose, later]

theorem loads_dumpsWith (plain : separators.Plain) {j : Json} (serializable : Serializable j) :
    loads (dumpsWith separators j) = some j := by
  have reads := reads_of_serializable plain serializable ((dumpsWith separators j).length + 1) []
    (by rw [textWith, String.length_toList]; omega) (by rintro c ⟨⟩)
  rw [textWith, List.append_nil] at reads
  rw [loads, reads, Option.bind_some, List.all_nil, if_pos rfl]

theorem loads_dumps {j : Json} (serializable : Serializable j) : loads (dumps j) = some j :=
  loads_dumpsWith ⟨⟨1, by decide⟩, ⟨1, by decide⟩⟩ serializable

end Json

end SupplierAssurance.Python
