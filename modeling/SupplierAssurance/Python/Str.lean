import SupplierAssurance.Python.Text

/-! # `str` with lone surrogates

A Python string is a sequence of code points, and a code point may be a surrogate: `json.loads`
returns one for the escape of a lone surrogate.  Such a string has a length and can be stripped and
split like any other, but it has no UTF-8 encoding, so it is no text of a `String`.
-/

namespace SupplierAssurance.Python

inductive CodePoint where
  | char (c : Char)
  /-- `U+D800` plus the offset. -/
  | surrogate (offset : Fin 0x800)
deriving DecidableEq

abbrev Str := List CodePoint

namespace CodePoint

def isSpace : CodePoint → Bool
  | .char c => Python.isSpace c
  | .surrogate _ => false

def char? : CodePoint → Option Char
  | .char c => some c
  | .surrogate _ => none

end CodePoint

namespace Str

def ofString (text : String) : Str :=
  text.toList.map .char

/-- The text, if it can be encoded in UTF-8. -/
def encoded? (text : Str) : Option String :=
  (text.mapM CodePoint.char?).map String.ofList

/-- `text.strip()`. -/
def strip (text : Str) : Str :=
  (text.dropWhile CodePoint.isSpace).rdropWhile CodePoint.isSpace

/-- `text.split()`. -/
def words (text : Str) : List Str :=
  (text.splitOnP CodePoint.isSpace).filter fun word => !word.isEmpty

theorem mapM_char?_eq_some {text : Str} {chars : List Char} :
    text.mapM CodePoint.char? = some chars ↔ text = chars.map .char := by
  induction text generalizing chars with
  | nil => cases chars <;> simp
  | cons point rest ih =>
    cases point with
    | surrogate offset =>
      cases chars <;> simp [CodePoint.char?]
    | char c =>
      have stepped : (CodePoint.char c :: rest).mapM CodePoint.char? =
          (rest.mapM CodePoint.char?).map (c :: ·) := by
        simp [CodePoint.char?, Option.map_eq_bind, Function.comp_def]
      rw [stepped, Option.map_eq_some_iff]
      simp only [ih]
      cases chars with
      | nil => simp
      | cons d chars => simp [and_comm, eq_comm]

theorem encoded?_eq_some {text : Str} {encoded : String} :
    text.encoded? = some encoded ↔ text = ofString encoded := by
  simp only [encoded?, Option.map_eq_some_iff, mapM_char?_eq_some, ofString]
  constructor
  · rintro ⟨chars, isText, rfl⟩
    rw [isText, String.toList_ofList]
  · rintro isText
    exact ⟨encoded.toList, isText, String.ofList_toList⟩

theorem ofString_injective : Function.Injective ofString := by
  intro text text' same
  exact String.toList_inj.mp (List.map_injective_iff.mpr (fun _ _ => CodePoint.char.inj) same)

end Str

end SupplierAssurance.Python
