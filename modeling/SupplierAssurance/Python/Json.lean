import SupplierAssurance.Python.Uuid

/-! # `json`

JSON values and the text that `json.dumps` writes, with its default `ensure_ascii=True`
and with the separators as an argument.  A float is kept as the text Python prints for
it, so nothing is computed on it.
-/

namespace SupplierAssurance.Python

inductive Json where
  | null
  | bool (b : Bool)
  | int (n : Int)
  | float (repr : String)
  | str (s : String)
  | arr (items : List Json)
  | obj (fields : List (String × Json))

/-- The values that audit payloads hold. -/
inductive Scalar where
  | null
  | bool (b : Bool)
  | int (n : Int)
  | str (s : String)
deriving DecidableEq, Repr

namespace Json

/-- `\uXXXX` for one UTF-16 code unit. -/
def unicodeEscape (unit : Nat) : List Char :=
  '\\' :: 'u' :: hexDigits 4 unit

/-- One character of a string literal: the short escapes, printable ASCII as it is, and
    one or two UTF-16 code units for the rest. -/
def escapeChar (c : Char) : List Char :=
  if c = '"' then ['\\', '"']
  else if c = '\\' then ['\\', '\\']
  else if c = '\n' then ['\\', 'n']
  else if c = '\r' then ['\\', 'r']
  else if c = '\t' then ['\\', 't']
  else if c.toNat = 8 then ['\\', 'b']
  else if c.toNat = 12 then ['\\', 'f']
  else if 32 ≤ c.toNat ∧ c.toNat < 127 then [c]
  else if c.toNat < 0x10000 then unicodeEscape c.toNat
  else
    unicodeEscape (0xD800 + (c.toNat - 0x10000) / 0x400) ++
      unicodeEscape (0xDC00 + (c.toNat - 0x10000) % 0x400)

def dumpsStr (s : String) : String :=
  String.ofList ('"' :: (s.toList.flatMap escapeChar ++ ['"']))

structure Separators where
  item : String
  key : String

mutual

def dumpsWith (separators : Separators) : Json → String
  | .null => "null"
  | .bool b => if b then "true" else "false"
  | .int n => toString n
  | .float repr => repr
  | .str s => dumpsStr s
  | .arr items => "[" ++ dumpsItems separators items ++ "]"
  | .obj fields => "\x7b" ++ dumpsFields separators fields ++ "\x7d"

def dumpsItems (separators : Separators) : List Json → String
  | [] => ""
  | [item] => dumpsWith separators item
  | item :: rest => dumpsWith separators item ++ separators.item ++ dumpsItems separators rest

def dumpsFields (separators : Separators) : List (String × Json) → String
  | [] => ""
  | [(key, value)] => dumpsStr key ++ separators.key ++ dumpsWith separators value
  | (key, value) :: rest =>
    dumpsStr key ++ separators.key ++ dumpsWith separators value ++ separators.item ++
      dumpsFields separators rest

end

/-- `json.dumps(value)`. -/
def dumps : Json → String := dumpsWith ⟨", ", ": "⟩

/-- `json.dumps(value, separators=(",", ":"))`. -/
def dumpsCompact : Json → String := dumpsWith ⟨",", ":"⟩

end Json

end SupplierAssurance.Python
