import SupplierAssurance.Python.ConfigParser
import SupplierAssurance.Python.Uuid

/-! # `urllib.parse`

`quote_plus` writes a text byte by byte: unreserved characters as they are, a space as a plus sign,
and every other byte as an escape.  `percentDecode` reads escapes back and leaves the plus sign as
it is, as the parsers of database URLs do; so a space comes back as a plus sign and everything else
as it was.
-/

namespace SupplierAssurance.Python

open Lib.Sha1 (Byte)

/-! ## `quote_plus` -/

/-- `_ALWAYS_SAFE`. -/
def isAlwaysSafe (c : Char) : Bool :=
  c.isAlphanum || c == '_' || c == '.' || c == '-' || c == '~'

def upperHexDigit (n : Nat) : Char :=
  "0123456789ABCDEF".toList.getD n '0'

/-- One byte of `quote_plus`. -/
def quoteByte (b : Byte) : List Char :=
  let c := Char.ofNat b.toNat
  if isAlwaysSafe c then [c]
  else if c = ' ' then ['+']
  else ['%', upperHexDigit (b.toNat / 16), upperHexDigit (b.toNat % 16)]

/-- `quote_plus(text)`. -/
def quotePlus (text : String) : List Char :=
  (utf8 text).flatMap quoteByte

example : quotePlus "p@ss/é" = "p%40ss%2F%C3%A9".toList := by decide

/-! ## Percent-decoding -/

def hexValue? (c : Char) : Option Nat :=
  if '0' ≤ c ∧ c ≤ '9' then some (c.toNat - 48)
  else if 'A' ≤ c ∧ c ≤ 'F' then some (c.toNat - 55)
  else if 'a' ≤ c ∧ c ≤ 'f' then some (c.toNat - 87)
  else none

def charBytes (c : Char) : List Byte :=
  (String.utf8EncodeChar c).map (·.toBitVec)

/-- The bytes of a text in which an escape stands for one byte. -/
def percentBytes : List Char → List Byte
  | [] => []
  | '%' :: high :: low :: rest =>
    match hexValue? high, hexValue? low with
    | some h, some l => BitVec.ofNat 8 (16 * h + l) :: percentBytes rest
    | _, _ => charBytes '%' ++ percentBytes (high :: low :: rest)
  | c :: rest => charBytes c ++ percentBytes rest

/-- The text with these bytes, if they are UTF-8. -/
def utf8Decode (bytes : List Byte) : Option String :=
  (bytes.map UInt8.ofBitVec).toByteArray.utf8Decode?.map fun chars => String.ofList chars.toList

/-- Percent-decoding with the plus sign left as it is. -/
def percentDecode (text : List Char) : Option String :=
  utf8Decode (percentBytes text)

/-! ## What comes back -/

/-- A space comes back as a plus sign. -/
def plusChar (c : Char) : Char :=
  if c = ' ' then '+' else c

def plusByte (b : Byte) : Byte :=
  if b = 0x20#8 then 0x2B#8 else b

theorem utf8Decode_utf8 (text : String) : utf8Decode (utf8 text) = some text := by
  have bytes : ((utf8 text).map UInt8.ofBitVec).toByteArray = text.toList.utf8Encode := by
    rw [utf8, List.map_map]
    simp [List.utf8Encode, Function.comp_def]
  rw [utf8Decode, bytes, List.utf8Decode?_utf8Encode]
  simp

/-- A byte of a text is one of its ASCII characters or belongs to another character. -/
theorem charBytes_cases (c : Char) :
    (c.toNat < 128 ∧ charBytes c = [BitVec.ofNat 8 c.toNat]) ∨
      (128 ≤ c.toNat ∧ charBytes c ≠ [] ∧ ∀ b ∈ charBytes c, 128 ≤ b.toNat) := by
  have value : c.val.toNat = c.toNat := rfl
  simp only [charBytes, String.utf8EncodeChar, value]
  split
  next ascii =>
    left
    refine ⟨by omega, ?_⟩
    simp [UInt8.ofNat]
  next beyond =>
    right
    refine ⟨by omega, ?_⟩
    split
    · simp; omega
    · split
      · simp; omega
      · simp; omega

theorem utf8_eq_flatMap (text : String) : utf8 text = text.toList.flatMap charBytes := by
  rw [utf8, List.map_flatMap]
  rfl

/-- The plus signs of the bytes are those of the characters. -/
theorem charBytes_plusChar (c : Char) : charBytes (plusChar c) = (charBytes c).map plusByte := by
  by_cases space : c = ' '
  · rw [space]
    decide
  · rw [plusChar, if_neg space]
    have other : ∀ b ∈ charBytes c, plusByte b = b := by
      intro b member
      rw [plusByte, if_neg]
      rintro rfl
      obtain ⟨ascii, bytes⟩ | ⟨_, _, high⟩ := charBytes_cases c
      · rw [bytes, List.mem_singleton] at member
        have code : 32 = c.toNat % 256 := congrArg BitVec.toNat member
        rw [Nat.mod_eq_of_lt (by omega)] at code
        exact space (Char.toNat_inj.mp code.symm)
      · exact absurd (high _ member) (by decide)
    calc
      charBytes c = (charBytes c).map id := (List.map_id _).symm
      _ = (charBytes c).map plusByte := List.map_congr_left fun b member => (other b member).symm

/-! ## Decoding what `quote_plus` wrote -/

theorem percentBytes_cons {c : Char} (plain : c ≠ '%') (rest : List Char) :
    percentBytes (c :: rest) = charBytes c ++ percentBytes rest := by
  rw [percentBytes]
  rintro high low tail rfl
  exact absurd rfl plain

theorem hexValue?_upperHexDigit {n : Nat} (digit : n < 16) :
    hexValue? (upperHexDigit n) = some n := by
  have table : ∀ n : Fin 16, hexValue? (upperHexDigit n) = some n.val := by decide
  exact table ⟨n, digit⟩

theorem percentBytes_escape {high low : Nat} (h : high < 16) (l : low < 16) (rest : List Char) :
    percentBytes ('%' :: upperHexDigit high :: upperHexDigit low :: rest) =
      BitVec.ofNat 8 (16 * high + low) :: percentBytes rest := by
  rw [percentBytes, hexValue?_upperHexDigit h, hexValue?_upperHexDigit l]

/-- A byte that is written as it is. -/
theorem safe_byte {b : Byte} (safe : isAlwaysSafe (Char.ofNat b.toNat) = true) :
    Char.ofNat b.toNat ≠ '%' ∧ charBytes (Char.ofNat b.toNat) = [plusByte b] := by
  revert b
  decide +kernel

theorem space_byte {b : Byte} : Char.ofNat b.toNat = ' ' ↔ b = 0x20#8 := by
  revert b
  decide +kernel

theorem percentBytes_quoteByte (b : Byte) (rest : List Char) :
    percentBytes (quoteByte b ++ rest) = plusByte b :: percentBytes rest := by
  have small := b.isLt
  simp only [quoteByte]
  split
  next safe =>
    obtain ⟨plain, bytes⟩ := safe_byte safe
    rw [List.singleton_append, percentBytes_cons plain, bytes, List.singleton_append]
  next =>
    split
    next space =>
      rw [space_byte.mp space, List.singleton_append, percentBytes_cons (by decide)]
      rfl
    next noSpace =>
      have other : b ≠ 0x20#8 := fun space => noSpace (space_byte.mpr space)
      rw [List.cons_append, List.cons_append, List.singleton_append,
        percentBytes_escape (by omega) (by omega), Nat.div_add_mod, plusByte, if_neg other,
        BitVec.ofNat_toNat, BitVec.setWidth_eq]

theorem percentBytes_flatMap (bytes : List Byte) :
    percentBytes (bytes.flatMap quoteByte) = bytes.map plusByte := by
  induction bytes with
  | nil => rfl
  | cons b rest ih => rw [List.flatMap_cons, percentBytes_quoteByte, ih, List.map_cons]

/-- Decoding gives the text back with its spaces turned into plus signs. -/
theorem percentDecode_quotePlus (text : String) :
    percentDecode (quotePlus text) = some (String.ofList (text.toList.map plusChar)) := by
  have bytes : percentBytes (quotePlus text) = utf8 (String.ofList (text.toList.map plusChar)) := by
    rw [quotePlus, percentBytes_flatMap, utf8_eq_flatMap, utf8_eq_flatMap, String.toList_ofList,
      List.map_flatMap, List.flatMap_map]
    exact List.flatMap_congr fun c _ => (charBytes_plusChar c).symm
  rw [percentDecode, bytes, utf8Decode_utf8]

/-- It gives the same text back exactly when there is no space. -/
theorem percentDecode_quotePlus_eq_iff {text : String} :
    percentDecode (quotePlus text) = some text ↔ ' ' ∉ text.toList := by
  rw [percentDecode_quotePlus, Option.some_inj, ← String.toList_inj, String.toList_ofList]
  constructor
  · intro same space
    have unchanged : ∀ c ∈ text.toList, plusChar c = id c :=
      List.map_inj_left.mp (same.trans (List.map_id _).symm)
    exact absurd (unchanged ' ' space) (by decide)
  · intro noSpace
    calc
      text.toList.map plusChar = text.toList.map id :=
        List.map_congr_left fun c member => if_neg (ne_of_mem_of_not_mem member noSpace)
      _ = text.toList := List.map_id _

/-! ## The characters that `quote_plus` writes -/

theorem mem_quoteByte {c : Char} {b : Byte} (member : c ∈ quoteByte b) :
    isAlwaysSafe c = true ∨ c = '+' ∨ c = '%' := by
  have table : ∀ b : Byte, (quoteByte b).all fun c => isAlwaysSafe c || c == '+' || c == '%' := by
    decide +kernel
  simpa [or_assoc] using List.all_eq_true.mp (table b) c member

theorem mem_quotePlus {c : Char} {text : String} (member : c ∈ quotePlus text) :
    isAlwaysSafe c = true ∨ c = '+' ∨ c = '%' := by
  obtain ⟨b, _, here⟩ := List.mem_flatMap.mp member
  exact mem_quoteByte here

/-- Written without an escape. -/
theorem percent_notMem_quoteByte_iff {b : Byte} :
    '%' ∉ quoteByte b ↔ isAlwaysSafe (Char.ofNat b.toNat) = true ∨ b = 0x20#8 := by
  revert b
  decide +kernel

theorem toNat_of_safe {c : Char} (safe : isAlwaysSafe c = true) : c.toNat < 128 := by
  simp only [isAlwaysSafe, Bool.or_eq_true, beq_iff_eq] at safe
  obtain (((alphanumeric | rfl) | rfl) | rfl) | rfl := safe
  · change (decide ('A'.val ≤ c.val ∧ c.val ≤ 'Z'.val) ||
      (decide ('a'.val ≤ c.val) && decide (c.val ≤ 'z'.val)) ||
      (decide ('0'.val ≤ c.val) && decide (c.val ≤ '9'.val))) = true at alphanumeric
    have value : c.val.toNat = c.toNat := rfl
    simp only [Bool.or_eq_true, Bool.and_eq_true, decide_eq_true_eq, UInt32.le_iff_toNat_le,
      value] at alphanumeric
    simp at alphanumeric
    omega
  all_goals decide

/-- A character is written without an escape if it is unreserved or a space. -/
theorem percent_notMem_char_iff {c : Char} :
    (∀ b ∈ charBytes c, '%' ∉ quoteByte b) ↔ isAlwaysSafe c = true ∨ c = ' ' := by
  obtain ⟨ascii, bytes⟩ | ⟨beyond, inhabited, high⟩ := charBytes_cases c
  · have character : Char.ofNat (BitVec.ofNat 8 c.toNat).toNat = c := by
      rw [BitVec.toNat_ofNat, Nat.mod_eq_of_lt (by omega), Char.ofNat_toNat]
    simp only [bytes, List.mem_singleton, forall_eq, percent_notMem_quoteByte_iff]
    rw [← space_byte, character]
  · constructor
    · intro unescaped
      obtain ⟨b, member⟩ := List.exists_mem_of_ne_nil _ inhabited
      have table : ∀ b : Byte, '%' ∉ quoteByte b → b.toNat < 128 := by decide +kernel
      have low := table b (unescaped b member)
      have := high b member
      omega
    · rintro (safe | rfl)
      · have := toNat_of_safe safe
        omega
      · exact absurd beyond (by decide)

theorem percent_notMem_quotePlus_iff {text : String} :
    '%' ∉ quotePlus text ↔ ∀ c ∈ text.toList, isAlwaysSafe c = true ∨ c = ' ' := by
  simp only [← percent_notMem_char_iff, quotePlus, utf8_eq_flatMap, List.mem_flatMap]
  constructor
  · intro unescaped c member b byte escape
    exact unescaped ⟨b, ⟨c, member, byte⟩, escape⟩
  · rintro unescaped ⟨b, ⟨c, member, byte⟩, escape⟩
    exact unescaped c member b byte escape

/-- The first escape of a text is followed by a digit, so it is no escape or reference of a
    `ConfigParser`. -/
theorem bareSign_quotePlus {text : String} (escaped : '%' ∈ quotePlus text) :
    ConfigParser.BareSign (quotePlus text) := by
  revert escaped
  rw [quotePlus]
  induction utf8 text with
  | nil =>
    intro escaped
    cases escaped
  | cons b rest ih =>
    intro escaped
    rw [List.flatMap_cons] at escaped ⊢
    by_cases here : '%' ∈ quoteByte b
    · have table : ∀ b : Byte, '%' ∈ quoteByte b → quoteByte b = '%' ::
          upperHexDigit (b.toNat / 16) :: upperHexDigit (b.toNat % 16) :: [] ∧
            upperHexDigit (b.toNat / 16) ≠ '%' ∧ upperHexDigit (b.toNat / 16) ≠ '(' := by
        decide +kernel
      obtain ⟨written, digit⟩ := table b here
      rw [written]
      exact ⟨[], _, _, rfl, List.not_mem_nil, digit⟩
    · exact (ih ((List.mem_append.mp escaped).resolve_left here)).append_left here

end SupplierAssurance.Python
