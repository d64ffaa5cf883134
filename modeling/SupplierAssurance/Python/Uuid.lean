import Mathlib.Logic.Function.Basic
import Mathlib.Algebra.Group.Nat.Defs
import Mathlib.Data.Fintype.Basic
import SupplierAssurance.Lib.Sha1

/-! # `uuid.UUID`

The identifiers of the program: 128-bit values with their two text forms, `hex` and
`str`, the reader `UUID.parse` of validated input, and the name-based constructor
`uuid5`.  The text forms are injective and of fixed length, so a name such as
`f"{tenant_id}:{idempotency_key}"` determines both of its parts whatever characters the
first one holds.
-/

namespace SupplierAssurance.Python

open Lib.Sha1 (Byte bytesOfNat digest)

structure UUID where
  int : BitVec 128
deriving DecidableEq, Repr

/-! ## Text forms -/

def hexDigit (n : Nat) : Char :=
  "0123456789abcdef".toList.getD n '0'

/-- The low `k` hexadecimal digits of `n`, most significant first. -/
def hexDigits : Nat → Nat → List Char
  | 0, _ => []
  | k + 1, n => hexDigits k (n / 16) ++ [hexDigit (n % 16)]

def UUID.hexChars (u : UUID) : List Char :=
  hexDigits 32 u.int.toNat

def UUID.hex (u : UUID) : String :=
  String.ofList u.hexChars

def UUID.strChars (u : UUID) : List Char :=
  -- the groups of 8, 4, 4, 4 and 12 digits that `str(uuid)` joins with dashes
  let h := u.hexChars
  h.take 8 ++ '-' :: ((h.drop 8).take 4 ++ '-' :: ((h.drop 12).take 4 ++ '-' ::
    ((h.drop 16).take 4 ++ '-' :: h.drop 20)))

def UUID.str (u : UUID) : String :=
  String.ofList u.strChars

theorem hexDigit_inj {m n : Nat} (hm : m < 16) (hn : n < 16) (same : hexDigit m = hexDigit n) :
    m = n := by
  have table : ∀ i j : Fin 16, hexDigit i = hexDigit j → i = j := by decide
  exact Fin.val_eq_of_eq (table ⟨m, hm⟩ ⟨n, hn⟩ same)

@[simp] theorem hexDigits_length (k n : Nat) : (hexDigits k n).length = k := by
  induction k generalizing n with
  | zero => rfl
  | succ k ih => simp [hexDigits, ih]

theorem nul_notMem_hexDigits (k n : Nat) : Char.ofNat 0 ∉ hexDigits k n := by
  have table : ∀ i : Fin 16, Char.ofNat 0 ≠ hexDigit i := by decide
  induction k generalizing n with
  | zero => exact List.not_mem_nil
  | succ k ih =>
    rw [hexDigits, List.mem_append, List.mem_singleton]
    rintro (high | low)
    · exact ih _ high
    · exact table ⟨n % 16, Nat.mod_lt _ (by omega)⟩ low

theorem hexDigits_inj {k m n : Nat} (hm : m < 16 ^ k) (hn : n < 16 ^ k)
    (same : hexDigits k m = hexDigits k n) : m = n := by
  induction k generalizing m n with
  | zero => omega
  | succ k ih =>
    obtain ⟨high, low⟩ := List.append_inj' same rfl
    have highEq : m / 16 = n / 16 := ih (by omega) (by omega) high
    have lowEq : m % 16 = n % 16 :=
      hexDigit_inj (Nat.mod_lt _ (by omega)) (Nat.mod_lt _ (by omega)) (List.singleton_inj.mp low)
    omega

@[simp] theorem UUID.hexChars_length (u : UUID) : u.hexChars.length = 32 :=
  hexDigits_length 32 _

theorem UUID.hexChars_injective : Function.Injective UUID.hexChars := by
  intro u v same
  have bound : ∀ w : UUID, w.int.toNat < 16 ^ 32 := fun w => w.int.isLt
  have ints := BitVec.eq_of_toNat_eq (hexDigits_inj (bound u) (bound v) same)
  cases u
  cases v
  cases ints
  rfl

theorem UUID.hex_injective : Function.Injective UUID.hex := by
  intro u v same
  exact UUID.hexChars_injective (String.ofList_injective same)

@[simp] theorem UUID.strChars_length (u : UUID) : u.strChars.length = 36 := by
  simp [UUID.strChars]

theorem UUID.str_length (u : UUID) : u.str.length = 36 := by
  rw [UUID.str, String.length_ofList, UUID.strChars_length]

theorem UUID.nul_notMem_hex (u : UUID) : Char.ofNat 0 ∉ u.hex.toList := by
  rw [UUID.hex, String.toList_ofList]
  exact nul_notMem_hexDigits 32 _

theorem UUID.nul_notMem_str (u : UUID) : Char.ofNat 0 ∉ u.str.toList := by
  have digits : Char.ofNat 0 ∉ u.hexChars := nul_notMem_hexDigits 32 _
  have taken : ∀ n m, Char.ofNat 0 ∉ (u.hexChars.drop n).take m := fun n m member =>
    digits (List.mem_of_mem_drop (List.mem_of_mem_take member))
  have dash : Char.ofNat 0 ≠ '-' := by decide
  rw [UUID.str, String.toList_ofList, UUID.strChars]
  simp only [List.mem_append, List.mem_cons, dash, false_or, not_or]
  exact ⟨taken 0 8, taken 8 4, taken 12 4, taken 16 4, fun last => digits (List.mem_of_mem_drop last)⟩

theorem UUID.strChars_injective : Function.Injective UUID.strChars := by
  intro u v same
  apply UUID.hexChars_injective
  -- The groups have the same lengths on both sides, so the concatenations split alike.
  obtain ⟨g1, same⟩ := List.append_inj same (by simp)
  obtain ⟨g2, same⟩ := List.append_inj (List.cons.inj same).2 (by simp)
  obtain ⟨g3, same⟩ := List.append_inj (List.cons.inj same).2 (by simp)
  obtain ⟨g4, same⟩ := List.append_inj (List.cons.inj same).2 (by simp)
  have g5 := (List.cons.inj same).2
  have regroup : ∀ w : UUID, w.hexChars = w.hexChars.take 8 ++ ((w.hexChars.drop 8).take 4 ++
      ((w.hexChars.drop 12).take 4 ++ ((w.hexChars.drop 16).take 4 ++ w.hexChars.drop 20))) := by
    intro w
    have split : ∀ n m, (w.hexChars.drop n).take m ++ w.hexChars.drop (n + m) =
        w.hexChars.drop n := by
      intro n m
      rw [← List.drop_drop, List.take_append_drop]
    rw [split 16 4, split 12 4, split 8 4, List.take_append_drop]
  rw [regroup u, regroup v, g1, g2, g3, g4, g5]

theorem UUID.str_injective : Function.Injective UUID.str := by
  intro u v same
  exact UUID.strChars_injective (String.ofList_injective same)

/-- `f"{scope}:{key}"` determines both parts: the key's text has a fixed length. -/
theorem scopedName_inj {scope scope' : String} {key key' : UUID}
    (same : scope ++ ":" ++ key.str = scope' ++ ":" ++ key'.str) : scope = scope' ∧ key = key' := by
  have chars := congrArg String.toList same
  simp only [String.toList_append, UUID.str, String.toList_ofList] at chars
  obtain ⟨left, right⟩ := List.append_inj' chars (by simp)
  obtain ⟨scopes, _⟩ := List.append_inj' left rfl
  exact ⟨String.toList_inj.mp scopes, UUID.strChars_injective right⟩

/-! ## Reading the text forms -/

def hexValue (c : Char) : Option Nat :=
  if '0' ≤ c ∧ c ≤ '9' then some (c.toNat - '0'.toNat)
  else if 'a' ≤ c ∧ c ≤ 'f' then some (c.toNat - 'a'.toNat + 10)
  else if 'A' ≤ c ∧ c ≤ 'F' then some (c.toNat - 'A'.toNat + 10)
  else none

/-- The number that hexadecimal digits write, most significant first. -/
def readHex (digits : List Char) : Option Nat :=
  digits.foldlM (fun n c => (hexValue c).map (16 * n + ·)) 0

theorem hexValue_hexDigit {n : Nat} (bound : n < 16) : hexValue (hexDigit n) = some n := by
  have table : ∀ i : Fin 16, hexValue (hexDigit i) = some i.val := by decide
  exact table ⟨n, bound⟩

theorem readHex_hexDigits (k n : Nat) : readHex (hexDigits k n) = some (n % 16 ^ k) := by
  induction k generalizing n with
  | zero => simp [readHex, hexDigits, Nat.mod_one]
  | succ k ih =>
    have high := ih (n / 16)
    simp only [readHex] at high ⊢
    rw [hexDigits, List.foldlM_append, high]
    simp only [Option.bind_eq_bind, Option.bind_some, List.foldlM_cons, List.foldlM_nil,
      hexValue_hexDigit (Nat.mod_lt n (by decide)), Option.map_some, Option.pure_def]
    rw [Nat.pow_succ', Nat.mod_mul, Nat.add_comm]

namespace UUID

/-- 32 hexadecimal digits. -/
def parseSimple (text : List Char) : Option UUID :=
  if text.length = 32 then (readHex text).map fun n => ⟨BitVec.ofNat 128 n⟩ else none

/-- Groups of 8, 4, 4, 4 and 12 digits with a dash between two of them. -/
def parseHyphenated (text : List Char) : Option UUID :=
  if text.length = 36 ∧ text[8]? = some '-' ∧ text[13]? = some '-' ∧ text[18]? = some '-' ∧
      text[23]? = some '-' then
    parseSimple (text.take 8 ++ ((text.drop 9).take 4 ++ ((text.drop 14).take 4 ++
      ((text.drop 19).take 4 ++ text.drop 24))))
  else none

def urn : List Char := "urn:uuid:".toList

/-- The text forms that validation accepts for a UUID: simple, hyphenated, and the latter in
    braces or as a URN. -/
def parse (text : String) : Option UUID :=
  let chars := text.toList
  if chars.length = 32 then parseSimple chars
  else if chars.length = 36 then parseHyphenated chars
  else if chars.length = 38 ∧ chars.head? = some '\x7b' ∧ chars.getLast? = some '\x7d' then
    parseHyphenated ((chars.drop 1).take 36)
  else if chars.length = 45 ∧ chars.take 9 = urn then parseHyphenated (chars.drop 9)
  else none

theorem parseSimple_hexChars (u : UUID) : parseSimple u.hexChars = some u := by
  have digits : readHex u.hexChars = some u.int.toNat := by
    rw [hexChars, readHex_hexDigits, Nat.mod_eq_of_lt]
    exact u.int.isLt
  simp [parseSimple, digits]

/-- A group of digits ahead of its dash. -/
theorem group_dash {n : Nat} {group : List Char} (length : group.length = n) (rest : List Char) :
    (group ++ '-' :: rest).take n = group ∧ (group ++ '-' :: rest)[n]? = some '-' ∧
      (group ++ '-' :: rest).drop (n + 1) = rest := by
  subst length
  refine ⟨List.take_left, by simp, ?_⟩
  rw [← List.drop_drop, List.drop_left]
  rfl

theorem parseHyphenated_groups {a b c d e : List Char} (ha : a.length = 8) (hb : b.length = 4)
    (hc : c.length = 4) (hd : d.length = 4) (he : e.length = 12) :
    parseHyphenated (a ++ '-' :: (b ++ '-' :: (c ++ '-' :: (d ++ '-' :: e)))) =
      parseSimple (a ++ (b ++ (c ++ (d ++ e)))) := by
  obtain ⟨take₄, dash₄, at₂₄⟩ := group_dash hd e
  obtain ⟨take₃, dash₃, at₁₉⟩ := group_dash hc (d ++ '-' :: e)
  obtain ⟨take₂, dash₂, at₁₄⟩ := group_dash hb (c ++ '-' :: (d ++ '-' :: e))
  obtain ⟨take₁, dash₁, at₉⟩ := group_dash ha (b ++ '-' :: (c ++ '-' :: (d ++ '-' :: e)))
  have length : (a ++ '-' :: (b ++ '-' :: (c ++ '-' :: (d ++ '-' :: e)))).length = 36 := by
    simp [ha, hb, hc, hd, he]
  generalize a ++ '-' :: (b ++ '-' :: (c ++ '-' :: (d ++ '-' :: e))) = text at *
  have drop₁₄ : text.drop 14 = c ++ '-' :: (d ++ '-' :: e) := by
    rw [← at₁₄, ← at₉, List.drop_drop]
  have drop₁₉ : text.drop 19 = d ++ '-' :: e := by
    rw [← at₁₉, ← drop₁₄, List.drop_drop]
  have drop₂₄ : text.drop 24 = e := by
    rw [← at₂₄, ← drop₁₉, List.drop_drop]
  have dash₁₃ : text[13]? = some '-' := by
    rw [← dash₂, ← at₉, List.getElem?_drop]
  have dash₁₈ : text[18]? = some '-' := by
    rw [← dash₃, ← drop₁₄, List.getElem?_drop]
  have dash₂₃ : text[23]? = some '-' := by
    rw [← dash₄, ← drop₁₉, List.getElem?_drop]
  rw [parseHyphenated, if_pos ⟨length, dash₁, dash₁₃, dash₁₈, dash₂₃⟩, at₉, drop₁₄, drop₁₉, drop₂₄,
    take₁, take₂, take₃, take₄]

theorem parseHyphenated_strChars (u : UUID) : parseHyphenated u.strChars = some u := by
  have lengths : ∀ n m, n + m ≤ 32 → ((u.hexChars.drop n).take m).length = m := by
    intro n m fits
    rw [List.length_take, List.length_drop, hexChars_length]
    omega
  have split : ∀ n m, (u.hexChars.drop n).take m ++ u.hexChars.drop (n + m) = u.hexChars.drop n := by
    intro n m
    rw [← List.drop_drop, List.take_append_drop]
  have first : (u.hexChars.take 8).length = 8 := lengths 0 8 (by decide)
  have last : (u.hexChars.drop 20).length = 12 := by simp
  rw [strChars, parseHyphenated_groups first (lengths 8 4 (by decide))
    (lengths 12 4 (by decide)) (lengths 16 4 (by decide)) last, split 16 4, split 12 4, split 8 4,
    List.take_append_drop, parseSimple_hexChars]

@[simp] theorem parse_str (u : UUID) : parse u.str = some u := by
  have length : u.str.toList.length = 36 := by simp [str]
  rw [parse]
  simp only [length]
  simp [str, parseHyphenated_strChars]

end UUID

/-! ## Name-based identifiers -/

def utf8 (name : String) : List Byte :=
  (name.toList.flatMap String.utf8EncodeChar).map (·.toBitVec)

/-- `uuid5(namespace, name)`: the first 128 bits of the SHA-1 digest with the RFC 4122
    variant and version 5 bits set. -/
def uuid5 (namespace_ : UUID) (name : String) : UUID :=
  let hash := (digest (bytesOfNat 16 namespace_.int.toNat ++ utf8 name)).extractLsb' 32 128
  let variant := (hash &&& ~~~(0xc000#128 <<< 48)) ||| (0x8000#128 <<< 48)
  ⟨(variant &&& ~~~(0xf000#128 <<< 64)) ||| (5#128 <<< 76)⟩

/-- The version bits. -/
def UUID.version (u : UUID) : Nat :=
  (u.int.extractLsb' 76 4).toNat

theorem uuid5_version (namespace_ : UUID) (name : String) : (uuid5 namespace_ name).version = 5 := by
  have bits (hash : BitVec 128) :
      ((hash &&& ~~~(0xf000#128 <<< 64)) ||| (5#128 <<< 76)).extractLsb' 76 4 = 5#4 := by
    apply BitVec.eq_of_getLsbD_eq
    intro i inNibble
    have position : i = 0 ∨ i = 1 ∨ i = 2 ∨ i = 3 := by omega
    rcases position with rfl | rfl | rfl | rfl <;> simp
  simp only [UUID.version, uuid5, bits]
  rfl

def NAMESPACE_URL : UUID := ⟨0x6ba7b8119dad11d180b400c04fd430c8⟩

example : uuid5 NAMESPACE_URL "tenant-é:1" = ⟨0xcfe6d38c7a55500a908da546c3deeac5⟩ := by decide +kernel

end SupplierAssurance.Python
