import Mathlib.Data.List.Defs

/-! # SHA-1

The digest of a byte string as FIPS 180 defines it, written so that the kernel can
evaluate it: every recursion is structural and the words are bit vectors.  Nothing
is proved about it; name-based identifiers are computed with it.
-/

namespace SupplierAssurance.Lib.Sha1

abbrev Byte := BitVec 8
abbrev Word := BitVec 32

structure Chain where
  a : Word
  b : Word
  c : Word
  d : Word
  e : Word

def initial : Chain := ⟨0x67452301, 0xEFCDAB89, 0x98BADCFE, 0x10325476, 0xC3D2E1F0⟩

/-- The logical function and the constant of round `t`. -/
def mix (t : Nat) (b c d : Word) : Word × Word :=
  if t < 20 then ((b &&& c) ||| (~~~b &&& d), 0x5A827999)
  else if t < 40 then (b ^^^ c ^^^ d, 0x6ED9EBA1)
  else if t < 60 then ((b &&& c) ||| (b &&& d) ||| (c &&& d), 0x8F1BBCDC)
  else (b ^^^ c ^^^ d, 0xCA62C1D6)

def round (s : Chain) (t : Nat) (w : Word) : Chain :=
  let (f, k) := mix t s.b s.c s.d
  ⟨s.a.rotateLeft 5 + f + s.e + k + w, s.a, s.b.rotateLeft 30, s.c, s.d⟩

/-- `n` rounds from round `t` on.  `window` holds the next sixteen words of the
    message schedule, oldest first. -/
def rounds : Nat → Nat → List Word → Chain → Chain
  | 0, _, _, s => s
  | n + 1, t, window, s =>
    match window with
    | [] => s
    | w :: rest =>
      let next := (window.getD 13 0 ^^^ window.getD 8 0 ^^^ window.getD 2 0 ^^^ w).rotateLeft 1
      rounds n (t + 1) (rest ++ [next]) (round s t w)

def compress (s : Chain) (block : List Word) : Chain :=
  let r := rounds 80 0 block s
  ⟨s.a + r.a, s.b + r.b, s.c + r.c, s.d + r.d, s.e + r.e⟩

def blocks : Nat → List Word → Chain → Chain
  | 0, _, s => s
  | n + 1, ws, s => blocks n (ws.drop 16) (compress s (ws.take 16))

def words : List Byte → List Word
  | a :: b :: c :: d :: rest => (a ++ b ++ c ++ d : BitVec 32) :: words rest
  | _ => []

/-- The low `k` bytes of `n`, big-endian. -/
def bytesOfNat : Nat → Nat → List Byte
  | 0, _ => []
  | k + 1, n => bytesOfNat k (n / 256) ++ [BitVec.ofNat 8 n]

def pad (message : List Byte) : List Byte :=
  message ++ 0x80#8 :: List.replicate ((119 - message.length % 64) % 64) 0#8 ++
    bytesOfNat 8 (8 * message.length)

def digest (message : List Byte) : BitVec 160 :=
  let padded := pad message
  let s := blocks (padded.length / 64) (words padded) initial
  s.a ++ s.b ++ s.c ++ s.d ++ s.e

end SupplierAssurance.Lib.Sha1
