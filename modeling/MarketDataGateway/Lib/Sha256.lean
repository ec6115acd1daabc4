import Mathlib.Data.List.Basic
import MarketDataGateway.Lib.Json

/-!
# SHA-256

The hash function of FIPS 180-4 on octets, and its digest in hexadecimal digits, as
`hashlib.sha256(data).hexdigest()` writes it: 64 digits (`length_hexdigest`, `mem_hexdigest`).
-/

namespace MarketDataGateway.Lib

namespace Sha256

/-- A word. -/
abbrev Word := BitVec 32

/-- The constants of the rounds. -/
def constants : List Word :=
  [0x428a2f98, 0x71374491, 0xb5c0fbcf, 0xe9b5dba5, 0x3956c25b, 0x59f111f1, 0x923f82a4,
    0xab1c5ed5, 0xd807aa98, 0x12835b01, 0x243185be, 0x550c7dc3, 0x72be5d74, 0x80deb1fe,
    0x9bdc06a7, 0xc19bf174, 0xe49b69c1, 0xefbe4786, 0x0fc19dc6, 0x240ca1cc, 0x2de92c6f,
    0x4a7484aa, 0x5cb0a9dc, 0x76f988da, 0x983e5152, 0xa831c66d, 0xb00327c8, 0xbf597fc7,
    0xc6e00bf3, 0xd5a79147, 0x06ca6351, 0x14292967, 0x27b70a85, 0x2e1b2138, 0x4d2c6dfc,
    0x53380d13, 0x650a7354, 0x766a0abb, 0x81c2c92e, 0x92722c85, 0xa2bfe8a1, 0xa81a664b,
    0xc24b8b70, 0xc76c51a3, 0xd192e819, 0xd6990624, 0xf40e3585, 0x106aa070, 0x19a4c116,
    0x1e376c08, 0x2748774c, 0x34b0bcb5, 0x391c0cb3, 0x4ed8aa4a, 0x5b9cca4f, 0x682e6ff3,
    0x748f82ee, 0x78a5636f, 0x84c87814, 0x8cc70208, 0x90befffa, 0xa4506ceb, 0xbef9a3f7,
    0xc67178f2]

/-- The eight words of the state. -/
structure Chain where
  /-- The first word. -/
  a : Word
  /-- The second word. -/
  b : Word
  /-- The third word. -/
  c : Word
  /-- The fourth word. -/
  d : Word
  /-- The fifth word. -/
  e : Word
  /-- The sixth word. -/
  f : Word
  /-- The seventh word. -/
  g : Word
  /-- The eighth word. -/
  h : Word

/-- The initial state. -/
def Chain.initial : Chain :=
  ⟨0x6a09e667, 0xbb67ae85, 0x3c6ef372, 0xa54ff53a,
    0x510e527f, 0x9b05688c, 0x1f83d9ab, 0x5be0cd19⟩

/-- The words of a state. -/
def Chain.words (s : Chain) : List Word := [s.a, s.b, s.c, s.d, s.e, s.f, s.g, s.h]

/-- The sum of two states, word by word. -/
def Chain.add (s t : Chain) : Chain :=
  ⟨s.a + t.a, s.b + t.b, s.c + t.c, s.d + t.d, s.e + t.e, s.f + t.f, s.g + t.g, s.h + t.h⟩

/-- The word that four octets make. -/
def word (a b c d : Byte) : Word :=
  BitVec.ofNat 32 (((a.val * 256 + b.val) * 256 + c.val) * 256 + d.val)

/-- The words of octets. -/
def wordsOf : List Byte → List Word
  | a :: b :: c :: d :: rest => word a b c d :: wordsOf rest
  | _ => []

/-- The message with a one, with zeros up to a whole number of blocks, and with its length in
bits. -/
def pad (message : List Byte) : List Byte :=
  message ++ [0x80] ++ List.replicate ((119 - message.length % 64) % 64) 0 ++
    (List.range 8).map fun i => byte (8 * message.length / 256 ^ (7 - i))

/-- The next word of the schedule, from the words so far, the latest first. -/
def nextWord (schedule : List Word) : Word :=
  let w2 := schedule.getD 1 0
  let w15 := schedule.getD 14 0
  (w2.rotateRight 17 ^^^ w2.rotateRight 19 ^^^ w2 >>> 10) + schedule.getD 6 0 +
    (w15.rotateRight 7 ^^^ w15.rotateRight 18 ^^^ w15 >>> 3) + schedule.getD 15 0

/-- The schedule of a block, from the words so far, the latest first. -/
def extend : ℕ → List Word → List Word
  | 0, schedule => schedule
  | n + 1, schedule => extend n (nextWord schedule :: schedule)

/-- A round. -/
def round (s : Chain) (kw : Word × Word) : Chain :=
  let t1 := s.h + (s.e.rotateRight 6 ^^^ s.e.rotateRight 11 ^^^ s.e.rotateRight 25) +
    (s.e &&& s.f ^^^ ~~~s.e &&& s.g) + kw.1 + kw.2
  let t2 := (s.a.rotateRight 2 ^^^ s.a.rotateRight 13 ^^^ s.a.rotateRight 22) +
    (s.a &&& s.b ^^^ s.a &&& s.c ^^^ s.b &&& s.c)
  ⟨t1 + t2, s.a, s.b, s.c, s.d + t1, s.e, s.f, s.g⟩

/-- The state after a block of sixteen words. -/
def compress (s : Chain) (block : List Word) : Chain :=
  s.add ((constants.zip (extend 48 block.reverse).reverse).foldl round s)

/-- The blocks of words, so many of them. -/
def blocks : ℕ → List Word → List (List Word)
  | 0, _ => []
  | n + 1, ws => ws.take 16 :: blocks n (ws.drop 16)

/-- The state after the whole message. -/
def hash (message : List Byte) : Chain :=
  (blocks ((pad message).length / 64) (wordsOf (pad message))).foldl compress .initial

/-- The digits of a word. -/
def hexWord (w : Word) : PyStr := (List.range 8).map fun i => hexDigit (w.toNat / 16 ^ (7 - i) % 16)

/-- `hashlib.sha256(message).hexdigest()`. -/
def hexdigest (message : List Byte) : PyStr := (hash message).words.flatMap hexWord

/-- A digest has 64 hexadecimal digits. -/
theorem length_hexdigest (message : List Byte) : (hexdigest message).length = 64 := by
  unfold hexdigest Chain.words hexWord
  rw [List.length_flatMap]
  rfl

/-- A digest is made of hexadecimal digits. -/
theorem mem_hexdigest {message : List Byte} {c : CodePoint} (h : c ∈ hexdigest message) :
    c ∈ text "0123456789abcdef" := by
  have hdigits : ∀ n < 16, hexDigit n ∈ text "0123456789abcdef" := by decide
  obtain ⟨w, -, hw⟩ := List.mem_flatMap.1 h
  obtain ⟨i, -, rfl⟩ := List.mem_map.1 hw
  exact hdigits _ (Nat.mod_lt _ (by decide))

end Sha256

end MarketDataGateway.Lib
