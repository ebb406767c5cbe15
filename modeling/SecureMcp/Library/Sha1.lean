import SecureMcp.Library.Sha256

/-! SHA-1 of a list of bytes, on natural numbers below `2 ^ 32`, with the padding of SHA-256. -/

namespace Sha1

def rotateLeft (word count : Nat) : Nat :=
  ((word <<< count) % 0x100000000) ||| (word >>> (32 - count))

/-- The five working words. -/
structure Words where
  (a b c d e : Nat)

def initialWords : Words :=
  ⟨0x67452301, 0xefcdab89, 0x98badcfe, 0x10325476, 0xc3d2e1f0⟩

def parity (x y z : Nat) : Nat :=
  x ^^^ y ^^^ z

/-- The function and the constant of each of the eighty rounds. -/
def phases : List ((Nat → Nat → Nat → Nat) × Nat) :=
  List.replicate 20 (Sha256.choose, 0x5a827999)
  ++ List.replicate 20 (parity, 0x6ed9eba1)
  ++ List.replicate 20 (Sha256.majority, 0x8f1bbcdc)
  ++ List.replicate 20 (parity, 0xca62c1d6)

/-- The word that enters a sixteen-word schedule window when its head leaves. -/
def nextWord (window : List Nat) : Nat :=
  rotateLeft (window.getD 13 0 ^^^ window.getD 8 0 ^^^ window.getD 2 0 ^^^ window.getD 0 0) 1

def round (words : Words) (mix : Nat → Nat → Nat → Nat) (constant scheduled : Nat) : Words :=
  let first := Sha256.add
    (Sha256.add (rotateLeft words.a 5) (mix words.b words.c words.d))
    (Sha256.add (Sha256.add words.e constant) scheduled)
  ⟨first, words.a, rotateLeft words.b 30, words.c, words.d⟩

def rounds (words : Words) (window : List Nat) : List ((Nat → Nat → Nat → Nat) × Nat) → Words
  | [] => words
  | (mix, constant) :: rest =>
      rounds (round words mix constant (window.headD 0)) (window.drop 1 ++ [nextWord window]) rest

def compress (words : Words) (block : List Nat) : Words :=
  let mixed := rounds words block phases
  ⟨Sha256.add words.a mixed.a, Sha256.add words.b mixed.b, Sha256.add words.c mixed.c,
    Sha256.add words.d mixed.d, Sha256.add words.e mixed.e⟩

/-- Compress one sixteen-word block for each unit of fuel. -/
def compressBlocks (fuel : Nat) (words : Words) (message : List Nat) : Words :=
  match fuel with
  | 0 => words
  | fuel + 1 =>
      if message.isEmpty then words
      else compressBlocks fuel (compress words (message.take 16)) (message.drop 16)

/-- The twenty bytes of a digest. -/
def digest (message : List Nat) : List Nat :=
  let scheduled := Sha256.bigEndianWords (Sha256.pad message)
  let words := compressBlocks scheduled.length initialWords scheduled
  [words.a, words.b, words.c, words.d, words.e].flatMap Sha256.wordBytes

end Sha1
