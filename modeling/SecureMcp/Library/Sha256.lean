/-! SHA-256 of a text's UTF-8 bytes, on natural numbers below `2 ^ 32`.
The functions recurse structurally, so the kernel can evaluate a digest.
-/

namespace Sha256

def add (left right : Nat) : Nat :=
  (left + right) % 0x100000000

def rotateRight (word count : Nat) : Nat :=
  (word >>> count) ||| ((word <<< (32 - count)) % 0x100000000)

def choose (x y z : Nat) : Nat :=
  (x &&& y) ^^^ ((0xffffffff - x) &&& z)

def majority (x y z : Nat) : Nat :=
  (x &&& y) ^^^ (x &&& z) ^^^ (y &&& z)

def bigSigma0 (word : Nat) : Nat :=
  rotateRight word 2 ^^^ rotateRight word 13 ^^^ rotateRight word 22

def bigSigma1 (word : Nat) : Nat :=
  rotateRight word 6 ^^^ rotateRight word 11 ^^^ rotateRight word 25

def smallSigma0 (word : Nat) : Nat :=
  rotateRight word 7 ^^^ rotateRight word 18 ^^^ (word >>> 3)

def smallSigma1 (word : Nat) : Nat :=
  rotateRight word 17 ^^^ rotateRight word 19 ^^^ (word >>> 10)

def roundConstants : List Nat :=
  [
    0x428a2f98, 0x71374491, 0xb5c0fbcf, 0xe9b5dba5, 0x3956c25b, 0x59f111f1, 0x923f82a4,
    0xab1c5ed5, 0xd807aa98, 0x12835b01, 0x243185be, 0x550c7dc3, 0x72be5d74, 0x80deb1fe,
    0x9bdc06a7, 0xc19bf174, 0xe49b69c1, 0xefbe4786, 0x0fc19dc6, 0x240ca1cc, 0x2de92c6f,
    0x4a7484aa, 0x5cb0a9dc, 0x76f988da, 0x983e5152, 0xa831c66d, 0xb00327c8, 0xbf597fc7,
    0xc6e00bf3, 0xd5a79147, 0x06ca6351, 0x14292967, 0x27b70a85, 0x2e1b2138, 0x4d2c6dfc,
    0x53380d13, 0x650a7354, 0x766a0abb, 0x81c2c92e, 0x92722c85, 0xa2bfe8a1, 0xa81a664b,
    0xc24b8b70, 0xc76c51a3, 0xd192e819, 0xd6990624, 0xf40e3585, 0x106aa070, 0x19a4c116,
    0x1e376c08, 0x2748774c, 0x34b0bcb5, 0x391c0cb3, 0x4ed8aa4a, 0x5b9cca4f, 0x682e6ff3,
    0x748f82ee, 0x78a5636f, 0x84c87814, 0x8cc70208, 0x90befffa, 0xa4506ceb, 0xbef9a3f7,
    0xc67178f2
  ]

/-- The eight working words. -/
structure Words where
  (a b c d e f g h : Nat)

def initialWords : Words :=
  ⟨0x6a09e667, 0xbb67ae85, 0x3c6ef372, 0xa54ff53a,
    0x510e527f, 0x9b05688c, 0x1f83d9ab, 0x5be0cd19⟩

/-- The word that enters a sixteen-word schedule window when its head leaves. -/
def nextWord : List Nat → Nat
  | first :: second :: rest =>
      add (add (smallSigma1 (rest.getD 12 0)) (rest.getD 7 0))
        (add (smallSigma0 second) first)
  | _ => 0

def round (words : Words) (constant scheduled : Nat) : Words :=
  let first := add
    (add (add words.h (bigSigma1 words.e)) (add (choose words.e words.f words.g) constant))
    scheduled
  let second := add (bigSigma0 words.a) (majority words.a words.b words.c)
  ⟨add first second, words.a, words.b, words.c, add words.d first, words.e, words.f, words.g⟩

def rounds (words : Words) (window : List Nat) : List Nat → Words
  | [] => words
  | constant :: rest =>
      rounds (round words constant (window.headD 0)) (window.drop 1 ++ [nextWord window]) rest

def compress (words : Words) (block : List Nat) : Words :=
  let mixed := rounds words block roundConstants
  ⟨add words.a mixed.a, add words.b mixed.b, add words.c mixed.c, add words.d mixed.d,
    add words.e mixed.e, add words.f mixed.f, add words.g mixed.g, add words.h mixed.h⟩

def bigEndianWords : List Nat → List Nat
  | first :: second :: third :: fourth :: rest =>
      (first * 0x1000000 + second * 0x10000 + third * 0x100 + fourth) :: bigEndianWords rest
  | _ => []

/-- Append the mark bit, zeros and the bit length, up to a multiple of 64 bytes. -/
def pad (bytes : List Nat) : List Nat :=
  let length := bytes.length
  bytes
  ++ 0x80 :: List.replicate ((119 - length % 64) % 64) 0
  ++ [56, 48, 40, 32, 24, 16, 8, 0].map (fun shift => (8 * length) >>> shift % 256)

/-- Compress one sixteen-word block for each unit of fuel. -/
def compressBlocks (fuel : Nat) (words : Words) (message : List Nat) : Words :=
  match fuel with
  | 0 => words
  | fuel + 1 =>
      if message.isEmpty then words
      else compressBlocks fuel (compress words (message.take 16)) (message.drop 16)

def hexWord (word : Nat) : List Char :=
  [28, 24, 20, 16, 12, 8, 4, 0].map
    (fun shift => (Nat.toDigits 16 (word >>> shift % 16)).headD '0')

def wordBytes (word : Nat) : List Nat :=
  [24, 16, 8, 0].map (fun shift => word >>> shift % 256)

/-- The thirty-two bytes of a digest. -/
def bytes (message : List Nat) : List Nat :=
  let scheduled := bigEndianWords (pad message)
  let words := compressBlocks scheduled.length initialWords scheduled
  [words.a, words.b, words.c, words.d, words.e, words.f, words.g, words.h].flatMap wordBytes

/-- The two hexadecimal digits of a byte. -/
def hexByte (byte : Nat) : List Char :=
  [Nat.digitChar (byte / 16), Nat.digitChar (byte % 16)]

/-- The lower-case hexadecimal digest of bytes. -/
def hexBytes (message : List Nat) : String :=
  String.ofList ((bytes message).flatMap hexByte)

/-- The UTF-8 bytes of a character. -/
def utf8 (char : Char) : List Nat :=
  let code := char.toNat
  if code < 0x80 then [code]
  else if code < 0x800 then [0xc0 + code / 64, 0x80 + code % 64]
  else if code < 0x10000 then
    [0xe0 + code / 4096, 0x80 + code / 64 % 64, 0x80 + code % 64]
  else
    [0xf0 + code / 262144, 0x80 + code / 4096 % 64, 0x80 + code / 64 % 64, 0x80 + code % 64]

/-- The lower-case hexadecimal digest of a text, both as characters. -/
@[irreducible]
def digest (text : List Char) : List Char :=
  let message := bigEndianWords (pad (text.flatMap utf8))
  let words := compressBlocks message.length initialWords message
  [words.a, words.b, words.c, words.d, words.e, words.f, words.g, words.h].flatMap hexWord

def hexdigest (text : String) : String :=
  String.ofList (digest text.toList)

theorem length_digest (text : List Char) : (digest text).length = 64 := by
  unfold digest
  simp [hexWord]

theorem length_hexdigest (text : String) : (hexdigest text).length = 64 := by
  rw [hexdigest, String.length_ofList, length_digest]

/-- A digest has hexadecimal digits only. -/
theorem hyphen_not_mem_digest (text : List Char) : '-' ∉ digest text := by
  have digits : ∀ digit < 16, (Nat.toDigits 16 digit).headD '0' ≠ '-' := by decide
  unfold digest
  intro member
  obtain ⟨word, _, among⟩ := List.mem_flatMap.mp member
  obtain ⟨shift, _, same⟩ := List.mem_map.mp among
  exact digits _ (Nat.mod_lt _ (by decide)) same

theorem hexdigest_ofList_append (left right : List Char)
    : hexdigest (String.ofList left ++ String.ofList right)
      = String.ofList (digest (left ++ right)) := by
  rw [hexdigest, String.toList_append, String.toList_ofList, String.toList_ofList]

example
    : hexdigest "abc"
      = "ba7816bf8f01cfea414140de5dae2223b00361a396177a9cb410ff61f20015ad" := by
  decide +kernel

/-- Two texts do not collide when equal digests mean equal texts. -/
def NoCollision (left right : String) : Prop :=
  hexdigest left = hexdigest right → left = right

end Sha256
