import SecureMcp.Library.Sha1

/-! HMAC over a hash function with blocks of 64 bytes, as SHA-1 and SHA-256 are. -/

namespace Hmac

/-- A key of one block: a longer key is hashed, a shorter one filled up with zeros. -/
def blockKey (hash : List Nat → List Nat) (key : List Nat) : List Nat :=
  let short := if 64 < key.length then hash key else key
  short ++ List.replicate (64 - short.length) 0

/-- The code of a message, in bytes. -/
def digest (hash : List Nat → List Nat) (key message : List Nat) : List Nat :=
  let block := blockKey hash key
  let inner := hash (block.map (fun byte => byte ^^^ 0x36) ++ message)
  hash (block.map (fun byte => byte ^^^ 0x5c) ++ inner)

/-- The lower-case hexadecimal code of a text with SHA-256, all of them as characters. -/
@[irreducible]
def sha256Chars (key message : List Char) : List Char :=
  let code := digest Sha256.bytes (key.flatMap Sha256.utf8) (message.flatMap Sha256.utf8)
  (Sha256.bigEndianWords code).flatMap Sha256.hexWord

def sha256Hex (key message : String) : String :=
  String.ofList (sha256Chars key.toList message.toList)

example
    : sha256Hex "Jefe" "what do ya want for nothing?"
      = "5bdcc146bf60754e6a042426089575c75a003f089d2739839dec58b964ec3843" := by
  decide +kernel

end Hmac
