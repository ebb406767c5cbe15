import SecureMcp.Python.Json

/-! What the gateway uses of Python's `hmac`, `base64` and `struct`. -/

namespace SecureMcp

/-- `hmac.compare_digest`, which takes ASCII texts only. -/
def compareDigest (expected presented : String) : Except Exn Bool :=
  if presented.toList.all (fun char => char.toNat < 128) then .ok (expected == presented)
  else .error .typeError

theorem eq_of_compareDigest {expected presented : String}
    (same : compareDigest expected presented = .ok true)
    : expected = presented := by
  unfold compareDigest at same
  split at same
  · simpa using same
  · cases same

/-- The value of an upper-case base32 digit. -/
def base32Digit (char : Char) : Option Nat :=
  if 'A' ≤ char ∧ char ≤ 'Z' then some (char.toNat - 'A'.toNat)
  else if '2' ≤ char ∧ char ≤ '7' then some (char.toNat - '2'.toNat + 26)
  else none

/-- `base64.b32decode` of a text; `none` where it raises `binascii.Error`. -/
def b32decode (text : List Char) : Option (List Nat) :=
  let digits := text.reverse.dropWhile (fun char => char = '=')
  let padding := text.length - digits.length
  if text.length % 8 ≠ 0 || padding ∉ [0, 1, 3, 4, 6] then none
  else do
    let values ← digits.reverse.mapM base32Digit
    let count := 5 * values.length / 8
    let bits := values.foldl (fun bits value => 32 * bits + value) 0
    let whole := bits >>> (5 * values.length - 8 * count)
    return (List.range count).map (fun index => whole >>> (8 * (count - 1 - index)) % 256)

/-- `struct.pack(">Q", value)`. -/
def packUnsigned (value : Int) : Except Exn (List Nat) :=
  if 0 ≤ value ∧ value < 2 ^ 64 then
    .ok ([56, 48, 40, 32, 24, 16, 8, 0].map (fun shift => value.toNat >>> shift % 256))
  else .error .structError

end SecureMcp
