import Mathlib.Data.List.Sort
import SecureMcp.Library.Sha256
import SecureMcp.Python.Json

/-! Canonical JSON as `canonicaljson` prints it: sorted keys, no blanks, integers in full,
floats by `repr`, and no text at all for a NaN or an infinity.
-/

namespace SecureMcp

namespace CanonicalJson

def hex4 (value : Nat) : List Char :=
  [hexDigit (value / 4096), hexDigit (value / 256), hexDigit (value / 16), hexDigit value]

/-- One character of a quoted string; only quotes, backslashes and control characters are
escaped.
-/
def escapeChar (char : Char) : List Char :=
  if char = '"' then ['\\', '"']
  else if char = '\\' then ['\\', '\\']
  else if char = '\n' then ['\\', 'n']
  else if char = '\r' then ['\\', 'r']
  else if char = '\t' then ['\\', 't']
  else if char = '\x08' then ['\\', 'b']
  else if char = '\x0c' then ['\\', 'f']
  else if char < ' ' then '\\' :: 'u' :: hex4 char.toNat
  else [char]

def quoted (text : String) : List Char :=
  '"' :: (text.toList.flatMap escapeChar ++ ['"'])

def joined (texts : List (List Char)) : List Char :=
  List.intercalate [','] texts

/-- One printed member of an object. -/
def member (entry : String × List Char) : List Char :=
  quoted entry.1 ++ ':' :: entry.2

/-- Members in key order; keys are compared by code point. -/
def sorted (entries : List (String × List Char)) : List (String × List Char) :=
  entries.insertionSort (fun left right => left.1 ≤ right.1)

mutual

def chars : Json → Except Exn (List Char)
  | .null => .ok "null".toList
  | .bool true => .ok "true".toList
  | .bool false => .ok "false".toList
  | .int value => .ok (toString value).toList
  | .float (.finite value) => .ok value.repr
  | .float _ => .error .valueError
  | .str text => .ok (quoted text)
  | .arr items => do
      let texts ← itemChars items
      return '[' :: (joined texts ++ [']'])
  | .obj fields => do
      let entries ← fieldChars fields
      return '\x7b' :: (joined ((sorted entries).map member) ++ ['\x7d'])

def itemChars : List Json → Except Exn (List (List Char))
  | [] => .ok []
  | item :: rest => do
      let text ← chars item
      let texts ← itemChars rest
      return text :: texts

def fieldChars : List (String × Json) → Except Exn (List (String × List Char))
  | [] => .ok []
  | (key, value) :: rest => do
      let text ← chars value
      let entries ← fieldChars rest
      return (key, text) :: entries

end

/-- `canonicaljson.encode_canonical_json`, as text. -/
def encode (value : Json) : Except Exn String :=
  return String.ofList (← chars value)

/-- The SHA-256 hex digest of a value's canonical text. -/
def hash (value : Json) : Except Exn String :=
  return Sha256.hexdigest (← encode value)

mutual

/-- Whether every number in a value is finite. -/
def finite : Json → Bool
  | .float (.finite _) => true
  | .float _ => false
  | .arr items => finiteItems items
  | .obj fields => finiteFields fields
  | _ => true

def finiteItems : List Json → Bool
  | [] => true
  | item :: rest => finite item && finiteItems rest

def finiteFields : List (String × Json) → Bool
  | [] => true
  | (_, value) :: rest => finite value && finiteFields rest

end

mutual

/-- Exactly the finite values have a text. -/
theorem isOk_chars (value : Json) : (chars value).isOk = finite value := by
  match value with
  | .null | .bool true | .bool false | .int _ | .str _ => rfl
  | .float (.finite _) | .float (.infinity _) | .float .nan => rfl
  | .arr items =>
      have inner := isOk_itemChars items
      simp only [chars, finite]
      cases printed : itemChars items <;> rw [printed] at inner <;>
        simpa [bind, Except.bind, pure, Except.pure, Except.isOk, Except.toBool] using inner
  | .obj fields =>
      have inner := isOk_fieldChars fields
      simp only [chars, finite]
      cases printed : fieldChars fields <;> rw [printed] at inner <;>
        simpa [bind, Except.bind, pure, Except.pure, Except.isOk, Except.toBool] using inner

theorem isOk_itemChars (items : List Json) : (itemChars items).isOk = finiteItems items := by
  match items with
  | [] => rfl
  | item :: rest =>
      have head := isOk_chars item
      have tail := isOk_itemChars rest
      simp only [itemChars, finiteItems]
      cases first : chars item <;> cases later : itemChars rest <;>
        rw [first] at head <;> rw [later] at tail <;>
        simp_all [bind, Except.bind, pure, Except.pure, Except.isOk, Except.toBool]

theorem isOk_fieldChars (fields : List (String × Json))
    : (fieldChars fields).isOk = finiteFields fields := by
  match fields with
  | [] => rfl
  | (key, value) :: rest =>
      have head := isOk_chars value
      have tail := isOk_fieldChars rest
      simp only [fieldChars, finiteFields]
      cases first : chars value <;> cases later : fieldChars rest <;>
        rw [first] at head <;> rw [later] at tail <;>
        simp_all [bind, Except.bind, pure, Except.pure, Except.isOk, Except.toBool]

end

theorem exists_encode {value : Json} (numbers : finite value)
    : ∃ text, encode value = .ok text := by
  have printed := (isOk_chars value).trans numbers
  unfold encode
  cases result : chars value with
  | error exn =>
      rw [result] at printed
      cases printed
  | ok text => exact ⟨_, rfl⟩

theorem finite_of_encode {value : Json} {text : String} (printed : encode value = .ok text)
    : finite value := by
  rw [← isOk_chars]
  unfold encode at printed
  cases result : chars value with
  | error exn =>
      rw [result] at printed
      cases printed
  | ok text => rfl

theorem exists_hash {value : Json} (numbers : finite value) : ∃ text, hash value = .ok text := by
  obtain ⟨text, printed⟩ := exists_encode numbers
  exact ⟨Sha256.hexdigest text, by simp [hash, printed, bind, Except.bind, pure, Except.pure]⟩

theorem hash_ok {value : Json} {text : String} (hashed : hash value = .ok text)
    : ∃ printed, encode value = .ok printed ∧ text = Sha256.hexdigest printed := by
  unfold hash at hashed
  cases result : encode value with
  | error exn => simp [result, bind, Except.bind] at hashed
  | ok printed =>
      simp only [result, bind, Except.bind, pure, Except.pure] at hashed
      cases hashed
      exact ⟨printed, rfl, rfl⟩

theorem length_of_hash {value : Json} {text : String} (hashed : hash value = .ok text)
    : text.length = 64 := by
  obtain ⟨printed, _, rfl⟩ := hash_ok hashed
  exact Sha256.length_hexdigest printed

/-- Objects that differ in key order only print alike (`a` before `b` here). -/
example
    : encode (.obj [("b", .int 2), ("a", .arr [.null, .str "x"])])
      = .ok "\x7b\"a\":[null,\"x\"],\"b\":2\x7d" := by
  decide

end CanonicalJson

end SecureMcp
