import SecureMcp.Python.CanonicalJson

/-! JSON values with every text that `json.loads` admits. It takes the escape of half a surrogate
pair for a code point of its own, which no UTF-8 text holds: such a text can be compared, but not
encoded.
-/

namespace SecureMcp

/-- An element of a Python string: a character, or a surrogate without its other half. -/
inductive CodePoint
  | char (value : Char)
  | surrogate (unit : Fin 2048)
  deriving DecidableEq

def CodePoint.char? : CodePoint → Option Char
  | .char value => some value
  | .surrogate _ => none

/-- A Python string. -/
abbrev PyText : Type := List CodePoint

namespace PyText

def ofString (text : String) : PyText :=
  text.toList.map .char

/-- The text, if it holds no surrogate. -/
def string? (text : PyText) : Option String :=
  (text.mapM CodePoint.char?).map String.ofList

/-- Whether `text.encode("utf-8")` succeeds. -/
def encodable (text : PyText) : Bool :=
  text.all (fun point => point.char?.isSome)

theorem string?_ofString (text : String) : (ofString text).string? = some text := by
  have chars (list : List Char) : (list.map CodePoint.char).mapM CodePoint.char? = some list := by
    induction list with
    | nil => rfl
    | cons char rest ih => simp [CodePoint.char?, ih]
  simp [ofString, string?, chars]

theorem ofString_injective {text other : String} (same : ofString text = ofString other)
    : text = other := by
  have texts := congrArg string? same
  rw [string?_ofString, string?_ofString] at texts
  exact Option.some.inj texts

/-- A text without surrogates consists of characters. -/
theorem eq_of_string? {text : PyText} {string : String} (found : text.string? = some string)
    : text = ofString string := by
  have chars (points : PyText) (list : List Char) (same : points.mapM CodePoint.char? = some list)
      : points = list.map .char := by
    induction points generalizing list with
    | nil =>
        cases same
        rfl
    | cons point rest ih =>
        rw [List.mapM_cons] at same
        obtain ⟨char, first, same⟩ := Option.bind_eq_some_iff.mp same
        obtain ⟨more, later, same⟩ := Option.bind_eq_some_iff.mp same
        cases same
        cases point with
        | surrogate unit => cases first
        | char value =>
            cases first
            rw [List.map_cons, ← ih more later]
  obtain ⟨list, same, rfl⟩ := Option.map_eq_some_iff.mp found
  rw [ofString, String.toList_ofList, ← chars text list same]

theorem isSome_string? (text : PyText) : text.string?.isSome = text.encodable := by
  have points : (text.mapM CodePoint.char?).isSome = text.encodable := by
    unfold encodable
    induction text with
    | nil => rfl
    | cons point rest ih =>
        rw [List.all_cons, ← ih, List.mapM_cons]
        cases point.char? <;> cases rest.mapM CodePoint.char? <;> rfl
  rw [← points, string?, Option.isSome_map]

end PyText

/-- A value that `json.loads` builds. -/
inductive ParsedJson
  | null
  | bool (value : Bool)
  | int (value : Int)
  | float (value : PyFloat)
  | str (text : PyText)
  | arr (items : List ParsedJson)
  | obj (fields : List (PyText × ParsedJson))

namespace ParsedJson

mutual

/-- The value, if none of its texts holds a surrogate. -/
def json? : ParsedJson → Option Json
  | .null => some .null
  | .bool value => some (.bool value)
  | .int value => some (.int value)
  | .float value => some (.float value)
  | .str text => text.string?.map .str
  | .arr items => (items? items).map .arr
  | .obj fields => (fields? fields).map .obj

def items? : List ParsedJson → Option (List Json)
  | [] => some []
  | item :: rest => do
      let first ← json? item
      let more ← items? rest
      return first :: more

def fields? : List (PyText × ParsedJson) → Option (List (String × Json))
  | [] => some []
  | (key, value) :: rest => do
      let name ← key.string?
      let first ← json? value
      let more ← fields? rest
      return (name, first) :: more

end

mutual

def ofJson : Json → ParsedJson
  | .null => .null
  | .bool value => .bool value
  | .int value => .int value
  | .float value => .float value
  | .str text => .str (.ofString text)
  | .arr items => .arr (ofItems items)
  | .obj fields => .obj (ofFields fields)

def ofItems : List Json → List ParsedJson
  | [] => []
  | item :: rest => ofJson item :: ofItems rest

def ofFields : List (String × Json) → List (PyText × ParsedJson)
  | [] => []
  | (key, value) :: rest => (.ofString key, ofJson value) :: ofFields rest

end

mutual

/-- Whether every number is finite, and every text and every key can be encoded. -/
def encodable : ParsedJson → Bool
  | .float (.finite _) => true
  | .float _ => false
  | .str text => text.encodable
  | .arr items => encodableItems items
  | .obj fields => encodableFields fields
  | _ => true

def encodableItems : List ParsedJson → Bool
  | [] => true
  | item :: rest => encodable item && encodableItems rest

def encodableFields : List (PyText × ParsedJson) → Bool
  | [] => true
  | (key, value) :: rest => key.encodable && encodable value && encodableFields rest

end

/-- `canonicaljson.encode_canonical_json`. A text that cannot be encoded is a `ValueError` too. -/
def encode (value : ParsedJson) : Except Exn String :=
  match value.json? with
  | some json => CanonicalJson.encode json
  | none => .error .valueError

/-- Python's truth value. -/
def truthy : ParsedJson → Bool
  | .null => false
  | .bool value => value
  | .int value => value ≠ 0
  | .float (.finite value) => value.digits ≠ 0
  | .float _ => true
  | .str text => !text.isEmpty
  | .arr items => !items.isEmpty
  | .obj fields => !fields.isEmpty

/-- `value or {}`. -/
def orEmpty (value : ParsedJson) : ParsedJson :=
  if value.truthy then value else .obj []

/-- `value is None`. -/
def isNone : ParsedJson → Bool
  | .null => true
  | _ => false

/-- `fields.get(key)`: an absent key reads as `None`. -/
def getKey (fields : List (PyText × ParsedJson)) (key : String) : ParsedJson :=
  (fields.lookup (.ofString key)).getD .null

mutual

/-- Exactly the values with finite numbers and encodable texts can be encoded. -/
theorem any_json? (value : ParsedJson)
    : value.json?.any CanonicalJson.finite = value.encodable := by
  match value with
  | .null | .bool _ | .int _ => rfl
  | .float (.finite _) | .float (.infinity _) | .float .nan => rfl
  | .str text =>
      have known := text.isSome_string?
      cases found : text.string? <;> rw [found] at known <;>
        simp [json?, encodable, found, CanonicalJson.finite, ← known]
  | .arr items =>
      have inner := any_items? items
      simp only [json?, encodable, ← inner, Option.any_map]
      rfl
  | .obj fields =>
      have inner := any_fields? fields
      simp only [json?, encodable, ← inner, Option.any_map]
      rfl

theorem any_items? (items : List ParsedJson)
    : (items? items).any CanonicalJson.finiteItems = encodableItems items := by
  match items with
  | [] => rfl
  | item :: rest =>
      have head := any_json? item
      have tail := any_items? rest
      simp only [items?, encodableItems, ← head, ← tail]
      cases json? item <;> cases items? rest <;> simp [CanonicalJson.finiteItems]

theorem any_fields? (fields : List (PyText × ParsedJson))
    : (fields? fields).any CanonicalJson.finiteFields = encodableFields fields := by
  match fields with
  | [] => rfl
  | (key, value) :: rest =>
      have name := key.isSome_string?
      have head := any_json? value
      have tail := any_fields? rest
      simp only [fields?, encodableFields, ← name, ← head, ← tail]
      cases key.string? <;> cases json? value <;> cases fields? rest <;>
        simp [CanonicalJson.finiteFields]

end

theorem isOk_encode (value : ParsedJson) : value.encode.isOk = value.encodable := by
  rw [← any_json?, encode]
  cases value.json? with
  | none => rfl
  | some json =>
      have printed := CanonicalJson.isOk_chars json
      simp only [CanonicalJson.encode, Option.any_some, ← printed]
      cases CanonicalJson.chars json <;> rfl

mutual

/-- A value of characters only is itself. -/
theorem json?_ofJson (value : Json) : (ofJson value).json? = some value := by
  match value with
  | .null | .bool _ | .int _ | .float _ => rfl
  | .str text => simp [ofJson, json?, PyText.string?_ofString]
  | .arr items => simp [ofJson, json?, items?_ofItems items]
  | .obj fields => simp [ofJson, json?, fields?_ofFields fields]

theorem items?_ofItems (items : List Json) : items? (ofItems items) = some items := by
  match items with
  | [] => rfl
  | item :: rest => simp [ofItems, items?, json?_ofJson item, items?_ofItems rest]

theorem fields?_ofFields (fields : List (String × Json))
    : fields? (ofFields fields) = some fields := by
  match fields with
  | [] => rfl
  | (key, value) :: rest =>
      simp [ofFields, fields?, PyText.string?_ofString, json?_ofJson value, fields?_ofFields rest]

end

theorem encode_ofJson (value : Json) : (ofJson value).encode = CanonicalJson.encode value := by
  rw [encode, json?_ofJson]

theorem getKey_ofFields (fields : List (String × Json)) (key : String)
    : getKey (ofFields fields) key = ofJson (Json.getKey fields key) := by
  induction fields with
  | nil => rfl
  | cons field rest ih =>
      obtain ⟨name, value⟩ := field
      unfold getKey Json.getKey at ih ⊢
      by_cases same : key = name
      · subst same
        simp [ofFields]
      · have apart : PyText.ofString key ≠ PyText.ofString name :=
          fun equal => same (PyText.ofString_injective equal)
        simpa [ofFields, List.lookup_cons, beq_false_of_ne same, beq_false_of_ne apart] using ih

theorem truthy_ofJson (value : Json) : (ofJson value).truthy = value.truthy := by
  match value with
  | .null | .bool _ | .int _ => rfl
  | .float (.finite _) | .float (.infinity _) | .float .nan => rfl
  | .str text =>
      by_cases empty : text = "" <;>
        simp [ofJson, truthy, Json.truthy, PyText.ofString, empty]
  | .arr [] | .arr (_ :: _) | .obj [] | .obj (_ :: _) => rfl

theorem orEmpty_ofJson (value : Json) : (ofJson value).orEmpty = ofJson value.orEmpty := by
  unfold orEmpty Json.orEmpty
  rw [truthy_ofJson]
  split <;> rfl

theorem isNone_ofJson (value : Json) : (ofJson value).isNone = decide (value = .null) := by
  cases value <;> simp [ofJson, isNone]

end ParsedJson

end SecureMcp
