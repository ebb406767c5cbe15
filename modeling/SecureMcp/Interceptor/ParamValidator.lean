import Mathlib.Data.List.Sort
import SecureMcp.Drift.Classify

/-! Validation of a call's arguments against the tool's input schema. Both are whatever JSON
the client and the upstream sent, so attribute accesses and set operations may raise.
-/

namespace SecureMcp

namespace ParamValidator

/-- Null bytes and control characters; tab, newline and carriage return pass. -/
def isControl (char : Char) : Bool :=
  char.toNat ≤ 8 || char.toNat = 11 || char.toNat = 12
  || (14 ≤ char.toNat && char.toNat ≤ 31) || char.toNat = 127

/-- `_INJECTION.search`: path traversal or a control character. -/
def hasInjection (text : String) : Bool :=
  "../".toList <:+: text.toList || "..\\".toList <:+: text.toList || text.toList.any isControl

mutual

/-- The dotted path of the first string that matches. A path that is empty is falsy, so the
caller drops such a hit and goes on.
-/
def findInjection (path : String) : Json → Option String
  | .str text => if hasInjection text then some path else none
  | .obj fields => findInFields path fields
  | .arr items => findInItems path 0 items
  | _ => none

def findInFields (path : String) : List (String × Json) → Option String
  | [] => none
  | (key, value) :: rest =>
      let inner := if path = "" then key else path ++ "." ++ key
      match findInjection inner value with
      | some hit => if hit = "" then findInFields path rest else some hit
      | none => findInFields path rest

def findInItems (path : String) (index : Nat) : List Json → Option String
  | [] => none
  | value :: rest =>
      match findInjection (path ++ "[" ++ toString index ++ "]") value with
      | some hit => if hit = "" then findInItems path (index + 1) rest else some hit
      | none => findInItems path (index + 1) rest

end

/-- The elements of a set, each once. -/
def distinct : List Json → List Json
  | [] => []
  | item :: rest => item :: (distinct rest).filter (fun other => !item.pyEq other)

def strings? (items : List Json) : Option (List String) :=
  items.mapM (fun item =>
    match item with
    | .str text => some text
    | _ => none)

def numbers? (items : List Json) : Option (List (Json × Json.Numeric)) :=
  items.mapM (fun item => item.numeric?.map (fun value => (item, value)))

/-- `sorted` of a set: its elements are all strings or all numbers, or there is only one. -/
def sortedSet (items : List Json) : Except Exn (List Json) :=
  match items with
  | [] | [_] => .ok items
  | _ =>
      match strings? items, numbers? items with
      | some texts, _ => .ok ((texts.insertionSort (· ≤ ·)).map .str)
      | none, some numbers =>
          .ok ((numbers.insertionSort (fun left right => !right.2.lt left.2)).map Prod.fst)
      | none, none => .error .typeError

/-- The argument fields that the schema's properties do not name. -/
def unknownFields (arguments : Json) (properties : List (String × Json))
    : Except Exn (List Json) := do
  let fields ← DriftDetector.setOf arguments
  return distinct (fields.filter (fun field => field ∉ (Dict.keys properties).map Json.str))

/-- The error of the first argument that holds an injection. -/
def injectionError : List (String × Json) → Option String
  | [] => none
  | (key, value) :: rest =>
      match findInjection key value with
      | some hit =>
          if hit = "" then injectionError rest
          else some ("path traversal or control character in argument " ++ pyRepr hit)
      | none => injectionError rest

/-- What follows the check for unknown fields. -/
def validateValues (runtime : Runtime) (arguments schema : Json)
    : Except Exn (Option String) :=
  match runtime.validateSchema arguments schema with
  | .validationError message => .ok (some ("schema validation failed: " ++ message))
  | .schemaError message => .ok (some ("tool schema itself is invalid: " ++ message))
  | .raises exn => .error exn
  | .conforms =>
      match arguments with
      | .obj fields => .ok (injectionError fields)
      | _ => .error .attributeError

/-- An error text if the arguments do not conform. Unknown fields are rejected even where
the schema would allow them.
-/
def validate (runtime : Runtime) (arguments schema : Json) : Except Exn (Option String) := do
  match ← schema.get "properties" with
  | .obj properties =>
      match ← unknownFields arguments properties with
      | [] => validateValues runtime arguments schema
      | unknown =>
          return some ("unknown argument field(s): " ++ (Json.arr (← sortedSet unknown)).repr)
  | _ => validateValues runtime arguments schema

end ParamValidator

end SecureMcp
