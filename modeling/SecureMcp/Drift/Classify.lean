import SecureMcp.Decision
import SecureMcp.Python.CanonicalJson

/-! Severity of a change between two tool definitions, and the hashes and content scan that
the drift detector takes of a definition. A definition is whatever JSON object the upstream
sent, so every attribute access can meet a value of the wrong shape and raise.
-/

namespace SecureMcp

/-- A tool definition: the fields of one object of a tools list. -/
abbrev Tool : Type := List (String × Json)

/-- `str(tool.get("name"))`. -/
def Tool.name (tool : Tool) : String :=
  (Json.getKey tool "name").pyStr

namespace DriftDetector

def toolHash (tool : Tool) : Except Exn String :=
  CanonicalJson.hash (.obj tool)

mutual

/-- Drop every `title` key below a value. -/
def strip : Json → Json
  | .obj fields => .obj (stripFields fields)
  | .arr items => .arr (stripItems items)
  | value => value

def stripItems : List Json → List Json
  | [] => []
  | item :: rest => strip item :: stripItems rest

def stripFields : List (String × Json) → List (String × Json)
  | [] => []
  | (key, value) :: rest =>
      if key ≠ "title" then (key, strip value) :: stripFields rest else stripFields rest

end

/-- Hash of a definition without its name; the tool's own title is kept, those below it are
not.
-/
def shapeHash (tool : Tool) : Except Exn String :=
  toolHash ((Dict.erase "name" tool).map (fun field => (field.1, strip field.2)))

/-- Whether a value can be an element of a Python set. -/
def hashable : Json → Bool
  | .arr _ | .obj _ => false
  | _ => true

/-- The elements of `set(value)`; iterating anything but a container, or hashing a
container, raises.
-/
def setOf : Json → Except Exn (List Json)
  | .arr items => if items.all hashable then .ok items else .error .typeError
  | .obj fields => .ok ((Dict.keys fields).map .str)
  | .str text => .ok (text.toList.map (fun char => .str (String.ofList [char])))
  | _ => .error .typeError

/-- `set(schema.get("required") or [])`. -/
def requiredNames (schema : Json) : Except Exn (List Json) := do
  let required ← schema.get "required"
  if required.truthy then setOf required else return []

/-- `schema.get("properties") or {}`, whose keys are then taken. -/
def propertiesOf (schema : Json) : Except Exn (List (String × Json)) := do
  match (← schema.get "properties").orEmpty with
  | .obj fields => return fields
  | _ => throw .attributeError

/-- Severity of the change of a parameter that both definitions have. -/
def sharedSeverity (old new : Json) : Except Exn (Option DriftSeverity) := do
  let oldType ← old.get "type"
  let newType ← new.get "type"
  if !oldType.pyEq newType then return some .critical
  else if !old.pyEq new then return some .low
  else return none

/-- The severities of all parameters that both definitions have. -/
def sharedSeverities (oldProps newProps : List (String × Json))
    : Except Exn (List DriftSeverity) :=
  oldProps.foldrM
    (fun field rest =>
      match newProps.lookup field.1 with
      | none => return rest
      | some new => return (← sharedSeverity field.2 new).toList ++ rest)
    []

/-- The changes that the severity table names. -/
def tableSeverities (description : DriftSeverity) (old new : Tool)
    : Except Exn (List DriftSeverity) := do
  let described :=
    if !(Json.getKey old "description").pyEq (Json.getKey new "description") then
      [description]
    else []
  let oldSchema := (Json.getKey old "inputSchema").orEmpty
  let newSchema := (Json.getKey new "inputSchema").orEmpty
  let oldProps ← propertiesOf oldSchema
  let newProps ← propertiesOf newSchema
  let oldRequired ← requiredNames oldSchema
  let newRequired ← requiredNames newSchema
  let added :=
    ((Dict.keys newProps).filter (fun prop => prop ∉ Dict.keys oldProps)).map
      (fun prop => if .str prop ∈ newRequired then .critical else .medium)
  let removed :=
    if (Dict.keys oldProps).any (fun prop => prop ∉ Dict.keys newProps) then [.high] else []
  let shared ← sharedSeverities oldProps newProps
  let flipped :=
    if (Dict.keys oldProps).any (fun prop =>
        prop ∈ Dict.keys newProps
        && decide (.str prop ∈ oldRequired) != decide (.str prop ∈ newRequired)) then
      [.critical]
    else []
  return described ++ added ++ removed ++ shared ++ flipped

/-- Severity of the change between two definitions, `none` if they are identical. Changes
the table does not name are HIGH, but only when nothing it names has changed.
-/
def classify (settings : Settings) (old new : Tool)
    : Except Exn (Option DriftSeverity) := do
  match ← tableSeverities settings.driftDescriptionSeverity old new with
  | first :: rest => return some (rest.foldl DriftSeverity.max first)
  | [] => if (← toolHash old) ≠ (← toolHash new) then return some .high else return none

mutual

/-- Every `description` string below a value, with its path. -/
def texts (path : String) : Json → List (String × String)
  | .obj fields =>
      (match Json.getKey fields "description" with
        | .str description => [(path ++ ".description", description)]
        | _ => [])
      ++ fieldTexts path fields
  | .arr items => itemTexts path 0 items
  | _ => []

def fieldTexts (path : String) : List (String × Json) → List (String × String)
  | [] => []
  | (key, value) :: rest =>
      (if key ≠ "description" then texts (path ++ "." ++ key) value else [])
      ++ fieldTexts path rest

def itemTexts (path : String) (index : Nat) : List Json → List (String × String)
  | [] => []
  | item :: rest =>
      texts (path ++ "[" ++ toString index ++ "]") item ++ itemTexts path (index + 1) rest

end

/-- Heuristic findings in a definition's model-visible text. -/
def scanDescriptions (runtime : Runtime) (tool : Tool) : List String :=
  let candidates :=
    (match Json.getKey tool "description" with
      | .str description => [("description", description)]
      | _ => [])
    ++ texts "inputSchema" (Json.getKey tool "inputSchema")
  candidates.flatMap (fun candidate =>
    (SuspiciousPattern.all.filter (fun pattern => runtime.search pattern candidate.2)).map
      (fun pattern => pattern.label ++ " in " ++ candidate.1))

end DriftDetector

end SecureMcp
