import SecureMcp.Drift.Classify
import SecureMcp.Python.Selection

/-! What two tool definitions with one shape hash have in common. The shape is meant to leave out
a tool's name and the titles that annotate the tool and its schemas. Stripping goes by the key
alone: below the tool's own fields it takes every `title` for an annotation, a parameter of that
name too, and the tool's own title stays.
-/

namespace SecureMcp

namespace DriftDetector

open Json (AgreeAt DistinctKeys Reordered Segment Selection)

/-- What is hashed of a definition. -/
def shape (tool : Tool) : Tool :=
  (Dict.erase "name" tool).map (fun field => (field.1, strip field.2))

/-- Two values with one hash are one value. -/
def InjectiveHash (one other : Json) : Prop :=
  ∀ text,
    CanonicalJson.hash one = .ok text → CanonicalJson.hash other = .ok text → Reordered one other

/-- The parts that stripping tells apart: the definition itself and everything below it. -/
inductive StripPlace
  | tool
  | below

def StripPlace.keeps (place : StripPlace) (key : String) : Bool :=
  match place with
  | .tool => key ≠ "name"
  | .below => key ≠ "title"

def stripSelection : Selection StripPlace where
  keeps := StripPlace.keeps
  field _ _ := .below
  item _ := .below

mutual

theorem strip_eq_select (value : Json) : strip value = stripSelection.select .below value := by
  match value with
  | .obj fields => rw [strip, Selection.select, stripFields_eq_select fields]
  | .arr items =>
      rw [strip, Selection.select]
      exact congrArg Json.arr (stripItems_eq_select items)
  | .null | .bool _ | .int _ | .float _ | .str _ => rfl

theorem stripItems_eq_select (items : List Json)
    : stripItems items = stripSelection.selectItems .below items := by
  match items with
  | [] => rfl
  | item :: rest =>
      rw [stripItems, Selection.selectItems, strip_eq_select item, stripItems_eq_select rest]

theorem stripFields_eq_select (fields : List (String × Json))
    : stripFields fields = stripSelection.selectFields .below fields := by
  match fields with
  | [] => rfl
  | (key, value) :: rest =>
      rw [stripFields, Selection.selectFields, strip_eq_select value, stripFields_eq_select rest]
      simp [stripSelection, StripPlace.keeps]

end

theorem shape_eq_select (tool : Tool)
    : Json.obj (shape tool) = stripSelection.select .tool (.obj tool) := by
  rw [Selection.select, Json.obj.injEq]
  induction tool with
  | nil => rfl
  | cons field rest ih =>
      obtain ⟨key, value⟩ := field
      rw [Selection.selectFields, ← ih]
      by_cases named : key = "name"
      · simp [shape, Dict.erase, stripSelection, StripPlace.keeps, named]
      · simp [shape, Dict.erase, stripSelection, StripPlace.keeps, named, strip_eq_select]

/-- The parts of a definition: the tool, its annotations, its schemas and maps of schemas, and
data that is no schema.
-/
inductive Part
  | tool
  | annotations
  | schema
  | schemas
  | data

/-- The keywords of a schema whose value is a schema or a list of schemas. -/
def schemaKeywords : List String :=
  [
    "additionalItems", "additionalProperties", "allOf", "anyOf", "contains", "contentSchema",
    "else", "if", "items", "not", "oneOf", "prefixItems", "propertyNames", "then",
    "unevaluatedItems", "unevaluatedProperties"
  ]

/-- The keywords of a schema whose value maps names of its own to schemas. -/
def schemasKeywords : List String :=
  ["$defs", "definitions", "dependencies", "dependentSchemas", "patternProperties", "properties"]

/-- The part that a key of a part leads to. -/
def Part.field (part : Part) (key : String) : Part :=
  match part with
  | .tool =>
      if key ∈ ["inputSchema", "outputSchema"] then .schema
      else if key = "annotations" then .annotations
      else .data
  | .schema =>
      if key ∈ schemaKeywords then .schema
      else if key ∈ schemasKeywords then .schemas
      else .data
  | .schemas => .schema
  | .annotations | .data => .data

/-- Titles annotate the tool and its schemas; elsewhere a title is a name or data like others. -/
def Part.keeps (part : Part) (key : String) : Bool :=
  match part with
  | .tool => key ≠ "name" && key ≠ "title"
  | .annotations | .schema => key ≠ "title"
  | .schemas | .data => true

/-- The items of a list of schemas are schemas. -/
def Part.item (part : Part) : Part :=
  match part with
  | .schema => .schema
  | .tool | .annotations | .schemas | .data => .data

/-- A definition without the tool's name and without the titles that annotate the tool and its
schemas.
-/
def unannotated : Selection Part where
  keeps := Part.keeps
  field := Part.field
  item := Part.item

/-- Two definitions are the same but for the tool's name and annotating titles. -/
def SameShaped (one other : Tool) : Prop :=
  Reordered (unannotated.select .tool (.obj one)) (unannotated.select .tool (.obj other))

/-- The tool's name and titles of any kind are not on the path. -/
def Untitled (path : List Segment) : Prop :=
  path.head? ≠ some (.key "name") ∧ .key "title" ∉ path

/-- The path leads to the tool's own title, or to something without a title below it. -/
def OwnTitle (path : List Segment) : Prop :=
  path.head? = some (.key "title") ∧ .key "title" ∉ path.tail

/-- The path goes through a title, but through none that annotates the tool or a schema. -/
def TitledData (path : List Segment) : Prop :=
  .key "title" ∈ path ∧ unannotated.reaches .tool path

/-- Two definitions agree at all of these paths. -/
def AlikeOn (paths : List Segment → Prop) (one other : Tool) : Prop :=
  ∀ path, paths path → AgreeAt path (.obj one) (.obj other)

theorem alikeOn_or {paths others : List Segment → Prop} {one other : Tool}
    : AlikeOn (fun path => paths path ∨ others path) one other
      ↔ AlikeOn paths one other ∧ AlikeOn others one other := by
  constructor
  · intro alike
    exact ⟨fun path on => alike path (.inl on), fun path on => alike path (.inr on)⟩
  · intro ⟨first, second⟩ path on
    rcases on with on | on
    · exact first path on
    · exact second path on

theorem strip_reaches_below (path : List Segment)
    : stripSelection.reaches .below path ↔ .key "title" ∉ path := by
  induction path with
  | nil => simp [Selection.reaches]
  | cons segment path ih =>
      cases segment with
      | key name =>
          have here : stripSelection.keeps .below name ↔ Segment.key "title" ≠ .key name := by
            simpa [stripSelection, StripPlace.keeps] using not_congr eq_comm
          rw [Selection.reaches, Bool.and_eq_true, here, List.mem_cons, not_or]
          exact and_congr Iff.rfl ih
      | index position => simpa [Selection.reaches, stripSelection] using ih

/-- What is hashed of a definition has no title but the tool's own. -/
theorem strip_reaches (path : List Segment)
    : stripSelection.reaches .tool path ↔ Untitled path ∨ OwnTitle path := by
  cases path with
  | nil => simp [Selection.reaches, Untitled]
  | cons segment path =>
      have below := strip_reaches_below path
      cases segment with
      | key name =>
          have here : stripSelection.keeps .tool name ↔ name ≠ "name" := by
            simp [stripSelection, StripPlace.keeps]
          rw [Selection.reaches, Bool.and_eq_true, here]
          rw [show stripSelection.field .tool name = .below from rfl, below]
          by_cases own : name = "title"
          · simp [Untitled, OwnTitle, own]
          · simp [Untitled, OwnTitle, own, Ne.symm own]
      | index position =>
          rw [Selection.reaches, show stripSelection.item .tool = .below from rfl, below]
          simp [Untitled, OwnTitle]

theorem Part.field_ne_tool (part : Part) (key : String) : part.field key ≠ .tool := by
  cases part with
  | tool | schema =>
      simp only [Part.field]
      split
      · simp
      · split <;> simp
  | schemas | annotations | data => simp [Part.field]

/-- Below the tool's own fields only titles are left out, by induction on the path. -/
theorem unannotated_reaches_below (part : Part) (below : part ≠ .tool) {path : List Segment}
    (untitled : .key "title" ∉ path)
    : unannotated.reaches part path := by
  induction path generalizing part with
  | nil => rfl
  | cons segment path ih =>
      obtain ⟨first, later⟩ := not_or.mp (List.mem_cons.not.mp untitled)
      cases segment with
      | key name =>
          rw [Selection.reaches, Bool.and_eq_true]
          refine ⟨?_, ih (part.field name) (part.field_ne_tool name) later⟩
          have other : name ≠ "title" := fun same => first (congrArg Segment.key same.symm)
          cases part with
          | tool => exact absurd rfl below
          | annotations | schema => simpa [unannotated, Part.keeps] using other
          | schemas | data => rfl
      | index position =>
          refine ih part.item ?_ later
          cases part <;> simp [Part.item]

/-- What is left of a definition without its annotations is what has no title at all on its
path, and the titles that annotate nothing.
-/
theorem unannotated_reaches (path : List Segment)
    : unannotated.reaches .tool path ↔ Untitled path ∨ TitledData path := by
  by_cases titled : Segment.key "title" ∈ path
  · simp [Untitled, TitledData, titled]
  · have untitled : Untitled path ↔ path.head? ≠ some (.key "name") := by
      simp [Untitled, titled]
    rw [untitled, TitledData]
    simp only [titled, false_and, or_false]
    cases path with
    | nil => simp [Selection.reaches]
    | cons segment path =>
        obtain ⟨first, later⟩ := not_or.mp (List.mem_cons.not.mp titled)
        cases segment with
        | key name =>
            have other : name ≠ "title" := fun same => first (congrArg Segment.key same.symm)
            have below : unannotated.reaches (unannotated.field .tool name) path :=
              unannotated_reaches_below _ (Part.field_ne_tool .tool name) later
            rw [Selection.reaches, below]
            simp [unannotated, Part.keeps, other]
        | index position =>
            have below := unannotated_reaches_below .data (by simp) later
            simpa [Selection.reaches, unannotated, Part.item] using below

/-- Two shapes are the same when the definitions agree outside the tool's name and all titles,
and in the tool's own title.
-/
theorem reordered_shape_iff {one other : Tool} (dictionary : (Json.obj one).DistinctKeys)
    (dictionaryOther : (Json.obj other).DistinctKeys)
    : Reordered (.obj (shape one)) (.obj (shape other))
      ↔ AlikeOn Untitled one other ∧ AlikeOn OwnTitle one other := by
  rw [shape_eq_select, shape_eq_select,
    stripSelection.reordered_select_iff .tool dictionary dictionaryOther, ← alikeOn_or]
  exact forall_congr' (fun path => imp_congr (strip_reaches path) Iff.rfl)

/-- Two definitions have one shape when they agree outside the tool's name and all titles, and in
the titles that annotate nothing.
-/
theorem sameShaped_iff {one other : Tool} (dictionary : (Json.obj one).DistinctKeys)
    (dictionaryOther : (Json.obj other).DistinctKeys)
    : SameShaped one other ↔ AlikeOn Untitled one other ∧ AlikeOn TitledData one other := by
  rw [SameShaped, unannotated.reordered_select_iff .tool dictionary dictionaryOther, ← alikeOn_or]
  exact forall_congr' (fun path => imp_congr (unannotated_reaches path) Iff.rfl)

/-- Without a collision, two definitions have one hash exactly when they have one text. -/
theorem shapeHash_eq_iff {one other : Tool} (dictionary : (Json.obj one).DistinctKeys)
    {left right : String} (hashed : shapeHash one = .ok left)
    (hashedOther : shapeHash other = .ok right)
    (injective : InjectiveHash (.obj (shape one)) (.obj (shape other)))
    : left = right ↔ Reordered (.obj (shape one)) (.obj (shape other)) := by
  constructor
  · intro same
    exact injective left hashed (same ▸ hashedOther)
  · intro order
    obtain ⟨text, printed, digest⟩ := CanonicalJson.hash_ok hashed
    obtain ⟨again, printedOther, digestOther⟩ := CanonicalJson.hash_ok hashedOther
    have distinct : (Json.obj (shape one)).DistinctKeys := by
      rw [shape_eq_select]
      exact stripSelection.distinct_select .tool (.obj one) dictionary
    have printedAgain := CanonicalJson.encode_reordered order distinct printed
    have same : text = again := Except.ok.inj (printedAgain.symm.trans printedOther)
    rw [digest, digestOther, same]

/-- The shape hash tells definitions apart as their shapes do, exactly for definitions that
either differ outside their names and titles, or carry the same own title just when they carry
the same titles that annotate nothing.
-/
theorem shape_hash_identifies_iff {one other : Tool}
    (dictionary : (Json.obj one).DistinctKeys) (dictionaryOther : (Json.obj other).DistinctKeys)
    {left right : String} (hashed : shapeHash one = .ok left)
    (hashedOther : shapeHash other = .ok right)
    (injective : InjectiveHash (.obj (shape one)) (.obj (shape other)))
    : (left = right ↔ SameShaped one other)
      ↔ (AlikeOn Untitled one other
          → (AlikeOn OwnTitle one other ↔ AlikeOn TitledData one other)) := by
  rw [shapeHash_eq_iff dictionary hashed hashedOther injective,
    reordered_shape_iff dictionary dictionaryOther, sameShaped_iff dictionary dictionaryOther]
  exact and_congr_right_iff

/-- A tool with one parameter, which is named `title`, under the given title of its schema. -/
def titleTool (name schemaTitle : String) : Tool :=
  [
    ("name", .str name),
    ("inputSchema",
      .obj [
        ("title", .str schemaTitle),
        ("properties", .obj [("title", .obj [("type", .str "string")])])
      ])
  ]

def sendTitle : Tool :=
  titleTool "send" "sendArguments"

def postTitle : Tool :=
  titleTool "post" "postArguments"

/-- The same tool without the parameter. -/
def bareTool : Tool :=
  [("name", .str "send"), ("inputSchema", .obj [("properties", .obj [])])]

theorem distinct_titleTool (name schemaTitle : String)
    : (Json.obj (titleTool name schemaTitle)).DistinctKeys := by
  simp [titleTool, DistinctKeys, Json.DistinctFields, Dict.keys]

theorem exists_hash_bareTool : ∃ hash, shapeHash bareTool = .ok hash :=
  CanonicalJson.exists_hash rfl

/-- A renamed tool, whose schema has a new title, keeps its shape. -/
theorem shape_hash_identifies_renamed
    : ∃ left right,
        shapeHash sendTitle = .ok left
        ∧ shapeHash postTitle = .ok right
        ∧ ((left = right ↔ SameShaped sendTitle postTitle)
          ↔ (AlikeOn Untitled sendTitle postTitle
              → (AlikeOn OwnTitle sendTitle postTitle
                ↔ AlikeOn TitledData sendTitle postTitle))) := by
  obtain ⟨hash, hashed⟩ := exists_hash_bareTool
  refine ⟨hash, hash, hashed, hashed, ?_⟩
  exact shape_hash_identifies_iff (distinct_titleTool _ _) (distinct_titleTool _ _) hashed hashed
    (fun _ _ _ => .refl _)

/-- A tool that loses a parameter named `title` keeps its shape hash, although the two definitions
differ in more than annotations.
-/
theorem title_parameter_keeps_shape_hash
    : ∃ hash,
        shapeHash sendTitle = .ok hash
        ∧ shapeHash bareTool = .ok hash
        ∧ InjectiveHash (.obj (shape sendTitle)) (.obj (shape bareTool))
        ∧ ¬ (hash = hash ↔ SameShaped sendTitle bareTool) := by
  obtain ⟨hash, hashed⟩ := exists_hash_bareTool
  refine ⟨hash, hashed, hashed, fun _ _ _ => .refl _, ?_⟩
  intro identifies
  have dictionary : (Json.obj bareTool).DistinctKeys := by
    simp [bareTool, DistinctKeys, Json.DistinctFields, Dict.keys]
  obtain ⟨_, titles⟩ := (sameShaped_iff (distinct_titleTool _ _) dictionary).mp (identifies.mp rfl)
  have parameter : some (Json.obj []) = none :=
    titles [.key "inputSchema", .key "properties", .key "title"] ⟨by simp, rfl⟩
  cases parameter

end DriftDetector

end SecureMcp
