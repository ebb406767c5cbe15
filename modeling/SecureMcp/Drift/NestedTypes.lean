import SecureMcp.Drift.Outcome
import SecureMcp.Drift.Severity

/-! Type and required changes inside nested object schemas. The severity table makes both
CRITICAL for a tool's parameters; those of the objects inside a parameter's schema are
compared as part of it.
-/

namespace SecureMcp

namespace DriftDetector

/-- Two schemas at one place: the same way down through `properties` and `items` leads to
them in the old and the new version.
-/
inductive SamePlace (old new : Json) : List (String × Json) → List (String × Json) → Prop
  | root {was now : List (String × Json)} (oldRoot : old = .obj was) (newRoot : new = .obj now)
    : SamePlace old new was now
  | property {was now oldProps newProps oldInner newInner : List (String × Json)} (prop : String)
    (outer : SamePlace old new was now)
    (oldHas : was.lookup "properties" = some (.obj oldProps))
    (newHas : now.lookup "properties" = some (.obj newProps))
    (oldProp : oldProps.lookup prop = some (.obj oldInner))
    (newProp : newProps.lookup prop = some (.obj newInner))
    : SamePlace old new oldInner newInner
  | items {was now oldInner newInner : List (String × Json)}
    (outer : SamePlace old new was now)
    (oldHas : was.lookup "items" = some (.obj oldInner))
    (newHas : now.lookup "items" = some (.obj newInner))
    : SamePlace old new oldInner newInner
  | position {was now oldInner newInner : List (String × Json)} {oldItems newItems : List Json}
    {index : Nat}
    (outer : SamePlace old new was now)
    (oldHas : was.lookup "items" = some (.arr oldItems))
    (newHas : now.lookup "items" = some (.arr newItems))
    (oldItem : oldItems[index]? = some (.obj oldInner))
    (newItem : newItems[index]? = some (.obj newInner))
    : SamePlace old new oldInner newInner

/-- The object schema lists the property as required. -/
def RequiredIn (schema : List (String × Json)) (prop : String) : Prop :=
  ∃ items, schema.lookup "required" = some (.arr items) ∧ .str prop ∈ items

/-- A property of both object schemas changes its type, or enters or leaves the list of
required ones.
-/
inductive PropertyChanged (was now : List (String × Json)) : Prop
  | retyped {oldProps newProps oldInner newInner : List (String × Json)} (prop : String)
    (oldHas : was.lookup "properties" = some (.obj oldProps))
    (newHas : now.lookup "properties" = some (.obj newProps))
    (oldProp : oldProps.lookup prop = some (.obj oldInner))
    (newProp : newProps.lookup prop = some (.obj newInner))
    (changed : (Json.getKey oldInner "type").pyEq (Json.getKey newInner "type") = false)
    : PropertyChanged was now
  | flipped {oldProps newProps : List (String × Json)} {prop : String}
    (oldHas : was.lookup "properties" = some (.obj oldProps))
    (newHas : now.lookup "properties" = some (.obj newProps))
    (oldProp : prop ∈ Dict.keys oldProps) (newProp : prop ∈ Dict.keys newProps)
    (flips : ¬ (RequiredIn was prop ↔ RequiredIn now prop))
    : PropertyChanged was now

/-- Some object schema inside the input schema has such a change. -/
def NestedChange (old new : Tool) : Prop :=
  ∃ was now,
    SamePlace (Json.getKey old "inputSchema") (Json.getKey new "inputSchema") was now
    ∧ PropertyChanged was now

/-- The change is one of the tool's own parameters, in input schemas that list the required ones. -/
def OwnChange (old new : Tool) : Prop :=
  ∃ was now before after,
    Json.getKey old "inputSchema" = .obj was ∧ Json.getKey new "inputSchema" = .obj now
    ∧ Declares was before ∧ Declares now after
    ∧ PropertyChanged was now

/-- A row of the table that is CRITICAL applies to the definitions' own parameters or
description.
-/
def CriticalRow (configured : DriftSeverity) (old new : Tool) : Prop :=
  ∃ before after,
    Comparable old new before after ∧ Row configured old new before after .critical

theorem critical_iff (settings : Settings) (old new : Tool)
    : classify settings old new = .ok (some .critical)
      ↔ CriticalRow settings.driftDescriptionSeverity old new := by
  have top (severity : DriftSeverity)
      : DriftSeverity.critical.rank ≤ severity.rank ↔ severity = .critical := by
    cases severity <;> decide
  have reached : classify settings old new = .ok (some .critical)
      ↔ Reaches settings old new .critical := by
    simp [Reaches, top]
  rw [reached, reaches_iff]
  refine exists_congr fun before => exists_congr fun after => and_congr_right fun _ => ?_
  simp only [top]
  constructor
  · rintro (⟨severity, row, rfl⟩ | ⟨-, reached⟩)
    · exact row
    · cases reached
  · intro row
    exact .inl ⟨_, row, rfl⟩

theorem requiredIn_declares {schema : List (String × Json)} {parameters : Parameters}
    {prop : String} (declares : Declares schema parameters)
    : RequiredIn schema prop ↔ parameters.needs prop := by
  unfold RequiredIn Parameters.needs
  rcases declares.2 with has | ⟨absent, empty⟩
  · simp [has]
  · simp [absent, empty]

theorem props_declares {schema props : List (String × Json)} {parameters : Parameters}
    (declares : Declares schema parameters)
    (has : schema.lookup "properties" = some (.obj props))
    : props = parameters.props := by
  rcases declares.1 with found | ⟨absent, -⟩
  · rw [found] at has
    cases has
    rfl
  · rw [absent] at has
    cases has

theorem parametersOf_declares {tool : Tool} {schema : List (String × Json)}
    {read parameters : Parameters} (isSchema : Json.getKey tool "inputSchema" = .obj schema)
    (declares : Declares schema parameters) (reads : parametersOf tool = .ok read)
    : read = parameters := by
  obtain ⟨props, required⟩ := parametersOf_eq_ok.mp reads
  rw [isSchema, orEmpty_obj] at props required
  exact parameters_of_declares declares props required

/-- A change of the tool's own parameters is a row of the table. -/
theorem OwnChange.row {configured : DriftSeverity} {old new : Tool} {before after : Parameters}
    (own : OwnChange old new) (comparable : Comparable old new before after)
    : Row configured old new before after .critical := by
  obtain ⟨was, now, _, _, oldSchema, newSchema, oldDeclares, newDeclares, change⟩ := own
  obtain rfl := parametersOf_declares oldSchema oldDeclares comparable.old
  obtain rfl := parametersOf_declares newSchema newDeclares comparable.new
  cases change with
  | retyped prop oldHas newHas oldProp newProp changed =>
      obtain rfl := props_declares oldDeclares oldHas
      obtain rfl := props_declares newDeclares newHas
      exact .retyped (Dict.mem_of_lookup oldProp) newProp changed
  | flipped oldHas newHas oldProp newProp flips =>
      obtain rfl := props_declares oldDeclares oldHas
      obtain rfl := props_declares newDeclares newHas
      rw [requiredIn_declares oldDeclares, requiredIn_declares newDeclares] at flips
      exact .flipped oldProp newProp flips

/-- What a change needs to be CRITICAL, by its place. One of the tool's own parameters is a CRITICAL row
itself, if the definitions can be compared; for one below a parameter some other row must be.
-/
structure CountsAsCritical (configured : DriftSeverity) (old new : Tool) : Prop where
  own : OwnChange old new → ∃ before after, Comparable old new before after
  below : ¬ OwnChange old new → CriticalRow configured old new

theorem countsAsCritical_iff (settings : Settings) (old new : Tool)
    : CountsAsCritical settings.driftDescriptionSeverity old new
      ↔ classify settings old new = .ok (some .critical) := by
  rw [critical_iff]
  constructor
  · intro counts
    by_cases own : OwnChange old new
    · obtain ⟨before, after, comparable⟩ := counts.own own
      exact ⟨before, after, comparable, own.row comparable⟩
    · exact counts.below own
  · rintro ⟨before, after, comparable, row⟩
    exact ⟨fun _ => ⟨before, after, comparable⟩, fun _ => ⟨before, after, comparable, row⟩⟩

/-- A type or required change is CRITICAL at every depth, unless it lies below the tool's
parameters and the table has no CRITICAL row for these and the description, or the definitions cannot
be compared.
-/
theorem nested_change_critical_iff (settings : Settings) (old new : Tool)
    : (NestedChange old new → classify settings old new = .ok (some .critical))
      ↔ ¬ (NestedChange old new
          ∧ ¬ CountsAsCritical settings.driftDescriptionSeverity old new) := by
  rw [countsAsCritical_iff, not_and, not_not]

/-- A tool with one parameter that is an object with a quota of the given type. -/
def shareTool (quota : String) : Tool :=
  [
    ("name", .str "share_folder"),
    ("inputSchema", .obj [("properties", .obj [
      ("options", .obj [
        ("type", .str "object"),
        ("properties", .obj [("quota", .obj [("type", .str quota)])])])])])
  ]

/-- A type that changes inside a parameter's schema is LOW. -/
theorem nested_type_change_is_low
    : NestedChange (shareTool "integer") (shareTool "string")
      ∧ classify calm.settings (shareTool "integer") (shareTool "string") = .ok (some .low) := by
  refine ⟨⟨_, _, .property "options" (.root rfl rfl) rfl rfl rfl rfl, ?_⟩, rfl⟩
  exact .retyped "quota" rfl rfl rfl rfl rfl

end DriftDetector

end SecureMcp
