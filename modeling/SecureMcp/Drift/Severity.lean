import SecureMcp.Drift.Classify
import SecureMcp.Library.Loop

/-! The severity table as a relation, and what the classifier answers in its terms: the
highest row that applies, or HIGH for a change that no row names.
-/

namespace SecureMcp

namespace DriftSeverity

theorem le_rank_max {bound left right : DriftSeverity}
    : bound.rank ≤ (max left right).rank ↔ bound.rank ≤ left.rank ∨ bound.rank ≤ right.rank := by
  cases left <;> cases right <;> cases bound <;> decide

/-- A maximum reaches a bound exactly when one of the severities does, by induction on
the list.
-/
theorem le_rank_foldl (bound first : DriftSeverity) (rest : List DriftSeverity)
    : bound.rank ≤ (rest.foldl max first).rank
      ↔ ∃ severity ∈ first :: rest, bound.rank ≤ severity.rank := by
  induction rest generalizing first with
  | nil => simp
  | cons next rest ih =>
      rw [List.foldl_cons, ih]
      simp only [List.exists_mem_cons_iff, le_rank_max, or_assoc]

end DriftSeverity

namespace DriftDetector

/-- What the classifier reads of a definition's parameters. -/
structure Parameters where
  props : List (String × Json)
  required : List Json

/-- The names of the parameters. -/
def Parameters.names (parameters : Parameters) : List String :=
  Dict.keys parameters.props

/-- Whether a parameter is in the list of required ones. -/
def Parameters.needs (parameters : Parameters) (prop : String) : Prop :=
  .str prop ∈ parameters.required

instance (parameters : Parameters) (prop : String) : Decidable (parameters.needs prop) :=
  inferInstanceAs (Decidable (_ ∈ _))

/-- The parameters of a definition, where reading them does not raise. -/
def parametersOf (tool : Tool) : Except Exn Parameters := do
  let schema := (Json.getKey tool "inputSchema").orEmpty
  return { props := ← propertiesOf schema, required := ← requiredNames schema }

/-- A row of the severity table applies to the change between two definitions. -/
inductive Row (description : DriftSeverity) (old new : Tool) (before after : Parameters)
    : DriftSeverity → Prop
  | described
    (changed : (Json.getKey old "description").pyEq (Json.getKey new "description") = false)
    : Row description old new before after description
  | required {prop : String} (fresh : prop ∉ before.names) (has : prop ∈ after.names)
    (needed : after.needs prop)
    : Row description old new before after .critical
  | added {prop : String} (fresh : prop ∉ before.names) (has : prop ∈ after.names)
    (optional : ¬ after.needs prop)
    : Row description old new before after .medium
  | removed {prop : String} (had : prop ∈ before.names) (gone : prop ∉ after.names)
    : Row description old new before after .high
  | retyped {prop : String} {was now : List (String × Json)}
    (had : (prop, .obj was) ∈ before.props) (has : after.props.lookup prop = some (.obj now))
    (changed : (Json.getKey was "type").pyEq (Json.getKey now "type") = false)
    : Row description old new before after .critical
  | altered {prop : String} {was now : List (String × Json)}
    (had : (prop, .obj was) ∈ before.props) (has : after.props.lookup prop = some (.obj now))
    (same : (Json.getKey was "type").pyEq (Json.getKey now "type") = true)
    (changed : (Json.obj was).pyEq (.obj now) = false)
    : Row description old new before after .low
  | flipped {prop : String} (had : prop ∈ before.names) (has : prop ∈ after.names)
    (flips : ¬ (before.needs prop ↔ after.needs prop))
    : Row description old new before after .critical

/-- Comparing two definitions raises nowhere: both have parameters that can be read, and
those that both have are given by objects.
-/
structure Comparable (old new : Tool) (before after : Parameters) : Prop where
  old : parametersOf old = .ok before
  new : parametersOf new = .ok after
  shared : ∀ {prop was now},
    (prop, was) ∈ before.props → after.props.lookup prop = some now →
      (∃ fields, was = .obj fields) ∧ ∃ fields, now = .obj fields

theorem parametersOf_eq_ok {tool : Tool} {parameters : Parameters}
    : parametersOf tool = .ok parameters
      ↔ propertiesOf (Json.getKey tool "inputSchema").orEmpty = .ok parameters.props
        ∧ requiredNames (Json.getKey tool "inputSchema").orEmpty = .ok parameters.required := by
  obtain ⟨props, required⟩ := parameters
  cases properties : propertiesOf (Json.getKey tool "inputSchema").orEmpty <;>
    cases needed : requiredNames (Json.getKey tool "inputSchema").orEmpty <;>
    simp [parametersOf, properties, needed, bind, Except.bind, pure, Except.pure]

/-- The parameters that an input schema declares, an absent key being an empty one. -/
def Declares (schema : List (String × Json)) (parameters : Parameters) : Prop :=
  (schema.lookup "properties" = some (.obj parameters.props)
    ∨ schema.lookup "properties" = none ∧ parameters.props = [])
  ∧ (schema.lookup "required" = some (.arr parameters.required)
    ∨ schema.lookup "required" = none ∧ parameters.required = [])

theorem propertiesOf_declares {schema : List (String × Json)} {parameters : Parameters}
    (declares : Declares schema parameters)
    : propertiesOf (.obj schema) = .ok parameters.props := by
  unfold propertiesOf
  rcases declares.1 with has | ⟨absent, empty⟩
  · cases listed : parameters.props with
    | nil => simp [Json.get, Json.getKey, has, listed, Json.orEmpty, Json.truthy, bind,
        Except.bind, pure, Except.pure]
    | cons => simp [Json.get, Json.getKey, has, listed, Json.orEmpty, Json.truthy, bind,
        Except.bind, pure, Except.pure]
  · simp [Json.get, Json.getKey, absent, empty, Json.orEmpty, Json.truthy, bind, Except.bind,
      pure, Except.pure]

/-- The required entries of a schema that declares them can be read unless one of them is a
container.
-/
theorem requiredNames_declares {schema : List (String × Json)} {parameters : Parameters}
    (declares : Declares schema parameters)
    : requiredNames (.obj schema)
      = if parameters.required.all hashable then .ok parameters.required
        else .error .typeError := by
  unfold requiredNames
  rcases declares.2 with has | ⟨absent, empty⟩
  · cases listed : parameters.required with
    | nil => simp [Json.get, Json.getKey, has, listed, Json.truthy, bind,
        Except.bind, pure, Except.pure]
    | cons first rest => simp [Json.get, Json.getKey, has, listed, Json.truthy, bind,
        Except.bind, setOf]
  · simp [Json.get, Json.getKey, absent, empty, Json.truthy, bind, Except.bind,
      pure, Except.pure]

theorem parameters_of_declares {schema : List (String × Json)} {parameters read : Parameters}
    (declares : Declares schema parameters)
    (props : propertiesOf (.obj schema) = .ok read.props)
    (required : requiredNames (.obj schema) = .ok read.required)
    : read = parameters := by
  rw [propertiesOf_declares declares] at props
  rw [requiredNames_declares declares] at required
  split at required
  · obtain ⟨readProps, readRequired⟩ := read
    cases props
    cases required
    rfl
  · cases required

theorem orEmpty_obj (fields : List (String × Json)) : (Json.obj fields).orEmpty = .obj fields := by
  cases fields <;> rfl

theorem sharedSeverity_obj (was now : List (String × Json))
    : sharedSeverity (.obj was) (.obj now)
      = .ok (if (Json.getKey was "type").pyEq (Json.getKey now "type") = false then some .critical
        else if (Json.obj was).pyEq (.obj now) = false then some .low
        else none) := by
  cases types : (Json.getKey was "type").pyEq (Json.getKey now "type") <;>
    cases whole : (Json.obj was).pyEq (.obj now) <;>
    simp [sharedSeverity, Json.get, bind, Except.bind, pure, Except.pure, types, whole]

theorem sharedSeverity_eq_some {was now : List (String × Json)} {severity : DriftSeverity}
    : sharedSeverity (.obj was) (.obj now) = .ok (some severity)
      ↔ (Json.getKey was "type").pyEq (Json.getKey now "type") = false ∧ severity = .critical
        ∨ (Json.getKey was "type").pyEq (Json.getKey now "type") = true
          ∧ (Json.obj was).pyEq (.obj now) = false ∧ severity = .low := by
  rw [sharedSeverity_obj]
  cases types : (Json.getKey was "type").pyEq (Json.getKey now "type") <;>
    cases whole : (Json.obj was).pyEq (.obj now) <;> simp [eq_comm]

theorem exists_objects {was now : Json} {severity : Option DriftSeverity}
    (shared : sharedSeverity was now = .ok severity)
    : (∃ fields, was = .obj fields) ∧ ∃ fields, now = .obj fields := by
  cases was with
  | obj fields =>
      cases now with
      | obj others => exact ⟨⟨_, rfl⟩, _, rfl⟩
      | null | bool _ | int _ | float _ | str _ | arr _ => cases shared
  | null | bool _ | int _ | float _ | str _ | arr _ => cases shared

theorem sharedSeverities_cons {prop : String} {was : Json} {rest newProps : List (String × Json)}
    {severities : List DriftSeverity}
    : sharedSeverities ((prop, was) :: rest) newProps = .ok severities
      ↔ ∃ later,
          sharedSeverities rest newProps = .ok later
          ∧ (newProps.lookup prop = none ∧ severities = later
            ∨ ∃ now severity,
                newProps.lookup prop = some now ∧ sharedSeverity was now = .ok severity
                ∧ severities = severity.toList ++ later) := by
  rw [sharedSeverities, List.foldrM_cons, Loop.bind_eq_ok]
  refine exists_congr fun later => and_congr_right fun _ => ?_
  cases newProps.lookup prop with
  | none => simp [pure, Except.pure, eq_comm]
  | some now =>
      simp only [Loop.bind_eq_ok]
      simp [pure, Except.pure, eq_comm]

/-- The severities of the shared parameters, by induction on the earlier ones. -/
theorem sharedSeverities_eq_ok {oldProps newProps : List (String × Json)}
    {severities : List DriftSeverity}
    (shared : sharedSeverities oldProps newProps = .ok severities)
    : (∀ {prop was now},
        (prop, was) ∈ oldProps → newProps.lookup prop = some now →
          ∃ severity, sharedSeverity was now = .ok severity)
      ∧ ∀ severity,
          severity ∈ severities
          ↔ ∃ prop was now,
              (prop, was) ∈ oldProps ∧ newProps.lookup prop = some now
              ∧ sharedSeverity was now = .ok (some severity) := by
  induction oldProps generalizing severities with
  | nil => cases shared; simp
  | cons field rest ih =>
      obtain ⟨key, value⟩ := field
      obtain ⟨later, deeper, here⟩ := sharedSeverities_cons.mp shared
      obtain ⟨readable, listed⟩ := ih deeper
      rcases here with ⟨gone, rfl⟩ | ⟨found, severity, present, judged, rfl⟩
      · simp only [List.mem_cons]
        refine ⟨?_, fun severity => ?_⟩
        · rintro prop was now (same | member) has
          · cases same
            simp [gone] at has
          · exact readable member has
        · rw [listed severity]
          constructor
          · rintro ⟨prop, was, now, member, has, severe⟩
            exact ⟨prop, was, now, .inr member, has, severe⟩
          · rintro ⟨prop, was, now, same | member, has, severe⟩
            · cases same
              simp [gone] at has
            · exact ⟨prop, was, now, member, has, severe⟩
      · simp only [List.mem_cons]
        refine ⟨?_, fun other => ?_⟩
        · rintro prop was now (same | member) has
          · cases same
            rw [present] at has
            cases has
            exact ⟨severity, judged⟩
          · exact readable member has
        · rw [List.mem_append, listed other, Option.mem_toList]
          constructor
          · rintro (rfl | ⟨prop, was, now, member, has, severe⟩)
            · exact ⟨key, value, found, .inl rfl, present, judged⟩
            · exact ⟨prop, was, now, .inr member, has, severe⟩
          · rintro ⟨prop, was, now, same | member, has, severe⟩
            · cases same
              rw [present] at has
              cases has
              rw [judged] at severe
              exact .inl (Except.ok.inj severe)
            · exact .inr ⟨prop, was, now, member, has, severe⟩

/-- Reading the shared parameters raises nowhere if all of them are objects, by induction on
the earlier ones.
-/
theorem exists_sharedSeverities {oldProps newProps : List (String × Json)}
    (shared : ∀ {prop was now},
      (prop, was) ∈ oldProps → newProps.lookup prop = some now →
        (∃ fields, was = .obj fields) ∧ ∃ fields, now = .obj fields)
    : ∃ severities, sharedSeverities oldProps newProps = .ok severities := by
  induction oldProps with
  | nil => exact ⟨[], rfl⟩
  | cons field rest ih =>
      obtain ⟨key, value⟩ := field
      obtain ⟨later, deeper⟩ := ih fun member has => shared (List.mem_cons_of_mem _ member) has
      cases present : newProps.lookup key with
      | none => exact ⟨later, sharedSeverities_cons.mpr ⟨later, deeper, .inl ⟨present, rfl⟩⟩⟩
      | some now =>
          obtain ⟨⟨was, rfl⟩, fields, rfl⟩ := shared List.mem_cons_self present
          exact ⟨_, sharedSeverities_cons.mpr
            ⟨later, deeper, .inr ⟨_, _, present, sharedSeverity_obj was fields, rfl⟩⟩⟩

/-- The severities of all changes that the table names, and when reading them raises. -/
theorem tableSeverities_eq_ok {description : DriftSeverity} {old new : Tool}
    {severities : List DriftSeverity}
    (named : tableSeverities description old new = .ok severities)
    : ∃ before after,
        Comparable old new before after
        ∧ ∀ severity,
            severity ∈ severities ↔ Row description old new before after severity := by
  simp only [tableSeverities, Loop.bind_eq_ok] at named
  obtain ⟨oldProps, oldRead, newProps, newRead, oldRequired, oldNeeds, newRequired, newNeeds,
    shared, judged, whole⟩ := named
  obtain ⟨readable, listed⟩ := sharedSeverities_eq_ok judged
  refine ⟨⟨oldProps, oldRequired⟩, ⟨newProps, newRequired⟩,
    ⟨parametersOf_eq_ok.mpr ⟨oldRead, oldNeeds⟩, parametersOf_eq_ok.mpr ⟨newRead, newNeeds⟩, ?_⟩,
    ?_⟩
  · intro prop was now member has
    obtain ⟨severity, judged⟩ := readable member has
    exact exists_objects judged
  · intro severity
    cases whole
    simp only [List.mem_append]
    constructor
    · rintro ((((described | added) | removed) | shared) | flipped)
      · simp only [List.mem_ite_nil_right, List.mem_singleton] at described
        obtain ⟨changed, rfl⟩ := described
        exact .described (by simpa using changed)
      · obtain ⟨prop, fresh, rfl⟩ := List.mem_map.mp added
        obtain ⟨has, fresh⟩ := List.mem_filter.mp fresh
        have fresh : prop ∉ Dict.keys oldProps := by simpa using fresh
        split
        case isTrue needed => exact .required fresh has needed
        case isFalse optional => exact .added fresh has optional
      · simp only [List.mem_ite_nil_right, List.mem_singleton, List.any_eq_true] at removed
        obtain ⟨⟨prop, had, gone⟩, rfl⟩ := removed
        exact .removed had (by simpa [Parameters.names] using gone)
      · obtain ⟨prop, was, now, had, has, judged⟩ := (listed severity).mp shared
        obtain ⟨⟨was, rfl⟩, now, rfl⟩ := exists_objects judged
        rcases sharedSeverity_eq_some.mp judged with ⟨changed, rfl⟩ | ⟨same, changed, rfl⟩
        · exact .retyped had has changed
        · exact .altered had has same changed
      · simp only [List.mem_ite_nil_right, List.mem_singleton, List.any_eq_true,
          Bool.and_eq_true] at flipped
        obtain ⟨⟨prop, had, has, flips⟩, rfl⟩ := flipped
        refine .flipped had (by simpa [Parameters.names] using has) ?_
        simpa [Parameters.needs, bne_iff_ne] using flips
    · intro row
      cases row with
      | described changed =>
          refine .inl (.inl (.inl (.inl ?_)))
          simp [changed]
      | required fresh has needed =>
          refine .inl (.inl (.inl (.inr (List.mem_map.mpr ⟨_, List.mem_filter.mpr ⟨has, ?_⟩, ?_⟩))))
          · simpa [Parameters.names] using fresh
          · exact if_pos needed
      | added fresh has optional =>
          refine .inl (.inl (.inl (.inr (List.mem_map.mpr ⟨_, List.mem_filter.mpr ⟨has, ?_⟩, ?_⟩))))
          · simpa [Parameters.names] using fresh
          · exact if_neg optional
      | removed had gone =>
          refine .inl (.inl (.inr ?_))
          simp only [List.mem_ite_nil_right, List.mem_singleton, List.any_eq_true, and_true]
          exact ⟨_, had, by simpa [Parameters.names] using gone⟩
      | retyped had has changed =>
          exact .inl (.inr ((listed _).mpr
            ⟨_, _, _, had, has, sharedSeverity_eq_some.mpr (.inl ⟨changed, rfl⟩)⟩))
      | altered had has same changed =>
          exact .inl (.inr ((listed _).mpr
            ⟨_, _, _, had, has, sharedSeverity_eq_some.mpr (.inr ⟨same, changed, rfl⟩)⟩))
      | flipped had has flips =>
          refine .inr ?_
          simp only [List.mem_ite_nil_right, List.mem_singleton, List.any_eq_true, and_true,
            Bool.and_eq_true]
          refine ⟨_, had, by simpa [Parameters.names] using has, ?_⟩
          simpa [Parameters.needs, bne_iff_ne] using flips

/-- Comparable definitions have a list of named changes. -/
theorem Comparable.exists_tableSeverities {old new : Tool} {before after : Parameters}
    (comparable : Comparable old new before after) (description : DriftSeverity)
    : ∃ severities, tableSeverities description old new = .ok severities := by
  obtain ⟨oldRead, oldNeeds⟩ := parametersOf_eq_ok.mp comparable.old
  obtain ⟨newRead, newNeeds⟩ := parametersOf_eq_ok.mp comparable.new
  obtain ⟨shared, judged⟩ := exists_sharedSeverities comparable.shared
  simp only [tableSeverities, Loop.bind_eq_ok]
  exact ⟨_, _, oldRead, _, newRead, _, oldNeeds, _, newNeeds, shared, judged, rfl⟩

/-- Both definitions hash, and to different values. -/
def HashesDiffer (old new : Tool) : Prop :=
  ∃ oldHash newHash,
    toolHash old = .ok oldHash ∧ toolHash new = .ok newHash ∧ oldHash ≠ newHash

/-- The classifier answers with a severity that reaches the bound. -/
def Reaches (settings : Settings) (old new : Tool) (bound : DriftSeverity) : Prop :=
  ∃ severity,
    classify settings old new = .ok (some severity) ∧ bound.rank ≤ severity.rank

/-- No row applies, but the hashes differ. -/
def Unnamed (description : DriftSeverity) (old new : Tool) (before after : Parameters) : Prop :=
  (∀ severity, ¬ Row description old new before after severity) ∧ HashesDiffer old new

theorem Comparable.unique {old new : Tool} {before after before' after' : Parameters}
    (one : Comparable old new before after) (two : Comparable old new before' after')
    : before' = before ∧ after' = after :=
  ⟨Except.ok.inj (two.old.symm.trans one.old), Except.ok.inj (two.new.symm.trans one.new)⟩

/-- The classifier's three answers: the highest row that applies, HIGH for a change that no
row names, and nothing for equal hashes.
-/
theorem classify_eq_ok {settings : Settings} {old new : Tool} {result : Option DriftSeverity}
    (judged : classify settings old new = .ok result)
    : ∃ before after,
        Comparable old new before after
        ∧ ((∃ highest,
              result = some highest
              ∧ ∀ bound : DriftSeverity,
                  bound.rank ≤ highest.rank
                  ↔ ∃ severity,
                      Row settings.driftDescriptionSeverity old new before after severity
                      ∧ bound.rank ≤ severity.rank)
          ∨ (∀ severity, ¬ Row settings.driftDescriptionSeverity old new before after severity)
            ∧ ∃ oldHash newHash,
                toolHash old = .ok oldHash ∧ toolHash new = .ok newHash
                ∧ result = if oldHash ≠ newHash then some .high else none) := by
  unfold classify at judged
  obtain ⟨severities, named, judged⟩ := Loop.bind_eq_ok.mp judged
  obtain ⟨before, after, comparable, rows⟩ := tableSeverities_eq_ok named
  refine ⟨before, after, comparable, ?_⟩
  cases severities with
  | cons first rest =>
      cases judged
      refine .inl ⟨_, rfl, fun bound => ?_⟩
      simp only [DriftSeverity.le_rank_foldl, rows]
  | nil =>
      obtain ⟨oldHash, oldHashed, judged⟩ := Loop.bind_eq_ok.mp judged
      obtain ⟨newHash, newHashed, judged⟩ := Loop.bind_eq_ok.mp judged
      refine .inr ⟨?_, oldHash, newHash, oldHashed, newHashed, ?_⟩
      · intro severity row
        exact absurd ((rows severity).mpr row) List.not_mem_nil
      · split at judged
        case isTrue differ => cases judged; rw [if_pos differ]
        case isFalse same => cases judged; rw [if_neg same]

/-- The classifier answers if the definitions are comparable and a row applies or both
hash.
-/
theorem exists_classify {settings : Settings} {old new : Tool} {before after : Parameters}
    (comparable : Comparable old new before after)
    (settled : (∃ severity, Row settings.driftDescriptionSeverity old new before after severity)
      ∨ ∃ oldHash newHash, toolHash old = .ok oldHash ∧ toolHash new = .ok newHash)
    : ∃ result, classify settings old new = .ok result := by
  obtain ⟨severities, named⟩ :=
    comparable.exists_tableSeverities settings.driftDescriptionSeverity
  obtain ⟨before', after', comparable', rows⟩ := tableSeverities_eq_ok named
  obtain ⟨rfl, rfl⟩ := comparable.unique comparable'
  unfold classify
  rw [named]
  cases severities with
  | cons first rest => exact ⟨_, rfl⟩
  | nil =>
      rcases settled with ⟨severity, row⟩ | ⟨oldHash, newHash, oldHashed, newHashed⟩
      · exact absurd ((rows severity).mpr row) List.not_mem_nil
      · exact ⟨if oldHash ≠ newHash then some .high else none, by
          by_cases same : oldHash = newHash <;>
            simp [bind, Except.bind, oldHashed, newHashed, same, pure, Except.pure]⟩

/-- The classifier reaches a bound exactly when a row that applies does, or when the bound
is at most HIGH and the change is one that no row names.
-/
theorem reaches_iff (settings : Settings) (old new : Tool) (bound : DriftSeverity)
    : Reaches settings old new bound
      ↔ ∃ before after,
          Comparable old new before after
          ∧ ((∃ severity,
                Row settings.driftDescriptionSeverity old new before after severity
                ∧ bound.rank ≤ severity.rank)
            ∨ Unnamed settings.driftDescriptionSeverity old new before after
              ∧ bound.rank ≤ DriftSeverity.high.rank) := by
  constructor
  · rintro ⟨severity, judged, reached⟩
    obtain ⟨before, after, comparable, ⟨highest, same, rows⟩ | ⟨none, oldHash, newHash, oldHashed,
      newHashed, same⟩⟩ := classify_eq_ok judged
    · cases same
      exact ⟨before, after, comparable, .inl ((rows bound).mp reached)⟩
    · by_cases differ : oldHash ≠ newHash
      · rw [if_pos differ] at same
        cases same
        exact ⟨before, after, comparable,
          .inr ⟨⟨none, oldHash, newHash, oldHashed, newHashed, differ⟩, reached⟩⟩
      · rw [if_neg differ] at same
        cases same
  · rintro ⟨before, after, comparable, found⟩
    have settled : (∃ severity,
          Row settings.driftDescriptionSeverity old new before after severity)
        ∨ ∃ oldHash newHash, toolHash old = .ok oldHash ∧ toolHash new = .ok newHash := by
      rcases found with ⟨severity, row, -⟩ | ⟨⟨-, oldHash, newHash, oldHashed, newHashed, -⟩, -⟩
      · exact .inl ⟨severity, row⟩
      · exact .inr ⟨oldHash, newHash, oldHashed, newHashed⟩
    obtain ⟨result, judged⟩ := exists_classify comparable settled
    obtain ⟨before', after', comparable', answer⟩ := classify_eq_ok judged
    obtain ⟨rfl, rfl⟩ := comparable.unique comparable'
    rcases answer with ⟨highest, rfl, rows⟩ | ⟨none, oldHash, newHash, oldHashed, newHashed, rfl⟩
    · refine ⟨highest, judged, (rows bound).mpr ?_⟩
      rcases found with reached | ⟨⟨none, -⟩, -⟩
      · exact reached
      · obtain ⟨severity, row, -⟩ := (rows highest).mp (Nat.le_refl _)
        exact absurd row (none severity)
    · rcases found with ⟨severity, row, -⟩ | ⟨⟨-, _, _, oldSame, newSame, differ⟩, reached⟩
      · exact absurd row (none severity)
      · rw [oldHashed] at oldSame
        rw [newHashed] at newSame
        cases oldSame
        cases newSame
        rw [if_pos differ] at judged
        exact ⟨.high, judged, reached⟩

end DriftDetector

end SecureMcp
