import SecureMcp.Drift.FailClosed
import SecureMcp.Drift.Severity
import SecureMcp.Python.Equality

/-! Two edits of one definition that touch disjoint parts of it, and the severity of both
together. The parts are the top-level keys, the keys of the input schema, and the
parameters with their entries in the list of required ones.
-/

namespace SecureMcp

namespace DriftDetector

/-- At most one of the two edits changes a part, and both together have that change. -/
def Picks {α : Type} (old one two both : α) : Prop :=
  (one = old ∧ both = two) ∨ (two = old ∧ both = one)

theorem Picks.map {α β : Type} {old one two both : α} (picks : Picks old one two both)
    (read : α → β)
    : Picks (read old) (read one) (read two) (read both) := by
  rcases picks with ⟨rfl, rfl⟩ | ⟨rfl, rfl⟩
  · exact .inl ⟨rfl, rfl⟩
  · exact .inr ⟨rfl, rfl⟩

theorem Picks.swap {α : Type} {old one two both : α} (picks : Picks old one two both)
    : Picks old two one both :=
  Or.symm picks

/-- A parameter as the edits see it: its schema, and whether it is required. -/
def Parameters.entry (parameters : Parameters) (prop : String) : Option Json × Bool :=
  (parameters.props.lookup prop, decide (parameters.needs prop))

/-- Two edits of input schemas touch distinct parameters. -/
structure ParametersTogether (old one two both : List (String × Json)) : Prop where
  pick : ∃ before first second whole,
    Declares old before ∧ Declares one first ∧ Declares two second ∧ Declares both whole
    ∧ (Dict.keys whole.props).Nodup
    ∧ (∀ item ∈ whole.required, ∃ prop, item = .str prop)
    ∧ ∀ prop,
        Picks (before.entry prop) (first.entry prop) (second.entry prop) (whole.entry prop)

/-- Two edits of input schemas touch distinct keys, or the parameters of the two keys that
hold these.
-/
structure SchemasTogether (old one two both : List (String × Json)) : Prop where
  distinct : (Dict.keys both).Nodup
  keys : ∀ key,
    Picks (old.lookup key) (one.lookup key) (two.lookup key) (both.lookup key)
    ∨ (key = "properties" ∨ key = "required") ∧ ParametersTogether old one two both

/-- Two edits touch disjoint parts of a definition, and the last definition has both. -/
structure Together (old one two both : Tool) : Prop where
  dictionary : (Json.obj old).DistinctKeys
  distinct : (Dict.keys both).Nodup
  keys : ∀ key,
    Picks (old.lookup key) (one.lookup key) (two.lookup key) (both.lookup key)
    ∨ key = "inputSchema"
      ∧ ∃ oldSchema oneSchema twoSchema bothSchema,
          old.lookup key = some (.obj oldSchema) ∧ one.lookup key = some (.obj oneSchema)
          ∧ two.lookup key = some (.obj twoSchema) ∧ both.lookup key = some (.obj bothSchema)
          ∧ SchemasTogether oldSchema oneSchema twoSchema bothSchema

/-- What the classifier reads of the parameters is picked from the two edits, each
parameter's schema and its entry for itself.
-/
structure Pieces (before first second whole : Parameters) : Prop where
  props : ∀ prop,
    Picks (before.props.lookup prop) (first.props.lookup prop) (second.props.lookup prop)
      (whole.props.lookup prop)
  needs : ∀ prop,
    Picks (before.needs prop) (first.needs prop) (second.needs prop) (whole.needs prop)

theorem Pieces.swap {before first second whole : Parameters}
    (pieces : Pieces before first second whole)
    : Pieces before second first whole :=
  ⟨fun prop => (pieces.props prop).swap, fun prop => (pieces.needs prop).swap⟩

theorem pieces_of_picks {before first second whole : Parameters}
    (picks : Picks before first second whole)
    : Pieces before first second whole :=
  ⟨fun prop => picks.map fun parameters => parameters.props.lookup prop,
    fun prop => picks.map fun parameters => parameters.needs prop⟩

theorem propertiesOf_picks {old one two both : List (String × Json)}
    (picks : Picks (old.lookup "properties") (one.lookup "properties")
      (two.lookup "properties") (both.lookup "properties"))
    : Picks (propertiesOf (.obj old)) (propertiesOf (.obj one)) (propertiesOf (.obj two))
        (propertiesOf (.obj both)) :=
  picks.map fun value => propertiesOf (.obj [("properties", value.getD .null)])

theorem requiredNames_picks {old one two both : List (String × Json)}
    (picks : Picks (old.lookup "required") (one.lookup "required")
      (two.lookup "required") (both.lookup "required"))
    : Picks (requiredNames (.obj old)) (requiredNames (.obj one)) (requiredNames (.obj two))
        (requiredNames (.obj both)) :=
  picks.map fun value => show Except Exn (List Json) from
    if (value.getD .null).truthy then setOf (value.getD .null) else .ok []

/-- What both edits together leave can be read where each alone can. -/
theorem Picks.exists_ok {α : Type} {old one two both : Except Exn α} {before first second : α}
    (picks : Picks old one two both) (oldRead : old = .ok before) (oneRead : one = .ok first)
    (twoRead : two = .ok second)
    : ∃ whole, both = .ok whole ∧ Picks before first second whole := by
  rcases picks with ⟨same, rfl⟩ | ⟨same, rfl⟩
  · exact ⟨second, twoRead, .inl ⟨Except.ok.inj (oneRead.symm.trans (same.trans oldRead)), rfl⟩⟩
  · exact ⟨first, oneRead, .inr ⟨Except.ok.inj (twoRead.symm.trans (same.trans oldRead)), rfl⟩⟩

theorem SchemasTogether.pieces {old one two both : List (String × Json)}
    {before first second : Parameters} (together : SchemasTogether old one two both)
    (oldProps : propertiesOf (.obj old) = .ok before.props)
    (oldRequired : requiredNames (.obj old) = .ok before.required)
    (oneProps : propertiesOf (.obj one) = .ok first.props)
    (oneRequired : requiredNames (.obj one) = .ok first.required)
    (twoProps : propertiesOf (.obj two) = .ok second.props)
    (twoRequired : requiredNames (.obj two) = .ok second.required)
    : ∃ whole : Parameters,
        propertiesOf (.obj both) = .ok whole.props
        ∧ requiredNames (.obj both) = .ok whole.required
        ∧ Pieces before first second whole := by
  have byParameter (parts : ParametersTogether old one two both)
      : ∃ whole : Parameters,
          propertiesOf (.obj both) = .ok whole.props
          ∧ requiredNames (.obj both) = .ok whole.required
          ∧ Pieces before first second whole := by
    obtain ⟨_, _, _, whole, oldDeclares, oneDeclares, twoDeclares, bothDeclares, -, strings,
      picks⟩ := parts.pick
    obtain rfl := parameters_of_declares oldDeclares oldProps oldRequired
    obtain rfl := parameters_of_declares oneDeclares oneProps oneRequired
    obtain rfl := parameters_of_declares twoDeclares twoProps twoRequired
    refine ⟨whole, propertiesOf_declares bothDeclares, ?_, ?_, ?_⟩
    · rw [requiredNames_declares bothDeclares, if_pos]
      refine List.all_eq_true.mpr fun item member => ?_
      obtain ⟨prop, rfl⟩ := strings item member
      rfl
    · exact fun prop => (picks prop).map Prod.fst
    · intro prop
      have flags := (picks prop).map (fun entry => entry.2 = true)
      simpa [Parameters.entry] using flags
  rcases together.keys "properties" with props | ⟨-, parts⟩
  · rcases together.keys "required" with required | ⟨-, parts⟩
    · obtain ⟨wholeProps, readProps, props⟩ :=
        (propertiesOf_picks props).exists_ok oldProps oneProps twoProps
      obtain ⟨wholeRequired, readRequired, required⟩ :=
        (requiredNames_picks required).exists_ok oldRequired oneRequired twoRequired
      refine ⟨⟨wholeProps, wholeRequired⟩, readProps, readRequired, ?_, ?_⟩
      · exact fun prop => props.map fun listed => listed.lookup prop
      · exact fun prop => required.map fun listed => Json.str prop ∈ listed
    · exact byParameter parts
  · exact byParameter parts

/-- The parameters of a definition depend on its input schema only. -/
theorem Together.pieces {old one two both : Tool} {before first second : Parameters}
    (together : Together old one two both) (oldRead : parametersOf old = .ok before)
    (oneRead : parametersOf one = .ok first) (twoRead : parametersOf two = .ok second)
    : ∃ whole, parametersOf both = .ok whole ∧ Pieces before first second whole := by
  rcases together.keys "inputSchema" with picks | ⟨-, oldSchema, oneSchema, twoSchema,
    bothSchema, oldHas, oneHas, twoHas, bothHas, schemas⟩
  · have read : Picks (parametersOf old) (parametersOf one) (parametersOf two)
        (parametersOf both) :=
      picks.map fun value => show Except Exn Parameters from do
        let schema := (value.getD .null).orEmpty
        return { props := ← propertiesOf schema, required := ← requiredNames schema }
    obtain ⟨whole, bothRead, picked⟩ := read.exists_ok oldRead oneRead twoRead
    exact ⟨whole, bothRead, pieces_of_picks picked⟩
  · rw [parametersOf_eq_ok] at oldRead oneRead twoRead
    simp only [Json.getKey, oldHas, oneHas, twoHas, Option.getD_some, orEmpty_obj]
      at oldRead oneRead twoRead
    obtain ⟨whole, props, required, pieces⟩ := schemas.pieces oldRead.1 oldRead.2 oneRead.1
      oneRead.2 twoRead.1 twoRead.2
    refine ⟨whole, ?_, pieces⟩
    rw [parametersOf_eq_ok]
    simp only [Json.getKey, bothHas, Option.getD_some, orEmpty_obj]
    exact ⟨props, required⟩

theorem distinct_orEmpty {value : Json} (distinct : value.DistinctKeys)
    : value.orEmpty.DistinctKeys := by
  unfold Json.orEmpty
  split
  · exact distinct
  · exact ⟨List.nodup_nil, trivial⟩

/-- The parameters of a dictionary are one too. -/
theorem distinct_props {tool : Tool} {parameters : Parameters}
    (dictionary : (Json.obj tool).DistinctKeys) (read : parametersOf tool = .ok parameters)
    : (Json.obj parameters.props).DistinctKeys := by
  obtain ⟨props, -⟩ := parametersOf_eq_ok.mp read
  obtain ⟨schema, isSchema, props⟩ := Loop.bind_eq_ok.mp props
  have distinct := distinct_orEmpty (dictionary.getKey "inputSchema")
  cases outer : (Json.getKey tool "inputSchema").orEmpty with
  | obj fields =>
      rw [outer] at isSchema distinct
      cases isSchema
      have inner := distinct_orEmpty (distinct.getKey "properties")
      cases found : (Json.getKey fields "properties").orEmpty with
      | obj listed =>
          rw [found] at props inner
          cases props
          exact inner
      | null | bool _ | int _ | float _ | str _ | arr _ => rw [found] at props; cases props
  | null | bool _ | int _ | float _ | str _ | arr _ => rw [outer] at isSchema; cases isSchema

/-- One edit alone is more severe because of something that the other one takes away: a
parameter it adds is no longer required, or one whose required entry it changes, or whose
type differs from itself, is removed.
-/
inductive Crossing (before first second : Parameters) : Prop
  | dropped {prop : String} (fresh : prop ∉ before.names) (has : prop ∈ first.names)
    (needed : before.needs prop) (leaves : ¬ second.needs prop)
    : Crossing before first second
  | removed {prop : String} (had : prop ∈ before.names)
    (flips : ¬ (before.needs prop ↔ first.needs prop)) (gone : prop ∉ second.names)
    : Crossing before first second
  | strange {prop : String} {was : List (String × Json)}
    (had : (prop, .obj was) ∈ before.props)
    (odd : (Json.getKey was "type").pyEq (Json.getKey was "type") = false)
    (gone : prop ∉ second.names)
    : Crossing before first second

/-- Both edits together leave a parameter required: its entry is as the edit that changed it left
it.
-/
def NeededTogether (before first second : Parameters) (prop : String) : Prop :=
  if before.needs prop then first.needs prop ∧ second.needs prop
  else first.needs prop ∨ second.needs prop

theorem neededTogether_comm {before first second : Parameters} {prop : String}
    : NeededTogether before first second prop ↔ NeededTogether before second first prop := by
  unfold NeededTogether
  rw [and_comm, or_comm]

/-- A row that applies to the first edit and that the second one does not take away, with the
severity that it has next to the second one: a parameter that one edit adds is required by what both
make of the required entries, and what changes of a parameter is lost if the other edit removes it.
-/
inductive Stays (description : DriftSeverity) (old one : Tool) (before first second : Parameters)
    : DriftSeverity → Prop
  | described
    (changed : (Json.getKey old "description").pyEq (Json.getKey one "description") = false)
    : Stays description old one before first second description
  | required {prop : String} (fresh : prop ∉ before.names) (has : prop ∈ first.names)
    (needed : NeededTogether before first second prop)
    : Stays description old one before first second .critical
  | added {prop : String} (fresh : prop ∉ before.names) (has : prop ∈ first.names)
    (optional : ¬ NeededTogether before first second prop)
    : Stays description old one before first second .medium
  | removed {prop : String} (had : prop ∈ before.names) (gone : prop ∉ first.names)
    : Stays description old one before first second .high
  | retyped {prop : String} {was now : List (String × Json)}
    (had : (prop, .obj was) ∈ before.props) (has : first.props.lookup prop = some (.obj now))
    (changed : (Json.getKey was "type").pyEq (Json.getKey now "type") = false)
    (stays : prop ∈ second.names)
    : Stays description old one before first second .critical
  | altered {prop : String} {was now : List (String × Json)}
    (had : (prop, .obj was) ∈ before.props) (has : first.props.lookup prop = some (.obj now))
    (same : (Json.getKey was "type").pyEq (Json.getKey now "type") = true)
    (changed : (Json.obj was).pyEq (.obj now) = false) (stays : prop ∈ second.names)
    : Stays description old one before first second .low
  | flipped {prop : String} (had : prop ∈ before.names) (has : prop ∈ first.names)
    (flips : ¬ (before.needs prop ↔ first.needs prop)) (stays : prop ∈ second.names)
    : Stays description old one before first second .critical

theorem not_mem_names {parameters : Parameters} {prop : String}
    : prop ∉ parameters.names ↔ parameters.props.lookup prop = none :=
  (Dict.lookup_eq_none_iff _ _).symm

theorem mem_names {parameters : Parameters} {prop : String}
    : prop ∈ parameters.names ↔ parameters.props.lookup prop ≠ none := by
  rw [← not_iff_not, not_mem_names, not_not]

/-- A part that the first edit changes is as the first edit left it. -/
theorem Picks.of_ne {α : Type} {old one two both : α} (picks : Picks old one two both)
    (changed : one ≠ old)
    : two = old ∧ both = one :=
  picks.resolve_left fun left => changed left.1

section

variable {description : DriftSeverity} {old one two both : Tool}
  {before first second whole : Parameters} {severity : DriftSeverity}

/-- A parameter that the first edit keeps is as it left it, or untouched by it and as the
second one left it.
-/
theorem Pieces.kept {prop : String} {was now : List (String × Json)}
    (dict : (Json.obj before.props).DistinctKeys) (pieces : Pieces before first second whole)
    (comparable : Comparable old both before whole) (had : (prop, .obj was) ∈ before.props)
    (has : first.props.lookup prop = some (.obj now))
    : whole.props.lookup prop = some (.obj now)
      ∨ now = was
        ∧ (prop ∉ whole.names ∧ prop ∉ second.names
          ∨ ∃ later, whole.props.lookup prop = some (.obj later)) := by
  have before := Dict.lookup_of_mem dict.1 had
  rcases pieces.props prop with ⟨same, left⟩ | ⟨-, left⟩
  · refine .inr ⟨?_, ?_⟩
    · rw [has, before] at same
      cases same
      rfl
    · cases found : whole.props.lookup prop with
      | none => exact .inl ⟨not_mem_names.mpr found, not_mem_names.mpr (left ▸ found)⟩
      | some value =>
          obtain ⟨-, later, rfl⟩ := comparable.shared had found
          exact .inr ⟨later, rfl⟩
  · exact .inl (left.trans has)

theorem Pieces.needed {prop : String} (pieces : Pieces before first second whole)
    : whole.needs prop ↔ NeededTogether before first second prop := by
  unfold NeededTogether
  rcases pieces.needs prop with ⟨same, left⟩ | ⟨same, left⟩ <;> rw [left, same] <;>
    split <;> simp_all

/-- A parameter that an edit adds is there in both. -/
theorem Pieces.fresh {prop : String} (pieces : Pieces before first second whole)
    (fresh : prop ∉ before.names) (has : prop ∈ first.names)
    : prop ∈ whole.names := by
  have added := (pieces.props prop).of_ne (by
    rw [not_mem_names.mp fresh]
    exact mem_names.mp has)
  rw [mem_names, added.2]
  exact mem_names.mp has

/-- A row of an edit stays, or another row that is as severe does, or the edits cross; case analysis
on the row.
-/
theorem Row.stays (dict : (Json.obj before.props).DistinctKeys)
    (pieces : Pieces before first second whole)
    (row : Row description old one before first severity)
    : ∃ found,
        (Stays description old one before first second found
          ∨ Stays description old two before second first found)
        ∧ (severity.rank ≤ found.rank ∨ severity = .critical ∧ Crossing before first second) := by
  cases row with
  | described changed => exact ⟨_, .inl (.described changed), .inl (Nat.le_refl _)⟩
  | required fresh has needed =>
      rename_i prop
      by_cases together : NeededTogether before first second prop
      · exact ⟨_, .inl (.required fresh has together), .inl (Nat.le_refl _)⟩
      · refine ⟨_, .inl (.added fresh has together), .inr ⟨rfl, ?_⟩⟩
        unfold NeededTogether at together
        split at together
        · next listed => exact .dropped fresh has listed (fun stays => together ⟨needed, stays⟩)
        · exact absurd (.inl needed) together
  | added fresh has optional =>
      rename_i prop
      by_cases together : NeededTogether before first second prop
      · exact ⟨_, .inl (.required fresh has together), .inl (by decide)⟩
      · exact ⟨_, .inl (.added fresh has together), .inl (Nat.le_refl _)⟩
  | removed had gone => exact ⟨_, .inl (.removed had gone), .inl (Nat.le_refl _)⟩
  | retyped had has changed =>
      rename_i prop was now
      by_cases stays : prop ∈ second.names
      · exact ⟨_, .inl (.retyped had has changed stays), .inl (Nat.le_refl _)⟩
      · refine ⟨_, .inr (.removed (List.mem_map_of_mem had) stays), .inr ⟨rfl, ?_⟩⟩
        have found := Dict.lookup_of_mem dict.1 had
        have untouched := (pieces.props prop).swap.of_ne (by
          rw [not_mem_names.mp stays, found]
          exact nofun)
        cases has.symm.trans (untouched.1.trans found)
        exact .strange had changed stays
  | altered had has same changed =>
      rename_i prop was now
      by_cases stays : prop ∈ second.names
      · exact ⟨_, .inl (.altered had has same changed stays), .inl (Nat.le_refl _)⟩
      · exact ⟨_, .inr (.removed (List.mem_map_of_mem had) stays), .inl (by decide)⟩
  | flipped had has flips =>
      rename_i prop
      by_cases stays : prop ∈ second.names
      · exact ⟨_, .inl (.flipped had has flips stays), .inl (Nat.le_refl _)⟩
      · exact ⟨_, .inr (.removed had stays), .inr ⟨rfl, .removed had flips stays⟩⟩

/-- What stays of one edit is a row of both together, or a more severe one is; case analysis on what
stays.
-/
theorem Stays.row (dictionary : (Json.obj old).DistinctKeys)
    (texts : Picks (Json.getKey old "description") (Json.getKey one "description")
      (Json.getKey two "description") (Json.getKey both "description"))
    (pieces : Pieces before first second whole)
    (comparable : Comparable old both before whole)
    (stays : Stays description old one before first second severity)
    : ∃ found, Row description old both before whole found ∧ severity.rank ≤ found.rank := by
  have dict := distinct_props dictionary comparable.old
  cases stays with
  | described changed =>
      refine ⟨_, .described ?_, Nat.le_refl _⟩
      rcases texts with ⟨same, whole⟩ | ⟨-, whole⟩
      · rw [same] at changed
        exact Json.pyEq_eq_false (dictionary.getKey "description") changed
      · rw [whole]
        exact changed
  | required fresh has needed =>
      exact ⟨_, .required fresh (pieces.fresh fresh has) (pieces.needed.mpr needed), Nat.le_refl _⟩
  | added fresh has optional =>
      have apart := fun needed => optional (pieces.needed.mp needed)
      exact ⟨_, .added fresh (pieces.fresh fresh has) apart, Nat.le_refl _⟩
  | removed had gone =>
      rename_i prop
      have removed := (pieces.props prop).of_ne (by
        rw [not_mem_names.mp gone]
        exact (mem_names.mp had).symm)
      refine ⟨_, .removed had ?_, Nat.le_refl _⟩
      rw [not_mem_names, removed.2]
      exact not_mem_names.mp gone
  | retyped had has changed stays =>
      rcases pieces.kept dict comparable had has with kept | ⟨rfl, ⟨-, gone⟩ | ⟨later, kept⟩⟩
      · exact ⟨_, .retyped had kept changed, Nat.le_refl _⟩
      · exact absurd stays gone
      · have type := (dict.2.of_mem had).getKey "type"
        exact ⟨_, .retyped had kept (Json.pyEq_eq_false type changed), Nat.le_refl _⟩
  | altered had has same changed stays =>
      rename_i prop was now
      rcases pieces.kept dict comparable had has with kept | ⟨rfl, ⟨-, gone⟩ | ⟨later, kept⟩⟩
      · exact ⟨_, .altered had kept same changed, Nat.le_refl _⟩
      · exact absurd stays gone
      · cases types : (Json.getKey now "type").pyEq (Json.getKey later "type") with
        | false => exact ⟨_, .retyped had kept types, by decide⟩
        | true =>
            exact ⟨_, .altered had kept types (Json.pyEq_eq_false (dict.2.of_mem had) changed),
              Nat.le_refl _⟩
  | flipped had has flips stays =>
      rename_i prop
      have flipped : whole.needs prop = first.needs prop :=
        ((pieces.needs prop).of_ne fun same => flips (iff_of_eq same.symm)).2
      refine ⟨_, .flipped had ?_ (flipped ▸ flips), Nat.le_refl _⟩
      rcases pieces.props prop with ⟨-, left⟩ | ⟨-, left⟩
      · rw [mem_names, left]
        exact mem_names.mp stays
      · rw [mem_names, left]
        exact mem_names.mp has

/-- A row of both edits together is one that stays of one of them; case analysis on the row. -/
theorem Row.of_either
    (texts : Picks (Json.getKey old "description") (Json.getKey one "description")
      (Json.getKey two "description") (Json.getKey both "description"))
    (pieces : Pieces before first second whole)
    (row : Row description old both before whole severity)
    : Stays description old one before first second severity
      ∨ Stays description old two before second first severity := by
  -- what both have of a parameter is what the edit that changed it left, and the other one kept it
  have place {prop : String} (had : prop ∈ before.names) (has : prop ∈ whole.names)
      : prop ∈ first.names ∧ prop ∈ second.names := by
    rw [mem_names] at had has
    rcases pieces.props prop with ⟨same, left⟩ | ⟨same, left⟩
    · exact ⟨mem_names.mpr (same ▸ had), mem_names.mpr (left ▸ has)⟩
    · exact ⟨mem_names.mpr (left ▸ has), mem_names.mpr (same ▸ had)⟩
  have adds {prop : String} (fresh : prop ∉ before.names) (has : prop ∈ whole.names)
      : prop ∈ first.names ∨ prop ∈ second.names := by
    rw [mem_names] at has
    rcases pieces.props prop with ⟨-, left⟩ | ⟨-, left⟩
    · exact .inr (mem_names.mpr (left ▸ has))
    · exact .inl (mem_names.mpr (left ▸ has))
  cases row with
  | described changed =>
      rcases texts with ⟨-, left⟩ | ⟨-, left⟩
      · exact .inr (.described (left ▸ changed))
      · exact .inl (.described (left ▸ changed))
  | required fresh has needed =>
      have together := pieces.needed.mp needed
      exact (adds fresh has).imp (.required fresh · together)
        (.required fresh · (neededTogether_comm.mp together))
  | added fresh has optional =>
      have apart := fun together => optional (pieces.needed.mpr together)
      exact (adds fresh has).imp (.added fresh · apart)
        (.added fresh · (fun together => apart (neededTogether_comm.mp together)))
  | removed had gone =>
      rename_i prop
      rw [not_mem_names] at gone
      rcases pieces.props prop with ⟨-, left⟩ | ⟨-, left⟩
      · exact .inr (.removed had (not_mem_names.mpr (left ▸ gone)))
      · exact .inl (.removed had (not_mem_names.mpr (left ▸ gone)))
  | retyped had has changed =>
      rename_i prop was now
      obtain ⟨inFirst, inSecond⟩ := place (List.mem_map_of_mem had) (mem_names.mpr (by simp [has]))
      rcases pieces.props prop with ⟨-, left⟩ | ⟨-, left⟩
      · exact .inr (.retyped had (left ▸ has) changed inFirst)
      · exact .inl (.retyped had (left ▸ has) changed inSecond)
  | altered had has same changed =>
      rename_i prop was now
      obtain ⟨inFirst, inSecond⟩ := place (List.mem_map_of_mem had) (mem_names.mpr (by simp [has]))
      rcases pieces.props prop with ⟨-, left⟩ | ⟨-, left⟩
      · exact .inr (.altered had (left ▸ has) same changed inFirst)
      · exact .inl (.altered had (left ▸ has) same changed inSecond)
  | flipped had has flips =>
      rename_i prop
      obtain ⟨inFirst, inSecond⟩ := place had has
      rcases pieces.needs prop with ⟨-, left⟩ | ⟨-, left⟩
      · exact .inr (.flipped had inSecond (left ▸ flips) inFirst)
      · exact .inl (.flipped had inFirst (left ▸ flips) inSecond)

/-- What stays of an edit is a change that the table names. -/
theorem Stays.named (stays : Stays description old one before first second severity)
    : ∃ found, Row description old one before first found := by
  have adds {prop : String} (fresh : prop ∉ before.names) (has : prop ∈ first.names)
      : ∃ found, Row description old one before first found := by
    by_cases needed : first.needs prop
    · exact ⟨_, .required fresh has needed⟩
    · exact ⟨_, .added fresh has needed⟩
  cases stays with
  | described changed => exact ⟨_, .described changed⟩
  | required fresh has _ => exact adds fresh has
  | added fresh has _ => exact adds fresh has
  | removed had gone => exact ⟨_, .removed had gone⟩
  | retyped had has changed _ => exact ⟨_, .retyped had has changed⟩
  | altered had has same changed _ => exact ⟨_, .altered had has same changed⟩
  | flipped had has flips _ => exact ⟨_, .flipped had has flips⟩

/-- A row that applies to one edit applies to both together, or a more severe one does, or
the edits cross.
-/
theorem Row.together (dictionary : (Json.obj old).DistinctKeys)
    (texts : Picks (Json.getKey old "description") (Json.getKey one "description")
      (Json.getKey two "description") (Json.getKey both "description"))
    (pieces : Pieces before first second whole)
    (comparable : Comparable old both before whole)
    (row : Row description old one before first severity)
    : ∃ found,
        Row description old both before whole found
        ∧ (severity.rank ≤ found.rank ∨ severity = .critical ∧ Crossing before first second) := by
  obtain ⟨kept, stays | stays, bound⟩ :=
    row.stays (distinct_props dictionary comparable.old) pieces
  · obtain ⟨found, row, above⟩ := stays.row dictionary texts pieces comparable
    exact ⟨found, row, bound.imp_left (fun below => Nat.le_trans below above)⟩
  · obtain ⟨found, row, above⟩ := stays.row dictionary texts.swap pieces.swap comparable
    exact ⟨found, row, bound.imp_left (fun below => Nat.le_trans below above)⟩

/-- Each of the two ways to cross makes the first edit CRITICAL on its own. -/
theorem Crossing.critical (dictionary : (Json.obj old).DistinctKeys)
    (pieces : Pieces before first second whole)
    (read : parametersOf old = .ok before) (crossing : Crossing before first second)
    : Row description old one before first .critical := by
  have dict := distinct_props dictionary read
  cases crossing with
  | dropped fresh has needed leaves =>
      rename_i prop
      have stays : first.needs prop = before.needs prop :=
        ((pieces.needs prop).swap.of_ne fun same => leaves (same ▸ needed)).1
      exact .required fresh has (stays ▸ needed)
  | removed had flips gone =>
      rename_i prop
      have stays := (pieces.props prop).swap.of_ne (by
        rw [not_mem_names.mp gone]
        exact (mem_names.mp had).symm)
      refine .flipped had ?_ flips
      rw [mem_names, stays.1]
      exact mem_names.mp had
  | strange had odd gone =>
      rename_i prop was
      have found := Dict.lookup_of_mem dict.1 had
      have stays := (pieces.props prop).swap.of_ne (by
        rw [not_mem_names.mp gone, found]
        exact nofun)
      exact .retyped had (stays.1.trans found) odd

end

theorem finite_getKey {tool : Tool} {key : String} {value : Json}
    (numbers : CanonicalJson.finite (.obj tool) = true) (found : tool.lookup key = some value)
    : CanonicalJson.finite value = true :=
  CanonicalJson.finite_obj.mp numbers key value (Dict.mem_of_lookup found)

theorem Picks.finite {old one two both : Option Json}
    (picks : Picks old one two both)
    (first : ∀ value, one = some value → CanonicalJson.finite value = true)
    (second : ∀ value, two = some value → CanonicalJson.finite value = true)
    {value : Json} (found : both = some value)
    : CanonicalJson.finite value = true := by
  rcases picks with ⟨-, rfl⟩ | ⟨-, rfl⟩
  · exact second value found
  · exact first value found

theorem Declares.finite_prop {schema : List (String × Json)} {parameters : Parameters}
    (declares : Declares schema parameters)
    (numbers : CanonicalJson.finite (.obj schema) = true) {prop : String} {value : Json}
    (found : parameters.props.lookup prop = some value)
    : CanonicalJson.finite value = true := by
  rcases declares.1 with has | ⟨-, empty⟩
  · exact finite_getKey (finite_getKey numbers has) found
  · rw [empty] at found
    cases found

theorem finite_strings {items : List Json} (strings : ∀ item ∈ items, ∃ text, item = .str text)
    : CanonicalJson.finite (.arr items) = true := by
  rw [CanonicalJson.finite]
  induction items with
  | nil => rfl
  | cons item rest ih =>
      obtain ⟨text, rfl⟩ := strings item List.mem_cons_self
      exact ih fun other member => strings other (List.mem_cons_of_mem _ member)

/-- Both edits together leave finite numbers where each alone does. -/
theorem SchemasTogether.finite {old one two both : List (String × Json)}
    (together : SchemasTogether old one two both)
    (first : CanonicalJson.finite (.obj one) = true)
    (second : CanonicalJson.finite (.obj two) = true)
    : CanonicalJson.finite (.obj both) = true := by
  refine CanonicalJson.finite_obj.mpr fun key value member => ?_
  have found := Dict.lookup_of_mem together.distinct member
  rcases together.keys key with picks | ⟨known, parts⟩
  · exact picks.finite (fun _ => finite_getKey first) (fun _ => finite_getKey second) found
  · obtain ⟨_, _, _, whole, -, oneDeclares, twoDeclares, bothDeclares, distinct, strings,
      picks⟩ := parts.pick
    rcases known with rfl | rfl
    · rcases bothDeclares.1 with has | ⟨absent, -⟩
      · rw [has] at found
        cases found
        refine CanonicalJson.finite_obj.mpr fun prop inner member => ?_
        have inner := Dict.lookup_of_mem distinct member
        exact ((picks prop).map Prod.fst).finite (fun _ => oneDeclares.finite_prop first)
          (fun _ => twoDeclares.finite_prop second) inner
      · rw [absent] at found
        cases found
    · rcases bothDeclares.2 with has | ⟨absent, -⟩
      · rw [has] at found
        cases found
        exact finite_strings strings
      · rw [absent] at found
        cases found

theorem Together.finite {old one two both : Tool} (together : Together old one two both)
    (first : CanonicalJson.finite (.obj one) = true)
    (second : CanonicalJson.finite (.obj two) = true)
    : CanonicalJson.finite (.obj both) = true := by
  refine CanonicalJson.finite_obj.mpr fun key value member => ?_
  have found := Dict.lookup_of_mem together.distinct member
  rcases together.keys key with picks | ⟨-, _, _, _, _, -, oneHas, twoHas, bothHas, schemas⟩
  · exact picks.finite (fun _ => finite_getKey first) (fun _ => finite_getKey second) found
  · rw [bothHas] at found
    cases found
    exact schemas.finite (finite_getKey first oneHas) (finite_getKey second twoHas)

theorem finite_of_toolHash {tool : Tool} {hash : String} (hashed : toolHash tool = .ok hash)
    : CanonicalJson.finite (.obj tool) = true := by
  obtain ⟨printed, encoded, -⟩ := CanonicalJson.hash_ok hashed
  exact CanonicalJson.finite_of_encode encoded

/-- The rank of an answer of the classifier, no drift being the least. -/
def severityRank : Option DriftSeverity → Nat
  | none => 0
  | some severity => severity.rank

/-- The change is one that no row names. -/
def UnnamedChange (configured : DriftSeverity) (old new : Tool) : Prop :=
  ∃ before after, Comparable old new before after ∧ Unnamed configured old new before after

/-- A row from the bound up applies to the change. -/
def RowFrom (configured bound : DriftSeverity) (old new : Tool) : Prop :=
  ∃ before after,
    Comparable old new before after
    ∧ ∃ severity, Row configured old new before after severity ∧ bound.rank ≤ severity.rank

/-- A row from the bound up applies to one of two edits, and the other one does not take it away. -/
def StaysFrom (configured bound : DriftSeverity) (old one two : Tool) : Prop :=
  ∃ before first second,
    Comparable old one before first ∧ Comparable old two before second
    ∧ ∃ severity,
        (Stays configured old one before first second severity
          ∨ Stays configured old two before second first severity)
        ∧ bound.rank ≤ severity.rank

/-- One of two edits is a change that no row names. The other one is a change that some row names, or
both together hash as the old definition, and no row from HIGH up stays.
-/
def Masked (configured : DriftSeverity) (old one two both : Tool) : Prop :=
  (UnnamedChange configured old one ∨ UnnamedChange configured old two)
  ∧ (RowFrom configured .low old one ∨ RowFrom configured .low old two
    ∨ toolHash both = toolHash old)
  ∧ ¬ StaysFrom configured .high old one two

/-- The edits cross, and no CRITICAL row of either stays. -/
def Crossed (configured : DriftSeverity) (old one two : Tool) : Prop :=
  (∃ before first second,
    parametersOf old = .ok before ∧ parametersOf one = .ok first
    ∧ parametersOf two = .ok second
    ∧ (Crossing before first second ∨ Crossing before second first))
  ∧ ¬ StaysFrom configured .critical old one two

theorem Together.swap {old one two both : Tool} (together : Together old one two both)
    : Together old two one both := by
  refine ⟨together.dictionary, together.distinct, fun key => ?_⟩
  rcases together.keys key with picks | ⟨same, _, _, _, _, oldHas, oneHas, twoHas, bothHas,
    schemas⟩
  · exact .inl picks.swap
  · refine .inr ⟨same, _, _, _, _, oldHas, twoHas, oneHas, bothHas, schemas.distinct, ?_⟩
    intro key
    rcases schemas.keys key with picks | ⟨known, _, _, _, _, oldIs, oneIs, twoIs, bothIs, distinct,
      strings, picks⟩
    · exact .inl picks.swap
    · exact .inr ⟨known, ⟨_, _, _, _, oldIs, twoIs, oneIs, bothIs, distinct, strings,
        fun prop => (picks prop).swap⟩⟩

theorem Together.texts {old one two both : Tool} (together : Together old one two both)
    : Picks (Json.getKey old "description") (Json.getKey one "description")
        (Json.getKey two "description") (Json.getKey both "description") := by
  rcases together.keys "description" with picks | ⟨other, -⟩
  · exact picks.map fun value => value.getD .null
  · exact absurd other (by decide)

section

variable {settings : Settings} {old one two both : Tool} {first second : Option DriftSeverity}

theorem Reaches.mono {bound reached : DriftSeverity}
    (reaches : Reaches settings old both reached) (below : bound.rank ≤ reached.rank)
    : Reaches settings old both bound := by
  obtain ⟨severity, judged, above⟩ := reaches
  exact ⟨severity, judged, Nat.le_trans below above⟩

/-- An answer that is at least as high reaches the other answer. -/
theorem severityRank_le_iff {result : Option DriftSeverity}
    (judged : classify settings old both = .ok result)
    : severityRank first ≤ severityRank result
      ↔ ∀ severity, first = some severity → Reaches settings old both severity := by
  constructor
  · rintro below severity rfl
    cases result with
    | none => cases severity <;> exact absurd below (by decide)
    | some found => exact ⟨found, judged, below⟩
  · intro reaches
    cases first with
    | none => exact Nat.zero_le _
    | some severity =>
        obtain ⟨found, same, below⟩ := reaches severity rfl
        cases judged.symm.trans same
        exact below

/-- An answer reaches all bounds that the definitions reach. -/
theorem Reaches.of_ok {bound : DriftSeverity} (judged : classify settings old one = .ok first)
    (reaches : Reaches settings old one bound)
    : ∃ severity, first = some severity ∧ bound.rank ≤ severity.rank := by
  obtain ⟨severity, same, reached⟩ := reaches
  exact ⟨severity, Except.ok.inj (judged.symm.trans same), reached⟩

theorem RowFrom.reaches {bound : DriftSeverity}
    (rows : RowFrom settings.driftDescriptionSeverity bound old both)
    : Reaches settings old both bound := by
  obtain ⟨before, after, comparable, row⟩ := rows
  exact (reaches_iff ..).mpr ⟨before, after, comparable, .inl row⟩

theorem UnnamedChange.reaches (unnamed : UnnamedChange settings.driftDescriptionSeverity old both)
    : Reaches settings old both .high := by
  obtain ⟨before, after, comparable, change⟩ := unnamed
  exact (reaches_iff ..).mpr ⟨before, after, comparable, .inr ⟨change, Nat.le_refl _⟩⟩

theorem reaches_high_iff
    : Reaches settings old both .high
      ↔ UnnamedChange settings.driftDescriptionSeverity old both
        ∨ RowFrom settings.driftDescriptionSeverity .high old both := by
  constructor
  · intro reaches
    obtain ⟨before, after, comparable, row | ⟨change, -⟩⟩ := (reaches_iff ..).mp reaches
    · exact .inr ⟨before, after, comparable, row⟩
    · exact .inl ⟨before, after, comparable, change⟩
  · rintro (unnamed | rows)
    · exact unnamed.reaches
    · exact rows.reaches

theorem reaches_critical_iff
    : Reaches settings old both .critical
      ↔ RowFrom settings.driftDescriptionSeverity .critical old both := by
  refine ⟨fun reaches => ?_, RowFrom.reaches⟩
  obtain ⟨before, after, comparable, row | ⟨-, reached⟩⟩ := (reaches_iff ..).mp reaches
  · exact ⟨before, after, comparable, row⟩
  · exact absurd reached (by decide)

/-- Both edits together have parameters that can be compared with the old ones. -/
theorem Together.comparable {before p q : Parameters} (together : Together old one two both)
    (left : Comparable old one before p) (right : Comparable old two before q)
    : ∃ whole, Comparable old both before whole ∧ Pieces before p q whole := by
  obtain ⟨whole, read, pieces⟩ := together.pieces left.old left.new right.new
  refine ⟨whole, ⟨left.old, read, ?_⟩, pieces⟩
  intro prop was now had has
  rcases pieces.props prop with ⟨-, same⟩ | ⟨-, same⟩
  · exact right.shared had (same.symm.trans has)
  · exact left.shared had (same.symm.trans has)

/-- Where no row applies to both edits together, both hash as each edit alone did. -/
theorem Together.exists_hashes {before p q whole : Parameters}
    (together : Together old one two both)
    (firstJudged : classify settings old one = .ok first)
    (secondJudged : classify settings old two = .ok second)
    (left : Comparable old one before p) (right : Comparable old two before q)
    (comparable : Comparable old both before whole) (pieces : Pieces before p q whole)
    (none : ∀ severity,
      ¬ Row settings.driftDescriptionSeverity old both before whole severity)
    : ∃ oldHash bothHash, toolHash old = .ok oldHash ∧ toolHash both = .ok bothHash := by
  -- a row for one of the edits leaves one for both, so both were settled by their hashes
  obtain ⟨_, _, left', firstAnswer⟩ := classify_eq_ok firstJudged
  obtain ⟨_, _, right', secondAnswer⟩ := classify_eq_ok secondJudged
  obtain ⟨rfl, rfl⟩ := left'.unique left
  obtain ⟨rfl, rfl⟩ := right'.unique right
  rcases firstAnswer with ⟨highest, -, named⟩ | ⟨-, oldHash, oneHash, oldHashed, oneHashed, -⟩
  · obtain ⟨severity, row, -⟩ := (named highest).mp (Nat.le_refl _)
    obtain ⟨found, row, -⟩ := row.together together.dictionary together.texts pieces comparable
    exact absurd row (none found)
  · rcases secondAnswer with ⟨highest, -, named⟩ | ⟨-, _, twoHash, -, twoHashed, -⟩
    · obtain ⟨severity, row, -⟩ := (named highest).mp (Nat.le_refl _)
      obtain ⟨found, row, -⟩ :=
        row.together together.dictionary together.texts.swap pieces.swap comparable
      exact absurd row (none found)
    · obtain ⟨bothHash, bothHashed⟩ := exists_toolHash both
        (together.finite (finite_of_toolHash oneHashed) (finite_of_toolHash twoHashed))
      exact ⟨oldHash, bothHash, oldHashed, bothHashed⟩

/-- The parameters of the definitions, where the classifier answers for each edit alone. -/
theorem Together.parts (together : Together old one two both)
    (firstJudged : classify settings old one = .ok first)
    (secondJudged : classify settings old two = .ok second)
    : ∃ before p q whole,
        Comparable old one before p ∧ Comparable old two before q
        ∧ Comparable old both before whole ∧ Pieces before p q whole := by
  obtain ⟨before, p, left, -⟩ := classify_eq_ok firstJudged
  obtain ⟨before', q, right, -⟩ := classify_eq_ok secondJudged
  obtain rfl : before = before' := Except.ok.inj (left.old.symm.trans right.old)
  obtain ⟨whole, comparable, pieces⟩ := together.comparable left right
  exact ⟨before, p, q, whole, left, right, comparable, pieces⟩

/-- The classifier answers for both edits together if it answers for each alone. -/
theorem Together.exists_classify (together : Together old one two both)
    (firstJudged : classify settings old one = .ok first)
    (secondJudged : classify settings old two = .ok second)
    : ∃ result, classify settings old both = .ok result := by
  obtain ⟨before, p, q, whole, left, right, comparable, pieces⟩ :=
    together.parts firstJudged secondJudged
  by_cases rows : ∃ severity, Row settings.driftDescriptionSeverity old both before whole severity
  · exact DriftDetector.exists_classify comparable (.inl rows)
  · exact DriftDetector.exists_classify comparable (.inr (together.exists_hashes firstJudged
      secondJudged left right comparable pieces (not_exists.mp rows)))

/-- The rows of both edits together are those of each that the other one leaves. -/
theorem Together.rowFrom_iff {bound : DriftSeverity} (together : Together old one two both)
    (firstJudged : classify settings old one = .ok first)
    (secondJudged : classify settings old two = .ok second)
    : RowFrom settings.driftDescriptionSeverity bound old both
      ↔ StaysFrom settings.driftDescriptionSeverity bound old one two := by
  constructor
  · rintro ⟨_, _, comparable', severity, row, above⟩
    obtain ⟨before, p, q, whole, left, right, comparable, pieces⟩ :=
      together.parts firstJudged secondJudged
    obtain ⟨rfl, rfl⟩ := comparable'.unique comparable
    exact ⟨_, p, q, left, right, severity, row.of_either together.texts pieces, above⟩
  · rintro ⟨before, p, q, left, right, severity, stays, above⟩
    obtain ⟨whole, comparable, pieces⟩ := together.comparable left right
    have kept : ∃ found,
        Row settings.driftDescriptionSeverity old both before whole found
        ∧ severity.rank ≤ found.rank := by
      rcases stays with stays | stays
      · exact stays.row together.dictionary together.texts pieces comparable
      · exact stays.row together.dictionary together.texts.swap pieces.swap comparable
    obtain ⟨found, row, higher⟩ := kept
    exact ⟨before, whole, comparable, found, row, Nat.le_trans above higher⟩

/-- Both edits together are a change that no row names, unless one of them is a change that some row
names or both together hash as the old definition.
-/
theorem Together.not_unnamed_iff (together : Together old one two both)
    (firstJudged : classify settings old one = .ok first)
    (secondJudged : classify settings old two = .ok second)
    : ¬ UnnamedChange settings.driftDescriptionSeverity old both
      ↔ RowFrom settings.driftDescriptionSeverity .low old one
        ∨ RowFrom settings.driftDescriptionSeverity .low old two
        ∨ toolHash both = toolHash old := by
  have least (severity : DriftSeverity) : DriftSeverity.low.rank ≤ severity.rank := by
    cases severity <;> decide
  obtain ⟨before, p, q, whole, left, right, comparable, pieces⟩ :=
    together.parts firstJudged secondJudged
  by_cases rows : ∃ severity, Row settings.driftDescriptionSeverity old both before whole severity
  · obtain ⟨severity, row⟩ := rows
    have unnamed : ¬ UnnamedChange settings.driftDescriptionSeverity old both := by
      rintro ⟨_, _, comparable', none, -⟩
      obtain ⟨rfl, rfl⟩ := comparable'.unique comparable
      exact none severity row
    refine iff_of_true unnamed ?_
    rcases row.of_either together.texts pieces with stays | stays
    · obtain ⟨found, row⟩ := stays.named
      exact .inl ⟨before, p, left, found, row, least found⟩
    · obtain ⟨found, row⟩ := stays.named
      exact .inr (.inl ⟨before, q, right, found, row, least found⟩)
  · have none := not_exists.mp rows
    obtain ⟨oldHash, bothHash, oldHashed, bothHashed⟩ :=
      together.exists_hashes firstJudged secondJudged left right comparable pieces none
    constructor
    · intro named
      refine .inr (.inr ?_)
      by_contra differ
      refine named ⟨before, whole, comparable, none, oldHash, bothHash, oldHashed, bothHashed, ?_⟩
      rintro rfl
      exact differ (bothHashed.trans oldHashed.symm)
    · rintro (⟨_, _, left', severity, row, -⟩ | ⟨_, _, right', severity, row, -⟩ | same)
      · obtain ⟨rfl, rfl⟩ := left'.unique left
        obtain ⟨found, row, -⟩ := row.together together.dictionary together.texts pieces comparable
        exact absurd row (none found)
      · obtain ⟨rfl, rfl⟩ := right'.unique right
        obtain ⟨found, row, -⟩ :=
          row.together together.dictionary together.texts.swap pieces.swap comparable
        exact absurd row (none found)
      · rintro ⟨_, _, _, -, _, _, oldSame, bothSame, differ⟩
        exact differ (Except.ok.inj (oldSame.symm.trans (same.symm.trans bothSame)))

theorem Together.masked_iff (together : Together old one two both)
    (firstJudged : classify settings old one = .ok first)
    (secondJudged : classify settings old two = .ok second)
    : Masked settings.driftDescriptionSeverity old one two both
      ↔ (UnnamedChange settings.driftDescriptionSeverity old one
          ∨ UnnamedChange settings.driftDescriptionSeverity old two)
        ∧ ¬ UnnamedChange settings.driftDescriptionSeverity old both
        ∧ ¬ RowFrom settings.driftDescriptionSeverity .high old both := by
  rw [together.not_unnamed_iff firstJudged secondJudged,
    together.rowFrom_iff firstJudged secondJudged]
  rfl

theorem Together.crossed_iff (together : Together old one two both)
    (firstJudged : classify settings old one = .ok first)
    (secondJudged : classify settings old two = .ok second)
    : Crossed settings.driftDescriptionSeverity old one two
      ↔ (∃ before p q,
          parametersOf old = .ok before ∧ parametersOf one = .ok p ∧ parametersOf two = .ok q
          ∧ (Crossing before p q ∨ Crossing before q p))
        ∧ ¬ RowFrom settings.driftDescriptionSeverity .critical old both := by
  rw [together.rowFrom_iff firstJudged secondJudged]
  rfl

/-- What the first edit reaches alone, both reach together, unless they cross or the first
one's change is masked.
-/
theorem Together.reaches {bound : DriftSeverity} (together : Together old one two both)
    (firstJudged : classify settings old one = .ok first)
    (secondJudged : classify settings old two = .ok second)
    (unmasked : ¬ Masked settings.driftDescriptionSeverity old one two both)
    (apart : ¬ Crossed settings.driftDescriptionSeverity old one two)
    (reaches : Reaches settings old one bound)
    : Reaches settings old both bound := by
  rw [together.masked_iff firstJudged secondJudged] at unmasked
  rw [together.crossed_iff firstJudged secondJudged] at apart
  obtain ⟨before, p, left, answer⟩ := (reaches_iff ..).mp reaches
  obtain ⟨before', q, right, -⟩ := classify_eq_ok secondJudged
  obtain rfl : before = before' := Except.ok.inj (left.old.symm.trans right.old)
  obtain ⟨whole, comparable, pieces⟩ := together.comparable left right
  rcases answer with ⟨severity, row, reached⟩ | ⟨unnamed, reached⟩
  · obtain ⟨found, row, higher | ⟨rfl, crossing⟩⟩ :=
      row.together together.dictionary together.texts pieces comparable
    · exact (reaches_iff ..).mpr ⟨before, whole, comparable,
        .inl ⟨found, row, Nat.le_trans reached higher⟩⟩
    · by_contra missed
      refine apart ⟨⟨before, p, q, left.old, left.new, right.new, .inl crossing⟩, ?_⟩
      exact fun rows => missed (rows.reaches.mono reached)
  · by_contra missed
    have high : ¬ Reaches settings old both .high := fun reaches => missed (reaches.mono reached)
    rw [reaches_high_iff, not_or] at high
    exact unmasked ⟨.inl ⟨before, p, left, unnamed⟩, high⟩

/-- Two edits of disjoint parts are together at least as severe as each alone, exactly if
neither is a change that no row names which the other one masks, and they do not cross.
-/
theorem together_no_less_severe_iff (together : Together old one two both)
    (firstJudged : classify settings old one = .ok first)
    (secondJudged : classify settings old two = .ok second)
    : (∃ result,
        classify settings old both = .ok result
        ∧ max (severityRank first) (severityRank second) ≤ severityRank result)
      ↔ ¬ Masked settings.driftDescriptionSeverity old one two both
        ∧ ¬ Crossed settings.driftDescriptionSeverity old one two := by
  obtain ⟨result, judged⟩ := together.exists_classify firstJudged secondJudged
  have law : (∃ result,
        classify settings old both = .ok result
        ∧ max (severityRank first) (severityRank second) ≤ severityRank result)
      ↔ (∀ severity, first = some severity → Reaches settings old both severity)
        ∧ ∀ severity, second = some severity → Reaches settings old both severity := by
    rw [← severityRank_le_iff judged, ← severityRank_le_iff judged, ← Nat.max_le]
    constructor
    · rintro ⟨found, same, below⟩
      cases judged.symm.trans same
      exact below
    · exact fun below => ⟨result, judged, below⟩
  rw [law]
  constructor
  · rintro ⟨fromFirst, fromSecond⟩
    have firstReaches {bound : DriftSeverity} (reaches : Reaches settings old one bound)
        : Reaches settings old both bound := by
      obtain ⟨severity, same, reached⟩ := reaches.of_ok firstJudged
      exact (fromFirst severity same).mono reached
    have secondReaches {bound : DriftSeverity} (reaches : Reaches settings old two bound)
        : Reaches settings old both bound := by
      obtain ⟨severity, same, reached⟩ := reaches.of_ok secondJudged
      exact (fromSecond severity same).mono reached
    rw [together.masked_iff firstJudged secondJudged, together.crossed_iff firstJudged secondJudged]
    constructor
    · rintro ⟨unnamed, kept⟩
      refine not_or.mpr kept (reaches_high_iff.mp ?_)
      rcases unnamed with unnamed | unnamed
      · exact firstReaches unnamed.reaches
      · exact secondReaches unnamed.reaches
    · rintro ⟨⟨before, p, q, oldRead, oneRead, twoRead, crossing⟩, lost⟩
      refine lost (reaches_critical_iff.mp ?_)
      obtain ⟨before', p', left, -⟩ := classify_eq_ok firstJudged
      obtain ⟨before'', q', right, -⟩ := classify_eq_ok secondJudged
      cases left.old.symm.trans oldRead
      cases left.new.symm.trans oneRead
      cases right.old.symm.trans oldRead
      cases right.new.symm.trans twoRead
      rcases crossing with crossing | crossing
      · obtain ⟨whole, comparable, pieces⟩ := together.comparable left right
        have row : Row settings.driftDescriptionSeverity old one before p .critical :=
          crossing.critical together.dictionary pieces oldRead
        exact firstReaches ((reaches_iff ..).mpr ⟨_, _, left, .inl ⟨_, row, Nat.le_refl _⟩⟩)
      · obtain ⟨whole, comparable, pieces⟩ := together.swap.comparable right left
        have row : Row settings.driftDescriptionSeverity old two before q .critical :=
          crossing.critical together.dictionary pieces oldRead
        exact secondReaches ((reaches_iff ..).mpr ⟨_, _, right, .inl ⟨_, row, Nat.le_refl _⟩⟩)
  · rintro ⟨unmasked, apart⟩
    refine ⟨?_, ?_⟩
    · rintro severity rfl
      exact together.reaches firstJudged secondJudged unmasked apart
        ⟨severity, firstJudged, Nat.le_refl _⟩
    · rintro severity rfl
      rw [together.masked_iff firstJudged secondJudged] at unmasked
      rw [together.crossed_iff firstJudged secondJudged] at apart
      refine together.swap.reaches secondJudged firstJudged ?_ ?_
        ⟨severity, secondJudged, Nat.le_refl _⟩
      · rw [together.swap.masked_iff secondJudged firstJudged]
        exact fun masked => unmasked ⟨masked.1.symm, masked.2⟩
      · rw [together.swap.crossed_iff secondJudged firstJudged]
        rintro ⟨⟨before, q, p, oldRead, twoRead, oneRead, crossing⟩, lost⟩
        exact apart ⟨⟨before, p, q, oldRead, oneRead, twoRead, crossing.symm⟩, lost⟩

end

/-- A tool with one parameter, which its input schema says no more about. -/
def listTool (extra folder : List (String × Json)) : Tool :=
  ("name", .str "list_mail")
  :: ("inputSchema", .obj [("properties", .obj [("folder", .obj folder)])])
  :: extra

/-- An annotation that no row names: HIGH on its own. -/
def openWorld : List (String × Json) :=
  [("annotations", .obj [("openWorldHint", .bool true)])]

/-- A parameter's new title: LOW on its own. -/
def titled : List (String × Json) :=
  [("title", .str "Folder")]

theorem listTool_together
    : Together (listTool [] []) (listTool openWorld []) (listTool [] titled)
        (listTool openWorld titled) := by
  refine ⟨by simp [listTool, Json.DistinctKeys, Json.DistinctFields, Dict.keys],
    by decide, fun key => .inl ?_⟩
  by_cases annotations : key = "annotations"
  · subst annotations
    exact .inr ⟨rfl, rfl⟩
  · left
    simp [listTool, openWorld, Dict.lookup_cons, annotations]

theorem listTool_hash_ne : toolHash (listTool [] []) ≠ toolHash (listTool openWorld []) := by
  rw [toolHash_eq_computeHash, toolHash_eq_computeHash]
  exact AuditLog.computeHash_ne (by decide +kernel)

theorem classify_openWorld
    : classify calm.settings (listTool [] []) (listTool openWorld []) = .ok (some .high) := by
  obtain ⟨oldHash, oldHashed⟩ := exists_toolHash (listTool [] []) (by decide)
  obtain ⟨newHash, newHashed⟩ := exists_toolHash (listTool openWorld []) (by decide)
  have differ : oldHash ≠ newHash := by
    rintro rfl
    exact listTool_hash_ne (oldHashed.trans newHashed.symm)
  have named : tableSeverities calm.settings.driftDescriptionSeverity (listTool [] [])
      (listTool openWorld []) = .ok [] := rfl
  simp [classify, named, oldHashed, newHashed, differ, bind, Except.bind, pure, Except.pure]

/-- An annotation that is HIGH on its own is LOW next to a parameter's new title. -/
theorem annotation_masked_by_title
    : Together (listTool [] []) (listTool openWorld []) (listTool [] titled)
        (listTool openWorld titled)
      ∧ classify calm.settings (listTool [] []) (listTool openWorld []) = .ok (some .high)
      ∧ classify calm.settings (listTool [] []) (listTool [] titled) = .ok (some .low)
      ∧ classify calm.settings (listTool [] []) (listTool openWorld titled)
        = .ok (some .low) :=
  ⟨listTool_together, classify_openWorld, rfl, rfl⟩

/-- Witness: of the annotation and the title, one masks the other or they cross. -/
theorem together_no_less_severe_title
    : Masked .high (listTool [] []) (listTool openWorld []) (listTool [] titled)
        (listTool openWorld titled)
      ∨ Crossed .high (listTool [] []) (listTool openWorld []) (listTool [] titled) := by
  have law := @together_no_less_severe_iff calm.settings _ _ _ _ _ _ listTool_together
    classify_openWorld rfl
  by_contra neither
  obtain ⟨result, judged, below⟩ := law.mpr (not_or.mp neither)
  have low : classify calm.settings (listTool [] []) (listTool openWorld titled)
      = .ok (some .low) := rfl
  cases low.symm.trans judged
  exact absurd below (by decide)

end DriftDetector

end SecureMcp
