import SecureMcp.Drift.Outcome
import SecureMcp.Interceptor.ParamValidator
import SecureMcp.Python.Positions

/-! What the search for injections in a call's arguments finds. A hit is reported by its
path and tested for truth, so a hit at an empty path is no hit.
-/

namespace SecureMcp

namespace ParamValidator

open Json (Segment Within)

/-- The path that the search spells for a position below the one spelled `path`. -/
def dotted (path : String) : List Segment → String
  | [] => path
  | .key name :: rest => dotted (if path = "" then name else path ++ "." ++ name) rest
  | .index position :: rest => dotted (path ++ "[" ++ toString position ++ "]") rest

/-- Only empty keys spell an empty path: the separators and the brackets do not. -/
theorem dotted_eq_empty (path : String) (steps : List Segment)
    : dotted path steps = "" ↔ path = "" ∧ ∀ step ∈ steps, step = .key "" := by
  induction steps generalizing path with
  | nil => simp [dotted]
  | cons step rest ih =>
      cases step with
      | key name =>
          rw [dotted, ih]
          by_cases empty : path = ""
          · simp [empty]
          · simp [empty, String.append_eq_empty_iff]
      | index position =>
          rw [dotted, ih]
          simp [String.append_eq_empty_iff]

/-- A string at a position matches the pattern. -/
def Injected (value : Json) (steps : List Segment) : Prop :=
  ∃ text, Within steps value (.str text) ∧ hasInjection text = true

/-- The search returned a path that passes the caller's test. -/
def Reported (result : Option String) : Prop :=
  ∃ hit, result = some hit ∧ hit ≠ ""

theorem injected_obj {fields : List (String × Json)} {steps : List Segment}
    : Injected (.obj fields) steps
      ↔ ∃ key inner rest,
          (key, inner) ∈ fields ∧ steps = .key key :: rest ∧ Injected inner rest := by
  constructor
  · rintro ⟨text, below, found⟩
    obtain ⟨-, no⟩ | ⟨key, inner, rest, member, spelled, deeper⟩ := Json.within_obj.mp below
    · cases no
    · exact ⟨key, inner, rest, member, spelled, text, deeper, found⟩
  · rintro ⟨key, inner, rest, member, rfl, text, below, found⟩
    exact ⟨text, .field member below, found⟩

theorem injected_arr {items : List Json} {steps : List Segment}
    : Injected (.arr items) steps
      ↔ ∃ index inner rest,
          items[index]? = some inner ∧ steps = .index index :: rest ∧ Injected inner rest := by
  constructor
  · rintro ⟨text, below, found⟩
    obtain ⟨-, no⟩ | ⟨index, inner, rest, member, spelled, deeper⟩ := Json.within_arr.mp below
    · cases no
    · exact ⟨index, inner, rest, member, spelled, text, deeper, found⟩
  · rintro ⟨index, inner, rest, member, rfl, text, below, found⟩
    exact ⟨text, .item member below, found⟩

/-- A loop over parts reports the first of them that is reported. -/
theorem reported_step {first rest : Option String}
    : Reported (match first with
        | some hit => if hit = "" then rest else some hit
        | none => rest)
      ↔ Reported first ∨ Reported rest := by
  cases first with
  | none => simp [Reported]
  | some hit => by_cases empty : hit = "" <;> simp [Reported, empty]

mutual

/-- The search reports a value exactly when a matching string lies at a position that
spells a path; by recursion on the value.
-/
theorem reported_findInjection (path : String) (value : Json)
    : Reported (findInjection path value)
      ↔ ∃ steps, Injected value steps ∧ dotted path steps ≠ "" := by
  cases value with
  | str text =>
      rw [findInjection]
      simp only [Injected, @Json.within_atom _ _ (.str text) nofun nofun]
      by_cases found : hasInjection text = true
      · simp [Reported, found, dotted]
      · simp [Reported, found]
  | obj fields =>
      rw [findInjection, reported_findInFields path fields]
      simp only [injected_obj]
      constructor
      · rintro ⟨key, inner, rest, member, injected, spelled⟩
        exact ⟨_, ⟨key, inner, rest, member, rfl, injected⟩, spelled⟩
      · rintro ⟨_, ⟨key, inner, rest, member, rfl, injected⟩, spelled⟩
        exact ⟨key, inner, rest, member, injected, spelled⟩
  | arr items =>
      rw [findInjection, reported_findInItems path 0 items]
      simp only [injected_arr, Nat.zero_add]
      constructor
      · rintro ⟨index, inner, rest, member, injected, spelled⟩
        exact ⟨_, ⟨index, inner, rest, member, rfl, injected⟩, spelled⟩
      · rintro ⟨_, ⟨index, inner, rest, member, rfl, injected⟩, spelled⟩
        exact ⟨index, inner, rest, member, injected, spelled⟩
  | null => simp [findInjection, Reported, Injected, Json.within_atom]
  | bool value => simp [findInjection, Reported, Injected, Json.within_atom]
  | int value => simp [findInjection, Reported, Injected, Json.within_atom]
  | float value => simp [findInjection, Reported, Injected, Json.within_atom]

theorem reported_findInFields (path : String) (fields : List (String × Json))
    : Reported (findInFields path fields)
      ↔ ∃ key inner rest,
          (key, inner) ∈ fields ∧ Injected inner rest
          ∧ dotted path (.key key :: rest) ≠ "" := by
  cases fields with
  | nil => simp [findInFields, Reported]
  | cons field rest =>
      obtain ⟨key, value⟩ := field
      rw [findInFields]
      refine reported_step.trans ?_
      rw [reported_findInjection, reported_findInFields]
      constructor
      · rintro (⟨steps, injected, spelled⟩ | ⟨other, inner, steps, member, injected, spelled⟩)
        · exact ⟨key, value, steps, List.mem_cons_self, injected, spelled⟩
        · exact ⟨other, inner, steps, List.mem_cons_of_mem _ member, injected, spelled⟩
      · rintro ⟨other, inner, steps, member, injected, spelled⟩
        rcases List.mem_cons.mp member with same | member
        · cases same
          exact .inl ⟨steps, injected, spelled⟩
        · exact .inr ⟨other, inner, steps, member, injected, spelled⟩

theorem reported_findInItems (path : String) (start : Nat) (items : List Json)
    : Reported (findInItems path start items)
      ↔ ∃ index inner rest,
          items[index]? = some inner ∧ Injected inner rest
          ∧ dotted path (.index (start + index) :: rest) ≠ "" := by
  cases items with
  | nil => simp [findInItems, Reported]
  | cons value rest =>
      rw [findInItems]
      refine reported_step.trans ?_
      rw [reported_findInjection, reported_findInItems]
      constructor
      · rintro (⟨steps, injected, spelled⟩ | ⟨index, inner, steps, member, injected, spelled⟩)
        · exact ⟨0, value, steps, rfl, injected, spelled⟩
        · refine ⟨index + 1, inner, steps, member, injected, ?_⟩
          rwa [← Nat.add_assoc, Nat.add_right_comm]
      · rintro ⟨index, inner, steps, member, injected, spelled⟩
        cases index with
        | zero =>
            cases member
            exact .inl ⟨steps, injected, spelled⟩
        | succ index =>
            refine .inr ⟨index, inner, steps, member, injected, ?_⟩
            rwa [← Nat.add_assoc, Nat.add_right_comm] at spelled

end

/-- Every key on the way is the empty one. -/
def OnlyEmptyKeys (steps : List Segment) : Prop :=
  ∀ step ∈ steps, step = .key ""

/-- The arguments pass the checks that come before the search: the schema names all their
fields and accepts them.
-/
def Conforms (runtime : Runtime) (arguments : List (String × Json)) (schema : Json) : Prop :=
  (∃ declared,
    schema.get "properties" = .ok declared
    ∧ ∀ properties, declared = .obj properties →
        ∀ key ∈ Dict.keys arguments, key ∈ Dict.keys properties)
  ∧ runtime.validateSchema (.obj arguments) schema = .conforms

theorem distinct_eq_nil {items : List Json} : distinct items = [] ↔ items = [] := by
  cases items <;> simp [distinct]

theorem unknownFields_eq_nil (arguments properties : List (String × Json))
    : unknownFields (.obj arguments) properties = .ok []
      ↔ ∀ key ∈ Dict.keys arguments, key ∈ Dict.keys properties := by
  simp [unknownFields, DriftDetector.setOf, bind, Except.bind, pure, Except.pure,
    distinct_eq_nil, List.filter_eq_nil_iff]

theorem injectionError_eq_none (arguments : List (String × Json))
    : injectionError arguments = none
      ↔ ∀ steps, Injected (.obj arguments) steps → OnlyEmptyKeys steps := by
  induction arguments with
  | nil => simp [injectionError, injected_obj]
  | cons field rest ih =>
      obtain ⟨key, value⟩ := field
      -- the loop goes on exactly when the search below this argument reports nothing
      have step : injectionError ((key, value) :: rest) = none
          ↔ ¬ Reported (findInjection key value) ∧ injectionError rest = none := by
        rw [injectionError]
        cases findInjection key value with
        | none => simp [Reported]
        | some hit => by_cases empty : hit = "" <;> simp [Reported, empty]
      have spelled (steps : List Segment)
          : dotted key steps = "" ↔ OnlyEmptyKeys (.key key :: steps) := by
        rw [dotted_eq_empty]
        simp [OnlyEmptyKeys]
      rw [step, reported_findInjection, ih]
      constructor
      · rintro ⟨here, later⟩ steps injected
        obtain ⟨other, inner, deeper, member, rfl, below⟩ := injected_obj.mp injected
        rcases List.mem_cons.mp member with same | member
        · cases same
          by_contra visible
          exact here ⟨deeper, below, fun empty => visible ((spelled deeper).mp empty)⟩
        · exact later _ (injected_obj.mpr ⟨other, inner, deeper, member, rfl, below⟩)
      · intro all
        refine ⟨?_, ?_⟩
        · rintro ⟨steps, below, visible⟩
          exact visible ((spelled steps).mpr
            (all _ (injected_obj.mpr ⟨key, value, steps, List.mem_cons_self, rfl, below⟩)))
        · intro steps injected
          obtain ⟨other, inner, deeper, member, rfl, below⟩ := injected_obj.mp injected
          exact all _ (injected_obj.mpr
            ⟨other, inner, deeper, List.mem_cons_of_mem _ member, rfl, below⟩)

theorem validateValues_eq_none (runtime : Runtime) (arguments : List (String × Json))
    (schema : Json)
    : validateValues runtime (.obj arguments) schema = .ok none
      ↔ runtime.validateSchema (.obj arguments) schema = .conforms
        ∧ injectionError arguments = none := by
  unfold validateValues
  cases runtime.validateSchema (.obj arguments) schema <;> simp

/-- Arguments pass exactly when they conform and every match lies at an empty path. -/
theorem validate_eq_none (runtime : Runtime) (arguments : List (String × Json))
    (schema : Json)
    : validate runtime (.obj arguments) schema = .ok none
      ↔ Conforms runtime arguments schema
        ∧ ∀ steps, Injected (.obj arguments) steps → OnlyEmptyKeys steps := by
  rw [← injectionError_eq_none]
  unfold validate Conforms
  cases declared : schema.get "properties" with
  | error exn => simp [bind, Except.bind]
  | ok value =>
      cases value with
      | obj properties =>
          have named := unknownFields_eq_nil arguments properties
          cases unknown : unknownFields (.obj arguments) properties with
          | error exn => rw [unknown] at named; simp_all [bind, Except.bind]
          | ok fields =>
              cases fields with
              | nil =>
                  rw [unknown] at named
                  simp only [bind, Except.bind, unknown, validateValues_eq_none]
                  simpa using fun _ _ => named.mp rfl
              | cons first more =>
                  rw [unknown] at named
                  have strange := mt named.mpr (by simp)
                  simp only [bind, Except.bind, unknown]
                  cases sortedSet (first :: more) <;>
                    simp [pure, Except.pure, strange]
      | null | bool _ | int _ | float _ | str _ | arr _ =>
          simp only [bind, Except.bind, validateValues_eq_none]
          simp

/-- Arguments that pass hold no path traversal and no control character, unless all their
matches lie at paths of empty keys.
-/
theorem injections_rejected_iff (runtime : Runtime) (arguments : List (String × Json))
    (schema : Json)
    : (validate runtime (.obj arguments) schema = .ok none →
        ∀ steps, ¬ Injected (.obj arguments) steps)
      ↔ ¬ (Conforms runtime arguments schema
          ∧ (∃ steps, Injected (.obj arguments) steps)
          ∧ ∀ steps, Injected (.obj arguments) steps → OnlyEmptyKeys steps) := by
  rw [validate_eq_none]
  constructor
  · rintro rejected ⟨conforms, ⟨steps, injected⟩, empty⟩
    exact rejected ⟨conforms, empty⟩ steps injected
  · rintro visible ⟨conforms, empty⟩ steps injected
    exact visible ⟨conforms, ⟨steps, injected⟩, empty⟩

/-- A traversal under an empty key passes. -/
theorem traversal_under_empty_key
    : let arguments : List (String × Json) := [("", .str "../../etc/passwd")]
      validate DriftDetector.calm (.obj arguments) (.obj []) = .ok none
      ∧ Within [.key ""] (.obj arguments) (.str "../../etc/passwd")
      ∧ hasInjection "../../etc/passwd" = true := by
  refine ⟨by decide, .field List.mem_cons_self (.here _), by decide⟩

end ParamValidator

end SecureMcp
