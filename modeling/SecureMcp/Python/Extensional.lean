import Mathlib.Data.Option.Basic
import SecureMcp.Python.Positions
import SecureMcp.Storage.Fields

/-! Values that are the same up to the key order of their objects, by their parts: two objects are
when their fields are, and two lists are when their items are. So two values are exactly when
every path leads to the same kind of value in both.
-/

namespace SecureMcp

namespace Json

/-- What holds of a value when it holds of its parts holds of every value. -/
theorem induction_parts {motive : Json → Prop}
    (step : ∀ value,
      (∀ fields key inner, value = .obj fields → (key, inner) ∈ fields → motive inner)
      → (∀ items inner, value = .arr items → inner ∈ items → motive inner)
      → motive value)
    (value : Json)
    : motive value := by
  refine step value ?_ ?_
  · intro fields key inner same member
    exact induction_parts step inner
  · intro items inner same member
    exact induction_parts step inner
termination_by sizeOf value
decreasing_by
  · subst same
    have smaller := List.sizeOf_lt_of_mem member
    simp only [Prod.mk.sizeOf_spec] at smaller
    simp only [Json.obj.sizeOf_spec]
    omega
  · subst same
    have smaller := List.sizeOf_lt_of_mem member
    simp only [Json.arr.sizeOf_spec]
    omega

theorem ReorderedItems.getElem? {items others : List Json} (each : ReorderedItems items others)
    (index : Nat)
    : Option.Rel Reordered items[index]? others[index]? := by
  induction items generalizing others index with
  | nil =>
      cases each
      exact .none
  | cons item rest ih =>
      cases each with
      | cons head tail =>
          cases index with
          | zero => exact .some head
          | succ index => exact ih tail index

theorem reorderedItems_of_getElem? {items others : List Json}
    (each : ∀ index : Nat, Option.Rel Reordered items[index]? others[index]?)
    : ReorderedItems items others := by
  induction items generalizing others with
  | nil =>
      cases others with
      | nil => exact .nil
      | cons other more => cases each 0
  | cons item rest ih =>
      cases others with
      | nil => cases each 0
      | cons other more =>
          have first := each 0
          cases first with
          | some head => exact .cons head (ih (fun index => each (index + 1)))

/-- Lists are the same item by item. -/
theorem reordered_arr_iff {items others : List Json}
    : Reordered (.arr items) (.arr others)
      ↔ ∀ index : Nat, Option.Rel Reordered items[index]? others[index]? := by
  refine ⟨fun order index => ?_, fun each => .arr (reorderedItems_of_getElem? each)⟩
  cases order with
  | refl =>
      cases items[index]? with
      | none => exact .none
      | some item => exact .some (.refl item)
  | arr each => exact each.getElem? index

theorem ReorderedFields.lookup {fields others : List (String × Json)}
    (each : ReorderedFields fields others) (key : String)
    : Option.Rel Reordered (fields.lookup key) (others.lookup key) := by
  induction fields generalizing others with
  | nil =>
      cases each
      exact .none
  | cons field rest ih =>
      cases each with
      | cons head tail =>
          rw [Dict.lookup_cons, Dict.lookup_cons]
          split
          · exact .some head
          · exact ih tail

/-- Fields whose values are replaced, each by the same one in another order. -/
theorem reorderedFields_map {fields : List (String × Json)} (replace : String → Json → Json)
    (each : ∀ key value, (key, value) ∈ fields → Reordered value (replace key value))
    : ReorderedFields fields (fields.map (fun field => (field.1, replace field.1 field.2))) := by
  induction fields with
  | nil => exact .nil
  | cons field rest ih =>
      exact .cons (each field.1 field.2 List.mem_cons_self)
        (ih (fun key value member => each key value (List.mem_cons_of_mem _ member)))

/-- Objects are the same field by field. -/
theorem reordered_obj_iff {fields others : List (String × Json)}
    (distinct : (Dict.keys fields).Nodup) (distinctOthers : (Dict.keys others).Nodup)
    : Reordered (.obj fields) (.obj others)
      ↔ ∀ key, Option.Rel Reordered (fields.lookup key) (others.lookup key) := by
  refine ⟨fun order key => ?_, fun each => ?_⟩
  · cases order with
    | refl =>
        cases fields.lookup key with
        | none => exact .none
        | some value => exact .some (.refl value)
    | @obj _ inner _ each perm =>
        have keys : (Dict.keys inner).Nodup := each.keys ▸ distinct
        rw [Dict.lookup_perm keys perm]
        exact each.lookup key
  · let replace (key : String) (value : Json) : Json := (others.lookup key).getD value
    have found {key : String} {value : Json} (member : (key, value) ∈ fields)
        : ∃ other, others.lookup key = some other ∧ Reordered value other := by
      have here := each key
      rw [Dict.lookup_of_mem distinct member] at here
      cases known : others.lookup key with
      | none =>
          rw [known] at here
          cases here
      | some other =>
          rw [known] at here
          cases here with
          | some same => exact ⟨other, rfl, same⟩
    refine .obj (reorderedFields_map replace ?_) ?_
    · intro key value member
      obtain ⟨other, known, same⟩ := found member
      simpa [replace, known] using same
    · have distinctReplaced
          : (fields.map (fun field => (field.1, replace field.1 field.2))).Nodup := by
        refine List.Nodup.of_map Prod.fst ?_
        simpa [Dict.keys, List.map_map, Function.comp_def] using distinct
      refine (List.perm_ext_iff_of_nodup distinctReplaced
        (List.Nodup.of_map Prod.fst distinctOthers)).mpr (fun entry => ?_)
      constructor
      · intro member
        obtain ⟨⟨key, value⟩, there, rfl⟩ := List.mem_map.mp member
        obtain ⟨other, known, _⟩ := found there
        simpa [replace, known] using Dict.mem_of_lookup known
      · intro member
        obtain ⟨key, other⟩ := entry
        have known := Dict.lookup_of_mem distinctOthers member
        have here := each key
        rw [known] at here
        cases there : fields.lookup key with
        | none =>
            rw [there] at here
            cases here
        | some value =>
            refine List.mem_map.mpr ⟨(key, value), Dict.mem_of_lookup there, ?_⟩
            simp [replace, known]

theorem DistinctItems.of_mem {items : List Json} {item : Json} (distinct : DistinctItems items)
    (member : item ∈ items)
    : item.DistinctKeys := by
  induction items with
  | nil => cases member
  | cons first rest ih =>
      rcases List.mem_cons.mp member with same | later
      · exact same ▸ distinct.1
      · exact ih distinct.2 later

/-- A value without its parts. -/
def outer : Json → Json
  | .obj _ => .obj []
  | .arr _ => .arr []
  | value => value

/-- The value that a path leads to. -/
def at? : List Segment → Json → Option Json
  | [], value => some value
  | .key name :: path, .obj fields => (fields.lookup name).bind (at? path)
  | .index position :: path, .arr items => items[position]?.bind (at? path)
  | _ :: _, _ => none

/-- Both values have the same kind of value, or none, at the end of a path. -/
def AgreeAt (path : List Segment) (one other : Json) : Prop :=
  (one.at? path).map outer = (other.at? path).map outer

theorem Reordered.outer_eq {one other : Json} (order : Reordered one other)
    : one.outer = other.outer := by
  cases order with
  | refl | arr | obj => rfl

/-- Without parts on either side, the same kind of value is the same value. -/
theorem reordered_of_outer {one other : Json} (same : one.outer = other.outer)
    (atom : ∀ items, one ≠ .arr items) (flat : ∀ fields, one ≠ .obj fields)
    : Reordered one other := by
  have equal : one = other := by
    cases one with
    | arr items => exact absurd rfl (atom items)
    | obj fields => exact absurd rfl (flat fields)
    | null | bool | int | float | str => cases other <;> simp_all [outer]
  exact equal ▸ .refl one

/-- Two optional parts that agree at every path are there together, and agree inside. -/
theorem rel_of_agree {one other : Option Json} {related : Json → Json → Prop}
    (agree : ∀ path, (one.bind (at? path)).map outer = (other.bind (at? path)).map outer)
    (inside : ∀ value found, one = some value → other = some found
      → (∀ path, AgreeAt path value found) → related value found)
    : Option.Rel related one other := by
  cases one with
  | none =>
      cases other with
      | none => exact .none
      | some found => cases agree []
  | some value =>
      cases other with
      | none => cases agree []
      | some found => exact .some (inside value found rfl rfl agree)

/-- Below two fields or items that agree, and where both lack one, the whole values agree. -/
theorem agreeAt_parts {one other : Option Json} {path : List Segment}
    (each : Option.Rel Reordered one other)
    (below : ∀ value found, one = some value → Reordered value found → AgreeAt path value found)
    : (one.bind (at? path)).map outer = (other.bind (at? path)).map outer := by
  cases each with
  | none => rfl
  | some order => exact below _ _ rfl order

/-- Reordered values agree everywhere, by induction on the path. -/
theorem Reordered.agreeAt {one other : Json} (order : Reordered one other)
    (distinct : one.DistinctKeys) (path : List Segment)
    : AgreeAt path one other := by
  induction path generalizing one other with
  | nil => exact congrArg some order.outer_eq
  | cons segment path ih =>
      have kept := order.distinct distinct
      cases order with
      | refl => rfl
      | @arr items others each =>
          cases segment with
          | key name => rfl
          | index position =>
              refine agreeAt_parts (each.getElem? position) ?_
              intro value found here order
              exact ih order (DistinctItems.of_mem distinct (List.mem_of_getElem? here))
      | @obj fields inner others each perm =>
          cases segment with
          | index position => rfl
          | key name =>
              refine agreeAt_parts
                ((reordered_obj_iff distinct.1 kept.1).mp (.obj each perm) name) ?_
              intro value found here order
              exact ih order (distinct.2.of_mem (Dict.mem_of_lookup here))

/-- Two values are the same up to key order exactly when they agree everywhere, by induction on
the parts of the first.
-/
theorem reordered_iff_agreeAt {one other : Json} (distinct : one.DistinctKeys)
    (distinctOther : other.DistinctKeys)
    : Reordered one other ↔ ∀ path, AgreeAt path one other := by
  refine ⟨fun order => order.agreeAt distinct, ?_⟩
  intro agree
  induction one using induction_parts generalizing other with
  | step one fields items =>
      have root : one.outer = other.outer := by
        have here := agree []
        simpa [AgreeAt, at?] using here
      cases one with
      | obj parts =>
          cases other with
          | obj others =>
              refine (reordered_obj_iff distinct.1 distinctOther.1).mpr (fun name => ?_)
              refine rel_of_agree (fun path => agree (.key name :: path)) ?_
              intro value found here there same
              have member := Dict.mem_of_lookup here
              exact fields parts name value rfl member (distinct.2.of_mem member)
                (distinctOther.2.of_mem (Dict.mem_of_lookup there)) same
          | arr | null | bool | int | float | str => cases root
      | arr parts =>
          cases other with
          | arr others =>
              refine reordered_arr_iff.mpr (fun position => ?_)
              refine rel_of_agree (fun path => agree (.index position :: path)) ?_
              intro value found here there same
              have member := List.mem_of_getElem? here
              exact items parts value rfl member (DistinctItems.of_mem distinct member)
                (DistinctItems.of_mem distinctOther (List.mem_of_getElem? there)) same
          | obj | null | bool | int | float | str => cases root
      | null | bool | int | float | str =>
          exact reordered_of_outer root (by intro; simp) (by intro; simp)

end Json

end SecureMcp
