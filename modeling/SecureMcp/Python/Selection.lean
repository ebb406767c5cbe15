import SecureMcp.Python.Extensional

/-! Values with some of the keys of their objects left out. Which keys depends on the place of an
object in the whole, and a value that is selected from another one has of it what lies on the
paths that leave no key out.
-/

namespace SecureMcp

namespace Json

/-- Which keys the objects at a place keep, and the places of what is below them. -/
structure Selection (π : Type) where
  keeps : π → String → Bool
  field : π → String → π
  item : π → π

namespace Selection

variable {π : Type} (selection : Selection π)

mutual

/-- The selected part of a value. -/
def select (place : π) : Json → Json
  | .obj fields => .obj (selectFields place fields)
  | .arr items => .arr (selectItems (selection.item place) items)
  | value => value

def selectItems (place : π) : List Json → List Json
  | [] => []
  | item :: rest => select place item :: selectItems place rest

def selectFields (place : π) : List (String × Json) → List (String × Json)
  | [] => []
  | (key, value) :: rest =>
      if selection.keeps place key then
        (key, select (selection.field place key) value) :: selectFields place rest
      else selectFields place rest

end

/-- Whether no key on a path is left out. -/
def reaches (place : π) : List Segment → Bool
  | [] => true
  | .key name :: path =>
      selection.keeps place name && reaches (selection.field place name) path
  | .index _ :: path => reaches (selection.item place) path

theorem getElem?_selectItems (place : π) (items : List Json) (index : Nat)
    : (selection.selectItems place items)[index]? = items[index]?.map (selection.select place) := by
  induction items generalizing index with
  | nil => rfl
  | cons item rest ih =>
      cases index with
      | zero => rfl
      | succ index => exact ih index

theorem lookup_selectFields (place : π) (fields : List (String × Json)) (key : String)
    : (selection.selectFields place fields).lookup key
      = if selection.keeps place key then
          (fields.lookup key).map (selection.select (selection.field place key))
        else none := by
  induction fields with
  | nil => simp [selectFields]
  | cons field rest ih =>
      obtain ⟨first, value⟩ := field
      rw [selectFields, Dict.lookup_cons]
      by_cases same : key = first
      · subst same
        by_cases kept : selection.keeps place key
        · simp [kept]
        · simp [kept, ih]
      · by_cases kept : selection.keeps place first
        · rw [if_pos kept, Dict.lookup_cons, if_neg same, if_neg same, ih]
        · rw [if_neg kept, if_neg same, ih]

/-- Selecting keeps only keys that were there, in their order. -/
theorem keys_selectFields (place : π) (fields : List (String × Json))
    : Dict.keys (selection.selectFields place fields)
      = (Dict.keys fields).filter (selection.keeps place) := by
  induction fields with
  | nil => rfl
  | cons field rest ih =>
      obtain ⟨first, value⟩ := field
      rw [selectFields]
      by_cases kept : selection.keeps place first
      · simpa [kept, Dict.keys] using ih
      · simpa [kept, Dict.keys] using ih

mutual

/-- A selection of a dictionary still has distinct keys, at any depth. -/
theorem distinct_select (place : π) (value : Json) (distinct : value.DistinctKeys)
    : (selection.select place value).DistinctKeys := by
  match value with
  | .obj fields =>
      rw [select]
      refine ⟨?_, distinct_selectFields place fields distinct.2⟩
      rw [keys_selectFields]
      exact distinct.1.filter _
  | .arr items => exact distinct_selectItems (selection.item place) items distinct
  | .null | .bool _ | .int _ | .float _ | .str _ => trivial

theorem distinct_selectItems (place : π) (items : List Json) (distinct : DistinctItems items)
    : DistinctItems (selection.selectItems place items) := by
  match items with
  | [] => trivial
  | item :: rest =>
      exact ⟨distinct_select place item distinct.1, distinct_selectItems place rest distinct.2⟩

theorem distinct_selectFields (place : π) (fields : List (String × Json))
    (distinct : DistinctFields fields)
    : DistinctFields (selection.selectFields place fields) := by
  match fields with
  | [] => trivial
  | (key, value) :: rest =>
      have later := distinct_selectFields place rest distinct.2
      rw [selectFields]
      split
      · exact ⟨distinct_select (selection.field place key) value distinct.1, later⟩
      · exact later

end

@[simp] theorem outer_select (place : π) (value : Json)
    : (selection.select place value).outer = value.outer := by
  cases value <;> rfl

/-- What a path leads to in a selected value, by induction on the path. -/
theorem at?_select (place : π) (path : List Segment) (value : Json)
    : ((selection.select place value).at? path).map outer
      = if selection.reaches place path then (value.at? path).map outer else none := by
  induction path generalizing place value with
  | nil => simp [at?, reaches]
  | cons segment path ih =>
      cases segment with
      | key name =>
          cases value with
          | obj fields =>
              rw [select, at?, lookup_selectFields, reaches]
              by_cases kept : selection.keeps place name
              · rw [if_pos kept, kept, Bool.true_and, at?]
                cases fields.lookup name with
                | none => simp
                | some inner => exact ih (selection.field place name) inner
              · simp [kept]
          | arr | null | bool | int | float | str => simp [select, at?]
      | index position =>
          cases value with
          | arr items =>
              rw [select, at?, getElem?_selectItems, reaches, at?]
              cases items[position]? with
              | none => simp
              | some inner => exact ih (selection.item place) inner
          | obj | null | bool | int | float | str => simp [select, at?]

/-- Two values have the same selected part, up to key order, exactly when they agree on the paths
that leave no key out.
-/
theorem reordered_select_iff (place : π) {one other : Json} (distinct : one.DistinctKeys)
    (distinctOther : other.DistinctKeys)
    : Reordered (selection.select place one) (selection.select place other)
      ↔ ∀ path, selection.reaches place path → AgreeAt path one other := by
  rw [reordered_iff_agreeAt (selection.distinct_select place one distinct)
    (selection.distinct_select place other distinctOther)]
  refine forall_congr' (fun path => ?_)
  rw [AgreeAt, at?_select, at?_select, AgreeAt]
  by_cases reached : selection.reaches place path
  · simp [reached]
  · simp [reached]

end Selection

end Json

end SecureMcp
