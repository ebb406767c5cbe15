import SecureMcp.Python.Json

/-! Positions inside a JSON value: the keys and indices that lead from a value to one of the
values below it. A recursive walk over a value visits some of its positions.
-/

namespace SecureMcp

namespace Json

/-- One step into a value. -/
inductive Segment
  | key (name : String)
  | index (position : Nat)
  deriving DecidableEq

/-- The value `found` lies below another one, at the end of a path. -/
inductive Within : List Segment → Json → Json → Prop
  | here (value : Json) : Within [] value value
  | field {path : List Segment} {fields : List (String × Json)} {key : String}
    {inner found : Json} (member : (key, inner) ∈ fields) (below : Within path inner found)
    : Within (.key key :: path) (.obj fields) found
  | item {path : List Segment} {items : List Json} {index : Nat} {inner found : Json}
    (member : items[index]? = some inner) (below : Within path inner found)
    : Within (.index index :: path) (.arr items) found

variable {path : List Segment} {found : Json}

/-- Nothing lies below a value without parts. -/
theorem within_atom {value : Json} (atom : ∀ items, value ≠ .arr items)
    (flat : ∀ fields, value ≠ .obj fields)
    : Within path value found ↔ path = [] ∧ found = value := by
  constructor
  · intro below
    cases below with
    | here => exact ⟨rfl, rfl⟩
    | field => exact absurd rfl (flat _)
    | item => exact absurd rfl (atom _)
  · rintro ⟨rfl, rfl⟩
    exact .here found

theorem within_obj {fields : List (String × Json)}
    : Within path (.obj fields) found
      ↔ path = [] ∧ found = .obj fields
        ∨ ∃ key inner rest,
            (key, inner) ∈ fields ∧ path = .key key :: rest ∧ Within rest inner found := by
  constructor
  · intro below
    cases below with
    | here => exact .inl ⟨rfl, rfl⟩
    | field member below => exact .inr ⟨_, _, _, member, rfl, below⟩
  · rintro (⟨rfl, rfl⟩ | ⟨key, inner, rest, member, rfl, below⟩)
    · exact .here _
    · exact .field member below

theorem within_arr {items : List Json}
    : Within path (.arr items) found
      ↔ path = [] ∧ found = .arr items
        ∨ ∃ index inner rest,
            items[index]? = some inner ∧ path = .index index :: rest
            ∧ Within rest inner found := by
  constructor
  · intro below
    cases below with
    | here => exact .inl ⟨rfl, rfl⟩
    | item member below => exact .inr ⟨_, _, _, member, rfl, below⟩
  · rintro (⟨rfl, rfl⟩ | ⟨index, inner, rest, member, rfl, below⟩)
    · exact .here _
    · exact .item member below

end Json

end SecureMcp
