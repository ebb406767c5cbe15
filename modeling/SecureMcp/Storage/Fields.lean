import SecureMcp.Storage.Survival

/-! Reading a stored value by its parts: a field of a stored object is the stored field, and an
item of a stored list is the stored item.
-/

namespace SecureMcp

/-- Distinct fields are found wherever they stand. -/
theorem Dict.lookup_perm {entries others : List (String × Json)}
    (distinct : (Dict.keys entries).Nodup) (perm : entries.Perm others) (key : String)
    : others.lookup key = entries.lookup key := by
  have same : (Dict.keys entries).Perm (Dict.keys others) := perm.map Prod.fst
  cases found : entries.lookup key with
  | none =>
      rw [Dict.lookup_eq_none_iff] at found ⊢
      exact fun member => found (same.mem_iff.mpr member)
  | some value =>
      exact Dict.lookup_of_mem (same.nodup_iff.mp distinct)
        (perm.mem_iff.mp (Dict.mem_of_lookup found))

namespace Json

/-- Reordering the values of fields keeps them where they are, by induction on the fields. -/
theorem ReorderedFields.getKey {fields others : List (String × Json)}
    (each : ReorderedFields fields others) (key : String)
    : Reordered (Json.getKey fields key) (Json.getKey others key) := by
  induction fields generalizing others with
  | nil =>
      cases each
      exact .refl _
  | cons field rest ih =>
      cases each with
      | @cons name value other _ more head tail =>
          have later := ih tail
          simp only [Json.getKey, Dict.lookup_cons] at later ⊢
          split
          · exact head
          · exact later

theorem Reordered.fields {fields : List (String × Json)} {value : Json}
    (order : Reordered (.obj fields) value) (distinct : (Dict.keys fields).Nodup)
    : ∃ others,
        value = .obj others ∧ ∀ key, Reordered (Json.getKey fields key) (Json.getKey others key) := by
  cases order with
  | refl => exact ⟨fields, rfl, fun _ => .refl _⟩
  | @obj _ inner others each perm =>
      refine ⟨others, rfl, fun key => ?_⟩
      have keys : (Dict.keys inner).Nodup := each.keys ▸ distinct
      have same : Json.getKey others key = Json.getKey inner key := by
        rw [Json.getKey, Dict.lookup_perm keys perm, Json.getKey]
      rw [same]
      exact each.getKey key

theorem ReorderedItems.forall₂ {items others : List Json} (each : ReorderedItems items others)
    : List.Forall₂ Reordered items others := by
  induction items generalizing others with
  | nil =>
      cases each
      exact .nil
  | cons item rest ih =>
      cases each with
      | cons head tail => exact .cons head (ih tail)

end Json

namespace Jsonb

open Json (Reordered)

theorem getKey_normalizeFields (fields : List (String × Json)) (key : String)
    : Json.getKey (normalizeFields fields) key = normalize (Json.getKey fields key) := by
  induction fields with
  | nil => rfl
  | cons field rest ih =>
      obtain ⟨name, value⟩ := field
      simp only [Json.getKey, normalizeFields, Dict.lookup_cons] at ih ⊢
      split
      · rfl
      · exact ih

/-- The fields of a stored object are stored one by one. -/
theorem ReadBack.fields {fields : List (String × Json)} {stored : Json}
    (readBack : ReadBack (.obj fields) stored) (distinct : (Dict.keys fields).Nodup)
    : ∃ others,
        stored = .obj others ∧ ∀ key, ReadBack (Json.getKey fields key) (Json.getKey others key) := by
  have keys : (Dict.keys (normalizeFields fields)).Nodup := by
    rw [normalizeFields_keys]
    exact distinct
  obtain ⟨others, same, each⟩ := Json.Reordered.fields readBack keys
  refine ⟨others, same, fun key => ?_⟩
  rw [ReadBack, ← getKey_normalizeFields]
  exact each key

theorem ReadBack.items {items : List Json} {stored : Json} (readBack : ReadBack (.arr items) stored)
    : ∃ others, stored = .arr others ∧ List.Forall₂ ReadBack items others := by
  have each (others : List Json) (order : List.Forall₂ Reordered (normalizeItems items) others)
      : List.Forall₂ ReadBack items others := by
    clear readBack
    induction items generalizing others with
    | nil =>
        cases order
        exact .nil
    | cons item rest ih =>
        cases order with
        | cons head tail => exact .cons head (ih _ tail)
  rw [ReadBack, normalize] at readBack
  cases readBack with
  | refl => exact ⟨_, rfl, each _ (List.forall₂_same.mpr (fun _ _ => .refl _))⟩
  | arr order => exact ⟨_, rfl, each _ order.forall₂⟩

section

variable {stored : Json}

theorem ReadBack.null (readBack : ReadBack .null stored) : stored = .null := by
  cases readBack
  rfl

theorem ReadBack.str {text : String} (readBack : ReadBack (.str text) stored)
    : stored = .str text := by
  cases readBack
  rfl

theorem ReadBack.int {value : Int} (readBack : ReadBack (.int value) stored)
    : stored = .int value := by
  cases readBack
  rfl

/-- A list of texts comes back as it is. -/
theorem ReadBack.strings {texts : List String}
    (readBack : ReadBack (.arr (texts.map .str)) stored)
    : stored = .arr (texts.map .str) := by
  obtain ⟨others, rfl, each⟩ := readBack.items
  clear readBack
  congr 1
  induction texts generalizing others with
  | nil =>
      cases each
      rfl
  | cons text rest ih =>
      cases each with
      | cons head tail => rw [List.map_cons, head.str, ih _ tail]

end

end Jsonb

end SecureMcp
