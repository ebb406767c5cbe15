import SecureMcp.Python.Likeness
import SecureMcp.Storage.ReadBack

/-! The values that a JSONB column gives back with their canonical text: those without a float
that is respelled. They come back reordered at most, and come back so as often as they are
stored.
-/

namespace SecureMcp

namespace Jsonb

open Json (Reordered ReorderedItems ReorderedFields)

theorem unstableFields_perm {fields others : List (String × Json)} (order : fields.Perm others)
    (stable : unstableFields fields = [])
    : unstableFields others = [] := by
  induction order with
  | nil => rfl
  | cons field _ ih =>
      obtain ⟨head, tail⟩ := List.append_eq_nil_iff.mp stable
      exact List.append_eq_nil_iff.mpr ⟨head, ih tail⟩
  | swap first second rest =>
      obtain ⟨head, tail⟩ := List.append_eq_nil_iff.mp stable
      obtain ⟨next, later⟩ := List.append_eq_nil_iff.mp tail
      exact List.append_eq_nil_iff.mpr ⟨next, List.append_eq_nil_iff.mpr ⟨head, later⟩⟩
  | trans _ _ first second => exact second (first stable)

mutual

/-- Reordering brings no float in, by induction on it. -/
theorem unstableFloats_reordered {value other : Json} (order : Reordered value other)
    (stable : unstableFloats value = [])
    : unstableFloats other = [] :=
  match order with
  | .refl _ => stable
  | .arr each => unstableItems_reordered each stable
  | .obj each perm => unstableFields_perm perm (unstableFields_reordered each stable)

theorem unstableItems_reordered {items others : List Json} (each : ReorderedItems items others)
    (stable : unstableItems items = [])
    : unstableItems others = [] :=
  match each with
  | .nil => rfl
  | .cons head tail => by
      obtain ⟨first, rest⟩ := List.append_eq_nil_iff.mp stable
      exact List.append_eq_nil_iff.mpr
        ⟨unstableFloats_reordered head first, unstableItems_reordered tail rest⟩

theorem unstableFields_reordered {fields others : List (String × Json)}
    (each : ReorderedFields fields others) (stable : unstableFields fields = [])
    : unstableFields others = [] :=
  match each with
  | .nil => rfl
  | .cons head tail => by
      obtain ⟨first, rest⟩ := List.append_eq_nil_iff.mp stable
      exact List.append_eq_nil_iff.mpr
        ⟨unstableFloats_reordered head first, unstableFields_reordered tail rest⟩

end

/-- A value comes back from a column with its canonical text. -/
structure Survives (value : Json) : Prop where
  distinct : value.DistinctKeys
  stable : unstableFloats value = []

section

variable {value stored : Json}

theorem Survives.reordered (survives : Survives value) (readBack : ReadBack value stored)
    : Reordered value stored := by
  rw [ReadBack, normalize_of_stable value survives.stable] at readBack
  exact readBack

theorem Survives.readBack (survives : Survives value) (readBack : ReadBack value stored)
    : Survives stored :=
  have order := survives.reordered readBack
  ⟨order.distinct survives.distinct, unstableFloats_reordered order survives.stable⟩

theorem Survives.hash (survives : Survives value) (readBack : ReadBack value stored)
    {text : String} (hashed : CanonicalJson.hash value = .ok text)
    : CanonicalJson.hash stored = .ok text := by
  obtain ⟨printed, encoded, rfl⟩ := CanonicalJson.hash_ok hashed
  have again := CanonicalJson.encode_reordered (survives.reordered readBack) survives.distinct encoded
  rw [CanonicalJson.hash, again]
  rfl

theorem Survives.pyEq (survives : Survives value) (readBack : ReadBack value stored)
    {text : String} (hashed : CanonicalJson.hash value = .ok text)
    : value.pyEq stored = true := by
  obtain ⟨printed, encoded, -⟩ := CanonicalJson.hash_ok hashed
  exact (survives.reordered readBack).pyEq survives.distinct (CanonicalJson.finite_of_encode encoded)

end

end Jsonb

end SecureMcp
