import Mathlib.Data.List.Forall2
import Mathlib.Data.List.Nodup
import Mathlib.Data.Option.Basic

/-! Lists of rows that are found by a key. Where the keys are distinct, every row is the one
found under its key, in whatever order the rows are listed.
-/

namespace Keyed

variable {κ α β : Type} [DecidableEq κ] {key : α → κ} {rows others : List α} {row : α}

/-- The first row under a key. -/
def find (key : α → κ) (rows : List α) (wanted : κ) : Option α :=
  rows.find? (fun row => key row = wanted)

theorem find_key {wanted : κ} (found : find key rows wanted = some row)
    : key row = wanted := by
  simpa using List.find?_some found

theorem find_mem {wanted : κ} (found : find key rows wanted = some row) : row ∈ rows :=
  List.mem_of_find?_eq_some found

theorem find_eq_none_iff {wanted : κ}
    : find key rows wanted = none ↔ wanted ∉ rows.map key := by
  simp [find, List.find?_eq_none]

theorem find_cons (row : α) (rest : List α) (wanted : κ)
    : find key (row :: rest) wanted
      = if key row = wanted then some row else find key rest wanted := by
  unfold find
  rw [List.find?_cons]
  by_cases here : key row = wanted <;> simp [here]

theorem find_append (key : α → κ) (rows others : List α) (wanted : κ)
    : find key (rows ++ others) wanted
      = (find key rows wanted).or (find key others wanted) := by
  simp [find, List.find?_append]

/-- With distinct keys every row is the one found under its key, by induction on the rows.
-/
theorem find_of_mem (distinct : (rows.map key).Nodup) (member : row ∈ rows)
    : find key rows (key row) = some row := by
  induction rows with
  | nil => cases member
  | cons first rest ih =>
      rw [List.map_cons, List.nodup_cons] at distinct
      rw [find_cons]
      rcases List.mem_cons.mp member with same | later
      · rw [same, if_pos rfl]
      · have other : key first ≠ key row := by
          intro same
          exact distinct.1 (List.mem_map.mpr ⟨row, later, same.symm⟩)
        rw [if_neg other]
        exact ih distinct.2 later

/-- With distinct keys the order of the rows does not matter. -/
theorem find_perm (distinct : (rows.map key).Nodup) (same : rows.Perm others) (wanted : κ)
    : find key others wanted = find key rows wanted := by
  have otherDistinct : (others.map key).Nodup := (same.map key).nodup_iff.mp distinct
  cases found : find key rows wanted with
  | some row =>
      have member := same.mem_iff.mp (find_mem found)
      rw [← find_key found]
      exact find_of_mem otherDistinct member
  | none =>
      rw [find_eq_none_iff] at found ⊢
      intro member
      exact found ((same.map key).mem_iff.mpr member)

/-- Rows that are related one by one are found as related ones, by induction on the rows. -/
theorem find_forall₂ {related : α → α → Prop}
    (sameKey : ∀ row other, related row other → key other = key row)
    (each : List.Forall₂ related rows others) (wanted : κ)
    : Option.Rel related (find key rows wanted) (find key others wanted) := by
  induction each with
  | nil => exact .none
  | cons head tail ih =>
      rw [find_cons, find_cons, sameKey _ _ head]
      split
      · exact .some head
      · exact ih

/-- Changing rows under their keys changes what is found under each key. -/
theorem find_map {change : α → α} (sameKey : ∀ row, key (change row) = key row)
    (rows : List α) (wanted : κ)
    : find key (rows.map change) wanted = (find key rows wanted).map change := by
  induction rows with
  | nil => rfl
  | cons first rest ih =>
      rw [List.map_cons, find_cons, find_cons, sameKey, ih]
      split <;> rfl

omit [DecidableEq κ] in
/-- Rows that are related one by one have the same keys, by induction on the rows. -/
theorem map_key_forall₂ {related : α → α → Prop}
    (sameKey : ∀ row other, related row other → key other = key row)
    (each : List.Forall₂ related rows others)
    : others.map key = rows.map key := by
  induction each with
  | nil => rfl
  | cons head _ ih => rw [List.map_cons, List.map_cons, sameKey _ _ head, ih]

omit [DecidableEq κ] in
/-- Changing rows under their keys keeps the keys. -/
theorem map_key_map {change : α → α} (sameKey : ∀ row, key (change row) = key row)
    (rows : List α)
    : (rows.map change).map key = rows.map key := by
  rw [List.map_map]
  exact List.map_congr_left (fun row _ => sameKey row)

end Keyed
