import Mathlib.Data.List.Perm.Subperm
import SecureMcp.Python.Equality
import SecureMcp.Python.Positions
import SecureMcp.Storage.Jsonb

/-! What values have in common that Python takes for equal, or that differ in the order of
their keys only: the objects that lie below them, and the texts in these.
-/

namespace SecureMcp

namespace Json

theorem pyEqFields_iff {fields others : List (String × Json)}
    : pyEqFields fields others = true
      ↔ ∀ key value,
          (key, value) ∈ fields
          → ∃ other, others.lookup key = some other ∧ value.pyEq other = true := by
  induction fields with
  | nil => simp [pyEqFields]
  | cons field rest ih =>
      obtain ⟨first, inner⟩ := field
      rw [pyEqFields, Bool.and_eq_true, ih]
      constructor
      · intro ⟨head, later⟩ key value member
        rcases List.mem_cons.mp member with same | member
        · cases same
          cases found : others.lookup first with
          | none => simp [found] at head
          | some other =>
              rw [found] at head
              exact ⟨other, rfl, head⟩
        · exact later key value member
      · intro all
        obtain ⟨other, found, head⟩ := all first inner List.mem_cons_self
        refine ⟨by rw [found]; exact head, ?_⟩
        intro key value member
        exact all key value (List.mem_cons_of_mem _ member)

theorem pyEqItems_iff {items others : List Json}
    : pyEqItems items others = true
      ↔ List.Forall₂ (fun item other => item.pyEq other = true) items others := by
  induction items generalizing others with
  | nil => cases others <;> simp [pyEqItems]
  | cons item rest ih =>
      cases others with
      | nil => simp [pyEqItems]
      | cons other more => rw [pyEqItems, Bool.and_eq_true, ih, List.forall₂_cons]

theorem obj_of_pyEq {fields : List (String × Json)} {value : Json}
    (same : (obj fields).pyEq value = true)
    : ∃ others,
        value = .obj others ∧ fields.length = others.length
        ∧ pyEqFields fields others = true := by
  cases value with
  | obj others =>
      rw [pyEq, Bool.and_eq_true, decide_eq_true_eq] at same
      exact ⟨others, rfl, same⟩
  | null | bool _ | int _ | float _ | str _ | arr _ => simp [pyEq, numeric?] at same

theorem arr_of_pyEq {items : List Json} {value : Json} (same : (arr items).pyEq value = true)
    : ∃ others, value = .arr others ∧ pyEqItems items others = true := by
  cases value with
  | arr others => exact ⟨others, rfl, by rwa [pyEq] at same⟩
  | null | bool _ | int _ | float _ | str _ | obj _ => simp [pyEq, numeric?] at same

theorem str_of_pyEq {text : String} {value : Json} (same : (str text).pyEq value = true)
    : value = .str text := by
  cases value with
  | str other => simpa [pyEq, eq_comm] using same
  | null | bool _ | int _ | float _ | arr _ | obj _ => simp [pyEq, numeric?] at same

theorem Numeric.eq_swap {left right : Numeric} (same : left.eq right = true)
    : right.eq left = true := by
  cases left <;> cases right <;> simp_all [Numeric.eq]

/-- A number equals the numbers of its value. -/
theorem pyEq_number_iff {left right : Json} {value : Numeric} (number : left.numeric? = some value)
    : left.pyEq right = true ↔ ∃ other, right.numeric? = some other ∧ value.eq other = true := by
  cases left with
  | null | str _ | arr _ | obj _ => cases number
  | bool _ | int _ | float _ =>
      cases found : right.numeric? with
      | none => cases right <;> simp_all [pyEq]
      | some other => cases right <;> simp_all [pyEq]

/-- Dictionaries of one size have the same keys if one has all keys of the other. -/
theorem keys_perm_of_pyEqFields {fields others : List (String × Json)}
    (distinct : (Dict.keys fields).Nodup) (size : fields.length = others.length)
    (same : pyEqFields fields others = true)
    : (Dict.keys fields).Perm (Dict.keys others) := by
  have inside : Dict.keys fields ⊆ Dict.keys others := by
    intro key member
    obtain ⟨⟨_, value⟩, there, rfl⟩ := List.mem_map.mp member
    obtain ⟨other, found, -⟩ := pyEqFields_iff.mp same _ value there
    exact List.mem_map.mpr ⟨_, Dict.mem_of_lookup found, rfl⟩
  refine (distinct.subperm inside).perm_of_length_le ?_
  simp [Dict.keys, size]

mutual

/-- Python's equality is symmetric, by recursion on the value. -/
theorem pyEq_symm (left right : Json) (first : left.DistinctKeys) (second : right.DistinctKeys)
    (same : left.pyEq right = true)
    : right.pyEq left = true := by
  cases left with
  | null => cases right <;> simp_all [pyEq, numeric?]
  | str text => rw [str_of_pyEq same, pyEq, decide_eq_true_eq]
  | bool value | int value =>
      obtain ⟨other, number, equal⟩ := (pyEq_number_iff rfl).mp same
      exact (pyEq_number_iff number).mpr ⟨_, rfl, Numeric.eq_swap equal⟩
  | float value =>
      cases value with
      | finite value | infinity negative =>
          obtain ⟨other, number, equal⟩ := (pyEq_number_iff rfl).mp same
          exact (pyEq_number_iff number).mpr ⟨_, rfl, Numeric.eq_swap equal⟩
      | nan =>
          obtain ⟨other, -, equal⟩ := (pyEq_number_iff rfl).mp same
          cases equal
  | arr items =>
      obtain ⟨others, rfl, each⟩ := arr_of_pyEq same
      rw [pyEq]
      exact pyEqItems_symm items others first second each
  | obj fields =>
      obtain ⟨others, rfl, size, each⟩ := obj_of_pyEq same
      rw [pyEq, Bool.and_eq_true, decide_eq_true_eq]
      refine ⟨size.symm, pyEqFields_iff.mpr fun key other member => ?_⟩
      have keys := keys_perm_of_pyEqFields first.1 size each
      obtain ⟨⟨_, value⟩, there, rfl⟩ :=
        List.mem_map.mp (keys.mem_iff.mpr (List.mem_map.mpr ⟨_, member, rfl⟩))
      have found := Dict.lookup_of_mem second.1 member
      exact ⟨value, Dict.lookup_of_mem first.1 there,
        pyEqFields_symm fields others first.2 second.2 each _ value other there found⟩
  termination_by structural left

theorem pyEqItems_symm (items others : List Json) (first : DistinctItems items)
    (second : DistinctItems others) (same : pyEqItems items others = true)
    : pyEqItems others items = true := by
  cases items with
  | nil => cases others <;> simp_all [pyEqItems]
  | cons item rest =>
      cases others with
      | nil => simp [pyEqItems] at same
      | cons other more =>
          rw [pyEqItems, Bool.and_eq_true] at same ⊢
          exact ⟨pyEq_symm item other first.1 second.1 same.1,
            pyEqItems_symm rest more first.2 second.2 same.2⟩
  termination_by structural items

theorem pyEqFields_symm (fields others : List (String × Json)) (first : DistinctFields fields)
    (second : DistinctFields others) (same : pyEqFields fields others = true)
    (key : String) (value other : Json) (member : (key, value) ∈ fields)
    (found : others.lookup key = some other)
    : other.pyEq value = true := by
  cases fields with
  | nil => cases member
  | cons field rest =>
      obtain ⟨name, inner⟩ := field
      obtain ⟨twin, found', equal⟩ := pyEqFields_iff.mp same key value member
      cases found.symm.trans found'
      rw [pyEqFields, Bool.and_eq_true] at same
      rcases List.mem_cons.mp member with here | later
      · obtain ⟨-, spelled⟩ := Prod.mk.inj here
        rw [spelled] at equal ⊢
        exact pyEq_symm inner other first.1 (second.of_mem (Dict.mem_of_lookup found)) equal
      · exact pyEqFields_symm rest others first.2 second same.2 key value other later found
  termination_by structural fields

end

mutual

/-- A value without a NaN equals itself, by recursion on it. -/
theorem pyEq_refl (value : Json) (distinct : value.DistinctKeys)
    (finite : CanonicalJson.finite value = true)
    : value.pyEq value = true := by
  cases value with
  | null => rfl
  | str text => simp [pyEq]
  | bool value | int value => simp [pyEq, numeric?, Numeric.eq]
  | float value =>
      cases value with
      | finite value => simp [pyEq, numeric?, Numeric.eq]
      | infinity _ | nan => cases finite
  | arr items =>
      rw [pyEq]
      exact pyEqItems_refl items distinct finite
  | obj fields =>
      rw [pyEq, Bool.and_eq_true]
      refine ⟨by simp, pyEqFields_iff.mpr fun key value member => ?_⟩
      exact ⟨value, Dict.lookup_of_mem distinct.1 member,
        pyEqFields_refl fields distinct.2 finite key value member⟩
  termination_by structural value

theorem pyEqItems_refl (items : List Json) (distinct : DistinctItems items)
    (finite : CanonicalJson.finiteItems items = true)
    : pyEqItems items items = true := by
  cases items with
  | nil => rfl
  | cons item rest =>
      rw [CanonicalJson.finiteItems, Bool.and_eq_true] at finite
      rw [pyEqItems, Bool.and_eq_true]
      exact ⟨pyEq_refl item distinct.1 finite.1, pyEqItems_refl rest distinct.2 finite.2⟩
  termination_by structural items

theorem pyEqFields_refl (fields : List (String × Json)) (distinct : DistinctFields fields)
    (finite : CanonicalJson.finiteFields fields = true) (key : String) (value : Json)
    (member : (key, value) ∈ fields)
    : value.pyEq value = true := by
  cases fields with
  | nil => cases member
  | cons field rest =>
      obtain ⟨name, inner⟩ := field
      rw [CanonicalJson.finiteFields, Bool.and_eq_true] at finite
      rcases List.mem_cons.mp member with here | later
      · obtain ⟨-, spelled⟩ := Prod.mk.inj here
        rw [spelled]
        exact pyEq_refl inner distinct.1 finite.1
      · exact pyEqFields_refl rest distinct.2 finite.2 key value later
  termination_by structural fields

end

theorem ReorderedFields.keys {fields others : List (String × Json)}
    (each : ReorderedFields fields others)
    : Dict.keys others = Dict.keys fields := by
  induction fields generalizing others with
  | nil =>
      cases each
      rfl
  | cons field rest ih =>
      cases each with
      | cons head tail => simpa [Dict.keys] using ih tail

theorem ReorderedFields.nodup_perm {fields inner others : List (String × Json)}
    (each : ReorderedFields fields inner) (order : inner.Perm others)
    (distinct : (Dict.keys fields).Nodup)
    : (Dict.keys others).Nodup := by
  rw [← each.keys] at distinct
  exact (order.map Prod.fst).nodup_iff.mp distinct

theorem distinctFields_perm {fields others : List (String × Json)} (order : fields.Perm others)
    (distinct : DistinctFields fields)
    : DistinctFields others := by
  induction order with
  | nil => trivial
  | cons field _ ih => exact ⟨distinct.1, ih distinct.2⟩
  | swap first second rest => exact ⟨distinct.2.1, distinct.1, distinct.2.2⟩
  | trans _ _ first second => exact second (first distinct)

mutual

/-- A reordered dictionary still has distinct keys, at any depth. -/
theorem Reordered.distinct {value other : Json} (order : Reordered value other)
    (distinct : value.DistinctKeys)
    : other.DistinctKeys :=
  match order with
  | .refl _ => distinct
  | .arr each => each.distinct distinct
  | .obj each perm =>
      ⟨each.nodup_perm perm distinct.1, distinctFields_perm perm (each.distinct distinct.2)⟩

theorem ReorderedItems.distinct {items others : List Json} (each : ReorderedItems items others)
    (distinct : DistinctItems items)
    : DistinctItems others :=
  match each with
  | .nil => trivial
  | .cons head tail => ⟨head.distinct distinct.1, tail.distinct distinct.2⟩

theorem ReorderedFields.distinct {fields others : List (String × Json)}
    (each : ReorderedFields fields others) (distinct : DistinctFields fields)
    : DistinctFields others :=
  match each with
  | .nil => trivial
  | .cons head tail => ⟨head.distinct distinct.1, tail.distinct distinct.2⟩

end

mutual

/-- A reordered value equals the original for Python, by induction on the reordering. -/
theorem Reordered.pyEq {value other : Json} (order : Reordered value other)
    (distinct : value.DistinctKeys) (finite : CanonicalJson.finite value = true)
    : value.pyEq other = true :=
  match order with
  | .refl value => pyEq_refl value distinct finite
  | .arr each => by
      rw [Json.pyEq]
      exact each.pyEq distinct finite
  | @Reordered.obj fields inner reordered each perm => by
      have keys : (Dict.keys reordered).Nodup := each.nodup_perm perm distinct.1
      have size : fields.length = reordered.length := by
        rw [← perm.length_eq]
        simpa [Dict.keys] using (congrArg List.length each.keys).symm
      rw [Json.pyEq, Bool.and_eq_true, decide_eq_true_eq]
      refine ⟨size, pyEqFields_iff.mpr fun key value member => ?_⟩
      obtain ⟨other, there, same⟩ := each.pyEq distinct.2 finite key value member
      exact ⟨other, Dict.lookup_of_mem keys (perm.mem_iff.mp there), same⟩

theorem ReorderedItems.pyEq {items others : List Json} (each : ReorderedItems items others)
    (distinct : DistinctItems items) (finite : CanonicalJson.finiteItems items = true)
    : pyEqItems items others = true :=
  match each with
  | .nil => rfl
  | .cons head tail => by
      rw [CanonicalJson.finiteItems, Bool.and_eq_true] at finite
      rw [pyEqItems, Bool.and_eq_true]
      exact ⟨head.pyEq distinct.1 finite.1, tail.pyEq distinct.2 finite.2⟩

theorem ReorderedFields.pyEq {fields others : List (String × Json)}
    (each : ReorderedFields fields others) (distinct : DistinctFields fields)
    (finite : CanonicalJson.finiteFields fields = true) (key : String) (value : Json)
    (member : (key, value) ∈ fields)
    : ∃ other, (key, other) ∈ others ∧ value.pyEq other = true :=
  match each with
  | .nil => by cases member
  | @ReorderedFields.cons name inner other rest more head tail => by
      rw [CanonicalJson.finiteFields, Bool.and_eq_true] at finite
      rcases List.mem_cons.mp member with here | later
      · cases here
        exact ⟨other, List.mem_cons_self, head.pyEq distinct.1 finite.1⟩
      · obtain ⟨twin, there, same⟩ := tail.pyEq distinct.2 finite.2 key value later
        exact ⟨twin, List.mem_cons_of_mem _ there, same⟩

end

/-- Below equal values lie equal values at the same positions, by induction on the path. -/
theorem Within.of_pyEq {path : List Segment} {left right found : Json}
    (below : Within path left found) (same : left.pyEq right = true)
    : ∃ other, Within path right other ∧ found.pyEq other = true := by
  induction below generalizing right with
  | here value => exact ⟨right, .here right, same⟩
  | field member _ ih =>
      obtain ⟨others, rfl, -, each⟩ := obj_of_pyEq same
      obtain ⟨twin, there, equal⟩ := pyEqFields_iff.mp each _ _ member
      obtain ⟨other, below, found⟩ := ih equal
      exact ⟨other, .field (Dict.mem_of_lookup there) below, found⟩
  | @item path items index inner found member _ ih =>
      obtain ⟨others, rfl, each⟩ := arr_of_pyEq same
      have all := pyEqItems_iff.mp each
      obtain ⟨inside, at_⟩ := List.getElem?_eq_some_iff.mp member
      have bound : index < others.length := all.length_eq ▸ inside
      have equal := all.get inside bound
      rw [List.get_eq_getElem, List.get_eq_getElem, at_] at equal
      obtain ⟨other, below, found⟩ := ih equal
      exact ⟨other, .item (List.getElem?_eq_getElem bound) below, found⟩

theorem getKey_of_pyEqFields {fields others : List (String × Json)} {key text : String}
    (same : pyEqFields fields others = true) (has : getKey fields key = .str text)
    : getKey others key = .str text := by
  unfold getKey at has ⊢
  cases found : fields.lookup key with
  | none => simp [found] at has
  | some value =>
      obtain ⟨other, there, equal⟩ :=
        pyEqFields_iff.mp same key value (Dict.mem_of_lookup found)
      rw [found, Option.getD_some] at has
      rw [has] at equal
      rw [there, Option.getD_some, str_of_pyEq equal]

end Json

end SecureMcp
