import SecureMcp.Python.Reordering

/-! Python's equality is not reflexive: a value with a NaN inside differs from itself. It
then differs from every other value too.
-/

namespace SecureMcp

namespace Json

theorem Numeric.eq_self {left right : Numeric} (same : left.eq right = true)
    : left.eq left = true := by
  cases left <;> cases right <;> simp_all [Numeric.eq]

theorem numeric_eq_self {left right : Json}
    (same : (match left.numeric?, right.numeric? with
      | some left, some right => left.eq right
      | _, _ => false) = true)
    : (match left.numeric?, left.numeric? with
      | some left, some right => left.eq right
      | _, _ => false) = true := by
  cases first : left.numeric? with
  | none => simp [first] at same
  | some value =>
      cases second : right.numeric? with
      | none => simp [first, second] at same
      | some other =>
          rw [first, second] at same
          exact Numeric.eq_self same

mutual

/-- A value that equals anything equals itself, by recursion on the value. -/
theorem pyEq_self (left right : Json) (distinct : left.DistinctKeys)
    (same : left.pyEq right = true)
    : left.pyEq left = true := by
  cases left with
  | null => rfl
  | str text => simp [pyEq]
  | bool value => cases right <;> simp_all [pyEq, numeric?, Numeric.eq]
  | int value => cases right <;> simp_all [pyEq, numeric?, Numeric.eq]
  | float value =>
      rw [pyEq.eq_def] at same ⊢
      cases right <;> simp only at same ⊢ <;> exact numeric_eq_self same
  | arr items =>
      cases right with
      | arr others =>
          rw [pyEq] at same ⊢
          exact pyEqItems_self items others distinct same
      | null | bool _ | int _ | float _ | str _ | obj _ => simp [pyEq, numeric?] at same
  | obj fields =>
      cases right with
      | obj others =>
          rw [pyEq, Bool.and_eq_true] at same
          rw [pyEq, Bool.and_eq_true]
          refine ⟨by simp, pyEqFields_self fields others fields distinct.2 ?_ same.2⟩
          intro key value member
          exact Dict.lookup_of_mem distinct.1 member
      | null | bool _ | int _ | float _ | str _ | arr _ => simp [pyEq, numeric?] at same
  termination_by structural left

theorem pyEqItems_self (items others : List Json) (distinct : DistinctItems items)
    (same : pyEqItems items others = true)
    : pyEqItems items items = true := by
  cases items with
  | nil => rfl
  | cons item rest =>
      cases others with
      | nil => simp [pyEqItems] at same
      | cons other more =>
          rw [pyEqItems, Bool.and_eq_true] at same ⊢
          exact ⟨pyEq_self item other distinct.1 same.1,
            pyEqItems_self rest more distinct.2 same.2⟩
  termination_by structural items

theorem pyEqFields_self (fields others whole : List (String × Json))
    (distinct : DistinctFields fields)
    (inside : ∀ key value, (key, value) ∈ fields → whole.lookup key = some value)
    (same : pyEqFields fields others = true)
    : pyEqFields fields whole = true := by
  cases fields with
  | nil => rfl
  | cons field rest =>
      obtain ⟨key, value⟩ := field
      rw [pyEqFields, Bool.and_eq_true] at same ⊢
      refine ⟨?_, pyEqFields_self rest others whole distinct.2 ?_ same.2⟩
      · rw [inside key value List.mem_cons_self]
        cases found : others.lookup key with
        | none => simp [found] at same
        | some other =>
            rw [found] at same
            exact pyEq_self value other distinct.1 same.1
      · intro name inner member
        exact inside name inner (List.mem_cons_of_mem _ member)
  termination_by structural fields

end

/-- A value that differs from itself differs from every value. -/
theorem pyEq_eq_false {value other : Json} (distinct : value.DistinctKeys)
    (odd : value.pyEq value = false)
    : value.pyEq other = false := by
  by_contra equal
  have same := pyEq_self value other distinct (by simpa using equal)
  rw [odd] at same
  cases same

theorem DistinctFields.of_mem {fields : List (String × Json)} {key : String} {value : Json}
    (distinct : DistinctFields fields) (member : (key, value) ∈ fields)
    : value.DistinctKeys := by
  induction fields with
  | nil => cases member
  | cons field rest ih =>
      rcases List.mem_cons.mp member with same | member
      · cases same
        exact distinct.1
      · exact ih distinct.2 member

theorem DistinctKeys.getKey {fields : List (String × Json)} (distinct : (obj fields).DistinctKeys)
    (key : String)
    : (getKey fields key).DistinctKeys := by
  unfold Json.getKey
  cases found : fields.lookup key with
  | none => exact trivial
  | some value => exact distinct.2.of_mem (Dict.mem_of_lookup found)

end Json

namespace CanonicalJson

theorem finite_obj {fields : List (String × Json)}
    : finite (.obj fields) = true
      ↔ ∀ key value, (key, value) ∈ fields → finite value = true := by
  rw [finite]
  induction fields with
  | nil => simp [finiteFields]
  | cons field rest ih =>
      obtain ⟨key, value⟩ := field
      rw [finiteFields, Bool.and_eq_true, ih]
      constructor
      · rintro ⟨head, later⟩ name inner member
        rcases List.mem_cons.mp member with same | member
        · cases same
          exact head
        · exact later name inner member
      · intro all
        exact ⟨all key value List.mem_cons_self,
          fun name inner member => all name inner (List.mem_cons_of_mem _ member)⟩

end CanonicalJson

end SecureMcp
