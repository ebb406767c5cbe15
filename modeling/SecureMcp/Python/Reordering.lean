import SecureMcp.Python.CanonicalJson

/-! Canonical text does not depend on the key order of any object, at any depth, provided
every object has distinct keys, as Python dictionaries have.
-/

namespace SecureMcp

namespace Json

mutual

/-- Every object in the value has distinct keys. -/
def DistinctKeys : Json → Prop
  | .arr items => DistinctItems items
  | .obj fields => (Dict.keys fields).Nodup ∧ DistinctFields fields
  | _ => True

def DistinctItems : List Json → Prop
  | [] => True
  | item :: rest => DistinctKeys item ∧ DistinctItems rest

def DistinctFields : List (String × Json) → Prop
  | [] => True
  | (_, value) :: rest => DistinctKeys value ∧ DistinctFields rest

end

mutual

/-- The right value is the left one with the fields of its objects in any order. -/
inductive Reordered : Json → Json → Prop
  | refl (value : Json) : Reordered value value
  | arr {items reordered : List Json} (each : ReorderedItems items reordered)
    : Reordered (.arr items) (.arr reordered)
  | obj {fields inner reordered : List (String × Json)} (each : ReorderedFields fields inner)
    (order : inner.Perm reordered)
    : Reordered (.obj fields) (.obj reordered)

inductive ReorderedItems : List Json → List Json → Prop
  | nil : ReorderedItems [] []
  | cons {item other : Json} {rest more : List Json} (head : Reordered item other)
    (tail : ReorderedItems rest more)
    : ReorderedItems (item :: rest) (other :: more)

inductive ReorderedFields : List (String × Json) → List (String × Json) → Prop
  | nil : ReorderedFields [] []
  | cons {key : String} {value other : Json} {rest more : List (String × Json)}
    (head : Reordered value other) (tail : ReorderedFields rest more)
    : ReorderedFields ((key, value) :: rest) ((key, other) :: more)

end

/-- Neither a list nor an object. -/
def atomic : Json → Bool
  | .arr _ | .obj _ => false
  | _ => true

/-- A value without parts has no other order. -/
theorem Reordered.eq_of_atomic {value first second : Json} (one : Reordered value first)
    (two : Reordered value second) (isAtomic : first.atomic)
    : second = first := by
  cases one with
  | refl =>
      cases two with
      | refl => rfl
      | arr | obj => cases isAtomic
  | arr | obj => cases isAtomic

end Json

namespace CanonicalJson

/-- A pair prints exactly when its value and all later fields do. -/
theorem fieldChars_cons {key : String} {value : Json} {rest : List (String × Json)}
    {entries : List (String × List Char)}
    : fieldChars ((key, value) :: rest) = .ok entries
      ↔ ∃ text texts,
          chars value = .ok text
          ∧ fieldChars rest = .ok texts
          ∧ entries = (key, text) :: texts := by
  rw [fieldChars]
  cases head : chars value with
  | error exn => simp [bind, Except.bind]
  | ok text =>
      cases tail : fieldChars rest with
      | error exn => simp [bind, Except.bind]
      | ok texts => simp [bind, Except.bind, pure, Except.pure, eq_comm]

/-- An item prints exactly when it and all later items do. -/
theorem itemChars_cons {item : Json} {rest : List Json} {texts : List (List Char)}
    : itemChars (item :: rest) = .ok texts
      ↔ ∃ text more,
          chars item = .ok text ∧ itemChars rest = .ok more ∧ texts = text :: more := by
  rw [itemChars]
  cases head : chars item with
  | error exn => simp [bind, Except.bind]
  | ok text =>
      cases tail : itemChars rest with
      | error exn => simp [bind, Except.bind]
      | ok more => simp [bind, Except.bind, pure, Except.pure, eq_comm]

theorem chars_obj {fields : List (String × Json)} {text : List Char}
    : chars (.obj fields) = .ok text
      ↔ ∃ entries,
          fieldChars fields = .ok entries
          ∧ text = '\x7b' :: (joined ((sorted entries).map member) ++ ['\x7d']) := by
  rw [chars]
  cases fieldChars fields with
  | error exn => simp [bind, Except.bind]
  | ok entries => simp [bind, Except.bind, pure, Except.pure, eq_comm]

theorem chars_arr {items : List Json} {text : List Char}
    : chars (.arr items) = .ok text
      ↔ ∃ texts, itemChars items = .ok texts ∧ text = '[' :: (joined texts ++ [']']) := by
  rw [chars]
  cases itemChars items with
  | error exn => simp [bind, Except.bind]
  | ok texts => simp [bind, Except.bind, pure, Except.pure, eq_comm]

/-- Printing keeps the keys of the fields, by induction on them. -/
theorem fieldChars_keys {fields : List (String × Json)} {entries : List (String × List Char)}
    (printed : fieldChars fields = .ok entries)
    : Dict.keys entries = Dict.keys fields := by
  induction fields generalizing entries with
  | nil =>
      cases printed
      rfl
  | cons field rest ih =>
      obtain ⟨text, texts, _, later, same⟩ := fieldChars_cons.mp printed
      subst same
      simp only [Dict.keys, List.map_cons] at ih ⊢
      rw [ih later]

/-- Permuted fields print to permuted members, by induction on the permutation. -/
theorem fieldChars_perm {fields reordered : List (String × Json)}
    (order : fields.Perm reordered) {entries : List (String × List Char)}
    (printed : fieldChars fields = .ok entries)
    : ∃ others, fieldChars reordered = .ok others ∧ entries.Perm others := by
  induction order generalizing entries with
  | nil => exact ⟨entries, printed, .rfl⟩
  | cons field _ ih =>
      obtain ⟨text, texts, head, tail, same⟩ := fieldChars_cons.mp printed
      obtain ⟨others, later, perm⟩ := ih tail
      exact ⟨(field.1, text) :: others, fieldChars_cons.mpr ⟨text, others, head, later, rfl⟩,
        same ▸ perm.cons _⟩
  | swap first second rest =>
      obtain ⟨text, texts, head, tail, same⟩ := fieldChars_cons.mp printed
      obtain ⟨next, texts', head', tail', same'⟩ := fieldChars_cons.mp tail
      subst same same'
      refine ⟨(first.1, next) :: (second.1, text) :: texts', ?_, .swap _ _ _⟩
      exact fieldChars_cons.mpr ⟨next, _, head',
        fieldChars_cons.mpr ⟨text, texts', head, tail', rfl⟩, rfl⟩
  | trans _ _ first second =>
      obtain ⟨middle, printedMiddle, left⟩ := first printed
      obtain ⟨others, printedOthers, right⟩ := second printedMiddle
      exact ⟨others, printedOthers, left.trans right⟩

/-- Members with distinct keys sort to one list in whatever order they come: two members
that are each before the other have one key.
-/
theorem sorted_perm {entries others : List (String × List Char)}
    (perm : entries.Perm others) (distinct : (Dict.keys entries).Nodup)
    : sorted entries = sorted others := by
  have ordered (list : List (String × List Char))
      : (sorted list).Pairwise (fun left right => left.1 ≤ right.1) := by
    have trans : IsTrans (String × List Char) (fun left right => left.1 ≤ right.1) :=
      ⟨fun _ _ _ => String.le_trans⟩
    have total : Std.Total (fun left right : String × List Char => left.1 ≤ right.1) :=
      ⟨fun left right => String.le_total left.1 right.1⟩
    exact List.pairwise_insertionSort _ list
  have same : (sorted entries).Perm (sorted others) :=
    (List.perm_insertionSort _ entries).trans
      (perm.trans (List.perm_insertionSort _ others).symm)
  refine same.eq_of_pairwise ?_ (ordered entries) (ordered others)
  intro left right leftMember rightMember before after
  have first : left ∈ entries := (List.perm_insertionSort _ entries).mem_iff.mp leftMember
  have second : right ∈ entries :=
    perm.mem_iff.mpr ((List.perm_insertionSort _ others).mem_iff.mp rightMember)
  have key : left.1 = right.1 := String.le_antisymm before after
  have found : entries.lookup left.1 = some left.2 := Dict.lookup_of_mem distinct first
  have found' : entries.lookup right.1 = some right.2 := Dict.lookup_of_mem distinct second
  rw [key, found'] at found
  exact Prod.ext key (Option.some.inj found).symm

mutual

/-- Reordered values print alike, by induction on the reordering. -/
theorem chars_reordered {value other : Json} (order : Json.Reordered value other)
    (distinct : value.DistinctKeys) {text : List Char} (printed : chars value = .ok text)
    : chars other = .ok text :=
  match order with
  | .refl _ => printed
  | .arr each => by
      obtain ⟨texts, inner, same⟩ := chars_arr.mp printed
      have later := itemChars_reordered each distinct inner
      exact chars_arr.mpr ⟨texts, later, same⟩
  | .obj each perm => by
      obtain ⟨entries, inner, same⟩ := chars_obj.mp printed
      have moved := fieldChars_reordered each distinct.2 inner
      obtain ⟨others, found, reordered⟩ := fieldChars_perm perm moved
      have keys : (Dict.keys entries).Nodup := (fieldChars_keys inner).symm ▸ distinct.1
      exact chars_obj.mpr ⟨others, found, by rw [same, sorted_perm reordered keys]⟩

theorem itemChars_reordered {items others : List Json}
    (order : Json.ReorderedItems items others) (distinct : Json.DistinctItems items)
    {texts : List (List Char)} (printed : itemChars items = .ok texts)
    : itemChars others = .ok texts :=
  match order with
  | .nil => printed
  | .cons head tail => by
      obtain ⟨text, more, first, rest, same⟩ := itemChars_cons.mp printed
      have here := chars_reordered head distinct.1 first
      have later := itemChars_reordered tail distinct.2 rest
      exact itemChars_cons.mpr ⟨text, more, here, later, same⟩

theorem fieldChars_reordered {fields others : List (String × Json)}
    (order : Json.ReorderedFields fields others) (distinct : Json.DistinctFields fields)
    {entries : List (String × List Char)} (printed : fieldChars fields = .ok entries)
    : fieldChars others = .ok entries :=
  match order with
  | .nil => printed
  | .cons head tail => by
      obtain ⟨text, more, first, rest, same⟩ := fieldChars_cons.mp printed
      have here := chars_reordered head distinct.1 first
      have later := fieldChars_reordered tail distinct.2 rest
      exact fieldChars_cons.mpr ⟨text, more, here, later, same⟩

end

/-- Reordered values have one canonical text. -/
theorem encode_reordered {value other : Json} (order : Json.Reordered value other)
    (distinct : value.DistinctKeys) {text : String} (printed : encode value = .ok text)
    : encode other = .ok text := by
  unfold encode at printed ⊢
  cases found : chars value with
  | error exn => simp [found, bind, Except.bind] at printed
  | ok inner => rwa [chars_reordered order distinct found, ← found]

end CanonicalJson

end SecureMcp
