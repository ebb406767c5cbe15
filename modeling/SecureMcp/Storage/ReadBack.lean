import Mathlib
import SecureMcp.Storage.Jsonb

/-! A stored value prints to the canonical text of the value that was sent exactly when no
float in it is respelled: respelling a float drops an `e` or a sign from the text, and
nothing puts one back.
-/

namespace SecureMcp

namespace Jsonb

open CanonicalJson

/-- The characters that respelling a float can drop. -/
def tally (text : List Char) : Nat :=
  text.countP (fun char => char = 'e' || char = '-')

@[simp] theorem tally_nil : tally [] = 0 :=
  rfl

@[simp] theorem tally_cons (char : Char) (text : List Char)
    : tally (char :: text) = tally text + if char = 'e' || char = '-' then 1 else 0 :=
  List.countP_cons

@[simp] theorem tally_append (left right : List Char)
    : tally (left ++ right) = tally left + tally right :=
  List.countP_append

/-- Digits are not tallied. -/
theorem tally_toString (number : Nat) : tally (toString number).toList = 0 := by
  rw [tally, List.countP_eq_zero]
  intro char member
  have digit : char.isDigit := by
    refine Nat.isDigit_of_mem_toDigits (b := 10) (by decide) (by decide) (n := number) ?_
    simpa [Nat.toList_repr] using member
  intro marked
  rcases (by simpa using marked : char = 'e' ∨ char = '-') with same | same
  · rw [same] at digit
    exact absurd digit (by decide)
  · rw [same] at digit
    exact absurd digit (by decide)

theorem tally_mantissa (digits : List Char)
    : tally (FiniteFloat.mantissa digits) = tally digits := by
  rcases digits with _ | ⟨first, _ | ⟨second, rest⟩⟩ <;> simp [FiniteFloat.mantissa]

theorem tally_exponentDigits {exponent : Int} (nonneg : 0 ≤ exponent)
    : tally (FiniteFloat.exponentDigits exponent) = 0 := by
  have digits := tally_toString exponent.natAbs
  have sign : ¬ exponent < 0 := by omega
  simp only [FiniteFloat.exponentDigits, sign, if_false, tally_cons]
  split
  · simpa using digits
  · simpa using digits

/-- An integer is tallied for its sign only. -/
theorem tally_toString_int (number : Int)
    : tally (toString number).toList = if number < 0 then 1 else 0 := by
  rw [Int.toString_eq_repr, Int.repr_eq_if]
  by_cases sign : 0 ≤ number
  · have digits := tally_toString number.toNat
    rw [if_pos sign, if_neg (by omega)]
    simpa using digits
  · have digits := tally_toString (-number).toNat
    rw [if_neg sign, if_pos (by omega)]
    simpa using digits

/-- A float of large magnitude prints one `e` more than the integer it stands for. -/
theorem tally_repr_of_isLarge {float : FiniteFloat} (large : float.isLarge)
    : tally float.repr = tally (toString float.toInt).toList + 1 := by
  obtain ⟨nonzero, position⟩ : float.digits ≠ 0 ∧ 16 < float.pointPosition := by
    simpa [FiniteFloat.isLarge] using large
  have exponent : 0 ≤ float.pointPosition - 1 := by omega
  have positive : 0 < float.digits * 10 ^ float.exponent.toNat :=
    Nat.mul_pos (Nat.pos_of_ne_zero nonzero) (Nat.pow_pos (by decide))
  have printed : tally float.repr = (if float.negative then 1 else 0) + 1 := by
    simp only [FiniteFloat.repr, large, Bool.true_or, if_true, tally_append, tally_cons,
      tally_mantissa, tally_toString, tally_exponentDigits exponent]
    cases float.negative <;> rfl
  have sign : float.toInt < 0 ↔ float.negative := by
    unfold FiniteFloat.toInt
    generalize float.digits * 10 ^ float.exponent.toNat = magnitude at positive
    cases float.negative with
    | true => simpa using positive
    | false => simp
  rw [printed, tally_toString_int]
  simp only [sign]

/-- Zero prints a sign less once it is stored. -/
theorem tally_repr_of_zero {float : FiniteFloat} (zero : float.digits = 0)
    (signed : float.negative)
    : tally float.repr = tally { float with negative := false : FiniteFloat }.repr + 1 := by
  simp [FiniteFloat.repr, FiniteFloat.isLarge, FiniteFloat.isSmall, zero, signed,
    FiniteFloat.pointPosition]

/-- A stored float prints, with one tallied character less when it is respelled. -/
theorem chars_storedFloat (float : FiniteFloat)
    : ∃ stored,
        chars (storedFloat float) = .ok stored
        ∧ tally float.repr = tally stored + (unstableFloats (.float (.finite float))).length := by
  by_cases large : float.isLarge
  · refine ⟨(toString float.toInt).toList, ?_, ?_⟩
    · simp [storedFloat, large, chars]
    · simp [unstableFloats, FiniteFloat.stable, large, tally_repr_of_isLarge large]
  by_cases zero : float.digits = 0
  · refine ⟨{ float with negative := false : FiniteFloat }.repr, ?_, ?_⟩
    · simp [storedFloat, large, zero, chars]
    · cases signed : float.negative with
      | true =>
          simp [unstableFloats, FiniteFloat.stable, large, zero, signed,
            tally_repr_of_zero zero signed]
      | false =>
          have same : { float with negative := false : FiniteFloat } = float := by
            rw [← signed]
          simp [unstableFloats, FiniteFloat.stable, large, signed, same]
  · refine ⟨float.repr, ?_, ?_⟩
    · simp [storedFloat, large, zero, chars]
    · simp [unstableFloats, FiniteFloat.stable, large, zero]

/-- Commas are not tallied, by induction on the texts. -/
theorem tally_joined (texts : List (List Char))
    : tally (joined texts) = (texts.map tally).sum := by
  induction texts with
  | nil => rfl
  | cons text rest ih =>
      cases rest with
      | nil => simp [joined]
      | cons next more =>
          have split : joined (text :: next :: more) = text ++ ',' :: joined (next :: more) := by
            simp [joined]
          rw [split, tally_append, tally_cons, ih]
          simp

theorem tally_member (key : String) (text : List Char)
    : tally (member (key, text)) = tally (quoted key) + tally text := by
  simp [member]

/-- The tally of the members of an object, in whatever order they are printed. -/
def tallyEntries (entries : List (String × List Char)) : Nat :=
  (entries.map (fun entry => tally (member entry))).sum

theorem tally_sorted (entries : List (String × List Char))
    : tally (joined ((sorted entries).map member)) = tallyEntries entries := by
  have perm : (sorted entries).Perm entries := List.perm_insertionSort _ entries
  rw [tally_joined, List.map_map]
  exact (perm.map _).sum_nat

mutual

/-- A stored value prints, and its text has one tallied character less for every float that
is respelled in it.
-/
theorem chars_normalize (value : Json) {text : List Char} (printed : chars value = .ok text)
    : ∃ stored,
        chars (normalize value) = .ok stored
        ∧ tally text = tally stored + (unstableFloats value).length := by
  cases value with
  | null | bool _ | int _ | str _ => exact ⟨text, printed, by simp [unstableFloats]⟩
  | float number =>
      cases number with
      | finite float =>
          cases printed
          exact chars_storedFloat float
      | infinity _ | nan => simp [chars] at printed
  | arr items =>
      obtain ⟨texts, inner, same⟩ := chars_arr.mp printed
      obtain ⟨stored, found, count⟩ := itemChars_normalize items inner
      refine ⟨_, chars_arr.mpr ⟨stored, found, rfl⟩, ?_⟩
      simp only [same, tally_cons, tally_append, tally_joined, count, unstableFloats]
      simp
  | obj fields =>
      obtain ⟨entries, inner, same⟩ := chars_obj.mp printed
      obtain ⟨stored, found, count⟩ := fieldChars_normalize fields inner
      refine ⟨_, chars_obj.mpr ⟨stored, found, rfl⟩, ?_⟩
      simp only [same, tally_cons, tally_append, tally_sorted, count, unstableFloats]
      simp

theorem itemChars_normalize (items : List Json) {texts : List (List Char)}
    (printed : itemChars items = .ok texts)
    : ∃ stored,
        itemChars (normalizeItems items) = .ok stored
        ∧ (texts.map tally).sum = (stored.map tally).sum + (unstableItems items).length := by
  cases items with
  | nil =>
      cases printed
      exact ⟨[], rfl, rfl⟩
  | cons item rest =>
      obtain ⟨text, more, first, later, same⟩ := itemChars_cons.mp printed
      obtain ⟨stored, here, count⟩ := chars_normalize item first
      obtain ⟨storedRest, there, countRest⟩ := itemChars_normalize rest later
      refine ⟨stored :: storedRest, itemChars_cons.mpr ⟨_, _, here, there, rfl⟩, ?_⟩
      simp only [same, List.map_cons, List.sum_cons, unstableItems, List.length_append]
      omega

theorem fieldChars_normalize (fields : List (String × Json))
    {entries : List (String × List Char)} (printed : fieldChars fields = .ok entries)
    : ∃ stored,
        fieldChars (normalizeFields fields) = .ok stored
        ∧ tallyEntries entries = tallyEntries stored + (unstableFields fields).length := by
  match fields with
  | [] =>
      cases printed
      exact ⟨[], rfl, rfl⟩
  | (key, value) :: rest =>
      obtain ⟨text, more, first, later, same⟩ := fieldChars_cons.mp printed
      obtain ⟨stored, here, count⟩ := chars_normalize value first
      obtain ⟨storedRest, there, countRest⟩ := fieldChars_normalize rest later
      refine ⟨(key, stored) :: storedRest, fieldChars_cons.mpr ⟨_, _, here, there, rfl⟩, ?_⟩
      simp only [tallyEntries, same, List.map_cons, List.sum_cons, tally_member,
        unstableFields, List.length_append] at countRest ⊢
      omega

end

/-- A stable float is stored as it is. -/
theorem storedFloat_of_stable {float : FiniteFloat} (stable : float.stable)
    : storedFloat float = .float (.finite float) := by
  obtain ⟨small, unsigned⟩ : ¬ float.isLarge ∧ (float.negative = false ∨ float.digits ≠ 0) := by
    simpa [FiniteFloat.stable] using stable
  by_cases zero : float.digits = 0
  · rcases unsigned with positive | nonzero
    · have same : { float with negative := false : FiniteFloat } = float := by
        rw [← positive]
      rw [storedFloat, if_neg small, if_pos zero, same]
    · exact absurd zero nonzero
  · rw [storedFloat, if_neg small, if_neg zero]

mutual

/-- A value without unstable floats is stored as it is. -/
theorem normalize_of_stable (value : Json) (stable : unstableFloats value = [])
    : normalize value = value := by
  cases value with
  | null | bool _ | int _ | str _ => rfl
  | float number =>
      cases number with
      | finite float =>
          refine storedFloat_of_stable ?_
          by_contra unstable
          simp [unstableFloats, unstable] at stable
      | infinity _ | nan => rfl
  | arr items => rw [normalize, normalizeItems_of_stable items stable]
  | obj fields => rw [normalize, normalizeFields_of_stable fields stable]

theorem normalizeItems_of_stable (items : List Json) (stable : unstableItems items = [])
    : normalizeItems items = items := by
  cases items with
  | nil => rfl
  | cons item rest =>
      obtain ⟨head, tail⟩ := List.append_eq_nil_iff.mp stable
      rw [normalizeItems, normalize_of_stable item head, normalizeItems_of_stable rest tail]

theorem normalizeFields_of_stable (fields : List (String × Json))
    (stable : unstableFields fields = [])
    : normalizeFields fields = fields := by
  match fields with
  | [] => rfl
  | (key, value) :: rest =>
      obtain ⟨head, tail⟩ := List.append_eq_nil_iff.mp stable
      rw [normalizeFields, normalize_of_stable value head, normalizeFields_of_stable rest tail]

end

theorem normalizeFields_keys (fields : List (String × Json))
    : Dict.keys (normalizeFields fields) = Dict.keys fields := by
  induction fields with
  | nil => rfl
  | cons field rest ih =>
      simp only [normalizeFields, Dict.keys, List.map_cons] at ih ⊢
      rw [ih]

mutual

/-- Storing a value keeps the keys of every object distinct. -/
theorem normalize_distinct (value : Json) (distinct : value.DistinctKeys)
    : (normalize value).DistinctKeys := by
  cases value with
  | null | bool _ | int _ | str _ => trivial
  | float number =>
      cases number with
      | finite float =>
          simp only [normalize, storedFloat]
          split
          · trivial
          · split <;> trivial
      | infinity _ | nan => trivial
  | arr items => exact normalizeItems_distinct items distinct
  | obj fields =>
      refine ⟨?_, normalizeFields_distinct fields distinct.2⟩
      rw [normalizeFields_keys]
      exact distinct.1

theorem normalizeItems_distinct (items : List Json) (distinct : Json.DistinctItems items)
    : Json.DistinctItems (normalizeItems items) := by
  cases items with
  | nil => trivial
  | cons item rest =>
      exact ⟨normalize_distinct item distinct.1, normalizeItems_distinct rest distinct.2⟩

theorem normalizeFields_distinct (fields : List (String × Json))
    (distinct : Json.DistinctFields fields)
    : Json.DistinctFields (normalizeFields fields) := by
  match fields with
  | [] => trivial
  | (key, value) :: rest =>
      exact ⟨normalize_distinct value distinct.1, normalizeFields_distinct rest distinct.2⟩

end

/-- Everything a column can give back for a value prints, and to the text that was sent
exactly when no float is respelled.
-/
theorem encode_readBack {value stored : Json} (distinct : value.DistinctKeys)
    (readBack : ReadBack value stored) {text : String} (printed : encode value = .ok text)
    : ∃ other, encode stored = .ok other ∧ (other = text ↔ unstableFloats value = []) := by
  obtain ⟨sent, found, same⟩ : ∃ sent, chars value = .ok sent ∧ String.ofList sent = text := by
    unfold encode at printed
    cases found : chars value with
    | error exn => simp [found, bind, Except.bind] at printed
    | ok sent =>
        simp only [found, bind, Except.bind, pure, Except.pure, Except.ok.injEq] at printed
        exact ⟨sent, rfl, printed⟩
  obtain ⟨back, kept, count⟩ := chars_normalize value found
  have reordered := chars_reordered readBack (normalize_distinct value distinct) kept
  refine ⟨String.ofList back, ?_, ?_⟩
  · rw [encode, reordered]
    rfl
  refine ⟨?_, ?_⟩
  · intro equal
    have chars : back = sent := String.ofList_injective (equal.trans same.symm)
    rw [chars] at count
    exact List.length_eq_zero_iff.mp (by omega)
  · intro stable
    rw [normalize_of_stable value stable, found] at kept
    cases kept
    exact same

end Jsonb

end SecureMcp
