import SecureMcp.Python.Json

/-! Texts without a null character. Python's `repr` escapes every control character, so what
is quoted with it has none, whatever a client sent.
-/

namespace SecureMcp

def NulFree (text : String) : Prop :=
  '\x00' ∉ text.toList

namespace NulFree

@[simp] theorem append_iff {left right : String}
    : NulFree (left ++ right) ↔ NulFree left ∧ NulFree right := by
  simp [NulFree]

theorem append {left right : String} (first : NulFree left) (second : NulFree right)
    : NulFree (left ++ right) :=
  append_iff.mpr ⟨first, second⟩

theorem of_chars {chars : List Char} (free : '\x00' ∉ chars) : NulFree (String.ofList chars) := by
  simpa [NulFree] using free

/-- Joined texts hold what their parts and the separator hold, by induction on the parts. -/
theorem intercalate {separator : String} {texts : List String} (between : NulFree separator)
    (each : ∀ text ∈ texts, NulFree text)
    : NulFree (separator.intercalate texts) := by
  induction texts with
  | nil => simp [NulFree]
  | cons text rest ih =>
      have head := each text List.mem_cons_self
      have tail := ih (fun other member => each other (List.mem_cons_of_mem _ member))
      cases rest with
      | nil => simpa using head
      | cons next more =>
          rw [String.intercalate_cons_cons]
          exact (head.append between).append tail

-----------------------------------------------------------------------------------------
-- Numbers
-----------------------------------------------------------------------------------------

theorem not_mem_digits (number : Nat) : '\x00' ∉ (toString number).toList := by
  intro member
  have digit : ('\x00' : Char).isDigit := by
    refine Nat.isDigit_of_mem_toDigits (b := 10) (by decide) (by decide) (n := number) ?_
    simpa [Nat.toList_repr] using member
  cases digit

theorem nat (number : Nat) : NulFree (toString number) :=
  not_mem_digits number

theorem int (number : Int) : NulFree (toString number) := by
  rw [Int.toString_eq_repr, Int.repr_eq_if]
  split
  · exact nat number.toNat
  · exact append (by simp [NulFree]) (nat (-number).toNat)

section

variable {digits : List Char}

theorem not_mem_mantissa (free : '\x00' ∉ digits) : '\x00' ∉ FiniteFloat.mantissa digits := by
  rcases digits with _ | ⟨first, _ | ⟨second, rest⟩⟩
  · exact free
  · exact free
  · simpa [FiniteFloat.mantissa] using free

theorem not_mem_exponentDigits (exponent : Int) : '\x00' ∉ FiniteFloat.exponentDigits exponent := by
  have magnitude := not_mem_digits exponent.natAbs
  unfold FiniteFloat.exponentDigits
  generalize (toString exponent.natAbs).toList = text at magnitude
  dsimp only
  split <;> split <;> simp [magnitude]

theorem not_mem_fixedDigits (free : '\x00' ∉ digits) (point : Int)
    : '\x00' ∉ FiniteFloat.fixedDigits digits point := by
  have front : '\x00' ∉ digits.take point.natAbs := fun member => free (List.mem_of_mem_take member)
  have back : '\x00' ∉ digits.drop point.natAbs := fun member => free (List.mem_of_mem_drop member)
  unfold FiniteFloat.fixedDigits
  split
  · simp [free, List.mem_replicate]
  · split
    · simp [free, List.mem_replicate]
    · simp [front, back]

end

/-- What a float prints besides its digits is a sign, a point or an exponent mark. -/
theorem not_mem_repr (float : FiniteFloat) : '\x00' ∉ float.repr := by
  have digits := not_mem_digits float.digits
  have sign : '\x00' ∉ (if float.negative then ['-'] else []) := by
    split <;> simp
  unfold FiniteFloat.repr
  generalize (toString float.digits).toList = text at digits
  dsimp only
  split
  · simp [sign, not_mem_mantissa digits, not_mem_exponentDigits]
  · simp [sign, not_mem_fixedDigits digits]

theorem not_mem_pyFloat (value : PyFloat) : '\x00' ∉ value.repr := by
  cases value with
  | finite float => exact not_mem_repr float
  | infinity negative => cases negative <;> simp [PyFloat.repr]
  | nan => simp [PyFloat.repr]

-----------------------------------------------------------------------------------------
-- `repr`
-----------------------------------------------------------------------------------------

theorem hexDigit_ne (value : Nat) : '\x00' ≠ hexDigit value := by
  have each : ∀ digit < 16, '\x00' ≠ (Nat.toDigits 16 digit).headD '0' := by decide
  exact each (value % 16) (Nat.mod_lt _ (by decide))

/-- A quoted character is itself only when it is printable. -/
theorem not_mem_reprChar {quote : Char} (quotes : quote = '\'' ∨ quote = '"') (char : Char)
    : '\x00' ∉ reprChar quote char := by
  unfold reprChar
  split
  · next special =>
      have same : char = quote ∨ char = '\\' := by simpa using special
      rcases same with rfl | rfl
      · rcases quotes with rfl | rfl <;> simp
      · simp
  · split
    · simp
    · split
      · simp
      · split
        · simp
        · split
          · next printable =>
              intro member
              cases List.mem_singleton.mp member
              exact absurd printable (by decide)
          · simp [hexDigit_ne]

theorem pyRepr (text : String) : NulFree (SecureMcp.pyRepr text) := by
  have quoted (quote : Char) (quotes : quote = '\'' ∨ quote = '"')
      : NulFree (String.ofList (quote :: (text.toList.flatMap (reprChar quote) ++ [quote]))) := by
    have mark : '\x00' ≠ quote := by
      rcases quotes with rfl | rfl <;> simp
    apply of_chars
    simp [mark, not_mem_reprChar quotes]
  apply quoted
  split <;> simp

mutual

/-- No value's `repr` holds a null character, by induction on it. -/
theorem repr (value : Json) : NulFree value.repr := by
  cases value with
  | null => simp [NulFree, Json.repr]
  | bool value => cases value <;> simp [NulFree, Json.repr]
  | int value => exact int value
  | float value => exact of_chars (not_mem_pyFloat value)
  | str text => exact pyRepr text
  | arr items =>
      rw [Json.repr]
      refine (append ?_ (intercalate ?_ (reprItems items))).append ?_ <;> simp [NulFree]
  | obj fields =>
      rw [Json.repr]
      refine (append ?_ (intercalate ?_ (reprFields fields))).append ?_ <;> simp [NulFree]

theorem reprItems (items : List Json) : ∀ text ∈ Json.reprItems items, NulFree text := by
  cases items with
  | nil => simp [Json.reprItems]
  | cons item rest =>
      rw [Json.reprItems]
      intro text member
      rcases List.mem_cons.mp member with rfl | later
      · exact repr item
      · exact reprItems rest text later

theorem reprFields (fields : List (String × Json))
    : ∀ text ∈ Json.reprFields fields, NulFree text := by
  match fields with
  | [] => simp [Json.reprFields]
  | (key, value) :: rest =>
      rw [Json.reprFields]
      intro text member
      rcases List.mem_cons.mp member with rfl | later
      · exact ((pyRepr key).append (by simp [NulFree])).append (repr value)
      · exact reprFields rest text later

end

end NulFree

/-- A text that can be a reason: it is not empty and has no null character. -/
structure Worded (text : String) : Prop where
  free : NulFree text
  nonempty : text ≠ ""

namespace Worded

theorem append {left right : String} (first : Worded left) (second : NulFree right)
    : Worded (left ++ right) :=
  ⟨first.free.append second, by simp [first.nonempty]⟩

theorem append_right {left right : String} (first : NulFree left) (second : Worded right)
    : Worded (left ++ right) :=
  ⟨first.append second.free, by simp [second.nonempty]⟩

end Worded

end SecureMcp
