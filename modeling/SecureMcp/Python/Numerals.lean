import Mathlib.Tactic.Ring
import Mathlib.Data.List.TakeWhile
import SecureMcp.Python.Json

/-! A printed number names its value: integers and floats print differently, and two floats print
alike only if they are one float.
-/

namespace SecureMcp

namespace Numerals

/-- The number that a row of digits stands for. -/
def numeral (digits : List Char) : Nat :=
  Nat.ofDigitChars 10 digits 0

theorem numeral_toString (number : Nat) : numeral (toString number).toList = number := by
  simp [numeral, Nat.toString_eq_repr, Nat.toList_repr, Nat.ofDigitChars_ten_toDigits]

theorem numeral_append (left right : List Char)
    : numeral (left ++ right) = 10 ^ right.length * numeral left + numeral right := by
  rw [numeral, Nat.ofDigitChars_append, Nat.ofDigitChars_eq_ofDigitChars_zero]
  rfl

theorem numeral_zeros (count : Nat) : numeral (List.replicate count '0') = 0 := by
  rw [numeral, Nat.ofDigitChars_replicate_zero, Nat.mul_zero]

theorem isDigit_of_mem {number : Nat} {char : Char} (member : char ∈ (toString number).toList)
    : char.isDigit := by
  refine Nat.isDigit_of_mem_toDigits (b := 10) (by decide) (by decide) (n := number) ?_
  simpa [Nat.toList_repr] using member

theorem toString_ne_nil (number : Nat) : (toString number).toList ≠ [] := by
  simp [Nat.toList_repr, Nat.toDigits_ne_nil]

/-- The characters that a printed number consists of. -/
def InNumber (char : Char) : Prop :=
  char.isDigit ∨ char ∈ ['-', '+', '.', 'e']

/-- A digit is none of the other characters of a number. -/
theorem ne_of_isDigit {char other : Char} (digit : char.isDigit) (mark : other.isDigit = false)
    : char ≠ other := by
  rintro rfl
  rw [mark] at digit
  cases digit

/-- Two texts with a marked character that only their second parts begin with have the same parts, by
induction on the first.
-/
theorem split_at_mark {mark : Char} {one other left right : List Char} (first : mark ∉ one)
    (second : mark ∉ other) (same : one ++ mark :: left = other ++ mark :: right)
    : one = other ∧ left = right := by
  induction one generalizing other with
  | nil =>
      cases other with
      | nil => exact ⟨rfl, (List.cons.inj same).2⟩
      | cons char others =>
          have head := (List.cons.inj same).1
          subst head
          exact (second List.mem_cons_self).elim
  | cons char ones ih =>
      cases other with
      | nil =>
          have head := (List.cons.inj same).1
          subst head
          exact (first List.mem_cons_self).elim
      | cons head others =>
          obtain ⟨sameHead, sameTail⟩ := List.cons.inj same
          obtain ⟨equal, later⟩ := ih (fun member => first (List.mem_cons_of_mem _ member))
            (fun member => second (List.mem_cons_of_mem _ member)) sameTail
          exact ⟨by rw [sameHead, equal], later⟩

end Numerals

open Numerals

namespace FiniteFloat

-----------------------------------------------------------------------------------------
-- The exponent form
-----------------------------------------------------------------------------------------

theorem mem_exponentDigits {exponent : Int} {char : Char}
    (member : char ∈ (exponentDigits exponent).tail)
    : char.isDigit := by
  simp only [exponentDigits, List.tail_cons] at member
  split at member
  · rcases List.mem_cons.mp member with zero | digit
    · rw [zero]
      rfl
    · exact isDigit_of_mem digit
  · exact isDigit_of_mem member

theorem numeral_exponentDigits (exponent : Int)
    : numeral (exponentDigits exponent).tail = exponent.natAbs := by
  simp only [exponentDigits, List.tail_cons]
  split
  · exact numeral_toString _
  · exact numeral_toString _

/-- A printed exponent names its value: the sign and the digits give it back. -/
theorem exponentDigits_injective {one other : Int}
    (same : exponentDigits one = exponentDigits other)
    : one = other := by
  have size : one.natAbs = other.natAbs := by
    rw [← numeral_exponentDigits, ← numeral_exponentDigits, same]
  have sign : one < 0 ↔ other < 0 := by
    have heads := congrArg List.head? same
    simp only [exponentDigits, List.head?_cons, Option.some.injEq] at heads
    by_cases below : one < 0 <;> by_cases below' : other < 0 <;> simp [below, below'] at heads ⊢
  omega

theorem mem_mantissa {digits : List Char} {char : Char} (member : char ∈ mantissa digits)
    : char = '.' ∨ char ∈ digits := by
  rcases digits with _ | ⟨first, _ | ⟨second, rest⟩⟩
  · cases member
  · exact .inr member
  · simp only [mantissa, List.mem_cons] at member ⊢
    tauto

/-- The digits of a mantissa are what is left without the point. -/
theorem filter_mantissa {digits : List Char} (plain : ∀ char ∈ digits, char ≠ '.')
    : (mantissa digits).filter (fun char => char ≠ '.') = digits := by
  have kept : digits.filter (fun char => char ≠ '.') = digits := by
    rw [List.filter_eq_self]
    intro char member
    simpa using plain char member
  rcases digits with _ | ⟨first, _ | ⟨second, rest⟩⟩
  · rfl
  · exact kept
  · change (first :: '.' :: second :: rest).filter _ = _
    rw [List.filter_cons_of_pos (by simpa using plain first (by simp)),
      List.filter_cons_of_neg (by simp)]
    rw [List.filter_cons_of_pos (by simpa using plain first (by simp))] at kept
    exact kept

-----------------------------------------------------------------------------------------
-- The fixed form
-----------------------------------------------------------------------------------------

/-- (Fixed float whole fraction) means that the digits before and after a point are those of the
float, without its sign.
-/
structure Fixed (float : FiniteFloat) (whole fraction : List Char) : Prop where
  wholeDigits : ∀ char ∈ whole, char.isDigit
  fractionDigits : ∀ char ∈ fraction, char.isDigit
  begins : whole ≠ []
  scale : 0 ≤ float.exponent + fraction.length
  amount : numeral (whole ++ fraction)
    = float.digits * 10 ^ (float.exponent + fraction.length).toNat

/-- The fixed form of a float, by the place of its point: before its digits, behind them or among
them.
-/
theorem exists_fixed (float : FiniteFloat)
    : ∃ whole fraction,
        fixedDigits (toString float.digits).toList float.pointPosition = whole ++ '.' :: fraction
        ∧ Fixed float whole fraction := by
  have digits (char : Char) (member : char ∈ (toString float.digits).toList) : char.isDigit :=
    isDigit_of_mem member
  have value := numeral_toString float.digits
  have nonempty := toString_ne_nil float.digits
  have point : float.pointPosition = (toString float.digits).toList.length + float.exponent := by
    simp only [pointPosition, String.length_toList]
  generalize (toString float.digits).toList = row at digits value nonempty point
  have long : 0 < row.length := List.length_pos_iff.mpr nonempty
  unfold fixedDigits
  by_cases before : float.pointPosition ≤ 0
  · refine ⟨['0'], List.replicate float.pointPosition.natAbs '0' ++ row, by simp [before], ?_⟩
    have size : float.exponent
        + (List.replicate float.pointPosition.natAbs '0' ++ row).length = 0 := by
      simp only [List.length_append, List.length_replicate]
      omega
    refine ⟨by simp, ?_, by simp, size.ge, ?_⟩
    · intro char member
      rcases List.mem_append.mp member with zero | digit
      · rw [(List.mem_replicate.mp zero).2]
        rfl
      · exact digits char digit
    · rw [size, ← List.append_assoc, numeral_append, value]
      have zeros : numeral (['0'] ++ List.replicate float.pointPosition.natAbs '0') = 0 := by
        rw [numeral_append, numeral_zeros]
        rfl
      rw [zeros]
      simp
  · by_cases behind : row.length ≤ float.pointPosition.natAbs
    · refine ⟨row ++ List.replicate (float.pointPosition.natAbs - row.length) '0', ['0'],
        by simp [before, behind], ?_⟩
      refine ⟨?_, by simp, by simp [nonempty], by simp; omega, ?_⟩
      · intro char member
        rcases List.mem_append.mp member with digit | zero
        · exact digits char digit
        · rw [(List.mem_replicate.mp zero).2]
          rfl
      · have size : (float.exponent + (['0'] : List Char).length).toNat
            = float.pointPosition.natAbs - row.length + 1 := by
          simp
          omega
        rw [size, numeral_append, numeral_append, numeral_zeros, value]
        have zero : numeral ['0'] = 0 := rfl
        simp only [zero, List.length_replicate, List.length_singleton]
        ring
    · refine ⟨row.take float.pointPosition.natAbs, row.drop float.pointPosition.natAbs,
        by simp [before, behind], ?_⟩
      have size : float.exponent + (row.drop float.pointPosition.natAbs).length = 0 := by
        rw [List.length_drop]
        omega
      refine ⟨?_, ?_, ?_, size.ge, ?_⟩
      · exact fun char member => digits char (List.mem_of_mem_take member)
      · exact fun char member => digits char (List.mem_of_mem_drop member)
      · intro empty
        have length := congrArg List.length empty
        rw [List.length_take, List.length_nil] at length
        omega
      · rw [size, List.take_append_drop, value]
        simp

/-- Two floats with one fixed form have the same digits at the same places: neither ends in a zero.
-/
theorem Fixed.unique {one other : FiniteFloat} {whole fraction : List Char}
    (first : Fixed one whole fraction) (second : Fixed other whole fraction)
    : one.digits = other.digits ∧ one.exponent = other.exponent := by
  have scaled := first.amount.symm.trans second.amount
  have left := first.scale
  have right := second.scale
  have apart {low high : FiniteFloat} (nonzero : low.digits % 10 ≠ 0) (lower : Nat) (gap : Nat)
      : low.digits * 10 ^ lower ≠ high.digits * 10 ^ (lower + (gap + 1)) := by
    intro same
    have powers : high.digits * 10 ^ (lower + (gap + 1))
        = high.digits * 10 ^ (gap + 1) * 10 ^ lower := by
      rw [Nat.pow_add]
      ring
    rw [powers] at same
    have equal := Nat.eq_of_mul_eq_mul_right (Nat.pow_pos (by decide)) same
    rw [equal, Nat.pow_succ, ← Nat.mul_assoc, Nat.mul_mod_left] at nonzero
    exact nonzero rfl
  have positive (power : Nat) : (10 : Nat) ^ power ≠ 0 :=
    Nat.pos_iff_ne_zero.mp (Nat.pow_pos (by decide))
  rcases one.shortest with nonzero | ⟨zero, none⟩
  · rcases other.shortest with nonzero' | ⟨zero', none'⟩
    · rcases Nat.lt_trichotomy (one.exponent + fraction.length).toNat
          (other.exponent + fraction.length).toNat with less | same | more
      · obtain ⟨gap, sum⟩ := Nat.exists_eq_add_of_lt less
        rw [sum, Nat.add_assoc] at scaled
        exact (apart nonzero _ _ scaled).elim
      · rw [same] at scaled
        exact ⟨Nat.eq_of_mul_eq_mul_right (Nat.pow_pos (by decide)) scaled, by omega⟩
      · obtain ⟨gap, sum⟩ := Nat.exists_eq_add_of_lt more
        rw [sum, Nat.add_assoc] at scaled
        exact (apart nonzero' _ _ scaled.symm).elim
    · rw [zero', Nat.zero_mul] at scaled
      have none : one.digits = 0 := by simpa [positive] using scaled
      rw [none] at nonzero
      exact (nonzero rfl).elim
  · rw [zero, Nat.zero_mul] at scaled
    have none' : other.digits = 0 := by simpa [positive] using scaled.symm
    rcases other.shortest with nonzero' | ⟨_, flat⟩
    · rw [none'] at nonzero'
      exact (nonzero' rfl).elim
    · exact ⟨by rw [zero, none'], by rw [none, flat]⟩

-----------------------------------------------------------------------------------------
-- The whole text
-----------------------------------------------------------------------------------------

/-- The text of a float without its sign. -/
def unsigned (float : FiniteFloat) : List Char :=
  if float.isLarge || float.isSmall then
    mantissa (toString float.digits).toList ++ 'e' :: exponentDigits (float.pointPosition - 1)
  else fixedDigits (toString float.digits).toList float.pointPosition

theorem repr_eq (float : FiniteFloat)
    : float.repr = (if float.negative then ['-'] else []) ++ float.unsigned := by
  simp only [repr, unsigned]
  by_cases form : float.isLarge || float.isSmall
  · rw [if_pos form, if_pos form, List.append_assoc]
  · rw [if_neg form, if_neg form]

/-- The digits of a float, in its exponent form or in its fixed form. -/
theorem unsigned_cases (float : FiniteFloat)
    : (∃ whole, float.unsigned = whole ++ 'e' :: exponentDigits (float.pointPosition - 1)
        ∧ whole = mantissa (toString float.digits).toList)
      ∨ ∃ whole fraction, float.unsigned = whole ++ '.' :: fraction ∧ Fixed float whole fraction := by
  unfold unsigned
  split
  · exact .inl ⟨_, rfl, rfl⟩
  · exact .inr (exists_fixed float)

theorem exponent_not_mem_mantissa (float : FiniteFloat)
    : 'e' ∉ mantissa (toString float.digits).toList := by
  intro member
  rcases mem_mantissa member with point | digit
  · cases point
  · exact ne_of_isDigit (isDigit_of_mem digit) rfl rfl

theorem Fixed.exponent_not_mem {float : FiniteFloat} {whole fraction : List Char}
    (fixed : Fixed float whole fraction)
    : 'e' ∉ whole ++ '.' :: fraction := by
  intro member
  rcases List.mem_append.mp member with digit | rest
  · exact ne_of_isDigit (fixed.wholeDigits _ digit) rfl rfl
  · rcases List.mem_cons.mp rest with point | digit
    · cases point
    · exact ne_of_isDigit (fixed.fractionDigits _ digit) rfl rfl

/-- The first character of a float without its sign is a digit. -/
theorem exists_unsigned (float : FiniteFloat)
    : ∃ first rest, float.unsigned = first :: rest ∧ first.isDigit := by
  rcases unsigned_cases float with ⟨whole, text, same⟩ | ⟨whole, fraction, text, fixed⟩
  · cases row : (toString float.digits).toList with
    | nil => exact (toString_ne_nil _ row).elim
    | cons first rest =>
        have digit : first.isDigit := isDigit_of_mem (by rw [row]; exact List.mem_cons_self)
        rw [row] at same
        cases rest with
        | nil => exact ⟨first, _, by rw [text, same]; rfl, digit⟩
        | cons second more => exact ⟨first, _, by rw [text, same]; rfl, digit⟩
  · cases whole with
    | nil => exact (fixed.begins rfl).elim
    | cons first rest => exact ⟨first, _, text, fixed.wholeDigits first List.mem_cons_self⟩

/-- Floats that print alike up to their signs have the same digits at the same places. -/
theorem unsigned_injective {one other : FiniteFloat} (same : one.unsigned = other.unsigned)
    : one.digits = other.digits ∧ one.exponent = other.exponent := by
  rcases unsigned_cases one with ⟨whole, text, row⟩ | ⟨whole, fraction, text, fixed⟩
  · have plain (float : FiniteFloat) (char : Char) (member : char ∈ (toString float.digits).toList)
        : char ≠ '.' :=
      ne_of_isDigit (isDigit_of_mem member) rfl
    rcases unsigned_cases other with ⟨whole', text', row'⟩ | ⟨whole', fraction', text', fixed'⟩
    · rw [text, text', row, row'] at same
      obtain ⟨sameRow, sameExponent⟩ := split_at_mark (exponent_not_mem_mantissa one)
        (exponent_not_mem_mantissa other) same
      have point := exponentDigits_injective sameExponent
      have digits := congrArg (List.filter (fun char => char ≠ '.')) sameRow
      rw [filter_mantissa (plain one), filter_mantissa (plain other)] at digits
      have value : one.digits = other.digits := by
        rw [← numeral_toString one.digits, ← numeral_toString other.digits, digits]
      refine ⟨value, ?_⟩
      unfold pointPosition at point
      rw [value] at point
      omega
    · rw [text, text'] at same
      have marked : 'e' ∈ whole' ++ '.' :: fraction' := by
        rw [← same]
        simp
      exact (fixed'.exponent_not_mem marked).elim
  · rcases unsigned_cases other with ⟨whole', text', row'⟩ | ⟨whole', fraction', text', fixed'⟩
    · rw [text, text'] at same
      have marked : 'e' ∈ whole ++ '.' :: fraction := by
        rw [same]
        simp
      exact (fixed.exponent_not_mem marked).elim
    · rw [text, text'] at same
      obtain ⟨sameWhole, sameFraction⟩ := split_at_mark
        (fun member => ne_of_isDigit (fixed.wholeDigits _ member) rfl rfl)
        (fun member => ne_of_isDigit (fixed'.wholeDigits _ member) rfl rfl) same
      subst sameWhole sameFraction
      exact fixed.unique fixed'

/-- A float is read back from its text. -/
theorem repr_injective {one other : FiniteFloat} (same : one.repr = other.repr) : one = other := by
  obtain ⟨first, rest, text, digit⟩ := exists_unsigned one
  obtain ⟨first', rest', text', digit'⟩ := exists_unsigned other
  have minus : first ≠ '-' := ne_of_isDigit digit rfl
  have minus' : first' ≠ '-' := ne_of_isDigit digit' rfl
  rw [repr_eq, repr_eq] at same
  have parts : one.negative = other.negative ∧ one.unsigned = other.unsigned := by
    cases sign : one.negative <;> cases sign' : other.negative <;> rw [sign, sign'] at same
    · exact ⟨rfl, same⟩
    · rw [text] at same
      exact (minus (List.cons.inj same).1).elim
    · rw [text'] at same
      exact (minus' (List.cons.inj same).1.symm).elim
    · exact ⟨rfl, (List.cons.inj same).2⟩
  obtain ⟨digits, exponent⟩ := unsigned_injective parts.2
  cases one
  cases other
  simp only [mk.injEq]
  exact ⟨parts.1, digits, exponent⟩

/-- A float has a point or an exponent, which no integer has. -/
theorem exists_mark (float : FiniteFloat) : ∃ char ∈ float.repr, char = '.' ∨ char = 'e' := by
  rw [repr_eq]
  rcases unsigned_cases float with ⟨whole, text, _⟩ | ⟨whole, fraction, text, _⟩
  · exact ⟨'e', by simp [text], .inr rfl⟩
  · exact ⟨'.', by simp [text], .inl rfl⟩

/-- The text of a float consists of characters of numbers. -/
theorem inNumber_of_mem {float : FiniteFloat} {char : Char} (member : char ∈ float.repr)
    : InNumber char := by
  rw [repr_eq] at member
  rcases List.mem_append.mp member with sign | body
  · split at sign
    · exact .inr (by simp_all)
    · cases sign
  · rcases unsigned_cases float with ⟨whole, text, row⟩ | ⟨whole, fraction, text, fixed⟩
    · rw [text, row] at body
      rcases List.mem_append.mp body with inner | rest
      · rcases mem_mantissa inner with point | digit
        · exact .inr (by simp [point])
        · exact .inl (isDigit_of_mem digit)
      · rcases List.mem_cons.mp rest with mark | exponent
        · exact .inr (by simp [mark])
        · rcases List.mem_cons.mp exponent with sign | digit
          · refine .inr ?_
            rw [sign]
            split
            · simp
            · simp
          · exact .inl (mem_exponentDigits digit)
    · rw [text] at body
      rcases List.mem_append.mp body with digit | rest
      · exact .inl (fixed.wholeDigits _ digit)
      · rcases List.mem_cons.mp rest with point | digit
        · exact .inr (by simp [point])
        · exact .inl (fixed.fractionDigits _ digit)

end FiniteFloat

namespace Numerals

/-- The text of an integer consists of digits behind a sign. -/
theorem int_of_mem {value : Int} {char : Char} (member : char ∈ (toString value).toList)
    : char = '-' ∨ char.isDigit := by
  rw [Int.toString_eq_repr, Int.repr_eq_if] at member
  split at member
  · exact .inr (isDigit_of_mem (by simpa using member))
  · rw [String.toList_append] at member
    rcases List.mem_append.mp member with sign | digit
    · exact .inl (by simpa using sign)
    · exact .inr (isDigit_of_mem (by simpa using digit))

/-- An integer and a float never print alike. -/
theorem int_ne_float (value : Int) (float : FiniteFloat)
    : (toString value).toList ≠ float.repr := by
  intro same
  obtain ⟨char, member, mark⟩ := float.exists_mark
  rw [← same] at member
  rcases int_of_mem member with sign | digit
  · rcases mark with point | exponent
    · rw [point] at sign
      cases sign
    · rw [exponent] at sign
      cases sign
  · rcases mark with point | exponent
    · exact ne_of_isDigit digit rfl point
    · exact ne_of_isDigit digit rfl exponent

/-- A number is printed with a first character. -/
theorem int_ne_nil (value : Int) : (toString value).toList ≠ [] := by
  rw [Int.toString_eq_repr, Int.repr_eq_if]
  split
  · exact toString_ne_nil value.toNat
  · simp

end Numerals

end SecureMcp
