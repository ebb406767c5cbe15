import Mathlib.Algebra.Order.Ring.Rat
import Mathlib.Data.List.Infix
import SecureMcp.Library.Dict

/-! JSON values as the gateway's Python code sees them: the dictionaries, lists, strings,
numbers and constants that `json.loads` builds, with Python's own truth value, equality,
`str` and attribute lookups.
-/

namespace SecureMcp

/-- The exceptions the modelled code can meet: those of Python's own operations on a value
of the wrong shape, and those a store or the upstream raises when it cannot answer.
-/
inductive Exn
  | attributeError
  | typeError
  | valueError
  | overflowError
  | lookupError (message : String)
  | activationError (message : String)
  | structError
  | unavailable
  deriving DecidableEq, Repr

/-- A finite float, named by the decimal that `repr` prints for it: the shortest digits
that read back as the same float, times a power of ten. At most 17 digits are needed.
-/
structure FiniteFloat where
  negative : Bool
  digits : Nat
  exponent : Int
  short : digits < 10 ^ 17
  shortest : digits % 10 ≠ 0 ∨ (digits = 0 ∧ exponent = 0)
  deriving DecidableEq

/-- A Python float. -/
inductive PyFloat
  | finite (value : FiniteFloat)
  | infinity (negative : Bool)
  | nan
  deriving DecidableEq

namespace FiniteFloat

/-- The number of characters before the decimal point when no exponent is printed. -/
def pointPosition (float : FiniteFloat) : Int :=
  (toString float.digits).length + float.exponent

/-- Whether `repr` prints the float in exponent form with a positive exponent: the floats
of magnitude 1e16 and above.
-/
def isLarge (float : FiniteFloat) : Bool :=
  float.digits ≠ 0 && 16 < float.pointPosition

/-- Whether `repr` prints the float in exponent form with a negative exponent. -/
def isSmall (float : FiniteFloat) : Bool :=
  float.digits ≠ 0 && float.pointPosition < -3

/-- The double nearest to a positive fraction, ties to the even significand, as an exact
fraction: a 53-bit significand times the power of two that fits it.
-/
def nearestDouble (numerator denominator : Nat) : Rat :=
  let estimate : Int := (Nat.log2 numerator : Int) - Nat.log2 denominator
  let magnitude : Rat := (numerator : Rat) / denominator
  let order : Int := if magnitude < (2 : Rat) ^ estimate then estimate - 1 else estimate
  let unit : Rat := (2 : Rat) ^ max (order - 52) (-1074)
  let scaled := magnitude / unit
  let low := scaled.floor
  let rest := scaled - low
  let significand :=
    if rest < 1 / 2 then low
    else if 1 / 2 < rest then low + 1
    else if low % 2 = 0 then low
    else low + 1
  significand * unit

/-- The exact value of the float: the double nearest to its printed decimal. -/
def value (float : FiniteFloat) : Rat :=
  let magnitude :=
    if float.digits = 0 then 0
    else nearestDouble (float.digits * 10 ^ float.exponent.toNat) (10 ^ (-float.exponent).toNat)
  if float.negative then -magnitude else magnitude

/-- Digits in exponent form, one of them before the point. -/
def mantissa (digits : List Char) : List Char :=
  match digits with
  | [] => []
  | [only] => [only]
  | first :: rest => first :: '.' :: rest

/-- An exponent prints with a sign and at least two digits. -/
def exponentDigits (exponent : Int) : List Char :=
  let text := (toString exponent.natAbs).toList
  (if exponent < 0 then '-' else '+') :: (if text.length < 2 then '0' :: text else text)

/-- Digits without an exponent, with the point at the given position. -/
def fixedDigits (digits : List Char) (point : Int) : List Char :=
  if point ≤ 0 then
    '0' :: '.' :: (List.replicate point.natAbs '0' ++ digits)
  else if digits.length ≤ point.natAbs then
    digits ++ List.replicate (point.natAbs - digits.length) '0' ++ ['.', '0']
  else
    digits.take point.natAbs ++ '.' :: digits.drop point.natAbs

/-- `repr` of a finite float. -/
def repr (float : FiniteFloat) : List Char :=
  let digits := (toString float.digits).toList
  let sign := if float.negative then ['-'] else []
  if float.isLarge || float.isSmall then
    sign ++ mantissa digits ++ 'e' :: exponentDigits (float.pointPosition - 1)
  else
    sign ++ fixedDigits digits float.pointPosition

end FiniteFloat

/-- `repr` of a float. -/
def PyFloat.repr : PyFloat → List Char
  | .finite value => value.repr
  | .infinity negative => if negative then "-inf".toList else "inf".toList
  | .nan => "nan".toList

/-- A parsed JSON value. Objects keep their insertion order. -/
inductive Json
  | null
  | bool (value : Bool)
  | int (value : Int)
  | float (value : PyFloat)
  | str (text : String)
  | arr (items : List Json)
  | obj (fields : List (String × Json))

namespace Json

mutual
/-- Structural equality of values, which also tells `1` from `1.0` and `true`. -/
def decEq : (left right : Json) → Decidable (left = right)
  | .null, right =>
      match right with
      | .null => isTrue rfl
      | .bool _ | .int _ | .float _ | .str _ | .arr _ | .obj _ => isFalse nofun
  | .bool left, right =>
      match right with
      | .bool right => decidable_of_iff (left = right) (by simp)
      | .null | .int _ | .float _ | .str _ | .arr _ | .obj _ => isFalse nofun
  | .int left, right =>
      match right with
      | .int right => decidable_of_iff (left = right) (by simp)
      | .null | .bool _ | .float _ | .str _ | .arr _ | .obj _ => isFalse nofun
  | .float left, right =>
      match right with
      | .float right => decidable_of_iff (left = right) (by simp)
      | .null | .bool _ | .int _ | .str _ | .arr _ | .obj _ => isFalse nofun
  | .str left, right =>
      match right with
      | .str right => decidable_of_iff (left = right) (by simp)
      | .null | .bool _ | .int _ | .float _ | .arr _ | .obj _ => isFalse nofun
  | .arr left, right =>
      match right with
      | .arr right => @decidable_of_iff _ (left = right) (by simp) (decEqItems left right)
      | .null | .bool _ | .int _ | .float _ | .str _ | .obj _ => isFalse nofun
  | .obj left, right =>
      match right with
      | .obj right => @decidable_of_iff _ (left = right) (by simp) (decEqFields left right)
      | .null | .bool _ | .int _ | .float _ | .str _ | .arr _ => isFalse nofun

def decEqItems : (left right : List Json) → Decidable (left = right)
  | [], [] => isTrue rfl
  | [], _ :: _ | _ :: _, [] => isFalse nofun
  | left :: more, right :: rest =>
      match decEq left right, decEqItems more rest with
      | isTrue same, isTrue tail => isTrue (by rw [same, tail])
      | isFalse differ, _ => isFalse (fun same => differ (List.cons.inj same).1)
      | _, isFalse differ => isFalse (fun same => differ (List.cons.inj same).2)

def decEqFields : (left right : List (String × Json)) → Decidable (left = right)
  | [], [] => isTrue rfl
  | [], _ :: _ | _ :: _, [] => isFalse nofun
  | (key, left) :: more, (other, right) :: rest =>
      match decEq left right, decEqFields more rest, (inferInstance : Decidable (key = other))
      with
      | isTrue same, isTrue tail, isTrue named => isTrue (by rw [same, tail, named])
      | isFalse differ, _, _ =>
          isFalse (fun same => differ (Prod.mk.inj (List.cons.inj same).1).2)
      | _, isFalse differ, _ => isFalse (fun same => differ (List.cons.inj same).2)
      | _, _, isFalse differ =>
          isFalse (fun same => differ (Prod.mk.inj (List.cons.inj same).1).1)
end

instance : DecidableEq Json := decEq

/-- Python's truth value. -/
def truthy : Json → Bool
  | .null => false
  | .bool value => value
  | .int value => value ≠ 0
  | .float (.finite value) => value.digits ≠ 0
  | .float _ => true
  | .str text => text ≠ ""
  | .arr items => !items.isEmpty
  | .obj fields => !fields.isEmpty

/-- `value or {}`. -/
def orEmpty (value : Json) : Json :=
  if value.truthy then value else .obj []

/-- `fields.get(key)`: an absent key reads as `None`. -/
def getKey (fields : List (String × Json)) (key : String) : Json :=
  (fields.lookup key).getD .null

/-- `value.get(key)`, an attribute that only dictionaries have. -/
def get (value : Json) (key : String) : Except Exn Json :=
  match value with
  | .obj fields => .ok (getKey fields key)
  | _ => .error .attributeError

/-- `value[key]` with a text as the key. -/
def item (value : Json) (key : String) : Except Exn Json :=
  match value with
  | .obj fields =>
      match fields.lookup key with
      | some found => .ok found
      | none => .error (.lookupError key)
  | _ => .error .typeError

/-- `key in value`: a key of a dictionary, an item of a list, a substring of a string. -/
def contains (value : Json) (key : String) : Except Exn Bool :=
  match value with
  | .obj fields => .ok (fields.lookup key).isSome
  | .arr items => .ok (decide (Json.str key ∈ items))
  | .str text => .ok (decide (key.toList <:+: text.toList))
  | _ => .error .typeError

/-- The comparable part of a number; booleans count as the integers 0 and 1. -/
inductive Numeric
  | exact (value : Rat)
  | infinity (negative : Bool)
  | nan

def numeric? : Json → Option Numeric
  | .bool value => some (.exact (if value then 1 else 0))
  | .int value => some (.exact value)
  | .float (.finite value) => some (.exact value.value)
  | .float (.infinity negative) => some (.infinity negative)
  | .float .nan => some .nan
  | _ => none

/-- Numbers are equal by value, and a NaN equals nothing. -/
def Numeric.eq : Numeric → Numeric → Bool
  | .exact left, .exact right => left = right
  | .infinity left, .infinity right => left = right
  | _, _ => false

def Numeric.lt : Numeric → Numeric → Bool
  | .exact left, .exact right => left < right
  | .exact _, .infinity negative => !negative
  | .infinity negative, .exact _ => negative
  | .infinity left, .infinity right => left && !right
  | _, _ => false

mutual

/-- Python's `==`: numbers by value, dictionaries without regard to order. -/
def pyEq : Json → Json → Bool
  | .null, .null => true
  | .str left, .str right => left = right
  | .arr left, .arr right => pyEqItems left right
  | .obj left, .obj right => left.length = right.length && pyEqFields left right
  | left, right =>
      match left.numeric?, right.numeric? with
      | some left, some right => left.eq right
      | _, _ => false

def pyEqItems : List Json → List Json → Bool
  | [], [] => true
  | left :: more, right :: rest => pyEq left right && pyEqItems more rest
  | _, _ => false

def pyEqFields : List (String × Json) → List (String × Json) → Bool
  | [], _ => true
  | (key, left) :: more, other =>
      (match other.lookup key with
        | some right => pyEq left right
        | none => false)
      && pyEqFields more other

end

end Json

/-- Whether `repr` leaves a character as it is. Characters beyond ASCII count as printable;
Python's table of unassigned and invisible ones is not modelled.
-/
def isPrintable (char : Char) : Bool :=
  ' ' ≤ char && char ≠ '\x7f'

def hexDigit (value : Nat) : Char :=
  (Nat.toDigits 16 (value % 16)).headD '0'

/-- One character of a string `repr` that is quoted by `quote`. -/
def reprChar (quote char : Char) : List Char :=
  if char = quote || char = '\\' then ['\\', char]
  else if char = '\n' then "\\n".toList
  else if char = '\r' then "\\r".toList
  else if char = '\t' then "\\t".toList
  else if isPrintable char then [char]
  else '\\' :: 'x' :: [hexDigit (char.toNat / 16), hexDigit char.toNat]

/-- `repr` of a string: single quotes, unless only single quotes occur in it. -/
def pyRepr (text : String) : String :=
  let chars := text.toList
  let quote := if '\'' ∈ chars && '"' ∉ chars then '"' else '\''
  String.ofList (quote :: (chars.flatMap (reprChar quote) ++ [quote]))

namespace Json

/-- Comma-separated texts. -/
def commaSeparated (texts : List String) : String :=
  String.intercalate ", " texts

mutual

/-- Python's `repr` of a value. -/
def repr : Json → String
  | .null => "None"
  | .bool true => "True"
  | .bool false => "False"
  | .int value => toString value
  | .float value => String.ofList value.repr
  | .str text => pyRepr text
  | .arr items => "[" ++ commaSeparated (reprItems items) ++ "]"
  | .obj fields => "\x7b" ++ commaSeparated (reprFields fields) ++ "\x7d"

def reprItems : List Json → List String
  | [] => []
  | item :: rest => repr item :: reprItems rest

def reprFields : List (String × Json) → List String
  | [] => []
  | (key, value) :: rest => (pyRepr key ++ ": " ++ repr value) :: reprFields rest

end

/-- `str(value)`: a string is itself, anything else its `repr`. -/
def pyStr : Json → String
  | .str text => text
  | value => value.repr

end Json

end SecureMcp
