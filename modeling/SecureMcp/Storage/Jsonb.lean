import SecureMcp.Python.Reordering

/-! What a JSONB column gives back for a stored value: the same value with the fields of its
objects in some order, and every number by its exact decimal value. A number that was sent
in exponent form comes back in full, so an integral one is read as an integer, and zero has
no sign.
-/

namespace SecureMcp

namespace FiniteFloat

/-- Whether a float comes back spelled as it was sent. -/
def stable (float : FiniteFloat) : Bool :=
  !float.isLarge && !(float.negative && float.digits = 0)

/-- The integer that a float of large magnitude stands for. -/
def toInt (float : FiniteFloat) : Int :=
  let magnitude : Int := (float.digits * 10 ^ float.exponent.toNat : Nat)
  if float.negative then -magnitude else magnitude

end FiniteFloat

namespace Jsonb

/-- The number that a column gives back for a finite float. -/
def storedFloat (float : FiniteFloat) : Json :=
  if float.isLarge then .int float.toInt
  else if float.digits = 0 then .float (.finite { float with negative := false })
  else .float (.finite float)

mutual

/-- A stored value, with its objects still in the order in which they were sent. -/
def normalize : Json → Json
  | .float (.finite value) => storedFloat value
  | .arr items => .arr (normalizeItems items)
  | .obj fields => .obj (normalizeFields fields)
  | value => value

def normalizeItems : List Json → List Json
  | [] => []
  | item :: rest => normalize item :: normalizeItems rest

def normalizeFields : List (String × Json) → List (String × Json)
  | [] => []
  | (key, value) :: rest => (key, normalize value) :: normalizeFields rest

end

/-- (ReadBack value stored) means that a column given `value` may give back `stored`. -/
def ReadBack (value stored : Json) : Prop :=
  Json.Reordered (normalize value) stored

mutual

/-- The floats anywhere in a value that do not come back spelled as they were sent. -/
def unstableFloats : Json → List FiniteFloat
  | .float (.finite value) => if value.stable then [] else [value]
  | .arr items => unstableItems items
  | .obj fields => unstableFields fields
  | _ => []

def unstableItems : List Json → List FiniteFloat
  | [] => []
  | item :: rest => unstableFloats item ++ unstableItems rest

def unstableFields : List (String × Json) → List FiniteFloat
  | [] => []
  | (_, value) :: rest => unstableFloats value ++ unstableFields rest

end

mutual

/-- Whether a column takes a value: no string in it holds a null character. -/
def storable : Json → Bool
  | .str text => '\x00' ∉ text.toList
  | .arr items => storableItems items
  | .obj fields => storableFields fields
  | _ => true

def storableItems : List Json → Bool
  | [] => true
  | item :: rest => storable item && storableItems rest

def storableFields : List (String × Json) → Bool
  | [] => true
  | (key, value) :: rest => '\x00' ∉ key.toList && storable value && storableFields rest

end

end Jsonb

end SecureMcp
