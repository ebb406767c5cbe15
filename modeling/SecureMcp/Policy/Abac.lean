import Mathlib.Data.List.Sort
import SecureMcp.Python.Json

/-! ABAC conditions as they are compiled at policy load, and their evaluation.
Parsing is Python's own; a compiled condition is the tree that passed the whitelist.
-/

namespace SecureMcp

/-- The value of an attribute or of a literal. -/
inductive AttrValue
  | str (text : String)
  | int (value : Int)
  | float (value : PyFloat)
  | bool (value : Bool)
  deriving DecidableEq

def AttrValue.toJson : AttrValue → Json
  | .str text => .str text
  | .int value => .int value
  | .float value => .float value
  | .bool value => .bool value

namespace Abac

inductive CompareOp
  | eq
  | notEq
  | lt
  | gt
  | ltE
  | gtE
  deriving DecidableEq

/-- A dotted attribute path or a literal. -/
inductive Operand
  | attribute (path : String)
  | constant (value : AttrValue)

/-- A validated condition; a comparison may chain several operators. -/
inductive Expr
  | all (values : List Expr)
  | any (values : List Expr)
  | not (operand : Expr)
  | compare (left : Operand) (rest : List (CompareOp × Operand))

/-- The attributes a condition is evaluated against. -/
abbrev Attributes : Type := List (String × AttrValue)

def Operand.paths : Operand → List String
  | .attribute path => [path]
  | .constant _ => []

mutual

/-- The attribute paths that a condition mentions. -/
def Expr.paths : Expr → List String
  | .all values | .any values => pathsOf values
  | .not operand => operand.paths
  | .compare left rest => left.paths ++ rest.flatMap (fun step => step.2.paths)

def pathsOf : List Expr → List String
  | [] => []
  | value :: rest => value.paths ++ pathsOf rest

end

structure Condition where
  source : String
  tree : Expr

namespace Condition

/-- The paths as a set, in order of their first mention. -/
def paths (condition : Condition) : List String :=
  condition.tree.paths.dedup

def referencesRisk (condition : Condition) : Bool :=
  condition.paths.any (fun path => "risk.".toList.isPrefixOf path.toList)

end Condition

/-- Strings are ordered by code point and numbers by value; anything else cannot be ordered.
-/
def less (left right : AttrValue) : Except Exn Bool :=
  match left, right with
  | .str left, .str right => return left < right
  | left, right =>
      match left.toJson.numeric?, right.toJson.numeric? with
      | some left, some right => return left.lt right
      | _, _ => throw .typeError

def compare (op : CompareOp) (left right : AttrValue) : Except Exn Bool :=
  let same := left.toJson.pyEq right.toJson
  match op with
  | .eq => return same
  | .notEq => return !same
  | .lt => less left right
  | .gt => less right left
  | .ltE => return (← less left right) || same
  | .gtE => return (← less right left) || same

def operand (attrs : Attributes) : Operand → Except Exn AttrValue
  | .attribute path =>
      match attrs.lookup path with
      | some value => .ok value
      | none => .error (.lookupError path)
  | .constant value => .ok value

/-- A chain of comparisons stops at the first one that fails. -/
def compareChain (attrs : Attributes) (left : AttrValue)
    : List (CompareOp × Operand) → Except Exn Bool
  | [] => return true
  | (op, comparator) :: rest => do
      let right ← operand attrs comparator
      if ← compare op left right then compareChain attrs right rest else return false

mutual

def eval (attrs : Attributes) : Expr → Except Exn Bool
  | .all values => evalAll attrs values
  | .any values => evalAny attrs values
  | .not value => return !(← eval attrs value)
  | .compare left rest => do compareChain attrs (← operand attrs left) rest

def evalAll (attrs : Attributes) : List Expr → Except Exn Bool
  | [] => return true
  | value :: rest => do if ← eval attrs value then evalAll attrs rest else return false

def evalAny (attrs : Attributes) : List Expr → Except Exn Bool
  | [] => return false
  | value :: rest => do if ← eval attrs value then return true else evalAny attrs rest

end

/-- The paths that no attribute binds, sorted. -/
def missing (condition : Condition) (attrs : Attributes) : List String :=
  (condition.paths.filter (fun path => (attrs.lookup path).isNone)).insertionSort (· ≤ ·)

/-- Whether a condition is satisfied, and its unbound paths: any unbound path makes the
whole condition not satisfied before a combinator runs.
-/
def evaluate (condition : Condition) (attrs : Attributes)
    : Except Exn (Bool × List String) := do
  match missing condition attrs with
  | [] => return (← eval attrs condition.tree, [])
  | unbound => return (false, unbound)

end Abac

end SecureMcp
