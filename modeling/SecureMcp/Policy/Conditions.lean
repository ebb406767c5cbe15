import SecureMcp.Policy.Abac
import Mathlib.Data.List.Dedup

/-! Conditions as Python parses them. The whitelist decides which trees are conditions and
collects the paths they mention; evaluation resolves those paths first and then walks the
tree. The parser is Python's own: here it is any function.
-/

namespace SecureMcp.Abac

inductive CmpOp
  | eq
  | notEq
  | lt
  | ltE
  | gt
  | gtE
  | is
  | isNot
  | isIn
  | notIn
  deriving DecidableEq

namespace CmpOp

/-- The class of an operator in `ast`. -/
def className : CmpOp → String
  | .eq => "Eq"
  | .notEq => "NotEq"
  | .lt => "Lt"
  | .ltE => "LtE"
  | .gt => "Gt"
  | .gtE => "GtE"
  | .is => "Is"
  | .isNot => "IsNot"
  | .isIn => "In"
  | .notIn => "NotIn"

/-- The operators that `_COMPARE_OPS` lists. -/
def allowed (op : CmpOp) : Bool :=
  op ∈ [.eq, .notEq, .lt, .gt, .ltE, .gtE]

/-- `_compare` takes every operator it does not name for `>=`. -/
def named : CmpOp → CompareOp
  | .eq => .eq
  | .notEq => .notEq
  | .lt => .lt
  | .gt => .gt
  | .ltE => .ltE
  | _ => .gtE

end CmpOp

inductive BoolOperator
  | and
  | or

/-- The literals: strings, numbers and booleans, and the others with their `repr`. -/
inductive Literal
  | value (value : AttrValue)
  | other (repr : String)

/-- An expression tree of Python; what no condition contains is only named. A comparison has
as many operators as comparators.
-/
inductive Node
  | boolOp (op : BoolOperator) (values : List Node)
  | unaryNot (operand : Node)
  | compare (left : Node) (rest : List (CmpOp × Node))
  | attr (value : Node) (name : String)
  | name (id : String)
  | constant (value : Literal)
  | other (className : String) (children : List Node)

namespace Node

def className : Node → String
  | .boolOp _ _ => "BoolOp"
  | .unaryNot _ => "UnaryOp"
  | .compare _ _ => "Compare"
  | .attr _ _ => "Attribute"
  | .name _ => "Name"
  | .constant _ => "Constant"
  | .other className _ => className

def children : Node → List Node
  | .boolOp _ values => values
  | .unaryNot operand => [operand]
  | .compare left rest => left :: rest.map Prod.snd
  | .attr value _ => [value]
  | .name _ | .constant _ => []
  | .other _ children => children

end Node

def attributeRoots : List String := ["context", "identity", "risk", "tool"]

def maxConditionLength : Nat := 500

def pathText (root attr : String) : String :=
  root ++ "." ++ attr

/-- `_validate_operand`; the error is the text of the ValueError. -/
def validateOperand (node : Node) (paths : List String) : Except String (List String) :=
  match node with
  | .attr (.name root) attr =>
      if root ∈ attributeRoots then .ok (paths.insert (pathText root attr))
      else
        .error ("unknown attribute root '" ++ root ++ "' (allowed: "
          ++ ", ".intercalate attributeRoots ++ ")")
  | .attr _ _ => .error "attribute paths must be exactly root.attribute"
  | .constant (.value _) => .ok paths
  | .constant (.other repr) => .error ("literal " ++ repr ++ " is not allowed")
  | node =>
      .error (node.className ++ " is not allowed: comparison operands are"
        ++ " attribute paths or string/number/bool literals")

def validateOperands : List Node → List String → Except String (List String)
  | [], paths => .ok paths
  | node :: rest, paths => do validateOperands rest (← validateOperand node paths)

mutual

/-- `_validate`: the paths so far, with those of the tree. -/
def validate (node : Node) (paths : List String) : Except String (List String) :=
  match node with
  | .boolOp _ values => validateAll values paths
  | .unaryNot operand => validate operand paths
  | .compare left rest =>
      match rest.find? (fun step => !step.1.allowed) with
      | some step => .error ("comparison operator '" ++ step.1.className ++ "' is not allowed")
      | none => validateOperands (left :: rest.map Prod.snd) paths
  | node =>
      .error (node.className ++ " is not allowed: conditions are comparisons"
        ++ " combined with and/or/not")

def validateAll : List Node → List String → Except String (List String)
  | [], paths => .ok paths
  | node :: rest, paths => do validateAll rest (← validate node paths)

end

/-- A condition with the tree it was compiled from. -/
structure Compiled where
  source : String
  tree : Node
  paths : List String

/-- `compile_condition`. -/
def compileCondition (parse : String → Except String Node) (source : String)
    : Except String Compiled :=
  if source.length > maxConditionLength then
    .error ("condition exceeds " ++ toString maxConditionLength ++ " characters")
  else
    match parse source with
    | .error message => .error ("invalid condition syntax: " ++ message)
    | .ok tree => do
        let paths ← validate tree []
        return { source, tree, paths }

/-- What an evaluation can raise: a failed assertion, an unbound path, and the order
comparison of values that have no order.
-/
inductive Fault
  | assertion
  | missingKey (path : String)
  | incomparable
  deriving DecidableEq

/-- `_compare`. Only an order comparison raises. -/
def compareValues (op : CmpOp) (left right : AttrValue) : Except Fault Bool :=
  (compare op.named left right).mapError (fun _ => .incomparable)

/-- `_operand`. -/
def operandValue (attrs : Attributes) : Node → Except Fault AttrValue
  | .attr (.name root) attr =>
      match attrs.lookup (pathText root attr) with
      | some value => .ok value
      | none => .error (.missingKey (pathText root attr))
  | .constant (.value value) => .ok value
  | _ => .error .assertion

/-- The comparisons of a chain, up to the first that fails. -/
def evalChain (attrs : Attributes) (left : AttrValue)
    : List (CmpOp × Node) → Except Fault Bool
  | [] => .ok true
  | (op, comparator) :: rest => do
      let right ← operandValue attrs comparator
      if ← compareValues op left right then evalChain attrs right rest else return false

mutual

/-- `_eval`. -/
def evalNode (attrs : Attributes) : Node → Except Fault Bool
  | .boolOp .and values => evalEvery attrs values
  | .boolOp .or values => evalSome attrs values
  | .unaryNot operand => return !(← evalNode attrs operand)
  | .compare left rest => do evalChain attrs (← operandValue attrs left) rest
  | _ => .error .assertion

def evalEvery (attrs : Attributes) : List Node → Except Fault Bool
  | [] => .ok true
  | node :: rest => do if ← evalNode attrs node then evalEvery attrs rest else return false

def evalSome (attrs : Attributes) : List Node → Except Fault Bool
  | [] => .ok false
  | node :: rest => do if ← evalNode attrs node then return true else evalSome attrs rest

end

/-- The paths of a compiled condition that no attribute binds, sorted. -/
def Compiled.missing (condition : Compiled) (attrs : Attributes) : List String :=
  (condition.paths.filter (fun path => (attrs.lookup path).isNone)).insertionSort (· ≤ ·)

/-- `evaluate`. -/
def Compiled.evaluate (condition : Compiled) (attrs : Attributes)
    : Except Fault (Bool × List String) := do
  match condition.missing attrs with
  | [] => return (← evalNode attrs condition.tree, [])
  | unbound => return (false, unbound)

end SecureMcp.Abac
