import SecureMcp.Policy.Conditions

/-! What a condition means: a verdict for each tree whose paths are bound, in which the first
part that decides a conjunction or a disjunction decides it, and a chain of comparisons is
the conjunction of its adjacent pairs. Evaluation agrees with it on every tree that the
whitelist accepts.
-/

namespace SecureMcp.Abac

/-- A condition holds or fails, or comes to an order comparison of values without an order. -/
inductive Verdict
  | holds
  | fails
  | incomparable
  deriving DecidableEq

namespace Verdict

def ofBool (satisfied : Bool) : Verdict :=
  if satisfied then .holds else .fails

def not : Verdict → Verdict
  | .holds => .fails
  | .fails => .holds
  | .incomparable => .incomparable

/-- The first verdict that is not `holds`. -/
def conj (verdicts : List Verdict) : Verdict :=
  (verdicts.find? (fun verdict => verdict ≠ .holds)).getD .holds

/-- The first verdict that is not `fails`. -/
def disj (verdicts : List Verdict) : Verdict :=
  (verdicts.find? (fun verdict => verdict ≠ .fails)).getD .fails

/-- What evaluation gives for a verdict. -/
def outcome : Verdict → Except Fault Bool
  | .holds => .ok true
  | .fails => .ok false
  | .incomparable => .error .incomparable

end Verdict

/-- The value of an operand whose path is bound. -/
def valueOf (attrs : Attributes) : Node → Option AttrValue
  | .attr (.name root) attr => attrs.lookup (pathText root attr)
  | .constant (.value value) => some value
  | _ => none

/-- One comparison: equality of any two values, or the order of two strings or two numbers. -/
def relation (op : CmpOp) (left right : AttrValue) : Verdict :=
  match compare op.named left right with
  | .ok satisfied => .ofBool satisfied
  | .error _ => .incomparable

/-- The comparisons of adjacent values. -/
def adjacent (ops : List CmpOp) (values : List AttrValue) : List Verdict :=
  (ops.zip (values.zip values.tail)).map (fun (op, left, right) => relation op left right)

mutual

/-- The verdict of a condition. -/
def meaning (attrs : Attributes) : Node → Option Verdict
  | .boolOp .and values => (meanings attrs values).map Verdict.conj
  | .boolOp .or values => (meanings attrs values).map Verdict.disj
  | .unaryNot operand => (meaning attrs operand).map Verdict.not
  | .compare left rest =>
      ((left :: rest.map Prod.snd).mapM (valueOf attrs)).map
        (fun values => .conj (adjacent (rest.map Prod.fst) values))
  | _ => none

def meanings (attrs : Attributes) : List Node → Option (List Verdict)
  | [] => some []
  | node :: rest => (meaning attrs node).bind (fun first => (meanings attrs rest).map (first :: ·))

end

/-- A path occurs somewhere in a tree. -/
inductive Occurs (path : String) : Node → Prop
  | here {root attr : String} (same : pathText root attr = path)
    : Occurs path (.attr (.name root) attr)
  | within {node child : Node} (member : child ∈ node.children) (deeper : Occurs path child)
    : Occurs path node

theorem occurs_iff_children {path : String} {node : Node}
    (notPath : ∀ root attr, node ≠ .attr (.name root) attr)
    : Occurs path node ↔ ∃ child ∈ node.children, Occurs path child := by
  refine ⟨?_, ?_⟩
  · intro occurs
    cases occurs with
    | here same => exact absurd rfl (notPath _ _)
    | within member deeper => exact ⟨_, member, deeper⟩
  · intro ⟨child, member, deeper⟩
    exact .within member deeper

/-- A path of depth one has nothing else in it. -/
theorem occurs_attribute_iff {path root attr : String}
    : Occurs path (.attr (.name root) attr) ↔ pathText root attr = path := by
  refine ⟨?_, .here⟩
  intro occurs
  cases occurs with
  | here same => exact same
  | within member deeper =>
      obtain rfl := List.mem_singleton.mp member
      rw [occurs_iff_children (by simp)] at deeper
      simp [Node.children] at deeper

inductive IsOperand : Node → Prop
  | path (root attr : String) : IsOperand (.attr (.name root) attr)
  | literal (value : AttrValue) : IsOperand (.constant (.value value))

/-- The trees that the whitelist accepts. -/
inductive IsCondition : Node → Prop
  | boolOp (op : BoolOperator) {values : List Node}
    (each : ∀ value ∈ values, IsCondition value)
    : IsCondition (.boolOp op values)
  | unaryNot {operand : Node} (inner : IsCondition operand) : IsCondition (.unaryNot operand)
  | compare {left : Node} {rest : List (CmpOp × Node)} (allowed : ∀ step ∈ rest, step.1.allowed)
    (operands : ∀ operand ∈ left :: rest.map Prod.snd, IsOperand operand)
    : IsCondition (.compare left rest)

/-- What a validation collected: the paths that occur, each once. -/
structure Collected (occurs : String → Prop) (paths after : List String) : Prop where
  mem : ∀ path, path ∈ after ↔ path ∈ paths ∨ occurs path
  nodup : paths.Nodup → after.Nodup

theorem Collected.nothing {occurs : String → Prop} {paths : List String}
    (none : ∀ path, ¬ occurs path)
    : Collected occurs paths paths where
  mem path := by simp [none path]
  nodup := id

theorem Collected.congr {occurs other : String → Prop} {paths after : List String}
    (collected : Collected other paths after) (same : ∀ path, occurs path ↔ other path)
    : Collected occurs paths after where
  mem path := by rw [collected.mem, same]
  nodup := collected.nodup

theorem Collected.both {first second occurs : String → Prop} {paths middle after : List String}
    (one : Collected first paths middle) (two : Collected second middle after)
    (either : ∀ path, occurs path ↔ first path ∨ second path)
    : Collected occurs paths after where
  mem path := by rw [two.mem, one.mem, either, or_assoc]
  nodup distinct := two.nodup (one.nodup distinct)

section

variable {node : Node} {nodes : List Node} {paths after : List String}

theorem collected_of_validateOperand (accepted : validateOperand node paths = .ok after)
    : IsOperand node ∧ Collected (fun path => Occurs path node) paths after := by
  cases node with
  | attr value name =>
      cases value with
      | name root =>
          change (if root ∈ attributeRoots then _ else _) = _ at accepted
          split at accepted
          · cases accepted
            refine ⟨.path root name, ?_, ?_⟩
            · intro path
              rw [List.mem_insert_iff, occurs_attribute_iff, or_comm, eq_comm]
            · exact fun distinct => distinct.insert
          · cases accepted
      | _ => cases accepted
  | constant literal =>
      cases literal with
      | value value =>
          cases accepted
          refine ⟨.literal value, .nothing ?_⟩
          intro path occurs
          rw [occurs_iff_children (by simp)] at occurs
          simp [Node.children] at occurs
      | other repr => cases accepted
  | _ => cases accepted

/-- The operands of a comparison, by induction on them. -/
theorem collected_of_validateOperands (accepted : validateOperands nodes paths = .ok after)
    : (∀ node ∈ nodes, IsOperand node)
      ∧ Collected (fun path => ∃ node ∈ nodes, Occurs path node) paths after := by
  induction nodes generalizing paths with
  | nil =>
      cases accepted
      exact ⟨by simp, .nothing (by simp)⟩
  | cons node rest ih =>
      unfold validateOperands at accepted
      cases first : validateOperand node paths with
      | error message =>
          rw [first] at accepted
          cases accepted
      | ok middle =>
          rw [first] at accepted
          obtain ⟨operand, here⟩ := collected_of_validateOperand first
          obtain ⟨operands, later⟩ := ih accepted
          exact ⟨List.forall_mem_cons.mpr ⟨operand, operands⟩, here.both later (by simp)⟩

end

mutual

/-- An accepted tree is a condition, and its paths are collected, by induction on it. -/
theorem collected_of_validate (node : Node) {paths after : List String}
    (accepted : validate node paths = .ok after)
    : IsCondition node ∧ Collected (fun path => Occurs path node) paths after := by
  cases node with
  | boolOp op values =>
      obtain ⟨each, collected⟩ := collected_of_validateAll values accepted
      exact ⟨.boolOp op each, collected.congr (fun path => occurs_iff_children (by simp))⟩
  | unaryNot operand =>
      obtain ⟨inner, collected⟩ := collected_of_validate operand accepted
      refine ⟨.unaryNot inner, collected.congr (fun path => ?_)⟩
      rw [occurs_iff_children (by simp)]
      simp [Node.children]
  | compare left rest =>
      unfold validate at accepted
      split at accepted
      · cases accepted
      · next refused =>
          obtain ⟨operands, collected⟩ := collected_of_validateOperands accepted
          refine ⟨.compare ?_ operands, collected.congr (fun path => ?_)⟩
          · intro step member
            simpa using List.find?_eq_none.mp refused step member
          · exact occurs_iff_children (by simp)
  | _ => cases accepted

theorem collected_of_validateAll (nodes : List Node) {paths after : List String}
    (accepted : validateAll nodes paths = .ok after)
    : (∀ node ∈ nodes, IsCondition node)
      ∧ Collected (fun path => ∃ node ∈ nodes, Occurs path node) paths after := by
  cases nodes with
  | nil =>
      cases accepted
      exact ⟨by simp, .nothing (by simp)⟩
  | cons node rest =>
      unfold validateAll at accepted
      cases first : validate node paths with
      | error message =>
          rw [first] at accepted
          cases accepted
      | ok middle =>
          rw [first] at accepted
          obtain ⟨condition, here⟩ := collected_of_validate node first
          obtain ⟨conditions, later⟩ := collected_of_validateAll rest accepted
          exact ⟨List.forall_mem_cons.mpr ⟨condition, conditions⟩, here.both later (by simp)⟩

end

namespace Verdict

theorem conj_cons (first : Verdict) (rest : List Verdict)
    : conj (first :: rest) = if first = .holds then conj rest else first := by
  unfold conj
  by_cases holds : first = .holds <;> simp [holds]

theorem disj_cons (first : Verdict) (rest : List Verdict)
    : disj (first :: rest) = if first = .fails then disj rest else first := by
  unfold disj
  by_cases fails : first = .fails <;> simp [fails]

end Verdict

theorem compareValues_eq (op : CmpOp) (left right : AttrValue)
    : compareValues op left right = (relation op left right).outcome := by
  unfold compareValues relation
  cases compare op.named left right with
  | error raised => rfl
  | ok satisfied => cases satisfied <;> rfl

section

variable {attrs : Attributes}

/-- Every path in a tree is bound. -/
def Bound (attrs : Attributes) (node : Node) : Prop :=
  ∀ path, Occurs path node → (attrs.lookup path).isSome

theorem Bound.child {node child : Node} (bound : Bound attrs node)
    (member : child ∈ node.children)
    : Bound attrs child :=
  fun path occurs => bound path (.within member occurs)

theorem operandValue_of_bound {node : Node} (operand : IsOperand node)
    (bound : Bound attrs node)
    : ∃ value, valueOf attrs node = some value ∧ operandValue attrs node = .ok value := by
  cases operand with
  | path root attr =>
      obtain ⟨value, found⟩ := Option.isSome_iff_exists.mp (bound _ (.here rfl))
      exact ⟨value, found, by simp [operandValue, found]⟩
  | literal value => exact ⟨value, rfl, rfl⟩

/-- A chain is the conjunction of its adjacent comparisons, by induction on it. -/
theorem evalChain_eq (left : AttrValue) {rest : List (CmpOp × Node)}
    (operands : ∀ step ∈ rest, IsOperand step.2 ∧ Bound attrs step.2)
    : ∃ values,
        (rest.map Prod.snd).mapM (valueOf attrs) = some values
        ∧ evalChain attrs left rest
          = (Verdict.conj (adjacent (rest.map Prod.fst) (left :: values))).outcome := by
  induction rest generalizing left with
  | nil => exact ⟨[], rfl, rfl⟩
  | cons step rest ih =>
      obtain ⟨⟨operand, bound⟩, later⟩ := List.forall_mem_cons.mp operands
      obtain ⟨right, found, evaluated⟩ := operandValue_of_bound operand bound
      obtain ⟨values, others, chain⟩ := ih right later
      refine ⟨right :: values, by simp [found, others], ?_⟩
      have first : adjacent ((step :: rest).map Prod.fst) (left :: right :: values)
          = relation step.1 left right :: adjacent (rest.map Prod.fst) (right :: values) :=
        rfl
      rw [first, Verdict.conj_cons, evalChain, evaluated]
      change compareValues step.1 left right >>= _ = _
      rw [compareValues_eq]
      cases relation step.1 left right with
      | holds => exact chain
      | fails => rfl
      | incomparable => rfl

/-- The values of a combinator, by induction on them: evaluation stops at the first that
decides it.
-/
theorem evalAll_eq {values : List Node}
    (each : ∀ value ∈ values, ∃ verdict,
      meaning attrs value = some verdict ∧ evalNode attrs value = verdict.outcome)
    : ∃ verdicts,
        meanings attrs values = some verdicts
        ∧ evalEvery attrs values = (Verdict.conj verdicts).outcome
        ∧ evalSome attrs values = (Verdict.disj verdicts).outcome := by
  induction values with
  | nil => exact ⟨[], rfl, rfl, rfl⟩
  | cons value rest ih =>
      obtain ⟨⟨verdict, means, evaluated⟩, later⟩ := List.forall_mem_cons.mp each
      obtain ⟨verdicts, others, every, some⟩ := ih later
      refine ⟨verdict :: verdicts, by simp [meanings, means, others], ?_, ?_⟩
      · rw [Verdict.conj_cons, evalEvery, evaluated]
        cases verdict with
        | holds => exact every
        | fails => rfl
        | incomparable => rfl
      · rw [Verdict.disj_cons, evalSome, evaluated]
        cases verdict with
        | holds => rfl
        | fails => exact some
        | incomparable => rfl

/-- A condition whose paths are bound has a verdict, and evaluates to it, by induction on
the condition.
-/
theorem evalNode_eq {node : Node} (condition : IsCondition node) (bound : Bound attrs node)
    : ∃ verdict, meaning attrs node = some verdict ∧ evalNode attrs node = verdict.outcome := by
  induction condition with
  | @boolOp op values each ih =>
      obtain ⟨verdicts, means, every, some⟩ :=
        evalAll_eq (fun value member => ih value member (bound.child member))
      cases op with
      | and => exact ⟨.conj verdicts, by simp [meaning, means], every⟩
      | or => exact ⟨.disj verdicts, by simp [meaning, means], some⟩
  | unaryNot inner ih =>
      obtain ⟨verdict, means, evaluated⟩ := ih (bound.child (List.mem_singleton.mpr rfl))
      refine ⟨verdict.not, by simp [meaning, means], ?_⟩
      rw [evalNode, evaluated]
      cases verdict <;> rfl
  | @compare left rest allowed operands =>
      obtain ⟨first, later⟩ := List.forall_mem_cons.mp operands
      obtain ⟨value, found, evaluated⟩ :=
        operandValue_of_bound first (bound.child List.mem_cons_self)
      have steps : ∀ step ∈ rest, IsOperand step.2 ∧ Bound attrs step.2 := by
        intro step member
        have among : step.2 ∈ rest.map Prod.snd := List.mem_map_of_mem member
        exact ⟨later _ among, bound.child (List.mem_cons_of_mem _ among)⟩
      obtain ⟨values, others, chain⟩ := evalChain_eq value steps
      refine ⟨.conj (adjacent (rest.map Prod.fst) (value :: values)), ?_, ?_⟩
      · simp [meaning, found, others]
      · rw [evalNode, evaluated]
        exact chain

end

/-- What `compile_condition` accepts is a condition, with the paths that occur in it. -/
theorem collected_of_compile {parse : String → Except String Node} {source : String}
    {condition : Compiled} (accepted : compileCondition parse source = .ok condition)
    : parse source = .ok condition.tree
      ∧ IsCondition condition.tree
      ∧ Collected (fun path => Occurs path condition.tree) [] condition.paths := by
  unfold compileCondition at accepted
  split at accepted
  · cases accepted
  · split at accepted
    · cases accepted
    · next tree parsed =>
        cases validated : validate tree [] with
        | error message =>
            rw [validated] at accepted
            cases accepted
        | ok paths =>
            rw [validated] at accepted
            cases accepted
            exact ⟨parsed, collected_of_validate tree validated⟩

section

variable {parse : String → Except String Node} {source : String} {condition : Compiled}

/-- The unbound paths: those that occur, sorted, each once. -/
theorem mem_missing (accepted : compileCondition parse source = .ok condition)
    (attrs : Attributes) (path : String)
    : path ∈ condition.missing attrs ↔ Occurs path condition.tree ∧ attrs.lookup path = none := by
  obtain ⟨_, _, collected⟩ := collected_of_compile accepted
  simp [Compiled.missing, collected.mem]

theorem missing_sorted (condition : Compiled) (attrs : Attributes)
    : (condition.missing attrs).Pairwise (· ≤ ·) :=
  List.pairwise_insertionSort _ _

theorem missing_nodup (accepted : compileCondition parse source = .ok condition)
    (attrs : Attributes)
    : (condition.missing attrs).Nodup := by
  obtain ⟨_, _, collected⟩ := collected_of_compile accepted
  have distinct := (collected.nodup List.nodup_nil).filter
    (fun path => (attrs.lookup path).isNone)
  exact (List.perm_insertionSort (· ≤ ·) _).nodup_iff.mpr distinct

/-- Any unbound path decides a condition and is reported, with the others in order; a
condition whose paths are bound evaluates to its meaning, and raises only where that comes
to values without an order.
-/
theorem evaluate_meets_meaning (accepted : compileCondition parse source = .ok condition)
    (attrs : Attributes)
    : ∃ unbound : List String,
        unbound.Pairwise (· ≤ ·)
        ∧ unbound.Nodup
        ∧ (∀ path, path ∈ unbound ↔ Occurs path condition.tree ∧ attrs.lookup path = none)
        ∧ (unbound ≠ [] → condition.evaluate attrs = .ok (false, unbound))
        ∧ (unbound = [] → ∃ verdict,
            meaning attrs condition.tree = some verdict
            ∧ condition.evaluate attrs = verdict.outcome.map (fun satisfied => (satisfied, [])))
        ∧ ∀ fault, condition.evaluate attrs = .error fault → fault = .incomparable := by
  obtain ⟨_, shape, _⟩ := collected_of_compile accepted
  have all := mem_missing accepted attrs
  have unboundCase (some : condition.missing attrs ≠ [])
      : condition.evaluate attrs = .ok (false, condition.missing attrs) := by
    unfold Compiled.evaluate
    cases found : condition.missing attrs with
    | nil => exact absurd found some
    | cons path rest => rfl
  have boundCase (none : condition.missing attrs = [])
      : ∃ verdict,
          meaning attrs condition.tree = .some verdict
          ∧ condition.evaluate attrs
            = verdict.outcome.map (fun satisfied => (satisfied, [])) := by
    have bound : Bound attrs condition.tree := by
      intro path occurs
      by_contra unbound
      have member := (all path).mpr ⟨occurs, Option.not_isSome_iff_eq_none.mp unbound⟩
      simp [none] at member
    obtain ⟨verdict, means, evaluated⟩ := evalNode_eq shape bound
    refine ⟨verdict, means, ?_⟩
    unfold Compiled.evaluate
    rw [none, evaluated]
    cases verdict <;> rfl
  refine ⟨condition.missing attrs, missing_sorted condition attrs, missing_nodup accepted attrs,
    all, unboundCase, boundCase, ?_⟩
  intro fault raised
  by_cases none : condition.missing attrs = []
  · obtain ⟨verdict, _, evaluated⟩ := boundCase none
    rw [evaluated] at raised
    cases verdict with
    | holds => cases raised
    | fails => cases raised
    | incomparable =>
        cases raised
        rfl
  · rw [unboundCase none] at raised
    cases raised

end

/-- `not identity.trust < 3`. -/
def untrusted : Compiled where
  source := "not identity.trust < 3"
  tree :=
    .unaryNot (.compare (.attr (.name "identity") "trust") [(.lt, .constant (.value (.int 3)))])
  paths := ["identity.trust"]

/-- Witness: a negated comparison with its path unbound, and with its path bound. -/
theorem untrusted_meets_meaning
    : (∃ unbound,
        "identity.trust" ∈ unbound ∧ untrusted.evaluate [] = .ok (false, unbound))
      ∧ ∃ verdict,
          meaning [("identity.trust", .int 5)] untrusted.tree = some verdict
          ∧ untrusted.evaluate [("identity.trust", .int 5)]
            = verdict.outcome.map (fun satisfied => (satisfied, [])) := by
  have accepted : compileCondition (fun _ => .ok untrusted.tree) untrusted.source
      = .ok untrusted := rfl
  have occurs (path : String) : Occurs path untrusted.tree ↔ path = "identity.trust" := by
    have constant : ¬ Occurs path (.constant (.value (.int 3))) := by
      rw [occurs_iff_children (by simp)]
      simp [Node.children]
    unfold untrusted
    rw [occurs_iff_children (by simp)]
    simp only [Node.children, List.mem_singleton, exists_eq_left]
    rw [occurs_iff_children (by simp)]
    simp [Node.children, occurs_attribute_iff, constant, pathText, eq_comm]
  refine ⟨?_, ?_⟩
  · obtain ⟨unbound, _, _, paths, decides, _, _⟩ := evaluate_meets_meaning accepted []
    have named : "identity.trust" ∈ unbound := (paths _).mpr ⟨(occurs _).mpr rfl, rfl⟩
    exact ⟨unbound, named, decides (List.ne_nil_of_mem named)⟩
  · obtain ⟨unbound, _, _, paths, _, means, _⟩ :=
      evaluate_meets_meaning accepted [("identity.trust", .int 5)]
    refine means (List.eq_nil_iff_forall_not_mem.mpr fun path member => ?_)
    obtain ⟨within, absent⟩ := (paths path).mp member
    cases (occurs path).mp within
    cases absent

/-- The operand of a validated condition. -/
def lowerOperand : Node → Option Operand
  | .attr (.name root) attr => some (.attribute (pathText root attr))
  | .constant (.value value) => some (.constant value)
  | _ => none

mutual

/-- A tree without what only parsing needs. -/
def lower : Node → Option Expr
  | .boolOp .and values => (lowerAll values).map .all
  | .boolOp .or values => (lowerAll values).map .any
  | .unaryNot operand => (lower operand).map .not
  | .compare left rest => do
      let operand ← lowerOperand left
      let steps ← rest.mapM (fun step => (lowerOperand step.2).map (step.1.named, ·))
      return .compare operand steps
  | _ => none

def lowerAll : List Node → Option (List Expr)
  | [] => some []
  | node :: rest => (lower node).bind (fun first => (lowerAll rest).map (first :: ·))

end

/-- The faults as the evaluation of lowered conditions raises them. -/
def faultOf : Exn → Fault
  | .lookupError path => .missingKey path
  | _ => .incomparable

section

variable {attrs : Attributes}

/-- Only an order comparison raises. -/
theorem less_error {left right : AttrValue} {raised : Exn} (failed : less left right = .error raised)
    : raised = .typeError := by
  unfold less at failed
  split at failed
  · cases failed
  · split at failed
    · cases failed
    · cases failed
      rfl

theorem compareValues_lower (op : CmpOp) (left right : AttrValue)
    : compareValues op left right = (compare op.named left right).mapError faultOf := by
  have raises {one two : AttrValue} {rest : Bool → Except Exn Bool}
      (never : ∀ value raised, rest value ≠ .error raised)
      : (less one two >>= rest).mapError (fun _ => Fault.incomparable)
        = (less one two >>= rest).mapError faultOf := by
    cases ordered : less one two with
    | error raised =>
        obtain rfl := less_error ordered
        rfl
    | ok value =>
        change (rest value).mapError _ = (rest value).mapError _
        cases outcome : rest value with
        | error raised => exact absurd outcome (never value raised)
        | ok result => rfl
  have plain (one two : AttrValue)
      : (less one two).mapError (fun _ => Fault.incomparable)
        = (less one two).mapError faultOf := by
    cases ordered : less one two with
    | error raised =>
        obtain rfl := less_error ordered
        rfl
    | ok value => rfl
  unfold compareValues
  cases op.named with
  | eq => rfl
  | notEq => rfl
  | lt => exact plain left right
  | gt => exact plain right left
  | ltE => exact raises (by simp [pure, Except.pure])
  | gtE => exact raises (by simp [pure, Except.pure])

theorem lowerOperand_spec (attrs : Attributes) {node : Node} (isOperand : IsOperand node)
    : ∃ lowered,
        lowerOperand node = some lowered
        ∧ operandValue attrs node = (operand attrs lowered).mapError faultOf
        ∧ ∀ path, path ∈ lowered.paths ↔ Occurs path node := by
  cases isOperand with
  | path root attr =>
      refine ⟨.attribute (pathText root attr), rfl, ?_, ?_⟩
      · simp only [operandValue, operand]
        cases attrs.lookup (pathText root attr) <;> rfl
      · intro path
        rw [occurs_attribute_iff, eq_comm]
        exact List.mem_singleton
  | literal value =>
      refine ⟨.constant value, rfl, rfl, ?_⟩
      intro path
      rw [occurs_iff_children (by simp)]
      simp [Operand.paths, Node.children]

/-- Lowering keeps a chain's steps, by induction on them. -/
theorem lowerSteps_spec (attrs : Attributes) {rest : List (CmpOp × Node)}
    (operands : ∀ step ∈ rest, IsOperand step.2)
    : ∃ steps,
        rest.mapM (fun step => (lowerOperand step.2).map (step.1.named, ·)) = some steps
        ∧ (∀ left, evalChain attrs left rest = (compareChain attrs left steps).mapError faultOf)
        ∧ ∀ path,
            path ∈ steps.flatMap (fun step => step.2.paths)
            ↔ ∃ step ∈ rest, Occurs path step.2 := by
  induction rest with
  | nil => exact ⟨[], rfl, fun _ => rfl, by simp⟩
  | cons step rest ih =>
      obtain ⟨isOperand, later⟩ := List.forall_mem_cons.mp operands
      obtain ⟨lowered, found, evaluated, occurs⟩ := lowerOperand_spec attrs isOperand
      obtain ⟨steps, others, chain, among⟩ := ih later
      refine ⟨(step.1.named, lowered) :: steps, by simp [found, others], ?_, ?_⟩
      · intro left
        rw [evalChain, compareChain, evaluated]
        cases operand attrs lowered with
        | error raised => rfl
        | ok right =>
            change compareValues step.1 left right >>= _ = _
            rw [compareValues_lower]
            change _ = (compare step.1.named left right >>= _).mapError faultOf
            cases compare step.1.named left right with
            | error raised => rfl
            | ok satisfied =>
                cases satisfied with
                | false => rfl
                | true => exact chain right
      · intro path
        simp [occurs, ← among]

/-- A tree and its lowering have the same paths and evaluate alike. -/
structure Lowers (attrs : Attributes) (node : Node) (expr : Expr) : Prop where
  lowered : lower node = some expr
  evaluates : evalNode attrs node = (eval attrs expr).mapError faultOf
  paths : ∀ path, path ∈ expr.paths ↔ Occurs path node

/-- The parts of a combinator are lowered one by one, by induction on them. -/
theorem lowerAll_spec {values : List Node}
    (each : ∀ value ∈ values, ∃ expr, Lowers attrs value expr)
    : ∃ exprs,
        lowerAll values = some exprs
        ∧ evalEvery attrs values = (evalAll attrs exprs).mapError faultOf
        ∧ evalSome attrs values = (evalAny attrs exprs).mapError faultOf
        ∧ ∀ path, path ∈ pathsOf exprs ↔ ∃ value ∈ values, Occurs path value := by
  induction values with
  | nil => exact ⟨[], rfl, rfl, rfl, by simp [pathsOf]⟩
  | cons value rest ih =>
      obtain ⟨⟨expr, lowers⟩, later⟩ := List.forall_mem_cons.mp each
      obtain ⟨exprs, found, every, some, among⟩ := ih later
      refine ⟨expr :: exprs, by simp [lowerAll, lowers.lowered, found], ?_, ?_, ?_⟩
      · rw [evalEvery, evalAll, lowers.evaluates]
        cases eval attrs expr with
        | error raised => rfl
        | ok satisfied =>
            cases satisfied with
            | false => rfl
            | true => exact every
      · rw [evalSome, evalAny, lowers.evaluates]
        cases eval attrs expr with
        | error raised => rfl
        | ok satisfied =>
            cases satisfied with
            | false => exact some
            | true => rfl
      · intro path
        simp [pathsOf, lowers.paths, among]

/-- Every condition is lowered, by induction on it. -/
theorem lowers_of_isCondition (attrs : Attributes) {node : Node} (condition : IsCondition node)
    : ∃ expr, Lowers attrs node expr := by
  induction condition with
  | @boolOp op values each ih =>
      obtain ⟨exprs, found, every, some, among⟩ := lowerAll_spec ih
      have occurs (path : String)
          : path ∈ pathsOf exprs ↔ Occurs path (.boolOp op values) := by
        rw [among, occurs_iff_children (by simp)]
        rfl
      cases op with
      | and => exact ⟨.all exprs, by simp [lower, found], every, occurs⟩
      | or => exact ⟨.any exprs, by simp [lower, found], some, occurs⟩
  | @unaryNot operand inner ih =>
      obtain ⟨expr, lowers⟩ := ih
      refine ⟨.not expr, by simp [lower, lowers.lowered], ?_, ?_⟩
      · rw [evalNode, eval, lowers.evaluates]
        cases eval attrs expr <;> rfl
      · intro path
        rw [occurs_iff_children (by simp)]
        simpa [Node.children, Expr.paths] using lowers.paths path
  | @compare left rest allowed operands =>
      obtain ⟨first, later⟩ := List.forall_mem_cons.mp operands
      obtain ⟨lowered, found, evaluated, occurs⟩ := lowerOperand_spec attrs first
      have each : ∀ step ∈ rest, IsOperand step.2 :=
        fun step member => later _ (List.mem_map_of_mem member)
      obtain ⟨steps, others, chain, among⟩ := lowerSteps_spec attrs each
      refine ⟨.compare lowered steps, by simp [lower, found, others], ?_, ?_⟩
      · rw [evalNode, eval, evaluated]
        cases operand attrs lowered with
        | error raised => rfl
        | ok value => exact chain value
      · intro path
        rw [occurs_iff_children (by simp)]
        simp only [Expr.paths, List.mem_append, occurs, among, Node.children, List.mem_cons,
          exists_eq_or_imp, List.mem_map, exists_exists_and_eq_and]

end

/-- A compiled condition evaluates as the condition that the policy holds for it. -/
theorem evaluate_lower {parse : String → Except String Node} {source : String}
    {condition : Compiled} (accepted : compileCondition parse source = .ok condition)
    (attrs : Attributes)
    : ∃ expr,
        lower condition.tree = some expr
        ∧ condition.evaluate attrs
          = (Abac.evaluate { source := condition.source, tree := expr } attrs).mapError
              faultOf := by
  obtain ⟨_, shape, collected⟩ := collected_of_compile accepted
  obtain ⟨expr, lowers⟩ := lowers_of_isCondition attrs shape
  refine ⟨expr, lowers.lowered, ?_⟩
  have perm : condition.paths.Perm expr.paths.dedup := by
    refine (List.perm_ext_iff_of_nodup (collected.nodup List.nodup_nil)
      (List.nodup_dedup _)).mpr ?_
    intro path
    rw [List.mem_dedup, lowers.paths, collected.mem]
    simp
  have same : condition.missing attrs
      = Abac.missing { source := condition.source, tree := expr } attrs := by
    refine List.Perm.eq_of_pairwise ?_ (missing_sorted condition attrs)
      (List.pairwise_insertionSort _ _) ?_
    · intro one two _ _ oneLe twoLe
      exact String.le_antisymm oneLe twoLe
    · exact (List.perm_insertionSort _ _).trans
        ((perm.filter _).trans (List.perm_insertionSort _ _).symm)
  unfold Compiled.evaluate Abac.evaluate
  rw [same, lowers.evaluates]
  cases Abac.missing { source := condition.source, tree := expr } attrs with
  | nil => cases eval attrs expr <;> rfl
  | cons path rest => rfl

end SecureMcp.Abac
