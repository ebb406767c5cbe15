import SecureMcp.Audit.Columns
import SecureMcp.Interceptor.Message
import SecureMcp.Python.NulFree
import SecureMcp.Storage.Fields

/-! The decision that an audit row recorded. Rows carry the rules, the reason and the factors of
their decision in the payload; what a payload lacks is filled in by the kind of the row.
-/

namespace SecureMcp

def EventType.all : List EventType := [
  .sessionStart, .toolsList, .allow, .denyRbac, .denyAbac, .denyReplay, .denyDrift, .denyRisk,
  .denyValidation, .denyApprovalMismatch, .denyStepUp, .challenge, .humanApprovalRequired,
  .approved, .expired, .driftLow, .driftMedium, .driftHigh, .driftCritical, .baselineFlagged,
  .policyActivated, .policyError
]

/-- `EventType(value)`. -/
def EventType.ofValue? (value : String) : Option EventType :=
  EventType.all.find? (fun kind => kind.value = value)

theorem EventType.ofValue?_value (kind : EventType) : ofValue? kind.value = some kind := by
  cases kind <;> rfl

/-- Validation of a risk factor. That a record of its fields is taken is the promise of the
library that validates.
-/
structure FactorModel where
  validate : Json → Except Exn RiskFactor
  validate_fields (fields : List (String × Json)) (factor : RiskFactor)
    (name : Json.getKey fields "factor" = .str factor.factor)
    (contribution : Json.getKey fields "contribution" = .int factor.contribution)
    (reason : Json.getKey fields "reason" = .ofOption factor.reason)
    : validate (.obj fields) = .ok factor

/-- Validation of records that have exactly the types of a factor's fields. -/
def FactorModel.strict : FactorModel where
  validate
    | .obj fields =>
        match Json.getKey fields "factor", Json.getKey fields "contribution",
          Json.getKey fields "reason" with
        | .str name, .int contribution, .null => .ok ⟨name, contribution, none⟩
        | .str name, .int contribution, .str reason => .ok ⟨name, contribution, some reason⟩
        | _, _, _ => .error .valueError
    | _ => .error .valueError
  validate_fields fields factor name contribution reason := by
    obtain ⟨named, counted, worded⟩ := factor
    cases worded <;> simp only [name, contribution, reason, Json.ofOption]

/-- A decision, with the outcome that the bands give its score where that is another one. -/
structure Explanation where
  decision : Decision
  alternative : Option DecisionOutcome

namespace DecisionExplainer

/-- `_OUTCOMES`. -/
def outcomes : EventType → Option DecisionOutcome
  | .allow | .approved => some .allow
  | .denyRbac | .denyAbac | .denyReplay | .denyDrift | .denyRisk | .denyValidation
  | .denyApprovalMismatch | .denyStepUp | .expired => some .deny
  | .challenge => some .challenge
  | .humanApprovalRequired => some .humanApprovalRequired
  | _ => none

/-- `_FALLBACK_RULES`. -/
def fallbackRules : EventType → Option (List String)
  | .denyReplay => some ["replay_guard"]
  | .denyDrift => some ["drift_detector"]
  | .denyRisk | .challenge | .humanApprovalRequired => some ["risk_engine"]
  | .denyValidation => some ["param_validator"]
  | .denyApprovalMismatch | .expired => some ["approval_lifecycle"]
  | .approved => some ["admin_approval"]
  | _ => none

def alternative (outcome : DecisionOutcome) (riskScore : Option Int) : Option DecisionOutcome :=
  riskScore.bind (fun score =>
    let mapped := Interceptor.thresholdOutcome score
    if mapped = outcome then none else some mapped)

/-- The rules of a row whose payload has none. -/
def legacyRules (row : AuditRow) (eventType : EventType) : Except Exn (List String) :=
  let version := "policy-v" ++ toString row.policyVersion
  match eventType with
  | .denyRbac | .allow => .ok [version ++ ":rbac"]
  | .denyAbac => .ok [version ++ ":abac"]
  | kind =>
      match fallbackRules kind with
      | some rules => .ok rules
      | none =>
          .error (.lookupError ("<EventType." ++ kind.value ++ ": " ++ pyRepr kind.value ++ ">"))

def rulesOf (row : AuditRow) (eventType : EventType) (payload : Json) : Except Exn Json := do
  let matchedRules ← payload.get "matched_rules"
  if matchedRules ≠ .null then return matchedRules
  else return .strings (← legacyRules row eventType)

/-- The reason of a row whose payload has none. -/
def legacyReason (row : AuditRow) (eventType : EventType) : String :=
  eventType.value ++ " recorded for " ++ row.toolName.elim "None" pyRepr

def reasonOf (row : AuditRow) (eventType : EventType) (payload : Json) : Except Exn Json := do
  let reason ← payload.get "reason"
  return if reason.truthy then reason else .str (legacyReason row eventType)

/-- What iterating over a value gives. -/
def elements : Json → Except Exn (List Json)
  | .arr items => .ok items
  | .obj fields => .ok ((Dict.keys fields).map .str)
  | .str text => .ok (text.toList.map (fun char => .str (String.ofList [char])))
  | _ => .error .typeError

def factorsOf (model : FactorModel) (payload : Json) : Except Exn (Option (List RiskFactor)) := do
  let rawFactors ← payload.get "risk_factors"
  if rawFactors.truthy then return some (← (← elements rawFactors).mapM model.validate)
  else return none

/-- A decision's texts are validated as texts. -/
def textOf : Json → Except Exn String
  | .str text => .ok text
  | _ => .error .valueError

/-- `from_audit_row`. -/
def fromAuditRow (model : FactorModel) (row : AuditRow) : Except Exn Explanation :=
  match (EventType.ofValue? row.eventType).bind (fun kind => (outcomes kind).map (kind, ·)) with
  | none => .error (.lookupError ("audit row " ++ toString row.seq ++ " is not a decision"))
  | some (eventType, outcome) => do
      let payload := row.payload.orEmpty
      let matchedRules ← rulesOf row eventType payload
      let reason ← reasonOf row eventType payload
      let riskFactors ← factorsOf model payload
      let rules ← (← elements matchedRules).mapM textOf
      let text ← textOf reason
      return {
        decision := {
          decision := outcome
          eventType := eventType
          reason := text
          matchedRules := rules
          riskScore := row.riskScore
          riskFactors := riskFactors
          policyVersion := row.policyVersion
          auditId := some (toString row.seq)
        }
        alternative := alternative outcome row.riskScore
      }

-----------------------------------------------------------------------------------------
-- What a payload recalls
-----------------------------------------------------------------------------------------

/-- (Recalls model payload rules reason factors) means that a payload reads as these rules and this
reason, where it has them, and as these factors.
-/
structure Recalls (model : FactorModel) (payload : Json) (rules : Option (List String))
    (reason : Option String) (factors : List RiskFactor)
    : Prop where
  rules : payload.get "matched_rules" = .ok (rules.elim .null .strings)
  reason : payload.get "reason" = .ok (.ofOption reason)
  factors : ∃ items, payload.get "risk_factors" = .ok items
    ∧ (items = .null ∧ factors = []
      ∨ ∃ records, items = .arr records ∧ records.mapM model.validate = .ok factors)

theorem mapM_textOf (texts : List String) : (texts.map Json.str).mapM textOf = .ok texts := by
  induction texts with
  | nil => rfl
  | cons text rest ih =>
      rw [List.map_cons, List.mapM_cons, ih]
      rfl

section

variable {model : FactorModel} {row : AuditRow} {payload : Json} {rules : Option (List String)}
  {reason : Option String} {factors : List RiskFactor} {eventType : EventType}
  {outcome : DecisionOutcome}

/-- The rules that a row is explained with. -/
def recalledRules (row : AuditRow) (eventType : EventType) (rules : Option (List String))
    : Except Exn (List String) :=
  rules.elim (legacyRules row eventType) .ok

/-- The explanation of a row that recalls why it was decided. -/
def explained (row : AuditRow) (eventType : EventType) (outcome : DecisionOutcome)
    (reason : Option String) (factors : List RiskFactor) (rules : List String)
    : Explanation where
  decision := {
    decision := outcome
    eventType := eventType
    reason := (reason.filter (fun text => text ≠ "")).getD (legacyReason row eventType)
    matchedRules := rules
    riskScore := row.riskScore
    riskFactors := if factors = [] then none else some factors
    policyVersion := row.policyVersion
    auditId := some (toString row.seq)
  }
  alternative := alternative outcome row.riskScore

theorem Recalls.rulesOf (recalls : Recalls model payload rules reason factors)
    : DecisionExplainer.rulesOf row eventType payload
      = (recalledRules row eventType rules).map Json.strings := by
  rw [DecisionExplainer.rulesOf, recalls.rules]
  cases rules with
  | none => rfl
  | some rules => rfl

theorem Recalls.reasonOf (recalls : Recalls model payload rules reason factors)
    : DecisionExplainer.reasonOf row eventType payload
      = .ok (.str ((reason.filter (fun text => text ≠ "")).getD (legacyReason row eventType))) := by
  rw [DecisionExplainer.reasonOf, recalls.reason]
  cases reason with
  | none => rfl
  | some text =>
      by_cases empty : text = ""
      · subst empty
        rfl
      · simp [Json.ofOption, Json.truthy, empty, bind, Except.bind, pure, Except.pure, Option.filter]

theorem Recalls.factorsOf (recalls : Recalls model payload rules reason factors)
    : DecisionExplainer.factorsOf model payload
      = .ok (if factors = [] then none else some factors) := by
  obtain ⟨items, found, ⟨rfl, rfl⟩ | ⟨records, rfl, valid⟩⟩ := recalls.factors
  · rw [DecisionExplainer.factorsOf, found]
    rfl
  · rw [DecisionExplainer.factorsOf, found]
    cases records with
    | nil =>
        cases valid
        rfl
    | cons record rest =>
        have some : factors ≠ [] := by
          rintro rfl
          rw [List.mapM_cons] at valid
          cases first : model.validate record <;> rw [first] at valid
          · cases valid
          · cases others : rest.mapM model.validate <;> rw [others] at valid <;> cases valid
        rw [if_neg some]
        simp [Json.truthy, elements, valid, bind, Except.bind, pure, Except.pure]

/-- A row of a decision is explained by what its payload recalls, with fallbacks for the rest. -/
theorem fromAuditRow_of_recalls (kind : row.eventType = eventType.value)
    (decides : outcomes eventType = some outcome)
    (recalls : Recalls model row.payload.orEmpty rules reason factors)
    : fromAuditRow model row
      = (recalledRules row eventType rules).map (explained row eventType outcome reason factors) := by
  unfold fromAuditRow
  rw [kind, EventType.ofValue?_value]
  simp only [Option.bind_some, decides, Option.map_some, recalls.rulesOf, recalls.reasonOf,
    recalls.factorsOf]
  cases recalledRules row eventType rules with
  | error exn => rfl
  | ok matched =>
      have texts := mapM_textOf matched
      simp [Except.map, bind, Except.bind, pure, Except.pure, elements, Json.strings, textOf,
        explained, texts, -List.mapM_map]

/-- A row of no decision is not explained. -/
theorem fromAuditRow_of_none (kind : row.eventType = eventType.value)
    (undecided : outcomes eventType = none)
    : fromAuditRow model row
      = .error (.lookupError ("audit row " ++ toString row.seq ++ " is not a decision")) := by
  unfold fromAuditRow
  rw [kind, EventType.ofValue?_value]
  simp [undecided]

end

end DecisionExplainer

end SecureMcp
