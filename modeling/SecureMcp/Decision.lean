import SecureMcp.Python.Json

/-! The canonical decision object, its event types, and what the process takes from outside
the repository: its settings and the two libraries whose verdicts it acts on.
-/

namespace SecureMcp

/-- The kinds of audit rows. -/
inductive EventType
  | sessionStart
  | toolsList
  | allow
  | denyRbac
  | denyAbac
  | denyReplay
  | denyDrift
  | denyRisk
  | denyValidation
  | denyApprovalMismatch
  | denyStepUp
  | challenge
  | humanApprovalRequired
  | approved
  | expired
  | driftLow
  | driftMedium
  | driftHigh
  | driftCritical
  | baselineFlagged
  | policyActivated
  | policyError
  deriving DecidableEq, Repr

def EventType.value : EventType → String
  | .sessionStart => "SESSION_START"
  | .toolsList => "TOOLS_LIST"
  | .allow => "ALLOW"
  | .denyRbac => "DENY_RBAC"
  | .denyAbac => "DENY_ABAC"
  | .denyReplay => "DENY_REPLAY"
  | .denyDrift => "DENY_DRIFT"
  | .denyRisk => "DENY_RISK"
  | .denyValidation => "DENY_VALIDATION"
  | .denyApprovalMismatch => "DENY_APPROVAL_MISMATCH"
  | .denyStepUp => "DENY_STEP_UP"
  | .challenge => "CHALLENGE"
  | .humanApprovalRequired => "HUMAN_APPROVAL_REQUIRED"
  | .approved => "APPROVED"
  | .expired => "EXPIRED"
  | .driftLow => "DRIFT_LOW"
  | .driftMedium => "DRIFT_MEDIUM"
  | .driftHigh => "DRIFT_HIGH"
  | .driftCritical => "DRIFT_CRITICAL"
  | .baselineFlagged => "BASELINE_FLAGGED"
  | .policyActivated => "POLICY_ACTIVATED"
  | .policyError => "POLICY_ERROR"

inductive DecisionOutcome
  | allow
  | deny
  | challenge
  | humanApprovalRequired
  deriving DecidableEq, Repr

structure RiskFactor where
  factor : String
  contribution : Int
  reason : Option String := none
  deriving DecidableEq

/-- The decision that travels in `error.data`. -/
structure Decision where
  decision : DecisionOutcome
  eventType : EventType
  reason : String
  matchedRules : List String
  riskScore : Option Int := none
  riskFactors : Option (List RiskFactor) := none
  policyVersion : Int
  auditId : Option String := none
  approvalId : Option String := none
  challengeId : Option String := none
  deriving DecidableEq

/-- Drift severities, least severe first. -/
inductive DriftSeverity
  | low
  | medium
  | high
  | critical
  deriving DecidableEq, Repr

namespace DriftSeverity

def rank : DriftSeverity → Nat
  | .low => 1
  | .medium => 2
  | .high => 3
  | .critical => 4

def name : DriftSeverity → String
  | .low => "low"
  | .medium => "medium"
  | .high => "high"
  | .critical => "critical"

def event : DriftSeverity → EventType
  | .low => .driftLow
  | .medium => .driftMedium
  | .high => .driftHigh
  | .critical => .driftCritical

/-- Severities from HIGH up block a tool. -/
def blocks (severity : DriftSeverity) : Bool :=
  DriftSeverity.high.rank ≤ severity.rank

def max (left right : DriftSeverity) : DriftSeverity :=
  if left.rank ≤ right.rank then right else left

end DriftSeverity

/-- The environment-driven settings the modelled code reads. -/
structure Settings where
  replayWindowSeconds : Int := 30
  approvalTtlSeconds : Int := 900
  stepUpTtlSeconds : Int := 300
  driftDescriptionSeverity : DriftSeverity := .high

/-- The four content heuristics of the drift detector's description scan. -/
inductive SuspiciousPattern
  | instructionOverride
  | imperativeText
  | hiddenUnicode
  | encodedPayload
  deriving DecidableEq

def SuspiciousPattern.all : List SuspiciousPattern :=
  [.instructionOverride, .imperativeText, .hiddenUnicode, .encodedPayload]

def SuspiciousPattern.label : SuspiciousPattern → String
  | .instructionOverride => "instruction-override phrasing"
  | .imperativeText => "imperative text aimed at a model"
  | .hiddenUnicode => "hidden/zero-width or bidi-control unicode"
  | .encodedPayload => "long base64-looking blob (possible encoded payload)"

/-- What `jsonschema.validate` makes of arguments and a schema. -/
inductive SchemaVerdict
  | conforms
  | validationError (message : String)
  | schemaError (message : String)
  | raises (exn : Exn)
  deriving DecidableEq

/-- What the process runs with: its settings, the regular-expression engine's verdict on
the suspicious patterns, the texts that `uuid.UUID` takes, and the JSON Schema library.
-/
structure Runtime where
  settings : Settings := {}
  search : SuspiciousPattern → String → Bool
  isUuid : String → Bool
  validateSchema : (arguments schema : Json) → SchemaVerdict

end SecureMcp
