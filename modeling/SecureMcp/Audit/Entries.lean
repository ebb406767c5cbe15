import SecureMcp.Audit.Writer

/-! Every audit entry that the gateway writes, one definition for each call of
`AuditWriter.write`, under the component that makes the call.
-/

namespace SecureMcp

namespace Json

def strings (texts : List String) : Json :=
  .arr (texts.map .str)

end Json

/-- `model_dump` of a risk factor. -/
def RiskFactor.toJson (factor : RiskFactor) : Json :=
  .obj [
    ("factor", .str factor.factor),
    ("contribution", .int factor.contribution),
    ("reason", .ofOption factor.reason)
  ]

/-- The `risk_factors` field, which is left out when there are none. -/
def riskFactorsField (factors : Option (List RiskFactor)) : List (String × Json) :=
  match factors with
  | none | some [] => []
  | some factors => [("risk_factors", .arr (factors.map RiskFactor.toJson))]

/-- The identity, server and tool that a tool call is made with. -/
structure CallKey where
  identityId : String
  serverId : String
  toolName : String
  deriving DecidableEq

namespace Interceptor

def allowEntry (key : CallKey) (policyVersion : Int) (arguments : Json)
    (riskScore : Option Int) (riskFactors : Option (List RiskFactor))
    (approvalId challengeId : Option String)
    : AuditEntry where
  eventType := .allow
  identityId := key.identityId
  serverId := key.serverId
  toolName := key.toolName
  payloadExtra :=
    [
      ("arguments", arguments),
      ("matched_rules", .strings ["policy-v" ++ toString policyVersion ++ ":rbac"])
    ]
    ++ riskFactorsField riskFactors
    ++ (approvalId.map (fun id => ("approval_id", Json.str id))).toList
    ++ (challengeId.map (fun id => ("challenge_id", Json.str id))).toList
  riskScore := riskScore

/-- The row of any terminal deny. Absent arguments are left out. -/
def denyEntry (key : CallKey) (eventType : EventType) (reason : String)
    (matchedRules : List String) (riskScore : Option Int)
    (riskFactors : Option (List RiskFactor)) (arguments : Json)
    : AuditEntry where
  eventType := eventType
  identityId := key.identityId
  serverId := key.serverId
  toolName := key.toolName
  payloadExtra :=
    [("reason", .str reason), ("matched_rules", .strings matchedRules)]
    ++ (if arguments = .null then [] else [("arguments", arguments)])
    ++ riskFactorsField riskFactors
  riskScore := riskScore

/-- The row of a CHALLENGE or HUMAN_APPROVAL_REQUIRED decision. -/
def riskTerminalEntry (key : CallKey) (eventType : EventType) (reason : String)
    (arguments : Json) (riskScore : Int) (riskFactors : List RiskFactor)
    : AuditEntry where
  eventType := eventType
  identityId := key.identityId
  serverId := key.serverId
  toolName := key.toolName
  payloadExtra := [
    ("reason", .str reason),
    ("matched_rules", .strings ["risk_engine"]),
    ("arguments", arguments),
    ("risk_factors", .arr (riskFactors.map RiskFactor.toJson))
  ]
  riskScore := some riskScore

def policyErrorEntry (key : CallKey) (condition problem : String) : AuditEntry where
  eventType := .policyError
  identityId := key.identityId
  serverId := key.serverId
  toolName := key.toolName
  payloadExtra := [("condition", .str condition), ("reason", .str problem)]

def toolsListEntry (identityId serverId : String) (served pruned : List String)
    : AuditEntry where
  eventType := .toolsList
  identityId := identityId
  serverId := serverId
  payloadExtra := [("served_tools", .strings served), ("pruned_tools", .strings pruned)]

end Interceptor

namespace DriftDetector

def driftEntry (key : CallKey) (severity : DriftSeverity) (approvedHash observedHash : String)
    : AuditEntry where
  eventType := severity.event
  identityId := key.identityId
  serverId := key.serverId
  toolName := key.toolName
  payloadExtra := [
    ("severity", .str severity.name),
    ("approved_hash", .str approvedHash),
    ("observed_hash", .str observedHash),
    ("blocked", .bool severity.blocks)
  ]

def removedEntry (key : CallKey) : AuditEntry where
  eventType := .driftMedium
  identityId := key.identityId
  serverId := key.serverId
  toolName := key.toolName
  payloadExtra := [("severity", .str "medium"), ("removed", .bool true)]

/-- The row of suspicious text, at a first sighting or at an approval. -/
def flaggedEntry (key : CallKey) (findings : List String) : AuditEntry where
  eventType := .baselineFlagged
  identityId := key.identityId
  serverId := key.serverId
  toolName := key.toolName
  payloadExtra := [("findings", .strings findings)]

def renamedEntry (key : CallKey) (renamedFrom observedHash : String) : AuditEntry where
  eventType := .driftCritical
  identityId := key.identityId
  serverId := key.serverId
  toolName := key.toolName
  payloadExtra := [
    ("severity", .str "critical"),
    ("renamed_from", .str renamedFrom),
    ("observed_hash", .str observedHash),
    ("blocked", .bool true)
  ]

def approvedEntry (key : CallKey) (oldHash newHash : String) : AuditEntry where
  eventType := .approved
  identityId := key.identityId
  serverId := key.serverId
  toolName := key.toolName
  payloadExtra := [("old_hash", .str oldHash), ("new_hash", .str newHash)]

end DriftDetector

namespace ApprovalStore

/-- The row of an approval whose time ran out, seen at an attempt to grant it or at startup.
-/
def expiredEntry (requested : CallKey) (approvalId : String) : AuditEntry where
  eventType := .expired
  identityId := requested.identityId
  serverId := requested.serverId
  toolName := requested.toolName
  payloadExtra := [("approval_id", .str approvalId)]

/-- The row of a granted approval: the approver acts, and the requester's identity travels
in the payload.
-/
def approvedEntry (requested : CallKey) (approvalId approvedBy : String) : AuditEntry where
  eventType := .approved
  identityId := approvedBy
  serverId := requested.serverId
  toolName := requested.toolName
  payloadExtra := [
    ("approval_id", .str approvalId),
    ("identity_id", .str requested.identityId)
  ]

end ApprovalStore

def SessionManager.startEntry (identityId serverId sessionId : String) : AuditEntry where
  eventType := .sessionStart
  identityId := identityId
  serverId := serverId
  payloadExtra := [("session_id", .str sessionId)]

namespace PolicyActivation

/-- The fields that every activation records; there is no old version at startup. -/
def versions (oldVersion : Option Int) (newVersion : Int) (contentHash : String)
    : List (String × Json) :=
  [
    ("old_version", oldVersion.elim .null .int),
    ("new_version", .int newVersion),
    ("content_hash", .str contentHash)
  ]

def startupEntry (newVersion : Int) (contentHash : String) : AuditEntry where
  eventType := .policyActivated
  identityId := "startup"
  payloadExtra := versions none newVersion contentHash

def reloadEntry (oldVersion newVersion : Int) (contentHash : String) : AuditEntry where
  eventType := .policyActivated
  identityId := "operator"
  payloadExtra := versions oldVersion newVersion contentHash

def rollbackEntry (identityId : String) (oldVersion newVersion : Int) (contentHash : String)
    : AuditEntry where
  eventType := .policyActivated
  identityId := identityId
  payloadExtra := versions oldVersion newVersion contentHash ++ [("rollback", .bool true)]

end PolicyActivation

end SecureMcp
