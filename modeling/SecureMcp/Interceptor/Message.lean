import SecureMcp.Interceptor.ReplayGuard
import SecureMcp.Library.Pipeline

/-! JSON-RPC messages of a client, what the interceptor answers them with, and the ways in
which the handling of a message can stop.
-/

namespace SecureMcp

open Interaction

namespace Interceptor

abbrev Params : Type := List (String × Json)

/-- A client message by its JSON-RPC kind. -/
inductive ClientMessage
  | request (id : RequestId) (method : String) (params : Option Params)
  | notification (method : String) (params : Option Params)
  | response (id : RequestId) (result : Params)
  | error (id : RequestId) (code : Int) (message : String)
  deriving DecidableEq

/-- The method that a message names, if it is of a kind that names one. -/
def ClientMessage.method? : ClientMessage → Option String
  | .request _ method _ | .notification method _ => some method
  | .response _ _ | .error _ _ _ => none

def ClientMessage.params? : ClientMessage → Option Params
  | .request _ _ params | .notification _ params => params
  | .response _ _ | .error _ _ _ => none

def policyDeniedCode : Int := -32003

def auditUnavailableCode : Int := -32004

/-- An error response; the decision travels in `error.data`. -/
structure ErrorResponse where
  requestId : RequestId
  code : Int
  message : String
  data : Option Decision := none

/-- The outcome of a handled message. -/
inductive Outcome
  | forward (message : ClientMessage)
  | respond (response : ErrorResponse)

/-- A stage of the pipeline stops with a terminal response, or it raises. -/
inductive Stop
  | respond (response : ErrorResponse)
  | raised (exn : Exn)

/-- A stage of the decision pipeline. -/
abbrev Stage (α : Type) : Type := Coroutine Call Reply Stop α

/-- An exception that no handler catches. -/
def uncaught {α : Type} (body : Async α) : Stage α :=
  Coroutine.mapStop .raised body

/-- Answer the client with the response that a coroutine ends with. -/
def finish {α : Type} (last : Stage ErrorResponse) : Stage α :=
  Coroutine.finish .respond last

/-- The body of a `try` whose handler catches every exception. -/
def guarded {α : Type} (body : Async α) : Stage (Except Exn α) :=
  Coroutine.attempt body

/-- The policy in force: it is read through the store on every use. -/
def currentEngine {ε : Type} : Coroutine Call Reply ε PolicyEngine :=
  Coroutine.ask Call.engine

def approvalMetaKey : String := "portunusmcp/approval_id"

def challengeIdMetaKey : String := "portunusmcp/challenge_id"

def challengeProofMetaKey : String := "portunusmcp/challenge_proof"

/-- The keys of `_meta` that the gateway consumes and does not forward. -/
def gatewayMetaKeys : List String :=
  [
    ReplayGuard.nonceMetaKey,
    ReplayGuard.timestampMetaKey,
    approvalMetaKey,
    challengeIdMetaKey,
    challengeProofMetaKey,
    "portunusmcp/key-id",
    "portunusmcp/signature"
  ]

/-- Drop the gateway's keys from `_meta`, and `_meta` itself when nothing is left in it. -/
def stripGatewayMeta (params : Params) : Params :=
  match params.lookup "_meta" with
  | some (.obj fields) =>
      match fields.filter (fun field => field.1 ∉ gatewayMetaKeys) with
      | [] => Dict.erase "_meta" params
      | kept => Dict.set "_meta" (.obj kept) params
  | _ => params

/-- A session on an upstream server. -/
structure Session where
  identityId : String
  serverId : String

/-- A tool call under decision: the request and the normalized copies of what it names. -/
structure ToolCall where
  requestId : RequestId
  key : CallKey
  arguments : Json

/-- The request that the client sent is answered; its response is not awaited any more. -/
def popPending (call : ToolCall) : Stage Unit :=
  Coroutine.ask (Call.popPending call.requestId)

/-- The canonical hash of a call's arguments. -/
def argumentsHash (arguments : Json) : Except Exn String :=
  CanonicalJson.hash arguments

/-- A terminal deny. It stands even if the denial cannot be counted or recorded. -/
def deny (call : ToolCall) (eventType : EventType) (reason : String)
    (matchedRules : List String) (riskScore : Option Int)
    (riskFactors : Option (List RiskFactor))
    : Stage ErrorResponse := do
  popPending call
  let _ ← guarded (RiskEngine.recordDenial call.key.identityId)
  let engine ← currentEngine
  let seq ← guarded (AuditWriter.write
    (denyEntry call.key eventType reason matchedRules riskScore riskFactors call.arguments))
  return {
    requestId := call.requestId
    code := policyDeniedCode
    message := reason
    data := some {
      decision := .deny
      eventType := eventType
      reason := reason
      matchedRules := matchedRules
      riskScore := riskScore
      riskFactors := riskFactors
      policyVersion := engine.version
      auditId := seq.toOption.map toString
    }
  }

/-- The answer to a call that could not be recorded: no record, no action. -/
def unavailable (call : ToolCall) : ErrorResponse where
  requestId := call.requestId
  code := auditUnavailableCode
  message := "audit log unavailable; call denied"

def riskDenyAbove : Int := 90

def riskApprovalMin : Int := 70

def riskChallengeMin : Int := 40

/-- The bands of the risk score. -/
def thresholdOutcome (score : Int) : DecisionOutcome :=
  if riskDenyAbove < score then .deny
  else if riskApprovalMin ≤ score then .humanApprovalRequired
  else if riskChallengeMin ≤ score then .challenge
  else .allow

/-- Record a CHALLENGE or HUMAN_APPROVAL_REQUIRED decision, and then create what redeems it:
the audit row comes first.
-/
def hold (call : ToolCall) (stepUpCapable : Bool) (decision : Decision) (riskScore : Int)
    (riskFactors : List RiskFactor)
    : Async Decision := do
  let seq ← AuditWriter.write
    (riskTerminalEntry call.key decision.eventType decision.reason call.arguments riskScore
      riskFactors)
  let recorded := { decision with auditId := some (toString seq) }
  if decision.decision = .humanApprovalRequired then
    let hash ← Coroutine.ofExcept (argumentsHash call.arguments)
    let approvalId ← ApprovalStore.create call.key hash seq
    return { recorded with approvalId := some approvalId }
  else if stepUpCapable then
    let hash ← Coroutine.ofExcept (argumentsHash call.arguments)
    let challengeId ← ChallengeStore.create call.key hash seq
    return { recorded with challengeId := some challengeId }
  else return recorded

/-- The terminal outcomes of the risk bands above ALLOW. -/
def riskTerminal (call : ToolCall) (outcome : DecisionOutcome) (riskScore : Int)
    (riskFactors : List RiskFactor)
    : Stage ErrorResponse := do
  let scored := "risk score " ++ toString riskScore ++ " for " ++ pyRepr call.key.toolName
  if outcome = .deny then
    deny call .denyRisk
      (scored ++ " exceeds the deny threshold (" ++ toString riskDenyAbove ++ ")")
      ["risk_engine"] (some riskScore) (some riskFactors)
  else
    popPending call
    let engine ← currentEngine
    let identity := engine.identity call.key.identityId
    let stepUpCapable := identity.any (fun record => record.totpSecret ≠ "")
    let (eventType, reason) :=
      if outcome = .humanApprovalRequired then
        (EventType.humanApprovalRequired,
          scored ++ " requires human approval; retry with the approval id once granted")
      else
        (EventType.challenge,
          scored ++ " requires confirmation"
            ++ (if stepUpCapable then "; retry with the challenge id and a fresh TOTP code"
              else ""))
    let versioned ← currentEngine
    let decision : Decision := {
      decision := outcome
      eventType := eventType
      reason := reason
      matchedRules := ["risk_engine"]
      riskScore := some riskScore
      riskFactors := some riskFactors
      policyVersion := versioned.version
    }
    match ← guarded (hold call stepUpCapable decision riskScore riskFactors) with
    | .error _ => return unavailable call
    | .ok held =>
        return {
          requestId := call.requestId
          code := policyDeniedCode
          message := reason
          data := some held
        }

end Interceptor

end SecureMcp
