import SecureMcp.Drift.Detector
import SecureMcp.Interceptor.Message
import SecureMcp.Interceptor.ParamValidator

/-! The decision pipeline of a tool call, in the order in which its stages run, and the
dispatch of client messages.
-/

namespace SecureMcp

open Interaction

namespace Interceptor

/-- The UTC hour of an instant: years 1 to 9999, to the nearest microsecond with
ties to even.
-/
def hourOfSeconds (seconds : Rat) : Except Exn Int :=
  let scaled := seconds * 1000000
  let low := scaled.floor
  let rest := scaled - low
  let micros :=
    if rest < 1 / 2 then low
    else if 1 / 2 < rest then low + 1
    else if low % 2 = 0 then low
    else low + 1
  if micros < -62135596800000000 || 253402300800000000 ≤ micros then .error .valueError
  else .ok (micros / 3600000000 % 24)

/-- `datetime.fromtimestamp(timestamp, UTC).hour`. -/
def hourOf : Json → Except Exn Int
  | .int value => hourOfSeconds value
  | .float (.finite value) => hourOfSeconds value.value
  | .float (.infinity _) => .error .overflowError
  | _ => .error .valueError

/-- The UTC hour of a call: of its timestamp, or else of the gateway's own clock. -/
def contextHour (timestamp : Json) : Async Int :=
  if ReplayGuard.isTimestamp timestamp then Coroutine.ofExcept (hourOf timestamp)
  else Coroutine.ask Call.utcHour

/-- The attributes that conditions resolve against. -/
def abacAttributes (session : Session) (toolName : String) (metadata : Json)
    : Async Abac.Attributes := do
  let engine ← currentEngine
  let own := (engine.identity session.identityId).elim [] Identity.attributes
  let timestamp ← Coroutine.ofExcept (metadata.get ReplayGuard.timestampMetaKey)
  let hour ← contextHour timestamp
  let call : Abac.Attributes := [
    ("identity.id", .str session.identityId),
    ("tool.name", .str toolName),
    ("tool.server_id", .str session.serverId)
  ]
  let named := Dict.update call (own.map (fun entry => ("identity." ++ entry.1, entry.2)))
  return Dict.set "context.hour" (.int hour) named

/-- Whether a condition is satisfied, and why it could not be evaluated. -/
def conditionVerdict (condition : Abac.Condition) (attrs : Abac.Attributes)
    : Bool × Option String :=
  match Abac.evaluate condition attrs with
  | .ok (satisfied, []) => (satisfied, none)
  | .ok (satisfied, unbound) =>
      (satisfied, some ("unresolvable attributes: " ++ String.intercalate ", " unbound))
  | .error _ => (false, some "condition evaluation raised")

/-- A condition that could not be evaluated is an authoring bug, recorded as far as possible.
-/
def recordProblem (call : ToolCall) (condition : Abac.Condition) : Option String → Stage Unit
  | none => return ()
  | some problem => do
      let _ ← guarded (AuditWriter.write
        (policyErrorEntry call.key condition.source problem))

/-- All conditions must hold; one that could not be evaluated does not. -/
def enforceConditions (call : ToolCall) (attrs : Abac.Attributes) (riskScore : Option Int)
    (riskFactors : Option (List RiskFactor))
    : List Abac.Condition → Stage Unit
  | [] => return ()
  | condition :: rest => do
      let verdict := conditionVerdict condition attrs
      recordProblem call condition verdict.2
      if verdict.1 then enforceConditions call attrs riskScore riskFactors rest
      else
        let unsatisfied := "condition " ++ pyRepr condition.source ++ " not satisfied"
        let reason := unsatisfied ++ verdict.2.elim "" (fun problem => " (" ++ problem ++ ")")
        let engine ← currentEngine
        finish (deny call .denyAbac reason
          ["policy-v" ++ toString engine.version ++ ":abac:" ++ condition.source]
          riskScore riskFactors)

/-- Stage 1: mandatory for signed identities, and enforced when a nonce or a timestamp is
volunteered.
-/
def replayStage (runtime : Runtime) (call : ToolCall) (signedMode : Bool) (metadata : Json)
    : Stage Unit := do
  let volunteered ← uncaught (do
    if signedMode then return true
    else if ← Coroutine.ofExcept (metadata.contains ReplayGuard.nonceMetaKey) then return true
    else Coroutine.ofExcept (metadata.contains ReplayGuard.timestampMetaKey))
  if volunteered then
    let checked ← guarded (do
      let nonce ← Coroutine.ofExcept (metadata.get ReplayGuard.nonceMetaKey)
      let timestamp ← Coroutine.ofExcept (metadata.get ReplayGuard.timestampMetaKey)
      ReplayGuard.check runtime.settings runtime.isUuid nonce timestamp)
    let replayReason :=
      match checked with
      | .ok reason => reason
      | .error _ => some "replay guard unavailable"
    match replayReason with
    | none => return ()
    | some reason =>
        finish (deny call .denyReplay ("Replay detected: " ++ reason) ["replay_guard"] none none)
  else return ()

/-- RBAC: the grant that covers the call. -/
def rbacStage (call : ToolCall) : Stage ServerGrant := do
  let engine ← currentEngine
  match engine.matchingGrant call.key.identityId call.key.serverId call.key.toolName with
  | some grant => return grant
  | none =>
      let versioned ← currentEngine
      finish (deny call .denyRbac
        ("identity " ++ pyRepr call.key.identityId ++ " is not authorized to call "
          ++ pyRepr call.key.toolName)
        ["policy-v" ++ toString versioned.version ++ ":rbac"] none none)

/-- The attributes for a grant's conditions; none are needed when it has no conditions. -/
def conditionAttributes (session : Session) (toolName : String) (metadata : Json)
    (conditions : List Abac.Condition)
    : Stage Abac.Attributes :=
  if conditions.isEmpty then return []
  else uncaught (abacAttributes session toolName metadata)

/-- Stage 5: a failed lookup counts as blocked. -/
def driftStage (call : ToolCall) : Stage Unit := do
  match ← guarded (DriftDetector.isBlocked call.key.serverId call.key.toolName) with
  | .ok false => return ()
  | _ =>
      finish (deny call .denyDrift
        (pyRepr call.key.toolName
          ++ " is blocked: schema drifted from its approved baseline and is pending re-approval")
        ["drift_detector"] none none)

/-- Redemption of a challenge, if there is one; whether it was verified. -/
def challengeStage (call : ToolCall) (totpSecret : String) (metadata challengeId : Json)
    : Stage Bool := do
  if challengeId = .null then return false
  else
    let redeemed ← guarded (do
      let hash ← Coroutine.ofExcept (argumentsHash call.arguments)
      let proof ← Coroutine.ofExcept (metadata.get challengeProofMetaKey)
      ChallengeStore.redeem challengeId.pyStr call.key hash proof totpSecret)
    let failure :=
      match redeemed with
      | .ok failure => failure
      | .error _ => some "challenge store unavailable"
    match failure with
    | none => return true
    | some reason =>
        finish (deny call .denyStepUp ("step-up verification failed: " ++ reason) ["step_up"]
          none none)

/-- Redemption of an approval. -/
def approvalStage (call : ToolCall) (approvalId : Json) : Stage Unit := do
  let redeemed ← guarded (do
    let hash ← Coroutine.ofExcept (argumentsHash call.arguments)
    ApprovalStore.redeem approvalId.pyStr call.key hash)
  let denial :=
    match redeemed with
    | .ok denial => denial
    | .error _ => some (.denyApprovalMismatch, "approval store unavailable")
  match denial with
  | none => return ()
  | some (eventType, reason) =>
      finish (deny call eventType reason ["approval_lifecycle"] none none)

/-- A crashed risk calculation is maximum risk. -/
def maximumRisk : Int × List RiskFactor :=
  (100, [{
    factor := "risk_engine_unavailable"
    contribution := 100
    reason := some "risk scoring failed; treated as maximum risk"
  }])

def scoreOrMaximum : Except Exn (Int × List RiskFactor) → Int × List RiskFactor
  | .ok result => result
  | .error _ => maximumRisk

/-- The outcome of a score, unless it is one that continues; a verified challenge clears the
CHALLENGE band only.
-/
def bandTerminal (riskScore : Int) (stepUpVerified : Bool) : Option DecisionOutcome :=
  let outcome := thresholdOutcome riskScore
  if outcome = .challenge && stepUpVerified then none
  else if outcome ≠ .allow then some outcome
  else none

/-- Scoring, the conditions that refer to the score, and its band. -/
def scoringStage (call : ToolCall) (conditions : List Abac.Condition)
    (attrs : Abac.Attributes) (stepUpVerified : Bool)
    : Stage (Int × List RiskFactor) := do
  let engine ← currentEngine
  let scored ← guarded (RiskEngine.score call.key call.arguments engine.policy.risk)
  let risk := scoreOrMaximum scored
  let attrs := Dict.set "risk.score" (.int risk.1) attrs
  enforceConditions call attrs (some risk.1) (some risk.2)
    (conditions.filter Abac.Condition.referencesRisk)
  match bandTerminal risk.1 stepUpVerified with
  | none => return risk
  | some outcome => finish (riskTerminal call outcome risk.1 risk.2)

/-- Stage 6: a retry that carries an approval id redeems it and is not scored again. -/
def riskStage (call : ToolCall) (conditions : List Abac.Condition) (attrs : Abac.Attributes)
    (stepUpVerified : Bool) (approvalId : Json)
    : Stage (Option (Int × List RiskFactor)) :=
  if approvalId ≠ .null then do
    approvalStage call approvalId
    return none
  else do
    let risk ← scoringStage call conditions attrs stepUpVerified
    return some risk

/-- The `tools` of a listing. Everything that reads them expects a list of objects, and an
empty string or object stands for an empty list.
-/
def listedTools (result : List (String × Json)) : Except Exn (List Tool) :=
  match (result.lookup "tools").getD (.arr []) with
  | .arr items =>
      items.mapM (fun item =>
        match item with
        | .obj fields => .ok fields
        | _ => .error .attributeError)
  | .str "" | .obj [] => .ok []
  | .str _ | .obj _ => .error .attributeError
  | _ => .error .typeError

/-- A listing that the gateway requests itself goes through the same drift check as one that
a client requests.
-/
def refetchTools (runtime : Runtime) (session : Session) : Async (Option (List Tool)) := do
  let refetched ← Coroutine.attempt (do
    let result ← (Coroutine.demand .listTools id : Async (List (String × Json)))
    let tools ← Coroutine.ofExcept (listedTools result)
    DriftDetector.check runtime session.serverId tools session.identityId
    SchemaCache.put session.serverId tools
    return tools)
  return refetched.toOption

/-- The input schema of the first tool of the name; `null` when there is none. -/
def inputSchemaIn (toolName : String) : List Tool → Json
  | [] => .null
  | tool :: rest =>
      if Json.getKey tool "name" = .str toolName then
        (tool.lookup "inputSchema").getD (.obj [])
      else inputSchemaIn toolName rest

/-- The input schema from the cache, or from the upstream when the cache has none. -/
def inputSchemaFor (runtime : Runtime) (session : Session) (toolName : String)
    : Async Json := do
  match ← SchemaCache.get session.serverId with
  | some tools => return inputSchemaIn toolName tools
  | none =>
      match ← refetchTools runtime session with
      | none => return .null
      | some tools => return inputSchemaIn toolName tools

def denyValidation (call : ToolCall) (reason : String) : Stage ErrorResponse :=
  deny call .denyValidation
    ("invalid arguments for " ++ pyRepr call.key.toolName ++ ": " ++ reason)
    ["param_validator"] none none

/-- Stage 7. -/
def validationStage (runtime : Runtime) (session : Session) (call : ToolCall)
    : Stage Unit := do
  let inputSchema ← uncaught (inputSchemaFor runtime session call.key.toolName)
  if inputSchema = .null then
    finish (denyValidation call "tool schema unavailable from upstream")
  else
    match ← uncaught (Coroutine.ofExcept
        (ParamValidator.validate runtime call.arguments inputSchema)) with
    | none => return ()
    | some error => finish (denyValidation call error)

/-- ALLOW is recorded before the call is forwarded. -/
def allowStage (call : ToolCall) (risk : Option (Int × List RiskFactor))
    (approvalId challengeId : Option String)
    : Stage Unit := do
  let engine ← currentEngine
  let recorded ← guarded (AuditWriter.write
    (allowEntry call.key engine.version call.arguments (risk.map Prod.fst)
      (risk.map Prod.snd) approvalId challengeId))
  match recorded with
  | .ok _ => return ()
  | .error _ =>
      finish (do
        popPending call
        return unavailable call)

/-- The tool name that a request is decided under. -/
def toolNameOf (params : Params) : String :=
  ((params.lookup "name").getD (.str "")).pyStr

/-- The arguments that a request is decided under. -/
def argumentsOf (params : Params) : Json :=
  ((params.lookup "arguments").getD (.obj [])).orEmpty

/-- A tool call as it is decided. -/
def toolCallOf (session : Session) (requestId : RequestId) (params : Params) : ToolCall where
  requestId := requestId
  key := ⟨session.identityId, session.serverId, toolNameOf params⟩
  arguments := argumentsOf params

/-- The decision pipeline: it ends with the message to forward unless a stage stops it. -/
def authorizeCall (runtime : Runtime) (session : Session) (requestId : RequestId)
    (params : Option Params)
    : Stage ClientMessage := do
  let fields := params.getD []
  let call := toolCallOf session requestId fields
  let metadata := (Json.getKey fields "_meta").orEmpty
  let engine ← currentEngine
  let identity := engine.identity session.identityId
  let signedMode := identity.any (fun record => record.authMode = .signed)
  replayStage runtime call signedMode metadata
  let grant ← rbacStage call
  let conditions := grant.conditions
  let attrs ← conditionAttributes session call.key.toolName metadata conditions
  enforceConditions call attrs none none
    (conditions.filter (fun condition => !condition.referencesRisk))
  driftStage call
  let challengeId ← uncaught (Coroutine.ofExcept (metadata.get challengeIdMetaKey))
  let stepUpVerified ←
    challengeStage call (identity.elim "" Identity.totpSecret) metadata challengeId
  let approvalId ← uncaught (Coroutine.ofExcept (metadata.get approvalMetaKey))
  let risk ← riskStage call conditions attrs stepUpVerified approvalId
  validationStage runtime session call
  allowStage call risk
    (if approvalId ≠ .null then some approvalId.pyStr else none)
    (if stepUpVerified then some challengeId.pyStr else none)
  return .request requestId "tools/call" (params.map stripGatewayMeta)

/-- The outcome of a pipeline that has run to its end. -/
def settle (body : Stage ClientMessage) : Async Outcome := do
  match ← (Coroutine.attempt body : Async (Except Stop ClientMessage)) with
  | .ok message => return .forward message
  | .error (.respond response) => return .respond response
  | .error (.raised exn) => throw exn

/-- Dispatch of a client message: whatever is not a request is forwarded as it is. -/
def onClientMessage (runtime : Runtime) (session : Session) (message : ClientMessage)
    : Async Outcome := do
  match message with
  | .request requestId method params =>
      let _ ← Coroutine.ask (Call.setPending requestId method)
      if method = "initialize" then
        SchemaCache.invalidate session.serverId
        return .forward (.request requestId method (params.map stripGatewayMeta))
      else if method = "tools/call" then
        settle (authorizeCall runtime session requestId params)
      else return .forward (.request requestId method (params.map stripGatewayMeta))
  | message => return .forward message

end Interceptor

end SecureMcp
