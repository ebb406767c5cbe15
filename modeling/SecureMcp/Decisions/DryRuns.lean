import SecureMcp.Decisions.Explainer
import SecureMcp.Decisions.Simulation
import SecureMcp.Decisions.World

/-! Dry runs of the decision pipeline: the explanation of a call that was not made, and the replay of
recorded calls against recorded versions of the policy.
-/

namespace SecureMcp

open Interaction

namespace DecisionExplainer

namespace ExplainCall

/-- An explanation; a dry run has no audit row. -/
def decided (engine : PolicyEngine) (outcome : DecisionOutcome) (eventType : EventType)
    (reason : String) (matchedRules : List String) (risk : Option (Int × List RiskFactor))
    : Explanation where
  decision := {
    decision := outcome
    eventType := eventType
    reason := reason
    matchedRules := matchedRules
    riskScore := risk.map Prod.fst
    riskFactors := risk.map Prod.snd
    policyVersion := engine.version
  }
  alternative := alternative outcome (risk.map Prod.fst)

def denyAbac (engine : PolicyEngine) (failed : Abac.Condition × Option String)
    (risk : Option (Int × List RiskFactor))
    : Explanation :=
  decided engine .deny .denyAbac
    ("condition " ++ pyRepr failed.1.source ++ " not satisfied"
      ++ failed.2.elim "" (fun problem => " (" ++ problem ++ ")"))
    ["policy-v" ++ toString engine.version ++ ":abac:" ++ failed.1.source] risk

/-- `check_conditions`: the first condition that fails, and why it could not be evaluated. -/
def failedCondition (attrs : Abac.Attributes)
    : List Abac.Condition → Option (Abac.Condition × Option String)
  | [] => none
  | condition :: rest =>
      let verdict := Interceptor.conditionVerdict condition attrs
      if verdict.1 then failedCondition attrs rest else some (condition, verdict.2)

/-- `_context_hour`: an explicit hour, the UTC hour of a timestamp, or the hour it is. -/
def contextHour (deployment : Deployment) (context : List (String × Json)) : SharedAsync Int :=
  match Json.getKey context "hour" with
  | .int hour => return hour
  | _ =>
      let timestamp := Json.getKey context "timestamp"
      if ReplayGuard.isTimestamp timestamp then
        Coroutine.ofExcept (Interceptor.hourOf timestamp)
      else onGateway deployment (Coroutine.ask Call.utcHour)

/-- The attributes of a hypothetical call. -/
def callAttributes (engine : PolicyEngine) (key : CallKey) (hour : Int) : Abac.Attributes :=
  let own := (engine.identity key.identityId).elim [] Identity.attributes
  Dict.update
    [
      ("identity.id", .str key.identityId),
      ("tool.name", .str key.toolName),
      ("tool.server_id", .str key.serverId),
      ("context.hour", .int hour)
    ]
    (own.map (fun entry => ("identity." ++ entry.1, entry.2)))

/-- The explanation of a score that is above the ALLOW band. -/
def bandDecision (engine : PolicyEngine) (key : CallKey) (risk : Int × List RiskFactor)
    : Option Explanation :=
  let scored := "risk score " ++ toString risk.1 ++ " for " ++ pyRepr key.toolName
  match Interceptor.thresholdOutcome risk.1 with
  | .deny =>
      some (decided engine .deny .denyRisk (scored ++ " exceeds the deny threshold (90)")
        ["risk_engine"] (some risk))
  | .humanApprovalRequired =>
      some (decided engine .humanApprovalRequired .humanApprovalRequired
        (scored ++ " requires human approval") ["risk_engine"] (some risk))
  | .challenge =>
      some (decided engine .challenge .challenge (scored ++ " requires confirmation")
        ["risk_engine"] (some risk))
  | .allow => none

def allowed (engine : PolicyEngine) (key : CallKey) (risk : Int × List RiskFactor) : Explanation :=
  decided engine .allow .allow ("call to " ++ pyRepr key.toolName ++ " would be allowed")
    ["policy-v" ++ toString engine.version ++ ":rbac"] (some risk)

def denyValidation (engine : PolicyEngine) (key : CallKey) (risk : Int × List RiskFactor)
    (detail : String)
    : Explanation :=
  decided engine .deny .denyValidation
    ("invalid arguments for " ++ pyRepr key.toolName ++ ": " ++ detail) ["param_validator"]
    (some risk)

end ExplainCall

open ExplainCall

/-- Stage 7, from the shared cache only. -/
def explainValidation (deployment : Deployment) (key : CallKey) (arguments : Json)
    (engine : PolicyEngine) (risk : Int × List RiskFactor)
    : SharedAsync Explanation := do
  let cached ← Coroutine.attempt (onGateway deployment (SchemaCache.get key.serverId))
  match (cached : Except Exn (Option (List Tool))).toOption.join with
  | none =>
      return denyValidation engine key risk
        ("tool schema not cached; explain fails closed (a live call would re-fetch it from the "
          ++ "upstream)")
  | some tools =>
      let inputSchema := Interceptor.inputSchemaIn key.toolName tools
      if inputSchema = .null then
        return denyValidation engine key risk "tool schema unavailable from upstream"
      else
        match ← Coroutine.ofExcept
            (ParamValidator.validate deployment.runtime arguments inputSchema) with
        | some error => return denyValidation engine key risk error
        | none => return allowed engine key risk

/-- Stages 6 to 8: a crashed calculation is maximum risk. -/
def explainRisk (deployment : Deployment) (key : CallKey) (arguments : Json)
    (engine : PolicyEngine) (conditions : List Abac.Condition) (attrs : Abac.Attributes)
    (validateParams : Bool)
    : SharedAsync Explanation := do
  let scored ← Coroutine.attempt (onRisk
    (Risk.score deployment.risk deployment.stdlib key arguments engine.policy.risk true))
  let risk := Interceptor.scoreOrMaximum scored
  let attrs := Dict.set "risk.score" (.int risk.1) attrs
  match failedCondition attrs (conditions.filter Abac.Condition.referencesRisk) with
  | some failed => return denyAbac engine failed (some risk)
  | none =>
      match bandDecision engine key risk with
      | some decision => return decision
      | none =>
          if validateParams then explainValidation deployment key arguments engine risk
          else return allowed engine key risk

/-- Dry-run the pipeline for a hypothetical call against a policy. -/
def explainCall (deployment : Deployment) (key : CallKey) (arguments : Json)
    (context : List (String × Json)) (engine : PolicyEngine) (validateParams : Bool)
    : SharedAsync Explanation := do
  match engine.matchingGrant key.identityId key.serverId key.toolName with
  | none =>
      return decided engine .deny .denyRbac
        ("identity " ++ pyRepr key.identityId ++ " is not authorized to call "
          ++ pyRepr key.toolName)
        ["policy-v" ++ toString engine.version ++ ":rbac"] none
  | some grant =>
      let hour ← contextHour deployment context
      let attrs := callAttributes engine key hour
      match failedCondition attrs
          (grant.conditions.filter (fun condition => !condition.referencesRisk)) with
      | some failed => return denyAbac engine failed none
      | none =>
          let blocked ← Coroutine.attempt
            (onGateway deployment (DriftDetector.isBlocked key.serverId key.toolName))
          match (blocked : Except Exn Bool) with
          | .ok false =>
              explainRisk deployment key arguments engine grant.conditions attrs validateParams
          | _ =>
              return decided engine .deny .denyDrift
                (pyRepr key.toolName ++ " is blocked: schema drifted from its approved baseline"
                  ++ " and is pending re-approval")
                ["drift_detector"] none

end DecisionExplainer

namespace PolicySimulator

open DecisionExplainer

def rowCap : Nat := 10000

/-- `_REPLAYABLE`: the row of a redemption would count its call twice. -/
def replayable (eventType : EventType) : Bool :=
  (outcomes eventType).isSome && eventType ≠ .approved

structure HistoricalSimulation where
  totalReplayed : Nat
  wouldNowDeny : Nat := 0
  wouldNowRequireApproval : Nat := 0
  newlyAllowed : Nat := 0
  unchanged : Nat := 0
  sampleDiffs : List SampleDiff := []

/-- A recorded call, and what a version decides on it. -/
abbrev Replayed : Type := ReplayRow × Explanation

/-- `parse_window`: the days of a window, from its first instant to the first one after it. -/
def parseWindow (deployment : Deployment) (window : String) : Except Exn (Rat × Rat) :=
  match window.splitOn ".." with
  | [first, last] =>
      match deployment.parseDate first, deployment.parseDate last with
      | some start, some stop =>
          if stop < start then .error .valueError else .ok (start, stop + 86400)
      | _, _ => .error .valueError
  | _ => .error .valueError

def isObject : Json → Bool
  | .obj _ => true
  | _ => false

/-- `replay_rows`: the recorded decisions of a window that carry their arguments. -/
def replayRows (start stop : Rat) : SharedAsync (List ReplayRow) := do
  let rows ← (Coroutine.demand (.replayRows start stop) id : SharedAsync (List ReplayRow))
  Coroutine.ofExcept (rows.filterM (fun recorded => do
    return isObject (← recorded.row.payload.orEmpty.get "arguments")))

def historicalBucket (row : AuditRow) : Except Exn DecisionOutcome :=
  match EventType.ofValue? row.eventType with
  | none => .error .valueError
  | some eventType =>
      match outcomes eventType with
      | none => .error (.lookupError eventType.value)
      | some outcome => .ok outcome

/-- One round of the loop of `summarizeHistorical`. -/
def addReplayed (result : HistoricalSimulation) (replayed : Replayed)
    : Except Exn HistoricalSimulation := do
  let row := replayed.1.row
  let before ← historicalBucket row
  let after := replayed.2.decision
  if before = after.decision then return { result with unchanged := result.unchanged + 1 }
  else
    return {
      result with
      wouldNowDeny :=
        if before = .allow ∧ after.decision = .deny then result.wouldNowDeny + 1
        else result.wouldNowDeny
      wouldNowRequireApproval :=
        if after.decision = .humanApprovalRequired then result.wouldNowRequireApproval + 1
        else result.wouldNowRequireApproval
      newlyAllowed :=
        if (before = .deny ∨ before = .challenge) ∧ after.decision = .allow then
          result.newlyAllowed + 1
        else result.newlyAllowed
      sampleDiffs :=
        if result.sampleDiffs.length < sampleCap then
          result.sampleDiffs ++ [{
            auditSeq := row.seq
            identity := row.identityId
            tool := row.toolName.getD ""
            before := before.value
            after := after.decision.value
            reason := snippet after.reason
          }]
        else result.sampleDiffs
    }

def summarizeHistorical (pairs : List Replayed) : Except Exn HistoricalSimulation :=
  pairs.foldlM addReplayed { totalReplayed := pairs.length }

/-- `_simulate_row`: the call at the hour at which it was made, without the validation of its
arguments.
-/
def simulateRow (deployment : Deployment) (recorded : ReplayRow) (engine : PolicyEngine)
    : SharedAsync Explanation := do
  let row := recorded.row
  let arguments ← Coroutine.ofExcept (row.payload.orEmpty.item "arguments")
  explainCall deployment ⟨row.identityId, row.serverId.getD "", row.toolName.getD ""⟩ arguments
    [("timestamp", .float (.finite recorded.timestamp))] engine false

def simulateHistorical (deployment : Deployment) (candidateVersion : Int) (replayWindow : String)
    : SharedAsync HistoricalSimulation := do
  let window ← Coroutine.ofExcept (parseWindow deployment replayWindow)
  let engine ← onVersions (PolicyVersions.loadVersion deployment.reader candidateVersion)
  let rows ← replayRows window.1 window.2
  let pairs ← rows.mapM (fun recorded => do
    return (recorded, ← simulateRow deployment recorded engine))
  Coroutine.ofExcept (summarizeHistorical pairs)

/-- `versions[index]`. -/
def versionAt (versions : List Int) (index : Nat) : Except Exn Int :=
  match versions[index]? with
  | some version => .ok version
  | none => .error (.lookupError "list index out of range")

def simulateCompare (deployment : Deployment) (versions : List Int) (replayWindow : String)
    : SharedAsync CompareSimulation := do
  let window ← Coroutine.ofExcept (parseWindow deployment replayWindow)
  let first ← Coroutine.ofExcept (versionAt versions 0)
  let oldEngine ← onVersions (PolicyVersions.loadVersion deployment.reader first)
  let second ← Coroutine.ofExcept (versionAt versions 1)
  let newEngine ← onVersions (PolicyVersions.loadVersion deployment.reader second)
  let rows ← replayRows window.1 window.2
  let triples ← rows.mapM (fun recorded => do
    let old ← simulateRow deployment recorded oldEngine
    let new ← simulateRow deployment recorded newEngine
    return { row := recorded.row, old := old.decision, new := new.decision : Compared })
  return summarizeCompare triples versions

end PolicySimulator

-----------------------------------------------------------------------------------------
-- What dry runs ask
-----------------------------------------------------------------------------------------

section

variable {deployment : Deployment} {key : CallKey} {arguments : Json} {engine : PolicyEngine}

theorem asks_onRisk {α : Type} {body : Risk.RiskAsync α} (reads : body.run.Asks Risk.Reads)
    : (onRisk body).run.Asks OnlyReads :=
  Program.Asks.expand reads (fun _ asked => ⟨asked, fun _ => trivial⟩)

theorem asks_onGateway {α : Type} {body : Async α}
    (reads : body.run.Asks (fun call => OnlyReads (.gateway call)))
    : (onGateway deployment body).run.Asks OnlyReads := by
  refine Program.Asks.expand reads (fun call asked => ?_)
  cases call with
  | isBlocked serverId toolName | cacheGet serverId | utcHour => exact ⟨trivial, fun _ => trivial⟩
  | _ => exact asked.elim

theorem asks_loadVersion (version : Int)
    : (onVersions (PolicyVersions.loadVersion deployment.reader version)).run.Asks OnlyReads := by
  have asks : (PolicyVersions.loadVersion deployment.reader version).run.Asks
      (fun call => OnlyReads (.versions call)) := by
    refine Coroutine.asks_bind (Coroutine.asks_demand _ trivial) (fun found => ?_)
    split
    · exact Coroutine.asks_ofExcept _
    · refine Coroutine.asks_bind (Coroutine.asks_demand _ trivial) (fun raw => ?_)
      split
      · exact Coroutine.asks_ofExcept _
      · refine Coroutine.asks_bind (Coroutine.asks_ofExcept _) (fun loaded => ?_)
        split
        · exact Coroutine.asks_ofExcept _
        · exact Coroutine.asks_pure _
  exact Program.Asks.expand asks (fun call asked => ⟨asked, fun _ => trivial⟩)

/-- The score of a dry run only reads: the count of its call is not incremented. -/
theorem asks_score {settings : RiskSettings} {stdlib : Stdlib} {policy : RiskPolicy}
    : (Risk.score settings stdlib key arguments policy true).run.Asks Risk.Reads := by
  refine Coroutine.asks_bind ?_ (fun count => Risk.tail_asks count)
  exact Coroutine.asks_bind (Risk.counter_asks _) (fun count => Coroutine.asks_pure _)

namespace DecisionExplainer

theorem asks_explainValidation (risk : Int × List RiskFactor)
    : (explainValidation deployment key arguments engine risk).run.Asks OnlyReads := by
  refine Coroutine.asks_bind (Coroutine.asks_attempt (asks_onGateway ?_)) (fun cached => ?_)
  · exact Coroutine.asks_demand _ trivial
  · split
    · exact Coroutine.asks_pure _
    · dsimp only
      split
      · exact Coroutine.asks_pure _
      · refine Coroutine.asks_bind (Coroutine.asks_ofExcept _) (fun found => ?_)
        split
        · exact Coroutine.asks_pure _
        · exact Coroutine.asks_pure _

theorem asks_explainRisk (conditions : List Abac.Condition) (attrs : Abac.Attributes)
    (validateParams : Bool)
    : (explainRisk deployment key arguments engine conditions attrs validateParams).run.Asks
        OnlyReads := by
  refine Coroutine.asks_bind (Coroutine.asks_attempt (asks_onRisk asks_score)) (fun scored => ?_)
  dsimp only
  split
  · exact Coroutine.asks_pure _
  · split
    · exact Coroutine.asks_pure _
    · split
      · exact asks_explainValidation _
      · exact Coroutine.asks_pure _

/-- An explanation only reads. -/
theorem asks_explainCall (context : List (String × Json)) (validateParams : Bool)
    : (explainCall deployment key arguments context engine validateParams).run.Asks OnlyReads := by
  unfold explainCall
  split
  · exact Coroutine.asks_pure _
  · refine Coroutine.asks_bind ?_ (fun hour => ?_)
    · unfold ExplainCall.contextHour
      split
      · exact Coroutine.asks_pure _
      · dsimp only
        split
        · exact Coroutine.asks_ofExcept _
        · exact asks_onGateway (Coroutine.asks_ask trivial)
    · dsimp only
      split
      · exact Coroutine.asks_pure _
      · refine Coroutine.asks_bind (Coroutine.asks_attempt (asks_onGateway ?_)) (fun blocked => ?_)
        · exact Coroutine.asks_demand _ trivial
        · split
          · exact asks_explainRisk _ _ _
          · exact Coroutine.asks_pure _

end DecisionExplainer

namespace PolicySimulator

theorem asks_replayRows (start stop : Rat) : (replayRows start stop).run.Asks OnlyReads :=
  Coroutine.asks_bind (Coroutine.asks_demand _ trivial) (fun _ => Coroutine.asks_ofExcept _)

theorem asks_simulateRow (recorded : ReplayRow)
    : (simulateRow deployment recorded engine).run.Asks OnlyReads :=
  Coroutine.asks_bind (Coroutine.asks_ofExcept _)
    (fun _ => DecisionExplainer.asks_explainCall _ _)

/-- A loop over rows asks what its body asks, by induction on the rows. -/
theorem asks_mapM {α β : Type} {body : α → SharedAsync β} {asked : SharedCall → Prop}
    (each : ∀ row, (body row).run.Asks asked) (rows : List α)
    : (rows.mapM body).run.Asks asked := by
  induction rows with
  | nil => exact Coroutine.asks_pure _
  | cons row rest ih =>
      rw [List.mapM_cons]
      refine Coroutine.asks_bind (each row) (fun first => ?_)
      exact Coroutine.asks_bind ih (fun _ => Coroutine.asks_pure _)

/-- A simulation against one version only reads. -/
theorem asks_simulateHistorical (candidateVersion : Int) (replayWindow : String)
    : (simulateHistorical deployment candidateVersion replayWindow).run.Asks OnlyReads := by
  refine Coroutine.asks_bind (Coroutine.asks_ofExcept _) (fun window => ?_)
  refine Coroutine.asks_bind (asks_loadVersion _) (fun engine => ?_)
  refine Coroutine.asks_bind (asks_replayRows _ _) (fun rows => ?_)
  refine Coroutine.asks_bind (asks_mapM (fun recorded => ?_) rows) (fun pairs => ?_)
  · exact Coroutine.asks_bind (asks_simulateRow recorded) (fun _ => Coroutine.asks_pure _)
  · exact Coroutine.asks_ofExcept _

/-- A comparison of two versions only reads. -/
theorem asks_simulateCompare (versions : List Int) (replayWindow : String)
    : (simulateCompare deployment versions replayWindow).run.Asks OnlyReads := by
  refine Coroutine.asks_bind (Coroutine.asks_ofExcept _) (fun window => ?_)
  refine Coroutine.asks_bind (Coroutine.asks_ofExcept _) (fun first => ?_)
  refine Coroutine.asks_bind (asks_loadVersion _) (fun oldEngine => ?_)
  refine Coroutine.asks_bind (Coroutine.asks_ofExcept _) (fun second => ?_)
  refine Coroutine.asks_bind (asks_loadVersion _) (fun newEngine => ?_)
  refine Coroutine.asks_bind (asks_replayRows _ _) (fun rows => ?_)
  refine Coroutine.asks_bind (asks_mapM (fun recorded => ?_) rows) (fun triples => ?_)
  · refine Coroutine.asks_bind (asks_simulateRow recorded) (fun old => ?_)
    exact Coroutine.asks_bind (asks_simulateRow recorded) (fun _ => Coroutine.asks_pure _)
  · exact Coroutine.asks_pure _

end PolicySimulator

end

end SecureMcp
