import SecureMcp.Decisions.DryRuns
import SecureMcp.Decisions.RoundTrip
import SecureMcp.Interceptor.Bands
import SecureMcp.Library.Triples

/-! What an explanation says of a live call that is decided from the same facts: the two copies of the
pipeline stop at the same stage, with the same decision.
-/

namespace SecureMcp

open Interaction

namespace DecisionExplainer

open Interceptor ExplainCall

/-- What a call is decided from: the policy in force, the hour of the call, whether its tool counts as
blocked, its score, and the cached tools of its server.
-/
structure Facts where
  engine : PolicyEngine
  hour : Int
  blocked : Bool
  risk : Int × List RiskFactor
  tools : List Tool

/-- The explanation of a call that got as far as its score. -/
def explanationOfScore (runtime : Runtime) (key : CallKey) (arguments : Json) (facts : Facts)
    (conditions : List Abac.Condition) (attrs : Abac.Attributes)
    : Except Exn Explanation :=
  match failedCondition (Dict.set "risk.score" (.int facts.risk.1) attrs)
      (conditions.filter Abac.Condition.referencesRisk) with
  | some failed => .ok (denyAbac facts.engine failed (some facts.risk))
  | none =>
      match bandDecision facts.engine key facts.risk with
      | some decision => .ok decision
      | none =>
          let inputSchema := inputSchemaIn key.toolName facts.tools
          if inputSchema = .null then
            .ok (denyValidation facts.engine key facts.risk "tool schema unavailable from upstream")
          else
            (ParamValidator.validate runtime arguments inputSchema).map (fun error =>
              error.elim (allowed facts.engine key facts.risk)
                (denyValidation facts.engine key facts.risk))

/-- The explanation of a call from the facts. -/
def explanationOf (runtime : Runtime) (key : CallKey) (arguments : Json) (facts : Facts)
    : Except Exn Explanation :=
  match facts.engine.matchingGrant key.identityId key.serverId key.toolName with
  | none =>
      .ok (decided facts.engine .deny .denyRbac
        ("identity " ++ pyRepr key.identityId ++ " is not authorized to call "
          ++ pyRepr key.toolName)
        ["policy-v" ++ toString facts.engine.version ++ ":rbac"] none)
  | some grant =>
      let attrs := callAttributes facts.engine key facts.hour
      match failedCondition attrs
          (grant.conditions.filter (fun condition => !condition.referencesRisk)) with
      | some failed => .ok (denyAbac facts.engine failed none)
      | none =>
          if facts.blocked then
            .ok (decided facts.engine .deny .denyDrift
              (pyRepr key.toolName ++ " is blocked: schema drifted from its approved baseline"
                ++ " and is pending re-approval")
              ["drift_detector"] none)
          else explanationOfScore runtime key arguments facts grant.conditions attrs

/-- How far a decision under way has moved what it is decided from: a score counts its call, and what
follows the decision changes more.
-/
inductive Phase
  | unmoved
  | counted
  | moved

namespace Phase

def next : Phase → Call → Phase
  | .unmoved, .score _ _ _ => .counted
  | _, .score _ _ _ | _, .recordDenial _ | _, .cacheSet _ _ | _, .cacheDelete _ | _, .commit _ => .moved
  | phase, .write entry => if entry.eventType = .policyError then phase else .moved
  | phase, _ => phase

end Phase

namespace Facts

variable (facts : Facts) (call : ToolCall) (clock : Int)

/-- A reply that tells the facts, as far as nothing has moved them yet. -/
def Tells : Phase → Event Reply → Prop
  | _, ⟨.engine, engine⟩ => engine = facts.engine
  | _, ⟨.utcHour, hour⟩ => hour = clock
  | .unmoved, ⟨.isBlocked serverId toolName, reply⟩ =>
      serverId = call.key.serverId
      → toolName = call.key.toolName
      → (reply = .ok false ↔ facts.blocked = false)
  | .unmoved, ⟨.score key arguments policy, reply⟩ =>
      key = call.key
      → arguments = call.arguments
      → policy = facts.engine.policy.risk
      → scoreOrMaximum reply = facts.risk
  | .unmoved, ⟨.cacheGet serverId, reply⟩ | .counted, ⟨.cacheGet serverId, reply⟩ =>
      serverId = call.key.serverId → reply = .ok (some facts.tools)
  | _, _ => True

/-- One answer of a world that tells the facts. -/
def Serves (phase : Phase) (event : Event Reply) (after : Phase) : Prop :=
  facts.Tells call clock phase event ∧ after = phase.next event.call

end Facts

/-- (Matches explained sent) means that a decision is the explained one. A rejection of arguments does
not say what the call scored.
-/
structure Matches (explained sent : Decision) : Prop where
  kind : sent.eventType = explained.eventType
  outcome : sent.decision = explained.decision
  rules : sent.matchedRules = explained.matchedRules
  version : sent.policyVersion = explained.policyVersion
  score : sent.eventType ≠ .denyValidation → sent.riskScore = explained.riskScore
  factors : sent.eventType ≠ .denyValidation → sent.riskFactors = explained.riskFactors

/-- A request that moves nothing that a call is decided from. -/
def Calm (asked : Call) : Prop :=
  ∀ phase : Phase, phase.next asked = phase

/-- The hour of a call is that of its timestamp, or else the one that the clock shows. -/
structure Facts.Timed (facts : Facts) (clock : Int) (timestamp : Json) : Prop where
  stamped :
    ReplayGuard.isTimestamp timestamp
    → ∀ hour, Interceptor.hourOf timestamp = .ok hour → hour = facts.hour
  unstamped : ¬ ReplayGuard.isTimestamp timestamp → clock = facts.hour

/-- A response that an explanation foretells. What is not a replay is decided as explained; there is no
decision only where one could not be recorded that would not have been a denial.
-/
def Foretells (explained : Decision) (response : ErrorResponse) : Prop :=
  response.data.elim (explained.decision ≠ .deny)
    (fun sent => sent.eventType = .denyReplay ∨ Matches explained sent)

/-- What a call is held by can be created: it is bound to the hash of the arguments. -/
def Facts.Holdable (facts : Facts) (call : ToolCall) (outcome : DecisionOutcome) : Prop :=
  outcome = .humanApprovalRequired
    ∨ outcome = .challenge
      ∧ (facts.engine.identity call.key.identityId).any (fun record => record.totpSecret ≠ "")
  → (argumentsHash call.arguments).isOk

/-- A row, an approval or a challenge could not be stored. -/
def Fails : Event Reply → Prop
  | ⟨.write _, reply⟩ | ⟨.createApproval _ _ _, reply⟩ | ⟨.createChallenge _ _ _, reply⟩ =>
      reply.isOk = false
  | _ => False

/-- A response that sends the explained decision, or none where it could not be stored. The stores keep
what they are asked to if `storing` holds.
-/
def Sends (facts : Facts) (call : ToolCall) (storing : Prop) (explained : Decision)
    (response : ErrorResponse)
    : Prop :=
  response.data.elim
    (explained.decision ≠ .deny ∧ (storing → ¬ facts.Holdable call explained.decision))
    (fun sent => Matches explained sent ∧ facts.Holdable call explained.decision)

/-- A stage stops as it is explained. It raises where there is no explanation, or where something else
raises.
-/
def Foreseen (facts : Facts) (call : ToolCall) (storing raises : Prop) (explained : Option Decision)
    : Stop → Prop
  | .raised _ => raises ∨ explained = none
  | .respond response =>
      ∃ decision, explained = some decision ∧ Sends facts call storing decision response

/-- A replay is denied as one, unless something raises. -/
def Replayed : Stop → Prop
  | .raised _ => True
  | .respond response => ∃ sent, response.data = some sent ∧ sent.eventType = .denyReplay

theorem Sends.foretells {facts : Facts} {call : ToolCall} {storing : Prop} {explained : Decision}
    {response : ErrorResponse} (sends : Sends facts call storing explained response)
    : Foretells explained response := by
  unfold Sends at sends
  unfold Foretells
  cases sent : response.data with
  | none =>
      rw [sent] at sends
      exact sends.1
  | some decision =>
      rw [sent] at sends
      exact Or.inr sends.1

theorem Replayed.foretells {explained : Decision} {response : ErrorResponse}
    (replayed : Replayed (.respond response))
    : Foretells explained response := by
  obtain ⟨sent, same, kind⟩ := replayed
  rw [Foretells, same]
  exact Or.inl kind

/-- Some grant covers the call. -/
def Granted (engine : PolicyEngine) (key : CallKey) : Prop :=
  (engine.matchingGrant key.identityId key.serverId key.toolName).isSome

/-- A timestamp whose hour cannot be computed. -/
def Hourless (timestamp : Json) : Prop :=
  ReplayGuard.isTimestamp timestamp ∧ (Interceptor.hourOf timestamp).isOk = false

-----------------------------------------------------------------------------------------
-- Attributes
-----------------------------------------------------------------------------------------

/-- Attributes that conditions cannot tell apart, where there are any conditions. -/
def Alike (conditions : List Abac.Condition) (attrs others : Abac.Attributes) : Prop :=
  conditions = [] ∨ ∀ path, attrs.lookup path = others.lookup path

section

variable {attrs others : Abac.Attributes}

theorem compareChain_congr (same : ∀ path, attrs.lookup path = others.lookup path)
    (left : AttrValue) (rest : List (Abac.CompareOp × Abac.Operand))
    : Abac.compareChain attrs left rest = Abac.compareChain others left rest := by
  induction rest generalizing left with
  | nil => rfl
  | cons step rest ih =>
      obtain ⟨op, operand⟩ := step
      have bound : Abac.operand attrs operand = Abac.operand others operand := by
        cases operand <;> simp [Abac.operand, same]
      simp only [Abac.compareChain, bound, ih]

mutual

/-- A condition reads attributes by their paths only, by induction on it. -/
theorem eval_congr (same : ∀ path, attrs.lookup path = others.lookup path)
    : ∀ condition : Abac.Expr, Abac.eval attrs condition = Abac.eval others condition
  | .all values => by simp only [Abac.eval, evalAll_congr same values]
  | .any values => by simp only [Abac.eval, evalAny_congr same values]
  | .not operand => by simp only [Abac.eval, eval_congr same operand]
  | .compare left rest => by
      have bound : Abac.operand attrs left = Abac.operand others left := by
        cases left <;> simp [Abac.operand, same]
      simp only [Abac.eval, bound, compareChain_congr same]

theorem evalAll_congr (same : ∀ path, attrs.lookup path = others.lookup path)
    : ∀ values : List Abac.Expr, Abac.evalAll attrs values = Abac.evalAll others values
  | [] => rfl
  | value :: rest => by
      simp only [Abac.evalAll, eval_congr same value, evalAll_congr same rest]

theorem evalAny_congr (same : ∀ path, attrs.lookup path = others.lookup path)
    : ∀ values : List Abac.Expr, Abac.evalAny attrs values = Abac.evalAny others values
  | [] => rfl
  | value :: rest => by
      simp only [Abac.evalAny, eval_congr same value, evalAny_congr same rest]

end

theorem conditionVerdict_congr (same : ∀ path, attrs.lookup path = others.lookup path)
    (condition : Abac.Condition)
    : conditionVerdict condition attrs = conditionVerdict condition others := by
  have unbound : Abac.missing condition attrs = Abac.missing condition others := by
    simp only [Abac.missing, same]
  simp only [conditionVerdict, Abac.evaluate, unbound, eval_congr same]

theorem failedCondition_congr (same : ∀ path, attrs.lookup path = others.lookup path)
    (conditions : List Abac.Condition)
    : failedCondition attrs conditions = failedCondition others conditions := by
  induction conditions with
  | nil => rfl
  | cons condition rest ih => simp only [failedCondition, conditionVerdict_congr same, ih]

theorem Alike.failedCondition {conditions : List Abac.Condition}
    (alike : Alike conditions attrs others) (chosen : Abac.Condition → Bool)
    : ExplainCall.failedCondition attrs (conditions.filter chosen)
      = ExplainCall.failedCondition others (conditions.filter chosen) := by
  rcases alike with rfl | same
  · rfl
  · exact failedCondition_congr same _

theorem Alike.set {conditions : List Abac.Condition} (alike : Alike conditions attrs others)
    (path : String) (value : AttrValue)
    : Alike conditions (Dict.set path value attrs) (Dict.set path value others) := by
  refine alike.imp_right (fun same other => ?_)
  simp only [Dict.lookup_set, same]

end

-----------------------------------------------------------------------------------------
-- Stages
-----------------------------------------------------------------------------------------

section

variable {runtime : Runtime} {session : Session} {facts : Facts} {call : ToolCall} {clock : Int}
  {raises storing : Prop} {explained : Option Decision} {phase : Phase} {start : Phase → Prop}

theorem calm_of_phases {asked : Call}
    (each : Phase.next .unmoved asked = .unmoved ∧ Phase.next .counted asked = .counted
      ∧ Phase.next .moved asked = .moved)
    : Calm asked := by
  intro phase
  cases phase
  · exact each.1
  · exact each.2.1
  · exact each.2.2

theorem permits_calm : Permits Calm call where
  engine := calm_of_phases ⟨rfl, rfl, rfl⟩
  time := calm_of_phases ⟨rfl, rfl, rfl⟩
  utcHour := calm_of_phases ⟨rfl, rfl, rfl⟩
  setNonce _ _ := calm_of_phases ⟨rfl, rfl, rfl⟩
  problem _ _ := calm_of_phases ⟨rfl, rfl, rfl⟩
  isBlocked := calm_of_phases ⟨rfl, rfl, rfl⟩
  redeemChallenge _ _ _ _ _ := calm_of_phases ⟨rfl, rfl, rfl⟩
  redeemApproval _ _ _ := calm_of_phases ⟨rfl, rfl, rfl⟩

/-- What asks calmly moves nothing. -/
theorem triple_calm {ε α : Type} {body : Coroutine Call Reply ε α} (asks : body.run.Asks Calm)
    : Triple (facts.Serves call clock) (· = phase) (fun _ after => after = phase)
        (fun _ after => after = phase) body := by
  refine .of_asks asks ?_
  rintro state event after calm rfl ⟨_, rfl⟩
  exact calm state

theorem triple_uncaught {α : Type} {body : Async α} (asks : body.run.Asks Calm)
    : Triple (facts.Serves call clock) (· = phase) (fun _ after => after = phase)
        (fun stop _ => Replayed stop) (uncaught body) :=
  .mapStop ((triple_calm asks).weaken (fun _ first => first) (fun _ _ kept => kept)
    (fun _ _ _ => trivial))

theorem triple_guarded {α : Type} {body : Async α} {stops : Stop → Phase → Prop}
    (asks : body.run.Asks Calm)
    : Triple (facts.Serves call clock) (· = phase) (fun _ after => after = phase) stops
        (guarded body) := by
  refine (triple_calm asks).attempt.weaken (fun _ first => first) (fun outcome _ => ?_)
    (fun _ _ stopped => stopped)
  cases outcome <;> exact id

/-- The policy that is read is the one in force. -/
theorem triple_engine {ε : Type} {stops : ε → Phase → Prop}
    : Triple (facts.Serves call clock) (· = phase)
        (fun engine after => engine = facts.engine ∧ after = phase) stops
        (currentEngine : Coroutine Call Reply ε PolicyEngine) := by
  refine .ask Call.engine ?_
  rintro state engine after rfl ⟨tells, rfl⟩
  cases state <;> exact ⟨tells, rfl⟩

/-- A denial says what it was for, and the version of the policy in force. -/
theorem triple_deny {eventType : EventType} {reason : String} {matchedRules : List String}
    {riskScore : Option Int} {riskFactors : Option (List RiskFactor)} {stops : Stop → Phase → Prop}
    : Triple (facts.Serves call clock) start
        (fun response _ => ∃ auditId, response.data = some {
          decision := .deny
          eventType := eventType
          reason := reason
          matchedRules := matchedRules
          riskScore := riskScore
          riskFactors := riskFactors
          policyVersion := facts.engine.version
          auditId := auditId
        })
        stops (deny call eventType reason matchedRules riskScore riskFactors) := by
  have question {β : Type} {asked : Call} {answer : Reply asked → Except Exn β}
      {before : Phase → Prop}
      : Triple (facts.Serves call clock) before (fun _ _ => True) stops
          (guarded (Coroutine.demand asked answer)) := by
    have asks : Triple (facts.Serves call clock) before (fun _ _ => True) (fun _ _ => True)
        (Coroutine.demand asked answer) := by
      refine .demand (fun _ reply _ _ _ => ?_)
      cases answer reply <;> trivial
    exact asks.attempt.weaken (fun _ first => first) (fun _ _ _ => trivial)
      (fun _ _ stopped => stopped)
  have pops : Triple (facts.Serves call clock) start (fun _ _ => True) stops (popPending call) :=
    .ask (Call.popPending _) (fun _ _ _ _ _ => trivial)
  have reads : Triple (facts.Serves call clock) (fun _ => True)
      (fun engine _ => engine = facts.engine ∧ True) stops (currentEngine : Stage PolicyEngine) := by
    refine .ask Call.engine ?_
    rintro (_ | _ | _) engine _ _ ⟨tells, _⟩ <;> exact ⟨tells, trivial⟩
  refine .bind pops (fun _ => .bind question (fun _ => .bind reads (fun engine => .assuming ?_)))
  rintro rfl
  exact .bind question (fun recorded => .pure (fun _ _ => ⟨_, rfl⟩))

/-- A denial is sent without anything to redeem it. -/
theorem sends_of_denied {decision sent : Decision} {response : ErrorResponse}
    (denies : decision.decision = .deny) (data : response.data = some sent)
    (agrees : Matches decision sent)
    : Sends facts call storing decision response := by
  rw [Sends, data]
  refine ⟨agrees, ?_⟩
  rw [denies]
  rintro (approved | ⟨challenged, _⟩)
  · cases approved
  · cases challenged

/-- A denial that is explained by the same rules. -/
theorem triple_denied {α : Type} {returns : α → Phase → Prop} {eventType : EventType}
    {reason : String} {matchedRules : List String} {decision : Decision}
    (risk : Option (Int × List RiskFactor)) (same : explained = some decision)
    (denies : decision.decision = .deny)
    (agrees : ∀ auditId,
      Matches decision {
        decision := .deny
        eventType := eventType
        reason := reason
        matchedRules := matchedRules
        riskScore := risk.map Prod.fst
        riskFactors := risk.map Prod.snd
        policyVersion := facts.engine.version
        auditId := auditId
      })
    : Triple (facts.Serves call clock) start returns
        (fun stop _ => Foreseen facts call storing raises explained stop)
        (finish (deny call eventType reason matchedRules (risk.map Prod.fst) (risk.map Prod.snd))
          : Stage α) := by
  refine .finish triple_deny ?_
  rintro response _ ⟨auditId, sent⟩
  exact ⟨decision, same, sends_of_denied denies sent (agrees auditId)⟩

theorem triple_recordProblem {condition : Abac.Condition} {problem : Option String}
    {stops : Stop → Phase → Prop}
    : Triple (facts.Serves call clock) (· = phase) (fun _ after => after = phase) stops
        (recordProblem call condition problem) := by
  cases problem with
  | none => exact .pure (fun _ first => first)
  | some problem =>
      exact .bind (triple_guarded (Coroutine.asks_demand _ (permits_calm.problem _ _)))
        (fun _ => .pure (fun _ first => first))

/-- Conditions stop a call where an explanation says so, by induction on them. -/
theorem triple_enforceConditions {attrs : Abac.Attributes}
    (risk : Option (Int × List RiskFactor)) {conditions : List Abac.Condition}
    (failing : ∀ failed,
      failedCondition attrs conditions = some failed
      → explained = some (denyAbac facts.engine failed risk).decision)
    : Triple (facts.Serves call clock) (· = phase)
        (fun _ after => failedCondition attrs conditions = none ∧ after = phase)
        (fun stop _ => Foreseen facts call storing raises explained stop)
        (enforceConditions call attrs (risk.map Prod.fst) (risk.map Prod.snd) conditions) := by
  induction conditions with
  | nil => exact .pure (fun _ first => ⟨rfl, first⟩)
  | cons condition rest ih =>
      refine .bind triple_recordProblem (fun _ => ?_)
      dsimp only
      split
      · next satisfied =>
          have same : failedCondition attrs (condition :: rest) = failedCondition attrs rest := by
            rw [failedCondition, if_pos satisfied]
          rw [same] at failing ⊢
          exact ih failing
      · next unsatisfied =>
          have failed : failedCondition attrs (condition :: rest)
              = some (condition, (conditionVerdict condition attrs).2) := by
            rw [failedCondition, if_neg unsatisfied]
          refine .bind triple_engine (fun engine => .assuming ?_)
          rintro rfl
          exact triple_denied risk (failing _ failed) rfl
            (fun auditId => ⟨rfl, rfl, rfl, rfl, fun _ => rfl, fun _ => rfl⟩)

/-- A replay is denied as one. -/
theorem triple_replayStage (signedMode : Bool) (metadata : Json)
    : Triple (facts.Serves call clock) (· = phase) (fun _ after => after = phase)
        (fun stop _ => Replayed stop) (replayStage runtime call signedMode metadata) := by
  unfold replayStage
  refine .bind (triple_uncaught ?_) (fun volunteered => ?_)
  · split
    · exact Coroutine.asks_pure _
    · refine Coroutine.asks_bind (Coroutine.asks_ofExcept _) (fun found => ?_)
      split
      · exact Coroutine.asks_pure _
      · exact Coroutine.asks_ofExcept _
  · split
    · have checking : (do
          let nonce ← Coroutine.ofExcept (metadata.get ReplayGuard.nonceMetaKey)
          let timestamp ← Coroutine.ofExcept (metadata.get ReplayGuard.timestampMetaKey)
          ReplayGuard.check runtime.settings runtime.isUuid nonce timestamp
          : Async (Option String)).run.Asks Calm := by
        refine Coroutine.asks_bind (Coroutine.asks_ofExcept _) (fun nonce => ?_)
        refine Coroutine.asks_bind (Coroutine.asks_ofExcept _) (fun timestamp => ?_)
        have permits : Permits Calm call := permits_calm
        exact asks_replayCheck permits _ _ _ _
      refine .bind (triple_guarded checking) (fun checked => ?_)
      dsimp only
      split
      · exact .pure (fun _ first => first)
      · refine .finish triple_deny ?_
        rintro response _ ⟨auditId, sent⟩
        exact ⟨_, sent, rfl⟩
    · exact .pure (fun _ first => first)

/-- A call that no grant covers is denied as explained. -/
theorem triple_rbacStage
    (denied :
      facts.engine.matchingGrant call.key.identityId call.key.serverId call.key.toolName = none
      → explained = some (decided facts.engine .deny .denyRbac
          ("identity " ++ pyRepr call.key.identityId ++ " is not authorized to call "
            ++ pyRepr call.key.toolName)
          ["policy-v" ++ toString facts.engine.version ++ ":rbac"] none).decision)
    : Triple (facts.Serves call clock) (· = phase)
        (fun grant after =>
          facts.engine.matchingGrant call.key.identityId call.key.serverId call.key.toolName
            = some grant
          ∧ after = phase)
        (fun stop _ => Foreseen facts call storing raises explained stop) (rbacStage call) := by
  refine .bind triple_engine (fun engine => .assuming ?_)
  rintro rfl
  split
  · next grant found => exact .pure (fun _ first => ⟨found, first⟩)
  · next missing =>
      refine .bind triple_engine (fun versioned => .assuming ?_)
      rintro rfl
      exact triple_denied none (denied missing) rfl
        (fun auditId => ⟨rfl, rfl, rfl, rfl, fun _ => rfl, fun _ => rfl⟩)

/-- The attributes of a call and those of its explanation bind the same values: no attribute of an
identity is called `context.hour`.
-/
theorem lookup_attributes (engine : PolicyEngine) (key : CallKey) (hour : Int) (path : String)
    : (Dict.set "context.hour" (.int hour)
          (Dict.update
            [
              ("identity.id", .str key.identityId),
              ("tool.name", .str key.toolName),
              ("tool.server_id", .str key.serverId)
            ]
            (((engine.identity key.identityId).elim [] Identity.attributes).map
              (fun entry => ("identity." ++ entry.1, entry.2))))
        : Abac.Attributes).lookup path
      = (callAttributes engine key hour).lookup path := by
  generalize attributes : (engine.identity key.identityId).elim [] Identity.attributes = own
  have named : (own.map (fun entry => ("identity." ++ entry.1, entry.2))).reverse.lookup
      "context.hour" = none := by
    rw [Dict.lookup_eq_none_iff]
    simp only [Dict.keys, List.map_reverse, List.map_map, List.mem_reverse, List.mem_map,
      Function.comp_apply, not_exists, not_and]
    intro entry _ same
    have first := congrArg (fun text => text.toList.head?) same
    simp [String.toList_append] at first
  unfold callAttributes
  rw [Dict.lookup_set, Dict.lookup_update, attributes, Dict.lookup_update]
  by_cases hourly : path = "context.hour"
  · subst hourly
    rw [if_pos rfl, named]
    rfl
  · rw [if_neg hourly]
    congr 1
    simp [Dict.lookup_cons, hourly]

/-- The attributes of a call are those of its explanation. -/
theorem triple_conditionAttributes {metadata timestamp : Json} {conditions : List Abac.Condition}
    (mine : call.key.identityId = session.identityId ∧ call.key.serverId = session.serverId)
    (stamped : metadata.get ReplayGuard.timestampMetaKey = .ok timestamp)
    (timed : facts.Timed clock timestamp)
    (unstamped : conditions ≠ [] → Hourless timestamp → raises)
    : Triple (facts.Serves call clock) (· = phase)
        (fun attrs after =>
          Alike conditions attrs (callAttributes facts.engine call.key facts.hour) ∧ after = phase)
        (fun stop _ => Foreseen facts call storing raises explained stop)
        (conditionAttributes session call.key.toolName metadata conditions) := by
  unfold conditionAttributes
  split
  · next none => exact .pure (fun _ first => ⟨Or.inl (List.isEmpty_iff.mp none), first⟩)
  · next some =>
    refine .mapStop (.bind triple_engine (fun engine => .assuming ?_))
    rintro rfl
    have read : Triple (facts.Serves call clock) (· = phase)
        (fun value after => value = timestamp ∧ after = phase)
        (fun stop _ => Foreseen facts call storing raises explained (.raised stop))
        (Coroutine.ofExcept (metadata.get ReplayGuard.timestampMetaKey)) := by
      rw [stamped]
      exact .ofExcept (fun _ first => ⟨rfl, first⟩)
    refine .bind read (fun value => .assuming ?_)
    rintro rfl
    have hours : Triple (facts.Serves call clock) (· = phase)
        (fun hour after => hour = facts.hour ∧ after = phase)
        (fun stop _ => Foreseen facts call storing raises explained (.raised stop))
        (Interceptor.contextHour value) := by
      unfold Interceptor.contextHour
      split
      · next numeric =>
          refine .ofExcept (fun state first => ?_)
          cases computed : Interceptor.hourOf value with
          | ok hour => exact ⟨timed.stamped numeric hour computed, first⟩
          | error exn =>
              refine Or.inl (unstamped (fun none => some (List.isEmpty_iff.mpr none)) ⟨numeric, ?_⟩)
              rw [computed]
              rfl
      · next other =>
          refine .ask Call.utcHour ?_
          rintro state hour after rfl ⟨tells, rfl⟩
          have shown : hour = clock := by cases state <;> exact tells
          refine ⟨shown.trans (timed.unstamped other), ?_⟩
          cases state <;> rfl
    refine .bind hours (fun hour => .assuming ?_)
    rintro rfl
    refine .pure (fun _ first => ⟨Or.inr (fun path => ?_), first⟩)
    rw [← mine.1, ← mine.2]
    exact lookup_attributes facts.engine call.key facts.hour path

/-- A blocked tool is denied as explained. -/
theorem triple_driftStage
    (blocked :
      facts.blocked = true
      → explained = some (decided facts.engine .deny .denyDrift
          (pyRepr call.key.toolName ++ " is blocked: schema drifted from its approved baseline"
            ++ " and is pending re-approval")
          ["drift_detector"] none).decision)
    : Triple (facts.Serves call clock) (· = .unmoved)
        (fun _ after => facts.blocked = false ∧ after = .unmoved)
        (fun stop _ => Foreseen facts call storing raises explained stop) (driftStage call) := by
  have looks : Triple (facts.Serves call clock) (· = .unmoved)
      (fun found after => (found = .ok false ↔ facts.blocked = false) ∧ after = .unmoved)
      (fun stop _ => Foreseen facts call storing raises explained stop)
      (guarded (DriftDetector.isBlocked call.key.serverId call.key.toolName)) := by
    intro state events after outcome first exec served
    subst first
    obtain ⟨asked, rest, found, rfl, asking, ended⟩ := Program.exec_bind_iff.mp exec
    obtain ⟨rfl, rfl⟩ := Program.exec_done_iff.mp ended
    obtain ⟨reply, rfl, rfl⟩ := Coroutine.exec_demand_iff.mp asking
    obtain ⟨middle, ⟨tells, rfl⟩, last⟩ := Program.served_cons_iff.mp served
    obtain rfl := Program.served_nil_iff.mp last
    exact ⟨tells rfl rfl, rfl⟩
  refine .bind looks (fun found => .assuming (fun tells => ?_))
  split
  · exact .pure (fun _ first => ⟨tells.mp rfl, first⟩)
  · next other =>
      have found : facts.blocked = true := by
        cases counted : facts.blocked with
        | true => rfl
        | false => exact absurd (tells.mpr counted) other
      exact triple_denied none (blocked found) rfl
        (fun auditId => ⟨rfl, rfl, rfl, rfl, fun _ => rfl, fun _ => rfl⟩)

theorem serves_engine {state after : Phase} {engine : PolicyEngine}
    (serves : facts.Serves call clock state ⟨.engine, engine⟩ after)
    : engine = facts.engine := by
  cases state <;> exact serves.1

/-- The answers of stores that tell the facts, and that store what they are asked to where `storing`
holds.
-/
structure Facts.Within (facts : Facts) (call : ToolCall) (clock : Int) (storing : Prop)
    (serves : Phase → Event Reply → Phase → Prop)
    : Prop where
  tells : ∀ before event after,
    serves before event after → facts.Serves call clock before event after
  stores : ∀ before event after, serves before event after → storing → ¬ Fails event

/-- A call is held only if its arguments have a hash where one is needed. -/
theorem hold_hashed {stepUpCapable : Bool} {decision held : Decision} {riskScore : Int}
    {riskFactors : List RiskFactor} {events : List (Event Reply)}
    (holds : (hold call stepUpCapable decision riskScore riskFactors).run.Exec events (.ok held))
    (needed : decision.decision = .humanApprovalRequired ∨ stepUpCapable)
    : (argumentsHash call.arguments).isOk := by
  obtain ⟨first, rest, seq, rfl, _, exec⟩ := Coroutine.exec_bind_ok_iff.mp holds
  dsimp only at exec
  split at exec
  · obtain ⟨hash, hashed, _⟩ := Coroutine.exec_ofExcept_bind_ok_iff.mp exec
    rw [hashed]
    rfl
  · next other =>
    rw [if_pos (needed.resolve_left other)] at exec
    obtain ⟨hash, hashed, _⟩ := Coroutine.exec_ofExcept_bind_ok_iff.mp exec
    rw [hashed]
    rfl

/-- A call that cannot be held is one of which something cannot be stored, or not hashed. -/
theorem hold_error {stepUpCapable : Bool} {decision : Decision} {riskScore : Int}
    {riskFactors : List RiskFactor} {events : List (Event Reply)} {exn : Exn}
    (holds : (hold call stepUpCapable decision riskScore riskFactors).run.Exec events (.error exn))
    (stored : ∀ event ∈ events, ¬ Fails event)
    : (decision.decision = .humanApprovalRequired ∨ stepUpCapable)
      ∧ (argumentsHash call.arguments).isOk = false := by
  rcases Coroutine.exec_bind_error_iff.mp holds with writing | ⟨first, rest, seq, rfl, _, exec⟩
  · obtain ⟨reply, rfl, answered⟩ := Coroutine.exec_demand_iff.mp writing
    cases (answered : reply = .error exn)
    exact absurd rfl (stored _ List.mem_cons_self)
  have unhashed {asked : String → Call}
      {answer : (hash : String) → Reply (asked hash) → Except Exn String}
      {next : String → Async Decision}
      (fails : ∀ hash reply exn, answer hash reply = .error exn → Fails ⟨asked hash, reply⟩)
      (returns : ∀ id first, ¬ (next id).run.Exec first (.error exn))
      (exec : (Coroutine.ofExcept (argumentsHash call.arguments) >>= fun hash =>
        Coroutine.demand (asked hash) (answer hash) >>= next).run.Exec rest (.error exn))
      : (argumentsHash call.arguments).isOk = false := by
    cases hashed : argumentsHash call.arguments with
    | error stop => rfl
    | ok hash =>
        rw [hashed, Coroutine.ofExcept_ok_bind] at exec
        rcases Coroutine.exec_bind_error_iff.mp exec with creating | ⟨_, _, id, _, _, ended⟩
        · obtain ⟨reply, rfl, answered⟩ := Coroutine.exec_demand_iff.mp creating
          exact absurd (fails hash reply exn answered)
            (stored _ (List.mem_append_right _ List.mem_cons_self))
        · exact absurd ended (returns id _)
  dsimp only at exec
  split at exec
  · next approval =>
    refine ⟨.inl approval, unhashed ?_ ?_ exec⟩
    · rintro hash reply exn rfl
      rfl
    · intro id first ended
      obtain ⟨_, impossible⟩ := Program.exec_done_iff.mp ended
      cases impossible
  · split at exec
    · next capable =>
      refine ⟨.inr capable, unhashed ?_ ?_ exec⟩
      · rintro hash reply exn rfl
        rfl
      · intro id first ended
        obtain ⟨_, impossible⟩ := Program.exec_done_iff.mp ended
        cases impossible
    · obtain ⟨_, impossible⟩ := Program.exec_done_iff.mp exec
      cases impossible

variable {serves : Phase → Event Reply → Phase → Prop}

/-- A call that is held says what for, under the policy in force, unless it could not be recorded. -/
theorem triple_held {outcome : DecisionOutcome} {risk : Int × List RiskFactor}
    (within : facts.Within call clock storing serves) (continues : outcome ≠ .allow)
    (undenied : outcome ≠ .deny)
    : Triple serves start
        (fun response _ =>
          (response.data = none → storing → ¬ facts.Holdable call outcome)
          ∧ ∀ sent,
            response.data = some sent
            → facts.Holdable call outcome
              ∧ sent.decision = outcome
              ∧ sent.eventType
                = (if outcome = .humanApprovalRequired then .humanApprovalRequired else .challenge)
              ∧ sent.matchedRules = ["risk_engine"]
              ∧ sent.policyVersion = facts.engine.version
              ∧ sent.riskScore = some risk.1
              ∧ sent.riskFactors = some risk.2)
        (fun _ _ => False) (riskTerminal call outcome risk.1 risk.2) := by
  intro state events after ended _ exec served
  unfold riskTerminal at exec
  dsimp only at exec
  rw [if_neg undenied] at exec
  obtain ⟨_, _, rfl, reading⟩ := Coroutine.exec_ask_bind_iff.mp exec
  obtain ⟨engine, _, rfl, versioning⟩ := Coroutine.exec_ask_bind_iff.mp reading
  obtain ⟨versioned, _, rfl, holding⟩ := Coroutine.exec_ask_bind_iff.mp versioning
  obtain ⟨_, _, popped⟩ := Program.served_cons_iff.mp served
  obtain ⟨_, first, read⟩ := Program.served_cons_iff.mp popped
  obtain ⟨_, second, deciding⟩ := Program.served_cons_iff.mp read
  obtain rfl := serves_engine (within.tells _ _ _ first)
  obtain rfl := serves_engine (within.tells _ _ _ second)
  obtain ⟨exchanges, _, held, rfl, holds, finished⟩ :=
    Coroutine.exec_attempt_bind_iff.mp holding
  obtain ⟨_, exchanged, _⟩ := Program.served_append_iff.mp deciding
  cases held with
  | error exn =>
      obtain ⟨_, rfl⟩ := Program.exec_done_iff.mp finished
      refine ⟨fun _ stores holdable => ?_, fun sent impossible => ?_⟩
      · obtain ⟨needed, unhashed⟩ := hold_error holds (exchanged.forall_mem
          (fun before event next answers => within.stores before event next answers stores))
        have challenged : outcome ≠ .humanApprovalRequired → outcome = .challenge := by
          intro unapproved
          cases outcome <;> simp_all
        have hashed : (argumentsHash call.arguments).isOk := by
          by_cases approved : outcome = .humanApprovalRequired
          · exact holdable (.inl approved)
          · exact holdable (.inr ⟨challenged approved, needed.resolve_left approved⟩)
        rw [hashed] at unhashed
        cases unhashed
      · cases impossible
  | ok held =>
      obtain ⟨_, rfl⟩ := Program.exec_done_iff.mp finished
      refine ⟨fun impossible => ?_, fun sent same => ?_⟩
      · cases impossible
      · have hashed := hold_hashed holds
        obtain ⟨seq, approvalId, challengeId, _, rfl⟩ := hold_ok holds
        cases same
        refine ⟨fun needs => hashed (needs.imp_right And.right), rfl, ?_, rfl, rfl, rfl, rfl⟩
        dsimp only
        split <;> rfl

/-- The terminal of a band is the explained one. -/
theorem triple_riskTerminal {outcome : DecisionOutcome}
    (within : facts.Within call clock storing serves)
    (band : thresholdOutcome facts.risk.1 = outcome) (continues : outcome ≠ .allow)
    (banded : ∀ decision,
      bandDecision facts.engine call.key facts.risk = some decision
      → explained = some decision.decision)
    : Triple serves start
        (fun response _ => Foreseen facts call storing raises explained (.respond response))
        (fun stop _ => Foreseen facts call storing raises explained stop)
        (riskTerminal call outcome facts.risk.1 facts.risk.2) := by
  unfold bandDecision at banded
  rw [band] at banded
  have held {decision : Decision} (undenied : outcome ≠ .deny) (same : explained = some decision)
      (decides : decision.decision = outcome)
      (agrees : ∀ sent : Decision,
        sent.decision = outcome
          ∧ sent.eventType
            = (if outcome = .humanApprovalRequired then .humanApprovalRequired else .challenge)
          ∧ sent.matchedRules = ["risk_engine"]
          ∧ sent.policyVersion = facts.engine.version
          ∧ sent.riskScore = some facts.risk.1
          ∧ sent.riskFactors = some facts.risk.2
        → Matches decision sent)
      : Triple serves start
          (fun response _ => Foreseen facts call storing raises explained (.respond response))
          (fun stop _ => Foreseen facts call storing raises explained stop)
          (riskTerminal call outcome facts.risk.1 facts.risk.2) := by
    refine (triple_held within continues undenied).weaken (fun _ first => first)
      (fun response _ ⟨unstored, tells⟩ => ⟨decision, same, ?_⟩)
      (fun _ _ impossible => impossible.elim)
    unfold Sends
    rw [decides]
    cases data : response.data with
    | none => exact ⟨undenied, unstored data⟩
    | some sent =>
        obtain ⟨holdable, told⟩ := tells sent data
        exact ⟨agrees sent told, holdable⟩
  cases outcome with
  | allow => exact absurd rfl continues
  | deny =>
      refine (triple_deny.narrow within.tells).weaken (fun _ first => first)
        (fun response _ ⟨auditId, sent⟩ => ⟨_, banded _ rfl, ?_⟩) (fun _ _ stopped => stopped)
      exact sends_of_denied rfl sent ⟨rfl, rfl, rfl, rfl, fun _ => rfl, fun _ => rfl⟩
  | challenge | humanApprovalRequired =>
      refine held (by simp) (banded _ rfl) rfl ?_
      rintro sent ⟨outcome, kind, rules, version, score, factors⟩
      exact ⟨kind, outcome, rules, version, fun _ => score, fun _ => factors⟩

/-- A score that stops a call, by a condition or by its band, stops it as explained. -/
theorem triple_scoringStage {conditions : List Abac.Condition} {attrs : Abac.Attributes}
    (within : facts.Within call clock storing serves)
    (failing : ∀ failed,
      failedCondition (Dict.set "risk.score" (.int facts.risk.1) attrs)
        (conditions.filter Abac.Condition.referencesRisk) = some failed
      → explained = some (denyAbac facts.engine failed (some facts.risk)).decision)
    (banded :
      failedCondition (Dict.set "risk.score" (.int facts.risk.1) attrs)
        (conditions.filter Abac.Condition.referencesRisk) = none
      → ∀ decision,
          bandDecision facts.engine call.key facts.risk = some decision
          → explained = some decision.decision)
    : Triple serves (· = .unmoved)
        (fun risk after =>
          (risk = facts.risk
            ∧ failedCondition (Dict.set "risk.score" (.int facts.risk.1) attrs)
                (conditions.filter Abac.Condition.referencesRisk) = none
            ∧ bandDecision facts.engine call.key facts.risk = none)
          ∧ after = .counted)
        (fun stop _ => Foreseen facts call storing raises explained stop)
        (scoringStage call conditions attrs false) := by
  refine .bind (triple_engine.narrow within.tells) (fun engine => .assuming ?_)
  rintro rfl
  have scores : Triple (facts.Serves call clock) (· = .unmoved)
      (fun scored after => scoreOrMaximum scored = facts.risk ∧ after = .counted)
      (fun stop _ => Foreseen facts call storing raises explained stop)
      (guarded (RiskEngine.score call.key call.arguments facts.engine.policy.risk)) := by
    intro state events after outcome first exec served
    subst first
    obtain ⟨asked, rest, found, rfl, asking, ended⟩ := Program.exec_bind_iff.mp exec
    obtain ⟨rfl, rfl⟩ := Program.exec_done_iff.mp ended
    obtain ⟨reply, rfl, rfl⟩ := Coroutine.exec_demand_iff.mp asking
    obtain ⟨middle, ⟨tells, rfl⟩, last⟩ := Program.served_cons_iff.mp served
    obtain rfl := Program.served_nil_iff.mp last
    exact ⟨tells rfl rfl rfl, rfl⟩
  refine .bind (scores.narrow within.tells) (fun scored => .assuming (fun same => ?_))
  simp only [same]
  refine .bind ((triple_enforceConditions (some facts.risk) failing).narrow within.tells)
    (fun _ => .assuming (fun holding => ?_))
  by_cases continues : thresholdOutcome facts.risk.1 = .allow
  · have undecided : bandDecision facts.engine call.key facts.risk = none := by
      unfold bandDecision
      rw [continues]
    have passes : bandTerminal facts.risk.1 false = none := by
      simp [bandTerminal, continues]
    rw [passes]
    exact .pure (fun _ first => ⟨⟨rfl, holding, undecided⟩, first⟩)
  · have stops : bandTerminal facts.risk.1 false = some (thresholdOutcome facts.risk.1) := by
      simp [bandTerminal, continues]
    rw [stops]
    have terminal : Triple serves (· = .counted)
        (fun response _ => Foreseen facts call storing raises explained (.respond response))
        (fun stop _ => Foreseen facts call storing raises explained stop)
        (riskTerminal call (thresholdOutcome facts.risk.1) facts.risk.1 facts.risk.2) :=
      triple_riskTerminal within rfl continues (banded holding)
    exact terminal.finish (fun _ _ foretold => foretold)

/-- Arguments that are rejected are so as explained. -/
theorem triple_validationStage (mine : call.key.serverId = session.serverId)
    (missing :
      inputSchemaIn call.key.toolName facts.tools = .null
      → explained = some (ExplainCall.denyValidation facts.engine call.key facts.risk
          "tool schema unavailable from upstream").decision)
    (refused : ∀ error,
      inputSchemaIn call.key.toolName facts.tools ≠ .null
      → ParamValidator.validate runtime call.arguments (inputSchemaIn call.key.toolName facts.tools)
        = .ok (some error)
      → explained
        = some (ExplainCall.denyValidation facts.engine call.key facts.risk error).decision)
    (invalid :
      inputSchemaIn call.key.toolName facts.tools ≠ .null
      → (ParamValidator.validate runtime call.arguments
          (inputSchemaIn call.key.toolName facts.tools)).isOk = false
      → explained = none)
    : Triple (facts.Serves call clock) (· = .counted)
        (fun _ _ =>
          (inputSchemaIn call.key.toolName facts.tools ≠ .null
            ∧ ParamValidator.validate runtime call.arguments
                (inputSchemaIn call.key.toolName facts.tools)
              = .ok none)
          ∧ True)
        (fun stop _ => Foreseen facts call storing raises explained stop)
        (validationStage runtime session call) := by
  have cached : Triple (facts.Serves call clock) (· = .counted)
      (fun found _ => found = some facts.tools ∧ True)
      (fun stop _ => Foreseen facts call storing raises explained (.raised stop))
      (SchemaCache.get session.serverId) := by
    refine .demand ?_
    rintro state reply after rfl ⟨tells, rfl⟩
    rw [tells mine.symm]
    exact ⟨rfl, trivial⟩
  have looks : Triple (facts.Serves call clock) (· = .counted)
      (fun schema _ => schema = inputSchemaIn call.key.toolName facts.tools ∧ True)
      (fun stop _ => Foreseen facts call storing raises explained stop)
      (uncaught (inputSchemaFor runtime session call.key.toolName)) := by
    refine .mapStop (.bind cached (fun found => .assuming ?_))
    rintro rfl
    exact .pure (fun _ _ => ⟨rfl, trivial⟩)
  have denies {reason detail : String} {before : Phase → Prop}
      (same : explained
        = some (ExplainCall.denyValidation facts.engine call.key facts.risk detail).decision)
      : Triple (facts.Serves call clock) before
          (fun _ _ => (inputSchemaIn call.key.toolName facts.tools ≠ .null
            ∧ ParamValidator.validate runtime call.arguments
                (inputSchemaIn call.key.toolName facts.tools)
              = .ok none)
            ∧ True)
          (fun stop _ => Foreseen facts call storing raises explained stop)
          (finish (Interceptor.denyValidation call reason) : Stage Unit) := by
    refine .finish triple_deny ?_
    rintro response _ ⟨auditId, sent⟩
    exact ⟨_, same, sends_of_denied rfl sent
      ⟨rfl, rfl, rfl, rfl, fun other => absurd rfl other, fun other => absurd rfl other⟩⟩
  refine .bind looks (fun schema => .assuming ?_)
  rintro rfl
  split
  · next absent => exact denies (missing absent)
  · next present =>
      have checked : Triple (facts.Serves call clock) (fun _ => True)
          (fun verdict _ =>
            ParamValidator.validate runtime call.arguments
              (inputSchemaIn call.key.toolName facts.tools) = .ok verdict
            ∧ True)
          (fun stop _ => Foreseen facts call storing raises explained stop)
          (uncaught (Coroutine.ofExcept (ParamValidator.validate runtime call.arguments
            (inputSchemaIn call.key.toolName facts.tools)))) := by
        refine .mapStop (.ofExcept (fun _ _ => ?_))
        cases checks : ParamValidator.validate runtime call.arguments
            (inputSchemaIn call.key.toolName facts.tools) with
        | ok verdict => exact ⟨rfl, trivial⟩
        | error exn =>
            refine Or.inr (invalid present ?_)
            rw [checks]
            rfl
      refine .bind checked (fun verdict => .assuming (fun valid => ?_))
      cases verdict with
      | none => exact .pure (fun _ _ => ⟨⟨present, valid⟩, trivial⟩)
      | some error => exact denies (refused error present valid)

/-- A call that cannot be recorded was to be allowed, and there its row cannot be stored. -/
theorem triple_allowStage {risk : Option (Int × List RiskFactor)}
    {approvalId challengeId : Option String} {decision : Decision}
    (within : facts.Within call clock storing serves) (same : explained = some decision)
    (allows : decision.decision = .allow)
    : Triple serves start (fun _ _ => True)
        (fun stop _ => Foreseen facts call storing raises explained stop)
        (allowStage call risk approvalId challengeId) := by
  intro state events after outcome _ exec served
  obtain ⟨engine, _, rfl, recording⟩ := Coroutine.exec_ask_bind_iff.mp exec
  obtain ⟨_, _, recorded, rfl, writing, answering⟩ := Coroutine.exec_attempt_bind_iff.mp recording
  obtain ⟨reply, rfl, failed⟩ := Coroutine.exec_demand_iff.mp writing
  cases recorded with
  | ok seq =>
      obtain ⟨_, rfl⟩ := Program.exec_done_iff.mp answering
      trivial
  | error exn =>
      cases (failed : reply = .error exn)
      obtain ⟨stop, rfl, raised | ⟨response, rfl, answered⟩⟩ := Coroutine.exec_finish_iff.mp answering
      · obtain ⟨_, _, _, popping⟩ := Coroutine.exec_ask_bind_iff.mp raised
        obtain ⟨_, impossible⟩ := Program.exec_done_iff.mp popping
        cases impossible
      · obtain ⟨_, _, _, popping⟩ := Coroutine.exec_ask_bind_iff.mp answered
        obtain ⟨_, same'⟩ := Program.exec_done_iff.mp popping
        cases same'
        refine ⟨decision, same, by simp [allows], fun stores _ => ?_⟩
        obtain ⟨_, _, rest⟩ := Program.served_cons_iff.mp served
        obtain ⟨_, answers, _⟩ := Program.served_cons_iff.mp rest
        exact within.stores _ _ _ answers stores rfl

/-- What follows the replay check of a call. -/
def decideFresh (runtime : Runtime) (session : Session) (requestId : RequestId)
    (params : Option Params) (call : ToolCall) (metadata : Json) (totpSecret : String)
    : Stage ClientMessage := do
  let grant ← rbacStage call
  let attrs ← conditionAttributes session call.key.toolName metadata grant.conditions
  enforceConditions call attrs none none
    (grant.conditions.filter (fun condition => !condition.referencesRisk))
  driftStage call
  let challengeId ← uncaught (Coroutine.ofExcept (metadata.get challengeIdMetaKey))
  let stepUpVerified ← challengeStage call totpSecret metadata challengeId
  let approvalId ← uncaught (Coroutine.ofExcept (metadata.get approvalMetaKey))
  let risk ← riskStage call grant.conditions attrs stepUpVerified approvalId
  validationStage runtime session call
  allowStage call risk
    (if approvalId ≠ .null then some approvalId.pyStr else none)
    (if stepUpVerified then some challengeId.pyStr else none)
  return .request requestId "tools/call" (params.map stripGatewayMeta)

/-- A call that is no replay is decided as it is explained from the same facts. -/
theorem triple_decideFresh {requestId : RequestId} {params : Option Params} {fields : Params}
    {timestamp : Json} {totpSecret : String}
    (within : facts.Within call clock storing serves)
    (mine : call.key.identityId = session.identityId ∧ call.key.serverId = session.serverId)
    (foreseen :
      (explanationOf runtime call.key call.arguments facts).toOption.map Explanation.decision
      = explained)
    (unchallenged : Json.getKey fields challengeIdMetaKey = .null)
    (unapproved : Json.getKey fields approvalMetaKey = .null)
    (stamped : Json.getKey fields ReplayGuard.timestampMetaKey = timestamp)
    (timed : facts.Timed clock timestamp)
    (unstamped : ∀ grant,
      facts.engine.matchingGrant call.key.identityId call.key.serverId call.key.toolName = some grant
      → grant.conditions ≠ []
      → Hourless timestamp
      → raises)
    : Triple serves (· = .unmoved)
        (fun _ _ => ∃ decision,
          explained = some decision ∧ decision.eventType = .allow ∧ decision.decision = .allow)
        (fun stop _ => Foreseen facts call storing raises explained stop)
        (decideFresh runtime session requestId params call (.obj fields) totpSecret) := by
  have read (key : String) : (Json.obj fields).get key = .ok (Json.getKey fields key) := rfl
  unfold explanationOf at foreseen
  dsimp only at foreseen
  unfold decideFresh
  refine .bind ((triple_rbacStage (fun missing => ?_)).narrow within.tells)
    (fun grant => .assuming (fun found => ?_))
  · rw [missing] at foreseen
    exact foreseen.symm
  rw [found] at foreseen
  dsimp only at foreseen
  refine .bind
    ((triple_conditionAttributes mine (stamped ▸ read _) timed (unstamped grant found)).narrow
      within.tells)
    (fun attrs => .assuming (fun alike => ?_))
  rw [← alike.failedCondition] at foreseen
  refine .bind ((triple_enforceConditions none (fun failed failing => ?_)).narrow within.tells)
    (fun _ => .assuming (fun holding => ?_))
  · rw [failing] at foreseen
    exact foreseen.symm
  rw [holding] at foreseen
  dsimp only at foreseen
  refine .bind ((triple_driftStage (fun blocked => ?_)).narrow within.tells)
    (fun _ => .assuming (fun unblocked => ?_))
  · rw [if_pos blocked] at foreseen
    exact foreseen.symm
  rw [if_neg (by simp [unblocked]), explanationOfScore, ← (alike.set _ _).failedCondition] at foreseen
  have absent (key : String) (null : Json.getKey fields key = .null)
      : Triple serves (· = .unmoved)
          (fun value after => value = .null ∧ after = .unmoved)
          (fun stop _ => Foreseen facts call storing raises explained stop)
          (uncaught (Coroutine.ofExcept ((Json.obj fields).get key))) := by
    rw [read, null]
    exact .mapStop (.ofExcept (fun _ first => ⟨rfl, first⟩))
  refine .bind (absent _ unchallenged) (fun challengeId => .assuming ?_)
  rintro rfl
  have unverified : challengeStage call totpSecret (.obj fields) .null = return false :=
    if_pos rfl
  rw [unverified, pure_bind]
  refine .bind (absent _ unapproved) (fun approvalId => .assuming ?_)
  rintro rfl
  have scoring : riskStage call grant.conditions attrs false .null
      = (do return some (← scoringStage call grant.conditions attrs false)) :=
    if_neg (by simp)
  rw [scoring, bind_assoc]
  refine .bind
    (triple_scoringStage within (fun failed failing => ?_) (fun holds decision banded => ?_))
    (fun risk => .assuming ?_)
  · rw [failing] at foreseen
    exact foreseen.symm
  · rw [holds] at foreseen
    simp only [banded] at foreseen
    exact foreseen.symm
  rintro ⟨rfl, holds, undecided⟩
  rw [holds] at foreseen
  simp only [undecided] at foreseen
  rw [pure_bind]
  refine .bind
    ((triple_validationStage mine.2 (fun missing => ?_) (fun error present refused => ?_)
      (fun present invalid => ?_)).narrow within.tells)
    (fun _ => .assuming ?_)
  · rw [if_pos missing] at foreseen
    exact foreseen.symm
  · rw [if_neg present, refused] at foreseen
    exact foreseen.symm
  · rw [if_neg present] at foreseen
    cases validated : ParamValidator.validate runtime call.arguments
        (inputSchemaIn call.key.toolName facts.tools) with
    | ok verdict =>
        rw [validated] at invalid
        cases invalid
    | error exn =>
        rw [validated] at foreseen
        exact foreseen.symm
  rintro ⟨present, valid⟩
  rw [if_neg present, valid] at foreseen
  exact .bind (triple_allowStage within foreseen.symm rfl)
    (fun _ => .pure (fun _ _ => ⟨_, foreseen.symm, rfl, rfl⟩))

/-- A call is decided as it is explained from the same facts, where its replay check lets it through. -/
theorem triple_authorizeCall {early : Stop → Prop} {requestId : RequestId} {params : Option Params}
    {fields : Params}
    (within : facts.Within (toolCallOf session requestId (params.getD [])) clock storing serves)
    (checks : Triple serves (· = .unmoved) (fun _ after => after = .unmoved)
      (fun stop _ => early stop)
      (replayStage runtime (toolCallOf session requestId (params.getD []))
        ((facts.engine.identity session.identityId).any (fun record => record.authMode = .signed))
        (.obj fields)))
    (foreseen :
      (explanationOf runtime (toolCallOf session requestId (params.getD [])).key
        (toolCallOf session requestId (params.getD [])).arguments facts).toOption.map
          Explanation.decision
      = explained)
    (metadata : (Json.getKey (params.getD []) "_meta").orEmpty = .obj fields)
    (unchallenged : Json.getKey fields challengeIdMetaKey = .null)
    (unapproved : Json.getKey fields approvalMetaKey = .null)
    (timed : facts.Timed clock (Json.getKey fields ReplayGuard.timestampMetaKey))
    (unstamped : ∀ grant,
      facts.engine.matchingGrant session.identityId session.serverId
        (toolCallOf session requestId (params.getD [])).key.toolName = some grant
      → grant.conditions ≠ []
      → Hourless (Json.getKey fields ReplayGuard.timestampMetaKey)
      → raises)
    : Triple serves (· = .unmoved)
        (fun _ _ => ∃ decision,
          explained = some decision ∧ decision.eventType = .allow ∧ decision.decision = .allow)
        (fun stop _ => early stop
          ∨ Foreseen facts (toolCallOf session requestId (params.getD [])) storing raises explained stop)
        (authorizeCall runtime session requestId params) := by
  have whole : authorizeCall runtime session requestId params
      = (do
          let engine ← currentEngine
          let identity := engine.identity session.identityId
          replayStage runtime (toolCallOf session requestId (params.getD []))
            (identity.any (fun record => record.authMode = .signed)) (.obj fields)
          decideFresh runtime session requestId params
            (toolCallOf session requestId (params.getD [])) (.obj fields)
            (identity.elim "" Identity.totpSecret)) := by
    rw [← metadata]
    rfl
  rw [whole]
  refine .bind (triple_engine.narrow within.tells) (fun engine => .assuming ?_)
  rintro rfl
  refine .bind (checks.weaken (fun _ first => first) (fun _ _ returned => returned)
    (fun _ _ stopped => Or.inl stopped)) (fun _ => ?_)
  exact (triple_decideFresh within ⟨rfl, rfl⟩ foreseen unchallenged unapproved rfl timed
    unstamped).weaken (fun _ first => first) (fun _ _ returned => returned)
      (fun _ _ stopped => Or.inr stopped)

end

end DecisionExplainer

end SecureMcp
