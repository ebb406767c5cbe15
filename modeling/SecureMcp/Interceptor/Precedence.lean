import SecureMcp.Interceptor.StageOrder
import SecureMcp.Library.Oracle

/-! The stages of a decision, one by one: when each of them fails over what the stores answer, what the
call comes to then, and that the code of the stage ends so.
-/

namespace SecureMcp

open Interaction

namespace Interceptor

open Coroutine

/-- The stages of a decision. Each of them fails for a reason of its own; scoring does not fail, and
counts as one with the conditions that refer to the score.
-/
inductive Gate
  | replay
  | rbac
  | conditions
  | drift
  | stepUp
  | approval
  | riskConditions
  | band
  | validation
  | record
  deriving DecidableEq

/-- The stages in the order of their precedence. -/
def Gate.all : List Gate :=
  [.replay, .rbac, .conditions, .drift, .stepUp, .approval, .riskConditions, .band, .validation,
    .record]

/-- The stage whose store answers a request, if it is one of a single stage. The row of a denial and
its count are of whichever stage stops the call, and drift rows of the check that finds the drift.
-/
def storeOf : Call → Option Gate
  | .setNonce _ _ => some .replay
  | .isBlocked _ _ => some .drift
  | .redeemChallenge _ _ _ _ _ => some .stepUp
  | .redeemApproval _ _ _ => some .approval
  | .score _ _ _ => some .riskConditions
  | .createApproval _ _ _ | .createChallenge _ _ _ => some .band
  | .cacheGet _ | .cacheSet _ _ | .cacheDelete _ | .listTools | .selectBaselines _
  | .selectBaseline _ _ | .commit _ => some .validation
  | .write entry =>
      if Attempt.OfLifecycle entry then none
      else if entry.eventType = .allow then some .record
      else if entry.eventType ∈ EventType.ofDrift then some .validation
      else none
  | _ => none

/-- How a stage stops a call: with a decision, or without one where it cannot be recorded. -/
inductive Terminal
  | decided (eventType : EventType) (decision : DecisionOutcome) (matchedRules : List String)
  | unavailable

/-- (terminal.Sent response) means that the response is the one of the terminal. -/
def Terminal.Sent : Terminal → ErrorResponse → Prop
  | .decided eventType decision matchedRules, response =>
      response.code = policyDeniedCode
      ∧ ∃ sent,
          response.data = some sent
          ∧ sent.eventType = eventType
          ∧ sent.decision = decision
          ∧ sent.matchedRules = matchedRules
  | .unavailable, response => response.code = auditUnavailableCode ∧ response.data = none

/-- A tool call, with what every question that it may ask is answered. -/
structure Situation where
  runtime : Runtime
  session : Session
  requestId : RequestId
  params : Option Params
  reply : (call : Call) → Reply call

namespace Situation

variable (situation : Situation)

def call : ToolCall :=
  toolCallOf situation.session situation.requestId (situation.params.getD [])

/-- The `_meta` of the call. -/
def fields : Params :=
  match (Json.getKey (situation.params.getD []) "_meta").orEmpty with
  | .obj fields => fields
  | _ => []

/-- What the call presents under a key of its `_meta`. -/
def presented (key : String) : Json :=
  Json.getKey situation.fields key

/-- The policy in force. -/
def engine : PolicyEngine :=
  situation.reply .engine

def identity : Option Identity :=
  situation.engine.identity situation.session.identityId

-----------------------------------------------------------------------------------------
-- Replay
-----------------------------------------------------------------------------------------

/-- Replay protection is mandatory for the identity, or a nonce or a timestamp was volunteered. -/
def guardedCall : Bool :=
  situation.identity.any (fun record => record.authMode = .signed)
  || (situation.fields.lookup ReplayGuard.nonceMetaKey).isSome
  || (situation.fields.lookup ReplayGuard.timestampMetaKey).isSome

/-- The nonce is a UUID that was not seen before, and the timestamp a number inside the window. -/
def fresh : Bool :=
  let window := situation.runtime.settings.replayWindowSeconds
  let timestamp := situation.presented ReplayGuard.timestampMetaKey
  match situation.presented ReplayGuard.nonceMetaKey with
  | .str nonce =>
      situation.runtime.isUuid nonce
      && ReplayGuard.isTimestamp timestamp
      && (ReplayGuard.outside (situation.reply .time) window timestamp).toOption = some false
      && (situation.reply (.setNonce nonce (2 * window))).toOption = some true
  | _ => false

def replayFailure : Option Terminal :=
  if situation.guardedCall && !situation.fresh then
    some (.decided .denyReplay .deny ["replay_guard"])
  else none

-----------------------------------------------------------------------------------------
-- RBAC and conditions
-----------------------------------------------------------------------------------------

def grant : Option ServerGrant :=
  situation.engine.matchingGrant situation.call.key.identityId situation.call.key.serverId
    situation.call.key.toolName

def rule (suffix : String) : String :=
  "policy-v" ++ toString situation.engine.version ++ suffix

def rbacFailure : Option Terminal :=
  if situation.grant.isNone then some (.decided .denyRbac .deny [situation.rule ":rbac"]) else none

/-- The hour of the call: of its timestamp, or else the one that the clock shows. -/
def hour : Except Exn Int :=
  let timestamp := situation.presented ReplayGuard.timestampMetaKey
  if ReplayGuard.isTimestamp timestamp then hourOf timestamp else .ok (situation.reply .utcHour)

def conditions : List Abac.Condition :=
  situation.grant.elim [] ServerGrant.conditions

/-- The attributes of the call at an hour. -/
def attributesAt (hour : Int) : Abac.Attributes :=
  let own := situation.identity.elim [] Identity.attributes
  let call : Abac.Attributes := [
    ("identity.id", .str situation.session.identityId),
    ("tool.name", .str situation.call.key.toolName),
    ("tool.server_id", .str situation.session.serverId)
  ]
  Dict.set "context.hour" (.int hour)
    (Dict.update call (own.map (fun entry => ("identity." ++ entry.1, entry.2))))

/-- What conditions are evaluated over, before the score is known. -/
def attributes : Abac.Attributes :=
  situation.attributesAt (situation.hour.toOption.getD 0)

/-- The first condition that does not hold denies the call. -/
def conditionFailure (attrs : Abac.Attributes) (conditions : List Abac.Condition)
    : Option Terminal :=
  (conditions.find? (fun condition => !(conditionVerdict condition attrs).1)).map (fun failed =>
    .decided .denyAbac .deny [situation.rule ":abac:" ++ failed.source])

-----------------------------------------------------------------------------------------
-- Drift, challenges and approvals
-----------------------------------------------------------------------------------------

def driftFailure : Option Terminal :=
  if (situation.reply (.isBlocked situation.call.key.serverId situation.call.key.toolName)).toOption
      = some false then
    none
  else some (.decided .denyDrift .deny ["drift_detector"])

/-- What the store of challenges comes to about the one that the call presents. -/
def challenge : Except Exn (Option String) := do
  let hash ← argumentsHash situation.call.arguments
  situation.reply (.redeemChallenge (situation.presented challengeIdMetaKey).pyStr
    situation.call.key hash (situation.presented challengeProofMetaKey)
    (situation.identity.elim "" Identity.totpSecret))

/-- The call presents a challenge. -/
def stepsUp : Bool :=
  situation.presented challengeIdMetaKey ≠ .null

def stepUpFailure : Option Terminal :=
  if situation.stepsUp && situation.challenge.toOption ≠ some none then
    some (.decided .denyStepUp .deny ["step_up"])
  else none

/-- The call presents an approval. -/
def approved : Bool :=
  situation.presented approvalMetaKey ≠ .null

/-- What the store of approvals comes to about the one that the call presents. -/
def approval : Except Exn (Option (EventType × String)) := do
  let hash ← argumentsHash situation.call.arguments
  situation.reply
    (.redeemApproval (situation.presented approvalMetaKey).pyStr situation.call.key hash)

def approvalFailure : Option Terminal :=
  if situation.approved then
    match situation.approval with
    | .ok none => none
    | .ok (some (eventType, _)) => some (.decided eventType .deny ["approval_lifecycle"])
    | .error _ => some (.decided .denyApprovalMismatch .deny ["approval_lifecycle"])
  else none

-----------------------------------------------------------------------------------------
-- Risk
-----------------------------------------------------------------------------------------

/-- The score of the call; a scoring that fails counts as the maximum. -/
def risk : Int × List RiskFactor :=
  scoreOrMaximum (situation.reply
    (.score situation.call.key situation.call.arguments situation.engine.policy.risk))

def riskConditionsFailure : Option Terminal :=
  if situation.approved then none
  else
    situation.conditionFailure
      (Dict.set "risk.score" (.int situation.risk.1) situation.attributes)
      (situation.conditions.filter Abac.Condition.referencesRisk)

def stepUpCapable : Bool :=
  situation.identity.any (fun record => record.totpSecret ≠ "")

/-- The decision of a call that is held in a band. -/
def heldDecision (outcome : DecisionOutcome) : Decision :=
  let scored := "risk score " ++ toString situation.risk.1 ++ " for "
    ++ pyRepr situation.call.key.toolName
  let (eventType, reason) :=
    if outcome = .humanApprovalRequired then
      (EventType.humanApprovalRequired,
        scored ++ " requires human approval; retry with the approval id once granted")
    else
      (EventType.challenge,
        scored ++ " requires confirmation"
          ++ (if situation.stepUpCapable then "; retry with the challenge id and a fresh TOTP code"
            else ""))
  {
    decision := outcome
    eventType := eventType
    reason := reason
    matchedRules := ["risk_engine"]
    riskScore := some situation.risk.1
    riskFactors := some situation.risk.2
    policyVersion := situation.engine.version
  }

/-- The row of a held call, and what redeems it, are stored. -/
def holds (outcome : DecisionOutcome) : Bool :=
  let decision := situation.heldDecision outcome
  match situation.reply (.write (riskTerminalEntry situation.call.key decision.eventType
      decision.reason situation.call.arguments situation.risk.1 situation.risk.2)) with
  | .error _ => false
  | .ok seq =>
      if outcome = .humanApprovalRequired then
        match argumentsHash situation.call.arguments with
        | .ok hash => (situation.reply (.createApproval situation.call.key hash seq)).isOk
        | .error _ => false
      else if situation.stepUpCapable then
        match argumentsHash situation.call.arguments with
        | .ok hash => (situation.reply (.createChallenge situation.call.key hash seq)).isOk
        | .error _ => false
      else true

/-- The terminal of a band above ALLOW. -/
def bandFailureOf (outcome : DecisionOutcome) : Terminal :=
  if outcome = .deny then .decided .denyRisk .deny ["risk_engine"]
  else if situation.holds outcome then
    .decided (situation.heldDecision outcome).eventType outcome ["risk_engine"]
  else .unavailable

/-- The band of the score, of which a redeemed challenge clears CHALLENGE only. -/
def bandFailure : Option Terminal :=
  if situation.approved then none
  else (bandTerminal situation.risk.1 situation.stepsUp).map situation.bandFailureOf

-----------------------------------------------------------------------------------------
-- Validation and the ALLOW row
-----------------------------------------------------------------------------------------

/-- The listing of the session: of the cache, or else of a re-fetch. -/
def listing : Option (List Tool) :=
  match (situation.reply (.cacheGet situation.session.serverId)).toOption.join with
  | some tools => some tools
  | none => (answered situation.reply
      (refetchTools situation.runtime situation.session)).toOption.join

/-- The schema that the arguments are validated under; `null` when there is none. -/
def schema : Json :=
  situation.listing.elim .null (inputSchemaIn situation.call.key.toolName)

def validationFailure : Option Terminal :=
  let denied := Terminal.decided .denyValidation .deny ["param_validator"]
  if situation.schema = .null then some denied
  else
    match ParamValidator.validate situation.runtime situation.call.arguments situation.schema with
    | .ok none => none
    | _ => some denied

def recordFailure : Option Terminal :=
  let scored := if situation.approved then none else some situation.risk
  let entry := allowEntry situation.call.key situation.engine.version situation.call.arguments
    (scored.map Prod.fst) (scored.map Prod.snd)
    (if situation.approved then some (situation.presented approvalMetaKey).pyStr else none)
    (if situation.stepsUp then some (situation.presented challengeIdMetaKey).pyStr else none)
  if (situation.reply (.write entry)).isOk then none else some .unavailable

/-- What a stage fails with, if it does. -/
def fails : Gate → Option Terminal
  | .replay => situation.replayFailure
  | .rbac => situation.rbacFailure
  | .conditions =>
      situation.conditionFailure situation.attributes
        (situation.conditions.filter (fun condition => !condition.referencesRisk))
  | .drift => situation.driftFailure
  | .stepUp => situation.stepUpFailure
  | .approval => situation.approvalFailure
  | .riskConditions => situation.riskConditionsFailure
  | .band => situation.bandFailure
  | .validation => situation.validationFailure
  | .record => situation.recordFailure

-----------------------------------------------------------------------------------------
-- What a stage comes to
-----------------------------------------------------------------------------------------

/-- (Ends computes failure returns outcome) means that a stage raises unless what it needs can be
computed; it then stops with its failure, and returns as it is told if it has none.
-/
def Ends {α : Type} (computes : Prop) (failure : Option Terminal) (returns : α → Prop)
    : Except Stop α → Prop
  | .ok value => computes ∧ failure = none ∧ returns value
  | .error (.respond response) =>
      computes ∧ ∃ terminal, failure = some terminal ∧ terminal.Sent response
  | .error (.raised _) => ¬ computes

section

variable {situation : Situation} {reply : (call : Call) → Reply call} {call : ToolCall}

/-- What follows a `try` block is told what it came to. -/
theorem answered_guarded_bind {α β : Type} (body : Async α) (next : Except Exn α → Stage β)
    : answered reply (guarded body >>= next) = answered reply (next (answered reply body)) :=
  answered_bind_of_ok reply next (answered_attempt reply body)

/-- What follows a reading of the policy is told the one in force. -/
theorem answered_engine_bind {ε β : Type} (next : PolicyEngine → Coroutine Call Reply ε β)
    : answered reply (currentEngine >>= next) = answered reply (next (reply .engine)) :=
  answered_bind_of_ok reply next (answered_ask reply Call.engine)

/-- A stage that stops a call with a response. -/
theorem answered_finish {α : Type} {last : Stage ErrorResponse} {response : ErrorResponse}
    (responds : answered reply last = .ok response)
    : answered reply (finish last : Stage α) = .error (.respond response) := by
  exact answered_bind_of_ok _ _ responds

theorem answered_deny (eventType : EventType) (reason : String) (matchedRules : List String)
    (riskScore : Option Int) (riskFactors : Option (List RiskFactor))
    : ∃ response,
        answered reply (deny call eventType reason matchedRules riskScore riskFactors) = .ok response
        ∧ (Terminal.decided eventType .deny matchedRules).Sent response :=
  ⟨_, rfl, rfl, _, rfl, rfl, rfl, rfl⟩

/-- A denial is the terminal of its stage. -/
theorem ends_denied {α : Type} {returns : α → Prop} {eventType : EventType} {reason : String}
    {matchedRules : List String} {riskScore : Option Int} {riskFactors : Option (List RiskFactor)}
    : Ends True (some (.decided eventType .deny matchedRules)) returns
        (answered reply (finish (deny call eventType reason matchedRules riskScore riskFactors)
          : Stage α)) := by
  obtain ⟨response, responds, sent⟩ : ∃ response,
      answered reply (deny call eventType reason matchedRules riskScore riskFactors) = .ok response
      ∧ (Terminal.decided eventType .deny matchedRules).Sent response :=
    answered_deny _ _ _ _ _
  rw [answered_finish responds]
  exact ⟨trivial, _, rfl, sent⟩

/-- The replay guard finds a fresh call fresh, and no other. -/
theorem answered_check
    : answered situation.reply (ReplayGuard.check situation.runtime.settings
          situation.runtime.isUuid (situation.presented ReplayGuard.nonceMetaKey)
          (situation.presented ReplayGuard.timestampMetaKey))
        = .ok none
      ↔ situation.fresh := by
  unfold ReplayGuard.check fresh
  dsimp only
  cases situation.presented ReplayGuard.nonceMetaKey with
  | str nonce =>
      dsimp only
      cases uuid : situation.runtime.isUuid nonce with
      | false => simp
      | true =>
          cases numeric : ReplayGuard.isTimestamp
              (situation.presented ReplayGuard.timestampMetaKey) with
          | false => simp
          | true =>
              simp only [Bool.not_true, Bool.false_eq_true, if_false, Bool.true_and]
              rw [answered_bind_of_ok _ _ (answered_ask _ _)]
              cases outside : ReplayGuard.outside (situation.reply .time)
                  situation.runtime.settings.replayWindowSeconds
                  (situation.presented ReplayGuard.timestampMetaKey) with
              | error exn => simp [Except.toOption]
              | ok late =>
                  cases late with
                  | true => simp [Except.toOption]
                  | false =>
                      simp only [ofExcept_ok_bind, Bool.false_eq_true, if_false]
                      rw [answered_bind, answered_demand]
                      cases situation.reply (.setNonce nonce
                          (2 * situation.runtime.settings.replayWindowSeconds)) with
                      | error exn => simp [Except.toOption]
                      | ok taken => cases taken <;> simp [Except.toOption]
  | _ => simp

/-- Stages compose: the second one has its say where the first one does not fail. -/
theorem Ends.bind {α β : Type} {computes later : Prop} {failure next : Option Terminal}
    {middle : α → Prop} {returns : β → Prop} {body : Stage α} {rest : α → Stage β}
    (first : Ends computes failure middle (answered reply body))
    (second : ∀ value, middle value → Ends later next returns (answered reply (rest value)))
    : Ends (computes ∧ (failure = none → later)) (failure.or next) returns
        (answered reply (body >>= rest)) := by
  rw [answered_bind]
  generalize answered reply body = outcome at first
  rcases outcome with (response | exn) | value
  · obtain ⟨able, terminal, rfl, sent⟩ := first
    exact ⟨⟨able, nofun⟩, terminal, rfl, sent⟩
  · exact fun able => first able.1
  · obtain ⟨able, rfl, returned⟩ := first
    have ends := second value returned
    dsimp only
    generalize answered reply (rest value) = ended at ends
    rcases ended with (response | exn) | result
    · exact ⟨⟨able, fun _ => ends.1⟩, ends.2⟩
    · exact fun both => ends (both.2 rfl)
    · exact ⟨⟨able, fun _ => ends.1⟩, ends.2⟩

theorem Ends.of_iff {α : Type} {computes others : Prop} {failure : Option Terminal}
    {returns : α → Prop} {outcome : Except Stop α} (ends : Ends computes failure returns outcome)
    (same : computes ↔ others)
    : Ends others failure returns outcome :=
  propext same ▸ ends

theorem ends_replayStage
    : Ends True situation.replayFailure (fun _ => True)
        (answered situation.reply (replayStage situation.runtime situation.call
          (situation.identity.any (fun record => record.authMode = .signed))
          (.obj situation.fields))) := by
  unfold replayStage
  have volunteers : answered situation.reply (uncaught
        (if situation.identity.any (fun record => record.authMode = .signed) then return true
        else do
          if ← Coroutine.ofExcept ((Json.obj situation.fields).contains ReplayGuard.nonceMetaKey) then
            return true
          else Coroutine.ofExcept ((Json.obj situation.fields).contains ReplayGuard.timestampMetaKey))
        : Stage Bool)
      = .ok situation.guardedCall := by
    unfold guardedCall uncaught
    rw [answered_mapStop]
    cases situation.identity.any (fun record => record.authMode = .signed) with
    | true => rfl
    | false =>
        simp only [Bool.false_eq_true, if_false, Json.contains, ofExcept_ok_bind, Bool.false_or]
        cases (situation.fields.lookup ReplayGuard.nonceMetaKey).isSome <;> rfl
  rw [answered_bind_of_ok _ _ volunteers]
  unfold replayFailure
  cases situation.guardedCall with
  | false => exact ⟨trivial, rfl, trivial⟩
  | true =>
      rw [if_pos rfl, answered_guarded_bind]
      have checked : answered situation.reply (do
            let nonce ← Coroutine.ofExcept ((Json.obj situation.fields).get ReplayGuard.nonceMetaKey)
            let timestamp ← Coroutine.ofExcept
              ((Json.obj situation.fields).get ReplayGuard.timestampMetaKey)
            ReplayGuard.check situation.runtime.settings situation.runtime.isUuid nonce timestamp
            : Async (Option String))
          = .ok none
        ↔ situation.fresh :=
        answered_check
      generalize answered situation.reply (_ : Async (Option String)) = outcome at checked ⊢
      cases fresh : situation.fresh with
      | true =>
          rw [checked.mpr fresh]
          exact ⟨trivial, rfl, trivial⟩
      | false =>
          rw [fresh] at checked
          rcases outcome with exn | _ | reason
          · exact ends_denied
          · exact absurd (checked.mp rfl) Bool.false_ne_true
          · exact ends_denied

/-- A call that is granted goes on with its grant. -/
theorem ends_rbacStage
    : Ends True situation.rbacFailure (fun grant => situation.grant = some grant)
        (answered situation.reply (rbacStage situation.call)) := by
  unfold rbacStage rbacFailure
  rw [answered_engine_bind]
  have read : (situation.reply .engine).matchingGrant situation.call.key.identityId
      situation.call.key.serverId situation.call.key.toolName = situation.grant :=
    rfl
  rw [read]
  cases situation.grant with
  | some grant => exact ⟨trivial, rfl, rfl⟩
  | none =>
      dsimp only
      rw [answered_engine_bind]
      exact ends_denied

theorem answered_abacAttributes
    : answered situation.reply (abacAttributes situation.session situation.call.key.toolName
          (.obj situation.fields))
      = situation.hour.map situation.attributesAt := by
  have hours : answered situation.reply (contextHour
      (situation.presented ReplayGuard.timestampMetaKey)) = situation.hour := by
    unfold contextHour hour
    dsimp only
    split <;> rfl
  unfold abacAttributes
  rw [answered_engine_bind]
  have read : (Json.obj situation.fields).get ReplayGuard.timestampMetaKey
      = .ok (situation.presented ReplayGuard.timestampMetaKey) :=
    rfl
  rw [read, ofExcept_ok_bind, answered_bind, hours]
  cases situation.hour <;> rfl

/-- The attributes for the conditions of a grant are those of the call, unless it has no hour. -/
theorem ends_conditionAttributes (conditions : List Abac.Condition)
    : Ends (conditions ≠ [] → situation.hour.isOk) none
        (fun attrs => conditions ≠ [] → attrs = situation.attributes)
        (answered situation.reply (conditionAttributes situation.session
          situation.call.key.toolName (.obj situation.fields) conditions)) := by
  unfold conditionAttributes
  cases conditions with
  | nil => exact ⟨fun some => absurd rfl some, rfl, fun some => absurd rfl some⟩
  | cons condition rest =>
      simp only [List.isEmpty_cons, Bool.false_eq_true, if_false, uncaught, answered_mapStop,
        answered_abacAttributes]
      unfold attributes
      cases situation.hour with
      | error exn => exact fun able => nomatch able (List.cons_ne_nil _ _)
      | ok hour => exact ⟨fun _ => rfl, rfl, fun _ => rfl⟩

theorem answered_recordProblem (condition : Abac.Condition) (problem : Option String)
    : answered reply (recordProblem call condition problem) = .ok () := by
  cases problem <;> rfl

/-- Conditions stop a call at the first one that does not hold, by induction on them. -/
theorem ends_enforceConditions (attrs : Abac.Attributes) (riskScore : Option Int)
    (riskFactors : Option (List RiskFactor)) (conditions : List Abac.Condition)
    : Ends True (situation.conditionFailure attrs conditions) (fun _ => True)
        (answered situation.reply
          (enforceConditions situation.call attrs riskScore riskFactors conditions)) := by
  unfold conditionFailure
  induction conditions with
  | nil => exact ⟨trivial, rfl, trivial⟩
  | cons condition rest ih =>
      unfold enforceConditions
      dsimp only
      rw [answered_bind_of_ok _ _ (answered_recordProblem _ _), List.find?_cons]
      cases satisfied : (conditionVerdict condition attrs).1 with
      | true => exact ih
      | false =>
          simp only [Bool.not_false, Bool.false_eq_true, if_false]
          rw [answered_engine_bind]
          exact ends_denied

/-- A tool whose status is known to be clear goes on, and no other. -/
theorem ends_driftStage
    : Ends True situation.driftFailure (fun _ => True)
        (answered situation.reply (driftStage situation.call)) := by
  unfold driftStage driftFailure
  rw [answered_guarded_bind]
  have read : answered situation.reply
      (DriftDetector.isBlocked situation.call.key.serverId situation.call.key.toolName)
      = situation.reply (.isBlocked situation.call.key.serverId situation.call.key.toolName) :=
    rfl
  rw [read]
  generalize situation.reply (.isBlocked situation.call.key.serverId situation.call.key.toolName)
    = status
  rcases status with exn | _ | _
  · exact ends_denied
  · exact ⟨trivial, rfl, trivial⟩
  · exact ends_denied

/-- A call goes on that presents no challenge, or one that is redeemed. -/
theorem ends_challengeStage
    : Ends True situation.stepUpFailure (· = situation.stepsUp)
        (answered situation.reply (challengeStage situation.call
          (situation.identity.elim "" Identity.totpSecret) (.obj situation.fields)
          (situation.presented challengeIdMetaKey))) := by
  unfold challengeStage stepUpFailure stepsUp
  by_cases absent : situation.presented challengeIdMetaKey = .null
  · rw [if_pos absent]
    simp only [absent]
    exact ⟨trivial, rfl, rfl⟩
  · rw [if_neg absent, answered_guarded_bind]
    have redeemed : answered situation.reply (do
          let hash ← Coroutine.ofExcept (argumentsHash situation.call.arguments)
          let proof ← Coroutine.ofExcept ((Json.obj situation.fields).get challengeProofMetaKey)
          ChallengeStore.redeem (situation.presented challengeIdMetaKey).pyStr situation.call.key
            hash proof (situation.identity.elim "" Identity.totpSecret) : Async (Option String))
        = situation.challenge := by
      unfold challenge
      rw [answered_bind, answered_ofExcept]
      cases argumentsHash situation.call.arguments <;> rfl
    rw [redeemed]
    rcases situation.challenge with exn | _ | reason
    · simpa [absent, Except.toOption] using ends_denied
    · simp [absent, Except.toOption, Ends]
    · simpa [absent, Except.toOption] using ends_denied

/-- A call that presents an approval goes on when it is redeemed. -/
theorem ends_approvalStage (presents : situation.approved)
    : Ends True situation.approvalFailure (fun _ => True)
        (answered situation.reply
          (approvalStage situation.call (situation.presented approvalMetaKey))) := by
  unfold approvalStage approvalFailure
  rw [if_pos presents, answered_guarded_bind]
  have redeemed : answered situation.reply (do
        let hash ← Coroutine.ofExcept (argumentsHash situation.call.arguments)
        ApprovalStore.redeem (situation.presented approvalMetaKey).pyStr situation.call.key hash
        : Async (Option (EventType × String)))
      = situation.approval := by
    unfold approval
    rw [answered_bind, answered_ofExcept]
    cases argumentsHash situation.call.arguments <;> rfl
  rw [redeemed]
  rcases situation.approval with exn | _ | ⟨eventType, reason⟩
  · exact ends_denied
  · exact ⟨trivial, rfl, trivial⟩
  · exact ends_denied

/-- Conditions that there are none of hold over any attributes. -/
theorem conditionFailure_congr {attrs others : Abac.Attributes} {conditions : List Abac.Condition}
    (chosen : Abac.Condition → Bool) (same : conditions ≠ [] → attrs = others)
    : situation.conditionFailure attrs (conditions.filter chosen)
      = situation.conditionFailure others (conditions.filter chosen) := by
  cases conditions with
  | nil => rfl
  | cons condition rest => rw [same (List.cons_ne_nil _ _)]

/-- A call is held if what it is held by can be stored. -/
theorem answered_hold (outcome : DecisionOutcome)
    : match answered situation.reply (hold situation.call situation.stepUpCapable
          (situation.heldDecision outcome) situation.risk.1 situation.risk.2) with
      | .ok held =>
          situation.holds outcome = true
          ∧ held.eventType = (situation.heldDecision outcome).eventType
          ∧ held.decision = outcome
          ∧ held.matchedRules = ["risk_engine"]
      | .error _ => situation.holds outcome = false := by
  unfold hold holds
  dsimp only
  have decides : (situation.heldDecision outcome).decision = outcome := rfl
  have rules : (situation.heldDecision outcome).matchedRules = ["risk_engine"] := rfl
  generalize situation.heldDecision outcome = decision at decides rules
  subst decides
  rw [answered_bind]
  have written (entry : AuditEntry)
      : answered situation.reply (AuditWriter.write entry) = situation.reply (.write entry) :=
    rfl
  rw [written]
  generalize situation.reply (.write _) = recorded
  cases recorded with
  | error exn => rfl
  | ok seq =>
      dsimp only
      by_cases approves : decision.decision = .humanApprovalRequired
      · rw [if_pos approves, if_pos approves, answered_bind, answered_ofExcept]
        cases argumentsHash situation.call.arguments with
        | error exn => rfl
        | ok hash =>
            dsimp only
            rw [answered_bind]
            have created
                : answered situation.reply (ApprovalStore.create situation.call.key hash seq)
                  = situation.reply (.createApproval situation.call.key hash seq) :=
              rfl
            rw [created]
            cases situation.reply (.createApproval situation.call.key hash seq) with
            | error exn => rfl
            | ok approvalId => exact ⟨rfl, rfl, rfl, rules⟩
      · rw [if_neg approves, if_neg approves]
        cases situation.stepUpCapable with
        | false => exact ⟨rfl, rfl, rfl, rules⟩
        | true =>
            rw [if_pos rfl, if_pos rfl, answered_bind, answered_ofExcept]
            cases argumentsHash situation.call.arguments with
            | error exn => rfl
            | ok hash =>
                dsimp only
                rw [answered_bind]
                have created
                    : answered situation.reply (ChallengeStore.create situation.call.key hash seq)
                      = situation.reply (.createChallenge situation.call.key hash seq) :=
                  rfl
                rw [created]
                cases situation.reply (.createChallenge situation.call.key hash seq) with
                | error exn => rfl
                | ok challengeId => exact ⟨rfl, rfl, rfl, rules⟩

/-- A call in a band above ALLOW and below DENY is answered with its held decision, if it has one. -/
theorem answered_held {outcome : DecisionOutcome} (undenied : outcome ≠ .deny)
    : answered situation.reply
          (riskTerminal situation.call outcome situation.risk.1 situation.risk.2)
        = match answered situation.reply (hold situation.call situation.stepUpCapable
              (situation.heldDecision outcome) situation.risk.1 situation.risk.2) with
          | .error _ => .ok (unavailable situation.call)
          | .ok held => .ok {
              requestId := situation.call.requestId
              code := policyDeniedCode
              message := (situation.heldDecision outcome).reason
              data := some held
            } := by
  unfold riskTerminal
  dsimp only
  rw [if_neg undenied, popPending, answered_bind_of_ok _ _ (answered_ask _ _), answered_engine_bind,
    answered_engine_bind, answered_guarded_bind]
  have responds (decision : Decision) (same : decision = situation.heldDecision outcome)
      : answered situation.reply
          (match answered situation.reply (hold situation.call situation.stepUpCapable decision
              situation.risk.1 situation.risk.2) with
          | .error _ => pure (unavailable situation.call)
          | .ok held => pure {
              requestId := situation.call.requestId
              code := policyDeniedCode
              message := decision.reason
              data := some held
            } : Stage ErrorResponse)
        = match answered situation.reply (hold situation.call situation.stepUpCapable
              (situation.heldDecision outcome) situation.risk.1 situation.risk.2) with
          | .error _ => .ok (unavailable situation.call)
          | .ok held => .ok {
              requestId := situation.call.requestId
              code := policyDeniedCode
              message := (situation.heldDecision outcome).reason
              data := some held
            } := by
    rw [same]
    cases answered situation.reply (hold situation.call situation.stepUpCapable
      (situation.heldDecision outcome) situation.risk.1 situation.risk.2) <;> rfl
  refine responds _ ?_
  unfold heldDecision
  cases outcome <;> rfl

/-- The terminal of a band is sent. -/
theorem answered_riskTerminal (outcome : DecisionOutcome)
    : ∃ response,
        answered situation.reply
            (riskTerminal situation.call outcome situation.risk.1 situation.risk.2)
          = .ok response
        ∧ (situation.bandFailureOf outcome).Sent response := by
  unfold bandFailureOf
  by_cases denies : outcome = .deny
  · unfold riskTerminal
    dsimp only
    rw [if_pos denies, if_pos denies]
    exact answered_deny _ _ _ _ _
  · rw [if_neg denies, answered_held denies]
    have held := situation.answered_hold outcome
    generalize answered situation.reply (hold situation.call situation.stepUpCapable
      (situation.heldDecision outcome) situation.risk.1 situation.risk.2) = result at held
    cases result with
    | error exn =>
        rw [held]
        exact ⟨_, rfl, rfl, rfl⟩
    | ok decision =>
        obtain ⟨stored, eventType, decides, rules⟩ := held
        rw [stored]
        exact ⟨_, rfl, rfl, decision, rfl, eventType, decides, rules⟩

end

end Situation

end Interceptor

end SecureMcp
