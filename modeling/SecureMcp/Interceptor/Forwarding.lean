import SecureMcp.Interceptor.Calls

/-! What a forwarded message has behind it: every stage of the pipeline passed, and the ALLOW
row was recorded, unless the message never entered the pipeline.
-/

namespace SecureMcp

open Interaction

namespace Interceptor

open Coroutine

/-- What no handler catches passes when its body returns. -/
theorem exec_uncaught_ok_iff {α : Type} {body : Async α} {events : List (Event Reply)}
    {value : α}
    : (uncaught body).run.Exec events (.ok value) ↔ body.run.Exec events (.ok value) :=
  exec_mapStop_ok_iff

/-- What follows a computed value that no handler guards passes when it could be computed. -/
theorem exec_uncaught_ofExcept_bind_iff {α β : Type} {outcome : Except Exn α}
    {next : α → Stage β} {events : List (Event Reply)} {result : β}
    : (uncaught (Coroutine.ofExcept outcome) >>= next).run.Exec events (.ok result)
      ↔ ∃ value, outcome = .ok value ∧ (next value).run.Exec events (.ok result) := by
  rw [exec_bind_ok_iff]
  refine ⟨?_, ?_⟩
  · intro ⟨first, second, value, same, computed, exec⟩
    obtain ⟨empty, returned⟩ := Program.exec_done_iff.mp (exec_uncaught_ok_iff.mp computed)
    rw [same, empty, List.nil_append]
    exact ⟨value, returned, exec⟩
  · intro ⟨value, returned, exec⟩
    exact ⟨[], events, value, rfl, exec_uncaught_ok_iff.mpr (returned ▸ .done _), exec⟩

/-- A stage that answers the client does not continue. -/
theorem not_exec_finish {α : Type} {last : Stage ErrorResponse} {events : List (Event Reply)}
    {value : α}
    : ¬ (finish last : Stage α).run.Exec events (.ok value) := by
  intro exec
  obtain ⟨stop, impossible, _⟩ := exec_finish_iff.mp exec
  cases impossible

section

variable {runtime : Runtime} {session : Session} {requestId : RequestId} {call : ToolCall}
  {events : List (Event Reply)}

/-- (Passed … params events message) means that the stages of the pipeline passed in turn,
over the listed events, and that `message` is to be forwarded.
-/
inductive Passed (runtime : Runtime) (session : Session) (requestId : RequestId)
    (params : Option Params)
    : List (Event Reply) → ClientMessage → Prop
  | intro {call : ToolCall} {metadata challengeId approvalId : Json} {engine : PolicyEngine}
    {grant : ServerGrant} {attrs : Abac.Attributes} {stepUpVerified : Bool}
    {risk : Option (Int × List RiskFactor)}
    {replay rbac bound held looked redeemed scored validated allowed : List (Event Reply)}
    (normalized : call = toolCallOf session requestId (params.getD []))
    (meta' : metadata = (Json.getKey (params.getD []) "_meta").orEmpty)
    (replayPassed :
      (replayStage runtime call
        ((engine.identity session.identityId).any (fun record => record.authMode = .signed))
        metadata).run.Exec replay (.ok ()))
    (rbacPassed : (rbacStage call).run.Exec rbac (.ok grant))
    (attributesBound :
      (conditionAttributes session call.key.toolName metadata grant.conditions).run.Exec bound
        (.ok attrs))
    (conditionsHeld :
      (enforceConditions call attrs none none
        (grant.conditions.filter (fun condition => !condition.referencesRisk))).run.Exec held
        (.ok ()))
    (driftPassed : (driftStage call).run.Exec looked (.ok ()))
    (challenged : metadata.get challengeIdMetaKey = .ok challengeId)
    (challengePassed :
      (challengeStage call ((engine.identity session.identityId).elim "" Identity.totpSecret)
        metadata challengeId).run.Exec redeemed (.ok stepUpVerified))
    (approving : metadata.get approvalMetaKey = .ok approvalId)
    (riskPassed :
      (riskStage call grant.conditions attrs stepUpVerified approvalId).run.Exec scored
        (.ok risk))
    (validationPassed : (validationStage runtime session call).run.Exec validated (.ok ()))
    (allowRecorded :
      (allowStage call risk (if approvalId ≠ .null then some approvalId.pyStr else none)
        (if stepUpVerified then some challengeId.pyStr else none)).run.Exec allowed (.ok ()))
    : Passed runtime session requestId params
        (⟨.engine, engine⟩
          :: (replay ++ (rbac ++ (bound ++ (held ++ (looked ++ (redeemed ++ (scored
            ++ (validated ++ allowed)))))))))
        (.request requestId "tools/call" (params.map stripGatewayMeta))

/-- The pipeline ends with a message exactly when every stage passes. -/
theorem exec_authorizeCall_ok {params : Option Params} {message : ClientMessage}
    (whole : (authorizeCall runtime session requestId params).run.Exec events (.ok message))
    : Passed runtime session requestId params events message := by
  obtain ⟨engine, _, rfl, exec⟩ := exec_ask_bind_iff.mp whole
  obtain ⟨replay, _, _, rfl, replayPassed, exec⟩ := exec_bind_ok_iff.mp exec
  obtain ⟨rbac, _, grant, rfl, rbacPassed, exec⟩ := exec_bind_ok_iff.mp exec
  obtain ⟨bound, _, attrs, rfl, attributesBound, exec⟩ := exec_bind_ok_iff.mp exec
  obtain ⟨held, _, _, rfl, conditionsHeld, exec⟩ := exec_bind_ok_iff.mp exec
  obtain ⟨looked, _, _, rfl, driftPassed, exec⟩ := exec_bind_ok_iff.mp exec
  obtain ⟨challengeId, challenged, exec⟩ := exec_uncaught_ofExcept_bind_iff.mp exec
  obtain ⟨redeemed, _, verified, rfl, challengePassed, exec⟩ := exec_bind_ok_iff.mp exec
  obtain ⟨approvalId, approving, exec⟩ := exec_uncaught_ofExcept_bind_iff.mp exec
  obtain ⟨scored, _, risk, rfl, riskPassed, exec⟩ := exec_bind_ok_iff.mp exec
  obtain ⟨validated, _, _, rfl, validationPassed, exec⟩ := exec_bind_ok_iff.mp exec
  obtain ⟨allowed, _, _, rfl, allowRecorded, exec⟩ := exec_bind_ok_iff.mp exec
  obtain ⟨rfl, same⟩ := Program.exec_done_iff.mp exec
  cases same
  rw [List.append_nil]
  exact .intro rfl rfl replayPassed rbacPassed attributesBound conditionsHeld driftPassed
    challenged challengePassed approving riskPassed validationPassed allowRecorded

/-- When every stage passes, the pipeline ends with the message. -/
theorem Passed.exec {params : Option Params} {message : ClientMessage}
    (passed : Passed runtime session requestId params events message)
    : (authorizeCall runtime session requestId params).run.Exec events (.ok message) := by
  obtain ⟨rfl, rfl, replayPassed, rbacPassed, attributesBound, conditionsHeld, driftPassed,
    challenged, challengePassed, approving, riskPassed, validationPassed, allowRecorded⟩ := passed
  refine exec_ask_bind_iff.mpr ⟨_, _, rfl, ?_⟩
  refine exec_bind_ok_iff.mpr ⟨_, _, _, rfl, replayPassed, ?_⟩
  refine exec_bind_ok_iff.mpr ⟨_, _, _, rfl, rbacPassed, ?_⟩
  refine exec_bind_ok_iff.mpr ⟨_, _, _, rfl, attributesBound, ?_⟩
  refine exec_bind_ok_iff.mpr ⟨_, _, _, rfl, conditionsHeld, ?_⟩
  refine exec_bind_ok_iff.mpr ⟨_, _, _, rfl, driftPassed, ?_⟩
  refine exec_uncaught_ofExcept_bind_iff.mpr ⟨_, challenged, ?_⟩
  refine exec_bind_ok_iff.mpr ⟨_, _, _, rfl, challengePassed, ?_⟩
  refine exec_uncaught_ofExcept_bind_iff.mpr ⟨_, approving, ?_⟩
  refine exec_bind_ok_iff.mpr ⟨_, _, _, rfl, riskPassed, ?_⟩
  refine exec_bind_ok_iff.mpr ⟨_, _, _, rfl, validationPassed, ?_⟩
  exact exec_bind_ok_iff.mpr ⟨_, [], _, (List.append_nil _).symm, allowRecorded, .done _⟩

/-- An ALLOW stage that passes has recorded its row. -/
theorem exec_allowStage_ok {risk : Option (Int × List RiskFactor)}
    {approvalId challengeId : Option String}
    (whole : (allowStage call risk approvalId challengeId).run.Exec events (.ok ()))
    : ∃ engine seq,
        events =
          [
            ⟨.engine, engine⟩,
            ⟨.write (allowEntry call.key engine.version call.arguments (risk.map Prod.fst)
              (risk.map Prod.snd) approvalId challengeId), .ok seq⟩
          ] := by
  obtain ⟨engine, _, rfl, exec⟩ := exec_ask_bind_iff.mp whole
  obtain ⟨_, _, recorded, rfl, written, exec⟩ := exec_bind_ok_iff.mp exec
  obtain ⟨reply, rfl, same⟩ := exec_demand_iff.mp (exec_attempt_iff.mp written)
  subst same
  cases reply with
  | error exn => exact absurd exec not_exec_finish
  | ok seq =>
      obtain ⟨rfl, _⟩ := Program.exec_done_iff.mp exec
      exact ⟨engine, seq, rfl⟩

/-- Over a nonce the replay stage passes exactly when the check lets the call through. -/
theorem exec_replayStage_ok_iff {signedMode : Bool} {fields : Params}
    (nonce : Json.getKey fields ReplayGuard.nonceMetaKey ≠ .null)
    : (replayStage runtime call signedMode (.obj fields)).run.Exec events (.ok ())
      ↔ (ReplayGuard.check runtime.settings runtime.isUuid
          (Json.getKey fields ReplayGuard.nonceMetaKey)
          (Json.getKey fields ReplayGuard.timestampMetaKey)).run.Exec events (.ok none) := by
  have present : (Json.obj fields).contains ReplayGuard.nonceMetaKey = .ok true := by
    unfold Json.getKey at nonce
    cases found : fields.lookup ReplayGuard.nonceMetaKey with
    | none => exact absurd (by rw [found]; rfl) nonce
    | some value => simp [Json.contains, found]
  refine ⟨?_, ?_⟩
  · intro whole
    obtain ⟨asking, checking, volunteered, rfl, asked, exec⟩ := exec_bind_ok_iff.mp whole
    have asked := exec_uncaught_ok_iff.mp asked
    have required : asking = [] ∧ volunteered = true := by
      rw [present] at asked
      cases signedMode <;> obtain ⟨empty, same⟩ := Program.exec_done_iff.mp asked <;> cases same
      · exact ⟨empty, rfl⟩
      · exact ⟨empty, rfl⟩
    obtain ⟨rfl, rfl⟩ := required
    obtain ⟨checked, _, result, rfl, attempted, exec⟩ := exec_bind_ok_iff.mp exec
    have inner := exec_attempt_iff.mp attempted
    cases result with
    | error exn => exact absurd exec not_exec_finish
    | ok reason =>
        cases reason with
        | some reason => exact absurd exec not_exec_finish
        | none =>
            obtain ⟨rfl, _⟩ := Program.exec_done_iff.mp exec
            rw [List.nil_append, List.append_nil]
            exact inner
  · intro checked
    refine exec_bind_ok_iff.mpr ⟨[], events, true, rfl, exec_uncaught_ok_iff.mpr ?_, ?_⟩
    · rw [present]
      cases signedMode <;> exact .done _
    · exact exec_bind_ok_iff.mpr ⟨events, [], .ok none, by simp, exec_attempt_iff.mpr checked,
        .done _⟩

/-- An RBAC stage that passes has found a grant of a policy that it read. -/
theorem exec_rbacStage_ok {grant : ServerGrant}
    (whole : (rbacStage call).run.Exec events (.ok grant))
    : ∃ engine : PolicyEngine,
        events = [⟨.engine, engine⟩]
        ∧ engine.matchingGrant call.key.identityId call.key.serverId call.key.toolName
          = some grant := by
  obtain ⟨engine, _, rfl, exec⟩ := exec_ask_bind_iff.mp whole
  refine ⟨engine, ?_⟩
  split at exec
  · next matched =>
      obtain ⟨rfl, same⟩ := Program.exec_done_iff.mp exec
      cases same
      exact ⟨rfl, matched⟩
  · obtain ⟨_, _, _, _, _, exec⟩ := exec_bind_ok_iff.mp exec
    exact absurd exec not_exec_finish

/-- A validation that passes has accepted the arguments under a schema that it found. -/
theorem exec_validationStage_ok
    (exec : (validationStage runtime session call).run.Exec events (.ok ()))
    : ∃ schema,
        (inputSchemaFor runtime session call.key.toolName).run.Exec events (.ok schema)
        ∧ schema ≠ .null
        ∧ ParamValidator.validate runtime call.arguments schema = .ok none := by
  obtain ⟨_, _, schema, rfl, fetched, exec⟩ := exec_bind_ok_iff.mp exec
  have found := exec_uncaught_ok_iff.mp fetched
  split at exec
  · exact absurd exec not_exec_finish
  · next present =>
      obtain ⟨error, validated, exec⟩ := exec_uncaught_ofExcept_bind_iff.mp exec
      cases error with
      | some error => exact absurd exec not_exec_finish
      | none =>
          obtain ⟨rfl, _⟩ := Program.exec_done_iff.mp exec
          exact ⟨schema, by simpa using found, present, validated⟩

end

end Interceptor

end SecureMcp
