import SecureMcp.Interceptor.Bands
import SecureMcp.Interceptor.Recorded
import SecureMcp.Interceptor.ReplayDedup
import SecureMcp.Library.Postcondition

/-! The order in which a decision uses the stores. Nothing that a later stage uses up or relies on is
asked for before the earlier stages have passed, whatever the stores answer and whatever changes
between two questions.
-/

namespace SecureMcp

open Interaction

namespace Interceptor

open Coroutine

/-- One tool call of a session, with the `_meta` that it carries. -/
structure Attempt where
  runtime : Runtime
  session : Session
  call : ToolCall
  metadata : Json

namespace Attempt

/-- The call that a request makes. -/
def ofRequest (runtime : Runtime) (session : Session) (requestId : RequestId)
    (params : Option Params)
    : Attempt where
  runtime := runtime
  session := session
  call := toolCallOf session requestId (params.getD [])
  metadata := (Json.getKey (params.getD []) "_meta").orEmpty

variable (attempt : Attempt) (past : List (Event Reply))

/-- The replay stage is mandatory under a policy, or the client volunteered for it. -/
def Guarded (engine : PolicyEngine) : Prop :=
  (engine.identity attempt.session.identityId).any (fun record => record.authMode = .signed)
  ∨ attempt.metadata.contains ReplayGuard.nonceMetaKey = .ok true
  ∨ attempt.metadata.contains ReplayGuard.timestampMetaKey = .ok true

/-- Stage 1: the nonce of a guarded call was taken. -/
def Fresh : Prop :=
  ∃ engine : PolicyEngine,
    ⟨.engine, engine⟩ ∈ past
    ∧ (attempt.Guarded engine
      → ∃ nonce seconds,
        attempt.metadata.get ReplayGuard.nonceMetaKey = .ok (.str nonce)
        ∧ ⟨.setNonce nonce seconds, .ok true⟩ ∈ past)

/-- Stage 2: a policy that was read grants the call, and the attributes for the conditions of the
grant were read.
-/
def Granted (grant : ServerGrant) (attrs : Abac.Attributes) : Prop :=
  (∃ engine : PolicyEngine,
    ⟨.engine, engine⟩ ∈ past
    ∧ engine.matchingGrant attempt.call.key.identityId attempt.call.key.serverId
        attempt.call.key.toolName
      = some grant)
  ∧ ∃ bound,
    bound <:+: past
    ∧ (conditionAttributes attempt.session attempt.call.key.toolName attempt.metadata
        grant.conditions).run.Exec bound (.ok attrs)

/-- Stages 2 and 3: the call is granted, and the conditions of the grant hold. -/
def Admitted (grant : ServerGrant) (attrs : Abac.Attributes) : Prop :=
  attempt.Granted past grant attrs
  ∧ ∀ condition ∈ grant.conditions,
      condition.referencesRisk = false → (conditionVerdict condition attrs).1 = true

/-- Stage 4: the tool was looked up and is not blocked. -/
def Unblocked : Prop :=
  ⟨.isBlocked attempt.call.key.serverId attempt.call.key.toolName, .ok false⟩ ∈ past

/-- Stage 5: the challenge that the call names was redeemed for it. -/
def SteppedUp (stepUpVerified : Bool) : Prop :=
  ∃ challengeId,
    attempt.metadata.get challengeIdMetaKey = .ok challengeId
    ∧ (stepUpVerified ↔ challengeId ≠ .null)
    ∧ (stepUpVerified
      → ∃ hash proof secret,
        ⟨.redeemChallenge challengeId.pyStr attempt.call.key hash proof secret, .ok none⟩ ∈ past)

/-- The score of the call, as the risk engine was asked for it. -/
def Rated (score : Int) : Prop :=
  ∃ policy reply,
    ⟨.score attempt.call.key attempt.call.arguments policy, reply⟩ ∈ past
    ∧ (scoreOrMaximum reply).1 = score

/-- The call was scored, and the conditions of its grant that refer to the score hold. -/
def Scored (grant : ServerGrant) (attrs : Abac.Attributes) (score : Int) : Prop :=
  attempt.Rated past score
  ∧ ∀ condition ∈ grant.conditions,
      condition.referencesRisk = true
      → (conditionVerdict condition (Dict.set "risk.score" (.int score) attrs)).1 = true

/-- Stage 6: the approval that the call names was redeemed for it, or its score lets it through. -/
def Cleared (grant : ServerGrant) (attrs : Abac.Attributes) (stepUpVerified : Bool) : Prop :=
  (∃ approvalId hash,
    attempt.metadata.get approvalMetaKey = .ok approvalId
    ∧ approvalId ≠ .null
    ∧ ⟨.redeemApproval approvalId.pyStr attempt.call.key hash, .ok none⟩ ∈ past)
  ∨ (attempt.metadata.get approvalMetaKey = .ok .null
    ∧ ∃ score,
      attempt.Scored past grant attrs score ∧ bandTerminal score stepUpVerified = none)

/-- Stage 7: the arguments were validated under a schema that was found. -/
def Validated : Prop :=
  ∃ schema fetched,
    fetched <:+: past
    ∧ (inputSchemaFor attempt.runtime attempt.session attempt.call.key.toolName).run.Exec fetched
        (.ok schema)
    ∧ schema ≠ .null
    ∧ ParamValidator.validate attempt.runtime attempt.call.arguments schema = .ok none

/-- Stages 1 to 3. -/
def Entered (grant : ServerGrant) (attrs : Abac.Attributes) : Prop :=
  attempt.Fresh past ∧ attempt.Admitted past grant attrs

/-- Stages 1 to 5. -/
def Scorable (grant : ServerGrant) (attrs : Abac.Attributes) (stepUpVerified : Bool) : Prop :=
  attempt.Entered past grant attrs ∧ attempt.Unblocked past ∧ attempt.SteppedUp past stepUpVerified

/-- Stage 6: the score of the call is in a band that ends it. -/
def Banded (outcome : DecisionOutcome) (score : Int) : Prop :=
  ∃ grant attrs stepUpVerified,
    attempt.Scorable past grant attrs stepUpVerified
    ∧ attempt.Scored past grant attrs score
    ∧ bandTerminal score stepUpVerified = some outcome

/-- A call is held: its score is in a band, and its decision was recorded under a number. -/
def Held (outcome : DecisionOutcome) (kind : EventType) (auditId : Nat) : Prop :=
  (∃ score, attempt.Banded past outcome score)
  ∧ ∃ entry, ⟨.write entry, .ok auditId⟩ ∈ past ∧ entry.eventType = kind

/-- Stages 1 to 6. -/
def Settled : Prop :=
  ∃ grant attrs stepUpVerified,
    attempt.Scorable past grant attrs stepUpVerified
    ∧ attempt.Cleared past grant attrs stepUpVerified

/-- The row of a denial that the store of approvals words: it is known by its rule, since its event
type is the store's.
-/
def OfLifecycle (entry : AuditEntry) : Prop :=
  entry.payloadExtra.lookup "matched_rules" = some (.strings ["approval_lifecycle"])

instance (entry : AuditEntry) : Decidable (OfLifecycle entry) :=
  inferInstanceAs (Decidable (_ = _))

/-- What has passed before the stage that records a row of this event type. A condition that refers to
the score is evaluated in stage 6, any other one in stage 3.
-/
def InStage (entry : AuditEntry) : Prop :=
  match entry.eventType with
  | .denyReplay => True
  | .denyRbac => attempt.Fresh past
  | .policyError =>
      ∃ grant attrs condition,
        (attempt.Fresh past ∧ attempt.Granted past grant attrs)
        ∧ condition ∈ grant.conditions
        ∧ entry.payloadExtra.lookup "condition" = some (.str condition.source)
        ∧ (condition.referencesRisk = true
          → ∃ stepUpVerified score,
            attempt.Scorable past grant attrs stepUpVerified ∧ attempt.Rated past score)
  | .denyAbac =>
      ∃ grant attrs,
        (attempt.Fresh past ∧ attempt.Granted past grant attrs)
        ∧ ∀ score,
          entry.riskScore = some score
          → ∃ stepUpVerified,
            attempt.Scorable past grant attrs stepUpVerified ∧ attempt.Rated past score
  | .denyDrift => ∃ grant attrs, attempt.Entered past grant attrs
  | .denyStepUp => (∃ grant attrs, attempt.Entered past grant attrs) ∧ attempt.Unblocked past
  | .denyRisk => ∃ score, entry.riskScore = some score ∧ attempt.Banded past .deny score
  | .challenge => ∃ score, entry.riskScore = some score ∧ attempt.Banded past .challenge score
  | .humanApprovalRequired =>
      ∃ score, entry.riskScore = some score ∧ attempt.Banded past .humanApprovalRequired score
  | .driftLow | .driftMedium | .driftHigh | .driftCritical | .baselineFlagged
  | .denyValidation => attempt.Settled past
  | .allow => attempt.Settled past ∧ attempt.Validated past
  | _ => False

/-- (attempt.Recordable past entry) means that the stages before the one that records this row have
passed.
-/
def Recordable (entry : AuditEntry) : Prop :=
  if OfLifecycle entry then
    ∃ grant attrs stepUpVerified, attempt.Scorable past grant attrs stepUpVerified
  else attempt.InStage past entry

/-- (attempt.InOrder past asked) means that the stages before the one that asks have passed. -/
def InOrder : Call → Prop
  | .isBlocked _ _ => ∃ grant attrs, attempt.Entered past grant attrs
  | .redeemChallenge _ _ _ _ _ =>
      (∃ grant attrs, attempt.Entered past grant attrs) ∧ attempt.Unblocked past
  | .redeemApproval _ _ _ | .score _ _ _ =>
      ∃ grant attrs stepUpVerified, attempt.Scorable past grant attrs stepUpVerified
  | .createApproval _ _ auditId =>
      attempt.Held past .humanApprovalRequired .humanApprovalRequired auditId
  | .createChallenge _ _ auditId => attempt.Held past .challenge .challenge auditId
  | .cacheGet _ | .cacheSet _ _ | .cacheDelete _ | .listTools | .selectBaselines _
  | .selectBaseline _ _ | .commit _ => attempt.Settled past
  | .write entry => attempt.Recordable past entry
  | _ => True

-----------------------------------------------------------------------------------------
-- What has passed stays passed
-----------------------------------------------------------------------------------------

section

variable {attempt : Attempt} {past : List (Event Reply)} {grant : ServerGrant}
  {attrs : Abac.Attributes} {stepUpVerified : Bool} {score : Int}

theorem Fresh.more (fresh : attempt.Fresh past) (later : List (Event Reply))
    : attempt.Fresh (past ++ later) := by
  obtain ⟨engine, read, guarded⟩ := fresh
  refine ⟨engine, List.mem_append_left _ read, fun needed => ?_⟩
  obtain ⟨nonce, seconds, carried, taken⟩ := guarded needed
  exact ⟨nonce, seconds, carried, List.mem_append_left _ taken⟩

theorem Granted.more (granted : attempt.Granted past grant attrs) (later : List (Event Reply))
    : attempt.Granted (past ++ later) grant attrs := by
  obtain ⟨⟨engine, read, matched⟩, ⟨bound, within, exec⟩⟩ := granted
  exact ⟨⟨engine, List.mem_append_left _ read, matched⟩,
    ⟨bound, within.trans (List.prefix_append _ _).isInfix, exec⟩⟩

theorem Admitted.more (admitted : attempt.Admitted past grant attrs) (later : List (Event Reply))
    : attempt.Admitted (past ++ later) grant attrs :=
  ⟨admitted.1.more later, admitted.2⟩

theorem Entered.more (entered : attempt.Entered past grant attrs) (later : List (Event Reply))
    : attempt.Entered (past ++ later) grant attrs :=
  ⟨entered.1.more later, entered.2.more later⟩

theorem SteppedUp.more (steppedUp : attempt.SteppedUp past stepUpVerified)
    (later : List (Event Reply))
    : attempt.SteppedUp (past ++ later) stepUpVerified := by
  obtain ⟨challengeId, carried, named, redeemed⟩ := steppedUp
  refine ⟨challengeId, carried, named, fun verified => ?_⟩
  obtain ⟨hash, proof, secret, member⟩ := redeemed verified
  exact ⟨hash, proof, secret, List.mem_append_left _ member⟩

theorem Scorable.more (scorable : attempt.Scorable past grant attrs stepUpVerified)
    (later : List (Event Reply))
    : attempt.Scorable (past ++ later) grant attrs stepUpVerified :=
  ⟨scorable.1.more later, List.mem_append_left _ scorable.2.1, scorable.2.2.more later⟩

theorem Rated.more (rated : attempt.Rated past score) (later : List (Event Reply))
    : attempt.Rated (past ++ later) score := by
  obtain ⟨policy, reply, member, same⟩ := rated
  exact ⟨policy, reply, List.mem_append_left _ member, same⟩

theorem Scored.more (scored : attempt.Scored past grant attrs score) (later : List (Event Reply))
    : attempt.Scored (past ++ later) grant attrs score :=
  ⟨scored.1.more later, scored.2⟩

theorem Banded.more {outcome : DecisionOutcome} (banded : attempt.Banded past outcome score)
    (later : List (Event Reply))
    : attempt.Banded (past ++ later) outcome score := by
  obtain ⟨grant, attrs, stepUpVerified, scorable, scored, band⟩ := banded
  exact ⟨grant, attrs, stepUpVerified, scorable.more later, scored.more later, band⟩

theorem Cleared.more (cleared : attempt.Cleared past grant attrs stepUpVerified)
    (later : List (Event Reply))
    : attempt.Cleared (past ++ later) grant attrs stepUpVerified := by
  rcases cleared with ⟨approvalId, hash, carried, given, redeemed⟩ | ⟨absent, score, scored, band⟩
  · exact Or.inl ⟨approvalId, hash, carried, given, List.mem_append_left _ redeemed⟩
  · exact Or.inr ⟨absent, score, scored.more later, band⟩

theorem Settled.more (settled : attempt.Settled past) (later : List (Event Reply))
    : attempt.Settled (past ++ later) := by
  obtain ⟨grant, attrs, stepUpVerified, scorable, cleared⟩ := settled
  exact ⟨grant, attrs, stepUpVerified, scorable.more later, cleared.more later⟩

theorem Validated.more (validated : attempt.Validated past) (later : List (Event Reply))
    : attempt.Validated (past ++ later) := by
  obtain ⟨schema, fetched, within, found⟩ := validated
  exact ⟨schema, fetched, within.trans (List.prefix_append _ _).isInfix, found⟩

/-- By cases on the event type of the row. -/
theorem InStage.more {entry : AuditEntry} (inStage : attempt.InStage past entry)
    (later : List (Event Reply))
    : attempt.InStage (past ++ later) entry := by
  unfold InStage at inStage ⊢
  cases kind : entry.eventType <;> rw [kind] at inStage
  case denyReplay => trivial
  case denyRbac => exact Fresh.more inStage later
  case policyError =>
    obtain ⟨grant, attrs, condition, ⟨fresh, granted⟩, member, named, refers⟩ := inStage
    refine ⟨grant, attrs, condition, ⟨fresh.more later, granted.more later⟩, member, named, ?_⟩
    intro risk
    obtain ⟨stepUpVerified, score, scorable, rated⟩ := refers risk
    exact ⟨stepUpVerified, score, scorable.more later, rated.more later⟩
  case denyAbac =>
    obtain ⟨grant, attrs, ⟨fresh, granted⟩, scores⟩ := inStage
    refine ⟨grant, attrs, ⟨fresh.more later, granted.more later⟩, fun score carried => ?_⟩
    obtain ⟨stepUpVerified, scorable, rated⟩ := scores score carried
    exact ⟨stepUpVerified, scorable.more later, rated.more later⟩
  case denyDrift =>
    obtain ⟨grant, attrs, entered⟩ := inStage
    exact ⟨grant, attrs, entered.more later⟩
  case denyStepUp =>
    obtain ⟨⟨grant, attrs, entered⟩, unblocked⟩ := inStage
    exact ⟨⟨grant, attrs, entered.more later⟩, List.mem_append_left _ unblocked⟩
  case denyRisk | challenge | humanApprovalRequired =>
    obtain ⟨score, carried, banded⟩ := inStage
    exact ⟨score, carried, banded.more later⟩
  case allow => exact ⟨Settled.more inStage.1 later, Validated.more inStage.2 later⟩
  case driftLow | driftMedium | driftHigh | driftCritical | baselineFlagged | denyValidation =>
    exact Settled.more inStage later
  all_goals exact inStage.elim

theorem Recordable.more {entry : AuditEntry} (recordable : attempt.Recordable past entry)
    (later : List (Event Reply))
    : attempt.Recordable (past ++ later) entry := by
  unfold Recordable at recordable ⊢
  split
  · next lifecycle =>
      rw [if_pos lifecycle] at recordable
      obtain ⟨grant, attrs, stepUpVerified, scorable⟩ := recordable
      exact ⟨grant, attrs, stepUpVerified, scorable.more later⟩
  · next other =>
      rw [if_neg other] at recordable
      exact recordable.more later

end

-----------------------------------------------------------------------------------------
-- What each stage asks, and what has happened when it passes
-----------------------------------------------------------------------------------------

section

variable {attempt : Attempt} {past events : List (Event Reply)} {grant : ServerGrant}
  {attrs : Abac.Attributes} {stepUpVerified : Bool}

/-- A question that is in order at any time. -/
def Free (attempt : Attempt) (asked : Call) : Prop :=
  ∀ past, attempt.InOrder past asked

/-- A stage whose questions are all free is in order at any time. -/
theorem asksAfter_of_free {ε α : Type} {stage : Coroutine Call Reply ε α}
    (asks : stage.run.Asks attempt.Free)
    : stage.run.AsksAfter attempt.InOrder past :=
  asks.throughout (fun _ _ free => free _)

theorem asks_engine : (currentEngine : Stage PolicyEngine).run.Asks attempt.Free :=
  asks_ask (fun _ => trivial)

/-- A denial asks for nothing before its row. -/
theorem asksAfter_deny {eventType : EventType} {reason : String} {matchedRules : List String}
    {riskScore : Option Int} {riskFactors : Option (List RiskFactor)}
    (recordable : attempt.Recordable past (denyEntry attempt.call.key eventType reason matchedRules
      riskScore riskFactors attempt.call.arguments))
    : (deny attempt.call eventType reason matchedRules riskScore riskFactors).run.AsksAfter
        attempt.InOrder past := by
  refine asksAfter_ask_bind trivial (fun _ => ?_)
  refine asksAfter_attempt_bind ⟨trivial, fun _ => trivial⟩ (fun counting counted _ => ?_)
  refine asksAfter_ask_bind trivial (fun engine => ?_)
  refine asksAfter_attempt_bind ⟨?_, fun _ => trivial⟩ (fun _ _ _ => asksAfter_of_free (asks_pure _))
  exact ((recordable.more _).more _).more _

theorem asksAfter_finish_deny {α : Type} {eventType : EventType} {reason : String}
    {matchedRules : List String} {riskScore : Option Int} {riskFactors : Option (List RiskFactor)}
    (recordable : attempt.Recordable past (denyEntry attempt.call.key eventType reason matchedRules
      riskScore riskFactors attempt.call.arguments))
    : (finish (deny attempt.call eventType reason matchedRules riskScore riskFactors)
        : Stage α).run.AsksAfter attempt.InOrder past :=
  asksAfter_bind (asksAfter_deny recordable) (fun _ _ _ => trivial)

/-- A row with other rules is not one that the store of approvals words. -/
theorem not_ofLifecycle {entry : AuditEntry} {matchedRules : List String}
    (carried : entry.payloadExtra.lookup "matched_rules" = some (.strings matchedRules))
    (other : matchedRules ≠ ["approval_lifecycle"])
    : ¬ OfLifecycle entry := by
  intro lifecycle
  have same : some (Json.strings matchedRules) = some (.strings ["approval_lifecycle"]) :=
    carried.symm.trans lifecycle
  have texts := Json.arr.inj (Option.some.inj same)
  exact other (List.map_injective_iff.mpr (fun _ _ => Json.str.inj) texts)

/-- The rules of a policy are not those of the approval lifecycle: they start with another letter. -/
theorem policyRule_ne (rule : String) : ["policy-v" ++ rule] ≠ ["approval_lifecycle"] := by
  intro same
  have letters := congrArg String.toList (List.cons.inj same).1
  rw [String.toList_append] at letters
  cases letters

theorem Recordable.of_inStage {entry : AuditEntry} (other : ¬ OfLifecycle entry)
    (inStage : attempt.InStage past entry)
    : attempt.Recordable past entry := by
  unfold Recordable
  rw [if_neg other]
  exact inStage

/-- The rows of a condition that is enforced may be recorded. -/
structure Enforceable (attempt : Attempt) (past : List (Event Reply)) (riskScore : Option Int)
    (riskFactors : Option (List RiskFactor)) (conditions : List Abac.Condition)
    : Prop where
  problem : ∀ condition ∈ conditions, ∀ problem,
    attempt.Recordable past (policyErrorEntry attempt.call.key condition.source problem)
  denial : ∀ reason rule,
    attempt.Recordable past (denyEntry attempt.call.key .denyAbac reason ["policy-v" ++ rule]
      riskScore riskFactors attempt.call.arguments)

/-- The conditions are enforced in order, by induction on them. -/
theorem asksAfter_enforceConditions {riskScore : Option Int}
    {riskFactors : Option (List RiskFactor)} {conditions : List Abac.Condition}
    (enforceable : attempt.Enforceable past riskScore riskFactors conditions)
    : (enforceConditions attempt.call attrs riskScore riskFactors conditions).run.AsksAfter
        attempt.InOrder past := by
  induction conditions generalizing past with
  | nil => trivial
  | cons condition rest ih =>
      have problems : (recordProblem attempt.call condition
          (conditionVerdict condition attrs).2).run.AsksAfter attempt.InOrder past := by
        cases (conditionVerdict condition attrs).2 with
        | none => trivial
        | some problem =>
            refine asksAfter_attempt_bind ⟨?_, fun _ => trivial⟩ (fun _ _ _ => trivial)
            exact enforceable.problem condition List.mem_cons_self problem
      refine asksAfter_bind problems (fun events _ _ => ?_)
      split
      · refine ih ⟨fun other member problem => ?_, fun reason rule => ?_⟩
        · exact (enforceable.problem other (List.mem_cons_of_mem _ member) problem).more _
        · exact (enforceable.denial reason rule).more _
      · refine asksAfter_ask_bind trivial (fun engine => asksAfter_finish_deny ?_)
        have denied := fun reason =>
          enforceable.denial reason (toString engine.version ++ ":abac:" ++ condition.source)
        simp only [← String.append_assoc] at denied
        exact ((denied _).more _).more _

/-- Conditions that are enforced hold, by induction on them. -/
theorem held_of_enforceConditions {call : ToolCall} {riskScore : Option Int}
    {riskFactors : Option (List RiskFactor)} {conditions : List Abac.Condition}
    (exec : (enforceConditions call attrs riskScore riskFactors conditions).run.Exec events (.ok ()))
    : ∀ condition ∈ conditions, (conditionVerdict condition attrs).1 = true := by
  induction conditions generalizing events with
  | nil => simp
  | cons condition rest ih =>
      obtain ⟨_, _, _, rfl, _, exec⟩ := exec_bind_ok_iff.mp exec
      split at exec
      · next satisfied => exact List.forall_mem_cons.mpr ⟨satisfied, ih exec⟩
      · obtain ⟨_, _, _, _, _, exec⟩ := exec_bind_ok_iff.mp exec
        exact absurd exec not_exec_finish

/-- The guard asks for the time and for its nonce. -/
theorem asks_check {settings : Settings} {isUuid : String → Bool} {nonce timestamp : Json}
    : (ReplayGuard.check settings isUuid nonce timestamp).run.Asks attempt.Free := by
  unfold ReplayGuard.check
  split
  · split
    · exact asks_pure _
    · split
      · exact asks_pure _
      · refine asks_bind (asks_ask (fun _ => trivial)) (fun now => ?_)
        refine asks_bind (asks_ofExcept _) (fun outside => ?_)
        split
        · exact asks_pure _
        · refine asks_bind (asks_demand _ (fun _ => trivial)) (fun fresh => ?_)
          split <;> exact asks_pure _
  · exact asks_pure _

theorem asksAfter_replayStage (signedMode : Bool)
    : (replayStage attempt.runtime attempt.call signedMode attempt.metadata).run.AsksAfter
        attempt.InOrder past := by
  refine asksAfter_bind (asksAfter_of_free (asks_mapStop ?_)) (fun events volunteered _ => ?_)
  · split
    · exact asks_pure _
    · refine asks_bind (asks_ofExcept _) (fun found => ?_)
      split
      · exact asks_pure _
      · exact asks_ofExcept _
  · split
    · refine asksAfter_attempt_bind ?_ (fun _ checked _ => ?_)
      · refine asksAfter_of_free ?_
        refine asks_bind (asks_ofExcept _) (fun nonce => ?_)
        exact asks_bind (asks_ofExcept _) (fun timestamp => asks_check)
      · dsimp only
        split
        · trivial
        · exact asksAfter_finish_deny (.of_inStage (not_ofLifecycle rfl (by simp)) trivial)
    · trivial

/-- A replay stage that passes has taken the nonce of a guarded call. -/
theorem fresh_of_replayStage {engine : PolicyEngine} (read : ⟨.engine, engine⟩ ∈ past)
    (exec : (replayStage attempt.runtime attempt.call
      ((engine.identity attempt.session.identityId).any (fun record => record.authMode = .signed))
      attempt.metadata).run.Exec events (.ok ()))
    : attempt.Fresh (past ++ events) := by
  refine ⟨engine, List.mem_append_left _ read, fun guarded => ?_⟩
  obtain ⟨asking, checking, volunteered, rfl, asked, exec⟩ := exec_bind_ok_iff.mp exec
  have volunteers : volunteered = true := by
    have asked := exec_uncaught_ok_iff.mp asked
    split at asked
    · exact (Except.ok.inj (Program.exec_done_iff.mp asked).2).symm
    · next unsigned =>
        obtain ⟨named, found, asked⟩ := exec_ofExcept_bind_ok_iff.mp asked
        rcases guarded with signed | nonce | timestamp
        · exact absurd signed unsigned
        · rw [nonce] at found
          cases found
          exact (Except.ok.inj (Program.exec_done_iff.mp asked).2).symm
        · cases named with
          | true => exact (Except.ok.inj (Program.exec_done_iff.mp asked).2).symm
          | false =>
              rw [timestamp] at asked
              exact (Except.ok.inj (Program.exec_done_iff.mp asked).2).symm
  subst volunteers
  obtain ⟨checked, _, result, rfl, attempted, exec⟩ := exec_bind_ok_iff.mp exec
  have inner := exec_attempt_iff.mp attempted
  rcases result with exn | _ | reason
  · exact absurd exec not_exec_finish
  · obtain ⟨nonce, carried, inner⟩ := exec_ofExcept_bind_ok_iff.mp inner
    obtain ⟨timestamp, _, inner⟩ := exec_ofExcept_bind_ok_iff.mp inner
    obtain ⟨text, now, rfl, rfl, _⟩ := ReplayGuard.exec_check_accepted inner
    exact ⟨text, 2 * attempt.runtime.settings.replayWindowSeconds, carried, by simp⟩
  · exact absurd exec not_exec_finish

theorem asksAfter_rbacStage (fresh : attempt.Fresh past)
    : (rbacStage attempt.call).run.AsksAfter attempt.InOrder past := by
  refine asksAfter_ask_bind trivial (fun engine => ?_)
  split
  · trivial
  · refine asksAfter_ask_bind trivial (fun versioned => asksAfter_finish_deny (.of_inStage ?_ ?_))
    · exact not_ofLifecycle rfl (by rw [String.append_assoc]; exact policyRule_ne _)
    · exact (fresh.more _).more _

theorem asks_conditionAttributes (conditions : List Abac.Condition)
    : (conditionAttributes attempt.session attempt.call.key.toolName attempt.metadata
        conditions).run.Asks attempt.Free := by
  unfold conditionAttributes
  split
  · exact asks_pure _
  · refine asks_mapStop (asks_bind asks_engine (fun engine => ?_))
    refine asks_bind (asks_ofExcept _) (fun timestamp => asks_bind ?_ (fun hour => asks_pure _))
    unfold contextHour
    split
    · exact asks_ofExcept _
    · exact asks_ask (fun _ => trivial)

theorem asksAfter_driftStage (entered : attempt.Entered past grant attrs)
    : (driftStage attempt.call).run.AsksAfter attempt.InOrder past := by
  refine asksAfter_attempt_bind ?_ (fun looked blocked exec => ?_)
  · exact ⟨⟨grant, attrs, entered⟩, fun _ => trivial⟩
  · split
    · trivial
    · refine asksAfter_finish_deny (.of_inStage (not_ofLifecycle rfl (by simp)) ?_)
      exact ⟨grant, attrs, entered.more _⟩

/-- A drift stage that passes has found that the tool is not blocked. -/
theorem unblocked_of_driftStage
    (exec : (driftStage attempt.call).run.Exec events (.ok ()))
    : attempt.Unblocked (past ++ events) := by
  obtain ⟨reply, rest, rfl, deciding⟩ := exec_guarded_demand_bind exec
  rcases reply with exn | _ | _
  · exact absurd deciding not_exec_finish
  · simp [Unblocked]
  · exact absurd deciding not_exec_finish

theorem asksAfter_challengeStage (secret : String) (challengeId : Json)
    (entered : attempt.Entered past grant attrs) (unblocked : attempt.Unblocked past)
    : (challengeStage attempt.call secret attempt.metadata challengeId).run.AsksAfter
        attempt.InOrder past := by
  unfold challengeStage
  split
  · exact asksAfter_of_free (asks_pure _)
  · refine asksAfter_attempt_bind ?_ (fun spent redeemed exec => ?_)
    · refine asksAfter_ofExcept_bind (fun hash _ => asksAfter_ofExcept_bind (fun proof _ => ?_))
      exact ⟨⟨⟨grant, attrs, entered⟩, unblocked⟩, fun _ => trivial⟩
    · dsimp only
      split
      · trivial
      · refine asksAfter_finish_deny (.of_inStage (not_ofLifecycle rfl (by simp)) ?_)
        exact ⟨⟨grant, attrs, entered.more _⟩, List.mem_append_left _ unblocked⟩

/-- A challenge stage that passes has redeemed the challenge that the call names. -/
theorem steppedUp_of_challengeStage {secret : String} {challengeId : Json}
    (carried : attempt.metadata.get challengeIdMetaKey = .ok challengeId)
    (exec : (challengeStage attempt.call secret attempt.metadata challengeId).run.Exec events
      (.ok stepUpVerified))
    : attempt.SteppedUp (past ++ events) stepUpVerified := by
  refine ⟨challengeId, carried, ?_, ?_⟩
  · unfold challengeStage at exec
    split at exec
    · next absent =>
        cases (Except.ok.inj (Program.exec_done_iff.mp exec).2)
        simp [absent]
    · next given =>
        obtain ⟨_, _, redeemed, rfl, _, exec⟩ := exec_attempt_bind_iff.mp exec
        dsimp only at exec
        split at exec
        · cases (Except.ok.inj (Program.exec_done_iff.mp exec).2)
          simp [given]
        · exact absurd exec not_exec_finish
  · rintro rfl
    obtain ⟨hash, proof, _, _, rfl⟩ := exec_challengeStage_true exec
    exact ⟨hash, proof, secret, by simp⟩

theorem asksAfter_approvalStage (approvalId : Json)
    (scorable : attempt.Scorable past grant attrs stepUpVerified)
    : (approvalStage attempt.call approvalId).run.AsksAfter attempt.InOrder past := by
  refine asksAfter_attempt_bind ?_ (fun spent redeemed exec => ?_)
  · refine asksAfter_ofExcept_bind (fun hash _ => ?_)
    exact ⟨⟨grant, attrs, stepUpVerified, scorable⟩, fun _ => trivial⟩
  · dsimp only
    split
    · trivial
    · refine asksAfter_finish_deny ?_
      exact Eq.mpr (if_pos rfl) ⟨grant, attrs, stepUpVerified, scorable.more _⟩

/-- The row of a call that is held, in its band. -/
theorem recordable_held {decision : Decision} {score : Int} {factors : List RiskFactor}
    (kind : decision.eventType
      = if decision.decision = .humanApprovalRequired then .humanApprovalRequired else .challenge)
    (held : decision.decision = .humanApprovalRequired ∨ decision.decision = .challenge)
    (banded : attempt.Banded past decision.decision score)
    : attempt.Recordable past (riskTerminalEntry attempt.call.key decision.eventType decision.reason
        attempt.call.arguments score factors) := by
  refine .of_inStage (not_ofLifecycle rfl (by simp)) ?_
  · rcases held with human | challenge
    · rw [kind, if_pos human]
      exact ⟨score, rfl, human ▸ banded⟩
    · rw [kind, if_neg (by simp [challenge])]
      exact ⟨score, rfl, challenge ▸ banded⟩

/-- A held call was recorded when its approval or its challenge is created. -/
theorem asksAfter_hold {stepUpCapable : Bool} {decision : Decision} {score : Int}
    {factors : List RiskFactor}
    (kind : decision.eventType
      = if decision.decision = .humanApprovalRequired then .humanApprovalRequired else .challenge)
    (held : decision.decision = .humanApprovalRequired ∨ decision.decision = .challenge)
    (banded : attempt.Banded past decision.decision score)
    : (hold attempt.call stepUpCapable decision score factors).run.AsksAfter attempt.InOrder
        past := by
  refine asksAfter_demand_bind (recordable_held kind held banded) (fun reply seq same => ?_)
  cases (same : reply = .ok seq)
  have holds (event : EventType) (same : decision.eventType = event)
      : attempt.Held (past ++ [⟨.write (riskTerminalEntry attempt.call.key decision.eventType
          decision.reason attempt.call.arguments score factors), .ok seq⟩]) decision.decision event
          seq := by
    refine ⟨⟨score, banded.more _⟩, ?_⟩
    exact ⟨_, List.mem_append_right _ List.mem_cons_self, same⟩
  dsimp only
  split
  · next human =>
      rw [if_pos human] at kind
      have held := holds _ kind
      rw [human] at held
      exact asksAfter_ofExcept_bind (fun hash _ =>
        asksAfter_demand_bind held (fun _ _ _ => trivial))
  · next notHuman =>
      rw [if_neg notHuman] at kind
      have created := holds _ kind
      rw [held.resolve_left notHuman] at created
      split
      · exact asksAfter_ofExcept_bind (fun hash _ =>
          asksAfter_demand_bind created (fun _ _ _ => trivial))
      · trivial

theorem asksAfter_riskTerminal {outcome : DecisionOutcome} {score : Int}
    {factors : List RiskFactor} (banded : attempt.Banded past outcome score)
    : (riskTerminal attempt.call outcome score factors).run.AsksAfter attempt.InOrder past := by
  unfold riskTerminal
  dsimp only
  split
  · next deny =>
      refine asksAfter_deny (.of_inStage (not_ofLifecycle rfl (by simp)) ?_)
      exact ⟨score, rfl, deny ▸ banded⟩
  · next notDeny =>
      have held : outcome = .humanApprovalRequired ∨ outcome = .challenge := by
        obtain ⟨_, _, _, _, _, band⟩ := banded
        cases outcome with
        | allow => exact absurd band bandTerminal_ne_allow
        | deny => exact absurd rfl notDeny
        | challenge => exact Or.inr rfl
        | humanApprovalRequired => exact Or.inl rfl
      refine asksAfter_ask_bind trivial (fun _ => ?_)
      refine asksAfter_ask_bind trivial (fun engine => ?_)
      refine asksAfter_ask_bind trivial (fun versioned => ?_)
      refine asksAfter_attempt_bind ?_ (fun exchanges held exec => ?_)
      · refine asksAfter_hold ?_ held (((banded.more _).more _).more _)
        dsimp only
        split <;> rfl
      · cases held <;> exact asksAfter_of_free (asks_pure _)

theorem asksAfter_scoringStage (scorable : attempt.Scorable past grant attrs stepUpVerified)
    : (scoringStage attempt.call grant.conditions attrs stepUpVerified).run.AsksAfter
        attempt.InOrder past := by
  refine asksAfter_ask_bind trivial (fun engine => ?_)
  refine asksAfter_attempt_bind ?_ (fun asked reply exec => ?_)
  · exact ⟨⟨grant, attrs, stepUpVerified, scorable.more _⟩, fun _ => trivial⟩
  obtain ⟨answer, rfl, rfl⟩ := exec_demand_iff.mp exec
  have scorable := (scorable.more [⟨.engine, engine⟩]).more
    [⟨.score attempt.call.key attempt.call.arguments engine.policy.risk, answer⟩]
  have rated : attempt.Rated (past ++ [⟨.engine, engine⟩]
      ++ [⟨.score attempt.call.key attempt.call.arguments engine.policy.risk, answer⟩])
      (scoreOrMaximum answer).1 :=
    ⟨engine.policy.risk, answer, by simp, rfl⟩
  generalize past ++ [(⟨.engine, engine⟩ : Event Reply)] ++ [_] = past at *
  refine asksAfter_bind (asksAfter_enforceConditions ⟨?_, ?_⟩) (fun enforced _ held => ?_)
  · intro condition member problem
    obtain ⟨among, refers⟩ := List.mem_filter.mp member
    refine .of_inStage (fun lifecycle => by cases lifecycle) ?_
    exact ⟨grant, attrs, condition, ⟨scorable.1.1, scorable.1.2.1⟩, among, rfl,
      fun _ => ⟨stepUpVerified, _, scorable, rated⟩⟩
  · intro reason rule
    refine .of_inStage (not_ofLifecycle rfl (policyRule_ne _)) ?_
    refine ⟨grant, attrs, ⟨scorable.1.1, scorable.1.2.1⟩, fun score carried => ?_⟩
    exact ⟨stepUpVerified, scorable, Option.some.inj carried ▸ rated⟩
  split
  · exact asksAfter_of_free (asks_pure _)
  · next outcome band =>
      have scored : attempt.Scored past grant attrs (scoreOrMaximum answer).1 := by
        refine ⟨rated, fun condition member refers => ?_⟩
        exact held_of_enforceConditions held condition (List.mem_filter.mpr ⟨member, refers⟩)
      exact asksAfter_bind
        (asksAfter_riskTerminal ⟨grant, attrs, stepUpVerified, scorable.more _, scored.more _, band⟩)
        (fun _ _ _ => trivial)

/-- What a scoring stage that passes has found. -/
theorem scored_of_scoringStage {risk : Int × List RiskFactor}
    (exec : (scoringStage attempt.call grant.conditions attrs stepUpVerified).run.Exec events
      (.ok risk))
    : ∃ score,
        attempt.Scored (past ++ events) grant attrs score
        ∧ bandTerminal score stepUpVerified = none := by
  obtain ⟨engine, _, rfl, scoring⟩ := exec_ask_bind_iff.mp exec
  obtain ⟨reply, _, rfl, deciding⟩ := exec_guarded_demand_bind scoring
  obtain ⟨enforced, rest, _, rfl, held, deciding⟩ := exec_bind_ok_iff.mp deciding
  split at deciding
  · next continues =>
      refine ⟨_, ⟨⟨engine.policy.risk, reply, by simp, rfl⟩, ?_⟩, continues⟩
      intro condition member refers
      exact held_of_enforceConditions held condition (List.mem_filter.mpr ⟨member, refers⟩)
  · exact absurd deciding not_exec_finish

theorem asksAfter_riskStage (approvalId : Json)
    (scorable : attempt.Scorable past grant attrs stepUpVerified)
    : (riskStage attempt.call grant.conditions attrs stepUpVerified approvalId).run.AsksAfter
        attempt.InOrder past := by
  unfold riskStage
  split
  · exact asksAfter_bind (asksAfter_approvalStage approvalId scorable) (fun _ _ _ => trivial)
  · exact asksAfter_bind (asksAfter_scoringStage scorable) (fun _ _ _ => trivial)

/-- A risk stage that passes has redeemed the approval that the call names, or its score lets the call
through.
-/
theorem cleared_of_riskStage {approvalId : Json} {risk : Option (Int × List RiskFactor)}
    (carried : attempt.metadata.get approvalMetaKey = .ok approvalId)
    (exec : (riskStage attempt.call grant.conditions attrs stepUpVerified approvalId).run.Exec events
      (.ok risk))
    : attempt.Cleared (past ++ events) grant attrs stepUpVerified := by
  unfold riskStage at exec
  split at exec
  · next given =>
      obtain ⟨redeemed, _, _, rfl, passed, ended⟩ := exec_bind_ok_iff.mp exec
      obtain ⟨asking, _, result, rfl, attempted, deciding⟩ := exec_bind_ok_iff.mp passed
      obtain ⟨rfl, _⟩ := Program.exec_done_iff.mp ended
      have inner := exec_attempt_iff.mp attempted
      rcases result with exn | _ | denial
      · exact absurd deciding not_exec_finish
      · obtain ⟨hash, _, redeeming⟩ := exec_ofExcept_bind_ok_iff.mp inner
        obtain ⟨reply, rfl, answered⟩ := exec_demand_iff.mp redeeming
        cases (answered : reply = .ok none)
        exact Or.inl ⟨approvalId, hash, carried, given, by simp⟩
      · exact absurd deciding not_exec_finish
  · next absent =>
      obtain ⟨scoring, _, _, rfl, passed, ended⟩ := exec_bind_ok_iff.mp exec
      obtain ⟨rfl, _⟩ := Program.exec_done_iff.mp ended
      rw [List.append_nil]
      exact Or.inr ⟨by simpa using (not_not.mp absent) ▸ carried, scored_of_scoringStage passed⟩

/-- The questions of a schema lookup, which all come after the risk stage. -/
def OfLookup : Call → Prop
  | .cacheGet _ | .cacheSet _ _ | .listTools | .selectBaselines _ | .commit _ => True
  | .write entry => entry.eventType ∈ EventType.ofDrift
  | _ => False

theorem fetches_ofLookup {serverId : String} : Fetches OfLookup serverId where
  cacheGet := trivial
  cacheSet _ := trivial
  listTools := trivial
  detector asked drift := by
    cases asked <;> first | exact drift | trivial

theorem OfLookup.inOrder {asked : Call} (lookup : OfLookup asked) (settled : attempt.Settled past)
    : attempt.InOrder past asked := by
  cases asked with
  | write entry =>
      change entry.eventType ∈ EventType.ofDrift at lookup
      change attempt.Recordable past entry
      unfold Recordable InStage
      split
      · obtain ⟨grant, attrs, stepUpVerified, scorable, _⟩ := settled
        exact ⟨grant, attrs, stepUpVerified, scorable⟩
      · simp only [EventType.ofDrift, List.mem_cons, List.not_mem_nil, or_false] at lookup
        rcases lookup with kind | kind | kind | kind | kind <;> rw [kind] <;> exact settled
  | cacheGet | cacheSet | listTools | selectBaselines | commit => exact settled
  | _ => cases lookup

theorem asksAfter_validationStage (settled : attempt.Settled past)
    : (validationStage attempt.runtime attempt.session attempt.call).run.AsksAfter attempt.InOrder
        past := by
  have denied {past : List (Event Reply)} (settled : attempt.Settled past) (reason : String)
      : (finish (denyValidation attempt.call reason) : Stage Unit).run.AsksAfter attempt.InOrder
          past :=
    asksAfter_finish_deny (.of_inStage (not_ofLifecycle rfl (by simp)) settled)
  refine asksAfter_bind ?_ (fun fetched schema _ => ?_)
  · refine (asks_mapStop (asks_inputSchemaFor _ _ _ fetches_ofLookup)).throughout ?_
    exact fun later asked lookup => lookup.inOrder (settled.more later)
  · split
    · exact denied (settled.more _) _
    · refine asksAfter_bind (asksAfter_of_free (asks_mapStop (asks_ofExcept _)))
        (fun _ error _ => ?_)
      cases error with
      | none => trivial
      | some error => exact denied ((settled.more _).more _) _

theorem asksAfter_allowStage {risk : Option (Int × List RiskFactor)}
    {approvalId challengeId : Option String} (settled : attempt.Settled past)
    (validated : attempt.Validated past)
    : (allowStage attempt.call risk approvalId challengeId).run.AsksAfter attempt.InOrder past := by
  refine asksAfter_ask_bind trivial (fun engine => ?_)
  refine asksAfter_attempt_bind ⟨.of_inStage ?_ ?_, fun _ => trivial⟩
    (fun recording recorded exec => ?_)
  · exact not_ofLifecycle rfl (by rw [String.append_assoc]; exact policyRule_ne _)
  · exact ⟨settled.more _, validated.more _⟩
  · cases recorded with
    | ok seq => trivial
    | error exn =>
        refine asksAfter_of_free (asks_finish (asks_bind ?_ (fun _ => asks_pure _)))
        exact asks_ask (fun _ => trivial)

/-- What is left after the first three stages. -/
theorem asksAfter_rest {secret : String} {requestId : RequestId} {params : Option Params}
    (entered : attempt.Entered past grant attrs)
    : (do
        driftStage attempt.call
        let challengeId ←
          uncaught (Coroutine.ofExcept (attempt.metadata.get challengeIdMetaKey))
        let stepUpVerified ← challengeStage attempt.call secret attempt.metadata challengeId
        let approvalId ← uncaught (Coroutine.ofExcept (attempt.metadata.get approvalMetaKey))
        let risk ← riskStage attempt.call grant.conditions attrs stepUpVerified approvalId
        validationStage attempt.runtime attempt.session attempt.call
        allowStage attempt.call risk
          (if approvalId ≠ .null then some approvalId.pyStr else none)
          (if stepUpVerified then some challengeId.pyStr else none)
        return .request requestId "tools/call" (params.map stripGatewayMeta)
        : Stage ClientMessage).run.AsksAfter attempt.InOrder past := by
  refine asksAfter_bind (asksAfter_driftStage entered) (fun looked _ free => ?_)
  have unblocked : attempt.Unblocked (past ++ looked) := unblocked_of_driftStage free
  have entered := entered.more looked
  generalize past ++ looked = past at *
  refine asksAfter_bind (asksAfter_of_free (asks_mapStop (asks_ofExcept _)))
    (fun nothing challengeId reading => ?_)
  obtain ⟨rfl, carried⟩ := Program.exec_done_iff.mp (exec_uncaught_ok_iff.mp reading)
  rw [List.append_nil]
  refine asksAfter_bind (asksAfter_challengeStage _ challengeId entered unblocked)
    (fun redeemed stepUpVerified verifies => ?_)
  have scorable : attempt.Scorable (past ++ redeemed) grant attrs stepUpVerified :=
    ⟨entered.more _, List.mem_append_left _ unblocked,
      steppedUp_of_challengeStage carried verifies⟩
  generalize past ++ redeemed = past at *
  refine asksAfter_bind (asksAfter_of_free (asks_mapStop (asks_ofExcept _)))
    (fun nothing approvalId reading => ?_)
  obtain ⟨rfl, given⟩ := Program.exec_done_iff.mp (exec_uncaught_ok_iff.mp reading)
  rw [List.append_nil]
  refine asksAfter_bind (asksAfter_riskStage approvalId scorable) (fun scored risk clears => ?_)
  have cleared : attempt.Cleared (past ++ scored) grant attrs stepUpVerified :=
    cleared_of_riskStage given clears
  have settled : attempt.Settled (past ++ scored) :=
    ⟨grant, attrs, stepUpVerified, scorable.more scored, cleared⟩
  generalize past ++ scored = past at *
  refine asksAfter_bind (asksAfter_validationStage settled) (fun validated _ valid => ?_)
  obtain ⟨schema, found, present, accepted⟩ := exec_validationStage_ok valid
  refine asksAfter_bind (asksAfter_allowStage (settled.more _) ?_) (fun _ _ _ => trivial)
  exact ⟨schema, validated, (List.suffix_append _ _).isInfix, found, present, accepted⟩

/-- The whole pipeline asks its questions in order. -/
theorem asksAfter_authorizeCall (runtime : Runtime) (session : Session) (requestId : RequestId)
    (params : Option Params) (past : List (Event Reply))
    : (authorizeCall runtime session requestId params).run.AsksAfter
        (ofRequest runtime session requestId params).InOrder past := by
  refine asksAfter_ask_bind trivial (fun engine => ?_)
  have read : ⟨.engine, engine⟩ ∈ past ++ [(⟨.engine, engine⟩ : Event Reply)] := by simp
  generalize past ++ [_] = past at *
  refine asksAfter_bind (asksAfter_replayStage _) (fun replay _ passed => ?_)
  have fresh : (ofRequest runtime session requestId params).Fresh (past ++ replay) :=
    fresh_of_replayStage read passed
  generalize past ++ replay = past at *
  refine asksAfter_bind (asksAfter_rbacStage fresh) (fun rbac grant decided => ?_)
  obtain ⟨policy, rfl, matched⟩ := exec_rbacStage_ok decided
  refine asksAfter_bind (asksAfter_of_free (asks_conditionAttributes _)) (fun bound attrs binds => ?_)
  have granted : (ofRequest runtime session requestId params).Granted
      (past ++ [⟨.engine, policy⟩] ++ bound) grant attrs :=
    ⟨⟨policy, by simp, matched⟩, bound, (List.suffix_append _ _).isInfix, binds⟩
  have fresh := (fresh.more [⟨.engine, policy⟩]).more bound
  generalize past ++ [(⟨.engine, policy⟩ : Event Reply)] ++ bound = past at *
  refine asksAfter_bind (asksAfter_enforceConditions ⟨?_, ?_⟩) (fun held _ holds => ?_)
  · intro condition member problem
    obtain ⟨among, apart⟩ := List.mem_filter.mp member
    refine .of_inStage (fun lifecycle => by cases lifecycle) ?_
    refine ⟨grant, attrs, condition, ⟨fresh, granted⟩, among, rfl, fun refers => ?_⟩
    simp [refers] at apart
  · intro reason rule
    refine .of_inStage (not_ofLifecycle rfl (policyRule_ne _)) ?_
    exact ⟨grant, attrs, ⟨fresh, granted⟩, fun score carried => by cases carried⟩
  refine asksAfter_rest ⟨fresh.more _, granted.more _, fun condition member apart => ?_⟩
  exact held_of_enforceConditions holds condition (List.mem_filter.mpr ⟨member, by simp [apart]⟩)

end

end Attempt

/-- A tool call asks its questions in order. -/
theorem asks_inOrder (runtime : Runtime) (session : Session) (requestId : RequestId)
    (params : Option Params)
    : (onClientMessage runtime session (.request requestId "tools/call" params)).run.AsksAfter
        (Attempt.ofRequest runtime session requestId params).InOrder [] := by
  refine asksAfter_ask_bind trivial (fun _ => ?_)
  refine asksAfter_attempt_bind (Attempt.asksAfter_authorizeCall runtime session requestId params _)
    (fun _ ended _ => ?_)
  rcases ended with (response | exn) | message <;> trivial

/-- Whatever the stores answer, and whatever policies are swapped in on the way: before a question of a
tool call, every earlier stage has passed. No nonce, challenge or approval is used up, no schema is
looked up and no row is written for a call that an earlier stage stops.
-/
theorem stages_in_order {runtime : Runtime} {session : Session} {requestId : RequestId}
    {params : Option Params} {before after : List (Event Reply)} {event : Event Reply}
    {outcome : Except Exn Outcome}
    (exec : (onClientMessage runtime session (.request requestId "tools/call" params)).run.Exec
      (before ++ event :: after) outcome)
    : (Attempt.ofRequest runtime session requestId params).InOrder before event.call :=
  exec.asksAfter (asks_inOrder runtime session requestId params)

/-- Witness: the ALLOW row of a call that passes every check comes after all of them. -/
theorem permitted_call_in_order
    : (Attempt.ofRequest DriftDetector.calm mailSession (.int 1)
        (some [("name", .str "send_mail"), ("arguments", .obj [])])).InOrder
        ((permittedHandling (sendCall (.obj []))).events.take 8)
        (.write (allowEntry ⟨"agent", "mail", "send_mail"⟩ 1 (.obj []) (some 0) (some []) none
          none)) := by
  have exec := handles_permitted (sendCall (.obj [])) _ List.mem_cons_self
  have split : (permittedHandling (sendCall (.obj []))).events
      = (permittedHandling (sendCall (.obj []))).events.take 8
        ++ ⟨.write (allowEntry ⟨"agent", "mail", "send_mail"⟩ 1 (.obj []) (some 0) (some []) none
            none), .ok 1⟩
        :: (permittedHandling (sendCall (.obj []))).events.drop 9 :=
    rfl
  rw [split] at exec
  exact stages_in_order exec

end Interceptor

end SecureMcp
