import SecureMcp.Decisions.Components
import SecureMcp.Interceptor.Recorded
import SecureMcp.Policy.Credentials

/-! An explained row is the decision that the client was sent. What a stage answers a call with
is described by the row that it wrote, and the texts of a decision are their own escapes.
-/

namespace SecureMcp

open Interaction

namespace DecisionExplainer

open Coroutine Interceptor

/-- Each component's answer is one of its own, and a policy in force has compiled conditions. -/
def Trusted (env : Environment) (risk : RiskSettings) : Event Reply → Prop
  | ⟨.engine, engine⟩ => engine.CompiledBy env.parse
  | ⟨.score key arguments policy, reply⟩ =>
      ∃ asked, (Risk.score risk env.stdlib key arguments policy false).run.Exec asked reply
  | ⟨.redeemChallenge challengeId key hash proof secret, reply⟩ =>
      ∃ asked, (StepUp.redeem challengeId key hash proof secret).run.Exec asked reply
  | ⟨.redeemApproval approvalId key hash, reply⟩ =>
      ∃ asked, (Approvals.redeem approvalId key hash).run.Exec asked reply
  | _ => True

/-- (Tells sent entry) means that an audit entry describes the decision that was sent. -/
structure Tells (sent : Decision) (entry : AuditEntry) : Prop where
  kind : entry.eventType = sent.eventType
  outcome : outcomes sent.eventType = some sent.decision
  score : entry.riskScore = sent.riskScore
  describes : Describes entry (some sent.matchedRules) (some sent.reason) (sent.riskFactors.getD [])
  worded : Worded sent.reason
  rules : ∀ rule ∈ sent.matchedRules, NulFree rule
  factors : ∀ factor ∈ sent.riskFactors.getD [], factor.Plain

/-- The row that a decision names was written and describes it, under a policy in force. -/
def Accounts (sent : Decision) (events : List (Event Reply)) : Prop :=
  ∀ auditId,
    sent.auditId = some auditId
    → ∃ entry seq, ∃ engine : PolicyEngine,
        ⟨.write entry, .ok seq⟩ ∈ events
        ∧ auditId = toString seq
        ∧ Tells sent entry
        ∧ ⟨.engine, engine⟩ ∈ events
        ∧ sent.policyVersion = engine.version

/-- A stage that answers a call with a decision has accounted for it. -/
def Explains : Stop → List (Event Reply) → Prop
  | .raised _, _ => True
  | .respond response, events => ∀ sent, response.data = some sent → Accounts sent events

theorem Accounts.mono {sent : Decision} {events others : List (Event Reply)}
    (accounts : Accounts sent events) (within : events ⊆ others)
    : Accounts sent others := by
  intro auditId named
  obtain ⟨entry, seq, engine, written, same, tells, read, version⟩ := accounts auditId named
  exact ⟨entry, seq, engine, within written, same, tells, within read, version⟩

theorem explains_later (stop : Stop) (first second : List (Event Reply))
    (explains : Explains stop second)
    : Explains stop (first ++ second) := by
  cases stop with
  | raised exn => trivial
  | respond response =>
      intro sent same
      exact (explains sent same).mono (List.subset_append_right first second)

section

variable {env : Environment} {risk : RiskSettings} {call : ToolCall}

theorem accounts_deny {eventType : EventType} {reason : String} {matchedRules : List String}
    {riskScore : Option Int} {riskFactors : Option (List RiskFactor)}
    (denies : outcomes eventType = some .deny) (worded : Worded reason)
    (rules : ∀ rule ∈ matchedRules, NulFree rule)
    (factors : ∀ factor ∈ riskFactors.getD [], factor.Plain)
    {events : List (Event Reply)} {outcome : Except Stop ErrorResponse}
    (exec : (deny call eventType reason matchedRules riskScore riskFactors).run.Exec events outcome)
    : ∃ response, outcome = .ok response ∧ Explains (.respond response) events := by
  obtain ⟨_, _, rfl, counting⟩ := exec_ask_bind_iff.mp exec
  obtain ⟨counted, _, rfl, reading⟩ := exec_guarded_demand_bind counting
  obtain ⟨engine, _, rfl, writing⟩ := exec_ask_bind_iff.mp reading
  obtain ⟨recorded, _, rfl, ended⟩ := exec_guarded_demand_bind writing
  obtain ⟨rfl, rfl⟩ := Program.exec_done_iff.mp ended
  refine ⟨_, rfl, ?_⟩
  rintro sent same auditId named
  cases same
  cases recorded with
  | error exn => cases named
  | ok seq =>
      cases named
      have last {one two three four : Event Reply} : four ∈ [one, two, three, four] := by simp
      have third {one two three four : Event Reply} : three ∈ [one, two, three, four] := by simp
      refine ⟨_, seq, engine, last, rfl, ?_, third, rfl⟩
      exact {
        kind := rfl
        outcome := denies
        score := rfl
        describes := describes_site
          (.deny call.key eventType reason matchedRules riskScore riskFactors call.arguments)
        worded, rules, factors
      }

/-- A held decision is accounted for by its row. -/
theorem accounts_hold {stepUpCapable : Bool} {decision held : Decision} {riskScore : Int}
    {riskFactors : List RiskFactor} {engine : PolicyEngine} {before exchanges : List (Event Reply)}
    (kind : outcomes decision.eventType = some decision.decision)
    (score : decision.riskScore = some riskScore)
    (scored : decision.riskFactors = some riskFactors)
    (matched : decision.matchedRules = ["risk_engine"]) (worded : Worded decision.reason)
    (plain : ∀ factor ∈ riskFactors, factor.Plain)
    (version : decision.policyVersion = engine.version) (read : ⟨.engine, engine⟩ ∈ before)
    (holds : (hold call stepUpCapable decision riskScore riskFactors).run.Exec exchanges (.ok held))
    : Accounts held (before ++ exchanges) := by
  obtain ⟨seq, approvalId, challengeId, written, rfl⟩ := hold_ok holds
  intro auditId named
  cases named
  refine ⟨_, seq, engine, List.mem_append_right _ written, rfl, ?_, List.mem_append_left _ read,
    version⟩
  have describes := describes_site
    (.riskTerminal call.key decision.eventType decision.reason call.arguments riskScore riskFactors)
  refine ⟨rfl, kind, score.symm, ?_, worded, ?_, ?_⟩
  · simp only [matched, scored]
    exact describes
  · simp [matched, NulFree]
  · rw [scored]
    exact plain

theorem accounts_riskTerminal {kind : DecisionOutcome} {riskScore : Int}
    {riskFactors : List RiskFactor} (continues : kind ≠ .allow)
    (factors : ∀ factor ∈ riskFactors, factor.Plain) {events : List (Event Reply)}
    {outcome : Except Stop ErrorResponse}
    (exec : (riskTerminal call kind riskScore riskFactors).run.Exec events outcome)
    : ∃ response, outcome = .ok response ∧ Explains (.respond response) events := by
  have scored : Worded ("risk score " ++ toString riskScore ++ " for " ++ pyRepr call.key.toolName) := by
    refine .append (.append (.append ?_ (.int riskScore)) (by simp [NulFree])) (.pyRepr _)
    exact ⟨by simp [NulFree], by simp⟩
  unfold riskTerminal at exec
  dsimp only at exec
  split at exec
  · refine accounts_deny rfl ?_ ?_ ?_ exec
    · exact ((scored.append (by simp [NulFree])).append (.int _)).append (by simp [NulFree])
    · simp [NulFree]
    · exact factors
  · next notDeny =>
      obtain ⟨_, _, rfl, reading⟩ := exec_ask_bind_iff.mp exec
      obtain ⟨engine, _, rfl, versioning⟩ := exec_ask_bind_iff.mp reading
      obtain ⟨versioned, _, rfl, holding⟩ := exec_ask_bind_iff.mp versioning
      obtain ⟨exchanges, _, held, rfl, holds, ended⟩ := exec_attempt_bind_iff.mp holding
      have banded : kind = .humanApprovalRequired ∨ kind = .challenge := by
        cases kind with
        | allow => exact absurd rfl continues
        | deny => exact absurd rfl notDeny
        | challenge => exact Or.inr rfl
        | humanApprovalRequired => exact Or.inl rfl
      have read : (⟨.engine, versioned⟩ : Event Reply)
          ∈ [⟨.popPending call.requestId, ()⟩, ⟨.engine, engine⟩, ⟨.engine, versioned⟩] :=
        List.mem_cons_of_mem _ (List.mem_cons_of_mem _ List.mem_cons_self)
      cases held with
      | error exn =>
          obtain ⟨rfl, rfl⟩ := Program.exec_done_iff.mp ended
          refine ⟨_, rfl, ?_⟩
          intro sent same
          cases same
      | ok held =>
          obtain ⟨rfl, rfl⟩ := Program.exec_done_iff.mp ended
          refine ⟨_, rfl, ?_⟩
          intro sent same
          cases same
          rw [List.append_nil]
          rcases banded with rfl | rfl
          · refine accounts_hold rfl rfl rfl rfl ?_ factors rfl read holds
            exact scored.append (by simp [NulFree])
          · refine accounts_hold rfl rfl rfl rfl ?_ factors rfl read holds
            refine (scored.append (by simp [NulFree])).append ?_
            split <;> simp [NulFree]

-----------------------------------------------------------------------------------------
-- The stages
-----------------------------------------------------------------------------------------

/-- (Stated env risk returns stage) means that a stage returns as `returns` says, and accounts for
the decision that it answers with.
-/
def Stated {α : Type} (env : Environment) (risk : RiskSettings) (returns : α → Prop)
    (stage : Stage α)
    : Prop :=
  Meets (Trusted env risk) returns Explains stage

/-- A stage that answers or goes on. -/
abbrev Fair {α : Type} (env : Environment) (risk : RiskSettings) (stage : Stage α) : Prop :=
  Stated env risk (fun _ => True) stage

theorem fair_uncaught {α : Type} (body : Async α) : Fair env risk (uncaught body) :=
  .mapStop .any

theorem stated_bind {α β : Type} {middle : α → Prop} {returns : β → Prop} {stage : Stage α}
    {next : α → Stage β} (first : Stated env risk middle stage)
    (rest : ∀ value, middle value → Stated env risk returns (next value))
    : Stated env risk returns (stage >>= next) :=
  .bind explains_later first rest

theorem stated_engine : Stated env risk (PolicyEngine.CompiledBy env.parse) currentEngine := by
  intro events outcome exec all
  obtain ⟨engine, rest, rfl, ended⟩ := Program.exec_ask_iff.mp exec
  obtain ⟨rfl, rfl⟩ := Program.exec_done_iff.mp ended
  exact all _ List.mem_cons_self

theorem stated_deny {α : Type} {returns : α → Prop} {eventType : EventType} {reason : String}
    {matchedRules : List String} {riskScore : Option Int} {riskFactors : Option (List RiskFactor)}
    (denies : outcomes eventType = some .deny) (worded : Worded reason)
    (rules : ∀ rule ∈ matchedRules, NulFree rule)
    (factors : ∀ factor ∈ riskFactors.getD [], factor.Plain)
    : Stated env risk returns
        (finish (deny call eventType reason matchedRules riskScore riskFactors) : Stage α) :=
  .finish (fun _ _ exec _ => accounts_deny denies worded rules factors exec)

theorem fair_enforceConditions (attrs : Abac.Attributes) {riskScore : Option Int}
    {riskFactors : Option (List RiskFactor)} (factors : ∀ factor ∈ riskFactors.getD [], factor.Plain)
    {conditions : List Abac.Condition} (plain : ∀ condition ∈ conditions, condition.Plain)
    : Fair env risk (enforceConditions call attrs riskScore riskFactors conditions) := by
  induction conditions with
  | nil => exact .pure trivial
  | cons condition rest ih =>
      have here := plain condition List.mem_cons_self
      have recorded : Fair env risk
          (recordProblem call condition (conditionVerdict condition attrs).2) := by
        cases (conditionVerdict condition attrs).2 with
        | none => exact .pure trivial
        | some problem => exact stated_bind (.attempt .any) (fun _ _ => .pure trivial)
      refine stated_bind recorded (fun _ _ => ?_)
      split
      · exact ih (fun other member => plain other (List.mem_cons_of_mem _ member))
      · refine stated_bind stated_engine (fun engine _ => ?_)
        refine stated_deny rfl ?_ ?_ factors
        · refine .append (.append (.append ?_ (.pyRepr _)) (by simp [NulFree])) ?_
          · exact ⟨by simp [NulFree], by simp⟩
          · cases found : (conditionVerdict condition attrs).2 with
            | none => simp [NulFree]
            | some problem =>
                exact .append (.append (by simp [NulFree]) (free_problem here found))
                  (by simp [NulFree])
        · intro rule member
          cases List.mem_singleton.mp member
          exact .append (.append (.append (by simp [NulFree]) (.int _)) (by simp [NulFree]))
            here.sourced

/-- What a guarded coroutine returns, if it does. -/
theorem stated_guarded {α : Type} {body : Async α} (returns : α → Prop)
    (meets : Meets (Trusted env risk) returns (fun _ _ => True) body)
    : Stated env risk (fun outcome => ∀ value, outcome = .ok value → returns value)
        (guarded body) :=
  .attempt meets

theorem fair_replayStage (signedMode : Bool) (metadata : Json)
    : Fair env risk (replayStage env.runtime call signedMode metadata) := by
  have denied {reason : String} (worded : Worded reason)
      : Fair env risk (finish (deny call .denyReplay ("Replay detected: " ++ reason)
          ["replay_guard"] none none) : Stage Unit) :=
    stated_deny rfl (.append_right (by simp [NulFree]) worded) (by simp [NulFree]) (by simp)
  refine stated_bind (fair_uncaught _) (fun volunteered _ => ?_)
  split
  · refine stated_bind (stated_guarded Reasoned ?_) (fun checked reasoned => ?_)
    · refine .andThen .any (fun nonce _ => .andThen .any (fun timestamp _ => ?_))
      exact (ReplayGuard.reasoned_check _ _ _ _).trust
    · cases checked with
      | error exn => exact denied ⟨by simp [NulFree], by simp⟩
      | ok failure =>
          cases failure with
          | none => exact .pure trivial
          | some reason => exact denied (reasoned _ rfl _ rfl)
  · exact .pure trivial

/-- The conditions of a grant are those of the policy. -/
theorem stated_rbacStage
    : Stated env risk (fun grant => ∀ condition ∈ grant.conditions, condition.Plain)
        (rbacStage call) := by
  refine stated_bind stated_engine (fun engine compiled => ?_)
  split
  · next grant found =>
      refine .pure ?_
      obtain ⟨identity, known, granted⟩ := Option.bind_eq_some_iff.mp found
      obtain ⟨before, after, split, _⟩ := PolicyEngine.identity_eq_some_iff.mp known
      have listed : identity ∈ engine.policy.identities := by simp [split]
      have among := PolicyEngine.mem_of_firstGrant granted
      intro condition member
      exact (compiled identity listed grant among condition member).plain env
  · refine stated_bind stated_engine (fun versioned _ => ?_)
    refine stated_deny rfl ?_ ?_ (by simp)
    · refine .append (.append (.append ?_ (.pyRepr _)) (by simp [NulFree])) (.pyRepr _)
      exact ⟨by simp [NulFree], by simp⟩
    · intro rule member
      cases List.mem_singleton.mp member
      exact .append (.append (by simp [NulFree]) (.int _)) (by simp [NulFree])

theorem fair_conditionAttributes (session : Session) (toolName : String) (metadata : Json)
    (conditions : List Abac.Condition)
    : Fair env risk (conditionAttributes session toolName metadata conditions) := by
  unfold conditionAttributes
  split
  · exact .pure trivial
  · exact fair_uncaught _

theorem fair_driftStage : Fair env risk (driftStage call) := by
  refine stated_bind (stated_guarded (fun _ => True) .any) (fun blocked _ => ?_)
  split
  · exact .pure trivial
  · refine stated_deny rfl ?_ (by simp [NulFree]) (by simp)
    exact .append_right (.pyRepr _) ⟨by simp [NulFree], by simp⟩

theorem fair_challengeStage (totpSecret : String) (metadata challengeId : Json)
    : Fair env risk (challengeStage call totpSecret metadata challengeId) := by
  have denied {reason : String} (worded : Worded reason)
      : Fair env risk (finish (deny call .denyStepUp ("step-up verification failed: " ++ reason)
          ["step_up"] none none) : Stage Bool) :=
    stated_deny rfl (.append_right (by simp [NulFree]) worded) (by simp [NulFree]) (by simp)
  unfold challengeStage
  split
  · exact .pure trivial
  · refine stated_bind (stated_guarded Reasoned ?_) (fun redeemed reasoned => ?_)
    · refine .andThen .any (fun hash _ => .andThen .any (fun proof _ => .demand ?_))
      intro reply ⟨asked, exec⟩
      exact StepUp.reasoned_redeem _ _ _ _ _ asked reply exec (fun _ _ => trivial)
    · cases redeemed with
      | error exn => exact denied ⟨by simp [NulFree], by simp⟩
      | ok failure =>
          cases failure with
          | none => exact .pure trivial
          | some reason => exact denied (reasoned _ rfl _ rfl)

theorem fair_approvalStage (approvalId : Json) : Fair env risk (approvalStage call approvalId) := by
  refine stated_bind (stated_guarded Approvals.Refuses ?_) (fun redeemed refuses => ?_)
  · refine .andThen .any (fun hash _ => .demand ?_)
    intro reply ⟨asked, exec⟩
    exact Approvals.refuses_redeem _ _ _ asked reply exec (fun _ _ => trivial)
  · cases redeemed with
    | error exn => exact stated_deny rfl ⟨by simp [NulFree], by simp⟩ (by simp [NulFree]) (by simp)
    | ok denial =>
        cases denial with
        | none => exact .pure trivial
        | some denial =>
            obtain ⟨denies, worded⟩ := refuses _ rfl denial.1 denial.2 rfl
            exact stated_deny denies worded (by simp [NulFree]) (by simp)

/-- A score that could not be computed has one factor. -/
theorem plain_scoreOrMaximum {scored : Except Exn (Int × List RiskFactor)}
    (plain : ∀ value, scored = .ok value → ∀ factor ∈ value.2, factor.Plain)
    : ∀ factor ∈ (scoreOrMaximum scored).2, factor.Plain := by
  cases scored with
  | ok value => exact plain value rfl
  | error exn =>
      intro factor member
      cases List.mem_singleton.mp member
      exact RiskEngine.plain_reason (by simp [NulFree]) (by simp [NulFree])

theorem fair_scoringStage {conditions : List Abac.Condition}
    (plain : ∀ condition ∈ conditions, condition.Plain) (attrs : Abac.Attributes)
    (stepUpVerified : Bool)
    : Fair env risk (scoringStage call conditions attrs stepUpVerified) := by
  refine stated_bind stated_engine (fun engine _ => ?_)
  refine stated_bind (stated_guarded (fun scored => ∀ factor ∈ scored.2, factor.Plain) ?_)
    (fun scored factors => ?_)
  · refine .demand ?_
    intro reply ⟨asked, exec⟩
    exact Risk.plain_score env risk _ _ _ _ asked reply exec (fun _ _ => trivial)
  · have described : ∀ factor ∈ (some (scoreOrMaximum scored).2).getD [], factor.Plain :=
      plain_scoreOrMaximum factors
    refine stated_bind (fair_enforceConditions _ described ?_) (fun _ _ => ?_)
    · exact fun condition member => plain condition (List.mem_filter.mp member).1
    · split
      · exact .pure trivial
      · next outcome banded =>
          refine .finish (fun _ _ exec _ => accounts_riskTerminal ?_ described exec)
          rintro rfl
          unfold bandTerminal at banded
          dsimp only at banded
          split at banded
          · cases banded
          · split at banded
            · next continues => exact continues (Option.some.inj banded)
            · cases banded

theorem fair_riskStage {conditions : List Abac.Condition}
    (plain : ∀ condition ∈ conditions, condition.Plain) (attrs : Abac.Attributes)
    (stepUpVerified : Bool) (approvalId : Json)
    : Fair env risk (riskStage call conditions attrs stepUpVerified approvalId) := by
  unfold riskStage
  split
  · exact stated_bind (fair_approvalStage approvalId) (fun _ _ => .pure trivial)
  · exact stated_bind (fair_scoringStage plain attrs stepUpVerified) (fun _ _ => .pure trivial)

theorem fair_validationStage (session : Session)
    : Fair env risk (validationStage env.runtime session call) := by
  have denied {reason : String} (free : NulFree reason)
      : Fair env risk (finish (denyValidation call reason) : Stage Unit) := by
    refine stated_deny rfl ?_ (by simp [NulFree]) (by simp)
    refine .append (.append (.append ?_ (.pyRepr _)) (by simp [NulFree])) free
    exact ⟨by simp [NulFree], by simp⟩
  refine stated_bind (fair_uncaught _) (fun inputSchema _ => ?_)
  split
  · exact denied (by simp [NulFree])
  · have checks : Stated env risk (fun error : Option String => ∀ text ∈ error, NulFree text)
        (uncaught (Coroutine.ofExcept
          (ParamValidator.validate env.runtime call.arguments inputSchema))) := by
      refine .mapStop (.ofExcept ?_)
      cases checked : ParamValidator.validate env.runtime call.arguments inputSchema with
      | error exn => trivial
      | ok error => exact fun text same => env.free_validate (same ▸ checked)
    refine stated_bind checks (fun error free => ?_)
    cases error with
    | none => exact .pure trivial
    | some error => exact denied (free error rfl)

theorem fair_allowStage (scored : Option (Int × List RiskFactor))
    (approvalId challengeId : Option String)
    : Fair env risk (allowStage call scored approvalId challengeId) := by
  refine stated_bind stated_engine (fun engine _ => ?_)
  refine stated_bind (stated_guarded (fun _ => True) .any) (fun recorded _ => ?_)
  split
  · exact .pure trivial
  · refine .finish (fun _ _ exec _ => ?_)
    obtain ⟨_, _, rfl, ended⟩ := exec_ask_bind_iff.mp exec
    obtain ⟨rfl, rfl⟩ := Program.exec_done_iff.mp ended
    refine ⟨_, rfl, ?_⟩
    intro sent same
    cases same

/-- The whole pipeline of a call accounts for the decision that it answers with. -/
theorem fair_authorizeCall (session : Session) (requestId : RequestId) (params : Option Params)
    : Fair env risk (authorizeCall env.runtime session requestId params) := by
  refine stated_bind stated_engine (fun engine _ => ?_)
  refine stated_bind (fair_replayStage _ _) (fun _ _ => ?_)
  refine stated_bind stated_rbacStage (fun grant plain => ?_)
  refine stated_bind (fair_conditionAttributes _ _ _ _) (fun attrs _ => ?_)
  refine stated_bind (fair_enforceConditions _ (by simp) ?_) (fun _ _ => ?_)
  · exact fun condition member => plain condition (List.mem_filter.mp member).1
  refine stated_bind fair_driftStage (fun _ _ => ?_)
  refine stated_bind (fair_uncaught _) (fun challengeId _ => ?_)
  refine stated_bind (fair_challengeStage _ _ _) (fun stepUpVerified _ => ?_)
  refine stated_bind (fair_uncaught _) (fun approvalId _ => ?_)
  refine stated_bind (fair_riskStage plain _ _ _) (fun scored _ => ?_)
  refine stated_bind (fair_validationStage _) (fun _ _ => ?_)
  exact stated_bind (fair_allowStage _ _ _) (fun _ _ => .pure trivial)

end

-----------------------------------------------------------------------------------------
-- Round trip
-----------------------------------------------------------------------------------------

/-- What an explanation has of the decision that was sent. No factors and an empty list of them
are the same.
-/
structure Agrees (explained sent : Decision) : Prop where
  decision : explained.decision = sent.decision
  eventType : explained.eventType = sent.eventType
  reason : explained.reason = sent.reason
  matchedRules : explained.matchedRules = sent.matchedRules
  riskScore : explained.riskScore = sent.riskScore
  riskFactors : explained.riskFactors.getD [] = sent.riskFactors.getD []
  policyVersion : explained.policyVersion = sent.policyVersion
  auditId : explained.auditId = sent.auditId

/-- The stored row of an entry that describes a decision is explained as that decision. -/
theorem Tells.agrees {sent : Decision} {entry : AuditEntry} {keys : KeyPair} {prevHash : String}
    {seq : Nat} {row stored : AuditRow} (tells : Tells sent entry) (model : FactorModel)
    (named : sent.auditId = some (toString seq))
    (written : entry.row keys sent.policyVersion prevHash seq = .ok row)
    (back : row.ReadBack stored)
    : ∃ explanation,
        fromAuditRow model stored = .ok explanation ∧ Agrees explanation.decision sent := by
  have recalls := recalls_of_describes model tells.describes written back
  have rules : sent.matchedRules.map AuditLog.escapeNul = sent.matchedRules :=
    (List.map_congr_left (fun rule member =>
      AuditLog.escapeNul_of_free (tells.rules rule member))).trans (List.map_id' _)
  have factors : (sent.riskFactors.getD []).map RiskFactor.escaped = sent.riskFactors.getD [] :=
    (List.map_congr_left (fun factor member =>
      RiskFactor.escaped_of_plain (tells.factors factor member))).trans (List.map_id' _)
  rw [Option.map_some, Option.map_some, rules, factors,
    AuditLog.escapeNul_of_free tells.worded.free] at recalls
  obtain ⟨hash, _, rfl⟩ := AuditEntry.row_ok_iff.mp written
  obtain ⟨payload, _, rfl⟩ := back
  have value : entry.eventType.value = sent.eventType.value := by rw [tells.kind]
  refine ⟨_, fromAuditRow_of_recalls value tells.outcome recalls, ?_⟩
  exact {
    decision := rfl
    eventType := rfl
    reason := by simp [explained, tells.worded.nonempty, Option.filter]
    matchedRules := rfl
    riskScore := tells.score
    riskFactors := by
      simp only [explained]
      split
      · next empty => rw [empty]; rfl
      · rfl
    policyVersion := rfl
    auditId := named.symm
  }

/-- (Keeps rows keys version events) means that the audit table has the rows of a call, which were
written under one version of the policy. The number of a row is its primary key.
-/
structure Keeps (rows : List AuditRow) (keys : KeyPair) (version : Int)
    (events : List (Event Reply))
    : Prop where
  primary : (rows.map AuditRow.seq).Nodup
  kept : ∀ entry seq,
    ⟨.write entry, .ok seq⟩ ∈ events
    → ∃ row ∈ rows, ∃ prevHash, entry.row keys version prevHash seq = .ok row
  unswapped : ∀ engine : PolicyEngine, ⟨.engine, engine⟩ ∈ events → engine.version = version

theorem toString_injective {left right : Nat} (same : toString left = toString right)
    : left = right := by
  have digits : Nat.toDigits 10 left = Nat.toDigits 10 right := by
    simpa [Nat.toList_repr] using congrArg String.toList same
  rw [← Nat.ofDigitChars_ten_toDigits (n := left), digits, Nat.ofDigitChars_ten_toDigits]

/-- The row with a decision's number is explained as the decision that the client was sent, and
every row that the gateway writes is explained or is not a decision.
-/
theorem explanation_round_trip (env : Environment) (risk : RiskSettings) (model : FactorModel)
    (keys : KeyPair)
    : (∀ session requestId params events response sent auditId rows version,
        (onClientMessage env.runtime session
          (.request requestId "tools/call" params)).run.Exec events (.ok (.respond response))
        → (∀ event ∈ events, Trusted env risk event)
        → Keeps rows keys version events
        → response.data = some sent
        → sent.auditId = some auditId
        → ∃ row ∈ rows,
            toString row.seq = auditId
            ∧ ∀ other ∈ rows, toString other.seq = auditId
              → ∀ stored, other.ReadBack stored
              → ∃ explanation,
                  fromAuditRow model stored = .ok explanation
                  ∧ Agrees explanation.decision sent)
      ∧ ∀ (site : WriteSite) version prevHash seq row stored,
          site.entry.row keys version prevHash seq = .ok row
          → row.ReadBack stored
          → (∃ explanation, fromAuditRow model stored = .ok explanation)
            ∨ ∃ message, fromAuditRow model stored = .error (.lookupError message) := by
  refine ⟨?_, ?_⟩
  · intro session requestId params events response sent auditId rows version exec trusted keeps data
      named
    obtain ⟨_, rest, rfl, settled⟩ := exec_ask_bind_iff.mp exec
    obtain ⟨ended, ran, same⟩ := exec_settle_iff.mp settled
    have trustedRest := fun event member => trusted event (List.mem_cons_of_mem _ member)
    have answered : ended = .error (.respond response) := by
      rcases ended with (other | exn) | message <;> cases same
      rfl
    subst answered
    have explains : Explains (.respond response) rest :=
      fair_authorizeCall session requestId params rest _ ran trustedRest
    obtain ⟨entry, seq, engine, written, rfl, tells, read, versioned⟩ :=
      explains sent data auditId named
    have current := keeps.unswapped engine (List.mem_cons_of_mem _ read)
    obtain ⟨row, member, prevHash, made⟩ := keeps.kept entry seq (List.mem_cons_of_mem _ written)
    have numbered : row.seq = seq := by
      obtain ⟨hash, _, rfl⟩ := AuditEntry.row_ok_iff.mp made
      rfl
    refine ⟨row, member, by rw [numbered], ?_⟩
    intro other among same stored back
    have one : other = row := by
      refine List.inj_on_of_nodup_map keeps.primary among member ?_
      rw [numbered]
      exact toString_injective same
    subst one
    rw [← current, ← versioned] at made
    exact tells.agrees model named made back
  · intro site version prevHash seq row stored written back
    exact explained_or_lookupError model written back

/-- Libraries that quote as Python does and find nothing wrong; no policy has conditions. -/
def plainEnvironment : Environment where
  runtime := DriftDetector.calm
  stdlib := { repr := pyRepr, fnmatch := fun _ _ => false }
  parse _ := .error "invalid syntax"
  parse_free _ _ parsed := by cases parsed
  repr_free := NulFree.pyRepr
  validationError_free _ _ _ verdict := by cases verdict
  schemaError_free _ _ _ verdict := by cases verdict

/-- Replies with which every check passes, except that Redis does not answer the risk engine. -/
def unscored : (asked : Call) → Reply asked
  | .score _ _ _ => .error .unavailable
  | asked => permitted asked

/-- The program of a call that sends a mail. -/
def mailProgram : Program Call Reply (Except Exn Outcome) :=
  (onClientMessage DriftDetector.calm mailSession (sendCall (.obj []))).run

/-- Witness: a call that could not be scored is denied with the risk that stands for it, and its
row is explained so.
-/
theorem unscored_call_explained
    : ∃ response sent stored explanation,
        (mailProgram.play unscored).2 = .ok (.respond response)
        ∧ response.data = some sent
        ∧ sent.eventType = .denyRisk
        ∧ sent.riskFactors = some maximumRisk.2
        ∧ fromAuditRow .strict stored = .ok explanation
        ∧ Agrees explanation.decision sent := by
  let call := toolCallOf mailSession (.int 1) [("name", .str "send_mail"), ("arguments", .obj [])]
  let entry := denyEntry call.key .denyRisk
    "risk score 100 for 'send_mail' exceeds the deny threshold (90)" ["risk_engine"] (some 100)
    (some maximumRisk.2) (.obj [])
  obtain ⟨row, written⟩ := AuditEntry.exists_row .plain 1 AuditLog.genesisHash 1 entry (by decide)
  have events : (mailProgram.play unscored).1 = [
        ⟨.setPending (.int 1) "tools/call", ()⟩,
        ⟨.engine, openPolicy⟩,
        ⟨.engine, openPolicy⟩,
        ⟨.isBlocked "mail" "send_mail", .ok false⟩,
        ⟨.engine, openPolicy⟩,
        ⟨.score call.key (.obj []) {}, .error .unavailable⟩,
        ⟨.popPending (.int 1), ()⟩,
        ⟨.recordDenial "agent", .ok ()⟩,
        ⟨.engine, openPolicy⟩,
        ⟨.write entry, .ok 1⟩
      ] :=
    rfl
  have compiled : openPolicy.CompiledBy plainEnvironment.parse := by
    intro identity known grant granted condition member
    cases List.mem_singleton.mp known
    cases List.mem_singleton.mp granted
    cases member
  have refused : ∃ asked, (Risk.score {} plainEnvironment.stdlib call.key (.obj []) {} false).run.Exec
      asked (.error .unavailable) :=
    ⟨[⟨.incr (Risk.freqKey call.key), .refused .unavailable⟩], .ask (.done _)⟩
  have trusted : ∀ event ∈ (mailProgram.play unscored).1, Trusted plainEnvironment {} event := by
    rw [events]
    simp only [List.forall_mem_cons]
    exact ⟨trivial, compiled, compiled, trivial, compiled, refused, trivial, trivial, compiled, trivial,
      by simp⟩
  have keeps : Keeps [row] .plain 1 (mailProgram.play unscored).1 := by
    rw [events]
    refine ⟨by simp, ?_, ?_⟩
    · intro other seq member
      simp only [List.mem_cons, List.not_mem_nil, or_false] at member
      rcases member with same | same | same | same | same | same | same | same | same | same <;> cases same
      exact ⟨row, List.mem_cons_self, _, written⟩
    · intro engine member
      simp only [List.mem_cons, List.not_mem_nil, or_false] at member
      rcases member with same | same | same | same | same | same | same | same | same | same <;>
        cases same <;> rfl
  have numbered : row.seq = 1 := by
    obtain ⟨hash, _, rfl⟩ := AuditEntry.row_ok_iff.mp written
    rfl
  obtain ⟨member, among, _, explains⟩ := (explanation_round_trip plainEnvironment {} .strict .plain).1
    mailSession (.int 1) _ _ _ _ _ [row] 1 (Program.exec_play unscored mailProgram) trusted keeps rfl rfl
  obtain ⟨explanation, found, agrees⟩ := explains row List.mem_cons_self (by rw [numbered]) _
    ⟨_, .refl _, rfl⟩
  exact ⟨_, _, _, explanation, rfl, rfl, rfl, rfl, found, agrees⟩

end DecisionExplainer

end SecureMcp
