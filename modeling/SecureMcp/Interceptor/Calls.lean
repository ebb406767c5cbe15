import SecureMcp.Interceptor.Authorize
import SecureMcp.Library.Pipeline

/-! What the decision of a tool call asks of the stores, and how it ends: with the rows of a
denial, with those of a held call, or with the ALLOW row. Every question is about the normalized
name and arguments of the call.
-/

namespace SecureMcp

open Interaction

/-- The calls of a drift check: its query, its transaction and its audit rows. -/
def Call.OfDetector : Call → Prop
  | .selectBaselines _ | .commit _ => True
  | .write entry => entry.eventType ∉ [.allow, .policyError]
  | _ => False

/-- The kinds of the rows that a drift check writes. -/
def EventType.ofDrift : List EventType :=
  [.driftLow, .driftMedium, .driftHigh, .driftCritical, .baselineFlagged]

/-- The calls of a drift check, with the kinds of its audit rows. -/
def Call.OfDriftCheck : Call → Prop
  | .selectBaselines _ | .commit _ => True
  | .write entry => entry.eventType ∈ EventType.ofDrift
  | _ => False

theorem Call.OfDriftCheck.ofDetector {asked : Call} (drift : asked.OfDriftCheck)
    : asked.OfDetector := by
  cases asked with
  | write entry =>
      intro other
      revert drift
      rcases List.mem_pair.mp other with kind | kind <;>
        simp [Call.OfDriftCheck, EventType.ofDrift, kind]
  | selectBaselines | commit => trivial
  | _ => cases drift

namespace DriftDetector

open Coroutine

theorem asks_write {entry : AuditEntry} (kind : entry.eventType ∈ EventType.ofDrift)
    : (AuditWriter.write entry).run.Asks Call.OfDriftCheck :=
  asks_demand _ kind

theorem asks_firstSighting (runtime : Runtime) (serverId identityId : String)
    (live : List (String × Tool)) (sweep : Sweep) (name : String) (tool : Tool)
    : (firstSighting runtime serverId identityId live sweep name tool).run.Asks
        Call.OfDriftCheck := by
  unfold firstSighting
  refine asks_bind (asks_ofExcept _) (fun liveHash => ?_)
  refine asks_bind ?_ (fun _ => ?_)
  · unfold AuditWriter.writeIf
    split
    · exact asks_bind (asks_write (by simp [flaggedEntry, EventType.ofDrift]))
        (fun _ => asks_pure _)
    · exact asks_pure _
  · refine asks_bind (asks_ofExcept _) (fun source => ?_)
    cases source with
    | none => exact asks_pure _
    | some source =>
        exact asks_bind (asks_write (by simp [renamedEntry, EventType.ofDrift]))
          (fun _ => asks_pure _)

theorem severity_event (severity : DriftSeverity)
    : severity.event ∈ EventType.ofDrift := by
  cases severity <;> decide

theorem asks_checkTool (runtime : Runtime) (serverId identityId : String)
    (live : List (String × Tool)) (sweep : Sweep) (name : String) (tool : Tool)
    : (checkTool runtime serverId identityId live sweep name tool).run.Asks
        Call.OfDriftCheck := by
  unfold checkTool
  cases sweep.row? name with
  | none => exact asks_firstSighting _ _ _ _ _ _ _
  | some row =>
      refine asks_bind (asks_ofExcept _) (fun liveHash => ?_)
      split
      · split <;> exact asks_pure _
      · split
        · exact asks_pure _
        · refine asks_bind (asks_ofExcept _) (fun classified => ?_)
          exact asks_bind (asks_write (severity_event _)) (fun _ => asks_pure _)

theorem asks_checkRemoved (serverId identityId : String) (live : List (String × Tool))
    (sweep : Sweep) (name : String)
    : (checkRemoved serverId identityId live sweep name).run.Asks Call.OfDriftCheck := by
  unfold checkRemoved
  split
  · exact asks_pure _
  · cases sweep.row? name with
    | none => exact asks_pure _
    | some row =>
        by_cases gone : row.observedHash = some ToolBaseline.removedSentinel
        · simp only [gone, if_true]
          exact asks_pure _
        · simp only [gone, if_false]
          exact asks_bind (asks_write (by simp [removedEntry, EventType.ofDrift]))
            (fun _ => asks_pure _)

theorem asks_check (runtime : Runtime) (serverId : String) (tools : List Tool)
    (identityId : String)
    : (check runtime serverId tools identityId).run.Asks Call.OfDriftCheck := by
  refine asks_bind (asks_demand _ trivial) (fun rows => ?_)
  refine asks_bind ?_ (fun swept => asks_demand _ trivial)
  refine asks_bind (asks_foldlM (fun _ _ => asks_checkTool _ _ _ _ _ _ _) _ _) (fun seen => ?_)
  exact asks_foldlM (fun _ _ => asks_checkRemoved _ _ _ _ _) _ _

end DriftDetector

namespace Interceptor

open Coroutine

/-- (Concerns call asked) means that a question of a stage is about the call's own name and
arguments, and that an ALLOW row records them. No stage asks the detector's own questions.
-/
def Concerns (call : ToolCall) : Call → Prop
  | .isBlocked serverId toolName => serverId = call.key.serverId ∧ toolName = call.key.toolName
  | .redeemChallenge _ key hash _ _ => key = call.key ∧ argumentsHash call.arguments = .ok hash
  | .redeemApproval _ key hash => key = call.key ∧ argumentsHash call.arguments = .ok hash
  | .score key arguments _ => key = call.key ∧ arguments = call.arguments
  | .write entry =>
      entry.eventType = .allow
      → entry.identityId = call.key.identityId
        ∧ entry.serverId = some call.key.serverId
        ∧ entry.toolName = some call.key.toolName
        ∧ entry.payloadExtra.lookup "arguments" = some call.arguments
  | .selectBaselines _ | .commit _ => False
  | _ => True

/-- What a decision may ask: its stages' questions, and those of a drift check over a list
that it fetched.
-/
def Consults (call : ToolCall) (asked : Call) : Prop :=
  Concerns call asked ∨ asked.OfDetector

-----------------------------------------------------------------------------------------
-- How a call is answered
-----------------------------------------------------------------------------------------

/-- (Terminates call last) means that a call was answered with the events `last`: a denial, a
held call, or a call that was allowed but could not be recorded.
-/
inductive Terminates (call : ToolCall) : List (Event Reply) → Prop
  | deny (eventType : EventType) (reason : String) (matchedRules : List String)
    (riskScore : Option Int) (riskFactors : Option (List RiskFactor)) (counted : Except Exn Unit)
    (engine : PolicyEngine) (seq : Except Exn Nat)
    : Terminates call [
        ⟨.popPending call.requestId, ()⟩,
        ⟨.recordDenial call.key.identityId, counted⟩,
        ⟨.engine, engine⟩,
        ⟨.write (denyEntry call.key eventType reason matchedRules riskScore riskFactors
          call.arguments), seq⟩
      ]
  | hold {stepUpCapable : Bool} {decision : Decision} {riskScore : Int}
    {riskFactors : List RiskFactor} {exchanges : List (Event Reply)}
    {held : Except Exn Decision} (engine versioned : PolicyEngine)
    (kind : decision.eventType
      = if decision.decision = .humanApprovalRequired then .humanApprovalRequired else .challenge)
    (holds : (hold call stepUpCapable decision riskScore riskFactors).run.Exec exchanges held)
    : Terminates call
        (⟨.popPending call.requestId, ()⟩ :: ⟨.engine, engine⟩ :: ⟨.engine, versioned⟩ :: exchanges)
  | unrecorded (engine : PolicyEngine) (risk : Option (Int × List RiskFactor))
    (approvalId challengeId : Option String) (exn : Exn)
    : Terminates call [
        ⟨.engine, engine⟩,
        ⟨.write (allowEntry call.key engine.version call.arguments (risk.map Prod.fst)
          (risk.map Prod.snd) approvalId challengeId), .error exn⟩,
        ⟨.popPending call.requestId, ()⟩
      ]

/-- A response with a decision names the version of a policy that was read for it. -/
def NamesVersion (response : ErrorResponse) (last : List (Event Reply)) : Prop :=
  ∀ sent,
    response.data = some sent
    → ∃ engine : PolicyEngine, ⟨.engine, engine⟩ ∈ last ∧ sent.policyVersion = engine.version

/-- How a stage stops: it raises, or it has answered the call. -/
def Answers (call : ToolCall) : Stop → List (Event Reply) → Prop
  | .raised _, last => last = []
  | .respond response, last => Terminates call last ∧ NamesVersion response last

section

variable {call : ToolCall} {events : List (Event Reply)} {outcome : Except Stop ErrorResponse}

/-- What follows a guarded question, whether its answer raises or not. -/
theorem exec_guarded_demand_bind {α β : Type} {asked : Call} {answer : Reply asked → Except Exn α}
    {next : Except Exn α → Stage β} {result : Except Stop β}
    (exec : (guarded (Coroutine.demand asked answer) >>= next).run.Exec events result)
    : ∃ reply rest,
        events = ⟨asked, reply⟩ :: rest ∧ (next (answer reply)).run.Exec rest result := by
  obtain ⟨first, rest, ended, rfl, asks, exec⟩ := exec_attempt_bind_iff.mp exec
  obtain ⟨reply, rfl, rfl⟩ := exec_demand_iff.mp asks
  exact ⟨reply, rest, rfl, exec⟩

/-- A denial is answered whatever fails on the way. -/
theorem exec_deny {eventType : EventType} {reason : String} {matchedRules : List String}
    {riskScore : Option Int} {riskFactors : Option (List RiskFactor)}
    (exec : (deny call eventType reason matchedRules riskScore riskFactors).run.Exec events
      outcome)
    : ∃ response, outcome = .ok response ∧ Answers call (.respond response) events := by
  obtain ⟨_, _, rfl, counting⟩ := exec_ask_bind_iff.mp exec
  obtain ⟨counted, _, rfl, reading⟩ := exec_guarded_demand_bind counting
  obtain ⟨engine, _, rfl, writing⟩ := exec_ask_bind_iff.mp reading
  obtain ⟨seq, _, rfl, ended⟩ := exec_guarded_demand_bind writing
  obtain ⟨rfl, rfl⟩ := Program.exec_done_iff.mp ended
  refine ⟨_, rfl, .deny eventType reason matchedRules riskScore riskFactors counted engine seq, ?_⟩
  intro sent same
  cases same
  exact ⟨engine, by simp, rfl⟩

/-- A held decision names the row that was written for it. -/
theorem hold_ok {stepUpCapable : Bool} {decision held : Decision} {riskScore : Int}
    {riskFactors : List RiskFactor} {events : List (Event Reply)}
    (holds : (hold call stepUpCapable decision riskScore riskFactors).run.Exec events (.ok held))
    : ∃ seq approvalId challengeId,
        ⟨.write (riskTerminalEntry call.key decision.eventType decision.reason call.arguments
          riskScore riskFactors), .ok seq⟩ ∈ events
        ∧ held = { decision with
          auditId := some (toString seq), approvalId := approvalId, challengeId := challengeId } := by
  obtain ⟨first, rest, seq, rfl, writing, exec⟩ := exec_bind_ok_iff.mp holds
  obtain ⟨reply, rfl, answered⟩ := exec_demand_iff.mp writing
  cases (answered : reply = .ok seq)
  refine ⟨seq, ?_⟩
  dsimp only at exec
  split at exec
  · obtain ⟨hash, _, creating⟩ := exec_ofExcept_bind_ok_iff.mp exec
    obtain ⟨_, _, approvalId, rfl, _, ended⟩ := exec_bind_ok_iff.mp creating
    obtain ⟨rfl, same⟩ := Program.exec_done_iff.mp ended
    cases same
    exact ⟨some approvalId, _, by simp, rfl⟩
  · split at exec
    · obtain ⟨hash, _, creating⟩ := exec_ofExcept_bind_ok_iff.mp exec
      obtain ⟨_, _, challengeId, rfl, _, ended⟩ := exec_bind_ok_iff.mp creating
      obtain ⟨rfl, same⟩ := Program.exec_done_iff.mp ended
      cases same
      exact ⟨_, some challengeId, by simp, rfl⟩
    · obtain ⟨rfl, same⟩ := Program.exec_done_iff.mp exec
      cases same
      exact ⟨_, _, by simp, rfl⟩

/-- So is a call in a risk band above ALLOW. -/
theorem exec_riskTerminal {kind : DecisionOutcome} {riskScore : Int}
    {riskFactors : List RiskFactor}
    (exec : (riskTerminal call kind riskScore riskFactors).run.Exec events outcome)
    : ∃ response, outcome = .ok response ∧ Answers call (.respond response) events := by
  unfold riskTerminal at exec
  dsimp only at exec
  split at exec
  · exact exec_deny exec
  · obtain ⟨_, _, rfl, reading⟩ := exec_ask_bind_iff.mp exec
    obtain ⟨engine, _, rfl, versioning⟩ := exec_ask_bind_iff.mp reading
    obtain ⟨versioned, _, rfl, holding⟩ := exec_ask_bind_iff.mp versioning
    obtain ⟨exchanges, _, held, rfl, holds, ended⟩ := exec_attempt_bind_iff.mp holding
    have answered : Terminates call
        (⟨.popPending call.requestId, ()⟩ :: ⟨.engine, engine⟩ :: ⟨.engine, versioned⟩ :: exchanges) := by
      refine .hold engine versioned ?_ holds
      dsimp only
      split <;> rfl
    have read : (⟨.engine, versioned⟩ : Event Reply)
        ∈ (⟨.popPending call.requestId, ()⟩ :: ⟨.engine, engine⟩ :: ⟨.engine, versioned⟩ :: exchanges
          : List (Event Reply)) :=
      List.mem_cons_of_mem _ (List.mem_cons_of_mem _ List.mem_cons_self)
    cases held with
    | error exn =>
        obtain ⟨rfl, rfl⟩ := Program.exec_done_iff.mp ended
        rw [List.append_nil]
        refine ⟨_, rfl, answered, ?_⟩
        intro sent same
        cases same
    | ok held =>
        obtain ⟨rfl, rfl⟩ := Program.exec_done_iff.mp ended
        rw [List.append_nil]
        refine ⟨_, rfl, answered, ?_⟩
        intro sent same
        cases same
        obtain ⟨_, _, _, _, rfl⟩ := hold_ok holds
        exact ⟨versioned, read, rfl⟩

-----------------------------------------------------------------------------------------
-- How a stage is settled
-----------------------------------------------------------------------------------------

/-- What every stage but scoring and validation may ask about a call before it is decided. -/
structure Permits (quiet : Call → Prop) (call : ToolCall) : Prop where
  engine : quiet .engine
  time : quiet .time
  utcHour : quiet .utcHour
  setNonce : ∀ nonce seconds, quiet (.setNonce nonce seconds)
  problem : ∀ condition problem, quiet (.write (policyErrorEntry call.key condition problem))
  isBlocked : quiet (.isBlocked call.key.serverId call.key.toolName)
  redeemChallenge : ∀ challengeId hash proof secret,
    argumentsHash call.arguments = .ok hash
    → quiet (.redeemChallenge challengeId call.key hash proof secret)
  redeemApproval : ∀ approvalId hash,
    argumentsHash call.arguments = .ok hash → quiet (.redeemApproval approvalId call.key hash)

/-- What validation may ask: the schema cache, and the upstream with a drift check. -/
structure Fetches (quiet : Call → Prop) (serverId : String) : Prop where
  cacheGet : quiet (.cacheGet serverId)
  cacheSet : ∀ tools, quiet (.cacheSet serverId tools)
  listTools : quiet .listTools
  detector : ∀ asked, asked.OfDriftCheck → quiet asked

variable {quiet : Call → Prop}

theorem settles_uncaught {α : Type} {body : Async α} (asks : body.run.Asks quiet)
    : Settles quiet Quietly (Answers call) (uncaught body) :=
  .mapStop asks (fun _ => rfl)

theorem settles_currentEngine (permits : Permits quiet call)
    : Settles quiet Quietly (Answers call) (currentEngine : Stage PolicyEngine) :=
  .ask permits.engine

theorem settles_deny {α : Type} {eventType : EventType} {reason : String}
    {matchedRules : List String} {riskScore : Option Int} {riskFactors : Option (List RiskFactor)}
    : Settles quiet Quietly (Answers call)
        (finish (deny call eventType reason matchedRules riskScore riskFactors) : Stage α) :=
  .finish (fun _ _ => exec_deny)

theorem settles_recordProblem (permits : Permits quiet call) (condition : Abac.Condition)
    (problem : Option String)
    : Settles quiet Quietly (Answers call) (recordProblem call condition problem) := by
  cases problem with
  | none => exact .pure ()
  | some problem =>
      exact .bind (.attempt (asks_demand _ (permits.problem _ _))) (fun _ => .pure ())

/-- Conditions are settled in turn, by induction on them. -/
theorem settles_enforceConditions (permits : Permits quiet call) (attrs : Abac.Attributes)
    (riskScore : Option Int) (riskFactors : Option (List RiskFactor))
    (conditions : List Abac.Condition)
    : Settles quiet Quietly (Answers call)
        (enforceConditions call attrs riskScore riskFactors conditions) := by
  induction conditions with
  | nil => exact .pure ()
  | cons condition rest ih =>
      refine .bind (settles_recordProblem permits _ _) (fun _ => ?_)
      split
      · exact ih
      · exact .bind (settles_currentEngine permits) (fun engine => settles_deny)

theorem asks_replayCheck (permits : Permits quiet call) (settings : Settings)
    (isUuid : String → Bool) (nonce timestamp : Json)
    : (ReplayGuard.check settings isUuid nonce timestamp).run.Asks quiet := by
  unfold ReplayGuard.check
  split
  · split
    · exact asks_pure _
    · split
      · exact asks_pure _
      · refine asks_bind (asks_ask permits.time) (fun now => ?_)
        refine asks_bind (asks_ofExcept _) (fun outside => ?_)
        split
        · exact asks_pure _
        · refine asks_bind (asks_demand _ (permits.setNonce _ _)) (fun fresh => ?_)
          split <;> exact asks_pure _
  · exact asks_pure _

theorem settles_replayStage (permits : Permits quiet call) (runtime : Runtime)
    (signedMode : Bool) (metadata : Json)
    : Settles quiet Quietly (Answers call) (replayStage runtime call signedMode metadata) := by
  unfold replayStage
  refine .bind (settles_uncaught ?_) (fun volunteered => ?_)
  · split
    · exact asks_pure _
    · refine asks_bind (asks_ofExcept _) (fun found => ?_)
      split
      · exact asks_pure _
      · exact asks_ofExcept _
  · split
    · refine .bind (.attempt ?_) (fun checked => ?_)
      · refine asks_bind (asks_ofExcept _) (fun nonce => ?_)
        exact asks_bind (asks_ofExcept _) (fun timestamp => asks_replayCheck permits _ _ _ _)
      · dsimp only
        split
        · exact .pure ()
        · exact settles_deny
    · exact .pure ()

theorem settles_rbacStage (permits : Permits quiet call)
    : Settles quiet Quietly (Answers call) (rbacStage call) := by
  refine .bind (settles_currentEngine permits) (fun engine => ?_)
  split
  · exact .pure _
  · exact .bind (settles_currentEngine permits) (fun versioned => settles_deny)

theorem asks_abacAttributes (permits : Permits quiet call) (session : Session)
    (toolName : String) (metadata : Json)
    : (abacAttributes session toolName metadata).run.Asks quiet := by
  refine asks_bind (asks_ask permits.engine) (fun engine => ?_)
  refine asks_bind (asks_ofExcept _) (fun timestamp => ?_)
  refine asks_bind ?_ (fun hour => asks_pure _)
  unfold contextHour
  split
  · exact asks_ofExcept _
  · exact asks_ask permits.utcHour

theorem settles_conditionAttributes (permits : Permits quiet call) (session : Session)
    (toolName : String) (metadata : Json) (conditions : List Abac.Condition)
    : Settles quiet Quietly (Answers call)
        (conditionAttributes session toolName metadata conditions) := by
  unfold conditionAttributes
  split
  · exact .pure _
  · exact settles_uncaught (asks_abacAttributes permits _ _ _)

theorem settles_driftStage (permits : Permits quiet call)
    : Settles quiet Quietly (Answers call) (driftStage call) := by
  refine .bind (.attempt (asks_demand _ permits.isBlocked)) (fun blocked => ?_)
  split
  · exact .pure ()
  · exact settles_deny

theorem settles_challengeStage (permits : Permits quiet call) (totpSecret : String)
    (metadata challengeId : Json)
    : Settles quiet Quietly (Answers call)
        (challengeStage call totpSecret metadata challengeId) := by
  unfold challengeStage
  split
  · exact .pure _
  · refine .bind (.attempt ?_) (fun redeemed => ?_)
    · refine asks_ofExcept_bind (fun hash hashed => ?_)
      exact asks_bind (asks_ofExcept _)
        (fun proof => asks_demand _ (permits.redeemChallenge _ _ _ _ hashed))
    · dsimp only
      split
      · exact .pure _
      · exact settles_deny

theorem settles_approvalStage (permits : Permits quiet call) (approvalId : Json)
    : Settles quiet Quietly (Answers call) (approvalStage call approvalId) := by
  refine .bind (.attempt ?_) (fun redeemed => ?_)
  · exact asks_ofExcept_bind
      (fun hash hashed => asks_demand _ (permits.redeemApproval _ _ hashed))
  · dsimp only
    split
    · exact .pure _
    · exact settles_deny

theorem settles_scoringStage (permits : Permits quiet call)
    (score : ∀ risk, quiet (.score call.key call.arguments risk))
    (conditions : List Abac.Condition) (attrs : Abac.Attributes) (stepUpVerified : Bool)
    : Settles quiet Quietly (Answers call)
        (scoringStage call conditions attrs stepUpVerified) := by
  refine .bind (settles_currentEngine permits) (fun engine => ?_)
  refine .bind (.attempt (asks_demand _ (score _))) (fun scored => ?_)
  refine .bind (settles_enforceConditions permits _ _ _ _) (fun _ => ?_)
  split
  · exact .pure _
  · exact .finish (fun _ _ => exec_riskTerminal)

theorem settles_riskStage (permits : Permits quiet call)
    (score : ∀ risk, quiet (.score call.key call.arguments risk))
    (conditions : List Abac.Condition) (attrs : Abac.Attributes) (stepUpVerified : Bool)
    (approvalId : Json)
    : Settles quiet Quietly (Answers call)
        (riskStage call conditions attrs stepUpVerified approvalId) := by
  unfold riskStage
  split
  · exact .bind (settles_approvalStage permits _) (fun _ => .pure _)
  · exact .bind (settles_scoringStage permits score _ _ _) (fun _ => .pure _)

theorem asks_refetchTools (runtime : Runtime) (session : Session)
    (fetches : Fetches quiet session.serverId)
    : (refetchTools runtime session).run.Asks quiet := by
  refine asks_bind (asks_attempt ?_) (fun refetched => asks_pure _)
  refine asks_bind (asks_demand _ fetches.listTools) (fun result => ?_)
  refine asks_bind (asks_ofExcept _) (fun tools => ?_)
  refine asks_bind ((DriftDetector.asks_check _ _ _ _).mono fetches.detector) (fun _ => ?_)
  exact asks_bind (asks_demand _ (fetches.cacheSet _)) (fun _ => asks_pure _)

theorem asks_inputSchemaFor (runtime : Runtime) (session : Session) (toolName : String)
    (fetches : Fetches quiet session.serverId)
    : (inputSchemaFor runtime session toolName).run.Asks quiet := by
  refine asks_bind (asks_demand _ fetches.cacheGet) (fun cached => ?_)
  cases cached with
  | some tools => exact asks_pure _
  | none =>
      refine asks_bind (asks_refetchTools runtime session fetches) (fun refetched => ?_)
      cases refetched <;> exact asks_pure _

theorem settles_validationStage (runtime : Runtime) (session : Session)
    (fetches : Fetches quiet session.serverId)
    : Settles quiet Quietly (Answers call) (validationStage runtime session call) := by
  refine .bind (settles_uncaught (asks_inputSchemaFor _ _ _ fetches)) (fun inputSchema => ?_)
  split
  · exact settles_deny
  · refine .bind (settles_uncaught (asks_ofExcept _)) (fun error => ?_)
    cases error with
    | none => exact .pure _
    | some error => exact settles_deny

/-- (Recorded call last) means that `last` records a call as allowed. -/
def Recorded (call : ToolCall) (last : List (Event Reply)) : Prop :=
  ∃ engine : PolicyEngine, ∃ risk : Option (Int × List RiskFactor),
    ∃ approvalId challengeId : Option String, ∃ seq,
      last = [
        ⟨.engine, engine⟩,
        ⟨.write (allowEntry call.key engine.version call.arguments (risk.map Prod.fst)
          (risk.map Prod.snd) approvalId challengeId), .ok seq⟩
      ]

/-- The last stage records the call, or answers that it could not. -/
theorem settles_allowStage (risk : Option (Int × List RiskFactor))
    (approvalId challengeId : Option String)
    : Settles quiet (fun _ => Recorded call) (Answers call)
        (allowStage call risk approvalId challengeId) := by
  intro events outcome exec
  obtain ⟨engine, _, rfl, writing⟩ := exec_ask_bind_iff.mp exec
  obtain ⟨reply, _, rfl, ended⟩ := exec_guarded_demand_bind writing
  refine ⟨[], _, rfl, by simp, ?_⟩
  cases reply with
  | ok seq =>
      obtain ⟨rfl, rfl⟩ := Program.exec_done_iff.mp ended
      exact ⟨engine, risk, approvalId, challengeId, seq, rfl⟩
  | error exn =>
      obtain ⟨stop, rfl, raised | ⟨response, rfl, returned⟩⟩ := exec_finish_iff.mp ended
      · obtain ⟨_, _, _, impossible⟩ := exec_ask_bind_iff.mp raised
        obtain ⟨_, impossible⟩ := Program.exec_done_iff.mp impossible
        cases impossible
      · obtain ⟨_, _, rfl, done⟩ := exec_ask_bind_iff.mp returned
        obtain ⟨rfl, responded⟩ := Program.exec_done_iff.mp done
        cases responded
        refine ⟨.unrecorded engine risk approvalId challengeId exn, ?_⟩
        intro sent same
        cases same

theorem lookup_allowEntry (version : Int) (risk : Option (Int × List RiskFactor))
    (approvalId challengeId : Option String)
    : (allowEntry call.key version call.arguments (risk.map Prod.fst) (risk.map Prod.snd)
        approvalId challengeId).payloadExtra.lookup "arguments"
      = some call.arguments :=
  rfl

end

theorem orEmpty_ne_null (value : Json) : value.orEmpty ≠ .null := by
  unfold Json.orEmpty
  split
  · next truthy =>
      rintro rfl
      cases truthy
  · simp

section

variable {runtime : Runtime} {session : Session} {requestId : RequestId} {params : Option Params}
  {call : ToolCall}

/-- The whole decision of a call: quiet questions, and then its ALLOW row or its answer. -/
theorem settles_authorizeCall {quiet : Call → Prop}
    (normalized : call = toolCallOf session requestId (params.getD [])) (permits : Permits quiet call)
    (score : ∀ risk, quiet (.score call.key call.arguments risk))
    (fetches : Fetches quiet session.serverId)
    : Settles quiet (fun _ => Recorded call) (Answers call)
        (authorizeCall runtime session requestId params) := by
  subst normalized
  refine .bind (settles_currentEngine permits) (fun engine => ?_)
  refine .bind (settles_replayStage permits _ _ _) (fun _ => ?_)
  refine .bind (settles_rbacStage permits) (fun grant => ?_)
  refine .bind (settles_conditionAttributes permits _ _ _ _) (fun attrs => ?_)
  refine .bind (settles_enforceConditions permits _ _ _ _) (fun _ => ?_)
  refine .bind (settles_driftStage permits) (fun _ => ?_)
  refine .bind (settles_uncaught (asks_ofExcept _)) (fun challengeId => ?_)
  refine .bind (settles_challengeStage permits _ _ _) (fun stepUpVerified => ?_)
  refine .bind (settles_uncaught (asks_ofExcept _)) (fun approvalId => ?_)
  refine .bind (settles_riskStage permits score _ _ _ _) (fun risk => ?_)
  refine .bind (settles_validationStage _ _ fetches) (fun _ => ?_)
  exact .andReturn (settles_allowStage _ _ _) _

-----------------------------------------------------------------------------------------
-- What a held call creates
-----------------------------------------------------------------------------------------

/-- A held call is recorded first, and then its approval or its challenge is created. -/
theorem exec_hold {stepUpCapable : Bool} {decision : Decision} {riskScore : Int}
    {riskFactors : List RiskFactor} {exchanges : List (Event Reply)} {held : Except Exn Decision}
    (holds : (hold call stepUpCapable decision riskScore riskFactors).run.Exec exchanges held)
    : ∃ recorded rest,
        exchanges
          = ⟨.write (riskTerminalEntry call.key decision.eventType decision.reason call.arguments
              riskScore riskFactors), recorded⟩ :: rest
        ∧ (rest = []
          ∨ ∃ seq hash,
            recorded = .ok seq
            ∧ argumentsHash call.arguments = .ok hash
            ∧ ((decision.decision = .humanApprovalRequired
                ∧ ∃ reply, rest = [⟨.createApproval call.key hash seq, reply⟩])
              ∨ (decision.decision ≠ .humanApprovalRequired
                ∧ ∃ reply, rest = [⟨.createChallenge call.key hash seq, reply⟩]))) := by
  obtain ⟨recorded, rest, rfl, ⟨seq, rfl, exec⟩ | ⟨_, _, rfl, _⟩⟩ := exec_demand_bind holds
  · refine ⟨.ok seq, rest, rfl, ?_⟩
    dsimp only at exec
    split at exec
    · next human =>
        cases hashed : argumentsHash call.arguments with
        | error exn =>
            rw [hashed, ofExcept_error_bind] at exec
            exact Or.inl (Program.exec_done_iff.mp exec).1
        | ok hash =>
            rw [hashed, ofExcept_ok_bind] at exec
            obtain ⟨reply, rest, rfl, ⟨_, _, last⟩ | ⟨_, _, rfl, _⟩⟩ := exec_demand_bind exec
            · obtain ⟨rfl, _⟩ := Program.exec_done_iff.mp last
              exact Or.inr ⟨seq, hash, rfl, rfl, Or.inl ⟨human, reply, rfl⟩⟩
            · exact Or.inr ⟨seq, hash, rfl, rfl, Or.inl ⟨human, reply, rfl⟩⟩
    · next challenge =>
        split at exec
        · cases hashed : argumentsHash call.arguments with
          | error exn =>
              rw [hashed, ofExcept_error_bind] at exec
              exact Or.inl (Program.exec_done_iff.mp exec).1
          | ok hash =>
              rw [hashed, ofExcept_ok_bind] at exec
              obtain ⟨reply, rest, rfl, ⟨_, _, last⟩ | ⟨_, _, rfl, _⟩⟩ := exec_demand_bind exec
              · obtain ⟨rfl, _⟩ := Program.exec_done_iff.mp last
                exact Or.inr ⟨seq, hash, rfl, rfl, Or.inr ⟨challenge, reply, rfl⟩⟩
              · exact Or.inr ⟨seq, hash, rfl, rfl, Or.inr ⟨challenge, reply, rfl⟩⟩
        · exact Or.inl (Program.exec_done_iff.mp exec).1
  · exact ⟨_, [], rfl, Or.inl rfl⟩

/-- A question that creates no challenge. -/
def NoChallenge : Call → Prop
  | .createChallenge _ _ _ => False
  | _ => True

theorem permits_noChallenge : Permits NoChallenge call where
  engine := trivial
  time := trivial
  utcHour := trivial
  setNonce _ _ := trivial
  problem _ _ := trivial
  isBlocked := trivial
  redeemChallenge _ _ _ _ _ := trivial
  redeemApproval _ _ _ := trivial

theorem fetches_noChallenge {serverId : String} : Fetches NoChallenge serverId where
  cacheGet := trivial
  cacheSet _ := trivial
  listTools := trivial
  detector asked drift := by
    cases asked <;> first | exact drift.elim | trivial

/-- (RecordsChallenge entry call) means that an audit row is the CHALLENGE row of a call. -/
structure RecordsChallenge (entry : AuditEntry) (call : ToolCall) : Prop where
  eventType : entry.eventType = .challenge
  identityId : entry.identityId = call.key.identityId
  serverId : entry.serverId = some call.key.serverId
  toolName : entry.toolName = some call.key.toolName
  arguments : entry.payloadExtra.lookup "arguments" = some call.arguments

/-- (Challenges call events) means that the last thing a call did was to record a CHALLENGE
decision and to create the challenge for it, and that it created no other one.
-/
def Challenges (call : ToolCall) (events : List (Event Reply)) : Prop :=
  ∃ before entry seq hash reply,
    events = before ++ [⟨.write entry, .ok seq⟩, ⟨.createChallenge call.key hash seq, reply⟩]
    ∧ (∀ event ∈ before, NoChallenge event.call)
    ∧ RecordsChallenge entry call
    ∧ argumentsHash call.arguments = .ok hash

/-- An answer creates at most one challenge, and records the decision before it. -/
theorem Terminates.challenges {last : List (Event Reply)} (answered : Terminates call last)
    : (∀ event ∈ last, NoChallenge event.call) ∨ Challenges call last := by
  cases answered with
  | deny => exact Or.inl (by simp [NoChallenge])
  | unrecorded => exact Or.inl (by simp [NoChallenge])
  | hold engine versioned kind holds =>
      obtain ⟨recorded, rest, rfl, rfl | ⟨seq, hash, rfl, hashed, ⟨_, reply, rfl⟩ | ⟨band, reply, rfl⟩⟩⟩ :=
        exec_hold holds
      · exact Or.inl (by simp [NoChallenge])
      · exact Or.inl (by simp [NoChallenge])
      · rw [if_neg band] at kind
        exact Or.inr ⟨[_, _, _], _, seq, hash, reply, rfl, by simp [NoChallenge],
          ⟨kind, rfl, rfl, rfl, rfl⟩, hashed⟩

/-- A whole decision creates at most one challenge, as the last thing that it does. -/
theorem challenges_of_exec {events : List (Event Reply)} {outcome : Except Stop ClientMessage}
    (exec : (authorizeCall runtime session requestId params).run.Exec events outcome)
    : (∀ event ∈ events, NoChallenge event.call)
      ∨ Challenges (toolCallOf session requestId (params.getD [])) events := by
  obtain ⟨first, last, rfl, quiet, ended⟩ :=
    settles_authorizeCall rfl permits_noChallenge (fun _ => trivial) fetches_noChallenge events
      outcome exec
  have answer : (∀ event ∈ last, NoChallenge event.call)
      ∨ Challenges (toolCallOf session requestId (params.getD [])) last := by
    rcases outcome with (response | exn) | message
    · exact Terminates.challenges ended.1
    · cases (ended : last = [])
      exact Or.inl (by simp)
    · obtain ⟨_, _, _, _, _, rfl⟩ := ended
      exact Or.inl (by simp [NoChallenge])
  rcases answer with never | ⟨before, entry, seq, hash, reply, rfl, none, rest⟩
  · exact Or.inl (fun event member => (List.mem_append.mp member).elim (quiet event) (never event))
  · refine Or.inr ⟨first ++ before, entry, seq, hash, reply, by simp, ?_, rest⟩
    exact fun event member => (List.mem_append.mp member).elim (quiet event) (none event)

-----------------------------------------------------------------------------------------
-- What a decision asks about
-----------------------------------------------------------------------------------------

theorem permits_consults : Permits (Consults call) call where
  engine := Or.inl trivial
  time := Or.inl trivial
  utcHour := Or.inl trivial
  setNonce _ _ := Or.inl trivial
  problem _ _ := Or.inl (by simp [Concerns, policyErrorEntry])
  isBlocked := Or.inl ⟨rfl, rfl⟩
  redeemChallenge _ _ _ _ hashed := Or.inl ⟨rfl, hashed⟩
  redeemApproval _ _ hashed := Or.inl ⟨rfl, hashed⟩

theorem fetches_consults {serverId : String} : Fetches (Consults call) serverId where
  cacheGet := Or.inl trivial
  cacheSet _ := Or.inl trivial
  listTools := Or.inl trivial
  detector _ drift := Or.inr drift.ofDetector

theorem asks_hold (stepUpCapable : Bool) {decision : Decision} (riskScore : Int)
    (riskFactors : List RiskFactor) (kind : decision.eventType ≠ .allow)
    : (hold call stepUpCapable decision riskScore riskFactors).run.Asks (Concerns call) := by
  refine asks_bind (asks_demand _ (fun allow => absurd allow kind)) (fun seq => ?_)
  split
  · refine asks_ofExcept_bind (fun hash hashed => ?_)
    exact asks_bind (asks_demand _ trivial) (fun _ => asks_pure _)
  · split
    · refine asks_ofExcept_bind (fun hash hashed => ?_)
      exact asks_bind (asks_demand _ trivial) (fun _ => asks_pure _)
    · exact asks_pure _

/-- However a call is answered, the events of its answer are about it. Even a denial under the
event type of an ALLOW row would record the call.
-/
theorem Terminates.concerns {last : List (Event Reply)} (answered : Terminates call last)
    (present : call.arguments ≠ .null)
    : ∀ event ∈ last, Concerns call event.call := by
  cases answered with
  | deny eventType reason matchedRules riskScore riskFactors counted engine seq =>
      simp [Concerns, denyEntry, present, Dict.lookup_cons]
  | hold engine versioned kind holds =>
      have asked := holds.asks (asks_hold _ _ _ (by rw [kind]; split <;> simp))
      intro event member
      rcases List.mem_cons.mp member with rfl | member
      · trivial
      · rcases List.mem_cons.mp member with rfl | member
        · trivial
        · rcases List.mem_cons.mp member with rfl | member
          · trivial
          · exact asked event member
  | unrecorded engine risk approvalId challengeId exn =>
      simp only [List.mem_cons, List.not_mem_nil, or_false, forall_eq_or_imp, forall_eq]
      exact ⟨trivial, fun _ => ⟨rfl, rfl, rfl, lookup_allowEntry _ _ _ _⟩, trivial⟩

theorem Recorded.concerns {last : List (Event Reply)} (recorded : Recorded call last)
    : ∀ event ∈ last, Concerns call event.call := by
  obtain ⟨engine, risk, approvalId, challengeId, seq, rfl⟩ := recorded
  simp only [List.mem_cons, List.not_mem_nil, or_false, forall_eq_or_imp, forall_eq]
  exact ⟨trivial, fun _ => ⟨rfl, rfl, rfl, lookup_allowEntry _ _ _ _⟩⟩

/-- The whole decision of a request asks about its normalized name and arguments only. -/
theorem consults_of_exec {events : List (Event Reply)} {outcome : Except Stop ClientMessage}
    (exec : (authorizeCall runtime session requestId params).run.Exec events outcome)
    : ∀ event ∈ events, Consults (toolCallOf session requestId (params.getD [])) event.call := by
  have present : (toolCallOf session requestId (params.getD [])).arguments ≠ .null :=
    orEmpty_ne_null _
  obtain ⟨first, last, rfl, quiet, ended⟩ :=
    settles_authorizeCall rfl permits_consults (fun _ => Or.inl ⟨rfl, rfl⟩) fetches_consults
      events outcome exec
  intro event member
  rcases List.mem_append.mp member with early | late
  · exact quiet event early
  · cases outcome with
    | ok message => exact Or.inl (Recorded.concerns ended event late)
    | error stop =>
        cases stop with
        | raised exn =>
            cases (ended : last = [])
            cases late
        | respond response => exact Or.inl (Terminates.concerns ended.1 present event late)

end

end Interceptor

end SecureMcp
