import SecureMcp.Decisions.RoundTrip
import SecureMcp.Interceptor.Bands

/-! The score of a call against the rows of its decision. Every answer after the score is recorded
with it, except that of a call whose arguments are rejected.
-/

namespace SecureMcp

open Interaction

namespace Interceptor

open Coroutine

/-- (Carries risk entry) means that a row has a score, and in its payload the factors of it when
there are any.
-/
structure Carries (risk : Int × List RiskFactor) (entry : AuditEntry) : Prop where
  score : entry.riskScore = some risk.1
  factors :
    risk.2 ≠ []
    → entry.payloadExtra.lookup "risk_factors" = some (.arr (risk.2.map RiskFactor.toJson))

/-- A row that says how a call was decided. -/
def OfDecision (entry : AuditEntry) : Prop :=
  DecisionExplainer.outcomes entry.eventType ≠ none

/-- The audit log took the row of a decision. -/
def Written (entry : AuditEntry) (seq : Nat) (events : List (Event Reply)) : Prop :=
  ⟨.write entry, .ok seq⟩ ∈ events ∧ OfDecision entry

/-- (ScoreRecorded risk events outcome) means that the row of a call's decision carries its score:
a call that is forwarded has a row, so has a decision that names one, and every row of a decision
carries the score.
-/
structure ScoreRecorded (risk : Int × List RiskFactor) (events : List (Event Reply))
    (outcome : Except Exn Outcome)
    : Prop where
  carried : ∀ entry seq, Written entry seq events → Carries risk entry
  forwarded : ∀ message, outcome = .ok (.forward message) → ∃ entry seq, Written entry seq events
  answered : ∀ response sent auditId,
    outcome = .ok (.respond response)
    → response.data = some sent
    → sent.auditId = some auditId
    → ∃ entry seq, Written entry seq events ∧ auditId = toString seq

/-- (Refuses runtime call schema) means that validation refuses a call under a schema: there is
none, or the arguments do not conform to it.
-/
def Refuses (runtime : Runtime) (call : ToolCall) (schema : Json) : Prop :=
  schema = .null ∨ ∃ error, ParamValidator.validate runtime call.arguments schema = .ok (some error)

/-- (Rejected … call events) means that validation refuses a call under the schema that it looked
up, and that the audit log takes the row of it.
-/
def Rejected (runtime : Runtime) (session : Session) (call : ToolCall) (events : List (Event Reply))
    : Prop :=
  ∃ before fetched after schema,
    events = before ++ (fetched ++ after)
    ∧ (inputSchemaFor runtime session call.key.toolName).run.Exec fetched (.ok schema)
    ∧ Refuses runtime call schema
    ∧ ∃ entry seq, ⟨.write entry, .ok seq⟩ ∈ after

-----------------------------------------------------------------------------------------
-- The rows
-----------------------------------------------------------------------------------------

theorem carries_deny (call : ToolCall) (eventType : EventType) (reason : String)
    (matchedRules : List String) (risk : Int × List RiskFactor)
    : Carries risk (denyEntry call.key eventType reason matchedRules (some risk.1) (some risk.2)
        call.arguments) := by
  obtain ⟨score, factors⟩ := risk
  refine ⟨rfl, fun present => ?_⟩
  obtain ⟨factor, rest, rfl⟩ := List.exists_cons_of_ne_nil present
  by_cases absent : call.arguments = .null <;>
    simp [denyEntry, riskFactorsField, absent, List.lookup_cons]

theorem carries_riskTerminal (call : ToolCall) (eventType : EventType) (reason : String)
    (risk : Int × List RiskFactor)
    : Carries risk (riskTerminalEntry call.key eventType reason call.arguments risk.1 risk.2) :=
  ⟨rfl, fun _ => rfl⟩

theorem carries_allow (call : ToolCall) (version : Int) (risk : Int × List RiskFactor)
    (approvalId challengeId : Option String)
    : Carries risk (allowEntry call.key version call.arguments (some risk.1) (some risk.2)
        approvalId challengeId) := by
  obtain ⟨score, factors⟩ := risk
  refine ⟨rfl, fun present => ?_⟩
  obtain ⟨factor, rest, rfl⟩ := List.exists_cons_of_ne_nil present
  simp [allowEntry, riskFactorsField, List.lookup_cons]

/-- A row without a score carries none. -/
theorem not_carries_of_none {risk : Int × List RiskFactor} {entry : AuditEntry}
    (unscored : entry.riskScore = none)
    : ¬ Carries risk entry := by
  intro carries
  rw [carries.score] at unscored
  cases unscored

-----------------------------------------------------------------------------------------
-- What happens around the score
-----------------------------------------------------------------------------------------

/-- A question that is neither about a score nor about a schema. -/
def Aside : Call → Prop
  | .score _ _ _ | .cacheGet _ => False
  | _ => True

/-- A question that is not about a schema. -/
def NoLookup : Call → Prop
  | .cacheGet _ => False
  | _ => True

theorem Aside.noLookup {asked : Call} (aside : Aside asked) : NoLookup asked := by
  cases asked <;> first | exact aside.elim | trivial

/-- A question that is about neither, and records no decision either. -/
def Preliminary : Call → Prop
  | .score _ _ _ | .cacheGet _ => False
  | .write entry => ¬ OfDecision entry
  | _ => True

theorem Preliminary.aside {asked : Call} (silent : Preliminary asked) : Aside asked := by
  cases asked <;> first | exact silent.elim | trivial

theorem permits_preliminary {call : ToolCall} : Permits Preliminary call where
  engine := trivial
  time := trivial
  utcHour := trivial
  setNonce _ _ := trivial
  problem _ _ := by simp [Preliminary, OfDecision, policyErrorEntry, DecisionExplainer.outcomes]
  isBlocked := trivial
  redeemChallenge _ _ _ _ _ := trivial
  redeemApproval _ _ _ := trivial

/-- The rows of a drift check decide no call. -/
theorem preliminary_of_driftCheck {asked : Call} (drift : asked.OfDriftCheck) : Preliminary asked := by
  cases asked with
  | write entry =>
      intro decides
      refine decides ?_
      simp only [Call.OfDriftCheck, EventType.ofDrift, List.mem_cons, List.not_mem_nil, or_false]
        at drift
      rcases drift with kind | kind | kind | kind | kind <;> rw [kind] <;> rfl
  | selectBaselines | commit => trivial
  | _ => cases drift

theorem not_written_of_preliminary {entry : AuditEntry} {seq : Nat} {events : List (Event Reply)}
    (silent : ∀ event ∈ events, Preliminary event.call)
    : ¬ Written entry seq events := by
  intro ⟨member, decides⟩
  exact silent _ member decides

/-- What the events before it do not write is written by the rest. -/
theorem written_append_iff {entry : AuditEntry} {seq : Nat} {first rest : List (Event Reply)}
    (undecided : ∀ entry seq, ¬ Written entry seq first)
    : Written entry seq (first ++ rest) ↔ Written entry seq rest := by
  refine ⟨?_, fun ⟨member, decides⟩ => ⟨List.mem_append_right _ member, decides⟩⟩
  rintro ⟨member, decides⟩
  rcases List.mem_append.mp member with early | late
  · exact (undecided _ _ ⟨early, decides⟩).elim
  · exact ⟨late, decides⟩

/-- Only what is written matters. -/
theorem ScoreRecorded.congr {risk : Int × List RiskFactor} {events others : List (Event Reply)}
    {outcome : Except Exn Outcome} (recorded : ScoreRecorded risk events outcome)
    (same : ∀ entry seq, Written entry seq events ↔ Written entry seq others)
    : ScoreRecorded risk others outcome where
  carried entry seq written := recorded.carried entry seq ((same entry seq).mpr written)
  forwarded message ended := by
    obtain ⟨entry, seq, written⟩ := recorded.forwarded message ended
    exact ⟨entry, seq, (same entry seq).mp written⟩
  answered response sent auditId ended data named := by
    obtain ⟨entry, seq, written, number⟩ := recorded.answered response sent auditId ended data named
    exact ⟨entry, seq, (same entry seq).mp written, number⟩

theorem scoreRecorded_append_iff {risk : Int × List RiskFactor} {first rest : List (Event Reply)}
    {outcome : Except Exn Outcome} (undecided : ∀ entry seq, ¬ Written entry seq first)
    : ScoreRecorded risk (first ++ rest) outcome ↔ ScoreRecorded risk rest outcome :=
  ⟨fun recorded => recorded.congr (fun _ _ => written_append_iff undecided),
    fun recorded => recorded.congr (fun _ _ => (written_append_iff undecided).symm)⟩

section

variable {runtime : Runtime} {session : Session} {call : ToolCall} {toolName : String}

/-- A lookup of a schema asks the cache first, and once. -/
theorem exec_inputSchemaFor {fetched : List (Event Reply)} {found : Except Exn Json}
    (exec : (inputSchemaFor runtime session toolName).run.Exec fetched found)
    : ∃ reply rest,
        fetched = ⟨.cacheGet session.serverId, reply⟩ :: rest
        ∧ ∀ event ∈ rest, Preliminary event.call := by
  obtain ⟨reply, rest, rfl, ⟨cached, rfl, looking⟩ | ⟨_, _, rfl, _⟩⟩ := exec_demand_bind exec
  · refine ⟨_, rest, rfl, ?_⟩
    cases cached with
    | some tools =>
        obtain ⟨rfl, _⟩ := Program.exec_done_iff.mp looking
        simp
    | none =>
        refine looking.asks (asks_bind ?_ (fun refetched => ?_))
        · refine asks_bind (asks_attempt ?_) (fun refetched => asks_pure _)
          refine asks_bind (asks_demand _ trivial) (fun result => ?_)
          refine asks_bind (asks_ofExcept _) (fun tools => ?_)
          refine asks_bind ((DriftDetector.asks_check _ _ _ _).mono
            (fun _ => preliminary_of_driftCheck)) (fun _ => ?_)
          exact asks_bind (asks_demand _ trivial) (fun _ => asks_pure _)
        · cases refetched <;> exact asks_pure _
  · exact ⟨_, [], rfl, by simp⟩

/-- No lookup decides a call. -/
theorem not_written_of_lookup {fetched : List (Event Reply)} {found : Except Exn Json}
    (exec : (inputSchemaFor runtime session toolName).run.Exec fetched found) (entry : AuditEntry)
    (seq : Nat)
    : ¬ Written entry seq fetched := by
  obtain ⟨reply, rest, rfl, silent⟩ := exec_inputSchemaFor exec
  rintro ⟨member, decides⟩
  rcases List.mem_cons.mp member with impossible | later
  · cases impossible
  · exact silent _ later decides

/-- No lookup asks for a score. -/
theorem noScore_of_lookup {fetched : List (Event Reply)} {found : Except Exn Json}
    (exec : (inputSchemaFor runtime session toolName).run.Exec fetched found)
    : ∀ event ∈ fetched, NoScore event.call :=
  exec.asks (asks_inputSchemaFor _ _ _ fetches_noScore)

/-- Where the first schema lookup of some events stands, every other one does. -/
theorem lookup_unique {first before fetched others last after : List (Event Reply)}
    {found result : Except Exn Json} (aside : ∀ event ∈ first, Aside event.call)
    (asideLast : ∀ event ∈ last, Aside event.call)
    (exec : (inputSchemaFor runtime session toolName).run.Exec fetched found)
    (another : (inputSchemaFor runtime session toolName).run.Exec others result)
    (same : first ++ (fetched ++ last) = before ++ (others ++ after))
    : result = found ∧ after = last := by
  obtain ⟨reply, rest, rfl, silent⟩ := exec_inputSchemaFor exec
  obtain ⟨answer, more, rfl, _⟩ := exec_inputSchemaFor another
  have asideRest : ∀ event ∈ rest ++ last, Aside event.call := by
    intro event member
    rcases List.mem_append.mp member with early | late
    · exact (silent event early).aside
    · exact asideLast event late
  have notAside : ¬ Aside (.cacheGet session.serverId) := id
  obtain ⟨_, sameReply, sameRest⟩ :=
    (List.append_cons_inj_of_notMem (fun member => notAside (aside _ member))
      (fun member => notAside (asideRest _ member))).mp same
  cases sameReply
  -- both lookups read the same events, so neither stops before the other
  rcases List.append_eq_append_iff.mp sameRest with ⟨extra, rfl, rfl⟩ | ⟨extra, rfl, rfl⟩
  · obtain ⟨rfl, rfl⟩ := exec.finished another
    exact ⟨rfl, rfl⟩
  · obtain ⟨rfl, rfl⟩ := another.finished exec
    exact ⟨rfl, rfl⟩

/-- What happens before the schema is looked up does not reject a call. -/
theorem rejected_append_iff {first rest : List (Event Reply)}
    (others : ∀ event ∈ first, NoLookup event.call)
    : Rejected runtime session call (first ++ rest) ↔ Rejected runtime session call rest := by
  refine ⟨?_, ?_⟩
  · rintro ⟨before, fetched, after, schema, same, exec, refuses, taken⟩
    obtain ⟨reply, more, rfl, _⟩ := exec_inputSchemaFor exec
    rcases List.append_eq_append_iff.mp same with ⟨extra, rfl, rfl⟩ | ⟨extra, rfl, split⟩
    · exact ⟨extra, _, after, schema, rfl, exec, refuses, taken⟩
    · cases extra with
      | nil => exact ⟨[], _, after, schema, by simpa using split.symm, exec, refuses, taken⟩
      | cons event extra =>
          obtain ⟨rfl, _⟩ := List.cons.inj split
          exact (others ⟨.cacheGet session.serverId, reply⟩ (by simp)).elim
  · rintro ⟨before, fetched, after, schema, rfl, exec, refuses, taken⟩
    exact ⟨first ++ before, fetched, after, schema, by simp, exec, refuses, taken⟩

/-- Events without a schema lookup reject no call. -/
theorem not_rejected_of_noLookup {events : List (Event Reply)}
    (others : ∀ event ∈ events, NoLookup event.call)
    : ¬ Rejected runtime session call events := by
  rintro ⟨before, fetched, after, schema, rfl, exec, _⟩
  obtain ⟨reply, more, rfl, _⟩ := exec_inputSchemaFor exec
  exact (others ⟨.cacheGet session.serverId, reply⟩ (by simp)).elim

/-- A call is rejected by the lookup that it made, if the audit log took a row after it. -/
theorem rejected_iff {fetched last : List (Event Reply)} {found : Except Exn Json}
    (exec : (inputSchemaFor runtime session call.key.toolName).run.Exec fetched found)
    (aside : ∀ event ∈ last, Aside event.call)
    : Rejected runtime session call (fetched ++ last)
      ↔ (∃ schema, found = .ok schema ∧ Refuses runtime call schema)
        ∧ ∃ entry seq, ⟨.write entry, .ok seq⟩ ∈ last := by
  refine ⟨?_, ?_⟩
  · rintro ⟨before, others, after, schema, same, another, refuses, taken⟩
    obtain ⟨rfl, rfl⟩ := @lookup_unique _ _ _ [] _ _ _ _ _ _ _ (by simp) aside exec another same
    exact ⟨⟨schema, rfl, refuses⟩, taken⟩
  · rintro ⟨⟨schema, rfl, refuses⟩, taken⟩
    exact ⟨[], fetched, last, schema, rfl, exec, refuses, taken⟩

-----------------------------------------------------------------------------------------
-- How a scored call ends
-----------------------------------------------------------------------------------------

variable {risk : Int × List RiskFactor} {events : List (Event Reply)}
  {outcome : Except Stop ErrorResponse}

/-- A denial writes one row, which its decision names if the audit log took it. -/
theorem exec_deny_row {eventType : EventType} {reason : String} {matchedRules : List String}
    {riskScore : Option Int} {riskFactors : Option (List RiskFactor)}
    (exec : (deny call eventType reason matchedRules riskScore riskFactors).run.Exec events outcome)
    : ∃ response counted, ∃ engine : PolicyEngine, ∃ recorded,
        outcome = .ok response
        ∧ events = [
          ⟨.popPending call.requestId, ()⟩,
          ⟨.recordDenial call.key.identityId, counted⟩,
          ⟨.engine, engine⟩,
          ⟨.write (denyEntry call.key eventType reason matchedRules riskScore riskFactors
            call.arguments), recorded⟩
        ]
        ∧ ∀ sent, response.data = some sent → sent.auditId = recorded.toOption.map toString := by
  obtain ⟨_, _, rfl, counting⟩ := exec_ask_bind_iff.mp exec
  obtain ⟨counted, _, rfl, reading⟩ := exec_guarded_demand_bind counting
  obtain ⟨engine, _, rfl, writing⟩ := exec_ask_bind_iff.mp reading
  obtain ⟨recorded, _, rfl, ended⟩ := exec_guarded_demand_bind writing
  obtain ⟨rfl, rfl⟩ := Program.exec_done_iff.mp ended
  refine ⟨_, counted, engine, recorded, rfl, rfl, ?_⟩
  rintro sent same
  cases same
  rfl

/-- How an answer to a scored call is recorded. -/
def Recounts (risk : Int × List RiskFactor) : Stop → List (Event Reply) → Prop
  | .raised _, last => last = []
  | .respond response, last =>
      (∀ event ∈ last, Aside event.call) ∧ ScoreRecorded risk last (.ok (.respond response))

theorem recounts_deny {eventType : EventType} {reason : String} {matchedRules : List String}
    (denies : DecisionExplainer.outcomes eventType = some .deny)
    (exec : (deny call eventType reason matchedRules (some risk.1) (some risk.2)).run.Exec events
      outcome)
    : ∃ response, outcome = .ok response ∧ Recounts risk (.respond response) events := by
  obtain ⟨response, counted, engine, recorded, rfl, rfl, named⟩ := exec_deny_row exec
  refine ⟨response, rfl, by simp [Aside], ?_, ?_, ?_⟩
  · rintro entry seq ⟨member, _⟩
    simp only [List.mem_cons, List.not_mem_nil, or_false] at member
    rcases member with same | same | same | same <;> cases same
    exact carries_deny call eventType reason matchedRules risk
  · intro message impossible
    cases impossible
  · intro answer sent auditId same data number
    cases same
    rw [named sent data] at number
    cases recorded with
    | error exn => cases number
    | ok seq =>
        cases number
        have last {one two three four : Event Reply} : four ∈ [one, two, three, four] := by simp
        refine ⟨_, seq, ⟨last, ?_⟩, rfl⟩
        intro undecided
        cases denies.symm.trans undecided

/-- A held call has the row of its decision, whatever its approval or its challenge comes to. -/
theorem scoreRecorded_hold {stepUpCapable : Bool} {decision : Decision}
    {held : Except Exn Decision} {response : ErrorResponse}
    (decides : DecisionExplainer.outcomes decision.eventType ≠ none)
    (holds : (hold call stepUpCapable decision risk.1 risk.2).run.Exec events held)
    (answers : response.data = held.toOption)
    : (∀ event ∈ events, Aside event.call)
      ∧ ScoreRecorded risk events (.ok (.respond response)) := by
  obtain ⟨recorded, rest, same, created⟩ := exec_hold holds
  have others : ∀ event ∈ rest,
      Aside event.call ∧ ∀ entry seq, event ≠ ⟨.write entry, .ok seq⟩ := by
    rcases created with rfl | ⟨_, _, _, _, ⟨_, _, rfl⟩ | ⟨_, _, rfl⟩⟩
    · simp
    · simp [Aside]
    · simp [Aside]
  refine ⟨?_, ?_, ?_, ?_⟩
  · rw [same]
    intro event member
    rcases List.mem_cons.mp member with rfl | later
    · trivial
    · exact (others event later).1
  · rw [same]
    rintro entry seq ⟨member, _⟩
    rcases List.mem_cons.mp member with written | later
    · cases written
      exact carries_riskTerminal call decision.eventType decision.reason risk
    · exact ((others _ later).2 entry seq rfl).elim
  · intro message impossible
    cases impossible
  · intro answer sent auditId ended data number
    cases ended
    rw [answers] at data
    cases held with
    | error exn => cases data
    | ok final =>
        cases data
        obtain ⟨seq, approvalId, challengeId, written, rfl⟩ := hold_ok holds
        cases number
        exact ⟨_, seq, ⟨written, decides⟩, rfl⟩

theorem recounts_riskTerminal {kind : DecisionOutcome}
    (exec : (riskTerminal call kind risk.1 risk.2).run.Exec events outcome)
    : ∃ response, outcome = .ok response ∧ Recounts risk (.respond response) events := by
  unfold riskTerminal at exec
  dsimp only at exec
  split at exec
  · exact recounts_deny rfl exec
  · obtain ⟨_, _, rfl, reading⟩ := exec_ask_bind_iff.mp exec
    obtain ⟨engine, _, rfl, versioning⟩ := exec_ask_bind_iff.mp reading
    obtain ⟨versioned, _, rfl, holding⟩ := exec_ask_bind_iff.mp versioning
    obtain ⟨exchanges, _, held, rfl, holds, ended⟩ := exec_attempt_bind_iff.mp holding
    have answered {response : ErrorResponse} (answers : response.data = held.toOption)
        : Recounts risk (.respond response)
            (⟨.popPending call.requestId, ()⟩ :: ⟨.engine, engine⟩ :: ⟨.engine, versioned⟩
              :: (exchanges ++ [])) := by
      obtain ⟨aside, recorded⟩ := scoreRecorded_hold
        (by dsimp only; split <;> simp [DecisionExplainer.outcomes]) holds answers
      refine ⟨by simpa [Aside] using aside, ?_⟩
      rw [List.append_nil]
      have silent : ∀ event ∈ [⟨.popPending call.requestId, ()⟩, ⟨.engine, engine⟩,
          ⟨.engine, versioned⟩], Preliminary (event : Event Reply).call := by
        simp [Preliminary]
      exact (scoreRecorded_append_iff (fun _ _ => not_written_of_preliminary silent)).mpr recorded
    cases held <;>
      obtain ⟨rfl, rfl⟩ := Program.exec_done_iff.mp ended <;>
      exact ⟨_, rfl, answered rfl⟩

-----------------------------------------------------------------------------------------
-- After the score
-----------------------------------------------------------------------------------------

/-- (After … risk events ended) means that what happened after a score recorded it unless
validation rejected the call.
-/
def After (runtime : Runtime) (session : Session) (call : ToolCall) (risk : Int × List RiskFactor)
    (events : List (Event Reply)) (ended : Except Stop ClientMessage)
    : Prop :=
  (∀ event ∈ events, NoScore event.call)
  ∧ (ScoreRecorded risk events (settled ended) ↔ ¬ Rejected runtime session call events)

theorem Aside.noScore {asked : Call} (aside : Aside asked) : NoScore asked := by
  cases asked <;> first | exact aside.elim | trivial

variable {ended : Except Stop ClientMessage}

theorem after_append {first : List (Event Reply)} (silent : ∀ event ∈ first, Preliminary event.call)
    (after : After runtime session call risk events ended)
    : After runtime session call risk (first ++ events) ended := by
  refine ⟨?_, ?_⟩
  · intro event member
    rcases List.mem_append.mp member with early | late
    · exact (silent event early).aside.noScore
    · exact after.1 event late
  · rw [scoreRecorded_append_iff (fun _ _ => not_written_of_preliminary silent),
      rejected_append_iff (fun event member => (silent event member).aside.noLookup)]
    exact after.2

/-- Nothing is to be recorded where nothing was decided. -/
theorem scoreRecorded_of_raised {exn : Exn} (silent : ∀ event ∈ events, Preliminary event.call)
    : ScoreRecorded risk events (.error exn) where
  carried _ _ written := (not_written_of_preliminary silent written).elim
  forwarded _ impossible := by cases impossible
  answered _ _ _ impossible := by cases impossible

theorem after_of_recounts (stop : Stop) (last : List (Event Reply))
    (recounts : Recounts risk stop last)
    : After runtime session call risk last (.error stop) := by
  cases stop with
  | raised exn =>
      cases (recounts : last = [])
      refine ⟨by simp, fun _ => not_rejected_of_noLookup (by simp), fun _ => ?_⟩
      exact scoreRecorded_of_raised (by simp)
  | respond response =>
      obtain ⟨aside, recorded⟩ := recounts
      exact ⟨fun event member => (aside event member).noScore,
        fun _ => not_rejected_of_noLookup (fun event member => (aside event member).noLookup),
        fun _ => recorded⟩

theorem settles_enforceConditions_scored (attrs : Abac.Attributes)
    (conditions : List Abac.Condition)
    : Settles Preliminary Quietly (Recounts risk)
        (enforceConditions call attrs (some risk.1) (some risk.2) conditions) := by
  induction conditions with
  | nil => exact .pure ()
  | cons condition rest ih =>
      have problems : Settles Preliminary Quietly (Recounts risk)
          (recordProblem call condition (conditionVerdict condition attrs).2) := by
        cases (conditionVerdict condition attrs).2 with
        | none => exact .pure ()
        | some problem =>
            exact .bind (.attempt (asks_demand _ (permits_preliminary.problem _ _))) (fun _ => .pure ())
      have reads : Settles Preliminary Quietly (Recounts risk) (currentEngine : Stage PolicyEngine) :=
        .ask (@permits_preliminary call).engine
      refine .bind problems (fun _ => ?_)
      split
      · exact ih
      · exact .bind reads (fun engine => .finish (fun _ _ exec => recounts_deny rfl exec))

/-- The last stage records the score with the ALLOW row, or records nothing. -/
theorem after_allowStage {approvalId challengeId : Option String} {message : ClientMessage}
    (exec : (allowStage call (some risk) approvalId challengeId
      >>= fun _ => (pure message : Stage ClientMessage)).run.Exec events ended)
    : (∀ event ∈ events, Aside event.call) ∧ ScoreRecorded risk events (settled ended) := by
  cases ended with
  | ok forwarded =>
      obtain ⟨recording, _, _, rfl, passed, last⟩ := exec_bind_ok_iff.mp exec
      obtain ⟨rfl, _⟩ := Program.exec_done_iff.mp last
      obtain ⟨engine, seq, rfl⟩ := exec_allowStage_ok passed
      refine ⟨by simp [Aside], ?_, ?_, ?_⟩
      · rintro entry other ⟨member, _⟩
        simp only [List.append_nil, List.mem_cons, List.not_mem_nil, or_false] at member
        rcases member with same | same <;> cases same
        exact carries_allow call engine.version risk approvalId challengeId
      · intro message _
        refine ⟨_, seq, List.mem_cons_of_mem _ List.mem_cons_self, ?_⟩
        simp [OfDecision, allowEntry, DecisionExplainer.outcomes]
      · intro response sent auditId impossible
        cases impossible
  | error stop =>
      rcases exec_bind_error_iff.mp exec with stopped | ⟨_, _, _, _, _, impossible⟩
      · obtain ⟨engine, _, rfl, writing⟩ := exec_ask_bind_iff.mp stopped
        obtain ⟨reply, _, rfl, last⟩ := exec_guarded_demand_bind writing
        cases reply with
        | ok seq =>
            obtain ⟨_, impossible⟩ := Program.exec_done_iff.mp last
            cases impossible
        | error exn =>
            obtain ⟨_, same, raised | ⟨response, rfl, returned⟩⟩ := exec_finish_iff.mp last
            · obtain ⟨_, _, _, impossible⟩ := exec_ask_bind_iff.mp raised
              obtain ⟨_, impossible⟩ := Program.exec_done_iff.mp impossible
              cases impossible
            · cases same
              obtain ⟨_, _, rfl, done⟩ := exec_ask_bind_iff.mp returned
              obtain ⟨rfl, answer⟩ := Program.exec_done_iff.mp done
              cases answer
              refine ⟨by simp [Aside], ?_, ?_, ?_⟩
              · rintro entry other ⟨member, _⟩
                simp at member
              · intro message impossible
                cases impossible
              · intro response sent auditId same data
                cases same
                cases data
      · obtain ⟨_, impossible⟩ := Program.exec_done_iff.mp impossible
        cases impossible

/-- What happens after a lookup records the score unless validation refuses the call, and the audit
log takes a row of it.
-/
theorem after_lookup {fetched : List (Event Reply)} {found : Except Exn Json}
    (looked : (inputSchemaFor runtime session call.key.toolName).run.Exec fetched found)
    (aside : ∀ event ∈ events, Aside event.call)
    (recorded : ScoreRecorded risk events (settled ended)
      ↔ ¬ ((∃ schema, found = .ok schema ∧ Refuses runtime call schema)
        ∧ ∃ entry seq, ⟨.write entry, .ok seq⟩ ∈ events))
    : After runtime session call risk (fetched ++ events) ended := by
  refine ⟨?_, ?_⟩
  · intro event member
    rcases List.mem_append.mp member with early | late
    · exact noScore_of_lookup looked event early
    · exact (aside event late).noScore
  · rw [scoreRecorded_append_iff (not_written_of_lookup looked), rejected_iff looked aside]
    exact recorded

/-- A refusal leaves the score out of its row. -/
theorem after_denyValidation {α : Type} {reason : String} {next : α → Stage ClientMessage}
    {fetched : List (Event Reply)} {schema : Json}
    (looked : (inputSchemaFor runtime session call.key.toolName).run.Exec fetched (.ok schema))
    (refuses : Refuses runtime call schema)
    (exec : ((finish (denyValidation call reason) : Stage α) >>= next).run.Exec events ended)
    : After runtime session call risk (fetched ++ events) ended := by
  obtain ⟨stop, rfl, raised | ⟨response, rfl, denied⟩⟩ := exec_finish_bind exec
  · obtain ⟨_, _, _, _, impossible, _⟩ := exec_deny_row raised
    cases impossible
  · obtain ⟨_, counted, engine, recorded, answer, rfl, named⟩ := exec_deny_row denied
    cases answer
    refine after_lookup looked (by simp [Aside]) ?_
    cases recorded with
    | error exn =>
        refine ⟨?_, fun _ => ⟨?_, ?_, ?_⟩⟩
        · rintro _ ⟨_, entry, seq, member⟩
          simp at member
        · rintro entry seq ⟨member, _⟩
          simp at member
        · intro message impossible
          cases impossible
        · intro answer sent auditId same data number
          cases same
          rw [named sent data] at number
          cases number
    | ok seq =>
        have last {one two three four : Event Reply} : four ∈ [one, two, three, four] := by simp
        refine ⟨fun scored => ?_, fun accepted => ?_⟩
        · have decides : OfDecision (denyEntry call.key .denyValidation
              ("invalid arguments for " ++ pyRepr call.key.toolName ++ ": " ++ reason)
              ["param_validator"] none none call.arguments) := by
            simp [OfDecision, denyEntry, DecisionExplainer.outcomes]
          have carries := scored.carried _ seq ⟨last, decides⟩
          exact (not_carries_of_none rfl carries).elim
        · exact (accepted ⟨⟨schema, rfl, refuses⟩, _, seq, last⟩).elim

/-- Validation, and what it lets through, after a score. -/
theorem after_validationStage {approvalId challengeId : Option String} {message : ClientMessage}
    (exec : (validationStage runtime session call >>= fun _ =>
      allowStage call (some risk) approvalId challengeId
        >>= fun _ => (pure message : Stage ClientMessage)).run.Exec events ended)
    : After runtime session call risk events ended := by
  have raises {fetched : List (Event Reply)} {found : Except Exn Json} {exn : Exn}
      (looked : (inputSchemaFor runtime session call.key.toolName).run.Exec fetched found)
      : After runtime session call risk (fetched ++ []) (.error (.raised exn)) := by
    refine after_lookup looked (by simp) ⟨?_, fun _ => scoreRecorded_of_raised (by simp)⟩
    rintro _ ⟨_, entry, seq, member⟩
    cases member
  unfold validationStage at exec
  rw [bind_assoc] at exec
  rcases exec_mapStop_bind exec with ⟨fetched, last, schema, rfl, looked, exec⟩ | ⟨exn, looked, rfl⟩
  · split at exec
    · next missing => exact after_denyValidation looked (Or.inl missing) exec
    · next present =>
        rw [bind_assoc] at exec
        rcases exec_mapStop_bind exec with
          ⟨_, last, error, rfl, validating, exec⟩ | ⟨exn, validating, rfl⟩
        · obtain ⟨rfl, verdict⟩ := Program.exec_done_iff.mp validating
          rw [List.nil_append]
          cases error with
          | some error => exact after_denyValidation looked (Or.inr ⟨error, verdict⟩) exec
          | none =>
              rw [pure_bind] at exec
              obtain ⟨aside, recorded⟩ := after_allowStage exec
              refine after_lookup looked aside ⟨fun _ => ?_, fun _ => recorded⟩
              rintro ⟨⟨_, same, missing | ⟨error, refused⟩⟩, _⟩ <;> cases same
              · exact present missing
              · rw [verdict] at refused
                cases refused
        · obtain ⟨rfl, _⟩ := Program.exec_done_iff.mp validating
          exact raises looked
  · rw [← List.append_nil events]
    exact raises looked

-----------------------------------------------------------------------------------------
-- The whole decision
-----------------------------------------------------------------------------------------

/-- (Scored … events ended) means that a score that was asked for is recorded unless validation
rejected the call.
-/
def Scored (runtime : Runtime) (session : Session) (call : ToolCall) (events : List (Event Reply))
    (ended : Except Stop ClientMessage)
    : Prop :=
  ∀ key arguments policy reply,
    ⟨.score key arguments policy, reply⟩ ∈ events
    → (ScoreRecorded (scoreOrMaximum reply) events (settled ended)
      ↔ ¬ Rejected runtime session call events)

theorem scored_append (first events : List (Event Reply)) (ended : Except Stop ClientMessage)
    (silent : ∀ event ∈ first, Preliminary event.call)
    (scored : Scored runtime session call events ended)
    : Scored runtime session call (first ++ events) ended := by
  intro key arguments policy reply asked
  rw [scoreRecorded_append_iff (fun _ _ => not_written_of_preliminary silent),
    rejected_append_iff (fun event member => (silent event member).aside.noLookup)]
  rcases List.mem_append.mp asked with early | late
  · exact (silent _ early).elim
  · exact scored key arguments policy reply late

theorem scored_of_noScore (unscored : ∀ event ∈ events, NoScore event.call)
    : Scored runtime session call events ended := by
  intro key arguments policy reply asked
  exact (unscored _ asked).elim

/-- An answer before the score asks for none. -/
theorem noScore_of_answers {stop : Stop} {last : List (Event Reply)}
    (answers : Answers call stop last)
    : ∀ event ∈ last, NoScore event.call := by
  cases stop with
  | raised exn =>
      cases (answers : last = [])
      simp
  | respond response =>
      obtain ⟨terminates, _⟩ := answers
      cases terminates with
      | deny => simp [NoScore]
      | unrecorded => simp [NoScore]
      | hold engine versioned kind holds =>
          obtain ⟨recorded, rest, rfl, rfl | ⟨_, _, _, _, ⟨_, _, rfl⟩ | ⟨_, _, rfl⟩⟩⟩ :=
            exec_hold holds <;>
            simp [NoScore]

theorem scored_of_answers (stop : Stop) (last : List (Event Reply))
    (answers : Answers call stop last)
    : Scored runtime session call last (.error stop) :=
  scored_of_noScore (noScore_of_answers answers)

/-- What follows a redeemed approval asks for no score. -/
theorem scored_of_approved {approvalId challengeId : Option String} {message : ClientMessage}
    (approval : Json)
    (exec : (approvalStage call approval >>= fun _ =>
      validationStage runtime session call >>= fun _ =>
        allowStage call none approvalId challengeId
          >>= fun _ => (pure message : Stage ClientMessage)).run.Exec events ended)
    : Scored runtime session call events ended := by
  have settles : Settles NoScore (fun _ => Recorded call) (Answers call)
      (approvalStage call approval >>= fun _ => validationStage runtime session call >>= fun _ =>
        allowStage call none approvalId challengeId
          >>= fun _ => (pure message : Stage ClientMessage)) := by
    refine .bind (settles_approvalStage permits_noScore _) (fun _ => ?_)
    refine .bind (settles_validationStage _ _ fetches_noScore) (fun _ => ?_)
    exact .andReturn (settles_allowStage _ _ _) _
  refine scored_of_noScore ?_
  obtain ⟨first, last, rfl, quiet, passed⟩ := settles events ended exec
  intro event member
  rcases List.mem_append.mp member with early | late
  · exact quiet event early
  · cases ended with
    | ok message =>
        obtain ⟨_, _, _, _, _, rfl⟩ := passed
        simp only [List.mem_cons, List.not_mem_nil, or_false] at late
        rcases late with rfl | rfl <;> trivial
    | error stop => exact noScore_of_answers passed event late

/-- What follows a score records it unless validation rejects the call. -/
theorem scored_of_scoringStage {conditions : List Abac.Condition} {attrs : Abac.Attributes}
    {stepUpVerified : Bool} {approvalId challengeId : Option String} {message : ClientMessage}
    (exec : (scoringStage call conditions attrs stepUpVerified >>= fun risk =>
      validationStage runtime session call >>= fun _ =>
        allowStage call (some risk) approvalId challengeId
          >>= fun _ => (pure message : Stage ClientMessage)).run.Exec events ended)
    : Scored runtime session call events ended := by
  unfold scoringStage at exec
  simp only [bind_assoc] at exec
  obtain ⟨engine, _, rfl, scoring⟩ := exec_ask_bind_iff.mp exec
  obtain ⟨reply, rest, rfl, deciding⟩ := exec_guarded_demand_bind scoring
  have after : After runtime session call (scoreOrMaximum reply) rest ended := by
    refine (settles_enforceConditions_scored _ _).leads (fun _ _ _ => after_append)
      after_of_recounts (fun _ events ended exec => ?_) deciding
    split at exec
    · rw [pure_bind] at exec
      exact after_validationStage exec
    · obtain ⟨stop, rfl, raised | ⟨response, rfl, answered⟩⟩ := exec_finish_bind exec
      · obtain ⟨_, impossible, _⟩ := recounts_riskTerminal raised
        cases impossible
      · obtain ⟨_, same, recounts⟩ := recounts_riskTerminal answered
        cases same
        exact after_of_recounts _ _ recounts
  intro key arguments policy other asked
  have same : other = reply := by
    rcases List.mem_cons.mp asked with impossible | asked
    · cases impossible
    · rcases List.mem_cons.mp asked with same | later
      · cases same
        rfl
      · exact (after.1 _ later).elim
  subst same
  let asking : List (Event Reply) :=
    [⟨.engine, engine⟩, ⟨.score call.key call.arguments engine.policy.risk, other⟩]
  have unwritten : ∀ entry seq, ¬ Written entry seq asking := by
    rintro entry seq ⟨member, _⟩
    simp [asking] at member
  have others : ∀ event ∈ asking, NoLookup event.call := by
    simp [asking, NoLookup]
  exact (scoreRecorded_append_iff unwritten).trans
    (after.2.trans (not_congr (rejected_append_iff others).symm))

/-- What follows the challenge of a call records its score unless validation rejects the call. -/
theorem scored_of_riskStage {conditions : List Abac.Condition} {attrs : Abac.Attributes}
    {stepUpVerified : Bool} {approval : Json} {approvalId challengeId : Option String}
    {message : ClientMessage}
    (exec : (riskStage call conditions attrs stepUpVerified approval >>= fun risk =>
      validationStage runtime session call >>= fun _ =>
        allowStage call risk approvalId challengeId
          >>= fun _ => (pure message : Stage ClientMessage)).run.Exec events ended)
    : Scored runtime session call events ended := by
  unfold riskStage at exec
  split at exec
  · simp only [bind_assoc, pure_bind] at exec
    exact scored_of_approved approval exec
  · simp only [bind_assoc, pure_bind] at exec
    exact scored_of_scoringStage exec

/-- A stage before the score leaves it to the rest. -/
theorem scored_leads {α : Type} {body : Stage α} {next : α → Stage ClientMessage}
    (early : Settles Preliminary Quietly (Answers call) body)
    (rest : ∀ value events ended,
      (next value).run.Exec events ended → Scored runtime session call events ended)
    (events : List (Event Reply)) (ended : Except Stop ClientMessage)
    (exec : (body >>= next).run.Exec events ended)
    : Scored runtime session call events ended :=
  early.leads scored_append scored_of_answers rest exec

/-- The whole decision of a call records its score unless validation rejected the call. -/
theorem scored_authorizeCall (requestId : RequestId) (params : Option Params)
    (exec : (authorizeCall runtime session requestId params).run.Exec events ended)
    : Scored runtime session (toolCallOf session requestId (params.getD [])) events ended := by
  have permits {call : ToolCall} : Permits Preliminary call := permits_preliminary
  refine scored_leads (settles_currentEngine permits) (fun engine => ?_) events ended exec
  refine scored_leads (settles_replayStage permits _ _ _) (fun _ => ?_)
  refine scored_leads (settles_rbacStage permits) (fun grant => ?_)
  refine scored_leads (settles_conditionAttributes permits _ _ _ _) (fun attrs => ?_)
  refine scored_leads (settles_enforceConditions permits _ _ _ _) (fun _ => ?_)
  refine scored_leads (settles_driftStage permits) (fun _ => ?_)
  refine scored_leads (settles_uncaught (asks_ofExcept _)) (fun challengeId => ?_)
  refine scored_leads (settles_challengeStage permits _ _ _) (fun stepUpVerified => ?_)
  refine scored_leads (settles_uncaught (asks_ofExcept _)) (fun approvalId => ?_)
  intro events ended exec
  exact scored_of_riskStage exec

end

/-- A computed score is recorded with the decision exactly when validation does not reject the call.
-/
theorem score_recorded_iff {runtime : Runtime} {session : Session} {requestId : RequestId}
    {params : Option Params} {events : List (Event Reply)} {outcome : Except Exn Outcome}
    {key : CallKey} {arguments : Json} {policy : RiskPolicy}
    {reply : Except Exn (Int × List RiskFactor)}
    (exec : (onClientMessage runtime session (.request requestId "tools/call" params)).run.Exec
      events outcome)
    (scored : ⟨.score key arguments policy, reply⟩ ∈ events)
    : ScoreRecorded (scoreOrMaximum reply) events outcome
      ↔ ¬ Rejected runtime session (toolCallOf session requestId (params.getD [])) events := by
  obtain ⟨_, rest, rfl, settling⟩ := exec_ask_bind_iff.mp exec
  obtain ⟨ended, ran, rfl⟩ := exec_settle_iff.mp settling
  refine scored_append [_] rest ended (by simp [Preliminary]) ?_ key arguments policy reply scored
  exact scored_authorizeCall requestId params ran

/-- Witness: a call that could not be scored is denied, and its row carries the risk that stands
for its score.
-/
theorem maximum_risk_recorded
    : ScoreRecorded maximumRisk (DecisionExplainer.mailProgram.play DecisionExplainer.unscored).1
        (DecisionExplainer.mailProgram.play DecisionExplainer.unscored).2 := by
  have scored : (⟨.score ⟨"agent", "mail", "send_mail"⟩ (.obj []) {}, .error .unavailable⟩
      : Event Reply) ∈ (DecisionExplainer.mailProgram.play DecisionExplainer.unscored).1 := by
    refine List.mem_of_getElem? (i := 5) ?_
    rfl
  refine (score_recorded_iff (Program.exec_play _ _) scored).mpr ?_
  refine not_rejected_of_noLookup ?_
  change ∀ event ∈ ([_, _, _, _, _, _, _, _, _, _] : List (Event Reply)), NoLookup event.call
  simp [NoLookup]

/-- Arguments that no tool of the server takes. -/
def strayArguments : Json :=
  .obj [("bcc", .str "eve")]

/-- The factor of a tool of the tier `high`. -/
def highTier : RiskFactor where
  factor := "tool_sensitivity"
  contribution := 30
  reason := some "'send_mail' is policy-tiered high"

/-- Replies with which a call is scored, and its tool takes no arguments. -/
def parameterless : (asked : Call) → Reply asked
  | .score _ _ _ => .ok (30, [highTier])
  | .cacheGet _ =>
      .ok (some [[("name", .str "send_mail"), ("inputSchema", .obj [("properties", .obj [])])]])
  | asked => permitted asked

/-- A call with a score of 30 is rejected by validation; neither its row nor the payload of it has
the score or its factor.
-/
theorem rejected_call_loses_score
    : ∃ events outcome entry seq,
        (onClientMessage DriftDetector.calm mailSession (sendCall strayArguments)).run.Exec events
          outcome
        ∧ ⟨.score ⟨"agent", "mail", "send_mail"⟩ strayArguments {}, .ok (30, [highTier])⟩ ∈ events
        ∧ Written entry seq events
        ∧ entry.eventType = .denyValidation
        ∧ entry.riskScore = none
        ∧ Json.getKey entry.payloadExtra "risk_factors" = .null
        ∧ ¬ ScoreRecorded (30, [highTier]) events outcome := by
  let program := (onClientMessage DriftDetector.calm mailSession (sendCall strayArguments)).run
  let entry := denyEntry ⟨"agent", "mail", "send_mail"⟩ .denyValidation
    "invalid arguments for 'send_mail': unknown argument field(s): ['bcc']" ["param_validator"]
    none none strayArguments
  have scored : (⟨.score ⟨"agent", "mail", "send_mail"⟩ strayArguments {}, .ok (30, [highTier])⟩
      : Event Reply) ∈ (program.play parameterless).1 :=
    List.mem_of_getElem? (i := 5) rfl
  have written : Written entry 1 (program.play parameterless).1 := by
    refine ⟨List.mem_of_getElem? (i := 10) ?_, ?_⟩
    · rfl
    · simp [entry, OfDecision, denyEntry, DecisionExplainer.outcomes]
  refine ⟨_, _, entry, 1, Program.exec_play parameterless program, scored, written, rfl, rfl, rfl,
    ?_⟩
  intro recorded
  exact not_carries_of_none rfl (recorded.carried entry 1 written)

end Interceptor

end SecureMcp
