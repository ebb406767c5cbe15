import SecureMcp.Decisions.Scored
import SecureMcp.Library.Tally

/-! The audit rows of decisions against the calls that were decided. A call is decided in one row at
most, the one that its answer names, and the rows of a run add up to what its clients were told.
-/

namespace SecureMcp

open Interaction

namespace Interceptor

open Coroutine

/-- The row of a decision, if the event is one that the audit log took. -/
def decisionRow : Event Reply → Option (AuditEntry × Nat)
  | ⟨.write entry, .ok seq⟩ =>
      if (DecisionExplainer.outcomes entry.eventType).isSome then some (entry, seq) else none
  | _ => none

def decisionRows (events : List (Event Reply)) : List (AuditEntry × Nat) :=
  events.filterMap decisionRow

/-- The row of a decision is asked for, whatever the audit log answers. -/
def isDecisionWrite : Event Reply → Bool
  | ⟨.write entry, _⟩ => (DecisionExplainer.outcomes entry.eventType).isSome
  | _ => false

def decisionWrites (events : List (Event Reply)) : Nat :=
  events.countP isDecisionWrite

/-- A denial is counted against the identity. -/
def isDenialCount : Event Reply → Bool
  | ⟨.recordDenial _, _⟩ => true
  | _ => false

def denialCounts (events : List (Event Reply)) : Nat :=
  events.countP isDenialCount

/-- (Told sent rows denials) means that a decision which the client was sent is recorded in the rows:
in the one that it names, or in none. It counts as a denial if it is one.
-/
structure Told (sent : Decision) (rows : List (AuditEntry × Nat)) (denials : Nat) : Prop where
  kind : DecisionExplainer.outcomes sent.eventType = some sent.decision
  stopped : sent.decision ≠ .allow
  rows : rows.map (fun row => (row.1.eventType, toString row.2))
    = sent.auditId.toList.map (fun auditId => (sent.eventType, auditId))
  denials : denials = if sent.decision = .deny then 1 else 0

/-- (Accounts call outcome rows denials) means that the handling of a call wrote these decision rows
and counted so many denials.
-/
inductive AccountsFor (call : ToolCall)
    : Except Exn Outcome → List (AuditEntry × Nat) → Nat → Prop
  | forwarded {message : ClientMessage} {entry : AuditEntry} {seq : Nat}
    (records : Records entry call)
    : AccountsFor call (.ok (.forward message)) [(entry, seq)] 0
  | answered {response : ErrorResponse} {sent : Decision} {rows : List (AuditEntry × Nat)}
    {denials : Nat} (data : response.data = some sent) (told : Told sent rows denials)
    : AccountsFor call (.ok (.respond response)) rows denials
  | unavailable {response : ErrorResponse} {rows : List (AuditEntry × Nat)}
    (data : response.data = none) (single : rows.length ≤ 1)
    (held : ∀ row ∈ rows, row.1.eventType = .challenge ∨ row.1.eventType = .humanApprovalRequired)
    : AccountsFor call (.ok (.respond response)) rows 0
  | raised {exn : Exn} : AccountsFor call (.error exn) [] 0

/-- An approval is redeemed as its store does. -/
def ApprovalsAnswered : Event Reply → Prop
  | ⟨.redeemApproval approvalId key hash, reply⟩ =>
      ∃ asked, (Approvals.redeem approvalId key hash).run.Exec asked reply
  | _ => True

-----------------------------------------------------------------------------------------
-- One call
-----------------------------------------------------------------------------------------

/-- A question that neither records a decision nor counts a denial. -/
def Undecided : Call → Prop
  | .write entry => DecisionExplainer.outcomes entry.eventType = none
  | .recordDenial _ => False
  | _ => True

theorem decisionRows_append (first rest : List (Event Reply))
    : decisionRows (first ++ rest) = decisionRows first ++ decisionRows rest :=
  List.filterMap_append

theorem denialCounts_append (first rest : List (Event Reply))
    : denialCounts (first ++ rest) = denialCounts first + denialCounts rest :=
  List.countP_append

theorem decisionWrites_append (first rest : List (Event Reply))
    : decisionWrites (first ++ rest) = decisionWrites first + decisionWrites rest :=
  List.countP_append

/-- One row at most is asked for where one question only can be the one for it. -/
theorem decisionWrites_among (first : List (Event Reply)) (event : Event Reply)
    (rest : List (Event Reply)) (before : decisionWrites first = 0)
    (after : decisionWrites rest = 0)
    : decisionWrites (first ++ event :: rest) ≤ 1 := by
  rw [decisionWrites_append, before, Nat.zero_add]
  unfold decisionWrites at *
  rw [List.countP_cons, after]
  split <;> simp

theorem decisionRows_written (entry : AuditEntry) (seq : Nat) (rest : List (Event Reply))
    {outcome : DecisionOutcome}
    (decides : DecisionExplainer.outcomes entry.eventType = some outcome)
    : decisionRows (⟨.write entry, .ok seq⟩ :: rest) = (entry, seq) :: decisionRows rest := by
  refine List.filterMap_cons_some ?_
  simp only [decisionRow, decides, Option.isSome_some, if_true]

/-- Undecided questions leave no rows and no counts. -/
theorem nothing_of_undecided {events : List (Event Reply)}
    (quiet : ∀ event ∈ events, Undecided event.call)
    : decisionRows events = [] ∧ denialCounts events = 0 := by
  refine ⟨List.filterMap_eq_nil_iff.mpr ?_, List.countP_eq_zero.mpr ?_⟩
  · rintro ⟨asked, reply⟩ member
    have here := quiet _ member
    unfold decisionRow
    split
    · next entry seq same =>
        cases same
        rw [show DecisionExplainer.outcomes entry.eventType = none from here]
        rfl
    · rfl
  · rintro ⟨asked, reply⟩ member
    have here := quiet _ member
    unfold isDenialCount
    split
    · next same =>
        cases same
        exact here.elim
    · simp

theorem no_write_of_undecided {events : List (Event Reply)}
    (quiet : ∀ event ∈ events, Undecided event.call)
    : decisionWrites events = 0 := by
  refine List.countP_eq_zero.mpr ?_
  rintro ⟨asked, reply⟩ member
  have here := quiet _ member
  unfold isDecisionWrite
  split
  · next entry _ same =>
      cases same
      rw [show DecisionExplainer.outcomes entry.eventType = none from here]
      simp
  · simp

theorem permits_undecided {call : ToolCall} : Permits Undecided call where
  engine := trivial
  time := trivial
  utcHour := trivial
  setNonce _ _ := trivial
  problem _ _ := rfl
  isBlocked := trivial
  redeemChallenge _ _ _ _ _ := trivial
  redeemApproval _ _ _ := trivial

theorem fetches_undecided {serverId : String} : Fetches Undecided serverId where
  cacheGet := trivial
  cacheSet _ := trivial
  listTools := trivial
  detector asked drift := by
    cases asked with
    | write entry =>
        simp only [Call.OfDriftCheck, EventType.ofDrift, List.mem_cons, List.not_mem_nil, or_false]
          at drift
        rcases drift with kind | kind | kind | kind | kind <;>
          simp [Undecided, kind, DecisionExplainer.outcomes]
    | selectBaselines | commit => trivial
    | _ => cases drift

/-- An answer accounts for the rows and the counts of its own events, and one row at most was asked
for.
-/
def Counts (call : ToolCall) (stop : Stop) (last : List (Event Reply)) : Prop :=
  AccountsFor call (settled (.error stop)) (decisionRows last) (denialCounts last)
  ∧ decisionWrites last ≤ 1

section

variable {call : ToolCall}

theorem counts_raised (exn : Exn) : Counts call (.raised exn) [] :=
  ⟨.raised, Nat.zero_le 1⟩

/-- A denial is counted, and recorded in the row that it names if the audit log takes it. -/
theorem counts_deny {eventType : EventType} {reason : String} {matchedRules : List String}
    {riskScore : Option Int} {riskFactors : Option (List RiskFactor)}
    (denies : DecisionExplainer.outcomes eventType = some .deny) {events : List (Event Reply)}
    {outcome : Except Stop ErrorResponse}
    (exec : (deny call eventType reason matchedRules riskScore riskFactors).run.Exec events outcome)
    : ∃ response, outcome = .ok response ∧ Counts call (.respond response) events := by
  obtain ⟨_, _, rfl, counting⟩ := exec_ask_bind_iff.mp exec
  obtain ⟨counted, _, rfl, reading⟩ := exec_guarded_demand_bind counting
  obtain ⟨engine, _, rfl, writing⟩ := exec_ask_bind_iff.mp reading
  obtain ⟨recorded, _, rfl, ended⟩ := exec_guarded_demand_bind writing
  obtain ⟨rfl, rfl⟩ := Program.exec_done_iff.mp ended
  refine ⟨_, rfl, .answered rfl ⟨denies, by simp, ?_, rfl⟩,
    decisionWrites_among [_, _, _] _ [] rfl rfl⟩
  cases recorded with
  | error exn => rfl
  | ok seq =>
      exact congrArg (List.map fun row => (row.1.eventType, toString row.2))
        (decisionRows_written (denyEntry call.key eventType reason matchedRules riskScore riskFactors
          call.arguments) seq [] denies)

/-- A held call writes one row, which its decision names if it was held. -/
theorem counts_hold {stepUpCapable : Bool} {decision : Decision} {riskScore : Int}
    {riskFactors : List RiskFactor} {exchanges : List (Event Reply)} {held : Except Exn Decision}
    {response : ErrorResponse}
    (kind : DecisionExplainer.outcomes decision.eventType = some decision.decision)
    (band : decision.eventType = .challenge ∨ decision.eventType = .humanApprovalRequired)
    (holds : (hold call stepUpCapable decision riskScore riskFactors).run.Exec exchanges held)
    (answers : response.data = held.toOption)
    : Counts call (.respond response) exchanges := by
  obtain ⟨recorded, rest, rfl, created⟩ := exec_hold holds
  have silent : decisionRows rest = [] ∧ denialCounts rest = 0 ∧ decisionWrites rest = 0 := by
    rcases created with rfl | ⟨_, _, _, _, ⟨_, _, rfl⟩ | ⟨_, _, rfl⟩⟩ <;> exact ⟨rfl, rfl, rfl⟩
  have unmentioned : ∀ entry seq, ⟨.write entry, .ok seq⟩ ∉ rest := by
    rcases created with rfl | ⟨_, _, _, _, ⟨_, _, rfl⟩ | ⟨_, _, rfl⟩⟩ <;> simp
  generalize row : riskTerminalEntry call.key decision.eventType decision.reason call.arguments
    riskScore riskFactors = entry at holds ⊢
  have same : entry.eventType = decision.eventType := by rw [← row]; rfl
  have decides : DecisionExplainer.outcomes entry.eventType = some decision.decision := by
    rw [same, kind]
  have rows (seq : Nat)
      : decisionRows (⟨.write entry, .ok seq⟩ :: rest) = [(entry, seq)] := by
    rw [decisionRows_written entry seq rest decides, silent.1]
  have counts (recorded : Except Exn Nat)
      : denialCounts (⟨.write entry, recorded⟩ :: rest) = 0 :=
    (List.countP_cons_of_neg (by simp [isDenialCount])).trans silent.2.1
  have heldBand : decision.decision ≠ .allow ∧ decision.decision ≠ .deny := by
    rcases band with band | band <;> rw [band] at kind <;> rw [← Option.some.inj kind] <;> simp
  unfold Counts settled
  rw [counts]
  refine ⟨?_, decisionWrites_among [] _ rest rfl silent.2.2⟩
  cases held with
  | ok final =>
      obtain ⟨seq, approvalId, challengeId, written, rfl⟩ := hold_ok holds
      rw [row] at written
      rcases List.mem_cons.mp written with here | later
      · cases here
        refine .answered answers ⟨kind, ?_, ?_, ?_⟩
        · exact heldBand.1
        · rw [rows seq]
          simp [same]
        · exact (if_neg heldBand.2).symm
      · exact (unmentioned _ _ later).elim
  | error exn =>
      have kinds : entry.eventType = .challenge ∨ entry.eventType = .humanApprovalRequired := by
        rw [same]
        exact band
      cases recorded with
      | error exn =>
          have none : decisionRows (⟨.write entry, .error exn⟩ :: rest) = [] := silent.1
          rw [none]
          exact .unavailable answers (by simp) (by simp)
      | ok seq =>
          rw [rows seq]
          refine .unavailable answers (by simp) ?_
          simpa using kinds

theorem counts_riskTerminal {kind : DecisionOutcome} {riskScore : Int}
    {riskFactors : List RiskFactor} (continues : kind ≠ .allow) {events : List (Event Reply)}
    {outcome : Except Stop ErrorResponse}
    (exec : (riskTerminal call kind riskScore riskFactors).run.Exec events outcome)
    : ∃ response, outcome = .ok response ∧ Counts call (.respond response) events := by
  unfold riskTerminal at exec
  dsimp only at exec
  split at exec
  · exact counts_deny rfl exec
  · next notDeny =>
      obtain ⟨_, _, rfl, reading⟩ := exec_ask_bind_iff.mp exec
      obtain ⟨engine, _, rfl, versioning⟩ := exec_ask_bind_iff.mp reading
      obtain ⟨versioned, _, rfl, holding⟩ := exec_ask_bind_iff.mp versioning
      obtain ⟨exchanges, _, held, rfl, holds, ended⟩ := exec_attempt_bind_iff.mp holding
      have banded : kind = .humanApprovalRequired ∨ kind = .challenge := by
        cases kind with
        | allow => exact absurd rfl continues
        | deny => exact absurd rfl notDeny
        | challenge => exact Or.inr rfl
        | humanApprovalRequired => exact Or.inl rfl
      have answered {response : ErrorResponse} (answers : response.data = held.toOption)
          : Counts call (.respond response) (exchanges ++ []) := by
        rw [List.append_nil]
        rcases banded with rfl | rfl
        · exact counts_hold rfl (Or.inr rfl) holds answers
        · exact counts_hold rfl (Or.inl rfl) holds answers
      cases held <;>
        obtain ⟨rfl, rfl⟩ := Program.exec_done_iff.mp ended <;>
        exact ⟨_, rfl, answered rfl⟩

-----------------------------------------------------------------------------------------
-- The stages
-----------------------------------------------------------------------------------------

theorem counts_uncaught {α : Type} {body : Async α} (asks : body.run.Asks Undecided)
    : Settles Undecided Quietly (Counts call) (uncaught body) :=
  .mapStop asks counts_raised

theorem counts_engine
    : Settles Undecided Quietly (Counts call) (currentEngine : Stage PolicyEngine) :=
  .ask (@permits_undecided call).engine

theorem counts_finish {α : Type} {eventType : EventType} {reason : String}
    {matchedRules : List String} {riskScore : Option Int} {riskFactors : Option (List RiskFactor)}
    (denies : DecisionExplainer.outcomes eventType = some .deny)
    : Settles Undecided Quietly (Counts call)
        (finish (deny call eventType reason matchedRules riskScore riskFactors) : Stage α) :=
  .finish (fun _ _ => counts_deny denies)

/-- Conditions are enforced in turn, by induction on them. -/
theorem counts_enforceConditions (attrs : Abac.Attributes) (riskScore : Option Int)
    (riskFactors : Option (List RiskFactor)) (conditions : List Abac.Condition)
    : Settles Undecided Quietly (Counts call)
        (enforceConditions call attrs riskScore riskFactors conditions) := by
  induction conditions with
  | nil => exact .pure ()
  | cons condition rest ih =>
      have problems : Settles Undecided Quietly (Counts call)
          (recordProblem call condition (conditionVerdict condition attrs).2) := by
        cases (conditionVerdict condition attrs).2 with
        | none => exact .pure ()
        | some problem =>
            exact .bind (.attempt (asks_demand _ (permits_undecided.problem _ _))) (fun _ => .pure ())
      refine .bind problems (fun _ => ?_)
      split
      · exact ih
      · exact .bind counts_engine (fun engine => counts_finish rfl)

theorem counts_replayStage (runtime : Runtime) (signedMode : Bool) (metadata : Json)
    : Settles Undecided Quietly (Counts call)
        (replayStage runtime call signedMode metadata) := by
  unfold replayStage
  refine .bind (counts_uncaught ?_) (fun volunteered => ?_)
  · split
    · exact asks_pure _
    · refine asks_bind (asks_ofExcept _) (fun found => ?_)
      split
      · exact asks_pure _
      · exact asks_ofExcept _
  · split
    · refine .bind (.attempt ?_) (fun checked => ?_)
      · refine asks_bind (asks_ofExcept _) (fun nonce => ?_)
        exact asks_bind (asks_ofExcept _)
          (fun timestamp => asks_replayCheck (@permits_undecided call) _ _ _ _)
      · dsimp only
        split
        · exact .pure ()
        · exact counts_finish rfl
    · exact .pure ()

theorem counts_rbacStage : Settles Undecided Quietly (Counts call) (rbacStage call) := by
  refine .bind counts_engine (fun engine => ?_)
  split
  · exact .pure _
  · exact .bind counts_engine (fun versioned => counts_finish rfl)

theorem counts_conditionAttributes (session : Session) (toolName : String) (metadata : Json)
    (conditions : List Abac.Condition)
    : Settles Undecided Quietly (Counts call)
        (conditionAttributes session toolName metadata conditions) := by
  unfold conditionAttributes
  split
  · exact .pure _
  · exact counts_uncaught (asks_abacAttributes (@permits_undecided call) _ _ _)

theorem counts_driftStage : Settles Undecided Quietly (Counts call) (driftStage call) := by
  refine .bind (.attempt (asks_demand _ trivial)) (fun blocked => ?_)
  split
  · exact .pure ()
  · exact counts_finish rfl

theorem counts_challengeStage (totpSecret : String) (metadata challengeId : Json)
    : Settles Undecided Quietly (Counts call)
        (challengeStage call totpSecret metadata challengeId) := by
  unfold challengeStage
  split
  · exact .pure _
  · refine .bind (.attempt ?_) (fun redeemed => ?_)
    · refine asks_bind (asks_ofExcept _) (fun hash => ?_)
      exact asks_bind (asks_ofExcept _) (fun proof => asks_demand _ trivial)
    · dsimp only
      split
      · exact .pure _
      · exact counts_finish rfl

/-- An approval is refused as a denial, by the answer of its store. -/
theorem counts_approvalStage (approvalId : Json)
    : Concludes ApprovalsAnswered Undecided (Returning fun _ => True) (Counts call)
        (approvalStage call approvalId) := by
  let redemption : Async (Option (EventType × String)) := do
    let hash ← Coroutine.ofExcept (argumentsHash call.arguments)
    ApprovalStore.redeem approvalId.pyStr call.key hash
  have asks : redemption.run.Asks Undecided :=
    asks_bind (asks_ofExcept _) (fun hash => asks_demand _ trivial)
  have refuses : Meets ApprovalsAnswered Approvals.Refuses (fun _ _ => True) redemption := by
    refine .andThen .any (fun hash _ => .demand ?_)
    intro reply ⟨asked, exec⟩
    exact Approvals.refuses_redeem _ _ _ asked reply exec (fun _ _ => trivial)
  refine .bind (.returning (.attempt asks) (.attempt refuses)) (fun redeemed refuses => ?_)
  · cases redeemed with
    | error exn => exact .quietly (counts_finish rfl)
    | ok denial =>
        cases denial with
        | none => exact .quietly (.pure ())
        | some denial =>
            obtain ⟨denies, _⟩ := refuses _ rfl denial.1 denial.2 rfl
            exact .quietly (counts_finish denies)

theorem counts_scoringStage (conditions : List Abac.Condition) (attrs : Abac.Attributes)
    (stepUpVerified : Bool)
    : Settles Undecided Quietly (Counts call)
        (scoringStage call conditions attrs stepUpVerified) := by
  refine .bind counts_engine (fun engine => ?_)
  refine .bind (.attempt (asks_demand _ trivial)) (fun scored => ?_)
  refine .bind (counts_enforceConditions _ _ _ _) (fun _ => ?_)
  split
  · exact .pure _
  · next outcome banded =>
      refine .finish (fun _ _ => counts_riskTerminal ?_)
      rintro rfl
      exact bandTerminal_ne_allow banded

theorem counts_riskStage (conditions : List Abac.Condition) (attrs : Abac.Attributes)
    (stepUpVerified : Bool) (approvalId : Json)
    : Concludes ApprovalsAnswered Undecided (Returning fun _ => True) (Counts call)
        (riskStage call conditions attrs stepUpVerified approvalId) := by
  unfold riskStage
  split
  · exact .bind (counts_approvalStage approvalId) (fun _ _ => .quietly (.pure _))
  · exact .after (counts_scoringStage _ _ _) (fun _ => .quietly (.pure _))

theorem counts_validationStage (runtime : Runtime) (session : Session)
    : Settles Undecided Quietly (Counts call) (validationStage runtime session call) := by
  refine .bind (counts_uncaught (asks_inputSchemaFor _ _ _ fetches_undecided)) (fun schema => ?_)
  split
  · exact counts_finish rfl
  · refine .bind (counts_uncaught (asks_ofExcept _)) (fun error => ?_)
    cases error with
    | none => exact .pure _
    | some error => exact counts_finish rfl

/-- The last stage writes the ALLOW row, or the call stays without one. -/
theorem counts_allowStage (risk : Option (Int × List RiskFactor))
    (approvalId challengeId : Option String)
    : Settles Undecided (fun _ => Recorded call) (Counts call)
        (allowStage call risk approvalId challengeId) := by
  intro events outcome exec
  obtain ⟨engine, _, rfl, writing⟩ := exec_ask_bind_iff.mp exec
  obtain ⟨reply, _, rfl, ended⟩ := exec_guarded_demand_bind writing
  refine ⟨[], _, rfl, by simp, ?_⟩
  cases reply with
  | ok seq =>
      obtain ⟨rfl, rfl⟩ := Program.exec_done_iff.mp ended
      exact ⟨engine, risk, approvalId, challengeId, seq, rfl⟩
  | error exn =>
      obtain ⟨stop, rfl, raised | ⟨response, rfl, returned⟩⟩ := exec_finish_iff.mp ended
      · obtain ⟨_, _, _, impossible⟩ := exec_ask_bind_iff.mp raised
        obtain ⟨_, impossible⟩ := Program.exec_done_iff.mp impossible
        cases impossible
      · obtain ⟨_, _, rfl, done⟩ := exec_ask_bind_iff.mp returned
        obtain ⟨rfl, same⟩ := Program.exec_done_iff.mp done
        cases same
        refine ⟨.unavailable rfl (Nat.zero_le 1) (fun row member => by cases member), ?_⟩
        exact decisionWrites_among [_] _ [_] rfl rfl

/-- The whole pipeline: undecided questions, and then the row of an ALLOW or the answer. -/
theorem counts_authorizeCall (runtime : Runtime) (session : Session) (requestId : RequestId)
    (params : Option Params)
    : Concludes ApprovalsAnswered Undecided
        (fun _ => Recorded (toolCallOf session requestId (params.getD [])))
        (Counts (toolCallOf session requestId (params.getD [])))
        (authorizeCall runtime session requestId params) := by
  refine .after counts_engine (fun engine => ?_)
  refine .after (counts_replayStage _ _ _) (fun _ => ?_)
  refine .after counts_rbacStage (fun grant => ?_)
  refine .after (counts_conditionAttributes _ _ _ _) (fun attrs => ?_)
  refine .after (counts_enforceConditions _ _ _ _) (fun _ => ?_)
  refine .after counts_driftStage (fun _ => ?_)
  refine .after (counts_uncaught (asks_ofExcept _)) (fun challengeId => ?_)
  refine .after (counts_challengeStage _ _ _) (fun stepUpVerified => ?_)
  refine .after (counts_uncaught (asks_ofExcept _)) (fun approvalId => ?_)
  refine .bind (counts_riskStage _ _ _ _) (fun risk _ => ?_)
  refine .after (counts_validationStage _ _) (fun _ => ?_)
  exact .of_settles (.andReturn (counts_allowStage _ _ _) _)

end

-----------------------------------------------------------------------------------------
-- A whole run
-----------------------------------------------------------------------------------------

/-- The request of a tool call. -/
def ClientMessage.isCall : ClientMessage → Bool
  | .request _ method _ => method == "tools/call"
  | _ => false

theorem ClientMessage.isCall_iff {message : ClientMessage}
    : message.isCall ↔ ∃ requestId params, message = .request requestId "tools/call" params := by
  cases message with
  | request requestId method params => simp [isCall]
  | notification | response | error => simp [isCall]

/-- The call that was handled is forwarded. -/
def isForward : Except Exn Outcome → Bool
  | .ok (.forward _) => true
  | _ => false

/-- An answer that is a denial. -/
def isDenial : Except Exn Outcome → Bool
  | .ok (.respond response) => response.data.any (fun sent => sent.decision = .deny)
  | _ => false

section

variable {runtime : Runtime} {session : Session} {requestId : RequestId} {params : Option Params}
  {events : List (Event Reply)} {outcome : Except Exn Outcome}

/-- A call that is handled to the end accounts for its rows and its denials, and asks for one row of a
decision at most.
-/
theorem accountsFor_of_exec
    (exec : (onClientMessage runtime session (.request requestId "tools/call" params)).run.Exec
      events outcome)
    (answered : ∀ event ∈ events, ApprovalsAnswered event)
    : AccountsFor (toolCallOf session requestId (params.getD [])) outcome (decisionRows events)
        (denialCounts events)
      ∧ decisionWrites events ≤ 1 := by
  obtain ⟨_, rest, rfl, settling⟩ := exec_ask_bind_iff.mp exec
  obtain ⟨ended, pipeline, rfl⟩ := exec_settle_iff.mp settling
  obtain ⟨first, last, rfl, quiet, concluded⟩ :=
    counts_authorizeCall runtime session requestId params rest ended pipeline
      (fun event member => answered event (List.mem_cons_of_mem _ member))
  obtain ⟨noRow, noCount⟩ := nothing_of_undecided quiet
  change AccountsFor _ _ (decisionRows (first ++ last)) (denialCounts (first ++ last))
    ∧ decisionWrites (first ++ last) ≤ 1
  rw [decisionRows_append, noRow, List.nil_append, denialCounts_append, noCount, Nat.zero_add,
    decisionWrites_append, no_write_of_undecided quiet, Nat.zero_add]
  cases ended with
  | error stop => exact concluded
  | ok message =>
      obtain ⟨engine, risk, approvalId, challengeId, seq, rfl⟩ := concluded
      refine ⟨.forwarded
        ⟨rfl, rfl, rfl, rfl, lookup_allowEntry engine.version risk approvalId challengeId⟩, ?_⟩
      exact decisionWrites_among [_] _ [] rfl rfl

/-- Other messages decide nothing. -/
theorem nothing_of_other {message : ClientMessage} (other : message.isCall = false)
    (exec : (onClientMessage runtime session message).run.Exec events outcome)
    : decisionWrites events = 0 ∧ decisionRows events = [] ∧ denialCounts events = 0 := by
  have quiet : ∀ event ∈ events, Undecided event.call := by
    refine exec.asks ?_
    cases message with
    | request requestId method params =>
        refine asks_bind (asks_ask trivial) (fun _ => ?_)
        split
        · exact asks_bind (asks_demand _ trivial) (fun _ => asks_pure _)
        · split
          · next call =>
              subst call
              cases other
          · exact asks_pure _
    | notification | response | error => exact asks_pure _
  exact ⟨no_write_of_undecided quiet, nothing_of_undecided quiet⟩

theorem AccountsFor.single {call : ToolCall} {rows : List (AuditEntry × Nat)} {denials : Nat}
    (accounts : AccountsFor call outcome rows denials)
    : rows.length ≤ 1 := by
  cases accounts with
  | forwarded => exact Nat.le_refl 1
  | unavailable _ single _ => exact single
  | raised => exact Nat.zero_le 1
  | answered _ told =>
      have same := congrArg List.length told.rows
      rw [List.length_map, List.length_map] at same
      rw [same]
      exact Option.length_toList_le

/-- An ALLOW row is the row of a call that is forwarded. -/
theorem AccountsFor.allows {call : ToolCall} {rows : List (AuditEntry × Nat)} {denials : Nat}
    (accounts : AccountsFor call outcome rows denials)
    : rows.countP (fun row => row.1.eventType = .allow) = if isForward outcome then 1 else 0 := by
  cases accounts with
  | forwarded records => simp [isForward, records.eventType]
  | raised => rfl
  | unavailable _ _ held =>
      refine List.countP_eq_zero.mpr (fun row member => ?_)
      rcases held row member with kind | kind <;> simp [kind]
  | @answered response sent _ _ _ told =>
      refine List.countP_eq_zero.mpr (fun row member => ?_)
      have among := List.mem_map_of_mem (f := fun row => (row.1.eventType, toString row.2)) member
      rw [told.rows] at among
      obtain ⟨auditId, _, same⟩ := List.mem_map.mp among
      have kind : sent.eventType = row.1.eventType := congrArg Prod.fst same
      rw [← kind]
      intro allow
      have decided := told.kind
      rw [of_decide_eq_true allow] at decided
      exact told.stopped (Option.some.inj decided).symm

/-- A denial is counted for an answer that is one. -/
theorem AccountsFor.denies {call : ToolCall} {rows : List (AuditEntry × Nat)} {denials : Nat}
    (accounts : AccountsFor call outcome rows denials)
    : denials = if isDenial outcome then 1 else 0 := by
  cases accounts with
  | forwarded => rfl
  | raised => rfl
  | unavailable data => simp [isDenial, data]
  | answered data told => simp [isDenial, data, told.denials]

end

/-- The rows and the counts of a run are those of its calls. A call asks for the row of one decision at
most, and nothing else does, not even the notification of a call; the ALLOW rows that the audit log
took are as many as the calls that were forwarded, and each denial that a client was sent was counted
once.
-/
theorem decisions_add_up {runtime : Runtime} {session : Session} {run : List Handling}
    (handles : Handles runtime session run)
    (answered : ∀ handling ∈ run, ∀ event ∈ handling.events, ApprovalsAnswered event)
    : (∀ handling ∈ run, ∀ requestId params,
        handling.message = .request requestId "tools/call" params
        → AccountsFor (toolCallOf session requestId (params.getD [])) handling.outcome
            (decisionRows handling.events) (denialCounts handling.events)
          ∧ (decisionRows handling.events).length ≤ 1
          ∧ decisionWrites handling.events ≤ 1)
      ∧ (∀ handling ∈ run,
        handling.message.isCall = false
        → decisionWrites handling.events = 0
          ∧ decisionRows handling.events = []
          ∧ denialCounts handling.events = 0)
      ∧ (run.flatMap (fun handling => decisionRows handling.events)).countP
          (fun row => row.1.eventType = .allow)
        = run.countP (fun handling => handling.message.isCall && isForward handling.outcome)
      ∧ denialCounts (run.flatMap Handling.events)
        = run.countP (fun handling => handling.message.isCall && isDenial handling.outcome) := by
  have each : ∀ handling ∈ run,
      (decisionRows handling.events).countP (fun row => row.1.eventType = .allow)
        = (if handling.message.isCall && isForward handling.outcome then 1 else 0)
      ∧ denialCounts handling.events
        = if handling.message.isCall && isDenial handling.outcome then 1 else 0 := by
    intro handling member
    cases call : handling.message.isCall with
    | false =>
        obtain ⟨_, noRow, noCount⟩ := nothing_of_other call (handles handling member)
        rw [noRow, noCount]
        exact ⟨rfl, rfl⟩
    | true =>
        obtain ⟨requestId, params, same⟩ := ClientMessage.isCall_iff.mp call
        have exec := handles handling member
        rw [same] at exec
        have accounts := (accountsFor_of_exec exec (answered handling member)).1
        exact ⟨accounts.allows, accounts.denies⟩
  refine ⟨?_, ?_, ?_, ?_⟩
  · intro handling member requestId params same
    have exec := handles handling member
    rw [same] at exec
    obtain ⟨accounts, asked⟩ := accountsFor_of_exec exec (answered handling member)
    exact ⟨accounts, accounts.single, asked⟩
  · exact fun handling member other => nothing_of_other other (handles handling member)
  · exact Tally.countP_flatMap_eq (fun handling member => (each handling member).1)
  · exact Tally.countP_flatMap_eq (fun handling member => (each handling member).2)

def isRedemption : Event Reply → Bool
  | ⟨.redeemApproval _ _ _, _⟩ => true
  | _ => false

theorem approvalsAnswered_of_not {event : Event Reply} (other : isRedemption event = false)
    : ApprovalsAnswered event := by
  obtain ⟨asked, reply⟩ := event
  cases asked <;> trivial

/-- A call that redeems no approval. -/
theorem approvalsAnswered_permitted
    : ∀ event ∈ (permittedHandling (sendCall (.obj []))).events, ApprovalsAnswered event := by
  have none : (permittedHandling (sendCall (.obj []))).events.any isRedemption = false := rfl
  intro event member
  exact approvalsAnswered_of_not (by simpa using List.any_eq_false.mp none event member)

/-- Witness: a call that passes every check has one ALLOW row. -/
theorem permitted_call_adds_up
    : (decisionRows (permittedHandling (sendCall (.obj []))).events).countP
        (fun row => row.1.eventType = .allow) = 1 := by
  have totals := decisions_add_up (handles_permitted (sendCall (.obj [])))
    (fun handling member => by
      cases List.mem_singleton.mp member
      exact approvalsAnswered_permitted)
  have one := totals.2.2.1
  rw [List.flatMap_cons, List.flatMap_nil, List.append_nil] at one
  exact one

end Interceptor

end SecureMcp
