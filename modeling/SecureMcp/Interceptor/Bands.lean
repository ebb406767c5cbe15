import SecureMcp.Interceptor.Forwarding

/-! Forwarded calls against their risk scores: no score in the approval band or above is forwarded,
and one in the CHALLENGE band only with a challenge that was redeemed for the very call.
-/

namespace SecureMcp

open Interaction

namespace Interceptor

open Coroutine

/-- A question that is not about a score. -/
def NoScore : Call → Prop
  | .score _ _ _ => False
  | _ => True

/-- What continues after its score is below the approval band, and in the CHALLENGE band only with
a verified challenge.
-/
theorem bandTerminal_eq_none {riskScore : Int} {stepUpVerified : Bool}
    (continues : bandTerminal riskScore stepUpVerified = none)
    : riskScore < riskApprovalMin ∧ (riskChallengeMin ≤ riskScore → stepUpVerified = true) := by
  unfold bandTerminal thresholdOutcome at continues
  unfold riskDenyAbove riskApprovalMin riskChallengeMin at *
  cases stepUpVerified <;> split_ifs at continues <;> simp_all

/-- A band that stops a call is not ALLOW. -/
theorem bandTerminal_ne_allow {riskScore : Int} {stepUpVerified : Bool}
    : bandTerminal riskScore stepUpVerified ≠ some .allow := by
  unfold bandTerminal
  dsimp only
  split
  · simp
  · split
    · next continues => exact fun same => continues (Option.some.inj same)
    · simp

section

variable {runtime : Runtime} {session : Session} {requestId : RequestId} {params : Option Params}
  {call : ToolCall} {events : List (Event Reply)}

theorem permits_noScore : Permits NoScore call where
  engine := trivial
  time := trivial
  utcHour := trivial
  setNonce _ _ := trivial
  problem _ _ := trivial
  isBlocked := trivial
  redeemChallenge _ _ _ _ _ := trivial
  redeemApproval _ _ _ := trivial

theorem fetches_noScore {serverId : String} : Fetches NoScore serverId where
  cacheGet := trivial
  cacheSet _ := trivial
  listTools := trivial
  detector asked drift := by
    cases asked <;> first | exact drift.elim | trivial

/-- Scoring that continues asked for one score, and its band let the call through. -/
theorem exec_scoringStage_ok {conditions : List Abac.Condition} {attrs : Abac.Attributes}
    {stepUpVerified : Bool} {risk : Int × List RiskFactor}
    (whole : (scoringStage call conditions attrs stepUpVerified).run.Exec events (.ok risk))
    : ∃ engine policy reply rest,
        events = ⟨.engine, engine⟩ :: ⟨.score call.key call.arguments policy, reply⟩ :: rest
        ∧ (∀ event ∈ rest, NoScore event.call)
        ∧ bandTerminal (scoreOrMaximum reply).1 stepUpVerified = none := by
  obtain ⟨engine, _, rfl, scoring⟩ := exec_ask_bind_iff.mp whole
  obtain ⟨reply, _, rfl, deciding⟩ := exec_guarded_demand_bind scoring
  obtain ⟨enforced, rest, _, rfl, held, exec⟩ := exec_bind_ok_iff.mp deciding
  have quiet := (settles_enforceConditions permits_noScore _ _ _ _).quiet_of_ok held
  split at exec
  · next continues =>
      obtain ⟨rfl, _⟩ := Program.exec_done_iff.mp exec
      exact ⟨engine, _, reply, _, rfl, by simpa using quiet, continues⟩
  · exact absurd exec not_exec_finish

/-- A verified challenge was redeemed for the call, with the proof that the call carries. -/
theorem exec_challengeStage_true {totpSecret : String} {metadata challengeId : Json}
    (exec : (challengeStage call totpSecret metadata challengeId).run.Exec events (.ok true))
    : ∃ hash proof,
        argumentsHash call.arguments = .ok hash
        ∧ metadata.get challengeProofMetaKey = .ok proof
        ∧ events = [⟨.redeemChallenge challengeId.pyStr call.key hash proof totpSecret, .ok none⟩] := by
  unfold challengeStage at exec
  split at exec
  · obtain ⟨_, impossible⟩ := Program.exec_done_iff.mp exec
    cases impossible
  · obtain ⟨first, _, redeemed, rfl, attempted, deciding⟩ := exec_attempt_bind_iff.mp exec
    cases redeemed with
    | error exn => exact absurd deciding not_exec_finish
    | ok failure =>
        cases failure with
        | some reason => exact absurd deciding not_exec_finish
        | none =>
            obtain ⟨rfl, _⟩ := Program.exec_done_iff.mp deciding
            obtain ⟨hash, hashed, reading⟩ := exec_ofExcept_bind_ok_iff.mp attempted
            obtain ⟨proof, carried, redeeming⟩ := exec_ofExcept_bind_ok_iff.mp reading
            obtain ⟨reply, rfl, answered⟩ := exec_demand_iff.mp redeeming
            cases (answered : reply = .ok none)
            exact ⟨hash, proof, hashed, carried, by simp⟩

/-- A risk stage that asked for a score redeemed no approval, and the score let the call through. -/
theorem exec_riskStage_scored {conditions : List Abac.Condition} {attrs : Abac.Attributes}
    {stepUpVerified : Bool} {approvalId : Json} {risk : Option (Int × List RiskFactor)}
    {key : CallKey} {arguments : Json} {policy : RiskPolicy}
    {reply : Except Exn (Int × List RiskFactor)}
    (exec : (riskStage call conditions attrs stepUpVerified approvalId).run.Exec events (.ok risk))
    (asked : ⟨.score key arguments policy, reply⟩ ∈ events)
    : bandTerminal (scoreOrMaximum reply).1 stepUpVerified = none := by
  unfold riskStage at exec
  split at exec
  · obtain ⟨redeemed, _, _, rfl, passed, ended⟩ := exec_bind_ok_iff.mp exec
    obtain ⟨rfl, _⟩ := Program.exec_done_iff.mp ended
    rw [List.append_nil] at asked
    exact ((settles_approvalStage permits_noScore _).quiet_of_ok passed _ asked).elim
  · obtain ⟨scored, _, _, rfl, passed, ended⟩ := exec_bind_ok_iff.mp exec
    obtain ⟨rfl, _⟩ := Program.exec_done_iff.mp ended
    obtain ⟨engine, _, found, rest, rfl, quiet, continues⟩ := exec_scoringStage_ok passed
    rcases List.mem_cons.mp (List.append_nil _ ▸ asked) with impossible | asked
    · cases impossible
    · rcases List.mem_cons.mp asked with same | later
      · cases same
        exact continues
      · exact (quiet _ later).elim

/-- (StepsUp … call engine events) means that a call redeemed a challenge, with the proof that it
carries, against the secret that the policy has for its identity.
-/
def StepsUp (session : Session) (metadata : Json) (call : ToolCall) (events : List (Event Reply))
    : Prop :=
  ∃ engine challengeId hash proof,
    ⟨.engine, engine⟩ ∈ events
    ∧ argumentsHash call.arguments = .ok hash
    ∧ metadata.get challengeProofMetaKey = .ok proof
    ∧ ⟨.redeemChallenge challengeId call.key hash proof
        ((engine.identity session.identityId).elim "" Identity.totpSecret), .ok none⟩ ∈ events

/-- What a forwarded call's score was, and what a score in the CHALLENGE band took. -/
theorem Passed.scored {message : ClientMessage} {key : CallKey} {arguments : Json}
    {policy : RiskPolicy} {reply : Except Exn (Int × List RiskFactor)}
    (passed : Passed runtime session requestId params events message)
    (asked : ⟨.score key arguments policy, reply⟩ ∈ events)
    : (scoreOrMaximum reply).1 < riskApprovalMin
      ∧ (riskChallengeMin ≤ (scoreOrMaximum reply).1
        → StepsUp session (Json.getKey (params.getD []) "_meta").orEmpty
            (toolCallOf session requestId (params.getD [])) events) := by
  cases passed with
  | @intro call metadata challengeId approvalId engine grant attrs stepUpVerified risk replay rbac
      bound held looked redeemed scored validated allowed normalized meta' replayPassed rbacPassed
      attributesBound conditionsHeld driftPassed challenged challengePassed approving riskPassed
      validationPassed allowRecorded =>
      have among : ⟨.score key arguments policy, reply⟩ ∈ scored := by
        have quiet {events : List (Event Reply)} (only : ∀ event ∈ events, NoScore event.call)
            : ⟨.score key arguments policy, reply⟩ ∉ events :=
          fun member => only _ member
        have one := quiet ((settles_replayStage permits_noScore _ _ _).quiet_of_ok replayPassed)
        have two := quiet ((settles_rbacStage permits_noScore).quiet_of_ok rbacPassed)
        have three := quiet
          ((@settles_conditionAttributes call _ permits_noScore _ _ _ _).quiet_of_ok
            attributesBound)
        have four := quiet
          ((settles_enforceConditions permits_noScore _ _ _ _).quiet_of_ok conditionsHeld)
        have five := quiet ((settles_driftStage permits_noScore).quiet_of_ok driftPassed)
        have six := quiet
          ((settles_challengeStage permits_noScore _ _ _).quiet_of_ok challengePassed)
        have seven := quiet
          ((settles_validationStage _ _ fetches_noScore).quiet_of_ok validationPassed)
        obtain ⟨_, _, rfl⟩ := exec_allowStage_ok allowRecorded
        simpa [one, two, three, four, five, six, seven] using asked
      obtain ⟨below, verified⟩ := bandTerminal_eq_none (exec_riskStage_scored riskPassed among)
      refine ⟨below, fun band => ?_⟩
      rw [verified band] at challengePassed
      obtain ⟨hash, proof, hashed, carried, rfl⟩ := exec_challengeStage_true challengePassed
      subst normalized meta'
      exact ⟨engine, challengeId.pyStr, hash, proof, List.mem_cons_self, hashed, carried, by simp⟩

end

end Interceptor

end SecureMcp
