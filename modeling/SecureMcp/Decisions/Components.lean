import SecureMcp.Approvals.Store
import SecureMcp.Decisions.Rows
import SecureMcp.Interceptor.Authorize
import SecureMcp.Library.Loop
import SecureMcp.Library.Postcondition
import SecureMcp.Policy.Meaning
import SecureMcp.Risk.Engine

/-! The texts that the components behind the pipeline bring into a decision: the reasons of the
stores, the factors of a score and the sources of conditions. None holds a null character.
-/

namespace SecureMcp

open Interaction

/-- What the process takes from Python and from its libraries. Python's parser takes no source
with a null character and finds no attribute with one; `repr` escapes them, and the messages
of the JSON Schema library quote values with it.
-/
structure Environment where
  runtime : Runtime
  stdlib : Stdlib
  parse : String → Except String Abac.Node
  parse_free : ∀ source tree,
    parse source = .ok tree → NulFree source ∧ ∀ path, Abac.Occurs path tree → NulFree path
  repr_free : ∀ text, NulFree (stdlib.repr text)
  validationError_free : ∀ arguments schema message,
    runtime.validateSchema arguments schema = .validationError message → NulFree message
  schemaError_free : ∀ arguments schema message,
    runtime.validateSchema arguments schema = .schemaError message → NulFree message

/-- A condition of a policy is compiled when the policy is loaded. -/
def Abac.Condition.CompiledBy (parse : String → Except String Abac.Node) (condition : Abac.Condition)
    : Prop :=
  ∃ compiled,
    Abac.compileCondition parse condition.source = .ok compiled
    ∧ Abac.lower compiled.tree = some condition.tree

/-- Every condition of the policy is compiled. -/
def PolicyEngine.CompiledBy (parse : String → Except String Abac.Node) (engine : PolicyEngine)
    : Prop :=
  ∀ identity ∈ engine.policy.identities, ∀ grant ∈ identity.allowedServers,
    ∀ condition ∈ grant.conditions, condition.CompiledBy parse

theorem PolicyEngine.mem_of_firstGrant {serverId toolName : String} {grants : List ServerGrant}
    {grant : ServerGrant} (found : firstGrant serverId toolName grants = some grant)
    : grant ∈ grants := by
  induction grants with
  | nil => cases found
  | cons first rest ih =>
      rw [firstGrant] at found
      split at found
      · exact List.mem_cons_of_mem _ (ih found)
      · split at found
        · cases found
        · split at found
          · cases found
            exact List.mem_cons_self
          · exact List.mem_cons_of_mem _ (ih found)

/-- The texts of a condition have no null character. -/
structure Abac.Condition.Plain (condition : Abac.Condition) : Prop where
  sourced : NulFree condition.source
  named : ∀ path ∈ condition.paths, NulFree path

theorem Abac.Condition.CompiledBy.plain (env : Environment) {condition : Abac.Condition}
    (compiled : condition.CompiledBy env.parse)
    : condition.Plain := by
  obtain ⟨kept, accepted, lowered⟩ := compiled
  obtain ⟨parsed, shape, _⟩ := Abac.collected_of_compile accepted
  obtain ⟨source, occurs⟩ := env.parse_free _ _ parsed
  obtain ⟨expr, lowers⟩ := Abac.lowers_of_isCondition [] shape
  have same : expr = condition.tree := by
    have twice := lowers.lowered.symm.trans lowered
    exact Option.some.inj twice
  refine ⟨source, fun path member => occurs path ?_⟩
  rw [← lowers.paths, same]
  exact List.mem_dedup.mp member

/-- What an evaluation leaves unbound are paths of the condition. -/
theorem Abac.mem_paths_of_evaluate {condition : Abac.Condition} {attrs : Abac.Attributes}
    {satisfied : Bool} {unbound : List String}
    (evaluated : Abac.evaluate condition attrs = .ok (satisfied, unbound))
    : ∀ path ∈ unbound, path ∈ condition.paths := by
  unfold Abac.evaluate at evaluated
  cases lacking : Abac.missing condition attrs with
  | nil =>
      rw [lacking] at evaluated
      cases result : Abac.eval attrs condition.tree with
      | error raised =>
          rw [result] at evaluated
          cases evaluated
      | ok value =>
          rw [result] at evaluated
          cases evaluated
          simp
  | cons first rest =>
      rw [lacking] at evaluated
      cases evaluated
      rw [← lacking]
      intro path member
      have among := (List.perm_insertionSort _ _).mem_iff.mp member
      exact (List.mem_filter.mp among).1

/-- The problem of a condition names the paths that it could not resolve. -/
theorem Interceptor.free_problem {condition : Abac.Condition} {attrs : Abac.Attributes}
    {problem : String} (plain : condition.Plain)
    (found : (conditionVerdict condition attrs).2 = some problem)
    : NulFree problem := by
  unfold conditionVerdict at found
  split at found
  · cases found
  · next evaluated =>
      cases found
      refine .append (by simp [NulFree]) (.intercalate (by simp [NulFree]) ?_)
      exact fun path member => plain.named path (Abac.mem_paths_of_evaluate evaluated path member)
  · cases found
    simp [NulFree]

-----------------------------------------------------------------------------------------
-- Validation errors
-----------------------------------------------------------------------------------------

theorem ParamValidator.free_injectionError {fields : List (String × Json)} {error : String}
    (found : injectionError fields = some error)
    : NulFree error := by
  induction fields with
  | nil => cases found
  | cons field rest ih =>
      obtain ⟨key, value⟩ := field
      rw [injectionError] at found
      split at found
      · split at found
        · exact ih found
        · cases found
          exact .append (by simp [NulFree]) (.pyRepr _)
      · exact ih found

theorem Environment.free_validateValues (env : Environment) {arguments schema : Json} {error : String}
    (found : ParamValidator.validateValues env.runtime arguments schema = .ok (some error))
    : NulFree error := by
  unfold ParamValidator.validateValues at found
  split at found
  · next message verdict =>
      cases found
      exact .append (by simp [NulFree]) (env.validationError_free _ _ _ verdict)
  · next message verdict =>
      cases found
      exact .append (by simp [NulFree]) (env.schemaError_free _ _ _ verdict)
  · cases found
  · split at found
    · exact ParamValidator.free_injectionError (Except.ok.inj found)
    · cases found

/-- An error text quotes the client's values. -/
theorem Environment.free_validate (env : Environment) {arguments schema : Json} {error : String}
    (found : ParamValidator.validate env.runtime arguments schema = .ok (some error))
    : NulFree error := by
  obtain ⟨properties, _, checked⟩ := Loop.bind_eq_ok.mp found
  split at checked
  · obtain ⟨unknown, _, sorting⟩ := Loop.bind_eq_ok.mp checked
    split at sorting
    · exact env.free_validateValues sorting
    · obtain ⟨sorted, _, ended⟩ := Loop.bind_eq_ok.mp sorting
      cases ended
      exact .append (by simp [NulFree]) (.repr _)
  · exact env.free_validateValues checked

-----------------------------------------------------------------------------------------
-- Risk factors
-----------------------------------------------------------------------------------------

namespace RiskEngine

section

variable (env : Environment) (settings : RiskSettings) (ctx : RiskContext)

theorem free_time (time : UtcTime) : NulFree time.text := by
  have day : NulFree time.dayName := by
    have each : ∀ weekday : Fin 7, NulFree
        (["Mon", "Tue", "Wed", "Thu", "Fri", "Sat", "Sun"].get weekday) := by
      intro weekday
      fin_cases weekday <;> simp [NulFree]
    exact each time.weekday
  have digits (number : Nat) : NulFree (UtcTime.twoDigits number) := by
    unfold UtcTime.twoDigits
    split
    · exact .append (by simp [NulFree]) (.nat number)
    · exact .nat number
  exact (((day.append (by simp [NulFree])).append (digits _)).append (by simp [NulFree])).append
    (digits _)

theorem plain_reason {name reason : String} {contribution : Int} (named : NulFree name)
    (worded : NulFree reason)
    : RiskFactor.Plain ⟨name, contribution, some reason⟩ := by
  refine ⟨named, ?_⟩
  intro other same
  cases same
  exact worded

theorem plain_toolSensitivity : ∀ factor ∈ toolSensitivity env.stdlib ctx, factor.Plain := by
  intro factor found
  obtain ⟨tier, _, rfl⟩ := Option.map_eq_some_iff.mp found
  have graded : NulFree tier.name := by cases tier <;> simp [NulFree, SensitivityTier.name]
  exact plain_reason (by simp [NulFree])
    (((env.repr_free _).append (by simp [NulFree])).append graded)

theorem plain_blastRadius : ∀ factor ∈ blastRadius env.stdlib ctx, factor.Plain := by
  intro factor found
  obtain ⟨value, _, matched⟩ := List.exists_of_findSome?_eq_some found
  obtain ⟨pattern, _, rfl⟩ := Option.map_eq_some_iff.mp matched
  refine plain_reason (by simp [NulFree]) ?_
  simp only [NulFree.append_iff, env.repr_free, and_true]
  simp [NulFree]

theorem plain_businessHours : ∀ factor ∈ businessHours settings ctx, factor.Plain := by
  intro factor found
  unfold businessHours at found
  split at found
  · cases found
    refine plain_reason (by simp [NulFree]) ?_
    simp only [NulFree.append_iff, free_time, and_true]
    simp [NulFree]
  · cases found

/-- A count over its threshold is quoted with the window that it counts. -/
theorem plain_counted {count threshold : Int} {factor other : RiskFactor}
    (found : (if count ≤ threshold then none else some other) = some factor) (plain : other.Plain)
    : factor.Plain := by
  split at found
  · cases found
  · cases found
    exact plain

theorem plain_callFrequency : ∀ factor ∈ callFrequency settings env.stdlib ctx, factor.Plain := by
  intro factor found
  refine plain_counted found (plain_reason (by simp [NulFree]) ?_)
  simp only [NulFree.append_iff, env.repr_free, NulFree.int, NulFree.nat, and_true, true_and]
  simp [NulFree]

theorem plain_priorDenialRate
    : ∀ factor ∈ priorDenialRate settings env.stdlib ctx, factor.Plain := by
  intro factor found
  refine plain_counted found (plain_reason (by simp [NulFree]) ?_)
  simp only [NulFree.append_iff, env.repr_free, NulFree.int, NulFree.nat, and_true, true_and]
  simp [NulFree]

theorem plain_authFailures : ∀ factor ∈ authFailures settings ctx, factor.Plain := by
  intro factor found
  refine plain_counted found (plain_reason (by simp [NulFree]) ?_)
  simp only [NulFree.append_iff, NulFree.int, NulFree.nat, and_true, true_and]
  simp [NulFree]

theorem plain_driftHistory : ∀ factor ∈ driftHistory settings env.stdlib ctx, factor.Plain := by
  intro factor found
  unfold driftHistory at found
  split at found
  · cases found
  · cases found
    refine plain_reason (by simp [NulFree]) ?_
    simp only [NulFree.append_iff, env.repr_free, NulFree.int, NulFree.nat, and_true, true_and]
    simp [NulFree]

/-- The factors that a flag of the detector brings. -/
theorem plain_flagged {flag : Bool} {factor other : RiskFactor}
    (found : (if !flag then none else some other) = some factor) (plain : other.Plain)
    : factor.Plain := by
  cases flag with
  | false => cases found
  | true =>
      cases found
      exact plain

theorem plain_driftInReview : ∀ factor ∈ driftInReview env.stdlib ctx, factor.Plain := by
  intro factor found
  refine plain_flagged found (plain_reason (by simp [NulFree]) ?_)
  exact (env.repr_free _).append (by simp [NulFree])

theorem plain_suspiciousBaseline
    : ∀ factor ∈ suspiciousBaseline env.stdlib ctx, factor.Plain := by
  intro factor found
  refine plain_flagged found (plain_reason (by simp [NulFree]) ?_)
  exact ((env.repr_free _).append (by simp [NulFree])).append (by simp [NulFree])

/-- A factor quotes what it names. -/
theorem plain_factors : ∀ factor ∈ factors settings env.stdlib ctx, factor.Plain := by
  intro factor member
  have among := List.reduceOption_mem_iff.mp member
  simp only [List.mem_cons, List.not_mem_nil, or_false] at among
  rcases among with found | found | found | found | found | found | found | found | found
  · exact plain_toolSensitivity env ctx factor found.symm
  · exact plain_blastRadius env ctx factor found.symm
  · exact plain_businessHours settings ctx factor found.symm
  · exact plain_callFrequency env settings ctx factor found.symm
  · exact plain_driftInReview env ctx factor found.symm
  · exact plain_priorDenialRate env settings ctx factor found.symm
  · exact plain_authFailures settings ctx factor found.symm
  · exact plain_driftHistory env settings ctx factor found.symm
  · exact plain_suspiciousBaseline env ctx factor found.symm

end

end RiskEngine

namespace Risk

/-- The factors of a score are those of the context that was gathered. -/
theorem plain_score (env : Environment) (settings : RiskSettings) (key : CallKey)
    (arguments : Json) (policy : RiskPolicy) (dryRun : Bool)
    : Meets (fun _ => True) (fun scored => ∀ factor ∈ scored.2, factor.Plain) (fun _ _ => True)
        (score settings env.stdlib key arguments policy dryRun) := by
  refine .andThen .any (fun count _ => ?_)
  refine .andThen .any (fun context _ => ?_)
  refine .andThen .any (fun stored _ => ?_)
  exact .pure (RiskEngine.plain_factors env settings context)

end Risk

-----------------------------------------------------------------------------------------
-- The reasons of the stores
-----------------------------------------------------------------------------------------

/-- (Reasoned failure) means that a failure, if there is one, has a reason. -/
def Reasoned (failure : Option String) : Prop :=
  ∀ reason ∈ failure, Worded reason

theorem reasoned_none : Reasoned none := by
  intro _ same
  cases same

theorem reasoned_some {reason : String} (worded : Worded reason) : Reasoned (some reason) := by
  intro _ same
  cases same
  exact worded

theorem ReplayGuard.reasoned_check (settings : Settings) (isUuid : String → Bool)
    (nonce timestamp : Json)
    : Meets (fun _ => True) Reasoned (fun _ _ => True)
        (check settings isUuid nonce timestamp) := by
  unfold check
  split
  · split
    · exact .pure (reasoned_some ⟨by simp [NulFree], by simp⟩)
    · split
      · exact .pure (reasoned_some ⟨by simp [NulFree], by simp⟩)
      · refine .andThen .any (fun now _ => ?_)
        refine .andThen .any (fun outside _ => ?_)
        split
        · refine .pure (reasoned_some ?_)
          refine .append (.append ?_ (.int _)) (by simp [NulFree])
          exact ⟨by simp [NulFree], by simp⟩
        · refine .andThen .any (fun fresh _ => ?_)
          split
          · exact .pure reasoned_none
          · exact .pure (reasoned_some ⟨by simp [NulFree], by simp⟩)
  · exact .pure (reasoned_some ⟨by simp [NulFree], by simp⟩)

namespace Approvals

/-- (Refuses denial) means that a denial is of a kind that denies, and has a reason. -/
def Refuses (denial : Option (EventType × String)) : Prop :=
  ∀ kind reason,
    denial = some (kind, reason)
    → DecisionExplainer.outcomes kind = some .deny ∧ Worded reason

theorem refuses_some {kind : EventType} {reason : String}
    (denies : DecisionExplainer.outcomes kind = some .deny) (worded : Worded reason)
    : Refuses (some (kind, reason)) := by
  intro _ _ same
  cases same
  exact ⟨denies, worded⟩

theorem refuses_redeem (approvalId : String) (key : CallKey) (argumentsHash : String)
    : Meets (fun _ => True) Refuses (fun _ _ => True) (redeem approvalId key argumentsHash) := by
  have session {body : ApprovalAsync (Option (EventType × String))}
      (meets : Meets (fun _ => True) Refuses (fun _ _ => True) body)
      : Meets (fun _ => True) Refuses (fun _ _ => True) (withSession body) := by
    refine .andThen (.attempt meets) (fun result refuses => ?_)
    refine .andThen .any (fun _ _ => .ofExcept ?_)
    cases result with
    | ok denial => exact refuses denial rfl
    | error exn => trivial
  refine session (.andThen .any (fun found _ => ?_))
  cases found with
  | none => exact .pure (refuses_some rfl ⟨by simp [NulFree], by simp⟩)
  | some row =>
      dsimp only
      split
      · exact .pure (refuses_some rfl ⟨by simp [NulFree], by simp⟩)
      · refine .andThen .any (fun lapsed _ => ?_)
        split
        · split
          · exact .andThen .any
              (fun _ _ => .pure (refuses_some rfl ⟨by simp [NulFree], by simp⟩))
          · exact .pure (refuses_some rfl ⟨by simp [NulFree], by simp⟩)
        · split
          · exact .pure (refuses_some rfl ⟨by simp [NulFree], by simp⟩)
          · split
            · exact .pure (refuses_some rfl ⟨by simp [NulFree], by simp⟩)
            · split
              · exact .pure (refuses_some rfl ⟨by simp [NulFree], by simp⟩)
              · refine .andThen .any (fun _ _ => .pure ?_)
                intro kind reason same
                cases same

end Approvals

namespace StepUp

theorem reasoned_spendCode (key : CallKey) (proof : Json)
    : Meets (fun _ => True) Reasoned (fun _ _ => True) (spendCode key proof) := by
  refine .andThen .any (fun fresh _ => .pure ?_)
  cases fresh with
  | false => exact reasoned_some ⟨by simp [NulFree], by simp⟩
  | true => exact reasoned_none

theorem reasoned_redeem (challengeId : String) (key : CallKey) (argumentsHash : String)
    (proof : Json) (secretB32 : String)
    : Meets (fun _ => True) Reasoned (fun _ _ => True)
        (redeem challengeId key argumentsHash proof secretB32) := by
  refine .andThen .any (fun found _ => ?_)
  cases found with
  | none => exact .pure (reasoned_some ⟨by simp [NulFree], by simp⟩)
  | some record =>
      refine .andThen .any (fun elsewhere _ => ?_)
      split
      · exact .pure (reasoned_some ⟨by simp [NulFree], by simp⟩)
      · refine .andThen .any (fun stored _ => ?_)
        split
        · exact .pure (reasoned_some ⟨by simp [NulFree], by simp⟩)
        · split
          · exact .pure (reasoned_some ⟨by simp [NulFree], by simp⟩)
          · refine .andThen .any (fun valid _ => ?_)
            split
            · exact reasoned_spendCode key proof
            · exact .pure (reasoned_some ⟨by simp [NulFree], by simp⟩)

end StepUp

end SecureMcp
