import SecureMcp.Interceptor.Message
import SecureMcp.Risk.Decay
import SecureMcp.Risk.DryRun

/-! More evidence never lowers a score: with more calls, denials, failures, drift and matches, and
fewer approvals, a call scores at least as high and falls into a band that is at least as strict.
-/

namespace SecureMcp

open Interaction

namespace RiskEngine

/-- (Escalates one other) means that a factor that contributes still does, under the same name,
and at least as much; what contributes does not lower a score.
-/
structure Escalates (one other : Option RiskFactor) : Prop where
  stronger : ∀ factor,
    one = some factor
    → ∃ stronger,
        other = some stronger
        ∧ stronger.factor = factor.factor
        ∧ factor.contribution ≤ stronger.contribution
  nonNegative : ∀ factor, other = some factor → 0 ≤ factor.contribution

/-- The contributions of the factors with a kind of name. -/
def sumOf (kind : String → Bool) (factors : List RiskFactor) : Int :=
  ((factors.filter (fun factor => kind factor.factor)).map RiskFactor.contribution).sum

theorem staticSum_eq (factors : List RiskFactor)
    : staticSum factors = sumOf (fun name => name ∉ behavioralFactors) factors :=
  rfl

theorem behavioralSum_eq (factors : List RiskFactor)
    : behavioralSum factors = sumOf (fun name => name ∈ behavioralFactors) factors :=
  rfl

theorem sumOf_cons (kind : String → Bool) (factor : RiskFactor) (rest : List RiskFactor)
    : sumOf kind (factor :: rest)
      = (if kind factor.factor then factor.contribution else 0) + sumOf kind rest := by
  unfold sumOf
  by_cases counts : kind factor.factor <;> simp [counts]

/-- Factors that escalate one by one have larger sums, by induction on them. -/
theorem sumOf_le_sumOf {ones others : List (Option RiskFactor)} (kind : String → Bool)
    (each : List.Forall₂ Escalates ones others)
    : sumOf kind ones.reduceOption ≤ sumOf kind others.reduceOption := by
  induction each with
  | nil => exact le_rfl
  | @cons one other ones others head _ ih =>
      cases one with
      | none =>
          rw [List.reduceOption_cons_of_none]
          cases other with
          | none => exact ih
          | some factor =>
              have least := head.nonNegative factor rfl
              rw [List.reduceOption_cons_of_some, sumOf_cons]
              split <;> omega
      | some factor =>
          obtain ⟨stronger, rfl, name, more⟩ := head.stronger factor rfl
          rw [List.reduceOption_cons_of_some, List.reduceOption_cons_of_some, sumOf_cons, sumOf_cons,
            name]
          split <;> omega

/-- A factor that is left out under a condition escalates when the condition gets harder to meet. -/
theorem escalates_unless {p q : Prop} [Decidable p] [Decidable q] {factor other : RiskFactor}
    (harder : q → p) (name : other.factor = factor.factor)
    (more : factor.contribution ≤ other.contribution) (least : 0 ≤ other.contribution)
    : Escalates (if p then none else some factor) (if q then none else some other) where
  stronger found same := by
    split at same
    · cases same
    · next counts =>
        cases same
        exact ⟨other, if_neg (fun holds => counts (harder holds)), name, more⟩
  nonNegative found same := by
    split at same
    · cases same
    · cases same
      exact least

end RiskEngine

/-- An argument matches a protected pattern. -/
def RiskContext.MatchesProtected (stdlib : Stdlib) (ctx : RiskContext) : Prop :=
  ∃ value ∈ stringValues ctx.arguments, ∃ pattern ∈ ctx.policy.protectedRepos,
    stdlib.fnmatch value pattern

/-- It is a weekend, or not between the business hours. -/
def RiskContext.OffHours (settings : RiskSettings) (ctx : RiskContext) : Prop :=
  5 ≤ ctx.now.weekday.val
  ∨ ¬ (settings.businessHoursStartUtc ≤ ctx.now.hour
    ∧ (ctx.now.hour : Int) < settings.businessHoursEndUtc)

/-- (ctx.Milder settings stdlib other) means that everything that speaks against a call in one
context does so in the other.
-/
structure RiskContext.Milder (settings : RiskSettings) (stdlib : Stdlib) (ctx other : RiskContext)
    : Prop where
  toolName : other.toolName = ctx.toolName
  sensitivity : ∀ tier,
    ctx.policy.toolSensitivity.lookup ctx.toolName = some tier
    → ∃ higher,
        other.policy.toolSensitivity.lookup ctx.toolName = some higher
        ∧ tier.contribution ≤ higher.contribution
  matchesProtected : ctx.MatchesProtected stdlib → other.MatchesProtected stdlib
  offHours : ctx.OffHours settings → other.OffHours settings
  callCount : ctx.callCount ≤ other.callCount
  driftInReview : ctx.driftInReview → other.driftInReview
  denialCount : ctx.denialCount ≤ other.denialCount
  authFailureCount : ctx.authFailureCount ≤ other.authFailureCount
  driftEventCount : ctx.driftEventCount ≤ other.driftEventCount
  suspiciousBaseline : ctx.suspiciousBaseline → other.suspiciousBaseline

namespace RiskEngine

section

variable {settings : RiskSettings} {stdlib : Stdlib} {ctx other : RiskContext}

theorem contribution_nonneg (tier : SensitivityTier) : 0 ≤ tier.contribution := by
  cases tier <;> decide

theorem escalates_toolSensitivity (milder : ctx.Milder settings stdlib other)
    : Escalates (toolSensitivity stdlib ctx) (toolSensitivity stdlib other) where
  stronger factor same := by
    obtain ⟨tier, listed, rfl⟩ := Option.map_eq_some_iff.mp same
    obtain ⟨higher, found, more⟩ := milder.sensitivity tier listed
    refine ⟨_, Option.map_eq_some_iff.mpr ⟨higher, ?_, rfl⟩, rfl, more⟩
    rw [milder.toolName, found]
  nonNegative factor same := by
    obtain ⟨tier, _, rfl⟩ := Option.map_eq_some_iff.mp same
    exact contribution_nonneg tier

/-- What a protected pattern matches gives the factor. -/
theorem isSome_blastRadius_iff {ctx : RiskContext}
    : (blastRadius stdlib ctx).isSome ↔ ctx.MatchesProtected stdlib := by
  simp [blastRadius, List.findSome?_isSome_iff, RiskContext.MatchesProtected]

theorem factor_of_blastRadius {factor : RiskFactor} (same : blastRadius stdlib ctx = some factor)
    : factor.factor = "protected_repository" ∧ factor.contribution = 30 := by
  obtain ⟨value, _, found⟩ := List.exists_of_findSome?_eq_some same
  obtain ⟨pattern, _, rfl⟩ := Option.map_eq_some_iff.mp found
  exact ⟨rfl, rfl⟩

theorem escalates_blastRadius (milder : ctx.Milder settings stdlib other)
    : Escalates (blastRadius stdlib ctx) (blastRadius stdlib other) where
  stronger factor same := by
    have found := isSome_blastRadius_iff.mp (Option.isSome_iff_exists.mpr ⟨factor, same⟩)
    obtain ⟨stronger, present⟩ := Option.isSome_iff_exists.mp
      (isSome_blastRadius_iff.mpr (milder.matchesProtected found))
    obtain ⟨name, contribution⟩ := factor_of_blastRadius same
    obtain ⟨otherName, otherContribution⟩ := factor_of_blastRadius present
    exact ⟨stronger, present, otherName.trans name.symm,
      (contribution.trans otherContribution.symm).le⟩
  nonNegative factor same := by
    rw [(factor_of_blastRadius same).2]
    decide

theorem escalates_businessHours (milder : ctx.Milder settings stdlib other)
    : Escalates (businessHours settings ctx) (businessHours settings other) where
  stronger factor same := by
    unfold businessHours at same
    split at same
    · next outside =>
        cases same
        exact ⟨_, if_pos (milder.offHours outside), rfl, le_rfl⟩
    · cases same
  nonNegative factor same := by
    unfold businessHours at same
    split at same
    · cases same
      simp
    · cases same

/-- What is not flagged in the other context is not flagged in the milder one. -/
theorem unflagged {flag otherFlag : Bool} (flagged : flag → otherFlag)
    : (!otherFlag) = true → (!flag) = true := by
  cases flag <;> simp_all

/-- Every factor escalates, in the order of the list. -/
theorem escalates_factors (milder : ctx.Milder settings stdlib other)
    : List.Forall₂ Escalates
        [
          toolSensitivity stdlib ctx,
          blastRadius stdlib ctx,
          businessHours settings ctx,
          callFrequency settings stdlib ctx,
          driftInReview stdlib ctx,
          priorDenialRate settings stdlib ctx,
          authFailures settings ctx,
          driftHistory settings stdlib ctx,
          suspiciousBaseline stdlib ctx
        ]
        [
          toolSensitivity stdlib other,
          blastRadius stdlib other,
          businessHours settings other,
          callFrequency settings stdlib other,
          driftInReview stdlib other,
          priorDenialRate settings stdlib other,
          authFailures settings other,
          driftHistory settings stdlib other,
          suspiciousBaseline stdlib other
        ] := by
  have review := unflagged milder.driftInReview
  have baseline := unflagged milder.suspiciousBaseline
  exact .cons (escalates_toolSensitivity milder) (.cons (escalates_blastRadius milder)
    (.cons (escalates_businessHours milder)
    (.cons (escalates_unless milder.callCount.trans rfl le_rfl (by simp))
    (.cons (escalates_unless review rfl le_rfl (by simp))
    (.cons (escalates_unless milder.denialCount.trans rfl le_rfl (by simp))
    (.cons (escalates_unless milder.authFailureCount.trans rfl le_rfl (by simp))
    (.cons (escalates_unless milder.driftEventCount.trans_lt rfl le_rfl (by simp))
    (.cons (escalates_unless baseline rfl le_rfl (by simp)) .nil))))))))

/-- A context with more evidence and fewer approvals has at least the score. -/
theorem combine_factors_le {offset otherOffset : Int}
    (milder : ctx.Milder settings stdlib other) (approved : otherOffset ≤ offset)
    : combine (factors settings stdlib ctx) offset
      ≤ combine (factors settings stdlib other) otherOffset := by
  have each := escalates_factors milder
  refine combine_le_combine ?_ ?_ approved
  · rw [staticSum_eq, staticSum_eq]
    exact sumOf_le_sumOf _ each
  · rw [behavioralSum_eq, behavioralSum_eq]
    exact sumOf_le_sumOf _ each

theorem decayOffset_le {stored otherStored : Option Int}
    (approved : otherStored.getD 0 ≤ stored.getD 0)
    : decayOffset settings otherStored ≤ decayOffset settings stored :=
  min_le_min_right _ approved

end

end RiskEngine

namespace Risk

/-- How strict the outcome of a band is. -/
def strictness : DecisionOutcome → Nat
  | .allow => 0
  | .challenge => 1
  | .humanApprovalRequired => 2
  | .deny => 3

/-- A higher score does not fall into a milder band. -/
theorem strictness_mono {score other : Int} (more : score ≤ other)
    : strictness (Interceptor.thresholdOutcome score)
      ≤ strictness (Interceptor.thresholdOutcome other) := by
  unfold Interceptor.thresholdOutcome Interceptor.riskDenyAbove Interceptor.riskApprovalMin
    Interceptor.riskChallengeMin
  split_ifs <;> simp [strictness] <;> omega

/-- The context of the next call of a key in a state. -/
def nextContext (key : CallKey) (arguments : Json) (policy : RiskPolicy) (redis : Redis)
    (instant : Rat) (around : Surroundings)
    : RiskContext :=
  contextAt key arguments policy redis instant around ((redis (freqKey key)).next instant)

section

variable {settings : RiskSettings} {stdlib : Stdlib} {key : CallKey} {arguments more : Json}
  {policy stricter : RiskPolicy} {instant other : Rat} {redis after worse final : Redis}
  {events others : List (Event RiskReply)} {dryRun dryRunToo : Bool}
  {result higher : Int × List RiskFactor} {around surroundings : Surroundings}

/-- More evidence never lowers a score: of two scorings of one key, live or dry and each in a state
of its own, the one that finds everything that the other finds against the call, and not more
approvals, ends in a score that is at least as high and in a band that is at least as strict.
-/
theorem score_mono
    (exec : (score settings stdlib key arguments policy dryRun).run.Exec events (.ok result))
    (served : Program.Served (Redis.Serves instant) redis events after)
    (tells : ∀ event ∈ events, around.Tells settings key event)
    (execToo : (score settings stdlib key more stricter dryRunToo).run.Exec others (.ok higher))
    (servedToo : Program.Served (Redis.Serves other) worse others final)
    (tellsToo : ∀ event ∈ others, surroundings.Tells settings key event)
    (milder : (nextContext key arguments policy redis instant around).Milder settings stdlib
      (nextContext key more stricter worse other surroundings))
    (approved : ((worse (decayKey key)).live other).getD 0
      ≤ ((redis (decayKey key)).live instant).getD 0)
    : result.1 ≤ higher.1
      ∧ strictness (Interceptor.thresholdOutcome result.1)
        ≤ strictness (Interceptor.thresholdOutcome higher.1) := by
  have scores : result.1 ≤ higher.1 := by
    rw [score_of_served exec served tells, score_of_served execToo servedToo tellsToo]
    exact RiskEngine.combine_factors_le milder (RiskEngine.decayOffset_le approved)
  exact ⟨scores, strictness_mono scores⟩

end

/-- What the answers of a quiet call tell. -/
def quietSurroundings : Surroundings where
  now := quiet 0 (.applied ()) .utcNow
  driftInReview := false
  driftEventCount := 0
  suspiciousBaseline := false

theorem quietly_tells {settings : RiskSettings} {stdlib : Stdlib} {key : CallKey} {instant : Rat}
    {count : Int} {expire : Answer Unit}
    : ∀ event ∈ (quietly settings stdlib key instant count expire).events,
        quietSurroundings.Tells settings key event := by
  intro event member
  rw [Program.play_reply (quiet count expire) _ event member]
  cases event.call <;> simp [Surroundings.Tells, quiet, quietSurroundings]

/-- The second call of a minute scores at least as much as the first. -/
theorem second_call_scores_more
    : ∃ one two,
        (agentCalls 0 1).outcome = .ok one
        ∧ (agentCalls 30 2).outcome = .ok two
        ∧ one.1 ≤ two.1
        ∧ strictness (Interceptor.thresholdOutcome one.1)
          ≤ strictness (Interceptor.thresholdOutcome two.1) := by
  obtain ⟨exec, served⟩ := @first_scores onceAMinute quoting agentSends 0 none rfl
  obtain ⟨execToo, servedToo⟩ :=
    @second_scores onceAMinute quoting agentSends 30 (some 60) (by decide +kernel)
  refine ⟨_, _, rfl, rfl,
    score_mono exec served quietly_tells execToo servedToo quietly_tells ?_ ?_⟩
  · exact {
      toolName := rfl
      sensitivity := fun tier listed => ⟨tier, listed, le_rfl⟩
      matchesProtected := id
      offHours := id
      callCount := by decide +kernel
      driftInReview := id
      denialCount := by decide +kernel
      authFailureCount := by decide +kernel
      driftEventCount := le_rfl
      suspiciousBaseline := id
    }
  · decide +kernel

end Risk

end SecureMcp
