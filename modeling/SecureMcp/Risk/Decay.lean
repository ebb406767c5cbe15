import SecureMcp.Risk.Factors
import Mathlib.Algebra.BigOperators.Group.List.Basic
import Mathlib.Logic.Function.Iterate
import Mathlib.Tactic.Linarith
import Mathlib.Tactic.Ring

/-! Approvals discount the behavioral part of a score, by no more than the configured maximum,
and leave the static part.
-/

namespace SecureMcp

namespace RiskEngine

/-- Every contribution is at least zero. -/
def NonNegative (factors : List RiskFactor) : Prop :=
  ∀ factor ∈ factors, 0 ≤ factor.contribution

section

variable {factors before after : List RiskFactor} {factor : RiskFactor}

theorem sum_nonneg_of_sublist {part : List RiskFactor} (nonNegative : NonNegative factors)
    (sublist : part.Sublist factors)
    : 0 ≤ (part.map RiskFactor.contribution).sum := by
  refine List.sum_nonneg ?_
  intro contribution member
  obtain ⟨factor, among, rfl⟩ := List.mem_map.mp member
  exact nonNegative factor (sublist.subset among)

theorem staticSum_nonneg (nonNegative : NonNegative factors) : 0 ≤ staticSum factors :=
  sum_nonneg_of_sublist nonNegative List.filter_sublist

theorem behavioralSum_nonneg (nonNegative : NonNegative factors) : 0 ≤ behavioralSum factors :=
  sum_nonneg_of_sublist nonNegative List.filter_sublist

/-- One factor adds to one of the two sums. -/
theorem staticSum_split
    : staticSum (before ++ factor :: after)
      = staticSum (before ++ after)
        + if factor.factor ∈ behavioralFactors then 0 else factor.contribution := by
  unfold staticSum
  split
  · next behavioral => simp [behavioral]
  · next static =>
      simp only [List.filter_append, List.filter_cons, static, not_false_eq_true, decide_true,
        if_true, List.map_append, List.map_cons, List.sum_append, List.sum_cons]
      ring

theorem behavioralSum_split
    : behavioralSum (before ++ factor :: after)
      = behavioralSum (before ++ after)
        + if factor.factor ∈ behavioralFactors then factor.contribution else 0 := by
  unfold behavioralSum
  split
  · next behavioral =>
      simp only [List.filter_append, List.filter_cons, behavioral, decide_true, if_true,
        List.map_append, List.map_cons, List.sum_append, List.sum_cons]
      ring
  · next static => simp [static]

end

/-- Both sums only push a score up, and the offset only down. -/
theorem combine_le_combine {factors others : List RiskFactor} {offset other : Int}
    (static : staticSum factors ≤ staticSum others)
    (behavioral : behavioralSum factors ≤ behavioralSum others) (offsets : other ≤ offset)
    : combine factors offset ≤ combine others other := by
  unfold combine
  omega

section

variable (settings : RiskSettings)

/-- Approvals add up. -/
theorem stored_after (approvals : Nat)
    : ((applyDecay settings)^[approvals] none).getD 0 = approvals * settings.riskDecayStep := by
  induction approvals with
  | zero => simp
  | succ approvals ih =>
      rw [Function.iterate_succ_apply', applyDecay, Option.getD_some, ih]
      push_cast
      ring

theorem decayOffset_nonneg (approvals : Nat)
    : 0 ≤ decayOffset settings ((applyDecay settings)^[approvals] none) := by
  rw [decayOffset, stored_after]
  exact le_min (mul_nonneg (Int.natCast_nonneg _) (Int.natCast_nonneg _)) (Int.natCast_nonneg _)

/-- An approval never lowers the offset. -/
theorem decayOffset_mono (approvals : Nat)
    : decayOffset settings ((applyDecay settings)^[approvals] none)
      ≤ decayOffset settings ((applyDecay settings)^[approvals + 1] none) := by
  unfold decayOffset
  rw [stored_after, stored_after]
  push_cast
  refine min_le_min_right _ ?_
  linarith [Int.natCast_nonneg settings.riskDecayStep]

theorem scoreAfter_add {before after : List RiskFactor} {factor : RiskFactor} (approvals : Nat)
    (contributes : 0 ≤ factor.contribution)
    : scoreAfter settings approvals (before ++ after)
      ≤ scoreAfter settings approvals (before ++ factor :: after) := by
  refine combine_le_combine ?_ ?_ le_rfl
  · rw [staticSum_split]
    split <;> omega
  · rw [behavioralSum_split]
    split <;> omega

theorem scoreAfter_grow {before after : List RiskFactor} {factor larger : RiskFactor}
    (approvals : Nat) (same : larger.factor = factor.factor)
    (grows : factor.contribution ≤ larger.contribution)
    : scoreAfter settings approvals (before ++ factor :: after)
      ≤ scoreAfter settings approvals (before ++ larger :: after) := by
  refine combine_le_combine ?_ ?_ le_rfl
  · rw [staticSum_split, staticSum_split, same]
    split <;> omega
  · rw [behavioralSum_split, behavioralSum_split, same]
    split <;> omega

end

/-- A score is between 0 and 100, at least its static part up to 100, and at most the maximal
discount below the score without approvals; another approval never raises it, and another
factor or a larger contribution never lowers it.
-/
theorem decay_bounded (settings : RiskSettings) (factors : List RiskFactor)
    (nonNegative : NonNegative factors) (approvals : Nat)
    : 0 ≤ scoreAfter settings approvals factors
      ∧ scoreAfter settings approvals factors ≤ 100
      ∧ min 100 (staticSum factors) ≤ scoreAfter settings approvals factors
      ∧ scoreAfter settings 0 factors - settings.riskDecayMax
          ≤ scoreAfter settings approvals factors
      ∧ scoreAfter settings (approvals + 1) factors ≤ scoreAfter settings approvals factors
      ∧ (∀ before factor after,
          factors = before ++ after
          → 0 ≤ factor.contribution
          → scoreAfter settings approvals factors
              ≤ scoreAfter settings approvals (before ++ factor :: after))
      ∧ ∀ before factor larger after,
          factors = before ++ factor :: after
          → larger.factor = factor.factor
          → factor.contribution ≤ larger.contribution
          → scoreAfter settings approvals factors
              ≤ scoreAfter settings approvals (before ++ larger :: after) := by
  have static := staticSum_nonneg nonNegative
  have behavioral := behavioralSum_nonneg nonNegative
  have least := decayOffset_nonneg settings approvals
  have most : decayOffset settings ((applyDecay settings)^[approvals] none)
      ≤ settings.riskDecayMax :=
    min_le_right _ _
  have undiscounted : decayOffset settings ((applyDecay settings)^[0] none) = 0 := by
    simp [decayOffset]
  refine ⟨?_, ?_, ?_, ?_, ?_, ?_, ?_⟩
  · unfold scoreAfter combine
    omega
  · exact min_le_right _ _
  · unfold scoreAfter combine
    omega
  · unfold scoreAfter combine
    rw [undiscounted]
    omega
  · exact combine_le_combine le_rfl le_rfl (decayOffset_mono settings approvals)
  · intro before factor after split contributes
    rw [split]
    exact scoreAfter_add settings approvals contributes
  · intro before factor larger after split same grows
    rw [split]
    exact scoreAfter_grow settings approvals same grows

/-- Witness: a static and a behavioral factor, discounted twice. -/
theorem discounted_bounded
    : let factors : List RiskFactor := [
        { factor := "tool_sensitivity", contribution := 30 },
        { factor := "call_frequency", contribution := 20 }
      ]
      0 ≤ scoreAfter {} 2 factors
      ∧ scoreAfter {} 2 factors ≤ 100
      ∧ min 100 (staticSum factors) ≤ scoreAfter {} 2 factors := by
  intro factors
  have nonNegative : NonNegative factors := by
    simp [NonNegative, factors]
  have bounded := decay_bounded {} factors nonNegative 2
  exact ⟨bounded.1, bounded.2.1, bounded.2.2.1⟩

end RiskEngine

end SecureMcp
