import SecureMcp.Audit.Writer
import SecureMcp.Decision
import SecureMcp.Library.Tally

/-! The summary of a policy comparison: the calls of a replay set, as two versions of the policy
decide them, are counted by how they differ, and the first differences are shown.
-/

namespace SecureMcp

/-- The value of an outcome in messages and in JSON. -/
def DecisionOutcome.value : DecisionOutcome → String
  | .allow => "allow"
  | .deny => "deny"
  | .challenge => "challenge"
  | .humanApprovalRequired => "human_approval_required"

namespace PolicySimulator

def sampleCap : Nat := 10

def reasonSnippetLen : Nat := 160

structure SampleDiff where
  auditSeq : Nat
  identity : String
  tool : String
  before : String
  after : String
  reason : String
  deriving DecidableEq

structure CompareSimulation where
  totalReplayed : Nat
  comparedVersions : List Int
  newDenials : Nat := 0
  newApprovals : Nat := 0
  changedRiskScores : Nat := 0
  changedExplanations : Nat := 0
  sampleDiffs : List SampleDiff := []

/-- A recorded call, and the decisions of the two versions on it. -/
structure Compared where
  row : AuditRow
  old : Decision
  new : Decision

/-- A reason as far as a sample shows it. -/
def snippet (reason : String) : String :=
  if reason.length ≤ reasonSnippetLen then reason
  else String.ofList (reason.toList.take (reasonSnippetLen - 1)) ++ "…"

/-- An outcome, with the score if there is one. -/
def label (decision : Decision) : String :=
  match decision.riskScore with
  | none => decision.decision.value
  | some score => decision.decision.value ++ " (risk " ++ toString score ++ ")"

/-- What a sample shows of a compared call. -/
def sampleDiff (compared : Compared) : SampleDiff where
  auditSeq := compared.row.seq
  identity := compared.row.identityId
  tool := compared.row.toolName.getD ""
  before := label compared.old
  after := label compared.new
  reason := snippet compared.new.reason

/-- One round of the loop of `summarizeCompare`. -/
def addCompared (result : CompareSimulation) (compared : Compared) : CompareSimulation :=
  let oldBucket := compared.old.decision
  let newBucket := compared.new.decision
  let newDenials :=
    if (oldBucket = .allow ∨ oldBucket = .challenge) ∧ newBucket = .deny then result.newDenials + 1
    else result.newDenials
  let newApprovals :=
    if newBucket = .humanApprovalRequired ∧ oldBucket ≠ .humanApprovalRequired then
      result.newApprovals + 1
    else result.newApprovals
  let changedRiskScores :=
    if compared.old.riskScore ≠ compared.new.riskScore then result.changedRiskScores + 1
    else result.changedRiskScores
  let counted :=
    { result with newDenials := newDenials, newApprovals := newApprovals,
                  changedRiskScores := changedRiskScores }
  if oldBucket ≠ newBucket ∨ compared.old.reason ≠ compared.new.reason then
    { counted with
      changedExplanations := result.changedExplanations + 1
      sampleDiffs :=
        if result.sampleDiffs.length < sampleCap then result.sampleDiffs ++ [sampleDiff compared]
        else result.sampleDiffs
    }
  else counted

/-- Both decisions are simulated: the old one under the first of the versions, and the new one
under the second.
-/
def summarizeCompare (triples : List Compared) (versions : List Int) : CompareSimulation :=
  triples.foldl addCompared { totalReplayed := triples.length, comparedVersions := versions }

namespace Compared

/-- The guard of the counter of new denials. -/
def losesAccess (compared : Compared) : Bool :=
  (compared.old.decision = .allow ∨ compared.old.decision = .challenge)
  ∧ compared.new.decision = .deny

/-- The new version denies what the old one does not. -/
def newlyDenied (compared : Compared) : Bool :=
  compared.new.decision = .deny ∧ compared.old.decision ≠ .deny

/-- The new version holds for approval what the old one does not. -/
def newlyHeld (compared : Compared) : Bool :=
  compared.new.decision = .humanApprovalRequired
  ∧ compared.old.decision ≠ .humanApprovalRequired

def rescored (compared : Compared) : Bool :=
  compared.old.riskScore ≠ compared.new.riskScore

/-- The outcome changed, or the reason for it. -/
def explainedAnew (compared : Compared) : Bool :=
  compared.old.decision ≠ compared.new.decision ∨ compared.old.reason ≠ compared.new.reason

end Compared

section

variable (result : CompareSimulation) (compared : Compared)

theorem addCompared_newDenials
    : (addCompared result compared).newDenials
      = Tally.count Compared.losesAccess result.newDenials compared := by
  simp only [addCompared, Tally.count, Compared.losesAccess, decide_eq_true_eq]
  split <;> rfl

theorem addCompared_newApprovals
    : (addCompared result compared).newApprovals
      = Tally.count Compared.newlyHeld result.newApprovals compared := by
  simp only [addCompared, Tally.count, Compared.newlyHeld, decide_eq_true_eq]
  split <;> rfl

theorem addCompared_changedRiskScores
    : (addCompared result compared).changedRiskScores
      = Tally.count Compared.rescored result.changedRiskScores compared := by
  simp only [addCompared, Tally.count, Compared.rescored, decide_eq_true_eq]
  split <;> rfl

theorem addCompared_changedExplanations
    : (addCompared result compared).changedExplanations
      = Tally.count Compared.explainedAnew result.changedExplanations compared := by
  simp only [addCompared, Tally.count, Compared.explainedAnew, decide_eq_true_eq]
  split <;> rfl

theorem addCompared_sampleDiffs
    : (addCompared result compared).sampleDiffs
      = Tally.keep sampleCap Compared.explainedAnew sampleDiff result.sampleDiffs compared := by
  simp only [addCompared, Tally.keep, Compared.explainedAnew, decide_eq_true_eq]
  by_cases changed : compared.old.decision ≠ compared.new.decision
      ∨ compared.old.reason ≠ compared.new.reason
  · simp only [changed, true_and, if_true]
  · simp only [changed, false_and, if_false]

end

section

variable (triples : List Compared) (versions : List Int)

/-- Every counter of a comparison is the number of the calls that its guard selects. -/
theorem counter_summarizeCompare (counter : CompareSimulation → Nat) (guard : Compared → Bool)
    (step : ∀ result compared,
      counter (addCompared result compared) = Tally.count guard (counter result) compared)
    (zero : counter { totalReplayed := triples.length, comparedVersions := versions } = 0)
    : counter (summarizeCompare triples versions) = triples.countP guard := by
  rw [summarizeCompare, ← List.foldl_hom counter (fun result compared => (step result compared).symm),
    Tally.foldl_count, zero, Nat.zero_add]

theorem newDenials_summarizeCompare
    : (summarizeCompare triples versions).newDenials = triples.countP Compared.losesAccess :=
  counter_summarizeCompare triples versions _ _ addCompared_newDenials rfl

theorem newApprovals_summarizeCompare
    : (summarizeCompare triples versions).newApprovals = triples.countP Compared.newlyHeld :=
  counter_summarizeCompare triples versions _ _ addCompared_newApprovals rfl

theorem changedRiskScores_summarizeCompare
    : (summarizeCompare triples versions).changedRiskScores = triples.countP Compared.rescored :=
  counter_summarizeCompare triples versions _ _ addCompared_changedRiskScores rfl

theorem changedExplanations_summarizeCompare
    : (summarizeCompare triples versions).changedExplanations
      = triples.countP Compared.explainedAnew :=
  counter_summarizeCompare triples versions _ _ addCompared_changedExplanations rfl

theorem sampleDiffs_summarizeCompare
    : (summarizeCompare triples versions).sampleDiffs
      = ((triples.filter Compared.explainedAnew).take sampleCap).map sampleDiff := by
  rw [summarizeCompare, ← List.foldl_hom CompareSimulation.sampleDiffs
    (fun result compared => (addCompared_sampleDiffs result compared).symm), Tally.foldl_keep]
  simp

end

/-- (ExactDifferences triples result) means that a summary counts the calls that the new version
denies or holds and the old one does not, and those that are explained anew, of which it shows the
first; and that it counts none where the versions decide alike.
-/
structure ExactDifferences (triples : List Compared) (result : CompareSimulation) : Prop where
  denials : result.newDenials = triples.countP Compared.newlyDenied
  approvals : result.newApprovals = triples.countP Compared.newlyHeld
  explanations : result.changedExplanations = triples.countP Compared.explainedAnew
  outcomes : ∀ compared ∈ triples,
    compared.old.decision ≠ compared.new.decision → compared.explainedAnew
  samples :
    result.sampleDiffs = ((triples.filter Compared.explainedAnew).take sampleCap).map sampleDiff
  alike :
    (∀ compared ∈ triples, compared.old = compared.new)
    → result.newDenials = 0 ∧ result.newApprovals = 0 ∧ result.changedRiskScores = 0
      ∧ result.changedExplanations = 0

/-- The guard of the counter misses the calls that were held and are denied. -/
theorem losesAccess_of_newlyDenied_iff {compared : Compared}
    : (compared.newlyDenied → compared.losesAccess)
      ↔ ¬ (compared.old.decision = .humanApprovalRequired ∧ compared.new.decision = .deny) := by
  unfold Compared.newlyDenied Compared.losesAccess
  cases compared.old.decision <;> cases compared.new.decision <;> decide

theorem newlyDenied_of_losesAccess {compared : Compared} (loses : compared.losesAccess)
    : compared.newlyDenied := by
  revert loses
  unfold Compared.newlyDenied Compared.losesAccess
  cases compared.old.decision <;> cases compared.new.decision <;> decide

/-- Versions that decide alike have no differences. -/
theorem counts_nothing {triples : List Compared} (guard : Compared → Bool)
    (alike : ∀ compared ∈ triples, compared.old = compared.new)
    (unmoved : ∀ compared : Compared, compared.old = compared.new → ¬ guard compared)
    : triples.countP guard = 0 :=
  List.countP_eq_zero.mpr (fun compared member => unmoved compared (alike compared member))

/-- The counters of a comparison are exact differences exactly when no call that the old version
holds for approval is denied by the new one.
-/
theorem exact_differences_iff (triples : List Compared) (versions : List Int)
    : ExactDifferences triples (summarizeCompare triples versions)
      ↔ ∀ compared ∈ triples,
          ¬ (compared.old.decision = .humanApprovalRequired ∧ compared.new.decision = .deny) := by
  have denials : (summarizeCompare triples versions).newDenials = triples.countP Compared.newlyDenied
      ↔ ∀ compared ∈ triples,
          ¬ (compared.old.decision = .humanApprovalRequired ∧ compared.new.decision = .deny) := by
    rw [newDenials_summarizeCompare,
      Tally.countP_eq_iff (fun compared _ loses => newlyDenied_of_losesAccess loses)]
    exact forall₂_congr (fun compared _ => losesAccess_of_newlyDenied_iff)
  refine ⟨fun exact => denials.mp exact.denials, fun never => ?_⟩
  exact {
    denials := denials.mpr never
    approvals := newApprovals_summarizeCompare triples versions
    explanations := changedExplanations_summarizeCompare triples versions
    outcomes compared _ changed := by simp [Compared.explainedAnew, changed]
    samples := sampleDiffs_summarizeCompare triples versions
    alike same := by
      rw [newDenials_summarizeCompare, newApprovals_summarizeCompare,
        changedRiskScores_summarizeCompare, changedExplanations_summarizeCompare]
      refine ⟨counts_nothing _ same ?_, counts_nothing _ same ?_, counts_nothing _ same ?_,
        counts_nothing _ same ?_⟩
      · intro compared one
        rw [Compared.losesAccess, one]
        cases compared.new.decision <;> decide
      · intro compared one
        simp [Compared.newlyHeld, one]
      · intro compared one
        simp [Compared.rescored, one]
      · intro compared one
        simp [Compared.explainedAnew, one]
  }

/-- A call that the old version holds for approval and the new one denies. -/
def heldThenDenied : Compared where
  row := {
    seq := 7, prevHash := "", currHash := "", signature := "", identityId := "agent"
    serverId := some "mail", toolName := some "send_mail", policyVersion := 1
    eventType := "HUMAN_APPROVAL_REQUIRED", riskScore := some 75, payload := .obj []
  }
  old := {
    decision := .humanApprovalRequired, eventType := .humanApprovalRequired
    reason := "risk score 75 for 'send_mail' requires human approval"
    matchedRules := ["risk_engine"], riskScore := some 75, policyVersion := 2
  }
  new := {
    decision := .deny, eventType := .denyRisk
    reason := "risk score 95 for 'send_mail' exceeds the deny threshold (90)"
    matchedRules := ["risk_engine"], riskScore := some 95, policyVersion := 5
  }

/-- The call is denied by the new version only, and is not counted as a new denial. -/
theorem held_call_denied_uncounted
    : (summarizeCompare [heldThenDenied] [2, 5]).newDenials = 0
      ∧ [heldThenDenied].countP Compared.newlyDenied = 1
      ∧ ¬ ExactDifferences [heldThenDenied] (summarizeCompare [heldThenDenied] [2, 5]) := by
  refine ⟨rfl, rfl, ?_⟩
  intro exact
  cases exact.denials

end PolicySimulator

end SecureMcp
