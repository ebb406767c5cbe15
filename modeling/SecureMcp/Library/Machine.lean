import Mathlib.Data.List.Induction
import Mathlib.Data.List.Infix

/-! Machines whose steps are labelled by actions: runs over a list of actions, and
invariants of runs that may also speak about the actions taken so far. A machine is given by
a step relation, or by a partial step function.
-/

namespace Machine

variable {σ α : Type}

/-- (Run step start actions final) takes the actions in turn, from `start` to `final`. -/
inductive Run (step : σ → α → σ → Prop) (start : σ) : List α → σ → Prop
  | nil : Run step start [] start
  | concat {past : List α} {action : α} {state final : σ} (run : Run step start past state)
    (last : step state action final)
    : Run step start (past ++ [action]) final

/-- An invariant of every step is one of every run, by induction on the run. -/
theorem Run.invariant {step : σ → α → σ → Prop} (holds : σ → Prop) {start final : σ}
    {actions : List α} (run : Run step start actions final) (first : holds start)
    (next : ∀ state action after, holds state → step state action after → holds after)
    : holds final := by
  induction run with
  | nil => exact first
  | concat _ last ih => exact next _ _ _ ih last

theorem Run.mono {step other : σ → α → σ → Prop} {start final : σ} {actions : List α}
    (weaker : ∀ state action after, step state action after → other state action after)
    (run : Run step start actions final)
    : Run other start actions final := by
  induction run with
  | nil => exact .nil
  | concat _ last ih => exact .concat ih (weaker _ _ _ last)

/-- Every step of a run takes one of its actions. -/
theorem Run.of_actions {step : σ → α → σ → Prop} {start final : σ} {actions : List α}
    (run : Run step start actions final)
    : Run (fun state action after => step state action after ∧ action ∈ actions) start actions
        final := by
  induction run with
  | nil => exact .nil
  | concat _ last ih =>
      refine .concat (ih.mono ?_) ⟨last, by simp⟩
      intro state action after ⟨taken, member⟩
      exact ⟨taken, List.mem_append_left _ member⟩

/-- A run over two lists is a run over the first and then one over the second, by induction
on the second from its end.
-/
theorem Run.split {step : σ → α → σ → Prop} {start final : σ} {first second : List α}
    (run : Run step start (first ++ second) final)
    : ∃ middle, Run step start first middle ∧ Run step middle second final := by
  induction second using List.reverseRecOn generalizing final with
  | nil => exact ⟨final, by simpa using run, .nil⟩
  | append_singleton second action ih =>
      rw [← List.append_assoc] at run
      generalize whole : (first ++ second) ++ [action] = actions at run
      cases run with
      | nil => simp at whole
      | concat earlier last =>
          obtain ⟨same, single⟩ := List.append_inj' whole rfl
          cases single
          subst same
          obtain ⟨middle, left, right⟩ := ih earlier
          exact ⟨middle, left, right.concat last⟩

theorem Run.empty {step : σ → α → σ → Prop} {start final : σ} (run : Run step start [] final)
    : final = start := by
  generalize whole : ([] : List α) = actions at run
  cases run with
  | nil => rfl
  | concat => simp at whole

theorem Run.single {step : σ → α → σ → Prop} {start final : σ} {action : α}
    (run : Run step start [action] final)
    : step start action final := by
  generalize whole : [action] = actions at run
  cases run with
  | nil => cases whole
  | @concat past last state _ earlier taken =>
      cases past with
      | nil =>
          cases whole
          exact earlier.empty ▸ taken
      | cons first more => simp at whole

/-- A run that starts with an action takes it first. -/
theorem Run.head {step : σ → α → σ → Prop} {start final : σ} {action : α} {rest : List α}
    (run : Run step start (action :: rest) final)
    : ∃ next, step start action next ∧ Run step next rest final := by
  have parts : Run step start ([action] ++ rest) final := run
  obtain ⟨next, first, later⟩ := parts.split
  exact ⟨next, first.single, later⟩

/-- An action and then a run, by induction on the run. -/
theorem Run.cons {step : σ → α → σ → Prop} {start next final : σ} {action : α} {rest : List α}
    (first : step start action next) (run : Run step next rest final)
    : Run step start (action :: rest) final := by
  induction run with
  | nil => exact Run.nil.concat first
  | concat _ last ih => exact ih.concat last

/-- Runs compose, by induction on the second. -/
theorem Run.append {step : σ → α → σ → Prop} {start middle final : σ} {first second : List α}
    (left : Run step start first middle) (right : Run step middle second final)
    : Run step start (first ++ second) final := by
  induction right with
  | nil => simpa using left
  | concat _ last ih =>
      rw [← List.append_assoc]
      exact ih.concat last

/-- A run of actions that can leave a state as it is, by induction on them. -/
theorem run_of_unchanged {step : σ → α → σ → Prop} {state : σ} {actions : List α}
    (unchanged : ∀ action ∈ actions, step state action state)
    : Run step state actions state := by
  induction actions with
  | nil => exact .nil
  | cons action rest ih =>
      refine .cons (unchanged action List.mem_cons_self) (ih ?_)
      intro later member
      exact unchanged later (List.mem_cons_of_mem _ member)

/-- Take the actions in turn. There is no run when one of them is not enabled. -/
def run (step : σ → α → Option σ) (state : σ) : List α → Option σ
  | [] => some state
  | action :: rest => (step state action).bind (fun next => run step next rest)

variable {step : σ → α → Option σ}

/-- A run over two lists is a run over the first and then one over the second, by induction
on the first.
-/
theorem run_append (state : σ) (first second : List α)
    : run step state (first ++ second)
      = (run step state first).bind (fun next => run step next second) := by
  induction first generalizing state with
  | nil => rfl
  | cons action rest ih =>
      simp only [List.cons_append, run]
      cases step state action with
      | none => rfl
      | some next => exact ih next

/-- What holds at the start and is kept by every step of a run holds at its end, by
induction on the run from its end. A step knows the actions before it, and that they and it
begin the run.
-/
theorem run_invariant {holds : List α → σ → Prop} {start final : σ} {actions : List α}
    (first : holds [] start)
    (next : ∀ past state action after,
      past ++ [action] <+: actions
      → holds past state
      → step state action = some after
      → holds (past ++ [action]) after)
    (reached : run step start actions = some final)
    : holds actions final := by
  have prefixes (past : List α) (beginning : past <+: actions) (state : σ)
      (there : run step start past = some state)
      : holds past state := by
    induction past using List.reverseRecOn generalizing state with
    | nil =>
        cases there
        exact first
    | append_singleton past action ih =>
        rw [run_append] at there
        obtain ⟨middle, before, after⟩ := Option.bind_eq_some_iff.mp there
        have stepped : step middle action = some state := by
          simpa [run] using after
        have earlier := (List.prefix_append past [action]).trans beginning
        exact next past middle action state beginning (ih earlier middle before) stepped
  exact prefixes actions List.prefix_rfl final reached

end Machine
