import SecureMcp.Library.Interleaving

/-! A store that answers the events of a run: which answers it admits in a state, and what each event
makes of the state. Events that leave every state as it is can be taken out of a run, or put into
it, and nobody else can tell.
-/

namespace Interaction

variable {ι σ Call : Type} {Reply : Call → Type}

/-- A store by its answers; each event has an instant. -/
structure Store (σ : Type) {Call : Type} (Reply : Call → Type) where
  Admits : σ → Rat → Event Reply → Prop
  apply : σ → Rat → Event Reply → σ

namespace Store

variable (store : Store σ Reply)

/-- The state after some steps. -/
def after (start : σ) (trace : List (Stamped ι Reply)) : σ :=
  trace.foldl (fun state step => store.apply state step.instant step.event) start

@[simp] theorem after_nil (start : σ) : store.after start ([] : List (Stamped ι Reply)) = start :=
  rfl

theorem after_concat (start : σ) (past : List (Stamped ι Reply)) (step : Stamped ι Reply)
    : store.after start (past ++ [step])
      = store.apply (store.after start past) step.instant step.event := by
  simp [after]

/-- Every step of a run is answered as the store admits it in the state that it finds. -/
def Answers (start : σ) (trace : List (Stamped ι Reply)) : Prop :=
  ∀ past step rest,
    trace = past ++ step :: rest → store.Admits (store.after start past) step.instant step.event

/-- One answer of a store at an instant. -/
def Serves (instant : Rat) (state : σ) (event : Event Reply) (after : σ) : Prop :=
  store.Admits state instant event ∧ after = store.apply state instant event

/-- An event that leaves every state as it is. -/
def Silent (event : Event Reply) : Prop :=
  ∀ state instant, store.apply state instant event = state

section

variable {store} {start : σ} {trace : List (Stamped ι Reply)} {keep : Stamped ι Reply → Bool}

/-- Silent steps can be left out, by induction on the run from its end. -/
theorem after_filter (silent : ∀ step ∈ trace, ¬ keep step → store.Silent step.event)
    : store.after start (trace.filter keep) = store.after start trace := by
  induction trace using List.reverseRecOn with
  | nil => rfl
  | append_singleton past step ih =>
      have earlier := ih (fun other member => silent other (List.mem_append_left _ member))
      rw [List.filter_append, after_concat]
      cases kept : keep step with
      | true => rw [List.filter_singleton, kept, cond_true, after_concat, earlier]
      | false =>
          rw [List.filter_singleton, kept, cond_false, List.append_nil, earlier]
          exact (silent step (by simp) (by simp [kept]) _ _).symm

/-- A run is answered when the rest of it is, and its silent steps are answered as the store admits
them in the states that the rest leads to.
-/
theorem answers_filter_iff (silent : ∀ step ∈ trace, ¬ keep step → store.Silent step.event)
    : store.Answers start trace
      ↔ store.Answers start (trace.filter keep)
        ∧ ∀ past step rest,
            trace = past ++ step :: rest
            → ¬ keep step
            → store.Admits (store.after start (past.filter keep)) step.instant step.event := by
  have state {past rest : List (Stamped ι Reply)} {step : Stamped ι Reply}
      (split : trace = past ++ step :: rest)
      : store.after start (past.filter keep) = store.after start past :=
    after_filter (fun other member => silent other (by simp [split, member]))
  refine ⟨fun answers => ⟨?_, ?_⟩, fun ⟨kept, others⟩ => ?_⟩
  · intro past step rest split
    obtain ⟨before, later, whole, first, second⟩ := List.filter_eq_append_iff.mp split
    obtain ⟨between, after, here, dropped, _, _⟩ := List.filter_eq_cons_iff.mp second
    rw [here] at whole
    have there : trace = (before ++ between) ++ step :: after := by
      rw [whole, List.append_assoc]
    have same : (before ++ between).filter keep = past := by
      rw [List.filter_append, first, List.filter_eq_nil_iff.mpr dropped, List.append_nil]
    rw [← same, state there]
    exact answers _ _ _ there
  · intro past step rest split _
    rw [state split]
    exact answers past step rest split
  · intro past step rest split
    rw [← state split]
    cases keeps : keep step with
    | false => exact others past step rest split (by simp [keeps])
    | true =>
        refine kept (past.filter keep) step (rest.filter keep) ?_
        rw [split, List.filter_append, List.filter_cons_of_pos keeps]

/-- A run at one instant whose events are served one after the other is answered, by induction on it. -/
theorem answers_of_served {instant : Rat} {after : σ}
    (timed : ∀ step ∈ trace, step.instant = instant)
    (served : Program.Served (store.Serves instant) start (trace.map Stamped.event) after)
    : store.Answers start trace := by
  induction trace generalizing start with
  | nil =>
      intro past step rest split
      simp at split
  | cons first later ih =>
      obtain ⟨middle, ⟨admits, rfl⟩, served⟩ := Program.served_cons_iff.mp served
      have here := timed first List.mem_cons_self
      have answers := ih (fun step member => timed step (List.mem_cons_of_mem _ member)) served
      intro past step rest split
      cases past with
      | nil =>
          cases split
          rw [here]
          exact admits
      | cons other past =>
          cases split
          rw [Store.after, List.foldl_cons, here]
          exact answers past step rest rfl

end

end Store

variable [DecidableEq ι]

/-- The events of a thread that is kept are the same without the others. -/
theorem eventsOf_filter {keep : ι → Bool} {thread : ι} (kept : keep thread)
    (trace : List (Stamped ι Reply))
    : eventsOf thread (trace.filter (fun step => keep step.thread)) = eventsOf thread trace := by
  unfold eventsOf stepsOf
  rw [List.filter_filter]
  congr 1
  refine List.filter_congr (fun step _ => ?_)
  by_cases same : step.thread = thread
  · simp [same, kept]
  · simp [same]

end Interaction
