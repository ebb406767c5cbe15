import SecureMcp.Library.Program

/-! Coroutines that only report: every call they ask is a report whose answer they ignore,
unless it fails, which stops them. What such a coroutine computes does not depend on the
answers.
-/

namespace Interaction

variable {Call : Type} {Reply : Call → Type} {ε α β σ : Type}

/-- The events that are reports, and those of them that failed. -/
structure ReportKind {Call : Type} (Reply : Call → Type) where
  report : Event Reply → Prop
  failed : Event Reply → Prop

/-- (Reports kind body result) means that `body` only reports, and ends with `result` unless
a report fails.
-/
def Reports (kind : ReportKind Reply) (body : Coroutine Call Reply ε α)
    (result : Except ε α)
    : Prop :=
  ∀ events outcome,
    body.run.Exec events outcome
    → (∀ event ∈ events, kind.report event)
      ∧ ((outcome = result ∧ ∀ event ∈ events, ¬ kind.failed event)
        ∨ ((∃ stop, outcome = .error stop) ∧ ∃ event ∈ events, kind.failed event))

namespace Reports

variable {kind : ReportKind Reply}

theorem ofExcept (result : Except ε α)
    : Reports kind (Coroutine.ofExcept result : Coroutine Call Reply ε α) result := by
  intro events outcome exec
  obtain ⟨empty, same⟩ := Program.exec_done_iff.mp exec
  subst empty
  exact ⟨by simp, Or.inl ⟨same.symm, by simp⟩⟩

theorem pure (value : α)
    : Reports kind (Pure.pure value : Coroutine Call Reply ε α) (.ok value) :=
  ofExcept (.ok value)

/-- Reporting composes, with the results composed. -/
theorem bind {body : Coroutine Call Reply ε α} {next : α → Coroutine Call Reply ε β}
    {result : Except ε α} {later : α → Except ε β} (first : Reports kind body result)
    (rest : ∀ value, Reports kind (next value) (later value))
    : Reports kind (body >>= next) (result >>= later) := by
  intro events outcome exec
  rw [Coroutine.run_bind, Program.exec_bind_iff] at exec
  obtain ⟨one, two, middle, same, left, right⟩ := exec
  obtain ⟨reports, ended⟩ := first one middle left
  subst same
  cases middle with
  | error stop =>
      obtain ⟨empty, stopped⟩ := Program.exec_done_iff.mp right
      subst empty stopped
      rw [List.append_nil]
      refine ⟨reports, ?_⟩
      rcases ended with ⟨computed, fine⟩ | ⟨_, failed⟩
      · exact Or.inl ⟨by rw [← computed]; rfl, fine⟩
      · exact Or.inr ⟨⟨stop, rfl⟩, failed⟩
  | ok value =>
      obtain ⟨more, endedNext⟩ := rest value two outcome right
      rcases ended with ⟨computed, fine⟩ | ⟨⟨_, impossible⟩, _⟩
      · refine ⟨?_, ?_⟩
        · intro event member
          rcases List.mem_append.mp member with early | late
          · exact reports event early
          · exact more event late
        rcases endedNext with ⟨computedNext, fineNext⟩ | ⟨stop, event, member, failed⟩
        · refine Or.inl ⟨by rw [← computed]; exact computedNext, ?_⟩
          intro event member
          rcases List.mem_append.mp member with early | late
          · exact fine event early
          · exact fineNext event late
        · exact Or.inr ⟨stop, event, List.mem_append_right _ member, failed⟩
      · cases impossible

/-- A report whose answer is ignored does not change the result. -/
theorem demand {γ : Type} {call : Call} {answer : Reply call → Except ε γ}
    {next : γ → Coroutine Call Reply ε α} {result : Except ε α}
    (report : ∀ reply, kind.report ⟨call, reply⟩)
    (failed : ∀ reply, kind.failed ⟨call, reply⟩ ↔ ∃ stop, answer reply = .error stop)
    (rest : ∀ value, Reports kind (next value) result)
    : Reports kind (Coroutine.demand call answer >>= next) result := by
  intro events outcome exec
  rw [Coroutine.run_bind, Program.exec_bind_iff] at exec
  obtain ⟨one, two, middle, same, left, right⟩ := exec
  obtain ⟨reply, single, answered⟩ := Coroutine.exec_demand_iff.mp left
  subst same single
  cases middle with
  | error stop =>
      obtain ⟨empty, stopped⟩ := Program.exec_done_iff.mp right
      subst empty stopped
      refine ⟨by simp [report], Or.inr ⟨⟨stop, rfl⟩, ⟨call, reply⟩, by simp, ?_⟩⟩
      exact (failed reply).mpr ⟨stop, answered⟩
  | ok value =>
      have fine : ¬ kind.failed ⟨call, reply⟩ := by
        intro bad
        obtain ⟨stop, wrong⟩ := (failed reply).mp bad
        rw [answered] at wrong
        cases wrong
      obtain ⟨more, ended⟩ := rest value two outcome right
      refine ⟨?_, ?_⟩
      · intro event member
        rcases List.mem_cons.mp member with here | late
        · exact here ▸ report reply
        · exact more event late
      rcases ended with ⟨computed, fineNext⟩ | ⟨stop, event, member, bad⟩
      · refine Or.inl ⟨computed, ?_⟩
        intro event member
        rcases List.mem_cons.mp member with here | late
        · exact here ▸ fine
        · exact fineNext event late
      · exact Or.inr ⟨stop, event, List.mem_cons_of_mem _ member, bad⟩

/-- A loop of reporting steps reports, by induction on the list. -/
theorem foldlM {step : β → α → Coroutine Call Reply ε β} {result : β → α → Except ε β}
    (each : ∀ state item, Reports kind (step state item) (result state item))
    (state : β) (items : List α)
    : Reports kind (items.foldlM step state) (items.foldlM result state) := by
  induction items generalizing state with
  | nil => exact pure state
  | cons item rest ih =>
      rw [List.foldlM_cons, List.foldlM_cons]
      exact bind (each state item) ih

/-- Where no report fails, a reporting coroutine has an execution that ends with its result.
-/
theorem exists_exec {body : Coroutine Call Reply ε α} {result : Except ε α}
    (reports : Reports kind body result) (answer : (call : Call) → Reply call)
    (fine : ∀ call, ¬ kind.failed ⟨call, answer call⟩)
    : ∃ events,
        body.run.Exec events result
        ∧ (∀ event ∈ events, kind.report event)
        ∧ ∀ event ∈ events, ¬ kind.failed event := by
  have exec := Program.exec_play answer body.run
  have unfailed : ∀ event ∈ (body.run.play answer).1, ¬ kind.failed event := by
    intro event member
    rw [Program.play_reply answer body.run event member]
    exact fine event.call
  obtain ⟨only, ⟨same, _⟩ | ⟨_, event, member, failed⟩⟩ := reports _ _ exec
  · exact ⟨_, same ▸ exec, only, unfailed⟩
  · exact absurd failed (unfailed event member)

end Reports

end Interaction
