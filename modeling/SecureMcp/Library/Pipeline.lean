import SecureMcp.Library.Program

/-! Coroutines that are built from stages: a stage either continues with a value or ends the whole
coroutine with a last response, and what it asked before has no part in how the whole ends.
-/

namespace Interaction

variable {Call : Type} {Reply : Call → Type} {ε ρ α β : Type}

/-- Stop a coroutine with the response that another one ends with. -/
def Coroutine.finish (wrap : ρ → ε) (last : Coroutine Call Reply ε ρ)
    : Coroutine Call Reply ε α :=
  last >>= fun response => throw (wrap response)

/-- A coroutine that finishes only stops, and in the same way wherever it stands. -/
theorem Coroutine.exec_finish_iff {wrap : ρ → ε} {last : Coroutine Call Reply ε ρ}
    {events : List (Event Reply)} {outcome : Except ε α}
    : (Coroutine.finish wrap last : Coroutine Call Reply ε α).run.Exec events outcome
      ↔ ∃ stop,
          outcome = .error stop
          ∧ (last.run.Exec events (.error stop)
            ∨ ∃ response, stop = wrap response ∧ last.run.Exec events (.ok response)) := by
  unfold Coroutine.finish
  rw [Coroutine.run_bind, Program.exec_bind_iff]
  refine ⟨?_, ?_⟩
  · intro ⟨first, second, ended, same, left, right⟩
    cases ended with
    | error stop =>
        obtain ⟨empty, stopped⟩ := Program.exec_done_iff.mp right
        subst empty
        exact ⟨stop, stopped.symm, Or.inl (by simpa [same] using left)⟩
    | ok response =>
        obtain ⟨empty, stopped⟩ := Program.exec_done_iff.mp right
        subst empty
        exact ⟨wrap response, stopped.symm,
          Or.inr ⟨response, rfl, by simpa [same] using left⟩⟩
  · intro ⟨stop, same, ended⟩
    subst same
    rcases ended with raised | ⟨response, same, returned⟩
    · exact ⟨events, [], .error stop, by simp, raised, .done _⟩
    · subst same
      exact ⟨events, [], .ok response, by simp, returned, .done _⟩

/-- Nothing follows a coroutine that only stops. -/
theorem Coroutine.exec_finish_bind {wrap : ρ → ε} {last : Coroutine Call Reply ε ρ}
    {next : α → Coroutine Call Reply ε β} {events : List (Event Reply)} {outcome : Except ε β}
    (exec : ((Coroutine.finish wrap last : Coroutine Call Reply ε α) >>= next).run.Exec events outcome)
    : ∃ stop,
        outcome = .error stop
        ∧ (last.run.Exec events (.error stop)
          ∨ ∃ response, stop = wrap response ∧ last.run.Exec events (.ok response)) := by
  rw [Coroutine.run_bind, Program.exec_bind_iff] at exec
  obtain ⟨first, second, ended, rfl, finishing, rest⟩ := exec
  obtain ⟨stop, rfl, ways⟩ := Coroutine.exec_finish_iff.mp finishing
  obtain ⟨rfl, rfl⟩ := Program.exec_done_iff.mp rest
  rw [List.append_nil]
  exact ⟨stop, rfl, ways⟩

theorem Coroutine.asks_finish {allowed : Call → Prop} {wrap : ρ → ε}
    {last : Coroutine Call Reply ε ρ} (asks : last.run.Asks allowed)
    : (Coroutine.finish wrap last : Coroutine Call Reply ε α).run.Asks allowed :=
  Coroutine.asks_bind asks (fun _ => trivial)

/-- (Ended quiet passes ends events outcome) means that an execution asked quiet questions, and
then what its value or its stop stands for.
-/
def Ended (quiet : Call → Prop) (passes : α → List (Event Reply) → Prop)
    (ends : ε → List (Event Reply) → Prop) (events : List (Event Reply))
    (outcome : Except ε α)
    : Prop :=
  ∃ first last,
    events = first ++ last
    ∧ (∀ event ∈ first, quiet event.call)
    ∧ match outcome with
      | .ok value => passes value last
      | .error stop => ends stop last

/-- Every execution of a coroutine ends as `passes` and `ends` say. -/
def Settles (quiet : Call → Prop) (passes : α → List (Event Reply) → Prop)
    (ends : ε → List (Event Reply) → Prop) (body : Coroutine Call Reply ε α)
    : Prop :=
  ∀ events outcome, body.run.Exec events outcome → Ended quiet passes ends events outcome

/-- Nothing is asked but what is quiet. -/
def Quietly (_ : α) (last : List (Event Reply)) : Prop :=
  last = []

namespace Settles

variable {quiet : Call → Prop} {ends : ε → List (Event Reply) → Prop}

theorem pure (value : α)
    : Settles quiet Quietly ends (Pure.pure value : Coroutine Call Reply ε α) := by
  intro events outcome exec
  obtain ⟨rfl, rfl⟩ := Program.exec_done_iff.mp exec
  exact ⟨[], [], rfl, by simp, rfl⟩

/-- A coroutine that passes quietly and continues has asked quiet questions only. -/
theorem quiet_of_ok {body : Coroutine Call Reply ε α} {events : List (Event Reply)} {value : α}
    (settles : Settles quiet Quietly ends body) (exec : body.run.Exec events (.ok value))
    : ∀ event ∈ events, quiet event.call := by
  obtain ⟨first, last, rfl, only, passed⟩ := settles events _ exec
  cases (passed : last = [])
  simpa using only

/-- A question on its own. -/
theorem ask {call : Call} (isQuiet : quiet call)
    : Settles quiet Quietly ends (Coroutine.ask call : Coroutine Call Reply ε _) := by
  intro events outcome exec
  obtain ⟨reply, rest, rfl, ended⟩ := Program.exec_ask_iff.mp exec
  obtain ⟨rfl, rfl⟩ := Program.exec_done_iff.mp ended
  exact ⟨[⟨call, reply⟩], [], rfl, by simpa using isQuiet, rfl⟩

/-- An attempt never stops. -/
theorem attempt {ε' : Type} {body : Coroutine Call Reply ε' α} (asks : body.run.Asks quiet)
    : Settles quiet Quietly ends
        (Coroutine.attempt body : Coroutine Call Reply ε (Except ε' α)) := by
  intro events outcome exec
  have only := exec.asks (Coroutine.asks_attempt asks)
  obtain ⟨first, second, value, _, _, ended⟩ := Program.exec_bind_iff.mp exec
  obtain ⟨_, rfl⟩ := Program.exec_done_iff.mp ended
  exact ⟨events, [], by simp, only, rfl⟩

/-- What no handler catches stops with the exception, and with nothing else. -/
theorem mapStop {ε' : Type} {rename : ε' → ε} {body : Coroutine Call Reply ε' α}
    (asks : body.run.Asks quiet) (raised : ∀ stop, ends (rename stop) [])
    : Settles quiet Quietly ends (Coroutine.mapStop rename body) := by
  intro events outcome exec
  have only := exec.asks (Coroutine.asks_mapStop asks)
  refine ⟨events, [], by simp, only, ?_⟩
  cases outcome with
  | ok value => rfl
  | error stop =>
      rcases Coroutine.exec_bind_error_iff.mp exec with stopped | ⟨_, _, ended, _, _, mapped⟩
      · obtain ⟨_, _, _, _, _, impossible⟩ := Program.exec_bind_iff.mp stopped
        obtain ⟨_, impossible⟩ := Program.exec_done_iff.mp impossible
        cases impossible
      · obtain ⟨_, same⟩ := Program.exec_done_iff.mp mapped
        cases ended with
        | ok value => cases same
        | error inner =>
            cases same
            exact raised inner

/-- A coroutine that ends the whole one. -/
theorem finish {wrap : ρ → ε} {last : Coroutine Call Reply ε ρ}
    (stops : ∀ events outcome,
      last.run.Exec events outcome → ∃ response, outcome = .ok response ∧ ends (wrap response) events)
    : Settles quiet Quietly ends (Coroutine.finish wrap last : Coroutine Call Reply ε α) := by
  intro events outcome exec
  obtain ⟨stop, rfl, raised | ⟨response, rfl, returned⟩⟩ := Coroutine.exec_finish_iff.mp exec
  · obtain ⟨_, impossible, _⟩ := stops events _ raised
    cases impossible
  · obtain ⟨_, same, ended⟩ := stops events _ returned
    cases same
    exact ⟨[], events, rfl, by simp, ended⟩

/-- A last stage that says how the coroutine ends may be followed by a value. -/
theorem andReturn {passes : List (Event Reply) → Prop} {body : Coroutine Call Reply ε α}
    (settles : Settles quiet (fun _ => passes) ends body) (value : β)
    : Settles quiet (fun _ => passes) ends
        (body >>= fun _ => (Pure.pure value : Coroutine Call Reply ε β)) := by
  intro events outcome exec
  rw [Coroutine.run_bind, Program.exec_bind_iff] at exec
  obtain ⟨one, two, ended, rfl, left, right⟩ := exec
  obtain ⟨start, last, rfl, only, passed⟩ := settles one ended left
  refine ⟨start, last, ?_, only, ?_⟩ <;>
    cases ended <;>
    obtain ⟨rfl, rfl⟩ := Program.exec_done_iff.mp right
  · simp
  · simp
  · exact passed
  · exact passed

/-- Stages compose: what passes quietly leaves the rest to say how the whole ends. -/
theorem bind {passes : β → List (Event Reply) → Prop} {body : Coroutine Call Reply ε α}
    {next : α → Coroutine Call Reply ε β} (first : Settles quiet Quietly ends body)
    (rest : ∀ value, Settles quiet passes ends (next value))
    : Settles quiet passes ends (body >>= next) := by
  intro events outcome exec
  rw [Coroutine.run_bind, Program.exec_bind_iff] at exec
  obtain ⟨one, two, ended, rfl, left, right⟩ := exec
  obtain ⟨start, last, rfl, only, passed⟩ := first one ended left
  cases ended with
  | error stop =>
      obtain ⟨rfl, rfl⟩ := Program.exec_done_iff.mp right
      exact ⟨start, last, by simp, only, passed⟩
  | ok value =>
      cases passed
      obtain ⟨more, final, rfl, also, ended⟩ := rest value two outcome right
      refine ⟨start ++ more, final, by simp, ?_, ended⟩
      intro event member
      rcases List.mem_append.mp member with early | late
      · exact only event early
      · exact also event late

/-- Stages lead on: what quiet events before it do not affect is what the rest comes to. -/
theorem leads {result : List (Event Reply) → Except ε β → Prop} {body : Coroutine Call Reply ε α}
    {next : α → Coroutine Call Reply ε β} (early : Settles quiet Quietly ends body)
    (quietly : ∀ first events outcome,
      (∀ event ∈ first, quiet event.call) → result events outcome → result (first ++ events) outcome)
    (stopped : ∀ stop last, ends stop last → result last (.error stop))
    (rest : ∀ value events outcome, (next value).run.Exec events outcome → result events outcome)
    {events : List (Event Reply)} {outcome : Except ε β}
    (exec : (body >>= next).run.Exec events outcome)
    : result events outcome := by
  rw [Coroutine.run_bind, Program.exec_bind_iff] at exec
  obtain ⟨one, two, ended, rfl, left, right⟩ := exec
  obtain ⟨start, last, rfl, only, passed⟩ := early one ended left
  rw [List.append_assoc]
  refine quietly start _ _ only ?_
  cases ended with
  | error stop =>
      obtain ⟨rfl, rfl⟩ := Program.exec_done_iff.mp right
      rw [List.append_nil]
      exact stopped stop last passed
  | ok value =>
      cases (passed : last = [])
      exact rest value two outcome right

end Settles

end Interaction
