import SecureMcp.Library.Pipeline

/-! Postconditions of coroutines, given what their answers can be: of the value that a coroutine
returns, and of the way it stops after the events so far.
-/

namespace Interaction

variable {Call : Type} {Reply : Call → Type} {ε ε' ρ α β : Type}

/-- What holds of an outcome and of the events that led to it. -/
def Results (returns : α → Prop) (stops : ε → List (Event Reply) → Prop)
    (events : List (Event Reply))
    : Except ε α → Prop
  | .ok value => returns value
  | .error stop => stops stop events

/-- Every execution whose answers are all trusted results as `returns` and `stops` say. -/
def Meets (trusted : Event Reply → Prop) (returns : α → Prop)
    (stops : ε → List (Event Reply) → Prop) (body : Coroutine Call Reply ε α)
    : Prop :=
  ∀ events outcome,
    body.run.Exec events outcome
    → (∀ event ∈ events, trusted event)
    → Results returns stops events outcome

namespace Meets

variable {trusted : Event Reply → Prop} {returns : α → Prop}
  {stops : ε → List (Event Reply) → Prop}

theorem pure {value : α} (holds : returns value)
    : Meets trusted returns stops (Pure.pure value : Coroutine Call Reply ε α) := by
  intro events outcome exec _
  obtain ⟨_, rfl⟩ := Program.exec_done_iff.mp exec
  exact holds

/-- Nothing is asked of a coroutine. -/
theorem any {body : Coroutine Call Reply ε α}
    : Meets trusted (fun _ => True) (fun _ _ => True) body := by
  intro events outcome _ _
  cases outcome <;> trivial

theorem ofExcept {outcome : Except ε α} (results : Results returns stops [] outcome)
    : Meets trusted returns stops
        (Coroutine.ofExcept outcome : Coroutine Call Reply ε α) := by
  intro events ended exec _
  obtain ⟨rfl, rfl⟩ := Program.exec_done_iff.mp exec
  exact results

theorem demand {call : Call} {answer : Reply call → Except ε α}
    (answered : ∀ reply, trusted ⟨call, reply⟩ → Results returns stops [⟨call, reply⟩] (answer reply))
    : Meets trusted returns stops (Coroutine.demand call answer) := by
  intro events outcome exec all
  obtain ⟨reply, rfl, rfl⟩ := Coroutine.exec_demand_iff.mp exec
  exact answered reply (all _ List.mem_cons_self)

theorem ask {call : Call} {returns : Reply call → Prop}
    (answered : ∀ reply, trusted ⟨call, reply⟩ → returns reply)
    : Meets trusted returns stops (Coroutine.ask call : Coroutine Call Reply ε _) := by
  intro events outcome exec all
  obtain ⟨reply, rest, rfl, ended⟩ := Program.exec_ask_iff.mp exec
  obtain ⟨_, rfl⟩ := Program.exec_done_iff.mp ended
  exact answered reply (all _ List.mem_cons_self)

theorem mono {others : α → Prop} {body : Coroutine Call Reply ε α}
    (meets : Meets trusted returns stops body) (implies : ∀ value, returns value → others value)
    : Meets trusted others stops body := by
  intro events outcome exec all
  have results := meets events outcome exec all
  cases outcome with
  | ok value => exact implies value results
  | error stop => exact results

/-- What holds whatever the answers holds for trusted ones. -/
theorem trust {body : Coroutine Call Reply ε α} (meets : Meets (fun _ => True) returns stops body)
    : Meets trusted returns stops body := by
  intro events outcome exec _
  exact meets events outcome exec (fun _ _ => True.intro)

/-- An attempt returns what its body came to. -/
theorem attempt {others : ε' → List (Event Reply) → Prop} {body : Coroutine Call Reply ε' α}
    (meets : Meets trusted returns others body)
    : Meets trusted (fun outcome : Except ε' α => ∀ value, outcome = .ok value → returns value)
        stops (Coroutine.attempt body : Coroutine Call Reply ε (Except ε' α)) := by
  intro events outcome exec all
  obtain ⟨first, rest, ended, rfl, inner, last⟩ := Program.exec_bind_iff.mp exec
  obtain ⟨rfl, rfl⟩ := Program.exec_done_iff.mp last
  intro value same
  subst same
  exact meets first _ inner (by simpa using all)

/-- An exception that nothing catches stops the coroutine. -/
theorem mapStop {rename : ε' → ε} {body : Coroutine Call Reply ε' α}
    (meets : Meets trusted returns (fun stop => stops (rename stop)) body)
    : Meets trusted returns stops (Coroutine.mapStop rename body) := by
  intro events outcome exec all
  obtain ⟨first, rest, ended, rfl, inner, last⟩ := Program.exec_bind_iff.mp exec
  obtain ⟨one, two, value, rfl, left, right⟩ := Program.exec_bind_iff.mp inner
  obtain ⟨rfl, rfl⟩ := Program.exec_done_iff.mp right
  obtain ⟨rfl, rfl⟩ := Program.exec_done_iff.mp last
  have results := meets one value left (by simpa using all)
  cases value with
  | ok value => exact results
  | error stop =>
      change stops (rename stop) _
      rw [List.append_nil, List.append_nil]
      exact results

section

variable (later : ∀ stop first second, stops stop second → stops stop (first ++ second))

include later

/-- Coroutines compose: what the first one returns is what the rest can rely on. -/
theorem bind {middle : α → Prop} {returns : β → Prop} {body : Coroutine Call Reply ε α}
    {next : α → Coroutine Call Reply ε β} (first : Meets trusted middle stops body)
    (rest : ∀ value, middle value → Meets trusted returns stops (next value))
    : Meets trusted returns stops (body >>= next) := by
  intro events outcome exec all
  rw [Coroutine.run_bind, Program.exec_bind_iff] at exec
  obtain ⟨one, two, ended, rfl, left, right⟩ := exec
  have early := first one ended left (fun event member => all event (List.mem_append_left _ member))
  cases ended with
  | error stop =>
      obtain ⟨rfl, rfl⟩ := Program.exec_done_iff.mp right
      rw [List.append_nil]
      exact early
  | ok value =>
      have late := rest value early two outcome right
        (fun event member => all event (List.mem_append_right _ member))
      cases outcome with
      | ok result => exact late
      | error stop => exact later stop one two late

end

/-- The same where nothing is said of a coroutine that stops. -/
theorem andThen {middle : α → Prop} {returns : β → Prop} {body : Coroutine Call Reply ε α}
    {next : α → Coroutine Call Reply ε β} (first : Meets trusted middle (fun _ _ => True) body)
    (rest : ∀ value, middle value → Meets trusted returns (fun _ _ => True) (next value))
    : Meets trusted returns (fun _ _ => True) (body >>= next) :=
  .bind (fun _ _ _ _ => True.intro) first rest

/-- A coroutine that ends the whole one with its response. -/
theorem finish {wrap : ρ → ε} {last : Coroutine Call Reply ε ρ}
    (ends : ∀ events outcome,
      last.run.Exec events outcome
      → (∀ event ∈ events, trusted event)
      → ∃ response, outcome = .ok response ∧ stops (wrap response) events)
    : Meets trusted returns stops
        (Coroutine.finish wrap last : Coroutine Call Reply ε α) := by
  intro events outcome exec all
  obtain ⟨stop, rfl, raised | ⟨response, rfl, returned⟩⟩ := Coroutine.exec_finish_iff.mp exec
  · obtain ⟨_, impossible, _⟩ := ends events _ raised all
    cases impossible
  · obtain ⟨_, same, stopped⟩ := ends events _ returned all
    cases same
    exact stopped

end Meets

/-- What is allowed after every continuation of the past is allowed throughout, by induction on the
program.
-/
theorem Program.Asks.throughout {permitted : Call → Prop}
    {allowed : List (Event Reply) → Call → Prop} {past : List (Event Reply)}
    {program : Program Call Reply α} (asks : program.Asks permitted)
    (allows : ∀ later asked, permitted asked → allowed (past ++ later) asked)
    : program.AsksAfter allowed past := by
  induction program generalizing past with
  | done value => trivial
  | ask call next ih =>
      refine ⟨by simpa using allows [] call asks.1, fun reply => ih reply (asks.2 reply) ?_⟩
      intro later asked permits
      rw [List.append_assoc]
      exact allows _ asked permits

/-- What follows a computed value starts after the same past. -/
theorem Coroutine.asksAfter_ofExcept_bind {allowed : List (Event Reply) → Call → Prop}
    {past : List (Event Reply)} {outcome : Except ε α} {next : α → Coroutine Call Reply ε β}
    (rest : ∀ value, outcome = .ok value → (next value).run.AsksAfter allowed past)
    : (Coroutine.ofExcept outcome >>= next).run.AsksAfter allowed past := by
  cases outcome with
  | error stop => trivial
  | ok value => exact rest value rfl

/-- What follows a coroutine whose stops are renamed starts after its events. -/
theorem Coroutine.asksAfter_mapStop_bind {allowed : List (Event Reply) → Call → Prop}
    {past : List (Event Reply)} {rename : ε → ε'} {body : Coroutine Call Reply ε α}
    {next : α → Coroutine Call Reply ε' β} (first : body.run.AsksAfter allowed past)
    (rest : ∀ events value,
      body.run.Exec events (.ok value) → (next value).run.AsksAfter allowed (past ++ events))
    : (Coroutine.mapStop rename body >>= next).run.AsksAfter allowed past := by
  refine Coroutine.asksAfter_bind ?_ (fun events value exec => ?_)
  · exact Coroutine.asksAfter_attempt_bind first (fun _ _ _ => trivial)
  · exact rest events value (Coroutine.exec_mapStop_ok_iff.mp exec)

/-- Nothing is asked but what is quiet, and the value is as `returns` says. -/
def Returning (returns : α → Prop) (value : α) (last : List (Event Reply)) : Prop :=
  last = [] ∧ returns value

/-- Every execution whose answers are all trusted ends as `passes` and `ends` say, after quiet
questions.
-/
def Concludes (trusted : Event Reply → Prop) (quiet : Call → Prop)
    (passes : α → List (Event Reply) → Prop) (ends : ε → List (Event Reply) → Prop)
    (body : Coroutine Call Reply ε α)
    : Prop :=
  ∀ events outcome,
    body.run.Exec events outcome
    → (∀ event ∈ events, trusted event)
    → Ended quiet passes ends events outcome

namespace Concludes

variable {trusted : Event Reply → Prop} {quiet : Call → Prop}
  {ends : ε → List (Event Reply) → Prop}

theorem of_settles {passes : α → List (Event Reply) → Prop} {body : Coroutine Call Reply ε α}
    (settles : Settles quiet passes ends body)
    : Concludes trusted quiet passes ends body := by
  intro events outcome exec _
  exact settles events outcome exec

/-- What a coroutine returns beside the way it ends. -/
theorem returning {returns : α → Prop} {body : Coroutine Call Reply ε α}
    (settles : Settles quiet Quietly ends body)
    (meets : Meets trusted returns (fun _ _ => True) body)
    : Concludes trusted quiet (Returning returns) ends body := by
  intro events outcome exec all
  obtain ⟨first, last, same, only, ended⟩ := settles events outcome exec
  have results := meets events outcome exec all
  refine ⟨first, last, same, only, ?_⟩
  cases outcome with
  | ok value => exact ⟨ended, results⟩
  | error stop => exact ended

theorem quietly {body : Coroutine Call Reply ε α} (settles : Settles quiet Quietly ends body)
    : Concludes trusted quiet (Returning fun _ => True) ends body :=
  .returning settles .any

/-- Stages compose: what the first one returns is what the rest can rely on. -/
theorem bind {middle : α → Prop} {passes : β → List (Event Reply) → Prop}
    {body : Coroutine Call Reply ε α} {next : α → Coroutine Call Reply ε β}
    (first : Concludes trusted quiet (Returning middle) ends body)
    (rest : ∀ value, middle value → Concludes trusted quiet passes ends (next value))
    : Concludes trusted quiet passes ends (body >>= next) := by
  intro events outcome exec all
  rw [Coroutine.run_bind, Program.exec_bind_iff] at exec
  obtain ⟨one, two, ended, rfl, left, right⟩ := exec
  obtain ⟨start, last, rfl, only, early⟩ :=
    first one ended left (fun event member => all event (List.mem_append_left _ member))
  cases ended with
  | error stop =>
      obtain ⟨rfl, rfl⟩ := Program.exec_done_iff.mp right
      exact ⟨start, last, by simp, only, early⟩
  | ok value =>
      obtain ⟨rfl, holds⟩ := early
      obtain ⟨more, final, rfl, also, late⟩ := rest value holds two outcome right
        (fun event member => all event (List.mem_append_right _ member))
      refine ⟨start ++ more, final, by simp, ?_, late⟩
      intro event member
      rcases List.mem_append.mp member with before | after
      · exact only event before
      · exact also event after

/-- A quiet stage comes before what follows it. -/
theorem after {passes : β → List (Event Reply) → Prop} {body : Coroutine Call Reply ε α}
    {next : α → Coroutine Call Reply ε β} (first : Settles quiet Quietly ends body)
    (rest : ∀ value, Concludes trusted quiet passes ends (next value))
    : Concludes trusted quiet passes ends (body >>= next) :=
  .bind (.quietly first) (fun value _ => rest value)

end Concludes

end Interaction
