import Mathlib.Data.List.Basic

/-! Programs that ask an environment for replies, and what their executions can observe.
A program is a finite tree of calls, so every execution ends; the environment is arbitrary
unless a serving relation restricts it.
-/

namespace Interaction

/-- A finished program carries a value; any other asks one call and continues with the
reply, whatever the environment answers.
-/
inductive Program (Call : Type) (Reply : Call → Type) (α : Type) : Type
  | done (value : α)
  | ask (call : Call) (next : Reply call → Program Call Reply α)

/-- One exchange with the environment: a call and the reply it received. -/
structure Event {Call : Type} (Reply : Call → Type) where
  call : Call
  reply : Reply call

variable {Call : Type} {Reply : Call → Type} {α β σ : Type}

namespace Program

def bind (program : Program Call Reply α) (next : α → Program Call Reply β)
    : Program Call Reply β :=
  match program with
  | .done value => next value
  | .ask call rest => .ask call (fun reply => (rest reply).bind next)

instance : Monad (Program Call Reply) where
  pure := .done
  bind := .bind

@[simp] theorem bind_done (program : Program Call Reply α) : program.bind .done = program := by
  induction program with
  | done value => rfl
  | ask call next ih => simp only [bind, ih]

theorem bind_assoc {γ : Type} (program : Program Call Reply α)
    (first : α → Program Call Reply β) (second : β → Program Call Reply γ)
    : (program.bind first).bind second
      = program.bind (fun value => (first value).bind second) := by
  induction program with
  | done value => rfl
  | ask call next ih => simp only [bind, ih]

instance : LawfulMonad (Program Call Reply) :=
  LawfulMonad.mk' (Program Call Reply) bind_done (fun _ _ => rfl) bind_assoc

/-- (program.Exec events value) is one execution: the environment gave the listed replies
and the program finished with `value`.
-/
inductive Exec : Program Call Reply α → List (Event Reply) → α → Prop
  | done (value : α) : Exec (.done value) [] value
  | ask {call : Call} {next : Reply call → Program Call Reply α} {reply : Reply call}
    {events : List (Event Reply)} {value : α} (rest : Exec (next reply) events value)
    : Exec (.ask call next) (⟨call, reply⟩ :: events) value

@[simp] theorem exec_done_iff {value result : α} {events : List (Event Reply)}
    : (Program.done value : Program Call Reply α).Exec events result
      ↔ events = [] ∧ value = result := by
  refine ⟨?_, ?_⟩
  · intro exec
    cases exec
    exact ⟨rfl, rfl⟩
  · intro ⟨empty, same⟩
    subst empty same
    exact .done value

theorem exec_ask_iff {call : Call} {next : Reply call → Program Call Reply α}
    {events : List (Event Reply)} {result : α}
    : (Program.ask call next).Exec events result
      ↔ ∃ reply rest, events = ⟨call, reply⟩ :: rest ∧ (next reply).Exec rest result := by
  refine ⟨?_, ?_⟩
  · intro exec
    cases exec with
    | ask rest => exact ⟨_, _, rfl, rest⟩
  · intro ⟨reply, rest, same, exec⟩
    subst same
    exact .ask exec

/-- Executions compose, by induction on the first one. -/
theorem Exec.bind {program : Program Call Reply α} {next : α → Program Call Reply β}
    {first second : List (Event Reply)} {value : α} {result : β}
    (left : program.Exec first value) (right : (next value).Exec second result)
    : (program.bind next).Exec (first ++ second) result := by
  induction left with
  | done value => exact right
  | ask _ ih => exact .ask (ih right)

/-- Every execution of a composition splits at the first program's value, by induction on
that program.
-/
theorem exec_bind_iff {program : Program Call Reply α} {next : α → Program Call Reply β}
    {events : List (Event Reply)} {result : β}
    : (program.bind next).Exec events result
      ↔ ∃ first second value,
          events = first ++ second
          ∧ program.Exec first value
          ∧ (next value).Exec second result := by
  refine ⟨?_, ?_⟩
  · intro exec
    induction program generalizing events with
    | done value => exact ⟨[], events, value, rfl, .done value, exec⟩
    | ask call rest ih =>
        obtain ⟨reply, tail, same, continued⟩ := exec_ask_iff.mp exec
        obtain ⟨first, second, value, split, left, right⟩ := ih reply continued
        subst same split
        exact ⟨⟨call, reply⟩ :: first, second, value, rfl, .ask left, right⟩
  · intro ⟨first, second, value, same, left, right⟩
    exact same ▸ left.bind right

/-- A finished execution does not go on, by induction on it. -/
theorem Exec.finished {program : Program Call Reply α} {events more : List (Event Reply)}
    {value result : α} (whole : program.Exec events value)
    (longer : program.Exec (events ++ more) result)
    : more = [] ∧ result = value := by
  induction whole with
  | done value =>
      obtain ⟨empty, same⟩ := exec_done_iff.mp longer
      exact ⟨empty, same.symm⟩
  | ask _ ih =>
      obtain ⟨_, _, same, continued⟩ := exec_ask_iff.mp longer
      cases same
      exact ih continued

/-- The execution in which every call receives the reply that `answer` gives it. -/
def play (answer : (call : Call) → Reply call)
    : Program Call Reply α → List (Event Reply) × α
  | .done value => ([], value)
  | .ask call next =>
      let (events, value) := (next (answer call)).play answer
      (⟨call, answer call⟩ :: events, value)

theorem exec_play (answer : (call : Call) → Reply call) (program : Program Call Reply α)
    : program.Exec (program.play answer).1 (program.play answer).2 := by
  induction program with
  | done value => exact .done value
  | ask call next ih => exact .ask (ih (answer call))

theorem play_reply (answer : (call : Call) → Reply call) (program : Program Call Reply α)
    : ∀ event ∈ (program.play answer).1, event = ⟨event.call, answer event.call⟩ := by
  induction program with
  | done value => simp [play]
  | ask call next ih =>
      intro event member
      rcases List.mem_cons.mp member with here | later
      · rw [here]
      · exact ih (answer call) event later

/-- Every call the program can ever ask satisfies `allowed`, whatever the replies. -/
def Asks (allowed : Call → Prop) : Program Call Reply α → Prop
  | .done _ => True
  | .ask call next => allowed call ∧ ∀ reply, (next reply).Asks allowed

/-- A restriction on calls composes, by induction on the first program. -/
theorem Asks.bind {allowed : Call → Prop} {program : Program Call Reply α}
    {next : α → Program Call Reply β} (first : program.Asks allowed)
    (rest : ∀ value, (next value).Asks allowed)
    : (program.bind next).Asks allowed := by
  induction program with
  | done value => exact rest value
  | ask call next ih => exact ⟨first.1, fun reply => ih reply (first.2 reply)⟩

/-- A program may ask anything when every call is allowed. -/
theorem asks_of_forall {allowed : Call → Prop} (all : ∀ call, allowed call)
    (program : Program Call Reply α)
    : program.Asks allowed := by
  induction program with
  | done value => trivial
  | ask call next ih => exact ⟨all call, ih⟩

theorem Asks.mono {allowed other : Call → Prop} {program : Program Call Reply α}
    (asks : program.Asks allowed) (implies : ∀ call, allowed call → other call)
    : program.Asks other := by
  induction program with
  | done value => trivial
  | ask call next ih => exact ⟨implies call asks.1, fun reply => ih reply (asks.2 reply)⟩

/-- Every event of an execution is a call the program was allowed to ask, by induction on
the execution.
-/
theorem Exec.asks {allowed : Call → Prop} {program : Program Call Reply α}
    {events : List (Event Reply)} {value : α} (exec : program.Exec events value)
    (asks : program.Asks allowed)
    : ∀ event ∈ events, allowed event.call := by
  induction exec with
  | done value => simp
  | ask _ ih =>
      intro event member
      rcases List.mem_cons.mp member with here | later
      · exact here ▸ asks.1
      · exact ih (asks.2 _) event later

/-- Every call the program can ask is allowed after the events before it, whatever the replies.
-/
def AsksAfter (allowed : List (Event Reply) → Call → Prop) (past : List (Event Reply))
    : Program Call Reply α → Prop
  | .done _ => True
  | .ask call next =>
      allowed past call ∧ ∀ reply, (next reply).AsksAfter allowed (past ++ [⟨call, reply⟩])

section

variable {allowed : List (Event Reply) → Call → Prop} {past : List (Event Reply)}

/-- Programs compose: the second one starts after the events of the first, by induction on it. -/
theorem AsksAfter.bind {program : Program Call Reply α} {next : α → Program Call Reply β}
    (first : program.AsksAfter allowed past)
    (rest : ∀ events value,
      program.Exec events value → (next value).AsksAfter allowed (past ++ events))
    : (program.bind next).AsksAfter allowed past := by
  induction program generalizing past with
  | done value =>
      have after := rest [] value (.done value)
      rw [List.append_nil] at after
      exact after
  | ask call later ih =>
      refine ⟨first.1, fun reply => ih reply (first.2 reply) ?_⟩
      intro events value exec
      simpa using rest (⟨call, reply⟩ :: events) value (.ask exec)

/-- What is allowed at any time is allowed after whatever events, by induction on the program. -/
theorem Asks.after {permitted : Call → Prop} {program : Program Call Reply α}
    (asks : program.Asks permitted)
    : program.AsksAfter (fun _ => permitted) past := by
  induction program generalizing past with
  | done value => trivial
  | ask call next ih => exact ⟨asks.1, fun reply => ih reply (asks.2 reply)⟩

/-- Every event of an execution is a call that was allowed after the events before it, by
induction on the execution.
-/
theorem Exec.asksAfter {program : Program Call Reply α} {before after : List (Event Reply)}
    {event : Event Reply} {value : α} (exec : program.Exec (before ++ event :: after) value)
    (asks : program.AsksAfter allowed past)
    : allowed (past ++ before) event.call := by
  induction before generalizing past program with
  | nil =>
      cases exec
      simpa using asks.1
  | cons first before ih =>
      cases exec with
      | ask exec => simpa using ih exec (asks.2 _)

end

/-- (Served serves state events after) means that a world in `state` can give the replies of
the events in turn, and is then in `after`.
-/
inductive Served (serves : σ → Event Reply → σ → Prop) : σ → List (Event Reply) → σ → Prop
  | nil (state : σ) : Served serves state [] state
  | cons {state middle after : σ} {event : Event Reply} {rest : List (Event Reply)}
    (head : serves state event middle) (tail : Served serves middle rest after)
    : Served serves state (event :: rest) after

variable {serves : σ → Event Reply → σ → Prop}

@[simp] theorem served_nil_iff {state after : σ}
    : Served serves state [] after ↔ after = state := by
  refine ⟨?_, ?_⟩
  · intro served
    cases served
    rfl
  · intro same
    subst same
    exact .nil after

theorem served_cons_iff {state after : σ} {event : Event Reply} {rest : List (Event Reply)}
    : Served serves state (event :: rest) after
      ↔ ∃ middle, serves state event middle ∧ Served serves middle rest after := by
  refine ⟨?_, ?_⟩
  · intro served
    cases served with
    | cons head tail => exact ⟨_, head, tail⟩
  · intro ⟨middle, head, tail⟩
    exact .cons head tail

/-- Serving splits where the events do, by induction on the first ones. -/
theorem served_append_iff {state after : σ} {first second : List (Event Reply)}
    : Served serves state (first ++ second) after
      ↔ ∃ middle, Served serves state first middle ∧ Served serves middle second after := by
  induction first generalizing state with
  | nil => simp
  | cons event rest ih =>
      simp only [List.cons_append, served_cons_iff, ih]
      refine ⟨?_, ?_⟩
      · intro ⟨next, head, middle, tail, later⟩
        exact ⟨middle, ⟨next, head, tail⟩, later⟩
      · intro ⟨middle, ⟨next, head, tail⟩, later⟩
        exact ⟨next, head, middle, tail, later⟩

/-- What each event leaves of the world as it is, all of them leave, by induction on them. -/
theorem Served.keeps {τ : Type} {state after : σ} {events : List (Event Reply)}
    (served : Served serves state events after) (view : σ → τ)
    (each : ∀ event ∈ events, ∀ before next, serves before event next → view next = view before)
    : view after = view state := by
  induction served with
  | nil => rfl
  | cons head tail ih =>
      rw [ih (fun event member => each event (List.mem_cons_of_mem _ member))]
      exact each _ List.mem_cons_self _ _ head

/-- Events that leave the world as it is, one by one, do so together. -/
theorem Served.unchanged {state after : σ} {events : List (Event Reply)}
    (served : Served serves state events after)
    (each : ∀ event ∈ events, ∀ before next, serves before event next → next = before)
    : after = state :=
  served.keeps id each

/-- What every answer keeps is kept by all of them, by induction on the events. -/
theorem Served.invariant {holds : σ → Prop} {state after : σ} {events : List (Event Reply)}
    (served : Served serves state events after) (first : holds state)
    (next : ∀ before event later, holds before → serves before event later → holds later)
    : holds after := by
  induction served with
  | nil => exact first
  | cons head _ ih => exact ih (next _ _ _ first head)

/-- What every answer says, each of the events says, by induction on them. -/
theorem Served.forall_mem {said : Event Reply → Prop} {state after : σ} {events : List (Event Reply)}
    (served : Served serves state events after)
    (each : ∀ before event next, serves before event next → said event)
    : ∀ event ∈ events, said event := by
  induction served with
  | nil => simp
  | cons head _ ih => exact List.forall_mem_cons.mpr ⟨each _ _ _ head, ih⟩

/-- Events that a world can answer without changing are served together, by induction. -/
theorem served_of_unchanged {state : σ} {events : List (Event Reply)}
    (each : ∀ event ∈ events, serves state event state)
    : Served serves state events state := by
  induction events with
  | nil => exact .nil state
  | cons event rest ih =>
      have later := ih (fun other member => each other (List.mem_cons_of_mem _ member))
      exact .cons (each event List.mem_cons_self) later

end Program

/-- A program that either finishes with a value or stops early with an `ε`. -/
abbrev Coroutine (Call : Type) (Reply : Call → Type) (ε α : Type) : Type :=
  ExceptT ε (Program Call Reply) α

namespace Coroutine

variable {ε ε' : Type}

/-- Ask one call and continue with its reply. -/
def ask (call : Call) : Coroutine Call Reply ε (Reply call) :=
  ExceptT.mk (.ask call (fun reply => .done (.ok reply)))

/-- Run a coroutine to its end and hand over how it ended. -/
def attempt (body : Coroutine Call Reply ε α) : Coroutine Call Reply ε' (Except ε α) :=
  ExceptT.mk (body.run.bind (fun outcome => .done (.ok outcome)))

/-- Continue with a computed value, or stop with its error. -/
def ofExcept (outcome : Except ε α) : Coroutine Call Reply ε α :=
  ExceptT.mk (.done outcome)

/-- Ask one call, and continue with its answer or stop with its error. -/
def demand (call : Call) (answer : Reply call → Except ε α) : Coroutine Call Reply ε α :=
  ExceptT.mk (.ask call (fun reply => .done (answer reply)))

/-- Rename the way a coroutine stops early. -/
def mapStop (rename : ε → ε') (body : Coroutine Call Reply ε α)
    : Coroutine Call Reply ε' α :=
  attempt body >>= fun outcome => ofExcept (outcome.mapError rename)

theorem run_bind (body : Coroutine Call Reply ε α) (next : α → Coroutine Call Reply ε β)
    : (body >>= next).run
      = body.run.bind (fun outcome =>
          match outcome with
          | .ok value => (next value).run
          | .error stop => .done (.error stop)) := by
  change body.run.bind (ExceptT.bindCont next) = _
  congr 1
  funext outcome
  cases outcome <;> rfl

@[simp] theorem run_pure (value : α)
    : (pure value : Coroutine Call Reply ε α).run = .done (.ok value) :=
  rfl

@[simp] theorem run_throw (stop : ε)
    : (throw stop : Coroutine Call Reply ε α).run = .done (.error stop) :=
  rfl

@[simp] theorem run_ask (call : Call)
    : (ask call : Coroutine Call Reply ε (Reply call)).run
      = .ask call (fun reply => .done (.ok reply)) :=
  rfl

@[simp] theorem run_ofExcept (outcome : Except ε α)
    : (ofExcept outcome : Coroutine Call Reply ε α).run = .done outcome :=
  rfl

@[simp] theorem ofExcept_ok_bind (value : α) (next : α → Coroutine Call Reply ε β)
    : (ofExcept (.ok value) >>= next) = next value :=
  rfl

@[simp] theorem ofExcept_error_bind (stop : ε) (next : α → Coroutine Call Reply ε β)
    : (ofExcept (.error stop) >>= next) = ofExcept (.error stop) :=
  rfl

/-- A demand is one event, and ends with its answer. -/
theorem exec_demand_iff {call : Call} {answer : Reply call → Except ε α}
    {events : List (Event Reply)} {outcome : Except ε α}
    : (demand call answer).run.Exec events outcome
      ↔ ∃ reply, events = [⟨call, reply⟩] ∧ answer reply = outcome := by
  change (Program.ask call _).Exec events outcome ↔ _
  rw [Program.exec_ask_iff]
  refine ⟨?_, ?_⟩
  · intro ⟨reply, rest, same, exec⟩
    obtain ⟨empty, ended⟩ := Program.exec_done_iff.mp exec
    exact ⟨reply, by rw [same, empty], ended⟩
  · intro ⟨reply, same, ended⟩
    exact ⟨reply, [], same, ended ▸ .done _⟩

/-- What follows a question is asked after its reply. -/
theorem exec_ask_bind_iff {call : Call} {next : Reply call → Coroutine Call Reply ε β}
    {events : List (Event Reply)} {outcome : Except ε β}
    : (ask call >>= next).run.Exec events outcome
      ↔ ∃ reply rest,
          events = ⟨call, reply⟩ :: rest ∧ (next reply).run.Exec rest outcome :=
  Program.exec_ask_iff

/-- What follows a computed value finishes when the value could be computed. -/
theorem exec_ofExcept_bind_ok_iff {outcome : Except ε α} {next : α → Coroutine Call Reply ε β}
    {events : List (Event Reply)} {result : β}
    : (ofExcept outcome >>= next).run.Exec events (.ok result)
      ↔ ∃ value, outcome = .ok value ∧ (next value).run.Exec events (.ok result) := by
  cases outcome with
  | ok value => simp
  | error stop => simp

/-- A composed coroutine finishes exactly when both parts do, in order. -/
theorem exec_bind_ok_iff {body : Coroutine Call Reply ε α}
    {next : α → Coroutine Call Reply ε β} {events : List (Event Reply)} {result : β}
    : (body >>= next).run.Exec events (.ok result)
      ↔ ∃ first second value,
          events = first ++ second
          ∧ body.run.Exec first (.ok value)
          ∧ (next value).run.Exec second (.ok result) := by
  rw [run_bind, Program.exec_bind_iff]
  refine ⟨?_, ?_⟩
  · intro ⟨first, second, outcome, same, left, right⟩
    cases outcome with
    | error stop => simp at right
    | ok value => exact ⟨first, second, value, same, left, right⟩
  · intro ⟨first, second, value, same, left, right⟩
    exact ⟨first, second, .ok value, same, left, right⟩

/-- A composed coroutine stops early in its first part, or after finishing it. -/
theorem exec_bind_error_iff {body : Coroutine Call Reply ε α}
    {next : α → Coroutine Call Reply ε β} {events : List (Event Reply)} {stop : ε}
    : (body >>= next).run.Exec events (.error stop)
      ↔ body.run.Exec events (.error stop)
        ∨ ∃ first second value,
            events = first ++ second
            ∧ body.run.Exec first (.ok value)
            ∧ (next value).run.Exec second (.error stop) := by
  rw [run_bind, Program.exec_bind_iff]
  refine ⟨?_, ?_⟩
  · intro ⟨first, second, outcome, same, left, right⟩
    cases outcome with
    | error early =>
        obtain ⟨empty, stopped⟩ := Program.exec_done_iff.mp right
        cases stopped
        subst empty
        exact Or.inl (by simpa [same] using left)
    | ok value => exact Or.inr ⟨first, second, value, same, left, right⟩
  · intro stopped
    rcases stopped with early | ⟨first, second, value, same, left, right⟩
    · exact ⟨events, [], .error stop, by simp, early, .done _⟩
    · exact ⟨first, second, .ok value, same, left, right⟩

/-- A served execution of a composition stops early in the first part, or is a served
execution of that part and then one of the rest.
-/
theorem exec_bind_served {serves : σ → Event Reply → σ → Prop} {state after : σ}
    {body : Coroutine Call Reply ε α} {next : α → Coroutine Call Reply ε β}
    {events : List (Event Reply)} {outcome : Except ε β}
    (exec : (body >>= next).run.Exec events outcome)
    (served : Program.Served serves state events after)
    : (∃ stop, outcome = .error stop ∧ body.run.Exec events (.error stop))
      ∨ ∃ first second value middle,
          events = first ++ second
          ∧ body.run.Exec first (.ok value)
          ∧ Program.Served serves state first middle
          ∧ (next value).run.Exec second outcome
          ∧ Program.Served serves middle second after := by
  rw [run_bind, Program.exec_bind_iff] at exec
  obtain ⟨first, second, value, same, left, right⟩ := exec
  subst same
  cases value with
  | error stop =>
      obtain ⟨empty, stopped⟩ := Program.exec_done_iff.mp right
      subst empty
      rw [List.append_nil]
      exact Or.inl ⟨stop, stopped.symm, left⟩
  | ok value =>
      obtain ⟨middle, early, late⟩ := Program.served_append_iff.mp served
      exact Or.inr ⟨first, second, value, middle, rfl, left, early, right, late⟩

/-- A served execution of a computed outcome leaves the world as it is. -/
theorem exec_ofExcept_served {serves : σ → Event Reply → σ → Prop} {state after : σ}
    {result outcome : Except ε α} {events : List (Event Reply)}
    (exec : (ofExcept result : Coroutine Call Reply ε α).run.Exec events outcome)
    (served : Program.Served serves state events after)
    : after = state ∧ result = outcome := by
  obtain ⟨empty, same⟩ := Program.exec_done_iff.mp exec
  subst empty
  exact ⟨Program.served_nil_iff.mp served, same⟩

/-- A served execution of a demand is one exchange. -/
theorem exec_demand_served {serves : σ → Event Reply → σ → Prop} {state after : σ}
    {call : Call} {answer : Reply call → Except ε α} {events : List (Event Reply)}
    {outcome : Except ε α} (exec : (demand call answer).run.Exec events outcome)
    (served : Program.Served serves state events after)
    : ∃ reply, serves state ⟨call, reply⟩ after ∧ answer reply = outcome := by
  obtain ⟨reply, single, answered⟩ := exec_demand_iff.mp exec
  subst single
  obtain ⟨middle, head, tail⟩ := Program.served_cons_iff.mp served
  exact ⟨reply, (Program.served_nil_iff.mp tail) ▸ head, answered⟩

/-- Attempting a coroutine always finishes, with the way the body ended. -/
theorem exec_attempt_iff {body : Coroutine Call Reply ε α} {events : List (Event Reply)}
    {outcome : Except ε α}
    : (attempt body : Coroutine Call Reply ε' (Except ε α)).run.Exec events (.ok outcome)
      ↔ body.run.Exec events outcome := by
  change (body.run.bind _).Exec events (Except.ok outcome) ↔ _
  rw [Program.exec_bind_iff]
  refine ⟨?_, ?_⟩
  · intro ⟨first, second, value, same, left, right⟩
    obtain ⟨empty, ended⟩ := Program.exec_done_iff.mp right
    cases ended
    subst empty
    simpa [same] using left
  · intro exec
    exact ⟨events, [], outcome, by simp, exec, .done _⟩

/-- A coroutine whose stops are renamed finishes as it did. -/
theorem exec_mapStop_ok_iff {rename : ε → ε'} {body : Coroutine Call Reply ε α}
    {events : List (Event Reply)} {value : α}
    : (mapStop rename body).run.Exec events (.ok value) ↔ body.run.Exec events (.ok value) := by
  unfold mapStop
  rw [exec_bind_ok_iff]
  refine ⟨?_, ?_⟩
  · intro ⟨first, second, outcome, same, attempted, ended⟩
    obtain ⟨empty, mapped⟩ := Program.exec_done_iff.mp ended
    have inner := exec_attempt_iff.mp attempted
    cases outcome with
    | error stop => cases mapped
    | ok result =>
        cases mapped
        rw [same, empty, List.append_nil]
        exact inner
  · intro exec
    exact ⟨events, [], .ok value, by simp, exec_attempt_iff.mpr exec, .done _⟩

/-- A question whose answer is demanded either goes on with the answer, or stops with its error. -/
theorem exec_demand_bind {call : Call} {answer : Reply call → Except ε α}
    {next : α → Coroutine Call Reply ε β} {events : List (Event Reply)} {outcome : Except ε β}
    (exec : (demand call answer >>= next).run.Exec events outcome)
    : ∃ reply rest,
        events = ⟨call, reply⟩ :: rest
        ∧ ((∃ value, answer reply = .ok value ∧ (next value).run.Exec rest outcome)
          ∨ ∃ stop, answer reply = .error stop ∧ rest = [] ∧ outcome = .error stop) := by
  rw [run_bind, Program.exec_bind_iff] at exec
  obtain ⟨first, rest, ended, rfl, asked, exec⟩ := exec
  obtain ⟨reply, rfl, rfl⟩ := exec_demand_iff.mp asked
  refine ⟨reply, rest, rfl, ?_⟩
  cases answered : answer reply with
  | ok value =>
      rw [answered] at exec
      exact Or.inl ⟨value, rfl, exec⟩
  | error stop =>
      rw [answered] at exec
      obtain ⟨rfl, rfl⟩ := Program.exec_done_iff.mp exec
      exact Or.inr ⟨stop, rfl, rfl, rfl⟩

/-- What follows an attempt runs whether the attempted body returns or stops. -/
theorem exec_attempt_bind_iff {body : Coroutine Call Reply ε α}
    {next : Except ε α → Coroutine Call Reply ε' β} {events : List (Event Reply)}
    {outcome : Except ε' β}
    : ((attempt body : Coroutine Call Reply ε' (Except ε α)) >>= next).run.Exec events outcome
      ↔ ∃ first rest ended,
          events = first ++ rest
          ∧ body.run.Exec first ended
          ∧ (next ended).run.Exec rest outcome := by
  rw [run_bind, Program.exec_bind_iff]
  refine ⟨?_, ?_⟩
  · intro ⟨first, rest, value, same, attempted, exec⟩
    cases value with
    | ok ended => exact ⟨first, rest, ended, same, exec_attempt_iff.mp attempted, exec⟩
    | error stop =>
        obtain ⟨_, _, _, _, _, impossible⟩ := Program.exec_bind_iff.mp attempted
        obtain ⟨_, impossible⟩ := Program.exec_done_iff.mp impossible
        cases impossible
  · intro ⟨first, rest, ended, same, exec, after⟩
    exact ⟨first, rest, .ok ended, same, exec_attempt_iff.mpr exec, after⟩

/-- What follows a coroutine whose stops are renamed goes on with its value, unless it stopped. -/
theorem exec_mapStop_bind {rename : ε → ε'} {body : Coroutine Call Reply ε α}
    {next : α → Coroutine Call Reply ε' β} {events : List (Event Reply)} {outcome : Except ε' β}
    (exec : (mapStop rename body >>= next).run.Exec events outcome)
    : (∃ first rest value,
        events = first ++ rest
        ∧ body.run.Exec first (.ok value)
        ∧ (next value).run.Exec rest outcome)
      ∨ ∃ stop, body.run.Exec events (.error stop) ∧ outcome = .error (rename stop) := by
  unfold mapStop at exec
  rw [bind_assoc] at exec
  obtain ⟨first, rest, ended, rfl, ran, exec⟩ := exec_attempt_bind_iff.mp exec
  cases ended with
  | ok value => exact Or.inl ⟨first, rest, value, rfl, ran, exec⟩
  | error stop =>
      obtain ⟨rfl, rfl⟩ := Program.exec_done_iff.mp exec
      rw [List.append_nil]
      exact Or.inr ⟨stop, ran, rfl⟩

/-- A restriction on calls composes through early stops. -/
theorem asks_bind {allowed : Call → Prop} {body : Coroutine Call Reply ε α}
    {next : α → Coroutine Call Reply ε β} (first : body.run.Asks allowed)
    (rest : ∀ value, (next value).run.Asks allowed)
    : (body >>= next).run.Asks allowed := by
  rw [run_bind]
  refine first.bind (fun outcome => ?_)
  cases outcome with
  | error stop => trivial
  | ok value => exact rest value

section

variable {allowed : Call → Prop}

theorem asks_pure (value : α)
    : (pure value : Coroutine Call Reply ε α).run.Asks allowed :=
  trivial

theorem asks_ofExcept (outcome : Except ε α)
    : (ofExcept outcome : Coroutine Call Reply ε α).run.Asks allowed :=
  trivial

/-- What follows a computed value may rely on how it was computed. -/
theorem asks_ofExcept_bind {outcome : Except ε α} {next : α → Coroutine Call Reply ε β}
    (rest : ∀ value, outcome = .ok value → (next value).run.Asks allowed)
    : (ofExcept outcome >>= next).run.Asks allowed := by
  cases outcome with
  | error stop => exact asks_ofExcept _
  | ok value => exact rest value rfl

theorem asks_ask {call : Call} (permitted : allowed call)
    : (ask call : Coroutine Call Reply ε (Reply call)).run.Asks allowed :=
  ⟨permitted, fun _ => trivial⟩

theorem asks_demand {call : Call} (answer : Reply call → Except ε α)
    (permitted : allowed call)
    : (demand call answer).run.Asks allowed :=
  ⟨permitted, fun _ => trivial⟩

theorem asks_attempt {body : Coroutine Call Reply ε α} (asks : body.run.Asks allowed)
    : (attempt body : Coroutine Call Reply ε' (Except ε α)).run.Asks allowed :=
  asks.bind (fun _ => trivial)

theorem asks_mapStop {rename : ε → ε'} {body : Coroutine Call Reply ε α}
    (asks : body.run.Asks allowed)
    : (mapStop rename body).run.Asks allowed :=
  asks_bind (asks_attempt asks) (fun _ => asks_ofExcept _)

/-- A loop asks what its steps ask, by induction on the list. -/
theorem asks_foldlM {step : β → α → Coroutine Call Reply ε β}
    (each : ∀ state item, (step state item).run.Asks allowed) (state : β) (items : List α)
    : (items.foldlM step state).run.Asks allowed := by
  induction items generalizing state with
  | nil => exact asks_pure state
  | cons item rest ih =>
      rw [List.foldlM_cons]
      exact asks_bind (each state item) ih

end

section

variable {allowed : List (Event Reply) → Call → Prop} {past : List (Event Reply)}
  {next : α → Coroutine Call Reply ε β}

theorem asksAfter_bind {body : Coroutine Call Reply ε α} (first : body.run.AsksAfter allowed past)
    (rest : ∀ events value,
      body.run.Exec events (.ok value) → (next value).run.AsksAfter allowed (past ++ events))
    : (body >>= next).run.AsksAfter allowed past := by
  rw [run_bind]
  refine first.bind (fun events outcome exec => ?_)
  cases outcome with
  | error stop => trivial
  | ok value => exact rest events value exec

theorem asksAfter_ask_bind {call : Call} {next : Reply call → Coroutine Call Reply ε β}
    (permitted : allowed past call)
    (rest : ∀ reply, (next reply).run.AsksAfter allowed (past ++ [⟨call, reply⟩]))
    : (ask call >>= next).run.AsksAfter allowed past :=
  ⟨permitted, rest⟩

/-- What follows an answer starts after a reply that gives it. -/
theorem asksAfter_demand_bind {call : Call} {answer : Reply call → Except ε α}
    (permitted : allowed past call)
    (rest : ∀ reply value,
      answer reply = .ok value → (next value).run.AsksAfter allowed (past ++ [⟨call, reply⟩]))
    : (demand call answer >>= next).run.AsksAfter allowed past := by
  refine asksAfter_bind ⟨permitted, fun _ => trivial⟩ (fun events value exec => ?_)
  obtain ⟨reply, same, answered⟩ := exec_demand_iff.mp exec
  subst same
  exact rest reply value answered

theorem asksAfter_attempt_bind {body : Coroutine Call Reply ε α}
    {next : Except ε α → Coroutine Call Reply ε' β} (first : body.run.AsksAfter allowed past)
    (rest : ∀ events outcome,
      body.run.Exec events outcome → (next outcome).run.AsksAfter allowed (past ++ events))
    : ((attempt body : Coroutine Call Reply ε' (Except ε α)) >>= next).run.AsksAfter allowed past := by
  refine asksAfter_bind (first.bind (fun _ _ _ => trivial)) (fun events outcome exec => ?_)
  exact rest events outcome (exec_attempt_iff.mp exec)

end

end Coroutine

end Interaction
