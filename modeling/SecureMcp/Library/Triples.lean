import SecureMcp.Library.Handlers
import SecureMcp.Library.Pipeline

/-! Triples of coroutines whose questions a world answers: what an execution returns or stops with, and
the state that it leaves, from the states in which it starts. Where the questions are answered by
programs over a lower world, a simulation of each answer is one of the whole run.
-/

namespace Interaction

variable {Call : Type} {Reply : Call → Type} {σ ε ε' ρ α β : Type}

/-- What is said of every event on its own is said of the events together, by induction on them. -/
theorem Program.served_and_iff {serves : σ → Event Reply → σ → Prop} {holds : Event Reply → Prop}
    {state after : σ} {events : List (Event Reply)}
    : Program.Served (fun before event next => serves before event next ∧ holds event) state events
        after
      ↔ Program.Served serves state events after ∧ ∀ event ∈ events, holds event := by
  induction events generalizing state with
  | nil => simp
  | cons event rest ih =>
      simp only [Program.served_cons_iff, ih, List.forall_mem_cons]
      refine ⟨?_, ?_⟩
      · rintro ⟨middle, ⟨head, here⟩, tail, later⟩
        exact ⟨⟨middle, head, tail⟩, here, later⟩
      · rintro ⟨⟨middle, head, tail⟩, here, later⟩
        exact ⟨middle, ⟨head, here⟩, tail, later⟩

/-- What holds of an outcome and of the state that it leaves. -/
def Leaves (returns : α → σ → Prop) (stops : ε → σ → Prop) (after : σ) : Except ε α → Prop
  | .ok value => returns value after
  | .error stop => stops stop after

/-- (Triple serves start returns stops body) means that every execution of `body` from a state in
`start` comes out as `returns` and `stops` say.
-/
def Triple (serves : σ → Event Reply → σ → Prop) (start : σ → Prop) (returns : α → σ → Prop)
    (stops : ε → σ → Prop) (body : Coroutine Call Reply ε α)
    : Prop :=
  ∀ state events after outcome,
    start state
    → body.run.Exec events outcome
    → Program.Served serves state events after
    → Leaves returns stops after outcome

namespace Triple

variable {serves : σ → Event Reply → σ → Prop} {start : σ → Prop} {returns : α → σ → Prop}
  {stops : ε → σ → Prop}

theorem pure {value : α} (holds : ∀ state, start state → returns value state)
    : Triple serves start returns stops (Pure.pure value : Coroutine Call Reply ε α) := by
  intro state events after outcome first exec served
  obtain ⟨rfl, rfl⟩ := Program.exec_done_iff.mp exec
  obtain rfl := Program.served_nil_iff.mp served
  exact holds _ first

theorem ofExcept {outcome : Except ε α}
    (leaves : ∀ state, start state → Leaves returns stops state outcome)
    : Triple serves start returns stops
        (Coroutine.ofExcept outcome : Coroutine Call Reply ε α) := by
  intro state events after ended first exec served
  obtain ⟨rfl, rfl⟩ := Program.exec_done_iff.mp exec
  obtain rfl := Program.served_nil_iff.mp served
  exact leaves _ first

theorem demand {call : Call} {answer : Reply call → Except ε α}
    (answered : ∀ state reply after,
      start state → serves state ⟨call, reply⟩ after → Leaves returns stops after (answer reply))
    : Triple serves start returns stops (Coroutine.demand call answer) := by
  intro state events after outcome first exec served
  obtain ⟨reply, serving, rfl⟩ := Coroutine.exec_demand_served exec served
  exact answered state reply after first serving

theorem ask (call : Call) {returns : Reply call → σ → Prop}
    (answered : ∀ state reply after,
      start state → serves state ⟨call, reply⟩ after → returns reply after)
    : Triple serves start returns stops (Coroutine.ask call : Coroutine Call Reply ε _) := by
  intro state events after outcome first exec served
  obtain ⟨reply, rest, rfl, ended⟩ := Program.exec_ask_iff.mp exec
  obtain ⟨rfl, rfl⟩ := Program.exec_done_iff.mp ended
  obtain ⟨middle, serving, last⟩ := Program.served_cons_iff.mp served
  obtain rfl := Program.served_nil_iff.mp last
  exact answered state reply _ first serving

/-- Less is required of where a coroutine starts, or more is said of what it comes to. -/
theorem weaken {begin : σ → Prop} {results : α → σ → Prop} {ends : ε → σ → Prop}
    {body : Coroutine Call Reply ε α} (triple : Triple serves begin results ends body)
    (first : ∀ state, start state → begin state)
    (last : ∀ value state, results value state → returns value state)
    (stopped : ∀ stop state, ends stop state → stops stop state)
    : Triple serves start returns stops body := by
  intro state events after outcome begins exec served
  have leaves := triple state events after outcome (first state begins) exec served
  cases outcome with
  | ok value => exact last value after leaves
  | error stop => exact stopped stop after leaves

/-- Fewer answers have fewer executions. -/
theorem narrow {fewer : σ → Event Reply → σ → Prop} {body : Coroutine Call Reply ε α}
    (triple : Triple serves start returns stops body)
    (within : ∀ state event after, fewer state event after → serves state event after)
    : Triple fewer start returns stops body := by
  intro state events after outcome begins exec served
  have wider : Program.Served serves state events after := by
    clear exec begins
    induction served with
    | nil => exact .nil _
    | cons head _ ih => exact .cons (within _ _ _ head) ih
  exact triple state events after outcome begins exec wider

/-- What a start says of no state is a fact. -/
theorem assuming {fact : Prop} {body : Coroutine Call Reply ε α}
    (triple : fact → Triple serves start returns stops body)
    : Triple serves (fun state => fact ∧ start state) returns stops body :=
  fun state events after outcome begins => triple begins.1 state events after outcome begins.2

/-- Coroutines compose: the second one starts where the first one returns. -/
theorem bind {middle : α → σ → Prop} {returns : β → σ → Prop} {body : Coroutine Call Reply ε α}
    {next : α → Coroutine Call Reply ε β} (first : Triple serves start middle stops body)
    (rest : ∀ value, Triple serves (middle value) returns stops (next value))
    : Triple serves start returns stops (body >>= next) := by
  intro state events after outcome begins exec served
  rw [Coroutine.run_bind, Program.exec_bind_iff] at exec
  obtain ⟨one, two, ended, rfl, left, right⟩ := exec
  obtain ⟨between, early, late⟩ := Program.served_append_iff.mp served
  have leaves := first state one between ended begins left early
  cases ended with
  | error stop =>
      obtain ⟨rfl, rfl⟩ := Program.exec_done_iff.mp right
      obtain rfl := Program.served_nil_iff.mp late
      exact leaves
  | ok value => exact rest value between two after outcome leaves right late

/-- An attempt returns what its body came to. -/
theorem attempt {ends : ε' → σ → Prop} {body : Coroutine Call Reply ε' α}
    (triple : Triple serves start returns ends body)
    : Triple serves start (fun outcome after => Leaves returns ends after outcome) stops
        (Coroutine.attempt body : Coroutine Call Reply ε (Except ε' α)) := by
  intro state events after outcome first exec served
  obtain ⟨one, two, ended, rfl, inner, last⟩ := Program.exec_bind_iff.mp exec
  obtain ⟨rfl, rfl⟩ := Program.exec_done_iff.mp last
  rw [List.append_nil] at served
  exact triple state one after ended first inner served

/-- An exception that nothing catches stops the coroutine. -/
theorem mapStop {rename : ε' → ε} {body : Coroutine Call Reply ε' α}
    (triple : Triple serves start returns (fun stop => stops (rename stop)) body)
    : Triple serves start returns stops (Coroutine.mapStop rename body) := by
  refine .bind (.attempt triple) (fun outcome => ?_)
  cases outcome with
  | ok value => exact .ofExcept (fun _ holds => holds)
  | error stop => exact .ofExcept (fun _ holds => holds)

/-- A coroutine that ends the whole one with its response. -/
theorem finish {wrap : ρ → ε} {responds : ρ → σ → Prop} {last : Coroutine Call Reply ε ρ}
    (triple : Triple serves start responds stops last)
    (stopped : ∀ response state, responds response state → stops (wrap response) state)
    : Triple serves start returns stops (Coroutine.finish wrap last : Coroutine Call Reply ε α) :=
  .bind triple (fun response => .ofExcept (stopped response))

/-- What every allowed answer keeps, a coroutine that asks nothing else keeps. -/
theorem of_asks {allowed : Call → Prop} {body : Coroutine Call Reply ε α}
    (asks : body.run.Asks allowed)
    (keeps : ∀ state event after,
      allowed event.call → start state → serves state event after → start after)
    : Triple serves start (fun _ => start) (fun _ => start) body := by
  intro state events after outcome begins exec served
  have kept : start after := by
    have only := exec.asks asks
    clear exec
    induction served with
    | nil => exact begins
    | cons head _ ih =>
        have next := keeps _ _ _ (only _ List.mem_cons_self) begins head
        exact ih next (fun event member => only event (List.mem_cons_of_mem _ member))
  cases outcome <;> exact kept

end Triple

-----------------------------------------------------------------------------------------
-- Simulations
-----------------------------------------------------------------------------------------

variable {τ Lower : Type} {Answer : Lower → Type}

/-- (Simulates handler allowed lower upper alike) means that from states that are alike, each answer
that a handler makes over a lower world, by allowed exchanges, is one of the upper world.
-/
def Simulates (handler : (call : Call) → Program Lower Answer (Reply call))
    (allowed : Event Answer → Prop) (lower : σ → Event Answer → σ → Prop)
    (upper : τ → Event Reply → τ → Prop) (alike : σ → τ → Prop)
    : Prop :=
  ∀ call reply events below above after,
    (handler call).Exec events reply
    → (∀ event ∈ events, allowed event)
    → Program.Served lower below events after
    → alike below above
    → ∃ next, upper above ⟨call, reply⟩ next ∧ alike after next

/-- What the handlers of a run do over the lower world is a run over the upper one, by induction on the
run.
-/
theorem Expands.simulated {handler : (call : Call) → Program Lower Answer (Reply call)}
    {allowed : Event Answer → Prop} {lower : σ → Event Answer → σ → Prop}
    {upper : τ → Event Reply → τ → Prop} {alike : σ → τ → Prop} {events : List (Event Reply)}
    {inner : List (Event Answer)} {below after : σ} {above : τ}
    (simulates : Simulates handler allowed lower upper alike) (expands : Expands handler events inner)
    (allows : ∀ event ∈ inner, allowed event) (served : Program.Served lower below inner after)
    (same : alike below above)
    : ∃ next, Program.Served upper above events next ∧ alike after next := by
  induction expands generalizing below above with
  | nil =>
      obtain rfl := Program.served_nil_iff.mp served
      exact ⟨above, .nil above, same⟩
  | cons handled _ ih =>
      obtain ⟨between, early, late⟩ := Program.served_append_iff.mp served
      obtain ⟨middle, serving, between'⟩ := simulates _ _ _ _ _ _ handled
        (fun event member => allows event (List.mem_append_left _ member)) early same
      obtain ⟨next, rest, alike'⟩ := ih
        (fun event member => allows event (List.mem_append_right _ member)) late between'
      exact ⟨next, .cons serving rest, alike'⟩

end Interaction
