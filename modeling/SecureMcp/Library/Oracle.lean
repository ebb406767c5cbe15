import SecureMcp.Library.Program

/-! Coroutines whose questions are answered by a function. What such a coroutine comes to is computed
along its composition, so that an execution turns into a chain of computations that may fail; and what
it asks is asked only after what comes before it has returned.
-/

namespace Interaction

variable {Call : Type} {Reply : Call → Type} {ε ε' ρ α β : Type}

namespace Program

variable (answer : (call : Call) → Reply call)

theorem play_bind (program : Program Call Reply α) (next : α → Program Call Reply β)
    : (program.bind next).play answer
      = ((program.play answer).1 ++ ((next (program.play answer).2).play answer).1,
        ((next (program.play answer).2).play answer).2) := by
  induction program with
  | done value => rfl
  | ask call rest ih => simp only [bind, play, ih, List.cons_append]

end Program

namespace Coroutine

variable (answer : (call : Call) → Reply call)

/-- What a coroutine comes to when its questions are answered so. -/
def answered (body : Coroutine Call Reply ε α) : Except ε α :=
  (body.run.play answer).2

/-- What it asks on the way. -/
def asked (body : Coroutine Call Reply ε α) : List (Event Reply) :=
  (body.run.play answer).1

@[simp] theorem answered_pure (value : α)
    : answered answer (pure value : Coroutine Call Reply ε α) = .ok value :=
  rfl

@[simp] theorem answered_ofExcept (outcome : Except ε α)
    : answered answer (ofExcept outcome : Coroutine Call Reply ε α) = outcome :=
  rfl

@[simp] theorem answered_ask (call : Call)
    : answered answer (ask call : Coroutine Call Reply ε (Reply call)) = .ok (answer call) :=
  rfl

@[simp] theorem answered_demand (call : Call) (reads : Reply call → Except ε α)
    : answered answer (demand call reads) = reads (answer call) :=
  rfl

theorem answered_bind (body : Coroutine Call Reply ε α) (next : α → Coroutine Call Reply ε β)
    : answered answer (body >>= next)
      = match answered answer body with
        | .ok value => answered answer (next value)
        | .error stop => .error stop := by
  unfold answered
  rw [run_bind, Program.play_bind]
  cases (body.run.play answer).2 <;> rfl

/-- What follows a coroutine that returns. -/
theorem answered_bind_of_ok {body : Coroutine Call Reply ε α} {value : α}
    (next : α → Coroutine Call Reply ε β) (returned : answered answer body = .ok value)
    : answered answer (body >>= next) = answered answer (next value) := by
  rw [answered_bind, returned]

@[simp] theorem answered_attempt (body : Coroutine Call Reply ε α)
    : answered answer (attempt body : Coroutine Call Reply ε' (Except ε α))
      = .ok (answered answer body) := by
  change ((body.run.bind _).play answer).2 = _
  rw [Program.play_bind]
  rfl

@[simp] theorem answered_mapStop (rename : ε → ε') (body : Coroutine Call Reply ε α)
    : answered answer (mapStop rename body) = (answered answer body).mapError rename := by
  unfold mapStop
  rw [answered_bind_of_ok answer _ (answered_attempt answer body), answered_ofExcept]

/-- What is asked after a coroutine is asked because it has returned. -/
theorem mem_asked_bind {body : Coroutine Call Reply ε α} {next : α → Coroutine Call Reply ε β}
    {event : Event Reply} (member : event ∈ asked answer (body >>= next))
    : event ∈ asked answer body
      ∨ ∃ value, answered answer body = .ok value ∧ event ∈ asked answer (next value) := by
  unfold asked answered at *
  rw [run_bind, Program.play_bind] at member
  rcases List.mem_append.mp member with first | later
  · exact .inl first
  · cases ended : (body.run.play answer).2 with
    | ok value =>
        rw [ended] at later
        exact .inr ⟨value, rfl, later⟩
    | error stop =>
        rw [ended] at later
        cases later

/-- Nothing is asked but what a coroutine can ask. -/
theorem asked_of_asks {allowed : Call → Prop} {body : Coroutine Call Reply ε α}
    (asks : body.run.Asks allowed) {event : Event Reply} (member : event ∈ asked answer body)
    : allowed event.call :=
  (Program.exec_play answer body.run).asks asks event member

end Coroutine

end Interaction
