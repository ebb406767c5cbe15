import SecureMcp.Library.Machine
import Mathlib.Logic.Function.Basic

/-! Routines that share a state and run one at a time: a task gives way only where it awaits,
and what it does between two awaits is one step. An invariant has to hold at every await
only; a task is verified by itself, by its weakest precondition, and a run keeps the
invariant when every task does.
-/

namespace Cooperative

/-- A task looks at the state, changes it, and awaits something outside it, until it is
over. An await may raise.
-/
inductive Routine (σ : Type) {Point : Type} (Value : Point → Type) (ε α : Type) : Type
  | ended (outcome : Except ε α)
  | look (next : σ → Routine σ Value ε α)
  | change (effect : σ → σ) (rest : Routine σ Value ε α)
  | await (point : Point) (next : Except ε (Value point) → Routine σ Value ε α)

variable {ι σ Point ε α β : Type} {Value : Point → Type}

namespace Routine

/-- What raises is not continued. -/
def bind (task : Routine σ Value ε α) (next : α → Routine σ Value ε β) : Routine σ Value ε β :=
  match task with
  | .ended (.ok value) => next value
  | .ended (.error raised) => .ended (.error raised)
  | .look rest => .look (fun state => (rest state).bind next)
  | .change effect rest => .change effect (rest.bind next)
  | .await point rest => .await point (fun reply => (rest reply).bind next)

/-- What raises is continued by the handler. -/
def tryCatch (task : Routine σ Value ε α) (handler : ε → Routine σ Value ε α) : Routine σ Value ε α :=
  match task with
  | .ended (.ok value) => .ended (.ok value)
  | .ended (.error raised) => handler raised
  | .look rest => .look (fun state => (rest state).tryCatch handler)
  | .change effect rest => .change effect (rest.tryCatch handler)
  | .await point rest => .await point (fun reply => (rest reply).tryCatch handler)

instance : Monad (Routine σ Value ε) where
  pure value := .ended (.ok value)
  bind := .bind

instance : MonadExceptOf ε (Routine σ Value ε) where
  throw raised := .ended (.error raised)
  tryCatch := .tryCatch

def get : Routine σ Value ε σ :=
  .look (fun state => .ended (.ok state))

def modify (effect : σ → σ) : Routine σ Value ε Unit :=
  .change effect (.ended (.ok ()))

def awaiting (point : Point) : Routine σ Value ε (Value point) :=
  .await point .ended

/-- Go on with what a task raised or gave. -/
def attempt (task : Routine σ Value ε α) : Routine σ Value ε (Except ε α) :=
  (task.bind (fun value => .ended (.ok (.ok value)))).tryCatch
    (fun raised => .ended (.ok (.error raised)))

def ofExcept (outcome : Except ε α) : Routine σ Value ε α :=
  .ended outcome

/-- A task runs until it awaits or is over. -/
def advance : Routine σ Value ε α → σ → Routine σ Value ε α × σ
  | .ended outcome, state => (.ended outcome, state)
  | .look next, state => (next state).advance state
  | .change effect rest, state => rest.advance (effect state)
  | .await point next, state => (.await point next, state)

end Routine

/-- Where a task is, as the others can see it. -/
inductive Status (Point : Type)
  | idle
  | waiting (point : Point)
  | ended

def Routine.status : Routine σ Value ε α → Status Point
  | .await point _ => .waiting point
  | _ => .ended

/-- The tasks that have begun, each with what it has still to do, and the state they share. -/
structure Pool (ι σ : Type) {Point : Type} (Value : Point → Type) (ε : Type) where
  tasks : ι → Option (Routine σ Value ε Unit)
  shared : σ

/-- Where the tasks of a pool are. -/
def Pool.status (pool : Pool ι σ Value ε) (label : ι) : Status Point :=
  match pool.tasks label with
  | none => .idle
  | some task => task.status

/-- One step of a pool: a task begins, or an await of one is answered, or the state changes
by itself.
-/
inductive Action (ι : Type) {Point : Type} (Value : Point → Type) (ε : Type)
  | begin (label : ι)
  | resume (label : ι) (point : Point) (reply : Except ε (Value point))
  | drift

/-- When a task may begin, what an await may be answered with, and how the state changes by
itself.
-/
structure Rules (ι σ : Type) {Point : Type} (Value : Point → Type) (ε : Type) where
  begins : (ι → Status Point) → σ → ι → Prop
  answers : (ι → Status Point) → σ → ι → (point : Point) → Except ε (Value point) → Prop
  drifts : σ → σ → Prop

variable [DecidableEq ι]

/-- The task runs until its next await. -/
def Pool.proceed (pool : Pool ι σ Value ε) (label : ι) (task : Routine σ Value ε Unit)
    : Pool ι σ Value ε where
  tasks := Function.update pool.tasks label (some (task.advance pool.shared).1)
  shared := (task.advance pool.shared).2

inductive Step (programs : ι → Routine σ Value ε Unit) (rules : Rules ι σ Value ε)
    (pool : Pool ι σ Value ε)
    : Action ι Value ε → Pool ι σ Value ε → Prop
  | begin {label : ι} (idle : pool.tasks label = none)
    (may : rules.begins pool.status pool.shared label)
    : Step programs rules pool (.begin label) (pool.proceed label (programs label))
  | resume {label : ι} {point : Point} {next : Except ε (Value point) → Routine σ Value ε Unit}
    {reply : Except ε (Value point)} (waiting : pool.tasks label = some (.await point next))
    (answered : rules.answers pool.status pool.shared label point reply)
    : Step programs rules pool (.resume label point reply) (pool.proceed label (next reply))
  | drift {state : σ} (drifted : rules.drifts pool.shared state)
    : Step programs rules pool .drift { pool with shared := state }

/-- The pool after an await of a task was answered. -/
def Pool.answer (pool : Pool ι σ Value ε) (label : ι)
    (reply : (point : Point) → Except ε (Value point))
    : Pool ι σ Value ε :=
  match pool.tasks label with
  | some (.await point next) => pool.proceed label (next (reply point))
  | _ => pool

theorem Step.answer {programs : ι → Routine σ Value ε Unit} {rules : Rules ι σ Value ε}
    {pool : Pool ι σ Value ε} {label : ι} {point : Point}
    {next : Except ε (Value point) → Routine σ Value ε Unit}
    (reply : (point : Point) → Except ε (Value point))
    (waiting : pool.tasks label = some (.await point next))
    (answered : rules.answers pool.status pool.shared label point (reply point))
    : Step programs rules pool (.resume label point (reply point)) (pool.answer label reply) := by
  unfold Pool.answer
  rw [waiting]
  exact .resume waiting answered

section

variable (holds : (ι → Status Point) → σ → Prop)
  (answers : (ι → Status Point) → σ → ι → (point : Point) → Except ε (Value point) → Prop)
  (self : ι)

/-- The weakest precondition of a task: the invariant holds at its awaits, whatever the
others did until an await is answered, and `post` when it is over.
-/
def wp (task : Routine σ Value ε α) (post : Except ε α → (ι → Status Point) → σ → Prop)
    (status : ι → Status Point) (state : σ)
    : Prop :=
  match task with
  | .ended outcome => post outcome status state
  | .look next => wp (next state) post status state
  | .change effect rest => wp rest post status (effect state)
  | .await point next =>
      holds (Function.update status self (.waiting point)) state
      ∧ ∀ reply status state,
          status self = .waiting point
          → holds status state
          → answers status state self point reply
          → wp (next reply) post status state

variable {holds answers self}

theorem wp_mono {task : Routine σ Value ε α}
    {post weaker : Except ε α → (ι → Status Point) → σ → Prop} {status : ι → Status Point}
    {state : σ} (enough : wp holds answers self task post status state)
    (weakens : ∀ outcome status state, post outcome status state → weaker outcome status state)
    : wp holds answers self task weaker status state := by
  induction task generalizing status state with
  | ended outcome => exact weakens outcome status state enough
  | look next ih => exact ih state enough
  | change effect rest ih => exact ih enough
  | await point next ih =>
      refine ⟨enough.1, ?_⟩
      intro reply status state waiting kept answered
      exact ih reply (enough.2 reply status state waiting kept answered)

@[simp] theorem wp_pure (value : α) (post : Except ε α → (ι → Status Point) → σ → Prop)
    (status : ι → Status Point) (state : σ)
    : wp holds answers self (pure value : Routine σ Value ε α) post status state
      ↔ post (.ok value) status state :=
  Iff.rfl

@[simp] theorem wp_throw (raised : ε) (post : Except ε α → (ι → Status Point) → σ → Prop)
    (status : ι → Status Point) (state : σ)
    : wp holds answers self (throw raised : Routine σ Value ε α) post status state
      ↔ post (.error raised) status state :=
  Iff.rfl

@[simp] theorem wp_get (post : Except ε σ → (ι → Status Point) → σ → Prop)
    (status : ι → Status Point) (state : σ)
    : wp holds answers self (Routine.get : Routine σ Value ε σ) post status state
      ↔ post (.ok state) status state :=
  Iff.rfl

@[simp] theorem wp_modify (effect : σ → σ)
    (post : Except ε Unit → (ι → Status Point) → σ → Prop) (status : ι → Status Point)
    (state : σ)
    : wp holds answers self (Routine.modify effect : Routine σ Value ε Unit) post status state
      ↔ post (.ok ()) status (effect state) :=
  Iff.rfl

theorem wp_awaiting {point : Point}
    {post : Except ε (Value point) → (ι → Status Point) → σ → Prop}
    {status : ι → Status Point} {state : σ}
    (kept : holds (Function.update status self (.waiting point)) state)
    (continues : ∀ reply status state,
      status self = .waiting point
      → holds status state
      → answers status state self point reply
      → post reply status state)
    : wp holds answers self (Routine.awaiting point : Routine σ Value ε (Value point)) post status
        state :=
  ⟨kept, continues⟩

variable (holds answers self)

/-- What a continuation needs of an outcome. -/
def Continues (post : Except ε β → (ι → Status Point) → σ → Prop)
    (next : α → Routine σ Value ε β) (outcome : Except ε α) (status : ι → Status Point)
    (state : σ)
    : Prop :=
  match outcome with
  | .ok value => wp holds answers self (next value) post status state
  | .error raised => post (.error raised) status state

/-- What a handler needs of an outcome. -/
def Handles (post : Except ε α → (ι → Status Point) → σ → Prop)
    (handler : ε → Routine σ Value ε α) (outcome : Except ε α) (status : ι → Status Point)
    (state : σ)
    : Prop :=
  match outcome with
  | .ok value => post (.ok value) status state
  | .error raised => wp holds answers self (handler raised) post status state

variable {holds answers self}

/-- The rule of composition, by induction on the first task. -/
theorem wp_bind {task : Routine σ Value ε α} {next : α → Routine σ Value ε β}
    {post : Except ε β → (ι → Status Point) → σ → Prop} {status : ι → Status Point} {state : σ}
    : wp holds answers self (task >>= next) post status state
      ↔ wp holds answers self task (Continues holds answers self post next) status state := by
  induction task generalizing status state with
  | ended outcome =>
      cases outcome with
      | ok value => exact Iff.rfl
      | error raised => exact Iff.rfl
  | look rest ih => exact ih state
  | change effect rest ih => exact ih
  | await point rest ih =>
      refine and_congr_right' ?_
      refine forall_congr' fun reply => forall_congr' fun status => forall_congr' fun state => ?_
      exact imp_congr_right fun _ => imp_congr_right fun _ => imp_congr_right fun _ => ih reply

theorem wp_get_bind {next : σ → Routine σ Value ε α}
    {post : Except ε α → (ι → Status Point) → σ → Prop} {status : ι → Status Point} {state : σ}
    : wp holds answers self (Routine.get >>= next) post status state
      ↔ wp holds answers self (next state) post status state :=
  Iff.rfl

theorem wp_modify_bind {effect : σ → σ} {next : Unit → Routine σ Value ε α}
    {post : Except ε α → (ι → Status Point) → σ → Prop} {status : ι → Status Point} {state : σ}
    : wp holds answers self (Routine.modify effect >>= next) post status state
      ↔ wp holds answers self (next ()) post status (effect state) :=
  Iff.rfl

/-- What follows an await goes on with each answer that is no error. -/
theorem wp_awaiting_bind {point : Point} {next : Value point → Routine σ Value ε α}
    {post : Except ε α → (ι → Status Point) → σ → Prop} {status : ι → Status Point} {state : σ}
    (kept : holds (Function.update status self (.waiting point)) state)
    (raises : ∀ raised status state,
      status self = .waiting point
      → holds status state
      → answers status state self point (.error raised)
      → post (.error raised) status state)
    (continues : ∀ value status state,
      status self = .waiting point
      → holds status state
      → answers status state self point (.ok value)
      → wp holds answers self (next value) post status state)
    : wp holds answers self (Routine.awaiting point >>= next) post status state := by
  refine wp_bind.mpr (wp_awaiting kept ?_)
  intro reply status state waiting held answered
  cases reply with
  | ok value => exact continues value status state waiting held answered
  | error raised => exact raises raised status state waiting held answered

/-- What follows a task goes on from where the task leaves, unless it raised. -/
theorem wp_sequence {task : Routine σ Value ε α} {next : α → Routine σ Value ε β}
    {middle : Except ε α → (ι → Status Point) → σ → Prop}
    {post : Except ε β → (ι → Status Point) → σ → Prop} {status : ι → Status Point} {state : σ}
    (first : wp holds answers self task middle status state)
    (raises : ∀ raised status state,
      middle (.error raised) status state → post (.error raised) status state)
    (continues : ∀ value status state,
      middle (.ok value) status state → wp holds answers self (next value) post status state)
    : wp holds answers self (task >>= next) post status state := by
  refine wp_bind.mpr (wp_mono first ?_)
  intro outcome status state ended
  cases outcome with
  | ok value => exact continues value status state ended
  | error raised => exact raises raised status state ended

/-- The rule of handlers, by induction on the task. -/
theorem wp_tryCatch {task : Routine σ Value ε α} {handler : ε → Routine σ Value ε α}
    {post : Except ε α → (ι → Status Point) → σ → Prop} {status : ι → Status Point} {state : σ}
    : wp holds answers self (tryCatch task handler) post status state
      ↔ wp holds answers self task (Handles holds answers self post handler) status state := by
  induction task generalizing status state with
  | ended outcome =>
      cases outcome with
      | ok value => exact Iff.rfl
      | error raised => exact Iff.rfl
  | look rest ih => exact ih state
  | change effect rest ih => exact ih
  | await point rest ih =>
      refine and_congr_right' ?_
      refine forall_congr' fun reply => forall_congr' fun status => forall_congr' fun state => ?_
      exact imp_congr_right fun _ => imp_congr_right fun _ => imp_congr_right fun _ => ih reply

/-- The rule of attempts: how the task ended is handed over. -/
theorem wp_attempt {task : Routine σ Value ε α}
    {post : Except ε (Except ε α) → (ι → Status Point) → σ → Prop} {status : ι → Status Point}
    {state : σ} (enough : wp holds answers self task (fun ended => post (.ok ended)) status state)
    : wp holds answers self (Routine.attempt task) post status state := by
  have inner : wp holds answers self
      (task >>= fun value => (pure (.ok value) : Routine σ Value ε (Except ε α)))
      (Handles holds answers self post (fun raised => .ended (.ok (.error raised)))) status state := by
    refine wp_bind.mpr (wp_mono enough ?_)
    intro outcome status state ended
    cases outcome with
    | ok value => exact ended
    | error raised => exact ended
  exact wp_tryCatch.mpr inner

end

section

variable (holds : (ι → Status Point) → σ → Prop) (rules : Rules ι σ Value ε)

/-- The invariant, with this task over. -/
def Ends (label : ι) (_ : Except ε Unit) (status : ι → Status Point) (state : σ) : Prop :=
  holds (Function.update status label .ended) state

/-- What a task that awaits does with an answer is verified. -/
def Suspended (label : ι) : Routine σ Value ε Unit → Prop
  | .await point next =>
      ∀ reply status state,
        status label = .waiting point
        → holds status state
        → rules.answers status state label point reply
        → wp holds rules.answers label (next reply) (Ends holds label) status state
  | _ => True

/-- Every task is verified by itself, and what the state does by itself keeps the invariant. -/
structure Verified (programs : ι → Routine σ Value ε Unit) : Prop where
  begins : ∀ status state label,
    status label = .idle
    → holds status state
    → rules.begins status state label
    → wp holds rules.answers label (programs label) (Ends holds label) status state
  drifts : ∀ status state after,
    holds status state → rules.drifts state after → holds status after

variable {holds rules}

/-- A verified task keeps the invariant until it awaits or is over, by induction on it. -/
theorem advance_keeps {label : ι} {task : Routine σ Value ε Unit} {status : ι → Status Point}
    {state : σ} (verified : wp holds rules.answers label task (Ends holds label) status state)
    : holds (Function.update status label (task.advance state).1.status) (task.advance state).2
      ∧ Suspended holds rules label (task.advance state).1 := by
  induction task generalizing state with
  | ended outcome => exact ⟨verified, trivial⟩
  | look next ih => exact ih state verified
  | change effect rest ih => exact ih verified
  | await point next ih => exact verified

theorem status_proceed (pool : Pool ι σ Value ε) (label : ι) (task : Routine σ Value ε Unit)
    : (pool.proceed label task).status
      = Function.update pool.status label (task.advance pool.shared).1.status := by
  funext other
  unfold Pool.status Pool.proceed
  by_cases same : other = label
  · subst same
    simp
  · simp [same]

theorem status_proceed_other (pool : Pool ι σ Value ε) {label other : ι}
    (task : Routine σ Value ε Unit) (differs : other ≠ label)
    : (pool.proceed label task).status other = pool.status other := by
  rw [status_proceed, Function.update_of_ne differs]

/-- Answering a task leaves the others where they are. -/
theorem status_answer_other (pool : Pool ι σ Value ε) {label other : ι}
    (reply : (point : Point) → Except ε (Value point)) (differs : other ≠ label)
    : (pool.answer label reply).status other = pool.status other := by
  unfold Pool.answer
  split
  · exact status_proceed_other pool _ differs
  · rfl

/-- What is kept at every moment of a run. -/
structure Kept (holds : (ι → Status Point) → σ → Prop) (rules : Rules ι σ Value ε)
    (pool : Pool ι σ Value ε)
    : Prop where
  now : holds pool.status pool.shared
  later : ∀ label task, pool.tasks label = some task → Suspended holds rules label task

theorem Kept.proceed {pool : Pool ι σ Value ε} (kept : Kept holds rules pool) {label : ι}
    {task : Routine σ Value ε Unit}
    (verified : wp holds rules.answers label task (Ends holds label) pool.status pool.shared)
    : Kept holds rules (pool.proceed label task) := by
  obtain ⟨now, later⟩ := advance_keeps verified
  refine ⟨status_proceed pool label task ▸ now, ?_⟩
  intro other suspended found
  by_cases same : other = label
  · subst same
    obtain rfl : (task.advance pool.shared).1 = suspended := by
      simpa [Pool.proceed] using found
    exact later
  · exact kept.later other suspended (by simpa [Pool.proceed, same] using found)

/-- Verified tasks keep the invariant over every run. -/
theorem Verified.run {programs : ι → Routine σ Value ε Unit}
    (verified : Verified holds rules programs) {start final : Pool ι σ Value ε}
    {actions : List (Action ι Value ε)}
    (run : Machine.Run (Step programs rules) start actions final)
    (kept : Kept holds rules start)
    : Kept holds rules final := by
  refine run.invariant (Kept holds rules) kept ?_
  intro pool action after kept step
  cases step with
  | @begin label idle may =>
      refine kept.proceed (verified.begins _ _ label ?_ kept.now may)
      simp [Pool.status, idle]
  | @resume label point next reply waiting answered =>
      refine kept.proceed (kept.later label _ waiting reply _ _ ?_ kept.now answered)
      simp [Pool.status, waiting, Routine.status]
  | drift drifted => exact ⟨verified.drifts _ _ _ kept.now drifted, kept.later⟩

end

end Cooperative
