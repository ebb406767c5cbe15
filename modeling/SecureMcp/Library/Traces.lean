import SecureMcp.Library.Cooperative

/-! What a routine does by itself: the awaits of a task, with the state that it left at each of
them and the state in which it went on. What the others do in between is arbitrary.
-/

namespace Cooperative

/-- One await of a task: its answer, and the state before and after what the others did. -/
structure Exchange (σ : Type) {Point : Type} (Value : Point → Type) (ε : Type) where
  point : Point
  reply : Except ε (Value point)
  parked : σ
  resumed : σ

/-- (Onward holds log) means that `holds` is true of every item, and of the ones that come after it.
-/
def Onward {τ : Type} (holds : τ → List τ → Prop) : List τ → Prop
  | [] => True
  | item :: rest => holds item rest ∧ Onward holds rest

theorem onward_of_forall {τ : Type} {holds : τ → List τ → Prop} {items : List τ}
    (each : ∀ item ∈ items, ∀ rest, holds item rest)
    : Onward holds items := by
  induction items with
  | nil => trivial
  | cons item rest ih =>
      exact ⟨each item List.mem_cons_self rest,
        ih (fun other member => each other (List.mem_cons_of_mem _ member))⟩

/-- What stays true when more comes after it is true all along two lists when it is along each. -/
theorem Onward.append {τ : Type} {holds : τ → List τ → Prop} {first second : List τ}
    (later : ∀ item rest more, holds item rest → holds item (rest ++ more))
    (one : Onward holds first) (two : Onward holds second)
    : Onward holds (first ++ second) := by
  induction first with
  | nil => exact two
  | cons item rest ih => exact ⟨later item rest second one.1, ih one.2⟩

variable {ι σ Point ε α β : Type} {Value : Point → Type}

namespace Routine

/-- (Plays task state log outcome final) means that a task that begins in `state` goes through the
awaits of `log`, and is over in `final`.
-/
inductive Plays
  : Routine σ Value ε α → σ → List (Exchange σ Value ε) → Except ε α → σ → Prop
  | ended (outcome : Except ε α) (state : σ) : Plays (.ended outcome) state [] outcome state
  | look {next : σ → Routine σ Value ε α} {state final : σ} {log : List (Exchange σ Value ε)}
    {outcome : Except ε α} (rest : Plays (next state) state log outcome final)
    : Plays (.look next) state log outcome final
  | change {effect : σ → σ} {task : Routine σ Value ε α} {state final : σ}
    {log : List (Exchange σ Value ε)} {outcome : Except ε α}
    (rest : Plays task (effect state) log outcome final)
    : Plays (.change effect task) state log outcome final
  | await {point : Point} {next : Except ε (Value point) → Routine σ Value ε α}
    {state resumed final : σ} {log : List (Exchange σ Value ε)} {outcome : Except ε α}
    (reply : Except ε (Value point)) (rest : Plays (next reply) resumed log outcome final)
    : Plays (.await point next) state (⟨point, reply, state, resumed⟩ :: log) outcome final

variable {state final : σ} {log : List (Exchange σ Value ε)}

@[simp] theorem plays_ended_iff {ended outcome : Except ε α}
    : Plays (.ended ended : Routine σ Value ε α) state log outcome final
      ↔ log = [] ∧ outcome = ended ∧ final = state := by
  refine ⟨?_, ?_⟩
  · intro plays
    cases plays
    exact ⟨rfl, rfl, rfl⟩
  · rintro ⟨rfl, rfl, rfl⟩
    exact .ended _ _

theorem plays_pure_iff {value : α} {outcome : Except ε α}
    : Plays (pure value : Routine σ Value ε α) state log outcome final
      ↔ log = [] ∧ outcome = .ok value ∧ final = state :=
  plays_ended_iff

theorem plays_throw_iff {raised : ε} {outcome : Except ε α}
    : Plays (throw raised : Routine σ Value ε α) state log outcome final
      ↔ log = [] ∧ outcome = .error raised ∧ final = state :=
  plays_ended_iff

theorem plays_modify_iff {effect : σ → σ} {outcome : Except ε Unit}
    : Plays (modify effect : Routine σ Value ε Unit) state log outcome final
      ↔ log = [] ∧ outcome = .ok () ∧ final = effect state := by
  refine ⟨?_, ?_⟩
  · intro plays
    cases plays with
    | change rest => exact plays_ended_iff.mp rest
  · intro same
    exact .change (plays_ended_iff.mpr same)

theorem plays_awaiting_iff {point : Point} {outcome : Except ε (Value point)}
    : Plays (awaiting point : Routine σ Value ε (Value point)) state log outcome final
      ↔ log = [⟨point, outcome, state, final⟩] := by
  refine ⟨?_, ?_⟩
  · intro plays
    cases plays with
    | await reply rest =>
        obtain ⟨rfl, rfl, rfl⟩ := plays_ended_iff.mp rest
        rfl
  · rintro rfl
    exact .await outcome (.ended _ _)

theorem plays_get_bind {next : σ → Routine σ Value ε α} {outcome : Except ε α}
    (plays : Plays (get >>= next) state log outcome final)
    : Plays (next state) state log outcome final := by
  cases plays with
  | look rest => exact rest

theorem plays_modify_bind {effect : σ → σ} {next : Unit → Routine σ Value ε α}
    {outcome : Except ε α} (plays : Plays (modify effect >>= next) state log outcome final)
    : Plays (next ()) (effect state) log outcome final := by
  cases plays with
  | change rest => exact rest

/-- What follows an await goes on with its answer, unless it raised. -/
theorem plays_awaiting_bind {point : Point} {next : Value point → Routine σ Value ε α}
    {outcome : Except ε α} (plays : Plays (awaiting point >>= next) state log outcome final)
    : (∃ value resumed rest,
        log = ⟨point, .ok value, state, resumed⟩ :: rest
        ∧ Plays (next value) resumed rest outcome final)
      ∨ ∃ raised, outcome = .error raised ∧ log = [⟨point, .error raised, state, final⟩] := by
  cases plays with
  | await reply rest =>
      cases reply with
      | ok value => exact Or.inl ⟨value, _, _, rfl, rest⟩
      | error raised =>
          obtain ⟨rfl, rfl, rfl⟩ := plays_ended_iff.mp rest
          exact Or.inr ⟨raised, rfl, rfl⟩

/-- A composition plays its first part, and then the rest unless that raised; by induction on the
first part.
-/
theorem plays_bind {task : Routine σ Value ε α} {next : α → Routine σ Value ε β}
    {outcome : Except ε β} (plays : Plays (task >>= next) state log outcome final)
    : (∃ first second value middle,
        log = first ++ second
        ∧ Plays task state first (.ok value) middle
        ∧ Plays (next value) middle second outcome final)
      ∨ ∃ raised, outcome = .error raised ∧ Plays task state log (.error raised) final := by
  change Plays (task.bind next) state log outcome final at plays
  induction task generalizing state log with
  | ended ended =>
      cases ended with
      | ok value => exact Or.inl ⟨[], log, value, state, rfl, .ended _ _, plays⟩
      | error raised =>
          obtain ⟨rfl, rfl, rfl⟩ := plays_ended_iff.mp plays
          exact Or.inr ⟨raised, rfl, .ended _ _⟩
  | look rest ih =>
      cases plays with
      | look plays =>
          rcases ih state plays with
            ⟨first, second, value, middle, rfl, one, two⟩ | ⟨raised, same, one⟩
          · exact Or.inl ⟨first, second, value, middle, rfl, .look one, two⟩
          · exact Or.inr ⟨raised, same, .look one⟩
  | change effect rest ih =>
      cases plays with
      | change plays =>
          rcases ih plays with ⟨first, second, value, middle, rfl, one, two⟩ | ⟨raised, same, one⟩
          · exact Or.inl ⟨first, second, value, middle, rfl, .change one, two⟩
          · exact Or.inr ⟨raised, same, .change one⟩
  | await point rest ih =>
      cases plays with
      | await reply plays =>
          rcases ih reply plays with
            ⟨first, second, value, middle, rfl, one, two⟩ | ⟨raised, same, one⟩
          · exact Or.inl ⟨_ :: first, second, value, middle, rfl, .await reply one, two⟩
          · exact Or.inr ⟨raised, same, .await reply one⟩

/-- A handler plays after what raised; by induction on the task. -/
theorem plays_tryCatch {task : Routine σ Value ε α} {handler : ε → Routine σ Value ε α}
    {outcome : Except ε α} (plays : Plays (tryCatchThe ε task handler) state log outcome final)
    : (∃ value, outcome = .ok value ∧ Plays task state log (.ok value) final)
      ∨ ∃ first second raised middle,
          log = first ++ second
          ∧ Plays task state first (.error raised) middle
          ∧ Plays (handler raised) middle second outcome final := by
  change Plays (task.tryCatch handler) state log outcome final at plays
  induction task generalizing state log with
  | ended ended =>
      cases ended with
      | ok value =>
          obtain ⟨rfl, rfl, rfl⟩ := plays_ended_iff.mp plays
          exact Or.inl ⟨value, rfl, .ended _ _⟩
      | error raised => exact Or.inr ⟨[], log, raised, state, rfl, .ended _ _, plays⟩
  | look rest ih =>
      cases plays with
      | look plays =>
          rcases ih state plays with
            ⟨value, same, one⟩ | ⟨first, second, raised, middle, rfl, one, two⟩
          · exact Or.inl ⟨value, same, .look one⟩
          · exact Or.inr ⟨first, second, raised, middle, rfl, .look one, two⟩
  | change effect rest ih =>
      cases plays with
      | change plays =>
          rcases ih plays with ⟨value, same, one⟩ | ⟨first, second, raised, middle, rfl, one, two⟩
          · exact Or.inl ⟨value, same, .change one⟩
          · exact Or.inr ⟨first, second, raised, middle, rfl, .change one, two⟩
  | await point rest ih =>
      cases plays with
      | await reply plays =>
          rcases ih reply plays with
            ⟨value, same, one⟩ | ⟨first, second, raised, middle, rfl, one, two⟩
          · exact Or.inl ⟨value, same, .await reply one⟩
          · exact Or.inr ⟨_ :: first, second, raised, middle, rfl, .await reply one, two⟩

end Routine

end Cooperative
