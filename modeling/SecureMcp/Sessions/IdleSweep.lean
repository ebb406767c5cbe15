import SecureMcp.Library.Traces
import SecureMcp.Sessions.Manager

/-! The idle sweep by itself, whatever the other tasks do at its awaits and whatever Redis answers
it: what an iteration looks up and tears down, and what a failure of Redis does to the loop.
-/

namespace SecureMcp.Sessions

open Cooperative Routine

/-- A subprocess, if there is one of the number, has exited or has been sent kill. -/
def Manager.HasEnded (manager : Manager) (process : Nat) : Prop :=
  ∀ found, manager.processes[process]? = some found → found.Ended

/-- An await of the sweep. -/
abbrev Await : Type := Exchange Manager Value Raised

/-- The first iterations of `sweep_loop`. -/
def sweepLoop : Nat → Async Unit
  | 0 => pure ()
  | iterations + 1 => do
      sweepRound
      sweepLoop iterations

namespace Await

/-- What an await is answered with as long as nobody cancels the sweep. -/
def Honest (await : Await) : Prop :=
  Answers await.resumed await.point await.reply

/-- A call of Redis. -/
def OfRedis : Point → Prop
  | .exists _ | .delete _ => True
  | _ => False

/-- A call of Redis that fails. -/
def Fails (await : Await) : Prop :=
  OfRedis await.point ∧ ∃ raised, await.reply = .error raised

/-- A lookup that succeeds and finds no key. -/
def Expires (sessionId : String) (await : Await) : Prop :=
  ∃ parked resumed, await = ⟨.exists sessionId, .ok false, parked, resumed⟩

/-- The registry that the sweep leaves after an await: without the session if its key has expired,
and otherwise as it is.
-/
def left : Await → List (String × Nat)
  | ⟨.exists sessionId, .ok false, _, resumed⟩ => Dict.erase sessionId resumed.sessions
  | ⟨_, _, _, resumed⟩ => resumed.sessions

/-- The registry at the next await, or else at the end. -/
def registryAt (after : List Await) (last : List (String × Nat)) : List (String × Nat) :=
  (after.head?).elim last (fun next => next.parked.sessions)

/-- (Within holds after) means that an await of the same iteration has the property. -/
def Within (holds : Await → Prop) (after : List Await) : Prop :=
  ∃ middle await rest,
    after = middle ++ await :: rest
    ∧ (∀ other ∈ middle, other.point ≠ .interval)
    ∧ await.point ≠ .interval
    ∧ holds await

theorem registryAt_append (first second : List Await) (last : List (String × Nat))
    : registryAt (first ++ second) last = registryAt first (registryAt second last) := by
  cases first <;> rfl

/-- What holds later in an iteration holds when more comes after it. -/
theorem Within.append {holds : Await → Prop} {after : List Await} (within : Within holds after)
    (more : List Await)
    : Within holds (after ++ more) := by
  obtain ⟨middle, await, rest, rfl, others, same, held⟩ := within
  exact ⟨middle, await, rest ++ more, by simp, others, same, held⟩

/-- What holds of some await of an iteration holds within it. -/
theorem within_of_mem {holds : Await → Prop} {after : List Await} {await : Await}
    (same : ∀ other ∈ after, other.point ≠ .interval) (member : await ∈ after) (held : holds await)
    : Within holds after := by
  obtain ⟨middle, rest, rfl⟩ := List.append_of_mem member
  exact ⟨middle, await, rest, rfl, fun other early => same other (List.mem_append_left _ early),
    same await member, held⟩

/-- The sweep leaves the registry alone along two lists when it does along each, and one begins
where the other ends.
-/
theorem registry_append {first second : List Await} {middle last : List (String × Nat)}
    (one : Onward (fun await after => registryAt after middle = await.left) first)
    (joins : registryAt second last = middle)
    (two : Onward (fun await after => registryAt after last = await.left) second)
    : Onward (fun await after => registryAt after last = await.left) (first ++ second) := by
  induction first with
  | nil => exact two
  | cons await rest ih =>
      refine ⟨?_, ih one.2⟩
      change registryAt (rest ++ second) last = await.left
      rw [registryAt_append, joins]
      exact one.1

/-- The subprocess has ended when the last-seen key of its session is deleted. -/
def Ends (sessionId : String) (process : Nat) (await : Await) : Prop :=
  await.point = .delete sessionId ∧ await.parked.HasEnded process

end Await

open Await

/-- (Survives iterations log outcome last) means that the sweep goes on for all the iterations;
that a session is looked up in every iteration that finds it in the registry; that a session whose
lookup finds no key is torn down in that iteration; and that the sweep changes nothing else about
the registry.
-/
structure Survives (iterations : Nat) (log : List Await) (outcome : Except Raised Unit)
    (last : Manager)
    : Prop where
  continues : outcome = .ok ()
  iterated : log.countP (fun await => await.point = .interval) = iterations
  looked :
    Onward
      (fun await after => await.point = .interval → ∀ sessionId ∈ Dict.keys await.resumed.sessions,
        Within (fun later => later.point = .exists sessionId) after)
      log
  ended :
    Onward
      (fun await after => ∀ sessionId process, Expires sessionId await
        → await.resumed.sessions.lookup sessionId = some process
        → Within (Ends sessionId process) after)
      log
  registry : Onward (fun await after => registryAt after last.sessions = await.left) log

/-- An idle session, whose subprocess is running. -/
def oneSession : Manager where
  engine := { policy := { version := 1 } }
  processes := [{}]
  sessions := [("a", 0)]

-----------------------------------------------------------------------------------------
-- How a session is torn down
-----------------------------------------------------------------------------------------

section

variable {state final : Manager} {log : List Await}

theorem hasEnded_of_not_unreaped {manager : Manager} {process : Nat}
    (reaped : manager.unreaped process = false)
    : manager.HasEnded process := by
  intro found here
  refine Or.inl ?_
  intro running
  simp [Manager.unreaped, here, running] at reaped

theorem hasEnded_of_raises {manager : Manager} {process : Nat}
    (raises : manager.raises process = true)
    : manager.HasEnded process := by
  intro found here
  refine Or.inl ?_
  intro running
  simp [Manager.raises, here, running] at raises

theorem hasEnded_kill (manager : Manager) (process : Nat)
    : (manager.kill process).HasEnded process := by
  intro found here
  change (manager.processes.modify process _)[process]? = some found at here
  rw [List.getElem?_modify_eq] at here
  cases known : manager.processes[process]? with
  | none =>
      rw [known] at here
      cases here
  | some running =>
      rw [known] at here
      cases here
      exact Or.inr rfl

/-- A signal to a subprocess that is gone raises, and changes nothing. -/
theorem plays_terminate {process : Nat} {outcome : Except Raised Unit}
    (plays : (terminate process).Plays state log outcome final)
    : log = [] ∧ final = state
      ∧ (outcome = .ok ()
        ∨ state.raises process = true ∧ outcome = .error .processLookupError) := by
  have rest := plays_get_bind plays
  split at rest
  · next raises =>
      obtain ⟨rfl, rfl, rfl⟩ := plays_throw_iff.mp rest
      exact ⟨rfl, rfl, Or.inr ⟨raises, rfl⟩⟩
  · obtain ⟨rfl, rfl, rfl⟩ := plays_pure_iff.mp rest
    exact ⟨rfl, rfl, Or.inl rfl⟩

theorem plays_kill {process : Nat} {outcome : Except Raised Unit}
    (plays : (kill process).Plays state log outcome final)
    : log = [] ∧ final.sessions = state.sessions ∧ final.HasEnded process
      ∧ (outcome = .ok () ∨ outcome = .error .processLookupError) := by
  have rest := plays_get_bind plays
  split at rest
  · next raises =>
      obtain ⟨rfl, rfl, rfl⟩ := plays_throw_iff.mp rest
      exact ⟨rfl, rfl, hasEnded_of_raises raises, Or.inr rfl⟩
  · obtain ⟨rfl, rfl, rfl⟩ := plays_modify_iff.mp rest
    exact ⟨rfl, rfl, hasEnded_kill _ process, Or.inl rfl⟩

/-- (Stops process state log final) means that a subprocess was stopped, at once or after a wait,
and that the registry was left alone.
-/
def Stops (process : Nat) (state : Manager) (log : List Await) (final : Manager) : Prop :=
  (log = [] ∧ final = state
    ∨ ∃ reply resumed,
      log = [⟨.grace process, reply, state, resumed⟩] ∧ final.sessions = resumed.sessions)
  ∧ final.HasEnded process

/-- The wait for a subprocess ends with it, or it is killed. -/
theorem plays_grace {process : Nat} {outcome : Except Raised Unit}
    (plays : (tryCatchThe Raised (awaiting (Point.grace process) : Async Unit) (fun raised =>
      if raised = .timeoutError then kill process else throw raised)).Plays state log outcome final)
    (honest : ∀ await ∈ log, Honest await)
    : Stops process state log final
      ∧ (outcome = .ok () ∨ outcome = .error .processLookupError) := by
  rcases plays_tryCatch plays with
    ⟨value, rfl, waited⟩ | ⟨first, second, raised, middle, rfl, waited, rest⟩
  · obtain rfl := plays_awaiting_iff.mp waited
    rcases honest _ List.mem_cons_self with ⟨_, reaped⟩ | impossible
    · exact ⟨⟨Or.inr ⟨_, _, rfl, rfl⟩, hasEnded_of_not_unreaped reaped⟩, Or.inl rfl⟩
    · cases impossible
  · obtain rfl := plays_awaiting_iff.mp waited
    rcases honest _ (List.mem_append_left _ List.mem_cons_self) with ⟨impossible, _⟩ | late
    · cases impossible
    · cases late
      obtain ⟨rfl, sessions, ended, ways⟩ := plays_kill rest
      exact ⟨⟨Or.inr ⟨_, _, rfl, sessions⟩, ended⟩, ways⟩

theorem plays_stop {process : Nat} {outcome : Except Raised Unit}
    (plays : (unlessGone (stop process)).Plays state log outcome final)
    (honest : ∀ await ∈ log, Honest await)
    : outcome = .ok () ∧ Stops process state log final := by
  have stopped {log : List Await} {outcome : Except Raised Unit} {final : Manager}
      (plays : (stop process).Plays state log outcome final)
      (honest : ∀ await ∈ log, Honest await)
      : Stops process state log final
        ∧ (outcome = .ok () ∨ outcome = .error .processLookupError) := by
    have rest := plays_get_bind plays
    split at rest
    · rcases plays_bind rest with ⟨_, _, _, _, rfl, signalled, waiting⟩ | ⟨_, rfl, signalled⟩
      · obtain ⟨rfl, rfl, _⟩ := plays_terminate signalled
        exact plays_grace waiting (by simpa using honest)
      · obtain ⟨rfl, rfl, impossible | ⟨raises, same⟩⟩ := plays_terminate signalled
        · cases impossible
        · cases same
          exact ⟨⟨Or.inl ⟨rfl, rfl⟩, hasEnded_of_raises raises⟩, Or.inr rfl⟩
    · next reaped =>
        obtain ⟨rfl, rfl, rfl⟩ := plays_pure_iff.mp rest
        exact ⟨⟨Or.inl ⟨rfl, rfl⟩, hasEnded_of_not_unreaped (by simpa using reaped)⟩, Or.inl rfl⟩
  rcases plays_tryCatch plays with
    ⟨value, rfl, inner⟩ | ⟨first, second, raised, middle, rfl, inner, rest⟩
  · exact ⟨rfl, (stopped inner honest).1⟩
  · obtain ⟨stops, impossible | same⟩ :=
      stopped inner (fun await member => honest await (List.mem_append_left _ member))
    · cases impossible
    · cases same
      obtain ⟨rfl, rfl, rfl⟩ := plays_pure_iff.mp rest
      rw [List.append_nil]
      exact ⟨rfl, stops⟩

/-- A session is torn down when the registry has it: it is taken from there, its subprocess is
stopped, and its key is deleted.
-/
theorem plays_teardown {sessionId : String} {outcome : Except Raised Unit}
    (plays : (teardown none sessionId).Plays state log outcome final)
    (honest : ∀ await ∈ log, Honest await)
    : (state.sessions.lookup sessionId = none ∧ log = [] ∧ outcome = .ok () ∧ final = state)
      ∨ ∃ process popped waited parked,
          state.sessions.lookup sessionId = some process
          ∧ popped.sessions = Dict.erase sessionId state.sessions
          ∧ Stops process popped waited parked
          ∧ log = waited ++ [⟨.delete sessionId, outcome, parked, final⟩] := by
  have looking := plays_get_bind plays
  split at looking
  · next unknown =>
      obtain ⟨rfl, rfl, rfl⟩ := plays_pure_iff.mp looking
      exact Or.inl ⟨unknown, rfl, rfl, rfl⟩
  · next process known =>
      have cancelling := plays_modify_bind looking
      have stopping := plays_modify_bind cancelling
      rcases plays_bind stopping with
        ⟨waited, _, _, parked, rfl, stopped, deleting⟩ | ⟨_, _, stopped⟩
      · obtain ⟨_, stops⟩ := plays_stop stopped
          (fun await member => honest await (List.mem_append_left _ member))
        obtain rfl := plays_awaiting_iff.mp deleting
        exact Or.inr ⟨process, _, waited, parked, known, rfl, stops, rfl⟩
      · obtain ⟨impossible, _⟩ := plays_stop stopped honest
        cases impossible

/-- What a sweep of some sessions comes to: every one of them was looked up, and those whose key
has expired were torn down; or a call of Redis failed and stopped it.
-/
structure SweptEach (keys : List String) (log : List Await) (last : List (String × Nat)) : Prop where
  sound : ∀ await ∈ log, ¬ Fails await
  looked : ∀ sessionId ∈ keys, ∃ await ∈ log, await.point = .exists sessionId
  ended :
    Onward
      (fun await after => ∀ sessionId process, Expires sessionId await
        → await.resumed.sessions.lookup sessionId = some process
        → Within (Ends sessionId process) after)
      log
  registry : Onward (fun await after => registryAt after last = await.left) log

section

variable {sessionId : String} {keys : List String} {last : List (String × Nat)} {parked resumed : Manager}

/-- A session whose key is there is left alone. -/
theorem SweptEach.present (swept : SweptEach keys log last)
    (joins : registryAt log last = resumed.sessions)
    : SweptEach (sessionId :: keys) (⟨.exists sessionId, .ok true, parked, resumed⟩ :: log) last where
  sound := List.forall_mem_cons.mpr ⟨by simp [Fails], swept.sound⟩
  looked := by
    intro other member
    rcases List.mem_cons.mp member with same | member
    · exact ⟨_, List.mem_cons_self, by rw [same]⟩
    · obtain ⟨await, later, point⟩ := swept.looked other member
      exact ⟨await, List.mem_cons_of_mem _ later, point⟩
  ended := by
    refine ⟨?_, swept.ended⟩
    intro other process ⟨_, _, impossible⟩
    cases impossible
  registry := ⟨joins, swept.registry⟩

end

/-- What a sweep does about a session whose key has expired. -/
structure Expired (sessionId : String) (state : Manager) (log : List Await)
    (last : List (String × Nat))
    : Prop where
  same : ∀ await ∈ log, await.point ≠ .interval
  joins : registryAt log last = Dict.erase sessionId state.sessions
  registry : Onward (fun await after => registryAt after last = await.left) log
  others : ∀ await ∈ log, ∀ other, ¬ Expires other await
  ended : ∀ process, state.sessions.lookup sessionId = some process
    → Within (Ends sessionId process) log

/-- A session whose key has expired is torn down before the others are looked at. -/
theorem SweptEach.expired {sessionId : String} {keys : List String} {first second : List Await}
    {parked resumed middle : Manager} {last : List (String × Nat)}
    (expired : Expired sessionId resumed first middle.sessions)
    (sound : ∀ await ∈ first, ¬ Fails await) (swept : SweptEach keys second last)
    (joins : registryAt second last = middle.sessions)
    : SweptEach (sessionId :: keys)
        (⟨.exists sessionId, .ok false, parked, resumed⟩ :: (first ++ second)) last where
  sound := by
    refine List.forall_mem_cons.mpr ⟨by simp [Fails], fun await member => ?_⟩
    exact (List.mem_append.mp member).elim (sound await) (swept.sound await)
  looked := by
    intro other member
    rcases List.mem_cons.mp member with same | member
    · exact ⟨_, List.mem_cons_self, by rw [same]⟩
    · obtain ⟨await, later, point⟩ := swept.looked other member
      exact ⟨await, List.mem_cons_of_mem _ (List.mem_append_right _ later), point⟩
  ended := by
    refine ⟨?_, Onward.append ?_ (onward_of_forall ?_) swept.ended⟩
    · intro other process ⟨_, _, same⟩ known
      cases same
      exact (expired.ended process known).append second
    · intro await rest more ended other process expires known
      exact (ended other process expires known).append more
    · intro await member rest other process expires
      exact (expired.others await member other expires).elim
  registry := by
    refine ⟨?_, registry_append expired.registry joins swept.registry⟩
    change registryAt (first ++ second) last = Dict.erase sessionId resumed.sessions
    rw [registryAt_append, joins]
    exact expired.joins

theorem plays_expired {sessionId : String} {outcome : Except Raised Unit}
    (plays : (teardown none sessionId).Plays state log outcome final)
    (honest : ∀ await ∈ log, Honest await)
    : Expired sessionId state log final.sessions
      ∧ (outcome = .ok () ∧ (∀ await ∈ log, ¬ Fails await)
        ∨ ∃ raised, outcome = .error raised ∧ ∃ await ∈ log, Fails await) := by
  rcases plays_teardown plays honest with
    ⟨unknown, rfl, rfl, rfl⟩ | ⟨process, popped, waited, parked, known, erased, stops, rfl⟩
  · have absent := (Dict.lookup_eq_none_iff _ _).mp unknown
    have kept : Dict.erase sessionId final.sessions = final.sessions := by
      refine List.filter_eq_self.mpr (fun entry member => ?_)
      simp only [decide_eq_true_eq]
      intro same
      exact absent (List.mem_map.mpr ⟨entry, member, same⟩)
    refine ⟨⟨by simp, kept.symm, trivial, by simp, ?_⟩, Or.inl ⟨rfl, by simp⟩⟩
    intro process known
    rw [unknown] at known
    cases known
  · obtain ⟨stopped, hasEnded⟩ := stops
    have same : ∀ await ∈ waited ++ [⟨.delete sessionId, outcome, parked, final⟩],
        await.point ≠ .interval ∧ ∀ other, ¬ Expires other await := by
      have deleting : ∀ await ∈ [(⟨.delete sessionId, outcome, parked, final⟩ : Await)],
          await.point ≠ .interval ∧ ∀ other, ¬ Expires other await := by
        simp [Expires]
      obtain ⟨rfl, _⟩ | ⟨reply, resumed, rfl, _⟩ := stopped
      · exact deleting
      · intro await member
        rcases List.mem_cons.mp member with here | later
        · subst here
          simp [Expires]
        · exact deleting await later
    have ends : Within (Ends sessionId process)
        (waited ++ [⟨.delete sessionId, outcome, parked, final⟩]) :=
      within_of_mem (fun await member => (same await member).1)
        (List.mem_append_right _ List.mem_cons_self) ⟨rfl, hasEnded⟩
    refine ⟨⟨fun await member => (same await member).1, ?_, ?_,
      fun await member => (same await member).2, ?_⟩, ?_⟩
    · obtain ⟨rfl, rfl⟩ | ⟨reply, resumed, rfl, _⟩ := stopped
      · exact erased
      · exact erased
    · obtain ⟨rfl, rfl⟩ | ⟨reply, resumed, rfl, sessions⟩ := stopped
      · exact ⟨rfl, trivial⟩
      · exact ⟨sessions, rfl, trivial⟩
    · intro other found
      rw [known] at found
      cases found
      exact ends
    · cases outcome with
      | error raised =>
          exact Or.inr ⟨raised, rfl, _, List.mem_append_right _ List.mem_cons_self, trivial, raised,
            rfl⟩
      | ok value =>
          refine Or.inl ⟨rfl, fun await member => ?_⟩
          obtain ⟨rfl, _⟩ | ⟨reply, resumed, rfl, _⟩ := stopped
          · obtain rfl := List.mem_singleton.mp member
            simp [Fails]
          · rcases List.mem_cons.mp member with here | later
            · subst here
              simp [Fails, OfRedis]
            · obtain rfl := List.mem_singleton.mp later
              simp [Fails]

theorem plays_sweepEach {keys : List String} {outcome : Except Raised Unit}
    (plays : (sweepEach keys).Plays state log outcome final)
    (honest : ∀ await ∈ log, Honest await)
    : (∀ await ∈ log, await.point ≠ .interval)
      ∧ registryAt log final.sessions = state.sessions
      ∧ (outcome = .ok () ∧ SweptEach keys log final.sessions
        ∨ ∃ raised, outcome = .error raised ∧ ∃ await ∈ log, Fails await) := by
  induction keys generalizing state log with
  | nil =>
      obtain ⟨rfl, rfl, rfl⟩ := plays_pure_iff.mp plays
      refine ⟨by simp, rfl, Or.inl ⟨rfl, by simp, by simp, trivial, trivial⟩⟩
  | cons sessionId keys ih =>
      rcases plays_awaiting_bind plays with ⟨seen, resumed, rest, rfl, deciding⟩ | ⟨raised, rfl, rfl⟩
      · dsimp only at deciding
        split at deciding
        · next present =>
            subst present
            obtain ⟨same, joins, swept⟩ :=
              ih deciding (fun await member => honest await (List.mem_cons_of_mem _ member))
            refine ⟨List.forall_mem_cons.mpr ⟨by simp, same⟩, rfl, ?_⟩
            rcases swept with ⟨rfl, swept⟩ | ⟨raised, rfl, await, member, fails⟩
            · exact Or.inl ⟨rfl, swept.present joins⟩
            · exact Or.inr ⟨raised, rfl, await, List.mem_cons_of_mem _ member, fails⟩
        · next absent =>
            obtain rfl : seen = false := by simpa using absent
            rcases plays_bind deciding with
              ⟨first, second, _, middle, rfl, expiring, sweeping⟩ | ⟨raised, rfl, expiring⟩
            · obtain ⟨expired, ⟨_, sound⟩ | ⟨_, impossible, _⟩⟩ :=
                plays_expired expiring (fun await member => honest await (by simp [member]))
              · obtain ⟨same, joins, swept⟩ :=
                  ih sweeping (fun await member => honest await (by simp [member]))
                refine ⟨List.forall_mem_cons.mpr ⟨by simp, fun await member =>
                  (List.mem_append.mp member).elim (expired.same await) (same await)⟩, rfl, ?_⟩
                rcases swept with ⟨rfl, swept⟩ | ⟨raised, rfl, await, member, fails⟩
                · exact Or.inl ⟨rfl, .expired expired sound swept joins⟩
                · exact Or.inr ⟨raised, rfl, await,
                    List.mem_cons_of_mem _ (List.mem_append_right _ member), fails⟩
              · cases impossible
            · obtain ⟨expired, ⟨impossible, _⟩ | ⟨_, _, await, member, fails⟩⟩ :=
                plays_expired expiring (fun await member => honest await (by simp [member]))
              · cases impossible
              · exact ⟨List.forall_mem_cons.mpr ⟨by simp, expired.same⟩, rfl,
                  Or.inr ⟨raised, rfl, await, List.mem_cons_of_mem _ member, fails⟩⟩
      · refine ⟨by simp, rfl, Or.inr ⟨raised, rfl, _, List.mem_cons_self, trivial, raised, rfl⟩⟩

-----------------------------------------------------------------------------------------
-- The loop
-----------------------------------------------------------------------------------------

/-- An iteration waits, and then sweeps the sessions that the registry has by then. -/
theorem plays_sweepRound {outcome : Except Raised Unit}
    (plays : sweepRound.Plays state log outcome final) (honest : ∀ await ∈ log, Honest await)
    : ∃ resumed rest,
        log = ⟨.interval, .ok (), state, resumed⟩ :: rest
        ∧ (∀ await ∈ rest, await.point ≠ .interval)
        ∧ registryAt rest final.sessions = resumed.sessions
        ∧ (outcome = .ok () ∧ SweptEach (Dict.keys resumed.sessions) rest final.sessions
          ∨ ∃ raised, outcome = .error raised ∧ ∃ await ∈ rest, Fails await) := by
  rcases plays_awaiting_bind plays with ⟨_, resumed, rest, rfl, sweeping⟩ | ⟨raised, _, rfl⟩
  · refine ⟨resumed, rest, rfl, ?_⟩
    have later : ∀ await ∈ rest, Honest await :=
      fun await member => honest await (List.mem_cons_of_mem _ member)
    rcases plays_bind sweeping with ⟨first, _, _, swept, rfl, each, counting⟩ | ⟨raised, rfl, each⟩
    · obtain ⟨rfl, rfl, rfl⟩ := plays_modify_iff.mp counting
      rw [List.append_nil] at later ⊢
      obtain ⟨same, joins, ⟨_, swept⟩ | ⟨_, impossible, _⟩⟩ :=
        plays_sweepEach (plays_get_bind each) later
      · exact ⟨same, joins, Or.inl ⟨rfl, swept⟩⟩
      · cases impossible
    · exact plays_sweepEach (plays_get_bind each) later
  · have impossible := honest _ List.mem_cons_self
    cases impossible

/-- One more iteration survives before the others. -/
theorem Survives.round {iterations : Nat} {outcome : Except Raised Unit} {body second : List Await}
    {parked resumed middle : Manager} (same : ∀ await ∈ body, await.point ≠ .interval)
    (joins : registryAt body middle.sessions = resumed.sessions)
    (swept : SweptEach (Dict.keys resumed.sessions) body middle.sessions)
    (follows : registryAt second final.sessions = middle.sessions)
    (survives : Survives iterations second outcome final)
    : Survives (iterations + 1) (⟨.interval, .ok (), parked, resumed⟩ :: body ++ second) outcome
        final where
  continues := survives.continues
  iterated := by
    have none : body.countP (fun await => await.point = .interval) = 0 :=
      List.countP_eq_zero.mpr (fun await member => by simpa using same await member)
    rw [List.countP_append, List.countP_cons, none, survives.iterated]
    simp
    omega
  looked := by
    refine Onward.append ?_ ⟨?_, onward_of_forall ?_⟩ survives.looked
    · intro await rest more looked point sessionId member
      exact (looked point sessionId member).append more
    · intro _ sessionId member
      obtain ⟨await, later, point⟩ := swept.looked sessionId member
      exact within_of_mem same later point
    · intro await member rest point
      exact (same await member point).elim
  ended := by
    refine Onward.append ?_ ⟨?_, swept.ended⟩ survives.ended
    · intro await rest more ended sessionId process expires known
      exact (ended sessionId process expires known).append more
    · intro sessionId process ⟨_, _, impossible⟩
      cases impossible
  registry := registry_append ⟨joins, swept.registry⟩ follows survives.registry

/-- The sweep goes on, and does what it should, unless a call of Redis fails; by induction on the
iterations.
-/
theorem plays_sweepLoop {iterations : Nat} {outcome : Except Raised Unit}
    (plays : (sweepLoop iterations).Plays state log outcome final)
    (honest : ∀ await ∈ log, Honest await)
    : registryAt log final.sessions = state.sessions
      ∧ (Survives iterations log outcome final ∧ (∀ await ∈ log, ¬ Fails await)
        ∨ ∃ raised, outcome = .error raised ∧ ∃ await ∈ log, Fails await) := by
  induction iterations generalizing state log with
  | zero =>
      obtain ⟨rfl, rfl, rfl⟩ := plays_pure_iff.mp plays
      exact ⟨rfl, Or.inl ⟨⟨rfl, rfl, trivial, trivial, trivial⟩, by simp⟩⟩
  | succ iterations ih =>
      rcases plays_bind plays with
        ⟨first, second, _, middle, rfl, round, rest⟩ | ⟨raised, rfl, round⟩
      · obtain ⟨resumed, body, rfl, same, joins, ⟨_, swept⟩ | ⟨_, impossible, _⟩⟩ :=
          plays_sweepRound round (fun await member => honest await (List.mem_append_left _ member))
        · obtain ⟨follows, ways⟩ :=
            ih rest (fun await member => honest await (List.mem_append_right _ member))
          refine ⟨rfl, ?_⟩
          rcases ways with ⟨survives, sound⟩ | ⟨raised, rfl, await, member, fails⟩
          · refine Or.inl ⟨.round same joins swept follows survives, ?_⟩
            refine List.forall_mem_append.mpr ⟨List.forall_mem_cons.mpr ⟨?_, swept.sound⟩, sound⟩
            simp [Fails, OfRedis]
          · exact Or.inr ⟨raised, rfl, await, List.mem_append_right _ member, fails⟩
        · cases impossible
      · obtain ⟨resumed, body, rfl, same, joins, ⟨impossible, _⟩ | ⟨_, _, await, member, fails⟩⟩ :=
          plays_sweepRound round honest
        · cases impossible
        · exact ⟨rfl, Or.inr ⟨raised, rfl, await, List.mem_cons_of_mem _ member, fails⟩⟩

/-- The idle sweep survives exactly when no call of Redis that it makes fails. -/
theorem sweep_survives_iff {iterations : Nat} {outcome : Except Raised Unit}
    (plays : (sweepLoop iterations).Plays state log outcome final)
    (honest : ∀ await ∈ log, Honest await)
    : Survives iterations log outcome final ↔ ∀ await ∈ log, ¬ Fails await := by
  rcases (plays_sweepLoop plays honest).2 with ⟨survives, sound⟩ | ⟨raised, failed, await, member, fails⟩
  · exact ⟨fun _ => sound, fun _ => survives⟩
  · refine ⟨fun survives => ?_, fun sound => (sound await member fails).elim⟩
    cases failed.symm.trans survives.continues

/-- Witness: the session whose key has expired is torn down, and its subprocess is killed when the
grace period is over.
-/
theorem expired_session_torn_down
    : ∃ log final,
        (sweepLoop 1).Plays oneSession log (.ok ()) final
        ∧ final.sessions = []
        ∧ final.processes = [{ killed := true }]
        ∧ Survives 1 log (.ok ()) final := by
  let popped := (oneSession.pop "a").cancel "a"
  let killed := popped.kill 0
  let log : List Await := [
    ⟨.interval, .ok (), oneSession, oneSession⟩,
    ⟨.exists "a", .ok false, oneSession, oneSession⟩,
    ⟨.grace 0, .error .timeoutError, popped, popped⟩,
    ⟨.delete "a", .ok (), killed, killed⟩
  ]
  have plays : (sweepLoop 1).Plays oneSession log (.ok ()) { killed with rounds := 1 } := by
    change (Routine.await Point.interval _).Plays _ _ _ _
    refine .await _ ?_
    change (Routine.look _).Plays _ _ _ _
    refine .look ?_
    change (Routine.await (Point.exists "a") _).Plays _ _ _ _
    refine .await _ ?_
    change (Routine.look _).Plays _ _ _ _
    refine .look ?_
    change (Routine.change _ (.change _ (.look _))).Plays _ _ _ _
    refine .change (.change (.look ?_))
    change (Routine.look _).Plays _ _ _ _
    refine .look ?_
    change (Routine.await (Point.grace 0) _).Plays _ _ _ _
    refine .await _ ?_
    change (Routine.look _).Plays _ _ _ _
    refine .look ?_
    change (Routine.change _ _).Plays _ _ _ _
    refine .change ?_
    change (Routine.await (Point.delete "a") _).Plays _ _ _ _
    refine .await _ ?_
    change (Routine.change _ (.ended _)).Plays _ _ _ _
    exact .change (.ended _ _)
  refine ⟨log, _, plays, rfl, rfl, (sweep_survives_iff plays ?_).mpr ?_⟩
  · simp [log, Honest, Answers]
  · simp [log, Fails, OfRedis]

end

/-- Two idle sessions, whose subprocesses are running. -/
def twoSessions : Manager where
  engine := { policy := { version := 1 } }
  processes := [{}, {}]
  sessions := [("a", 0), ("b", 1)]

/-- Redis fails at the lookup of the first session: the sweep is over, and the second session, which
was not looked up, stays in the registry with its subprocess running.
-/
theorem failed_lookup_ends_sweep
    : ∃ log final,
        (sweepLoop 2).Plays twoSessions log (.error .unavailable) final
        ∧ (∀ await ∈ log, Honest await)
        ∧ (∀ await ∈ log, await.point ≠ .exists "b")
        ∧ final.sessions.lookup "b" = some 1
        ∧ final.processes[1]? = some ({} : Subprocess)
        ∧ ¬ Survives 2 log (.error .unavailable) final := by
  let log : List Await := [
    ⟨.interval, .ok (), twoSessions, twoSessions⟩,
    ⟨.exists "a", .error .unavailable, twoSessions, twoSessions⟩
  ]
  have plays : (sweepLoop 2).Plays twoSessions log (.error .unavailable) twoSessions := by
    change (Routine.await Point.interval _).Plays _ _ _ _
    refine .await _ ?_
    change (Routine.look _).Plays _ _ _ _
    refine .look ?_
    change (Routine.await (Point.exists "a") _).Plays _ _ _ _
    exact .await _ (.ended _ _)
  refine ⟨log, twoSessions, plays, ?_, ?_, rfl, rfl, ?_⟩
  · simp [log, Honest, Answers]
  · simp [log]
  · intro survives
    cases survives.continues

end SecureMcp.Sessions
