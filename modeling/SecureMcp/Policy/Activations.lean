import SecureMcp.Library.Interleaving
import SecureMcp.Policy.Rollback

/-! Startups, reloads and rollbacks at once: the runs of a gateway over one table of versions and
one directory of snapshots, and what a version's row says in all of them.
-/

namespace SecureMcp

open Interaction

namespace PolicyVersions

open PolicyLoading

-----------------------------------------------------------------------------------------
-- What reloads and startups ask
-----------------------------------------------------------------------------------------

section

variable {reader : PolicyReader} {engine : PolicyEngine} {activatedBy : String}
  {events : List (Event VersionReply)}

/-- A request to the directory of snapshots. -/
def OnSnapshots : VersionCall → Prop
  | .readSnapshot _ | .writeSnapshot _ _ => True
  | _ => False

theorem OnSnapshots.quiet {call : VersionCall} (asked : OnSnapshots call) : Quiet call := by
  cases call with
  | readSnapshot _ | writeSnapshot _ _ => trivial
  | _ => exact asked.elim

theorem asks_writeSnapshot : (writeSnapshot reader engine).run.Asks OnSnapshots := by
  refine Coroutine.asks_bind (Coroutine.asks_demand _ trivial) (fun found => ?_)
  cases found with
  | none => exact Coroutine.asks_demand _ trivial
  | some raw =>
      dsimp only
      split
      · exact Coroutine.asks_ofExcept _
      · exact Coroutine.asks_pure _

theorem asks_recordActivation : (recordActivation reader engine activatedBy).run.Asks Quiet := by
  refine Coroutine.asks_bind (Coroutine.asks_demand _ trivial) (fun found => ?_)
  cases found with
  | some existing =>
      dsimp only
      split
      · exact Coroutine.asks_pure _
      · exact Coroutine.asks_ofExcept _
  | none =>
      refine Coroutine.asks_bind (Coroutine.asks_demand _ trivial) (fun highest => ?_)
      split
      · exact Coroutine.asks_ofExcept _
      · refine Coroutine.asks_bind (asks_writeSnapshot.mono fun _ => OnSnapshots.quiet) (fun _ => ?_)
        exact Coroutine.asks_bind (Coroutine.asks_demand _ trivial) (fun _ => Coroutine.asks_pure _)

/-- A request that makes a policy the one in force. -/
def Swaps : VersionCall → Prop
  | .swap _ => True
  | _ => False

theorem Quiet.not_swaps {call : VersionCall} (quiet : Quiet call) : ¬ Swaps call := by
  cases call with
  | swap engine => exact quiet.elim
  | _ => exact id

/-- The row that a forward activation adds. -/
def activationRow (engine : PolicyEngine) (activatedBy : String) : PolicyVersion where
  version := engine.version
  contentHash := engine.contentHash
  activatedBy := activatedBy

/-- A recorded activation found its own content, or it added its row to a table whose versions are
all lower.
-/
theorem exec_recordActivation_ok {fresh : Bool}
    (whole : (recordActivation reader engine activatedBy).run.Exec events (.ok fresh))
    : (∃ row,
        events = [⟨.getVersion engine.version, .ok (some row)⟩]
        ∧ row.contentHash = engine.contentHash)
      ∨ ∃ highest snapshot,
          events = ⟨.getVersion engine.version, .ok none⟩ :: ⟨.maxVersion, .ok highest⟩
            :: (snapshot ++ [⟨.addVersion (activationRow engine activatedBy), .stored ()⟩])
          ∧ (writeSnapshot reader engine).run.Exec snapshot (.ok ())
          ∧ ∀ version, highest = some version → version < engine.version := by
  obtain ⟨found, _, rfl, ⟨row, answered, exec⟩ | ⟨_, _, _, impossible⟩⟩ :=
    Coroutine.exec_demand_bind whole
  · cases found with
    | error exn => cases answered
    | ok found =>
        cases answered
        cases row with
        | some existing =>
            dsimp only at exec
            split at exec
            · next same =>
                obtain ⟨rfl, _⟩ := Program.exec_done_iff.mp exec
                exact Or.inl ⟨existing, rfl, same⟩
            · obtain ⟨_, impossible⟩ := Program.exec_done_iff.mp exec
              cases impossible
        | none =>
            obtain ⟨highest, _, rfl, ⟨top, answered, adding⟩ | ⟨_, _, _, impossible⟩⟩ :=
              Coroutine.exec_demand_bind exec
            · cases highest with
              | error exn => cases answered
              | ok highest =>
                  cases answered
                  split at adding
                  · obtain ⟨_, impossible⟩ := Program.exec_done_iff.mp adding
                    cases impossible
                  · next above =>
                      obtain ⟨snapshot, rest, _, rfl, kept, storing⟩ :=
                        Coroutine.exec_bind_ok_iff.mp adding
                      obtain ⟨added, _, rfl, ⟨_, answered, ended⟩ | ⟨_, _, _, impossible⟩⟩ :=
                        Coroutine.exec_demand_bind storing
                      · obtain ⟨rfl, _⟩ := Program.exec_done_iff.mp ended
                        cases added with
                        | stored done =>
                            refine Or.inr ⟨top, snapshot, rfl, kept, ?_⟩
                            intro version same
                            subst same
                            simpa using above
                        | lost exn | failed exn => cases answered
                      · cases impossible
            · cases impossible
  · cases impossible

/-- A reload swaps its candidate in and audits it, after it was recorded, or it does neither. -/
theorem exec_reloadPolicy {outcome : Except Exn Unit}
    (whole : (reloadPolicy reader).run.Exec events outcome)
    : (∀ event ∈ events, Quiet event.call)
      ∨ ∃ old raw candidate first fresh written,
          loadBytes reader raw = .ok candidate
          ∧ (recordActivation reader candidate "operator").run.Exec first (.ok fresh)
          ∧ events = ⟨.engine, old⟩ :: ⟨.readPolicyFile, .ok raw⟩
            :: (first
              ++ [⟨.swap candidate, ()⟩,
                ⟨.write (PolicyActivation.reloadEntry old.version candidate.version
                  candidate.contentHash), written⟩]) := by
  obtain ⟨old, _, rfl, loading⟩ := Coroutine.exec_ask_bind_iff.mp whole
  unfold loadCandidate at loading
  rw [bind_assoc] at loading
  obtain ⟨read, rest, loaded, rfl, reading, recording⟩ :=
    Coroutine.exec_attempt_bind_iff.mp loading
  obtain ⟨file, _, rfl, ⟨raw, answered, parsed⟩ | ⟨_, _, rfl, rfl⟩⟩ :=
    Coroutine.exec_demand_bind reading
  · obtain ⟨rfl, rfl⟩ := Program.exec_done_iff.mp parsed
    cases file with
    | error exn => cases answered
    | ok content =>
        cases answered
        cases loads : loadBytes reader raw with
        | error exn =>
            rw [loads] at recording
            obtain ⟨rfl, _⟩ := Program.exec_done_iff.mp recording
            exact Or.inl (by simp [Quiet])
        | ok candidate =>
            rw [loads] at recording
            obtain ⟨first, _, recorded, rfl, activating, swapping⟩ :=
              Coroutine.exec_attempt_bind_iff.mp recording
            cases recorded with
            | error exn =>
                obtain ⟨rfl, _⟩ := Program.exec_done_iff.mp swapping
                have quiet := activating.asks asks_recordActivation
                exact Or.inl (by simpa [Quiet] using quiet)
            | ok fresh =>
                obtain ⟨_, _, rfl, auditing⟩ := Coroutine.exec_ask_bind_iff.mp swapping
                obtain ⟨_, _, _, rfl, writing, ended⟩ :=
                  Coroutine.exec_attempt_bind_iff.mp auditing
                obtain ⟨written, rfl, _⟩ := Coroutine.exec_demand_iff.mp writing
                obtain ⟨rfl, _⟩ := Program.exec_done_iff.mp ended
                exact Or.inr ⟨old, raw, candidate, first, fresh, written, loads, activating, rfl⟩
  · obtain ⟨rfl, _⟩ := Program.exec_done_iff.mp recording
    exact Or.inl (by simp [Quiet])

/-- A startup that finished swapped its policy in, recorded it and audited it. -/
theorem exec_startup_ok (whole : (startup reader).run.Exec events (.ok ()))
    : ∃ raw engine first fresh seq,
        loadBytes reader raw = .ok engine
        ∧ (recordActivation reader engine "startup").run.Exec first (.ok fresh)
        ∧ events = ⟨.readPolicyFile, .ok raw⟩ :: ⟨.swap engine, ()⟩
          :: (first
            ++ [⟨.write (PolicyActivation.startupEntry engine.version engine.contentHash),
              .stored seq⟩]) := by
  obtain ⟨file, _, rfl, ⟨raw, answered, loading⟩ | ⟨_, _, _, impossible⟩⟩ :=
    Coroutine.exec_demand_bind whole
  · cases file with
    | error exn => cases answered
    | ok content =>
        cases answered
        obtain ⟨engine, loads, swapping⟩ := Coroutine.exec_ofExcept_bind_ok_iff.mp loading
        obtain ⟨_, _, rfl, recording⟩ := Coroutine.exec_ask_bind_iff.mp swapping
        obtain ⟨first, _, fresh, rfl, recorded, auditing⟩ :=
          Coroutine.exec_bind_ok_iff.mp recording
        obtain ⟨written, _, rfl, ⟨seq, stored, ended⟩ | ⟨_, _, _, impossible⟩⟩ :=
          Coroutine.exec_demand_bind auditing
        · obtain ⟨rfl, _⟩ := Program.exec_done_iff.mp ended
          cases written with
          | stored number =>
              exact ⟨raw, engine, first, fresh, number, loads,
                Coroutine.exec_mapStop_ok_iff.mp recorded, rfl⟩
          | lost exn | failed exn => cases stored
        · cases impossible
  · cases impossible

end

-----------------------------------------------------------------------------------------
-- Runs
-----------------------------------------------------------------------------------------

/-- What changes the policy in force: a start of the gateway, a SIGHUP, or a request to roll back.
-/
inductive ActivationRequest
  | startup
  | reload
  | rollback (apiKey : Option String) (version : Int)
  deriving DecidableEq

/-- What is done about a request; the reply is whether it ended without an error. -/
def ActivationRequest.program (reader : PolicyReader)
    : ActivationRequest → Program VersionCall VersionReply Bool
  | .startup => (PolicyVersions.startup reader).run.bind (fun ended => .done ended.isOk)
  | .reload => (reloadPolicy reader).run.bind (fun ended => .done ended.isOk)
  | .rollback apiKey version =>
      (rollbackPolicy reader apiKey version).run.bind (fun ended => .done ended.isOk)

/-- Whether a request ended without an error is read off how it ended. -/
theorem exec_isOk_iff {ε α : Type} {body : Program VersionCall VersionReply (Except ε α)}
    {events : List (Event VersionReply)} {ended : Bool}
    : (body.bind (fun outcome => .done outcome.isOk)).Exec events ended
      ↔ ∃ outcome, body.Exec events outcome ∧ outcome.isOk = ended := by
  rw [Program.exec_bind_iff]
  refine ⟨?_, ?_⟩
  · intro ⟨first, second, outcome, same, exec, done⟩
    obtain ⟨rfl, ended⟩ := Program.exec_done_iff.mp done
    exact ⟨outcome, by simpa [same] using exec, ended⟩
  · intro ⟨outcome, exec, ended⟩
    exact ⟨events, [], outcome, by simp, exec, ended ▸ .done _⟩

-----------------------------------------------------------------------------------------
-- What stays recorded
-----------------------------------------------------------------------------------------

namespace PolicyState

variable {state : PolicyState} {event : Event VersionReply} {version : Int} {hash : String}

/-- The rows that are there stay there with their content; only who activated one can change. -/
theorem Recorded.apply (recorded : state.Recorded version hash) (allowed : state.Allows event)
    : (state.apply event).Recorded version hash := by
  obtain ⟨row, found, content⟩ := recorded
  have added {new : PolicyVersion} (absent : state.versions new.version = none)
      : (state.record new.version (some new)).Recorded version hash := by
    have other : version ≠ new.version := by
      intro same
      rw [← same, found] at absent
      cases absent
    exact ⟨row, by simpa [record, Function.update_of_ne other] using found, content⟩
  have refreshed {renewed : Int} {activatedBy : String}
      : (state.refresh renewed activatedBy).Recorded version hash := by
    by_cases same : version = renewed
    · subst same
      exact ⟨{ row with activatedBy := activatedBy }, by simp [refresh, record, found], content⟩
    · exact ⟨row, by simpa [refresh, record, Function.update_of_ne same] using found, content⟩
  obtain ⟨call, reply⟩ := event
  cases call with
  | addVersion new =>
      cases reply with
      | stored _ | lost _ => exact added allowed
      | failed _ => exact ⟨row, found, content⟩
  | refreshVersion renewed activatedBy =>
      cases reply with
      | stored _ | lost _ => exact refreshed
      | failed _ => exact ⟨row, found, content⟩
  | writeSnapshot _ _ | write _ => cases reply <;> exact ⟨row, found, content⟩
  | _ => exact ⟨row, found, content⟩

/-- An event after which the content of a policy is recorded under its version. -/
def Witnesses (engine : PolicyEngine) : Event VersionReply → Prop
  | ⟨.getVersion version, .ok (some row)⟩ =>
      version = engine.version ∧ row.contentHash = engine.contentHash
  | ⟨.addVersion row, .stored _⟩ =>
      row.version = engine.version ∧ row.contentHash = engine.contentHash
  | _ => False

theorem Witnesses.recorded {engine : PolicyEngine} (witness : Witnesses engine event)
    (allowed : state.Allows event)
    : (state.apply event).Recorded engine.version engine.contentHash := by
  obtain ⟨call, reply⟩ := event
  cases call with
  | getVersion asked =>
      obtain exn | _ | row := reply
      · exact witness.elim
      · exact witness.elim
      · obtain ⟨rfl, content⟩ := witness
        exact ⟨row, allowed.symm, content⟩
  | addVersion row =>
      cases reply with
      | stored _ =>
          obtain ⟨same, content⟩ := witness
          exact ⟨row, by simp [PolicyState.apply, record, same], content⟩
      | lost _ | failed _ => exact witness.elim
  | _ => exact witness.elim

end PolicyState

section

variable {reader : PolicyReader} {engine : PolicyEngine} {activatedBy identityId : String}
  {asked : Int} {events : List (Event VersionReply)}

theorem witness_of_recordActivation {fresh : Bool}
    (exec : (recordActivation reader engine activatedBy).run.Exec events (.ok fresh))
    : ∃ event ∈ events, PolicyState.Witnesses engine event := by
  rcases exec_recordActivation_ok exec with ⟨row, rfl, same⟩ | ⟨highest, snapshot, rfl, _, _⟩
  · exact ⟨_, List.mem_singleton_self _, rfl, same⟩
  · exact ⟨⟨.addVersion (activationRow engine activatedBy), .stored ()⟩, by simp, rfl, rfl⟩

theorem witness_of_rollbackTarget
    (exec : (rollbackTarget reader identityId asked).run.Exec events (.ok engine))
    : ∃ event ∈ events, PolicyState.Witnesses engine event := by
  obtain ⟨raw, row, done, rfl, _, same⟩ := exec_rollbackTarget_ok_iff.mp exec
  exact ⟨⟨.getVersion engine.version, .ok (some row)⟩, by simp, rfl, same⟩

end

end PolicyVersions

open PolicyVersions

/-- Requests to several processes of the gateway, one process after the other, and all of their
events. The processes share the files and the table, and each one has its own environment.
-/
structure ActivationRun (ι : Type) where
  start : PolicyState
  parse : Bytes → Except Exn PolicyDocument
  environ : Nat → String → Option String
  revisionsDir : String := "policies/revisions"
  request : ι → ActivationRequest
  process : ι → Nat
  trace : List (Stamped ι VersionReply)

namespace ActivationRun

open PolicyLoading

variable {ι : Type}

def reader (run : ActivationRun ι) (process : Nat) : PolicyReader where
  parse := run.parse
  environ := run.environ process
  revisionsDir := run.revisionsDir

def program (run : ActivationRun ι) (thread : ι) : Program VersionCall VersionReply Bool :=
  (run.request thread).program (run.reader (run.process thread))

/-- What the events of a part of the run leave behind. -/
def state (run : ActivationRun ι) (past : List (Stamped ι VersionReply)) : PolicyState :=
  past.foldl (fun state step => state.apply step.event) run.start

@[simp] theorem state_concat (run : ActivationRun ι) (past : List (Stamped ι VersionReply))
    (step : Stamped ι VersionReply)
    : run.state (past ++ [step]) = (run.state past).apply step.event := by
  simp [state]

variable [DecidableEq ι]

/-- A process serves once its startup has ended without an error. -/
def Booted (run : ActivationRun ι) (past : List (Stamped ι VersionReply)) (process : Nat) : Prop :=
  ∃ thread,
    run.request thread = .startup
    ∧ run.process thread = process
    ∧ (run.program thread).Exec (eventsOf thread past) true

/-- The process that serves, and the last one to have done anything. -/
structure Serving (run : ActivationRun ι) (past : List (Stamped ι VersionReply)) (process : Nat)
    : Prop where
  booted : run.Booted past process
  latest : ∀ step ∈ past, run.process step.thread ≤ process

/-- Every request has got as far as its events, the world answers each of them, a process starts
once, after the earlier ones ended, and it takes other requests once it serves.
-/
structure Proper (run : ActivationRun ι) : Prop where
  underWay : ∀ thread, ∃ later ended,
    (run.program thread).Exec (eventsOf thread run.trace ++ later) ended
  answered : ∀ past step rest,
    run.trace = past ++ step :: rest → (run.state past).Allows step.event
  inTurn : run.trace.Pairwise (fun step later =>
    run.process step.thread ≤ run.process later.thread)
  once : ∀ thread other,
    run.request thread = .startup
    → run.request other = .startup
    → run.process thread = run.process other
    → thread = other
  serving : ∀ past step rest,
    run.trace = past ++ step :: rest
    → run.request step.thread ≠ .startup
    → run.Booted past (run.process step.thread)

variable {run : ActivationRun ι} {past middle rest : List (Stamped ι VersionReply)}
  {step : Stamped ι VersionReply} {engine : PolicyEngine}

/-- What is recorded stays recorded, by induction on the later events. -/
theorem Proper.recorded_later (proper : run.Proper) {version : Int} {hash : String}
    (whole : run.trace = past ++ (middle ++ rest))
    (recorded : (run.state past).Recorded version hash)
    : (run.state (past ++ middle)).Recorded version hash := by
  induction middle using List.reverseRecOn generalizing rest with
  | nil => simpa using recorded
  | append_singleton middle step ih =>
      have split : run.trace = (past ++ middle) ++ step :: rest := by simp [whole]
      rw [← List.append_assoc, state_concat]
      have earlier : run.trace = past ++ (middle ++ step :: rest) := by simp [whole]
      exact (ih earlier).apply (proper.answered _ _ _ split)

theorem Proper.recorded_of_witness (proper : run.Proper) (whole : run.trace = past ++ rest)
    (member : step ∈ past) (witness : PolicyState.Witnesses engine step.event)
    : (run.state past).Recorded engine.version engine.contentHash := by
  obtain ⟨before, after, rfl⟩ := List.append_of_mem member
  have split : run.trace = before ++ step :: (after ++ rest) := by simp [whole]
  have there := witness.recorded (proper.answered _ _ _ split)
  rw [← state_concat] at there
  have around : run.trace = (before ++ [step]) ++ (after ++ rest) := by simp [whole]
  simpa using proper.recorded_later around there

/-- The startup of a process that serves swapped its policy in, recorded it and audited it. -/
theorem Booted.startup {process : Nat} (booted : run.Booted past process)
    : ∃ boot raw engine first fresh seq,
        run.request boot = .startup
        ∧ run.process boot = process
        ∧ loadBytes (run.reader process) raw = .ok engine
        ∧ (recordActivation (run.reader process) engine "startup").run.Exec first (.ok fresh)
        ∧ eventsOf boot past = ⟨.readPolicyFile, .ok raw⟩ :: ⟨.swap engine, ()⟩
          :: (first
            ++ [⟨.write (PolicyActivation.startupEntry engine.version engine.contentHash),
              .stored seq⟩]) := by
  obtain ⟨boot, isStartup, rfl, exec⟩ := booted
  rw [program, isStartup] at exec
  obtain ⟨outcome, exec, ended⟩ := exec_isOk_iff.mp exec
  cases outcome with
  | error exn => cases ended
  | ok done =>
      obtain ⟨raw, engine, first, fresh, seq, loads, recorded, events⟩ := exec_startup_ok exec
      exact ⟨boot, raw, engine, first, fresh, seq, isStartup, rfl, loads, recorded, events⟩

/-- The events of a program around one of them. -/
theorem Proper.exec_around (proper : run.Proper) (whole : run.trace = past ++ step :: rest)
    : ∃ later ended,
        (run.program step.thread).Exec
          (eventsOf step.thread past ++ step.event :: (eventsOf step.thread rest ++ later)) ended := by
  obtain ⟨later, ended, exec⟩ := proper.underWay step.thread
  rw [whole, eventsOf_append_cons, List.append_assoc] at exec
  exact ⟨later, ended, exec⟩

/-- A reload that swaps a policy in has loaded it from the file and recorded it. -/
theorem Proper.reload_swap (proper : run.Proper) (whole : run.trace = past ++ step :: rest)
    (reload : run.request step.thread = .reload) (swapped : step.event = ⟨.swap engine, ()⟩)
    : ∃ old raw first fresh,
        loadBytes (run.reader (run.process step.thread)) raw = .ok engine
        ∧ (recordActivation (run.reader (run.process step.thread)) engine "operator").run.Exec first
          (.ok fresh)
        ∧ eventsOf step.thread past = ⟨.engine, old⟩ :: ⟨.readPolicyFile, .ok raw⟩ :: first := by
  obtain ⟨later, ended, exec⟩ := proper.exec_around whole
  rw [program, reload, swapped] at exec
  obtain ⟨outcome, exec, _⟩ := exec_isOk_iff.mp exec
  rcases exec_reloadPolicy exec with quiet | ⟨old, raw, candidate, first, fresh, written, loads,
      recorded, same⟩
  · exact (quiet ⟨.swap engine, ()⟩ (by simp)).elim
  · rw [← List.cons_append, ← List.cons_append] at same
    have quiet := recorded.asks asks_recordActivation
    have early : ∀ event ∈ ⟨.engine, old⟩ :: ⟨.readPolicyFile, .ok raw⟩ :: first,
        ¬ Swaps event.call := by
      intro event member
      rcases List.mem_cons.mp member with rfl | member
      · exact id
      · rcases List.mem_cons.mp member with rfl | member
        · exact id
        · exact (quiet event member).not_swaps
    obtain ⟨before, one, _⟩ := same_of_only (fun event : Event VersionReply => Swaps event.call)
      same (by trivial) early (by simp [Swaps])
    cases one
    exact ⟨old, raw, first, fresh, loads, recorded, before⟩

omit [DecidableEq ι] in
/-- A world that serves the events of a run in turn answers each of them. -/
theorem allows_of_served {run : ActivationRun ι} {after : PolicyState}
    (served : Program.Served PolicyState.Serves run.start (run.trace.map Stamped.event) after)
    : ∀ past step rest, run.trace = past ++ step :: rest → (run.state past).Allows step.event := by
  intro past step rest whole
  rw [whole, List.map_append, Program.served_append_iff] at served
  obtain ⟨middle, early, late⟩ := served
  obtain ⟨_, ⟨allowed, _⟩, _⟩ := Program.served_cons_iff.mp late
  have reached : middle = run.state past := by
    clear whole late allowed
    unfold state
    generalize run.start = start at early
    induction past generalizing start with
    | nil => exact Program.served_nil_iff.mp early
    | cons first past ih =>
        obtain ⟨_, ⟨_, rfl⟩, rest⟩ := Program.served_cons_iff.mp early
        exact ih _ rest
  exact reached ▸ allowed

end ActivationRun

-----------------------------------------------------------------------------------------
-- A reload after a startup
-----------------------------------------------------------------------------------------

namespace PolicyVersions

open PolicyLoading

section

variable {reader : PolicyReader} {raw : Bytes} {engine : PolicyEngine} {row : PolicyVersion}

theorem exec_recordActivation_again {activatedBy : String}
    (same : row.contentHash = engine.contentHash)
    : (recordActivation reader engine activatedBy).run.Exec
        [⟨.getVersion engine.version, .ok (some row)⟩] (.ok false) := by
  refine Coroutine.exec_bind_ok_iff.mpr ⟨[_], [], some row, rfl, .ask (.done _), ?_⟩
  dsimp only
  rw [if_pos same]
  exact .done _

/-- A startup with a policy that is recorded. -/
def startupEvents (raw : Bytes) (engine : PolicyEngine) (row : PolicyVersion) (seq : Nat)
    : List (Event VersionReply) :=
  [
    ⟨.readPolicyFile, .ok raw⟩,
    ⟨.swap engine, ()⟩,
    ⟨.getVersion engine.version, .ok (some row)⟩,
    ⟨.write (PolicyActivation.startupEntry engine.version engine.contentHash), .stored seq⟩
  ]

theorem exec_startup_again {seq : Nat} (loads : loadBytes reader raw = .ok engine)
    (same : row.contentHash = engine.contentHash)
    : (startup reader).run.Exec (startupEvents raw engine row seq) (.ok ()) := by
  refine Coroutine.exec_bind_ok_iff.mpr ⟨[_], _, raw, rfl, .ask (.done _), ?_⟩
  refine Coroutine.exec_ofExcept_bind_ok_iff.mpr ⟨engine, loads, ?_⟩
  refine Coroutine.exec_ask_bind_iff.mpr ⟨(), _, rfl, ?_⟩
  refine Coroutine.exec_bind_ok_iff.mpr ⟨[_], _, false, rfl, ?_, ?_⟩
  · exact Coroutine.exec_mapStop_ok_iff.mpr (exec_recordActivation_again same)
  · exact Coroutine.exec_bind_ok_iff.mpr ⟨[_], [], seq, rfl, .ask (.done _), .done _⟩

/-- A reload of a policy that is recorded. -/
def reloadEvents (old : PolicyEngine) (raw : Bytes) (engine : PolicyEngine) (row : PolicyVersion)
    (written : Written Nat)
    : List (Event VersionReply) :=
  [
    ⟨.engine, old⟩,
    ⟨.readPolicyFile, .ok raw⟩,
    ⟨.getVersion engine.version, .ok (some row)⟩,
    ⟨.swap engine, ()⟩,
    ⟨.write (PolicyActivation.reloadEntry old.version engine.version engine.contentHash), written⟩
  ]

theorem exec_reload_again {old : PolicyEngine} {written : Written Nat}
    (loads : loadBytes reader raw = .ok engine) (same : row.contentHash = engine.contentHash)
    : (reloadPolicy reader).run.Exec (reloadEvents old raw engine row written) (.ok ()) := by
  refine Coroutine.exec_ask_bind_iff.mpr ⟨old, _, rfl, ?_⟩
  unfold loadCandidate
  rw [bind_assoc]
  refine Coroutine.exec_attempt_bind_iff.mpr ⟨[_], _, .ok engine, rfl, ?_, ?_⟩
  · refine Coroutine.exec_bind_ok_iff.mpr ⟨[_], [], raw, rfl, .ask (.done _), ?_⟩
    rw [loads]
    exact .done _
  · refine Coroutine.exec_attempt_bind_iff.mpr
      ⟨[_], _, .ok false, rfl, exec_recordActivation_again same, ?_⟩
    refine Coroutine.exec_ask_bind_iff.mpr ⟨(), _, rfl, ?_⟩
    exact Coroutine.exec_attempt_bind_iff.mpr
      ⟨[_], [], written.result, rfl, Coroutine.exec_demand_iff.mpr ⟨written, rfl, rfl⟩, .done _⟩

end

/-- The row of a version. -/
def numberedRow (version : Nat) : PolicyVersion where
  version := version
  contentHash := (numberedEngine version).contentHash
  activatedBy := "operator"

/-- A table with two versions, and their snapshots. -/
def successive : PolicyState where
  engine := numberedEngine 2
  versions version :=
    if version = 1 then some (numberedRow 1)
    else if version = 2 then some (numberedRow 2)
    else none
  snapshots version :=
    if version = 1 then some (versionFile 1)
    else if version = 2 then some (versionFile 2)
    else none
  activations := []

end PolicyVersions

namespace ActivationRun

/-- A startup and a reload. -/
inductive Task
  | boot
  | reload
  deriving DecidableEq

/-- A gateway that starts with the second version, and then reloads its file. -/
def reloaded (version : Nat) (written : Written Nat) : ActivationRun Task where
  start := successive
  parse := numbered.parse
  environ _ := numbered.environ
  request
    | .boot => .startup
    | .reload => .reload
  process _ := 0
  trace :=
    (startupEvents (versionFile 2) (numberedEngine 2) (numberedRow 2) 1).map
        (Stamped.mk .boot 0)
      ++ (reloadEvents (numberedEngine 2) (versionFile version) (numberedEngine version)
          (numberedRow version) written).map
        (Stamped.mk .reload 1)

section

variable {version : Nat} {written : Written Nat}

theorem reloaded_boots
    : ((reloaded version written).program .boot).Exec
        (startupEvents (versionFile 2) (numberedEngine 2) (numberedRow 2) 1) true :=
  exec_isOk_iff.mpr ⟨.ok (), exec_startup_again (loadBytes_numbered (by decide)) rfl, rfl⟩

theorem eventsOf_reloaded_boot
    : eventsOf .boot (reloaded version written).trace
      = startupEvents (versionFile 2) (numberedEngine 2) (numberedRow 2) 1 := by
  simp [reloaded, eventsOf_append, eventsOf_stamped]

theorem eventsOf_reloaded_reload
    : eventsOf .reload (reloaded version written).trace
      = reloadEvents (numberedEngine 2) (versionFile version) (numberedEngine version)
        (numberedRow version) written := by
  simp [reloaded, eventsOf_append, eventsOf_stamped]

theorem reloaded_booted : (reloaded version written).Booted (reloaded version written).trace 0 :=
  ⟨.boot, rfl, rfl, eventsOf_reloaded_boot ▸ reloaded_boots⟩

/-- Both programs have ended. -/
theorem reloaded_ended (known : version = 1 ∨ version = 2) (thread : Task)
    : ∃ ended, ((reloaded version written).program thread).Exec
        (eventsOf thread (reloaded version written).trace) ended := by
  have digit : version < 10 := by
    rcases known with rfl | rfl <;> decide
  cases thread with
  | boot => exact ⟨true, eventsOf_reloaded_boot ▸ reloaded_boots⟩
  | reload =>
      refine ⟨true, exec_isOk_iff.mpr ⟨.ok (), ?_, rfl⟩⟩
      rw [eventsOf_reloaded_reload]
      exact exec_reload_again (loadBytes_numbered digit) rfl

theorem reloaded_served (known : version = 1 ∨ version = 2)
    : ∃ after, Program.Served PolicyState.Serves successive
        ((reloaded version written).trace.map Stamped.event) after := by
  have found (now : PolicyState) (same : now.versions = successive.versions)
      : numberedRow version = now.versions version := by
    rcases known with rfl | rfl <;> rw [same] <;> rfl
  refine ⟨_, .cons ⟨trivial, rfl⟩ (.cons ⟨trivial, rfl⟩ (.cons ⟨rfl, rfl⟩ (.cons ⟨trivial, rfl⟩
    (.cons ⟨rfl, rfl⟩ (.cons ⟨trivial, rfl⟩ (.cons ⟨found _ rfl, rfl⟩ (.cons ⟨trivial, rfl⟩
    (.cons ⟨trivial, rfl⟩ (.nil _)))))))))⟩

theorem reloaded_proper (known : version = 1 ∨ version = 2)
    : (reloaded version written).Proper := by
  refine ⟨?_, ?_, ?_, ?_, ?_⟩
  · intro thread
    obtain ⟨ended, exec⟩ := reloaded_ended known thread
    exact ⟨[], ended, by rwa [List.append_nil]⟩
  · obtain ⟨_, served⟩ := reloaded_served known
    exact allows_of_served served
  · exact List.pairwise_of_forall (fun _ _ => le_rfl)
  · intro thread other isBoot alsoBoot _
    cases thread with
    | boot =>
        cases other with
        | boot => rfl
        | reload => cases alsoBoot
    | reload => cases isBoot
  · intro past step rest whole later
    have outside : step ∉ (startupEvents (versionFile 2) (numberedEngine 2) (numberedRow 2) 1).map
        (Stamped.mk Task.boot 0) := by
      intro member
      obtain ⟨_, _, rfl⟩ := List.mem_map.mp member
      exact later rfl
    obtain ⟨between, rfl, split⟩ := place_in_second whole outside
    refine ⟨.boot, rfl, rfl, ?_⟩
    have none : eventsOf Task.boot between = [] := by
      refine List.map_eq_nil_iff.mpr (List.filter_eq_nil_iff.mpr (fun other member => ?_))
      have among : other ∈ between ++ step :: rest := List.mem_append_left _ member
      rw [← split] at among
      obtain ⟨_, _, rfl⟩ := List.mem_map.mp among
      simp
    simpa [eventsOf_append, eventsOf_stamped, none] using reloaded_boots

end

end ActivationRun

end SecureMcp
