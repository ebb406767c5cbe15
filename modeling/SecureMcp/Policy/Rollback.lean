import Mathlib.Tactic.IntervalCases
import SecureMcp.Policy.Versions

/-! Rollbacks against the table of versions and the directory of snapshots: what a rollback to a
version activates, and which snapshots it accepts.
-/

namespace SecureMcp

open Interaction

namespace PolicyVersions

open PolicyLoading

-----------------------------------------------------------------------------------------
-- What the steps of a rollback ask
-----------------------------------------------------------------------------------------

section

variable {reader : PolicyReader} {identityId : String} {version : Int}
  {events : List (Event VersionReply)} {engine : PolicyEngine}

theorem exec_loadSnapshot_ok_iff
    : (loadSnapshot reader version).run.Exec events (.ok engine)
      ↔ ∃ raw,
          events = [⟨.readSnapshot version, .ok (some raw)⟩]
          ∧ loadBytes reader raw = .ok engine := by
  refine ⟨?_, ?_⟩
  · intro whole
    obtain ⟨snapshot, _, rfl, exec⟩ := Coroutine.exec_ask_bind_iff.mp whole
    split at exec
    · obtain ⟨_, impossible⟩ := Program.exec_done_iff.mp exec
      cases impossible
    · obtain ⟨_, impossible⟩ := Program.exec_done_iff.mp exec
      cases impossible
    · next raw =>
        cases loaded : loadBytes reader raw with
        | error exn =>
            rw [loaded] at exec
            obtain ⟨_, impossible⟩ := Program.exec_done_iff.mp exec
            cases impossible
        | ok engine =>
            rw [loaded] at exec
            obtain ⟨rfl, same⟩ := Program.exec_done_iff.mp exec
            cases same
            exact ⟨raw, rfl, loaded⟩
  · intro ⟨raw, same, loaded⟩
    subst same
    refine Coroutine.exec_ask_bind_iff.mpr ⟨_, [], rfl, ?_⟩
    dsimp only
    rw [loaded]
    exact .done _

theorem exec_recordRollback_ok_iff
    : (recordRollback engine identityId).run.Exec events (.ok ())
      ↔ ∃ row done,
          events = [
            ⟨.getVersion engine.version, .ok (some row)⟩,
            ⟨.refreshVersion engine.version identityId, .stored done⟩
          ]
          ∧ row.contentHash = engine.contentHash := by
  refine ⟨?_, ?_⟩
  · intro whole
    obtain ⟨_, _, found, rfl, asked, exec⟩ := Coroutine.exec_bind_ok_iff.mp whole
    obtain ⟨reply, rfl, answered⟩ := Coroutine.exec_demand_iff.mp asked
    cases (answered : reply = .ok found)
    cases found with
    | none =>
        obtain ⟨_, impossible⟩ := Program.exec_done_iff.mp exec
        cases impossible
    | some row =>
        dsimp only at exec
        split at exec
        · obtain ⟨_, impossible⟩ := Program.exec_done_iff.mp exec
          cases impossible
        · next same =>
            obtain ⟨reply, rfl, refreshed⟩ := Coroutine.exec_demand_iff.mp exec
            cases reply with
            | stored done => exact ⟨row, done, rfl, not_not.mp same⟩
            | lost exn | failed exn => cases refreshed
  · intro ⟨row, done, listed, same⟩
    subst listed
    refine Coroutine.exec_bind_ok_iff.mpr ⟨[_], [_], some row, rfl, .ask (.done _), ?_⟩
    dsimp only
    rw [if_neg (not_not.mpr same)]
    exact .ask (.done _)

/-- A rollback's target is read from the snapshot of the version that was asked for, and checked
against the row of the version that the file itself names.
-/
theorem exec_rollbackTarget_ok_iff
    : (rollbackTarget reader identityId version).run.Exec events (.ok engine)
      ↔ ∃ raw row done,
          events = [
            ⟨.readSnapshot version, .ok (some raw)⟩,
            ⟨.getVersion engine.version, .ok (some row)⟩,
            ⟨.refreshVersion engine.version identityId, .stored done⟩
          ]
          ∧ loadBytes reader raw = .ok engine
          ∧ row.contentHash = engine.contentHash := by
  refine ⟨?_, ?_⟩
  · intro whole
    obtain ⟨_, _, loaded, rfl, read, exec⟩ := Coroutine.exec_bind_ok_iff.mp whole
    obtain ⟨raw, rfl, loads⟩ := exec_loadSnapshot_ok_iff.mp read
    obtain ⟨_, _, _, rfl, recorded, exec⟩ := Coroutine.exec_bind_ok_iff.mp exec
    obtain ⟨rfl, same⟩ := Program.exec_done_iff.mp exec
    cases same
    obtain ⟨row, done, rfl, hash⟩ :=
      exec_recordRollback_ok_iff.mp (Coroutine.exec_mapStop_ok_iff.mp recorded)
    exact ⟨raw, row, done, rfl, loads, hash⟩
  · intro ⟨raw, row, done, listed, loads, hash⟩
    subst listed
    refine Coroutine.exec_bind_ok_iff.mpr ⟨[_], [_, _], engine, rfl, ?_, ?_⟩
    · exact exec_loadSnapshot_ok_iff.mpr ⟨raw, rfl, loads⟩
    · refine Coroutine.exec_bind_ok_iff.mpr ⟨[_, _], [], (), rfl, ?_, .done _⟩
      exact Coroutine.exec_mapStop_ok_iff.mpr (exec_recordRollback_ok_iff.mpr ⟨row, done, rfl, hash⟩)

/-- A simulation reads the same snapshot, and checks it against the row of the version that was
asked for.
-/
theorem exec_loadVersion_ok_iff
    : (loadVersion reader version).run.Exec events (.ok engine)
      ↔ ∃ raw row,
          events = [⟨.getVersion version, .ok (some row)⟩, ⟨.readSnapshot version, .ok (some raw)⟩]
          ∧ loadBytes reader raw = .ok engine
          ∧ row.contentHash = engine.contentHash := by
  refine ⟨?_, ?_⟩
  · intro whole
    obtain ⟨_, _, found, rfl, asked, reading⟩ := Coroutine.exec_bind_ok_iff.mp whole
    obtain ⟨reply, rfl, answered⟩ := Coroutine.exec_demand_iff.mp asked
    cases (answered : reply = .ok found)
    cases found with
    | none =>
        obtain ⟨_, impossible⟩ := Program.exec_done_iff.mp reading
        cases impossible
    | some row =>
        obtain ⟨_, _, snapshot, rfl, read, loading⟩ := Coroutine.exec_bind_ok_iff.mp reading
        obtain ⟨reply, rfl, answered⟩ := Coroutine.exec_demand_iff.mp read
        cases (answered : reply = .ok snapshot)
        cases snapshot with
        | none =>
            obtain ⟨_, impossible⟩ := Program.exec_done_iff.mp loading
            cases impossible
        | some raw =>
            obtain ⟨loaded, loads, checking⟩ := Coroutine.exec_ofExcept_bind_ok_iff.mp loading
            split at checking
            · obtain ⟨_, impossible⟩ := Program.exec_done_iff.mp checking
              cases impossible
            · next same =>
                obtain ⟨rfl, final⟩ := Program.exec_done_iff.mp checking
                cases final
                exact ⟨raw, row, rfl, loads, (not_not.mp same).symm⟩
  · intro ⟨raw, row, listed, loads, same⟩
    subst listed
    refine Coroutine.exec_bind_ok_iff.mpr ⟨[_], [_], some row, rfl, .ask (.done _), ?_⟩
    refine Coroutine.exec_bind_ok_iff.mpr ⟨[_], [], some raw, rfl, .ask (.done _), ?_⟩
    refine Coroutine.exec_ofExcept_bind_ok_iff.mpr ⟨engine, loads, ?_⟩
    rw [if_neg (not_not.mpr same.symm)]
    exact .done _

/-- A request that neither swaps a policy in nor writes an audit row. -/
def Quiet : VersionCall → Prop
  | .swap _ | .write _ => False
  | _ => True

theorem asks_recordRollback : (recordRollback engine identityId).run.Asks Quiet := by
  refine Coroutine.asks_bind (Coroutine.asks_demand _ trivial) (fun found => ?_)
  cases found with
  | none => exact Coroutine.asks_ofExcept _
  | some row =>
      dsimp only
      split
      · exact Coroutine.asks_ofExcept _
      · exact Coroutine.asks_demand _ trivial

theorem asks_loadSnapshot : (loadSnapshot reader version).run.Asks Quiet := by
  refine Coroutine.asks_bind (Coroutine.asks_ask trivial) (fun snapshot => ?_)
  split
  · exact Coroutine.asks_ofExcept _
  · exact Coroutine.asks_ofExcept _
  · split
    · exact Coroutine.asks_ofExcept _
    · exact Coroutine.asks_pure _

theorem asks_rollbackTarget : (rollbackTarget reader identityId version).run.Asks Quiet := by
  refine Coroutine.asks_bind asks_loadSnapshot (fun engine => ?_)
  exact Coroutine.asks_bind (Coroutine.asks_mapStop asks_recordRollback)
    (fun _ => Coroutine.asks_pure _)

/-- The policy is swapped in only after its audit row. -/
def swapEvents (engine : PolicyEngine) : Written Nat → List (Event VersionReply)
  | .stored _ => [⟨.swap engine, ()⟩]
  | .lost _ | .failed _ => []

/-- The events with which a recorded rollback ends: the audit row, and then the swap. -/
def auditEvents (identityId : String) (old engine : PolicyEngine) (written : Written Nat)
    : List (Event VersionReply) :=
  ⟨.engine, old⟩
    :: ⟨.write (PolicyActivation.rollbackEntry identityId old.version engine.version
      engine.contentHash), written⟩
    :: swapEvents engine written

/-- A rollback audits its target and swaps it in, after it was recorded, or it does neither. -/
theorem exec_rollbackAs {outcome : Except HttpFailure Decision}
    (whole : (rollbackAs reader identityId version).run.Exec events outcome)
    : (∀ event ∈ events, Quiet event.call)
      ∨ ∃ first engine old written,
          (rollbackTarget reader identityId version).run.Exec first (.ok engine)
          ∧ events = first ++ auditEvents identityId old engine written := by
  unfold rollbackAs at whole
  rw [Coroutine.run_bind, Program.exec_bind_iff] at whole
  obtain ⟨first, rest, ended, rfl, target, exec⟩ := whole
  have quiet := target.asks asks_rollbackTarget
  cases ended with
  | error stop =>
      obtain ⟨rfl, _⟩ := Program.exec_done_iff.mp exec
      exact Or.inl (by simpa using quiet)
  | ok engine =>
      obtain ⟨old, _, rfl, auditing⟩ := Coroutine.exec_ask_bind_iff.mp exec
      refine Or.inr ⟨first, engine, old, ?_⟩
      obtain ⟨written, _, rfl, ⟨seq, answered, swapping⟩ | ⟨_, answered, rfl, _⟩⟩ :=
        Coroutine.exec_demand_bind auditing
      · obtain ⟨_, _, rfl, done⟩ := Coroutine.exec_ask_bind_iff.mp swapping
        obtain ⟨rfl, _⟩ := Program.exec_done_iff.mp done
        cases written with
        | stored written => exact ⟨.stored written, target, rfl⟩
        | lost exn | failed exn => cases answered
      · cases written with
        | stored written => cases answered
        | lost exn => exact ⟨.lost exn, target, rfl⟩
        | failed exn => exact ⟨.failed exn, target, rfl⟩

theorem asks_resolveIdentity {apiKey : Option String}
    : (resolveIdentity apiKey engine).run.Asks Quiet := by
  unfold resolveIdentity
  split
  · exact Coroutine.asks_pure _
  · exact Coroutine.asks_pure _
  · split
    · exact Coroutine.asks_pure _
    · exact Coroutine.asks_bind (Coroutine.asks_attempt (Coroutine.asks_demand _ trivial))
        (fun _ => Coroutine.asks_pure _)

theorem asks_requireAdmin {apiKey : Option String} : (requireAdmin apiKey).run.Asks Quiet := by
  refine Coroutine.asks_bind (Coroutine.asks_ask trivial) (fun engine => ?_)
  refine Coroutine.asks_bind asks_resolveIdentity (fun resolved => ?_)
  cases resolved with
  | none => exact Coroutine.asks_ofExcept _
  | some identityId =>
      refine Coroutine.asks_bind (Coroutine.asks_ask trivial) (fun current => ?_)
      split
      · exact Coroutine.asks_pure _
      · exact Coroutine.asks_ofExcept _

/-- A request to roll back swaps nothing in, or it rolls back for an administrator. -/
theorem exec_rollbackPolicy {apiKey : Option String} {outcome : Except HttpFailure Decision}
    (whole : (rollbackPolicy reader apiKey version).run.Exec events outcome)
    : (∀ event ∈ events, Quiet event.call)
      ∨ ∃ first rest identityId,
          events = first ++ rest
          ∧ (requireAdmin apiKey).run.Exec first (.ok identityId)
          ∧ (rollbackAs reader identityId version).run.Exec rest outcome := by
  unfold rollbackPolicy at whole
  rw [Coroutine.run_bind, Program.exec_bind_iff] at whole
  obtain ⟨first, rest, ended, rfl, authorized, exec⟩ := whole
  cases ended with
  | error stop =>
      obtain ⟨rfl, _⟩ := Program.exec_done_iff.mp exec
      exact Or.inl (by simpa using authorized.asks asks_requireAdmin)
  | ok identityId => exact Or.inr ⟨first, rest, identityId, rfl, authorized, exec⟩

end

-----------------------------------------------------------------------------------------
-- What a rollback activates
-----------------------------------------------------------------------------------------

section

variable {reader : PolicyReader} {state : PolicyState} {version : Int}

/-- (ActivatesExactly reader state version) means that a rollback to a version activates nothing
but the policy that is recorded under it, and that it accepts the snapshot exactly when a
simulation of the version does.
-/
structure ActivatesExactly (reader : PolicyReader) (state : PolicyState) (version : Int) : Prop where
  activates : ∀ identityId events outcome after engine,
    (rollbackAs reader identityId version).run.Exec events outcome
    → Program.Served PolicyState.Serves state events after
    → ⟨.swap engine, ()⟩ ∈ events
    → engine.version = version ∧ state.Recorded version engine.contentHash
  accepts :
    (∃ identityId events after engine,
      (rollbackTarget reader identityId version).run.Exec events (.ok engine)
      ∧ Program.Served PolicyState.Serves state events after)
    ↔ ∃ events after engine,
        (loadVersion reader version).run.Exec events (.ok engine)
        ∧ Program.Served PolicyState.Serves state events after

/-- A served target is the snapshot's policy, recorded under the version that it names. -/
theorem exists_rollbackTarget_iff {engine : PolicyEngine} {identityId : String}
    : (∃ events after,
        (rollbackTarget reader identityId version).run.Exec events (.ok engine)
        ∧ Program.Served PolicyState.Serves state events after)
      ↔ ∃ raw,
          state.snapshots version = some raw
          ∧ loadBytes reader raw = .ok engine
          ∧ state.Recorded engine.version engine.contentHash := by
  refine ⟨?_, ?_⟩
  · intro ⟨events, after, exec, served⟩
    obtain ⟨raw, row, done, rfl, loads, hash⟩ := exec_rollbackTarget_ok_iff.mp exec
    obtain ⟨_, ⟨read, rfl⟩, rest⟩ := Program.served_cons_iff.mp served
    obtain ⟨_, ⟨found, rfl⟩, _⟩ := Program.served_cons_iff.mp rest
    exact ⟨raw, read.symm, loads, row, found.symm, hash⟩
  · intro ⟨raw, kept, loads, row, found, hash⟩
    refine ⟨_, state.refresh engine.version identityId,
      exec_rollbackTarget_ok_iff.mpr ⟨raw, row, (), rfl, loads, hash⟩, ?_⟩
    exact .cons ⟨kept.symm, rfl⟩ (.cons ⟨found.symm, rfl⟩ (.cons ⟨trivial, rfl⟩ (.nil _)))

theorem exists_loadVersion_iff {engine : PolicyEngine}
    : (∃ events after,
        (loadVersion reader version).run.Exec events (.ok engine)
        ∧ Program.Served PolicyState.Serves state events after)
      ↔ ∃ raw,
          state.snapshots version = some raw
          ∧ loadBytes reader raw = .ok engine
          ∧ state.Recorded version engine.contentHash := by
  refine ⟨?_, ?_⟩
  · intro ⟨events, after, exec, served⟩
    obtain ⟨raw, row, rfl, loads, hash⟩ := exec_loadVersion_ok_iff.mp exec
    obtain ⟨_, ⟨found, rfl⟩, rest⟩ := Program.served_cons_iff.mp served
    obtain ⟨_, ⟨read, rfl⟩, _⟩ := Program.served_cons_iff.mp rest
    exact ⟨raw, read.symm, loads, row, found.symm, hash⟩
  · intro ⟨raw, kept, loads, row, found, hash⟩
    refine ⟨_, state, exec_loadVersion_ok_iff.mpr ⟨raw, row, rfl, loads, hash⟩, ?_⟩
    exact .cons ⟨found.symm, rfl⟩ (.cons ⟨kept.symm, rfl⟩ (.nil _))

/-- What a rollback and a simulation of its version need of a snapshot that can be loaded. -/
def Consistent (state : PolicyState) (version : Int) (engine : PolicyEngine) : Prop :=
  engine.version = version
  ∨ (¬ state.Recorded engine.version engine.contentHash
    ∧ ¬ state.Recorded version engine.contentHash)

theorem activatesExactly_of_consistent
    (consistent : ∀ raw engine,
      state.snapshots version = some raw
      → loadBytes reader raw = .ok engine
      → Consistent state version engine)
    : ActivatesExactly reader state version := by
  refine ⟨?_, ?_⟩
  · intro identityId events outcome after engine exec served swapped
    rcases exec_rollbackAs exec with quiet | ⟨first, target, old, written, loading, rfl⟩
    · exact (quiet _ swapped).elim
    · obtain ⟨middle, early, _⟩ := Program.served_append_iff.mp served
      obtain ⟨raw, kept, loads, recorded⟩ := exists_rollbackTarget_iff.mp ⟨_, _, loading, early⟩
      have same : engine = target := by
        rcases List.mem_append.mp swapped with before | last
        · exact (loading.asks asks_rollbackTarget _ before).elim
        · cases written with
          | stored seq => simpa [auditEvents, swapEvents] using last
          | lost exn | failed exn => simp [auditEvents, swapEvents] at last
      subst same
      rcases consistent raw engine kept loads with named | ⟨unrecorded, _⟩
      · exact ⟨named, named ▸ recorded⟩
      · exact absurd recorded unrecorded
  · refine ⟨?_, ?_⟩
    · intro ⟨identityId, events, after, engine, exec, served⟩
      obtain ⟨raw, kept, loads, recorded⟩ := exists_rollbackTarget_iff.mp ⟨_, _, exec, served⟩
      rcases consistent raw engine kept loads with named | ⟨unrecorded, _⟩
      · obtain ⟨events, after, reads⟩ :=
          exists_loadVersion_iff.mpr ⟨raw, kept, loads, named ▸ recorded⟩
        exact ⟨events, after, engine, reads⟩
      · exact absurd recorded unrecorded
    · intro ⟨events, after, engine, exec, served⟩
      obtain ⟨raw, kept, loads, recorded⟩ := exists_loadVersion_iff.mp ⟨_, _, exec, served⟩
      rcases consistent raw engine kept loads with named | ⟨_, unrecorded⟩
      · obtain ⟨events, after, reads⟩ :=
          exists_rollbackTarget_iff.mpr ⟨raw, kept, loads, named.symm ▸ recorded⟩
        exact ⟨"operator", events, after, engine, reads⟩
      · exact absurd recorded unrecorded

/-- A snapshot whose policy names another version is activated when that version is recorded with
its content, and simulated when the version that was asked for is.
-/
theorem ActivatesExactly.consistent {raw : Bytes} {engine : PolicyEngine}
    (exactly : ActivatesExactly reader state version) (kept : state.snapshots version = some raw)
    (loads : loadBytes reader raw = .ok engine)
    : Consistent state version engine := by
  by_cases named : engine.version = version
  · exact Or.inl named
  · have foreign : ¬ state.Recorded engine.version engine.contentHash := by
      intro recorded
      obtain ⟨first, middle, target, early⟩ :=
        exists_rollbackTarget_iff.mpr ⟨raw, kept, loads, recorded⟩
      have whole : (rollbackAs reader "operator" version).run.Exec
          (first ++ auditEvents "operator" middle.engine engine (.stored 1)) (.ok _) :=
        Coroutine.exec_bind_ok_iff.mpr ⟨first, _, engine, rfl, target, .ask (.ask (.ask (.done _)))⟩
      obtain ⟨after, late⟩ : ∃ after, Program.Served PolicyState.Serves middle
          (auditEvents "operator" middle.engine engine (.stored 1)) after :=
        ⟨_, .cons ⟨rfl, rfl⟩ (.cons ⟨trivial, rfl⟩ (.cons ⟨trivial, rfl⟩ (.nil _)))⟩
      have served := Program.served_append_iff.mpr ⟨middle, early, late⟩
      exact named (exactly.activates _ _ _ _ engine whole served
        (by simp [auditEvents, swapEvents])).1
    refine Or.inr ⟨foreign, ?_⟩
    intro recorded
    obtain ⟨events, after, reads⟩ := exists_loadVersion_iff.mpr ⟨raw, kept, loads, recorded⟩
    obtain ⟨identityId, events, after, other, target⟩ :=
      exactly.accepts.mpr ⟨events, after, engine, reads⟩
    obtain ⟨again, there, loaded, found⟩ := exists_rollbackTarget_iff.mp ⟨events, after, target⟩
    cases kept.symm.trans there
    cases loads.symm.trans loaded
    exact foreign found

/-- A rollback activates exactly the version that it is asked for, and accepts the snapshots that a
simulation of it accepts, exactly when its snapshot names this version, or neither this version nor
the one that it names is recorded with its content.
-/
theorem activatesExactly_iff
    : ActivatesExactly reader state version
      ↔ ∀ raw engine,
          state.snapshots version = some raw
          → loadBytes reader raw = .ok engine
          → engine.version = version
            ∨ (¬ state.Recorded engine.version engine.contentHash
              ∧ ¬ state.Recorded version engine.contentHash) :=
  ⟨fun exactly _ _ kept loads => exactly.consistent kept loads, activatesExactly_of_consistent⟩

end

/-- The bytes of `version: `, up to a version of one digit. -/
def versionKey : Bytes :=
  [118, 101, 114, 115, 105, 111, 110, 58, 32]

def versionFile (version : Nat) : Bytes :=
  versionKey ++ [UInt8.ofNat (48 + version)]

/-- A reader of files that declare nothing but such a version. -/
def numbered : PolicyReader where
  parse raw :=
    match raw.drop versionKey.length with
    | [digit] =>
        if raw.take versionKey.length = versionKey ∧ 48 ≤ digit ∧ digit ≤ 57 then
          .ok { version := digit.toNat - 48 }
        else .error .valueError
    | _ => .error .valueError
  environ _ := none

/-- The policy of a version under that reader. -/
def numberedEngine (version : Nat) : PolicyEngine where
  policy := { version := version }
  contentHash := contentHash (versionFile version)
  raw := versionFile version

theorem loadBytes_numbered {version : Nat} (digit : version < 10)
    : loadBytes numbered (versionFile version) = .ok (numberedEngine version) := by
  have parsed : numbered.parse (versionFile version) = .ok { version := version } := by
    interval_cases version <;> rfl
  unfold loadBytes
  rw [parsed]
  rfl

/-- Two recorded versions, and the snapshot of the first one overwritten with the second. -/
def overwritten : PolicyState where
  engine := numberedEngine 2
  versions version :=
    if version = 1 then some ⟨1, (numberedEngine 1).contentHash, "startup"⟩
    else if version = 2 then some ⟨2, (numberedEngine 2).contentHash, "operator"⟩
    else none
  snapshots _ := some (numberedEngine 2).raw
  activations := []

/-- A rollback to the first version activates the second one again. -/
theorem overwritten_snapshot_activates_other_version : ¬ ActivatesExactly numbered overwritten 1 := by
  intro exactly
  rcases exactly.consistent rfl (loadBytes_numbered (by decide)) with named | ⟨unrecorded, _⟩
  · cases named
  · exact unrecorded ⟨_, rfl, rfl⟩

end PolicyVersions

end SecureMcp
