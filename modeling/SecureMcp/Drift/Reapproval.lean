import SecureMcp.Drift.FailClosed
import SecureMcp.Library.Interleaving

/-! Checks and approvals at once: each reads rows, decides on its copy while it writes audit rows, and
commits the columns that it changed, whatever has been committed since it read.
-/

namespace SecureMcp

open Interaction

namespace DriftDetector

section

variable {runtime : Runtime} {serverId toolName approvedBy : String}

theorem reports_approvedWrites {α : Type} {condition : Bool} {flagged entry : AuditEntry}
    {next : Nat → Async α} {events : List (Event Reply)} {outcome : Except Exn α}
    (exec : (do
        AuditWriter.writeIf condition flagged
        let seq ← AuditWriter.write entry
        next seq : Async α).run.Exec events outcome)
    : (∃ exn, outcome = .error exn ∧ ∀ event ∈ events, auditKind.report event)
      ∨ ∃ writes rest seq,
          events = writes ++ rest
          ∧ (∀ event ∈ writes, auditKind.report event)
          ∧ (next seq).run.Exec rest outcome := by
  have written {last : AuditEntry} {events : List (Event Reply)} {result : Except Exn Nat}
      (exec : (AuditWriter.write last).run.Exec events result)
      : ∀ event ∈ events, auditKind.report event := by
    obtain ⟨reply, rfl, _⟩ := Coroutine.exec_demand_iff.mp exec
    intro event member
    exact ⟨last, reply, List.mem_singleton.mp member⟩
  have flaggedWrites {events : List (Event Reply)} {result : Except Exn Unit}
      (exec : (AuditWriter.writeIf condition flagged).run.Exec events result)
      : ∀ event ∈ events, auditKind.report event := by
    unfold AuditWriter.writeIf at exec
    cases condition with
    | false =>
        obtain ⟨rfl, _⟩ := Program.exec_done_iff.mp exec
        simp
    | true =>
        rw [if_pos rfl, Coroutine.run_bind] at exec
        obtain ⟨first, second, reply, rfl, writing, ended⟩ := Program.exec_bind_iff.mp exec
        have none : second = [] := by
          cases reply <;> exact (Program.exec_done_iff.mp ended).1
        rw [none, List.append_nil]
        exact written writing
  rw [Coroutine.run_bind] at exec
  obtain ⟨first, second, flag, rfl, flagging, exec⟩ := Program.exec_bind_iff.mp exec
  cases flag with
  | error exn =>
      obtain ⟨rfl, rfl⟩ := Program.exec_done_iff.mp exec
      exact Or.inl ⟨exn, rfl, by simpa using flaggedWrites flagging⟩
  | ok _ =>
      rw [Coroutine.run_bind] at exec
      obtain ⟨one, two, seq, rfl, writing, exec⟩ := Program.exec_bind_iff.mp exec
      have both : ∀ event ∈ first ++ one, auditKind.report event := fun event member =>
        (List.mem_append.mp member).elim (flaggedWrites flagging event) (written writing event)
      cases seq with
      | error exn =>
          obtain ⟨rfl, rfl⟩ := Program.exec_done_iff.mp exec
          exact Or.inl ⟨exn, rfl, by simpa using both⟩
      | ok seq => exact Or.inr ⟨first ++ one, two, seq, (List.append_assoc _ _ _).symm, both, exec⟩

/-- Every execution of an approval: it commits nothing, or it commits the promotion of the observed
schema that it read.
-/
theorem exec_approve {events : List (Event Reply)} {outcome : Except Exn Nat}
    (exec : (approve runtime serverId toolName approvedBy).run.Exec events outcome)
    : (∃ reply writes,
        events = ⟨.selectBaseline serverId toolName, reply⟩ :: writes
        ∧ ∀ event ∈ writes, auditKind.report event)
      ∨ ∃ read observed newHash writes reply,
          events = ⟨.selectBaseline serverId toolName, .ok (some read)⟩
            :: (writes ++ [⟨.commit [.update (read.diff (read.promoted observed newHash
              (!(scanDescriptions runtime observed).isEmpty)))], reply⟩])
          ∧ (∀ event ∈ writes, auditKind.report event)
          ∧ read.observedSchema = some observed
          ∧ promotedHash read observed = .ok newHash := by
  obtain ⟨reply, rest, rfl, ⟨found, answered, deciding⟩ | ⟨_, _, rfl, _⟩⟩ :=
    Coroutine.exec_demand_bind exec
  swap
  · exact Or.inl ⟨reply, [], rfl, by simp⟩
  cases found with
  | none =>
      obtain ⟨rfl, _⟩ := Program.exec_done_iff.mp deciding
      exact Or.inl ⟨reply, [], rfl, by simp⟩
  | some read =>
      cases (answered : reply = _)
      dsimp only at deciding
      cases pending : read.observedSchema with
      | none =>
          rw [pending] at deciding
          obtain ⟨rfl, _⟩ := Program.exec_done_iff.mp deciding
          exact Or.inl ⟨_, [], rfl, by simp⟩
      | some observed =>
          rw [pending] at deciding
          dsimp only at deciding
          cases hashed : promotedHash read observed with
          | error exn =>
              rw [hashed, Coroutine.ofExcept_error_bind] at deciding
              obtain ⟨rfl, _⟩ := Program.exec_done_iff.mp deciding
              exact Or.inl ⟨_, [], rfl, by simp⟩
          | ok newHash =>
              rw [hashed, Coroutine.ofExcept_ok_bind] at deciding
              rcases reports_approvedWrites deciding with ⟨_, _, writes⟩ |
                ⟨writes, last, seq, rfl, reports, committing⟩
              · exact Or.inl ⟨_, rest, rfl, writes⟩
              · obtain ⟨committed, after, rfl, ended⟩ := Coroutine.exec_demand_bind committing
                have none : after = [] := by
                  rcases ended with ⟨_, _, done⟩ | ⟨_, _, empty, _⟩
                  · exact (Program.exec_done_iff.mp done).1
                  · exact empty
                subst none
                exact Or.inr ⟨read, observed, newHash, writes, committed, rfl, reports, pending, hashed⟩

end

end DriftDetector

-----------------------------------------------------------------------------------------
-- Runs
-----------------------------------------------------------------------------------------

inductive DriftRequest
  | check (serverId : String) (tools : List Tool) (identityId : String)
  | approve (serverId toolName approvedBy : String)

def DriftRequest.program (runtime : Runtime) : DriftRequest → Program Call Reply Unit
  | .check serverId tools identityId =>
      (DriftDetector.check runtime serverId tools identityId).run.bind (fun _ => .done ())
  | .approve serverId toolName approvedBy =>
      (DriftDetector.approve runtime serverId toolName approvedBy).run.bind (fun _ => .done ())

/-- Concurrent checks and approvals of any tools, and all of their events. -/
structure DriftRun (ι : Type) where
  request : ι → DriftRequest
  trace : List (Stamped ι Reply)

namespace DriftRun

variable {ι : Type}

/-- The table of baselines, empty at first, after some steps. -/
abbrev Leaves (past : List (Stamped ι Reply)) (table : BaselineTable) : Prop :=
  Machine.Run (fun table step after => BaselineTable.Serves table step.event after) [] past table

def Commits (step : Stamped ι Reply) : Prop :=
  ∃ changes, step.event = ⟨.commit changes, .ok ()⟩

/-- A check of a server that commits, with the list that it has seen. -/
def ChecksIn (run : DriftRun ι) (serverId : String) (step : Stamped ι Reply) (tools : List Tool)
    : Prop :=
  Commits step ∧ ∃ identityId, run.request step.thread = .check serverId tools identityId

/-- (LastCheck run serverId past tools) means that `tools` is what the check of a server has seen
that committed last.
-/
def LastCheck (run : DriftRun ι) (serverId : String) (past : List (Stamped ι Reply))
    (tools : List Tool)
    : Prop :=
  ∃ before step after,
    past = before ++ step :: after
    ∧ run.ChecksIn serverId step tools
    ∧ ∀ later ∈ after, ∀ others, ¬ run.ChecksIn serverId later others

/-- A definition of a tool that a check of the run sees. -/
def Lists (run : DriftRun ι) (serverId toolName : String) (tool : Tool) : Prop :=
  ∃ thread tools identityId,
    run.request thread = .check serverId tools identityId
    ∧ (toolName, tool) ∈ DriftDetector.liveTools tools

variable [DecidableEq ι]

/-- A run of the requests' programs over one table. -/
structure Proper (runtime : Runtime) (run : DriftRun ι) : Prop where
  underWay : ∀ thread, ∃ later,
    ((run.request thread).program runtime).Exec (eventsOf thread run.trace ++ later) ()
  served : ∃ final, Leaves run.trace final

/-- When the check that committed last saw a tool in a definition that differs from the approved one
by a severity that blocks, then the tool is blocked.
-/
def NewerDriftBlocks (runtime : Runtime) (run : DriftRun ι) (serverId toolName : String) : Prop :=
  ∀ past rest table tools tool row read,
    run.trace = past ++ rest
    → Leaves past table
    → run.LastCheck serverId past tools
    → (toolName, tool) ∈ DriftDetector.liveTools tools
    → table.row? serverId toolName = some row
    → row.ReadBack read
    → DriftDetector.SeverelyDrifted runtime.settings read tool
    → row.blocked

/-- Whether a step reads the row of a tool. -/
def ReadsRow (serverId toolName : String) (event : Event Reply) : Prop :=
  event.call = .selectBaselines serverId ∨ event.call = .selectBaseline serverId toolName

/-- No transaction that has read the row of a tool commits when the row is not as it was any more. -/
def Undisturbed (run : DriftRun ι) (serverId toolName : String) : Prop :=
  ∀ before reading between step rest earlier now,
    run.trace = (before ++ reading :: between) ++ step :: rest
    → reading.thread = step.thread
    → ReadsRow serverId toolName reading.event
    → Commits step
    → Leaves before earlier
    → Leaves (before ++ reading :: between) now
    → now.row? serverId toolName = earlier.row? serverId toolName

/-- No two definitions of a tool that are listed have one hash, and differ from a baseline that the
run stores by severities of which only one blocks.
-/
def JudgedAlike (runtime : Runtime) (run : DriftRun ι) (serverId toolName : String) : Prop :=
  ∀ past rest table row read other tool same hash severity another,
    run.trace = past ++ rest
    → Leaves past table
    → table.row? serverId toolName = some row
    → row.approvedSchema.ReadBack read
    → row.approvedSchema.ReadBack other
    → run.Lists serverId toolName tool
    → run.Lists serverId toolName same
    → DriftDetector.toolHash tool = .ok hash
    → DriftDetector.toolHash same = .ok hash
    → DriftDetector.classify runtime.settings read tool = .ok severity
    → DriftDetector.classify runtime.settings other same = .ok another
    → (severity.getD .high).blocks = (another.getD .high).blocks

section

variable {runtime : Runtime} {run : DriftRun ι} {past rest : List (Stamped ι Reply)}
  {step : Stamped ι Reply} {table : BaselineTable}

omit [DecidableEq ι] in
theorem Leaves.distinct (leaves : Leaves past table) : table.Distinct :=
  Machine.Run.invariant BaselineTable.Distinct leaves List.nodup_nil
    (fun _ _ _ distinct served => distinct.serves served)

-----------------------------------------------------------------------------------------
-- What a transaction has read
-----------------------------------------------------------------------------------------

def IsCommit : Call → Prop
  | .commit _ => True
  | _ => False

theorem not_isCommit_of_report {event : Event Reply} (report : auditKind.report event)
    : ¬ IsCommit event.call := by
  obtain ⟨entry, reply, rfl⟩ := report
  exact not_false

/-- The one commit of a program, after a query and audit rows. -/
theorem place_of_commit {first writes more : List (Event Reply)} {query commit : Event Reply}
    {changes : List BaselineChange} {reply : Except Exn Unit}
    (same : first ++ ⟨.commit changes, reply⟩ :: more = query :: (writes ++ [commit]))
    (queries : ¬ IsCommit query.call) (reports : ∀ event ∈ writes, auditKind.report event)
    : first = query :: writes ∧ commit = ⟨.commit changes, reply⟩ := by
  have quiet : ∀ event ∈ query :: writes, ¬ IsCommit event.call := by
    intro event member
    rcases List.mem_cons.mp member with rfl | later
    · exact queries
    · exact not_isCommit_of_report (reports event later)
  obtain ⟨early, here, _⟩ := same_of_only (fun event : Event Reply => IsCommit event.call)
    (same.trans (List.cons_append).symm) trivial quiet (by simp)
  exact ⟨early, here.symm⟩

/-- A program that only asks and reports commits nothing. -/
theorem no_commit {first writes more : List (Event Reply)} {query : Event Reply}
    {changes : List BaselineChange} {reply : Except Exn Unit}
    (same : first ++ ⟨.commit changes, reply⟩ :: more = query :: writes)
    (queries : ¬ IsCommit query.call) (reports : ∀ event ∈ writes, auditKind.report event)
    : False := by
  have member : ⟨.commit changes, reply⟩ ∈ query :: writes := by
    rw [← same]
    simp
  rcases List.mem_cons.mp member with rfl | later
  · exact queries trivial
  · exact not_isCommit_of_report (reports _ later) trivial

/-- What a check commits is what it decided over the rows that it has read. -/
theorem changes_of_check {first more : List (Event Reply)} {changes : List BaselineChange}
    {serverId identityId : String} {tools : List Tool}
    (exec : ((DriftRequest.check serverId tools identityId).program runtime).Exec
      (first ++ ⟨.commit changes, .ok ()⟩ :: more) ())
    : ∃ rows writes swept,
        first = ⟨.selectBaselines serverId, .ok rows⟩ :: writes
        ∧ changes = DriftDetector.Sweep.changes rows swept
        ∧ DriftDetector.judge runtime serverId (DriftDetector.liveTools tools) rows = .ok swept := by
  obtain ⟨events, second, outcome, split, checking, ended⟩ := Program.exec_bind_iff.mp exec
  obtain ⟨rfl, _⟩ := Program.exec_done_iff.mp ended
  rw [List.append_nil] at split
  subst split
  rcases DriftDetector.exec_check checking with ⟨exn, same, _⟩ | ⟨rows, writes, reports,
    ⟨same, _⟩ | ⟨swept, reply, same, _, judged, _⟩⟩
  · exact (no_commit same not_false (by simp)).elim
  · exact (no_commit same not_false reports).elim
  · obtain ⟨early, here⟩ := place_of_commit same not_false reports
    cases here
    exact ⟨rows, writes, swept, early, rfl, judged⟩

/-- What an approval commits is the promotion of the row that it has read. -/
theorem changes_of_approve {first more : List (Event Reply)} {changes : List BaselineChange}
    {serverId toolName approvedBy : String}
    (exec : ((DriftRequest.approve serverId toolName approvedBy).program runtime).Exec
      (first ++ ⟨.commit changes, .ok ()⟩ :: more) ())
    : ∃ read observed newHash suspicious writes,
        first = ⟨.selectBaseline serverId toolName, .ok (some read)⟩ :: writes
        ∧ read.observedSchema = some observed
        ∧ DriftDetector.promotedHash read observed = .ok newHash
        ∧ changes = [.update (read.diff (read.promoted observed newHash suspicious))] := by
  obtain ⟨events, second, outcome, split, approving, ended⟩ := Program.exec_bind_iff.mp exec
  obtain ⟨rfl, _⟩ := Program.exec_done_iff.mp ended
  rw [List.append_nil] at split
  subst split
  rcases DriftDetector.exec_approve approving with ⟨reply, writes, same, reports⟩ |
    ⟨read, observed, newHash, writes, reply, same, reports, pending, hashed⟩
  · exact (no_commit same not_false reports).elim
  · obtain ⟨early, here⟩ := place_of_commit same not_false reports
    cases here
    exact ⟨read, observed, newHash, _, writes, early, pending, hashed, rfl⟩

theorem Proper.exec_of_step (proper : run.Proper runtime) (whole : run.trace = past ++ step :: rest)
    : ∃ more,
        ((run.request step.thread).program runtime).Exec
          (eventsOf step.thread past ++ step.event :: more) () := by
  obtain ⟨later, exec⟩ := proper.underWay step.thread
  rw [whole, eventsOf_append_cons, List.append_assoc] at exec
  exact ⟨_, exec⟩

/-- A check that commits has read the rows of its server, and commits what it decided over them. -/
theorem Proper.check_of_commit (proper : run.Proper runtime)
    (whole : run.trace = past ++ step :: rest) {changes : List BaselineChange}
    (commits : step.event = ⟨.commit changes, .ok ()⟩) {serverId identityId : String}
    {tools : List Tool} (request : run.request step.thread = .check serverId tools identityId)
    : ∃ before reading between rows swept,
        past = before ++ reading :: between
        ∧ reading.thread = step.thread
        ∧ reading.event = ⟨.selectBaselines serverId, .ok rows⟩
        ∧ changes = DriftDetector.Sweep.changes rows swept
        ∧ DriftDetector.judge runtime serverId (DriftDetector.liveTools tools) rows = .ok swept := by
  obtain ⟨more, exec⟩ := proper.exec_of_step whole
  rw [commits, request] at exec
  obtain ⟨rows, writes, swept, early, decided, judged⟩ := changes_of_check exec
  obtain ⟨before, reading, between, there, thread, reads, _⟩ := split_of_eventsOf_cons early
  exact ⟨before, reading, between, rows, swept, there, thread, reads, decided, judged⟩

/-- An approval that commits has read the row of its tool, and commits the promotion of it. -/
theorem Proper.approve_of_commit (proper : run.Proper runtime)
    (whole : run.trace = past ++ step :: rest) {changes : List BaselineChange}
    (commits : step.event = ⟨.commit changes, .ok ()⟩) {serverId toolName approvedBy : String}
    (request : run.request step.thread = .approve serverId toolName approvedBy)
    : ∃ before reading between read observed newHash suspicious,
        past = before ++ reading :: between
        ∧ reading.thread = step.thread
        ∧ reading.event = ⟨.selectBaseline serverId toolName, .ok (some read)⟩
        ∧ read.observedSchema = some observed
        ∧ DriftDetector.promotedHash read observed = .ok newHash
        ∧ changes = [.update (read.diff (read.promoted observed newHash suspicious))] := by
  obtain ⟨more, exec⟩ := proper.exec_of_step whole
  rw [commits, request] at exec
  obtain ⟨read, observed, newHash, suspicious, writes, early, pending, hashed, decided⟩ :=
    changes_of_approve exec
  obtain ⟨before, reading, between, there, thread, reads, _⟩ := split_of_eventsOf_cons early
  exact ⟨before, reading, between, read, observed, newHash, suspicious, there, thread, reads,
    pending, hashed, decided⟩

end

end DriftRun

end SecureMcp
