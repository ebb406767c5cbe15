import SecureMcp.Drift.NewerDrift
import SecureMcp.Interceptor.Recorded
import SecureMcp.Interceptor.RepeatedNames
import SecureMcp.Interceptor.StageOrder

/-! A call beside the drift checks that run while it is decided, its own re-fetch among them. The
status of its tool is looked up once, so that a block which is found later does not stop the call.
-/

namespace SecureMcp

open Interaction

namespace DriftDetector

section

variable {runtime : Runtime} {serverId name : String} {tools : List Tool}
  {table after : BaselineTable} {rows : List ToolBaseline} {swept : Sweep}
  {row read now : ToolBaseline}

/-- A change that does not newly block a row leaves it unblocked. -/
theorem blocked_apply_diff (kept : row.blocked = false)
    (old : now.blocked = true → read.blocked = true)
    : ((read.diff now).apply row).blocked = false := by
  change (ToolBaseline.changed read.blocked now.blocked).getD row.blocked = false
  rw [kept]
  cases status : now.blocked with
  | true =>
      rw [old status]
      rfl
  | false => cases read.blocked <;> rfl

theorem unblocked_iff
    : table.blocked serverId name = false
      ↔ ∀ row, table.row? serverId name = some row → row.blocked = false := by
  unfold BaselineTable.blocked
  cases table.row? serverId name <;> simp

/-- (LeavesClear runtime tools rows name) means that a check of the list over the rows does not leave
the tool of a name blocked.
-/
def LeavesClear (runtime : Runtime) (tools : List Tool) (rows : List ToolBaseline) (name : String)
    : Prop :=
  ∀ last,
    (name, last) ∈ liveTools tools → ¬ LeavesBlocked runtime.settings (liveTools tools) rows last

/-- The row of a first sighting is not blocked. -/
theorem LeavesClear.added (clears : LeavesClear runtime tools rows row.toolName)
    (verdict : Verdict runtime serverId (liveTools tools) rows swept) (member : row ∈ swept.added)
    : row.blocked = false := by
  obtain ⟨unknown, tool, live, sighted⟩ := verdict.added row member
  obtain ⟨_, same⟩ := of_mem_liveTools live
  obtain ⟨_, source, _, searched, fresh⟩ := sighted
  rw [← same] at unknown
  cases source with
  | none => rw [fresh]; rfl
  | some source =>
      refine absurd ?_ (clears tool live)
      unfold LeavesBlocked
      rw [unknown]
      exact ⟨source, searched⟩

/-- A row that was read is blocked after the sweep only if it has been read so. -/
theorem LeavesClear.settled (clears : LeavesClear runtime tools rows name)
    (verdict : Verdict runtime serverId (liveTools tools) rows swept)
    (known : named rows name = some read)
    : ((swept.row? name).getD read).blocked = true → read.blocked = true := by
  by_cases present : name ∈ Dict.keys (liveTools tools)
  · obtain ⟨⟨_, tool⟩, live, rfl⟩ := List.mem_map.mp present
    dsimp only at known clears
    obtain ⟨now, settled, stored⟩ := verdict.settled _ tool read live known
    have found : swept.row? _ = some now := stored
    obtain ⟨_, same⟩ := of_mem_liveTools live
    rw [← same] at known
    obtain ⟨_, _, blocks, _⟩ := settleTool_row (liveTools tools) known settled
    intro blocked
    rw [found] at blocked
    exact absurd (blocks.mp blocked) (clears tool live)
  · obtain ⟨now, removed, stored⟩ := verdict.gone name read present known
    have found : swept.row? name = some now := stored
    rw [found, Option.getD_some]
    intro blocked
    rcases removed with rfl | rfl
    · exact blocked
    · unfold settleRemoved at blocked
      split at blocked <;> exact blocked

/-- A check that does not leave a tool blocked does not block it, whatever has been committed since it
has read the rows.
-/
theorem LeavesClear.committed (clears : LeavesClear runtime tools rows name)
    (names : (rows.map ToolBaseline.toolName).Nodup)
    (server : ∀ row ∈ rows, row.serverId = serverId)
    (judged : judge runtime serverId (liveTools tools) rows = .ok swept)
    (applied : table.applyChanges (swept.changes rows) = some after)
    (unblocked : table.blocked serverId name = false)
    : after.blocked serverId name = false := by
  have verdict := verdict_of_judge (Dict.nodup_ofPairs _) judged
  have added : ∀ row ∈ swept.added, row.serverId = serverId := by
    intro row member
    obtain ⟨_, tool, _, sighted⟩ := verdict.added row member
    exact sighted.serverId
  rw [unblocked_iff] at unblocked ⊢
  intro row stored
  rw [row?_changes names server added applied, if_pos rfl] at stored
  obtain ⟨before, there, rfl⟩ := Option.map_eq_some_iff.mp stored
  have status : before.blocked = false := by
    rcases Option.or_eq_some_iff.mp there with present | ⟨_, first⟩
    · exact unblocked before present
    · have called : before.toolName = name := Keyed.find_key first
      exact LeavesClear.added (called.symm ▸ clears) verdict (Keyed.find_mem first)
  cases known : named rows name with
  | none => exact status
  | some read =>
      have called : read.toolName = name := Keyed.find_key known
      dsimp only
      rw [called]
      exact blocked_apply_diff status (clears.settled verdict known)

/-- An approval blocks nothing. -/
theorem unblocked_of_promotion {observed : Tool} {newHash : String} {suspicious : Bool}
    (server : String)
    (applied : table.applyChanges
      [.update (read.diff (read.promoted observed newHash suspicious))] = some after)
    (unblocked : table.blocked server name = false)
    : after.blocked server name = false := by
  cases applied
  rw [unblocked_iff] at unblocked ⊢
  intro row stored
  rw [BaselineTable.row?_applyTo] at stored
  obtain ⟨before, there, rfl⟩ := Option.map_eq_some_iff.mp stored
  unfold BaselineUpdate.applyTo
  split
  · exact blocked_apply_diff (unblocked before there) (fun blocked => nomatch blocked)
  · exact unblocked before there

/-- A check of one server changes nothing of another one. -/
theorem blocked_of_other {server : String} (names : (rows.map ToolBaseline.toolName).Nodup)
    (own : ∀ row ∈ rows, row.serverId = serverId) (differs : server ≠ serverId)
    (judged : judge runtime serverId (liveTools tools) rows = .ok swept)
    (applied : table.applyChanges (swept.changes rows) = some after)
    : after.blocked server name = table.blocked server name := by
  have added : ∀ row ∈ swept.added, row.serverId = serverId := by
    intro row member
    obtain ⟨_, tool, _, sighted⟩ :=
      (verdict_of_judge (Dict.nodup_ofPairs _) judged).added row member
    exact sighted.serverId
  unfold BaselineTable.blocked
  rw [row?_changes names own added applied, if_neg differs]

end

end DriftDetector

-----------------------------------------------------------------------------------------
-- What a call commits
-----------------------------------------------------------------------------------------

namespace Interceptor

open Coroutine DriftDetector
open DriftRun (IsCommit)

section

variable {runtime : Runtime} {session : Session} {requestId : RequestId} {params : Option Params}
  {call : ToolCall} {toolName : String} {events : List (Event Reply)}

/-- (Relists … events changes) means that the events of a call are those of a check of a list that it
has fetched, and that the check has decided on these changes.
-/
structure Relists (runtime : Runtime) (session : Session) (events : List (Event Reply))
    (changes : List BaselineChange) (tools : List Tool) (rows : List ToolBaseline)
    : Prop where
  listed : ∃ result, ⟨.listTools, .ok result⟩ ∈ events ∧ listedTools result = .ok tools
  read : ⟨.selectBaselines session.serverId, .ok rows⟩ ∈ events
  judged : ∃ swept,
    judge runtime session.serverId (liveTools tools) rows = .ok swept
    ∧ changes = swept.changes rows

theorem Relists.mono {changes : List BaselineChange} {tools : List Tool} {rows : List ToolBaseline}
    {others : List (Event Reply)} (relists : Relists runtime session events changes tools rows)
    (within : events ⊆ others)
    : Relists runtime session others changes tools rows := by
  obtain ⟨⟨result, fetched, listed⟩, read, judged⟩ := relists
  exact ⟨⟨result, within fetched, listed⟩, within read, judged⟩

/-- A re-fetch commits what its check has decided over the list that it has fetched. -/
theorem relists_of_refetchTools {fetched : Except Exn (Option (List Tool))}
    {changes : List BaselineChange} {reply : Except Exn Unit}
    (exec : (refetchTools runtime session).run.Exec events fetched)
    (committed : ⟨.commit changes, reply⟩ ∈ events)
    : ∃ tools rows, Relists runtime session events changes tools rows := by
  obtain ⟨asked, rest, ended, rfl, fetching, last⟩ := exec_attempt_bind_iff.mp exec
  obtain ⟨rfl, _⟩ := Program.exec_done_iff.mp last
  rw [List.append_nil] at committed ⊢
  obtain ⟨listing, more, rfl, ⟨result, rfl, checking⟩ | ⟨_, _, rfl, _⟩⟩ := exec_demand_bind fetching
  swap
  · cases List.mem_singleton.mp committed
  cases listed : listedTools result with
  | error exn =>
      rw [listed, ofExcept_error_bind] at checking
      obtain ⟨rfl, _⟩ := Program.exec_done_iff.mp checking
      cases List.mem_singleton.mp committed
  | ok tools =>
      rw [listed, ofExcept_ok_bind, run_bind] at checking
      obtain ⟨checked, put, outcome, rfl, check, putting⟩ := Program.exec_bind_iff.mp checking
      have quiet : ∀ event ∈ put, ¬ IsCommit event.call := by
        cases outcome with
        | error exn =>
            obtain ⟨rfl, _⟩ := Program.exec_done_iff.mp putting
            simp
        | ok _ =>
            refine @Program.Exec.asks _ _ _ (fun asked => ¬ IsCommit asked) _ _ _ putting ?_
            exact asks_bind (asks_demand _ not_false) (fun _ => asks_pure _)
      have member : ⟨.commit changes, reply⟩ ∈ checked := by
        rcases List.mem_cons.mp committed with impossible | later
        · cases impossible
        · rcases List.mem_append.mp later with here | after
          · exact here
          · exact absurd trivial (quiet _ after)
      rcases exec_check check with ⟨_, rfl, _⟩ | ⟨rows, writes, reports, ⟨rfl, _⟩ |
        ⟨swept, answered, rfl, _, judged, _⟩⟩
      · cases List.mem_singleton.mp member
      · rcases List.mem_cons.mp member with impossible | later
        · cases impossible
        · exact absurd trivial (DriftRun.not_isCommit_of_report (reports _ later))
      · refine ⟨tools, rows, ⟨result, List.mem_cons_self, listed⟩, by simp, swept, judged, ?_⟩
        rcases List.mem_cons.mp member with impossible | later
        · cases impossible
        · rcases List.mem_append.mp later with written | last
          · exact absurd trivial (DriftRun.not_isCommit_of_report (reports _ written))
          · cases List.mem_singleton.mp last
            rfl

/-- No stage but validation commits anything. -/
theorem permits_noCommit : Permits (fun asked => ¬ IsCommit asked) call where
  engine := not_false
  time := not_false
  utcHour := not_false
  setNonce _ _ := not_false
  problem _ _ := not_false
  isBlocked := not_false
  redeemChallenge _ _ _ _ _ := not_false
  redeemApproval _ _ _ := not_false

/-- A lookup of a schema commits what the check of its re-fetch has decided. -/
theorem relists_of_validationStage {changes : List BaselineChange} {reply : Except Exn Unit}
    (exec : (validationStage runtime session call).run.Exec events (.ok ()))
    (committed : ⟨.commit changes, reply⟩ ∈ events)
    : ∃ tools rows, Relists runtime session events changes tools rows := by
  obtain ⟨schema, found, _⟩ := exec_validationStage_ok exec
  obtain ⟨answer, rest, rfl, ⟨cached, rfl, looking⟩ | ⟨_, _, rfl, _⟩⟩ := exec_demand_bind found
  swap
  · cases List.mem_singleton.mp committed
  have later : ⟨.commit changes, reply⟩ ∈ rest := by
    rcases List.mem_cons.mp committed with impossible | later
    · cases impossible
    · exact later
  cases cached with
  | some tools =>
      obtain ⟨rfl, _⟩ := Program.exec_done_iff.mp looking
      cases later
  | none =>
      obtain ⟨asked, more, refetched, rfl, fetching, ended⟩ := exec_bind_ok_iff.mp looking
      have empty : more = [] := by
        cases refetched <;> exact (Program.exec_done_iff.mp ended).1
      subst empty
      rw [List.append_nil] at later ⊢
      obtain ⟨tools, rows, relists⟩ := relists_of_refetchTools fetching later
      exact ⟨tools, rows, relists.mono (List.subset_cons_self _ _)⟩

/-- A forwarded call commits what the check of its re-fetch has decided, and nothing else. -/
theorem relists_of_forward {forwarded : ClientMessage} {changes : List BaselineChange}
    {reply : Except Exn Unit}
    (exec : (onClientMessage runtime session (.request requestId "tools/call" params)).run.Exec
      events (.ok (.forward forwarded)))
    (committed : ⟨.commit changes, reply⟩ ∈ events)
    : ∃ tools rows, Relists runtime session events changes tools rows := by
  obtain ⟨rest, rfl, passed⟩ := passed_of_forward exec
  have noCommit {α : Type} {stage : Stage α} {value : α} {asked : List (Event Reply)}
      (settles : Settles (fun asked => ¬ IsCommit asked) Quietly
        (Answers (toolCallOf session requestId (params.getD []))) stage)
      (ran : stage.run.Exec asked (.ok value))
      : ⟨.commit changes, reply⟩ ∉ asked :=
    fun member => Settles.quiet_of_ok settles ran _ member trivial
  cases passed with
  | intro normalized _ replayPassed rbacPassed attributesBound conditionsHeld driftPassed _
      challengePassed _ riskPassed validationPassed allowRecorded =>
      subst normalized
      obtain ⟨_, _, rfl⟩ := exec_allowStage_ok allowRecorded
      have one := noCommit (settles_replayStage permits_noCommit _ _ _) replayPassed
      have two := noCommit (settles_rbacStage permits_noCommit) rbacPassed
      have three := noCommit (settles_conditionAttributes permits_noCommit _ _ _ _) attributesBound
      have four := noCommit (settles_enforceConditions permits_noCommit _ _ _ _) conditionsHeld
      have five := noCommit (settles_driftStage permits_noCommit) driftPassed
      have six := noCommit (settles_challengeStage permits_noCommit _ _ _) challengePassed
      have seven := noCommit (settles_riskStage permits_noCommit (fun _ => not_false) _ _ _ _)
        riskPassed
      have member := committed
      simp only [List.mem_cons, List.mem_append, one, two, three, four, five, six, seven,
        List.not_mem_nil, or_false, false_or, Event.mk.injEq, reduceCtorEq, false_and] at member
      obtain ⟨tools, rows, relists⟩ := relists_of_validationStage validationPassed member
      exact ⟨tools, rows, relists.mono (by intro event; simp +contextual)⟩

end

end Interceptor

-----------------------------------------------------------------------------------------
-- Runs
-----------------------------------------------------------------------------------------

/-- A tool call that is decided beside any checks and approvals, and all of their events. The steps of
the call have no thread of the others.
-/
structure GuardedRun (ι : Type) where
  session : Interceptor.Session
  requestId : RequestId
  params : Option Interceptor.Params
  beside : ι → DriftRequest
  start : BaselineTable
  trace : List (Stamped (Option ι) Reply)

namespace GuardedRun

open DriftDetector Interceptor
open DriftRun (IsCommit)

variable {ι : Type}

/-- The table of baselines after some steps. -/
abbrev Leaves (run : GuardedRun ι) (past : List (Stamped (Option ι) Reply)) (table : BaselineTable)
    : Prop :=
  Machine.Run (fun table step after => BaselineTable.Serves table step.event after) run.start past
    table

def toolName (run : GuardedRun ι) : String :=
  toolNameOf (run.params.getD [])

variable [DecidableEq ι]

/-- The call is forwarded, and the other requests have got as far as their events, over one table. -/
structure Proper (runtime : Runtime) (run : GuardedRun ι) : Prop where
  distinct : run.start.Distinct
  forwarded : ∃ message,
    (onClientMessage runtime run.session
      (.request run.requestId "tools/call" run.params)).run.Exec (eventsOf none run.trace)
        (.ok (.forward message))
  underWay : ∀ thread, ∃ later,
    ((run.beside thread).program runtime).Exec (eventsOf (some thread) run.trace ++ later) ()
  served : ∃ final, run.Leaves run.trace final

/-- (run.Checks thread tools rows) means that a thread checks a list of the session's server over the
rows that it has read: the call, if it has fetched the list, or a check beside it.
-/
def Checks (run : GuardedRun ι) (thread : Option ι) (tools : List Tool) (rows : List ToolBaseline)
    : Prop :=
  ⟨.selectBaselines run.session.serverId, .ok rows⟩ ∈ eventsOf thread run.trace
  ∧ thread.elim
      (∃ result, ⟨.listTools, .ok result⟩ ∈ eventsOf none run.trace ∧ listedTools result = .ok tools)
      (fun other => ∃ identityId, run.beside other = .check run.session.serverId tools identityId)

/-- A step of the call that records it as allowed. -/
def Allows (step : Stamped (Option ι) Reply) : Prop :=
  step.thread = none
  ∧ ∃ entry seq, step.event = ⟨.write entry, .ok seq⟩ ∧ entry.eventType = .allow

/-- No check that commits between the lookup of the status and the ALLOW row leaves the tool blocked.
-/
def ClearMeanwhile (runtime : Runtime) (run : GuardedRun ι) : Prop :=
  ∀ before looking between step rest,
    run.trace = before ++ looking :: (between ++ step :: rest)
    → looking.thread = none
    → looking.event.call = .isBlocked run.session.serverId run.toolName
    → Allows step
    → ∀ checking ∈ between, ∀ changes tools rows,
        checking.event = ⟨.commit changes, .ok ()⟩
        → run.Checks checking.thread tools rows
        → LeavesClear runtime tools rows run.toolName

/-- The tool is not blocked when the ALLOW row is written. -/
def AllowedUnblocked (run : GuardedRun ι) : Prop :=
  ∀ past step rest table,
    run.trace = past ++ step :: rest
    → Allows step
    → run.Leaves past table
    → table.blocked run.session.serverId run.toolName = false

section

variable {runtime : Runtime} {run : GuardedRun ι} {past rest : List (Stamped (Option ι) Reply)}
  {step : Stamped (Option ι) Reply} {table after : BaselineTable}

omit [DecidableEq ι] in
theorem Leaves.distinct (leaves : run.Leaves past table) (distinct : run.start.Distinct)
    : table.Distinct :=
  Machine.Run.invariant BaselineTable.Distinct leaves distinct
    (fun _ _ _ distinct served => distinct.serves served)

/-- The rows that a step has read are those of the server, one of each name. -/
theorem Proper.rows_of_read (proper : run.Proper runtime) {thread : Option ι} {serverId : String}
    {rows : List ToolBaseline}
    (read : ⟨.selectBaselines serverId, .ok rows⟩ ∈ eventsOf thread run.trace)
    : (rows.map ToolBaseline.toolName).Nodup ∧ ∀ row ∈ rows, row.serverId = serverId := by
  obtain ⟨final, leaves⟩ := proper.served
  obtain ⟨reading, member, _, event⟩ := step_of_eventsOf read
  obtain ⟨before, rest, whole⟩ := List.append_of_mem member
  rw [whole] at leaves
  obtain ⟨earlier, first, later⟩ := leaves.split
  obtain ⟨next, served, _⟩ := later.head
  rw [event] at served
  exact ⟨served.2.distinct (Leaves.distinct first proper.distinct), served.2.server⟩

/-- What a step commits leaves the tool of the call unblocked, unless a check leaves it blocked. -/
theorem Proper.unblocked_step (proper : run.Proper runtime) (member : step ∈ run.trace)
    (served : table.Serves step.event after)
    (unblocked : table.blocked run.session.serverId run.toolName = false)
    (clears : ∀ changes tools rows,
      step.event = ⟨.commit changes, .ok ()⟩
      → run.Checks step.thread tools rows
      → LeavesClear runtime tools rows run.toolName)
    : after.blocked run.session.serverId run.toolName = false := by
  by_cases commits : DriftRun.Commits step
  swap
  · rw [DriftRun.kept_of_not_commits commits served]
    exact unblocked
  obtain ⟨changes, event⟩ := commits
  rw [event] at served
  have applied : table.applyChanges changes = some after := served
  have own := event_mem_eventsOf member
  rw [event] at own
  cases thread : step.thread with
  | none =>
      rw [thread] at clears own
      obtain ⟨message, exec⟩ := proper.forwarded
      obtain ⟨tools, rows, listed, read, swept, judged, rfl⟩ := relists_of_forward exec own
      obtain ⟨names, server⟩ := proper.rows_of_read read
      exact (clears _ tools rows event ⟨read, listed⟩).committed names server judged applied
        unblocked
  | some other =>
      rw [thread] at clears own
      obtain ⟨later, exec⟩ := proper.underWay other
      obtain ⟨first, more, early⟩ := List.append_of_mem own
      rw [early, List.append_assoc] at exec
      cases request : run.beside other with
      | approve serverId toolName approvedBy =>
          rw [request] at exec
          obtain ⟨read, observed, newHash, suspicious, writes, _, _, _, rfl⟩ :=
            DriftRun.changes_of_approve exec
          exact unblocked_of_promotion _ applied unblocked
      | check serverId tools identityId =>
          rw [request] at exec
          obtain ⟨rows, writes, swept, rfl, rfl, judged⟩ := DriftRun.changes_of_check exec
          have read : ⟨.selectBaselines serverId, .ok rows⟩ ∈ eventsOf (some other) run.trace := by
            rw [early]
            simp
          obtain ⟨names, server⟩ := proper.rows_of_read read
          by_cases same : run.session.serverId = serverId
          · subst same
            exact (clears _ tools rows event ⟨read, identityId, request⟩).committed names server
              judged applied unblocked
          · rw [blocked_of_other names server same judged applied]
            exact unblocked

/-- The status of the tool was looked up before the ALLOW row, and was clear. -/
theorem Proper.looked_up (proper : run.Proper runtime) (whole : run.trace = past ++ step :: rest)
    (allows : Allows step)
    : ⟨.isBlocked run.session.serverId run.toolName, .ok false⟩ ∈ eventsOf none past := by
  obtain ⟨message, exec⟩ := proper.forwarded
  obtain ⟨thread, entry, seq, event, kind⟩ := allows
  rw [whole, ← thread, eventsOf_append_cons, thread, event] at exec
  have inOrder : (Attempt.ofRequest runtime run.session run.requestId run.params).Recordable
      (eventsOf none past) entry :=
    exec.asksAfter (asks_inOrder runtime run.session run.requestId run.params)
  unfold Attempt.Recordable at inOrder
  split at inOrder
  · obtain ⟨_, _, _, _, unblocked, _⟩ := inOrder
    exact unblocked
  · unfold Attempt.InStage at inOrder
    rw [kind] at inOrder
    obtain ⟨⟨_, _, _, ⟨_, unblocked, _⟩, _⟩, _⟩ := inOrder
    exact unblocked

/-- No call is allowed on a tool that is blocked, in every interleaving with checks and approvals in
which no check that commits meanwhile leaves the tool blocked.
-/
theorem allowed_unblocked (proper : run.Proper runtime) (clear : run.ClearMeanwhile runtime)
    : run.AllowedUnblocked := by
  intro past step rest table whole allows leaves
  obtain ⟨first, more, early⟩ := List.append_of_mem (proper.looked_up whole allows)
  obtain ⟨before, looking, between, rfl, thread, event, _⟩ := split_of_eventsOf early
  obtain ⟨read, _, later⟩ := Machine.Run.split leaves
  obtain ⟨next, served, meanwhile⟩ := later.head
  rw [event] at served
  obtain ⟨rfl, clearly⟩ := served
  have apart : run.trace = before ++ looking :: (between ++ step :: rest) := by
    rw [whole, List.append_assoc, List.cons_append]
  refine Machine.Run.invariant
    (fun table => table.blocked run.session.serverId run.toolName = false) meanwhile.of_actions
    clearly.symm ?_
  intro table checking after unblocked taken
  obtain ⟨served, member⟩ := taken
  have inTrace : checking ∈ run.trace := by
    rw [apart]
    simp [member]
  exact proper.unblocked_step inTrace served unblocked
    (clear before looking between step rest apart thread (congrArg Event.call event) allows checking
      member)

end

-----------------------------------------------------------------------------------------
-- A re-fetch that blocks the tool, and one that does not
-----------------------------------------------------------------------------------------

/-- (Stores tools identityId table events after) means that the events are those of a check of the
mail server that stores what it has decided over the rows of the table.
-/
structure Stores (tools : List Tool) (identityId : String) (table : BaselineTable)
    (events : List (Event Reply)) (after : BaselineTable)
    : Prop where
  exec : (check calm "mail" tools identityId).run.Exec events (.ok ())
  served : Program.Served BaselineTable.Serves table events after
  read : ∀ rows, ⟨.selectBaselines "mail", .ok rows⟩ ∈ events → rows = table
  unlisted : ∀ reply, ⟨.listTools, reply⟩ ∉ events

section

variable {tools : List Tool} {identityId approved live last : String} {table after : BaselineTable}
  {swept : Sweep} {text : String} {checked : List (Event Reply)}

theorem exists_stores (identityId : String) (reads : table.Reads "mail" table)
    (judged : judge calm "mail" (liveTools tools) table = .ok swept)
    (applied : table.applyChanges (swept.changes table) = some after)
    : ∃ events, Stores tools identityId table events after := by
  obtain ⟨writes, reports, _, exec, served⟩ := exists_exec_check identityId reads judged applied
  refine ⟨_, exec, served, ?_, ?_⟩
  · intro rows member
    rcases List.mem_cons.mp member with same | later
    · cases same
      rfl
    · rcases List.mem_append.mp later with written | committed
      · obtain ⟨entry, reply, impossible⟩ := reports _ written
        cases impossible
      · cases List.mem_singleton.mp committed
  · intro reply member
    rcases List.mem_cons.mp member with impossible | later
    · cases impossible
    · rcases List.mem_append.mp later with written | committed
      · obtain ⟨entry, reply, impossible⟩ := reports _ written
        cases impossible
      · cases List.mem_singleton.mp committed

/-- The approved definition changes nothing. -/
theorem judge_sendTool_same (hashed : toolHash (sendTool "Send.") = .ok approved)
    : judge calm "mail" (liveTools [sendTool "Send."]) [sendRow approved]
      = .ok { rows := [sendRow approved] } := by
  have name : (sendRow approved).toolName = "send_mail" := rfl
  have settled : settleTool calm.settings (sendRow approved) (sendTool "Send.")
      = .ok (sendRow approved) := by
    simp [settleTool, hashed, sendRow, ToolBaseline.firstSeen, bind, Except.bind, pure, Except.pure]
  simp [live_sendTool, judge, judgeTool, Sweep.row?, name, settled, Sweep.setRow, Sweep.putRow,
    judgeRemoved, Dict.keys, bind, Except.bind, pure, Except.pure]

/-- The parameters of a call of the tool. -/
def sendParams : Params :=
  [("name", .str "send_mail"), ("arguments", .obj [])]

/-- The call as it is decided. -/
def sendCallKey : CallKey :=
  (toolCallOf mailSession (.int 1) sendParams).key

/-- The call up to its re-fetch. -/
def relisting (text : String) : List (Event Reply) :=
  [
    ⟨.setPending (.int 1) "tools/call", ()⟩,
    ⟨.engine, openPolicy⟩,
    ⟨.engine, openPolicy⟩,
    ⟨.isBlocked "mail" "send_mail", .ok false⟩,
    ⟨.engine, openPolicy⟩,
    ⟨.score sendCallKey (.obj []) {}, .ok (0, [])⟩,
    ⟨.cacheGet "mail", .ok none⟩,
    ⟨.listTools, .ok [("tools", .arr [.obj (sendTool text)])]⟩
  ]

/-- The call after the check of its re-fetch, up to its ALLOW row. -/
def allowing (text : String) : List (Event Reply) :=
  [⟨.cacheSet "mail" [sendTool text], .ok ()⟩, ⟨.engine, openPolicy⟩]

/-- The ALLOW row of the call. -/
def allowed : Event Reply :=
  ⟨.write (allowEntry sendCallKey 1 (.obj []) (some 0) (some []) none none), .ok 1⟩

theorem exec_call (stores : Stores [sendTool text] "agent" table checked after)
    : (onClientMessage calm mailSession (sendCall (.obj []))).run.Exec
        (relisting text ++ (checked ++ allowing text) ++ [allowed])
        (.ok (.forward (sendCall (.obj [])))) := by
  have fetched : (refetchTools calm mailSession).run.Exec
      (⟨.listTools, .ok [("tools", .arr [.obj (sendTool text)])]⟩
        :: (checked ++ [⟨.cacheSet "mail" [sendTool text], .ok ()⟩]))
      (.ok (some [sendTool text])) := by
    refine Coroutine.exec_bind_ok_iff.mpr
      ⟨_, [], .ok [sendTool text], (List.append_nil _).symm, Coroutine.exec_attempt_iff.mpr ?_,
        .done _⟩
    refine Coroutine.exec_bind_ok_iff.mpr ⟨[_], _, _, rfl,
      Coroutine.exec_demand_iff.mpr ⟨.ok [("tools", .arr [.obj (sendTool text)])], rfl, rfl⟩, ?_⟩
    have listed : listedTools [("tools", .arr [.obj (sendTool text)])] = .ok [sendTool text] := rfl
    rw [listed, Coroutine.ofExcept_ok_bind]
    refine Coroutine.exec_bind_ok_iff.mpr ⟨checked, _, (), rfl, stores.exec, ?_⟩
    exact Coroutine.exec_bind_ok_iff.mpr ⟨[_], [], (), rfl,
      Coroutine.exec_demand_iff.mpr ⟨.ok (), rfl, rfl⟩, .done _⟩
  have found : (inputSchemaFor calm mailSession "send_mail").run.Exec
      (⟨.cacheGet "mail", .ok none⟩
        :: (⟨.listTools, .ok [("tools", .arr [.obj (sendTool text)])]⟩
          :: (checked ++ [⟨.cacheSet "mail" [sendTool text], .ok ()⟩])))
      (.ok (.obj [])) := by
    refine Coroutine.exec_bind_ok_iff.mpr ⟨[_], _, none, rfl,
      Coroutine.exec_demand_iff.mpr ⟨.ok none, rfl, rfl⟩, ?_⟩
    exact Coroutine.exec_bind_ok_iff.mpr ⟨_, [], some [sendTool text], (List.append_nil _).symm,
      fetched, .done _⟩
  have validated : (validationStage calm mailSession
      (toolCallOf mailSession (.int 1) sendParams)).run.Exec _ (.ok ()) :=
    Coroutine.exec_bind_ok_iff.mpr ⟨_, [], .obj [], (List.append_nil _).symm,
      exec_uncaught_ok_iff.mpr found, .done _⟩
  have replayPassed : (replayStage calm (toolCallOf mailSession (.int 1) sendParams)
      ((openPolicy.identity mailSession.identityId).any (fun record => record.authMode = .signed))
      (Json.getKey sendParams "_meta").orEmpty).run.Exec [] (.ok ()) :=
    Program.exec_play permitted _
  have passed : Passed calm mailSession (.int 1) (some sendParams)
      (⟨.engine, openPolicy⟩ :: ([] ++ ([⟨.engine, openPolicy⟩] ++ ([] ++ ([] ++
        ([⟨.isBlocked "mail" "send_mail", .ok false⟩] ++ ([] ++
          ([⟨.engine, openPolicy⟩, ⟨.score sendCallKey (.obj []) {}, .ok (0, [])⟩]
            ++ (_ ++ [⟨.engine, openPolicy⟩, allowed])))))))))
      (.request (.int 1) "tools/call" (some sendParams)) :=
    .intro rfl rfl replayPassed (Program.exec_play permitted _)
      (Program.exec_play permitted _) (Program.exec_play permitted _) (Program.exec_play permitted _)
      rfl (Program.exec_play permitted _) rfl (Program.exec_play permitted _) validated
      (Program.exec_play permitted _)
  refine Coroutine.exec_ask_bind_iff.mpr ⟨(), _, ?_, exec_settle_forward_iff.mpr passed.exec⟩
  simp [relisting, allowing]

theorem served_relisting (unblocked : table.blocked "mail" "send_mail" = false)
    : Program.Served BaselineTable.Serves table (relisting text) table :=
  .cons rfl (.cons rfl (.cons rfl (.cons ⟨rfl, unblocked.symm⟩ (.cons rfl (.cons rfl (.cons rfl
    (.cons rfl (.nil _))))))))

theorem served_allowing : Program.Served BaselineTable.Serves table (allowing text) table :=
  .cons rfl (.cons rfl (.nil _))

theorem allows_allowed {ι : Type} : Allows (⟨none, 0, allowed⟩ : Stamped (Option ι) Reply) :=
  ⟨rfl, _, _, rfl, rfl⟩

/-- A call of the mail tool. -/
def mailRun {ι : Type} (beside : ι → DriftRequest) (start : BaselineTable)
    (trace : List (Stamped (Option ι) Reply))
    : GuardedRun ι where
  session := mailSession
  requestId := .int 1
  params := some sendParams
  beside := beside
  start := start
  trace := trace

/-- A call whose cache is cold is allowed after its own re-fetch has found a new description and has
blocked the tool for it.
-/
theorem allowed_while_blocked
    : ∃ run : GuardedRun Empty, run.Proper calm ∧ ¬ run.AllowedUnblocked := by
  obtain ⟨approved, live, last, listed⟩ := DriftRun.exists_listed
  obtain ⟨checked, stores⟩ := exists_stores "agent"
    (reads_self (by simp [sendRow, ToolBaseline.firstSeen])
      (by simpa using sendRow_readBack approved))
    (judge_sendTool listed.approved listed.live) (apply_drifted _ _ live .high rfl)
  let events := relisting "Send it." ++ (checked ++ allowing "Send it.")
  let past : List (Stamped (Option Empty) Reply) := events.map (Stamped.mk none 0)
  have leaves : Machine.Run (fun table (step : Stamped (Option Empty) Reply) after =>
      BaselineTable.Serves table step.event after) [sendRow approved] past
      [DriftRun.seenRow approved live] := by
    refine Program.Served.run ?_ none 0
    exact Program.served_append_iff.mpr ⟨_, served_relisting rfl,
      Program.served_append_iff.mpr ⟨_, stores.served, served_allowing⟩⟩
  have own : eventsOf none (past ++ [allowed].map (Stamped.mk none 0)) = events ++ [allowed] := by
    rw [eventsOf_append, eventsOf_stamped, eventsOf_stamped]
    rfl
  have last : BaselineTable.Serves [DriftRun.seenRow approved live] allowed
      [DriftRun.seenRow approved live] := rfl
  refine ⟨mailRun Empty.elim [sendRow approved] (past ++ [allowed].map (Stamped.mk none 0)),
    ⟨by simp [mailRun, BaselineTable.Distinct], ⟨_, own.symm ▸ exec_call stores⟩,
      fun thread => thread.elim, _, leaves.concat last⟩, ?_⟩
  intro unblocked
  cases unblocked past _ [] _ rfl allows_allowed leaves

/-- A check that reads no row, or the approved one, does not block the approved definition. -/
theorem leavesClear_sendTool {rows : List ToolBaseline}
    (hashed : toolHash (sendTool "Send.") = .ok approved)
    (read : rows = [] ∨ rows = [sendRow approved])
    : LeavesClear calm [sendTool "Send."] rows "send_mail" := by
  intro last live
  rw [live_sendTool, List.mem_singleton] at live
  cases live
  rcases read with rfl | rfl
  · rintro ⟨source, searched⟩
    cases searched
  · rintro (⟨blocked, _⟩ | ⟨drifted, _⟩)
    · cases blocked
    · obtain ⟨liveHash, _, again, differs, _⟩ := drifted
      cases hashed.symm.trans again
      exact differs rfl

/-- Witness: a call whose cache is cold, with the first sighting of the tool in another listing
between its lookup and its own re-fetch. Both checks find the same definition.
-/
theorem relisted_call_unblocked
    : ∃ run : GuardedRun Unit,
        run.Proper calm ∧ (∃ step ∈ run.trace, Allows step) ∧ run.AllowedUnblocked := by
  obtain ⟨approved, live, last, listed⟩ := DriftRun.exists_listed
  obtain ⟨sighted, sighting⟩ := exists_stores "operator" (reads_self (by simp) (by simp))
    (judge_sendTool_first listed.approved) rfl
  have unchanged : BaselineTable.applyChanges [sendRow approved]
      (Sweep.changes [sendRow approved] { rows := [sendRow approved] })
      = some [sendRow approved] := by
    simp [Sweep.changes, Sweep.row?, BaselineTable.applyChanges, BaselineTable.applyChange,
      BaselineUpdate.applyTo, apply_diff_self]
  obtain ⟨checked, stores⟩ := exists_stores "agent"
    (reads_self (by simp [sendRow, ToolBaseline.firstSeen])
      (by simpa using sendRow_readBack approved))
    (judge_sendTool_same listed.approved) unchanged
  let run := mailRun (fun _ => .check "mail" [sendTool "Send."] "operator") []
    ((relisting "Send.").map (Stamped.mk none 0) ++ sighted.map (Stamped.mk (some ()) 0)
      ++ (checked ++ (allowing "Send." ++ [allowed])).map (Stamped.mk none 0))
  have own : eventsOf none run.trace
      = relisting "Send." ++ (checked ++ allowing "Send.") ++ [allowed] := by
    simp only [run, mailRun, eventsOf_append, eventsOf_stamped]
    simp
  have other : eventsOf (some ()) run.trace = sighted := by
    simp only [run, mailRun, eventsOf_append, eventsOf_stamped]
    simp
  have later : Program.Served BaselineTable.Serves [sendRow approved]
      (checked ++ (allowing "Send." ++ [allowed])) [sendRow approved] :=
    Program.served_append_iff.mpr ⟨_, stores.served,
      Program.served_append_iff.mpr ⟨_, served_allowing, .cons rfl (.nil _)⟩⟩
  have leaves : run.Leaves run.trace [sendRow approved] :=
    (((served_relisting rfl).run none 0).append (sighting.served.run (some ()) 0)).append
      (later.run none 0)
  have proper : run.Proper calm := by
    refine ⟨by simp [run, mailRun, BaselineTable.Distinct], ⟨_, own.symm ▸ exec_call stores⟩, ?_,
      _, leaves⟩
    intro thread
    refine ⟨[], ?_⟩
    rw [List.append_nil, other]
    exact Program.exec_bind_iff.mpr ⟨_, [], _, (List.append_nil _).symm, sighting.exec, .done ()⟩
  refine ⟨run, proper, ⟨⟨none, 0, allowed⟩, by simp [run, mailRun], allows_allowed⟩,
    allowed_unblocked proper ?_⟩
  intro before looking between step rest _ _ _ _ checking _ changes tools rows _ checks
  have listings : tools = [sendTool "Send."] ∧ (rows = [] ∨ rows = [sendRow approved]) := by
    obtain ⟨read, listing⟩ := checks
    cases thread : checking.thread with
    | none =>
        rw [thread] at read listing
        obtain ⟨result, fetched, found⟩ := listing
        rw [own] at read fetched
        simp [relisting, allowing, allowed, stores.unlisted] at fetched
        simp [relisting, allowing, allowed] at read
        subst fetched
        cases found
        exact ⟨rfl, Or.inr (stores.read rows read)⟩
    | some _ =>
        rw [thread] at read listing
        obtain ⟨identityId, request⟩ := listing
        cases request
        rw [other] at read
        exact ⟨rfl, Or.inl (sighting.read rows read)⟩
  obtain ⟨rfl, read⟩ := listings
  exact leavesClear_sendTool listed.approved read

end

end GuardedRun

end SecureMcp
