import SecureMcp.Drift.Detector
import SecureMcp.Library.Report

/-! What a check decides, apart from the audit rows it writes on the way: a function of the
rows it read and the live list. The check itself reads the rows, writes audit rows, and
commits that function's result unless a row could not be written.
-/

namespace SecureMcp

open Interaction

/-- Writing an audit row, as a report. -/
def auditKind : ReportKind Reply where
  report event := ∃ entry reply, event = ⟨.write entry, reply⟩
  failed event := ∃ entry exn, event = ⟨.write entry, .error exn⟩

/-- Writing a row whose number is ignored is a report. -/
theorem reports_write {α : Type} {entry : AuditEntry} {next : Nat → Async α}
    {result : Except Exn α} (rest : ∀ seq, Reports auditKind (next seq) result)
    : Reports auditKind (AuditWriter.write entry >>= next) result := by
  refine Reports.demand ?_ ?_ rest
  · intro reply
    exact ⟨entry, reply, rfl⟩
  · intro reply
    refine ⟨?_, ?_⟩
    · intro ⟨_, exn, same⟩
      cases same
      exact ⟨exn, rfl⟩
    · intro ⟨exn, same⟩
      exact ⟨entry, exn, by rw [← same]; rfl⟩

theorem reports_writeIf {α : Type} {condition : Bool} {entry : AuditEntry}
    {next : Unit → Async α} {result : Except Exn α}
    (rest : Reports auditKind (next ()) result)
    : Reports auditKind (AuditWriter.writeIf condition entry >>= next) result := by
  unfold AuditWriter.writeIf
  cases condition with
  | true =>
      simp only [if_true, bind_assoc, pure_bind]
      exact reports_write (fun _ => rest)
  | false => exact rest

namespace DriftDetector

/-- What a first sighting adds. -/
def judgeSighting (runtime : Runtime) (serverId : String) (live : List (String × Tool))
    (sweep : Sweep) (name : String) (tool : Tool)
    : Except Exn Sweep := do
  let liveHash ← toolHash tool
  let suspicious := !(scanDescriptions runtime tool).isEmpty
  match ← renameSource live tool sweep.rows with
  | none =>
      let row := ToolBaseline.firstSeen serverId name tool liveHash suspicious
      return { sweep with added := sweep.added ++ [row] }
  | some source =>
      let row := ToolBaseline.renamed serverId name tool liveHash suspicious
      return {
        sweep with
        added := sweep.added ++ [row]
        renamedSources := source :: sweep.renamedSources
      }

/-- What a tool does to its row. -/
def settleTool (settings : Settings) (row : ToolBaseline) (tool : Tool)
    : Except Exn ToolBaseline := do
  let liveHash ← toolHash tool
  if liveHash = row.approvedHash then
    return if row.observedHash.isSome then row.reverted else row
  else if row.observedHash = some liveHash then return row
  else
    let classified ← classify settings row.approvedSchema tool
    return row.drifted tool liveHash (classified.getD .high)

def judgeTool (runtime : Runtime) (serverId : String) (live : List (String × Tool))
    (sweep : Sweep) (name : String) (tool : Tool)
    : Except Exn Sweep :=
  match sweep.row? name with
  | none => judgeSighting runtime serverId live sweep name tool
  | some row => return sweep.setRow (← settleTool runtime.settings row tool)

/-- What the absence of a tool does to its row. -/
def settleRemoved (row : ToolBaseline) : ToolBaseline :=
  if row.observedHash = some ToolBaseline.removedSentinel then row else row.removed

def judgeRemoved (live : List (String × Tool)) (sweep : Sweep) (name : String) : Sweep :=
  if name ∈ Dict.keys live || name ∈ sweep.renamedSources then sweep
  else
    match sweep.row? name with
    | none => sweep
    | some row => sweep.setRow (settleRemoved row)

/-- Everything that a check decides from the rows it read. -/
def judge (runtime : Runtime) (serverId : String) (live : List (String × Tool))
    (rows : List ToolBaseline)
    : Except Exn Sweep := do
  let seen ← live.foldlM
    (fun sweep item => judgeTool runtime serverId live sweep item.1 item.2)
    { rows := rows }
  return (rows.map ToolBaseline.toolName).foldl (judgeRemoved live) seen

/-- Putting back the row that was found changes nothing, by induction on the rows. -/
theorem putRow_self {rows : List ToolBaseline} {name : String} {row : ToolBaseline}
    (found : rows.find? (fun row => row.toolName = name) = some row)
    : Sweep.putRow row rows = rows := by
  induction rows with
  | nil => rfl
  | cons first rest ih =>
      rw [List.find?_cons] at found
      by_cases here : first.toolName = name
      · simp only [here, decide_true] at found
        cases found
        simp [Sweep.putRow]
      · simp only [here, decide_false] at found
        have named : row.toolName = name := by simpa using List.find?_some found
        have other : first.toolName ≠ row.toolName := by
          rw [named]
          exact here
        simp only [Sweep.putRow, other, if_false, ih found]

theorem Sweep.setRow_self {sweep : Sweep} {name : String} {row : ToolBaseline}
    (found : sweep.row? name = some row)
    : sweep.setRow row = sweep := by
  rw [Sweep.setRow, putRow_self found]

theorem reports_firstSighting (runtime : Runtime) (serverId identityId : String)
    (live : List (String × Tool)) (sweep : Sweep) (name : String) (tool : Tool)
    : Reports auditKind (firstSighting runtime serverId identityId live sweep name tool)
        (judgeSighting runtime serverId live sweep name tool) := by
  unfold firstSighting judgeSighting
  refine .bind (.ofExcept _) (fun liveHash => ?_)
  refine reports_writeIf ?_
  refine .bind (.ofExcept _) (fun source => ?_)
  cases source with
  | none => exact .pure _
  | some source => exact reports_write (fun _ => .pure _)

theorem reports_checkTool (runtime : Runtime) (serverId identityId : String)
    (live : List (String × Tool)) (sweep : Sweep) (name : String) (tool : Tool)
    : Reports auditKind (checkTool runtime serverId identityId live sweep name tool)
        (judgeTool runtime serverId live sweep name tool) := by
  unfold checkTool judgeTool
  cases found : sweep.row? name with
  | none => exact reports_firstSighting _ _ _ _ _ _ _
  | some row =>
      simp only [settleTool, bind_assoc]
      refine .bind (.ofExcept _) (fun liveHash => ?_)
      by_cases approved : liveHash = row.approvedHash
      · simp only [approved, if_true, pure_bind]
        cases row.observedHash.isSome with
        | true => exact .pure _
        | false =>
            simp only [Bool.false_eq_true, if_false, Sweep.setRow_self found]
            exact .pure _
      · by_cases logged : row.observedHash = some liveHash
        · simp only [approved, logged, if_true, if_false, pure_bind, Sweep.setRow_self found]
          exact .pure _
        · simp only [approved, logged, if_false, bind_assoc, pure_bind]
          exact .bind (.ofExcept _) (fun _ => reports_write (fun _ => .pure _))

theorem reports_checkRemoved (serverId identityId : String) (live : List (String × Tool))
    (sweep : Sweep) (name : String)
    : Reports auditKind (checkRemoved serverId identityId live sweep name)
        (.ok (judgeRemoved live sweep name)) := by
  unfold checkRemoved judgeRemoved
  split
  · exact .pure _
  · cases found : sweep.row? name with
    | none => exact .pure _
    | some row =>
        by_cases gone : row.observedHash = some ToolBaseline.removedSentinel
        · simp only [gone, settleRemoved, if_true, Sweep.setRow_self found]
          exact .pure _
        · simp only [gone, settleRemoved, if_false]
          exact reports_write (fun _ => .pure _)

/-- Both loops of a check report, and end with what the check decides. -/
theorem reports_visit (runtime : Runtime) (serverId identityId : String)
    (live : List (String × Tool)) (rows : List ToolBaseline)
    : Reports auditKind (visit runtime serverId identityId live rows)
        (judge runtime serverId live rows) := by
  refine .bind (.foldlM (fun _ _ => reports_checkTool _ _ _ _ _ _ _) _ _) (fun seen => ?_)
  have removed : Reports auditKind
      ((rows.map ToolBaseline.toolName).foldlM (checkRemoved serverId identityId live) seen)
      ((rows.map ToolBaseline.toolName).foldlM
        (fun sweep name => Except.ok (judgeRemoved live sweep name)) seen) :=
    .foldlM (reports_checkRemoved serverId identityId live) _ _
  have pureLoop : (rows.map ToolBaseline.toolName).foldlM
      (fun sweep name => (pure (judgeRemoved live sweep name) : Except Exn Sweep)) seen
      = pure ((rows.map ToolBaseline.toolName).foldl (judgeRemoved live) seen) :=
    List.foldlM_pure
  exact pureLoop ▸ removed

/-- Every execution of a check: its query fails, or a row cannot be written, or it raises
over the rows that it read, or it commits what it decided over them.
-/
theorem exec_check {runtime : Runtime} {serverId identityId : String} {tools : List Tool}
    {events : List (Event Reply)} {outcome : Except Exn Unit}
    (exec : (check runtime serverId tools identityId).run.Exec events outcome)
    : (∃ exn, events = [⟨.selectBaselines serverId, .error exn⟩] ∧ outcome = .error exn)
      ∨ ∃ rows writes,
          (∀ event ∈ writes, auditKind.report event)
          ∧ ((events = ⟨.selectBaselines serverId, .ok rows⟩ :: writes
                ∧ (∃ exn, outcome = .error exn)
                ∧ ((∃ event ∈ writes, auditKind.failed event)
                  ∨ ∃ exn, judge runtime serverId (liveTools tools) rows = .error exn))
            ∨ ∃ swept reply,
                events = ⟨.selectBaselines serverId, .ok rows⟩
                  :: (writes ++ [⟨.commit (swept.changes rows), reply⟩])
                ∧ outcome = reply
                ∧ judge runtime serverId (liveTools tools) rows = .ok swept
                ∧ ∀ event ∈ writes, ¬ auditKind.failed event) := by
  unfold check at exec
  rw [Coroutine.run_bind, Program.exec_bind_iff] at exec
  obtain ⟨first, rest, answer, split, query, exec⟩ := exec
  obtain ⟨reply, single, answered⟩ := Coroutine.exec_demand_iff.mp query
  subst split single answered
  cases reply with
  | error exn =>
      obtain ⟨empty, same⟩ := Program.exec_done_iff.mp exec
      subst empty
      exact Or.inl ⟨exn, rfl, same.symm⟩
  | ok rows =>
      change (visit _ _ _ _ _ >>= _).run.Exec _ _ at exec
      rw [Coroutine.run_bind, Program.exec_bind_iff] at exec
      obtain ⟨writes, last, middle, split, visited, exec⟩ := exec
      obtain ⟨reports, ended⟩ := reports_visit _ _ _ _ _ writes middle visited
      subst split
      refine Or.inr ⟨rows, writes, reports, ?_⟩
      cases middle with
      | error exn =>
          obtain ⟨empty, same⟩ := Program.exec_done_iff.mp exec
          subst empty
          refine Or.inl ⟨by simp, ⟨exn, same.symm⟩, ?_⟩
          rcases ended with ⟨judged, _⟩ | ⟨_, failed⟩
          · exact Or.inr ⟨exn, judged.symm⟩
          · exact Or.inl failed
      | ok swept =>
          obtain ⟨reply, single, answered⟩ := Coroutine.exec_demand_iff.mp exec
          subst single
          rcases ended with ⟨judged, fine⟩ | ⟨⟨_, impossible⟩, _⟩
          · exact Or.inr ⟨swept, reply, rfl, answered.symm, judged.symm, fine⟩
          · cases impossible

end DriftDetector

end SecureMcp
