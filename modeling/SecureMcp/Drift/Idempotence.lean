import SecureMcp.Drift.FailClosed
import SecureMcp.Drift.Persistence
import SecureMcp.Drift.Severity

/-! A second check of the same list. It finds every row as a check of that list would leave
it, so it writes nothing, unless the first check took a tool for a renamed one: such a row
has the live hash as its approved and as its observed one, and is taken for a reverted one.
-/

namespace SecureMcp

open Interaction

namespace DriftDetector

/-- A tool leaves its row as it is: it has the approved shape and nothing was observed, or it
has the shape that was observed last.
-/
def Quiet (row : ToolBaseline) (tool : Tool) : Prop :=
  ∃ hash,
    toolHash tool = .ok hash
    ∧ (hash = row.approvedHash ∧ row.observedHash = none
      ∨ hash ≠ row.approvedHash ∧ row.observedHash = some hash)

/-- A row that a tool has settled is quiet, whatever its other columns are. -/
theorem quiet_of_settleTool {settings : Settings} {read now row : ToolBaseline} {tool : Tool}
    (settled : settleTool settings read tool = .ok now)
    (approved : row.approvedHash = read.approvedHash) (observed : row.observedHash = now.observedHash)
    : Quiet row tool := by
  obtain ⟨hash, hashed, ⟨same, rfl⟩ | ⟨differs, logged, rfl⟩ | ⟨severity, differs, -, -, rfl⟩⟩ :=
    settleTool_cases settled
  · refine ⟨hash, hashed, .inl ⟨same.trans approved.symm, ?_⟩⟩
    rw [observed]
    split
    case isTrue => rfl
    case isFalse none => simpa using none
  · exact ⟨hash, hashed, .inr ⟨fun same => differs (same.trans approved), observed.trans logged⟩⟩
  · exact ⟨hash, hashed, .inr ⟨fun same => differs (same.trans approved), observed⟩⟩

/-- A quiet row is quiet as it is read back. -/
theorem Quiet.readBack {row read : ToolBaseline} {tool : Tool} (quiet : Quiet row tool)
    (readBack : row.ReadBack read)
    : Quiet read tool := by
  rw [Quiet, readBack.rest]
  exact quiet

section

variable {runtime : Runtime} {serverId identityId : String} {live : List (String × Tool)}
  {rows : List ToolBaseline}

/-- The rows of a server are as a check of the list leaves them: every live tool has a quiet
row, and every other row is marked as removed.
-/
structure Resting (live : List (String × Tool)) (rows : List ToolBaseline) : Prop where
  quiet : ∀ name tool, (name, tool) ∈ live → ∃ row, named rows name = some row ∧ Quiet row tool
  removed : ∀ name row,
    named rows name = some row
    → name ∉ Dict.keys live
    → row.observedHash = some ToolBaseline.removedSentinel

theorem checkTool_of_quiet {name : String} {tool : Tool} {row : ToolBaseline}
    (found : named rows name = some row) (quiet : Quiet row tool)
    : checkTool runtime serverId identityId live { rows := rows } name tool
      = pure { rows := rows } := by
  have there : Sweep.row? { rows := rows } name = some row := found
  obtain ⟨hash, hashed, ⟨same, none⟩ | ⟨differs, logged⟩⟩ := quiet
  · simp [checkTool, there, hashed, same, none]
  · simp [checkTool, there, hashed, differs, logged]

theorem checkRemoved_of_resting (resting : Resting live rows) (name : String)
    : checkRemoved serverId identityId live { rows := rows } name = pure { rows := rows } := by
  unfold checkRemoved
  by_cases listed : name ∈ Dict.keys live
  · simp [listed]
  · cases found : named rows name with
    | none =>
        have absent : Sweep.row? { rows := rows } name = none := found
        simp [listed, absent]
    | some row =>
        have there : Sweep.row? { rows := rows } name = some row := found
        simp [listed, there, resting.removed name row found listed]

/-- Both loops go over resting rows without a question to anything, by induction on the lists
that they visit.
-/
theorem visit_of_resting (resting : Resting live rows)
    : visit runtime serverId identityId live rows = pure { rows := rows } := by
  have first (visited : List (String × Tool)) (inside : ∀ item ∈ visited, item ∈ live)
      : visited.foldlM
          (fun sweep item =>
            checkTool runtime serverId identityId live sweep item.1 item.2)
          ({ rows := rows } : Sweep)
        = (pure { rows := rows } : Async Sweep) := by
    induction visited with
    | nil => rfl
    | cons item rest ih =>
        obtain ⟨row, found, quiet⟩ := resting.quiet item.1 item.2 (inside item List.mem_cons_self)
        rw [List.foldlM_cons, checkTool_of_quiet found quiet, pure_bind]
        exact ih fun other member => inside other (List.mem_cons_of_mem _ member)
  have second (names : List String)
      : names.foldlM (checkRemoved serverId identityId live) ({ rows := rows } : Sweep)
        = (pure { rows := rows } : Async Sweep) := by
    induction names with
    | nil => rfl
    | cons name rest ih =>
        rw [List.foldlM_cons, checkRemoved_of_resting resting, pure_bind]
        exact ih
  unfold visit
  rw [first live fun _ member => member, pure_bind]
  exact second _

end

theorem applyTo_diff_self (row other : ToolBaseline) : (row.diff row).applyTo other = other := by
  unfold BaselineUpdate.applyTo
  split
  · simp [BaselineUpdate.apply, ToolBaseline.diff, changedSchema_self, ToolBaseline.changed]
  · rfl

/-- The transaction of a sweep that changed nothing has no column in it. -/
theorem changes_unchanged {rows : List ToolBaseline}
    (distinct : (rows.map ToolBaseline.toolName).Nodup)
    : Sweep.changes rows { rows := rows } = rows.map (fun row => .update (row.diff row)) := by
  unfold Sweep.changes
  rw [List.map_nil, List.nil_append]
  refine List.map_congr_left fun row member => ?_
  have found : Sweep.row? { rows := rows } row.toolName = some row :=
    Keyed.find_of_mem distinct member
  rw [found, Option.getD_some]

theorem applyChanges_unchanged (table : BaselineTable) (rows : List ToolBaseline)
    : table.applyChanges (rows.map (fun row => .update (row.diff row))) = some table := by
  induction rows with
  | nil => rfl
  | cons row rest ih =>
      have first : table.applyChange (.update (row.diff row)) = some table := by
        have same : (row.diff row).applyTo = id := funext (applyTo_diff_self row)
        rw [BaselineTable.applyChange, same, List.map_id]
      unfold BaselineTable.applyChanges at ih ⊢
      rw [List.map_cons, List.foldlM_cons, first]
      exact ih

theorem storable_unchanged (rows : List ToolBaseline)
    : (rows.map (fun row => BaselineChange.update (row.diff row))).all BaselineChange.storable
      = true := by
  refine List.all_eq_true.mpr fun change member => ?_
  obtain ⟨row, -, rfl⟩ := List.mem_map.mp member
  simp [BaselineChange.storable, BaselineChange.schemas, ToolBaseline.diff, changedSchema_self]

/-- A check of the list, while the storage is available, returns without a write of an audit
row, and leaves every row as it is.
-/
def ChecksIdly (runtime : Runtime) (serverId : String) (tools : List Tool)
    (table : BaselineTable)
    : Prop :=
  ∀ identityId events outcome after,
    (check runtime serverId tools identityId).run.Exec events outcome
    → Program.Served BaselineTable.Serves table events after
    → (∀ event ∈ events, BaselineTable.Available event)
    → outcome = .ok () ∧ (∀ event ∈ events, ¬ auditKind.report event) ∧ after = table

/-- The rows that any query for the server returns are at rest. -/
def RestsAt (table : BaselineTable) (serverId : String) (tools : List Tool) : Prop :=
  ∀ rows, table.Reads serverId rows → Resting (liveTools tools) rows

theorem checksIdly_of_rest {runtime : Runtime} {serverId : String} {tools : List Tool}
    {table : BaselineTable} (distinct : table.Distinct) (rest : RestsAt table serverId tools)
    : ChecksIdly runtime serverId tools table := by
  intro identityId events outcome after exec served available
  unfold check at exec
  rw [Coroutine.run_bind, Program.exec_bind_iff] at exec
  obtain ⟨first, later, answer, rfl, query, exec⟩ := exec
  obtain ⟨reply, rfl, rfl⟩ := Coroutine.exec_demand_iff.mp query
  cases reply with
  | error exn => cases available _ (List.mem_append_left _ List.mem_cons_self)
  | ok rows =>
      change (visit _ _ _ _ _ >>= _).run.Exec _ _ at exec
      obtain ⟨_, ⟨kept, reads⟩, writing⟩ := Program.served_cons_iff.mp served
      rw [kept] at writing
      rw [visit_of_resting (rest rows reads), pure_bind] at exec
      obtain ⟨reply, rfl, rfl⟩ := Coroutine.exec_demand_iff.mp exec
      obtain ⟨_, committed, nil⟩ := Program.served_cons_iff.mp writing
      cases Program.served_nil_iff.mp nil
      have taken := available _ (List.mem_append_right _ List.mem_cons_self)
      rw [changes_unchanged (reads.distinct distinct)] at committed taken
      cases reply with
      | error exn =>
          rw [BaselineTable.Available, storable_unchanged] at taken
          cases taken
      | ok _ =>
          have same : table.applyChanges _ = some after := committed
          rw [applyChanges_unchanged, Option.some.injEq] at same
          refine ⟨rfl, ?_, same.symm⟩
          intro event member
          rintro ⟨entry, reply, rfl⟩
          simp at member

/-- No tool of the list is taken for a renamed one: none is new and has the shape of a
baselined tool that is missing from the list.
-/
def NoRename (live : List (String × Tool)) (rows : List ToolBaseline) : Prop :=
  ∀ name tool,
    (name, tool) ∈ live → named rows name = none → renameSource live tool rows = .ok none

section

variable {runtime : Runtime} {serverId : String} {live : List (String × Tool)}
  {rows : List ToolBaseline}

theorem renamedSources_of_judgeTool {done : List (String × Tool)} {sweep after : Sweep}
    {name : String} {tool : Tool} (noRename : NoRename live rows)
    (state : Judged runtime serverId live rows done sweep) (fresh : name ∉ Dict.keys done)
    (member : (name, tool) ∈ live)
    (judged : judgeTool runtime serverId live sweep name tool = .ok after)
    : after.renamedSources = sweep.renamedSources := by
  have unchanged := state.untouched name fresh
  unfold judgeTool at judged
  cases found : sweep.row? name with
  | some row =>
      rw [found] at judged
      cases settled : settleTool runtime.settings row tool with
      | error exn => simp only [settled] at judged; cases judged
      | ok now => simp only [settled] at judged; cases judged; rfl
  | none =>
      rw [found] at judged
      have searched := noRename name tool member (unchanged.symm.trans found)
      rw [← renameSource_congr live tool state.shapes] at searched
      unfold judgeSighting at judged
      cases hashed : toolHash tool with
      | error exn => rw [hashed] at judged; cases judged
      | ok hash =>
          rw [hashed, searched] at judged
          cases judged
          rfl

theorem renamedSources_of_judge {sweep : Sweep} (distinct : (Dict.keys live).Nodup)
    (noRename : NoRename live rows)
    (finished : live.foldlM
      (fun sweep item => judgeTool runtime serverId live sweep item.1 item.2)
      { rows := rows } = .ok sweep)
    : sweep.renamedSources = [] := by
  let Kept (done : List (String × Tool)) (sweep : Sweep) : Prop :=
    Judged runtime serverId live rows done sweep ∧ sweep.renamedSources = []
  have both : Kept live sweep := by
    refine Loop.foldlM_ok ⟨Judged.nil, rfl⟩ ?_ finished
    intro done item state after beginning kept stepped
    have fresh := Dict.not_mem_keys_of_prefix distinct beginning
    have member : item ∈ live := beginning.subset (by simp)
    exact ⟨kept.1.step fresh stepped,
      (renamedSources_of_judgeTool noRename kept.1 fresh member stepped).trans kept.2⟩
  exact both.2

theorem renamedSources_judgeRemoved (sweep : Sweep) (visited : String)
    : (judgeRemoved live sweep visited).renamedSources = sweep.renamedSources := by
  unfold judgeRemoved
  repeat' split
  · rfl
  · rfl
  · rfl

/-- Without renamed sources, the loop over the rows settles every row that it visits and whose
tool is not live; by induction on the names.
-/
theorem foldl_judgeRemoved_missing {sweep : Sweep} (none : sweep.renamedSources = [])
    {names : List String} {name : String} (visited : name ∈ names) (missing : name ∉ Dict.keys live)
    : named (names.foldl (judgeRemoved live) sweep).rows name
      = (named sweep.rows name).map settleRemoved := by
  induction names generalizing sweep with
  | nil => cases visited
  | cons first rest ih =>
      rw [List.foldl_cons]
      have twice : ((named sweep.rows name).map settleRemoved).map settleRemoved
          = (named sweep.rows name).map settleRemoved := by
        rw [Option.map_map]
        congr 1
        exact funext settleRemoved_idem
      by_cases here : name = first
      · subst here
        have settled : named (judgeRemoved live sweep name).rows name
            = (named sweep.rows name).map settleRemoved := by
          unfold judgeRemoved
          rw [if_neg (by simp [missing, none])]
          cases found : sweep.row? name with
          | none =>
              have absent : named sweep.rows name = Option.none := found
              simp [absent]
          | some row =>
              have there : named sweep.rows name = some row := found
              have same : (settleRemoved row).toolName = name :=
                (settled_settleRemoved row).toolName.trans (named_toolName there)
              simp only [Sweep.setRow]
              rw [named_putRow, same, if_pos rfl, there]
              rfl
        rcases (foldl_judgeRemoved live rest (judgeRemoved live sweep name) name).2 with
          same | ⟨-, again⟩
        · exact same.trans settled
        · rw [again, settled, twice]
      · have empty : (judgeRemoved live sweep first).renamedSources = [] :=
          (renamedSources_judgeRemoved sweep first).trans none
        rw [ih empty ((List.mem_cons.mp visited).resolve_left here)]
        rcases judgeRemoved_named live sweep first name with same | ⟨-, settled⟩
        · rw [same]
        · rw [settled, twice]

theorem settleRemoved_of_judge {swept : Sweep} (distinct : (Dict.keys live).Nodup)
    (noRename : NoRename live rows) (judged : judge runtime serverId live rows = .ok swept)
    {name : String} {row : ToolBaseline} (missing : name ∉ Dict.keys live)
    (known : named rows name = some row)
    : named swept.rows name = some (settleRemoved row) := by
  obtain ⟨seen, visited, rest⟩ := Loop.bind_eq_ok.mp judged
  cases rest
  have before := (judged_of_foldlM distinct visited).untouched name missing
  have listed : name ∈ rows.map ToolBaseline.toolName := by
    have called := named_toolName known
    exact List.mem_map.mpr ⟨row, Keyed.find_mem known, called⟩
  rw [foldl_judgeRemoved_missing (renamedSources_of_judge distinct noRename visited) listed missing,
    before, known]
  rfl

end

section

variable {runtime : Runtime} {serverId : String} {tools : List Tool}
  {table after : BaselineTable} {rows : List ToolBaseline} {swept : Sweep}

theorem observedHash_settleRemoved (row : ToolBaseline)
    : (settleRemoved row).observedHash = some ToolBaseline.removedSentinel := by
  unfold settleRemoved
  split
  case isTrue gone => exact gone
  case isFalse => rfl

/-- The commit of a check that takes no tool for a renamed one marks the row of a tool that is
missing from the list as removed.
-/
theorem row?_of_missing (distinct : table.Distinct) (reads : table.Reads serverId rows)
    (judged : judge runtime serverId (liveTools tools) rows = .ok swept)
    (applied : table.applyChanges (swept.changes rows) = some after)
    (noRename : NoRename (liveTools tools) rows) {name : String}
    (missing : name ∉ Dict.keys (liveTools tools)) {row : ToolBaseline}
    (present : table.row? serverId name = some row)
    : ∃ read,
        row.ReadBack read
        ∧ named rows name = some read
        ∧ after.row? serverId name = some ((read.diff (settleRemoved read)).apply row) := by
  have keys : (Dict.keys (liveTools tools)).Nodup := Dict.nodup_ofPairs _
  have added : ∀ row ∈ swept.added, row.serverId = serverId := by
    intro row member
    obtain ⟨-, tool, -, sighted⟩ := (verdict_of_judge keys judged).added row member
    exact sighted.serverId
  have related := reads.find distinct name
  change Option.Rel _ _ (named rows name) at related
  rw [present] at related
  cases known : named rows name with
  | none => rw [known] at related; cases related
  | some read =>
      rw [known] at related
      cases related with
      | some readBack =>
          have settled := settleRemoved_of_judge keys noRename judged missing known
          have found : swept.row? read.toolName = some (settleRemoved read) := by
            rw [named_toolName known]
            exact settled
          refine ⟨read, readBack, rfl, ?_⟩
          rw [row?_changes (reads.distinct distinct) reads.server added applied, if_pos rfl,
            present, Option.some_or, Option.map_some, known]
          simp only [found, Option.getD_some]

/-- A check that takes no tool for a renamed one leaves rows that are at rest. -/
theorem rests_of_commit (distinct : table.Distinct) (reads : table.Reads serverId rows)
    (judged : judge runtime serverId (liveTools tools) rows = .ok swept)
    (applied : table.applyChanges (swept.changes rows) = some after)
    (noRename : NoRename (liveTools tools) rows)
    : RestsAt after serverId tools := by
  have stored := swept_of_commit distinct reads judged applied
  have afterDistinct : after.Distinct := distinct.applyChanges applied
  intro again readsAgain
  -- What a query returns under a name is the row that the commit left there.
  have found (name : String) {row : ToolBaseline} (there : after.row? serverId name = some row)
      : ∃ read, named again name = some read ∧ row.ReadBack read := by
    have related := readsAgain.find afterDistinct name
    rw [there] at related
    cases answer : Keyed.find ToolBaseline.toolName again name with
    | none => rw [answer] at related; cases related
    | some read =>
        rw [answer] at related
        cases related with
        | some readBack => exact ⟨read, answer, readBack⟩
  refine ⟨?_, ?_⟩
  · intro name tool member
    cases present : table.row? serverId name with
    | some row =>
        obtain ⟨read, now, readBack, -, settled, left⟩ := stored.live name tool row member present
        obtain ⟨second, answer, backAgain⟩ := found name left
        refine ⟨second, answer, Quiet.readBack ?_ backAgain⟩
        rw [apply_diff readBack (settled_settleTool settled)]
        have approved : row.approvedHash = read.approvedHash := by rw [readBack.rest]
        exact quiet_of_settleTool settled approved rfl
    | none =>
        obtain ⟨row, ⟨hash, source, hashed, searched, rfl⟩, left⟩ :=
          stored.sighted name tool member present
        have unknown : named rows name = none := by
          have related := reads.find distinct name
          change Option.Rel _ _ (named rows name) at related
          rw [present] at related
          cases answer : named rows name with
          | none => rfl
          | some read => rw [answer] at related; cases related
        cases searched.symm.trans (noRename name tool member unknown)
        obtain ⟨second, answer, backAgain⟩ := found name left
        exact ⟨second, answer, Quiet.readBack ⟨hash, hashed, .inl ⟨rfl, rfl⟩⟩ backAgain⟩
  · intro name second answer missing
    have related := readsAgain.find afterDistinct name
    change Option.Rel _ _ (named again name) at related
    rw [answer] at related
    cases present : table.row? serverId name with
    | none =>
        rw [stored.unseen name missing present] at related
        cases related
    | some row =>
        obtain ⟨read, readBack, known, left⟩ := row?_of_missing distinct reads judged applied
          noRename missing present
        rw [left, apply_diff readBack (settled_settleRemoved read)] at related
        cases related with
        | some backAgain =>
            rw [backAgain.rest]
            exact observedHash_settleRemoved read

/-- What a check leaves for a live tool: a row that has its hash as the approved or as the
observed one, and as both if the tool was taken for a renamed one.
-/
theorem row_of_live (distinct : table.Distinct) (reads : table.Reads serverId rows)
    (judged : judge runtime serverId (liveTools tools) rows = .ok swept)
    (applied : table.applyChanges (swept.changes rows) = some after) {name : String} {tool : Tool}
    (live : (name, tool) ∈ liveTools tools)
    : ∃ row hash,
        after.row? serverId name = some row
        ∧ toolHash tool = .ok hash
        ∧ (hash = row.approvedHash ∨ row.observedHash = some hash)
        ∧ (named rows name = none
          → renameSource (liveTools tools) tool rows ≠ .ok none
          → hash = row.approvedHash ∧ row.observedHash = some hash) := by
  have stored := swept_of_commit distinct reads judged applied
  have related := reads.find distinct name
  change Option.Rel _ _ (named rows name) at related
  cases present : table.row? serverId name with
  | some row =>
      obtain ⟨read, now, readBack, known, settled, left⟩ := stored.live name tool row live present
      have quiet : Quiet ((read.diff now).apply row) tool := by
        rw [apply_diff readBack (settled_settleTool settled)]
        have approved : row.approvedHash = read.approvedHash := by rw [readBack.rest]
        exact quiet_of_settleTool settled approved rfl
      obtain ⟨hash, hashed, ⟨same, -⟩ | ⟨-, logged⟩⟩ := quiet
      · exact ⟨_, hash, left, hashed, .inl same, fun unknown => by cases unknown.symm.trans known⟩
      · exact ⟨_, hash, left, hashed, .inr logged, fun unknown => by cases unknown.symm.trans known⟩
  | none =>
      obtain ⟨row, ⟨hash, source, hashed, searched, rfl⟩, left⟩ :=
        stored.sighted name tool live present
      cases source with
      | none => exact ⟨_, hash, left, hashed, .inl rfl, fun _ other => absurd searched other⟩
      | some source => exact ⟨_, hash, left, hashed, .inl rfl, fun _ _ => ⟨rfl, rfl⟩⟩

end

theorem exists_readBack (row : ToolBaseline) : ∃ read, row.ReadBack read := by
  let stored (tool : Tool) : Tool := Jsonb.normalizeFields tool
  have back (tool : Tool) : tool.ReadBack (stored tool) := .refl _
  refine ⟨{
    row with
    approvedSchema := stored row.approvedSchema
    observedSchema := row.observedSchema.map stored
  }, back _, ?_, rfl⟩
  cases row.observedSchema with
  | none => exact .none
  | some observed => exact .some (back observed)

theorem exists_reads (table : BaselineTable) (serverId : String)
    : ∃ rows, table.Reads serverId rows := by
  choose back readBack using exists_readBack
  refine ⟨(table.ofServer serverId).map back, _, ?_, .refl _⟩
  rw [List.forall₂_map_right_iff]
  exact List.forall₂_same.mpr fun row _ => readBack row

/-- Updates alone are never refused. -/
theorem exists_updates (table : BaselineTable) {changes : List BaselineChange}
    (updates : ∀ change ∈ changes, ∃ columns, change = .update columns)
    : ∃ after, table.applyChanges changes = some after := by
  induction changes generalizing table with
  | nil => exact ⟨table, rfl⟩
  | cons change rest ih =>
      obtain ⟨columns, rfl⟩ := updates change List.mem_cons_self
      obtain ⟨after, later⟩ := ih (table.map columns.applyTo)
        fun other member => updates other (List.mem_cons_of_mem _ member)
      exact ⟨after, later⟩

section

variable {runtime : Runtime} {serverId : String} {tools : List Tool}
  {table after : BaselineTable} {rows : List ToolBaseline} {swept : Sweep}

/-- The rows of the live tools have the live hashes as approved or as observed ones. -/
def Recorded (table : BaselineTable) (serverId : String) (tools : List Tool) : Prop :=
  ∀ name tool,
    (name, tool) ∈ liveTools tools
    → ∃ row hash,
        table.row? serverId name = some row
        ∧ toolHash tool = .ok hash
        ∧ (hash = row.approvedHash ∨ row.observedHash = some hash)

/-- A check of tools whose shapes are all on record adds no row and stores no definition, so it
returns.
-/
theorem exists_check_recorded (runtime : Runtime) (identityId : String) (distinct : table.Distinct)
    (recorded : Recorded table serverId tools)
    : ∃ rows swept events after,
        (check runtime serverId tools identityId).run.Exec events (.ok ())
        ∧ Program.Served BaselineTable.Serves table events after
        ∧ (∀ event ∈ events, BaselineTable.Available event)
        ∧ table.Reads serverId rows
        ∧ judge runtime serverId (liveTools tools) rows = .ok swept
        ∧ table.applyChanges (swept.changes rows) = some after := by
  obtain ⟨rows, reads⟩ := exists_reads table serverId
  have keys : (Dict.keys (liveTools tools)).Nodup := Dict.nodup_ofPairs _
  have known (item : String × Tool) (live : item ∈ liveTools tools)
      : ∃ read hash,
          named rows item.1 = some read
          ∧ toolHash item.2 = .ok hash
          ∧ (hash = read.approvedHash ∨ read.observedHash = some hash) := by
    obtain ⟨row, hash, present, hashed, either⟩ := recorded item.1 item.2 live
    have related := reads.find distinct item.1
    change Option.Rel _ _ (named rows item.1) at related
    rw [present] at related
    cases answer : named rows item.1 with
    | none => rw [answer] at related; cases related
    | some read =>
        rw [answer] at related
        cases related with
        | some readBack =>
            refine ⟨read, hash, rfl, hashed, ?_⟩
            rw [readBack.rest]
            exact either
  have decided : ∀ item ∈ liveTools tools,
      judgeable runtime.settings (liveTools tools) rows item := by
    intro item live
    obtain ⟨read, hash, found, hashed, either⟩ := known item live
    rcases either with same | logged
    · simp [judgeable, hashed, found, same]
    · simp [judgeable, hashed, found, logged]
  obtain ⟨swept, judged⟩ := (judge_ok_iff keys).mpr decided
  have verdict := verdict_of_judge keys judged
  have updates : ∀ change ∈ swept.changes rows, ∃ columns, change = .update columns := by
    intro change member
    rcases List.mem_append.mp member with inserted | updated
    · obtain ⟨row, added, rfl⟩ := List.mem_map.mp inserted
      obtain ⟨unknown, tool, live, -⟩ := verdict.added row added
      obtain ⟨read, -, found, -⟩ := known (row.toolName, tool) live
      cases unknown.symm.trans found
    · obtain ⟨row, -, rfl⟩ := List.mem_map.mp updated
      exact ⟨_, rfl⟩
  obtain ⟨after, applied⟩ := exists_updates table updates
  have storable : (swept.changes rows).all BaselineChange.storable := by
    refine (storable_changes_iff verdict (reads.distinct distinct)).mpr ?_
    intro item live stored
    obtain ⟨read, hash, found, hashed, same | logged⟩ := known item live
    · simp [stores, found, hashed, same] at stored
    · simp [stores, found, hashed, logged] at stored
  obtain ⟨writes, reports, -, exec, served⟩ := exists_exec_check identityId reads judged applied
  refine ⟨rows, swept, _, after, exec, served, ?_, reads, judged, applied⟩
  intro event member
  rcases List.mem_cons.mp member with rfl | later
  · rfl
  · rcases List.mem_append.mp later with written | committed
    · obtain ⟨entry, reply, rfl⟩ := reports event written
      trivial
    · cases List.mem_singleton.mp committed
      exact storable.symm

/-- A check that took a tool for a renamed one leaves a row that the next check of the list
changes.
-/
theorem noRename_of_idle (distinct : table.Distinct) (reads : table.Reads serverId rows)
    (judged : judge runtime serverId (liveTools tools) rows = .ok swept)
    (applied : table.applyChanges (swept.changes rows) = some after)
    (idle : ChecksIdly runtime serverId tools after)
    : NoRename (liveTools tools) rows := by
  intro name tool live unknown
  by_contra renamed
  have afterDistinct : after.Distinct := distinct.applyChanges applied
  have recorded : Recorded after serverId tools := by
    intro name tool live
    obtain ⟨row, hash, found, hashed, either, -⟩ := row_of_live distinct reads judged applied live
    exact ⟨row, hash, found, hashed, either⟩
  obtain ⟨again, sweptAgain, events, final, exec, served, available, readsAgain, judgedAgain,
    appliedAgain⟩ := exists_check_recorded runtime "" afterDistinct recorded
  obtain ⟨-, -, same⟩ := idle "" events (.ok ()) final exec served available
  subst same
  obtain ⟨row, hash, found, hashed, -, both⟩ := row_of_live distinct reads judged applied live
  obtain ⟨approved, observed⟩ := both unknown renamed
  -- The second check finds the approved hash, so it clears the observed one.
  have stored := swept_of_commit afterDistinct readsAgain judgedAgain appliedAgain
  obtain ⟨read, now, readBack, -, settled, left⟩ := stored.live name tool row live found
  have flag : read.observedHash = row.observedHash := by rw [readBack.rest]
  have shape : read.approvedHash = row.approvedHash := by rw [readBack.rest]
  rw [apply_diff readBack (settled_settleTool settled), found, Option.some.injEq] at left
  have kept : row.observedHash = now.observedHash := by
    rw [left]
  obtain ⟨live', hashed', ⟨-, rfl⟩ | ⟨differs, -⟩ | ⟨-, differs, -⟩⟩ := settleTool_cases settled
  · rw [flag, observed, Option.isSome_some, if_pos rfl] at kept
    cases kept
  · cases hashed.symm.trans hashed'
    exact differs (approved.trans shape.symm)
  · cases hashed.symm.trans hashed'
    exact differs (approved.trans shape.symm)

end

/-- After a check that returned, a second check of the same list, while the storage is available,
writes no audit row and changes no baseline, exactly if the first check took no tool for a
renamed one.
-/
theorem second_check_idle_iff {runtime : Runtime} {serverId identityId : String}
    {tools : List Tool} {table after : BaselineTable} {events : List (Event Reply)}
    {rows : List ToolBaseline} (distinct : table.Distinct)
    (exec : (check runtime serverId tools identityId).run.Exec events (.ok ()))
    (served : Program.Served BaselineTable.Serves table events after)
    (answer : ⟨.selectBaselines serverId, .ok rows⟩ ∈ events)
    : ChecksIdly runtime serverId tools after ↔ NoRename (liveTools tools) rows := by
  obtain ⟨reads, swept, judged, applied⟩ := commit_of_check exec served answer
  refine ⟨noRename_of_idle distinct reads judged applied, fun noRename => ?_⟩
  exact checksIdly_of_rest (distinct.applyChanges applied)
    (rests_of_commit distinct reads judged applied noRename)

/-- Witness: a first sighting leaves nothing for a second check to do. -/
theorem first_sighting_idle
    : ∃ after : BaselineTable,
        after.row? "mail" "send_mail" ≠ none
        ∧ ChecksIdly calm "mail" [mailTool "send_mail"] after := by
  obtain ⟨hash, hashed⟩ := exists_toolHash (mailTool "send_mail") (by decide)
  have reads : BaselineTable.Reads [] "mail" [] := reads_self (by simp) (by simp)
  have applied : BaselineTable.applyChanges []
      (Sweep.changes [] { rows := [], added := [mailRow "send_mail" hash] })
      = some [mailRow "send_mail" hash] := rfl
  obtain ⟨writes, -, -, exec, served⟩ :=
    exists_exec_check "operator" reads (judge_anchor hashed) applied
  refine ⟨_, ?_, (second_check_idle_iff (by simp [BaselineTable.Distinct]) exec served
    List.mem_cons_self).mpr ?_⟩
  · intro absent
    cases absent
  · intro name tool live unknown
    rfl

/-- A mail server offers `send_mail` as `send_email`. The first check blocks the renamed tool, and
the second check of the same list unblocks it.
-/
theorem second_check_unblocks_renamed
    : ∃ table events after eventsAgain final,
        table.Distinct
        ∧ (check calm "mail" [mailTool "send_email"] "operator").run.Exec events (.ok ())
        ∧ Program.Served BaselineTable.Serves table events after
        ∧ (check calm "mail" [mailTool "send_email"] "operator").run.Exec eventsAgain (.ok ())
        ∧ Program.Served BaselineTable.Serves after eventsAgain final
        ∧ (∀ event ∈ eventsAgain, BaselineTable.Available event)
        ∧ after.blocked "mail" "send_email" = true
        ∧ final.blocked "mail" "send_email" = false
        ∧ ¬ ChecksIdly calm "mail" [mailTool "send_email"] after := by
  obtain ⟨first, firstHash⟩ := exists_toolHash (mailTool "send_mail") (by decide)
  obtain ⟨hash, hashed⟩ := exists_toolHash (mailTool "send_email") (by decide)
  obtain ⟨shape, shaped⟩ := exists_toolHash [("inputSchema", .obj [])] (by decide)
  let anchor := mailRow "send_mail" first
  let renamed := mailRenamed "send_email" hash
  have anchorBack : anchor.ReadBack anchor := ⟨mailTool_readBack _, .none, rfl⟩
  have renamedBack : renamed.ReadBack renamed :=
    ⟨mailTool_readBack _, .some (mailTool_readBack _), rfl⟩
  have anchorServer : anchor.serverId = "mail" := rfl
  have renamedServer : renamed.serverId = "mail" := rfl
  have reads : BaselineTable.Reads [anchor] "mail" [anchor] :=
    reads_self (by simpa using anchorServer) (by simpa using anchorBack)
  have readsAgain : BaselineTable.Reads [anchor, renamed] "mail" [anchor, renamed] :=
    reads_self (by simpa using ⟨anchorServer, renamedServer⟩)
      (by simpa using ⟨anchorBack, renamedBack⟩)
  obtain ⟨writes, -, -, exec, served⟩ :=
    exists_exec_check "operator" reads (judge_rename hashed shaped) (apply_rename first hash)
  obtain ⟨later, reports, -, execAgain, servedAgain⟩ :=
    exists_exec_check "operator" readsAgain (judge_again hashed) (apply_again first hash)
  have available : ∀ event ∈ ⟨.selectBaselines "mail", .ok [anchor, renamed]⟩
      :: (later ++ [⟨.commit (Sweep.changes [anchor, renamed]
        { rows := [anchor.removed, renamed.reverted] }), .ok ()⟩]),
      BaselineTable.Available event := by
    intro event member
    rcases List.mem_cons.mp member with rfl | rest
    · rfl
    · rcases List.mem_append.mp rest with written | committed
      · obtain ⟨entry, reply, rfl⟩ := reports event written
        trivial
      · cases List.mem_singleton.mp committed
        rfl
  have distinct : BaselineTable.Distinct [anchor] := by simp [BaselineTable.Distinct]
  refine ⟨_, _, _, _, _, distinct, exec, served, execAgain, servedAgain, available, rfl, rfl, ?_⟩
  intro idle
  obtain ⟨-, -, same⟩ := idle _ _ _ _ execAgain servedAgain available
  have flags := congrArg (fun table => BaselineTable.blocked table "mail" "send_email") same
  cases flags

end DriftDetector

end SecureMcp
