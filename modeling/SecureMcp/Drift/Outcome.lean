import SecureMcp.Drift.Judgement
import SecureMcp.Drift.Table

/-! What a whole check does to the table of baselines: nothing, or what it decided about each
tool, in one transaction.
-/

namespace SecureMcp

open Interaction

namespace BaselineTable

theorem row?_applyTo (table : BaselineTable) (columns : BaselineUpdate)
    (serverId toolName : String)
    : row? (table.map columns.applyTo) serverId toolName
      = (table.row? serverId toolName).map columns.applyTo :=
  Keyed.find_map columns.applyTo_key table (serverId, toolName)

/-- Rows that are added are found where no row was, by induction on them. -/
theorem row?_inserts {table after : BaselineTable} {added : List ToolBaseline}
    (applied : table.applyChanges (added.map .insert) = some after)
    (serverId toolName : String)
    : after.row? serverId toolName
      = (table.row? serverId toolName).or
          (Keyed.find ToolBaseline.key added (serverId, toolName)) := by
  induction added generalizing table with
  | nil =>
      cases applied
      simp [Keyed.find]
  | cons row rest ih =>
      obtain ⟨middle, first, later⟩ := Option.bind_eq_some_iff.mp applied
      simp only [applyChange] at first
      split at first
      · cases first
      · cases first
        have single := Keyed.find_append ToolBaseline.key table [row] (serverId, toolName)
        have appended := ih later
        rw [row?, row?, single, Option.or_assoc, ← Keyed.find_append] at appended
        exact appended

/-- Updates of distinct rows change each row by its own update, by induction on them. -/
theorem row?_updates {table after : BaselineTable} {original : List ToolBaseline}
    (update : ToolBaseline → BaselineUpdate)
    (named : ∀ row, ((update row).serverId, (update row).toolName) = row.key)
    (distinct : (original.map ToolBaseline.key).Nodup)
    (applied : table.applyChanges (original.map (fun row => .update (update row)))
      = some after)
    (serverId toolName : String)
    : after.row? serverId toolName
      = (table.row? serverId toolName).map (fun row =>
          match Keyed.find ToolBaseline.key original (serverId, toolName) with
          | some known => (update known).apply row
          | none => row) := by
  induction original generalizing table with
  | nil =>
      cases applied
      simp [Keyed.find]
  | cons first rest ih =>
      rw [List.map_cons, List.nodup_cons] at distinct
      have later := ih distinct.2 applied
      rw [row?_applyTo, Option.map_map] at later
      rw [later]
      cases found : table.row? serverId toolName with
      | none => rfl
      | some row =>
          have here : row.key = (serverId, toolName) := Keyed.find_key found
          simp only [Option.map_some, Function.comp_apply, BaselineUpdate.applyTo, here,
            named, Keyed.find_cons]
          by_cases same : first.key = (serverId, toolName)
          · have absent := Keyed.find_eq_none_iff.mpr (same ▸ distinct.1)
            simp [same, absent]
          · simp [same, Ne.symm same]

end BaselineTable

namespace DriftDetector

/-- What a settled row is stored as: its drift columns follow the decision, and its approved
columns stay as they are.
-/
theorem apply_diff {row read now : ToolBaseline} (readBack : row.ReadBack read)
    (settled : Settled read now)
    : (read.diff now).apply row
      = {
          row with
          blocked := now.blocked
          observedHash := now.observedHash
          observedSchema :=
            (ToolBaseline.changedSchema read.observedSchema now.observedSchema).getD
              row.observedSchema
        } := by
  have blocked : row.blocked = read.blocked := by rw [readBack.rest]
  have observedHash : row.observedHash = read.observedHash := by rw [readBack.rest]
  have approvedHash : row.approvedHash = read.approvedHash := by rw [readBack.rest]
  have suspicious : row.suspicious = read.suspicious := by rw [readBack.rest]
  simp only [BaselineUpdate.apply, ToolBaseline.diff, settled.approvedSchema,
    settled.approvedHash, settled.suspicious, blocked, observedHash, getD_changed,
    ToolBaseline.changedSchema]
  simp [ToolBaseline.changed, approvedHash, suspicious]

/-- (Swept … table after) means that a check has stored what it decided over the rows of a
server.
-/
structure Swept (runtime : Runtime) (serverId : String) (tools : List Tool)
    (table after : BaselineTable) (rows : List ToolBaseline)
    : Prop where
  reads : table.Reads serverId rows
  others : ∀ other name, other ≠ serverId → after.row? other name = table.row? other name
  live : ∀ name tool row,
    (name, tool) ∈ liveTools tools
    → table.row? serverId name = some row
    → ∃ read now,
        row.ReadBack read
        ∧ named rows name = some read
        ∧ settleTool runtime.settings read tool = .ok now
        ∧ after.row? serverId name = some ((read.diff now).apply row)
  gone : ∀ name row,
    name ∉ Dict.keys (liveTools tools)
    → table.row? serverId name = some row
    → ∃ read now,
        row.ReadBack read
        ∧ (now = read ∨ now = settleRemoved read)
        ∧ after.row? serverId name = some ((read.diff now).apply row)
  sighted : ∀ name tool,
    (name, tool) ∈ liveTools tools
    → table.row? serverId name = none
    → ∃ row,
        Sighted runtime serverId (liveTools tools) rows name tool row
        ∧ after.row? serverId name = some row
  unseen : ∀ name,
    name ∉ Dict.keys (liveTools tools)
    → table.row? serverId name = none
    → after.row? serverId name = none

/-- Rows of one server are found under its keys by their names. -/
theorem find_key_of_server {rows : List ToolBaseline} {serverId : String}
    (server : ∀ row ∈ rows, row.serverId = serverId) (other name : String)
    : Keyed.find ToolBaseline.key rows (other, name)
      = if other = serverId then named rows name else none := by
  induction rows with
  | nil => simp [named, Keyed.find]
  | cons row rest ih =>
      have here := server row List.mem_cons_self
      have later := ih (fun row member => server row (List.mem_cons_of_mem _ member))
      rw [Keyed.find_cons, later]
      by_cases same : other = serverId
      · simp [named, Keyed.find_cons, ToolBaseline.key, here, same]
      · simp [ToolBaseline.key, here, same, Ne.symm same]

section

variable {runtime : Runtime} {serverId : String} {tools : List Tool}
  {table after : BaselineTable} {rows : List ToolBaseline} {swept : Sweep}

/-- What the transaction of a check leaves under each key, whatever the table has become since the
rows were read.
-/
theorem row?_changes (names : (rows.map ToolBaseline.toolName).Nodup)
    (server : ∀ row ∈ rows, row.serverId = serverId)
    (added : ∀ row ∈ swept.added, row.serverId = serverId)
    (applied : table.applyChanges (swept.changes rows) = some after) (other name : String)
    : after.row? other name
      = if other = serverId then
          ((table.row? other name).or (named swept.added name)).map (fun row =>
            match named rows name with
            | some known => (known.diff ((swept.row? known.toolName).getD known)).apply row
            | none => row)
        else table.row? other name := by
  unfold Sweep.changes BaselineTable.applyChanges at applied
  rw [List.foldlM_append] at applied
  obtain ⟨middle, inserted, updated⟩ := Option.bind_eq_some_iff.mp applied
  have keys : (rows.map ToolBaseline.key).Nodup := by
    refine List.Nodup.of_map Prod.snd ?_
    rw [List.map_map]
    exact names
  have first := BaselineTable.row?_inserts inserted other name
  have later := BaselineTable.row?_updates
    (fun row => row.diff ((swept.row? row.toolName).getD row))
    (fun _ => rfl) keys updated other name
  rw [later, first, find_key_of_server added, find_key_of_server server]
  by_cases same : other = serverId
  · simp only [same, if_true]
  · simp [same]

/-- (SweptTool … name before after) means that what a check decided about the tool of a name turns
the row `before` into `after`.
-/
structure SweptTool (runtime : Runtime) (serverId : String) (tools : List Tool)
    (rows : List ToolBaseline) (name : String) (before after : Option ToolBaseline)
    : Prop where
  live : ∀ tool row,
    (name, tool) ∈ liveTools tools
    → before = some row
    → ∃ read now,
        row.ReadBack read
        ∧ named rows name = some read
        ∧ settleTool runtime.settings read tool = .ok now
        ∧ after = some ((read.diff now).apply row)
  gone : ∀ row,
    name ∉ Dict.keys (liveTools tools)
    → before = some row
    → ∃ read now,
        row.ReadBack read
        ∧ (now = read ∨ now = settleRemoved read)
        ∧ after = some ((read.diff now).apply row)
  sighted : ∀ tool,
    (name, tool) ∈ liveTools tools
    → before = none
    → ∃ row, Sighted runtime serverId (liveTools tools) rows name tool row ∧ after = some row
  unseen : name ∉ Dict.keys (liveTools tools) → before = none → after = none

/-- What a check decided about a tool is what its transaction stores, if the row of the tool is still
the one that was read.
-/
theorem sweptTool_of_commit {earlier : BaselineTable} (distinct : earlier.Distinct)
    (reads : earlier.Reads serverId rows)
    (judged : judge runtime serverId (liveTools tools) rows = .ok swept)
    (applied : table.applyChanges (swept.changes rows) = some after) {name : String}
    (undisturbed : table.row? serverId name = earlier.row? serverId name)
    : SweptTool runtime serverId tools rows name (table.row? serverId name)
        (after.row? serverId name) := by
  have verdict := verdict_of_judge (Dict.nodup_ofPairs _) judged
  have added : ∀ row ∈ swept.added, row.serverId = serverId := by
    intro row member
    obtain ⟨_, tool, _, sighted⟩ := verdict.added row member
    exact sighted.serverId
  have stored := row?_changes (reads.distinct distinct) reads.server added applied serverId name
  have related := reads.find distinct name
  rw [← undisturbed] at related
  -- A row of the table is read back and judged; no row is added under its name.
  have known (row : ToolBaseline) (there : table.row? serverId name = some row)
      : ∃ read, row.ReadBack read ∧ named rows name = some read
          ∧ ∀ now, named swept.rows name = some now
            → after.row? serverId name = some ((read.diff now).apply row) := by
    rw [there] at related
    cases answer : Keyed.find ToolBaseline.toolName rows name with
    | none =>
        rw [answer] at related
        cases related
    | some read =>
        rw [answer] at related
        cases related with
        | some readBack =>
            refine ⟨read, readBack, answer, ?_⟩
            intro now decided
            have called : read.toolName = name := Keyed.find_key answer
            have present : swept.row? read.toolName = some now := called.symm ▸ decided
            have read? : named rows name = some read := answer
            rw [stored, if_pos rfl, there, Option.some_or, Option.map_some, read?]
            simp only [present, Option.getD_some]
  have unknown (absent : table.row? serverId name = none)
      : named rows name = none ∧ after.row? serverId name = named swept.added name := by
    rw [absent] at related
    cases answer : Keyed.find ToolBaseline.toolName rows name with
    | some read =>
        rw [answer] at related
        cases related
    | none =>
        have read? : named rows name = none := answer
        refine ⟨read?, ?_⟩
        rw [stored, if_pos rfl, absent, Option.none_or, read?]
        simp
  refine ⟨?_, ?_, ?_, ?_⟩
  · intro tool row member there
    obtain ⟨read, readBack, read?, decided⟩ := known row there
    obtain ⟨now, settled, now?⟩ := verdict.settled name tool read member read?
    exact ⟨read, now, readBack, read?, settled, decided now now?⟩
  · intro row absent there
    obtain ⟨read, readBack, read?, decided⟩ := known row there
    obtain ⟨now, settled, now?⟩ := verdict.gone name read absent read?
    exact ⟨read, now, readBack, settled, decided now now?⟩
  · intro tool member absent
    obtain ⟨read?, added?⟩ := unknown absent
    obtain ⟨row, there, sighted⟩ := verdict.sighted name tool member read?
    refine ⟨row, sighted, ?_⟩
    rw [added?, ← sighted.toolName]
    exact Keyed.find_of_mem verdict.distinct there
  · intro missing absent
    rw [(unknown absent).2]
    refine Keyed.find_eq_none_iff.mpr ?_
    intro member
    obtain ⟨row, there, called⟩ := List.mem_map.mp member
    obtain ⟨_, tool, live, _⟩ := verdict.added row there
    exact missing (List.mem_map.mpr ⟨_, called ▸ live, rfl⟩)

/-- What a check decided is what its transaction stores. -/
theorem swept_of_commit (distinct : table.Distinct) (reads : table.Reads serverId rows)
    (judged : judge runtime serverId (liveTools tools) rows = .ok swept)
    (applied : table.applyChanges (swept.changes rows) = some after)
    : Swept runtime serverId tools table after rows := by
  have each (name : String) := sweptTool_of_commit distinct reads judged applied
    (rfl : table.row? serverId name = table.row? serverId name)
  have added : ∀ row ∈ swept.added, row.serverId = serverId := by
    intro row member
    obtain ⟨_, tool, _, sighted⟩ :=
      (verdict_of_judge (Dict.nodup_ofPairs _) judged).added row member
    exact sighted.serverId
  refine ⟨reads, ?_, ?_, ?_, ?_, ?_⟩
  · intro other name differs
    rw [row?_changes (reads.distinct distinct) reads.server added applied, if_neg differs]
  · intro name tool row member there
    exact (each name).live tool row member there
  · intro name row absent there
    exact (each name).gone row absent there
  · intro name tool member absent
    exact (each name).sighted tool member absent
  · intro name missing absent
    exact (each name).unseen missing absent

/-- Writing audit rows keeps the table. -/
theorem served_reports {writes : List (Event Reply)} {table after : BaselineTable}
    (reports : ∀ event ∈ writes, auditKind.report event)
    (served : Program.Served BaselineTable.Serves table writes after)
    : after = table := by
  refine served.unchanged (fun event member before next step => ?_)
  obtain ⟨entry, reply, rfl⟩ := reports event member
  exact step

/-- Every served execution of a check keeps the table, and then raises, or stores what it
decided about each tool.
-/
theorem exec_check_served {identityId : String} {events : List (Event Reply)}
    {outcome : Except Exn Unit} (distinct : table.Distinct)
    (exec : (check runtime serverId tools identityId).run.Exec events outcome)
    (served : Program.Served BaselineTable.Serves table events after)
    : (after = table ∧ ∃ exn, outcome = .error exn)
      ∨ (outcome = .ok () ∧ ∃ rows, Swept runtime serverId tools table after rows) := by
  rcases exec_check exec with ⟨exn, same, raised⟩ | ⟨rows, writes, reports, ended⟩
  · subst same
    obtain ⟨middle, kept, tail⟩ := Program.served_cons_iff.mp served
    exact Or.inl ⟨(Program.served_nil_iff.mp tail).trans kept, exn, raised⟩
  · rcases ended with ⟨same, raised, _⟩ | ⟨swept, reply, same, ended, judged, _⟩
    · subst same
      obtain ⟨middle, ⟨read, _⟩, tail⟩ := Program.served_cons_iff.mp served
      exact Or.inl ⟨(served_reports reports tail).trans read, raised⟩
    · subst same
      obtain ⟨middle, ⟨read, reads⟩, tail⟩ := Program.served_cons_iff.mp served
      obtain ⟨later, written, last⟩ := Program.served_append_iff.mp tail
      obtain ⟨final, committed, nil⟩ := Program.served_cons_iff.mp last
      have same := Program.served_nil_iff.mp nil
      have before := served_reports reports written
      subst read before same
      cases reply with
      | error exn => exact Or.inl ⟨committed, exn, ended⟩
      | ok _ => exact Or.inr ⟨ended, rows, swept_of_commit distinct reads judged committed⟩

/-- A check that returns has committed what it decided over the rows that it read. -/
theorem commit_of_check {identityId : String} {events : List (Event Reply)}
    (exec : (check runtime serverId tools identityId).run.Exec events (.ok ()))
    (served : Program.Served BaselineTable.Serves table events after)
    (answer : ⟨.selectBaselines serverId, .ok rows⟩ ∈ events)
    : table.Reads serverId rows
      ∧ ∃ swept,
          judge runtime serverId (liveTools tools) rows = .ok swept
          ∧ table.applyChanges (swept.changes rows) = some after := by
  rcases exec_check exec with ⟨exn, -, raised⟩ | ⟨answered, writes, reports, ended⟩
  · cases raised
  · rcases ended with ⟨-, ⟨exn, raised⟩, -⟩ | ⟨swept, reply, rfl, same, judged, -⟩
    · cases raised
    · cases same
      have first : rows = answered := by
        rcases List.mem_cons.mp answer with here | later
        · cases here
          rfl
        · rcases List.mem_append.mp later with written | committed
          · obtain ⟨entry, reply, impossible⟩ := reports _ written
            cases impossible
          · cases List.mem_singleton.mp committed
      subst first
      obtain ⟨middle, ⟨queried, reads⟩, tail⟩ := Program.served_cons_iff.mp served
      obtain ⟨before, written, last⟩ := Program.served_append_iff.mp tail
      obtain ⟨final, committed, nil⟩ := Program.served_cons_iff.mp last
      cases Program.served_nil_iff.mp nil
      cases served_reports reports written
      cases queried
      exact ⟨reads, swept, judged, committed⟩

end

/-- Replies with which every call succeeds. -/
def granted : (call : Call) → Reply call
  | .engine => { policy := { version := 1 } }
  | .time => 0
  | .utcHour => 0
  | .setNonce _ _ => .ok true
  | .redeemChallenge _ _ _ _ _ => .ok none
  | .createChallenge _ _ _ => .ok ""
  | .redeemApproval _ _ _ => .ok none
  | .createApproval _ _ _ => .ok ""
  | .score _ _ _ => .ok (0, [])
  | .recordDenial _ => .ok ()
  | .cacheGet _ => .ok none
  | .cacheSet _ _ => .ok ()
  | .cacheDelete _ => .ok ()
  | .isBlocked _ _ => .ok false
  | .selectBaselines _ => .ok []
  | .selectBaseline _ _ => .ok none
  | .commit _ => .ok ()
  | .write _ => .ok 1
  | .listTools => .ok []
  | .setPending _ _ => ()
  | .popPending _ => ()

/-- What a check decides it can also store, when nothing it calls fails. -/
theorem exists_exec_check {runtime : Runtime} {serverId : String} {tools : List Tool}
    {table after : BaselineTable} {rows : List ToolBaseline} {swept : Sweep}
    (identityId : String) (reads : table.Reads serverId rows)
    (judged : judge runtime serverId (liveTools tools) rows = .ok swept)
    (applied : table.applyChanges (swept.changes rows) = some after)
    : ∃ writes,
        (∀ event ∈ writes, auditKind.report event)
        ∧ (∀ event ∈ writes, ¬ auditKind.failed event)
        ∧ (check runtime serverId tools identityId).run.Exec
            (⟨.selectBaselines serverId, .ok rows⟩
              :: (writes ++ [⟨.commit (swept.changes rows), .ok ()⟩]))
            (.ok ())
        ∧ Program.Served BaselineTable.Serves table
            (⟨.selectBaselines serverId, .ok rows⟩
              :: (writes ++ [⟨.commit (swept.changes rows), .ok ()⟩]))
            after := by
  obtain ⟨writes, exec, only, fine⟩ :=
    (reports_visit runtime serverId identityId (liveTools tools) rows).exists_exec granted
      (fun call => by
        rintro ⟨entry, exn, same⟩
        cases call <;> cases same)
  rw [judged] at exec
  refine ⟨writes, only, fine, ?_, ?_⟩
  · refine Coroutine.exec_bind_ok_iff.mpr ⟨[_], _, rows, rfl, ?_, ?_⟩
    · exact Coroutine.exec_demand_iff.mpr ⟨.ok rows, rfl, rfl⟩
    · refine Coroutine.exec_bind_ok_iff.mpr ⟨writes, _, swept, rfl, exec, ?_⟩
      exact Coroutine.exec_demand_iff.mpr ⟨.ok (), rfl, rfl⟩
  · have kept : Program.Served BaselineTable.Serves table writes table := by
      refine Program.served_of_unchanged (fun event member => ?_)
      obtain ⟨entry, reply, rfl⟩ := only event member
      rfl
    refine .cons ⟨rfl, reads⟩ (Program.served_append_iff.mpr ⟨table, kept, ?_⟩)
    exact .cons applied (.nil after)

theorem reads_self {table : BaselineTable} {serverId : String}
    (server : ∀ row ∈ table, row.serverId = serverId)
    (stable : ∀ row ∈ table, row.ReadBack row)
    : table.Reads serverId table := by
  have all : table.ofServer serverId = table :=
    List.filter_eq_self.mpr (fun row member => by simp [server row member])
  refine ⟨table, ?_, .refl _⟩
  rw [all]
  exact List.forall₂_same.mpr stable

/-- A process whose scan finds nothing and whose validator accepts everything. -/
def calm : Runtime where
  search _ _ := false
  isUuid _ := true
  validateSchema _ _ := .conforms

theorem exists_toolHash (tool : Tool) (numbers : CanonicalJson.finite (.obj tool))
    : ∃ hash, toolHash tool = .ok hash :=
  CanonicalJson.exists_hash numbers

/-- Writing an audit row keeps the table. -/
theorem served_write {entry : AuditEntry} {table after : BaselineTable}
    {events : List (Event Reply)} {outcome : Except Exn Nat}
    (exec : (AuditWriter.write entry).run.Exec events outcome)
    (served : Program.Served BaselineTable.Serves table events after)
    : after = table := by
  obtain ⟨_, kept, _⟩ := Coroutine.exec_demand_served exec served
  exact kept

theorem served_writeIf {condition : Bool} {entry : AuditEntry} {table after : BaselineTable}
    {events : List (Event Reply)} {outcome : Except Exn Unit}
    (exec : (AuditWriter.writeIf condition entry).run.Exec events outcome)
    (served : Program.Served BaselineTable.Serves table events after)
    : after = table := by
  unfold AuditWriter.writeIf at exec
  cases condition with
  | false => exact (Coroutine.exec_ofExcept_served exec served).1
  | true =>
      rcases Coroutine.exec_bind_served exec served with
        ⟨_, _, written⟩ | ⟨_, _, _, _, _, written, before, done, served⟩
      · exact served_write written served
      · exact (Coroutine.exec_ofExcept_served done served).1.trans (served_write written before)

/-- Every served execution of an approval keeps the table and raises, or promotes the
observed schema of the tool.
-/
theorem exec_approve_served {runtime : Runtime} {serverId toolName approvedBy : String}
    {table after : BaselineTable} {events : List (Event Reply)} {outcome : Except Exn Nat}
    (exec : (approve runtime serverId toolName approvedBy).run.Exec events outcome)
    (served : Program.Served BaselineTable.Serves table events after)
    : (after = table ∧ ∃ exn, outcome = .error exn)
      ∨ ((∃ seq, outcome = .ok seq)
        ∧ ∃ row read observed newHash suspicious,
            table.row? serverId toolName = some row
            ∧ row.ReadBack read
            ∧ read.observedSchema = some observed
            ∧ promotedHash read observed = .ok newHash
            ∧ after = table.map
                (read.diff (read.promoted observed newHash suspicious)).applyTo) := by
  unfold approve at exec
  rcases Coroutine.exec_bind_served exec served with
    ⟨exn, raised, query⟩ | ⟨_, _, found, _, _, query, asked, exec, served⟩
  · obtain ⟨reply, kept, answered⟩ := Coroutine.exec_demand_served query served
    cases answered
    exact Or.inl ⟨kept, exn, raised⟩
  obtain ⟨reply, answer, answered⟩ := Coroutine.exec_demand_served query asked
  cases answered
  obtain ⟨kept, related⟩ := answer
  cases kept
  cases found with
  | none =>
      obtain ⟨kept, raised⟩ := Coroutine.exec_ofExcept_served exec served
      exact Or.inl ⟨kept, _, raised.symm⟩
  | some read =>
  cases pending : read.observedSchema with
  | none =>
      simp only [pending] at exec
      obtain ⟨kept, raised⟩ := Coroutine.exec_ofExcept_served exec served
      exact Or.inl ⟨kept, _, raised.symm⟩
  | some observed =>
  simp only [pending] at exec
  cases present : table.row? serverId toolName with
  | none =>
      rw [present] at related
      cases related
  | some row =>
  rw [present] at related
  cases related with
  | some readBack =>
  rcases Coroutine.exec_bind_served exec served with
    ⟨exn, raised, hash⟩ | ⟨_, _, newHash, _, _, hash, before, exec, served⟩
  · exact Or.inl ⟨(Coroutine.exec_ofExcept_served hash served).1, exn, raised⟩
  obtain ⟨kept, promoted⟩ := Coroutine.exec_ofExcept_served hash before
  cases kept
  rcases Coroutine.exec_bind_served exec served with
    ⟨exn, raised, flagged⟩ | ⟨_, _, _, _, _, flagged, before, exec, served⟩
  · exact Or.inl ⟨served_writeIf flagged served, exn, raised⟩
  cases served_writeIf flagged before
  rcases Coroutine.exec_bind_served exec served with
    ⟨exn, raised, approved⟩ | ⟨_, _, seq, _, _, approved, before, exec, served⟩
  · exact Or.inl ⟨served_write approved served, exn, raised⟩
  cases served_write approved before
  rcases Coroutine.exec_bind_served exec served with
    ⟨exn, raised, commit⟩ | ⟨_, _, _, _, _, commit, stored, exec, served⟩
  · obtain ⟨reply, kept, answered⟩ := Coroutine.exec_demand_served commit served
    cases answered
    exact Or.inl ⟨kept, exn, raised⟩
  obtain ⟨reply, applied, answered⟩ := Coroutine.exec_demand_served commit stored
  obtain ⟨kept, returned⟩ := Coroutine.exec_ofExcept_served exec served
  cases answered
  cases applied
  exact Or.inr ⟨⟨seq, returned.symm⟩, row, read, observed, newHash, _, rfl, readBack, pending,
    promoted, kept⟩

end DriftDetector

end SecureMcp
