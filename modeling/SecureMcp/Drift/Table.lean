import SecureMcp.Drift.Detector
import SecureMcp.Library.Keyed
import SecureMcp.Storage.Jsonb

/-! The table of baselines in Postgres, and how it answers the drift detector's requests.
A row that is read back has its schemas as the JSONB columns give them back; every other
column is as it was written.
-/

namespace SecureMcp

open Interaction

/-- The rows of all servers. -/
abbrev BaselineTable : Type := List ToolBaseline

/-- A server and a tool name are the primary key. -/
def ToolBaseline.key (row : ToolBaseline) : String × String :=
  (row.serverId, row.toolName)

/-- What a schema column gives back. -/
def Tool.ReadBack (tool stored : Tool) : Prop :=
  Jsonb.ReadBack (.obj tool) (.obj stored)

/-- A row as a query returns it. -/
structure ToolBaseline.ReadBack (row read : ToolBaseline) : Prop where
  approvedSchema : row.approvedSchema.ReadBack read.approvedSchema
  observedSchema : Option.Rel Tool.ReadBack row.observedSchema read.observedSchema
  rest :
    read = {
      row with
      approvedSchema := read.approvedSchema
      observedSchema := read.observedSchema
    }

theorem ToolBaseline.ReadBack.toolName {row read : ToolBaseline}
    (readBack : row.ReadBack read)
    : read.toolName = row.toolName := by
  rw [readBack.rest]

theorem ToolBaseline.ReadBack.serverId {row read : ToolBaseline}
    (readBack : row.ReadBack read)
    : read.serverId = row.serverId := by
  rw [readBack.rest]

/-- Write the columns of an update. -/
def BaselineUpdate.apply (columns : BaselineUpdate) (row : ToolBaseline) : ToolBaseline :=
  {
    row with
    approvedSchema := columns.approvedSchema.getD row.approvedSchema
    approvedHash := columns.approvedHash.getD row.approvedHash
    blocked := columns.blocked.getD row.blocked
    observedSchema := columns.observedSchema.getD row.observedSchema
    observedHash := columns.observedHash.getD row.observedHash
    suspicious := columns.suspicious.getD row.suspicious
  }

/-- Write the columns of an update to the row that it names. -/
def BaselineUpdate.applyTo (columns : BaselineUpdate) (row : ToolBaseline) : ToolBaseline :=
  if row.key = (columns.serverId, columns.toolName) then columns.apply row else row

theorem BaselineUpdate.applyTo_key (columns : BaselineUpdate) (row : ToolBaseline)
    : (columns.applyTo row).key = row.key := by
  unfold applyTo
  split <;> rfl

theorem getD_changed {α : Type} [DecidableEq α] (old new : α)
    : (ToolBaseline.changed old new).getD old = new := by
  unfold ToolBaseline.changed
  split
  · next same => exact same
  · rfl

namespace BaselineTable

def row? (table : BaselineTable) (serverId toolName : String) : Option ToolBaseline :=
  Keyed.find ToolBaseline.key table (serverId, toolName)

/-- Whether a tool is blocked; a tool without a row is not. -/
def blocked (table : BaselineTable) (serverId toolName : String) : Bool :=
  (table.row? serverId toolName).any ToolBaseline.blocked

/-- The rows of a server in table order. -/
def ofServer (table : BaselineTable) (serverId : String) : List ToolBaseline :=
  table.filter (fun row => row.serverId = serverId)

/-- The primary key admits one row for a server and a tool. -/
def Distinct (table : BaselineTable) : Prop :=
  (table.map ToolBaseline.key).Nodup

/-- One change of a transaction. A second row under one key is refused. -/
def applyChange (table : BaselineTable) : BaselineChange → Option BaselineTable
  | .update columns => some (table.map columns.applyTo)
  | .insert row =>
      if (table.row? row.serverId row.toolName).isSome then none else some (table ++ [row])

def applyChanges (table : BaselineTable) (changes : List BaselineChange)
    : Option BaselineTable :=
  changes.foldlM applyChange table

/-- (table.Reads serverId rows) means that `rows` is what a query for a server may return:
its rows in any order.
-/
def Reads (table : BaselineTable) (serverId : String) (rows : List ToolBaseline) : Prop :=
  ∃ read, List.Forall₂ ToolBaseline.ReadBack (table.ofServer serverId) read ∧ read.Perm rows

/-- How the table answers. A commit that raises is rolled back, and requests to anything
else leave the table as it is.
-/
def Serves (table : BaselineTable) (event : Event Reply) (after : BaselineTable) : Prop :=
  match event with
  | ⟨.selectBaselines serverId, .ok rows⟩ => after = table ∧ table.Reads serverId rows
  | ⟨.selectBaseline serverId toolName, .ok row⟩ =>
      after = table ∧ Option.Rel ToolBaseline.ReadBack (table.row? serverId toolName) row
  | ⟨.isBlocked serverId toolName, .ok blocked⟩ =>
      after = table ∧ blocked = table.blocked serverId toolName
  | ⟨.commit changes, .ok _⟩ => table.applyChanges changes = some after
  | _ => after = table

theorem Distinct.applyChange {table after : BaselineTable} {change : BaselineChange}
    (distinct : table.Distinct) (applied : table.applyChange change = some after)
    : after.Distinct := by
  cases change with
  | update columns =>
      cases applied
      unfold Distinct
      rw [Keyed.map_key_map columns.applyTo_key]
      exact distinct
  | insert row =>
      simp only [BaselineTable.applyChange] at applied
      split at applied
      · cases applied
      · next absent =>
          cases applied
          have fresh := Keyed.find_eq_none_iff.mp (Option.not_isSome_iff_eq_none.mp absent)
          unfold Distinct
          rw [List.map_append, List.nodup_append]
          refine ⟨distinct, by simp, ?_⟩
          intro key member last single
          rw [List.map_singleton, List.mem_singleton] at single
          intro same
          rw [same, single] at member
          exact fresh member

theorem Distinct.applyChanges {table after : BaselineTable} {changes : List BaselineChange}
    (distinct : table.Distinct) (applied : table.applyChanges changes = some after)
    : after.Distinct := by
  induction changes generalizing table with
  | nil =>
      cases applied
      exact distinct
  | cons change rest ih =>
      obtain ⟨middle, first, later⟩ := Option.bind_eq_some_iff.mp applied
      exact ih (distinct.applyChange first) later

/-- Every answer keeps the primary key. -/
theorem Distinct.serves {table after : BaselineTable} {event : Event Reply}
    (distinct : table.Distinct) (served : table.Serves event after)
    : after.Distinct := by
  unfold Serves at served
  split at served
  · exact served.1 ▸ distinct
  · exact served.1 ▸ distinct
  · exact served.1 ▸ distinct
  · exact distinct.applyChanges served
  · exact served ▸ distinct

/-- What is found among the rows of a server is what the table has under the server. -/
theorem find_ofServer (table : BaselineTable) (serverId name : String)
    : Keyed.find ToolBaseline.toolName (table.ofServer serverId) name
      = table.row? serverId name := by
  unfold Keyed.find ofServer row? Keyed.find
  rw [List.find?_filter]
  congr 1
  funext row
  simp [ToolBaseline.key]

/-- The names of the rows of a server are distinct. -/
theorem Distinct.ofServer {table : BaselineTable} (distinct : table.Distinct)
    (serverId : String)
    : ((table.ofServer serverId).map ToolBaseline.toolName).Nodup := by
  refine List.Nodup.of_map (fun name => (serverId, name)) ?_
  have keys : ((table.ofServer serverId).map ToolBaseline.toolName).map
      (fun name => (serverId, name))
      = (table.ofServer serverId).map ToolBaseline.key := by
    rw [List.map_map]
    refine List.map_congr_left (fun row member => ?_)
    have server : row.serverId = serverId := by simpa using (List.mem_filter.mp member).2
    simp [ToolBaseline.key, server]
  rw [keys]
  exact distinct.sublist (List.filter_sublist.map _)

/-- A query returns the rows of a server under their names. -/
theorem Reads.find {table : BaselineTable} {serverId : String} {rows : List ToolBaseline}
    (reads : table.Reads serverId rows) (distinct : table.Distinct) (name : String)
    : Option.Rel ToolBaseline.ReadBack (table.row? serverId name)
        (Keyed.find ToolBaseline.toolName rows name) := by
  obtain ⟨read, each, same⟩ := reads
  have readDistinct : (read.map ToolBaseline.toolName).Nodup := by
    rw [Keyed.map_key_forall₂ (fun _ _ readBack => readBack.toolName) each]
    exact distinct.ofServer serverId
  rw [Keyed.find_perm readDistinct same, ← find_ofServer]
  exact Keyed.find_forall₂ (fun _ _ readBack => readBack.toolName) each name

/-- The rows that a query returns have distinct names. -/
theorem Reads.distinct {table : BaselineTable} {serverId : String}
    {rows : List ToolBaseline} (reads : table.Reads serverId rows)
    (distinct : table.Distinct)
    : (rows.map ToolBaseline.toolName).Nodup := by
  obtain ⟨read, each, same⟩ := reads
  refine (same.map ToolBaseline.toolName).nodup_iff.mp ?_
  rw [Keyed.map_key_forall₂ (fun _ _ readBack => readBack.toolName) each]
  exact distinct.ofServer serverId

/-- The rows that a query returns are of the server. -/
theorem Reads.server {table : BaselineTable} {serverId : String}
    {rows : List ToolBaseline} (reads : table.Reads serverId rows)
    : ∀ row ∈ rows, row.serverId = serverId := by
  obtain ⟨read, each, same⟩ := reads
  intro row member
  have servers := Keyed.map_key_forall₂ (fun _ _ readBack => readBack.serverId) each
  have listed := List.mem_map_of_mem (f := ToolBaseline.serverId) (same.mem_iff.mpr member)
  rw [servers] at listed
  obtain ⟨original, there, equal⟩ := List.mem_map.mp listed
  rw [← equal]
  simpa using (List.mem_filter.mp there).2

end BaselineTable

end SecureMcp
