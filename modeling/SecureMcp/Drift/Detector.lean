import SecureMcp.Effects

/-! The drift detector's operations on the baselines of a server. A check reads them once,
decides every tool on its own copy of the rows while it writes audit rows, and commits the
changed columns at its end.
-/

namespace SecureMcp

open Interaction

namespace ToolBaseline

/-- A schema column counts as changed when it was assigned a value that Python's `==` tells
from the old one.
-/
def changedSchema (old new : Option Tool) : Option (Option Tool) :=
  match old, new with
  | some before, some after =>
      if before = after || (Json.obj before).pyEq (.obj after) then none else some new
  | none, none => none
  | _, _ => some new

def changed {α : Type} [DecidableEq α] (old new : α) : Option α :=
  if old = new then none else some new

/-- The columns in which two versions of a row differ. -/
def diff (old new : ToolBaseline) : BaselineUpdate where
  serverId := old.serverId
  toolName := old.toolName
  approvedSchema := (changedSchema (some old.approvedSchema) (some new.approvedSchema)).join
  approvedHash := changed old.approvedHash new.approvedHash
  blocked := changed old.blocked new.blocked
  observedSchema := changedSchema old.observedSchema new.observedSchema
  observedHash := changed old.observedHash new.observedHash
  suspicious := changed old.suspicious new.suspicious

/-- A row whose tool was seen in its approved shape again. -/
def reverted (row : ToolBaseline) : ToolBaseline :=
  { row with observedHash := none, observedSchema := none, blocked := false }

/-- A row whose tool was seen in a new shape. -/
def drifted (row : ToolBaseline) (tool : Tool) (liveHash : String) (severity : DriftSeverity)
    : ToolBaseline :=
  {
    row with
    observedSchema := some tool
    observedHash := some liveHash
    blocked := row.blocked || severity.blocks
  }

/-- The observed hash of a tool that is missing from the live list. -/
def removedSentinel : String :=
  String.ofList (List.replicate 64 '-')

def removed (row : ToolBaseline) : ToolBaseline :=
  { row with observedHash := some removedSentinel, observedSchema := none }

/-- The row of a tool that is seen for the first time. -/
def firstSeen (serverId name : String) (tool : Tool) (liveHash : String) (suspicious : Bool)
    : ToolBaseline where
  serverId := serverId
  toolName := name
  approvedSchema := tool
  approvedHash := liveHash
  suspicious := suspicious

/-- The row of a tool that was taken for a renamed one: new and unapproved, so baselined but
blocked until approval.
-/
def renamed (serverId name : String) (tool : Tool) (liveHash : String) (suspicious : Bool)
    : ToolBaseline :=
  {
    firstSeen serverId name tool liveHash suspicious with
    blocked := true
    observedSchema := some tool
    observedHash := some liveHash
  }

/-- A row whose observed schema was approved. -/
def promoted (row : ToolBaseline) (observed : Tool) (newHash : String) (suspicious : Bool)
    : ToolBaseline :=
  {
    row with
    approvedSchema := observed
    approvedHash := newHash
    observedSchema := none
    observedHash := none
    blocked := false
    suspicious := suspicious
  }

end ToolBaseline

namespace DriftDetector

/-- The copy of the rows that a check works on: the rows it read, in their present state,
the rows it adds, and the tools whose rows it took for renamed ones.
-/
structure Sweep where
  rows : List ToolBaseline
  added : List ToolBaseline := []
  renamedSources : List String := []

namespace Sweep

def row? (sweep : Sweep) (name : String) : Option ToolBaseline :=
  sweep.rows.find? (fun row => row.toolName = name)

/-- Change the row that goes by the name of the given one. -/
def putRow (changed : ToolBaseline) : List ToolBaseline → List ToolBaseline
  | [] => []
  | row :: rest =>
      if row.toolName = changed.toolName then changed :: rest else row :: putRow changed rest

def setRow (sweep : Sweep) (changed : ToolBaseline) : Sweep :=
  { sweep with rows := putRow changed sweep.rows }

/-- What the session flushes: the rows that were added, and what changed in each row that
was read.
-/
def changes (original : List ToolBaseline) (sweep : Sweep) : List BaselineChange :=
  sweep.added.map .insert
  ++ original.map (fun row => .update (row.diff ((sweep.row? row.toolName).getD row)))

end Sweep

/-- The first tool that is gone from the list and had the same shape. -/
def renameSource (live : List (String × Tool)) (tool : Tool)
    : List ToolBaseline → Except Exn (Option String)
  | [] => return none
  | row :: rest => do
      if row.toolName ∈ Dict.keys live then renameSource live tool rest
      else if (← shapeHash row.approvedSchema) = (← shapeHash tool) then
        return some row.toolName
      else renameSource live tool rest

def firstSighting (runtime : Runtime) (serverId identityId : String)
    (live : List (String × Tool)) (sweep : Sweep) (name : String) (tool : Tool)
    : Async Sweep := do
  let liveHash ← Coroutine.ofExcept (toolHash tool)
  let findings := scanDescriptions runtime tool
  let key : CallKey := ⟨identityId, serverId, name⟩
  AuditWriter.writeIf (!findings.isEmpty) (flaggedEntry key findings)
  match ← Coroutine.ofExcept (renameSource live tool sweep.rows) with
  | none =>
      let row := ToolBaseline.firstSeen serverId name tool liveHash (!findings.isEmpty)
      return { sweep with added := sweep.added ++ [row] }
  | some source =>
      let _ ← AuditWriter.write (renamedEntry key source liveHash)
      let row := ToolBaseline.renamed serverId name tool liveHash (!findings.isEmpty)
      return {
        sweep with
        added := sweep.added ++ [row]
        renamedSources := source :: sweep.renamedSources
      }

/-- One tool of the live list. -/
def checkTool (runtime : Runtime) (serverId identityId : String)
    (live : List (String × Tool)) (sweep : Sweep) (name : String) (tool : Tool)
    : Async Sweep := do
  match sweep.row? name with
  | none => firstSighting runtime serverId identityId live sweep name tool
  | some row =>
      let liveHash ← Coroutine.ofExcept (toolHash tool)
      if liveHash = row.approvedHash then
        if row.observedHash.isSome then return sweep.setRow row.reverted else return sweep
      else if row.observedHash = some liveHash then
        -- This exact drift is already logged.
        return sweep
      else
        let classified ← Coroutine.ofExcept (classify runtime.settings row.approvedSchema tool)
        let severity := classified.getD .high
        let key : CallKey := ⟨identityId, serverId, name⟩
        let _ ← AuditWriter.write (driftEntry key severity row.approvedHash liveHash)
        return sweep.setRow (row.drifted tool liveHash severity)

/-- One row of the baselines, once every live tool was seen. -/
def checkRemoved (serverId identityId : String) (live : List (String × Tool)) (sweep : Sweep)
    (name : String)
    : Async Sweep := do
  if name ∈ Dict.keys live || name ∈ sweep.renamedSources then return sweep
  match sweep.row? name with
  | none => return sweep
  | some row =>
      if row.observedHash = some ToolBaseline.removedSentinel then return sweep
      let _ ← AuditWriter.write (removedEntry ⟨identityId, serverId, name⟩)
      return sweep.setRow row.removed

/-- The tools of a list under their names; the last one of a name counts. -/
def liveTools (tools : List Tool) : List (String × Tool) :=
  Dict.ofPairs (tools.map (fun tool => (tool.name, tool)))

/-- The two loops of a check, over the live tools and then over the rows it read. -/
def visit (runtime : Runtime) (serverId identityId : String) (live : List (String × Tool))
    (baselines : List ToolBaseline)
    : Async Sweep := do
  let seen ← live.foldlM
    (fun sweep item => checkTool runtime serverId identityId live sweep item.1 item.2)
    { rows := baselines }
  (baselines.map ToolBaseline.toolName).foldlM (checkRemoved serverId identityId live) seen

/-- Run drift detection over a freshly observed tools list. -/
def check (runtime : Runtime) (serverId : String) (tools : List Tool) (identityId : String)
    : Async Unit := do
  let baselines ← Coroutine.demand (.selectBaselines serverId) id
  let swept ← visit runtime serverId identityId (liveTools tools) baselines
  Coroutine.demand (.commit (swept.changes baselines)) id

def isBlocked (serverId toolName : String) : Async Bool :=
  Coroutine.demand (.isBlocked serverId toolName) id

/-- `observed_hash or tool_hash(observed_schema)`: an empty hash is falsy. -/
def promotedHash (row : ToolBaseline) (observed : Tool) : Except Exn String :=
  match row.observedHash with
  | some hash => if hash = "" then toolHash observed else .ok hash
  | none => toolHash observed

/-- Promote the observed schema of a tool to its baseline. -/
def approve (runtime : Runtime) (serverId toolName approvedBy : String) : Async Nat := do
  match ← Coroutine.demand (.selectBaseline serverId toolName) id with
  | none => throw (.lookupError "no pending drift for this tool")
  | some row =>
      match row.observedSchema with
      | none => throw (.lookupError "no pending drift for this tool")
      | some observed =>
          let newHash ← Coroutine.ofExcept (promotedHash row observed)
          let findings := scanDescriptions runtime observed
          let key : CallKey := ⟨approvedBy, serverId, toolName⟩
          AuditWriter.writeIf (!findings.isEmpty && !row.suspicious) (flaggedEntry key findings)
          let seq ← AuditWriter.write (approvedEntry key row.approvedHash newHash)
          let promoted := row.promoted observed newHash (!findings.isEmpty)
          Coroutine.demand (.commit [.update (row.diff promoted)]) id
          return seq

end DriftDetector

end SecureMcp
