import SecureMcp.Drift.Outcome
import SecureMcp.Library.Machine

/-! How long a drift block lasts, over runs of checks and approvals of any servers. A block
outlasts every operation that does not lift it, except a check that sees a renamed tool once
more: the row of a renamed tool has its unapproved hash as its approved one.
-/

namespace SecureMcp

open Interaction

namespace DriftDetector

/-- The baselines, with the hash that was last accepted for each tool: by its first sighting,
which is the trust anchor, or by an approval.
-/
structure Baselines where
  table : BaselineTable
  accepted : String → String → Option String

def Baselines.empty : Baselines :=
  ⟨[], fun _ _ => none⟩

/-- The operations on the baselines; an approval is granted or raises. -/
inductive Operation
  | check (serverId : String) (tools : List Tool)
  | approve (serverId toolName : String)
  | refuse (serverId toolName : String)

/-- The accepted hashes after a check: a tool whose first row is not blocked was taken as its
own trust anchor.
-/
def anchored (before after : BaselineTable) (accepted : String → String → Option String)
    (serverId toolName : String)
    : Option String :=
  match before.row? serverId toolName, after.row? serverId toolName with
  | none, some row => if row.blocked then none else some row.approvedHash
  | _, _ => accepted serverId toolName

/-- The accepted hashes after an approval. -/
def endorsed (after : BaselineTable) (accepted : String → String → Option String)
    (server tool serverId toolName : String)
    : Option String :=
  if serverId = server ∧ toolName = tool then
    (after.row? serverId toolName).map ToolBaseline.approvedHash
  else accepted serverId toolName

/-- One operation, in any of its executions that the table can serve. -/
inductive Step (runtime : Runtime) (state : Baselines) : Operation → Baselines → Prop
  | check {serverId identityId : String} {tools : List Tool} {events : List (Event Reply)}
    {outcome : Except Exn Unit} {after : BaselineTable}
    (exec : (check runtime serverId tools identityId).run.Exec events outcome)
    (served : Program.Served BaselineTable.Serves state.table events after)
    : Step runtime state (.check serverId tools)
        ⟨after, anchored state.table after state.accepted⟩
  | approve {serverId toolName approvedBy : String} {events : List (Event Reply)} {seq : Nat}
    {after : BaselineTable}
    (exec : (approve runtime serverId toolName approvedBy).run.Exec events (.ok seq))
    (served : Program.Served BaselineTable.Serves state.table events after)
    : Step runtime state (.approve serverId toolName)
        ⟨after, endorsed after state.accepted serverId toolName⟩
  | refuse {serverId toolName approvedBy : String} {events : List (Event Reply)} {exn : Exn}
    {after : BaselineTable}
    (exec : (approve runtime serverId toolName approvedBy).run.Exec events (.error exn))
    (served : Program.Served BaselineTable.Serves state.table events after)
    : Step runtime state (.refuse serverId toolName) ⟨after, state.accepted⟩

/-- A check sees a tool with a definition of the given hash. -/
def Sees (tools : List Tool) (toolName hash : String) : Prop :=
  ∃ tool, (toolName, tool) ∈ liveTools tools ∧ toolHash tool = .ok hash

/-- The operations that legitimately lift a block: a granted approval, and a check that sees
the tool with the hash that was accepted for it.
-/
def Lifts (state : Baselines) (serverId toolName : String) : Operation → Prop
  | .check server tools =>
      server = serverId
      ∧ ∃ hash, state.accepted serverId toolName = some hash ∧ Sees tools toolName hash
  | .approve server tool => server = serverId ∧ tool = toolName
  | .refuse _ _ => False

/-- A check that sees a blocked tool in the shape its row calls approved, though nobody
accepted that shape.
-/
def SeesUnaccepted (state : Baselines) : Operation → Prop
  | .check serverId tools =>
      ∃ toolName row,
        state.table.row? serverId toolName = some row
        ∧ row.blocked
        ∧ Sees tools toolName row.approvedHash
        ∧ state.accepted serverId toolName ≠ some row.approvedHash
  | _ => False

/-- (BlockPersists runtime allowed) means that in every run of allowed operations, a tool
that a check has left blocked is blocked in every later state until its block is lifted.
-/
def BlockPersists (runtime : Runtime) (allowed : Baselines → Operation → Prop) : Prop :=
  ∀ serverId toolName tools past before left later final,
    Machine.Run (fun state operation after => Step runtime state operation after
      ∧ allowed state operation) .empty past before
    → Step runtime before (.check serverId tools) left
    → allowed before (.check serverId tools)
    → left.table.blocked serverId toolName
    → Machine.Run (fun state operation after => Step runtime state operation after
        ∧ allowed state operation
        ∧ ¬ Lifts state serverId toolName operation) left later final
    → final.table.blocked serverId toolName

theorem blocked_iff_row {table : BaselineTable} {serverId toolName : String}
    : table.blocked serverId toolName
      ↔ ∃ row, table.row? serverId toolName = some row ∧ row.blocked := by
  simp [BaselineTable.blocked, Option.any_eq_true]

section

variable {runtime : Runtime} {state after : Baselines} {operation : Operation}

/-- Every operation keeps the primary key. -/
theorem Step.distinct (step : Step runtime state operation after)
    (distinct : state.table.Distinct)
    : after.table.Distinct := by
  cases step with
  | check _ served => exact served.invariant distinct (fun _ _ _ => .serves)
  | approve _ served => exact served.invariant distinct (fun _ _ _ => .serves)
  | refuse _ served => exact served.invariant distinct (fun _ _ _ => .serves)

/-- A check keeps a block unless it sees the tool in the shape its row calls approved. -/
theorem Swept.blocked {serverId toolName : String} {tools : List Tool}
    {table after : BaselineTable} {rows : List ToolBaseline} {row : ToolBaseline}
    (swept : Swept runtime serverId tools table after rows)
    (found : table.row? serverId toolName = some row) (blocked : row.blocked)
    (unseen : ¬ Sees tools toolName row.approvedHash)
    : after.blocked serverId toolName := by
  by_cases live : toolName ∈ Dict.keys (liveTools tools)
  · obtain ⟨⟨_, tool⟩, member, rfl⟩ := List.mem_map.mp live
    obtain ⟨read, now, readBack, _, settled, stored⟩ := swept.live _ tool row member found
    refine blocked_iff_row.mpr ⟨_, stored, ?_⟩
    rw [apply_diff readBack (settled_settleTool settled)]
    have flag : read.blocked = row.blocked := by rw [readBack.rest]
    have approvedHash : read.approvedHash = row.approvedHash := by rw [readBack.rest]
    obtain ⟨liveHash, hashed, ⟨same, _⟩ | ⟨_, _, same⟩ | ⟨_, _, _, _, same⟩⟩ :=
      settleTool_cases settled
    · exact absurd ⟨tool, member, by rw [hashed, same, approvedHash]⟩ unseen
    · simp [same, flag, blocked]
    · simp [same, ToolBaseline.drifted, flag, blocked]
  · obtain ⟨read, now, readBack, kept, stored⟩ := swept.gone toolName row live found
    refine blocked_iff_row.mpr ⟨_, stored, ?_⟩
    have flag : read.blocked = row.blocked := by rw [readBack.rest]
    rcases kept with same | same
    · rw [same, apply_diff readBack ⟨rfl, rfl, rfl, rfl, rfl⟩]
      simp [flag, blocked]
    · rw [same, apply_diff readBack (settled_settleRemoved read)]
      unfold settleRemoved
      split <;> simp [ToolBaseline.removed, flag, blocked]

/-- One operation that does not lift a block keeps it. -/
theorem Step.blocked {serverId toolName : String}
    (step : Step runtime state operation after) (distinct : state.table.Distinct)
    (allowed : ¬ SeesUnaccepted state operation)
    (held : ¬ Lifts state serverId toolName operation)
    (blocked : state.table.blocked serverId toolName)
    : after.table.blocked serverId toolName := by
  obtain ⟨row, found, flag⟩ := blocked_iff_row.mp blocked
  cases step with
  | check exec served =>
      rename_i server _ tools _ _ _
      rcases exec_check_served distinct exec served with ⟨same, _⟩ | ⟨_, rows, swept⟩
      · exact same ▸ blocked
      by_cases here : server = serverId
      · subst here
        refine swept.blocked found flag ?_
        intro seen
        by_cases accepted : state.accepted server toolName = some row.approvedHash
        · exact held ⟨rfl, _, accepted, seen⟩
        · exact allowed ⟨toolName, row, found, flag, seen, accepted⟩
      · unfold BaselineTable.blocked
        rw [swept.others serverId toolName (Ne.symm here)]
        exact blocked
  | approve exec served =>
      rename_i server tool _ _ _ _
      rcases exec_approve_served exec served with ⟨same, _⟩ | ⟨_, promotion⟩
      · exact same ▸ blocked
      obtain ⟨target, read, observed, newHash, suspicious, there, readBack, _, _, same⟩ :=
        promotion
      have targetKey : target.key = (server, tool) := Keyed.find_key there
      have rowKey : row.key = (serverId, toolName) := Keyed.find_key found
      have apart : row.key ≠ (read.serverId, read.toolName) := by
        rw [rowKey, readBack.serverId, readBack.toolName]
        intro equal
        have same := equal.trans targetKey
        exact held ⟨(congrArg Prod.fst same).symm, (congrArg Prod.snd same).symm⟩
      refine blocked_iff_row.mpr ⟨row, ?_, flag⟩
      rw [same, BaselineTable.row?_applyTo, found, Option.map_some]
      exact congrArg some (if_neg apart)
  | refuse exec served =>
      rcases exec_approve_served exec served with ⟨same, _⟩ | ⟨⟨_, impossible⟩, _⟩
      · exact same ▸ blocked
      · cases impossible

end

/-- In every run in which no check sees a blocked tool in a shape that its row calls approved
but nobody accepted, a block persists until it is lifted.
-/
theorem block_persists (runtime : Runtime)
    : BlockPersists runtime (fun state operation => ¬ SeesUnaccepted state operation) := by
  intro serverId toolName tools past before left later final earlier step allowed blocked run
  have distinct : before.table.Distinct := by
    refine earlier.invariant (fun state => state.table.Distinct) ?_ ?_
    · exact List.nodup_nil
    · intro state operation after distinct ⟨step, _⟩
      exact step.distinct distinct
  have kept : final.table.Distinct ∧ final.table.blocked serverId toolName := by
    refine run.invariant (fun state =>
      state.table.Distinct ∧ state.table.blocked serverId toolName) ?_ ?_
    · exact ⟨step.distinct distinct, blocked⟩
    · intro state operation after ⟨distinct, blocked⟩ ⟨step, allowed, held⟩
      exact ⟨step.distinct distinct, step.blocked distinct allowed held blocked⟩
  exact kept.2

/-- A tool of the given name, with an empty schema. -/
def mailTool (name : String) : Tool :=
  [("name", .str name), ("inputSchema", .obj [])]

/-- The row of a tool's first sighting on the mail server. -/
def mailRow (name hash : String) : ToolBaseline :=
  ToolBaseline.firstSeen "mail" name (mailTool name) hash false

/-- The row of a tool that was taken for a renamed one. -/
def mailRenamed (name hash : String) : ToolBaseline :=
  ToolBaseline.renamed "mail" name (mailTool name) hash false

/-- The first check anchors the tool. -/
theorem judge_anchor {hash : String} (hashed : toolHash (mailTool "send_mail") = .ok hash)
    : judge calm "mail" (liveTools [mailTool "send_mail"]) []
      = .ok { rows := [], added := [mailRow "send_mail" hash] } := by
  have live : liveTools [mailTool "send_mail"] = [("send_mail", mailTool "send_mail")] := by
    decide
  have clean : scanDescriptions calm (mailTool "send_mail") = [] := rfl
  simp [live, judge, judgeTool, Sweep.row?, judgeSighting, hashed, clean, renameSource, bind,
    Except.bind, pure, Except.pure, mailRow]

/-- The next check takes the tool for a renamed one. -/
theorem judge_rename {first hash shape : String}
    (hashed : toolHash (mailTool "send_email") = .ok hash)
    (shaped : toolHash [("inputSchema", .obj [])] = .ok shape)
    : judge calm "mail" (liveTools [mailTool "send_email"]) [mailRow "send_mail" first]
      = .ok {
          rows := [mailRow "send_mail" first]
          added := [mailRenamed "send_email" hash]
          renamedSources := ["send_mail"]
        } := by
  have live : liveTools [mailTool "send_email"] = [("send_email", mailTool "send_email")] := by
    decide
  have clean : scanDescriptions calm (mailTool "send_email") = [] := rfl
  have old : shapeHash (mailTool "send_mail") = .ok shape := shaped
  have new : shapeHash (mailTool "send_email") = .ok shape := shaped
  simp [live, judge, judgeTool, Sweep.row?, judgeSighting, hashed, clean, renameSource, bind,
    Except.bind, pure, Except.pure, mailRow, mailRenamed, ToolBaseline.firstSeen, old, new,
    Dict.keys, judgeRemoved]

/-- The check after that sees the renamed tool again, and its row is taken for a reverted one.
-/
theorem judge_again {first hash : String}
    (hashed : toolHash (mailTool "send_email") = .ok hash)
    : judge calm "mail" (liveTools [mailTool "send_email"])
        [mailRow "send_mail" first, mailRenamed "send_email" hash]
      = .ok {
          rows := [(mailRow "send_mail" first).removed, (mailRenamed "send_email" hash).reverted]
        } := by
  have live : liveTools [mailTool "send_email"] = [("send_email", mailTool "send_email")] := by
    decide
  simp [live, judge, judgeTool, Sweep.row?, Sweep.setRow, Sweep.putRow, settleTool, hashed,
    bind, Except.bind, pure, Except.pure, mailRow, mailRenamed, ToolBaseline.firstSeen,
    ToolBaseline.renamed, Dict.keys, judgeRemoved, settleRemoved, ToolBaseline.reverted,
    ToolBaseline.removed]

theorem apply_rename (first hash : String)
    : BaselineTable.applyChanges [mailRow "send_mail" first]
        (Sweep.changes [mailRow "send_mail" first] {
          rows := [mailRow "send_mail" first]
          added := [mailRenamed "send_email" hash]
          renamedSources := ["send_mail"]
        })
      = some [mailRow "send_mail" first, mailRenamed "send_email" hash] := by
  simp [Sweep.changes, BaselineTable.applyChanges, BaselineTable.applyChange,
    BaselineTable.row?, Keyed.find, ToolBaseline.key, mailRow, mailRenamed,
    ToolBaseline.firstSeen, ToolBaseline.renamed, Sweep.row?, ToolBaseline.diff,
    ToolBaseline.changed, ToolBaseline.changedSchema, BaselineUpdate.applyTo,
    BaselineUpdate.apply]

theorem apply_again (first hash : String)
    : BaselineTable.applyChanges [mailRow "send_mail" first, mailRenamed "send_email" hash]
        (Sweep.changes [mailRow "send_mail" first, mailRenamed "send_email" hash] {
          rows := [(mailRow "send_mail" first).removed, (mailRenamed "send_email" hash).reverted]
        })
      = some [(mailRow "send_mail" first).removed, (mailRenamed "send_email" hash).reverted] := by
  simp [Sweep.changes, BaselineTable.applyChanges, BaselineTable.applyChange,
    mailRow, mailRenamed, ToolBaseline.key,
    ToolBaseline.firstSeen, ToolBaseline.renamed, Sweep.row?, ToolBaseline.diff,
    ToolBaseline.changed, ToolBaseline.changedSchema, BaselineUpdate.applyTo,
    BaselineUpdate.apply, ToolBaseline.removed, ToolBaseline.reverted]

theorem mailTool_readBack (name : String) : (mailTool name).ReadBack (mailTool name) :=
  .refl _

/-- A check of the mail server that stores what it decided. -/
theorem step_of_judge (state : Baselines) {tools : List Tool} {swept : Sweep}
    (after : BaselineTable) (reads : state.table.Reads "mail" state.table)
    (judged : judge calm "mail" (liveTools tools) state.table = .ok swept)
    (applied : state.table.applyChanges (swept.changes state.table) = some after)
    : Step calm state (.check "mail" tools)
        ⟨after, anchored state.table after state.accepted⟩ := by
  obtain ⟨writes, _, _, exec, served⟩ := exists_exec_check "operator" reads judged applied
  exact .check exec served

/-- A mail server offers `send_mail`, then offers it as `send_email`, and then once more: the
renamed tool is blocked by the second check and unblocked by the third one.
-/
theorem block_lifted_by_second_sighting
    : ¬ BlockPersists calm (fun _ _ => True) := by
  obtain ⟨first, firstHash⟩ := exists_toolHash (mailTool "send_mail") (by decide)
  obtain ⟨hash, hashed⟩ := exists_toolHash (mailTool "send_email") (by decide)
  obtain ⟨shape, shaped⟩ := exists_toolHash [("inputSchema", .obj [])] (by decide)
  let anchor := mailRow "send_mail" first
  let renamed := mailRenamed "send_email" hash
  have anchorBack : anchor.ReadBack anchor := ⟨mailTool_readBack _, .none, rfl⟩
  have renamedBack : renamed.ReadBack renamed :=
    ⟨mailTool_readBack _, .some (mailTool_readBack _), rfl⟩
  have anchorServer : anchor.serverId = "mail" := rfl
  have renamedServer : renamed.serverId = "mail" := rfl
  let accepted := anchored [] [anchor] (fun _ _ => none)
  have one := step_of_judge .empty [anchor]
    (reads_self (by simp [Baselines.empty]) (by simp [Baselines.empty]))
    (judge_anchor firstHash) rfl
  have two := step_of_judge ⟨[anchor], accepted⟩ [anchor, renamed]
    (reads_self (by simpa using anchorServer) (by simpa using anchorBack))
    (judge_rename hashed shaped) (apply_rename first hash)
  have three := step_of_judge
    ⟨[anchor, renamed], anchored [anchor] [anchor, renamed] accepted⟩
    [anchor.removed, renamed.reverted]
    (reads_self (by simpa using ⟨anchorServer, renamedServer⟩)
      (by simpa using ⟨anchorBack, renamedBack⟩))
    (judge_again hashed) (apply_again first hash)
  intro persists
  have blocked := persists "mail" "send_email" [mailTool "send_email"] _ _ _ _ _
    (.concat .nil ⟨one, trivial⟩) two trivial rfl (.concat .nil ⟨three, trivial, ?_⟩)
  · cases blocked
  · rintro ⟨_, hash, accepted, _⟩
    cases accepted

end DriftDetector

end SecureMcp
