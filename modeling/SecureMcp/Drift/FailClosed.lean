import SecureMcp.Drift.Outcome

/-! Whether a check leaves a severely drifted tool blocked. All tools of a list share one
transaction at the end of the check, so a block that was decided, and recorded in the audit
log, is lost with any failure before the commit.
-/

namespace SecureMcp

open Interaction

namespace BaselineChange

/-- The definitions that a change writes. -/
def schemas : BaselineChange → List Tool
  | .insert row => row.approvedSchema :: row.observedSchema.toList
  | .update columns => columns.approvedSchema.toList ++ columns.observedSchema.join.toList

def storable (change : BaselineChange) : Bool :=
  change.schemas.all (fun tool => Jsonb.storable (.obj tool))

end BaselineChange

/-- The table of baselines is available: it answers every query, and it takes every
transaction but those with a definition that no column takes.
-/
def BaselineTable.Available (event : Event Reply) : Prop :=
  match event with
  | ⟨.selectBaselines _, reply⟩ => reply.isOk
  | ⟨.commit changes, reply⟩ => reply.isOk = changes.all BaselineChange.storable
  | _ => True

namespace DriftDetector

/-- The definition of a known tool differs from its approved baseline by a severity that
blocks.
-/
def SeverelyDrifted (settings : Settings) (row : ToolBaseline) (tool : Tool) : Prop :=
  ∃ liveHash classified,
    toolHash tool = .ok liveHash
    ∧ liveHash ≠ row.approvedHash
    ∧ classify settings row.approvedSchema tool = .ok classified
    ∧ (classified.getD .high).blocks

/-- The definition of a known tool is not the one that was last observed. -/
def Unlogged (row : ToolBaseline) (tool : Tool) : Prop :=
  ∀ liveHash, toolHash tool = .ok liveHash → row.observedHash ≠ some liveHash

/-- Whether a check stores the definition of a tool: a tool without a row is baselined, and
a drift that is not yet logged is written to the row unless the column holds an equal value.
-/
def stores (rows : List ToolBaseline) (item : String × Tool) : Bool :=
  match named rows item.1, toolHash item.2 with
  | none, _ => true
  | some row, .ok liveHash =>
      liveHash ≠ row.approvedHash
      && row.observedHash ≠ some liveHash
      && (ToolBaseline.changedSchema row.observedSchema (some item.2)).isSome
  | some _, .error _ => false

/-- Nothing keeps a check from storing what it decides: every audit row is written, every
tool of the list can be decided, and every definition that the check stores is one that a
column takes.
-/
structure Completes (settings : Settings) (tools : List Tool) (rows : List ToolBaseline)
    (events : List (Event Reply))
    : Prop where
  recorded : ∀ event ∈ events, ¬ auditKind.failed event
  decided : ∀ item ∈ liveTools tools, judgeable settings (liveTools tools) rows item
  storable : ∀ item ∈ liveTools tools, stores rows item → Jsonb.storable (.obj item.2)

theorem changedSchema_self (schema : Option Tool)
    : ToolBaseline.changedSchema schema schema = none := by
  cases schema <;> simp [ToolBaseline.changedSchema]

theorem join_changedSchema_none (schema : Option Tool)
    : (ToolBaseline.changedSchema schema none).join = none := by
  cases schema <;> simp [ToolBaseline.changedSchema]

theorem join_changedSchema_some (schema : Option Tool) (tool : Tool)
    : (ToolBaseline.changedSchema schema (some tool)).join.toList
      = if (ToolBaseline.changedSchema schema (some tool)).isSome then [tool] else [] := by
  cases schema with
  | none => rfl
  | some before =>
      unfold ToolBaseline.changedSchema
      dsimp only
      split <;> rfl

/-- An update of a settled row writes its observed definition at most. -/
theorem schemas_diff {row now : ToolBaseline} (settled : Settled row now)
    : (BaselineChange.update (row.diff now)).schemas
      = (ToolBaseline.changedSchema row.observedSchema now.observedSchema).join.toList := by
  simp only [BaselineChange.schemas, ToolBaseline.diff, settled.approvedSchema,
    changedSchema_self]
  rfl

/-- A tool that is not live has no definition written. -/
theorem schemas_gone {row now : ToolBaseline} (gone : now = row ∨ now = settleRemoved row)
    : (BaselineChange.update (row.diff now)).schemas = [] := by
  rcases gone with same | same
  · rw [schemas_diff (same ▸ ⟨rfl, rfl, rfl, rfl, rfl⟩), same, changedSchema_self]
    rfl
  · rw [schemas_diff (same ▸ settled_settleRemoved row), same]
    unfold settleRemoved
    split
    · rw [changedSchema_self]
      rfl
    · rw [ToolBaseline.removed, join_changedSchema_none]
      rfl

section

variable {runtime : Runtime} {serverId : String} {live : List (String × Tool)}
  {rows : List ToolBaseline} {swept : Sweep}

/-- A live tool has its definition written to its row when the check stores it. -/
theorem schemas_live {settings : Settings} {row now : ToolBaseline} {tool : Tool}
    (known : named rows row.toolName = some row)
    (settled : settleTool settings row tool = .ok now)
    : (BaselineChange.update (row.diff now)).schemas
      = if stores rows (row.toolName, tool) then [tool] else [] := by
  rw [schemas_diff (settled_settleTool settled)]
  obtain ⟨liveHash, hashed, ⟨approved, same⟩ | ⟨differs, logged, same⟩ | drifted⟩ :=
    settleTool_cases settled
  · have unstored : stores rows (row.toolName, tool) = false := by
      simp [stores, known, hashed, approved]
    rw [unstored, same]
    split
    · rw [ToolBaseline.reverted, join_changedSchema_none]
      rfl
    · rw [changedSchema_self]
      rfl
  · have unstored : stores rows (row.toolName, tool) = false := by
      simp [stores, known, hashed, logged]
    rw [unstored, same, changedSchema_self]
    rfl
  · obtain ⟨classified, differs, fresh, _, same⟩ := drifted
    have stored : stores rows (row.toolName, tool)
        = (ToolBaseline.changedSchema row.observedSchema (some tool)).isSome := by
      simp [stores, known, hashed, differs, fresh]
    rw [stored, same]
    exact join_changedSchema_some row.observedSchema tool

/-- The transaction of a check can be stored exactly when every definition that it stores
can be.
-/
theorem storable_changes_iff (verdict : Verdict runtime serverId live rows swept)
    (distinct : (rows.map ToolBaseline.toolName).Nodup)
    : (swept.changes rows).all BaselineChange.storable
      ↔ ∀ item ∈ live, stores rows item → Jsonb.storable (.obj item.2) := by
  have known (row : ToolBaseline) (member : row ∈ rows)
      : named rows row.toolName = some row :=
    Keyed.find_of_mem distinct member
  have update (row : ToolBaseline) (member : row ∈ rows) (now : ToolBaseline)
      (decided : named swept.rows row.toolName = some now)
      : BaselineChange.update (row.diff now) ∈ swept.changes rows := by
    have same : (swept.row? row.toolName).getD row = now := by
      change (named swept.rows row.toolName).getD row = now
      rw [decided]
      rfl
    exact List.mem_append_right _ (List.mem_map.mpr ⟨row, member, by rw [same]⟩)
  rw [List.all_eq_true]
  refine ⟨?_, ?_⟩
  · intro all item member stored
    cases found : named rows item.1 with
    | none =>
        obtain ⟨row, added, sighted⟩ := verdict.sighted item.1 item.2 member found
        obtain ⟨_, source, _, _, same⟩ := sighted
        have storable := all _ (List.mem_append_left _ (List.mem_map_of_mem added))
        have schema : row.approvedSchema = item.2 := by
          rw [same]
          cases source <;> rfl
        simp only [BaselineChange.storable, BaselineChange.schemas, List.all_cons,
          Bool.and_eq_true] at storable
        exact schema ▸ storable.1
    | some row =>
        obtain ⟨now, settled, decided⟩ := verdict.settled item.1 item.2 row member found
        have called : row.toolName = item.1 := named_toolName found
        have here := Keyed.find_mem found
        have storable := all _ (update row here now (called ▸ decided))
        rw [BaselineChange.storable, schemas_live (known row here) settled, called,
          if_pos stored] at storable
        simpa using storable
  · intro all change member
    rcases List.mem_append.mp member with inserted | updated
    · obtain ⟨row, added, rfl⟩ := List.mem_map.mp inserted
      obtain ⟨unknown, tool, seen, _, source, _, _, same⟩ := verdict.added row added
      have stored : stores rows (row.toolName, tool) := by simp [stores, unknown]
      have storable := all _ seen stored
      have both : row.approvedSchema = tool
          ∧ (row.observedSchema = none ∨ row.observedSchema = some tool) := by
        rw [same]
        cases source with
        | none => exact ⟨rfl, Or.inl rfl⟩
        | some _ => exact ⟨rfl, Or.inr rfl⟩
      rcases both with ⟨approved, none | observed⟩
      · simp [BaselineChange.storable, BaselineChange.schemas, approved, none, storable]
      · simp [BaselineChange.storable, BaselineChange.schemas, approved, observed, storable]
    · obtain ⟨row, here, rfl⟩ := List.mem_map.mp updated
      by_cases seen : row.toolName ∈ Dict.keys live
      · obtain ⟨item, there, called⟩ := List.mem_map.mp seen
        obtain ⟨now, settled, decided⟩ :=
          verdict.settled item.1 item.2 row there (called ▸ known row here)
        have same : (swept.row? row.toolName).getD row = now := by
          change (named swept.rows row.toolName).getD row = now
          rw [← called, decided]
          rfl
        rw [same, BaselineChange.storable, schemas_live (known row here) settled]
        split
        · next stored =>
            have pair : item = (row.toolName, item.2) := Prod.ext called rfl
            have storable := all item there (pair ▸ stored)
            simpa using storable
        · rfl
      · obtain ⟨now, gone, decided⟩ := verdict.gone row.toolName row seen (known row here)
        have same : (swept.row? row.toolName).getD row = now := by
          change (named swept.rows row.toolName).getD row = now
          rw [decided]
          rfl
        rw [same, BaselineChange.storable, schemas_gone gone]
        rfl

end

theorem mem_liveTools {tools : List Tool} {tool : Tool}
    (distinct : (tools.map Tool.name).Nodup) (member : tool ∈ tools)
    : (tool.name, tool) ∈ liveTools tools := by
  refine Dict.mem_ofPairs ?_ (List.mem_map.mpr ⟨tool, member, rfl⟩)
  unfold Dict.keys
  rw [List.map_map]
  exact distinct

section

variable {runtime : Runtime} {serverId identityId : String} {tools : List Tool} {tool : Tool}
  {table after : BaselineTable} {events : List (Event Reply)} {outcome : Except Exn Unit}
  {rows : List ToolBaseline} {read : ToolBaseline}

/-- A stored decision blocks a severely drifted tool unless exactly this drift was logged
before without blocking it.
-/
theorem Swept.blocked_iff (swept : Swept runtime serverId tools table after rows)
    (distinct : table.Distinct) (member : (tool.name, tool) ∈ liveTools tools)
    (known : named rows tool.name = some read)
    (drifted : SeverelyDrifted runtime.settings read tool)
    : after.blocked serverId tool.name ↔ read.blocked ∨ Unlogged read tool := by
  obtain ⟨liveHash, classified, hashed, differs, found, blocks⟩ := drifted
  have related := swept.reads.find distinct tool.name
  change Option.Rel _ _ (named rows tool.name) at related
  rw [known] at related
  cases present : table.row? serverId tool.name with
  | none =>
      rw [present] at related
      cases related
  | some row =>
      obtain ⟨other, now, readBack, known', settled, stored⟩ :=
        swept.live tool.name tool row member present
      cases known.symm.trans known'
      have flag : after.blocked serverId tool.name = now.blocked := by
        unfold BaselineTable.blocked
        rw [stored, apply_diff readBack (settled_settleTool settled)]
        rfl
      rw [flag]
      obtain ⟨hash, same, ⟨approved, _⟩ | ⟨_, logged, now'⟩ | ⟨severity, _, fresh, again, now'⟩⟩ :=
        settleTool_cases settled
      · cases hashed.symm.trans same
        exact absurd approved differs
      · cases hashed.symm.trans same
        have old : ¬ Unlogged read tool := fun unlogged => unlogged liveHash hashed logged
        simp [now', old]
      · cases hashed.symm.trans same
        cases found.symm.trans again
        have new : Unlogged read tool := by
          intro hash equal
          cases hashed.symm.trans equal
          exact fresh
        simp [now', ToolBaseline.drifted, blocks, new]

/-- A tool whose rows were read is blocked as its row was read. -/
theorem blocked_of_reads (distinct : table.Distinct) (reads : table.Reads serverId rows)
    (known : named rows tool.name = some read)
    : table.blocked serverId tool.name = read.blocked := by
  have related := reads.find distinct tool.name
  change Option.Rel _ _ (named rows tool.name) at related
  rw [known] at related
  unfold BaselineTable.blocked
  cases present : table.row? serverId tool.name with
  | none =>
      rw [present] at related
      cases related
  | some row =>
      rw [present] at related
      cases related with
      | some readBack =>
          rw [readBack.rest]
          rfl

/-- A check whose decision is stored had nothing to keep it from that. -/
theorem completes_of_commit {writes : List (Event Reply)} {swept : Sweep}
    (distinct : (rows.map ToolBaseline.toolName).Nodup)
    (recorded : ∀ event ∈ writes, ¬ auditKind.failed event)
    (judged : judge runtime serverId (liveTools tools) rows = .ok swept)
    (storable : (swept.changes rows).all BaselineChange.storable)
    : Completes runtime.settings tools rows
        (⟨.selectBaselines serverId, .ok rows⟩
          :: (writes ++ [⟨.commit (swept.changes rows), .ok ()⟩])) := by
  have liveDistinct : (Dict.keys (liveTools tools)).Nodup := Dict.nodup_ofPairs _
  have verdict := verdict_of_judge liveDistinct judged
  refine ⟨?_, (judge_ok_iff liveDistinct).mp ⟨swept, judged⟩,
    (storable_changes_iff verdict distinct).mp storable⟩
  intro event member failed
  rcases List.mem_cons.mp member with here | later
  · obtain ⟨_, _, impossible⟩ := failed
    cases here.symm.trans impossible
  · rcases List.mem_append.mp later with written | committed
    · exact recorded event written failed
    · obtain ⟨_, _, impossible⟩ := failed
      cases (List.mem_singleton.mp committed).symm.trans impossible

/-- After a check, returned or raised, a severely drifted tool is blocked exactly when it was
blocked before, or its drift was not yet logged and nothing kept the check from storing its
decision.
-/
theorem blocked_after_check_iff (distinct : table.Distinct)
    (names : (tools.map Tool.name).Nodup) (member : tool ∈ tools)
    (exec : (check runtime serverId tools identityId).run.Exec events outcome)
    (served : Program.Served BaselineTable.Serves table events after)
    (available : ∀ event ∈ events, BaselineTable.Available event)
    (answer : ⟨.selectBaselines serverId, .ok rows⟩ ∈ events)
    (known : named rows tool.name = some read)
    (drifted : SeverelyDrifted runtime.settings read tool)
    : after.blocked serverId tool.name
      ↔ read.blocked
        ∨ (Unlogged read tool ∧ Completes runtime.settings tools rows events) := by
  have live := mem_liveTools names member
  have liveDistinct : (Dict.keys (liveTools tools)).Nodup := Dict.nodup_ofPairs _
  rcases exec_check exec with ⟨exn, same, _⟩ | ⟨answered, writes, reports, ended⟩
  · subst same
    cases available _ List.mem_cons_self
  have notWritten : ⟨.selectBaselines serverId, .ok rows⟩ ∉ writes := by
    intro written
    obtain ⟨entry, reply, impossible⟩ := reports _ written
    cases impossible
  rcases ended with ⟨same, _, cause⟩ | ⟨swept, reply, same, _, judged, recorded⟩
  · subst same
    have first : rows = answered := by
      rcases List.mem_cons.mp answer with here | written
      · cases here
        rfl
      · exact absurd written notWritten
    subst first
    obtain ⟨middle, ⟨queried, reads⟩, tail⟩ := Program.served_cons_iff.mp served
    have incomplete : ¬ Completes runtime.settings tools rows
        (⟨.selectBaselines serverId, .ok rows⟩ :: writes) := by
      intro completes
      rcases cause with ⟨event, written, failed⟩ | ⟨exn, raised⟩
      · exact completes.recorded event (List.mem_cons_of_mem _ written) failed
      · obtain ⟨swept, judged⟩ := (judge_ok_iff liveDistinct).mpr completes.decided
        cases raised.symm.trans judged
    rw [served_reports reports tail, queried, blocked_of_reads distinct reads known]
    simp [incomplete]
  · subst same
    have first : rows = answered := by
      rcases List.mem_cons.mp answer with here | later
      · cases here
        rfl
      · rcases List.mem_append.mp later with written | committed
        · exact absurd written notWritten
        · cases List.mem_singleton.mp committed
    subst first
    obtain ⟨middle, ⟨queried, reads⟩, tail⟩ := Program.served_cons_iff.mp served
    obtain ⟨before, written, last⟩ := Program.served_append_iff.mp tail
    obtain ⟨final, committed, nil⟩ := Program.served_cons_iff.mp last
    cases Program.served_nil_iff.mp nil
    cases served_reports reports written
    cases queried
    have verdict := verdict_of_judge liveDistinct judged
    have rowsDistinct := reads.distinct distinct
    have taken := available ⟨.commit (swept.changes rows), reply⟩
      (List.mem_cons_of_mem _ (List.mem_append_right _ List.mem_cons_self))
    cases reply with
    | error exn =>
        have refused : false = (swept.changes rows).all BaselineChange.storable := taken
        have incomplete (completes : Completes runtime.settings tools rows
            (⟨.selectBaselines serverId, .ok rows⟩
              :: (writes ++ [⟨.commit (swept.changes rows), .error exn⟩])))
            : False := by
          rw [(storable_changes_iff verdict rowsDistinct).mpr completes.storable] at refused
          cases refused
        rw [committed, blocked_of_reads distinct reads known]
        simpa using fun _ completes => absurd completes incomplete
    | ok _ =>
        have accepted : true = (swept.changes rows).all BaselineChange.storable := taken
        have completes :=
          completes_of_commit rowsDistinct recorded judged accepted.symm
        have stored := swept_of_commit distinct reads judged committed
        rw [stored.blocked_iff distinct live known drifted]
        simp [completes]

end

/-- A tool that is described by the given text. -/
def sendTool (description : String) : Tool :=
  [("name", .str "send_mail"), ("description", .str description)]

/-- A tool with one parameter of the given schema. -/
def readTool (folder : Json) : Tool :=
  [
    ("name", .str "read_mail"),
    ("inputSchema", .obj [("properties", .obj [("folder", folder)])])
  ]

theorem toolHash_eq_computeHash (tool : Tool)
    : toolHash tool = AuditLog.computeHash (String.ofList []) (.obj tool) := by
  simp [toolHash, CanonicalJson.hash, AuditLog.computeHash]

/-- The hash of the first description is not that of the second one. -/
theorem sendTool_hash_ne : toolHash (sendTool "Send.") ≠ toolHash (sendTool "Send it.") := by
  rw [toolHash_eq_computeHash, toolHash_eq_computeHash]
  exact AuditLog.computeHash_ne (by decide +kernel)

theorem readTool_hash_ne : toolHash (readTool (.obj [])) ≠ toolHash (readTool (.bool true)) := by
  rw [toolHash_eq_computeHash, toolHash_eq_computeHash]
  exact AuditLog.computeHash_ne (by decide +kernel)

theorem classify_sendTool
    : classify calm.settings (sendTool "Send.") (sendTool "Send it.") = .ok (some .high) :=
  rfl

/-- Comparing a parameter's schema with a boolean one raises. -/
theorem classify_readTool
    : classify calm.settings (readTool (.obj [])) (readTool (.bool true))
      = .error .attributeError :=
  rfl

/-- The rows of the two tools after their first sighting. -/
def sendRow (hash : String) : ToolBaseline :=
  ToolBaseline.firstSeen "mail" "send_mail" (sendTool "Send.") hash false

def readRow (hash : String) : ToolBaseline :=
  ToolBaseline.firstSeen "mail" "read_mail" (readTool (.obj [])) hash false

theorem sendRow_readBack (hash : String) : (sendRow hash).ReadBack (sendRow hash) :=
  ⟨.refl _, .none, rfl⟩

theorem readRow_readBack (hash : String) : (readRow hash).ReadBack (readRow hash) :=
  ⟨.refl _, .none, rfl⟩

theorem sendRow_drifted {approved live : String}
    (approvedHash : toolHash (sendTool "Send.") = .ok approved)
    (liveHash : toolHash (sendTool "Send it.") = .ok live)
    : SeverelyDrifted calm.settings (sendRow approved) (sendTool "Send it.") := by
  refine ⟨live, some .high, liveHash, ?_, classify_sendTool, rfl⟩
  rintro rfl
  exact sendTool_hash_ne (approvedHash.trans liveHash.symm)

theorem settle_sendRow {approved live : String}
    (approvedHash : toolHash (sendTool "Send.") = .ok approved)
    (liveHash : toolHash (sendTool "Send it.") = .ok live)
    : settleTool calm.settings (sendRow approved) (sendTool "Send it.")
      = .ok ((sendRow approved).drifted (sendTool "Send it.") live .high) := by
  have differs : live ≠ approved := by
    rintro rfl
    exact sendTool_hash_ne (approvedHash.trans liveHash.symm)
  simp [settleTool, liveHash, sendRow, ToolBaseline.firstSeen, differs, classify_sendTool,
    bind, Except.bind, pure, Except.pure]

theorem judge_sendTool {approved live : String}
    (approvedHash : toolHash (sendTool "Send.") = .ok approved)
    (liveHash : toolHash (sendTool "Send it.") = .ok live)
    : judge calm "mail" (liveTools [sendTool "Send it."]) [sendRow approved]
      = .ok { rows := [(sendRow approved).drifted (sendTool "Send it.") live .high] } := by
  have settled := settle_sendRow approvedHash liveHash
  have tools : liveTools [sendTool "Send it."] = [("send_mail", sendTool "Send it.")] := by
    decide
  have name : (sendRow approved).toolName = "send_mail" := rfl
  simp [tools, judge, judgeTool, Sweep.row?, name, settled, Sweep.setRow, Sweep.putRow,
    ToolBaseline.drifted, judgeRemoved, Dict.keys, bind, Except.bind, pure, Except.pure]

/-- Witness: a tool whose description changed is blocked by a check that completes. -/
theorem changed_description_blocks
    : ∃ events table after,
        (check calm "mail" [sendTool "Send it."] "operator").run.Exec events (.ok ())
        ∧ Program.Served BaselineTable.Serves table events after
        ∧ table.blocked "mail" "send_mail" = false
        ∧ after.blocked "mail" "send_mail" := by
  obtain ⟨approved, approvedHash⟩ := exists_toolHash (sendTool "Send.") (by decide)
  obtain ⟨live, liveHash⟩ := exists_toolHash (sendTool "Send it.") (by decide)
  let row := sendRow approved
  let swept : Sweep := { rows := [row.drifted (sendTool "Send it.") live .high] }
  have reads : BaselineTable.Reads [row] "mail" [row] :=
    reads_self (by simp [row, sendRow, ToolBaseline.firstSeen])
      (by simpa using sendRow_readBack approved)
  have judged : judge calm "mail" (liveTools [sendTool "Send it."]) [row] = .ok swept :=
    judge_sendTool approvedHash liveHash
  obtain ⟨writes, reports, recorded, exec, served⟩ :=
    exists_exec_check "operator" reads judged rfl
  have storable : (swept.changes [row]).all BaselineChange.storable := rfl
  have available : ∀ event ∈ ⟨.selectBaselines "mail", .ok [row]⟩
      :: (writes ++ [⟨.commit (swept.changes [row]), .ok ()⟩]),
      BaselineTable.Available event := by
    intro event member
    rcases List.mem_cons.mp member with rfl | later
    · rfl
    · rcases List.mem_append.mp later with written | committed
      · obtain ⟨entry, reply, rfl⟩ := reports event written
        trivial
      · cases List.mem_singleton.mp committed
        exact storable.symm
  refine ⟨_, _, _, exec, served, rfl, ?_⟩
  refine (blocked_after_check_iff (by simp [BaselineTable.Distinct]) (by simp)
    List.mem_cons_self exec served available List.mem_cons_self rfl
    (sendRow_drifted approvedHash liveHash)).mpr (Or.inr ⟨?_, ?_⟩)
  · intro hash _ impossible
    cases impossible
  · exact completes_of_commit (by simp) recorded judged storable

/-- A check of the changed description records the drift. -/
theorem check_sendTool {approved live : String} (others : List ToolBaseline)
    (listed : List (String × Tool))
    (approvedHash : toolHash (sendTool "Send.") = .ok approved)
    (liveHash : toolHash (sendTool "Send it.") = .ok live)
    : (checkTool calm "mail" "operator" listed { rows := sendRow approved :: others } "send_mail"
        (sendTool "Send it.")).run.Exec
        [⟨.write (driftEntry ⟨"operator", "mail", "send_mail"⟩ .high approved live), .ok 1⟩]
        (.ok { rows := (sendRow approved).drifted (sendTool "Send it.") live .high :: others }) := by
  have differs : live ≠ approved := by
    rintro rfl
    exact sendTool_hash_ne (approvedHash.trans liveHash.symm)
  have step : checkTool calm "mail" "operator" listed { rows := sendRow approved :: others }
      "send_mail" (sendTool "Send it.")
      = AuditWriter.write (driftEntry ⟨"operator", "mail", "send_mail"⟩ .high approved live)
        >>= fun _ => pure (Sweep.setRow { rows := sendRow approved :: others }
          ((sendRow approved).drifted (sendTool "Send it.") live .high)) := by
    simp [checkTool, Sweep.row?, sendRow, ToolBaseline.firstSeen, liveHash, differs,
      classify_sendTool]
  rw [step]
  refine Coroutine.exec_bind_ok_iff.mpr ⟨[_], [], 1, rfl, ?_, .done _⟩
  exact Coroutine.exec_demand_iff.mpr ⟨.ok 1, rfl, rfl⟩

/-- A check of the boolean subschema raises. -/
theorem check_readTool {plain boolean : String} (other : ToolBaseline)
    (listed : List (String × Tool))
    (plainHash : toolHash (readTool (.obj [])) = .ok plain)
    (booleanHash : toolHash (readTool (.bool true)) = .ok boolean)
    (elsewhere : other.toolName = "send_mail")
    : (checkTool calm "mail" "operator" listed { rows := [other, readRow plain] } "read_mail"
        (readTool (.bool true))).run.Exec [] (.error .attributeError) := by
  have changed : boolean ≠ plain := by
    rintro rfl
    exact readTool_hash_ne (plainHash.trans booleanHash.symm)
  simp [checkTool, Sweep.row?, elsewhere, readRow, ToolBaseline.firstSeen, booleanHash, changed,
    classify_readTool]

/-- The description of one tool changes while another one gets a boolean subschema. The check
records that the first tool is blocked, raises over the second one, and stores nothing.
-/
theorem block_lost_to_sibling
    : ∃ events table after rows read approved live,
        (check calm "mail" [sendTool "Send it.", readTool (.bool true)] "operator").run.Exec
          events (.error .attributeError)
        ∧ Program.Served BaselineTable.Serves table events after
        ∧ table.Distinct
        ∧ ([sendTool "Send it.", readTool (.bool true)].map Tool.name).Nodup
        ∧ (∀ event ∈ events, BaselineTable.Available event)
        ∧ ⟨.selectBaselines "mail", .ok rows⟩ ∈ events
        ∧ named rows "send_mail" = some read
        ∧ SeverelyDrifted calm.settings read (sendTool "Send it.")
        ∧ ⟨.write (driftEntry ⟨"operator", "mail", "send_mail"⟩ .high approved live), .ok 1⟩
          ∈ events
        ∧ after.blocked "mail" "send_mail" = false := by
  obtain ⟨approved, approvedHash⟩ := exists_toolHash (sendTool "Send.") (by decide)
  obtain ⟨live, liveHash⟩ := exists_toolHash (sendTool "Send it.") (by decide)
  obtain ⟨plain, plainHash⟩ := exists_toolHash (readTool (.obj [])) (by decide)
  obtain ⟨boolean, booleanHash⟩ := exists_toolHash (readTool (.bool true)) (by decide)
  let table : BaselineTable := [sendRow approved, readRow plain]
  have reads : table.Reads "mail" table :=
    reads_self (by simp [table, sendRow, readRow, ToolBaseline.firstSeen])
      (by simpa [table] using ⟨sendRow_readBack approved, readRow_readBack plain⟩)
  have differs : live ≠ approved := by
    rintro rfl
    exact sendTool_hash_ne (approvedHash.trans liveHash.symm)
  have changed : boolean ≠ plain := by
    rintro rfl
    exact readTool_hash_ne (plainHash.trans booleanHash.symm)
  have tools : liveTools [sendTool "Send it.", readTool (.bool true)]
      = [("send_mail", sendTool "Send it."), ("read_mail", readTool (.bool true))] := by
    decide
  let swept : Sweep :=
    { rows := [(sendRow approved).drifted (sendTool "Send it.") live .high, readRow plain] }
  refine ⟨[⟨.selectBaselines "mail", .ok table⟩,
      ⟨.write (driftEntry ⟨"operator", "mail", "send_mail"⟩ .high approved live), .ok 1⟩],
    table, table, table, sendRow approved, approved, live, ?_, ?_, ?_, ?_, ?_, ?_, rfl,
    sendRow_drifted approvedHash liveHash, ?_, rfl⟩
  · refine Coroutine.exec_bind_error_iff.mpr (Or.inr ⟨[_], [_], table, rfl, ?_, ?_⟩)
    · exact Coroutine.exec_demand_iff.mpr ⟨.ok table, rfl, rfl⟩
    refine Coroutine.exec_bind_error_iff.mpr (Or.inl ?_)
    refine Coroutine.exec_bind_error_iff.mpr (Or.inl ?_)
    rw [tools, List.foldlM_cons]
    refine Coroutine.exec_bind_error_iff.mpr (Or.inr ⟨[_], [], swept, rfl, ?_, ?_⟩)
    · exact check_sendTool _ _ approvedHash liveHash
    · rw [List.foldlM_cons]
      exact Coroutine.exec_bind_error_iff.mpr
        (Or.inl (check_readTool _ _ plainHash booleanHash rfl))
  · exact .cons ⟨rfl, reads⟩ (.cons rfl (.nil table))
  · simp [BaselineTable.Distinct, table, sendRow, readRow, ToolBaseline.firstSeen, ToolBaseline.key]
  · decide
  · simp [BaselineTable.Available, Except.isOk, Except.toBool]
  · exact List.mem_cons_self
  · simp

end DriftDetector

end SecureMcp
