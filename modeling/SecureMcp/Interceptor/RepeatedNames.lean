import SecureMcp.Drift.FailClosed
import SecureMcp.Interceptor.Upstream

/-! Lists that name a tool more than once. The drift detector judges the last definition of a
name, the parameters are validated against the first one, and the pruner serves all of
them.
-/

namespace SecureMcp

open Interaction

namespace DriftDetector

/-- Setting a key keeps every entry but those of the key, by induction on the entries. -/
theorem mem_set {entries : List (String × Tool)} {key : String} {value : Tool}
    {entry : String × Tool} (member : entry ∈ Dict.set key value entries)
    : entry = (key, value) ∨ entry ∈ entries := by
  induction entries with
  | nil => exact .inl (List.mem_singleton.mp member)
  | cons first rest ih =>
      rw [Dict.set] at member
      split at member
      · rcases List.mem_cons.mp member with same | later
        · exact .inl same
        · exact .inr (List.mem_cons_of_mem _ later)
      · rcases List.mem_cons.mp member with rfl | later
        · exact .inr List.mem_cons_self
        · rcases ih later with same | old
          · exact .inl same
          · exact .inr (List.mem_cons_of_mem _ old)

theorem mem_update {entries extra : List (String × Tool)} {entry : String × Tool}
    (member : entry ∈ Dict.update entries extra)
    : entry ∈ extra ∨ entry ∈ entries := by
  induction extra generalizing entries with
  | nil => exact .inr member
  | cons first rest ih =>
      rcases ih member with later | before
      · exact .inl (List.mem_cons_of_mem _ later)
      · rcases mem_set before with rfl | old
        · exact .inl List.mem_cons_self
        · exact .inr old

/-- A live tool is one of the list, under its name. -/
theorem of_mem_liveTools {tools : List Tool} {name : String} {last : Tool}
    (live : (name, last) ∈ liveTools tools)
    : last ∈ tools ∧ last.name = name := by
  rcases mem_update live with listed | none
  · obtain ⟨tool, member, same⟩ := List.mem_map.mp listed
    cases same
    exact ⟨member, rfl⟩
  · cases none

/-- Every tool of a list has a live one of its name. -/
theorem exists_live {tools : List Tool} {tool : Tool} (member : tool ∈ tools)
    : ∃ last, (tool.name, last) ∈ liveTools tools := by
  have key : tool.name ∈ Dict.keys (liveTools tools) := by
    refine (Dict.mem_keys_update _ _ _).mpr (.inr ?_)
    exact List.mem_map.mpr ⟨_, List.mem_map.mpr ⟨tool, member, rfl⟩, rfl⟩
  obtain ⟨⟨_, last⟩, live, rfl⟩ := List.mem_map.mp key
  exact ⟨last, live⟩

/-- A definition hashes to the approved hash of its tool, or to the observed one. -/
def Recognised (table : BaselineTable) (serverId : String) (tool : Tool) : Prop :=
  ∃ row hash,
    table.row? serverId tool.name = some row
    ∧ toolHash tool = .ok hash
    ∧ (hash = row.approvedHash ∨ row.observedHash = some hash)

/-- The check leaves a live tool blocked: it takes it for a renamed one, or the row is blocked
and the tool is not back in its approved shape, or the tool has drifted severely and this
is not logged yet.
-/
def LeavesBlocked (settings : Settings) (live : List (String × Tool)) (rows : List ToolBaseline)
    (last : Tool)
    : Prop :=
  match named rows last.name with
  | none => ∃ source, renameSource live last rows = .ok (some source)
  | some row =>
      row.blocked ∧ ¬ (toolHash last = .ok row.approvedHash ∧ row.observedHash.isSome)
      ∨ SeverelyDrifted settings row last ∧ Unlogged row last

/-- A definition hashes as the live one of its name does, or to the approved hash of the row
that was read.
-/
def Agrees (rows : List ToolBaseline) (tool last : Tool) : Prop :=
  ∃ hash,
    toolHash tool = .ok hash
    ∧ (toolHash last = .ok hash
      ∨ ∃ row, named rows tool.name = some row ∧ row.approvedHash = hash)

section

variable {runtime : Runtime} {serverId identityId : String} {tools : List Tool}
  {table after : BaselineTable} {rows : List ToolBaseline} {last : Tool}

/-- What a tool does to its row: whether it is blocked then, and which hashes the row knows. -/
theorem settleTool_row {settings : Settings} {read now : ToolBaseline}
    (live : List (String × Tool)) (known : named rows last.name = some read)
    (settled : settleTool settings read last = .ok now)
    : ∃ hash,
        toolHash last = .ok hash
        ∧ (now.blocked = true ↔ LeavesBlocked settings live rows last)
        ∧ ∀ other,
            other = read.approvedHash ∨ now.observedHash = some other
            ↔ other = hash ∨ read.approvedHash = other := by
  have swapped (hash approved other : String)
      : other = approved ∨ hash = other ↔ other = hash ∨ approved = other := by
    constructor
    · rintro (rfl | rfl)
      · exact .inr rfl
      · exact .inl rfl
    · rintro (rfl | rfl)
      · exact .inr rfl
      · exact .inl rfl
  obtain ⟨hash, hashed, ⟨approved, rfl⟩ | ⟨differs, logged, rfl⟩ | ⟨severity, differs, fresh, found,
    rfl⟩⟩ := settleTool_cases settled
  · refine ⟨hash, hashed, ?_, fun other => ?_⟩
    · have calm : ¬ SeverelyDrifted settings read last := by
        rintro ⟨other, _, again, changed, -⟩
        cases hashed.symm.trans again
        exact changed approved
      by_cases observed : read.observedHash.isSome
      · simp [LeavesBlocked, known, hashed, approved, observed, calm, ToolBaseline.reverted]
      · simp [LeavesBlocked, known, hashed, approved, observed, calm]
    · by_cases observed : read.observedHash.isSome
      · simp [observed, ToolBaseline.reverted, approved, eq_comm]
      · have none : read.observedHash = none := by simpa using observed
        simp [none, approved, eq_comm]
  · refine ⟨hash, hashed, ?_, fun other => ?_⟩
    · have old : ¬ Unlogged now last := fun unlogged => unlogged hash hashed logged
      simp [LeavesBlocked, known, hashed, differs, old]
    · rw [logged, Option.some.injEq]
      exact swapped hash now.approvedHash other
  · refine ⟨hash, hashed, ?_, fun other => ?_⟩
    · have new : Unlogged read last := by
        intro other again
        cases hashed.symm.trans again
        exact fresh
      have drifted : SeverelyDrifted settings read last
          ↔ (severity.getD .high).blocks = true := by
        constructor
        · rintro ⟨other, again, same, -, judged, blocks⟩
          cases found.symm.trans judged
          exact blocks
        · exact fun blocks => ⟨hash, severity, hashed, differs, found, blocks⟩
      simp [LeavesBlocked, known, hashed, differs, new, drifted, ToolBaseline.drifted]
    · rw [ToolBaseline.drifted, Option.some.injEq]
      exact swapped hash read.approvedHash other

/-- What a check leaves in the row of a live tool. -/
theorem Swept.row_of_live (distinct : table.Distinct)
    (swept : Swept runtime serverId tools table after rows)
    (live : (last.name, last) ∈ liveTools tools)
    : ∃ row hash,
        after.row? serverId last.name = some row
        ∧ toolHash last = .ok hash
        ∧ (row.blocked = true ↔ LeavesBlocked runtime.settings (liveTools tools) rows last)
        ∧ ∀ other,
            other = row.approvedHash ∨ row.observedHash = some other
            ↔ other = hash
              ∨ ∃ read, named rows last.name = some read ∧ read.approvedHash = other := by
  cases present : table.row? serverId last.name with
  | some row =>
      obtain ⟨read, now, readBack, known, settled, stored⟩ :=
        swept.live last.name last row live present
      obtain ⟨hash, hashed, blocked, hashes⟩ := settleTool_row (liveTools tools) known settled
      have approved : row.approvedHash = read.approvedHash := by rw [readBack.rest]
      refine ⟨_, hash, stored, hashed, ?_, fun other => ?_⟩
      · rw [apply_diff readBack (settled_settleTool settled)]
        exact blocked
      · rw [apply_diff readBack (settled_settleTool settled), known]
        simpa [approved] using hashes other
  | none =>
      have unknown : named rows last.name = none := by
        have related := swept.reads.find distinct last.name
        change Option.Rel _ _ (named rows last.name) at related
        rw [present] at related
        cases answer : named rows last.name with
        | none => rfl
        | some read => rw [answer] at related; cases related
      obtain ⟨row, ⟨hash, source, hashed, searched, rfl⟩, stored⟩ :=
        swept.sighted last.name last live present
      refine ⟨_, hash, stored, hashed, ?_, fun other => ?_⟩
      · cases source <;> simp [LeavesBlocked, unknown, searched, ToolBaseline.firstSeen,
          ToolBaseline.renamed]
      · cases source <;> simp [unknown, ToolBaseline.firstSeen, ToolBaseline.renamed, eq_comm]

/-- A check that returns has swept the rows that it read. -/
theorem swept_of_check {events : List (Event Reply)} (distinct : table.Distinct)
    (exec : (check runtime serverId tools identityId).run.Exec events (.ok ()))
    (served : Program.Served BaselineTable.Serves table events after)
    (answer : ⟨.selectBaselines serverId, .ok rows⟩ ∈ events)
    : Swept runtime serverId tools table after rows := by
  obtain ⟨reads, swept, judged, committed⟩ := commit_of_check exec served answer
  exact swept_of_commit distinct reads judged committed

/-- After a check that returned, every definition of the unblocked tools of its list is one of
those that drift detection judged, exactly if each definition agrees with the last one of
its name, or the check leaves the name blocked.
-/
theorem definitions_recognised_iff {events : List (Event Reply)} (distinct : table.Distinct)
    (exec : (check runtime serverId tools identityId).run.Exec events (.ok ()))
    (served : Program.Served BaselineTable.Serves table events after)
    (answer : ⟨.selectBaselines serverId, .ok rows⟩ ∈ events)
    : (∀ tool ∈ tools,
        after.blocked serverId tool.name = false → Recognised after serverId tool)
      ↔ ∀ tool ∈ tools, ∀ last, (tool.name, last) ∈ liveTools tools →
          LeavesBlocked runtime.settings (liveTools tools) rows last ∨ Agrees rows tool last := by
  have swept := swept_of_check distinct exec served answer
  refine forall₂_congr fun tool member => ?_
  constructor
  · intro judged last live
    obtain ⟨-, named⟩ := of_mem_liveTools live
    obtain ⟨row, hash, stored, hashed, blocked, hashes⟩ :=
      swept.row_of_live distinct (named.symm ▸ live)
    by_cases left : LeavesBlocked runtime.settings (liveTools tools) rows last
    · exact .inl left
    · right
      rw [named] at stored
      have free : after.blocked serverId tool.name = false := by
        simpa [BaselineTable.blocked, stored] using mt blocked.mp left
      obtain ⟨row', other, stored', otherHashed, known⟩ := judged free
      cases stored.symm.trans stored'
      refine ⟨other, otherHashed, ?_⟩
      rcases (hashes other).mp known with rfl | ⟨read, found, approved⟩
      · exact .inl hashed
      · exact .inr ⟨read, named ▸ found, approved⟩
  · intro agree free
    obtain ⟨last, live⟩ := exists_live member
    obtain ⟨-, named⟩ := of_mem_liveTools live
    obtain ⟨row, hash, stored, hashed, blocked, hashes⟩ :=
      swept.row_of_live distinct (named.symm ▸ live)
    rw [named] at stored
    rcases agree last live with left | ⟨other, otherHashed, known⟩
    · simp [BaselineTable.blocked, stored, blocked.mpr left] at free
    · refine ⟨row, other, stored, otherHashed, (hashes other).mpr ?_⟩
      rcases known with same | ⟨read, found, approved⟩
      · exact .inl (Except.ok.inj (same.symm.trans hashed))
      · exact .inr ⟨read, named ▸ found, approved⟩

end

/-- What the pruner serves is a definition of the list. -/
theorem listed_of_prune {tools : List Tool} {identityId serverId : String}
    {engine : PolicyEngine} {tool : Tool}
    (served : tool ∈ SchemaPruner.prune tools identityId serverId engine)
    : tool ∈ tools :=
  (List.mem_filter.mp served).1

/-- The schema that arguments are validated against is that of a definition of the list, by
induction on the list.
-/
theorem listed_of_inputSchemaIn {tools : List Tool} {toolName : String}
    (picked : Interceptor.inputSchemaIn toolName tools ≠ .null)
    : ∃ tool ∈ tools,
        tool.name = toolName
        ∧ Interceptor.inputSchemaIn toolName tools
          = (tool.lookup "inputSchema").getD (.obj []) := by
  induction tools with
  | nil => exact absurd rfl picked
  | cons tool rest ih =>
      rw [Interceptor.inputSchemaIn] at picked ⊢
      split at picked
      case isTrue named =>
        rw [if_pos named]
        refine ⟨tool, List.mem_cons_self, ?_, rfl⟩
        rw [Tool.name, named]
        rfl
      case isFalse other =>
        rw [if_neg other]
        obtain ⟨found, member, called, same⟩ := ih picked
        exact ⟨found, List.mem_cons_of_mem _ member, called, same⟩

/-- A list whose last definition of the tool is the approved one changes nothing. -/
theorem judge_approved {tools : List Tool} {approved : String}
    (live : liveTools tools = [("send_mail", sendTool "Send.")])
    (hashed : toolHash (sendTool "Send.") = .ok approved)
    : judge calm "mail" (liveTools tools) [sendRow approved]
      = .ok { rows := [sendRow approved] } := by
  have name : (sendRow approved).toolName = "send_mail" := rfl
  have same : (sendRow approved).approvedHash = approved := rfl
  have fresh : (sendRow approved).observedHash = none := rfl
  simp [live, judge, judgeTool, Sweep.row?, name, settleTool, hashed, same, fresh, Sweep.setRow,
    Sweep.putRow, judgeRemoved, Dict.keys, bind, Except.bind, pure, Except.pure]

/-- The check of such a list. -/
theorem exists_check_approved (tools : List Tool) {approved : String}
    (live : liveTools tools = [("send_mail", sendTool "Send.")])
    (hashed : toolHash (sendTool "Send.") = .ok approved)
    : ∃ events after,
        (check calm "mail" tools "operator").run.Exec events (.ok ())
        ∧ Program.Served BaselineTable.Serves [sendRow approved] events after
        ∧ ⟨.selectBaselines "mail", .ok [sendRow approved]⟩ ∈ events
        ∧ after.row? "mail" "send_mail" = some (sendRow approved) := by
  have reads : BaselineTable.Reads [sendRow approved] "mail" [sendRow approved] :=
    reads_self (by simp [sendRow, ToolBaseline.firstSeen]) (by simpa using sendRow_readBack approved)
  obtain ⟨writes, -, -, exec, served⟩ :=
    exists_exec_check "operator" reads (judge_approved live hashed) rfl
  refine ⟨_, _, exec, served, List.mem_cons_self, ?_⟩
  simp [BaselineTable.row?, Keyed.find, sendRow, ToolBaseline.firstSeen,
    Sweep.row?, ToolBaseline.diff, ToolBaseline.changed, ToolBaseline.changedSchema,
    BaselineUpdate.applyTo, BaselineUpdate.apply, ToolBaseline.key]

/-- A definition in front of the approved one is stored and served unjudged. -/
theorem first_definition_unrecognised
    : ∃ events table after,
        (check calm "mail" [sendTool "Send it.", sendTool "Send."] "operator").run.Exec
          events (.ok ())
        ∧ Program.Served BaselineTable.Serves table events after
        ∧ table.Distinct
        ∧ after.blocked "mail" (sendTool "Send it.").name = false
        ∧ ¬ Recognised after "mail" (sendTool "Send it.") := by
  obtain ⟨approved, hashed⟩ := exists_toolHash (sendTool "Send.") (by decide)
  obtain ⟨events, after, exec, served, -, stored⟩ :=
    exists_check_approved [sendTool "Send it.", sendTool "Send."] (by decide) hashed
  refine ⟨events, [sendRow approved], after, exec, served, by simp [BaselineTable.Distinct], ?_, ?_⟩
  · have found : after.row? "mail" (sendTool "Send it.").name = some (sendRow approved) := stored
    simp [BaselineTable.blocked, found, sendRow, ToolBaseline.firstSeen]
  · rintro ⟨row, hash, found, other, known⟩
    cases stored.symm.trans found
    rcases known with rfl | observed
    · exact sendTool_hash_ne (hashed.trans other.symm)
    · cases observed

/-- Witness: a list that names the approved definition twice. -/
theorem repeated_definition_recognised
    : ∃ table after : BaselineTable,
        table.Distinct
        ∧ ∀ tool ∈ [sendTool "Send.", sendTool "Send."],
            after.blocked "mail" tool.name = false → Recognised after "mail" tool := by
  obtain ⟨approved, hashed⟩ := exists_toolHash (sendTool "Send.") (by decide)
  obtain ⟨events, after, exec, served, answer, stored⟩ :=
    exists_check_approved [sendTool "Send.", sendTool "Send."] (by decide) hashed
  have distinct : BaselineTable.Distinct [sendRow approved] := by simp [BaselineTable.Distinct]
  refine ⟨[sendRow approved], after, distinct, ?_⟩
  refine (definitions_recognised_iff distinct exec served answer).mpr ?_
  intro tool member last live
  obtain ⟨listed, -⟩ := of_mem_liveTools live
  have same : tool = sendTool "Send." ∧ last = sendTool "Send." := by
    simp only [List.mem_cons, List.not_mem_nil, or_false, or_self] at member listed
    exact ⟨member, listed⟩
  rw [same.1, same.2]
  exact .inr ⟨approved, hashed, .inl hashed⟩

end DriftDetector

end SecureMcp
