import SecureMcp.Drift.FailClosed
import SecureMcp.Drift.Persistence
import SecureMcp.Drift.Reapproval
import SecureMcp.Drift.Texts
import SecureMcp.Library.Machine
import SecureMcp.Storage.Survival

/-! What the columns of a baseline say about each other, over runs of checks and approvals. Its
hashes are those of its definitions as long as every definition comes back from its column
with its hash, and no definition is written over an equal one that has another hash: the
session takes such a column for unchanged.
-/

namespace SecureMcp

open Interaction

open Jsonb (Survives)

namespace ToolBaseline.ReadBack

variable {row read : ToolBaseline}

theorem observed {schema : Tool} (readBack : row.ReadBack read)
    (found : read.observedSchema = some schema)
    : ∃ sent, row.observedSchema = some sent ∧ sent.ReadBack schema := by
  have related := readBack.observedSchema
  rw [found] at related
  cases sent : row.observedSchema with
  | none => rw [sent] at related; cases related
  | some tool =>
      rw [sent] at related
      cases related with
      | some back => exact ⟨tool, rfl, back⟩

theorem observed_none (readBack : row.ReadBack read)
    : read.observedSchema = none ↔ row.observedSchema = none := by
  have related := readBack.observedSchema
  cases sent : row.observedSchema with
  | none =>
      cases found : read.observedSchema with
      | none => simp
      | some _ => rw [sent, found] at related; cases related
  | some tool =>
      cases found : read.observedSchema with
      | none => rw [sent, found] at related; cases related
      | some _ => simp

end ToolBaseline.ReadBack

namespace DriftDetector

theorem Scanned.of_pyEq {tool other : Tool} {text : String} (scanned : Scanned tool text)
    (same : (Json.obj tool).pyEq (.obj other) = true)
    : Scanned other text := by
  obtain ⟨_, whole, -, each⟩ := Json.obj_of_pyEq same
  cases whole
  rcases scanned with own | ⟨steps, described, outside⟩
  · exact .inl (Json.getKey_of_pyEqFields each own)
  · refine .inr ⟨steps, ?_, outside⟩
    unfold Json.getKey at described ⊢
    cases found : tool.lookup "inputSchema" with
    | none =>
        rw [found, Option.getD_none] at described
        exact absurd described (describedAt_atom (by simp) (by simp))
    | some schema =>
        obtain ⟨twin, there, equal⟩ :=
          Json.pyEqFields_iff.mp each _ _ (Dict.mem_of_lookup found)
        rw [found, Option.getD_some] at described
        rw [there, Option.getD_some]
        exact described.of_pyEq equal

/-- The scan finds something in both of two equal definitions or in none. -/
theorem isEmpty_scan_of_pyEq {runtime : Runtime} {tool other : Tool}
    (first : (Json.obj tool).DistinctKeys) (second : (Json.obj other).DistinctKeys)
    (same : (Json.obj tool).pyEq (.obj other) = true)
    : (scanDescriptions runtime tool).isEmpty = (scanDescriptions runtime other).isEmpty := by
  have found {left right : Tool} (equal : (Json.obj left).pyEq (.obj right) = true)
      (nonempty : scanDescriptions runtime left ≠ [])
      : scanDescriptions runtime right ≠ [] := by
    obtain ⟨text, scanned, hit⟩ := (scanDescriptions_ne_nil runtime left).mp nonempty
    exact (scanDescriptions_ne_nil runtime right).mpr ⟨text, scanned.of_pyEq equal, hit⟩
  have back := Json.pyEq_symm _ _ first second same
  rw [Bool.eq_iff_iff, List.isEmpty_iff, List.isEmpty_iff]
  exact not_iff_not.mp ⟨found same, found back⟩

/-- What the columns of a row say about each other. -/
structure Represents (runtime : Runtime) (row : ToolBaseline) : Prop where
  approved : toolHash row.approvedSchema = .ok row.approvedHash
  absent :
    row.observedSchema = none
    ↔ row.observedHash = none ∨ row.observedHash = some ToolBaseline.removedSentinel
  observed : ∀ schema,
    row.observedSchema = some schema
    → ∃ hash, row.observedHash = some hash ∧ toolHash schema = .ok hash
  blocked : row.blocked → row.observedHash ≠ none
  suspicious : row.suspicious = !(scanDescriptions runtime row.approvedSchema).isEmpty

/-- A row whose definitions come back from their columns with their hashes. -/
structure Kept (runtime : Runtime) (row : ToolBaseline) : Prop
    extends Represents runtime row where
  approvedSurvives : Survives (.obj row.approvedSchema)
  observedSurvives : ∀ schema, row.observedSchema = some schema → Survives (.obj schema)

/-- Python's `==` tells a definition from the one it is written over, unless they have one
hash.
-/
def Told (old new : Tool) : Prop :=
  (Json.obj old).pyEq (.obj new) = true → toolHash old = toolHash new

theorem hyphen_mem_removedSentinel : '-' ∈ ToolBaseline.removedSentinel.toList := by
  have hyphens : '-' ∈ List.replicate 64 '-' := by
    rw [List.mem_replicate]
    exact ⟨Nat.noConfusion, rfl⟩
  unfold ToolBaseline.removedSentinel
  rw [String.toList_ofList]
  exact hyphens

/-- No hash is the sentinel, as digests have hexadecimal digits only. -/
theorem ne_removedSentinel {tool : Tool} {hash : String} (hashed : toolHash tool = .ok hash)
    : hash ≠ ToolBaseline.removedSentinel := by
  obtain ⟨printed, -, digest⟩ := CanonicalJson.hash_ok hashed
  have plain : '-' ∉ hash.toList := by
    rw [digest, Sha256.hexdigest, String.toList_ofList]
    exact Sha256.hyphen_not_mem_digest _
  intro same
  rw [same] at plain
  exact plain hyphen_mem_removedSentinel

section

variable {runtime : Runtime} {row read now : ToolBaseline}

/-- The columns of a row without an observed definition. -/
theorem kept_of_unobserved (approved : toolHash row.approvedSchema = .ok row.approvedHash)
    (suspicious : row.suspicious = !(scanDescriptions runtime row.approvedSchema).isEmpty)
    (survives : Survives (.obj row.approvedSchema)) (schema : row.observedSchema = none)
    (hash : row.observedHash = none ∨ row.observedHash = some ToolBaseline.removedSentinel)
    (blocked : row.blocked → row.observedHash ≠ none)
    : Kept runtime row where
  approved := approved
  absent := ⟨fun _ => hash, fun _ => schema⟩
  observed tool found := by
    cases schema.symm.trans found
  blocked := blocked
  suspicious := suspicious
  approvedSurvives := survives
  observedSurvives tool found := by
    cases schema.symm.trans found

/-- The columns of a row with an observed definition. -/
theorem kept_of_observed {tool : Tool} {hash : String}
    (approved : toolHash row.approvedSchema = .ok row.approvedHash)
    (suspicious : row.suspicious = !(scanDescriptions runtime row.approvedSchema).isEmpty)
    (survives : Survives (.obj row.approvedSchema)) (schema : row.observedSchema = some tool)
    (logged : row.observedHash = some hash) (hashed : toolHash tool = .ok hash)
    (observedSurvives : Survives (.obj tool))
    : Kept runtime row where
  approved := approved
  absent := by
    rw [schema, logged]
    simp [ne_removedSentinel hashed]
  observed other found := by
    cases schema.symm.trans found
    exact ⟨hash, logged, hashed⟩
  blocked _ := by simp [logged]
  suspicious := suspicious
  approvedSurvives := survives
  observedSurvives other found := by
    cases schema.symm.trans found
    exact observedSurvives

/-- A kept row is kept as it is read back. -/
theorem Kept.readBack (kept : Kept runtime row) (readBack : row.ReadBack read)
    : Kept runtime read := by
  have approvedHash : read.approvedHash = row.approvedHash := by rw [readBack.rest]
  have observedHash : read.observedHash = row.observedHash := by rw [readBack.rest]
  have blocked : read.blocked = row.blocked := by rw [readBack.rest]
  have flag : read.suspicious = row.suspicious := by rw [readBack.rest]
  have survives := kept.approvedSurvives.readBack readBack.approvedSchema
  refine ⟨⟨?_, ?_, ?_, ?_, ?_⟩, survives, ?_⟩
  · rw [approvedHash]
    exact kept.approvedSurvives.hash readBack.approvedSchema kept.approved
  · rw [readBack.observed_none, observedHash]
    exact kept.absent
  · intro schema found
    obtain ⟨sent, there, back⟩ := readBack.observed found
    obtain ⟨hash, logged, hashed⟩ := kept.observed sent there
    exact ⟨hash, observedHash.trans logged, (kept.observedSurvives sent there).hash back hashed⟩
  · rw [blocked, observedHash]
    exact kept.blocked
  · rw [flag, kept.suspicious]
    have same := kept.approvedSurvives.pyEq readBack.approvedSchema kept.approved
    rw [isEmpty_scan_of_pyEq kept.approvedSurvives.distinct survives.distinct same]
  · intro schema found
    obtain ⟨sent, there, back⟩ := readBack.observed found
    exact (kept.observedSurvives sent there).readBack back

/-- A schema column holds what it was assigned, or an equal value that it held before. -/
theorem getD_changedSchema (old new base : Option Tool)
    : (ToolBaseline.changedSchema old new).getD base = new
      ∨ (ToolBaseline.changedSchema old new).getD base = base
        ∧ (old = new
          ∨ ∃ before after,
              old = some before ∧ new = some after
              ∧ (Json.obj before).pyEq (.obj after) = true) := by
  cases old with
  | none => cases new <;> simp [ToolBaseline.changedSchema]
  | some before =>
      cases new with
      | none => simp [ToolBaseline.changedSchema]
      | some after =>
          unfold ToolBaseline.changedSchema
          dsimp only
          split
          case isTrue equal =>
            rw [Bool.or_eq_true, decide_eq_true_eq] at equal
            refine .inr ⟨rfl, equal.imp (congrArg some) fun same => ?_⟩
            exact ⟨before, after, rfl, rfl, same⟩
          case isFalse => exact .inl rfl

theorem apply_diff_self (row read : ToolBaseline) : (read.diff read).apply row = row := by
  simp [BaselineUpdate.apply, ToolBaseline.diff, changedSchema_self, ToolBaseline.changed]

theorem cleared_of_readBack (readBack : row.ReadBack read)
    : (ToolBaseline.changedSchema read.observedSchema none).getD row.observedSchema = none := by
  rcases getD_changedSchema read.observedSchema none row.observedSchema with
    same | ⟨same, none | ⟨_, _, _, impossible, _⟩⟩
  · exact same
  · rw [same, ← readBack.observed_none, none]
  · cases impossible

/-- A row whose observed columns were cleared, or marked as those of a removed tool. -/
theorem Kept.cleared (kept : Kept runtime row) (settled : Settled read now)
    (readBack : row.ReadBack read) (schema : now.observedSchema = none)
    (hash : now.observedHash = none ∨ now.observedHash = some ToolBaseline.removedSentinel)
    (blocked : now.blocked → now.observedHash ≠ none)
    : Kept runtime ((read.diff now).apply row) := by
  rw [apply_diff readBack settled, schema]
  rw [cleared_of_readBack readBack]
  exact kept_of_unobserved kept.approved kept.suspicious kept.approvedSurvives rfl hash blocked

/-- A row whose tool was seen in a new shape. -/
theorem Kept.drifted {tool : Tool} {hash : String} {severity : DriftSeverity}
    (kept : Kept runtime row) (readBack : row.ReadBack read) (survives : Survives (.obj tool))
    (hashed : toolHash tool = .ok hash)
    (told : ∀ observed, read.observedSchema = some observed → Told observed tool)
    : Kept runtime ((read.diff (read.drifted tool hash severity)).apply row) := by
  have settled : Settled read (read.drifted tool hash severity) := ⟨rfl, rfl, rfl, rfl, rfl⟩
  have observedHash : read.observedHash = row.observedHash := by rw [readBack.rest]
  rw [apply_diff readBack settled]
  dsimp only [ToolBaseline.drifted]
  rcases getD_changedSchema read.observedSchema (some tool) row.observedSchema with
    same | ⟨same, old⟩
  · rw [same]
    exact kept_of_observed kept.approved kept.suspicious kept.approvedSurvives rfl rfl hashed survives
  · -- The column keeps an equal definition, which has the same hash.
    have equal : ∃ before, read.observedSchema = some before ∧ toolHash before = .ok hash := by
      rcases old with here | ⟨before, after, there, here, alike⟩
      · exact ⟨tool, here, hashed⟩
      · cases here
        exact ⟨before, there, (told before there alike).trans hashed⟩
    obtain ⟨before, there, known⟩ := equal
    obtain ⟨sent, present, -⟩ := readBack.observed there
    obtain ⟨logged, noted, again⟩ := (kept.readBack readBack).observed before there
    cases known.symm.trans again
    obtain ⟨first, written, sentHash⟩ := kept.observed sent present
    cases (observedHash.symm.trans noted).symm.trans written
    rw [same, present]
    exact kept_of_observed kept.approved kept.suspicious kept.approvedSurvives rfl rfl sentHash
      (kept.observedSurvives sent present)

/-- A tool that a check visits keeps its row. -/
theorem Kept.settle {settings : Settings} {tool : Tool} (kept : Kept runtime row)
    (readBack : row.ReadBack read) (survives : Survives (.obj tool))
    (told : ∀ observed, read.observedSchema = some observed → Told observed tool)
    (settled : settleTool settings read tool = .ok now)
    : Kept runtime ((read.diff now).apply row) := by
  obtain ⟨hash, hashed, ⟨-, same⟩ | ⟨-, -, same⟩ | ⟨severity, -, -, -, same⟩⟩ :=
    settleTool_cases settled
  · rw [same]
    split
    · exact kept.cleared ⟨rfl, rfl, rfl, rfl, rfl⟩ readBack rfl (.inl rfl)
        (by simp [ToolBaseline.reverted])
    · rw [apply_diff_self]
      exact kept
  · rw [same, apply_diff_self]
    exact kept
  · rw [same]
    exact kept.drifted readBack survives hashed told

/-- A missing tool keeps its row. -/
theorem Kept.gone (kept : Kept runtime row) (readBack : row.ReadBack read)
    (removed : now = read ∨ now = settleRemoved read)
    : Kept runtime ((read.diff now).apply row) := by
  rcases removed with same | same
  · rw [same, apply_diff_self]
    exact kept
  · rw [same, settleRemoved]
    split
    · rw [apply_diff_self]
      exact kept
    · exact kept.cleared ⟨rfl, rfl, rfl, rfl, rfl⟩ readBack rfl (.inr rfl)
        (by simp [ToolBaseline.removed])

theorem Sighted.kept {serverId name : String} {live : List (String × Tool)}
    {rows : List ToolBaseline} {tool : Tool} (survives : Survives (.obj tool))
    (sighted : Sighted runtime serverId live rows name tool row)
    : Kept runtime row := by
  obtain ⟨hash, source, hashed, -, rfl⟩ := sighted
  cases source with
  | none =>
      exact kept_of_unobserved hashed rfl survives rfl (.inl rfl) (by simp [ToolBaseline.firstSeen])
  | some source => exact kept_of_observed hashed rfl survives rfl rfl hashed survives

/-- The approved column holds the promoted definition, or an equal one that it held before. -/
theorem getD_join_changedSchema (old new base : Tool)
    : (ToolBaseline.changedSchema (some old) (some new)).join.getD base = new
      ∨ (ToolBaseline.changedSchema (some old) (some new)).join.getD base = base
        ∧ (old = new ∨ (Json.obj old).pyEq (.obj new) = true) := by
  unfold ToolBaseline.changedSchema
  dsimp only
  split
  case isTrue equal =>
    rw [Bool.or_eq_true, decide_eq_true_eq] at equal
    exact .inr ⟨rfl, equal⟩
  case isFalse => exact .inl rfl

/-- What the promotion of the observed definition is stored as. -/
theorem apply_promoted (readBack : row.ReadBack read) (observed : Tool) (newHash : String)
    (suspicious : Bool)
    : (read.diff (read.promoted observed newHash suspicious)).apply row
      = {
          row with
          approvedSchema :=
            (ToolBaseline.changedSchema (some read.approvedSchema) (some observed)).join.getD
              row.approvedSchema
          approvedHash := newHash
          blocked := false
          observedSchema := none
          observedHash := none
          suspicious := suspicious
        } := by
  have approvedHash : row.approvedHash = read.approvedHash := by rw [readBack.rest]
  have blocked : row.blocked = read.blocked := by rw [readBack.rest]
  have observedHash : row.observedHash = read.observedHash := by rw [readBack.rest]
  have flag : row.suspicious = read.suspicious := by rw [readBack.rest]
  simp only [BaselineUpdate.apply, ToolBaseline.diff, ToolBaseline.promoted, approvedHash, blocked,
    observedHash, flag, getD_changed, cleared_of_readBack readBack]

/-- An approved row. -/
theorem Kept.promoted {observed : Tool} {newHash : String} (kept : Kept runtime row)
    (readBack : row.ReadBack read) (pending : read.observedSchema = some observed)
    (promoted : promotedHash read observed = .ok newHash)
    (told : Told read.approvedSchema observed)
    : Kept runtime ((read.diff (read.promoted observed newHash
        (!(scanDescriptions runtime observed).isEmpty))).apply row) := by
  have keptRead := kept.readBack readBack
  have survives := keptRead.observedSurvives observed pending
  obtain ⟨hash, logged, hashed⟩ := keptRead.observed observed pending
  have newHashed : toolHash observed = .ok newHash := by
    unfold promotedHash at promoted
    rw [logged] at promoted
    dsimp only at promoted
    split at promoted
    · exact promoted
    · exact hashed.trans promoted
  rw [apply_promoted readBack]
  rcases getD_join_changedSchema read.approvedSchema observed row.approvedSchema with
    same | ⟨same, equal⟩
  · rw [same]
    exact kept_of_unobserved newHashed rfl survives rfl (.inl rfl) (by simp)
  · -- The column keeps an equal definition, which has the same hash and the same findings.
    have hashes : toolHash read.approvedSchema = toolHash observed :=
      equal.elim (congrArg toolHash) told
    have original : toolHash row.approvedSchema = .ok newHash := by
      have again := keptRead.approved
      rw [hashes, newHashed, Except.ok.injEq] at again
      rw [kept.approved, again, readBack.rest]
    have findings : (scanDescriptions runtime row.approvedSchema).isEmpty
        = (scanDescriptions runtime observed).isEmpty := by
      have first := kept.approvedSurvives.pyEq readBack.approvedSchema kept.approved
      have middle := @isEmpty_scan_of_pyEq runtime _ _ kept.approvedSurvives.distinct
        keptRead.approvedSurvives.distinct first
      refine middle.trans ?_
      rcases equal with same | equal
      · rw [same]
      · exact isEmpty_scan_of_pyEq keptRead.approvedSurvives.distinct survives.distinct equal
    rw [same]
    exact kept_of_unobserved original (by rw [findings]) kept.approvedSurvives rfl (.inl rfl)
      (by simp)

end

-----------------------------------------------------------------------------------------
-- Runs
-----------------------------------------------------------------------------------------

/-- The operations on the baselines: a check that returns, a check that raises, and an approval,
granted or refused.
-/
inductive Upkeep
  | checked (serverId : String) (tools : List Tool)
  | failed (serverId : String) (tools : List Tool)
  | approval (serverId toolName : String)

/-- One operation, in any of its executions that the table can serve. -/
inductive Keeps (runtime : Runtime) (table : BaselineTable) : Upkeep → BaselineTable → Prop
  | checked {serverId identityId : String} {tools : List Tool} {events : List (Event Reply)}
    {after : BaselineTable}
    (exec : (check runtime serverId tools identityId).run.Exec events (.ok ()))
    (served : Program.Served BaselineTable.Serves table events after)
    : Keeps runtime table (.checked serverId tools) after
  | failed {serverId identityId : String} {tools : List Tool} {events : List (Event Reply)}
    {exn : Exn} {after : BaselineTable}
    (exec : (check runtime serverId tools identityId).run.Exec events (.error exn))
    (served : Program.Served BaselineTable.Serves table events after)
    : Keeps runtime table (.failed serverId tools) after
  | approval {serverId toolName approvedBy : String} {events : List (Event Reply)}
    {outcome : Except Exn Nat} {after : BaselineTable}
    (exec : (approve runtime serverId toolName approvedBy).run.Exec events outcome)
    (served : Program.Served BaselineTable.Serves table events after)
    : Keeps runtime table (.approval serverId toolName) after

/-- Every definition that an operation stores comes back from its column with its hash, and
Python's `==` tells it from the one that it is written over: a listed definition from the
observed one, and a promoted definition from the approved one.
-/
def Faithful (table : BaselineTable) : Upkeep → Prop
  | .checked serverId tools =>
      ∀ name tool,
        (name, tool) ∈ liveTools tools
        → Survives (.obj tool)
          ∧ ∀ row read observed,
              table.row? serverId name = some row
              → row.ReadBack read
              → read.observedSchema = some observed
              → Told observed tool
  | .failed _ _ => True
  | .approval serverId toolName =>
      ∀ row read observed,
        table.row? serverId toolName = some row
        → row.ReadBack read
        → read.observedSchema = some observed
        → Told read.approvedSchema observed

/-- (KeptRun runtime operations table) means that faithful operations have led to the table. -/
def KeptRun (runtime : Runtime) (operations : List Upkeep) (table : BaselineTable) : Prop :=
  Machine.Run (fun table operation after =>
    Keeps runtime table operation after ∧ Faithful table operation) [] operations table

/-- Every row of the table is kept. -/
def KeepsRows (runtime : Runtime) (table : BaselineTable) : Prop :=
  table.Distinct ∧ ∀ serverId name row, table.row? serverId name = some row → Kept runtime row

section

variable {runtime : Runtime} {table after : BaselineTable} {serverId toolName : String}

/-- An approval keeps the table, or promotes the observed schema of the tool. -/
theorem promoted_of_approve {approvedBy : String} {events : List (Event Reply)}
    {outcome : Except Exn Nat}
    (exec : (approve runtime serverId toolName approvedBy).run.Exec events outcome)
    (served : Program.Served BaselineTable.Serves table events after)
    : after = table
      ∨ ∃ row read observed newHash,
          table.row? serverId toolName = some row
          ∧ row.ReadBack read
          ∧ read.observedSchema = some observed
          ∧ promotedHash read observed = .ok newHash
          ∧ after = table.map (read.diff (read.promoted observed newHash
              (!(scanDescriptions runtime observed).isEmpty))).applyTo := by
  rcases exec_approve exec with ⟨reply, writes, rfl, reports⟩ |
    ⟨read, observed, newHash, writes, reply, rfl, reports, pending, hashed⟩
  · obtain ⟨middle, first, rest⟩ := Program.served_cons_iff.mp served
    have kept : middle = table := by
      cases reply with
      | error exn => exact first
      | ok row => exact first.1
    exact .inl ((served_reports reports rest).trans kept)
  · obtain ⟨middle, ⟨kept, related⟩, rest⟩ := Program.served_cons_iff.mp served
    obtain ⟨before, written, last⟩ := Program.served_append_iff.mp rest
    obtain ⟨final, committed, nil⟩ := Program.served_cons_iff.mp last
    cases Program.served_nil_iff.mp nil
    cases served_reports reports written
    cases kept
    cases present : table.row? serverId toolName with
    | none => rw [present] at related; cases related
    | some row =>
        rw [present] at related
        cases related with
        | some readBack =>
            cases reply with
            | error exn => exact .inl committed
            | ok _ =>
                cases committed
                exact .inr ⟨row, read, observed, newHash, rfl, readBack, pending, hashed, rfl⟩

/-- The row that a promotion writes to is the one that was read for it. -/
theorem target_of_readBack {row read before : ToolBaseline} {other name : String}
    (present : table.row? serverId toolName = some row) (readBack : row.ReadBack read)
    (there : table.row? other name = some before)
    (target : before.key = (read.serverId, read.toolName))
    : before = row := by
  have spelled : before.key = (other, name) := Keyed.find_key there
  have wanted : row.key = (serverId, toolName) := Keyed.find_key present
  rw [readBack.serverId, readBack.toolName] at target
  cases (wanted.symm.trans target.symm).trans spelled
  exact Option.some.inj (there.symm.trans present)

/-- A check that returns keeps the rows. -/
theorem KeepsRows.swept {tools : List Tool} {rows : List ToolBaseline}
    (keeps : KeepsRows runtime table) (swept : Swept runtime serverId tools table after rows)
    (faithful : Faithful table (.checked serverId tools)) {other name : String}
    {row : ToolBaseline} (found : after.row? other name = some row)
    : Kept runtime row := by
  by_cases here : other = serverId
  · subst here
    by_cases live : name ∈ Dict.keys (liveTools tools)
    · obtain ⟨⟨_, tool⟩, member, rfl⟩ := List.mem_map.mp live
      obtain ⟨survives, told⟩ := faithful _ tool member
      cases present : table.row? other _ with
      | some before =>
          obtain ⟨read, now, readBack, -, settled, stored⟩ := swept.live _ tool before member present
          cases stored.symm.trans found
          refine (keeps.2 _ _ before present).settle readBack survives ?_ settled
          exact fun observed pending => told before read observed present readBack pending
      | none =>
          obtain ⟨fresh, sighted, stored⟩ := swept.sighted _ tool member present
          cases stored.symm.trans found
          exact sighted.kept survives
    · cases present : table.row? other name with
      | some before =>
          obtain ⟨read, now, readBack, removed, stored⟩ := swept.gone name before live present
          cases stored.symm.trans found
          exact (keeps.2 _ _ before present).gone readBack removed
      | none => cases (swept.unseen name live present).symm.trans found
  · rw [swept.others other name here] at found
    exact keeps.2 other name row found

/-- Every faithful operation keeps the rows. -/
theorem KeepsRows.step {operation : Upkeep} (keeps : KeepsRows runtime table)
    (step : Keeps runtime table operation after) (faithful : Faithful table operation)
    : KeepsRows runtime after := by
  cases step with
  | checked exec served =>
      refine ⟨served.invariant keeps.1 (fun _ _ _ => .serves), ?_⟩
      intro other name row found
      rcases exec_check_served keeps.1 exec served with ⟨-, exn, raised⟩ | ⟨-, rows, swept⟩
      · cases raised
      · exact keeps.swept swept faithful found
  | failed exec served =>
      rcases exec_check_served keeps.1 exec served with ⟨same, -⟩ | ⟨returned, -⟩
      · rw [same]
        exact keeps
      · cases returned
  | approval exec served =>
      rcases promoted_of_approve exec served with same |
        ⟨row, read, observed, newHash, present, readBack, pending, hashed, same⟩
      · rw [same]
        exact keeps
      refine ⟨served.invariant keeps.1 (fun _ _ _ => .serves), ?_⟩
      intro other name left found
      rw [same, BaselineTable.row?_applyTo] at found
      obtain ⟨before, there, rfl⟩ := Option.map_eq_some_iff.mp found
      unfold BaselineUpdate.applyTo
      split
      case isFalse => exact keeps.2 other name before there
      case isTrue target =>
        cases target_of_readBack present readBack there target
        exact (keeps.2 other name row there).promoted readBack pending hashed
          (faithful row read observed present readBack pending)

theorem keepsRows_of_run {operations : List Upkeep} (run : KeptRun runtime operations table)
    : KeepsRows runtime table := by
  have first : KeepsRows runtime [] :=
    ⟨List.nodup_nil, by simp [BaselineTable.row?, Keyed.find]⟩
  refine Machine.Run.invariant (KeepsRows runtime) run first ?_
  intro state operation after keeps taken
  exact keeps.step taken.1 taken.2

/-- The tool is not marked as removed. -/
def NotRemoved (table : BaselineTable) (serverId toolName : String) : Prop :=
  ∀ row,
    table.row? serverId toolName = some row
    → row.observedHash ≠ some ToolBaseline.removedSentinel

/-- A check that returns marks no tool of its list as removed. -/
theorem notRemoved_of_swept {tools : List Tool} {rows : List ToolBaseline}
    (swept : Swept runtime serverId tools table after rows)
    (live : toolName ∈ Dict.keys (liveTools tools))
    : NotRemoved after serverId toolName := by
  obtain ⟨⟨_, tool⟩, member, rfl⟩ := List.mem_map.mp live
  intro row found
  cases present : table.row? serverId _ with
  | some before =>
      obtain ⟨read, now, readBack, -, settled, stored⟩ := swept.live _ tool before member present
      rw [apply_diff readBack (settled_settleTool settled)] at stored
      cases stored.symm.trans found
      dsimp only
      obtain ⟨hash, hashed, ⟨-, rfl⟩ | ⟨-, logged, rfl⟩ | ⟨severity, -, -, -, rfl⟩⟩ :=
        settleTool_cases settled
      · split
        case isTrue => simp [ToolBaseline.reverted]
        case isFalse none =>
          rw [Bool.not_eq_true, Option.isSome_eq_false_iff, Option.isNone_iff_eq_none] at none
          simp [none]
      · simp [logged, ne_removedSentinel hashed]
      · simp [ToolBaseline.drifted, ne_removedSentinel hashed]
  | none =>
      obtain ⟨fresh, ⟨hash, source, hashed, -, rfl⟩, stored⟩ := swept.sighted _ tool member present
      cases stored.symm.trans found
      cases source with
      | none => simp [ToolBaseline.firstSeen]
      | some source => simp [ToolBaseline.renamed, ne_removedSentinel hashed]

/-- Only a check of the server that returns marks one of its tools as removed. -/
theorem NotRemoved.step {operation : Upkeep} (notRemoved : NotRemoved table serverId toolName)
    (distinct : table.Distinct) (step : Keeps runtime table operation after)
    (other : ∀ tools, operation ≠ .checked serverId tools)
    : NotRemoved after serverId toolName := by
  intro row found
  cases step with
  | checked exec served =>
      rename_i server _ tools _
      rcases exec_check_served distinct exec served with ⟨-, exn, raised⟩ | ⟨-, rows, swept⟩
      · cases raised
      have elsewhere : serverId ≠ server := by
        intro same
        exact other tools (by rw [same])
      rw [swept.others serverId toolName elsewhere] at found
      exact notRemoved row found
  | failed exec served =>
      rcases exec_check_served distinct exec served with ⟨same, -⟩ | ⟨returned, -⟩
      · rw [same] at found
        exact notRemoved row found
      · cases returned
  | approval exec served =>
      rcases promoted_of_approve exec served with same |
        ⟨before, read, observed, newHash, present, readBack, pending, hashed, same⟩
      · rw [same] at found
        exact notRemoved row found
      rw [same, BaselineTable.row?_applyTo] at found
      obtain ⟨there, kept, rfl⟩ := Option.map_eq_some_iff.mp found
      unfold BaselineUpdate.applyTo
      split
      case isFalse => exact notRemoved there kept
      case isTrue target =>
        cases target_of_readBack present readBack kept target
        simp [apply_promoted readBack]

end

/-- A request that is answered without a failure. -/
def Answered (event : Event Reply) : Prop :=
  match event with
  | ⟨.selectBaseline _ _, reply⟩ => reply.isOk
  | ⟨.write _, reply⟩ => reply.isOk
  | ⟨.commit _, reply⟩ => reply.isOk
  | _ => True

/-- An approval of the tool returns, as long as it is answered. -/
def ApproveSucceeds (runtime : Runtime) (table : BaselineTable) (serverId toolName : String)
    : Prop :=
  ∀ approvedBy events outcome after,
    (approve runtime serverId toolName approvedBy).run.Exec events outcome
    → Program.Served BaselineTable.Serves table events after
    → (∀ event ∈ events, Answered event)
    → ∃ seq, outcome = .ok seq

section

variable {runtime : Runtime} {table after : BaselineTable} {serverId toolName : String}

theorem exec_write_answered {entry : AuditEntry} {events : List (Event Reply)}
    {outcome : Except Exn Nat} (exec : (AuditWriter.write entry).run.Exec events outcome)
    (answered : ∀ event ∈ events, Answered event)
    : ∃ seq, outcome = .ok seq := by
  obtain ⟨reply, rfl, rfl⟩ := Coroutine.exec_demand_iff.mp exec
  cases reply with
  | ok seq => exact ⟨seq, rfl⟩
  | error exn => cases answered _ List.mem_cons_self

theorem exec_writeIf_answered {condition : Bool} {entry : AuditEntry} {events : List (Event Reply)}
    {outcome : Except Exn Unit}
    (exec : (AuditWriter.writeIf condition entry).run.Exec events outcome)
    (answered : ∀ event ∈ events, Answered event)
    : outcome = .ok () := by
  unfold AuditWriter.writeIf at exec
  cases condition with
  | false => exact (Program.exec_done_iff.mp exec).2.symm
  | true =>
      rw [if_pos rfl, Coroutine.run_bind, Program.exec_bind_iff] at exec
      obtain ⟨first, rest, ended, rfl, writing, exec⟩ := exec
      obtain ⟨seq, rfl⟩ := exec_write_answered writing
        fun event member => answered event (List.mem_append_left _ member)
      exact (Program.exec_done_iff.mp exec).2.symm

/-- The approval of a tool whose row holds an observed definition returns. -/
theorem approveSucceeds_of_pending {row : ToolBaseline} (kept : Kept runtime row)
    (present : table.row? serverId toolName = some row) (pending : row.observedSchema ≠ none)
    : ApproveSucceeds runtime table serverId toolName := by
  intro approvedBy events outcome after exec served answered
  unfold approve at exec
  obtain ⟨reply, rest, rfl, ended⟩ := Coroutine.exec_demand_bind exec
  have asked := answered _ List.mem_cons_self
  cases reply with
  | error exn => cases asked
  | ok found =>
  rcases ended with ⟨value, same, exec⟩ | ⟨stop, impossible, -, -⟩
  swap
  · cases impossible
  cases same
  obtain ⟨_, ⟨-, related⟩, -⟩ := Program.served_cons_iff.mp served
  rw [present] at related
  obtain ⟨read, rfl, readBack⟩ : ∃ read, found = some read ∧ row.ReadBack read := by
    cases related with
    | some readBack => exact ⟨_, rfl, readBack⟩
  dsimp only at exec
  cases observing : read.observedSchema with
  | none => exact absurd (readBack.observed_none.mp observing) pending
  | some observed =>
  simp only [observing] at exec
  obtain ⟨hash, logged, hashed⟩ := (kept.readBack readBack).observed observed observing
  have promoted : ∃ newHash, promotedHash read observed = .ok newHash := by
    unfold promotedHash
    rw [logged]
    dsimp only
    split
    · exact ⟨hash, hashed⟩
    · exact ⟨hash, rfl⟩
  obtain ⟨newHash, promoted⟩ := promoted
  rw [promoted, Coroutine.ofExcept_ok_bind] at exec
  have later : ∀ event ∈ rest, Answered event :=
    fun event member => answered event (List.mem_cons_of_mem _ member)
  cases outcome with
  | ok seq => exact ⟨seq, rfl⟩
  | error stop =>
      -- Each write and the commit is answered, so none of them raises.
      rcases Coroutine.exec_bind_error_iff.mp exec with
        flagging | ⟨flagged, rest, _, rfl, -, exec⟩
      · cases exec_writeIf_answered flagging later
      rcases Coroutine.exec_bind_error_iff.mp exec with
        writing | ⟨written, rest, _, rfl, -, exec⟩
      · obtain ⟨seq, impossible⟩ := exec_write_answered writing
          fun event member => later event (List.mem_append_right _ member)
        cases impossible
      rcases Coroutine.exec_bind_error_iff.mp exec with
        committing | ⟨committed, rest, _, rfl, -, exec⟩
      · obtain ⟨reply, rfl, refused⟩ := Coroutine.exec_demand_iff.mp committing
        cases refused
        have refusal := later _ (List.mem_append_right _ (List.mem_append_right _ List.mem_cons_self))
        cases refusal
      · cases (Program.exec_done_iff.mp exec).2

/-- In every run of faithful operations, a tool of the list that was last checked is not marked as
removed.
-/
theorem notRemoved_of_run {past later : List Upkeep} {tools : List Tool}
    (run : KeptRun runtime (past ++ .checked serverId tools :: later) table)
    (last : ∀ other, .checked serverId other ∉ later)
    (live : toolName ∈ Dict.keys (liveTools tools))
    : NotRemoved table serverId toolName := by
  obtain ⟨before, earlier, rest⟩ := Machine.Run.split run
  have keeps : KeepsRows runtime before := keepsRows_of_run earlier
  obtain ⟨left, ⟨step, faithful⟩, rest⟩ := rest.head
  have start : KeepsRows runtime left ∧ NotRemoved left serverId toolName := by
    refine ⟨keeps.step step faithful, ?_⟩
    cases step with
    | checked exec served =>
        rcases exec_check_served keeps.1 exec served with ⟨-, exn, raised⟩ | ⟨-, rows, swept⟩
        · cases raised
        · exact notRemoved_of_swept swept live
  have both : KeepsRows runtime table ∧ NotRemoved table serverId toolName := by
    refine Machine.Run.invariant (fun table =>
      KeepsRows runtime table ∧ NotRemoved table serverId toolName) rest.of_actions start ?_
    intro state operation after ⟨keeps, notRemoved⟩ ⟨⟨step, faithful⟩, member⟩
    refine ⟨keeps.step step faithful, notRemoved.step keeps.1 step ?_⟩
    intro other same
    exact last other (same ▸ member)
  exact both.2

/-- In every run of faithful operations, the columns of every row say what they should about each
other, as any query returns them, and every blocked tool of the list that was last checked can be
approved.
-/
theorem rows_represent_of_run {operations : List Upkeep} (run : KeptRun runtime operations table)
    : (∀ row ∈ table, ∀ read, row.ReadBack read → Represents runtime read)
      ∧ ∀ past serverId tools later toolName,
          operations = past ++ .checked serverId tools :: later
          → (∀ other, .checked serverId other ∉ later)
          → toolName ∈ Dict.keys (liveTools tools)
          → table.blocked serverId toolName
          → ApproveSucceeds runtime table serverId toolName := by
  have keeps := keepsRows_of_run run
  refine ⟨?_, ?_⟩
  · intro row member read readBack
    have found : table.row? row.serverId row.toolName = some row :=
      Keyed.find_of_mem keeps.1 member
    exact ((keeps.2 _ _ row found).readBack readBack).toRepresents
  · intro past serverId tools later toolName same last live blocked
    subst same
    obtain ⟨row, found, flag⟩ := blocked_iff_row.mp blocked
    have kept := keeps.2 _ _ row found
    refine approveSucceeds_of_pending kept found ?_
    intro none
    rcases kept.absent.mp none with unobserved | removed
    · exact kept.blocked flag unobserved
    · exact notRemoved_of_run run last live row found removed

end

/-- A list with a limit, of the given default. -/
def limitTool (default : Json) : Tool :=
  [
    ("name", .str "list_mail"),
    ("inputSchema", .obj [("properties", .obj [("limit", .obj [("default", default)])])])
  ]

/-- The row of the tool with the default 2. -/
def limitRow (approved : String) : ToolBaseline :=
  ToolBaseline.firstSeen "mail" "list_mail" (limitTool (.int 2)) approved false

/-- The row once the default 1 was observed. -/
def limitDrifted (approved live : String) : ToolBaseline :=
  (limitRow approved).drifted (limitTool (.int 1)) live .low

/-- The row once the default `True` was observed: Python takes it for the default 1, so the
observed definition is not written again, but the observed hash is.
-/
def limitMixed (approved live : String) : ToolBaseline :=
  { limitDrifted approved live with observedSchema := some (limitTool (.int 1)) }

/-- Listed alone. -/
theorem live_limitTool (default : Json)
    : liveTools [limitTool default] = [("list_mail", limitTool default)] := by
  simp [liveTools, limitTool, Tool.name, Json.getKey, Json.pyStr, Dict.ofPairs, Dict.update, Dict.set]

theorem limitTool_ne_approved
    : toolHash (limitTool (.int 1)) ≠ toolHash (limitTool (.int 2)) := by
  rw [toolHash_eq_computeHash, toolHash_eq_computeHash]
  exact AuditLog.computeHash_ne (by decide +kernel)

theorem limitTool_true_ne_approved
    : toolHash (limitTool (.bool true)) ≠ toolHash (limitTool (.int 2)) := by
  rw [toolHash_eq_computeHash, toolHash_eq_computeHash]
  exact AuditLog.computeHash_ne (by decide +kernel)

theorem limitTool_true_ne_one
    : toolHash (limitTool (.bool true)) ≠ toolHash (limitTool (.int 1)) := by
  rw [toolHash_eq_computeHash, toolHash_eq_computeHash]
  exact AuditLog.computeHash_ne (by decide +kernel)

theorem limitTool_pyEq : (Json.obj (limitTool (.int 1))).pyEq (.obj (limitTool (.bool true))) = true := by
  decide +kernel

theorem classify_limitTool
    : classify calm.settings (limitTool (.int 2)) (limitTool (.int 1)) = .ok (some .low) :=
  rfl

theorem classify_limitTool_true
    : classify calm.settings (limitTool (.int 2)) (limitTool (.bool true)) = .ok (some .low) :=
  rfl

theorem judge_limitTool_first {approved : String}
    (hashed : toolHash (limitTool (.int 2)) = .ok approved)
    : judge calm "mail" (liveTools [limitTool (.int 2)]) []
      = .ok { rows := [], added := [limitRow approved] } := by
  have clean : scanDescriptions calm (limitTool (.int 2)) = [] := rfl
  simp [live_limitTool, judge, judgeTool, Sweep.row?, judgeSighting, hashed, clean, renameSource, bind,
    Except.bind, pure, Except.pure, limitRow]

/-- A new default is recorded. -/
theorem judge_limitTool {row : ToolBaseline} {default : Json} {live : String}
    (name : row.toolName = "list_mail") (schema : row.approvedSchema = limitTool (.int 2))
    (hashed : toolHash (limitTool default) = .ok live) (differs : live ≠ row.approvedHash)
    (fresh : row.observedHash ≠ some live)
    (classified
      : classify calm.settings (limitTool (.int 2)) (limitTool default) = .ok (some .low))
    : judge calm "mail" (liveTools [limitTool default]) [row]
      = .ok { rows := [row.drifted (limitTool default) live .low] } := by
  have settled : settleTool calm.settings row (limitTool default)
      = .ok (row.drifted (limitTool default) live .low) := by
    simp [settleTool, hashed, differs, fresh, schema, classified, bind,
      Except.bind, pure, Except.pure]
  simp [live_limitTool, judge, judgeTool, Sweep.row?, name, settled, Sweep.setRow, Sweep.putRow,
    ToolBaseline.drifted, judgeRemoved, Dict.keys, bind, Except.bind, pure, Except.pure]

/-- A check of the mail server that stores what it decided. -/
theorem keeps_of_judge {table : BaselineTable} {tools : List Tool} {swept : Sweep}
    (after : BaselineTable) (reads : table.Reads "mail" table)
    (judged : judge calm "mail" (liveTools tools) table = .ok swept)
    (applied : table.applyChanges (swept.changes table) = some after)
    : Keeps calm table (.checked "mail" tools) after := by
  obtain ⟨writes, _, _, exec, served⟩ := exists_exec_check "operator" reads judged applied
  exact .checked exec served

/-- A drift whose definition is written. -/
theorem apply_drifted (row : ToolBaseline) (tool : Tool) (hash : String) (severity : DriftSeverity)
    (stored : (ToolBaseline.changedSchema row.observedSchema (some tool)).getD row.observedSchema
      = some tool)
    : BaselineTable.applyChanges [row] (Sweep.changes [row] { rows := [row.drifted tool hash severity] })
      = some [row.drifted tool hash severity] := by
  have found : Sweep.row? { rows := [row.drifted tool hash severity] } row.toolName
      = some (row.drifted tool hash severity) := by
    simp [Sweep.row?, ToolBaseline.drifted]
  have written : (row.diff (row.drifted tool hash severity)).applyTo row
      = row.drifted tool hash severity := by
    have here : row.key = ((row.diff (row.drifted tool hash severity)).serverId,
        (row.diff (row.drifted tool hash severity)).toolName) := rfl
    rw [BaselineUpdate.applyTo, if_pos here]
    simp only [BaselineUpdate.apply, ToolBaseline.diff, getD_changed, ToolBaseline.drifted, stored,
      changedSchema_self]
    rfl
  simp [Sweep.changes, BaselineTable.applyChanges, BaselineTable.applyChange, found, written]

/-- The equal definition is left out of the update. -/
theorem apply_limitMixed (approved first second : String)
    : BaselineTable.applyChanges [limitDrifted approved first]
        (Sweep.changes [limitDrifted approved first] {
          rows := [(limitDrifted approved first).drifted (limitTool (.bool true)) second .low]
        })
      = some [limitMixed approved second] := by
  by_cases same : first = second
  · simp [same, Sweep.changes, BaselineTable.applyChanges, BaselineTable.applyChange,
      ToolBaseline.key, limitRow, limitDrifted, limitMixed, ToolBaseline.drifted,
      ToolBaseline.firstSeen, Sweep.row?, ToolBaseline.diff, ToolBaseline.changed,
      ToolBaseline.changedSchema, limitTool_pyEq, BaselineUpdate.applyTo, BaselineUpdate.apply]
  · simp [same, Sweep.changes, BaselineTable.applyChanges, BaselineTable.applyChange,
      ToolBaseline.key, limitRow, limitDrifted, limitMixed, ToolBaseline.drifted,
      ToolBaseline.firstSeen, Sweep.row?, ToolBaseline.diff, ToolBaseline.changed,
      ToolBaseline.changedSchema, limitTool_pyEq, BaselineUpdate.applyTo, BaselineUpdate.apply]

/-- A default changes from 2 to 1 and then to `True`, which is 1 for Python. The row then has the
hash of the last definition and the definition before it.
-/
theorem equal_default_mixes_row
    : ∃ table row,
        Machine.Run (Keeps calm) []
          [.checked "mail" [limitTool (.int 2)], .checked "mail" [limitTool (.int 1)],
            .checked "mail" [limitTool (.bool true)]] table
        ∧ row ∈ table
        ∧ row.ReadBack row
        ∧ ¬ Represents calm row := by
  obtain ⟨approved, approvedHash⟩ := exists_toolHash (limitTool (.int 2)) (by decide)
  obtain ⟨one, oneHash⟩ := exists_toolHash (limitTool (.int 1)) (by decide)
  obtain ⟨last, lastHash⟩ := exists_toolHash (limitTool (.bool true)) (by decide)
  have oneNew : one ≠ approved := by
    intro same
    exact limitTool_ne_approved (by rw [oneHash, approvedHash, same])
  have lastNew : last ≠ approved := by
    intro same
    exact limitTool_true_ne_approved (by rw [lastHash, approvedHash, same])
  have lastDiffers : last ≠ one := by
    intro same
    exact limitTool_true_ne_one (by rw [lastHash, oneHash, same])
  have back (default : Json) (plain : Jsonb.normalize default = default)
      : (limitTool default).ReadBack (limitTool default) := by
    have same : Jsonb.normalize (.obj (limitTool default)) = .obj (limitTool default) := by
      simp [limitTool, Jsonb.normalize, Jsonb.normalizeFields, plain]
    rw [Tool.ReadBack, Jsonb.ReadBack, same]
    exact .refl _
  have first := keeps_of_judge [limitRow approved] (reads_self (by simp) (by simp))
    (judge_limitTool_first approvedHash) rfl
  have second := keeps_of_judge [limitDrifted approved one]
    (reads_self (by simp [limitRow, ToolBaseline.firstSeen])
      (by simpa using ⟨back (.int 2) rfl, .none, rfl⟩))
    (judge_limitTool rfl rfl oneHash oneNew
      (by simp [limitRow, ToolBaseline.firstSeen]) classify_limitTool)
    (apply_drifted _ _ _ _ rfl)
  have third := keeps_of_judge [limitMixed approved last]
    (reads_self (by simp [limitDrifted, limitRow, ToolBaseline.drifted, ToolBaseline.firstSeen])
      (by simpa using ⟨back (.int 2) rfl, .some (back (.int 1) rfl), rfl⟩))
    (judge_limitTool rfl rfl lastHash lastNew
      (by simpa [limitDrifted, ToolBaseline.drifted] using Ne.symm lastDiffers)
      classify_limitTool_true)
    (apply_limitMixed approved one last)
  refine ⟨[limitMixed approved last], limitMixed approved last,
    ((Machine.Run.nil.concat first).concat second).concat third, List.mem_cons_self,
    ⟨back (.int 2) rfl, .some (back (.int 1) rfl), rfl⟩, ?_⟩
  intro represents
  obtain ⟨hash, logged, hashed⟩ := represents.observed _ rfl
  cases logged
  exact limitTool_true_ne_one (lastHash.trans hashed.symm)

theorem live_sendTool (description : String)
    : liveTools [sendTool description] = [("send_mail", sendTool description)] := by
  simp [liveTools, sendTool, Tool.name, Json.getKey, Json.pyStr, Dict.ofPairs, Dict.update, Dict.set]

theorem judge_sendTool_first {approved : String}
    (hashed : toolHash (sendTool "Send.") = .ok approved)
    : judge calm "mail" (liveTools [sendTool "Send."]) []
      = .ok { rows := [], added := [sendRow approved] } := by
  have clean : scanDescriptions calm (sendTool "Send.") = [] := rfl
  simp [live_sendTool, judge, judgeTool, Sweep.row?, judgeSighting, hashed, clean, renameSource,
    bind, Except.bind, pure, Except.pure, sendRow]

theorem survives_sendTool (description : String) : Survives (.obj (sendTool description)) where
  distinct := by simp [sendTool, Json.DistinctKeys, Json.DistinctFields, Dict.keys]
  stable := rfl

/-- Nothing is written over when no definition was observed. -/
theorem faithful_sendTool {table : BaselineTable} (description : String)
    (unobserved : ∀ row, table.row? "mail" "send_mail" = some row → row.observedSchema = none)
    : Faithful table (.checked "mail" [sendTool description]) := by
  intro name tool member
  rw [live_sendTool, List.mem_singleton] at member
  cases member
  refine ⟨survives_sendTool description, ?_⟩
  intro row read observed found readBack pending
  have none := readBack.observed_none.mpr (unobserved row found)
  cases none.symm.trans pending

/-- Witness: a tool that was blocked for a new description can be approved. -/
theorem changed_description_approvable
    : ∃ table : BaselineTable,
        table.blocked "mail" "send_mail" ∧ ApproveSucceeds calm table "mail" "send_mail" := by
  obtain ⟨approved, approvedHash⟩ := exists_toolHash (sendTool "Send.") (by decide)
  obtain ⟨live, liveHash⟩ := exists_toolHash (sendTool "Send it.") (by decide)
  let drifted := (sendRow approved).drifted (sendTool "Send it.") live .high
  have first := keeps_of_judge [sendRow approved] (reads_self (by simp) (by simp))
    (judge_sendTool_first approvedHash) rfl
  have second := keeps_of_judge [drifted]
    (reads_self (by simp [sendRow, ToolBaseline.firstSeen]) (by simpa using sendRow_readBack approved))
    (judge_sendTool approvedHash liveHash) (apply_drifted _ _ _ _ rfl)
  have run : KeptRun calm
      [.checked "mail" [sendTool "Send."], .checked "mail" [sendTool "Send it."]] [drifted] := by
    have faithful : Faithful [] (.checked "mail" [sendTool "Send."]) :=
      faithful_sendTool _ (by simp [BaselineTable.row?, Keyed.find])
    refine (Machine.Run.nil.concat ⟨first, faithful⟩).concat ⟨second, ?_⟩
    refine faithful_sendTool _ fun row found => ?_
    have same : sendRow approved = row := Option.some.inj found
    rw [← same]
    rfl
  have blocked : BaselineTable.blocked [drifted] "mail" "send_mail" = true := rfl
  refine ⟨[drifted], blocked, ?_⟩
  exact (rows_represent_of_run run).2 [.checked "mail" [sendTool "Send."]] "mail"
    [sendTool "Send it."] [] "send_mail" rfl (by simp) (by decide) blocked

end DriftDetector

end SecureMcp
