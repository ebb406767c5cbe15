import SecureMcp.Drift.Reapproval
import SecureMcp.Drift.Representation
import SecureMcp.Storage.Fields

/-! Drift that is newer than what an approval promotes. A row says which definition was seen last
and whether it is blocked for it, as long as every transaction commits over the row that it has read;
an approval that has read an older row unblocks the newer definition.
-/

namespace SecureMcp

open Interaction

namespace DriftDetector

/-- What the drift columns of a row say about the definitions in `listed`: an observed hash is the
sentinel, the approved one, or that of a definition for whose severity the row was blocked.
-/
structure Current (settings : Settings) (listed : Tool → Prop) (row : ToolBaseline) : Prop where
  unobserved : row.observedHash = none → row.observedSchema = none
  judged : ∀ hash,
    row.observedHash = some hash
    → hash ≠ ToolBaseline.removedSentinel
    → hash ≠ row.approvedHash
    → ∃ tool approved severity,
        listed tool
        ∧ toolHash tool = .ok hash
        ∧ row.approvedSchema.ReadBack approved
        ∧ classify settings approved tool = .ok severity
        ∧ ((severity.getD .high).blocks → row.blocked)

/-- A row knows a definition as its approved one, with nothing else pending, or as its observed one.
-/
def Knows (row : ToolBaseline) (tool : Tool) : Prop :=
  ∃ hash,
    toolHash tool = .ok hash
    ∧ (hash = row.approvedHash ∧ row.observedSchema = none ∨ row.observedHash = some hash)

section

variable {runtime : Runtime} {settings : Settings} {listed : Tool → Prop} {row read now : ToolBaseline}
  {tool : Tool}

theorem current_of_unobserved (schema : row.observedSchema = none) (hash : row.observedHash = none)
    : Current settings listed row where
  unobserved _ := schema
  judged := by simp [hash]

/-- A check leaves a row current, and knows in it what it has seen. -/
theorem Current.settle (current : Current settings listed row) (readBack : row.ReadBack read)
    (seen : listed tool) (settled : settleTool settings read tool = .ok now)
    : Current settings listed ((read.diff now).apply row)
      ∧ Knows ((read.diff now).apply row) tool := by
  have observedHash : row.observedHash = read.observedHash := by rw [readBack.rest]
  have approvedHash : row.approvedHash = read.approvedHash := by rw [readBack.rest]
  have blocked : row.blocked = read.blocked := by rw [readBack.rest]
  obtain ⟨liveHash, hashed, ⟨approved, rfl⟩ | ⟨_, logged, rfl⟩ | ⟨severity, _, _, found, rfl⟩⟩ :=
    settleTool_cases settled
  · rw [apply_diff readBack (settled_settleTool settled)]
    rw [← approvedHash] at approved
    cases observed : read.observedHash with
    | none =>
        have schema := current.unobserved (observedHash.trans observed)
        simp only [Option.isSome_none, Bool.false_eq_true, if_false, changedSchema_self,
          Option.getD_none]
        exact ⟨current_of_unobserved schema observed, liveHash, hashed, Or.inl ⟨approved, schema⟩⟩
    | some hash =>
        have schema := cleared_of_readBack readBack
        simp only [Option.isSome_some, if_true]
        exact ⟨current_of_unobserved schema rfl, liveHash, hashed, Or.inl ⟨approved, schema⟩⟩
  · rw [apply_diff_self]
    exact ⟨current, liveHash, hashed, Or.inr (observedHash.trans logged)⟩
  · rw [apply_diff readBack (settled_settleTool settled)]
    refine ⟨⟨by simp [ToolBaseline.drifted], ?_⟩, liveHash, hashed, Or.inr rfl⟩
    intro hash same _ _
    cases same
    refine ⟨tool, read.approvedSchema, severity, seen, hashed, readBack.approvedSchema, found, ?_⟩
    intro blocks
    simp [ToolBaseline.drifted, blocks]

/-- A check leaves the row of a tool that it has not seen current. -/
theorem Current.gone (current : Current settings listed row) (readBack : row.ReadBack read)
    (removed : now = read ∨ now = settleRemoved read)
    : Current settings listed ((read.diff now).apply row) := by
  have kept := apply_diff_self row read
  rcases removed with rfl | rfl
  · exact kept.symm ▸ current
  · cases sentinel : decide (read.observedHash = some ToolBaseline.removedSentinel) with
    | true =>
        rw [settleRemoved, if_pos (of_decide_eq_true sentinel)]
        exact kept.symm ▸ current
    | false =>
        rw [apply_diff readBack (settled_settleRemoved read), settleRemoved,
          if_neg (of_decide_eq_false sentinel)]
        refine ⟨fun _ => cleared_of_readBack readBack, ?_⟩
        intro hash same other
        exact absurd (Option.some.inj same).symm other

/-- The row of a first sighting is current, and knows what was sighted. -/
theorem Sighted.current {serverId name : String} {live : List (String × Tool)}
    {rows : List ToolBaseline} (sighted : Sighted runtime serverId live rows name tool row)
    : Current settings listed row ∧ Knows row tool := by
  obtain ⟨liveHash, source, hashed, _, rfl⟩ := sighted
  cases source with
  | none => exact ⟨current_of_unobserved rfl rfl, liveHash, hashed, Or.inl ⟨rfl, rfl⟩⟩
  | some _ =>
      refine ⟨⟨by simp [ToolBaseline.renamed], ?_⟩, liveHash, hashed, Or.inr rfl⟩
      intro hash same _ approved
      exact absurd (Option.some.inj same).symm approved

theorem toolHash_ne_empty {hash : String} (hashed : toolHash tool = .ok hash) : hash ≠ "" := by
  rintro rfl
  have length := CanonicalJson.length_of_hash hashed
  cases length

/-- An approval that promotes what its row has observed leaves the row current, and what was known in
it is known.
-/
theorem Knows.promoted {observed : Tool} {newHash : String} {suspicious : Bool}
    (knows : Knows row tool) (readBack : row.ReadBack read)
    (pending : read.observedSchema = some observed)
    (promoted : promotedHash read observed = .ok newHash)
    : Knows ((read.diff (read.promoted observed newHash suspicious)).apply row) tool := by
  obtain ⟨hash, hashed, ⟨_, none⟩ | logged⟩ := knows
  · rw [← readBack.observed_none, pending] at none
    cases none
  · have observedHash : read.observedHash = some hash := by
      rw [readBack.rest]
      exact logged
    unfold promotedHash at promoted
    rw [observedHash] at promoted
    dsimp only at promoted
    rw [if_neg (toolHash_ne_empty hashed)] at promoted
    cases promoted
    rw [apply_promoted readBack]
    exact ⟨newHash, hashed, Or.inl ⟨rfl, rfl⟩⟩

/-- A known definition that differs from the approved one by a severity that blocks has its row
blocked, if definitions of one hash are judged alike.
-/
theorem Current.blocked (current : Current settings listed row) (readBack : row.ReadBack read)
    (knows : Knows row tool) (drifted : SeverelyDrifted settings read tool)
    (alike : ∀ same approved hash severity another,
      listed same
      → row.approvedSchema.ReadBack approved
      → toolHash tool = .ok hash
      → toolHash same = .ok hash
      → classify settings read.approvedSchema tool = .ok severity
      → classify settings approved same = .ok another
      → (severity.getD .high).blocks = (another.getD .high).blocks)
    : row.blocked := by
  obtain ⟨liveHash, severity, hashed, differs, found, blocks⟩ := drifted
  have approvedHash : read.approvedHash = row.approvedHash := by rw [readBack.rest]
  rw [approvedHash] at differs
  obtain ⟨hash, again, known⟩ := knows
  cases hashed.symm.trans again
  rcases known with ⟨approved, _⟩ | logged
  · exact absurd approved differs
  · obtain ⟨same, approved, another, seen, hashedSame, back, judged, blocked⟩ :=
      current.judged liveHash logged (ne_removedSentinel hashed) differs
    exact blocked (alike same approved liveHash severity another seen back hashed hashedSame found
      judged ▸ blocks)

end

/-- A list has one definition of a name. -/
theorem eq_of_mem_liveTools {tools : List Tool} {name : String} {tool other : Tool}
    (member : (name, tool) ∈ liveTools tools) (again : (name, other) ∈ liveTools tools)
    : other = tool := by
  have distinct : (Dict.keys (liveTools tools)).Nodup := Dict.nodup_ofPairs _
  have found := Dict.lookup_of_mem distinct member
  rw [Dict.lookup_of_mem distinct again] at found
  exact Option.some.inj found

end DriftDetector

-----------------------------------------------------------------------------------------
-- Runs
-----------------------------------------------------------------------------------------

namespace DriftRun

open DriftDetector

variable {ι : Type} {run : DriftRun ι} {past rest before between : List (Stamped ι Reply)}
  {step reading : Stamped ι Reply} {table after : BaselineTable} {serverId toolName : String}
  {tools : List Tool}

/-- The last check of a longer run is its last step, or the last one of the run before. -/
theorem LastCheck.concat (last : run.LastCheck serverId (past ++ [step]) tools)
    : run.ChecksIn serverId step tools
      ∨ run.LastCheck serverId past tools ∧ ∀ others, ¬ run.ChecksIn serverId step others := by
  obtain ⟨first, here, later, split, checks, none⟩ := last
  rcases List.eq_nil_or_concat' later with rfl | ⟨middle, newest, rfl⟩
  · obtain ⟨_, same⟩ := List.append_inj' split rfl
    cases same
    exact Or.inl checks
  · rw [← List.cons_append, ← List.append_assoc] at split
    obtain ⟨rfl, same⟩ := List.append_inj' split rfl
    cases same
    refine Or.inr ⟨⟨first, here, middle, rfl, checks, ?_⟩, none _ (by simp)⟩
    intro other member
    exact none other (by simp [member])

/-- A check has seen one list. -/
theorem ChecksIn.same {others : List Tool} (checks : run.ChecksIn serverId step tools)
    (again : run.ChecksIn serverId step others)
    : others = tools := by
  obtain ⟨_, identityId, request⟩ := checks
  obtain ⟨_, _, other⟩ := again
  cases request.symm.trans other
  rfl

/-- The table is changed by commits only. -/
theorem kept_of_not_commits (quiet : ¬ Commits step) (served : table.Serves step.event after)
    : after = table := by
  unfold BaselineTable.Serves at served
  split at served
  · exact served.1
  · exact served.1
  · exact served.1
  · next changes _ same => exact absurd ⟨changes, same⟩ quiet
  · exact served

/-- What a step of a run was answered from. -/
theorem Leaves.at (leaves : Leaves (before ++ reading :: between) table)
    : ∃ earlier after, Leaves before earlier ∧ BaselineTable.Serves earlier reading.event after := by
  obtain ⟨earlier, first, later⟩ := leaves.split
  obtain ⟨after, served, _⟩ := later.head
  exact ⟨earlier, after, first, served⟩

/-- (run.UpToDate … past row) means that the row of a tool is current after some steps, and knows
what the last check has seen.
-/
structure UpToDate (runtime : Runtime) (run : DriftRun ι) (serverId toolName : String)
    (past : List (Stamped ι Reply)) (row : ToolBaseline)
    : Prop where
  current : Current runtime.settings (run.Lists serverId toolName) row
  knows : ∀ tools tool,
    run.LastCheck serverId past tools → (toolName, tool) ∈ liveTools tools → Knows row tool

section

variable {runtime : Runtime} {row read : ToolBaseline} {tool : Tool}

/-- A step that is no check of the server, and keeps the row. -/
theorem UpToDate.other (upToDate : run.UpToDate runtime serverId toolName past row)
    (other : ∀ tools, ¬ run.ChecksIn serverId step tools)
    : run.UpToDate runtime serverId toolName (past ++ [step]) row where
  current := upToDate.current
  knows tools tool last member := by
    rcases last.concat with checks | ⟨earlier, _⟩
    · exact absurd checks (other tools)
    · exact upToDate.knows tools tool earlier member

/-- A check that commits, and leaves the row current. -/
theorem upToDate_of_checksIn (checks : run.ChecksIn serverId step tools)
    (current : Current runtime.settings (run.Lists serverId toolName) row)
    (knows : ∀ tool, (toolName, tool) ∈ liveTools tools → Knows row tool)
    : run.UpToDate runtime serverId toolName (past ++ [step]) row where
  current := current
  knows others tool last member := by
    rcases last.concat with again | ⟨_, other⟩
    · cases checks.same again
      exact knows tool member
    · exact absurd checks (other tools)

/-- A check of the server stores what it decided about the tool over an up-to-date row. -/
theorem upToDate_of_sweptTool {rows : List ToolBaseline} {old : Option ToolBaseline}
    (checks : run.ChecksIn serverId step tools)
    (swept : SweptTool runtime serverId tools rows toolName old (some row))
    (upToDate : ∀ row, old = some row → run.UpToDate runtime serverId toolName past row)
    : run.UpToDate runtime serverId toolName (past ++ [step]) row := by
  by_cases live : toolName ∈ Dict.keys (liveTools tools)
  · obtain ⟨⟨name, tool⟩, there, called⟩ := List.mem_map.mp live
    have member : (toolName, tool) ∈ liveTools tools := by
      cases called
      exact there
    have listed : run.Lists serverId toolName tool := by
      obtain ⟨_, identityId, request⟩ := checks
      exact ⟨step.thread, tools, identityId, request, member⟩
    have both : Current runtime.settings (run.Lists serverId toolName) row ∧ Knows row tool := by
      cases old with
      | none =>
          obtain ⟨fresh, sighted, same⟩ := swept.sighted tool member rfl
          cases same
          exact sighted.current
      | some old =>
          obtain ⟨read, now, readBack, _, settled, same⟩ := swept.live tool old member rfl
          cases same
          exact (upToDate old rfl).current.settle readBack listed settled
    refine upToDate_of_checksIn checks both.1 (fun other again => ?_)
    exact eq_of_mem_liveTools member again ▸ both.2
  · have current : Current runtime.settings (run.Lists serverId toolName) row := by
      cases old with
      | none => cases swept.unseen live rfl
      | some old =>
          obtain ⟨read, now, readBack, removed, same⟩ := swept.gone old live rfl
          cases same
          exact (upToDate old rfl).current.gone readBack removed
    refine upToDate_of_checksIn checks current (fun tool member => ?_)
    exact absurd (List.mem_map.mpr ⟨_, member, rfl⟩) live

/-- An approval promotes an up-to-date row. -/
theorem UpToDate.promoted {observed : Tool} {newHash : String} {suspicious : Bool}
    (upToDate : run.UpToDate runtime serverId toolName past row) (readBack : row.ReadBack read)
    (pending : read.observedSchema = some observed)
    (hashed : promotedHash read observed = .ok newHash)
    (other : ∀ tools, ¬ run.ChecksIn serverId step tools)
    : run.UpToDate runtime serverId toolName (past ++ [step])
        ((read.diff (read.promoted observed newHash suspicious)).apply row) where
  current := by
    rw [apply_promoted readBack]
    exact current_of_unobserved rfl rfl
  knows tools tool last member := by
    rcases last.concat with checks | ⟨earlier, _⟩
    · exact absurd checks (other tools)
    · exact (upToDate.knows tools tool earlier member).promoted readBack pending hashed

variable [DecidableEq ι]

/-- A step that commits, over a row that is still the one that was read. -/
theorem upToDate_of_commit (proper : run.Proper runtime)
    (undisturbed : run.Undisturbed serverId toolName) (whole : run.trace = past ++ step :: rest)
    (leaves : Leaves past table) {changes : List BaselineChange}
    (commits : step.event = ⟨.commit changes, .ok ()⟩)
    (applied : table.applyChanges changes = some after)
    (upToDate : ∀ row, table.row? serverId toolName = some row
      → run.UpToDate runtime serverId toolName past row)
    (found : after.row? serverId toolName = some row)
    : run.UpToDate runtime serverId toolName (past ++ [step]) row := by
  cases request : run.request step.thread with
  | check server tools identityId =>
      obtain ⟨before, reading, between, rows, swept, rfl, sameThread, reads, rfl, judged⟩ :=
        proper.check_of_commit whole commits request
      obtain ⟨earlier, _, first, served⟩ := leaves.at
      rw [reads] at served
      have added : ∀ row ∈ swept.added, row.serverId = server := by
        intro row member
        obtain ⟨_, tool, _, sighted⟩ :=
          (verdict_of_judge (Dict.nodup_ofPairs _) judged).added row member
        exact sighted.serverId
      by_cases here : server = serverId
      · subst here
        have undisturbed := undisturbed before reading between step rest earlier table whole
          sameThread (Or.inl (reads ▸ rfl)) ⟨_, commits⟩ first leaves
        have swept := sweptTool_of_commit first.distinct served.2 judged applied undisturbed
        rw [found] at swept
        exact upToDate_of_sweptTool ⟨⟨_, commits⟩, identityId, request⟩ swept upToDate
      · have kept := row?_changes (served.2.distinct first.distinct) served.2.server added applied
          serverId toolName
        rw [if_neg (Ne.symm here), found] at kept
        refine (upToDate row kept.symm).other ?_
        rintro others ⟨_, _, other⟩
        cases request.symm.trans other
        exact here rfl
  | approve server name approvedBy =>
      obtain ⟨before, reading, between, read, observed, newHash, suspicious, rfl, sameThread, reads,
        pending, hashed, rfl⟩ := proper.approve_of_commit whole commits request
      obtain ⟨earlier, _, first, served⟩ := leaves.at
      rw [reads] at served
      have unchecked : ∀ others, ¬ run.ChecksIn serverId step others := by
        rintro others ⟨_, _, other⟩
        cases request.symm.trans other
      obtain ⟨target, present, readBack⟩ : ∃ target,
          earlier.row? server name = some target ∧ target.ReadBack read := by
        have related := served.2
        cases present : earlier.row? server name with
        | none =>
            rw [present] at related
            cases related
        | some target =>
            rw [present] at related
            cases related with
            | some readBack => exact ⟨target, rfl, readBack⟩
      have targetKey : target.key = (server, name) := Keyed.find_key present
      cases applied
      rw [BaselineTable.row?_applyTo] at found
      obtain ⟨old, there, rfl⟩ := Option.map_eq_some_iff.mp found
      have oldKey : old.key = (serverId, toolName) := Keyed.find_key there
      have readKey : (read.serverId, read.toolName) = (server, name) := by
        rw [readBack.serverId, readBack.toolName]
        exact targetKey
      by_cases here : (server, name) = (serverId, toolName)
      · cases here
        have undisturbed := undisturbed before reading between step rest earlier table whole
          sameThread (Or.inr (reads ▸ rfl)) ⟨_, commits⟩ first leaves
        rw [there, present] at undisturbed
        rw [← Option.some.inj undisturbed] at readBack
        have own : (read.diff (read.promoted observed newHash suspicious)).applyTo old
            = (read.diff (read.promoted observed newHash suspicious)).apply old :=
          if_pos (oldKey.trans readKey.symm)
        rw [own]
        exact (upToDate old there).promoted readBack pending hashed unchecked
      · have kept : (read.diff (read.promoted observed newHash suspicious)).applyTo old = old :=
          if_neg (fun same => here ((oldKey.symm.trans same).trans readKey).symm)
        rw [kept]
        exact (upToDate old there).other unchecked

/-- In every state of an undisturbed run the row of the tool is up to date, by induction on the run
from its end.
-/
theorem upToDate_of_undisturbed (proper : run.Proper runtime)
    (undisturbed : run.Undisturbed serverId toolName) (whole : run.trace = past ++ rest)
    (leaves : Leaves past table) (found : table.row? serverId toolName = some row)
    : run.UpToDate runtime serverId toolName past row := by
  induction past using List.reverseRecOn generalizing rest table row with
  | nil =>
      cases leaves.empty
      cases found
  | append_singleton past step ih =>
      obtain ⟨earlier, before, last⟩ := leaves.split
      have split : run.trace = past ++ step :: rest := by
        rw [whole, List.append_assoc, List.singleton_append]
      have upToDate := fun row there => @ih (step :: rest) earlier row split before there
      by_cases commits : Commits step
      · obtain ⟨changes, commits⟩ := commits
        have served := last.single
        rw [commits] at served
        exact upToDate_of_commit proper undisturbed split before commits served upToDate found
      · rw [kept_of_not_commits commits last.single] at found
        exact (upToDate row found).other (fun _ checks => commits checks.1)

/-- A re-approval does not erase newer drift in a run without lost updates. -/
theorem newerDriftBlocks_of_undisturbed (run : DriftRun ι) (proper : run.Proper runtime)
    (undisturbed : run.Undisturbed serverId toolName)
    (alike : run.JudgedAlike runtime serverId toolName)
    : run.NewerDriftBlocks runtime serverId toolName := by
  intro past rest table tools tool row read whole leaves last member found readBack drifted
  have upToDate := upToDate_of_undisturbed proper undisturbed whole leaves found
  have listed : run.Lists serverId toolName tool := by
    obtain ⟨_, step, _, _, ⟨_, identityId, request⟩, _⟩ := last
    exact ⟨step.thread, tools, identityId, request, member⟩
  refine upToDate.current.blocked readBack (upToDate.knows tools tool last member) drifted ?_
  intro same approved hash severity another again back hashed hashedSame found' judged
  exact alike past rest table row read.approvedSchema approved tool same hash severity another whole
    leaves found readBack.approvedSchema back listed again hashed hashedSame found' judged

end

-----------------------------------------------------------------------------------------
-- Serial runs
-----------------------------------------------------------------------------------------

/-- Steps that commit nothing keep the table. -/
theorem Leaves.kept {middle : List (Stamped ι Reply)}
    (run : Machine.Run (fun table step after => BaselineTable.Serves table step.event after) table
      middle after)
    (quiet : ∀ step ∈ middle, ¬ Commits step)
    : after = table := by
  refine run.of_actions.invariant (fun later => later = table) rfl ?_
  intro later step next same ⟨served, member⟩
  exact (kept_of_not_commits (quiet step member) served).trans same

/-- A table is determined by the steps that lead to it. -/
theorem Leaves.unique {final : BaselineTable} (leaves : Leaves past table) (again : Leaves past final)
    : final = table := by
  induction past using List.reverseRecOn generalizing table final with
  | nil => rw [leaves.empty, again.empty]
  | append_singleton past step ih =>
      obtain ⟨middle, first, last⟩ := leaves.split
      obtain ⟨other, first', last'⟩ := again.split
      cases ih first first'
      by_cases commits : Commits step
      · obtain ⟨changes, commits⟩ := commits
        have served := last.single
        have served' := last'.single
        rw [commits] at served served'
        exact Option.some.inj (served'.symm.trans served)
      · rw [kept_of_not_commits commits last.single, kept_of_not_commits commits last'.single]

/-- A run is undisturbed when its transactions run one after the other, and each commits last. -/
theorem undisturbed_of_serial (rank : ι → Nat)
    (inTurn : run.trace.Pairwise (fun step later =>
      rank step.thread ≤ rank later.thread
      ∧ (Commits step → rank step.thread < rank later.thread)))
    : run.Undisturbed serverId toolName := by
  intro before reading between step rest earlier now whole sameThread _ _ first leaves
  obtain ⟨middle, early, later⟩ := leaves.split
  cases first.unique early
  refine congrArg (fun table => BaselineTable.row? table serverId toolName) (Leaves.kept later ?_)
  intro other member commits
  rw [whole, List.append_assoc, List.cons_append] at inTurn
  have inBlock := (List.pairwise_append.mp inTurn).2.1
  have notAfter : rank reading.thread ≤ rank other.thread := by
    rcases List.mem_cons.mp member with rfl | inside
    · exact Nat.le_refl _
    · exact ((List.pairwise_cons.mp inBlock).1 other (by simp [inside])).1
  rw [← List.cons_append] at inBlock
  have before := ((List.pairwise_append.mp inBlock).2.2 other member step List.mem_cons_self).2 commits
  rw [sameThread] at notAfter
  exact Nat.lt_irrefl _ (Nat.lt_of_lt_of_le before notAfter)

-----------------------------------------------------------------------------------------
-- Two orders of an approval and a check
-----------------------------------------------------------------------------------------

/-- The columns that a transaction writes hold definitions of a kind. -/
theorem approved_of_changes {holds : Tool → Prop} {changes : List BaselineChange}
    (rows : ∀ row ∈ table, holds row.approvedSchema)
    (written : ∀ change ∈ changes, ∀ tool ∈ change.schemas, holds tool)
    (applied : table.applyChanges changes = some after)
    : ∀ row ∈ after, holds row.approvedSchema := by
  induction changes generalizing table with
  | nil =>
      cases applied
      exact rows
  | cons change rest ih =>
      obtain ⟨middle, first, later⟩ := Option.bind_eq_some_iff.mp applied
      refine ih ?_ (fun change member => written change (List.mem_cons_of_mem _ member)) later
      have here := written change List.mem_cons_self
      intro row member
      cases change with
      | update columns =>
          cases first
          obtain ⟨old, there, rfl⟩ := List.mem_map.mp member
          unfold BaselineUpdate.applyTo
          split
          · unfold BaselineUpdate.apply
            cases schema : columns.approvedSchema with
            | none => exact rows old there
            | some tool => exact here tool (by simp [BaselineChange.schemas, schema])
          · exact rows old there
      | insert fresh =>
          simp only [BaselineTable.applyChange] at first
          split at first
          · cases first
          · cases first
            rcases List.mem_append.mp member with old | new
            · exact rows row old
            · rw [List.mem_singleton.mp new]
              exact here fresh.approvedSchema (by simp [BaselineChange.schemas])

/-- Every change between tools without an input schema blocks. -/
theorem blocks_of_sendTool {approved : Tool} {severity : Option DriftSeverity} {old new : String}
    (back : (sendTool old).ReadBack approved)
    (judged : classify calm.settings approved (sendTool new) = .ok severity)
    : (severity.getD .high).blocks := by
  obtain ⟨_, same, each⟩ := Jsonb.ReadBack.fields back (by simp [sendTool, Dict.keys])
  cases same
  have schema : Json.getKey approved "inputSchema" = .null := (each "inputSchema").null
  have none : propertiesOf (Json.orEmpty .null) = .ok [] := rfl
  have free : requiredNames (Json.orEmpty .null) = .ok [] := rfl
  have other : Json.getKey (sendTool new) "inputSchema" = .null := rfl
  unfold classify at judged
  obtain ⟨severities, named, judged⟩ := Loop.bind_eq_ok.mp judged
  simp only [tableSeverities, schema, other, none, free, bind, Except.bind, pure, Except.pure,
    sharedSeverities, List.foldrM_nil, Dict.keys, List.map_nil, List.filter_nil, List.any_nil,
    Bool.false_eq_true, if_false, List.append_nil, Except.ok.injEq] at named
  have high : DriftSeverity.high.blocks := rfl
  by_cases described : (Json.getKey approved "description").pyEq
      (Json.getKey (sendTool new) "description")
  · rw [if_neg (by simp [described])] at named
    cases named
    obtain ⟨_, _, judged⟩ := Loop.bind_eq_ok.mp judged
    obtain ⟨_, _, judged⟩ := Loop.bind_eq_ok.mp judged
    split at judged <;> cases judged <;> exact high
  · rw [if_pos (by simp [described])] at named
    cases named
    cases judged
    exact high

/-- The hashes of the three descriptions that are listed in turn. -/
structure Listed (approved live last : String) : Prop where
  approved : toolHash (sendTool "Send.") = .ok approved
  live : toolHash (sendTool "Send it.") = .ok live
  last : toolHash (sendTool "Send them.") = .ok last

section

variable {approved live last : String}

theorem exists_listed : ∃ approved live last, Listed approved live last := by
  obtain ⟨approved, approvedHash⟩ := exists_toolHash (sendTool "Send.") (by decide)
  obtain ⟨live, liveHash⟩ := exists_toolHash (sendTool "Send it.") (by decide)
  obtain ⟨last, lastHash⟩ := exists_toolHash (sendTool "Send them.") (by decide)
  exact ⟨approved, live, last, approvedHash, liveHash, lastHash⟩

theorem Listed.live_ne (listed : Listed approved live last) : live ≠ approved := by
  rintro rfl
  exact sendTool_hash_ne (listed.approved.trans listed.live.symm)

theorem Listed.last_ne_live (listed : Listed approved live last) : last ≠ live := by
  have differ : toolHash (sendTool "Send them.") ≠ toolHash (sendTool "Send it.") := by
    rw [toolHash_eq_computeHash, toolHash_eq_computeHash]
    exact AuditLog.computeHash_ne (by decide +kernel)
  rintro rfl
  exact differ (listed.last.trans listed.live.symm)

theorem Listed.last_ne (listed : Listed approved live last) : last ≠ approved := by
  have differ : toolHash (sendTool "Send them.") ≠ toolHash (sendTool "Send.") := by
    rw [toolHash_eq_computeHash, toolHash_eq_computeHash]
    exact AuditLog.computeHash_ne (by decide +kernel)
  rintro rfl
  exact differ (listed.last.trans listed.approved.symm)

/-- The row once the second description was seen. -/
def seenRow (approved live : String) : ToolBaseline :=
  (sendRow approved).drifted (sendTool "Send it.") live .high

/-- The row once the third description was seen as well. -/
def seenAgain (approved live last : String) : ToolBaseline :=
  (seenRow approved live).drifted (sendTool "Send them.") last .high

/-- The row once the second description was approved. -/
def approvedRow (live : String) : ToolBaseline :=
  ToolBaseline.firstSeen "mail" "send_mail" (sendTool "Send it.") live false

/-- The approved row once the third description was seen. -/
def seenLater (live last : String) : ToolBaseline :=
  (approvedRow live).drifted (sendTool "Send them.") last .high

/-- What the approval of the second description commits. -/
def approval (approved live : String) : List BaselineChange :=
  [.update ((seenRow approved live).diff
    ((seenRow approved live).promoted (sendTool "Send it.") live false))]

/-- The approval is stored in the row that it has read, and in any row that was changed by checks
since then.
-/
theorem apply_approval (schema : Option Tool) (hash : Option String)
    : BaselineTable.applyChanges
        [{ seenRow approved live with observedSchema := schema, observedHash := hash }]
        (approval approved live)
      = some [approvedRow live] := by
  have told : ToolBaseline.changedSchema (some (sendTool "Send.")) (some (sendTool "Send it."))
      = some (some (sendTool "Send it.")) := rfl
  have cleared : ToolBaseline.changedSchema (some (sendTool "Send it.")) none = some none := rfl
  have hash : (ToolBaseline.changed approved live).getD approved = live := getD_changed _ _
  simp [approval, BaselineTable.applyChanges, BaselineTable.applyChange, BaselineUpdate.applyTo,
    ToolBaseline.key, seenRow, sendRow, approvedRow, ToolBaseline.firstSeen, ToolBaseline.drifted,
    ToolBaseline.promoted, ToolBaseline.diff, BaselineUpdate.apply, told, cleared, hash]
  exact ⟨rfl, rfl, rfl⟩

end

/-- (Block request table events after) means that the events are those of a whole transaction. -/
structure Block (request : DriftRequest) (table : BaselineTable) (events : List (Event Reply))
    (after : BaselineTable)
    : Prop where
  exec : (request.program calm).Exec events ()
  served : Program.Served BaselineTable.Serves table events after
  commits : ∃ first changes,
    events = first ++ [⟨.commit changes, .ok ()⟩]
    ∧ (∀ event ∈ first, ¬ IsCommit event.call)
    ∧ ∀ change ∈ changes, ∀ tool ∈ change.schemas, ∃ text, tool = sendTool text

/-- A check whose decision is stored. -/
theorem block_of_judge {tools : List Tool} {swept : Sweep} (reads : table.Reads "mail" table)
    (judged : judge calm "mail" (liveTools tools) table = .ok swept)
    (applied : table.applyChanges (swept.changes table) = some after)
    (plain : ∀ change ∈ swept.changes table, ∀ tool ∈ change.schemas, ∃ text, tool = sendTool text)
    : ∃ events, Block (.check "mail" tools "operator") table events after := by
  obtain ⟨writes, reports, _, exec, served⟩ := exists_exec_check "operator" reads judged applied
  refine ⟨_, ?_, served, ⟨.selectBaselines "mail", .ok table⟩ :: writes, _, rfl, ?_, plain⟩
  · exact Program.exec_bind_iff.mpr ⟨_, [], _, (List.append_nil _).symm, exec, .done ()⟩
  · intro event member
    rcases List.mem_cons.mp member with rfl | later
    · exact not_false
    · exact not_isCommit_of_report (reports event later)

/-- A check that records a drift. -/
theorem block_of_drift {row : ToolBaseline} {text live : String}
    (reads : BaselineTable.Reads [row] "mail" [row]) (name : row.toolName = "send_mail")
    (hashed : toolHash (sendTool text) = .ok live) (differs : live ≠ row.approvedHash)
    (fresh : row.observedHash ≠ some live)
    (found : classify calm.settings row.approvedSchema (sendTool text) = .ok (some .high))
    (stored : (ToolBaseline.changedSchema row.observedSchema (some (sendTool text))).getD
      row.observedSchema = some (sendTool text))
    : ∃ events, Block (.check "mail" [sendTool text] "operator") [row] events
        [row.drifted (sendTool text) live .high] := by
  have settled : settleTool calm.settings row (sendTool text)
      = .ok (row.drifted (sendTool text) live .high) := by
    simp [settleTool, hashed, differs, fresh, found, bind, Except.bind, pure, Except.pure]
  have judged : judge calm "mail" (liveTools [sendTool text]) [row]
      = .ok { rows := [row.drifted (sendTool text) live .high] } := by
    simp [live_sendTool, judge, judgeTool, Sweep.row?, name, settled, Sweep.setRow, Sweep.putRow,
      ToolBaseline.drifted, judgeRemoved, Dict.keys, bind, Except.bind, pure, Except.pure]
  refine block_of_judge reads judged (apply_drifted row _ live .high stored) ?_
  intro change member tool written
  have same : change = .update (row.diff (row.drifted (sendTool text) live .high)) := by
    simpa [Sweep.changes, Sweep.row?, ToolBaseline.drifted] using member
  rw [same, schemas_diff (settled_settleTool settled)] at written
  refine ⟨text, ?_⟩
  have among := join_changedSchema_some row.observedSchema (sendTool text)
  change tool ∈ (ToolBaseline.changedSchema row.observedSchema (some (sendTool text))).join.toList
    at written
  rw [among] at written
  split at written
  · exact List.mem_singleton.mp written
  · cases written

section

variable {approved live last : String}

theorem block_anchor (listed : Listed approved live last)
    : ∃ events, Block (.check "mail" [sendTool "Send."] "operator") [] events [sendRow approved] := by
  refine block_of_judge (reads_self (by simp) (by simp)) (judge_sendTool_first listed.approved) rfl ?_
  intro change member tool written
  have same : change = .insert (sendRow approved) := by
    simpa [Sweep.changes] using member
  subst same
  exact ⟨"Send.", List.mem_singleton.mp written⟩

theorem block_drift (listed : Listed approved live last)
    : ∃ events, Block (.check "mail" [sendTool "Send it."] "operator") [sendRow approved] events
        [seenRow approved live] :=
  block_of_drift (reads_self (by simp [sendRow, ToolBaseline.firstSeen])
    (by simpa using sendRow_readBack approved)) rfl listed.live listed.live_ne (by simp [sendRow,
      ToolBaseline.firstSeen]) classify_sendTool rfl

/-- The third description, seen while the second one is pending. -/
theorem block_change (listed : Listed approved live last)
    : ∃ events, Block (.check "mail" [sendTool "Send them."] "operator") [seenRow approved live] events
        [seenAgain approved live last] := by
  have stable : (seenRow approved live).ReadBack (seenRow approved live) :=
    ⟨.refl _, .some (.refl _), rfl⟩
  refine block_of_drift (reads_self (by simp [seenRow, sendRow, ToolBaseline.drifted,
    ToolBaseline.firstSeen]) (by simpa using stable)) rfl listed.last listed.last_ne ?_ rfl rfl
  intro same
  exact listed.last_ne_live (Option.some.inj same).symm

/-- The third description, seen after the second one was approved. -/
theorem block_later (listed : Listed approved live last)
    : ∃ events, Block (.check "mail" [sendTool "Send them."] "operator") [approvedRow live] events
        [seenLater live last] := by
  have stable : (approvedRow live).ReadBack (approvedRow live) := ⟨.refl _, .none, rfl⟩
  exact block_of_drift (reads_self (by simp [approvedRow, ToolBaseline.firstSeen])
    (by simpa using stable)) rfl listed.last listed.last_ne_live (by simp [approvedRow,
      ToolBaseline.firstSeen]) rfl rfl

/-- The approval asks for the row. -/
def asking (approved live : String) : Event Reply :=
  ⟨.selectBaseline "mail" "send_mail", .ok (some (seenRow approved live))⟩

/-- The approval is recorded and committed. -/
def approving (approved live : String) : List (Event Reply) :=
  [
    ⟨.write (approvedEntry ⟨"admin", "mail", "send_mail"⟩ approved live), .ok 3⟩,
    ⟨.commit (approval approved live), .ok ()⟩
  ]

theorem exec_approval (listed : Listed approved live last)
    : ((DriftRequest.approve "mail" "send_mail" "admin").program calm).Exec
        (asking approved live :: approving approved live) () := by
  have promoted : promotedHash (seenRow approved live) (sendTool "Send it.") = .ok live :=
    if_neg (toolHash_ne_empty listed.live)
  have clean : scanDescriptions calm (sendTool "Send it.") = [] := rfl
  refine Program.exec_bind_iff.mpr ⟨_, [], .ok 3, (List.append_nil _).symm, ?_, .done ()⟩
  refine Coroutine.exec_bind_ok_iff.mpr ⟨[_], _, some (seenRow approved live), rfl, ?_, ?_⟩
  · exact Coroutine.exec_demand_iff.mpr ⟨_, rfl, rfl⟩
  have observed : (seenRow approved live).observedSchema = some (sendTool "Send it.") := rfl
  simp only [observed, promoted, clean, Coroutine.ofExcept_ok_bind]
  refine Coroutine.exec_bind_ok_iff.mpr ⟨[], _, (), rfl, .done _, ?_⟩
  refine Coroutine.exec_bind_ok_iff.mpr ⟨[_], _, 3, rfl, ?_, ?_⟩
  · exact Coroutine.exec_demand_iff.mpr ⟨.ok 3, rfl, rfl⟩
  refine Coroutine.exec_bind_ok_iff.mpr ⟨[_], [], (), rfl, ?_, .done _⟩
  exact Coroutine.exec_demand_iff.mpr ⟨.ok (), rfl, rfl⟩

end

/-- Events of one thread, answered in turn. -/
theorem Leaves.append (leaves : Leaves past table) {events : List (Event Reply)}
    (served : Program.Served BaselineTable.Serves table events after) (thread : ι) (instant : Rat)
    : Leaves (past ++ events.map (Stamped.mk thread instant)) after :=
  Machine.Run.append leaves (served.run thread instant)

inductive MailTask
  | anchor
  | drift
  | approval
  | change
  deriving DecidableEq

def MailTask.request : MailTask → DriftRequest
  | .anchor => .check "mail" [sendTool "Send."] "operator"
  | .drift => .check "mail" [sendTool "Send it."] "operator"
  | .approval => .approve "mail" "send_mail" "admin"
  | .change => .check "mail" [sendTool "Send them."] "operator"

def taskEvents (anchor drift approval change : List (Event Reply)) : MailTask → List (Event Reply)
  | .anchor => anchor
  | .drift => drift
  | .approval => approval
  | .change => change

/-- The four tasks one after the other. -/
def serial (events : MailTask → List (Event Reply)) : DriftRun MailTask where
  request := MailTask.request
  trace := [MailTask.anchor, .drift, .approval, .change].flatMap
    (fun task => (events task).map (Stamped.mk task 0))

/-- The approval reads the row before the third description is seen, and commits after it. -/
def overtaken (events : MailTask → List (Event Reply)) (approved live : String) : DriftRun MailTask where
  request := MailTask.request
  trace :=
    (events .anchor).map (Stamped.mk .anchor 0)
    ++ (events .drift).map (Stamped.mk .drift 0)
    ++ [asking approved live].map (Stamped.mk .approval 0)
    ++ (events .change).map (Stamped.mk .change 0)
    ++ (approving approved live).map (Stamped.mk .approval 0)

section

variable {events : MailTask → List (Event Reply)} {approved live last : String}

theorem eventsOf_serial (task : MailTask) : eventsOf task (serial events).trace = events task := by
  cases task <;> simp [serial, eventsOf_append, eventsOf_stamped]

theorem eventsOf_overtaken (whole : events .approval = asking approved live :: approving approved live)
    (task : MailTask)
    : eventsOf task (overtaken events approved live).trace = events task := by
  simp only [overtaken, eventsOf_append, eventsOf_stamped]
  cases task <;> simp [whole]

theorem served_asking
    : BaselineTable.Serves [seenRow approved live] (asking approved live) [seenRow approved live] :=
  ⟨rfl, .some ⟨.refl _, .some (.refl _), rfl⟩⟩

theorem served_approving (schema : Option Tool) (hash : Option String)
    : Program.Served BaselineTable.Serves
        [{ seenRow approved live with observedSchema := schema, observedHash := hash }]
        (approving approved live) [approvedRow live] :=
  .cons rfl (.cons (apply_approval schema hash) (.nil _))

/-- The four transactions, whole. -/
structure Blocks (events : MailTask → List (Event Reply)) (approved live last : String) : Prop where
  anchor : Block MailTask.anchor.request [] (events .anchor) [sendRow approved]
  drift : Block MailTask.drift.request [sendRow approved] (events .drift) [seenRow approved live]
  approval : Block MailTask.approval.request [seenRow approved live] (events .approval)
    [approvedRow live]
  change : Block MailTask.change.request [approvedRow live] (events .change) [seenLater live last]

theorem Blocks.block (blocks : Blocks events approved live last) (task : MailTask)
    : ∃ table after, Block task.request table (events task) after := by
  cases task with
  | anchor => exact ⟨_, _, blocks.anchor⟩
  | drift => exact ⟨_, _, blocks.drift⟩
  | approval => exact ⟨_, _, blocks.approval⟩
  | change => exact ⟨_, _, blocks.change⟩

theorem Blocks.proper (blocks : Blocks events approved live last) : (serial events).Proper calm where
  underWay task := by
    obtain ⟨_, _, block⟩ := blocks.block task
    refine ⟨[], ?_⟩
    rw [List.append_nil, eventsOf_serial]
    exact block.exec
  served := by
    have leaves := (((Leaves.append .nil blocks.anchor.served MailTask.anchor 0).append
      blocks.drift.served .drift 0).append blocks.approval.served .approval 0).append
      blocks.change.served .change 0
    refine ⟨[seenLater live last], ?_⟩
    simpa [serial] using leaves

theorem Blocks.undisturbed (blocks : Blocks events approved live last)
    : (serial events).Undisturbed "mail" "send_mail" := by
  refine undisturbed_of_serial MailTask.ctorIdx (List.pairwise_flatMap.mpr ⟨?_, ?_⟩)
  · intro task _
    obtain ⟨_, _, block⟩ := blocks.block task
    obtain ⟨first, changes, split, quiet, _⟩ := block.commits
    rw [List.pairwise_map, split]
    have before (event : Event Reply) (member : event ∈ first) (later : Event Reply)
        : MailTask.ctorIdx task ≤ MailTask.ctorIdx task
          ∧ (Commits (Stamped.mk task 0 event) → MailTask.ctorIdx task < MailTask.ctorIdx task) := by
      refine ⟨Nat.le_refl _, fun ⟨changes, commits⟩ => absurd ?_ (quiet event member)⟩
      have same : event = ⟨.commit changes, .ok ()⟩ := commits
      exact same ▸ trivial
    refine List.pairwise_append.mpr ⟨?_, List.pairwise_singleton _ _, ?_⟩
    · exact List.pairwise_of_forall_mem_list (fun event member later _ => before event member later)
    · exact fun event member later _ => before event member later
  · simp [MailTask.ctorIdx]

theorem Blocks.judgedAlike (blocks : Blocks events approved live last)
    : (serial events).JudgedAlike calm "mail" "send_mail" := by
  intro past rest table row read other tool same hash severity another whole leaves found back back'
    listed listed' _ _ judged judged'
  have texts {tool : Tool} (listed : (serial events).Lists "mail" "send_mail" tool)
      : ∃ text, tool = sendTool text := by
    obtain ⟨task, tools, identityId, request, member⟩ := listed
    cases task <;> cases request <;> rw [live_sendTool] at member <;>
      exact ⟨_, (Prod.ext_iff.mp (List.mem_singleton.mp member)).2⟩
  have rows : ∀ row ∈ table, ∃ text, row.approvedSchema = sendTool text := by
    refine leaves.of_actions.invariant
      (fun table => ∀ row ∈ table, ∃ text, row.approvedSchema = sendTool text) (by simp) ?_
    intro table step after rows ⟨served, member⟩
    by_cases commits : Commits step
    · obtain ⟨changes, commits⟩ := commits
      have inTrace : step ∈ (serial events).trace := whole ▸ List.mem_append_left rest member
      obtain ⟨task, _, stamped⟩ := List.mem_flatMap.mp inTrace
      obtain ⟨event, among, rfl⟩ := List.mem_map.mp stamped
      obtain ⟨_, _, block⟩ := blocks.block task
      obtain ⟨first, written, split, quiet, plain⟩ := block.commits
      have same : event = ⟨.commit changes, .ok ()⟩ := commits
      rw [split, same] at among
      rcases List.mem_append.mp among with early | final
      · exact absurd trivial (quiet _ early)
      · cases List.mem_singleton.mp final
        rw [commits] at served
        exact approved_of_changes rows plain served
    · rw [kept_of_not_commits commits served]
      exact rows
  obtain ⟨old, schema⟩ := rows row (Keyed.find_mem found)
  obtain ⟨one, rfl⟩ := texts listed
  obtain ⟨two, rfl⟩ := texts listed'
  rw [schema] at back back'
  rw [blocks_of_sendTool back judged, blocks_of_sendTool back' judged']

theorem exists_blocks (listed : Listed approved live last) : ∃ events, Blocks events approved live last := by
  obtain ⟨anchor, first⟩ := block_anchor listed
  obtain ⟨drift, second⟩ := block_drift listed
  obtain ⟨change, fourth⟩ := block_later listed
  refine ⟨taskEvents anchor drift (asking approved live :: approving approved live) change, first,
    second, ?_, fourth⟩
  refine ⟨exec_approval listed, .cons served_asking (served_approving _ _), ?_⟩
  refine ⟨[asking approved live, _], approval approved live, rfl, by simp [asking, IsCommit], ?_⟩
  intro change member tool written
  cases List.mem_singleton.mp member
  exact ⟨"Send it.", List.mem_singleton.mp written⟩

/-- Witness: a run with an approval, and a newer drift that is blocked. -/
theorem later_drift_blocks
    : ∃ events, (serial events).Proper calm ∧ (serial events).NewerDriftBlocks calm "mail" "send_mail" := by
  obtain ⟨approved, live, last, listed⟩ := exists_listed
  obtain ⟨events, blocks⟩ := exists_blocks listed
  exact ⟨events, blocks.proper, newerDriftBlocks_of_undisturbed _ blocks.proper blocks.undisturbed
    blocks.judgedAlike⟩

/-- The transactions of the other order: the third description is seen over the row that the approval
has read.
-/
structure Overlap (events : MailTask → List (Event Reply)) (approved live last : String) : Prop where
  anchor : Block MailTask.anchor.request [] (events .anchor) [sendRow approved]
  drift : Block MailTask.drift.request [sendRow approved] (events .drift) [seenRow approved live]
  change : Block MailTask.change.request [seenRow approved live] (events .change)
    [seenAgain approved live last]
  approval : (MailTask.approval.request.program calm).Exec (events .approval) ()
  whole : events .approval = asking approved live :: approving approved live

theorem exists_overlap (listed : Listed approved live last)
    : ∃ events, Overlap events approved live last := by
  obtain ⟨anchor, first⟩ := block_anchor listed
  obtain ⟨drift, second⟩ := block_drift listed
  obtain ⟨change, third⟩ := block_change listed
  exact ⟨taskEvents anchor drift (asking approved live :: approving approved live) change, first,
    second, third, exec_approval listed, rfl⟩

theorem Overlap.leaves (overlap : Overlap events approved live last)
    : Leaves (overtaken events approved live).trace [approvedRow live] := by
  have asked : Program.Served BaselineTable.Serves [seenRow approved live] [asking approved live]
      [seenRow approved live] := .cons served_asking (.nil _)
  have approved : Program.Served BaselineTable.Serves [seenAgain approved live last]
      (approving approved live) [approvedRow live] :=
    served_approving (some (sendTool "Send them.")) (some last)
  have leaves := ((((Leaves.append .nil overlap.anchor.served MailTask.anchor 0).append
    overlap.drift.served .drift 0).append asked .approval 0).append overlap.change.served .change
    0).append approved .approval 0
  simpa [overtaken] using leaves

theorem Overlap.proper (overlap : Overlap events approved live last)
    : (overtaken events approved live).Proper calm where
  underWay task := by
    refine ⟨[], ?_⟩
    rw [List.append_nil, eventsOf_overtaken overlap.whole]
    cases task with
    | anchor => exact overlap.anchor.exec
    | drift => exact overlap.drift.exec
    | approval => exact overlap.approval
    | change => exact overlap.change.exec
  served := ⟨_, overlap.leaves⟩

/-- The check of the third description commits last among the checks. -/
theorem Overlap.lastCheck (overlap : Overlap events approved live last)
    : (overtaken events approved live).LastCheck "mail" (overtaken events approved live).trace
        [sendTool "Send them."] := by
  obtain ⟨first, changes, split, _, _⟩ := overlap.change.commits
  refine ⟨(events .anchor).map (Stamped.mk .anchor 0) ++ (events .drift).map (Stamped.mk .drift 0)
      ++ [asking approved live].map (Stamped.mk .approval 0) ++ first.map (Stamped.mk .change 0),
    ⟨.change, 0, ⟨.commit changes, .ok ()⟩⟩, (approving approved live).map (Stamped.mk .approval 0),
    by simp [overtaken, split], ⟨⟨changes, rfl⟩, "operator", rfl⟩, ?_⟩
  intro later member others checks
  obtain ⟨event, _, rfl⟩ := List.mem_map.mp member
  obtain ⟨_, _, request⟩ := checks
  cases request

/-- A check sees the third description while the approval of the second one is in progress. The
approval commits last, over the row as it has read it, and the tool is not blocked any more.
-/
theorem approval_erases_newer_drift
    : ¬ ∀ run : DriftRun MailTask,
        run.Proper calm → run.NewerDriftBlocks calm "mail" "send_mail" := by
  intro blocks
  obtain ⟨approved, live, last, listed⟩ := exists_listed
  obtain ⟨events, overlap⟩ := exists_overlap listed
  have readBack : (approvedRow live).ReadBack (approvedRow live) := ⟨.refl _, .none, rfl⟩
  have drifted : SeverelyDrifted calm.settings (approvedRow live) (sendTool "Send them.") :=
    ⟨last, some .high, listed.last, listed.last_ne_live, rfl, rfl⟩
  have blocked := blocks _ overlap.proper _ [] _ _ (sendTool "Send them.") _ _
    (List.append_nil _).symm overlap.leaves overlap.lastCheck
    (by rw [live_sendTool]; exact List.mem_cons_self) rfl readBack drifted
  cases blocked

end

end DriftRun

end SecureMcp
