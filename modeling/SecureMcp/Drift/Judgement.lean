import SecureMcp.Drift.Sweep
import SecureMcp.Library.Keyed
import SecureMcp.Library.Loop

/-! What a check decides about each single tool, from the rows it read and the live list.
-/

namespace SecureMcp

namespace DriftDetector

/-- The row that a list of rows has under a name. -/
def named (rows : List ToolBaseline) (name : String) : Option ToolBaseline :=
  Keyed.find ToolBaseline.toolName rows name

theorem named_toolName {rows : List ToolBaseline} {name : String} {row : ToolBaseline}
    (found : named rows name = some row)
    : row.toolName = name :=
  Keyed.find_key found

/-- Changing a row changes what is found under its own name only, by induction on the rows.
-/
theorem named_putRow (changed : ToolBaseline) (rows : List ToolBaseline) (name : String)
    : named (Sweep.putRow changed rows) name
      = if name = changed.toolName then (named rows name).map (fun _ => changed)
        else named rows name := by
  induction rows with
  | nil => simp [named, Sweep.putRow, Keyed.find]
  | cons row rest ih =>
      simp only [named, Sweep.putRow, Keyed.find_cons] at ih ⊢
      by_cases here : row.toolName = changed.toolName
      · by_cases same : name = changed.toolName
        · simp [here, same, Keyed.find_cons]
        · simp [here, same, Ne.symm same, Keyed.find_cons]
      · by_cases same : name = changed.toolName
        · subst same
          simpa [here, Keyed.find_cons] using ih
        · simp only [here, same, if_false, Keyed.find_cons] at ih ⊢
          rw [ih]

/-- The columns that no sweep changes, and that the search for renamed tools reads. -/
def shapes (rows : List ToolBaseline) : List (String × Tool) :=
  rows.map (fun row => (row.toolName, row.approvedSchema))

theorem renameSource_congr (live : List (String × Tool)) (tool : Tool)
    {rows others : List ToolBaseline} (same : shapes rows = shapes others)
    : renameSource live tool rows = renameSource live tool others := by
  induction rows generalizing others with
  | nil =>
      have empty : others = [] := by
        simpa [shapes] using same.symm
      rw [empty]
  | cons row rest ih =>
      cases others with
      | nil => simp [shapes] at same
      | cons other more =>
          obtain ⟨head, tail⟩ := List.cons.inj same
          obtain ⟨name, schema⟩ := Prod.mk.inj head
          simp only [renameSource, name, schema, ih tail]

/-- Putting a row keeps the shapes when it keeps the shape of the row it replaces. -/
theorem shapes_putRow {rows : List ToolBaseline} {changed row : ToolBaseline}
    (found : named rows changed.toolName = some row)
    (schema : changed.approvedSchema = row.approvedSchema)
    : shapes (Sweep.putRow changed rows) = shapes rows := by
  induction rows with
  | nil => rfl
  | cons first rest ih =>
      simp only [named, Keyed.find_cons] at found ih
      by_cases here : first.toolName = changed.toolName
      · simp only [here, if_true] at found
        cases found
        simp [Sweep.putRow, shapes, here, schema]
      · simp only [here, if_false] at found
        simp only [Sweep.putRow, here, if_false, shapes, List.map_cons] at ih ⊢
        rw [ih found]

/-- Settling keeps the name, the approved columns and the suspicion of a row. -/
structure Settled (row now : ToolBaseline) : Prop where
  serverId : now.serverId = row.serverId
  toolName : now.toolName = row.toolName
  approvedSchema : now.approvedSchema = row.approvedSchema
  approvedHash : now.approvedHash = row.approvedHash
  suspicious : now.suspicious = row.suspicious

theorem settled_settleRemoved (row : ToolBaseline) : Settled row (settleRemoved row) := by
  unfold settleRemoved
  split
  · exact ⟨rfl, rfl, rfl, rfl, rfl⟩
  · exact ⟨rfl, rfl, rfl, rfl, rfl⟩

/-- The four ways in which a tool can settle its row. -/
theorem settleTool_cases {settings : Settings} {row now : ToolBaseline} {tool : Tool}
    (settled : settleTool settings row tool = .ok now)
    : ∃ liveHash,
        toolHash tool = .ok liveHash
        ∧ ((liveHash = row.approvedHash
              ∧ now = if row.observedHash.isSome then row.reverted else row)
          ∨ (liveHash ≠ row.approvedHash ∧ row.observedHash = some liveHash ∧ now = row)
          ∨ ∃ classified,
              liveHash ≠ row.approvedHash
              ∧ row.observedHash ≠ some liveHash
              ∧ classify settings row.approvedSchema tool = .ok classified
              ∧ now = row.drifted tool liveHash (classified.getD .high)) := by
  unfold settleTool at settled
  cases hashed : toolHash tool with
  | error exn =>
      rw [hashed] at settled
      cases settled
  | ok liveHash =>
      rw [hashed] at settled
      simp only [bind, Except.bind] at settled
      refine ⟨liveHash, rfl, ?_⟩
      split at settled
      · next approved =>
          cases settled
          exact Or.inl ⟨approved, rfl⟩
      · next differs =>
          split at settled
          · next logged =>
              cases settled
              exact Or.inr (Or.inl ⟨differs, logged, rfl⟩)
          · next fresh =>
              cases found : classify settings row.approvedSchema tool with
              | error exn =>
                  rw [found] at settled
                  cases settled
              | ok classified =>
                  rw [found] at settled
                  cases settled
                  exact Or.inr (Or.inr ⟨classified, differs, fresh, rfl, rfl⟩)

theorem settled_settleTool {settings : Settings} {row now : ToolBaseline} {tool : Tool}
    (settled : settleTool settings row tool = .ok now)
    : Settled row now := by
  obtain ⟨liveHash, _, approved | logged | drifted⟩ := settleTool_cases settled
  · rw [approved.2]
    split
    · exact ⟨rfl, rfl, rfl, rfl, rfl⟩
    · exact ⟨rfl, rfl, rfl, rfl, rfl⟩
  · rw [logged.2.2]
    exact ⟨rfl, rfl, rfl, rfl, rfl⟩
  · obtain ⟨classified, _, _, _, same⟩ := drifted
    rw [same]
    exact ⟨rfl, rfl, rfl, rfl, rfl⟩

/-- (Sighted … name tool row) means that `row` is what a first sighting of the tool adds. -/
def Sighted (runtime : Runtime) (serverId : String) (live : List (String × Tool))
    (rows : List ToolBaseline) (name : String) (tool : Tool) (row : ToolBaseline)
    : Prop :=
  ∃ liveHash source,
    toolHash tool = .ok liveHash
    ∧ renameSource live tool rows = .ok source
    ∧ row =
        (match source with
          | none => ToolBaseline.firstSeen
          | some _ => ToolBaseline.renamed)
          serverId name tool liveHash (!(scanDescriptions runtime tool).isEmpty)

/-- What a sweep knows once it has visited the tools in `done`. -/
structure Judged (runtime : Runtime) (serverId : String) (live : List (String × Tool))
    (rows : List ToolBaseline) (done : List (String × Tool)) (sweep : Sweep)
    : Prop where
  shapes : shapes sweep.rows = shapes rows
  untouched : ∀ name, name ∉ Dict.keys done → named sweep.rows name = named rows name
  unknown : ∀ name, named rows name = none → named sweep.rows name = none
  settled : ∀ name tool row,
    (name, tool) ∈ done
    → named rows name = some row
    → ∃ now,
        settleTool runtime.settings row tool = .ok now ∧ named sweep.rows name = some now
  sighted : ∀ name tool,
    (name, tool) ∈ done
    → named rows name = none
    → ∃ row ∈ sweep.added, Sighted runtime serverId live rows name tool row
  added : ∀ row ∈ sweep.added,
    named rows row.toolName = none
    ∧ ∃ tool,
        (row.toolName, tool) ∈ done
        ∧ Sighted runtime serverId live rows row.toolName tool row
  distinct : (sweep.added.map ToolBaseline.toolName).Nodup

theorem Sighted.toolName {runtime : Runtime} {serverId : String}
    {live : List (String × Tool)} {rows : List ToolBaseline} {name : String} {tool : Tool}
    {row : ToolBaseline} (sighted : Sighted runtime serverId live rows name tool row)
    : row.toolName = name := by
  obtain ⟨_, source, _, _, same⟩ := sighted
  rw [same]
  cases source <;> rfl

theorem Sighted.serverId {runtime : Runtime} {serverId : String}
    {live : List (String × Tool)} {rows : List ToolBaseline} {name : String} {tool : Tool}
    {row : ToolBaseline} (sighted : Sighted runtime serverId live rows name tool row)
    : row.serverId = serverId := by
  obtain ⟨_, source, _, _, same⟩ := sighted
  rw [same]
  cases source <;> rfl

section

variable {runtime : Runtime} {serverId : String} {live : List (String × Tool)}
  {rows : List ToolBaseline} {done : List (String × Tool)} {sweep after : Sweep}
  {name : String} {tool : Tool}

/-- A first sighting adds one row and changes none. -/
theorem judgeSighting_ok
    (judged : judgeSighting runtime serverId live sweep name tool = .ok after)
    : after.rows = sweep.rows
      ∧ ∃ row,
          Sighted runtime serverId live sweep.rows name tool row
          ∧ after.added = sweep.added ++ [row] := by
  unfold judgeSighting at judged
  cases hashed : toolHash tool with
  | error exn =>
      rw [hashed] at judged
      cases judged
  | ok liveHash =>
      rw [hashed] at judged
      cases searched : renameSource live tool sweep.rows with
      | error exn =>
          rw [searched] at judged
          cases judged
      | ok source =>
          rw [searched] at judged
          cases source with
          | none =>
              cases judged
              exact ⟨rfl, _, ⟨liveHash, none, hashed, searched, rfl⟩, rfl⟩
          | some source =>
              cases judged
              exact ⟨rfl, _, ⟨liveHash, some source, hashed, searched, rfl⟩, rfl⟩

/-- Visiting a tool that has a row settles that row. -/
theorem Judged.settle (state : Judged runtime serverId live rows done sweep)
    (fresh : name ∉ Dict.keys done) {row now : ToolBaseline}
    (found : named rows name = some row)
    (settled : settleTool runtime.settings row tool = .ok now)
    : Judged runtime serverId live rows (done ++ [(name, tool)]) (sweep.setRow now) := by
  have here : named sweep.rows name = some row := (state.untouched name fresh).trans found
  have same : now.toolName = name :=
    (settled_settleTool settled).toolName.trans (named_toolName found)
  have elsewhere (other : String) (differs : other ≠ name)
      : named (sweep.setRow now).rows other = named sweep.rows other := by
    rw [Sweep.setRow, named_putRow, same, if_neg differs]
  have placed : named (sweep.setRow now).rows name = some now := by
    rw [Sweep.setRow, named_putRow, same, if_pos rfl, here]
    rfl
  refine ⟨?_, ?_, ?_, ?_, ?_, ?_, state.distinct⟩
  · refine Eq.trans ?_ state.shapes
    exact shapes_putRow (same ▸ here) (settled_settleTool settled).approvedSchema
  · intro other absent
    have differs : other ≠ name := by
      rintro rfl
      exact absent (by simp [Dict.keys])
    rw [elsewhere other differs]
    exact state.untouched other (fun member => absent (by simp [Dict.keys] at member ⊢; tauto))
  · intro other none
    have differs : other ≠ name := by
      rintro rfl
      rw [found] at none
      cases none
    rw [elsewhere other differs]
    exact state.unknown other none
  · intro other definition original member known
    rcases List.mem_append.mp member with old | new
    · have differs : other ≠ name := by
        rintro rfl
        exact fresh (List.mem_map.mpr ⟨_, old, rfl⟩)
      rw [elsewhere other differs]
      exact state.settled other definition original old known
    · cases List.mem_singleton.mp new
      cases found.symm.trans known
      exact ⟨now, settled, placed⟩
  · intro other definition member none
    rcases List.mem_append.mp member with old | new
    · exact state.sighted other definition old none
    · cases List.mem_singleton.mp new
      rw [found] at none
      cases none
  · intro added member
    obtain ⟨none, definition, seen, sighted⟩ := state.added added member
    exact ⟨none, definition, List.mem_append_left _ seen, sighted⟩

/-- Visiting a tool without a row adds one. -/
theorem Judged.sight (state : Judged runtime serverId live rows done sweep)
    (fresh : name ∉ Dict.keys done) (absent : named rows name = none)
    (judged : judgeSighting runtime serverId live sweep name tool = .ok after)
    : Judged runtime serverId live rows (done ++ [(name, tool)]) after := by
  obtain ⟨same, row, sightedNow, grown⟩ := judgeSighting_ok judged
  have sighted : Sighted runtime serverId live rows name tool row := by
    obtain ⟨liveHash, source, hashed, searched, built⟩ := sightedNow
    exact ⟨liveHash, source, hashed, (renameSource_congr live tool state.shapes) ▸ searched, built⟩
  have called : row.toolName = name := sighted.toolName
  refine ⟨by rw [same]; exact state.shapes, ?_, ?_, ?_, ?_, ?_, ?_⟩
  · intro other missing
    rw [same]
    exact state.untouched other (fun member => missing (by simp [Dict.keys] at member ⊢; tauto))
  · intro other none
    rw [same]
    exact state.unknown other none
  · intro other definition original member known
    rw [same]
    rcases List.mem_append.mp member with old | new
    · exact state.settled other definition original old known
    · cases List.mem_singleton.mp new
      rw [absent] at known
      cases known
  · intro other definition member none
    rw [grown]
    rcases List.mem_append.mp member with old | new
    · obtain ⟨added, there, seen⟩ := state.sighted other definition old none
      exact ⟨added, List.mem_append_left _ there, seen⟩
    · cases List.mem_singleton.mp new
      exact ⟨row, by simp, sighted⟩
  · intro added member
    rw [grown] at member
    rcases List.mem_append.mp member with old | new
    · obtain ⟨none, definition, seen, earlier⟩ := state.added added old
      exact ⟨none, definition, List.mem_append_left _ seen, earlier⟩
    · cases List.mem_singleton.mp new
      rw [called]
      exact ⟨absent, tool, by simp, sighted⟩
  · rw [grown, List.map_append, List.nodup_append]
    refine ⟨state.distinct, by simp, ?_⟩
    intro first member second last
    cases List.mem_singleton.mp last
    rintro rfl
    obtain ⟨added, there, equal⟩ := List.mem_map.mp member
    obtain ⟨_, definition, seen, _⟩ := state.added added there
    rw [equal, called] at seen
    exact fresh (List.mem_map.mpr ⟨_, seen, rfl⟩)

/-- Every tool of the live list that is visited keeps the account of the sweep. -/
theorem Judged.step (state : Judged runtime serverId live rows done sweep)
    (fresh : name ∉ Dict.keys done)
    (judged : judgeTool runtime serverId live sweep name tool = .ok after)
    : Judged runtime serverId live rows (done ++ [(name, tool)]) after := by
  have unchanged := state.untouched name fresh
  unfold judgeTool at judged
  cases found : sweep.row? name with
  | none =>
      rw [found] at judged
      exact state.sight fresh (unchanged.symm.trans found) judged
  | some row =>
      rw [found] at judged
      cases settled : settleTool runtime.settings row tool with
      | error exn =>
          simp only [settled] at judged
          cases judged
      | ok now =>
          simp only [settled] at judged
          cases judged
          exact state.settle fresh (unchanged.symm.trans found) settled

/-- A sweep that has visited nothing. -/
theorem Judged.nil : Judged runtime serverId live rows [] { rows := rows } where
  shapes := rfl
  untouched _ _ := rfl
  unknown _ none := none
  settled _ _ _ member := by cases member
  sighted _ _ member := by cases member
  added _ member := by cases member
  distinct := by simp

/-- The loop over the live list keeps the account of the sweep. -/
theorem judged_of_foldlM (distinct : (Dict.keys live).Nodup)
    (finished : live.foldlM
      (fun sweep item => judgeTool runtime serverId live sweep item.1 item.2)
      { rows := rows } = .ok sweep)
    : Judged runtime serverId live rows live sweep := by
  refine Loop.foldlM_ok Judged.nil ?_ finished
  intro done item state after beginning judged stepped
  exact judged.step (Dict.not_mem_keys_of_prefix distinct beginning) stepped

end

theorem settleRemoved_idem (row : ToolBaseline)
    : settleRemoved (settleRemoved row) = settleRemoved row := by
  unfold settleRemoved
  by_cases gone : row.observedHash = some ToolBaseline.removedSentinel
  · simp [gone]
  · simp [gone, ToolBaseline.removed]

/-- Visiting a row settles it at most, and only when its tool is not live. -/
theorem judgeRemoved_named (live : List (String × Tool)) (sweep : Sweep)
    (visited name : String)
    : named (judgeRemoved live sweep visited).rows name = named sweep.rows name
      ∨ (name ∉ Dict.keys live
        ∧ named (judgeRemoved live sweep visited).rows name
          = (named sweep.rows name).map settleRemoved) := by
  unfold judgeRemoved
  split
  · exact Or.inl rfl
  · next absent =>
      split
      · exact Or.inl rfl
      · next row found =>
          have here : named sweep.rows visited = some row := found
          have same : (settleRemoved row).toolName = visited :=
            (settled_settleRemoved row).toolName.trans (named_toolName here)
          rw [Sweep.setRow, named_putRow, same]
          by_cases visiting : name = visited
          · subst visiting
            simp only [Bool.or_eq_true, decide_eq_true_eq, not_or] at absent
            simp [here, absent.1]
          · exact Or.inl (if_neg visiting)

theorem judgeRemoved_added (live : List (String × Tool)) (sweep : Sweep) (visited : String)
    : (judgeRemoved live sweep visited).added = sweep.added := by
  unfold judgeRemoved
  repeat' split
  · rfl
  · rfl
  · rfl

/-- The loop over the rows settles them at most, and only those whose tools are not live, by
induction on the names.
-/
theorem foldl_judgeRemoved (live : List (String × Tool)) (visited : List String)
    (sweep : Sweep) (name : String)
    : (visited.foldl (judgeRemoved live) sweep).added = sweep.added
      ∧ (named (visited.foldl (judgeRemoved live) sweep).rows name = named sweep.rows name
        ∨ (name ∉ Dict.keys live
          ∧ named (visited.foldl (judgeRemoved live) sweep).rows name
            = (named sweep.rows name).map settleRemoved)) := by
  induction visited generalizing sweep with
  | nil => exact ⟨rfl, Or.inl rfl⟩
  | cons first rest ih =>
      obtain ⟨added, later⟩ := ih (judgeRemoved live sweep first)
      refine ⟨added.trans (judgeRemoved_added live sweep first), ?_⟩
      rw [List.foldl_cons]
      rcases judgeRemoved_named live sweep first name with same | ⟨absent, settled⟩
      · rw [same] at later
        exact later
      · refine Or.inr ⟨absent, ?_⟩
        rw [settled] at later
        rcases later with same | ⟨_, again⟩
        · exact same
        · rw [again, Option.map_map]
          congr 1
          exact funext settleRemoved_idem

/-- What a check decides about every single tool. -/
structure Verdict (runtime : Runtime) (serverId : String) (live : List (String × Tool))
    (rows : List ToolBaseline) (swept : Sweep)
    : Prop where
  unknown : ∀ name, named rows name = none → named swept.rows name = none
  settled : ∀ name tool row,
    (name, tool) ∈ live
    → named rows name = some row
    → ∃ now,
        settleTool runtime.settings row tool = .ok now ∧ named swept.rows name = some now
  gone : ∀ name row,
    name ∉ Dict.keys live
    → named rows name = some row
    → ∃ now, (now = row ∨ now = settleRemoved row) ∧ named swept.rows name = some now
  sighted : ∀ name tool,
    (name, tool) ∈ live
    → named rows name = none
    → ∃ row ∈ swept.added, Sighted runtime serverId live rows name tool row
  added : ∀ row ∈ swept.added,
    named rows row.toolName = none
    ∧ ∃ tool,
        (row.toolName, tool) ∈ live
        ∧ Sighted runtime serverId live rows row.toolName tool row
  distinct : (swept.added.map ToolBaseline.toolName).Nodup

section

variable {runtime : Runtime} {serverId : String} {live : List (String × Tool)}
  {rows : List ToolBaseline} {swept : Sweep}

theorem verdict_of_judge (distinct : (Dict.keys live).Nodup)
    (judged : judge runtime serverId live rows = .ok swept)
    : Verdict runtime serverId live rows swept := by
  unfold judge at judged
  cases visited : live.foldlM
      (fun sweep item => judgeTool runtime serverId live sweep item.1 item.2)
      ({ rows := rows } : Sweep) with
  | error exn =>
      rw [visited] at judged
      cases judged
  | ok seen =>
      rw [visited] at judged
      cases judged
      have state := judged_of_foldlM distinct visited
      have removed := foldl_judgeRemoved live (rows.map ToolBaseline.toolName) seen
      refine ⟨?_, ?_, ?_, ?_, ?_, ?_⟩
      · intro name none
        have before := state.unknown name none
        rcases (removed name).2 with same | ⟨_, settled⟩
        · exact same.trans before
        · rw [settled, before]
          rfl
      · intro name tool row member known
        obtain ⟨now, settled, found⟩ := state.settled name tool row member known
        refine ⟨now, settled, ?_⟩
        rcases (removed name).2 with same | ⟨absent, _⟩
        · exact same.trans found
        · exact absurd (List.mem_map.mpr ⟨_, member, rfl⟩) absent
      · intro name row absent known
        have before := (state.untouched name absent).trans known
        rcases (removed name).2 with same | ⟨_, settled⟩
        · exact ⟨row, Or.inl rfl, same.trans before⟩
        · refine ⟨settleRemoved row, Or.inr rfl, ?_⟩
          rw [settled, before]
          rfl
      · intro name tool member none
        rw [(removed name).1]
        exact state.sighted name tool member none
      · intro row member
        rw [(removed row.toolName).1] at member
        exact state.added row member
      · rw [(removed "").1]
        exact state.distinct

/-- Whether a check can decide about a tool of the live list: its hash can be taken, and the
comparison that its row or its absence asks for does not raise.
-/
def judgeable (settings : Settings) (live : List (String × Tool)) (rows : List ToolBaseline)
    (item : String × Tool)
    : Bool :=
  match toolHash item.2, named rows item.1 with
  | .error _, _ => false
  | .ok liveHash, some row =>
      liveHash = row.approvedHash
      || row.observedHash = some liveHash
      || (classify settings row.approvedSchema item.2).isOk
  | .ok _, none => (renameSource live item.2 rows).isOk

theorem exists_settleTool {settings : Settings} {row : ToolBaseline} {tool : Tool}
    {liveHash : String} (hashed : toolHash tool = .ok liveHash)
    (able : (liveHash = row.approvedHash
      || row.observedHash = some liveHash
      || (classify settings row.approvedSchema tool).isOk) = true)
    : ∃ now, settleTool settings row tool = .ok now := by
  simp only [settleTool, hashed, bind, Except.bind]
  split
  · exact ⟨_, rfl⟩
  · next differs =>
      split
      · exact ⟨_, rfl⟩
      · next fresh =>
          cases found : classify settings row.approvedSchema tool with
          | ok classified => exact ⟨_, rfl⟩
          | error exn => simp [differs, fresh, found, Except.isOk, Except.toBool] at able

theorem judgeable_of_settled {settings : Settings} {item : String × Tool}
    {row now : ToolBaseline} (known : named rows item.1 = some row)
    (settled : settleTool settings row item.2 = .ok now)
    : judgeable settings live rows item := by
  obtain ⟨liveHash, hashed, approved | logged | drifted⟩ := settleTool_cases settled
  · simp [judgeable, hashed, known, approved.1]
  · simp [judgeable, hashed, known, logged.2.1]
  · obtain ⟨classified, _, _, found, _⟩ := drifted
    simp [judgeable, hashed, known, found, Except.isOk, Except.toBool]

theorem judgeable_of_sighted {settings : Settings} {name : String} {tool : Tool}
    {row : ToolBaseline} (unknown : named rows name = none)
    (sighted : Sighted runtime serverId live rows name tool row)
    : judgeable settings live rows (name, tool) := by
  obtain ⟨liveHash, source, hashed, searched, _⟩ := sighted
  simp [judgeable, hashed, unknown, searched, Except.isOk, Except.toBool]

/-- A check that decides about a tool that can be decided does not raise there. -/
theorem judgeTool_error {done : List (String × Tool)} {sweep : Sweep}
    {item : String × Tool} {exn : Exn} (state : Judged runtime serverId live rows done sweep)
    (fresh : item.1 ∉ Dict.keys done)
    (stopped : judgeTool runtime serverId live sweep item.1 item.2 = .error exn)
    : ¬ judgeable runtime.settings live rows item := by
  intro able
  have unchanged := state.untouched item.1 fresh
  unfold judgeTool at stopped
  unfold judgeable at able
  cases hashed : toolHash item.2 with
  | error exn => simp [hashed] at able
  | ok liveHash =>
      cases found : named rows item.1 with
      | none =>
          have absent : sweep.row? item.1 = none := unchanged.trans found
          rw [absent] at stopped
          have searched := renameSource_congr live item.2 state.shapes
          simp only [hashed, found] at able
          cases answered : renameSource live item.2 rows with
          | error exn => simp [answered, Except.isOk, Except.toBool] at able
          | ok source =>
              rw [answered] at searched
              simp only [judgeSighting, hashed, searched, bind, Except.bind] at stopped
              cases source with
              | none => cases stopped
              | some source => cases stopped
      | some row =>
          have here : sweep.row? item.1 = some row := unchanged.trans found
          simp only [hashed, found] at able
          obtain ⟨now, settled⟩ := exists_settleTool hashed able
          rw [here] at stopped
          simp only [settled] at stopped
          cases stopped

/-- A check decides exactly over the lists whose every tool can be decided. -/
theorem judge_ok_iff (distinct : (Dict.keys live).Nodup)
    : (∃ swept, judge runtime serverId live rows = .ok swept)
      ↔ ∀ item ∈ live, judgeable runtime.settings live rows item := by
  refine ⟨?_, ?_⟩
  · intro ⟨swept, judged⟩ item member
    have verdict := verdict_of_judge distinct judged
    cases known : named rows item.1 with
    | none =>
        obtain ⟨row, _, sighted⟩ := verdict.sighted item.1 item.2 member known
        exact judgeable_of_sighted known sighted
    | some row =>
        obtain ⟨now, settled, _⟩ := verdict.settled item.1 item.2 row member known
        exact judgeable_of_settled known settled
  · intro able
    unfold judge
    cases visited : live.foldlM
        (fun sweep item => judgeTool runtime serverId live sweep item.1 item.2)
        ({ rows := rows } : Sweep) with
    | ok seen => exact ⟨_, rfl⟩
    | error exn =>
        obtain ⟨done, item, state, beginning, judged, stopped⟩ :=
          Loop.foldlM_error (Judged runtime serverId live rows) Judged.nil
            (fun done item state after beginning judged stepped =>
              judged.step (Dict.not_mem_keys_of_prefix distinct beginning) stepped)
            visited
        have fresh := Dict.not_mem_keys_of_prefix distinct beginning
        have member : item ∈ live := beginning.subset (by simp)
        exact absurd (able item member) (judgeTool_error judged fresh stopped)

end

end DriftDetector

end SecureMcp
