import Mathlib
import SecureMcp.Drift.Outcome
import SecureMcp.Interceptor.Upstream
import SecureMcp.Policy.InForce
import SecureMcp.Python.Reordering

/-! The tag of a served tools list: what two lists that were served with one tag have in common.
-/

namespace SecureMcp

open Interaction

-----------------------------------------------------------------------------------------
-- What a file grants
-----------------------------------------------------------------------------------------

namespace PolicyEngine

/-- The grants of every identity; who may call what depends on nothing else. -/
def grants (engine : PolicyEngine) : List (String × List ServerGrant) :=
  engine.policy.identities.map (fun record => (record.id, record.allowedServers))

/-- The last record of an identity has its last grants. -/
theorem identity_allowedServers (engine : PolicyEngine) (identityId : String)
    : (engine.identity identityId).map Identity.allowedServers
      = engine.grants.reverse.lookup identityId := by
  have listed (records : List Identity)
      : ((records.map (fun record => (record.id, record))).lookup identityId).map
          Identity.allowedServers
        = (records.map (fun record => (record.id, record.allowedServers))).lookup identityId := by
    induction records with
    | nil => rfl
    | cons record rest ih =>
        rw [List.map_cons, List.map_cons, Dict.lookup_cons, Dict.lookup_cons]
        split
        · rfl
        · exact ih
  unfold identity grants Dict.ofPairs
  rw [Dict.lookup_update, ← List.map_reverse, ← List.map_reverse, ← listed]
  simp

theorem isAllowed_of_grants {engine other : PolicyEngine} (same : engine.grants = other.grants)
    (identityId serverId toolName : String)
    : engine.isAllowed identityId serverId toolName = other.isAllowed identityId serverId toolName := by
  have granted (engine : PolicyEngine)
      : engine.matchingGrant identityId serverId toolName
        = (engine.grants.reverse.lookup identityId).bind (firstGrant serverId toolName) := by
    rw [← identity_allowedServers]
    unfold matchingGrant
    cases engine.identity identityId <;> rfl
  unfold isAllowed
  rw [granted engine, granted other, same]

end PolicyEngine

/-- (Tool.Steady tool) means that the text of a tool's name does not depend on the order of the keys
in it, as that of a string does not.
-/
def Tool.Steady (tool : Tool) : Prop :=
  ∀ other : Tool, Json.Reordered (.obj tool) (.obj other) → other.name = tool.name

namespace PolicyLoading

/-- The environment holds secrets, and no grants. -/
theorem checkAuthFields_ok {reader : PolicyReader} {record : IdentityRecord} {identity : Identity}
    (checked : checkAuthFields reader record = .ok identity)
    : identity.id = record.id ∧ identity.allowedServers = record.allowedServers := by
  unfold checkAuthFields at checked
  cases signing : signingSecret reader record with
  | error exn => simp [signing, bind, Except.bind] at checked
  | ok secret =>
      cases totp : totpSecret reader record with
      | error exn => simp [signing, totp, bind, Except.bind] at checked
      | ok factor =>
          simp only [signing, totp, bind, Except.bind, pure, Except.pure] at checked
          cases checked
          exact ⟨rfl, rfl⟩

theorem grants_of_mapM {reader : PolicyReader} {records : List IdentityRecord}
    {identities : List Identity} (checked : records.mapM (checkAuthFields reader) = .ok identities)
    : identities.map (fun identity => (identity.id, identity.allowedServers))
      = records.map (fun record => (record.id, record.allowedServers)) := by
  induction records generalizing identities with
  | nil =>
      cases checked
      rfl
  | cons record rest ih =>
      rw [List.mapM_cons] at checked
      cases first : checkAuthFields reader record with
      | error exn => simp [first, bind, Except.bind] at checked
      | ok identity =>
          cases others : rest.mapM (checkAuthFields reader) with
          | error exn => simp [first, others, bind, Except.bind] at checked
          | ok more =>
              simp only [first, others, bind, Except.bind, pure, Except.pure] at checked
              cases checked
              obtain ⟨id, servers⟩ := checkAuthFields_ok first
              rw [List.map_cons, List.map_cons, id, servers, ih others]

/-- One file grants the same wherever it is loaded. -/
theorem grants_of_loadBytes {reader other : PolicyReader} {raw : Bytes}
    {engine loaded : PolicyEngine} (format : reader.parse = other.parse)
    (first : loadBytes reader raw = .ok engine) (second : loadBytes other raw = .ok loaded)
    : engine.grants = loaded.grants := by
  obtain ⟨document, parsed, _, checked, _⟩ := loadBytes_ok first
  obtain ⟨document', parsed', _, checked', _⟩ := loadBytes_ok second
  rw [format, parsed'] at parsed
  cases parsed
  exact (grants_of_mapM checked).trans (grants_of_mapM checked').symm

end PolicyLoading

namespace Interceptor

-----------------------------------------------------------------------------------------
-- What a tag says
-----------------------------------------------------------------------------------------

/-- A hash has one length, so that the version in front of it can be read off. -/
theorem etag_inj {version other : Int} {hash schemaHash : String} (here : hash.length = 64)
    (there : schemaHash.length = 64) (same : etag version hash = etag other schemaHash)
    : version = other ∧ hash = schemaHash := by
  have listed := congrArg String.toList same
  simp only [etag, String.toList_append, List.append_assoc] at listed
  have lengths : ("-".toList ++ hash.toList).length = ("-".toList ++ schemaHash.toList).length := by
    simp only [List.length_append, String.length_toList, here, there]
  obtain ⟨versions, hashes⟩ := List.append_inj' listed lengths
  refine ⟨Int.repr_injective (String.toList_injective versions), String.toList_injective ?_⟩
  simpa using hashes

-----------------------------------------------------------------------------------------
-- Lists that differ in the order of keys
-----------------------------------------------------------------------------------------

/-- Two lists of tools with the same tools, in the same order. -/
abbrev SameTools : List Tool → List Tool → Prop :=
  List.Forall₂ (fun tool other => Json.Reordered (.obj tool) (.obj other))

theorem objects_of_mapM {item? : Json → Except Exn Tool}
    (objects : ∀ item fields, item? item = .ok fields → item = .obj fields) {items : List Json}
    {full : List Tool} (listed : items.mapM item? = .ok full)
    : items = full.map .obj := by
  induction items generalizing full with
  | nil =>
      cases listed
      rfl
  | cons item rest ih =>
      rw [List.mapM_cons] at listed
      cases first : item? item with
      | error exn => simp [first, bind, Except.bind] at listed
      | ok fields =>
          cases others : rest.mapM item? with
          | error exn => simp [first, others, bind, Except.bind] at listed
          | ok more =>
              simp only [first, others, bind, Except.bind, pure, Except.pure] at listed
              cases listed
              rw [List.map_cons, ← objects item fields first, ← ih others]

/-- A list of tools is a list of objects, or something empty. -/
theorem listedTools_ok {result : List (String × Json)} {full : List Tool}
    (listed : listedTools result = .ok full)
    : toolsValue result = .arr (full.map .obj)
      ∨ (full = [] ∧ (toolsValue result = .str "" ∨ toolsValue result = .obj [])) := by
  unfold listedTools at listed
  split at listed
  · next items found =>
      refine Or.inl (found.trans (congrArg Json.arr (objects_of_mapM ?_ listed)))
      intro item fields isObject
      cases item with
      | obj inner =>
          cases isObject
          rfl
      | _ => cases isObject
  · next found =>
      cases listed
      exact Or.inr ⟨rfl, Or.inl found⟩
  · next found =>
      cases listed
      exact Or.inr ⟨rfl, Or.inr found⟩
  · cases listed
  · cases listed
  · cases listed

theorem reorderedItems_refl (items : List Json) : Json.ReorderedItems items items := by
  induction items with
  | nil => exact .nil
  | cons item rest ih => exact .cons (.refl item) ih

/-- Lists of objects that differ in the order of keys, by induction on the first one. -/
theorem sameTools_of_reordered {full listed : List Tool}
    (order : Json.ReorderedItems (full.map .obj) (listed.map .obj))
    : SameTools full listed := by
  induction full generalizing listed with
  | nil =>
      cases listed with
      | nil => exact .nil
      | cons tool rest => cases order
  | cons tool rest ih =>
      cases listed with
      | nil => cases order
      | cons other more =>
          cases order with
          | cons head tail => exact .cons head (ih tail)

/-- The tools of two results that differ in the order of keys. -/
theorem sameTools_of_results {result other : List (String × Json)} {full listed : List Tool}
    (order : Json.Reordered (toolsValue result) (toolsValue other))
    (first : listedTools result = .ok full) (second : listedTools other = .ok listed)
    : SameTools full listed := by
  rcases listedTools_ok first with one | ⟨rfl, one⟩
  · rw [one] at order
    rcases listedTools_ok second with two | ⟨_, two | two⟩
    · rw [two] at order
      refine sameTools_of_reordered ?_
      generalize listed.map Json.obj = items at order
      cases order with
      | refl => exact reorderedItems_refl _
      | arr each => exact each
    · rw [two] at order
      cases order
    · rw [two] at order
      cases order
  · rcases listedTools_ok second with two | ⟨rfl, _⟩
    · rw [two] at order
      rcases one with one | one
      · rw [one] at order
        cases order
      · rw [one] at order
        cases order
    · exact .nil

theorem SameTools.prune {full listed : List Tool} (same : SameTools full listed)
    (steady : ∀ tool ∈ full, Tool.Steady tool) {identityId serverId : String}
    {engine other : PolicyEngine} (grants : engine.grants = other.grants)
    : SameTools (SchemaPruner.prune full identityId serverId engine)
        (SchemaPruner.prune listed identityId serverId other) := by
  induction same with
  | nil => exact .nil
  | @cons tool listedTool rest more head _ ih =>
      have name : listedTool.name = tool.name := steady tool List.mem_cons_self listedTool head
      have allowed : engine.isAllowed identityId serverId tool.name
          = other.isAllowed identityId serverId listedTool.name := by
        rw [name]
        exact PolicyEngine.isAllowed_of_grants grants _ _ _
      have later := ih (fun tool member => steady tool (List.mem_cons_of_mem _ member))
      unfold SchemaPruner.prune at later ⊢
      rw [List.filter_cons, List.filter_cons, ← allowed]
      split
      · exact .cons head later
      · exact later

/-- The tag of a served result. -/
def etagOf (fields : List (String × Json)) : Json :=
  match fields.lookup "_meta" with
  | some (.obj metadata) => Json.getKey metadata "etag"
  | _ => .null

theorem etagOf_servedFields (result : List (String × Json)) (served : List Tool) (tag : String)
    : etagOf (servedFields result served tag) = .str tag := by
  simp [etagOf, servedFields, Json.getKey]

end Interceptor

-----------------------------------------------------------------------------------------
-- Runs
-----------------------------------------------------------------------------------------

/-- Tools lists that one identity is served by one upstream server, while policies are activated:
all of their events, and the process that serves each list.
-/
structure ServiceRun (ι κ : Type) where
  activations : ActivationRun ι
  session : Interceptor.Session
  id : κ → RequestId
  result : κ → List (String × Json)
  process : κ → Nat
  trace : List (Stamped ι PolicyVersions.VersionReply ⊕ Stamped κ Reply)

namespace ServiceRun

open Interceptor PolicyVersions PolicyLoading

variable {ι κ : Type} [DecidableEq ι] [DecidableEq κ]

/-- The activations' part of some events. -/
def activated (past : List (Stamped ι VersionReply ⊕ Stamped κ Reply))
    : List (Stamped ι VersionReply) :=
  past.filterMap Sum.getLeft?

/-- The part of the tools lists. -/
def exchanged (past : List (Stamped ι VersionReply ⊕ Stamped κ Reply)) : List (Stamped κ Reply) :=
  past.filterMap Sum.getRight?

/-- The activations and the handling of every list have got as far as their events, and a list is
handled by a process that serves, under the policy in force.
-/
structure Proper (runtime : Runtime) (run : ServiceRun ι κ) : Prop where
  activations : run.activations.Proper
  merged : activated run.trace = run.activations.trace
  underWay : ∀ exchange, ∃ later ended,
    (pruneToolsList runtime run.session (run.id exchange) (run.result exchange)).run.Exec
      (eventsOf exchange (exchanged run.trace) ++ later) ended
  inForce : ∀ past step rest engine,
    run.trace = past ++ .inr step :: rest
    → step.event = ⟨.engine, engine⟩
    → run.activations.Serving (activated past) (run.process step.thread)
      ∧ engine = (run.activations.state (activated past)).engine

/-- A result that was served. -/
def Serves (runtime : Runtime) (run : ServiceRun ι κ) (exchange : κ) (fields : List (String × Json))
    : Prop :=
  (pruneToolsList runtime run.session (run.id exchange) (run.result exchange)).run.Exec
    (eventsOf exchange (exchanged run.trace)) (.ok (.result fields))

/-- Policies that are ever in force with one version have one content. -/
def SameContent (run : ServiceRun ι κ) : Prop :=
  ∀ past past' rest rest' process process',
    run.activations.trace = past ++ rest
    → run.activations.trace = past' ++ rest'
    → run.activations.Serving past process
    → run.activations.Serving past' process'
    → (run.activations.state past).engine.version = (run.activations.state past').engine.version
    → (run.activations.state past).engine.contentHash
      = (run.activations.state past').engine.contentHash

/-- Two results with one tag hold the same tools in the same order, if the tools of the lists that
they were made of are as described.
-/
def SameLists (runtime : Runtime) (run : ServiceRun ι κ) (described : Tool → Prop) : Prop :=
  ∀ exchange other fields fields' full listed,
    Serves runtime run exchange fields
    → Serves runtime run other fields'
    → listedTools (run.result exchange) = .ok full
    → listedTools (run.result other) = .ok listed
    → (∀ tool ∈ full, described tool)
    → (∀ tool ∈ listed, described tool)
    → etagOf fields = etagOf fields'
    → ∃ served served',
        toolsValue fields = .arr (served.map .obj)
        ∧ toolsValue fields' = .arr (served'.map .obj)
        ∧ SameTools served served'

/-- The files of the policies in force. -/
def files (run : ServiceRun ι κ) : Set Bytes :=
  {raw | ∃ past rest process,
    run.activations.trace = past ++ rest
    ∧ run.activations.Serving past process
    ∧ (run.activations.state past).engine.raw = raw}

/-- SHA-256 over canonical JSON tells the lists of the run apart, up to the order of keys. -/
def ListsApart (run : ServiceRun ι κ) : Prop :=
  ∀ exchange other hash,
    CanonicalJson.hash (toolsValue (run.result exchange)) = .ok hash
    → CanonicalJson.hash (toolsValue (run.result other)) = .ok hash
    → Json.Reordered (toolsValue (run.result exchange)) (toolsValue (run.result other))

section

variable {runtime : Runtime} {run : ServiceRun ι κ} {exchange other : κ}
  {fields : List (String × Json)}

/-- A served list was pruned to the policy in force at some point, whose version is in its tag. -/
theorem Proper.served (proper : run.Proper runtime) (serves : Serves runtime run exchange fields)
    : ∃ past rest schemaHash full,
        run.activations.trace = past ++ rest
        ∧ run.activations.Serving past (run.process exchange)
        ∧ CanonicalJson.hash (toolsValue (run.result exchange)) = .ok schemaHash
        ∧ listedTools (run.result exchange) = .ok full
        ∧ fields = servedFields (run.result exchange)
          (SchemaPruner.prune full run.session.identityId run.session.serverId
            (run.activations.state past).engine)
          (etag (run.activations.state past).engine.version schemaHash) := by
  obtain ⟨full, schemaHash, checks, engine, seq, listed, _, hashed, events, rfl⟩ :=
    exec_pruneToolsList_result serves
  obtain ⟨step, member, rfl, reads⟩ : ∃ step ∈ exchanged run.trace, step.thread = exchange
      ∧ step.event = ⟨.engine, engine⟩ :=
    step_of_eventsOf (by simp [events])
  obtain ⟨item, among, isRight⟩ := List.mem_filterMap.mp member
  obtain rfl := Sum.getRight?_eq_some_iff.mp isRight
  obtain ⟨past, rest, split⟩ := List.append_of_mem among
  obtain ⟨serving, rfl⟩ := proper.inForce past step rest engine split reads
  refine ⟨activated past, activated (.inr step :: rest), schemaHash, full, ?_, serving, hashed,
    listed, rfl⟩
  rw [← proper.merged, split]
  exact List.filterMap_append

end

/-- A served list was pruned to the policy in force, and that policy is recorded under the version in
the list's tag: one tag stands for one file, and for one list before pruning.
-/
theorem lists_of_etag (runtime : Runtime) (run : ServiceRun ι κ) (proper : run.Proper runtime)
    (filesApart : Set.InjOn contentHash run.files) (listsApart : run.ListsApart)
    : run.SameContent ∧ run.SameLists runtime Tool.Steady := by
  refine ⟨?_, ?_⟩
  · intro past past' rest rest' process process' whole whole' serving serving' same
    exact serving.content_of_version proper.activations whole serving' whole' same
  · intro exchange other fields fields' full listed serves serves' isFull isListed steady _ same
    obtain ⟨past, rest, hash, _, whole, serving, hashed, isFull', rfl⟩ := proper.served serves
    obtain ⟨past', rest', hash', _, whole', serving', hashed', isListed', rfl⟩ :=
      proper.served serves'
    cases isFull.symm.trans isFull'
    cases isListed.symm.trans isListed'
    rw [etagOf_servedFields, etagOf_servedFields] at same
    obtain ⟨version, rfl⟩ :=
      etag_inj (CanonicalJson.length_of_hash hashed)
        (CanonicalJson.length_of_hash hashed') (Json.str.inj same)
    obtain ⟨raw, loads⟩ := serving.loaded proper.activations whole
    obtain ⟨raw', loads'⟩ := serving'.loaded proper.activations whole'
    obtain ⟨_, _, _, _, hash, isRaw⟩ := loadBytes_ok loads
    obtain ⟨_, _, _, _, hash', isRaw'⟩ := loadBytes_ok loads'
    have content := serving.content_of_version proper.activations whole serving' whole' version
    have file : raw = raw' :=
      filesApart ⟨past, rest, _, whole, serving, isRaw⟩ ⟨past', rest', _, whole', serving', isRaw'⟩
        (hash.symm.trans (content.trans hash'))
    have format : (run.activations.reader (run.process exchange)).parse
        = (run.activations.reader (run.process other)).parse := rfl
    have grants := grants_of_loadBytes format loads (file ▸ loads')
    have tools := sameTools_of_results (listsApart exchange other _ hashed hashed') isFull isListed
    exact ⟨_, _, toolsValue_servedFields _ _ _, toolsValue_servedFields _ _ _,
      tools.prune steady grants⟩

end ServiceRun

-----------------------------------------------------------------------------------------
-- A tool whose name has keys
-----------------------------------------------------------------------------------------

namespace DriftDetector

/-- A check that finds nothing new: the tool is approved as it is, and every other one is known to be
gone.
-/
theorem exec_check_approved {runtime : Runtime} {serverId identityId hash : String} {tool : Tool}
    {row : ToolBaseline} {others : List ToolBaseline} (hashed : toolHash tool = .ok hash)
    (named : row.toolName = tool.name) (approved : row.approvedHash = hash)
    (unchanged : row.observedHash = none)
    (gone : ∀ other ∈ others,
      other.toolName ≠ tool.name ∧ other.observedHash = some ToolBaseline.removedSentinel)
    : (check runtime serverId [tool] identityId).run.Exec
        [
          ⟨.selectBaselines serverId, .ok (row :: others)⟩,
          ⟨.commit (Sweep.changes (row :: others) { rows := row :: others }), .ok ()⟩
        ]
        (.ok ()) := by
  have live : liveTools [tool] = [(tool.name, tool)] := rfl
  have seen : checkTool runtime serverId identityId [(tool.name, tool)] { rows := row :: others }
      tool.name tool = pure { rows := row :: others } := by
    have found : Sweep.row? { rows := row :: others } tool.name = some row := by
      simp [Sweep.row?, named]
    simp [checkTool, found, hashed, approved, unchanged]
  have known (name : String)
      : checkRemoved serverId identityId [(tool.name, tool)] { rows := row :: others } name
        = pure { rows := row :: others } := by
    unfold checkRemoved
    by_cases present : name = tool.name
    · simp [present, Dict.keys]
    · cases found : Sweep.row? { rows := row :: others } name with
      | none => simp [present, Dict.keys]
      | some other =>
          have isOther : other.toolName = name := by simpa using List.find?_some found
          rcases List.mem_cons.mp (List.mem_of_find?_eq_some found) with rfl | among
          · exact absurd (isOther.symm.trans named) present
          · simp [present, Dict.keys, (gone other among).2]
  have visited (names : List String)
      : names.foldlM (checkRemoved serverId identityId [(tool.name, tool)])
          { rows := row :: others }
        = pure { rows := row :: others } := by
    induction names with
    | nil => rfl
    | cons name rest ih => rw [List.foldlM_cons, known, pure_bind, ih]
  refine Coroutine.exec_bind_ok_iff.mpr ⟨[_], [_], row :: others, rfl, .ask (.done _), ?_⟩
  refine Coroutine.exec_bind_ok_iff.mpr ⟨[], [_], { rows := row :: others }, rfl, ?_, ?_⟩
  · unfold visit
    rw [live, List.foldlM_cons, seen, pure_bind, List.foldlM_nil, pure_bind, visited]
    exact .done _
  · exact Coroutine.exec_demand_iff.mpr ⟨.ok (), rfl, rfl⟩

end DriftDetector

namespace Interceptor

def listingOf (tool : Tool) : List (String × Json) :=
  [("tools", .arr [.obj tool])]

/-- What happens when a list of one approved tool is served. -/
def servedEvents (session : Session) (engine : PolicyEngine) (tool : Tool)
    (rows : List ToolBaseline)
    : List (Event Reply) :=
  let served := SchemaPruner.prune [tool] session.identityId session.serverId engine
  [
    ⟨.selectBaselines session.serverId, .ok rows⟩,
    ⟨.commit (DriftDetector.Sweep.changes rows { rows := rows }), .ok ()⟩,
    ⟨.cacheSet session.serverId [tool], .ok ()⟩,
    ⟨.engine, engine⟩,
    ⟨.write (toolsListEntry session.identityId session.serverId (served.map Tool.name)
      (prunedNames [tool] served)), .ok 1⟩
  ]

theorem exec_pruneToolsList_approved {runtime : Runtime} {session : Session} {id : RequestId}
    {engine : PolicyEngine} {tool : Tool} {hash schemaHash : String} {row : ToolBaseline}
    {others : List ToolBaseline} (hashed : DriftDetector.toolHash tool = .ok hash)
    (listed : CanonicalJson.hash (.arr [.obj tool]) = .ok schemaHash)
    (named : row.toolName = tool.name) (approved : row.approvedHash = hash)
    (unchanged : row.observedHash = none)
    (gone : ∀ other ∈ others,
      other.toolName ≠ tool.name ∧ other.observedHash = some ToolBaseline.removedSentinel)
    : (pruneToolsList runtime session id (listingOf tool)).run.Exec
        (servedEvents session engine tool (row :: others))
        (.ok (.result (servedFields (listingOf tool)
          (SchemaPruner.prune [tool] session.identityId session.serverId engine)
          (etag engine.version schemaHash)))) := by
  have checked : (DriftDetector.check runtime session.serverId [tool] session.identityId).run.Exec _
      (.ok ()) :=
    DriftDetector.exec_check_approved hashed named approved unchanged gone
  refine Coroutine.exec_attempt_bind_iff.mpr ⟨[_, _], [_, _, _], .ok [tool], rfl, ?_, ?_⟩
  · refine Coroutine.exec_ofExcept_bind_ok_iff.mpr ⟨[tool], rfl, ?_⟩
    exact Coroutine.exec_bind_ok_iff.mpr ⟨[_, _], [], (), rfl, checked, .done _⟩
  · refine Coroutine.exec_ofExcept_bind_ok_iff.mpr ⟨schemaHash, listed, ?_⟩
    refine Coroutine.exec_bind_ok_iff.mpr ⟨[_], [_, _], (), rfl, .ask (.done _), ?_⟩
    refine Coroutine.exec_ask_bind_iff.mpr ⟨engine, [_], rfl, ?_⟩
    exact Coroutine.exec_attempt_bind_iff.mpr ⟨[_], [], .ok 1, rfl, .ask (.done _), .done _⟩

end Interceptor

namespace ServiceRun

open Interceptor PolicyVersions PolicyLoading

/-- A tool whose name is an object, and the same one with the keys in the other order. -/
def keyedTool : Tool :=
  [("name", .obj [("a", .int 1), ("b", .int 2)])]

def turnedTool : Tool :=
  [("name", .obj [("b", .int 2), ("a", .int 1)])]

def plainTool : Tool :=
  [("name", .str "read")]

/-- The file of a policy that allows a tool by the text of its name. -/
@[irreducible]
def keyedFile : Bytes :=
  ("version: 1\nservers:\n  files: serve\nidentities:\n- id: alice\n  api_key_hash: sha256:0\n"
    ++ "  allowed_servers:\n  - server_id: files\n"
    ++ "    allowed_tools: [\"\x7b'a': 1, 'b': 2\x7d\", read]\n").toList.map
    (fun char => UInt8.ofNat char.toNat)

def keyedDocument : PolicyDocument where
  version := 1
  servers := [("files", "serve")]
  identities := [{
    id := "alice"
    apiKeyHash := some "sha256:0"
    allowedServers := [{ serverId := "files", allowedTools := ["\x7b'a': 1, 'b': 2\x7d", "read"] }]
  }]

def keyedEngine : PolicyEngine where
  policy := {
    version := 1
    servers := [("files", "serve")]
    identities := [{
      id := "alice"
      apiKeyHash := some "sha256:0"
      allowedServers := [{ serverId := "files", allowedTools := ["\x7b'a': 1, 'b': 2\x7d", "read"] }]
    }]
  }
  contentHash := contentHash keyedFile
  raw := keyedFile

theorem loadBytes_keyedFile {reader : PolicyReader}
    (parsed : reader.parse keyedFile = .ok keyedDocument)
    : loadBytes reader keyedFile = .ok keyedEngine := by
  unfold loadBytes
  rw [parsed]
  rfl

def keyedRow : PolicyVersion where
  version := 1
  contentHash := keyedEngine.contentHash
  activatedBy := "startup"

/-- A gateway that has started with that policy, and nothing else. -/
def started : ActivationRun Unit where
  start := {
    engine := keyedEngine
    versions := fun version => if version = 1 then some keyedRow else none
    snapshots := fun version => if version = 1 then some keyedFile else none
    activations := []
  }
  parse raw := if raw = keyedFile then .ok keyedDocument else .error .valueError
  environ _ _ := none
  request _ := .startup
  process _ := 0
  trace := (startupEvents keyedFile keyedEngine keyedRow 1).map (Stamped.mk () 0)

theorem eventsOf_started
    : eventsOf () started.trace = startupEvents keyedFile keyedEngine keyedRow 1 := by
  simp [started, eventsOf_stamped]

theorem started_boots
    : (started.program ()).Exec (startupEvents keyedFile keyedEngine keyedRow 1) true :=
  exec_isOk_iff.mpr ⟨.ok (), exec_startup_again (loadBytes_keyedFile (if_pos rfl)) rfl, rfl⟩

theorem started_proper : started.Proper := by
  refine ⟨?_, ?_, ?_, ?_, ?_⟩
  · intro thread
    refine ⟨[], true, ?_⟩
    rw [List.append_nil, eventsOf_started]
    exact started_boots
  · have served : Program.Served PolicyState.Serves started.start (started.trace.map Stamped.event) _ :=
      .cons ⟨trivial, rfl⟩ (.cons ⟨trivial, rfl⟩ (.cons ⟨rfl, rfl⟩ (.cons ⟨trivial, rfl⟩ (.nil _))))
    exact ActivationRun.allows_of_served served
  · exact List.pairwise_of_forall (fun _ _ => le_rfl)
  · intro thread other _ _ _
    rfl
  · intro past step rest _ other
    exact absurd rfl other

/-- Two lists of one tool each. -/
inductive Listing
  | first
  | second
  deriving DecidableEq

/-- The gateway serves one tool, and then another. -/
def listed (tool : Listing → Tool) (rows : Listing → List ToolBaseline)
    : ServiceRun Unit Listing where
  activations := started
  session := { identityId := "alice", serverId := "files" }
  id _ := .int 1
  result listing := listingOf (tool listing)
  process _ := 0
  trace :=
    started.trace.map .inl
      ++ ((servedEvents { identityId := "alice", serverId := "files" } keyedEngine (tool .first)
          (rows .first)).map (Stamped.mk Listing.first 1)
        ++ (servedEvents { identityId := "alice", serverId := "files" } keyedEngine (tool .second)
          (rows .second)).map (Stamped.mk Listing.second 2)).map .inr

/-- Each list's tool is approved as it is, and every other one is known to be gone. -/
structure Approved (tool : Listing → Tool) (rows : Listing → List ToolBaseline)
    (schemaHash : Listing → String)
    : Prop where
  hashed : ∀ listing, CanonicalJson.hash (.arr [.obj (tool listing)]) = .ok (schemaHash listing)
  rows : ∀ listing, ∃ row others hash,
    rows listing = row :: others
    ∧ DriftDetector.toolHash (tool listing) = .ok hash
    ∧ row.toolName = (tool listing).name
    ∧ row.approvedHash = hash
    ∧ row.observedHash = none
    ∧ ∀ other ∈ others,
        other.toolName ≠ (tool listing).name
        ∧ other.observedHash = some ToolBaseline.removedSentinel

section

variable {runtime : Runtime} {tool : Listing → Tool} {rows : Listing → List ToolBaseline}
  {schemaHash : Listing → String}

theorem activated_listed : activated (listed tool rows).trace = started.trace := by
  simp [activated, listed, Function.comp_def]

theorem eventsOf_listed (listing : Listing)
    : eventsOf listing (exchanged (listed tool rows).trace)
      = servedEvents { identityId := "alice", serverId := "files" } keyedEngine (tool listing)
        (rows listing) := by
  cases listing <;> simp [exchanged, listed, eventsOf_append, eventsOf_stamped, Function.comp_def]

/-- Each list is served, pruned to the policy that was started. -/
theorem listed_serves (approved : Approved tool rows schemaHash) (listing : Listing)
    : Serves runtime (listed tool rows) listing
        (servedFields (listingOf (tool listing))
          (SchemaPruner.prune [tool listing] "alice" "files" keyedEngine)
          (etag keyedEngine.version (schemaHash listing))) := by
  obtain ⟨row, others, hash, here, hashed, named, same, unchanged, gone⟩ := approved.rows listing
  unfold Serves
  rw [eventsOf_listed, here]
  exact exec_pruneToolsList_approved hashed (approved.hashed listing) named same unchanged gone

theorem engine_started (past : List (Stamped Unit VersionReply))
    (among : ∀ step ∈ past, step ∈ started.trace)
    : (started.state past).engine = keyedEngine := by
  induction past using List.reverseRecOn with
  | nil => rfl
  | append_singleton past step ih =>
      rw [ActivationRun.state_concat]
      have earlier := ih (fun other member => among other (List.mem_append_left _ member))
      have here := among step (by simp)
      simp only [started, startupEvents, List.map_cons, List.map_nil, List.mem_cons,
        List.not_mem_nil, or_false] at here
      rcases here with rfl | rfl | rfl | rfl
      · exact earlier
      · rfl
      · exact earlier
      · exact earlier

theorem listed_proper (approved : Approved tool rows schemaHash)
    : (listed tool rows).Proper runtime := by
  refine ⟨started_proper, activated_listed, ?_, ?_⟩
  · intro listing
    have served : Serves runtime (listed tool rows) listing _ := listed_serves approved listing
    unfold Serves at served
    exact ⟨[], _, by rwa [List.append_nil]⟩
  · intro past step rest engine whole reads
    have outside : (.inr step : Stamped Unit VersionReply ⊕ Stamped Listing Reply)
        ∉ started.trace.map Sum.inl := by
      intro member
      obtain ⟨_, _, impossible⟩ := List.mem_map.mp member
      cases impossible
    obtain ⟨between, rfl, split⟩ := place_in_second whole outside
    have past : activated (started.trace.map Sum.inl ++ between) = started.trace := by
      have none : activated between = [] := by
        refine List.filterMap_eq_nil_iff.mpr (fun item member => ?_)
        have among := List.mem_append_left (.inr step :: rest) member
        rw [← split] at among
        obtain ⟨_, _, rfl⟩ := List.mem_map.mp among
        rfl
      unfold activated at none ⊢
      rw [List.filterMap_append, none]
      simp [Function.comp_def]
    refine ⟨⟨⟨(), rfl, rfl, ?_⟩, fun _ _ => le_rfl⟩, ?_⟩
    · rw [past, eventsOf_started]
      exact started_boots
    · have here : Sum.inr step ∈ between ++ Sum.inr step :: rest := by simp
      rw [← split, List.mem_map] at here
      obtain ⟨same, among, rightStep⟩ := here
      obtain rfl := Sum.inr.inj rightStep
      have now : ((listed tool rows).activations.state started.trace).engine = keyedEngine :=
        engine_started started.trace (fun _ member => member)
      rw [past, now]
      simp only [servedEvents, List.map_cons, List.map_nil, List.mem_append, List.mem_cons,
        List.not_mem_nil, or_false] at among
      rcases among with (rfl | rfl | rfl | rfl | rfl) | (rfl | rfl | rfl | rfl | rfl) <;>
        cases reads <;> rfl

theorem files_listed : Set.InjOn contentHash (listed tool rows).files := by
  have only (raw : Bytes) (among : raw ∈ (listed tool rows).files) : raw = keyedFile := by
    obtain ⟨past, rest, process, whole, _, rfl⟩ := among
    have within : ∀ step ∈ past, step ∈ started.trace := by
      intro step member
      have inTrace : step ∈ (listed tool rows).activations.trace := whole ▸ List.mem_append_left _ member
      exact inTrace
    have now := engine_started past within
    exact congrArg PolicyEngine.raw now
  intro raw among other alsoAmong _
  rw [only raw among, only other alsoAmong]

end

/-- A row for an approved tool, and one for a tool that is gone. -/
def approvedRow (tool : Tool) (hash : String) : ToolBaseline :=
  ToolBaseline.firstSeen "files" tool.name tool hash false

def goneRow (tool : Tool) (hash : String) : ToolBaseline :=
  (approvedRow tool hash).removed

theorem listsApart_listed {tool : Listing → Tool} {rows : Listing → List ToolBaseline}
    (order : ∀ listing other : Listing, Json.Reordered (.obj (tool listing)) (.obj (tool other)))
    : (listed tool rows).ListsApart :=
  fun listing other _ _ _ => .arr (.cons (order listing other) .nil)

/-- One tool is served twice. -/
theorem lists_of_etag_plain
    : ∃ run : ServiceRun Unit Listing,
        (∀ listing, ∃ fields, Serves DriftDetector.calm run listing fields)
        ∧ run.SameContent
        ∧ run.SameLists DriftDetector.calm Tool.Steady := by
  obtain ⟨hash, hashed⟩ :=
    CanonicalJson.exists_hash (show CanonicalJson.finite (.obj plainTool) = true by decide)
  obtain ⟨schemaHash, listedHash⟩ :=
    CanonicalJson.exists_hash (show CanonicalJson.finite (.arr [.obj plainTool]) = true by decide)
  have approved : Approved (fun _ => plainTool) (fun _ => [approvedRow plainTool hash])
      (fun _ => schemaHash) :=
    ⟨fun _ => listedHash, fun _ => ⟨_, [], hash, rfl, hashed, rfl, rfl, rfl, by simp⟩⟩
  exact ⟨_, fun listing => ⟨_, listed_serves approved listing⟩,
    lists_of_etag _ _ (listed_proper approved) files_listed (listsApart_listed fun _ _ => .refl _)⟩

def twoOrders : Listing → Tool
  | .first => keyedTool
  | .second => turnedTool

theorem twoOrders_reordered (listing other : Listing)
    : Json.Reordered (.obj (twoOrders listing)) (.obj (twoOrders other)) := by
  have named {keys others : List (String × Json)} (order : keys.Perm others)
      (each : Json.ReorderedFields keys keys)
      : Json.Reordered (.obj [("name", .obj keys)]) (.obj [("name", .obj others)]) :=
    .obj (.cons (.obj each order) .nil) (List.Perm.refl _)
  cases listing with
  | first =>
      cases other with
      | first => exact .refl _
      | second => exact named (List.Perm.swap _ _ _) (.cons (.refl _) (.cons (.refl _) .nil))
  | second =>
      cases other with
      | first => exact named (List.Perm.swap _ _ _) (.cons (.refl _) (.cons (.refl _) .nil))
      | second => exact .refl _

/-- Both lists have one hash. -/
theorem twoOrders_hash {schemaHash : String}
    (hashed : CanonicalJson.hash (.arr [.obj keyedTool]) = .ok schemaHash) (listing : Listing)
    : CanonicalJson.hash (.arr [.obj (twoOrders listing)]) = .ok schemaHash := by
  obtain ⟨text, printed⟩ := CanonicalJson.exists_encode
    (show CanonicalJson.finite (.arr [.obj keyedTool]) = true by decide)
  have distinct : Json.DistinctKeys (.arr [.obj keyedTool]) := by
    simp [Json.DistinctKeys, Json.DistinctItems, Json.DistinctFields, Dict.keys, keyedTool]
  have same := CanonicalJson.encode_reordered
    (.arr (.cons (twoOrders_reordered .first listing) .nil)) distinct printed
  unfold CanonicalJson.hash at hashed ⊢
  rwa [same, ← printed]

/-- Two lists whose one tool has the keys of its name in a different order are served with one tag,
and the tool is only in one of them: its name is another text.
-/
theorem etag_of_two_orders
    : ¬ ∀ run : ServiceRun Unit Listing,
        run.Proper DriftDetector.calm
        → Set.InjOn contentHash run.files
        → run.ListsApart
        → run.SameContent ∧ run.SameLists DriftDetector.calm (fun _ => True) := by
  intro every
  obtain ⟨keyed, keyedHash⟩ :=
    CanonicalJson.exists_hash (show CanonicalJson.finite (.obj keyedTool) = true by decide)
  obtain ⟨turned, turnedHash⟩ :=
    CanonicalJson.exists_hash (show CanonicalJson.finite (.obj turnedTool) = true by decide)
  obtain ⟨schemaHash, listedHash⟩ :=
    CanonicalJson.exists_hash (show CanonicalJson.finite (.arr [.obj keyedTool]) = true by decide)
  have differ : keyedTool.name ≠ turnedTool.name := by decide +kernel
  have approved : Approved twoOrders
      (fun
        | .first => [approvedRow keyedTool keyed, goneRow turnedTool turned]
        | .second => [approvedRow turnedTool turned, goneRow keyedTool keyed])
      (fun _ => schemaHash) := by
    refine ⟨twoOrders_hash listedHash, fun listing => ?_⟩
    cases listing with
    | first => exact ⟨_, _, keyed, rfl, keyedHash, rfl, rfl, rfl, by
        simpa [goneRow, approvedRow, ToolBaseline.removed, ToolBaseline.firstSeen, twoOrders]
          using differ.symm⟩
    | second => exact ⟨_, _, turned, rfl, turnedHash, rfl, rfl, rfl, by
        simpa [goneRow, approvedRow, ToolBaseline.removed, ToolBaseline.firstSeen, twoOrders]
          using differ⟩
  obtain ⟨_, lists⟩ := every _ (listed_proper approved) files_listed
    (listsApart_listed twoOrders_reordered)
  obtain ⟨served, served', here, there, same⟩ := lists .first .second _ _ _ _
    (listed_serves approved .first) (listed_serves approved .second) rfl rfl (fun _ _ => trivial)
    (fun _ _ => trivial) (by rw [etagOf_servedFields, etagOf_servedFields])
  have allowed : SchemaPruner.prune [twoOrders .first] "alice" "files" keyedEngine = [keyedTool] := by
    rfl
  have refused : SchemaPruner.prune [twoOrders .second] "alice" "files" keyedEngine = [] := by
    rfl
  rw [toolsValue_servedFields, allowed] at here
  rw [toolsValue_servedFields, refused] at there
  have one := congrArg List.length (Json.arr.inj here)
  have none := congrArg List.length (Json.arr.inj there)
  have lengths := same.length_eq
  simp only [List.length_map, List.length_cons, List.length_nil] at one none
  omega

end ServiceRun

end SecureMcp
