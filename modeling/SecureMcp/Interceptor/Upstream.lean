import SecureMcp.Interceptor.Calls
import SecureMcp.Library.Handlers

/-! What the upstream server sends: a tools list is checked for drift, and pruned to what the policy
allows, before the client is served it. Which messages are lists is known from the table of the
requests that the client sent.
-/

namespace SecureMcp

open Interaction

/-- The tools that an identity may call on a server. -/
def SchemaPruner.prune (tools : List Tool) (identityId serverId : String) (engine : PolicyEngine)
    : List Tool :=
  tools.filter (fun tool => engine.isAllowed identityId serverId tool.name)

namespace Interceptor

/-- What the client is served in place of a result. -/
inductive Served
  | result (fields : List (String × Json))
  | error (response : ErrorResponse)

/-- A list whose drift could not be checked, or that could not be recorded, is withheld. -/
def withheld (id : RequestId) (message : String) : Served :=
  .error { requestId := id, code := auditUnavailableCode, message := message, data := none }

/-- The version in force, and the hash of the list before pruning. -/
def etag (version : Int) (schemaHash : String) : String :=
  toString version ++ "-" ++ schemaHash

/-- A result with its pruned list and the tag. -/
def servedFields (result : List (String × Json)) (served : List Tool) (tag : String)
    : List (String × Json) :=
  Dict.set "_meta" (.obj [("etag", .str tag)])
    (Dict.set "tools" (.arr (served.map .obj)) result)

/-- The raw value of a result's `tools`. -/
def toolsValue (result : List (String × Json)) : Json :=
  (result.lookup "tools").getD (.arr [])

/-- The names of the tools that are not served, by Python's equality. -/
def prunedNames (full served : List Tool) : List String :=
  (full.filter (fun tool =>
    !served.any (fun other => Json.pyEq (.obj tool) (.obj other)))).map Tool.name

/-- The policy is read once: nothing is awaited between the pruning and the tag. -/
def pruneToolsList (runtime : Runtime) (session : Session) (id : RequestId)
    (result : List (String × Json))
    : Async Served := do
  let checked ← Coroutine.attempt (do
    let full ← (Coroutine.ofExcept (listedTools result) : Async (List Tool))
    DriftDetector.check runtime session.serverId full session.identityId
    return full)
  match checked with
  | .error _ => return withheld id "drift check unavailable; tools/list denied"
  | .ok full => do
      let schemaHash ← Coroutine.ofExcept (CanonicalJson.hash (toolsValue result))
      SchemaCache.put session.serverId full
      let engine ← currentEngine
      let served := SchemaPruner.prune full session.identityId session.serverId engine
      let written ← (Coroutine.attempt (AuditWriter.write
          (toolsListEntry session.identityId session.serverId (served.map Tool.name)
            (prunedNames full served)))
        : Async (Except Exn Nat))
      match written with
      | .error _ => return withheld id "audit log unavailable; tools/list denied"
      | .ok _ => return .result (servedFields result served (etag engine.version schemaHash))

theorem toolsValue_servedFields (result : List (String × Json)) (served : List Tool) (tag : String)
    : toolsValue (servedFields result served tag) = .arr (served.map .obj) := by
  simp [toolsValue, servedFields]

section

variable {runtime : Runtime} {session : Session} {id : RequestId} {result : List (String × Json)}
  {events : List (Event Reply)} {fields : List (String × Json)}

/-- A list that is served was checked, and it is pruned to the policy that was in force after it was
put into the cache.
-/
theorem exec_pruneToolsList_result
    (whole : (pruneToolsList runtime session id result).run.Exec events (.ok (.result fields)))
    : ∃ full schemaHash checks engine seq,
        listedTools result = .ok full
        ∧ (DriftDetector.check runtime session.serverId full session.identityId).run.Exec checks
          (.ok ())
        ∧ CanonicalJson.hash (toolsValue result) = .ok schemaHash
        ∧ events = checks ++ [
          ⟨.cacheSet session.serverId full, .ok ()⟩,
          ⟨.engine, engine⟩,
          ⟨.write (toolsListEntry session.identityId session.serverId
            ((SchemaPruner.prune full session.identityId session.serverId engine).map Tool.name)
            (prunedNames full
              (SchemaPruner.prune full session.identityId session.serverId engine))), .ok seq⟩
        ]
        ∧ fields = servedFields result
          (SchemaPruner.prune full session.identityId session.serverId engine)
          (etag engine.version schemaHash) := by
  obtain ⟨first, rest, checked, rfl, checking, serving⟩ := Coroutine.exec_attempt_bind_iff.mp whole
  cases checked with
  | error exn =>
      obtain ⟨_, impossible⟩ := Program.exec_done_iff.mp serving
      cases impossible
  | ok full =>
      obtain ⟨tools, listed, checking⟩ := Coroutine.exec_ofExcept_bind_ok_iff.mp checking
      obtain ⟨checks, _, _, rfl, checks', ended⟩ := Coroutine.exec_bind_ok_iff.mp checking
      obtain ⟨rfl, same⟩ := Program.exec_done_iff.mp ended
      cases same
      obtain ⟨schemaHash, hashed, caching⟩ := Coroutine.exec_ofExcept_bind_ok_iff.mp serving
      obtain ⟨stored, _, _, rfl, putting, reading⟩ := Coroutine.exec_bind_ok_iff.mp caching
      obtain ⟨reply, rfl, answered⟩ := Coroutine.exec_demand_iff.mp putting
      cases (answered : reply = .ok ())
      obtain ⟨engine, _, rfl, auditing⟩ := Coroutine.exec_ask_bind_iff.mp reading
      obtain ⟨_, _, written, rfl, writing, ended⟩ := Coroutine.exec_attempt_bind_iff.mp auditing
      obtain ⟨reply, rfl, answered⟩ := Coroutine.exec_demand_iff.mp writing
      cases (answered : reply = written)
      cases reply with
      | error exn =>
          obtain ⟨_, impossible⟩ := Program.exec_done_iff.mp ended
          cases impossible
      | ok seq =>
          obtain ⟨rfl, same⟩ := Program.exec_done_iff.mp ended
          cases same
          exact ⟨full, schemaHash, checks, engine, seq, listed, checks', hashed, by simp, rfl⟩

end

-----------------------------------------------------------------------------------------
-- The pumps of a session
-----------------------------------------------------------------------------------------

/-- What a session asks: what its pipeline asks, its own tables, and to send the client a message.
-/
inductive SessionCall
  | outer (asked : Call)
  | internal (id : String)
  | takePending (id : RequestId)
  | serve (message : ClientMessage)

abbrev SessionReply : SessionCall → Type
  | .outer asked => Reply asked
  | .internal _ => Bool
  | .takePending _ => Option String
  | .serve _ => Unit

abbrev SessionAsync (α : Type) : Type := Coroutine SessionCall SessionReply Exn α

/-- The pipeline's own calls, one by one. -/
def passOuter (asked : Call) : Program SessionCall SessionReply (Reply asked) :=
  .ask (.outer asked) .done

def ofPipeline {α : Type} (body : Async α) : SessionAsync α :=
  ExceptT.mk (body.run.expand passOuter)

/-- Whether a response is to a request of the gateway's own; their ids are strings. -/
def isInternal : RequestId → SessionAsync Bool
  | .str text => Coroutine.ask (SessionCall.internal text)
  | .int _ => pure false

def ErrorResponse.toMessage (response : ErrorResponse) : ClientMessage :=
  .error response.requestId response.code response.message

def Served.toMessage (id : RequestId) : Served → ClientMessage
  | .result fields => .response id fields
  | .error response => response.toMessage

/-- Dispatch of an upstream message: what to serve the client, if anything. -/
def onUpstreamMessage (runtime : Runtime) (session : Session) (message : ClientMessage)
    : SessionAsync (Option ClientMessage) := do
  match message with
  | .response id result =>
      if ← isInternal id then return none
      else
        let method ← Coroutine.ask (SessionCall.takePending id)
        if method = some "tools/list" then
          let served ← ofPipeline (pruneToolsList runtime session id result)
          return some (served.toMessage id)
        else return some message
  | .error id _ _ =>
      if ← isInternal id then return none
      else
        let _ ← Coroutine.ask (SessionCall.takePending id)
        return some message
  | message => return some message

/-- One message of the client: it is answered, or forwarded. -/
def clientToUpstream (runtime : Runtime) (session : Session) (message : ClientMessage)
    : SessionAsync Unit := do
  match ← ofPipeline (onClientMessage runtime session message) with
  | .respond response => Coroutine.ask (SessionCall.serve response.toMessage)
  | .forward _ => return ()

/-- One message of the upstream server. -/
def upstreamToClient (runtime : Runtime) (session : Session) (message : ClientMessage)
    : SessionAsync Unit := do
  match ← onUpstreamMessage runtime session message with
  | some served => Coroutine.ask (SessionCall.serve served)
  | none => return ()

end Interceptor

end SecureMcp
