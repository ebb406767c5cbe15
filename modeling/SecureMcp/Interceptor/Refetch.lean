import SecureMcp.Interceptor.Pruning
import SecureMcp.Library.Cooperative

/-! The requests that the gateway itself sends upstream have ids of their own, by which their
responses are kept from the client. Re-fetches and upstream messages are interleaved wherever
one of them awaits.
-/

namespace SecureMcp

open Interaction

namespace Interceptor

open Cooperative

/-- What the tasks of a session share: the futures of the gateway's own requests, each with the
message that settled it, the methods of the client's requests, and what the client was served.
-/
structure Tables where
  internal : List (String × Option ClientMessage) := []
  pending : List (RequestId × String) := []
  served : List ClientMessage := []

namespace Tables

def register (id : String) (tables : Tables) : Tables where
  __ := tables
  internal := Dict.set id none tables.internal

/-- A future that is done is left as it is. -/
def settle (id : String) (message : ClientMessage) (tables : Tables) : Tables where
  __ := tables
  internal :=
    if tables.internal.lookup id = some none then Dict.set id (some message) tables.internal
    else tables.internal

def forget (id : String) (tables : Tables) : Tables where
  __ := tables
  internal := Dict.erase id tables.internal

def takePending (id : RequestId) (tables : Tables) : Tables where
  __ := tables
  pending := Dict.erase id tables.pending

def serve (message : ClientMessage) (tables : Tables) : Tables where
  __ := tables
  served := tables.served ++ [message]

end Tables

/-- Where the tasks of a session await. -/
inductive Point
  | send (id : String)
  | settled (id : String)
  | outer (asked : Call)

abbrev Value : Point → Type
  | .send _ => Unit
  | .settled _ => List (String × Json)
  | .outer asked => Reply asked

abbrev TaskAsync (α : Type) : Type :=
  Routine Tables Value Exn α

/-- What the pipeline asks is awaited call by call; an await that raises is a cancelled one. -/
def awaitEach {α : Type} : Program Call Reply (Except Exn α) → TaskAsync α
  | .done outcome => .ended outcome
  | .ask asked next =>
      .await (.outer asked) (fun reply =>
        match reply with
        | .ok answer => awaitEach (next answer)
        | .error raised => .ended (.error raised))

/-- What becomes of a list that the gateway has requested. -/
def checkListed (runtime : Runtime) (session : Session) (result : List (String × Json))
    : Async (List Tool) := do
  let tools ← Coroutine.ofExcept (listedTools result)
  DriftDetector.check runtime session.serverId tools session.identityId
  SchemaCache.put session.serverId tools
  return tools

/-- `_refetch_tools` under the id that it draws: the id is forgotten however the rest ends. -/
def refetch (runtime : Runtime) (session : Session) (id : String) : TaskAsync Unit := do
  Routine.modify (Tables.register id)
  let _ ← Routine.attempt (do
    let _ ← Routine.awaiting (Point.send id)
    let result ← Routine.awaiting (Point.settled id)
    awaitEach (checkListed runtime session result).run)
  Routine.modify (Tables.forget id)

/-- A session's own calls are answered from its tables, where an upstream message settles the
future of the id that it asks about.
-/
def handle (message : ClientMessage)
    : Program SessionCall SessionReply (Except Exn Unit) → TaskAsync Unit
  | .done outcome => .ended outcome
  | .ask (.outer asked) next =>
      .await (.outer asked) (fun reply =>
        match reply with
        | .ok answer => handle message (next answer)
        | .error raised => .ended (.error raised))
  | .ask (.internal id) next =>
      .look (fun tables =>
        if (tables.internal.lookup id).isSome then
          .change (Tables.settle id message) (handle message (next true))
        else handle message (next false))
  | .ask (.takePending id) next =>
      .look (fun tables =>
        .change (Tables.takePending id) (handle message (next (tables.pending.lookup id))))
  | .ask (.serve served) next => .change (Tables.serve served) (handle message (next ()))

/-- A re-fetch by the id that it draws, or an upstream message by its place among all that
arrive.
-/
inductive Job
  | refetch (id : String)
  | upstream (arrival : Nat) (message : ClientMessage)
  deriving DecidableEq

def program (runtime : Runtime) (session : Session) : Job → TaskAsync Unit
  | .refetch id => refetch runtime session id
  | .upstream _ message => handle message (upstreamToClient runtime session message).run

/-- A re-fetch draws an id that no upstream message has had. -/
def Fresh (status : Job → Status Point) (id : String) : Prop :=
  ∀ arrival message,
    message.answers? = some (.str id) → status (.upstream arrival message) = .idle

/-- A future gives the result that it was settled with; every wait may also raise. -/
def Replies (tables : Tables) : (point : Point) → Except Exn (Value point) → Prop
  | .settled id, reply =>
      ∀ result, reply = .ok result →
        ∃ own, tables.internal.lookup id = some (some (.response own result))
  | _, _ => True

/-- What the client requests changes by itself. -/
def rules : Rules Job Tables Value Exn where
  begins status _ job := ∀ id, job = .refetch id → Fresh status id
  answers _ tables _ point reply := Replies tables point reply
  drifts before after := after.internal = before.internal ∧ after.served = before.served

/-- A session of which nothing has been asked yet. -/
def idle : Pool Job Tables Value Exn where
  tasks _ := none
  shared := {}

end Interceptor

end SecureMcp
