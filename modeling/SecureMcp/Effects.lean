import SecureMcp.Audit.Entries
import SecureMcp.Drift.Classify
import SecureMcp.Library.Program
import SecureMcp.Policy.Engine

/-! What the gateway's code asks of the rest of the world: the policy in force, the clock,
Redis, Postgres, the audit writer and the upstream server.
-/

namespace SecureMcp

open Interaction

/-- One row of the drift detector's table. -/
structure ToolBaseline where
  serverId : String
  toolName : String
  approvedSchema : Tool
  approvedHash : String
  blocked : Bool := false
  observedSchema : Option Tool := none
  observedHash : Option String := none
  suspicious : Bool := false
  deriving DecidableEq

/-- The columns of a row that a transaction changed; the others are not written. -/
structure BaselineUpdate where
  serverId : String
  toolName : String
  approvedSchema : Option Tool
  approvedHash : Option String
  blocked : Option Bool
  observedSchema : Option (Option Tool)
  observedHash : Option (Option String)
  suspicious : Option Bool

/-- The id of a JSON-RPC request. -/
inductive RequestId
  | int (value : Int)
  | str (text : String)
  deriving DecidableEq

inductive BaselineChange
  | update (columns : BaselineUpdate)
  | insert (row : ToolBaseline)

/-- One request to the world outside a component. -/
inductive Call
  | engine
  | time
  | utcHour
  | setNonce (nonce : String) (seconds : Int)
  | redeemChallenge (challengeId : String) (key : CallKey) (argumentsHash : String)
    (proof : Json) (totpSecret : String)
  | createChallenge (key : CallKey) (argumentsHash : String) (auditId : Nat)
  | redeemApproval (approvalId : String) (key : CallKey) (argumentsHash : String)
  | createApproval (key : CallKey) (argumentsHash : String) (auditId : Nat)
  | score (key : CallKey) (arguments : Json) (risk : RiskPolicy)
  | recordDenial (identityId : String)
  | cacheGet (serverId : String)
  | cacheSet (serverId : String) (tools : List Tool)
  | cacheDelete (serverId : String)
  | isBlocked (serverId toolName : String)
  | selectBaselines (serverId : String)
  | selectBaseline (serverId toolName : String)
  | commit (changes : List BaselineChange)
  | write (entry : AuditEntry)
  | listTools
  | setPending (id : RequestId) (method : String)
  | popPending (id : RequestId)

/-- What each request is answered with. Whatever crosses a process boundary may raise. -/
abbrev Reply : Call → Type
  | .engine => PolicyEngine
  | .time => Rat
  | .utcHour => Int
  | .setNonce _ _ => Except Exn Bool
  | .redeemChallenge _ _ _ _ _ => Except Exn (Option String)
  | .createChallenge _ _ _ => Except Exn String
  | .redeemApproval _ _ _ => Except Exn (Option (EventType × String))
  | .createApproval _ _ _ => Except Exn String
  | .score _ _ _ => Except Exn (Int × List RiskFactor)
  | .recordDenial _ => Except Exn Unit
  | .cacheGet _ => Except Exn (Option (List Tool))
  | .cacheSet _ _ => Except Exn Unit
  | .cacheDelete _ => Except Exn Unit
  | .isBlocked _ _ => Except Exn Bool
  | .selectBaselines _ => Except Exn (List ToolBaseline)
  | .selectBaseline _ _ => Except Exn (Option ToolBaseline)
  | .commit _ => Except Exn Unit
  | .write _ => Except Exn Nat
  | .listTools => Except Exn (List (String × Json))
  | .setPending _ _ => Unit
  | .popPending _ => Unit

/-- An asynchronous function that either returns or raises. -/
abbrev Async (α : Type) : Type := Coroutine Call Reply Exn α

def SchemaCache.get (serverId : String) : Async (Option (List Tool)) :=
  Coroutine.demand (.cacheGet serverId) id

def SchemaCache.put (serverId : String) (tools : List Tool) : Async Unit :=
  Coroutine.demand (.cacheSet serverId tools) id

def SchemaCache.invalidate (serverId : String) : Async Unit :=
  Coroutine.demand (.cacheDelete serverId) id

def ChallengeStore.redeem (challengeId : String) (key : CallKey) (argumentsHash : String)
    (proof : Json) (totpSecret : String)
    : Async (Option String) :=
  Coroutine.demand (.redeemChallenge challengeId key argumentsHash proof totpSecret) id

def ChallengeStore.create (key : CallKey) (argumentsHash : String) (auditId : Nat)
    : Async String :=
  Coroutine.demand (.createChallenge key argumentsHash auditId) id

def ApprovalStore.redeem (approvalId : String) (key : CallKey) (argumentsHash : String)
    : Async (Option (EventType × String)) :=
  Coroutine.demand (.redeemApproval approvalId key argumentsHash) id

def ApprovalStore.create (key : CallKey) (argumentsHash : String) (auditId : Nat)
    : Async String :=
  Coroutine.demand (.createApproval key argumentsHash auditId) id

def RiskEngine.score (key : CallKey) (arguments : Json) (risk : RiskPolicy)
    : Async (Int × List RiskFactor) :=
  Coroutine.demand (.score key arguments risk) id

def RiskEngine.recordDenial (identityId : String) : Async Unit :=
  Coroutine.demand (.recordDenial identityId) id

/-- Append a row to the audit log and return its number. -/
def AuditWriter.write (entry : AuditEntry) : Async Nat :=
  Coroutine.demand (.write entry) id

/-- Append a row under a condition. -/
def AuditWriter.writeIf (condition : Bool) (entry : AuditEntry) : Async Unit :=
  if condition then AuditWriter.write entry >>= fun _ => pure () else pure ()

end SecureMcp
