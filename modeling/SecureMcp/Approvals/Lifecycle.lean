import SecureMcp.Approvals.SingleUse
import SecureMcp.Library.Handlers
import SecureMcp.Policy.Activations
import SecureMcp.Risk.Engine

/-! The life of an approval among all that the gateway does: calls are held and retried, an
administrator grants an approval and thereby takes a step of calibration, and a process that starts
expires what nobody granted in time.
-/

namespace SecureMcp

open Interaction

namespace Approvals

open PolicyVersions (ActivationRequest HttpFailure PolicyState VersionCall VersionReply requireAdmin
  storedEngine)
open Risk (Redis RiskCall RiskReply)

/-- One request to the policy, to the approvals, to Redis, or of the sweep at startup, which selects
pending rows without a lock and changes them in one transaction.
-/
inductive LifecycleCall
  | policy (call : VersionCall)
  | store (call : ApprovalCall)
  | risk (call : RiskCall)
  | selectStale (now : Rat)
  | commitStale (approvalIds : List String)

abbrev LifecycleReply : LifecycleCall → Type
  | .policy call => VersionReply call
  | .store call => ApprovalReply call
  | .risk call => RiskReply call
  | .selectStale _ => Except Exn (List Approval)
  | .commitStale _ => Except Exn Unit

abbrev LifecycleAsync (ε α : Type) : Type := Coroutine LifecycleCall LifecycleReply ε α

def passPolicy (call : VersionCall) : Program LifecycleCall LifecycleReply (VersionReply call) :=
  .ask (.policy call) .done

def passStore (call : ApprovalCall) : Program LifecycleCall LifecycleReply (ApprovalReply call) :=
  .ask (.store call) .done

def passCommand (call : RiskCall) : Program LifecycleCall LifecycleReply (RiskReply call) :=
  .ask (.risk call) .done

def onPolicy {ε α : Type} (body : Coroutine VersionCall VersionReply ε α) : LifecycleAsync ε α :=
  ExceptT.mk (body.run.expand passPolicy)

def onStore {α : Type} (body : ApprovalAsync α) : LifecycleAsync Exn α :=
  ExceptT.mk (body.run.expand passStore)

def onRedis {α : Type} (body : Risk.RiskAsync α) : LifecycleAsync Exn α :=
  ExceptT.mk (body.run.expand passCommand)

/-- Record each row that is about to expire. -/
def auditStale : List Approval → LifecycleAsync Exn Unit
  | [] => return ()
  | row :: rest => do
      let _ ← onStore (Coroutine.demand
        (.write (ApprovalStore.expiredEntry row.key row.approvalId)) id)
      auditStale rest

/-- Expire the pending rows whose time ran out while nobody acted. The session locks nothing until it
commits, and if it raises it leaves nothing but audit rows.
-/
def expireStale : LifecycleAsync Exn Unit := do
  let now ← (Coroutine.ask (LifecycleCall.store .time) : LifecycleAsync Exn Rat)
  let rows ← Coroutine.demand (.selectStale now) id
  auditStale rows
  Coroutine.demand (.commitStale (rows.map Approval.approvalId)) id

/-- What a grant that raised is answered with. -/
def grantFailure : Exn → HttpFailure
  | .lookupError message => .http 404 message
  | exn => .raised exn

/-- The grant of an approval by an administrator, with a step of calibration for what it is for. -/
def approveCall (settings : RiskSettings) (apiKey : Option String) (approvalId : String)
    : LifecycleAsync HttpFailure Decision := do
  let identityId ← onPolicy (requireAdmin apiKey)
  let granted ← Coroutine.mapStop grantFailure (onStore (approve approvalId identityId))
  Coroutine.mapStop HttpFailure.raised (onRedis (Risk.applyDecay settings granted.2))
  let engine ← onPolicy storedEngine
  return {
    decision := .allow
    eventType := .approved
    reason := "call to " ++ pyRepr granted.2.toolName ++ " approved by " ++ pyRepr identityId
    matchedRules := ["admin_approval"]
    policyVersion := engine.version
    auditId := some (toString granted.1)
    approvalId := some approvalId
  }

/-- What the gateway does at the same time: calls are held, scored, denied and retried, approvals
granted and expired, and policies activated.
-/
inductive LifecycleRequest
  | hold (key : CallKey) (argumentsHash : String) (auditId : Nat)
  | redeem (approvalId : String) (key : CallKey) (argumentsHash : String)
  | approveCall (apiKey : Option String) (approvalId : String)
  | expireStale
  | score (key : CallKey) (arguments : Json) (policy : RiskPolicy) (dryRun : Bool)
  | recordDenial (identityId : String)
  | activation (request : ActivationRequest)

/-- What the requests of a run share. -/
structure LifecycleSettings where
  settings : Settings := {}
  risk : RiskSettings := {}
  stdlib : Stdlib
  reader : PolicyReader

/-- What is done about a request; the reply is whether it ended without an error. -/
def LifecycleRequest.program (config : LifecycleSettings)
    : LifecycleRequest → Program LifecycleCall LifecycleReply Bool
  | .hold key argumentsHash auditId =>
      (onStore (create config.settings key argumentsHash auditId)).run.bind
        (fun ended => .done ended.isOk)
  | .redeem approvalId key argumentsHash =>
      (onStore (Approvals.redeem approvalId key argumentsHash)).run.bind (fun ended => .done ended.isOk)
  | .approveCall apiKey approvalId =>
      (Approvals.approveCall config.risk apiKey approvalId).run.bind (fun ended => .done ended.isOk)
  | .expireStale => Approvals.expireStale.run.bind (fun ended => .done ended.isOk)
  | .score key arguments policy dryRun =>
      (onRedis (Risk.score config.risk config.stdlib key arguments policy dryRun)).run.bind
        (fun ended => .done ended.isOk)
  | .recordDenial identityId =>
      (onRedis (Risk.recordDenial config.risk identityId)).run.bind (fun ended => .done ended.isOk)
  | .activation request => (request.program config.reader).expand passPolicy

/-- The policy in force, the approvals and the integers of Redis. -/
structure LifecycleState (ι : Type) where
  policy : PolicyState
  approvals : ApprovalTable ι
  redis : Redis

/-- The rows with some of them expired. -/
def ApprovalTable.expireAll {ι : Type} (table : ApprovalTable ι) (approvalIds : List String)
    : ApprovalTable ι where
  rows approvalId :=
    if approvalId ∈ approvalIds then
      (table.rows approvalId).map (fun row => row.updated { status := some .expired })
    else table.rows approvalId
  holder := table.holder

/-- How the policy, the table and Redis answer. The sweep sees the rows as they were last committed,
and waits for those that it changes.
-/
def LifecycleState.Serves {ι : Type} [DecidableEq ι] (state : LifecycleState ι)
    (step : Stamped ι LifecycleReply) (after : LifecycleState ι)
    : Prop :=
  match step.event with
  | ⟨.policy call, reply⟩ =>
      state.policy.Allows ⟨call, reply⟩
      ∧ after = { state with policy := state.policy.apply ⟨call, reply⟩ }
  | ⟨.store call, reply⟩ =>
      ∃ approvals,
        state.approvals.Serves ⟨step.thread, step.instant, ⟨call, reply⟩⟩ approvals
        ∧ after = { state with approvals := approvals }
  | ⟨.risk call, reply⟩ =>
      state.redis.Answers step.instant call reply
      ∧ after = { state with redis := state.redis.effect step.instant call reply }
  | ⟨.selectStale now, reply⟩ =>
      (∀ rows,
        reply = .ok rows
        → ∀ row,
            row ∈ rows
            ↔ state.approvals.rows row.approvalId = some row
              ∧ row.status = .pending
              ∧ row.expiresAt < now)
      ∧ after = state
  | ⟨.commitStale approvalIds, .ok ()⟩ =>
      (∀ approvalId ∈ approvalIds, state.approvals.Free step.thread approvalId)
      ∧ after = { state with approvals := state.approvals.expireAll approvalIds }
  | ⟨.commitStale _, .error _⟩ => after = state

end Approvals

end SecureMcp
