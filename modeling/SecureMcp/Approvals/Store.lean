import SecureMcp.Library.RowLocks
import SecureMcp.StepUp.Challenges

/-! Human approvals: a row for each held call, which an administrator grants and the retried call
consumes. A row is read with a lock, which the session keeps until it commits or closes.
-/

namespace SecureMcp

open Interaction

namespace Approvals

open StepUp (UuidHex)

inductive ApprovalStatus
  | pending
  | approved
  | expired
  deriving DecidableEq

def ApprovalStatus.value : ApprovalStatus → String
  | .pending => "pending"
  | .approved => "approved"
  | .expired => "expired"

/-- One row of the approvals table. -/
structure Approval where
  approvalId : String
  auditId : Nat
  key : CallKey
  argumentsHash : String
  expiresAt : Rat
  status : ApprovalStatus := .pending
  approvedBy : Option String := none
  approvedAt : Option Rat := none
  consumed : Bool := false

/-- The columns of a row that a session changed; the others are not written. -/
structure ApprovalUpdate where
  status : Option ApprovalStatus := none
  approvedBy : Option String := none
  approvedAt : Option Rat := none
  consumed : Option Bool := none

def Approval.updated (row : Approval) (columns : ApprovalUpdate) : Approval where
  approvalId := row.approvalId
  auditId := row.auditId
  key := row.key
  argumentsHash := row.argumentsHash
  expiresAt := row.expiresAt
  status := columns.status.getD row.status
  approvedBy := columns.approvedBy.or row.approvedBy
  approvedAt := columns.approvedAt.or row.approvedAt
  consumed := columns.consumed.getD row.consumed

/-- One request to the clock, to the source of fresh ids, to the audit log or to the table.
Adding a row commits it.
-/
inductive ApprovalCall
  | time
  | uuid
  | write (entry : AuditEntry)
  | insert (row : Approval)
  | selectForUpdate (approvalId : String)
  | commit (approvalId : String) (columns : ApprovalUpdate)
  | close

abbrev ApprovalReply : ApprovalCall → Type
  | .time => Rat
  | .uuid => UuidHex
  | .write _ => Except Exn Nat
  | .insert _ => Except Exn Unit
  | .selectForUpdate _ => Except Exn (Option Approval)
  | .commit _ _ => Except Exn Unit
  | .close => Unit

abbrev ApprovalAsync (α : Type) : Type := Coroutine ApprovalCall ApprovalReply Exn α

/-- The body of a session, which is closed however the body ends. -/
def withSession {α : Type} (body : ApprovalAsync α) : ApprovalAsync α := do
  let result ← (Coroutine.attempt body : ApprovalAsync (Except Exn α))
  Coroutine.ask ApprovalCall.close
  Coroutine.ofExcept result

/-- Whether an approval's time has run out. -/
def expired (row : Approval) : ApprovalAsync Bool := do
  let now ← (Coroutine.ask ApprovalCall.time : ApprovalAsync Rat)
  return row.expiresAt < now

/-- Store a pending approval under a fresh id. -/
def create (settings : Settings) (key : CallKey) (argumentsHash : String) (auditId : Nat)
    : ApprovalAsync String := do
  let approvalId ← (Coroutine.ask ApprovalCall.uuid : ApprovalAsync UuidHex)
  withSession do
    let now ← (Coroutine.ask ApprovalCall.time : ApprovalAsync Rat)
    Coroutine.demand (.insert {
      approvalId := approvalId.text
      auditId := auditId
      key := key
      argumentsHash := argumentsHash
      expiresAt := now + settings.approvalTtlSeconds
    }) id
  return approvalId.text

/-- The row of an approval that has expired is recorded before the change is committed. -/
def lapse (row : Approval) (approvalId : String) : ApprovalAsync Unit := do
  let _ ← Coroutine.demand (.write (ApprovalStore.expiredEntry row.key approvalId)) id
  Coroutine.demand (.commit approvalId { status := some .expired }) id

/-- Grant a pending and unexpired approval: the number of its audit row, and what it is for. -/
def approve (approvalId approvedBy : String) : ApprovalAsync (Nat × CallKey) :=
  withSession do
    match ← Coroutine.demand (.selectForUpdate approvalId) id with
    | none => throw (.lookupError "unknown approval id")
    | some row =>
        let lapsed ← if row.status = .pending then expired row else pure false
        if lapsed then
          lapse row approvalId
          throw (.lookupError "approval has expired")
        else if row.status ≠ .pending then
          throw (.lookupError ("approval is " ++ row.status.value ++ ", not pending"))
        else
          let approvedAt ← (Coroutine.ask ApprovalCall.time : ApprovalAsync Rat)
          let seq ← Coroutine.demand
            (.write (ApprovalStore.approvedEntry row.key approvalId approvedBy)) id
          Coroutine.demand (.commit approvalId {
            status := some .approved
            approvedBy := some approvedBy
            approvedAt := some approvedAt
          }) id
          return (seq, row.key)

/-- Consume an approval: the kind and the reason of a denial, or `none`. -/
def redeem (approvalId : String) (key : CallKey) (argumentsHash : String)
    : ApprovalAsync (Option (EventType × String)) :=
  withSession do
    match ← Coroutine.demand (.selectForUpdate approvalId) id with
    | none => return some (.denyApprovalMismatch, "unknown approval id")
    | some row =>
        if row.consumed then return some (.denyReplay, "approval has already been used")
        else if ← expired row then
          if row.status = .pending then
            Coroutine.demand (.commit approvalId { status := some .expired }) id
          return some (.expired, "approval has expired")
        else if row.status ≠ .approved then
          return some (.denyApprovalMismatch, "approval has not been granted")
        else if row.key ≠ key then
          return some (.denyApprovalMismatch,
            "approval was granted to a different identity, server, or tool")
        else if row.argumentsHash ≠ argumentsHash then
          return some (.denyApprovalMismatch,
            "arguments differ from the ones that were approved")
        else
          Coroutine.demand (.commit approvalId { consumed := some true }) id
          return none

/-- A call of the approval store. -/
inductive Request
  | create (key : CallKey) (argumentsHash : String) (auditId : Nat)
  | approve (approvalId approvedBy : String)
  | redeem (approvalId : String) (key : CallKey) (argumentsHash : String)

inductive Answer
  | created (approvalId : String)
  | approved (seq : Nat) (key : CallKey)
  | redeemed (denial : Option (EventType × String))

def handle (settings : Settings) : Request → ApprovalAsync Answer
  | .create key argumentsHash auditId => do
      return .created (← create settings key argumentsHash auditId)
  | .approve approvalId approvedBy => do
      let granted ← approve approvalId approvedBy
      return .approved granted.1 granted.2
  | .redeem approvalId key argumentsHash => do
      return .redeemed (← redeem approvalId key argumentsHash)

/-- The approvals table, with the rows that threads have locked. -/
abbrev ApprovalTable (ι : Type) : Type := RowLocks ι String Approval

/-- How the clock, the audit log and the table answer. A row is selected or changed when no other
session holds it; a change that fails is not made.
-/
def ApprovalTable.Serves {ι : Type} [DecidableEq ι] (table : ApprovalTable ι)
    (step : Stamped ι ApprovalReply) (after : ApprovalTable ι)
    : Prop :=
  match step.event with
  | ⟨.time, read⟩ => read = step.instant ∧ after = table
  | ⟨.uuid, _⟩ => after = table
  | ⟨.write _, _⟩ => after = table
  | ⟨.insert row, .ok ()⟩ =>
      table.rows row.approvalId = none ∧ after = table.put row.approvalId row
  | ⟨.insert _, .error _⟩ => after = table
  | ⟨.selectForUpdate approvalId, .ok (some row)⟩ =>
      table.rows approvalId = some row
      ∧ table.Free step.thread approvalId
      ∧ after = table.lock step.thread approvalId
  | ⟨.selectForUpdate approvalId, .ok none⟩ => table.rows approvalId = none ∧ after = table
  | ⟨.selectForUpdate _, .error _⟩ => after = table
  | ⟨.commit approvalId columns, .ok ()⟩ =>
      table.Free step.thread approvalId
      ∧ ∃ row,
          table.rows approvalId = some row
          ∧ after = (table.put approvalId (row.updated columns)).release step.thread
  | ⟨.commit _ _, .error _⟩ => after = table
  | ⟨.close, _⟩ => after = table.release step.thread

end Approvals

end SecureMcp
