import SecureMcp.Effects
import SecureMcp.Policy.Loading

/-! The record of policy activations: a row and a snapshot of the file for each version, and the
reloads, rollbacks and startups that leave them.
-/

namespace SecureMcp

open Interaction

namespace PolicyVersions

open PolicyLoading

/-- A row of the table of recorded versions. -/
structure PolicyVersion where
  version : Int
  contentHash : String
  activatedBy : String
  deriving DecidableEq

/-- How a change ended: one that raised may have been made all the same. -/
inductive Written (α : Type)
  | stored (value : α)
  | lost (exn : Exn)
  | failed (exn : Exn)

def Written.result {α : Type} : Written α → Except Exn α
  | .stored value => .ok value
  | .lost exn | .failed exn => .error exn

/-- One request to the policy in force, the file system, the table of versions, the counter of
failed logins or the audit log.
-/
inductive VersionCall
  | engine
  | swap (engine : PolicyEngine)
  | readPolicyFile
  | readSnapshot (version : Int)
  | writeSnapshot (version : Int) (raw : Bytes)
  | getVersion (version : Int)
  | maxVersion
  | addVersion (row : PolicyVersion)
  | refreshVersion (version : Int) (activatedBy : String)
  | countFailure
  | write (entry : AuditEntry)

/-- A snapshot that does not exist is read as `none`. One that could not be written holds what was
left of the attempt.
-/
abbrev VersionReply : VersionCall → Type
  | .engine => PolicyEngine
  | .swap _ => Unit
  | .readPolicyFile => Except Exn Bytes
  | .readSnapshot _ => Except Exn (Option Bytes)
  | .writeSnapshot _ _ => Except (Option Bytes) Unit
  | .getVersion _ => Except Exn (Option PolicyVersion)
  | .maxVersion => Except Exn (Option Int)
  | .addVersion _ => Written Unit
  | .refreshVersion _ _ => Written Unit
  | .countFailure => Except Exn Unit
  | .write _ => Written Nat

abbrev VersionAsync (α : Type) : Type := Coroutine VersionCall VersionReply Exn α

def storedEngine {ε : Type} : Coroutine VersionCall VersionReply ε PolicyEngine :=
  Coroutine.ask VersionCall.engine

/-- Make a policy the one in force. -/
def swap {ε : Type} (engine : PolicyEngine) : Coroutine VersionCall VersionReply ε Unit :=
  Coroutine.ask (VersionCall.swap engine)

def snapshotPath (reader : PolicyReader) (version : Int) : String :=
  reader.revisionsDir ++ "/v" ++ toString version ++ ".yaml"

/-- A snapshot is never overwritten with different bytes. -/
def writeSnapshot (reader : PolicyReader) (engine : PolicyEngine) : VersionAsync Unit := do
  match ← Coroutine.demand (.readSnapshot engine.version) id with
  | some raw =>
      if raw ≠ engine.raw then
        throw (.activationError ("revision snapshot " ++ snapshotPath reader engine.version
          ++ " exists with different content"))
  | none =>
      Coroutine.demand (.writeSnapshot engine.version engine.raw)
        (fun written => written.mapError (fun _ => Exn.unavailable))

/-- Record a forward activation, before the policy is swapped in; `false` if the same content is
recorded under this version already.
-/
def recordActivation (reader : PolicyReader) (engine : PolicyEngine) (activatedBy : String)
    : VersionAsync Bool := do
  match ← Coroutine.demand (.getVersion engine.version) id with
  | some existing =>
      if existing.contentHash = engine.contentHash then return false
      else
        throw (.activationError ("policy version " ++ toString engine.version
          ++ " is already recorded with different content"))
  | none =>
      let maxVersion ← Coroutine.demand .maxVersion id
      if maxVersion.any (fun highest => engine.version ≤ highest) then
        throw (.activationError ("policy version " ++ toString engine.version
          ++ " is not greater than the highest recorded version "
          ++ toString (maxVersion.getD 0)))
      else
        writeSnapshot reader engine
        Coroutine.demand (.addVersion {
          version := engine.version
          contentHash := engine.contentHash
          activatedBy := activatedBy
        }) Written.result
        return true

/-- Record that a recorded version is active again. -/
def recordRollback (engine : PolicyEngine) (activatedBy : String) : VersionAsync Unit := do
  match ← Coroutine.demand (.getVersion engine.version) id with
  | none =>
      throw (.lookupError ("policy version " ++ toString engine.version ++ " was never recorded"))
  | some row =>
      if row.contentHash ≠ engine.contentHash then
        throw (.activationError ("snapshot for version " ++ toString engine.version
          ++ " does not match its recorded content_hash"))
      else Coroutine.demand (.refreshVersion engine.version activatedBy) Written.result

/-- The policy of a recorded version, for a simulation. -/
def loadVersion (reader : PolicyReader) (version : Int) : VersionAsync PolicyEngine := do
  match ← Coroutine.demand (.getVersion version) id with
  | none => throw (.lookupError ("policy version " ++ toString version ++ " was never recorded"))
  | some row =>
      match ← Coroutine.demand (.readSnapshot version) id with
      | none =>
          throw (.lookupError ("no revision snapshot for policy version " ++ toString version))
      | some raw =>
          let engine ← Coroutine.ofExcept (loadBytes reader raw)
          if engine.contentHash ≠ row.contentHash then
            throw (.activationError ("snapshot for version " ++ toString version
              ++ " does not match its recorded content_hash"))
          else return engine

/-- The policy of the file as it is now; one that is broken is not a candidate. -/
def loadCandidate (reader : PolicyReader) : VersionAsync (Option PolicyEngine) := do
  let loaded ← Coroutine.attempt (do
    let raw ← (Coroutine.demand .readPolicyFile id : VersionAsync Bytes)
    Coroutine.ofExcept (loadBytes reader raw))
  return loaded.toOption

/-- A reload on SIGHUP. What is recorded is read from the store right after the swap, with
nothing awaited in between.
-/
def reloadPolicy (reader : PolicyReader) : VersionAsync Unit := do
  let old ← storedEngine
  match ← loadCandidate reader with
  | none => return ()
  | some candidate =>
      let recorded ← (Coroutine.attempt (recordActivation reader candidate "operator")
        : VersionAsync (Except Exn Bool))
      match recorded with
      | .error _ => return ()
      | .ok _ =>
          swap candidate
          let _ ← (Coroutine.attempt (Coroutine.demand (.write
              (PolicyActivation.reloadEntry old.version candidate.version candidate.contentHash))
              Written.result)
            : VersionAsync (Except Exn Nat))
          return ()

/-- A conflict at startup says how to reset the state that development leaves behind. -/
def startupConflict : Exn → Exn
  | .activationError message =>
      .activationError (message ++ " — leftover dev/demo state? reset with:"
        ++ " python scripts/reset_dev_state.py (in docker:"
        ++ " docker compose run --rm gateway python scripts/reset_dev_state.py --yes)")
  | exn => exn

/-- The start of a process: it serves once its policy is recorded and audited. -/
def startup (reader : PolicyReader) : VersionAsync Unit := do
  let raw ← Coroutine.demand .readPolicyFile id
  let engine ← Coroutine.ofExcept (loadBytes reader raw)
  swap engine
  let _ ← (Coroutine.mapStop startupConflict (recordActivation reader engine "startup")
    : VersionAsync Bool)
  let _ ← Coroutine.demand (.write
    (PolicyActivation.startupEntry engine.version engine.contentHash)) Written.result
  return ()

/-- How a request to the admin API fails. -/
inductive HttpFailure
  | http (status : Nat) (detail : String)
  | raised (exn : Exn)

abbrev AdminAsync (α : Type) : Type := Coroutine VersionCall VersionReply HttpFailure α

/-- The identity of an API key. A wrong key is counted as far as possible. -/
def resolveIdentity (apiKey : Option String) (engine : PolicyEngine)
    : AdminAsync (Option String) := do
  match apiKey with
  | none | some "" => return none
  | some key =>
      match engine.identityForKeyHash ("sha256:" ++ Sha256.hexdigest key) with
      | some identityId => return some identityId
      | none => do
          let _ ← (Coroutine.attempt (Coroutine.demand .countFailure id : VersionAsync Unit)
            : AdminAsync (Except Exn Unit))
          return none

/-- The identity of an administrator's key. -/
def requireAdmin (apiKey : Option String) : AdminAsync String := do
  let engine ← storedEngine
  match ← resolveIdentity apiKey engine with
  | none => throw (.http 401 "invalid or missing API key")
  | some identityId =>
      let current ← storedEngine
      if current.isAdmin identityId then return identityId
      else throw (.http 403 "admin identity required")

/-- What a failed record of a rollback is answered with. -/
def rollbackFailure : Exn → HttpFailure
  | .lookupError message => .http 404 message
  | .activationError message => .http 409 message
  | exn => .raised exn

/-- The policy of a snapshot that is to be activated again. -/
def loadSnapshot (reader : PolicyReader) (version : Int) : AdminAsync PolicyEngine := do
  let snapshot ← (Coroutine.ask (VersionCall.readSnapshot version)
    : AdminAsync (Except Exn (Option Bytes)))
  match snapshot with
  | .ok none => throw (.http 404 ("no revision snapshot for v" ++ toString version))
  | .error _ => throw (.http 409 ("revision v" ++ toString version ++ " is invalid"))
  | .ok (some raw) =>
      match loadBytes reader raw with
      | .error _ => throw (.http 409 ("revision v" ++ toString version ++ " is invalid"))
      | .ok engine => return engine

/-- The policy of a snapshot, once its rollback is recorded. -/
def rollbackTarget (reader : PolicyReader) (identityId : String) (version : Int)
    : AdminAsync PolicyEngine := do
  let engine ← loadSnapshot reader version
  Coroutine.mapStop rollbackFailure (recordRollback engine identityId)
  return engine

/-- A rollback by an administrator: it is audited, and then the policy is swapped in. -/
def rollbackAs (reader : PolicyReader) (identityId : String) (version : Int)
    : AdminAsync Decision := do
  let engine ← rollbackTarget reader identityId version
  let old ← storedEngine
  let seq ← Coroutine.demand (.write
    (PolicyActivation.rollbackEntry identityId old.version engine.version engine.contentHash))
    (fun written => written.result.mapError HttpFailure.raised)
  swap engine
  return {
    decision := .allow
    eventType := .policyActivated
    reason := "policy rolled back from v" ++ toString old.version ++ " to v"
      ++ toString engine.version ++ " by " ++ pyRepr identityId
    matchedRules := ["admin_rollback"]
    policyVersion := engine.version
    auditId := some (toString seq)
  }

def rollbackPolicy (reader : PolicyReader) (apiKey : Option String) (version : Int)
    : AdminAsync Decision := do
  let identityId ← requireAdmin apiKey
  rollbackAs reader identityId version

/-- What activations share: the policy in force, the table of versions, the directory of snapshots,
and the activations that the audit log holds, the latest one last.
-/
structure PolicyState where
  engine : PolicyEngine
  versions : Int → Option PolicyVersion
  snapshots : Int → Option Bytes
  activations : List AuditEntry

namespace PolicyState

/-- (state.Recorded version hash) means that a version is recorded with the hash of its content. -/
def Recorded (state : PolicyState) (version : Int) (hash : String) : Prop :=
  ∃ row, state.versions version = some row ∧ row.contentHash = hash

/-- (state.Highest max) means that no recorded version is above `max`, which is one of them. -/
def Highest (state : PolicyState) : Option Int → Prop
  | none => ∀ version, state.versions version = none
  | some highest =>
      (state.versions highest).isSome
      ∧ ∀ version, (state.versions version).isSome → version ≤ highest

/-- Write the row of a version. -/
def record (state : PolicyState) (version : Int) (row : Option PolicyVersion) : PolicyState :=
  { state with versions := Function.update state.versions version row }

/-- Change who activated a recorded version. -/
def refresh (state : PolicyState) (version : Int) (activatedBy : String) : PolicyState :=
  state.record version
    ((state.versions version).map (fun row => { row with activatedBy := activatedBy }))

def keep (state : PolicyState) (version : Int) (content : Option Bytes) : PolicyState :=
  { state with snapshots := Function.update state.snapshots version content }

def audit (state : PolicyState) (entry : AuditEntry) : PolicyState :=
  { state with activations := state.activations ++ [entry] }

/-- What an exchange changes. A change that raised may have been made. -/
def apply (state : PolicyState) : Event VersionReply → PolicyState
  | ⟨.swap engine, _⟩ => { state with engine := engine }
  | ⟨.writeSnapshot version raw, .ok _⟩ => state.keep version (some raw)
  | ⟨.writeSnapshot version _, .error left⟩ => state.keep version left
  | ⟨.addVersion row, .stored _⟩ | ⟨.addVersion row, .lost _⟩ => state.record row.version (some row)
  | ⟨.refreshVersion version activatedBy, .stored _⟩
  | ⟨.refreshVersion version activatedBy, .lost _⟩ => state.refresh version activatedBy
  | ⟨.write entry, .stored _⟩ | ⟨.write entry, .lost _⟩ => state.audit entry
  | _ => state

/-- What is read is the state, and no version is added twice. Every other reply is possible. -/
def Allows (state : PolicyState) : Event VersionReply → Prop
  | ⟨.engine, engine⟩ => engine = state.engine
  | ⟨.readSnapshot version, .ok found⟩ => found = state.snapshots version
  | ⟨.getVersion version, .ok found⟩ => found = state.versions version
  | ⟨.maxVersion, .ok highest⟩ => state.Highest highest
  | ⟨.addVersion row, .stored _⟩ | ⟨.addVersion row, .lost _⟩ => state.versions row.version = none
  | _ => True

/-- How the world answers. -/
def Serves (state : PolicyState) (event : Event VersionReply) (after : PolicyState) : Prop :=
  state.Allows event ∧ after = state.apply event

end PolicyState

end PolicyVersions

end SecureMcp
