import SecureMcp.Policy.Engine
import SecureMcp.StepUp.Challenges

/-! The policy file: the checks that follow its parsing, and the engine that is made of it. -/

namespace SecureMcp

/-- An identity as the file declares it; environment variables hold its secrets. -/
structure IdentityRecord where
  id : String
  authMode : AuthMode := .bearer
  apiKeyHash : Option String := none
  keyId : Option String := none
  signingSecretEnv : Option String := none
  totpSecretEnv : Option String := none
  admin : Bool := false
  allowedServers : List ServerGrant := []
  attributes : List (String × AttrValue) := []

/-- A policy file whose fields have their declared types. -/
structure PolicyDocument where
  version : Int
  servers : List (String × String) := []
  identities : List IdentityRecord := []
  risk : RiskPolicy := {}

/-- What a process reads policies with: the parser of the file's format, its environment and the
directory of the snapshots.
-/
structure PolicyReader where
  parse : Bytes → Except Exn PolicyDocument
  environ : String → Option String
  revisionsDir : String := "policies/revisions"

namespace PolicyLoading

/-- Whether an optional text is there and not empty. -/
def given (text : Option String) : Bool :=
  text.any (fun text => text ≠ "")

/-- The value of an environment variable that must not be empty. -/
def required (reader : PolicyReader) (name : Option String) : Except Exn String :=
  match reader.environ (name.getD "") with
  | none | some "" => .error .valueError
  | some secret => .ok secret

def signingSecret (reader : PolicyReader) (record : IdentityRecord) : Except Exn String :=
  if record.authMode = .bearer then
    if !given record.apiKeyHash then .error .valueError
    else if given record.keyId || given record.signingSecretEnv then .error .valueError
    else .ok ""
  else if !given record.keyId || !given record.signingSecretEnv then .error .valueError
  else if given record.apiKeyHash then .error .valueError
  else if record.admin then .error .valueError
  else required reader record.signingSecretEnv

def totpSecret (reader : PolicyReader) (record : IdentityRecord) : Except Exn String := do
  if !given record.totpSecretEnv then return ""
  else
    let secret ← required reader record.totpSecretEnv
    if (StepUp.decodeTotpSecret secret).isNone then throw .valueError
    else return secret

/-- An identity's fields fit its mode, and its secrets are found in the environment. -/
def checkAuthFields (reader : PolicyReader) (record : IdentityRecord) : Except Exn Identity := do
  let signing ← signingSecret reader record
  let totp ← totpSecret reader record
  return {
    id := record.id
    authMode := record.authMode
    apiKeyHash := record.apiKeyHash
    keyId := record.keyId
    signingSecret := signing
    totpSecret := totp
    admin := record.admin
    allowedServers := record.allowedServers
    attributes := record.attributes
  }

/-- Every grant names a registered server or the wildcard, which is not a server's name. -/
def checkServers (policy : PolicyFile) : Except Exn Unit :=
  let registered := Dict.keys policy.servers
  let granted := policy.identities.flatMap Identity.allowedServers
  if "*" ∈ registered then .error .valueError
  else if granted.any (fun grant => grant.serverId ≠ "*" && grant.serverId ∉ registered) then
    .error .valueError
  else .ok ()

def contentHash (raw : Bytes) : String :=
  Sha256.hexBytes (raw.map UInt8.toNat)

def loadBytes (reader : PolicyReader) (raw : Bytes) : Except Exn PolicyEngine := do
  let document ← reader.parse raw
  let identities ← document.identities.mapM (checkAuthFields reader)
  let policy : PolicyFile := {
    version := document.version
    servers := document.servers
    identities := identities
    risk := document.risk
  }
  checkServers policy
  return { policy := policy, contentHash := contentHash raw, raw := raw }

/-- A loaded engine keeps the bytes that it was made of, with their hash. -/
theorem loadBytes_ok {reader : PolicyReader} {raw : Bytes} {engine : PolicyEngine}
    (loaded : loadBytes reader raw = .ok engine)
    : ∃ document,
        reader.parse raw = .ok document
        ∧ engine.version = document.version
        ∧ document.identities.mapM (checkAuthFields reader) = .ok engine.policy.identities
        ∧ engine.contentHash = contentHash raw
        ∧ engine.raw = raw := by
  unfold loadBytes at loaded
  cases parsed : reader.parse raw with
  | error exn =>
      rw [parsed] at loaded
      cases loaded
  | ok document =>
      rw [parsed] at loaded
      simp only [bind, Except.bind] at loaded
      cases checked : document.identities.mapM (checkAuthFields reader) with
      | error exn =>
          rw [checked] at loaded
          cases loaded
      | ok identities =>
          rw [checked] at loaded
          simp only at loaded
          split at loaded
          · cases loaded
          · cases loaded
            exact ⟨document, rfl, rfl, checked, rfl, rfl⟩

end PolicyLoading

end SecureMcp
