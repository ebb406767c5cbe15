import SecureMcp.Library.Dict
import SecureMcp.Policy.Abac

/-! The loaded policy and the questions that are asked of it. -/

namespace SecureMcp

inductive SensitivityTier
  | low
  | medium
  | high
  | critical
  deriving DecidableEq

/-- The policy's inputs to the risk engine. -/
structure RiskPolicy where
  toolSensitivity : List (String × SensitivityTier) := []
  protectedRepos : List String := []
  deriving DecidableEq

structure ServerGrant where
  serverId : String
  allowedTools : List String := []
  deniedTools : List String := []
  conditions : List Abac.Condition := []

inductive AuthMode
  | bearer
  | signed
  deriving DecidableEq

structure Identity where
  id : String
  authMode : AuthMode := .bearer
  apiKeyHash : Option String := none
  keyId : Option String := none
  signingSecret : String := ""
  totpSecret : String := ""
  admin : Bool := false
  allowedServers : List ServerGrant := []
  attributes : List (String × AttrValue) := []

structure PolicyFile where
  version : Int
  servers : List (String × String) := []
  identities : List Identity := []
  risk : RiskPolicy := {}

/-- The bytes of a file. -/
abbrev Bytes : Type := List UInt8

/-- A loaded policy, with the bytes of its file and their hash. -/
structure PolicyEngine where
  policy : PolicyFile
  contentHash : String := ""
  raw : Bytes := []

namespace PolicyEngine

def version (engine : PolicyEngine) : Int :=
  engine.policy.version

/-- The record of an identity; of several records with one id the last one counts. -/
def identity (engine : PolicyEngine) (identityId : String) : Option Identity :=
  (Dict.ofPairs (engine.policy.identities.map (fun record => (record.id, record)))).lookup
    identityId

/-- The identity of a key id; of several identities with one key id the last one counts. -/
def identityForKeyId (engine : PolicyEngine) (keyId : String) : Option String :=
  (Dict.ofPairs (engine.policy.identities.filterMap (fun record =>
    match record.keyId with
    | none | some "" => none
    | some keyId => some (keyId, record.id)))).lookup keyId

/-- The identity of the hash of an API key, in the same way. -/
def identityForKeyHash (engine : PolicyEngine) (keyHash : String) : Option String :=
  (Dict.ofPairs (engine.policy.identities.filterMap (fun record =>
    match record.apiKeyHash with
    | none | some "" => none
    | some apiKeyHash => some (apiKeyHash, record.id)))).lookup keyHash

def isAdmin (engine : PolicyEngine) (identityId : String) : Bool :=
  (engine.identity identityId).any Identity.admin

/-- The command that starts an upstream server. -/
def serverCommand (engine : PolicyEngine) (serverId : String) : Option String :=
  engine.policy.servers.lookup serverId

/-- The first grant for the server that lists the tool, unless an earlier or the same grant
denies it.
-/
def firstGrant (serverId toolName : String) : List ServerGrant → Option ServerGrant
  | [] => none
  | grant :: rest =>
      if grant.serverId ∉ [serverId, "*"] then firstGrant serverId toolName rest
      else if toolName ∈ grant.deniedTools then none
      else if "*" ∈ grant.allowedTools || toolName ∈ grant.allowedTools then some grant
      else firstGrant serverId toolName rest

/-- RBAC resolution: an unknown identity has no grant. -/
def matchingGrant (engine : PolicyEngine) (identityId serverId toolName : String)
    : Option ServerGrant :=
  (engine.identity identityId).bind
    (fun identity => firstGrant serverId toolName identity.allowedServers)

def isAllowed (engine : PolicyEngine) (identityId serverId toolName : String) : Bool :=
  (engine.matchingGrant identityId serverId toolName).isSome

end PolicyEngine

end SecureMcp
