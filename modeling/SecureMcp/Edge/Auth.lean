import SecureMcp.Interceptor.Message
import SecureMcp.Library.Hmac
import SecureMcp.Python.Digest

/-! Signed requests at the edge: a request names a key and carries the HMAC of what it asks for.
-/

namespace SecureMcp

namespace Auth

open Interceptor

def keyIdMetaKey : String := "portunusmcp/key-id"

def signatureMetaKey : String := "portunusmcp/signature"

/-- What a signature covers. -/
structure SignedTuple where
  nonce : Json
  timestamp : Json
  method : String
  tool : Json
  arguments : Json

def SignedTuple.json (tuple : SignedTuple) : Json :=
  .obj [
    ("nonce", tuple.nonce),
    ("timestamp", tuple.timestamp),
    ("method", .str tuple.method),
    ("tool", tuple.tool),
    ("arguments", tuple.arguments)
  ]

/-- The canonical text of what a signature covers. -/
def signaturePayload (tuple : SignedTuple) : Except Exn String :=
  CanonicalJson.encode tuple.json

def signRequest (secret : String) (tuple : SignedTuple) : Except Exn String :=
  return Hmac.sha256Hex secret (← signaturePayload tuple)

/-- A signature by the characters of its payload, which the kernel evaluates quickly. -/
theorem signRequest_eq_map (secret : String) (tuple : SignedTuple)
    : signRequest secret tuple
      = (CanonicalJson.chars tuple.json).map
          (fun text => String.ofList (Hmac.sha256Chars secret.toList text)) := by
  unfold signRequest signaturePayload CanonicalJson.encode
  cases CanonicalJson.chars tuple.json with
  | error exn => rfl
  | ok text => simp [Hmac.sha256Hex, bind, Except.bind, pure, Except.pure, Except.map]

/-- What a request's signature has to cover; only tool calls name a tool. -/
def tupleOf (method : String) (params metadata : Params) : SignedTuple :=
  let named (key : String) := if method = "tools/call" then Json.getKey params key else .null
  {
    nonce := Json.getKey metadata ReplayGuard.nonceMetaKey
    timestamp := Json.getKey metadata ReplayGuard.timestampMetaKey
    method := method
    tool := named "name"
    arguments := named "arguments"
  }

/-- The key and the signature that a request presents, for what it asks. -/
structure Presented where
  keyId : String
  signature : String
  tuple : SignedTuple

/-- A request that presents a key and a signature in its `_meta`. -/
def presented (message : Params) : Option Presented :=
  match (Json.getKey message "params").orEmpty with
  | .obj params =>
      match (Json.getKey params "_meta").orEmpty with
      | .obj metadata =>
          match Json.getKey message "method", Json.getKey metadata keyIdMetaKey,
            Json.getKey metadata signatureMetaKey with
          | .str method, .str keyId, .str signature =>
              some ⟨keyId, signature, tupleOf method params metadata⟩
          | _, _, _ => none
      | _ => none
  | _ => none

/-- Whether a secret gives the signature that a request presents. -/
def Presented.signedWith (request : Presented) (secret : String) : Except Exn Bool := do
  let expected ← signRequest secret request.tuple
  compareDigest expected request.signature

/-- The identity that signed a request, or `none`. -/
def verifySignedRequest (engine : PolicyEngine) (message : Params)
    : Except Exn (Option String) :=
  match presented message with
  | none => .ok none
  | some request =>
      if request.tuple.nonce = .null || request.tuple.timestamp = .null then .ok none
      else
        match engine.identityForKeyId request.keyId with
        | none => .ok none
        | some identityId =>
            match engine.identity identityId with
            | none => .ok none
            | some identity =>
                if identity.authMode ≠ .signed then .ok none
                else
                  match request.signedWith identity.signingSecret with
                  | .ok true => .ok (some identityId)
                  | .ok false => .ok none
                  | .error exn => .error exn

/-- Whether a signed body that is sent to a session is handed to it. -/
def mcpEndpoint (engine : PolicyEngine) (session : Session) (message : Params)
    : Except Exn Bool := do
  match ← verifySignedRequest engine message with
  | none => return false
  | some identityId =>
      return (engine.serverCommand session.serverId).isSome && identityId = session.identityId

end Auth

end SecureMcp
