import SecureMcp.Edge.Auth
import SecureMcp.Python.Surrogates

/-! Signed requests as they are parsed, with every text that `json.loads` admits. On requests
without surrogates the verification is the one that the sessions are modelled with.
-/

namespace SecureMcp

namespace Auth

namespace Parsed

open Interceptor

/-- A JSON object of a request. -/
abbrev Message : Type := List (PyText × ParsedJson)

/-- What a signature covers. -/
structure SignedTuple where
  nonce : ParsedJson
  timestamp : ParsedJson
  method : PyText
  tool : ParsedJson
  arguments : ParsedJson

def SignedTuple.json (tuple : SignedTuple) : ParsedJson :=
  .obj [
    (.ofString "nonce", tuple.nonce),
    (.ofString "timestamp", tuple.timestamp),
    (.ofString "method", .str tuple.method),
    (.ofString "tool", tuple.tool),
    (.ofString "arguments", tuple.arguments)
  ]

/-- The canonical text of what a signature covers. -/
def signaturePayload (tuple : SignedTuple) : Except Exn String :=
  tuple.json.encode

def signRequest (secret : String) (tuple : SignedTuple) : Except Exn String :=
  return Hmac.sha256Hex secret (← signaturePayload tuple)

/-- `hmac.compare_digest`: a surrogate is not ASCII either. -/
def compareDigest (expected : String) (presented : PyText) : Except Exn Bool :=
  match presented.string? with
  | some text => SecureMcp.compareDigest expected text
  | none => .error .typeError

/-- What a request's signature has to cover; only tool calls name a tool. -/
def tupleOf (method : PyText) (params metadata : Message) : SignedTuple :=
  let named (key : String) :=
    if method = .ofString "tools/call" then ParsedJson.getKey params key else .null
  {
    nonce := ParsedJson.getKey metadata ReplayGuard.nonceMetaKey
    timestamp := ParsedJson.getKey metadata ReplayGuard.timestampMetaKey
    method := method
    tool := named "name"
    arguments := named "arguments"
  }

/-- The key and the signature that a request presents, for what it asks. -/
structure Presented where
  keyId : PyText
  signature : PyText
  tuple : SignedTuple

/-- A request that presents a key and a signature in its `_meta`. -/
def presented (message : Message) : Option Presented :=
  match (ParsedJson.getKey message "params").orEmpty with
  | .obj params =>
      match (ParsedJson.getKey params "_meta").orEmpty with
      | .obj metadata =>
          match ParsedJson.getKey message "method", ParsedJson.getKey metadata keyIdMetaKey,
            ParsedJson.getKey metadata signatureMetaKey with
          | .str method, .str keyId, .str signature =>
              some ⟨keyId, signature, tupleOf method params metadata⟩
          | _, _, _ => none
      | _ => none
  | _ => none

/-- Whether a secret gives the signature that a request presents. -/
def Presented.signedWith (request : Presented) (secret : String) : Except Exn Bool := do
  let expected ← signRequest secret request.tuple
  compareDigest expected request.signature

/-- `engine.identity_for_key_id(key_id)`. No key of a policy holds a surrogate. -/
def identityForKeyId (engine : PolicyEngine) (keyId : PyText) : Option String :=
  keyId.string?.bind engine.identityForKeyId

/-- The identity that signed a request, or `none`. -/
def verifySignedRequest (engine : PolicyEngine) (message : Message)
    : Except Exn (Option String) :=
  match presented message with
  | none => .ok none
  | some request =>
      if request.tuple.nonce.isNone || request.tuple.timestamp.isNone then .ok none
      else
        match identityForKeyId engine request.keyId with
        | none => .ok none
        | some identityId =>
            match engine.identity identityId with
            | none => .ok none
            | some identity =>
                if identity.authMode ≠ .signed then .ok none
                else
                  match request.signedWith identity.signingSecret with
                  | .ok true => .ok (some identityId)
                  | .ok false => .ok none
                  | .error exn => .error exn

section

variable (engine : PolicyEngine)

/-- A request without surrogates, as it is parsed. -/
def SignedTuple.of (tuple : Auth.SignedTuple) : SignedTuple where
  nonce := .ofJson tuple.nonce
  timestamp := .ofJson tuple.timestamp
  method := .ofString tuple.method
  tool := .ofJson tuple.tool
  arguments := .ofJson tuple.arguments

def Presented.of (request : Auth.Presented) : Presented where
  keyId := .ofString request.keyId
  signature := .ofString request.signature
  tuple := .of request.tuple

theorem signedWith_of (request : Auth.Presented) (secret : String)
    : (Presented.of request).signedWith secret = request.signedWith secret := by
  have payload : signaturePayload (.of request.tuple) = Auth.signaturePayload request.tuple :=
    ParsedJson.encode_ofJson request.tuple.json
  have compared (expected : String)
      : compareDigest expected (.ofString request.signature)
        = SecureMcp.compareDigest expected request.signature := by
    rw [compareDigest, PyText.string?_ofString]
  simp only [Presented.signedWith, Auth.Presented.signedWith, signRequest, Auth.signRequest,
    Presented.of, payload, compared]

theorem tupleOf_ofFields (method : String) (params metadata : Params)
    : tupleOf (.ofString method) (ParsedJson.ofFields params) (ParsedJson.ofFields metadata)
      = .of (Auth.tupleOf method params metadata) := by
  have named (key : String)
      : (if PyText.ofString method = PyText.ofString "tools/call" then
          ParsedJson.getKey (ParsedJson.ofFields params) key
        else .null)
        = .ofJson (if method = "tools/call" then Json.getKey params key else .null) := by
    by_cases call : method = "tools/call"
    · simp [call, ParsedJson.getKey_ofFields]
    · rw [if_neg call, if_neg (fun same => call (PyText.ofString_injective same))]
      rfl
  simp only [tupleOf, Auth.tupleOf, SignedTuple.of, named]
  simp only [ParsedJson.getKey_ofFields]

theorem presented_ofFields (message : Params)
    : presented (ParsedJson.ofFields message) = (Auth.presented message).map .of := by
  unfold presented Auth.presented
  rw [ParsedJson.getKey_ofFields, ParsedJson.getKey_ofFields, ParsedJson.orEmpty_ofJson]
  cases (Json.getKey message "params").orEmpty with
  | obj params =>
      simp only [ParsedJson.ofJson]
      rw [ParsedJson.getKey_ofFields, ParsedJson.orEmpty_ofJson]
      cases (Json.getKey params "_meta").orEmpty with
      | obj metadata =>
          simp only [ParsedJson.ofJson]
          rw [ParsedJson.getKey_ofFields, ParsedJson.getKey_ofFields]
          cases Json.getKey message "method" <;> cases Json.getKey metadata keyIdMetaKey <;>
            cases Json.getKey metadata signatureMetaKey <;>
            simp [ParsedJson.ofJson, tupleOf_ofFields, Presented.of]
      | _ => rfl
  | _ => rfl

/-- On requests without surrogates, verification is the one of the sessions. -/
theorem verifySignedRequest_ofFields (message : Params)
    : verifySignedRequest engine (ParsedJson.ofFields message)
      = Auth.verifySignedRequest engine message := by
  unfold verifySignedRequest Auth.verifySignedRequest
  rw [presented_ofFields]
  cases Auth.presented message with
  | none => rfl
  | some request =>
      have known : identityForKeyId engine (.ofString request.keyId)
          = engine.identityForKeyId request.keyId := by
        rw [identityForKeyId, PyText.string?_ofString]
        rfl
      simp only [Option.map_some, signedWith_of]
      simp only [Presented.of, SignedTuple.of, ParsedJson.isNone_ofJson, known] <;> rfl

end

end Parsed

end Auth

end SecureMcp
