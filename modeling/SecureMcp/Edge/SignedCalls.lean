import SecureMcp.Edge.Auth
import SecureMcp.Interceptor.Recorded
import SecureMcp.Interceptor.ReplayDedup
import SecureMcp.Python.Reordering

/-! Signed tool calls from the edge to the upstream, against an adversary that resends captured
requests with whatever their signatures do not cover changed. A captured request that has lost
its id is a notification, and skips the check of its nonce.
-/

namespace SecureMcp

open Interaction

open Interceptor

namespace Auth

/-- The parameters that the SDK reads: a JSON object, or none. -/
def objectOf : Json → Option Params
  | .obj fields => some fields
  | _ => none

/-- The SDK's reading of a JSON body as a message; it keeps the method and the parameters. -/
structure Sdk where
  parse : Params → Option ClientMessage
  method : ∀ body message name,
    parse body = some message
    → message.method? = some name
    → Json.getKey body "method" = .str name
  params : ∀ body message name,
    parse body = some message
    → message.method? = some name
    → message.params? = objectOf (Json.getKey body "params")

/-- Tuples that differ in the key order of objects only. -/
structure SignedTuple.Same (tuple other : SignedTuple) : Prop where
  nonce : Json.Reordered tuple.nonce other.nonce
  timestamp : Json.Reordered tuple.timestamp other.timestamp
  method : tuple.method = other.method
  tool : Json.Reordered tuple.tool other.tool
  arguments : Json.Reordered tuple.arguments other.arguments

/-- A message asks for exactly what a tuple covers. -/
structure SignedTuple.CarriedBy (tuple : SignedTuple) (message : ClientMessage) : Prop where
  method : message.method? = some tuple.method
  tool : Json.Reordered tuple.tool (Json.getKey (message.params?.getD []) "name")
  arguments : Json.Reordered tuple.arguments (Json.getKey (message.params?.getD []) "arguments")

/-- A signature is the code of a payload. -/
theorem signRequest_eq_ok {secret signature : String} {tuple : SignedTuple}
    (signed : signRequest secret tuple = .ok signature)
    : ∃ text, signaturePayload tuple = .ok text ∧ signature = Hmac.sha256Hex secret text := by
  unfold signRequest at signed
  cases payload : signaturePayload tuple with
  | error exn =>
      rw [payload] at signed
      cases signed
  | ok text =>
      rw [payload] at signed
      cases signed
      exact ⟨text, rfl, rfl⟩

/-- A request is signed with a secret when it presents the signature that the secret gives. -/
theorem Presented.signedWith_true {request : Presented} {secret : String}
    (signed : request.signedWith secret = .ok true)
    : signRequest secret request.tuple = .ok request.signature := by
  unfold signedWith at signed
  cases expected : signRequest secret request.tuple with
  | error exn =>
      rw [expected] at signed
      cases signed
  | ok code =>
      rw [expected] at signed
      exact congrArg Except.ok (eq_of_compareDigest signed)

/-- A verified request presents the signature that its identity's secret gives. -/
theorem verifySignedRequest_some {engine : PolicyEngine} {identityId : String} {body : Params}
    (verified : verifySignedRequest engine body = .ok (some identityId))
    : ∃ request identity,
        presented body = some request
        ∧ request.tuple.nonce ≠ .null
        ∧ engine.identity identityId = some identity
        ∧ signRequest identity.signingSecret request.tuple = .ok request.signature := by
  unfold verifySignedRequest at verified
  split at verified
  · cases verified
  · next request present =>
      split at verified
      · cases verified
      · next required =>
          split at verified
          · cases verified
          · split at verified
            · cases verified
            · next identity known =>
                split at verified
                · cases verified
                · split at verified
                  · next signed =>
                      cases verified
                      refine ⟨request, identity, present, ?_, known,
                        Presented.signedWith_true signed⟩
                      intro absent
                      simp [absent] at required
                  · cases verified
                  · cases verified

/-- What it takes for the edge to accept a body. -/
theorem mcpEndpoint_accepts {engine : PolicyEngine} {session : Session} {body : Params}
    (accepted : mcpEndpoint engine session body = .ok true)
    : verifySignedRequest engine body = .ok (some session.identityId) := by
  unfold mcpEndpoint at accepted
  cases verified : verifySignedRequest engine body with
  | error exn =>
      rw [verified] at accepted
      cases accepted
  | ok signer =>
      rw [verified] at accepted
      cases signer with
      | none => cases accepted
      | some identityId =>
          have both := Except.ok.inj accepted
          simp only [Bool.and_eq_true, decide_eq_true_eq] at both
          rw [both.2]

/-- What a body presents is taken from its method, its parameters and their `_meta`. -/
theorem presented_eq_some {body : Params} {request : Presented}
    (present : presented body = some request)
    : ∃ method params metadata,
        Json.getKey body "method" = .str method
        ∧ (Json.getKey body "params").orEmpty = .obj params
        ∧ (Json.getKey params "_meta").orEmpty = .obj metadata
        ∧ request.tuple = tupleOf method params metadata := by
  unfold presented at present
  split at present
  · next params isObject =>
      split at present
      · next metadata metaObject =>
          split at present
          · next method keyId signature isMethod _ _ =>
              cases present
              exact ⟨method, params, metadata, isMethod, isObject, metaObject, rfl⟩
          · cases present
      · cases present
  · cases present

/-- Parameters that are not an object are read as empty. -/
theorem getD_objectOf {value : Json} {params : Params} (same : value.orEmpty = .obj params)
    : (objectOf value).getD [] = params := by
  unfold Json.orEmpty at same
  split at same
  · subst same
    rfl
  · next falsy =>
      cases same
      cases value with
      | obj fields => simpa [Json.truthy, objectOf] using falsy
      | null | bool | int | float | str | arr => rfl

/-- What a forwarded request asks for is left alone when its `_meta` is stripped. -/
theorem getKey_stripped {key : String} (other : key ≠ "_meta") (params : Option Params)
    : Json.getKey ((params.map stripGatewayMeta).getD []) key
      = Json.getKey (params.getD []) key := by
  cases params with
  | none => rfl
  | some fields => exact congrArg (fun found => found.getD .null) (lookup_stripGatewayMeta other fields)

/-- A tool call that is forwarded, and that is no notification, has passed the pipeline under
the parameters of its body.
-/
theorem passed_of_parsed {sdk : Sdk} {runtime : Runtime} {session : Session} {body : Params}
    {parsed forwarded : ClientMessage} {events : List (Event Reply)}
    (parses : sdk.parse body = some parsed)
    (exec : (onClientMessage runtime session parsed).run.Exec events (.ok (.forward forwarded)))
    (isCall : forwarded.method? = some "tools/call")
    (isRequest : ∀ params, parsed ≠ .notification "tools/call" params)
    : Json.getKey body "method" = .str "tools/call"
      ∧ ∃ requestId rest,
          events = ⟨.setPending requestId "tools/call", ()⟩ :: rest
          ∧ Passed runtime session requestId (objectOf (Json.getKey body "params")) rest
            forwarded := by
  cases parsed with
  | request requestId method params =>
      have named : method = "tools/call" := by
        obtain ⟨_, _, rfl, dispatched⟩ := Coroutine.exec_ask_bind_iff.mp exec
        split at dispatched
        · obtain ⟨_, _, _, _, _, ended⟩ := Coroutine.exec_bind_ok_iff.mp dispatched
          obtain ⟨_, same⟩ := Program.exec_done_iff.mp ended
          cases same
          simpa [ClientMessage.method?] using isCall
        · split at dispatched
          · next call => exact call
          · obtain ⟨_, same⟩ := Program.exec_done_iff.mp dispatched
            cases same
            simpa [ClientMessage.method?] using isCall
      subst named
      have keptParams := sdk.params body _ "tools/call" parses rfl
      obtain ⟨rest, split, passed⟩ := passed_of_forward exec
      refine ⟨sdk.method body _ "tools/call" parses rfl, requestId, rest, split, ?_⟩
      exact keptParams ▸ passed
  | notification method params =>
      obtain ⟨_, same⟩ := Program.exec_done_iff.mp exec
      cases same
      cases isCall
      exact absurd rfl (isRequest params)
  | response | error =>
      obtain ⟨_, same⟩ := Program.exec_done_iff.mp exec
      cases same
      cases isCall

end Auth

/-- A body that is sent to a session, and the policy that the edge verifies it under. -/
structure Delivery where
  body : Params
  session : Session
  engine : PolicyEngine

/-- Deliveries that are handled concurrently, and all of their events. -/
structure PostedRun (ι : Type) where
  delivery : ι → Delivery
  trace : List (Stamped ι Reply)

namespace PostedRun

open Auth

variable {ι : Type} [DecidableEq ι]

/-- A delivery is accepted at the edge, and a tool call is forwarded for it. -/
def Forwards (sdk : Sdk) (runtime : Runtime) (run : PostedRun ι) (thread : ι)
    (message : ClientMessage)
    : Prop :=
  let delivery := run.delivery thread
  mcpEndpoint delivery.engine delivery.session delivery.body = .ok true
  ∧ message.method? = some "tools/call"
  ∧ ∃ parsed,
      sdk.parse delivery.body = some parsed
      ∧ (onClientMessage runtime delivery.session parsed).run.Exec (eventsOf thread run.trace)
          (.ok (.forward message))

/-- The body of a delivery asks for what a tuple covers. -/
def AsksFor (run : PostedRun ι) (thread : ι) (tuple : SignedTuple) : Prop :=
  ∃ request, presented (run.delivery thread).body = some request ∧ tuple.Same request.tuple

/-- What is assumed of HMAC, of canonical JSON and of the adversary, who does not know the
secrets: every valid signature was given to a tuple that was signed, and equal signatures were
given to one tuple.
-/
structure Idealized (signed : String → SignedTuple → Prop) (run : PostedRun ι) : Prop where
  unforged : ∀ thread request identity,
    presented (run.delivery thread).body = some request
    → (run.delivery thread).engine.identity (run.delivery thread).session.identityId
      = some identity
    → signRequest identity.signingSecret request.tuple = .ok request.signature
    → ∃ tuple,
        signed identity.signingSecret tuple
        ∧ signRequest identity.signingSecret tuple = .ok request.signature
  hmac : ∀ thread request secret tuple text other,
    presented (run.delivery thread).body = some request
    → signed secret tuple
    → signaturePayload tuple = .ok text
    → signaturePayload request.tuple = .ok other
    → Hmac.sha256Hex secret text = Hmac.sha256Hex secret other
    → text = other
  canonicalJson : ∀ thread request secret tuple text,
    presented (run.delivery thread).body = some request
    → signed secret tuple
    → signaturePayload tuple = .ok text
    → signaturePayload request.tuple = .ok text
    → tuple.Same request.tuple

/-- Every forwarded tool call was signed, it carries exactly what its tuple covers, and no
tuple has two of them.
-/
structure ExecutesOnce (signed : String → SignedTuple → Prop) (sdk : Sdk) (runtime : Runtime)
    (run : PostedRun ι)
    : Prop where
  signed : ∀ thread message,
    run.Forwards sdk runtime thread message
    → ∃ secret tuple, signed secret tuple ∧ run.AsksFor thread tuple
  carried : ∀ thread message tuple,
    run.Forwards sdk runtime thread message
    → run.AsksFor thread tuple
    → tuple.CarriedBy message
  once : ∀ one two message other tuple,
    run.Forwards sdk runtime one message
    → run.Forwards sdk runtime two other
    → run.AsksFor one tuple
    → run.AsksFor two tuple
    → one = two

/-- No body is one that the SDK reads as a notification of the method. -/
def Requests (sdk : Sdk) (run : PostedRun ι) : Prop :=
  ∀ thread params, sdk.parse (run.delivery thread).body ≠ some (.notification "tools/call" params)

/-- A nonce is stored while the timestamp that it was signed with is still inside the window.
-/
def StoredInTime (runtime : Runtime) (run : PostedRun ι) : Prop :=
  ∀ step ∈ run.trace, ∀ nonce seconds reply request,
    step.event = ⟨.setNonce nonce seconds, reply⟩
    → presented (run.delivery step.thread).body = some request
    → NonceKeys.Holds runtime.settings.replayWindowSeconds request.tuple.timestamp step

section

variable {sdk : Sdk} {runtime : Runtime} {run : PostedRun ι} {keys final : NonceKeys}
  {thread : ι} {message : ClientMessage}

/-- A forwarded request has its nonce stored, and asks for what its body presented. -/
theorem stores_of_forwards (served : Machine.Run NonceKeys.Serves keys run.trace final)
    (inOrder : InOrder run.trace) (requests : run.Requests sdk)
    (forwards : run.Forwards sdk runtime thread message)
    : ∃ request text,
        presented (run.delivery thread).body = some request
        ∧ request.tuple.nonce = .str text
        ∧ message.method? = some request.tuple.method
        ∧ Json.getKey (message.params?.getD []) "name" = request.tuple.tool
        ∧ Json.getKey (message.params?.getD []) "arguments" = request.tuple.arguments
        ∧ ∃ step ∈ run.trace,
            NonceKeys.Stores runtime.settings.replayWindowSeconds thread text
              request.tuple.timestamp step := by
  obtain ⟨accepted, isCall, parsed, parses, exec⟩ := forwards
  obtain ⟨request, _, present, required, _, _⟩ :=
    verifySignedRequest_some (mcpEndpoint_accepts accepted)
  obtain ⟨method, params, metadata, isMethod, isObject, metaObject, tuple⟩ :=
    presented_eq_some present
  obtain ⟨named, requestId, rest, split, passed⟩ :=
    passed_of_parsed parses exec isCall (fun params same => requests thread params (same ▸ parses))
  cases isMethod.symm.trans named
  have readParams := getD_objectOf isObject
  cases passed with
  | intro normalized meta' replayPassed =>
      rw [readParams, metaObject] at meta'
      subst meta'
      have nonce : Json.getKey metadata ReplayGuard.nonceMetaKey ≠ .null := by
        rw [tuple] at required
        exact required
      have checked := (exec_replayStage_ok_iff nonce).mp replayPassed
      obtain ⟨text, isText, step, inTrace, stores⟩ :=
        NonceKeys.exists_stores served inOrder checked (by
          rw [split]
          exact ((List.sublist_append_left _ _).cons _).cons _)
      refine ⟨request, text, present, tuple ▸ isText, by rw [tuple]; rfl, ?_, ?_, step, inTrace, ?_⟩
      · rw [tuple]
        exact (getKey_stripped (by decide) _).trans (by rw [readParams]; rfl)
      · rw [tuple]
        exact (getKey_stripped (by decide) _).trans (by rw [readParams]; rfl)
      · rw [tuple]
        exact stores

/-- Two requests for one tuple present one nonce and one timestamp. -/
theorem SignedTuple.Same.pair {tuple first second : SignedTuple} {text : String} {moment : Rat}
    (one : tuple.Same first) (two : tuple.Same second) (isText : first.nonce = .str text)
    (named : ReplayGuard.instant? first.timestamp = some moment)
    : second.nonce = .str text ∧ second.timestamp = first.timestamp := by
  have number : first.timestamp.atomic := by
    revert named
    cases first.timestamp <;> simp [ReplayGuard.instant?, Json.atomic]
  refine ⟨?_, one.timestamp.eq_of_atomic two.timestamp number⟩
  rw [one.nonce.eq_of_atomic two.nonce (by rw [isText]; rfl), isText]

/-- Signed tool calls are executed once in every run in which no body is read as a notification
and every nonce is stored in time.
-/
theorem executesOnce_of_requests {signed : String → SignedTuple → Prop}
    (ideal : run.Idealized signed) (served : Machine.Run NonceKeys.Serves keys run.trace final)
    (inOrder : InOrder run.trace) (requests : run.Requests sdk)
    (inTime : run.StoredInTime runtime)
    : run.ExecutesOnce signed sdk runtime where
  signed thread message forwards := by
    obtain ⟨request, identity, present, _, known, verified⟩ :=
      verifySignedRequest_some (mcpEndpoint_accepts forwards.1)
    obtain ⟨tuple, wasSigned, code⟩ :=
      ideal.unforged thread request identity present known verified
    obtain ⟨text, payload, signature⟩ := signRequest_eq_ok code
    obtain ⟨other, presentedPayload, again⟩ := signRequest_eq_ok verified
    have texts := ideal.hmac thread request _ tuple text other present wasSigned payload
      presentedPayload (signature.symm.trans again)
    subst texts
    exact ⟨_, tuple, wasSigned, request, present,
      ideal.canonicalJson thread request _ tuple text present wasSigned payload presentedPayload⟩
  carried thread message tuple forwards asks := by
    obtain ⟨request, text, present, _, method, tool, arguments, _⟩ :=
      stores_of_forwards served inOrder requests forwards
    obtain ⟨_, same, tuple⟩ := asks
    cases present.symm.trans same
    refine ⟨tuple.method ▸ method, ?_, ?_⟩
    · rw [tool]
      exact tuple.tool
    · rw [arguments]
      exact tuple.arguments
  once one two message other tuple first second asks asksAgain := by
    obtain ⟨request, text, present, isText, _, _, _, step, inTrace, stores⟩ :=
      stores_of_forwards served inOrder requests first
    obtain ⟨again, textAgain, presentAgain, isAgain, _, _, _, later, alsoInTrace, storesAgain⟩ :=
      stores_of_forwards served inOrder requests second
    obtain ⟨_, same, tupleOne⟩ := asks
    cases present.symm.trans same
    obtain ⟨_, same, tupleTwo⟩ := asksAgain
    cases presentAgain.symm.trans same
    have holds := inTime step inTrace _ _ _ request stores.event (stores.thread ▸ present)
    have holdsAgain :=
      inTime later alsoInTrace _ _ _ again storesAgain.event (storesAgain.thread ▸ presentAgain)
    obtain ⟨moment, named, _⟩ := id holds
    obtain ⟨sameNonce, sameTimestamp⟩ := SignedTuple.Same.pair tupleOne tupleTwo isText named
    rw [isAgain] at sameNonce
    cases sameNonce
    rw [sameTimestamp] at storesAgain holdsAgain
    exact stores.same_thread served inOrder storesAgain inTrace alsoInTrace holds holdsAgain

end

end PostedRun

-----------------------------------------------------------------------------------------
-- A captured request and what can be made of it
-----------------------------------------------------------------------------------------

namespace Auth

/-- A message of JSON-RPC 2.0: a request when it has an id that is an integer or a text. -/
def readJsonRpc (body : Params) : Option ClientMessage :=
  match Json.getKey body "method", Json.getKey body "params" with
  | .str method, .obj params => some (withId method (some params))
  | .str method, .null => some (withId method none)
  | _, _ => none
where
  withId (method : String) (params : Option Params) : ClientMessage :=
    match Json.getKey body "id" with
    | .int value => .request (.int value) method params
    | .str text => .request (.str text) method params
    | _ => .notification method params

theorem method_withId (body : Params) (method : String) (params : Option Params)
    : (readJsonRpc.withId body method params).method? = some method
      ∧ (readJsonRpc.withId body method params).params? = params := by
  unfold readJsonRpc.withId
  split <;> exact ⟨rfl, rfl⟩

def jsonRpc : Sdk where
  parse := readJsonRpc
  method body message name parses named := by
    unfold readJsonRpc at parses
    split at parses
    · next isMethod _ =>
        cases parses
        rw [(method_withId _ _ _).1] at named
        rw [isMethod, Option.some.inj named]
    · next isMethod _ =>
        cases parses
        rw [(method_withId _ _ _).1] at named
        rw [isMethod, Option.some.inj named]
    · cases parses
  params body message name parses named := by
    unfold readJsonRpc at parses
    split at parses
    · next isParams =>
        cases parses
        rw [(method_withId _ _ _).2, isParams]
        rfl
    · next isParams =>
        cases parses
        rw [(method_withId _ _ _).2, isParams]
        rfl
    · cases parses

/-- What the agent signed: a call of a tool without arguments. -/
def capturedTuple : SignedTuple where
  nonce := .str "11111111-1111-4111-8111-111111111111"
  timestamp := .int 5
  method := "tools/call"
  tool := .str "send_mail"
  arguments := .null

def capturedSignature : String :=
  "2502ddd71e42dd996971d59d0ec64691c330a888d6e2887d72de3448a25cbda6"

theorem sign_capturedTuple
    : signRequest "signing-secret" capturedTuple = .ok capturedSignature := by
  rw [signRequest_eq_map]
  have code : (CanonicalJson.chars capturedTuple.json).map
      (Hmac.sha256Chars "signing-secret".toList)
      = .ok capturedSignature.toList := by
    decide +kernel
  cases printed : CanonicalJson.chars capturedTuple.json with
  | error exn =>
      rw [printed] at code
      cases code
  | ok text =>
      rw [printed] at code
      have same : Hmac.sha256Chars "signing-secret".toList text = capturedSignature.toList :=
        Except.ok.inj code
      exact congrArg Except.ok ((congrArg String.ofList same).trans String.ofList_toList)

/-- A body that carries the captured signature, with any id. -/
def capturedBody (id : List (String × Json)) : Params :=
  id ++ [
    ("method", .str "tools/call"),
    ("params", .obj [
      ("name", .str "send_mail"),
      ("_meta", .obj [
        (keyIdMetaKey, .str "agent-key"),
        (signatureMetaKey, .str capturedSignature),
        (ReplayGuard.nonceMetaKey, .str "11111111-1111-4111-8111-111111111111"),
        (ReplayGuard.timestampMetaKey, .int 5)
      ])
    ])
  ]

/-- An agent that signs its requests. -/
def signedAgent : Identity where
  id := "agent"
  authMode := .signed
  keyId := some "agent-key"
  signingSecret := "signing-secret"
  allowedServers := [{ serverId := "mail", allowedTools := ["*"] }]

def signedPolicy : PolicyEngine where
  policy := {
    version := 1
    servers := [("mail", "mail-server")]
    identities := [signedAgent]
  }

/-- Only the captured tuple was signed. -/
def capturedOnly (secret : String) (tuple : SignedTuple) : Prop :=
  secret = "signing-secret" ∧ tuple = capturedTuple

end Auth

namespace PostedRun

open Auth

/-- Two deliveries of one request. -/
inductive Delivery
  | captured
  | again
  deriving DecidableEq

/-- Two deliveries of one body to the agent's session. -/
def resent (body : Params) (trace : List (Stamped Delivery Reply)) : PostedRun Delivery where
  delivery _ := ⟨body, mailSession, signedPolicy⟩
  trace := trace

theorem accepts_captured {body : Params}
    (present : presented body = some ⟨"agent-key", capturedSignature, capturedTuple⟩)
    : mcpEndpoint signedPolicy mailSession body = .ok true := by
  have signed : (⟨"agent-key", capturedSignature, capturedTuple⟩ : Presented).signedWith
      "signing-secret" = .ok true := by
    unfold Presented.signedWith
    rw [sign_capturedTuple]
    decide +kernel
  have verified : verifySignedRequest signedPolicy body = .ok (some "agent") := by
    have identified : signedPolicy.identityForKeyId "agent-key" = some "agent" := by decide
    have known : signedPolicy.identity "agent" = some signedAgent := rfl
    have required : capturedTuple.nonce ≠ .null ∧ capturedTuple.timestamp ≠ .null := by decide
    simp [verifySignedRequest, present, required, identified, known, signedAgent, signed]
  unfold mcpEndpoint
  rw [verified]
  decide

theorem idealized_resent {body : Params} {trace : List (Stamped Delivery Reply)}
    (present : presented body = some ⟨"agent-key", capturedSignature, capturedTuple⟩)
    : (resent body trace).Idealized capturedOnly where
  unforged _ request identity presents known code := by
    cases present.symm.trans presents
    have named : identity.signingSecret = "signing-secret" := by
      cases known
      rfl
    exact ⟨capturedTuple, ⟨named, rfl⟩, code⟩
  hmac _ request secret tuple text other presents signed payload again _ := by
    cases present.symm.trans presents
    cases signed.2
    exact Except.ok.inj (payload.symm.trans again)
  canonicalJson _ request secret tuple text presents signed _ _ := by
    cases present.symm.trans presents
    cases signed.2
    exact ⟨.refl _, .refl _, rfl, .refl _, .refl _⟩

/-- The agent's request. -/
def capturedRequest : Params :=
  capturedBody [("id", .int 1)]

/-- Its parameters. -/
def capturedParams : Params :=
  (objectOf (Json.getKey capturedRequest "params")).getD []

/-- Replies with which the agent's request passes every check. -/
def passing : (call : Call) → Reply call
  | .engine => signedPolicy
  | call => permitted call

/-- The agent's request as it is decided. -/
def capturedCall : ToolCall :=
  toolCallOf mailSession (.int 1) capturedParams

/-- The events of the agent's request when every check passes. -/
def capturedEvents : List (Event Reply) :=
  [
    ⟨.setPending (.int 1) "tools/call", ()⟩,
    ⟨.engine, signedPolicy⟩,
    ⟨.time, 0⟩,
    ⟨.setNonce "11111111-1111-4111-8111-111111111111" 60, .ok true⟩,
    ⟨.engine, signedPolicy⟩,
    ⟨.isBlocked "mail" "send_mail", .ok false⟩,
    ⟨.engine, signedPolicy⟩,
    ⟨.score capturedCall.key (.obj []) {}, .ok (0, [])⟩,
    ⟨.cacheGet "mail", permitted (.cacheGet "mail")⟩,
    ⟨.engine, signedPolicy⟩,
    ⟨.write (allowEntry capturedCall.key 1 (.obj []) (some 0) (some []) none none), .ok 1⟩
  ]

/-- The agent's request passes. -/
theorem exec_capturedRequest
    : (onClientMessage DriftDetector.calm mailSession
        (.request (.int 1) "tools/call" (some capturedParams))).run.Exec capturedEvents
        (.ok (.forward
          (.request (.int 1) "tools/call" (some (stripGatewayMeta capturedParams))))) := by
  have replayPassed :
      (replayStage DriftDetector.calm capturedCall
        ((signedPolicy.identity mailSession.identityId).any
          (fun record => record.authMode = .signed))
        (Json.getKey capturedParams "_meta").orEmpty).run.Exec
        [⟨.time, 0⟩, ⟨.setNonce "11111111-1111-4111-8111-111111111111" 60, .ok true⟩]
        (.ok ()) := by
    refine (exec_replayStage_ok_iff (by decide)).mpr ?_
    exact ReplayGuard.exec_check_of_inside rfl rfl (by decide +kernel)
  have passed : Passed DriftDetector.calm mailSession (.int 1) (some capturedParams) _ _ :=
    .intro rfl rfl replayPassed (Program.exec_play passing _) (Program.exec_play passing _)
      (Program.exec_play passing _) (Program.exec_play passing _) rfl
      (Program.exec_play passing _) rfl (Program.exec_play passing _)
      (Program.exec_play passing _) (Program.exec_play passing _)
  exact Coroutine.exec_ask_bind_iff.mpr
    ⟨(), _, rfl, exec_settle_forward_iff.mpr passed.exec⟩

/-- The agent's request, and ten seconds later the same request again, up to its refusal. -/
def capturedTrace : List (Stamped Delivery Reply) :=
  capturedEvents.map (fun event => ⟨.captured, 0, event⟩)
  ++ [
    ⟨.again, 10, ⟨.setPending (.int 1) "tools/call", ()⟩⟩,
    ⟨.again, 10, ⟨.engine, signedPolicy⟩⟩,
    ⟨.again, 10, ⟨.time, 10⟩⟩,
    ⟨.again, 10, ⟨.setNonce "11111111-1111-4111-8111-111111111111" 60, .ok false⟩⟩
  ]

theorem run_capturedTrace
    : ∃ final, Machine.Run NonceKeys.Serves (fun _ => none) capturedTrace final := by
  refine ⟨_, Machine.Run.append (.cons rfl (.cons rfl (.cons ⟨rfl, rfl⟩
    (.cons ⟨by decide, rfl, rfl⟩ (Machine.run_of_unchanged ?_)))))
    (.cons rfl (.cons rfl (.cons ⟨rfl, rfl⟩ (.cons ⟨by decide, ?_, rfl⟩ .nil))))⟩
  · intro step member
    simp only [List.map_cons, List.map_nil, List.mem_cons, List.not_mem_nil, or_false] at member
    rcases member with rfl | rfl | rfl | rfl | rfl | rfl | rfl <;> rfl
  · decide +kernel

theorem inOrder_capturedTrace : InOrder capturedTrace := by
  simp [InOrder, capturedTrace, capturedEvents]

/-- Witness: a request that is sent again ten seconds later is executed once. -/
theorem captured_request_executes_once
    : (∃ message,
        (resent capturedRequest capturedTrace).Forwards jsonRpc DriftDetector.calm .captured message)
      ∧ (resent capturedRequest capturedTrace).ExecutesOnce capturedOnly jsonRpc
          DriftDetector.calm := by
  refine ⟨⟨_, accepts_captured rfl, rfl, _, rfl, exec_capturedRequest⟩, ?_⟩
  obtain ⟨_, served⟩ := run_capturedTrace
  refine executesOnce_of_requests (idealized_resent rfl) served inOrder_capturedTrace ?_ ?_
  · intro _ params parses
    cases parses
  · intro step member nonce seconds reply request _ presents
    cases presents
    refine ⟨5, rfl, ?_⟩
    have late : step.instant ≤ 10 := by
      rcases List.mem_append.mp member with first | second
      · obtain ⟨event, _, rfl⟩ := List.mem_map.mp first
        norm_num
      · simp only [List.mem_cons, List.not_mem_nil, or_false] at second
        rcases second with rfl | rfl | rfl | rfl <;> decide +kernel
    exact le_trans late (by decide +kernel)

/-- A captured request that has lost its id is forwarded as often as it is sent. -/
theorem captured_notification_executes_twice
    : (resent (capturedBody []) []).Idealized capturedOnly
      ∧ Machine.Run NonceKeys.Serves (fun _ => none) (resent (capturedBody []) []).trace
          (fun _ => none)
      ∧ InOrder (resent (capturedBody []) []).trace
      ∧ ¬(resent (capturedBody []) []).ExecutesOnce capturedOnly jsonRpc
          DriftDetector.calm := by
  refine ⟨idealized_resent rfl, .nil, .nil, ?_⟩
  intro executesOnce
  have forwards (thread : Delivery)
      : ∃ message,
          (resent (capturedBody []) []).Forwards jsonRpc DriftDetector.calm thread message :=
    ⟨_, accepts_captured rfl, rfl, _, rfl, .done _⟩
  obtain ⟨message, first⟩ := forwards .captured
  obtain ⟨other, second⟩ := forwards .again
  have asks (thread : Delivery) : (resent (capturedBody []) []).AsksFor thread capturedTuple :=
    ⟨_, rfl, .refl _, .refl _, rfl, .refl _, .refl _⟩
  have same := executesOnce.once .captured .again message other capturedTuple first second
    (asks .captured) (asks .again)
  cases same

end PostedRun

end SecureMcp
