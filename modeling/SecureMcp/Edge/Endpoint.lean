import SecureMcp.Edge.SignedCalls

/-! The raw endpoint that routes every request to a session's transport. Who is asking is
decided in one of three ways, by the key header and the method, before any session is looked
up; whatever session the request then names, or gets, has to be of that identity and of the
server in the path.
-/

namespace SecureMcp

open Interceptor

namespace Edge

/-- An event that a request's `receive` returns: a part of the body, or anything else, such as a
disconnect.
-/
inductive AsgiEvent
  | request (body : Option Bytes) (moreBody : Option Bool)
  | other

/-- The events that a `receive` still has to return, as far as the client has caused them. -/
abbrev Receive : Type := List AsgiEvent

/-- A `receive` that returns the drained events again and then goes on with the original one. -/
def replay (events : List AsgiEvent) (rest : Receive) : Receive :=
  events ++ rest

/-- The loop of `_buffer_body`; `none` while the next event is still awaited. -/
def drainBody (events : List AsgiEvent) (chunks : List Bytes)
    : Receive → Option (Bytes × Receive)
  | [] => none
  | .other :: rest => some (chunks.flatten, replay (events ++ [.other]) rest)
  | .request body moreBody :: rest =>
      let events := events ++ [.request body moreBody]
      let chunks := chunks ++ [body.getD []]
      if moreBody.getD false then drainBody events chunks rest
      else some (chunks.flatten, replay events rest)

/-- Drain the body so that a signed message can be verified before the transport parses it. -/
def bufferBody (receive : Receive) : Option (Bytes × Receive) :=
  drainBody [] [] receive

/-- The bytes of the body that an application reads from a `receive`. -/
def readBody : Receive → Option Bytes
  | [] => none
  | .other :: _ => some []
  | .request body moreBody :: rest =>
      if moreBody.getD false then (readBody rest).map (fun later => body.getD [] ++ later)
      else some (body.getD [])

/-- What the loop drains is what it had and what is read from the rest, by induction on the
events.
-/
theorem drainBody_eq (events : List AsgiEvent) (chunks : List Bytes) (receive : Receive)
    : drainBody events chunks receive
      = (readBody receive).map (fun body => (chunks.flatten ++ body, replay events receive)) := by
  induction receive generalizing events chunks with
  | nil => rfl
  | cons event rest ih =>
      cases event with
      | other => simp [drainBody, readBody, replay]
      | request body moreBody =>
          simp only [drainBody, readBody]
          split
          case isTrue =>
            rw [ih]
            cases readBody rest <;> simp [replay]
          case isFalse => simp [replay]

/-- The transport reads the bytes that were drained, off a `receive` that returns what the original
one does.
-/
theorem bufferBody_eq (receive : Receive)
    : bufferBody receive = (readBody receive).map (fun body => (body, receive)) := by
  rw [bufferBody, drainBody_eq]
  rfl

/-- `bytes.decode()`. -/
def decode (bytes : Bytes) : Except Exn String :=
  match String.fromUTF8? ⟨bytes.toArray⟩ with
  | some text => .ok text
  | none => .error .valueError

/-- `text.strip("/")`. -/
def stripSlashes (text : List Char) : List Char :=
  ((text.dropWhile (· = '/')).reverse.dropWhile (· = '/')).reverse

/-- `text.removeprefix(start)`. -/
def removePrefix (start text : List Char) : List Char :=
  if start <+: text then text.drop start.length else text

/-- The parts of an ASGI scope that the endpoint reads. -/
structure Scope where
  method : String
  path : String
  rootPath : String := ""
  headers : List (Bytes × Bytes) := []

/-- The server of a request. The mount keeps the full path and puts its own prefix in the root
path.
-/
def Scope.serverId (scope : Scope) : String :=
  String.ofList (stripSlashes (removePrefix scope.rootPath.toList scope.path.toList))

/-- The headers under their lowered names, which are ASCII; the last one of a name counts. -/
def Scope.headerDict (scope : Scope) : Except Exn (List (String × String)) := do
  let decoded ← scope.headers.mapM fun header =>
    return ((← decode header.1).toLower, ← decode header.2)
  return Dict.ofPairs decoded

def mcpSessionIdHeader : String := "mcp-session-id"

def keyHeader : String := "x-portunusmcp-key"

/-- A session as the endpoint reads it. -/
structure Session where
  id : String
  interceptor : Interceptor.Session

/-- The live sessions under their ids. -/
structure Registry where
  sessions : List (String × Session)
  keyed : ∀ id session, sessions.lookup id = some session → session.id = id

namespace Registry

def get (registry : Registry) (sessionId : String) : Option Session :=
  registry.sessions.lookup sessionId

def empty : Registry where
  sessions := []
  keyed := by simp

/-- `self._sessions[session.id] = session`. -/
def add (registry : Registry) (session : Session) : Registry where
  sessions := Dict.set session.id session registry.sessions
  keyed := by
    intro id found
    rw [Dict.lookup_set]
    split
    case isTrue same =>
      intro here
      cases here
      exact same.symm
    case isFalse => exact registry.keyed id found

end Registry

/-- What the creation of a session meets: the policy that is live by then, the id of the session or
what its audit row or its subprocess raised, the registry that it is added to, and what the rest
of the creation raises.
-/
structure Creation where
  live : PolicyEngine
  started : Except Exn String
  registry : Registry
  connected : Except Exn Unit

/-- Create a session; the registry keeps it even if the creation raises after that. -/
def create (creation : Creation) (identityId serverId : String) : Except Exn Session × Registry :=
  match creation.live.serverCommand serverId, creation.started with
  | none, _ => (.error (.lookupError ("unknown server " ++ pyRepr serverId)), creation.registry)
  | some _, .error exn => (.error exn, creation.registry)
  | some _, .ok sessionId =>
      let session : Session := ⟨sessionId, ⟨identityId, serverId⟩⟩
      (creation.connected.map (fun _ => session), creation.registry.add session)

/-- What the endpoint does with a request: it waits for more of the body, answers it, or hands it
to the transport of a session. It leaves the sessions there are then.
-/
inductive Handling
  | wait
  | respond (status : Nat) (text : String) (registry : Registry)
  | hand (session : Session) (receive : Receive) (registry : Registry)

def Handling.registry? : Handling → Option Registry
  | .wait => none
  | .respond _ _ registry | .hand _ _ registry => some registry

def resolveIdentity (apiKey : String) (engine : PolicyEngine) : Option String :=
  if apiKey = "" then none
  else engine.identityForKeyHash ("sha256:" ++ Sha256.hexdigest apiKey)

/-- The identity of a signed body; `json.loads` is a parameter. -/
def identityOfBody (loads : Bytes → Except Exn Json) (engine : PolicyEngine) (body : Bytes)
    : Except Exn (Option String) :=
  match loads body with
  | .ok (.obj message) => Auth.verifySignedRequest engine message
  | .ok _ => .ok none
  | .error .valueError => .ok none
  | .error exn => .error exn

/-- The identity of the session that a request without a body presents, if it is a signed one. -/
def identityOfSession (engine : PolicyEngine) (registry : Registry) (sessionId : Option String)
    : Option String := do
  let session ← registry.get (← sessionId)
  let identity ← engine.identity session.interceptor.identityId
  if identity.authMode = .signed then some session.interceptor.identityId else none

/-- What follows once the identity of a request is known, or known to be missing. -/
def route (engine : PolicyEngine) (registry : Registry) (creation : Creation) (scope : Scope)
    (sessionId identityId : Option String) (receive : Receive)
    : Handling :=
  match identityId with
  | none => .respond 401 "invalid or missing API key or signature" registry
  | some identityId =>
      if (engine.serverCommand scope.serverId).isNone then .respond 404 "unknown server" registry
      else
        match sessionId with
        | some sessionId =>
            match registry.get sessionId with
            | none => .respond 404 "session not found" registry
            | some session =>
                if session.interceptor.identityId ≠ identityId then
                  .respond 401 "key does not match session identity" registry
                else if session.interceptor.serverId ≠ scope.serverId then
                  .respond 404 "session not found" registry
                else .hand session receive registry
        | none =>
            if scope.method = "POST" then
              match create creation identityId scope.serverId with
              | (.ok session, registry) => .hand session receive registry
              | (.error _, registry) => .respond 503 "session could not be created" registry
            else .respond 400 "missing mcp-session-id header" registry

/-- The raw endpoint. The engine is the one of the active policy as the request arrives; the
registry is looked at without an await in between.
-/
def mcpEndpoint (loads : Bytes → Except Exn Json) (engine : PolicyEngine) (registry : Registry)
    (creation : Creation) (scope : Scope) (receive : Receive)
    : Except Exn Handling := do
  let headers ← scope.headerDict
  let sessionId := headers.lookup mcpSessionIdHeader
  match headers.lookup keyHeader with
  | some key =>
      return route engine registry creation scope sessionId (resolveIdentity key engine) receive
  | none =>
      if scope.method = "POST" then
        match bufferBody receive with
        | none => return .wait
        | some (body, receive) =>
            let identityId ← identityOfBody loads engine body
            return route engine registry creation scope sessionId identityId receive
      else
        let identityId := identityOfSession engine registry sessionId
        return route engine registry creation scope sessionId identityId receive

/-- A request is one of the session's identity: it has a key of that identity, or a body that the
transport reads and that the identity has signed, or, without a body to sign, the id of the
session, if its identity is in signed mode.
-/
inductive Authenticates (loads : Bytes → Except Exn Json) (engine : PolicyEngine) (scope : Scope)
    (receive : Receive) (session : Session)
    : Prop
  | key {headers : List (String × String)} {key : String}
    (decoded : scope.headerDict = .ok headers)
    (presented : headers.lookup keyHeader = some key)
    (resolved : engine.identityForKeyHash ("sha256:" ++ Sha256.hexdigest key)
      = some session.interceptor.identityId)
    : Authenticates loads engine scope receive session
  | signature {headers : List (String × String)} {body : Bytes} {message : Params}
    (decoded : scope.headerDict = .ok headers)
    (keyless : headers.lookup keyHeader = none)
    (post : scope.method = "POST")
    (read : readBody receive = some body)
    (parsed : loads body = .ok (.obj message))
    (verified : Auth.verifySignedRequest engine message
      = .ok (some session.interceptor.identityId))
    : Authenticates loads engine scope receive session
  | sessionId {headers : List (String × String)} {identity : Identity}
    (decoded : scope.headerDict = .ok headers)
    (keyless : headers.lookup keyHeader = none)
    (other : scope.method ≠ "POST")
    (known : engine.identity session.interceptor.identityId = some identity)
    (signed : identity.authMode = .signed)
    (presented : headers.lookup mcpSessionIdHeader = some session.id)
    : Authenticates loads engine scope receive session

/-- A session was created for a request, a POST that names none, for an identity on a server. -/
structure CreatedFor (engine : PolicyEngine) (creation : Creation) (scope : Scope)
    (session : Session) (after : Registry)
    : Prop where
  unnamed : ∃ headers,
    scope.headerDict = .ok headers ∧ headers.lookup mcpSessionIdHeader = none
  post : scope.method = "POST"
  server : session.interceptor.serverId = scope.serverId
  registered : (engine.serverCommand scope.serverId).isSome
  added : after = creation.registry.add session

section

variable {loads : Bytes → Except Exn Json} {engine : PolicyEngine} {registry after : Registry}
  {creation : Creation} {scope : Scope} {receive handed : Receive} {session : Session}
  {headers : List (String × String)} {identityId : Option String} {handling : Handling}

/-- What creating a session leaves, and what it returns. -/
theorem create_cases {identity serverId : String}
    : (create creation identity serverId).2 = creation.registry
        ∧ (∃ exn, (create creation identity serverId).1 = .error exn)
      ∨ ∃ session,
          session.interceptor = ⟨identity, serverId⟩
          ∧ (create creation identity serverId).2 = creation.registry.add session
          ∧ ((∃ exn, (create creation identity serverId).1 = .error exn)
            ∨ (create creation identity serverId).1 = .ok session) := by
  unfold create
  split
  case h_1 => exact .inl ⟨rfl, _, rfl⟩
  case h_2 => exact .inl ⟨rfl, _, rfl⟩
  case h_3 sessionId _ _ =>
    refine .inr ⟨⟨sessionId, ⟨identity, serverId⟩⟩, rfl, rfl, ?_⟩
    cases creation.connected with
    | ok _ => exact .inr rfl
    | error exn => exact .inl ⟨exn, rfl⟩

/-- What routing does with a request of an identity: it answers it, or hands it to the session that
the request names, or creates one, for that identity and the server of the path.
-/
theorem route_cases (decoded : scope.headerDict = .ok headers)
    (routed : route engine registry creation scope (headers.lookup mcpSessionIdHeader) identityId
      receive = handling)
    : (∃ status text, handling = .respond status text registry)
      ∨ (∃ sessionId session,
          headers.lookup mcpSessionIdHeader = some sessionId
          ∧ registry.get sessionId = some session
          ∧ identityId = some session.interceptor.identityId
          ∧ session.interceptor.serverId = scope.serverId
          ∧ (engine.serverCommand scope.serverId).isSome
          ∧ handling = .hand session receive registry)
      ∨ (∃ status text, handling = .respond status text creation.registry)
      ∨ ∃ session after,
          identityId = some session.interceptor.identityId
          ∧ CreatedFor engine creation scope session after
          ∧ ((∃ status text, handling = .respond status text after)
            ∨ handling = .hand session receive after) := by
  unfold route at routed
  cases identityId with
  | none => exact .inl ⟨_, _, routed.symm⟩
  | some identity =>
  dsimp only at routed
  split at routed
  case isTrue => exact .inl ⟨_, _, routed.symm⟩
  case isFalse present =>
  have registered : (engine.serverCommand scope.serverId).isSome := by
    simpa [Option.isSome_iff_ne_none] using present
  cases presented : headers.lookup mcpSessionIdHeader with
  | some sessionId =>
      rw [presented] at routed
      dsimp only at routed
      cases found : registry.get sessionId with
      | none =>
          rw [found] at routed
          exact .inl ⟨_, _, routed.symm⟩
      | some named =>
          rw [found] at routed
          dsimp only at routed
          split at routed
          case isTrue => exact .inl ⟨_, _, routed.symm⟩
          case isFalse ours =>
          split at routed
          case isTrue => exact .inl ⟨_, _, routed.symm⟩
          case isFalse there =>
          rw [ne_eq, not_not] at ours there
          exact .inr (.inl ⟨sessionId, named, rfl, found, congrArg some ours.symm, there, registered,
            routed.symm⟩)
  | none =>
      rw [presented] at routed
      dsimp only at routed
      split at routed
      case isFalse => exact .inl ⟨_, _, routed.symm⟩
      case isTrue post =>
      generalize made : create creation identity scope.serverId = result at routed
      obtain ⟨outcome, after⟩ := result
      rcases @create_cases creation identity scope.serverId with
        ⟨kept, exn, raised⟩ | ⟨session, bound, added, ended⟩
      · rw [made] at kept raised
        cases kept
        cases raised
        exact .inr (.inr (.inl ⟨_, _, routed.symm⟩))
      · rw [made] at added ended
        have created : CreatedFor engine creation scope session after :=
          ⟨⟨headers, decoded, presented⟩, post, by rw [bound], registered, added⟩
        refine .inr (.inr (.inr ⟨session, after, by rw [bound], created, ?_⟩))
        rcases ended with ⟨exn, raised⟩ | returned
        · cases raised
          exact .inl ⟨_, _, routed.symm⟩
        · cases returned
          exact .inr routed.symm

/-- What resolves a key is the hash of it. -/
theorem resolveIdentity_eq_some {key identity : String}
    (resolved : resolveIdentity key engine = some identity)
    : engine.identityForKeyHash ("sha256:" ++ Sha256.hexdigest key) = some identity := by
  unfold resolveIdentity at resolved
  split at resolved
  case isTrue => cases resolved
  case isFalse => exact resolved

theorem identityOfBody_eq_some {body : Bytes} {identity : String}
    (signed : identityOfBody loads engine body = .ok (some identity))
    : ∃ message,
        loads body = .ok (.obj message)
        ∧ Auth.verifySignedRequest engine message = .ok (some identity) := by
  unfold identityOfBody at signed
  split at signed
  case h_1 message parsed => exact ⟨message, parsed, signed⟩
  all_goals cases signed

/-- A signed session that a request presents, and its identity. -/
theorem identityOfSession_eq_some {sessionId : Option String} {identity : String}
    (presented : identityOfSession engine registry sessionId = some identity)
    : ∃ id found record,
        sessionId = some id
        ∧ registry.get id = some found
        ∧ found.interceptor.identityId = identity
        ∧ engine.identity identity = some record
        ∧ record.authMode = .signed := by
  unfold identityOfSession at presented
  obtain ⟨id, named, presented⟩ := Option.bind_eq_some_iff.mp presented
  obtain ⟨found, there, presented⟩ := Option.bind_eq_some_iff.mp presented
  obtain ⟨record, known, presented⟩ := Option.bind_eq_some_iff.mp presented
  split at presented
  case isTrue signed =>
    cases presented
    exact ⟨id, found, record, named, there, rfl, known, signed⟩
  case isFalse => cases presented

/-- Every request is routed by an identity that it proves, off the `receive` that it came with,
unless more of the body is awaited. An identity that is proved by the id of a session is the one
of the session that the request names.
-/
theorem route_of_mcpEndpoint
    (done : mcpEndpoint loads engine registry creation scope receive = .ok handling)
    : handling = .wait
      ∨ ∃ headers identityId,
          scope.headerDict = .ok headers
          ∧ route engine registry creation scope (headers.lookup mcpSessionIdHeader) identityId
              receive = handling
          ∧ ∀ session,
              identityId = some session.interceptor.identityId
              → (headers.lookup mcpSessionIdHeader = some session.id ∨ scope.method = "POST")
              → Authenticates loads engine scope receive session := by
  unfold mcpEndpoint at done
  cases decoded : scope.headerDict with
  | error exn => rw [decoded] at done; cases done
  | ok headers =>
  rw [decoded] at done
  simp only [bind, Except.bind] at done
  cases presented : headers.lookup keyHeader with
  | some key =>
      rw [presented] at done
      refine .inr ⟨headers, _, rfl, Except.ok.inj done, ?_⟩
      intro session identity _
      exact .key decoded presented (resolveIdentity_eq_some identity)
  | none =>
      rw [presented] at done
      dsimp only at done
      split at done
      case isTrue post =>
        rw [bufferBody_eq] at done
        cases read : readBody receive with
        | none =>
            rw [read] at done
            exact .inl (Except.ok.inj done).symm
        | some body =>
            rw [read, Option.map_some] at done
            dsimp only at done
            cases verified : identityOfBody loads engine body with
            | error exn => rw [verified] at done; cases done
            | ok identityId =>
                rw [verified] at done
                refine .inr ⟨headers, _, rfl, Except.ok.inj done, ?_⟩
                intro session identity _
                subst identity
                obtain ⟨message, parsed, signed⟩ := identityOfBody_eq_some verified
                exact .signature decoded presented post read parsed signed
      case isFalse other =>
        refine .inr ⟨headers, _, rfl, Except.ok.inj done, ?_⟩
        intro session identity named
        obtain ⟨id, found, record, -, -, -, known, signed⟩ := identityOfSession_eq_some identity
        exact .sessionId decoded presented other known signed (named.resolve_right other)

/-- Whenever the endpoint hands a request to the transport of a session, the session is on the
server of the path, which the active policy has registered, and the request is one of its
identity, as the transport reads it. The sessions stay what they are, unless one is created for
the request, and then it is for such an identity and for that server too.
-/
theorem session_bound (done : mcpEndpoint loads engine registry creation scope receive = .ok handling)
    : (∀ session handed after,
        handling = .hand session handed after
        → session.interceptor.serverId = scope.serverId
          ∧ (engine.serverCommand scope.serverId).isSome
          ∧ Authenticates loads engine scope handed session)
      ∧ ∀ after,
          handling.registry? = some after
          → after = registry
            ∨ after = creation.registry
            ∨ ∃ session,
                CreatedFor engine creation scope session after
                ∧ Authenticates loads engine scope receive session := by
  rcases route_of_mcpEndpoint done with rfl | ⟨headers, identityId, decoded, routed, proves⟩
  · exact ⟨by simp, by simp [Handling.registry?]⟩
  rcases route_cases decoded routed with
    ⟨status, text, rfl⟩ |
    ⟨sessionId, session, named, found, identity, server, registered, rfl⟩ |
    ⟨status, text, rfl⟩ |
    ⟨session, after, identity, created, ⟨status, text, rfl⟩ | rfl⟩
  · refine ⟨by simp, ?_⟩
    intro after same
    exact .inl (Option.some.inj same).symm
  · refine ⟨?_, ?_⟩
    · intro other handed after same
      cases same
      refine ⟨server, registered, proves session identity (.inl ?_)⟩
      rw [named, registry.keyed _ _ found]
    · intro after same
      exact .inl (Option.some.inj same).symm
  · refine ⟨by simp, ?_⟩
    intro after same
    exact .inr (.inl (Option.some.inj same).symm)
  · refine ⟨by simp, ?_⟩
    intro left same
    cases same
    exact .inr (.inr ⟨session, created, proves session identity (.inr created.post)⟩)
  · have proved := proves session identity (.inr created.post)
    refine ⟨?_, ?_⟩
    · intro other handed left same
      cases same
      exact ⟨created.server, created.registered, proved⟩
    · intro left same
      cases same
      exact .inr (.inr ⟨session, created, proved⟩)

end

/-- A header of ASCII text. -/
def header (name value : String) : Bytes × Bytes :=
  (name.toUTF8.toList, value.toUTF8.toList)

/-- A policy with one signed identity and one server. -/
def signedPolicy : PolicyEngine where
  policy := {
    version := 1
    servers := [("mail", "serve-mail")]
    identities := [{ id := "agent", authMode := .signed, keyId := some "k1" }]
  }

/-- A request for the events of a session. -/
def streamScope : Scope where
  method := "GET"
  path := "/mcp/mail"
  rootPath := "/mcp"
  headers := [header "mcp-session-id" "s1"]

theorem streamScope_headers : streamScope.headerDict = .ok [("mcp-session-id", "s1")] := by
  decide +kernel

/-- Witness: a signed session's own id opens its event stream. -/
theorem stream_of_own_session
    : let session : Session := ⟨"s1", ⟨"agent", "mail"⟩⟩
      session.interceptor.serverId = streamScope.serverId
      ∧ (signedPolicy.serverCommand streamScope.serverId).isSome
      ∧ Authenticates (fun _ => .error .valueError) signedPolicy streamScope [] session := by
  let session : Session := ⟨"s1", ⟨"agent", "mail"⟩⟩
  let registry := Registry.empty.add session
  have server : streamScope.serverId = "mail" := by decide +kernel
  have done : mcpEndpoint (fun _ => .error .valueError) signedPolicy registry
      ⟨signedPolicy, .error .unavailable, registry, .ok ()⟩ streamScope []
      = .ok (.hand session [] registry) := by
    unfold mcpEndpoint
    rw [streamScope_headers]
    simp only [bind, Except.bind, route, server]
    rfl
  exact (session_bound done).1 session [] registry rfl

end Edge

end SecureMcp
