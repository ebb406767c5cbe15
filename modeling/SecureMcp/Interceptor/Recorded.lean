import SecureMcp.Drift.Outcome
import SecureMcp.Interceptor.Forwarding

/-! Forwarded tool calls against their records. Requests are recorded before they are
forwarded; a notification of the same method skips the pipeline. What is forwarded is what
was checked unless the normalization of the name or of the arguments changed it.
-/

namespace SecureMcp

open Interaction

namespace Interceptor

open Coroutine

/-- How a pipeline that ended settles its call. -/
def settled : Except Stop ClientMessage → Except Exn Outcome
  | .ok message => .ok (.forward message)
  | .error (.respond response) => .ok (.respond response)
  | .error (.raised exn) => .error exn

theorem exec_settle_iff {body : Stage ClientMessage} {events : List (Event Reply)}
    {outcome : Except Exn Outcome}
    : (settle body).run.Exec events outcome
      ↔ ∃ ended, body.run.Exec events ended ∧ outcome = settled ended := by
  unfold settle
  rw [exec_attempt_bind_iff]
  refine ⟨?_, ?_⟩
  · rintro ⟨first, rest, ended, rfl, exec, last⟩
    rcases ended with (response | exn) | message <;>
      obtain ⟨rfl, rfl⟩ := Program.exec_done_iff.mp last <;>
      exact ⟨_, by simpa using exec, rfl⟩
  · rintro ⟨ended, exec, rfl⟩
    refine ⟨events, [], ended, by simp, exec, ?_⟩
    rcases ended with (response | exn) | message <;> exact .done _

/-- A settled pipeline forwards the message that the pipeline ended with. -/
theorem exec_settle_forward_iff {body : Stage ClientMessage} {events : List (Event Reply)}
    {message : ClientMessage}
    : (settle body).run.Exec events (.ok (.forward message))
      ↔ body.run.Exec events (.ok message) := by
  rw [exec_settle_iff]
  refine ⟨?_, fun exec => ⟨_, exec, rfl⟩⟩
  rintro ⟨(response | exn) | message, exec, same⟩ <;> cases same
  exact exec

/-- (Records entry call) means that an audit row is the ALLOW row of a call. -/
structure Records (entry : AuditEntry) (call : ToolCall) : Prop where
  eventType : entry.eventType = .allow
  identityId : entry.identityId = call.key.identityId
  serverId : entry.serverId = some call.key.serverId
  toolName : entry.toolName = some call.key.toolName
  arguments : entry.payloadExtra.lookup "arguments" = some call.arguments

section

variable {runtime : Runtime} {session : Session} {events : List (Event Reply)}

/-- A call that is forwarded has passed the pipeline. -/
theorem passed_of_forward {requestId : RequestId} {params : Option Params}
    {forwarded : ClientMessage}
    (exec : (onClientMessage runtime session (.request requestId "tools/call" params)).run.Exec
      events (.ok (.forward forwarded)))
    : ∃ rest,
        events = ⟨.setPending requestId "tools/call", ()⟩ :: rest
        ∧ Passed runtime session requestId params rest forwarded := by
  obtain ⟨reply, rest, same, settled⟩ := exec_ask_bind_iff.mp exec
  exact ⟨rest, same, exec_authorizeCall_ok (exec_settle_forward_iff.mp settled)⟩

theorem recorded_of_allowStage {call : ToolCall} {risk : Option (Int × List RiskFactor)}
    {approvalId challengeId : Option String}
    (exec : (allowStage call risk approvalId challengeId).run.Exec events (.ok ()))
    : ∃ entry seq, ⟨.write entry, .ok seq⟩ ∈ events ∧ Records entry call := by
  obtain ⟨engine, seq, written⟩ := exec_allowStage_ok exec
  refine ⟨_, seq, ?_, ⟨rfl, rfl, rfl, rfl, lookup_allowEntry engine.version risk approvalId challengeId⟩⟩
  rw [written]
  exact List.mem_cons_of_mem _ List.mem_cons_self

/-- The pipeline recorded a forwarded call in an ALLOW row. -/
theorem Passed.recorded {requestId : RequestId} {params : Option Params}
    {message : ClientMessage}
    (passed : Passed runtime session requestId params events message)
    : ∃ entry seq,
        ⟨.write entry, .ok seq⟩ ∈ events
        ∧ Records entry (toolCallOf session requestId (params.getD [])) := by
  cases passed with
  | intro normalized _ _ _ _ _ _ _ _ _ _ _ allowRecorded =>
      obtain ⟨entry, seq, written, records⟩ := recorded_of_allowStage allowRecorded
      subst normalized
      refine ⟨entry, seq, List.mem_cons_of_mem _ ?_, records⟩
      simp only [List.mem_append, written, or_true]

end

/-- One handled message, with the exchanges of its handling and the way it ended. -/
structure Handling where
  message : ClientMessage
  events : List (Event Reply)
  outcome : Except Exn Outcome

/-- (Handles runtime session run) means that a session handled the messages of `run`, under
any behaviour of the stores.
-/
def Handles (runtime : Runtime) (session : Session) (run : List Handling) : Prop :=
  ∀ handling ∈ run,
    (onClientMessage runtime session handling.message).run.Exec handling.events
      handling.outcome

/-- An ALLOW row for a session and a tool was written. -/
def AllowRecorded (session : Session) (toolName : String) (events : List (Event Reply))
    : Prop :=
  ∃ entry seq,
    ⟨.write entry, .ok seq⟩ ∈ events
    ∧ entry.eventType = .allow
    ∧ entry.identityId = session.identityId
    ∧ entry.serverId = some session.serverId
    ∧ entry.toolName = some toolName

/-- A handled message that is a tool call and is forwarded has its ALLOW row. -/
def Handling.Accounted (session : Session) (handling : Handling) : Prop :=
  ∀ forwarded,
    handling.outcome = .ok (.forward forwarded)
    → handling.message.method? = some "tools/call"
    → AllowRecorded session (toolNameOf (handling.message.params?.getD [])) handling.events

/-- A message is accounted for unless it is a notification that names the method. -/
theorem accounted_iff {runtime : Runtime} {session : Session} {handling : Handling}
    (exec : (onClientMessage runtime session handling.message).run.Exec handling.events
      handling.outcome)
    : handling.Accounted session
      ↔ ∀ params, handling.message ≠ .notification "tools/call" params := by
  obtain ⟨message, events, outcome⟩ := handling
  refine ⟨?_, ?_⟩
  · intro accounted params same
    subst same
    obtain ⟨empty, forwarded⟩ := Program.exec_done_iff.mp exec
    obtain ⟨entry, seq, written, _⟩ := accounted _ forwarded.symm rfl
    rw [empty] at written
    cases written
  · intro never forwarded ended named
    subst ended
    cases message with
    | request requestId method params =>
        cases named
        obtain ⟨rest, same, passed⟩ := passed_of_forward exec
        obtain ⟨entry, seq, written, records⟩ := passed.recorded
        refine ⟨entry, seq, ?_, records.eventType, records.identityId, records.serverId,
          records.toolName⟩
        rw [same]
        exact List.mem_cons_of_mem _ written
    | notification method params =>
        cases named
        exact absurd rfl (never params)
    | response | error => cases named

/-- In a session's run every forwarded tool call has its own ALLOW row exactly when none of
the handled messages is a notification of that method.
-/
theorem every_forward_recorded_iff {runtime : Runtime} {session : Session}
    {run : List Handling} (handles : Handles runtime session run)
    : (∀ handling ∈ run, handling.Accounted session)
      ↔ ∀ handling ∈ run, ∀ params, handling.message ≠ .notification "tools/call" params := by
  refine ⟨?_, ?_⟩
  · intro accounted handling member
    exact (accounted_iff (handles handling member)).mp (accounted handling member)
  · intro never handling member
    exact (accounted_iff (handles handling member)).mpr (never handling member)

/-- A session that may call every tool of the mail server. -/
def mailSession : Session where
  identityId := "agent"
  serverId := "mail"

/-- A policy under which the agent may call every tool. -/
def openPolicy : PolicyEngine where
  policy := {
    version := 1
    identities := [{
      id := "agent"
      allowedServers := [{ serverId := "mail", allowedTools := ["*"] }]
    }]
  }

/-- Replies with which every check passes; the server lists one tool without parameters. -/
def permitted : (call : Call) → Reply call
  | .engine => openPolicy
  | .cacheGet _ => .ok (some [[("name", .str "send_mail"), ("inputSchema", .obj [("type", .str "object")])]])
  | call => DriftDetector.granted call

/-- A request to call the tool with the given arguments. -/
def sendCall (arguments : Json) : ClientMessage :=
  .request (.int 1) "tools/call" (some [("name", .str "send_mail"), ("arguments", arguments)])

/-- The handling of a message when every check passes. -/
def permittedHandling (message : ClientMessage) : Handling where
  message := message
  events := ((onClientMessage DriftDetector.calm mailSession message).run.play permitted).1
  outcome := ((onClientMessage DriftDetector.calm mailSession message).run.play permitted).2

theorem handles_permitted (message : ClientMessage)
    : Handles DriftDetector.calm mailSession [permittedHandling message] := by
  intro handling member
  cases List.mem_singleton.mp member
  exact Program.exec_play permitted _

/-- Witness: a request that passes every check has its row. -/
theorem permitted_call_recorded
    : (permittedHandling (sendCall (.obj []))).outcome = .ok (.forward (sendCall (.obj [])))
      ∧ (permittedHandling (sendCall (.obj []))).Accounted mailSession := by
  refine ⟨rfl, (every_forward_recorded_iff (handles_permitted _)).mpr ?_ _ List.mem_cons_self⟩
  intro handling member params
  cases List.mem_singleton.mp member
  intro same
  cases same

/-- A notification of the method, which names a tool that the agent may call. -/
def sendNotification : ClientMessage :=
  .notification "tools/call" (some [("name", .str "send_mail")])

/-- A notification of the method is forwarded, and nothing at all is recorded. -/
theorem notification_forwarded_unrecorded
    : Handles DriftDetector.calm mailSession [permittedHandling sendNotification]
      ∧ (permittedHandling sendNotification).outcome = .ok (.forward sendNotification)
      ∧ ¬ (permittedHandling sendNotification).Accounted mailSession := by
  refine ⟨handles_permitted _, rfl, ?_⟩
  intro accounted
  have handled := handles_permitted sendNotification _ List.mem_cons_self
  exact (accounted_iff handled).mp accounted _ rfl

-----------------------------------------------------------------------------------------
-- What is forwarded against what was checked
-----------------------------------------------------------------------------------------

/-- The arguments that a message carries; absent or null arguments count as an empty object.
-/
def carriedArguments (params : Params) : Json :=
  match params.lookup "arguments" with
  | none | some .null => .obj []
  | some arguments => arguments

/-- (message.Carries call) means that a message carries exactly the name and the arguments of
a call.
-/
def ClientMessage.Carries (message : ClientMessage) (call : ToolCall) : Prop :=
  ∃ params,
    message.params? = some params
    ∧ params.lookup "name" = some (.str call.key.toolName)
    ∧ carriedArguments params = call.arguments

/-- (Checked … call events) means that RBAC, scoring, hashing and validation were applied to
the name and the arguments of a call, and that its ALLOW row records them.
-/
structure Checked (runtime : Runtime) (session : Session) (call : ToolCall)
    (events : List (Event Reply))
    : Prop where
  granted : ∃ engine : PolicyEngine,
    ⟨.engine, engine⟩ ∈ events
    ∧ engine.isAllowed session.identityId session.serverId call.key.toolName
  consulted : ∀ event ∈ events, Consults call event.call
  validated : ∃ schema fetched,
    fetched <:+: events
    ∧ (inputSchemaFor runtime session call.key.toolName).run.Exec fetched (.ok schema)
    ∧ ParamValidator.validate runtime call.arguments schema = .ok none
  recorded : ∃ entry seq, ⟨.write entry, .ok seq⟩ ∈ events ∧ Records entry call

/-- The name is a JSON string, and the arguments are absent, null or an object. -/
def Plain (params : Params) : Prop :=
  (∃ name, params.lookup "name" = some (.str name))
  ∧ (params.lookup "arguments" = none
    ∨ params.lookup "arguments" = some .null
    ∨ ∃ fields, params.lookup "arguments" = some (.obj fields))

/-- Stripping the gateway's keys changes `_meta` only. -/
theorem lookup_stripGatewayMeta {key : String} (other : key ≠ "_meta") (params : Params)
    : (stripGatewayMeta params).lookup key = params.lookup key := by
  unfold stripGatewayMeta
  split
  · split
    · exact Dict.lookup_erase other params
    · rw [Dict.lookup_set, if_neg other]
  · rfl

theorem carriedArguments_strip (params : Params)
    : carriedArguments (stripGatewayMeta params) = carriedArguments params := by
  unfold carriedArguments
  rw [lookup_stripGatewayMeta (by decide)]

/-- Only objects are validated without an error. -/
theorem object_of_validate {runtime : Runtime} {arguments schema : Json}
    (valid : ParamValidator.validate runtime arguments schema = .ok none)
    : ∃ fields, arguments = .obj fields := by
  have values {properties : Json}
      (valid : ParamValidator.validateValues runtime arguments properties = .ok none)
      : ∃ fields, arguments = .obj fields := by
    unfold ParamValidator.validateValues at valid
    split at valid
    · cases valid
    · cases valid
    · cases valid
    · split at valid
      · exact ⟨_, rfl⟩
      · cases valid
  unfold ParamValidator.validate at valid
  cases found : schema.get "properties" with
  | error exn =>
      rw [found] at valid
      cases valid
  | ok properties =>
      rw [found] at valid
      simp only [bind, Except.bind] at valid
      split at valid
      · next properties =>
          cases unknown : ParamValidator.unknownFields arguments properties with
          | error exn =>
              rw [unknown] at valid
              cases valid
          | ok fields =>
              rw [unknown] at valid
              simp only at valid
              split at valid
              · exact values valid
              · cases sorted : ParamValidator.sortedSet fields <;>
                  simp [sorted, pure, Except.pure] at valid
      · exact values valid

/-- Arguments that are an object are carried as they are, by absence and null as well. -/
theorem carriedArguments_eq_obj_iff {params : Params} {fields : List (String × Json)}
    (object : carriedArguments params = .obj fields)
    : params.lookup "arguments" = none
      ∨ params.lookup "arguments" = some .null
      ∨ ∃ fields, params.lookup "arguments" = some (.obj fields) := by
  unfold carriedArguments at object
  split at object
  · next absent => exact Or.inl absent
  · next null => exact Or.inr (Or.inl null)
  · next arguments _ given => exact Or.inr (Or.inr ⟨fields, object ▸ given⟩)

/-- Plain requests carry the name and the arguments that they are decided under. -/
theorem Plain.carried {params : Params} (plain : Plain params)
    : params.lookup "name" = some (.str (toolNameOf params))
      ∧ carriedArguments params = argumentsOf params := by
  obtain ⟨⟨name, named⟩, given⟩ := plain
  refine ⟨by simp [toolNameOf, named, Json.pyStr], ?_⟩
  unfold carriedArguments argumentsOf
  rcases given with absent | null | ⟨fields, object⟩
  · simp [absent, Json.orEmpty, Json.truthy]
  · simp [null, Json.orEmpty, Json.truthy]
  · rw [object]
    cases fields <;> simp [Json.orEmpty, Json.truthy]

section

variable {runtime : Runtime} {session : Session} {events : List (Event Reply)}
  {requestId : RequestId} {params : Option Params} {forwarded : ClientMessage}

/-- A call that is forwarded was checked under its normalized name and arguments. -/
theorem checked_of_forward
    (exec : (onClientMessage runtime session (.request requestId "tools/call" params)).run.Exec
      events (.ok (.forward forwarded)))
    : Checked runtime session (toolCallOf session requestId (params.getD [])) events := by
  obtain ⟨reply, rest, same, settled⟩ := exec_ask_bind_iff.mp exec
  have pipeline := exec_settle_forward_iff.mp settled
  have passed := exec_authorizeCall_ok pipeline
  have later {event : Event Reply} (member : event ∈ rest) : event ∈ events :=
    same ▸ List.mem_cons_of_mem _ member
  refine ⟨?_, ?_, ?_, ?_⟩
  · cases passed with
    | intro normalized _ _ rbacPassed _ _ _ _ _ _ _ _ _ =>
        obtain ⟨engine, read, matched⟩ := exec_rbacStage_ok rbacPassed
        subst normalized
        refine ⟨engine, later (List.mem_cons_of_mem _ ?_), ?_⟩
        · simp only [List.mem_append, read, List.mem_singleton, true_or, or_true]
        · unfold PolicyEngine.isAllowed
          exact Option.isSome_iff_exists.mpr ⟨_, matched⟩
  · intro event member
    rw [same] at member
    rcases List.mem_cons.mp member with here | tail
    · rw [here]
      exact Or.inl trivial
    · exact consults_of_exec pipeline event tail
  · cases passed with
    | intro normalized _ _ _ _ _ _ _ _ _ _ validationPassed _ =>
        obtain ⟨schema, found, _, valid⟩ := exec_validationStage_ok validationPassed
        subst normalized
        refine ⟨schema, _, ?_, found, valid⟩
        rw [same]
        refine List.infix_cons (List.infix_cons ?_)
        simp only [← List.append_assoc]
        exact (List.suffix_append _ _).isInfix.trans (List.prefix_append _ _).isInfix
  · obtain ⟨entry, seq, written, records⟩ := passed.recorded
    exact ⟨entry, seq, later written, records⟩

/-- What is forwarded for a call: its own parameters without the gateway's keys. -/
theorem forwarded_of_forward
    (exec : (onClientMessage runtime session (.request requestId "tools/call" params)).run.Exec
      events (.ok (.forward forwarded)))
    : forwarded.params? = params.map stripGatewayMeta := by
  obtain ⟨rest, _, passed⟩ := passed_of_forward exec
  cases passed
  rfl

/-- A forwarded message carries something that was checked only if nothing in the request had
to be normalized.
-/
theorem plain_of_carries {call : ToolCall}
    (exec : (onClientMessage runtime session (.request requestId "tools/call" params)).run.Exec
      events (.ok (.forward forwarded)))
    (checked : Checked runtime session call events) (carries : forwarded.Carries call)
    : Plain (params.getD []) := by
  obtain ⟨sent, carried, named, given⟩ := carries
  obtain ⟨original, rfl, stripped⟩ :=
    Option.map_eq_some_iff.mp ((forwarded_of_forward exec).symm.trans carried)
  subst stripped
  rw [lookup_stripGatewayMeta (by decide)] at named
  rw [carriedArguments_strip] at given
  obtain ⟨schema, _, _, _, valid⟩ := checked.validated
  obtain ⟨fields, object⟩ := object_of_validate valid
  exact ⟨⟨_, named⟩, carriedArguments_eq_obj_iff (given.trans object)⟩

/-- What is forwarded is what was checked exactly when the request's name is a string and its
arguments are an object, null or absent.
-/
theorem forwarded_as_checked_iff
    (exec : (onClientMessage runtime session (.request requestId "tools/call" params)).run.Exec
      events (.ok (.forward forwarded)))
    : (∃ call, Checked runtime session call events ∧ forwarded.Carries call)
      ↔ Plain (params.getD []) := by
  refine ⟨?_, ?_⟩
  · intro ⟨call, checked, carries⟩
    exact plain_of_carries exec checked carries
  · intro plain
    refine ⟨_, checked_of_forward exec, ?_⟩
    have sent := forwarded_of_forward exec
    cases params with
    | none =>
        obtain ⟨⟨_, impossible⟩, _⟩ := plain
        cases impossible
    | some params =>
        obtain ⟨named, given⟩ := Plain.carried plain
        refine ⟨_, sent, ?_, ?_⟩
        · rw [lookup_stripGatewayMeta (by decide)]
          exact named
        · rw [carriedArguments_strip]
          exact given

end

/-- Witness: an ordinary request is forwarded as it was checked. -/
theorem permitted_call_forwarded_as_checked
    : ∃ call,
        Checked DriftDetector.calm mailSession call (permittedHandling (sendCall (.obj []))).events
        ∧ (sendCall (.obj [])).Carries call :=
  (forwarded_as_checked_iff (handles_permitted (sendCall (.obj [])) _ List.mem_cons_self)).mpr
    ⟨⟨"send_mail", rfl⟩, Or.inr (Or.inr ⟨[], rfl⟩)⟩

/-- Arguments that are an empty list are checked and recorded as an empty object, and then
forwarded as the list.
-/
theorem list_forwarded_unchecked
    : (onClientMessage DriftDetector.calm mailSession (sendCall (.arr []))).run.Exec
        (permittedHandling (sendCall (.arr []))).events (.ok (.forward (sendCall (.arr []))))
      ∧ ¬ ∃ call,
          Checked DriftDetector.calm mailSession call
            (permittedHandling (sendCall (.arr []))).events
          ∧ (sendCall (.arr [])).Carries call := by
  have exec := handles_permitted (sendCall (.arr [])) _ List.mem_cons_self
  refine ⟨exec, ?_⟩
  intro ⟨call, checked, carries⟩
  obtain ⟨_, absent | null | ⟨fields, object⟩⟩ := plain_of_carries exec checked carries
  · cases absent
  · cases null
  · cases object

end Interceptor

end SecureMcp
