import SecureMcp.Interceptor.Etag
import SecureMcp.Interceptor.Recorded
import SecureMcp.Library.Interleaving

/-! Every tools list that answers a request of the client has been checked for drift and pruned, as
long as the ids of requests and responses tell which response answers which request.
-/

namespace SecureMcp

open Interaction

/-- An id as it is printed: the client's transport matches a response to its request by that. -/
def RequestId.text : RequestId → String
  | .int value => toString value
  | .str text => text

namespace Interceptor

/-- The request that a message answers. -/
def ClientMessage.answers? : ClientMessage → Option RequestId
  | .response id _ | .error id _ _ => some id
  | .request _ _ _ | .notification _ _ => none

-----------------------------------------------------------------------------------------
-- What a message of the client does
-----------------------------------------------------------------------------------------

/-- What the decision of a request asks: it notes no request, and drops its own one at most. -/
def DropsOwn (id : RequestId) : Call → Prop
  | .setPending _ _ => False
  | .popPending dropped => dropped = id
  | _ => True

theorem permits_dropsOwn {id : RequestId} {call : ToolCall} : Permits (DropsOwn id) call where
  engine := trivial
  time := trivial
  utcHour := trivial
  setNonce _ _ := trivial
  problem _ _ := trivial
  isBlocked := trivial
  redeemChallenge _ _ _ _ _ := trivial
  redeemApproval _ _ _ := trivial

theorem dropsOwn_of_driftCheck {id : RequestId} {asked : Call} (drift : asked.OfDriftCheck)
    : DropsOwn id asked := by
  cases asked <;> first | exact drift.elim | trivial

theorem fetches_dropsOwn {id : RequestId} {serverId : String} : Fetches (DropsOwn id) serverId where
  cacheGet := trivial
  cacheSet _ := trivial
  listTools := trivial
  detector _ := dropsOwn_of_driftCheck

theorem Terminates.dropsOwn {call : ToolCall} {last : List (Event Reply)}
    (answered : Terminates call last)
    : ∀ event ∈ last, DropsOwn call.requestId event.call := by
  cases answered with
  | deny => simp [DropsOwn]
  | unrecorded => simp [DropsOwn]
  | hold engine versioned kind holds =>
      obtain ⟨recorded, rest, rfl, rfl | ⟨seq, hash, rfl, hashed, ⟨_, reply, rfl⟩ | ⟨_, reply, rfl⟩⟩⟩ :=
        exec_hold holds <;>
        simp [DropsOwn]

section

variable {runtime : Runtime} {session : Session}

theorem dropsOwn_of_authorizeCall {id : RequestId} {params : Option Params}
    {events : List (Event Reply)} {outcome : Except Stop ClientMessage}
    (exec : (authorizeCall runtime session id params).run.Exec events outcome)
    : ∀ event ∈ events, DropsOwn id event.call := by
  obtain ⟨first, last, rfl, quiet, ended⟩ :=
    settles_authorizeCall rfl permits_dropsOwn (fun _ => trivial) fetches_dropsOwn events outcome exec
  have answer : ∀ event ∈ last, DropsOwn id event.call := by
    rcases outcome with (response | exn) | message
    · exact Terminates.dropsOwn ended.1
    · cases (ended : last = [])
      simp
    · obtain ⟨_, _, _, _, _, rfl⟩ := ended
      simp [DropsOwn]
  exact fun event member => (List.mem_append.mp member).elim (quiet event) (answer event)

/-- What follows the note of a request: only a tool call's is dropped again, and only by itself. -/
def AfterNote (id : RequestId) (method : String) : SessionCall → Prop
  | .outer (.setPending _ _) => False
  | .outer (.popPending dropped) => dropped = id ∧ method = "tools/call"
  | .outer _ => True
  | .internal _ | .takePending _ => False
  | .serve message => ∀ id fields, message ≠ .response id fields

/-- An event of the pipeline, among those of the session. -/
def ofOuter (event : Event Reply) : Event SessionReply :=
  ⟨.outer event.call, event.reply⟩

theorem exec_ofPipeline_iff {α : Type} {body : Async α} {inner : List (Event SessionReply)}
    {outcome : Except Exn α}
    : (ofPipeline body).run.Exec inner outcome
      ↔ ∃ events, body.run.Exec events outcome ∧ inner = events.map ofOuter := by
  have single (asked : Call) (reply : Reply asked) (first : List (Event SessionReply))
      (handled : (passOuter asked).Exec first reply)
      : first = [ofOuter ⟨asked, reply⟩] := by
    obtain ⟨answer, rest, rfl, ended⟩ := Program.exec_ask_iff.mp handled
    obtain ⟨rfl, rfl⟩ := Program.exec_done_iff.mp ended
    rfl
  refine ⟨?_, ?_⟩
  · intro exec
    obtain ⟨events, exec, expands⟩ := Program.exec_expand_iff.mp exec
    exact ⟨events, exec, expands.eq_map single⟩
  · intro ⟨events, exec, same⟩
    subst same
    refine Program.exec_expand_iff.mpr ⟨events, exec, ?_⟩
    clear exec
    induction events with
    | nil => exact .nil
    | cons event rest ih =>
        have here : (passOuter event.call).Exec [ofOuter event] event.reply := .ask (.done _)
        exact .cons here ih

/-- A message of the client notes its request first, if it is one, and what follows keeps every
other note.
-/
theorem exec_clientToUpstream {message : ClientMessage} {events : List (Event SessionReply)}
    {outcome : Except Exn Unit}
    (exec : (clientToUpstream runtime session message).run.Exec events outcome)
    : events = []
      ∨ ∃ id method params rest,
        message = .request id method params
        ∧ events = ⟨.outer (.setPending id method), ()⟩ :: rest
        ∧ ∀ event ∈ rest, AfterNote id method event.call := by
  rw [clientToUpstream, Coroutine.run_bind] at exec
  obtain ⟨first, second, ended, rfl, passing, answering⟩ := Program.exec_bind_iff.mp exec
  obtain ⟨inner, handled, rfl⟩ := exec_ofPipeline_iff.mp passing
  have answered (id : RequestId) (method : String)
      : ∀ event ∈ second, AfterNote id method event.call := by
    rcases ended with exn | outcome | response
    · obtain ⟨rfl, _⟩ := Program.exec_done_iff.mp answering
      simp
    · obtain ⟨rfl, _⟩ := Program.exec_done_iff.mp answering
      simp
    · obtain ⟨_, _, rfl, done⟩ := Program.exec_ask_iff.mp answering
      obtain ⟨rfl, _⟩ := Program.exec_done_iff.mp done
      simp [AfterNote, ErrorResponse.toMessage]
  have forwarded {other : ClientMessage} (none : inner = [])
      (same : ended = .ok (.forward other))
      : inner.map ofOuter ++ second = [] := by
    subst same none
    exact (Program.exec_done_iff.mp answering).1
  cases message with
  | request id method params =>
      refine Or.inr ⟨id, method, params, ?_⟩
      obtain ⟨_, rest, rfl, dispatched⟩ := Coroutine.exec_ask_bind_iff.mp handled
      refine ⟨rest.map ofOuter ++ second, rfl, rfl, ?_⟩
      have noted : ∀ event ∈ rest, AfterNote id method (.outer event.call) := by
        by_cases handshake : method = "initialize"
        · simp only [handshake, if_true] at dispatched
          obtain ⟨reply, more, rfl, ⟨_, _, last⟩ | ⟨_, _, rfl, _⟩⟩ :=
            Coroutine.exec_demand_bind dispatched
          · obtain ⟨rfl, _⟩ := Program.exec_done_iff.mp last
            simp [AfterNote]
          · simp [AfterNote]
        · simp only [handshake, if_false] at dispatched
          by_cases isCall : method = "tools/call"
          · simp only [isCall, if_true] at dispatched
            obtain ⟨_, pipeline, _⟩ := exec_settle_iff.mp dispatched
            intro event member
            have drops := dropsOwn_of_authorizeCall pipeline event member
            obtain ⟨asked, reply⟩ := event
            cases asked <;> first | exact drops.elim | exact ⟨drops, isCall⟩ | trivial
          · simp only [isCall, if_false] at dispatched
            obtain ⟨rfl, _⟩ := Program.exec_done_iff.mp dispatched
            simp
      intro event member
      rcases List.mem_append.mp member with early | late
      · obtain ⟨event, among, rfl⟩ := List.mem_map.mp early
        exact noted event among
      · exact answered id method event late
  | notification | response | error =>
      obtain ⟨none, same⟩ := Program.exec_done_iff.mp handled
      exact Or.inl (forwarded none same.symm)

-----------------------------------------------------------------------------------------
-- What a message of the upstream server does
-----------------------------------------------------------------------------------------

def OfInternal (event : Event SessionReply) : Prop :=
  ∃ text, event.call = .internal text

/-- (HandlesUpstream runtime session message events outcome) lists the ways in which an upstream message is
handled: it answers the gateway itself, it is passed on, or it is a list that is pruned, unless the
handling of the list raises.
-/
inductive HandlesUpstream (runtime : Runtime) (session : Session) (message : ClientMessage)
    : List (Event SessionReply) → Except Exn Unit → Prop
  | own {asked : List (Event SessionReply)} (internal : ∀ event ∈ asked, OfInternal event)
    : HandlesUpstream runtime session message asked (.ok ())
  | unmatched (answers : message.answers? = none)
    : HandlesUpstream runtime session message [⟨.serve message, ()⟩] (.ok ())
  | passed {asked : List (Event SessionReply)} {id : RequestId} {method : Option String}
    (internal : ∀ event ∈ asked, OfInternal event) (answers : message.answers? = some id)
    (other : ∀ result, message = .response id result → method ≠ some "tools/list")
    : HandlesUpstream runtime session message
        (asked ++ [⟨.takePending id, method⟩, ⟨.serve message, ()⟩]) (.ok ())
  | pruned {asked : List (Event SessionReply)} {id : RequestId} {result : List (String × Json)}
    {events : List (Event Reply)} {served : Served} (internal : ∀ event ∈ asked, OfInternal event)
    (same : message = .response id result)
    (prunes : (pruneToolsList runtime session id result).run.Exec events (.ok served))
    : HandlesUpstream runtime session message
        (asked ++ ⟨.takePending id, some "tools/list"⟩
          :: (events.map ofOuter ++ [⟨.serve (served.toMessage id), ()⟩]))
        (.ok ())
  | raised {asked : List (Event SessionReply)} {id : RequestId} {result : List (String × Json)}
    {events : List (Event Reply)} {exn : Exn} (internal : ∀ event ∈ asked, OfInternal event)
    (same : message = .response id result)
    (prunes : (pruneToolsList runtime session id result).run.Exec events (.error exn))
    : HandlesUpstream runtime session message
        (asked ++ ⟨.takePending id, some "tools/list"⟩ :: events.map ofOuter) (.error exn)

/-- What follows the look at the gateway's own requests. -/
theorem exec_isInternal_bind {α : Type} {id : RequestId} {next : Bool → SessionAsync α}
    {events : List (Event SessionReply)} {outcome : Except Exn α}
    (exec : (isInternal id >>= next).run.Exec events outcome)
    : ∃ asked own rest,
        events = asked ++ rest
        ∧ (∀ event ∈ asked, OfInternal event)
        ∧ (next own).run.Exec rest outcome := by
  cases id with
  | int value => exact ⟨[], false, events, rfl, by simp, exec⟩
  | str text =>
      obtain ⟨own, rest, rfl, continued⟩ := Coroutine.exec_ask_bind_iff.mp exec
      exact ⟨[_], own, rest, rfl, by simp [OfInternal], continued⟩

/-- What is served in the end is what the dispatch returned. -/
theorem exec_upstreamToClient {message : ClientMessage} {events : List (Event SessionReply)}
    {outcome : Except Exn Unit}
    (exec : (upstreamToClient runtime session message).run.Exec events outcome)
    : ∃ first ended,
        (onUpstreamMessage runtime session message).run.Exec first ended
        ∧ ((ended = .ok none ∧ events = first ∧ outcome = .ok ())
          ∨ (∃ served,
            ended = .ok (some served) ∧ events = first ++ [⟨.serve served, ()⟩] ∧ outcome = .ok ())
          ∨ ∃ exn, ended = .error exn ∧ events = first ∧ outcome = .error exn) := by
  rw [upstreamToClient, Coroutine.run_bind] at exec
  obtain ⟨first, second, ended, rfl, handled, serving⟩ := Program.exec_bind_iff.mp exec
  refine ⟨first, ended, handled, ?_⟩
  rcases ended with exn | _ | served
  · obtain ⟨rfl, rfl⟩ := Program.exec_done_iff.mp serving
    exact Or.inr (Or.inr ⟨exn, rfl, List.append_nil _, rfl⟩)
  · obtain ⟨rfl, rfl⟩ := Program.exec_done_iff.mp serving
    exact Or.inl ⟨rfl, List.append_nil _, rfl⟩
  · obtain ⟨_, _, rfl, done⟩ := Program.exec_ask_iff.mp serving
    obtain ⟨rfl, rfl⟩ := Program.exec_done_iff.mp done
    exact Or.inr (Or.inl ⟨served, rfl, rfl, rfl⟩)

theorem handlesUpstream_of_exec {message : ClientMessage} {events : List (Event SessionReply)}
    {outcome : Except Exn Unit}
    (exec : (upstreamToClient runtime session message).run.Exec events outcome)
    : HandlesUpstream runtime session message events outcome := by
  obtain ⟨first, ended, dispatched, ending⟩ := exec_upstreamToClient exec
  cases message with
  | request | notification =>
      obtain ⟨rfl, rfl⟩ := Program.exec_done_iff.mp dispatched
      rcases ending with ⟨same, _⟩ | ⟨served, same, rfl, rfl⟩ | ⟨_, same, _⟩ <;> cases same
      exact .unmatched rfl
  | error id code text =>
      obtain ⟨asked, own, rest, rfl, internal, taking⟩ := exec_isInternal_bind dispatched
      cases own with
      | true =>
          obtain ⟨rfl, rfl⟩ := Program.exec_done_iff.mp taking
          rcases ending with ⟨_, rfl, rfl⟩ | ⟨_, same, _⟩ | ⟨_, same, _⟩
          · exact .own (by simpa using internal)
          · cases same
          · cases same
      | false =>
          obtain ⟨method, _, rfl, looked⟩ := Coroutine.exec_ask_bind_iff.mp taking
          obtain ⟨rfl, rfl⟩ := Program.exec_done_iff.mp looked
          rcases ending with ⟨same, _⟩ | ⟨served, same, rfl, rfl⟩ | ⟨_, same, _⟩ <;> cases same
          rw [List.append_assoc]
          exact .passed internal rfl (fun _ same => nomatch same)
  | response id result =>
      obtain ⟨asked, own, rest, rfl, internal, taking⟩ := exec_isInternal_bind dispatched
      cases own with
      | true =>
          obtain ⟨rfl, rfl⟩ := Program.exec_done_iff.mp taking
          rcases ending with ⟨_, rfl, rfl⟩ | ⟨_, same, _⟩ | ⟨_, same, _⟩
          · exact .own (by simpa using internal)
          · cases same
          · cases same
      | false =>
          obtain ⟨method, _, rfl, looked⟩ := Coroutine.exec_ask_bind_iff.mp taking
          by_cases list : method = some "tools/list"
          · subst list
            simp only [if_true] at looked
            rw [Coroutine.run_bind] at looked
            obtain ⟨one, two, checked, rfl, pruning, last⟩ := Program.exec_bind_iff.mp looked
            obtain ⟨inner, prunes, rfl⟩ := exec_ofPipeline_iff.mp pruning
            cases checked with
            | error exn =>
                obtain ⟨rfl, rfl⟩ := Program.exec_done_iff.mp last
                rcases ending with ⟨same, _⟩ | ⟨_, same, _⟩ | ⟨_, same, rfl, rfl⟩ <;> cases same
                rw [List.append_nil]
                exact .raised internal rfl prunes
            | ok served =>
                obtain ⟨rfl, rfl⟩ := Program.exec_done_iff.mp last
                rcases ending with ⟨same, _⟩ | ⟨_, same, rfl, rfl⟩ | ⟨_, same, _⟩ <;> cases same
                rw [List.append_nil, List.append_assoc, List.cons_append]
                exact .pruned internal rfl prunes
          · simp only [list, if_false] at looked
            obtain ⟨rfl, rfl⟩ := Program.exec_done_iff.mp looked
            rcases ending with ⟨same, _⟩ | ⟨_, same, rfl, rfl⟩ | ⟨_, same, _⟩ <;> cases same
            rw [List.append_assoc]
            exact .passed internal rfl (fun _ _ => list)

/-- A question that leaves the table of requests as it is. -/
def Unnoted : Call → Prop
  | .setPending _ _ | .popPending _ => False
  | _ => True

theorem asks_pruneToolsList {id : RequestId} {result : List (String × Json)}
    : (pruneToolsList runtime session id result).run.Asks Unnoted := by
  have drift (asked : Call) (ofDrift : asked.OfDriftCheck) : Unnoted asked := by
    cases asked <;> first | exact ofDrift.elim | trivial
  refine Coroutine.asks_bind (Coroutine.asks_attempt ?_) (fun checked => ?_)
  · refine Coroutine.asks_bind (Coroutine.asks_ofExcept _) (fun full => ?_)
    refine Coroutine.asks_bind ?_ (fun _ => Coroutine.asks_pure _)
    exact (DriftDetector.asks_check _ _ _ _).mono drift
  · cases checked with
    | error exn => exact Coroutine.asks_pure _
    | ok full =>
        refine Coroutine.asks_bind (Coroutine.asks_ofExcept _) (fun schemaHash => ?_)
        refine Coroutine.asks_bind (Coroutine.asks_demand _ trivial) (fun _ => ?_)
        refine Coroutine.asks_bind (Coroutine.asks_ask trivial) (fun engine => ?_)
        refine Coroutine.asks_bind (Coroutine.asks_attempt (Coroutine.asks_demand _ trivial)) ?_
        intro written
        cases written <;> exact Coroutine.asks_pure _

/-- The client is served an answer to its own request, withheld or not. -/
theorem answers_of_pruneToolsList {id : RequestId} {result : List (String × Json)}
    {events : List (Event Reply)} {served : Served}
    (exec : (pruneToolsList runtime session id result).run.Exec events (.ok served))
    : (served.toMessage id).answers? = some id := by
  obtain ⟨_, _, checked, _, _, serving⟩ := Coroutine.exec_attempt_bind_iff.mp exec
  cases checked with
  | error exn =>
      obtain ⟨_, same⟩ := Program.exec_done_iff.mp serving
      cases same
      rfl
  | ok full =>
      obtain ⟨_, _, caching⟩ := Coroutine.exec_ofExcept_bind_ok_iff.mp serving
      obtain ⟨_, _, _, _, _, reading⟩ := Coroutine.exec_bind_ok_iff.mp caching
      obtain ⟨_, _, _, auditing⟩ := Coroutine.exec_ask_bind_iff.mp reading
      obtain ⟨_, _, written, _, _, ended⟩ := Coroutine.exec_attempt_bind_iff.mp auditing
      cases written <;>
        obtain ⟨_, same⟩ := Program.exec_done_iff.mp ended <;>
        cases same <;>
        rfl

/-- The kinds of a session's own events. -/
def Takes : SessionCall → Prop
  | .takePending _ => True
  | _ => False

def Delivers : SessionCall → Prop
  | .serve _ => True
  | _ => False

theorem OfInternal.not_takes {event : Event SessionReply} (internal : OfInternal event)
    : ¬ Takes event.call := by
  obtain ⟨text, same⟩ := internal
  rw [same]
  exact id

theorem OfInternal.not_delivers {event : Event SessionReply} (internal : OfInternal event)
    : ¬ Delivers event.call := by
  obtain ⟨text, same⟩ := internal
  rw [same]
  exact id

theorem not_delivers_of_ofOuter {events : List (Event Reply)}
    : ∀ event ∈ events.map ofOuter, ¬ Delivers event.call := by
  intro event member
  obtain ⟨inner, _, rfl⟩ := List.mem_map.mp member
  exact id

theorem not_takes_of_ofOuter {events : List (Event Reply)}
    : ∀ event ∈ events.map ofOuter, ¬ Takes event.call := by
  intro event member
  obtain ⟨inner, _, rfl⟩ := List.mem_map.mp member
  exact id

namespace HandlesUpstream

variable {message : ClientMessage} {events before after : List (Event SessionReply)}
  {outcome : Except Exn Unit} {id : RequestId} {method : Option String}

/-- An upstream message notes no request, and drops none but the one that it answers. -/
theorem unnoted (handles : HandlesUpstream runtime session message events outcome)
    : ∀ asked reply, ⟨.outer asked, reply⟩ ∈ events → Unnoted asked := by
  have internal {listed : List (Event SessionReply)} (each : ∀ event ∈ listed, OfInternal event)
      (asked : Call) (reply : Reply asked)
      : ⟨.outer asked, reply⟩ ∉ listed := by
    intro member
    obtain ⟨_, impossible⟩ := each _ member
    cases impossible
  have pipeline {inner : List (Event Reply)} (each : ∀ event ∈ inner, Unnoted event.call)
      (asked : Call) (reply : Reply asked) (member : ⟨.outer asked, reply⟩ ∈ inner.map ofOuter)
      : Unnoted asked := by
    obtain ⟨event, among, same⟩ := List.mem_map.mp member
    cases same
    exact each event among
  intro asked reply member
  cases handles with
  | own each => exact (internal each asked reply member).elim
  | unmatched => simp at member
  | passed each =>
      rcases List.mem_append.mp member with early | late
      · exact (internal each asked reply early).elim
      · simp at late
  | pruned each _ prunes =>
      rcases List.mem_append.mp member with early | late
      · exact (internal each asked reply early).elim
      · simp only [List.mem_cons, List.mem_append, List.not_mem_nil, or_false] at late
        rcases late with impossible | inner | impossible
        · cases impossible
        · exact pipeline (prunes.asks asks_pruneToolsList) asked reply inner
        · cases impossible
  | raised each _ prunes =>
      rcases List.mem_append.mp member with early | late
      · exact (internal each asked reply early).elim
      · rcases List.mem_cons.mp late with impossible | inner
        · cases impossible
        · exact pipeline (prunes.asks asks_pruneToolsList) asked reply inner

/-- The request that is looked up is the one that the message answers, and it is looked up once; a
message whose handling ends has been delivered after that.
-/
theorem takes (handles : HandlesUpstream runtime session message events outcome)
    (split : events = before ++ ⟨.takePending id, method⟩ :: after)
    : message.answers? = some id
      ∧ (∀ event ∈ before, ¬ Takes event.call ∧ ¬ Delivers event.call)
      ∧ (∀ event ∈ after, ¬ Takes event.call)
      ∧ (outcome = .ok () → ∃ event ∈ after, Delivers event.call) := by
  have quiet {asked : List (Event SessionReply)} (each : ∀ event ∈ asked, OfInternal event)
      : ∀ event ∈ asked, ¬ Takes event.call ∧ ¬ Delivers event.call :=
    fun event member => ⟨(each event member).not_takes, (each event member).not_delivers⟩
  have place {asked rest : List (Event SessionReply)} {taken : RequestId}
      {found : Option String} (each : ∀ event ∈ asked, OfInternal event)
      (later : ∀ event ∈ rest, ¬ Takes event.call)
      (same : before ++ ⟨.takePending id, method⟩ :: after = asked ++ ⟨.takePending taken, found⟩ :: rest)
      : before = asked ∧ id = taken ∧ after = rest := by
    obtain ⟨first, one, last⟩ := same_of_only (fun event : Event SessionReply => Takes event.call)
      same trivial (fun event member => (quiet each event member).1) later
    cases one
    exact ⟨first, rfl, last⟩
  cases handles with
  | own each =>
      exact absurd trivial (quiet each ⟨.takePending id, method⟩ (by rw [split]; simp)).1
  | unmatched =>
      have member : (⟨.takePending id, method⟩ : Event SessionReply) ∈ [⟨.serve message, ()⟩] := by
        rw [split]
        simp
      cases List.mem_singleton.mp member
  | passed each answers =>
      obtain ⟨rfl, rfl, rfl⟩ := place each (by simp [Takes]) split.symm
      exact ⟨answers, quiet each, by simp [Takes], fun _ => ⟨_, List.mem_singleton_self _, trivial⟩⟩
  | pruned each same prunes =>
      have later {inner : List (Event Reply)} {last : ClientMessage}
          : ∀ event ∈ inner.map ofOuter ++ [⟨.serve last, ()⟩], ¬ Takes event.call := by
        intro event member
        rcases List.mem_append.mp member with early | late
        · exact not_takes_of_ofOuter event early
        · rw [List.mem_singleton.mp late]
          exact not_false
      obtain ⟨rfl, rfl, rfl⟩ := place each later split.symm
      exact ⟨same ▸ rfl, quiet each, later,
        fun _ => ⟨_, List.mem_append_right _ (List.mem_singleton_self _), trivial⟩⟩
  | raised each same prunes =>
      obtain ⟨rfl, rfl, rfl⟩ := place each not_takes_of_ofOuter split.symm
      exact ⟨same ▸ rfl, quiet each, not_takes_of_ofOuter, fun impossible => nomatch impossible⟩

/-- What is delivered answers what the message answers. -/
theorem delivers {served : ClientMessage}
    (handles : HandlesUpstream runtime session message events outcome)
    (member : ⟨.serve served, ()⟩ ∈ events)
    : served.answers? = message.answers? := by
  have internal {listed : List (Event SessionReply)} (each : ∀ event ∈ listed, OfInternal event)
      : ⟨.serve served, ()⟩ ∉ listed :=
    fun among => (each _ among).not_delivers trivial
  cases handles with
  | own each => exact (internal each member).elim
  | unmatched =>
      cases List.mem_singleton.mp member
      rfl
  | passed each =>
      rcases List.mem_append.mp member with early | late
      · exact (internal each early).elim
      · simp only [List.mem_cons, List.not_mem_nil, or_false] at late
        rcases late with impossible | same
        · cases impossible
        · cases same
          rfl
  | pruned each same prunes =>
      rcases List.mem_append.mp member with early | late
      · exact (internal each early).elim
      · simp only [List.mem_cons, List.mem_append, List.not_mem_nil, or_false] at late
        rcases late with impossible | inner | last
        · cases impossible
        · exact (not_delivers_of_ofOuter _ inner trivial).elim
        · cases last
          rw [same]
          exact answers_of_pruneToolsList prunes
  | raised each =>
      rcases List.mem_append.mp member with early | late
      · exact (internal each early).elim
      · rcases List.mem_cons.mp late with impossible | inner
        · cases impossible
        · exact (not_delivers_of_ofOuter _ inner trivial).elim

/-- A result that is delivered for a list that was found in the table is the pruned one. -/
theorem prunes {served : RequestId} {fields : List (String × Json)}
    (handles : HandlesUpstream runtime session message events outcome)
    (split : events = before ++ ⟨.serve (.response served fields), ()⟩ :: after)
    (taken : ⟨.takePending id, some "tools/list"⟩ ∈ before)
    : ∃ asked result inner,
        message = .response served result
        ∧ (pruneToolsList runtime session served result).run.Exec inner (.ok (.result fields))
        ∧ before = asked ++ ⟨.takePending served, some "tools/list"⟩ :: inner.map ofOuter := by
  have delivered : ⟨.serve (.response served fields), ()⟩ ∈ events := by
    rw [split]
    simp
  have place {first : List (Event SessionReply)} {last : ClientMessage}
      (quiet : ∀ event ∈ first, ¬ Delivers event.call)
      (same : before ++ ⟨.serve (.response served fields), ()⟩ :: after
        = first ++ [⟨.serve last, ()⟩])
      : before = first ∧ last = .response served fields := by
    obtain ⟨here, one, _⟩ := same_of_only (fun event : Event SessionReply => Delivers event.call)
      same trivial quiet (by simp)
    cases one
    exact ⟨here, rfl⟩
  cases handles with
  | own each => exact absurd trivial (each _ delivered).not_delivers
  | unmatched =>
      have alone : before ++ ⟨.serve (.response served fields), ()⟩ :: after
          = [] ++ [⟨.serve message, ()⟩] :=
        split.symm
      obtain ⟨rfl, _⟩ := place (by simp) alone
      cases taken
  | @passed asked own method each answers other =>
      have quiet : ∀ event ∈ asked ++ [⟨.takePending own, method⟩], ¬ Delivers event.call := by
        intro event member
        rcases List.mem_append.mp member with early | late
        · exact (each event early).not_delivers
        · rw [List.mem_singleton.mp late]
          exact not_false
      obtain ⟨rfl, rfl⟩ := place quiet (by rw [← split, List.append_assoc]; rfl)
      rcases List.mem_append.mp taken with early | late
      · exact absurd trivial (each _ early).not_takes
      · have same : served = own := Option.some.inj answers
        cases List.mem_singleton.mp late
        exact absurd rfl (other fields (same ▸ rfl))
  | @pruned asked own result inner answer each same exec =>
      have quiet : ∀ event ∈ asked ++ ⟨.takePending own, some "tools/list"⟩ :: inner.map ofOuter,
          ¬ Delivers event.call := by
        intro event member
        rcases List.mem_append.mp member with early | late
        · exact (each event early).not_delivers
        · rcases List.mem_cons.mp late with rfl | rest
          · exact not_false
          · exact not_delivers_of_ofOuter event rest
      have grouped : before ++ ⟨.serve (.response served fields), ()⟩ :: after
          = (asked ++ ⟨.takePending own, some "tools/list"⟩ :: inner.map ofOuter)
            ++ [⟨.serve (answer.toMessage own), ()⟩] := by
        rw [← split, List.append_assoc, List.cons_append]
      obtain ⟨rfl, last⟩ := place quiet grouped
      cases answer with
      | error response => simp [Served.toMessage, ErrorResponse.toMessage] at last
      | result listed =>
          obtain ⟨rfl, rfl⟩ := ClientMessage.response.inj last
          exact ⟨asked, result, inner, same, exec, rfl⟩
  | raised each =>
      rcases List.mem_append.mp delivered with early | late
      · exact absurd trivial (each _ early).not_delivers
      · rcases List.mem_cons.mp late with impossible | inner
        · cases impossible
        · exact (not_delivers_of_ofOuter _ inner trivial).elim

end HandlesUpstream

end

end Interceptor

-----------------------------------------------------------------------------------------
-- Runs of a session
-----------------------------------------------------------------------------------------

/-- The two directions in which a session passes messages on, one after the other. -/
inductive Pump
  | client
  | upstream
  deriving DecidableEq

/-- The messages of a session in both directions, and all of its events. `active` is the policy in
force after some of them.
-/
structure SessionRun where
  session : Interceptor.Session
  message : Pump → Nat → Interceptor.ClientMessage
  active : List (Stamped (Pump × Nat) Interceptor.SessionReply) → PolicyEngine
  trace : List (Stamped (Pump × Nat) Interceptor.SessionReply)

namespace SessionRun

open Interceptor

abbrev Step : Type := Stamped (Pump × Nat) SessionReply

/-- What handles a message. -/
def program (runtime : Runtime) (run : SessionRun)
    : Pump × Nat → Program SessionCall SessionReply (Except Exn Unit)
  | (.client, place) => (clientToUpstream runtime run.session (run.message .client place)).run
  | (.upstream, place) => (upstreamToClient runtime run.session (run.message .upstream place)).run

/-- The table of requests after an event. -/
def noteAfter (table : RequestId → Option String) (event : Event SessionReply)
    : RequestId → Option String :=
  match event with
  | ⟨.outer (.setPending id method), _⟩ => Function.update table id (some method)
  | ⟨.outer (.popPending id), _⟩ => Function.update table id none
  | ⟨.takePending id, _⟩ => Function.update table id none
  | _ => table

def noted (past : List Step) : RequestId → Option String :=
  past.foldl (fun table step => noteAfter table step.event) (fun _ => none)

/-- The requests that the client awaits an answer to: an answer is for the first one whose id is
printed as its own.
-/
def awaitAfter (requests : List (RequestId × String)) (event : Event SessionReply)
    : List (RequestId × String) :=
  match event with
  | ⟨.outer (.setPending id method), _⟩ => requests ++ [(id, method)]
  | ⟨.serve message, _⟩ =>
      match message.answers? with
      | some id => requests.eraseP (fun request => request.1.text = id.text)
      | none => requests
  | _ => requests

def awaited (past : List Step) : List (RequestId × String) :=
  past.foldl (fun requests step => awaitAfter requests step.event) []

/-- A run of the session's programs: each direction handles a message when the one before has been
handled; the table and the policy in force are what they are at the instant of a question.
-/
structure Proper (runtime : Runtime) (run : SessionRun) : Prop where
  underWay : ∀ thread, ∃ later outcome,
    (run.program runtime thread).Exec (eventsOf thread run.trace ++ later) outcome
  inTurn : ∀ past step rest,
    run.trace = past ++ step :: rest
    → ∀ earlier < step.thread.2,
      (run.program runtime (step.thread.1, earlier)).Exec
        (eventsOf (step.thread.1, earlier) past) (.ok ())
  looksUp : ∀ past step rest id method,
    run.trace = past ++ step :: rest
    → step.event = ⟨.takePending id, method⟩
    → method = noted past id
  reads : ∀ past step rest engine,
    run.trace = past ++ step :: rest
    → step.event = ⟨.outer .engine, engine⟩
    → engine = run.active past

/-- (Pruned runtime run past place fields) means that a message of the upstream server was a list
that a drift check has passed over as a whole, and that `fields` hold exactly those of its tools that
the policy allowed at an instant after that.
-/
def Pruned (runtime : Runtime) (run : SessionRun) (past : List Step) (place : Nat)
    (fields : List (String × Json))
    : Prop :=
  ∃ id result full checks before read between,
    run.message .upstream place = .response id result
    ∧ listedTools result = .ok full
    ∧ (DriftDetector.check runtime run.session.serverId full run.session.identityId).run.Exec
      checks (.ok ())
    ∧ past = before ++ read :: between
    ∧ read.thread = (.upstream, place)
    ∧ (checks.map ofOuter).Sublist (eventsOf (.upstream, place) before)
    ∧ toolsValue fields
      = .arr ((SchemaPruner.prune full run.session.identityId run.session.serverId
          (run.active before)).map .obj)

/-- Every result that answers a list request of the client is one that was checked and pruned. -/
def ListsPruned (runtime : Runtime) (run : SessionRun) : Prop :=
  ∀ past step rest id fields request,
    run.trace = past ++ step :: rest
    → step.thread.1 = .upstream
    → step.event = ⟨.serve (.response id fields), ()⟩
    → (awaited past).find? (fun request => request.1.text = id.text) = some request
    → request.2 = "tools/list"
    → run.Pruned runtime past step.thread.2 fields

/-- Two requests whose answers the client's transport could not tell apart, one of them for a list.
-/
def Clash (request other : RequestId × String) : Prop :=
  request.1.text = other.1.text ∧ (request.2 = "tools/list" ∨ other.2 = "tools/list")

/-- The client sends no request that clashes with one that it awaits the answer to. -/
def IdsApart (run : SessionRun) : Prop :=
  ∀ past step rest id method,
    run.trace = past ++ step :: rest
    → step.event = ⟨.outer (.setPending id method), ()⟩
    → ∀ request ∈ awaited past, ¬ Clash request (id, method)

/-- The upstream server answers a list request under its very id, and only after it was sent. -/
def AnswersOwn (run : SessionRun) : Prop :=
  ∀ past step rest id fields request,
    run.trace = past ++ step :: rest
    → step.thread.1 = .upstream
    → step.event = ⟨.serve (.response id fields), ()⟩
    → (awaited past).find? (fun request => request.1.text = id.text) = some request
    → request.2 = "tools/list"
    → request.1 = id
      ∧ ∃ before taken between,
        past = before ++ taken :: between
        ∧ taken.thread = step.thread
        ∧ taken.event.call = .takePending id
        ∧ request ∈ awaited before

section

variable {runtime : Runtime} {run : SessionRun} {past rest : List Step} {step : Step}
  {id : RequestId} {method : String}

theorem awaited_concat (past : List Step) (step : Step)
    : awaited (past ++ [step]) = awaitAfter (awaited past) step.event := by
  simp [awaited]

theorem noted_concat (past : List Step) (step : Step)
    : noted (past ++ [step]) = noteAfter (noted past) step.event := by
  simp [noted]

/-- A request is awaited when it is sent. -/
theorem mem_awaitAfter {requests : List (RequestId × String)} {event : Event SessionReply}
    {request : RequestId × String} (member : request ∈ awaitAfter requests event)
    : request ∈ requests ∨ event = ⟨.outer (.setPending request.1 request.2), ()⟩ := by
  obtain ⟨asked | text | taken | message, reply⟩ := event
  · cases asked with
    | setPending id method =>
        rcases List.mem_append.mp member with before | new
        · exact Or.inl before
        · cases List.mem_singleton.mp new
          exact Or.inr rfl
    | _ => exact Or.inl member
  · exact Or.inl member
  · exact Or.inl member
  · simp only [awaitAfter] at member
    split at member
    · exact Or.inl (List.mem_of_mem_eraseP member)
    · exact Or.inl member

theorem Proper.exec_of_step (proper : run.Proper runtime) (whole : run.trace = past ++ step :: rest)
    : ∃ later outcome,
        (run.program runtime step.thread).Exec
          (eventsOf step.thread past ++ step.event :: later) outcome := by
  obtain ⟨later, outcome, exec⟩ := proper.underWay step.thread
  rw [whole, eventsOf_append_cons, List.append_assoc] at exec
  exact ⟨_, outcome, exec⟩

theorem Proper.handles (proper : run.Proper runtime) (whole : run.trace = past ++ step :: rest)
    (upstream : step.thread.1 = .upstream)
    : ∃ later outcome,
        HandlesUpstream runtime run.session (run.message .upstream step.thread.2)
          (eventsOf step.thread past ++ step.event :: later) outcome := by
  obtain ⟨later, outcome, exec⟩ := proper.exec_of_step whole
  obtain ⟨⟨pump, place⟩, instant, event⟩ := step
  cases upstream
  exact ⟨later, outcome, handlesUpstream_of_exec exec⟩

-----------------------------------------------------------------------------------------
-- One message after the other
-----------------------------------------------------------------------------------------

/-- A message that has been handled has no step any more. -/
theorem Proper.no_later (proper : run.Proper runtime) {thread : Pump × Nat}
    (whole : run.trace = past ++ rest)
    (ended : (run.program runtime thread).Exec (eventsOf thread past) (.ok ()))
    (member : step ∈ rest)
    : step.thread ≠ thread := by
  intro same
  obtain ⟨later, outcome, exec⟩ := proper.underWay thread
  rw [whole, eventsOf_append, List.append_assoc] at exec
  have none := (List.append_eq_nil_iff.mp (ended.finished exec).1).1
  have event := event_mem_eventsOf member
  rw [same, none] at event
  cases event

/-- In one direction, the steps are those of one message after the other. -/
theorem Proper.place_le (proper : run.Proper runtime) (whole : run.trace = past ++ step :: rest)
    {other : Step} (member : other ∈ past) (pump : other.thread.1 = step.thread.1)
    : other.thread.2 ≤ step.thread.2 := by
  by_contra later
  obtain ⟨before, after, rfl⟩ := List.append_of_mem member
  have split : run.trace = before ++ other :: (after ++ step :: rest) := by simpa using whole
  have ended := proper.inTurn _ _ _ split step.thread.2 (by omega)
  rw [pump] at ended
  have impossible := proper.no_later split ended
    (List.mem_cons_of_mem other (List.mem_append_right after List.mem_cons_self))
  exact impossible rfl

/-- When a message has a step, the earlier ones in its direction have been handled. -/
theorem Proper.ended_of_step (proper : run.Proper runtime)
    (whole : run.trace = past ++ step :: rest) {other : Step} (member : other ∈ past)
    (pump : other.thread.1 = step.thread.1) (differ : other.thread ≠ step.thread)
    : (run.program runtime other.thread).Exec (eventsOf other.thread past) (.ok ()) := by
  have atMost := proper.place_le whole member pump
  have below : other.thread.2 < step.thread.2 := by
    refine lt_of_le_of_ne atMost (fun same => differ ?_)
    exact Prod.ext pump same
  have ended := proper.inTurn _ _ _ whole other.thread.2 below
  rwa [← pump] at ended

-----------------------------------------------------------------------------------------
-- The table of requests
-----------------------------------------------------------------------------------------

/-- A request is noted by the message that is it, as the first thing that the message does. -/
theorem Proper.notes_first (proper : run.Proper runtime)
    (whole : run.trace = past ++ step :: rest)
    (notes : step.event = ⟨.outer (.setPending id method), ()⟩)
    : step.thread.1 = .client ∧ eventsOf step.thread past = [] := by
  cases pump : step.thread.1 with
  | upstream =>
      obtain ⟨later, outcome, handles⟩ := proper.handles whole pump
      exact (handles.unnoted (.setPending id method) () (by rw [notes]; simp)).elim
  | client =>
      refine ⟨rfl, ?_⟩
      obtain ⟨later, outcome, exec⟩ := proper.exec_of_step whole
      obtain ⟨⟨_, place⟩, instant, event⟩ := step
      cases pump
      rcases exec_clientToUpstream exec with none | ⟨_, _, _, tail, _, listed, kept⟩
      · simp at none
      · cases first : eventsOf (Pump.client, place) past with
        | nil => rfl
        | cons head more =>
            simp only [first, List.cons_append, List.cons.injEq] at listed
            obtain ⟨_, rfl⟩ := listed
            have impossible := kept event (by simp)
            cases (notes : event = _)
            exact impossible.elim

/-- A note is dropped by the tool call that it is of. -/
theorem Proper.drops_own (proper : run.Proper runtime)
    (whole : run.trace = past ++ step :: rest)
    (drops : step.event.call = .outer (.popPending id))
    : ∃ before noting after,
        past = before ++ noting :: after
        ∧ noting.thread = step.thread
        ∧ step.thread.1 = .client
        ∧ noting.event = ⟨.outer (.setPending id "tools/call"), ()⟩ := by
  cases pump : step.thread.1 with
  | upstream =>
      obtain ⟨later, outcome, handles⟩ := proper.handles whole pump
      obtain ⟨thread, instant, call, reply⟩ := step
      cases drops
      exact (handles.unnoted (.popPending id) reply (by simp)).elim
  | client =>
      obtain ⟨later, outcome, exec⟩ := proper.exec_of_step whole
      obtain ⟨⟨_, place⟩, instant, event⟩ := step
      cases pump
      rcases exec_clientToUpstream exec with none | ⟨own, method, _, tail, _, listed, kept⟩
      · simp at none
      · cases first : eventsOf (Pump.client, place) past with
        | nil =>
            simp only [first, List.nil_append, List.cons.injEq] at listed
            obtain ⟨rfl, _⟩ := listed
            cases drops
        | cons head more =>
            simp only [first, List.cons_append, List.cons.injEq] at listed
            obtain ⟨rfl, rfl⟩ := listed
            have dropped := kept event (by simp)
            rw [show event.call = _ from drops] at dropped
            obtain ⟨rfl, rfl⟩ := dropped
            obtain ⟨before, noting, after, split, thread, same, _⟩ := split_of_eventsOf_cons first
            exact ⟨before, noting, after, split, thread, rfl, same⟩

/-- Only messages of the upstream server are looked up. -/
theorem Proper.upstream_of_takes (proper : run.Proper runtime)
    (whole : run.trace = past ++ step :: rest) {found : Option String}
    (takes : step.event = ⟨.takePending id, found⟩)
    : step.thread.1 = .upstream := by
  cases pump : step.thread.1 with
  | upstream => rfl
  | client =>
      obtain ⟨later, outcome, exec⟩ := proper.exec_of_step whole
      obtain ⟨⟨_, place⟩, instant, event⟩ := step
      cases pump
      have among : event ∈ eventsOf (Pump.client, place) past ++ event :: later := by simp
      cases (takes : event = _)
      rcases exec_clientToUpstream exec with none | ⟨_, _, _, tail, _, listed, kept⟩
      · simp at none
      · rw [show eventsOf (Pump.client, place) past ++ _ :: later = _ from listed] at among
        rcases List.mem_cons.mp among with impossible | later
        · cases impossible
        · exact (kept _ later).elim

-----------------------------------------------------------------------------------------
-- List requests stay in the table
-----------------------------------------------------------------------------------------

/-- The message that answers a request takes every one away that clashes with it. -/
theorem not_mem_eraseP {requests : List (RequestId × String)} {text : String}
    (apart : requests.Pairwise (fun one two => ¬ Clash one two)) (same : id.text = text)
    : (id, "tools/list") ∉ requests.eraseP (fun request => request.1.text = text) := by
  induction requests with
  | nil => simp
  | cons head tail ih =>
      obtain ⟨here, later⟩ := List.pairwise_cons.mp apart
      by_cases taken : head.1.text = text
      · rw [List.eraseP_cons_of_pos (by simpa using taken)]
        intro member
        exact here _ member ⟨taken.trans same.symm, Or.inr rfl⟩
      · rw [List.eraseP_cons_of_neg (by simpa using taken)]
        intro member
        rcases List.mem_cons.mp member with rfl | among
        · exact taken same
        · exact ih later among

/-- No two awaited requests clash, by induction on the steps. -/
theorem IdsApart.pairwise (apart : run.IdsApart) (whole : run.trace = past ++ rest)
    : (awaited past).Pairwise (fun one two => ¬ Clash one two) := by
  induction past using List.reverseRecOn generalizing rest with
  | nil => exact .nil
  | append_singleton past step ih =>
      rw [List.append_assoc] at whole
      have earlier := ih whole
      rw [awaited_concat]
      obtain ⟨thread, instant, asked | text | taken | message, reply⟩ := step
      · cases asked with
        | setPending id method =>
            refine List.pairwise_append.mpr ⟨earlier, List.pairwise_singleton _ _, ?_⟩
            intro request member new isNew
            rw [List.mem_singleton.mp isNew]
            exact apart _ _ _ id method whole rfl request member
        | _ => exact earlier
      · exact earlier
      · exact earlier
      · simp only [awaitAfter]
        split
        · exact earlier.sublist List.eraseP_sublist
        · exact earlier

/-- While a tool call is decided, no list request is awaited under its id, by induction on the steps
since it was noted.
-/
theorem not_awaited_of_call (proper : run.Proper runtime) (apart : run.IdsApart)
    {before after : List Step} {noting : Step}
    (whole : run.trace = (before ++ noting :: after) ++ step :: rest)
    (notes : noting.event = ⟨.outer (.setPending id "tools/call"), ()⟩)
    (thread : noting.thread = step.thread)
    : (id, "tools/list") ∉ awaited (before ++ noting :: after) := by
  have atNote : run.trace = before ++ noting :: (after ++ step :: rest) := by simpa using whole
  obtain ⟨client, _⟩ := proper.notes_first atNote notes
  have always (more later : List Step) (split : after = more ++ later)
      : (id, "tools/list") ∉ awaited (before ++ noting :: more) := by
    induction more using List.reverseRecOn generalizing later with
    | nil =>
        intro member
        rw [awaited_concat] at member
        rcases mem_awaitAfter member with earlier | same
        · exact apart _ _ _ id "tools/call" atNote notes _ earlier ⟨rfl, Or.inl rfl⟩
        · rw [notes] at same
          simp at same
    | append_singleton more other ih =>
        rw [List.append_assoc] at split
        have here : run.trace
            = (before ++ noting :: more) ++ other :: (later ++ step :: rest) := by
          rw [atNote, split]
          simp
        have earlier := ih _ split
        intro member
        rw [← List.cons_append, ← List.append_assoc, awaited_concat] at member
        rcases mem_awaitAfter member with still | same
        · exact earlier still
        -- The list request would have been sent by the very message that is decided.
        · obtain ⟨otherClient, first⟩ := proper.notes_first here same
          have least := proper.place_le here (by simp) (client.trans otherClient.symm)
          have stepClient : step.thread.1 = .client := thread ▸ client
          have member : other ∈ before ++ noting :: after := by
            rw [split]
            simp
          have most := proper.place_le whole member (otherClient.trans stepClient.symm)
          rw [← thread] at most
          have threads : other.thread = noting.thread :=
            Prod.ext (otherClient.trans client.symm) (le_antisymm most least)
          rw [threads, eventsOf_append_cons] at first
          simp at first
  exact always after [] (by simp)

/-- A list request that is awaited is in the table, unless a message that has taken it from there is
still being handled.
-/
def Kept (past : List Step) : Prop :=
  ∀ id, (id, "tools/list") ∈ awaited past
    → noted past id = some "tools/list"
      ∨ ∃ place,
        ⟨.takePending id, some "tools/list"⟩ ∈ eventsOf (.upstream, place) past
        ∧ ∀ event ∈ eventsOf (Pump.upstream, place) past, ¬ Delivers event.call

/-- So the message that looks it up finds it. -/
theorem Kept.found (kept : Kept past) (proper : run.Proper runtime)
    (whole : run.trace = past ++ step :: rest) (upstream : step.thread.1 = .upstream)
    {found : Option String} (takes : step.event = ⟨.takePending id, found⟩)
    (member : (id, "tools/list") ∈ awaited past)
    : found = some "tools/list" := by
  rcases kept id member with inTable | ⟨place, taken, undelivered⟩
  · rw [proper.looksUp _ _ _ id found whole takes, inTable]
  · exfalso
    obtain ⟨other, among, thread, event⟩ := step_of_eventsOf taken
    by_cases same : other.thread = step.thread
    · obtain ⟨later, outcome, handles⟩ := proper.handles whole upstream
      rw [takes] at handles
      rw [← thread, same] at taken
      exact ((handles.takes rfl).2.1 _ taken).1 trivial
    · have ended := proper.ended_of_step whole among (by rw [thread, upstream]) same
      rw [thread] at ended
      obtain ⟨early, late, split⟩ := List.append_of_mem taken
      obtain ⟨_, _, _, delivered⟩ := (handlesUpstream_of_exec ended).takes split
      obtain ⟨event, later, delivers⟩ := delivered rfl
      exact undelivered event (by rw [split]; simp [later]) delivers

/-- A list request stays in the table when a step neither looks at it nor delivers an answer. -/
theorem Kept.persists (kept : Kept past) (member : (id, "tools/list") ∈ awaited past)
    (same : noteAfter (noted past) step.event id = noted past id)
    (quiet : step.thread.1 = .upstream → ⟨.takePending id, some "tools/list"⟩ ∈ eventsOf step.thread past
      → ¬ Delivers step.event.call)
    : noted (past ++ [step]) id = some "tools/list"
      ∨ ∃ place,
        ⟨.takePending id, some "tools/list"⟩ ∈ eventsOf (.upstream, place) (past ++ [step])
        ∧ ∀ event ∈ eventsOf (Pump.upstream, place) (past ++ [step]), ¬ Delivers event.call := by
  rcases kept id member with inTable | ⟨place, taken, undelivered⟩
  · refine Or.inl ?_
    rw [noted_concat, same]
    exact inTable
  · refine Or.inr ⟨place, ?_, ?_⟩
    · rw [eventsOf_append]
      exact List.mem_append_left _ taken
    · intro event among
      rw [eventsOf_append] at among
      rcases List.mem_append.mp among with early | late
      · exact undelivered event early
      · obtain ⟨other, isStep, thread, rfl⟩ := step_of_eventsOf late
        cases List.mem_singleton.mp isStep
        exact quiet (by rw [thread]) (by rwa [thread])

/-- Every step keeps the list requests in the table, by induction on the steps: a call that is
decided drops its own note only, and an answer that is delivered is for the request that was taken.
-/
theorem kept_of_run (proper : run.Proper runtime) (apart : run.IdsApart)
    (whole : run.trace = past ++ rest)
    : Kept past := by
  induction past using List.reverseRecOn generalizing rest with
  | nil =>
      intro id member
      cases member
  | append_singleton past step ih =>
      rw [List.append_assoc] at whole
      have kept := ih whole
      have split : run.trace = past ++ step :: rest := whole
      intro id member
      rw [awaited_concat] at member
      rcases event : step.event with ⟨asked | text | taken | message, reply⟩
      · rw [event] at member
        have silent : ¬ Delivers step.event.call := by
          rw [event]
          exact not_false
        cases asked with
        | setPending noted method =>
            rcases List.mem_append.mp member with before | new
            · have differ : id ≠ noted := by
                rintro rfl
                exact apart _ _ _ id method split event _ before ⟨rfl, Or.inl rfl⟩
              refine kept.persists before ?_ (fun _ _ => silent)
              rw [event]
              exact Function.update_of_ne differ _ _
            · obtain ⟨rfl, rfl⟩ := Prod.mk.inj (List.mem_singleton.mp new)
              refine Or.inl ?_
              rw [noted_concat, event]
              exact Function.update_self _ _ _
        | popPending dropped =>
            refine kept.persists member ?_ (fun _ _ => silent)
            rw [event]
            refine Function.update_of_ne ?_ _ _
            rintro rfl
            obtain ⟨before, noting, after, rfl, thread, _, notes⟩ :=
              proper.drops_own split (by rw [event])
            exact not_awaited_of_call proper apart split notes thread member
        | _ => exact kept.persists member (by rw [event]; rfl) (fun _ _ => silent)
      · rw [event] at member
        exact kept.persists member (by rw [event]; rfl) (fun _ _ => by rw [event]; exact not_false)
      · rw [event] at member
        have quiet : ¬ Delivers step.event.call := by
          rw [event]
          exact not_false
        by_cases same : id = taken
        · subst same
          have upstream := proper.upstream_of_takes split event
          obtain rfl := kept.found proper split upstream event member
          obtain ⟨later, outcome, handles⟩ := proper.handles split upstream
          rw [event] at handles
          have thread : (.upstream, step.thread.2) = step.thread := Prod.ext upstream.symm rfl
          have own : eventsOf step.thread (past ++ [step])
              = eventsOf step.thread past ++ [step.event] := eventsOf_append_cons past [] step
          refine Or.inr ⟨step.thread.2, ?_, ?_⟩
          · rw [thread, own, event]
            simp
          · intro other among
            rw [thread, own] at among
            rcases List.mem_append.mp among with early | late
            · exact ((handles.takes rfl).2.1 other early).2
            · rw [List.mem_singleton.mp late]
              exact quiet
        · refine kept.persists member ?_ (fun _ _ => quiet)
          rw [event]
          exact Function.update_of_ne same _ _
      · have awaited : (id, "tools/list") ∈ awaited past := by
          rcases mem_awaitAfter member with before | impossible
          · exact before
          · rw [event] at impossible
            cases impossible
        refine kept.persists awaited (by rw [event]; rfl) (fun upstream taken _ => ?_)
        obtain ⟨later, outcome, handles⟩ := proper.handles split upstream
        obtain ⟨early, late, found⟩ := List.append_of_mem taken
        have answers : message.answers? = _ := handles.delivers (by rw [event]; simp)
        rw [(handles.takes (by rw [found, List.append_assoc]; rfl)).1] at answers
        rw [event] at member
        simp only [awaitAfter, answers] at member
        exact not_mem_eraseP (apart.pairwise split) rfl member

/-- In every session whose ids tell requests and responses apart, every tools list that answers a
request of the client was checked for drift as a whole, and holds what the policy in force allows.
-/
theorem listsPruned_of_ownIds (runtime : Runtime) (run : SessionRun) (proper : run.Proper runtime)
    (apart : run.IdsApart) (answersOwn : run.AnswersOwn)
    : run.ListsPruned runtime := by
  intro past step rest id fields request whole upstream delivers found isList
  obtain ⟨own, before, taken, between, rfl, thread, takes, awaited⟩ :=
    answersOwn past step rest id fields request whole upstream delivers found isList
  obtain ⟨requested, method⟩ := request
  cases own
  cases isList
  -- The response found its request in the table.
  have early : run.trace = before ++ taken :: (between ++ step :: rest) := by simpa using whole
  obtain ⟨looked, takenEvent⟩ : ∃ looked, taken.event = ⟨.takePending requested, looked⟩ := by
    obtain ⟨_, _, call, reply⟩ := taken
    cases takes
    exact ⟨reply, rfl⟩
  have kept : Kept before := kept_of_run proper apart early
  obtain rfl := kept.found proper early (by rw [thread]; exact upstream) takenEvent awaited
  -- So what was delivered for it is the pruned list.
  obtain ⟨later, outcome, handles⟩ := proper.handles whole upstream
  rw [delivers] at handles
  have inPast : ⟨.takePending requested, some "tools/list"⟩
      ∈ eventsOf step.thread (before ++ taken :: between) := by
    have member : taken ∈ before ++ taken :: between := by simp
    have among := event_mem_eventsOf member
    rwa [thread, takenEvent] at among
  obtain ⟨asked, result, inner, isResponse, exec, events⟩ := handles.prunes rfl inPast
  obtain ⟨full, schemaHash, checks, engine, seq, listed, checked, _, rfl, rfl⟩ :=
    exec_pruneToolsList_result exec
  obtain ⟨audit, grouped⟩ : ∃ audit,
      eventsOf step.thread (before ++ taken :: between)
        = (asked ++ ⟨.takePending requested, some "tools/list"⟩
            :: List.map ofOuter (checks ++ [⟨.cacheSet run.session.serverId full, .ok ()⟩]))
          ++ ofOuter ⟨.engine, engine⟩ :: audit := by
    rw [List.map_append] at events
    rw [events, List.map_append]
    simp only [List.append_assoc, List.cons_append]
    exact ⟨_, rfl⟩
  obtain ⟨first, read, others, split, reader, reads, earlier, _⟩ := split_of_eventsOf grouped
  have atRead : run.trace = first ++ read :: (others ++ step :: rest) := by
    rw [whole, split]
    simp
  obtain rfl := proper.reads _ _ _ engine atRead reads
  have here : (.upstream, step.thread.2) = step.thread := Prod.ext upstream.symm rfl
  refine ⟨requested, result, full, checks, first, read, others, isResponse, listed, checked, split,
    reader.trans here.symm, ?_, toolsValue_servedFields _ _ _⟩
  rw [here, earlier, List.map_append]
  exact ((List.sublist_append_left _ _).cons _).trans (List.sublist_append_right _ _)

end

-----------------------------------------------------------------------------------------
-- One list
-----------------------------------------------------------------------------------------

/-- A policy that allows nobody anything. -/
def closedEngine : PolicyEngine where
  policy := { version := 1, servers := [], identities := [] }
  contentHash := ""
  raw := []

/-- The client asks for the list. -/
def asking : Step where
  thread := (.client, 0)
  instant := 0
  event := ⟨.outer (.setPending (.int 1) "tools/list"), ()⟩

def answering (event : Event SessionReply) : Step where
  thread := (.upstream, 0)
  instant := 1
  event := event

/-- The upstream server answers under an id of its choice. -/
def answered (id : RequestId) (events : List (Event SessionReply)) : SessionRun where
  session := { identityId := "alice", serverId := "files" }
  message
    | .client, 0 => .request (.int 1) "tools/list" none
    | .upstream, 0 => .response id (listingOf ServiceRun.plainTool)
    | _, _ => .notification "notifications/message" none
  active _ := closedEngine
  trace := asking :: events.map answering

section

variable {runtime : Runtime} {id : RequestId} {events : List (Event SessionReply)}

theorem eventsOf_answered (thread : Pump × Nat)
    : eventsOf thread (answered id events).trace
      = (if (Pump.client, 0) = thread then [asking.event] else [])
        ++ if (Pump.upstream, 0) = thread then events else [] := by
  have split : (answered id events).trace
      = [asking.event].map (Stamped.mk (Pump.client, 0) 0)
        ++ events.map (Stamped.mk (Pump.upstream, 0) 1) :=
    rfl
  rw [split, eventsOf_append, eventsOf_stamped, eventsOf_stamped]

theorem answered_proper (asked rest : List (Event SessionReply)) (found : Option String)
    {outcome : Except Exn Unit}
    (exec : (upstreamToClient runtime { identityId := "alice", serverId := "files" }
      (.response id (listingOf ServiceRun.plainTool))).run.Exec events outcome)
    (split : events = asked ++ ⟨.takePending id, found⟩ :: rest)
    (lookup : found = noted (asking :: asked.map answering) id)
    (engines : ∀ engine, ⟨.outer .engine, engine⟩ ∈ events → engine = closedEngine)
    : (answered id events).Proper runtime := by
  have handled := handlesUpstream_of_exec exec
  refine ⟨?_, ?_, ?_, ?_⟩
  · intro thread
    rw [eventsOf_answered]
    rcases thread with ⟨_ | _, _ | place⟩
    · exact ⟨[], _, .ask (.done _)⟩
    · exact ⟨[], _, .done _⟩
    · have own : ((answered id events).program runtime (.upstream, 0)).Exec events outcome := exec
      exact ⟨[], outcome, by simpa using own⟩
    · exact ⟨[⟨.serve (.notification "notifications/message" none), ()⟩], .ok (), .ask (.done _)⟩
  · intro past step rest whole earlier below
    have member : step ∈ (answered id events).trace := by
      rw [whole]
      simp
    rcases List.mem_cons.mp member with rfl | later
    · exact absurd below (Nat.not_lt_zero _)
    · obtain ⟨_, _, rfl⟩ := List.mem_map.mp later
      exact absurd below (Nat.not_lt_zero _)
  · intro past step more taken method whole takes
    obtain ⟨_, early, late, _⟩ := handled.takes split
    have listed : past ++ step :: more
        = (asking :: asked.map answering) ++ answering ⟨.takePending id, found⟩ :: rest.map answering := by
      rw [← whole]
      simp [answered, split]
    obtain ⟨rfl, rfl, _⟩ := same_of_only (fun step : Step => Takes step.event.call) listed
      (by rw [takes]; trivial)
      (by
        intro step member
        rcases List.mem_cons.mp member with rfl | later
        · exact not_false
        · obtain ⟨event, among, rfl⟩ := List.mem_map.mp later
          exact (early event among).1)
      (by
        intro step member
        obtain ⟨event, among, rfl⟩ := List.mem_map.mp member
        exact late event among)
    cases takes
    exact lookup
  · intro past step more engine whole reads
    have member : step ∈ (answered id events).trace := by
      rw [whole]
      simp
    rcases List.mem_cons.mp member with rfl | later
    · cases reads
    · obtain ⟨event, among, rfl⟩ := List.mem_map.mp later
      exact engines engine ((show event = _ from reads) ▸ among)

/-- There is only one request. -/
theorem answered_apart (proper : (answered id events).Proper runtime)
    : (answered id events).IdsApart := by
  intro past step rest requested method whole notes request member
  cases past with
  | nil => cases member
  | cons first past =>
      obtain ⟨_, later⟩ := List.cons.inj whole
      have among : step ∈ events.map answering := by
        rw [later]
        simp
      obtain ⟨event, _, rfl⟩ := List.mem_map.mp among
      obtain ⟨impossible, _⟩ := proper.notes_first whole notes
      cases impossible

end

theorem prune_closedEngine (full : List Tool) (identityId serverId : String)
    : SchemaPruner.prune full identityId serverId closedEngine = [] := by
  refine List.filter_eq_nil_iff.mpr (fun tool _ => ?_)
  exact Bool.false_ne_true

theorem exec_upstreamToClient_pruned {runtime : Runtime} {session : Session} {value : Int}
    {result : List (String × Json)} {events : List (Event Reply)} {served : Served}
    (prunes : (pruneToolsList runtime session (.int value) result).run.Exec events (.ok served))
    : (upstreamToClient runtime session (.response (.int value) result)).run.Exec
        (⟨.takePending (.int value), some "tools/list"⟩
          :: (events.map ofOuter ++ [⟨.serve (served.toMessage (.int value)), ()⟩]))
        (.ok ()) := by
  have dispatched : (onUpstreamMessage runtime session (.response (.int value) result)).run.Exec
      (⟨.takePending (.int value), some "tools/list"⟩ :: events.map ofOuter)
      (.ok (some (served.toMessage (.int value)))) := by
    refine Coroutine.exec_ask_bind_iff.mpr ⟨some "tools/list", events.map ofOuter, rfl, ?_⟩
    rw [if_pos rfl]
    exact Coroutine.exec_bind_ok_iff.mpr ⟨events.map ofOuter, [], served, (List.append_nil _).symm,
      exec_ofPipeline_iff.mpr ⟨events, prunes, rfl⟩, .done _⟩
  exact Coroutine.exec_bind_ok_iff.mpr ⟨_, [_], _, rfl, dispatched, .ask (.done _)⟩

/-- What the upstream server's list is answered with, under the very id. -/
def prunedEvents (hash schemaHash : String) : List (Event SessionReply) :=
  ⟨.takePending (.int 1), some "tools/list"⟩
    :: ((servedEvents { identityId := "alice", serverId := "files" } closedEngine
        ServiceRun.plainTool [ServiceRun.approvedRow ServiceRun.plainTool hash]).map ofOuter
      ++ [⟨.serve (.response (.int 1) (servedFields (listingOf ServiceRun.plainTool) []
        (etag 1 schemaHash))), ()⟩])

/-- The list of one approved tool is answered under the very id. -/
theorem listsPruned_of_ownIds_approved
    : ∃ hash schemaHash,
        (answered (.int 1) (prunedEvents hash schemaHash)).ListsPruned DriftDetector.calm := by
  obtain ⟨hash, hashed⟩ :=
    CanonicalJson.exists_hash (show CanonicalJson.finite (.obj ServiceRun.plainTool) = true by decide)
  obtain ⟨schemaHash, listedHash⟩ := CanonicalJson.exists_hash
    (show CanonicalJson.finite (.arr [.obj ServiceRun.plainTool]) = true by decide)
  have pruned : (pruneToolsList DriftDetector.calm { identityId := "alice", serverId := "files" }
      (.int 1) (listingOf ServiceRun.plainTool)).run.Exec
        (servedEvents { identityId := "alice", serverId := "files" } closedEngine ServiceRun.plainTool
          [ServiceRun.approvedRow ServiceRun.plainTool hash]) _ :=
    exec_pruneToolsList_approved hashed listedHash rfl rfl rfl (by simp)
  rw [prune_closedEngine] at pruned
  have exec := exec_upstreamToClient_pruned pruned
  have proper : (answered (.int 1) (prunedEvents hash schemaHash)).Proper DriftDetector.calm := by
    refine answered_proper [] _ _ exec rfl rfl ?_
    intro engine member
    simpa [prunedEvents, servedEvents, ofOuter] using member
  refine ⟨hash, schemaHash, listsPruned_of_ownIds _ _ proper (answered_apart proper) ?_⟩
  intro past step rest id fields request whole upstream delivers found isList
  have delivered : past ++ step :: rest
      = (asking :: answering ⟨.takePending (.int 1), some "tools/list"⟩
          :: ((servedEvents { identityId := "alice", serverId := "files" } closedEngine
            ServiceRun.plainTool [ServiceRun.approvedRow ServiceRun.plainTool hash]).map
              ofOuter).map answering)
        ++ [answering ⟨.serve (.response (.int 1) (servedFields (listingOf ServiceRun.plainTool) []
          (etag 1 schemaHash))), ()⟩] := by
    rw [← whole]
    rfl
  have quiet : ∀ step ∈ asking :: answering ⟨.takePending (.int 1), some "tools/list"⟩
      :: ((servedEvents { identityId := "alice", serverId := "files" } closedEngine
        ServiceRun.plainTool [ServiceRun.approvedRow ServiceRun.plainTool hash]).map
          ofOuter).map answering,
      ¬ Delivers step.event.call := by
    intro other member
    rcases List.mem_cons.mp member with rfl | later
    · exact not_false
    · rcases List.mem_cons.mp later with rfl | inner
      · exact not_false
      · obtain ⟨event, among, rfl⟩ := List.mem_map.mp inner
        exact not_delivers_of_ofOuter event among
  obtain ⟨rfl, rfl, _⟩ := same_of_only (fun step : Step => Delivers step.event.call) delivered
    (by rw [delivers]; trivial) quiet (by simp)
  cases delivers
  have awaits : [(RequestId.int 1, "tools/list")].find?
      (fun request => request.1.text = (RequestId.int 1).text) = some request :=
    found
  cases awaits
  exact ⟨rfl, [asking], answering ⟨.takePending (.int 1), some "tools/list"⟩, _, rfl, rfl, rfl,
    List.mem_singleton_self _⟩

/-- An integer id that comes back as the equal string is not in the table: the client is served the
list as it is, though it is allowed nothing.
-/
theorem echoed_list_is_not_pruned
    : ¬ ∀ run : SessionRun,
        run.Proper DriftDetector.calm → run.ListsPruned DriftDetector.calm := by
  intro every
  have exec : (upstreamToClient DriftDetector.calm { identityId := "alice", serverId := "files" }
      (.response (.str "1") (listingOf ServiceRun.plainTool))).run.Exec
      [
        ⟨.internal "1", false⟩,
        ⟨.takePending (.str "1"), none⟩,
        ⟨.serve (.response (.str "1") (listingOf ServiceRun.plainTool)), ()⟩
      ]
      (.ok ()) :=
    .ask (.ask (.ask (.done _)))
  have proper := answered_proper [_] [_] none exec rfl rfl (by simp)
  obtain ⟨_, _, full, _, _, _, _, _, _, _, _, _, _, pruned⟩ :=
    every _ proper [asking, answering _, answering _] (answering _) [] (.str "1")
      (listingOf ServiceRun.plainTool) (.int 1, "tools/list") rfl rfl rfl (by decide) rfl
  have shown : Json.arr [.obj ServiceRun.plainTool]
      = .arr ((SchemaPruner.prune full "alice" "files" closedEngine).map .obj) :=
    pruned
  rw [prune_closedEngine] at shown
  cases shown

end SessionRun

end SecureMcp
