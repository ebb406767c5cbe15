import SecureMcp.Interceptor.Refetch

/-! Whether a response to a request of the gateway's own can reach the client. Its id is recognized
while its future is registered, and the registration ends with the re-fetch.
-/

namespace SecureMcp

open Interaction

namespace Interceptor

open Cooperative

/-- No message that the client was served has an id that a re-fetch drew. -/
def Silent (status : Job → Status Point) (tables : Tables) : Prop :=
  ∀ message ∈ tables.served, ∀ id,
    message.answers? = some (.str id) → status (.refetch id) = .idle

/-- A message for a re-fetch arrives while the future of the re-fetch is registered. -/
def Timely (status : Job → Status Point) (tables : Tables) (message : ClientMessage) : Prop :=
  ∀ id,
    message.answers? = some (.str id)
    → status (.refetch id) ≠ .idle
    → (tables.internal.lookup id).isSome

/-- The rules, with every message in time. -/
def timely : Rules Job Tables Value Exn where
  __ := rules
  begins status tables job :=
    rules.begins status tables job
    ∧ ∀ arrival message, job = .upstream arrival message → Timely status tables message

/-- What a message that was served, or is still handled, says of re-fetches: none has its id, and
since it has arrived none will.
-/
structure Apart (status : Job → Status Point) (tables : Tables) : Prop where
  served : ∀ message ∈ tables.served, ∀ id,
    message.answers? = some (.str id)
    → status (.refetch id) = .idle
      ∧ ∃ arrival arrived,
        arrived.answers? = some (.str id) ∧ status (.upstream arrival arrived) ≠ .idle
  handled : ∀ arrival message id point,
    message.answers? = some (.str id)
    → status (.upstream arrival message) = .waiting point
    → status (.refetch id) = .idle

/-- No message with an id was served, and none is still handled. -/
structure Unmet (status : Job → Status Point) (tables : Tables) (id : String) : Prop where
  served : ∀ message ∈ tables.served, message.answers? ≠ some (.str id)
  handled : ∀ arrival message point,
    message.answers? = some (.str id) → status (.upstream arrival message) ≠ .waiting point

section

variable {status : Job → Status Point} {tables : Tables} {id : String}

theorem Apart.unmet_of_begun (apart : Apart status tables) (begun : status (.refetch id) ≠ .idle)
    : Unmet status tables id where
  served message member answers := begun (apart.served message member id answers).1
  handled arrival message point answers waiting :=
    begun (apart.handled arrival message id point answers waiting)

theorem Apart.unmet_of_fresh (apart : Apart status tables) (fresh : Fresh status id)
    : Unmet status tables id where
  served message member answers := by
    obtain ⟨_, arrival, arrived, same, begun⟩ := apart.served message member id answers
    exact begun (fresh arrival arrived same)
  handled arrival message point answers waiting := by
    rw [fresh arrival message answers] at waiting
    cases waiting

/-- A re-fetch whose id was not met may be anywhere. -/
theorem Apart.refetch (apart : Apart status tables) (unmet : Unmet status tables id)
    (own : Status Point)
    : Apart (Function.update status (.refetch id) own) tables := by
  refine ⟨?_, ?_⟩
  · intro message member other answers
    have differs : other ≠ id := fun same => unmet.served message member (same ▸ answers)
    obtain ⟨unminted, arrival, arrived, same, begun⟩ := apart.served message member other answers
    refine ⟨?_, arrival, arrived, same, ?_⟩
    · rw [Function.update_of_ne (by simpa using differs)]
      exact unminted
    · rw [Function.update_of_ne (by simp)]
      exact begun
  · intro arrival message other point answers waiting
    rw [Function.update_of_ne (by simp)] at waiting
    have differs : other ≠ id := fun same => unmet.handled arrival message point (same ▸ answers) waiting
    rw [Function.update_of_ne (by simpa using differs)]
    exact apart.handled arrival message other point answers waiting

theorem Apart.of_served {after : Tables} (apart : Apart status tables)
    (same : after.served = tables.served)
    : Apart status after where
  served := same ▸ apart.served
  handled := apart.handled

theorem Unmet.of_served {after : Tables} (unmet : Unmet status tables id)
    (same : after.served = tables.served)
    : Unmet status after id where
  served := same ▸ unmet.served
  handled := unmet.handled

end

-----------------------------------------------------------------------------------------
-- Re-fetches
-----------------------------------------------------------------------------------------

/-- Whatever a task does leaves what the client was served. -/
def Unserving {α : Type} : TaskAsync α → Prop
  | .ended _ => True
  | .look next => ∀ tables, Unserving (next tables)
  | .change effect rest => (∀ tables, (effect tables).served = tables.served) ∧ Unserving rest
  | .await _ next => ∀ reply, Unserving (next reply)

theorem Unserving.bind {α β : Type} {task : TaskAsync α} {next : α → TaskAsync β}
    (first : Unserving task) (rest : ∀ value, Unserving (next value))
    : Unserving (task.bind next) := by
  induction task with
  | ended outcome =>
      cases outcome with
      | ok value => exact rest value
      | error raised => trivial
  | look later ih => exact fun tables => ih tables (first tables)
  | change effect later ih => exact ⟨first.1, ih first.2⟩
  | await point later ih => exact fun reply => ih reply (first reply)

theorem Unserving.tryCatch {α : Type} {task : TaskAsync α} {handler : Exn → TaskAsync α}
    (first : Unserving task) (rest : ∀ raised, Unserving (handler raised))
    : Unserving (task.tryCatch handler) := by
  induction task with
  | ended outcome =>
      cases outcome with
      | ok value => trivial
      | error raised => exact rest raised
  | look later ih => exact fun tables => ih tables (first tables)
  | change effect later ih => exact ⟨first.1, ih first.2⟩
  | await point later ih => exact fun reply => ih reply (first reply)

theorem Unserving.attempt {α : Type} {task : TaskAsync α} (first : Unserving task)
    : Unserving (Routine.attempt task) := by
  have returned (value : α) : Unserving (.ended (.ok (.ok value)) : TaskAsync (Except Exn α)) :=
    trivial
  have raised (exn : Exn) : Unserving (.ended (.ok (.error exn)) : TaskAsync (Except Exn α)) :=
    trivial
  exact (first.bind returned).tryCatch raised

theorem unserving_awaitEach {α : Type} (body : Program Call Reply (Except Exn α))
    : Unserving (awaitEach body) := by
  induction body with
  | done outcome => trivial
  | ask asked next ih =>
      rw [awaitEach]
      intro reply
      cases reply with
      | ok answer => exact ih answer
      | error raised => trivial

theorem unserving_refetch (runtime : Runtime) (session : Session) (id : String)
    : Unserving (refetch runtime session id) := by
  have waits : Unserving (do
      let _ ← Routine.awaiting (Point.send id)
      let result ← Routine.awaiting (Point.settled id)
      awaitEach (checkListed runtime session result).run : TaskAsync (List Tool)) := by
    intro sent
    cases sent with
    | error raised => trivial
    | ok value =>
        intro settled
        cases settled with
        | error raised => trivial
        | ok result => exact unserving_awaitEach _
  have caught := waits.attempt
  have last (_ : Except Exn (List Tool)) : Unserving (Routine.modify (Tables.forget id)) :=
    ⟨fun _ => rfl, trivial⟩
  exact ⟨fun _ => rfl, caught.bind last⟩

/-- A task that serves nothing keeps its id apart, by induction on the task. -/
theorem wp_of_unserving {task : TaskAsync Unit} {id : String} {status : Job → Status Point}
    {tables : Tables} (unserving : Unserving task) (apart : Apart status tables)
    (unmet : Unmet status tables id)
    : wp Apart timely.answers (.refetch id) task (Ends Apart (.refetch id)) status tables := by
  induction task generalizing status tables with
  | ended outcome => exact apart.refetch unmet .ended
  | look next ih => exact ih tables (unserving tables) apart unmet
  | change effect rest ih =>
      have same := unserving.1 tables
      exact ih unserving.2 (apart.of_served same) (unmet.of_served same)
  | await point next ih =>
      refine ⟨apart.refetch unmet _, ?_⟩
      intro reply status tables waiting kept _
      refine ih reply (unserving reply) kept (kept.unmet_of_begun ?_)
      rw [waiting]
      simp

-----------------------------------------------------------------------------------------
-- Upstream messages
-----------------------------------------------------------------------------------------

/-- A message that is handled for the client: no re-fetch has its id. -/
structure Handled (arrival : Nat) (message : ClientMessage) (status : Job → Status Point)
    (tables : Tables)
    : Prop where
  anywhere : ∀ own,
    own ≠ .idle → Apart (Function.update status (.upstream arrival message) own) tables
  unminted : ∀ id, message.answers? = some (.str id) → status (.refetch id) = .idle

section

variable {arrival : Nat} {message : ClientMessage} {status : Job → Status Point} {tables : Tables}

/-- A message that has arrived keeps what the others need of it. -/
theorem Apart.upstream (apart : Apart status tables) {own : Status Point} (begun : own ≠ .idle)
    (unminted : ∀ id point,
      message.answers? = some (.str id) → own = .waiting point → status (.refetch id) = .idle)
    : Apart (Function.update status (.upstream arrival message) own) tables := by
  refine ⟨?_, ?_⟩
  · intro served member id answers
    obtain ⟨apart, other, arrived, same, there⟩ := apart.served served member id answers
    refine ⟨?_, other, arrived, same, ?_⟩
    · rw [Function.update_of_ne (by simp)]
      exact apart
    · by_cases here : (Job.upstream other arrived) = .upstream arrival message
      · rw [here, Function.update_self]
        exact begun
      · rw [Function.update_of_ne here]
        exact there
  · intro other arrived id point answers waiting
    rw [Function.update_of_ne (by simp)]
    by_cases here : (Job.upstream other arrived) = .upstream arrival message
    · rw [here, Function.update_self] at waiting
      cases here
      exact unminted id point answers waiting
    · rw [Function.update_of_ne here] at waiting
      exact apart.handled other arrived id point answers waiting

theorem Apart.handles (apart : Apart status tables)
    (unminted : ∀ id, message.answers? = some (.str id) → status (.refetch id) = .idle)
    : Handled arrival message status tables where
  anywhere _ begun := apart.upstream begun (fun id _ answers _ => unminted id answers)
  unminted := unminted

theorem Handled.of_served {after : Tables} (handles : Handled arrival message status tables)
    (same : after.served = tables.served)
    : Handled arrival message status after where
  anywhere own begun := (handles.anywhere own begun).of_served same
  unminted := handles.unminted

/-- The client may be served what has the message's own id. -/
theorem Handled.serve (handles : Handled arrival message status tables) {served : ClientMessage}
    (same : served.answers? = message.answers?)
    : Handled arrival message status (tables.serve served) := by
  refine ⟨?_, handles.unminted⟩
  intro own begun
  have before := handles.anywhere own begun
  refine ⟨?_, before.handled⟩
  intro other member id answers
  rcases List.mem_append.mp member with early | newest
  · exact before.served other early id answers
  · cases List.mem_singleton.mp newest
    refine ⟨?_, arrival, message, same ▸ answers, ?_⟩
    · rw [Function.update_of_ne (by simp)]
      exact handles.unminted id (same ▸ answers)
    · rw [Function.update_self]
      exact begun

/-- What a handled message may serve. -/
def Relays (message : ClientMessage) : SessionCall → Prop
  | .serve served => served.answers? = message.answers?
  | _ => True

/-- A message that is handled for the client is kept apart from re-fetches, by induction on what
its handling asks.
-/
theorem wp_handle {body : Program SessionCall SessionReply (Except Exn Unit)}
    {past : List (Event SessionReply)} (relays : body.AsksAfter (fun _ => Relays message) past)
    (handles : Handled arrival message status tables)
    : wp Apart timely.answers (.upstream arrival message) (handle message body)
        (Ends Apart (.upstream arrival message)) status tables := by
  induction body generalizing past status tables with
  | done outcome => exact handles.anywhere .ended (by simp)
  | ask asked next ih =>
      cases asked with
      | outer asked =>
          rw [handle]
          refine ⟨handles.anywhere _ (by simp), ?_⟩
          intro reply status tables waiting kept _
          have unminted (id : String) (answers : message.answers? = some (.str id))
              : status (.refetch id) = .idle :=
            kept.handled arrival message id _ answers waiting
          cases reply with
          | ok answer => exact ih answer (relays.2 answer) (kept.handles unminted)
          | error raised => exact (kept.handles unminted).anywhere .ended (by simp)
      | internal id =>
          change wp _ _ _ (if _ then _ else _) _ _ _
          split
          · exact ih true (relays.2 true) (handles.of_served rfl)
          · exact ih false (relays.2 false) handles
      | takePending id => exact ih _ (relays.2 _) (handles.of_served rfl)
      | serve served => exact ih () (relays.2 ()) (handles.serve relays.1)

theorem asks_ofPipeline {α : Type} (body : Async α)
    : (ofPipeline body).run.Asks (Relays message) := by
  change (body.run.expand passOuter).Asks (Relays message)
  induction body.run with
  | done outcome => trivial
  | ask asked next ih => exact ⟨trivial, fun reply => ih reply⟩

/-- A handler that serves what it returns relays when it returns the message's own id. -/
theorem relays_of_answers {past : List (Event SessionReply)}
    {body : SessionAsync (Option ClientMessage)} {next : Option ClientMessage → SessionAsync Unit}
    (asks : body.run.Asks (Relays message))
    (answers : ∀ events served,
      body.run.Exec events (.ok (some served)) → served.answers? = message.answers?)
    (silent : ∀ past, (next none).run.AsksAfter (fun _ => Relays message) past)
    (serves : ∀ past served,
      served.answers? = message.answers?
      → (next (some served)).run.AsksAfter (fun _ => Relays message) past)
    : (body >>= next).run.AsksAfter (fun _ => Relays message) past := by
  apply Coroutine.asksAfter_bind asks.after
  intro events outcome exec
  cases outcome with
  | none => exact silent _
  | some served => exact serves _ served (answers events served exec)

/-- What is done for the client with a response: a list is pruned, and everything else passed. -/
def relay (runtime : Runtime) (session : Session) (id : RequestId)
    (result : List (String × Json)) (message : ClientMessage)
    : SessionAsync (Option ClientMessage) := do
  let method ← Coroutine.ask (SessionCall.takePending id)
  if method = some "tools/list" then
    let served ← ofPipeline (pruneToolsList runtime session id result)
    return some (served.toMessage id)
  else return some message

theorem asks_relay (runtime : Runtime) (session : Session) (id : RequestId)
    (result : List (String × Json))
    : (relay runtime session id result message).run.Asks (Relays message) := by
  apply Coroutine.asks_bind
  · exact Coroutine.asks_ask trivial
  · intro method
    split
    · apply Coroutine.asks_bind (asks_ofPipeline _)
      intro served
      exact Coroutine.asks_pure _
    · exact Coroutine.asks_pure _

theorem answers_of_relay {runtime : Runtime} {session : Session} {id : RequestId}
    {result : List (String × Json)} {events : List (Event SessionReply)} {served : ClientMessage}
    (answers : message.answers? = some id)
    (exec : (relay runtime session id result message).run.Exec events (.ok (some served)))
    : served.answers? = message.answers? := by
  obtain ⟨method, rest, _, going⟩ := Coroutine.exec_ask_bind_iff.mp exec
  split at going
  · obtain ⟨_, _, pruned, _, pruning, ended⟩ := Coroutine.exec_bind_ok_iff.mp going
    obtain ⟨_, same⟩ := Program.exec_done_iff.mp ended
    cases same
    obtain ⟨inner, exec, _⟩ := exec_ofPipeline_iff.mp pruning
    rw [answers]
    exact answers_of_pruneToolsList exec
  · obtain ⟨_, same⟩ := Program.exec_done_iff.mp going
    cases same
    rfl

/-- An upstream message that answers a request asks first whether the request was the gateway's
own, and if it was it asks nothing more.
-/
theorem upstreamToClient_answer (runtime : Runtime) (session : Session) {id : String}
    (answers : message.answers? = some (.str id))
    : ∃ next,
        (upstreamToClient runtime session message).run = .ask (.internal id) next
        ∧ next true = .done (.ok ())
        ∧ (next false).AsksAfter (fun _ => Relays message) [] := by
  cases message with
  | request own method params => cases answers
  | notification method params => cases answers
  | response own result =>
      cases answers
      refine ⟨_, rfl, rfl, ?_⟩
      exact relays_of_answers (asks_relay runtime session (.str id) result)
        (fun _ _ exec => answers_of_relay rfl exec) (fun _ => trivial)
        (fun _ _ same => ⟨same, fun _ => trivial⟩)
  | error own code text =>
      cases answers
      exact ⟨_, rfl, rfl, trivial, fun _ => ⟨rfl, fun _ => trivial⟩⟩

theorem upstreamToClient_other (runtime : Runtime) (session : Session)
    (other : ∀ id, message.answers? ≠ some (.str id))
    : (upstreamToClient runtime session message).run.AsksAfter (fun _ => Relays message) [] := by
  cases message with
  | request own method params => exact ⟨rfl, fun _ => trivial⟩
  | notification method params => exact ⟨rfl, fun _ => trivial⟩
  | response own result =>
      cases own with
      | str id => exact absurd rfl (other id)
      | int value =>
          exact relays_of_answers (asks_relay runtime session (.int value) result)
            (fun _ _ exec => answers_of_relay rfl exec) (fun _ => trivial)
            (fun _ _ same => ⟨same, fun _ => trivial⟩)
  | error own code text =>
      cases own with
      | str id => exact absurd rfl (other id)
      | int value => exact ⟨trivial, fun _ => ⟨rfl, fun _ => trivial⟩⟩

end

/-- Every task keeps the ids of re-fetches apart from what the client is served. -/
theorem verified_apart (runtime : Runtime) (session : Session)
    : Verified Apart timely (program runtime session) := by
  refine ⟨?_, ?_⟩
  · intro status tables job begins apart may
    cases job with
    | refetch id =>
        have fresh : Fresh status id := may.1 id rfl
        exact wp_of_unserving (unserving_refetch runtime session id) apart
          (apart.unmet_of_fresh fresh)
    | upstream arrival message =>
        have inTime : Timely status tables message := may.2 arrival message rfl
        by_cases answer : ∃ id, message.answers? = some (.str id)
        · obtain ⟨id, answers⟩ := answer
          obtain ⟨next, asks, swallows, relays⟩ := upstreamToClient_answer runtime session answers
          have opened : program runtime session (.upstream arrival message)
              = handle message (.ask (.internal id) next) := by
            rw [program, asks]
          rw [opened]
          change wp _ _ _ (if _ then _ else _) _ _ _
          split
          · rw [swallows]
            have kept : Apart status (tables.settle id message) := apart.of_served rfl
            refine kept.upstream (by simp) ?_
            intro _ _ _ waiting
            cases waiting
          · next unregistered =>
              refine wp_handle relays (apart.handles ?_)
              intro other same
              rw [answers] at same
              cases same
              by_contra minted
              exact unregistered (inTime id answers minted)
        · have other (id : String) : message.answers? ≠ some (.str id) := fun same => answer ⟨id, same⟩
          refine wp_handle (upstreamToClient_other runtime session other) (apart.handles ?_)
          intro id answers
          exact absurd answers (other id)
  · intro status tables after apart drifted
    exact apart.of_served drifted.2

/-- In every run in which each response to a re-fetch arrives while its future is registered, no
response to a re-fetch is served to the client.
-/
theorem timely_run_silent {runtime : Runtime} {session : Session} {actions : List (Action Job Value Exn)}
    {final : Pool Job Tables Value Exn}
    (run : Machine.Run (Step (program runtime session) timely) idle actions final)
    : Silent final.status final.shared := by
  have start : Kept Apart timely (idle : Pool Job Tables Value Exn) := by
    refine ⟨⟨?_, ?_⟩, ?_⟩
    · intro message member
      cases member
    · intro arrival message id point answers waiting
      cases waiting
    · intro job task begun
      cases begun
  have kept := ((verified_apart runtime session).run run start).now
  intro message member id answers
  exact (kept.served message member id answers).1

section

abbrev listId : String := "portunusmcp:0123456789abcdef0123456789abcdef"

abbrev listResponse : ClientMessage :=
  .response (.str listId) [("tools", .arr [])]

abbrev mailTasks : Job → TaskAsync Unit :=
  program DriftDetector.calm mailSession

/-- The request of the re-fetch is sent, and no result comes in time. -/
def outOfTime : (point : Point) → Except Exn (Value point)
  | .send _ => .ok ()
  | _ => .error .unavailable

/-- The request of the re-fetch is sent, and its result awaited. -/
def inTime : (point : Point) → Except Exn (Value point)
  | .send _ => .ok ()
  | .settled _ => .ok [("tools", .arr [])]
  | .outer _ => .error .unavailable

def drawn : Pool Job Tables Value Exn :=
  idle.proceed (.refetch listId) (mailTasks (.refetch listId))

def arrived (pool : Pool Job Tables Value Exn) : Pool Job Tables Value Exn :=
  pool.proceed (.upstream 0 listResponse) (mailTasks (.upstream 0 listResponse))

/-- A response that comes in time is the re-fetch's. -/
theorem response_in_time_silent
    : ∃ actions final,
        Machine.Run (Step mailTasks timely) idle actions final
        ∧ final.status (.upstream 0 listResponse) ≠ .idle
        ∧ Silent final.status final.shared := by
  have begins : Step mailTasks timely idle (.begin (.refetch listId)) drawn :=
    .begin rfl ⟨fun _ _ _ _ _ => rfl, fun _ _ other => by cases other⟩
  have sends : Step mailTasks timely drawn (.resume (.refetch listId) (.send listId) (.ok ()))
      (drawn.answer (.refetch listId) inTime) :=
    .answer inTime rfl trivial
  have arrives : Step mailTasks timely (drawn.answer (.refetch listId) inTime)
      (.begin (.upstream 0 listResponse)) (arrived (drawn.answer (.refetch listId) inTime)) := by
    refine .begin rfl ⟨?_, ?_⟩
    · intro id other
      cases other
    · intro arrival message same id answers _
      cases same
      cases answers
      decide
  have waits : Step mailTasks timely (arrived (drawn.answer (.refetch listId) inTime))
      (.resume (.refetch listId) (.settled listId) (.ok [("tools", .arr [])]))
      ((arrived (drawn.answer (.refetch listId) inTime)).answer (.refetch listId) inTime) := by
    refine .answer inTime rfl ?_
    intro result same
    cases same
    exact ⟨.str listId, by decide⟩
  have run := (((Machine.Run.nil.concat begins).concat sends).concat arrives).concat waits
  refine ⟨_, _, run, ?_, timely_run_silent run⟩
  intro unarrived
  cases unarrived

/-- A response that comes after its re-fetch has run out of time is served to the client. -/
theorem late_response_served
    : ∃ actions final,
        Machine.Run (Step mailTasks rules) idle actions final
        ∧ ¬ Silent final.status final.shared := by
  have begins : Step mailTasks rules idle (.begin (.refetch listId)) drawn :=
    .begin rfl (fun _ _ _ _ _ => rfl)
  have sends : Step mailTasks rules drawn (.resume (.refetch listId) (.send listId) (.ok ()))
      (drawn.answer (.refetch listId) outOfTime) :=
    .answer outOfTime rfl trivial
  have waits : Step mailTasks rules (drawn.answer (.refetch listId) outOfTime)
      (.resume (.refetch listId) (.settled listId) (.error .unavailable))
      ((drawn.answer (.refetch listId) outOfTime).answer (.refetch listId) outOfTime) :=
    .answer outOfTime rfl (fun _ other => by cases other)
  have late : Step mailTasks rules
      ((drawn.answer (.refetch listId) outOfTime).answer (.refetch listId) outOfTime)
      (.begin (.upstream 0 listResponse))
      (arrived ((drawn.answer (.refetch listId) outOfTime).answer (.refetch listId) outOfTime)) :=
    .begin rfl (fun _ other => by cases other)
  refine ⟨_, _, (((Machine.Run.nil.concat begins).concat sends).concat waits).concat late, ?_⟩
  intro silent
  have idled := silent listResponse (by decide) listId rfl
  cases idled

end

end Interceptor

end SecureMcp
