import Mathlib.Data.Set.Function
import SecureMcp.Interceptor.Bands
import SecureMcp.Interceptor.Recorded
import SecureMcp.Library.Handlers
import SecureMcp.StepUp.Codes

/-! Step-up clears only its own challenge: every forwarded call in the CHALLENGE band has consumed
the challenge of an earlier CHALLENGE decision about the same call, and no two have consumed the
same one.
-/

namespace SecureMcp

open Interaction

namespace StepUp

open Interceptor

-----------------------------------------------------------------------------------------
-- Tool calls over the store of challenges
-----------------------------------------------------------------------------------------

/-- A call that stays on the level of the pipeline, or one of the challenge store to Redis. -/
inductive GatewayCall
  | outer (asked : Call)
  | redis (asked : RedisCall)

abbrev GatewayReply : GatewayCall → Type
  | .outer asked => Reply asked
  | .redis asked => RedisReply asked

/-- The challenge store's own calls, one by one. -/
def passOn (asked : RedisCall) : Program GatewayCall GatewayReply (RedisReply asked) :=
  .ask (.redis asked) .done

/-- The pipeline's calls to the challenge store are answered by the store. -/
def handler (settings : Settings)
    : (asked : Call) → Program GatewayCall GatewayReply (Reply asked)
  | .createChallenge key hash auditId => (create settings key hash auditId).run.expand passOn
  | .redeemChallenge challengeId key hash proof secret =>
      (redeem challengeId key hash proof secret).run.expand passOn
  | asked => .ask (.outer asked) .done

/-- A tools/call request in a session. -/
structure ToolRequest where
  session : Session
  requestId : RequestId
  params : Option Params

def ToolRequest.call (request : ToolRequest) : ToolCall :=
  toolCallOf request.session request.requestId (request.params.getD [])

def ToolRequest.metadata (request : ToolRequest) : Json :=
  (Json.getKey (request.params.getD []) "_meta").orEmpty

/-- The handling of a request, down to the challenge store. -/
def ToolRequest.program (runtime : Runtime) (request : ToolRequest)
    : Program GatewayCall GatewayReply (Except Exn Outcome) :=
  (onClientMessage runtime request.session
    (.request request.requestId "tools/call" request.params)).run.expand
    (handler runtime.settings)

/-- An event of the challenge store, among those of the gateway. -/
def embed (event : Event RedisReply) : Event GatewayReply :=
  ⟨.redis event.call, event.reply⟩

theorem exec_expand_passOn {α : Type} {body : Program RedisCall RedisReply α}
    {events : List (Event GatewayReply)} {value : α} (exec : (body.expand passOn).Exec events value)
    : ∃ inner, body.Exec inner value ∧ events = inner.map embed := by
  obtain ⟨inner, exec, expands⟩ := Program.exec_expand_iff.mp exec
  refine ⟨inner, exec, expands.eq_map (fun call reply first handled => ?_)⟩
  obtain ⟨answer, rest, rfl, ended⟩ := Program.exec_ask_iff.mp handled
  obtain ⟨rfl, rfl⟩ := Program.exec_done_iff.mp ended
  rfl

/-- A call that stores no challenge, and nothing but the use of a code. -/
def Spends : GatewayCall → Prop
  | .redis (.set _ _ _) => False
  | .redis (.setNx _ value _) => value = .int 1
  | _ => True

theorem asks_passOn {asked : RedisCall} (spends : Spends (.redis asked))
    : (passOn asked).Asks Spends :=
  ⟨spends, fun _ => trivial⟩

/-- A redemption stores nothing but the use of a code. -/
theorem asks_redeem {challengeId hash secret : String} {key : CallKey} {proof : Json}
    : (redeem challengeId key hash proof secret).run.Asks (fun asked => Spends (.redis asked)) := by
  refine Coroutine.asks_bind (Coroutine.asks_demand _ trivial) (fun raw => ?_)
  split
  · exact Coroutine.asks_pure _
  · refine Coroutine.asks_bind (Coroutine.asks_ofExcept _) (fun elsewhere => ?_)
    split
    · exact Coroutine.asks_pure _
    · refine Coroutine.asks_bind (Coroutine.asks_ofExcept _) (fun stored => ?_)
      split
      · exact Coroutine.asks_pure _
      · split
        · exact Coroutine.asks_pure _
        · refine Coroutine.asks_bind ?_ (fun valid => ?_)
          · unfold verifyTotp
            split
            · exact Coroutine.asks_bind (Coroutine.asks_ask trivial)
                (fun now => Coroutine.asks_ofExcept _)
            · exact Coroutine.asks_pure _
          · split
            · exact Coroutine.asks_bind (Coroutine.asks_demand _ rfl) (fun _ => Coroutine.asks_pure _)
            · exact Coroutine.asks_pure _

theorem asks_handler {settings : Settings} {asked : Call} (other : NoChallenge asked)
    : (handler settings asked).Asks Spends := by
  cases asked with
  | createChallenge key hash auditId => cases other
  | redeemChallenge challengeId key hash proof secret =>
      exact asks_redeem.expand (fun asked spends => asks_passOn spends)
  | _ => exact ⟨trivial, fun _ => trivial⟩

theorem exec_create {settings : Settings} {key : CallKey} {hash : String} {auditId : Nat}
    {events : List (Event RedisReply)} {outcome : Except Exn String}
    (exec : (create settings key hash auditId).run.Exec events outcome)
    : ∃ fresh reply,
        events = [
          ⟨.uuid, fresh⟩,
          ⟨.set (challengeKey fresh.text) (challengeRecord key hash auditId)
            settings.stepUpTtlSeconds, reply⟩
        ] := by
  obtain ⟨fresh, _, rfl, storing⟩ := Coroutine.exec_ask_bind_iff.mp exec
  obtain ⟨reply, _, rfl, ⟨_, _, ended⟩ | ⟨_, _, rfl, _⟩⟩ := Coroutine.exec_demand_bind storing
  · obtain ⟨rfl, _⟩ := Program.exec_done_iff.mp ended
    exact ⟨fresh, reply, rfl⟩
  · exact ⟨fresh, reply, rfl⟩

/-- (Issues settings call events) means that the last thing a call did was to record a CHALLENGE
decision and to store the challenge for it, and that it stored no other one.
-/
def Issues (settings : Settings) (call : ToolCall) (events : List (Event GatewayReply)) : Prop :=
  ∃ before entry seq hash fresh reply,
    events
      = (before ++ [⟨.outer (.write entry), .ok seq⟩, ⟨.redis .uuid, fresh⟩])
        ++ [⟨.redis (.set (challengeKey fresh.text) (challengeRecord call.key hash seq)
          settings.stepUpTtlSeconds), reply⟩]
    ∧ (∀ event ∈ before, Spends event.call)
    ∧ RecordsChallenge entry call
    ∧ argumentsHash call.arguments = .ok hash

/-- A handled request stores at most one challenge, as the last thing that it does. -/
theorem issues_of_exec {runtime : Runtime} {request : ToolRequest}
    {events : List (Event GatewayReply)} {outcome : Except Exn Outcome}
    (exec : (request.program runtime).Exec events outcome)
    : (∀ event ∈ events, Spends event.call) ∨ Issues runtime.settings request.call events := by
  obtain ⟨outer, whole, expands⟩ := Program.exec_expand_iff.mp exec
  obtain ⟨_, decided, rfl, settled⟩ := Coroutine.exec_ask_bind_iff.mp whole
  obtain ⟨ended, pipeline, _⟩ := exec_settle_iff.mp settled
  have spends {events : List (Event Reply)} (never : ∀ event ∈ events, NoChallenge event.call)
      : ∀ event ∈ events, (handler runtime.settings event.call).Asks Spends :=
    fun event member => asks_handler (never event member)
  have pending : NoChallenge (.setPending request.requestId "tools/call") := trivial
  rcases challenges_of_exec pipeline with never | ⟨before, entry, seq, hash, reply, rfl, quiet,
      records, hashed⟩
  · refine Or.inl (expands.asks (spends ?_))
    intro event member
    rcases List.mem_cons.mp member with rfl | later
    · exact pending
    · exact never event later
  · rw [← List.cons_append] at expands
    obtain ⟨one, two, rfl, earlier, issuing⟩ := Expands.append_iff.mp expands
    refine Or.inr ?_
    have early : ∀ event ∈ one, Spends event.call := by
      refine earlier.asks (spends ?_)
      intro event member
      rcases List.mem_cons.mp member with rfl | later
      · exact pending
      · exact quiet event later
    cases issuing with
    | cons written issuing =>
        cases issuing with
        | cons created nothing =>
            cases nothing
            obtain ⟨_, _, rfl, ended⟩ := Program.exec_ask_iff.mp written
            obtain ⟨rfl, rfl⟩ := Program.exec_done_iff.mp ended
            obtain ⟨inner, creating, rfl⟩ := exec_expand_passOn created
            obtain ⟨fresh, stored, rfl⟩ := exec_create creating
            exact ⟨one, entry, seq, hash, fresh, stored, by simp [embed, ToolRequest.call], early, records,
              hashed⟩

/-- A call that stores a challenge. -/
def Stores : GatewayCall → Prop
  | .redis (.set _ _ _) => True
  | _ => False

theorem Spends.not_stores {asked : GatewayCall} (spends : Spends asked) : ¬ Stores asked := by
  rcases asked with asked | asked
  · exact id
  · cases asked <;> first | exact id | exact spends.elim

theorem Issues.spends_or_stores {settings : Settings} {call : ToolCall}
    {events : List (Event GatewayReply)} (issues : Issues settings call events)
    : ∀ event ∈ events, Spends event.call ∨ Stores event.call := by
  obtain ⟨before, entry, seq, hash, fresh, reply, rfl, early, _, _⟩ := issues
  intro event member
  simp only [List.mem_append, List.mem_cons, List.not_mem_nil, or_false] at member
  rcases member with (member | rfl | rfl) | rfl
  · exact Or.inl (early event member)
  · exact Or.inl trivial
  · exact Or.inl trivial
  · exact Or.inr trivial

/-- The pipeline's other calls are its own events. -/
theorem outer_of_mem {settings : Settings} {outer : List (Event Reply)}
    {events : List (Event GatewayReply)} {asked : Call} {reply : Reply asked}
    (expands : Expands (handler settings) outer events) (member : ⟨.outer asked, reply⟩ ∈ events)
    : ⟨asked, reply⟩ ∈ outer := by
  induction expands with
  | nil => cases member
  | @cons call answer rest first others handled _ ih =>
      rcases List.mem_append.mp member with here | later
      · have own {body : Program RedisCall RedisReply (Reply call)}
            (exec : (body.expand passOn).Exec first answer)
            : False := by
          obtain ⟨inner, _, rfl⟩ := exec_expand_passOn exec
          obtain ⟨_, _, impossible⟩ := List.mem_map.mp here
          cases impossible
        cases call with
        | createChallenge => exact (own handled).elim
        | redeemChallenge => exact (own handled).elim
        | _ =>
            obtain ⟨_, _, rfl, ended⟩ := Program.exec_ask_iff.mp handled
            obtain ⟨rfl, rfl⟩ := Program.exec_done_iff.mp ended
            cases List.mem_singleton.mp here
            exact List.mem_cons_self
      · exact List.mem_cons_of_mem _ (ih later)

theorem engine_of_mem {settings : Settings} {outer : List (Event Reply)}
    {events : List (Event GatewayReply)} {engine : PolicyEngine}
    (expands : Expands (handler settings) outer events) (member : ⟨.engine, engine⟩ ∈ outer)
    : ⟨.outer .engine, engine⟩ ∈ events := by
  obtain ⟨first, handled, within⟩ := expands.of_mem member
  have single : (Program.ask (GatewayCall.outer .engine) Program.done).Exec first engine := handled
  obtain ⟨answer, _, rfl, ended⟩ := Program.exec_ask_iff.mp single
  obtain ⟨rfl, rfl⟩ := Program.exec_done_iff.mp ended
  exact within.subset List.mem_cons_self

/-- A record that was not issued elsewhere is one for the very call. -/
theorem key_of_issuedElsewhere {key call : CallKey} {hash : String} {auditId : Nat}
    (issued : issuedElsewhere (challengeRecord key hash auditId) call = .ok false)
    : key = call := by
  change (if Json.str key.identityId ≠ .str call.identityId then Except.ok true
    else if Json.str key.serverId ≠ .str call.serverId then .ok true
    else .ok (decide (Json.str key.toolName ≠ .str call.toolName))) = .ok false at issued
  split at issued
  · cases issued
  · next identity =>
      split at issued
      · cases issued
      · next server =>
          have tool : Json.str key.toolName = .str call.toolName := by simpa using issued
          cases key
          cases call
          simp_all

end StepUp

/-- Concurrent tools/call requests of any sessions, and all of their events. -/
structure GatewayRun (ι : Type) where
  request : ι → StepUp.ToolRequest
  trace : List (Stamped ι StepUp.GatewayReply)

namespace GatewayRun

open StepUp Interceptor

/-- Redis answers the calls of the challenge store; the other calls leave its keys alone. -/
def Serves {ι : Type} (keys : RedisKeys) (step : Stamped ι GatewayReply) (after : RedisKeys)
    : Prop :=
  match step.event with
  | ⟨.outer _, _⟩ => after = keys
  | ⟨.redis asked, reply⟩ => keys.Serves ⟨step.thread, step.instant, ⟨asked, reply⟩⟩ after

/-- A step that puts a value under a key. -/
def Puts (key : String) (value : Json) : GatewayCall → Prop
  | .redis asked => RedisKeys.Puts key value asked
  | .outer _ => False

/-- A step that consumed a key. -/
def Takes (key : String) : Event GatewayReply → Prop
  | ⟨.redis asked, reply⟩ => RedisKeys.Takes key ⟨asked, reply⟩
  | ⟨.outer _, _⟩ => False

section

variable {ι : Type} {keys after : RedisKeys} {key : String} {entry : Json × Rat}

/-- An entry of a run that started without entries was put by a step, and not consumed since, by
induction on the run.
-/
theorem origin_of_run {trace : List (Stamped ι GatewayReply)}
    (run : Machine.Run Serves (fun _ => none) trace keys) (held : keys key = some entry)
    : ∃ before step later,
        trace = before ++ step :: later
        ∧ Puts key entry.1 step.event.call
        ∧ ∀ other ∈ later, ¬ Takes key other.event := by
  induction run with
  | nil => cases held
  | @concat past step state final _ served ih =>
      have origin : (state key = some entry ∧ ¬ Takes key step.event)
          ∨ Puts key entry.1 step.event.call := by
        obtain ⟨thread, instant, call | call, reply⟩ := step
        · exact Or.inl ⟨(served : final = state) ▸ held, id⟩
        · exact RedisKeys.Serves.origin served held
      rcases origin with ⟨still, kept⟩ | puts
      · obtain ⟨before, first, later, rfl, puts, untouched⟩ := ih still
        refine ⟨before, first, later ++ [step], by simp, puts, ?_⟩
        intro other member
        rcases List.mem_append.mp member with early | late
        · exact untouched other early
        · exact List.mem_singleton.mp late ▸ kept
      · exact ⟨past, step, [], rfl, puts, by simp⟩

end

variable {ι : Type} [DecidableEq ι]

/-- Every request has got as far as its events. -/
def UnderWay (runtime : Runtime) (run : GatewayRun ι) : Prop :=
  ∀ thread, ∃ later outcome,
    ((run.request thread).program runtime).Exec (eventsOf thread run.trace ++ later) outcome

/-- A request that was forwarded. -/
def Forwarded (runtime : Runtime) (run : GatewayRun ι) (thread : ι) : Prop :=
  ∃ message,
    ((run.request thread).program runtime).Exec (eventsOf thread run.trace)
      (.ok (.forward message))

/-- A request that was scored afresh; a scoring that fails counts as the maximum. -/
def Scored (run : GatewayRun ι) (thread : ι) (score : Int) : Prop :=
  ∃ key arguments policy reply,
    ⟨.outer (.score key arguments policy), reply⟩ ∈ eventsOf thread run.trace
    ∧ (scoreOrMaximum reply).1 = score

/-- A forwarded request whose fresh score was in the CHALLENGE band. -/
def InBand (runtime : Runtime) (run : GatewayRun ι) (thread : ι) : Prop :=
  run.Forwarded runtime thread
  ∧ ∃ score, run.Scored thread score ∧ riskChallengeMin ≤ score ∧ score < riskApprovalMin

/-- A request presented a code that was valid, when the store read the clock, for the secret that
the policy has for its identity.
-/
def PresentsCode (run : GatewayRun ι) (thread : ι) : Prop :=
  ∃ (engine : PolicyEngine) (code : String) (secret : List Nat) (now : Rat),
    ⟨.outer .engine, engine⟩ ∈ eventsOf thread run.trace
    ∧ (run.request thread).metadata.get challengeProofMetaKey = .ok (.str code)
    ∧ decodeTotpSecret ((engine.identity (run.request thread).session.identityId).elim ""
        Identity.totpSecret)
      = some secret
    ∧ ⟨.redis .time, now⟩ ∈ eventsOf thread run.trace
    ∧ ∃ skew ∈ totpSkewSteps, hotp secret (totpCounter now + skew) = .ok code

/-- (run.ClearedBy … thread origin) means that a request consumed the challenge of an earlier
CHALLENGE decision: `origin` recorded its decision and stored the challenge before `thread` took
it, both are about the same call, and `thread` presented a valid code.
-/
structure ClearedBy (settings : Settings) (run : GatewayRun ι) (thread origin : ι) : Prop where
  sameKey : (run.request origin).call.key = (run.request thread).call.key
  consumed : ∃ hash decided stored taken entry seq challengeId,
    argumentsHash (run.request origin).call.arguments = .ok hash
    ∧ argumentsHash (run.request thread).call.arguments = .ok hash
    ∧ [decided, stored, taken].Sublist run.trace
    ∧ decided.thread = origin
    ∧ decided.event = ⟨.outer (.write entry), .ok seq⟩
    ∧ RecordsChallenge entry (run.request origin).call
    ∧ stored.thread = origin
    ∧ stored.event.call
      = .redis (.set (challengeKey challengeId)
          (challengeRecord (run.request origin).call.key hash seq) settings.stepUpTtlSeconds)
    ∧ taken.thread = thread
    ∧ taken.event
      = ⟨.redis (.getDel (challengeKey challengeId)),
          .ok (some (challengeRecord (run.request origin).call.key hash seq))⟩
  code : run.PresentsCode thread

section

variable {runtime : Runtime} {run : GatewayRun ι} {before later : List (Stamped ι GatewayReply)}
  {step : Stamped ι GatewayReply} {thread one two origin : ι}

/-- A step of a request stores a challenge, or nothing but the use of a code. -/
theorem spends_or_stores (underWay : run.UnderWay runtime) (member : step ∈ run.trace)
    : Spends step.event.call ∨ Stores step.event.call := by
  obtain ⟨rest, outcome, exec⟩ := underWay step.thread
  have among : step.event ∈ eventsOf step.thread run.trace ++ rest :=
    List.mem_append_left _ (event_mem_eventsOf member)
  rcases issues_of_exec exec with spends | issues
  · exact Or.inl (spends _ among)
  · exact issues.spends_or_stores _ among

/-- A step that stores a challenge is its request's last one, and its decision was recorded. -/
theorem issued_of_step (underWay : run.UnderWay runtime)
    (split : run.trace = before ++ step :: later) (stores : Stores step.event.call)
    : ∃ decided ∈ before, ∃ entry seq hash fresh,
        decided.thread = step.thread
        ∧ decided.event = ⟨.outer (.write entry), .ok seq⟩
        ∧ RecordsChallenge entry (run.request step.thread).call
        ∧ argumentsHash (run.request step.thread).call.arguments = .ok hash
        ∧ step.event.call
          = .redis (.set (challengeKey fresh)
              (challengeRecord (run.request step.thread).call.key hash seq)
              runtime.settings.stepUpTtlSeconds)
        ∧ eventsOf step.thread later = [] := by
  obtain ⟨rest, outcome, exec⟩ := underWay step.thread
  rw [split, eventsOf_append_cons, List.append_assoc, List.cons_append] at exec
  rcases issues_of_exec exec with spends | ⟨past, entry, seq, hash, fresh, reply, whole, early, records, hashed⟩
  · exact absurd stores (spends step.event (by simp)).not_stores
  · rcases same_or_before whole with ⟨same, event, nothing⟩ | ⟨among, _⟩ | ⟨_, impossible⟩
    · have written : ⟨.outer (.write entry), .ok seq⟩ ∈ eventsOf step.thread before := by
        rw [same]
        simp
      obtain ⟨decided, inBefore, ofThread, isWrite⟩ := step_of_eventsOf written
      refine ⟨decided, inBefore, entry, seq, hash, fresh.text, ofThread, isWrite, records, hashed,
        by rw [event], ?_⟩
      exact (List.append_eq_nil_iff.mp nothing).1
    · simp only [List.mem_append, List.mem_cons, List.not_mem_nil, or_false] at among
      rcases among with member | same | same
      · exact absurd stores (early _ member).not_stores
      · rw [same] at stores
        exact stores.elim
      · rw [same] at stores
        exact stores.elim
    · cases impossible

/-- (Consumes … thread origin) means that `thread` took what `origin` stored, and nobody in
between.
-/
def Consumes (run : GatewayRun ι) (thread origin : ι) : Prop :=
  ∃ before stored between taken later key value,
    run.trace = (before ++ stored :: between) ++ taken :: later
    ∧ stored.thread = origin
    ∧ Stores stored.event.call
    ∧ Puts key value stored.event.call
    ∧ (∀ other ∈ between, ¬ Takes key other.event)
    ∧ taken.thread = thread
    ∧ Takes key taken.event

/-- No two requests take the one challenge that a request stored. -/
theorem consumes_injective (underWay : run.UnderWay runtime) (first : run.Consumes one origin)
    (second : run.Consumes two origin)
    : one = two := by
  obtain ⟨before, stored, between, taken, later, key, value, split, rfl, stores, puts,
    untouched, rfl, takes⟩ := first
  obtain ⟨before', stored', between', taken', later', key', value', split', same, stores', puts',
    untouched', rfl, takes'⟩ := second
  have whole : run.trace = before ++ stored :: (between ++ taken :: later) := by simpa using split
  have whole' : run.trace = before' ++ stored' :: (between' ++ taken' :: later') := by
    simpa using split'
  obtain ⟨_, _, _, _, _, _, _, _, _, _, _, last⟩ := issued_of_step underWay whole stores
  obtain ⟨_, _, _, _, _, _, _, _, _, _, _, last'⟩ := issued_of_step underWay whole' stores'
  -- The request that stored it is done, so both places are one.
  have never {steps : List (Stamped ι GatewayReply)} {step : Stamped ι GatewayReply}
      (empty : eventsOf step.thread steps = []) (member : step ∈ steps)
      : False := by
    have event := event_mem_eventsOf member
    rw [empty] at event
    cases event
  rcases same_or_before (whole.symm.trans whole') with ⟨_, rfl, rest⟩ | ⟨_, after⟩ | ⟨_, after⟩
  · have sameKey : key' = key := by
      obtain ⟨_, _, ⟨_⟩ | asked, _⟩ := stored
      · exact puts.elim
      · cases asked <;> first | exact stores.elim | exact puts'.1.symm.trans puts.1
    subst sameKey
    rcases same_or_before rest with ⟨_, rfl, _⟩ | ⟨early, _⟩ | ⟨early, _⟩
    · rfl
    · exact absurd takes (untouched' _ early)
    · exact absurd takes' (untouched _ early)
  · exact (never (same ▸ last) after).elim
  · exact (never (same.symm ▸ last') after).elim

/-- A forwarded request passed the pipeline, over the events that its own were expanded from. -/
theorem Forwarded.passed (forwarded : run.Forwarded runtime thread)
    : ∃ outer message,
        Expands (handler runtime.settings) outer (eventsOf thread run.trace)
        ∧ ∃ rest,
          outer = ⟨.setPending (run.request thread).requestId "tools/call", ()⟩ :: rest
          ∧ Passed runtime (run.request thread).session (run.request thread).requestId
            (run.request thread).params rest message := by
  obtain ⟨message, exec⟩ := forwarded
  obtain ⟨outer, whole, expands⟩ := Program.exec_expand_iff.mp exec
  exact ⟨outer, message, expands, passed_of_forward whole⟩

/-- No request whose fresh score is in the approval band or above is forwarded. -/
theorem Forwarded.below (forwarded : run.Forwarded runtime thread) {score : Int}
    (scored : run.Scored thread score)
    : score < riskApprovalMin := by
  obtain ⟨outer, message, expands, rest, rfl, passed⟩ := forwarded.passed
  obtain ⟨key, arguments, policy, reply, asked, rfl⟩ := scored
  have among : ⟨.score key arguments policy, reply⟩ ∈ rest := by
    simpa using outer_of_mem expands asked
  exact (passed.scored among).1

/-- A forwarded request in the CHALLENGE band consumed a challenge of its own. -/
theorem InBand.cleared {final : RedisKeys} (inBand : run.InBand runtime thread)
    (served : Machine.Run Serves (fun _ => none) run.trace final) (underWay : run.UnderWay runtime)
    : ∃ origin, run.ClearedBy runtime.settings thread origin ∧ run.Consumes thread origin := by
  obtain ⟨forwarded, score, ⟨key, arguments, policy, reply, asked, rfl⟩, band, _⟩ := inBand
  obtain ⟨outer, message, expands, rest, rfl, passed⟩ := forwarded.passed
  have among : ⟨.score key arguments policy, reply⟩ ∈ rest := by
    simpa using outer_of_mem expands asked
  obtain ⟨engine, challengeId, hash, proof, read, hashed, carried, redeemed⟩ :=
    (passed.scored among).2 band
  have readHere := engine_of_mem expands (List.mem_cons_of_mem _ read)
  obtain ⟨first, handled, within⟩ := expands.of_mem (List.mem_cons_of_mem _ redeemed)
  obtain ⟨inner, redeeming, rfl⟩ := exec_expand_passOn handled
  obtain ⟨record, code, secret, now, rfl, decoded, issued, sameHash, verified, rfl⟩ :=
    exec_redeem_none redeeming
  have presents : run.PresentsCode thread :=
    ⟨engine, code, secret, now, readHere, carried, decoded,
      within.subset (by simp [embed]), exists_of_verifySteps verified⟩
  -- The record that was taken was stored by a request before, and is one for the same call.
  obtain ⟨taken, inTrace, ofThread, isTaken⟩ :
      ∃ step ∈ run.trace, step.thread = thread
        ∧ step.event = ⟨.redis (.getDel (challengeKey challengeId)), .ok (some record)⟩ :=
    step_of_eventsOf (within.subset (by simp [embed]))
  obtain ⟨past, later, split⟩ := List.append_of_mem inTrace
  rw [split] at served
  obtain ⟨keys, reached, served⟩ := served.split
  obtain ⟨_, taking, _⟩ := served.head
  have found : keys.live (challengeKey challengeId) taken.instant = some record := by
    unfold Serves at taking
    rw [isTaken] at taking
    exact taking.1.symm
  obtain ⟨expiry, held, _⟩ := Expiring.live_eq_some_iff.mp found
  obtain ⟨before, stored, between, rfl, puts, untouched⟩ := origin_of_run reached held
  have whole : run.trace = before ++ stored :: (between ++ taken :: later) := by simpa using split
  have stores : Stores stored.event.call := by
    refine (spends_or_stores underWay (whole ▸ by simp)).resolve_left (fun spends => ?_)
    generalize stored.event.call = asked at spends puts
    rcases asked with asked | asked
    · exact puts
    · cases asked with
      | set => exact spends
      | setNx other value seconds =>
          have isOne : record = .int 1 := puts.2.symm.trans spends
          rw [isOne] at issued
          cases issued
      | _ => exact puts
  obtain ⟨decided, inBefore, entry, seq, storedHash, fresh, ofOrigin, isWrite, records, hashedThen,
    isStore, _⟩ := issued_of_step underWay whole stores
  have same : challengeKey fresh = challengeKey challengeId
      ∧ challengeRecord (run.request stored.thread).call.key storedHash seq = record := by
    rw [isStore] at puts
    exact puts
  obtain ⟨sameKey, rfl⟩ := same
  have sameCall := key_of_issuedElsewhere issued
  cases (sameHash : Except.ok (Json.str storedHash) = .ok (.str hash))
  refine ⟨stored.thread, ⟨sameCall, ?_, presents⟩, ?_⟩
  · refine ⟨hash, decided, stored, taken, entry, seq, challengeId, hashedThen, hashed, ?_,
      ofOrigin, isWrite, records, rfl, sameKey ▸ isStore, ofThread, isTaken⟩
    rw [whole]
    have late : [stored, taken].Sublist (stored :: (between ++ taken :: later)) :=
      (List.singleton_sublist.mpr (by simp)).cons_cons _
    exact (List.singleton_sublist.mpr inBefore).append late
  · refine ⟨before, stored, between, taken, later, _, _, split, rfl, stores, puts, untouched,
      ofThread, ?_⟩
    rw [isTaken]
    rfl

end

/-- In every run that starts without challenges, each forwarded request in the CHALLENGE band has
an earlier CHALLENGE decision of its own, and none in the approval band or above is forwarded
without an approval that it redeems.
-/
theorem step_up_clears_own_challenge {runtime : Runtime} {run : GatewayRun ι} {final : RedisKeys}
    (served : Machine.Run Serves (fun _ => none) run.trace final) (underWay : run.UnderWay runtime)
    : (∃ origin : ι → ι,
        Set.InjOn origin {thread | run.InBand runtime thread}
        ∧ ∀ thread, run.InBand runtime thread → run.ClearedBy runtime.settings thread (origin thread))
      ∧ ∀ thread score,
        run.Forwarded runtime thread
        → run.Scored thread score
        → riskApprovalMin ≤ score
        → ∃ approvalId hash,
          ⟨.outer (.redeemApproval approvalId (run.request thread).call.key hash), .ok none⟩
            ∈ eventsOf thread run.trace := by
  have each (thread : ι)
      : ∃ origin,
          run.InBand runtime thread
          → run.ClearedBy runtime.settings thread origin ∧ run.Consumes thread origin := by
    by_cases inBand : run.InBand runtime thread
    · obtain ⟨origin, cleared⟩ := inBand.cleared served underWay
      exact ⟨origin, fun _ => cleared⟩
    · exact ⟨thread, fun inBand' => absurd inBand' inBand⟩
  choose origin clears using each
  refine ⟨⟨origin, ?_, fun thread inBand => (clears thread inBand).1⟩, ?_⟩
  · intro one inBandOne two inBandTwo same
    have second := (clears two inBandTwo).2
    rw [← same] at second
    exact consumes_injective underWay (clears one inBandOne).2 second
  · intro thread score forwarded scored above
    exact absurd (forwarded.below scored) (not_lt.mpr above)

-----------------------------------------------------------------------------------------
-- A challenge and its retry
-----------------------------------------------------------------------------------------

/-- An event of the pipeline, among those of the gateway. -/
def toOuter (event : Event Reply) : Event GatewayReply :=
  ⟨.outer event.call, event.reply⟩

/-- A call that does not reach the challenge store. -/
def Own : Call → Prop
  | .createChallenge _ _ _ | .redeemChallenge _ _ _ _ _ => False
  | _ => True

theorem expands_own {settings : Settings} {events : List (Event Reply)}
    (own : ∀ event ∈ events, Own event.call)
    : Expands (handler settings) events (events.map toOuter) := by
  induction events with
  | nil => exact .nil
  | cons event rest ih =>
      have later := ih (fun other member => own other (List.mem_cons_of_mem _ member))
      have here := own event List.mem_cons_self
      obtain ⟨call, reply⟩ := event
      have single : (handler settings call).Exec [toOuter ⟨call, reply⟩] reply := by
        cases call <;> first | exact here.elim | exact .ask (.done _)
      exact .cons single later

omit [DecidableEq ι] in
theorem run_own {keys : RedisKeys} {instant : Rat} {thread : ι} {events : List (Event Reply)}
    : Machine.Run Serves keys ((events.map toOuter).map (Stamped.mk thread instant)) keys := by
  refine Machine.run_of_unchanged (fun step member => ?_)
  obtain ⟨_, among, rfl⟩ := List.mem_map.mp member
  obtain ⟨_, _, rfl⟩ := List.mem_map.mp among
  rfl

theorem expands_passOn (inner : List (Event RedisReply))
    : Expands passOn inner (inner.map embed) := by
  induction inner with
  | nil => exact .nil
  | cons event rest ih =>
      have single : (passOn event.call).Exec [embed event] event.reply := .ask (.done _)
      exact .cons single ih

def issueSession : Session where
  identityId := "alice"
  serverId := "github"

/-- A policy that gives the identity a second factor. -/
def stepUpPolicy : PolicyEngine where
  policy := {
    version := 1
    identities := [{
      id := "alice"
      totpSecret := StoreRun.sharedSecret
      allowedServers := [{ serverId := "github", allowedTools := ["*"] }]
    }]
  }

/-- The hash of empty arguments. -/
def emptyHash : String := Sha256.hexdigest "{}"

/-- Replies with which every call scores 50 and passes everything else. -/
def challenged : (call : Call) → Reply call
  | .engine => stepUpPolicy
  | .score _ _ _ => .ok (50, [])
  | .createChallenge _ _ _ => .ok StoreRun.firstId.text
  | .cacheGet _ =>
      .ok (some [[
        ("name", .str "create_issue"),
        ("inputSchema", .obj [("type", .str "object")])
      ]])
  | call => DriftDetector.granted call

/-- A request to create an issue. -/
def issueRequest (metadata : List (String × Json)) : ToolRequest where
  session := issueSession
  requestId := .int 1
  params := some [
    ("name", .str "create_issue"),
    ("arguments", .obj []),
    ("_meta", .obj metadata)
  ]

def challengeReason : String :=
  "risk score " ++ toString (50 : Int) ++ " for " ++ pyRepr "create_issue"
    ++ " requires confirmation" ++ "; retry with the challenge id and a fresh TOTP code"

/-- What the first request asks before its challenge is created. -/
def challengeEvents : List (Event Reply) :=
  [
    ⟨.setPending (.int 1) "tools/call", ()⟩,
    ⟨.engine, stepUpPolicy⟩,
    ⟨.engine, stepUpPolicy⟩,
    ⟨.isBlocked "github" "create_issue", .ok false⟩,
    ⟨.engine, stepUpPolicy⟩,
    ⟨.score StoreRun.issueCall (.obj []) {}, .ok (50, [])⟩,
    ⟨.popPending (.int 1), ()⟩,
    ⟨.engine, stepUpPolicy⟩,
    ⟨.engine, stepUpPolicy⟩,
    ⟨.write (riskTerminalEntry StoreRun.issueCall .challenge challengeReason (.obj []) 50 []), .ok 1⟩
  ]

/-- What the retry asks before and after it redeems the challenge. -/
def retryEvents : List (Event Reply) × List (Event Reply) :=
  ([
    ⟨.setPending (.int 1) "tools/call", ()⟩,
    ⟨.engine, stepUpPolicy⟩,
    ⟨.engine, stepUpPolicy⟩,
    ⟨.isBlocked "github" "create_issue", .ok false⟩
  ], [
    ⟨.engine, stepUpPolicy⟩,
    ⟨.score StoreRun.issueCall (.obj []) {}, .ok (50, [])⟩,
    ⟨.cacheGet "github", challenged (.cacheGet "github")⟩,
    ⟨.engine, stepUpPolicy⟩,
    ⟨.write (allowEntry StoreRun.issueCall 1 (.obj []) (some 50) (some []) none
      (some StoreRun.firstId.text)), .ok 1⟩
  ])

def retryMeta : List (String × Json) :=
  [
    (challengeIdMetaKey, .str StoreRun.firstId.text),
    (challengeProofMetaKey, .str StoreRun.usedCode)
  ]

def storedRecord : Json :=
  challengeRecord StoreRun.issueCall emptyHash 1

def issuedEvents : List (Event GatewayReply) :=
  challengeEvents.map toOuter
  ++ [
    ⟨.redis .uuid, StoreRun.firstId⟩,
    ⟨.redis (.set (challengeKey StoreRun.firstId.text) storedRecord 300), .ok ()⟩
  ]

def clearedEvents : List (Event GatewayReply) :=
  retryEvents.1.map toOuter
  ++ ([
    ⟨.redis (.getDel (challengeKey StoreRun.firstId.text)), .ok (some storedRecord)⟩,
    ⟨.redis .time, (45 : Rat)⟩,
    ⟨.redis (.setNx (codeDedupKey "alice" StoreRun.usedCode) (.int 1) 90), .ok true⟩
  ] ++ retryEvents.2.map toOuter)

/-- The attempts of one call. -/
inductive Attempt
  | held
  | retry
  deriving DecidableEq

/-- A call in the CHALLENGE band is challenged, and retried with a valid code. -/
def retried : GatewayRun Attempt where
  request
    | .held => issueRequest []
    | .retry => issueRequest retryMeta
  trace := issuedEvents.map (Stamped.mk .held 40) ++ clearedEvents.map (Stamped.mk .retry 45)

theorem exec_issued
    : ∃ outcome, ((issueRequest []).program DriftDetector.calm).Exec issuedEvents outcome := by
  have outer
      : ∃ outcome,
          (onClientMessage DriftDetector.calm issueSession
            (.request (.int 1) "tools/call" (issueRequest []).params)).run.Exec
            (challengeEvents
              ++ [⟨.createChallenge StoreRun.issueCall emptyHash 1, .ok StoreRun.firstId.text⟩])
            outcome :=
    ⟨_, Program.exec_play challenged _⟩
  obtain ⟨outcome, outer⟩ := outer
  refine ⟨outcome, Program.exec_expand_iff.mpr ⟨_, outer, ?_⟩⟩
  refine Expands.append_iff.mpr ⟨_, _, rfl, expands_own (by simp [challengeEvents, Own]), ?_⟩
  have created
      : (handler {} (.createChallenge StoreRun.issueCall emptyHash 1)).Exec
          [
            ⟨.redis .uuid, StoreRun.firstId⟩,
            ⟨.redis (.set (challengeKey StoreRun.firstId.text) storedRecord 300), .ok ()⟩
          ]
          (.ok StoreRun.firstId.text) :=
    .ask (.ask (.done _))
  exact .cons created .nil

theorem exec_cleared
    : ∃ message,
        ((issueRequest retryMeta).program DriftDetector.calm).Exec clearedEvents
          (.ok (.forward message)) := by
  have outer
      : ∃ message,
          (onClientMessage DriftDetector.calm issueSession
            (.request (.int 1) "tools/call" (issueRequest retryMeta).params)).run.Exec
            (retryEvents.1
              ++ (⟨.redeemChallenge StoreRun.firstId.text StoreRun.issueCall emptyHash
                (.str StoreRun.usedCode) StoreRun.sharedSecret, .ok none⟩ :: retryEvents.2))
            (.ok (.forward message)) :=
    ⟨_, Program.exec_play challenged _⟩
  obtain ⟨message, outer⟩ := outer
  refine ⟨message, Program.exec_expand_iff.mpr ⟨_, outer, ?_⟩⟩
  refine Expands.append_iff.mpr ⟨_, _, rfl, expands_own (by simp [retryEvents, Own]), ?_⟩
  refine .cons ?_ (expands_own (by simp [retryEvents, Own]))
  have valid : verifySteps StoreRun.sharedKey StoreRun.usedCode (totpCounter 45) totpSkewSteps
      = .ok true :=
    StoreRun.verify_usedCode (by decide +kernel)
  have redeemed
      : (redeem StoreRun.firstId.text StoreRun.issueCall emptyHash (.str StoreRun.usedCode)
          StoreRun.sharedSecret).run.Exec
          [
            ⟨.getDel (challengeKey StoreRun.firstId.text), .ok (some storedRecord)⟩,
            ⟨.time, (45 : Rat)⟩,
            ⟨.setNx (codeDedupKey "alice" StoreRun.usedCode) (.int 1) 90, .ok true⟩
          ]
          (.ok none) :=
    exec_redeem_of_valid rfl rfl (by decide) StoreRun.decode_sharedSecret valid true
  exact Program.exec_expand_iff.mpr ⟨_, redeemed, expands_passOn _⟩

/-- What Redis keeps after the challenge was stored. -/
def challengedKeys : RedisKeys :=
  Expiring.put (fun _ => none) (challengeKey StoreRun.firstId.text) storedRecord (40 + (300 : Int))

theorem served_retried : ∃ final, Machine.Run Serves (fun _ => none) retried.trace final := by
  have issuing
      : Machine.Run Serves (fun _ => none)
          ([
            ⟨.held, 40, ⟨.redis .uuid, StoreRun.firstId⟩⟩,
            ⟨.held, 40, ⟨.redis (.set (challengeKey StoreRun.firstId.text) storedRecord 300), .ok ()⟩⟩
          ] : List (Stamped Attempt GatewayReply))
          challengedKeys :=
    .cons rfl (.cons ⟨by decide, rfl⟩ .nil)
  have live : challengedKeys.live (challengeKey StoreRun.firstId.text) 45 = some storedRecord :=
    Expiring.live_eq_some_iff.mpr ⟨_, Expiring.put_self, by decide +kernel⟩
  have fresh : true = ((challengedKeys.drop (challengeKey StoreRun.firstId.text)).live
      (codeDedupKey "alice" StoreRun.usedCode) 45).isNone := by
    decide +kernel
  have clearing
      : ∃ final, Machine.Run Serves challengedKeys
          ([
            ⟨.retry, 45, ⟨.redis (.getDel (challengeKey StoreRun.firstId.text)),
              .ok (some storedRecord)⟩⟩,
            ⟨.retry, 45, ⟨.redis .time, (45 : Rat)⟩⟩,
            ⟨.retry, 45, ⟨.redis (.setNx (codeDedupKey "alice" StoreRun.usedCode) (.int 1) 90), .ok true⟩⟩
          ] : List (Stamped Attempt GatewayReply))
          final :=
    ⟨_, .cons ⟨live.symm, rfl⟩ (.cons ⟨rfl, rfl⟩ (.cons ⟨by decide, fresh, rfl⟩ .nil))⟩
  obtain ⟨final, clearing⟩ := clearing
  refine ⟨final, ?_⟩
  unfold retried issuedEvents clearedEvents
  simp only [List.map_append]
  exact (run_own.append issuing).append (run_own.append (clearing.append run_own))

theorem eventsOf_retried
    : eventsOf .held retried.trace = issuedEvents ∧ eventsOf .retry retried.trace = clearedEvents := by
  simp [retried, eventsOf_append, eventsOf_stamped]

theorem underWay_retried : retried.UnderWay DriftDetector.calm := by
  intro thread
  match thread with
  | .held =>
      obtain ⟨outcome, exec⟩ := exec_issued
      exact ⟨[], outcome, by rw [eventsOf_retried.1, List.append_nil]; exact exec⟩
  | .retry =>
      obtain ⟨message, exec⟩ := exec_cleared
      exact ⟨[], _, by rw [eventsOf_retried.2, List.append_nil]; exact exec⟩

/-- Witness: the retry is forwarded in the CHALLENGE band, and has its own challenge. -/
theorem retry_cleared_by_challenge
    : retried.InBand DriftDetector.calm .retry
      ∧ ∃ origin, retried.ClearedBy {} .retry origin := by
  have forwarded : retried.Forwarded DriftDetector.calm .retry := by
    obtain ⟨message, exec⟩ := exec_cleared
    exact ⟨message, by rw [eventsOf_retried.2]; exact exec⟩
  have inBand : retried.InBand DriftDetector.calm .retry := by
    refine ⟨forwarded, 50, ⟨StoreRun.issueCall, .obj [], {}, .ok (50, []), ?_, rfl⟩, by decide,
      by decide⟩
    rw [eventsOf_retried.2]
    simp [clearedEvents, retryEvents, toOuter]
  obtain ⟨final, served⟩ := served_retried
  obtain ⟨⟨origin, _, cleared⟩, _⟩ := step_up_clears_own_challenge served underWay_retried
  exact ⟨inBand, origin .retry, cleared .retry inBand⟩

end GatewayRun

end SecureMcp
