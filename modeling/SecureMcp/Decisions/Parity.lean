import SecureMcp.Decisions.Prediction

/-! When a call and its explanation end with the same event. -/

namespace SecureMcp

open Interaction

namespace DecisionExplainer

open Interceptor (Outcome Params Session inputSchemaIn thresholdOutcome)
open ExplainCall

/-- A clock and nonces that let a timestamp through, and stores that keep what they are asked to. -/
def Works (runtime : Runtime) (timestamp : Json) : Event Reply → Prop
  | ⟨.time, now⟩ =>
      ReplayGuard.outside now runtime.settings.replayWindowSeconds timestamp = .ok false
  | ⟨.setNonce _ _, reply⟩ => reply = .ok true
  | ⟨.write _, reply⟩ | ⟨.createApproval _ _ _, reply⟩ | ⟨.createChallenge _ _ _, reply⟩ => reply.isOk
  | _ => True

/-- One answer of a world that tells the facts, and works. -/
def Facts.Fresh (facts : Facts) (call : Interceptor.ToolCall) (clock : Int) (runtime : Runtime)
    (timestamp : Json) (before : Phase) (event : Event Reply) (after : Phase)
    : Prop :=
  facts.Serves call clock before event after ∧ Works runtime timestamp event

theorem Works.stored {runtime : Runtime} {timestamp : Json} {event : Event Reply}
    (works : Works runtime timestamp event)
    : ¬ Fails event := by
  obtain ⟨call, reply⟩ := event
  intro fails
  cases call with
  | write entry | createApproval key hash auditId | createChallenge key hash auditId =>
      have stored : reply.isOk = true := works
      rw [(fails : reply.isOk = false)] at stored
      cases stored
  | _ => exact fails

/-- A request volunteers neither a nonce nor a timestamp, and need not, or it has both. -/
def Presents (runtime : Runtime) (signed : Bool) (fields : Params) : Prop :=
  (signed = false
    ∧ (Json.obj fields).contains ReplayGuard.nonceMetaKey = .ok false
    ∧ (Json.obj fields).contains ReplayGuard.timestampMetaKey = .ok false)
  ∨ ((∃ text, Json.getKey fields ReplayGuard.nonceMetaKey = .str text ∧ runtime.isUuid text)
    ∧ ReplayGuard.isTimestamp (Json.getKey fields ReplayGuard.timestampMetaKey))

section

variable {runtime : Runtime} {facts : Facts} {call : Interceptor.ToolCall} {clock : Int}
  {fields : Params} {signed : Bool}

end

section

variable {runtime : Runtime} {call : Interceptor.ToolCall} {timestamp : Json} {facts : Facts}

end

section

variable {deployment : Deployment} {liveEvents : List (Event SharedReply)}

end

/-- A live call and an explanation, each on its own in one state of the stores. -/
structure Comparison (ρ : Type) where
  deployment : Deployment
  others : Store ρ (fun call => Done (Reply call))
  around : Circumstances
  instant : Rat
  world : World ρ
  session : Session
  requestId : RequestId
  params : Option Params
  fields : Params
  context : List (String × Json)
  tools : List Tool
  liveEvents : List (Event SharedReply)
  dryEvents : List (Event SharedReply)
  ended : Except Exn Outcome
  explained : Except Exn Explanation

namespace Comparison

variable {ρ : Type} (comparison : Comparison ρ)

def call : Interceptor.ToolCall :=
  Interceptor.toolCallOf comparison.session comparison.requestId (comparison.params.getD [])

def timestamp : Json :=
  Json.getKey comparison.fields ReplayGuard.timestampMetaKey

/-- What the call is decided from. -/
def facts : Facts :=
  comparison.world.facts comparison.deployment comparison.around comparison.instant
    comparison.call.key comparison.call.arguments comparison.timestamp comparison.tools

/-- The call redeems nothing and is no replay, and its explanation is asked for with its timestamp. The
schemas of its server are cached, both meet with the same failures, and for the call the clock, the
nonces and what is written work.
-/
structure Proper : Prop where
  hypothetical : Hypothetical comparison.params comparison.fields comparison.context
  warm : comparison.world.cached comparison.session.serverId comparison.instant
    = some comparison.tools
  presents : Presents comparison.deployment.runtime
    ((comparison.world.policy.engine.identity comparison.session.identityId).any
      (fun record => record.authMode = .signed))
    comparison.fields
  works : ∀ (asked : Call) outcome,
    ⟨.gateway asked, outcome⟩ ∈ comparison.liveEvents
    → Works comparison.deployment.runtime comparison.timestamp ⟨asked, outcome.reply⟩
  live : (onGateway comparison.deployment (Interceptor.settle
    (Interceptor.authorizeCall comparison.deployment.runtime comparison.session
      comparison.requestId comparison.params))).run.Exec comparison.liveEvents comparison.ended
  liveServed : ∃ after,
    Program.Served ((World.stores comparison.deployment comparison.others).Serves comparison.instant)
      comparison.world comparison.liveEvents after
  dry : (explainCall comparison.deployment comparison.call.key comparison.call.arguments
    comparison.context comparison.world.policy.engine true).run.Exec comparison.dryEvents
      comparison.explained
  dryServed : ∃ after,
    Program.Served ((World.stores comparison.deployment comparison.others).Serves comparison.instant)
      comparison.world comparison.dryEvents after
  holds : ∀ event ∈ comparison.liveEvents ++ comparison.dryEvents,
    comparison.around.Holds comparison.call.key event

variable {comparison}

/-- What the explanation comes to, by that of the facts. -/
theorem Proper.explains (proper : comparison.Proper)
    : ∃ after,
        Leaves
          (fun explanation (_ : World ρ) =>
            explanationOf comparison.deployment.runtime comparison.call.key
                comparison.call.arguments comparison.facts
              = .ok explanation
            ∧ (Granted comparison.facts.engine comparison.call.key → ¬ Hourless comparison.timestamp))
          (fun _ _ =>
            Granted comparison.facts.engine comparison.call.key
            ∧ (Hourless comparison.timestamp
              ∨ (explanationOf comparison.deployment.runtime comparison.call.key
                  comparison.call.arguments comparison.facts).isOk = false))
          after comparison.explained := by
  obtain ⟨after, served⟩ := proper.dryServed
  refine ⟨after, ?_⟩
  exact triple_explainCall rfl proper.warm proper.hypothetical.hourless proper.hypothetical.stamped
    comparison.world comparison.dryEvents after comparison.explained rfl proper.dry
    (Program.served_and_iff.mpr
      ⟨served, fun event member => proper.holds event (List.mem_append_right _ member)⟩)

/-- The replies of the stores when nothing fails and nothing was counted before. -/
def replyUp : (call : SharedCall) → SharedReply call
  | .gateway call => ⟨Interceptor.permitted call, true⟩
  | .risk call => Risk.quiet 1 (.applied ()) call
  | call => replyDown call

/-- The `_meta` of a call that presents a nonce and a timestamp. -/
def stampedFields (timestamp : Json) : Params := [
  (ReplayGuard.nonceMetaKey, .str "5f0c7a52-3f0e-4c41-9d39-2f4a5a1f7c11"),
  (ReplayGuard.timestampMetaKey, timestamp)
]

def stampedParams (timestamp : Json) : Params :=
  mailParams ++ [("_meta", .obj (stampedFields timestamp))]

/-- A call that sends a mail with a timestamp, and its decision. -/
def stampedLive (timestamp : Json) : Program SharedCall SharedReply (Except Exn Outcome) :=
  (onGateway mailDeployment (Interceptor.settle (Interceptor.authorizeCall mailDeployment.runtime
    Interceptor.mailSession (.int 1) (some (stampedParams timestamp))))).run

/-- The explanation of the same call. -/
def stampedDry (timestamp : Json) : Program SharedCall SharedReply (Except Exn Explanation) :=
  (explainCall mailDeployment ⟨"agent", "mail", "send_mail"⟩ (.obj []) [("timestamp", timestamp)]
    Interceptor.openPolicy true).run

def stamped (timestamp : Json) : Comparison Unit where
  deployment := mailDeployment
  others := mailOthers
  around := { clock := 0, now := Risk.quiet 1 (.applied ()) .utcNow, down := fun _ => false }
  instant := 0
  world := mailWorld
  session := Interceptor.mailSession
  requestId := .int 1
  params := some (stampedParams timestamp)
  fields := stampedFields timestamp
  context := [("timestamp", timestamp)]
  tools := [[("name", .str "send_mail"), ("inputSchema", .obj [("type", .str "object")])]]
  liveEvents := ((stampedLive timestamp).play replyUp).1
  dryEvents := ((stampedDry timestamp).play replyUp).1
  ended := ((stampedLive timestamp).play replyUp).2
  explained := ((stampedDry timestamp).play replyUp).2

end Comparison

end DecisionExplainer

end SecureMcp
