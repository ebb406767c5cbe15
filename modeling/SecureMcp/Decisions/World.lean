import SecureMcp.Drift.Table
import SecureMcp.Interceptor.Authorize
import SecureMcp.Library.Handlers
import SecureMcp.Library.Store
import SecureMcp.Policy.Activations
import SecureMcp.Risk.Frequency

/-! The stores that live traffic and dry runs share, on one level: Redis, Postgres and the policy in
force, what they answer and what they are left with. The requests of a component are passed on to
them, and the ones to the risk engine are answered by the engine itself.
-/

namespace SecureMcp

open Interaction
open PolicyVersions (PolicyState VersionCall VersionReply)
open Risk (Redis RiskCall RiskReply)

/-- How a request to a store came out: what the asker is told, and whether it was carried out, which
an error leaves open.
-/
structure Done (α : Type) where
  reply : α
  taken : Bool

/-- A recorded decision as a simulation reads it, with its timestamp in seconds. -/
structure ReplayRow where
  row : AuditRow
  timestamp : FiniteFloat

inductive SharedCall
  | gateway (call : Call)
  | risk (call : RiskCall)
  | versions (call : VersionCall)
  | replayRows (start stop : Rat)

abbrev SharedReply : SharedCall → Type
  | .gateway call => Done (Reply call)
  | .risk call => RiskReply call
  | .versions call => VersionReply call
  | .replayRows _ _ => Except Exn (List ReplayRow)

abbrev SharedAsync (α : Type) : Type := Coroutine SharedCall SharedReply Exn α

/-- What a deployment of the gateway runs with. A date is parsed to the instant at which it begins.
-/
structure Deployment where
  runtime : Runtime
  risk : RiskSettings := {}
  stdlib : Stdlib
  reader : PolicyReader
  parseDate : String → Option Int
  schemaCacheTtl : ℕ+ := 600

-----------------------------------------------------------------------------------------
-- Passing requests on
-----------------------------------------------------------------------------------------

def passRisk (call : RiskCall) : Program SharedCall SharedReply (RiskReply call) :=
  .ask (.risk call) .done

def passVersions (call : VersionCall) : Program SharedCall SharedReply (VersionReply call) :=
  .ask (.versions call) .done

/-- The requests of the decision pipeline. The policy is the one in force; scores and denials are the
risk engine's.
-/
def passGateway (deployment : Deployment)
    : (call : Call) → Program SharedCall SharedReply (Reply call)
  | .engine => passVersions .engine
  | .score key arguments policy =>
      (Risk.score deployment.risk deployment.stdlib key arguments policy false).run.expand passRisk
  | .recordDenial identityId => (Risk.recordDenial deployment.risk identityId).run.expand passRisk
  | call => .ask (.gateway call) (fun outcome => .done outcome.reply)

def onRisk {α : Type} (body : Risk.RiskAsync α) : SharedAsync α :=
  ExceptT.mk (body.run.expand passRisk)

def onVersions {α : Type} (body : PolicyVersions.VersionAsync α) : SharedAsync α :=
  ExceptT.mk (body.run.expand passVersions)

def onGateway {α : Type} (deployment : Deployment) (body : Async α) : SharedAsync α :=
  ExceptT.mk (body.run.expand (passGateway deployment))

-----------------------------------------------------------------------------------------
-- The stores
-----------------------------------------------------------------------------------------

/-- What the stores hold. Schemas are cached until an instant, audit rows have the instant at which
they were written, and `rest` is what the nonces, challenges, approvals and pending requests are
kept in.
-/
structure World (ρ : Type) where
  redis : Redis
  cache : String → Option (List Tool × Rat)
  baselines : BaselineTable
  log : List (Rat × AuditEntry)
  policy : PolicyState
  rest : ρ

namespace World

variable {ρ : Type}

/-- The schemas of a server that have not expired. -/
def cached (world : World ρ) (serverId : String) (now : Rat) : Option (List Tool) :=
  (world.cache serverId).bind (fun entry => if now < entry.2 then some entry.1 else none)

/-- The drift events of a tool in the last seconds. -/
def recentDrift (world : World ρ) (serverId toolName : String) (seconds : Nat) (now : Rat) : Nat :=
  world.log.countP (fun row =>
    decide (now - seconds < row.1)
    && (row.2.eventType ∈ [EventType.driftLow, .driftMedium, .driftHigh, .driftCritical]
      && (row.2.serverId = some serverId && row.2.toolName = some toolName)))

/-- A request of the pipeline to the stores in `rest`. -/
def OfRest : Call → Bool
  | .setNonce _ _ | .redeemChallenge _ _ _ _ _ | .createChallenge _ _ _ | .redeemApproval _ _ _
  | .createApproval _ _ _ | .setPending _ _ | .popPending _ => true
  | _ => false

/-- What a request of the pipeline changes once it is carried out. -/
def carryOut (deployment : Deployment) (world : World ρ) (now : Rat) : Call → World ρ
  | .cacheSet serverId tools =>
      {
        world with
        cache := Function.update world.cache serverId
          (some (tools, now + (deployment.schemaCacheTtl : Nat)))
      }
  | .cacheDelete serverId => { world with cache := Function.update world.cache serverId none }
  | .commit changes =>
      { world with baselines := (world.baselines.applyChanges changes).getD world.baselines }
  | .write entry => { world with log := world.log ++ [(now, entry)] }
  | _ => world

/-- What an audit row of an activation adds to the log. -/
def logOf (now : Rat) : Event VersionReply → List (Rat × AuditEntry)
  | ⟨.write entry, .stored _⟩ | ⟨.write entry, .lost _⟩ => [(now, entry)]
  | _ => []

/-- What an exchange leaves. -/
def apply (deployment : Deployment) (others : Store ρ (fun call => Done (Reply call)))
    (world : World ρ) (now : Rat)
    : Event SharedReply → World ρ
  | ⟨.gateway call, outcome⟩ =>
      if OfRest call then { world with rest := others.apply world.rest now ⟨call, outcome⟩ }
      else if outcome.taken then world.carryOut deployment now call
      else world
  | ⟨.risk call, reply⟩ => { world with redis := world.redis.effect now call reply }
  | ⟨.versions call, reply⟩ =>
      {
        world with
        policy := world.policy.apply ⟨call, reply⟩
        log := world.log ++ logOf now ⟨call, reply⟩
      }
  | ⟨.replayRows _ _, _⟩ => world

/-- The answers to a request of the pipeline. What raised may have been carried out. -/
def AdmitsGateway (world : World ρ) (now : Rat) : (call : Call) → Done (Reply call) → Prop
  | .cacheGet serverId, outcome =>
      ∀ found, outcome.reply = .ok found → found = world.cached serverId now
  | .isBlocked serverId toolName, outcome =>
      ∀ blocked, outcome.reply = .ok blocked → blocked = world.baselines.blocked serverId toolName
  | .selectBaselines serverId, outcome =>
      ∀ rows, outcome.reply = .ok rows → world.baselines.Reads serverId rows
  | .selectBaseline serverId toolName, outcome =>
      ∀ row,
        outcome.reply = .ok row
        → Option.Rel ToolBaseline.ReadBack (world.baselines.row? serverId toolName) row
  | .commit changes, outcome =>
      (outcome.reply.isOk → outcome.taken)
      ∧ (outcome.taken → (world.baselines.applyChanges changes).isSome)
  | .write _, outcome => outcome.reply.isOk → outcome.taken
  | .cacheSet _ _, outcome => outcome.reply.isOk → outcome.taken
  | .cacheDelete _, outcome => outcome.reply.isOk → outcome.taken
  | _, _ => True

/-- The answers to a request of the risk engine. -/
def AdmitsRisk (world : World ρ) (now : Rat) : (call : RiskCall) → RiskReply call → Prop
  | .hasPendingDrift serverId toolName, reply =>
      ∀ pending,
        reply = .ok pending
        → pending = (world.baselines.row? serverId toolName).any (fun row => row.observedHash.isSome)
  | .recentDriftCount serverId toolName seconds, reply =>
      ∀ count : Int, reply = .ok count → count = world.recentDrift serverId toolName seconds now
  | .isSuspicious serverId toolName, reply =>
      ∀ suspicious,
        reply = .ok suspicious
        → suspicious = (world.baselines.row? serverId toolName).any ToolBaseline.suspicious
  | call, reply => world.redis.Answers now call reply

/-- The answers that the stores give. -/
def Admits (others : Store ρ (fun call => Done (Reply call))) (world : World ρ) (now : Rat)
    : Event SharedReply → Prop
  | ⟨.gateway call, outcome⟩ =>
      if OfRest call then others.Admits world.rest now ⟨call, outcome⟩
      else world.AdmitsGateway now call outcome
  | ⟨.risk call, reply⟩ => world.AdmitsRisk now call reply
  | ⟨.versions call, reply⟩ => world.policy.Allows ⟨call, reply⟩
  | ⟨.replayRows start stop, reply⟩ =>
      ∀ rows,
        reply = .ok rows
        → ∀ recorded ∈ rows, start ≤ recorded.timestamp.value ∧ recorded.timestamp.value < stop

/-- The shared stores. -/
def stores (deployment : Deployment) (others : Store ρ (fun call => Done (Reply call)))
    : Store (World ρ) SharedReply where
  Admits := Admits others
  apply := apply deployment others

end World

/-- A request that a dry run may make: it only reads. -/
def OnlyReads : SharedCall → Prop
  | .gateway (.isBlocked _ _) | .gateway (.cacheGet _) | .gateway .utcHour => True
  | .risk call => Risk.Reads call
  | .versions .engine | .versions (.readSnapshot _) | .versions (.getVersion _) => True
  | .replayRows _ _ => True
  | _ => False

/-- A request that only reads leaves every store as it is. -/
theorem OnlyReads.silent {ρ : Type} {deployment : Deployment}
    {others : Store ρ (fun call => Done (Reply call))} {event : Event SharedReply}
    (reads : OnlyReads event.call)
    : (World.stores deployment others).Silent event := by
  obtain ⟨call, reply⟩ := event
  intro world now
  cases call with
  | replayRows start stop => rfl
  | risk call =>
      cases call with
      | incr key | incrBy key amount | expire key seconds => exact reads.elim
      | _ => rfl
  | versions call =>
      cases call with
      | engine | readSnapshot version | getVersion version =>
          simp [World.stores, World.apply, World.logOf, PolicyState.apply]
      | _ => exact reads.elim
  | gateway call =>
      cases call with
      | isBlocked serverId toolName | cacheGet serverId | utcHour => exact ite_self _
      | _ => exact reads.elim

end SecureMcp
