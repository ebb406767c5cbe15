import SecureMcp.Decisions.Foresight
import SecureMcp.Risk.DryRun

/-! Explanations predict enforcement: a call that is made where it was explained is decided as it was
explained, whatever the stores hold and whichever requests to them fail.
-/

namespace SecureMcp

open Interaction
open Interceptor (NoScore ToolCall)
open Risk (Redis RiskCall RiskReply Surroundings)

/-- The circumstances that a live call shares with its explanation, beside what the stores hold: what
the clock shows, and which requests fail.
-/
structure Circumstances where
  clock : Int
  now : UtcTime
  down : SharedCall → Bool

namespace Circumstances

variable (around : Circumstances) (key : CallKey)

/-- An exchange in these circumstances. Counting a call fails where reading its count does. -/
def Holds : Event SharedReply → Prop
  | ⟨.gateway .utcHour, outcome⟩ => outcome.reply = around.clock
  | ⟨.gateway (.isBlocked serverId toolName), outcome⟩ =>
      outcome.reply.isOk = !around.down (.gateway (.isBlocked serverId toolName))
  | ⟨.gateway (.cacheGet _), outcome⟩ => outcome.reply.isOk
  | ⟨.risk .utcNow, now⟩ => now = around.now
  | ⟨.risk (.incr name), answer⟩ =>
      name = Risk.freqKey key → answer.outcome.isOk = !around.down (.risk (.get name))
  | ⟨.risk (.expire name _), answer⟩ => name = Risk.freqKey key → answer.outcome.isOk
  | ⟨.risk (.get name), reply⟩ => reply.isOk = !around.down (.risk (.get name))
  | ⟨.risk (.hasPendingDrift serverId toolName), reply⟩ =>
      reply.isOk = !around.down (.risk (.hasPendingDrift serverId toolName))
  | ⟨.risk (.recentDriftCount serverId toolName seconds), reply⟩ =>
      reply.isOk = !around.down (.risk (.recentDriftCount serverId toolName seconds))
  | ⟨.risk (.isSuspicious serverId toolName), reply⟩ =>
      reply.isOk = !around.down (.risk (.isSuspicious serverId toolName))
  | _ => True

/-- The requests that a score depends on. -/
def scoreReads (settings : RiskSettings) : List RiskCall := [
  .get (Risk.freqKey key),
  .hasPendingDrift key.serverId key.toolName,
  .get (Risk.denialKey key.identityId),
  .get Risk.authFailureKey,
  .recentDriftCount key.serverId key.toolName settings.riskDriftHistoryWindowSeconds,
  .isSuspicious key.serverId key.toolName,
  .get (Risk.decayKey key)
]

/-- A score cannot be computed. -/
def scoreFails (settings : RiskSettings) : Bool :=
  (scoreReads key settings).any (fun call => around.down (.risk call))

end Circumstances

namespace World

variable {ρ : Type}

/-- What the drift detector and the clock tell a scoring of a call. -/
def surroundings (world : World ρ) (settings : RiskSettings) (key : CallKey) (instant : Rat)
    (now : UtcTime)
    : Surroundings where
  now := now
  driftInReview :=
    (world.baselines.row? key.serverId key.toolName).any (fun row => row.observedHash.isSome)
  driftEventCount :=
    world.recentDrift key.serverId key.toolName settings.riskDriftHistoryWindowSeconds instant
  suspiciousBaseline :=
    (world.baselines.row? key.serverId key.toolName).any ToolBaseline.suspicious

/-- What a call is scored in a state: maximum risk where that cannot be computed. -/
def risk (deployment : Deployment) (around : Circumstances) (world : World ρ) (instant : Rat)
    (key : CallKey) (arguments : Json)
    : Int × List RiskFactor :=
  if around.scoreFails key deployment.risk then Interceptor.maximumRisk
  else
    Risk.scoreAt deployment.risk deployment.stdlib key arguments world.policy.engine.policy.risk
      world.redis instant (world.surroundings deployment.risk key instant around.now)

/-- What a call with a timestamp is decided from, given the cached tools of its server. -/
def facts (deployment : Deployment) (around : Circumstances) (world : World ρ) (instant : Rat)
    (key : CallKey) (arguments timestamp : Json) (tools : List Tool)
    : DecisionExplainer.Facts where
  engine := world.policy.engine
  hour :=
    if ReplayGuard.isTimestamp timestamp then (Interceptor.hourOf timestamp).toOption.getD 0
    else around.clock
  blocked :=
    around.down (.gateway (.isBlocked key.serverId key.toolName))
    || world.baselines.blocked key.serverId key.toolName
  risk := world.risk deployment around instant key arguments
  tools := tools

end World

-----------------------------------------------------------------------------------------
-- Scores over the shared stores
-----------------------------------------------------------------------------------------

section

variable {ρ : Type} {deployment : Deployment} {others : Store ρ (fun call => Done (Reply call))}
  {around : Circumstances} {key : CallKey} {instant : Rat} {world after : World ρ}
  {arguments : Json} {policy : RiskPolicy} {events : List (Event RiskReply)}

/-- A request to the risk engine's stores as one to the shared ones. -/
def ofRisk (event : Event RiskReply) : Event SharedReply :=
  ⟨.risk event.call, event.reply⟩

theorem expands_passRisk {inner : List (Event SharedReply)} (expands : Expands passRisk events inner)
    : inner = events.map ofRisk := by
  refine expands.eq_map (fun call reply first exec => ?_)
  obtain ⟨_, _, rfl, ended⟩ := Program.exec_ask_iff.mp exec
  obtain ⟨rfl, rfl⟩ := Program.exec_done_iff.mp ended
  rfl

/-- The shared stores answer the risk engine as Redis does, and with what the drift detector's table and
the log say, by induction on the requests.
-/
theorem served_ofRisk
    (served : Program.Served ((World.stores deployment others).Serves instant) world
      (events.map ofRisk) after)
    (holds : ∀ event ∈ events, around.Holds key (ofRisk event))
    : Program.Served (Redis.Serves instant) world.redis events after.redis
      ∧ after = { world with redis := after.redis }
      ∧ ∀ event ∈ events,
          (world.surroundings deployment.risk key instant around.now).Tells deployment.risk key
            event := by
  induction events generalizing world with
  | nil =>
      obtain rfl := Program.served_nil_iff.mp served
      exact ⟨.nil _, rfl, by simp⟩
  | cons event rest ih =>
      obtain ⟨middle, ⟨admits, rfl⟩, later⟩ := Program.served_cons_iff.mp served
      obtain ⟨tail, same, tells⟩ :=
        ih later (fun other member => holds other (List.mem_cons_of_mem _ member))
      have here := holds event List.mem_cons_self
      obtain ⟨call, reply⟩ := event
      have answers : world.redis.Answers instant call reply := by
        cases call <;> first | exact admits | trivial
      refine ⟨.cons ⟨answers, rfl⟩ tail, same, ?_⟩
      intro event member
      rcases List.mem_cons.mp member with rfl | later
      · cases call with
        | utcNow => exact here
        | hasPendingDrift serverId toolName | isSuspicious serverId toolName =>
            rintro rfl rfl
            exact admits
        | recentDriftCount serverId toolName seconds =>
            rintro rfl rfl rfl
            exact admits
        | _ => trivial
      · exact tells event later

/-- A request that fails where the circumstances say so. -/
def Shows (around : Circumstances) (key : CallKey) (_ : Unit) (event : Event RiskReply) (_ : Unit)
    : Prop :=
  around.Holds key (ofRisk event)

section

variable {start : Unit → Prop} {settings : RiskSettings}

/-- A request that fails where a read does that a score depends on. -/
theorem triple_read {α : Type} {call read : RiskCall} {answer : RiskReply call → Except Exn α}
    (listed : read ∈ Circumstances.scoreReads key settings)
    (shown : ∀ reply,
      around.Holds key (ofRisk ⟨call, reply⟩) → (answer reply).isOk = !around.down (.risk read))
    : Triple (Shows around key) start
        (fun _ state => around.down (.risk read) = false ∧ start state)
        (fun _ _ => around.scoreFails key settings) (Coroutine.demand call answer) := by
  refine .demand (fun state reply after first holds => ?_)
  have told := shown reply holds
  cases answered : answer reply with
  | ok value =>
      rw [answered] at told
      exact ⟨by simpa [Except.isOk, Except.toBool] using told.symm, first⟩
  | error exn =>
      rw [answered] at told
      have down : around.down (.risk read) = true := by
        simpa [Except.isOk, Except.toBool] using told.symm
      exact List.any_eq_true.mpr ⟨read, listed, down⟩

theorem triple_counter {name : String} (listed : .get name ∈ Circumstances.scoreReads key settings)
    : Triple (Shows around key) start
        (fun _ state => around.down (.risk (.get name)) = false ∧ start state)
        (fun _ _ => around.scoreFails key settings) (Risk.counter name) :=
  .bind (triple_read listed (fun _ holds => holds)) (fun _ => .pure (fun _ first => first))

/-- Counting a call fails where reading its count does. -/
theorem triple_callCount {dryRun : Bool}
    : Triple (Shows around key) start
        (fun _ state => around.down (.risk (.get (Risk.freqKey key))) = false ∧ start state)
        (fun _ _ => around.scoreFails key settings) (Risk.callCount settings key dryRun) := by
  have listed : .get (Risk.freqKey key) ∈ Circumstances.scoreReads key settings := by
    simp [Circumstances.scoreReads]
  cases dryRun with
  | true => exact .bind (triple_counter listed) (fun _ => .pure (fun _ first => first))
  | false =>
      refine .bind (triple_read listed (fun _ holds => holds rfl)) (fun count => ?_)
      split
      · refine .bind (.demand (fun state reply after first holds => ?_))
          (fun _ => .pure (fun _ first => first))
        have answered : (Answer.outcome reply).isOk := holds rfl
        cases outcome : Answer.outcome reply with
        | ok value => exact first
        | error exn =>
            rw [outcome] at answered
            cases answered
      · exact .pure (fun _ first => first)

/-- A score is computed exactly where none of its reads fails. -/
theorem triple_score {stdlib : Stdlib} {dryRun : Bool}
    : Triple (Shows around key) (fun _ => True)
        (fun _ _ => around.scoreFails key settings = false)
        (fun _ _ => around.scoreFails key settings = true)
        (Risk.score settings stdlib key arguments policy dryRun) := by
  have listed : ∀ read ∈ Circumstances.scoreReads key settings,
      read ∈ Circumstances.scoreReads key settings :=
    fun _ member => member
  simp only [Circumstances.scoreReads, List.forall_mem_cons] at listed
  obtain ⟨_, pending, denials, failures, drift, suspicious, decay, _⟩ := listed
  refine .bind triple_callCount (fun count => ?_)
  unfold Risk.gather
  simp only [bind_assoc, pure_bind]
  refine .bind (.ask RiskCall.utcNow (fun _ _ _ first _ => first)) (fun now => ?_)
  refine .bind (triple_read pending (fun _ holds => holds)) (fun _ => ?_)
  refine .bind (triple_counter denials) (fun _ => ?_)
  refine .bind (triple_counter failures) (fun _ => ?_)
  refine .bind (triple_read drift (fun _ holds => holds)) (fun _ => ?_)
  refine .bind (triple_read suspicious (fun _ holds => holds)) (fun _ => ?_)
  refine .bind (triple_read decay (fun _ holds => holds)) (fun _ => ?_)
  refine .pure ?_
  rintro _ ⟨seventh, sixth, fifth, fourth, third, second, first, _⟩
  simp [Circumstances.scoreFails, Circumstances.scoreReads, first, second, third, fourth, fifth, sixth,
    seventh]

/-- What the shared stores score a call, live or in a dry run: the score of the state, or maximum risk
where that cannot be computed.
-/
theorem risk_of_served {dryRun : Bool} {reply : Except Exn (Int × List RiskFactor)}
    (exec : (Risk.score deployment.risk deployment.stdlib key arguments
      world.policy.engine.policy.risk dryRun).run.Exec events reply)
    (served : Program.Served ((World.stores deployment others).Serves instant) world
      (events.map ofRisk) after)
    (holds : ∀ event ∈ events, around.Holds key (ofRisk event))
    : Interceptor.scoreOrMaximum reply = world.risk deployment around instant key arguments := by
  have failing := triple_score () events () reply trivial exec (Program.served_of_unchanged holds)
  obtain ⟨redis, _, tells⟩ := served_ofRisk served holds
  unfold World.risk
  cases reply with
  | ok result =>
      have computed : around.scoreFails key deployment.risk = false := failing
      rw [computed, if_neg Bool.false_ne_true]
      exact Risk.score_of_served exec redis tells
  | error exn =>
      have failed : around.scoreFails key deployment.risk = true := failing
      rw [failed, if_pos rfl]
      rfl

end

end

-----------------------------------------------------------------------------------------
-- A live call over the shared stores
-----------------------------------------------------------------------------------------

/-- The stores say of a call what they said at first. -/
structure Untouched {ρ : Type} (first : World ρ) (instant : Rat) (world : World ρ) : Prop where
  redis : world.redis = first.redis
  baselines : world.baselines = first.baselines
  cache : world.cache = first.cache
  policy : world.policy = first.policy
  drift : ∀ serverId toolName seconds,
    world.recentDrift serverId toolName seconds instant
      = first.recentDrift serverId toolName seconds instant

/-- What still stands of the stores in a phase of a decision. -/
def Stands {ρ : Type} (first : World ρ) (instant : Rat) (world : World ρ)
    : DecisionExplainer.Phase → Prop
  | .unmoved => Untouched first instant world
  | .counted => world.cache = first.cache ∧ world.policy = first.policy
  | .moved => world.policy = first.policy

section

variable {ρ : Type} {deployment : Deployment} {others : Store ρ (fun call => Done (Reply call))}
  {around : Circumstances} {instant : Rat} {first world after : World ρ}
  {phase : DecisionExplainer.Phase}

theorem Stands.policy (stands : Stands first instant world phase) : world.policy = first.policy := by
  cases phase with
  | unmoved => exact Untouched.policy stands
  | counted => exact stands.2
  | moved => exact stands

theorem Stands.risk (stands : Stands first instant world .unmoved) (key : CallKey) (arguments : Json)
    : world.risk deployment around instant key arguments
      = first.risk deployment around instant key arguments := by
  unfold World.risk World.surroundings
  rw [stands.redis, stands.baselines, Stands.policy stands, stands.drift]

theorem Stands.moved (stands : Stands first instant world phase)
    : Stands first instant world .moved :=
  stands.policy

theorem Stands.rest (stands : Stands first instant world phase) (rest : ρ)
    : Stands first instant { world with rest := rest } phase := by
  cases phase with
  | unmoved => exact ⟨stands.redis, stands.baselines, stands.cache, stands.policy, stands.drift⟩
  | counted => exact stands
  | moved => exact stands

/-- A row that is not of drift is none of a tool's drift events. -/
theorem Stands.write (stands : Stands first instant world phase) {entry : AuditEntry}
    (kind : entry.eventType = .policyError)
    : Stands first instant { world with log := world.log ++ [(instant, entry)] } phase := by
  cases phase with
  | unmoved =>
      refine ⟨stands.redis, stands.baselines, stands.cache, stands.policy, ?_⟩
      intro serverId toolName seconds
      rw [← stands.drift serverId toolName seconds]
      simp [World.recentDrift, List.countP_append, kind]
  | counted => exact stands
  | moved => exact stands

/-- Requests that are passed on move what stands as the phases say. -/
theorem Stands.apply (stands : Stands first instant world phase) {call : Call}
    (outcome : Done (Reply call))
    : Stands first instant (World.apply deployment others world instant ⟨.gateway call, outcome⟩)
        (phase.next call) := by
  have moves (asked : Call) (reply : Done (Reply asked)) (next : phase.next asked = .moved)
      (policy : (world.carryOut deployment instant asked).policy = world.policy)
      (taken : World.OfRest asked = false)
      : Stands first instant (World.apply deployment others world instant ⟨.gateway asked, reply⟩)
          (phase.next asked) := by
    rw [next]
    unfold World.apply
    simp only [taken, Bool.false_eq_true, if_false]
    split
    · exact policy.trans stands.policy
    · exact stands.moved
  cases call with
  | setNonce | redeemChallenge | createChallenge | redeemApproval | createApproval | setPending
  | popPending => cases phase <;> exact stands.rest _
  | cacheSet | cacheDelete | commit | recordDenial =>
      refine moves _ outcome ?_ rfl rfl
      cases phase <;> rfl
  | write entry =>
      by_cases kind : entry.eventType = .policyError
      · have next : phase.next (.write entry) = phase := by
          cases phase <;> exact if_pos kind
        rw [next]
        change Stands first instant (if outcome.taken then _ else world) phase
        split
        · exact stands.write kind
        · exact stands
      · refine moves _ outcome ?_ rfl rfl
        cases phase <;> exact if_neg kind
  | score key arguments policy =>
      have kept : World.apply deployment others world instant
          ⟨.gateway (.score key arguments policy), outcome⟩ = world :=
        ite_self world
      rw [kept]
      cases phase with
      | unmoved => exact ⟨stands.cache, stands.policy⟩
      | counted | moved => exact stands.policy
  | engine | time | utcHour | cacheGet | isBlocked | selectBaselines | selectBaseline | listTools =>
      have kept : World.apply deployment others world instant ⟨.gateway _, outcome⟩ = world :=
        ite_self world
      rw [kept]
      cases phase <;> exact stands

/-- A request that is passed on is one exchange. -/
theorem exec_passed {call : Call} {events : List (Event SharedReply)} {reply : Reply call}
    (exec : (Program.ask (.gateway call) (fun outcome => .done outcome.reply)
      : Program SharedCall SharedReply (Reply call)).Exec events reply)
    : ∃ outcome : Done (Reply call), events = [⟨.gateway call, outcome⟩] ∧ outcome.reply = reply := by
  obtain ⟨outcome, _, rfl, ended⟩ := Program.exec_ask_iff.mp exec
  obtain ⟨rfl, same⟩ := Program.exec_done_iff.mp ended
  exact ⟨outcome, rfl, same⟩

/-- A tool counts as blocked where its status cannot be looked up. -/
theorem facts_blocked_iff {key : CallKey} {arguments timestamp : Json} {tools : List Tool}
    {reply : Except Exn Bool}
    (told : ∀ blocked,
      reply = .ok blocked → blocked = world.baselines.blocked key.serverId key.toolName)
    (fails : reply.isOk = !around.down (.gateway (.isBlocked key.serverId key.toolName)))
    : reply = .ok false
      ↔ (world.facts deployment around instant key arguments timestamp tools).blocked = false := by
  simp only [World.facts, Bool.or_eq_false_iff]
  cases reply with
  | error exn =>
      have down : around.down (.gateway (.isBlocked key.serverId key.toolName)) = true := by
        simpa [Except.isOk, Except.toBool] using fails.symm
      simp [down]
  | ok blocked =>
      have up : around.down (.gateway (.isBlocked key.serverId key.toolName)) = false := by
        simpa [Except.isOk, Except.toBool] using fails.symm
      simp [up, told blocked rfl]

/-- What a request that is passed on is told of a call. -/
theorem tells_passed {call : ToolCall} {timestamp : Json} {tools : List Tool} {asked : Call}
    {outcome : Done (Reply asked)} (warm : first.cached call.key.serverId instant = some tools)
    (other : asked ≠ .engine) (unscored : NoScore asked)
    (stands : Stands first instant world phase)
    (holds : around.Holds call.key ⟨.gateway asked, outcome⟩)
    (admits : (World.stores deployment others).Admits world instant ⟨.gateway asked, outcome⟩)
    : (first.facts deployment around instant call.key call.arguments timestamp tools).Tells call
        around.clock phase ⟨asked, outcome.reply⟩ := by
  cases asked with
  | engine => exact absurd rfl other
  | score => exact unscored.elim
  | utcHour => cases phase <;> exact holds
  | isBlocked serverId toolName =>
      cases phase with
      | counted | moved => trivial
      | unmoved =>
          rintro rfl rfl
          have found : outcome.reply = .ok false
              ↔ (world.facts deployment around instant call.key call.arguments timestamp tools).blocked
                = false :=
            facts_blocked_iff admits holds
          simpa only [World.facts, stands.baselines] using found
  | cacheGet serverId =>
      have told (same : world.cache = first.cache)
          : serverId = call.key.serverId → outcome.reply = .ok (some tools) := by
        rintro rfl
        have answered : outcome.reply.isOk := holds
        cases reply : outcome.reply with
        | error exn =>
            rw [reply] at answered
            cases answered
        | ok found =>
            have cached : found = world.cached call.key.serverId instant := admits found reply
            rw [cached, ← warm, World.cached, same]
            rfl
      cases phase with
      | unmoved => exact told stands.cache
      | counted => exact told stands.1
      | moved => trivial
  | _ => cases phase <;> trivial

/-- A live call that the shared stores answer is decided from the facts of the state that it finds. -/
theorem simulates_facts {call : ToolCall} {timestamp : Json} {tools : List Tool}
    (warm : first.cached call.key.serverId instant = some tools)
    : Simulates (passGateway deployment) (around.Holds call.key)
        ((World.stores deployment others).Serves instant)
        ((first.facts deployment around instant call.key call.arguments timestamp tools).Serves call
          around.clock)
        (Stands first instant) := by
  intro asked reply events below phase after exec holds served stands
  have passes (other : asked ≠ .engine) (unscored : NoScore asked)
      (passed : passGateway deployment asked
        = .ask (.gateway asked) (fun outcome => .done outcome.reply))
      : ∃ next, (first.facts deployment around instant call.key call.arguments timestamp tools).Serves
          call around.clock phase ⟨asked, reply⟩ next ∧ Stands first instant after next := by
    rw [passed] at exec
    obtain ⟨outcome, rfl, rfl⟩ := exec_passed exec
    obtain ⟨middle, ⟨admits, rfl⟩, last⟩ := Program.served_cons_iff.mp served
    obtain rfl := Program.served_nil_iff.mp last
    exact ⟨_, ⟨tells_passed warm other unscored stands (holds _ List.mem_cons_self) admits, rfl⟩,
      stands.apply outcome⟩
  cases asked with
  | engine =>
      obtain ⟨engine, _, rfl, ended⟩ := Program.exec_ask_iff.mp exec
      obtain ⟨rfl, rfl⟩ := Program.exec_done_iff.mp ended
      obtain ⟨middle, ⟨admits, rfl⟩, last⟩ := Program.served_cons_iff.mp served
      obtain rfl := Program.served_nil_iff.mp last
      refine ⟨phase, ⟨?_, by cases phase <;> rfl⟩, ?_⟩
      · have read : engine = first.policy.engine := by
          rw [← stands.policy]
          exact admits
        cases phase <;> exact read
      · have kept : (World.stores deployment others).apply below instant ⟨.versions .engine, engine⟩
            = below := by
          simp [World.stores, World.apply, World.logOf, PolicyVersions.PolicyState.apply]
        rw [kept]
        exact stands
  | score key arguments policy =>
      obtain ⟨asked, ran, expands⟩ := Program.exec_expand_iff.mp exec
      obtain rfl := expands_passRisk expands
      have within : ∀ event ∈ asked, around.Holds call.key (ofRisk event) :=
        fun event member => holds _ (List.mem_map_of_mem member)
      obtain ⟨_, left, _⟩ := served_ofRisk served within
      cases phase with
      | unmoved =>
          refine ⟨.counted, ⟨?_, rfl⟩, ?_⟩
          · rintro rfl rfl rfl
            have live : (Risk.score deployment.risk deployment.stdlib call.key call.arguments
                below.policy.engine.policy.risk false).run.Exec asked reply := by
              rw [stands.policy]
              exact ran
            rw [World.facts, ← stands.risk]
            exact risk_of_served live served within
          · rw [left]
            exact ⟨stands.cache, stands.policy⟩
      | counted | moved =>
          refine ⟨.moved, ⟨trivial, rfl⟩, ?_⟩
          rw [left]
          exact stands.policy
  | recordDenial identityId =>
      obtain ⟨asked, _, expands⟩ := Program.exec_expand_iff.mp exec
      obtain rfl := expands_passRisk expands
      have within : ∀ event ∈ asked, around.Holds call.key (ofRisk event) :=
        fun event member => holds _ (List.mem_map_of_mem member)
      obtain ⟨_, left, _⟩ := served_ofRisk served within
      refine ⟨.moved, ⟨by cases phase <;> trivial, by cases phase <;> rfl⟩, ?_⟩
      rw [left]
      exact stands.policy
  | _ => exact passes (by simp) trivial rfl

end

-----------------------------------------------------------------------------------------
-- A dry run over the shared stores
-----------------------------------------------------------------------------------------

namespace DecisionExplainer

open Interceptor (inputSchemaIn scoreOrMaximum)
open ExplainCall

/-- One answer of the shared stores in some circumstances. -/
def Shared {ρ : Type} (deployment : Deployment) (others : Store ρ (fun call => Done (Reply call)))
    (around : Circumstances) (key : CallKey) (instant : Rat) (world : World ρ)
    (event : Event SharedReply) (after : World ρ)
    : Prop :=
  (World.stores deployment others).Serves instant world event after ∧ around.Holds key event

section

variable {ρ : Type} {deployment : Deployment} {others : Store ρ (fun call => Done (Reply call))}
  {around : Circumstances} {instant : Rat} {world : World ρ} {key : CallKey}
  {arguments timestamp : Json} {tools : List Tool} {context : List (String × Json)}
  {stops : Exn → World ρ → Prop} {conditions : List Abac.Condition} {attrs : Abac.Attributes}

/-- A request of a dry run is told what the stores hold, and leaves them. -/
theorem triple_passed {α : Type} {call : Call} {answer : Reply call → Except Exn α}
    {returns : Except Exn α → Prop}
    (reads : OnlyReads (.gateway call))
    (passed : passGateway deployment call
      = .ask (.gateway call) (fun outcome => .done outcome.reply))
    (told : ∀ outcome : Done (Reply call),
      (World.stores deployment others).Admits world instant ⟨.gateway call, outcome⟩
      → around.Holds key ⟨.gateway call, outcome⟩
      → returns (answer outcome.reply))
    : Triple (Shared deployment others around key instant) (· = world)
        (fun found after => returns found ∧ after = world) stops
        (Coroutine.attempt (onGateway deployment (Coroutine.demand call answer))) := by
  intro state events after outcome same exec served
  subst same
  obtain ⟨first, rest, found, rfl, asking, ended⟩ := Program.exec_bind_iff.mp exec
  obtain ⟨rfl, rfl⟩ := Program.exec_done_iff.mp ended
  obtain ⟨asked, ran, expands⟩ := Program.exec_expand_iff.mp asking
  obtain ⟨reply, rfl, rfl⟩ := Coroutine.exec_demand_iff.mp ran
  cases expands with
  | cons handled none =>
      cases none
      rw [passed] at handled
      obtain ⟨reached, rfl, rfl⟩ := exec_passed handled
      obtain ⟨middle, ⟨⟨admits, rfl⟩, holds⟩, last⟩ := Program.served_cons_iff.mp served
      obtain rfl := Program.served_nil_iff.mp last
      exact ⟨told reached admits holds, OnlyReads.silent reads _ _⟩

/-- A dry run is scored as the state says, and leaves it. -/
theorem triple_dryScore
    : Triple (Shared deployment others around key instant) (· = world)
        (fun scored after =>
          scoreOrMaximum scored = world.risk deployment around instant key arguments
          ∧ after = world)
        stops
        (Coroutine.attempt (onRisk (Risk.score deployment.risk deployment.stdlib key arguments
          world.policy.engine.policy.risk true))) := by
  intro state events after outcome same exec served
  subst same
  obtain ⟨first, rest, found, rfl, asking, ended⟩ := Program.exec_bind_iff.mp exec
  obtain ⟨rfl, rfl⟩ := Program.exec_done_iff.mp ended
  obtain ⟨asked, ran, expands⟩ := Program.exec_expand_iff.mp asking
  obtain rfl := expands_passRisk expands
  rw [List.append_nil] at served
  obtain ⟨serving, holds⟩ := Program.served_and_iff.mp served
  have within : ∀ event ∈ asked, around.Holds key (ofRisk event) :=
    fun event member => holds _ (List.mem_map_of_mem member)
  obtain ⟨redis, left, _⟩ := served_ofRisk serving within
  have kept := Risk.served_of_reads (ran.asks asks_score) redis
  refine ⟨risk_of_served ran serving within, ?_⟩
  rw [left, kept]

variable {facts : Facts}
  (same : world.facts deployment around instant key arguments timestamp tools = facts)

include same

/-- The hour of an explanation is that of the call. -/
theorem triple_contextHour (hourless : ∀ hour, Json.getKey context "hour" ≠ .int hour)
    (stamped : Json.getKey context "timestamp" = timestamp)
    : Triple (Shared deployment others around key instant) (· = world)
        (fun hour after => (hour = facts.hour ∧ ¬ Hourless timestamp) ∧ after = world)
        (fun _ _ => Hourless timestamp) (contextHour deployment context) := by
  subst same
  unfold contextHour
  split
  · next hour found => exact absurd found (hourless hour)
  · rw [stamped]
    dsimp only
    split
    · next numeric =>
        refine .ofExcept (fun state same => ?_)
        cases computed : Interceptor.hourOf timestamp with
        | error exn =>
            refine ⟨numeric, ?_⟩
            rw [computed]
            rfl
        | ok hour =>
            refine ⟨⟨by simp [World.facts, numeric, computed, Except.toOption], ?_⟩, same⟩
            rintro ⟨_, fails⟩
            rw [computed] at fails
            cases fails
    · next other =>
        intro state events after outcome same exec served
        subst same
        obtain ⟨asked, ran, expands⟩ := Program.exec_expand_iff.mp exec
        obtain ⟨hour, rest, rfl, ended⟩ := Program.exec_ask_iff.mp ran
        obtain ⟨rfl, rfl⟩ := Program.exec_done_iff.mp ended
        cases expands with
        | cons handled none =>
            cases none
            obtain ⟨reached, rfl, rfl⟩ := exec_passed handled
            obtain ⟨middle, ⟨⟨_, rfl⟩, holds⟩, last⟩ := Program.served_cons_iff.mp served
            obtain rfl := Program.served_nil_iff.mp last
            have silent : OnlyReads (.gateway .utcHour) := trivial
            have shown : reached.reply = around.clock := holds
            refine ⟨⟨?_, fun hourless => other hourless.1⟩, OnlyReads.silent silent _ _⟩
            simpa [World.facts, other] using shown

/-- The drift status of an explanation is that of the call. -/
theorem triple_isBlocked
    : Triple (Shared deployment others around key instant) (· = world)
        (fun blocked after => (blocked = .ok false ↔ facts.blocked = false) ∧ after = world) stops
        (Coroutine.attempt (onGateway deployment
          (DriftDetector.isBlocked key.serverId key.toolName))) := by
  subst same
  exact triple_passed trivial rfl (fun outcome admits holds => facts_blocked_iff admits holds)

/-- The arguments of an explanation are validated under the schema of the call. -/
theorem triple_explainValidation (warm : world.cached key.serverId instant = some tools)
    (holds : failedCondition (Dict.set "risk.score" (.int facts.risk.1) attrs)
      (conditions.filter Abac.Condition.referencesRisk) = none)
    (undecided : bandDecision facts.engine key facts.risk = none)
    : Triple (Shared deployment others around key instant) (· = world)
        (fun explanation _ =>
          explanationOfScore deployment.runtime key arguments facts conditions attrs
          = .ok explanation)
        (fun _ _ =>
          (explanationOfScore deployment.runtime key arguments facts conditions attrs).isOk = false)
        (explainValidation deployment key arguments facts.engine facts.risk) := by
  have listed : facts.tools = tools := by
    subst same
    rfl
  unfold explanationOfScore
  simp only [holds, undecided, listed]
  have looks {ends : Exn → World ρ → Prop}
      : Triple (Shared deployment others around key instant) (· = world)
          (fun cached after => cached = .ok (some tools) ∧ after = world) ends
          (Coroutine.attempt (onGateway deployment (SchemaCache.get key.serverId))
            : SharedAsync (Except Exn (Option (List Tool)))) := by
    refine triple_passed trivial rfl (fun outcome admits answered => ?_)
    cases found : outcome.reply with
    | error exn =>
        have impossible : outcome.reply.isOk := answered
        rw [found] at impossible
        cases impossible
    | ok cached =>
        have told : cached = world.cached key.serverId instant := admits cached found
        rw [told, warm]
        rfl
  refine .bind looks (fun cached => .assuming ?_)
  rintro rfl
  have present
      : (Except.ok (some tools) : Except Exn (Option (List Tool))).toOption.join = some tools :=
    rfl
  rw [present]
  dsimp only
  by_cases absent : inputSchemaIn key.toolName tools = .null
  · rw [if_pos absent, if_pos absent]
    exact .pure (fun _ _ => rfl)
  · rw [if_neg absent, if_neg absent]
    have checked : Triple (Shared deployment others around key instant) (· = world)
        (fun verdict _ =>
          ParamValidator.validate deployment.runtime arguments (inputSchemaIn key.toolName tools)
            = .ok verdict
          ∧ True)
        (fun exn _ =>
          ParamValidator.validate deployment.runtime arguments (inputSchemaIn key.toolName tools)
          = .error exn)
        (Coroutine.ofExcept (ParamValidator.validate deployment.runtime arguments
          (inputSchemaIn key.toolName tools))) := by
      refine .ofExcept (fun _ _ => ?_)
      cases ParamValidator.validate deployment.runtime arguments (inputSchemaIn key.toolName tools) with
      | ok verdict => exact ⟨rfl, trivial⟩
      | error exn => rfl
    refine .bind (checked.weaken (fun _ first => first) (fun _ _ returned => returned)
      (fun exn _ raised => ?_)) (fun verdict => .assuming (fun valid => ?_))
    · rw [raised]
      rfl
    · rw [valid]
      cases verdict <;> exact .pure (fun _ _ => rfl)

/-- The explanation of a call that got as far as its score. -/
theorem triple_explainRisk (warm : world.cached key.serverId instant = some tools)
    : Triple (Shared deployment others around key instant) (· = world)
        (fun explanation _ =>
          explanationOfScore deployment.runtime key arguments facts conditions attrs
          = .ok explanation)
        (fun _ _ =>
          (explanationOfScore deployment.runtime key arguments facts conditions attrs).isOk = false)
        (explainRisk deployment key arguments facts.engine conditions attrs true) := by
  have engine : facts.engine = world.policy.engine := by
    subst same
    rfl
  have risk : facts.risk = world.risk deployment around instant key arguments := by
    subst same
    rfl
  unfold explainRisk
  rw [engine]
  refine .bind triple_dryScore (fun scored => .assuming (fun scoring => ?_))
  rw [← risk] at scoring
  simp only [scoring]
  cases failing : failedCondition (Dict.set "risk.score" (.int facts.risk.1) attrs)
      (conditions.filter Abac.Condition.referencesRisk) with
  | some failed =>
      refine .pure (fun _ _ => ?_)
      unfold explanationOfScore
      simp only [failing, engine]
  | none =>
      dsimp only
      rw [← engine]
      cases banded : bandDecision facts.engine key facts.risk with
      | some decision =>
          refine .pure (fun _ _ => ?_)
          unfold explanationOfScore
          simp only [failing, banded]
      | none => exact triple_explainValidation same warm failing banded

/-- A dry run explains a call from the facts of the state that it finds. It raises where the hour of a
call that is granted cannot be computed, or where the facts have no explanation.
-/
theorem triple_explainCall (warm : world.cached key.serverId instant = some tools)
    (hourless : ∀ hour, Json.getKey context "hour" ≠ .int hour)
    (stamped : Json.getKey context "timestamp" = timestamp)
    : Triple (Shared deployment others around key instant) (· = world)
        (fun explanation _ =>
          explanationOf deployment.runtime key arguments facts = .ok explanation
          ∧ (Granted facts.engine key → ¬ Hourless timestamp))
        (fun _ _ =>
          Granted facts.engine key
          ∧ (Hourless timestamp
            ∨ (explanationOf deployment.runtime key arguments facts).isOk = false))
        (explainCall deployment key arguments context facts.engine true) := by
  unfold explainCall Granted
  cases found : facts.engine.matchingGrant key.identityId key.serverId key.toolName with
  | none =>
      refine .pure (fun _ _ => ⟨?_, nofun⟩)
      unfold explanationOf
      simp only [found]
  | some grant =>
      refine .bind ((triple_contextHour same hourless stamped).weaken (fun _ first => first)
        (fun _ _ returned => returned) (fun _ _ raised => ⟨rfl, .inl raised⟩))
        (fun hour => .assuming ?_)
      rintro ⟨rfl, hourful⟩
      cases failing : failedCondition (callAttributes facts.engine key facts.hour)
          (grant.conditions.filter (fun condition => !condition.referencesRisk)) with
      | some failed =>
          simp only [failing]
          refine .pure (fun _ _ => ⟨?_, fun _ => hourful⟩)
          unfold explanationOf
          simp only [found, failing]
      | none =>
          simp only [failing]
          refine .bind (triple_isBlocked same) (fun blocked => .assuming (fun tells => ?_))
          have explains (unblocked : facts.blocked = false)
              : explanationOf deployment.runtime key arguments facts
                = explanationOfScore deployment.runtime key arguments facts grant.conditions
                    (callAttributes facts.engine key facts.hour) := by
            unfold explanationOf
            simp only [found, failing, unblocked, Bool.false_eq_true, if_false]
          split
          · rw [explains (tells.mp rfl)]
            exact (triple_explainRisk same warm).weaken (fun _ first => first)
              (fun _ _ returned => ⟨returned, fun _ => hourful⟩)
              (fun _ _ raised => ⟨rfl, .inr raised⟩)
          · next other =>
              have counted : facts.blocked = true := by
                cases value : facts.blocked with
                | true => rfl
                | false => exact absurd (tells.mpr value) other
              refine .pure (fun _ _ => ⟨?_, fun _ => hourful⟩)
              unfold explanationOf
              simp only [found, failing, counted, if_true]

end

end DecisionExplainer

-----------------------------------------------------------------------------------------
-- Prediction
-----------------------------------------------------------------------------------------

namespace DecisionExplainer

open Interceptor (Outcome Params Session)

/-- (Hypothetical params fields context) means that a request with the given `_meta` redeems nothing,
and that the context of a hypothetical call has its timestamp and no hour of its own.
-/
structure Hypothetical (params : Option Params) (fields : Params) (context : List (String × Json))
    : Prop where
  metadata : (Json.getKey (params.getD []) "_meta").orEmpty = .obj fields
  unchallenged : Json.getKey fields Interceptor.challengeIdMetaKey = .null
  unapproved : Json.getKey fields Interceptor.approvalMetaKey = .null
  hourless : ∀ hour, Json.getKey context "hour" ≠ .int hour
  stamped : Json.getKey context "timestamp" = Json.getKey fields ReplayGuard.timestampMetaKey

/-- A call that is forwarded was explained as allowed, and one that is answered as its answer says. -/
def Predicts (explained : Decision) : Outcome → Prop
  | .forward _ => explained.eventType = .allow
  | .respond response => Foretells explained response

section

variable {ρ : Type} {deployment : Deployment} {others : Store ρ (fun call => Done (Reply call))}
  {around : Circumstances} {instant : Rat} {world liveAfter dryAfter : World ρ} {session : Session}
  {requestId : RequestId} {params : Option Params} {fields : Params}
  {context : List (String × Json)} {tools : List Tool} {liveEvents dryEvents : List (Event SharedReply)}
  {outcome : Outcome} {explanation : Explanation}

/-- What a live call comes to, by the explanation of the facts of the state that it finds. -/
theorem leaves_of_live {ended : Except Exn Outcome} {early : Interceptor.Stop → Prop}
    {facts : Facts} {storing raises : Prop} {lets : Event Reply → Prop}
    (hypothetical : Hypothetical params fields context)
    (warm : world.cached session.serverId instant = some tools)
    (same : world.facts deployment around instant
        (Interceptor.toolCallOf session requestId (params.getD [])).key
        (Interceptor.toolCallOf session requestId (params.getD [])).arguments
        (Json.getKey fields ReplayGuard.timestampMetaKey) tools
      = facts)
    (checks : Triple
      (fun before event after =>
        facts.Serves (Interceptor.toolCallOf session requestId (params.getD [])) around.clock before
          event after
        ∧ lets event)
      (· = .unmoved) (fun _ after => after = .unmoved) (fun stop _ => early stop)
      (Interceptor.replayStage deployment.runtime
        (Interceptor.toolCallOf session requestId (params.getD []))
        ((facts.engine.identity session.identityId).any (fun record => record.authMode = .signed))
        (.obj fields)))
    (unstamped : ∀ grant,
      facts.engine.matchingGrant session.identityId session.serverId
        (Interceptor.toolCallOf session requestId (params.getD [])).key.toolName = some grant
      → grant.conditions ≠ []
      → Hourless (Json.getKey fields ReplayGuard.timestampMetaKey)
      → raises)
    (live : (onGateway deployment (Interceptor.settle
      (Interceptor.authorizeCall deployment.runtime session requestId params))).run.Exec liveEvents
        ended)
    (served : Program.Served ((World.stores deployment others).Serves instant) world liveEvents
      liveAfter)
    (holds : ∀ event ∈ liveEvents,
      around.Holds (Interceptor.toolCallOf session requestId (params.getD [])).key event)
    (passing : ∀ asked,
      Expands (passGateway deployment) asked liveEvents
      → ∀ event ∈ asked, lets event)
    (stored : ∀ event, lets event → storing → ¬ Fails event)
    : ∃ decided after,
        ended = Interceptor.settled decided
        ∧ Leaves
            (fun _ (_ : Phase) => ∃ decision,
              (explanationOf deployment.runtime
                (Interceptor.toolCallOf session requestId (params.getD [])).key
                (Interceptor.toolCallOf session requestId (params.getD [])).arguments
                facts).toOption.map Explanation.decision
              = some decision
              ∧ decision.eventType = .allow
              ∧ decision.decision = .allow)
            (fun stop _ => early stop
              ∨ Foreseen facts (Interceptor.toolCallOf session requestId (params.getD [])) storing
                  raises
                  ((explanationOf deployment.runtime
                    (Interceptor.toolCallOf session requestId (params.getD [])).key
                    (Interceptor.toolCallOf session requestId (params.getD [])).arguments
                    facts).toOption.map Explanation.decision)
                  stop)
            after decided := by
  subst same
  obtain ⟨asked, ran, expands⟩ := Program.exec_expand_iff.mp live
  obtain ⟨decided, exec, settled⟩ := Interceptor.exec_settle_iff.mp ran
  have fresh : Stands world instant world .unmoved := ⟨rfl, rfl, rfl, rfl, fun _ _ _ => rfl⟩
  obtain ⟨phase, simulated, _⟩ := expands.simulated (simulates_facts warm) holds served fresh
  refine ⟨decided, phase, settled, ?_⟩
  refine triple_authorizeCall
    ⟨fun _ _ _ serving => serving.1, fun _ event _ serving => stored event serving.2⟩ checks rfl
    hypothetical.metadata hypothetical.unchallenged hypothetical.unapproved
    ⟨fun numeric hour computed => ?_, fun other => ?_⟩ unstamped .unmoved asked phase decided rfl exec
    (Program.served_and_iff.mpr ⟨simulated, passing asked expands⟩)
  · simp [World.facts, numeric, computed, Except.toOption]
  · simp [World.facts, other]

/-- An explanation predicts enforcement: in every state of the stores with the schemas of the server in
the cache, and whichever requests fail, a call that redeems nothing and is no replay is forwarded only
if a dry run in that state explains it as allowed, and what its client is sent is the decision that the
dry run explains.
-/
theorem explanation_predicts_decision (hypothetical : Hypothetical params fields context)
    (warm : world.cached session.serverId instant = some tools)
    (live : (onGateway deployment (Interceptor.settle
      (Interceptor.authorizeCall deployment.runtime session requestId params))).run.Exec liveEvents
        (.ok outcome))
    (liveServed : Program.Served ((World.stores deployment others).Serves instant) world liveEvents
      liveAfter)
    (dry : (explainCall deployment (Interceptor.toolCallOf session requestId (params.getD [])).key
      (Interceptor.toolCallOf session requestId (params.getD [])).arguments context
      world.policy.engine true).run.Exec dryEvents (.ok explanation))
    (dryServed : Program.Served ((World.stores deployment others).Serves instant) world dryEvents
      dryAfter)
    (holds : ∀ event ∈ liveEvents ++ dryEvents,
      around.Holds (Interceptor.toolCallOf session requestId (params.getD [])).key event)
    : Predicts explanation.decision outcome := by
  obtain ⟨explained, _⟩ := triple_explainCall rfl warm hypothetical.hourless hypothetical.stamped
    world dryEvents dryAfter (.ok explanation) rfl dry (Program.served_and_iff.mpr
      ⟨dryServed, fun event member => holds event (List.mem_append_right _ member)⟩)
  obtain ⟨ended, after, settled, leaves⟩ := leaves_of_live hypothetical warm rfl
    ((triple_replayStage _ _).narrow (fun _ _ _ (serving : _ ∧ True) => serving.1))
    (fun _ _ _ _ => True.intro) live liveServed
    (fun event member => holds event (List.mem_append_left _ member)) (fun _ _ _ _ => True.intro)
    (fun _ _ (impossible : False) => impossible.elim)
  rw [explained] at leaves
  rcases ended with (response | exn) | message
  · cases settled
    rcases leaves with replayed | ⟨_, ⟨⟩, sends⟩
    · exact replayed.foretells
    · exact sends.foretells
  · cases settled
  · cases settled
    obtain ⟨_, ⟨⟩, allowed, _⟩ := leaves
    exact allowed

end

/-- A deployment with no libraries of its own. -/
def mailDeployment : Deployment where
  runtime := DriftDetector.calm
  risk := Risk.onceAMinute
  stdlib := { repr := id, fnmatch := fun _ _ => false }
  reader := { parse := fun _ => .error .valueError, environ := fun _ => none }
  parseDate _ := none
  schemaCacheTtl := 1

/-- Stores that hold the policy in force and the schemas of one server. -/
def mailWorld : World Unit where
  redis _ := none
  cache _ := some ([[("name", .str "send_mail"), ("inputSchema", .obj [("type", .str "object")])]], 600)
  baselines := []
  log := []
  policy := {
    engine := Interceptor.openPolicy
    versions := fun _ => none
    snapshots := fun _ => none
    activations := []
  }
  rest := ()

/-- Stores that keep nothing and answer anything. -/
def mailOthers : Store Unit (fun call => Done (Reply call)) where
  Admits _ _ _ := True
  apply state _ _ := state

/-- Redis is down. -/
def redisDown : Circumstances where
  clock := 0
  now := Risk.quiet 1 (.applied ()) .utcNow
  down
    | .risk (.get _) => true
    | _ => false

/-- The replies of the stores while Redis is down. -/
def replyDown : (call : SharedCall) → SharedReply call
  | .gateway call => ⟨Interceptor.permitted call, true⟩
  | .risk (.incr _) | .risk (.incrBy _ _) | .risk (.expire _ _) => .refused .unavailable
  | .risk (.get _) => .error .unavailable
  | .risk call => Risk.quiet 1 (.applied ()) call
  | .versions .engine => Interceptor.openPolicy
  | .versions (.swap _) => ()
  | .versions .readPolicyFile | .versions (.readSnapshot _) | .versions (.getVersion _)
  | .versions .maxVersion | .versions .countFailure => .error .unavailable
  | .versions (.writeSnapshot _ _) => .error none
  | .versions (.addVersion _) | .versions (.refreshVersion _ _) | .versions (.write _) =>
      .failed .unavailable
  | .replayRows _ _ => .ok []

/-- The parameters of a call that sends a mail. -/
def mailParams : Params :=
  [("name", .str "send_mail"), ("arguments", .obj [])]

/-- The decision of a call that sends a mail. -/
def mailLive : Program SharedCall SharedReply (Except Exn Outcome) :=
  (onGateway mailDeployment (Interceptor.settle (Interceptor.authorizeCall mailDeployment.runtime
    Interceptor.mailSession (.int 1) (some mailParams)))).run

/-- The explanation of the same call. -/
def mailDry : Program SharedCall SharedReply (Except Exn Explanation) :=
  (explainCall mailDeployment ⟨"agent", "mail", "send_mail"⟩ (.obj []) [] Interceptor.openPolicy
    true).run

/-- Witness: while Redis is down, a call is denied as one of maximum risk, and explained so. -/
theorem unscored_call_predicted
    : ∃ response explanation,
        (mailLive.play replyDown).2 = .ok (.respond response)
        ∧ (mailDry.play replyDown).2 = .ok explanation
        ∧ explanation.decision.eventType = .denyRisk
        ∧ Predicts explanation.decision (.respond response) := by
  have hypothetical : Hypothetical (some mailParams) [] [] :=
    ⟨rfl, rfl, rfl, by simp [Json.getKey], rfl⟩
  have live : ∃ after, Program.Served ((World.stores mailDeployment mailOthers).Serves 0) mailWorld
      (mailLive.play replyDown).1 after := by
    refine ⟨_, .cons ⟨rfl, rfl⟩ (.cons ⟨rfl, rfl⟩ (.cons ⟨?blocked, rfl⟩ (.cons ⟨rfl, rfl⟩
      (.cons ⟨?counted, rfl⟩ (.cons ⟨trivial, rfl⟩ (.cons ⟨?denied, rfl⟩ (.cons ⟨rfl, rfl⟩
        (.cons ⟨fun _ => rfl, rfl⟩ (.nil _)))))))))⟩
    case blocked =>
      rintro _ ⟨⟩
      rfl
    all_goals
      intro value impossible
      cases impossible
  have dry : Program.Served ((World.stores mailDeployment mailOthers).Serves 0) mailWorld
      (mailDry.play replyDown).1 mailWorld := by
    refine .cons ⟨trivial, rfl⟩ (.cons ⟨?_, rfl⟩ (.cons ⟨?_, rfl⟩ (.nil _)))
    · rintro _ ⟨⟩
      rfl
    · intro value impossible
      cases impossible
  have holds : ∀ event ∈ (mailLive.play replyDown).1 ++ (mailDry.play replyDown).1,
      redisDown.Holds ⟨"agent", "mail", "send_mail"⟩ event := by
    have unaffected : Risk.denialKey "agent" ≠ Risk.freqKey ⟨"agent", "mail", "send_mail"⟩ :=
      (Risk.freqKey_ne_denialKey _).symm
    refine List.forall_mem_append.mpr ⟨?_, ?_⟩
    · change ∀ event ∈ ([_, _, _, _, _, _, _, _, _] : List (Event SharedReply)), _
      simp only [List.forall_mem_cons]
      exact ⟨trivial, trivial, rfl, trivial, fun _ => rfl, trivial, fun same => absurd same unaffected,
        trivial, trivial, by simp⟩
    · change ∀ event ∈ ([_, _, _] : List (Event SharedReply)), _
      simp only [List.forall_mem_cons]
      exact ⟨rfl, rfl, rfl, by simp⟩
  obtain ⟨after, live⟩ := live
  refine ⟨_, _, rfl, rfl, rfl, ?_⟩
  exact explanation_predicts_decision hypothetical rfl (Program.exec_play replyDown mailLive) live
    (Program.exec_play replyDown mailDry) dry holds

end DecisionExplainer

end SecureMcp
