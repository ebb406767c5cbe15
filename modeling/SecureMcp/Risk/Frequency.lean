import SecureMcp.Library.Machine
import SecureMcp.Risk.Engine
import Mathlib.Data.List.ReduceOption

/-! The rolling call counter over a run of live scorings: what a score counts is compared with
the calls that the window before it contains.
-/

namespace SecureMcp.Risk

open Interaction
open WindowCounter (Counter Hit Reach)

/-- One live scoring: when it was asked for, what it asked and was answered, and how it ended. -/
structure Scoring where
  instant : Rat
  arguments : Json
  policy : RiskPolicy
  events : List (Event RiskReply)
  outcome : Except Exn (Int × List RiskFactor)

/-- What became of an increment. -/
def incrReach : Event RiskReply → Option Reach
  | ⟨.incr _, answer⟩ => some answer.reach
  | _ => none

/-- What became of an expiry. -/
def expireReach : Event RiskReply → Option Reach
  | ⟨.expire _ _, answer⟩ => some answer.reach
  | _ => none

/-- The count that an increment was answered with. -/
def incrCount : Event RiskReply → Option Int
  | ⟨.incr _, .applied count⟩ => some count
  | _ => none

/-- The hit that a scoring is: a command that it did not send was not applied. -/
def hitOf (instant : Rat) (events : List (Event RiskReply)) : Hit where
  instant
  incr := (events.findSome? incrReach).getD .refused
  expire := (events.findSome? expireReach).getD .refused

/-- The count that a scoring used: the answer of its increment. -/
def countOf (events : List (Event RiskReply)) : Option Int :=
  events.findSome? incrCount

namespace Scoring

def hit (scoring : Scoring) : Hit :=
  hitOf scoring.instant scoring.events

def count (scoring : Scoring) : Option Int :=
  countOf scoring.events

end Scoring

/-- One scoring of a call, all of whose commands Redis answers at its instant. -/
def Scores (settings : RiskSettings) (stdlib : Stdlib) (key : CallKey) (redis : Redis)
    (scoring : Scoring) (after : Redis)
    : Prop :=
  (score settings stdlib key scoring.arguments scoring.policy false).run.Exec
    scoring.events scoring.outcome
  ∧ Program.Served (Redis.Serves scoring.instant) redis scoring.events after

/-- A call is scored in the order of time, from when Redis held no count for it. -/
structure Scored (settings : RiskSettings) (stdlib : Stdlib) (key : CallKey)
    (past : List Scoring) (current : Scoring)
    : Prop where
  ordered : (past ++ [current]).Pairwise (fun earlier later => earlier.instant ≤ later.instant)
  run : ∃ redis before after,
    redis (freqKey key) = none
    ∧ Machine.Run (Scores settings stdlib key) redis past before
    ∧ Scores settings stdlib key before current after

/-- What a score asks for once it has counted leaves Redis as it is. -/
def Reads : RiskCall → Prop
  | .incr _ | .incrBy _ _ | .expire _ _ => False
  | _ => True

section

variable {settings : RiskSettings} {stdlib : Stdlib} {key : CallKey} {arguments : Json}
  {policy : RiskPolicy} {now : Rat} {redis after : Redis} {events : List (Event RiskReply)}

theorem Redis.Serves.of_reads {event : Event RiskReply} (reads : Reads event.call)
    (served : Redis.Serves now redis event after)
    : after = redis := by
  obtain ⟨call, reply⟩ := event
  have effect := served.2
  cases call with
  | incr name => exact absurd reads id
  | incrBy name amount => exact absurd reads id
  | expire name seconds => exact absurd reads id
  | _ => exact effect

theorem counter_asks (name : String) : (counter name).run.Asks Reads := by
  apply Coroutine.asks_bind
  · exact Coroutine.asks_demand _ trivial
  · intro raw
    exact Coroutine.asks_pure _

theorem gather_asks (count : Int)
    : (gather settings key arguments policy count).run.Asks Reads := by
  apply Coroutine.asks_bind (Coroutine.asks_ask trivial)
  intro now
  apply Coroutine.asks_bind (Coroutine.asks_demand _ trivial)
  intro driftInReview
  apply Coroutine.asks_bind (counter_asks _)
  intro denialCount
  apply Coroutine.asks_bind (counter_asks _)
  intro authFailureCount
  apply Coroutine.asks_bind (Coroutine.asks_demand _ trivial)
  intro driftEventCount
  apply Coroutine.asks_bind (Coroutine.asks_demand _ trivial)
  intro suspiciousBaseline
  exact Coroutine.asks_pure _

/-- The gathered context keeps the count it was given. -/
theorem gather_count {count : Int} {context : RiskContext}
    (exec : (gather settings key arguments policy count).run.Exec events (.ok context))
    : context.callCount = count := by
  obtain ⟨_, _, _, _, _, exec⟩ := Coroutine.exec_bind_ok_iff.mp exec
  obtain ⟨_, _, _, _, _, exec⟩ := Coroutine.exec_bind_ok_iff.mp exec
  obtain ⟨_, _, _, _, _, exec⟩ := Coroutine.exec_bind_ok_iff.mp exec
  obtain ⟨_, _, _, _, _, exec⟩ := Coroutine.exec_bind_ok_iff.mp exec
  obtain ⟨_, _, _, _, _, exec⟩ := Coroutine.exec_bind_ok_iff.mp exec
  obtain ⟨_, _, _, _, _, exec⟩ := Coroutine.exec_bind_ok_iff.mp exec
  obtain ⟨_, ended⟩ := Program.exec_done_iff.mp exec
  cases ended
  rfl

theorem findSome?_append_reads {β : Type} {read : Event RiskReply → Option β}
    (events : List (Event RiskReply)) {rest : List (Event RiskReply)} (blind : ∀ event, Reads event.call → read event = none)
    (reads : ∀ event ∈ rest, Reads event.call)
    : (events ++ rest).findSome? read = events.findSome? read := by
  have nothing : rest.findSome? read = none := by
    rw [List.findSome?_eq_none_iff]
    intro event member
    exact blind event (reads event member)
  rw [List.findSome?_append, nothing, Option.or_none]

/-- Events that only read tell nothing of a count. -/
theorem blind_of_reads {event : Event RiskReply} (reads : Reads event.call)
    : incrReach event = none ∧ expireReach event = none ∧ incrCount event = none := by
  obtain ⟨call, reply⟩ := event
  cases call with
  | incr name => exact absurd reads id
  | incrBy name amount => exact absurd reads id
  | expire name seconds => exact absurd reads id
  | _ => exact ⟨rfl, rfl, rfl⟩

theorem hitOf_append {rest : List (Event RiskReply)} (reads : ∀ event ∈ rest, Reads event.call)
    : hitOf now (events ++ rest) = hitOf now events := by
  have incrs := findSome?_append_reads events
    (fun _ reading => (blind_of_reads reading).1) reads
  have expires := findSome?_append_reads events
    (fun _ reading => (blind_of_reads reading).2.1) reads
  simp only [hitOf, incrs, expires]

theorem countOf_append {rest : List (Event RiskReply)}
    (reads : ∀ event ∈ rest, Reads event.call)
    : countOf (events ++ rest) = countOf events :=
  findSome?_append_reads events (fun _ reading => (blind_of_reads reading).2.2) reads

theorem Redis.set_self (redis : Redis) (name : String)
    : redis.set name (redis name) = redis := by
  funext other
  unfold Redis.set
  split
  · next same => rw [same]
  · rfl

theorem Redis.set_set (redis : Redis) (name : String) (first second : Counter)
    : (redis.set name first).set name second = redis.set name second := by
  funext other
  unfold Redis.set
  split <;> rfl

@[simp] theorem Redis.set_same (redis : Redis) (name : String) (counter : Counter)
    : redis.set name counter name = counter := by
  simp [Redis.set]

/-- A bump is one hit on its counter, and its count is what the counter's increment gives. -/
theorem bump_served {name : String} {seconds : ℕ+} {outcome : Except Exn Int}
    (exec : (bump name seconds).run.Exec events outcome)
    (served : Program.Served (Redis.Serves now) redis events after)
    : after = redis.set name ((redis name).hit seconds.val (hitOf now events))
      ∧ ∀ count, outcome = .ok count →
          countOf events = some count ∧ count = (redis name).next now := by
  obtain ⟨reply, rest, rfl, going⟩ := Coroutine.exec_demand_bind exec
  obtain ⟨middle, ⟨answers, effect⟩, later⟩ := Program.served_cons_iff.mp served
  cases reply with
  | refused raised =>
      obtain ⟨_, answered, _⟩ | ⟨stop, _, rfl, rfl⟩ := going
      · cases answered
      have hit : hitOf now [⟨.incr name, .refused raised⟩] = ⟨now, .refused, .refused⟩ := rfl
      have kept : middle = redis := effect
      rw [Program.served_nil_iff.mp later, kept, hit, Counter.hit_of_unanswered (by simp)]
      simp [Redis.set_self]
  | lost raised =>
      obtain ⟨_, answered, _⟩ | ⟨stop, _, rfl, rfl⟩ := going
      · cases answered
      have hit : hitOf now [⟨.incr name, .lost raised⟩] = ⟨now, .lost, .refused⟩ := rfl
      have bumped : middle = redis.set name ((redis name).incr now) := effect
      rw [Program.served_nil_iff.mp later, bumped, hit, Counter.hit_of_unanswered (by simp)]
      simp
  | applied count =>
      obtain ⟨value, answered, going⟩ | ⟨stop, answered, _⟩ := going
      swap
      · cases answered
      cases answered
      have next : count = (redis name).next now := answers count rfl
      have bumped : middle = redis.set name ((redis name).incr now) := effect
      by_cases first : count = 1
      · rw [if_pos first] at going
        obtain ⟨expired, others, rfl, ended⟩ := Coroutine.exec_demand_bind going
        obtain ⟨final, ⟨_, expiry⟩, none⟩ := Program.served_cons_iff.mp later
        have alone : others = [] := by
          obtain ⟨_, _, exec⟩ | ⟨_, _, empty, _⟩ := ended
          · exact (Program.exec_done_iff.mp exec).1
          · exact empty
        subst alone
        have hit : hitOf now [⟨.incr name, .applied count⟩, ⟨.expire name seconds, expired⟩]
            = ⟨now, .applied, expired.reach⟩ :=
          rfl
        refine ⟨?_, ?_⟩
        · rw [Program.served_nil_iff.mp none, expiry, bumped, hit,
            Counter.hit_of_first rfl (next ▸ first)]
          by_cases refused : expired.reach = .refused
          · simp [Redis.effect, refused]
          · simp [Redis.effect, refused, Redis.set_set]
        · intro other same
          obtain ⟨_, _, exec⟩ | ⟨stop, _, _, raised⟩ := ended
          · obtain ⟨_, returned⟩ := Program.exec_done_iff.mp exec
            rw [same] at returned
            cases returned
            exact ⟨rfl, next⟩
          · rw [same] at raised
            cases raised
      · rw [if_neg first] at going
        obtain ⟨rfl, rfl⟩ := Program.exec_done_iff.mp going
        have hit : hitOf now [⟨.incr name, .applied count⟩] = ⟨now, .applied, .refused⟩ := rfl
        refine ⟨?_, ?_⟩
        · rw [Program.served_nil_iff.mp later, bumped, hit,
            Counter.hit_of_later rfl (next ▸ first)]
        · intro other same
          cases same
          exact ⟨rfl, next⟩

/-- Each other factor has another name. -/
theorem named_callFrequency {context : RiskContext} {factor : RiskFactor}
    (named : factor.factor = "call_frequency")
    : factor ∈ RiskEngine.factors settings stdlib context
      ↔ RiskEngine.callFrequency settings stdlib context = some factor := by
  unfold RiskEngine.factors
  simp only [List.reduceOption_mem_iff, List.mem_cons, List.not_mem_nil, or_false]
  refine ⟨?_, ?_⟩
  · intro among
    rcases among with one | one | one | one | one | one | one | one | one
    case inr.inr.inr.inl => exact one.symm
    all_goals exfalso
    · obtain ⟨tier, _, rfl⟩ := Option.map_eq_some_iff.mp one.symm
      simp at named
    · obtain ⟨value, _, found⟩ := List.exists_of_findSome?_eq_some one.symm
      obtain ⟨pattern, _, rfl⟩ := Option.map_eq_some_iff.mp found
      simp at named
    · unfold RiskEngine.businessHours at one
      split at one <;> cases one
      simp at named
    · unfold RiskEngine.driftInReview at one
      split at one <;> cases one
      simp at named
    · unfold RiskEngine.priorDenialRate at one
      split at one <;> cases one
      simp at named
    · unfold RiskEngine.authFailures at one
      split at one <;> cases one
      simp at named
    · unfold RiskEngine.driftHistory at one
      split at one <;> cases one
      simp at named
    · unfold RiskEngine.suspiciousBaseline at one
      split at one <;> cases one
      simp at named
  · intro fires
    exact Or.inr (Or.inr (Or.inr (Or.inl fires.symm)))

/-- The factor of the call frequency is the one of that name. -/
theorem fires_iff {context : RiskContext}
    : (∃ factor ∈ RiskEngine.factors settings stdlib context, factor.factor = "call_frequency")
      ↔ settings.riskFreqThreshold < context.callCount := by
  refine ⟨?_, ?_⟩
  · intro ⟨factor, among, named⟩
    have fires := (named_callFrequency named).mp among
    unfold RiskEngine.callFrequency at fires
    split at fires
    · cases fires
    · next exceeds => exact not_le.mp exceeds
  · intro exceeds
    refine ⟨_, (named_callFrequency ?_).mpr (if_neg (not_le.mpr exceeds)), ?_⟩ <;> rfl

/-- The rest of a score, once it has counted. -/
theorem tail_asks (count : Int)
    : (do
        let context ← gather settings key arguments policy count
        let factors := RiskEngine.factors settings stdlib context
        let stored ← Coroutine.demand (.get (decayKey key)) id
        return (RiskEngine.combine factors (RiskEngine.decayOffset settings stored), factors)
        : RiskAsync (Int × List RiskFactor)).run.Asks Reads := by
  apply Coroutine.asks_bind (gather_asks _)
  intro context
  apply Coroutine.asks_bind (Coroutine.asks_demand _ trivial)
  intro stored
  exact Coroutine.asks_pure _

theorem tail_factors {count score : Int} {factors : List RiskFactor}
    (exec : (do
        let context ← gather settings key arguments policy count
        let factors := RiskEngine.factors settings stdlib context
        let stored ← Coroutine.demand (.get (decayKey key)) id
        return (RiskEngine.combine factors (RiskEngine.decayOffset settings stored), factors)
        : RiskAsync (Int × List RiskFactor)).run.Exec events (.ok (score, factors)))
    : ∃ context, context.callCount = count
        ∧ RiskEngine.factors settings stdlib context = factors := by
  obtain ⟨_, _, context, _, gathered, exec⟩ := Coroutine.exec_bind_ok_iff.mp exec
  obtain ⟨_, _, _, _, _, exec⟩ := Coroutine.exec_bind_ok_iff.mp exec
  obtain ⟨_, ended⟩ := Program.exec_done_iff.mp exec
  cases ended
  exact ⟨context, gather_count gathered, rfl⟩

theorem served_of_reads (reads : ∀ event ∈ events, Reads event.call)
    (served : Program.Served (Redis.Serves now) redis events after)
    : after = redis := by
  refine served.unchanged ?_
  intro event member before next answered
  exact answered.of_reads (reads event member)

/-- A scoring is one hit on the count of its call, and its factors use the count that the hit's
increment gives.
-/
theorem Scores.step {scoring : Scoring} (scores : Scores settings stdlib key redis scoring after)
    : after (freqKey key)
        = (redis (freqKey key)).hit settings.riskFreqWindowSeconds.val scoring.hit
      ∧ ∀ score factors, scoring.outcome = .ok (score, factors) →
          scoring.count = some ((redis (freqKey key)).next scoring.instant)
          ∧ ((∃ factor ∈ factors, factor.factor = "call_frequency")
            ↔ settings.riskFreqThreshold < (redis (freqKey key)).next scoring.instant) := by
  obtain ⟨exec, served⟩ := scores
  unfold score callCount at exec
  rw [if_neg Bool.false_ne_true] at exec
  unfold Scoring.hit Scoring.count
  obtain ⟨stop, stopped, counted⟩
      | ⟨first, rest, count, middle, split, counted, bumped, going, read⟩ :=
    Coroutine.exec_bind_served exec served
  · obtain ⟨same, _⟩ := bump_served counted served
    refine ⟨by rw [same, Redis.set_same], ?_⟩
    intro score factors returned
    rw [stopped] at returned
    cases returned
  · obtain ⟨same, count⟩ := bump_served counted bumped
    have reads := going.asks (tail_asks _)
    have unchanged := served_of_reads reads read
    rw [split, hitOf_append reads, countOf_append reads, unchanged]
    refine ⟨by rw [same, Redis.set_same], ?_⟩
    intro score factors returned
    rw [returned] at going
    obtain ⟨context, used, same⟩ := tail_factors going
    obtain ⟨answered, next⟩ := count _ rfl
    rw [answered, next, ← same, fires_iff, used, next]
    exact ⟨rfl, Iff.rfl⟩

/-- After a run of scorings the count is what their hits left, by induction on the run. -/
theorem counter_of_run {scorings : List Scoring} (none : redis (freqKey key) = none)
    (run : Machine.Run (Scores settings stdlib key) redis scorings after)
    : after (freqKey key)
      = WindowCounter.after settings.riskFreqWindowSeconds.val (scorings.map Scoring.hit) := by
  induction run with
  | nil => exact none
  | concat _ last ih =>
      rw [last.step.1, ih, List.map_append]
      simp [WindowCounter.after]

end

open WindowCounter (within missed overdue hitsOf Expiring)

/-- The count of a call stands for the window before it: the factor fires when the calls of the
window exceed the threshold, and the count is 1 when there is no earlier one.
-/
def CountsWindow (settings : RiskSettings) (past : List Scoring) (current : Scoring)
    (factors : List RiskFactor)
    : Prop :=
  let window : Rat := settings.riskFreqWindowSeconds.val
  (settings.riskFreqThreshold < within window current.instant (past.map Scoring.hit) + 1
    → ∃ factor ∈ factors, factor.factor = "call_frequency")
  ∧ ((∀ earlier ∈ past, ¬ earlier.hit.Within window current.instant) → current.count = some 1)

/-- The count stands for the window exactly when, of a window that exceeds the threshold, enough
calls reached the live counter, and no counter was left without an expiry.
-/
theorem countsWindow_iff {settings : RiskSettings} {stdlib : Stdlib} {key : CallKey}
    {past : List Scoring} {current : Scoring} {score : Int} {factors : List RiskFactor}
    (scored : Scored settings stdlib key past current)
    (returned : current.outcome = .ok (score, factors))
    : CountsWindow settings past current factors
      ↔ let window : Rat := settings.riskFreqWindowSeconds.val
        let hits := past.map Scoring.hit
        let seen := (hitsOf window hits).seenAt window current.instant
        (settings.riskFreqThreshold < within window current.instant hits + 1
          → settings.riskFreqThreshold + missed window current.instant seen
              < within window current.instant hits + 1 + overdue window current.instant seen)
        ∧ ((∀ hit ∈ hits, ¬ hit.Within window current.instant)
          → Expiring window current.instant hits) := by
  obtain ⟨redis, before, after, none, run, last⟩ := scored.run
  have counted := counter_of_run none run
  obtain ⟨count, fires⟩ := last.step.2 score factors returned
  rw [counted] at count fires
  refine Iff.trans ?_ (WindowCounter.stands_iff _ _ _ _)
  refine and_congr (imp_congr_right fun _ => fires) ?_
  rw [count]
  simp

/-- Answers to a call at noon on a Monday of which nothing but the count is kept. -/
def quiet (count : Int) (expire : Answer Unit) : (call : RiskCall) → RiskReply call
  | .incr _ => .applied count
  | .incrBy _ _ => .applied ()
  | .expire _ _ => expire
  | .get _ => .ok none
  | .utcNow => { weekday := 0, hour := 12, minute := 0 }
  | .hasPendingDrift _ _ => .ok false
  | .recentDriftCount _ _ _ => .ok 0
  | .isSuspicious _ _ => .ok false

/-- A scoring of a call without arguments that is answered so. -/
def quietly (settings : RiskSettings) (stdlib : Stdlib) (key : CallKey) (instant : Rat)
    (count : Int) (expire : Answer Unit)
    : Scoring :=
  let played := (score settings stdlib key (.obj []) {} false).run.play (quiet count expire)
  { instant, arguments := .obj [], policy := {}, events := played.1, outcome := played.2 }

/-- A Redis that holds nothing but the count of a call. -/
def lone (key : CallKey) (counter : Counter) : Redis :=
  Redis.set (fun _ => none) (freqKey key) counter

section

variable {settings : RiskSettings} {stdlib : Stdlib} {key : CallKey} {now : Rat}
  {counter : Counter}

theorem freqKey_ne_denialKey (identityId : String) : freqKey key ≠ denialKey identityId := by
  intro same
  have chars := congrArg String.toList same
  simp [freqKey, denialKey] at chars

theorem freqKey_ne_authFailureKey : freqKey key ≠ authFailureKey := by
  intro same
  have chars := congrArg String.toList same
  simp [freqKey, authFailureKey] at chars

theorem freqKey_ne_decayKey (other : CallKey) : freqKey key ≠ decayKey other := by
  intro same
  have chars := congrArg String.toList same
  simp [freqKey, decayKey] at chars

theorem lone_get {name : String} (other : freqKey key ≠ name)
    : Redis.Serves now (lone key counter) ⟨.get name, .ok none⟩ (lone key counter) := by
  refine ⟨?_, rfl⟩
  intro value same
  cases same
  simp [lone, Redis.set, other.symm, Counter.live]

theorem lone_reads (settings : RiskSettings) (key : CallKey) (counter : Counter) (now : Rat)
    : Program.Served (Redis.Serves now) (lone key counter)
        [
          ⟨.utcNow, ({ weekday := 0, hour := 12, minute := 0 } : UtcTime)⟩,
          ⟨.hasPendingDrift key.serverId key.toolName, .ok false⟩,
          ⟨.get (denialKey key.identityId), .ok none⟩,
          ⟨.get authFailureKey, .ok none⟩,
          ⟨.recentDriftCount key.serverId key.toolName settings.riskDriftHistoryWindowSeconds,
            .ok 0⟩,
          ⟨.isSuspicious key.serverId key.toolName, .ok false⟩,
          ⟨.get (decayKey key), .ok none⟩
        ]
        (lone key counter) :=
  .cons ⟨trivial, rfl⟩ (.cons ⟨trivial, rfl⟩ (.cons (lone_get (freqKey_ne_denialKey _))
    (.cons (lone_get freqKey_ne_authFailureKey) (.cons ⟨trivial, rfl⟩ (.cons ⟨trivial, rfl⟩
      (.cons (lone_get (freqKey_ne_decayKey _)) (.nil _)))))))

theorem lone_incr {count : Int} (next : counter.next now = count)
    : Redis.Serves now (lone key counter) ⟨.incr (freqKey key), .applied count⟩
        (lone key (counter.incr now)) := by
  refine ⟨?_, ?_⟩
  · intro value same
    cases same
    simp [lone, next]
  · change _ = Redis.set _ _ _
    simp [lone, Redis.set_set]

/-- A scoring that finds no live count starts one. -/
theorem first_scores (dead : counter.live now = none)
    : Scores settings stdlib key (lone key counter)
        (quietly settings stdlib key now 1 (.applied ()))
        (lone key (some (1, some (now + settings.riskFreqWindowSeconds.val)))) := by
  have next : counter.next now = 1 := by
    simp [Counter.next, dead]
  have started : counter.incr now = some (1, none) := by
    simp [Counter.incr, dead]
  have expiring : Redis.Serves now (lone key (some (1, none)))
      ⟨.expire (freqKey key) settings.riskFreqWindowSeconds, .applied ()⟩
      (lone key (some (1, some (now + settings.riskFreqWindowSeconds.val)))) := by
    refine ⟨trivial, ?_⟩
    change _ = Redis.set _ _ _
    simp [lone, Redis.set_set, Counter.expire, Counter.live]
  exact ⟨Program.exec_play _ _,
    .cons (started ▸ lone_incr next) (.cons expiring (lone_reads settings key _ now))⟩

/-- A scoring that starts a count and is refused its expiry. -/
theorem unexpired_scores (dead : counter.live now = none) (raised : Exn)
    : Scores settings stdlib key (lone key counter)
        (quietly settings stdlib key now 1 (.refused raised)) (lone key (some (1, none))) := by
  have next : counter.next now = 1 := by
    simp [Counter.next, dead]
  have started : counter.incr now = some (1, none) := by
    simp [Counter.incr, dead]
  have refused : Redis.Serves now (lone key (some (1, none)))
      ⟨.expire (freqKey key) settings.riskFreqWindowSeconds, .refused raised⟩
      (lone key (some (1, none))) :=
    ⟨trivial, rfl⟩
  exact ⟨Program.exec_play _ _, .cons (started ▸ lone_incr next) (.cons refused (.nil _))⟩

/-- A scoring that finds a live count of one adds to it. -/
theorem second_scores {expiry : Option Rat}
    (live : Counter.live (some (1, expiry)) now = some 1)
    : Scores settings stdlib key (lone key (some (1, expiry)))
        (quietly settings stdlib key now 2 (.applied ())) (lone key (some (2, expiry))) := by
  have next : Counter.next (some (1, expiry)) now = 2 := by
    simp [Counter.next, live]
  have added : Counter.incr (some (1, expiry)) now = some (2, expiry) := by
    simp [Counter.incr, live]
  exact ⟨Program.exec_play _ _, .cons (added ▸ lone_incr next) (lone_reads settings key _ now)⟩

/-- Scorings from when Redis held nothing. -/
theorem scored_lone {past : List Scoring} {current : Scoring} {before after : Redis}
    (ordered : (past ++ [current]).Pairwise (fun earlier later => earlier.instant ≤ later.instant))
    (run : Machine.Run (Scores settings stdlib key) (lone key none) past before)
    (last : Scores settings stdlib key before current after)
    : Scored settings stdlib key past current :=
  ⟨ordered, lone key none, before, after, by simp [lone], run, last⟩

end

abbrev agentSends : CallKey := ⟨"agent", "server", "send"⟩

/-- Quotes for texts, and patterns without wildcards. -/
def quoting : Stdlib := { repr := fun text => "'" ++ text ++ "'", fnmatch := (· == ·) }

def onceAMinute : RiskSettings := { riskFreqThreshold := 1 }

abbrev agentCalls (instant : Rat) (count : Int) : Scoring :=
  quietly onceAMinute quoting agentSends instant count (.applied ())

theorem agentCalls_first
    : Machine.Run (Scores onceAMinute quoting agentSends) (lone agentSends none) [agentCalls 0 1]
        (lone agentSends (some (1, some (0 + 60)))) :=
  Machine.Run.nil.concat (first_scores rfl)

/-- Two calls of a window are counted. -/
theorem second_call_counts
    : ∃ score factors,
        (agentCalls 30 2).outcome = .ok (score, factors)
        ∧ CountsWindow onceAMinute [agentCalls 0 1] (agentCalls 30 2) factors := by
  have scored : Scored onceAMinute quoting agentSends [agentCalls 0 1] (agentCalls 30 2) :=
    scored_lone (by simp [quietly]) agentCalls_first (second_scores (by decide +kernel))
  refine ⟨_, _, rfl, (countsWindow_iff scored rfl).mpr ⟨?_, ?_⟩⟩
  · decide +kernel
  · intro outside
    exact absurd (outside _ List.mem_cons_self) (by decide +kernel)

/-- Of the calls at 59 and 61 seconds the second one is counted alone, since the counter that
counted the first one ends in between; and a counter without an expiry still counts a call of
the hour before.
-/
theorem window_not_counted
    : (∃ past current score factors,
        Scored onceAMinute quoting agentSends past current
        ∧ current.outcome = .ok (score, factors)
        ∧ within 60 current.instant (past.map Scoring.hit) + 1 = 2
        ∧ ¬ CountsWindow onceAMinute past current factors)
      ∧ ∃ past current score factors,
          Scored onceAMinute quoting agentSends past current
          ∧ current.outcome = .ok (score, factors)
          ∧ (∀ earlier ∈ past, ¬ earlier.hit.Within 60 current.instant)
          ∧ current.count = some 2 := by
  refine ⟨?_, ?_⟩
  · refine ⟨[agentCalls 0 1, agentCalls 59 2], agentCalls 61 1, _, _, ?_, rfl,
      by decide +kernel, ?_⟩
    · have earlier : Machine.Run (Scores onceAMinute quoting agentSends) (lone agentSends none)
          [agentCalls 0 1, agentCalls 59 2] (lone agentSends (some (2, some (0 + 60)))) :=
        agentCalls_first.concat (second_scores (by decide +kernel))
      exact scored_lone (by simp [quietly]; norm_num) earlier (first_scores (by decide +kernel))
    · intro counts
      exact absurd (counts.1 (by decide +kernel)) (by decide +kernel)
  · refine ⟨[quietly onceAMinute quoting agentSends 0 1 (.refused .unavailable)],
      agentCalls 3600 2, _, _, ?_, rfl, by decide +kernel, rfl⟩
    have earlier : Machine.Run (Scores onceAMinute quoting agentSends) (lone agentSends none)
        [quietly onceAMinute quoting agentSends 0 1 (.refused .unavailable)]
        (lone agentSends (some (1, none))) :=
      Machine.Run.nil.concat (unexpired_scores rfl _)
    exact scored_lone (by simp [quietly]) earlier (second_scores rfl)

end SecureMcp.Risk
