import SecureMcp.Risk.Frequency

/-! The score of a dry run against the score of a live call. A dry run reads the count that a live call
would find and adds one to it, so that in the same state, at the same instant, both come to the same
score and the same factors.
-/

namespace SecureMcp

open Interaction
open WindowCounter (Counter)

namespace Risk

/-- What the drift detector and the clock tell a scoring. -/
structure Surroundings where
  now : UtcTime
  driftInReview : Bool
  driftEventCount : Int
  suspiciousBaseline : Bool

/-- A reply that tells what the surroundings of a call are, if it tells anything of them. -/
def Surroundings.Tells (around : Surroundings) (settings : RiskSettings) (key : CallKey)
    : Event RiskReply → Prop
  | ⟨.utcNow, now⟩ => now = around.now
  | ⟨.hasPendingDrift serverId toolName, reply⟩ =>
      serverId = key.serverId
      → toolName = key.toolName
      → ∀ pending, reply = .ok pending → pending = around.driftInReview
  | ⟨.recentDriftCount serverId toolName seconds, reply⟩ =>
      serverId = key.serverId
      → toolName = key.toolName
      → seconds = settings.riskDriftHistoryWindowSeconds
      → ∀ count, reply = .ok count → count = around.driftEventCount
  | ⟨.isSuspicious serverId toolName, reply⟩ =>
      serverId = key.serverId
      → toolName = key.toolName
      → ∀ suspicious, reply = .ok suspicious → suspicious = around.suspiciousBaseline
  | _ => True

/-- The context of a call that is counted as the given one, in a state. -/
def contextAt (key : CallKey) (arguments : Json) (policy : RiskPolicy) (redis : Redis) (instant : Rat)
    (around : Surroundings) (count : Int)
    : RiskContext where
  identityId := key.identityId
  toolName := key.toolName
  arguments := arguments
  policy := policy
  now := around.now
  callCount := count
  driftInReview := around.driftInReview
  denialCount := ((redis (denialKey key.identityId)).live instant).getD 0
  authFailureCount := ((redis authFailureKey).live instant).getD 0
  driftEventCount := around.driftEventCount
  suspiciousBaseline := around.suspiciousBaseline

/-- The score of a call in a context, with the approvals that a state holds. -/
def scoreIn (settings : RiskSettings) (stdlib : Stdlib) (key : CallKey) (redis : Redis) (instant : Rat)
    (context : RiskContext)
    : Int × List RiskFactor :=
  let factors := RiskEngine.factors settings stdlib context
  (RiskEngine.combine factors
    (RiskEngine.decayOffset settings ((redis (decayKey key)).live instant)), factors)

/-- The score of the next call of a key in a state. -/
def scoreAt (settings : RiskSettings) (stdlib : Stdlib) (key : CallKey) (arguments : Json)
    (policy : RiskPolicy) (redis : Redis) (instant : Rat) (around : Surroundings)
    : Int × List RiskFactor :=
  scoreIn settings stdlib key redis instant
    (contextAt key arguments policy redis instant around ((redis (freqKey key)).next instant))

section

variable {settings : RiskSettings} {stdlib : Stdlib} {key : CallKey} {arguments : Json}
  {policy : RiskPolicy} {instant : Rat} {redis after : Redis} {events : List (Event RiskReply)}

/-- A counter that is read has the value that Redis holds. -/
theorem exec_counter_ok {name : String} {count : Int}
    (exec : (counter name).run.Exec events (.ok count))
    : ∃ stored, events = [⟨.get name, .ok stored⟩] ∧ count = stored.getD 0 := by
  obtain ⟨first, rest, raw, rfl, asked, ended⟩ := Coroutine.exec_bind_ok_iff.mp exec
  obtain ⟨reply, rfl, answered⟩ := Coroutine.exec_demand_iff.mp asked
  cases (answered : reply = .ok raw)
  obtain ⟨rfl, same⟩ := Program.exec_done_iff.mp ended
  cases same
  exact ⟨raw, rfl, rfl⟩

/-- The context that is gathered has what each reply says. -/
theorem exec_gather_ok {count : Int} {context : RiskContext}
    (exec : (gather settings key arguments policy count).run.Exec events (.ok context))
    : ∃ now pending denials failures drift suspicious,
        events = [
          ⟨.utcNow, now⟩,
          ⟨.hasPendingDrift key.serverId key.toolName, .ok pending⟩,
          ⟨.get (denialKey key.identityId), .ok denials⟩,
          ⟨.get authFailureKey, .ok failures⟩,
          ⟨.recentDriftCount key.serverId key.toolName settings.riskDriftHistoryWindowSeconds,
            .ok drift⟩,
          ⟨.isSuspicious key.serverId key.toolName, .ok suspicious⟩
        ]
        ∧ context = {
          identityId := key.identityId
          toolName := key.toolName
          arguments := arguments
          policy := policy
          now := now
          callCount := count
          driftInReview := pending
          denialCount := denials.getD 0
          authFailureCount := failures.getD 0
          driftEventCount := drift
          suspiciousBaseline := suspicious
        } := by
  obtain ⟨now, _, rfl, gathering⟩ := Coroutine.exec_ask_bind_iff.mp exec
  obtain ⟨_, _, pending, rfl, asked, counting⟩ := Coroutine.exec_bind_ok_iff.mp gathering
  obtain ⟨_, rfl, answered⟩ := Coroutine.exec_demand_iff.mp asked
  cases (answered : _ = Except.ok pending)
  obtain ⟨_, _, denials, rfl, counted, looking⟩ := Coroutine.exec_bind_ok_iff.mp counting
  obtain ⟨denialsStored, rfl, rfl⟩ := exec_counter_ok counted
  obtain ⟨_, _, failures, rfl, failed, drifting⟩ := Coroutine.exec_bind_ok_iff.mp looking
  obtain ⟨failuresStored, rfl, rfl⟩ := exec_counter_ok failed
  obtain ⟨_, _, drift, rfl, drifted, scanning⟩ := Coroutine.exec_bind_ok_iff.mp drifting
  obtain ⟨_, rfl, told⟩ := Coroutine.exec_demand_iff.mp drifted
  cases (told : _ = Except.ok drift)
  obtain ⟨_, _, suspicious, rfl, scanned, ended⟩ := Coroutine.exec_bind_ok_iff.mp scanning
  obtain ⟨_, rfl, said⟩ := Coroutine.exec_demand_iff.mp scanned
  cases (said : _ = Except.ok suspicious)
  obtain ⟨rfl, same⟩ := Program.exec_done_iff.mp ended
  cases same
  exact ⟨now, pending, denialsStored, failuresStored, drift, suspicious, rfl, rfl⟩

/-- Requests that only read are answered from what Redis holds, by induction on them. -/
theorem answers_of_reads (reads : ∀ event ∈ events, Reads event.call)
    (served : Program.Served (Redis.Serves instant) redis events after)
    : ∀ event ∈ events, redis.Answers instant event.call event.reply := by
  induction served with
  | nil => simp
  | cons head _ ih =>
      have same := head.of_reads (reads _ List.mem_cons_self)
      subst same
      intro event member
      rcases List.mem_cons.mp member with rfl | later
      · exact head.1
      · exact ih (fun other among => reads other (List.mem_cons_of_mem _ among)) event later

/-- The rest of a score is that of the context that the surroundings make. -/
theorem tail_served {count : Int} {result : Int × List RiskFactor} {around : Surroundings}
    (exec : (do
        let context ← gather settings key arguments policy count
        let factors := RiskEngine.factors settings stdlib context
        let stored ← Coroutine.demand (.get (decayKey key)) id
        return (RiskEngine.combine factors (RiskEngine.decayOffset settings stored), factors)
        : RiskAsync (Int × List RiskFactor)).run.Exec events (.ok result))
    (served : Program.Served (Redis.Serves instant) redis events after)
    (tells : ∀ event ∈ events, around.Tells settings key event)
    : result = scoreIn settings stdlib key redis instant
        (contextAt key arguments policy redis instant around count) := by
  have reads : ∀ event ∈ events, Reads event.call := exec.asks (tail_asks count)
  have answers := answers_of_reads reads served
  obtain ⟨_, _, context, rfl, gathered, discounting⟩ := Coroutine.exec_bind_ok_iff.mp exec
  obtain ⟨now, pending, denials, failures, drift, suspicious, rfl, rfl⟩ := exec_gather_ok gathered
  obtain ⟨_, _, stored, rfl, asked, ended⟩ := Coroutine.exec_bind_ok_iff.mp discounting
  obtain ⟨_, rfl, answered⟩ := Coroutine.exec_demand_iff.mp asked
  cases (answered : _ = Except.ok stored)
  obtain ⟨rfl, returned⟩ := Program.exec_done_iff.mp ended
  cases returned
  have clock : now = around.now := tells ⟨.utcNow, now⟩ (by simp)
  have reviewed := tells ⟨.hasPendingDrift key.serverId key.toolName, .ok pending⟩ (by simp) rfl rfl
    pending rfl
  have drifted := tells
    ⟨.recentDriftCount key.serverId key.toolName settings.riskDriftHistoryWindowSeconds, .ok drift⟩
    (by simp) rfl rfl rfl drift rfl
  have scanned := tells ⟨.isSuspicious key.serverId key.toolName, .ok suspicious⟩ (by simp)
    rfl rfl suspicious rfl
  have denied := answers ⟨.get (denialKey key.identityId), .ok denials⟩ (by simp) denials rfl
  have failed := answers ⟨.get authFailureKey, .ok failures⟩ (by simp) failures rfl
  have decayed := answers ⟨.get (decayKey key), .ok stored⟩ (by simp) stored rfl
  rw [clock, reviewed, drifted, scanned, denied, failed, decayed]
  rfl

/-- A count of calls changes nothing else that a score reads. -/
theorem scoreIn_set (context : RiskContext) (counter : Counter)
    : scoreIn settings stdlib key (redis.set (freqKey key) counter) instant context
      = scoreIn settings stdlib key redis instant context := by
  have other : redis.set (freqKey key) counter (decayKey key) = redis (decayKey key) :=
    if_neg (freqKey_ne_decayKey key).symm
  simp only [scoreIn, other]

theorem contextAt_set (around : Surroundings) (count : Int) (counter : Counter)
    : contextAt key arguments policy (redis.set (freqKey key) counter) instant around count
      = contextAt key arguments policy redis instant around count := by
  have denials : redis.set (freqKey key) counter (denialKey key.identityId)
      = redis (denialKey key.identityId) :=
    if_neg (freqKey_ne_denialKey key.identityId).symm
  have failures : redis.set (freqKey key) counter authFailureKey = redis authFailureKey :=
    if_neg freqKey_ne_authFailureKey.symm
  simp only [contextAt, denials, failures]

/-- A call is scored by the state in which it is made, in a dry run as in a live one: the count that a
live call leaves is the one that a dry run predicts, and no other key that is read is changed by it.
-/
theorem score_of_served {dryRun : Bool} {result : Int × List RiskFactor} {around : Surroundings}
    (exec : (score settings stdlib key arguments policy dryRun).run.Exec events (.ok result))
    (served : Program.Served (Redis.Serves instant) redis events after)
    (tells : ∀ event ∈ events, around.Tells settings key event)
    : result = scoreAt settings stdlib key arguments policy redis instant around := by
  unfold score at exec
  obtain ⟨_, stopped, _⟩ | ⟨first, rest, count, middle, rfl, counted, before, scoring, later⟩ :=
    Coroutine.exec_bind_served exec served
  · cases stopped
  have told : ∀ event ∈ rest, around.Tells settings key event :=
    fun event member => tells event (List.mem_append_right _ member)
  have scored := tail_served scoring later told
  cases dryRun with
  | true =>
      obtain ⟨_, _, found, rfl, read, ended⟩ := Coroutine.exec_bind_ok_iff.mp counted
      obtain ⟨stored, rfl, rfl⟩ := exec_counter_ok read
      obtain ⟨rfl, returned⟩ := Program.exec_done_iff.mp ended
      cases returned
      have reads : ∀ event ∈ [(⟨.get (freqKey key), .ok stored⟩ : Event RiskReply)],
          Reads event.call := by
        simp [Reads]
      have live := answers_of_reads reads before _ List.mem_cons_self stored rfl
      rw [scored, served_of_reads reads before, live]
      rfl
  | false =>
      obtain ⟨bumped, next⟩ := bump_served counted before
      rw [scored, bumped, scoreIn_set, contextAt_set, (next count rfl).2]
      rfl

end

end Risk

end SecureMcp
