import SecureMcp.Audit.Entries
import SecureMcp.Library.Program
import SecureMcp.Library.WindowCounter
import SecureMcp.Risk.Factors

/-! The risk engine over Redis: which keys a score reads and writes, in which order, and what
Redis does with its commands.
-/

namespace SecureMcp

open Interaction
open WindowCounter (Counter Reach)

/-- What a command of Redis came to. A caller cannot tell one whose answer was lost from one
that was refused.
-/
inductive Answer (α : Type)
  | applied (value : α)
  | lost (raised : Exn)
  | refused (raised : Exn)

namespace Answer

variable {α : Type}

def outcome : Answer α → Except Exn α
  | .applied value => .ok value
  | .lost raised | .refused raised => .error raised

def reach : Answer α → Reach
  | .applied _ => .applied
  | .lost _ => .lost
  | .refused _ => .refused

end Answer

namespace Risk

/-- The three parts of a key are joined by colons. -/
def joined (key : CallKey) : String :=
  key.identityId ++ ":" ++ key.serverId ++ ":" ++ key.toolName

def freqKey (key : CallKey) : String :=
  "risk:freq:" ++ joined key

def decayKey (key : CallKey) : String :=
  "risk:decay:" ++ joined key

def denialKey (identityId : String) : String :=
  "risk:denials:" ++ identityId

def authFailureKey : String := "risk:auth_failures"

/-- What the risk engine asks of Redis, the clock and the drift detector. -/
inductive RiskCall
  | incr (key : String)
  | incrBy (key : String) (amount : Nat)
  | expire (key : String) (seconds : ℕ+)
  | get (key : String)
  | utcNow
  | hasPendingDrift (serverId toolName : String)
  | recentDriftCount (serverId toolName : String) (seconds : Nat)
  | isSuspicious (serverId toolName : String)

abbrev RiskReply : RiskCall → Type
  | .incr _ => Answer Int
  | .incrBy _ _ => Answer Unit
  | .expire _ _ => Answer Unit
  | .get _ => Except Exn (Option Int)
  | .utcNow => UtcTime
  | .hasPendingDrift _ _ => Except Exn Bool
  | .recentDriftCount _ _ _ => Except Exn Int
  | .isSuspicious _ _ => Except Exn Bool

abbrev RiskAsync (α : Type) : Type :=
  Coroutine RiskCall RiskReply Exn α

/-- INCR, and EXPIRE by whoever finds the count at 1. -/
def bump (key : String) (seconds : ℕ+) : RiskAsync Int := do
  let count ← Coroutine.demand (.incr key) Answer.outcome
  if count = 1 then
    Coroutine.demand (.expire key seconds) Answer.outcome
    return count
  else return count

def bumpFrequency (settings : RiskSettings) (key : CallKey) : RiskAsync Int :=
  bump (freqKey key) settings.riskFreqWindowSeconds

def counter (key : String) : RiskAsync Int := do
  let raw ← Coroutine.demand (.get key) id
  return raw.getD 0

/-- The count of a call: an explanation reads what a live call would find. -/
def callCount (settings : RiskSettings) (key : CallKey) (dryRun : Bool) : RiskAsync Int :=
  if dryRun then do
    let count ← counter (freqKey key)
    return count + 1
  else bumpFrequency settings key

/-- The context of a call whose count is known. -/
def gather (settings : RiskSettings) (key : CallKey) (arguments : Json) (policy : RiskPolicy)
    (count : Int)
    : RiskAsync RiskContext := do
  let now ← Coroutine.ask .utcNow
  let driftInReview ← Coroutine.demand (.hasPendingDrift key.serverId key.toolName) id
  let denialCount ← counter (denialKey key.identityId)
  let authFailureCount ← counter authFailureKey
  let driftEventCount ←
    Coroutine.demand
      (.recentDriftCount key.serverId key.toolName settings.riskDriftHistoryWindowSeconds) id
  let suspiciousBaseline ← Coroutine.demand (.isSuspicious key.serverId key.toolName) id
  return {
    identityId := key.identityId
    toolName := key.toolName
    arguments, policy, now
    callCount := count
    driftInReview, denialCount, authFailureCount, driftEventCount, suspiciousBaseline
  }

/-- `score`: the count first, then the rest of the context, then the stored offset. -/
def score (settings : RiskSettings) (stdlib : Stdlib) (key : CallKey) (arguments : Json)
    (policy : RiskPolicy) (dryRun : Bool)
    : RiskAsync (Int × List RiskFactor) := do
  let count ← callCount settings key dryRun
  let context ← gather settings key arguments policy count
  let factors := RiskEngine.factors settings stdlib context
  let stored ← Coroutine.demand (.get (decayKey key)) id
  return (RiskEngine.combine factors (RiskEngine.decayOffset settings stored), factors)

/-- One DENY_* terminal. -/
def recordDenial (settings : RiskSettings) (identityId : String) : RiskAsync Unit := do
  let _ ← bump (denialKey identityId) settings.riskDenialWindowSeconds
  return ()

/-- One approval; its expiry is set again each time. -/
def applyDecay (settings : RiskSettings) (key : CallKey) : RiskAsync Unit := do
  Coroutine.demand (.incrBy (decayKey key) settings.riskDecayStep) Answer.outcome
  Coroutine.demand (.expire (decayKey key) settings.riskDecayTtlSeconds) Answer.outcome

/-- Redis' integers, by key. -/
abbrev Redis : Type := String → Counter

namespace Redis

def set (redis : Redis) (key : String) (counter : Counter) : Redis :=
  fun other => if other = key then counter else redis other

/-- What a command does to Redis, unless it is refused. -/
def effect (redis : Redis) (now : Rat) : (call : RiskCall) → RiskReply call → Redis
  | .incr key, answer =>
      if answer.reach = .refused then redis else redis.set key ((redis key).incr now)
  | .incrBy key amount, answer =>
      if answer.reach = .refused then redis else redis.set key ((redis key).incrBy now amount)
  | .expire key seconds, answer =>
      if answer.reach = .refused then redis
      else redis.set key ((redis key).expire now seconds.val)
  | _, _ => redis

/-- What a command is answered with. What is not Redis' is answered in any way. -/
def Answers (redis : Redis) (now : Rat) : (call : RiskCall) → RiskReply call → Prop
  | .incr key, answer => ∀ value, answer = .applied value → value = (redis key).next now
  | .get key, reply => ∀ value, reply = .ok value → value = (redis key).live now
  | _, _ => True

/-- One event at an instant. -/
def Serves (now : Rat) (redis : Redis) (event : Event RiskReply) (after : Redis) : Prop :=
  redis.Answers now event.call event.reply ∧ after = redis.effect now event.call event.reply

end Redis

end Risk

end SecureMcp
