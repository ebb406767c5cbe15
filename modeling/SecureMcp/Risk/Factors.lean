import SecureMcp.Decision
import SecureMcp.Policy.Engine
import Mathlib.Algebra.Order.BigOperators.Group.List
import Mathlib.Data.PNat.Basic

/-! The factors of a risk score and their combination. A factor is a function of the context
that was gathered for a call; approvals discount the behavioral ones only.
-/

namespace SecureMcp

/-- The risk engine's settings. What is kept for a while is kept for a positive time; the hours
and the thresholds are only compared.
-/
structure RiskSettings where
  businessHoursStartUtc : Int := 9
  businessHoursEndUtc : Int := 18
  riskFreqWindowSeconds : ℕ+ := 60
  riskFreqThreshold : Int := 10
  riskDecayStep : Nat := 5
  riskDecayMax : Nat := 10
  riskDecayTtlSeconds : ℕ+ := 2592000
  riskDenialWindowSeconds : ℕ+ := 600
  riskDenialThreshold : Int := 3
  riskAuthFailureWindowSeconds : ℕ+ := 300
  riskAuthFailureThreshold : Int := 5
  riskDriftHistoryWindowSeconds : Nat := 604800
  riskDriftHistoryThreshold : Int := 2

/-- The functions of Python's library that the factors' texts and patterns rest on. -/
structure Stdlib where
  repr : String → String
  fnmatch : String → String → Bool

/-- What a score reads of an aware UTC datetime; weekdays are numbered from Monday. -/
structure UtcTime where
  weekday : Fin 7
  hour : Nat
  minute : Nat

namespace UtcTime

def dayName (time : UtcTime) : String :=
  (["Mon", "Tue", "Wed", "Thu", "Fri", "Sat", "Sun"].get time.weekday)

def twoDigits (number : Nat) : String :=
  if number < 10 then "0" ++ toString number else toString number

/-- `%a %H:%M`. -/
def text (time : UtcTime) : String :=
  time.dayName ++ " " ++ twoDigits time.hour ++ ":" ++ twoDigits time.minute

end UtcTime

namespace SensitivityTier

def name : SensitivityTier → String
  | .low => "low"
  | .medium => "medium"
  | .high => "high"
  | .critical => "critical"

def contribution : SensitivityTier → Int
  | .low => 10
  | .medium => 20
  | .high => 30
  | .critical => 45

end SensitivityTier

/-- What is gathered for one call before its factors are computed. -/
structure RiskContext where
  identityId : String
  toolName : String
  arguments : Json
  policy : RiskPolicy
  now : UtcTime
  callCount : Int
  driftInReview : Bool
  denialCount : Int
  authFailureCount : Int
  driftEventCount : Int
  suspiciousBaseline : Bool

mutual

/-- The strings in a value, but for the keys of its objects. -/
def stringValues : Json → List String
  | .str text => [text]
  | .obj fields => fieldStrings fields
  | .arr items => itemStrings items
  | _ => []

def fieldStrings : List (String × Json) → List String
  | [] => []
  | (_, value) :: rest => stringValues value ++ fieldStrings rest

def itemStrings : List Json → List String
  | [] => []
  | value :: rest => stringValues value ++ itemStrings rest

end

namespace RiskEngine

def toolSensitivity (stdlib : Stdlib) (ctx : RiskContext) : Option RiskFactor :=
  (ctx.policy.toolSensitivity.lookup ctx.toolName).map (fun tier => {
    factor := "tool_sensitivity"
    contribution := tier.contribution
    reason := some (stdlib.repr ctx.toolName ++ " is policy-tiered " ++ tier.name)
  })

/-- The first argument that matches a protected pattern, with the first such pattern. -/
def blastRadius (stdlib : Stdlib) (ctx : RiskContext) : Option RiskFactor :=
  (stringValues ctx.arguments).findSome? (fun value =>
    (ctx.policy.protectedRepos.find? (stdlib.fnmatch value)).map (fun pattern => {
      factor := "protected_repository"
      contribution := 30
      reason := some ("argument " ++ stdlib.repr value ++ " matches protected pattern "
        ++ stdlib.repr pattern)
    }))

def businessHours (settings : RiskSettings) (ctx : RiskContext) : Option RiskFactor :=
  if 5 ≤ ctx.now.weekday.val
      ∨ ¬ (settings.businessHoursStartUtc ≤ ctx.now.hour
        ∧ (ctx.now.hour : Int) < settings.businessHoursEndUtc) then
    some {
      factor := "business_hours"
      contribution := 25
      reason := some ("call at " ++ ctx.now.text ++ " UTC is outside business hours")
    }
  else none

def callFrequency (settings : RiskSettings) (stdlib : Stdlib) (ctx : RiskContext)
    : Option RiskFactor :=
  if ctx.callCount ≤ settings.riskFreqThreshold then none
  else
    some {
      factor := "call_frequency"
      contribution := 20
      reason := some (toString ctx.callCount ++ " calls to " ++ stdlib.repr ctx.toolName
        ++ " in the last " ++ toString settings.riskFreqWindowSeconds.val ++ "s exceeds "
        ++ toString settings.riskFreqThreshold)
    }

def driftInReview (stdlib : Stdlib) (ctx : RiskContext) : Option RiskFactor :=
  if !ctx.driftInReview then none
  else
    some {
      factor := "drift_in_review"
      contribution := 15
      reason := some (stdlib.repr ctx.toolName ++ " has unresolved schema drift pending review")
    }

def priorDenialRate (settings : RiskSettings) (stdlib : Stdlib) (ctx : RiskContext)
    : Option RiskFactor :=
  if ctx.denialCount ≤ settings.riskDenialThreshold then none
  else
    some {
      factor := "prior_denial_rate"
      contribution := 25
      reason := some (toString ctx.denialCount ++ " denials for " ++ stdlib.repr ctx.identityId
        ++ " in the last " ++ toString settings.riskDenialWindowSeconds.val ++ "s exceeds "
        ++ toString settings.riskDenialThreshold)
    }

def authFailures (settings : RiskSettings) (ctx : RiskContext) : Option RiskFactor :=
  if ctx.authFailureCount ≤ settings.riskAuthFailureThreshold then none
  else
    some {
      factor := "auth_failures"
      contribution := 20
      reason := some (toString ctx.authFailureCount ++ " failed API-key lookups gateway-wide in"
        ++ " the last " ++ toString settings.riskAuthFailureWindowSeconds.val ++ "s exceeds "
        ++ toString settings.riskAuthFailureThreshold)
    }

def driftHistory (settings : RiskSettings) (stdlib : Stdlib) (ctx : RiskContext)
    : Option RiskFactor :=
  if ctx.driftEventCount < settings.riskDriftHistoryThreshold then none
  else
    some {
      factor := "drift_history"
      contribution := 15
      reason := some (stdlib.repr ctx.toolName ++ " drifted " ++ toString ctx.driftEventCount
        ++ " times in the last " ++ toString settings.riskDriftHistoryWindowSeconds
        ++ "s, even if since re-approved")
    }

def suspiciousBaseline (stdlib : Stdlib) (ctx : RiskContext) : Option RiskFactor :=
  if !ctx.suspiciousBaseline then none
  else
    some {
      factor := "suspicious_baseline"
      contribution := 20
      reason := some (stdlib.repr ctx.toolName ++ "'s approved description matched"
        ++ " instruction-injection heuristics when it was baselined")
    }

/-- `FACTORS`, in their order. -/
def factors (settings : RiskSettings) (stdlib : Stdlib) (ctx : RiskContext)
    : List RiskFactor :=
  [
    toolSensitivity stdlib ctx,
    blastRadius stdlib ctx,
    businessHours settings ctx,
    callFrequency settings stdlib ctx,
    driftInReview stdlib ctx,
    priorDenialRate settings stdlib ctx,
    authFailures settings ctx,
    driftHistory settings stdlib ctx,
    suspiciousBaseline stdlib ctx
  ].reduceOption

def behavioralFactors : List String :=
  ["call_frequency", "prior_denial_rate", "drift_in_review"]

def behavioralSum (factors : List RiskFactor) : Int :=
  ((factors.filter (fun factor => factor.factor ∈ behavioralFactors)).map
    RiskFactor.contribution).sum

def staticSum (factors : List RiskFactor) : Int :=
  ((factors.filter (fun factor => factor.factor ∉ behavioralFactors)).map
    RiskFactor.contribution).sum

def combine (factors : List RiskFactor) (decayOffset : Int) : Int :=
  min (staticSum factors + max 0 (behavioralSum factors - decayOffset)) 100

/-- The offset that a score uses of the stored one: `int(decay_raw or 0)`, clamped. -/
def decayOffset (settings : RiskSettings) (stored : Option Int) : Int :=
  min (stored.getD 0) settings.riskDecayMax

/-- INCRBY on the stored offset. -/
def applyDecay (settings : RiskSettings) (stored : Option Int) : Option Int :=
  some (stored.getD 0 + settings.riskDecayStep)

/-- The score of a call's factors after some approvals for it. -/
def scoreAfter (settings : RiskSettings) (approvals : Nat) (factors : List RiskFactor) : Int :=
  combine factors (decayOffset settings ((applyDecay settings)^[approvals] none))

end RiskEngine

end SecureMcp
