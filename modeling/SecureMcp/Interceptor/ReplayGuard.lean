import SecureMcp.Effects

/-! The replay guard: a nonce that was not seen before, and a timestamp close to now. -/

namespace SecureMcp

open Interaction

namespace ReplayGuard

def nonceMetaKey : String := "portunusmcp/nonce"

def timestampMetaKey : String := "portunusmcp/timestamp"

/-- The least integer that is too large for a float. -/
def floatLimit : Int :=
  2 ^ 1024 - 2 ^ 970

/-- `abs(now - timestamp) > window` for a number. -/
def apart (now timestamp : Rat) (window : Int) : Bool :=
  window < now - timestamp || window < timestamp - now

/-- The same for a JSON value. An integer is converted to a float first, which raises when it
is too large; a difference with NaN is never greater.
-/
def outside (now : Rat) (window : Int) : Json → Except Exn Bool
  | .int value =>
      if value < floatLimit && -floatLimit < value then .ok (apart now value window)
      else .error .overflowError
  | .float (.finite value) => .ok (apart now value.value window)
  | .float (.infinity _) => .ok true
  | _ => .ok false

/-- Whether a timestamp is a number; a boolean is not one. -/
def isTimestamp : Json → Bool
  | .int _ | .float _ => true
  | _ => false

/-- A denial reason, or `none` if the call is fresh. -/
def check (settings : Settings) (isUuid : String → Bool) (nonce timestamp : Json)
    : Async (Option String) := do
  match nonce with
  | .str nonce =>
      if !isUuid nonce then return some "missing or invalid nonce"
      else if !isTimestamp timestamp then return some "missing or invalid timestamp"
      else
        let window := settings.replayWindowSeconds
        let now ← Coroutine.ask .time
        if ← Coroutine.ofExcept (outside now window timestamp) then
          return some ("timestamp outside the ±" ++ toString window ++ "s window")
        else if ← Coroutine.demand (.setNonce nonce (2 * window)) id then return none
        else return some "nonce already seen within the timestamp window"
  | _ => return some "missing or invalid nonce"

end ReplayGuard

end SecureMcp
