import SecureMcp.Audit.Entries
import SecureMcp.Library.Expiring
import SecureMcp.Library.Hmac
import SecureMcp.Python.Digest

/-! Step-up challenges: TOTP codes, the pending challenges and the used codes, which Redis keeps
under keys of one name space.
-/

namespace SecureMcp

open Interaction

namespace StepUp

def totpStepSeconds : Nat := 30

def totpSkewSteps : List Int := [-1, 0, 1]

/-- A code must be remembered for longer than it is valid. -/
def codeDedupTtlSeconds : Int := 90

/-- `str.strip` and `str.upper` of an ASCII text. -/
def stripUpper (text : String) : List Char :=
  let front := text.toList.dropWhile Char.isWhitespace
  ((front.reverse.dropWhile Char.isWhitespace).reverse).map Char.toUpper

/-- The key bytes of a base32 secret. -/
def decodeTotpSecret (secretB32 : String) : Option (List Nat) :=
  b32decode (stripUpper secretB32)

/-- The step that contains an instant. -/
def totpCounter (now : Rat) : Int :=
  (now / totpStepSeconds).floor

/-- Six decimal digits. -/
def sixDigits (value : Nat) : List Char :=
  let digits := Nat.toDigits 10 value
  List.replicate (6 - digits.length) '0' ++ digits

/-- Dynamic truncation of a digest. -/
def truncate (digest : List Nat) : List Char :=
  let offset := digest.getLastD 0 % 16
  let value := ((digest.drop offset).take 4).foldl (fun value byte => 256 * value + byte) 0
  sixDigits (value % 0x80000000 % 1000000)

def hotp (secret : List Nat) (counter : Int) : Except Exn String :=
  return String.ofList (truncate (Hmac.digest Sha1.digest secret (← packUnsigned counter)))

/-- The first code of a published list, for the secret `12345678901234567890`. -/
example : hotp ("12345678901234567890".toList.map Char.toNat) 0 = .ok "755224" := by
  decide +kernel

/-- Whether a code is that of one of the steps; a code that is not ASCII raises. -/
def verifySteps (secret : List Nat) (code : String) (counter : Int) : List Int → Except Exn Bool
  | [] => .ok false
  | skew :: rest => do
      let expected ← hotp secret (counter + skew)
      if ← compareDigest expected code then return true
      else verifySteps secret code counter rest

/-- One request to Redis, to the clock or to the source of fresh ids. -/
inductive RedisCall
  | time
  | uuid
  | set (key : String) (value : Json) (seconds : Int)
  | getDel (key : String)
  | setNx (key : String) (value : Json) (seconds : Int)

/-- `uuid.uuid4().hex`. -/
structure UuidHex where
  text : String
  hexadecimal : ∀ char ∈ text.toList, char.isDigit ∨ char ∈ ['a', 'b', 'c', 'd', 'e', 'f']

theorem hexadecimal_of_all {text : String}
    (digits :
      text.toList.all (fun char => char.isDigit || ['a', 'b', 'c', 'd', 'e', 'f'].contains char))
    : ∀ char ∈ text.toList, char.isDigit ∨ char ∈ ['a', 'b', 'c', 'd', 'e', 'f'] := by
  simpa using digits

abbrev RedisReply : RedisCall → Type
  | .time => Rat
  | .uuid => UuidHex
  | .set _ _ _ => Except Exn Unit
  | .getDel _ => Except Exn (Option Json)
  | .setNx _ _ _ => Except Exn Bool

abbrev RedisAsync (α : Type) : Type := Coroutine RedisCall RedisReply Exn α

def challengeKey (challengeId : String) : String :=
  "challenge:" ++ challengeId

def codeDedupKey (identityId code : String) : String :=
  "challenge:code:" ++ identityId ++ ":" ++ code

/-- What is stored for a challenge; its text reads back as the same value. -/
def challengeRecord (key : CallKey) (argumentsHash : String) (auditId : Nat) : Json :=
  .obj [
    ("identity_id", .str key.identityId),
    ("server_id", .str key.serverId),
    ("tool_name", .str key.toolName),
    ("arguments_hash", .str argumentsHash),
    ("audit_id", .int auditId)
  ]

/-- Store a pending challenge under a fresh id. -/
def create (settings : Settings) (key : CallKey) (argumentsHash : String) (auditId : Nat)
    : RedisAsync String := do
  let challengeId ← (Coroutine.ask RedisCall.uuid : RedisAsync UuidHex)
  Coroutine.demand (.set (challengeKey challengeId.text) (challengeRecord key argumentsHash auditId)
    settings.stepUpTtlSeconds) id
  return challengeId.text

/-- Whether a challenge was issued to a different identity, server or tool. -/
def issuedElsewhere (record : Json) (key : CallKey) : Except Exn Bool := do
  if (← record.item "identity_id") ≠ .str key.identityId then return true
  else if (← record.item "server_id") ≠ .str key.serverId then return true
  else return (← record.item "tool_name") ≠ .str key.toolName

/-- Whether a proof is a code of the step that contains now, or of one next to it. -/
def verifyTotp (secretB32 : String) (proof : Json) : RedisAsync Bool := do
  match proof, decodeTotpSecret secretB32 with
  | .str code, some secret => do
      let now ← (Coroutine.ask RedisCall.time : RedisAsync Rat)
      Coroutine.ofExcept (verifySteps secret code (totpCounter now) totpSkewSteps)
  | _, _ => return false

/-- One code, one redemption. -/
def spendCode (key : CallKey) (proof : Json) : RedisAsync (Option String) := do
  let fresh ← Coroutine.demand
    (.setNx (codeDedupKey key.identityId proof.pyStr) (.int 1) codeDedupTtlSeconds) id
  return if fresh then none else some "TOTP code has already been used"

/-- Redeem a challenge: a denial reason, or `none`. The challenge is consumed first. -/
def redeem (challengeId : String) (key : CallKey) (argumentsHash : String) (proof : Json)
    (secretB32 : String)
    : RedisAsync (Option String) := do
  match ← Coroutine.demand (.getDel (challengeKey challengeId)) id with
  | none => return some "challenge is unknown, expired, or already used"
  | some record =>
      if ← Coroutine.ofExcept (issuedElsewhere record key) then
        return some "challenge was issued to a different identity, server, or tool"
      else if (← Coroutine.ofExcept (record.item "arguments_hash")) ≠ .str argumentsHash then
        return some "arguments differ from the ones that were challenged"
      else if secretB32 = "" then return some "identity has no step-up factor configured"
      else if ← verifyTotp secretB32 proof then spendCode key proof
      else return some "TOTP proof is invalid"

/-- A call of the challenge store. -/
inductive Request
  | create (key : CallKey) (argumentsHash : String) (auditId : Nat)
  | redeem (challengeId : String) (key : CallKey) (argumentsHash : String) (proof : Json)
    (secretB32 : String)

inductive Answer
  | issued (challengeId : String)
  | redeemed (denial : Option String)

def handle (settings : Settings) : Request → RedisAsync Answer
  | .create key argumentsHash auditId => do
      return .issued (← create settings key argumentsHash auditId)
  | .redeem challengeId key argumentsHash proof secretB32 => do
      return .redeemed (← redeem challengeId key argumentsHash proof secretB32)

end StepUp

/-- The keys of the step-up store, with their values. -/
abbrev RedisKeys : Type := Expiring String Json

/-- How the clock and Redis answer at an instant. A request that raises may have been carried
out; Redis refuses an expiry time that is not positive.
-/
def RedisKeys.Serves {ι : Type} (keys : RedisKeys) (step : Stamped ι StepUp.RedisReply)
    (after : RedisKeys)
    : Prop :=
  let now := step.instant
  match step.event with
  | ⟨.time, read⟩ => read = now ∧ after = keys
  | ⟨.uuid, _⟩ => after = keys
  | ⟨.set key value seconds, .ok ()⟩ =>
      0 < seconds ∧ after = keys.put key value (now + seconds)
  | ⟨.set key value seconds, .error _⟩ =>
      after = keys ∨ (0 < seconds ∧ after = keys.put key value (now + seconds))
  | ⟨.getDel key, .ok value⟩ => value = keys.live key now ∧ after = keys.drop key
  | ⟨.getDel key, .error _⟩ => after = keys ∨ after = keys.drop key
  | ⟨.setNx key value seconds, .ok fresh⟩ =>
      0 < seconds
      ∧ fresh = (keys.live key now).isNone
      ∧ after = keys.putNew key value now (now + seconds)
  | ⟨.setNx key value seconds, .error _⟩ =>
      after = keys ∨ (0 < seconds ∧ after = keys.putNew key value now (now + seconds))

namespace StepUp

/-- A request that leaves a key alone, whatever else it does: it neither consumes nor overwrites
it.
-/
def Spares (key : String) : RedisCall → Prop
  | .getDel other | .set other _ _ => other ≠ key
  | _ => True

end StepUp

namespace RedisKeys

variable {ι : Type} {keys after : RedisKeys} {step : Stamped ι StepUp.RedisReply} {key : String}
  {entry : Json × Rat}

/-- A key that a request leaves alone is kept up to its instant. -/
theorem Serves.kept (served : keys.Serves step after) (spares : StepUp.Spares key step.event.call)
    (held : keys key = some entry)
    : after key = some entry ∨ entry.2 < step.instant := by
  have put {other : String} {value : Json} {expiry : Rat} (differs : other ≠ key)
      : keys.put other value expiry key = some entry :=
    (Expiring.put_other differs.symm).trans held
  have drop {other : String} (differs : other ≠ key) : keys.drop other key = some entry :=
    (Expiring.drop_other differs.symm).trans held
  unfold Serves at served
  obtain ⟨thread, instant, call, reply⟩ := step
  cases call with
  | time => exact Or.inl (served.2 ▸ held)
  | uuid => exact Or.inl (served ▸ held)
  | set other value seconds =>
      cases reply with
      | ok => exact Or.inl (served.2 ▸ put spares)
      | error exn =>
          rcases served with same | ⟨_, same⟩
          · exact Or.inl (same ▸ held)
          · exact Or.inl (same ▸ put spares)
  | getDel other =>
      cases reply with
      | ok found => exact Or.inl (served.2 ▸ drop spares)
      | error exn =>
          rcases served with same | same
          · exact Or.inl (same ▸ held)
          · exact Or.inl (same ▸ drop spares)
  | setNx other value seconds =>
      cases reply with
      | ok fresh => exact served.2.2 ▸ Expiring.putNew_kept held
      | error exn =>
          rcases served with same | ⟨_, same⟩
          · exact Or.inl (same ▸ held)
          · exact same ▸ Expiring.putNew_kept held

/-- A request that puts a value under a key. -/
def Puts (key : String) (value : Json) : StepUp.RedisCall → Prop
  | .set other stored _ | .setNx other stored _ => other = key ∧ stored = value
  | _ => False

/-- A request that consumed a key. -/
def Takes (key : String) : Event StepUp.RedisReply → Prop
  | ⟨.getDel other, .ok _⟩ => other = key
  | _ => False

/-- An entry after a step was there before and was not consumed, or the step put it. -/
theorem Serves.origin (served : keys.Serves step after) (held : after key = some entry)
    : (keys key = some entry ∧ ¬ Takes key step.event) ∨ Puts key entry.1 step.event.call := by
  have put {other : String} {value : Json} {expiry : Rat}
      (held : keys.put other value expiry key = some entry)
      : keys key = some entry ∨ (other = key ∧ value = entry.1) := by
    by_cases same : key = other
    · subst same
      rw [Expiring.put_self] at held
      cases held
      exact Or.inr ⟨rfl, rfl⟩
    · exact Or.inl ((Expiring.put_other same).symm.trans held)
  have drop {other : String} (held : keys.drop other key = some entry)
      : keys key = some entry ∧ other ≠ key := by
    have differs : key ≠ other := by
      rintro rfl
      rw [Expiring.drop_self] at held
      cases held
    exact ⟨(Expiring.drop_other differs).symm.trans held, differs.symm⟩
  have putNew {other : String} {value : Json} {now expiry : Rat}
      (held : keys.putNew other value now expiry key = some entry)
      : keys key = some entry ∨ (other = key ∧ value = entry.1) := by
    unfold Expiring.putNew at held
    split at held
    · exact Or.inl held
    · exact put held
  unfold Serves at served
  obtain ⟨thread, instant, call, reply⟩ := step
  cases call with
  | time => exact Or.inl ⟨served.2 ▸ held, id⟩
  | uuid => exact Or.inl ⟨served ▸ held, id⟩
  | set other value seconds =>
      cases reply with
      | ok => exact (put (served.2 ▸ held)).imp (fun still => ⟨still, id⟩) id
      | error exn =>
          rcases served with same | ⟨_, same⟩
          · exact Or.inl ⟨same ▸ held, id⟩
          · exact (put (same ▸ held)).imp (fun still => ⟨still, id⟩) id
  | getDel other =>
      cases reply with
      | ok found => exact Or.inl (drop (served.2 ▸ held))
      | error exn =>
          rcases served with same | same
          · exact Or.inl ⟨same ▸ held, id⟩
          · exact Or.inl ⟨(drop (same ▸ held)).1, id⟩
  | setNx other value seconds =>
      cases reply with
      | ok fresh => exact (putNew (served.2.2 ▸ held)).imp (fun still => ⟨still, id⟩) id
      | error exn =>
          rcases served with same | ⟨_, same⟩
          · exact Or.inl ⟨same ▸ held, id⟩
          · exact (putNew (same ▸ held)).imp (fun still => ⟨still, id⟩) id

/-- A key that was set for the first time had no live entry. -/
theorem Serves.fresh {value : Json} {seconds : Int} (served : keys.Serves step after)
    (stored : step.event = ⟨.setNx key value seconds, .ok true⟩)
    : keys.live key step.instant = none
      ∧ after key = some (value, step.instant + seconds) := by
  unfold Serves at served
  rw [stored] at served
  have dead : keys.live key step.instant = none := by simpa using served.2.1
  refine ⟨dead, ?_⟩
  rw [served.2.2, Expiring.putNew_of_live_none dead, Expiring.put_self]

end RedisKeys

end SecureMcp
