import SecureMcp.Edge.Parsed
import SecureMcp.Risk.Frequency

/-! Failed signatures at the edge are counted. An encoding or a comparison that raises leaves the
request without an answer, and the counter as it was.
-/

namespace SecureMcp

open Interaction

namespace Auth

open Interceptor Parsed Risk

/-- One more failure, as far as Redis takes it: an exception of it is logged. -/
def countFailure (settings : RiskSettings) : RiskAsync Unit := do
  let _ ← Coroutine.attempt
    (bump authFailureKey settings.riskAuthFailureWindowSeconds : RiskAsync Int)
  return ()

/-- Whether a request presents a key id or a signature, of whatever type. -/
def presentsKeyMaterial (message : Message) : Bool :=
  match ParsedJson.getKey message "params" with
  | .obj params =>
      match ParsedJson.getKey params "_meta" with
      | .obj metadata =>
          !(ParsedJson.getKey metadata keyIdMetaKey).isNone
          || !(ParsedJson.getKey metadata signatureMetaKey).isNone
      | _ => false
  | _ => false

/-- The identity that signed a request; a failure is counted when the request presents a key id
or a signature.
-/
def verifySignedRequestTracked (settings : RiskSettings) (engine : PolicyEngine)
    (message : Message)
    : RiskAsync (Option String) := do
  let identityId ← Coroutine.ofExcept (Parsed.verifySignedRequest engine message)
  if identityId.isNone && presentsKeyMaterial message then
    countFailure settings
    return identityId
  else return identityId

/-- Redis applied and answered every command. -/
def Available (events : List (Event RiskReply)) : Prop :=
  ∀ event ∈ events,
    (∀ reach, incrReach event = some reach → reach = .applied)
    ∧ ∀ reach, expireReach event = some reach → reach = .applied

/-- Whenever Redis is available, a request has an answer, and one that presents a key id or a
signature and is refused raises the failure counter by one.
-/
def FailsClosed (settings : RiskSettings) (engine : PolicyEngine) (message : Message) : Prop :=
  ∀ redis now events outcome after,
    (verifySignedRequestTracked settings engine message).run.Exec events outcome
    → Program.Served (Redis.Serves now) redis events after
    → Available events
    → ∃ identityId,
        outcome = .ok identityId
        ∧ (identityId = none
          → presentsKeyMaterial message
          → (after authFailureKey).live now = some ((redis authFailureKey).next now))

def Ascii (text : PyText) : Prop :=
  ∀ point ∈ text, ∃ char, point = .char char ∧ char.toNat < 128

/-- The request names a key of an identity that signs, and a nonce and a timestamp, but its
signature is not ASCII, or what it has to cover contains a number that is not finite or a text or a
key with a surrogate.
-/
def Trips (engine : PolicyEngine) (message : Message) : Prop :=
  ∃ request identityId identity,
    Parsed.presented message = some request
    ∧ request.tuple.nonce.isNone = false
    ∧ request.tuple.timestamp.isNone = false
    ∧ identityForKeyId engine request.keyId = some identityId
    ∧ engine.identity identityId = some identity
    ∧ identity.authMode = .signed
    ∧ ¬ (request.tuple.json.encodable ∧ Ascii request.signature)

/-- A presented signature is compared when it is ASCII. -/
theorem compareDigest_isOk_iff (expected : String) (presented : PyText)
    : (Parsed.compareDigest expected presented).isOk ↔ Ascii presented := by
  unfold Parsed.compareDigest
  cases found : presented.string? with
  | none =>
      have lone := presented.isSome_string?
      rw [found] at lone
      refine ⟨nofun, fun ascii => ?_⟩
      have chars : presented.encodable := by
        refine List.all_eq_true.mpr fun point member => ?_
        obtain ⟨char, rfl, _⟩ := ascii point member
        rfl
      rw [chars] at lone
      cases lone
  | some text =>
      have same := PyText.eq_of_string? found
      have small : Ascii presented ↔ ∀ char ∈ text.toList, char.toNat < 128 := by
        simp [Ascii, same, PyText.ofString]
      rw [small]
      simp only [compareDigest]
      split
      · next ascii => simpa [Except.isOk, Except.toBool] using ascii
      · next mixed => simpa [Except.isOk, Except.toBool] using mixed

/-- A signature is compared when it is ASCII and its payload can be encoded. -/
theorem signedWith_isOk_iff (request : Parsed.Presented) (secret : String)
    : (request.signedWith secret).isOk
      ↔ request.tuple.json.encodable ∧ Ascii request.signature := by
  have encoded := request.tuple.json.isOk_encode
  unfold Parsed.Presented.signedWith Parsed.signRequest Parsed.signaturePayload
  cases payload : request.tuple.json.encode with
  | error exn =>
      rw [payload] at encoded
      simp [← encoded, bind, Except.bind, Except.isOk, Except.toBool]
  | ok text =>
      rw [payload] at encoded
      simp only [← encoded, bind, Except.bind, pure, Except.pure, compareDigest_isOk_iff]
      simp [Except.isOk, Except.toBool]

/-- Verification raises exactly for the requests that trip it. -/
theorem verifySignedRequest_isOk_iff {engine : PolicyEngine} {message : Message}
    : (Parsed.verifySignedRequest engine message).isOk ↔ ¬ Trips engine message := by
  refine ⟨?_, ?_⟩
  · intro answered ⟨request, identityId, identity, present, nonce, timestamp, known, found, signs,
      unsigned⟩
    apply unsigned
    rw [← signedWith_isOk_iff request identity.signingSecret]
    simp only [Parsed.verifySignedRequest, present, nonce, timestamp, Bool.or_self,
      Bool.false_eq_true, if_false, known, found, signs, ne_eq, not_true] at answered
    cases compared : request.signedWith identity.signingSecret with
    | ok same => rfl
    | error exn =>
        rw [compared] at answered
        exact answered
  · intro clean
    unfold Parsed.verifySignedRequest
    split
    · rfl
    · next request present =>
        split
        · rfl
        · next required =>
            split
            · rfl
            · next identityId known =>
                split
                · rfl
                · next identity found =>
                    split
                    · rfl
                    · next signs =>
                        split
                        · rfl
                        · rfl
                        · next exn raised =>
                            exfalso
                            simp only [Bool.or_eq_true, not_or, Bool.not_eq_true] at required
                            refine clean ⟨request, identityId, identity, present, required.1,
                              required.2, known, found, not_not.mp signs, ?_⟩
                            rw [← signedWith_isOk_iff request identity.signingSecret, raised]
                            exact Bool.false_ne_true

section

variable {settings : RiskSettings} {engine : PolicyEngine} {message : Message} {redis after : Redis}
  {now : Rat} {events : List (Event RiskReply)}

/-- A failure that Redis takes is counted, and never raises. -/
theorem countFailure_served {outcome : Except Exn Unit}
    (exec : (countFailure settings).run.Exec events outcome)
    (served : Program.Served (Redis.Serves now) redis events after) (available : Available events)
    : outcome = .ok () ∧ (after authFailureKey).live now = some ((redis authFailureKey).next now) := by
  obtain ⟨first, rest, ended, split, bumped, returned⟩ :=
    Coroutine.exec_attempt_bind_iff.mp exec
  obtain ⟨rfl, same⟩ := Program.exec_done_iff.mp returned
  rw [List.append_nil] at split
  subst split
  refine ⟨same.symm, ?_⟩
  rw [(bump_served bumped served).1, Redis.set_same]
  obtain ⟨reply, more, rfl, _⟩ := Coroutine.exec_demand_bind bumped
  have applied := (available _ List.mem_cons_self).1 reply.reach rfl
  have counted : (hitOf now (⟨.incr authFailureKey, reply⟩ :: more)).Counted := by
    simp [WindowCounter.Hit.Counted, hitOf, incrReach, applied]
  exact WindowCounter.Counter.live_hit counted (Nat.cast_nonneg _)

/-- A request that is answered fails closed. -/
theorem failsClosed_of_isOk (answered : (Parsed.verifySignedRequest engine message).isOk)
    : FailsClosed settings engine message := by
  intro redis now events outcome after exec served available
  unfold verifySignedRequestTracked at exec
  cases verified : Parsed.verifySignedRequest engine message with
  | error exn =>
      rw [verified] at answered
      exact absurd answered Bool.false_ne_true
  | ok identityId =>
      rw [verified, Coroutine.ofExcept_ok_bind] at exec
      split at exec
      · obtain ⟨stop, _, counted⟩
            | ⟨first, rest, value, middle, split, counted, early, returned, late⟩ :=
          Coroutine.exec_bind_served exec served
        · have ended := (countFailure_served counted served available).1
          cases ended
        · obtain ⟨rfl, same⟩ := Program.exec_done_iff.mp returned
          rw [List.append_nil] at split
          subst split
          have bumped := (countFailure_served counted early available).2
          have unchanged := Program.served_nil_iff.mp late
          exact ⟨identityId, same.symm, fun _ _ => unchanged ▸ bumped⟩
      · next uncounted =>
          obtain ⟨_, same⟩ := Program.exec_done_iff.mp exec
          refine ⟨identityId, same.symm, ?_⟩
          intro refused presents
          simp [refused, presents] at uncounted

/-- A request that trips its verification has no answer. -/
theorem not_failsClosed_of_trips (trips : Trips engine message)
    : ¬ FailsClosed settings engine message := by
  intro closed
  cases verified : Parsed.verifySignedRequest engine message with
  | ok identityId =>
      have answered : (Parsed.verifySignedRequest engine message).isOk := by
        rw [verified]
        rfl
      exact verifySignedRequest_isOk_iff.mp answered trips
  | error exn =>
      have raised
          : (verifySignedRequestTracked settings engine message).run.Exec [] (.error exn) := by
        unfold verifySignedRequestTracked
        rw [verified, Coroutine.ofExcept_error_bind]
        exact .done _
      have idle : Available [] := by
        simp [Available]
      obtain ⟨identityId, same, _⟩ := closed (fun _ => none) 0 [] _ _ raised (.nil _) idle
      cases same

/-- A request fails closed exactly when it does not trip its verification. -/
theorem failsClosed_iff : FailsClosed settings engine message ↔ ¬ Trips engine message := by
  refine ⟨?_, ?_⟩
  · intro closed trips
    exact not_failsClosed_of_trips trips closed
  · intro clean
    exact failsClosed_of_isOk (verifySignedRequest_isOk_iff.mpr clean)

end

def signingAgent : PolicyEngine where
  policy := {
    version := 1
    identities := [
      { id := "agent", authMode := .signed, keyId := some "kid_agent", signingSecret := "secret" }
    ]
  }

def postedField (key : String) (value : ParsedJson) : PyText × ParsedJson :=
  (.ofString key, value)

def postedCall (signature : PyText) (amount : ParsedJson) : Message :=
  [
    postedField "jsonrpc" (.str (.ofString "2.0")),
    postedField "id" (.int 1),
    postedField "method" (.str (.ofString "tools/call")),
    postedField "params" (.obj [
      postedField "name" (.str (.ofString "send")),
      postedField "arguments" (.obj [postedField "amount" amount]),
      postedField "_meta" (.obj [
        postedField keyIdMetaKey (.str (.ofString "kid_agent")),
        postedField signatureMetaKey (.str signature),
        postedField ReplayGuard.nonceMetaKey
          (.str (.ofString "11111111-1111-4111-8111-111111111111")),
        postedField ReplayGuard.timestampMetaKey (.int 1000)
      ])
    ])
  ]

/-- What the call presents can be read off it. -/
theorem trips_postedCall {signature : PyText} {amount : ParsedJson}
    (unsigned : ¬ (amount.encodable ∧ Ascii signature))
    : Trips signingAgent (postedCall signature amount) := by
  refine ⟨{
    keyId := .ofString "kid_agent"
    signature := signature
    tuple := {
      nonce := .str (.ofString "11111111-1111-4111-8111-111111111111")
      timestamp := .int 1000
      method := .ofString "tools/call"
      tool := .str (.ofString "send")
      arguments := .obj [postedField "amount" amount]
    }
  }, "agent", _, rfl, rfl, rfl, rfl, rfl, rfl, ?_⟩
  intro both
  refine unsigned ⟨?_, both.2⟩
  have encodable := both.1
  simp only [Parsed.SignedTuple.json, ParsedJson.encodable, ParsedJson.encodableFields, postedField,
    Bool.and_eq_true] at encodable
  exact encodable.2.2.2.2.1.2.1.2

/-- A signature with a letter that is not ASCII, and a wrong one over an amount that is NaN or a
text with a surrogate, are neither refused nor counted.
-/
theorem forged_signatures_raise
    : ¬ FailsClosed {} signingAgent (postedCall (.ofString "é") (.int 1))
      ∧ ¬ FailsClosed {} signingAgent (postedCall (.ofString "00") (.float .nan))
      ∧ ¬ FailsClosed {} signingAgent (postedCall (.ofString "00") (.str [.surrogate 0])) := by
  refine ⟨not_failsClosed_of_trips (trips_postedCall ?_),
    not_failsClosed_of_trips (trips_postedCall ?_),
    not_failsClosed_of_trips (trips_postedCall ?_)⟩
  · intro both
    obtain ⟨char, same, small⟩ := both.2 (.char 'é') (by simp [PyText.ofString])
    cases same
    exact absurd small (by decide)
  · intro both
    cases both.1
  · intro both
    cases both.1

end Auth

end SecureMcp
