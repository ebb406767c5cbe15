import SecureMcp.Edge.Auth
import SecureMcp.Edge.SignedText

/-! What a signature verifies: exactly the requests that ask for what was signed, whatever else they
carry.
-/

namespace SecureMcp

namespace Auth

open Interceptor

/-- A code has hexadecimal digits only. -/
theorem ascii_sha256Hex (secret text : String)
    : ∀ char ∈ (Hmac.sha256Hex secret text).toList, char.toNat < 128 := by
  have digits : ∀ digit < 16, ((Nat.toDigits 16 digit).headD '0').toNat < 128 := by decide
  intro char member
  rw [Hmac.sha256Hex, String.toList_ofList] at member
  unfold Hmac.sha256Chars at member
  obtain ⟨word, _, among⟩ := List.mem_flatMap.mp member
  obtain ⟨shift, _, rfl⟩ := List.mem_map.mp among
  exact digits _ (Nat.mod_lt _ (by decide))

/-- A secret gives the signature of a request exactly when comparing the two succeeds. -/
theorem signedWith_true_iff {request : Presented} {secret : String}
    : request.signedWith secret = .ok true
      ↔ signRequest secret request.tuple = .ok request.signature := by
  refine ⟨Presented.signedWith_true, fun signed => ?_⟩
  obtain ⟨text, _, code⟩ := signRequest_eq_ok signed
  have ascii := ascii_sha256Hex secret text
  rw [← code] at ascii
  unfold Presented.signedWith
  rw [signed]
  have compared : request.signature.toList.all (fun char => char.toNat < 128) := by
    simpa using ascii
  simp [bind, Except.bind, compareDigest, compared]

/-- A request is verified for an identity exactly when it names a key of the identity, which signs its
requests, and presents the signature that the identity's secret gives to what it asks, with a nonce
and a timestamp.
-/
theorem verifySignedRequest_eq_some_iff {engine : PolicyEngine} {message : Params}
    {identityId : String}
    : verifySignedRequest engine message = .ok (some identityId)
      ↔ ∃ request identity,
          presented message = some request
          ∧ request.tuple.nonce ≠ .null
          ∧ request.tuple.timestamp ≠ .null
          ∧ engine.identityForKeyId request.keyId = some identityId
          ∧ engine.identity identityId = some identity
          ∧ identity.authMode = .signed
          ∧ signRequest identity.signingSecret request.tuple = .ok request.signature := by
  constructor
  · intro verified
    unfold verifySignedRequest at verified
    split at verified
    · cases verified
    · next request present =>
        split at verified
        · cases verified
        · next required =>
            simp only [Bool.or_eq_true, decide_eq_true_eq, not_or] at required
            split at verified
            · cases verified
            · next known =>
                split at verified
                · cases verified
                · next identity found =>
                    split at verified
                    · cases verified
                    · next signs =>
                        split at verified
                        · next signed =>
                            cases verified
                            exact ⟨request, identity, present, required.1, required.2, known, found,
                              not_not.mp signs, signedWith_true_iff.mp signed⟩
                        · cases verified
                        · cases verified
  · rintro ⟨request, identity, present, nonce, timestamp, known, found, signs, signed⟩
    simp [verifySignedRequest, present, nonce, timestamp, known, found, signs,
      signedWith_true_iff.mpr signed]

/-- A member of a dictionary is as Python has it. -/
theorem distinct_getKey {fields : Params} (distinct : (Json.obj fields).DistinctKeys) (key : String)
    : (Json.getKey fields key).DistinctKeys := by
  unfold Json.getKey
  cases found : fields.lookup key with
  | none => trivial
  | some value => exact distinct.2.of_mem (Dict.mem_of_lookup found)

theorem distinct_orEmpty {value : Json} (distinct : value.DistinctKeys)
    : value.orEmpty.DistinctKeys := by
  unfold Json.orEmpty
  split
  · exact distinct
  · exact ⟨List.nodup_nil, trivial⟩

/-- What a request asks for is as Python has it when its body is. -/
theorem distinct_presented {message : Params} {request : Presented}
    (distinct : (Json.obj message).DistinctKeys)
    (present : presented message = some request)
    : request.tuple.Distinct := by
  obtain ⟨method, params, metadata, _, isObject, metaObject, tuple⟩ := presented_eq_some present
  have within : (Json.obj params).DistinctKeys :=
    isObject ▸ distinct_orEmpty (distinct_getKey distinct _)
  have inside : (Json.obj metadata).DistinctKeys :=
    metaObject ▸ distinct_orEmpty (distinct_getKey within _)
  have named (key : String)
      : (if method = "tools/call" then Json.getKey params key else .null).DistinctKeys := by
    split
    · exact distinct_getKey within key
    · trivial
  rw [tuple]
  exact ⟨distinct_getKey inside _, distinct_getKey inside _, named _, named _⟩

/-- The codes of two requests bind their texts when equal codes cover equal ones. -/
def CodesBind (secret : String) (tuple other : SignedTuple) : Prop :=
  ∀ text otherText,
    signaturePayload tuple = .ok text
    → signaturePayload other = .ok otherText
    → Hmac.sha256Hex secret text = Hmac.sha256Hex secret otherText
    → text = otherText

/-- A signature that was given to a tuple verifies a request, which presents it under the same key,
exactly when the request has a nonce and a timestamp and asks for what the tuple covers, up to the key
order of objects. The rest of the body is free.
-/
theorem signature_verifies_iff {engine : PolicyEngine} {identityId : String} {identity : Identity}
    {tuple : SignedTuple} {message : Params} {request : Presented}
    (found : engine.identity identityId = some identity) (signs : identity.authMode = .signed)
    (signed : signRequest identity.signingSecret tuple = .ok request.signature)
    (distinct : tuple.Distinct)
    (present : presented message = some request)
    (known : engine.identityForKeyId request.keyId = some identityId)
    (dictionary : (Json.obj message).DistinctKeys)
    (binds : CodesBind identity.signingSecret tuple request.tuple)
    : verifySignedRequest engine message = .ok (some identityId)
      ↔ request.tuple.nonce ≠ .null ∧ request.tuple.timestamp ≠ .null
        ∧ tuple.Same request.tuple := by
  obtain ⟨text, printed, code⟩ := signRequest_eq_ok signed
  have covers := signed_text_iff distinct (distinct_presented dictionary present) printed
  rw [verifySignedRequest_eq_some_iff]
  constructor
  · rintro ⟨_, _, presentAgain, nonce, timestamp, _, foundAgain, _, verified⟩
    cases present.symm.trans presentAgain
    cases found.symm.trans foundAgain
    obtain ⟨other, otherPrinted, otherCode⟩ := signRequest_eq_ok verified
    have same := binds text other printed otherPrinted (code.symm.trans otherCode)
    exact ⟨nonce, timestamp, covers.mp (same ▸ otherPrinted)⟩
  · rintro ⟨nonce, timestamp, same⟩
    refine ⟨request, identity, present, nonce, timestamp, known, found, signs, ?_⟩
    rw [code]
    unfold signRequest
    rw [covers.mpr same]
    rfl

/-- A body that asks for a transfer, with an id and a field of `_meta` that are not signed. -/
def transferBody (signature : String) (arguments : List (String × Json)) : Params :=
  [
    ("id", .int 7),
    ("method", .str "tools/call"),
    ("params", .obj [
      ("name", .str "transfer"),
      ("arguments", .obj arguments),
      ("_meta", .obj [
        ("progressToken", .str "unsigned"),
        (keyIdMetaKey, .str "agent-key"),
        (signatureMetaKey, .str signature),
        (ReplayGuard.nonceMetaKey, .str "0f6e7a52-7d4b-4a53-9e0a-0c1d2e3f4a5b"),
        (ReplayGuard.timestampMetaKey, .int 1700000000)
      ])
    ])
  ]

theorem presented_transferBody (signature : String) (field other : String × Json)
    : presented (transferBody signature [field, other])
      = some ⟨"agent-key", signature, twoArguments [field, other]⟩ :=
  rfl

/-- A client's signature verifies its call with the arguments in another order. -/
theorem signature_verifies_turned_arguments
    : ∃ signature,
        signRequest "signing-secret" (twoArguments [("to", .str "alice"), ("amount", .int 5)])
          = .ok signature
        ∧ verifySignedRequest signedPolicy
            (transferBody signature [("amount", .int 5), ("to", .str "alice")])
          = .ok (some "agent") := by
  have numbers : CanonicalJson.finite
      (twoArguments [("to", .str "alice"), ("amount", .int 5)]).json = true :=
    rfl
  obtain ⟨text, printed⟩ := CanonicalJson.exists_encode numbers
  have turned : (twoArguments [("to", .str "alice"), ("amount", .int 5)]).Same
      (twoArguments [("amount", .int 5), ("to", .str "alice")]) :=
    ⟨.refl _, .refl _, rfl, .refl _,
      .obj (.cons (.refl _) (.cons (.refl _) .nil)) (List.Perm.swap _ _ _)⟩
  have distinct : (twoArguments [("to", .str "alice"), ("amount", .int 5)]).Distinct :=
    ⟨trivial, trivial, trivial, by simp [Dict.keys], trivial, trivial, trivial⟩
  have signed : signRequest signedAgent.signingSecret
      (twoArguments [("to", .str "alice"), ("amount", .int 5)])
      = .ok (Hmac.sha256Hex signedAgent.signingSecret text) := by
    unfold signRequest signaturePayload
    rw [printed]
    rfl
  have dictionary (signature : String)
      : (Json.obj (transferBody signature [("amount", .int 5), ("to", .str "alice")])).DistinctKeys
      := by
    simp [transferBody, Json.DistinctKeys, Json.DistinctFields, Dict.keys, keyIdMetaKey,
      signatureMetaKey, ReplayGuard.nonceMetaKey, ReplayGuard.timestampMetaKey]
  have presents := presented_transferBody (Hmac.sha256Hex signedAgent.signingSecret text)
    ("amount", .int 5) ("to", .str "alice")
  have binds : CodesBind signedAgent.signingSecret
      (twoArguments [("to", .str "alice"), ("amount", .int 5)])
      (twoArguments [("amount", .int 5), ("to", .str "alice")]) := by
    intro one other first second _
    have same := (signed_text_iff distinct (distinct_presented (dictionary _) presents) printed).mpr
      turned
    exact Except.ok.inj (first.symm.trans (printed.trans (same.symm.trans second)))
  have found : signedPolicy.identity "agent" = some signedAgent := rfl
  have known : signedPolicy.identityForKeyId "agent-key" = some "agent" := by decide
  exact ⟨_, signed, (signature_verifies_iff found rfl signed distinct presents known (dictionary _)
    binds).mpr ⟨by simp [twoArguments], by simp [twoArguments], turned⟩⟩

end Auth

end SecureMcp
