import Mathlib.Tactic.Linarith
import SecureMcp.StepUp.Challenges

/-! One code answers one challenge: a used code is remembered for longer than it is valid, unless
a request consumes the record of its use as if it were a challenge.
-/

namespace SecureMcp

open Interaction

namespace StepUp

variable {key challengeId identityId code : String}

theorem codeDedupKey_eq : codeDedupKey identityId code
    = challengeKey ("code:" ++ identityId ++ ":" ++ code) := by
  simp [codeDedupKey, challengeKey, ← String.toList_inj]

theorem challengeKey_injective {one two : String} (same : challengeKey one = challengeKey two)
    : one = two := by
  simpa [challengeKey, ← String.toList_inj] using same

/-- No fresh id makes a challenge's key that of a used code. -/
theorem challengeKey_uuid_ne (fresh : UuidHex)
    : challengeKey fresh.text ≠ codeDedupKey identityId code := by
  rw [codeDedupKey_eq]
  intro same
  have text := congrArg String.toList (challengeKey_injective same)
  have digit := fresh.hexadecimal 'o' (by simp [text])
  revert digit
  decide

theorem asks_verifyTotp {secretB32 : String} {proof : Json}
    : (verifyTotp secretB32 proof).run.Asks (Spares key) := by
  unfold verifyTotp
  split
  · exact Coroutine.asks_bind (Coroutine.asks_ask trivial) (fun now => Coroutine.asks_ofExcept _)
  · exact Coroutine.asks_pure _

theorem asks_spendCode {call : CallKey} {proof : Json}
    : (spendCode call proof).run.Asks (Spares key) :=
  Coroutine.asks_bind (Coroutine.asks_demand _ trivial) (fun _ => Coroutine.asks_pure _)

/-- The requests of a call leave the record of a used code alone, unless the id that it redeems
spells out the record's key.
-/
theorem asks_handle {settings : Settings} {request : Request}
    (plain : ∀ challengeId call hash proof secret,
      request = .redeem challengeId call hash proof secret
      → challengeId ≠ "code:" ++ identityId ++ ":" ++ code)
    : (handle settings request).run.Asks (Spares (codeDedupKey identityId code)) := by
  cases request with
  | create call hash auditId =>
      refine Coroutine.asks_bind ?_ (fun challengeId => Coroutine.asks_pure _)
      refine Coroutine.asks_bind (Coroutine.asks_ask trivial) (fun fresh => ?_)
      refine Coroutine.asks_bind (Coroutine.asks_demand _ (challengeKey_uuid_ne fresh))
        (fun _ => Coroutine.asks_pure _)
  | redeem challengeId call hash proof secret =>
      have differs : challengeKey challengeId ≠ codeDedupKey identityId code := by
        rw [codeDedupKey_eq]
        intro same
        exact plain _ _ _ _ _ rfl (challengeKey_injective same)
      refine Coroutine.asks_bind ?_ (fun denial => Coroutine.asks_pure _)
      refine Coroutine.asks_bind (Coroutine.asks_demand _ differs) (fun raw => ?_)
      split
      · exact Coroutine.asks_pure _
      · refine Coroutine.asks_bind (Coroutine.asks_ofExcept _) (fun elsewhere => ?_)
        split
        · exact Coroutine.asks_pure _
        · refine Coroutine.asks_bind (Coroutine.asks_ofExcept _) (fun stored => ?_)
          split
          · exact Coroutine.asks_pure _
          · split
            · exact Coroutine.asks_pure _
            · refine Coroutine.asks_bind asks_verifyTotp (fun valid => ?_)
              split
              · exact asks_spendCode
              · exact Coroutine.asks_pure _

-----------------------------------------------------------------------------------------
-- Accepted redemptions
-----------------------------------------------------------------------------------------

variable {call : CallKey} {hash secretB32 : String} {proof : Json}
  {events : List (Event RedisReply)}

/-- A valid proof is a code of one of the steps around the instant at which it was verified. -/
theorem exec_verifyTotp_true (exec : (verifyTotp secretB32 proof).run.Exec events (.ok true))
    : ∃ code secret now,
        proof = .str code
        ∧ decodeTotpSecret secretB32 = some secret
        ∧ events = [⟨.time, now⟩]
        ∧ verifySteps secret code (totpCounter now) totpSkewSteps = .ok true := by
  unfold verifyTotp at exec
  split at exec
  · next code secret decoded =>
      obtain ⟨now, rest, same, verified⟩ := Coroutine.exec_ask_bind_iff.mp exec
      obtain ⟨empty, valid⟩ := Program.exec_done_iff.mp verified
      exact ⟨code, secret, now, rfl, decoded, by rw [same, empty], valid⟩
  · obtain ⟨_, impossible⟩ := Program.exec_done_iff.mp exec
    cases impossible

theorem exec_spendCode_none (exec : (spendCode call proof).run.Exec events (.ok none))
    : events
      = [⟨.setNx (codeDedupKey call.identityId proof.pyStr) (.int 1) codeDedupTtlSeconds,
          .ok true⟩] := by
  obtain ⟨first, second, fresh, same, stored, ended⟩ := Coroutine.exec_bind_ok_iff.mp exec
  obtain ⟨reply, single, answered⟩ := Coroutine.exec_demand_iff.mp stored
  have granted : reply = .ok fresh := answered
  obtain ⟨empty, result⟩ := Program.exec_done_iff.mp ended
  cases fresh with
  | false => cases result
  | true => rw [same, single, empty, granted, List.append_nil]

/-- What a redemption that is accepted found and did. -/
theorem exec_redeem_none
    (whole : (redeem challengeId call hash proof secretB32).run.Exec events (.ok none))
    : ∃ record code secret now,
        proof = .str code
        ∧ decodeTotpSecret secretB32 = some secret
        ∧ issuedElsewhere record call = .ok false
        ∧ record.item "arguments_hash" = .ok (.str hash)
        ∧ verifySteps secret code (totpCounter now) totpSkewSteps = .ok true
        ∧ events =
            [
              ⟨.getDel (challengeKey challengeId), .ok (some record)⟩,
              ⟨.time, now⟩,
              ⟨.setNx (codeDedupKey call.identityId code) (.int 1) codeDedupTtlSeconds, .ok true⟩
            ] := by
  obtain ⟨taken, _, raw, rfl, asked, exec⟩ := Coroutine.exec_bind_ok_iff.mp whole
  obtain ⟨reply, rfl, answered⟩ := Coroutine.exec_demand_iff.mp asked
  have found : reply = .ok raw := answered
  subst found
  cases raw with
  | none =>
      obtain ⟨_, impossible⟩ := Program.exec_done_iff.mp exec
      cases impossible
  | some record =>
      obtain ⟨elsewhere, issued, exec⟩ := Coroutine.exec_ofExcept_bind_ok_iff.mp exec
      split at exec
      · obtain ⟨_, impossible⟩ := Program.exec_done_iff.mp exec
        cases impossible
      · next here =>
          obtain ⟨stored, hashed, exec⟩ := Coroutine.exec_ofExcept_bind_ok_iff.mp exec
          split at exec
          · obtain ⟨_, impossible⟩ := Program.exec_done_iff.mp exec
            cases impossible
          · next unchanged =>
              split at exec
              · obtain ⟨_, impossible⟩ := Program.exec_done_iff.mp exec
                cases impossible
              · obtain ⟨verifying, _, valid, rfl, verified, spent⟩ :=
                  Coroutine.exec_bind_ok_iff.mp exec
                split at spent
                · next valid =>
                    subst valid
                    obtain ⟨code, secret, now, isCode, decoded, rfl, steps⟩ :=
                      exec_verifyTotp_true verified
                    subst isCode
                    refine ⟨record, code, secret, now, rfl, decoded, ?_, ?_, steps, ?_⟩
                    · rw [issued, Bool.eq_false_of_not_eq_true here]
                    · rw [hashed, not_not.mp unchanged]
                    · rw [exec_spendCode_none spent]
                      rfl
                · obtain ⟨_, impossible⟩ := Program.exec_done_iff.mp spent
                  cases impossible

/-- A redemption that passes its checks is accepted when its code is fresh. -/
theorem exec_redeem_of_valid {record : Json} {code : String} {secret : List Nat} {now : Rat}
    (issued : issuedElsewhere record call = .ok false)
    (hashed : record.item "arguments_hash" = .ok (.str hash)) (configured : secretB32 ≠ "")
    (decoded : decodeTotpSecret secretB32 = some secret)
    (verified : verifySteps secret code (totpCounter now) totpSkewSteps = .ok true) (fresh : Bool)
    : (redeem challengeId call hash (.str code) secretB32).run.Exec
        [
          ⟨.getDel (challengeKey challengeId), .ok (some record)⟩,
          ⟨.time, now⟩,
          ⟨.setNx (codeDedupKey call.identityId code) (.int 1) codeDedupTtlSeconds, .ok fresh⟩
        ]
        (.ok (if fresh then none else some "TOTP code has already been used")) := by
  refine Coroutine.exec_bind_ok_iff.mpr ⟨[_], _, some record, rfl,
    Coroutine.exec_demand_iff.mpr ⟨.ok (some record), rfl, rfl⟩, ?_⟩
  refine Coroutine.exec_ofExcept_bind_ok_iff.mpr ⟨false, issued, ?_⟩
  refine Coroutine.exec_ofExcept_bind_ok_iff.mpr ⟨.str hash, hashed, ?_⟩
  rw [if_neg (fun differs => differs rfl), if_neg configured]
  refine Coroutine.exec_bind_ok_iff.mpr ⟨[⟨.time, now⟩], [_], true, rfl, ?_, .ask (.done _)⟩
  unfold verifyTotp
  rw [decoded]
  refine Coroutine.exec_ask_bind_iff.mpr ⟨now, [], rfl, ?_⟩
  rw [verified]
  exact .done _

theorem handle_redeem {settings : Settings} {denial : Option String}
    (exec : (redeem challengeId call hash proof secretB32).run.Exec events (.ok denial))
    : (handle settings (.redeem challengeId call hash proof secretB32)).run.Exec events
        (.ok (.redeemed denial)) :=
  Coroutine.exec_bind_ok_iff.mpr ⟨events, [], denial, by simp, exec, .done _⟩

theorem accepted_redeem {settings : Settings}
    (exec : (handle settings (.redeem challengeId call hash proof secretB32)).run.Exec events
      (.ok (.redeemed none)))
    : (redeem challengeId call hash proof secretB32).run.Exec events (.ok none) := by
  obtain ⟨first, second, denial, same, redeemed, ended⟩ := Coroutine.exec_bind_ok_iff.mp exec
  obtain ⟨empty, result⟩ := Program.exec_done_iff.mp ended
  cases result
  rw [same, empty, List.append_nil]
  exact redeemed

/-- A code verifies at an instant for a counter: it is the counter's code, and the step of the
instant is that counter or next to it.
-/
structure Verifies (secret : List Nat) (code : String) (counter : Int) (instant : Rat) : Prop where
  code : hotp secret counter = .ok code
  notEarly : counter - 1 ≤ totpCounter instant
  notLate : totpCounter instant ≤ counter + 1

/-- A code verifies for the step that it was found for, by induction on the steps tried. -/
theorem exists_of_verifySteps {secret : List Nat} {counter : Int} {skews : List Int}
    (verified : verifySteps secret code counter skews = .ok true)
    : ∃ skew ∈ skews, hotp secret (counter + skew) = .ok code := by
  induction skews with
  | nil => cases verified
  | cons skew rest ih =>
      unfold verifySteps at verified
      cases expected : hotp secret (counter + skew) with
      | error exn =>
          rw [expected] at verified
          cases verified
      | ok text =>
          rw [expected] at verified
          cases compared : compareDigest text code with
          | error exn => simp [compared, bind, Except.bind] at verified
          | ok same =>
              simp only [compared, bind, Except.bind] at verified
              cases same with
              | true =>
                  refine ⟨skew, List.mem_cons_self, ?_⟩
                  rw [expected, eq_of_compareDigest compared]
              | false =>
                  obtain ⟨found, member, isCode⟩ := ih verified
                  exact ⟨found, List.mem_cons_of_mem _ member, isCode⟩

/-- The acceptance window of a counter is three steps. -/
theorem instant_bounds {counter : Int} {read done : Rat} (notEarly : counter - 1 ≤ totpCounter read)
    (notLate : totpCounter done ≤ counter + 1)
    : done < read + codeDedupTtlSeconds := by
  have start : ((counter - 1 : Int) : Rat) ≤ read / totpStepSeconds := Rat.le_floor_iff.mp notEarly
  have finish : done / totpStepSeconds < ((counter + 2 : Int) : Rat) :=
    Rat.floor_lt_iff.mp (by unfold totpCounter at notLate; omega)
  norm_num [totpStepSeconds, codeDedupTtlSeconds] at start finish ⊢
  linarith only [start, finish]

end StepUp

/-- Concurrent calls of the challenge store, and all of their events. -/
structure StoreRun (ι : Type) where
  request : ι → StepUp.Request
  trace : List (Stamped ι StepUp.RedisReply)

namespace StoreRun

open StepUp

variable {ι : Type} [DecidableEq ι]

/-- Every call has got as far as its events. -/
def UnderWay (settings : Settings) (run : StoreRun ι) : Prop :=
  ∀ thread, ∃ later outcome,
    (handle settings (run.request thread)).run.Exec (eventsOf thread run.trace ++ later) outcome

/-- An accepted redemption by an identity with a code: the clock was read at `read`, and the
code was spent at `done`.
-/
structure Succeeds (settings : Settings) (run : StoreRun ι) (thread : ι)
    (identityId code : String) (secret : List Nat) (read done : Rat)
    : Prop where
  request : ∃ challengeId call hash secretB32,
    run.request thread = .redeem challengeId call hash (.str code) secretB32
    ∧ call.identityId = identityId
    ∧ decodeTotpSecret secretB32 = some secret
  accepted :
    (handle settings (run.request thread)).run.Exec (eventsOf thread run.trace)
      (.ok (.redeemed none))
  instants : ∃ taken, (stepsOf thread run.trace).map Stamped.instant = [taken, read, done]

/-- After an accepted redemption with a code, no later one by the same identity is accepted with
it while it still verifies for the same counter.
-/
def AnswersOnce (settings : Settings) (run : StoreRun ι) (identityId code : String) : Prop :=
  ∀ one two secret other readOne doneOne readTwo doneTwo counter,
    run.Succeeds settings one identityId code secret readOne doneOne
    → run.Succeeds settings two identityId code other readTwo doneTwo
    → Verifies secret code counter readOne
    → doneOne ≤ doneTwo
    → Verifies secret code counter doneTwo
    → one = two

section

variable {settings : Settings} {run : StoreRun ι} {keys final : RedisKeys} {thread : ι}
  {identityId code : String} {secret : List Nat} {read done : Rat}

/-- An accepted redemption spends its code, not before it reads the clock. -/
theorem Succeeds.spends
    (succeeds : run.Succeeds settings thread identityId code secret read done)
    (inOrder : InOrder run.trace)
    : read ≤ done
      ∧ ∃ step ∈ run.trace,
          step.thread = thread
          ∧ step.instant = done
          ∧ step.event
            = ⟨.setNx (codeDedupKey identityId code) (.int 1) codeDedupTtlSeconds, .ok true⟩ := by
  obtain ⟨⟨challengeId, call, hash, secretB32, request, rfl, _⟩, accepted, taken, instants⟩ :=
    succeeds
  rw [request] at accepted
  obtain ⟨record, _, _, now, isCode, _, _, _, _, events⟩ := exec_redeem_none (accepted_redeem accepted)
  cases isCode
  obtain ⟨first, rest, steps, _, tail⟩ := List.map_eq_cons_iff.mp events
  obtain ⟨second, last, rfl, _, tail⟩ := List.map_eq_cons_iff.mp tail
  obtain ⟨third, none, rfl, spent, tail⟩ := List.map_eq_cons_iff.mp tail
  cases List.map_eq_nil_iff.mp tail
  rw [steps] at instants
  simp only [List.map_cons, List.map_nil, List.cons.injEq, and_true] at instants
  obtain ⟨_, rfl, rfl⟩ := instants
  obtain ⟨inTrace, ofThread⟩ := thread_of_stepsOf (steps ▸ by simp : third ∈ stepsOf thread run.trace)
  have ordered : InOrder (stepsOf thread run.trace) := List.Pairwise.filter _ inOrder
  rw [steps] at ordered
  refine ⟨?_, third, inTrace, ofThread, rfl, spent⟩
  exact (List.pairwise_cons.mp (List.pairwise_cons.mp ordered).2).1 third List.mem_cons_self

/-- No call disturbs the record of a used code, when none redeems an id that spells it out. -/
theorem spares_of_plain (underWay : run.UnderWay settings)
    (plain : ∀ thread challengeId call hash proof secretB32,
      run.request thread = .redeem challengeId call hash proof secretB32
      → challengeId ≠ "code:" ++ identityId ++ ":" ++ code)
    : ∀ step ∈ run.trace, Spares (codeDedupKey identityId code) step.event.call := by
  intro step member
  obtain ⟨later, outcome, exec⟩ := underWay step.thread
  have asks : (handle settings (run.request step.thread)).run.Asks
      (Spares (codeDedupKey identityId code)) := asks_handle (plain step.thread)
  exact exec.asks asks step.event (List.mem_append_left _ (event_mem_eventsOf member))

omit [DecidableEq ι] in
/-- Of two redemptions that spend one code, the later one is done when the record of the first
has expired.
-/
theorem expired_between {before middle later : List (Stamped ι RedisReply)}
    {one two : Stamped ι RedisReply} {key : String}
    (served : Machine.Run RedisKeys.Serves keys (before ++ one :: (middle ++ two :: later)) final)
    (inOrder : InOrder (before ++ one :: (middle ++ two :: later)))
    (spares : ∀ step ∈ before ++ one :: (middle ++ two :: later), Spares key step.event.call)
    (first : one.event = ⟨.setNx key (.int 1) codeDedupTtlSeconds, .ok true⟩)
    (second : two.event = ⟨.setNx key (.int 1) codeDedupTtlSeconds, .ok true⟩)
    : one.instant + codeDedupTtlSeconds < two.instant :=
  Expiring.expired_between served inOrder (fun _ _ served => (served.fresh first).2)
    (fun _ _ served => (served.fresh second).1)
    (fun _ _ step member served held => served.kept (spares step (by simp [member])) held)

end

/-- A code answers one challenge when no request redeems an id that spells out its record. -/
theorem answersOnce_of_plain {settings : Settings} {run : StoreRun ι} {keys final : RedisKeys}
    {identityId code : String}
    (served : Machine.Run RedisKeys.Serves keys run.trace final) (inOrder : InOrder run.trace)
    (underWay : run.UnderWay settings)
    (plain : ∀ thread challengeId call hash proof secretB32,
      run.request thread = .redeem challengeId call hash proof secretB32
      → challengeId ≠ "code:" ++ identityId ++ ":" ++ code)
    : run.AnswersOnce settings identityId code := by
  intro one two secret other readOne doneOne readTwo doneTwo counter first second verifies later
    still
  have spares := spares_of_plain underWay plain
  obtain ⟨_, spendOne, inTrace, ofOne, atOne, spending⟩ := first.spends inOrder
  obtain ⟨_, spendTwo, alsoInTrace, ofTwo, atTwo, spendingAgain⟩ := second.spends inOrder
  have window := instant_bounds verifies.notEarly still.notLate
  by_contra differ
  have apart : spendOne ≠ spendTwo := by
    rintro rfl
    exact differ (ofOne.symm.trans ofTwo)
  have lifetime : (0 : Rat) < codeDedupTtlSeconds := by decide +kernel
  rcases before_or_after inTrace alsoInTrace apart with ⟨_, _, _, split⟩ | ⟨_, _, _, split⟩
  · rw [split] at served inOrder spares
    have expired := expired_between served inOrder spares spending spendingAgain
    linarith
  · rw [split] at served inOrder spares
    have expired := expired_between served inOrder spares spendingAgain spending
    linarith

-----------------------------------------------------------------------------------------
-- A code whose record is consumed
-----------------------------------------------------------------------------------------

def issueCall : CallKey := ⟨"alice", "github", "create_issue"⟩

/-- The base32 form of `12345678901234567890`. -/
def sharedSecret : String := "GEZDGNBVGY3TQOJQGEZDGNBVGY3TQOJQ"

/-- The shared secret's code of the step from 30 to 60 seconds. -/
def usedCode : String := "287082"

def sharedKey : List Nat := "12345678901234567890".toList.map Char.toNat

theorem decode_sharedSecret : decodeTotpSecret sharedSecret = some sharedKey := by
  decide +kernel

theorem verify_usedCode {now : Rat} (step : totpCounter now = 1)
    : verifySteps sharedKey usedCode (totpCounter now) totpSkewSteps = .ok true := by
  rw [step]
  decide +kernel

def firstId : UuidHex where
  text := "aaaaaaaaaaaaaaaaaaaaaaaaaaaaaaaa"
  hexadecimal := hexadecimal_of_all (by decide +kernel)

def secondId : UuidHex where
  text := "bbbbbbbbbbbbbbbbbbbbbbbbbbbbbbbb"
  hexadecimal := hexadecimal_of_all (by decide +kernel)

/-- Two challenges are issued, and the code answers the first one. -/
def answeredFirst : List (Stamped (Fin 5) RedisReply) :=
  [
    ⟨0, 40, ⟨.uuid, firstId⟩⟩,
    ⟨0, 40, ⟨.set (challengeKey firstId.text) (challengeRecord issueCall "hash" 1) 300, .ok ()⟩⟩,
    ⟨1, 40, ⟨.uuid, secondId⟩⟩,
    ⟨1, 40, ⟨.set (challengeKey secondId.text) (challengeRecord issueCall "hash" 2) 300, .ok ()⟩⟩,
    ⟨2, 45, ⟨.getDel (challengeKey firstId.text), .ok (some (challengeRecord issueCall "hash" 1))⟩⟩,
    ⟨2, 45, ⟨.time, 45⟩⟩,
    ⟨2, 45, ⟨.setNx (codeDedupKey "alice" usedCode) (.int 1) 90, .ok true⟩⟩
  ]

/-- Then an id is redeemed, and the code is presented for the second challenge. -/
def presentedTwice (between : String) (found : Option Json) (fresh : Bool) : StoreRun (Fin 5) where
  request
    | 0 => .create issueCall "hash" 1
    | 1 => .create issueCall "hash" 2
    | 2 => .redeem firstId.text issueCall "hash" (.str usedCode) sharedSecret
    | 3 => .redeem between issueCall "hash" (.str usedCode) sharedSecret
    | 4 => .redeem secondId.text issueCall "hash" (.str usedCode) sharedSecret
  trace :=
    answeredFirst
    ++ [
      ⟨3, 46, ⟨.getDel (challengeKey between), .ok found⟩⟩,
      ⟨4, 47, ⟨.getDel (challengeKey secondId.text), .ok (some (challengeRecord issueCall "hash" 2))⟩⟩,
      ⟨4, 47, ⟨.time, 47⟩⟩,
      ⟨4, 47, ⟨.setNx (codeDedupKey "alice" usedCode) (.int 1) 90, .ok fresh⟩⟩
    ]

/-- What Redis keeps after the first answer. -/
def answeredKeys : RedisKeys :=
  (((Expiring.put (fun _ => none) (challengeKey firstId.text)
    (challengeRecord issueCall "hash" 1) 340).put (challengeKey secondId.text)
    (challengeRecord issueCall "hash" 2) 340).drop (challengeKey firstId.text)).putNew
    (codeDedupKey "alice" usedCode) (.int 1) 45 135

theorem run_answeredFirst
    : Machine.Run RedisKeys.Serves (fun _ => none) answeredFirst answeredKeys :=
  have first : (40 : Rat) + (300 : Int) = 340 := by decide +kernel
  have spent : (45 : Rat) + (90 : Int) = 135 := by decide +kernel
  .cons rfl (.cons ⟨by decide, by rw [first]⟩ (.cons rfl (.cons ⟨by decide, by rw [first]⟩
    (.cons ⟨by decide +kernel, rfl⟩ (.cons ⟨rfl, rfl⟩
    (.cons ⟨by decide, by decide +kernel, by rw [answeredKeys, spent]⟩ .nil))))))

theorem inOrder_presentedTwice {between : String} {found : Option Json} {fresh : Bool}
    : InOrder (presentedTwice between found fresh).trace := by
  simp [InOrder, presentedTwice, answeredFirst]
  norm_num

/-- Each presentation of the code passes its checks. -/
theorem exec_presented {challengeId : String} {auditId : Nat} {now : Rat}
    (step : totpCounter now = 1) (fresh : Bool)
    : (handle {} (.redeem challengeId issueCall "hash" (.str usedCode) sharedSecret)).run.Exec
        [
          ⟨.getDel (challengeKey challengeId),
            .ok (some (challengeRecord issueCall "hash" auditId))⟩,
          ⟨.time, now⟩,
          ⟨.setNx (codeDedupKey "alice" usedCode) (.int 1) 90, .ok fresh⟩
        ]
        (.ok (.redeemed (if fresh then none else some "TOTP code has already been used"))) :=
  handle_redeem (exec_redeem_of_valid rfl rfl (by decide) decode_sharedSecret
    (verify_usedCode step) fresh)

theorem underWay_presentedTwice {between : String} {found : Option Json} {fresh : Bool}
    (exec : ∃ outcome, (handle {} (.redeem between issueCall "hash" (.str usedCode)
      sharedSecret)).run.Exec [⟨.getDel (challengeKey between), .ok found⟩] outcome)
    : (presentedTwice between found fresh).UnderWay {} := by
  intro thread
  match thread with
  | 0 => exact ⟨[], _, .ask (.ask (.done _))⟩
  | 1 => exact ⟨[], _, .ask (.ask (.done _))⟩
  | 2 => exact ⟨[], _, exec_presented (by decide +kernel) true⟩
  | 3 =>
      obtain ⟨outcome, exec⟩ := exec
      exact ⟨[], outcome, exec⟩
  | 4 => exact ⟨[], _, exec_presented (by decide +kernel) fresh⟩

/-- The first presentation of the code is accepted. -/
theorem succeeds_presentedTwice {between : String} {found : Option Json} {fresh : Bool}
    : (presentedTwice between found fresh).Succeeds {} 2 "alice" usedCode sharedKey 45 45 :=
  ⟨⟨_, _, _, _, rfl, rfl, decode_sharedSecret⟩, exec_presented (by decide +kernel) true, _, rfl⟩

/-- Witness: a code that is presented for a second challenge is refused. -/
theorem second_presentation_refused
    : (presentedTwice "stale" none false).Succeeds {} 2 "alice" usedCode sharedKey 45 45
      ∧ (presentedTwice "stale" none false).AnswersOnce {} "alice" usedCode := by
  have served : ∃ final, Machine.Run RedisKeys.Serves (fun _ => none)
      (presentedTwice "stale" none false).trace final :=
    ⟨_, run_answeredFirst.append (.cons ⟨by decide +kernel, rfl⟩
      (.cons ⟨by decide +kernel, rfl⟩ (.cons ⟨rfl, rfl⟩
      (.cons ⟨by decide, by decide +kernel, rfl⟩ .nil))))⟩
  obtain ⟨_, served⟩ := served
  refine ⟨succeeds_presentedTwice, answersOnce_of_plain served inOrder_presentedTwice
    (underWay_presentedTwice ⟨_, .ask (.done _)⟩) ?_⟩
  intro thread challengeId call hash proof secretB32 request
  match thread with
  | 0 | 1 => cases request
  | 2 | 3 | 4 =>
      cases request
      decide

/-- A request that redeems the id which spells out the record of a used code consumes it, and
the code answers a second challenge two seconds later.
-/
theorem consumed_record_admits_code
    : ∃ final,
        Machine.Run RedisKeys.Serves (fun _ => none)
          (presentedTwice ("code:alice:" ++ usedCode) (some (.int 1)) true).trace final
        ∧ InOrder (presentedTwice ("code:alice:" ++ usedCode) (some (.int 1)) true).trace
        ∧ (presentedTwice ("code:alice:" ++ usedCode) (some (.int 1)) true).UnderWay {}
        ∧ ¬(presentedTwice ("code:alice:" ++ usedCode) (some (.int 1)) true).AnswersOnce {} "alice"
            usedCode := by
  refine ⟨_, run_answeredFirst.append (.cons ⟨by decide +kernel, rfl⟩
    (.cons ⟨by decide +kernel, rfl⟩ (.cons ⟨rfl, rfl⟩
    (.cons ⟨by decide, by decide +kernel, rfl⟩ .nil)))), inOrder_presentedTwice,
    underWay_presentedTwice ⟨_, .ask (.done _)⟩, ?_⟩
  intro once
  have code : hotp sharedKey 1 = .ok usedCode := by decide +kernel
  have again : (presentedTwice ("code:alice:" ++ usedCode) (some (.int 1)) true).Succeeds {} 4
      "alice" usedCode sharedKey 47 47 :=
    ⟨⟨_, _, _, _, rfl, rfl, decode_sharedSecret⟩, exec_presented (by decide +kernel) true, _, rfl⟩
  have same := once 2 4 sharedKey sharedKey 45 45 47 47 1 succeeds_presentedTwice again
    ⟨code, by decide +kernel, by decide +kernel⟩ (by decide +kernel)
    ⟨code, by decide +kernel, by decide +kernel⟩
  exact absurd same (by decide)

end StoreRun

end SecureMcp
