import SecureMcp.StepUp.Codes

/-! A challenge that is answered in time is cleared: nothing that other calls do at the same time has
the right answer refused.
-/

namespace SecureMcp

open Interaction

namespace StepUp

/-- A counter that `struct` packs as an unsigned one, with those of the steps next to it. -/
def Packs (counter : Int) : Prop :=
  1 ≤ counter ∧ counter + 1 < 2 ^ 64

/-- A code has decimal digits only. -/
theorem isDigit_of_hotp {secret : List Nat} {counter : Int} {code : String}
    (isCode : hotp secret counter = .ok code)
    : ∀ char ∈ code.toList, char.isDigit := by
  unfold hotp at isCode
  cases packed : packUnsigned counter with
  | error exn =>
      rw [packed] at isCode
      cases isCode
  | ok bytes =>
      rw [packed] at isCode
      cases isCode
      intro char member
      rw [String.toList_ofList] at member
      rcases List.mem_append.mp member with padding | digit
      · rw [List.eq_of_mem_replicate padding]
        rfl
      · exact Nat.isDigit_of_mem_toDigits (by decide) (by decide) digit

theorem compareDigest_of_digits {code : String} (digits : ∀ char ∈ code.toList, char.isDigit)
    (expected : String)
    : compareDigest expected code = .ok (expected == code) := by
  unfold compareDigest
  refine if_pos (List.all_eq_true.mpr fun char member => ?_)
  have digit := digits char member
  simp only [Char.isDigit, Bool.and_eq_true, decide_eq_true_eq] at digit
  have last : char.toNat ≤ 57 := digit.2
  simpa using Nat.lt_of_le_of_lt last (by decide)

theorem exists_hotp {counter : Int} (secret : List Nat) (least : 0 ≤ counter)
    (most : counter < 2 ^ 64)
    : ∃ code, hotp secret counter = .ok code := by
  unfold hotp packUnsigned
  rw [if_pos ⟨least, most⟩]
  exact ⟨_, rfl⟩

/-- A code of one of the steps that are tried is found, by induction on them. -/
theorem verifySteps_of_code {secret : List Nat} {code : String} {counter : Int} {skews : List Int}
    (each : ∀ skew ∈ skews, ∃ text, hotp secret (counter + skew) = .ok text)
    (isCode : ∃ skew ∈ skews, hotp secret (counter + skew) = .ok code)
    : verifySteps secret code counter skews = .ok true := by
  have digits : ∀ char ∈ code.toList, char.isDigit := by
    obtain ⟨_, _, same⟩ := isCode
    exact isDigit_of_hotp same
  induction skews with
  | nil =>
      obtain ⟨_, impossible, _⟩ := isCode
      cases impossible
  | cons skew rest ih =>
      obtain ⟨text, expected⟩ := each skew List.mem_cons_self
      unfold verifySteps
      rw [expected]
      simp only [bind, Except.bind, compareDigest_of_digits digits]
      by_cases same : text = code
      · simp [same, pure, Except.pure]
      · have later : ∃ skew ∈ rest, hotp secret (counter + skew) = .ok code := by
          obtain ⟨found, member, isCode⟩ := isCode
          rcases List.mem_cons.mp member with rfl | member
          · cases expected.symm.trans isCode
            exact absurd rfl same
          · exact ⟨found, member, isCode⟩
        simpa [same] using ih (fun skew member => each skew (List.mem_cons_of_mem _ member)) later

/-- A code is found in the steps around an instant for which it verifies. -/
theorem Verifies.verifySteps {secret : List Nat} {code : String} {counter : Int} {instant : Rat}
    (verifies : Verifies secret code counter instant) (packs : Packs (totpCounter instant))
    : verifySteps secret code (totpCounter instant) totpSkewSteps = .ok true := by
  obtain ⟨least, most⟩ := packs
  have late := verifies.notLate
  have early := verifies.notEarly
  refine verifySteps_of_code (fun skew member => ?_)
    ⟨counter - totpCounter instant, ?_, by simpa using verifies.code⟩
  · have near : skew = -1 ∨ skew = 0 ∨ skew = 1 := by simpa [totpSkewSteps] using member
    exact exists_hotp secret (by omega) (by omega)
  · have near : counter - totpCounter instant = -1 ∨ counter - totpCounter instant = 0
        ∨ counter - totpCounter instant = 1 := by omega
    simpa [totpSkewSteps] using near

variable {challengeId hash code secretB32 : String} {call : CallKey} {auditId : Nat}
  {secret : List Nat} {events : List (Event RedisReply)}

theorem issuedElsewhere_challengeRecord
    : issuedElsewhere (challengeRecord call hash auditId) call = .ok false := by
  have identity : (challengeRecord call hash auditId).item "identity_id"
      = .ok (.str call.identityId) := rfl
  have server : (challengeRecord call hash auditId).item "server_id" = .ok (.str call.serverId) := rfl
  have tool : (challengeRecord call hash auditId).item "tool_name" = .ok (.str call.toolName) := rfl
  simp [issuedElsewhere, identity, server, tool, bind, Except.bind, pure, Except.pure]

theorem hash_challengeRecord
    : (challengeRecord call hash auditId).item "arguments_hash" = .ok (.str hash) :=
  rfl

/-- A code is verified at one reading of the clock. -/
theorem exec_verifyTotp_of_decoded {valid : Except Exn Bool}
    (decoded : decodeTotpSecret secretB32 = some secret)
    (exec : (verifyTotp secretB32 (.str code)).run.Exec events valid)
    : ∃ now,
        events = [⟨.time, now⟩]
        ∧ valid = verifySteps secret code (totpCounter now) totpSkewSteps := by
  unfold verifyTotp at exec
  rw [decoded] at exec
  obtain ⟨now, rest, rfl, verified⟩ := Coroutine.exec_ask_bind_iff.mp exec
  obtain ⟨rfl, same⟩ := Program.exec_done_iff.mp verified
  exact ⟨now, rfl, same.symm⟩

/-- A redemption that finds the record of its own call, a code that verifies and no use of it is
accepted.
-/
theorem accepted_of_replies {outcome : Except Exn (Option String)} (configured : secretB32 ≠ "")
    (decoded : decodeTotpSecret secretB32 = some secret)
    (exec : (redeem challengeId call hash (.str code) secretB32).run.Exec events outcome)
    (found : ∀ reply rest,
      events = ⟨.getDel (challengeKey challengeId), reply⟩ :: rest
      → reply = .ok (some (challengeRecord call hash auditId)))
    (verified : ∀ now,
      ⟨.time, now⟩ ∈ events → verifySteps secret code (totpCounter now) totpSkewSteps = .ok true)
    (unspent : ∀ taken now reply rest,
      events
        = [⟨.getDel (challengeKey challengeId), taken⟩, ⟨.time, now⟩]
          ++ ⟨.setNx (codeDedupKey call.identityId code) (.int 1) codeDedupTtlSeconds, reply⟩
            :: rest
      → reply = .ok true)
    : outcome = .ok none := by
  obtain ⟨reply, rest, rfl, asked⟩ := Coroutine.exec_demand_bind exec
  obtain rfl := found reply rest rfl
  rcases asked with ⟨raw, same, exec⟩ | ⟨_, impossible, _⟩
  · cases same
    simp only [issuedElsewhere_challengeRecord, hash_challengeRecord, Coroutine.ofExcept_ok_bind,
      Bool.false_eq_true, if_false, ne_eq, not_true, configured] at exec
    rw [Coroutine.run_bind, Program.exec_bind_iff] at exec
    obtain ⟨tries, rest, valid, rfl, tried, exec⟩ := exec
    obtain ⟨now, rfl, same⟩ := exec_verifyTotp_of_decoded decoded tried
    rw [verified now (by simp)] at same
    subst same
    obtain ⟨reply, last, rfl, asked⟩ := Coroutine.exec_demand_bind exec
    obtain rfl := unspent _ now reply last rfl
    rcases asked with ⟨fresh, same, ended⟩ | ⟨_, impossible, _⟩
    · cases same
      exact (Program.exec_done_iff.mp ended).2.symm
    · cases impossible
  · cases impossible

/-- What another call may ask: it takes another challenge, and does not touch the record of a code. -/
def LeavesAlone (challengeId dedupKey : String) : RedisCall → Prop
  | .getDel key => key ≠ challengeKey challengeId
  | .set key _ _ | .setNx key _ _ => key ≠ dedupKey
  | .time | .uuid => True

/-- A call that redeems another challenge with another code leaves both alone. -/
theorem asks_leavesAlone {settings : Settings} {request : Request} {identityId : String}
    (other : ∀ otherId otherCall otherHash proof otherSecret,
      request = .redeem otherId otherCall otherHash proof otherSecret
      → otherId ≠ challengeId
        ∧ codeDedupKey otherCall.identityId proof.pyStr ≠ codeDedupKey identityId code)
    : (handle settings request).run.Asks (LeavesAlone challengeId (codeDedupKey identityId code)) := by
  cases request with
  | create call hash auditId =>
      refine Coroutine.asks_bind ?_ (fun challengeId => Coroutine.asks_pure _)
      refine Coroutine.asks_bind (Coroutine.asks_ask trivial) (fun fresh => ?_)
      exact Coroutine.asks_bind (Coroutine.asks_demand _ (challengeKey_uuid_ne fresh))
        (fun _ => Coroutine.asks_pure _)
  | redeem otherId otherCall otherHash proof otherSecret =>
      obtain ⟨differs, unused⟩ := other _ _ _ _ _ rfl
      refine Coroutine.asks_bind ?_ (fun denial => Coroutine.asks_pure _)
      refine Coroutine.asks_bind
        (Coroutine.asks_demand _ (fun same => differs (challengeKey_injective same))) (fun raw => ?_)
      split
      · exact Coroutine.asks_pure _
      · refine Coroutine.asks_bind (Coroutine.asks_ofExcept _) (fun elsewhere => ?_)
        split
        · exact Coroutine.asks_pure _
        · refine Coroutine.asks_bind (Coroutine.asks_ofExcept _) (fun stored => ?_)
          split
          · exact Coroutine.asks_pure _
          · split
            · exact Coroutine.asks_pure _
            · refine Coroutine.asks_bind ?_ (fun valid => ?_)
              · unfold verifyTotp
                split
                · exact Coroutine.asks_bind (Coroutine.asks_ask trivial)
                    (fun now => Coroutine.asks_ofExcept _)
                · exact Coroutine.asks_pure _
              · split
                · exact Coroutine.asks_bind (Coroutine.asks_demand _ unused)
                    (fun _ => Coroutine.asks_pure _)
                · exact Coroutine.asks_pure _

/-- The event of a request that raises. -/
def Failed : Event RedisReply → Prop
  | ⟨.set _ _ _, .error _⟩ | ⟨.getDel _, .error _⟩ | ⟨.setNx _ _ _, .error _⟩ => True
  | _ => False

end StepUp

namespace StoreRun

open StepUp

variable {ι : Type} [DecidableEq ι]

/-- A challenge, and the call that it is for. -/
structure Challenge where
  id : String
  call : CallKey
  argumentsHash : String
  auditId : Nat

/-- The event that issues a challenge. -/
def Challenge.issues (challenge : Challenge) (settings : Settings) : Event RedisReply :=
  ⟨.set (challengeKey challenge.id)
    (challengeRecord challenge.call challenge.argumentsHash challenge.auditId)
    settings.stepUpTtlSeconds, .ok ()⟩

/-- A step of the run issues a challenge, under an id that is not drawn again. -/
structure Issues (settings : Settings) (run : StoreRun ι) (challenge : Challenge)
    (before : List (Stamped ι RedisReply)) (issued : Stamped ι RedisReply)
    (later : List (Stamped ι RedisReply))
    : Prop where
  split : run.trace = before ++ issued :: later
  event : issued.event = challenge.issues settings
  once : ∀ step ∈ later, ∀ value seconds,
    step.event.call ≠ .set (challengeKey challenge.id) value seconds

/-- A call redeems a challenge with a code of its identity. It starts after the challenge is issued;
the challenge has not expired when it is looked for, the code verifies when the clock is read, and no
request of the call raises.
-/
structure Answers (settings : Settings) (run : StoreRun ι) (thread : ι) (challenge : Challenge)
    (code secretB32 : String) (past : List (Stamped ι RedisReply)) (expiry : Rat)
    : Prop where
  request : run.request thread
    = .redeem challenge.id challenge.call challenge.argumentsHash (.str code) secretB32
  configured : secretB32 ≠ ""
  starts : eventsOf thread past = []
  inTime : ∀ step ∈ run.trace,
    step.thread = thread
    → step.event.call = .getDel (challengeKey challenge.id)
    → step.instant ≤ expiry
  served : ∀ step ∈ run.trace, step.thread = thread → ¬ Failed step.event
  code : ∃ secret counter,
    decodeTotpSecret secretB32 = some secret
    ∧ ∀ step ∈ run.trace,
        step.thread = thread
        → step.event.call = .time
        → Verifies secret code counter step.instant ∧ Packs (totpCounter step.instant)

/-- No other call redeems a challenge or presents a code of an identity. -/
def Alone (run : StoreRun ι) (thread : ι) (challengeId identityId code : String) : Prop :=
  ∀ other otherId call hash proof secretB32,
    run.request other = .redeem otherId call hash proof secretB32
    → other ≠ thread
    → otherId ≠ challengeId
      ∧ codeDedupKey call.identityId proof.pyStr ≠ codeDedupKey identityId code

section

variable {settings : Settings} {run : StoreRun ι} {keys final : RedisKeys} {thread : ι}
  {challenge : Challenge} {code secretB32 : String}
  {before later : List (Stamped ι RedisReply)} {issued : Stamped ι RedisReply}

/-- The steps of other calls leave the challenge and the record of the code alone. -/
theorem leaves_of_alone {identityId : String} (underWay : run.UnderWay settings)
    (alone : run.Alone thread challenge.id identityId code)
    {step : Stamped ι RedisReply} (member : step ∈ run.trace) (other : step.thread ≠ thread)
    : LeavesAlone challenge.id (codeDedupKey identityId code) step.event.call := by
  obtain ⟨more, outcome, exec⟩ := underWay step.thread
  have asks : (handle settings (run.request step.thread)).run.Asks
      (LeavesAlone challenge.id (codeDedupKey identityId code)) :=
    asks_leavesAlone (fun _ _ _ _ _ same => alone _ _ _ _ _ _ same other)
  exact exec.asks asks step.event (List.mem_append_left _ (event_mem_eventsOf member))

omit [DecidableEq ι] in
/-- What is stored for a challenge when it is issued. -/
theorem held_of_issued {after : RedisKeys} (served : keys.Serves issued after)
    (event : issued.event = challenge.issues settings)
    : after (challengeKey challenge.id)
      = some (challengeRecord challenge.call challenge.argumentsHash challenge.auditId,
          issued.instant + settings.stepUpTtlSeconds) := by
  obtain ⟨_, instant, _, _⟩ := issued
  cases event
  rw [served.2, Expiring.put_self]

omit [DecidableEq ι] in
/-- The clock tells the instant at which it is read. -/
theorem read_of_time {trace : List (Stamped ι RedisReply)} {step : Stamped ι RedisReply} {now : Rat}
    (served : Machine.Run RedisKeys.Serves keys trace final) (inTrace : step ∈ trace)
    (event : step.event = ⟨.time, now⟩)
    : step.instant = now := by
  obtain ⟨before, after, rfl⟩ := List.append_of_mem inTrace
  obtain ⟨_, _, served⟩ := served.split
  obtain ⟨_, told, _⟩ := served.head
  obtain ⟨_, instant, _, _⟩ := step
  cases event
  exact told.1.symm

/-- A call that starts after the challenge was issued finds its record. -/
theorem found_of_issues
    (served : Machine.Run RedisKeys.Serves keys run.trace final) (inOrder : InOrder run.trace)
    (underWay : run.UnderWay settings) (issues : run.Issues settings challenge before issued later)
    (answers : run.Answers settings thread challenge code secretB32 (before ++ [issued])
      (issued.instant + settings.stepUpTtlSeconds))
    (alone : run.Alone thread challenge.id challenge.call.identityId code)
    {reply : RedisReply (.getDel (challengeKey challenge.id))} {rest : List (Event RedisReply)}
    (first : eventsOf thread run.trace = ⟨.getDel (challengeKey challenge.id), reply⟩ :: rest)
    : reply
      = .ok (some (challengeRecord challenge.call challenge.argumentsHash challenge.auditId)) := by
  have listed : eventsOf thread run.trace
      = [] ++ ⟨.getDel (challengeKey challenge.id), reply⟩ :: rest := first
  obtain ⟨past, step, after, split, ofThread, event, nothing, _⟩ := split_of_eventsOf listed
  have outside : step ∉ before ++ [issued] := by
    intro early
    have impossible := event_mem_eventsOf early
    rw [ofThread, answers.starts] at impossible
    cases impossible
  have whole : (before ++ [issued]) ++ later = past ++ step :: after := by
    rw [← split, issues.split, List.append_assoc, List.singleton_append]
  obtain ⟨between, rfl, rfl⟩ := place_in_second whole outside
  have member {step : Stamped ι RedisReply} (among : step ∈ between) : step ∈ run.trace := by
    rw [issues.split]
    simp [among]
  have others : ∀ step ∈ between, step.thread ≠ thread := by
    intro step among same
    have impossible := event_mem_eventsOf (List.mem_append_right (before ++ [issued]) among)
    rw [same, nothing] at impossible
    cases impossible
  have spares : ∀ step ∈ between, Spares (challengeKey challenge.id) step.event.call := by
    intro step among
    have leaves := leaves_of_alone underWay alone (member among) (others step among)
    have once := issues.once step (List.mem_append_left _ among)
    obtain ⟨_, _, call, _⟩ := step
    cases call with
    | getDel key => exact leaves
    | set key value seconds =>
        rintro rfl
        exact once value seconds rfl
    | _ => trivial
  rw [issues.split] at served inOrder
  obtain ⟨_, _, served⟩ := served.split
  obtain ⟨_, stored, served⟩ := served.head
  obtain ⟨state, kept, served⟩ := served.split
  obtain ⟨_, taken, _⟩ := served.head
  have inTrace : step ∈ run.trace := by
    rw [issues.split]
    simp
  have expires := answers.inTime step inTrace ofThread (congrArg Event.call event)
  have held := held_of_issued stored issues.event
  have live : state.live (challengeKey challenge.id) step.instant
      = some (challengeRecord challenge.call challenge.argumentsHash challenge.auditId) := by
    refine Expiring.live_eq_some_iff.mpr ⟨_, ?_, expires⟩
    rcases Expiring.kept_of_run kept
      (fun _ _ step among served held => served.kept (spares step among) held) held
      with still | ⟨middle, among, expired⟩
    · exact still
    · -- The steps in between are not later than the one that looks for the challenge.
      have early : middle.instant ≤ step.instant := by
        have ordered := inOrder
        rw [← List.singleton_append, ← List.append_assoc] at ordered
        exact (List.pairwise_append.mp (List.pairwise_append.mp ordered).2.1).2.2 middle among step
          List.mem_cons_self
      exact absurd (expired.trans_le early) (not_lt.mpr expires)
  have unraised := answers.served step inTrace ofThread
  obtain ⟨_, instant, _, _⟩ := step
  cases event
  cases reply with
  | error exn => exact absurd trivial unraised
  | ok found => exact congrArg Except.ok (taken.1.trans live)

/-- A call finds its code unused, when no other call presents it and it was not used before the run.
-/
theorem unspent_of_alone
    (served : Machine.Run RedisKeys.Serves keys run.trace final)
    (underWay : run.UnderWay settings)
    (answers : run.Answers settings thread challenge code secretB32 (before ++ [issued])
      (issued.instant + settings.stepUpTtlSeconds))
    (alone : run.Alone thread challenge.id challenge.call.identityId code)
    (unused : keys (codeDedupKey challenge.call.identityId code) = none)
    {taken : RedisReply (.getDel (challengeKey challenge.id))} {now : Rat}
    {reply : RedisReply (.setNx (codeDedupKey challenge.call.identityId code) (.int 1)
      codeDedupTtlSeconds)}
    {rest : List (Event RedisReply)}
    (events : eventsOf thread run.trace
      = [⟨.getDel (challengeKey challenge.id), taken⟩, ⟨.time, now⟩]
        ++ ⟨.setNx (codeDedupKey challenge.call.identityId code) (.int 1) codeDedupTtlSeconds,
          reply⟩ :: rest)
    : reply = .ok true := by
  obtain ⟨past, step, after, split, ofThread, event, earlier, _⟩ := split_of_eventsOf events
  have inTrace : step ∈ run.trace := by simp [split]
  have puts : ∀ step ∈ past, ∀ value,
      ¬ RedisKeys.Puts (codeDedupKey challenge.call.identityId code) value step.event.call := by
    intro step among value puts
    by_cases same : step.thread = thread
    · have own : step.event ∈ eventsOf thread past := same ▸ event_mem_eventsOf among
      rw [earlier] at own
      rcases List.mem_cons.mp own with first | second
      · rw [first] at puts
        exact puts
      · rw [List.mem_singleton.mp second] at puts
        exact puts
    · have leaves := leaves_of_alone underWay alone (by simp [split, among]) same
      obtain ⟨_, _, call, _⟩ := step
      cases call with
      | set key value seconds => exact leaves puts.1
      | setNx key value seconds => exact leaves puts.1
      | _ => exact puts
  rw [split] at served
  obtain ⟨state, ran, served⟩ := served.split
  obtain ⟨_, spent, _⟩ := served.head
  have none : state (codeDedupKey challenge.call.identityId code) = none := by
    refine ran.of_actions.invariant
      (fun keys => keys (codeDedupKey challenge.call.identityId code) = none) unused ?_
    intro keys step after none ⟨served, among⟩
    by_contra held
    obtain ⟨entry, held⟩ := Option.ne_none_iff_exists'.mp held
    rcases served.origin held with ⟨still, _⟩ | put
    · rw [none] at still
      cases still
    · exact puts step among _ put
  have unraised := answers.served step inTrace ofThread
  obtain ⟨_, instant, _, _⟩ := step
  cases event
  cases reply with
  | error exn => exact absurd trivial unraised
  | ok fresh =>
      have dead : fresh = (state.live (codeDedupKey challenge.call.identityId code) instant).isNone :=
        spent.2.1
      rw [dead]
      simp [Expiring.live, none]

/-- In every run, whatever else is created and redeemed at the same time: a challenge that is answered
in time with a code that verifies is cleared, when no other call redeems it or presents the code.
-/
theorem answer_accepted
    (served : Machine.Run RedisKeys.Serves keys run.trace final) (inOrder : InOrder run.trace)
    (underWay : run.UnderWay settings) (issues : run.Issues settings challenge before issued later)
    (answers : run.Answers settings thread challenge code secretB32 (before ++ [issued])
      (issued.instant + settings.stepUpTtlSeconds))
    (alone : run.Alone thread challenge.id challenge.call.identityId code)
    (unused : keys (codeDedupKey challenge.call.identityId code) = none)
    {outcome : Except Exn StepUp.Answer}
    (exec : (handle settings (run.request thread)).run.Exec (eventsOf thread run.trace) outcome)
    : outcome = .ok (.redeemed none) := by
  obtain ⟨secret, counter, decoded, verifies⟩ := answers.code
  rw [answers.request, handle, Coroutine.run_bind, Program.exec_bind_iff] at exec
  obtain ⟨events, rest, ended, whole, redeemed, exec⟩ := exec
  have found : ∀ reply more,
      events = ⟨.getDel (challengeKey challenge.id), reply⟩ :: more
      → reply
        = .ok (some (challengeRecord challenge.call challenge.argumentsHash challenge.auditId)) := by
    rintro reply more rfl
    exact found_of_issues served inOrder underWay issues answers alone whole
  have verified : ∀ now,
      ⟨.time, now⟩ ∈ events → verifySteps secret code (totpCounter now) totpSkewSteps = .ok true := by
    intro now among
    have own : ⟨.time, now⟩ ∈ eventsOf thread run.trace := whole ▸ List.mem_append_left rest among
    obtain ⟨step, inTrace, ofThread, event⟩ := step_of_eventsOf own
    obtain ⟨code, packs⟩ := verifies step inTrace ofThread (congrArg Event.call event)
    exact read_of_time served inTrace event ▸ code.verifySteps packs
  obtain rfl := accepted_of_replies answers.configured decoded redeemed found verified (by
    rintro taken now reply more rfl
    exact unspent_of_alone served underWay answers alone unused
      (whole.trans (List.append_assoc _ _ _)))
  exact (Program.exec_done_iff.mp exec).2.symm

end

/-- The calls of a run in which a challenge is answered. -/
inductive AnsweredCall
  | issue
  | answer
  | stray
  deriving DecidableEq

/-- A challenge is issued and answered within the step of its code, while another one is looked for in
vain. The record of the code is written when the challenge would have expired.
-/
def answered : StoreRun AnsweredCall where
  request
    | .issue => .create issueCall "hash" 1
    | .answer => .redeem firstId.text issueCall "hash" (.str usedCode) sharedSecret
    | .stray => .redeem "stale" issueCall "hash" (.str "000000") sharedSecret
  trace := [
    ⟨.issue, 40, ⟨.uuid, firstId⟩⟩,
    ⟨.issue, 40,
      ⟨.set (challengeKey firstId.text) (challengeRecord issueCall "hash" 1) 300, .ok ()⟩⟩,
    ⟨.answer, 45,
      ⟨.getDel (challengeKey firstId.text), .ok (some (challengeRecord issueCall "hash" 1))⟩⟩,
    ⟨.stray, 45, ⟨.getDel (challengeKey "stale"), .ok none⟩⟩,
    ⟨.answer, 45, ⟨.time, 45⟩⟩,
    ⟨.answer, 400, ⟨.setNx (codeDedupKey "alice" usedCode) (.int 1) 90, .ok true⟩⟩
  ]

theorem underWay_answered : answered.UnderWay {} := by
  intro thread
  cases thread with
  | issue => exact ⟨[], _, .ask (.ask (.done _))⟩
  | answer => exact ⟨[], _, exec_presented (by decide +kernel) true⟩
  | stray => exact ⟨[], _, .ask (.done _)⟩

theorem answers_answered
    : answered.Answers {} .answer ⟨firstId.text, issueCall, "hash", 1⟩ usedCode sharedSecret
        (answered.trace.take 2) 340 where
  request := rfl
  configured := by decide
  starts := rfl
  inTime := by
    simp [answered]
    norm_num
  served := by simp [answered, Failed]
  code := by
    have step : totpCounter 45 = 1 := by decide +kernel
    refine ⟨sharedKey, 1, decode_sharedSecret, fun other member own reads => ?_⟩
    have same : other.instant = 45 := by
      revert other
      simp [answered]
    rw [same]
    refine ⟨⟨by decide +kernel, ?_, ?_⟩, ?_⟩ <;> simp [Packs, step]

/-- A challenge that is answered in time is cleared. -/
theorem answered_accepted
    : ∃ outcome,
        (handle {} (answered.request .answer)).run.Exec (eventsOf .answer answered.trace) outcome
        ∧ outcome = .ok (.redeemed none) := by
  have first : (40 : Rat) + (300 : Int) = 340 := by decide +kernel
  have served : ∃ final, Machine.Run RedisKeys.Serves (fun _ => none) answered.trace final :=
    ⟨_, .cons rfl (.cons ⟨by decide, rfl⟩ (.cons ⟨by decide +kernel, rfl⟩
      (.cons ⟨by decide +kernel, rfl⟩ (.cons ⟨rfl, rfl⟩
        (.cons ⟨by decide, by decide +kernel, rfl⟩ .nil)))))⟩
  obtain ⟨_, served⟩ := served
  have inOrder : InOrder answered.trace := by
    simp [InOrder, answered]
    norm_num
  have issues : answered.Issues {} ⟨firstId.text, issueCall, "hash", 1⟩ (answered.trace.take 1)
      ⟨.issue, 40,
        ⟨.set (challengeKey firstId.text) (challengeRecord issueCall "hash" 1) 300, .ok ()⟩⟩
      (answered.trace.drop 2) := by
    refine ⟨rfl, rfl, ?_⟩
    simp [answered]
  have alone : answered.Alone .answer firstId.text "alice" usedCode := by
    intro other otherId call hash proof secretB32 request differs
    cases other with
    | issue => cases request
    | answer => exact absurd rfl differs
    | stray =>
        cases request
        decide
  have exec : (handle {} (answered.request .answer)).run.Exec (eventsOf .answer answered.trace)
      (.ok (.redeemed none)) :=
    exec_presented (by decide +kernel) true
  have answers := answers_answered
  rw [← first] at answers
  exact ⟨_, exec, answer_accepted served inOrder underWay_answered issues answers alone rfl exec⟩

end StoreRun

end SecureMcp
