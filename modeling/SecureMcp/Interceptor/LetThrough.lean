import SecureMcp.Interceptor.ReplayDedup

/-! What the replay guard lets through, exactly: over every run of concurrent checks, a pair is let
through when it is well formed, inside the window, and its nonce was not let through for two windows.
-/

namespace SecureMcp

open Interaction

namespace NonceKeys

variable {ι : Type} {keys final : NonceKeys} {nonce : String} {entry : Unit × Rat}
  {trace : List (Stamped ι Reply)}

/-- A nonce that is remembered was taken for fresh by a step of the run, by induction on the run. -/
theorem stored_of_held (run : Machine.Run Serves (fun _ => none) trace keys)
    (answered : ∀ step ∈ trace, ∀ seconds exn, step.event ≠ ⟨.setNonce nonce seconds, .error exn⟩)
    (held : keys nonce = some entry)
    : ∃ step ∈ trace, ∃ seconds : Int,
        step.event = ⟨.setNonce nonce seconds, .ok true⟩ ∧ entry.2 = step.instant + seconds := by
  induction run with
  | nil => cases held
  | @concat past step state final _ last ih =>
      have before (still : state nonce = some entry)
          : ∃ earlier ∈ past ++ [step], ∃ seconds : Int,
              earlier.event = ⟨.setNonce nonce seconds, .ok true⟩
              ∧ entry.2 = earlier.instant + seconds := by
        obtain ⟨earlier, member, found⟩ :=
          ih (fun step member => answered step (List.mem_append_left _ member)) still
        exact ⟨earlier, List.mem_append_left _ member, found⟩
      have own := answered step (by simp)
      unfold Serves at last
      split at last
      · exact before (last.2 ▸ held)
      · next other seconds fresh event =>
          obtain ⟨_, isFresh, rfl⟩ := last
          unfold setNx Expiring.putNew at held
          split at held
          · exact before held
          · next dead =>
              by_cases same : nonce = other
              · subst same
                rw [Expiring.put_self] at held
                cases held
                have unheld : fresh = true := by simpa [isFresh] using dead
                exact ⟨step, by simp, seconds, unheld ▸ event, rfl⟩
              · exact before ((Expiring.put_other same).symm.trans held)
      · next other seconds exn event =>
          have same : nonce ≠ other := by
            rintro rfl
            exact own seconds exn event
          rcases last with rfl | ⟨_, rfl⟩
          · exact before held
          · unfold setNx Expiring.putNew at held
            split at held
            · exact before held
            · exact before ((Expiring.put_other same).symm.trans held)
      · exact before (last ▸ held)

end NonceKeys

namespace ReplayGuard

variable {settings : Settings} {isUuid : String → Bool} {nonce timestamp : Json}
  {events : List (Event Reply)}

/-- A check stores its nonce for two windows. -/
theorem asks_check
    : (check settings isUuid nonce timestamp).run.Asks (fun call =>
        ∀ text seconds,
          call = .setNonce text seconds → seconds = 2 * settings.replayWindowSeconds) := by
  unfold check
  split
  · split
    · exact Coroutine.asks_pure _
    · split
      · exact Coroutine.asks_pure _
      · refine Coroutine.asks_bind (Coroutine.asks_ask (fun _ _ impossible => by cases impossible))
          (fun now => Coroutine.asks_bind (Coroutine.asks_ofExcept _) (fun apart => ?_))
        split
        · exact Coroutine.asks_pure _
        · refine Coroutine.asks_bind (Coroutine.asks_demand _ ?_) (fun fresh => ?_)
          · rintro _ _ same
            cases same
            rfl
          · split <;> exact Coroutine.asks_pure _
  · exact Coroutine.asks_pure _

/-- The end of a check, which asks for its nonce. -/
theorem exec_store_of_asked {own text : String} {lifetime seconds : Int} {fresh : Bool}
    {outcome : Except Exn (Option String)}
    (exec : (do
        if ← Coroutine.demand (.setNonce own lifetime) id then return none
        else return some "nonce already seen within the timestamp window" : Async _).run.Exec
      events outcome)
    (asked : ⟨.setNonce text seconds, .ok fresh⟩ ∈ events)
    : own = text
      ∧ outcome = .ok (if fresh then none else some "nonce already seen within the timestamp window")
      := by
  obtain ⟨reply, last, rfl, answered⟩ := Coroutine.exec_demand_bind exec
  rcases answered with ⟨found, same, ended⟩ | ⟨exn, same, rfl, _⟩
  · have granted : reply = .ok found := same
    subst granted
    cases found with
    | true =>
        obtain ⟨rfl, rfl⟩ := Program.exec_done_iff.mp ended
        cases List.mem_singleton.mp asked
        exact ⟨rfl, rfl⟩
    | false =>
        obtain ⟨rfl, rfl⟩ := Program.exec_done_iff.mp ended
        cases List.mem_singleton.mp asked
        exact ⟨rfl, rfl⟩
  · have refused : reply = .error exn := same
    subst refused
    cases List.mem_singleton.mp asked

/-- What a check answers once it has asked for its nonce, and what it had found by then. -/
theorem exec_check_of_asked {outcome : Except Exn (Option String)} {text : String} {seconds : Int}
    {fresh : Bool}
    (exec : (check settings isUuid nonce timestamp).run.Exec events outcome)
    (asked : ⟨.setNonce text seconds, .ok fresh⟩ ∈ events)
    : nonce = .str text
      ∧ isUuid text
      ∧ isTimestamp timestamp
      ∧ (∃ now, ⟨.time, now⟩ ∈ events
        ∧ outside now settings.replayWindowSeconds timestamp = .ok false)
      ∧ outcome = .ok (if fresh then none else some "nonce already seen within the timestamp window")
      := by
  unfold check at exec
  split at exec
  · next own =>
      split at exec
      · obtain ⟨rfl, _⟩ := Program.exec_done_iff.mp exec
        cases asked
      · next uuid =>
          split at exec
          · obtain ⟨rfl, _⟩ := Program.exec_done_iff.mp exec
            cases asked
          · next number =>
              obtain ⟨now, rest, rfl, compares⟩ := Coroutine.exec_ask_bind_iff.mp exec
              have later : ⟨.setNonce text seconds, .ok fresh⟩ ∈ rest := by
                rcases List.mem_cons.mp asked with impossible | later
                · cases impossible
                · exact later
              cases compared : outside now settings.replayWindowSeconds timestamp with
              | error exn =>
                  rw [compared] at compares
                  obtain ⟨rfl, _⟩ := Program.exec_done_iff.mp compares
                  cases later
              | ok apart =>
                  rw [compared, Coroutine.ofExcept_ok_bind] at compares
                  cases apart with
                  | true =>
                      obtain ⟨rfl, _⟩ := Program.exec_done_iff.mp compares
                      cases later
                  | false =>
                      obtain ⟨rfl, rfl⟩ := exec_store_of_asked compares later
                      exact ⟨rfl, by simpa using uuid, by simpa using number,
                        ⟨now, List.mem_cons_self, compared⟩, rfl⟩
  · obtain ⟨rfl, _⟩ := Program.exec_done_iff.mp exec
    cases asked

/-- Inside the window a call is refused when its nonce is not fresh. -/
theorem exec_check_of_repeated {text : String} {now : Rat} (uuid : isUuid text)
    (number : isTimestamp timestamp)
    (inside : outside now settings.replayWindowSeconds timestamp = .ok false)
    : (check settings isUuid (.str text) timestamp).run.Exec
        [⟨.time, now⟩, ⟨.setNonce text (2 * settings.replayWindowSeconds), .ok false⟩]
        (.ok (some "nonce already seen within the timestamp window")) := by
  unfold check
  simp only [uuid, number, Bool.not_true, Bool.false_eq_true, if_false]
  refine Coroutine.exec_ask_bind_iff.mpr ⟨now, _, rfl, ?_⟩
  rw [inside, Coroutine.ofExcept_ok_bind]
  exact .ask (.done _)

/-- Some check let the nonce through at most two windows before an instant. -/
def Remembers {ι : Type} (window : Int) (nonce : String) (past : List (Stamped ι Reply))
    (instant : Rat)
    : Prop :=
  ∃ earlier ∈ past,
    earlier.event = ⟨.setNonce nonce (2 * window), .ok true⟩
    ∧ instant ≤ earlier.instant + (2 * window : Int)

end ReplayGuard

namespace ReplayRun

open ReplayGuard

variable {ι : Type} [DecidableEq ι]

/-- Every check has got as far as its events. -/
def UnderWay (runtime : Runtime) (run : ReplayRun ι) : Prop :=
  ∀ thread, ∃ later outcome,
    (check runtime.settings runtime.isUuid (run.nonce thread) (run.timestamp thread)).run.Exec
      (eventsOf thread run.trace ++ later) outcome

/-- No request for a nonce raises. -/
def Answered (run : ReplayRun ι) (nonce : String) : Prop :=
  ∀ step ∈ run.trace, ∀ seconds exn, step.event ≠ ⟨.setNonce nonce seconds, .error exn⟩

/-- The pair of a check is fresh: its nonce is a UUID, its timestamp is a number that is inside the
window when the clock is read, and no earlier check was let through with the nonce for two windows
before it is asked for.
-/
def Fresh (runtime : Runtime) (run : ReplayRun ι) (thread : ι) : Prop :=
  ∃ text now before step after,
    run.nonce thread = .str text
    ∧ runtime.isUuid text
    ∧ isTimestamp (run.timestamp thread)
    ∧ ⟨.time, now⟩ ∈ eventsOf thread run.trace
    ∧ outside now runtime.settings.replayWindowSeconds (run.timestamp thread) = .ok false
    ∧ run.trace = before ++ step :: after
    ∧ step.thread = thread
    ∧ step.event.call = .setNonce text (2 * runtime.settings.replayWindowSeconds)
    ∧ ¬ Remembers runtime.settings.replayWindowSeconds text before step.instant

section

variable {runtime : Runtime} {run : ReplayRun ι} {final : NonceKeys}

/-- Nonces are asked for with two windows as their time. -/
theorem seconds_of_underWay (underWay : run.UnderWay runtime) {step : Stamped ι Reply}
    (member : step ∈ run.trace) {nonce : String} {seconds : Int}
    (call : step.event.call = .setNonce nonce seconds)
    : seconds = 2 * runtime.settings.replayWindowSeconds := by
  obtain ⟨later, outcome, exec⟩ := underWay step.thread
  exact exec.asks asks_check step.event (List.mem_append_left _ (event_mem_eventsOf member)) _ _ call

/-- A nonce is fresh exactly when it is not remembered. -/
theorem fresh_iff (served : Machine.Run NonceKeys.Serves (fun _ => none) run.trace final)
    (inOrder : InOrder run.trace) (underWay : run.UnderWay runtime)
    {before after : List (Stamped ι Reply)} {step : Stamped ι Reply} {nonce : String} {fresh : Bool}
    (answered : run.Answered nonce) (split : run.trace = before ++ step :: after)
    (event : step.event
      = ⟨.setNonce nonce (2 * runtime.settings.replayWindowSeconds), .ok fresh⟩)
    : fresh = true ↔ ¬ Remembers runtime.settings.replayWindowSeconds nonce before step.instant := by
  constructor
  · rintro rfl ⟨earlier, among, letThrough, inTime⟩
    obtain ⟨first, middle, rfl⟩ := List.append_of_mem among
    have whole : run.trace = first ++ earlier :: (middle ++ step :: after) := by simp [split]
    rw [whole] at served inOrder
    exact absurd (NonceKeys.expired_between served inOrder letThrough event) (not_lt.mpr inTime)
  · intro forgotten
    by_contra stale
    have parts := served
    rw [split] at parts
    obtain ⟨state, ran, parts⟩ := parts.split
    obtain ⟨_, asked, _⟩ := parts.head
    unfold NonceKeys.Serves at asked
    rw [event] at asked
    have live : ∃ value, state.live nonce step.instant = some value := by
      refine Option.ne_none_iff_exists'.mp (fun dead => stale ?_)
      rw [asked.2.1, dead]
      rfl
    obtain ⟨_, live⟩ := live
    obtain ⟨expiry, held, inTime⟩ := Expiring.live_eq_some_iff.mp live
    obtain ⟨earlier, among, seconds, letThrough, same⟩ := NonceKeys.stored_of_held ran
      (fun earlier among => answered earlier (by simp [split, among])) held
    have inTrace : earlier ∈ run.trace := by simp [split, among]
    obtain rfl := seconds_of_underWay underWay inTrace (by rw [letThrough])
    exact forgotten ⟨earlier, among, letThrough, same ▸ inTime⟩

/-- In every run of concurrent checks, however they interleave, whatever passes between their
requests and whichever requests for other nonces fail: a pair is let through exactly when it is
fresh.
-/
theorem let_through_iff (served : Machine.Run NonceKeys.Serves (fun _ => none) run.trace final)
    (inOrder : InOrder run.trace) (underWay : run.UnderWay runtime) {thread : ι}
    (answered : ∀ text, run.nonce thread = .str text → run.Answered text)
    {outcome : Except Exn (Option String)}
    (exec : (check runtime.settings runtime.isUuid (run.nonce thread)
      (run.timestamp thread)).run.Exec (eventsOf thread run.trace) outcome)
    : outcome = .ok none ↔ run.Fresh runtime thread := by
  constructor
  · rintro rfl
    obtain ⟨text, now, _, events, _⟩ := exec_check_accepted exec
    have own : eventsOf thread run.trace
        = [⟨.time, now⟩]
          ++ ⟨.setNonce text (2 * runtime.settings.replayWindowSeconds), .ok true⟩ :: [] := events
    obtain ⟨before, step, after, split, ofThread, event, _⟩ := split_of_eventsOf own
    have asked : ⟨.setNonce text (2 * runtime.settings.replayWindowSeconds), .ok true⟩
        ∈ eventsOf thread run.trace := by
      rw [events]
      simp
    obtain ⟨isText, uuid, number, ⟨read, reads, inside⟩, _⟩ := exec_check_of_asked exec asked
    refine ⟨text, read, before, step, after, isText, uuid, number, reads, inside, split, ofThread,
      by rw [event], ?_⟩
    exact (fresh_iff served inOrder underWay (answered text isText) split event).mp rfl
  · rintro ⟨text, _, before, step, after, isText, _, _, _, _, split, ofThread, call, forgotten⟩
    have inTrace : step ∈ run.trace := by simp [split]
    have asked := event_mem_eventsOf inTrace
    rw [ofThread] at asked
    have unraised := answered text isText step inTrace (2 * runtime.settings.replayWindowSeconds)
    obtain ⟨fresh, event⟩ : ∃ fresh,
        step.event = ⟨.setNonce text (2 * runtime.settings.replayWindowSeconds), .ok fresh⟩ := by
      obtain ⟨_, _, _, reply⟩ := step
      cases call
      cases reply with
      | error exn => exact absurd rfl (unraised exn)
      | ok fresh => exact ⟨fresh, rfl⟩
    rw [event] at asked
    rw [(exec_check_of_asked exec asked).2.2.2.2,
      (fresh_iff served inOrder underWay (answered text isText) split event).mpr forgotten]
    rfl

end

/-- A pair that is checked again after ten seconds. -/
def checkedAgain : ReplayRun Bool where
  nonce _ := .str "11111111-1111-4111-8111-111111111111"
  timestamp _ := .int 5
  trace := [
    ⟨false, 0, ⟨.time, 0⟩⟩,
    ⟨false, 0, ⟨.setNonce "11111111-1111-4111-8111-111111111111" 60, .ok true⟩⟩,
    ⟨true, 10, ⟨.time, 10⟩⟩,
    ⟨true, 10, ⟨.setNonce "11111111-1111-4111-8111-111111111111" 60, .ok false⟩⟩
  ]

theorem exec_checkedAgain
    : (check DriftDetector.calm.settings DriftDetector.calm.isUuid (checkedAgain.nonce true)
        (checkedAgain.timestamp true)).run.Exec (eventsOf true checkedAgain.trace)
        (.ok (some "nonce already seen within the timestamp window")) := by
  have inside : outside 10 DriftDetector.calm.settings.replayWindowSeconds (.int 5) = .ok false := by
    decide +kernel
  exact exec_check_of_repeated rfl rfl inside

theorem underWay_checkedAgain : checkedAgain.UnderWay DriftDetector.calm := by
  intro thread
  cases thread with
  | false => exact ⟨[], _, exec_check_of_inside rfl rfl (by decide +kernel)⟩
  | true => exact ⟨[], _, exec_checkedAgain⟩

/-- The first of two checks of a pair is let through, and the second is not. -/
theorem first_check_fresh
    : checkedAgain.Fresh DriftDetector.calm false
      ∧ ¬ checkedAgain.Fresh DriftDetector.calm true := by
  have served : ∃ final, Machine.Run NonceKeys.Serves (fun _ => none) checkedAgain.trace final := by
    refine ⟨_, .cons ⟨rfl, rfl⟩ (.cons ⟨by decide, rfl, rfl⟩ (.cons ⟨rfl, rfl⟩
      (.cons ⟨by decide, ?_, rfl⟩ .nil)))⟩
    decide +kernel
  obtain ⟨_, served⟩ := served
  have inOrder : InOrder checkedAgain.trace := by simp [InOrder, checkedAgain]
  have answered (text : String) : checkedAgain.Answered text := by simp [Answered, checkedAgain]
  refine ⟨?_, fun fresh => ?_⟩
  · exact (let_through_iff served inOrder underWay_checkedAgain (fun text _ => answered text)
      (exec_check_of_inside rfl rfl (by decide +kernel))).mp rfl
  · have passed := (let_through_iff served inOrder underWay_checkedAgain
      (fun text _ => answered text) exec_checkedAgain).mpr fresh
    cases passed

end ReplayRun

end SecureMcp
