import Mathlib.Tactic.Linarith
import SecureMcp.Drift.Outcome
import SecureMcp.Interceptor.ReplayGuard
import SecureMcp.Library.Expiring

/-! The nonces that Redis remembers, and what concurrent replay checks let through: a nonce is
remembered for twice the window from the moment it was stored, which may be later than the
moment at which its timestamp was compared with the clock.
-/

namespace SecureMcp

open Interaction

/-- The remembered nonces, each with the instant up to which it is kept. -/
abbrev NonceKeys : Type := Expiring String Unit

namespace NonceKeys

/-- `SET key 1 NX EX seconds`. -/
def setNx (keys : NonceKeys) (nonce : String) (seconds : Int) (now : Rat) : NonceKeys :=
  keys.putNew nonce () now (now + seconds)

/-- How the clock and Redis answer at an instant. A request that raises may have been carried
out; Redis refuses an expiry time that is not positive.
-/
def Serves {ι : Type} (keys : NonceKeys) (step : Stamped ι Reply) (after : NonceKeys)
    : Prop :=
  match step.event with
  | ⟨.time, now⟩ => now = step.instant ∧ after = keys
  | ⟨.setNonce nonce seconds, .ok fresh⟩ =>
      0 < seconds
      ∧ fresh = (keys.live nonce step.instant).isNone
      ∧ after = keys.setNx nonce seconds step.instant
  | ⟨.setNonce nonce seconds, .error _⟩ =>
      after = keys ∨ (0 < seconds ∧ after = keys.setNx nonce seconds step.instant)
  | _ => after = keys

variable {ι : Type} {keys after final : NonceKeys} {nonce : String} {entry : Unit × Rat}

/-- A remembered nonce is kept up to its instant. -/
theorem Serves.kept {step : Stamped ι Reply} (served : keys.Serves step after)
    (held : keys nonce = some entry)
    : after nonce = some entry ∨ entry.2 < step.instant := by
  unfold Serves at served
  split at served
  · exact Or.inl (served.2 ▸ held)
  · exact served.2.2 ▸ Expiring.putNew_kept held
  · rcases served with same | ⟨_, same⟩
    · exact Or.inl (same ▸ held)
    · exact same ▸ Expiring.putNew_kept held
  · exact Or.inl (served ▸ held)

/-- A nonce that was fresh had no live entry, and is remembered for the given seconds. -/
theorem Serves.fresh {step : Stamped ι Reply} {seconds : Int} (served : keys.Serves step after)
    (stored : step.event = ⟨.setNonce nonce seconds, .ok true⟩)
    : keys.live nonce step.instant = none ∧ after nonce = some ((), step.instant + seconds) := by
  unfold Serves at served
  rw [stored] at served
  have dead : keys.live nonce step.instant = none := by simpa using served.2.1
  refine ⟨dead, ?_⟩
  rw [served.2.2, setNx, Expiring.putNew_of_live_none dead, Expiring.put_self]

/-- Between two times that a nonce is taken for fresh it has expired. -/
theorem expired_between {before middle later : List (Stamped ι Reply)}
    {one two : Stamped ι Reply} {seconds again : Int}
    (run : Machine.Run Serves keys (before ++ one :: (middle ++ two :: later)) final)
    (inOrder : InOrder (before ++ one :: (middle ++ two :: later)))
    (first : one.event = ⟨.setNonce nonce seconds, .ok true⟩)
    (second : two.event = ⟨.setNonce nonce again, .ok true⟩)
    : one.instant + seconds < two.instant :=
  Expiring.expired_between run inOrder (fun _ _ served => (served.fresh first).2)
    (fun _ _ served => (served.fresh second).1) (fun _ _ _ _ served held => served.kept held)

/-- The clock is read at the instant of its event. -/
theorem time_of_run {trace : List (Stamped ι Reply)} {step : Stamped ι Reply} {now : Rat}
    (run : Machine.Run Serves keys trace final) (member : step ∈ trace)
    (read : step.event = ⟨.time, now⟩)
    : now = step.instant := by
  obtain ⟨_, _, split⟩ := List.append_of_mem member
  rw [split] at run
  obtain ⟨_, _, run⟩ := run.split
  obtain ⟨_, served, _⟩ := run.head
  unfold Serves at served
  rw [read] at served
  exact served.1

end NonceKeys

namespace ReplayGuard

/-- The instant that a finite timestamp names. -/
def instant? : Json → Option Rat
  | .int value => some value
  | .float (.finite value) => some value.value
  | _ => none

/-- A check that lets a call through read the clock inside the window, unless the timestamp
names no instant, and found its nonce fresh.
-/
theorem exec_check_accepted {settings : Settings} {isUuid : String → Bool}
    {nonce timestamp : Json} {events : List (Event Reply)}
    (exec : (check settings isUuid nonce timestamp).run.Exec events (.ok none))
    : ∃ text now,
        nonce = .str text
        ∧ events =
            [
              ⟨.time, now⟩,
              ⟨.setNonce text (2 * settings.replayWindowSeconds), .ok true⟩
            ]
        ∧ outside now settings.replayWindowSeconds timestamp = .ok false := by
  unfold check at exec
  split at exec
  · next text =>
      split at exec
      · obtain ⟨_, impossible⟩ := Program.exec_done_iff.mp exec
        cases impossible
      · split at exec
        · obtain ⟨_, impossible⟩ := Program.exec_done_iff.mp exec
          cases impossible
        · obtain ⟨now, rest, split, exec⟩ := Coroutine.exec_ask_bind_iff.mp exec
          refine ⟨text, now, rfl, ?_⟩
          cases compared : outside now settings.replayWindowSeconds timestamp with
          | error exn =>
              rw [compared] at exec
              obtain ⟨_, impossible⟩ := Program.exec_done_iff.mp exec
              cases impossible
          | ok apart =>
              rw [compared, Coroutine.ofExcept_ok_bind] at exec
              cases apart with
              | true =>
                  obtain ⟨_, impossible⟩ := Program.exec_done_iff.mp exec
                  cases impossible
              | false =>
                  obtain ⟨first, second, fresh, same, stored, ended⟩ :=
                    Coroutine.exec_bind_ok_iff.mp exec
                  obtain ⟨reply, single, answered⟩ := Coroutine.exec_demand_iff.mp stored
                  have granted : reply = .ok fresh := answered
                  cases fresh with
                  | false =>
                      obtain ⟨_, impossible⟩ := Program.exec_done_iff.mp ended
                      cases impossible
                  | true =>
                      obtain ⟨empty, _⟩ := Program.exec_done_iff.mp ended
                      exact ⟨by rw [split, same, single, empty, granted]; rfl, rfl⟩
  · obtain ⟨_, impossible⟩ := Program.exec_done_iff.mp exec
    cases impossible

/-- Inside the window a call is let through when its nonce is fresh. -/
theorem exec_check_of_inside {settings : Settings} {isUuid : String → Bool} {text : String}
    {timestamp : Json} {now : Rat} (uuid : isUuid text) (number : isTimestamp timestamp)
    (inside : outside now settings.replayWindowSeconds timestamp = .ok false)
    : (check settings isUuid (.str text) timestamp).run.Exec
        [⟨.time, now⟩, ⟨.setNonce text (2 * settings.replayWindowSeconds), .ok true⟩]
        (.ok none) := by
  unfold check
  simp only [uuid, number, Bool.not_true, Bool.false_eq_true, if_false]
  apply Coroutine.exec_ask_bind_iff.mpr
  refine ⟨now, _, rfl, ?_⟩
  rw [inside, Coroutine.ofExcept_ok_bind]
  exact .ask (.done _)

/-- A finite timestamp inside the window is at most the window ahead of the clock. -/
theorem instant_le_of_inside {now moment : Rat} {window : Int} {timestamp : Json}
    (named : instant? timestamp = some moment) (inside : outside now window timestamp = .ok false)
    : moment ≤ now + window := by
  -- Only this half of the comparison is needed: the other bounds how old a timestamp is.
  have compared : apart now moment window = false → moment ≤ now + window := by
    intro inside
    simp only [apart, Bool.or_eq_false_iff, decide_eq_false_iff_not, not_lt] at inside
    linarith only [inside.2]
  cases timestamp with
  | int value =>
      cases named
      simp only [outside] at inside
      split at inside
      · exact compared (Except.ok.inj inside)
      · cases inside
  | float value =>
      cases value with
      | finite value =>
          cases named
          exact compared (Except.ok.inj inside)
      | infinity | nan => cases named
  | null | bool | str | arr | obj => cases named

end ReplayGuard

namespace NonceKeys

variable {ι : Type} [DecidableEq ι] {keys final : NonceKeys} {trace : List (Stamped ι Reply)}

/-- A step of a thread that stores a nonce for twice the window, not before the clock is at
the window before the timestamp.
-/
structure Stores (window : Int) (thread : ι) (nonce : String) (timestamp : Json)
    (step : Stamped ι Reply)
    : Prop where
  thread : step.thread = thread
  event : step.event = ⟨.setNonce nonce (2 * window), .ok true⟩
  notEarly : ∀ moment, ReplayGuard.instant? timestamp = some moment → moment ≤ step.instant + window

/-- A thread whose events contain a check that lets its call through stores the nonce. -/
theorem exists_stores {settings : Settings} {isUuid : String → Bool} {thread : ι}
    {nonce timestamp : Json} {events : List (Event Reply)}
    (run : Machine.Run Serves keys trace final) (inOrder : InOrder trace)
    (accepted : (ReplayGuard.check settings isUuid nonce timestamp).run.Exec events (.ok none))
    (among : events.Sublist (eventsOf thread trace))
    : ∃ text, nonce = .str text
      ∧ ∃ step ∈ trace, Stores settings.replayWindowSeconds thread text timestamp step := by
  obtain ⟨text, now, isText, same, inside⟩ := ReplayGuard.exec_check_accepted accepted
  rw [same] at among
  obtain ⟨read, stored, inTrace, _, ofThread, reading, storing, ordered⟩ :=
    ordered_of_eventsOf inOrder among
  have atRead := time_of_run run (inTrace.subset (by simp)) reading
  refine ⟨text, isText, stored, inTrace.subset (by simp), ofThread, storing, ?_⟩
  intro moment named
  have early := ReplayGuard.instant_le_of_inside named inside
  linarith only [early, atRead, ordered]

/-- A timestamp still holds at a step when it is a finite number and the step is not later
than the window after it.
-/
def Holds (window : Int) (timestamp : Json) (step : Stamped ι Reply) : Prop :=
  ∃ moment, ReplayGuard.instant? timestamp = some moment ∧ step.instant ≤ moment + window

omit [DecidableEq ι] in
/-- A nonce that is stored twice for one timestamp is stored the second time when the
timestamp no longer holds.
-/
theorem Stores.not_holds {window : Int} {nonce : String} {timestamp : Json}
    {one two : Stamped ι Reply} {thread other : ι} {before middle later : List (Stamped ι Reply)}
    (first : Stores window thread nonce timestamp one)
    (second : Stores window other nonce timestamp two)
    (run : Machine.Run Serves keys (before ++ one :: (middle ++ two :: later)) final)
    (inOrder : InOrder (before ++ one :: (middle ++ two :: later)))
    : ¬Holds window timestamp two := by
  rintro ⟨moment, named, inTime⟩
  have expired := expired_between run inOrder first.event second.event
  have notEarly := first.notEarly moment named
  push_cast at expired
  linarith only [expired, notEarly, inTime]

omit [DecidableEq ι] in
/-- Two threads do not both store one nonce for one timestamp while it holds. -/
theorem Stores.same_thread {window : Int} {nonce : String} {timestamp : Json}
    {one two : Stamped ι Reply} {thread other : ι}
    (run : Machine.Run Serves keys trace final) (inOrder : InOrder trace)
    (first : Stores window thread nonce timestamp one)
    (second : Stores window other nonce timestamp two)
    (inTrace : one ∈ trace) (alsoInTrace : two ∈ trace)
    (firstHolds : Holds window timestamp one) (secondHolds : Holds window timestamp two)
    : thread = other := by
  by_contra differ
  have apart : one ≠ two := by
    rintro rfl
    exact differ (first.thread.symm.trans second.thread)
  rcases before_or_after inTrace alsoInTrace apart with ⟨_, _, _, split⟩ | ⟨_, _, _, split⟩
  · rw [split] at run inOrder
    exact first.not_holds second run inOrder secondHolds
  · rw [split] at run inOrder
    exact second.not_holds first run inOrder firstHolds

end NonceKeys

/-- Concurrent replay checks: the pair that each one was given, and all of their events. -/
structure ReplayRun (ι : Type) where
  nonce : ι → Json
  timestamp : ι → Json
  trace : List (Stamped ι Reply)

namespace ReplayRun

variable {ι : Type} [DecidableEq ι]

/-- A check whose events end with the call let through. -/
def Accepted (runtime : Runtime) (run : ReplayRun ι) (thread : ι) : Prop :=
  (ReplayGuard.check runtime.settings runtime.isUuid (run.nonce thread)
    (run.timestamp thread)).run.Exec (eventsOf thread run.trace) (.ok none)

/-- No pair is let through twice. -/
def AcceptedOnce (runtime : Runtime) (run : ReplayRun ι) : Prop :=
  ∀ one two,
    run.nonce one = run.nonce two
    → run.timestamp one = run.timestamp two
    → run.Accepted runtime one
    → run.Accepted runtime two
    → one = two

/-- A nonce is stored while its timestamp, a finite number, is still inside the window. -/
def StoredInTime (runtime : Runtime) (run : ReplayRun ι) : Prop :=
  ∀ step ∈ run.trace, ∀ nonce seconds reply,
    step.event = ⟨.setNonce nonce seconds, reply⟩
    → NonceKeys.Holds runtime.settings.replayWindowSeconds (run.timestamp step.thread) step

/-- When every nonce is stored in time, no pair is let through twice, whatever passes between
the reading of the clock and the request to Redis.
-/
theorem acceptedOnce_of_storedInTime {runtime : Runtime} {run : ReplayRun ι}
    {keys final : NonceKeys} (served : Machine.Run NonceKeys.Serves keys run.trace final)
    (inOrder : InOrder run.trace) (inTime : run.StoredInTime runtime)
    : run.AcceptedOnce runtime := by
  intro one two sameNonce sameTimestamp firstAccepted secondAccepted
  obtain ⟨text, isText, first, inTrace, stores⟩ :=
    NonceKeys.exists_stores served inOrder firstAccepted (.refl _)
  obtain ⟨again, isAgain, second, alsoInTrace, storesAgain⟩ :=
    NonceKeys.exists_stores served inOrder secondAccepted (.refl _)
  rw [← sameNonce, isText] at isAgain
  cases isAgain
  have firstHolds := inTime first inTrace _ _ _ stores.event
  have secondHolds := inTime second alsoInTrace _ _ _ storesAgain.event
  rw [stores.thread, sameTimestamp] at firstHolds
  rw [storesAgain.thread] at secondHolds
  rw [sameTimestamp] at stores
  exact stores.same_thread served inOrder storesAgain inTrace alsoInTrace firstHolds secondHolds

/-- A check that reads the clock and stores its nonce at one instant. -/
def checkedAt (thread : Fin 2) (instant : Rat) (fresh : Bool) : List (Stamped (Fin 2) Reply) :=
  [
    ⟨thread, instant, ⟨.time, instant⟩⟩,
    ⟨thread, instant, ⟨.setNonce "11111111-1111-4111-8111-111111111111" 60, .ok fresh⟩⟩
  ]

/-- Two checks of one pair, the second at a later instant. -/
def checkedTwice (timestamp : Json) (instant : Rat) (fresh : Bool) : ReplayRun (Fin 2) where
  nonce _ := .str "11111111-1111-4111-8111-111111111111"
  timestamp _ := timestamp
  trace := checkedAt 0 0 true ++ checkedAt 1 instant fresh

theorem inOrder_checkedTwice {timestamp : Json} {instant : Rat} {fresh : Bool}
    (later : 0 ≤ instant)
    : InOrder (checkedTwice timestamp instant fresh).trace := by
  simp [InOrder, checkedTwice, checkedAt, later]

/-- Redis keeps the nonce of the first check for a minute. -/
theorem run_checkedTwice {timestamp : Json} {instant : Rat} {fresh : Bool}
    (kept : fresh = decide (60 < instant))
    : ∃ final,
        Machine.Run NonceKeys.Serves (fun _ => none)
          (checkedTwice timestamp instant fresh).trace final := by
  refine ⟨_, .cons ⟨rfl, rfl⟩ (.cons ⟨by decide, rfl, rfl⟩ (.cons ⟨rfl, rfl⟩
    (.cons ⟨by decide, ?_, rfl⟩ .nil)))⟩
  subst kept
  by_cases late : 60 < instant
  · simp [NonceKeys.setNx, Expiring.putNew, Expiring.put, Expiring.live, late]
  · simp [NonceKeys.setNx, Expiring.putNew, Expiring.put, Expiring.live, late, le_of_not_gt late]

/-- Witness: a pair that is checked again after ten seconds is let through once. -/
theorem second_check_rejected
    : (checkedTwice (.int 5) 10 false).Accepted DriftDetector.calm 0
      ∧ (checkedTwice (.int 5) 10 false).AcceptedOnce DriftDetector.calm := by
  refine ⟨ReplayGuard.exec_check_of_inside rfl rfl (by decide +kernel), ?_⟩
  obtain ⟨_, served⟩ :=
    @run_checkedTwice (.int 5) 10 false (by decide +kernel)
  apply acceptedOnce_of_storedInTime served (inOrder_checkedTwice (by decide +kernel))
  intro step member nonce seconds reply _
  refine ⟨5, rfl, ?_⟩
  have late : step.instant ≤ 10 := by
    simp only [checkedTwice, checkedAt, List.cons_append, List.nil_append, List.mem_cons,
      List.not_mem_nil, or_false] at member
    rcases member with rfl | rfl | rfl | rfl <;> decide +kernel
  exact le_trans late (by decide +kernel)

/-- A pair whose timestamp is NaN is let through again once its nonce has expired. -/
theorem nan_accepted_twice
    : ∃ final,
        Machine.Run NonceKeys.Serves (fun _ => none)
          (checkedTwice (.float .nan) 100 true).trace final
        ∧ InOrder (checkedTwice (.float .nan) 100 true).trace
        ∧ ¬(checkedTwice (.float .nan) 100 true).AcceptedOnce DriftDetector.calm := by
  obtain ⟨final, served⟩ :=
    @run_checkedTwice (.float .nan) 100 true (by decide +kernel)
  refine ⟨final, served, inOrder_checkedTwice (by decide +kernel), ?_⟩
  intro once
  have same := once 0 1 rfl rfl (ReplayGuard.exec_check_of_inside rfl rfl rfl)
    (ReplayGuard.exec_check_of_inside rfl rfl rfl)
  exact absurd same (by decide)

end ReplayRun

end SecureMcp
