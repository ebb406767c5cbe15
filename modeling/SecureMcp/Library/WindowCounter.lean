import Mathlib.Algebra.Order.Ring.Rat
import Mathlib.Data.List.Induction
import Mathlib.Tactic.Linarith

/-! Counters that are incremented, and given an expiry by the hit that starts them. Either
command may fail, before or after it was applied. What the counter holds is compared with
the hits that a window before an instant contains.
-/

namespace WindowCounter

/-- A command was applied and answered, or applied without an answer, or not applied. -/
inductive Reach
  | applied
  | lost
  | refused
  deriving DecidableEq

/-- One hit: its instant, and what became of its increment and of the expiry that it sets when
it starts the counter.
-/
structure Hit where
  instant : Rat
  incr : Reach
  expire : Reach

/-- The increment was applied. -/
def Hit.Counted (hit : Hit) : Prop :=
  hit.incr ≠ .refused

instance (hit : Hit) : Decidable hit.Counted :=
  inferInstanceAs (Decidable (_ ≠ _))

/-- The expiry was applied, which is asked for once the increment is answered. -/
def Hit.Expires (hit : Hit) : Prop :=
  hit.incr = .applied ∧ hit.expire ≠ .refused

instance (hit : Hit) : Decidable hit.Expires :=
  inferInstanceAs (Decidable (_ ∧ _))

/-- A value, and the instant up to which it is kept, if it has one. -/
abbrev Counter : Type := Option (Int × Option Rat)

namespace Counter

def live (counter : Counter) (now : Rat) : Option Int :=
  counter.bind (fun entry => if entry.2.all (fun expiry => now ≤ expiry) then some entry.1 else none)

/-- Increment a live value and keep its expiry; a key that is not live starts without one. -/
def incr (counter : Counter) (now : Rat) : Counter :=
  match counter.live now with
  | some value => some (value + 1, counter.bind Prod.snd)
  | none => some (1, none)

/-- Add to a live value, or to none. -/
def incrBy (counter : Counter) (now : Rat) (amount : Nat) : Counter :=
  match counter.live now with
  | some value => some (value + amount, counter.bind Prod.snd)
  | none => some (amount, none)

/-- Set the expiry of a live value. -/
def expire (counter : Counter) (now seconds : Rat) : Counter :=
  (counter.live now).map (fun value => (value, some (now + seconds)))

/-- The value that a hit's increment gives. -/
def next (counter : Counter) (now : Rat) : Int :=
  (counter.live now).getD 0 + 1

/-- The number that a key holds, whether or not it has expired. -/
def value (counter : Counter) : Int :=
  (counter.map Prod.fst).getD 0

theorem live_le_value {counter : Counter} (now : Rat) (nonNegative : 0 ≤ counter.value)
    : 0 ≤ (counter.live now).getD 0 ∧ (counter.live now).getD 0 ≤ counter.value := by
  unfold live
  cases counter with
  | none => exact ⟨le_rfl, nonNegative⟩
  | some entry =>
      dsimp only [Option.bind_some]
      split
      · exact ⟨nonNegative, le_rfl⟩
      · exact ⟨le_rfl, nonNegative⟩

theorem value_incrBy (counter : Counter) (now : Rat) (amount : Nat)
    : (counter.incrBy now amount).value = (counter.live now).getD 0 + amount := by
  unfold incrBy
  cases counter.live now with
  | none => exact (zero_add _).symm
  | some value => rfl

theorem value_expire (counter : Counter) (now seconds : Rat)
    : (counter.expire now seconds).value = (counter.live now).getD 0 := by
  unfold expire
  cases counter.live now <;> rfl

/-- A hit on the counter: only the one that finds itself first sets the expiry. -/
def hit (window : Rat) (counter : Counter) (hit : Hit) : Counter :=
  if ¬ hit.Counted then counter
  else if hit.Expires ∧ counter.next hit.instant = 1 then
    (counter.incr hit.instant).expire hit.instant window
  else counter.incr hit.instant

variable {counter : Counter} {hit : Hit} {window : Rat}

/-- A hit whose increment is not answered ends there. -/
theorem hit_of_unanswered (unanswered : hit.incr ≠ .applied)
    : counter.hit window hit
      = if hit.incr = .refused then counter else counter.incr hit.instant := by
  simp [Counter.hit, Hit.Counted, Hit.Expires, unanswered]

/-- A hit that finds itself first asks for the expiry. -/
theorem hit_of_first (answered : hit.incr = .applied) (first : counter.next hit.instant = 1)
    : counter.hit window hit
      = if hit.expire = .refused then counter.incr hit.instant
        else (counter.incr hit.instant).expire hit.instant window := by
  by_cases refused : hit.expire = .refused <;>
    simp [Counter.hit, Hit.Counted, Hit.Expires, answered, first, refused]

theorem hit_of_later (answered : hit.incr = .applied) (later : counter.next hit.instant ≠ 1)
    : counter.hit window hit = counter.incr hit.instant := by
  simp [Counter.hit, Hit.Counted, answered, later]

theorem live_incr (counter : Counter) (now : Rat)
    : (counter.incr now).live now = some (counter.next now) := by
  unfold Counter.incr Counter.next
  cases held : counter with
  | none => rfl
  | some entry =>
      by_cases going : entry.2.all (fun expiry => now ≤ expiry)
      · simp [Counter.live, going]
      · simp [Counter.live, going]

/-- A hit whose increment is applied is counted, with or without the expiry. -/
theorem live_hit (counted : hit.Counted) (lasting : 0 ≤ window)
    : (counter.hit window hit).live hit.instant = some (counter.next hit.instant) := by
  have bumped := live_incr counter hit.instant
  unfold Counter.hit
  split
  · next uncounted => exact absurd counted uncounted
  · split
    · unfold Counter.expire
      rw [bumped]
      simp [Counter.live, lasting]
    · exact bumped

end Counter

/-- The counter after some hits. -/
def after (window : Rat) (hits : List Hit) : Counter :=
  hits.foldl (Counter.hit window) none

/-- The hits of a counter: those since it was started, and those before. -/
structure Hits where
  earlier : List Hit := []
  since : List Hit := []

namespace Hits

def all (hits : Hits) : List Hit :=
  hits.earlier ++ hits.since

/-- Whether the counter that the last start began is live. -/
def Live (hits : Hits) (window now : Rat) : Prop :=
  ∃ first ∈ hits.since.head?, first.Expires → now ≤ first.instant + window

instance (hits : Hits) (window now : Rat) : Decidable (hits.Live window now) :=
  match found : hits.since with
  | [] => isFalse (by simp [Live, found])
  | first :: _ => decidable_of_iff (first.Expires → now ≤ first.instant + window)
      (by simp [Live, found])

/-- A hit starts a counter when none is live. -/
def add (window : Rat) (hits : Hits) (hit : Hit) : Hits :=
  if hits.Live window hit.instant ∨ (¬ hit.Counted ∧ hits.since ≠ []) then
    { hits with since := hits.since ++ [hit] }
  else if hit.Counted then { earlier := hits.all, since := [hit] }
  else { hits with earlier := hits.earlier ++ [hit] }

/-- The hits of the counter that is live at an instant, if one is. -/
def seenAt (window : Rat) (hits : Hits) (now : Rat) : Hits :=
  if hits.Live window now then hits else { earlier := hits.all }

end Hits

def hitsOf (window : Rat) (hits : List Hit) : Hits :=
  hits.foldl (Hits.add window) {}

namespace Hits

/-- The counter that the hits since the last start leave. -/
def counter (window : Rat) (hits : Hits) : Counter :=
  match hits.since with
  | [] => none
  | first :: _ =>
      some (hits.since.countP Hit.Counted,
        if first.Expires then some (first.instant + window) else none)

/-- A counter is started by a hit whose increment was applied. -/
def Started (hits : Hits) : Prop :=
  ∀ first ∈ hits.since.head?, first.Counted

variable {window now : Rat} {hits : Hits} {hit first : Hit} {rest : List Hit}

theorem all_add : (hits.add window hit).all = hits.all ++ [hit] := by
  unfold add all
  split
  · simp
  · split
    · rfl
    · next dead lost =>
        have none : hits.since = [] := by
          by_contra some
          exact dead (Or.inr ⟨lost, some⟩)
        simp [none]

theorem Started.add (started : hits.Started) : (hits.add window hit).Started := by
  unfold Hits.add
  split
  · next going =>
      cases found : hits.since with
      | nil => simp [Live, found] at going
      | cons first rest =>
          have counted := started first (by simp [found])
          simpa [Started, found] using counted
  · split
    · next counted => simpa [Started] using counted
    · exact started

theorem not_live_nil {earlier : List Hit} : ¬ Live { earlier, since := [] } window now := by
  simp [Live]

theorem live_cons {earlier : List Hit}
    : Live { earlier, since := first :: rest } window now
      ↔ (first.Expires → now ≤ first.instant + window) := by
  simp [Live]

theorem live_counter (hits : Hits) (window now : Rat)
    : (hits.counter window).live now
      = if hits.Live window now then some (hits.since.countP Hit.Counted : Int) else none := by
  obtain ⟨earlier, since⟩ := hits
  cases since with
  | nil => simp [counter, Counter.live, not_live_nil]
  | cons first rest =>
      by_cases expires : first.Expires <;> simp [counter, Counter.live, live_cons, expires]

/-- A hit that finds no live counter starts one. -/
theorem hit_of_dead {counter : Counter} (dead : counter.live hit.instant = none)
    (counted : hit.Counted)
    : counter.hit window hit
      = some (1, if hit.Expires then some (hit.instant + window) else none) := by
  have first : counter.next hit.instant = 1 := by
    simp [Counter.next, dead]
  have started : counter.incr hit.instant = some (1, none) := by
    simp [Counter.incr, dead]
  unfold Counter.hit
  by_cases expires : hit.Expires
  · simp [counted, expires, first, started, Counter.expire, Counter.live]
  · simp [counted, expires, started]

/-- A hit that finds a live counter adds to it and leaves its expiry. -/
theorem hit_of_live {counter : Counter} {value : Int} {expiry : Option Rat}
    (held : counter = some (value, expiry)) (live : counter.live hit.instant = some value)
    (counted : hit.Counted) (positive : 0 < value)
    : counter.hit window hit = some (value + 1, expiry) := by
  have later : counter.next hit.instant ≠ 1 := by
    simp only [Counter.next, live, Option.getD_some]
    omega
  unfold Counter.hit Counter.incr
  rw [if_neg (not_not_intro counted), if_neg (fun both => later both.2), live, held]
  rfl

theorem Started.counted_pos {earlier : List Hit}
    (started : Started { earlier, since := first :: rest })
    : 0 < (first :: rest).countP Hit.Counted := by
  have counted : first.Counted := started first (by simp)
  simp [counted]

/-- A hit changes the counter as its commands do. -/
theorem counter_add (started : hits.Started)
    : (hits.add window hit).counter window = (hits.counter window).hit window hit := by
  have live := live_counter hits window hit.instant
  obtain ⟨earlier, since⟩ := hits
  by_cases counted : hit.Counted
  · by_cases going : Live { earlier, since } window hit.instant
    · rw [if_pos going] at live
      cases since with
      | nil => exact absurd going not_live_nil
      | cons first rest =>
          have positive := started.counted_pos
          have held : counter window { earlier, since := first :: rest }
              = some (((first :: rest).countP Hit.Counted : Int),
                if first.Expires then some (first.instant + window) else none) :=
            rfl
          have added : add window { earlier, since := first :: rest } hit
              = { earlier, since := first :: (rest ++ [hit]) } := by
            simp [add, going]
          rw [hit_of_live held live counted (by exact_mod_cast positive), added, counter,
            ← List.cons_append, List.countP_append]
          simp [counted]
    · rw [if_neg going] at live
      rw [hit_of_dead live counted]
      simp [add, going, counted, counter]
  · have kept : (counter window { earlier, since }).hit window hit
        = counter window { earlier, since } := by
      simp [Counter.hit, counted]
    rw [kept]
    cases since with
    | nil => simp [add, not_live_nil, counted, counter]
    | cons first rest =>
        have added : add window { earlier, since := first :: rest } hit
            = { earlier, since := first :: (rest ++ [hit]) } := by
          simp [add, counted]
        rw [added, counter, ← List.cons_append, List.countP_append]
        simp [counted, counter]

end Hits

section

variable {window now : Rat} {hits : List Hit}

/-- The hits since the last start describe the counter, by induction on the hits from their
end.
-/
theorem after_eq (window : Rat) (hits : List Hit)
    : after window hits = (hitsOf window hits).counter window
      ∧ (hitsOf window hits).Started
      ∧ (hitsOf window hits).all = hits := by
  induction hits using List.reverseRecOn with
  | nil => exact ⟨rfl, by simp [hitsOf, Hits.Started], rfl⟩
  | append_singleton hits newest ih =>
      obtain ⟨same, started, all⟩ := ih
      have step : hitsOf window (hits ++ [newest]) = (hitsOf window hits).add window newest := by
        simp [hitsOf]
      have stepped : after window (hits ++ [newest])
          = (after window hits).hit window newest := by
        simp [after]
      rw [step, stepped, same]
      refine ⟨(Hits.counter_add started).symm, started.add, ?_⟩
      rw [Hits.all_add, all]

/-- The hits of the live counter are what the next increment counts. -/
theorem next_eq (window now : Rat) (hits : List Hit)
    : (after window hits).next now
      = ((hitsOf window hits).seenAt window now).since.countP Hit.Counted + 1 := by
  rw [(after_eq window hits).1, Counter.next, Hits.live_counter, Hits.seenAt]
  split <;> simp

/-- The hit falls in the window before an instant. -/
def Hit.Within (window now : Rat) (hit : Hit) : Prop :=
  now - window ≤ hit.instant

instance (window now : Rat) (hit : Hit) : Decidable (hit.Within window now) :=
  inferInstanceAs (Decidable (_ ≤ _))

/-- How many of some hits fall in the window. -/
def within (window now : Rat) (hits : List Hit) : Nat :=
  hits.countP (Hit.Within window now)

/-- The hits of the window that the counter does not count: those before it was started, and
those whose increment was refused.
-/
def missed (window now : Rat) (hits : Hits) : Nat :=
  within window now hits.earlier
  + hits.since.countP (fun hit => decide (hit.Within window now ∧ ¬ hit.Counted))

/-- The hits that the counter still counts though they are before the window. -/
def overdue (window now : Rat) (hits : Hits) : Nat :=
  hits.since.countP (fun hit => decide (¬ hit.Within window now ∧ hit.Counted))

/-- What is counted, and what is missed of the window, by induction on the hits. -/
theorem counted_add_missed (window now : Rat) (hits : Hits)
    : hits.since.countP Hit.Counted + missed window now hits
      = within window now hits.all + overdue window now hits := by
  have balance (since : List Hit)
      : since.countP Hit.Counted
          + since.countP (fun hit => decide (hit.Within window now ∧ ¬ hit.Counted))
        = since.countP (Hit.Within window now)
          + since.countP (fun hit => decide (¬ hit.Within window now ∧ hit.Counted)) := by
    induction since with
    | nil => rfl
    | cons hit rest ih =>
        simp only [List.countP_cons]
        by_cases inside : hit.Within window now <;> by_cases counted : hit.Counted
        all_goals simp only [inside, counted, decide_true, decide_false, not_true, not_false_eq_true,
          and_true, and_false, if_true, if_false, Bool.false_eq_true]
        all_goals omega
  have split := balance hits.since
  unfold missed overdue within Hits.all
  rw [List.countP_append]
  omega

/-- Every counter that is live has been given an expiry. -/
def Expiring (window now : Rat) (hits : List Hit) : Prop :=
  ∀ first ∈ ((hitsOf window hits).seenAt window now).since.head?, first.Expires

theorem all_seenAt (hits : Hits) : (hits.seenAt window now).all = hits.all := by
  unfold Hits.seenAt Hits.all
  split <;> simp

/-- When no hit falls in the window, the next one starts the counter again exactly if none is
live without an expiry.
-/
theorem next_eq_one_iff (outside : ∀ hit ∈ hits, ¬ hit.Within window now)
    : (after window hits).next now = 1 ↔ Expiring window now hits := by
  obtain ⟨_, started, all⟩ := after_eq window hits
  rw [next_eq, Expiring, Hits.seenAt]
  split
  · next live =>
      obtain ⟨first, head, keeps⟩ := live
      have among : first ∈ (hitsOf window hits).since := List.mem_of_mem_head? head
      have counted : 0 < (hitsOf window hits).since.countP Hit.Counted :=
        List.countP_pos_iff.mpr ⟨first, among, by simpa using started first head⟩
      refine ⟨fun one => by omega, ?_⟩
      intro expires
      have within := keeps (expires first head)
      have member : first ∈ hits := by
        rw [← all]
        exact List.mem_append_right _ among
      exact absurd (by unfold Hit.Within; linarith) (outside first member)
  · simp

/-- The next increment stands for the window: it exceeds a threshold when the hits of the
window do, and it is 1 when there is none.
-/
def Stands (window now : Rat) (threshold : Int) (hits : List Hit) : Prop :=
  (threshold < within window now hits + 1 → threshold < (after window hits).next now)
  ∧ ((∀ hit ∈ hits, ¬ hit.Within window now) → (after window hits).next now = 1)

theorem stands_iff (window now : Rat) (threshold : Int) (hits : List Hit)
    : Stands window now threshold hits
      ↔ (threshold < within window now hits + 1
          → threshold + missed window now ((hitsOf window hits).seenAt window now)
              < within window now hits + 1
                + overdue window now ((hitsOf window hits).seenAt window now))
        ∧ ((∀ hit ∈ hits, ¬ hit.Within window now) → Expiring window now hits) := by
  have balance := counted_add_missed window now
    ((hitsOf window hits).seenAt window now)
  rw [all_seenAt, (after_eq window hits).2.2] at balance
  refine and_congr ?_ (imp_congr_right next_eq_one_iff)
  rw [next_eq]
  refine imp_congr_right fun _ => ?_
  omega

end

end WindowCounter
