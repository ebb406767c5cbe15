import Mathlib.Algebra.Order.Ring.Rat
import SecureMcp.Library.Interleaving

/-! Stores whose entries are kept up to an instant of their own. -/

open Interaction

/-- Each key with its value and the instant up to which it is kept. -/
abbrev Expiring (κ ν : Type) : Type := κ → Option (ν × Rat)

namespace Expiring

variable {κ ν : Type} [DecidableEq κ]

/-- The value of a key whose instant has not passed. -/
def live (store : Expiring κ ν) (key : κ) (now : Rat) : Option ν :=
  (store key).bind (fun entry => if now ≤ entry.2 then some entry.1 else none)

def put (store : Expiring κ ν) (key : κ) (value : ν) (expiry : Rat) : Expiring κ ν :=
  fun other => if other = key then some (value, expiry) else store other

/-- Put a key unless it is live. -/
def putNew (store : Expiring κ ν) (key : κ) (value : ν) (now expiry : Rat) : Expiring κ ν :=
  if (store.live key now).isSome then store else store.put key value expiry

def drop (store : Expiring κ ν) (key : κ) : Expiring κ ν :=
  fun other => if other = key then none else store other

variable {store : Expiring κ ν} {key other : κ} {value : ν} {entry : ν × Rat} {now expiry : Rat}

omit [DecidableEq κ] in
theorem live_eq_some_iff
    : store.live key now = some value ↔ ∃ expiry, store key = some (value, expiry) ∧ now ≤ expiry := by
  unfold live
  cases store key with
  | none => simp
  | some entry => simp [Prod.ext_iff, and_comm]

omit [DecidableEq κ] in
/-- An entry whose key is not live has passed its instant. -/
theorem expired_of_live_none (held : store key = some entry) (dead : store.live key now = none)
    : entry.2 < now := by
  simpa [live, held] using dead

@[simp] theorem put_self : store.put key value expiry key = some (value, expiry) :=
  if_pos rfl

theorem put_other (differs : other ≠ key) : store.put key value expiry other = store other :=
  if_neg differs

@[simp] theorem drop_self : store.drop key key = none :=
  if_pos rfl

theorem drop_other (differs : other ≠ key) : store.drop key other = store other :=
  if_neg differs

theorem putNew_of_live_none (dead : store.live key now = none)
    : store.putNew key value now expiry = store.put key value expiry := by
  simp [putNew, dead]

/-- An entry survives another one's creation, unless it has passed its instant. -/
theorem putNew_kept (held : store other = some entry)
    : store.putNew key value now expiry other = some entry ∨ entry.2 < now := by
  unfold putNew
  split
  · exact Or.inl held
  · next dead =>
      by_cases same : other = key
      · subst same
        exact Or.inr (expired_of_live_none held (by simpa using dead))
      · exact Or.inl ((put_other same).trans held)

section

variable {ι Call : Type} {Reply : Call → Type}
  {serves : Expiring κ ν → Stamped ι Reply → Expiring κ ν → Prop}
  {final : Expiring κ ν} {trace : List (Stamped ι Reply)}

omit [DecidableEq κ] in
/-- An entry that every step keeps up to its instant is there after a run, or the run went on
past its instant, by induction on the run.
-/
theorem kept_of_run (run : Machine.Run serves store trace final)
    (keeps : ∀ before after, ∀ step ∈ trace,
      serves before step after
      → before key = some entry
      → after key = some entry ∨ entry.2 < step.instant)
    (held : store key = some entry)
    : final key = some entry ∨ ∃ step ∈ trace, entry.2 < step.instant := by
  induction run with
  | nil => exact Or.inl held
  | concat _ last ih =>
      rcases ih (fun before after step member => keeps before after step
        (List.mem_append_left _ member)) with still | ⟨step, member, past⟩
      · rcases keeps _ _ _ (by simp) last still with now | past
        · exact Or.inl now
        · exact Or.inr ⟨_, by simp, past⟩
      · exact Or.inr ⟨step, List.mem_append_left _ member, past⟩

omit [DecidableEq κ] in
/-- An entry that one step leaves and that a later step does not find live has passed its
instant by then, when the steps between them keep it.
-/
theorem expired_between {before middle later : List (Stamped ι Reply)}
    {one two : Stamped ι Reply}
    (run : Machine.Run serves store (before ++ one :: (middle ++ two :: later)) final)
    (inOrder : InOrder (before ++ one :: (middle ++ two :: later)))
    (leaves : ∀ before after, serves before one after → after key = some entry)
    (finds : ∀ before after, serves before two after → before.live key two.instant = none)
    (keeps : ∀ before after, ∀ step ∈ middle,
      serves before step after
      → before key = some entry
      → after key = some entry ∨ entry.2 < step.instant)
    : entry.2 < two.instant := by
  obtain ⟨_, _, run⟩ := run.split
  obtain ⟨_, servedOne, run⟩ := run.head
  obtain ⟨_, between, run⟩ := run.split
  obtain ⟨_, servedTwo, _⟩ := run.head
  rcases kept_of_run between keeps (leaves _ _ servedOne) with still | ⟨step, member, past⟩
  · exact expired_of_live_none still (finds _ _ servedTwo)
  · have ordered := (List.pairwise_cons.mp (List.pairwise_append.mp inOrder).2.1).2
    obtain ⟨_, _, across⟩ := List.pairwise_append.mp ordered
    exact lt_of_lt_of_le past (across step member two List.mem_cons_self)

end

end Expiring
