import Mathlib.Data.List.Basic

/-! Loops that count the items with a property, and keep the first few of them. -/

namespace Tally

variable {α β : Type}

/-- A counter after one more item. -/
def count (property : α → Bool) (total : Nat) (item : α) : Nat :=
  if property item then total + 1 else total

/-- A counter ends with the number of the items that it counts, by induction on the items. -/
theorem foldl_count (property : α → Bool) (items : List α) (total : Nat)
    : items.foldl (count property) total = total + items.countP property := by
  induction items generalizing total with
  | nil => rfl
  | cons item rest ih =>
      rw [List.foldl_cons, ih, List.countP_cons, count]
      split <;> omega

/-- A sample after one more item: it takes what has the property as long as there is room. -/
def keep (cap : Nat) (property : α → Bool) (shown : α → β) (sample : List β) (item : α) : List β :=
  if property item ∧ sample.length < cap then sample ++ [shown item] else sample

/-- A sample ends with the first items that have the property, in order, by induction on them. -/
theorem foldl_keep (cap : Nat) (property : α → Bool) (shown : α → β) (items : List α)
    (sample : List β)
    : items.foldl (keep cap property shown) sample
      = sample ++ ((items.filter property).take (cap - sample.length)).map shown := by
  induction items generalizing sample with
  | nil => simp
  | cons item rest ih =>
      rw [List.foldl_cons, ih, keep]
      by_cases holds : property item
      · rw [List.filter_cons_of_pos holds]
        by_cases room : sample.length < cap
        · obtain ⟨left, same⟩ : ∃ left, cap - sample.length = left + 1 :=
            ⟨cap - sample.length - 1, by omega⟩
          have after : cap - (sample.length + 1) = left := by omega
          simp [holds, room, same, after]
        · have full : cap - sample.length = 0 := by omega
          simp [holds, room, full]
      · rw [List.filter_cons_of_neg holds]
        simp [holds]

/-- Of two properties, one of which implies the other, the counts are the same exactly when the
properties agree, by induction on the items.
-/
theorem countP_eq_iff {weak strong : α → Bool} {items : List α}
    (implies : ∀ item ∈ items, strong item → weak item)
    : items.countP strong = items.countP weak ↔ ∀ item ∈ items, weak item → strong item := by
  induction items with
  | nil => simp
  | cons item rest ih =>
      have fewer : rest.countP strong ≤ rest.countP weak :=
        List.countP_mono_left (fun other member => implies other (List.mem_cons_of_mem _ member))
      have within := ih (fun other member => implies other (List.mem_cons_of_mem _ member))
      have here := implies item List.mem_cons_self
      rw [List.forall_mem_cons, ← within, List.countP_cons, List.countP_cons]
      by_cases held : strong item
      · simp [held, here held]
      · by_cases weakly : weak item
        · simp only [held, weakly]
          simp
          omega
        · simp [held, weakly]

/-- Parts that each have one counted piece or none add up to the number of those that have one, by
induction on them.
-/
theorem countP_flatMap_eq {parts : α → List β} {piece : β → Bool} {whole : α → Bool} {items : List α}
    (each : ∀ item ∈ items, (parts item).countP piece = if whole item then 1 else 0)
    : (items.flatMap parts).countP piece = items.countP whole := by
  induction items with
  | nil => rfl
  | cons item rest ih =>
      rw [List.flatMap_cons, List.countP_append, each item List.mem_cons_self, List.countP_cons,
        ih (fun other member => each other (List.mem_cons_of_mem _ member)), Nat.add_comm]

end Tally
