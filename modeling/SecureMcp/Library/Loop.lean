import Mathlib.Data.List.Infix

/-! Loops that may stop with an error: invariants over the items that were visited, and
where a loop stopped.
-/

namespace Loop

variable {ε α β : Type} {step : β → α → Except ε β}

/-- A computation that may stop ends in a value when both of its parts do. -/
theorem bind_eq_ok {first : Except ε α} {next : α → Except ε β} {result : β}
    : (first >>= next) = .ok result ↔ ∃ value, first = .ok value ∧ next value = .ok result := by
  cases first <;> simp [bind, Except.bind]

/-- A loop over two lists is one over the first and then one over the second. -/
theorem foldlM_concat (start : β) (items : List α) (last : α)
    : (items ++ [last]).foldlM step start
      = (items.foldlM step start).bind (fun state => step state last) := by
  rw [List.foldlM_append]
  cases items.foldlM step start with
  | error stop => rfl
  | ok state => exact bind_pure (step state last)

/-- What holds at first and is kept by every step that succeeds holds after a loop that
succeeds, by induction on the items from their end.
-/
theorem foldlM_ok {inv : List α → β → Prop} {start final : β} {items : List α}
    (first : inv [] start)
    (next : ∀ done item state after,
      done ++ [item] <+: items
      → inv done state
      → step state item = .ok after
      → inv (done ++ [item]) after)
    (finished : items.foldlM step start = .ok final)
    : inv items final := by
  induction items using List.reverseRecOn generalizing final with
  | nil =>
      cases finished
      exact first
  | append_singleton done item ih =>
      rw [foldlM_concat] at finished
      cases before : done.foldlM step start with
      | error stop =>
          rw [before] at finished
          cases finished
      | ok state =>
          rw [before] at finished
          refine next done item state final List.prefix_rfl (ih ?_ before) finished
          intro earlier other middle after beginning
          exact next earlier other middle after
            (beginning.trans (List.prefix_append done [item]))

/-- A loop that stops does so at an item, with the invariant up to there. -/
theorem foldlM_error (inv : List α → β → Prop) {start : β} {items : List α} {stop : ε}
    (first : inv [] start)
    (next : ∀ done item state after,
      done ++ [item] <+: items
      → inv done state
      → step state item = .ok after
      → inv (done ++ [item]) after)
    (stopped : items.foldlM step start = .error stop)
    : ∃ done item state,
        done ++ [item] <+: items ∧ inv done state ∧ step state item = .error stop := by
  induction items using List.reverseRecOn with
  | nil => cases stopped
  | append_singleton done item ih =>
      have shorter : ∀ earlier other middle after,
          earlier ++ [other] <+: done
          → inv earlier middle
          → step middle other = .ok after
          → inv (earlier ++ [other]) after := by
        intro earlier other middle after beginning
        exact next earlier other middle after
          (beginning.trans (List.prefix_append done [item]))
      rw [foldlM_concat] at stopped
      cases before : done.foldlM step start with
      | error early =>
          rw [before] at stopped
          cases stopped
          obtain ⟨past, here, state, beginning, holds, failed⟩ := ih shorter before
          exact ⟨past, here, state, beginning.trans (List.prefix_append done [item]), holds,
            failed⟩
      | ok state =>
          rw [before] at stopped
          exact ⟨done, item, state, List.prefix_rfl, foldlM_ok first shorter before, stopped⟩

end Loop
