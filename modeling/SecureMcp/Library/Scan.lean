import Mathlib.Data.List.Basic

/-! Scans that carry a state from item to item and stop at the first item that fails its
check. A scan can be taken up again behind any accepted items with the state they left.
-/

namespace Scan

variable {σ α : Type} (check : σ → α → Option σ)

/-- The items before the first one that fails. -/
def accepted (state : σ) : List α → List α
  | [] => []
  | item :: rest =>
      match check state item with
      | some next => item :: accepted next rest
      | none => []

/-- The state behind the accepted items. -/
def reached (state : σ) : List α → σ
  | [] => state
  | item :: rest =>
      match check state item with
      | some next => reached next rest
      | none => state

/-- The first item that fails, with the state that it was checked in. -/
def rejected (state : σ) : List α → Option (σ × α)
  | [] => none
  | item :: rest =>
      match check state item with
      | some next => rejected next rest
      | none => some (state, item)

variable {check}

theorem accepted_prefix (state : σ) (items : List α) : accepted check state items <+: items := by
  induction items generalizing state with
  | nil => exact List.prefix_rfl
  | cons item rest ih =>
      simp only [accepted]
      cases check state item with
      | none => exact List.nil_prefix
      | some next => exact List.cons_prefix_cons.mpr ⟨rfl, ih next⟩

/-- A scan that has accepted everything it saw goes on behind it, by induction on what it
saw.
-/
theorem accepted_append {state : σ} {first : List α} (all : accepted check state first = first)
    (later : List α)
    : accepted check state (first ++ later)
      = first ++ accepted check (reached check state first) later := by
  induction first generalizing state with
  | nil => rfl
  | cons item rest ih =>
      simp only [accepted, reached, List.cons_append] at all ⊢
      cases passed : check state item with
      | none =>
          rw [passed] at all
          cases all
      | some next =>
          rw [passed] at all
          simp only [List.cons.injEq, true_and] at all ⊢
          exact ih all

theorem rejected_append {state : σ} {first : List α} (all : accepted check state first = first)
    (later : List α)
    : rejected check state (first ++ later)
      = rejected check (reached check state first) later := by
  induction first generalizing state with
  | nil => rfl
  | cons item rest ih =>
      simp only [accepted, reached, rejected, List.cons_append] at all ⊢
      cases passed : check state item with
      | none =>
          rw [passed] at all
          cases all
      | some next =>
          rw [passed] at all
          simp only [List.cons.injEq, true_and] at all ⊢
          exact ih all

/-- The accepted items are accepted on their own. -/
theorem accepted_accepted (state : σ) (items : List α)
    : accepted check state (accepted check state items) = accepted check state items := by
  induction items generalizing state with
  | nil => rfl
  | cons item rest ih =>
      simp only [accepted]
      cases passed : check state item with
      | none => rfl
      | some next => simp [accepted, passed, ih next]

/-- Nothing fails exactly when everything is accepted. -/
theorem rejected_eq_none_iff {state : σ} {items : List α}
    : rejected check state items = none ↔ accepted check state items = items := by
  induction items generalizing state with
  | nil => simp [rejected, accepted]
  | cons item rest ih =>
      simp only [rejected, accepted]
      cases check state item with
      | none => simp
      | some next => simpa using ih

end Scan
