import Mathlib.Logic.Function.Basic
import SecureMcp.Library.Machine

/-! Rows that threads lock before they change them. A thread keeps its locks until it ends its
transaction, and the rows that it holds stay as they are under the steps of all others.
-/

/-- The rows of a table, and the threads that hold them. -/
structure RowLocks (ι κ ν : Type) where
  rows : κ → Option ν
  holder : κ → Option ι

namespace RowLocks

variable {ι κ ν : Type}

/-- No other thread holds a row. -/
def Free (table : RowLocks ι κ ν) (thread : ι) (key : κ) : Prop :=
  ∀ owner, table.holder key = some owner → owner = thread

/-- No row, and nothing held. -/
def empty : RowLocks ι κ ν where
  rows _ := none
  holder _ := none

section

variable [DecidableEq κ]

def lock (table : RowLocks ι κ ν) (thread : ι) (key : κ) : RowLocks ι κ ν where
  rows := table.rows
  holder := Function.update table.holder key (some thread)

def put (table : RowLocks ι κ ν) (key : κ) (row : ν) : RowLocks ι κ ν where
  rows := Function.update table.rows key (some row)
  holder := table.holder

end

/-- The end of a transaction gives up all locks of its thread. -/
def release [DecidableEq ι] (table : RowLocks ι κ ν) (thread : ι) : RowLocks ι κ ν where
  rows := table.rows
  holder key := if table.holder key = some thread then none else table.holder key

/-- A thread holds a row. -/
structure Holds (table : RowLocks ι κ ν) (owner : ι) (key : κ) (row : ν) : Prop where
  held : table.holder key = some owner
  present : table.rows key = some row

variable {table final : RowLocks ι κ ν} {owner thread : ι} {key other : κ} {row value : ν}

theorem Holds.free (holds : table.Holds owner key row) : table.Free owner key := by
  intro other held
  rw [holds.held] at held
  exact (Option.some.inj held).symm

/-- A row that every step of a run leaves held is held at its end, by induction on the run. -/
theorem holds_of_run {α : Type} {step : RowLocks ι κ ν → α → RowLocks ι κ ν → Prop}
    {actions : List α} (run : Machine.Run step table actions final)
    (keeps : ∀ before after, ∀ action ∈ actions,
      step before action after → before.Holds owner key row → after.Holds owner key row)
    (holds : table.Holds owner key row)
    : final.Holds owner key row := by
  induction run with
  | nil => exact holds
  | concat _ last ih =>
      refine keeps _ _ _ (by simp) last (ih ?_)
      exact fun before after action member => keeps before after action (List.mem_append_left _ member)

section

variable [DecidableEq κ]

@[simp] theorem rows_lock : (table.lock thread key).rows = table.rows :=
  rfl

@[simp] theorem rows_put_self : (table.put key row).rows key = some row :=
  Function.update_self _ _ _

theorem rows_put_other (differs : other ≠ key) : (table.put key row).rows other = table.rows other :=
  Function.update_of_ne differs _ _

theorem holds_lock (present : table.rows key = some row)
    : (table.lock thread key).Holds thread key row :=
  ⟨Function.update_self _ _ _, present⟩

/-- A row is locked by the thread that holds it, or by nobody. -/
theorem Holds.lock (holds : table.Holds owner key row) (free : table.Free thread other)
    : (table.lock thread other).Holds owner key row := by
  refine ⟨?_, holds.present⟩
  by_cases same : key = other
  · subst same
    rw [free owner holds.held]
    exact Function.update_self _ _ _
  · exact (Function.update_of_ne same _ _).trans holds.held

/-- A change to a row that another thread does not hold leaves what it does hold. -/
theorem Holds.put (holds : table.Holds owner key row) (free : table.Free thread other)
    (differs : thread ≠ owner)
    : (table.put other value).Holds owner key row := by
  refine ⟨holds.held, (rows_put_other ?_).trans holds.present⟩
  rintro rfl
  exact differs (free owner holds.held).symm

/-- A new row is not one that is held. -/
theorem Holds.putNew (holds : table.Holds owner key row) (absent : table.rows other = none)
    : (table.put other value).Holds owner key row := by
  refine ⟨holds.held, (rows_put_other ?_).trans holds.present⟩
  rintro rfl
  rw [holds.present] at absent
  cases absent

end

section

variable [DecidableEq ι]

@[simp] theorem rows_release : (table.release thread).rows = table.rows :=
  rfl

/-- What a thread held is free for all when it ends its transaction. -/
theorem free_release {later : ι} (free : table.Free thread key)
    : (table.release thread).Free later key := by
  intro owner held
  unfold RowLocks.release at held
  dsimp only at held
  split at held
  · cases held
  · next other =>
      rw [free owner held] at held
      exact absurd held other

theorem Holds.release (holds : table.Holds owner key row) (differs : thread ≠ owner)
    : (table.release thread).Holds owner key row := by
  refine ⟨?_, holds.present⟩
  simp [RowLocks.release, holds.held, differs.symm]

end

end RowLocks
