import SecureMcp.Audit.Chain

/-! What each call of the audit writer contributed to the table. A write stores its row before
the pointer transaction, so a transaction that is refused or fails leaves the row behind a
write that starts over or raises.
-/

namespace SecureMcp

/-- One call of `write` that has ended: the number that it returned, unless it raised, and
the numbers of the rows that were committed for it.
-/
structure WriteRecord where
  returned : Option Nat
  stored : List Nat

/-- The rows committed for the write that holds the lock, and the writes that have ended. -/
structure WriteLedger where
  stored : List Nat := []
  ended : List WriteRecord := []

namespace WriteLedger

/-- A write returns the number of the row that it stored last, once its EXEC is applied. -/
def returned (action : ChainAction) (stored : List Nat) : Option Nat :=
  match action with
  | .exec .applied => stored.getLast?
  | _ => none

/-- Account for one step of the writer. -/
def next (before : ChainState) (action : ChainAction) (after : ChainState)
    (ledger : WriteLedger)
    : WriteLedger :=
  let stored := ledger.stored ++ (after.rows.drop before.rows.length).map AuditRow.seq
  if before.holder.isSome && after.holder.isNone then
    { stored := [], ended := ledger.ended ++ [⟨returned action stored, stored⟩] }
  else { ledger with stored := stored }

end WriteLedger

/-- A write that returned contributed the row whose number it returned, and a write that
raised contributed none.
-/
def WriteRecord.AllOrNothing (record : WriteRecord) : Prop :=
  record.stored = record.returned.toList

namespace ChainState

/-- A step of the writer, with the account of it. -/
def accountedStep (keys : KeyPair) (state : ChainState × WriteLedger) (action : ChainAction)
    : Option (ChainState × WriteLedger) :=
  (state.1.step keys action).map (fun after => (after, state.2.next state.1 action after))

/-- A commit whose reply is lost, and a pointer transaction that is refused, fails, or whose
reply or connection is lost: the row is stored and the write goes on or raises.
-/
def Lapses : ChainAction → Prop
  | .insert _ .lost | .exec .watchError | .exec .failed | .exec .lost | .exec (.broken _) => True
  | _ => False

/-- Only a write that has committed its row has one in the account. -/
structure Accounted (state : ChainState) (ledger : WriteLedger) : Prop where
  ended : ∀ record ∈ ledger.ended, record.AllOrNothing
  idle : state.holder = none → ledger.stored = []
  uncommitted : ∀ holder,
    state.holder = some holder
    → (∀ hash, holder.phase ≠ .committed hash)
    → ledger.stored = []
  committed : ∀ holder hash,
    state.holder = some holder → holder.phase = .committed hash → ∃ seq, ledger.stored = [seq]

section

variable {keys : KeyPair} {state after : ChainState} {ledger : WriteLedger}
  {holder : LockHolder}

/-- A step that stores nothing and keeps the lock as it is accounts for nothing. -/
theorem next_of_same (rows : after.rows = state.rows)
    (lock : state.holder.isSome = true → after.holder.isSome = true) (action : ChainAction)
    : ledger.next state action after = ledger := by
  have kept : (state.holder.isSome && after.holder.isNone) = false := by
    cases held : state.holder.isSome with
    | false => rfl
    | true => simp [Option.isNone_eq_false_iff.mpr (lock held)]
  simp [WriteLedger.next, rows, kept]

/-- A write that ends without a row did not return either. -/
theorem Accounted.release (accounted : Accounted state ledger)
    (held : state.holder = some holder) (nothing : ledger.stored = [])
    (rows : after.rows = state.rows) (free : after.holder = none) (action : ChainAction)
    : Accounted after (ledger.next state action after) := by
  have raised : WriteLedger.returned action [] = none := by
    unfold WriteLedger.returned
    split <;> rfl
  have now : ledger.next state action after
      = { stored := [], ended := ledger.ended ++ [⟨none, []⟩] } := by
    simp [WriteLedger.next, held, free, rows, nothing, raised]
  rw [now]
  refine ⟨?_, fun _ => rfl, by simp, by simp [free]⟩
  intro record member
  rcases List.mem_append.mp member with old | new
  · exact accounted.ended record old
  · cases List.mem_singleton.mp new
    rfl

/-- Moving on without a row, with nothing stored so far. -/
theorem Accounted.advance (accounted : Accounted state ledger) (nothing : ledger.stored = [])
    {phase : WritePhase} (uncommitted : ∀ hash, phase ≠ .committed hash) (action : ChainAction)
    : Accounted (state.advance holder phase)
        (ledger.next state action (state.advance holder phase)) := by
  have same : ledger.next state action (state.advance holder phase) = ledger :=
    next_of_same (by rfl) (fun _ => by rfl) action
  rw [same]
  refine ⟨accounted.ended, fun _ => nothing, fun _ _ _ => nothing, ?_⟩
  intro other hash now committed
  cases now
  exact absurd committed (uncommitted hash)

theorem watch_accounted (accounted : Accounted state ledger)
    (held : state.holder = some holder) {fails : Bool}
    (stepped : state.watch holder fails = some after)
    : Accounted after (ledger.next state (.watch fails) after) := by
  cases phase : holder.phase with
  | start =>
      have nothing := accounted.uncommitted holder held (by simp [phase])
      simp only [watch, phase] at stepped
      split at stepped
      · cases stepped
        exact accounted.release held nothing (by rfl) (by rfl) _
      · cases stepped
        exact accounted.advance nothing (by simp) _
  | _ => simp [watch, phase] at stepped

theorem get_accounted (accounted : Accounted state ledger)
    (held : state.holder = some holder) {reply : GetReply}
    (stepped : state.get holder reply = some after)
    : Accounted after (ledger.next state (.get reply) after) := by
  cases phase : holder.phase with
  | watching =>
      have nothing := accounted.uncommitted holder held (by simp [phase])
      cases reply with
      | failed =>
          simp only [get, phase, Option.some.injEq] at stepped
          subst stepped
          exact accounted.release held nothing (by rfl) (by rfl) _
      | broken =>
          simp only [get, phase, Option.some.injEq] at stepped
          subst stepped
          exact accounted.advance nothing (by simp) _
      | hit =>
          cases found : state.pointer with
          | none => simp [get, phase, found] at stepped
          | some hash =>
              simp only [get, phase, found, Option.some.injEq] at stepped
              subst stepped
              exact accounted.advance nothing (by simp) _
      | miss =>
          cases found : state.pointer with
          | some hash => simp [get, phase, found] at stepped
          | none =>
              simp only [get, phase, found, Option.some.injEq] at stepped
              subst stepped
              exact accounted.advance nothing (by simp) _
  | _ => simp [get, phase] at stepped

theorem select_accounted (accounted : Accounted state ledger)
    (held : state.holder = some holder) {fails : Bool}
    (stepped : state.select holder fails = some after)
    : Accounted after (ledger.next state (.select fails) after) := by
  cases phase : holder.phase with
  | missed =>
      have nothing := accounted.uncommitted holder held (by simp [phase])
      simp only [select, phase] at stepped
      split at stepped
      · cases stepped
        exact accounted.release held nothing (by rfl) (by rfl) _
      · cases stepped
        exact accounted.advance nothing (by simp) _
  | _ => simp [select, phase] at stepped

/-- A commit puts the one row of the write into the account. -/
theorem insert_accounted (accounted : Accounted state ledger)
    (held : state.holder = some holder) {policyVersion : Int} {exchange : Exchange}
    (clean : ¬ Lapses (.insert policyVersion exchange))
    (stepped : state.insert keys holder policyVersion exchange = some after)
    : Accounted after (ledger.next state (.insert policyVersion exchange) after) := by
  cases phase : holder.phase with
  | fetched prevHash =>
      have nothing := accounted.uncommitted holder held (by simp [phase])
      simp only [insert, phase] at stepped
      cases written : holder.entry.row keys policyVersion prevHash state.nextSeq with
      | error exn =>
          rw [written] at stepped
          cases stepped
          exact accounted.release held nothing (by rfl) (by rfl) _
      | ok row =>
          rw [written] at stepped
          cases exchange with
          | lost => exact absurd trivial clean
          | failed =>
              cases stepped
              exact accounted.release held nothing (by rfl) (by rfl) _
          | done =>
              cases stepped
              have now : ledger.next state (.insert policyVersion .done)
                  ({ state with rows := state.rows ++ [row], nextSeq := state.nextSeq + 1 }.advance
                    holder (.committed row.currHash))
                  = { ledger with stored := [row.seq] } := by
                simp [WriteLedger.next, ChainState.advance, nothing]
              rw [now]
              refine ⟨accounted.ended, by simp [ChainState.advance], ?_, fun _ _ _ _ => ⟨_, rfl⟩⟩
              intro other same uncommitted
              cases same
              exact absurd rfl (uncommitted row.currHash)
  | _ => simp [insert, phase] at stepped

/-- An applied EXEC ends the write with the row that it stored. -/
theorem exec_accounted (accounted : Accounted state ledger)
    (held : state.holder = some holder) {reply : ExecReply} (clean : ¬ Lapses (.exec reply))
    (stepped : state.exec holder reply = some after)
    : Accounted after (ledger.next state (.exec reply) after) := by
  cases phase : holder.phase with
  | committed currHash =>
      obtain ⟨seq, stored⟩ := accounted.committed holder currHash held phase
      cases reply with
      | watchError | failed | lost | broken applied => exact absurd trivial clean
      | applied =>
          cases touched : holder.touched with
          | true => simp [exec, phase, touched] at stepped
          | false =>
              simp only [exec, phase, touched, Option.some.injEq] at stepped
              subst stepped
              have now : ledger.next state (.exec .applied)
                  { state.release with pointer := some currHash }
                  = { stored := [], ended := ledger.ended ++ [⟨some seq, [seq]⟩] } := by
                simp [WriteLedger.next, WriteLedger.returned, ChainState.release, held, stored]
              rw [now]
              refine ⟨?_, fun _ => rfl, fun _ _ _ => rfl, by simp [ChainState.release]⟩
              intro record member
              rcases List.mem_append.mp member with old | new
              · exact accounted.ended record old
              · cases List.mem_singleton.mp new
                rfl
  | _ => simp [exec, phase] at stepped

/-- Every step that is no lapse keeps the account. -/
theorem step_accounted (accounted : Accounted state ledger) {action : ChainAction}
    (clean : ¬ Lapses action) (stepped : state.step keys action = some after)
    : Accounted after (ledger.next state action after) := by
  cases action with
  | call entry =>
      cases stepped
      rw [next_of_same (by rfl) (by exact fun held => held)]
      exact ⟨accounted.ended, accounted.idle, accounted.uncommitted, accounted.committed⟩
  | acquire =>
      cases held : state.holder with
      | some holder => simp [step, acquire, held] at stepped
      | none =>
          cases queue : state.waiting with
          | nil => simp [step, acquire, held, queue] at stepped
          | cons entry rest =>
              simp only [step, acquire, held, queue, Option.some.injEq] at stepped
              subst stepped
              rw [next_of_same (by rfl) (by simp)]
              refine ⟨accounted.ended, by simp, fun _ _ _ => accounted.idle held, ?_⟩
              intro holder hash same phase
              cases same
              cases phase
  | evict =>
      simp only [step, evict] at stepped
      split at stepped
      · cases stepped
        rw [next_of_same (by rfl) (by simp)]
        refine ⟨accounted.ended, ?_, ?_, ?_⟩
        · intro free
          exact accounted.idle (Option.map_eq_none_iff.mp free)
        · intro other same uncommitted
          obtain ⟨holder, held, rfl⟩ := Option.map_eq_some_iff.mp same
          exact accounted.uncommitted holder held uncommitted
        · intro other hash same phase
          obtain ⟨holder, held, rfl⟩ := Option.map_eq_some_iff.mp same
          exact accounted.committed holder hash held phase
      · cases stepped
  | watch fails =>
      obtain ⟨holder, held, stepped⟩ := Option.bind_eq_some_iff.mp stepped
      exact watch_accounted accounted held stepped
  | get reply =>
      obtain ⟨holder, held, stepped⟩ := Option.bind_eq_some_iff.mp stepped
      exact get_accounted accounted held stepped
  | select fails =>
      obtain ⟨holder, held, stepped⟩ := Option.bind_eq_some_iff.mp stepped
      exact select_accounted accounted held stepped
  | insert version exchange =>
      obtain ⟨holder, held, stepped⟩ := Option.bind_eq_some_iff.mp stepped
      exact insert_accounted accounted held clean stepped
  | exec reply =>
      obtain ⟨holder, held, stepped⟩ := Option.bind_eq_some_iff.mp stepped
      exact exec_accounted accounted held clean stepped

/-- In every run in which no commit loses its reply and no pointer transaction is refused, fails, or
loses its reply or its connection, a write that returned a number contributed exactly the row of that
number, and a write that raised contributed none.
-/
theorem run_all_or_nothing {start final : ChainState} {actions : List ChainAction}
    (idle : start.holder = none) (clean : ∀ action ∈ actions, ¬ Lapses action)
    (reached : Machine.run (accountedStep keys) (start, {}) actions = some (final, ledger))
    : ∀ record ∈ ledger.ended, record.AllOrNothing := by
  have first : Accounted start {} :=
    ⟨by simp, fun _ => rfl, fun _ _ _ => rfl, by simp [idle]⟩
  refine (@Machine.run_invariant _ _ _ (fun _ state => Accounted state.1 state.2) _ _ _ first
    ?_ reached).ended
  intro past before action later beginning accounted stepped
  obtain ⟨next, moved, same⟩ := Option.map_eq_some_iff.mp stepped
  subst same
  exact step_accounted accounted (clean action (beginning.subset (by simp))) moved

end

/-- Witness: one write that finds no pointer returns the number of its row. -/
theorem cold_write_all_or_nothing
    : ∃ final ledger,
        Machine.run (accountedStep .plain) (empty, {}) (coldWrite ++ [.exec .applied])
          = some (final, ledger)
        ∧ (ledger.ended.map WriteRecord.returned = [some 1])
        ∧ ∀ record ∈ ledger.ended, record.AllOrNothing := by
  obtain ⟨row, written⟩ := sessionEntry_row AuditLog.genesisHash 1
  obtain ⟨hash, _, same⟩ := AuditEntry.row_ok_iff.mp written
  have number : row.seq = 1 := by
    rw [same]
    rfl
  have reached : Machine.run (accountedStep .plain) (empty, {}) (coldWrite ++ [.exec .applied])
      = some (
          { empty with rows := [row], nextSeq := 2, pointer := some row.currHash },
          { stored := [], ended := [⟨some 1, [1]⟩] }) := by
    simp [coldWrite, Machine.run, accountedStep, step, acquire, watch, get, select, insert,
      exec, advance, release, lastHash, HashChain.head, empty, WriteLedger.next,
      WriteLedger.returned, written, number]
  refine ⟨_, _, reached, rfl, run_all_or_nothing rfl ?_ reached⟩
  simp [coldWrite, Lapses]

/-- A write whose pointer transaction fails raises with its row stored. -/
theorem failed_exec_leaves_row
    : ∃ final ledger,
        Machine.run (accountedStep .plain) (empty, {}) (coldWrite ++ [.exec .failed])
          = some (final, ledger)
        ∧ ∃ record ∈ ledger.ended,
            record.returned = none ∧ record.stored = [1] ∧ ¬ record.AllOrNothing := by
  obtain ⟨row, written⟩ := sessionEntry_row AuditLog.genesisHash 1
  obtain ⟨hash, _, same⟩ := AuditEntry.row_ok_iff.mp written
  have number : row.seq = 1 := by
    rw [same]
    rfl
  refine ⟨{ empty with rows := [row], nextSeq := 2 }, { ended := [⟨none, [1]⟩] }, ?_,
    _, List.mem_cons_self, rfl, rfl, ?_⟩
  · simp [coldWrite, Machine.run, accountedStep, step, acquire, watch, get, select, insert,
      exec, advance, release, lastHash, HashChain.head, empty, WriteLedger.next,
      WriteLedger.returned, written, number]
  · intro accounted
    cases accounted

end ChainState

end SecureMcp
