import SecureMcp.Audit.Verification
import SecureMcp.Library.HashChain
import SecureMcp.Library.Machine

/-! One audit writer, its Redis pointer and its table, one step for each exchange with
either store. Every exchange may fail, before or after it takes effect, and the pointer may
be evicted between any two of them. A connection to Redis that breaks while it watches the pointer
reads as a `WatchError`, so the write does not raise but starts over.
-/

namespace SecureMcp

/-- JSONB gives back every float of an entry as it was hashed: none is of magnitude 1e16 or more,
and none is a negative zero.
-/
def AuditEntry.Stable (entry : AuditEntry) : Prop :=
  ∀ policyVersion, Jsonb.unstableFloats (entry.payload policyVersion) = []

/-- Where the write that holds the lock stands: `watching` after WATCH, `missed` after a GET
that found no pointer, `fetched` with a previous hash, `committed` with its own row stored.
-/
inductive WritePhase
  | start
  | watching
  | missed
  | fetched (prevHash : String)
  | committed (currHash : String)

/-- The write that holds the lock. Redis marks its connection once the watched pointer is
touched.
-/
structure LockHolder where
  entry : AuditEntry
  phase : WritePhase
  touched : Bool

/-- The table in `seq` order, the pointer, and the callers of `write`. -/
structure ChainState where
  rows : List AuditRow
  nextSeq : Nat
  pointer : Option String
  waiting : List AuditEntry
  holder : Option LockHolder

/-- How an exchange with a store ends: a lost reply raises although it took effect. -/
inductive Exchange
  | done
  | failed
  | lost

/-- How a GET ends; the connection may break under the WATCH. -/
inductive GetReply
  | hit
  | miss
  | failed
  | broken

/-- How an EXEC ends; the connection may break before Redis applies it or after. -/
inductive ExecReply
  | applied
  | watchError
  | failed
  | lost
  | broken (applied : Bool)

/-- What can happen next: a call of `write`, one exchange of the write that holds the lock,
or an eviction.
-/
inductive ChainAction
  | call (entry : AuditEntry)
  | acquire
  | watch (fails : Bool)
  | get (reply : GetReply)
  | select (fails : Bool)
  | insert (policyVersion : Int) (exchange : Exchange)
  | exec (reply : ExecReply)
  | evict

namespace ChainState

/-- The hash that the next row has to continue. -/
def lastHash (state : ChainState) : String :=
  HashChain.head AuditRow.currHash AuditLog.genesisHash state.rows

/-- The write raises or returns, and the lock is free. -/
def release (state : ChainState) : ChainState :=
  { state with holder := none }

def advance (state : ChainState) (holder : LockHolder) (phase : WritePhase) : ChainState :=
  { state with holder := some { holder with phase := phase } }

/-- WATCH: a fresh pipeline has not seen the pointer touched. -/
def watch (state : ChainState) (holder : LockHolder) (fails : Bool) : Option ChainState :=
  match holder.phase with
  | .start =>
      if fails then some state.release
      else some (state.advance { holder with touched := false } .watching)
  | _ => none

/-- GET of the pointer. On a broken connection the write starts over. -/
def get (state : ChainState) (holder : LockHolder) (reply : GetReply) : Option ChainState :=
  match holder.phase, reply, state.pointer with
  | .watching, .hit, some hash => some (state.advance holder (.fetched hash))
  | .watching, .miss, none => some (state.advance holder .missed)
  | .watching, .failed, _ => some state.release
  | .watching, .broken, _ => some (state.advance holder .start)
  | _, _, _ => none

/-- The slow path: the hash of the last row, or the genesis hash. -/
def select (state : ChainState) (holder : LockHolder) (fails : Bool) : Option ChainState :=
  match holder.phase with
  | .missed =>
      if fails then some state.release
      else some (state.advance holder (.fetched state.lastHash))
  | _ => none

/-- Hash the payload, insert the row and commit. The sequence number of a failed insert is
not used again.
-/
def insert (keys : KeyPair) (state : ChainState) (holder : LockHolder) (policyVersion : Int)
    (exchange : Exchange)
    : Option ChainState :=
  match holder.phase with
  | .fetched prevHash =>
      match holder.entry.row keys policyVersion prevHash state.nextSeq with
      | .error _ => some state.release
      | .ok row =>
          let stored := {
            state with
            rows := state.rows ++ [row]
            nextSeq := state.nextSeq + 1
          }
          match exchange with
          | .done => some (stored.advance holder (.committed row.currHash))
          | .lost => some stored.release
          | .failed => some { state.release with nextSeq := state.nextSeq + 1 }
  | _ => none

/-- MULTI, SET of the pointer and EXEC, which Redis refuses once the pointer was touched.
The write then starts over, with its row already stored, and so it does on a broken connection,
whether or not Redis moved the pointer.
-/
def exec (state : ChainState) (holder : LockHolder) (reply : ExecReply) : Option ChainState :=
  match holder.phase, reply, holder.touched with
  | .committed currHash, .applied, false | .committed currHash, .lost, false =>
      some { state.release with pointer := some currHash }
  | .committed _, .watchError, true | .committed _, .broken false, _ =>
      some (state.advance holder .start)
  | .committed currHash, .broken true, false =>
      some { state.advance holder .start with pointer := some currHash }
  | .committed _, .failed, _ => some state.release
  | _, _, _ => none

/-- The lock is handed over in the order of the calls. -/
def acquire (state : ChainState) : Option ChainState :=
  match state.holder, state.waiting with
  | none, entry :: rest =>
      some { state with waiting := rest, holder := some ⟨entry, .start, false⟩ }
  | _, _ => none

/-- Redis drops the pointer, which touches it for a connection that watches it. -/
def evict (state : ChainState) : Option ChainState :=
  if state.pointer.isSome then
    some {
      state with
      pointer := none
      holder := state.holder.map (fun holder => { holder with touched := true })
    }
  else none

def step (keys : KeyPair) (state : ChainState) (action : ChainAction) : Option ChainState :=
  match action with
  | .call entry => some { state with waiting := state.waiting ++ [entry] }
  | .acquire => state.acquire
  | .evict => state.evict
  | .watch fails => state.holder.bind (fun holder => state.watch holder fails)
  | .get reply => state.holder.bind (fun holder => state.get holder reply)
  | .select fails => state.holder.bind (fun holder => state.select holder fails)
  | .insert version exchange =>
      state.holder.bind (fun holder => state.insert keys holder version exchange)
  | .exec reply => state.holder.bind (fun holder => state.exec holder reply)

/-- The table is one chain of genuine rows from the genesis hash, in `seq` order. -/
structure OneChain (keys : KeyPair) (state : ChainState) : Prop where
  linked : HashChain.Linked AuditRow.prevHash AuditRow.currHash AuditLog.genesisHash state.rows
  genuine : ∀ row ∈ state.rows, row.Genuine keys
  ordered : state.rows.Pairwise (fun row later => row.seq < later.seq)
  below : ∀ row ∈ state.rows, row.seq < state.nextSeq

/-- A writer that starts on a table that is one chain, with the pointer absent or at the
last row.
-/
structure Started (keys : KeyPair) (state : ChainState) : Prop where
  chain : OneChain keys state
  pointer : ∀ hash, state.pointer = some hash → hash = state.lastHash
  idle : state.holder = none

/-- A write that raises or starts over between the commit of its row and the update of the
pointer leaves the pointer behind, until it is updated or evicted.
-/
def nextBehind (behind : Bool) : ChainAction → Bool
  | .insert _ .lost | .exec .failed | .exec (.broken false) => true
  | .exec .applied | .exec .lost | .exec (.broken true) | .evict => false
  | _ => behind

def leftBehind (past : List ChainAction) : Bool :=
  past.foldl nextBehind false

/-- No write reads a pointer that was left behind. -/
def PointerReadsCurrent (behind : Bool) : List ChainAction → Prop
  | [] => True
  | .get .hit :: rest => behind = false ∧ PointerReadsCurrent behind rest
  | action :: rest => PointerReadsCurrent (nextBehind behind action) rest

/-- JSONB gives back no float of a state's payloads in another spelling, neither of those that are
stored nor of those that are yet to be.
-/
structure Stable (state : ChainState) : Prop where
  rows : ∀ row ∈ state.rows, Jsonb.unstableFloats row.payload = []
  waiting : ∀ entry ∈ state.waiting, entry.Stable
  holder : ∀ holder, state.holder = some holder → holder.entry.Stable

/-- No call of a run hands over a float that JSONB gives back in another spelling. -/
def CallsStable (actions : List ChainAction) : Prop :=
  ∀ entry, .call entry ∈ actions → entry.Stable

theorem leftBehind_concat (past : List ChainAction) (action : ChainAction)
    : leftBehind (past ++ [action]) = nextBehind (leftBehind past) action := by
  rw [leftBehind, List.foldl_append]
  rfl

/-- The condition holds at every read of a run, by induction on the actions. -/
theorem PointerReadsCurrent.of_prefix {behind : Bool} {actions past : List ChainAction}
    (reads : PointerReadsCurrent behind actions) (beginning : past ++ [.get .hit] <+: actions)
    : past.foldl nextBehind behind = false := by
  induction actions generalizing behind past with
  | nil => simp at beginning
  | cons action rest ih =>
      cases past with
      | nil =>
          obtain ⟨same, _⟩ := List.cons_prefix_cons.mp beginning
          cases same
          exact reads.1
      | cons first more =>
          obtain ⟨same, later⟩ := List.cons_prefix_cons.mp beginning
          cases same
          have kept : PointerReadsCurrent (nextBehind behind action) rest := by
            cases action with
            | get reply =>
                cases reply with
                | hit => exact reads.2
                | miss | failed | broken => exact reads
            | _ => exact reads
          have result := ih kept later
          exact result

/-- What the write that holds the lock knows. -/
structure HolderCurrent (state : ChainState) (holder : LockHolder) : Prop where
  fetched : ∀ hash, holder.phase = .fetched hash → hash = state.lastHash
  committed : ∀ hash, holder.phase = .committed hash → hash = state.lastHash
  touched : holder.touched → state.pointer = none

/-- A pointer that was not left behind names the last row, except while a write has stored
its row and not yet moved the pointer.
-/
structure Inv (keys : KeyPair) (past : List ChainAction) (state : ChainState) : Prop where
  chain : OneChain keys state
  holder : ∀ holder, state.holder = some holder → HolderCurrent state holder
  pointer :
    leftBehind past = false
    → (∀ holder hash, state.holder = some holder → holder.phase ≠ .committed hash)
    → ∀ hash, state.pointer = some hash → hash = state.lastHash

variable {keys : KeyPair} {past : List ChainAction} {state after : ChainState}
  {holder : LockHolder}

/-- A state with the same table is the same chain. -/
theorem OneChain.congr (chain : OneChain keys state) (rows : after.rows = state.rows)
    (below : state.nextSeq ≤ after.nextSeq)
    : OneChain keys after where
  linked := rows ▸ chain.linked
  genuine := rows ▸ chain.genuine
  ordered := rows ▸ chain.ordered
  below := by
    intro row member
    have smaller := chain.below row (rows ▸ member)
    omega

/-- A row made after the last hash, under the next sequence number, extends the chain. -/
theorem OneChain.append (chain : OneChain keys state) {entry : AuditEntry}
    {policyVersion : Int} {row : AuditRow}
    (written : entry.row keys policyVersion state.lastHash state.nextSeq = .ok row)
    (rows : after.rows = state.rows ++ [row]) (next : after.nextSeq = state.nextSeq + 1)
    : OneChain keys after := by
  obtain ⟨hash, _, same⟩ := AuditEntry.row_ok_iff.mp written
  have previous : row.prevHash = state.lastHash := by
    rw [same]
    rfl
  have number : row.seq = state.nextSeq := by
    rw [same]
    rfl
  refine ⟨?_, ?_, ?_, ?_⟩
  · rw [rows, HashChain.linked_concat_iff]
    exact ⟨chain.linked, previous⟩
  · intro other member
    rw [rows] at member
    rcases List.mem_append.mp member with old | new
    · exact chain.genuine other old
    · cases List.mem_singleton.mp new
      exact ⟨entry, policyVersion, by rw [previous, number]; exact written⟩
  · rw [rows, List.pairwise_append]
    refine ⟨chain.ordered, List.pairwise_singleton _ _, ?_⟩
    intro earlier member later new
    cases List.mem_singleton.mp new
    rw [number]
    exact chain.below earlier member
  · intro other member
    rw [rows] at member
    rcases List.mem_append.mp member with old | new
    · have smaller := chain.below other old
      omega
    · cases List.mem_singleton.mp new
      omega

/-- There is nothing to know without a write that holds the lock. -/
theorem HolderCurrent.of_idle (idle : after.holder = none)
    : ∀ holder, after.holder = some holder → HolderCurrent after holder := by
  intro holder held
  rw [idle] at held
  cases held

/-- Raising leaves the table and the pointer as they are; the pointer has to be current
unless it was left behind.
-/
theorem Inv.release (inv : Inv keys past state) {now : List ChainAction}
    (pointer : leftBehind now = false → ∀ hash, state.pointer = some hash → hash = state.lastHash)
    : Inv keys now state.release where
  chain := inv.chain.congr rfl (Nat.le_refl _)
  holder := .of_idle rfl
  pointer := fun current _ => pointer current

/-- Moving the write that holds the lock on, with nothing stored. -/
theorem Inv.advance (inv : Inv keys past state) {now : List ChainAction} {phase : WritePhase}
    (current : HolderCurrent state { holder with phase := phase })
    (pointer : leftBehind now = false → ∀ hash, state.pointer = some hash → hash = state.lastHash)
    : Inv keys now (state.advance holder phase) where
  chain := inv.chain.congr rfl (Nat.le_refl _)
  holder := by
    intro other held
    cases held
    exact ⟨current.fetched, current.committed, current.touched⟩
  pointer := fun behind _ => pointer behind

/-- Outside the last stretch of a write, a pointer that was not left behind is current. -/
theorem Inv.current (inv : Inv keys past state) (held : state.holder = some holder)
    (uncommitted : ∀ hash, holder.phase ≠ .committed hash) (behind : leftBehind past = false)
    : ∀ hash, state.pointer = some hash → hash = state.lastHash := by
  refine inv.pointer behind ?_
  intro other hash other_held
  cases held.symm.trans other_held
  exact uncommitted hash

theorem watch_inv (inv : Inv keys past state) (held : state.holder = some holder)
    {fails : Bool} (stepped : state.watch holder fails = some after)
    : Inv keys (past ++ [.watch fails]) after := by
  cases phase : holder.phase with
  | start =>
      have current := inv.current held (by simp [phase])
      simp only [watch, phase] at stepped
      split at stepped
      · cases stepped
        exact inv.release (by simpa only [leftBehind_concat, nextBehind] using current)
      · cases stepped
        refine inv.advance ⟨by simp, by simp, by simp⟩ ?_
        simpa only [leftBehind_concat, nextBehind] using current
  | _ => simp [watch, phase] at stepped

/-- A hit is current when the pointer was not left behind. -/
theorem get_inv (inv : Inv keys past state) (held : state.holder = some holder)
    {reply : GetReply} (stepped : state.get holder reply = some after)
    (reads : reply = .hit → leftBehind past = false)
    : Inv keys (past ++ [.get reply]) after := by
  cases phase : holder.phase with
  | watching =>
      have current := inv.current held (by simp [phase])
      have untouched := (inv.holder holder held).touched
      have kept : leftBehind (past ++ [.get reply]) = false
          → ∀ hash, state.pointer = some hash → hash = state.lastHash := by
        simpa only [leftBehind_concat, nextBehind] using current
      cases reply with
      | failed =>
          simp only [get, phase, Option.some.injEq] at stepped
          subst stepped
          exact inv.release kept
      | broken =>
          simp only [get, phase, Option.some.injEq] at stepped
          subst stepped
          exact inv.advance ⟨by simp, by simp, untouched⟩ kept
      | hit =>
          cases found : state.pointer with
          | none => simp [get, phase, found] at stepped
          | some hash =>
              simp only [get, phase, found, Option.some.injEq] at stepped
              subst stepped
              refine inv.advance ⟨?_, by simp, untouched⟩ kept
              intro fetched same
              cases same
              exact current (reads rfl) hash found
      | miss =>
          cases found : state.pointer with
          | some hash => simp [get, phase, found] at stepped
          | none =>
              simp only [get, phase, found, Option.some.injEq] at stepped
              subst stepped
              exact inv.advance ⟨by simp, by simp, untouched⟩ kept
  | _ => simp [get, phase] at stepped

theorem select_inv (inv : Inv keys past state) (held : state.holder = some holder)
    {fails : Bool} (stepped : state.select holder fails = some after)
    : Inv keys (past ++ [.select fails]) after := by
  cases phase : holder.phase with
  | missed =>
      have current := inv.current held (by simp [phase])
      have untouched := (inv.holder holder held).touched
      simp only [select, phase] at stepped
      split at stepped
      · cases stepped
        exact inv.release (by simpa only [leftBehind_concat, nextBehind] using current)
      · cases stepped
        refine inv.advance ⟨?_, by simp, untouched⟩ ?_
        · intro hash same
          cases same
          rfl
        · simpa only [leftBehind_concat, nextBehind] using current
  | _ => simp [select, phase] at stepped

/-- A stored row continues the last one, and becomes the last one. -/
theorem insert_inv (inv : Inv keys past state) (held : state.holder = some holder)
    {policyVersion : Int} {exchange : Exchange}
    (stepped : state.insert keys holder policyVersion exchange = some after)
    : Inv keys (past ++ [.insert policyVersion exchange]) after := by
  cases phase : holder.phase with
  | fetched prevHash =>
      have current := inv.current held (by simp [phase])
      have knows := inv.holder holder held
      have last : prevHash = state.lastHash := knows.fetched prevHash phase
      simp only [insert, phase, last] at stepped
      cases written : holder.entry.row keys policyVersion state.lastHash state.nextSeq with
      | error exn =>
          rw [written] at stepped
          cases stepped
          refine inv.release ?_
          rw [leftBehind_concat]
          intro behind
          cases exchange with
          | lost => cases behind
          | done | failed => exact current behind
      | ok row =>
          rw [written] at stepped
          have head : HashChain.head AuditRow.currHash AuditLog.genesisHash
              (state.rows ++ [row]) = row.currHash :=
            HashChain.head_concat AuditRow.currHash _ _ _
          cases exchange with
          | done =>
              cases stepped
              refine ⟨inv.chain.append written rfl rfl, ?_, ?_⟩
              · intro other now
                cases now
                refine ⟨by simp, ?_, knows.touched⟩
                intro hash same
                cases same
                exact head.symm
              · intro _ uncommitted
                exact absurd rfl (uncommitted _ row.currHash rfl)
          | lost =>
              cases stepped
              refine ⟨inv.chain.append written rfl rfl, HolderCurrent.of_idle rfl, ?_⟩
              intro behind
              rw [leftBehind_concat] at behind
              cases behind
          | failed =>
              cases stepped
              refine ⟨inv.chain.congr rfl (Nat.le_succ _), HolderCurrent.of_idle rfl, ?_⟩
              intro behind _
              rw [leftBehind_concat] at behind
              exact current behind
  | _ => simp [insert, phase] at stepped

/-- An applied EXEC moves the pointer to the last row; a refused one starts the write over
with the pointer gone, and a broken one with the pointer moved or left behind.
-/
theorem exec_inv (inv : Inv keys past state) (held : state.holder = some holder)
    {reply : ExecReply} (stepped : state.exec holder reply = some after)
    : Inv keys (past ++ [.exec reply]) after := by
  cases phase : holder.phase with
  | committed currHash =>
      have knows := inv.holder holder held
      have last : currHash = state.lastHash := knows.committed currHash phase
      have moved : Inv keys (past ++ [.exec reply])
          { state.release with pointer := some currHash } := by
        refine ⟨inv.chain.congr rfl (Nat.le_refl _), HolderCurrent.of_idle rfl, ?_⟩
        intro _ _ hash same
        cases same
        exact last
      cases reply with
      | applied | lost =>
          cases touched : holder.touched with
          | true => simp [exec, phase, touched] at stepped
          | false =>
              simp only [exec, phase, touched, Option.some.injEq] at stepped
              exact stepped ▸ moved
      | watchError =>
          cases touched : holder.touched with
          | false => simp [exec, phase, touched] at stepped
          | true =>
              simp only [exec, phase, touched, Option.some.injEq] at stepped
              have gone := knows.touched touched
              subst stepped
              refine inv.advance ⟨by simp, by simp, fun _ => gone⟩ ?_
              intro _ hash found
              rw [gone] at found
              cases found
      | broken applied =>
          cases applied with
          | false =>
              simp only [exec, phase, Option.some.injEq] at stepped
              subst stepped
              refine inv.advance ⟨by simp, by simp, knows.touched⟩ ?_
              rw [leftBehind_concat]
              intro behind
              cases behind
          | true =>
              cases touched : holder.touched with
              | true => simp [exec, phase, touched] at stepped
              | false =>
                  simp only [exec, phase, touched, Option.some.injEq] at stepped
                  subst stepped
                  refine ⟨inv.chain.congr rfl (Nat.le_refl _), ?_, ?_⟩
                  · intro other now
                    cases now
                    exact ⟨by simp, by simp, by simp [touched]⟩
                  · intro _ _ hash same
                    cases same
                    exact last
      | failed =>
          simp only [exec, phase, Option.some.injEq] at stepped
          subst stepped
          refine inv.release ?_
          rw [leftBehind_concat]
          intro behind
          cases behind
  | _ => simp [exec, phase] at stepped

theorem acquire_inv (inv : Inv keys past state) (stepped : state.acquire = some after)
    : Inv keys (past ++ [.acquire]) after := by
  cases held : state.holder with
  | some holder => simp [acquire, held] at stepped
  | none =>
      cases queue : state.waiting with
      | nil => simp [acquire, held, queue] at stepped
      | cons entry rest =>
          simp only [acquire, held, queue, Option.some.injEq] at stepped
          subst stepped
          refine ⟨inv.chain.congr rfl (Nat.le_refl _), ?_, ?_⟩
          · intro holder now
            cases now
            exact ⟨by simp, by simp, by simp⟩
          · rw [leftBehind_concat]
            intro behind _
            exact inv.pointer behind (by simp [held])

theorem evict_inv (inv : Inv keys past state) (stepped : state.evict = some after)
    : Inv keys (past ++ [.evict]) after := by
  simp only [evict] at stepped
  split at stepped
  · cases stepped
    refine ⟨inv.chain.congr rfl (Nat.le_refl _), ?_, ?_⟩
    · intro other now
      obtain ⟨holder, held, same⟩ := Option.map_eq_some_iff.mp now
      have knows := inv.holder holder held
      subst same
      exact ⟨knows.fetched, knows.committed, fun _ => rfl⟩
    · intro _ _ hash found
      cases found
  · cases stepped

/-- Every step keeps the invariant, provided no pointer that was left behind is read. -/
theorem step_inv (inv : Inv keys past state) {action : ChainAction}
    (stepped : state.step keys action = some after)
    (reads : action = .get .hit → leftBehind past = false)
    : Inv keys (past ++ [action]) after := by
  cases action with
  | call entry =>
      cases stepped
      refine ⟨inv.chain.congr rfl (Nat.le_refl _), ?_, ?_⟩
      · intro holder held
        have knows := inv.holder holder held
        exact ⟨knows.fetched, knows.committed, knows.touched⟩
      · rw [leftBehind_concat]
        exact inv.pointer
  | acquire => exact acquire_inv inv stepped
  | evict => exact evict_inv inv stepped
  | watch fails =>
      obtain ⟨holder, held, stepped⟩ := Option.bind_eq_some_iff.mp stepped
      exact watch_inv inv held stepped
  | get reply =>
      obtain ⟨holder, held, stepped⟩ := Option.bind_eq_some_iff.mp stepped
      exact get_inv inv held stepped (fun same => reads (by rw [same]))
  | select fails =>
      obtain ⟨holder, held, stepped⟩ := Option.bind_eq_some_iff.mp stepped
      exact select_inv inv held stepped
  | insert version exchange =>
      obtain ⟨holder, held, stepped⟩ := Option.bind_eq_some_iff.mp stepped
      exact insert_inv inv held stepped
  | exec reply =>
      obtain ⟨holder, held, stepped⟩ := Option.bind_eq_some_iff.mp stepped
      exact exec_inv inv held stepped

/-- The table stays one chain in every run in which no write reads a pointer that was left
behind.
-/
theorem run_oneChain {start final : ChainState} {actions : List ChainAction}
    (started : Started keys start) (reads : PointerReadsCurrent false actions)
    (reached : Machine.run (step keys) start actions = some final)
    : OneChain keys final := by
  have first : Inv keys [] start :=
    ⟨started.chain, by simp [started.idle], fun _ _ => started.pointer⟩
  refine (Machine.run_invariant first ?_ reached).chain
  intro past state action after beginning inv stepped
  refine step_inv inv stepped ?_
  intro hit
  exact reads.of_prefix (hit ▸ beginning)

/-- Only a call brings in a payload. -/
theorem step_stable (stable : Stable state) {action : ChainAction}
    (calls : ∀ entry, action = .call entry → entry.Stable)
    (stepped : state.step keys action = some after)
    : Stable after := by
  have moved {holder : LockHolder} (held : state.holder = some holder) (phase : WritePhase)
      (touched : Bool) (pointer : Option String)
      : Stable { state.advance { holder with touched } phase with pointer } := by
    refine ⟨stable.rows, stable.waiting, ?_⟩
    intro other now
    cases now
    exact stable.holder holder held
  have released (nextSeq : Nat) (pointer : Option String)
      : Stable { state.release with nextSeq, pointer } :=
    ⟨stable.rows, stable.waiting, by simp [release]⟩
  cases action with
  | call entry =>
      cases stepped
      refine ⟨stable.rows, ?_, stable.holder⟩
      intro other member
      rcases List.mem_append.mp member with old | new
      · exact stable.waiting other old
      · exact List.mem_singleton.mp new ▸ calls entry rfl
  | acquire =>
      simp only [step, acquire] at stepped
      split at stepped
      · next entry rest _ queue =>
          cases stepped
          have waiting := queue ▸ stable.waiting
          refine ⟨stable.rows, fun other member => waiting other (List.mem_cons_of_mem _ member), ?_⟩
          intro holder now
          cases now
          exact waiting entry List.mem_cons_self
      · cases stepped
  | evict =>
      simp only [step, evict] at stepped
      split at stepped
      · cases stepped
        refine ⟨stable.rows, stable.waiting, ?_⟩
        intro other now
        obtain ⟨holder, held, rfl⟩ := Option.map_eq_some_iff.mp now
        exact stable.holder holder held
      · cases stepped
  | watch fails =>
      obtain ⟨holder, held, stepped⟩ := Option.bind_eq_some_iff.mp stepped
      simp only [watch] at stepped
      split at stepped
      · split at stepped
        · cases stepped
          exact released _ _
        · cases stepped
          exact moved held _ _ _
      · cases stepped
  | get reply =>
      obtain ⟨holder, held, stepped⟩ := Option.bind_eq_some_iff.mp stepped
      simp only [get] at stepped
      split at stepped
      · cases stepped
        exact moved held _ _ _
      · cases stepped
        exact moved held _ _ _
      · cases stepped
        exact released _ _
      · cases stepped
        exact moved held _ _ _
      · cases stepped
  | select fails =>
      obtain ⟨holder, held, stepped⟩ := Option.bind_eq_some_iff.mp stepped
      simp only [select] at stepped
      split at stepped
      · split at stepped
        · cases stepped
          exact released _ _
        · cases stepped
          exact moved held _ _ _
      · cases stepped
  | insert version exchange =>
      obtain ⟨holder, held, stepped⟩ := Option.bind_eq_some_iff.mp stepped
      simp only [insert] at stepped
      split at stepped
      · split at stepped
        · cases stepped
          exact released _ _
        · next row written =>
            have rows : ∀ other ∈ state.rows ++ [row], Jsonb.unstableFloats other.payload = [] := by
              intro other member
              rcases List.mem_append.mp member with old | new
              · exact stable.rows other old
              · obtain ⟨hash, _, same⟩ := AuditEntry.row_ok_iff.mp written
                rw [List.mem_singleton.mp new, same]
                exact stable.holder holder held version
            cases exchange with
            | done =>
                cases stepped
                exact ⟨rows, stable.waiting, (moved held _ holder.touched none).holder⟩
            | lost =>
                cases stepped
                exact ⟨rows, stable.waiting, (released 0 none).holder⟩
            | failed =>
                cases stepped
                exact released _ _
      · cases stepped
  | exec reply =>
      obtain ⟨holder, held, stepped⟩ := Option.bind_eq_some_iff.mp stepped
      simp only [exec] at stepped
      split at stepped
      · cases stepped
        exact released _ _
      · cases stepped
        exact released _ _
      · cases stepped
        exact moved held _ _ _
      · cases stepped
        exact moved held _ _ _
      · cases stepped
        exact moved held _ _ _
      · cases stepped
        exact released _ _
      · cases stepped

/-- In every run in which no write reads a pointer that was left behind and no call hands over a
float that JSONB respells, the rows in `seq` order are one chain from the genesis hash, and the full
scan accepts them as they are read back.
-/
theorem run_keeps_one_chain {start final : ChainState} {actions : List ChainAction}
    (started : Started keys start) (stable : Stable start)
    (reads : PointerReadsCurrent false actions) (calls : CallsStable actions)
    (reached : Machine.run (step keys) start actions = some final)
    : HashChain.Linked AuditRow.prevHash AuditRow.currHash AuditLog.genesisHash final.rows
      ∧ final.rows.Pairwise (fun row later => row.seq < later.seq)
      ∧ ∀ table,
          List.Forall₂ AuditRow.ReadBack final.rows table
          → fullScan (some keys.verify) AuditLog.genesisHash table = .ok none := by
  have chain := run_oneChain started reads reached
  have spelled : Stable final := by
    refine @Machine.run_invariant _ _ _ (fun _ state => Stable state) _ _ _ stable ?_ reached
    intro past before action later beginning kept stepped
    refine step_stable kept ?_ stepped
    rintro entry rfl
    exact calls entry (beginning.subset (by simp))
  refine ⟨chain.linked, chain.ordered, ?_⟩
  intro table readBack
  exact AuditLog.fullScan_linked chain.linked chain.genuine readBack spelled.rows

/-- A fresh deployment. -/
def empty : ChainState where
  rows := []
  nextSeq := 1
  pointer := none
  waiting := []
  holder := none

def sessionEntry : AuditEntry :=
  SessionManager.startEntry "alice" "github" "s1"

/-- A call of `write` that finds no pointer, up to its EXEC. -/
def coldWrite : List ChainAction :=
  [.call sessionEntry, .acquire, .watch false, .get .miss, .select false, .insert 1 .done]

/-- A call of `write` that reads the pointer, up to its EXEC. -/
def warmWrite : List ChainAction :=
  [.call sessionEntry, .acquire, .watch false, .get .hit, .insert 1 .done]

theorem sessionEntry_row (prevHash : String) (seq : Nat)
    : ∃ row, sessionEntry.row .plain 1 prevHash seq = .ok row :=
  AuditEntry.exists_row .plain 1 prevHash seq sessionEntry (by decide)

theorem started_empty : Started .plain empty where
  chain := ⟨trivial, by simp [empty], by simp [empty], by simp [empty]⟩
  pointer := by simp [empty]
  idle := rfl

theorem stable_sessionEntry : sessionEntry.Stable := by
  intro policyVersion
  rfl

theorem stable_empty : Stable empty where
  rows := by simp [empty]
  waiting := by simp [empty]
  holder := by simp [empty]

theorem run_coldWrite (state : ChainState) (idle : state.holder = none)
    (queue : state.waiting = []) (pointer : state.pointer = none) {row : AuditRow}
    (written : sessionEntry.row .plain 1 state.lastHash state.nextSeq = .ok row)
    : Machine.run (step .plain) state coldWrite
      = some {
          state with
          rows := state.rows ++ [row]
          nextSeq := state.nextSeq + 1
          holder := some ⟨sessionEntry, .committed row.currHash, false⟩
        } := by
  obtain ⟨rows, nextSeq, _, _, _⟩ := state
  cases idle
  cases queue
  cases pointer
  simp only [lastHash] at written
  simp [coldWrite, Machine.run, step, acquire, watch, get, select, insert, advance, lastHash,
    written]

theorem run_warmWrite (state : ChainState) (idle : state.holder = none)
    (queue : state.waiting = []) {hash : String} (pointer : state.pointer = some hash)
    {row : AuditRow} (written : sessionEntry.row .plain 1 hash state.nextSeq = .ok row)
    : Machine.run (step .plain) state warmWrite
      = some {
          state with
          rows := state.rows ++ [row]
          nextSeq := state.nextSeq + 1
          holder := some ⟨sessionEntry, .committed row.currHash, false⟩
        } := by
  obtain ⟨rows, nextSeq, _, _, _⟩ := state
  cases idle
  cases queue
  cases pointer
  simp only at written
  simp [warmWrite, Machine.run, step, acquire, watch, get, insert, advance, written]

/-- From its EXEC on, a write that finds the pointer evicted and starts over, loses the connection at
its GET and starts over again, and loses its reply.
-/
def refusedWrite : List ChainAction :=
  [
    .evict, .exec .watchError,
    .watch false, .get .broken,
    .watch false, .get .miss, .select false, .insert 1 .done, .exec .lost
  ]

theorem run_refusedWrite (state : ChainState) {hash pointer : String}
    (held : state.holder = some ⟨sessionEntry, .committed hash, false⟩)
    (present : state.pointer = some pointer) {row : AuditRow}
    (written : sessionEntry.row .plain 1 state.lastHash state.nextSeq = .ok row)
    : Machine.run (step .plain) state refusedWrite
      = some {
          state with
          rows := state.rows ++ [row]
          nextSeq := state.nextSeq + 1
          pointer := some row.currHash
          holder := none
        } := by
  obtain ⟨rows, nextSeq, _, _, _⟩ := state
  cases held
  cases present
  simp only [lastHash] at written
  simp [refusedWrite, Machine.run, step, evict, exec, watch, get, select, insert, advance, release,
    lastHash, written]

/-- Witness: after a first write, a second one that has to start over twice. -/
theorem evicted_run_keeps_one_chain
    : ∃ final,
        Machine.run (step .plain) empty
          (coldWrite ++ [.exec .applied] ++ warmWrite ++ refusedWrite)
          = some final
        ∧ final.rows.length = 3
        ∧ HashChain.Linked AuditRow.prevHash AuditRow.currHash AuditLog.genesisHash final.rows
        ∧ ∀ table,
            List.Forall₂ AuditRow.ReadBack final.rows table
            → fullScan (some KeyPair.plain.verify) AuditLog.genesisHash table = .ok none := by
  obtain ⟨first, one⟩ := sessionEntry_row AuditLog.genesisHash 1
  obtain ⟨second, two⟩ := sessionEntry_row first.currHash 2
  obtain ⟨third, three⟩ := sessionEntry_row second.currHash 3
  have cold := run_coldWrite empty rfl rfl rfl one
  have warm := run_warmWrite {
    rows := [first], nextSeq := 2, pointer := some first.currHash, waiting := [], holder := none
  } rfl rfl rfl two
  have refused := run_refusedWrite {
    rows := [first, second], nextSeq := 3, pointer := some first.currHash, waiting := []
    holder := some ⟨sessionEntry, .committed second.currHash, false⟩
  } rfl rfl three
  have applied : Machine.run (step .plain) empty (coldWrite ++ [.exec .applied])
      = some {
          rows := [first], nextSeq := 2, pointer := some first.currHash, waiting := []
          holder := none
        } := by
    rw [Machine.run_append, cold]
    rfl
  have reached : Machine.run (step .plain) empty
      (coldWrite ++ [.exec .applied] ++ warmWrite ++ refusedWrite)
      = some {
          rows := [first, second, third]
          nextSeq := 4
          pointer := some third.currHash
          waiting := []
          holder := none
        } := by
    rw [Machine.run_append, Machine.run_append, applied, Option.bind_some, warm, Option.bind_some]
    exact refused
  have kept := run_keeps_one_chain started_empty stable_empty
    (by simp [coldWrite, warmWrite, refusedWrite, PointerReadsCurrent, nextBehind])
    (by simp [CallsStable, coldWrite, warmWrite, refusedWrite, stable_sessionEntry]) reached
  exact ⟨_, reached, rfl, kept.1, kept.2.2⟩

/-- The EXEC of a second write fails after its row was committed, and a third write reads
the pointer that was left behind: the chain forks.
-/
theorem failed_exec_forks_chain
    : ∃ final,
        Machine.run (step .plain) empty
          (coldWrite ++ [.exec .applied] ++ warmWrite ++ [.exec .failed] ++ warmWrite
            ++ [.exec .applied])
          = some final
        ∧ ¬ HashChain.Linked AuditRow.prevHash AuditRow.currHash AuditLog.genesisHash
            final.rows := by
  obtain ⟨first, second, _, one, two, _, differ⟩ := AuditLog.exists_startRows
  obtain ⟨third, three⟩ := sessionEntry_row first.currHash 3
  have cold := run_coldWrite empty rfl rfl rfl one
  have warm := run_warmWrite {
    rows := [first], nextSeq := 2, pointer := some first.currHash, waiting := [], holder := none
  } rfl rfl rfl two
  have again := run_warmWrite {
    rows := [first, second], nextSeq := 3, pointer := some first.currHash, waiting := []
    holder := none
  } rfl rfl rfl three
  have reached : Machine.run (step .plain) empty
      (coldWrite ++ [.exec .applied] ++ warmWrite ++ [.exec .failed] ++ warmWrite
        ++ [.exec .applied])
      = some {
          rows := [first, second, third]
          nextSeq := 4
          pointer := some third.currHash
          waiting := []
          holder := none
        } := by
    simp only [List.append_assoc]
    rw [Machine.run_append, cold]
    simp only [Option.bind_some, List.cons_append, List.nil_append, Machine.run, step, exec,
      release, empty]
    rw [Machine.run_append, warm]
    simp only [Option.bind_some, List.cons_append, List.nil_append, Machine.run, step, exec,
      release]
    rw [Machine.run_append, again]
    simp [Machine.run, step, exec, release]
  refine ⟨_, reached, ?_⟩
  intro linked
  obtain ⟨_, _, forked, _⟩ := linked
  obtain ⟨hash, _, same⟩ := AuditEntry.row_ok_iff.mp three
  rw [same] at forked
  have forked : first.currHash = second.currHash := forked
  simp [forked] at differ

end ChainState

end SecureMcp
