import SecureMcp.Audit.Verification
import SecureMcp.Library.Machine
import SecureMcp.Library.Scan

/-! The incremental verifier and its checkpoint. Both verifiers are the same scan, so a
schedule of passes over a growing table finds what one full scan finds.
-/

namespace SecureMcp

/-- A failing row as it is named on standard output and in the pass report. -/
def ChainFailure.text : ChainFailure → String
  | .brokenLink seq =>
      "BROKEN LINK at seq=" ++ toString seq ++ ": prev_hash does not continue the chain"
  | .tamperedRow seq =>
      "TAMPERED ROW at seq=" ++ toString seq ++ ": payload does not match curr_hash"
  | .badSignature seq =>
      "BAD SIGNATURE at seq=" ++ toString seq ++ ": curr_hash was not signed by the gateway"

/-- Why a pass fails: at a row, or because the row of its checkpoint is gone. -/
inductive IncrementFailure
  | row (failure : ChainFailure)
  | missingCheckpoint (seq : Nat)
  deriving DecidableEq

def IncrementFailure.text : IncrementFailure → String
  | .row failure => failure.text
  | .missingCheckpoint seq =>
      "checkpoint row seq=" ++ toString seq ++ " is missing from audit_log"

/-- What a pass returns, and the checkpoint that it leaves. -/
structure Increment where
  verified : Nat
  failure : Option IncrementFailure
  checkpoint : Option Nat
  deriving DecidableEq

namespace AuditVerifier

/-- The loop of a pass: the rows verified, the last of them, and the failure it stopped at. -/
def verifyRows (verify : String → String → Bool) (prevHash : String)
    (lastVerified verified : Nat)
    : List AuditRow → Except Exn (Nat × Nat × Option ChainFailure)
  | [] => return (verified, lastVerified, none)
  | row :: rest => do
      if row.prevHash ≠ prevHash then
        return (verified, lastVerified, some (.brokenLink row.seq))
      if (← AuditLog.computeHash prevHash row.payload) ≠ row.currHash then
        return (verified, lastVerified, some (.tamperedRow row.seq))
      if !verify row.signature row.currHash then
        return (verified, lastVerified, some (.badSignature row.seq))
      verifyRows verify row.currHash row.seq (verified + 1) rest

/-- The hash that a pass starts from; there is none when the checkpoint's row is gone. -/
def anchorHash (table : List AuditRow) (lastVerified : Nat) : Option String :=
  if lastVerified = 0 then some AuditLog.genesisHash
  else (table.find? (fun row => row.seq = lastVerified)).map AuditRow.currHash

/-- One pass from the checkpoint forward. Without a verified row the checkpoint is not
written.
-/
def verifyIncrement (verify : String → String → Bool) (table : List AuditRow)
    (checkpoint : Option Nat)
    : Except Exn Increment := do
  let lastVerified := checkpoint.getD 0
  match anchorHash table lastVerified with
  | none => return ⟨0, some (.missingCheckpoint lastVerified), checkpoint⟩
  | some prevHash =>
      let (verified, last, failure) ←
        verifyRows verify prevHash lastVerified 0
          (table.filter (fun row => lastVerified < row.seq))
      return ⟨verified, failure.map .row, if verified = 0 then checkpoint else some last⟩

end AuditVerifier

-----------------------------------------------------------------------------------------
-- Both verifiers as one scan
-----------------------------------------------------------------------------------------

/-- A row that continues the chain, hashes to its own hash and is signed. -/
def AuditRow.passes (verify : String → String → Bool) (prevHash : String) (row : AuditRow)
    : Bool :=
  row.prevHash = prevHash
  && AuditLog.computeHash prevHash row.payload = .ok row.currHash
  && verify row.signature row.currHash

/-- The scan's state is the hash to continue. -/
def AuditRow.check (verify : String → String → Bool) (prevHash : String) (row : AuditRow)
    : Option String :=
  if row.passes verify prevHash then some row.currHash else none

/-- The failure of a row that does not pass: the first check that fails names it. -/
def AuditRow.failure (prevHash : String) (row : AuditRow) : ChainFailure :=
  if row.prevHash ≠ prevHash then .brokenLink row.seq
  else if AuditLog.computeHash prevHash row.payload ≠ .ok row.currHash then .tamperedRow row.seq
  else .badSignature row.seq

/-- The number of the last row, 0 for no rows. -/
def lastSeq (rows : List AuditRow) : Nat :=
  HashChain.head AuditRow.seq 0 rows

/-- The rows before the first break. -/
def goodPrefix (verify : String → String → Bool) (table : List AuditRow) : List AuditRow :=
  Scan.accepted (AuditRow.check verify) AuditLog.genesisHash table

theorem goodPrefix_prefix (verify : String → String → Bool) (table : List AuditRow)
    : goodPrefix verify table <+: table :=
  Scan.accepted_prefix _ _

/-- The first break, and what is wrong there. -/
def firstBreak (verify : String → String → Bool) (table : List AuditRow)
    : Option ChainFailure :=
  (Scan.rejected (AuditRow.check verify) AuditLog.genesisHash table).map
    (fun break' => break'.2.failure break'.1)

section

variable {verify : String → String → Bool} {prevHash : String} {row : AuditRow}

theorem hashes_of_finite (numbers : CanonicalJson.finite row.payload) (prevHash : String)
    : ∃ hash, AuditLog.computeHash prevHash row.payload = .ok hash := by
  obtain ⟨text, printed⟩ := CanonicalJson.exists_encode numbers
  exact ⟨_, AuditLog.computeHash_ok_iff.mpr ⟨text, printed, rfl⟩⟩

/-- The full scan reports the first break. -/
theorem fullScan_eq {table : List AuditRow}
    (numbers : ∀ row ∈ table, CanonicalJson.finite row.payload)
    : fullScan (some verify) prevHash table
      = .ok ((Scan.rejected (AuditRow.check verify) prevHash table).map
          (fun break' => break'.2.failure break'.1)) := by
  induction table generalizing prevHash with
  | nil => rfl
  | cons row rest ih =>
      obtain ⟨hash, hashed⟩ := hashes_of_finite (numbers row List.mem_cons_self) prevHash
      have later := fun prevHash => @ih prevHash
        (fun other member => numbers other (List.mem_cons_of_mem _ member))
      simp only [fullScan, Scan.rejected, AuditRow.check, AuditRow.passes, hashed]
      by_cases link : row.prevHash = prevHash
      · by_cases content : hash = row.currHash
        · cases signed : verify row.signature row.currHash with
          | true => simp [link, content, signed, later, bind, Except.bind]
          | false =>
              simp [link, content, signed, AuditRow.failure, hashed, bind, Except.bind, pure,
                Except.pure]
        · simp [link, content, AuditRow.failure, hashed, bind, Except.bind, pure, Except.pure]
      · simp [link, AuditRow.failure, pure, Except.pure]

/-- A pass counts the accepted rows, and reports the first break behind its start. -/
theorem verifyRows_eq {table : List AuditRow} (lastVerified verified : Nat)
    (numbers : ∀ row ∈ table, CanonicalJson.finite row.payload)
    : AuditVerifier.verifyRows verify prevHash lastVerified verified table
      = .ok (
          verified + (Scan.accepted (AuditRow.check verify) prevHash table).length,
          HashChain.head AuditRow.seq lastVerified
            (Scan.accepted (AuditRow.check verify) prevHash table),
          (Scan.rejected (AuditRow.check verify) prevHash table).map
            (fun break' => break'.2.failure break'.1)) := by
  induction table generalizing prevHash lastVerified verified with
  | nil => rfl
  | cons row rest ih =>
      obtain ⟨hash, hashed⟩ := hashes_of_finite (numbers row List.mem_cons_self) prevHash
      have later := fun prevHash lastVerified verified =>
        @ih prevHash lastVerified verified
          (fun other member => numbers other (List.mem_cons_of_mem _ member))
      simp only [AuditVerifier.verifyRows, Scan.rejected, Scan.accepted, AuditRow.check,
        AuditRow.passes, hashed]
      by_cases link : row.prevHash = prevHash
      · by_cases content : hash = row.currHash
        · cases signed : verify row.signature row.currHash with
          | true =>
              simp [link, content, later, HashChain.head, bind, Except.bind, Nat.add_assoc,
                Nat.add_comm]
          | false =>
              simp [link, content, AuditRow.failure, hashed, HashChain.head, bind, Except.bind,
                pure, Except.pure]
        · simp [link, content, AuditRow.failure, hashed, HashChain.head, bind, Except.bind,
            pure, Except.pure]
      · simp [link, AuditRow.failure, HashChain.head, pure, Except.pure]

/-- The scan goes on from the hash of the last accepted row. -/
theorem reached_eq_head (rows : List AuditRow)
    : Scan.reached (AuditRow.check verify) prevHash rows
      = HashChain.head AuditRow.currHash prevHash
          (Scan.accepted (AuditRow.check verify) prevHash rows) := by
  induction rows generalizing prevHash with
  | nil => rfl
  | cons row rest ih =>
      simp only [Scan.reached, Scan.accepted, AuditRow.check]
      cases row.passes verify prevHash with
      | true => exact ih
      | false => rfl

end

-----------------------------------------------------------------------------------------
-- Schedules of passes
-----------------------------------------------------------------------------------------

/-- The stored audit log in `seq` order. Sequence numbers start at 1, and the payload column
holds no NaN and no infinity.
-/
structure AuditTable where
  rows : List AuditRow
  ordered : rows.Pairwise (fun row later => row.seq < later.seq)
  positive : ∀ row ∈ rows, 0 < row.seq
  numbers : ∀ row ∈ rows, CanonicalJson.finite row.payload

/-- The table, the checkpoint, and how many rows the passes so far have verified. -/
structure VerifierState where
  table : AuditTable
  checkpoint : Option Nat := none
  verified : Nat := 0

inductive VerifierAction
  | append
  | alter
  | pass (report : Increment)

/-- Rows are appended, or altered above the checkpoint, or one pass runs. -/
inductive VerifierStep (verify : String → String → Bool) (state : VerifierState)
    : VerifierAction → VerifierState → Prop
  | append {table : AuditTable} {more : List AuditRow}
    (grown : table.rows = state.table.rows ++ more)
    : VerifierStep verify state .append { state with table := table }
  | alter {table : AuditTable}
    (kept :
      table.rows.filter (fun row => row.seq ≤ state.checkpoint.getD 0)
        = state.table.rows.filter (fun row => row.seq ≤ state.checkpoint.getD 0))
    : VerifierStep verify state .alter { state with table := table }
  | pass {report : Increment}
    (done :
      AuditVerifier.verifyIncrement verify state.table.rows state.checkpoint = .ok report)
    : VerifierStep verify state (.pass report) {
        state with
        checkpoint := report.checkpoint
        verified := state.verified + report.verified
      }

/-- The rows up to the checkpoint are the ones that the passes have verified, and the full
scan accepts them.
-/
def VerifierState.Covered (verify : String → String → Bool) (state : VerifierState) : Prop :=
  ∃ past later,
    state.table.rows = past ++ later
    ∧ Scan.accepted (AuditRow.check verify) AuditLog.genesisHash past = past
    ∧ lastSeq past = state.checkpoint.getD 0
    ∧ past.length = state.verified

namespace AuditTable

variable {table : AuditTable} {past later : List AuditRow}

/-- The numbers up to the last one of a beginning are those of the beginning. -/
theorem seq_le_lastSeq_iff (rows : table.rows = past ++ later)
    : (∀ row ∈ past, row.seq ≤ lastSeq past) ∧ ∀ row ∈ later, lastSeq past < row.seq := by
  have ordered := table.ordered
  have positive := table.positive
  rw [rows] at ordered positive
  rcases List.eq_nil_or_concat past with empty | ⟨before, last, split⟩
  · subst empty
    exact ⟨by simp, fun row member => positive row (by simpa using member)⟩
  · subst split
    obtain ⟨inside, _, across⟩ := List.pairwise_append.mp ordered
    have number : lastSeq (before.concat last) = last.seq := by
      rw [List.concat_eq_append]
      exact HashChain.head_concat AuditRow.seq 0 before last
    rw [number]
    refine ⟨?_, fun row member => across last (by simp) row member⟩
    intro row member
    rw [List.concat_eq_append] at inside member
    rcases List.mem_append.mp member with early | final
    · obtain ⟨_, _, below⟩ := List.pairwise_append.mp inside
      exact Nat.le_of_lt (below row early last List.mem_cons_self)
    · cases List.mem_singleton.mp final
      exact Nat.le_refl _

/-- A shorter beginning has a smaller last number. -/
theorem lastSeq_le_of_prefix {shorter : List AuditRow} (rows : table.rows = past ++ later)
    (begins : shorter <+: past)
    : lastSeq shorter ≤ lastSeq past := by
  rcases List.eq_nil_or_concat shorter with empty | ⟨before, last, split⟩
  · subst empty
    exact Nat.zero_le _
  · have number : lastSeq shorter = last.seq := by
      rw [split, List.concat_eq_append]
      exact HashChain.head_concat AuditRow.seq 0 before last
    rw [number]
    refine (seq_le_lastSeq_iff rows).1 last (begins.subset ?_)
    simp [split]

theorem filter_above (rows : table.rows = past ++ later)
    : table.rows.filter (fun row => lastSeq past < row.seq) = later := by
  obtain ⟨below, above⟩ := seq_le_lastSeq_iff rows
  rw [rows, List.filter_append, List.filter_eq_nil_iff.mpr, List.filter_eq_self.mpr,
    List.nil_append]
  · simpa using above
  · simpa using below

theorem filter_upTo (rows : table.rows = past ++ later)
    : table.rows.filter (fun row => row.seq ≤ lastSeq past) = past := by
  obtain ⟨below, above⟩ := seq_le_lastSeq_iff rows
  rw [rows, List.filter_append, List.filter_eq_self.mpr, List.filter_eq_nil_iff.mpr,
    List.append_nil]
  · simpa using above
  · simpa using below

/-- A table splits at any number. -/
theorem split_at (table : AuditTable) (seq : Nat)
    : table.rows
      = table.rows.filter (fun row => row.seq ≤ seq)
        ++ table.rows.filter (fun row => seq < row.seq) := by
  have ordered := table.ordered
  generalize table.rows = rows at ordered
  induction rows with
  | nil => rfl
  | cons row rest ih =>
      obtain ⟨above, ordered⟩ := List.pairwise_cons.mp ordered
      have later := ih ordered
      by_cases low : row.seq ≤ seq
      · have high : ¬ seq < row.seq := by omega
        simp only [List.filter_cons, low, high, decide_true, decide_false, if_true,
          Bool.false_eq_true, if_false, List.cons_append]
        exact congrArg _ later
      · have high : seq < row.seq := by omega
        have none_low : rest.filter (fun other => decide (other.seq ≤ seq)) = [] := by
          refine List.filter_eq_nil_iff.mpr ?_
          intro other member
          have larger := above other member
          simp only [decide_eq_true_eq]
          omega
        have all_high : rest.filter (fun other => decide (seq < other.seq)) = rest := by
          refine List.filter_eq_self.mpr ?_
          intro other member
          have larger := above other member
          simp only [decide_eq_true_eq]
          omega
        simp only [List.filter_cons, low, high, decide_true, decide_false, if_true,
          Bool.false_eq_true, if_false, none_low, all_high, List.nil_append]

/-- A pass starts from the hash of the last row that was verified. -/
theorem anchorHash_eq (rows : table.rows = past ++ later)
    : AuditVerifier.anchorHash table.rows (lastSeq past)
      = some (HashChain.head AuditRow.currHash AuditLog.genesisHash past) := by
  have ordered := table.ordered
  have positive := table.positive
  rw [rows] at ordered positive ⊢
  rcases List.eq_nil_or_concat past with empty | ⟨before, last, split⟩
  · subst empty
    rfl
  · subst split
    rw [List.concat_eq_append] at ordered positive ⊢
    have number : lastSeq (before ++ [last]) = last.seq :=
      HashChain.head_concat AuditRow.seq 0 before last
    have above : last.seq ≠ 0 := by
      have := positive last (by simp)
      omega
    have others : before.find? (fun row => decide (row.seq = last.seq)) = none := by
      refine List.find?_eq_none.mpr ?_
      intro row member
      obtain ⟨inside, _, _⟩ := List.pairwise_append.mp ordered
      obtain ⟨_, _, below⟩ := List.pairwise_append.mp inside
      have smaller := below row member last List.mem_cons_self
      simp only [decide_eq_true_eq]
      omega
    unfold AuditVerifier.anchorHash
    rw [number, if_neg above, HashChain.head_concat]
    simp [List.find?_append, others]

end AuditTable

section

variable {verify : String → String → Bool} {state after : VerifierState}

/-- What a pass reports when the rows up to its checkpoint are covered. -/
theorem verifyIncrement_eq {past later : List AuditRow} (rows : state.table.rows = past ++ later)
    (all : Scan.accepted (AuditRow.check verify) AuditLog.genesisHash past = past)
    (last : lastSeq past = state.checkpoint.getD 0)
    : AuditVerifier.verifyIncrement verify state.table.rows state.checkpoint
      = .ok {
          verified := (goodPrefix verify state.table.rows).length - past.length
          failure := (firstBreak verify state.table.rows).map .row
          checkpoint :=
            if (goodPrefix verify state.table.rows).length = past.length then state.checkpoint
            else some (lastSeq (goodPrefix verify state.table.rows))
        } := by
  have numbers : ∀ row ∈ later, CanonicalJson.finite row.payload := by
    intro row member
    exact state.table.numbers row (by rw [rows]; exact List.mem_append_right _ member)
  have anchor := AuditTable.anchorHash_eq rows
  have above := AuditTable.filter_above rows
  have resumed : Scan.reached (AuditRow.check verify) AuditLog.genesisHash past
      = HashChain.head AuditRow.currHash AuditLog.genesisHash past := by
    rw [reached_eq_head, all]
  have good : goodPrefix verify state.table.rows
      = past ++ Scan.accepted (AuditRow.check verify)
          (HashChain.head AuditRow.currHash AuditLog.genesisHash past) later := by
    rw [goodPrefix, rows, Scan.accepted_append all, resumed]
  have broken : firstBreak verify state.table.rows
      = (Scan.rejected (AuditRow.check verify)
          (HashChain.head AuditRow.currHash AuditLog.genesisHash past) later).map
          (fun break' => break'.2.failure break'.1) := by
    rw [firstBreak, rows, Scan.rejected_append all, resumed]
  rw [last] at anchor above
  simp only [AuditVerifier.verifyIncrement, anchor, above, verifyRows_eq _ _ numbers, bind, Except.bind, pure,
    Except.pure]
  rw [broken, good]
  simp only [List.length_append, Nat.zero_add, Nat.add_sub_cancel_left, Nat.add_eq_left]
  congr 3
  rw [lastSeq, HashChain.head_append]
  exact congrArg (fun start => some (HashChain.head AuditRow.seq start _)) last.symm

/-- The rows that are covered begin the good ones. -/
theorem covered_prefix {past later : List AuditRow} (rows : state.table.rows = past ++ later)
    (all : Scan.accepted (AuditRow.check verify) AuditLog.genesisHash past = past)
    : past <+: goodPrefix verify state.table.rows := by
  rw [goodPrefix, rows, Scan.accepted_append all]
  exact List.prefix_append _ _

/-- One step keeps the checkpoint where the passes have verified up to. -/
theorem VerifierStep.covered {action : VerifierAction}
    (step : VerifierStep verify state action after) (covered : state.Covered verify)
    : after.Covered verify := by
  obtain ⟨past, later, rows, all, last, count⟩ := covered
  cases step with
  | @append table more grown =>
      refine ⟨past, later ++ more, ?_, all, last, count⟩
      rw [grown, rows, List.append_assoc]
  | @alter table kept =>
      refine ⟨past, table.rows.filter (fun row => lastSeq past < row.seq), ?_, all, last, count⟩
      rw [← last, AuditTable.filter_upTo rows] at kept
      calc table.rows
        _ = table.rows.filter (fun row => row.seq ≤ lastSeq past)
              ++ table.rows.filter (fun row => lastSeq past < row.seq) := table.split_at _
        _ = past ++ table.rows.filter (fun row => lastSeq past < row.seq) := by rw [kept]
  | pass done =>
      have begins := covered_prefix rows all
      obtain ⟨rest, split⟩ := goodPrefix_prefix verify state.table.rows
      rw [verifyIncrement_eq rows all last] at done
      cases done
      refine ⟨goodPrefix verify state.table.rows, rest, split.symm, Scan.accepted_accepted _ _,
        ?_, ?_⟩
      · -- Without a newly verified row the checkpoint stays, and the good rows are the old ones.
        by_cases same : (goodPrefix verify state.table.rows).length = past.length
        · rw [if_pos same, ← begins.eq_of_length same.symm]
          exact last
        · rw [if_neg same]
          rfl
      · have longer := begins.length_le
        change (goodPrefix verify state.table.rows).length
          = state.verified + ((goodPrefix verify state.table.rows).length - past.length)
        omega

/-- The checkpoint is where the passes have verified up to, in every state that a schedule
reaches.
-/
theorem covered_of_run {table : AuditTable} {actions : List VerifierAction}
    (run : Machine.Run (VerifierStep verify) { table := table } actions state)
    : state.Covered verify := by
  refine run.invariant (fun state => state.Covered verify) ?_ ?_
  · exact ⟨[], table.rows, rfl, rfl, rfl, rfl⟩
  · intro before action after covered step
    exact step.covered covered

/-- In every state that a schedule of appends and passes reaches, the next pass reports a
failure exactly when the full scan does, for the same row; it leaves the checkpoint at the
last row before the first break, which the checkpoint has not passed before; and the rows
verified by all passes are those before the break.
-/
theorem pass_agrees_with_fullScan {table : AuditTable} {actions : List VerifierAction}
    (run : Machine.Run (VerifierStep verify) { table := table } actions state)
    : ∃ report failure,
        AuditVerifier.verifyIncrement verify state.table.rows state.checkpoint = .ok report
        ∧ fullScan (some verify) AuditLog.genesisHash state.table.rows = .ok failure
        ∧ report.failure = failure.map .row
        ∧ report.checkpoint.getD 0 = lastSeq (goodPrefix verify state.table.rows)
        ∧ state.checkpoint.getD 0 ≤ lastSeq (goodPrefix verify state.table.rows)
        ∧ state.verified + report.verified
          = (goodPrefix verify state.table.rows).length := by
  have covered := covered_of_run run
  have next := covered
  obtain ⟨past, later, rows, all, last, count⟩ := covered
  have done := verifyIncrement_eq rows all last
  obtain ⟨ended, _, _, _, reached, total⟩ := VerifierStep.covered (.pass done) next
  have begins := covered_prefix rows all
  refine ⟨_, _, done, fullScan_eq state.table.numbers, rfl, ?_, ?_, ?_⟩
  · dsimp only
    split
    · next same =>
        rw [← begins.eq_of_length same.symm]
        exact last.symm
    · rfl
  · obtain ⟨rest, whole⟩ := goodPrefix_prefix verify state.table.rows
    rw [← last]
    exact AuditTable.lastSeq_le_of_prefix whole.symm begins
  · have longer := begins.length_le
    dsimp only
    omega

end

/-- A table of the one given row. -/
def AuditTable.single (row : AuditRow) (positive : 0 < row.seq)
    (numbers : CanonicalJson.finite row.payload)
    : AuditTable where
  rows := [row]
  ordered := List.pairwise_singleton _ _
  positive := by simpa using positive
  numbers := by simpa using numbers

/-- A table without a break is good as a whole. -/
theorem goodPrefix_of_unbroken {verify : String → String → Bool} {table : List AuditRow}
    (unbroken : firstBreak verify table = none)
    : goodPrefix verify table = table :=
  Scan.rejected_eq_none_iff.mp (Option.map_eq_none_iff.mp unbroken)

/-- Witness: a row is verified, a second one is appended, and the next pass verifies that one. -/
theorem second_pass_agrees
    : ∃ (one two : AuditTable) (first second : Increment),
        AuditVerifier.verifyIncrement KeyPair.plain.verify one.rows none = .ok first
        ∧ AuditVerifier.verifyIncrement KeyPair.plain.verify two.rows first.checkpoint = .ok second
        ∧ (∃ row, two.rows = one.rows ++ [row])
        ∧ first.verified = 1
        ∧ second.verified = 1
        ∧ second.failure = none := by
  obtain ⟨row, later, _, written, appended, _, _⟩ := AuditLog.exists_startRows
  obtain ⟨previous, sealed'⟩ := AuditEntry.sealed_of_row written
  obtain ⟨laterPrevious, laterSealed⟩ := AuditEntry.sealed_of_row appended
  have seq {prevHash : String} {number : Nat} {row : AuditRow}
      (written : (SessionManager.startEntry "alice" "github" "s1").row .plain 1 prevHash number
        = .ok row)
      : row.seq = number := by
    obtain ⟨_, _, rfl⟩ := AuditEntry.row_ok_iff.mp written
    rfl
  have finite {row : AuditRow} (sealed' : row.Sealed KeyPair.plain.verify)
      : CanonicalJson.finite row.payload := by
    obtain ⟨text, printed, _⟩ := AuditLog.computeHash_ok_iff.mp sealed'.hashed
    exact CanonicalJson.finite_of_encode printed
  let one : AuditTable := .single row (by rw [seq written]; decide) (finite sealed')
  let two : AuditTable :=
    {
      rows := [row, later]
      ordered := by simp [seq written, seq appended]
      positive := by simp [seq written, seq appended]
      numbers := by simp [finite sealed', finite laterSealed]
    }
  have whole {table : AuditTable}
      (accepted : fullScan (some KeyPair.plain.verify) AuditLog.genesisHash table.rows = .ok none)
      : goodPrefix KeyPair.plain.verify table.rows = table.rows :=
    goodPrefix_of_unbroken (Except.ok.inj ((fullScan_eq table.numbers).symm.trans accepted))
  have scanOne : fullScan (some KeyPair.plain.verify) AuditLog.genesisHash one.rows = .ok none :=
    fullScan_ok_none_iff.mpr ⟨⟨previous, trivial⟩, by simpa [one, AuditTable.single] using sealed'⟩
  have scanTwo : fullScan (some KeyPair.plain.verify) AuditLog.genesisHash two.rows = .ok none :=
    fullScan_ok_none_iff.mpr
      ⟨⟨previous, laterPrevious, trivial⟩, by simpa [two] using ⟨sealed', laterSealed⟩⟩
  have start : Machine.Run (VerifierStep KeyPair.plain.verify) { table := one } []
      { table := one } := .nil
  obtain ⟨first, _, done, _, _, _, _, count⟩ := pass_agrees_with_fullScan start
  have appends : two.rows = one.rows ++ [later] := rfl
  have grown := (start.concat (.pass done)).concat (.append appends)
  obtain ⟨second, _, doneAgain, scanned, found, _, _, total⟩ := pass_agrees_with_fullScan grown
  refine ⟨one, two, first, second, done, doneAgain, ⟨later, appends⟩, ?_, ?_, ?_⟩
  · rw [whole scanOne] at count
    simpa [one, AuditTable.single] using count
  · rw [whole scanOne] at count
    rw [whole scanTwo] at total
    simp only [one, two, AuditTable.single, List.length_cons, List.length_nil] at count total
    omega
  · cases scanned.symm.trans scanTwo
    rw [found]
    rfl

end SecureMcp
