import SecureMcp.Audit.Incremental

/-! What the verifiers make of a table that someone else has written to. The hashes and the
signatures pin the payloads of an accepted table to the beginning of what the gateway wrote;
the queryable columns beside them are not looked at.
-/

namespace SecureMcp

-----------------------------------------------------------------------------------------
-- Payloads
-----------------------------------------------------------------------------------------

/-- What the gateway wrote: one chain of rows from the genesis hash, in `seq` order. -/
structure AuditHistory where
  rows : List AuditRow
  linked : HashChain.Linked AuditRow.prevHash AuditRow.currHash AuditLog.genesisHash rows
  hashed : ∀ row ∈ rows, AuditLog.computeHash row.prevHash row.payload = .ok row.currHash

/-- The texts of two rows that are hashed do not collide. -/
def AuditRow.NoCollision (row other : AuditRow) : Prop :=
  ∀ text otherText,
    CanonicalJson.encode row.payload = .ok text
    → CanonicalJson.encode other.payload = .ok otherText
    → Sha256.NoCollision (row.prevHash ++ text) (other.prevHash ++ otherText)

theorem append_injective {left right text other : String}
    (lengths : left.length = right.length) (same : left ++ text = right ++ other)
    : left = right ∧ text = other := by
  have chars : left.toList ++ text.toList = right.toList ++ other.toList := by
    rw [← String.toList_append, same, String.toList_append]
  have sizes : left.toList.length = right.toList.length := by
    rw [String.length_toList, String.length_toList, lengths]
  obtain ⟨one, two⟩ := List.append_inj chars sizes
  exact ⟨String.toList_inj.mp one, String.toList_inj.mp two⟩

/-- Rows with one hash have one previous hash and one payload text. -/
theorem binding_of_noCollision {row other : AuditRow}
    (hashed : AuditLog.computeHash row.prevHash row.payload = .ok row.currHash)
    (otherHashed : AuditLog.computeHash other.prevHash other.payload = .ok other.currHash)
    (lengths : row.prevHash.length = other.prevHash.length)
    (noCollision : row.NoCollision other) (same : row.currHash = other.currHash)
    : row.prevHash = other.prevHash
      ∧ CanonicalJson.encode row.payload = CanonicalJson.encode other.payload := by
  obtain ⟨text, printed, digest⟩ := AuditLog.computeHash_ok_iff.mp hashed
  obtain ⟨otherText, otherPrinted, otherDigest⟩ := AuditLog.computeHash_ok_iff.mp otherHashed
  have texts := noCollision text otherText printed otherPrinted
    (digest.symm.trans (same.trans otherDigest))
  obtain ⟨previous, payloads⟩ := append_injective lengths texts
  exact ⟨previous, by rw [printed, otherPrinted, payloads]⟩

theorem length_genesisHash : AuditLog.genesisHash.length = 64 := by
  unfold AuditLog.genesisHash
  rw [String.length_ofList]
  exact List.length_replicate

/-- Every previous hash in a chain of hashed rows has the length of a digest. -/
theorem length_prevHash {rows : List AuditRow}
    (linked : HashChain.Linked AuditRow.prevHash AuditRow.currHash AuditLog.genesisHash rows)
    (hashed : ∀ row ∈ rows, AuditLog.computeHash row.prevHash row.payload = .ok row.currHash)
    : ∀ row ∈ rows, row.prevHash.length = 64 := by
  intro row member
  rcases HashChain.prev_of_linked _ _ linked row member with genesis | ⟨other, there, named⟩
  · exact genesis ▸ length_genesisHash
  · obtain ⟨text, _, digest⟩ := AuditLog.computeHash_ok_iff.mp (hashed other there)
    rw [named, digest]
    exact Sha256.length_hexdigest _

/-- Whatever table the full scan accepts with the public key, its payloads in `seq` order
are, in canonical form, a beginning of those that the gateway wrote.
-/
theorem accepted_payloads_prefix {verify : String → String → Bool} {history : AuditHistory}
    {table : List AuditRow}
    (accepted : fullScan (some verify) AuditLog.genesisHash table = .ok none)
    (collisionFree : ∀ row ∈ table ++ history.rows, ∀ other ∈ history.rows, row.NoCollision other)
    (neverGenesis : ∀ row ∈ history.rows, row.currHash ≠ AuditLog.genesisHash)
    (unforgeable : ∀ signature hash,
      verify signature hash = true → ∃ row ∈ history.rows, row.currHash = hash)
    : table.map (fun row => CanonicalJson.encode row.payload)
      <+: history.rows.map (fun row => CanonicalJson.encode row.payload) := by
  obtain ⟨linked, sealed'⟩ := fullScan_ok_none_iff.mp accepted
  have hashed : ∀ row ∈ table,
      AuditLog.computeHash row.prevHash row.payload = .ok row.currHash :=
    fun row member => (sealed' row member).hashed
  have tableLengths := length_prevHash linked hashed
  have writtenLengths := length_prevHash history.linked history.hashed
  refine HashChain.contents_prefix history.linked linked ?_ neverGenesis ?_
  · intro row member other there same
    have lengths : row.prevHash.length = other.prevHash.length := by
      rw [writtenLengths other there]
      rcases List.mem_append.mp member with inTable | written
      · exact tableLengths row inTable
      · exact writtenLengths row written
    have rowHashed : AuditLog.computeHash row.prevHash row.payload = .ok row.currHash := by
      rcases List.mem_append.mp member with inTable | written
      · exact hashed row inTable
      · exact history.hashed row written
    exact binding_of_noCollision rowHashed (history.hashed other there) lengths
      (collisionFree row member other there) same
  · intro row member
    obtain ⟨other, there, same⟩ := unforgeable row.signature row.currHash (sealed' row member).signed
    exact ⟨other, there, same.symm⟩

/-- The row of a session's start, as the first row of the log. -/
theorem exists_startRow
    : ∃ row,
        (SessionManager.startEntry "alice" "github" "s1").row .plain 1 AuditLog.genesisHash 1
          = .ok row
        ∧ row.currHash ≠ AuditLog.genesisHash := by
  obtain ⟨row, _, _, written, _, _, differ⟩ := AuditLog.exists_startRows
  refine ⟨row, written, fun genesis => ?_⟩
  simp [genesis] at differ

/-- Hashed rows that are one row if their hashes are one do not collide. -/
theorem AuditRow.noCollision_of_hashes {row other : AuditRow}
    (hashed : AuditLog.computeHash row.prevHash row.payload = .ok row.currHash)
    (hashed' : AuditLog.computeHash other.prevHash other.payload = .ok other.currHash)
    (unique : row.currHash = other.currHash → row = other)
    : row.NoCollision other := by
  intro text otherText printed otherPrinted same
  obtain ⟨_, known, digest⟩ := AuditLog.computeHash_ok_iff.mp hashed
  obtain ⟨_, otherKnown, otherDigest⟩ := AuditLog.computeHash_ok_iff.mp hashed'
  cases printed.symm.trans known
  cases otherPrinted.symm.trans otherKnown
  cases unique (digest.trans (same.trans otherDigest.symm))
  cases printed.symm.trans otherPrinted
  rfl

/-- Witness: a table of the first two of three rows that the gateway wrote, under a key that
verifies their hashes only.
-/
theorem written_table_is_prefix
    : ∃ (first second third : AuditRow) (verify : String → String → Bool) (history : AuditHistory),
        history.rows = [first, second, third]
        ∧ fullScan (some verify) AuditLog.genesisHash [first, second] = .ok none
        ∧ [first, second].map (fun row => CanonicalJson.encode row.payload)
          <+: history.rows.map (fun row => CanonicalJson.encode row.payload) := by
  obtain ⟨first, second, third, one, two, three, differ⟩ := AuditLog.exists_startRows
  obtain ⟨firstPrev, firstSealed⟩ := AuditEntry.sealed_of_row one
  obtain ⟨secondPrev, secondSealed⟩ := AuditEntry.sealed_of_row two
  obtain ⟨thirdPrev, thirdSealed⟩ := AuditEntry.sealed_of_row three
  have hashed : ∀ row ∈ [first, second, third],
      AuditLog.computeHash row.prevHash row.payload = .ok row.currHash := by
    simp [firstSealed.hashed, secondSealed.hashed, thirdSealed.hashed]
  let verify : String → String → Bool :=
    fun _ hash => [first, second, third].any (fun row => row.currHash = hash)
  let history : AuditHistory :=
    {
      rows := [first, second, third]
      linked := ⟨firstPrev, secondPrev, thirdPrev, trivial⟩
      hashed
    }
  have accepted : fullScan (some verify) AuditLog.genesisHash [first, second] = .ok none := by
    refine fullScan_ok_none_iff.mpr ⟨⟨firstPrev, secondPrev, trivial⟩, ?_⟩
    intro row member
    have known : row ∈ [first, second, third] := List.mem_append_left [third] member
    exact ⟨hashed row known, List.any_eq_true.mpr ⟨row, known, by simp⟩⟩
  -- one row for each hash
  have unique : ∀ row ∈ [first, second, third], ∀ other ∈ [first, second, third],
      row.currHash = other.currHash → row = other := by
    have hashes : ([first, second, third].map AuditRow.currHash).Nodup := differ.tail
    exact fun row here other there => List.inj_on_of_nodup_map hashes here there
  refine ⟨first, second, third, verify, history, rfl, accepted,
    accepted_payloads_prefix accepted ?_ ?_ ?_⟩
  · intro row member other there
    have known : row ∈ [first, second, third] := by
      rcases List.mem_append.mp member with inTable | written
      · exact List.mem_append_left [third] inTable
      · exact written
    exact AuditRow.noCollision_of_hashes (hashed row known) (hashed other there)
      (unique row known other there)
  · intro row member genesis
    refine (List.nodup_cons.mp differ).1 ?_
    exact genesis ▸ List.mem_map_of_mem (f := AuditRow.currHash) member
  · intro signature hash verified
    obtain ⟨row, member, same⟩ := List.any_eq_true.mp verified
    exact ⟨row, member, of_decide_eq_true same⟩

-----------------------------------------------------------------------------------------
-- Columns
-----------------------------------------------------------------------------------------

/-- A row with other queryable columns. -/
def AuditRow.Retouched (row other : AuditRow) : Prop :=
  ∃ identityId serverId toolName eventType policyVersion,
    other = {
      row with
      identityId := identityId
      serverId := serverId
      toolName := toolName
      eventType := eventType
      policyVersion := policyVersion
    }

section

variable {verify : String → String → Bool} {table other : List AuditRow}

/-- The full scan does not look at the columns, by induction on the rows. -/
theorem fullScan_retouched (tampered : List.Forall₂ AuditRow.Retouched table other)
    (prevHash : String)
    : fullScan (some verify) prevHash other = fullScan (some verify) prevHash table := by
  induction tampered generalizing prevHash with
  | nil => rfl
  | cons head _ ih =>
      obtain ⟨_, _, _, _, _, same⟩ := head
      subst same
      simp only [fullScan, ih]

theorem verifyRows_retouched (tampered : List.Forall₂ AuditRow.Retouched table other)
    (prevHash : String) (lastVerified verified : Nat)
    : AuditVerifier.verifyRows verify prevHash lastVerified verified other
      = AuditVerifier.verifyRows verify prevHash lastVerified verified table := by
  induction tampered generalizing prevHash lastVerified verified with
  | nil => rfl
  | cons head _ ih =>
      obtain ⟨_, _, _, _, _, same⟩ := head
      subst same
      simp only [AuditVerifier.verifyRows, ih]

theorem filter_retouched (tampered : List.Forall₂ AuditRow.Retouched table other) (seq : Nat)
    : List.Forall₂ AuditRow.Retouched (table.filter (fun row => seq < row.seq))
        (other.filter (fun row => seq < row.seq)) := by
  induction tampered with
  | nil => exact .nil
  | cons head _ ih =>
      obtain ⟨identityId, serverId, toolName, eventType, policyVersion, same⟩ := head
      subst same
      simp only [List.filter_cons]
      split
      · exact .cons ⟨identityId, serverId, toolName, eventType, policyVersion, rfl⟩ ih
      · exact ih

theorem anchorHash_retouched (tampered : List.Forall₂ AuditRow.Retouched table other)
    (seq : Nat)
    : AuditVerifier.anchorHash other seq = AuditVerifier.anchorHash table seq := by
  unfold AuditVerifier.anchorHash
  split
  · rfl
  · induction tampered with
    | nil => rfl
    | cons head _ ih =>
        obtain ⟨_, _, _, _, _, same⟩ := head
        subst same
        simp only [List.find?_cons]
        cases decide (AuditRow.seq _ = seq) with
        | true => rfl
        | false => exact ih

/-- No pass looks at the columns either. -/
theorem verifyIncrement_retouched (tampered : List.Forall₂ AuditRow.Retouched table other)
    (checkpoint : Option Nat)
    : AuditVerifier.verifyIncrement verify other checkpoint
      = AuditVerifier.verifyIncrement verify table checkpoint := by
  unfold AuditVerifier.verifyIncrement
  simp only [anchorHash_retouched tampered]
  cases AuditVerifier.anchorHash table (checkpoint.getD 0) with
  | none => rfl
  | some prevHash =>
      simp only [verifyRows_retouched (filter_retouched tampered (checkpoint.getD 0))]

/-- However the queryable columns of an accepted log are changed, the full scan still accepts
it, and the next pass from any checkpoint that passes have left reports no failure.
-/
theorem tampered_columns_unnoticed {start : AuditTable} {actions : List VerifierAction}
    {state : VerifierState}
    (run : Machine.Run (VerifierStep verify) { table := start } actions state)
    (accepted : fullScan (some verify) AuditLog.genesisHash state.table.rows = .ok none)
    (tampered : List.Forall₂ AuditRow.Retouched state.table.rows other)
    : fullScan (some verify) AuditLog.genesisHash other = .ok none
      ∧ ∃ report,
          AuditVerifier.verifyIncrement verify other state.checkpoint = .ok report
          ∧ report.failure = none := by
  refine ⟨(fullScan_retouched tampered _).trans accepted, ?_⟩
  obtain ⟨past, later, rows, all, last, _⟩ := covered_of_run run
  have unbroken : firstBreak verify state.table.rows = none :=
    Except.ok.inj ((fullScan_eq state.table.numbers).symm.trans accepted)
  refine ⟨_, (verifyIncrement_retouched tampered _).trans (verifyIncrement_eq rows all last), ?_⟩
  rw [unbroken]
  rfl

end

/-- The row of a session's start with another identity in its column. -/
def impersonated (row : AuditRow) : AuditRow :=
  { row with identityId := "mallory" }

theorem impersonated_retouched (row : AuditRow) : row.Retouched (impersonated row) :=
  ⟨_, _, _, _, _, rfl⟩

/-- Witness: the log of one session's start, with another identity in the identity column. -/
theorem impersonation_passes_increment
    : ∃ row report,
        (SessionManager.startEntry "alice" "github" "s1").row .plain 1 AuditLog.genesisHash 1
          = .ok row
        ∧ AuditVerifier.verifyIncrement KeyPair.plain.verify [impersonated row] none = .ok report
        ∧ report.failure = none := by
  obtain ⟨row, written, _⟩ := exists_startRow
  obtain ⟨previous, sealed'⟩ := AuditEntry.sealed_of_row written
  obtain ⟨hash, _, same⟩ := AuditEntry.row_ok_iff.mp written
  obtain ⟨text, printed, _⟩ := AuditLog.computeHash_ok_iff.mp sealed'.hashed
  have number : row.seq = 1 := by
    rw [same]
    rfl
  have accepted : fullScan (some KeyPair.plain.verify) AuditLog.genesisHash [row] = .ok none :=
    fullScan_ok_none_iff.mpr ⟨⟨previous, trivial⟩, by simpa using sealed'⟩
  let table : AuditTable := .single row (by rw [number]; decide)
    (CanonicalJson.finite_of_encode printed)
  have start : Machine.Run (VerifierStep KeyPair.plain.verify) { table := table } []
      { table := table } := .nil
  obtain ⟨_, report, done, fine⟩ := tampered_columns_unnoticed start accepted
    (.cons (impersonated_retouched row) .nil)
  exact ⟨row, report, written, done, fine⟩

/-- Another identity in the identity column of an accepted log is accepted as well. -/
theorem impersonation_passes_fullScan
    : ∃ row,
        (SessionManager.startEntry "alice" "github" "s1").row .plain 1 AuditLog.genesisHash 1
          = .ok row
        ∧ fullScan (some KeyPair.plain.verify) AuditLog.genesisHash [row] = .ok none
        ∧ (impersonated row).identityId ≠ row.identityId
        ∧ fullScan (some KeyPair.plain.verify) AuditLog.genesisHash [impersonated row]
          = .ok none := by
  obtain ⟨row, written, _⟩ := exists_startRow
  obtain ⟨previous, sealed'⟩ := AuditEntry.sealed_of_row written
  have accepted : fullScan (some KeyPair.plain.verify) AuditLog.genesisHash [row] = .ok none :=
    fullScan_ok_none_iff.mpr ⟨⟨previous, trivial⟩, by simpa using sealed'⟩
  have tampered : List.Forall₂ AuditRow.Retouched [row] [impersonated row] :=
    .cons (impersonated_retouched row) .nil
  refine ⟨row, written, accepted, ?_, (fullScan_retouched tampered _).trans accepted⟩
  obtain ⟨hash, _, same⟩ := AuditEntry.row_ok_iff.mp written
  subst same
  have names : "mallory" ≠ "alice" := by decide
  exact names

end SecureMcp
