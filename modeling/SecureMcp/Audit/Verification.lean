import SecureMcp.Audit.Entries
import SecureMcp.Library.HashChain
import SecureMcp.Library.Loop
import SecureMcp.Storage.ReadBack

/-! Verification of stored rows: the full-scan verifier, and when a row that was written
re-verifies from what its payload column gives back.
-/

namespace SecureMcp

/-- What the full scan prints when it stops at a row. -/
inductive ChainFailure
  | brokenLink (seq : Nat)
  | tamperedRow (seq : Nat)
  | badSignature (seq : Nat)
  deriving DecidableEq, Repr

/-- The full scan from `prevHash` on. Signatures are skipped without a public key. -/
def fullScan (verify : Option (String → String → Bool)) (prevHash : String)
    : List AuditRow → Except Exn (Option ChainFailure)
  | [] => return none
  | row :: rest => do
      if row.prevHash ≠ prevHash then return some (.brokenLink row.seq)
      if (← AuditLog.computeHash prevHash row.payload) ≠ row.currHash then
        return some (.tamperedRow row.seq)
      if !verify.all (fun verify => verify row.signature row.currHash) then
        return some (.badSignature row.seq)
      fullScan verify row.currHash rest

/-- What a row has to satisfy by itself for the full scan to accept it. -/
structure AuditRow.Sealed (verify : String → String → Bool) (row : AuditRow) : Prop where
  hashed : AuditLog.computeHash row.prevHash row.payload = .ok row.currHash
  signed : verify row.signature row.currHash = true

/-- The full scan accepts exactly the chains of sealed rows. -/
theorem fullScan_ok_none_iff {verify : String → String → Bool} {prevHash : String}
    {table : List AuditRow}
    : fullScan (some verify) prevHash table = .ok none
      ↔ HashChain.Linked AuditRow.prevHash AuditRow.currHash prevHash table
        ∧ ∀ row ∈ table, row.Sealed verify := by
  induction table generalizing prevHash with
  | nil => simp [fullScan, HashChain.Linked, pure, Except.pure]
  | cons row rest ih =>
      simp only [fullScan, HashChain.Linked, List.mem_cons, forall_eq_or_imp]
      by_cases link : row.prevHash = prevHash
      · subst link
        cases hashed : AuditLog.computeHash row.prevHash row.payload with
        | error exn =>
            refine ⟨by simp [bind, Except.bind], ?_⟩
            rintro ⟨_, whole, _⟩
            cases hashed.symm.trans whole.hashed
        | ok hash =>
            by_cases content : hash = row.currHash
            · cases signed : verify row.signature row.currHash with
              | true =>
                  have self : row.Sealed verify := ⟨content ▸ hashed, signed⟩
                  simp [content, signed, ih, self, bind, Except.bind]
              | false =>
                  have broken : ¬ row.Sealed verify := by
                    intro sealed'
                    cases signed.symm.trans sealed'.signed
                  simp [content, signed, broken, bind, Except.bind, pure, Except.pure]
            · have broken : ¬ row.Sealed verify := by
                intro sealed'
                exact content (Except.ok.inj (hashed.symm.trans sealed'.hashed))
              simp [content, broken, bind, Except.bind, pure, Except.pure]
      · simp [link, pure, Except.pure]

/-- A written row is sealed under its own key. -/
theorem AuditEntry.sealed_of_row {keys : KeyPair} {policyVersion : Int} {prevHash : String}
    {seq : Nat} {entry : AuditEntry} {row : AuditRow}
    (written : entry.row keys policyVersion prevHash seq = .ok row)
    : row.prevHash = prevHash ∧ row.Sealed keys.verify := by
  obtain ⟨hash, hashed, same⟩ := AuditEntry.row_ok_iff.mp written
  subst same
  exact ⟨rfl, hashed, keys.verify_sign _⟩

/-- A row that a write made. -/
def AuditRow.Genuine (keys : KeyPair) (row : AuditRow) : Prop :=
  ∃ (entry : AuditEntry) (policyVersion : Int),
    entry.row keys policyVersion row.prevHash row.seq = .ok row

/-- A row as its columns give it back. -/
def AuditRow.ReadBack (row back : AuditRow) : Prop :=
  ∃ stored, Jsonb.ReadBack row.payload stored ∧ back = { row with payload := stored }

namespace AuditLog

/-- Everything the payload column can give back for a written row prints. -/
theorem payload_readBack_prints {keys : KeyPair} {entry : AuditEntry} {policyVersion : Int}
    {prevHash : String} {seq : Nat} {row : AuditRow} {stored : Json}
    (written : entry.row keys policyVersion prevHash seq = .ok row)
    (readBack : Jsonb.ReadBack row.payload stored)
    : ∃ text other,
        CanonicalJson.encode row.payload = .ok text
        ∧ row.currHash = Sha256.hexdigest (row.prevHash ++ text)
        ∧ CanonicalJson.encode stored = .ok other
        ∧ (other = text ↔ Jsonb.unstableFloats row.payload = []) := by
  obtain ⟨hash, hashed, same⟩ := AuditEntry.row_ok_iff.mp written
  obtain ⟨text, printed, digest⟩ := computeHash_ok_iff.mp hashed
  subst same
  obtain ⟨other, found, equal⟩ :=
    Jsonb.encode_readBack (jsonbSafe_distinct _) readBack printed
  exact ⟨text, other, printed, digest, found, equal⟩

/-- A written row re-verifies from its payload column exactly when its payload has no float
of magnitude 1e16 or more and no negative zero, at any depth. The two texts that are hashed
are assumed not to collide.
-/
theorem stored_row_reverifies_iff {keys : KeyPair} {entry : AuditEntry} {policyVersion : Int}
    {prevHash : String} {seq : Nat} {row : AuditRow} {stored : Json}
    (written : entry.row keys policyVersion prevHash seq = .ok row)
    (readBack : Jsonb.ReadBack row.payload stored)
    (noCollision :
      ∀ sent back,
        CanonicalJson.encode row.payload = .ok sent
        → CanonicalJson.encode stored = .ok back
        → Sha256.NoCollision (prevHash ++ sent) (prevHash ++ back))
    : computeHash row.prevHash stored = .ok row.currHash
      ↔ Jsonb.unstableFloats (entry.payload policyVersion) = [] := by
  obtain ⟨text, other, printed, digest, found, equal⟩ :=
    payload_readBack_prints written readBack
  obtain ⟨hash, hashed, same⟩ := AuditEntry.row_ok_iff.mp written
  have payload : row.payload = entry.payload policyVersion := by rw [same]; rfl
  have previous : row.prevHash = prevHash := by rw [same]; rfl
  rw [← payload, ← equal]
  refine ⟨?_, ?_⟩
  · intro verified
    obtain ⟨back, printedBack, digestBack⟩ := computeHash_ok_iff.mp verified
    cases found.symm.trans printedBack
    have digests : Sha256.hexdigest (prevHash ++ text) = Sha256.hexdigest (prevHash ++ other) := by
      rw [← previous, ← digest, digestBack]
    have texts := noCollision text other printed found digests
    exact (String.append_right_inj prevHash).mp texts.symm
  · intro texts
    subst texts
    exact computeHash_ok_iff.mpr ⟨other, found, digest⟩

/-- A genuine row without unstable floats hashes and verifies as it is read back. -/
theorem genuine_readBack {keys : KeyPair} {row back : AuditRow} (genuine : row.Genuine keys)
    (readBack : row.ReadBack back) (stable : Jsonb.unstableFloats row.payload = [])
    : back.prevHash = row.prevHash
      ∧ back.currHash = row.currHash
      ∧ computeHash row.prevHash back.payload = .ok row.currHash
      ∧ keys.verify back.signature back.currHash = true := by
  obtain ⟨entry, version, written⟩ := genuine
  obtain ⟨stored, given, same⟩ := readBack
  obtain ⟨text, other, _, digest, found, equal⟩ := payload_readBack_prints written given
  obtain ⟨hash, _, built⟩ := AuditEntry.row_ok_iff.mp written
  subst same
  refine ⟨rfl, rfl, ?_, ?_⟩
  · exact computeHash_ok_iff.mpr ⟨other, found, by rw [digest, equal.mpr stable]⟩
  · have signed : row.signature = keys.sign row.currHash := by
      rw [built]
      rfl
    change keys.verify row.signature row.currHash = true
    rw [signed]
    exact keys.verify_sign _

/-- The full scan accepts a chain of genuine rows that are read back without respelling, by
induction on the rows.
-/
theorem fullScan_linked {keys : KeyPair} {hash : String} {rows table : List AuditRow}
    (linked : HashChain.Linked AuditRow.prevHash AuditRow.currHash hash rows)
    (genuine : ∀ row ∈ rows, row.Genuine keys)
    (readBack : List.Forall₂ AuditRow.ReadBack rows table)
    (stable : ∀ row ∈ rows, Jsonb.unstableFloats row.payload = [])
    : fullScan (some keys.verify) hash table = .ok none := by
  induction readBack generalizing hash with
  | nil => rfl
  | @cons row back rows table head tail ih =>
      obtain ⟨previous, linked⟩ := linked
      obtain ⟨prev, curr, hashed, verified⟩ :=
        genuine_readBack (genuine row List.mem_cons_self) head (stable row List.mem_cons_self)
      rw [← curr] at linked
      have rest := ih linked
        (fun other member => genuine other (List.mem_cons_of_mem _ member))
        (fun other member => stable other (List.mem_cons_of_mem _ member))
      rw [previous] at hashed prev
      rw [curr] at rest verified
      simp [fullScan, prev, hashed, curr, verified, rest, bind, Except.bind]

/-- The row of an allowed call whose one argument is the given number. -/
def numberEntry (number : FiniteFloat) : AuditEntry :=
  Interceptor.allowEntry ⟨"alice", "github", "search"⟩ 1
    (.obj [("x", .float (.finite number))]) (some 10) none none none

/-- Witness: the row of a call with the argument 1.5 re-verifies. -/
theorem small_argument_reverifies
    : ∃ row,
        (numberEntry ⟨false, 15, -1, by decide, by decide⟩).row .plain 1 genesisHash 1 = .ok row
        ∧ Jsonb.ReadBack row.payload row.payload
        ∧ computeHash row.prevHash row.payload = .ok row.currHash := by
  obtain ⟨row, written⟩ := AuditEntry.exists_row .plain 1 genesisHash 1
    (numberEntry ⟨false, 15, -1, by decide, by decide⟩) (by decide)
  obtain ⟨hash, _, same⟩ := AuditEntry.row_ok_iff.mp written
  have payload : row.payload = (numberEntry ⟨false, 15, -1, by decide, by decide⟩).payload 1 := by
    rw [same]
    rfl
  have stable : Jsonb.unstableFloats
      ((numberEntry ⟨false, 15, -1, by decide, by decide⟩).payload 1) = [] := by
    decide
  have readBack : Jsonb.ReadBack row.payload row.payload := by
    rw [Jsonb.ReadBack, Jsonb.normalize_of_stable _ (payload ▸ stable)]
    exact .refl _
  refine ⟨row, written, readBack, ?_⟩
  refine (stored_row_reverifies_iff written readBack ?_).mpr stable
  intro sent back printed printedBack _
  cases printed.symm.trans printedBack
  rfl

/-- A client sends the argument 1e20, and the row of the call does not re-verify: the
integer that the payload column gives back prints in full.
-/
theorem large_argument_does_not_reverify
    : ∃ row stored,
        (numberEntry ⟨false, 1, 20, by decide, by decide⟩).row .plain 1 genesisHash 1 = .ok row
        ∧ Jsonb.ReadBack row.payload stored
        ∧ ¬ computeHash row.prevHash stored = .ok row.currHash := by
  let entry := numberEntry ⟨false, 1, 20, by decide, by decide⟩
  obtain ⟨row, written⟩ := AuditEntry.exists_row .plain 1 genesisHash 1 entry (by decide)
  obtain ⟨hash, hashed, same⟩ := AuditEntry.row_ok_iff.mp written
  refine ⟨row, Jsonb.normalize row.payload, written, .refl _, ?_⟩
  have differ : hashChars (List.replicate 64 '0') (entry.payload 1)
      ≠ hashChars (List.replicate 64 '0') (Jsonb.normalize (entry.payload 1)) := by
    decide +kernel
  rw [same]
  intro verified
  exact computeHash_ne differ (hashed.trans verified.symm)

/-- A payload that hashes after some hash makes a row there. -/
theorem row_of_hashChars {entry : AuditEntry} {previous hash : List Char} (seq : Nat)
    (hashed : hashChars previous (entry.payload 1) = .ok hash)
    : ∃ row,
        entry.row .plain 1 (String.ofList previous) seq = .ok row
        ∧ row.currHash = String.ofList hash := by
  have digest : computeHash (String.ofList previous) (entry.payload 1)
      = .ok (String.ofList hash) := by
    rw [computeHash_ofList, hashed]
    rfl
  exact ⟨_, AuditEntry.row_ok_iff.mpr ⟨_, digest, rfl⟩, rfl⟩

/-- The hashes of three session starts in a row, as characters. -/
theorem startHashes_differ
    : (do
        let payload := (SessionManager.startEntry "alice" "github" "s1").payload 1
        let first ← hashChars (List.replicate 64 '0') payload
        let second ← hashChars first payload
        let third ← hashChars second payload
        return decide [List.replicate 64 '0', first, second, third].Nodup) = .ok true := by
  decide +kernel

/-- Three session starts in a row have hashes that differ, and differ from the genesis hash. -/
theorem exists_startRows
    : ∃ first second third,
        (SessionManager.startEntry "alice" "github" "s1").row .plain 1 genesisHash 1 = .ok first
        ∧ (SessionManager.startEntry "alice" "github" "s1").row .plain 1 first.currHash 2
          = .ok second
        ∧ (SessionManager.startEntry "alice" "github" "s1").row .plain 1 second.currHash 3
          = .ok third
        ∧ [genesisHash, first.currHash, second.currHash, third.currHash].Nodup := by
  have differ := startHashes_differ
  obtain ⟨one, oneHash, differ⟩ := Loop.bind_eq_ok.mp differ
  obtain ⟨two, twoHash, differ⟩ := Loop.bind_eq_ok.mp differ
  obtain ⟨three, threeHash, differ⟩ := Loop.bind_eq_ok.mp differ
  have texts := of_decide_eq_true (Except.ok.inj differ)
  obtain ⟨first, firstRow, firstCurr⟩ := row_of_hashChars 1 oneHash
  obtain ⟨second, secondRow, secondCurr⟩ := row_of_hashChars 2 twoHash
  obtain ⟨third, thirdRow, thirdCurr⟩ := row_of_hashChars 3 threeHash
  refine ⟨first, second, third, firstRow, firstCurr ▸ secondRow, secondCurr ▸ thirdRow, ?_⟩
  rw [firstCurr, secondCurr, thirdCurr]
  exact texts.map (fun _ _ => String.ofList_injective)

end AuditLog

end SecureMcp
