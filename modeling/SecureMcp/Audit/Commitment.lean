import SecureMcp.Audit.Tampering
import SecureMcp.Python.Unambiguous

/-! What the last hash of the log says. It covers every payload of the log and the order of its
rows, so whoever keeps the hash can tell any other log from this one.
-/

namespace SecureMcp

/-- Rows whose payloads differ in the key order of their objects only. -/
def AuditRow.SamePayload (row other : AuditRow) : Prop :=
  Json.Reordered row.payload other.payload

/-- The full scan, with or without the public key, accepts chains of hashed rows only. -/
theorem chain_of_fullScan {verify : Option (String → String → Bool)} {prevHash : String}
    {table : List AuditRow} (accepted : fullScan verify prevHash table = .ok none)
    : HashChain.Linked AuditRow.prevHash AuditRow.currHash prevHash table
      ∧ ∀ row ∈ table, AuditLog.computeHash row.prevHash row.payload = .ok row.currHash := by
  induction table generalizing prevHash with
  | nil => exact ⟨trivial, by simp⟩
  | cons row rest ih =>
      simp only [fullScan] at accepted
      by_cases link : row.prevHash = prevHash
      · cases hashed : AuditLog.computeHash prevHash row.payload with
        | error exn => simp [link, hashed, bind, Except.bind] at accepted
        | ok hash =>
            by_cases content : hash = row.currHash
            · simp only [link, hashed, content, bind, Except.bind, pure, Except.pure, ne_eq,
                not_true_eq_false, if_false] at accepted
              split at accepted
              · cases accepted
              · obtain ⟨linked, others⟩ := ih accepted
                refine ⟨⟨link, linked⟩, fun other member => ?_⟩
                rcases List.mem_cons.mp member with here | there
                · rw [here, link, hashed, content]
                · exact others other there
            · simp [link, hashed, content, bind, Except.bind, pure, Except.pure] at accepted
      · simp [link, pure, Except.pure] at accepted

/-- Hashed rows with one hash continue one hash and have one payload. -/
theorem samePayload_of_hash {row other : AuditRow}
    (hashed : AuditLog.computeHash row.prevHash row.payload = .ok row.currHash)
    (hashed' : AuditLog.computeHash other.prevHash other.payload = .ok other.currHash)
    (lengths : row.prevHash.length = other.prevHash.length) (noCollision : row.NoCollision other)
    (distinct : row.payload.DistinctKeys) (distinct' : other.payload.DistinctKeys)
    (same : row.currHash = other.currHash)
    : row.prevHash = other.prevHash ∧ row.SamePayload other := by
  obtain ⟨previous, texts⟩ := binding_of_noCollision hashed hashed' lengths noCollision same
  obtain ⟨text, printed, _⟩ := AuditLog.computeHash_ok_iff.mp hashed
  exact ⟨previous, (CanonicalJson.encode_eq_iff distinct distinct' printed).mp (texts ▸ printed)⟩

/-- One payload after one hash has one hash. -/
theorem hash_of_samePayload {row other : AuditRow} (content : row.SamePayload other)
    (hashed : AuditLog.computeHash row.prevHash row.payload = .ok row.currHash)
    (hashed' : AuditLog.computeHash other.prevHash other.payload = .ok other.currHash)
    (previous : row.prevHash = other.prevHash) (distinct : row.payload.DistinctKeys)
    : row.currHash = other.currHash := by
  obtain ⟨text, printed, digest⟩ := AuditLog.computeHash_ok_iff.mp hashed
  have printed' := CanonicalJson.encode_reordered content distinct printed
  have twin := AuditLog.computeHash_ok_iff.mpr ⟨text, printed', digest⟩
  rw [previous, hashed'] at twin
  exact (Except.ok.inj twin).symm

/-- Chains of the same payloads end in the same hash, by induction on the rows. -/
theorem head_of_samePayload {hash : String} {table other : List AuditRow}
    (linked : HashChain.Linked AuditRow.prevHash AuditRow.currHash hash table)
    (linked' : HashChain.Linked AuditRow.prevHash AuditRow.currHash hash other)
    (hashed : ∀ row ∈ table, AuditLog.computeHash row.prevHash row.payload = .ok row.currHash)
    (hashed' : ∀ row ∈ other, AuditLog.computeHash row.prevHash row.payload = .ok row.currHash)
    (distinct : ∀ row ∈ table, row.payload.DistinctKeys)
    (rows : List.Forall₂ AuditRow.SamePayload table other)
    : HashChain.head AuditRow.currHash hash table
      = HashChain.head AuditRow.currHash hash other := by
  induction rows generalizing hash with
  | nil => rfl
  | @cons row twin rest more content _ ih =>
      obtain ⟨previous, linked⟩ := linked
      obtain ⟨previous', linked'⟩ := linked'
      have same : row.currHash = twin.currHash :=
        hash_of_samePayload content (hashed row List.mem_cons_self) (hashed' twin List.mem_cons_self)
          (previous.trans previous'.symm) (distinct row List.mem_cons_self)
      simp only [HashChain.head, ← same]
      refine ih linked (same ▸ linked') ?_ ?_ ?_
      · exact fun row member => hashed row (List.mem_cons_of_mem _ member)
      · exact fun row member => hashed' row (List.mem_cons_of_mem _ member)
      · exact fun row member => distinct row (List.mem_cons_of_mem _ member)

/-- Two logs that the full scan accepts end in one hash exactly when they have the same payloads in
the same order, up to the key order of objects. No two of the hashed texts are assumed to collide,
nor a row to have the genesis hash.
-/
theorem last_hash_commits {verify verify' : Option (String → String → Bool)}
    {table other : List AuditRow}
    (accepted : fullScan verify AuditLog.genesisHash table = .ok none)
    (accepted' : fullScan verify' AuditLog.genesisHash other = .ok none)
    (distinct : ∀ row ∈ table ++ other, row.payload.DistinctKeys)
    (collisionFree : ∀ row ∈ table, ∀ twin ∈ other, row.NoCollision twin)
    (neverGenesis : ∀ row ∈ table ++ other, row.currHash ≠ AuditLog.genesisHash)
    : HashChain.head AuditRow.currHash AuditLog.genesisHash table
        = HashChain.head AuditRow.currHash AuditLog.genesisHash other
      ↔ List.Forall₂ AuditRow.SamePayload table other := by
  obtain ⟨linked, hashed⟩ := chain_of_fullScan accepted
  obtain ⟨linked', hashed'⟩ := chain_of_fullScan accepted'
  refine ⟨?_, ?_⟩
  · intro same
    refine HashChain.forall₂_of_head linked linked' ?_ neverGenesis same
    intro row here twin there equal
    have lengths : row.prevHash.length = twin.prevHash.length := by
      rw [length_prevHash linked hashed row here, length_prevHash linked' hashed' twin there]
    exact samePayload_of_hash (hashed row here) (hashed' twin there) lengths
      (collisionFree row here twin there) (distinct row (List.mem_append_left _ here))
      (distinct twin (List.mem_append_right _ there)) equal
  · exact head_of_samePayload linked linked' hashed hashed'
      (fun row member => distinct row (List.mem_append_left _ member))

/-- The log of one session, and the same log with the fields of its payload in another order, end
in one hash.
-/
theorem last_hash_of_turned_payload
    : ∃ (row turned : AuditRow) (fields : List (String × Json)),
        row.payload = .obj fields
        ∧ turned.payload = .obj fields.reverse
        ∧ (HashChain.head AuditRow.currHash AuditLog.genesisHash [row]
            = HashChain.head AuditRow.currHash AuditLog.genesisHash [turned]
          ↔ List.Forall₂ AuditRow.SamePayload [row] [turned]) := by
  obtain ⟨row, written, notGenesis⟩ := exists_startRow
  obtain ⟨hash, _, built⟩ := AuditEntry.row_ok_iff.mp written
  obtain ⟨previous, sealed'⟩ := AuditEntry.sealed_of_row written
  obtain ⟨fields, payload⟩ : ∃ fields, row.payload = .obj fields := by
    rw [built]
    exact ⟨_, rfl⟩
  have distinct : (Json.obj fields).DistinctKeys := by
    rw [← payload, built]
    exact AuditLog.jsonbSafe_distinct _
  let turned : AuditRow := { row with payload := .obj fields.reverse }
  have kept : Json.ReorderedFields fields fields := by
    have each (key : String) (value : Json) (_ : (key, value) ∈ fields)
        : Json.Reordered value value :=
      .refl value
    simpa using Json.reorderedFields_map (fun _ value => value) each
  have order : Json.Reordered (.obj fields) (.obj fields.reverse) :=
    .obj kept fields.reverse_perm.symm
  have scan (table : AuditRow) (previous : table.prevHash = AuditLog.genesisHash)
      (hashed : AuditLog.computeHash AuditLog.genesisHash table.payload = .ok table.currHash)
      : fullScan none AuditLog.genesisHash [table] = .ok none := by
    simp [fullScan, previous, hashed, bind, Except.bind, pure, Except.pure]
  have hashed : AuditLog.computeHash AuditLog.genesisHash row.payload = .ok row.currHash :=
    previous ▸ sealed'.hashed
  obtain ⟨text, printed, digest⟩ := AuditLog.computeHash_ok_iff.mp hashed
  rw [payload] at printed
  have printed' := CanonicalJson.encode_reordered order distinct printed
  have hashed' : AuditLog.computeHash AuditLog.genesisHash turned.payload = .ok turned.currHash :=
    AuditLog.computeHash_ok_iff.mpr ⟨text, printed', digest⟩
  refine ⟨row, turned, fields, payload, rfl,
    last_hash_commits (scan row previous hashed) (scan turned previous hashed') ?_ ?_ ?_⟩
  · intro other member
    rcases (by simpa using member : other = row ∨ other = turned) with same | same
    · rw [same, payload]
      exact distinct
    · rw [same]
      exact order.distinct distinct
  · intro one here twin there text text' known known'
    rw [List.mem_singleton.mp here, payload, printed] at known
    rw [List.mem_singleton.mp there] at known'
    have known' : CanonicalJson.encode (.obj fields.reverse) = .ok text' := known'
    rw [printed'] at known'
    cases known
    cases known'
    rw [List.mem_singleton.mp here, List.mem_singleton.mp there]
    exact fun _ => rfl
  · intro other member
    rcases (by simpa using member : other = row ∨ other = turned) with same | same
    · exact same ▸ notGenesis
    · exact same ▸ notGenesis

end SecureMcp
