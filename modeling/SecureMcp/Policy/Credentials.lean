import SecureMcp.Policy.Loading

/-! A credential is resolved to an identity's id by one index, and the id to a record by
another; both are built of the same list, and both keep the last record of several.
-/

namespace SecureMcp

namespace PolicyEngine

/-- A field of a record, unless it is empty. -/
def given (field : Identity → Option String) (record : Identity) : Option String :=
  (field record).filter (fun text => text ≠ "")

theorem given_eq_some_iff {field : Identity → Option String} {record : Identity} {text : String}
    : given field record = some text ↔ field record = some text ∧ text ≠ "" := by
  simp [given]

/-- The id of the last record that has a value in a field. -/
def holder (engine : PolicyEngine) (field : Identity → Option String) (credential : String)
    : Option String :=
  (Dict.ofPairs (engine.policy.identities.filterMap (fun record =>
    (given field record).map (fun credential => (credential, record.id))))).lookup credential

section

variable {engine : PolicyEngine} {field : Identity → Option String}
  {credential identityId : String} {record : Identity}

theorem identityForKeyHash_eq (keyHash : String)
    : engine.identityForKeyHash keyHash = engine.holder Identity.apiKeyHash keyHash := by
  unfold identityForKeyHash holder
  refine congrArg (fun pairs => (Dict.ofPairs pairs).lookup keyHash) ?_
  refine List.filterMap_congr fun record _ => ?_
  unfold given
  split
  · next absent => simp [absent]
  · next empty => simp [empty]
  · next some here => simpa [here] using some

theorem identityForKeyId_eq (keyId : String)
    : engine.identityForKeyId keyId = engine.holder Identity.keyId keyId := by
  unfold identityForKeyId holder
  refine congrArg (fun pairs => (Dict.ofPairs pairs).lookup keyId) ?_
  refine List.filterMap_congr fun record _ => ?_
  unfold given
  split
  · next absent => simp [absent]
  · next empty => simp [empty]
  · next some here => simpa [here] using some

/-- A credential is held by the last record that declares it. -/
theorem holder_eq_some_iff
    : engine.holder field credential = some identityId
      ↔ ∃ before record after,
          engine.policy.identities = before ++ record :: after
          ∧ given field record = some credential
          ∧ record.id = identityId
          ∧ ∀ later ∈ after, given field later ≠ some credential := by
  rw [holder, Dict.lookup_ofPairs_filterMap_iff]
  simp [and_assoc]

/-- An id names the last record that has it. -/
theorem identity_eq_some_iff
    : engine.identity identityId = some record
      ↔ ∃ before after,
          engine.policy.identities = before ++ record :: after
          ∧ record.id = identityId
          ∧ ∀ later ∈ after, later.id ≠ identityId := by
  have pairs : engine.policy.identities.map (fun record => (record.id, record))
      = engine.policy.identities.filterMap (fun record => some (record.id, record)) := by
    simp
  rw [identity, pairs, Dict.lookup_ofPairs_filterMap_iff]
  refine ⟨?_, ?_⟩
  · intro ⟨before, found, after, split, here, later⟩
    cases here
    refine ⟨before, after, split, rfl, ?_⟩
    intro other member same
    exact later other member other (by rw [same])
  · intro ⟨before, after, split, here, later⟩
    refine ⟨before, record, after, split, by rw [here], ?_⟩
    intro other member pair same
    cases same
    exact later other member rfl

/-- A record whose id does not occur again is what its id names. -/
theorem identity_of_last {before after : List Identity}
    (split : engine.policy.identities = before ++ record :: after)
    (last : ∀ later ∈ after, later.id ≠ record.id)
    : engine.identity record.id = some record :=
  identity_eq_some_iff.mpr ⟨before, after, split, rfl, last⟩

/-- An id that occurs again names a record after its first occurrence. -/
theorem identity_of_repeated {before after : List Identity} {repeated : Identity}
    (split : engine.policy.identities = before ++ record :: after) (member : repeated ∈ after)
    (same : repeated.id = record.id)
    : ∃ found ∈ after, engine.identity record.id = some found := by
  have some : (after.reverse.find? (fun later => decide (later.id = record.id))).isSome := by
    simpa [List.find?_isSome] using ⟨repeated, member, same⟩
  obtain ⟨found, first⟩ := Option.isSome_iff_exists.mp some
  obtain ⟨here, newer, older, reversed, none⟩ := List.find?_eq_some_iff_append.mp first
  have order : after = older.reverse ++ found :: newer.reverse := by
    rw [← List.reverse_reverse after, reversed]
    simp
  have named : found.id = record.id := of_decide_eq_true here
  refine ⟨found, by simp [order], identity_eq_some_iff.mpr ?_⟩
  refine ⟨before ++ record :: older.reverse, newer.reverse, by simp [split, order], named, ?_⟩
  intro later among
  simpa using none later (List.mem_reverse.mp among)

/-- What a credential resolves to carries it. -/
def Carried (engine : PolicyEngine) (field : Identity → Option String) : Prop :=
  ∀ credential identityId,
    engine.holder field credential = some identityId
    → ∃ record, engine.identity identityId = some record ∧ field record = some credential

/-- After the last record with a credential in the field, no record has the same id. -/
def Unrepeated (engine : PolicyEngine) (field : Identity → Option String) : Prop :=
  ∀ before record after credential,
    engine.policy.identities = before ++ record :: after
    → field record = some credential
    → credential ≠ ""
    → (∀ later ∈ after, field later ≠ some credential)
    → ∀ later ∈ after, later.id ≠ record.id

theorem carried_iff : engine.Carried field ↔ engine.Unrepeated field := by
  refine ⟨?_, ?_⟩
  · intro carried before record after credential split here some last later member same
    have held : engine.holder field credential = .some record.id := by
      refine holder_eq_some_iff.mpr ⟨before, record, after, split,
        given_eq_some_iff.mpr ⟨here, some⟩, rfl, ?_⟩
      intro other among declares
      exact last other among (given_eq_some_iff.mp declares).1
    obtain ⟨found, named, declares⟩ := carried credential record.id held
    obtain ⟨other, among, named'⟩ := identity_of_repeated split member same
    cases named.symm.trans named'
    exact last found among declares
  · intro unrepeated credential identityId held
    obtain ⟨before, record, after, split, declares, rfl, last⟩ := holder_eq_some_iff.mp held
    obtain ⟨here, some⟩ := given_eq_some_iff.mp declares
    refine ⟨record, identity_of_last split ?_, here⟩
    refine unrepeated before record after credential split here some ?_
    intro later member declared
    exact last later member (given_eq_some_iff.mpr ⟨declared, some⟩)

end

/-- A presented credential is resolved to a record that carries it. -/
def CredentialsResolve (engine : PolicyEngine) : Prop :=
  (∀ keyHash identityId,
    engine.identityForKeyHash keyHash = some identityId
    → ∃ record, engine.identity identityId = some record ∧ record.apiKeyHash = some keyHash)
  ∧ ∀ keyId identityId,
      engine.identityForKeyId keyId = some identityId
      → ∃ record, engine.identity identityId = some record ∧ record.keyId = some keyId

theorem credentialsResolve_iff (engine : PolicyEngine)
    : engine.CredentialsResolve
      ↔ engine.Unrepeated Identity.apiKeyHash ∧ engine.Unrepeated Identity.keyId := by
  unfold CredentialsResolve
  simp only [identityForKeyHash_eq, identityForKeyId_eq]
  exact and_congr carried_iff carried_iff

/-- Two records of one id, the second of an administrator. -/
def twoRecords : PolicyDocument where
  version := 1
  identities := [
    { id := "agent", apiKeyHash := some "sha256:1" },
    { id := "agent", apiKeyHash := some "sha256:2", admin := true }
  ]

def twoRecordsReader : PolicyReader where
  parse _ := .ok twoRecords
  environ _ := none

def twoRecordsEngine : PolicyEngine where
  policy := {
    version := 1
    identities := [
      { id := "agent", apiKeyHash := some "sha256:1" },
      { id := "agent", apiKeyHash := some "sha256:2", admin := true }
    ]
  }

/-- The first key of a policy that passes its checks is resolved to the administrator. -/
theorem key_resolves_to_other_record
    : twoRecords.identities.mapM (PolicyLoading.checkAuthFields twoRecordsReader)
          = .ok twoRecordsEngine.policy.identities
      ∧ PolicyLoading.checkServers twoRecordsEngine.policy = .ok ()
      ∧ twoRecordsEngine.identityForKeyHash "sha256:1" = some "agent"
      ∧ twoRecordsEngine.isAdmin "agent" = true
      ∧ ¬ twoRecordsEngine.CredentialsResolve := by
  refine ⟨rfl, by decide, by decide, by decide, ?_⟩
  intro resolves
  obtain ⟨record, named, carries⟩ := resolves.1 "sha256:1" "agent" (by decide)
  cases named
  exact absurd carries (by decide)

end PolicyEngine

end SecureMcp
