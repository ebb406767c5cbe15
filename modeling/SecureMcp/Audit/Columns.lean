import SecureMcp.Audit.Entries

/-! The queryable columns of a row against their copies in the hashed payload, for every
place in the gateway that writes a row.
-/

namespace SecureMcp

/-- One constructor for each call of `AuditWriter.write` in the gateway. -/
inductive WriteSite
  | allow (key : CallKey) (policyVersion : Int) (arguments : Json) (riskScore : Option Int)
    (riskFactors : Option (List RiskFactor)) (approvalId challengeId : Option String)
  | deny (key : CallKey) (eventType : EventType) (reason : String)
    (matchedRules : List String) (riskScore : Option Int)
    (riskFactors : Option (List RiskFactor)) (arguments : Json)
  | riskTerminal (key : CallKey) (eventType : EventType) (reason : String) (arguments : Json)
    (riskScore : Int) (riskFactors : List RiskFactor)
  | policyError (key : CallKey) (condition problem : String)
  | toolsList (identityId serverId : String) (served pruned : List String)
  | drift (key : CallKey) (severity : DriftSeverity) (approvedHash observedHash : String)
  | driftRemoved (key : CallKey)
  | firstSightingFlagged (key : CallKey) (findings : List String)
  | renamed (key : CallKey) (renamedFrom observedHash : String)
  | promotionFlagged (key : CallKey) (findings : List String)
  | driftApproved (key : CallKey) (oldHash newHash : String)
  | approvalExpired (requested : CallKey) (approvalId : String)
  | approvalStale (requested : CallKey) (approvalId : String)
  | approvalGranted (requested : CallKey) (approvalId approvedBy : String)
  | sessionStart (identityId serverId sessionId : String)
  | policyStartup (newVersion : Int) (contentHash : String)
  | policyReload (oldVersion newVersion : Int) (contentHash : String)
  | policyRollback (identityId : String) (oldVersion newVersion : Int) (contentHash : String)

namespace WriteSite

def entry : WriteSite → AuditEntry
  | .allow key version arguments score factors approval challenge =>
      Interceptor.allowEntry key version arguments score factors approval challenge
  | .deny key event reason rules score factors arguments =>
      Interceptor.denyEntry key event reason rules score factors arguments
  | .riskTerminal key event reason arguments score factors =>
      Interceptor.riskTerminalEntry key event reason arguments score factors
  | .policyError key condition problem => Interceptor.policyErrorEntry key condition problem
  | .toolsList identity server served pruned =>
      Interceptor.toolsListEntry identity server served pruned
  | .drift key severity approved observed =>
      DriftDetector.driftEntry key severity approved observed
  | .driftRemoved key => DriftDetector.removedEntry key
  | .firstSightingFlagged key findings | .promotionFlagged key findings =>
      DriftDetector.flaggedEntry key findings
  | .renamed key source observed => DriftDetector.renamedEntry key source observed
  | .driftApproved key old new => DriftDetector.approvedEntry key old new
  | .approvalExpired requested approval | .approvalStale requested approval =>
      ApprovalStore.expiredEntry requested approval
  | .approvalGranted requested approval approver =>
      ApprovalStore.approvedEntry requested approval approver
  | .sessionStart identity server session => SessionManager.startEntry identity server session
  | .policyStartup new hash => PolicyActivation.startupEntry new hash
  | .policyReload old new hash => PolicyActivation.reloadEntry old new hash
  | .policyRollback identity old new hash =>
      PolicyActivation.rollbackEntry identity old new hash

/-- An approval that is granted names its requester in the payload in place of the acting
approver, which is harmless only when the two are one identity.
-/
def ActorKept : WriteSite → Prop
  | .approvalGranted requested _ approvedBy =>
      AuditLog.escapeNul requested.identityId = AuditLog.escapeNul approvedBy
  | _ => True

end WriteSite

/-- Every projected column equals its copy in the payload, up to the escape of NULs. -/
structure ColumnsCovered (row : AuditRow) : Prop where
  eventType : row.payload.get "event_type" = .ok (AuditLog.jsonbSafe (.str row.eventType))
  identityId : row.payload.get "identity_id" = .ok (AuditLog.jsonbSafe (.str row.identityId))
  serverId : row.payload.get "server_id" = .ok (AuditLog.jsonbSafe (.ofOption row.serverId))
  toolName : row.payload.get "tool_name" = .ok (AuditLog.jsonbSafe (.ofOption row.toolName))
  policyVersion : row.payload.get "policy_version" = .ok (.int row.policyVersion)

namespace AuditLog

theorem safeFields_keys {fields : List (String × Json)}
    (plain : ∀ key ∈ Dict.keys fields, escapeNul key = key)
    : Dict.keys (safeFields fields) = Dict.keys fields := by
  induction fields with
  | nil => rfl
  | cons field rest ih =>
      have head : escapeNul field.1 = field.1 := plain field.1 (by simp [Dict.keys])
      have tail := ih (fun key member => plain key (List.mem_cons_of_mem _ member))
      simp only [safeFields, Dict.keys, List.map_cons, head] at tail ⊢
      rw [tail]

/-- Escaping keys that have nothing to escape keeps every lookup, by induction on the
fields.
-/
theorem lookup_safeFields {fields : List (String × Json)}
    (plain : ∀ key ∈ Dict.keys fields, escapeNul key = key) (key : String)
    : (safeFields fields).lookup key = (fields.lookup key).map jsonbSafe := by
  induction fields with
  | nil => rfl
  | cons field rest ih =>
      have head : escapeNul field.1 = field.1 := plain field.1 (by simp [Dict.keys])
      have tail := ih (fun key member => plain key (List.mem_cons_of_mem _ member))
      obtain ⟨name, value⟩ := field
      simp only [safeFields, head, Dict.lookup_cons, tail]
      split <;> rfl

end AuditLog

namespace AuditEntry

/-- A caller whose own keys are distinct and need no escape reads back from the payload what
it passed, and the base fields elsewhere.
-/
theorem payload_get {entry : AuditEntry} {policyVersion : Int}
    (plain : ∀ key ∈ Dict.keys entry.payloadExtra, AuditLog.escapeNul key = key)
    (distinct : (Dict.keys entry.payloadExtra).Nodup) (key : String)
    : (entry.payload policyVersion).get key
      = .ok ((((entry.payloadExtra.lookup key).or
          ((entry.base policyVersion).lookup key)).map AuditLog.jsonbSafe).getD .null) := by
  have names : ∀ name ∈ Dict.keys (entry.base policyVersion), AuditLog.escapeNul name = name := by
    have literal : ∀ name ∈ ["event_type", "identity_id", "server_id", "tool_name",
        "policy_version"], AuditLog.escapeNul name = name := by
      decide
    exact literal
  have baseDistinct : (Dict.keys (entry.base policyVersion)).Nodup := by
    have literal : ["event_type", "identity_id", "server_id", "tool_name",
        "policy_version"].Nodup := by
      decide
    exact literal
  have allPlain : ∀ name ∈ Dict.keys (Dict.update (entry.base policyVersion)
      entry.payloadExtra), AuditLog.escapeNul name = name := by
    intro name member
    rcases (Dict.mem_keys_update _ _ _).mp member with old | new
    · exact names name old
    · exact plain name new
  have safeDistinct : (Dict.keys (AuditLog.safeFields (Dict.update (entry.base policyVersion)
      entry.payloadExtra))).Nodup := by
    rw [AuditLog.safeFields_keys allPlain]
    exact Dict.nodup_update baseDistinct _
  have found := Dict.lookup_update_of_nodup [] safeDistinct key
  rw [AuditLog.lookup_safeFields allPlain, Dict.lookup_update_of_nodup _ distinct] at found
  simp only [payload, AuditLog.jsonbSafe, Json.get, Json.getKey, Dict.ofPairs, found]
  simp

end AuditEntry

namespace WriteSite

/-- The keys that the gateway's components add to a payload, the requester's identity
apart.
-/
def extraKeys : List String := [
  "arguments", "matched_rules", "risk_factors", "approval_id", "challenge_id", "reason",
  "condition", "served_tools", "pruned_tools", "severity", "approved_hash", "observed_hash",
  "blocked", "removed", "findings", "renamed_from", "old_hash", "new_hash", "session_id",
  "old_version", "new_version", "content_hash", "rollback"
]

/-- What a payload needs of the keys that its writer adds. -/
def OwnKeys (keys : List String) : Prop :=
  (∀ key ∈ keys, key ∈ extraKeys) ∧ keys.Nodup

instance (keys : List String) : Decidable (OwnKeys keys) :=
  inferInstanceAs (Decidable (_ ∧ _))

/-- Every site but the granting of an approval adds keys of its own. -/
theorem entry_ownKeys (site : WriteSite)
    (other : ∀ requested approval approver, site ≠ .approvalGranted requested approval approver)
    : OwnKeys (Dict.keys site.entry.payloadExtra) := by
  have fixed {keys : List String} (own : decide (OwnKeys keys)) : OwnKeys keys :=
    of_decide_eq_true own
  cases site with
  | approvalGranted requested approval approver =>
      exact absurd rfl (other requested approval approver)
  | allow key version arguments score factors approval challenge =>
      rcases factors with _ | _ | ⟨factor, rest⟩ <;> cases approval <;> cases challenge <;>
        exact fixed rfl
  | deny key event reason rules score factors arguments =>
      by_cases absent : arguments = .null <;>
        rcases factors with _ | _ | ⟨factor, rest⟩ <;>
        simp only [entry, Interceptor.denyEntry, absent, if_true, if_false] <;>
        exact fixed rfl
  | _ => exact fixed rfl

/-- Every key that a site adds is its own escape. -/
theorem extraKeys_plain {key : String} (member : key ∈ extraKeys)
    : AuditLog.escapeNul key = key := by
  have all : ∀ key ∈ extraKeys, AuditLog.escapeNul key = key := by decide +kernel
  exact all key member

end WriteSite

/-- A base field that the caller does not override reads back escaped. -/
theorem AuditEntry.payload_get_base (policyVersion : Int) {entry : AuditEntry}
    (plain : ∀ key ∈ Dict.keys entry.payloadExtra, AuditLog.escapeNul key = key)
    (distinct : (Dict.keys entry.payloadExtra).Nodup) {key : String}
    (free : key ∉ Dict.keys entry.payloadExtra)
    : (entry.payload policyVersion).get key
      = .ok ((((entry.base policyVersion).lookup key).map AuditLog.jsonbSafe).getD .null) := by
  rw [AuditEntry.payload_get plain distinct, (Dict.lookup_eq_none_iff _ _).mpr free,
    Option.none_or]

/-- A row whose writer adds only keys of its own is covered. -/
theorem columnsCovered_of_ownKeys {keys : KeyPair} {entry : AuditEntry} {policyVersion : Int}
    {prevHash : String} {seq : Nat} {row : AuditRow}
    (own : WriteSite.OwnKeys (Dict.keys entry.payloadExtra))
    (written : entry.row keys policyVersion prevHash seq = .ok row)
    : ColumnsCovered row := by
  obtain ⟨hash, _, same⟩ := AuditEntry.row_ok_iff.mp written
  have plain : ∀ key ∈ Dict.keys entry.payloadExtra, AuditLog.escapeNul key = key :=
    fun key member => WriteSite.extraKeys_plain (own.1 key member)
  have field {key : String} (base : key ∉ WriteSite.extraKeys) :=
    AuditEntry.payload_get_base policyVersion plain own.2
      (fun member => base (own.1 key member))
  subst same
  exact {
    eventType := field (by decide)
    identityId := field (by decide)
    serverId := field (by decide)
    toolName := field (by decide)
    policyVersion := field (by decide)
  }

/-- Every row that the gateway writes covers its columns, except that the row of a granted
approval covers the acting identity only when the approver is the requester: the payload of
that row puts the requester's identity in the approver's place.
-/
theorem columnsCovered_iff {keys : KeyPair} {site : WriteSite} {policyVersion : Int}
    {prevHash : String} {seq : Nat} {row : AuditRow}
    (written : site.entry.row keys policyVersion prevHash seq = .ok row)
    : ColumnsCovered row ↔ site.ActorKept := by
  by_cases granted : ∃ requested approval approver,
      site = .approvalGranted requested approval approver
  · obtain ⟨requested, approval, approver, same⟩ := granted
    subst same
    obtain ⟨hash, _, same⟩ := AuditEntry.row_ok_iff.mp written
    let entry := ApprovalStore.approvedEntry requested approval approver
    have names : Dict.keys entry.payloadExtra = ["approval_id", "identity_id"] := rfl
    have plain : ∀ key ∈ Dict.keys entry.payloadExtra, AuditLog.escapeNul key = key := by
      rw [names]
      decide
    have distinct : (Dict.keys entry.payloadExtra).Nodup := by
      rw [names]
      decide
    have field {key : String} (free : key ∉ ["approval_id", "identity_id"]) :=
      AuditEntry.payload_get_base policyVersion plain distinct (names ▸ free)
    -- The requester's identity overrides the base field.
    have actor : (entry.payload policyVersion).get "identity_id"
        = .ok (.str (AuditLog.escapeNul requested.identityId)) :=
      AuditEntry.payload_get plain distinct "identity_id"
    subst same
    refine ⟨?_, ?_⟩
    · intro covered
      have equal := actor.symm.trans covered.identityId
      exact Json.str.inj (Except.ok.inj equal)
    · intro kept
      exact {
        eventType := field (by decide)
        identityId := actor.trans (by rw [kept]; rfl)
        serverId := field (by decide)
        toolName := field (by decide)
        policyVersion := field (by decide)
      }
  · have other : ∀ requested approval approver,
        site ≠ .approvalGranted requested approval approver :=
      fun requested approval approver same => granted ⟨requested, approval, approver, same⟩
    have kept : site.ActorKept := by
      cases site with
      | approvalGranted requested approval approver =>
          exact absurd rfl (other requested approval approver)
      | _ => trivial
    exact iff_of_true (columnsCovered_of_ownKeys (site.entry_ownKeys other) written) kept

/-- Witness: the row that opens a session covers its columns. -/
theorem sessionStart_columnsCovered
    : ∃ row,
        (WriteSite.sessionStart "alice" "github" "s1").entry.row .plain 1
          AuditLog.genesisHash 1 = .ok row
        ∧ ColumnsCovered row := by
  obtain ⟨row, written⟩ := AuditEntry.exists_row .plain 1 AuditLog.genesisHash 1
    (WriteSite.sessionStart "alice" "github" "s1").entry (by decide)
  exact ⟨row, written, (columnsCovered_iff written).mpr trivial⟩

/-- An administrator approves what another identity requested, and the row's payload names
the requester where its column names the administrator.
-/
theorem approvalGranted_not_columnsCovered
    : ∃ row,
        (WriteSite.approvalGranted ⟨"alice", "github", "delete_repo"⟩ "a1" "root").entry.row
          .plain 1 AuditLog.genesisHash 1 = .ok row
        ∧ row.identityId = "root"
        ∧ row.payload.get "identity_id" = .ok (.str "alice")
        ∧ ¬ ColumnsCovered row := by
  obtain ⟨row, written⟩ := AuditEntry.exists_row .plain 1 AuditLog.genesisHash 1
    (WriteSite.approvalGranted ⟨"alice", "github", "delete_repo"⟩ "a1" "root").entry (by decide)
  obtain ⟨hash, _, same⟩ := AuditEntry.row_ok_iff.mp written
  have payload : row.payload = (WriteSite.approvalGranted ⟨"alice", "github", "delete_repo"⟩
      "a1" "root").entry.payload 1 := by
    rw [same]
    rfl
  have actor : row.identityId = "root" := by
    rw [same]
    rfl
  have named : row.payload.get "identity_id" = .ok (.str "alice") := by
    rw [payload]
    decide
  refine ⟨row, written, actor, named, ?_⟩
  intro covered
  have equal := named.symm.trans covered.identityId
  rw [actor] at equal
  exact absurd equal (by decide)

end SecureMcp
