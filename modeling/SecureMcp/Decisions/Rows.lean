import SecureMcp.Audit.Verification
import SecureMcp.Decisions.Explainer

/-! The rows that the gateway writes, as they are explained. A stored row has the escaped texts of
what was written; whatever wrote it, it is explained or it is not a decision.
-/

namespace SecureMcp

namespace AuditLog

theorem escapeNul_of_free {text : String} (free : NulFree text) : escapeNul text = text := by
  have each (chars : List Char) (free : '\x00' ∉ chars) : chars.flatMap escapeChar = chars := by
    induction chars with
    | nil => rfl
    | cons char rest ih =>
        obtain ⟨differs, later⟩ := not_or.mp (List.mem_cons.not.mp free)
        rw [List.flatMap_cons, ih later, escapeChar, if_neg (Ne.symm differs)]
        rfl
  rw [escapeNul, each text.toList free, String.ofList_toList]

theorem jsonbSafe_strings (texts : List String)
    : jsonbSafe (.strings texts) = .strings (texts.map escapeNul) := by
  have each : safeItems (texts.map Json.str) = (texts.map escapeNul).map Json.str := by
    induction texts with
    | nil => rfl
    | cons text rest ih => simp only [List.map_cons, safeItems, jsonbSafe, ih]
  rw [Json.strings, jsonbSafe, each]
  rfl

theorem jsonbSafe_ofOption (text : Option String)
    : jsonbSafe (.ofOption text) = .ofOption (text.map escapeNul) := by
  cases text <;> rfl

end AuditLog

namespace RiskFactor

/-- A factor with its texts escaped. -/
def escaped (factor : RiskFactor) : RiskFactor where
  factor := AuditLog.escapeNul factor.factor
  contribution := factor.contribution
  reason := factor.reason.map AuditLog.escapeNul

/-- A factor whose texts have no null character. -/
structure Plain (factor : RiskFactor) : Prop where
  named : NulFree factor.factor
  worded : ∀ reason ∈ factor.reason, NulFree reason

theorem escaped_of_plain {factor : RiskFactor} (plain : factor.Plain)
    : factor.escaped = factor := by
  obtain ⟨name, contribution, reason⟩ := factor
  have named := AuditLog.escapeNul_of_free plain.named
  cases reason with
  | none => simp only [escaped, named, Option.map_none]
  | some reason =>
      have worded := AuditLog.escapeNul_of_free (plain.worded reason rfl)
      simp only [escaped, named, worded, Option.map_some]

theorem jsonbSafe_toJson (factor : RiskFactor)
    : AuditLog.jsonbSafe factor.toJson = factor.escaped.toJson := by
  have name : AuditLog.escapeNul "factor" = "factor" :=
    AuditLog.escapeNul_of_free (by simp [NulFree])
  have contribution : AuditLog.escapeNul "contribution" = "contribution" :=
    AuditLog.escapeNul_of_free (by simp [NulFree])
  have reason : AuditLog.escapeNul "reason" = "reason" :=
    AuditLog.escapeNul_of_free (by simp [NulFree])
  simp [toJson, escaped, AuditLog.jsonbSafe, AuditLog.safeFields, name, contribution, reason,
    Dict.ofPairs, Dict.update, Dict.set, AuditLog.jsonbSafe_ofOption]

theorem jsonbSafe_records (factors : List RiskFactor)
    : AuditLog.jsonbSafe (.arr (factors.map toJson))
      = .arr ((factors.map escaped).map toJson) := by
  have each : AuditLog.safeItems (factors.map toJson) = (factors.map escaped).map toJson := by
    induction factors with
    | nil => rfl
    | cons factor rest ih =>
        simp only [List.map_cons, AuditLog.safeItems, jsonbSafe_toJson, ih]
  rw [AuditLog.jsonbSafe, each]

/-- A stored factor is validated to the factor that was stored. -/
theorem validate_of_readBack (model : FactorModel) {factor : RiskFactor} {stored : Json}
    (readBack : Jsonb.ReadBack factor.toJson stored)
    : model.validate stored = .ok factor := by
  obtain ⟨fields, rfl, each⟩ := Jsonb.ReadBack.fields readBack (by simp [Dict.keys])
  refine model.validate_fields fields factor (each "factor").str (each "contribution").int ?_
  have reason : Jsonb.ReadBack (.ofOption factor.reason) (Json.getKey fields "reason") :=
    each "reason"
  cases worded : factor.reason with
  | none =>
      rw [worded] at reason
      exact reason.null
  | some text =>
      rw [worded] at reason
      exact reason.str

theorem validate_records (model : FactorModel) {factors : List RiskFactor} {records : List Json}
    (each : List.Forall₂ Jsonb.ReadBack (factors.map toJson) records)
    : records.mapM model.validate = .ok factors := by
  induction factors generalizing records with
  | nil =>
      cases each
      rfl
  | cons factor rest ih =>
      cases each with
      | cons head tail =>
          rw [List.mapM_cons, validate_of_readBack model head, ih tail]
          rfl

end RiskFactor

namespace DecisionExplainer

/-- (Describes entry rules reason factors) means that a payload is written with these rules and
this reason, if any, and with these factors.
-/
structure Describes (entry : AuditEntry) (rules : Option (List String)) (reason : Option String)
    (factors : List RiskFactor)
    : Prop where
  plain : ∀ key ∈ Dict.keys entry.payloadExtra, AuditLog.escapeNul key = key
  distinct : (Dict.keys entry.payloadExtra).Nodup
  rules : Json.getKey entry.payloadExtra "matched_rules" = rules.elim .null .strings
  reason : Json.getKey entry.payloadExtra "reason" = .ofOption reason
  factors : Json.getKey entry.payloadExtra "risk_factors" = .null ∧ factors = []
    ∨ Json.getKey entry.payloadExtra "risk_factors" = .arr (factors.map RiskFactor.toJson)

section

variable {entry : AuditEntry} {rules : Option (List String)} {reason : Option String}
  {factors : List RiskFactor} {keys : KeyPair} {policyVersion : Int} {prevHash : String}
  {seq : Nat} {row stored : AuditRow}

/-- A field of the caller's own is stored escaped. -/
theorem readBack_field (describes : Describes entry rules reason factors)
    (written : entry.row keys policyVersion prevHash seq = .ok row) (back : row.ReadBack stored)
    (key : String) (own : (entry.base policyVersion).lookup key = none)
    : ∃ value,
        stored.payload.orEmpty.get key = .ok value
        ∧ Jsonb.ReadBack (AuditLog.jsonbSafe (Json.getKey entry.payloadExtra key)) value := by
  obtain ⟨hash, _, rfl⟩ := AuditEntry.row_ok_iff.mp written
  obtain ⟨payload, readBack, rfl⟩ := back
  have found := @AuditEntry.payload_get entry policyVersion describes.plain describes.distinct key
  have unique := AuditLog.jsonbSafe_distinct
    (.obj (Dict.update (entry.base policyVersion) entry.payloadExtra))
  obtain ⟨fields, rfl, each⟩ := Jsonb.ReadBack.fields readBack unique.1
  refine ⟨Json.getKey fields key, ?_, ?_⟩
  · cases fields <;> rfl
  · have same : Json.getKey (Dict.ofPairs (AuditLog.safeFields
        (Dict.update (entry.base policyVersion) entry.payloadExtra))) key
        = AuditLog.jsonbSafe (Json.getKey entry.payloadExtra key) := by
      have value := Except.ok.inj found
      rw [own, Option.or_none] at value
      refine value.trans ?_
      rw [Json.getKey]
      cases entry.payloadExtra.lookup key <;> rfl
    rw [← same]
    exact each key

/-- A stored row recalls the escaped texts of what was written. -/
theorem recalls_of_describes (model : FactorModel) (describes : Describes entry rules reason factors)
    (written : entry.row keys policyVersion prevHash seq = .ok row) (back : row.ReadBack stored)
    : Recalls model stored.payload.orEmpty (rules.map (List.map AuditLog.escapeNul))
        (reason.map AuditLog.escapeNul) (factors.map RiskFactor.escaped) := by
  refine ⟨?_, ?_, ?_⟩
  · obtain ⟨value, found, readBack⟩ := readBack_field describes written back "matched_rules" rfl
    rw [found]
    rw [describes.rules] at readBack
    cases rules with
    | none => rw [readBack.null]; rfl
    | some rules =>
        rw [Option.elim_some, AuditLog.jsonbSafe_strings] at readBack
        rw [readBack.strings]
        rfl
  · obtain ⟨value, found, readBack⟩ := readBack_field describes written back "reason" rfl
    rw [found]
    rw [describes.reason, AuditLog.jsonbSafe_ofOption] at readBack
    cases reason with
    | none => rw [readBack.null]; rfl
    | some reason => rw [readBack.str]; rfl
  · obtain ⟨value, found, readBack⟩ := readBack_field describes written back "risk_factors" rfl
    refine ⟨value, found, ?_⟩
    rcases describes.factors with ⟨absent, none⟩ | present
    · rw [absent] at readBack
      rw [none]
      exact Or.inl ⟨readBack.null, rfl⟩
    · rw [present, RiskFactor.jsonbSafe_records] at readBack
      obtain ⟨records, same, each⟩ := readBack.items
      exact Or.inr ⟨records, same, RiskFactor.validate_records model each⟩

end

-----------------------------------------------------------------------------------------
-- Every row is explained or not a decision
-----------------------------------------------------------------------------------------

/-- The rules that a site writes. -/
def rulesAt : WriteSite → Option (List String)
  | .allow _ version _ _ _ _ _ => some ["policy-v" ++ toString version ++ ":rbac"]
  | .deny _ _ _ rules _ _ _ => some rules
  | .riskTerminal _ _ _ _ _ _ => some ["risk_engine"]
  | _ => none

def reasonAt : WriteSite → Option String
  | .deny _ _ reason _ _ _ _ | .riskTerminal _ _ reason _ _ _ => some reason
  | .policyError _ _ problem => some problem
  | _ => none

def factorsAt : WriteSite → List RiskFactor
  | .allow _ _ _ _ factors _ _ | .deny _ _ _ _ _ factors _ => factors.getD []
  | .riskTerminal _ _ _ _ _ factors => factors
  | _ => []

theorem describes_site (site : WriteSite)
    : Describes site.entry (rulesAt site) (reasonAt site) (factorsAt site) := by
  by_cases granted : ∃ requested approval approver,
      site = .approvalGranted requested approval approver
  · obtain ⟨requested, approval, approver, rfl⟩ := granted
    have plain : ∀ key ∈ ["approval_id", "identity_id"], AuditLog.escapeNul key = key := by
      intro key member
      apply AuditLog.escapeNul_of_free
      rcases List.mem_pair.mp member with rfl | rfl <;> simp [NulFree]
    exact ⟨plain, by simp [Dict.keys, WriteSite.entry, ApprovalStore.approvedEntry], rfl, rfl,
      Or.inl ⟨rfl, rfl⟩⟩
  · have keys := site.entry_ownKeys
      (fun requested approval approver same => granted ⟨requested, approval, approver, same⟩)
    refine ⟨fun key member => WriteSite.extraKeys_plain (keys.1 key member), keys.2, ?_, ?_, ?_⟩
    · cases site with
      | deny key event reason rules score factors arguments => rfl
      | _ => rfl
    · cases site with
      | allow key version arguments score factors approval challenge =>
          rcases factors with _ | _ | ⟨factor, rest⟩ <;> cases approval <;> cases challenge <;> rfl
      | _ => rfl
    · cases site with
      | allow key version arguments score factors approval challenge =>
          rcases factors with _ | _ | ⟨factor, rest⟩ <;> cases approval <;> cases challenge
          all_goals first | exact Or.inl ⟨rfl, rfl⟩ | exact Or.inr rfl
      | deny key event reason rules score factors arguments =>
          by_cases absent : arguments = .null <;>
            rcases factors with _ | _ | ⟨factor, rest⟩ <;>
            simp only [WriteSite.entry, Interceptor.denyEntry, absent, if_true, if_false]
          all_goals first | exact Or.inl ⟨rfl, rfl⟩ | exact Or.inr rfl
      | riskTerminal key event reason arguments score factors => exact Or.inr rfl
      | _ => exact Or.inl ⟨rfl, rfl⟩

/-- A site that writes no rules writes a row of no decision, or one with a fallback. -/
theorem legacyRules_site {site : WriteSite} {outcome : DecisionOutcome} (unruled : rulesAt site = none)
    (decides : outcomes site.entry.eventType = some outcome) (row : AuditRow)
    : ∃ rules, legacyRules row site.entry.eventType = .ok rules := by
  cases site with
  | allow | deny | riskTerminal => cases unruled
  | driftApproved | approvalExpired | approvalStale | approvalGranted => exact ⟨_, rfl⟩
  | drift key severity approved observed => cases severity <;> cases decides
  | _ => cases decides

/-- Every row that the gateway writes is explained, unless it is no decision. -/
theorem explained_or_lookupError (model : FactorModel) {site : WriteSite} {keys : KeyPair}
    {policyVersion : Int} {prevHash : String} {seq : Nat} {row stored : AuditRow}
    (written : site.entry.row keys policyVersion prevHash seq = .ok row) (back : row.ReadBack stored)
    : (∃ explanation, fromAuditRow model stored = .ok explanation)
      ∨ ∃ message, fromAuditRow model stored = .error (.lookupError message) := by
  have kind : stored.eventType = site.entry.eventType.value := by
    obtain ⟨hash, _, rfl⟩ := AuditEntry.row_ok_iff.mp written
    obtain ⟨payload, _, rfl⟩ := back
    rfl
  cases decides : outcomes site.entry.eventType with
  | none => exact Or.inr ⟨_, fromAuditRow_of_none kind decides⟩
  | some outcome =>
      have recalls := recalls_of_describes model (describes_site site) written back
      have recalled : ∃ rules, recalledRules stored site.entry.eventType
          ((rulesAt site).map (List.map AuditLog.escapeNul)) = .ok rules := by
        cases ruled : rulesAt site with
        | none => exact legacyRules_site ruled decides stored
        | some rules => exact ⟨_, rfl⟩
      obtain ⟨rules, found⟩ := recalled
      rw [fromAuditRow_of_recalls kind decides recalls, found]
      exact Or.inl ⟨_, rfl⟩

end DecisionExplainer

end SecureMcp
