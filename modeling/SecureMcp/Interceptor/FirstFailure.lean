import SecureMcp.Interceptor.Precedence

/-! The pipeline as one run: the first stage that fails has the last word, and no store of a later one
is asked for anything.
-/

namespace SecureMcp

open Interaction

namespace ParamValidator

theorem mem_of_mem_distinct {item : Json} {items : List Json} (member : item ∈ distinct items)
    : item ∈ items := by
  induction items with
  | nil => cases member
  | cons first rest ih =>
      rcases List.mem_cons.mp member with rfl | later
      · exact List.mem_cons_self
      · exact List.mem_cons_of_mem _ (ih (List.mem_filter.mp later).1)

/-- A set of strings can be sorted. -/
theorem isOk_sortedSet {items : List Json} (texts : ∀ item ∈ items, ∃ text, item = .str text)
    : (sortedSet items).isOk := by
  have spelled : ∃ texts, strings? items = some texts := by
    induction items with
    | nil => exact ⟨[], rfl⟩
    | cons item rest ih =>
        obtain ⟨text, rfl⟩ := texts item List.mem_cons_self
        obtain ⟨others, same⟩ := ih (fun other member => texts other (List.mem_cons_of_mem _ member))
        refine ⟨text :: others, ?_⟩
        unfold strings? at same ⊢
        rw [List.mapM_cons, same]
        rfl
  obtain ⟨texts, same⟩ := spelled
  unfold sortedSet
  split
  · rfl
  · rfl
  · rw [same]
    rfl

/-- The fields of an object that a schema does not name are strings. -/
theorem isOk_validate_iff {runtime : Runtime}
    (library : ∀ arguments schema exn, runtime.validateSchema arguments schema ≠ .raises exn)
    (fields : List (String × Json)) (schema : Json)
    : (validate runtime (.obj fields) schema).isOk ↔ ∃ properties, schema = .obj properties := by
  have values : (validateValues runtime (.obj fields) schema).isOk := by
    unfold validateValues
    cases validated : runtime.validateSchema (.obj fields) schema with
    | raises exn => exact absurd validated (library _ _ _)
    | conforms | validationError | schemaError => rfl
  cases schema with
  | obj declared =>
      refine iff_of_true ?_ ⟨declared, rfl⟩
      have read : (Json.obj declared).get "properties" = .ok (Json.getKey declared "properties") :=
        rfl
      unfold validate
      rw [read]
      dsimp only [bind, Except.bind]
      split
      · next properties _ =>
          have sorted : (sortedSet (distinct (((Dict.keys fields).map Json.str).filter
              (fun field => field ∉ (Dict.keys properties).map Json.str)))).isOk := by
            refine isOk_sortedSet (fun item member => ?_)
            obtain ⟨key, _, rfl⟩ := List.mem_map.mp
              (List.mem_filter.mp (mem_of_mem_distinct member)).1
            exact ⟨key, rfl⟩
          have unknown : unknownFields (.obj fields) properties
              = .ok (distinct (((Dict.keys fields).map Json.str).filter
                  (fun field => field ∉ (Dict.keys properties).map Json.str))) :=
            rfl
          rw [unknown]
          generalize distinct _ = others at sorted
          cases others with
          | nil => exact values
          | cons first more =>
              dsimp only
              generalize sortedSet (first :: more) = result at sorted
              cases result with
              | ok names => rfl
              | error exn => cases sorted
      · exact values
  | null | bool | int | float | str | arr => exact iff_of_false nofun nofun

end ParamValidator
namespace Interceptor

open Coroutine

/-- (Touches gates asked) means that a request is of no other store than those of some stages. -/
def Touches (gates : List Gate) (asked : Call) : Prop :=
  ∀ gate, storeOf asked = some gate → gate ∈ gates

section

variable {call : ToolCall} {gates : List Gate}

theorem touches_of_none {asked : Call} (unowned : storeOf asked = none) : Touches gates asked := by
  intro gate owned
  rw [unowned] at owned
  cases owned

theorem touches_own {asked : Call} {gate : Gate} (owned : storeOf asked = some gate)
    : Touches [gate] asked := by
  intro other same
  exact List.mem_singleton.mpr (Option.some.inj (same.symm.trans owned))

/-- A row is of no single stage unless it is an ALLOW row or one of a drift check. -/
theorem storeOf_write {entry : AuditEntry} (eventType : EventType)
    (named : entry.eventType = eventType)
    (kind : eventType ≠ .allow ∧ eventType ∉ EventType.ofDrift)
    : storeOf (.write entry) = none := by
  subst named
  simp [storeOf, kind]

theorem asks_deny {α : Type} {eventType : EventType} {reason : String} {matchedRules : List String}
    {riskScore : Option Int} {riskFactors : Option (List RiskFactor)}
    (unowned : storeOf (.write (denyEntry call.key eventType reason matchedRules riskScore
      riskFactors call.arguments)) = none)
    : (finish (deny call eventType reason matchedRules riskScore riskFactors) : Stage α).run.Asks
        (Touches gates) := by
  refine asks_finish (asks_bind (asks_ask (touches_of_none rfl)) (fun _ => ?_))
  refine asks_bind (asks_attempt (asks_demand _ (touches_of_none rfl))) (fun _ => ?_)
  refine asks_bind (asks_ask (touches_of_none rfl)) (fun engine => ?_)
  exact asks_bind (asks_attempt (asks_demand _ (touches_of_none unowned))) (fun _ => asks_pure _)

theorem asks_replayStage (runtime : Runtime) (signedMode : Bool) (metadata : Json)
    : (replayStage runtime call signedMode metadata).run.Asks (Touches [.replay]) := by
  refine asks_bind (asks_mapStop ?_) (fun volunteered => ?_)
  · split
    · exact asks_pure _
    · refine asks_bind (asks_ofExcept _) (fun found => ?_)
      split
      · exact asks_pure _
      · exact asks_ofExcept _
  · split
    · refine asks_bind (asks_attempt ?_) (fun checked => ?_)
      · refine asks_bind (asks_ofExcept _) (fun nonce => asks_bind (asks_ofExcept _) (fun _ => ?_))
        unfold ReplayGuard.check
        split
        · split
          · exact asks_pure _
          · split
            · exact asks_pure _
            · refine asks_bind (asks_ask (touches_of_none rfl)) (fun now => ?_)
              refine asks_bind (asks_ofExcept _) (fun outside => ?_)
              split
              · exact asks_pure _
              · refine asks_bind (asks_demand _ (touches_own rfl)) (fun fresh => ?_)
                split <;> exact asks_pure _
        · exact asks_pure _
      · dsimp only
        split
        · exact asks_pure _
        · exact asks_deny (storeOf_write .denyReplay rfl (by decide))
    · exact asks_pure _

theorem asks_rbacStage : (rbacStage call).run.Asks (Touches [.rbac]) := by
  refine asks_bind (asks_ask (touches_of_none rfl)) (fun engine => ?_)
  split
  · exact asks_pure _
  · exact asks_bind (asks_ask (touches_of_none rfl))
      (fun _ => asks_deny (storeOf_write .denyRbac rfl (by decide)))

theorem asks_conditionAttributes (session : Session) (toolName : String) (metadata : Json)
    (conditions : List Abac.Condition)
    : (conditionAttributes session toolName metadata conditions).run.Asks (Touches gates) := by
  unfold conditionAttributes
  split
  · exact asks_pure _
  · refine asks_mapStop (asks_bind (asks_ask (touches_of_none rfl)) (fun engine => ?_))
    refine asks_bind (asks_ofExcept _) (fun timestamp => asks_bind ?_ (fun hour => asks_pure _))
    unfold contextHour
    split
    · exact asks_ofExcept _
    · exact asks_ask (touches_of_none rfl)

/-- Conditions ask for the policy and for rows of no single stage, by induction on them. -/
theorem asks_enforceConditions (attrs : Abac.Attributes) (riskScore : Option Int)
    (riskFactors : Option (List RiskFactor)) (conditions : List Abac.Condition)
    : (enforceConditions call attrs riskScore riskFactors conditions).run.Asks (Touches gates) := by
  induction conditions with
  | nil => exact asks_pure _
  | cons condition rest ih =>
      refine asks_bind ?_ (fun _ => ?_)
      · cases (conditionVerdict condition attrs).2 with
        | none => exact asks_pure _
        | some problem =>
            have unowned : storeOf (.write (policyErrorEntry call.key condition.source problem))
                = none :=
              storeOf_write .policyError rfl (by decide)
            exact asks_bind (asks_attempt (asks_demand _ (touches_of_none unowned)))
              (fun _ => asks_pure _)
      · split
        · exact ih
        · exact asks_bind (asks_ask (touches_of_none rfl))
            (fun _ => asks_deny (storeOf_write .denyAbac rfl (by decide)))

theorem asks_driftStage : (driftStage call).run.Asks (Touches [.drift]) := by
  refine asks_bind (asks_attempt (asks_demand _ (touches_own rfl))) (fun blocked => ?_)
  split
  · exact asks_pure _
  · exact asks_deny (storeOf_write .denyDrift rfl (by decide))

theorem asks_challengeStage (totpSecret : String) (metadata challengeId : Json)
    : (challengeStage call totpSecret metadata challengeId).run.Asks (Touches [.stepUp]) := by
  unfold challengeStage
  split
  · exact asks_pure _
  · refine asks_bind (asks_attempt ?_) (fun redeemed => ?_)
    · refine asks_bind (asks_ofExcept _) (fun hash => asks_bind (asks_ofExcept _) (fun proof => ?_))
      exact asks_demand _ (touches_own rfl)
    · dsimp only
      split
      · exact asks_pure _
      · exact asks_deny (storeOf_write .denyStepUp rfl (by decide))

theorem asks_approvalStage (approvalId : Json)
    : (approvalStage call approvalId).run.Asks (Touches [.approval]) := by
  refine asks_bind (asks_attempt ?_) (fun redeemed => ?_)
  · exact asks_bind (asks_ofExcept _) (fun hash => asks_demand _ (touches_own rfl))
  · dsimp only
    split
    · exact asks_pure _
    · next eventType reason _ =>
        have worded : Attempt.OfLifecycle (denyEntry call.key eventType reason
            ["approval_lifecycle"] none none call.arguments) :=
          rfl
        exact asks_deny (by simp only [storeOf, if_pos worded])

theorem asks_riskTerminal {α : Type} (outcome : DecisionOutcome) (riskScore : Int)
    (riskFactors : List RiskFactor)
    : (finish (riskTerminal call outcome riskScore riskFactors) : Stage α).run.Asks
        (Touches [.band]) := by
  unfold riskTerminal
  dsimp only
  by_cases denies : outcome = .deny
  · rw [if_pos denies]
    exact asks_deny (storeOf_write .denyRisk rfl (by decide))
  · rw [if_neg denies]
    refine asks_finish (asks_bind (asks_ask (touches_of_none rfl)) (fun _ => ?_))
    refine asks_bind (asks_ask (touches_of_none rfl)) (fun engine => ?_)
    refine asks_bind (asks_ask (touches_of_none rfl)) (fun versioned => ?_)
    refine asks_bind (asks_attempt ?_) (fun held => by cases held <;> exact asks_pure _)
    refine asks_bind (asks_demand _ (touches_of_none ?_)) (fun seq => ?_)
    · split
      · exact storeOf_write .humanApprovalRequired rfl (by decide)
      · exact storeOf_write .challenge rfl (by decide)
    · split
      · exact asks_bind (asks_ofExcept _)
          (fun hash => asks_bind (asks_demand _ (touches_own rfl)) (fun _ => asks_pure _))
      · split
        · exact asks_bind (asks_ofExcept _)
            (fun hash => asks_bind (asks_demand _ (touches_own rfl)) (fun _ => asks_pure _))
        · exact asks_pure _

/-- A schema lookup asks the cache, the upstream and the detector. -/
theorem fetches_touches {serverId : String} : Fetches (Touches [.validation]) serverId where
  cacheGet := touches_own rfl
  cacheSet _ := touches_own rfl
  listTools := touches_own rfl
  detector asked drift := by
    cases asked with
    | write entry =>
        have other : entry.eventType ≠ .allow := by
          intro same
          exact absurd (same ▸ drift : EventType.allow ∈ EventType.ofDrift) (by decide)
        intro gate owned
        by_cases lifecycle : Attempt.OfLifecycle entry
        · simp [storeOf, lifecycle] at owned
        · have member : entry.eventType ∈ EventType.ofDrift := drift
          simp only [storeOf, if_neg lifecycle, if_neg other, if_pos member] at owned
          exact List.mem_singleton.mpr (Option.some.inj owned).symm
    | selectBaselines | commit => exact touches_own rfl
    | _ => exact drift.elim

theorem asks_validationStage (runtime : Runtime) (session : Session)
    : (validationStage runtime session call).run.Asks (Touches [.validation]) := by
  refine asks_bind (asks_mapStop (asks_inputSchemaFor _ _ _ fetches_touches)) (fun schema => ?_)
  split
  · exact asks_deny (storeOf_write .denyValidation rfl (by decide))
  · refine asks_bind (asks_mapStop (asks_ofExcept _)) (fun error => ?_)
    cases error with
    | none => exact asks_pure _
    | some error => exact asks_deny (storeOf_write .denyValidation rfl (by decide))

theorem asks_allowStage (risk : Option (Int × List RiskFactor))
    (approvalId challengeId : Option String)
    : (allowStage call risk approvalId challengeId).run.Asks (Touches [.record]) := by
  refine asks_bind (asks_ask (touches_of_none rfl)) (fun engine => ?_)
  refine asks_bind (asks_attempt (asks_demand _ ?_)) (fun recorded => ?_)
  · have other : ¬ Attempt.OfLifecycle (allowEntry call.key engine.version call.arguments
        (risk.map Prod.fst) (risk.map Prod.snd) approvalId challengeId) :=
      Attempt.not_ofLifecycle rfl (by rw [String.append_assoc]; exact Attempt.policyRule_ne _)
    exact touches_own (by simp only [storeOf, if_neg other]; rfl)
  · cases recorded with
    | ok seq => exact asks_pure _
    | error exn =>
        exact asks_finish (asks_bind (asks_ask (touches_of_none rfl)) (fun _ => asks_pure _))

end

namespace Situation

variable (situation : Situation)

/-- The terminal of the first stage that fails. -/
def firstFailure : Option Terminal :=
  Gate.all.findSome? situation.fails

/-- What a stage needs so that it can decide a call at all: an hour for the conditions of the grant,
and a schema that arguments can be checked against.
-/
def needs : Gate → Prop
  | .conditions => situation.conditions ≠ [] → situation.hour.isOk
  | .validation => situation.schema = .null ∨ ∃ fields, situation.schema = .obj fields
  | _ => True

/-- (situation.Reaches gates gate) means that no stage fails that comes before one of them. -/
def Reaches (gates : List Gate) (gate : Gate) : Prop :=
  ∃ before after,
    gates = before ++ gate :: after ∧ ∀ earlier ∈ before, situation.fails earlier = none

/-- (situation.Meets gates returns body) means that a part of the pipeline ends with the first failure
of its stages, if each one that it reaches can decide, and asks no store before it reaches the stage.
-/
structure Meets {α : Type} (gates : List Gate) (returns : α → Prop) (body : Stage α) : Prop where
  ends : Ends (∀ gate, situation.Reaches gates gate → situation.needs gate)
    (gates.findSome? situation.fails) returns (answered situation.reply body)
  asks : ∀ event ∈ asked situation.reply body, ∀ gate,
    storeOf event.call = some gate → situation.Reaches gates gate

section

variable {situation : Situation} {α β : Type}

theorem reaches_singleton_iff {gate other : Gate}
    : situation.Reaches [gate] other ↔ other = gate := by
  constructor
  · rintro ⟨before, after, same, _⟩
    cases before with
    | nil =>
        cases same
        rfl
    | cons first rest => simp at same
  · rintro rfl
    exact ⟨[], [], rfl, nofun⟩

theorem reaches_append_iff {gates more : List Gate} {gate : Gate}
    : situation.Reaches (gates ++ more) gate
      ↔ situation.Reaches gates gate
        ∨ gates.findSome? situation.fails = none ∧ situation.Reaches more gate := by
  constructor
  · rintro ⟨before, after, same, passed⟩
    rcases List.append_eq_append_iff.mp same with ⟨mid, rfl, rfl⟩ | ⟨mid, rfl, rest⟩
    · refine .inr ⟨?_, mid, after, rfl, ?_⟩
      · exact List.findSome?_eq_none_iff.mpr
          (fun earlier member => passed earlier (List.mem_append_left _ member))
      · exact fun earlier member => passed earlier (List.mem_append_right _ member)
    · cases mid with
      | nil =>
          refine .inr ⟨?_, [], after, rest.symm, nofun⟩
          rw [List.append_nil]
          exact List.findSome?_eq_none_iff.mpr passed
      | cons first rest =>
          cases rest
          exact .inl ⟨before, rest, rfl, passed⟩
  · rintro (⟨before, after, rfl, passed⟩ | ⟨none, before, after, rfl, passed⟩)
    · exact ⟨before, after ++ more, by simp, passed⟩
    · refine ⟨gates ++ before, after, by simp, fun earlier member => ?_⟩
      rcases List.mem_append.mp member with first | second
      · exact List.findSome?_eq_none_iff.mp none earlier first
      · exact passed earlier second

/-- A stage of its own. -/
theorem Meets.single {gate : Gate} {returns : α → Prop} {body : Stage α}
    (asks : body.run.Asks (Touches [gate]))
    (ends : Ends (situation.needs gate) (situation.fails gate) returns
      (answered situation.reply body))
    : situation.Meets [gate] returns body := by
  refine ⟨?_, fun event member other owned => ?_⟩
  · rw [List.findSome?_singleton]
    exact ends.of_iff (by simp [reaches_singleton_iff])
  · exact reaches_singleton_iff.mpr
      (List.mem_singleton.mp (asked_of_asks situation.reply asks member other owned))

/-- What is between stages. -/
theorem Meets.between {returns : α → Prop} {body : Stage α} (asks : body.run.Asks (Touches []))
    (ends : Ends True none returns (answered situation.reply body))
    : situation.Meets [] returns body := by
  refine ⟨ends.of_iff (by simp [Reaches]), fun event member other owned => ?_⟩
  cases asked_of_asks situation.reply asks member other owned

/-- Stages that do not fail and ask for nothing. -/
theorem Meets.skip {gates more : List Gate} {returns : α → Prop} {body : Stage α}
    (passed : gates.findSome? situation.fails = none)
    (decides : ∀ gate, situation.Reaches gates gate → situation.needs gate)
    (meets : situation.Meets more returns body)
    : situation.Meets (gates ++ more) returns body := by
  refine ⟨?_, fun event member gate owned =>
    reaches_append_iff.mpr (.inr ⟨passed, meets.asks event member gate owned⟩)⟩
  rw [List.findSome?_append, passed]
  refine meets.ends.of_iff ⟨fun able gate reached => ?_, fun able gate reached => ?_⟩
  · rcases reaches_append_iff.mp reached with here | ⟨_, later⟩
    · exact decides gate here
    · exact able gate later
  · exact able gate (reaches_append_iff.mpr (.inr ⟨passed, reached⟩))

/-- Parts compose: what follows a part is reached where none of its stages fails. -/
theorem Meets.bind {gates more : List Gate} {middle : α → Prop} {returns : β → Prop}
    {body : Stage α} {rest : α → Stage β} (first : situation.Meets gates middle body)
    (second : ∀ value, middle value → situation.Meets more returns (rest value))
    : situation.Meets (gates ++ more) returns (body >>= rest) := by
  refine ⟨?_, fun event member gate owned => reaches_append_iff.mpr ?_⟩
  · rw [List.findSome?_append]
    refine (first.ends.bind (fun value returned => (second value returned).ends)).of_iff ?_
    simp only [reaches_append_iff, or_imp, and_imp, forall_and]
    exact and_congr_right (fun _ => ⟨fun able gate passed => able passed gate,
      fun able passed gate => able gate passed⟩)
  · rcases mem_asked_bind situation.reply member with before | ⟨value, returned, after⟩
    · exact .inl (first.asks event before gate owned)
    · have ends := first.ends
      rw [returned] at ends
      exact .inr ⟨ends.2.1, (second value ends.2.2).asks event after gate owned⟩

/-- A part may check a value that it hands on. -/
theorem Meets.bind_checked {gates more : List Gate} {middle : α → Prop} {returns : β → Prop}
    {body : Stage α} {check : α → Stage Unit} {rest : α → Stage β}
    (first : situation.Meets gates middle (do
      let value ← body
      check value
      return value))
    (second : ∀ value, middle value → situation.Meets more returns (rest value))
    : situation.Meets (gates ++ more) returns (do
        let value ← body
        check value
        rest value) := by
  simpa only [bind_assoc, pure_bind] using first.bind second

/-- What a first stage asks before it can fail. -/
theorem Meets.prelude {gate : Gate} {more : List Gate} {returns : β → Prop} {body : Stage α}
    {value : α} {rest : α → Stage β} (asks : body.run.Asks (Touches [gate]))
    (returned : answered situation.reply body = .ok value)
    (meets : situation.Meets (gate :: more) returns (rest value))
    : situation.Meets (gate :: more) returns (body >>= rest) := by
  refine ⟨?_, fun event member other owned => ?_⟩
  · rw [answered_bind_of_ok _ _ returned]
    exact meets.ends
  · rcases mem_asked_bind situation.reply member with before | ⟨_, same, after⟩
    · cases List.mem_singleton.mp (asked_of_asks situation.reply asks before other owned)
      exact ⟨[], more, rfl, nofun⟩
    · cases returned.symm.trans same
      exact meets.asks event after other owned

-----------------------------------------------------------------------------------------
-- The stages in their order
-----------------------------------------------------------------------------------------

theorem meets_rbacStage
    : situation.Meets [.rbac] (fun grant => situation.grant = some grant)
        (rbacStage situation.call) :=
  .single asks_rbacStage ends_rbacStage

/-- A call comes to its conditions with the attributes that they are evaluated over. -/
theorem meets_conditions
    : situation.Meets [.conditions]
        (fun attrs => situation.conditions ≠ [] → attrs = situation.attributes)
        (do
          let attrs ← conditionAttributes situation.session situation.call.key.toolName
            (.obj situation.fields) situation.conditions
          enforceConditions situation.call attrs none none
            (situation.conditions.filter (fun condition => !condition.referencesRisk))
          return attrs) := by
  refine .single (asks_bind (asks_conditionAttributes _ _ _ _) (fun attrs =>
    asks_bind (asks_enforceConditions _ _ _ _) (fun _ => asks_pure _))) ?_
  have enforced (attrs : Abac.Attributes)
      (same : situation.conditions ≠ [] → attrs = situation.attributes)
      : Ends True (situation.fails .conditions)
          (fun attrs => situation.conditions ≠ [] → attrs = situation.attributes)
          (answered situation.reply (do
            enforceConditions situation.call attrs none none
              (situation.conditions.filter (fun condition => !condition.referencesRisk))
            return attrs)) := by
    have failure : situation.fails .conditions = situation.conditionFailure attrs
        (situation.conditions.filter (fun condition => !condition.referencesRisk)) :=
      (conditionFailure_congr _ same).symm
    have enforces : Ends True (situation.fails .conditions) (fun _ => True)
        (answered situation.reply (enforceConditions situation.call attrs none none
          (situation.conditions.filter (fun condition => !condition.referencesRisk)))) :=
      failure ▸ ends_enforceConditions _ _ _ _
    have returned : Ends True none
        (fun attrs => situation.conditions ≠ [] → attrs = situation.attributes)
        (answered situation.reply (pure attrs : Stage Abac.Attributes)) :=
      ⟨trivial, rfl, same⟩
    have ends := enforces.bind (fun _ _ => returned)
    rw [Option.or_none] at ends
    exact ends.of_iff (by simp)
  exact ((ends_conditionAttributes _).bind enforced).of_iff (by simp [needs])

/-- A call is scored, and stopped by the conditions that refer to the score or else by its band. -/
theorem meets_scoringStage {attrs : Abac.Attributes} (unapproved : situation.approved = false)
    (same : situation.conditions ≠ [] → attrs = situation.attributes)
    : situation.Meets [.riskConditions, .band] (· = situation.risk)
        (scoringStage situation.call situation.conditions attrs situation.stepsUp) := by
  have enforced : situation.Meets [.riskConditions] (fun _ => True)
      (enforceConditions situation.call (Dict.set "risk.score" (.int situation.risk.1) attrs)
        (some situation.risk.1) (some situation.risk.2)
        (situation.conditions.filter Abac.Condition.referencesRisk)) := by
    refine .single (asks_enforceConditions _ _ _ _) ?_
    have failure : situation.fails .riskConditions
        = situation.conditionFailure (Dict.set "risk.score" (.int situation.risk.1) attrs)
          (situation.conditions.filter Abac.Condition.referencesRisk) := by
      unfold fails riskConditionsFailure
      rw [if_neg (by simp [unapproved])]
      exact conditionFailure_congr _ (fun some => by rw [same some])
    rw [failure]
    exact ends_enforceConditions _ _ _ _
  have failure : situation.fails .band
      = (bandTerminal situation.risk.1 situation.stepsUp).map situation.bandFailureOf :=
    if_neg (by simp [unapproved])
  refine .prelude (asks_ask (touches_of_none rfl)) (answered_ask _ _) ?_
  refine .prelude (asks_attempt (asks_demand _ (touches_own rfl))) (answered_attempt _ _) ?_
  have scored : scoreOrMaximum (answered situation.reply (RiskEngine.score situation.call.key
      situation.call.arguments (situation.reply .engine).policy.risk)) = situation.risk :=
    rfl
  dsimp only
  rw [scored]
  refine enforced.bind (fun _ _ => .single ?_ ?_)
  · cases bandTerminal situation.risk.1 situation.stepsUp with
    | none => exact asks_pure _
    | some outcome => exact asks_riskTerminal _ _ _
  · rw [failure]
    cases bandTerminal situation.risk.1 situation.stepsUp with
    | none => exact ⟨trivial, rfl, rfl⟩
    | some outcome =>
        obtain ⟨response, responds, sent⟩ := answered_riskTerminal outcome
        dsimp only
        rw [answered_finish responds]
        exact ⟨trivial, _, rfl, sent⟩

/-- A call redeems the approval that it presents, or else is scored. -/
theorem meets_riskStage {attrs : Abac.Attributes}
    (same : situation.conditions ≠ [] → attrs = situation.attributes)
    : situation.Meets [.approval, .riskConditions, .band]
        (· = if situation.approved then none else some situation.risk)
        (riskStage situation.call situation.conditions attrs situation.stepsUp
          (situation.presented approvalMetaKey)) := by
  have decides {gates : List Gate} {gate : Gate} (reached : situation.Reaches gates gate)
      (others : Gate.conditions ∉ gates ∧ Gate.validation ∉ gates)
      : situation.needs gate := by
    obtain ⟨before, after, rfl, _⟩ := reached
    cases gate <;> simp_all [needs]
  unfold riskStage
  cases presents : situation.approved with
  | true =>
      have given : situation.presented approvalMetaKey ≠ .null := of_decide_eq_true presents
      have unscored : [Gate.riskConditions, .band].findSome? situation.fails = none := by
        simp [fails, riskConditionsFailure, bandFailure, presents]
      have redeemed : situation.Meets [.approval] (fun _ => True)
          (approvalStage situation.call (situation.presented approvalMetaKey)) :=
        .single (asks_approvalStage _) (ends_approvalStage presents)
      have unrated : situation.Meets [.riskConditions, .band] (· = none)
          (pure none : Stage (Option (Int × List RiskFactor))) :=
        .skip unscored (fun _ reached => decides reached (by decide))
          (.between (asks_pure _) ⟨trivial, rfl, rfl⟩)
      rw [if_pos given]
      exact redeemed.bind (fun _ _ => unrated)
  | false =>
      have absent : ¬ situation.presented approvalMetaKey ≠ .null := of_decide_eq_false presents
      have unredeemed : [Gate.approval].findSome? situation.fails = none := by
        simp [fails, approvalFailure, presents]
      have rated (risk : Int × List RiskFactor) (scored : risk = situation.risk)
          : situation.Meets [] (· = some situation.risk)
              (pure (some risk) : Stage (Option (Int × List RiskFactor))) :=
        .between (asks_pure _) ⟨trivial, rfl, congrArg some scored⟩
      rw [if_neg absent]
      exact .skip unredeemed (fun _ reached => decides reached (by decide))
        ((meets_scoringStage presents same).bind rated)

/-- (situation.Sane) is what the pipeline is promised: a request with object arguments and an object
`_meta`, a schema cache that does not raise, and a JSON Schema library that only finds errors.
-/
structure Sane (situation : Situation) : Prop where
  arguments : ∃ fields, situation.call.arguments = .obj fields
  metadata : ∃ fields, (Json.getKey (situation.params.getD []) "_meta").orEmpty = .obj fields
  cached : (situation.reply (.cacheGet situation.session.serverId)).isOk
  library : ∀ arguments schema exn,
    situation.runtime.validateSchema arguments schema ≠ .raises exn

theorem answered_inputSchemaFor (sane : situation.Sane)
    : answered situation.reply (inputSchemaFor situation.runtime situation.session
        situation.call.key.toolName)
      = .ok situation.schema := by
  have cached := sane.cached
  unfold inputSchemaFor schema listing
  rw [answered_bind]
  have read : answered situation.reply (SchemaCache.get situation.session.serverId)
      = situation.reply (.cacheGet situation.session.serverId) :=
    rfl
  rw [read]
  generalize situation.reply (.cacheGet situation.session.serverId) = result at cached
  rcases result with exn | _ | tools
  · cases cached
  · dsimp only
    have refetched : answered situation.reply (refetchTools situation.runtime situation.session)
        = .ok (answered situation.reply
            (refetchTools situation.runtime situation.session)).toOption.join := by
      unfold refetchTools
      rw [answered_bind_of_ok _ _ (answered_attempt _ _)]
      rfl
    rw [answered_bind_of_ok _ _ refetched]
    cases (answered situation.reply
      (refetchTools situation.runtime situation.session)).toOption.join <;> rfl
  · rfl

/-- A call with arguments that do not conform stops, and so does one without a schema. -/
theorem meets_validationStage (sane : situation.Sane)
    : situation.Meets [.validation] (fun _ => True)
        (validationStage situation.runtime situation.session situation.call) := by
  refine .single (asks_validationStage _ _) ?_
  unfold validationStage fails validationFailure needs
  have looked : answered situation.reply (uncaught (inputSchemaFor situation.runtime
      situation.session situation.call.key.toolName) : Stage Json) = .ok situation.schema := by
    rw [uncaught, answered_mapStop, answered_inputSchemaFor sane]
    rfl
  rw [answered_bind_of_ok _ _ looked]
  dsimp only
  by_cases missing : situation.schema = .null
  · rw [if_pos missing, if_pos missing]
    exact ends_denied.of_iff (by simp [missing])
  · rw [if_neg missing, if_neg missing]
    obtain ⟨fields, same⟩ := sane.arguments
    have checked := ParamValidator.isOk_validate_iff sane.library fields situation.schema
    rw [← same] at checked
    rw [answered_bind, uncaught, answered_mapStop, answered_ofExcept]
    generalize ParamValidator.validate situation.runtime situation.call.arguments situation.schema
      = result at checked
    simp only [missing, false_or]
    rw [← checked]
    rcases result with exn | _ | error
    · exact Bool.false_ne_true
    · exact ⟨rfl, rfl, trivial⟩
    · exact ends_denied.of_iff (by simp [Except.isOk, Except.toBool])

/-- A call is recorded before it is let through. -/
theorem meets_allowStage
    : situation.Meets [.record] (fun _ => True)
        (allowStage situation.call (if situation.approved then none else some situation.risk)
          (if situation.presented approvalMetaKey ≠ .null then
            some (situation.presented approvalMetaKey).pyStr else none)
          (if situation.stepsUp then
            some (situation.presented challengeIdMetaKey).pyStr else none)) := by
  have approves : (if situation.presented approvalMetaKey ≠ .null then
        some (situation.presented approvalMetaKey).pyStr else none)
      = if situation.approved then some (situation.presented approvalMetaKey).pyStr else none := by
    simp [approved]
  rw [approves]
  refine .single (asks_allowStage _ _ _) ?_
  unfold allowStage fails recordFailure
  rw [answered_engine_bind, answered_guarded_bind]
  dsimp only
  have written (entry : AuditEntry)
      : answered situation.reply (AuditWriter.write entry) = situation.reply (.write entry) :=
    rfl
  rw [written]
  have read : situation.reply .engine = situation.engine := rfl
  rw [read]
  cases recorded : situation.reply (.write (allowEntry situation.call.key situation.engine.version
      situation.call.arguments
      ((if situation.approved then none else some situation.risk).map Prod.fst)
      ((if situation.approved then none else some situation.risk).map Prod.snd)
      (if situation.approved then some (situation.presented approvalMetaKey).pyStr else none)
      (if situation.stepsUp then
        some (situation.presented challengeIdMetaKey).pyStr else none))) with
  | ok seq => exact ⟨trivial, rfl, trivial⟩
  | error exn => exact ⟨trivial, _, rfl, rfl, rfl⟩

-----------------------------------------------------------------------------------------
-- The pipeline
-----------------------------------------------------------------------------------------

/-- The message that a call is forwarded as. -/
def forwarded (situation : Situation) : ClientMessage :=
  .request situation.requestId "tools/call" (situation.params.map stripGatewayMeta)

/-- The whole pipeline is the stages in their order. -/
theorem meets_authorizeCall (sane : situation.Sane)
    : situation.Meets Gate.all (· = situation.forwarded)
        (authorizeCall situation.runtime situation.session situation.requestId
          situation.params) := by
  have metadata : (Json.getKey (situation.params.getD []) "_meta").orEmpty
      = .obj situation.fields := by
    obtain ⟨fields, same⟩ := sane.metadata
    unfold Situation.fields
    rw [same]
  have presented (key : String)
      : situation.Meets [] (· = situation.presented key)
          (uncaught (Coroutine.ofExcept ((Json.obj situation.fields).get key)) : Stage Json) :=
    .between (asks_mapStop (asks_ofExcept _)) ⟨trivial, rfl, rfl⟩
  unfold authorizeCall
  dsimp only
  rw [metadata]
  refine .prelude (asks_ask (touches_of_none rfl)) (answered_ask _ _) ?_
  refine .bind (.single (asks_replayStage _ _ _) ends_replayStage) (fun _ _ => ?_)
  refine .bind meets_rbacStage (fun grant granted => ?_)
  have conditions : grant.conditions = situation.conditions := by
    unfold Situation.conditions
    rw [granted]
    rfl
  rw [conditions]
  refine .bind_checked meets_conditions (fun attrs same => ?_)
  refine .bind (.single asks_driftStage ends_driftStage) (fun _ _ => ?_)
  refine .bind (presented challengeIdMetaKey) (fun challengeId carried => ?_)
  subst carried
  refine .bind (.single (asks_challengeStage _ _ _) ends_challengeStage) (fun stepsUp verified => ?_)
  subst verified
  refine .bind (presented approvalMetaKey) (fun approvalId carried => ?_)
  subst carried
  refine .bind (meets_riskStage same) (fun risk scored => ?_)
  subst scored
  refine .bind (meets_validationStage sane) (fun _ _ => ?_)
  refine .bind meets_allowStage (fun _ _ => ?_)
  exact .between (asks_pure _) ⟨trivial, rfl, rfl⟩

end

-----------------------------------------------------------------------------------------
-- The first failure decides
-----------------------------------------------------------------------------------------

variable (situation : Situation)

/-- What the pipeline comes to. -/
def decided : Except Stop ClientMessage :=
  answered situation.reply (authorizeCall situation.runtime situation.session situation.requestId
    situation.params)

/-- What it asks on the way. -/
def questions : List (Event Reply) :=
  asked situation.reply (authorizeCall situation.runtime situation.session situation.requestId
    situation.params)

/-- (situation.Passed gate) means that no stage before this one fails. -/
def Passed (gate : Gate) : Prop :=
  ∀ earlier ∈ Gate.all.takeWhile (· ≠ gate), situation.fails earlier = none

/-- (situation.FirstFailure) means that a call is stopped with the terminal of the first stage that
fails, and is forwarded when none does.
-/
def FirstFailure : Prop :=
  match situation.decided with
  | .ok message => situation.firstFailure = none ∧ message = situation.forwarded
  | .error (.respond response) =>
      ∃ terminal, situation.firstFailure = some terminal ∧ terminal.Sent response
  | .error (.raised _) => False

/-- (situation.Untouched) means that no store is asked for anything before every earlier stage passes.
-/
def Untouched : Prop :=
  ∀ event ∈ situation.questions, ∀ gate,
    storeOf event.call = some gate → situation.Passed gate

section

variable {situation : Situation}

theorem reaches_all_iff {gate : Gate} : situation.Reaches Gate.all gate ↔ situation.Passed gate := by
  constructor
  · rintro ⟨before, after, same, passed⟩ earlier member
    refine passed earlier ?_
    rw [same] at member
    clear same passed
    induction before with
    | nil => simp at member
    | cons first rest ih =>
        by_cases own : first = gate
        · simp [own] at member
        · have taken : earlier = first
              ∨ earlier ∈ (rest ++ gate :: after).takeWhile (· ≠ gate) := by
            simpa [List.takeWhile_cons, own] using member
          rcases taken with rfl | later
          · exact List.mem_cons_self
          · exact List.mem_cons_of_mem _ (ih later)
  · intro passed
    refine ⟨Gate.all.takeWhile (· ≠ gate), (Gate.all.dropWhile (· ≠ gate)).tail, ?_, passed⟩
    cases gate <;> rfl

/-- A call comes to its first failure, and touches no store of a later stage, exactly when every stage
that it reaches can decide.
-/
theorem first_failure_iff (sane : situation.Sane)
    : situation.FirstFailure ∧ situation.Untouched
      ↔ ∀ gate, situation.Passed gate → situation.needs gate := by
  have meets := meets_authorizeCall sane
  have ends := meets.ends
  have untouched : situation.Untouched := fun event member gate owned =>
    reaches_all_iff.mp (meets.asks event member gate owned)
  simp only [reaches_all_iff] at ends
  rw [and_iff_left untouched]
  unfold FirstFailure decided firstFailure
  generalize answered situation.reply (authorizeCall situation.runtime situation.session
    situation.requestId situation.params) = outcome at ends ⊢
  rcases outcome with (response | exn) | message
  · exact iff_of_true ends.2 ends.1
  · exact iff_of_false id ends
  · exact iff_of_true ends.2 ends.1

end

/-- A policy under which the agent may call the mail server before six in the evening. -/
def daytimePolicy : PolicyEngine where
  policy := {
    version := 1
    identities := [{
      id := "agent"
      allowedServers := [{
        serverId := "mail"
        allowedTools := ["*"]
        conditions := [{
          source := "context.hour < 18"
          tree := .compare (.attribute "context.hour") [(.lt, .constant (.int 18))]
        }]
      }]
    }]
  }

/-- A call that every store permits, of a tool with this schema. -/
def daytimeCall (schema : Json) : Situation where
  runtime := DriftDetector.calm
  session := mailSession
  requestId := .int 1
  params := some [("name", .str "send_mail"), ("arguments", .obj [])]
  reply
    | .engine => daytimePolicy
    | .cacheGet _ => .ok (some [[("name", .str "send_mail"), ("inputSchema", schema)]])
    | call => DriftDetector.granted call

theorem sane_daytimeCall (schema : Json) : (daytimeCall schema).Sane where
  arguments := ⟨[], rfl⟩
  metadata := ⟨[], rfl⟩
  cached := rfl
  library := nofun

/-- A schema that is no object stops a call in the validator, and not with a denial. -/
theorem unchecked_call_raises
    : ∃ situation : Situation,
        situation.Sane ∧ ¬ (situation.FirstFailure ∧ situation.Untouched) := by
  refine ⟨daytimeCall (.bool true), sane_daytimeCall _, fun promised => ?_⟩
  have raised : (daytimeCall (.bool true)).decided = .error (.raised .attributeError) := rfl
  have decided := promised.1
  unfold FirstFailure at decided
  rw [raised] at decided
  exact decided

/-- A call of a tool whose schema is an object passes every stage. -/
theorem checked_call_passes
    : (daytimeCall (.obj [])).firstFailure = none
      ∧ (daytimeCall (.obj [])).FirstFailure ∧ (daytimeCall (.obj [])).Untouched := by
  refine ⟨rfl, (first_failure_iff (sane_daytimeCall _)).mpr ?_⟩
  intro gate _
  cases gate with
  | conditions => exact fun _ => rfl
  | validation => exact .inr ⟨[], rfl⟩
  | _ => trivial

end Situation

end Interceptor

end SecureMcp
