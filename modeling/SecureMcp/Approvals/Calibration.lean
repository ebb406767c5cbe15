import Mathlib.Tactic.Linarith
import SecureMcp.Approvals.Lifecycle
import SecureMcp.Library.Postcondition
import SecureMcp.Policy.Rollback
import SecureMcp.Risk.Frequency

/-! A step of calibration is earned: each one follows the grant of an approval of its own, by an
administrator and in time, for the call that the approval was created for.
-/

namespace SecureMcp

open Interaction

namespace Approvals

open PolicyVersions (VersionCall VersionReply requireAdmin)
open Risk (Redis RiskCall RiskReply)

-----------------------------------------------------------------------------------------
-- What a request asks
-----------------------------------------------------------------------------------------

def ofPolicy (event : Event VersionReply) : Event LifecycleReply :=
  ⟨.policy event.call, event.reply⟩

def ofStore (event : Event ApprovalReply) : Event LifecycleReply :=
  ⟨.store event.call, event.reply⟩

def ofCommand (event : Event RiskReply) : Event LifecycleReply :=
  ⟨.risk event.call, event.reply⟩

/-- The event of the approvals table that an event is, if it is one. -/
def storeEvent? : Event LifecycleReply → Option (Event ApprovalReply)
  | ⟨.store call, reply⟩ => some ⟨call, reply⟩
  | _ => none

def storeEvents (events : List (Event LifecycleReply)) : List (Event ApprovalReply) :=
  events.filterMap storeEvent?

/-- The events of a grant: the row is read under its lock and found pending and in time, the grant is
recorded, and then committed.
-/
def grantEvents (approvalId approvedBy : String) (row : Approval) (now approvedAt : Rat) (seq : Nat)
    : List (Event ApprovalReply) :=
  [
    ⟨.selectForUpdate approvalId, .ok (some row)⟩,
    ⟨.time, now⟩,
    ⟨.time, approvedAt⟩,
    ⟨.write (ApprovalStore.approvedEntry row.key approvalId approvedBy), .ok seq⟩,
    ⟨.commit approvalId {
      status := some .approved
      approvedBy := some approvedBy
      approvedAt := some approvedAt
    }, .ok ()⟩,
    ⟨.close, ()⟩
  ]

/-- An administrator's key was checked first. -/
def Authorized (apiKey : Option String) (approvedBy : String) (past : List (Event LifecycleReply))
    : Prop :=
  ∃ login rest,
    past = login.map ofPolicy ++ rest ∧ (requireAdmin apiKey).run.Exec login (.ok approvedBy)

/-- The call of the approval store that a request makes. -/
inductive Carries (past : List (Event LifecycleReply)) : LifecycleRequest → Request → Prop
  | hold (key : CallKey) (hash : String) (auditId : Nat)
    : Carries past (.hold key hash auditId) (.create key hash auditId)
  | redeem (approvalId : String) (key : CallKey) (hash : String)
    : Carries past (.redeem approvalId key hash) (.redeem approvalId key hash)
  | grant (apiKey : Option String) (approvalId approvedBy : String)
    (authorized : Authorized apiKey approvedBy past)
    : Carries past (.approveCall apiKey approvalId) (.approve approvalId approvedBy)

/-- A grant through the API: the key, the policies in which it was looked up and its identity checked,
and what was read and recorded.
-/
structure Granting where
  apiKey : String
  engine : PolicyEngine
  current : PolicyEngine
  approvedBy : String
  row : Approval
  now : Rat
  approvedAt : Rat
  seq : Nat

namespace Granting

def events (granting : Granting) (approvalId : String) : List (Event LifecycleReply) :=
  [⟨.policy .engine, granting.engine⟩, ⟨.policy .engine, granting.current⟩]
  ++ (grantEvents approvalId granting.approvedBy granting.row granting.now granting.approvedAt
      granting.seq).map ofStore

/-- The key is that of an administrator, who acts in time. -/
structure Proper (granting : Granting) : Prop where
  known :
    granting.engine.identityForKeyHash ("sha256:" ++ Sha256.hexdigest granting.apiKey)
      = some granting.approvedBy
  admin : granting.current.isAdmin granting.approvedBy
  inTime : granting.now ≤ granting.row.expiresAt

end Granting

/-- What a request may ask after the events `past`. -/
def Permitted (config : LifecycleSettings) (request : LifecycleRequest)
    (past : List (Event LifecycleReply))
    : LifecycleCall → Prop
  | .store call =>
      (request = .expireStale ∧ (call = .time ∨ ∃ entry, call = .write entry))
      ∨ ∃ inner,
          Carries past request inner ∧ Permits config.settings inner (storeEvents past) call
  | .risk (.incrBy name amount) =>
      ∃ granting : Granting, ∃ approvalId,
        granting.Proper
        ∧ request = .approveCall (some granting.apiKey) approvalId
        ∧ past = granting.events approvalId
        ∧ name = Risk.decayKey granting.row.key
        ∧ amount = config.risk.riskDecayStep
  | .risk (.incr name) => ∀ key, name ≠ Risk.decayKey key
  | .commitStale _ => request = .expireStale
  | _ => True

section

variable {config : LifecycleSettings} {request : LifecycleRequest} {inner : Request}
  {past : List (Event LifecycleReply)} {approvalId approvedBy : String}

theorem storeEvents_append (first second : List (Event LifecycleReply))
    : storeEvents (first ++ second) = storeEvents first ++ storeEvents second :=
  List.filterMap_append

@[simp] theorem storeEvents_ofStore (events : List (Event ApprovalReply))
    : storeEvents (events.map ofStore) = events := by
  induction events with
  | nil => rfl
  | cons event rest ih => simpa [storeEvents, ofStore, storeEvent?] using ih

@[simp] theorem storeEvents_ofPolicy (events : List (Event VersionReply))
    : storeEvents (events.map ofPolicy) = [] := by
  simp [storeEvents, ofPolicy, storeEvent?]

theorem eq_ofStore {event : Event LifecycleReply} {own : Event ApprovalReply}
    (isStore : storeEvent? event = some own)
    : event = ofStore own := by
  obtain ⟨call, reply⟩ := event
  cases call with
  | store call =>
      cases isStore
      rfl
  | policy | risk | selectStale | commitStale => cases isStore

theorem exec_passStore {call : ApprovalCall} {reply : ApprovalReply call}
    {first : List (Event LifecycleReply)} (exec : (passStore call).Exec first reply)
    : first = [ofStore ⟨call, reply⟩] := by
  obtain ⟨answer, rest, rfl, done⟩ := Program.exec_ask_iff.mp exec
  obtain ⟨rfl, rfl⟩ := Program.exec_done_iff.mp done
  rfl

theorem exec_passPolicy {call : VersionCall} {reply : VersionReply call}
    {first : List (Event LifecycleReply)} (exec : (passPolicy call).Exec first reply)
    : first = [ofPolicy ⟨call, reply⟩] := by
  obtain ⟨answer, rest, rfl, done⟩ := Program.exec_ask_iff.mp exec
  obtain ⟨rfl, rfl⟩ := Program.exec_done_iff.mp done
  rfl

theorem exec_onStore {α : Type} {body : ApprovalAsync α} {events : List (Event LifecycleReply)}
    {outcome : Except Exn α} (exec : (onStore body).run.Exec events outcome)
    : ∃ own, body.run.Exec own outcome ∧ events = own.map ofStore := by
  obtain ⟨own, outer, expands⟩ := Program.exec_expand_iff.mp exec
  exact ⟨own, outer, expands.eq_map (fun _ _ _ => exec_passStore)⟩

theorem exec_onPolicy {ε α : Type} {body : Coroutine VersionCall VersionReply ε α}
    {events : List (Event LifecycleReply)} {outcome : Except ε α}
    (exec : (onPolicy body).run.Exec events outcome)
    : ∃ own, body.run.Exec own outcome ∧ events = own.map ofPolicy := by
  obtain ⟨own, outer, expands⟩ := Program.exec_expand_iff.mp exec
  exact ⟨own, outer, expands.eq_map (fun _ _ _ => exec_passPolicy)⟩

/-- Who is let in as an administrator has the key of one. -/
theorem exec_requireAdmin_ok {apiKey : Option String} {login : List (Event VersionReply)}
    (exec : (requireAdmin apiKey).run.Exec login (.ok approvedBy))
    : ∃ key engine current,
        apiKey = some key
        ∧ engine.identityForKeyHash ("sha256:" ++ Sha256.hexdigest key) = some approvedBy
        ∧ current.isAdmin approvedBy
        ∧ login = [⟨.engine, engine⟩, ⟨.engine, current⟩] := by
  obtain ⟨engine, _, rfl, looked⟩ := Coroutine.exec_ask_bind_iff.mp exec
  obtain ⟨first, _, found, rfl, resolved, checked⟩ := Coroutine.exec_bind_ok_iff.mp looked
  cases found with
  | none =>
      obtain ⟨_, impossible⟩ := Program.exec_done_iff.mp checked
      cases impossible
  | some identityId =>
      obtain ⟨current, _, rfl, judged⟩ := Coroutine.exec_ask_bind_iff.mp checked
      split at judged
      · next admin =>
          obtain ⟨rfl, same⟩ := Program.exec_done_iff.mp judged
          cases same
          unfold PolicyVersions.resolveIdentity at resolved
          split at resolved
          · obtain ⟨_, impossible⟩ := Program.exec_done_iff.mp resolved
            cases impossible
          · obtain ⟨_, impossible⟩ := Program.exec_done_iff.mp resolved
            cases impossible
          · next key _ =>
              split at resolved
              · next known =>
                  obtain ⟨rfl, same⟩ := Program.exec_done_iff.mp resolved
                  cases same
                  exact ⟨key, engine, current, rfl, known, admin, rfl⟩
              · obtain ⟨_, _, _, _, _, ended⟩ := Coroutine.exec_bind_ok_iff.mp resolved
                obtain ⟨_, impossible⟩ := Program.exec_done_iff.mp ended
                cases impossible
      · obtain ⟨_, impossible⟩ := Program.exec_done_iff.mp judged
        cases impossible

/-- A grant that succeeds is one of a pending approval in time. -/
theorem exec_approve_ok {events : List (Event ApprovalReply)} {seq : Nat} {key : CallKey}
    (whole : (approve approvalId approvedBy).run.Exec events (.ok (seq, key)))
    : ∃ row now approvedAt,
        events = grantEvents approvalId approvedBy row now approvedAt seq
        ∧ key = row.key
        ∧ now ≤ row.expiresAt := by
  obtain ⟨body, rfl, asked⟩ := exec_withSession_ok whole
  obtain ⟨_, _, found, rfl, selected, exec⟩ := Coroutine.exec_bind_ok_iff.mp asked
  obtain ⟨reply, rfl, answered⟩ := Coroutine.exec_demand_iff.mp selected
  have read : reply = .ok found := answered
  subst read
  cases found with
  | none =>
      obtain ⟨_, impossible⟩ := Program.exec_done_iff.mp exec
      cases impossible
  | some row =>
      dsimp only at exec
      split at exec
      · next pending =>
          obtain ⟨_, _, lapsed, rfl, looked, judged⟩ := Coroutine.exec_bind_ok_iff.mp exec
          obtain ⟨now, rfl, inTime⟩ := exec_expired looked
          split at judged
          · obtain ⟨_, _, _, _, _, raised⟩ := Coroutine.exec_bind_ok_iff.mp judged
            obtain ⟨_, impossible⟩ := Program.exec_done_iff.mp raised
            cases impossible
          · next current =>
              rw [if_neg (not_not.mpr pending)] at judged
              obtain ⟨approvedAt, _, rfl, granting⟩ := Coroutine.exec_ask_bind_iff.mp judged
              obtain ⟨_, _, number, rfl, written, recorded⟩ := Coroutine.exec_bind_ok_iff.mp granting
              obtain ⟨stored, rfl, answered⟩ := Coroutine.exec_demand_iff.mp written
              have numbered : stored = .ok number := answered
              subst numbered
              obtain ⟨_, _, _, rfl, committed, ended⟩ := Coroutine.exec_bind_ok_iff.mp recorded
              obtain ⟨change, rfl, answered⟩ := Coroutine.exec_demand_iff.mp committed
              have changed : change = .ok () := answered
              subst changed
              obtain ⟨rfl, same⟩ := Program.exec_done_iff.mp ended
              cases same
              exact ⟨row, now, approvedAt, rfl, rfl, by simpa [inTime] using current⟩
      · obtain ⟨_, impossible⟩ := Program.exec_done_iff.mp exec
        cases impossible

theorem Authorized.more {apiKey : Option String} (authorized : Authorized apiKey approvedBy past)
    (later : List (Event LifecycleReply))
    : Authorized apiKey approvedBy (past ++ later) := by
  obtain ⟨login, rest, rfl, exec⟩ := authorized
  exact ⟨login, rest ++ later, List.append_assoc _ _ _, exec⟩

theorem Carries.more (carries : Carries past request inner) (later : List (Event LifecycleReply))
    : Carries (past ++ later) request inner := by
  cases carries with
  | hold key hash auditId => exact .hold key hash auditId
  | redeem approvalId key hash => exact .redeem approvalId key hash
  | grant apiKey approvalId approvedBy authorized =>
      exact .grant apiKey approvalId approvedBy (authorized.more later)

/-- A call of the store asks within a request what it asks on its own. -/
theorem asksAfter_onStore {α : Type} {body : ApprovalAsync α} (carries : Carries past request inner)
    (none : storeEvents past = [])
    (asks : body.run.AsksAfter (Permits config.settings inner) [])
    : (onStore body).run.AsksAfter (Permitted config request) past := by
  refine asks.expand (Carries · request inner) (fun _ _ _ => exec_passStore) ?_ ?_ ?_ none
    carries
  · intro before event
    rw [storeEvents_append]
    rfl
  · exact fun before event holds => holds.more _
  · exact fun before call holds allowed => ⟨Or.inr ⟨inner, holds, allowed⟩, fun _ => trivial⟩

/-- A command of Redis that is not a step of calibration. -/
def Uncalibrated : RiskCall → Prop
  | .incr name => ∀ key, name ≠ Risk.decayKey key
  | .incrBy _ _ => False
  | _ => True

/-- What is permitted at any time. -/
def Idle : LifecycleCall → Prop
  | .policy _ => True
  | .risk call => Uncalibrated call
  | _ => False

theorem Idle.permitted {call : LifecycleCall} (idle : Idle call)
    : Permitted config request past call := by
  cases call with
  | policy call => trivial
  | risk call =>
      cases call with
      | incr name => exact idle
      | incrBy name amount => exact idle.elim
      | _ => trivial
  | _ => exact idle.elim

theorem asksAfter_idle {α : Type} {program : Program LifecycleCall LifecycleReply α}
    (asks : program.Asks Idle)
    : program.AsksAfter (Permitted config request) past :=
  asks.throughout (fun _ _ idle => idle.permitted)

/-- A program that asks for nothing but policies. -/
theorem asks_expand_passPolicy {α : Type} (program : Program VersionCall VersionReply α)
    : (program.expand passPolicy).Asks Idle := by
  induction program with
  | done value => trivial
  | ask call next ih => exact ⟨trivial, ih⟩

theorem asks_onRedis {α : Type} {body : Risk.RiskAsync α} (asks : body.run.Asks Uncalibrated)
    : (onRedis body).run.Asks Idle :=
  Program.Asks.expand asks (fun _ plain => ⟨plain, fun _ => trivial⟩)

theorem asks_bump {name : String} (seconds : ℕ+) (plain : ∀ key, name ≠ Risk.decayKey key)
    : (Risk.bump name seconds).run.Asks Uncalibrated := by
  refine Coroutine.asks_bind (Coroutine.asks_demand _ plain) (fun count => ?_)
  split
  · exact Coroutine.asks_bind (Coroutine.asks_demand _ trivial) (fun _ => Coroutine.asks_pure _)
  · exact Coroutine.asks_pure _

theorem denialKey_ne_decayKey (identityId : String) (key : CallKey)
    : Risk.denialKey identityId ≠ Risk.decayKey key := by
  intro same
  have chars := congrArg String.toList same
  simp [Risk.denialKey, Risk.decayKey] at chars

theorem uncalibrated_of_reads (call : RiskCall) (reads : Risk.Reads call) : Uncalibrated call := by
  cases call with
  | incr name => exact reads.elim
  | incrBy name amount => exact reads.elim
  | _ => trivial

theorem asks_score (key : CallKey) (arguments : Json) (policy : RiskPolicy) (dryRun : Bool)
    : (Risk.score config.risk config.stdlib key arguments policy dryRun).run.Asks Uncalibrated := by
  refine Coroutine.asks_bind ?_ (fun count => ?_)
  · unfold Risk.callCount
    split
    · exact Coroutine.asks_bind ((Risk.counter_asks _).mono uncalibrated_of_reads)
        (fun _ => Coroutine.asks_pure _)
    · exact asks_bump _ Risk.freqKey_ne_decayKey
  · exact (Risk.tail_asks count).mono uncalibrated_of_reads

theorem asks_recordDenial (identityId : String)
    : (Risk.recordDenial config.risk identityId).run.Asks Uncalibrated :=
  Coroutine.asks_bind (asks_bump _ (denialKey_ne_decayKey identityId))
    (fun _ => Coroutine.asks_pure _)

/-- The sweep records and changes rows of its own. -/
theorem asksAfter_expireStale
    : Approvals.expireStale.run.AsksAfter (Permitted config .expireStale) past := by
  have recorded (rows : List Approval) (past : List (Event LifecycleReply))
      : (auditStale rows).run.AsksAfter (Permitted config .expireStale) past := by
    induction rows generalizing past with
    | nil => trivial
    | cons row rest ih =>
        refine Coroutine.asksAfter_bind ?_ (fun events seq _ => ih _)
        exact ⟨Or.inl ⟨rfl, Or.inr ⟨_, rfl⟩⟩, fun _ => trivial⟩
  refine Coroutine.asksAfter_ask_bind (Or.inl ⟨rfl, Or.inl rfl⟩) (fun now => ?_)
  refine Coroutine.asksAfter_demand_bind trivial (fun reply rows _ => ?_)
  refine Coroutine.asksAfter_bind (recorded rows _) (fun events done _ => ?_)
  exact ⟨rfl, fun _ => trivial⟩

/-- A grant through the API takes its step after it is committed. -/
theorem asksAfter_approveCall {apiKey : Option String}
    : (Approvals.approveCall config.risk apiKey approvalId).run.AsksAfter
        (Permitted config (.approveCall apiKey approvalId)) [] := by
  refine Coroutine.asksAfter_bind (asksAfter_idle (asks_expand_passPolicy _))
    (fun events approvedBy checked => ?_)
  obtain ⟨login, authorized, rfl⟩ := exec_onPolicy checked
  have carries : Carries (login.map ofPolicy) (.approveCall apiKey approvalId)
      (.approve approvalId approvedBy) :=
    .grant _ _ _ ⟨login, [], by simp, authorized⟩
  refine Coroutine.asksAfter_mapStop_bind (asksAfter_onStore carries (by simp) asksAfter_approve)
    (fun events granted granting => ?_)
  obtain ⟨seq, key⟩ := granted
  obtain ⟨own, exec, rfl⟩ := exec_onStore granting
  obtain ⟨row, now, approvedAt, rfl, rfl, inTime⟩ := exec_approve_ok exec
  refine Coroutine.asksAfter_mapStop_bind ?_ (fun events done _ => ?_)
  · obtain ⟨key, engine, current, rfl, known, admin, rfl⟩ := exec_requireAdmin_ok authorized
    refine ⟨⟨⟨key, engine, current, approvedBy, row, now, approvedAt, seq⟩, approvalId,
      ⟨known, admin, inTime⟩, rfl, rfl, rfl, rfl⟩, fun reply => ?_⟩
    cases reply with
    | applied value => exact ⟨trivial, fun _ => trivial⟩
    | lost exn => trivial
    | refused exn => trivial
  · exact asksAfter_idle (Coroutine.asks_bind (asks_expand_passPolicy _)
      (fun _ => Coroutine.asks_pure _))

/-- Each request asks only what it is permitted to. -/
theorem asksAfter_program
    : (request.program config).AsksAfter (Permitted config request) [] := by
  cases request with
  | hold key hash auditId =>
      exact (asksAfter_onStore (.hold key hash auditId) rfl asksAfter_create).bind
        (fun _ _ _ => trivial)
  | redeem approvalId key hash =>
      exact (asksAfter_onStore (.redeem approvalId key hash) rfl asksAfter_redeem).bind
        (fun _ _ _ => trivial)
  | approveCall apiKey approvalId => exact asksAfter_approveCall.bind (fun _ _ _ => trivial)
  | expireStale => exact asksAfter_expireStale.bind (fun _ _ _ => trivial)
  | score key arguments policy dryRun =>
      exact (asksAfter_idle (asks_onRedis (asks_score key arguments policy dryRun))).bind
        (fun _ _ _ => trivial)
  | recordDenial identityId =>
      exact (asksAfter_idle (asks_onRedis (asks_recordDenial identityId))).bind (fun _ _ _ => trivial)
  | activation request => exact asksAfter_idle (asks_expand_passPolicy _)

end

-----------------------------------------------------------------------------------------
-- How a row changes
-----------------------------------------------------------------------------------------

/-- The order in which a row takes its statuses. -/
def ApprovalStatus.rank : ApprovalStatus → Nat
  | .pending => 0
  | .approved => 1
  | .expired => 2

/-- (Advances row later) means that a row only went on: what it was created for is the same, and
neither its status, nor its use, nor its grant was taken back.
-/
structure Advances (row later : Approval) : Prop where
  approvalId : later.approvalId = row.approvalId
  auditId : later.auditId = row.auditId
  key : later.key = row.key
  argumentsHash : later.argumentsHash = row.argumentsHash
  expiresAt : later.expiresAt = row.expiresAt
  status : row.status.rank ≤ later.status.rank
  consumed : row.consumed = true → later.consumed = true
  approvedBy : ∀ approver, row.approvedBy = some approver → later.approvedBy = some approver
  approvedAt : ∀ instant, row.approvedAt = some instant → later.approvedAt = some instant

/-- Nobody has granted a row. -/
structure Ungranted (row : Approval) : Prop where
  approvedBy : row.approvedBy = none
  approvedAt : row.approvedAt = none

section

variable {row middle later : Approval}

theorem Advances.refl (row : Approval) : Advances row row :=
  ⟨rfl, rfl, rfl, rfl, rfl, le_rfl, id, fun _ => id, fun _ => id⟩

theorem Advances.trans (first : Advances row middle) (second : Advances middle later)
    : Advances row later where
  approvalId := second.approvalId.trans first.approvalId
  auditId := second.auditId.trans first.auditId
  key := second.key.trans first.key
  argumentsHash := second.argumentsHash.trans first.argumentsHash
  expiresAt := second.expiresAt.trans first.expiresAt
  status := first.status.trans second.status
  consumed used := second.consumed (first.consumed used)
  approvedBy approver same := second.approvedBy approver (first.approvedBy approver same)
  approvedAt instant same := second.approvedAt instant (first.approvedAt instant same)

theorem Advances.not_pending (advances : Advances row later) (settled : row.status ≠ .pending)
    : later.status ≠ .pending := by
  intro pending
  have rank := advances.status
  rw [pending] at rank
  cases status : row.status with
  | pending => exact settled status
  | approved | expired => simp [status, ApprovalStatus.rank] at rank

theorem advances_expire (row : Approval) : Advances row (row.updated { status := some .expired }) where
  approvalId := rfl
  auditId := rfl
  key := rfl
  argumentsHash := rfl
  expiresAt := rfl
  status := by
    cases row.status <;> simp [Approval.updated, ApprovalStatus.rank]
  consumed := id
  approvedBy _ := id
  approvedAt _ := id

/-- A change of a row advances it, and leaves it not pending. -/
theorem Changes.advances {request : Request} {past : List (Event ApprovalReply)} {approvalId : String}
    {columns : ApprovalUpdate} (changes : Changes request past approvalId row columns)
    (ungranted : row.status = .pending → Ungranted row)
    : Advances row (row.updated columns) ∧ (row.updated columns).status ≠ .pending := by
  cases changes with
  | lapse pending => exact ⟨advances_expire row, by simp [Approval.updated]⟩
  | grant asked pending =>
      have fresh := ungranted pending
      refine ⟨⟨rfl, rfl, rfl, rfl, rfl, ?_, id, ?_, ?_⟩, by simp [Approval.updated]⟩
      · simp [pending, Approval.updated, ApprovalStatus.rank]
      · simp [fresh.approvedBy]
      · simp [fresh.approvedAt]
  | consume asked read inTime granted unused =>
      refine ⟨⟨rfl, rfl, rfl, rfl, rfl, le_rfl, fun _ => rfl, fun _ => id, fun _ => id⟩, ?_⟩
      simp [Approval.updated, granted]

end

end Approvals

/-- Concurrent requests to a gateway that starts without approvals, and all of their events. -/
structure LifecycleRun (ι : Type) where
  config : Approvals.LifecycleSettings
  start : PolicyVersions.PolicyState
  request : ι → Approvals.LifecycleRequest
  trace : List (Stamped ι Approvals.LifecycleReply)

namespace LifecycleRun

open Approvals

variable {ι : Type}

def initial (run : LifecycleRun ι) : LifecycleState ι where
  policy := run.start
  approvals := RowLocks.empty
  redis _ := none

variable [DecidableEq ι]

/-- Every request has got as far as its events. -/
def UnderWay (run : LifecycleRun ι) : Prop :=
  ∀ thread, ∃ later ended,
    ((run.request thread).program run.config).Exec (eventsOf thread run.trace ++ later) ended

/-- (run.Reaches past state) means that the gateway is in a state after the first part of a run. -/
structure Reaches (run : LifecycleRun ι) (past : List (Stamped ι LifecycleReply))
    (state : LifecycleState ι)
    : Prop where
  served : Machine.Run LifecycleState.Serves run.initial past state
  part : past <+: run.trace

-----------------------------------------------------------------------------------------
-- Rows under a lock
-----------------------------------------------------------------------------------------

section

variable {run : LifecycleRun ι} {start state after final : LifecycleState ι} {owner : ι}
  {past before middle later : List (Stamped ι LifecycleReply)} {step : Stamped ι LifecycleReply}
  {approvalId : String} {row : Approval}

theorem permitted_of_step (underWay : run.UnderWay) (part : past ++ [step] <+: run.trace)
    : Permitted run.config (run.request step.thread) (eventsOf step.thread past) step.event.call := by
  obtain ⟨rest, outcome, exec⟩ := underWay step.thread
  obtain ⟨later, whole⟩ := part
  rw [← whole, List.append_assoc, List.singleton_append, eventsOf_append_cons, List.append_assoc]
    at exec
  simpa using exec.asksAfter asksAfter_program

/-- A step that is not a step of its holder, or that is quiet, leaves a row held. -/
theorem holds_of_serves (served : state.Serves step after)
    (quiet : step.thread = owner → ∀ event, storeEvent? step.event = some event → Quiet event)
    (unswept : step.thread = owner → ∀ approvalIds, step.event.call ≠ .commitStale approvalIds)
    (holds : state.approvals.Holds owner approvalId row)
    : after.approvals.Holds owner approvalId row := by
  obtain ⟨thread, instant, call, reply⟩ := step
  unfold LifecycleState.Serves at served
  cases call with
  | policy call => exact served.2 ▸ holds
  | store call =>
      obtain ⟨approvals, answered, rfl⟩ := served
      exact answered.holds (fun own => quiet own _ rfl) holds
  | risk call => exact served.2 ▸ holds
  | selectStale now => exact served.2 ▸ holds
  | commitStale approvalIds =>
      cases reply with
      | error exn => exact served ▸ holds
      | ok =>
          obtain ⟨free, rfl⟩ := served
          refine ⟨holds.held, ?_⟩
          -- What is swept is not held by another request.
          have other : approvalId ∉ approvalIds := by
            intro member
            exact unswept (free approvalId member owner holds.held).symm approvalIds rfl
          exact (if_neg other).trans holds.present

/-- A request that selects a row for a change does not sweep. -/
theorem not_sweep_of_select (underWay : run.UnderWay) (part : past ++ [step] <+: run.trace)
    (selects : step.event.call = .store (.selectForUpdate approvalId))
    : run.request step.thread ≠ .expireStale := by
  intro sweeps
  have permitted := permitted_of_step underWay part
  rw [selects] at permitted
  rcases permitted with ⟨_, impossible | ⟨_, impossible⟩⟩ | ⟨inner, carries, _⟩
  · cases impossible
  · cases impossible
  · rw [sweeps] at carries
    cases carries

/-- A request that is reading a row still holds it as it read it. -/
theorem holds_of_reading (underWay : run.UnderWay) (reached : run.Reaches past state)
    (reading : Reading (storeEvents (eventsOf owner past)) approvalId row)
    : state.approvals.Holds owner approvalId row := by
  obtain ⟨served, part⟩ := reached
  obtain ⟨more, whole, only⟩ := reading
  obtain ⟨first, selects, rest, events, _, isSelect, tail⟩ := List.filterMap_eq_cons_iff.mp whole
  obtain ⟨earlier, selected, since, rfl, rfl, rfl, _, rfl⟩ := split_of_eventsOf events
  obtain ⟨found, _, served⟩ := served.split
  obtain ⟨locked, servedSelect, served⟩ := served.head
  have selects := eq_ofStore isSelect
  unfold LifecycleState.Serves at servedSelect
  rw [selects] at servedSelect
  obtain ⟨approvals, ⟨present, _, rfl⟩, rfl⟩ := servedSelect
  have keeps := not_sweep_of_select underWay
    (List.IsPrefix.trans ⟨since, by simp⟩ part : earlier ++ [selected] <+: run.trace)
    (congrArg Event.call selects)
  refine served.of_actions.invariant
    (fun state => state.approvals.Holds selected.thread approvalId row)
    (RowLocks.holds_lock present) ?_
  intro before action next holds ⟨answered, member⟩
  refine holds_of_serves answered ?_ ?_ holds
  · intro own event isStore
    refine only event ?_
    rw [← tail]
    exact List.mem_filterMap.mpr ⟨action.event, own ▸ event_mem_eventsOf member, isStore⟩
  · intro own approvalIds sweeps
    obtain ⟨between, others, rfl⟩ := List.append_of_mem member
    have permitted := permitted_of_step underWay
      (List.IsPrefix.trans ⟨others, by simp⟩ part
        : (earlier ++ selected :: between) ++ [action] <+: run.trace)
    rw [sweeps, own] at permitted
    exact keeps permitted

end

-----------------------------------------------------------------------------------------
-- What a step does to the rows
-----------------------------------------------------------------------------------------

/-- (Moves run past step state after) says what a step does to the rows of the approvals. -/
inductive Moves (run : LifecycleRun ι) (past : List (Stamped ι LifecycleReply))
    (step : Stamped ι LifecycleReply) (state after : LifecycleState ι)
    : Prop
  | still
    (uncommitted : ∀ approvalId columns, step.event ≠ ofStore ⟨.commit approvalId columns, .ok ()⟩)
    (same : after.approvals.rows = state.approvals.rows)
  | added (row : Approval)
    (asked : run.request step.thread = .hold row.key row.argumentsHash row.auditId)
    (stored : step.event = ofStore ⟨.insert row, .ok ()⟩) (pending : row.status = .pending)
    (ungranted : Ungranted row)
    (absent : state.approvals.rows row.approvalId = none)
    (result : after.approvals.rows = (state.approvals.put row.approvalId row).rows)
  | changed (approvalId : String) (row : Approval) (columns : ApprovalUpdate) (inner : Request)
    (committed : step.event = ofStore ⟨.commit approvalId columns, .ok ()⟩)
    (changes : Changes inner (storeEvents (eventsOf step.thread past)) approvalId row columns)
    (present : state.approvals.rows approvalId = some row)
    (result : after.approvals.rows = (state.approvals.put approvalId (row.updated columns)).rows)
  | swept (approvalIds : List String)
    (committed : step.event = ⟨.commitStale approvalIds, .ok ()⟩)
    (result : after.approvals.rows = (state.approvals.expireAll approvalIds).rows)

section

variable {run : LifecycleRun ι} {state after : LifecycleState ι}
  {past : List (Stamped ι LifecycleReply)} {step : Stamped ι LifecycleReply} {approvalId : String}
  {row later : Approval}

/-- What a step of a run does to the rows. -/
theorem moves_of_step (underWay : run.UnderWay) (reached : run.Reaches past state)
    (part : past ++ [step] <+: run.trace) (served : state.Serves step after)
    : Moves run past step state after := by
  have permitted := permitted_of_step underWay part
  obtain ⟨thread, instant, call, reply⟩ := step
  unfold LifecycleState.Serves at served
  cases call with
  | policy call => exact .still (by rintro _ _ ⟨⟩) (served.2 ▸ rfl)
  | risk call => exact .still (by rintro _ _ ⟨⟩) (served.2 ▸ rfl)
  | selectStale now => exact .still (by rintro _ _ ⟨⟩) (served.2 ▸ rfl)
  | commitStale approvalIds =>
      cases reply with
      | ok => exact .swept approvalIds rfl (served.2 ▸ rfl)
      | error exn => exact .still (by rintro _ _ ⟨⟩) (served ▸ rfl)
  | store call =>
      obtain ⟨approvals, answered, rfl⟩ := served
      unfold ApprovalTable.Serves at answered
      cases call with
      | time => exact .still (by rintro _ _ ⟨⟩) (answered.2 ▸ rfl)
      | uuid => exact .still (by rintro _ _ ⟨⟩) (answered ▸ rfl)
      | write entry => exact .still (by rintro _ _ ⟨⟩) (answered ▸ rfl)
      | close => exact .still (by rintro _ _ ⟨⟩) (answered ▸ rfl)
      | selectForUpdate other =>
          rcases reply with exn | none | row
          · exact .still (by rintro _ _ ⟨⟩) (answered ▸ rfl)
          · exact .still (by rintro _ _ ⟨⟩) (answered.2 ▸ rfl)
          · exact .still (by rintro _ _ ⟨⟩) (answered.2.2 ▸ rfl)
      | insert row =>
          cases reply with
          | error exn => exact .still (by rintro _ _ ⟨⟩) (answered ▸ rfl)
          | ok =>
              rcases permitted with ⟨_, impossible | ⟨_, impossible⟩⟩ | ⟨inner, carries, permits⟩
              · cases impossible
              · cases impossible
              · obtain ⟨key, hash, auditId, fresh, now, rfl, _, rfl⟩ := permits
                refine .added _ ?_ rfl rfl ⟨rfl, rfl⟩ answered.1 (answered.2 ▸ rfl)
                cases asked : run.request thread with
                | hold key hash auditId =>
                    rw [asked] at carries
                    cases carries
                    rfl
                | _ =>
                    rw [asked] at carries
                    cases carries
      | commit approvalId columns =>
          cases reply with
          | error exn => exact .still (by rintro _ _ ⟨⟩) (answered ▸ rfl)
          | ok =>
              rcases permitted with ⟨_, impossible | ⟨_, impossible⟩⟩ | ⟨inner, carries, permits⟩
              · cases impossible
              · cases impossible
              · obtain ⟨row, reading, changes⟩ := permits
                obtain ⟨_, current, present, rfl⟩ := answered
                have same := (holds_of_reading underWay reached reading).present
                cases present.symm.trans same
                exact .changed approvalId _ columns inner rfl changes same rfl

/-- Where a row of the state after a step comes from. -/
theorem Moves.before (moves : Moves run past step state after)
    (ungranted : ∀ approvalId row,
      state.approvals.rows approvalId = some row → row.status = .pending → Ungranted row)
    (present : after.approvals.rows approvalId = some later)
    : (∃ row,
        state.approvals.rows approvalId = some row
        ∧ Advances row later
        ∧ (row = later ∨ later.status ≠ .pending))
      ∨ (run.request step.thread = .hold later.key later.argumentsHash later.auditId
        ∧ step.event = ofStore ⟨.insert later, .ok ()⟩
        ∧ later.approvalId = approvalId
        ∧ Ungranted later) := by
  cases moves with
  | still _ same => exact Or.inl ⟨later, same ▸ present, .refl _, Or.inl rfl⟩
  | added row asked stored pending fresh absent result =>
      rw [result] at present
      by_cases same : approvalId = row.approvalId
      · rw [same, RowLocks.rows_put_self] at present
        cases present
        exact Or.inr ⟨asked, stored, same.symm, fresh⟩
      · rw [RowLocks.rows_put_other same] at present
        exact Or.inl ⟨later, present, .refl _, Or.inl rfl⟩
  | changed changedId row columns inner committed changes found result =>
      rw [result] at present
      by_cases same : approvalId = changedId
      · subst same
        rw [RowLocks.rows_put_self] at present
        cases present
        obtain ⟨advances, settled⟩ := changes.advances (ungranted _ _ found)
        exact Or.inl ⟨row, found, advances, Or.inr settled⟩
      · rw [RowLocks.rows_put_other same] at present
        exact Or.inl ⟨later, present, .refl _, Or.inl rfl⟩
  | swept approvalIds committed result =>
      rw [result] at present
      unfold ApprovalTable.expireAll at present
      dsimp only at present
      split at present
      · obtain ⟨row, found, rfl⟩ := Option.map_eq_some_iff.mp present
        exact Or.inl ⟨row, found, advances_expire row, Or.inr (by simp [Approval.updated])⟩
      · exact Or.inl ⟨later, present, .refl _, Or.inl rfl⟩

/-- What a step makes of a row. -/
theorem Moves.onward (moves : Moves run past step state after)
    (ungranted : ∀ approvalId row,
      state.approvals.rows approvalId = some row → row.status = .pending → Ungranted row)
    (present : state.approvals.rows approvalId = some row)
    : ∃ later, after.approvals.rows approvalId = some later ∧ Advances row later := by
  cases moves with
  | still _ same => exact ⟨row, same ▸ present, .refl row⟩
  | added fresh _ _ _ _ absent result =>
      refine ⟨row, ?_, .refl row⟩
      rw [result, RowLocks.rows_put_other]
      · exact present
      · rintro rfl
        rw [present] at absent
        cases absent
  | changed changedId old columns inner committed changes found result =>
      rw [result]
      by_cases same : approvalId = changedId
      · subst same
        cases found.symm.trans present
        exact ⟨_, RowLocks.rows_put_self, (changes.advances (ungranted _ _ found)).1⟩
      · exact ⟨row, (RowLocks.rows_put_other same).trans present, .refl row⟩
  | swept approvalIds committed result =>
      rw [result]
      unfold ApprovalTable.expireAll
      dsimp only
      split
      · exact ⟨_, by rw [present]; rfl, advances_expire row⟩
      · exact ⟨row, present, .refl row⟩

end

-----------------------------------------------------------------------------------------
-- What holds in every state
-----------------------------------------------------------------------------------------

/-- (run.Creates step approvalId row) means that a step stored a pending approval for the call that a
row is for.
-/
def Creates (run : LifecycleRun ι) (step : Stamped ι LifecycleReply) (approvalId : String)
    (row : Approval)
    : Prop :=
  run.request step.thread = .hold row.key row.argumentsHash row.auditId
  ∧ ∃ fresh : Approval,
      step.event = ofStore ⟨.insert fresh, .ok ()⟩
      ∧ fresh.approvalId = approvalId
      ∧ fresh.key = row.key
      ∧ fresh.argumentsHash = row.argumentsHash
      ∧ fresh.expiresAt = row.expiresAt

/-- A step committed the grant of an approval. -/
def Grants (step : Stamped ι LifecycleReply) (approvalId : String) : Prop :=
  ∃ approvedBy approvedAt,
    step.event
      = ofStore ⟨.commit approvalId {
          status := some .approved
          approvedBy := some approvedBy
          approvedAt := some approvedAt
        }, .ok ()⟩

/-- The invariant of a run: every row was created, none is granted while it is pending, and what was
granted is not pending any more.
-/
structure Kept (run : LifecycleRun ι) (past : List (Stamped ι LifecycleReply))
    (state : LifecycleState ι)
    : Prop where
  created : ∀ approvalId row,
    state.approvals.rows approvalId = some row → ∃ step ∈ past, run.Creates step approvalId row
  ungranted : ∀ approvalId row,
    state.approvals.rows approvalId = some row → row.status = .pending → Ungranted row
  granted : ∀ step ∈ past, ∀ approvalId,
    Grants step approvalId
    → ∃ row, state.approvals.rows approvalId = some row ∧ row.status ≠ .pending

section

variable {run : LifecycleRun ι} {state after final : LifecycleState ι}
  {past before middle rest : List (Stamped ι LifecycleReply)} {step one two : Stamped ι LifecycleReply}
  {approvalId : String} {row later : Approval}

omit [DecidableEq ι] in
theorem Creates.advances (creates : run.Creates step approvalId row) (advances : Advances row later)
    : run.Creates step approvalId later := by
  unfold Creates
  rw [advances.key, advances.argumentsHash, advances.auditId, advances.expiresAt]
  exact creates

/-- Every step keeps the invariant. -/
theorem Kept.next (kept : run.Kept past state) (moves : Moves run past step state after)
    : run.Kept (past ++ [step]) after where
  created approvalId later present := by
    rcases moves.before kept.ungranted present with ⟨row, found, advances, _⟩
        | ⟨asked, stored, same, _⟩
    · obtain ⟨created, member, creates⟩ := kept.created approvalId row found
      exact ⟨created, List.mem_append_left _ member, creates.advances advances⟩
    · exact ⟨step, by simp, asked, later, stored, same, rfl, rfl, rfl⟩
  ungranted approvalId later present pending := by
    rcases moves.before kept.ungranted present with ⟨row, found, _, rfl | settled⟩
        | ⟨_, _, _, fresh⟩
    · exact kept.ungranted approvalId row found pending
    · exact absurd pending settled
    · exact fresh
  granted grant member approvalId grants := by
    rcases List.mem_append.mp member with early | last
    · obtain ⟨row, found, settled⟩ := kept.granted grant early approvalId grants
      obtain ⟨later, present, advances⟩ := moves.onward kept.ungranted found
      exact ⟨later, present, advances.not_pending settled⟩
    · cases List.mem_singleton.mp last
      obtain ⟨approvedBy, approvedAt, committed⟩ := grants
      cases moves with
      | changed changedId row columns inner same changes found result =>
          rw [committed] at same
          cases same
          refine ⟨_, by rw [result, RowLocks.rows_put_self], ?_⟩
          simp [Approval.updated]
      | added row asked stored =>
          rw [committed] at stored
          cases stored
      | swept approvalIds same =>
          rw [committed] at same
          cases same
      | still uncommitted => exact absurd committed (uncommitted _ _)

theorem kept_of_reached (underWay : run.UnderWay) (reached : run.Reaches past state)
    : run.Kept past state := by
  obtain ⟨served, part⟩ := reached
  induction served with
  | nil =>
      refine ⟨?_, ?_, by simp⟩
      · intro approvalId row impossible
        cases impossible
      · intro approvalId row impossible
        cases impossible
  | concat earlier last ih =>
      have before := (List.prefix_append _ _).trans part
      exact (ih before).next (moves_of_step underWay ⟨earlier, before⟩ part last)

/-- A part of a run goes through a state. -/
theorem Reaches.earlier (reached : run.Reaches (before ++ middle) state)
    : ∃ between, run.Reaches before between := by
  obtain ⟨between, early, _⟩ := reached.served.split
  exact ⟨between, early, (List.prefix_append _ _).trans reached.part⟩

/-- In every run, over any part of it: a row is never lost, and only advances. -/
theorem approvals_only_advance (underWay : run.UnderWay) (reached : run.Reaches past state)
    (onward : Machine.Run LifecycleState.Serves state middle final)
    (part : past ++ middle <+: run.trace)
    (present : state.approvals.rows approvalId = some row)
    : ∃ later, final.approvals.rows approvalId = some later ∧ Advances row later := by
  induction onward with
  | nil => exact ⟨row, present, .refl row⟩
  | @concat earlier step state final served last ih =>
      have whole : (past ++ earlier) ++ [step] <+: run.trace := by simpa using part
      have before := (List.prefix_append _ _).trans whole
      obtain ⟨later, found, advances⟩ := ih before
      have there : run.Reaches (past ++ earlier) state := ⟨reached.served.append served, before⟩
      obtain ⟨newest, here, further⟩ := (moves_of_step underWay there whole last).onward
        (kept_of_reached underWay there).ungranted found
      exact ⟨newest, here, advances.trans further⟩

/-- No approval is granted after it was. -/
theorem not_granted_again (underWay : run.UnderWay) (reached : run.Reaches past state)
    (part : past ++ [two] <+: run.trace) (served : state.Serves two after) (member : one ∈ past)
    (first : Grants one approvalId) (second : Grants two approvalId)
    : False := by
  obtain ⟨row, present, settled⟩ :=
    (kept_of_reached underWay reached).granted one member approvalId first
  obtain ⟨approvedBy, approvedAt, committed⟩ := second
  cases moves_of_step underWay reached part served with
  | changed changedId other columns inner same changes found result =>
      rw [committed] at same
      cases same
      cases changes with
      | grant asked pending =>
          cases found.symm.trans present
          exact settled pending
  | added other asked stored =>
      rw [committed] at stored
      cases stored
  | swept approvalIds same =>
      rw [committed] at same
      cases same
  | still uncommitted => exact uncommitted _ _ committed

/-- A run before one of its steps. -/
theorem reaches_before (served : Machine.Run LifecycleState.Serves run.initial run.trace final)
    (split : run.trace = past ++ step :: rest)
    : ∃ state after,
        run.Reaches past state ∧ past ++ [step] <+: run.trace ∧ state.Serves step after := by
  rw [split] at served
  obtain ⟨state, early, served⟩ := served.split
  obtain ⟨after, here, _⟩ := served.head
  exact ⟨state, after, ⟨early, split ▸ List.prefix_append _ _⟩, ⟨rest, by simp [split]⟩, here⟩

/-- Two grants of one approval are one. -/
theorem grants_once (underWay : run.UnderWay)
    (served : Machine.Run LifecycleState.Serves run.initial run.trace final)
    (inTrace : one ∈ run.trace) (alsoInTrace : two ∈ run.trace) (first : Grants one approvalId)
    (second : Grants two approvalId)
    : one = two := by
  by_contra differ
  have order {early late : Stamped ι LifecycleReply} (grantsEarly : Grants early approvalId)
      (grantsLate : Grants late approvalId)
      (split : ∃ before middle after, run.trace = before ++ early :: (middle ++ late :: after))
      : False := by
    obtain ⟨before, middle, after, split⟩ := split
    have whole : run.trace = (before ++ early :: middle) ++ late :: after := by simp [split]
    obtain ⟨state, next, reached, part, here⟩ := reaches_before served whole
    exact not_granted_again underWay reached part here (by simp) grantsEarly grantsLate
  rcases before_or_after inTrace alsoInTrace differ with split | split
  · exact order first second split
  · exact order second first split

end

-----------------------------------------------------------------------------------------
-- Steps of calibration
-----------------------------------------------------------------------------------------

/-- The approval whose grant takes a step of calibration, if a step of the run is one. -/
def calibrates (run : LifecycleRun ι) (name : String) (step : Stamped ι LifecycleReply)
    : Option String :=
  match step.event.call, run.request step.thread with
  | .risk (.incrBy other _), .approveCall _ approvalId =>
      if other = name then some approvalId else none
  | _, _ => none

/-- (run.Earned past name approvalId) means that an administrator granted an approval in time, which
was created for a call whose offset is stored under a name; the grant was recorded before it was
committed.
-/
def Earned (run : LifecycleRun ι) (past : List (Stamped ι LifecycleReply)) (name approvalId : String)
    : Prop :=
  ∃ (granting : Granting) (created granted : Stamped ι LifecycleReply),
    granting.Proper
    ∧ [created, granted].Sublist past
    ∧ run.Creates created approvalId granting.row
    ∧ Risk.decayKey granting.row.key = name
    ∧ run.request granted.thread = .approveCall (some granting.apiKey) approvalId
    ∧ granting.events approvalId <+: eventsOf granted.thread past
    ∧ Grants granted approvalId

section

variable {run : LifecycleRun ι} {state after final : LifecycleState ι}
  {past before middle rest : List (Stamped ι LifecycleReply)} {step : Stamped ι LifecycleReply}
  {name approvalId : String}

/-- A step of calibration comes after a grant by the same request, which has done nothing else. -/
theorem earned_of_calibrates (underWay : run.UnderWay) (reached : run.Reaches past state)
    (part : past ++ [step] <+: run.trace) (calibrates : run.calibrates name step = some approvalId)
    : run.Earned past name approvalId
      ∧ ∃ granted ∈ past,
          granted.thread = step.thread
          ∧ Grants granted approvalId
          ∧ ∃ granting : Granting, eventsOf step.thread past = granting.events approvalId := by
  have permitted := permitted_of_step underWay part
  unfold LifecycleRun.calibrates at calibrates
  split at calibrates
  · next other amount apiKey asked call request =>
      split at calibrates
      · next same =>
          cases calibrates
          rw [call] at permitted
          obtain ⟨granting, id, proper, asks, events, isKey, _⟩ := permitted
          cases request.symm.trans asks
          have listed : eventsOf step.thread past
              = ([⟨.policy .engine, granting.engine⟩, ⟨.policy .engine, granting.current⟩]
                ++ ((grantEvents approvalId granting.approvedBy granting.row granting.now
                  granting.approvedAt granting.seq).take 4).map ofStore)
                ++ ofStore ⟨.commit approvalId {
                    status := some .approved
                    approvedBy := some granting.approvedBy
                    approvedAt := some granting.approvedAt
                  }, .ok ()⟩
                :: [ofStore ⟨.close, ()⟩] :=
            events
          obtain ⟨early, granted, late, rfl, ofThread, isGrant, first, _⟩ := split_of_eventsOf listed
          obtain ⟨there, reachedGrant⟩ := reached.earlier
          have reading
              : Reading (storeEvents (eventsOf step.thread early)) approvalId granting.row := by
            rw [first]
            exact ⟨[_, _, _], rfl, by simp [Quiet]⟩
          have present := (holds_of_reading underWay reachedGrant reading).present
          obtain ⟨created, member, creates⟩ :=
            (kept_of_reached underWay reachedGrant).created _ _ present
          have grants : Grants granted approvalId := ⟨_, _, isGrant⟩
          refine ⟨⟨granting, created, granted, proper, ?_, creates, isKey.symm.trans same,
            by rw [ofThread, asks], by rw [ofThread, events], grants⟩,
            granted, by simp, ofThread, grants, granting, events⟩
          exact (List.singleton_sublist.mpr member).append
            (List.singleton_sublist.mpr List.mem_cons_self)
      · cases calibrates
  · cases calibrates

/-- The approvals whose grants took the steps of calibration for a name, one for each step. -/
def calibrated (run : LifecycleRun ι) (name : String) (past : List (Stamped ι LifecycleReply))
    : List String :=
  past.filterMap (run.calibrates name)

omit [DecidableEq ι] in
theorem calibrated_concat (name : String) (past : List (Stamped ι LifecycleReply))
    (step : Stamped ι LifecycleReply)
    : run.calibrated name (past ++ [step])
      = run.calibrated name past ++ (run.calibrates name step).toList := by
  rw [calibrated, List.filterMap_append]
  cases same : run.calibrates name step <;> simp [calibrated, same]

/-- What was earned in a part of a run was earned in all of it. -/
theorem Earned.more (earned : run.Earned past name approvalId)
    (later : List (Stamped ι LifecycleReply))
    : run.Earned (past ++ later) name approvalId := by
  obtain ⟨granting, created, granted, proper, inPast, creates, isKey, asks, events, grants⟩ := earned
  refine ⟨granting, created, granted, proper, inPast.trans (List.sublist_append_left _ _), creates,
    isKey, asks, ?_, grants⟩
  rw [eventsOf_append]
  exact events.trans (List.prefix_append _ _)

/-- A grant asks for no command of Redis. -/
theorem not_calibrates_of_granting {granting : Granting} {event : Event LifecycleReply}
    {call : Risk.RiskCall} (member : event ∈ granting.events approvalId)
    : event.call ≠ .risk call := by
  intro same
  simp only [Granting.events, grantEvents, List.map_cons, List.map_nil, List.cons_append,
    List.nil_append, List.mem_cons, List.not_mem_nil, or_false, ofStore] at member
  rcases member with rfl | rfl | rfl | rfl | rfl | rfl | rfl | rfl <;> cases same

/-- The steps of calibration for a name are earned by as many different approvals, by induction on the
run.
-/
theorem calibrated_earned (underWay : run.UnderWay)
    (served : Machine.Run LifecycleState.Serves run.initial run.trace final) (name : String)
    (split : run.trace = past ++ rest)
    : (run.calibrated name past).Nodup
      ∧ ∀ approvalId ∈ run.calibrated name past, run.Earned past name approvalId := by
  induction past using List.reverseRecOn generalizing rest with
  | nil => simp [calibrated]
  | append_singleton past step ih =>
      have whole : run.trace = past ++ step :: rest := by simpa using split
      obtain ⟨distinct, each⟩ := ih whole
      obtain ⟨state, after, reached, part, here⟩ := reaches_before served whole
      rw [calibrated_concat]
      cases calibration : run.calibrates name step with
      | none =>
          refine ⟨by simpa using distinct, fun approvalId member => (each approvalId ?_).more _⟩
          simpa using member
      | some newest =>
          obtain ⟨earned, granted, inPast, ofThread, grants, granting, events⟩ :=
            earned_of_calibrates underWay reached part calibration
          refine ⟨List.nodup_append.mpr ⟨distinct, by simp, ?_⟩, fun approvalId member => ?_⟩
          · -- An earlier step for the same approval would be one of the same request.
            intro approvalId member other last
            obtain rfl := by simpa using last
            rintro rfl
            obtain ⟨earlier, among, again⟩ := List.mem_filterMap.mp member
            obtain ⟨before, between, rfl⟩ := List.append_of_mem among
            have first : run.trace = before ++ earlier :: (between ++ step :: rest) := by
              simp [whole]
            obtain ⟨there, _, reachedFirst, partFirst, _⟩ := reaches_before served first
            obtain ⟨_, other, inBefore, ofEarlier, grantsToo, _⟩ :=
              earned_of_calibrates underWay reachedFirst partFirst again
            have same := grants_once underWay served
              (whole ▸ List.mem_append_left _ inPast)
              (whole ▸ List.mem_append_left _ (List.mem_append_left _ inBefore)) grants grantsToo
            have own : earlier.event ∈ eventsOf step.thread (before ++ earlier :: between) := by
              rw [← ofThread, same, ofEarlier]
              exact event_mem_eventsOf among
            rw [events] at own
            unfold LifecycleRun.calibrates at again
            split at again
            · next call _ => exact not_calibrates_of_granting own call
            · cases again
          · rcases List.mem_append.mp member with early | last
            · exact (each approvalId early).more _
            · obtain rfl := by simpa using last
              exact earned.more _

/-- The stored offset of a call is at most one step for each of these approvals, by induction on the
run.
-/
theorem value_le_calibrated (underWay : run.UnderWay) (reached : run.Reaches past state)
    (key : CallKey)
    : 0 ≤ (state.redis (Risk.decayKey key)).value
      ∧ (state.redis (Risk.decayKey key)).value
        ≤ run.config.risk.riskDecayStep * (run.calibrated (Risk.decayKey key) past).length := by
  obtain ⟨served, part⟩ := reached
  induction served with
  | nil => exact ⟨le_rfl, mul_nonneg (Int.natCast_nonneg _) (Int.natCast_nonneg _)⟩
  | @concat past step state final earlier last ih =>
      have before := (List.prefix_append _ _).trans part
      obtain ⟨least, most⟩ := ih before
      have permitted := permitted_of_step underWay part
      rw [calibrated_concat, List.length_append]
      -- What leaves the offset as it is needs no further approval.
      have unchanged (same : final.redis (Risk.decayKey key) = state.redis (Risk.decayKey key))
          : 0 ≤ (final.redis (Risk.decayKey key)).value
            ∧ (final.redis (Risk.decayKey key)).value
              ≤ run.config.risk.riskDecayStep
                * ((run.calibrated (Risk.decayKey key) past).length
                  + (run.calibrates (Risk.decayKey key) step).toList.length : Nat) := by
        rw [same]
        refine ⟨least, most.trans ?_⟩
        exact_mod_cast Nat.mul_le_mul_left _ (Nat.le_add_right _ _)
      obtain ⟨thread, instant, call, reply⟩ := step
      unfold LifecycleState.Serves at last
      cases call with
      | policy call => exact unchanged (by rw [last.2])
      | selectStale now => exact unchanged (by rw [last.2])
      | store call =>
          obtain ⟨approvals, _, rfl⟩ := last
          exact unchanged rfl
      | commitStale approvalIds =>
          cases reply with
          | ok => exact unchanged (by rw [last.2])
          | error exn => exact unchanged (by rw [last])
      | risk call =>
          obtain ⟨_, rfl⟩ := last
          have other {name : String} {counter : WindowCounter.Counter}
              {reach : WindowCounter.Reach} (differs : Risk.decayKey key ≠ name)
              : (if reach = .refused then state.redis else state.redis.set name counter)
                  (Risk.decayKey key)
                = state.redis (Risk.decayKey key) := by
            split
            · rfl
            · exact if_neg differs
          cases call with
          | incr name =>
              exact unchanged (other (Ne.symm (permitted key)))
          | incrBy name amount =>
              obtain ⟨granting, approvalId, _, asks, _, _, rfl⟩ := permitted
              by_cases same : name = Risk.decayKey key
              · subst same
                have calibration : run.calibrates (Risk.decayKey key)
                    ⟨thread, instant, .risk (.incrBy (Risk.decayKey key) _), reply⟩
                    = some approvalId := by
                  simp [calibrates, asks]
                rw [calibration] at unchanged ⊢
                dsimp only [Risk.Redis.effect] at unchanged ⊢
                split
                · next refused =>
                    rw [if_pos refused] at unchanged
                    exact unchanged rfl
                · obtain ⟨above, below⟩ := WindowCounter.Counter.live_le_value instant least
                  rw [Risk.Redis.set_same, WindowCounter.Counter.value_incrBy]
                  simp only [Option.toList_some, List.length_singleton]
                  push_cast
                  rw [mul_add, mul_one]
                  exact ⟨by linarith [Int.natCast_nonneg run.config.risk.riskDecayStep], by linarith⟩
              · exact unchanged (other (Ne.symm same))
          | expire name seconds =>
              by_cases same : name = Risk.decayKey key
              · subst same
                dsimp only [Risk.Redis.effect] at unchanged ⊢
                split
                · next refused =>
                    rw [if_pos refused] at unchanged
                    exact unchanged rfl
                · obtain ⟨above, below⟩ := WindowCounter.Counter.live_le_value instant least
                  rw [Risk.Redis.set_same, WindowCounter.Counter.value_expire]
                  have none : run.calibrates (Risk.decayKey key)
                      ⟨thread, instant, .risk (.expire (Risk.decayKey key) seconds), reply⟩ = none :=
                    rfl
                  rw [none]
                  exact ⟨above, below.trans most⟩
              · exact unchanged (other (Ne.symm same))
          | _ => exact unchanged rfl

/-- In every run, whatever is held, granted, retried, expired, scored and activated at the same time
and whichever requests fail: the offset that is stored for a call is at most one step for each of as
many different approvals, which were created for it and granted in time by administrators.
-/
theorem calibration_earned (underWay : run.UnderWay)
    (served : Machine.Run LifecycleState.Serves run.initial run.trace final) (key : CallKey)
    (now : Rat)
    : ∃ approvals : List String,
        approvals.Nodup
        ∧ (∀ approvalId ∈ approvals, run.Earned run.trace (Risk.decayKey key) approvalId)
        ∧ ((final.redis (Risk.decayKey key)).live now).getD 0
          ≤ run.config.risk.riskDecayStep * approvals.length := by
  obtain ⟨distinct, each⟩ := calibrated_earned underWay served (Risk.decayKey key)
    (List.append_nil run.trace).symm
  obtain ⟨least, most⟩ := value_le_calibrated underWay ⟨served, List.prefix_rfl⟩ key
  refine ⟨_, distinct, each, ?_⟩
  exact (WindowCounter.Counter.live_le_value now least).2.trans most

end

-----------------------------------------------------------------------------------------
-- A call that is held and granted
-----------------------------------------------------------------------------------------

/-- A policy with one administrator. -/
def adminPolicy : PolicyEngine where
  policy := {
    version := 1
    identities := [
      { id := "admin", apiKeyHash := some ("sha256:" ++ Sha256.hexdigest "key"), admin := true }
    ]
  }

theorem identityForKeyHash_adminPolicy
    : adminPolicy.identityForKeyHash ("sha256:" ++ Sha256.hexdigest "key") = some "admin" := by
  unfold PolicyEngine.identityForKeyHash adminPolicy
  generalize Sha256.hexdigest "key" = digest
  simp [Dict.ofPairs, Dict.update, Dict.set]

open ApprovalRun (grantOf heldId heldRow)

open PolicyVersions (VersionReply requireAdmin)

/-- One session of the approvals within a run. -/
def ofSession (step : Stamped ι ApprovalReply) : Stamped ι LifecycleReply where
  thread := step.thread
  instant := step.instant
  event := ofStore step.event

/-- What the table answers on its own it answers within a run, by induction on the steps. -/
theorem run_ofSession {table after : ApprovalTable ι} {steps : List (Stamped ι ApprovalReply)}
    (run : Machine.Run ApprovalTable.Serves table steps after) (state : LifecycleState ι)
    : Machine.Run LifecycleState.Serves { state with approvals := table } (steps.map ofSession)
        { state with approvals := after } := by
  induction run with
  | nil => exact .nil
  | concat _ last ih =>
      rw [List.map_append]
      exact .concat ih ⟨_, last, rfl⟩

/-- The session of a call that is held. -/
def holding : List (Stamped Bool ApprovalReply) :=
  [
    ⟨false, 100, ⟨.uuid, heldId⟩⟩,
    ⟨false, 100, ⟨.time, 100⟩⟩,
    ⟨false, 100, ⟨.insert heldRow, .ok ()⟩⟩,
    ⟨false, 100, ⟨.close, ()⟩⟩
  ]

/-- The session of its grant. -/
def granting : List (Stamped Bool ApprovalReply) :=
  (grantEvents heldId.text "admin" heldRow 200 200 2).map (Stamped.mk true 200)

/-- A call is held, and an administrator grants it. -/
def heldThenGranted : LifecycleRun Bool where
  config := {
    risk := Risk.onceAMinute
    stdlib := Risk.quoting
    reader := PolicyVersions.numbered
  }
  start := {
    engine := adminPolicy
    versions _ := none
    snapshots _ := none
    activations := []
  }
  request
    | false => .hold heldRow.key "hash" 1
    | true => .approveCall (some "key") heldId.text
  trace := holding.map ofSession
    ++ ([⟨true, 200, ⟨.policy .engine, adminPolicy⟩⟩, ⟨true, 200, ⟨.policy .engine, adminPolicy⟩⟩]
    ++ (granting.map ofSession
    ++ [
      ⟨true, 200, ⟨.risk (.incrBy (Risk.decayKey heldRow.key) Risk.onceAMinute.riskDecayStep),
        .applied ()⟩⟩,
      ⟨true, 200, ⟨.risk (.expire (Risk.decayKey heldRow.key) Risk.onceAMinute.riskDecayTtlSeconds),
        .applied ()⟩⟩,
      ⟨true, 200, ⟨.policy .engine, adminPolicy⟩⟩
    ]))

theorem exec_requireAdmin_adminPolicy
    : (requireAdmin (some "key")).run.Exec [⟨.engine, adminPolicy⟩, ⟨.engine, adminPolicy⟩]
        (.ok "admin") := by
  have resolved : (PolicyVersions.resolveIdentity (some "key") adminPolicy).run.Exec []
      (.ok (some "admin")) := by
    unfold PolicyVersions.resolveIdentity
    split
    · next impossible => cases impossible
    · next impossible => simp at impossible
    · next same =>
        cases same
        rw [identityForKeyHash_adminPolicy]
        exact .done _
  refine .ask (Coroutine.exec_bind_ok_iff.mpr ⟨[], _, _, rfl, resolved, ?_⟩)
  exact .ask (.done _)

theorem underWay_heldThenGranted : heldThenGranted.UnderWay := by
  intro thread
  cases thread with
  | false => exact ⟨[], _, .ask (.ask (.ask (.ask (.done _))))⟩
  | true =>
      refine ⟨[], true, ?_⟩
      have inTime : ¬ heldRow.expiresAt < 200 := by decide +kernel
      have granted := @exec_approve_of_pending heldId.text heldRow "admin" 200 200 2 rfl inTime
      have decayed : (Risk.applyDecay Risk.onceAMinute heldRow.key).run.Exec
          [
            ⟨.incrBy (Risk.decayKey heldRow.key) Risk.onceAMinute.riskDecayStep, .applied ()⟩,
            ⟨.expire (Risk.decayKey heldRow.key) Risk.onceAMinute.riskDecayTtlSeconds, .applied ()⟩
          ]
          (.ok ()) :=
        .ask (.ask (.done _))
      have passed : (onRedis (Risk.applyDecay Risk.onceAMinute heldRow.key)).run.Exec
          (List.map ofCommand _) (.ok ()) :=
        Program.exec_expand_iff.mpr ⟨_, decayed, Expands.map (fun _ => .ask (.done _)) _⟩
      have body : (Approvals.approveCall Risk.onceAMinute (some "key") heldId.text).run.Exec
          (eventsOf true heldThenGranted.trace) (.ok _) :=
        Coroutine.exec_bind_ok_iff.mpr ⟨_, _, _, rfl,
          Program.exec_expand_iff.mpr
            ⟨_, exec_requireAdmin_adminPolicy, Expands.map (fun _ => .ask (.done _)) _⟩,
          Coroutine.exec_bind_ok_iff.mpr ⟨_, _, _, rfl,
            Coroutine.exec_mapStop_ok_iff.mpr
              (Program.exec_expand_iff.mpr ⟨_, granted, Expands.map (fun _ => .ask (.done _)) _⟩),
            Coroutine.exec_bind_ok_iff.mpr ⟨_, _, _, rfl, Coroutine.exec_mapStop_ok_iff.mpr passed,
              .ask (.done _)⟩⟩⟩
      exact Program.exec_bind_iff.mpr ⟨_, [], _, by simp, body, .done _⟩

/-- The part of the run after the call is held. -/
def granted : List (Stamped Bool LifecycleReply) :=
  heldThenGranted.trace.drop 4

theorem served_heldThenGranted
    : ∃ held final,
        Machine.Run LifecycleState.Serves heldThenGranted.initial (holding.map ofSession) held
        ∧ Machine.Run LifecycleState.Serves held granted final
        ∧ held.approvals.rows heldId.text = some heldRow
        ∧ ((final.redis (Risk.decayKey heldRow.key)).live 300) = some 5 := by
  have stored : (RowLocks.empty.put heldId.text heldRow : ApprovalTable Bool).rows heldId.text
      = some heldRow :=
    RowLocks.rows_put_self
  have unlocked : ((RowLocks.empty.put heldId.text heldRow : ApprovalTable Bool).release false).Free
      true heldId.text := by
    refine RowLocks.free_release (fun _ impossible => ?_)
    cases impossible
  have first : Machine.Run ApprovalTable.Serves RowLocks.empty holding
      ((RowLocks.empty.put heldId.text heldRow : ApprovalTable Bool).release false) :=
    .cons rfl (.cons ⟨rfl, rfl⟩ (.cons ⟨rfl, rfl⟩ (.cons rfl .nil)))
  obtain ⟨granted, second, _, _⟩ :=
    ApprovalRun.run_session [
      ⟨true, 200, ⟨.time, 200⟩⟩,
      ⟨true, 200, ⟨.time, 200⟩⟩,
      ⟨true, 200, ⟨.write (ApprovalStore.approvedEntry heldRow.key heldId.text "admin"), .ok 2⟩⟩
    ] stored unlocked (by simp [ApprovalTable.Serves])
  refine ⟨_, _, run_ofSession first heldThenGranted.initial, .cons ⟨rfl, rfl⟩ (.cons ⟨rfl, rfl⟩
    ((run_ofSession second heldThenGranted.initial).append (.cons ⟨trivial, rfl⟩
      (.cons ⟨trivial, rfl⟩ (.cons ⟨rfl, rfl⟩ .nil))))), stored, ?_⟩
  simp [Risk.Redis.effect, Answer.reach, Risk.Redis.set, WindowCounter.Counter.incrBy,
    WindowCounter.Counter.live, WindowCounter.Counter.expire, initial, Risk.onceAMinute]
  norm_num

/-- Witness: the held call goes on to be granted. -/
theorem held_call_advances
    : ∃ held final later,
        Machine.Run LifecycleState.Serves held granted final
        ∧ held.approvals.rows heldId.text = some heldRow
        ∧ final.approvals.rows heldId.text = some later
        ∧ Advances heldRow later := by
  obtain ⟨held, final, first, second, present, _⟩ := served_heldThenGranted
  obtain ⟨later, found, advances⟩ := approvals_only_advance underWay_heldThenGranted
    ⟨first, List.prefix_append _ _⟩ second List.prefix_rfl present
  exact ⟨held, final, later, second, present, found, advances⟩

/-- Witness: one grant earns one step. -/
theorem granted_call_calibrates
    : ∃ final,
        ((final : LifecycleState Bool).redis (Risk.decayKey heldRow.key)).live 300 = some 5
        ∧ ∃ approvals : List String,
            approvals.Nodup
            ∧ (∀ approvalId ∈ approvals,
              heldThenGranted.Earned heldThenGranted.trace (Risk.decayKey heldRow.key) approvalId)
            ∧ ((final.redis (Risk.decayKey heldRow.key)).live 300).getD 0
              ≤ heldThenGranted.config.risk.riskDecayStep * approvals.length := by
  obtain ⟨held, final, first, second, _, stored⟩ := served_heldThenGranted
  exact ⟨final, stored,
    calibration_earned underWay_heldThenGranted (first.append second) heldRow.key 300⟩

end LifecycleRun

end SecureMcp
