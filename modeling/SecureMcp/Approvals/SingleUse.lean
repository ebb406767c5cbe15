import Mathlib.Tactic.NormNum
import SecureMcp.Approvals.Store

/-! An approval is redeemed at most once, for the call that it was created for, after it was granted
and before it expires. A session changes a row only as it read it under the row's lock, and not
after a failure.
-/

namespace SecureMcp

open Interaction

namespace Approvals

open StepUp (UuidHex)

-----------------------------------------------------------------------------------------
-- What a call of the store asks
-----------------------------------------------------------------------------------------

/-- An event that neither fails nor ends a session's lock. -/
def Quiet : Event ApprovalReply → Prop
  | ⟨.time, _⟩ | ⟨.write _, .ok _⟩ => True
  | _ => False

/-- (Reading past approvalId row) means that a session has read a row, and that it has neither
failed nor ended since.
-/
def Reading (past : List (Event ApprovalReply)) (approvalId : String) (row : Approval) : Prop :=
  ∃ more,
    past = ⟨.selectForUpdate approvalId, .ok (some row)⟩ :: more ∧ ∀ event ∈ more, Quiet event

/-- The changes that a request makes to a row that it has read, and when. -/
inductive Changes (request : Request) (past : List (Event ApprovalReply)) (approvalId : String)
    (row : Approval)
    : ApprovalUpdate → Prop
  | lapse (pending : row.status = .pending)
    : Changes request past approvalId row { status := some .expired }
  | grant {approvedBy : String} {approvedAt : Rat} (asked : request = .approve approvalId approvedBy)
    (pending : row.status = .pending)
    : Changes request past approvalId row {
        status := some .approved
        approvedBy := some approvedBy
        approvedAt := some approvedAt
      }
  | consume {now : Rat} (asked : request = .redeem approvalId row.key row.argumentsHash)
    (read : ⟨.time, now⟩ ∈ past) (inTime : now ≤ row.expiresAt) (granted : row.status = .approved)
    (unused : row.consumed = false)
    : Changes request past approvalId row { consumed := some true }

/-- What a call of the store may ask after the events `past`. -/
def Permits (settings : Settings) (request : Request) (past : List (Event ApprovalReply))
    : ApprovalCall → Prop
  | .insert row =>
      ∃ (key : CallKey) (hash : String) (auditId : Nat) (fresh : UuidHex) (now : Rat),
        request = .create key hash auditId
        ∧ past = [⟨.uuid, fresh⟩, ⟨.time, now⟩]
        ∧ row = {
            approvalId := fresh.text
            auditId := auditId
            key := key
            argumentsHash := hash
            expiresAt := now + settings.approvalTtlSeconds
          }
  | .write _ => ∃ approvalId row, Reading past approvalId row
  | .commit approvalId columns =>
      ∃ row, Reading past approvalId row ∧ Changes request past approvalId row columns
  | _ => True

section

variable {settings : Settings} {request : Request} {past events : List (Event ApprovalReply)}
  {approvalId : String} {row : Approval}

theorem Reading.start : Reading [⟨.selectForUpdate approvalId, .ok (some row)⟩] approvalId row :=
  ⟨[], rfl, by simp⟩

theorem Reading.more {event : Event ApprovalReply} (reading : Reading past approvalId row)
    (quiet : Quiet event)
    : Reading (past ++ [event]) approvalId row := by
  obtain ⟨more, same, only⟩ := reading
  refine ⟨more ++ [event], by simp [same], ?_⟩
  intro other member
  rcases List.mem_append.mp member with early | late
  · exact only other early
  · exact List.mem_singleton.mp late ▸ quiet

theorem exec_expired {lapsed : Bool} (exec : (expired row).run.Exec events (.ok lapsed))
    : ∃ now, events = [⟨.time, now⟩] ∧ lapsed = decide (row.expiresAt < now) := by
  obtain ⟨now, rest, same, ended⟩ := Coroutine.exec_ask_bind_iff.mp exec
  obtain ⟨empty, value⟩ := Program.exec_done_iff.mp ended
  cases value
  exact ⟨now, by rw [same, empty], rfl⟩

theorem asksAfter_withSession {α : Type} {body : ApprovalAsync α}
    (first : body.run.AsksAfter (Permits settings request) past)
    : (withSession body).run.AsksAfter (Permits settings request) past :=
  Coroutine.asksAfter_attempt_bind first
    (fun _ _ _ => Coroutine.asksAfter_ask_bind trivial (fun _ => trivial))

theorem asksAfter_expired : (expired row).run.AsksAfter (Permits settings request) past :=
  Coroutine.asksAfter_ask_bind trivial (fun _ => trivial)

theorem asksAfter_create {key : CallKey} {hash : String} {auditId : Nat}
    : (create settings key hash auditId).run.AsksAfter
        (Permits settings (.create key hash auditId)) [] := by
  refine Coroutine.asksAfter_ask_bind trivial (fun fresh => ?_)
  refine Coroutine.asksAfter_bind (asksAfter_withSession ?_) (fun _ _ _ => trivial)
  refine Coroutine.asksAfter_ask_bind trivial (fun now => ?_)
  exact ⟨⟨key, hash, auditId, fresh, now, rfl, rfl, rfl⟩, fun _ => trivial⟩

theorem asksAfter_redeem {key : CallKey} {hash : String}
    : (redeem approvalId key hash).run.AsksAfter
        (Permits settings (.redeem approvalId key hash)) [] := by
  refine asksAfter_withSession ?_
  refine Coroutine.asksAfter_demand_bind trivial (fun reply found answered => ?_)
  have read : reply = .ok found := answered
  subst read
  cases found with
  | none => trivial
  | some row =>
      have reading : Reading [⟨.selectForUpdate approvalId, .ok (some row)⟩] approvalId row := .start
      dsimp only
      split
      · trivial
      · next unused =>
          refine Coroutine.asksAfter_bind asksAfter_expired (fun events lapsed exec => ?_)
          obtain ⟨now, rfl, rfl⟩ := exec_expired exec
          have still := reading.more (show Quiet ⟨.time, now⟩ from trivial)
          split
          · split
            · next pending =>
                exact Coroutine.asksAfter_demand_bind ⟨row, still, .lapse pending⟩
                  (fun _ _ _ => trivial)
            · trivial
          · next current =>
              split
              · trivial
              · next granted =>
                  split
                  · trivial
                  · next sameKey =>
                      split
                      · trivial
                      · next sameHash =>
                          rw [not_not] at granted sameKey sameHash
                          subst sameKey sameHash
                          refine Coroutine.asksAfter_demand_bind ⟨row, still, ?_⟩
                            (fun _ _ _ => trivial)
                          exact .consume rfl (List.mem_append_right _ List.mem_cons_self)
                            (by simpa using current) granted (by simpa using unused)

/-- The audit row of an expired approval comes before its change. -/
theorem asksAfter_lapse (reading : Reading past approvalId row) (pending : row.status = .pending)
    : (lapse row approvalId).run.AsksAfter (Permits settings request) past := by
  refine Coroutine.asksAfter_demand_bind ⟨approvalId, row, reading⟩ (fun reply seq answered => ?_)
  have recorded : reply = .ok seq := answered
  subst recorded
  exact ⟨⟨row, reading.more trivial, .lapse pending⟩, fun _ => trivial⟩

theorem asksAfter_approve {approvedBy : String}
    : (approve approvalId approvedBy).run.AsksAfter
        (Permits settings (.approve approvalId approvedBy)) [] := by
  refine asksAfter_withSession ?_
  refine Coroutine.asksAfter_demand_bind trivial (fun reply found answered => ?_)
  have read : reply = .ok found := answered
  subst read
  cases found with
  | none => trivial
  | some row =>
      have reading : Reading [⟨.selectForUpdate approvalId, .ok (some row)⟩] approvalId row := .start
      dsimp only
      split
      · next pending =>
          refine Coroutine.asksAfter_bind asksAfter_expired (fun events lapsed exec => ?_)
          obtain ⟨now, rfl, rfl⟩ := exec_expired exec
          have still := reading.more (show Quiet ⟨.time, now⟩ from trivial)
          split
          · exact Coroutine.asksAfter_bind (asksAfter_lapse still pending) (fun _ _ _ => trivial)
          · rw [if_neg (not_not.mpr pending)]
            refine Coroutine.asksAfter_ask_bind trivial (fun approvedAt => ?_)
            have later := still.more (show Quiet ⟨.time, approvedAt⟩ from trivial)
            refine Coroutine.asksAfter_demand_bind ⟨approvalId, row, later⟩
              (fun reply seq answered => ?_)
            have recorded : reply = .ok seq := answered
            subst recorded
            exact Coroutine.asksAfter_demand_bind ⟨row, later.more trivial, .grant rfl pending⟩
              (fun _ _ _ => trivial)
      · trivial

/-- Each request asks only what it is permitted to. -/
theorem asksAfter_handle
    : (handle settings request).run.AsksAfter (Permits settings request) [] := by
  cases request with
  | create key hash auditId => exact Coroutine.asksAfter_bind asksAfter_create (fun _ _ _ => trivial)
  | approve approvalId approvedBy =>
      exact Coroutine.asksAfter_bind asksAfter_approve (fun _ _ _ => trivial)
  | redeem approvalId key hash =>
      exact Coroutine.asksAfter_bind asksAfter_redeem (fun _ _ _ => trivial)

theorem exec_withSession_ok {α : Type} {body : ApprovalAsync α} {value : α}
    (exec : (withSession body).run.Exec events (.ok value))
    : ∃ inner, events = inner ++ [⟨.close, ()⟩] ∧ body.run.Exec inner (.ok value) := by
  obtain ⟨inner, _, result, rfl, attempted, exec⟩ := Coroutine.exec_bind_ok_iff.mp exec
  obtain ⟨_, rest, rfl, ended⟩ := Coroutine.exec_ask_bind_iff.mp exec
  obtain ⟨rfl, same⟩ := Program.exec_done_iff.mp ended
  subst same
  exact ⟨inner, rfl, Coroutine.exec_attempt_iff.mp attempted⟩

/-- A redemption that succeeds has committed the approval's use. -/
theorem exec_redeem_none {key : CallKey} {hash : String}
    (whole : (redeem approvalId key hash).run.Exec events (.ok none))
    : ⟨.commit approvalId { consumed := some true }, .ok ()⟩ ∈ events := by
  obtain ⟨inner, rfl, exec⟩ := exec_withSession_ok whole
  refine List.mem_append_left _ ?_
  obtain ⟨first, _, found, rfl, _, exec⟩ := Coroutine.exec_bind_ok_iff.mp exec
  refine List.mem_append_right _ ?_
  -- Every path but the last one ends with a reason.
  have refused {events : List (Event ApprovalReply)} {reason : EventType × String}
      (exec : (pure (some reason) : ApprovalAsync (Option (EventType × String))).run.Exec events
        (.ok none))
      : False := by
    obtain ⟨_, impossible⟩ := Program.exec_done_iff.mp exec
    cases impossible
  cases found with
  | none => exact (refused exec).elim
  | some row =>
      dsimp only at exec
      split at exec
      · exact (refused exec).elim
      · obtain ⟨looked, _, lapsed, rfl, _, exec⟩ := Coroutine.exec_bind_ok_iff.mp exec
        refine List.mem_append_right _ ?_
        split at exec
        · split at exec
          · obtain ⟨_, _, _, _, _, exec⟩ := Coroutine.exec_bind_ok_iff.mp exec
            exact (refused exec).elim
          · exact (refused exec).elim
        · split at exec
          · exact (refused exec).elim
          · split at exec
            · exact (refused exec).elim
            · split at exec
              · exact (refused exec).elim
              · obtain ⟨_, _, _, rfl, committed, _⟩ := Coroutine.exec_bind_ok_iff.mp exec
                obtain ⟨reply, rfl, answered⟩ := Coroutine.exec_demand_iff.mp committed
                have done : reply = .ok () := answered
                subst done
                simp

theorem exec_withSession_of_ok {α : Type} {body : ApprovalAsync α} {value : α}
    (exec : body.run.Exec events (.ok value))
    : (withSession body).run.Exec (events ++ [⟨.close, ()⟩]) (.ok value) :=
  Coroutine.exec_bind_ok_iff.mpr ⟨events, _, .ok value, rfl, Coroutine.exec_attempt_iff.mpr exec,
    .ask (.done _)⟩

/-- A redemption of a granted approval before it expires succeeds. -/
theorem exec_redeem_of_granted {now : Rat} (granted : row.status = .approved)
    (unused : row.consumed = false) (inTime : ¬ row.expiresAt < now)
    : (redeem approvalId row.key row.argumentsHash).run.Exec
        [
          ⟨.selectForUpdate approvalId, .ok (some row)⟩,
          ⟨.time, now⟩,
          ⟨.commit approvalId { consumed := some true }, .ok ()⟩,
          ⟨.close, ()⟩
        ]
        (.ok none) := by
  change (withSession _).run.Exec ([_, _, _] ++ [_]) _
  refine exec_withSession_of_ok ?_
  refine Coroutine.exec_bind_ok_iff.mpr ⟨[_], _, some row, rfl, .ask (.done _), ?_⟩
  dsimp only
  rw [if_neg (by simp [unused])]
  refine Coroutine.exec_bind_ok_iff.mpr ⟨[⟨.time, now⟩], _, _, rfl, .ask (.done _), ?_⟩
  rw [if_neg (by simpa using inTime), if_neg (by simp [granted]), if_neg (by simp), if_neg (by simp)]
  exact .ask (.done _)

/-- A pending approval that is approved before it expires is granted. -/
theorem exec_approve_of_pending {approvedBy : String} {now approvedAt : Rat} {seq : Nat}
    (pending : row.status = .pending) (inTime : ¬ row.expiresAt < now)
    : (approve approvalId approvedBy).run.Exec
        [
          ⟨.selectForUpdate approvalId, .ok (some row)⟩,
          ⟨.time, now⟩,
          ⟨.time, approvedAt⟩,
          ⟨.write (ApprovalStore.approvedEntry row.key approvalId approvedBy), .ok seq⟩,
          ⟨.commit approvalId {
            status := some .approved
            approvedBy := some approvedBy
            approvedAt := some approvedAt
          }, .ok ()⟩,
          ⟨.close, ()⟩
        ]
        (.ok (seq, row.key)) := by
  change (withSession _).run.Exec ([_, _, _, _, _] ++ [_]) _
  refine exec_withSession_of_ok ?_
  refine Coroutine.exec_bind_ok_iff.mpr ⟨[_], _, some row, rfl, .ask (.done _), ?_⟩
  dsimp only
  rw [if_pos pending]
  refine Coroutine.exec_bind_ok_iff.mpr ⟨[⟨.time, now⟩], _, _, rfl, .ask (.done _), ?_⟩
  rw [if_neg (by simpa using inTime), if_neg (by simp [pending])]
  exact .ask (.ask (.ask (.done _)))

end

/-- An event that fails, or that commits. -/
def Decides : Event ApprovalReply → Prop
  | ⟨.write _, .error _⟩ | ⟨.insert _, _⟩ | ⟨.commit _ _, _⟩ => True
  | _ => False

/-- A request to record or to change something. -/
def Acts : ApprovalCall → Prop
  | .write _ | .insert _ | .commit _ _ => True
  | _ => False

theorem Quiet.undecided {event : Event ApprovalReply} (quiet : Quiet event) : ¬ Decides event := by
  obtain ⟨call, reply⟩ := event
  cases call with
  | write entry =>
      cases reply with
      | ok seq => exact id
      | error exn => cases quiet
  | time => exact id
  | _ => cases quiet

/-- Nothing is recorded or changed after a failure or a commit. -/
theorem Permits.undecided {settings : Settings} {request : Request}
    {past : List (Event ApprovalReply)} {asked : ApprovalCall}
    (permits : Permits settings request past asked) (acts : Acts asked)
    : ∀ event ∈ past, ¬ Decides event := by
  have reading {approvalId : String} {row : Approval} (reading : Reading past approvalId row)
      : ∀ event ∈ past, ¬ Decides event := by
    obtain ⟨more, rfl, only⟩ := reading
    intro event member
    rcases List.mem_cons.mp member with here | later
    · rw [here]
      exact id
    · exact (only event later).undecided
  cases asked with
  | insert row =>
      obtain ⟨_, _, _, fresh, now, _, rfl, _⟩ := permits
      simp [Decides]
  | write entry =>
      obtain ⟨_, _, read⟩ := permits
      exact reading read
  | commit approvalId columns =>
      obtain ⟨_, read, _⟩ := permits
      exact reading read
  | _ => cases acts

-----------------------------------------------------------------------------------------
-- Steps of the table
-----------------------------------------------------------------------------------------

section

variable {ι : Type} [DecidableEq ι] {table after final : ApprovalTable ι} {owner : ι}
  {step : Stamped ι ApprovalReply} {approvalId : String} {row : Approval}

/-- The steps of other threads, and the quiet ones of its own, leave what a thread holds. -/
theorem ApprovalTable.Serves.holds (served : table.Serves step after)
    (quiet : step.thread = owner → Quiet step.event) (holds : table.Holds owner approvalId row)
    : RowLocks.Holds after owner approvalId row := by
  obtain ⟨thread, instant, call, reply⟩ := step
  unfold ApprovalTable.Serves at served
  cases call with
  | time => exact served.2 ▸ holds
  | uuid => exact served ▸ holds
  | write entry => exact served ▸ holds
  | insert row =>
      cases reply with
      | ok => exact served.2 ▸ holds.putNew served.1
      | error exn => exact served ▸ holds
  | selectForUpdate other =>
      rcases reply with exn | none | row
      · exact served ▸ holds
      · exact served.2 ▸ holds
      · exact served.2.2 ▸ holds.lock served.2.1
  | commit other columns =>
      have differs : thread ≠ owner := quiet
      cases reply with
      | ok =>
          obtain ⟨free, row, _, rfl⟩ := served
          exact (holds.put free differs).release differs
      | error exn => exact served ▸ holds
  | close =>
      have differs : thread ≠ owner := quiet
      exact served ▸ holds.release differs

/-- (Moves … step table after) says what a step does to the rows of the table. -/
inductive Moves (settings : Settings) (request : Request) (past : List (Event ApprovalReply))
    (step : Stamped ι ApprovalReply) (table after : ApprovalTable ι)
    : Prop
  | still (same : after.rows = table.rows)
  | added (row : Approval) (committed : step.event = ⟨.insert row, .ok ()⟩)
    (permits : Permits settings request past (.insert row)) (absent : table.rows row.approvalId = none)
    (result : after.rows = (table.put row.approvalId row).rows)
  | changed (approvalId : String) (row : Approval) (columns : ApprovalUpdate)
    (committed : step.event = ⟨.commit approvalId columns, .ok ()⟩)
    (reading : Reading past approvalId row)
    (changes : Changes request past approvalId row columns)
    (present : table.rows approvalId = some row)
    (result : after.rows = (table.put approvalId (row.updated columns)).rows)

end

end Approvals

/-- Concurrent calls of the approval store, and all of their events. -/
structure ApprovalRun (ι : Type) where
  request : ι → Approvals.Request
  trace : List (Stamped ι Approvals.ApprovalReply)

namespace ApprovalRun

open Approvals

open StepUp (UuidHex)

variable {ι : Type} [DecidableEq ι]

/-- Every call has got as far as its events. -/
def UnderWay (settings : Settings) (run : ApprovalRun ι) : Prop :=
  ∀ thread, ∃ later outcome,
    (handle settings (run.request thread)).run.Exec (eventsOf thread run.trace ++ later) outcome

section

variable {settings : Settings} {run : ApprovalRun ι} {start table after final : ApprovalTable ι}
  {before later : List (Stamped ι ApprovalReply)} {step : Stamped ι ApprovalReply}
  {approvalId : String} {row : Approval}

theorem permits_of_step (underWay : run.UnderWay settings)
    (split : run.trace = before ++ step :: later)
    : Permits settings (run.request step.thread) (eventsOf step.thread before) step.event.call := by
  obtain ⟨rest, outcome, exec⟩ := underWay step.thread
  rw [split, eventsOf_append_cons, List.append_assoc] at exec
  simpa using exec.asksAfter asksAfter_handle

/-- A session that is reading a row read it from the table, and was quiet since. -/
theorem selected_of_reading (served : Machine.Run ApprovalTable.Serves start before table)
    (reading : Reading (eventsOf step.thread before) approvalId row)
    : ∃ earlier selected since found,
        before = earlier ++ selected :: since
        ∧ Machine.Run ApprovalTable.Serves start earlier found
        ∧ found.rows approvalId = some row
        ∧ Machine.Run ApprovalTable.Serves (found.lock step.thread approvalId) since table
        ∧ eventsOf step.thread before
          = ⟨.selectForUpdate approvalId, .ok (some row)⟩ :: eventsOf step.thread since
        ∧ ∀ event ∈ eventsOf step.thread since, Quiet event := by
  obtain ⟨more, whole, only⟩ := reading
  obtain ⟨earlier, selected, since, rfl, ofThread, isSelect, rfl⟩ := split_of_eventsOf_cons whole
  obtain ⟨found, reached, served⟩ := served.split
  obtain ⟨locked, servedSelect, served⟩ := served.head
  unfold ApprovalTable.Serves at servedSelect
  rw [isSelect] at servedSelect
  obtain ⟨present, _, rfl⟩ := servedSelect
  rw [ofThread] at served
  exact ⟨earlier, selected, since, found, rfl, reached, present, served, whole, only⟩

/-- A session that is reading a row still holds it as it read it. -/
theorem holds_of_reading (served : Machine.Run ApprovalTable.Serves start before table)
    (reading : Reading (eventsOf step.thread before) approvalId row)
    : table.Holds step.thread approvalId row := by
  obtain ⟨_, _, since, _, _, _, present, served, _, only⟩ := selected_of_reading served reading
  refine RowLocks.holds_of_run served ?_ (RowLocks.holds_lock present)
  intro before after action member served holds
  refine served.holds (fun own => only _ ?_) holds
  rw [← own]
  exact event_mem_eventsOf member

/-- What a step of a run does to the rows. -/
theorem moves_of_step (underWay : run.UnderWay settings)
    (split : run.trace = before ++ step :: later)
    (reached : Machine.Run ApprovalTable.Serves start before table) (served : table.Serves step after)
    : Moves settings (run.request step.thread) (eventsOf step.thread before) step table after := by
  have permits := permits_of_step underWay split
  have holds {approvalId : String} {row : Approval}
      (reading : Reading (eventsOf step.thread before) approvalId row)
      : table.Holds step.thread approvalId row :=
    holds_of_reading reached reading
  obtain ⟨thread, instant, call, reply⟩ := step
  unfold ApprovalTable.Serves at served
  cases call with
  | time => exact .still (served.2 ▸ rfl)
  | uuid => exact .still (served ▸ rfl)
  | write entry => exact .still (served ▸ rfl)
  | insert row =>
      cases reply with
      | ok => exact .added row rfl permits served.1 (served.2 ▸ rfl)
      | error exn => exact .still (served ▸ rfl)
  | selectForUpdate other =>
      rcases reply with exn | none | row
      · exact .still (served ▸ rfl)
      · exact .still (served.2 ▸ rfl)
      · exact .still (served.2.2 ▸ rfl)
  | commit approvalId columns =>
      cases reply with
      | ok =>
          obtain ⟨_, current, present, rfl⟩ := served
          obtain ⟨row, reading, changes⟩ := permits
          have same := (holds reading).present
          cases present.symm.trans same
          exact .changed approvalId _ columns rfl reading changes same rfl
      | error exn => exact .still (served ▸ rfl)
  | close => exact .still (served ▸ rfl)

end

-----------------------------------------------------------------------------------------
-- What stands behind a row
-----------------------------------------------------------------------------------------

/-- (run.Creates step approvalId row) means that a step stored a pending approval with the
attributes of `row`.
-/
def Creates (run : ApprovalRun ι) (step : Stamped ι ApprovalReply) (approvalId : String)
    (row : Approval)
    : Prop :=
  run.request step.thread = .create row.key row.argumentsHash row.auditId
  ∧ ∃ fresh : Approval,
      step.event = ⟨.insert fresh, .ok ()⟩
      ∧ fresh.approvalId = approvalId
      ∧ fresh.key = row.key
      ∧ fresh.argumentsHash = row.argumentsHash
      ∧ fresh.expiresAt = row.expiresAt

/-- A step committed the grant of an approval. -/
def Grants (run : ApprovalRun ι) (step : Stamped ι ApprovalReply) (approvalId : String) : Prop :=
  ∃ approvedBy approvedAt,
    run.request step.thread = .approve approvalId approvedBy
    ∧ step.event
      = ⟨.commit approvalId {
          status := some .approved
          approvedBy := some approvedBy
          approvedAt := some approvedAt
        }, .ok ()⟩

/-- A row was created, and granted since if it is approved. -/
def Backed (run : ApprovalRun ι) (past : List (Stamped ι ApprovalReply)) (approvalId : String)
    (row : Approval)
    : Prop :=
  ∃ created ∈ past,
    run.Creates created approvalId row
    ∧ (row.status = .approved
      → ∃ granted, [created, granted].Sublist past ∧ run.Grants granted approvalId)

section

variable {settings : Settings} {run : ApprovalRun ι} {start table after final : ApprovalTable ι}
  {past before middle later : List (Stamped ι ApprovalReply)} {step : Stamped ι ApprovalReply}
  {approvalId : String} {row : Approval}

omit [DecidableEq ι] in
theorem Backed.more (backed : run.Backed past approvalId row)
    : run.Backed (past ++ [step]) approvalId row := by
  obtain ⟨created, member, creates, granted⟩ := backed
  refine ⟨created, List.mem_append_left _ member, creates, fun approved => ?_⟩
  obtain ⟨grant, inPast, grants⟩ := granted approved
  exact ⟨grant, inPast.trans (List.sublist_append_left _ _), grants⟩

omit [DecidableEq ι] in
/-- A change keeps what stands behind a row, and a grant adds itself. -/
theorem Backed.changed {columns : ApprovalUpdate} {events : List (Event ApprovalReply)}
    (backed : run.Backed past approvalId row)
    (changes : Changes (run.request step.thread) events approvalId row columns)
    (committed : step.event = ⟨.commit approvalId columns, .ok ()⟩)
    : run.Backed (past ++ [step]) approvalId (row.updated columns) := by
  obtain ⟨created, member, creates, granted⟩ := backed
  refine ⟨created, List.mem_append_left _ member, creates, fun approved => ?_⟩
  cases changes with
  | lapse pending => cases approved
  | grant asked pending =>
      refine ⟨step, ?_, _, _, asked, committed⟩
      exact (List.singleton_sublist.mpr member).append (List.Sublist.refl [step])
  | consume _ _ _ already _ =>
      obtain ⟨grant, inPast, grants⟩ := granted already
      exact ⟨grant, inPast.trans (List.sublist_append_left _ _), grants⟩

/-- Every row of a run that started without rows has its creation, and its grant if it is
approved, behind it.
-/
theorem backed_of_reached (underWay : run.UnderWay settings) (split : run.trace = past ++ later)
    (reached : Machine.Run ApprovalTable.Serves RowLocks.empty past table)
    (present : table.rows approvalId = some row)
    : run.Backed past approvalId row := by
  induction reached generalizing later approvalId row with
  | nil => cases present
  | @concat earlier step state table reached served ih =>
      have whole : run.trace = earlier ++ step :: later := by simpa using split
      have before {approvalId : String} {row : Approval} (held : state.rows approvalId = some row)
          : run.Backed earlier approvalId row :=
        ih whole held
      cases moves_of_step underWay whole reached served with
      | still same => exact (before (same ▸ present)).more
      | added fresh committed permits absent result =>
          rw [result] at present
          by_cases same : approvalId = fresh.approvalId
          · subst same
            rw [RowLocks.rows_put_self] at present
            cases present
            obtain ⟨key, hash, auditId, _, now, asked, _, rfl⟩ := permits
            refine ⟨step, by simp, ⟨asked, _, committed, rfl, rfl, rfl, rfl⟩, ?_⟩
            intro impossible
            cases impossible
          · rw [RowLocks.rows_put_other same] at present
            exact (before present).more
      | changed changedId old columns committed reading changes held result =>
          rw [result] at present
          by_cases same : approvalId = changedId
          · subst same
            rw [RowLocks.rows_put_self] at present
            cases present
            exact (before held).changed changes committed
          · rw [RowLocks.rows_put_other same] at present
            exact (before present).more

/-- A used approval stays used, by induction on the run. -/
theorem used_of_reached (underWay : run.UnderWay settings)
    (split : run.trace = before ++ (middle ++ later))
    (there : Machine.Run ApprovalTable.Serves start before table)
    (reached : Machine.Run ApprovalTable.Serves table middle final)
    (used : ∃ row, table.rows approvalId = some row ∧ row.consumed = true)
    : ∃ row, final.rows approvalId = some row ∧ row.consumed = true := by
  induction reached generalizing later with
  | nil => exact used
  | @concat earlier step state final reached served ih =>
      obtain ⟨row, present, isUsed⟩ := ih (by simpa using split)
      have whole : run.trace = (before ++ earlier) ++ step :: later := by simpa using split
      cases moves_of_step underWay whole (there.append reached) served with
      | still same => exact ⟨row, same ▸ present, isUsed⟩
      | added fresh _ _ absent result =>
          refine ⟨row, ?_, isUsed⟩
          rw [result, RowLocks.rows_put_other]
          · exact present
          · rintro rfl
            rw [present] at absent
            cases absent
      | changed changedId old columns _ _ changes held result =>
          by_cases same : approvalId = changedId
          · subst same
            cases held.symm.trans present
            refine ⟨_, by rw [result, RowLocks.rows_put_self], ?_⟩
            cases changes with
            | lapse | grant => exact isUsed
            | consume => rfl
          · exact ⟨row, by rw [result, RowLocks.rows_put_other same, present], isUsed⟩

end

-----------------------------------------------------------------------------------------
-- Redemptions
-----------------------------------------------------------------------------------------

/-- A redemption of an approval for a call that succeeded. -/
structure Redeems (settings : Settings) (run : ApprovalRun ι) (thread : ι) (approvalId : String)
    (key : CallKey) (hash : String)
    : Prop where
  asked : run.request thread = .redeem approvalId key hash
  succeeded :
    (handle settings (run.request thread)).run.Exec (eventsOf thread run.trace)
      (.ok (.redeemed none))

/-- No approval is redeemed twice. -/
def UsedOnce (settings : Settings) (run : ApprovalRun ι) : Prop :=
  ∀ one two approvalId keyOne hashOne keyTwo hashTwo,
    run.Redeems settings one approvalId keyOne hashOne
    → run.Redeems settings two approvalId keyTwo hashTwo
    → one = two

/-- What is redeemed was created for the same call and granted earlier, and had not expired when
it was granted or when the redemption, which holds the row, read the clock.
-/
def Bound (settings : Settings) (run : ApprovalRun ι) : Prop :=
  ∀ thread approvalId key hash,
    run.Redeems settings thread approvalId key hash
    → ∃ row created granted read,
        [created, granted, read].Sublist run.trace
        ∧ run.Creates created approvalId row
        ∧ row.key = key
        ∧ row.argumentsHash = hash
        ∧ run.Grants granted approvalId
        ∧ granted.instant ≤ row.expiresAt
        ∧ read.thread = thread
        ∧ read.event.call = .time
        ∧ read.instant ≤ row.expiresAt

/-- A call whose audit write or commit fails leaves all rows as they were, at each of its steps. -/
def FailsUnchanged (run : ApprovalRun ι) : Prop :=
  ∀ failed ∈ run.trace,
    (∃ entry exn, failed.event = ⟨.write entry, .error exn⟩)
      ∨ (∃ approvalId columns exn, failed.event = ⟨.commit approvalId columns, .error exn⟩)
    → ∀ before step later table after,
      run.trace = before ++ step :: later
      → step.thread = failed.thread
      → Machine.Run ApprovalTable.Serves RowLocks.empty before table
      → table.Serves step after
      → after.rows = table.rows

section

variable {settings : Settings} {run : ApprovalRun ι} {start final : ApprovalTable ι}
  {before middle later : List (Stamped ι ApprovalReply)} {thread : ι}
  {approvalId : String} {key : CallKey} {hash : String}

/-- A redemption that succeeded committed the approval's use. -/
theorem Redeems.committed (redeems : run.Redeems settings thread approvalId key hash)
    : ∃ step ∈ run.trace,
        step.thread = thread
        ∧ step.event = ⟨.commit approvalId { consumed := some true }, .ok ()⟩ := by
  obtain ⟨asked, succeeded⟩ := redeems
  rw [asked] at succeeded
  obtain ⟨inner, rest, denial, same, redeemed, ended⟩ := Coroutine.exec_bind_ok_iff.mp succeeded
  obtain ⟨rfl, value⟩ := Program.exec_done_iff.mp ended
  cases value
  refine step_of_eventsOf ?_
  rw [same, List.append_nil]
  exact exec_redeem_none redeemed

/-- A use is committed to a row that is granted, unexpired and not used yet. -/
theorem consumes_of_step {step : Stamped ι ApprovalReply} {table after : ApprovalTable ι}
    (underWay : run.UnderWay settings) (split : run.trace = before ++ step :: later)
    (reached : Machine.Run ApprovalTable.Serves start before table) (served : table.Serves step after)
    (committed : step.event = ⟨.commit approvalId { consumed := some true }, .ok ()⟩)
    : ∃ row now,
        Reading (eventsOf step.thread before) approvalId row
        ∧ table.rows approvalId = some row
        ∧ after.rows approvalId = some (row.updated { consumed := some true })
        ∧ run.request step.thread = .redeem approvalId row.key row.argumentsHash
        ∧ ⟨.time, now⟩ ∈ eventsOf step.thread before
        ∧ now ≤ row.expiresAt
        ∧ row.status = .approved
        ∧ row.consumed = false := by
  have permits := permits_of_step underWay split
  rw [committed] at permits
  obtain ⟨row, reading, changes⟩ := permits
  have present := (holds_of_reading reached reading).present
  unfold ApprovalTable.Serves at served
  rw [committed] at served
  obtain ⟨_, current, held, rfl⟩ := served
  cases held.symm.trans present
  cases changes with
  | consume asked read inTime granted unused =>
      exact ⟨_, _, reading, present, RowLocks.rows_put_self, asked, read, inTime, granted, unused⟩

/-- No use is committed after another one. -/
theorem not_consumed_again {one two : Stamped ι ApprovalReply}
    (underWay : run.UnderWay settings)
    (split : run.trace = before ++ one :: (middle ++ two :: later))
    (served : Machine.Run ApprovalTable.Serves start run.trace final)
    (first : one.event = ⟨.commit approvalId { consumed := some true }, .ok ()⟩)
    (second : two.event = ⟨.commit approvalId { consumed := some true }, .ok ()⟩)
    : False := by
  rw [split] at served
  obtain ⟨table, reached, served⟩ := served.split
  obtain ⟨after, servedOne, served⟩ := served.head
  obtain ⟨still, between, served⟩ := served.split
  obtain ⟨last, servedTwo, _⟩ := served.head
  obtain ⟨row, _, _, _, result, _⟩ := consumes_of_step underWay split reached servedOne first
  have whole : run.trace = (before ++ [one]) ++ (middle ++ two :: later) := by simpa using split
  obtain ⟨used, present, isUsed⟩ :=
    used_of_reached underWay whole (reached.concat servedOne) between ⟨_, result, rfl⟩
  have again : run.trace = ((before ++ [one]) ++ middle) ++ two :: later := by simpa using split
  obtain ⟨other, _, _, held, _, _, _, _, _, unused⟩ :=
    consumes_of_step underWay again ((reached.concat servedOne).append between) servedTwo second
  cases held.symm.trans present
  rw [unused] at isUsed
  cases isUsed

theorem usedOnce (underWay : run.UnderWay settings)
    (served : Machine.Run ApprovalTable.Serves start run.trace final)
    : run.UsedOnce settings := by
  intro one two approvalId _ _ _ _ redeemsOne redeemsTwo
  obtain ⟨first, inTrace, ofOne, committed⟩ := redeemsOne.committed
  obtain ⟨second, alsoInTrace, ofTwo, committedAgain⟩ := redeemsTwo.committed
  by_contra differ
  have apart : first ≠ second := by
    rintro rfl
    exact differ (ofOne.symm.trans ofTwo)
  rcases before_or_after inTrace alsoInTrace apart with ⟨_, _, _, split⟩ | ⟨_, _, _, split⟩
  · exact not_consumed_again underWay split served committed committedAgain
  · exact not_consumed_again underWay split served committedAgain committed

theorem bound (underWay : run.UnderWay settings) (inOrder : InOrder run.trace)
    (served : Machine.Run ApprovalTable.Serves RowLocks.empty run.trace final)
    : run.Bound settings := by
  intro thread approvalId key hash redeems
  obtain ⟨step, inTrace, rfl, committed⟩ := redeems.committed
  obtain ⟨before, later, split⟩ := List.append_of_mem inTrace
  rw [split] at served
  obtain ⟨table, reached, served⟩ := served.split
  obtain ⟨after, servedStep, _⟩ := served.head
  obtain ⟨row, now, reading, _, _, asked, read, inTime, granted, _⟩ :=
    consumes_of_step underWay split reached servedStep committed
  cases redeems.asked.symm.trans asked
  obtain ⟨earlier, selected, since, found, rfl, there, present, served, events, _⟩ :=
    selected_of_reading reached reading
  -- The row was granted before it was selected, and the clock was read after that.
  obtain ⟨created, _, creates, grant⟩ :=
    backed_of_reached underWay (split.trans (List.append_assoc _ _ _)) there present
  obtain ⟨grantStep, ordered, grants⟩ := grant granted
  rw [events] at read
  have member : ⟨.time, now⟩ ∈ eventsOf step.thread since := by simpa using read
  obtain ⟨clock, inSince, ofThread, isTime⟩ := step_of_eventsOf member
  obtain ⟨first, last, rfl⟩ := List.append_of_mem inSince
  obtain ⟨_, _, served⟩ := served.split
  obtain ⟨_, servedClock, _⟩ := served.head
  unfold ApprovalTable.Serves at servedClock
  rw [isTime] at servedClock
  have atNow : now = clock.instant := servedClock.1
  have sublist : [created, grantStep, clock].Sublist run.trace := by
    rw [split]
    refine List.Sublist.trans ?_ (List.sublist_append_left _ _)
    exact ordered.append (List.singleton_sublist.mpr (by simp))
  have times := inOrder.sublist sublist
  have later : grantStep.instant ≤ clock.instant :=
    (List.pairwise_cons.mp (List.pairwise_cons.mp times).2).1 clock List.mem_cons_self
  refine ⟨row, created, grantStep, clock, sublist, creates, rfl, rfl, grants, ?_, ofThread, ?_, ?_⟩
  · exact later.trans (atNow ▸ inTime)
  · rw [isTime]
  · exact atNow ▸ inTime

theorem failsUnchanged (underWay : run.UnderWay settings) : run.FailsUnchanged := by
  intro failed inTrace failure before step later table after split own reached served
  have failing : Decides failed.event ∧ Acts failed.event.call := by
    rcases failure with ⟨_, _, same⟩ | ⟨_, _, _, same⟩ <;> simp [same, Decides, Acts]
  -- A step that changes rows is one after which nothing acts, and before which nothing failed.
  have never (deciding : Decides step.event) (acting : Acts step.event.call)
      (differ : step ≠ failed)
      : False := by
    have order (one two : Stamped ι ApprovalReply) (same : one.thread = two.thread)
        (decides : Decides one.event) (acts : Acts two.event.call)
        {first middle last : List (Stamped ι ApprovalReply)}
        (split : run.trace = first ++ one :: (middle ++ two :: last))
        : False := by
      have whole : run.trace = (first ++ one :: middle) ++ two :: last := by simpa using split
      refine (permits_of_step underWay whole).undecided acts one.event ?_ decides
      rw [← same]
      exact event_mem_eventsOf (List.mem_append_right _ List.mem_cons_self)
    rcases before_or_after (split ▸ by simp : step ∈ run.trace) inTrace differ
      with ⟨_, _, _, split⟩ | ⟨_, _, _, split⟩
    · exact order step failed own deciding failing.2 split
    · exact order failed step own.symm failing.1 acting split
  cases moves_of_step underWay split reached served with
  | still same => exact same
  | added row committed _ _ _ =>
      refine (never (by simp [committed, Decides]) (by simp [committed, Acts]) ?_).elim
      rintro rfl
      simp [committed] at failure
  | changed id row columns committed _ _ _ _ =>
      refine (never (by simp [committed, Decides]) (by simp [committed, Acts]) ?_).elim
      rintro rfl
      simp [committed] at failure

end

/-- In every run that starts without approvals, each one is redeemed at most once, as it was
created and granted, and a call that fails changes nothing.
-/
theorem approvals_bound_and_used_once {settings : Settings} {run : ApprovalRun ι}
    {final : ApprovalTable ι}
    (served : Machine.Run ApprovalTable.Serves RowLocks.empty run.trace final)
    (inOrder : InOrder run.trace) (underWay : run.UnderWay settings)
    : run.UsedOnce settings ∧ run.Bound settings ∧ run.FailsUnchanged :=
  ⟨usedOnce underWay served, bound underWay inOrder served, failsUnchanged underWay⟩

def heldId : UuidHex where
  text := "cccccccccccccccccccccccccccccccc"
  hexadecimal := StepUp.hexadecimal_of_all (by decide +kernel)

/-- The row of a held call, which expires after fifteen minutes. -/
def heldRow : Approval where
  approvalId := heldId.text
  auditId := 1
  key := ⟨"alice", "github", "create_issue"⟩
  argumentsHash := "hash"
  expiresAt := 100 + ({} : Settings).approvalTtlSeconds

def grantOf (approvedAt : Rat) : ApprovalUpdate where
  status := some .approved
  approvedBy := some "admin"
  approvedAt := some approvedAt

/-- A call is held, granted and retried. -/
def lifecycle : ApprovalRun (Fin 3) where
  request
    | 0 => .create heldRow.key "hash" 1
    | 1 => .approve heldId.text "admin"
    | 2 => .redeem heldId.text heldRow.key "hash"
  trace := [
    ⟨0, 100, ⟨.uuid, heldId⟩⟩,
    ⟨0, 100, ⟨.time, 100⟩⟩,
    ⟨0, 100, ⟨.insert heldRow, .ok ()⟩⟩,
    ⟨0, 100, ⟨.close, ()⟩⟩,
    ⟨1, 200, ⟨.selectForUpdate heldId.text, .ok (some heldRow)⟩⟩,
    ⟨1, 200, ⟨.time, 200⟩⟩,
    ⟨1, 201, ⟨.time, 201⟩⟩,
    ⟨1, 202, ⟨.write (ApprovalStore.approvedEntry heldRow.key heldId.text "admin"), .ok 2⟩⟩,
    ⟨1, 203, ⟨.commit heldId.text (grantOf 201), .ok ()⟩⟩,
    ⟨1, 203, ⟨.close, ()⟩⟩,
    ⟨2, 300, ⟨.selectForUpdate heldId.text, .ok (some (heldRow.updated (grantOf 201)))⟩⟩,
    ⟨2, 300, ⟨.time, 300⟩⟩,
    ⟨2, 301, ⟨.commit heldId.text { consumed := some true }, .ok ()⟩⟩,
    ⟨2, 301, ⟨.close, ()⟩⟩
  ]

/-- A session that changes a row of its own gives it up at its end. -/
theorem run_session {table : ApprovalTable ι} (quiet : List (Stamped ι ApprovalReply)) {thread : ι}
    {approvalId : String} {row : Approval} {columns : ApprovalUpdate} {first last : Rat}
    (present : table.rows approvalId = some row) (free : table.Free thread approvalId)
    (unchanged : ∀ step ∈ quiet, ∀ table : ApprovalTable ι, table.Serves step table)
    : ∃ final,
        Machine.Run ApprovalTable.Serves table
          (⟨thread, first, ⟨.selectForUpdate approvalId, .ok (some row)⟩⟩
            :: (quiet
              ++ [
                ⟨thread, last, ⟨.commit approvalId columns, .ok ()⟩⟩,
                ⟨thread, last, ⟨.close, ()⟩⟩
              ]))
          final
        ∧ final.rows approvalId = some (row.updated columns)
        ∧ ∀ later, final.Free later approvalId := by
  have holds : (table.lock thread approvalId).Holds thread approvalId row :=
    RowLocks.holds_lock present
  have quietly
      : Machine.Run ApprovalTable.Serves (table.lock thread approvalId) quiet
          (table.lock thread approvalId) :=
    Machine.run_of_unchanged (fun step member => unchanged step member _)
  refine ⟨_, .cons ⟨present, free, rfl⟩ (quietly.append (.cons ⟨holds.free, row, holds.present, rfl⟩
    (.cons rfl .nil))), RowLocks.rows_put_self, fun later => ?_⟩
  exact RowLocks.free_release (RowLocks.free_release holds.free)

theorem served_lifecycle
    : ∃ final, Machine.Run ApprovalTable.Serves RowLocks.empty lifecycle.trace final := by
  have stored : (RowLocks.empty.put heldId.text heldRow : ApprovalTable (Fin 3)).rows heldId.text
      = some heldRow :=
    RowLocks.rows_put_self
  have unlocked : ((RowLocks.empty.put heldId.text heldRow : ApprovalTable (Fin 3)).release 0).Free 1
      heldId.text :=
    RowLocks.free_release (fun _ held => nomatch held)
  obtain ⟨granted, grants, present, free⟩ :=
    run_session [
      ⟨1, 200, ⟨.time, 200⟩⟩,
      ⟨1, 201, ⟨.time, 201⟩⟩,
      ⟨1, 202, ⟨.write (ApprovalStore.approvedEntry heldRow.key heldId.text "admin"), .ok 2⟩⟩
    ] stored unlocked (by simp [ApprovalTable.Serves])
  obtain ⟨final, redeems, _⟩ := run_session [⟨2, 300, ⟨.time, 300⟩⟩] present (free 2)
    (by simp [ApprovalTable.Serves])
  exact ⟨final, .cons rfl (.cons ⟨rfl, rfl⟩ (.cons ⟨rfl, rfl⟩ (.cons rfl
    (grants.append redeems))))⟩

theorem inOrder_lifecycle : InOrder lifecycle.trace := by
  simp [InOrder, lifecycle]
  norm_num

theorem exec_retry
    : (handle {} (lifecycle.request 2)).run.Exec (eventsOf 2 lifecycle.trace)
        (.ok (.redeemed none)) := by
  have granted : (heldRow.updated (grantOf 201)).status = .approved := rfl
  have inTime : ¬ (heldRow.updated (grantOf 201)).expiresAt < 300 := by decide +kernel
  have redeemed := @exec_redeem_of_granted heldId.text _ _ granted rfl inTime
  exact Coroutine.exec_bind_ok_iff.mpr ⟨_, [], none, rfl, redeemed, .done _⟩

theorem underWay_lifecycle : lifecycle.UnderWay {} := by
  intro thread
  match thread with
  | 0 => exact ⟨[], _, .ask (.ask (.ask (.ask (.done _))))⟩
  | 1 =>
      have inTime : ¬ heldRow.expiresAt < 200 := by decide +kernel
      exact ⟨[], _, Coroutine.exec_bind_ok_iff.mpr ⟨_, [], _, rfl,
        exec_approve_of_pending rfl inTime, .done _⟩⟩
  | 2 => exact ⟨[], _, exec_retry⟩

/-- Witness: a call that was held and granted redeems its approval. -/
theorem granted_call_redeems
    : lifecycle.Redeems {} 2 heldId.text heldRow.key "hash"
      ∧ lifecycle.UsedOnce {} ∧ lifecycle.Bound {} ∧ lifecycle.FailsUnchanged := by
  obtain ⟨_, served⟩ := served_lifecycle
  exact ⟨⟨rfl, exec_retry⟩,
    approvals_bound_and_used_once served inOrder_lifecycle underWay_lifecycle⟩

end ApprovalRun

end SecureMcp
