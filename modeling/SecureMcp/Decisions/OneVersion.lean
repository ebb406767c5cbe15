import SecureMcp.Audit.Columns
import SecureMcp.Decisions.Accounting
import SecureMcp.Decisions.Interference
import SecureMcp.Policy.InForce

/-! A tool call beside swaps of the policy. The policy in force is read anew wherever a decision
needs it, and once more for each audit row, so that a swap in between has a call decided and
recorded under two policies.
-/

namespace SecureMcp

open Interaction

-----------------------------------------------------------------------------------------
-- A pipeline that holds one policy
-----------------------------------------------------------------------------------------

/-- The requests of a pipeline that is given a policy, and never reads the one in force. -/
def passHeld (deployment : Deployment) (engine : PolicyEngine) (call : Call)
    : Program SharedCall SharedReply (Reply call) :=
  match call with
  | .engine => .done engine
  | call => passGateway deployment call

/-- The policy in force is read. -/
def isEngineRead (event : Event SharedReply) : Bool :=
  match event.call with
  | .versions .engine => true
  | _ => false

section

variable {deployment : Deployment} {engine : PolicyEngine} {call : Call}
  {asked : List (Event Reply)} {inner : List (Event SharedReply)}

theorem passHeld_of_ne (other : call ≠ .engine)
    : passHeld deployment engine call = passGateway deployment call := by
  cases call <;> first | exact absurd rfl other | rfl

/-- What the requests of a pipeline are passed on as. -/
theorem asks_passGateway {allowed : SharedCall → Prop}
    (read : call = .engine → allowed (.versions .engine)) (risk : ∀ asked, allowed (.risk asked))
    (own : allowed (.gateway call))
    : (passGateway deployment call).Asks allowed := by
  have scoring {α : Type} (program : Program Risk.RiskCall Risk.RiskReply α)
      : (program.expand passRisk).Asks allowed :=
    (Program.asks_of_forall (fun _ => True.intro) program).expand
      (fun asked _ => ⟨risk asked, fun _ => trivial⟩)
  cases call with
  | engine => exact ⟨read rfl, fun _ => trivial⟩
  | score key arguments policy => exact scoring _
  | recordDenial identityId => exact scoring _
  | _ => exact ⟨own, fun _ => trivial⟩

theorem exec_passEngine {other : PolicyEngine}
    (exec : (passGateway deployment .engine).Exec inner other)
    : inner = [⟨.versions .engine, other⟩] := by
  obtain ⟨reply, rest, rfl, ended⟩ := Program.exec_ask_iff.mp exec
  obtain ⟨rfl, rfl⟩ := Program.exec_done_iff.mp ended
  rfl

/-- A policy that a pipeline read is one that the store of policies was asked for. -/
theorem engine_of_expands {other : PolicyEngine}
    (expands : Expands (passGateway deployment) asked inner)
    (read : ⟨.engine, other⟩ ∈ asked)
    : ⟨.versions .engine, other⟩ ∈ inner := by
  obtain ⟨first, exec, within⟩ := expands.of_mem read
  rw [exec_passEngine exec] at within
  exact within.subset List.mem_cons_self

/-- A pipeline that has read one policy only does as one that holds it. -/
theorem expands_held (expands : Expands (passGateway deployment) asked inner)
    (one : ∀ other, ⟨.versions .engine, other⟩ ∈ inner → other = engine)
    : Expands (passHeld deployment engine) asked
        (inner.filter (fun event => !isEngineRead event)) := by
  induction expands with
  | nil => exact .nil
  | @cons call reply events first rest handled tail ih =>
      rw [List.filter_append]
      refine .cons ?_ (ih (fun other member => one other (List.mem_append_right _ member)))
      by_cases read : call = .engine
      · subst read
        have same := exec_passEngine handled
        subst same
        rw [one reply (by simp)]
        exact .done engine
      · have quiet : ∀ event ∈ first, !isEngineRead event := by
          have asks : (passGateway deployment call).Asks (fun asked => asked ≠ .versions .engine) :=
            asks_passGateway (fun same => absurd same read) (fun _ => nofun) nofun
          intro event member
          have other := handled.asks asks event member
          unfold isEngineRead
          split
          · next same => exact absurd same other
          · rfl
        rw [List.filter_eq_self.mpr quiet, passHeld_of_ne read]
        exact handled

end

-----------------------------------------------------------------------------------------
-- The rows of a decision
-----------------------------------------------------------------------------------------

namespace Interceptor

open Coroutine

section

variable {runtime : Runtime} {session : Session} {requestId : RequestId} {params : Option Params}
  {events : List (Event Reply)} {outcome : Except Exn Outcome}

theorem exec_toolCall
    (exec : (onClientMessage runtime session (.request requestId "tools/call" params)).run.Exec
      events outcome)
    : ∃ rest ended,
        events = ⟨.setPending requestId "tools/call", ()⟩ :: rest
        ∧ (authorizeCall runtime session requestId params).run.Exec rest ended
        ∧ outcome = settled ended := by
  obtain ⟨_, rest, same, settling⟩ := exec_ask_bind_iff.mp exec
  obtain ⟨ended, deciding, last⟩ := exec_settle_iff.mp settling
  exact ⟨rest, ended, same, deciding, last⟩

/-- A decision that is sent names the version of a policy that was read for the call. -/
theorem namesVersion_of_exec {response : ErrorResponse}
    (exec : (onClientMessage runtime session (.request requestId "tools/call" params)).run.Exec
      events (.ok (.respond response)))
    : NamesVersion response events := by
  obtain ⟨rest, ended, rfl, deciding, last⟩ := exec_toolCall exec
  have permits {call : ToolCall} : Permits (fun _ => True) call :=
    ⟨trivial, trivial, trivial, fun _ _ => trivial, fun _ _ => trivial, trivial,
      fun _ _ _ _ _ => trivial, fun _ _ _ => trivial⟩
  have fetches : Fetches (fun _ => True) session.serverId :=
    ⟨trivial, fun _ => trivial, trivial, fun _ _ => trivial⟩
  obtain ⟨first, final, rfl, _, answers⟩ :=
    settles_authorizeCall rfl permits (fun _ => trivial) fetches rest ended deciding
  rcases ended with (answered | exn) | message <;> cases last
  intro sent same
  obtain ⟨engine, read, version⟩ := answers.2 sent same
  exact ⟨engine, List.mem_cons_of_mem _ (List.mem_append_right _ read), version⟩

/-- The row of a decision adds keys of its own to the payload. -/
theorem ownKeys_of_exec {entry : AuditEntry} {reply : Except Exn Nat}
    (exec : (onClientMessage runtime session (.request requestId "tools/call" params)).run.Exec
      events outcome)
    (written : ⟨.write entry, reply⟩ ∈ events) (decides : OfDecision entry)
    : WriteSite.OwnKeys (Dict.keys entry.payloadExtra) := by
  obtain ⟨rest, ended, rfl, deciding, _⟩ := exec_toolCall exec
  obtain ⟨first, final, rfl, quiet, answers⟩ :=
    settles_authorizeCall rfl permits_undecided (fun _ => trivial) fetches_undecided rest ended
      deciding
  have late : ⟨.write entry, reply⟩ ∈ final := by
    rcases List.mem_cons.mp written with impossible | later
    · cases impossible
    · rcases List.mem_append.mp later with early | late
      · exact absurd (quiet _ early) decides
      · exact late
  have last {before after : List (Event Reply)} {site : AuditEntry} {other : Except Exn Nat}
      (only : ⟨.write entry, reply⟩ ∈ before ++ ⟨.write site, other⟩ :: after)
      (unwritten : ∀ event ∈ before ++ after, ∀ entry, event.call ≠ .write entry)
      : entry = site := by
    rcases List.mem_append.mp only with early | here
    · exact absurd rfl (unwritten _ (List.mem_append_left _ early) entry)
    · rcases List.mem_cons.mp here with same | later
      · cases same
        rfl
      · exact absurd rfl (unwritten _ (List.mem_append_right _ later) entry)
  have own (site : WriteSite)
      (other : ∀ requested approval approver, site ≠ .approvalGranted requested approval approver)
      (same : entry = site.entry)
      : WriteSite.OwnKeys (Dict.keys entry.payloadExtra) :=
    same ▸ site.entry_ownKeys other
  generalize toolCallOf session requestId (params.getD []) = call at answers
  rcases ended with (response | exn) | message
  · cases answers.1 with
    | deny eventType reason matchedRules riskScore riskFactors counted engine seq =>
        refine own (.deny call.key eventType reason matchedRules riskScore riskFactors
          call.arguments) nofun ?_
        exact @last [_, _, _] [] _ _ late (by simp)
    | @hold _ decision riskScore riskFactors _ _ _ _ _ holds =>
        obtain ⟨recorded, more, rfl, created⟩ := exec_hold holds
        refine own (.riskTerminal call.key decision.eventType decision.reason call.arguments
          riskScore riskFactors) nofun ?_
        rcases created with rfl | ⟨_, _, _, _, ⟨_, _, rfl⟩ | ⟨_, _, rfl⟩⟩
        · exact @last [_, _, _] [] _ _ late (by simp)
        · exact @last [_, _, _] [_] _ _ late (by simp)
        · exact @last [_, _, _] [_] _ _ late (by simp)
    | unrecorded engine risk approvalId challengeId exn =>
        refine own (.allow call.key engine.version call.arguments (risk.map Prod.fst)
          (risk.map Prod.snd) approvalId challengeId) nofun ?_
        exact @last [_] [_] _ _ late (by simp)
  · cases (answers : final = [])
    cases late
  · obtain ⟨engine, risk, approvalId, challengeId, seq, rfl⟩ := answers
    refine own (.allow call.key engine.version call.arguments (risk.map Prod.fst)
      (risk.map Prod.snd) approvalId challengeId) nofun ?_
    exact @last [_] [] _ _ late (by simp)

end

end Interceptor

-----------------------------------------------------------------------------------------
-- Runs
-----------------------------------------------------------------------------------------

/-- Only a swap changes the policy in force. -/
theorem World.engine_apply {ρ : Type} {deployment : Deployment}
    {others : Store ρ (fun call => Done (Reply call))} {world : World ρ} {now : Rat}
    {event : Event SharedReply} (other : ∀ engine, event.call ≠ .versions (.swap engine))
    : ((World.stores deployment others).apply world now event).policy.engine
      = world.policy.engine := by
  obtain ⟨call, reply⟩ := event
  cases call with
  | replayRows start stop => rfl
  | risk call => rfl
  | versions call =>
      refine PolicyVersions.PolicyState.engine_apply ?_
      cases call with
      | swap engine => exact absurd rfl (other engine)
      | _ => exact not_false
  | gateway call =>
      change (World.apply deployment others world now ⟨.gateway call, reply⟩).policy.engine = _
      unfold World.apply
      dsimp only
      split
      · rfl
      · split
        · unfold World.carryOut
          split <;> rfl
        · rfl

namespace SharedRun

open Interceptor

variable {ι κ ρ : Type}

/-- The policy in force after some steps. -/
def inForce (deployment : Deployment) (others : Store ρ (fun call => Done (Reply call)))
    (run : SharedRun ι κ ρ) (past : List (Stamped (ι ⊕ κ) SharedReply))
    : PolicyEngine :=
  (run.world deployment others past).policy.engine

/-- The policy in force is read: by the pipeline, or by the writer of an audit row. -/
def ReadsPolicy (step : Stamped (ι ⊕ κ) SharedReply) : Prop :=
  step.event.call = .versions .engine ∨ ∃ entry, step.event.call = .gateway (.write entry)

/-- Between two readings for one request, whatever is swapped in is in force already. -/
def Unswapped (deployment : Deployment) (others : Store ρ (fun call => Done (Reply call)))
    (run : SharedRun ι κ ρ) (thread : ι)
    : Prop :=
  ∀ before first between last rest,
    run.trace = before ++ first :: (between ++ last :: rest)
    → first.thread = .inl thread
    → last.thread = .inl thread
    → ReadsPolicy first
    → ReadsPolicy last
    → ∀ step ∈ between, ∀ engine,
        step.event.call = .versions (.swap engine) → engine = run.inForce deployment others before

/-- The writer of the row of a decision adds keys of its own to the payload. -/
def WritesOwnKeys (asked : SharedCall) : Prop :=
  ∀ entry,
    asked = .gateway (.write entry)
    → OfDecision entry
    → WriteSite.OwnKeys (Dict.keys entry.payloadExtra)

section

variable {deployment : Deployment} {others : Store ρ (fun call => Done (Reply call))}
  {run : SharedRun ι κ ρ} {thread : ι}
  {past rest before between : List (Stamped (ι ⊕ κ) SharedReply)}
  {step first : Stamped (ι ⊕ κ) SharedReply}

theorem inForce_concat (other : ∀ engine, step.event.call ≠ .versions (.swap engine))
    : run.inForce deployment others (past ++ [step]) = run.inForce deployment others past := by
  unfold inForce world
  rw [Store.after_concat]
  exact World.engine_apply other

theorem ReadsPolicy.not_swap (reads : ReadsPolicy step) (engine : PolicyEngine)
    : step.event.call ≠ .versions (.swap engine) := by
  rintro same
  rcases reads with read | ⟨entry, write⟩
  · rw [read] at same
    cases same
  · rw [write] at same
    cases same

/-- The policy stays in force while nothing but itself is swapped in, by induction on the steps. -/
theorem inForce_between
    (kept : ∀ step ∈ between, ∀ engine,
      step.event.call = .versions (.swap engine) → engine = run.inForce deployment others past)
    : run.inForce deployment others (past ++ between) = run.inForce deployment others past := by
  induction between using List.reverseRecOn with
  | nil => rw [List.append_nil]
  | append_singleton between step ih =>
      have earlier := ih (fun other member => kept other (List.mem_append_left _ member))
      rw [← List.append_assoc]
      by_cases swaps : ∃ engine, step.event.call = .versions (.swap engine)
      · obtain ⟨engine, swap⟩ := swaps
        rw [← kept step (by simp) engine swap]
        obtain ⟨here, instant, call, reply⟩ := step
        cases swap
        unfold inForce world
        rw [Store.after_concat]
        rfl
      · rw [inForce_concat (fun engine same => swaps ⟨engine, same⟩), earlier]

/-- A later reading for one request finds the policy of an earlier one. -/
theorem Unswapped.later (unswapped : run.Unswapped deployment others thread)
    {last : Stamped (ι ⊕ κ) SharedReply}
    (whole : run.trace = before ++ first :: (between ++ last :: rest))
    (ownFirst : first.thread = .inl thread) (ownLast : last.thread = .inl thread)
    (readsFirst : ReadsPolicy first) (readsLast : ReadsPolicy last)
    : run.inForce deployment others (before ++ first :: between)
      = run.inForce deployment others before := by
  have kept :=
    unswapped before first between last rest whole ownFirst ownLast readsFirst readsLast
  have passed : run.inForce deployment others (before ++ [first])
      = run.inForce deployment others before :=
    inForce_concat readsFirst.not_swap
  rw [List.append_cons, inForce_between, passed]
  intro step member engine swap
  rw [passed]
  exact kept step member engine swap

/-- Two readings for one request find the same policy. -/
theorem Unswapped.same (unswapped : run.Unswapped deployment others thread)
    {after : List (Stamped (ι ⊕ κ) SharedReply)}
    (whole : run.trace = past ++ step :: rest) (again : run.trace = before ++ first :: after)
    (own : step.thread = .inl thread) (ownFirst : first.thread = .inl thread)
    (reads : ReadsPolicy step) (readsFirst : ReadsPolicy first)
    : run.inForce deployment others past = run.inForce deployment others before := by
  rcases List.append_eq_append_iff.mp (whole.symm.trans again) with
    ⟨middle, rfl, same⟩ | ⟨middle, rfl, same⟩
  · rcases List.cons_eq_append_iff.mp same with ⟨rfl, _⟩ | ⟨between, rfl, rfl⟩
    · rw [List.append_nil]
    · exact (unswapped.later whole own ownFirst reads readsFirst).symm
  · rcases List.cons_eq_append_iff.mp same with ⟨rfl, _⟩ | ⟨between, rfl, rfl⟩
    · rw [List.append_nil]
    · exact unswapped.later again ownFirst own readsFirst reads

/-- A call whose readings all come after the last swap. -/
theorem unswapped_of_append (whole : run.trace = past ++ rest)
    (unread : ∀ step ∈ past, step.thread = .inl thread → ¬ ReadsPolicy step)
    (settled : ∀ step ∈ rest, ∀ engine, step.event.call ≠ .versions (.swap engine))
    : run.Unswapped deployment others thread := by
  intro before first between last after again ownFirst _ readsFirst _ step member engine swap
  refine absurd swap (settled step ?_ engine)
  rcases List.append_eq_append_iff.mp (whole.symm.trans again) with
    ⟨middle, rfl, same⟩ | ⟨middle, rfl, same⟩
  · rw [same]
    simp [member]
  · rcases List.cons_eq_append_iff.mp same with ⟨_, same⟩ | ⟨early, rfl, _⟩
    · rw [same]
      simp [member]
    · exact absurd readsFirst (unread first (by simp) ownFirst)

end

variable [DecidableEq ι] [DecidableEq κ]

/-- (run.OneVersion … engine) means that a call is decided by the pipeline that holds this policy,
and has its version in the decision that is sent, and in the column and in the payload of every row
of a decision that is written for it. The writer of a row takes the version that is in force then.
-/
structure OneVersion (deployment : Deployment) (others : Store ρ (fun call => Done (Reply call)))
    (run : SharedRun ι κ ρ) (thread : ι) (session : Session) (sent : ClientMessage)
    (engine : PolicyEngine)
    : Prop where
  decided : ∀ outcome,
    ((onClientMessage deployment.runtime session sent).run.expand (passGateway deployment)).Exec
      (eventsOf (.inl thread) run.trace) outcome
    → ((onClientMessage deployment.runtime session sent).run.expand
        (passHeld deployment engine)).Exec
        ((eventsOf (.inl thread) run.trace).filter (fun event => !isEngineRead event)) outcome
  answered : ∀ response decision,
    ((onClientMessage deployment.runtime session sent).run.expand (passGateway deployment)).Exec
      (eventsOf (.inl thread) run.trace) (.ok (.respond response))
    → response.data = some decision
    → decision.policyVersion = engine.version
  recorded : ∀ past step rest entry keys prevHash seq row,
    run.trace = past ++ step :: rest
    → step.thread = .inl thread
    → step.event.call = .gateway (.write entry)
    → OfDecision entry
    → entry.row keys (run.inForce deployment others past).version prevHash seq = .ok row
    → row.policyVersion = engine.version
      ∧ row.payload.get "policy_version" = .ok (.int engine.version)

section

variable {deployment : Deployment} {others : Store ρ (fun call => Done (Reply call))}
  {run : SharedRun ι κ ρ} {thread : ι} {session : Session} {requestId : RequestId}
  {params : Option Params}

/-- Whoever writes the row of a decision for the call adds keys of its own. -/
theorem Proper.writesOwnKeys (proper : run.Proper deployment others)
    (live : run.live thread = .message session (.request requestId "tools/call" params))
    : ∀ event ∈ eventsOf (.inl thread) run.trace, WritesOwnKeys event.call := by
  obtain ⟨later, result, exec⟩ := proper.live thread
  rw [live] at exec
  obtain ⟨inner, last, outcome, split, exec, ended⟩ := Program.exec_bind_iff.mp exec
  obtain ⟨rfl, _⟩ := Program.exec_done_iff.mp ended
  rw [List.append_nil] at split
  subst split
  obtain ⟨asked, deciding, expands⟩ := Program.exec_expand_iff.mp exec
  have each : ∀ event ∈ asked, (passGateway deployment event.call).Asks WritesOwnKeys := by
    rintro ⟨call, reply⟩ member
    refine asks_passGateway nofun (fun _ => nofun) ?_
    rintro entry ⟨⟩
    exact ownKeys_of_exec deciding member
  exact fun event member => expands.asks each event (List.mem_append_left _ member)

/-- A call between whose readings of the policy no other policy is swapped in is decided, answered
and recorded under one policy.
-/
theorem one_version_of_unswapped (proper : run.Proper deployment others)
    (live : run.live thread = .message session (.request requestId "tools/call" params))
    (unswapped : run.Unswapped deployment others thread)
    : ∃ engine,
        run.OneVersion deployment others thread session (.request requestId "tools/call" params)
          engine := by
  obtain ⟨engine, found⟩ : ∃ engine, ∀ past step rest,
      run.trace = past ++ step :: rest → step.thread = .inl thread → ReadsPolicy step
      → run.inForce deployment others past = engine := by
    by_cases reading : ∃ before first after,
        run.trace = before ++ first :: after ∧ first.thread = .inl thread ∧ ReadsPolicy first
    · obtain ⟨before, first, after, again, ownFirst, readsFirst⟩ := reading
      exact ⟨run.inForce deployment others before, fun past step rest whole own reads =>
        unswapped.same whole again own ownFirst reads readsFirst⟩
    · exact ⟨run.start.policy.engine, fun past step rest whole own reads =>
        absurd ⟨past, step, rest, whole, own, reads⟩ reading⟩
  have one : ∀ other,
      ⟨.versions .engine, other⟩ ∈ eventsOf (.inl thread) run.trace → other = engine := by
    intro other member
    obtain ⟨first, more, whole⟩ := List.append_of_mem member
    obtain ⟨past, ⟨here, instant, event⟩, rest, whole, own, same, _⟩ := split_of_eventsOf whole
    cases same
    have told : other = run.inForce deployment others past := proper.answered past _ rest whole
    rw [told]
    exact found past _ rest whole own (.inl rfl)
  refine ⟨engine, ?_, ?_, ?_⟩
  · intro outcome exec
    obtain ⟨asked, decides, expands⟩ := Program.exec_expand_iff.mp exec
    exact Program.exec_expand_iff.mpr ⟨asked, decides, expands_held expands one⟩
  · intro response decision exec sent
    obtain ⟨asked, decides, expands⟩ := Program.exec_expand_iff.mp exec
    obtain ⟨named, read, version⟩ := namesVersion_of_exec decides decision sent
    rw [version, one named (engine_of_expands expands read)]
  · intro past step rest entry keys prevHash seq row whole own writes decides written
    have version : run.inForce deployment others past = engine :=
      found past step rest whole own (.inr ⟨entry, writes⟩)
    obtain ⟨hash, _, same⟩ := AuditEntry.row_ok_iff.mp written
    have column : row.policyVersion = engine.version := by
      rw [same, ← version]
      rfl
    have member : step.event ∈ eventsOf (.inl thread) run.trace := by
      rw [← own]
      exact event_mem_eventsOf (whole ▸ List.mem_append_right _ List.mem_cons_self)
    have covered :=
      columnsCovered_of_ownKeys (proper.writesOwnKeys live step.event member entry writes decides)
        written
    exact ⟨column, column ▸ covered.policyVersion⟩

end

-----------------------------------------------------------------------------------------
-- A call during a reload
-----------------------------------------------------------------------------------------

section

open DecisionExplainer (mailDeployment mailOthers mailWorld replyDown)
open PolicyVersions

/-- A call and a reload. -/
inductive Party
  | call
  | reload
  deriving DecidableEq

def numberedDeployment : Deployment :=
  { mailDeployment with reader := numbered }

/-- The first of two versions is in force. -/
def numberedWorld : World Unit :=
  { mailWorld with policy := { successive with engine := numberedEngine 1 } }

/-- The replies to a call under a policy that grants nothing. -/
def replyUnder (version : Nat) : (call : SharedCall) → SharedReply call
  | .versions .engine => numberedEngine version
  | .gateway call => ⟨Interceptor.permitted call, true⟩
  | .risk call => Risk.quiet 1 (.applied ()) call
  | call => replyDown call

def deniedCall : Program SharedCall SharedReply (Except Exn Outcome) :=
  (onClientMessage numberedDeployment.runtime mailSession (sendCall (.obj []))).run.expand
    (passGateway numberedDeployment)

def deniedEvents (version : Nat) : List (Event SharedReply) :=
  (deniedCall.play (replyUnder version)).1

/-- The second version is put into force. -/
def reloadedEvents : List (Event SharedReply) :=
  (reloadEvents (numberedEngine 1) (versionFile 2) (numberedEngine 2) (numberedRow 2)
    (.stored 1)).map
    (fun event => ⟨.versions event.call, event.reply⟩)

/-- A call that is denied under a version, and the reload after some of its events. -/
def reloadedAfter (count version : Nat) : SharedRun Party Empty Unit where
  live
    | .call => mailRequest
    | .reload => .activation .reload
  dry := nofun
  start := numberedWorld
  trace :=
    ((deniedEvents version).take count).map (Stamped.mk (.inl .call) 0)
      ++ reloadedEvents.map (Stamped.mk (.inl .reload) 0)
      ++ ((deniedEvents version).drop count).map (Stamped.mk (.inl .call) 0)

variable {count version : Nat}

theorem eventsOf_reloadedAfter_call
    : eventsOf (.inl .call) (reloadedAfter count version).trace = deniedEvents version := by
  unfold reloadedAfter
  rw [eventsOf_append, eventsOf_append, eventsOf_stamped, eventsOf_stamped, eventsOf_stamped,
    if_pos rfl, if_neg (by decide), if_pos rfl, List.append_nil, List.take_append_drop]

theorem eventsOf_reloadedAfter_reload
    : eventsOf (.inl .reload) (reloadedAfter count version).trace = reloadedEvents := by
  unfold reloadedAfter
  rw [eventsOf_append, eventsOf_append, eventsOf_stamped, eventsOf_stamped, eventsOf_stamped,
    if_neg (by decide), if_pos rfl, if_neg (by decide), List.nil_append, List.append_nil]

theorem exec_reloadedEvents
    : ((LiveRequest.activation .reload).program numberedDeployment).Exec reloadedEvents
        (.activated true) := by
  have reloads : (ActivationRequest.reload.program numbered).Exec
      (reloadEvents (numberedEngine 1) (versionFile 2) (numberedEngine 2) (numberedRow 2)
        (.stored 1))
      true :=
    exec_isOk_iff.mpr ⟨.ok (), exec_reload_again (loadBytes_numbered (by decide)) rfl, rfl⟩
  have passed : ((ActivationRequest.reload.program numbered).expand passVersions).Exec
      reloadedEvents true :=
    Program.exec_expand_iff.mpr ⟨_, reloads, Expands.map (fun _ => .ask (.done _)) _⟩
  exact Program.exec_bind_iff.mpr ⟨_, [], true, (List.append_nil _).symm, passed, .done _⟩

theorem reloadedAfter_proper {after : World Unit}
    (served : Program.Served ((World.stores numberedDeployment mailOthers).Serves 0) numberedWorld
      ((reloadedAfter count version).trace.map Stamped.event) after)
    : (reloadedAfter count version).Proper numberedDeployment mailOthers where
  live thread := by
    cases thread with
    | call =>
        rw [eventsOf_reloadedAfter_call]
        exact ⟨[], _, Program.exec_bind_iff.mpr
          ⟨_, [], _, rfl, Program.exec_play (replyUnder version) deniedCall, .done _⟩⟩
    | reload =>
        rw [eventsOf_reloadedAfter_reload]
        exact ⟨[], _, exec_reloadedEvents⟩
  dry := nofun
  answered := by
    refine Store.answers_of_served (fun step member => ?_) served
    simp only [reloadedAfter, List.mem_append, List.mem_map] at member
    rcases member with (⟨_, _, rfl⟩ | ⟨_, _, rfl⟩) | ⟨_, _, rfl⟩ <;> rfl

theorem served_before_row
    : ∃ after, Program.Served ((World.stores numberedDeployment mailOthers).Serves 0) numberedWorld
        ((reloadedAfter 8 1).trace.map Stamped.event) after :=
  ⟨_, .cons ⟨trivial, rfl⟩ (.cons ⟨rfl, rfl⟩ (.cons ⟨rfl, rfl⟩ (.cons ⟨rfl, rfl⟩
    (.cons ⟨trivial, rfl⟩ (.cons ⟨by rintro _ ⟨⟩; rfl, rfl⟩ (.cons ⟨trivial, rfl⟩ (.cons ⟨rfl, rfl⟩
    (.cons ⟨rfl, rfl⟩ (.cons ⟨trivial, rfl⟩ (.cons ⟨rfl, rfl⟩ (.cons ⟨trivial, rfl⟩
    (.cons ⟨trivial, rfl⟩ (.cons ⟨fun _ => rfl, rfl⟩ (.nil _))))))))))))))⟩

theorem served_before_reading
    : ∃ after, Program.Served ((World.stores numberedDeployment mailOthers).Serves 0) numberedWorld
        ((reloadedAfter 1 2).trace.map Stamped.event) after :=
  ⟨_, .cons ⟨trivial, rfl⟩ (.cons ⟨rfl, rfl⟩ (.cons ⟨trivial, rfl⟩ (.cons ⟨rfl, rfl⟩
    (.cons ⟨trivial, rfl⟩ (.cons ⟨trivial, rfl⟩ (.cons ⟨rfl, rfl⟩ (.cons ⟨rfl, rfl⟩
    (.cons ⟨rfl, rfl⟩ (.cons ⟨trivial, rfl⟩ (.cons ⟨by rintro _ ⟨⟩; rfl, rfl⟩ (.cons ⟨trivial, rfl⟩
    (.cons ⟨rfl, rfl⟩ (.cons ⟨fun _ => rfl, rfl⟩ (.nil _))))))))))))))⟩

/-- The row of a call that is denied. -/
def deniedRow : AuditEntry :=
  denyEntry mailKey .denyRbac "identity 'agent' is not authorized to call 'send_mail'"
    ["policy-v1:rbac"] none none (.obj [])

theorem deniedRow_written
    : ∃ row, deniedRow.row .plain 2 "" 1 = .ok row ∧ row.policyVersion = 2 := by
  have numbers : CanonicalJson.finite (deniedRow.payload 2) := by decide +kernel
  obtain ⟨text, printed⟩ := CanonicalJson.exists_encode numbers
  obtain ⟨hash, hashed⟩ : ∃ hash, AuditLog.computeHash "" (deniedRow.payload 2) = .ok hash :=
    ⟨_, AuditLog.computeHash_ok_iff.mpr ⟨text, printed, rfl⟩⟩
  exact ⟨_, AuditEntry.row_ok_iff.mpr ⟨hash, hashed, rfl⟩, rfl⟩

/-- Counterexample: a policy is swapped in between the decision and its row. The decision that is
sent names the first version, and the row has the second one.
-/
theorem recorded_under_other_version
    : (reloadedAfter 8 1).Proper numberedDeployment mailOthers
      ∧ (reloadedAfter 8 1).live .call = .message mailSession (sendCall (.obj []))
      ∧ ¬ ∃ engine, (reloadedAfter 8 1).OneVersion numberedDeployment mailOthers .call mailSession
          (sendCall (.obj [])) engine := by
  obtain ⟨after, served⟩ := served_before_row
  refine ⟨reloadedAfter_proper served, rfl, ?_⟩
  rintro ⟨engine, one⟩
  have sent : engine.version = 1 := by
    have exec := Program.exec_play (replyUnder 1) deniedCall
    have played : eventsOf (.inl .call) (reloadedAfter 8 1).trace
        = (deniedCall.play (replyUnder 1)).1 :=
      eventsOf_reloadedAfter_call
    rw [← played] at exec
    exact (one.answered _ _ exec rfl).symm
  have recorded : engine.version = 2 := by
    obtain ⟨row, written, version⟩ := deniedRow_written
    obtain ⟨column, _⟩ := one.recorded ((reloadedAfter 8 1).trace.take 13)
      ⟨.inl .call, 0, ⟨.gateway (.write deniedRow), ⟨.ok 1, true⟩⟩⟩ [] deniedRow .plain "" 1 row
      rfl rfl rfl nofun written
    rw [← column, version]
  rw [sent] at recorded
  cases recorded

/-- The reload comes before the first reading. -/
theorem unswapped_reloadedAfter
    : (reloadedAfter 1 2).Unswapped numberedDeployment mailOthers .call := by
  have whole := (List.take_append_drop 6 (reloadedAfter 1 2).trace).symm
  refine unswapped_of_append whole ?_ ?_
  · change ∀ step ∈ ([_, _, _, _, _, _] : List (Stamped (Party ⊕ Empty) SharedReply)), _
    simp only [List.forall_mem_cons]
    refine ⟨?_, nofun, nofun, nofun, nofun, nofun, by simp⟩
    rintro _ (read | ⟨entry, write⟩)
    · cases read
    · cases write
  · change ∀ step ∈ ([_, _, _, _, _, _, _, _] : List (Stamped (Party ⊕ Empty) SharedReply)), _
    simp only [List.forall_mem_cons]
    exact ⟨nofun, nofun, nofun, nofun, nofun, nofun, nofun, nofun, by simp⟩

/-- Witness: a policy is swapped in while a call is handled, before the policy is first read. -/
theorem reloaded_before_reading_one_version
    : ∃ engine, (reloadedAfter 1 2).OneVersion numberedDeployment mailOthers .call mailSession
        (sendCall (.obj [])) engine := by
  obtain ⟨after, served⟩ := served_before_reading
  exact one_version_of_unswapped (reloadedAfter_proper served) rfl unswapped_reloadedAfter

end

end SharedRun

end SecureMcp
