import SecureMcp.Policy.InForce

/-! The policy in force against the audit log: when the latest audited activation is not the policy
that the gateway goes by.
-/

namespace SecureMcp

open Interaction

namespace PolicyVersions

/-- An event that adds the row of an activation to the audit log. -/
def Audits : Event VersionReply → Prop
  | ⟨.write _, .stored _⟩ | ⟨.write _, .lost _⟩ => True
  | _ => False

theorem Quiet.not_audits {event : Event VersionReply} (quiet : Quiet event.call)
    : ¬ Audits event := by
  obtain ⟨call, reply⟩ := event
  cases call with
  | write entry => exact quiet.elim
  | _ => exact id

namespace PolicyState

variable {state : PolicyState} {event : Event VersionReply}

theorem activations_apply (other : ¬ Audits event)
    : (state.apply event).activations = state.activations := by
  obtain ⟨call, reply⟩ := event
  cases call with
  | write entry =>
      cases reply with
      | stored _ | lost _ => exact absurd trivial other
      | failed _ => rfl
  | writeSnapshot _ _ | addVersion _ | refreshVersion _ _ => cases reply <;> rfl
  | _ => rfl

/-- (Activates entry engine) means that an audit row records the activation of a policy. -/
structure Activates (entry : AuditEntry) (engine : PolicyEngine) : Prop where
  eventType : entry.eventType = .policyActivated
  version : entry.payloadExtra.lookup "new_version" = some (.int engine.version)
  content : entry.payloadExtra.lookup "content_hash" = some (.str engine.contentHash)

/-- The latest audited activation is that of the policy in force. -/
def Agrees (state : PolicyState) : Prop :=
  ∃ entry, state.activations.getLast? = some entry ∧ Activates entry state.engine

end PolicyState

-----------------------------------------------------------------------------------------
-- The swap and the audit row of one activation
-----------------------------------------------------------------------------------------

/-- (Paired events engine entry) means that what an activation changed was the policy in force and
the audit log, and that its row records its policy.
-/
structure Paired (events : List (Event VersionReply)) (engine : PolicyEngine) (entry : AuditEntry)
    : Prop where
  activates : PolicyState.Activates entry engine
  swapped : ⟨.swap engine, ()⟩ ∈ events
  audited : ∃ event ∈ events, event.call = .write entry ∧ Audits event
  only : ∀ event ∈ events,
    Quiet event.call ∨ event.call = .swap engine ∨ event.call = .write entry

/-- Neither the policy in force nor the audit log is changed. -/
def Unchanged (events : List (Event VersionReply)) : Prop :=
  ∀ event ∈ events, ¬ Swaps event.call ∧ ¬ Audits event

theorem unchanged_of_quiet {events : List (Event VersionReply)}
    (quiet : ∀ event ∈ events, Quiet event.call)
    : Unchanged events :=
  fun event member => ⟨(quiet event member).not_swaps, (quiet event member).not_audits⟩

section

variable {events : List (Event VersionReply)} {engine : PolicyEngine} {entry : AuditEntry}
  {event : Event VersionReply}

theorem Paired.call_of_swaps (paired : Paired events engine entry) (member : event ∈ events)
    (swaps : Swaps event.call)
    : event.call = .swap engine := by
  rcases paired.only event member with quiet | swap | write
  · exact absurd swaps quiet.not_swaps
  · exact swap
  · rw [write] at swaps
    exact swaps.elim

theorem Paired.call_of_audits (paired : Paired events engine entry) (member : event ∈ events)
    (audits : Audits event)
    : event.call = .write entry := by
  rcases paired.only event member with quiet | swap | write
  · exact absurd audits quiet.not_audits
  · obtain ⟨call, reply⟩ := event
    cases swap
    exact audits.elim
  · exact write

end

section

variable {reader : PolicyReader} {events : List (Event VersionReply)}

theorem paired_of_startup (exec : (startup reader).run.Exec events (.ok ()))
    : ∃ engine entry, Paired events engine entry := by
  obtain ⟨raw, engine, first, fresh, seq, _, recorded, rfl⟩ := exec_startup_ok exec
  have quiet := recorded.asks asks_recordActivation
  refine ⟨engine, PolicyActivation.startupEntry engine.version engine.contentHash, ⟨rfl, rfl, rfl⟩,
    by simp, ⟨⟨.write _, .stored seq⟩, by simp, rfl, trivial⟩, ?_⟩
  intro event member
  simp only [List.mem_cons, List.mem_append, List.not_mem_nil, or_false] at member
  rcases member with rfl | rfl | early | rfl
  · exact Or.inl trivial
  · exact Or.inr (Or.inl rfl)
  · exact Or.inl (quiet event early)
  · exact Or.inr (Or.inr rfl)

/-- A reload that swaps its policy in audits it, if its row is written. -/
theorem paired_of_reload {outcome : Except Exn Unit}
    (exec : (reloadPolicy reader).run.Exec events outcome)
    (written : ∀ entry exn, ⟨.write entry, .failed exn⟩ ∉ events)
    : Unchanged events ∨ ∃ engine entry, Paired events engine entry := by
  rcases exec_reloadPolicy exec with quiet | ⟨old, raw, candidate, first, fresh, reply, _, recorded,
      rfl⟩
  · exact Or.inl (unchanged_of_quiet quiet)
  · have quiet := recorded.asks asks_recordActivation
    have stored : Audits ⟨.write (PolicyActivation.reloadEntry old.version candidate.version
        candidate.contentHash), reply⟩ := by
      cases reply with
      | stored _ | lost _ => trivial
      | failed exn =>
          refine absurd ?_ (written (PolicyActivation.reloadEntry old.version candidate.version
            candidate.contentHash) exn)
          simp
    refine Or.inr ⟨candidate, PolicyActivation.reloadEntry old.version candidate.version
      candidate.contentHash, ⟨rfl, rfl, rfl⟩, by simp, ⟨_, by simp, rfl, stored⟩, ?_⟩
    intro event member
    simp only [List.mem_cons, List.mem_append, List.not_mem_nil, or_false] at member
    rcases member with rfl | rfl | early | rfl | rfl
    · exact Or.inl trivial
    · exact Or.inl trivial
    · exact Or.inl (quiet event early)
    · exact Or.inr (Or.inl rfl)
    · exact Or.inr (Or.inr rfl)

/-- A rollback that writes its row swaps its policy in, if the attempt to write it does not raise.
-/
theorem paired_of_rollback {apiKey : Option String} {version : Int}
    {outcome : Except HttpFailure Decision}
    (exec : (rollbackPolicy reader apiKey version).run.Exec events outcome)
    (written : ∀ entry exn, ⟨.write entry, .lost exn⟩ ∉ events)
    : Unchanged events ∨ ∃ engine entry, Paired events engine entry := by
  rcases exec_rollbackPolicy exec with quiet | ⟨first, late, identityId, rfl, authorized, rolling⟩
  · exact Or.inl (unchanged_of_quiet quiet)
  · have early := authorized.asks asks_requireAdmin
    rcases exec_rollbackAs rolling with quiet | ⟨loading, engine, old, reply, target, rfl⟩
    · refine Or.inl (unchanged_of_quiet (fun event member => ?_))
      rcases List.mem_append.mp member with here | here
      · exact early event here
      · exact quiet event here
    · have quiet := target.asks asks_rollbackTarget
      cases reply with
      | stored seq =>
          refine Or.inr ⟨engine, PolicyActivation.rollbackEntry identityId old.version
            engine.version engine.contentHash, ⟨rfl, rfl, rfl⟩, by simp [auditEvents, swapEvents],
            ⟨⟨.write _, .stored seq⟩, by simp [auditEvents], rfl, trivial⟩, ?_⟩
          intro event member
          simp only [auditEvents, swapEvents, List.mem_append, List.mem_cons, List.not_mem_nil,
            or_false] at member
          rcases member with here | here | rfl | rfl | rfl
          · exact Or.inl (early event here)
          · exact Or.inl (quiet event here)
          · exact Or.inl trivial
          · exact Or.inr (Or.inr rfl)
          · exact Or.inr (Or.inl rfl)
      | lost exn =>
          refine absurd ?_ (written (PolicyActivation.rollbackEntry identityId old.version
            engine.version engine.contentHash) exn)
          simp [auditEvents]
      | failed exn =>
          refine Or.inl (fun event member => ?_)
          simp only [auditEvents, swapEvents, List.mem_append, List.mem_cons, List.not_mem_nil,
            or_false] at member
          rcases member with here | here | rfl | rfl
          · exact unchanged_of_quiet early event here
          · exact unchanged_of_quiet quiet event here
          · exact ⟨id, id⟩
          · exact ⟨id, id⟩

end

end PolicyVersions

namespace ActivationRun

open PolicyVersions

variable {ι : Type}

section

variable {run : ActivationRun ι} {past middle : List (Stamped ι VersionReply)}

theorem activations_after (others : ∀ step ∈ middle, ¬ Audits step.event)
    : (run.state (past ++ middle)).activations = (run.state past).activations := by
  induction middle using List.reverseRecOn with
  | nil => simp
  | append_singleton middle step ih =>
      rw [← List.append_assoc, state_concat, PolicyState.activations_apply (others step (by simp))]
      exact ih (fun other member => others other (by simp [member]))

theorem activations_of_last {step : Stamped ι VersionReply} {entry : AuditEntry}
    (last : Last Audits past step) (writes : step.event.call = .write entry)
    : (run.state past).activations.getLast? = some entry := by
  obtain ⟨before, after, rfl, audits, later⟩ := last
  obtain ⟨thread, instant, call, reply⟩ := step
  cases writes
  rw [List.append_cons, activations_after later, state_concat]
  cases reply with
  | stored _ | lost _ => exact List.getLast?_concat
  | failed _ => exact audits.elim

end

variable [DecidableEq ι]

/-- No activation is in progress: a process serves, and what it was asked has ended, or has not
begun.
-/
structure Idle (run : ActivationRun ι) (past : List (Stamped ι VersionReply)) (process : Nat) : Prop
    extends run.Serving past process where
  settled : ∀ thread,
    run.process thread = process
    → eventsOf thread past = [] ∨ ∃ ended, (run.program thread).Exec (eventsOf thread past) ended

/-- Whenever no activation is in progress, the latest audited one is that of the policy in force. -/
def LastAudited (run : ActivationRun ι) : Prop :=
  ∀ past rest process,
    run.trace = past ++ rest → run.Idle past process → (run.state past).Agrees

/-- Every reload's row is written, no rollback's row is written by an attempt that raises, and of two
activations the one that swaps its policy in first is also the one that is audited first.
-/
structure Undisturbed (run : ActivationRun ι) : Prop where
  audited : ∀ step entry exn,
    step ∈ run.trace
    → run.request step.thread = .reload
    → step.event ≠ ⟨.write entry, .failed exn⟩
  refused : ∀ step apiKey version entry exn,
    step ∈ run.trace
    → run.request step.thread = .rollback apiKey version
    → step.event ≠ ⟨.write entry, .lost exn⟩
  inOrder : ∀ swap nextSwap row nextRow : Stamped ι VersionReply,
    Before run.trace swap nextSwap
    → Before run.trace row nextRow
    → Swaps swap.event.call
    → Swaps nextSwap.event.call
    → Audits row.event
    → Audits nextRow.event
    → swap.thread = nextRow.thread
    → nextSwap.thread = row.thread
    → swap.thread = nextSwap.thread

section

variable {run : ActivationRun ι} {past rest : List (Stamped ι VersionReply)} {process : Nat}

/-- Whatever changed something in a process that has nothing in progress did it in a pair. -/
theorem Idle.paired (idle : run.Idle past process) (proper : run.Proper)
    (undisturbed : run.Undisturbed) (whole : run.trace = past ++ rest)
    {step : Stamped ι VersionReply} (member : step ∈ past)
    (ofProcess : run.process step.thread = process)
    (changes : Swaps step.event.call ∨ Audits step.event)
    : ∃ engine entry, Paired (eventsOf step.thread past) engine entry := by
  have among := event_mem_eventsOf member
  have changed : ¬ Unchanged (eventsOf step.thread past) := fun unchanged =>
    changes.elim (unchanged _ among).1 (unchanged _ among).2
  have inTrace {event : Event VersionReply} (listed : event ∈ eventsOf step.thread past)
      : ∃ other ∈ run.trace, other.thread = step.thread ∧ other.event = event := by
    obtain ⟨other, there, same⟩ := step_of_eventsOf listed
    exact ⟨other, whole ▸ List.mem_append_left _ there, same⟩
  rcases idle.settled step.thread ofProcess with nothing | ⟨ended, exec⟩
  · simp [nothing] at among
  · cases request : run.request step.thread with
    | startup =>
        obtain ⟨boot, isStartup, ofBoot, booted⟩ := idle.booted
        obtain rfl := proper.once step.thread boot request isStartup (ofProcess.trans ofBoot.symm)
        rw [program, request] at booted
        obtain ⟨outcome, booted, ended⟩ := exec_isOk_iff.mp booted
        cases outcome with
        | error exn => cases ended
        | ok done => exact paired_of_startup booted
    | reload =>
        rw [program, request] at exec
        obtain ⟨outcome, exec, _⟩ := exec_isOk_iff.mp exec
        refine (paired_of_reload exec (fun entry exn listed => ?_)).resolve_left changed
        obtain ⟨other, there, ofThread, failed⟩ := inTrace listed
        exact undisturbed.audited other entry exn there (ofThread ▸ request) failed
    | rollback apiKey version =>
        rw [program, request] at exec
        obtain ⟨outcome, exec, _⟩ := exec_isOk_iff.mp exec
        refine (paired_of_rollback exec (fun entry exn listed => ?_)).resolve_left changed
        obtain ⟨other, there, ofThread, lost⟩ := inTrace listed
        exact undisturbed.refused other apiKey version entry exn there (ofThread ▸ request) lost

/-- The last swap and the last row are those of one activation: each of two activations would have
made both, and their swaps and rows would not be in one order.
-/
theorem Undisturbed.same_thread (undisturbed : run.Undisturbed) (whole : run.trace = past ++ rest)
    {swap row : Stamped ι VersionReply} {engine engine' : PolicyEngine} {entry entry' : AuditEntry}
    (lastSwap : Last (fun event => Swaps event.call) past swap) (lastRow : Last Audits past row)
    (ofSwap : Paired (eventsOf swap.thread past) engine entry)
    (ofRow : Paired (eventsOf row.thread past) engine' entry')
    : row.thread = swap.thread := by
  obtain ⟨earlierSwap, swapIn, sameRow, swaps⟩ := step_of_eventsOf ofRow.swapped
  obtain ⟨event, listed, _, audits⟩ := ofSwap.audited
  obtain ⟨earlierRow, rowIn, sameSwap, rfl⟩ := step_of_eventsOf listed
  have isSwap : Swaps earlierSwap.event.call := swaps ▸ trivial
  rcases lastSwap.same_or_before swapIn isSwap with rfl | swapBefore
  · exact sameRow.symm
  · rcases lastRow.same_or_before rowIn audits with rfl | rowBefore
    · exact sameSwap
    · rw [← sameRow]
      exact undisturbed.inOrder _ _ _ _ (whole ▸ swapBefore.append) (whole ▸ rowBefore.append)
        isSwap lastSwap.ofKind audits lastRow.ofKind sameRow sameSwap.symm

/-- When nothing is in progress, the activation that made the last swap has made the last row too,
and its row records its policy.
-/
theorem lastAudited_of_undisturbed (run : ActivationRun ι) (proper : run.Proper)
    (undisturbed : run.Undisturbed)
    : run.LastAudited := by
  intro past rest process whole idle
  obtain ⟨boot, raw, engine, first, fresh, seq, _, ofBoot, _, _, events⟩ := idle.booted.startup
  obtain ⟨swap, swapIn, ofSwap, isSwap⟩ : ∃ swap ∈ past, swap.thread = boot
      ∧ swap.event = ⟨.swap engine, ()⟩ :=
    step_of_eventsOf (by simp [events])
  obtain ⟨row, rowIn, ofRow, isRow⟩ : ∃ row ∈ past, row.thread = boot
      ∧ row.event = ⟨.write (PolicyActivation.startupEntry engine.version engine.contentHash),
        .stored seq⟩ :=
    step_of_eventsOf (by simp [events])
  obtain ⟨lastSwap, isLast⟩ : ∃ step, Last (fun event => Swaps event.call) past step :=
    exists_last ⟨swap, swapIn, isSwap ▸ trivial⟩
  obtain ⟨lastRow, isNewest⟩ : ∃ step, Last Audits past step :=
    exists_last ⟨row, rowIn, isRow ▸ trivial⟩
  have swapHere := idle.toServing.process_of_last proper whole isLast swapIn (ofSwap ▸ ofBoot)
    (isSwap ▸ trivial)
  have rowHere := idle.toServing.process_of_last proper whole isNewest rowIn (ofRow ▸ ofBoot)
    (isRow ▸ trivial)
  obtain ⟨active, entry, paired⟩ :=
    idle.paired proper undisturbed whole isLast.member swapHere (Or.inl isLast.ofKind)
  obtain ⟨_, _, paired'⟩ :=
    idle.paired proper undisturbed whole isNewest.member rowHere (Or.inr isNewest.ofKind)
  have same := undisturbed.same_thread whole isLast isNewest paired paired'
  have swapped := paired.call_of_swaps (event_mem_eventsOf isLast.member) isLast.ofKind
  have audited := paired.call_of_audits (same ▸ event_mem_eventsOf isNewest.member) isNewest.ofKind
  refine ⟨entry, activations_of_last isNewest audited, ?_⟩
  rw [engine_of_last isLast swapped]
  exact paired.activates

end

/-- The startup comes before the reload. -/
theorem reloaded_inTurn {version : Nat} {written : Written Nat} {step later : Stamped Task VersionReply}
    (before : Before (reloaded version written).trace step later)
    : step.thread = .boot ∨ later.thread = .reload := by
  have inTurn : (reloaded version written).trace.Pairwise (fun step later =>
      step.thread = .boot ∨ later.thread = .reload) := by
    simp [reloaded, startupEvents, reloadEvents]
  obtain ⟨first, middle, after, split⟩ := before
  rw [split] at inTurn
  exact (List.pairwise_cons.mp (List.pairwise_append.mp inTurn).2.1).1 later (by simp)

/-- A reload that is audited. -/
theorem lastAudited_of_undisturbed_reloaded : (reloaded 1 (.stored 2)).LastAudited := by
  refine lastAudited_of_undisturbed _ (reloaded_proper (Or.inl rfl)) ⟨?_, ?_, ?_⟩
  · intro step entry exn member _ failed
    simp only [reloaded, startupEvents, reloadEvents, List.map_cons, List.map_nil, List.mem_append,
      List.mem_cons, List.not_mem_nil, or_false] at member
    rcases member with (rfl | rfl | rfl | rfl) | (rfl | rfl | rfl | rfl | rfl) <;> cases failed
  · intro step apiKey version entry exn _ request
    cases task : step.thread <;> simp [reloaded, task] at request
  · intro swap nextSwap row nextRow swapsInOrder rowsInOrder _ _ _ _ same same'
    rcases reloaded_inTurn swapsInOrder with boot | reload
    · rcases reloaded_inTurn rowsInOrder with here | there
      · rw [boot, same', here]
      · rw [← same, boot] at there
        cases there
    · rcases reloaded_inTurn rowsInOrder with here | there
      · rw [same', here] at reload
        cases reload
      · rw [same, there, reload]

/-- A reload whose audit row cannot be written leaves its policy in force. -/
theorem unaudited_reload_is_not_lastAudited
    : ¬ ∀ run : ActivationRun Task, run.Proper → run.LastAudited := by
  intro lastAudited
  have idle : (reloaded 1 (.failed .unavailable)).Idle (reloaded 1 (.failed .unavailable)).trace 0 :=
    ⟨⟨reloaded_booted, fun _ _ => le_rfl⟩, fun thread _ => Or.inr (reloaded_ended (Or.inl rfl) thread)⟩
  obtain ⟨entry, latest, activates⟩ := lastAudited _ (reloaded_proper (Or.inl rfl)) _ []
    0 (List.append_nil _).symm idle
  cases latest
  have same := activates.version
  cases same

end ActivationRun

end SecureMcp
