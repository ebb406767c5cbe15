import SecureMcp.Policy.Activations

/-! The policy in force: it was swapped in by the process that serves, and it is recorded under its
version by then.
-/

namespace SecureMcp

open Interaction

namespace PolicyVersions

theorem PolicyState.engine_apply {state : PolicyState} {event : Event VersionReply}
    (other : ¬ Swaps event.call)
    : (state.apply event).engine = state.engine := by
  obtain ⟨call, reply⟩ := event
  cases call with
  | swap engine => exact absurd trivial other
  | writeSnapshot _ _ | addVersion _ | refreshVersion _ _ | write _ => cases reply <;> rfl
  | _ => rfl

end PolicyVersions

namespace ActivationRun

open PolicyVersions PolicyLoading

variable {ι : Type}

section

variable {run : ActivationRun ι} {past middle : List (Stamped ι VersionReply)}

/-- Events that swap nothing in leave the policy in force as it was, by induction. -/
theorem engine_after (others : ∀ step ∈ middle, ¬ Swaps step.event.call)
    : (run.state (past ++ middle)).engine = (run.state past).engine := by
  induction middle using List.reverseRecOn with
  | nil => simp
  | append_singleton middle step ih =>
      rw [← List.append_assoc, state_concat, PolicyState.engine_apply (others step (by simp))]
      exact ih (fun other member => others other (by simp [member]))

/-- The policy in force is the one that was swapped in last. -/
theorem engine_of_last {step : Stamped ι VersionReply} {engine : PolicyEngine}
    (last : Last (fun event => Swaps event.call) past step) (swaps : step.event.call = .swap engine)
    : (run.state past).engine = engine := by
  obtain ⟨before, after, rfl, _, later⟩ := last
  obtain ⟨thread, instant, call, reply⟩ := step
  cases swaps
  rw [List.append_cons, engine_after later, state_concat]
  rfl

end

variable [DecidableEq ι]

section

variable {run : ActivationRun ι} {past rest : List (Stamped ι VersionReply)} {process : Nat}

/-- The last step of a kind that the serving process has taken is its own. -/
theorem Serving.process_of_last (proper : run.Proper) (serving : run.Serving past process)
    (whole : run.trace = past ++ rest) {holds : Event VersionReply → Prop}
    {step own : Stamped ι VersionReply} (last : Last holds past step) (member : own ∈ past)
    (ofProcess : run.process own.thread = process) (itHolds : holds own.event)
    : run.process step.thread = process := by
  refine le_antisymm (serving.latest step last.member) ?_
  rw [← ofProcess]
  rcases last.same_or_before member itHolds with rfl | ⟨before, middle, after, rfl⟩
  · exact le_rfl
  · have inTurn := proper.inTurn
    rw [whole, List.append_assoc] at inTurn
    exact (List.pairwise_cons.mp (List.pairwise_append.mp inTurn).2.1).1 step (by simp)

/-- (Prepared reader engine events) means that the policy was loaded, and found recorded or recorded.
-/
def Prepared (reader : PolicyReader) (engine : PolicyEngine) (events : List (Event VersionReply))
    : Prop :=
  (∃ raw, loadBytes reader raw = .ok engine)
  ∧ ∃ event ∈ events, PolicyState.Witnesses engine event

/-- A rollback that swaps a policy in has loaded its snapshot and found it recorded. -/
theorem Proper.rollback_swap (proper : run.Proper) {step : Stamped ι VersionReply}
    {engine : PolicyEngine} (whole : run.trace = past ++ step :: rest) {apiKey : Option String}
    {version : Int} (rollback : run.request step.thread = .rollback apiKey version)
    (swapped : step.event = ⟨.swap engine, ()⟩)
    : Prepared (run.reader (run.process step.thread)) engine (eventsOf step.thread past) := by
  obtain ⟨later, ended, exec⟩ := proper.exec_around whole
  rw [program, rollback, swapped] at exec
  obtain ⟨outcome, exec, _⟩ := exec_isOk_iff.mp exec
  rcases exec_rollbackPolicy exec with quiet | ⟨first, last, identityId, same, authorized, rolling⟩
  · exact (quiet ⟨.swap engine, ()⟩ (by simp)).elim
  · have early := authorized.asks asks_requireAdmin
    have here : ⟨.swap engine, ()⟩ ∈ first ++ last := same ▸ by simp
    have among : ⟨.swap engine, ()⟩ ∈ last := by
      rcases List.mem_append.mp here with before | late
      · exact (early _ before).elim
      · exact late
    rcases exec_rollbackAs rolling with quiet | ⟨loading, target, old, written, loads, rfl⟩
    · exact (quiet _ among).elim
    · have quiet := loads.asks asks_rollbackTarget
      cases written with
      | stored seq =>
          have listed : eventsOf step.thread past
                ++ ⟨.swap engine, ()⟩ :: (eventsOf step.thread rest ++ later)
              = (first ++ loading ++ [⟨.engine, old⟩,
                  ⟨.write (PolicyActivation.rollbackEntry identityId old.version target.version
                    target.contentHash), .stored seq⟩]) ++ ⟨.swap target, ()⟩ :: [] := by
            simp [same, auditEvents, swapEvents]
          obtain ⟨before, one, _⟩ := same_of_only (fun event : Event VersionReply => Swaps event.call)
            listed (by trivial) (by
              intro event member
              simp only [List.mem_append, List.mem_cons, List.not_mem_nil, or_false] at member
              rcases member with (here | here) | rfl | rfl
              · exact (early event here).not_swaps
              · exact (quiet event here).not_swaps
              · exact id
              · exact id) (by simp)
          cases one
          obtain ⟨raw, _, _, _, loaded, _⟩ := exec_rollbackTarget_ok_iff.mp loads
          obtain ⟨event, member, witness⟩ := witness_of_rollbackTarget loads
          exact ⟨⟨raw, loaded⟩, event, by simp [before, member], witness⟩
      | lost exn | failed exn =>
          simp only [auditEvents, swapEvents, List.mem_append, List.mem_cons, List.not_mem_nil,
            or_false] at among
          rcases among with here | here | here
          · exact (quiet _ here).elim
          · cases here
          · cases here

/-- Whatever swapped a policy in while a process serves, had prepared it, or is its startup. -/
theorem Serving.prepared (serving : run.Serving past process) (proper : run.Proper)
    (whole : run.trace = past ++ rest)
    : ∃ thread before after,
        past = before ++ after
        ∧ Prepared (run.reader process) (run.state past).engine (eventsOf thread before) := by
  obtain ⟨boot, raw, engine, first, fresh, seq, isStartup, ofBoot, loads, recorded, events⟩ :=
    serving.booted.startup
  obtain ⟨swap, member, ofSwap, isSwap⟩ : ∃ swap ∈ past, swap.thread = boot
      ∧ swap.event = ⟨.swap engine, ()⟩ :=
    step_of_eventsOf (by simp [events])
  obtain ⟨step, last⟩ : ∃ step, Last (fun event => Swaps event.call) past step :=
    exists_last ⟨swap, member, isSwap ▸ trivial⟩
  have own := serving.process_of_last proper whole last member (ofSwap ▸ ofBoot) (isSwap ▸ trivial)
  obtain ⟨active, swapped⟩ : ∃ active, step.event = ⟨.swap active, ()⟩ := by
    obtain ⟨thread, instant, call, reply⟩ := step
    cases call with
    | swap active => exact ⟨active, rfl⟩
    | _ => exact last.ofKind.elim
  rw [engine_of_last last (show step.event.call = .swap active from swapped ▸ rfl)]
  obtain ⟨before, after, here, _⟩ := last
  have split : run.trace = before ++ step :: (after ++ rest) := by simp [whole, here]
  cases request : run.request step.thread with
  | startup =>
      obtain rfl := proper.once step.thread boot request isStartup (own.trans ofBoot.symm)
      have listed : ⟨.swap active, ()⟩ ∈ eventsOf step.thread past :=
        swapped ▸ event_mem_eventsOf (here ▸ by simp)
      have quiet := recorded.asks asks_recordActivation
      have same : active = engine := by
        rw [events] at listed
        simp only [List.mem_cons, List.mem_append, List.not_mem_nil, or_false] at listed
        rcases listed with loading | here | early | audit
        · cases loading
        · cases here
          rfl
        · exact (quiet _ early).elim
        · cases audit
      obtain ⟨event, member, witness⟩ := witness_of_recordActivation recorded
      exact ⟨step.thread, past, [], by simp, ⟨raw, same ▸ loads⟩, event, by simp [events, member],
        same ▸ witness⟩
  | reload =>
      obtain ⟨_, raw, _, _, loads, recorded, events⟩ := proper.reload_swap split request swapped
      obtain ⟨event, member, witness⟩ := witness_of_recordActivation recorded
      exact ⟨step.thread, before, step :: after, here, ⟨raw, own ▸ loads⟩, event,
        by simp [events, member], witness⟩
  | rollback apiKey version =>
      have prepared := proper.rollback_swap split request swapped
      exact ⟨step.thread, before, step :: after, here, own ▸ prepared⟩

/-- The policy in force is recorded under its version. -/
theorem Serving.recorded (serving : run.Serving past process) (proper : run.Proper)
    (whole : run.trace = past ++ rest)
    : (run.state past).Recorded (run.state past).engine.version (run.state past).engine.contentHash := by
  obtain ⟨thread, before, after, here, _, event, member, witness⟩ := serving.prepared proper whole
  obtain ⟨step, among, _, rfl⟩ := step_of_eventsOf member
  exact proper.recorded_of_witness whole (here ▸ List.mem_append_left _ among) witness

theorem Serving.loaded (serving : run.Serving past process) (proper : run.Proper)
    (whole : run.trace = past ++ rest)
    : ∃ raw, loadBytes (run.reader process) raw = .ok (run.state past).engine := by
  obtain ⟨_, _, _, _, loads, _⟩ := serving.prepared proper whole
  exact loads

end

/-- What a process that serves goes by is recorded for the rest of the run. -/
theorem Serving.recorded_finally {run : ActivationRun ι} {past rest : List (Stamped ι VersionReply)}
    {process : Nat} (serving : run.Serving past process) (proper : run.Proper)
    (whole : run.trace = past ++ rest)
    : (run.state run.trace).Recorded (run.state past).engine.version
        (run.state past).engine.contentHash := by
  have split : run.trace = past ++ (rest ++ []) := by simp [whole]
  have later := proper.recorded_later split (serving.recorded proper whole)
  rwa [← whole] at later

/-- Policies that are in force with one version have one content, whatever happens in between: each
is recorded, and a row keeps its content.
-/
theorem Serving.content_of_version {run : ActivationRun ι}
    {past past' rest rest' : List (Stamped ι VersionReply)} {process process' : Nat}
    (proper : run.Proper) (serving : run.Serving past process) (whole : run.trace = past ++ rest)
    (serving' : run.Serving past' process') (whole' : run.trace = past' ++ rest')
    (same : (run.state past).engine.version = (run.state past').engine.version)
    : (run.state past).engine.contentHash = (run.state past').engine.contentHash := by
  obtain ⟨row, found, content⟩ := serving.recorded_finally proper whole
  obtain ⟨row', found', content'⟩ := serving'.recorded_finally proper whole'
  rw [same, found'] at found
  cases found
  exact content.symm.trans content'

end ActivationRun

end SecureMcp
