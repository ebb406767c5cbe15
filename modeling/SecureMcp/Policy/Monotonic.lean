import SecureMcp.Policy.Activations

/-! Forward activations against the versions that are recorded: when a reload makes a policy active
that is older than one of them.
-/

namespace SecureMcp

open Interaction

namespace PolicyVersions

open PolicyLoading

/-- The version whose row an event adds. -/
def addedVersion : Event VersionReply → Option Int
  | ⟨.addVersion row, .stored _⟩ | ⟨.addVersion row, .lost _⟩ => some row.version
  | _ => none

/-- A version has a row only if it had one before, or if the event adds it. -/
theorem isSome_or_added {state : PolicyState} {event : Event VersionReply} {version : Int}
    (recorded : ((state.apply event).versions version).isSome)
    : (state.versions version).isSome ∨ addedVersion event = some version := by
  have added {row : PolicyVersion}
      (recorded : ((state.record row.version (some row)).versions version).isSome)
      : (state.versions version).isSome ∨ some row.version = some version := by
    by_cases same : version = row.version
    · exact Or.inr (same ▸ rfl)
    · exact Or.inl (by simpa [PolicyState.record, Function.update_of_ne same] using recorded)
  have refreshed {renewed : Int} {activatedBy : String}
      (recorded : ((state.refresh renewed activatedBy).versions version).isSome)
      : (state.versions version).isSome := by
    by_cases same : version = renewed
    · subst same
      simpa [PolicyState.refresh, PolicyState.record] using recorded
    · simpa [PolicyState.refresh, PolicyState.record, Function.update_of_ne same] using recorded
  obtain ⟨call, reply⟩ := event
  cases call with
  | addVersion row =>
      cases reply with
      | stored _ | lost _ => exact added recorded
      | failed _ => exact Or.inl recorded
  | refreshVersion renewed activatedBy =>
      cases reply with
      | stored _ | lost _ => exact Or.inl (refreshed recorded)
      | failed _ => exact Or.inl recorded
  | writeSnapshot _ _ | write _ => cases reply <;> exact Or.inl recorded
  | _ => exact Or.inl recorded

theorem OnSnapshots.adds_nothing {event : Event VersionReply} {version : Int}
    (asked : OnSnapshots event.call)
    : addedVersion event ≠ some version := by
  obtain ⟨call, reply⟩ := event
  cases call with
  | addVersion row => exact asked.elim
  | _ => simp [addedVersion]

/-- What is above the highest recorded version is above all of them. -/
theorem PolicyState.Highest.lt {state : PolicyState} {highest : Option Int} {version bound : Int}
    (top : state.Highest highest) (recorded : (state.versions version).isSome)
    (above : ∀ version, highest = some version → version < bound)
    : version < bound := by
  cases highest with
  | none => simp [top version] at recorded
  | some max => exact lt_of_le_of_lt (top.2 version recorded) (above max rfl)

/-- A request that reads the table to see where a version stands. -/
def ReadsVersions : VersionCall → Prop
  | .getVersion _ | .maxVersion => True
  | _ => False

end PolicyVersions

namespace ActivationRun

open PolicyVersions PolicyLoading

variable {ι : Type}

/-- No reload makes a policy active whose version is below one that is recorded by then. -/
def Monotonic (run : ActivationRun ι) : Prop :=
  ∀ past step rest engine version,
    run.trace = past ++ step :: rest
    → run.request step.thread = .reload
    → step.event = ⟨.swap engine, ()⟩
    → ((run.state past).versions version).isSome
    → version ≤ engine.version

/-- What was recorded at an earlier point of the run or added since, by induction on the events. -/
theorem added_since {run : ActivationRun ι} {past middle : List (Stamped ι VersionReply)}
    {version : Int} (recorded : ((run.state (past ++ middle)).versions version).isSome)
    : ((run.state past).versions version).isSome
      ∨ ∃ step ∈ middle, addedVersion step.event = some version := by
  induction middle using List.reverseRecOn with
  | nil => exact Or.inl (by simpa using recorded)
  | append_singleton middle step ih =>
      rw [← List.append_assoc, state_concat] at recorded
      rcases isSome_or_added recorded with before | added
      · rcases ih before with early | ⟨other, member, added⟩
        · exact Or.inl early
        · exact Or.inr ⟨other, by simp [member], added⟩
      · exact Or.inr ⟨step, by simp, added⟩

variable [DecidableEq ι]

/-- The file of a reload is no older policy that is recorded already, and nothing else records a
later version between a reload's look at the table and its swap.
-/
structure KeepsUp (run : ActivationRun ι) : Prop where
  newest : ∀ past step rest raw engine version,
    run.trace = past ++ step :: rest
    → run.request step.thread = .reload
    → step.event.call = .getVersion engine.version
    → ⟨.readPolicyFile, .ok raw⟩ ∈ eventsOf step.thread past
    → loadBytes (run.reader (run.process step.thread)) raw = .ok engine
    → (run.state past).Recorded engine.version engine.contentHash
    → ((run.state past).versions version).isSome
    → version ≤ engine.version
  alone : ∀ past read middle step rest engine other version,
    run.trace = past ++ read :: (middle ++ step :: rest)
    → run.request step.thread = .reload
    → read.thread = step.thread
    → ReadsVersions read.event.call
    → step.event = ⟨.swap engine, ()⟩
    → other ∈ middle
    → other.thread ≠ step.thread
    → addedVersion other.event = some version
    → version ≤ engine.version

section

variable {run : ActivationRun ι} {before middle rest : List (Stamped ι VersionReply)}
  {read step : Stamped ι VersionReply} {engine : PolicyEngine} {version : Int}

/-- What is recorded when a reload swaps its policy in was recorded when it read the table, or it
added it itself, or it is older.
-/
theorem KeepsUp.le_of_read (keepsUp : run.KeepsUp)
    (whole : run.trace = before ++ read :: (middle ++ step :: rest))
    (reload : run.request step.thread = .reload) (swapped : step.event = ⟨.swap engine, ()⟩)
    (ofThread : read.thread = step.thread) (reads : ReadsVersions read.event.call)
    (recorded : ((run.state (before ++ read :: middle)).versions version).isSome)
    (early : ((run.state before).versions version).isSome → version ≤ engine.version)
    (own : ∀ event ∈ eventsOf step.thread middle,
      ∀ version, addedVersion event = some version → version ≤ engine.version)
    : version ≤ engine.version := by
  rcases added_since recorded with there | ⟨other, member, added⟩
  · exact early there
  · rcases List.mem_cons.mp member with rfl | member
    · obtain ⟨thread, instant, call, reply⟩ := other
      cases call with
      | addVersion row => exact reads.elim
      | _ => cases added
    · by_cases mine : other.thread = step.thread
      · exact own other.event (mine ▸ event_mem_eventsOf member) version added
      · exact keepsUp.alone _ _ _ _ _ engine other version whole reload ofThread reads swapped
          member mine added

end

/-- A reload that finds its own content recorded, finds it under the latest version. One that adds
a row has seen that all others are lower.
-/
theorem monotonic_of_keepsUp (run : ActivationRun ι) (proper : run.Proper) (keepsUp : run.KeepsUp)
    : run.Monotonic := by
  intro past step rest engine version whole reload swapped recorded
  obtain ⟨old, raw, first, fresh, loads, activated, mine⟩ :=
    proper.reload_swap whole reload swapped
  rcases exec_recordActivation_ok activated with ⟨row, rfl, content⟩ | ⟨highest, snapshot, rfl,
      kept, above⟩
  · have listed : eventsOf step.thread past = [⟨.engine, old⟩, ⟨.readPolicyFile, .ok raw⟩]
        ++ ⟨.getVersion engine.version, .ok (some row)⟩ :: [] := mine
    obtain ⟨before, read, middle, rfl, ofThread, isRead, loaded, nothing⟩ :=
      split_of_eventsOf listed
    have split : run.trace = before ++ read :: (middle ++ step :: rest) := by simp [whole]
    have found := proper.answered _ _ _ split
    rw [isRead] at found
    refine keepsUp.le_of_read split reload swapped ofThread (isRead ▸ trivial) recorded ?_
      (by simp [nothing])
    intro there
    rw [← ofThread] at loaded loads reload
    exact keepsUp.newest before read _ raw engine version split reload (isRead ▸ rfl)
      (by simp [loaded]) loads ⟨row, found.symm, content⟩ there
  · have listed : eventsOf step.thread past
        = [⟨.engine, old⟩, ⟨.readPolicyFile, .ok raw⟩, ⟨.getVersion engine.version, .ok none⟩]
          ++ ⟨.maxVersion, .ok highest⟩ :: (snapshot
            ++ [⟨.addVersion (activationRow engine "operator"), .stored ()⟩]) := mine
    obtain ⟨before, read, middle, rfl, ofThread, isRead, _, later⟩ := split_of_eventsOf listed
    have split : run.trace = before ++ read :: (middle ++ step :: rest) := by simp [whole]
    have top := proper.answered _ _ _ split
    rw [isRead] at top
    refine keepsUp.le_of_read split reload swapped ofThread (isRead ▸ trivial) recorded ?_ ?_
    · intro there
      exact le_of_lt (top.lt there above)
    · rw [later]
      intro event member version added
      rcases List.mem_append.mp member with early | last
      · exact absurd added ((kept.asks asks_writeSnapshot event early).adds_nothing)
      · cases List.mem_singleton.mp last
        cases added
        exact le_rfl

theorem reloaded_adds_nothing {version : Nat} {written : Written Nat}
    {step : Stamped Task VersionReply} (member : step ∈ (reloaded version written).trace)
    : addedVersion step.event = none := by
  simp only [reloaded, startupEvents, reloadEvents, List.map_cons, List.map_nil, List.mem_append,
    List.mem_cons, List.not_mem_nil, or_false] at member
  rcases member with (rfl | rfl | rfl | rfl) | (rfl | rfl | rfl | rfl | rfl) <;> rfl

/-- A reload of the file that the gateway has started with is one of the latest version. -/
theorem monotonic_of_keepsUp_reloaded : (reloaded 2 (.stored 2)).Monotonic := by
  refine monotonic_of_keepsUp _ (reloaded_proper (Or.inr rfl)) ⟨?_, ?_⟩
  · intro past step rest raw engine version whole _ asked _ _ _ recorded
    have latest : engine.version = 2 := by
      have member : step ∈ (reloaded 2 (.stored 2)).trace := whole ▸ by simp
      simp only [reloaded, startupEvents, reloadEvents, List.map_cons, List.map_nil,
        List.mem_append, List.mem_cons, List.not_mem_nil, or_false] at member
      rcases member with (rfl | rfl | rfl | rfl) | (rfl | rfl | rfl | rfl | rfl) <;>
        simp at asked
      · exact asked.symm
      · exact asked.symm
    rw [latest]
    rcases added_since (List.nil_append past ▸ recorded) with there | ⟨other, member, added⟩
    · by_cases first : version = 1
      · exact first ▸ by decide
      · by_cases second : version = 2
        · exact second.le
        · simp [state, reloaded, successive, first, second] at there
    · have among : other ∈ (reloaded 2 (.stored 2)).trace := whole ▸ List.mem_append_left _ member
      rw [reloaded_adds_nothing among] at added
      cases added
  · intro past read middle step rest engine other version whole _ _ _ _ member _ added
    have among : other ∈ (reloaded 2 (.stored 2)).trace := by
      rw [whole]
      simp [member]
    rw [reloaded_adds_nothing among] at added
    cases added

/-- A reload of the older file makes the older policy active again: its row is there, and so nothing
compares its version with the latest one.
-/
theorem returned_file_is_not_monotonic
    : ¬ ∀ run : ActivationRun Task, run.Proper → run.Monotonic := by
  intro monotonic
  have swapped := monotonic (reloaded 1 (.stored 2)) (reloaded_proper (Or.inl rfl))
    ((reloaded 1 (.stored 2)).trace.take 7) ⟨.reload, 1, ⟨.swap (numberedEngine 1), ()⟩⟩ _
    (numberedEngine 1) 2 rfl rfl rfl rfl
  exact absurd swapped (by decide)

end ActivationRun

end SecureMcp
