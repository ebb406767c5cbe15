import SecureMcp.Library.Machine
import SecureMcp.Library.Program

/-! Runs of several programs at once: every event has a program that asked and an instant at
which it was answered. The events of one program are an execution of it; a store answers all
of them in the order of the run.
-/

namespace Interaction

variable {ι Call : Type} {Reply : Call → Type}

/-- One event of a run. -/
structure Stamped (ι : Type) {Call : Type} (Reply : Call → Type) where
  thread : ι
  instant : Rat
  event : Event Reply

/-- Events of one program that are answered in turn are a run of the store. -/
theorem Program.Served.run {σ : Type} {serves : σ → Event Reply → σ → Prop} {state after : σ}
    {events : List (Event Reply)} (served : Program.Served serves state events after) (thread : ι)
    (instant : Rat)
    : Machine.Run (fun state (step : Stamped ι Reply) after => serves state step.event after) state
        (events.map (Stamped.mk thread instant)) after := by
  induction served with
  | nil => exact .nil
  | cons head _ ih => exact .cons head ih

/-- The events are answered one after the other. -/
def InOrder (trace : List (Stamped ι Reply)) : Prop :=
  trace.Pairwise (fun step later => step.instant ≤ later.instant)

section

variable [DecidableEq ι]

/-- The steps of one program. -/
def stepsOf (thread : ι) (trace : List (Stamped ι Reply)) : List (Stamped ι Reply) :=
  trace.filter (fun step => step.thread = thread)

/-- The events of one program. -/
def eventsOf (thread : ι) (trace : List (Stamped ι Reply)) : List (Event Reply) :=
  (stepsOf thread trace).map Stamped.event

theorem thread_of_stepsOf {thread : ι} {trace : List (Stamped ι Reply)} {step : Stamped ι Reply}
    (member : step ∈ stepsOf thread trace)
    : step ∈ trace ∧ step.thread = thread := by
  simpa [stepsOf] using member

/-- An event of the run is one of its own program. -/
theorem event_mem_eventsOf {trace : List (Stamped ι Reply)} {step : Stamped ι Reply}
    (member : step ∈ trace)
    : step.event ∈ eventsOf step.thread trace :=
  List.mem_map_of_mem (List.mem_filter.mpr ⟨member, by simp⟩)

/-- The events of the program that a step belongs to, around it. -/
theorem eventsOf_append_cons (before after : List (Stamped ι Reply)) (step : Stamped ι Reply)
    : eventsOf step.thread (before ++ step :: after)
      = eventsOf step.thread before ++ step.event :: eventsOf step.thread after := by
  simp [eventsOf, stepsOf]

theorem eventsOf_append {thread : ι} (first second : List (Stamped ι Reply))
    : eventsOf thread (first ++ second) = eventsOf thread first ++ eventsOf thread second := by
  simp [eventsOf, stepsOf]

/-- Events that one program has at one instant are all its own. -/
theorem eventsOf_stamped {thread other : ι} {instant : Rat} {events : List (Event Reply)}
    : eventsOf thread (events.map (Stamped.mk other instant))
      = if other = thread then events else [] := by
  unfold eventsOf stepsOf
  rw [List.filter_map, List.map_map]
  by_cases same : other = thread <;> simp [same, Function.comp_def]

/-- An event of a program, and the steps around it. -/
theorem split_of_eventsOf {thread : ι} {trace : List (Stamped ι Reply)} {event : Event Reply}
    {first more : List (Event Reply)} (whole : eventsOf thread trace = first ++ event :: more)
    : ∃ before step after,
        trace = before ++ step :: after
        ∧ step.thread = thread
        ∧ step.event = event
        ∧ eventsOf thread before = first
        ∧ eventsOf thread after = more := by
  obtain ⟨one, _, steps, early, late⟩ := List.map_eq_append_iff.mp whole
  obtain ⟨step, rest, rfl, same, later⟩ := List.map_eq_cons_iff.mp late
  obtain ⟨past, others, split, filtered, tail⟩ := List.filter_eq_append_iff.mp steps
  obtain ⟨between, after, rfl, nothing, here, last⟩ := List.filter_eq_cons_iff.mp tail
  refine ⟨past ++ between, step, after, by simp [split], by simpa using here, same, ?_, ?_⟩
  · have empty : between.filter (fun step => step.thread = thread) = [] :=
      List.filter_eq_nil_iff.mpr nothing
    rw [eventsOf, stepsOf, List.filter_append, filtered, empty, List.append_nil, early]
  · rw [eventsOf, stepsOf, last, later]

/-- The first event of a program, and the steps around it. -/
theorem split_of_eventsOf_cons {thread : ι} {trace : List (Stamped ι Reply)} {event : Event Reply}
    {more : List (Event Reply)} (whole : eventsOf thread trace = event :: more)
    : ∃ before step after,
        trace = before ++ step :: after
        ∧ step.thread = thread
        ∧ step.event = event
        ∧ eventsOf thread after = more := by
  have listed : eventsOf thread trace = [] ++ event :: more := whole
  obtain ⟨before, step, after, split, here, same, _, later⟩ := split_of_eventsOf listed
  exact ⟨before, step, after, split, here, same, later⟩

/-- The events of a program are events of the run, in the same order. -/
theorem steps_of_eventsOf {thread : ι} {trace : List (Stamped ι Reply)}
    {events : List (Event Reply)} (among : events.Sublist (eventsOf thread trace))
    : ∃ steps : List (Stamped ι Reply),
        steps.Sublist trace
        ∧ steps.map Stamped.event = events
        ∧ ∀ step ∈ steps, step.thread = thread := by
  obtain ⟨steps, filtered, same⟩ := List.sublist_map_iff.mp among
  refine ⟨steps, filtered.trans List.filter_sublist, same.symm, ?_⟩
  intro step member
  simpa using (List.mem_filter.mp (filtered.subset member)).2

/-- One event of a program. -/
theorem step_of_eventsOf {thread : ι} {trace : List (Stamped ι Reply)} {event : Event Reply}
    (among : event ∈ eventsOf thread trace)
    : ∃ step ∈ trace, step.thread = thread ∧ step.event = event := by
  obtain ⟨step, member, same⟩ := List.mem_map.mp among
  obtain ⟨inTrace, here⟩ := List.mem_filter.mp member
  exact ⟨step, inTrace, by simpa using here, same⟩

/-- Two events of a program, the earlier one answered first. -/
theorem ordered_of_eventsOf {thread : ι} {trace : List (Stamped ι Reply)}
    {first second : Event Reply} (inOrder : InOrder trace)
    (among : [first, second].Sublist (eventsOf thread trace))
    : ∃ one two : Stamped ι Reply,
        [one, two].Sublist trace
        ∧ one.thread = thread
        ∧ two.thread = thread
        ∧ one.event = first
        ∧ two.event = second
        ∧ one.instant ≤ two.instant := by
  obtain ⟨steps, inTrace, same, threads⟩ := steps_of_eventsOf among
  obtain ⟨one, rest, rfl, here, tail⟩ := List.map_eq_cons_iff.mp same
  obtain ⟨two, last, rfl, there, empty⟩ := List.map_eq_cons_iff.mp tail
  cases List.map_eq_nil_iff.mp empty
  have ordered := inOrder.sublist inTrace
  refine ⟨one, two, inTrace, threads one (by simp), threads two (by simp), here, there, ?_⟩
  exact (List.pairwise_cons.mp ordered).1 two List.mem_cons_self

end

/-- Two places in a list are one, or one is before the other. -/
theorem same_or_before {α : Type} {first second rest others : List α} {one two : α}
    (same : first ++ one :: rest = second ++ two :: others)
    : (first = second ∧ one = two ∧ rest = others)
      ∨ (one ∈ second ∧ two ∈ rest)
      ∨ (two ∈ first ∧ one ∈ others) := by
  rcases List.append_eq_append_iff.mp same with ⟨between, rfl, there⟩ | ⟨between, rfl, there⟩
  · cases between with
    | nil =>
        cases there
        exact Or.inl ⟨by simp, rfl, rfl⟩
    | cons head tail =>
        cases there
        exact Or.inr (Or.inl ⟨by simp, by simp⟩)
  · cases between with
    | nil =>
        cases there
        exact Or.inl ⟨by simp, rfl, rfl⟩
    | cons head tail =>
        cases there
        exact Or.inr (Or.inr ⟨by simp, by simp⟩)

/-- One item stands somewhere before another. -/
def Before {α : Type} (items : List α) (one two : α) : Prop :=
  ∃ before middle after, items = before ++ one :: (middle ++ two :: after)

theorem Before.append {α : Type} {items more : List α} {one two : α} (before : Before items one two)
    : Before (items ++ more) one two := by
  obtain ⟨first, middle, after, rfl⟩ := before
  exact ⟨first, middle, after ++ more, by simp⟩

/-- The last step of a run whose event is of a kind. -/
def Last (holds : Event Reply → Prop) (trace : List (Stamped ι Reply)) (step : Stamped ι Reply)
    : Prop :=
  ∃ before after,
    trace = before ++ step :: after
    ∧ holds step.event
    ∧ ∀ other ∈ after, ¬ holds other.event

section

variable {holds : Event Reply → Prop} {trace : List (Stamped ι Reply)} {step other : Stamped ι Reply}

/-- A kind that occurs has a last step, by induction on the run from its end. -/
theorem exists_last (some : ∃ step ∈ trace, holds step.event) : ∃ step, Last holds trace step := by
  induction trace using List.reverseRecOn with
  | nil => simp at some
  | append_singleton trace newest ih =>
      by_cases here : holds newest.event
      · exact ⟨newest, trace, [], rfl, here, by simp⟩
      · obtain ⟨step, member, there⟩ := some
        rcases List.mem_append.mp member with early | late
        · obtain ⟨found, before, after, rfl, itHolds, later⟩ := ih ⟨step, early, there⟩
          refine ⟨found, before, after ++ [newest], by simp, itHolds, ?_⟩
          intro other member
          rcases List.mem_append.mp member with among | last
          · exact later other among
          · exact List.mem_singleton.mp last ▸ here
        · exact absurd (List.mem_singleton.mp late ▸ there) here

theorem Last.member (last : Last holds trace step) : step ∈ trace := by
  obtain ⟨before, after, rfl, _⟩ := last
  simp

theorem Last.ofKind (last : Last holds trace step) : holds step.event := by
  obtain ⟨before, after, _, here, _⟩ := last
  exact here

/-- The other steps of the kind stand before the last one. -/
theorem Last.same_or_before (last : Last holds trace step) (member : other ∈ trace)
    (itHolds : holds other.event)
    : other = step ∨ Before trace other step := by
  obtain ⟨before, after, rfl, _, later⟩ := last
  rcases List.mem_append.mp member with early | late
  · obtain ⟨first, middle, rfl⟩ := List.append_of_mem early
    exact Or.inr ⟨first, middle, after, by simp⟩
  · rcases List.mem_cons.mp late with here | newer
    · exact Or.inl here
    · exact absurd itHolds (later other newer)

end

/-- A place that is not in the first of two lists is in the second. -/
theorem place_in_second {α : Type} {first second before rest : List α} {item : α}
    (same : first ++ second = before ++ item :: rest) (outside : item ∉ first)
    : ∃ between, before = first ++ between ∧ second = between ++ item :: rest := by
  rcases List.append_eq_append_iff.mp same with ⟨between, there, here⟩ | ⟨between, there, here⟩
  · exact ⟨between, there, here⟩
  · cases between with
    | nil => exact ⟨[], by simpa using there.symm, here.symm⟩
    | cons head tail =>
        obtain ⟨rfl, _⟩ := List.cons_eq_cons.mp here
        exact absurd (there ▸ by simp) outside

/-- A place that nothing around another place can be is that place. -/
theorem same_of_only {α : Type} (holds : α → Prop) {first second rest others : List α} {one two : α}
    (same : first ++ one :: rest = second ++ two :: others) (here : holds one)
    (before : ∀ item ∈ second, ¬ holds item) (after : ∀ item ∈ others, ¬ holds item)
    : first = second ∧ one = two ∧ rest = others := by
  rcases same_or_before same with place | ⟨early, _⟩ | ⟨_, late⟩
  · exact place
  · exact absurd here (before one early)
  · exact absurd here (after one late)

/-- Two different events stand one before the other. -/
theorem before_or_after {one two : Stamped ι Reply} {trace : List (Stamped ι Reply)}
    (first : one ∈ trace) (second : two ∈ trace) (differ : one ≠ two)
    : (∃ before middle after, trace = before ++ one :: (middle ++ two :: after))
      ∨ ∃ before middle after, trace = before ++ two :: (middle ++ one :: after) := by
  obtain ⟨before, after, split⟩ := List.append_of_mem first
  rw [split] at second
  rcases List.mem_append.mp second with early | late
  · obtain ⟨start, middle, there⟩ := List.append_of_mem early
    exact Or.inr ⟨start, middle, after, by rw [split, there]; simp⟩
  · rcases List.mem_cons.mp late with same | later
    · exact absurd same.symm differ
    · obtain ⟨middle, last, there⟩ := List.append_of_mem later
      exact Or.inl ⟨before, middle, last, by rw [split, there]⟩

end Interaction
