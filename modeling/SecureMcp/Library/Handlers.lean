import SecureMcp.Library.Program

/-! Programs whose calls are answered by programs of their own, over the calls of a lower level. -/

namespace Interaction

variable {Call Lower : Type} {Reply : Call → Type} {Answer : Lower → Type} {α : Type}

/-- Answer each call of a program with its handler. -/
def Program.expand (handler : (call : Call) → Program Lower Answer (Reply call))
    : Program Call Reply α → Program Lower Answer α
  | .done value => .done value
  | .ask call next => (handler call).bind (fun reply => (next reply).expand handler)

/-- (Expands handler events inner) means that `inner` is made of executions of the handlers of
`events`, one after the other.
-/
inductive Expands (handler : (call : Call) → Program Lower Answer (Reply call))
    : List (Event Reply) → List (Event Answer) → Prop
  | nil : Expands handler [] []
  | cons {call : Call} {reply : Reply call} {events : List (Event Reply)}
    {first rest : List (Event Answer)} (handled : (handler call).Exec first reply)
    (tail : Expands handler events rest)
    : Expands handler (⟨call, reply⟩ :: events) (first ++ rest)

variable {handler : (call : Call) → Program Lower Answer (Reply call)}

/-- An execution of the handlers is one of the program, by induction on it. -/
theorem Program.exec_expand_iff {program : Program Call Reply α} {inner : List (Event Answer)}
    {value : α}
    : (program.expand handler).Exec inner value
      ↔ ∃ events, program.Exec events value ∧ Expands handler events inner := by
  refine ⟨?_, ?_⟩
  · intro exec
    induction program generalizing inner with
    | done result =>
        obtain ⟨rfl, rfl⟩ := Program.exec_done_iff.mp exec
        exact ⟨[], .done _, .nil⟩
    | ask call next ih =>
        obtain ⟨first, rest, reply, rfl, handled, exec⟩ := Program.exec_bind_iff.mp exec
        obtain ⟨events, outer, expands⟩ := ih reply exec
        exact ⟨_, .ask outer, .cons handled expands⟩
  · intro ⟨events, exec, expands⟩
    induction exec generalizing inner with
    | done result =>
        cases expands
        exact .done _
    | ask _ ih =>
        cases expands with
        | cons handled tail => exact Program.exec_bind_iff.mpr ⟨_, _, _, rfl, handled, ih tail⟩

theorem Expands.append_iff {first second : List (Event Reply)} {inner : List (Event Answer)}
    : Expands handler (first ++ second) inner
      ↔ ∃ one two, inner = one ++ two ∧ Expands handler first one ∧ Expands handler second two := by
  induction first generalizing inner with
  | nil =>
      refine ⟨fun expands => ⟨[], inner, rfl, .nil, expands⟩, ?_⟩
      rintro ⟨one, two, rfl, empty, expands⟩
      cases empty
      exact expands
  | cons event first ih =>
      refine ⟨?_, ?_⟩
      · intro expands
        cases expands with
        | cons handled tail =>
            obtain ⟨one, two, rfl, left, right⟩ := ih.mp tail
            exact ⟨_, two, (List.append_assoc _ _ _).symm, .cons handled left, right⟩
      · rintro ⟨one, two, rfl, left, right⟩
        cases left with
        | cons handled tail =>
            rw [List.append_assoc]
            exact .cons handled (ih.mpr ⟨_, _, rfl, tail, right⟩)

/-- What the handler of an event did, within all that was done. -/
theorem Expands.of_mem {events : List (Event Reply)} {inner : List (Event Answer)}
    {event : Event Reply} (expands : Expands handler events inner) (member : event ∈ events)
    : ∃ first, (handler event.call).Exec first event.reply ∧ first.Sublist inner := by
  induction expands with
  | nil => cases member
  | @cons _ _ _ first _ handled _ ih =>
      rcases List.mem_cons.mp member with rfl | later
      · exact ⟨first, handled, List.sublist_append_left _ _⟩
      · obtain ⟨inside, exec, within⟩ := ih later
        exact ⟨inside, exec, within.trans (List.sublist_append_right _ _)⟩

/-- What no handler of the events asks is not asked, by induction on them. -/
theorem Expands.asks {allowed : Lower → Prop} {events : List (Event Reply)}
    {inner : List (Event Answer)} (expands : Expands handler events inner)
    (each : ∀ event ∈ events, (handler event.call).Asks allowed)
    : ∀ event ∈ inner, allowed event.call := by
  induction expands with
  | nil => simp
  | cons handled _ ih =>
      intro event member
      rcases List.mem_append.mp member with early | late
      · exact handled.asks (each _ List.mem_cons_self) event early
      · exact ih (fun event member => each event (List.mem_cons_of_mem _ member)) event late

/-- A program asks what the handlers of its calls ask, by induction on it. -/
theorem Program.Asks.expand {asked : Call → Prop} {allowed : Lower → Prop}
    {program : Program Call Reply α} (asks : program.Asks asked)
    (each : ∀ call, asked call → (handler call).Asks allowed)
    : (program.expand handler).Asks allowed := by
  induction program with
  | done value => trivial
  | ask call next ih => exact (each call asks.1).bind (fun reply => ih reply (asks.2 reply))

/-- Calls that are passed on one by one. -/
theorem Expands.map {embed : Event Reply → Event Answer}
    (each : ∀ event, (handler event.call).Exec [embed event] event.reply) (events : List (Event Reply))
    : Expands handler events (events.map embed) := by
  induction events with
  | nil => exact .nil
  | cons event rest ih => exact .cons (each event) ih

/-- Calls that are passed on one by one leave the same events. -/
theorem Expands.eq_map {embed : Event Reply → Event Answer} {events : List (Event Reply)}
    {inner : List (Event Answer)} (expands : Expands handler events inner)
    (single : ∀ call reply first, (handler call).Exec first reply → first = [embed ⟨call, reply⟩])
    : inner = events.map embed := by
  induction expands with
  | nil => rfl
  | cons handled _ ih => rw [single _ _ _ handled, ih, List.map_cons, List.singleton_append]

/-- What a program asks after its own events holds of a program whose calls are passed on one by one,
where `project` finds the events of the first in those of the second. By induction on the program.
-/
theorem Program.AsksAfter.expand {allowed : List (Event Reply) → Call → Prop}
    {permitted : List (Event Answer) → Lower → Prop} {program : Program Call Reply α}
    {embed : Event Reply → Event Answer}
    {project : List (Event Answer) → List (Event Reply)} {past : List (Event Reply)}
    {inner : List (Event Answer)} (asks : program.AsksAfter allowed past)
    (holds : List (Event Answer) → Prop)
    (single : ∀ call reply first, (handler call).Exec first reply → first = [embed ⟨call, reply⟩])
    (seen : ∀ before event, project (before ++ [embed event]) = project before ++ [event])
    (keeps : ∀ before event, holds before → holds (before ++ [embed event]))
    (pass : ∀ before call,
      holds before → allowed (project before) call → (handler call).AsksAfter permitted before)
    (start : project inner = past) (first : holds inner)
    : (program.expand handler).AsksAfter permitted inner := by
  induction program generalizing past inner with
  | done value => trivial
  | ask call next ih =>
      obtain ⟨here, rest⟩ := asks
      refine Program.AsksAfter.bind (pass inner call first (start ▸ here))
        (fun events reply handled => ?_)
      rw [single call reply events handled]
      exact ih reply (rest reply) (by rw [seen, start]) (keeps _ _ first)

end Interaction
