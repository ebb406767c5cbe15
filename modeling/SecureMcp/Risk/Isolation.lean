import SecureMcp.Risk.Frequency

/-! What scorings and approvals of one call change of what is read for another: the keys of
Redis are their parts joined by colons.
-/

namespace SecureMcp.Risk

open Interaction
open WindowCounter (Counter)

/-- A live scoring of a call, or an approval of it. -/
inductive Operation
  | scored (scoring : Scoring)
  | approved (instant : Rat) (events : List (Event RiskReply)) (outcome : Except Exn Unit)

/-- One operation on a call, all of whose commands Redis answers at its instant. -/
def Operates (settings : RiskSettings) (stdlib : Stdlib) (key : CallKey) (redis : Redis)
    : Operation → Redis → Prop
  | .scored scoring, after => Scores settings stdlib key redis scoring after
  | .approved instant events outcome, after =>
      (applyDecay settings key).run.Exec events outcome
      ∧ Program.Served (Redis.Serves instant) redis events after

/-- The frequency count read for a call: `_counter` of its key. -/
def frequencyRead (redis : Redis) (key : CallKey) (now : Rat) : Int :=
  ((redis (freqKey key)).live now).getD 0

/-- The decay offset read for a call. -/
def offsetRead (settings : RiskSettings) (redis : Redis) (key : CallKey) (now : Rat) : Int :=
  RiskEngine.decayOffset settings ((redis (decayKey key)).live now)

/-- No sequence of operations on one call changes what is read for the other, at any time. -/
def Isolated (settings : RiskSettings) (stdlib : Stdlib) (one other : CallKey) : Prop :=
  ∀ redis operations after,
    Machine.Run (Operates settings stdlib one) redis operations after →
      ∀ now,
        frequencyRead after other now = frequencyRead redis other now
        ∧ offsetRead settings after other now = offsetRead settings redis other now

/-- What the operations on a call may write. -/
def Touches (key : CallKey) : RiskCall → Prop
  | .incr name => name = freqKey key
  | .incrBy name _ => name = decayKey key
  | .expire name _ => name = freqKey key ∨ name = decayKey key
  | _ => True

section

variable {settings : RiskSettings} {stdlib : Stdlib} {key : CallKey}

theorem reads_touches (key : CallKey) (call : RiskCall) (reads : Reads call)
    : Touches key call := by
  cases call with
  | incr name => exact absurd reads id
  | incrBy name amount => exact absurd reads id
  | expire name seconds => exact absurd reads id
  | _ => trivial

theorem bumpFrequency_asks : (bumpFrequency settings key).run.Asks (Touches key) := by
  apply Coroutine.asks_bind
  · exact Coroutine.asks_demand _ rfl
  intro count
  split
  · exact Coroutine.asks_bind (Coroutine.asks_demand _ (Or.inl rfl)) (fun _ => Coroutine.asks_pure _)
  · exact Coroutine.asks_pure _

theorem score_asks (arguments : Json) (policy : RiskPolicy)
    : (score settings stdlib key arguments policy false).run.Asks (Touches key) := by
  apply Coroutine.asks_bind
  · exact bumpFrequency_asks
  · intro count
    exact (tail_asks count).mono (reads_touches key)

theorem applyDecay_asks : (applyDecay settings key).run.Asks (Touches key) := by
  apply Coroutine.asks_bind
  · exact Coroutine.asks_demand _ rfl
  · intro applied
    exact Coroutine.asks_demand _ (Or.inr rfl)

/-- A command leaves every key that it does not name. -/
theorem effect_other {redis after : Redis} {now : Rat} {event : Event RiskReply} {name : String}
    (touches : Touches key event.call) (count : name ≠ freqKey key) (offset : name ≠ decayKey key)
    (served : Redis.Serves now redis event after)
    : after name = redis name := by
  obtain ⟨call, reply⟩ := event
  have effect := served.2
  have other (touched : String) (counter : Counter) (different : name ≠ touched)
      : redis.set touched counter name = redis name :=
    if_neg different
  cases call with
  | incr touched =>
      cases touches
      simp only [Redis.effect] at effect
      rw [effect]
      split
      · rfl
      · exact other _ _ count
  | incrBy touched amount =>
      cases touches
      simp only [Redis.effect] at effect
      rw [effect]
      split
      · rfl
      · exact other _ _ offset
  | expire touched seconds =>
      have different : name ≠ touched := by
        rcases touches with same | same
        · exact same ▸ count
        · exact same ▸ offset
      simp only [Redis.effect] at effect
      rw [effect]
      split
      · rfl
      · exact other _ _ different
  | _ => exact congrFun effect name

/-- An operation on a call leaves every key but the two of the call. -/
theorem Operates.leaves {redis after : Redis} {operation : Operation} {name : String}
    (operates : Operates settings stdlib key redis operation after)
    (count : name ≠ freqKey key) (offset : name ≠ decayKey key)
    : after name = redis name := by
  cases operation with
  | scored scoring =>
      obtain ⟨exec, served⟩ := operates
      refine served.keeps (fun redis => redis name) ?_
      intro event member before next answered
      exact effect_other (exec.asks (score_asks _ _) event member) count offset answered
  | approved instant events outcome =>
      obtain ⟨exec, served⟩ := operates
      refine served.keeps (fun redis => redis name) ?_
      intro event member before next answered
      exact effect_other (exec.asks applyDecay_asks event member) count offset answered

theorem freqKey_eq_iff {one other : CallKey}
    : freqKey one = freqKey other ↔ joined one = joined other := by
  simp [freqKey, String.ext_iff]

theorem decayKey_eq_iff {one other : CallKey}
    : decayKey one = decayKey other ↔ joined one = joined other := by
  simp [decayKey, String.ext_iff]

/-- No sequence of operations on a call changes the keys of a call that is joined otherwise. -/
theorem isolated_of_joined_ne {one other : CallKey} (different : joined other ≠ joined one)
    : Isolated settings stdlib one other := by
  intro redis operations after run now
  have kept : after (freqKey other) = redis (freqKey other)
      ∧ after (decayKey other) = redis (decayKey other) := by
    refine run.invariant (fun state => state (freqKey other) = redis (freqKey other)
      ∧ state (decayKey other) = redis (decayKey other)) ⟨rfl, rfl⟩ ?_
    intro state operation next ⟨count, offset⟩ operates
    have counts := operates.leaves (mt freqKey_eq_iff.mp different) (freqKey_ne_decayKey one)
    have offsets := operates.leaves (freqKey_ne_decayKey other).symm
      (mt decayKey_eq_iff.mp different)
    exact ⟨counts.trans count, offsets.trans offset⟩
  unfold frequencyRead offsetRead
  rw [kept.1, kept.2]
  exact ⟨rfl, rfl⟩

/-- One scoring is counted for every call that is joined alike. -/
theorem not_isolated_of_joined_eq {one other : CallKey} (same : joined other = joined one)
    : ¬ Isolated settings stdlib one other := by
  intro isolated
  have scored : Operates settings stdlib one (lone one none)
      (.scored (quietly settings stdlib one 0 1 (.applied ())))
      (lone one (some (1, some (0 + settings.riskFreqWindowSeconds.val)))) :=
    first_scores rfl
  have unchanged := (isolated _ _ _ (Machine.Run.nil.concat scored) 0).1
  have found : freqKey other = freqKey one := freqKey_eq_iff.mpr same
  have live : (0 : Rat) ≤ settings.riskFreqWindowSeconds.val := Nat.cast_nonneg _
  simp [frequencyRead, found, lone, Counter.live, live] at unchanged

/-- The risk state of two calls is kept apart exactly when their parts are joined otherwise. -/
theorem isolated_iff {one other : CallKey}
    : Isolated settings stdlib one other ↔ joined other ≠ joined one := by
  refine ⟨?_, isolated_of_joined_ne⟩
  intro isolated same
  exact not_isolated_of_joined_eq same isolated

/-- Two texts split alike at their first separator, by induction on the first text. -/
theorem split_at_first {α : Type} {separator : α} {first second rest other : List α}
    (left : separator ∉ first) (right : separator ∉ second)
    (same : first ++ separator :: rest = second ++ separator :: other)
    : first = second ∧ rest = other := by
  induction first generalizing second with
  | nil =>
      cases second with
      | nil => simpa using same
      | cons char more =>
          simp only [List.nil_append, List.cons_append, List.cons.injEq] at same
          exact absurd (same.1 ▸ List.mem_cons_self) right
  | cons char more ih =>
      cases second with
      | nil =>
          simp only [List.nil_append, List.cons_append, List.cons.injEq] at same
          exact absurd (same.1 ▸ List.mem_cons_self) left
      | cons char' more' =>
          simp only [List.cons_append, List.cons.injEq] at same
          obtain ⟨head, tail⟩ := same
          obtain ⟨front, back⟩ := ih (fun among => left (List.mem_cons_of_mem _ among))
            (fun among => right (List.mem_cons_of_mem _ among)) tail
          exact ⟨by rw [head, front], back⟩

/-- Without colons in its first two parts a call can be told from how it is joined. -/
theorem joined_injective {one other : CallKey}
    (oneIdentity : ':' ∉ one.identityId.toList) (oneServer : ':' ∉ one.serverId.toList)
    (otherIdentity : ':' ∉ other.identityId.toList) (otherServer : ':' ∉ other.serverId.toList)
    (same : joined one = joined other)
    : one = other := by
  obtain ⟨identity, server, tool⟩ := one
  obtain ⟨identity', server', tool'⟩ := other
  have chars : identity.toList ++ ':' :: (server.toList ++ ':' :: tool.toList)
      = identity'.toList ++ ':' :: (server'.toList ++ ':' :: tool'.toList) := by
    simpa [joined] using congrArg String.toList same
  obtain ⟨identities, rest⟩ := split_at_first oneIdentity otherIdentity chars
  obtain ⟨servers, tools⟩ := split_at_first oneServer otherServer rest
  cases String.toList_injective identities
  cases String.toList_injective servers
  cases String.toList_injective tools
  rfl

theorem isolated_of_colonless {one other : CallKey} (different : one ≠ other)
    (oneIdentity : ':' ∉ one.identityId.toList) (oneServer : ':' ∉ one.serverId.toList)
    (otherIdentity : ':' ∉ other.identityId.toList) (otherServer : ':' ∉ other.serverId.toList)
    : Isolated settings stdlib one other := by
  apply isolated_of_joined_ne
  intro same
  exact different
    (joined_injective oneIdentity oneServer otherIdentity otherServer same.symm)

end

/-- The identity `agent:eu` at `mail` and the identity `agent` at `eu:mail` share their state. -/
theorem colon_shares_state
    : (⟨"agent:eu", "mail", "send"⟩ : CallKey) ≠ ⟨"agent", "eu:mail", "send"⟩
      ∧ ¬ Isolated {} quoting ⟨"agent:eu", "mail", "send"⟩ ⟨"agent", "eu:mail", "send"⟩ := by
  refine ⟨by decide, ?_⟩
  exact not_isolated_of_joined_eq rfl

end SecureMcp.Risk
