import Mathlib.Data.Option.Basic
import SecureMcp.Interceptor.Recorded

/-! What of a client message goes upstream: everything but the gateway's own keys of `_meta`. Only
the params of requests are stripped of them.
-/

namespace SecureMcp

open Interaction

namespace Interceptor

open Coroutine

/-- (MetaCleared sent forwarded) says what becomes of `_meta`: an object loses the gateway's keys
and nothing else, and is dropped when nothing is left of it.
-/
inductive MetaCleared : Option Json → Option Json → Prop
  | kept {fields rest : Params} (cleared : rest = fields.filter (·.1 ∉ gatewayMetaKeys))
    (remains : rest ≠ [] ∨ fields = [])
    : MetaCleared (some (.obj fields)) (some (.obj rest))
  | dropped {fields : Params} (nothing : ∀ field ∈ fields, field.1 ∈ gatewayMetaKeys)
    : MetaCleared (some (.obj fields)) none
  | untouched {value : Option Json} (plain : ∀ fields, value ≠ some (.obj fields))
    : MetaCleared value value

/-- Every other parameter is forwarded as it was sent, in the same order. -/
structure ParamsCleared (sent forwarded : Params) : Prop where
  others : Dict.erase "_meta" forwarded = Dict.erase "_meta" sent
  metadata : MetaCleared (sent.lookup "_meta") (forwarded.lookup "_meta")

/-- (Framed sent forwarded) means that a message differs from the one that was sent in the
gateway's keys only, of which it has none.
-/
inductive Framed : ClientMessage → ClientMessage → Prop
  | request (id : RequestId) (method : String) {sent forwarded : Option Params}
    (params : Option.Rel ParamsCleared sent forwarded)
    : Framed (.request id method sent) (.request id method forwarded)
  | notification (method : String) {sent forwarded : Option Params}
    (params : Option.Rel ParamsCleared sent forwarded)
    : Framed (.notification method sent) (.notification method forwarded)
  | response (id : RequestId) (result : Params)
    : Framed (.response id result) (.response id result)
  | error (id : RequestId) (code : Int) (message : String)
    : Framed (.error id code message) (.error id code message)

/-- Whenever a message is forwarded, the gateway's metadata stays behind. -/
def MetaStays (runtime : Runtime) (session : Session) (message : ClientMessage) : Prop :=
  ∀ events forwarded,
    (onClientMessage runtime session message).run.Exec events (.ok (.forward forwarded))
    → Framed message forwarded

/-- The parameters carry a key of the gateway in `_meta`. -/
def CarriesGatewayKey (params : Params) : Prop :=
  ∃ fields,
    params.lookup "_meta" = some (.obj fields) ∧ ∃ field ∈ fields, field.1 ∈ gatewayMetaKeys

theorem paramsCleared_strip (params : Params)
    : ParamsCleared params (stripGatewayMeta params) := by
  unfold stripGatewayMeta
  split
  · next fields object =>
      split
      · next empty =>
          refine ⟨Dict.erase_erase _ _, ?_⟩
          rw [object, Dict.lookup_erase_same]
          apply MetaCleared.dropped
          intro field member
          by_contra other
          have left : field ∈ fields.filter (·.1 ∉ gatewayMetaKeys) := by
            simpa [member] using other
          rw [empty] at left
          cases left
      · next kept some =>
          refine ⟨Dict.erase_set _ _ _, ?_⟩
          rw [object, Dict.lookup_set, if_pos rfl]
          exact .kept rfl (Or.inl some)
  · next plain =>
      exact ⟨rfl, .untouched plain⟩

/-- A cleared `_meta` has none of the gateway's keys. -/
theorem MetaCleared.clear {sent forwarded : Option Json} {rest : Params}
    (cleared : MetaCleared sent forwarded) (object : forwarded = some (.obj rest))
    : ∀ field ∈ rest, field.1 ∉ gatewayMetaKeys := by
  intro field member
  cases cleared with
  | kept cleared remains =>
      cases object
      rw [cleared] at member
      simpa using (List.mem_filter.mp member).2
  | dropped nothing => cases object
  | untouched plain => exact absurd object (plain rest)

/-- What is forwarded as it was sent is cleared exactly when it has none of the gateway's keys. -/
theorem metaCleared_self_iff (metadata : Option Json)
    : MetaCleared metadata metadata
      ↔ ∀ fields, metadata = some (.obj fields) → ∀ field ∈ fields, field.1 ∉ gatewayMetaKeys := by
  refine ⟨fun cleared fields object => cleared.clear object, ?_⟩
  intro none
  by_cases object : ∃ fields, metadata = some (.obj fields)
  · obtain ⟨fields, rfl⟩ := object
    refine .kept ?_ (em _).symm
    symm
    rw [List.filter_eq_self]
    intro field member
    simpa using none fields rfl field member
  · exact .untouched (fun fields same => object ⟨fields, same⟩)

theorem paramsCleared_self_iff (params : Params)
    : ParamsCleared params params ↔ ¬ CarriesGatewayKey params := by
  have metadata := metaCleared_self_iff (params.lookup "_meta")
  refine ⟨?_, ?_⟩
  · intro cleared ⟨fields, object, field, member, gateway⟩
    exact metadata.mp cleared.metadata fields object field member gateway
  · intro none
    refine ⟨rfl, metadata.mpr ?_⟩
    intro fields object field member gateway
    exact none ⟨fields, object, field, member, gateway⟩

section

variable {runtime : Runtime} {session : Session} {events : List (Event Reply)}
  {forwarded : ClientMessage}

/-- A request is forwarded with its params stripped, whatever its method. -/
theorem forwarded_of_request {id : RequestId} {method : String} {params : Option Params}
    (exec : (onClientMessage runtime session (.request id method params)).run.Exec events
      (.ok (.forward forwarded)))
    : forwarded = .request id method (params.map stripGatewayMeta) := by
  by_cases call : method = "tools/call"
  · subst call
    obtain ⟨_, _, passed⟩ := passed_of_forward exec
    cases passed
    rfl
  · obtain ⟨_, _, _, exec⟩ := exec_ask_bind_iff.mp exec
    split at exec
    · obtain ⟨_, _, _, _, _, exec⟩ := exec_bind_ok_iff.mp exec
      obtain ⟨_, same⟩ := Program.exec_done_iff.mp exec
      cases same
      rfl
    · obtain ⟨_, same⟩ := Program.exec_done_iff.mp exec
      cases same
      rfl

theorem framed_strip (id : RequestId) (method : String) (params : Option Params)
    : Framed (.request id method params) (.request id method (params.map stripGatewayMeta)) := by
  apply Framed.request
  cases params with
  | none => exact .none
  | some params => exact .some (paramsCleared_strip params)

/-- A notification is forwarded as it is. -/
theorem metaStays_notification_iff {method : String} {params : Option Params}
    : MetaStays runtime session (.notification method params)
      ↔ ∀ fields ∈ params, ¬ CarriesGatewayKey fields := by
  refine ⟨?_, ?_⟩
  · intro stays fields given
    have framed := stays [] _ (.done _)
    cases given
    cases framed with
    | notification _ params =>
        cases params with
        | some cleared => exact (paramsCleared_self_iff fields).mp cleared
  · intro none events forwarded exec
    obtain ⟨_, same⟩ := Program.exec_done_iff.mp exec
    cases same
    apply Framed.notification
    cases params with
    | none => exact .none
    | some params => exact .some ((paramsCleared_self_iff params).mpr (none params rfl))

end

/-- The gateway's metadata stays behind exactly when the message is not a notification that carries
a key of it.
-/
theorem metaStays_iff {runtime : Runtime} {session : Session} {message : ClientMessage}
    : MetaStays runtime session message
      ↔ ∀ method params,
          message = .notification method (some params) → ¬ CarriesGatewayKey params := by
  cases message with
  | request id method params =>
      refine ⟨?_, ?_⟩
      · intro _ _ _ other
        cases other
      intro _ events forwarded exec
      rw [forwarded_of_request exec]
      exact framed_strip id method params
  | notification method params =>
      rw [metaStays_notification_iff]
      refine ⟨?_, ?_⟩
      · intro none _ given same
        cases same
        exact none given rfl
      · intro none given same
        cases same
        exact none method given rfl
  | response id result =>
      refine ⟨?_, ?_⟩
      · intro _ _ _ other
        cases other
      intro _ events forwarded exec
      obtain ⟨_, same⟩ := Program.exec_done_iff.mp exec
      cases same
      exact .response id result
  | error id code text =>
      refine ⟨?_, ?_⟩
      · intro _ _ _ other
        cases other
      intro _ events forwarded exec
      obtain ⟨_, same⟩ := Program.exec_done_iff.mp exec
      cases same
      exact .error id code text

/-- A signed notification is forwarded with its key id and its signature. -/
theorem signed_notification_leaks
    : ¬ MetaStays DriftDetector.calm mailSession
        (.notification "notifications/cancelled"
          (some [("_meta", .obj [
            ("portunusmcp/key-id", .str "kid_agent"),
            ("portunusmcp/signature", .str "00")
          ])])) := by
  rw [metaStays_notification_iff]
  intro none
  exact none _ rfl ⟨_, rfl, _, List.mem_cons_self, by decide⟩

end Interceptor

end SecureMcp
