import SecureMcp.Policy.Loading

/-! The order of an identity's grants decides which of them a call falls under: the scan stops
at the first grant that allows the tool as well as at the first that denies it.
-/

namespace SecureMcp

namespace ServerGrant

/-- The grant is for this server, by its exact id or by the wildcard. -/
def Applies (grant : ServerGrant) (serverId : String) : Prop :=
  grant.serverId ∈ [serverId, "*"]

def Denies (grant : ServerGrant) (toolName : String) : Prop :=
  toolName ∈ grant.deniedTools

def Allows (grant : ServerGrant) (toolName : String) : Prop :=
  "*" ∈ grant.allowedTools ∨ toolName ∈ grant.allowedTools

instance (grant : ServerGrant) (serverId : String) : Decidable (grant.Applies serverId) :=
  inferInstanceAs (Decidable (_ ∈ _))

instance (grant : ServerGrant) (toolName : String) : Decidable (grant.Denies toolName) :=
  inferInstanceAs (Decidable (_ ∈ _))

instance (grant : ServerGrant) (toolName : String) : Decidable (grant.Allows toolName) :=
  inferInstanceAs (Decidable (_ ∨ _))

end ServerGrant

namespace PolicyEngine

section

variable {serverId toolName : String} {grants before after : List ServerGrant}
  {grant : ServerGrant}

theorem firstGrant_cons
    : firstGrant serverId toolName (grant :: grants)
      = if ¬ grant.Applies serverId then firstGrant serverId toolName grants
        else if grant.Denies toolName then none
        else if grant.Allows toolName then some grant
        else firstGrant serverId toolName grants := by
  have listed : ("*" ∈ grant.allowedTools || toolName ∈ grant.allowedTools) = true
      ↔ grant.Allows toolName := by
    simp [ServerGrant.Allows]
  rw [firstGrant]
  refine if_congr Iff.rfl rfl (if_congr Iff.rfl rfl (if_congr listed rfl rfl))

/-- Up to the first grant that denies the tool, the scan looks for one that allows it, by
induction on the grants before.
-/
theorem firstGrant_eq_none_iff (applies : grant.Applies serverId)
    (denies : grant.Denies toolName)
    (first : ∀ earlier ∈ before, earlier.Applies serverId → ¬ earlier.Denies toolName)
    : firstGrant serverId toolName (before ++ grant :: after) = none
      ↔ ∀ earlier ∈ before, earlier.Applies serverId → ¬ earlier.Allows toolName := by
  induction before with
  | nil => simp [firstGrant_cons, applies, denies]
  | cons earlier rest ih =>
      obtain ⟨silent, later⟩ := List.forall_mem_cons.mp first
      rw [List.forall_mem_cons, ← ih later, List.cons_append]
      by_cases here : earlier.Applies serverId
      · by_cases allows : earlier.Allows toolName
        · simp [firstGrant_cons, here, silent here, allows]
        · simp [firstGrant_cons, here, silent here, allows]
      · simp [firstGrant_cons, here]

/-- Of the grants that deny a tool on a server, one comes first. -/
theorem exists_first_denial
    (denied : ∃ grant ∈ grants, grant.Applies serverId ∧ grant.Denies toolName)
    : ∃ before grant after,
        grants = before ++ grant :: after
        ∧ grant.Applies serverId
        ∧ grant.Denies toolName
        ∧ ∀ earlier ∈ before, earlier.Applies serverId → ¬ earlier.Denies toolName := by
  have some : (grants.find?
      (fun grant => decide (grant.Applies serverId ∧ grant.Denies toolName))).isSome := by
    simpa [List.find?_isSome] using denied
  obtain ⟨grant, found⟩ := Option.isSome_iff_exists.mp some
  obtain ⟨here, before, after, split, first⟩ := List.find?_eq_some_iff_append.mp found
  obtain ⟨applies, denies⟩ := of_decide_eq_true here
  refine ⟨before, grant, after, split, applies, denies, ?_⟩
  intro earlier member there
  simpa [there] using first earlier member

end

/-- Some grant of the identity for the server denies the tool. -/
def Denied (engine : PolicyEngine) (identityId serverId toolName : String) : Prop :=
  ∃ identity,
    engine.identity identityId = some identity
    ∧ ∃ grant ∈ identity.allowedServers, grant.Applies serverId ∧ grant.Denies toolName

/-- An explicit deny decides. -/
def DenyWins (engine : PolicyEngine) (identityId serverId toolName : String) : Prop :=
  engine.Denied identityId serverId toolName
  → engine.isAllowed identityId serverId toolName = false
    ∧ engine.matchingGrant identityId serverId toolName = none

/-- No grant for the server that allows the tool comes before the first that denies it. -/
def DeniedFirst (engine : PolicyEngine) (identityId serverId toolName : String) : Prop :=
  ∀ identity before grant after,
    engine.identity identityId = some identity
    → identity.allowedServers = before ++ grant :: after
    → grant.Applies serverId
    → grant.Denies toolName
    → (∀ earlier ∈ before, earlier.Applies serverId → ¬ earlier.Denies toolName)
    → ∀ earlier ∈ before, earlier.Applies serverId → ¬ earlier.Allows toolName

/-- A deny decides exactly where no allowing grant stands before the first denying one. -/
theorem denyWins_iff (engine : PolicyEngine) (identityId serverId toolName : String)
    : engine.DenyWins identityId serverId toolName
      ↔ engine.DeniedFirst identityId serverId toolName := by
  refine ⟨?_, ?_⟩
  · intro wins identity before grant after found split applies denies first
    have denied : engine.Denied identityId serverId toolName :=
      ⟨identity, found, grant, by simp [split], applies, denies⟩
    have nothing := (wins denied).2
    rw [matchingGrant, found, Option.bind_some, split] at nothing
    exact (firstGrant_eq_none_iff applies denies first).mp nothing
  · intro deniedFirst ⟨identity, found, denied⟩
    obtain ⟨before, grant, after, split, applies, denies, first⟩ := exists_first_denial denied
    have nothing : engine.matchingGrant identityId serverId toolName = none := by
      rw [matchingGrant, found, Option.bind_some, split, firstGrant_eq_none_iff applies denies first]
      exact deniedFirst identity before grant after found split applies denies first
    exact ⟨by simp [isAllowed, nothing], nothing⟩

/-- A deny decides in every order of the grants exactly when no other grant for the server
allows the tool without denying it.
-/
theorem denied_in_every_order_iff {serverId toolName : String} {grants : List ServerGrant}
    (denied : ∃ grant ∈ grants, grant.Applies serverId ∧ grant.Denies toolName)
    : (∀ order, order.Perm grants → firstGrant serverId toolName order = none)
      ↔ ∀ grant ∈ grants,
          grant.Applies serverId → grant.Allows toolName → grant.Denies toolName := by
  refine ⟨?_, ?_⟩
  · intro every grant member applies allows
    by_contra silent
    obtain ⟨before, after, rfl⟩ := List.append_of_mem member
    have nothing := every (grant :: (before ++ after)) List.perm_middle.symm
    simp [firstGrant_cons, applies, silent, allows] at nothing
  · intro only order perm
    have still : ∃ grant ∈ order, grant.Applies serverId ∧ grant.Denies toolName := by
      obtain ⟨grant, member, both⟩ := denied
      exact ⟨grant, perm.mem_iff.mpr member, both⟩
    obtain ⟨before, grant, after, rfl, applies, denies, first⟩ := exists_first_denial still
    refine (firstGrant_eq_none_iff applies denies first).mpr ?_
    intro earlier member there allows
    exact first earlier member there (only earlier (perm.mem_iff.mp (by simp [member])) there allows)

/-- Everything is allowed everywhere, and one tool is denied on one server. -/
def overlapping : PolicyEngine where
  policy := {
    version := 1
    servers := [("github", "serve-github")]
    identities := [{
      id := "ops"
      apiKeyHash := some "sha256:1"
      allowedServers := [
        { serverId := "*", allowedTools := ["*"] },
        { serverId := "github", deniedTools := ["delete_repo"] }
      ]
    }]
  }

/-- The wildcard grant of a policy that passes its checks comes first and allows the tool. -/
theorem denied_tool_allowed
    : PolicyLoading.checkServers overlapping.policy = .ok ()
      ∧ ¬ overlapping.DenyWins "ops" "github" "delete_repo" := by
  refine ⟨by decide, ?_⟩
  intro wins
  have allowed : overlapping.isAllowed "ops" "github" "delete_repo" = true := by decide
  have denied : overlapping.Denied "ops" "github" "delete_repo" :=
    ⟨_, rfl, _, by exact List.mem_cons_of_mem _ List.mem_cons_self, by decide, by decide⟩
  exact absurd (wins denied).1 (by simp [allowed])

end PolicyEngine

end SecureMcp
