import SecureMcp.Sessions.IdleSweep

/-! Who answers for a subprocess that still runs: the registry, or a task that has started it and
not registered it yet, or one that waits for it to end. `shutdown_all` takes over what is in the
registry when it begins, and nothing else.
-/

namespace SecureMcp.Sessions

open Cooperative

/-- What a task answers for at an await. -/
def Keeps : Status Point → Nat → Prop
  | .waiting (.pipes _ own), process => own = process
  | .waiting (.grace own), process => own = process
  | .waiting (.graceAll all), process => process ∈ all
  | _, _ => False

/-- A creation that has not registered its session yet. -/
def Creates : Status Point → String → Prop
  | .waiting (.sessionStart own), sessionId => own = sessionId
  | .waiting (.exec own), sessionId => own = sessionId
  | .waiting (.pipes own _), sessionId => own = sessionId
  | _, _ => False

/-- The subprocesses of the registry. -/
def Manager.registered (manager : Manager) : List Nat :=
  manager.sessions.map Prod.snd

/-- Every subprocess has exited or has been sent kill. -/
def Manager.AllEnded (manager : Manager) : Prop :=
  ∀ process, manager.HasEnded process

/-- No task but `shutdown_all` answers for a subprocess that still runs. -/
def Settled (status : Job → Status Point) (manager : Manager) : Prop :=
  ∀ job process, job ≠ .lifespan → Keeps (status job) process → manager.HasEnded process

/-- `shutdown_all` begins with a subprocess to wait for, or when nothing is under way; while it
waits no session is registered, and it returns when nothing is under way. The sweep is not
cancelled while it waits for a subprocess to end, and none is started afterwards.
-/
def Orderly (status : Job → Status Point) (manager : Manager) : Action Job Value Raised → Prop
  | .begin .lifespan =>
      manager.registered.any manager.unreaped = true ∨ Settled status manager
  | .resume .lifespan _ _ =>
      Settled status manager ∧ ∀ process ∈ manager.registered, manager.HasEnded process
  | .resume (.sweep _) (.grace process) reply =>
      reply = .error .cancelledError → manager.HasEnded process
  | .resume _ (.exec _) reply => reply = .ok () → status .lifespan ≠ .ended
  | _ => True

/-- The rules, with every step orderly. -/
def orderly : Rules Job Manager Value Raised where
  begins status manager job :=
    rules.begins status manager job ∧ Orderly status manager (.begin job)
  answers status manager job point reply :=
    rules.answers status manager job point reply
    ∧ Orderly status manager (.resume job point reply)
  drifts := rules.drifts

/-- Every subprocess that still runs is answered for, a session that is being created has an id of
its own, and none is left when `shutdown_all` has returned.
-/
structure Accounted (status : Job → Status Point) (manager : Manager) : Prop where
  distinct : (Dict.keys manager.sessions).Nodup
  known : ∀ sessionId ∈ Dict.keys manager.sessions, sessionId ∈ manager.issued
  fresh : ∀ job sessionId, Creates (status job) sessionId →
    sessionId ∈ manager.issued ∧ sessionId ∉ Dict.keys manager.sessions
  alone : ∀ job other sessionId,
    Creates (status job) sessionId → Creates (status other) sessionId → job = other
  owned : ∀ process,
    manager.HasEnded process ∨ process ∈ manager.registered ∨ ∃ job, Keeps (status job) process
  returned : status .lifespan = .ended → manager.AllEnded

/-- Everything is accounted for with this task at a point of its own. -/
def Stands (job : Job) (own : Status Point) (status : Job → Status Point) (manager : Manager)
    : Prop :=
  Accounted (Function.update status job own) manager

section

variable {status : Job → Status Point} {manager after : Manager} {job : Job}
  {was own : Status Point} {sessionId : String} {process : Nat}

theorem Accounted.stands (accounted : Accounted status manager) (here : status job = own)
    : Stands job own status manager := by
  rw [Stands, ← here, Function.update_eq_self]
  exact accounted

theorem Stands.owns (stands : Stands job own status manager) (process : Nat)
    : manager.HasEnded process
      ∨ process ∈ manager.registered
      ∨ Keeps own process
      ∨ ∃ other, other ≠ job ∧ Keeps (status other) process := by
  rcases stands.owned process with finished | listed | ⟨other, kept⟩
  · exact Or.inl finished
  · exact Or.inr (Or.inl listed)
  · by_cases same : other = job
    · subst same
      rw [Function.update_self] at kept
      exact Or.inr (Or.inr (Or.inl kept))
    · rw [Function.update_of_ne same] at kept
      exact Or.inr (Or.inr (Or.inr ⟨other, same, kept⟩))

theorem Stands.creates (stands : Stands job own status manager) (other : Job)
    {sessionId : String} (differs : other ≠ job) (creating : Creates (status other) sessionId)
    : sessionId ∈ manager.issued ∧ sessionId ∉ Dict.keys manager.sessions :=
  stands.fresh other sessionId (by rwa [Function.update_of_ne differs])

/-- What is needed of the tasks and of the state for a task to stand where it is. -/
theorem Stands.intro
    (distinct : (Dict.keys manager.sessions).Nodup)
    (known : ∀ sessionId ∈ Dict.keys manager.sessions, sessionId ∈ manager.issued)
    (fresh : ∀ sessionId,
      Creates own sessionId ∨ (∃ other, other ≠ job ∧ Creates (status other) sessionId)
      → sessionId ∈ manager.issued ∧ sessionId ∉ Dict.keys manager.sessions)
    (apart : ∀ other sessionId,
      other ≠ job → Creates own sessionId → ¬ Creates (status other) sessionId)
    (alone : ∀ one other sessionId,
      one ≠ job → other ≠ job → Creates (status one) sessionId → Creates (status other) sessionId
      → one = other)
    (owned : ∀ process,
      manager.HasEnded process
      ∨ process ∈ manager.registered
      ∨ Keeps own process
      ∨ ∃ other, other ≠ job ∧ Keeps (status other) process)
    (returned : Function.update status job own .lifespan = .ended → manager.AllEnded)
    : Stands job own status manager := by
  refine ⟨distinct, known, ?_, ?_, ?_, returned⟩
  · intro other sessionId creating
    by_cases same : other = job
    · subst same
      rw [Function.update_self] at creating
      exact fresh sessionId (Or.inl creating)
    · rw [Function.update_of_ne same] at creating
      exact fresh sessionId (Or.inr ⟨other, same, creating⟩)
  · intro one other sessionId first second
    by_cases here : one = job
    · by_cases there : other = job
      · rw [here, there]
      · subst here
        rw [Function.update_self] at first
        rw [Function.update_of_ne there] at second
        exact (apart other sessionId there first second).elim
    · rw [Function.update_of_ne here] at first
      by_cases there : other = job
      · subst there
        rw [Function.update_self] at second
        exact (apart one sessionId here second first).elim
      · rw [Function.update_of_ne there] at second
        exact alone one other sessionId here there first second
  · intro process
    rcases owned process with finished | listed | kept | ⟨other, differs, kept⟩
    · exact Or.inl finished
    · exact Or.inr (Or.inl listed)
    · exact Or.inr (Or.inr ⟨job, by rwa [Function.update_self]⟩)
    · exact Or.inr (Or.inr ⟨other, by rwa [Function.update_of_ne differs]⟩)

theorem Stands.others (stands : Stands job own status manager) {one other : Job}
    {sessionId : String} (first : one ≠ job) (second : other ≠ job)
    (here : Creates (status one) sessionId) (there : Creates (status other) sessionId)
    : one = other :=
  stands.alone one other sessionId (by rwa [Function.update_of_ne first])
    (by rwa [Function.update_of_ne second])

theorem Stands.finished (stands : Stands job own status manager) (regular : job ≠ .lifespan)
    (finished : status .lifespan = .ended)
    : manager.AllEnded :=
  stands.returned (by rwa [Function.update_of_ne (Ne.symm regular)])

/-- A task goes on to where it creates nothing new, and has let go only of what has ended. -/
theorem Stands.become (stands : Stands job was status manager)
    (sessions : after.sessions = manager.sessions) (issued : after.issued = manager.issued)
    (ended : ∀ process, manager.HasEnded process → after.HasEnded process)
    (creates : ∀ sessionId, Creates own sessionId → Creates was sessionId)
    (keeps : ∀ process, Keeps was process → Keeps own process ∨ after.HasEnded process)
    (returned : job = .lifespan → own = .ended → after.AllEnded)
    : Stands job own status after := by
  have own_creates {sessionId : String} (creating : Creates own sessionId)
      : Creates (Function.update status job was job) sessionId := by
    rw [Function.update_self]
    exact creates sessionId creating
  refine Stands.intro ?_ ?_ ?_ ?_ ?_ ?_ ?_
  · rw [sessions]
    exact stands.distinct
  · rw [sessions, issued]
    exact stands.known
  · intro sessionId creating
    rw [sessions, issued]
    rcases creating with creating | ⟨other, differs, creating⟩
    · exact stands.fresh job sessionId (own_creates creating)
    · exact stands.creates other differs creating
  · intro other sessionId differs creating there
    refine differs (stands.alone other job sessionId ?_ (own_creates creating))
    rwa [Function.update_of_ne differs]
  · intro one other sessionId first second here there
    exact stands.others first second here there
  · intro process
    rw [Manager.registered, sessions]
    rcases stands.owns process with finished | listed | kept | other
    · exact Or.inl (ended process finished)
    · exact Or.inr (Or.inl listed)
    · rcases keeps process kept with still | finished
      · exact Or.inr (Or.inr (Or.inl still))
      · exact Or.inl finished
    · exact Or.inr (Or.inr (Or.inr other))
  · intro finished
    by_cases same : job = .lifespan
    · subst same
      rw [Function.update_self] at finished
      exact returned rfl finished
    · rw [Function.update_of_ne (Ne.symm same)] at finished
      exact fun process => ended process (stands.finished same finished process)

/-- A new id is no other creation's. -/
theorem Stands.issue (stands : Stands job .idle status manager)
    (unissued : sessionId ∉ manager.issued)
    : Stands job (.waiting (.sessionStart sessionId)) status
        { manager with issued := sessionId :: manager.issued } := by
  have unlisted : sessionId ∉ Dict.keys manager.sessions :=
    fun listed => unissued (stands.known sessionId listed)
  refine Stands.intro stands.distinct ?_ ?_ ?_ ?_ ?_ ?_
  · intro other listed
    exact List.mem_cons_of_mem _ (stands.known other listed)
  · intro other creating
    rcases creating with same | ⟨one, differs, creating⟩
    · cases (same : sessionId = other)
      exact ⟨List.mem_cons_self, unlisted⟩
    · obtain ⟨issued, free⟩ := stands.creates one differs creating
      exact ⟨List.mem_cons_of_mem _ issued, free⟩
  · intro other again differs same creating
    cases (same : sessionId = again)
    exact unissued (stands.creates other differs creating).1
  · intro one other again first second here there
    exact stands.others first second here there
  · intro process
    rcases stands.owns process with finished | listed | kept | other
    · exact Or.inl finished
    · exact Or.inr (Or.inl listed)
    · exact kept.elim
    · exact Or.inr (Or.inr (Or.inr other))
  · intro finished process
    by_cases same : job = .lifespan
    · subst same
      rw [Function.update_self] at finished
      cases finished
    · rw [Function.update_of_ne (Ne.symm same)] at finished
      exact stands.finished same finished process

theorem hasEnded_spawn (manager : Manager) {process : Nat}
    (other : process ≠ manager.processes.length) (finished : manager.HasEnded process)
    : manager.spawn.HasEnded process := by
  intro found here
  refine finished found ?_
  have listed : (manager.processes ++ [({} : Subprocess)])[process]? = some found := here
  by_cases old : process < manager.processes.length
  · rwa [List.getElem?_append_left old] at listed
  · rw [List.getElem?_eq_none (by simp; omega)] at listed
    cases listed

/-- The subprocess that was just started is the creation's. -/
theorem Stands.spawn (stands : Stands job (.waiting (.exec sessionId)) status manager)
    (regular : job ≠ .lifespan) (running : status .lifespan ≠ .ended)
    : Stands job (.waiting (.pipes sessionId manager.processes.length)) status manager.spawn := by
  refine Stands.intro stands.distinct stands.known ?_ ?_ ?_ ?_ ?_
  · intro other creating
    rcases creating with same | ⟨one, differs, creating⟩
    · refine stands.fresh job other ?_
      rw [Function.update_self]
      exact same
    · exact stands.creates one differs creating
  · intro other again differs same creating
    refine differs (stands.alone other job again ?_ ?_)
    · rwa [Function.update_of_ne differs]
    · rw [Function.update_self]
      exact same
  · intro one other again first second here there
    exact stands.others first second here there
  · intro process
    by_cases newest : process = manager.processes.length
    · exact Or.inr (Or.inr (Or.inl newest.symm))
    · rcases stands.owns process with finished | listed | kept | other
      · exact Or.inl (hasEnded_spawn manager newest finished)
      · exact Or.inr (Or.inl listed)
      · exact kept.elim
      · exact Or.inr (Or.inr (Or.inr other))
  · intro finished
    rw [Function.update_of_ne (Ne.symm regular)] at finished
    exact (running finished).elim

/-- Setting an absent key adds it at the end. -/
theorem set_absent {sessions : List (String × Nat)} (absent : sessionId ∉ Dict.keys sessions)
    : Dict.set sessionId process sessions = sessions ++ [(sessionId, process)] := by
  induction sessions with
  | nil => rfl
  | cons session rest ih =>
      obtain ⟨differs, later⟩ := not_or.mp (List.mem_cons.not.mp absent)
      rw [Dict.set, if_neg (Ne.symm differs), ih later, List.cons_append]

/-- The registry takes over the subprocess of a creation. -/
theorem Stands.register (stands : Stands job (.waiting (.pipes sessionId process)) status manager)
    (regular : job ≠ .lifespan)
    : Stands job (.waiting (.touch sessionId)) status (manager.register sessionId process) := by
  have own : Creates (Function.update status job (.waiting (.pipes sessionId process)) job)
      sessionId := by
    rw [Function.update_self]
    exact rfl
  obtain ⟨issued, absent⟩ := stands.fresh job sessionId own
  have added : Dict.set sessionId process manager.sessions
      = manager.sessions ++ [(sessionId, process)] :=
    set_absent absent
  refine Stands.intro ?_ ?_ ?_ ?_ ?_ ?_ ?_
  · exact Dict.nodup_set stands.distinct sessionId process
  · intro other listed
    rcases (Dict.mem_keys_set sessionId other process manager.sessions).mp listed with same | old
    · exact same ▸ issued
    · exact stands.known other old
  · intro other creating
    rcases creating with creating | ⟨one, differs, creating⟩
    · exact creating.elim
    · obtain ⟨known, free⟩ := stands.creates one differs creating
      refine ⟨known, ?_⟩
      intro listed
      rcases (Dict.mem_keys_set sessionId other process manager.sessions).mp listed with same | old
      · subst same
        refine differs (stands.alone one job other ?_ own)
        rwa [Function.update_of_ne differs]
      · exact free old
  · intro other again _ creating
    exact creating.elim
  · intro one other again first second here there
    exact stands.others first second here there
  · intro other
    have both : (manager.register sessionId process).registered
        = manager.registered ++ [process] := by
      simp [Manager.registered, Manager.register, added]
    rw [both, List.mem_append, List.mem_singleton]
    rcases stands.owns other with finished | listed | kept | elsewhere
    · exact Or.inl finished
    · exact Or.inr (Or.inl (Or.inl listed))
    · exact Or.inr (Or.inl (Or.inr kept.symm))
    · exact Or.inr (Or.inr (Or.inr elsewhere))
  · intro finished
    rw [Function.update_of_ne (Ne.symm regular)] at finished
    exact stands.finished regular finished

/-- Whoever takes a session from the registry waits for its subprocess. -/
theorem Stands.pop (stands : Stands job .idle status manager) (regular : job ≠ .lifespan)
    (found : manager.sessions.lookup sessionId = some process)
    : Stands job (.waiting (.grace process)) status (manager.pop sessionId) := by
  have fewer {other : String} (listed : other ∈ Dict.keys (manager.pop sessionId).sessions)
      : other ∈ Dict.keys manager.sessions := by
    obtain ⟨session, member, same⟩ := List.mem_map.mp listed
    exact List.mem_map.mpr ⟨session, (List.mem_filter.mp member).1, same⟩
  refine Stands.intro ?_ ?_ ?_ ?_ ?_ ?_ ?_
  · exact stands.distinct.sublist (List.filter_sublist.map Prod.fst)
  · intro other listed
    exact stands.known other (fewer listed)
  · intro other creating
    rcases creating with creating | ⟨one, differs, creating⟩
    · exact creating.elim
    · obtain ⟨known, free⟩ := stands.creates one differs creating
      exact ⟨known, fun listed => free (fewer listed)⟩
  · intro other again _ creating
    exact creating.elim
  · intro one other again first second here there
    exact stands.others first second here there
  · intro other
    rcases stands.owns other with finished | listed | kept | elsewhere
    · exact Or.inl finished
    · obtain ⟨⟨name, its⟩, member, same⟩ := List.mem_map.mp listed
      cases (same : its = other)
      by_cases here : name = sessionId
      · subst here
        rw [Dict.lookup_of_mem stands.distinct member] at found
        cases found
        exact Or.inr (Or.inr (Or.inl rfl))
      · refine Or.inr (Or.inl (List.mem_map.mpr ⟨(name, its), ?_, rfl⟩))
        exact List.mem_filter.mpr ⟨member, by simpa using here⟩
    · exact kept.elim
    · exact Or.inr (Or.inr (Or.inr elsewhere))
  · intro finished
    rw [Function.update_of_ne (Ne.symm regular)] at finished
    exact stands.finished regular finished

-----------------------------------------------------------------------------------------
-- The tasks of a session
-----------------------------------------------------------------------------------------

/-- A task answers for nothing when it is over, or at an await that neither creates nor keeps. -/
theorem Stands.go (stands : Stands job was status manager) (regular : job ≠ .lifespan)
    (keeps : ∀ process, Keeps was process → manager.HasEnded process)
    (creates : ∀ sessionId, Creates own sessionId → Creates was sessionId)
    : Stands job own status manager :=
  stands.become rfl rfl (fun _ finished => finished) creates (fun process kept => Or.inr (keeps process kept))
    (fun same => absurd same regular)

/-- A change that touches neither the registry nor the subprocesses. -/
theorem Stands.change (stands : Stands job own status manager)
    (sessions : after.sessions = manager.sessions) (issued : after.issued = manager.issued)
    (processes : after.processes = manager.processes)
    : Stands job own status after := by
  have same {process : Nat} (finished : manager.HasEnded process) : after.HasEnded process := by
    intro found here
    exact finished found (processes ▸ here)
  refine stands.become sessions issued (fun _ => same) (fun _ creating => creating)
    (fun _ kept => Or.inl kept) ?_
  intro here finished process
  refine same (stands.returned ?_ process)
  rw [← here, Function.update_self]
  exact finished

/-- By itself a task answers for nothing. -/
abbrev Aside (job : Job) (_ : Except Raised Unit) (status : Job → Status Point) (manager : Manager)
    : Prop :=
  Stands job .idle status manager

/-- The weakest precondition of a task of a job, over orderly steps. -/
abbrev Keeping (job : Job) (task : Async Unit)
    (post : Except Raised Unit → (Job → Status Point) → Manager → Prop)
    (status : Job → Status Point) (manager : Manager)
    : Prop :=
  wp Accounted orderly.answers job task post status manager

/-- What ended while a task waited is no longer its own. -/
theorem Accounted.aside (accounted : Accounted status manager) (regular : job ≠ .lifespan)
    {point : Point} (here : status job = .waiting point)
    (keeps : ∀ process, Keeps (.waiting point) process → manager.HasEnded process)
    : Stands job .idle status manager :=
  (accounted.stands here).go regular keeps (fun _ creating => creating.elim)

theorem Manager.HasEnded.kill (finished : manager.HasEnded process)
    (other : Nat)
    : (manager.kill other).HasEnded process := by
  by_cases same : process = other
  · exact same ▸ hasEnded_kill manager other
  · intro found here
    refine finished found ?_
    change (manager.processes.modify other _)[process]? = some found at here
    rwa [List.getElem?_modify_ne _ _ (Ne.symm same)] at here

/-- A subprocess is stopped: it has ended, or it is waited for until it ends or is killed. -/
theorem keeping_stop (regular : job ≠ .lifespan)
    (stands : Stands job (.waiting (.grace process)) status manager)
    : Keeping job (unlessGone (stop process)) (Aside job) status manager := by
  have gone {status : Job → Status Point} {manager : Manager}
      (stands : Stands job (.waiting (.grace process)) status manager)
      (finished : manager.HasEnded process)
      : Stands job .idle status manager :=
    stands.go regular (fun _ kept => kept ▸ finished) (fun _ creating => creating.elim)
  refine wp_tryCatch.mpr ?_
  change wp _ _ _ (if _ then _ else _) _ _ _
  split
  · change wp _ _ _ (bind (if _ then _ else _) _) _ _ _
    split
    · next raises => exact gone stands (hasEnded_of_raises raises)
    · refine ⟨stands, ?_⟩
      intro reply status manager waiting kept answered
      have stands := kept.stands waiting
      obtain ⟨rule, uncut⟩ := answered
      rcases rule with ⟨cancelled, rfl⟩ | ⟨_, ⟨rfl, reaped⟩ | rfl⟩
      · refine gone stands ?_
        cases job with
        | sweep round => exact uncut rfl
        | create | run | delete | lifespan => exact cancelled.elim
      · exact gone stands (hasEnded_of_not_unreaped reaped)
      · change wp _ _ _ (if manager.raises process then _ else _) _ _ _
        split
        · next raises => exact gone stands (hasEnded_of_raises raises)
        · refine stands.become rfl rfl (fun other finished => finished.kill process)
            (fun _ creating => creating.elim) ?_ (fun same => absurd same regular)
          intro other kept
          cases (kept : process = other)
          exact Or.inr (hasEnded_kill manager process)
  · next reaped => exact gone stands (hasEnded_of_not_unreaped (by simpa using reaped))

/-- An await that neither creates nor keeps. -/
theorem Stands.wait (stands : Stands job .idle status manager) (regular : job ≠ .lifespan)
    (point : Point) (keeps : ∀ process, ¬ Keeps (.waiting point) process)
    (creates : ∀ sessionId, ¬ Creates (.waiting point) sessionId)
    {next : Value point → Async Unit}
    (continues : ∀ value status manager,
      Stands job .idle status manager
      → orderly.answers status manager job point (.ok value)
      → Keeping job (next value) (Aside job) status manager)
    : Keeping job (Routine.awaiting point >>= next) (Aside job) status manager := by
  have back {status : Job → Status Point} {manager : Manager}
      (waiting : status job = .waiting point) (kept : Accounted status manager)
      : Stands job .idle status manager :=
    kept.aside regular waiting (fun process own => (keeps process own).elim)
  refine wp_awaiting_bind ?_ ?_ ?_
  · exact stands.go regular (fun _ kept => kept.elim)
      (fun sessionId creating => (creates sessionId creating).elim)
  · intro raised status manager waiting kept _
    exact back waiting kept
  · intro value status manager waiting kept answered
    exact continues value status manager (back waiting kept) answered

/-- Whoever ends a session goes on when its subprocess has ended, or fails. -/
theorem keeping_teardown (regular : job ≠ .lifespan) (current : Option String)
    (sessionId : String) (stands : Stands job .idle status manager)
    : Keeping job (teardown current sessionId) (Aside job) status manager := by
  refine wp_get_bind.mpr ?_
  split
  · exact stands
  · next process found =>
      have popped := stands.pop regular found
      have cancelled : Stands job (.waiting (.grace process)) status
          ((manager.pop sessionId).cancel sessionId) :=
        popped.change rfl rfl rfl
      have stops {manager : Manager}
          (stands : Stands job (.waiting (.grace process)) status manager)
          : Keeping job (do
              unlessGone (stop process)
              Routine.awaiting (Point.delete sessionId)) (Aside job) status manager := by
        refine wp_sequence (keeping_stop regular stands) (fun _ _ _ stands => stands) ?_
        intro _ status manager stands
        refine wp_awaiting (stands.go regular (fun _ own => own.elim)
          (fun _ creating => creating.elim)) ?_
        intro _ status manager waiting kept _
        exact kept.aside regular waiting (fun _ own => own.elim)
      refine wp_modify_bind.mpr ?_
      unfold cancelPump
      split
      · exact stops popped
      · exact stops cancelled

theorem keeping_sweepEach (regular : job ≠ .lifespan) (sessionIds : List String)
    (stands : Stands job .idle status manager)
    : Keeping job (sweepEach sessionIds) (Aside job) status manager := by
  induction sessionIds generalizing status manager with
  | nil => exact stands
  | cons sessionId rest ih =>
      refine stands.wait regular (.exists sessionId) (fun _ own => own) (fun _ own => own) ?_
      intro seen status manager stands _
      cases seen with
      | true => exact ih stands
      | false =>
          exact wp_sequence (keeping_teardown regular none sessionId stands)
            (fun _ _ _ stands => stands) (fun _ _ _ stands => ih stands)

theorem keeping_sweepRound (regular : job ≠ .lifespan) (stands : Stands job .idle status manager)
    : Keeping job sweepRound (Aside job) status manager := by
  refine stands.wait regular .interval (fun _ own => own) (fun _ own => own) ?_
  intro _ status manager stands _
  refine wp_sequence (keeping_sweepEach regular (Dict.keys manager.sessions) stands)
    (fun _ _ _ stands => stands) ?_
  intro _ status manager stands
  exact stands.change rfl rfl rfl

theorem keeping_delete (regular : job ≠ .lifespan) (sessionId : String)
    (stands : Stands job .idle status manager)
    : Keeping job (delete sessionId) (Aside job) status manager := by
  refine wp_get_bind.mpr ?_
  split
  · exact stands
  · refine stands.wait regular .handled (fun _ own => own) (fun _ own => own) ?_
    intro _ status manager stands _
    exact keeping_teardown regular none sessionId stands

/-- The pumps of a session end in any way; then the session is ended. -/
theorem keeping_run (regular : job ≠ .lifespan) (sessionId : String)
    (stands : Stands job .idle status manager)
    : Keeping job (run sessionId) (Aside job) status manager := by
  have ready {status : Job → Status Point} {manager : Manager}
      (stands : Stands job .idle status manager)
      : Stands job .idle status { manager with ready := sessionId :: manager.ready } :=
    stands.change rfl rfl rfl
  have pumping : Keeping job (pump sessionId) (Aside job) status manager := by
    refine stands.wait regular (.connect sessionId) (fun _ own => own) (fun _ own => own) ?_
    intro _ status manager stands _
    refine wp_modify_bind.mpr (wp_awaiting ?_ ?_)
    · exact (ready stands).go regular (fun _ own => own.elim) (fun _ creating => creating.elim)
    · intro _ status manager waiting kept _
      exact kept.aside regular waiting (fun _ own => own.elim)
  have attempted : wp Accounted orderly.answers job (Routine.attempt (pump sessionId))
      (fun _ status manager => Stands job .idle status manager) status manager :=
    wp_attempt pumping
  refine wp_sequence attempted (fun _ _ _ stands => stands) ?_
  intro ended status manager stands
  refine wp_modify_bind.mpr (wp_sequence
    (keeping_teardown regular (some sessionId) sessionId (ready stands))
    (fun _ _ _ stands => stands) ?_)
  intro _ status manager stands
  exact stands

/-- A subprocess that was spawned is its creation's until the registry has it. -/
def Spawned (job : Job) (sessionId : String)
    : Except Raised Nat → (Job → Status Point) → Manager → Prop
  | .ok process => Stands job (.waiting (.pipes sessionId process))
  | .error _ => Stands job .idle

theorem keeping_spawn (serverId : String)
    (stands : Stands (.create sessionId serverId) (.waiting (.sessionStart sessionId)) status
      manager)
    : wp Accounted orderly.answers (.create sessionId serverId) (spawn sessionId)
        (Spawned (.create sessionId serverId) sessionId) status manager := by
  have regular : Job.create sessionId serverId ≠ .lifespan := by simp
  refine wp_awaiting_bind ?_ ?_ ?_
  · exact stands.go regular (fun _ own => own.elim) (fun _ creating => creating)
  · intro _ status manager waiting kept _
    exact kept.aside regular waiting (fun _ own => own.elim)
  · intro _ status manager waiting kept answered
    refine wp_get_bind.mpr (wp_modify_bind.mpr (wp_awaiting_bind ?_ ?_ ?_))
    · exact (kept.stands waiting).spawn regular (answered.2 rfl)
    · intro raised status manager _ _ answered
      rcases answered.1 with ⟨cancelled, _⟩ | ⟨_, connected⟩
      · exact cancelled.elim
      · cases connected
    · intro _ status manager waiting kept _
      exact kept.stands waiting

theorem keeping_create (serverId : String) (unissued : sessionId ∉ manager.issued)
    (stands : Stands (.create sessionId serverId) .idle status manager)
    : Keeping (.create sessionId serverId) (create sessionId serverId)
        (Aside (.create sessionId serverId)) status manager := by
  have regular : Job.create sessionId serverId ≠ .lifespan := by simp
  refine wp_get_bind.mpr ?_
  split
  · exact stands
  · refine wp_modify_bind.mpr (wp_awaiting_bind (stands.issue unissued) ?_ ?_)
    · intro _ status manager waiting kept _
      exact kept.aside regular waiting (fun _ own => own.elim)
    · intro _ status manager waiting kept _
      refine wp_sequence (keeping_spawn serverId (kept.stands waiting))
        (fun _ _ _ stands => stands) ?_
      intro process status manager stands
      refine wp_modify_bind.mpr (wp_awaiting_bind (stands.register regular) ?_ ?_)
      · intro _ status manager waiting kept _
        exact kept.aside regular waiting (fun _ own => own.elim)
      · intro _ status manager waiting kept _
        have listed : Stands (.create sessionId serverId) .idle status
            { manager with tasks := sessionId :: manager.tasks } :=
          (kept.aside regular waiting (fun _ own => own.elim)).change rfl rfl rfl
        refine wp_modify_bind.mpr (wp_awaiting ?_ ?_)
        · exact listed.go regular (fun _ own => own.elim) (fun _ creating => creating.elim)
        · intro _ status manager waiting kept _
          exact kept.aside regular waiting (fun _ own => own.elim)

end

-----------------------------------------------------------------------------------------
-- The shutdown
-----------------------------------------------------------------------------------------

section

variable {status : Job → Status Point} {manager after : Manager}
  {post : Except Raised Unit → (Job → Status Point) → Manager → Prop}

/-- Terminating the registered subprocesses only cancels pumps: nothing is awaited. -/
theorem wp_terminateEach (sessions : List (String × Nat))
    (enough : ∀ cancelled, post (.ok ()) status { manager with cancelled := cancelled })
    : Keeping .lifespan (terminateEach sessions) post status manager := by
  induction sessions generalizing manager with
  | nil => exact enough manager.cancelled
  | cons session rest ih =>
      obtain ⟨sessionId, process⟩ := session
      refine wp_modify_bind.mpr (wp_get_bind.mpr ?_)
      have goes : Keeping .lifespan (terminateEach rest) post status (manager.cancel sessionId) :=
        ih (fun cancelled => enough cancelled)
      refine wp_bind.mpr (wp_tryCatch.mpr ?_)
      split
      · change wp _ _ _ (if _ then _ else _) _ _ _
        split
        · exact goes
        · exact goes
      · exact goes

/-- What is left when the survivors of a list have been killed. -/
structure Killed (manager : Manager) (processes : List Nat) (after : Manager) : Prop where
  sessions : after.sessions = manager.sessions
  issued : after.issued = manager.issued
  ended : ∀ process, manager.HasEnded process → after.HasEnded process
  all : ∀ process ∈ processes, after.HasEnded process

/-- Killing the survivors awaits nothing, and leaves none; by induction on them. -/
theorem wp_killEach (processes : List Nat)
    (enough : ∀ after, Killed manager processes after → post (.ok ()) status after)
    : Keeping .lifespan (killEach processes) post status manager := by
  induction processes generalizing manager with
  | nil => exact enough manager ⟨rfl, rfl, fun _ finished => finished, by simp⟩
  | cons process rest ih =>
      have goes {next : Manager} (sessions : next.sessions = manager.sessions)
          (issued : next.issued = manager.issued)
          (ended : ∀ process, manager.HasEnded process → next.HasEnded process)
          (finished : next.HasEnded process)
          : Keeping .lifespan (killEach rest) post status next := by
        refine ih (fun after killed => enough after ⟨?_, ?_, ?_, ?_⟩)
        · exact killed.sessions.trans sessions
        · exact killed.issued.trans issued
        · exact fun other before => killed.ended other (ended other before)
        · exact List.forall_mem_cons.mpr ⟨killed.ended process finished, killed.all⟩
      refine wp_get_bind.mpr (wp_bind.mpr (wp_tryCatch.mpr ?_))
      split
      · change wp _ _ _ (if _ then _ else _) _ _ _
        split
        · next raises =>
            exact goes rfl rfl (fun _ finished => finished) (hasEnded_of_raises raises)
        · exact goes rfl rfl (fun _ finished => finished.kill process) (hasEnded_kill manager process)
      · next reaped =>
          refine goes rfl rfl (fun _ finished => finished) (hasEnded_of_not_unreaped ?_)
          simpa using reaped

/-- The registered subprocesses that the event loop does not know to have exited. -/
def Manager.alive (manager : Manager) : List Nat :=
  manager.registered.filter manager.unreaped

/-- `shutdown_all` takes over what the registry answers for. -/
theorem Stands.takeOver (stands : Stands .lifespan .idle status manager) (cancelled : List String)
    : Stands .lifespan (.waiting (.graceAll manager.alive)) status
        { manager with stopping := true, sessions := [], cancelled := cancelled } := by
  refine Stands.intro List.nodup_nil (by simp [Dict.keys]) ?_ ?_ ?_ ?_ ?_
  · intro sessionId creating
    rcases creating with creating | ⟨other, differs, creating⟩
    · exact creating.elim
    · exact ⟨(stands.creates other differs creating).1, by simp [Dict.keys]⟩
  · intro other sessionId _ creating
    exact creating.elim
  · intro one other sessionId first second here there
    exact stands.others first second here there
  · intro process
    rcases stands.owns process with finished | listed | kept | elsewhere
    · exact Or.inl finished
    · by_cases reaped : manager.unreaped process = true
      · exact Or.inr (Or.inr (Or.inl (List.mem_filter.mpr ⟨listed, reaped⟩)))
      · exact Or.inl (hasEnded_of_not_unreaped (Bool.eq_false_iff.mpr reaped))
    · exact kept.elim
    · exact Or.inr (Or.inr (Or.inr elsewhere))
  · intro finished
    rw [Function.update_self] at finished
    cases finished

/-- When nothing is under way, killing the survivors leaves no subprocess running. -/
theorem Stands.finish {alive : List Nat}
    (stands : Stands .lifespan (.waiting (.graceAll alive)) status manager)
    (settled : Settled status manager)
    (registry : ∀ process ∈ manager.registered, manager.HasEnded process)
    : Keeping .lifespan (killEach alive) (Ends Accounted .lifespan) status manager := by
  refine wp_killEach alive (fun after killed => ?_)
  have all : after.AllEnded := by
    intro process
    rcases stands.owns process with finished | listed | kept | ⟨other, differs, kept⟩
    · exact killed.ended process finished
    · exact killed.ended process (registry process listed)
    · exact killed.all process kept
    · exact killed.ended process (settled other process differs kept)
  exact Stands.become stands killed.sessions killed.issued killed.ended
    (fun _ creating => creating.elim) (fun process _ => Or.inr (all process)) (fun _ _ => all)

theorem keeping_lifespan (stands : Stands .lifespan .idle status manager)
    (may : Orderly status manager (.begin .lifespan))
    : Keeping .lifespan lifespan (Ends Accounted .lifespan) status manager := by
  refine wp_modify_bind.mpr (wp_get_bind.mpr (wp_modify_bind.mpr (wp_bind.mpr ?_)))
  refine wp_terminateEach _ (fun cancelled => ?_)
  have taken := stands.takeOver cancelled
  refine wp_get_bind.mpr (wp_bind.mpr ?_)
  change wp _ _ _ (awaitAll manager.alive) _ _ _
  unfold awaitAll
  split
  · next none =>
      have settled : Settled status manager := by
        rcases may with some | settled
        · obtain ⟨process, listed, unreaped⟩ := List.any_eq_true.mp some
          have member : process ∈ manager.alive := List.mem_filter.mpr ⟨listed, unreaped⟩
          rw [List.isEmpty_iff.mp none] at member
          cases member
        · exact settled
      exact taken.finish settled (by simp [Manager.registered])
  · refine wp_awaiting taken ?_
    intro reply status manager waiting kept answered
    obtain ⟨rule, settled, registry⟩ := answered
    have stands := kept.stands waiting
    rcases rule with ⟨cancelled, _⟩ | ⟨_, rfl⟩
    · exact cancelled.elim
    · exact stands.finish settled registry

/-- What happens by itself starts no subprocess. -/
theorem Accounted.drift (accounted : Accounted status manager) (drifts : Drifts manager after)
    : Accounted status after := by
  have ended {index : Nat} {was next : Subprocess} (here : manager.processes[index]? = some was)
      (finished : was.Ended → next.Ended) {process : Nat} (before : manager.HasEnded process)
      : Manager.HasEnded { manager with processes := manager.processes.set index next }
          process := by
    intro found there
    by_cases same : index = process
    · subst same
      have known : index < manager.processes.length := (List.getElem?_eq_some_iff.mp here).1
      rw [List.getElem?_set_self known] at there
      cases there
      exact finished (before was here)
    · rw [List.getElem?_set_ne same] at there
      exact before found there
  have goes (sessions : after.sessions = manager.sessions) (issued : after.issued = manager.issued)
      (ended : ∀ process, manager.HasEnded process → after.HasEnded process)
      : Accounted status after := by
    have stands : Stands .lifespan (status .lifespan) status manager := accounted.stands rfl
    have next : Stands .lifespan (status .lifespan) status after :=
      stands.become sessions issued ended (fun _ creating => creating) (fun _ kept => Or.inl kept)
        (fun _ finished process => ended process (accounted.returned finished process))
    rwa [Stands, Function.update_eq_self] at next
  cases drifts with
  | exit signalRaises here running =>
      exact goes rfl rfl (fun _ => ended here (fun _ => Or.inl (by simp)))
  | reap here exited => exact goes rfl rfl (fun _ => ended here (fun _ => Or.inl (by simp)))
  | swap engine => exact goes rfl rfl (fun _ finished => finished)

end

/-- A task that answers for nothing by itself is over at any time. -/
theorem ends_of_aside {status : Job → Status Point} {manager : Manager} {job : Job}
    (regular : job ≠ .lifespan) {task : Async Unit}
    (keeping : Keeping job task (Aside job) status manager)
    : Keeping job task (Ends Accounted job) status manager := by
  refine wp_mono keeping ?_
  intro _ status manager stands
  exact stands.go regular (fun _ own => own.elim) (fun _ creating => creating.elim)

/-- Every task keeps everything accounted for, over orderly steps. -/
theorem verified_accounted : Verified Accounted orderly program := by
  refine ⟨?_, ?_⟩
  · intro status manager job idle accounted may
    have stands : Stands job .idle status manager := accounted.stands idle
    cases job with
    | create sessionId serverId => exact ends_of_aside (by simp) (keeping_create serverId may.1 stands)
    | run sessionId => exact ends_of_aside (by simp) (keeping_run (by simp) sessionId stands)
    | delete request sessionId =>
        exact ends_of_aside (by simp) (keeping_delete (by simp) sessionId stands)
    | sweep round => exact ends_of_aside (by simp) (keeping_sweepRound (by simp) stands)
    | lifespan => exact keeping_lifespan stands may.2
  · intro status manager after accounted drifts
    exact accounted.drift drifts

/-- A step of the gateway that is orderly. -/
def OrderlyStep (pool : Pool Job Manager Value Raised) (action : Action Job Value Raised)
    (after : Pool Job Manager Value Raised)
    : Prop :=
  Step program rules pool action after ∧ Orderly pool.status pool.shared action

theorem OrderlyStep.step {pool after : Pool Job Manager Value Raised}
    {action : Action Job Value Raised} (stepped : OrderlyStep pool action after)
    : Step program orderly pool action after := by
  obtain ⟨step, steady⟩ := stepped
  cases step with
  | begin idle may => exact .begin idle ⟨may, steady⟩
  | resume waiting answered => exact .resume waiting ⟨answered, steady⟩
  | drift drifted => exact .drift drifted

/-- In every run whose steps are orderly, no subprocess that was ever spawned still runs when
`shutdown_all` has returned, unless it was sent kill.
-/
theorem orderly_shutdown_leaves_none {engine : PolicyEngine}
    {actions : List (Action Job Value Raised)} {final : Pool Job Manager Value Raised}
    (run : Machine.Run OrderlyStep (fresh engine) actions final)
    (returned : final.status .lifespan = .ended)
    : ∀ process ∈ final.shared.processes, process.Ended := by
  have start : Kept Accounted orderly (fresh engine : Pool Job Manager Value Raised) := by
    refine ⟨⟨?_, ?_, ?_, ?_, ?_, ?_⟩, ?_⟩
    · exact List.nodup_nil
    · intro sessionId listed
      cases listed
    · intro job sessionId creating
      exact creating.elim
    · intro job other sessionId creating
      exact creating.elim
    · intro process
      refine Or.inl ?_
      intro found here
      cases here
    · intro finished
      cases finished
    · intro job task begun
      cases begun
  have steps := run.mono (fun _ _ _ stepped => stepped.step)
  have accounted := (verified_accounted.run steps start).now
  intro process member
  obtain ⟨index, here⟩ := List.getElem?_of_mem member
  exact accounted.returned returned index process here

section

/-- A policy with one server. -/
def mailServer : PolicyEngine where
  policy := { version := 1, servers := [("mail", "serve")] }

/-- Everything goes well, but no subprocess ends within a grace period. -/
def stubborn : (point : Point) → Except Raised (Value point)
  | .exists _ => .ok true
  | .grace _ => .error .timeoutError
  | .sessionStart _ | .exec _ | .pipes _ _ | .touch _ | .ready _ | .connect _ | .pumps _ => .ok ()
  | .handled | .interval | .graceAll _ | .delete _ => .ok ()

abbrev creation : Job := .create "a" "mail"

def begun : Pool Job Manager Value Raised :=
  (fresh mailServer).proceed creation (program creation)

/-- The session is registered. -/
def opened : Pool Job Manager Value Raised :=
  ((begun.answer creation stubborn).answer creation stubborn).answer creation stubborn

theorem run_opened : ∃ actions, Machine.Run OrderlyStep (fresh mailServer) actions opened := by
  have begins : OrderlyStep (fresh mailServer) (.begin creation) begun :=
    ⟨.begin rfl (by simp [rules, Begins, fresh]), trivial⟩
  have records : OrderlyStep begun (.resume creation (.sessionStart "a") (.ok ()))
      (begun.answer creation stubborn) :=
    ⟨.answer stubborn rfl (Or.inr ⟨id, Or.inl rfl⟩), trivial⟩
  have starts : OrderlyStep (begun.answer creation stubborn) (.resume creation (.exec "a") (.ok ()))
      ((begun.answer creation stubborn).answer creation stubborn) := by
    refine ⟨.answer stubborn rfl (Or.inr ⟨id, Or.inl rfl⟩), ?_⟩
    intro _ finished
    cases finished
  have registers : OrderlyStep ((begun.answer creation stubborn).answer creation stubborn)
      (.resume creation (.pipes "a" 0) (.ok ())) opened :=
    ⟨.answer stubborn rfl (Or.inr ⟨id, rfl⟩), trivial⟩
  exact ⟨_, (((Machine.Run.nil.concat begins).concat records).concat starts).concat registers⟩

/-- `shutdown_all` has taken over the session, and waits for its subprocess. -/
def stopping : Pool Job Manager Value Raised :=
  opened.proceed .lifespan (program .lifespan)

theorem settled_stopping : Settled stopping.status stopping.shared := by
  intro job process regular kept
  rw [stopping, status_proceed_other _ _ regular] at kept
  by_cases same : job = creation
  · subst same
    exact (kept : False).elim
  · rw [opened, status_answer_other _ _ same, status_answer_other _ _ same,
      status_answer_other _ _ same, begun, status_proceed_other _ _ same] at kept
    exact kept.elim

/-- A registered subprocess that does not end within the grace period is killed. -/
theorem registered_session_killed
    : ∃ actions final,
        Machine.Run OrderlyStep (fresh mailServer) actions final
        ∧ final.status .lifespan = .ended
        ∧ final.shared.processes ≠ []
        ∧ ∀ process ∈ final.shared.processes, process.Ended := by
  obtain ⟨actions, run⟩ := run_opened
  have begins : OrderlyStep opened (.begin .lifespan) stopping :=
    ⟨.begin rfl trivial, Or.inl rfl⟩
  have kills : OrderlyStep stopping (.resume .lifespan (.graceAll [0]) (.ok ()))
      (stopping.answer .lifespan stubborn) := by
    refine ⟨.answer stubborn rfl (Or.inr ⟨id, rfl⟩), settled_stopping, ?_⟩
    intro process listed
    cases listed
  have whole := (run.concat begins).concat kills
  exact ⟨_, _, whole, rfl, List.cons_ne_nil _ _, orderly_shutdown_leaves_none whole rfl⟩

/-- The session is being ended for its client: its subprocess has a grace period, and the registry
does not know it any more.
-/
def deleting : Pool Job Manager Value Raised :=
  (opened.proceed (.delete 0 "a") (program (.delete 0 "a"))).answer (.delete 0 "a") stubborn

/-- `shutdown_all` returns at once while the subprocess of a session that is being ended runs. -/
theorem deleted_session_survives_shutdown
    : ∃ actions final,
        Machine.Run (Step program rules) (fresh mailServer) actions final
        ∧ final.status .lifespan = .ended
        ∧ ∃ process ∈ final.shared.processes, ¬ process.Ended := by
  obtain ⟨actions, run⟩ := run_opened
  have asks : Step program rules opened (.begin (.delete 0 "a"))
      (opened.proceed (.delete 0 "a") (program (.delete 0 "a"))) :=
    .begin rfl trivial
  have ends : Step program rules (opened.proceed (.delete 0 "a") (program (.delete 0 "a")))
      (.resume (.delete 0 "a") .handled (.ok ())) deleting :=
    .answer stubborn rfl (Or.inr ⟨id, trivial⟩)
  have stops : Step program rules deleting (.begin .lifespan)
      (deleting.proceed .lifespan (program .lifespan)) :=
    .begin rfl trivial
  have steps := run.mono (fun _ _ _ stepped => stepped.1)
  refine ⟨_, _, ((steps.concat asks).concat ends).concat stops, rfl, {}, ?_, ?_⟩
  · exact List.mem_cons_self
  · simp [Subprocess.Ended]

end

end SecureMcp.Sessions
