import SecureMcp.Decisions.Prediction

/-! Dry runs next to live traffic: whatever the interleaving, the stores and everything that live
requests ask and are told are the same without them.
-/

namespace SecureMcp

open Interaction

/-- A message of a client, or a request that changes the policy in force. -/
inductive LiveRequest
  | message (session : Interceptor.Session) (sent : Interceptor.ClientMessage)
  | activation (request : PolicyVersions.ActivationRequest)

/-- How a live request ended. -/
inductive LiveResult
  | handled (outcome : Except Exn Interceptor.Outcome)
  | activated (succeeded : Bool)

def LiveRequest.program (deployment : Deployment)
    : LiveRequest → Program SharedCall SharedReply LiveResult
  | .message session sent =>
      ((Interceptor.onClientMessage deployment.runtime session sent).run.expand
        (passGateway deployment)).bind (fun outcome => .done (.handled outcome))
  | .activation request =>
      ((request.program deployment.reader).expand passVersions).bind
        (fun succeeded => .done (.activated succeeded))

/-- A hypothetical call, which is explained under the policy in force, or a simulation. -/
inductive DryRequest
  | explain (key : CallKey) (arguments : Json) (context : List (String × Json))
  | historical (candidateVersion : Int) (replayWindow : String)
  | compare (versions : List Int) (replayWindow : String)

def DryRequest.program (deployment : Deployment)
    : DryRequest → Program SharedCall SharedReply Unit
  | .explain key arguments context =>
      (passVersions .engine).bind (fun engine =>
        (DecisionExplainer.explainCall deployment key arguments context engine true).run.bind
          (fun _ => .done ()))
  | .historical candidateVersion replayWindow =>
      (PolicySimulator.simulateHistorical deployment candidateVersion replayWindow).run.bind
        (fun _ => .done ())
  | .compare versions replayWindow =>
      (PolicySimulator.simulateCompare deployment versions replayWindow).run.bind
        (fun _ => .done ())

/-- A dry run only reads. -/
theorem DryRequest.asks (deployment : Deployment) (request : DryRequest)
    : (request.program deployment).Asks OnlyReads := by
  cases request with
  | explain key arguments context =>
      refine Program.Asks.bind ⟨trivial, fun _ => trivial⟩ (fun engine => ?_)
      exact (DecisionExplainer.asks_explainCall _ _).bind (fun _ => trivial)
  | historical candidateVersion replayWindow =>
      exact (PolicySimulator.asks_simulateHistorical _ _).bind (fun _ => trivial)
  | compare versions replayWindow =>
      exact (PolicySimulator.asks_simulateCompare _ _).bind (fun _ => trivial)

/-- Live requests and dry runs in any interleaving, and all of their events. -/
structure SharedRun (ι κ ρ : Type) where
  live : ι → LiveRequest
  dry : κ → DryRequest
  start : World ρ
  trace : List (Stamped (ι ⊕ κ) SharedReply)

namespace SharedRun

variable {ι κ ρ : Type}

/-- The threads that are left when some dry runs are removed. -/
def kept (removed : κ → Bool) : ι ⊕ κ → Bool
  | .inl _ => true
  | .inr thread => !removed thread

/-- The steps that are left. -/
def remaining (removed : κ → Bool) (trace : List (Stamped (ι ⊕ κ) SharedReply))
    : List (Stamped (ι ⊕ κ) SharedReply) :=
  trace.filter (fun step => kept removed step.thread)

/-- The run without some of its dry runs. -/
def without (run : SharedRun ι κ ρ) (removed : κ → Bool) : SharedRun ι κ ρ :=
  { run with trace := remaining removed run.trace }

/-- What the stores hold after some steps. -/
def world (deployment : Deployment) (others : Store ρ (fun call => Done (Reply call)))
    (run : SharedRun ι κ ρ) (past : List (Stamped (ι ⊕ κ) SharedReply))
    : World ρ :=
  (World.stores deployment others).after run.start past

variable [DecidableEq ι] [DecidableEq κ]

/-- A dry run has got as far as its events. -/
def DryUnderWay (deployment : Deployment) (run : SharedRun ι κ ρ) (thread : κ) : Prop :=
  ∃ later,
    ((run.dry thread).program deployment).Exec (eventsOf (.inr thread) run.trace ++ later) ()

/-- Every request has got as far as its events, and the stores answer each of them. -/
structure Proper (deployment : Deployment) (others : Store ρ (fun call => Done (Reply call)))
    (run : SharedRun ι κ ρ)
    : Prop where
  live : ∀ thread, ∃ later result,
    ((run.live thread).program deployment).Exec (eventsOf (.inl thread) run.trace ++ later) result
  dry : ∀ thread, run.DryUnderWay deployment thread
  answered : (World.stores deployment others).Answers run.start run.trace

/-- The dry runs that are put into a run: each has got as far as its events, and is answered from what
the stores hold by the other steps alone.
-/
structure Inserted (deployment : Deployment) (others : Store ρ (fun call => Done (Reply call)))
    (run : SharedRun ι κ ρ) (removed : κ → Bool)
    : Prop where
  underWay : ∀ thread, removed thread → run.DryUnderWay deployment thread
  answered : ∀ past step rest,
    run.trace = past ++ step :: rest
    → ¬ kept removed step.thread
    → World.Admits others (run.world deployment others (remaining removed past)) step.instant
        step.event

/-- What live requests can tell: what the stores hold at every point of the run, and what each request
asks and is told.
-/
structure Unaffected (deployment : Deployment) (others : Store ρ (fun call => Done (Reply call)))
    (run : SharedRun ι κ ρ) (removed : κ → Bool)
    : Prop where
  worlds : ∀ past rest,
    run.trace = past ++ rest
    → (run.without removed).world deployment others (remaining removed past)
      = run.world deployment others past
  events : ∀ thread : ι,
    eventsOf (.inl thread) (run.without removed).trace = eventsOf (.inl thread) run.trace

section

variable {deployment : Deployment} {others : Store ρ (fun call => Done (Reply call))}
  {run : SharedRun ι κ ρ} {removed : κ → Bool}

/-- The steps that are removed leave the stores as they are. -/
theorem silent_of_removed (others : Store ρ (fun call => Done (Reply call)))
    (underWay : ∀ thread, removed thread → run.DryUnderWay deployment thread)
    : ∀ step ∈ run.trace,
        ¬ kept removed step.thread → (World.stores deployment others).Silent step.event := by
  intro step member dropped
  cases thread : step.thread with
  | inl _ => simp [thread, kept] at dropped
  | inr dry =>
      have chosen : removed dry := by simpa [thread, kept] using dropped
      obtain ⟨later, exec⟩ := underWay dry chosen
      have among := event_mem_eventsOf member
      rw [thread] at among
      exact OnlyReads.silent
        (exec.asks ((run.dry dry).asks deployment) step.event (List.mem_append_left _ among))

/-- Dry runs that stay are the same without the others. -/
theorem eventsOf_without {thread : ι ⊕ κ} (stays : kept removed thread)
    : eventsOf thread (run.without removed).trace = eventsOf thread run.trace :=
  eventsOf_filter stays run.trace

/-- A dry run that is removed has no events. -/
theorem eventsOf_removed {thread : κ} (chosen : removed thread)
    : eventsOf (.inr thread) (run.without removed).trace = [] := by
  unfold eventsOf stepsOf without remaining
  rw [List.filter_filter, List.map_eq_nil_iff, List.filter_eq_nil_iff]
  intro step _
  by_cases same : step.thread = .inr thread
  · simp [same, kept, chosen]
  · simp [same]

/-- A run stays one without some of its dry runs. -/
theorem Proper.without (proper : run.Proper deployment others)
    : (run.without removed).Proper deployment others where
  live thread := by
    rw [eventsOf_without rfl]
    exact proper.live thread
  dry thread := by
    obtain ⟨later, exec⟩ := proper.dry thread
    cases chosen : removed thread with
    | true =>
        refine ⟨eventsOf (.inr thread) run.trace ++ later, ?_⟩
        rw [eventsOf_removed chosen]
        exact exec
    | false =>
        refine ⟨later, ?_⟩
        rw [eventsOf_without (by simp [kept, chosen])]
        exact exec
  answered :=
    ((Store.answers_filter_iff (silent_of_removed others (fun thread _ => proper.dry thread))).mp
      proper.answered).1

/-- Dry runs that are put into a run make a run. -/
theorem Inserted.proper (inserted : run.Inserted deployment others removed)
    (proper : (run.without removed).Proper deployment others)
    : run.Proper deployment others where
  live thread := by
    have underWay := proper.live thread
    rw [eventsOf_without rfl] at underWay
    exact underWay
  dry thread := by
    cases chosen : removed thread with
    | true => exact inserted.underWay thread chosen
    | false =>
        obtain ⟨later, exec⟩ := proper.dry thread
        rw [eventsOf_without (by simp [kept, chosen])] at exec
        exact ⟨later, exec⟩
  answered :=
    (Store.answers_filter_iff (silent_of_removed others inserted.underWay)).mpr
      ⟨proper.answered, inserted.answered⟩

/-- Inserting or removing dry runs changes nothing: a run is one of the gateway exactly when it is one
without some of its dry runs, which are then answered from what the others left; and in every such
run the stores hold the same at every point, and live requests ask and are told the same.
-/
theorem dry_runs_do_not_interfere (deployment : Deployment)
    (others : Store ρ (fun call => Done (Reply call))) (run : SharedRun ι κ ρ) (removed : κ → Bool)
    : (run.Proper deployment others
        ↔ (run.without removed).Proper deployment others
          ∧ run.Inserted deployment others removed)
      ∧ (run.Proper deployment others → run.Unaffected deployment others removed) := by
  have silent (proper : run.Proper deployment others)
      : ∀ step ∈ run.trace,
          ¬ kept removed step.thread → (World.stores deployment others).Silent step.event :=
    silent_of_removed others (fun thread _ => proper.dry thread)
  refine ⟨⟨fun proper => ⟨proper.without, ?_⟩, fun ⟨proper, inserted⟩ => inserted.proper proper⟩,
    fun proper => ?_⟩
  · exact ⟨fun thread _ => proper.dry thread,
      ((Store.answers_filter_iff (silent proper)).mp proper.answered).2⟩
  · refine ⟨fun past rest split => ?_, fun thread => eventsOf_without rfl⟩
    refine Store.after_filter (fun step member => silent proper step ?_)
    rw [split]
    exact List.mem_append_left _ member

end

-----------------------------------------------------------------------------------------
-- A call that is explained while it is made
-----------------------------------------------------------------------------------------

section

open DecisionExplainer (mailDeployment mailOthers mailWorld replyDown)

/-- The agent sends a mail. -/
def mailKey : CallKey :=
  ⟨"agent", "mail", "send_mail"⟩

/-- The replies to a call that is counted for the first time, and after that. -/
def replyCounted : (call : SharedCall) → SharedReply call
  | .gateway call => ⟨Interceptor.permitted call, true⟩
  | .risk (.get key) => .ok (if key = Risk.freqKey mailKey then some 1 else none)
  | .risk call => Risk.quiet 1 (.applied ()) call
  | call => replyDown call

def mailRequest : LiveRequest :=
  .message Interceptor.mailSession (Interceptor.sendCall (.obj []))

def mailExplained : DryRequest :=
  .explain mailKey (.obj []) []

def liveEvents : List (Event SharedReply) :=
  ((mailRequest.program mailDeployment).play replyCounted).1

def dryEvents : List (Event SharedReply) :=
  ((mailExplained.program mailDeployment).play replyCounted).1

/-- A call is explained while the same call is scored, after it was counted. -/
def explainedMeanwhile : SharedRun Unit Unit Unit where
  live _ := mailRequest
  dry _ := mailExplained
  start := mailWorld
  trace :=
    (liveEvents.take 7).map (fun event => ⟨.inl (), 0, event⟩)
    ++ dryEvents.map (fun event => ⟨.inr (), 0, event⟩)
    ++ (liveEvents.drop 7).map (fun event => ⟨.inl (), 0, event⟩)

/-- The stores as they are when a first call was counted. -/
structure Counted (world : World Unit) : Prop where
  cache : world.cache = mailWorld.cache
  baselines : world.baselines = []
  log : world.log = []
  policy : world.policy = mailWorld.policy
  count : ∀ key,
    (world.redis key).live 0 = if key = Risk.freqKey mailKey then some 1 else none

/-- What is only read is answered so as long as the count stands. -/
theorem Counted.served {world : World Unit} (counted : Counted world)
    {events : List (Event SharedReply)}
    (played : ∀ event ∈ events,
      OnlyReads event.call ∧ event = ⟨event.call, replyCounted event.call⟩)
    : Program.Served ((World.stores mailDeployment mailOthers).Serves 0) world events world := by
  refine Program.served_of_unchanged (fun event member => ?_)
  obtain ⟨reads, answered⟩ := played event member
  refine ⟨?_, (reads.silent world 0).symm⟩
  rw [answered]
  generalize event.call = call at reads ⊢
  change World.Admits mailOthers world 0 ⟨call, replyCounted call⟩
  cases call with
  | replayRows start stop =>
      rintro rows ⟨⟩
      simp
  | risk call =>
      cases call with
      | get key =>
          rintro value ⟨⟩
          exact (counted.count key).symm
      | hasPendingDrift serverId toolName | isSuspicious serverId toolName =>
          rintro value ⟨⟩
          rw [counted.baselines]
          rfl
      | recentDriftCount serverId toolName seconds =>
          rintro value ⟨⟩
          unfold World.recentDrift
          rw [counted.log]
          rfl
      | utcNow => trivial
      | incr key | incrBy key amount | expire key seconds => exact reads.elim
  | versions call =>
      cases call with
      | engine => exact congrArg PolicyVersions.PolicyState.engine counted.policy.symm
      | readSnapshot version | getVersion version => trivial
      | _ => exact reads.elim
  | gateway call =>
      cases call with
      | isBlocked serverId toolName =>
          rintro blocked ⟨⟩
          rw [counted.baselines]
          rfl
      | cacheGet serverId =>
          rintro found ⟨⟩
          unfold World.cached
          rw [counted.cache]
          rfl
      | utcHour => trivial
      | _ => exact reads.elim

/-- The first seven events of the call count it. -/
theorem counted_of_mail
    : ∃ world,
        Program.Served ((World.stores mailDeployment mailOthers).Serves 0) mailWorld
          (liveEvents.take 7) world
        ∧ Counted world := by
  refine ⟨_, .cons ⟨trivial, rfl⟩ (.cons ⟨rfl, rfl⟩ (.cons ⟨rfl, rfl⟩ (.cons ⟨?_, rfl⟩
    (.cons ⟨rfl, rfl⟩ (.cons ⟨?_, rfl⟩ (.cons ⟨trivial, rfl⟩ (.nil _))))))), rfl, rfl, rfl, rfl, ?_⟩
  · rintro blocked ⟨⟩
    rfl
  · rintro value ⟨⟩
    rfl
  · intro key
    by_cases same : key = Risk.freqKey mailKey
    · subst same
      rw [if_pos rfl]
      change WindowCounter.Counter.live (some (1, some (0 + 60))) 0 = some 1
      decide +kernel
    · rw [if_neg same]
      change WindowCounter.Counter.live (Risk.Redis.set (Risk.Redis.set (fun _ => none)
        (Risk.freqKey mailKey) _) (Risk.freqKey mailKey) _ key) 0 = none
      unfold Risk.Redis.set
      rw [if_neg same, if_neg same]
      rfl

theorem explainedMeanwhile_proper : explainedMeanwhile.Proper mailDeployment mailOthers where
  live _ := ⟨[], _, Program.exec_play replyCounted (mailRequest.program mailDeployment)⟩
  dry _ := ⟨[], Program.exec_play replyCounted (mailExplained.program mailDeployment)⟩
  answered := by
    obtain ⟨world, first, counted⟩ := counted_of_mail
    have dry : Program.Served ((World.stores mailDeployment mailOthers).Serves 0) world dryEvents
        world := by
      refine counted.served (fun event member => ⟨?_, Program.play_reply replyCounted _ event member⟩)
      exact (Program.exec_play replyCounted _).asks (DryRequest.asks mailDeployment mailExplained)
        event member
    have between : Program.Served ((World.stores mailDeployment mailOthers).Serves 0) world
        ((liveEvents.drop 7).take 9) world := by
      refine counted.served (fun event member => ⟨?_, ?_⟩)
      · revert event
        change ∀ event ∈ ([_, _, _, _, _, _, _, _, _] : List (Event SharedReply)), _
        simp only [List.forall_mem_cons]
        exact ⟨trivial, trivial, trivial, trivial, trivial, trivial, trivial, trivial, trivial,
          by simp⟩
      · exact Program.play_reply replyCounted _ event
          (List.mem_of_mem_drop (List.mem_of_mem_take member))
    have last : ∃ after, Program.Served ((World.stores mailDeployment mailOthers).Serves 0) world
        (liveEvents.drop 16) after :=
      ⟨_, .cons ⟨fun _ => rfl, rfl⟩ (.nil _)⟩
    obtain ⟨after, last⟩ := last
    have rest : Program.Served ((World.stores mailDeployment mailOthers).Serves 0) world
        (liveEvents.drop 7) after :=
      Program.served_append_iff.mpr ⟨world, between, last⟩
    have whole := Program.served_append_iff.mpr
      ⟨world, Program.served_append_iff.mpr ⟨world, first, dry⟩, rest⟩
    refine Store.answers_of_served (fun step member => ?_) whole
    simp only [explainedMeanwhile, List.mem_append, List.mem_map] at member
    rcases member with (⟨_, _, rfl⟩ | ⟨_, _, rfl⟩) | ⟨_, _, rfl⟩ <;> rfl

/-- Witness: an explanation reads the count of a call that is being scored. The run without it is one
of the gateway as well, and the call and the stores are the same there.
-/
theorem explained_call_unaffected
    : (eventsOf (.inr ()) explainedMeanwhile.trace).length = 12
      ∧ (explainedMeanwhile.without (fun _ => true)).Proper mailDeployment mailOthers
      ∧ explainedMeanwhile.Unaffected mailDeployment mailOthers (fun _ => true) := by
  obtain ⟨proper, unaffected⟩ :=
    dry_runs_do_not_interfere mailDeployment mailOthers explainedMeanwhile (fun _ => true)
  exact ⟨rfl, (proper.mp explainedMeanwhile_proper).1, unaffected explainedMeanwhile_proper⟩

end

end SharedRun

end SecureMcp
