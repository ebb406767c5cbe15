import SecureMcp.Library.Cooperative
import SecureMcp.Library.Dict
import SecureMcp.Policy.Engine

/-! The session manager's tasks: how the subprocess of a session is started, handed to the
registry, and ended. A task gives way only where it awaits.
-/

namespace SecureMcp.Sessions

open Cooperative

/-- How far a subprocess is. The event loop learns some time after an exit that it happened;
a signal in between either raises or does nothing.
-/
inductive Life
  | running
  | exited (signalRaises : Bool)
  | reaped
  deriving DecidableEq, Repr

/-- An upstream subprocess. What it does with a terminate signal is its own affair: it exits,
or it goes on running.
-/
structure Subprocess where
  life : Life := .running
  killed : Bool := false
  deriving DecidableEq, Repr

/-- It has exited, or it has been sent kill. -/
def Subprocess.Ended (process : Subprocess) : Prop :=
  process.life ≠ .running ∨ process.killed = true

/-- What the tasks share: the policy in force, every subprocess that was ever spawned, the
registry, and what the tasks of the sessions know of each other. A subprocess is named by
its place.
-/
structure Manager where
  engine : PolicyEngine
  processes : List Subprocess := []
  sessions : List (String × Nat) := []
  issued : List String := []
  tasks : List String := []
  cancelled : List String := []
  ready : List String := []
  rounds : Nat := 0
  stopping : Bool := false

namespace Manager

/-- `process.returncode is None`. -/
def unreaped (manager : Manager) (process : Nat) : Bool :=
  (manager.processes[process]?).any (fun found => found.life ≠ .reaped)

/-- Whether a signal raises ProcessLookupError. -/
def raises (manager : Manager) (process : Nat) : Bool :=
  (manager.processes[process]?).any (fun found => found.life = .exited true)

/-- A running subprocess has been sent kill. -/
def kill (manager : Manager) (process : Nat) : Manager where
  __ := manager
  processes := manager.processes.modify process (fun found => { found with killed := true })

def spawn (manager : Manager) : Manager where
  __ := manager
  processes := manager.processes ++ [{}]

def register (manager : Manager) (sessionId : String) (process : Nat) : Manager where
  __ := manager
  sessions := Dict.set sessionId process manager.sessions

def pop (manager : Manager) (sessionId : String) : Manager where
  __ := manager
  sessions := Dict.erase sessionId manager.sessions

/-- Cancel a session's pump task, when it has one. -/
def cancel (manager : Manager) (sessionId : String) : Manager where
  __ := manager
  cancelled :=
    if sessionId ∈ manager.tasks then sessionId :: manager.cancelled else manager.cancelled

end Manager

inductive Raised
  | lookupError
  | unavailable
  | osError
  | timeoutError
  | processLookupError
  | cancelledError
  deriving DecidableEq, Repr

/-- Where the tasks await. A subprocess exists before `create_subprocess_exec` returns it:
its pipes are connected first.
-/
inductive Point
  | sessionStart (sessionId : String)
  | exec (sessionId : String)
  | pipes (sessionId : String) (process : Nat)
  | touch (sessionId : String)
  | ready (sessionId : String)
  | connect (sessionId : String)
  | pumps (sessionId : String)
  | handled
  | interval
  | exists (sessionId : String)
  | grace (process : Nat)
  | graceAll (processes : List Nat)
  | delete (sessionId : String)
  deriving DecidableEq, Repr

abbrev Value : Point → Type
  | .exists _ => Bool
  | _ => Unit

abbrev Async (α : Type) : Type :=
  Routine Manager Value Raised α

/-- Start the subprocess of a session. -/
def spawn (sessionId : String) : Async Nat := do
  let _ ← Routine.awaiting (Point.exec sessionId)
  let manager ← Routine.get
  Routine.modify Manager.spawn
  let _ ← Routine.awaiting (Point.pipes sessionId manager.processes.length)
  return manager.processes.length

/-- The pump task of a session is created when its last-seen key is written. -/
def create (sessionId serverId : String) : Async Unit := do
  let manager ← Routine.get
  match manager.engine.serverCommand serverId with
  | none => throw .lookupError
  | some _ =>
      Routine.modify (fun manager => { manager with issued := sessionId :: manager.issued })
      let _ ← Routine.awaiting (Point.sessionStart sessionId)
      let process ← spawn sessionId
      Routine.modify (fun manager => manager.register sessionId process)
      let _ ← Routine.awaiting (Point.touch sessionId)
      Routine.modify (fun manager => { manager with tasks := sessionId :: manager.tasks })
      Routine.awaiting (Point.ready sessionId)

def terminate (process : Nat) : Async Unit := do
  let manager ← Routine.get
  if manager.raises process then throw .processLookupError else pure ()

def kill (process : Nat) : Async Unit := do
  let manager ← Routine.get
  if manager.raises process then throw .processLookupError
  else Routine.modify (fun manager => manager.kill process)

/-- `except (ProcessLookupError, OSError)`: the subprocess is gone. -/
def unlessGone (body : Async Unit) : Async Unit :=
  tryCatch body (fun raised =>
    if raised = .processLookupError ∨ raised = .osError then pure () else throw raised)

/-- Terminate a subprocess, and kill it when it is not gone within the grace period. -/
def stop (process : Nat) : Async Unit := do
  let manager ← Routine.get
  if manager.unreaped process then
    terminate process
    tryCatch (Routine.awaiting (Point.grace process)) (fun raised =>
      if raised = .timeoutError then kill process else throw raised)
  else pure ()

/-- `session.task is not asyncio.current_task()`: `current` is the session whose pump task
this is.
-/
def cancelPump (current : Option String) (sessionId : String) : Async Unit :=
  if current = some sessionId then pure ()
  else Routine.modify (fun manager => manager.cancel sessionId)

def teardown (current : Option String) (sessionId : String) : Async Unit := do
  let manager ← Routine.get
  match manager.sessions.lookup sessionId with
  | none => pure ()
  | some process =>
      Routine.modify (fun manager => manager.pop sessionId)
      cancelPump current sessionId
      unlessGone (stop process)
      Routine.awaiting (Point.delete sessionId)

/-- The pumps of a session: `run` sets `ready`, and ends the session whatever ended them. -/
def pump (sessionId : String) : Async Unit := do
  let _ ← Routine.awaiting (Point.connect sessionId)
  Routine.modify (fun manager => { manager with ready := sessionId :: manager.ready })
  Routine.awaiting (Point.pumps sessionId)

def run (sessionId : String) : Async Unit := do
  let ended ← Routine.attempt (pump sessionId)
  Routine.modify (fun manager => { manager with ready := sessionId :: manager.ready })
  teardown (some sessionId) sessionId
  Routine.ofExcept ended

/-- The endpoint ends a session after its transport has handled the DELETE. -/
def delete (sessionId : String) : Async Unit := do
  let manager ← Routine.get
  match manager.sessions.lookup sessionId with
  | none => pure ()
  | some _ =>
      let _ ← Routine.awaiting Point.handled
      teardown none sessionId

/-- End the sessions whose last-seen key has expired. -/
def sweepEach : List String → Async Unit
  | [] => pure ()
  | sessionId :: rest => do
      let seen : Bool ← Routine.awaiting (Point.exists sessionId)
      if seen then pure () else teardown none sessionId
      sweepEach rest

def sweepOnce : Async Unit := do
  let manager ← Routine.get
  sweepEach (Dict.keys manager.sessions)

/-- One round of the sweep loop. -/
def sweepRound : Async Unit := do
  let _ ← Routine.awaiting Point.interval
  sweepOnce
  Routine.modify (fun manager => { manager with rounds := manager.rounds + 1 })

def terminateEach : List (String × Nat) → Async Unit
  | [] => pure ()
  | (sessionId, process) :: rest => do
      Routine.modify (fun manager => manager.cancel sessionId)
      let manager ← Routine.get
      unlessGone (if manager.unreaped process then terminate process else pure ())
      terminateEach rest

def killEach : List Nat → Async Unit
  | [] => pure ()
  | process :: rest => do
      let manager ← Routine.get
      unlessGone (if manager.unreaped process then kill process else pure ())
      killEach rest

/-- One grace period for all of them. -/
def awaitAll (alive : List Nat) : Async Unit :=
  if alive.isEmpty then pure () else Routine.awaiting (Point.graceAll alive)

def shutdownAll : Async Unit := do
  let manager ← Routine.get
  Routine.modify (fun manager => { manager with sessions := [] })
  terminateEach manager.sessions
  let later ← Routine.get
  let alive := (manager.sessions.map Prod.snd).filter later.unreaped
  awaitAll alive
  killEach alive

/-- The end of the lifespan: `sweep.cancel()`, then `shutdown_all`. -/
def lifespan : Async Unit := do
  Routine.modify (fun manager => { manager with stopping := true })
  shutdownAll

/-- The tasks of the gateway. A request or a session has its own. -/
inductive Job
  | create (sessionId serverId : String)
  | run (sessionId : String)
  | delete (request : Nat) (sessionId : String)
  | sweep (round : Nat)
  | lifespan
  deriving DecidableEq, Repr

def program : Job → Async Unit
  | .create sessionId serverId => create sessionId serverId
  | .run sessionId => run sessionId
  | .delete _ sessionId => delete sessionId
  | .sweep _ => sweepRound
  | .lifespan => lifespan

/-- When a task may begin: `uuid4` gives an id that no session had, a pump task runs once it
is created and unless it is cancelled before, and the sweep goes round until it is cancelled.
-/
def Begins (manager : Manager) : Job → Prop
  | .create sessionId _ => sessionId ∉ manager.issued
  | .run sessionId => sessionId ∈ manager.tasks ∧ sessionId ∉ manager.cancelled
  | .sweep round => round = manager.rounds ∧ manager.stopping = false
  | _ => True

/-- A task is cancelled at its next await: the sweep by the lifespan, the pumps of a session
by whoever took it from the registry. Nothing cancels the others; nor does anything cancel
the teardown that took a session from the registry itself.
-/
def Cancelled (manager : Manager) : Job → Point → Prop
  | .sweep _, _ => manager.stopping = true
  | .run _, .connect sessionId => sessionId ∈ manager.cancelled
  | .run _, .pumps sessionId => sessionId ∈ manager.cancelled
  | _, _ => False

/-- What an await can be answered with when its task is not cancelled. Redis, the audit log
and the operating system may fail; the pumps and the handling of a request end in any way; a
wait ends when the subprocess is reaped, or with its time.
-/
def Answers (manager : Manager) : (point : Point) → Except Raised (Value point) → Prop
  | .sessionStart _, reply => reply = .ok () ∨ reply = .error .unavailable
  | .exec _, reply => reply = .ok () ∨ reply = .error .osError
  | .pipes _ _, reply => reply = .ok ()
  | .touch _, reply => reply = .ok () ∨ reply = .error .unavailable
  | .ready sessionId, reply => reply = .ok () ∧ sessionId ∈ manager.ready
  | .interval, reply => reply = .ok ()
  | .exists _, reply => reply ≠ .error .cancelledError
  | .grace process, reply =>
      (reply = .ok () ∧ manager.unreaped process = false) ∨ reply = .error .timeoutError
  | .graceAll _, reply => reply = .ok ()
  | .delete _, reply => reply = .ok () ∨ reply = .error .unavailable
  | _, _ => True

/-- What happens by itself: a running subprocess exits, the event loop learns of an exit, and
the policy is swapped.
-/
inductive Drifts (manager : Manager) : Manager → Prop
  | exit {index : Nat} {process : Subprocess} (signalRaises : Bool)
    (here : manager.processes[index]? = some process) (running : process.life = .running)
    : Drifts manager { manager with
        processes := manager.processes.set index { process with life := .exited signalRaises } }
  | reap {index : Nat} {process : Subprocess} {signalRaises : Bool}
    (here : manager.processes[index]? = some process)
    (exited : process.life = .exited signalRaises)
    : Drifts manager { manager with
        processes := manager.processes.set index { process with life := .reaped } }
  | swap (engine : PolicyEngine) : Drifts manager { manager with engine := engine }

def rules : Rules Job Manager Value Raised where
  begins _ manager job := Begins manager job
  answers _ manager job point reply :=
    (Cancelled manager job point ∧ reply = .error .cancelledError)
    ∨ (¬ Cancelled manager job point ∧ Answers manager point reply)
  drifts := Drifts

/-- The gateway has no session yet. -/
def fresh (engine : PolicyEngine) : Pool Job Manager Value Raised where
  tasks _ := none
  shared := { engine := engine }

end SecureMcp.Sessions
