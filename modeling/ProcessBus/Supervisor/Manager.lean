import ProcessBus.Lib.Run
import ProcessBus.Supervisor.Modules

/-!
# The supervisor

`internal/supervisor/manager.go` and `agent.go`.  Every entry point holds `commandMu` from its
first statement to its last, so there is at most one command at a time; it is a small program that
`advance` runs from one section under `mu` to the next, with a program counter `Pc`.  Beside it run
the goroutines of the runtimes: services that return and report their exit (`markRuntimeExit`),
cleanups after a failure, and the body of `stopOnce`, which whoever came first runs.  A step that
would have to wait changes nothing.

The runtimes ever made stand in `heap` and are known by their position in it.  No function reads
`Runtime.closes`, `Runtime.aborted`, `Manager.turns`, `Lease.issued` and `Manager.log`: they record
what has happened.
-/

namespace ProcessBus.Supervisor

open Go Lib

/-- How far the body of `stopOnce` is: not begun, `cancel` called, `close` called, returned. -/
inductive Stage
  | idle
  | entered
  | waiting
  | done
deriving DecidableEq, Repr

/-- `moduleRuntime`, of the module `owner`.  `running` and `leaving` are the goroutines that count
in `wg`, before and after they have reported; `streams` are the keys of `goosePubs` or `svStreams`,
and `cleanup` is the channel `cleanupDone`, if there is one, and whether it is closed. -/
structure Runtime where
  owner : ModuleID
  status : Status := .running
  err : Option Failure := none
  hasClose : Bool := false
  streams : List String := []
  cancelled : Bool := false
  running : ℕ := 0
  leaving : ℕ := 0
  stage : Stage := .idle
  stopErr : Option Failure := none
  cleanup : Option Bool := none
  closes : ℕ := 0
  aborted : Bool := false
deriving DecidableEq

namespace Runtime

/-- The counter of `wg`. -/
def live (r : Runtime) : ℕ := r.running + r.leaving

/-- A caller of `shutdown` finds `stopOnce` unused and begins with `cancel`. -/
def enterShutdown (r : Runtime) : Runtime :=
  if r.stage = .idle then { r with stage := .entered, cancelled := true } else r

/-- The next statement in the body of `stopOnce`: `close`, then `wg.Wait`.  A launch between the last
`wg.Done` and the return of `wg.Wait` makes the latter panic; here it waits on, so that some runs of
the model are longer than those of the program. -/
def advanceShutdown (r : Runtime) (closeErr : Option String) : Runtime :=
  match r.stage with
  | .entered =>
      if r.hasClose then
        { r with stage := .waiting, stopErr := closeErr.map .close, closes := r.closes + 1 }
      else { r with stage := .waiting }
  | .waiting => if r.live = 0 then { r with stage := .done } else r
  | _ => r

/-- The goroutine that `markRuntimeExit` starts. -/
def advanceCleanup (r : Runtime) : Runtime :=
  if r.cleanup = some false then
    if r.stage = .done then { r with cleanup := some true } else r.enterShutdown
  else r

/-- `markRuntimeExit`. -/
def markRuntimeExit (r : Runtime) (err : Option String) : Runtime :=
  if r.status ≠ .running then r
  else
    { r with
      status := .error
      err := some (err.elim (.unexpected r.owner) .service)
      cleanup := some false }

/-- A service returns and its goroutine reports it. -/
def exit (r : Runtime) (err : Option String) : Runtime :=
  if r.running = 0 then r
  else { r.markRuntimeExit err with running := r.running - 1, leaving := r.leaving + 1 }

/-- The goroutine of a local PTP client returns without a report when its context is cancelled. -/
def quit (r : Runtime) : Runtime :=
  if r.running = 0 ∨ !r.cancelled ∨ r.owner ≠ .ptpClient then r
  else { r with running := r.running - 1, leaving := r.leaving + 1 }

/-- `wg.Done`. -/
def leave (r : Runtime) : Runtime := { r with leaving := r.leaving - 1 }

/-- `wg.Add(1)` and the `go` statement of a stream. -/
def launch (r : Runtime) (name : String) : Runtime :=
  { r with streams := r.streams ++ [name], running := r.running + 1 }

/-- `inj.Close` and `cancel`, when a start function gives up. -/
def abort (r : Runtime) : Runtime :=
  { r with cancelled := true, closes := r.closes + 1, aborted := true }

end Runtime

/-! ## Commands -/

/-- `agentLease`; `issued` counts the changes of the epoch before it. -/
structure Lease where
  epoch : UInt64
  issued : ℕ

/-- An order in which a loop ranges over the map of modules. -/
abbrev Order := { ids : List ModuleID // ids.Perm modules }

/-- The entry points.  The leases are numbered in the order of their issue. -/
inductive Command
  | start (id : ModuleID)
  | stop (id : ModuleID)
  | updateConfig (cfg : Option Config) (order : Order)
  | close
  | applyGoosePublisherState (name : String)
  | setSVPublisherWaveform (name : String)
  | acquireAgent
  | leaseRelease (lease : ℕ)
  | leaseClose (lease : ℕ)
  | leaseApplyGoose (lease : ℕ) (name : String)
  | leaseApplySV (lease : ℕ) (name : String)
  | leaseApplySVTracked (lease : ℕ) (name : String)

/-- The lease through which a command comes. -/
def Command.lease? : Command → Option ℕ
  | .leaseRelease k | .leaseClose k | .leaseApplyGoose k _ | .leaseApplySV k _
  | .leaseApplySVTracked k _ => some k
  | _ => none

/-- A command is manual if it does not come through a lease, nor asks for one, and is not `Close`,
which the lease cannot refuse. -/
def Command.Manual : Command → Prop
  | .start _ | .stop _ | .updateConfig _ _ | .applyGoosePublisherState _
  | .setSVPublisherWaveform _ => True
  | _ => False

/-- Where a command is.  A pair of a runtime and `wait` is drained by `shutdown`, and then by
receiving from `cleanupDone` if there was one. -/
inductive Pc
  | entry
  | startDrain (id : ModuleID) (rt : ℕ) (wait : Bool)
  | startCall (id : ModuleID) (cfg : Option Config)
  | launching (id : ModuleID) (rt : ℕ) (streams : List (Except Failure String))
  | publish (id : ModuleID) (rt : ℕ)
  | setError (id : ModuleID) (err : Failure)
  | startReturn (id : ModuleID) (errs : List Failure)
  | stopping (ids : List ModuleID) (errs : List Failure)
  | stopDrain (rt : ℕ) (wait : Bool) (ids : List ModuleID) (errs : List Failure)
  | updateDrain (rts : List (ℕ × Bool)) (cfg : Option Config)
  | writing (rt : ℕ) (name : String)

/-- What a command does to the outside: it is turned away because of the lease, it returns, or it
calls a publisher. -/
inductive Event
  | refused (cmd : Command)
  | returned (cmd : Command) (errs : List Failure)
  | wrote (cmd : Command) (rt : ℕ) (name : String)

/-- `Manager`. -/
structure Manager where
  cfg : Option Config
  heap : List Runtime := []
  modules : ModuleID → Option ℕ := fun _ ↦ none
  starting : ModuleID → Bool := fun _ ↦ false
  updateDone : Bool := false
  closed : Bool := false
  agentActive : Bool := false
  agentEpoch : UInt64 := 0
  turns : ℕ := 0
  leases : List Lease := []
  command : Option (Command × Pc) := none
  log : List Event := []

/-- `New`. -/
def Manager.new (cfg : Option Config) : Manager := { cfg }

namespace Manager

/-- `Status`. -/
def status (m : Manager) (id : ModuleID) : Status :=
  match (m.modules id).bind (m.heap[·]?) with
  | none => .stopped
  | some r => r.status

/-- `valid`. -/
def valid (m : Manager) (k : ℕ) : Bool :=
  m.agentActive && (m.leases[k]?.map Lease.epoch == some m.agentEpoch)

/-- Change one runtime. -/
def modify (m : Manager) (rt : ℕ) (f : Runtime → Runtime) : Manager :=
  { m with heap := m.heap.modify rt f }

/-- A new runtime. -/
def allocate (m : Manager) (r : Runtime) : Manager := { m with heap := m.heap ++ [r] }

/-- The command goes on to another place. -/
def goto (m : Manager) (cmd : Command) (pc : Pc) : Manager := { m with command := some (cmd, pc) }

def refuse (m : Manager) (cmd : Command) : Manager :=
  { m with command := none, log := m.log ++ [.refused cmd] }

def ret (m : Manager) (cmd : Command) (errs : List Failure) : Manager :=
  { m with command := none, log := m.log ++ [.returned cmd errs] }

/-- `agentEpoch++`. -/
def turn (m : Manager) (active : Bool) : Manager :=
  { m with agentActive := active, agentEpoch := m.agentEpoch + 1, turns := m.turns + 1 }

/-- `shutdown` of a runtime and the wait for its cleanup are over. -/
def drained (m : Manager) (rt : ℕ) (wait : Bool) : Bool :=
  match m.heap[rt]? with
  | none => true
  | some r => r.stage = .done ∧ (wait → r.cleanup = some true)

/-- The runtime of a module, with whether it has a `cleanupDone`. -/
def current (m : Manager) (id : ModuleID) : Option (ℕ × Bool) := do
  let rt ← m.modules id
  let r ← m.heap[rt]?
  return (rt, r.cleanup.isSome)

/-! ### The first section of each command -/

/-- `start`, until it has marked the module as starting. -/
def start (m : Manager) (id : ModuleID) : Manager :=
  if m.closed then m.ret (.start id) [.closed]
  else if m.updateDone then m
  else if m.status id = .running then m.ret (.start id) []
  else if m.starting id then m
  else
    let m' := { m with starting := Function.update m.starting id true }
    match m.current id with
    | some (rt, wait) => m'.goto (.start id) (.startDrain id rt wait)
    | none => m'.goto (.start id) (.startCall id m.cfg)

/-- `rt.status = StatusStopped`. -/
def markStopped (m : Manager) (rt : ℕ) : Manager :=
  m.modify rt fun r ↦ { r with status := .stopped }

/-- `updateConfig`, until it has marked every runtime as stopped. -/
def updateConfig (m : Manager) (cfg : Option Config) (order : Order) : Manager :=
  if m.closed then m.ret (.updateConfig cfg order) []
  else if m.updateDone ∨ Supervisor.modules.any m.starting then m
  else
    let rts := order.1.filterMap m.current
    let m' := rts.foldl (fun m x ↦ markStopped m x.1) m
    goto { m' with updateDone := true } (.updateConfig cfg order) (.updateDrain rts cfg)

/-- `close`, until it has marked the supervisor as closed. -/
def close (m : Manager) : Manager :=
  if m.closed then m.ret .close []
  else goto { m with closed := true } .close (.stopping Supervisor.modules [])

/-- The check of `applyGoosePublisherState`, `setSVPublisherWaveform` and `ApplySVTracked`: a
publisher of that name in a running module.  The answers are those for a module that does not run
and for a name that it does not have. -/
def findPublisher (m : Manager) (cmd : Command) (id : ModuleID) (name : String)
    (stopped unknown : Failure) : Manager :=
  match (m.modules id).bind fun rt ↦ m.heap[rt]?.map fun r ↦ (rt, r) with
  | none => m.ret cmd [stopped]
  | some (rt, r) =>
      if r.status ≠ .running then m.ret cmd [stopped]
      else if name ∉ r.streams then m.ret cmd [unknown]
      else m.goto cmd (.writing rt name)

/-- `applyGoosePublisherState`. -/
def findGoose (m : Manager) (cmd : Command) (name : String) : Manager :=
  m.findPublisher cmd .goosePub name (.notRunning .goosePub) (.notFound .goosePub name)

/-- `setSVPublisherWaveform`. -/
def findSV (m : Manager) (cmd : Command) (name : String) : Manager :=
  m.findPublisher cmd .svPub name (.notRunning .svPub) (.notFound .svPub name)

/-- `ApplySVTracked`, which has one answer for both. -/
def findSVTracked (m : Manager) (cmd : Command) (name : String) : Manager :=
  m.findPublisher cmd .svPub name .svPublisherNotRunning .svPublisherNotRunning

/-- `AcquireAgent`. -/
def acquireAgent (m : Manager) : Manager :=
  if m.closed ∨ m.cfg.isNone then m.ret .acquireAgent [.unavailable]
  else
    let m' := m.turn true
    ret { m' with leases := m'.leases ++ [⟨m'.agentEpoch, m'.turns⟩] } .acquireAgent []

/-- What an entry point does once it holds `commandMu`. -/
def enter (m : Manager) : Command → Manager
  | .start id => if m.agentActive then m.refuse (.start id) else m.start id
  | .stop id => if m.agentActive then m.refuse (.stop id) else m.goto (.stop id) (.stopping [id] [])
  | .updateConfig cfg order =>
      if m.agentActive then m.refuse (.updateConfig cfg order) else m.updateConfig cfg order
  | .close => (m.turn false).close
  | .applyGoosePublisherState name =>
      if m.agentActive then m.refuse (.applyGoosePublisherState name)
      else m.findGoose (.applyGoosePublisherState name) name
  | .setSVPublisherWaveform name =>
      if m.agentActive then m.refuse (.setSVPublisherWaveform name)
      else m.findSV (.setSVPublisherWaveform name) name
  | .acquireAgent => if m.agentActive then m.refuse .acquireAgent else m.acquireAgent
  | .leaseRelease k =>
      if m.valid k then (m.turn false).ret (.leaseRelease k) [] else m.ret (.leaseRelease k) []
  | .leaseClose k =>
      if m.valid k then m.goto (.leaseClose k) (.stopping [.goosePub, .svPub] [])
      else m.ret (.leaseClose k) []
  | .leaseApplyGoose k name =>
      if m.valid k then m.findGoose (.leaseApplyGoose k name) name
      else m.refuse (.leaseApplyGoose k name)
  | .leaseApplySV k name =>
      if m.valid k then m.findSV (.leaseApplySV k name) name
      else m.refuse (.leaseApplySV k name)
  | .leaseApplySVTracked k name =>
      if m.valid k then m.findSVTracked (.leaseApplySVTracked k name) name
      else m.refuse (.leaseApplySVTracked k name)

/-! ### The rest of each command -/

/-- The section of `start` after the old runtime has been drained. -/
def startAgain (m : Manager) (id : ModuleID) (rt : ℕ) : Manager :=
  let m' := if m.modules id = some rt then m.markStopped rt else m
  m'.goto (.start id) (if m.closed then .startReturn id [.closed] else .startCall id m.cfg)

/-- `startModule` begins. -/
def startModule (m : Manager) (id : ModuleID) (cfg : Option Config) (host : Host) : Manager :=
  match cfg with
  | none => m.goto (.start id) (.setError id .noConfig)
  | some cfg =>
      match startConfiguredModule id cfg (m.status .ptpServer = .running) host with
      | .fail err => m.goto (.start id) (.setError id err)
      | .launch hasClose streams =>
          (m.allocate { owner := id, hasClose }).goto (.start id)
            (.launching id m.heap.length streams)

/-- The loop of a start function. -/
def launchNext (m : Manager) (id : ModuleID) (rt : ℕ) : List (Except Failure String) → Manager
  | [] => m.goto (.start id) (.publish id rt)
  | .ok name :: streams =>
      (m.modify rt (·.launch name)).goto (.start id) (.launching id rt streams)
  | .error err :: _ => (m.modify rt (·.abort)).goto (.start id) (.setError id err)

/-- `m.modules[id] = rt`. -/
def install (m : Manager) (id : ModuleID) (rt : ℕ) : Manager :=
  { m with modules := Function.update m.modules id (some rt) }

/-- The section of `start` that publishes the runtime. -/
def publish (m : Manager) (id : ModuleID) (rt : ℕ) : Manager :=
  (m.install id rt).goto (.start id) <| .startReturn id <|
    match m.heap[rt]? with
    | some r => if r.status = .error then r.err.toList else []
    | none => []

/-- `setError`. -/
def setError (m : Manager) (id : ModuleID) (err : Failure) : Manager :=
  ((m.allocate { owner := id, status := .error, err := some err }).install id m.heap.length).goto
    (.start id) (.startReturn id [err])

/-- The deferred section of `start`, and its return. -/
def startReturn (m : Manager) (id : ModuleID) (errs : List Failure) : Manager :=
  ret { m with starting := Function.update m.starting id false } (.start id) errs

/-- The first section of `stop`. -/
def stop (m : Manager) (cmd : Command) (id : ModuleID) (ids : List ModuleID)
    (errs : List Failure) : Manager :=
  if m.starting id then m
  else
    match m.current id with
    | none => m.goto cmd (.stopping ids errs)
    | some (rt, wait) => (m.markStopped rt).goto cmd (.stopDrain rt wait ids errs)

/-- A command that has stopped its modules returns; that of a lease gives up its control first. -/
def stopReturn (m : Manager) (cmd : Command) (errs : List Failure) : Manager :=
  match cmd with
  | .leaseClose k => (m.turn false).ret (.leaseClose k) errs
  | cmd => m.ret cmd errs

/-- The error with which a runtime was shut down. -/
def stopErr (m : Manager) (rt : ℕ) : List Failure := (m.heap[rt]?.bind Runtime.stopErr).toList

/-- The last section of `updateConfig`. -/
def updateReturn (m : Manager) (cmd : Command) (cfg : Option Config) : Manager :=
  ret { m with cfg := if m.closed then m.cfg else cfg, updateDone := false } cmd []

/-- The call of a publisher. -/
def write (m : Manager) (cmd : Command) (rt : ℕ) (name : String) (host : Host) : Manager :=
  ret { m with log := m.log ++ [.wrote cmd rt name] } cmd
    (match host.written with
      | .ok _ => []
      | .error err => [.rejected err])

/-- The command goes one step on. -/
def advance (m : Manager) (cmd : Command) (pc : Pc) (host : Host) : Manager :=
  match pc with
  | .entry => m.enter cmd
  | .startDrain id rt wait =>
      if m.drained rt wait then m.startAgain id rt else m.modify rt (·.enterShutdown)
  | .startCall id cfg => m.startModule id cfg host
  | .launching id rt streams => m.launchNext id rt streams
  | .publish id rt => m.publish id rt
  | .setError id err => m.setError id err
  | .startReturn id errs => m.startReturn id errs
  | .stopping [] errs => m.stopReturn cmd errs
  | .stopping (id :: ids) errs => m.stop cmd id ids errs
  | .stopDrain rt wait ids errs =>
      if m.drained rt wait then m.goto cmd (.stopping ids (errs ++ m.stopErr rt))
      else m.modify rt (·.enterShutdown)
  | .updateDrain [] cfg => m.updateReturn cmd cfg
  | .updateDrain ((rt, wait) :: rts) cfg =>
      if m.drained rt wait then m.goto cmd (.updateDrain rts cfg)
      else m.modify rt (·.enterShutdown)
  | .writing rt name => m.write cmd rt name host

/-- What the goroutines of the program do. -/
inductive Action
  | call (cmd : Command)
  | advance (host : Host)
  | shutdown (rt : ℕ) (closeErr : Option String)
  | cleanup (rt : ℕ)
  | exit (rt : ℕ) (err : Option String)
  | quit (rt : ℕ)
  | leave (rt : ℕ)

/-- One step.  A command that is called while another one holds `commandMu` waits. -/
def step (m : Manager) : Action → Manager
  | .call cmd => if m.command.isSome then m else m.goto cmd .entry
  | .advance host =>
      match m.command with
      | none => m
      | some (cmd, pc) => m.advance cmd pc host
  | .shutdown rt closeErr => m.modify rt (·.advanceShutdown closeErr)
  | .cleanup rt => m.modify rt (·.advanceCleanup)
  | .exit rt err => m.modify rt (·.exit err)
  | .quit rt => m.modify rt (·.quit)
  | .leave rt => m.modify rt (·.leave)

theorem step_advance {m : Manager} {cmd : Command} {pc : Pc} {host : Host}
    (hcmd : m.command = some (cmd, pc)) : m.step (.advance host) = m.advance cmd pc host := by
  rw [step, hcmd]

theorem step_advance_of_none {m : Manager} {host : Host} (hcmd : m.command = none) :
    m.step (.advance host) = m := by
  rw [step, hcmd]

end Manager
end ProcessBus.Supervisor
