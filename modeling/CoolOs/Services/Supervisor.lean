import CoolOs.Files.Footprints

namespace CoolOs.Services

open Actions Files Text CoolFs Action

/-!
# The service supervisor

The supervisor keeps one record per service.  Stopping a service stops what depends on
it, and starting one starts what it depends on.  After each change the supervisor writes
its configuration and its history.
-/

inductive ServiceState where
  | stopped
  | running
  | failed
  deriving DecidableEq

def ServiceState.label : ServiceState -> Text
  | .stopped => "stopped".toList
  | .running => "running".toList
  | .failed => "failed".toList

structure Service where
  name : Text
  restart : Text
  dependencies : List Text
  state : ServiceState
  restarts : Nat
  failures : Nat
  lastFailureTick : Nat
  nextRestartTick : Nat
  lastTick : Nat
  loops : Nat
  reapCount : Nat
  lastReason : Text

/-- The kernel's volume, the services, whether the settings let the writeback barrier
flush, and the journal the barrier writes at each call. -/
structure Machine where
  kernel : Kernel
  services : List Service
  flushes : Bool
  journal : Nat -> Text

/-- A call of the kernel. -/
def onKernel {Failure Value : Type} (action : Action Kernel Failure Value) :
    Action Machine Failure Value :=
  Action.within Machine.kernel (fun kernel machine => { machine with kernel := kernel }) action

def decimal (value : Nat) : Text := Nat.toDigits 10 value

variable (services : List Service)

def position (name : Text) : Option Nat :=
  services.findIdx? (fun service => eqIgnoreAsciiCase service.name name)

/-- The dependencies are started first.  They go at most as deep as there are services. -/
def startRecursive (now : Nat) (reason : Text) : Nat -> Text -> List Service -> Bool × List Service
  | 0, _, services => (false, services)
  | fuel + 1, name, services =>
    match position services name with
    | none => (false, services)
    | some index =>
      let dependencies := (services[index]?.map Service.dependencies).getD []
      let (ready, services) := dependencies.foldl (fun (ready, services) dependency =>
        if ready then startRecursive now reason fuel dependency services
        else (ready, services)) (true, services)
      if ready then
        (true, services.modify index (fun service =>
          { service with
            state := .running
            lastTick := now
            nextRestartTick := 0
            lastReason := reason }))
      else (false, services)

/-- A running service with a dependency that is stopped. -/
def orphaned (states : List Service) (service : Service) : Bool :=
  service.state == .running && service.dependencies.any (fun dependency =>
    states.any (fun other => eqIgnoreAsciiCase other.name dependency && other.state == .stopped))

/-- Passes over the services until nothing changes.  Every other pass stops a service, so
there are at most as many as services, and the last one. -/
def stopDependents (now : Nat) : Nat -> List Service -> List Service
  | 0, services => services
  | fuel + 1, services =>
    if services.any (orphaned services) then
      stopDependents now fuel (services.map (fun service =>
        if orphaned services service then
          { service with
            state := .stopped
            lastTick := now
            nextRestartTick := 0
            lastReason := "dependency-stopped".toList }
        else service))
    else services

def stopService (now : Nat) (name : Text) (services : List Service) : Bool × List Service :=
  match position services name with
  | none => (false, services)
  | some index =>
    let services := services.modify index (fun service =>
      { service with
        state := .stopped
        lastTick := now
        nextRestartTick := 0
        lastReason := "manual-stop".toList })
    (true, stopDependents now (services.length + 1) services)

def configPath : Text := "/CONFIG/SERVICES.CFG".toList
def historyPath : Text := "/LOGS/SERVICES.TXT".toList
def configDir : Text := "/CONFIG".toList
def logDir : Text := "/LOGS".toList

def depsLabel (dependencies : List Text) : Text :=
  if dependencies.isEmpty then "none".toList
  else (dependencies.intersperse [',']).flatten

def serializeConfig : Text :=
  "coolOS service config\n# name state restart deps\n".toList ++ services.flatMap (fun service =>
      service.name ++ " state=".toList ++ service.state.label ++ " restart=".toList ++
        service.restart ++ " deps=".toList ++ depsLabel service.dependencies ++ ['\n'])

def dependenciesReady (service : Service) : Bool :=
  service.dependencies.all (fun dependency =>
    services.any (fun other => eqIgnoreAsciiCase other.name dependency && other.state == .running))

def healthSummary (now : Nat) : Text :=
  let count (holds : Service -> Bool) : Text := decimal (services.countP holds)
  "services total=".toList ++ decimal services.length ++
    " running=".toList ++ count (fun service => service.state == .running) ++
    " stopped=".toList ++ count (fun service => service.state == .stopped) ++
    " failed=".toList ++ count (fun service => service.state == .failed) ++
    " degraded=".toList ++ count (fun service =>
      service.state != .running || !dependenciesReady services service) ++
    " backoff=".toList ++ count (fun service =>
      service.state == .failed && decide (service.nextRestartTick > now))

def serializeHistory (now : Nat) (reason : Text) : Text :=
  "coolOS service supervisor\nreason=".toList ++ reason ++ "\ntick=".toList ++ decimal now ++
    ['\n'] ++ healthSummary services now ++ "\nconfig=".toList ++ configPath ++
    "\nhistory=".toList ++ historyPath ++ ['\n'] ++
    services.flatMap (fun service =>
      service.name ++ " state=".toList ++ service.state.label ++ " restart=".toList ++
        service.restart ++ " deps=".toList ++ depsLabel service.dependencies ++
        " failures=".toList ++ decimal service.failures ++
        " restarts=".toList ++ decimal service.restarts ++
        " reaped=".toList ++ decimal service.reapCount ++
        " loops=".toList ++ decimal service.loops ++
        " last_tick=".toList ++ decimal service.lastTick ++
        " last_failure=".toList ++ decimal service.lastFailureTick ++
        " next_restart=".toList ++ decimal service.nextRestartTick ++
        " reason=".toList ++ service.lastReason ++ ['\n'])

variable {Failure : Type}

/-- A directory that should be there; what the call gives is not looked at. -/
def ensureDir (path : Text) : Action Kernel Failure Unit := do
  let _ <- Action.attempt (vfsKernelCreateDir path)
  return ()

def writeSupervisorFiles (config history : Text) : Action Kernel Failure Unit := do
  ensureDir configDir
  ensureDir logDir
  let _ <- Action.attempt (vfsKernelSafeWriteFile configPath (encode config))
  let _ <- Action.attempt (vfsKernelSafeWriteFile historyPath (encode history))
  return ()

def mutateServices (reason : Text) (change : Nat -> List Service -> Bool × List Service) :
    Action Machine Failure Bool := do
  let now <- onKernel currentTicks
  let services <- observe Machine.services
  let (ok, services) := change now services
  Action.modify (fun machine => { machine with services := services })
  if ok then
    onKernel (writeSupervisorFiles (serializeConfig services)
      (serializeHistory services now reason))
    return ok
  else return ok

def start (name : Text) : Action Machine Failure Bool :=
  mutateServices "manual-start".toList (fun now services =>
    startRecursive now "manual-start".toList services.length name services)

def stop (name : Text) : Action Machine Failure Bool :=
  mutateServices "manual-stop".toList (fun now => stopService now name)

def journalPath : Text := "/LOGS/FSJOURNAL.TXT".toList

/-- The volume's cache is written back too, which no path shows. -/
def flushJournal (text : Text) : Action Kernel FsError Unit := do
  ensureDir logDir
  match <- Action.attempt (vfsKernelCreateFile journalPath) with
  | .ok _ => vfsKernelWriteFile journalPath (encode text)
  | .error .alreadyExists => vfsKernelWriteFile journalPath (encode text)
  | .error err => Action.fail err

/-- What the barrier gives is not looked at. -/
def barrier : Action Machine Failure Unit := do
  if <- observe Machine.flushes then
    let text <- observe (fun machine => machine.journal machine.kernel.clock)
    let _ <- Action.attempt (onKernel (flushJournal text))
    return ()
  else return ()

end CoolOs.Services
