import Mathlib.Data.List.Basic

namespace CoolOs.Sched

/-!
# Tasks and the scheduler

The table of tasks, the round-robin choice of the next one and the small state
changes of blocking and waking.  A frame of a page-table root is a number, and
what the scheduler learns elsewhere is a parameter: the tick count, whether an
allocation succeeds, which tasks the clean-up of a dying task wakes.
-/

inductive TaskStatus where
  | ready
  | running
  | blocked
  | stopped
  | exited
  | reaped
  deriving DecidableEq

/-- The signals; `cont` is `Signal::Continue`. -/
inductive Signal where
  | term
  | int
  | user1
  | stop
  | cont
  deriving DecidableEq

def Signal.exitCode : Signal -> Option UInt64
  | .term => some 143
  | .int => some 130
  | _ => none

structure Credentials where
  uid : UInt32
  gid : UInt32
  caps : UInt32
  deriving DecidableEq

@[simp] abbrev rootUid : UInt32 := 0
@[simp] abbrev capAdmin : UInt32 := 256
@[simp] abbrev maxActiveTasks : Nat := 64
@[simp] abbrev userStackBottom : UInt64 := 0x7fff000f0000

def canAdmin (credentials : Credentials) : Bool :=
  credentials.uid == rootUid || credentials.caps &&& capAdmin != 0

structure Task where
  stackPtr : Nat
  syscallStackTop : Nat
  status : TaskStatus
  exitCode : Option UInt64
  parent : Option Nat
  processGroup : Nat
  controllingTty : Option UInt64
  pendingSignal : Option Signal
  wakeTick : Option UInt64
  credentials : Credentials
  threadGroup : Nat
  userStackBottom : Option UInt64
  tlsBase : UInt64
  pml4 : Option Nat
  deriving DecidableEq

structure Scheduler where
  tasks : List Task
  current : Nat
  deriving DecidableEq

variable (sched : Scheduler)

namespace Scheduler

/-- Change one task, if it exists. -/
def modifyTask (taskId : Nat) (change : Task -> Task) : Scheduler :=
  { sched with tasks := sched.tasks.modify taskId change }

def statusOf (taskId : Nat) : Option TaskStatus :=
  sched.tasks[taskId]?.map Task.status

/-- The scheduler with its idle task, as `add_idle` leaves it. -/
def idle (credentials : Credentials) : Scheduler where
  tasks := [{
    stackPtr := 0
    syscallStackTop := 0
    status := .running
    exitCode := none
    parent := none
    processGroup := 0
    controllingTty := none
    pendingSignal := none
    wakeTick := none
    credentials := credentials
    threadGroup := 0
    userStackBottom := none
    tlsBase := 0
    pml4 := none }]
  current := 0

/-- The tasks but the idle one that still count. -/
def activeTaskCount : Nat :=
  (sched.tasks.drop 1).countP (fun task => decide (task.status ≠ .reaped))

/-- A blocked task whose time has come. -/
def wakeAt (now : UInt64) (task : Task) : Task :=
  match task.status, task.wakeTick with
  | .blocked, some wake =>
    if wake <= now then { task with wakeTick := none, status := .ready } else task
  | _, _ => task

/-- Take the pending signal of a task. -/
def deliverPending (index : Nat) (task : Task) : Task :=
  match task.pendingSignal with
  | none => task
  | some signal =>
    let task := { task with pendingSignal := none }
    match signal with
    | .user1 =>
      let task := { task with wakeTick := none }
      if task.status = .blocked then { task with status := .ready } else task
    | .stop =>
      if index ≠ 0 ∧ task.status ≠ .exited ∧ task.status ≠ .reaped then
        { task with status := .stopped, wakeTick := none }
      else task
    | .cont => if task.status = .stopped then { task with status := .ready } else task
    | .term => task
    | .int => task

/-- Look for a ready task from an index on, around the table. -/
def searchReady (tasks : List Task) : Nat -> Nat -> Option Nat
  | 0, _ => none
  | fuel + 1, next =>
    if tasks[next]?.map Task.status = some .ready then some next
    else searchReady tasks fuel ((next + 1) % tasks.length)

/-- What the processor is loaded with when a task is activated.  Without a stack of
its own the task uses the default privilege stack, and without a PML4 the boot one. -/
structure Switch where
  syscallStackTop : Nat
  privilegeStackTop : Option Nat
  tlsBase : UInt64
  pml4 : Option Nat
  deriving DecidableEq

def Switch.to (task : Task) : Switch where
  syscallStackTop := task.syscallStackTop
  privilegeStackTop := if task.syscallStackTop = 0 then none else some task.syscallStackTop
  tlsBase := task.tlsBase
  pml4 := task.pml4

/-- Save the running task. -/
def saveCurrent (currentRsp : Nat) : Scheduler :=
  sched.modifyTask sched.current (fun task =>
    { task with
      stackPtr := currentRsp
      status := if task.status = .running then .ready else task.status })

/-- The tasks after the ticks and the pending signals. -/
def settle (now : UInt64) : Scheduler :=
  { sched with
    tasks := sched.tasks.mapIdx (fun index task => deliverPending index (wakeAt now task)) }

/-- The task to run next: the next ready one, or else the idle task. -/
def chooseNext : Nat :=
  (searchReady sched.tasks sched.tasks.length ((sched.current + 1) % sched.tasks.length)).getD 0

def activate (next : Nat) : Scheduler :=
  { sched.modifyTask next (fun task => { task with status := .running }) with current := next }

/-- One tick: the stack pointer to continue with, what is loaded, and the table. -/
def schedule (currentRsp : Nat) (now : UInt64) : Nat × Option Switch × Scheduler :=
  if sched.tasks.isEmpty then (currentRsp, none, sched)
  else
    let sched := (sched.saveCurrent currentRsp).settle now
    let next := sched.chooseNext
    let sched := sched.activate next
    match sched.tasks[next]? with
    | none => (currentRsp, none, sched)
    | some task => (task.stackPtr, some (Switch.to task), sched)

def blockCurrent : Scheduler :=
  sched.modifyTask sched.current (fun task => { task with status := .blocked })

def blockCurrentUntil (wakeTick : UInt64) : Scheduler :=
  sched.modifyTask sched.current
    (fun task => { task with status := .blocked, wakeTick := some wakeTick })

def unblock (taskId : Nat) : Scheduler :=
  sched.modifyTask taskId (fun task =>
    if task.status = .blocked then { task with wakeTick := none, status := .ready } else task)

/-- `evented::wake_tasks`. -/
def wakeTasks (taskIds : List Nat) : Scheduler :=
  taskIds.foldl unblock sched

/-- Wake the parent of a task and the tasks that poll for its end. -/
def wakeWaitingParent (parent : Option Nat) (pollers : List Nat) : Scheduler :=
  match parent with
  | none => sched
  | some parent => (sched.unblock parent).wakeTasks pollers

end Scheduler

/-!
## The calls of the scheduler

Spawning, exit, signals, reaping and the replacement of an address space by
`sys_exec`.  Next to the new table a call gives the page-table roots it passes
to `free_address_space`.
-/

inductive KillError where
  | cannotKillIdle
  | cannotKillCurrent
  | invalidTask
  | alreadyExited
  | alreadyReaped
  | notChild
  | permissionDenied
  deriving DecidableEq

inductive WaitError where
  | invalidTask
  | notChild
  | notExited
  | alreadyReaped
  deriving DecidableEq

inductive SignalError where
  | invalidTask
  | invalidGroup
  | cannotSignalIdle
  | permissionDenied
  | alreadyExited
  | alreadyReaped
  deriving DecidableEq

/-- Which tasks the end of a task wakes: those the clean-up of its resources finds
and those that poll for its end. -/
structure Wakes where
  cleanup : List Nat
  pollers : List Nat

variable (sched : Scheduler) (stackTop : Option Nat) (interactive : Credentials) (taskId : Nat)
  (code : UInt64)

namespace Scheduler

/-- Push a new task.  `stackTop` is the top of its kernel stack, if there is memory
for one, and `interactive` the credentials without a parent. -/
def spawnContext (pml4 : Option Nat) (tlsBase : UInt64) : Option (Nat × Scheduler) :=
  match stackTop with
  | none => none
  | some stackTop =>
    let parent := if sched.tasks.isEmpty then none else some sched.current
    let parentTask := parent.bind (fun id => sched.tasks[id]?)
    let taskId := sched.tasks.length
    some (taskId, { sched with
      tasks := sched.tasks ++ [{
        stackPtr := stackTop - 160
        syscallStackTop := stackTop
        status := .ready
        exitCode := none
        parent := parent
        processGroup := (parentTask.map Task.processGroup).getD taskId
        controllingTty := parentTask.bind Task.controllingTty
        pendingSignal := none
        wakeTick := none
        credentials := (parentTask.map Task.credentials).getD interactive
        threadGroup := taskId
        userStackBottom := none
        tlsBase := tlsBase
        pml4 := pml4 }] })

def spawnWithPml4 (pml4 : Option Nat) : Scheduler :=
  match sched.spawnContext stackTop interactive pml4 0 with
  | none => sched
  | some (_, sched) => sched

def spawn : Scheduler :=
  sched.spawnWithPml4 stackTop interactive none

def popTask : Scheduler :=
  { sched with tasks := sched.tasks.dropLast }

/-- Spawn a ring-3 task with an address space of its own; `inherits` tells whether
the descriptors could be inherited.  The address space is freed on failure. -/
def spawnUserWithFdsAndCredentials (pml4 : Nat) (inherits : Bool)
    (credentials : Option Credentials) : Bool × List Nat × Scheduler :=
  if sched.activeTaskCount ≥ maxActiveTasks then (false, [pml4], sched)
  else
    match sched.spawnContext stackTop interactive (some pml4) 0 with
    | none => (false, [pml4], sched)
    | some (taskId, sched) =>
      let sched := match credentials with
        | none => sched
        | some credentials =>
          sched.modifyTask taskId (fun task => { task with credentials := credentials })
      let sched := sched.modifyTask taskId
        (fun task => { task with userStackBottom := some userStackBottom })
      if inherits then (true, [], sched)
      else (false, [pml4], sched.popTask)

/-- Spawn the image the loader has built: the task is left blocked, and unblocked
once it is recorded unless the caller asks to leave it so. -/
def spawnElfProcess (pml4 : Nat) (inherits : Bool) (credentials : Option Credentials)
    (leaveBlocked : Bool) : Bool × List Nat × Scheduler :=
  let before := sched.tasks.length
  match sched.spawnUserWithFdsAndCredentials stackTop interactive pml4 inherits credentials with
  | (false, freed, sched) => (false, freed, sched)
  | (true, freed, sched) =>
    let sched := sched.modifyTask before (fun task => { task with status := .blocked })
    (true, freed, if leaveBlocked then sched else sched.unblock before)

/-- Drop a task's kernel stack. -/
def releaseTaskStack (task : Task) : Task :=
  { task with stackPtr := 0, syscallStackTop := 0 }

def spawnUserThread (stackBottom tlsBase : UInt64) (inherits : Bool) : Option Nat × Scheduler :=
  if sched.activeTaskCount ≥ maxActiveTasks then (none, sched)
  else
    match sched.tasks[sched.current]? with
    | none => (none, sched)
    | some parentTask =>
      match parentTask.pml4 with
      | none => (none, sched)
      | some pml4 =>
        match sched.spawnContext stackTop interactive (some pml4) tlsBase with
        | none => (none, sched)
        | some (taskId, sched) =>
          let sched := sched.modifyTask taskId (fun task =>
            { task with
              threadGroup := parentTask.threadGroup
              userStackBottom := some stackBottom })
          if inherits then (some taskId, sched)
          else (none, (sched.modifyTask taskId releaseTaskStack).popTask)

/-- Mark a task as exited, as `exit_current` and `kill_task` do. -/
def markExited (task : Task) : Task :=
  { task with status := .exited, exitCode := some code, wakeTick := none }

def exitCurrent (wakes : Wakes) : Scheduler :=
  let taskId := sched.current
  let parent := sched.tasks[taskId]?.bind Task.parent
  let sched := sched.wakeTasks wakes.cleanup
  let sched := sched.modifyTask taskId (markExited code)
  sched.wakeWaitingParent parent wakes.pollers

def canControlTask (actor target : Nat) : Bool :=
  actor == target ||
    match sched.tasks[actor]?, sched.tasks[target]? with
    | some actorTask, some targetTask =>
      canAdmin actorTask.credentials || targetTask.parent == some actor ||
        actorTask.credentials.uid == targetTask.credentials.uid
    | _, _ => false

def killTask (wakes : Wakes) : Except KillError Scheduler :=
  if taskId = 0 then .error .cannotKillIdle
  else if taskId = sched.current then .error .cannotKillCurrent
  else
    match sched.tasks[taskId]? with
    | none => .error .invalidTask
    | some task =>
      if sched.canControlTask sched.current taskId = false then .error .permissionDenied
      else if task.status = .exited then .error .alreadyExited
      else if task.status = .reaped then .error .alreadyReaped
      else
        let sched := sched.modifyTask taskId (markExited code)
        let sched := sched.wakeWaitingParent task.parent wakes.pollers
        .ok (sched.wakeTasks wakes.cleanup)

/-- The current task has faulted; its wake tick stays as it is. -/
def faultCurrent (wakes : Wakes) : Scheduler :=
  let taskId := sched.current
  let parent := sched.tasks[taskId]?.bind Task.parent
  let sched := sched.modifyTask taskId
    (fun task => { task with status := .exited, exitCode := some code })
  let sched := sched.wakeWaitingParent parent wakes.pollers
  sched.wakeTasks wakes.cleanup

def signalErrorFromKill : KillError -> SignalError
  | .cannotKillIdle => .cannotSignalIdle
  | .invalidTask => .invalidTask
  | .alreadyExited => .alreadyExited
  | .alreadyReaped => .alreadyReaped
  | .permissionDenied => .permissionDenied
  | .cannotKillCurrent => .invalidTask
  | .notChild => .invalidTask

/-- What a signal without an exit code does to a task that has not exited. -/
def deliver (signal : Signal) (task : Task) : Task :=
  match signal with
  | .user1 =>
    let task := { task with pendingSignal := some .user1 }
    if task.status = .blocked then { task with wakeTick := none, status := .ready } else task
  | .stop => { task with pendingSignal := none, wakeTick := none, status := .stopped }
  | .cont =>
    let task := { task with pendingSignal := none }
    if task.status = .stopped then { task with status := .ready } else task
  | .term => task
  | .int => task

def sendSignal (signal : Signal) (wakes : Wakes) : Except SignalError Scheduler :=
  if taskId = 0 then .error .cannotSignalIdle
  else
    match signal.exitCode with
    | some code =>
      if taskId = sched.current then .ok (sched.exitCurrent code wakes)
      else (sched.killTask taskId code wakes).mapError signalErrorFromKill
    | none =>
      match sched.tasks[taskId]? with
      | none => .error .invalidTask
      | some task =>
        if sched.canControlTask sched.current taskId = false then .error .permissionDenied
        else if task.status = .exited then .error .alreadyExited
        else if task.status = .reaped then .error .alreadyReaped
        else .ok (sched.modifyTask taskId (deliver signal))

/-- Whether a task other than the given one still has the address space. -/
def stillLive (taskId pml4 : Nat) : Bool :=
  sched.tasks.zipIdx.any (fun entry =>
    decide (entry.2 ≠ taskId) && decide (entry.1.pml4 = some pml4) &&
      decide (entry.1.status ≠ .reaped))

/-- Take the PML4 of a task that is being reaped, unless another task still uses it. -/
def takeReapPml4 : Option Nat × Scheduler :=
  match sched.tasks[taskId]?.bind Task.pml4 with
  | none => (none, sched)
  | some pml4 =>
    let taken := sched.modifyTask taskId (fun task => { task with pml4 := none })
    if taken.stillLive taskId pml4 then
      (none, taken.modifyTask taskId (fun task => { task with pml4 := some pml4 }))
    else (some pml4, taken)

def forceReclaimTask (wakes : Wakes) :
    Except KillError (List Nat × Scheduler) :=
  if taskId = 0 then .error .cannotKillIdle
  else if taskId = sched.current then .error .cannotKillCurrent
  else
    match sched.tasks[taskId]? with
    | none => .error .invalidTask
    | some task =>
      if task.status = .exited then .error .alreadyExited
      else if task.status = .reaped then .error .alreadyReaped
      else
        let sched := sched.modifyTask taskId (fun task =>
          releaseTaskStack
            { task with status := .reaped, exitCode := some code, wakeTick := none })
        let (freed, sched) := sched.takeReapPml4 taskId
        let sched := sched.wakeWaitingParent task.parent wakes.pollers
        .ok (freed.toList, sched.wakeTasks wakes.cleanup)

/-- Turn an exited task into a reaped one. -/
def reapTask : Option Nat × Scheduler :=
  (sched.modifyTask taskId
    (fun task => releaseTaskStack { task with status := .reaped })).takeReapPml4 taskId

def waitpid (parent taskId : Nat) : Except WaitError (UInt64 × List Nat × Scheduler) :=
  if taskId = 0 then .error .invalidTask
  else
    match sched.tasks[taskId]? with
    | none => .error .invalidTask
    | some task =>
      if task.parent ≠ some parent ∧ parent ≠ 0 then .error .notChild
      else
        match task.status with
        | .exited =>
          let (freed, sched) := sched.reapTask taskId
          .ok (task.exitCode.getD 0, freed.toList, sched)
        | .reaped => .error .alreadyReaped
        | _ => .error .notExited

def shouldReap (parent index : Nat) : Bool :=
  index != 0 &&
    match sched.tasks[index]? with
    | none => false
    | some task => task.status == .exited && (task.parent == some parent || parent == 0)

/-- The loop of `reap_all_exited` over the indices that are left. -/
def reapLoop (parent : Nat) : List Nat -> Nat × List Nat × Scheduler -> Nat × List Nat × Scheduler
  | [], state => state
  | index :: rest, (count, freed, sched) =>
    if sched.shouldReap parent index then
      let (taken, sched) := sched.reapTask index
      reapLoop parent rest (count + 1, freed ++ taken.toList, sched)
    else reapLoop parent rest (count, freed, sched)

def reapAllExited (parent : Nat) : Nat × List Nat × Scheduler :=
  reapLoop parent (List.range sched.tasks.length) (0, [], sched)

/-- `sys_exec` once the image is loaded: the old address space is freed. -/
def sysExec (image : Nat) : List Nat × Scheduler :=
  let old := sched.tasks[sched.current]?.bind Task.pml4
  (old.toList, sched.modifyTask sched.current
    (fun task => { task with pml4 := some image, tlsBase := 0 }))

end Scheduler

end CoolOs.Sched
