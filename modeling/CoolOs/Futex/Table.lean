import CoolOs.Sched.AddressSpaces

namespace CoolOs.Futex

open Sched

/-!
# Futexes

One table of waiters for all tasks, keyed by virtual address.  `sys_futex_wait` is
two steps: up to the sleep, and from the end of the sleep to the return.  Between
them the task is in the loop that waits until it is not blocked.
-/

@[simp] abbrev maxFutexWaiters : Nat := 128
@[simp] abbrev maxFutexWakeCount : Nat := 64
@[simp] abbrev timeoutForever : UInt64 := 0xffffffffffffffff
@[simp] abbrev futexWaitMismatch : UInt64 := 1
@[simp] abbrev futexWaitTimeout : UInt64 := 2
@[simp] abbrev failed : UInt64 := 0xffffffffffffffff

structure FutexWaiter where
  addr : UInt64
  task : Nat
  deriving DecidableEq

/-- A task inside the sleep of `sys_futex_wait`. -/
structure Wait where
  addr : UInt64
  task : Nat
  deadline : Option UInt64
  deriving DecidableEq

/-- The tasks, the clock, the table, the tasks that sleep in a wait, and the wakes
that each of them has been given since its wait began. -/
structure Futexes where
  sched : Scheduler
  ticks : UInt64
  waiters : List FutexWaiter
  waiting : List Wait
  delivered : List Nat

variable (waiters : List FutexWaiter)

def registerWaiter (addr : UInt64) (task : Nat) : Bool × List FutexWaiter :=
  if waiters.any (fun waiter => waiter.addr == addr && waiter.task == task) then (true, waiters)
  else if waiters.length ≥ maxFutexWaiters then (false, waiters)
  else (true, waiters ++ [⟨addr, task⟩])

def unregisterWaiter (addr : UInt64) (task : Nat) : Bool × List FutexWaiter :=
  let left := waiters.filter (fun waiter => !(waiter.addr == addr && waiter.task == task))
  (waiters.length != left.length, left)

/-- Take the first `count` waiters of an address out of the table. -/
def wakeLoop (addr : UInt64) : Nat -> List FutexWaiter -> List Nat × List FutexWaiter
  | _, [] => ([], [])
  | count, waiter :: rest =>
    match count, waiter.addr == addr with
    | count + 1, true =>
      let (woken, left) := wakeLoop addr count rest
      (waiter.task :: woken, left)
    | count, _ =>
      let (woken, left) := wakeLoop addr count rest
      (woken, waiter :: left)

def wake (addr : UInt64) (count : Nat) : List Nat × List FutexWaiter :=
  if count = 0 then ([], waiters) else wakeLoop addr count waiters

def dropTaskWaiters (task : Nat) : List FutexWaiter :=
  waiters.filter (fun waiter => waiter.task != task)

def ticksForMillis (ms : UInt64) : UInt64 := (288 * ms + 999) / 1000

def futexDeadline (ticks timeoutMs : UInt64) : Option UInt64 :=
  if timeoutMs = timeoutForever then none
  else some (ticks + ticksForMillis (max timeoutMs 1))

def deadlineExpired (ticks : UInt64) (deadline : Option UInt64) : Bool :=
  deadline.any (fun deadline => decide (deadline <= ticks))

/-- The events of a run.  `wait` has the two values read at the address, `wake` whether
the address is a valid one.  The timer ticks, and calls of the scheduler happen. -/
inductive FutexEvent where
  | wait (addr expected timeoutMs : UInt64) (first second : Option UInt64)
  | resume
  | wake (addr : UInt64) (count : Nat) (flags : UInt64) (valid : Bool)
  | tick
  | sched (call : SchedCall)

/-- What an event lets the outside see: the tasks it wakes, and what a wait returns. -/
structure Outcome where
  woken : List Nat
  returned : Option UInt64

variable (futexes : Futexes)

namespace Futexes

/-- The current task is not inside the sleep of a wait. -/
def awake : Bool :=
  futexes.waiting.all (fun wait => wait.task != futexes.sched.current)

/-- `sys_futex_wait` up to the sleep. -/
def waitEnter (addr expected timeoutMs : UInt64)
    (first second : Option UInt64) : Option UInt64 × Futexes :=
  let task := futexes.sched.current
  match first with
  | none => (some failed, futexes)
  | some value =>
    if value ≠ expected then (some futexWaitMismatch, futexes)
    else if timeoutMs = 0 then (some futexWaitTimeout, futexes)
    else
      match registerWaiter futexes.waiters addr task with
      | (false, _) => (some failed, futexes)
      | (true, waiters) =>
        if second.getD failed ≠ expected then
          (some futexWaitMismatch,
            { futexes with waiters := (unregisterWaiter waiters addr task).2 })
        else
          let deadline := futexDeadline futexes.ticks timeoutMs
          (none, { futexes with
            sched := match deadline with
              | some wakeTick => futexes.sched.blockCurrentUntil wakeTick
              | none => futexes.sched.blockCurrent
            waiters := waiters
            waiting := futexes.waiting ++ [⟨addr, task, deadline⟩]
            delivered := futexes.delivered.filter (fun given => given != task) })

/-- The current task has a pending signal. -/
def pending (futexes : Futexes) : Bool :=
  futexes.sched.tasks[futexes.sched.current]?.any (fun task => task.pendingSignal.isSome)

/-- `sys_futex_wait` from the end of the sleep on. -/
def waitResume (wait : Wait) : UInt64 × Futexes :=
  let (stillWaiting, waiters) := unregisterWaiter futexes.waiters wait.addr wait.task
  let futexes := { futexes with
    waiters := waiters
    waiting := futexes.waiting.filter (fun other => other.task != wait.task) }
  if futexes.pending then (failed, futexes)
  else if stillWaiting && deadlineExpired futexes.ticks wait.deadline then
    (futexWaitTimeout, futexes)
  else (0, futexes)

/-- The wait the current task sleeps in, if the loop has come to its end. -/
def resumable : Option Wait :=
  if futexes.sched.statusOf futexes.sched.current = some .blocked ∧ futexes.pending = false then none
  else futexes.waiting.find? (fun wait => wait.task == futexes.sched.current)

/-- The arguments `sys_futex_wake` refuses. -/
def refusesWake (addr : UInt64) (count : Nat) (flags : UInt64) (valid : Bool) : Bool :=
  flags != 0 || decide (count > maxFutexWakeCount) || !valid || addr &&& 7 != 0

def sysFutexWake (addr : UInt64) (count : Nat) (flags : UInt64)
    (valid : Bool) : List Nat × Futexes :=
  if refusesWake addr count flags valid then ([], futexes)
  else
    let (woken, waiters) := wake futexes.waiters addr count
    (woken, { futexes with
      sched := futexes.sched.wakeTasks woken
      waiters := waiters
      delivered := futexes.delivered ++ woken })

/-- Whether an event can happen while the current task sleeps: interrupts can, calls
of the task cannot. -/
def isInterrupt : SchedCall -> Bool
  | .schedule _ _ => true
  | .unblock _ => true
  | _ => false

/-- A call of the scheduler sees the clock. -/
def timed : SchedCall -> SchedCall
  | .schedule currentRsp _ => .schedule currentRsp futexes.ticks
  | call => call

/-- A call of the scheduler.  The waiters of a task that ends are dropped. -/
def schedStep (call : SchedCall) : Futexes :=
  let sched := (futexes.timed call).perform futexes.sched
  match (futexes.timed call).ends futexes.sched with
  | none => { futexes with sched := sched }
  | some task =>
    { futexes with
      sched := sched
      waiters := dropTaskWaiters futexes.waiters task
      waiting := futexes.waiting.filter (fun wait => wait.task != task) }

def step : FutexEvent -> Outcome × Futexes
  | .wait addr expected timeoutMs first second =>
    if futexes.awake && (futexes.sched.statusOf futexes.sched.current).isSome then
      let (returned, after) := futexes.waitEnter addr expected timeoutMs first second
      (⟨[], returned⟩, after)
    else (⟨[], none⟩, futexes)
  | .resume =>
    match futexes.resumable with
    | none => (⟨[], none⟩, futexes)
    | some wait =>
      let (returned, after) := futexes.waitResume wait
      (⟨[], some returned⟩, after)
  | .wake addr count flags valid =>
    if futexes.awake then
      let (woken, after) := futexes.sysFutexWake addr count flags valid
      (⟨woken, none⟩, after)
    else (⟨[], none⟩, futexes)
  | .tick =>
    (⟨[], none⟩, if futexes.ticks < futexes.ticks + 1 then
      { futexes with ticks := futexes.ticks + 1 } else futexes)
  | .sched call =>
    if futexes.awake || isInterrupt call then (⟨[], none⟩, futexes.schedStep call)
    else (⟨[], none⟩, futexes)

/-- Any tasks, none of which waits. -/
def boot (sched : Scheduler) : Futexes where
  sched := sched
  ticks := 0
  waiters := []
  waiting := []
  delivered := []

def run (events : List FutexEvent) : Futexes :=
  events.foldl (fun futexes event => (futexes.step event).2) futexes

end Futexes

end CoolOs.Futex
