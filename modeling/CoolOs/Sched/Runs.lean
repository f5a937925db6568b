import CoolOs.Sched.Tasks
import CoolOs.Tables.Rows

namespace CoolOs.Sched

open Queues Tables

/-!
# Runs of the scheduler

The calls as one type and runs of them, and what every proof about them needs:
what waking does to a task, and which task is chosen next.
-/

variable {wakes : Wakes} {sched : Scheduler} {taskId : Nat}

/-- A call of the scheduler with everything it learns from elsewhere.  `loadFailed`
is a load that has created a PML4 and given it up again. -/
inductive SchedCall where
  | schedule (currentRsp : Nat) (now : UInt64)
  | blockCurrent
  | blockCurrentUntil (wakeTick : UInt64)
  | unblock (taskId : Nat)
  | exitCurrent (code : UInt64) (wakes : Wakes)
  | faultCurrent (code : UInt64) (wakes : Wakes)
  | killTask (taskId : Nat) (code : UInt64) (wakes : Wakes)
  | sendSignal (taskId : Nat) (signal : Signal) (wakes : Wakes)
  | forceReclaimTask (taskId : Nat) (code : UInt64) (wakes : Wakes)
  | waitpid (parent taskId : Nat)
  | reapAllExited (parent : Nat)
  | spawn (stackTop : Option Nat) (interactive : Credentials)
  | spawnElfProcess (stackTop : Option Nat) (interactive : Credentials) (pml4 : Nat)
      (inherits : Bool) (credentials : Option Credentials) (leaveBlocked : Bool)
  | loadFailed (pml4 : Nat)
  | spawnUserThread (stackTop : Option Nat) (interactive : Credentials)
      (stackBottom tlsBase : UInt64) (inherits : Bool)
  | sysExec (image : Nat)

namespace SchedCall

/-- What a call passes to `free_address_space`, in order, and the table after it. -/
def effect (sched : Scheduler) : SchedCall -> List Nat × Scheduler
  | schedule currentRsp now => ([], (sched.schedule currentRsp now).2.2)
  | blockCurrent => ([], sched.blockCurrent)
  | blockCurrentUntil wakeTick => ([], sched.blockCurrentUntil wakeTick)
  | unblock taskId => ([], sched.unblock taskId)
  | exitCurrent code wakes => ([], sched.exitCurrent code wakes)
  | faultCurrent code wakes => ([], sched.faultCurrent code wakes)
  | killTask taskId code wakes =>
    match sched.killTask taskId code wakes with
    | .error _ => ([], sched)
    | .ok after => ([], after)
  | sendSignal taskId signal wakes =>
    match sched.sendSignal taskId signal wakes with
    | .error _ => ([], sched)
    | .ok after => ([], after)
  | forceReclaimTask taskId code wakes =>
    match sched.forceReclaimTask taskId code wakes with
    | .error _ => ([], sched)
    | .ok outcome => outcome
  | waitpid parent taskId =>
    match sched.waitpid parent taskId with
    | .error _ => ([], sched)
    | .ok (_, outcome) => outcome
  | reapAllExited parent => (sched.reapAllExited parent).2
  | spawn stackTop interactive => ([], sched.spawn stackTop interactive)
  | spawnElfProcess stackTop interactive pml4 inherits credentials leaveBlocked =>
    (sched.spawnElfProcess stackTop interactive pml4 inherits credentials leaveBlocked).2
  | loadFailed pml4 => ([pml4], sched)
  | spawnUserThread stackTop interactive stackBottom tlsBase inherits =>
    ([], (sched.spawnUserThread stackTop interactive stackBottom tlsBase inherits).2)
  | sysExec image => sched.sysExec image

def perform (sched : Scheduler) (call : SchedCall) : Scheduler := (call.effect sched).2

def frees (sched : Scheduler) (call : SchedCall) : List Nat := (call.effect sched).1

end SchedCall

def runSched (start : Scheduler) (calls : List SchedCall) : Scheduler :=
  calls.foldl SchedCall.perform start

/-- Exited or reaped. -/
def Task.ended (task : Task) : Bool := task.status == .exited || task.status == .reaped

namespace Scheduler

@[simp] theorem modifyTask_self (sched : Scheduler) (taskId : Nat) (change : Task -> Task) :
    (sched.modifyTask taskId change).tasks[taskId]? = sched.tasks[taskId]?.map change := by
  simp [modifyTask]

theorem modifyTask_other (sched : Scheduler) {taskId other : Nat} (change : Task -> Task)
    (apart : taskId ≠ other) :
    (sched.modifyTask taskId change).tasks[other]? = sched.tasks[other]? := by
  simp [modifyTask, apart]

@[simp] theorem length_modifyTask (sched : Scheduler) (taskId : Nat) (change : Task -> Task) :
    (sched.modifyTask taskId change).tasks.length = sched.tasks.length := by
  simp [modifyTask]

@[simp] theorem current_modifyTask (sched : Scheduler) (taskId : Nat) (change : Task -> Task) :
    (sched.modifyTask taskId change).current = sched.current := rfl

end Scheduler

/-- All that waking does to a task. -/
def Task.Woken (before after : Task) : Prop :=
  after = before ∨
    before.status = .blocked ∧ after = { before with wakeTick := none, status := .ready }

theorem Task.Woken.refl (task : Task) : task.Woken task := .inl rfl

theorem Task.Woken.trans (first second third : Task) (start : first.Woken second)
    (rest : second.Woken third) : first.Woken third := by
  rcases start with rfl | ⟨blocked, rfl⟩
  · exact rest
  · rcases rest with rfl | ⟨again, _⟩
    · exact .inr ⟨blocked, rfl⟩
    · cases again

theorem Task.Woken.ended {before after : Task} (woken : before.Woken after)
    (ended : before.ended = true) : after = before := by
  rcases woken with same | ⟨blocked, _⟩
  · exact same
  · simp [Task.ended, blocked] at ended

namespace Scheduler

/-- Nothing happens but that tasks are woken. -/
structure Rouses (before after : Scheduler) : Prop where
  tasks : Evolves Task.Woken before.tasks after.tasks
  length : after.tasks.length = before.tasks.length
  current : after.current = before.current

variable {task : Task} {fuel start : Nat} {code : UInt64} {freed : List Nat}

theorem Rouses.refl (sched : Scheduler) : sched.Rouses sched := ⟨.refl .refl sched.tasks, rfl, rfl⟩

theorem Rouses.trans {first second third : Scheduler} (start : first.Rouses second)
    (rest : second.Rouses third) : first.Rouses third :=
  ⟨.trans .trans start.tasks rest.tasks, rest.length.trans start.length,
    rest.current.trans start.current⟩

theorem Rouses.ended {before after : Scheduler} (rouses : before.Rouses after) {taskId : Nat}
    (found : before.tasks[taskId]? = some task) (ended : task.ended = true) :
    after.tasks[taskId]? = some task := by
  rcases rouses.tasks taskId task found with ⟨next, later, woken⟩
  rw [later, woken.ended ended]

theorem unblock_rouses (sched : Scheduler) (taskId : Nat) :
    sched.Rouses (sched.unblock taskId) := by
  refine ⟨.modify .refl ?_, length_modifyTask .., rfl⟩
  intro task _
  by_cases blocked : task.status = .blocked
  · rw [if_pos blocked]
    exact .inr ⟨blocked, rfl⟩
  · rw [if_neg blocked]
    exact .refl task

theorem wakeTasks_rouses (taskIds : List Nat) (sched : Scheduler) :
    sched.Rouses (sched.wakeTasks taskIds) := by
  induction taskIds generalizing sched with
  | nil => exact .refl sched
  | cons taskId rest ih => exact (sched.unblock_rouses taskId).trans (ih (sched.unblock taskId))

theorem wakeWaitingParent_rouses (sched : Scheduler) (parent : Option Nat)
    (pollers : List Nat) : sched.Rouses (sched.wakeWaitingParent parent pollers) := by
  cases parent with
  | none => exact .refl sched
  | some parent =>
    exact (sched.unblock_rouses parent).trans (wakeTasks_rouses pollers (sched.unblock parent))

variable {after : Scheduler} {tasks : List Task}

theorem searchReady_some {next : Nat} (found : searchReady tasks fuel start = some next) :
    tasks[next]?.map Task.status = some .ready := by
  induction fuel generalizing start with
  | zero => cases found
  | succ fuel ih =>
    rw [searchReady] at found
    split at found
    · next ready =>
      cases found
      exact ready
    · exact ih found

theorem searchReady_none (missed : searchReady tasks fuel start = none) (offset : Nat)
    (near : offset < fuel) (inside : start < tasks.length) :
    tasks[(start + offset) % tasks.length]?.map Task.status ≠ some .ready := by
  induction fuel generalizing start offset with
  | zero => omega
  | succ fuel ih =>
    rw [searchReady] at missed
    split at missed
    · cases missed
    · next notReady =>
      cases offset with
      | zero => rwa [Nat.add_zero, Nat.mod_eq_of_lt inside]
      | succ offset =>
        have later := ih missed offset (by omega) (Nat.mod_lt _ (by omega))
        rwa [Nat.mod_add_mod, Nat.add_assoc, Nat.add_comm 1 offset] at later

/-- The search goes round the whole table. -/
theorem searchReady_all (inside : start < tasks.length)
    (missed : searchReady tasks tasks.length start = none) (member : task ∈ tasks) :
    task.status ≠ .ready := by
  rcases List.getElem?_of_mem member with ⟨index, found⟩
  have bound := (List.getElem?_eq_some_iff.mp found).1
  have reached : (start + (index + tasks.length - start) % tasks.length) % tasks.length = index := by
    rw [Nat.add_mod_mod, Nat.add_sub_cancel' (by omega), Nat.add_mod_right, Nat.mod_eq_of_lt bound]
  have notReady :=
    searchReady_none missed _ (Nat.mod_lt (index + tasks.length - start) (by omega)) inside
  rw [reached, found] at notReady
  exact fun ready => notReady (by simp [ready])

variable (sched)

/-- The next task is a ready one; only where there is none, it is the idle task. -/
theorem chooseNext_spec (tasks : sched.tasks ≠ []) :
    sched.tasks[sched.chooseNext]?.map Task.status = some .ready ∨
      sched.chooseNext = 0 ∧ ∀ task ∈ sched.tasks, task.status ≠ .ready := by
  have positive := List.length_pos_iff.mpr tasks
  unfold chooseNext
  cases search : searchReady sched.tasks sched.tasks.length
      ((sched.current + 1) % sched.tasks.length) with
  | some next => exact .inl (searchReady_some search)
  | none => exact .inr ⟨rfl, fun task => searchReady_all (Nat.mod_lt _ positive) search⟩

/-- The table with one more task. -/
def push (task : Task) : Scheduler :=
  { sched with tasks := sched.tasks ++ [task] }

theorem modifyTask_push (task : Task) (change : Task -> Task) :
    (sched.push task).modifyTask sched.tasks.length change = sched.push (change task) := by
  simp only [push, modifyTask, modify_middle]

theorem popTask_push (task : Task) : (sched.push task).popTask = sched := by
  simp [push, popTask]

theorem spawnContext_cases (stackTop : Option Nat)
    (interactive : Credentials) (pml4 : Option Nat) (tlsBase : UInt64) :
    sched.spawnContext stackTop interactive pml4 tlsBase = none ∨ ∃ fresh : Task,
      sched.spawnContext stackTop interactive pml4 tlsBase =
        some (sched.tasks.length, sched.push fresh) ∧
      fresh.status = .ready ∧ fresh.pml4 = pml4 := by
  cases stackTop with
  | none => exact .inl rfl
  | some stackTop => exact .inr ⟨_, rfl, rfl, rfl⟩

theorem spawn_cases (stackTop : Option Nat) (interactive : Credentials) :
    sched.spawn stackTop interactive = sched ∨ ∃ fresh : Task,
      sched.spawn stackTop interactive = sched.push fresh ∧
      fresh.status = .ready ∧ fresh.pml4 = none := by
  unfold spawn spawnWithPml4
  rcases spawnContext_cases sched stackTop interactive none 0 with
    failed | ⟨fresh, pushed, ready, space⟩
  · exact .inl (by rw [failed])
  · exact .inr ⟨fresh, by rw [pushed], ready, space⟩

/-- A spawned user task owns the address space; a failed spawn frees it. -/
theorem spawnUserWithFdsAndCredentials_cases (stackTop : Option Nat)
    (interactive : Credentials) (pml4 : Nat) (inherits : Bool) (credentials : Option Credentials) :
    sched.spawnUserWithFdsAndCredentials stackTop interactive pml4 inherits credentials =
        (false, [pml4], sched) ∨
      ∃ fresh : Task,
        sched.spawnUserWithFdsAndCredentials stackTop interactive pml4 inherits credentials =
          (true, [], sched.push fresh) ∧
        fresh.status = .ready ∧ fresh.pml4 = some pml4 ∧
        fresh.userStackBottom = some userStackBottom := by
  unfold spawnUserWithFdsAndCredentials
  split
  · exact .inl rfl
  · rcases spawnContext_cases sched stackTop interactive (some pml4) 0 with
      failed | ⟨fresh, pushed, ready, space⟩
    · exact .inl (by rw [failed])
    · rw [pushed]
      cases credentials <;> cases inherits <;>
        simp only [modifyTask_push, popTask_push, if_true, Bool.false_eq_true, if_false]
      · exact .inl trivial
      · exact .inr ⟨_, rfl, ready, space, rfl⟩
      · exact .inl trivial
      · exact .inr ⟨_, rfl, ready, space, rfl⟩

theorem spawnElfProcess_cases (stackTop : Option Nat) (interactive : Credentials) (pml4 : Nat)
    (inherits : Bool) (credentials : Option Credentials) (leaveBlocked : Bool) :
    sched.spawnElfProcess stackTop interactive pml4 inherits credentials leaveBlocked =
        (false, [pml4], sched) ∨
      ∃ fresh : Task,
        sched.spawnElfProcess stackTop interactive pml4 inherits credentials leaveBlocked =
          (true, [], sched.push fresh) ∧
        fresh.ended = false ∧ fresh.pml4 = some pml4 ∧
        fresh.userStackBottom = some userStackBottom := by
  unfold spawnElfProcess
  rcases spawnUserWithFdsAndCredentials_cases sched stackTop interactive pml4 inherits
      credentials with failed | ⟨fresh, pushed, ready, space⟩
  · exact .inl (by rw [failed])
  · rw [pushed]
    cases leaveBlocked <;> simp only [unblock, modifyTask_push, Bool.false_eq_true, if_false]
    · exact .inr ⟨_, rfl, rfl, space⟩
    · exact .inr ⟨_, rfl, rfl, space⟩

/-- A spawned thread shares the address space of the task that is running. -/
theorem spawnUserThread_cases (stackTop : Option Nat)
    (interactive : Credentials) (stackBottom tlsBase : UInt64) (inherits : Bool) :
    (sched.spawnUserThread stackTop interactive stackBottom tlsBase inherits).2 = sched ∨
      ∃ (fresh : Task) (parent : Task), ∃ pml4,
        sched.tasks[sched.current]? = some parent ∧ parent.pml4 = some pml4 ∧
        (sched.spawnUserThread stackTop interactive stackBottom tlsBase inherits).2 =
          sched.push fresh ∧ fresh.status = .ready ∧ fresh.pml4 = some pml4 := by
  unfold spawnUserThread
  split
  · exact .inl rfl
  · split
    · exact .inl rfl
    · next parent running =>
      split
      · exact .inl rfl
      · next pml4 shared =>
        rcases spawnContext_cases sched stackTop interactive (some pml4) tlsBase with
          failed | ⟨fresh, pushed, ready, space⟩
        · exact .inl (by rw [failed])
        · rw [pushed]
          cases inherits <;>
            simp only [modifyTask_push, popTask_push, if_true, Bool.false_eq_true, if_false]
          · exact .inl trivial
          · exact .inr ⟨_, parent, pml4, running, shared, rfl, ready, space⟩

theorem stillLive_false {sched : Scheduler} {taskId pml4 : Nat}
    (unshared : sched.stillLive taskId pml4 = false) {other : Nat} (apart : other ≠ taskId)
    (found : sched.tasks[other]? = some task) (has : task.pml4 = some pml4) :
    task.status = .reaped := by
  rw [stillLive, List.any_eq_false] at unshared
  have listed := unshared (task, other) (List.mem_zipIdx_iff_getElem?.mpr found)
  by_contra counts
  exact listed (by simp [apart, has, counts])

/-- Taking the PML4 changes nothing else; what is taken no other task that counts has. -/
theorem takeReapPml4_cases (taskId : Nat) :
    sched.takeReapPml4 taskId = (none, sched) ∨ ∃ task : Task, ∃ pml4,
        sched.tasks[taskId]? = some task ∧ task.pml4 = some pml4 ∧
        sched.takeReapPml4 taskId =
          (some pml4, sched.modifyTask taskId (fun task => { task with pml4 := none })) ∧
        ∀ other task, other ≠ taskId -> sched.tasks[other]? = some task ->
          task.pml4 = some pml4 -> task.status = .reaped := by
  unfold takeReapPml4
  cases found : sched.tasks[taskId]? with
  | none => exact .inl rfl
  | some task =>
    cases space : task.pml4 with
    | none => exact .inl (by simp [space])
    | some pml4 =>
      simp only [Option.bind_some, space]
      split
      · refine .inl (Prod.ext rfl ?_)
        simp only [modifyTask, List.modify_modify_eq]
        congr
        apply List.ext_getElem?
        intro other
        rw [List.getElem?_modify]
        by_cases here : taskId = other
        · subst here
          simp [found, <- space]
        · simp [here]
      · next unshared =>
        refine .inr ⟨task, pml4, rfl, space, rfl, ?_⟩
        intro other sharing apart present has
        exact stillLive_false (Bool.eq_false_iff.mpr unshared) apart
          ((modifyTask_other _ _ apart.symm).trans present) has

variable {sched}

/-! ## Ending tasks -/

theorem ended_of_checked (notExited : task.status ≠ .exited) (notReaped : task.status ≠ .reaped) :
    task.ended = false := by
  simp [Task.ended, notExited, notReaped]

theorem not_reaped_of_alive (alive : task.ended = false) : task.status ≠ .reaped := by
  intro reaped
  simp [Task.ended, reaped] at alive

/-- What a kill that is not refused finds and does. -/
theorem killTask_cases (killed : sched.killTask taskId code wakes = .ok after) :
    ∃ task : Task, sched.tasks[taskId]? = some task ∧ task.ended = false ∧
      after = ((sched.modifyTask taskId (markExited code)).wakeWaitingParent task.parent
        wakes.pollers).wakeTasks wakes.cleanup := by
  unfold killTask at killed
  iterate 3
    split at killed
    · cases killed
  next task found =>
  split at killed
  · cases killed
  split at killed
  · cases killed
  next notExited =>
  split at killed
  · cases killed
  next notReaped =>
  cases killed
  exact ⟨task, found, ended_of_checked notExited notReaped, rfl⟩

/-- What a signal that is not refused does: it ends the task like an exit or a kill, or
it is delivered. -/
theorem sendSignal_cases {signal : Signal}
    (sent : sched.sendSignal taskId signal wakes = .ok after) :
    (∃ code, signal.exitCode = some code ∧
      (taskId = sched.current ∧ after = sched.exitCurrent code wakes ∨
        sched.killTask taskId code wakes = .ok after)) ∨
    signal.exitCode = none ∧ ∃ task : Task, sched.tasks[taskId]? = some task ∧
      task.ended = false ∧ after = sched.modifyTask taskId (deliver signal) := by
  unfold sendSignal at sent
  split at sent
  · cases sent
  split at sent
  next code exits =>
    refine .inl ⟨code, exits, ?_⟩
    split at sent
    next current =>
      cases sent
      exact .inl ⟨current, rfl⟩
    next =>
      cases killed : sched.killTask taskId code wakes with
      | error reason =>
        rw [killed] at sent
        cases sent
      | ok reached =>
        rw [killed] at sent
        cases sent
        exact .inr rfl
  next plain =>
    split at sent
    · cases sent
    next task found =>
    split at sent
    · cases sent
    split at sent
    · cases sent
    next notExited =>
    split at sent
    · cases sent
    next notReaped =>
    cases sent
    exact .inr ⟨plain, task, found, ended_of_checked notExited notReaped, rfl⟩

/-- The task that `force_reclaim_task` leaves. -/
def reclaimed (code : UInt64) (task : Task) : Task :=
  releaseTaskStack { task with status := .reaped, exitCode := some code, wakeTick := none }

theorem forceReclaimTask_cases
    (done : sched.forceReclaimTask taskId code wakes = .ok (freed, after)) :
    taskId ≠ 0 ∧ ∃ task : Task, sched.tasks[taskId]? = some task ∧ task.ended = false ∧
      freed = ((sched.modifyTask taskId (reclaimed code)).takeReapPml4 taskId).1.toList ∧
      after = (((sched.modifyTask taskId (reclaimed code)).takeReapPml4 taskId).2.wakeWaitingParent
        task.parent wakes.pollers).wakeTasks wakes.cleanup := by
  unfold forceReclaimTask at done
  split at done
  · cases done
  next apart =>
  split at done
  · cases done
  split at done
  · cases done
  next task found =>
  split at done
  · cases done
  next notExited =>
  split at done
  · cases done
  next notReaped =>
  cases done
  exact ⟨apart, task, found, ended_of_checked notExited notReaped, rfl, rfl⟩

theorem waitpid_cases {parent taskId : Nat}
    (waited : sched.waitpid parent taskId = .ok (code, freed, after)) :
    taskId ≠ 0 ∧ ∃ task : Task, sched.tasks[taskId]? = some task ∧
      task.status = .exited ∧ freed = (sched.reapTask taskId).1.toList ∧
      after = (sched.reapTask taskId).2 := by
  unfold waitpid at waited
  split at waited
  · cases waited
  next apart =>
  split at waited
  · cases waited
  next task found =>
  split at waited
  · cases waited
  split at waited
  next exited =>
    cases waited
    exact ⟨apart, task, found, exited, rfl, rfl⟩
  · cases waited
  · cases waited

end Scheduler

open List Option

/-!
## What the calls are made of

Most calls look at a task before they change it.  They are made of calm steps, which leave
to every task its address space and leave alone the tasks that have ended, and of reaps.
-/

/-- The task keeps its address space.  Where it has ended it stays as it is, and else it
is not reaped. -/
structure Task.Calm (before after : Task) : Prop where
  space : after.pml4 = before.pml4
  ended : before.ended = true -> after.status = before.status ∧ after.exitCode = before.exitCode
  alive : before.ended = false -> after.status ≠ .reaped

namespace Task.Calm

variable {after before : Task}

theorem refl (task : Task) : task.Calm task :=
  ⟨rfl, fun _ => ⟨rfl, rfl⟩, fun alive reaped => by simp [Task.ended, reaped] at alive⟩

theorem of_alive (alive : before.ended = false) (space : after.pml4 = before.pml4)
    (counts : after.status ≠ .reaped) : before.Calm after :=
  ⟨space, fun ended => (by rw [alive] at ended; cases ended), fun _ => counts⟩

theorem trans (first second third : Task) (start : first.Calm second)
    (rest : second.Calm third) : first.Calm third := by
  refine ⟨rest.space.trans start.space, fun ended => ?_, fun alive => ?_⟩
  · have middle := start.ended ended
    have last := rest.ended (by simpa [Task.ended, middle.1] using ended)
    exact ⟨last.1.trans middle.1, last.2.trans middle.2⟩
  · cases still : second.ended with
    | false => exact rest.alive still
    | true => exact (rest.ended still).1 ▸ start.alive alive

theorem reaped_iff (calm : before.Calm after) :
    after.status = .reaped <-> before.status = .reaped := by
  cases ended : before.ended with
  | true => rw [(calm.ended ended).1]
  | false => exact iff_of_false (calm.alive ended) (Scheduler.not_reaped_of_alive ended)

theorem alive_of (calm : before.Calm after) (alive : after.ended = false) :
    before.ended = false := by
  by_contra ended
  have same := (calm.ended (by simpa using ended)).1
  simp_all [Task.ended]

end Task.Calm

theorem Task.Woken.calm {before after : Task} (woken : before.Woken after) : before.Calm after := by
  rcases woken with rfl | ⟨blocked, rfl⟩
  · exact .refl _
  · exact .of_alive (by simp [Task.ended, blocked]) rfl (by simp)

namespace Scheduler

/-- The tasks change calmly, and new ones have no address space. -/
structure Calm (before after : Scheduler) : Prop where
  tasks : Evolves Task.Calm before.tasks after.tasks
  fresh : forall (taskId : Nat) (task : Task), before.tasks.length <= taskId ->
    after.tasks[taskId]? = some task -> task.status ≠ .reaped ∧ task.pml4 = none
  length : before.tasks.length <= after.tasks.length
  current : after.current = before.current

namespace Calm

variable {after : Scheduler}

variable {change : Task -> Task}

theorem of_tasks (tasks : Evolves Task.Calm sched.tasks after.tasks)
    (length : after.tasks.length = sched.tasks.length) (current : after.current = sched.current) :
    sched.Calm after := by
  refine ⟨tasks, fun taskId task outside found => ?_, Nat.le_of_eq length.symm, current⟩
  have inside := (List.getElem?_eq_some_iff.mp found).1
  omega

theorem refl (sched : Scheduler) : sched.Calm sched := .of_tasks (.refl .refl sched.tasks) rfl rfl

theorem modify (here : ∀ task, sched.tasks[taskId]? = some task -> task.Calm (change task)) :
    sched.Calm (sched.modifyTask taskId change) :=
  .of_tasks (.modify .refl here) (length_modifyTask ..) rfl

/-- Changing a task that has been found alive. -/
theorem modify_alive {task : Task} (found : sched.tasks[taskId]? = some task)
    (alive : task.ended = false) (space : (change task).pml4 = task.pml4)
    (counts : (change task).status ≠ .reaped) : sched.Calm (sched.modifyTask taskId change) := by
  refine .modify fun same here => ?_
  cases found.symm.trans here
  exact .of_alive alive space counts

/-- What a task of the new table was. -/
theorem back (calm : sched.Calm after) {next : Task} (found : after.tasks[taskId]? = some next) :
    (∃ task, sched.tasks[taskId]? = some task ∧ task.Calm next) ∨
      sched.tasks.length <= taskId ∧ next.status ≠ .reaped ∧ next.pml4 = none := by
  by_cases inside : taskId < sched.tasks.length
  · rcases calm.tasks taskId _ (getElem?_eq_getElem inside) with ⟨same, later, step⟩
    cases found.symm.trans later
    exact .inl ⟨_, getElem?_eq_getElem inside, step⟩
  · exact .inr ⟨Nat.le_of_not_lt inside, calm.fresh taskId next (Nat.le_of_not_lt inside) found⟩

theorem pml4 (calm : sched.Calm after) (taskId : Nat) :
    after.tasks[taskId]?.bind Task.pml4 = sched.tasks[taskId]?.bind Task.pml4 := by
  cases later : after.tasks[taskId]? with
  | none =>
    have outside := Nat.le_trans calm.length (getElem?_eq_none_iff.mp later)
    rw [getElem?_eq_none_iff.mpr outside]
  | some next =>
    rcases calm.back later with ⟨task, found, step⟩ | ⟨outside, _, none⟩
    · rw [found, bind_some, bind_some, step.space]
    · rw [getElem?_eq_none_iff.mpr outside, bind_some, none]
      rfl

end Calm

variable {task : Task}

theorem Rouses.calm {before after : Scheduler} (rouses : before.Rouses after) : before.Calm after :=
  .of_tasks (rouses.tasks.mono fun _ _ => Task.Woken.calm) rouses.length rouses.current

variable {after : Scheduler}

theorem wakeAt_calm (now : UInt64) (task : Task) : task.Calm (wakeAt now task) := by
  unfold wakeAt
  split
  · next blocked _ =>
    split
    · exact .of_alive (by simp [Task.ended, blocked]) rfl (by simp)
    · exact .refl task
  · exact .refl task

theorem deliverPending_calm (index : Nat) (task : Task) :
    task.Calm (deliverPending index task) := by
  have same : task.Calm { task with pendingSignal := none } := by
    exact ⟨rfl, (Task.Calm.refl task).ended, (Task.Calm.refl task).alive⟩
  unfold deliverPending
  split
  · exact .refl task
  · next signal _ =>
    cases signal <;> dsimp only
    · exact same
    · exact same
    · split
      · next blocked => exact .of_alive (by simp [Task.ended, blocked]) rfl (by simp)
      · exact ⟨rfl, same.ended, same.alive⟩
    · split
      · next apart =>
        exact .of_alive (by simp [Task.ended, apart.2.1, apart.2.2]) rfl (by simp)
      · exact same
    · split
      · next stopped => exact .of_alive (by simp [Task.ended, stopped]) rfl (by simp)
      · exact same

@[simp] theorem length_settle (sched : Scheduler) (currentRsp : Nat) (now : UInt64) :
    ((sched.saveCurrent currentRsp).settle now).tasks.length = sched.tasks.length := by
  simp [settle, saveCurrent]

/-- Saving the current task and settling the others. -/
theorem settle_calm (sched : Scheduler) (currentRsp : Nat) (now : UInt64) :
    sched.Calm ((sched.saveCurrent currentRsp).settle now) := by
  have saved : Evolves Task.Calm sched.tasks (sched.saveCurrent currentRsp).tasks := by
    refine .modify .refl fun task _ => ?_
    by_cases running : task.status = .running
    · exact .of_alive (by simp [Task.ended, running]) rfl (by simp [running])
    · rw [if_neg running]
      exact ⟨rfl, (Task.Calm.refl task).ended, (Task.Calm.refl task).alive⟩
  refine .of_tasks (saved.trans .trans (.mapIdx (fun index task => ?_) _)) (length_settle ..) rfl
  exact (wakeAt_calm now task).trans _ _ _ (deliverPending_calm index _)

theorem deliver_calm (signal : Signal) (found : sched.tasks[taskId]? = some task)
    (alive : task.ended = false) : sched.Calm (sched.modifyTask taskId (deliver signal)) := by
  refine .modify_alive found alive ?_ ?_
  · unfold deliver
    cases signal <;> dsimp only <;> split <;> rfl
  · have counts := not_reaped_of_alive alive
    unfold deliver
    cases signal <;> dsimp only <;> (try split) <;> simp [counts]

theorem push_calm (sched : Scheduler) {fresh : Task} (counts : fresh.status ≠ .reaped)
    (space : fresh.pml4 = none) : sched.Calm (sched.push fresh) := by
  refine ⟨.append .refl _ _, fun taskId task outside found => ?_, by simp [push], rfl⟩
  rw [push, getElem?_append_right outside] at found
  rw [mem_singleton.mp (mem_of_getElem? found)]
  exact ⟨counts, space⟩

/-- Calm steps and reaps, with the address spaces that are freed. -/
inductive Reaps : Scheduler -> List Nat -> Scheduler -> Prop
  | calm {sched after : Scheduler} : sched.Calm after -> Reaps sched [] after
  | reap {sched : Scheduler} {taskId : Nat} {task : Task} {change : Task -> Task} :
    taskId ≠ 0 -> sched.tasks[taskId]? = some task -> task.status ≠ .reaped ->
    (forall task, (change task).status = .reaped ∧ (change task).pml4 = task.pml4) ->
    (task.ended = true -> (change task).exitCode = task.exitCode) ->
    Reaps sched ((sched.modifyTask taskId change).takeReapPml4 taskId).1.toList
      ((sched.modifyTask taskId change).takeReapPml4 taskId).2
  | trans {first second third : Scheduler} {freed more : List Nat} :
    Reaps first freed second -> Reaps second more third -> Reaps first (freed ++ more) third

theorem shouldReap_spec {parent index : Nat} (should : sched.shouldReap parent index = true) :
    index ≠ 0 ∧ ∃ task, sched.tasks[index]? = some task ∧ task.status = .exited := by
  unfold shouldReap at should
  rw [Bool.and_eq_true] at should
  refine ⟨by simpa using should.1, ?_⟩
  cases found : sched.tasks[index]? with
  | none => simp [found] at should
  | some task => exact ⟨task, rfl, by simp_all⟩

theorem reapTask_reaps (apart : taskId ≠ 0) (found : sched.tasks[taskId]? = some task)
    (exited : task.status = .exited) :
    Reaps sched (sched.reapTask taskId).1.toList (sched.reapTask taskId).2 :=
  .reap apart found (by simp [exited]) (fun _ => ⟨rfl, rfl⟩) (fun _ => rfl)

theorem reapLoop_reaps (parent : Nat) (indices : List Nat) {start : Scheduler} (count : Nat)
    {freed : List Nat} (reaps : Reaps start freed sched) :
    Reaps start (reapLoop parent indices (count, freed, sched)).2.1
      (reapLoop parent indices (count, freed, sched)).2.2 := by
  induction indices generalizing count freed sched with
  | nil => exact reaps
  | cons index rest ih =>
    rw [reapLoop]
    split
    · next should =>
      rcases shouldReap_spec should with ⟨apart, task, found, exited⟩
      exact ih _ (reaps.trans (reapTask_reaps apart found exited))
    · exact ih _ reaps

end Scheduler

open Scheduler

/-- The calls that look at a task before they change it, or start one without an address
space. -/
def SchedCall.looks (sched : Scheduler) : SchedCall -> Bool
  | unblock _ => true
  | killTask _ _ _ => true
  | sendSignal taskId signal _ =>
    taskId == 0 || taskId != sched.current || signal.exitCode.isNone
  | forceReclaimTask _ _ _ => true
  | waitpid _ _ => true
  | reapAllExited _ => true
  | spawn _ _ => true
  | _ => false

namespace SchedCall

theorem killTask_calm {code : UInt64} {after : Scheduler}
    (killed : sched.killTask taskId code wakes = .ok after) : Reaps sched [] after := by
  rcases killTask_cases killed with ⟨task, found, alive, rfl⟩
  refine .trans (.calm (.modify_alive found alive ?_ ?_))
    (.calm ((wakeWaitingParent_rouses _ _ _).trans (wakeTasks_rouses _ _)).calm)
  · rfl
  · simp [markExited]

theorem effect_reaps {call : SchedCall} (looks : call.looks sched = true) :
    Reaps sched (call.frees sched) (call.perform sched) := by
  cases call with
  | unblock taskId => exact .calm (unblock_rouses sched taskId).calm
  | killTask taskId code wakes =>
    simp only [frees, perform, effect]
    split
    · exact .calm (.refl sched)
    · next killed => exact killTask_calm killed
  | sendSignal taskId signal wakes =>
    simp only [frees, perform, effect]
    split
    · exact .calm (.refl sched)
    · next after sent =>
      rcases sendSignal_cases sent with
        ⟨code, exits, ⟨current, rfl⟩ | killed⟩ | ⟨_, task, found, alive, rfl⟩
      · have idle : taskId = 0 := by simpa [SchedCall.looks, current, exits] using looks
        simp [Scheduler.sendSignal, idle] at sent
      · exact killTask_calm killed
      · exact .calm (deliver_calm signal found alive)
  | forceReclaimTask taskId code wakes =>
    simp only [frees, perform, effect]
    split
    · exact .calm (.refl sched)
    · next outcome reclaimed =>
      rcases forceReclaimTask_cases reclaimed with ⟨apart, task, found, alive, freed, after⟩
      rw [freed, after, <- append_nil (toList _)]
      refine .trans (.reap apart found (not_reaped_of_alive alive) ?_ ?_)
        (.calm ((wakeWaitingParent_rouses _ _ _).trans (wakeTasks_rouses _ _)).calm)
      · exact fun _ => ⟨rfl, rfl⟩
      · simp [alive]
  | waitpid parent taskId =>
    simp only [frees, perform, effect]
    split
    · exact .calm (.refl sched)
    · next outcome waited =>
      rcases waitpid_cases waited with ⟨apart, task, found, exited, freed, after⟩
      rw [freed, after]
      exact reapTask_reaps apart found exited
  | reapAllExited parent => exact reapLoop_reaps parent _ 0 (.calm (.refl sched))
  | spawn stackTop interactive =>
    simp only [frees, perform, effect]
    rcases spawn_cases sched stackTop interactive with same | ⟨fresh, pushed, ready, space⟩
    · rw [same]
      exact .calm (.refl sched)
    · rw [pushed]
      exact .calm (push_calm sched (by simp [ready]) space)
  | _ => cases looks

/-- The only signal that does not look is one that ends the current task. -/
theorem sendSignal_exits {signal : Signal}
    (looks : ¬ (sendSignal taskId signal wakes).looks sched = true) (wakes : Wakes) :
    ∃ code, signal.exitCode = some code ∧ taskId = sched.current ∧
      sched.sendSignal taskId signal wakes = .ok (sched.exitCurrent code wakes) := by
  simp only [SchedCall.looks, Bool.or_eq_true, beq_iff_eq, bne_iff_ne, not_or, ne_eq,
    Classical.not_not, isNone_iff_eq_none] at looks
  rcases looks with ⟨⟨idle, rfl⟩, ends⟩
  rcases ne_none_iff_exists'.mp ends with ⟨code, exits⟩
  refine ⟨code, exits, rfl, ?_⟩
  rw [Scheduler.sendSignal, if_neg idle, exits]
  exact if_pos rfl

end SchedCall

end CoolOs.Sched
