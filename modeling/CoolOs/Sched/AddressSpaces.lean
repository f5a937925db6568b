import CoolOs.Sched.Lifecycle
import Mathlib.Data.Finset.Insert
import Mathlib.Data.Finset.SDiff

namespace CoolOs.Sched

open Scheduler Tables List Option

/-!
# The lifetime of address spaces

Beside the table stands the set of the page-table roots that have been created and
not freed since.  An address space belongs to the tasks that have its root and are
not reaped; it may be freed when there is none of them left, and only once.
-/

variable {sched : Scheduler} {taskId : Nat} {live : Finset Nat} {call : SchedCall}

/-- The root a call has the loader create. -/
def SchedCall.creates : SchedCall -> Option Nat
  | spawnElfProcess _ _ pml4 _ _ _ => some pml4
  | loadFailed pml4 => some pml4
  | sysExec image => some image
  | _ => none

/-- The call that has a root created gives it up, gives it to a new task or replaces one. -/
theorem SchedCall.effect_creates {pml4 : Nat} (creates : call.creates = some pml4) :
    call.effect sched = ([pml4], sched) ∨
      (∃ fresh : Task, call.effect sched = ([], sched.push fresh) ∧
        fresh.ended = false ∧ fresh.pml4 = some pml4) ∨ call = .sysExec pml4 := by
  cases call with
  | spawnElfProcess stackTop interactive image inherits credentials leaveBlocked =>
    cases creates
    rcases spawnElfProcess_cases sched stackTop interactive pml4 inherits credentials
        leaveBlocked with failed | ⟨fresh, pushed, alive, space, _⟩
    · exact .inl (by rw [effect, failed])
    · exact .inr (.inl ⟨fresh, by rw [effect, pushed], alive, space⟩)
  | loadFailed image =>
    cases creates
    exact .inl rfl
  | sysExec image =>
    cases creates
    exact .inr (.inr rfl)
  | _ => cases creates

/-- The table and the roots that exist. -/
structure Spaces where
  sched : Scheduler
  live : Finset Nat

namespace Spaces

def boot (credentials : Credentials) : Spaces := ⟨.idle credentials, ∅⟩

/-- The frame allocator hands out no frame that is in use. -/
def fails (spaces : Spaces) (call : SchedCall) : Bool :=
  call.creates.any (fun frame => decide (frame ∈ spaces.live))

/-- The roots that exist while a call frees: those from before and the one it creates. -/
def loaded (spaces : Spaces) (call : SchedCall) : Finset Nat :=
  match call.creates with
  | none => spaces.live
  | some frame => insert frame spaces.live

/-- One call, with what it frees. -/
def step (spaces : Spaces) (call : SchedCall) : List Nat × Spaces :=
  if spaces.fails call then ([], spaces)
  else
    (call.frees spaces.sched,
      ⟨call.perform spaces.sched, spaces.loaded call \ (call.frees spaces.sched).toFinset⟩)

def run (spaces : Spaces) (calls : List SchedCall) : Spaces :=
  calls.foldl (fun spaces call => (spaces.step call).2) spaces

/-- What a call frees exists, is freed once, and belongs to no task that is not
reaped when it is freed. -/
structure FreesUnused (spaces : Spaces) (call : SchedCall) : Prop where
  once : (spaces.step call).1.Nodup
  created : ∀ pml4 ∈ (spaces.step call).1, pml4 ∈ spaces.loaded call
  unused : ∀ pml4 ∈ (spaces.step call).1,
    ∀ task ∈ (spaces.step call).2.sched.tasks,
      task.pml4 = some pml4 -> task.status = .reaped

end Spaces

/-- A task that is not reaped has a root that exists, and the idle task is never
reaped. -/
structure Task.Owns (live : Finset Nat) (taskId : Nat) (task : Task) : Prop where
  space : task.status ≠ .reaped -> forall pml4, task.pml4 = some pml4 -> pml4 ∈ live
  idle : taskId = 0 -> task.status ≠ .reaped

def Owned (live : Finset Nat) (sched : Scheduler) : Prop :=
  Everywhere (Task.Owns live) sched.tasks

variable {after before : Task}

/-- A change that keeps the root and neither reaps nor brings back. -/
theorem Task.Owns.keep (owns : before.Owns live taskId) (space : after.pml4 = before.pml4)
    (status : after.status = .reaped <-> before.status = .reaped) : after.Owns live taskId :=
  ⟨fun counts pml4 has => owns.space (mt status.mpr counts) pml4 (space ▸ has),
    fun first => mt status.mp (owns.idle first)⟩

/-- A change of a task whose root exists to one that is not reaped. -/
theorem Task.Owns.revive (exist : ∀ pml4, before.pml4 = some pml4 -> pml4 ∈ live)
    (space : after.pml4 = before.pml4) (status : after.status ≠ .reaped) : after.Owns live taskId :=
  ⟨fun _ pml4 has => exist pml4 (space ▸ has), fun _ => status⟩

namespace Owned

variable (owned : Owned live sched)
include owned

theorem exist {task : Task} (found : sched.tasks[taskId]? = some task)
    (counts : task.status ≠ .reaped) : ∀ pml4, task.pml4 = some pml4 -> pml4 ∈ live :=
  (owned taskId task found).space counts

theorem mono {more : Finset Nat} (subset : live ⊆ more) :
    Owned more sched := fun taskId task found =>
  ⟨fun counts pml4 has => subset ((owned taskId task found).space counts pml4 has),
    (owned taskId task found).idle⟩

theorem calm {after : Scheduler} (calm : sched.Calm after) : Owned live after := by
  intro taskId next later
  rcases calm.back later with ⟨task, found, step⟩ | ⟨_, counts, none⟩
  · exact (owned taskId task found).keep step.space step.reaped_iff
  · exact ⟨fun _ pml4 has => (by cases none.symm.trans has), fun _ => counts⟩

theorem schedule (currentRsp : Nat) (now : UInt64) :
    Owned live (sched.schedule currentRsp now).2.2 := by
  by_cases empty : sched.tasks = []
  · simpa [Scheduler.schedule, empty] using owned
  rw [schedule_after empty]
  have settled := owned.calm (settle_calm sched currentRsp now)
  generalize (sched.saveCurrent currentRsp).settle now = middle at settled
  refine .modify settled fun task found owns => ?_
  have counts : task.status ≠ .reaped := by
    have filled : middle.tasks ≠ [] := by
      intro none
      rw [none] at found
      cases found
    rcases chooseNext_spec middle filled with ready | ⟨zero, _⟩
    · rw [found] at ready
      rw [some.inj ready]
      decide
    · exact owns.idle zero
  exact .revive (owns.space counts) rfl (by simp)

theorem push {fresh : Task} (counts : fresh.status ≠ .reaped)
    (exist : ∀ pml4, fresh.pml4 = some pml4 -> pml4 ∈ live) : Owned live (sched.push fresh) :=
  .append owned ⟨fun _ => exist, fun _ => counts⟩

end Owned

/-- What has been freed existed, was freed once, and the tasks own the rest. -/
structure Ledger (live : Finset Nat) (freed : List Nat) (after : Scheduler) : Prop where
  owned : Owned (live \ freed.toFinset) after
  once : freed.Nodup
  created : ∀ pml4 ∈ freed, pml4 ∈ live

namespace Ledger

variable {freed : List Nat} {pml4 : Nat} {task : Task}

theorem none_freed (owned : Owned live sched) : Ledger live [] sched :=
  ⟨by simpa using owned, nodup_nil, by simp⟩

/-- What is freed belongs to no task that counts. -/
theorem unused (ledger : Ledger live freed sched) (member : pml4 ∈ freed)
    (listed : task ∈ sched.tasks) (has : task.pml4 = some pml4) : task.status = .reaped := by
  by_contra counts
  rcases getElem?_of_mem listed with ⟨taskId, found⟩
  have exist := ledger.owned.exist found counts pml4 has
  rw [Finset.mem_sdiff, List.mem_toFinset] at exist
  exact exist.2 member

/-- A task that counts is reaped, and its root is freed if nobody else has it. -/
theorem reap (ledger : Ledger live freed sched) {change : Task -> Task} (apart : taskId ≠ 0)
    (found : sched.tasks[taskId]? = some task) (counts : task.status ≠ .reaped)
    (reaps : ∀ task, (change task).status = .reaped ∧ (change task).pml4 = task.pml4) :
    Ledger live (freed ++ ((sched.modifyTask taskId change).takeReapPml4 taskId).1.toList)
      ((sched.modifyTask taskId change).takeReapPml4 taskId).2 := by
  have reaped : Owned (live \ freed.toFinset) (sched.modifyTask taskId change) :=
    .modify ledger.owned fun task _ _ =>
      ⟨fun still => absurd (reaps task).1 still, fun first => absurd first apart⟩
  rcases takeReapPml4_cases (sched.modifyTask taskId change) taskId with
    same | ⟨ended, pml4, foundEnded, has, taken, unshared⟩
  · rw [same]
    simpa using ⟨reaped, ledger.once, ledger.created⟩
  · rw [taken]
    rw [modifyTask_self, found] at foundEnded
    cases foundEnded
    have exist := ledger.owned.exist found counts pml4 ((reaps task).2 ▸ has)
    rw [Finset.mem_sdiff, List.mem_toFinset] at exist
    refine ⟨?_, ?_, ?_⟩
    · intro other next present
      by_cases here : taskId = other
      · subst here
        rw [modifyTask_self, modifyTask_self, found] at present
        cases present
        exact ⟨fun still => absurd (reaps task).1 still, fun first => absurd first apart⟩
      · rw [modifyTask_other _ _ here] at present
        refine ⟨fun still pml4' has' => ?_, (reaped other next present).idle⟩
        have rest := (reaped other next present).space still pml4' has'
        have different : pml4' ≠ pml4 := by
          rintro rfl
          exact still (unshared other next (Ne.symm here) present has')
        rw [Finset.mem_sdiff, List.mem_toFinset] at rest ⊢
        simp [rest.1, rest.2, different]
    · exact nodup_append.mpr ⟨ledger.once, nodup_singleton pml4, by
        rintro first member _ last rfl
        cases mem_singleton.mp last
        exact exist.2 member⟩
    · intro pml4' member
      rcases mem_append.mp member with member | last
      · exact ledger.created pml4' member
      · cases mem_singleton.mp last
        exact exist.1

/-- Calls that look at a task first. -/
theorem reaps {before : Scheduler} {more : List Nat} (ledger : Ledger live freed before)
    (reaps : Reaps before more sched) : Ledger live (freed ++ more) sched := by
  induction reaps generalizing freed with
  | calm calm =>
    rw [append_nil]
    exact ⟨ledger.owned.calm calm, ledger.once, ledger.created⟩
  | reap apart found counts reaps _ => exact ledger.reap apart found counts reaps
  | trans _ _ first second =>
    rw [<- append_assoc]
    exact second (first ledger)

/-- A root that was created and is given up at once. -/
theorem given_up (owned : Owned live sched) (fresh : pml4 ∉ live) :
    Ledger (insert pml4 live) [pml4] sched := by
  refine ⟨owned.mono fun other member => ?_, nodup_singleton pml4, by simp⟩
  have different : other ≠ pml4 := fun same => fresh (same ▸ member)
  simp [member, different]

end Ledger

/-- The root of the current task, if it has one, exists. -/
def currentExists (live : Finset Nat) (sched : Scheduler) : Bool :=
  (sched.tasks[sched.current]?.bind Task.pml4).all (fun pml4 => decide (pml4 ∈ live))

namespace Owned

variable (owned : Owned live sched)
include owned

/-- Marking the current task, if its root exists. -/
theorem mark {change : Task -> Task} (exist : currentExists live sched = true)
    (space : ∀ task, (change task).pml4 = task.pml4)
    (status : ∀ task, (change task).status ≠ .reaped) :
    Owned live (sched.modifyTask sched.current change) := by
  refine .modify owned fun task found _ => .revive ?_ (space task) (status task)
  intro pml4 has
  simpa [currentExists, found, has] using exist

theorem exitCurrent (code : UInt64) (wakes : Wakes)
    (exist : currentExists live sched = true) : Owned live (sched.exitCurrent code wakes) := by
  have woken := wakeTasks_rouses wakes.cleanup sched
  have still : currentExists live (sched.wakeTasks wakes.cleanup) = true := by
    rwa [currentExists, woken.current, woken.calm.pml4]
  refine .calm ?_ (wakeWaitingParent_rouses _ _ wakes.pollers).calm
  rw [<- woken.current]
  exact (owned.calm woken.calm).mark still (fun _ => rfl) (fun _ => by simp [markExited])

theorem faultCurrent (code : UInt64) (wakes : Wakes) (exist : currentExists live sched = true) :
    Owned live (sched.faultCurrent code wakes) := by
  refine .calm (owned.mark exist ?_ ?_)
    ((wakeWaitingParent_rouses _ _ wakes.pollers).trans (wakeTasks_rouses wakes.cleanup _)).calm
  · exact fun _ => rfl
  · exact fun _ => by simp

/-- The current task gets a new root, and the old one has no other user. -/
theorem sysExec {image : Nat} (fresh : image ∉ live) (exist : currentExists live sched = true)
    (unshared : (sched.tasks[sched.current]?.bind Task.pml4).all
      (fun pml4 => !sched.stillLive sched.current pml4) = true) :
    Ledger (insert image live) (sched.sysExec image).1 (sched.sysExec image).2 := by
  unfold Scheduler.sysExec
  cases running : sched.tasks[sched.current]? with
  | none =>
    refine .none_freed (.modify (owned.mono (Finset.subset_insert image live)) ?_)
    intro task found
    rw [running] at found
    cases found
  | some task =>
    have exec : Owned (insert image live) (sched.modifyTask sched.current
        (fun task => { task with pml4 := some image, tlsBase := 0 })) := by
      refine .modify (owned.mono (Finset.subset_insert image live)) fun _ _ owns => ?_
      exact ⟨fun _ pml4 has => by cases has; simp, owns.idle⟩
    cases had : task.pml4 with
    | none => simpa [had] using Ledger.none_freed exec
    | some old =>
      simp only [currentExists, running, had, bind_some, all_some,
        decide_eq_true_eq, Bool.not_eq_true'] at exist unshared
      simp only [bind_some, had, toList_some]
      refine ⟨?_, nodup_singleton old, by simp [exist]⟩
      intro taskId next found
      refine ⟨fun counts pml4 has => ?_, (exec taskId next found).idle⟩
      have present := (exec taskId next found).space counts pml4 has
      have different : pml4 ≠ old := by
        rintro rfl
        by_cases here : sched.current = taskId
        · subst here
          rw [modifyTask_self, running] at found
          cases found
          cases has
          exact fresh exist
        · rw [modifyTask_other _ _ here] at found
          exact counts (stillLive_false unshared (Ne.symm here) found has)
      simpa [different] using present

end Owned

/-- Whether a call that acts for the current task finds its root in existence, and
`sys_exec` replaces a root that no other task uses. -/
def Spaces.orderly (spaces : Spaces) : SchedCall -> Bool
  | .blockCurrent => currentExists spaces.live spaces.sched
  | .blockCurrentUntil _ => currentExists spaces.live spaces.sched
  | .exitCurrent _ _ => currentExists spaces.live spaces.sched
  | .faultCurrent _ _ => currentExists spaces.live spaces.sched
  | .sendSignal taskId signal _ =>
    taskId != spaces.sched.current || signal.exitCode.isNone ||
      currentExists spaces.live spaces.sched
  | .spawnUserThread _ _ _ _ _ => currentExists spaces.live spaces.sched
  | .sysExec _ =>
    currentExists spaces.live spaces.sched &&
      (spaces.sched.tasks[spaces.sched.current]?.bind Task.pml4).all
        (fun pml4 => !spaces.sched.stillLive spaces.sched.current pml4)
  | _ => true

/-- One orderly call keeps the ledger. -/
theorem SchedCall.effect_ledger {spaces : Spaces} (owned : Owned spaces.live spaces.sched)
    (orderly : spaces.orderly call = true) (loads : spaces.fails call = false) :
    Ledger (spaces.loaded call) (call.frees spaces.sched) (call.perform spaces.sched) := by
  rcases spaces with ⟨sched, live⟩
  cases made : call.creates with
  | some pml4 =>
    have unused : pml4 ∉ live := by simpa [Spaces.fails, made] using loads
    simp only [frees, perform, Spaces.loaded, made]
    rcases effect_creates made with given | ⟨fresh, pushed, alive, space⟩ | rfl
    · rw [given]
      exact .given_up owned unused
    · rw [pushed]
      refine .none_freed ((owned.mono (Finset.subset_insert pml4 live)).push ?_ (by simp [space]))
      exact not_reaped_of_alive alive
    · rw [Spaces.orderly, Bool.and_eq_true] at orderly
      exact owned.sysExec unused orderly.1 orderly.2
  | none =>
  simp only [Spaces.loaded, made]
  by_cases looks : call.looks sched = true
  · exact (Ledger.none_freed owned).reaps (effect_reaps looks)
  cases call with
  | schedule currentRsp now => exact .none_freed (owned.schedule currentRsp now)
  | blockCurrent =>
    exact .none_freed (owned.mark orderly (fun _ => rfl) (fun _ => by simp))
  | blockCurrentUntil wakeTick =>
    exact .none_freed (owned.mark orderly (fun _ => rfl) (fun _ => by simp))
  | exitCurrent code wakes => exact .none_freed (owned.exitCurrent code wakes orderly)
  | faultCurrent code wakes => exact .none_freed (owned.faultCurrent code wakes orderly)
  | sendSignal taskId signal wakes =>
    rcases sendSignal_exits looks wakes with ⟨code, exits, rfl, sent⟩
    simp only [frees, perform, effect, sent]
    refine .none_freed (owned.exitCurrent code wakes ?_)
    simpa [Spaces.orderly, exits] using orderly
  | spawnUserThread stackTop interactive stackBottom tlsBase inherits =>
    refine .none_freed ?_
    simp only [perform, effect]
    rcases spawnUserThread_cases sched stackTop interactive stackBottom tlsBase inherits with
      same | ⟨fresh, parent, pml4, running, shared, pushed, ready, space⟩
    · rw [same]
      exact owned
    · rw [pushed]
      refine owned.push (by simp [ready]) fun other has => ?_
      cases space.symm.trans has
      simpa [Spaces.orderly, currentExists, running, shared] using orderly
  | _ => first | exact absurd rfl looks | cases made

namespace Spaces

theorem step_owned {spaces : Spaces} (owned : Owned spaces.live spaces.sched)
    (orderly : spaces.orderly call = true) :
    Owned (spaces.step call).2.live (spaces.step call).2.sched ∧ spaces.FreesUnused call := by
  cases loads : spaces.fails call with
  | true =>
    have same : spaces.step call = ([], spaces) := by rw [step, if_pos loads]
    rw [same]
    refine ⟨owned, ?_, ?_, ?_⟩ <;> simp [same]
  | false =>
    have ledger := SchedCall.effect_ledger owned orderly loads
    have next : spaces.step call = (call.frees spaces.sched, ⟨call.perform spaces.sched,
          spaces.loaded call \ (call.frees spaces.sched).toFinset⟩) := by
      rw [step, if_neg (by simp [loads])]
    rw [next]
    refine ⟨ledger.owned, ?_, ?_, ?_⟩ <;> rw [next]
    · exact ledger.once
    · exact ledger.created
    · exact fun pml4 member task listed has => ledger.unused member listed has

/-- Every call of a run is orderly in the state it meets. -/
def orderlyRun (spaces : Spaces) : List SchedCall -> Bool
  | [] => true
  | call :: rest => spaces.orderly call && orderlyRun (spaces.step call).2 rest

theorem boot_owned (credentials : Credentials) :
    Owned (boot credentials).live (boot credentials).sched := by
  intro taskId task found
  have only := mem_of_getElem? found
  simp only [boot, Scheduler.idle, mem_singleton] at only
  subst only
  constructor <;> simp

/-- Along every orderly run from boot: what a call frees was created and not freed
since, is freed once, and belongs to no task that is not reaped. -/
theorem run_frees_unused (credentials : Credentials) {calls : List SchedCall}
    (orderly : (boot credentials).orderlyRun calls = true) (earlier later : List SchedCall)
    (call : SchedCall) (split : calls = earlier ++ call :: later) :
    ((boot credentials).run earlier).FreesUnused call := by
  have general (rest : List SchedCall) (spaces : Spaces) (owned : Owned spaces.live spaces.sched)
      (orderly : spaces.orderlyRun (rest ++ call :: later) = true) :
      (spaces.run rest).FreesUnused call := by
    induction rest generalizing spaces with
    | nil =>
      rw [nil_append, orderlyRun, Bool.and_eq_true] at orderly
      exact (step_owned owned orderly.1).2
    | cons first rest ih =>
      rw [cons_append, orderlyRun, Bool.and_eq_true] at orderly
      exact ih _ (step_owned owned orderly.1).1 orderly.2
  exact general earlier (boot credentials) (boot_owned credentials) (split ▸ orderly)

/-- A process is spawned in address space 5 and runs. -/
def processRuns : List SchedCall :=
  [.spawnElfProcess (some 4096) someUser 5 true none false, .schedule 0 0]

/-- The process exits and is reaped: its address space is freed. -/
theorem run_frees_unused_reaped : (boot someUser).orderlyRun
        (processRuns ++ [.exitCurrent 0 ⟨[], []⟩, .schedule 0 1, .waitpid 0 1]) = true ∧
      ((boot someUser).run (processRuns ++ [.exitCurrent 0 ⟨[], []⟩, .schedule 0 1])).FreesUnused
        (.waitpid 0 1) :=
  have orderly : (boot someUser).orderlyRun
      (processRuns ++ [.exitCurrent 0 ⟨[], []⟩, .schedule 0 1, .waitpid 0 1]) = true := by decide
  ⟨orderly, run_frees_unused someUser orderly _ [] _ rfl⟩

/-- A process with a thread calls `sys_exec`: the address space the thread runs in is
freed. -/
theorem exec_frees_shared : Exists fun thread : Task =>
    (((boot someUser).run
        (processRuns ++ [.spawnUserThread (some 8192) someUser 0x7fff00200000 0 true])).step
      (.sysExec 6)).1 = [5] ∧
    (((boot someUser).run
        (processRuns ++ [.spawnUserThread (some 8192) someUser 0x7fff00200000 0 true])).step
      (.sysExec 6)).2.sched.tasks[2]? = some thread ∧
    thread.pml4 = some 5 ∧ thread.status = .ready :=
  ⟨_, by decide, rfl, by decide, by decide⟩

end Spaces

/-!
## The users of an address space

An address space is in use while a task has it that has not ended.  Calls that
neither spawn nor bring an ended task back give no address space a new user, and
the tasks of one that stays in use keep it.
-/

namespace Scheduler

def pml4Of (sched : Scheduler) (taskId : Nat) : Option Nat :=
  sched.tasks[taskId]?.bind Task.pml4

/-- Some task that has not ended has the address space. -/
def Uses (sched : Scheduler) (pml4 : Nat) : Prop :=
  ∃ (taskId : Nat) (task : Task),
    sched.tasks[taskId]? = some task ∧ task.ended = false ∧ task.pml4 = some pml4

/-- The same as a test. -/
def inUse (sched : Scheduler) (pml4 : Nat) : Bool :=
  sched.tasks.any (fun task => !task.ended && task.pml4 == some pml4)

theorem inUse_iff (sched : Scheduler) (pml4 : Nat) :
    sched.inUse pml4 = true <-> sched.Uses pml4 := by
  simp only [inUse, List.any_eq_true, Bool.and_eq_true, Bool.not_eq_true', beq_iff_eq]
  constructor
  · rintro ⟨task, listed, alive, has⟩
    rcases getElem?_of_mem listed with ⟨taskId, found⟩
    exact ⟨taskId, task, found, alive, has⟩
  · rintro ⟨taskId, task, found, alive, has⟩
    exact ⟨task, mem_of_getElem? found, alive, has⟩

theorem Uses.of_current {pml4 : Nat} (alive : sched.currentAlive = true)
    (has : sched.pml4Of sched.current = some pml4) : sched.Uses pml4 := by
  rcases Option.bind_eq_some_iff.mp has with ⟨task, found, space⟩
  exact ⟨sched.current, task, found, by simpa [currentAlive, found] using alive, space⟩

/-- No address space gets a new user, and the tasks of those in use keep them. -/
structure Keeps (before after : Scheduler) : Prop where
  uses : forall pml4, after.Uses pml4 -> before.Uses pml4
  roots : forall pml4, after.Uses pml4 -> forall taskId, before.pml4Of taskId = some pml4 ->
    after.pml4Of taskId = some pml4
  length : before.tasks.length <= after.tasks.length
  current : before.current < before.tasks.length -> after.current < after.tasks.length

theorem Keeps.refl (sched : Scheduler) : sched.Keeps sched :=
  ⟨fun _ uses => uses, fun _ _ _ has => has, Nat.le_refl _, fun inside => inside⟩

theorem Keeps.trans {first second third : Scheduler} (start : first.Keeps second)
    (rest : second.Keeps third) : first.Keeps third where
  uses pml4 used := start.uses pml4 (rest.uses pml4 used)
  roots pml4 used taskId has :=
    rest.roots pml4 used taskId (start.roots pml4 (rest.uses pml4 used) taskId has)
  length := Nat.le_trans start.length rest.length
  current inside := rest.current (start.current inside)

end Scheduler

/-- The task keeps its address space and is not brought back. -/
def Task.Held (before after : Task) : Prop :=
  after.pml4 = before.pml4 ∧ (after.ended = false -> before.ended = false)

theorem Task.Held.refl (task : Task) : task.Held task := ⟨rfl, id⟩

namespace Scheduler

variable {after before : Scheduler}

theorem Keeps.of_held (held : Evolves Task.Held before.tasks after.tasks)
    (length : after.tasks.length = before.tasks.length)
    (current : before.current < before.tasks.length -> after.current < after.tasks.length) :
    before.Keeps after := by
  refine ⟨?_, ?_, Nat.le_of_eq length.symm, current⟩
  · rintro pml4 ⟨taskId, next, found, alive, has⟩
    have inside : taskId < before.tasks.length :=
      length ▸ (List.getElem?_eq_some_iff.mp found).1
    have present := getElem?_eq_getElem inside
    rcases held taskId _ present with ⟨same, later, space, still⟩
    cases found.symm.trans later
    exact ⟨taskId, _, present, still alive, space ▸ has⟩
  · intro pml4 _ taskId has
    rcases Option.bind_eq_some_iff.mp has with ⟨task, found, space⟩
    rcases held taskId task found with ⟨next, later, same, _⟩
    rw [pml4Of, later, Option.bind_some, same, space]

theorem Keeps.modify {change : Task -> Task}
    (here : ∀ task, sched.tasks[taskId]? = some task -> task.Held (change task)) :
    sched.Keeps (sched.modifyTask taskId change) :=
  .of_held (.modify .refl here) (length_modifyTask ..) (fun inside => by simpa using inside)

theorem Calm.keeps (calm : before.Calm after) : before.Keeps after := by
  refine ⟨?_, fun pml4 _ taskId has => (calm.pml4 taskId).trans has, calm.length, fun inside =>
    calm.current ▸ Nat.lt_of_lt_of_le inside calm.length⟩
  rintro pml4 ⟨taskId, next, later, alive, has⟩
  rcases calm.back later with ⟨task, found, step⟩ | ⟨_, _, none⟩
  · exact ⟨taskId, task, found, step.alive_of alive, step.space ▸ has⟩
  · cases none.symm.trans has

/-- Ending a task. -/
theorem Keeps.ends {change : Task -> Task}
    (ends : ∀ task, (change task).pml4 = task.pml4 ∧ (change task).ended = true) :
    sched.Keeps (sched.modifyTask taskId change) := by
  refine .modify fun task _ => ⟨(ends task).1, fun alive => ?_⟩
  rw [(ends task).2] at alive
  cases alive

variable {task : Task} {change : Task -> Task}

theorem chooseNext_lt (tasks : sched.tasks ≠ []) : sched.chooseNext < sched.tasks.length := by
  rcases chooseNext_spec sched tasks with ready | ⟨zero, _⟩
  · rcases Option.map_eq_some_iff.mp ready with ⟨task, found, _⟩
    exact (List.getElem?_eq_some_iff.mp found).1
  · rw [zero]
    exact length_pos_iff.mpr tasks

theorem schedule_keeps {currentRsp : Nat} {now : UInt64}
    (runs : sched.someoneRuns currentRsp now = true) :
    sched.Keeps (sched.schedule currentRsp now).2.2 := by
  by_cases empty : sched.tasks = []
  · simpa [schedule, empty] using Keeps.refl sched
  have settled := (settle_calm sched currentRsp now).tasks
  have same := length_settle sched currentRsp now
  rw [schedule_after empty]
  rw [someoneRuns, Bool.or_eq_true] at runs
  generalize (sched.saveCurrent currentRsp).settle now = middle at settled runs same
  have filled : middle.tasks ≠ [] := by
    rw [<- length_pos_iff, same]
    exact length_pos_iff.mpr empty
  have inside := chooseNext_lt filled
  refine .of_held ?_ ((length_modifyTask ..).trans same) (fun _ => ?_)
  · -- only the chosen task changes, and it had not ended
    intro taskId task found
    rcases settled taskId task found with ⟨next, later, calm⟩
    by_cases here : middle.chooseNext = taskId
    · refine ⟨{ next with status := .running }, ?_, calm.space, fun _ => ?_⟩
      · subst here
        simp [activate, later]
      · rcases chooseNext_spec middle filled with ready | ⟨zero, noneReady⟩
        · apply calm.alive_of
          rw [here, later] at ready
          simp [Task.ended, Option.some.inj ready]
        · rcases runs with idle | ready
          · rw [<- here, zero] at found
            simpa [found] using idle
          · rcases any_eq_true.mp ready with ⟨other, listed, isReady⟩
            exact absurd (by simpa using isReady) (noneReady other listed)
    · exact ⟨next, (modifyTask_other middle _ here).trans later, calm.space, calm.alive_of⟩
  · simpa [activate] using inside

/-- A new task in an address space that is in use. -/
theorem Keeps.push {fresh : Task} (shared : ∀ pml4, fresh.pml4 = some pml4 -> sched.Uses pml4) :
    sched.Keeps (sched.push fresh) := by
  refine ⟨?_, ?_, by simp [Scheduler.push], fun inside => ?_⟩
  · rintro pml4 ⟨taskId, task, found, alive, has⟩
    by_cases inside : taskId < sched.tasks.length
    · refine ⟨taskId, task, ?_, alive, has⟩
      rwa [Scheduler.push, getElem?_append_left inside] at found
    · have listed := mem_of_getElem? found
      rw [Scheduler.push, getElem?_append_right (Nat.le_of_not_lt inside)] at found
      have only := mem_of_getElem? found
      rw [mem_singleton] at only
      exact shared pml4 (only ▸ has)
  · intro pml4 _ taskId has
    rcases Option.bind_eq_some_iff.mp has with ⟨task, found, space⟩
    have inside := (List.getElem?_eq_some_iff.mp found).1
    rw [pml4Of, Scheduler.push, getElem?_append_left inside, found, Option.bind_some, space]
  · simp only [Scheduler.push, length_append]
    omega

theorem takeReapPml4_keeps (found : sched.tasks[taskId]? = some task) :
    sched.Keeps (sched.takeReapPml4 taskId).2 := by
  rcases takeReapPml4_cases sched taskId with same | ⟨_, pml4, again, has, taken, unshared⟩
  · rw [same]
    exact .refl sched
  cases found.symm.trans again
  rw [taken]
  -- the address space that is taken has no user left
  have other (taskId' : Nat) (next : Task) (present : (sched.modifyTask taskId
        (fun task => { task with pml4 := none })).tasks[taskId']? = some next)
      (pml4' : Nat) (space : next.pml4 = some pml4') :
      taskId' ≠ taskId ∧ sched.tasks[taskId']? = some next := by
    by_cases here : taskId = taskId'
    · subst here
      rw [modifyTask_self, found] at present
      cases present
      cases space
    · rw [modifyTask_other _ _ here] at present
      exact ⟨Ne.symm here, present⟩
  refine ⟨?_, ?_, by simp, fun inside => by simpa using inside⟩
  · rintro pml4' ⟨taskId', next, present, alive, space⟩
    exact ⟨taskId', next, (other taskId' next present pml4' space).2, alive, space⟩
  · rintro pml4' ⟨taskId', next, present, alive, space⟩ owner has'
    rcases other taskId' next present pml4' space with ⟨apart, before⟩
    have different : owner ≠ taskId := by
      rintro rfl
      rw [pml4Of, found, Option.bind_some, has] at has'
      cases has'
      have ended := unshared taskId' next apart before space
      simp [Task.ended, ended] at alive
    rwa [pml4Of, modifyTask_other _ _ (Ne.symm different)]

/-- Reaping a task: it ends, and what it gives up has no user. -/
theorem reap_keeps (found : sched.tasks[taskId]? = some task)
    (reaps : ∀ task, (change task).pml4 = task.pml4 ∧ (change task).status = .reaped) :
    sched.Keeps ((sched.modifyTask taskId change).takeReapPml4 taskId).2 := by
  refine .trans (.ends fun task => ⟨(reaps task).1, by simp [Task.ended, (reaps task).2]⟩)
    (@takeReapPml4_keeps _ taskId (change task) ?_)
  rw [modifyTask_self, found]
  rfl

/-- Calls that look at a task first. -/
theorem Reaps.keeps {freed : List Nat} (reaps : Reaps sched freed after) : sched.Keeps after := by
  induction reaps with
  | calm calm => exact calm.keeps
  | reap _ found _ reaps _ => exact reap_keeps found fun task => (reaps task).symm
  | trans _ _ first second => exact first.trans second

theorem exitCurrent_keeps (sched : Scheduler) (code : UInt64) (wakes : Wakes) :
    sched.Keeps (sched.exitCurrent code wakes) := by
  refine .trans (wakeTasks_rouses wakes.cleanup sched).calm.keeps
    (.trans (.ends ?_) (wakeWaitingParent_rouses _ _ wakes.pollers).calm.keeps)
  exact fun _ => ⟨rfl, rfl⟩

theorem faultCurrent_keeps (sched : Scheduler) (code : UInt64) (wakes : Wakes) :
    sched.Keeps (sched.faultCurrent code wakes) := by
  refine .trans (.ends ?_) ((wakeWaitingParent_rouses _ _ wakes.pollers).trans
    (wakeTasks_rouses wakes.cleanup _)).calm.keeps
  exact fun _ => ⟨rfl, rfl⟩

end Scheduler

/-- The task whose resources a call cleans up, if it ends one. -/
def SchedCall.ends (sched : Scheduler) : SchedCall -> Option Nat
  | exitCurrent _ _ => some sched.current
  | faultCurrent _ _ => some sched.current
  | killTask taskId code wakes =>
    match sched.killTask taskId code wakes with
    | .error _ => none
    | .ok _ => some taskId
  | sendSignal taskId signal wakes =>
    match signal.exitCode, sched.sendSignal taskId signal wakes with
    | some _, .ok _ => some taskId
    | _, _ => none
  | forceReclaimTask taskId code wakes =>
    match sched.forceReclaimTask taskId code wakes with
    | .error _ => none
    | .ok _ => some taskId
  | _ => none

/-- Whether a call that lets the current task sleep or spawn, or the idle task run,
finds a task that has not ended. -/
def SchedCall.steady (sched : Scheduler) : SchedCall -> Bool
  | schedule currentRsp now => sched.someoneRuns currentRsp now
  | blockCurrent => sched.currentAlive
  | blockCurrentUntil _ => sched.currentAlive
  | spawnUserThread _ _ _ _ _ => sched.currentAlive
  | _ => true

theorem SchedCall.perform_keeps (steady : call.steady sched = true) (plain : call.creates = none) :
    sched.Keeps (call.perform sched) := by
  by_cases looks : call.looks sched = true
  · exact (effect_reaps looks).keeps
  cases call with
  | schedule currentRsp now => exact schedule_keeps steady
  | blockCurrent =>
    refine .modify fun task found => ⟨rfl, fun _ => ?_⟩
    simpa [steady, currentAlive, SchedCall.steady, found] using steady
  | blockCurrentUntil wakeTick =>
    refine .modify fun task found => ⟨rfl, fun _ => ?_⟩
    simpa [steady, currentAlive, SchedCall.steady, found] using steady
  | exitCurrent code wakes => exact exitCurrent_keeps sched code wakes
  | faultCurrent code wakes => exact faultCurrent_keeps sched code wakes
  | sendSignal taskId signal wakes =>
    rcases sendSignal_exits looks wakes with ⟨code, _, _, sent⟩
    simp only [perform, effect, sent]
    exact exitCurrent_keeps sched code wakes
  | spawnElfProcess stackTop interactive pml4 inherits credentials leaveBlocked => cases plain
  | loadFailed pml4 => cases plain
  | spawnUserThread stackTop interactive stackBottom tlsBase inherits =>
    simp only [perform, effect]
    rcases spawnUserThread_cases sched stackTop interactive stackBottom tlsBase inherits with
      same | ⟨fresh, parent, pml4, running, shared, pushed, _, space⟩
    · rw [same]
      exact .refl sched
    · rw [pushed]
      refine .push fun other has => ?_
      cases space.symm.trans has
      exact .of_current steady (by rw [pml4Of, running]; exact shared)
  | sysExec image => cases plain
  | _ => exact absurd rfl looks

end CoolOs.Sched
