import CoolOs.Sched.Runs

namespace CoolOs.Sched

open Tables Option

/-!
# The life of a task

A task that has exited can only be reaped, and a reaped task stays so.  Several
calls assign a status without looking at the old one, so they keep to this only
where they meet a task that has not ended.
-/

/-- The life of a task only goes on: an exited task is at most reaped, a reaped one
stays reaped, and the exit code of both stays. -/
structure Task.Onward (before after : Task) : Prop where
  exited : before.status = .exited ->
    (after.status = .exited ∨ after.status = .reaped) ∧ after.exitCode = before.exitCode
  reaped : before.status = .reaped -> after.status = .reaped ∧ after.exitCode = before.exitCode

variable {after before : Task}

theorem Task.Onward.refl (task : Task) : task.Onward task :=
  ⟨fun exited => ⟨.inl exited, rfl⟩, fun reaped => ⟨reaped, rfl⟩⟩

theorem Task.Onward.trans (first second third : Task) (start : first.Onward second)
    (rest : second.Onward third) : first.Onward third := by
  constructor
  · intro exited
    rcases start.exited exited with ⟨exited | reaped, code⟩
    · exact ⟨(rest.exited exited).1, (rest.exited exited).2.trans code⟩
    · exact ⟨.inr (rest.reaped reaped).1, (rest.reaped reaped).2.trans code⟩
  · intro reaped
    have middle := start.reaped reaped
    have last := rest.reaped middle.1
    exact ⟨last.1, last.2.trans middle.2⟩

/-- A task that has not ended may become anything. -/
theorem Task.Onward.of_not_ended (alive : before.ended = false) : before.Onward after := by
  constructor <;> intro status <;> simp [Task.ended, status] at alive

/-- A step that leaves ended tasks as they are, in status and exit code. -/
theorem Task.Onward.of_same
    (same : before.ended = true -> after.status = before.status ∧ after.exitCode = before.exitCode)
    : before.Onward after := by
  constructor <;> intro status
  · have kept := same (by simp [Task.ended, status])
    exact ⟨.inl (kept.1.trans status), kept.2⟩
  · have kept := same (by simp [Task.ended, status])
    exact ⟨kept.1.trans status, kept.2⟩

def Scheduler.Onward (before after : Scheduler) : Prop :=
  Evolves Task.Onward before.tasks after.tasks

namespace Scheduler

theorem Onward.refl (sched : Scheduler) : sched.Onward sched :=
  Evolves.refl Task.Onward.refl sched.tasks

theorem Onward.trans {first second third : Scheduler} (start : first.Onward second)
    (rest : second.Onward third) : first.Onward third := Evolves.trans Task.Onward.trans start rest

theorem modifyTask_onward {sched : Scheduler} {taskId : Nat} {change : Task -> Task}
    (here : ∀ task, sched.tasks[taskId]? = some task -> task.Onward (change task)) :
    sched.Onward (sched.modifyTask taskId change) := .modify .refl here

end Scheduler

theorem Task.Calm.onward {before after : Task} (calm : before.Calm after) : before.Onward after :=
  .of_same calm.ended

namespace Scheduler

variable {after : Scheduler} {change : Task -> Task} {before : Task} {code : UInt64}

theorem Calm.onward {before : Scheduler} (calm : before.Calm after) : before.Onward after :=
  calm.tasks.mono (fun _ _ => Task.Calm.onward)

variable {sched : Scheduler} {taskId : Nat}

theorem modifyTask_onward_iff : sched.Onward (sched.modifyTask taskId change) <->
      ∀ task, sched.tasks[taskId]? = some task -> task.Onward (change task) := by
  refine ⟨?_, modifyTask_onward⟩
  intro onward task found
  rcases onward taskId task found with ⟨next, later, allowed⟩
  rw [modifyTask_self, found] at later
  cases later
  exact allowed

/-- The current task has not ended. -/
def currentAlive (sched : Scheduler) : Bool :=
  sched.tasks[sched.current]?.all (fun task => !task.ended)

/-- The current task may exit with a code: it is not reaped, and where it has exited
already, it was with that code. -/
def currentMayExit (sched : Scheduler) (code : UInt64) : Bool :=
  sched.tasks[sched.current]?.all (fun task =>
    task.status != .reaped && (task.status != .exited || task.exitCode == some code))

/-- The idle task has not ended, or some task is ready and runs in its place. -/
def someoneRuns (sched : Scheduler) (currentRsp : Nat) (now : UInt64) : Bool :=
  sched.tasks[0]?.all (fun task => !task.ended) ||
    ((sched.saveCurrent currentRsp).settle now).tasks.any (fun task => task.status == .ready)

theorem onward_alive_iff {after : Task} (alive : after.ended = false) :
    before.Onward after <-> before.ended = false := by
  refine ⟨?_, .of_not_ended⟩
  intro onward
  by_contra ended
  simp only [Task.ended, Bool.not_eq_false, Bool.or_eq_true, beq_iff_eq] at ended
  rcases ended with exited | reaped
  · rcases (onward.exited exited).1 with status | status <;> simp [Task.ended, status] at alive
  · simp [Task.ended, (onward.reaped reaped).1] at alive

theorem onward_exited_iff {after : Task} (exited : after.status = .exited)
    (carries : after.exitCode = some code) :
    before.Onward after <->
      before.status ≠ .reaped ∧ (before.status = .exited -> before.exitCode = some code) := by
  constructor
  · intro onward
    refine ⟨fun reaped => ?_, fun already => ?_⟩
    · have still := (onward.reaped reaped).1
      rw [exited] at still
      cases still
    · rw [<- (onward.exited already).2, carries]
  · rintro ⟨notReaped, same⟩
    refine ⟨fun already => ⟨.inl exited, ?_⟩, fun reaped => absurd reaped notReaped⟩
    rw [carries, same already]

/-- Blocking the current task. -/
theorem blocks_onward_iff (blocks : ∀ task, (change task).ended = false) :
    sched.Onward (sched.modifyTask sched.current change) <-> sched.currentAlive = true := by
  rw [modifyTask_onward_iff, currentAlive]
  cases sched.tasks[sched.current]? with
  | none => simp
  | some task => simp [onward_alive_iff (blocks task)]

/-- Exit and fault: the current task is marked, and tasks are woken before and after. -/
theorem exits_onward_iff {first last : Scheduler}
    (exits : ∀ task, (change task).status = .exited ∧ (change task).exitCode = some code)
    (before : sched.Rouses first) (after : (first.modifyTask sched.current change).Rouses last) :
    sched.Onward last <-> sched.currentMayExit code = true := by
  -- nothing wakes the task once it is marked
  have marked (task : Task) (found : sched.tasks[sched.current]? = some task) :
      ∃ next, last.tasks[sched.current]? = some next ∧ next.status = .exited ∧
        next.exitCode = some code := by
    rcases before.tasks _ task found with ⟨woken, foundWoken, _⟩
    refine ⟨change woken, after.ended ?_ ?_, (exits woken).1, (exits woken).2⟩
    · rw [modifyTask_self, foundWoken]
      rfl
    · simp [Task.ended, (exits woken).1]
  have mayExit (task : Task) (found : sched.tasks[sched.current]? = some task) :
      sched.currentMayExit code = true <->
        task.status ≠ .reaped ∧ (task.status = .exited -> task.exitCode = some code) := by
    simp [currentMayExit, found, imp_iff_not_or]
  constructor
  · intro onward
    cases found : sched.tasks[sched.current]? with
    | none => simp [currentMayExit, found]
    | some task =>
      rcases marked task found with ⟨next, later, exited, carries⟩
      rcases onward _ task found with ⟨same, again, allowed⟩
      cases later.symm.trans again
      exact (mayExit task found).mpr ((onward_exited_iff exited carries).mp allowed)
  · intro may taskId task found
    by_cases here : sched.current = taskId
    · subst here
      rcases marked task found with ⟨next, later, exited, carries⟩
      exact ⟨next, later, (onward_exited_iff exited carries).mpr ((mayExit task found).mp may)⟩
    · rcases before.tasks taskId task found with ⟨middle, foundMiddle, woken⟩
      rcases after.tasks taskId middle
        ((modifyTask_other _ _ here).trans foundMiddle) with ⟨next, later, wokenAgain⟩
      exact ⟨next, later, (woken.trans _ _ _ wokenAgain).calm.onward⟩

theorem exitCurrent_onward_iff (sched : Scheduler) (code : UInt64) (wakes : Wakes) :
    sched.Onward (sched.exitCurrent code wakes) <-> sched.currentMayExit code = true :=
  exits_onward_iff (fun _ => ⟨rfl, rfl⟩)
    (wakeTasks_rouses wakes.cleanup sched) (wakeWaitingParent_rouses _ _ wakes.pollers)

theorem faultCurrent_onward_iff (sched : Scheduler) (code : UInt64) (wakes : Wakes) :
    sched.Onward (sched.faultCurrent code wakes) <-> sched.currentMayExit code = true :=
  exits_onward_iff (fun _ => ⟨rfl, rfl⟩) (.refl sched)
    ((wakeWaitingParent_rouses _ _ wakes.pollers).trans (wakeTasks_rouses wakes.cleanup _))

theorem schedule_after (tasks : sched.tasks ≠ []) (currentRsp : Nat) (now : UInt64) :
    (sched.schedule currentRsp now).2.2 = ((sched.saveCurrent currentRsp).settle now).activate
      ((sched.saveCurrent currentRsp).settle now).chooseNext := by
  have filled : ¬ sched.tasks.isEmpty = true := by simp [tasks]
  rw [schedule, if_neg filled]
  dsimp only
  split <;> rfl

theorem schedule_onward_iff (sched : Scheduler) (currentRsp : Nat) (now : UInt64) :
    sched.Onward (sched.schedule currentRsp now).2.2 <->
      sched.someoneRuns currentRsp now = true := by
  by_cases empty : sched.tasks = []
  · simp [schedule, someoneRuns, empty, Onward.refl]
  rw [schedule_after empty, someoneRuns, Bool.or_eq_true]
  have settled := (settle_calm sched currentRsp now).onward
  generalize (sched.saveCurrent currentRsp).settle now = middle at settled
  rcases List.exists_cons_of_ne_nil empty with ⟨idle, rest, first⟩
  have idleFound : sched.tasks[0]? = some idle := by rw [first]; rfl
  rcases settled 0 idle idleFound with ⟨idleLater, laterFound, _⟩
  have filled : middle.tasks ≠ [] := by
    intro none
    rw [none] at laterFound
    cases laterFound
  rcases chooseNext_spec middle filled with ready | ⟨zero, noneReady⟩
  · rcases map_eq_some_iff.mp ready with ⟨chosen, found, isReady⟩
    have activated : middle.Onward (middle.activate middle.chooseNext) := by
      refine modifyTask_onward fun task same => .of_not_ended ?_
      cases found.symm.trans same
      simp [Task.ended, isReady]
    have listed := List.mem_of_getElem? found
    exact iff_of_true (settled.trans activated)
      (.inr (List.any_eq_true.mpr ⟨chosen, listed, by simp [isReady]⟩))
  · have noReady : middle.tasks.any (fun task => task.status == .ready) = false := by
      rw [List.any_eq_false]
      exact fun task listed => by simpa using noneReady task listed
    rw [noReady, zero, idleFound]
    simp only [all_some, Bool.not_eq_true', Bool.false_eq_true, or_false]
    -- the idle task runs whatever its status was
    have idleRuns : (middle.activate 0).tasks[0]? = some { idleLater with status := .running } := by
      simp [activate, laterFound]
    constructor
    · intro onward
      rcases onward 0 idle idleFound with ⟨runs, later, allowed⟩
      cases idleRuns.symm.trans later
      exact (onward_alive_iff rfl).mp allowed
    · intro alive taskId task found
      by_cases here : 0 = taskId
      · subst here
        cases idleFound.symm.trans found
        exact ⟨_, idleRuns, .of_not_ended alive⟩
      · rcases settled taskId task found with ⟨next, later, allowed⟩
        exact ⟨next, (modifyTask_other middle _ here).trans later, allowed⟩

theorem takeReapPml4_onward (sched : Scheduler) (taskId : Nat) :
    sched.Onward (sched.takeReapPml4 taskId).2 := by
  rcases takeReapPml4_cases sched taskId with same | ⟨_, _, _, _, taken, _⟩
  · rw [same]
    exact .refl sched
  · rw [taken]
    exact modifyTask_onward fun _ _ => .of_same fun _ => ⟨rfl, rfl⟩

/-- Calls that look at a task first. -/
theorem Reaps.onward {freed : List Nat} (reaps : Reaps sched freed after) : sched.Onward after := by
  induction reaps with
  | calm calm => exact calm.onward
  | reap apart found counts reaps kept =>
    refine .trans (modifyTask_onward fun same here => ?_) (takeReapPml4_onward _ _)
    cases found.symm.trans here
    refine ⟨fun exited => ⟨.inr (reaps _).1, kept ?_⟩, fun reaped => absurd reaped counts⟩
    simp [Task.ended, exited]
  | trans _ _ first second => exact first.trans second

theorem push_onward (sched : Scheduler) (fresh : Task) : sched.Onward (sched.push fresh) :=
  .append .refl sched.tasks [fresh]

end Scheduler

open Scheduler

/-- Whether a call meets no ended task where it assigns a status. -/
def SchedCall.careful (sched : Scheduler) : SchedCall -> Bool
  | schedule currentRsp now => sched.someoneRuns currentRsp now
  | blockCurrent => sched.currentAlive
  | blockCurrentUntil _ => sched.currentAlive
  | exitCurrent code _ => sched.currentMayExit code
  | faultCurrent code _ => sched.currentMayExit code
  | sendSignal taskId signal _ =>
    taskId == 0 || taskId != sched.current || signal.exitCode.all sched.currentMayExit
  | _ => true

/-- The only calls that can turn the life of a task back are those that assign a
status without looking at the old one, and they do so exactly where they meet an
ended task. -/
theorem SchedCall.perform_onward_iff (sched : Scheduler) (call : SchedCall) :
    sched.Onward (call.perform sched) <-> call.careful sched = true := by
  by_cases looks : call.looks sched = true
  · refine iff_of_true (effect_reaps looks).onward ?_
    cases call with
    | sendSignal taskId signal wakes =>
      simp only [SchedCall.looks, careful, Bool.or_eq_true, isNone_iff_eq_none] at looks ⊢
      exact looks.imp_right fun plain => by simp [plain]
    | _ => first | rfl | cases looks
  cases call with
  | schedule currentRsp now => exact schedule_onward_iff sched currentRsp now
  | blockCurrent => exact blocks_onward_iff (fun _ => rfl)
  | blockCurrentUntil wakeTick => exact blocks_onward_iff (fun _ => rfl)
  | exitCurrent code wakes => exact exitCurrent_onward_iff sched code wakes
  | faultCurrent code wakes => exact faultCurrent_onward_iff sched code wakes
  | sendSignal taskId signal wakes =>
    rcases sendSignal_exits looks wakes with ⟨code, exits, rfl, sent⟩
    have idle : sched.current ≠ 0 := fun zero => looks (by simp [SchedCall.looks, zero])
    simpa [perform, effect, careful, sent, idle, exits] using
      exitCurrent_onward_iff sched code wakes
  | spawnElfProcess stackTop interactive pml4 inherits credentials leaveBlocked =>
    refine iff_of_true ?_ rfl
    simp only [perform, effect]
    rcases spawnElfProcess_cases sched stackTop interactive pml4 inherits credentials
        leaveBlocked with same | ⟨fresh, pushed, _, _⟩
    · rw [same]
      exact .refl sched
    · rw [pushed]
      exact push_onward sched fresh
  | loadFailed pml4 => exact iff_of_true (.refl sched) rfl
  | spawnUserThread stackTop interactive stackBottom tlsBase inherits =>
    refine iff_of_true ?_ rfl
    simp only [perform, effect]
    rcases spawnUserThread_cases sched stackTop interactive stackBottom tlsBase inherits with
      same | ⟨fresh, _, _, _, _, pushed, _, _⟩
    · rw [same]
      exact .refl sched
    · rw [pushed]
      exact push_onward sched fresh
  | sysExec image =>
    exact iff_of_true (modifyTask_onward fun _ _ => .of_same fun _ => ⟨rfl, rfl⟩) rfl
  | _ => exact absurd rfl looks

/-- Every call of a run is careful in the state it meets. -/
def carefulRun (sched : Scheduler) : List SchedCall -> Bool
  | [] => true
  | call :: rest => call.careful sched && carefulRun (call.perform sched) rest

theorem runSched_append (start : Scheduler) (earlier later : List SchedCall) :
    runSched start (earlier ++ later) = runSched (runSched start earlier) later := List.foldl_append

theorem carefulRun_append (start : Scheduler) (earlier later : List SchedCall) :
    carefulRun start (earlier ++ later) =
      (carefulRun start earlier && carefulRun (runSched start earlier) later) := by
  induction earlier generalizing start with
  | nil => rfl
  | cons call rest ih =>
    simp only [List.cons_append, carefulRun, ih, Bool.and_assoc]
    rfl

theorem runSched_onward {start : Scheduler} {calls : List SchedCall}
    (careful : carefulRun start calls = true) : start.Onward (runSched start calls) := by
  induction calls generalizing start with
  | nil => exact .refl start
  | cons call rest ih =>
    rw [carefulRun, Bool.and_eq_true] at careful
    exact ((call.perform_onward_iff start).mpr careful.1).trans (ih careful.2)

/-- From every table and along every run: an exited task becomes nothing but reaped,
a reaped task stays reaped and the exit codes of both stay, between any two states
the run reaches, if and only if every call is careful. -/
theorem runSched_lifecycle (start : Scheduler) (calls : List SchedCall) :
    (forall earlier between later, calls = earlier ++ between ++ later ->
      (runSched start earlier).Onward (runSched start (earlier ++ between))) <->
    carefulRun start calls = true := by
  constructor
  · intro onward
    induction calls generalizing start with
    | nil => rfl
    | cons call rest ih =>
      rw [carefulRun, Bool.and_eq_true]
      constructor
      · exact (call.perform_onward_iff start).mp (onward [] [call] rest rfl)
      · refine ih (call.perform start) fun earlier between later split => ?_
        exact onward (call :: earlier) between later (by rw [split]; rfl)
  · rintro careful earlier between later rfl
    rw [carefulRun_append, carefulRun_append, Bool.and_eq_true, Bool.and_eq_true] at careful
    rw [runSched_append]
    exact runSched_onward careful.1.2

/-- An unprivileged user. -/
def someUser : Credentials := ⟨1000, 1000, 0⟩

/-- Task 1 is spawned, runs and exits with code 7. -/
def exitsSeven : List SchedCall :=
  [.spawn (some 4096) someUser, .schedule 0 0, .exitCurrent 7 ⟨[], []⟩]

/-- A task that has exited and then sleeps is blocked again, and once its time has
come it runs on. -/
theorem exit_then_sleep_revives : (runSched (.idle someUser) exitsSeven).statusOf 1 = some .exited ∧
      (runSched (.idle someUser) (exitsSeven ++ [.blockCurrentUntil 3])).statusOf 1 =
        some .blocked ∧
      (runSched (.idle someUser)
        (exitsSeven ++ [.blockCurrentUntil 3, .schedule 0 3, .schedule 0 4])).statusOf 1 =
        some .running := by
  decide

end CoolOs.Sched
