import CoolOs.Memory.Paging
import CoolOs.Sched.AddressSpaces

namespace CoolOs.Sched

open Scheduler Tables List

/-!
# Roots left behind in the task table

A task that is reaped while another one has its address space keeps the root in its entry,
and the reap that frees the root does not visit that entry.  When every reap is tidy no
entry has a root that was freed, and a recycled frame finds its thread stacks free.
-/

namespace Scheduler

/-- Whether some entry has the address space and a stack at the given bottom. -/
def stackTaken (sched : Scheduler) (pml4 : Nat) (bottom : UInt64) : Bool :=
  sched.tasks.any (fun task => task.pml4 == some pml4 && task.userStackBottom == some bottom)

def nextThreadStackSlotFor (sched : Scheduler) (pml4 : Nat) : Option Nat :=
  (range Memory.userThreadStackSlots).find? (fun slot =>
    match Memory.userThreadStackRange slot with
    | none => false
    | some (bottom, _) => !sched.stackTaken pml4 (UInt64.ofNat bottom))

/-- Reaping the task leaves no other entry behind with a root that is freed: a task that is
not reaped keeps the root alive, or no other entry has it. -/
def leavesNone (sched : Scheduler) (taskId : Nat) : Bool :=
  match sched.pml4Of taskId with
  | none => true
  | some pml4 =>
    sched.stillLive taskId pml4 ||
      sched.tasks.zipIdx.all (fun entry => entry.2 == taskId || entry.1.pml4 != some pml4)

/-- The same for each reap of the loop of `reap_all_exited`. -/
def tidyLoop (parent : Nat) : List Nat -> Scheduler -> Bool
  | [], _ => true
  | index :: rest, sched =>
    if sched.shouldReap parent index then
      sched.leavesNone index && tidyLoop parent rest (sched.reapTask index).2
    else tidyLoop parent rest sched

end Scheduler

namespace Spaces

/-- A call whose reaps leave nothing behind.  Replacing an address space is no such call. -/
def tidy (spaces : Spaces) : SchedCall -> Bool
  | .waitpid _ taskId =>
    spaces.sched.statusOf taskId != some .exited || spaces.sched.leavesNone taskId
  | .forceReclaimTask taskId _ _ => spaces.sched.leavesNone taskId
  | .reapAllExited parent => tidyLoop parent (range spaces.sched.tasks.length) spaces.sched
  | .sysExec _ => false
  | _ => true

def tidyRun (spaces : Spaces) : List SchedCall -> Bool
  | [] => true
  | call :: rest => spaces.tidy call && tidyRun (spaces.step call).2 rest

end Spaces

/-- Every root of an entry exists. -/
def Fresh (live : Finset Nat) (sched : Scheduler) : Prop :=
  forall taskId pml4, sched.pml4Of taskId = some pml4 -> pml4 ∈ live

def SameRoots (before after : Scheduler) : Prop :=
  forall taskId, after.pml4Of taskId = before.pml4Of taskId

namespace SameRoots

variable {sched after : Scheduler} {change : Task -> Task} {wakes : Wakes}

theorem trans {first second third : Scheduler} (start : SameRoots first second)
    (rest : SameRoots second third) : SameRoots first third :=
  fun taskId => (rest taskId).trans (start taskId)

variable {taskId : Nat}

theorem modify (kept : ∀ task, (change task).pml4 = task.pml4) :
    SameRoots sched (sched.modifyTask taskId change) := by
  intro other
  unfold pml4Of
  by_cases here : taskId = other
  · subst here
    rw [modifyTask_self]
    cases sched.tasks[taskId]? with
    | none => rfl
    | some task => exact kept task
  · rw [modifyTask_other _ _ here]

theorem calm (calm : sched.Calm after) : SameRoots sched after := calm.pml4

theorem rouses (rouses : sched.Rouses after) : SameRoots sched after := calm rouses.calm

theorem ends {parent : Option Nat} {pollers cleanup : List Nat}
    (kept : ∀ task, (change task).pml4 = task.pml4) :
    SameRoots sched
      (((sched.modifyTask taskId change).wakeWaitingParent parent pollers).wakeTasks cleanup) :=
  (modify kept).trans (rouses ((wakeWaitingParent_rouses _ _ _).trans (wakeTasks_rouses _ _)))

theorem schedule (currentRsp : Nat) (now : UInt64) :
    SameRoots sched (sched.schedule currentRsp now).2.2 := by
  by_cases empty : sched.tasks = []
  · simp [Scheduler.schedule, empty, SameRoots]
  rw [schedule_after empty]
  exact trans (calm (settle_calm sched currentRsp now)) (modify fun _ => rfl)

theorem exitCurrent (code : UInt64) (wakes : Wakes) :
    SameRoots sched (sched.exitCurrent code wakes) := by
  refine trans (rouses (wakeTasks_rouses wakes.cleanup sched))
    (trans (modify ?_) (rouses (wakeWaitingParent_rouses _ _ wakes.pollers)))
  exact fun _ => rfl

theorem killTask {code : UInt64} (killed : sched.killTask taskId code wakes = .ok after) :
    SameRoots sched after := by
  rcases killTask_cases killed with ⟨task, _, _, rfl⟩
  exact ends fun _ => rfl

theorem sendSignal {signal : Signal} (sent : sched.sendSignal taskId signal wakes = .ok after) :
    SameRoots sched after := by
  rcases sendSignal_cases sent with ⟨code, _, ⟨_, rfl⟩ | killed⟩ | ⟨_, task, found, alive, rfl⟩
  · exact exitCurrent code wakes
  · exact killTask killed
  · exact calm (deliver_calm signal found alive)

end SameRoots

namespace Fresh

variable {live : Finset Nat} {sched after : Scheduler} {task : Task}

section

variable (fresh : Fresh live sched)
include fresh

theorem same (roots : SameRoots sched after) : Fresh live after :=
  fun taskId pml4 has => fresh taskId pml4 ((roots taskId).symm.trans has)

theorem push (exists_ : ∀ pml4, task.pml4 = some pml4 -> pml4 ∈ live) :
    Fresh live (sched.push task) := by
  intro taskId pml4 has
  rcases Option.bind_eq_some_iff.mp has with ⟨entry, found, space⟩
  rw [Scheduler.push, getElem?_append] at found
  split at found
  · exact fresh taskId pml4 (by rw [pml4Of, found]; exact space)
  · have only := mem_singleton.mp (mem_of_getElem? found)
    exact exists_ pml4 (only ▸ space)

/-- A root that was created and is given up at once. -/
theorem given_up {pml4 : Nat} (unused : pml4 ∉ live) :
    Fresh (insert pml4 live \ [pml4].toFinset) sched := by
  intro taskId other has
  have old := fresh taskId other has
  have different : other ≠ pml4 := fun same => unused (same ▸ old)
  simp [old, different]

/-- A tidy reap: when the root is freed, no other entry has it. -/
theorem reap {taskId : Nat} {change : Task -> Task} (found : sched.tasks[taskId]? = some task)
    (tidy : sched.leavesNone taskId = true) (kept : ∀ task, (change task).pml4 = task.pml4) :
    Fresh (live \ ((sched.modifyTask taskId change).takeReapPml4 taskId).1.toList.toFinset)
      ((sched.modifyTask taskId change).takeReapPml4 taskId).2 := by
  have roots : SameRoots sched (sched.modifyTask taskId change) := .modify kept
  rcases takeReapPml4_cases (sched.modifyTask taskId change) taskId with
    none | ⟨ended, pml4, foundEnded, has, taken, unshared⟩
  · rw [none]
    simpa using fresh.same roots
  rw [taken]
  rw [modifyTask_self, found] at foundEnded
  cases foundEnded
  have mine : sched.pml4Of taskId = some pml4 := by
    rw [pml4Of, found, Option.bind_some, <- kept task, has]
  have unlike : ∀ other entry, other ≠ taskId -> sched.tasks[other]? = some entry ->
      entry.pml4 ≠ some pml4 := by
    intro other entry apart present shared
    have dead : sched.stillLive taskId pml4 = false := by
      rw [stillLive, any_eq_false]
      rintro ⟨listed, index⟩ member
      have there := mem_zipIdx_iff_getElem?.mp member
      by_cases here : index = taskId
      · simp [here]
      · intro counts
        simp only [Bool.and_eq_true, decide_eq_true_eq] at counts
        exact counts.2 (unshared index listed here
          ((modifyTask_other _ _ (Ne.symm here)).trans there) counts.1.2)
    rw [leavesNone, mine] at tidy
    dsimp only at tidy
    rw [dead, Bool.false_or, all_eq_true] at tidy
    have clear := tidy (entry, other) (mem_zipIdx_iff_getElem?.mpr present)
    simp [apart, shared] at clear
  intro other pml4' has'
  rcases Option.bind_eq_some_iff.mp has' with ⟨entry, present, space⟩
  by_cases here : taskId = other
  · subst here
    rw [modifyTask_self, modifyTask_self, found] at present
    cases present
    cases space
  · rw [modifyTask_other _ _ here, modifyTask_other _ _ here] at present
    have root := fresh other pml4' (by rw [pml4Of, present]; exact space)
    have different : pml4' ≠ pml4 := fun same =>
      unlike other entry (Ne.symm here) present (same ▸ space)
    simp [root, different]

theorem reapTask {taskId : Nat}
    (found : sched.tasks[taskId]? = some task) (tidy : sched.leavesNone taskId = true) :
    Fresh (live \ (sched.reapTask taskId).1.toList.toFinset) (sched.reapTask taskId).2 :=
  fresh.reap found tidy fun _ => rfl

end

theorem append {freed more : List Nat}
    (fresh : Fresh ((live \ freed.toFinset) \ more.toFinset) sched)
    : Fresh (live \ (freed ++ more).toFinset) sched := by
  intro taskId pml4 has
  simpa [and_assoc] using fresh taskId pml4 has

/-- By induction on the entries the loop has still to look at. -/
theorem reapLoop (parent : Nat) (indices : List Nat) (count : Nat) (freed : List Nat)
    (fresh : Fresh (live \ freed.toFinset) sched) (tidy : tidyLoop parent indices sched = true) :
    Fresh (live \ (Scheduler.reapLoop parent indices (count, freed, sched)).2.1.toFinset)
      (Scheduler.reapLoop parent indices (count, freed, sched)).2.2 := by
  induction indices generalizing count freed sched with
  | nil => exact fresh
  | cons index rest ih =>
    rw [Scheduler.reapLoop]
    rw [tidyLoop] at tidy
    split
    next should =>
      rw [if_pos should, Bool.and_eq_true] at tidy
      rcases shouldReap_spec should with ⟨_, task, found, _⟩
      exact ih _ _ (fresh.reapTask found tidy.1).append tidy.2
    next skip =>
      rw [if_neg skip] at tidy
      exact ih _ _ fresh tidy

end Fresh

open SchedCall in
theorem Spaces.step_fresh {spaces : Spaces} {call : SchedCall}
    (fresh : Fresh spaces.live spaces.sched) (tidy : spaces.tidy call = true) :
    Fresh (spaces.step call).2.live (spaces.step call).2.sched := by
  rcases spaces with ⟨sched, live⟩
  unfold Spaces.step
  split
  next => exact fresh
  next loads =>
  have freesNone : ∀ {after : Scheduler}, Fresh live after ->
      Fresh (live \ ([] : List Nat).toFinset) after := by
    intro after still
    simpa using still
  change Fresh (Spaces.loaded ⟨sched, live⟩ call \ (call.effect sched).1.toFinset)
    (call.effect sched).2
  cases made : call.creates with
  | some pml4 =>
    have unused : pml4 ∉ live := by simpa [Spaces.fails, made] using loads
    simp only [Spaces.loaded, made]
    rcases effect_creates made with given | ⟨task, pushed, _, space⟩ | rfl
    · rw [given]
      exact fresh.given_up unused
    · rw [pushed]
      refine fun taskId other has => ?_
      simpa using Fresh.push (fun _ _ old => Finset.mem_insert_of_mem (fresh _ _ old))
        (by simp [space]) taskId other has
    · cases tidy
  | none =>
  cases call with
  | schedule currentRsp now => exact freesNone (fresh.same (.schedule currentRsp now))
  | blockCurrent => exact freesNone (fresh.same (.modify fun _ => rfl))
  | blockCurrentUntil wakeTick => exact freesNone (fresh.same (.modify fun _ => rfl))
  | unblock taskId => exact freesNone (fresh.same (.rouses (unblock_rouses sched taskId)))
  | exitCurrent code wakes => exact freesNone (fresh.same (.exitCurrent code wakes))
  | faultCurrent code wakes => exact freesNone (fresh.same (.ends fun _ => rfl))
  | killTask taskId code wakes =>
    simp only [effect]
    split
    · exact freesNone fresh
    · next killed => exact freesNone (fresh.same (.killTask killed))
  | sendSignal taskId signal wakes =>
    simp only [effect]
    split
    · exact freesNone fresh
    · next sent => exact freesNone (fresh.same (.sendSignal sent))
  | forceReclaimTask taskId code wakes =>
    simp only [effect]
    split
    · exact freesNone fresh
    · next outcome done =>
      rcases forceReclaimTask_cases done with ⟨_, task, found, _, freed, after⟩
      rw [freed, after]
      refine .same (fresh.reap found tidy fun _ => rfl) (.rouses ?_)
      exact (wakeWaitingParent_rouses _ _ _).trans (wakeTasks_rouses _ _)
  | waitpid parent taskId =>
    simp only [effect]
    split
    · exact freesNone fresh
    · next outcome waited =>
      rcases waitpid_cases waited with ⟨_, task, found, exited, freed, after⟩
      rw [freed, after]
      refine fresh.reapTask found ?_
      simpa [Spaces.tidy, statusOf, found, exited] using tidy
  | reapAllExited parent => exact .reapLoop parent _ 0 [] (freesNone fresh) tidy
  | spawn stackTop interactive =>
    refine freesNone ?_
    simp only [effect]
    rcases spawn_cases sched stackTop interactive with same | ⟨task, pushed, _, none⟩
    · rw [same]
      exact fresh
    · rw [pushed]
      exact fresh.push (by simp [none])
  | spawnUserThread stackTop interactive stackBottom tlsBase inherits =>
    refine freesNone ?_
    simp only [effect]
    rcases spawnUserThread_cases sched stackTop interactive stackBottom tlsBase inherits with
      same | ⟨task, parent, pml4, running, shared, pushed, _, space⟩
    · rw [same]
      exact fresh
    · rw [pushed]
      refine fresh.push fun other has => fresh sched.current other ?_
      rw [pml4Of, running, Option.bind_some, shared, <- space, has]
  | _ => cases made

namespace Spaces

theorem run_fresh {calls : List SchedCall} {spaces : Spaces}
    (fresh : Fresh spaces.live spaces.sched) (tidy : spaces.tidyRun calls = true) :
    Fresh (spaces.run calls).live (spaces.run calls).sched := by
  induction calls generalizing spaces with
  | nil => exact fresh
  | cons call rest ih =>
    rw [tidyRun, Bool.and_eq_true] at tidy
    exact ih (step_fresh fresh tidy.1) tidy.2

theorem boot_fresh (credentials : Credentials) :
    Fresh (boot credentials).live (boot credentials).sched := by
  intro taskId pml4 has
  rcases Option.bind_eq_some_iff.mp has with ⟨task, found, space⟩
  have only := mem_singleton.mp (mem_of_getElem? found)
  rw [only] at space
  cases space

/-- The stack of a new process is none of the thread stacks. -/
theorem thread_bottom_apart {slot bottom top : Nat}
    (range : Memory.userThreadStackRange slot = some (bottom, top)) :
    userStackBottom ≠ UInt64.ofNat bottom := by
  simp only [Memory.userThreadStackRange, Memory.userThreadStackSlots, Memory.userThreadStackBase,
    Memory.userThreadStackSlotSize, Memory.userStackSize, Memory.userMmapBase] at range
  split at range
  · cases range
  · split at range
    · cases range
    · cases range
      intro same
      have own : UInt64.toNat userStackBottom = 0x7fff000f0000 := by decide
      rw [same, UInt64.toNat_ofNat'] at own
      omega

/-- After a run of tidy calls every root in the table exists, so whatever frame the next
process gets, all thread stacks of its address space are free. -/
theorem tidy_run_leaves_no_root (credentials : Credentials) (calls : List SchedCall)
    (tidy : (boot credentials).tidyRun calls = true) :
    Fresh ((boot credentials).run calls).live ((boot credentials).run calls).sched ∧
      forall stackTop interactive pml4 inherits granted leaveBlocked,
        pml4 ∉ ((boot credentials).run calls).live ->
        forall slot bottom top, Memory.userThreadStackRange slot = some (bottom, top) ->
          ((boot credentials).run (calls ++ [.spawnElfProcess stackTop interactive pml4 inherits
            granted leaveBlocked])).sched.stackTaken pml4 (UInt64.ofNat bottom) = false := by
  have fresh := run_fresh (boot_fresh credentials) tidy
  refine ⟨fresh, ?_⟩
  intro stackTop interactive pml4 inherits granted leaveBlocked unused slot bottom top range
  rw [run, foldl_append]
  change Scheduler.stackTaken (step ((boot credentials).run calls) _).2.sched _ _ = _
  generalize (boot credentials).run calls = spaces at fresh unused
  have loads : spaces.fails (.spawnElfProcess stackTop interactive pml4 inherits granted
      leaveBlocked) = false := by
    simp [fails, SchedCall.creates, unused]
  rw [step, if_neg (by simp [loads]), stackTaken, any_eq_false]
  have before : ∀ task ∈ spaces.sched.tasks, task.pml4 ≠ some pml4 := by
    intro task old has
    rcases getElem?_of_mem old with ⟨taskId, found⟩
    exact unused (fresh taskId pml4 (by rw [pml4Of, found]; exact has))
  intro task listed taken
  simp only [Bool.and_eq_true, beq_iff_eq] at taken
  simp only [SchedCall.perform, SchedCall.effect] at listed
  rcases spawnElfProcess_cases spaces.sched stackTop interactive pml4 inherits granted
      leaveBlocked with failed | ⟨fresh, pushed, _, _, bottomed⟩
  · rw [failed] at listed
    exact before task listed taken.1
  · rw [pushed] at listed
    rcases mem_append.mp listed with old | own
    · exact before task old taken.1
    · rw [mem_singleton.mp own, bottomed] at taken
      exact thread_bottom_apart range (Option.some.inj taken.2)

/-- A process, a thread of it that is reaped first, and the process reaped after it. -/
def reapsThreadFirst : List SchedCall :=
  processRuns ++
    [.spawnUserThread (some 8192) someUser 0x7fff00200000 0 true, .killTask 2 9 ⟨[], []⟩,
      .waitpid 1 2, .exitCurrent 0 ⟨[], []⟩, .schedule 0 0, .waitpid 0 1]

/-- The entry of the thread has the root that was freed, and a new process that gets the
frame finds its first thread stack taken. -/
theorem reaped_thread_keeps_root : Exists fun thread : Task =>
    ((boot someUser).run reapsThreadFirst).sched.tasks[2]? = some thread ∧
      thread.pml4 = some 5 ∧ thread.status = .reaped ∧
      5 ∉ ((boot someUser).run reapsThreadFirst).live ∧
      ((boot someUser).run (reapsThreadFirst ++
        [.spawnElfProcess (some 4096) someUser 5 true none false])).sched.nextThreadStackSlotFor
          5 = some 1 :=
  ⟨_, rfl, by decide, by decide, by decide, by decide⟩

/-- A process without threads is reaped. -/
theorem tidy_run_reaps_process :
    (boot someUser).tidyRun (processRuns ++ [.exitCurrent 0 ⟨[], []⟩, .schedule 0 0,
      .waitpid 0 1]) = true ∧
    Fresh ((boot someUser).run (processRuns ++ [.exitCurrent 0 ⟨[], []⟩, .schedule 0 0,
      .waitpid 0 1])).live ((boot someUser).run (processRuns ++ [.exitCurrent 0 ⟨[], []⟩,
        .schedule 0 0, .waitpid 0 1])).sched :=
  have tidy : (boot someUser).tidyRun (processRuns ++ [.exitCurrent 0 ⟨[], []⟩, .schedule 0 0,
      .waitpid 0 1]) = true := by decide
  ⟨tidy, (tidy_run_leaves_no_root someUser _ tidy).1⟩

end Spaces

end CoolOs.Sched
