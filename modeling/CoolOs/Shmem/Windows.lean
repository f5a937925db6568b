import CoolOs.Memory.Protection
import CoolOs.Shmem.Lifetimes

namespace CoolOs.Shmem

open Memory Sched Tables List

/-!
# Windows of shared memory

Every identifier has a window of its own.  Identifiers are never used again and nothing
bounds them, so after enough regions their windows reach the user image, and then the end
of the user addresses.
-/

variable {shared : Shared}

/-- The length of the pages that hold `len` bytes. -/
def span (len : Nat) : Nat := (len + 4095) / 4096 * 4096

/-- The window lies below the end of the user addresses, apart from the part of them that
starts with the user image and from the windows of the other identifiers. -/
def OwnWindow (id len : Nat) : Prop :=
  Exists fun addr => windowOf id = some addr ∧ addr + span len <= userTop ∧
    rangesOverlap addr (addr + span len) userImageBase userMmapTop = false ∧
    forall other length start, other ≠ id -> length <= maxShmemRegionBytes ->
      windowOf other = some start ->
        rangesOverlap addr (addr + span len) start (start + span length) = false

theorem windowOf_eq_some {id addr : Nat} : windowOf id = some addr <->
    0 < id ∧ addr < 2 ^ 64 ∧ addr = 0x400000000000 + (id - 1) * 0x4000000 := by
  unfold windowOf userShmemBase userShmemSlotSize
  grind

theorem ownWindow_iff {id len : Nat} (some : 0 < len) (fits : len <= maxShmemRegionBytes) :
    OwnWindow id len <-> 0 < id ∧ (id <= 1048512 ∨ 1048540 < id ∧ id <= 1048576) := by
  simp only [OwnWindow, windowOf_eq_some, span, rangesOverlap_eq_false, userTop, userImageBase,
    userMmapTop, maxShmemRegionBytes] at fits ⊢
  constructor
  · rintro ⟨addr, placed, below, apart, _⟩
    omega
  · rintro ⟨positive, low⟩
    refine ⟨_, ⟨positive, ?_, rfl⟩, ?_, ?_, ?_⟩
    · omega
    · omega
    · omega
    · intro other length start different short placed
      omega

namespace Shared

theorem shmemCreate_some {len id : Nat} {frames : List Nat}
    (created : (shared.shmemCreate len frames).1 = some id) :
    id = shared.nextId ∧ 0 < len ∧ len <= maxShmemRegionBytes := by
  unfold shmemCreate at created
  split at created
  · cases created
  next sized =>
  dsimp only at created
  split at created
  · cases created
  split at created
  · cases created
  · cases created
    exact ⟨rfl, by omega, by omega⟩

theorem step_nextId (shared : Shared) (call : ShmemCall) :
    shared.nextId <= (shared.step call).2.nextId := by
  cases call with
  | sched call => exact Nat.le_refl _
  | create len frames =>
    unfold step shmemCreate
    dsimp only
    iterate 3
      split
      · exact Nat.le_refl _
    exact Nat.le_succ _
  | map id tables =>
    unfold step shmemMap
    dsimp only
    split
    · split
      · exact Nat.le_refl _
      split <;> exact Nat.le_refl _
    · exact Nat.le_refl _

theorem run_nextId (calls : List ShmemCall) (shared : Shared) :
    shared.nextId <= (shared.run calls).nextId := by
  induction calls generalizing shared with
  | nil => exact Nat.le_refl _
  | cons call rest ih => exact Nat.le_trans (shared.step_nextId call) (ih _)

/-- Whatever has happened since the start, the next region that is created has a window of
its own if the identifiers have not come as far as the user image, or have passed it and
the mmap arena and not come to the end of the user addresses. -/
theorem created_window_iff (credentials : Credentials) (calls : List ShmemCall) (len id : Nat)
    (frames : List Nat)
    (created : (((boot credentials).run calls).shmemCreate len frames).1 = some id) :
    OwnWindow id len <-> ((boot credentials).run calls).nextId <= 1048512 ∨
      1048540 < ((boot credentials).run calls).nextId ∧
        ((boot credentials).run calls).nextId <= 1048576 := by
  rcases shmemCreate_some created with ⟨rfl, some, fits⟩
  have positive : 1 <= ((boot credentials).run calls).nextId := run_nextId calls (boot credentials)
  rw [ownWindow_iff some fits]
  exact and_iff_right positive

/-- The first region has. -/
theorem first_window_own :
    (((boot someUser).run []).shmemCreate 4096 [9]).1 = some 1 ∧ OwnWindow 1 4096 := by
  have created : (((boot someUser).run []).shmemCreate 4096 [9]).1 = some 1 := by decide
  exact ⟨created, (created_window_iff someUser [] 4096 1 [9] created).mpr (.inl (by decide))⟩

/-- The current task has no region, and there are none. -/
structure Vacant (shared : Shared) : Prop where
  refs : holding shared.taskRefs shared.sched.current = []
  regions : ∀ slot ∈ shared.regions, slot = none

theorem Vacant.create (vacant : shared.Vacant) :
    shared.shmemCreate 4096 [9] = (some shared.nextId, { shared with
      nextId := shared.nextId + 1
      regions := (shared.regions ++
        replicate (shared.nextId + 1 - shared.regions.length) none).set shared.nextId
          (some ⟨[9], 1⟩)
      taskRefs := gain shared.taskRefs shared.sched.current shared.nextId }) := by
  have few : shared.taskCanAddShmemPages shared.sched.current 1 = true := by
    simp [taskCanAddShmemPages, taskShmemPages, vacant.refs]
  have free : shared.allocatable [9] = true := by
    simp only [allocatable, all_cons, all_nil, Bool.and_true, Bool.and_eq_true, all_eq_true]
    refine ⟨by decide, fun slot listed => ?_⟩
    rw [vacant.regions slot listed]
    rfl
  simp [shmemCreate, few, free, retainTaskShmemRef]

/-- The task creates a region and gives it back with `exec`. -/
theorem Vacant.round (vacant : shared.Vacant) (image : Nat) :
    (shared.run [.create 4096 [9], .sched (.sysExec image)]).Vacant ∧
      (shared.run [.create 4096 [9], .sched (.sysExec image)]).nextId = shared.nextId + 1 := by
  have refs : holding (gain shared.taskRefs shared.sched.current shared.nextId)
      shared.sched.current = [shared.nextId] := by
    rw [holding_gain, if_pos rfl, vacant.refs]
    rfl
  have inside : shared.nextId < (shared.regions ++
      replicate (shared.nextId + 1 - shared.regions.length) none).length := by
    rw [length_append, length_replicate]
    omega
  simp only [run, foldl_cons, foldl_nil, step, vacant.create, schedStep, drops, Option.map_some,
    Option.getD_some, refs, releaseShmemRefs, releaseRef, regionAt_set inside, if_true]
  have same : ¬ shared.sched.tasks.length <
      (SchedCall.perform shared.sched (.sysExec image)).tasks.length := by
    simp [SchedCall.perform, SchedCall.effect, Scheduler.sysExec]
  refine ⟨⟨?_, ?_⟩, trivial⟩
  · rw [if_neg same]
    change holding (giveUp _ shared.sched.current) shared.sched.current = []
    rw [holding_giveUp, if_pos rfl]
  · intro slot listed
    rw [set_set] at listed
    rcases mem_or_eq_of_mem_set listed with old | free
    · rcases mem_append.mp old with earlier | padding
      · exact vacant.regions slot earlier
      · exact eq_of_mem_replicate padding
    · exact free

/-- A process creates a region and gives it back, time after time. -/
def recreates : Nat -> List ShmemCall
  | 0 => [.sched (.spawnElfProcess (some 4096) someUser 5 true none false),
      .sched (.schedule 0 0)]
  | count + 1 => recreates count ++ [.create 4096 [9], .sched (.sysExec (6 - count % 2))]

theorem recreates_vacant (count : Nat) : ((boot someUser).run (recreates count)).Vacant ∧
    ((boot someUser).run (recreates count)).nextId = count + 1 := by
  induction count with
  | zero => exact ⟨⟨by decide, by decide⟩, by decide⟩
  | succ count ih =>
    rcases ih.1.round (6 - count % 2) with ⟨vacant, next⟩
    rw [recreates, run, foldl_append]
    exact ⟨vacant, next.trans (congrArg Nat.succ ih.2)⟩

/-- The region with number 1048513 gets the window where the user image starts. -/
theorem region_on_user_image :
    (((boot someUser).run (recreates 1048512)).shmemCreate 4096 [9]).1 = some 1048513 ∧
      windowOf 1048513 = some userImageBase := by
  rcases recreates_vacant 1048512 with ⟨vacant, next⟩
  rw [vacant.create, next]
  exact ⟨rfl, windowOf_eq_some.mpr (by decide)⟩

end Shared

end CoolOs.Shmem
