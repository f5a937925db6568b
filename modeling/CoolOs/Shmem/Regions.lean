import CoolOs.Sched.AddressSpaces

namespace CoolOs.Shmem

open Sched Tables

/-!
# Shared memory

Regions of frames that tasks create and map.  References are counted for each
task, and the pages are mapped in the address space of the task that is running.
-/

@[simp] abbrev maxShmemRegionBytes : Nat := 2 * 1024 * 1024
@[simp] abbrev maxShmemBytesPerTask : Nat := 8 * 1024 * 1024
@[simp] abbrev userShmemBase : Nat := 0x400000000000
@[simp] abbrev userShmemSlotSize : Nat := 64 * 1024 * 1024

structure SharedMemRegion where
  frames : List Nat
  refcount : Nat
  deriving DecidableEq

/-- One page of a shared-memory window. -/
structure Mapping where
  pml4 : Nat
  virt : Nat
  frame : Nat
  deriving DecidableEq

/-- The tasks, the regions with the next identifier, the references of each task and
the pages that are mapped. -/
structure Shared where
  sched : Scheduler
  regions : List (Option SharedMemRegion)
  nextId : Nat
  taskRefs : List (List Nat)
  mapped : List Mapping

namespace Shared

def boot (credentials : Credentials) : Shared where
  sched := .idle credentials
  regions := []
  nextId := 1
  taskRefs := [[]]
  mapped := []

end Shared

/-- The region at an identifier. -/
def regionAt (regions : List (Option SharedMemRegion)) (id : Nat) : Option SharedMemRegion :=
  regions[id]?.join

variable (shared : Shared)

namespace Shared

def taskShmemPages (taskId : Nat) : Nat :=
  ((holding shared.taskRefs taskId).filterMap (regionAt shared.regions)).map
    (fun region => region.frames.length) |>.sum

def taskCanAddShmemPages (taskId additionalPages : Nat) : Bool :=
  decide ((shared.taskShmemPages taskId + additionalPages) * 4096 <= maxShmemBytesPerTask)

/-- Whether the frame allocator can have handed out these frames. -/
def allocatable (frames : List Nat) : Bool :=
  decide frames.Nodup && frames.all (fun frame =>
    shared.regions.all (fun slot => slot.all (fun region => decide (frame ∉ region.frames))))

def retainTaskShmemRef (taskId id : Nat) : Shared :=
  { shared with taskRefs := gain shared.taskRefs taskId id }

/-- Create a region; `frames` is what the frame allocator gives. -/
def shmemCreate (len : Nat) (frames : List Nat) : Option Nat × Shared :=
  if len = 0 ∨ len > maxShmemRegionBytes then (none, shared)
  else
    let pages := (len + 4095) / 4096
    let taskId := shared.sched.current
    if shared.taskCanAddShmemPages taskId pages = false then (none, shared)
    else if frames.length ≠ pages ∨ shared.allocatable frames = false then (none, shared)
    else
      let id := shared.nextId
      let regions := shared.regions ++ List.replicate (id + 1 - shared.regions.length) none
      let shared := { shared with
        nextId := id + 1
        regions := regions.set id (some { frames := frames, refcount := 1 }) }
      (some id, shared.retainTaskShmemRef taskId id)

end Shared

/-- Map the frames one page after the other.  A page that is mapped already stays;
`tables` tells for which pages there is memory for the page tables. -/
def mapPages (tables : Nat -> Bool) (pml4 : Nat) :
    Nat -> List Nat -> List Mapping -> Bool × List Mapping
  | _, [], mapped => (true, mapped)
  | virt, frame :: rest, mapped =>
    if mapped.any (fun page => page.pml4 == pml4 && page.virt == virt) then
      mapPages tables pml4 (virt + 4096) rest mapped
    else if tables virt then
      mapPages tables pml4 (virt + 4096) rest (mapped ++ [⟨pml4, virt, frame⟩])
    else (false, mapped)

/-- The address of the window of an identifier, unless it overflows. -/
def windowOf (id : Nat) : Option Nat :=
  if id = 0 then none
  else if (id - 1) * userShmemSlotSize ≥ 2 ^ 64 then none
  else if userShmemBase + (id - 1) * userShmemSlotSize ≥ 2 ^ 64 then none
  else some (userShmemBase + (id - 1) * userShmemSlotSize)

namespace Shared

/-- Map a region into the address space that is loaded, that of the current task. -/
def shmemMap (id : Nat) (tables : Nat -> Bool) : Option Nat × Shared :=
  match windowOf id, regionAt shared.regions id, shared.sched.pml4Of shared.sched.current with
  | some addr, some region, some pml4 =>
    let taskId := shared.sched.current
    if shared.taskCanAddShmemPages taskId region.frames.length = false then (none, shared)
    else
      match mapPages tables pml4 addr region.frames shared.mapped with
      | (false, mapped) => (none, { shared with mapped := mapped })
      | (true, mapped) =>
        let shared := { shared with
          mapped := mapped
          regions := shared.regions.set id (some { region with refcount := region.refcount + 1 }) }
        (some addr, shared.retainTaskShmemRef taskId id)
  | _, _, _ => (none, shared)

end Shared

/-- One reference is given back; the frames of a region without references are freed. -/
def releaseRef (state : List Nat × List (Option SharedMemRegion)) (id : Nat) :
    List Nat × List (Option SharedMemRegion) :=
  match regionAt state.2 id with
  | none => state
  | some region =>
    if region.refcount - 1 = 0 then (state.1 ++ region.frames, state.2.set id none)
    else (state.1, state.2.set id (some { region with refcount := region.refcount - 1 }))

def releaseShmemRefs (regions : List (Option SharedMemRegion)) (ids : List Nat) :
    List Nat × List (Option SharedMemRegion) :=
  ids.foldl releaseRef ([], regions)

/-- The task whose references a call of the scheduler gives back: `drop_task` at the
end of a task and `drop_task_shmem_refs` in `sys_exec`. -/
def drops (sched : Scheduler) (call : SchedCall) : Option Nat :=
  match call with
  | .sysExec _ => some sched.current
  | call => call.ends sched

inductive ShmemCall where
  | sched (call : SchedCall)
  | create (len : Nat) (frames : List Nat)
  | map (id : Nat) (tables : Nat -> Bool)

namespace Shared

/-- What a call of the scheduler does to shared memory.  The references of a dropped
task are released, a new task starts without any, and a new address space maps
nothing. -/
def schedStep (call : SchedCall) : List Nat × Shared :=
  let after := call.perform shared.sched
  let dropped := drops shared.sched call
  let released := releaseShmemRefs shared.regions ((dropped.map (holding shared.taskRefs)).getD [])
  let taskRefs := match dropped with
    | none => shared.taskRefs
    | some taskId => giveUp shared.taskRefs taskId
  let taskRefs :=
    if shared.sched.tasks.length < after.tasks.length then
      giveUp taskRefs shared.sched.tasks.length
    else taskRefs
  (released.1,
    { sched := after
      regions := released.2
      nextId := shared.nextId
      taskRefs := taskRefs
      mapped := shared.mapped.filter (fun page => decide (call.creates ≠ some page.pml4)) })

/-- One call, with the frames that `release_shmem_refs` frees. -/
def step : ShmemCall -> List Nat × Shared
  | .sched call => shared.schedStep call
  | .create len frames => ([], (shared.shmemCreate len frames).2)
  | .map id tables => ([], (shared.shmemMap id tables).2)

def run (calls : List ShmemCall) : Shared :=
  calls.foldl (fun shared call => (shared.step call).2) shared

end Shared

end CoolOs.Shmem
