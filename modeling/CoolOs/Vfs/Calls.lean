import CoolOs.Queues.Ring

namespace CoolOs.Vfs

open Queues

/-!
# Descriptors, shared objects and pipes

Each task has a small table of descriptors that point at shared open objects:
files and pipes.  An object counts the descriptors that point at it, and a pipe
also counts its read and write ends.  A task identifier stands for the current
task of a call, and a refused call (`usize::MAX` in the source) returns `none`.
-/

@[simp] abbrev maxFds : Nat := 16
@[simp] abbrev pipeSize : Nat := 512

scoped instance pipe_nonzero : NeZero pipeSize := ⟨by decide⟩

/-- `evented::add_waiter`. -/
def addWaiter (waiters : List Nat) (taskId : Nat) : List Nat :=
  if taskId ∈ waiters then waiters else waiters ++ [taskId]

/-- `evented::remove_waiter`. -/
def removeWaiter (waiters : List Nat) (taskId : Nat) : List Nat :=
  waiters.filter (fun waiter => waiter != taskId)

structure OpenFile where
  path : Option (List UInt8)
  data : List UInt8
  offset : Nat
  writable : Bool
  dirty : Bool

/-- A pipe: the buffer with its two indices and its length, the numbers of
ends, and the tasks that wait. -/
structure Pipe where
  ring : Ring UInt8 pipeSize
  readers : Nat
  writers : Nat
  waitingReaders : List Nat
  waitingWriters : List Nat

variable (pipe : Pipe)

namespace Pipe

def new : Pipe where
  ring := .empty 0
  readers := 0
  writers := 0
  waitingReaders := []
  waitingWriters := []

/-- Read into a buffer; returns the bytes. -/
def read (outLen len : Nat) : List UInt8 × Pipe :=
  let (bytes, ring) := pipe.ring.popMany (min len outLen)
  (bytes, { pipe with ring := ring })

/-- Write as much of the input as fits; returns how much. -/
def write (input : List UInt8) : Nat × Pipe :=
  let (count, ring) := pipe.ring.pushMany input
  (count, { pipe with ring := ring })

def addReaderWaiter (taskId : Nat) : Pipe :=
  { pipe with waitingReaders := addWaiter pipe.waitingReaders taskId }

def addWriterWaiter (taskId : Nat) : Pipe :=
  { pipe with waitingWriters := addWaiter pipe.waitingWriters taskId }

def removeWaiter (taskId : Nat) : Pipe :=
  { pipe with
    waitingReaders := Vfs.removeWaiter pipe.waitingReaders taskId
    waitingWriters := Vfs.removeWaiter pipe.waitingWriters taskId }

def takeReaders : List Nat × Pipe :=
  (pipe.waitingReaders, { pipe with waitingReaders := [] })

def takeWriters : List Nat × Pipe :=
  (pipe.waitingWriters, { pipe with waitingWriters := [] })

end Pipe

inductive SharedKind where
  | file (file : OpenFile)
  | pipe (pipe : Pipe)

structure SharedObject where
  refs : Nat
  kind : SharedKind

inductive FdAccess where
  | file
  | pipeRead
  | pipeWrite
  deriving DecidableEq

structure LocalFd where
  object : Nat
  access : FdAccess
  deriving DecidableEq

/-- A path and the data to write there when a dirty file is dropped. -/
abbrev Commit := List UInt8 × List UInt8

structure ReleaseEvent where
  wakeTasks : List Nat
  commit : Option Commit

/-- Count one more descriptor. -/
def SharedObject.retain (object : SharedObject) (access : FdAccess) : SharedObject where
  refs := object.refs + 1
  kind :=
    match object.kind, access with
    | .pipe pipe, .pipeRead => .pipe { pipe with readers := pipe.readers + 1 }
    | .pipe pipe, .pipeWrite => .pipe { pipe with writers := pipe.writers + 1 }
    | kind, _ => kind

/-- A read end of a pipe goes.  With the last one, the waiting writers are
woken and the waiting readers are forgotten. -/
def Pipe.releaseReader : List Nat × Pipe :=
  let pipe := { pipe with readers := pipe.readers - 1 }
  if pipe.readers = 0 then
    let (woken, pipe) := pipe.takeWriters
    (woken, { pipe with waitingReaders := [] })
  else ([], pipe)

/-- A write end of a pipe goes.  With the last one, the waiting readers are
woken. -/
def Pipe.releaseWriter : List Nat × Pipe :=
  let pipe := { pipe with writers := pipe.writers - 1 }
  if pipe.writers = 0 then pipe.takeReaders else ([], pipe)

/-- Count one descriptor less; returns the tasks to wake. -/
def SharedObject.release (object : SharedObject) (access : FdAccess) : List Nat × SharedObject :=
  let refs := object.refs - 1
  match object.kind, access with
  | .pipe pipe, .pipeRead =>
    (pipe.releaseReader.1, { refs := refs, kind := .pipe pipe.releaseReader.2 })
  | .pipe pipe, .pipeWrite =>
    (pipe.releaseWriter.1, { refs := refs, kind := .pipe pipe.releaseWriter.2 })
  | kind, _ => ([], { refs := refs, kind := kind })

/-- What has to be written when the object is dropped. -/
def SharedObject.commit (object : SharedObject) : Option Commit :=
  match object.kind with
  | .file file =>
    if file.writable && file.dirty then file.path.map (fun path => (path, file.data)) else none
  | .pipe _ => none

/-- The descriptors of one task. -/
structure TaskFdTable where
  entries : List (Option LocalFd)
  full : entries.length = maxFds

namespace TaskFdTable

def new : TaskFdTable where
  entries := List.replicate maxFds none
  full := List.length_replicate

def set (table : TaskFdTable) (fd : Nat) (entry : Option LocalFd) : TaskFdTable where
  entries := table.entries.set fd entry
  full := List.length_set.trans table.full

def entry (table : TaskFdTable) (fd : Nat) : Option LocalFd := table.entries[fd]?.join

/-- The search of `alloc_fd`: the first free descriptor from 3 on. -/
def freeFd (table : TaskFdTable) : Option Nat :=
  (List.range' 3 (maxFds - 3)).find? (fun fd => (table.entry fd).isNone)

def freeSlots (table : TaskFdTable) : Nat :=
  (table.entries.drop 3).countP Option.isNone

end TaskFdTable

structure VfsState where
  objects : List (Option SharedObject)
  taskFds : List TaskFdTable
  taskShmemRefs : List (List Nat)

variable (vfs : VfsState)

namespace VfsState

def new : VfsState where
  objects := []
  taskFds := []
  taskShmemRefs := []

/-- Grow the tables until the task has one. -/
def ensureTask (taskId : Nat) : VfsState :=
  { vfs with
    taskFds := vfs.taskFds ++ List.replicate (taskId + 1 - vfs.taskFds.length) .new
    taskShmemRefs :=
      vfs.taskShmemRefs ++ List.replicate (taskId + 1 - vfs.taskShmemRefs.length) [] }

def object (id : Nat) : Option SharedObject := vfs.objects[id]?.join

def setObject (id : Nat) (object : Option SharedObject) : VfsState :=
  { vfs with objects := vfs.objects.set id object }

/-- Take the first free slot, or a new one; the object starts without
references. -/
def allocObject (kind : SharedKind) : Nat × VfsState :=
  match vfs.objects.findIdx? Option.isNone with
  | some id => (id, vfs.setObject id (some { refs := 0, kind := kind }))
  | none =>
    (vfs.objects.length,
      { vfs with objects := vfs.objects ++ [some { refs := 0, kind := kind }] })

def currentEntry (taskId fd : Nat) : Option LocalFd :=
  vfs.taskFds[taskId]?.bind (fun table => table.entry fd)

def setEntry (taskId fd : Nat) (entry : Option LocalFd) : VfsState :=
  { vfs with taskFds := vfs.taskFds.modify taskId (fun table => table.set fd entry) }

/-- The free descriptors of a task; a task without a table has none. -/
def freeSlots (taskId : Nat) : Nat :=
  (vfs.taskFds[taskId]?.map TaskFdTable.freeSlots).getD 0

/-- `TaskFdTable::alloc_fd` on the table of a task. -/
def allocFd (taskId : Nat) (entry : LocalFd) : Option Nat × VfsState :=
  match vfs.taskFds[taskId]?.bind TaskFdTable.freeFd with
  | none => (none, vfs)
  | some fd => (some fd, vfs.setEntry taskId fd (some entry))

/-- `TaskFdTable::install_fd` on the table of a task. -/
def installFd (taskId fd : Nat) (entry : LocalFd) : Bool × VfsState :=
  if maxFds <= fd ∨ (vfs.currentEntry taskId fd).isSome then (false, vfs)
  else (true, vfs.setEntry taskId fd (some entry))

def retainFd (entry : LocalFd) : Bool × VfsState :=
  match vfs.object entry.object with
  | none => (false, vfs)
  | some object => (true, vfs.setObject entry.object (some (object.retain entry.access)))

/-- Drop one descriptor, and the object with its last one. -/
def releaseFd (entry : LocalFd) : ReleaseEvent × VfsState :=
  match vfs.object entry.object with
  | none => ({ wakeTasks := [], commit := none }, vfs)
  | some object =>
    let (wakeTasks, released) := object.release entry.access
    if released.refs = 0 then
      ({ wakeTasks := wakeTasks, commit := released.commit }, vfs.setObject entry.object none)
    else
      ({ wakeTasks := wakeTasks, commit := none }, vfs.setObject entry.object (some released))

end VfsState

/-!
## The descriptor calls

Every call takes the lock of the descriptor state once, or once for each pass
of its loop, so the parts under the lock are the atomic steps.  What a call
learns elsewhere is a parameter: whether an allocation is admitted, what a file
holds, whether a path may be written.
-/

@[simp] abbrev eventRead : UInt64 := 1
@[simp] abbrev eventWrite : UInt64 := 2
@[simp] abbrev eventHangup : UInt64 := 4
@[simp] abbrev eventError : UInt64 := 8
@[simp] abbrev eventChild : UInt64 := 16

variable (vfs : VfsState) (taskId : Nat)

namespace VfsState

/-- The common part of `vfs_open` and `vfs_open_write`. -/
def openObject (file : OpenFile) : Option Nat × VfsState :=
  let vfs := vfs.ensureTask taskId
  if vfs.freeSlots taskId = 0 then (none, vfs)
  else
    let (object, vfs) := vfs.allocObject (.file file)
    let entry : LocalFd := { object := object, access := .file }
    match vfs.retainFd entry with
    | (false, vfs) => (none, vfs)
    | (true, vfs) =>
      match vfs.allocFd taskId entry with
      | (some fd, vfs) => (some fd, vfs)
      | (none, vfs) => (none, (vfs.releaseFd entry).2)

/-- Open a file for reading; `data` is what `vfs_read_file` returns. -/
def vfsOpen (data : Option (List UInt8)) (admitted : Bool) : Option Nat × VfsState :=
  match data with
  | none => (none, vfs)
  | some data =>
    if admitted then
      vfs.openObject taskId
        { path := none, data := data, offset := 0, writable := false, dirty := false }
    else (none, vfs)

/-- Open a normalized path for writing; `allowed` is the outcome of
`check_safe_write_access`. -/
def vfsOpenWrite (path : List UInt8) (allowed : Bool) : Option Nat × VfsState :=
  if allowed then
    vfs.openObject taskId
      { path := some path, data := [], offset := 0, writable := true, dirty := false }
  else (none, vfs)

def vfsPipe (admitted : Bool) : Option (Nat × Nat) × VfsState :=
  if !admitted then (none, vfs)
  else
    let vfs := vfs.ensureTask taskId
    if vfs.freeSlots taskId < 2 then (none, vfs)
    else
      let (object, vfs) := vfs.allocObject (.pipe .new)
      let readEntry : LocalFd := { object := object, access := .pipeRead }
      let writeEntry : LocalFd := { object := object, access := .pipeWrite }
      match vfs.retainFd readEntry with
      | (false, vfs) => (none, vfs)
      | (true, vfs) =>
        match vfs.allocFd taskId readEntry with
        | (none, vfs) => (none, (vfs.releaseFd readEntry).2)
        | (some readFd, vfs) =>
          match vfs.retainFd writeEntry with
          | (false, vfs) =>
            (none, ((vfs.setEntry taskId readFd none).releaseFd readEntry).2)
          | (true, vfs) =>
            match vfs.allocFd taskId writeEntry with
            | (some writeFd, vfs) => (some (readFd, writeFd), vfs)
            | (none, vfs) =>
              let vfs := ((vfs.setEntry taskId readFd none).releaseFd readEntry).2
              (none, (vfs.releaseFd writeEntry).2)

def vfsDup (taskId fd : Nat) : Option Nat × VfsState :=
  let vfs := vfs.ensureTask taskId
  if vfs.freeSlots taskId = 0 then (none, vfs)
  else
    match vfs.currentEntry taskId fd with
    | none => (none, vfs)
    | some entry =>
      match vfs.retainFd entry with
      | (false, vfs) => (none, vfs)
      | (true, vfs) =>
        match vfs.allocFd taskId entry with
        | (some newFd, vfs) => (some newFd, vfs)
        | (none, vfs) => (none, (vfs.releaseFd entry).2)

/-- Close a descriptor; the event says which tasks are woken and which file is
written. -/
def vfsClose (taskId fd : Nat) : ReleaseEvent × VfsState :=
  match vfs.currentEntry taskId fd with
  | none => ({ wakeTasks := [], commit := none }, vfs)
  | some entry => (vfs.setEntry taskId fd none).releaseFd entry

/-- The loop of `drop_task` over the descriptors of a task. -/
def dropFds (taskId : Nat) : List Nat -> VfsState -> (List Nat × List Commit) × VfsState
  | [], vfs => (([], []), vfs)
  | fd :: rest, vfs =>
    match vfs.currentEntry taskId fd with
    | none => dropFds taskId rest vfs
    | some entry =>
      let (event, vfs) := (vfs.setEntry taskId fd none).releaseFd entry
      let ((wakeTasks, commits), vfs) := dropFds taskId rest vfs
      ((event.wakeTasks ++ wakeTasks, event.commit.toList ++ commits), vfs)

/-- What the end of a task leaves to do outside the lock. -/
structure DropEvent where
  wakeTasks : List Nat
  commits : List Commit
  shmemRefs : List Nat

def dropTask : DropEvent × VfsState :=
  if vfs.taskFds.length <= taskId then ({ wakeTasks := [], commits := [], shmemRefs := [] }, vfs)
  else
    let ((wakeTasks, commits), vfs) := dropFds taskId (List.range maxFds) vfs
    ({ wakeTasks := wakeTasks, commits := commits
       shmemRefs := vfs.taskShmemRefs.getD taskId [] },
      { vfs with taskShmemRefs := vfs.taskShmemRefs.set taskId [] })

/-- Undo the descriptors installed so far. -/
def rollback (childTask : Nat) : List Nat -> VfsState -> VfsState
  | [], vfs => vfs
  | fd :: rest, vfs =>
    match vfs.currentEntry childTask fd with
    | none => rollback childTask rest vfs
    | some entry => rollback childTask rest ((vfs.setEntry childTask fd none).releaseFd entry).2

/-- A descriptor that could not be installed is given back only if its place is
empty. -/
def abandon (childTask childFd : Nat) (entry : LocalFd) (installed : List Nat) : VfsState :=
  rollback childTask installed
    (if (vfs.currentEntry childTask childFd).isNone then (vfs.releaseFd entry).2 else vfs)

/-- One descriptor of the two inheriting loops. -/
def inheritEntry (childTask childFd : Nat) (entry : LocalFd)
    (installed : List Nat) : Bool × VfsState :=
  match vfs.retainFd entry with
  | (false, vfs) => (false, vfs.abandon childTask childFd entry installed)
  | (true, vfs) =>
    match vfs.installFd childTask childFd entry with
    | (false, vfs) => (false, vfs.abandon childTask childFd entry installed)
    | (true, vfs) => (true, vfs)

/-- The loop of `inherit_fds`. -/
def inheritMappings (parentTask childTask : Nat) :
    List (Nat × Nat) -> List Nat -> VfsState -> Bool × VfsState
  | [], _, vfs => (true, vfs)
  | (parentFd, childFd) :: rest, installed, vfs =>
    match vfs.currentEntry parentTask parentFd with
    | none => (false, rollback childTask installed vfs)
    | some entry =>
      match vfs.inheritEntry childTask childFd entry installed with
      | (false, vfs) => (false, vfs)
      | (true, vfs) =>
        inheritMappings parentTask childTask rest (installed ++ [childFd]) vfs

def inheritFds (parentTask childTask : Nat) (mappings : List (Nat × Nat)) : Bool × VfsState :=
  inheritMappings parentTask childTask mappings [] ((vfs.ensureTask parentTask).ensureTask childTask)

/-- The loop of `inherit_all_fds` over the descriptors the parent has. -/
def inheritEntries (childTask : Nat) :
    List (Option LocalFd × Nat) -> List Nat -> VfsState -> Bool × VfsState
  | [], _, vfs => (true, vfs)
  | (none, _) :: rest, installed, vfs => inheritEntries childTask rest installed vfs
  | (some entry, fd) :: rest, installed, vfs =>
    match vfs.inheritEntry childTask fd entry installed with
    | (false, vfs) => (false, vfs)
    | (true, vfs) => inheritEntries childTask rest (installed ++ [fd]) vfs

def inheritAllFds (parentTask childTask : Nat) : Bool × VfsState :=
  let vfs := (vfs.ensureTask parentTask).ensureTask childTask
  let parentEntries := (vfs.taskFds[parentTask]?.map TaskFdTable.entries).getD []
  inheritEntries childTask parentEntries.zipIdx [] vfs

/-- Replace the pipe of an object. -/
def setPipe (id : Nat) (object : SharedObject) (pipe : Pipe) : VfsState :=
  vfs.setObject id (some { object with kind := .pipe pipe })

def setFile (id : Nat) (object : SharedObject) (file : OpenFile) : VfsState :=
  vfs.setObject id (some { object with kind := .file file })

/-- Write to a descriptor; `reserved` is whether a file can grow.  Returns the
number of bytes and the tasks to wake. -/
def vfsWrite (taskId fd : Nat) (buf : List UInt8) (reserved : Bool) :
    (Option Nat × List Nat) × VfsState :=
  match vfs.currentEntry taskId fd with
  | none => ((none, []), vfs)
  | some entry =>
    match vfs.object entry.object with
    | none => ((none, []), vfs)
    | some object =>
      match object.kind, entry.access with
      | .file file, .file =>
        if !file.writable then ((none, []), vfs)
        else
          let stop := file.offset + buf.length
          if 2 ^ 64 <= stop then ((none, []), vfs)
          else if file.data.length < stop ∧ !reserved then ((none, []), vfs)
          else
            let data := file.data ++ List.replicate (stop - file.data.length) 0
            let data := data.take file.offset ++ buf ++ data.drop stop
            ((some buf.length, []), vfs.setFile entry.object object
              { file with data := data, offset := stop, dirty := true })
      | .pipe pipe, .pipeWrite =>
        if pipe.readers = 0 then ((none, []), vfs)
        else
          let (count, pipe) := pipe.write buf
          if 0 < count then
            let (woken, pipe) := pipe.takeReaders
            ((some count, woken), vfs.setPipe entry.object object pipe)
          else ((some count, []), vfs.setPipe entry.object object pipe)
      | _, _ => ((none, []), vfs)

inductive PipeReadResult where
  | data (bytes : List UInt8)
  | wouldBlock
  | eof

def pipeRead (pipe : Pipe) (bufLen len : Nat) : PipeReadResult × Pipe :=
  if 0 < pipe.ring.len then
    let (bytes, pipe) := pipe.read bufLen len
    (.data bytes, pipe)
  else if pipe.writers = 0 then (.eof, pipe)
  else (.wouldBlock, pipe)

/-- The outcome of one pass of `vfs_read_blocking`. -/
inductive ReadPass where
  | refused
  | file (bytes : List UInt8)
  | pipe (result : PipeReadResult) (wakeWriters : List Nat)

/-- One pass of `vfs_read_blocking`, the part under the lock. -/
def vfsReadPass (taskId fd bufLen len : Nat) : ReadPass × VfsState :=
  match vfs.currentEntry taskId fd with
  | none => (.refused, vfs)
  | some entry =>
    match vfs.object entry.object with
    | none => (.refused, vfs)
    | some object =>
      match object.kind, entry.access with
      | .file file, .file =>
        let toRead := min (min len (file.data.length - file.offset)) bufLen
        (.file ((file.data.drop file.offset).take toRead),
          vfs.setFile entry.object object { file with offset := file.offset + toRead })
      | .pipe pipe, .pipeRead =>
        match pipeRead pipe bufLen len with
        | (.wouldBlock, pipe) =>
          (.pipe .wouldBlock [], vfs.setPipe entry.object object (pipe.addReaderWaiter taskId))
        | (.eof, pipe) => (.pipe .eof [], vfs.setPipe entry.object object pipe)
        | (.data bytes, pipe) =>
          if 0 < bytes.length then
            let (woken, pipe) := pipe.takeWriters
            (.pipe (.data bytes) woken, vfs.setPipe entry.object object pipe)
          else (.pipe (.data bytes) [], vfs.setPipe entry.object object pipe)
      | _, _ => (.refused, vfs)

def vfsHasFd (taskId fd : Nat) : Bool := (vfs.currentEntry taskId fd).isSome

/-- What is ready on a descriptor.  A hangup is reported whatever was asked. -/
def vfsPollFd (taskId fd : Nat) (events : UInt64) : UInt64 :=
  match vfs.currentEntry taskId fd with
  | none => eventError
  | some entry =>
    match vfs.object entry.object with
    | none => eventError
    | some object =>
      match object.kind, entry.access with
      | .file file, .file =>
        (if events &&& eventRead != 0 then eventRead else 0) |||
          (if file.writable && events &&& eventWrite != 0 then eventWrite else 0)
      | .pipe pipe, .pipeRead =>
        (if events &&& eventRead != 0 && 0 < pipe.ring.len then eventRead else 0) |||
          (if pipe.writers = 0 then
            eventHangup ||| (if events &&& eventRead != 0 then eventRead else 0)
          else 0)
      | .pipe pipe, .pipeWrite =>
        if pipe.readers = 0 then eventHangup
        else if events &&& eventWrite != 0 && pipe.ring.len < pipeSize then eventWrite
        else 0
      | _, _ => eventError

/-- Register the owner of a descriptor as a waiter, for the events it asks
for. -/
def vfsRegisterPollWaiter (owner fd taskId : Nat) (events : UInt64) : Bool × VfsState :=
  match vfs.currentEntry owner fd with
  | none => (false, vfs)
  | some entry =>
    match vfs.object entry.object with
    | none => (false, vfs)
    | some object =>
      match object.kind, entry.access with
      | .pipe pipe, .pipeRead =>
        (true, if events &&& eventRead != 0 then
            vfs.setPipe entry.object object (pipe.addReaderWaiter taskId)
          else vfs)
      | .pipe pipe, .pipeWrite =>
        (true, if events &&& eventWrite != 0 then
            vfs.setPipe entry.object object (pipe.addWriterWaiter taskId)
          else vfs)
      | .file _, .file => (true, vfs)
      | _, _ => (false, vfs)

def vfsUnregisterPollWaiter (owner fd taskId : Nat) : VfsState :=
  match vfs.currentEntry owner fd with
  | none => vfs
  | some entry =>
    match vfs.object entry.object with
    | none => vfs
    | some object =>
      match object.kind with
      | .pipe pipe => vfs.setPipe entry.object object (pipe.removeWaiter taskId)
      | .file _ => vfs

end VfsState

end CoolOs.Vfs
