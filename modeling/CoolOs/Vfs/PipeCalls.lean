import CoolOs.Vfs.CallMoves

namespace CoolOs.Vfs

open Queues VfsState

/-!
# Reference counts over runs

Calls of any tasks in any order.  The counters are exact for the descriptors in
the tables together with the descriptors that failed inheritances have lost.
As long as no inheritance meets an occupied place, nothing is lost.
-/

variable {taskId : Nat} {woken : List Nat} {id : Nat}

/-- The calls on the descriptor state.  Each is one step under its lock. -/
inductive VfsCall where
  | vfsOpen (taskId : Nat) (data : Option (List UInt8)) (admitted : Bool)
  | vfsOpenWrite (taskId : Nat) (path : List UInt8) (allowed : Bool)
  | vfsPipe (taskId : Nat) (admitted : Bool)
  | vfsDup (taskId fd : Nat)
  | vfsClose (taskId fd : Nat)
  | inheritFds (parentTask childTask : Nat) (mappings : List (Nat × Nat))
  | inheritAllFds (parentTask childTask : Nat)
  | dropTask (taskId : Nat)
  | vfsWrite (taskId fd : Nat) (buf : List UInt8) (reserved : Bool)
  | vfsReadPass (taskId fd bufLen len : Nat)
  | vfsRegisterPollWaiter (taskId fd : Nat) (events : UInt64)
  | vfsUnregisterPollWaiter (taskId fd : Nat)

namespace VfsCall

/-- The state after a call. -/
def perform (vfs : VfsState) : VfsCall -> VfsState
  | .vfsOpen taskId data admitted => (vfs.vfsOpen taskId data admitted).2
  | .vfsOpenWrite taskId path allowed => (vfs.vfsOpenWrite taskId path allowed).2
  | .vfsPipe taskId admitted => (vfs.vfsPipe taskId admitted).2
  | .vfsDup taskId fd => (vfs.vfsDup taskId fd).2
  | .vfsClose taskId fd => (vfs.vfsClose taskId fd).2
  | .inheritFds parentTask childTask mappings => (vfs.inheritFds parentTask childTask mappings).2
  | .inheritAllFds parentTask childTask => (vfs.inheritAllFds parentTask childTask).2
  | .dropTask taskId => (vfs.dropTask taskId).2
  | .vfsWrite taskId fd buf reserved => (vfs.vfsWrite taskId fd buf reserved).2
  | .vfsReadPass taskId fd bufLen len => (vfs.vfsReadPass taskId fd bufLen len).2
  | .vfsRegisterPollWaiter taskId fd events =>
    (vfs.vfsRegisterPollWaiter taskId fd taskId events).2
  | .vfsUnregisterPollWaiter taskId fd => vfs.vfsUnregisterPollWaiter taskId fd taskId

/-- The tasks a call wakes. -/
def wakes (vfs : VfsState) : VfsCall -> List Nat
  | .vfsClose taskId fd => (vfs.vfsClose taskId fd).1.wakeTasks
  | .dropTask taskId => (vfs.dropTask taskId).1.wakeTasks
  | .vfsWrite taskId fd buf reserved => (vfs.vfsWrite taskId fd buf reserved).1.2
  | .vfsReadPass taskId fd bufLen len =>
    match (vfs.vfsReadPass taskId fd bufLen len).1 with
    | .pipe _ wakeWriters => wakeWriters
    | _ => []
  | _ => []

/-- The task that makes the call. -/
def caller : VfsCall -> Nat
  | .vfsOpen taskId _ _ => taskId
  | .vfsOpenWrite taskId _ _ => taskId
  | .vfsPipe taskId _ => taskId
  | .vfsDup taskId _ => taskId
  | .vfsClose taskId _ => taskId
  | .inheritFds parentTask _ _ => parentTask
  | .inheritAllFds parentTask _ => parentTask
  | .dropTask taskId => taskId
  | .vfsWrite taskId _ _ _ => taskId
  | .vfsReadPass taskId _ _ _ => taskId
  | .vfsRegisterPollWaiter taskId _ _ => taskId
  | .vfsUnregisterPollWaiter taskId _ => taskId

/-- Whether the call is an inheritance that meets an occupied place: a
descriptor of the parent is to go where the child already has one. -/
def meetsOccupied (vfs : VfsState) : VfsCall -> Bool
  | .inheritFds parentTask childTask mappings =>
    collides parentTask childTask mappings
      ((vfs.ensureTask parentTask).ensureTask childTask)
  | .inheritAllFds parentTask childTask =>
    let vfs := (vfs.ensureTask parentTask).ensureTask childTask
    collidesAll childTask
      ((vfs.taskFds[parentTask]?.map TaskFdTable.entries).getD []).zipIdx vfs
  | _ => false

/-- The calls that change the data of an object and no descriptor. -/
def isData : VfsCall -> Bool
  | .vfsWrite _ _ _ _ => true
  | .vfsReadPass _ _ _ _ => true
  | .vfsRegisterPollWaiter _ _ _ => true
  | .vfsUnregisterPollWaiter _ _ => true
  | _ => false

/-- The slots a call does not empty. -/
def keeps (vfs : VfsState) : VfsCall -> Nat -> Nat -> Prop
  | .inheritFds _ _ _ => fun taskId fd => vfs.currentEntry taskId fd ≠ none
  | .inheritAllFds _ _ => fun taskId fd => vfs.currentEntry taskId fd ≠ none
  | call => fun taskId _ => taskId ≠ call.caller

/-- The kinds of objects a call creates. -/
def makes : VfsCall -> SharedKind -> Prop
  | .vfsOpen _ _ _ => fun kind => kind.isPipe = false
  | .vfsOpenWrite _ _ _ => fun kind => kind.isPipe = false
  | .vfsPipe _ _ => fun kind => kind = .pipe .new
  | _ => fun _ => False

end VfsCall

/-- All occupied slots are sources of what is in the tables. -/
theorem VfsState.sourced_occupied (vfs : VfsState) :
    VfsState.Sourced (fun taskId fd => vfs.currentEntry taskId fd ≠ none) vfs where
  occupied := fun _ _ kept => kept
  copies := by
    intro entry listed
    rcases mem_entries.mp listed with ⟨taskId, fd, present⟩
    exact ⟨taskId, fd, by rw [present]; exact Option.some_ne_none entry, present⟩

section

variable {vfs : VfsState} {lost : List LocalFd} {makes : SharedKind -> Prop}
  (parentTask childTask : Nat)

/-- Growing the tables first. -/
theorem ensureBoth_moves (keep : Nat -> Nat -> Prop) :
    Moves keep makes ⟨vfs, lost⟩ ⟨(vfs.ensureTask parentTask).ensureTask childTask, lost⟩ [] :=
  .quiet (.ensure vfs lost parentTask) (.single (.ensure _ lost childTask))

theorem ensureBoth_sourced : VfsState.Sourced (fun taskId fd => vfs.currentEntry taskId fd ≠ none)
    ((vfs.ensureTask parentTask).ensureTask childTask) := by
  have sourced := ((vfs.ensureTask parentTask).ensureTask childTask).sourced_occupied
  simp only [currentEntry_ensureTask] at sourced
  exact sourced

theorem inheritFds_moves (tallied : Tallied vfs.object (lost ++ vfs.entries))
    (mappings : List (Nat × Nat)) : ∃ more,
      Moves (fun taskId fd => vfs.currentEntry taskId fd ≠ none) makes ⟨vfs, lost⟩
        ⟨(vfs.inheritFds parentTask childTask mappings).2, more ++ lost⟩ [] ∧
      more.length =
        ((VfsCall.inheritFds parentTask childTask mappings).meetsOccupied vfs).toNat := by
  have ready := @ensureBoth_moves vfs lost makes parentTask childTask
    (fun taskId fd => vfs.currentEntry taskId fd ≠ none)
  rcases @inheritMappings_moves _ makes parentTask childTask mappings _ lost []
    (ready.tallied tallied) (ensureBoth_sourced parentTask childTask)
    (ensureTask_inTable _ (by decide)) (fun _ impossible => (nomatch impossible)) with
    ⟨more, moves, count⟩
  exact ⟨more, ready.trans moves, count⟩

theorem inheritAllFds_moves (tallied : Tallied vfs.object (lost ++ vfs.entries)) :
    ∃ more,
      Moves (fun taskId fd => vfs.currentEntry taskId fd ≠ none) makes ⟨vfs, lost⟩
        ⟨(vfs.inheritAllFds parentTask childTask).2, more ++ lost⟩ [] ∧
      more.length = ((VfsCall.inheritAllFds parentTask childTask).meetsOccupied vfs).toNat := by
  have ready := @ensureBoth_moves vfs lost makes parentTask childTask
    (fun taskId fd => vfs.currentEntry taskId fd ≠ none)
  have known (entry : LocalFd) (fd : Nat) (listed : (some entry, fd) ∈
      ((((vfs.ensureTask parentTask).ensureTask childTask).taskFds[parentTask]?.map
        TaskFdTable.entries).getD []).zipIdx) :
      entry ∈ ((vfs.ensureTask parentTask).ensureTask childTask).entries := by
    have present := List.mem_zipIdx_iff_getElem?.mp listed
    refine mem_entries.mpr ⟨parentTask, fd, ?_⟩
    rw [currentEntry]
    cases found : ((vfs.ensureTask parentTask).ensureTask childTask).taskFds[parentTask]? with
    | none =>
      rw [found] at present
      cases present
    | some table =>
      rw [found] at present
      change table.entry fd = some entry
      rw [TaskFdTable.entry]
      exact congrArg Option.join present
  rcases @inheritEntries_moves _ makes childTask _ _ lost [] (ready.tallied tallied)
    (ensureBoth_sourced parentTask childTask) known (ensureTask_inTable _ (by decide))
    (fun _ impossible => absurd impossible List.not_mem_nil) with ⟨more, moves, count⟩
  exact ⟨more, ready.trans moves, count⟩

end

variable {vfs : VfsState}

/-- Every call that handles descriptors is a sequence of moves. -/
theorem VfsCall.moves {lost : List LocalFd} (tallied : Tallied vfs.object (lost ++ vfs.entries))
    (call : VfsCall) (handles : call.isData = false) : ∃ more,
      Moves (call.keeps vfs) call.makes ⟨vfs, lost⟩ ⟨call.perform vfs, more ++ lost⟩
        (call.wakes vfs) ∧ more.length = (call.meetsOccupied vfs).toNat := by
  cases call with
  | vfsOpen taskId data admitted =>
    exact ⟨[], vfsOpen_moves lost (fun _ => rfl) vfs taskId data admitted, rfl⟩
  | vfsOpenWrite taskId path allowed =>
    exact ⟨[], vfsOpenWrite_moves lost (fun _ => rfl) vfs taskId path allowed, rfl⟩
  | vfsPipe taskId admitted =>
    have made : (VfsCall.vfsPipe taskId admitted).makes (.pipe .new) := rfl
    exact ⟨[], (vfsPipe_spec lost made vfs taskId admitted).1, rfl⟩
  | vfsDup taskId fd => exact ⟨[], vfsDup_moves lost tallied taskId fd, rfl⟩
  | vfsClose taskId fd =>
    exact ⟨[], vfsClose_moves lost vfs (fun kept => kept rfl), rfl⟩
  | inheritFds parentTask childTask mappings =>
    exact inheritFds_moves parentTask childTask tallied mappings
  | inheritAllFds parentTask childTask => exact inheritAllFds_moves parentTask childTask tallied
  | dropTask taskId =>
    exact ⟨[], dropTask_moves lost vfs (fun _ kept => kept rfl), rfl⟩
  | vfsWrite taskId fd buf reserved => cases handles
  | vfsReadPass taskId fd bufLen len => cases handles
  | vfsRegisterPollWaiter taskId fd events => cases handles
  | vfsUnregisterPollWaiter taskId fd => cases handles

/-- The state after a sequence of calls. -/
def runVfs (calls : List VfsCall) : VfsState := calls.foldl VfsCall.perform .new

/-!
## The calls on open objects

Reading, writing and waiting change the data of one object and no counter.
For each call: what it finds, what it leaves in the pipe, and whom it wakes.
-/

variable {pipe : Pipe}

/-- The pipe of an object, if it is one. -/
def pipeIn : Option SharedObject -> Option Pipe
  | some { refs := _, kind := .pipe pipe } => some pipe
  | _ => none

def VfsState.pipeAt (vfs : VfsState) (id : Nat) : Option Pipe := pipeIn (vfs.object id)

theorem pipeIn_eq_some {slot : Option SharedObject} :
    pipeIn slot = some pipe <-> ∃ shared, slot = some shared ∧
      shared.kind = .pipe pipe := by
  constructor
  · intro found
    cases slot with
    | none => cases found
    | some shared =>
      rcases shared with ⟨refs, kind⟩
      cases kind with
      | file file => cases found
      | pipe other => exact ⟨_, rfl, congrArg SharedKind.pipe (Option.some.inj found)⟩
  · rintro ⟨⟨refs, kind⟩, rfl, isPipe⟩
    subst isPipe
    rfl

theorem pipeAt_eq_some : vfs.pipeAt id = some pipe <-> ∃ shared, vfs.object id = some shared ∧
    shared.kind = .pipe pipe := pipeIn_eq_some

theorem pipeAt_eq_none :
    vfs.pipeAt id = none <-> vfs.object id = none ∨ ∃ shared file,
      vfs.object id = some shared ∧ shared.kind = .file file := by
  unfold pipeAt
  cases vfs.object id with
  | none => exact ⟨fun _ => .inl rfl, fun _ => rfl⟩
  | some shared =>
    rcases shared with ⟨refs, kind⟩
    cases kind with
    | file file => exact ⟨fun _ => .inr ⟨_, file, rfl, rfl⟩, fun _ => rfl⟩
    | pipe pipe =>
      constructor
      · intro impossible
        cases impossible
      · rintro (impossible | ⟨_, _, ⟨rfl⟩, impossible⟩)
        · cases impossible
        · cases impossible

namespace Pipe

/-- The pipe after a write; a write that moves bytes takes the waiting
readers. -/
def written (pipe : Pipe) (buf : List UInt8) : Pipe :=
  { pipe with
    ring := (pipe.ring.pushMany buf).2
    waitingReaders := if 0 < (pipe.ring.pushMany buf).1 then [] else pipe.waitingReaders }

/-- The pipe after a read; a read that moves bytes takes the waiting
writers. -/
def drained (pipe : Pipe) (count : Nat) : Pipe :=
  { pipe with
    ring := (pipe.ring.popMany count).2
    waitingWriters := if 0 < (pipe.ring.popMany count).1.length then [] else pipe.waitingWriters }

end Pipe

/-- A task starts to wait on a side of a pipe. -/
inductive EnterChange (taskId : Nat) (pipe : Pipe) : Pipe -> List Nat -> Prop
  | reader : EnterChange taskId pipe (pipe.addReaderWaiter taskId) []
  | writer : EnterChange taskId pipe (pipe.addWriterWaiter taskId) []

/-- A task starts or stops to wait on a pipe. -/
inductive WaitChange (taskId : Nat) (pipe : Pipe) : Pipe -> List Nat -> Prop
  | enter {after : Pipe} {woken : List Nat} (change : EnterChange taskId pipe after woken) :
      WaitChange taskId pipe after woken
  | leave : WaitChange taskId pipe (pipe.removeWaiter taskId) []

/-- What a call of a task can do to a pipe, through an end of the pipe, and the
tasks it wakes. -/
inductive PipeChange (taskId : Nat) (pipe : Pipe) : Pipe -> List Nat -> Prop
  | same : PipeChange taskId pipe pipe []
  | write (buf : List UInt8) (readable : pipe.readers ≠ 0) :
      PipeChange taskId pipe (pipe.written buf)
        (if 0 < (pipe.ring.pushMany buf).1 then pipe.waitingReaders else [])
  | read (count : Nat) (some : 0 < pipe.ring.len) :
      PipeChange taskId pipe (pipe.drained count)
        (if 0 < (pipe.ring.popMany count).1.length then pipe.waitingWriters else [])
  | wait {after : Pipe} {woken : List Nat} (change : WaitChange taskId pipe after woken) :
      PipeChange taskId pipe after woken

variable {after : Pipe}

theorem WaitChange.ring (change : WaitChange taskId pipe after woken) : after.ring = pipe.ring := by
  cases change with
  | enter change => cases change <;> rfl
  | leave => rfl

theorem PipeChange.counters (change : PipeChange taskId pipe after woken) :
    after.readers = pipe.readers ∧ after.writers = pipe.writers := by
  cases change with
  | same => exact ⟨rfl, rfl⟩
  | write buf readable => exact ⟨rfl, rfl⟩
  | read count some => exact ⟨rfl, rfl⟩
  | wait change =>
    cases change with
    | enter change => cases change <;> exact ⟨rfl, rfl⟩
    | leave => exact ⟨rfl, rfl⟩

/-- What a call that handles no descriptor does: nothing, a change of a file,
or one of the given changes to one pipe. -/
inductive Touch (vfs : VfsState) (changes : Pipe -> Pipe -> List Nat -> Prop) :
    VfsState -> List Nat -> Prop
  | same : Touch vfs changes vfs []
  | file {id : Nat} {shared : SharedObject} {file : OpenFile} (found : vfs.object id = some shared)
      (kind : shared.kind = .file file) (after : OpenFile) :
      Touch vfs changes (vfs.setFile id shared after) []
  | pipe {id : Nat} {shared : SharedObject} {pipe after : Pipe} {woken : List Nat}
      (found : vfs.object id = some shared) (kind : shared.kind = .pipe pipe)
      (change : changes pipe after woken) :
      Touch vfs changes (vfs.setPipe id shared after) woken

/-- No pipe changes. -/
def noChange (_ _ : Pipe) (_ : List Nat) : Prop := False

namespace Touch

variable {vfs after : VfsState} {changes others : Pipe -> Pipe -> List Nat -> Prop}

theorem mono (touch : Touch vfs changes after woken)
    (implied : ∀ pipe changed woken, changes pipe changed woken ->
      others pipe changed woken) : Touch vfs others after woken := by
  cases touch with
  | same => exact same
  | file found kind after => exact file found kind after
  | pipe found kind change => exact pipe found kind (implied _ _ _ change)

/-- Touching no pipe is allowed to every call. -/
theorem plain (touch : Touch vfs noChange after woken) : Touch vfs changes after woken :=
  touch.mono (fun _ _ _ impossible => impossible.elim)

theorem taskFds (touch : Touch vfs changes after woken) : after.taskFds = vfs.taskFds := by
  cases touch <;> rfl

theorem tallied (touch : Touch vfs (PipeChange taskId) after woken) {lost : List LocalFd}
    (tallied : Tallied vfs.object (lost ++ vfs.entries)) :
    Tallied after.object (lost ++ after.entries) := by
  rw [entries_congr touch.taskFds]
  cases touch with
  | same => exact tallied
  | file found kind after =>
    rw [setFile, object_setObject (object_lt found)]
    exact tallied.touch found (fun _ impossible => nomatch impossible)
  | pipe found kind change =>
    rw [setPipe, object_setObject (object_lt found)]
    refine tallied.touch found (fun _ same => ?_)
    cases same
    exact ⟨_, kind, change.counters.1, change.counters.2⟩

end Touch

variable {vfs : VfsState}

variable {fd : Nat} {shared : SharedObject} {call : VfsCall}

/-- A write through the write end of a pipe. -/
theorem vfsWrite_pipe (present : vfs.currentEntry taskId fd = some ⟨id, .pipeWrite⟩)
    (found : vfs.object id = some shared) (kind : shared.kind = .pipe pipe) (buf : List UInt8)
    (reserved : Bool) :
    vfs.vfsWrite taskId fd buf reserved =
      if pipe.readers = 0 then ((none, []), vfs)
      else
        ((some (pipe.ring.pushMany buf).1,
          if 0 < (pipe.ring.pushMany buf).1 then pipe.waitingReaders else []),
          vfs.setPipe id shared (pipe.written buf)) := by
  unfold vfsWrite
  simp only [present, found, kind]
  by_cases closed : pipe.readers = 0
  · rw [if_pos closed, if_pos closed]
  · rw [if_neg closed, if_neg closed]
    unfold Pipe.write Pipe.written Pipe.takeReaders
    by_cases moved : 0 < (pipe.ring.pushMany buf).1
    · simp only [if_pos moved]
    · simp only [if_neg moved]

/-- A write through anything but a write end changes no pipe. -/
theorem vfsWrite_plain (other : ∀ id, vfs.currentEntry taskId fd ≠ some ⟨id, .pipeWrite⟩)
    (buf : List UInt8) (reserved : Bool) :
    Touch vfs noChange (vfs.vfsWrite taskId fd buf reserved).2
      (vfs.vfsWrite taskId fd buf reserved).1.2 := by
  unfold vfsWrite
  split
  · exact .same
  · next entry present =>
    split
    · exact .same
    · next shared found =>
      split
      · next kind access =>
        split
        · exact .same
        · dsimp only
          split
          · exact .same
          · split
            · exact .same
            · exact .file found kind _
      · next kind access =>
        rcases entry with ⟨id, _⟩
        subst access
        exact absurd present (other id)
      · exact .same

theorem vfsWrite_touch (vfs : VfsState) (taskId fd : Nat) (buf : List UInt8) (reserved : Bool) :
    Touch vfs (PipeChange taskId) (vfs.vfsWrite taskId fd buf reserved).2
      (vfs.vfsWrite taskId fd buf reserved).1.2 := by
  by_cases writes : ∃ id, vfs.currentEntry taskId fd = some ⟨id, .pipeWrite⟩
  · rcases writes with ⟨id, present⟩
    cases found : vfs.pipeAt id with
    | none =>
      rw [vfsWrite, present]
      dsimp only
      rcases pipeAt_eq_none.mp found with missing | ⟨shared, file, found, kind⟩
      · rw [missing]
        exact .same
      · rw [found]
        dsimp only
        rw [kind]
        exact .same
    | some pipe =>
      rcases pipeAt_eq_some.mp found with ⟨shared, found, kind⟩
      rw [vfsWrite_pipe present found kind]
      split
      · exact .same
      · next readable => exact .pipe found kind (.write buf readable)
  · exact (vfsWrite_plain (fun id present => writes ⟨id, present⟩) buf reserved).plain

/-- What a pass of a read finds in a pipe, what it leaves there, and whom it
wakes. -/
theorem vfsReadPass_pipe (present : vfs.currentEntry taskId fd = some ⟨id, .pipeRead⟩)
    (found : vfs.object id = some shared) (kind : shared.kind = .pipe pipe) (bufLen len : Nat) :
    vfs.vfsReadPass taskId fd bufLen len =
      if 0 < pipe.ring.len then
        (.pipe (.data (pipe.ring.popMany (min len bufLen)).1)
          (if 0 < (pipe.ring.popMany (min len bufLen)).1.length then pipe.waitingWriters else []),
          vfs.setPipe id shared (pipe.drained (min len bufLen)))
      else if pipe.writers = 0 then (.pipe .eof [], vfs.setPipe id shared pipe)
      else (.pipe .wouldBlock [], vfs.setPipe id shared (pipe.addReaderWaiter taskId)) := by
  unfold vfsReadPass pipeRead
  simp only [present, found, kind]
  by_cases some : 0 < pipe.ring.len
  · simp only [if_pos some]
    unfold Pipe.read Pipe.drained Pipe.takeWriters
    by_cases moved : 0 < (pipe.ring.popMany (min len bufLen)).1.length
    · simp only [if_pos moved]
    · simp only [if_neg moved]
  · simp only [if_neg some]
    by_cases closed : pipe.writers = 0
    · simp only [if_pos closed]
    · simp only [if_neg closed]

/-- The tasks a pass of a read wakes. -/
def ReadPass.wakes : VfsState.ReadPass -> List Nat
  | .pipe _ wakeWriters => wakeWriters
  | _ => []

/-- A read through anything but a read end changes no pipe. -/
theorem vfsReadPass_plain (other : ∀ id, vfs.currentEntry taskId fd ≠ some ⟨id, .pipeRead⟩)
    (bufLen len : Nat) :
    Touch vfs noChange (vfs.vfsReadPass taskId fd bufLen len).2
      (ReadPass.wakes (vfs.vfsReadPass taskId fd bufLen len).1) := by
  unfold vfsReadPass
  split
  · exact .same
  · next entry present =>
    split
    · exact .same
    · next shared found =>
      split
      · next kind access => exact .file found kind _
      · next kind access =>
        rcases entry with ⟨id, _⟩
        subst access
        exact absurd present (other id)
      · exact .same

theorem vfsReadPass_touch (vfs : VfsState) (taskId fd bufLen len : Nat) :
    Touch vfs (PipeChange taskId) (vfs.vfsReadPass taskId fd bufLen len).2
      (ReadPass.wakes (vfs.vfsReadPass taskId fd bufLen len).1) := by
  by_cases reads : ∃ id, vfs.currentEntry taskId fd = some ⟨id, .pipeRead⟩
  · rcases reads with ⟨id, present⟩
    cases found : vfs.pipeAt id with
    | none =>
      rw [vfsReadPass, present]
      dsimp only
      rcases pipeAt_eq_none.mp found with missing | ⟨shared, file, found, kind⟩
      · rw [missing]
        exact .same
      · rw [found]
        dsimp only
        rw [kind]
        exact .same
    | some pipe =>
      rcases pipeAt_eq_some.mp found with ⟨shared, found, kind⟩
      rw [vfsReadPass_pipe present found kind]
      split
      · next some => exact .pipe found kind (.read _ some)
      · split
        · exact .pipe found kind .same
        · exact .pipe found kind (.wait (.enter .reader))
  · exact (vfsReadPass_plain (fun id present => reads ⟨id, present⟩) bufLen len).plain

theorem vfsRegisterPollWaiter_touch (vfs : VfsState) (owner fd taskId : Nat) (events : UInt64) :
    Touch vfs (EnterChange taskId) (vfs.vfsRegisterPollWaiter owner fd taskId events).2 [] := by
  unfold vfsRegisterPollWaiter
  split
  · exact .same
  · split
    · exact .same
    · next shared found =>
        split
        · next kind access =>
            split
            · exact .pipe found kind .reader
            · exact .same
        · next kind access =>
            dsimp only
            split
            · exact .pipe found kind .writer
            · exact .same
        · exact .same
        · exact .same

theorem vfsUnregisterPollWaiter_touch (vfs : VfsState) (owner fd taskId : Nat) :
    Touch vfs (WaitChange taskId) (vfs.vfsUnregisterPollWaiter owner fd taskId) [] := by
  unfold vfsUnregisterPollWaiter
  split
  · exact .same
  · split
    · exact .same
    · next shared found =>
        split
        · next kind => exact .pipe found kind .leave
        · exact .same

/-- Every call that handles no descriptor is a touch. -/
theorem VfsCall.touch (vfs : VfsState) (call : VfsCall) (data : call.isData = true) :
    Touch vfs (PipeChange call.caller) (call.perform vfs) (call.wakes vfs) := by
  cases call with
  | vfsWrite taskId fd buf reserved => exact vfsWrite_touch vfs taskId fd buf reserved
  | vfsReadPass taskId fd bufLen len =>
    have touch := vfsReadPass_touch vfs taskId fd bufLen len
    exact touch
  | vfsRegisterPollWaiter taskId fd events =>
    exact (vfsRegisterPollWaiter_touch vfs taskId fd taskId events).mono
      (fun _ _ _ change => .wait (.enter change))
  | vfsUnregisterPollWaiter taskId fd =>
    exact (vfsUnregisterPollWaiter_touch vfs taskId fd taskId).mono
      (fun _ _ _ change => .wait change)
  | _ => cases data

/-!
## The counters over whole runs

A descriptor that is lost stays counted for ever.  The counters are exact after
every run in which no inheritance meets an occupied place, and a single such
inheritance makes them wrong.
-/

/-- One call: the counters stay exact for the tables and the lost descriptors,
and one more descriptor is lost exactly if the call meets an occupied place. -/
theorem VfsCall.perform_tallied {lost : List LocalFd}
    (tallied : Tallied vfs.object (lost ++ vfs.entries)) (call : VfsCall) : ∃ more,
      Tallied (call.perform vfs).object ((more ++ lost) ++ (call.perform vfs).entries) ∧
        more.length = (call.meetsOccupied vfs).toNat := by
  cases data : call.isData with
  | false =>
    rcases call.moves tallied data with ⟨more, moves, count⟩
    exact ⟨more, moves.tallied tallied, count⟩
  | true =>
    refine ⟨[], (call.touch vfs data).tallied tallied, ?_⟩
    cases call with
    | vfsWrite taskId fd buf reserved => rfl
    | vfsReadPass taskId fd bufLen len => rfl
    | vfsRegisterPollWaiter taskId fd events => rfl
    | vfsUnregisterPollWaiter taskId fd => rfl
    | _ => cases data

theorem new_tallied : Tallied VfsState.new.object VfsState.new.entries :=
  fun _ => talliedAt_none.mpr rfl

/-- No call of the run is an inheritance that meets an occupied place. -/
def careful (vfs : VfsState) : List VfsCall -> Bool
  | [] => true
  | call :: rest => !call.meetsOccupied vfs && careful (call.perform vfs) rest

theorem VfsCall.perform_exact (exact : Tallied vfs.object vfs.entries)
    (free : call.meetsOccupied vfs = false) :
    Tallied (call.perform vfs).object (call.perform vfs).entries := by
  rcases @VfsCall.perform_tallied vfs [] exact call with ⟨more, tallied, count⟩
  rw [free] at count
  rw [List.length_eq_zero_iff.mp count] at tallied
  exact tallied

/-- An inheritance that meets an occupied place leaves the counters wrong. -/
theorem VfsCall.perform_inexact (exact : Tallied vfs.object vfs.entries)
    (meets : call.meetsOccupied vfs = true) :
    ¬ Tallied (call.perform vfs).object (call.perform vfs).entries := by
  intro wrong
  rcases @VfsCall.perform_tallied vfs [] exact call with ⟨more, tallied, count⟩
  rw [meets] at count
  rcases List.length_eq_one_iff.mp count with ⟨entry, rfl⟩
  rcases tallied.found List.mem_cons_self with ⟨shared, found⟩
  have counted := (tallied entry.object).refs shared found
  have listed := (wrong entry.object).refs shared found
  rw [List.append_nil, List.singleton_append, pointing_cons_self] at counted
  omega

/-- In every run whose inheritances meet no occupied place, the counters of
every object are exact: its references, the ends of a pipe, and whether its
slot is taken. -/
theorem runVfs_exact {calls : List VfsCall} (free : careful .new calls = true) :
    Tallied (runVfs calls).object (runVfs calls).entries := by
  have general (rest : List VfsCall) (vfs : VfsState) (exact : Tallied vfs.object vfs.entries)
      (free : careful vfs rest = true) :
      Tallied (rest.foldl VfsCall.perform vfs).object (rest.foldl VfsCall.perform vfs).entries := by
    induction rest generalizing vfs with
    | nil => exact exact
    | cons call rest ih =>
      rw [careful, Bool.and_eq_true, Bool.not_eq_true'] at free
      exact ih _ (VfsCall.perform_exact exact free.1) free.2
  exact general calls .new new_tallied free

theorem runVfs_exact_shared :
    careful .new [.vfsPipe 0 true, .inheritFds 0 1 [(3, 0), (4, 1)], .vfsClose 0 4] = true ∧
      Tallied (runVfs [.vfsPipe 0 true, .inheritFds 0 1 [(3, 0), (4, 1)], .vfsClose 0 4]).object
        (runVfs [.vfsPipe 0 true, .inheritFds 0 1 [(3, 0), (4, 1)], .vfsClose 0 4]).entries :=
  ⟨by decide, runVfs_exact (by decide)⟩

/-- One descriptor inherited to the same place twice.  The second copy meets its slot taken and
everything is undone, but one count stays: the pipe has three references and two readers, while
the tables hold two descriptors of it. -/
theorem inheritFds_twice_leaks :
    ¬ Tallied (runVfs [.vfsPipe 0 true, .inheritFds 0 1 [(3, 4), (3, 4)]]).object
      (runVfs [.vfsPipe 0 true, .inheritFds 0 1 [(3, 4), (3, 4)]]).entries := by
  have free : (VfsCall.vfsPipe 0 true).meetsOccupied .new = false := rfl
  have meets : (VfsCall.inheritFds 0 1 [(3, 4), (3, 4)]).meetsOccupied
      ((VfsCall.vfsPipe 0 true).perform .new) = true := by decide
  exact VfsCall.perform_inexact (VfsCall.perform_exact new_tallied free) meets

end CoolOs.Vfs
