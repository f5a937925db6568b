import CoolOs.Vfs.Traffic

namespace CoolOs.Vfs

open Queues List

/-!
# Polling

One pass of `sys_poll`: scan the descriptors, register the task with all of
them, scan again, and sleep if nothing is ready.  System calls run with
interrupts off, so a pass is one step of the system.  The sources other than
descriptors are asked through what they answer at a moment.
-/

variable {id : Nat}

@[simp] abbrev sourceFd : UInt64 := 1
@[simp] abbrev sourceSocket : UInt64 := 2
@[simp] abbrev sourceGui : UInt64 := 3
@[simp] abbrev sourceChild : UInt64 := 4
@[simp] abbrev sourceTty : UInt64 := 5

structure PollDesc where
  source : UInt64
  handle : UInt64
  events : UInt64
  revents : UInt64
  deriving DecidableEq

/-- What the other parts of the kernel answer, and the time. -/
structure Moment where
  ticks : UInt64
  currentTty : Option UInt64
  ttyReadiness : UInt64 -> UInt64
  ttyRegisters : UInt64 -> Bool
  socketRevents : UInt64 -> UInt64 -> UInt64
  socketRegisters : UInt64 -> UInt64 -> Bool
  guiReadiness : UInt64 -> Option UInt64
  guiRegisters : UInt64 -> Bool
  childRevents : UInt64 -> UInt64
  childRegisters : UInt64 -> Bool

/-- A hangup, an error and a child event are reported whatever was asked. -/
def normalizePollRevents (events raw : UInt64) : UInt64 :=
  (raw &&& events) ||| (raw &&& (eventHangup ||| eventError ||| eventChild))

namespace Moment

variable (now : Moment) (vfs : VfsState) (owner : Nat)

/-- The terminal that a handle names; zero names the one of the task. -/
def tty (handle : UInt64) : Option UInt64 :=
  if handle = 0 then now.currentTty else some handle

def pollTtyRevents (handle events : UInt64) : UInt64 :=
  if events &&& eventRead = 0 then 0
  else
    match now.tty handle with
    | some tty => now.ttyReadiness tty
    | none => eventError

def pollFdRevents (fd events : UInt64) : UInt64 :=
  if fd = 0 ∧ vfs.vfsHasFd owner 0 = false then
    match now.currentTty with
    | some tty => now.pollTtyRevents tty events
    | none => eventError
  else if (fd = 1 ∨ fd = 2) ∧ vfs.vfsHasFd owner fd.toNat = false then
    if events &&& eventWrite ≠ 0 then eventWrite else 0
  else vfs.vfsPollFd owner fd.toNat events

/-- What is ready, and whether the window manager was busy. -/
def pollDescRevents (desc : PollDesc) : UInt64 × Bool :=
  if desc.source = sourceFd then (now.pollFdRevents vfs owner desc.handle desc.events, false)
  else if desc.source = sourceSocket then (now.socketRevents desc.handle desc.events, false)
  else if desc.source = sourceGui then
    match now.guiReadiness desc.handle with
    | some revents => (revents, false)
    | none => (0, true)
  else if desc.source = sourceChild then (now.childRevents desc.handle, false)
  else if desc.source = sourceTty then (now.pollTtyRevents desc.handle desc.events, false)
  else (eventError, false)

/-- What a scan reports for a descriptor. -/
def revents (desc : PollDesc) : UInt64 :=
  normalizePollRevents desc.events (now.pollDescRevents vfs owner desc).1

/-- The number of ready descriptors, whether a source was busy, and the
descriptors with what was found. -/
def scanPollDescriptors (descs : List PollDesc) :
    (Nat × Bool) × List PollDesc :=
  let scanned := descs.map (fun desc => { desc with revents := now.revents vfs owner desc })
  ((scanned.countP (fun desc => desc.revents != 0),
    descs.any (fun desc => (now.pollDescRevents vfs owner desc).2)), scanned)

def registerTtyWaiter (handle : UInt64) : Bool :=
  match now.tty handle with
  | some tty => now.ttyRegisters tty
  | none => false

def registerFdWaiter (fd events : UInt64) : Bool × VfsState :=
  if fd = 0 ∧ vfs.vfsHasFd owner 0 = false then
    match now.currentTty with
    | some tty => (now.registerTtyWaiter tty, vfs)
    | none => (false, vfs)
  else if (fd = 1 ∨ fd = 2) ∧ vfs.vfsHasFd owner fd.toNat = false then (true, vfs)
  else vfs.vfsRegisterPollWaiter owner fd.toNat owner events

def registerDesc (desc : PollDesc) : Bool × VfsState :=
  if desc.source = sourceFd then now.registerFdWaiter vfs owner desc.handle desc.events
  else if desc.source = sourceSocket then (now.socketRegisters desc.handle desc.events, vfs)
  else if desc.source = sourceGui then (now.guiRegisters desc.handle, vfs)
  else if desc.source = sourceChild then (now.childRegisters desc.handle, vfs)
  else if desc.source = sourceTty then (now.registerTtyWaiter desc.handle, vfs)
  else (false, vfs)

/-- Register with every descriptor; returns whether all of them accepted. -/
def registerPollWaiters (owner : Nat) : List PollDesc -> VfsState -> Bool × VfsState
  | [], vfs => (true, vfs)
  | desc :: rest, vfs =>
    let (registered, vfs) := now.registerDesc vfs owner desc
    let (ok, vfs) := registerPollWaiters owner rest vfs
    (registered && ok, vfs)

end Moment

def unregisterFdWaiter (vfs : VfsState) (owner : Nat) (fd : UInt64) : VfsState :=
  if (fd = 0 ∨ fd = 1 ∨ fd = 2) ∧ vfs.vfsHasFd owner fd.toNat = false then vfs
  else vfs.vfsUnregisterPollWaiter owner fd.toNat owner

def unregisterPollWaiters (owner : Nat) (descs : List PollDesc) (vfs : VfsState) : VfsState :=
  descs.foldl (fun vfs desc =>
    if desc.source = sourceFd then unregisterFdWaiter vfs owner desc.handle else vfs) vfs

def pollDeadlineExpired (deadline : Option UInt64) (ticks : UInt64) : Bool :=
  match deadline with
  | some deadline => decide (deadline <= ticks)
  | none => false

/-- How a pass ends: it returns, or the task sleeps until a tick or for ever. -/
inductive PollPass where
  | returned (ready : Nat) (descs : List PollDesc)
  | sleeps (descs : List PollDesc) (wakeTick : Option UInt64)

/-- One pass of the loop of `sys_poll`. -/
def pollPass (vfs : VfsState) (taskId : Nat) (descs : List PollDesc) (timeoutMs : UInt64)
    (deadline : Option UInt64) (first second : Moment) : PollPass × VfsState :=
  let ((ready, _), descs) := first.scanPollDescriptors vfs taskId descs
  if 0 < ready ∨ timeoutMs = 0 ∨ pollDeadlineExpired deadline first.ticks then
    (.returned ready descs, vfs)
  else
    let (registered, vfs) := second.registerPollWaiters taskId descs vfs
    let ((ready, _), descs) := second.scanPollDescriptors vfs taskId descs
    if 0 < ready ∨ pollDeadlineExpired deadline second.ticks then
      (.returned ready descs, unregisterPollWaiters taskId descs vfs)
    else (.sleeps descs (if registered then deadline else some (second.ticks + 1)), vfs)

/-!
## Wakeups

A task that sleeps on an end of a pipe stays registered there until it is
woken, or it needs no registration because the other side cannot close.  A call
of another task that makes an awaited condition true wakes it.
-/

/-- Nothing to read on the read side; no room on the write side. -/
def Pipe.idle (pipe : Pipe) : FdAccess -> Prop
  | .file => True
  | .pipeRead => pipe.ring.len = 0
  | .pipeWrite => pipeSize <= pipe.ring.len

variable {waiters : List Nat} {side access : FdAccess} {fd : Nat}

theorem mem_addWaiter {taskId other : Nat} (waits : taskId ∈ waiters) :
    taskId ∈ addWaiter waiters other := by
  unfold addWaiter
  split
  · exact waits
  · exact mem_append_left _ waits

theorem self_mem_addWaiter (waiters : List Nat) (taskId : Nat) :
    taskId ∈ addWaiter waiters taskId := by
  unfold addWaiter
  split
  · next waits => exact waits
  · exact mem_append_right _ (mem_singleton.mpr rfl)

theorem mem_removeWaiter {taskId other : Nat} (waits : taskId ∈ waiters) (apart : other ≠ taskId) :
    taskId ∈ removeWaiter waiters other :=
  mem_filter.mpr ⟨waits, bne_iff_ne.mpr (fun same => apart same.symm)⟩

/-- The length of a ring after a write. -/
theorem length_pushMany (ring : Ring UInt8 pipeSize) (buf : List UInt8) :
    (ring.pushMany buf).2.len = ring.len + (buf.take (ring.pushMany buf).1).length := by
  rw [<- Ring.length_contents, (ring.pushMany_spec buf).1, length_append, Ring.length_contents]

/-- A read that returns nothing leaves the ring as long as it was. -/
theorem length_popMany (ring : Ring UInt8 pipeSize) (count : Nat) :
    (ring.popMany count).2.len + (ring.popMany count).1.length = ring.len := by
  have whole := congrArg List.length (ring.popMany_append count)
  rw [length_append, Ring.length_contents, Ring.length_contents] at whole
  omega

variable {vfs : VfsState} {lost : List LocalFd} {taskId other : Nat} {pipe after : Pipe}
  {woken : List Nat}

/-- A registered task, when a task starts to wait. -/
theorem EnterChange.waiting (change : EnterChange other pipe after woken)
    (waits : taskId ∈ pipe.waiting side) : taskId ∈ after.waiting side := by
  cases change with
  | reader =>
    cases side with
    | file => exact waits
    | pipeRead => exact mem_addWaiter waits
    | pipeWrite => exact waits
  | writer =>
    cases side with
    | file => exact waits
    | pipeRead => exact waits
    | pipeWrite => exact mem_addWaiter waits

/-- A registered task, when another one starts or stops to wait. -/
theorem WaitChange.waiting (change : WaitChange other pipe after woken) (apart : other ≠ taskId)
    (waits : taskId ∈ pipe.waiting side) : taskId ∈ after.waiting side := by
  cases change with
  | enter change => exact change.waiting waits
  | leave =>
    cases side with
    | file => exact waits
    | pipeRead => exact mem_removeWaiter waits apart
    | pipeWrite => exact mem_removeWaiter waits apart

/-- A registered task, when another one uses the pipe: it is woken, or it is
still registered and what was idle is idle. -/
theorem PipeChange.waiting (change : PipeChange other pipe after woken) (apart : other ≠ taskId)
    (waits : taskId ∈ pipe.waiting side) :
    taskId ∈ woken ∨ (taskId ∈ after.waiting side ∧ (pipe.idle side -> after.idle side)) := by
  have still {after : Pipe} (same : after.ring.len = pipe.ring.len) (idle : pipe.idle side) :
      after.idle side := by
    cases side with
    | file => exact idle
    | pipeRead => exact same.trans idle
    | pipeWrite => exact Nat.le_trans idle (Nat.le_of_eq same.symm)
  cases change with
  | same => exact .inr ⟨waits, id⟩
  | write buf readable =>
    have length := length_pushMany pipe.ring buf
    by_cases moved : 0 < (pipe.ring.pushMany buf).1
    · rw [if_pos moved]
      cases side with
      | file => exact absurd waits not_mem_nil
      | pipeRead => exact .inl waits
      | pipeWrite =>
        refine .inr ⟨waits, fun full => ?_⟩
        change pipeSize <= pipe.ring.len at full
        change pipeSize <= (pipe.ring.pushMany buf).2.len
        omega
    · have none : (pipe.ring.pushMany buf).1 = 0 := Nat.eq_zero_of_not_pos moved
      rw [none, take_zero, length_nil, Nat.add_zero] at length
      refine .inr ⟨?_, still length⟩
      cases side <;> simp_all [Pipe.written, Pipe.waiting]
  | read count some =>
    have length := length_popMany pipe.ring count
    by_cases moved : 0 < (pipe.ring.popMany count).1.length
    · rw [if_pos moved]
      cases side with
      | file => exact absurd waits not_mem_nil
      | pipeRead =>
        refine .inr ⟨waits, fun empty => ?_⟩
        exact absurd empty (Nat.ne_of_gt some)
      | pipeWrite => exact .inl waits
    · rw [Nat.eq_zero_of_not_pos moved, Nat.add_zero] at length
      refine .inr ⟨?_, still length⟩
      cases side <;> simp_all [Pipe.drained, Pipe.waiting]
  | wait change => exact Or.inr ⟨change.waiting apart waits, still (congrArg Ring.len change.ring)⟩

theorem PipeChange.ends (change : PipeChange taskId pipe after woken) (side : FdAccess) :
    after.ends side = pipe.ends side := by
  cases side with
  | file => rfl
  | pipeRead => exact change.counters.1
  | pipeWrite => exact change.counters.2

/-- A descriptor of a pipe end in a table: the pipe is there and its side is
counted. -/
theorem Sound.held_end (sound : Sound ⟨vfs, lost⟩) (isEnd : access.isPipe = true)
    (listed : (⟨id, access⟩ : LocalFd) ∈ lost ++ vfs.entries) (found : vfs.pipeAt id = some pipe) :
    pipe.ends access ≠ 0 := by
  have counted : pipe.ends access = holding (lost ++ vfs.entries) id access :=
    sound.tallied.ends found isEnd
  rw [counted]
  exact Nat.ne_of_gt (holding_pos listed)

/-- A registered task through the moves of a call that keeps its descriptor. -/
theorem Moves.waiting {keep : Nat -> Nat -> Prop} {makes : SharedKind -> Prop} {first last : Config}
    (moves : Moves keep makes first last woken) (sound : Sound first) (isEnd : side.isPipe = true)
    (kept : keep taskId fd) (slot : first.vfs.currentEntry taskId fd = some ⟨id, side⟩)
    (found : first.vfs.pipeAt id = some pipe) (waits : taskId ∈ pipe.waiting side)
    (opposite : pipe.ends side.peer ≠ 0) :
    taskId ∈ woken ∨ ∃ after, last.vfs.pipeAt id = some after ∧
      taskId ∈ after.waiting side ∧ after.ends side.peer ≠ 0 ∧ after.ring = pipe.ring := by
  induction moves generalizing pipe with
  | done => exact .inr ⟨pipe, found, waits, opposite, rfl⟩
  | @step first second last woken later move _ ih =>
    have soundNext : Sound second := (Moves.single move).sound sound
    have slotNext := move.kept kept slot
    rcases Sound.pipe soundNext slotNext isEnd with ⟨shared, next, present, kind⟩
    have there : second.vfs.pipeAt id = some next := pipeAt_eq_some.mpr ⟨shared, present, kind⟩
    have ours : next.ends side ≠ 0 :=
      soundNext.held_end isEnd (mem_append_right _
        (VfsState.mem_entries.mpr ⟨taskId, fd, slotNext⟩)) there
    have change := move.pipeStep sound.tallied id
    rw [found, there] at change
    have still : taskId ∈ woken ∨
        (taskId ∈ next.waiting side ∧ next.ends side.peer ≠ 0 ∧ next.ring = pipe.ring) := by
      cases change with
      | same => exact .inr ⟨waits, opposite, rfl⟩
      | retain _ access =>
        refine .inr ⟨?_, ?_, rfl⟩
        · rw [Pipe.retained_waiting]
          exact waits
        · have more := pipe.ends_retained access side.peer
          omega
      | release _ access =>
        rcases pipe.released_waiting access waits with gone | ⟨stays, last⟩ | none
        · exact .inl gone
        · exact .inr ⟨stays, fun zero => opposite (last zero), pipe.released_ring access⟩
        · exact absurd none ours
    rcases still with gone | ⟨waitsNext, oppositeNext, ring⟩
    · exact .inl (mem_append_left _ gone)
    · rcases ih soundNext slotNext there waitsNext oppositeNext with
        gone | ⟨after, foundAfter, waitsAfter, oppositeAfter, ringAfter⟩
      · exact .inl (mem_append_right _ gone)
      · exact .inr ⟨after, foundAfter, waitsAfter, oppositeAfter, ringAfter.trans ring⟩

/-- A descriptor that stays counted while the task sleeps: the task holds it,
or no table holds it any more. -/
def Anchored (config : Config) (taskId : Nat) (entry : LocalFd) : Prop :=
  entry ∈ config.held ∨ Exists fun fd => config.vfs.currentEntry taskId fd = some entry

/-- A sleeping task waits on one end of a pipe, for data or only for the hangup
of the other side. -/
structure Awaits (taskId fd id : Nat) (side : FdAccess) (data : Bool) (config : Config) :
    Prop where
  slot : config.vfs.currentEntry taskId fd = some ⟨id, side⟩
  state : Exists fun pipe => config.vfs.pipeAt id = some pipe ∧ pipe.ends side.peer ≠ 0 ∧
    (data = true -> pipe.idle side) ∧
    (taskId ∈ pipe.waiting side ∨ (data = false ∧ Anchored config taskId ⟨id, side.peer⟩))

theorem FdAccess.peer_isPipe (isEnd : access.isPipe = true) : access.peer.isPipe = true := by
  cases access with
  | file => cases isEnd
  | pipeRead => rfl
  | pipeWrite => rfl

/-- With the other side anchored, nothing but the hangup is awaited, and it
cannot come. -/
theorem Awaits.of_anchored (sound : Sound ⟨vfs, lost⟩) (isEnd : side.isPipe = true)
    (slot : vfs.currentEntry taskId fd = some ⟨id, side⟩)
    (anchored : Anchored ⟨vfs, lost⟩ taskId ⟨id, side.peer⟩) :
    Awaits taskId fd id side false ⟨vfs, lost⟩ := by
  rcases sound.pipe slot isEnd with ⟨shared, pipe, found, kind⟩
  have there : vfs.pipeAt id = some pipe := pipeAt_eq_some.mpr ⟨shared, found, kind⟩
  refine ⟨slot, pipe, there, ?_, fun impossible => (nomatch impossible), .inr ⟨rfl, anchored⟩⟩
  refine sound.held_end (FdAccess.peer_isPipe isEnd) ?_ there
  rcases anchored with listed | ⟨other, present⟩
  · exact mem_append_left _ listed
  · exact mem_append_right _ (VfsState.mem_entries.mpr ⟨taskId, other, present⟩)

/-- A call of another task keeps the descriptors of the sleeping one. -/
theorem VfsCall.keeps_other {call : VfsCall} {taskId fd : Nat} (other : call.caller ≠ taskId)
    (present : vfs.currentEntry taskId fd ≠ none) : call.keeps vfs taskId fd := by
  cases call with
  | inheritFds parentTask childTask mappings => exact present
  | inheritAllFds parentTask childTask => exact present
  | _ => exact fun same => other same.symm

theorem VfsCall.keeps_entry (sound : Sound ⟨vfs, lost⟩) {call : VfsCall}
    (other : call.caller ≠ taskId) {entry : LocalFd}
    (present : vfs.currentEntry taskId fd = some entry) :
    (call.perform vfs).currentEntry taskId fd = some entry := by
  cases data : call.isData with
  | false =>
    rcases call.moves sound.tallied data with ⟨more, moves, _⟩
    have kept := @VfsCall.keeps_other vfs call taskId fd other
      (by rw [present]; exact Option.some_ne_none _)
    exact moves.kept kept present
  | true =>
    rw [VfsState.currentEntry_congr (call.touch vfs data).taskFds]
    exact present

/-- One call of another task: the sleeping task is woken, or it sleeps on in the
same way. -/
theorem Awaits.step (sound : Sound ⟨vfs, lost⟩) {taskId fd id : Nat} {side : FdAccess}
    (isEnd : side.isPipe = true) {data : Bool} (awaits : Awaits taskId fd id side data ⟨vfs, lost⟩)
    {call : VfsCall} (other : call.caller ≠ taskId) : taskId ∈ call.wakes vfs ∨ ∃ more,
      Sound ⟨call.perform vfs, more ++ lost⟩ ∧
        Awaits taskId fd id side data ⟨call.perform vfs, more ++ lost⟩ := by
  rcases awaits with ⟨slot, pipe, found, opposite, idle, registered | ⟨rfl, anchored⟩⟩
  · have slotNext := VfsCall.keeps_entry sound other slot
    cases isData : call.isData with
    | false =>
      rcases call.moves sound.tallied isData with ⟨more, moves, _⟩
      have kept := @VfsCall.keeps_other vfs call taskId fd other
        (by rw [slot]; exact Option.some_ne_none _)
      rcases moves.waiting sound isEnd kept slot found registered opposite with
        gone | ⟨after, foundAfter, waits, oppositeAfter, ring⟩
      · exact .inl gone
      · refine .inr ⟨more, moves.sound sound, slotNext, after, foundAfter, oppositeAfter, ?_,
          .inl waits⟩
        intro wanted
        have idleBefore := idle wanted
        cases side with
        | file => exact idleBefore
        | pipeRead => exact (congrArg Ring.len ring).trans idleBefore
        | pipeWrite =>
          exact Nat.le_trans idleBefore (Nat.le_of_eq (congrArg Ring.len ring).symm)
    | true =>
      have touch := call.touch vfs isData
      have soundNext : Sound ⟨call.perform vfs, [] ++ lost⟩ :=
        ⟨touch.tallied sound.tallied, touch.suited sound.suited⟩
      rcases touch.pipeChange id with same | ⟨former, changed, present, there, change⟩
      · exact .inr ⟨[], soundNext, slotNext, pipe, same.trans found, opposite, idle,
          .inl registered⟩
      · cases found.symm.trans present
        rcases change.waiting other registered with gone | ⟨waits, idleAfter⟩
        · exact .inl gone
        · refine .inr ⟨[], soundNext, slotNext, changed, there, ?_, ?_, .inl waits⟩
          · rw [change.ends]
            exact opposite
          · exact fun wanted => idleAfter (idle wanted)
  · right
    rcases call.perform_sound sound with ⟨more, soundNext⟩
    refine ⟨more, soundNext, .of_anchored soundNext isEnd (VfsCall.keeps_entry sound other slot) ?_⟩
    rcases anchored with listed | ⟨otherFd, present⟩
    · exact .inl (mem_append_right _ listed)
    · exact Or.inr ⟨otherFd, VfsCall.keeps_entry sound other present⟩

/-- The calls of other tasks while a task sleeps: none of them wakes it. -/
def sleepsThrough (taskId : Nat) (vfs : VfsState) : List VfsCall -> Bool
  | [] => true
  | call :: rest =>
    decide (call.caller ≠ taskId) && decide (taskId ∉ call.wakes vfs) &&
      sleepsThrough taskId (call.perform vfs) rest

/-- After any calls of other tasks that do not wake it, a task is woken by every
call of another task that makes a condition true. -/
def WokenFor (taskId : Nat) (asleep : VfsState) (awaited : VfsState -> Prop) : Prop :=
  forall later, sleepsThrough taskId asleep later = true ->
    forall call : VfsCall, call.caller ≠ taskId ->
      awaited (call.perform (later.foldl VfsCall.perform asleep)) ->
        taskId ∈ call.wakes (later.foldl VfsCall.perform asleep)

/-- A condition that is false as long as the task waits is one it is woken
for. -/
theorem Awaits.wokenFor (isEnd : side.isPipe = true) {data : Bool} {awaited : VfsState -> Prop}
    (false : ∀ config, Awaits taskId fd id side data config -> ¬ awaited config.vfs)
    {asleep : VfsState} (sound : Sound ⟨asleep, lost⟩)
    (awaits : Awaits taskId fd id side data ⟨asleep, lost⟩) : WokenFor taskId asleep awaited := by
  intro later
  induction later generalizing asleep lost with
  | nil =>
    intro _ call other becomes
    rcases awaits.step sound isEnd other with woken | ⟨more, _, still⟩
    · exact woken
    · exact absurd becomes (false _ still)
  | cons first rest ih =>
    intro through
    rw [sleepsThrough, Bool.and_eq_true, Bool.and_eq_true, decide_eq_true_eq,
      decide_eq_true_eq] at through
    rcases through with ⟨⟨other, unwoken⟩, through⟩
    rcases awaits.step sound isEnd other with woken | ⟨more, soundNext, still⟩
    · exact absurd woken unwoken
    · exact ih soundNext still through

end CoolOs.Vfs
