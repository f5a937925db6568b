import CoolOs.Vfs.Pipes

namespace CoolOs.Vfs

open Queues Function
open Function (update)

/-!
# Pipes as queues

Beside the state, a run records for every slot the bytes that writers gave to
its pipe and the bytes that readers got, since the pipe was created.  What is
accepted and not yet returned is always what the pipe holds.
-/

variable {id : Nat}

/-- The bytes accepted from writers and returned to readers, for each slot. -/
structure Traffic where
  accepted : Nat -> List UInt8
  returned : Nat -> List UInt8

namespace Traffic

def none : Traffic where
  accepted := fun _ => []
  returned := fun _ => []

/-- A new pipe in a slot. -/
def restart (traffic : Traffic) (id : Nat) : Traffic where
  accepted := update traffic.accepted id []
  returned := update traffic.returned id []

def accept (traffic : Traffic) (id : Nat) (bytes : List UInt8) : Traffic :=
  { traffic with accepted := update traffic.accepted id (traffic.accepted id ++ bytes) }

def giveOut (traffic : Traffic) (id : Nat) (bytes : List UInt8) : Traffic :=
  { traffic with returned := update traffic.returned id (traffic.returned id ++ bytes) }

/-- What a call adds: a successful `vfs_pipe` starts anew, a write accepts the
part of its buffer it reports, and a read returns the bytes it found. -/
def record (vfs : VfsState) (traffic : Traffic) : VfsCall -> Traffic
  | .vfsPipe taskId admitted =>
    match vfs.vfsPipe taskId admitted with
    | (some (readFd, _), after) =>
      match after.currentEntry taskId readFd with
      | some entry => traffic.restart entry.object
      | Option.none => traffic
    | (Option.none, _) => traffic
  | .vfsWrite taskId fd buf reserved =>
    match vfs.currentEntry taskId fd, (vfs.vfsWrite taskId fd buf reserved).1.1 with
    | some { object := id, access := .pipeWrite }, some count =>
      traffic.accept id (buf.take count)
    | _, _ => traffic
  | .vfsReadPass taskId fd bufLen len =>
    match vfs.currentEntry taskId fd, (vfs.vfsReadPass taskId fd bufLen len).1 with
    | some { object := id, access := .pipeRead }, .pipe (.data bytes) _ =>
      traffic.giveOut id bytes
    | _, _ => traffic
  | _ => traffic

end Traffic

def trafficFrom (vfs : VfsState) (traffic : Traffic) : List VfsCall -> Traffic
  | [] => traffic
  | call :: rest => trafficFrom (call.perform vfs) (traffic.record vfs call) rest

/-- What a run records. -/
def runTraffic (calls : List VfsCall) : Traffic := trafficFrom .new .none calls

/-- Whether `vfs_read_blocking` reports the end to a caller that wants some
bytes: it finds the end, or it returns zero although bytes were asked for. -/
def reportsEnd (wanted : Nat) : VfsState.ReadPass -> Bool
  | .pipe .eof _ => true
  | .pipe (.data bytes) _ => bytes.isEmpty && decide (0 < wanted)
  | _ => false

/-- A pipe loses and reorders nothing: what is returned is the front of what is
accepted, the rest fits the buffer, a read reports the end only when no write
descriptor is left and all is returned, and a write is refused only when no
read descriptor is left. -/
structure Lossless (vfs : VfsState) (traffic : Traffic) (id : Nat) : Prop where
  queued : Exists fun unread => traffic.accepted id = traffic.returned id ++ unread ∧
    unread.length <= pipeSize
  ended : forall taskId fd bufLen len, vfs.currentEntry taskId fd = some ⟨id, .pipeRead⟩ ->
    reportsEnd (min len bufLen) (vfs.vfsReadPass taskId fd bufLen len).1 = true ->
    (forall otherTask otherFd, vfs.currentEntry otherTask otherFd ≠ some ⟨id, .pipeWrite⟩) ∧
      traffic.returned id = traffic.accepted id
  refused : forall taskId fd buf reserved, vfs.currentEntry taskId fd = some ⟨id, .pipeWrite⟩ ->
    (vfs.vfsWrite taskId fd buf reserved).1.1 = none ->
    forall otherTask otherFd, vfs.currentEntry otherTask otherFd ≠ some ⟨id, .pipeRead⟩

/-- What is accepted and not returned is what the pipe holds. -/
def Conforms (vfs : VfsState) (traffic : Traffic) : Prop :=
  forall id, Exists fun unread => traffic.accepted id = traffic.returned id ++ unread ∧
    unread.length <= pipeSize ∧
    forall pipe, vfs.pipeAt id = some pipe -> pipe.ring.contents = unread

/-- A change that leaves every pipe its bytes. -/
theorem Conforms.frame {vfs after : VfsState} {traffic : Traffic} (conforms : Conforms vfs traffic)
    (same : ∀ id pipe, after.pipeAt id = some pipe -> ∃ former,
      vfs.pipeAt id = some former ∧ pipe.ring = former.ring) : Conforms after traffic := by
  intro id
  rcases conforms id with ⟨unread, front, bound, contents⟩
  refine ⟨unread, front, bound, ?_⟩
  intro pipe found
  rcases same id pipe found with ⟨former, present, ring⟩
  rw [ring]
  exact contents former present

/-- Moves that make no pipe leave the bytes of every pipe. -/
theorem Moves.rings {keep : Nat -> Nat -> Prop} {makes : SharedKind -> Prop} {first last : Config}
    {woken : List Nat} (moves : Moves keep makes first last woken)
    (tallied : Tallied first.vfs.object first.counted) (none : ¬ makes (.pipe .new)) {pipe : Pipe}
    (found : last.vfs.pipeAt id = some pipe) :
    ∃ former, first.vfs.pipeAt id = some former ∧ pipe.ring = former.ring := by
  induction moves with
  | done => exact ⟨pipe, found, rfl⟩
  | step move _ ih =>
    rcases ih (move.tallied tallied) found with ⟨middle, present, ring⟩
    have change := move.pipeStep tallied id
    rw [present] at change
    generalize VfsState.pipeAt _ id = slot at change
    cases change with
    | same => exact ⟨middle, rfl, ring⟩
    | create made => exact absurd made none
    | retain former access => exact ⟨former, rfl, ring⟩
    | release former access => exact ⟨former, rfl, ring.trans (former.released_ring access)⟩

/-- A touch that moves no bytes. -/
theorem Touch.rings {vfs after : VfsState} {changes : Pipe -> Pipe -> List Nat -> Prop}
    {woken : List Nat} (touch : Touch vfs changes after woken)
    (still : ∀ pipe changed woken, changes pipe changed woken -> changed.ring = pipe.ring)
    {pipe : Pipe} (found : after.pipeAt id = some pipe) :
    ∃ former, vfs.pipeAt id = some former ∧ pipe.ring = former.ring := by
  rcases touch.pipeChange id with same | ⟨former, changed, present, there, change⟩
  · exact ⟨pipe, same.symm.trans found, rfl⟩
  · cases found.symm.trans there
    exact ⟨former, present, still _ _ _ change⟩

variable {vfs : VfsState} {lost : List LocalFd} {traffic : Traffic}

/-- A descriptor of a pipe end points at a pipe. -/
theorem Sound.pipe (sound : Sound ⟨vfs, lost⟩)
    {taskId fd : Nat} {entry : LocalFd} (present : vfs.currentEntry taskId fd = some entry)
    (isEnd : entry.access.isPipe = true) : ∃ shared pipe,
      vfs.object entry.object = some shared ∧ shared.kind = .pipe pipe := by
  have listed : entry ∈ lost ++ vfs.entries :=
    List.mem_append_right lost (VfsState.mem_entries.mpr ⟨taskId, fd, present⟩)
  rcases sound.tallied.found listed with ⟨shared, found⟩
  have suits := sound.suited entry listed shared found
  rw [isEnd] at suits
  cases kind : shared.kind with
  | file file =>
    rw [kind] at suits
    cases suits
  | pipe pipe => exact ⟨shared, pipe, found, kind⟩

/-- The pipes after one pipe is replaced. -/
theorem pipeAt_setPipe {shared : SharedObject} (found : vfs.object id = some shared) (pipe : Pipe) :
    (vfs.setPipe id shared pipe).pipeAt = update vfs.pipeAt id (some pipe) := by
  funext other
  rw [VfsState.pipeAt, VfsState.setPipe, VfsState.object_setObject (VfsState.object_lt found)]
  by_cases here : other = id
  · subst here
    rw [update_self, update_self]
    rfl
  · rw [update_of_ne here, update_of_ne here]
    rfl

/-- A change of the bytes of one pipe, with what is recorded for it. -/
theorem Conforms.change {vfs after : VfsState} {traffic next : Traffic} {id : Nat} {pipe : Pipe}
    (conforms : Conforms vfs traffic) (pipes : after.pipeAt = update vfs.pipeAt id (some pipe))
    (here : next.accepted id = next.returned id ++ pipe.ring.contents)
    (others : ∀ other, other ≠ id -> next.accepted other = traffic.accepted other ∧
      next.returned other = traffic.returned other) : Conforms after next := by
  intro other
  by_cases same : other = id
  · subst same
    refine ⟨pipe.ring.contents, here, ?_, ?_⟩
    · rw [Ring.length_contents]
      exact pipe.ring.fits
    · intro found present
      rw [pipes, update_self] at present
      cases present
      rfl
  · rw [(others other same).1, (others other same).2, pipes, update_of_ne same]
    exact conforms other

theorem vfsPipe_conforms (conforms : Conforms vfs traffic) (taskId : Nat) (admitted : Bool) :
    Conforms (vfs.vfsPipe taskId admitted).2 (traffic.record vfs (.vfsPipe taskId admitted)) := by
  have made : (fun kind => kind = SharedKind.pipe .new) (.pipe .new) := rfl
  rcases (@VfsState.vfsPipe_spec (fun _ _ => True) _ [] made vfs taskId admitted).2 with
    ⟨refused, objects⟩ | ⟨id, readFd, writeFd, result, free, present, objects⟩
  · have unchanged : traffic.record vfs (.vfsPipe taskId admitted) = traffic := by
      unfold Traffic.record
      dsimp only
      generalize vfs.vfsPipe taskId admitted = outcome at refused ⊢
      rcases outcome with ⟨_, after⟩
      subst refused
      rfl
    rw [unchanged]
    refine conforms.frame (fun other pipe found => ⟨pipe, ?_, rfl⟩)
    rw [VfsState.pipeAt, objects] at found
    exact found
  · have restarted : traffic.record vfs (.vfsPipe taskId admitted) = traffic.restart id := by
      unfold Traffic.record
      dsimp only
      generalize vfs.vfsPipe taskId admitted = outcome at result present ⊢
      rcases outcome with ⟨_, after⟩
      subst result
      dsimp only
      rw [present]
    rw [restarted]
    refine @Conforms.change vfs _ traffic _ id { Pipe.new with readers := 1, writers := 1 }
      conforms ?_ ?_ ?_
    · funext other
      rw [VfsState.pipeAt, objects]
      by_cases here : other = id
      · subst here
        rw [update_self, update_self]
        rfl
      · rw [update_of_ne here, update_of_ne here]
        rfl
    · change update traffic.accepted id [] id =
        update traffic.returned id [] id ++ []
      rw [update_self, update_self]
      rfl
    · intro other apart
      exact ⟨update_of_ne apart _ _, update_of_ne apart _ _⟩

theorem vfsWrite_conforms (sound : Sound ⟨vfs, lost⟩) (conforms : Conforms vfs traffic)
    (taskId fd : Nat) (buf : List UInt8) (reserved : Bool) :
    Conforms (vfs.vfsWrite taskId fd buf reserved).2
      (traffic.record vfs (.vfsWrite taskId fd buf reserved)) := by
  by_cases writes : ∃ id, vfs.currentEntry taskId fd = some ⟨id, .pipeWrite⟩
  · rcases writes with ⟨id, present⟩
    rcases sound.pipe present rfl with ⟨shared, pipe, found, kind⟩
    unfold Traffic.record
    dsimp only
    rw [present, vfsWrite_pipe present found kind]
    by_cases closed : pipe.readers = 0
    · rw [if_pos closed]
      exact conforms
    · rw [if_neg closed]
      rcases conforms id with ⟨unread, front, _, contents⟩
      have holds := contents pipe (pipeAt_eq_some.mpr ⟨shared, found, kind⟩)
      refine conforms.change (pipeAt_setPipe found _) ?_ ?_
      · change update traffic.accepted id
          (traffic.accepted id ++ buf.take (pipe.ring.pushMany buf).1) id =
            traffic.returned id ++ (pipe.ring.pushMany buf).2.contents
        rw [update_self, front, (pipe.ring.pushMany_spec buf).1, holds, List.append_assoc]
      · intro other apart
        exact ⟨update_of_ne apart _ _, rfl⟩
  · have unchanged : traffic.record vfs (.vfsWrite taskId fd buf reserved) = traffic := by
      unfold Traffic.record
      dsimp only
      split
      · next id count present _ => exact absurd ⟨id, present⟩ writes
      · rfl
    rw [unchanged]
    have touch := vfsWrite_plain (fun id present => writes ⟨id, present⟩) buf reserved
    exact conforms.frame
      (fun id pipe found => touch.rings (fun _ _ _ impossible => impossible.elim) found)

theorem vfsReadPass_conforms (sound : Sound ⟨vfs, lost⟩) (conforms : Conforms vfs traffic)
    (taskId fd bufLen len : Nat) :
    Conforms (vfs.vfsReadPass taskId fd bufLen len).2
      (traffic.record vfs (.vfsReadPass taskId fd bufLen len)) := by
  by_cases reads : ∃ id, vfs.currentEntry taskId fd = some ⟨id, .pipeRead⟩
  · rcases reads with ⟨id, present⟩
    rcases sound.pipe present rfl with ⟨shared, pipe, found, kind⟩
    rcases conforms id with ⟨unread, front, _, contents⟩
    have holds := contents pipe (pipeAt_eq_some.mpr ⟨shared, found, kind⟩)
    have kept : traffic.accepted id = traffic.returned id ++ pipe.ring.contents := by
      rw [holds]
      exact front
    unfold Traffic.record
    dsimp only
    rw [present, vfsReadPass_pipe present found kind]
    by_cases some : 0 < pipe.ring.len
    · rw [if_pos some]
      refine conforms.change (pipeAt_setPipe found _) ?_ ?_
      · change traffic.accepted id = update traffic.returned id
          (traffic.returned id ++ (pipe.ring.popMany (min len bufLen)).1) id ++
            (pipe.ring.popMany (min len bufLen)).2.contents
        rw [update_self, List.append_assoc, Ring.popMany_append, kept]
      · intro other apart
        exact ⟨rfl, update_of_ne apart _ _⟩
    · rw [if_neg some]
      by_cases closed : pipe.writers = 0
      · rw [if_pos closed]
        exact conforms.change (pipeAt_setPipe found pipe) kept (fun _ _ => ⟨rfl, rfl⟩)
      · rw [if_neg closed]
        exact conforms.change (pipeAt_setPipe found _) kept (fun _ _ => ⟨rfl, rfl⟩)
  · have unchanged : traffic.record vfs (.vfsReadPass taskId fd bufLen len) = traffic := by
      unfold Traffic.record
      dsimp only
      split
      · next id bytes woken present _ => exact absurd ⟨id, present⟩ reads
      · rfl
    rw [unchanged]
    have touch := vfsReadPass_plain (fun id present => reads ⟨id, present⟩) bufLen len
    exact conforms.frame
      (fun id pipe found => touch.rings (fun _ _ _ impossible => impossible.elim) found)

/-- Every call keeps the record and the pipes together. -/
theorem VfsCall.perform_conforms (sound : Sound ⟨vfs, lost⟩) (conforms : Conforms vfs traffic)
    (call : VfsCall) : Conforms (call.perform vfs) (traffic.record vfs call) := by
  have handled (handles : call.isData = false) (none : ¬ call.makes (.pipe .new)) :
      Conforms (call.perform vfs) traffic := by
    rcases call.moves sound.tallied handles with ⟨more, moves, _⟩
    exact conforms.frame (fun id pipe found => moves.rings sound.tallied none found)
  cases call with
  | vfsPipe taskId admitted => exact vfsPipe_conforms conforms taskId admitted
  | vfsWrite taskId fd buf reserved =>
    exact vfsWrite_conforms sound conforms taskId fd buf reserved
  | vfsReadPass taskId fd bufLen len =>
    exact vfsReadPass_conforms sound conforms taskId fd bufLen len
  | vfsRegisterPollWaiter taskId fd events =>
    have touch := vfsRegisterPollWaiter_touch vfs taskId fd taskId events
    exact conforms.frame (fun id pipe found =>
      touch.rings (fun _ _ _ change => (WaitChange.enter change).ring) found)
  | vfsUnregisterPollWaiter taskId fd =>
    have touch := vfsUnregisterPollWaiter_touch vfs taskId fd taskId
    exact conforms.frame (fun id pipe found => touch.rings (fun _ _ _ change => change.ring) found)
  | vfsOpen taskId data admitted => exact handled rfl (fun impossible => nomatch impossible)
  | vfsOpenWrite taskId path allowed => exact handled rfl (fun impossible => nomatch impossible)
  | vfsDup taskId fd => exact handled rfl id
  | vfsClose taskId fd => exact handled rfl id
  | inheritFds parentTask childTask mappings => exact handled rfl id
  | inheritAllFds parentTask childTask => exact handled rfl id
  | dropTask taskId => exact handled rfl id

/-! ## Whole runs -/

theorem runTraffic_conforms (calls : List VfsCall) : ∃ lost,
    Sound ⟨runVfs calls, lost⟩ ∧ Conforms (runVfs calls) (runTraffic calls) := by
  have general (rest : List VfsCall) (vfs : VfsState) (traffic : Traffic) (lost : List LocalFd)
      (sound : Sound ⟨vfs, lost⟩) (conforms : Conforms vfs traffic) : ∃ lost,
      Sound ⟨rest.foldl VfsCall.perform vfs, lost⟩ ∧
        Conforms (rest.foldl VfsCall.perform vfs) (trafficFrom vfs traffic rest) := by
    induction rest generalizing vfs traffic lost with
    | nil => exact ⟨lost, sound, conforms⟩
    | cons call rest ih =>
      rcases call.perform_sound sound with ⟨more, next⟩
      exact ih _ _ _ next (call.perform_conforms sound conforms)
  refine general calls .new .none [] new_sound ?_
  intro id
  exact ⟨[], rfl, Nat.zero_le _, fun pipe impossible => nomatch impossible⟩

/-- No descriptor of a side is left once its count is zero. -/
theorem Sound.unheld (sound : Sound ⟨vfs, lost⟩) {pipe : Pipe} (found : vfs.pipeAt id = some pipe)
    {access : FdAccess} (isEnd : access.isPipe = true) (none : pipe.ends access = 0)
    (taskId fd : Nat) : vfs.currentEntry taskId fd ≠ some ⟨id, access⟩ := by
  intro present
  have listed : (⟨id, access⟩ : LocalFd) ∈ lost ++ vfs.entries :=
    List.mem_append_right lost (VfsState.mem_entries.mpr ⟨taskId, fd, present⟩)
  have counted : pipe.ends access = holding (lost ++ vfs.entries) id access :=
    sound.tallied.ends found isEnd
  have positive := holding_pos listed
  dsimp only at positive
  omega

/-- In every run, every pipe is a lossless queue of bounded length. -/
theorem runVfs_lossless (calls : List VfsCall) (id : Nat) :
    Lossless (runVfs calls) (runTraffic calls) id := by
  rcases runTraffic_conforms calls with ⟨lost, sound, conforms⟩
  generalize runVfs calls = vfs at sound conforms ⊢
  generalize runTraffic calls = traffic at conforms ⊢
  rcases conforms id with ⟨unread, front, bound, contents⟩
  refine ⟨⟨unread, front, bound⟩, ?_, ?_⟩
  · intro taskId fd bufLen len present reports
    rcases sound.pipe present rfl with ⟨shared, pipe, found, kind⟩
    have there := pipeAt_eq_some.mpr ⟨shared, found, kind⟩
    rw [vfsReadPass_pipe present found kind] at reports
    split at reports
    · next some =>
      rw [reportsEnd, Bool.and_eq_true, List.isEmpty_iff, decide_eq_true_eq,
        (pipe.ring.popMany_spec _).1] at reports
      have length := congrArg List.length reports.1
      rw [List.length_take, Ring.length_contents, List.length_nil] at length
      omega
    · next empty =>
      split at reports
      · next closed =>
        refine ⟨sound.unheld there rfl closed, ?_⟩
        have nothing := Ring.contents_eq_nil.mpr (Nat.eq_zero_of_not_pos empty)
        rw [contents pipe there] at nothing
        rw [front, nothing, List.append_nil]
      · cases reports
  · intro taskId fd buf reserved present refused
    rcases sound.pipe present rfl with ⟨shared, pipe, found, kind⟩
    dsimp only at found
    have there := pipeAt_eq_some.mpr ⟨shared, found, kind⟩
    rw [vfsWrite_pipe present found kind] at refused
    split at refused
    · next closed => exact sound.unheld there rfl closed
    · cases refused

end CoolOs.Vfs
