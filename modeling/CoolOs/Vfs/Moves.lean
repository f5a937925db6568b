import CoolOs.Vfs.Calls

namespace CoolOs.Vfs

open Queues Function List Option

/-!
# Counting references

The counters of an object are exact for a list of descriptors: the list holds
as many descriptors of the object, and of each end of a pipe, as the object
counts.  Retaining and releasing a descriptor adds it to the list and removes
it.
-/

variable {vfs : VfsState} {taskId fd id : Nat} {entry : LocalFd} {others : List LocalFd}
  {shared : SharedObject}

/-- The descriptors of a list that point at an object. -/
def pointing (entries : List LocalFd) (id : Nat) : Nat :=
  entries.countP (fun entry => entry.object == id)

/-- The descriptors of a list for one kind of access to an object. -/
def holding (entries : List LocalFd) (id : Nat) (access : FdAccess) : Nat :=
  entries.count { object := id, access := access }

/-- The counters of the object in a slot are exact for a list of descriptors,
and the slot is taken only while descriptors point at it. -/
structure TalliedAt (object : Option SharedObject) (entries : List LocalFd) (id : Nat) : Prop where
  live : object ≠ none <-> 0 < pointing entries id
  refs : forall shared, object = some shared -> shared.refs = pointing entries id
  readers : forall shared pipe, object = some shared -> shared.kind = .pipe pipe ->
    pipe.readers = holding entries id .pipeRead
  writers : forall shared pipe, object = some shared -> shared.kind = .pipe pipe ->
    pipe.writers = holding entries id .pipeWrite

/-- The counters of all objects are exact for a list of descriptors. -/
def Tallied (object : Nat -> Option SharedObject) (entries : List LocalFd) : Prop :=
  forall id, TalliedAt (object id) entries id

/-- A descriptor for an end of a pipe. -/
def FdAccess.isPipe : FdAccess -> Bool
  | .file => false
  | _ => true

def SharedKind.isPipe : SharedKind -> Bool
  | .file _ => false
  | .pipe _ => true

/-- Descriptors of pipe ends point at pipes, and descriptors of files at
files. -/
def Suited (object : Nat -> Option SharedObject) (entries : List LocalFd) : Prop :=
  ∀ entry ∈ entries, forall shared, object entry.object = some shared ->
    shared.kind.isPipe = entry.access.isPipe

section

variable {entries : List LocalFd} {access : FdAccess}

theorem pointing_cons_self : pointing (entry :: entries) entry.object =
    pointing entries entry.object + 1 := countP_cons_of_pos (beq_self_eq_true entry.object)

theorem pointing_cons_other (different : entry.object ≠ id) :
    pointing (entry :: entries) id = pointing entries id :=
  countP_cons_of_neg (fun same => different (beq_iff_eq.mp same))

theorem holding_cons_self : holding (entry :: entries) entry.object entry.access =
    holding entries entry.object entry.access + 1 := count_cons_self

theorem holding_cons_other (different : entry ≠ { object := id, access := access }) :
    holding (entry :: entries) id access = holding entries id access := count_cons_of_ne different

theorem holding_cons : holding (entry :: entries) entry.object access =
    holding entries entry.object access + if entry.access = access then 1 else 0 := by
  by_cases same : entry.access = access
  · subst same
    rw [if_pos rfl]
    exact holding_cons_self
  · rw [if_neg same]
    exact holding_cons_other (fun equal => same (congrArg LocalFd.access equal))

theorem pointing_perm (same : entries.Perm others) : pointing entries id = pointing others id :=
  same.countP_eq _

theorem holding_perm (same : entries.Perm others) :
    holding entries id access = holding others id access := same.count_eq _

theorem holding_le_pointing : holding entries id access <= pointing entries id := by
  unfold holding pointing
  rw [List.count]
  refine countP_mono_left (fun other _ same => ?_)
  rw [beq_iff_eq.mp same]
  exact beq_self_eq_true id

theorem pointing_pos (listed : entry ∈ entries) : 0 < pointing entries entry.object :=
  countP_pos_iff.mpr ⟨entry, listed, beq_self_eq_true entry.object⟩

theorem holding_pos (listed : entry ∈ entries) : 0 < holding entries entry.object entry.access :=
  count_pos_iff.mpr listed

end

/-- The pipe with one more end. -/
def Pipe.retained (pipe : Pipe) (access : FdAccess) : Pipe :=
  { pipe with
    readers := pipe.readers + if access = .pipeRead then 1 else 0
    writers := pipe.writers + if access = .pipeWrite then 1 else 0 }

/-- The pipe with one end less. -/
def Pipe.released (pipe : Pipe) : FdAccess -> Pipe
  | .file => pipe
  | .pipeRead => pipe.releaseReader.2
  | .pipeWrite => pipe.releaseWriter.2

theorem Pipe.released_readers (pipe : Pipe) (access : FdAccess) :
    (pipe.released access).readers = pipe.readers - if access = .pipeRead then 1 else 0 := by
  cases access with
  | file => rfl
  | pipeRead =>
    simp only [released, releaseReader]
    split <;> rfl
  | pipeWrite =>
    simp only [released, releaseWriter]
    split <;> rfl

theorem Pipe.released_writers (pipe : Pipe) (access : FdAccess) :
    (pipe.released access).writers = pipe.writers - if access = .pipeWrite then 1 else 0 := by
  cases access with
  | file => rfl
  | pipeRead =>
    simp only [released, releaseReader]
    split <;> rfl
  | pipeWrite =>
    simp only [released, releaseWriter]
    split <;> rfl

section

variable {access : FdAccess} {pipe : Pipe}

theorem retain_pipe (kind : (shared.retain access).kind = .pipe pipe) :
    ∃ former, shared.kind = .pipe former ∧ pipe = former.retained access := by
  unfold SharedObject.retain at kind
  cases former : shared.kind with
  | file file =>
    rw [former] at kind
    cases access <;> cases kind
  | pipe old =>
    rw [former] at kind
    refine ⟨old, rfl, ?_⟩
    cases access <;> cases kind <;> rfl

@[simp] theorem release_refs : (shared.release access).2.refs = shared.refs - 1 := by
  unfold SharedObject.release
  split <;> rfl

theorem release_pipe (kind : (shared.release access).2.kind = .pipe pipe) :
    ∃ former, shared.kind = .pipe former ∧ pipe = former.released access := by
  unfold SharedObject.release at kind
  cases former : shared.kind with
  | file file =>
    rw [former] at kind
    cases access <;> cases kind
  | pipe old =>
    rw [former] at kind
    refine ⟨old, rfl, ?_⟩
    cases access <;> cases kind <;> rfl

end

/-- The counters of an object are exact for a list of descriptors. -/
def Counts (shared : SharedObject) (entries : List LocalFd) (id : Nat) : Prop :=
  shared.refs = pointing entries id ∧ forall pipe, shared.kind = .pipe pipe ->
    pipe.readers = holding entries id .pipeRead ∧ pipe.writers = holding entries id .pipeWrite

section

variable {entries : List LocalFd}

theorem talliedAt_none : TalliedAt none entries id <-> pointing entries id = 0 := by
  constructor
  · exact fun tallied => Nat.eq_zero_of_not_pos fun some => tallied.live.mpr some rfl
  · intro empty
    refine ⟨⟨fun some => absurd rfl some, fun some => ?_⟩, nofun, nofun, nofun⟩
    exact absurd empty (Nat.ne_of_gt some)

theorem talliedAt_some : TalliedAt (some shared) entries id <->
    0 < pointing entries id ∧ Counts shared entries id := by
  constructor
  · rintro ⟨live, refs, readers, writers⟩
    exact ⟨live.mp (some_ne_none _), refs shared rfl, fun pipe kind =>
      ⟨readers shared pipe rfl kind, writers shared pipe rfl kind⟩⟩
  · rintro ⟨live, refs, ends⟩
    refine ⟨⟨fun _ => live, fun _ => some_ne_none _⟩, ?_, ?_, ?_⟩
    · rintro _ ⟨rfl⟩
      exact refs
    · rintro _ pipe ⟨rfl⟩ kind
      exact (ends pipe kind).1
    · rintro _ pipe ⟨rfl⟩ kind
      exact (ends pipe kind).2

/-- A descriptor of another object does not matter. -/
theorem talliedAt_cons_other {slot : Option SharedObject} (different : entry.object ≠ id) :
    TalliedAt slot (entry :: entries) id <-> TalliedAt slot entries id := by
  have apart (access : FdAccess) : entry ≠ { object := id, access := access } :=
    fun same => different (congrArg LocalFd.object same)
  cases slot with
  | none => rw [talliedAt_none, talliedAt_none, pointing_cons_other different]
  | some shared =>
    rw [talliedAt_some, talliedAt_some, Counts, Counts, pointing_cons_other different,
      holding_cons_other (apart _), holding_cons_other (apart _)]

theorem Counts.retain (counts : Counts shared entries entry.object) :
    TalliedAt (some (shared.retain entry.access)) (entry :: entries) entry.object := by
  refine talliedAt_some.mpr ⟨pointing_pos mem_cons_self, ?_, fun pipe kind => ?_⟩
  · rw [pointing_cons_self, <- counts.1]
    rfl
  · rcases retain_pipe kind with ⟨old, oldKind, rfl⟩
    rw [holding_cons, holding_cons, <- (counts.2 old oldKind).1, <- (counts.2 old oldKind).2]
    exact ⟨rfl, rfl⟩

end

namespace Tallied

variable {object : Nat -> Option SharedObject} {entries : List LocalFd}
  (tallied : Tallied object entries)
include tallied

theorem perm (same : entries.Perm others) : Tallied object others := by
  intro id
  rcases tallied id with ⟨live, refs, readers, writers⟩
  rw [pointing_perm same] at live refs
  rw [holding_perm same] at readers writers
  exact ⟨live, refs, readers, writers⟩

/-- A listed descriptor points at a live object. -/
theorem found (listed : entry ∈ entries) : ∃ shared, object entry.object = some shared :=
  ne_none_iff_exists'.mp ((tallied entry.object).live.mpr (pointing_pos listed))

theorem counts (held : object id = some shared) :
    0 < pointing entries id ∧ Counts shared entries id := talliedAt_some.mp (held ▸ tallied id)

/-- One more descriptor of an object. -/
theorem added {slot : Option SharedObject} (here : TalliedAt slot (entry :: entries) entry.object) :
    Tallied (Function.update object entry.object slot) (entry :: entries) := by
  intro id
  by_cases same : entry.object = id
  · rwa [<- same, update_self]
  · rw [update_of_ne (Ne.symm same)]
    exact (talliedAt_cons_other same).mpr (tallied id)

/-- Retaining a descriptor adds it. -/
theorem retain (held : object entry.object = some shared) :
    Tallied (Function.update object entry.object (some (shared.retain entry.access)))
      (entry :: entries) :=
  tallied.added (tallied.counts held).2.retain

/-- What a release leaves in the slot. -/
def remainder (shared : SharedObject) (access : FdAccess) : Option SharedObject :=
  if (shared.release access).2.refs = 0 then none else some (shared.release access).2

omit tallied in
/-- Releasing a descriptor removes it. -/
theorem release (tallied : Tallied object (entry :: entries))
    (held : object entry.object = some shared) :
    Tallied (Function.update object entry.object (remainder shared entry.access)) entries := by
  intro id
  by_cases here : entry.object = id
  · subst here
    rcases tallied.counts held with ⟨_, refs, ends⟩
    have rest : (shared.release entry.access).2.refs = pointing entries entry.object := by
      rw [release_refs, refs, pointing_cons_self, Nat.add_sub_cancel]
    rw [update_self, remainder]
    split
    · next last => exact talliedAt_none.mpr (rest.symm.trans last)
    · next more =>
      refine talliedAt_some.mpr ⟨by omega, rest, fun pipe kind => ?_⟩
      rcases release_pipe kind with ⟨old, oldKind, rfl⟩
      rw [Pipe.released_readers, Pipe.released_writers, (ends old oldKind).1,
        (ends old oldKind).2, holding_cons, holding_cons, Nat.add_sub_cancel, Nat.add_sub_cancel]
      exact ⟨rfl, rfl⟩
  · rw [update_of_ne (Ne.symm here)]
    exact (talliedAt_cons_other here).mp (tallied id)

/-- A new object with its first descriptor. -/
theorem create (free : object entry.object = none) {kind : SharedKind}
    (fresh : ∀ pipe, kind = .pipe pipe -> pipe.readers = 0 ∧ pipe.writers = 0) :
    Tallied (Function.update object entry.object
      (some (SharedObject.retain { refs := 0, kind := kind } entry.access)))
      (entry :: entries) := by
  have none : pointing entries entry.object = 0 := talliedAt_none.mp (free ▸ tallied entry.object)
  have unheld (access : FdAccess) : holding entries entry.object access = 0 :=
    Nat.le_zero.mp (none ▸ holding_le_pointing)
  refine tallied.added (Counts.retain ⟨none.symm, fun pipe made => ?_⟩)
  rw [unheld, unheld]
  exact fresh pipe made

/-- A change of the data of an object that keeps its counters. -/
theorem touch (held : object id = some shared) {kind : SharedKind}
    (same : ∀ pipe, kind = .pipe pipe ->
      ∃ former, shared.kind = .pipe former ∧ pipe.readers = former.readers ∧
        pipe.writers = former.writers)
    : Tallied (Function.update object id (some { shared with kind := kind })) entries := by
  intro other
  by_cases here : other = id
  · subst here
    rcases tallied.counts held with ⟨live, refs, ends⟩
    rw [update_self]
    refine talliedAt_some.mpr ⟨live, refs, fun pipe made => ?_⟩
    rcases same pipe made with ⟨old, oldKind, readers, writers⟩
    rw [readers, writers]
    exact ends old oldKind
  · rw [update_of_ne here]
    exact tallied other

end Tallied

open VfsState

/-!
## The moves of the descriptor calls

Every call that handles descriptors is a sequence of a few moves: it creates an
object, retains and releases descriptors, and puts them into tables and takes
them out.  Between the moves a call holds descriptors that are counted but in
no table.
-/

namespace VfsState

theorem object_lt (found : vfs.object id = some shared) : id < vfs.objects.length := by
  rcases join_eq_some_iff.mp found with inner
  exact (List.getElem?_eq_some_iff.mp inner).1

theorem object_setObject (inside : id < vfs.objects.length) (shared : Option SharedObject) :
    (vfs.setObject id shared).object = update vfs.object id shared := by
  funext other
  by_cases here : other = id
  · subst here
    rw [update_self, object, setObject, getElem?_set_self inside]
    rfl
  · rw [update_of_ne here, object, setObject, getElem?_set_ne (fun same => here same.symm)]
    rfl

variable (vfs)

/-- A new object goes to a free slot. -/
theorem allocObject_spec (kind : SharedKind) :
    vfs.object (vfs.allocObject kind).1 = none ∧ (vfs.allocObject kind).2.object =
        update vfs.object (vfs.allocObject kind).1 (some { refs := 0, kind := kind }) ∧
      (vfs.allocObject kind).2.taskFds = vfs.taskFds := by
  unfold allocObject
  cases search : vfs.objects.findIdx? Option.isNone with
  | some id =>
    rcases findIdx?_eq_some_iff_getElem.mp search with ⟨inside, free, _⟩
    refine ⟨?_, object_setObject inside _, rfl⟩
    rw [object, getElem?_eq_getElem inside, isNone_iff_eq_none.mp free]
    rfl
  | none =>
    have beyond : vfs.object vfs.objects.length = none := by
      rw [object, getElem?_eq_none (Nat.le_refl _)]
      rfl
    refine ⟨beyond, ?_, rfl⟩
    funext other
    by_cases here : other = vfs.objects.length
    · rw [here, update_self, object, getElem?_concat_length]
      rfl
    · rw [update_of_ne here, object]
      by_cases inside : other < vfs.objects.length
      · rw [getElem?_append_left inside]
        rfl
      · rw [object, getElem?_eq_none (by rw [length_append, length_singleton]; omega),
          getElem?_eq_none (by omega)]

@[simp] theorem retainFd_taskFds (entry : LocalFd) :
    (vfs.retainFd entry).2.taskFds = vfs.taskFds := by
  unfold retainFd
  split <;> rfl

@[simp] theorem releaseFd_taskFds (entry : LocalFd) :
    (vfs.releaseFd entry).2.taskFds = vfs.taskFds := by
  unfold releaseFd
  split
  · rfl
  · dsimp only
    split <;> rfl

variable {vfs}

theorem retainFd_spec {shared : SharedObject} (found : vfs.object entry.object = some shared) :
    (vfs.retainFd entry).1 = true ∧ (vfs.retainFd entry).2.object =
        update vfs.object entry.object (some (shared.retain entry.access)) := by
  unfold retainFd
  rw [found]
  exact ⟨rfl, object_setObject (object_lt found) _⟩

theorem releaseFd_spec (found : vfs.object entry.object = some shared) :
    (vfs.releaseFd entry).1.wakeTasks = (shared.release entry.access).1 ∧
      (vfs.releaseFd entry).2.object =
        update vfs.object entry.object (Tallied.remainder shared entry.access) := by
  unfold releaseFd Tallied.remainder
  rw [found]
  dsimp only
  split
  · exact ⟨rfl, object_setObject (object_lt found) _⟩
  · exact ⟨rfl, object_setObject (object_lt found) _⟩

/-- The tables of all tasks, as rows of slots. -/
def rows (vfs : VfsState) : List (List (Option LocalFd)) := vfs.taskFds.map TaskFdTable.entries

variable (vfs)

/-- The descriptors in the tables of all tasks. -/
def entries : List LocalFd := occupants vfs.rows

theorem currentEntry_eq_slot (taskId fd : Nat) :
    vfs.currentEntry taskId fd = slot vfs.rows taskId fd := by
  unfold currentEntry slot rows
  rw [getElem?_map]
  cases vfs.taskFds[taskId]? with
  | none => rfl
  | some table => rfl

theorem rows_setEntry (taskId fd : Nat) (entry : Option LocalFd) :
    (vfs.setEntry taskId fd entry).rows = setSlot vfs.rows taskId fd entry := by
  apply ext_getElem?
  intro index
  unfold rows setEntry setSlot
  rw [getElem?_map, getElem?_modify, getElem?_modify, getElem?_map]
  cases vfs.taskFds[index]? with
  | none => rfl
  | some table =>
    by_cases here : taskId = index
    · simp [here, TaskFdTable.set]
    · simp [here]

variable {vfs}

theorem mem_entries : entry ∈ vfs.entries <-> ∃ taskId fd,
      vfs.currentEntry taskId fd = some entry := by
  rw [entries, mem_occupants]
  simp only [currentEntry_eq_slot]

theorem currentEntry_setEntry_other (vfs : VfsState) {otherTask otherFd : Nat}
    (different : otherTask ≠ taskId ∨ otherFd ≠ fd) (entry : Option LocalFd) :
    (vfs.setEntry taskId fd entry).currentEntry otherTask otherFd =
      vfs.currentEntry otherTask otherFd := by
  rw [currentEntry_eq_slot, rows_setEntry, slot_setSlot_other _ different, currentEntry_eq_slot]

/-- The task has a table and the descriptor is in range. -/
def InTable (vfs : VfsState) (taskId fd : Nat) : Prop :=
  taskId < vfs.taskFds.length ∧ fd < maxFds

theorem row_of_inTable (inside : vfs.InTable taskId fd) :
    ∃ cells, vfs.rows[taskId]? = some cells ∧ fd < cells.length := by
  rcases inside with ⟨bound, small⟩
  have found := getElem?_eq_getElem bound
  generalize vfs.taskFds[taskId] = table at found
  refine ⟨table.entries, ?_, ?_⟩
  · rw [rows, getElem?_map, found]
    rfl
  · rw [table.full]
    exact small

theorem inTable_of_entry (held : vfs.currentEntry taskId fd = some entry) :
    vfs.InTable taskId fd := by
  rcases bind_eq_some_iff.mp held with ⟨table, found, inner⟩
  rcases join_eq_some_iff.mp inner with present
  refine ⟨(List.getElem?_eq_some_iff.mp found).1, ?_⟩
  rw [<- table.full]
  exact (List.getElem?_eq_some_iff.mp present).1

theorem currentEntry_setEntry_self (inside : vfs.InTable taskId fd) (entry : Option LocalFd) :
    (vfs.setEntry taskId fd entry).currentEntry taskId fd = entry := by
  rcases row_of_inTable inside with ⟨cells, found, bound⟩
  rw [currentEntry_eq_slot, rows_setEntry, slot_setSlot_self found bound]

/-- What a slot in range holds. -/
theorem cell_of_inTable {cells : List (Option LocalFd)} (found : vfs.rows[taskId]? = some cells)
    (bound : fd < cells.length) : cells[fd]? = some (vfs.currentEntry taskId fd) := by
  rw [currentEntry_eq_slot, slot, found, bind_some, getElem?_eq_getElem bound]
  rfl

/-- Putting a descriptor into an empty slot adds it to the tables. -/
theorem entries_put (inside : vfs.InTable taskId fd)
    (empty : vfs.currentEntry taskId fd = none) (entry : LocalFd) :
    (vfs.setEntry taskId fd (some entry)).entries.Perm (entry :: vfs.entries) := by
  rcases row_of_inTable inside with ⟨cells, found, bound⟩
  have cell := cell_of_inTable found bound
  rw [empty] at cell
  rw [entries, rows_setEntry]
  exact occupants_fill found cell entry

/-- Taking a descriptor out of its slot removes it from the tables. -/
theorem entries_take (held : vfs.currentEntry taskId fd = some entry) :
    vfs.entries.Perm (entry :: (vfs.setEntry taskId fd none).entries) := by
  rcases row_of_inTable (inTable_of_entry held) with ⟨cells, found, bound⟩
  have cell := cell_of_inTable found bound
  rw [held] at cell
  rw [entries, entries, rows_setEntry]
  exact occupants_clear found cell

variable (vfs)

/-- A new table is empty. -/
theorem currentEntry_ensureTask (newTask taskId fd : Nat) :
    (vfs.ensureTask newTask).currentEntry taskId fd = vfs.currentEntry taskId fd := by
  unfold ensureTask currentEntry
  by_cases inside : taskId < vfs.taskFds.length
  · rw [getElem?_append_left inside]
  · have former : vfs.taskFds[taskId]? = none := getElem?_eq_none (by omega)
    rw [former, getElem?_append_right (by omega), getElem?_replicate]
    split
    · change TaskFdTable.new.entry fd = none
      rw [TaskFdTable.entry, TaskFdTable.new, getElem?_replicate]
      split <;> rfl
    · rfl

theorem occupants_empty (count width : Nat) :
    occupants (replicate count (replicate width (none : Option LocalFd))) = [] := by
  have row : (replicate width (none : Option LocalFd)).filterMap id = [] := by
    induction width with
    | zero => rfl
    | succ width ih => exact ih
  unfold occupants
  induction count with
  | zero => rfl
  | succ count ih => rw [replicate_succ, flatMap_cons, row, ih, append_nil]

theorem entries_ensureTask (newTask : Nat) : (vfs.ensureTask newTask).entries = vfs.entries := by
  have fresh : (TaskFdTable.new).entries = replicate 16 none := rfl
  unfold entries rows ensureTask
  rw [map_append, map_replicate, fresh, occupants, flatMap_append]
  have nothing := occupants_empty (newTask + 1 - vfs.taskFds.length) 16
  unfold occupants at nothing
  rw [nothing, append_nil]
  rfl

theorem ensureTask_inTable (inside : fd < maxFds) : (vfs.ensureTask taskId).InTable taskId fd := by
  refine ⟨?_, inside⟩
  change taskId < (vfs.taskFds ++ replicate (taskId + 1 - vfs.taskFds.length)
    TaskFdTable.new).length
  rw [length_append, length_replicate]
  omega

end VfsState

/-- The state in the middle of a call, with the descriptors the call holds. -/
structure Config where
  vfs : VfsState
  held : List LocalFd

/-- All descriptors that are counted. -/
def Config.counted (config : Config) : List LocalFd := config.held ++ config.vfs.entries

/-- One move of a call, and the tasks it wakes.  Slots to keep are not
emptied, and the only objects created are of the kinds the call makes. -/
inductive Move (keep : Nat -> Nat -> Prop) (makes : SharedKind -> Prop) :
    Config -> Config -> List Nat -> Prop
  | ensure (vfs : VfsState) (held : List LocalFd) (taskId : Nat) :
      Move keep makes ⟨vfs, held⟩ ⟨vfs.ensureTask taskId, held⟩ []
  | shmem (vfs : VfsState) (held : List LocalFd) (refs : List (List Nat)) :
      Move keep makes ⟨vfs, held⟩ ⟨{ vfs with taskShmemRefs := refs }, held⟩ []
  | create (vfs : VfsState) (held : List LocalFd) {kind : SharedKind} (access : FdAccess)
      (made : makes kind) (fresh : forall pipe, kind = .pipe pipe -> pipe = .new)
      (suits : kind.isPipe = access.isPipe) :
      Move keep makes ⟨vfs, held⟩
        ⟨((vfs.allocObject kind).2.retainFd ⟨(vfs.allocObject kind).1, access⟩).2,
          ⟨(vfs.allocObject kind).1, access⟩ :: held⟩ []
  | retain (vfs : VfsState) (held : List LocalFd) {entry : LocalFd}
      (counted : ∃ other ∈ held ++ vfs.entries, other.object = entry.object ∧
        other.access.isPipe = entry.access.isPipe) :
      Move keep makes ⟨vfs, held⟩ ⟨(vfs.retainFd entry).2, entry :: held⟩ []
  | put {vfs : VfsState} (held : List LocalFd) (entry : LocalFd) {taskId fd : Nat}
      (inside : vfs.InTable taskId fd) (empty : vfs.currentEntry taskId fd = none) :
      Move keep makes ⟨vfs, entry :: held⟩ ⟨vfs.setEntry taskId fd (some entry), held⟩ []
  | take {vfs : VfsState} (held : List LocalFd) {entry : LocalFd} {taskId fd : Nat}
      (present : vfs.currentEntry taskId fd = some entry) (dropped : ¬ keep taskId fd) :
      Move keep makes ⟨vfs, held⟩ ⟨vfs.setEntry taskId fd none, entry :: held⟩ []
  | release (vfs : VfsState) (held : List LocalFd) (entry : LocalFd) :
      Move keep makes ⟨vfs, entry :: held⟩ ⟨(vfs.releaseFd entry).2, held⟩
        (vfs.releaseFd entry).1.wakeTasks
  | giveBack (vfs : VfsState) (held : List LocalFd) {entry : LocalFd}
      (spare : entry ∈ held ++ vfs.entries) :
      Move keep makes ⟨vfs, entry :: held⟩ ⟨(vfs.releaseFd entry).2, held⟩ []

/-- A sequence of moves, and all tasks it wakes. -/
inductive Moves (keep : Nat -> Nat -> Prop) (makes : SharedKind -> Prop) :
    Config -> Config -> List Nat -> Prop
  | done (config : Config) : Moves keep makes config config []
  | step {first second last : Config} {woken later : List Nat} (move : Move keep makes first second woken)
      (rest : Moves keep makes second last later) : Moves keep makes first last (woken ++ later)

namespace Moves

variable {keep : Nat -> Nat -> Prop} {makes : SharedKind -> Prop} {first second last : Config}
  {woken later : List Nat}

theorem single (move : Move keep makes first second woken) :
    Moves keep makes first second woken := by
  have whole := step move (done second)
  rwa [append_nil] at whole

theorem trans (front : Moves keep makes first second woken)
    (back : Moves keep makes second last later) : Moves keep makes first last (woken ++ later) := by
  induction front with
  | done => exact back
  | step move _ ih =>
    rw [append_assoc]
    exact step move (ih back)

/-- A move that wakes nobody, and the rest. -/
theorem quiet (move : Move keep makes first second []) (back : Moves keep makes second last later) :
    Moves keep makes first last later := step move back

/-- A sequence, and a last move that wakes nobody. -/
theorem settle (front : Moves keep makes first second woken)
    (move : Move keep makes second last []) :
    Moves keep makes first last woken := by
  have whole := front.trans (single move)
  rwa [append_nil] at whole

/-- What every move preserves, a sequence of moves preserves. -/
theorem preserves {invariant : Config -> Prop}
    (one : ∀ first second woken, Move keep makes first second woken -> invariant first ->
      invariant second)
    (moves : Moves keep makes first last woken) (holds : invariant first) : invariant last := by
  induction moves with
  | done => exact holds
  | step move _ ih => exact ih (one _ _ _ move holds)

end Moves

variable {other : VfsState} {woken : List Nat} {first second last : Config}

theorem VfsState.entries_congr (same : other.taskFds = vfs.taskFds) :
    other.entries = vfs.entries := by
  unfold entries rows
  rw [same]

theorem VfsState.currentEntry_congr (same : other.taskFds = vfs.taskFds) (taskId fd : Nat) :
    other.currentEntry taskId fd = vfs.currentEntry taskId fd := by
  unfold currentEntry
  rw [same]

/-- Creating an object with its first descriptor. -/
theorem create_spec (vfs : VfsState) (kind : SharedKind) (access : FdAccess) :
    ((vfs.allocObject kind).2.retainFd ⟨(vfs.allocObject kind).1, access⟩).1 = true ∧
      ((vfs.allocObject kind).2.retainFd ⟨(vfs.allocObject kind).1, access⟩).2.object =
        update vfs.object (vfs.allocObject kind).1
          (some (SharedObject.retain { refs := 0, kind := kind } access)) ∧
      ((vfs.allocObject kind).2.retainFd ⟨(vfs.allocObject kind).1, access⟩).2.taskFds =
        vfs.taskFds := by
  rcases vfs.allocObject_spec kind with ⟨_, placed, tables⟩
  have present : (vfs.allocObject kind).2.object (vfs.allocObject kind).1 =
      some { refs := 0, kind := kind } := by
    rw [placed, update_self]
  rcases @retainFd_spec _ ⟨(vfs.allocObject kind).1, access⟩ _ present with
    ⟨success, counted⟩
  refine ⟨success, ?_, (retainFd_taskFds _ _).trans tables⟩
  rw [counted, placed, update_idem]

variable {keep : Nat -> Nat -> Prop} {makes : SharedKind -> Prop}

/-- What a move does to the objects and the counted descriptors, and the tasks it wakes. -/
inductive Recount (makes : SharedKind -> Prop) (object : Nat -> Option SharedObject)
    (counted : List LocalFd) : (Nat -> Option SharedObject) -> List LocalFd -> List Nat -> Prop
  | same {others : List LocalFd} (same : counted.Perm others) :
      Recount makes object counted object others []
  | create {kind : SharedKind} (entry : LocalFd) (free : object entry.object = none)
      (made : makes kind) (fresh : forall pipe, kind = .pipe pipe -> pipe = .new)
      (suits : kind.isPipe = entry.access.isPipe) :
      Recount makes object counted (update object entry.object
        (some (SharedObject.retain { refs := 0, kind := kind } entry.access))) (entry :: counted) []
  | retain {entry other : LocalFd} {shared : SharedObject}
      (found : object entry.object = some shared) (listed : other ∈ counted)
      (same : other.object = entry.object) (alike : other.access.isPipe = entry.access.isPipe) :
      Recount makes object counted (update object entry.object
        (some (shared.retain entry.access))) (entry :: counted) []
  | release {entry : LocalFd} {rest : List LocalFd} {shared : SharedObject} {woken : List Nat}
      (first : counted = entry :: rest) (found : object entry.object = some shared)
      (wakes : woken = (shared.release entry.access).1 ∨ woken = [] ∧ entry ∈ rest) :
      Recount makes object counted (update object entry.object
        (Tallied.remainder shared entry.access)) rest woken

theorem releaseFd_recounts {held : List LocalFd}
    (tallied : Tallied vfs.object (entry :: (held ++ vfs.entries)))
    (wakes : woken = (vfs.releaseFd entry).1.wakeTasks ∨ woken = [] ∧ entry ∈ held ++ vfs.entries) :
    Recount makes vfs.object (entry :: (held ++ vfs.entries)) (vfs.releaseFd entry).2.object
      (held ++ (vfs.releaseFd entry).2.entries) woken := by
  rcases tallied.found mem_cons_self with ⟨shared, found⟩
  rcases releaseFd_spec found with ⟨woken, objects⟩
  rw [woken] at wakes
  rw [entries_congr (vfs.releaseFd_taskFds entry), objects]
  exact .release rfl found wakes

theorem Move.recounts (move : Move keep makes first second woken)
    (tallied : Tallied first.vfs.object first.counted) :
    Recount makes first.vfs.object first.counted second.vfs.object second.counted woken := by
  cases move with
  | ensure vfs held taskId =>
    refine .same (.of_eq ?_)
    rw [Config.counted, Config.counted, entries_ensureTask]
  | shmem vfs held refs => exact .same (.refl _)
  | @create vfs held kind access made fresh suits =>
    rcases create_spec vfs kind access with ⟨_, object, same⟩
    dsimp only [Config.counted]
    rw [entries_congr same, object]
    exact .create ⟨_, access⟩ (vfs.allocObject_spec kind).1 made fresh suits
  | @retain vfs held entry counted =>
    rcases counted with ⟨other, listed, same, alike⟩
    rcases tallied.found listed with ⟨shared, found⟩
    rw [same] at found
    dsimp only [Config.counted]
    rw [entries_congr (vfs.retainFd_taskFds entry), (retainFd_spec found).2]
    exact .retain found listed same alike
  | put held entry inside empty =>
    refine .same (perm_middle.symm.trans ?_)
    exact (entries_put inside empty entry).symm.append_left held
  | take held present dropped =>
    exact .same (((entries_take present).append_left held).trans perm_middle)
  | release vfs held entry => exact releaseFd_recounts tallied (.inl rfl)
  | giveBack vfs held spare => exact releaseFd_recounts tallied (.inr ⟨rfl, spare⟩)

/-- The counters stay exact for all counted descriptors. -/
theorem Recount.tallied {object after : Nat -> Option SharedObject} {counted : List LocalFd}
    (recount : Recount makes object counted after others woken) (tallied : Tallied object counted) :
    Tallied after others := by
  cases recount with
  | same same => exact tallied.perm same
  | create entry free made fresh suits =>
    refine tallied.create free fun pipe isPipe => ?_
    rw [fresh pipe isPipe]
    exact ⟨rfl, rfl⟩
  | retain found listed same alike => exact tallied.retain found
  | release first found wakes =>
    subst first
    exact tallied.release found

theorem Move.tallied (move : Move keep makes first second woken)
    (tallied : Tallied first.vfs.object first.counted) :
    Tallied second.vfs.object second.counted := (move.recounts tallied).tallied tallied

theorem Moves.tallied (moves : Moves keep makes first last woken)
    (tallied : Tallied first.vfs.object first.counted) : Tallied last.vfs.object last.counted :=
  @Moves.preserves keep makes first last woken (fun config => Tallied config.vfs.object config.counted)
    (fun _ _ _ move holds => move.tallied holds) moves tallied

/-- Slots to keep are kept. -/
theorem Move.kept (move : Move keep makes first second woken) (kept : keep taskId fd)
    (present : first.vfs.currentEntry taskId fd = some entry) :
    second.vfs.currentEntry taskId fd = some entry := by
  cases move with
  | ensure vfs held newTask =>
    rw [currentEntry_ensureTask]
    exact present
  | shmem vfs held refs => exact present
  | @create vfs held kind access made fresh suits =>
    dsimp only
    rw [currentEntry_congr (create_spec vfs kind access).2.2]
    exact present
  | @retain vfs held other counted =>
    rw [currentEntry_congr (vfs.retainFd_taskFds other)]
    exact present
  | @put vfs held other newTask newFd inside empty =>
    dsimp only
    rw [currentEntry_setEntry_other]
    · exact present
    · by_contra same
      rw [not_or, not_not, not_not] at same
      rw [same.1, same.2] at present
      exact absurd (present.symm.trans empty) (some_ne_none entry)
  | @take vfs held other oldTask oldFd held dropped =>
    rw [currentEntry_setEntry_other]
    · exact present
    · by_contra same
      rw [not_or, not_not, not_not] at same
      rw [same.1, same.2] at kept
      exact dropped kept
  | release vfs held other =>
    dsimp only
    rw [currentEntry_congr (vfs.releaseFd_taskFds other)]
    exact present
  | @giveBack vfs held other spare =>
    rw [currentEntry_congr (vfs.releaseFd_taskFds other)]
    exact present

theorem Moves.kept (moves : Moves keep makes first last woken) (kept : keep taskId fd)
    (present : first.vfs.currentEntry taskId fd = some entry) :
    last.vfs.currentEntry taskId fd = some entry :=
  @Moves.preserves keep makes first last woken
    (fun config => config.vfs.currentEntry taskId fd = some entry)
    (fun _ _ _ move holds => move.kept kept holds) moves present

end CoolOs.Vfs
