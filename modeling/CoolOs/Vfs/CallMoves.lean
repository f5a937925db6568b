import CoolOs.Vfs.Moves

namespace CoolOs.Vfs

open Queues List Option

/-!
# The calls as sequences of moves

Opening, duplicating and closing descriptors, ending a task and inheriting
descriptors.  Each call ends with no descriptor in its hands, except for an
inheritance that meets an occupied place: it keeps one descriptor counted that
no table holds.
-/

variable {keep : Nat -> Nat -> Prop} {makes : SharedKind -> Prop} {taskId fd : Nat}

theorem TaskFdTable.freeFd_spec {table : TaskFdTable}
    (found : table.freeFd = some fd) : 3 <= fd ∧ fd < maxFds ∧ table.entry fd = none := by
  have listed := mem_range'_1.mp (mem_of_find?_eq_some found)
  have free := find?_some found
  exact ⟨listed.1, by omega, isNone_iff_eq_none.mp free⟩

theorem TaskFdTable.freeFd_of_freeSlots {table : TaskFdTable} (some : 0 < table.freeSlots) :
    ∃ fd, table.freeFd = Option.some fd := by
  rcases countP_pos_iff.mp some with ⟨cell, listed, free⟩
  rcases mem_iff_getElem?.mp listed with ⟨offset, found⟩
  rw [getElem?_drop] at found
  have bound := (List.getElem?_eq_some_iff.mp found).1
  rw [table.full] at bound
  have empty : table.entry (3 + offset) = none := by
    rw [TaskFdTable.entry, found, isNone_iff_eq_none.mp free]
    rfl
  apply ne_none_iff_exists'.mp
  intro missing
  refine find?_eq_none.mp missing (3 + offset) ?_ (isNone_iff_eq_none.mpr empty)
  exact mem_range'_1.mpr ⟨by omega, by simp only [maxFds]; omega⟩

theorem TaskFdTable.freeSlots_set (table : TaskFdTable) (low : 3 <= fd)
    (entry : Option LocalFd) : table.freeSlots <= (table.set fd entry).freeSlots + 1 := by
  unfold freeSlots TaskFdTable.set
  rw [drop_set, if_neg (by omega)]
  by_cases inside : fd - 3 < (table.entries.drop 3).length
  · rw [countP_set inside]
    split <;> split <;> omega
  · rw [set_eq_of_length_le (by omega)]
    omega

namespace VfsState

theorem freeSlots_congr {vfs other : VfsState} (same : other.taskFds = vfs.taskFds)
    (taskId : Nat) : other.freeSlots taskId = vfs.freeSlots taskId := by
  unfold freeSlots
  rw [same]

/-- With a free slot, a descriptor is placed in one. -/
theorem allocFd_spec {vfs : VfsState} (some : 0 < vfs.freeSlots taskId) (entry : LocalFd) : ∃ fd,
      vfs.allocFd taskId entry = (Option.some fd, vfs.setEntry taskId fd (Option.some entry)) ∧
        vfs.InTable taskId fd ∧ vfs.currentEntry taskId fd = none ∧
        vfs.freeSlots taskId <=
          (vfs.setEntry taskId fd (Option.some entry)).freeSlots taskId + 1 := by
  unfold freeSlots at some ⊢
  cases found : vfs.taskFds[taskId]? with
  | none =>
    rw [found] at some
    exact absurd some (Nat.lt_irrefl 0)
  | some table =>
    rw [found] at some
    rcases TaskFdTable.freeFd_of_freeSlots some with ⟨fd, free⟩
    rcases TaskFdTable.freeFd_spec free with ⟨low, high, empty⟩
    refine ⟨fd, ?_, ⟨(List.getElem?_eq_some_iff.mp found).1, high⟩, ?_, ?_⟩
    · unfold allocFd
      rw [found, bind_some, free]
    · rw [currentEntry, found]
      exact empty
    · rw [setEntry, getElem?_modify_eq, found]
      exact table.freeSlots_set low _

section

variable (held : List LocalFd)

/-- A descriptor that is counted already is counted once more. -/
theorem retainFd_moves {vfs : VfsState} (tallied : Tallied vfs.object (held ++ vfs.entries))
    {entry : LocalFd} (listed : entry ∈ held ++ vfs.entries) : ∃ counted,
      vfs.retainFd entry = (true, counted) ∧ counted.taskFds = vfs.taskFds ∧
        Move keep makes ⟨vfs, held⟩ ⟨counted, entry :: held⟩ [] := by
  rcases tallied.found listed with ⟨shared, live⟩
  exact ⟨_, Prod.ext (retainFd_spec live).1 rfl, vfs.retainFd_taskFds entry,
    .retain vfs held ⟨entry, listed, rfl, rfl⟩⟩

/-- The first descriptor of a new object. -/
theorem create_moves (vfs : VfsState) {kind : SharedKind} (access : FdAccess) (made : makes kind)
    (fresh : ∀ pipe, kind = .pipe pipe -> pipe = .new) (suits : kind.isPipe = access.isPipe) :
    ∃ id placed counted,
      vfs.allocObject kind = (id, placed) ∧ placed.retainFd ⟨id, access⟩ = (true, counted) ∧
        vfs.object id = none ∧ counted.taskFds = vfs.taskFds ∧
        counted.object = Function.update vfs.object id
          (some (SharedObject.retain { refs := 0, kind := kind } access)) ∧
        Move keep makes ⟨vfs, held⟩ ⟨counted, ⟨id, access⟩ :: held⟩ [] := by
  rcases create_spec vfs kind access with ⟨success, objects, tables⟩
  exact ⟨_, _, _, rfl, Prod.ext success rfl, (vfs.allocObject_spec kind).1, tables, objects,
    .create vfs held access made fresh suits⟩

theorem openObject_moves (vfs : VfsState) (taskId : Nat) (file : OpenFile)
    (made : makes (.file file))
    : Moves keep makes ⟨vfs, held⟩ ⟨(vfs.openObject taskId file).2, held⟩ [] := by
  unfold openObject
  refine .quiet (.ensure vfs held taskId) ?_
  generalize vfs.ensureTask taskId = ready
  by_cases full : ready.freeSlots taskId = 0
  · rw [if_pos full]
    exact .done _
  · rw [if_neg full]
    rcases @create_moves keep makes held ready (.file file) .file made nofun rfl with
      ⟨object, placed, counted, allocated, retained, _, tables, _, move⟩
    simp only [allocated, retained]
    have room : 0 < counted.freeSlots taskId := by
      rw [freeSlots_congr tables]
      omega
    rcases allocFd_spec room ⟨object, .file⟩ with ⟨fd, taken, inside, empty, _⟩
    rw [taken]
    exact .quiet move (.single (.put held _ inside empty))

theorem vfsOpen_moves (made : ∀ file, makes (.file file)) (vfs : VfsState) (taskId : Nat)
    (data : Option (List UInt8)) (admitted : Bool) :
    Moves keep makes ⟨vfs, held⟩ ⟨(vfs.vfsOpen taskId data admitted).2, held⟩ [] := by
  cases data with
  | none => exact .done _
  | some data =>
    cases admitted with
    | false => exact .done _
    | true => exact openObject_moves held vfs taskId _ (made _)

theorem vfsOpenWrite_moves (made : ∀ file, makes (.file file)) (vfs : VfsState)
    (taskId : Nat) (path : List UInt8) (allowed : Bool) :
    Moves keep makes ⟨vfs, held⟩ ⟨(vfs.vfsOpenWrite taskId path allowed).2, held⟩ [] := by
  cases allowed with
  | false => exact .done _
  | true => exact openObject_moves held vfs taskId _ (made _)

/-- The object of a new pipe. -/
def newPipe : SharedObject where
  refs := 2
  kind := .pipe { Pipe.new with readers := 1, writers := 1 }

/-- A new pipe goes to a free slot, with its two descriptors in the table; else
no object changes. -/
theorem vfsPipe_spec (made : makes (.pipe .new)) (vfs : VfsState) (taskId : Nat) (admitted : Bool) :
    Moves keep makes ⟨vfs, held⟩ ⟨(vfs.vfsPipe taskId admitted).2, held⟩ [] ∧
      (((vfs.vfsPipe taskId admitted).1 = none ∧
          (vfs.vfsPipe taskId admitted).2.object = vfs.object) ∨
        ∃ id readFd writeFd,
          (vfs.vfsPipe taskId admitted).1 = some (readFd, writeFd) ∧ vfs.object id = none ∧
          (vfs.vfsPipe taskId admitted).2.currentEntry taskId readFd = some ⟨id, .pipeRead⟩ ∧
          (vfs.vfsPipe taskId admitted).2.object = Function.update vfs.object id (some newPipe)) := by
  unfold vfsPipe
  cases admitted with
  | false => exact ⟨.done _, .inl ⟨rfl, rfl⟩⟩
  | true =>
    have ensure := @Move.ensure keep makes vfs held taskId
    have sameObjects : (vfs.ensureTask taskId).object = vfs.object := rfl
    rw [if_neg (by decide)]
    generalize vfs.ensureTask taskId = ready at ensure sameObjects ⊢
    by_cases full : ready.freeSlots taskId < 2
    · rw [if_pos full]
      exact ⟨.single ensure, .inl ⟨rfl, sameObjects⟩⟩
    · rw [if_neg full]
      rcases @create_moves keep makes held ready (.pipe .new) .pipeRead made
        (fun _ same => (SharedKind.pipe.inj same).symm) rfl with
        ⟨object, placed, counted, allocated, retained, free, tables, objects, move⟩
      simp only [allocated, retained]
      have room : 0 < counted.freeSlots taskId := by
        rw [freeSlots_congr tables]
        omega
      rcases allocFd_spec room ⟨object, .pipeRead⟩ with ⟨readFd, taken, inside, empty, left⟩
      rw [taken]
      dsimp only
      -- the write end is retained on the live object
      rw [freeSlots_congr tables] at left
      have putRead := @Move.put keep makes counted held ⟨object, .pipeRead⟩ _ _ inside empty
      have present := currentEntry_setEntry_self inside (some ⟨object, .pipeRead⟩)
      have listed : ⟨object, .pipeRead⟩ ∈
          (counted.setEntry taskId readFd (some ⟨object, .pipeRead⟩)).entries :=
        (entries_put inside empty _).mem_iff.mpr mem_cons_self
      have objectsNext : (counted.setEntry taskId readFd (some ⟨object, .pipeRead⟩)).object =
          Function.update ready.object object
            (some (.retain { refs := 0, kind := .pipe .new } .pipeRead)) := objects
      generalize counted.setEntry taskId readFd (some ⟨object, .pipeRead⟩) = next
        at left putRead present listed objectsNext ⊢
      have live : next.object object =
          some (.retain { refs := 0, kind := .pipe .new } .pipeRead) := by
        rw [objectsNext, Function.update_self]
      rcases @retainFd_spec next ⟨object, .pipeWrite⟩ _ live with ⟨success, objectsBoth⟩
      have tablesNext := next.retainFd_taskFds ⟨object, .pipeWrite⟩
      have retain := @Move.retain keep makes next held ⟨object, .pipeWrite⟩
        ⟨⟨object, .pipeRead⟩, mem_append_right _ listed, rfl, rfl⟩
      generalize next.retainFd ⟨object, .pipeWrite⟩ = retained
        at success objectsBoth tablesNext retain ⊢
      rcases retained with ⟨_, both⟩
      subst success
      have again : 0 < both.freeSlots taskId := by
        rw [freeSlots_congr tablesNext]
        omega
      rcases allocFd_spec again ⟨object, .pipeWrite⟩ with
        ⟨writeFd, allocated, insideWrite, emptyWrite, _⟩
      have still : both.currentEntry taskId readFd = some ⟨object, .pipeRead⟩ :=
        (currentEntry_congr tablesNext taskId readFd).trans present
      have apart : readFd ≠ writeFd := by
        rintro rfl
        exact absurd (still.symm.trans emptyWrite) (some_ne_none _)
      dsimp only
      rw [allocated]
      refine ⟨?_, .inr ⟨object, readFd, writeFd, rfl, ?_, ?_, ?_⟩⟩
      · exact .quiet ensure (.quiet move (.quiet putRead
          (.quiet retain (.single (.put held _ insideWrite emptyWrite)))))
      · rw [<- sameObjects]
        exact free
      · exact (currentEntry_setEntry_other both (.inr apart) _).trans still
      · change both.object = _
        rw [objectsBoth, objectsNext, Function.update_idem, sameObjects]
        rfl

/-- Duplicating retains a descriptor of the task, so it is counted. -/
theorem vfsDup_moves {vfs : VfsState} (tallied : Tallied vfs.object (held ++ vfs.entries))
    (taskId fd : Nat) : Moves keep makes ⟨vfs, held⟩ ⟨(vfs.vfsDup taskId fd).2, held⟩ [] := by
  have stillTallied := (@Move.ensure keep makes vfs held taskId).tallied tallied
  unfold vfsDup
  refine .quiet (.ensure vfs held taskId) ?_
  generalize vfs.ensureTask taskId = ready at stillTallied ⊢
  by_cases full : ready.freeSlots taskId = 0
  · rw [if_pos full]
    exact .done _
  · rw [if_neg full]
    cases present : ready.currentEntry taskId fd with
    | none => exact .done _
    | some entry =>
      dsimp only
      have listed : entry ∈ held ++ ready.entries :=
        mem_append_right _ (mem_entries.mpr ⟨taskId, fd, present⟩)
      rcases @retainFd_moves keep makes held ready stillTallied entry listed with
        ⟨counted, retained, tables, move⟩
      rw [retained]
      have room : 0 < counted.freeSlots taskId := by
        rw [freeSlots_congr tables]
        omega
      rcases allocFd_spec room entry with ⟨newFd, allocated, inside, empty, _⟩
      dsimp only
      rw [allocated]
      exact .quiet move (.single (.put held _ inside empty))

/-- Closing takes a descriptor of the task and releases it. -/
theorem vfsClose_moves (vfs : VfsState) (dropped : ¬ keep taskId fd) :
    Moves keep makes ⟨vfs, held⟩ ⟨(vfs.vfsClose taskId fd).2, held⟩
      (vfs.vfsClose taskId fd).1.wakeTasks := by
  unfold vfsClose
  cases present : vfs.currentEntry taskId fd with
  | none => exact .done _
  | some entry =>
    exact .quiet (.take held present dropped) (.single (.release _ held entry))

theorem dropFds_moves (dropped : ∀ fd, ¬ keep taskId fd) (fds : List Nat)
    (vfs : VfsState) : Moves keep makes ⟨vfs, held⟩ ⟨(dropFds taskId fds vfs).2, held⟩
      (dropFds taskId fds vfs).1.1 := by
  induction fds generalizing vfs with
  | nil => exact .done _
  | cons fd rest ih =>
    unfold dropFds
    cases present : vfs.currentEntry taskId fd with
    | none => exact ih vfs
    | some entry =>
      exact .quiet (.take held present (dropped fd)) (.step (.release _ held entry) (ih _))

theorem dropTask_moves (vfs : VfsState) (dropped : ∀ fd, ¬ keep taskId fd) :
    Moves keep makes ⟨vfs, held⟩ ⟨(vfs.dropTask taskId).2, held⟩
      (vfs.dropTask taskId).1.wakeTasks := by
  unfold dropTask
  split
  · exact .done _
  · exact .settle (dropFds_moves held dropped (range maxFds) vfs) (.shmem _ held _)

end

/-- Whether the loop of `inherit_fds` meets an occupied place. -/
def collides (parentTask childTask : Nat) : List (Nat × Nat) -> VfsState -> Bool
  | [], _ => false
  | (parentFd, childFd) :: rest, vfs =>
    match vfs.currentEntry parentTask parentFd with
    | none => false
    | some entry =>
      if (vfs.currentEntry childTask childFd).isSome then true
      else
        match vfs.inheritEntry childTask childFd entry [] with
        | (false, _) => false
        | (true, vfs) => collides parentTask childTask rest vfs

/-- Whether the loop of `inherit_all_fds` meets an occupied place. -/
def collidesAll (childTask : Nat) : List (Option LocalFd × Nat) -> VfsState -> Bool
  | [], _ => false
  | (none, _) :: rest, vfs => collidesAll childTask rest vfs
  | (some entry, fd) :: rest, vfs =>
    if (vfs.currentEntry childTask fd).isSome then true
    else
      match vfs.inheritEntry childTask fd entry [] with
      | (false, _) => false
      | (true, vfs) => collidesAll childTask rest vfs

/-- The slots to keep are occupied, and every descriptor in a table has a copy
in one of them. -/
structure Sourced (keep : Nat -> Nat -> Prop) (vfs : VfsState) : Prop where
  occupied : forall taskId fd, keep taskId fd -> vfs.currentEntry taskId fd ≠ none
  copies : ∀ entry ∈ vfs.entries, ∃ taskId fd,
    keep taskId fd ∧ vfs.currentEntry taskId fd = some entry

theorem Sourced.congr {vfs other : VfsState} (sourced : Sourced keep vfs)
    (same : other.taskFds = vfs.taskFds) : Sourced keep other where
  occupied := by
    intro taskId fd kept
    rw [currentEntry_congr same]
    exact sourced.occupied taskId fd kept
  copies := by
    intro entry listed
    rw [entries_congr same] at listed
    rcases sourced.copies entry listed with ⟨taskId, fd, kept, present⟩
    exact ⟨taskId, fd, kept, (currentEntry_congr same taskId fd).trans present⟩

/-- A change of a slot that is not to be kept leaves the kept ones alone. -/
theorem currentEntry_of_kept (vfs : VfsState) {otherTask otherFd : Nat}
    (dropped : ¬ keep taskId fd) (kept : keep otherTask otherFd) (entry : Option LocalFd) :
    (vfs.setEntry taskId fd entry).currentEntry otherTask otherFd =
      vfs.currentEntry otherTask otherFd := by
  apply currentEntry_setEntry_other
  by_contra same
  rw [not_or, not_not, not_not] at same
  rw [same.1, same.2] at kept
  exact dropped kept

variable {vfs : VfsState}

section

variable (sourced : Sourced keep vfs)
include sourced

theorem Sourced.take {entry : LocalFd} (present : vfs.currentEntry taskId fd = some entry)
    (dropped : ¬ keep taskId fd) : Sourced keep (vfs.setEntry taskId fd none) where
  occupied := by
    intro otherTask otherFd kept
    rw [currentEntry_of_kept vfs dropped kept]
    exact sourced.occupied otherTask otherFd kept
  copies := by
    intro other listed
    rcases sourced.copies other ((entries_take present).mem_iff.mpr
      (mem_cons_of_mem _ listed)) with ⟨otherTask, otherFd, kept, found⟩
    exact ⟨otherTask, otherFd, kept, (currentEntry_of_kept vfs dropped kept none).trans found⟩

/-- A descriptor that is taken out of another slot stays in a kept one. -/
theorem Sourced.spare {entry : LocalFd} (present : vfs.currentEntry taskId fd = some entry)
    (dropped : ¬ keep taskId fd) : entry ∈ (vfs.setEntry taskId fd none).entries := by
  rcases sourced.copies entry (mem_entries.mpr ⟨taskId, fd, present⟩) with
    ⟨otherTask, otherFd, kept, found⟩
  exact mem_entries.mpr ⟨otherTask, otherFd,
    (currentEntry_of_kept vfs dropped kept none).trans found⟩

theorem Sourced.put {entry : LocalFd} (inside : vfs.InTable taskId fd)
    (empty : vfs.currentEntry taskId fd = none) (listed : entry ∈ vfs.entries) :
    Sourced keep (vfs.setEntry taskId fd (some entry)) := by
  have dropped : ¬ keep taskId fd := fun kept => sourced.occupied taskId fd kept empty
  constructor
  · intro otherTask otherFd kept
    rw [currentEntry_of_kept vfs dropped kept]
    exact sourced.occupied otherTask otherFd kept
  · intro other listedOther
    have old : other ∈ vfs.entries := by
      rcases mem_cons.mp ((entries_put inside empty entry).mem_iff.mp listedOther) with
        rfl | old
      · exact listed
      · exact old
    rcases sourced.copies other old with ⟨otherTask, otherFd, kept, found⟩
    exact ⟨otherTask, otherFd, kept, (currentEntry_of_kept vfs dropped kept _).trans found⟩

/-- Rolling back gives back copies of descriptors that stay. -/
theorem rollback_moves (held : List LocalFd) (childTask : Nat) {installed : List Nat}
    (placed : ∀ fd ∈ installed, ¬ keep childTask fd) :
    Moves keep makes ⟨vfs, held⟩ ⟨rollback childTask installed vfs, held⟩ [] := by
  induction installed generalizing vfs with
  | nil => exact .done _
  | cons fd rest ih =>
    have later := fun other listed => placed other (mem_cons_of_mem fd listed)
    unfold rollback
    cases present : vfs.currentEntry childTask fd with
    | none => exact ih sourced later
    | some entry =>
      have dropped := placed fd mem_cons_self
      refine .quiet (.take held present dropped) ?_
      refine .quiet (.giveBack _ held (mem_append_right _ (sourced.spare present dropped))) ?_
      exact ih ((sourced.take present dropped).congr (releaseFd_taskFds _ _)) later

end

section

variable {held : List LocalFd} {childTask childFd : Nat} {entry : LocalFd} {installed : List Nat}

/-- The state after a descriptor is retained and installed. -/
def withInstalled (vfs : VfsState) (childTask childFd : Nat) (entry : LocalFd) : VfsState :=
  (vfs.retainFd entry).2.setEntry childTask childFd (some entry)

/-- An empty place in range takes the descriptor. -/
theorem inheritEntry_installs (tallied : Tallied vfs.object (held ++ vfs.entries))
    (sourced : Sourced keep vfs) (listed : entry ∈ vfs.entries)
    (inside : vfs.InTable childTask childFd) (empty : vfs.currentEntry childTask childFd = none)
    (others : List Nat) :
    vfs.inheritEntry childTask childFd entry others =
        (true, vfs.withInstalled childTask childFd entry) ∧
      Moves keep makes ⟨vfs, held⟩ ⟨vfs.withInstalled childTask childFd entry, held⟩ [] ∧
      Sourced keep (vfs.withInstalled childTask childFd entry) := by
  rcases @retainFd_moves keep makes held vfs tallied entry (mem_append_right held listed) with
    ⟨counted, retained, tables, move⟩
  unfold inheritEntry withInstalled
  rw [retained]
  have stillEmpty : counted.currentEntry childTask childFd = none := by
    rw [currentEntry_congr tables]
    exact empty
  have stillInside : counted.InTable childTask childFd := by
    rw [InTable, tables]
    exact inside
  have free : ¬ (maxFds <= childFd ∨ (counted.currentEntry childTask childFd).isSome = true) := by
    rw [stillEmpty]
    rintro (large | some)
    · exact absurd inside.2 (Nat.not_lt_of_le large)
    · cases some
  refine ⟨?_, ?_, ?_⟩
  · dsimp only
    rw [installFd, if_neg free]
  · exact .quiet move (.single (.put held _ stillInside stillEmpty))
  · refine (sourced.congr tables).put stillInside stillEmpty ?_
    rw [entries_congr tables]
    exact listed

/-- A place that cannot take the descriptor: it is given back if the place is
out of range, and lost if the place is occupied. -/
theorem inheritEntry_refuses (tallied : Tallied vfs.object (held ++ vfs.entries))
    (sourced : Sourced keep vfs) (listed : entry ∈ vfs.entries)
    (placed : ∀ fd ∈ installed, ¬ keep childTask fd)
    (refused : maxFds <= childFd ∨ (vfs.currentEntry childTask childFd).isSome = true) :
    (vfs.inheritEntry childTask childFd entry installed).1 = false ∧
      Moves keep makes ⟨vfs, held⟩ ⟨(vfs.inheritEntry childTask childFd entry installed).2,
        (if (vfs.currentEntry childTask childFd).isSome then [entry] else []) ++ held⟩ [] := by
  rcases @retainFd_moves keep makes held vfs tallied entry (mem_append_right held listed) with
    ⟨counted, retained, tables, move⟩
  unfold inheritEntry
  rw [retained]
  have same := currentEntry_congr tables childTask childFd
  rw [<- same] at refused ⊢
  have still := sourced.congr tables
  dsimp only
  rw [installFd, if_pos refused]
  refine ⟨rfl, .quiet move ?_⟩
  dsimp only [abandon]
  cases place : counted.currentEntry childTask childFd with
  | none =>
    have spare : entry ∈ held ++ counted.entries := by
      rw [entries_congr tables]
      exact mem_append_right held listed
    exact .quiet (.giveBack counted held spare)
      (rollback_moves (still.congr (releaseFd_taskFds _ _)) held childTask placed)
  | some other =>
    exact rollback_moves still (entry :: held) childTask placed

theorem withInstalled_inTable (inside : vfs.InTable childTask childFd) (fd : Nat)
    (small : fd < maxFds) : (vfs.withInstalled childTask childFd entry).InTable childTask fd := by
  refine ⟨?_, small⟩
  change childTask < ((vfs.retainFd entry).2.taskFds.modify _ _).length
  rw [length_modify, retainFd_taskFds]
  exact inside.1

/-- One descriptor of an inheriting loop: it is refused, and lost if its place is
occupied, or it is installed and the loop can go on. -/
theorem inheritEntry_outcome (tallied : Tallied vfs.object (held ++ vfs.entries))
    (sourced : Sourced keep vfs) (listed : entry ∈ vfs.entries) (table : vfs.InTable childTask 0)
    (placed : ∀ fd ∈ installed, ¬ keep childTask fd) :
    (∃ after alone,
      vfs.inheritEntry childTask childFd entry installed = (false, after) ∧
      vfs.inheritEntry childTask childFd entry [] = (false, alone) ∧
      Moves keep makes ⟨vfs, held⟩ ⟨after,
        (if (vfs.currentEntry childTask childFd).isSome then [entry] else []) ++ held⟩ []) ∨
    (∃ after,
      vfs.inheritEntry childTask childFd entry installed = (true, after) ∧
      vfs.inheritEntry childTask childFd entry [] = (true, after) ∧
      vfs.currentEntry childTask childFd = none ∧
      Moves keep makes ⟨vfs, held⟩ ⟨after, held⟩ [] ∧ Sourced keep after ∧
      after.InTable childTask 0 ∧ ∀ fd ∈ installed ++ [childFd], ¬ keep childTask fd) := by
  by_cases refused : maxFds <= childFd ∨ (vfs.currentEntry childTask childFd).isSome = true
  · have failed := @inheritEntry_refuses keep makes vfs held childTask childFd entry installed
      tallied sourced listed placed refused
    have failedAlone := @inheritEntry_refuses keep makes vfs held childTask childFd entry []
      tallied sourced listed (fun _ impossible => nomatch impossible) refused
    exact .inl ⟨_, _, Prod.ext failed.1 rfl, Prod.ext failedAlone.1 rfl, failed.2⟩
  · rw [not_or, Nat.not_le, Bool.not_eq_true, isSome_eq_false_iff, isNone_iff_eq_none] at refused
    rcases refused with ⟨small, empty⟩
    have inside : vfs.InTable childTask childFd := ⟨table.1, small⟩
    have installs := @inheritEntry_installs keep makes vfs held childTask childFd entry
      tallied sourced listed inside empty
    refine .inr ⟨_, (installs installed).1, (installs []).1, empty, (installs []).2.1,
      (installs []).2.2, withInstalled_inTable inside 0 (by decide), ?_⟩
    intro fd member
    rcases mem_append.mp member with early | last
    · exact placed fd early
    · rw [mem_singleton.mp last]
      exact fun kept => sourced.occupied childTask childFd kept empty

end

/-- The loop of `inherit_fds` loses a descriptor exactly if it meets an occupied
place. -/
theorem inheritMappings_moves {parentTask childTask : Nat} (mappings : List (Nat × Nat))
    {vfs : VfsState} {held : List LocalFd} {installed : List Nat}
    (tallied : Tallied vfs.object (held ++ vfs.entries)) (sourced : Sourced keep vfs)
    (table : vfs.InTable childTask 0) (placed : ∀ fd ∈ installed, ¬ keep childTask fd) :
    ∃ lost,
      Moves keep makes ⟨vfs, held⟩
        ⟨(inheritMappings parentTask childTask mappings installed vfs).2, lost ++ held⟩ [] ∧
      lost.length = (collides parentTask childTask mappings vfs).toNat := by
  induction mappings generalizing vfs installed with
  | nil => exact ⟨[], .done _, rfl⟩
  | cons mapping rest ih =>
    rcases mapping with ⟨parentFd, childFd⟩
    unfold inheritMappings collides
    cases source : vfs.currentEntry parentTask parentFd with
    | none => exact ⟨[], rollback_moves sourced held childTask placed, rfl⟩
    | some entry =>
      have listed : entry ∈ vfs.entries := mem_entries.mpr ⟨parentTask, parentFd, source⟩
      dsimp only
      rcases @inheritEntry_outcome keep makes vfs held childTask childFd entry installed
        tallied sourced listed table placed with
        ⟨after, alone, failed, failedAlone, moves⟩ |
        ⟨after, success, alone, empty, moves, still, tableStill, placedAll⟩
      · rw [failed, failedAlone]
        refine ⟨_, moves, ?_⟩
        split <;> rfl
      · rcases ih (moves.tallied tallied) still tableStill placedAll with
          ⟨lost, later, count⟩
        rw [success, alone, empty]
        exact ⟨lost, moves.trans later, count⟩

/-- The loop of `inherit_all_fds`, likewise. -/
theorem inheritEntries_moves {childTask : Nat} (sources : List (Option LocalFd × Nat))
    {vfs : VfsState} {held : List LocalFd} {installed : List Nat}
    (tallied : Tallied vfs.object (held ++ vfs.entries)) (sourced : Sourced keep vfs)
    (known : ∀ entry fd, (some entry, fd) ∈ sources -> entry ∈ vfs.entries)
    (table : vfs.InTable childTask 0) (placed : ∀ fd ∈ installed, ¬ keep childTask fd) :
    ∃ lost,
      Moves keep makes ⟨vfs, held⟩
        ⟨(inheritEntries childTask sources installed vfs).2, lost ++ held⟩ [] ∧
      lost.length = (collidesAll childTask sources vfs).toNat := by
  induction sources generalizing vfs installed with
  | nil => exact ⟨[], .done _, rfl⟩
  | cons source rest ih =>
    rcases source with ⟨cell, fd⟩
    have later := fun entry fd listed => known entry fd (mem_cons_of_mem _ listed)
    cases cell with
    | none => exact ih tallied sourced later table placed
    | some entry =>
      unfold inheritEntries collidesAll
      rcases @inheritEntry_outcome keep makes vfs held childTask fd entry installed
        tallied sourced (known entry fd mem_cons_self) table placed with
        ⟨after, alone, failed, failedAlone, moves⟩ |
        ⟨after, success, alone, empty, moves, still, tableStill, placedAll⟩
      · rw [failed, failedAlone]
        refine ⟨_, moves, ?_⟩
        split <;> rfl
      · have knownStill (other : LocalFd) (otherFd : Nat)
            (member : (some other, otherFd) ∈ rest) : other ∈ after.entries := by
          rcases sourced.copies other (later other otherFd member) with
            ⟨keptTask, keptFd, kept, present⟩
          exact mem_entries.mpr ⟨keptTask, keptFd, moves.kept kept present⟩
        rcases ih (moves.tallied tallied) still knownStill tableStill placedAll with
          ⟨lost, rest, count⟩
        rw [success, alone, empty]
        exact ⟨lost, moves.trans rest, count⟩

end VfsState

end CoolOs.Vfs
