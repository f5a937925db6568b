import CoolOs.Files.Footprints
import CoolOs.Sched.Tasks
import CoolOs.Vfs.Calls

namespace CoolOs.Files

open Actions Text CoolFs Action
open Sched (Credentials)
open Vfs (VfsState)

/-!
# Calls on behalf of a task

The calls that tasks make on paths.  Each looks at the owner and the mode of the object that
the path leads to, and at the rights of the task.
-/

@[simp] abbrev capReadFs : UInt32 := 1
@[simp] abbrev capWriteFs : UInt32 := 2
@[simp] abbrev capExec : UInt32 := 4

inductive Access where
  | read
  | write
  | execute

def Access.mask : Access -> UInt16
  | .read => 0b100
  | .write => 0b010
  | .execute => 0b001

def Access.right : Access -> UInt32
  | .read => capReadFs
  | .write => capWriteFs
  | .execute => capExec

variable {Failure : Type} (credentials : Credentials)

def modeAllows (uid gid : UInt32) (mode : UInt16) (access : Access) : Bool :=
  if credentials.uid == Sched.rootUid then true
  else
    let shift : UInt16 :=
      if credentials.uid == uid then 6 else if credentials.gid == gid then 3 else 0
    (mode >>> shift) &&& access.mask != 0

/-- `can_read_files`, `can_write_files` and `can_execute_files` -/
def hasRight (access : Access) : Bool :=
  credentials.uid == Sched.rootUid || credentials.caps &&& access.right != 0

/-- `can_read_metadata`, `can_write_metadata` and `can_execute_metadata` -/
def canAccess (access : Access) (known : Metadata) : Bool :=
  hasRight credentials access && modeAllows credentials known.uid known.gid known.mode access

variable (path : Text)

def vfsListDir : Action Kernel Failure (Option (List DirEntryInfo)) := do
  match <- vfsKernelMetadata path with
  | none => return none
  | some known =>
    if !known.isDir || !canAccess credentials .read known ||
        !canAccess credentials .execute known then return none
    else vfsKernelListDir path

def vfsReadFile : Action Kernel Failure (Option (List UInt8)) := do
  match <- vfsKernelMetadata path with
  | none => return none
  | some known =>
    if !known.isFile || !canAccess credentials .read known then return none
    else vfsKernelReadFile path

def vfsMetadata : Action Kernel Failure (Option Metadata) := do
  match <- vfsKernelMetadata path with
  | none => return none
  | some known => return if canAccess credentials .read known then some known else none

/-- Open a file for reading, as a task with a table of descriptors. -/
def vfsOpen (vfs : VfsState) (taskId : Nat) (admitted : Bool)
    (path : Text) : Action Kernel Failure (Option Nat × VfsState) := do
  let data <- vfsReadFile credentials path
  return vfs.vfsOpen taskId data admitted

def vfsCheckExecute : Action Kernel FsError Unit := do
  match <- vfsKernelMetadata path with
  | none => Action.fail .notFound
  | some known =>
    if known.isFile && canAccess credentials .execute known then return ()
    else Action.fail .permissionDenied

/-- `check_write_access`, for a path of the root volume. -/
def checkWriteAccess : Action Kernel FsError Unit :=
  if !hasRight credentials .write then Action.fail .permissionDenied
  else do
    match <- vfsKernelMetadata path with
    | none => Action.fail .notFound
    | some known =>
      if known.isFile && canAccess credentials .write known then return ()
      else Action.fail .permissionDenied

def vfsWriteFile (data : List UInt8) : Action Kernel FsError Unit := do
  checkWriteAccess credentials path
  vfsKernelWriteFile path data

/-!
## Search permission

A directory that a user may not search should hide everything below it.  The calls only
look at the object at the end of a path: whether they succeed does not depend on the
directories above it.
-/

/-- A root volume that answers every call, after some of them, without a FAT volume. -/
def later (table : FileTable) (clock : Nat) : Kernel where
  table := table
  clock := clock
  faults := fun _ => none
  ticks := fun _ => 0
  users := []

def quiet (table : FileTable) : Kernel := later table 0

/-- The metadata of the object that a path leads to. -/
def ownMetadata (table : FileTable) (path : Text) : Option Metadata :=
  if onFat (normalizePath (encode path)) then none
  else table.metadata (normalizePath (encode path))

/-- A directory above the object may not be searched. -/
def LacksSearch (table : FileTable) (credentials : Credentials) (path : Text) : Prop :=
  ∃ above uid gid mode,
    above <+: fileKey path ∧ above ≠ fileKey path ∧
    table.find above = some (.directory uid gid mode) ∧
    modeAllows credentials uid gid mode .execute = false

/-- What the calls on one path answer. -/
structure Answers where
  readFile : Except FsError (Option (List UInt8))
  opened : Except FsError (Option Nat × VfsState)
  listDir : Except FsError (Option (List DirEntryInfo))
  metadata : Except FsError (Option Metadata)
  execute : Except FsError Unit
  write : Except FsError Unit

/-- The task that calls, and what it calls with. -/
structure Caller where
  credentials : Credentials
  vfs : VfsState
  taskId : Nat
  admitted : Bool
  data : List UInt8

def answers (table : FileTable) (caller : Caller) (path : Text) : Answers where
  readFile := (vfsReadFile caller.credentials path (quiet table)).1
  opened :=
    (vfsOpen caller.credentials caller.vfs caller.taskId caller.admitted path (quiet table)).1
  listDir := (vfsListDir caller.credentials path (quiet table)).1
  metadata := (vfsMetadata caller.credentials path (quiet table)).1
  execute := (vfsCheckExecute caller.credentials path (quiet table)).1
  write := (vfsWriteFile caller.credentials path caller.data (quiet table)).1

/-- None of the calls on the path succeeds. -/
structure Denied (answers : Answers) : Prop where
  readFile : answers.readFile = .ok none
  opened : answers.opened.map Prod.fst = .ok none
  listDir : answers.listDir = .ok none
  metadata : answers.metadata = .ok none
  execute : answers.execute.toBool = false
  write : answers.write.toBool = false

/-- The object itself refuses the user: it may not be read, and if it is a file it may
neither be executed nor written. -/
def Refuses (credentials : Credentials) (known : Metadata) : Prop :=
  canAccess credentials .read known = false ∧
  (known.isFile = true ->
    canAccess credentials .execute known = false ∧ canAccess credentials .write known = false)

section

variable {table : FileTable} {caller : Caller} {path : Text} {known : Metadata}

theorem vfsKernelMetadata_quiet (table : FileTable) (path : Text) {Failure : Type} :
    ∃ clock, (vfsKernelMetadata path (quiet table) : Except Failure _ × Kernel) =
      (.ok (ownMetadata table path), later table clock) := by
  refine ⟨1, ?_⟩
  unfold vfsKernelMetadata metadataUnchecked ownMetadata
  split
  · rfl
  · rfl

/-- Without an object, nothing is found. -/
theorem answers_absent (absent : ownMetadata table path = none) : answers table caller path = {
      readFile := .ok none
      opened := .ok (none, caller.vfs)
      listDir := .ok none
      metadata := .ok none
      execute := .error .notFound
      write := .error (if hasRight caller.credentials .write then .notFound
        else .permissionDenied) } := by
  rcases @vfsKernelMetadata_quiet table path FsError with ⟨clock, asked⟩
  rw [absent] at asked
  have read : vfsReadFile caller.credentials path (quiet table) =
      (.ok none, later table clock) := run_bind_ok asked _
  have opened : vfsOpen caller.credentials caller.vfs caller.taskId caller.admitted path
      (quiet table) = (.ok (none, caller.vfs), later table clock) :=
    run_bind_ok read _
  have list : vfsListDir caller.credentials path (quiet table) =
      (.ok none, later table clock) := run_bind_ok asked _
  have shown : vfsMetadata caller.credentials path (quiet table) =
      (.ok none, later table clock) := run_bind_ok asked _
  have execute : vfsCheckExecute caller.credentials path (quiet table) =
      (.error .notFound, later table clock) := run_bind_ok asked _
  have write : (vfsWriteFile caller.credentials path caller.data (quiet table)).1 =
      .error (if hasRight caller.credentials .write then .notFound else .permissionDenied) := by
    unfold vfsWriteFile checkWriteAccess
    cases right : hasRight caller.credentials .write with
    | false => rfl
    | true =>
      have checked : (do
          match <- vfsKernelMetadata path with
          | none => .fail .notFound
          | some known =>
            if known.isFile && canAccess caller.credentials .write known then return ()
            else .fail .permissionDenied : Action Kernel FsError Unit) (quiet table) =
          (.error .notFound, later table clock) := run_bind_ok asked _
      exact congrArg Prod.fst (run_bind_error checked _)
  unfold answers
  rw [read, opened, list, shown, execute, write]

/-- The check that a write begins with. -/
theorem checkWriteAccess_value (own : ownMetadata table path = some known)
    (credentials : Credentials) :
    ∃ clock, checkWriteAccess credentials path (quiet table) =
      (if known.isFile && canAccess credentials .write known then .ok ()
      else .error .permissionDenied, later table clock) := by
  rcases @vfsKernelMetadata_quiet table path FsError with ⟨clock, asked⟩
  rw [own] at asked
  unfold checkWriteAccess
  cases right : hasRight credentials .write with
  | false =>
    have refused : canAccess credentials .write known = false := by
      rw [canAccess, right, Bool.false_and]
    rw [refused, Bool.and_false]
    exact ⟨0, rfl⟩
  | true =>
    refine ⟨clock, ?_⟩
    rw [Bool.not_true, if_neg Bool.false_ne_true, run_bind_ok asked]
    dsimp only
    split
    · rfl
    · rfl

/-- An object that refuses the user looks like any other that does. -/
theorem answers_refused (own : ownMetadata table path = some known)
    (refuses : Refuses caller.credentials known) :
    answers table caller path = {
      readFile := .ok none
      opened := .ok (none, caller.vfs)
      listDir := .ok none
      metadata := .ok none
      execute := .error .permissionDenied
      write := .error .permissionDenied } := by
  rcases @vfsKernelMetadata_quiet table path FsError with ⟨clock, asked⟩
  rw [own] at asked
  have file : (known.isFile && canAccess caller.credentials .execute known) = false ∧
      (known.isFile && canAccess caller.credentials .write known) = false := by
    cases isFile : known.isFile with
    | false => exact ⟨rfl, rfl⟩
    | true => exact refuses.2 isFile
  have read : (vfsReadFile caller.credentials path (quiet table) : Except FsError _ × Kernel) =
      (.ok none, later table clock) := by
    unfold vfsReadFile
    rw [run_bind_ok asked]
    dsimp only
    rw [refuses.1, Bool.not_false, Bool.or_true, if_pos rfl]
    rfl
  have opened : vfsOpen caller.credentials caller.vfs caller.taskId caller.admitted path
      (quiet table) = (.ok (none, caller.vfs), later table clock) :=
    run_bind_ok read _
  have list : (vfsListDir caller.credentials path (quiet table) : Except FsError _ × Kernel) =
      (.ok none, later table clock) := by
    unfold vfsListDir
    rw [run_bind_ok asked]
    dsimp only
    rw [refuses.1, Bool.not_false, Bool.or_true, Bool.true_or, if_pos rfl]
    rfl
  have shown : (vfsMetadata caller.credentials path (quiet table) : Except FsError _ × Kernel) =
      (.ok none, later table clock) := by
    unfold vfsMetadata
    rw [run_bind_ok asked]
    dsimp only
    rw [refuses.1, if_neg Bool.false_ne_true]
    rfl
  have execute : vfsCheckExecute caller.credentials path (quiet table) =
      (.error .permissionDenied, later table clock) := by
    unfold vfsCheckExecute
    rw [run_bind_ok asked]
    dsimp only
    rw [file.1, if_neg Bool.false_ne_true]
    rfl
  rcases checkWriteAccess_value own caller.credentials with ⟨time, checked⟩
  rw [file.2, if_neg Bool.false_ne_true] at checked
  have write : (vfsWriteFile caller.credentials path caller.data (quiet table)).1 =
      .error .permissionDenied := congrArg Prod.fst (run_bind_error checked _)
  unfold answers
  rw [read, opened, list, shown, execute, write]

theorem denied_of_refuses (refuses : ∀ known, ownMetadata table path = some known ->
      Refuses caller.credentials known) : Denied (answers table caller path) := by
  cases own : ownMetadata table path with
  | none =>
    rw [answers_absent own]
    exact ⟨rfl, rfl, rfl, rfl, rfl, rfl⟩
  | some known =>
    rw [answers_refused own (refuses known own)]
    exact ⟨rfl, rfl, rfl, rfl, rfl, rfl⟩

theorem writeFile_of_isFile {normal : List UInt8} (found : table.metadata normal = some known)
    (file : known.isFile = true) (data : List UInt8) :
    ∃ after, table.writeFile normal data = .ok after := by
  unfold FileTable.metadata at found
  split at found
  · cases found
  next node resolved =>
    rcases Option.map_eq_some_iff.mp found with ⟨content, here, rfl⟩
    cases content with
    | directory => cases file
    | file bytes uid gid mode =>
      unfold FileTable.writeFile
      rw [resolved]
      dsimp only
      rw [here]
      exact ⟨_, rfl⟩

theorem vfsKernelWriteFile_quiet (own : ownMetadata table path = some known)
    (file : known.isFile = true) (data : List UInt8) (clock : Nat) :
    (vfsKernelWriteFile path data (later table clock)).1 = .ok () := by
  unfold ownMetadata at own
  unfold vfsKernelWriteFile
  split at own
  · cases own
  next mounted =>
    rw [if_neg mounted]
    rcases writeFile_of_isFile own file data with ⟨after, written⟩
    unfold call later
    simp only [written]

/-- An object on which no call succeeds refuses the user itself. -/
theorem refuses_of_denied (denied : Denied (answers table caller path))
    (own : ownMetadata table path = some known) : Refuses caller.credentials known := by
  rcases @vfsKernelMetadata_quiet table path FsError with ⟨clock, asked⟩
  rw [own] at asked
  constructor
  · have shown := denied.metadata
    unfold answers vfsMetadata at shown
    rw [run_bind_ok asked] at shown
    dsimp only at shown
    cases may : canAccess caller.credentials .read known with
    | false => rfl
    | true =>
      rw [may] at shown
      cases shown
  · intro file
    constructor
    · have execute := denied.execute
      unfold answers vfsCheckExecute at execute
      rw [run_bind_ok asked] at execute
      dsimp only at execute
      cases may : canAccess caller.credentials .execute known with
      | false => rfl
      | true =>
        rw [may, file] at execute
        cases execute
    · have write := denied.write
      unfold answers vfsWriteFile at write
      cases may : canAccess caller.credentials .write known with
      | false => rfl
      | true =>
        rcases checkWriteAccess_value own caller.credentials with ⟨time, checked⟩
        rw [file, may, Bool.and_true, if_pos rfl] at checked
        rw [run_bind_ok checked, vfsKernelWriteFile_quiet own file] at write
        cases write

end

/-! ## What search permission does and does not protect -/

/-- A path is protected by a directory above it that the user may not search exactly when
the object at its end refuses the user by itself.  Then the user cannot tell what is there:
only whether anything is. -/
theorem search_protects_what_refuses (table : FileTable) (caller : Caller) (path : Text) :
    ((LacksSearch table caller.credentials path -> Denied (answers table caller path)) <->
      ¬ LacksSearch table caller.credentials path ∨
      forall known, ownMetadata table path = some known -> Refuses caller.credentials known) ∧
    forall (second : FileTable) (known other : Metadata),
      ownMetadata table path = some known -> ownMetadata second path = some other ->
        Refuses caller.credentials known -> Refuses caller.credentials other ->
          answers table caller path = answers second caller path := by
  constructor
  · constructor
    · intro protects
      by_cases lacks : LacksSearch table caller.credentials path
      · exact .inr fun known own => refuses_of_denied (protects lacks) own
      · exact .inl lacks
    · rintro (searchable | refuses) lacks
      · exact absurd lacks searchable
      · exact denied_of_refuses refuses
  · intro second known other own another refuses refused
    rw [answers_refused own refuses, answers_refused another refused]

/-- A home directory with mode `0o700` and a file in it with the default mode. -/
def homeVolume : FileTable :=
  let made : Except FsError FileTable := do
    let table <- FileTable.createDirWithMetadata (ascii "/Users") 0 0 0o755 freshTable
    let table <- FileTable.createDirWithMetadata (ascii "/Users/root") 1000 1000 0o700 table
    let table <- FileTable.createFileWithMetadata (ascii "/Users/root/NOTE") 1000 1000 0o644 table
    table.writeFile (ascii "/Users/root/NOTE") [7]
  match made with
  | .ok table => table
  | .error _ => freshTable

def guest : Caller where
  credentials := ⟨1001, 1000, 31⟩
  vfs := Vfs.VfsState.new
  taskId := 0
  admitted := true
  data := []

/-- The guest may not search the directory, and reads a file below it. -/
theorem home_is_readable_by_others :
    LacksSearch homeVolume guest.credentials "/Users/root/NOTE".toList ∧
      (answers homeVolume guest "/Users/root/NOTE".toList).readFile = .ok (some [7]) := by
  constructor
  · exact ⟨[ascii "users", ascii "root"], 1000, 1000, 0o700, by decide, by decide, by decide,
      by decide⟩
  · decide

end CoolOs.Files
