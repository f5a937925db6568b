import CoolOs.Actions.Action
import CoolOs.CoolFs.PathMap
import CoolOs.Text.Strings

namespace CoolOs.Files

open Actions CoolFs Naming Text Action

/-!
# Calls of the file system

The system services use the root volume through its calls.  Here a volume is the table
of its files and directories, in the order in which directories list them, and each call
is one step on it.  A call can also fail for a reason that the table does not show, and
then it changes nothing.
-/

def isDirectory : Content -> Bool
  | .directory _ _ _ => true
  | .file _ _ _ _ => false

abbrev FileTable : Type := Table Name Name Content isDirectory

def bytesOf : Content -> Option (List UInt8)
  | .directory _ _ _ => none
  | .file bytes _ _ _ => some bytes

variable (path : List UInt8) (table : FileTable)

namespace FileTable

/-- The loop of `resolve_path` from a node that was reached. -/
def walkComponents (table : FileTable) : List Name -> List Name -> Except FsError (List Name)
  | reached, [] => .ok reached
  | reached, component :: rest =>
    match table.find reached with
    | none => .error .notFound
    | some content =>
      if isDirectory content then
        match table.find (reached ++ [foldCase component]) with
        | none => .error .notFound
        | some _ => walkComponents table (reached ++ [foldCase component]) rest
      else .error .notDirectory

/-- The node a path leads to, as its place in the table. -/
def resolvePath (path : List UInt8) : Except FsError (List Name) :=
  match trimAbsPath path with
  | .error err => .error err
  | .ok path => table.walkComponents [] (components path)

/-- The directory above a path and the name in it. -/
def resolveParent (path : List UInt8) : Except FsError (List Name × Name) :=
  match splitParentAndName path with
  | .error err => .error err
  | .ok (parentPath, name) =>
    match table.resolvePath parentPath with
    | .error err => .error err
    | .ok parent =>
      if (table.find parent).any isDirectory then .ok (parent, name)
      else .error .notDirectory

def readFile (path : List UInt8) : Option (List UInt8) :=
  match table.resolvePath path with
  | .error _ => none
  | .ok node => (table.find node).bind bytesOf

def describe (entry : Entry Name Name Content) : DirEntryInfo where
  name := entry.label
  isDir := isDirectory entry.content
  size := ((bytesOf entry.content).getD []).length

def listDir (path : List UInt8) : Option (List DirEntryInfo) :=
  match table.resolvePath path with
  | .error _ => none
  | .ok node =>
    if (table.find node).any isDirectory then some ((table.children node).map describe)
    else none

def metadata (path : List UInt8) : Option Metadata :=
  match table.resolvePath path with
  | .error _ => none
  | .ok node =>
    (table.find node).map (fun
      | .directory uid gid mode =>
        { uid := uid, gid := gid, mode := mode, size := 0, isDir := true, isFile := false }
      | .file bytes uid gid mode =>
        { uid := uid, gid := gid, mode := mode, size := bytes.length, isDir := false,
          isFile := true })

def createNode (content : Content) (table : FileTable) : Except FsError FileTable :=
  match table.resolveParent path with
  | .error err => .error err
  | .ok (parent, name) =>
    if wide : (table.find parent).any isDirectory = true then
      if absent : table.find (parent ++ [foldCase name]) = none then
        .ok (table.add parent (foldCase name) name content wide absent)
      else .error .alreadyExists
    else .error .notDirectory

def createFileWithMetadata (uid gid : UInt32) (mode : UInt16) :
    FileTable -> Except FsError FileTable :=
  createNode path (.file [] uid gid (normalMode kindFile (mode &&& 0o777)))

def createDirWithMetadata (uid gid : UInt32) (mode : UInt16) :
    FileTable -> Except FsError FileTable :=
  createNode path (.directory uid gid (normalMode kindDir (mode &&& 0o777)))

theorem isDirectory_withBytes (data : List UInt8) (content : Content) :
    isDirectory (content.withBytes data) = isDirectory content := by
  cases content <;> rfl

def writeFile (path data : List UInt8) (table : FileTable) : Except FsError FileTable :=
  match table.resolvePath path with
  | .error err => .error err
  | .ok node =>
    match (table.find node).bind bytesOf with
    | none => .error .invalidPath
    | some _ => .ok (table.put node (Content.withBytes data) (isDirectory_withBytes data))

/-- A directory is deleted only when it is empty, and a file has nothing below it. -/
def deleteFile : Except FsError FileTable :=
  match table.resolveParent path with
  | .error err => .error err
  | .ok (parent, name) =>
    if table.find (parent ++ [foldCase name]) = none then .error .notFound
    else if empty : table.children (parent ++ [foldCase name]) = [] then
      .ok (table.erase (parent ++ [foldCase name]) (List.concat_ne_nil _ _) empty)
    else .error .notEmpty

def rename (newName : Name) (table : FileTable) : Except FsError FileTable :=
  match validateName newName with
  | .error err => .error err
  | .ok _ =>
    match splitParentAndName path with
    | .error err => .error err
    | .ok (_, oldName) =>
      if namesEqual oldName newName then .ok table
      else
        match table.resolveParent path with
        | .error err => .error err
        | .ok (parent, _) =>
          if unused : table.find (parent ++ [foldCase newName]) = none then
            if table.find (parent ++ [foldCase oldName]) = none then .error .notFound
            else .ok (Table.rename table parent (foldCase oldName) (foldCase newName) newName unused)
          else .error .alreadyExists

end FileTable

/-- An account, as far as files in home directories take their owner from it. -/
structure User where
  name : Text
  uid : UInt32
  gid : UInt32

/-- How the FAT volume answers one call: what it lists and reads, and how a call that would
change it ends.  Nothing is known of that volume, so any answer may come at any call; without
one, every call fails. -/
structure FatAnswer where
  entries : Option (List DirEntryInfo) := none
  bytes : Option (List UInt8) := none
  outcome : Except FsError Unit := .error .io

/-- The root volume, the number of calls so far, which calls fail and how, what the timer
shows at each call, the accounts, and the answers of the FAT volume. -/
structure Kernel where
  table : FileTable
  clock : Nat
  faults : Nat -> Option FsError
  ticks : Nat -> Nat
  users : List User
  fat : Nat -> FatAnswer := fun _ => {}

/-- One call that may change the volume. -/
def call (change : FileTable -> Except FsError FileTable) : Action Kernel FsError Unit :=
  fun kernel =>
    let after := { kernel with clock := kernel.clock + 1 }
    match kernel.faults kernel.clock with
    | some err => (.error err, after)
    | none =>
      match change kernel.table with
      | .error err => (.error err, after)
      | .ok table => (.ok (), { after with table := table })

/-- One call that looks something up. -/
def ask {Failure Value : Type} (query : FileTable -> Option Value) :
    Action Kernel Failure (Option Value) := fun kernel =>
  let after := { kernel with clock := kernel.clock + 1 }
  match kernel.faults kernel.clock with
  | some _ => (.ok none, after)
  | none => (.ok (query kernel.table), after)

/-- One call on the FAT volume, which leaves the root volume as it is. -/
def onFatVolume : Action Kernel FsError Unit := fun kernel =>
  ((kernel.fat kernel.clock).outcome, { kernel with clock := kernel.clock + 1 })

def askFat {Failure Value : Type} (query : FatAnswer -> Option Value) :
    Action Kernel Failure (Option Value) := fun kernel =>
  (.ok (query (kernel.fat kernel.clock)), { kernel with clock := kernel.clock + 1 })

def currentTicks {Failure : Type} : Action Kernel Failure Nat :=
  Action.observe (fun kernel => kernel.ticks kernel.clock)

/-- Delete a path that need not exist. -/
def deleteIfPresent : Action Kernel FsError (Except FsError Unit) := do
  match <- Action.attempt (call (FileTable.deleteFile path)) with
  | .ok _ => return .ok ()
  | .error .notFound => return .ok ()
  | .error err => return .error err

/-- The scratch file takes the place of a path. -/
def takePlace (tmp path : List UInt8) (name : Name) : Action Kernel FsError Unit := do
  match <- deleteIfPresent path with
  | .error err =>
    let _ <- Action.attempt (call (FileTable.deleteFile tmp))
    Action.fail err
  | .ok _ => call (FileTable.rename tmp name)

/-- Write a file by way of a scratch file that takes its place. -/
def safeWriteFileWithMetadata (path data : List UInt8) (uid gid : UInt32) (mode : UInt16) :
    Action Kernel FsError Unit := do
  let (parent, name) <- Action.settle (splitParentAndName path)
  let tmp := temporaryPath parent
  match <- deleteIfPresent tmp with
  | .error err => Action.fail err
  | .ok _ =>
    call (FileTable.createFileWithMetadata tmp uid gid mode)
    call (FileTable.writeFile tmp data)
    takePlace tmp path name

/-!
## Files as the kernel uses them

The calls the system services make, on paths that are normalised first.  What is below
`/FAT` goes to the FAT volume.
-/

/-- The loop of `normalize_path`. -/
def normalParts (path : List UInt8) : List Name :=
  (splitSlash path).foldl (fun parts part =>
    if part = [] ∨ part = [dot] then parts
    else if part = [dot, dot] then parts.dropLast
    else parts ++ [part]) []

def normalizePath (path : List UInt8) : List UInt8 :=
  if normalParts path = [] then [slash]
  else (normalParts path).flatMap (fun part => slash :: part)

variable {Failure : Type} (path : Text)

/-- The place of a path in the table. -/
def fileKey : List Name := pathKey (normalizePath (encode path))

/-- Whether `fat32_path` sends a path to the FAT volume. -/
def onFat (path : List UInt8) : Bool :=
  path == ascii "/FAT" || (ascii "/FAT/").isPrefixOf path

@[simp] abbrev rootUid : UInt32 := 0
@[simp] abbrev rootGid : UInt32 := 0
@[simp] abbrev userUid : UInt32 := 1000
@[simp] abbrev userGid : UInt32 := 1000
@[simp] abbrev sharedTmpMode : UInt16 := 0o777
@[simp] abbrev defaultExecMode : UInt16 := 0o755

def homeOwnerForPath (users : List User) (path : List UInt8) : Option (UInt32 × UInt32) :=
  if path = ascii "/Users" then some (rootUid, rootGid)
  else if (ascii "/Users/").isPrefixOf path then
    let name := (splitSlash (path.drop 7)).headD []
    if name = [] then some (rootUid, rootGid)
    else
      (users.find? (fun user => namesEqual (encode user.name) name)).map
        (fun user => (user.uid, user.gid))
  else none

/-- The directories whose contents belong to the user. -/
def userDirectories : List (List UInt8) :=
  ["/TMP", "/Documents", "/Pictures", "/Desktop", "/Trash", "/Downloads", "/Packages"].map ascii

def defaultOwnerForPath (users : List User) (path : List UInt8) : UInt32 × UInt32 :=
  match homeOwnerForPath users path with
  | some owner => owner
  | none =>
    if userDirectories.any (fun directory =>
        path == directory || (directory ++ [slash]).isPrefixOf path) then (userUid, userGid)
    else (rootUid, rootGid)

def defaultModeForPath (path : List UInt8) (isDir : Bool) : UInt16 :=
  if isDir && namesEqual path (ascii "/TMP") then sharedTmpMode
  else if isDir then defaultDirMode
  else if (ascii "/bin/").isPrefixOf path || namesEqual path (ascii "/bin") then defaultExecMode
  else defaultFileMode

def vfsKernelListDir : Action Kernel Failure (Option (List DirEntryInfo)) :=
  let path := normalizePath (encode path)
  if onFat path then askFat FatAnswer.entries else ask (fun table => table.listDir path)

def vfsKernelReadFile : Action Kernel Failure (Option (List UInt8)) :=
  let path := normalizePath (encode path)
  if onFat path then askFat FatAnswer.bytes else ask (fun table => table.readFile path)

/-- Everything on the FAT volume belongs to root. -/
def FatAnswer.metadata (answer : FatAnswer) : Option Metadata :=
  if answer.entries.isSome then some ⟨rootUid, rootGid, defaultDirMode, 0, true, false⟩
  else answer.bytes.map (fun bytes =>
    ⟨rootUid, rootGid, defaultFileMode, bytes.length, false, true⟩)

def metadataUnchecked (path : List UInt8) : Action Kernel Failure (Option Metadata) :=
  if onFat path then askFat FatAnswer.metadata else ask (fun table => table.metadata path)

def vfsKernelMetadata : Action Kernel Failure (Option Metadata) :=
  metadataUnchecked (normalizePath (encode path))

def vfsKernelCreateFile : Action Kernel FsError Unit := do
  let path := normalizePath (encode path)
  let users <- observe Kernel.users
  let (uid, gid) := defaultOwnerForPath users path
  if onFat path then onFatVolume
  else call (FileTable.createFileWithMetadata path uid gid (defaultModeForPath path false))

def vfsKernelCreateDir : Action Kernel FsError Unit := do
  let path := normalizePath (encode path)
  let users <- observe Kernel.users
  let (uid, gid) := defaultOwnerForPath users path
  if onFat path then onFatVolume
  else call (FileTable.createDirWithMetadata path uid gid (defaultModeForPath path true))

variable (data : List UInt8)

def vfsKernelWriteFile : Action Kernel FsError Unit :=
  let path := normalizePath (encode path)
  if onFat path then onFatVolume else call (FileTable.writeFile path data)

def safeWriteFileFor (path data : List UInt8) (uid gid : UInt32) (mode : UInt16) :
    Action Kernel FsError Unit :=
  if onFat path then onFatVolume else safeWriteFileWithMetadata path data uid gid mode

/-- The file keeps its owner and mode, if there is one. -/
def vfsKernelSafeWriteFile : Action Kernel FsError Unit := do
  let path := normalizePath (encode path)
  let known <- metadataUnchecked path
  let users <- observe Kernel.users
  let (defaultUid, defaultGid) := defaultOwnerForPath users path
  match known with
  | some known => safeWriteFileFor path data known.uid known.gid known.mode
  | none => safeWriteFileFor path data defaultUid defaultGid (defaultModeForPath path false)

def vfsKernelDelete : Action Kernel FsError Unit :=
  let path := normalizePath (encode path)
  if onFat path then onFatVolume else call (FileTable.deleteFile path)

/-- A volume that was just formatted. -/
def freshTable : FileTable where
  entries := [⟨[], [], .directory rootUid rootGid (normalMode kindDir defaultDirMode)⟩]
  formed := by
    refine ⟨List.nodup_singleton _, ⟨_, List.mem_cons_self, rfl, rfl⟩, ?_⟩
    intro entry listed inner
    rw [List.mem_singleton.mp listed] at inner
    exact absurd rfl inner

/-- A volume without faults that holds some directories and files. -/
def holding (directories : List Text) (files : List (Text × List UInt8)) : Kernel :=
  let create : Action Kernel FsError Unit := do
    each vfsKernelCreateDir directories
    each (fun (path, data) => do
      vfsKernelCreateFile path
      vfsKernelWriteFile path data) files
  (create {
    table := freshTable
    clock := 0
    faults := fun _ => none
    ticks := fun _ => 0
    users := [] }).2

end CoolOs.Files
