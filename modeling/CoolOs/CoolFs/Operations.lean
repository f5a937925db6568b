import CoolOs.CoolFs.Format

namespace CoolOs.CoolFs

open BlockStore

/-!
# The CoolFS image

The methods of the mounted image, as programs over the block cache: byte and
word access, the block bitmap, the inode table and the payload of an inode.
Offsets are 64-bit in the source and never come near its limit.
-/

/-- Code that returns a `Result`. -/
abbrev Fallible := ExceptT FsError (Program FsError Block)

/-- Code that returns an `Option`. -/
abbrev Optional := OptionT (Program FsError Block)

namespace Image

variable (sb : Superblock)

def readU8 (offset : Nat) : Optional UInt8 :=
  match sb.absParts offset with
  | none => failure
  | some (block, inBlock) => do
    let data <- okOnly (fetch block)
    return data.byte inBlock

def writeU8 (offset : Nat) (value : UInt8) : Fallible Unit :=
  match sb.absParts offset with
  | none => throw .io
  | some (block, inBlock) => modify block (spliceBlock inBlock [value])

/-- The copy loop of `read_into` and `read_vec`.  Every round copies at least
one byte, so the length is enough fuel. -/
def readLoop : Nat -> Nat -> Nat -> Fallible (List UInt8)
  | 0, _, _ => return []
  | fuel + 1, offset, remaining =>
    if remaining = 0 then return []
    else
      match sb.absParts offset with
      | none => throw .io
      | some (block, inBlock) => do
        let take := min remaining (blockSize - inBlock)
        let data <- fetch block
        let rest <- readLoop fuel (offset + take) (remaining - take)
        return data.read inBlock take ++ rest

/-- `read_into` and `read_vec`: the bytes of a range of the volume. -/
def readVec (offset len : Nat) : Fallible (List UInt8) :=
  if sb.fsLen < offset + len then throw .io
  else readLoop sb len offset len

def writeLoop : Nat -> Nat -> List UInt8 -> Fallible Unit
  | 0, _, _ => return ()
  | fuel + 1, offset, input =>
    if input = [] then return ()
    else
      match sb.absParts offset with
      | none => throw .io
      | some (block, inBlock) => do
        let take := min input.length (blockSize - inBlock)
        modify block (spliceBlock inBlock (input.take take))
        writeLoop fuel (offset + take) (input.drop take)

def writeAt (offset : Nat) (input : List UInt8) : Fallible Unit :=
  if sb.fsLen < offset + input.length then throw .io
  else writeLoop sb input.length offset input

def fillLoop (value : UInt8) : Nat -> Nat -> Nat -> Fallible Unit
  | 0, _, _ => return ()
  | fuel + 1, offset, len =>
    if len = 0 then return ()
    else
      match sb.absParts offset with
      | none => throw .io
      | some (block, inBlock) => do
        let take := min len (blockSize - inBlock)
        modify block (spliceBlock inBlock (List.replicate take value))
        fillLoop value fuel (offset + take) (len - take)

def fillAt (offset len : Nat) (value : UInt8) : Fallible Unit :=
  if sb.fsLen < offset + len then throw .io
  else fillLoop sb value len offset len

def readU32At (offset : Nat) : Optional Nat := do
  let bytes <- okOnly (readVec sb offset 4)
  return fromLeBytes bytes

def writeU32At (offset value : Nat) : Fallible Unit :=
  writeAt sb offset (toLeBytes value)

def zeroBlock (block : Nat) : Fallible Unit :=
  modify block (fun _ => Block.zero)

/-- Consecutive words, as the loops over the inode's direct blocks read and
write them. -/
def readWords : Nat -> Nat -> Optional (List Nat)
  | _, 0 => return []
  | offset, count + 1 => do
    let word <- readU32At sb offset
    let rest <- readWords (offset + 4) count
    return word :: rest

def writeWords : Nat -> List Nat -> Fallible Unit
  | _, [] => return ()
  | offset, word :: rest => do
    writeU32At sb offset word
    writeWords (offset + 4) rest

/-- Read an inode.  A mode of zero stands for the default mode of its kind. -/
def readInode (inodeIdx : Nat) : Optional Inode :=
  if sb.inodeCount <= inodeIdx then failure
  else
    match sb.inodeOffset inodeIdx with
    | none => failure
    | some off => do
      let kind <- readU8 sb off
      let size <- readU32At sb (off + 4)
      let direct <- readWords sb (off + 8) directBlocks
      let indirect <- readU32At sb (off + 8 + directBlocks * 4)
      let uid <- unwrapOr (readU32At sb (off + inodeUidOffset)) 0
      let gid <- unwrapOr (readU32At sb (off + inodeGidOffset)) 0
      let word <- unwrapOr (readU32At sb (off + inodeModeOffset)) 0
      let mode := UInt16.ofNat word &&& 0o777
      return {
        kind := kind
        size := size
        direct := fun slot => direct.getD slot.val 0
        indirect := indirect
        uid := UInt32.ofNat uid
        gid := UInt32.ofNat gid
        mode :=
          if kind ≠ kindFree ∧ mode = 0 then
            if kind = kindDir then defaultDirMode else defaultFileMode
          else mode }

def writeInode (inodeIdx : Nat) (inode : Inode) : Fallible Unit :=
  match sb.inodeOffset inodeIdx with
  | none => throw .io
  | some off => do
    writeU8 sb off inode.kind
    fillAt sb (off + 1) 3 0
    writeU32At sb (off + 4) inode.size
    writeWords sb (off + 8) (List.ofFn inode.direct)
    writeU32At sb (off + 8 + directBlocks * 4) inode.indirect
    writeU32At sb (off + inodeUidOffset) inode.uid.toNat
    writeU32At sb (off + inodeGidOffset) inode.gid.toNat
    writeU32At sb (off + inodeModeOffset) (inode.mode &&& 0o777).toNat
    fillAt sb (off + inodeUsedBytes) (inodeSize - inodeUsedBytes) 0

/-- A block outside the bitmap, or behind an unreadable one, counts as used. -/
def blockUsed (block : Nat) : Program FsError Block Bool :=
  match sb.bitmapByteBit block with
  | none => return true
  | some (byte, bit) => do
    let value <- (readU8 sb byte).run
    return (value.map (fun value => value &&& bit != 0)).getD true

def setBlockUsed (block : Nat) (used : Bool) : Fallible Unit :=
  match sb.bitmapByteBit block with
  | none => throw .io
  | some (byte, bit) => do
    let value <- okOr (readU8 sb byte) .io
    writeU8 sb byte (if used then value ||| bit else value &&& ~~~bit)

/-- The loop of `alloc_block` over the blocks still to be tried. -/
def allocBlockFrom : List Nat -> Fallible Nat
  | [] => throw .noSpace
  | block :: rest => do
    let used <- total (blockUsed sb block)
    if used then allocBlockFrom rest
    else
      setBlockUsed sb block true
      zeroBlock block
      return block

def allocBlock : Fallible Nat :=
  allocBlockFrom sb (List.range' sb.dataStart (sb.totalBlocks - sb.dataStart))

def freeBlock (block : Nat) : Fallible Unit :=
  if block < sb.dataStart ∨ sb.totalBlocks <= block then return ()
  else setBlockUsed sb block false

/-- Free a list of blocks, stopping at the first failure. -/
def freeBlocks : List Nat -> Fallible Unit
  | [] => return ()
  | block :: rest => do
    freeBlock sb block
    freeBlocks rest

/-- Free a list of blocks and ignore failures. -/
def discardBlocks : List Nat -> Fallible Unit
  | [] => return ()
  | block :: rest => do
    let _ <- attempt (freeBlock sb block)
    discardBlocks rest

/-- The loop of `alloc_inode_with_metadata` over the inodes still to be tried. -/
def allocInodeFrom (fresh : Inode) : List Nat -> Fallible Nat
  | [] => throw .noSpace
  | inodeIdx :: rest => do
    let inode <- total (readInode sb inodeIdx).run
    if (inode.map (fun inode => inode.kind == kindFree)).getD false then
      writeInode sb inodeIdx fresh
      return inodeIdx
    else allocInodeFrom fresh rest

def allocInodeWithMetadata (kind : UInt8) (uid gid : UInt32) (mode : UInt16) : Fallible Nat :=
  allocInodeFrom sb (Inode.newWithMetadata kind uid gid mode) (List.range' 1 (sb.inodeCount - 1))

/-- The direct part of the block list; a zero inside it is an error. -/
def checkBlocks : List Nat -> Except FsError (List Nat)
  | [] => .ok []
  | block :: rest =>
    if block = 0 then .error .io
    else
      match checkBlocks rest with
      | .error failure => .error failure
      | .ok blocks => .ok (block :: blocks)

/-- The indirect part of the block list, from the table at `start`. -/
def indirectBlocks : Nat -> Nat -> Fallible (List Nat)
  | _, 0 => return []
  | start, count + 1 => do
    let block <- okOr (readU32At sb start) .io
    if block = 0 then throw .io
    else
      let rest <- indirectBlocks (start + 4) count
      return block :: rest

def inodeDataBlocks (inode : Inode) : Fallible (List Nat) := do
  let needed := (inode.size + blockSize - 1) / blockSize
  let blocks <- settled (checkBlocks ((List.ofFn inode.direct).take (min needed directBlocks)))
  if directBlocks < needed then
    if inode.indirect = 0 then throw .io
    else
      let start <- settled (sb.blockOffset inode.indirect)
      let rest <- indirectBlocks sb start (needed - directBlocks)
      return blocks ++ rest
  else return blocks

def freeIndirect (indirect : Nat) : Fallible Unit :=
  if indirect ≠ 0 then freeBlock sb indirect else return ()

def freeInode (inodeIdx : Nat) : Fallible Unit := do
  let inode <- okOr (readInode sb inodeIdx) .notFound
  let blocks <- inodeDataBlocks sb inode
  freeBlocks sb blocks
  freeIndirect sb inode.indirect
  writeInode sb inodeIdx Inode.free

/-- The loop of `read_inode_bytes` over the blocks still to be copied. -/
def readBlocks : List Nat -> Nat -> Fallible (List UInt8)
  | [], remaining => if remaining = 0 then return [] else throw .io
  | block :: rest, remaining =>
    if remaining = 0 then return []
    else do
      let start <- settled (sb.blockOffset block)
      let take := min remaining blockSize
      let bytes <- readVec sb start take
      let others <- readBlocks rest (remaining - take)
      return bytes ++ others

def readInodeBytes (inode : Inode) : Fallible (List UInt8) := do
  let blocks <- inodeDataBlocks sb inode
  readBlocks sb blocks inode.size

/-- The allocation loop of `write_inode_bytes`.  When it fails it gives back
what it took. -/
def allocBlocks : Nat -> List Nat -> Fallible (List Nat)
  | 0, newBlocks => return newBlocks
  | count + 1, newBlocks => do
    match (<- attempt (allocBlock sb)) with
    | .ok block => allocBlocks count (newBlocks ++ [block])
    | .error err =>
      discardBlocks sb newBlocks
      throw err

/-- The loop that copies the payload into the new blocks; `idx` counts them. -/
def writeBlocks (bytes : List UInt8) : Nat -> List Nat -> Fallible Unit
  | _, [] => return ()
  | idx, block :: rest => do
    zeroBlock block
    let start <- settled (sb.blockOffset block)
    writeAt sb start ((bytes.drop (idx * blockSize)).take blockSize)
    writeBlocks bytes (idx + 1) rest

/-- The block for the indirect table, when the payload needs one. -/
def allocIndirect (needed : Nat) (newBlocks : List Nat) : Fallible Nat :=
  if directBlocks < needed then do
    match (<- attempt (allocBlock sb)) with
    | .ok block => return block
    | .error err =>
      discardBlocks sb newBlocks
      throw err
  else return 0

/-- Fill the indirect table with the blocks the inode has no room for. -/
def writeIndirect (indirectBlock : Nat) (newBlocks : List Nat) : Fallible Unit :=
  if indirectBlock ≠ 0 then do
    zeroBlock indirectBlock
    let indirectStart <- settled (sb.blockOffset indirectBlock)
    writeWords sb indirectStart (newBlocks.drop directBlocks)
  else return ()

/-- Replace the payload of an inode.  The new blocks are filled before the
inode points to them, and the old ones are freed last. -/
def writeInodeBytes (inodeIdx : Nat) (bytes : List UInt8) : Fallible Unit :=
  let maxBlocks := directBlocks + indirectEntries
  if maxBlocks * blockSize < bytes.length ∨ 2 ^ 32 - 1 < bytes.length then throw .noSpace
  else do
    let needed := (bytes.length + blockSize - 1) / blockSize
    let newBlocks <- allocBlocks sb needed []
    let indirectBlock <- allocIndirect sb needed newBlocks
    writeBlocks sb bytes 0 newBlocks
    writeIndirect sb indirectBlock newBlocks
    let inode <- okOr (readInode sb inodeIdx) .notFound
    let oldBlocks <- inodeDataBlocks sb inode
    writeInode sb inodeIdx { inode with
      size := bytes.length
      direct := fun slot => newBlocks.getD slot.val 0
      indirect := indirectBlock }
    freeBlocks sb oldBlocks
    freeIndirect sb inode.indirect

end Image

open Image

/-!
## CoolFS operations

Directories, path lookup and the public operations on a mounted image.  Each
operation is one program; it runs under the image lock and with interrupts
off, so operations never interleave.  The notifications sent after a mutation
do not reach the image and are left out.
-/

variable (sb : Superblock)

/-- One 32-byte record of a directory.  Records without an inode or a usable
name are skipped; a name that is not UTF-8 is an error. -/
def parseEntry (chunk : List UInt8) : Except FsError (Option DirectoryEntry) :=
  let inode := fromLeBytes (chunk.take 4)
  let nameLen := (chunk.getD 4 0).toNat
  if inode = 0 ∨ nameLen = 0 ∨ maxNameLen < nameLen then .ok none
  else
    let name := (chunk.drop 5).take nameLen
    if validUtf8 name then .ok (some { inode := inode, name := name }) else .error .io

/-- The loop over `bytes.chunks(DIR_ENTRY_SIZE)`, with a bound on the number of
chunks; a short last chunk ends it. -/
def parseEntries : Nat -> List UInt8 -> Except FsError (List DirectoryEntry)
  | 0, _ => .ok []
  | fuel + 1, bytes =>
    if bytes.length < dirEntrySize then .ok []
    else
      match parseEntry (bytes.take dirEntrySize) with
      | .error failure => .error failure
      | .ok entry =>
        match parseEntries fuel (bytes.drop dirEntrySize) with
        | .error failure => .error failure
        | .ok rest => .ok (entry.toList ++ rest)

def readDirEntries (inodeIdx : Nat) : Fallible (List DirectoryEntry) := do
  let inode <- okOr (readInode sb inodeIdx) .notFound
  if inode.isDir then
    let bytes <- readInodeBytes sb inode
    settled (parseEntries bytes.length bytes)
  else throw .notDirectory

/-- The 32-byte record of an entry. -/
def encodeEntry (entry : DirectoryEntry) : List UInt8 :=
  toLeBytes entry.inode ++ [UInt8.ofNat entry.name.length] ++ entry.name ++
    List.replicate (dirEntrySize - 5 - entry.name.length) 0

/-- The loop of `write_dir_entries`, which checks every name again. -/
def encodeEntries : List DirectoryEntry -> Except FsError (List UInt8)
  | [] => .ok []
  | entry :: rest =>
    match validateName entry.name with
    | .error failure => .error failure
    | .ok _ =>
      match encodeEntries rest with
      | .error failure => .error failure
      | .ok bytes => .ok (encodeEntry entry ++ bytes)

def writeDirEntries (inodeIdx : Nat) (entries : List DirectoryEntry) : Fallible Unit := do
  let bytes <- settled (encodeEntries entries)
  writeInodeBytes sb inodeIdx bytes

/-- The loop of `resolve_path` over the remaining components. -/
def walkComponents : Nat -> List Name -> Fallible Nat
  | inodeIdx, [] => return inodeIdx
  | inodeIdx, component :: rest => do
    let inode <- okOr (readInode sb inodeIdx) .notFound
    if inode.isDir then
      let entries <- readDirEntries sb inodeIdx
      match entries.find? (fun entry => namesEqual entry.name component) with
      | none => throw .notFound
      | some entry => walkComponents entry.inode rest
    else throw .notDirectory

variable (path : List UInt8)

def resolvePath : Fallible Nat := do
  let path <- settled (trimAbsPath path)
  if path = [slash] then return sb.rootInode
  else walkComponents sb sb.rootInode (components path)

/-- The children of a directory that can be read. -/
def describeEntries : List DirectoryEntry -> Optional (List DirEntryInfo)
  | [] => return []
  | entry :: rest => do
    let child <- asOption (readInode sb entry.inode)
    let others <- describeEntries rest
    return match child with
      | none => others
      | some child =>
        { name := entry.name, isDir := child.isDir, size := child.size } :: others

def listDir : Optional (List DirEntryInfo) := do
  let inodeIdx <- okOnly (resolvePath sb path)
  let inode <- readInode sb inodeIdx
  if inode.isDir then
    let entries <- okOnly (readDirEntries sb inodeIdx)
    describeEntries sb entries
  else failure

def readFile : Optional (List UInt8) := do
  let inodeIdx <- okOnly (resolvePath sb path)
  let inode <- readInode sb inodeIdx
  if inode.isFile then okOnly (readInodeBytes sb inode) else failure

def metadata : Optional Metadata := do
  let inodeIdx <- okOnly (resolvePath sb path)
  let inode <- readInode sb inodeIdx
  return {
    uid := inode.uid
    gid := inode.gid
    mode := inode.mode
    size := inode.size
    isDir := inode.isDir
    isFile := inode.isFile }

def chmod (mode : UInt16) : Fallible Unit := do
  let inodeIdx <- resolvePath sb path
  let inode <- okOr (readInode sb inodeIdx) .notFound
  if inode.kind = kindFree then throw .notFound
  else writeInode sb inodeIdx { inode with mode := mode &&& 0o777 }

def chown (uid gid : UInt32) : Fallible Unit := do
  let inodeIdx <- resolvePath sb path
  let inode <- okOr (readInode sb inodeIdx) .notFound
  if inode.kind = kindFree then throw .notFound
  else writeInode sb inodeIdx { inode with uid := uid, gid := gid }

/-- Create an empty node.  The inode is taken first and given back when the
parent directory cannot be rewritten. -/
def createNode (kind : UInt8) (uid gid : UInt32) (mode : UInt16) : Fallible Unit := do
  let (parentPath, name) <- settled (splitParentAndName path)
  settled (validateName name)
  let parentInode <- resolvePath sb parentPath
  let entries <- readDirEntries sb parentInode
  if entries.any (fun entry => namesEqual entry.name name) then throw .alreadyExists
  else
    let inodeIdx <- allocInodeWithMetadata sb kind uid gid mode
    match (<- attempt (writeDirEntries sb parentInode
        (entries ++ [{ inode := inodeIdx, name := name }]))) with
    | .ok _ => return ()
    | .error err =>
      let _ <- attempt (freeInode sb inodeIdx)
      throw err

def createFileWithMetadata (uid gid : UInt32) (mode : UInt16) : Fallible Unit :=
  createNode sb path kindFile uid gid mode

def createDirWithMetadata (uid gid : UInt32) (mode : UInt16) : Fallible Unit :=
  createNode sb path kindDir uid gid mode

def writeFile (path data : List UInt8) : Fallible Unit := do
  let inodeIdx <- resolvePath sb path
  let inode <- okOr (readInode sb inodeIdx) .notFound
  if inode.isFile then writeInodeBytes sb inodeIdx data else throw .invalidPath

/-- A directory is deleted only when it is empty. -/
def checkDeletable (target : Inode) (targetInode : Nat) : Fallible Unit :=
  if target.isDir then do
    let entries <- readDirEntries sb targetInode
    if entries.isEmpty then return () else throw .notEmpty
  else return ()

def deleteFile : Fallible Unit := do
  let (parentPath, name) <- settled (splitParentAndName path)
  let parentInode <- resolvePath sb parentPath
  let entries <- readDirEntries sb parentInode
  match entries.findIdx? (fun entry => namesEqual entry.name name) with
  | none => throw .notFound
  | some pos =>
    let targetInode := (entries.map DirectoryEntry.inode).getD pos 0
    let target <- okOr (readInode sb targetInode) .notFound
    checkDeletable sb target targetInode
    writeDirEntries sb parentInode (entries.eraseIdx pos)
    freeInode sb targetInode

/-- Give an entry a new name inside its directory. -/
def rename (newName : Name) : Fallible Unit := do
  settled (validateName newName)
  let (parentPath, oldName) <- settled (splitParentAndName path)
  if namesEqual oldName newName then return ()
  else
    let parentInode <- resolvePath sb parentPath
    let entries <- readDirEntries sb parentInode
    if entries.any (fun entry => namesEqual entry.name newName) then throw .alreadyExists
    else
      match entries.findIdx? (fun entry => namesEqual entry.name oldName) with
      | none => throw .notFound
      | some pos =>
        writeDirEntries sb parentInode
          (entries.modify pos (fun entry => { entry with name := newName }))

/-- The scratch name of a safe write, next to its target. -/
def temporaryPath (parent : List UInt8) : List UInt8 :=
  (if parent.getLast? = some slash then parent else parent ++ [slash]) ++
    [67, 87, 84, 77, 80, 46, 84, 77, 80]

/-- Delete a path that need not exist. -/
def deleteIfPresent : Fallible (Except FsError Unit) := do
  match (<- attempt (deleteFile sb path)) with
  | .ok _ => return .ok ()
  | .error .notFound => return .ok ()
  | .error err => return .error err

/-- Write a file by way of a scratch file that takes its place. -/
def safeWriteFileWithMetadata (path data : List UInt8) (uid gid : UInt32) (mode : UInt16) :
    Fallible Unit := do
  let (parent, name) <- settled (splitParentAndName path)
  let tmp := temporaryPath parent
  match (<- deleteIfPresent sb tmp) with
  | .error err => throw err
  | .ok _ =>
    createFileWithMetadata sb tmp uid gid mode
    writeFile sb tmp data
    match (<- deleteIfPresent sb path) with
    | .error err =>
      let _ <- attempt (deleteFile sb tmp)
      throw err
    | .ok _ => rename sb tmp name

def zeroBlocks : List Nat -> Fallible Unit
  | [] => return ()
  | block :: rest => do
    zeroBlock block
    zeroBlocks rest

def reserveBlocks : List Nat -> Fallible Unit
  | [] => return ()
  | block :: rest => do
    setBlockUsed sb block true
    reserveBlocks rest

/-- Lay out an empty volume.  The image it returns has the default superblock. -/
def formatImage : Fallible Unit := do
  let sb := Superblock.new
  zeroBlocks (List.range sb.dataStart)
  modify 0 (fun _ => sb.write Block.zero)
  reserveBlocks sb (List.range sb.dataStart)
  writeInode sb sb.rootInode (Inode.new kindDir)

end CoolOs.CoolFs
