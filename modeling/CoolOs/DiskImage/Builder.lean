import CoolOs.CoolFs.Lookup

namespace CoolOs.DiskImage

open BlockStore CoolFs

/-!
# The host-side CoolFS builder

The tool that produces the disk image has its own encoder and allocator for the
CoolFS format.  It works on the whole image in memory, and every error is a
panic of the tool.  Strings are the lists of their UTF-8 bytes, and the inode
and directory records are those of the kernel.
-/

variable {Result Other : Type} {before between : Volume}

@[simp] abbrev cfVersion : Nat := 1
@[simp] abbrev cfBlockSize : Nat := 4096
@[simp] abbrev cfTotalBlocks : Nat := 1536
@[simp] abbrev cfInodeCount : Nat := 512
@[simp] abbrev cfInodeSize : Nat := 256
@[simp] abbrev cfDirectBlocks : Nat := 48
@[simp] abbrev cfIndirectEntries : Nat := cfBlockSize / 4
@[simp] abbrev cfDirEntrySize : Nat := 32
@[simp] abbrev cfMaxNameLen : Nat := 27
@[simp] abbrev cfInodeTableStart : Nat := 1
@[simp] abbrev cfInodeTableBlocks : Nat :=
  (cfInodeCount * cfInodeSize + cfBlockSize - 1) / cfBlockSize
@[simp] abbrev cfBitmapStart : Nat := cfInodeTableStart + cfInodeTableBlocks
@[simp] abbrev cfBitmapBlocks : Nat := 1
@[simp] abbrev cfDataStart : Nat := cfBitmapStart + cfBitmapBlocks
@[simp] abbrev cfRootInode : Nat := 0
@[simp] abbrev cfInodeUidOffset : Nat := 12 + cfDirectBlocks * 4
@[simp] abbrev cfInodeGidOffset : Nat := cfInodeUidOffset + 4
@[simp] abbrev cfInodeModeOffset : Nat := cfInodeGidOffset + 4
@[simp] abbrev cfInodeUsedBytes : Nat := cfInodeModeOffset + 4

/-- The length of the image in memory. -/
@[simp] abbrev imageLen : Nat := cfTotalBlocks * cfBlockSize

/-- The bytes of an ASCII string. -/
def ascii (text : String) : List UInt8 := text.toList.map (fun char => UInt8.ofNat char.toNat)

/-- Code on the image; an access outside it panics. -/
abbrev Builder := Panicking Bytes

def readSlice (start len : Nat) : Builder (List UInt8) := fun image =>
  if start + len <= imageLen then some (slice image start len, image) else none

def writeSlice (start : Nat) (bytes : List UInt8) : Builder Unit := fun image =>
  if start + bytes.length <= imageLen then some ((), splice image start bytes) else none

def readByte (offset : Nat) : Builder UInt8 := fun image =>
  if offset < imageLen then some (image offset, image) else none

def fill (start len : Nat) : Builder Unit := writeSlice start (List.replicate len 0)

def cfReadU32 (offset : Nat) : Builder Nat := do
  let bytes <- readSlice offset 4
  return fromLeBytes bytes

def cfWriteU32 (offset value : Nat) : Builder Unit := writeSlice offset (toLeBytes value)

/-- Consecutive words, as the loops over the block slots read them. -/
def cfReadWords : Nat -> Nat -> Builder (List Nat)
  | _, 0 => return []
  | offset, count + 1 => do
    let word <- cfReadU32 offset
    let rest <- cfReadWords (offset + 4) count
    return word :: rest

def cfWriteWords : Nat -> List Nat -> Builder Unit
  | _, [] => return ()
  | offset, word :: rest => do
    cfWriteU32 offset word
    cfWriteWords (offset + 4) rest

variable (inodeIdx : Nat)

def inodeOffset : Nat := cfInodeTableStart * cfBlockSize + inodeIdx * cfInodeSize

/-- Unlike the kernel, the builder leaves a mode of zero as it is. -/
def readInode : Builder (Option Inode) :=
  if cfInodeCount <= inodeIdx then return none
  else do
    let off := inodeOffset inodeIdx
    let kind <- readByte off
    let size <- cfReadU32 (off + 4)
    let direct <- cfReadWords (off + 8) cfDirectBlocks
    let indirect <- cfReadU32 (off + 8 + cfDirectBlocks * 4)
    let uid <- cfReadU32 (off + cfInodeUidOffset)
    let gid <- cfReadU32 (off + cfInodeGidOffset)
    let mode <- cfReadU32 (off + cfInodeModeOffset)
    return some {
      kind := kind
      size := size
      direct := fun slot => direct.getD slot.val 0
      indirect := indirect
      uid := UInt32.ofNat uid
      gid := UInt32.ofNat gid
      mode := UInt16.ofNat mode &&& 0o777 }

def writeInode (inode : Inode) : Builder Unit := do
  let off := inodeOffset inodeIdx
  writeSlice off [inode.kind]
  fill (off + 1) 3
  cfWriteU32 (off + 4) inode.size
  cfWriteWords (off + 8) (List.ofFn inode.direct)
  cfWriteU32 (off + 8 + cfDirectBlocks * 4) inode.indirect
  cfWriteU32 (off + cfInodeUidOffset) inode.uid.toNat
  cfWriteU32 (off + cfInodeGidOffset) inode.gid.toNat
  cfWriteU32 (off + cfInodeModeOffset) (inode.mode &&& 0o777).toNat
  fill (off + cfInodeUsedBytes) (cfInodeSize - cfInodeUsedBytes)

def blockUsed (block : Nat) : Builder Bool := do
  let byte <- readByte (cfBitmapStart * cfBlockSize + block / 8)
  return byte &&& (1 <<< UInt8.ofNat (block % 8)) != 0

def setBlockUsed (block : Nat) (used : Bool) : Builder Unit := do
  let byte := cfBitmapStart * cfBlockSize + block / 8
  let bit : UInt8 := 1 <<< UInt8.ofNat (block % 8)
  let old <- readByte byte
  writeSlice byte [if used then old ||| bit else old &&& ~~~bit]

/-- The loop of `alloc_block` over the remaining blocks. -/
def allocBlockFrom : List Nat -> Builder Nat
  | [] => failure
  | block :: rest => do
    if (<- blockUsed block) then allocBlockFrom rest
    else
      setBlockUsed block true
      fill (block * cfBlockSize) cfBlockSize
      return block

def allocBlock : Builder Nat :=
  allocBlockFrom (List.range' cfDataStart (cfTotalBlocks - cfDataStart))

/-- The loop of `alloc_inode_with_metadata` over the remaining inodes. -/
def allocInodeFrom (fresh : Inode) : List Nat -> Builder Nat
  | [] => failure
  | inode :: rest => do
    if (<- readInode inode).map Inode.kind = some kindFree then
      writeInode inode fresh
      return inode
    else allocInodeFrom fresh rest

def allocInodeWithMetadata (kind : UInt8) (uid gid : UInt32) (mode : UInt16) : Builder Nat :=
  allocInodeFrom (.newWithMetadata kind uid gid mode) (List.range' 1 (cfInodeCount - 1))

def inodeDataBlocks (inode : Inode) : Builder (List Nat) := do
  let needed := (inode.size + cfBlockSize - 1) / cfBlockSize
  let direct := ((List.ofFn inode.direct).take (min needed cfDirectBlocks)).filter
    (fun block => block != 0)
  if cfDirectBlocks < needed ∧ inode.indirect ≠ 0 then
    let words <- cfReadWords (inode.indirect * cfBlockSize) (needed - cfDirectBlocks)
    return direct ++ words.filter (fun block => block != 0)
  else return direct

/-- The loop of `read_inode_bytes`. -/
def readBlocks : List Nat -> Nat -> Builder (List UInt8)
  | [], _ => return []
  | block :: rest, remaining =>
    if remaining = 0 then return []
    else do
      let bytes <- readSlice (block * cfBlockSize) (min remaining cfBlockSize)
      let others <- readBlocks rest (remaining - min remaining cfBlockSize)
      return bytes ++ others

def readInodeBytes (inode : Inode) : Builder (List UInt8) := do
  let blocks <- inodeDataBlocks inode
  readBlocks blocks inode.size

def allocBlocks : Nat -> Builder (List Nat)
  | 0 => return []
  | needed + 1 => do
    let block <- allocBlock
    let rest <- allocBlocks needed
    return block :: rest

def allocIndirect (needed : Nat) : Builder Nat :=
  if cfDirectBlocks < needed then allocBlock else return 0

/-- The loop that copies the payload into its blocks, from the block with
number `idx` on. -/
def writeBlocks (bytes : List UInt8) : Nat -> List Nat -> Builder Unit
  | _, [] => return ()
  | idx, block :: rest => do
    let start := block * cfBlockSize
    fill start cfBlockSize
    let byteStart := idx * cfBlockSize
    let byteEnd := min (byteStart + cfBlockSize) bytes.length
    writeSlice start ((bytes.drop byteStart).take (byteEnd - byteStart))
    writeBlocks bytes (idx + 1) rest

def writeIndirect (indirect : Nat) (blocks : List Nat) : Builder Unit :=
  if indirect ≠ 0 then do
    fill (indirect * cfBlockSize) cfBlockSize
    cfWriteWords (indirect * cfBlockSize) (blocks.drop cfDirectBlocks)
  else return ()

def freeBlocks : List Nat -> Builder Unit
  | [] => return ()
  | block :: rest => do
    setBlockUsed block false
    freeBlocks rest

def freeIndirect (oldIndirect : Nat) : Builder Unit :=
  if oldIndirect ≠ 0 then setBlockUsed oldIndirect false else return ()

def writeInodeBytes (bytes : List UInt8) : Builder Unit :=
  if (cfDirectBlocks + cfIndirectEntries) * cfBlockSize < bytes.length then failure
  else do
    let needed := (bytes.length + cfBlockSize - 1) / cfBlockSize
    let blocks <- allocBlocks needed
    let indirect <- allocIndirect needed
    writeBlocks bytes 0 blocks
    writeIndirect indirect blocks
    match (<- readInode inodeIdx) with
    | none => failure
    | some inode =>
      let oldBlocks <- inodeDataBlocks inode
      let oldIndirect := inode.indirect
      writeInode inodeIdx { inode with
        size := bytes.length
        direct := fun slot => blocks.getD slot.val 0
        indirect := indirect }
      freeBlocks oldBlocks
      freeIndirect oldIndirect

/-- The builder's own check of a name; `false` stands for a panic. -/
def validateName (name : Name) : Bool :=
  (!name.isEmpty && name != [dot] && name != [dot, dot] && name.length <= cfMaxNameLen) &&
    name.all (fun byte => 0x20 <= byte && byte <= 0x7e && byte != slash)

variable (path : List UInt8)

/-- Drop empty and `.` parts; a `..` part or a relative path panics. -/
def normalizeAbsPath : Option (List UInt8) :=
  if path.head? ≠ some slash then none
  else
    let parts := (splitSlash path).filter (fun part => part != [] && part != [dot])
    if [dot, dot] ∈ parts then none
    else if parts = [] then some [slash]
    else some (parts.flatMap (fun part => slash :: part))

def splitParentAndName : Option (List UInt8 × Name) := do
  let path <- normalizeAbsPath path
  if path = [slash] then none
  else
    let position <- rfind path
    let parent := if position = 0 then [slash] else path.take position
    let name := path.drop (position + 1)
    if validateName name then some (parent, name) else none

def startsWith (start : String) : Bool := (ascii start).isPrefixOf path

def endsWith (tail : String) : Bool := (ascii tail).isSuffixOf path

/-- A path is a directory of the list or lies below one. -/
def within (directories : List String) : Bool :=
  directories.any (fun directory =>
    path == ascii directory || startsWith path (directory ++ "/"))

/-- The owner and the mode of a new path: homes belong to their users, some
directories to the default user, everything else to root. -/
def defaultMetadataForPath (isDir : Bool) : Option (UInt32 × UInt32 × UInt16) := do
  let normalized <- normalizeAbsPath path
  if within normalized ["/Users/root"] then
    return (1000, 1000, if isDir then 0o700 else 0o644)
  else if within normalized ["/Users/guest"] then
    return (1001, 1000, if isDir then 0o700 else 0o644)
  else
    let userOwned := within normalized
      ["/TMP", "/Documents", "/Pictures", "/Desktop", "/Trash", "/Downloads", "/Packages"]
    let executable := !isDir && startsWith normalized "/bin/" && !endsWith normalized ".txt"
    let mode : UInt16 :=
      if isDir && normalized == ascii "/TMP" then 0o777
      else if isDir then 0o755
      else if executable then 0o755
      else 0o644
    return if userOwned then (1000, 1000, mode) else (0, 0, mode)

/-- One record of a directory; a name that does not fit or is not UTF-8
panics. -/
def parseEntry (chunk : List UInt8) : Option (Option DirectoryEntry) :=
  let inode := fromLeBytes (chunk.take 4)
  let nameLen := (chunk.getD 4 0).toNat
  if inode = 0 ∨ nameLen = 0 then some none
  else if cfDirEntrySize < 5 + nameLen then none
  else
    let name := (chunk.drop 5).take nameLen
    if validUtf8 name then some (some { inode := inode, name := name }) else none

def parseEntries : Nat -> List UInt8 -> Option (List DirectoryEntry)
  | 0, _ => some []
  | fuel + 1, bytes =>
    if bytes.length < cfDirEntrySize then some []
    else do
      let entry <- parseEntry (bytes.take cfDirEntrySize)
      let rest <- parseEntries fuel (bytes.drop cfDirEntrySize)
      return entry.toList ++ rest

/-- An outcome computed without the image. -/
def settle {Result : Type} (outcome : Option Result) : Builder Result := fun image =>
  outcome.map (fun result => (result, image))

def readDirEntries : Builder (List DirectoryEntry) := do
  match (<- readInode inodeIdx) with
  | none => failure
  | some inode =>
    if inode.kind = kindDir then
      let bytes <- readInodeBytes inode
      settle (parseEntries bytes.length bytes)
    else failure

/-- The 32-byte record of an entry. -/
def encodeEntry (entry : DirectoryEntry) : List UInt8 :=
  toLeBytes entry.inode ++ [UInt8.ofNat entry.name.length] ++ entry.name ++
    List.replicate (cfDirEntrySize - 5 - entry.name.length) 0

def writeDirEntries (entries : List DirectoryEntry) : Builder Unit :=
  if entries.all (fun entry => validateName entry.name) then
    writeInodeBytes inodeIdx (entries.flatMap encodeEntry)
  else failure

def appendDirEntry (parentInode inode : Nat) (name : Name) : Builder Unit :=
  if validateName name then do
    let entries <- readDirEntries parentInode
    if entries.any (fun entry => namesEqual entry.name name) then failure
    else writeDirEntries parentInode (entries ++ [{ inode := inode, name := name }])
  else failure

/-- The loop of `resolve_path` over the remaining components. -/
def walkComponents : Nat -> List Name -> Builder (Option Nat)
  | inodeIdx, [] => return some inodeIdx
  | inodeIdx, component :: rest => do
    match (<- readInode inodeIdx) with
    | none => return none
    | some inode =>
      if inode.kind = kindDir then
        let entries <- readDirEntries inodeIdx
        match entries.find? (fun entry => namesEqual entry.name component) with
        | none => return none
        | some entry => walkComponents entry.inode rest
      else return none

def resolvePath : Builder (Option Nat) := do
  let path <- settle (normalizeAbsPath path)
  if path = [slash] then return some cfRootInode
  else walkComponents cfRootInode (components path)

def createDirWithMetadata (uid gid : UInt32) (mode : UInt16) : Builder Unit := do
  match (<- resolvePath path) with
  | some _ => return ()
  | none =>
    let (parent, name) <- settle (splitParentAndName path)
    match (<- resolvePath parent) with
    | none => failure
    | some parentInode =>
      let inode <- allocInodeWithMetadata kindDir uid gid mode
      appendDirEntry parentInode inode name

def createDir : Builder Unit := do
  let (uid, gid, mode) <- settle (defaultMetadataForPath path true)
  createDirWithMetadata path uid gid mode

/-- A path that exists is overwritten, whatever it is. -/
def createFileWithMetadata (path data : List UInt8) (uid gid : UInt32) (mode : UInt16) :
    Builder Unit := do
  match (<- resolvePath path) with
  | some inode => writeInodeBytes inode data
  | none =>
    let (parent, name) <- settle (splitParentAndName path)
    match (<- resolvePath parent) with
    | none => failure
    | some parentInode =>
      let inode <- allocInodeWithMetadata kindFile uid gid mode
      writeInodeBytes inode data
      appendDirEntry parentInode inode name

def createFile (path data : List UInt8) : Builder Unit := do
  let (uid, gid, mode) <- settle (defaultMetadataForPath path false)
  createFileWithMetadata path data uid gid mode

/-- `CoolFsBuilder::new`: the superblock, the bitmap and the root directory on
an image of zeros. -/
def new : Builder Unit := do
  writeSlice 0 (ascii "COOLFS1" ++ [0])
  cfWriteU32 8 cfVersion
  cfWriteU32 12 cfBlockSize
  cfWriteU32 16 cfTotalBlocks
  cfWriteU32 20 cfInodeCount
  cfWriteU32 24 cfInodeSize
  cfWriteU32 28 cfInodeTableStart
  cfWriteU32 32 cfInodeTableBlocks
  cfWriteU32 36 cfBitmapStart
  cfWriteU32 40 cfBitmapBlocks
  cfWriteU32 44 cfDataStart
  cfWriteU32 48 cfRootInode
  reserve (List.range cfDataStart)
  writeInode cfRootInode (.new kindDir)
where
  reserve : List Nat -> Builder Unit
    | [] => return ()
    | block :: rest => do
      setBlockUsed block true
      reserve rest

/-- The scan of `persist_len` from the last block down. -/
def persistLenFrom (image : Bytes) : Nat -> Nat
  | 0 => cfDataStart * cfBlockSize
  | block + 1 =>
    if image (cfBitmapStart * cfBlockSize + block / 8) &&& (1 <<< UInt8.ofNat (block % 8)) != 0 then
      (block + 1) * cfBlockSize
    else persistLenFrom image block

def persistLen (image : Bytes) : Nat := persistLenFrom image cfTotalBlocks

/-- The bytes written to the disk: the image up to the last used block. -/
def intoImage (image : Bytes) : List UInt8 := slice image 0 (persistLen image)

open CoolFs.Volume List

/-!
## What the builder's steps do

Each step of the builder is described by its effect on the volume the image
decodes to, in the terms the kernel's own steps are described in.  Where the
two agree, everything known about the volume carries over.
-/

/-- What is observed of an image: its first block and its volume. -/
def seen (image : Bytes) : Block × Volume := (blockOf 4096 image 0, ofBytes image)

/-- The step returns a result and changes the volume, but not the superblock. -/
def Makes {Result : Type} (program : Builder Result) (before : Volume) (result : Result)
    (after : Volume) : Prop :=
  forall head, Reaches seen program (head, before) result (head, after)

/-- The step panics. -/
def Stops {Result : Type} (program : Builder Result) (before : Volume) : Prop :=
  forall head, Panics seen program (head, before)

namespace Makes

variable {after : Volume} {result : Result}

theorem pure (result : Result) : Makes (pure result) before result before := fun _ => .pure result

variable {program : Builder Result}

theorem bind {rest : Result -> Builder Other} {final : Other}
    (first : Makes program before result between) (second : Makes (rest result) between final after)
    : Makes (program >>= rest) before final after := fun head => .bind (first head) (second head)

theorem settle (result : Result) : Makes (settle (some result)) before result before :=
  fun _ image same => ⟨image, rfl, same⟩

/-- A step that reads the image. -/
theorem of_read (run : ∀ image, ofBytes image = before -> program image = some (result, image))
    : Makes program before result before := by
  intro head image same
  exact ⟨image, run image (congrArg Prod.snd same), same⟩

/-- A step that writes behind the superblock. -/
theorem of_write {result : Result}
    {start : Bytes -> Nat} {bytes : Bytes -> List UInt8} (behind : ∀ image, 4096 <= start image)
    (run : ∀ image, ofBytes image = before ->
      program image = some (result, splice image (start image) (bytes image)) ∧
        ofBytes (splice image (start image) (bytes image)) = after) :
    Makes program before result after := by
  intro head image same
  rcases run image (congrArg Prod.snd same) with ⟨ran, decoded⟩
  refine ⟨_, ran, Prod.ext ?_ decoded⟩
  rw [<- congrArg Prod.fst same]
  funext offset
  have low : 0 * 4096 + offset.val < start image := by
    have bound := offset.isLt
    have far := behind image
    omega
  exact splice_before _ low

end Makes

namespace Stops

variable {program : Builder Result} {rest : Result -> Builder Other}

theorem failure : Stops (failure : Builder Result) before := fun _ => .failure

theorem first (stops : Stops program before) : Stops (program >>= rest) before :=
  fun head => .first (stops head)

theorem later {result : Result} (makes : Makes program before result between)
    (stops : Stops (rest result) between) : Stops (program >>= rest) before :=
  fun head => .later (makes head) (stops head)

theorem settle : Stops (settle (none : Option Result)) before := fun _ _ _ => rfl

end Stops

/-- How a step ends: it makes something, or panics. -/
def Ends {Result : Type} (program : Builder Result) (before : Volume) :
    Option (Result × Volume) -> Prop
  | some (result, after) => Makes program before result after
  | none => Stops program before

theorem Ends.bind {program : Builder Result} {rest : Result -> Builder Other} {result : Result}
    {outcome : Option (Other × Volume)} (first : Makes program before result between)
    (second : Ends (rest result) between outcome) : Ends (program >>= rest) before outcome := by
  cases outcome with
  | none => exact Stops.later first second
  | some made => exact Makes.bind first second

/-- The step panics, or it makes something as required. -/
def Settles {Result : Type} (program : Builder Result) (before : Volume)
    (required : Result -> Volume -> Prop) : Prop :=
  Stops program before ∨ ∃ result after,
    Makes program before result after ∧ required result after

namespace Settles

variable {program : Builder Result} {rest : Result -> Builder Other}
  {required : Other -> Volume -> Prop}

theorem later {result : Result} (makes : Makes program before result between)
    (settles : Settles (rest result) between required) :
    Settles (program >>= rest) before required := by
  rcases settles with stops | ⟨final, after, ends, holds⟩
  · exact .inl (.later makes stops)
  · exact .inr ⟨final, after, .bind makes ends, holds⟩

theorem bind {first : Result -> Volume -> Prop} (settles : Settles program before first)
    (continues : ∀ result after, first result after ->
      Settles (rest result) after required) : Settles (program >>= rest) before required := by
  rcases settles with stops | ⟨result, after, makes, holds⟩
  · exact .inl (.first stops)
  · exact later makes (continues result after holds)

theorem mono {first second : Result -> Volume -> Prop} (settles : Settles program before first)
    (imp : ∀ result after, first result after -> second result after) :
    Settles program before second := by
  rcases settles with stops | ⟨result, after, makes, holds⟩
  · exact .inl stops
  · exact .inr ⟨result, after, makes, imp result after holds⟩

end Settles

variable {start offset : Nat}

theorem readSlice_run {len : Nat} (image : Bytes) (inside : start + len <= 6291456) :
    readSlice start len image = some (slice image start len, image) := if_pos inside

theorem writeSlice_run {start : Nat} {bytes : List UInt8} (image : Bytes)
    (inside : start + bytes.length <= 6291456) :
    writeSlice start bytes image = some ((), splice image start bytes) := if_pos inside

theorem readByte_run {offset : Nat} (image : Bytes) (inside : offset < 6291456) :
    readByte offset image = some (image offset, image) := if_pos inside

theorem cfReadU32_run (image : Bytes) (inside : offset + 4 <= 6291456) :
    cfReadU32 offset image = some (wordAt image offset, image) :=
  run_bind_some (readSlice_run image inside)

theorem cfReadWords_run (count : Nat) (image : Bytes) (inside : offset + 4 * count <= 6291456) :
    cfReadWords offset count image =
      some ((range count).map (fun slot => wordAt image (offset + 4 * slot)), image) := by
  induction count generalizing offset with
  | zero => rfl
  | succ count ih =>
    refine (run_bind_some (cfReadU32_run image (by omega))).trans ?_
    refine (run_bind_some (ih (by omega))).trans ?_
    rw [range_succ_eq_map, map_cons, map_map]
    simp only [Function.comp_def, Nat.mul_succ, Nat.mul_zero, Nat.add_zero, Nat.add_assoc,
      Nat.add_comm 4]
    rfl

/-- A write right after what has been written so far. -/
theorem writeSlice_next (image : Bytes) {place : Nat} {front : List UInt8} (back : List UInt8)
    (adjacent : place = start + front.length) (inside : place + back.length <= 6291456) :
    writeSlice place back (splice image start front) =
      some ((), splice image start (front ++ back)) := by
  rw [writeSlice_run _ inside, adjacent, splice_append]

theorem cfWriteWords_eq (words : List Nat) (inside : offset + 4 * words.length <= 6291456) :
    cfWriteWords offset words = writeSlice offset (words.flatMap toLeBytes) := by
  funext image
  rw [writeSlice_run image (by rw [length_flatMap_toLeBytes]; exact inside)]
  induction words generalizing offset image with
  | nil =>
    rw [flatMap_nil, splice_nil]
    rfl
  | cons word rest ih =>
    rw [length_cons] at inside
    have first : cfWriteU32 offset word image = some ((), splice image offset (toLeBytes word)) :=
      writeSlice_run image (by rw [length_toLeBytes]; omega)
    refine (run_bind_some first).trans ?_
    rw [ih (by omega), flatMap_cons, <- splice_append]
    rfl

/-- The inode record as the builder reads it: the mode is not replaced by a
default. -/
structure Raw (inode shown : Inode) : Prop where
  kind : inode.kind = shown.kind
  size : inode.size = shown.size
  direct : inode.direct = shown.direct
  indirect : inode.indirect = shown.indirect
  uid : inode.uid = shown.uid
  gid : inode.gid = shown.gid
  mode : normalMode inode.kind (inode.mode &&& 0o777) = shown.mode

def rawInode (image : Bytes) (off : Nat) : Inode :=
  { decodeInode image off with mode := UInt16.ofNat (wordAt image (off + 212)) &&& 0o777 }

theorem inodeOffset_eq (index : Nat) : inodeOffset index = 4096 + index * 256 := by
  simp only [inodeOffset, cfInodeTableStart, cfBlockSize, cfInodeSize, Nat.one_mul]

variable {block : Nat} {index : Nat}

theorem readInode_run (inside : index < 512) (image : Bytes) :
    readInode index image = some (some (rawInode image (4096 + index * 256)), image) := by
  have notBeyond : ¬ cfInodeCount <= index := Nat.not_le_of_lt inside
  have word (offset : Nat) (low : offset + 4 <= 256) :
      cfReadU32 (4096 + index * 256 + offset) image =
        some (wordAt image (4096 + index * 256 + offset), image) :=
    cfReadU32_run image (by omega)
  simp only [readInode, if_neg notBeyond, inodeOffset_eq]
  refine (run_bind_some (readByte_run image (by omega))).trans ?_
  refine (run_bind_some (word 4 (by decide))).trans ?_
  refine (run_bind_some (cfReadWords_run 48 image (by omega))).trans ?_
  refine (run_bind_some (word 200 (by decide))).trans ?_
  refine (run_bind_some (word 204 (by decide))).trans ?_
  refine (run_bind_some (word 208 (by decide))).trans ?_
  refine (run_bind_some (word 212 (by decide))).trans ?_
  simp only [Image.direct_eq]
  rfl

theorem rawInode_raw (image : Bytes) (inside : index < 512) :
    Raw (rawInode image (4096 + index * 256)) ((ofBytes image).inode index) := by
  have shown : (ofBytes image).inode index = decodeInode image (4096 + index * 256) :=
    if_pos inside
  rw [shown]
  refine ⟨rfl, rfl, rfl, rfl, rfl, rfl, ?_⟩
  change normalMode _ ((UInt16.ofNat _ &&& 0o777) &&& 0o777) = normalMode _ (UInt16.ofNat _ &&& 0o777)
  rw [mode_idem]
  rfl

/-- Going on with the record of an inode. -/
theorem Ends.readInode_bind {Result : Type} {index : Nat} (inside : index < 512)
    {rest : Option Inode -> Builder Result} {before : Volume} {outcome : Option (Result × Volume)}
    (next : ∀ inode, Raw inode (before.inode index) -> Ends (rest (some inode)) before outcome)
    : Ends (readInode index >>= rest) before outcome := by
  have ran (image : Bytes) := @run_bind_some _ _ _ _ rest _ _ _ (readInode_run inside image)
  have raw {head : Block} {image : Bytes} (same : seen image = (head, before)) :
      Raw (rawInode image (4096 + index * 256)) (before.inode index) := by
    rw [<- show ofBytes image = before from congrArg Prod.snd same]
    exact rawInode_raw image inside
  cases outcome with
  | none => exact fun head image same => (ran image).trans (next _ (raw same) head image same)
  | some made =>
    intro head image same
    rw [ran]
    exact next _ (raw same) head image same

theorem Makes.readInode_bind {Result : Type} {index : Nat} (inside : index < 512)
    {rest : Option Inode -> Builder Result} {before after : Volume} {result : Result}
    (next : ∀ inode, Raw inode (before.inode index) ->
      Makes (rest (some inode)) before result after) :
    Makes (readInode index >>= rest) before result after :=
  @Ends.readInode_bind _ _ inside _ _ (some (result, after)) next

theorem Stops.readInode_bind {Result : Type} {index : Nat} (inside : index < 512)
    {rest : Option Inode -> Builder Result} {before : Volume}
    (next : ∀ inode, Raw inode (before.inode index) -> Stops (rest (some inode)) before) :
    Stops (readInode index >>= rest) before := @Ends.readInode_bind _ _ inside _ _ none next

theorem writeInode_run (inside : index < 512) (inode : Inode) (image : Bytes) :
    writeInode index inode image =
      some ((), splice image (4096 + index * 256) (encodeInode inode)) := by
  have word (place value : Nat) (front : List UInt8)
      (adjacent : place = 4096 + index * 256 + front.length) (low : front.length + 4 <= 256) :
      cfWriteU32 place value (splice image (4096 + index * 256) front) =
        some ((), splice image (4096 + index * 256) (front ++ toLeBytes value)) :=
    writeSlice_next image _ adjacent (by rw [length_toLeBytes]; omega)
  have words (place : Nat) (list : List Nat) (front : List UInt8)
      (adjacent : place = 4096 + index * 256 + front.length)
      (low : front.length + 4 * list.length <= 256) :
      cfWriteWords place list (splice image (4096 + index * 256) front) =
        some ((), splice image (4096 + index * 256) (front ++ list.flatMap toLeBytes)) := by
    rw [cfWriteWords_eq list (by omega)]
    exact writeSlice_next image _ adjacent (by rw [length_flatMap_toLeBytes]; omega)
  have zeros (place count : Nat) (front : List UInt8)
      (adjacent : place = 4096 + index * 256 + front.length) (low : front.length + count <= 256) :
      fill place count (splice image (4096 + index * 256) front) =
        some ((), splice image (4096 + index * 256) (front ++ replicate count 0)) :=
    writeSlice_next image _ adjacent (by rw [length_replicate]; omega)
  simp only [writeInode, inodeOffset_eq]
  refine (run_bind_some (writeSlice_run image (by rw [length_singleton]; omega))).trans ?_
  refine (run_bind_some (zeros _ 3 _ (by simp) (by simp))).trans ?_
  refine (run_bind_some (word _ inode.size _ (by simp) (by simp))).trans ?_
  refine (run_bind_some (words _ _ _ (by simp) (by simp))).trans ?_
  refine (run_bind_some (word _ inode.indirect _ ?_ ?_)).trans ?_
  · simp
  · simp
  refine (run_bind_some (word _ inode.uid.toNat _ ?_ ?_)).trans ?_
  · simp
  · simp
  refine (run_bind_some (word _ inode.gid.toNat _ ?_ ?_)).trans ?_
  · simp
  · simp
  refine (run_bind_some (word _ (inode.mode &&& 0o777).toNat _ ?_ ?_)).trans ?_
  · simp
  · simp
  exact zeros _ _ _ (by simp) (by simp)

/-- The two encoders write the same record. -/
theorem writeInode_makes (inside : index < 512) (inode : Inode) (volume : Volume) :
    Makes (writeInode index inode) volume () (volume.setInode index inode.stored) := by
  refine @Makes.of_write _ volume _ _ () (fun _ => 4096 + index * 256)
    (fun _ => encodeInode inode) (fun _ => Nat.le_add_right _ _) ?_
  rintro image rfl
  exact ⟨writeInode_run inside inode image, ofBytes_inode image inside inode⟩

/-- A record that is read, changed and written back. -/
theorem Raw.stored_eq {inode shown : Inode} (raw : Raw inode shown) (size : Nat)
    (direct : Fin 48 -> Nat) (indirect : Nat) :
    ({ inode with size := size, direct := direct, indirect := indirect } : Inode).stored =
      { shown with
        size := size % 2 ^ 32
        direct := fun slot => direct slot % 2 ^ 32
        indirect := indirect % 2 ^ 32 } := Inode.ext raw.kind rfl rfl rfl raw.uid raw.gid raw.mode

theorem blockUsed_makes (inside : block < 1536) (volume : Volume) :
    Makes (blockUsed block) volume (volume.used block) volume := by
  apply Makes.of_read
  rintro image rfl
  have value : (ofBytes image).used block =
      (image (135168 + block / 8) &&& bit (block % 8) != 0) := if_pos inside
  have fetched : readByte (cfBitmapStart * cfBlockSize + block / 8) image =
      some (image (135168 + block / 8), image) :=
    @readByte_run (135168 + block / 8) image (by omega)
  rw [value]
  exact run_bind_some fetched

theorem setBlockUsed_makes (inside : block < 1536) (used : Bool) (volume : Volume) :
    Makes (setBlockUsed block used) volume () (volume.setUsed block used) := by
  refine @Makes.of_write _ volume _ _ () (fun _ => 135168 + block / 8)
    (fun image => [if used then image (135168 + block / 8) ||| bit (block % 8)
      else image (135168 + block / 8) &&& ~~~bit (block % 8)]) (fun _ => by omega) ?_
  rintro image rfl
  refine ⟨?_, ofBytes_used image inside used⟩
  have fetched : readByte (cfBitmapStart * cfBlockSize + block / 8) image =
      some (image (135168 + block / 8), image) :=
    @readByte_run (135168 + block / 8) image (by omega)
  refine (run_bind_some fetched).trans ?_
  exact @writeSlice_run (135168 + block / 8) _ image (by rw [length_singleton]; omega)

theorem writeSlice_makes {input : List UInt8} (place : DataBlock block)
    (fits : input.length <= 4096) (volume : Volume) :
    Makes (writeSlice (block * 4096) input) volume ()
      (volume.setData block (spliceBlock 0 input (volume.data block))) := by
  have low := place.1
  have high := place.2
  refine @Makes.of_write _ volume _ _ () (fun _ => block * 4096) (fun _ => input)
    (fun _ => by omega) ?_
  rintro image rfl
  have decoded := @ofBytes_data image block 0 input low high (by rw [Nat.zero_add]; exact fits)
  rw [Nat.add_zero] at decoded
  exact ⟨writeSlice_run image (by omega), decoded⟩

theorem fill_makes (place : DataBlock block) (volume : Volume) :
    Makes (fill (block * 4096) 4096) volume () (volume.setData block Block.zero) := by
  rw [<- Image.spliceBlock_zeros (volume.data block)]
  exact writeSlice_makes place (Nat.le_of_eq length_replicate) volume

theorem cfWriteWords_makes {words : List Nat} (place : DataBlock block)
    (fits : words.length <= 1024) (volume : Volume) :
    Makes (cfWriteWords (block * 4096) words) volume ()
      (volume.setData block (spliceBlock 0 (words.flatMap toLeBytes) (volume.data block))) := by
  have high := place.2
  rw [cfWriteWords_eq words (by omega)]
  exact writeSlice_makes place (by rw [length_flatMap_toLeBytes]; omega) volume

theorem readSlice_makes {length : Nat} (place : DataBlock block) (fits : length <= 4096)
    (volume : Volume) :
    Makes (readSlice (block * 4096) length) volume ((volume.data block).read 0 length) volume := by
  have low := place.1
  have high := place.2
  apply Makes.of_read
  rintro image rfl
  have data : (ofBytes image).data block = blockOf 4096 image block := if_pos place
  rw [readSlice_run image (by omega), data, read_blockOf image (by omega), Nat.add_zero]

theorem cfReadWords_makes {block count : Nat} (place : DataBlock block) (fits : count <= 1024)
    (volume : Volume) :
    Makes (cfReadWords (block * 4096) count) volume
      ((range count).map (fun slot => (volume.data block).word (4 * slot))) volume := by
  have low := place.1
  have high := place.2
  apply Makes.of_read
  rintro image rfl
  have data : (ofBytes image).data block = blockOf 4096 image block := if_pos place
  have words : (range count).map (fun slot => Block.word (blockOf 4096 image block) (4 * slot)) =
      (range count).map (fun slot => wordAt image (block * 4096 + 4 * slot)) := by
    apply map_congr_left
    intro slot listed
    have bound := mem_range.mp listed
    rw [Block.word, read_blockOf image (by omega)]
    rfl
  rw [cfReadWords_run count image (by omega), data, words]

end CoolOs.DiskImage
