import CoolOs.BlockStore.Program
import Mathlib.Data.List.Induction

namespace CoolOs.CoolFs

open BlockStore

/-!
# The CoolFS disk layout

A CoolFS volume is an array of 4096-byte blocks: the superblock, the inode
table, one bitmap block and the data blocks.  This module fixes the layout
constants, the error codes and the raw contents of sectors and blocks.
-/

/-- The errors returned by the filesystem code. -/
inductive FsError where
  | alreadyExists
  | invalidPath
  | io
  | noSpace
  | notDirectory
  | notEmpty
  | notFound
  | permissionDenied
  | unsupportedName
  deriving DecidableEq, Repr

@[simp] abbrev sectorSize : Nat := 512
@[simp] abbrev sectorsPerBlock : Nat := 8
@[simp] abbrev blockSize : Nat := 4096
@[simp] abbrev totalBlocks : Nat := 1536
@[simp] abbrev inodeCount : Nat := 512
@[simp] abbrev inodeSize : Nat := 256
@[simp] abbrev directBlocks : Nat := 48
@[simp] abbrev indirectEntries : Nat := blockSize / 4
@[simp] abbrev dirEntrySize : Nat := 32
@[simp] abbrev maxNameLen : Nat := 27
@[simp] abbrev inodeTableStart : Nat := 1
@[simp] abbrev inodeTableBlocks : Nat := (inodeCount * inodeSize + blockSize - 1) / blockSize
@[simp] abbrev bitmapStart : Nat := inodeTableStart + inodeTableBlocks
@[simp] abbrev bitmapBlocks : Nat := 1
@[simp] abbrev dataStart : Nat := bitmapStart + bitmapBlocks
@[simp] abbrev rootInode : Nat := 0
@[simp] abbrev cacheSlots : Nat := 64

/-- The contents of one 512-byte sector. -/
abbrev Sector := Fin 512 -> UInt8

/-- The contents of one 4096-byte block. -/
abbrev Block := Fin 4096 -> UInt8

scoped instance sector_nonzero : NeZero 512 := ⟨by decide⟩
scoped instance block_nonzero : NeZero 4096 := ⟨by decide⟩

namespace Block

/-- The byte at an offset; every use is at an offset below the block size. -/
def byte (block : Block) (offset : Nat) : UInt8 :=
  block (Fin.ofNat 4096 offset)

/-- The sector of a block, as it is handed to the device. -/
def sector (block : Block) (index : Nat) : Sector :=
  fun offset => block.byte (index * sectorSize + offset.val)

/-- Overwrite one sector of a block. -/
def putSector (block : Block) (index : Nat) (contents : Sector) : Block :=
  fun offset =>
    if offset.val / sectorSize = index then contents (Fin.ofNat 512 (offset.val % sectorSize))
    else block offset

def zero : Block := fun _ => 0

theorem byte_of_lt (block : Block) {offset : Nat} (bound : offset < 4096) :
    block.byte offset = block ⟨offset, bound⟩ := by
  have same : Fin.ofNat 4096 offset = ⟨offset, bound⟩ := Fin.ext (Nat.mod_eq_of_lt bound)
  rw [byte, same]

end Block

/-!
## CoolFS records

The values CoolFS keeps on disk: little-endian words, the superblock and the
inodes.  Block numbers and sizes are unsigned 32-bit words on disk and natural
numbers here; encoding one truncates it as the cast in the source does.
-/

/-- `u32::to_le_bytes` -/
def toLeBytes (value : Nat) : List UInt8 :=
  [UInt8.ofNat value, UInt8.ofNat (value / 256), UInt8.ofNat (value / 256 ^ 2),
    UInt8.ofNat (value / 256 ^ 3)]

/-- `u32::from_le_bytes` -/
def fromLeBytes (bytes : List UInt8) : Nat :=
  bytes.foldr (fun byte rest => byte.toNat + 256 * rest) 0

@[simp] theorem length_toLeBytes (value : Nat) : (toLeBytes value).length = 4 := rfl

theorem fromLeBytes_toLeBytes (value : Nat) : fromLeBytes (toLeBytes value) = value % 2 ^ 32 := by
  simp only [fromLeBytes, toLeBytes, List.foldr_cons, List.foldr_nil, UInt8.toNat_ofNat']
  omega

namespace Block

/-- Part of a block, as a slice of it. -/
def read (block : Block) (start length : Nat) : List UInt8 :=
  (List.range length).map (fun offset => block.byte (start + offset))

@[simp] theorem length_read (block : Block) (start length : Nat) :
    (block.read start length).length = length := by
  rw [read, List.length_map, List.length_range]

def word (block : Block) (offset : Nat) : Nat :=
  fromLeBytes (block.read offset 4)

def putWord (offset value : Nat) (block : Block) : Block :=
  spliceBlock offset (toLeBytes value) block

end Block

def magic : List UInt8 := [67, 79, 79, 76, 70, 83, 49, 0]

@[simp] abbrev version : Nat := 1

structure Superblock where
  totalBlocks : Nat
  inodeCount : Nat
  inodeTableStart : Nat
  inodeTableBlocks : Nat
  bitmapStart : Nat
  bitmapBlocks : Nat
  dataStart : Nat
  rootInode : Nat
  deriving DecidableEq

namespace Superblock

def new : Superblock where
  totalBlocks := CoolFs.totalBlocks
  inodeCount := CoolFs.inodeCount
  inodeTableStart := CoolFs.inodeTableStart
  inodeTableBlocks := CoolFs.inodeTableBlocks
  bitmapStart := CoolFs.bitmapStart
  bitmapBlocks := CoolFs.bitmapBlocks
  dataStart := CoolFs.dataStart
  rootInode := CoolFs.rootInode

@[simp] theorem new_totalBlocks : new.totalBlocks = 1536 := rfl
@[simp] theorem new_inodeTableStart : new.inodeTableStart = 1 := rfl
@[simp] theorem new_bitmapStart : new.bitmapStart = 33 := rfl
@[simp] theorem new_dataStart : new.dataStart = 34 := rfl

/-- Read a superblock back.  The sum in the last check is one of 32-bit words. -/
def parse (image : Block) : Option Superblock :=
  if image.read 0 8 ≠ magic then none
  else if image.word 8 ≠ version ∨ image.word 12 ≠ blockSize ∨ image.word 24 ≠ inodeSize then none
  else
    let sb : Superblock :=
      { totalBlocks := image.word 16
        inodeCount := image.word 20
        inodeTableStart := image.word 28
        inodeTableBlocks := image.word 32
        bitmapStart := image.word 36
        bitmapBlocks := image.word 40
        dataStart := image.word 44
        rootInode := image.word 48 }
    if sb.totalBlocks = 0 ∨ sb.inodeCount = 0 ∨ sb.inodeCount <= sb.rootInode ∨
        sb.totalBlocks <= sb.dataStart ∨
        sb.dataStart < (sb.bitmapStart + sb.bitmapBlocks) % 2 ^ 32 then none
    else some sb

def write (sb : Superblock) (image : Block) : Block :=
  spliceBlock 0 magic image
    |> Block.putWord 8 version
    |> Block.putWord 12 blockSize
    |> Block.putWord 16 sb.totalBlocks
    |> Block.putWord 20 sb.inodeCount
    |> Block.putWord 24 inodeSize
    |> Block.putWord 28 sb.inodeTableStart
    |> Block.putWord 32 sb.inodeTableBlocks
    |> Block.putWord 36 sb.bitmapStart
    |> Block.putWord 40 sb.bitmapBlocks
    |> Block.putWord 44 sb.dataStart
    |> Block.putWord 48 sb.rootInode

/-- The length of the volume in bytes. -/
def fsLen (sb : Superblock) : Nat := sb.totalBlocks * blockSize

/-- The place of an inode; every inode of the table lies inside the volume. -/
def inodeOffset (sb : Superblock) (inodeIdx : Nat) : Option Nat :=
  let off := sb.inodeTableStart * blockSize + inodeIdx * inodeSize
  if off + inodeSize <= sb.fsLen then some off else none

def blockOffset (sb : Superblock) (block : Nat) : Except FsError Nat :=
  if sb.totalBlocks <= block then .error .io else .ok (block * blockSize)

/-- The block an offset lies in, and the offset inside it. -/
def absParts (sb : Superblock) (offset : Nat) : Option (Nat × Nat) :=
  if sb.fsLen <= offset then none else some (offset / blockSize, offset % blockSize)

/-- The bitmap byte of a block, and its bit in it. -/
def bitmapByteBit (sb : Superblock) (block : Nat) : Option (Nat × UInt8) :=
  if sb.totalBlocks <= block then none
  else
    let byte := sb.bitmapStart * blockSize + block / 8
    if sb.fsLen <= byte then none else some (byte, 1 <<< UInt8.ofNat (block % 8))

end Superblock

@[simp] abbrev kindFree : UInt8 := 0
@[simp] abbrev kindFile : UInt8 := 1
@[simp] abbrev kindDir : UInt8 := 2

@[simp] abbrev defaultDirMode : UInt16 := 0o755
@[simp] abbrev defaultFileMode : UInt16 := 0o644
@[simp] abbrev rootUid : UInt32 := 0
@[simp] abbrev rootGid : UInt32 := 0

@[simp] abbrev inodeUidOffset : Nat := 12 + directBlocks * 4
@[simp] abbrev inodeGidOffset : Nat := inodeUidOffset + 4
@[simp] abbrev inodeModeOffset : Nat := inodeGidOffset + 4
@[simp] abbrev inodeUsedBytes : Nat := inodeModeOffset + 4

@[ext] structure Inode where
  kind : UInt8
  size : Nat
  direct : Fin 48 -> Nat
  indirect : Nat
  uid : UInt32
  gid : UInt32
  mode : UInt16

namespace Inode

def free : Inode where
  kind := kindFree
  size := 0
  direct := fun _ => 0
  indirect := 0
  uid := 0
  gid := 0
  mode := 0

def new (kind : UInt8) : Inode where
  kind := kind
  size := 0
  direct := fun _ => 0
  indirect := 0
  uid := rootUid
  gid := rootGid
  mode :=
    if kind = kindDir then defaultDirMode else if kind = kindFile then defaultFileMode else 0

def newWithMetadata (kind : UInt8) (uid gid : UInt32) (mode : UInt16) : Inode where
  kind := kind
  size := 0
  direct := fun _ => 0
  indirect := 0
  uid := uid
  gid := gid
  mode := mode &&& 0o777

def isDir (inode : Inode) : Bool := inode.kind == kindDir

def isFile (inode : Inode) : Bool := inode.kind == kindFile

end Inode

/-- What `metadata` reports about a path. -/
structure Metadata where
  uid : UInt32
  gid : UInt32
  mode : UInt16
  size : Nat
  isDir : Bool
  isFile : Bool
  deriving DecidableEq

structure DirectoryEntry where
  inode : Nat
  name : List UInt8
  deriving DecidableEq

/-- One line of a directory listing. -/
structure DirEntryInfo where
  name : List UInt8
  isDir : Bool
  size : Nat
  deriving DecidableEq

/-!
## The CoolFS block cache over a failing disk

Sector reads and writes go to a device whose failures are an arbitrary
schedule: any request may fail, and a failed sector write may leave anything
in its sector.  The cache keeps at most 64 blocks, writes a dirty block back
when it evicts it, and can be flushed or trimmed of clean blocks.
-/

/-- What the device does with one sector write.  A failing write leaves some
function of the old and the new contents behind. -/
inductive WriteOutcome where
  | stored
  | failed (left : Sector -> Sector -> Sector)

/-- The root device: its sectors, and the outcomes of the requests to come. -/
structure Disk where
  sectors : Nat -> Sector
  reads : Nat -> Bool
  writes : Nat -> WriteOutcome

namespace Disk

def readSector (disk : Disk) (lba : Nat) : Option Sector × Disk :=
  (if disk.reads 0 then some (disk.sectors lba) else none,
    { disk with reads := fun n => disk.reads (n + 1) })

def writeSector (disk : Disk) (lba : Nat) (contents : Sector) : Bool × Disk :=
  match disk.writes 0 with
  | .stored =>
    (true, { disk with
      sectors := Function.update disk.sectors lba contents
      writes := fun n => disk.writes (n + 1) })
  | .failed left =>
    (false, { disk with
      sectors := Function.update disk.sectors lba (left (disk.sectors lba) contents)
      writes := fun n => disk.writes (n + 1) })

/-- The block stored in eight consecutive sectors. -/
def block (disk : Disk) (index : Nat) : Block :=
  fun offset =>
    disk.sectors (index * sectorsPerBlock + offset.val / sectorSize)
      (Fin.ofNat 512 (offset.val % sectorSize))

/-- No request will fail. -/
def Reliable (disk : Disk) : Prop :=
  (forall n, disk.reads n = true) ∧ (forall n, disk.writes n = .stored)

end Disk

/-- The sector loop of `read_disk_block`; it stops at the first failing sector. -/
def readSectors (baseLba : Nat) : List Nat -> Block -> Disk -> Except FsError Block × Disk
  | [], out, disk => (.ok out, disk)
  | sector :: rest, out, disk =>
    match disk.readSector (baseLba + sector) with
    | (none, disk) => (.error .io, disk)
    | (some contents, disk) => readSectors baseLba rest (out.putSector sector contents) disk

variable (block : Nat)

def readDiskBlock (disk : Disk) : Except FsError Block × Disk :=
  if totalBlocks <= block then (.error .io, disk)
  else readSectors (block * sectorsPerBlock) (List.range sectorsPerBlock) Block.zero disk

/-- The sector loop of `write_disk_block`; the sectors before the failing one
have been replaced already. -/
def writeSectors (baseLba : Nat) (data : Block) : List Nat -> Disk -> Except FsError Unit × Disk
  | [], disk => (.ok (), disk)
  | sector :: rest, disk =>
    match disk.writeSector (baseLba + sector) (data.sector sector) with
    | (false, disk) => (.error .io, disk)
    | (true, disk) => writeSectors baseLba data rest disk

def writeDiskBlock (data : Block) (disk : Disk) : Except FsError Unit × Disk :=
  if totalBlocks <= block then (.error .io, disk)
  else writeSectors (block * sectorsPerBlock) data (List.range sectorsPerBlock) disk

structure CacheEntry where
  block : Nat
  data : Block
  dirty : Bool
  age : Nat

structure BlockCache where
  entries : List CacheEntry
  clock : Nat

/-- The cache together with the device behind it. -/
structure Cached where
  cache : BlockCache
  disk : Disk

/-- The first element with the least key. -/
def minByKey {Item : Type} (key : Item -> Nat) : List Item -> Option Item
  | [] => none
  | item :: rest =>
    match minByKey key rest with
    | none => some item
    | some best => if key item <= key best then some item else some best

namespace BlockCache

def new : BlockCache := { entries := [], clock := 0 }

def withCleanBlock (data : Block) : BlockCache :=
  { entries := [{ block := block, data := data, dirty := false, age := 1 }], clock := 1 }

/-- The 64-bit clock skips zero when it wraps. -/
def tick (cache : BlockCache) : Nat :=
  max ((cache.clock + 1) % 2 ^ 64) 1

/-- The least recently used entry, with its index. -/
def evictionVictim (cache : BlockCache) : Option (CacheEntry × Nat) :=
  minByKey (fun candidate => candidate.1.age) cache.entries.zipIdx

/-- The least recently used entry that is clean and is not the superblock. -/
def trimVictim (cache : BlockCache) : Option (CacheEntry × Nat) :=
  minByKey (fun candidate => candidate.1.age) (cache.entries.zipIdx.filter
      (fun candidate => !candidate.1.dirty && candidate.1.block != 0))

/-- The loop of `trim_clean`.  Every round removes one entry, so the number of
entries is enough fuel. -/
def trimLoop (keepBlocks : Nat) : Nat -> BlockCache -> Nat -> Nat × BlockCache
  | 0, cache, removed => (removed, cache)
  | fuel + 1, cache, removed =>
    if keepBlocks < cache.entries.length then
      match cache.trimVictim with
      | none => (removed, cache)
      | some (_, index) =>
        trimLoop keepBlocks fuel { cache with entries := cache.entries.eraseIdx index }
          (removed + 1)
    else (removed, cache)

/-- Drop clean blocks until `keepBlocks` remain; returns the bytes released. -/
def trimClean (cache : BlockCache) (keepBlocks : Nat) : Nat × BlockCache :=
  let trimmed := trimLoop keepBlocks cache.entries.length cache 0
  (trimmed.1 * blockSize, trimmed.2)

end BlockCache

namespace Cached

/-- Replace the evicted entry, writing it back first when it is dirty. -/
def replaceVictim (entries : List CacheEntry) (clock : Nat) (victim : CacheEntry × Nat)
    (fresh : CacheEntry) (disk : Disk) : Except FsError Nat × Cached :=
  if victim.1.dirty then
    match writeDiskBlock victim.1.block victim.1.data disk with
    | (.error failure, disk) =>
      (.error failure, { cache := { entries := entries, clock := clock }, disk := disk })
    | (.ok _, disk) =>
      (.ok victim.2,
        { cache := { entries := entries.set victim.2 fresh, clock := clock }, disk := disk })
  else
    (.ok victim.2,
      { cache := { entries := entries.set victim.2 fresh, clock := clock }, disk := disk })

/-- Find the entry of a block, loading the block when it is not cached. -/
def cacheIndex (state : Cached) : Except FsError Nat × Cached :=
  if totalBlocks <= block then (.error .io, state)
  else
    let clock := state.cache.tick
    let entries := state.cache.entries
    match entries.findIdx? (fun entry => entry.block == block) with
    | some index =>
      (.ok index,
        { state with
          cache := { entries := entries.modify index (fun entry => { entry with age := clock })
                     clock := clock } })
    | none =>
      match readDiskBlock block state.disk with
      | (.error failure, disk) =>
        (.error failure, { cache := { entries := entries, clock := clock }, disk := disk })
      | (.ok data, disk) =>
        let fresh : CacheEntry :=
          { block := block, data := data, dirty := false, age := clock }
        if entries.length < cacheSlots then
          (.ok entries.length,
            { cache := { entries := entries ++ [fresh], clock := clock }, disk := disk })
        else
          match state.cache.evictionVictim with
          | none =>
            (.error .io, { cache := { entries := entries, clock := clock }, disk := disk })
          | some victim => replaceVictim entries clock victim fresh disk

/-- Fetch a block through the cache. -/
def get (state : Cached) : Except FsError Block × Cached :=
  match cacheIndex block state with
  | (.error failure, state) => (.error failure, state)
  | (.ok index, state) =>
    match state.cache.entries[index]? with
    | some entry => (.ok entry.data, state)
    | none => (.error .io, state)

/-- Fetch a block for writing, mark it dirty and apply the caller's change to
the returned bytes. -/
def getMut (change : Block -> Block) (state : Cached) :
    Except FsError Unit × Cached :=
  match cacheIndex block state with
  | (.error failure, state) => (.error failure, state)
  | (.ok index, state) =>
    (.ok (), { state with
      cache := { state.cache with
        entries := state.cache.entries.modify index
          (fun entry => { entry with dirty := true, data := change entry.data }) } })

/-- The loop of `flush`: write dirty entries back in order, stopping at the
first failure.  Returns the entries as they are then. -/
def flushEntries : List CacheEntry -> Disk -> Except FsError Unit × List CacheEntry × Disk
  | [], disk => (.ok (), [], disk)
  | entry :: rest, disk =>
    if entry.dirty then
      match writeDiskBlock entry.block entry.data disk with
      | (.error failure, disk) => (.error failure, entry :: rest, disk)
      | (.ok _, disk) =>
        match flushEntries rest disk with
        | (outcome, rest, disk) => (outcome, { entry with dirty := false } :: rest, disk)
    else
      match flushEntries rest disk with
      | (outcome, rest, disk) => (outcome, entry :: rest, disk)

def flush (state : Cached) : Except FsError Unit × Cached :=
  match flushEntries state.cache.entries state.disk with
  | (outcome, entries, disk) =>
    (outcome, { cache := { state.cache with entries := entries }, disk := disk })

def trimClean (keepBlocks : Nat) (state : Cached) : Nat × Cached :=
  let trimmed := state.cache.trimClean keepBlocks
  (trimmed.1, { state with cache := trimmed.2 })

/-- The cache as a device for block programs. -/
def device : BlockStore.Device FsError Block Cached where
  get := get
  update := getMut

/-- The content a block has for the code above the cache: the cached entry if
there is one, and the disk otherwise. -/
def logical (state : Cached) (block : Nat) : Block :=
  match state.cache.entries.find? (fun entry => entry.block == block) with
  | some entry => entry.data
  | none => state.disk.block block

end Cached

open List

/-!
## Names and paths

Strings are the lists of their UTF-8 bytes.  The path functions of the source
look only at the separator, which is one byte and is part of no longer
encoding, so they can be read off the bytes.
-/

abbrev Name := List UInt8

@[simp] def slash : UInt8 := 47
@[simp] def dot : UInt8 := 46

/-- A byte that follows the first byte of a longer encoding. -/
def continuation (low high byte : UInt8) : Bool := low <= byte && byte <= high

/-- `core::str::from_utf8` accepts exactly the well-formed sequences: no
overlong forms, no surrogates, nothing above U+10FFFF. -/
def validUtf8 : List UInt8 -> Bool
  | [] => true
  | a :: rest =>
    if a < 0x80 then validUtf8 rest
    else
      match rest with
      | [] => false
      | b :: rest =>
        if 0xC2 <= a && a <= 0xDF then continuation 0x80 0xBF b && validUtf8 rest
        else
          match rest with
          | [] => false
          | c :: rest =>
            if 0xE0 <= a && a <= 0xEF then
              continuation (if a = 0xE0 then 0xA0 else 0x80) (if a = 0xED then 0x9F else 0xBF) b &&
                continuation 0x80 0xBF c && validUtf8 rest
            else
              match rest with
              | [] => false
              | d :: rest =>
                (0xF0 <= a && a <= 0xF4) && continuation (if a = 0xF0 then 0x90 else 0x80)
                    (if a = 0xF4 then 0x8F else 0xBF) b &&
                  continuation 0x80 0xBF c && continuation 0x80 0xBF d && validUtf8 rest

theorem validUtf8_of_ascii {bytes : List UInt8} (ascii : ∀ byte ∈ bytes, byte < 0x80) :
    validUtf8 bytes = true := by
  induction bytes with
  | nil => rfl
  | cons byte rest ih =>
    unfold validUtf8
    rw [if_pos (ascii byte mem_cons_self)]
    exact ih (fun other listed => ascii other (mem_cons_of_mem _ listed))

def toAsciiLower (byte : UInt8) : UInt8 :=
  if 65 <= byte ∧ byte <= 90 then byte + 32 else byte

/-- The form in which names are compared. -/
def foldCase (name : Name) : Name := name.map toAsciiLower

def namesEqual (left right : Name) : Bool := foldCase left == foldCase right

/-- The bytes a name may contain. -/
def nameByte (byte : UInt8) : Bool := 0x20 <= byte && byte <= 0x7e && byte != slash

def validateName (name : Name) : Except FsError Unit :=
  if name = [] ∨ name = [dot] ∨ name = [dot, dot] ∨ maxNameLen < name.length then
    .error .unsupportedName
  else if name.all nameByte then .ok ()
  else .error .unsupportedName

/-- The names `validate_name` accepts. -/
structure ValidName (name : Name) : Prop where
  nonempty : name ≠ []
  notDot : name ≠ [dot]
  notDotDot : name ≠ [dot, dot]
  short : name.length <= maxNameLen
  printable : ∀ byte ∈ name, nameByte byte = true

theorem validateName_ok_iff {name : Name} : validateName name = .ok () <-> ValidName name := by
  unfold validateName
  constructor
  · intro accepted
    by_cases shape : name = [] ∨ name = [dot] ∨ name = [dot, dot] ∨ maxNameLen < name.length
    · rw [if_pos shape] at accepted
      cases accepted
    · rw [if_neg shape] at accepted
      simp only [not_or, Nat.not_lt] at shape
      by_cases printable : name.all nameByte = true
      · exact ⟨shape.1, shape.2.1, shape.2.2.1, shape.2.2.2, all_eq_true.mp printable⟩
      · rw [if_neg printable] at accepted
        cases accepted
  · intro valid
    have shape : ¬ (name = [] ∨ name = [dot] ∨ name = [dot, dot] ∨ maxNameLen < name.length) := by
      simp only [not_or, Nat.not_lt]
      exact ⟨valid.nonempty, valid.notDot, valid.notDotDot, valid.short⟩
    rw [if_neg shape, if_pos (all_eq_true.mpr valid.printable)]

theorem namesEqual_iff {left right : Name} :
    namesEqual left right = true <-> foldCase left = foldCase right := beq_iff_eq

namespace ValidName

variable {name : Name}

theorem utf8 (valid : ValidName name) : validUtf8 name = true := by
  apply validUtf8_of_ascii
  intro byte listed
  have printable := valid.printable byte listed
  simp only [nameByte, Bool.and_eq_true, decide_eq_true_eq] at printable
  exact UInt8.lt_of_le_of_lt printable.1.2 (by decide)

theorem slash_not_mem (valid : ValidName name) : slash ∉ name := by
  intro listed
  have printable := valid.printable slash listed
  simp [nameByte] at printable

end ValidName

/-- The loop of `trim_abs_path`: step back over trailing separators, but keep
the first byte. -/
def trimEnd (path : List UInt8) : Nat -> Nat
  | 0 => 0
  | rest + 1 => if 1 < rest + 1 ∧ path[rest]? = some slash then trimEnd path rest else rest + 1

def trimAbsPath (path : List UInt8) : Except FsError (List UInt8) :=
  if path.head? ≠ some slash then .error .invalidPath
  else .ok (path.take (trimEnd path path.length))

/-- The position of the last separator. -/
def rfind (path : List UInt8) : Option Nat :=
  (path.reverse.findIdx? (fun byte => byte == slash)).map (fun index => path.length - 1 - index)

def splitParentAndName (path : List UInt8) : Except FsError (List UInt8 × Name) :=
  match trimAbsPath path with
  | .error failure => .error failure
  | .ok path =>
    if path = [slash] then .error .invalidPath
    else
      match rfind path with
      | none => .error .invalidPath
      | some position =>
        let parent := if position = 0 then [slash] else path.take position
        let name := path.drop (position + 1)
        match validateName name with
        | .error failure => .error failure
        | .ok _ => .ok (parent, name)

/-- `path.split('/')` -/
def splitSlash : List UInt8 -> List Name
  | [] => [[]]
  | byte :: rest =>
    if byte = slash then [] :: splitSlash rest
    else
      match splitSlash rest with
      | [] => [[byte]]
      | first :: others => (byte :: first) :: others

/-- The components of a path: what is left of the split after empty pieces
are dropped. -/
def components (path : List UInt8) : List Name :=
  (splitSlash path).filter (fun component => !component.isEmpty)

variable {name : Name} {count : Nat} {parent : List UInt8}

theorem splitSlash_ne_nil (path : List UInt8) : splitSlash path ≠ [] := by
  cases path with
  | nil => exact cons_ne_nil _ _
  | cons byte rest =>
    unfold splitSlash
    split
    · exact cons_ne_nil _ _
    · cases splitSlash rest with
      | nil => exact cons_ne_nil _ _
      | cons first others => exact cons_ne_nil _ _

theorem splitSlash_append (front back : List UInt8) :
    splitSlash (front ++ slash :: back) = splitSlash front ++ splitSlash back := by
  induction front with
  | nil => rfl
  | cons byte rest ih =>
    by_cases separator : byte = slash
    · simp only [cons_append, splitSlash, if_pos separator, ih]
    · simp only [cons_append, splitSlash, if_neg separator, ih]
      cases pieces : splitSlash rest with
      | nil => exact absurd pieces (splitSlash_ne_nil rest)
      | cons first others => rfl

theorem splitSlash_of_not_mem (plain : slash ∉ name) : splitSlash name = [name] := by
  induction name with
  | nil => rfl
  | cons byte rest ih =>
    have different : byte ≠ slash := fun same => plain (same ▸ mem_cons_self)
    have later : slash ∉ rest := fun listed => plain (mem_cons_of_mem _ listed)
    rw [splitSlash, if_neg different, ih later]

/-- A separator only divides the components around it. -/
theorem components_append (front back : List UInt8) :
    components (front ++ slash :: back) = components front ++ components back := by
  rw [components, splitSlash_append, filter_append, components, components]

theorem components_of_name (nonempty : name ≠ []) (plain : slash ∉ name) :
    components name = [name] := by
  rw [components, splitSlash_of_not_mem plain]
  exact filter_eq_self.mpr (by simpa using nonempty)

theorem components_joined {parts : List Name} (nonempty : ∀ part ∈ parts, part ≠ [])
    (plain : ∀ part ∈ parts, slash ∉ part) :
    components (parts.flatMap (fun part => slash :: part)) = parts := by
  induction parts using reverseRecOn with
  | nil => rfl
  | append_singleton front last ih =>
    have member : last ∈ front ++ [last] := mem_append_right _ mem_cons_self
    rw [flatMap_append, flatMap_singleton, components_append,
      components_of_name (nonempty last member) (plain last member),
      ih (fun part listed => nonempty part (mem_append_left _ listed))
        (fun part listed => plain part (mem_append_left _ listed))]

theorem trimEnd_pos (path : List UInt8) (positive : 0 < count) : 0 < trimEnd path count := by
  induction count with
  | zero => exact absurd positive (Nat.lt_irrefl 0)
  | succ rest ih =>
    unfold trimEnd
    split
    · next trailing => exact ih (by omega)
    · exact Nat.succ_pos rest

/-- Trailing separators carry no component. -/
theorem components_trimEnd (path : List UInt8) (count : Nat) :
    components (path.take (trimEnd path count)) = components (path.take count) := by
  induction count with
  | zero => rfl
  | succ rest ih =>
    unfold trimEnd
    split
    · next trailing =>
        rcases List.getElem?_eq_some_iff.mp trailing.2 with ⟨inside, value⟩
        have last : path.take (rest + 1) = path.take rest ++ [slash] := by
          rw [take_succ_eq_append_getElem inside, value]
        rw [ih, last, components_append]
        exact (append_nil _).symm
    · rfl

variable {path : List UInt8}

theorem head?_take (positive : 0 < count) : (path.take count).head? = path.head? := by
  rw [List.head?_take, if_neg (Nat.ne_of_gt positive)]

theorem trimAbsPath_ok {trimmed : List UInt8} (outcome : trimAbsPath path = .ok trimmed) :
    trimmed.head? = some slash ∧ components trimmed = components path := by
  unfold trimAbsPath at outcome
  by_cases absolute : path.head? = some slash
  · rw [if_neg (not_not.mpr absolute)] at outcome
    cases outcome
    have positive : 0 < path.length := by
      cases path with
      | nil => cases absolute
      | cons byte rest => exact Nat.succ_pos _
    refine ⟨(head?_take (trimEnd_pos path positive)).trans absolute, ?_⟩
    rw [components_trimEnd, take_length]
  · rw [if_pos absolute] at outcome
    cases outcome

theorem trimAbsPath_of_absolute (absolute : path.head? = some slash) :
    trimAbsPath path = .ok (path.take (trimEnd path path.length)) := if_neg (not_not.mpr absolute)

theorem trimAbsPath_error (relative : path.head? ≠ some slash) :
    trimAbsPath path = .error .invalidPath := if_pos relative

theorem rfind_split {position : Nat} (found : rfind path = some position) :
    path = path.take position ++ slash :: path.drop (position + 1) := by
  rcases Option.map_eq_some_iff.mp found with ⟨index, located, rfl⟩
  rcases findIdx?_eq_some_iff_getElem.mp located with ⟨inside, value, _⟩
  rw [length_reverse] at inside
  rw [getElem_reverse, beq_iff_eq] at value
  have bound : path.length - 1 - index < path.length := by omega
  rw [<- value, <- drop_eq_getElem_cons bound]
  exact (take_append_drop _ _).symm

theorem absolute_of_split (outcome : splitParentAndName path = .ok (parent, name)) :
    path.head? = some slash := by
  by_contra relative
  rw [splitParentAndName, trimAbsPath_error relative] at outcome
  cases outcome

/-- A path that splits names a component below its parent. -/
theorem splitParentAndName_ok (outcome : splitParentAndName path = .ok (parent, name)) :
    ValidName name ∧ parent.head? = some slash ∧ components path = components parent ++ [name] := by
  unfold splitParentAndName at outcome
  cases trimmed : trimAbsPath path with
  | error failure =>
    rw [trimmed] at outcome
    cases outcome
  | ok path' =>
    rw [trimmed] at outcome
    rcases trimAbsPath_ok trimmed with ⟨absolute, same⟩
    by_cases root : path' = [slash]
    · simp only [if_pos root] at outcome
      cases outcome
    · simp only [if_neg root] at outcome
      cases found : rfind path' with
      | none =>
        rw [found] at outcome
        cases outcome
      | some position =>
        simp only [found] at outcome
        cases checked : validateName (path'.drop (position + 1)) with
        | error failure =>
          rw [checked] at outcome
          cases outcome
        | ok accepted =>
          rw [checked] at outcome
          have valid := validateName_ok_iff.mp checked
          simp only [Except.ok.injEq, Prod.mk.injEq] at outcome
          rcases outcome with ⟨parentSame, nameSame⟩
          have pieces : components path =
              components (path'.take position) ++ [path'.drop (position + 1)] := by
            rw [<- same, <- components_of_name valid.nonempty valid.slash_not_mem,
              <- components_append, <- rfind_split found]
          rw [<- nameSame, <- parentSame]
          refine ⟨valid, ?_, ?_⟩
          · split
            · rfl
            · next later => exact (head?_take (Nat.pos_of_ne_zero later)).trans absolute
          · rw [pieces]
            split
            · next first =>
                rw [first]
                rfl
            · rfl

/-- The key of a path in the abstract map: its components up to case. -/
def pathKey (path : List UInt8) : List Name := (components path).map foldCase

theorem pathKey_of_split (outcome : splitParentAndName path = .ok (parent, name)) :
    pathKey path = pathKey parent ++ [foldCase name] := by
  rw [pathKey, (splitParentAndName_ok outcome).2.2, map_append]
  rfl

end CoolOs.CoolFs
