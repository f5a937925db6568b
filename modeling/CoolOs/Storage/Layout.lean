import CoolOs.Actions.Action
import CoolOs.CoolFs.Format

namespace CoolOs.Storage

open Actions List Option
open CoolFs (Sector fromLeBytes)

/-!
# Partition tables

Reading a master boot record and a GUID partition table from untrusted sectors.  Numbers
of sectors are unsigned 32-bit words of the source and natural numbers here; what the
source checks for overflow is checked here.
-/

def bytesOf (sector : Sector) : List UInt8 := List.ofFn sector

def slice (bytes : List UInt8) (start length : Nat) : List UInt8 := (bytes.drop start).take length

def readU32 (bytes : List UInt8) (offset : Nat) : Option Nat :=
  if bytes.length < offset + 4 then none else some (fromLeBytes (slice bytes offset 4))

def readU64 (bytes : List UInt8) (offset : Nat) : Option Nat :=
  if bytes.length < offset + 8 then none else some (fromLeBytes (slice bytes offset 8))

/-- `u32::try_from` -/
def tryU32 (value : Nat) : Option Nat := if value < 2 ^ 32 then some value else none

def checkedAdd (left right : Nat) : Option Nat := tryU32 (left + right)

def checkedSub (left right : Nat) : Option Nat :=
  if right <= left then some (left - right) else none

theorem tryU32_eq_some {value word : Nat} (fits : tryU32 value = some word) :
    word = value ∧ value < 2 ^ 32 := by
  unfold tryU32 at fits
  split at fits
  · next small => exact ⟨(some.inj fits).symm, small⟩
  · cases fits

theorem checkedAdd_eq_some {left right sum : Nat} (fits : checkedAdd left right = some sum) :
    sum = left + right ∧ left + right < 2 ^ 32 := tryU32_eq_some fits

theorem checkedSub_eq_some {left right difference : Nat}
    (fits : checkedSub left right = some difference) :
    right <= left ∧ difference = left - right := by
  unfold checkedSub at fits
  split at fits
  · next ordered => exact ⟨ordered, (some.inj fits).symm⟩
  · cases fits

@[simp] abbrev mbrPartitionTableOffset : Nat := 446
@[simp] abbrev mbrPartitionEntrySize : Nat := 16
@[simp] abbrev mbrSignatureOffset : Nat := 510
@[simp] abbrev bootloaderStage2PartitionType : UInt8 := 0x20
@[simp] abbrev bootFat32PartitionType : UInt8 := 0x0c
@[simp] abbrev coolfsPartitionType : UInt8 := 0xc0
@[simp] abbrev protectiveType : UInt8 := 0xee

def mbrSignature : List UInt8 := [0x55, 0xaa]
def coolfsMagic : List UInt8 := [67, 79, 79, 76, 70, 83, 49, 0]

structure MbrPartition where
  boot : UInt8
  sys : UInt8
  startingLba : Nat
  sectors : Nat

def MbrPartition.isUnused (partition : MbrPartition) : Bool :=
  partition.sys == 0 || partition.sectors == 0

def MbrPartition.endLba (partition : MbrPartition) : Option Nat :=
  if partition.isUnused then some 0 else checkedAdd partition.startingLba partition.sectors

variable (sector : List UInt8)

def hasMbrSignature : Bool := slice sector mbrSignatureOffset 2 == mbrSignature

def hasCoolfsMagic : Bool := slice sector 0 8 == coolfsMagic

def parseMbrEntry (idx : Nat) : Option MbrPartition := do
  let off := mbrPartitionTableOffset + idx * mbrPartitionEntrySize
  let startingLba <- readU32 sector (off + 8)
  let sectors <- readU32 sector (off + 12)
  return ⟨sector.getD off 0, sector.getD (off + 4) 0, startingLba, sectors⟩

def parseMbr : Option (List MbrPartition) :=
  if hasMbrSignature sector then (List.range 4).mapM (parseMbrEntry sector) else none

def hasProtectiveMbr : Bool :=
  match parseMbr sector with
  | some partitions =>
    partitions.any (fun partition => partition.sys == protectiveType && partition.startingLba == 1)
  | none => false

def findPartition (partitions : List MbrPartition) (sys : UInt8) : Option MbrPartition :=
  partitions.find? (fun partition => partition.sys == sys && !partition.isUnused)

@[simp] abbrev gptEntrySize : Nat := 128
@[simp] abbrev gptEntryCount : Nat := 128
@[simp] abbrev gptHeaderSize : Nat := 92
@[simp] abbrev gptPrimaryHeaderLba : Nat := 1

def gptSignature : List UInt8 := [69, 70, 73, 32, 80, 65, 82, 84]

abbrev GptGuid := List UInt8

def efiSystemPartitionGuid : GptGuid :=
  [0x28, 0x73, 0x2a, 0xc1, 0x1f, 0xf8, 0xd2, 0x11, 0xba, 0x4b, 0x00, 0xa0, 0xc9, 0x3e, 0xc9, 0x3b]

def coolfsGptPartitionGuid : GptGuid :=
  [0xf0, 0xc6, 0xc7, 0xb9, 0x2e, 0x9d, 0x6a, 0x4f, 0x9a, 0x3d, 0x43, 0x4f, 0x4f, 0x4c, 0x46, 0x53]

structure GptHeader where
  entriesLba : Nat
  entryCount : Nat
  entrySize : Nat

structure GptPartition where
  typeGuid : GptGuid
  startingLba : Nat
  endingLba : Nat

def GptPartition.sectors (partition : GptPartition) : Option Nat :=
  (checkedSub partition.endingLba partition.startingLba).bind (fun length => checkedAdd length 1)

def GptPartition.endLba (partition : GptPartition) : Option Nat := checkedAdd partition.endingLba 1

def parseGptHeader (diskSectors : Nat) : Option GptHeader :=
  if slice sector 0 8 != gptSignature then none
  else do
    let headerSize <- readU32 sector 12
    if headerSize < gptHeaderSize || 512 < headerSize then none
    else do
      let currentLba <- (readU64 sector 24).bind tryU32
      let backupLba <- (readU64 sector 32).bind tryU32
      let firstUsableLba <- (readU64 sector 40).bind tryU32
      let lastUsableLba <- (readU64 sector 48).bind tryU32
      let entriesLba <- (readU64 sector 72).bind tryU32
      let entryCount <- readU32 sector 80
      let entrySize <- readU32 sector 84
      if entrySize != gptEntrySize || entryCount == 0 then none
      else if diskSectors <= currentLba || diskSectors <= backupLba then none
      else if lastUsableLba < firstUsableLba || diskSectors <= lastUsableLba then none
      else some ⟨entriesLba, entryCount, entrySize⟩

def parseGptPartitionEntry (entry : List UInt8) : Option GptPartition :=
  if entry.length < gptEntrySize then none
  else
    let typeGuid := slice entry 0 16
    if typeGuid.all (fun byte => byte == 0) then none
    else do
      let startingLba <- (readU64 entry 32).bind tryU32
      let endingLba <- (readU64 entry 40).bind tryU32
      if startingLba == 0 || endingLba < startingLba then none
      else some ⟨typeGuid, startingLba, endingLba⟩

/-!
## Where an installation puts things

The installer copies a boot area or an EFI system partition and the root to another disk,
and writes the partition tables around them.
-/

@[simp] abbrev installAlignmentSectors : Nat := 2048
@[simp] abbrev gptEntrySectors : Nat := 32
@[simp] abbrev gptPrimaryEntriesLba : Nat := 2
@[simp] abbrev gptTrailingSectors : Nat := 33

inductive InstallLayoutKind where
  | biosMbr
  | uefiGpt

structure InstallLayout where
  kind : InstallLayoutKind
  bootStartLba : Nat
  bootCopySectors : Nat
  rootStartLba : Nat
  rootSectors : Nat
  totalRequiredSectors : Nat
  targetSectors : Nat

def bootAreaEndLba (partitions : List MbrPartition) : Option Nat :=
  partitions.foldlM (fun ending partition =>
    if partition.sys = bootloaderStage2PartitionType ∨ partition.sys = bootFat32PartitionType then
      partition.endLba.map (max ending)
    else some ending) 1

def alignUpLba (lba alignment : Nat) : Option Nat :=
  if alignment = 0 then some lba
  else do
    let rounded <- checkedAdd lba (<- checkedSub alignment 1)
    return rounded / alignment * alignment

variable (rootSectors targetSectors : Nat)

/-- The boot sector is missing if it cannot be read. -/
def computeBiosInstallLayout (bootMbr : Option (List UInt8)) : Except String InstallLayout := do
  let bootMbr <- okOr bootMbr "boot MBR read failed"
  let partitions <- okOr (parseMbr bootMbr) "boot disk has no valid MBR"
  let bootEnd <- okOr (bootAreaEndLba partitions) "boot partition layout overflow"
  let rootStartLba <- okOr (alignUpLba bootEnd installAlignmentSectors)
    "root partition alignment overflow"
  let total <- okOr (checkedAdd rootStartLba rootSectors) "target layout overflow"
  if targetSectors < total then .error "target too small"
  else return ⟨.biosMbr, 0, bootEnd, rootStartLba, rootSectors, total, targetSectors⟩

def computeUefiInstallLayout (esp : GptPartition) : Except String InstallLayout := do
  let espSectors <- okOr esp.sectors "source ESP layout overflow"
  let espEnd <- okOr esp.endLba "source ESP layout overflow"
  if esp.startingLba < gptPrimaryEntriesLba + gptEntrySectors then
    .error "source ESP overlaps GPT metadata"
  else
    let rootStartLba <- okOr (alignUpLba espEnd installAlignmentSectors)
      "root partition alignment overflow"
    let rootEnd <- okOr (checkedAdd rootStartLba rootSectors) "target layout overflow"
    let total <- okOr (checkedAdd rootEnd gptTrailingSectors) "target layout overflow"
    if targetSectors < total then .error "target too small"
    else return ⟨.uefiGpt, esp.startingLba, espSectors, rootStartLba, rootSectors, total,
      targetSectors⟩

/-- With what was found on the boot disk: its EFI system partition and its first sector. -/
def computeInstallLayout (esp : Option GptPartition) (bootMbr : Option (List UInt8)) :
    Except String InstallLayout :=
  match esp with
  | some esp => computeUefiInstallLayout rootSectors targetSectors esp
  | none => computeBiosInstallLayout rootSectors targetSectors bootMbr

namespace InstallLayout

variable (layout : InstallLayout)

def firstUsable : Nat := gptPrimaryEntriesLba + gptEntrySectors

def lastUsable : Nat := layout.targetSectors - gptTrailingSectors

def backupHeaderLba : Nat := layout.targetSectors - 1

def backupEntriesLba : Nat := layout.targetSectors - gptTrailingSectors

/-- What is copied, each part as its first sector and its length.  The boot sector, with
which a boot area starts, is written anew. -/
def partitions : List (Nat × Nat) :=
  (match layout.kind with
    | .biosMbr => (1, layout.bootCopySectors - 1)
    | .uefiGpt => (layout.bootStartLba, layout.bootCopySectors)) ::
    [(layout.rootStartLba, layout.rootSectors)]

/-- The boot sector, and the GUID partition table with its backup. -/
def tables : List (Nat × Nat) :=
  (0, 1) :: match layout.kind with
    | .biosMbr => []
    | .uefiGpt => [(gptPrimaryHeaderLba, 1), (gptPrimaryEntriesLba, gptEntrySectors),
      (layout.backupEntriesLba, gptEntrySectors), (layout.backupHeaderLba, 1)]

/-- What is written does not overlap, is on the disk and has 32-bit sector numbers. -/
structure Separate : Prop where
  apart : (layout.partitions ++ layout.tables).Pairwise fun first second =>
    first.1 + first.2 <= second.1 ∨ second.1 + second.2 <= first.1
  inside : ∀ region ∈ layout.partitions ++ layout.tables,
    region.1 + region.2 <= layout.targetSectors ∧ region.1 + region.2 < 2 ^ 32

/-- The usable sectors of a GUID partition table hold the partitions and nothing of the
tables. -/
def Usable : Prop :=
  layout.kind = .uefiGpt ->
    (∀ region ∈ layout.partitions,
      firstUsable <= region.1 ∧ region.1 + region.2 <= layout.lastUsable + 1) ∧
    ∀ region ∈ layout.tables, region.1 + region.2 <= firstUsable ∨ layout.lastUsable < region.1

end InstallLayout

open InstallLayout

variable {rootSectors targetSectors} {layout : InstallLayout}

theorem le_alignUpLba {lba aligned : Nat} (found : alignUpLba lba 2048 = some aligned) :
    lba <= aligned := by
  rw [alignUpLba, if_neg (by decide)] at found
  rcases bind_eq_some_iff.mp found with ⟨offset, less, found⟩
  rcases bind_eq_some_iff.mp found with ⟨rounded, added, last⟩
  have difference := (checkedSub_eq_some less).2
  have sum := (checkedAdd_eq_some added).1
  have quotient := some.inj last
  omega

theorem le_bootAreaEndLba {partitions : List MbrPartition} {ending : Nat}
    (found : bootAreaEndLba partitions = some ending) : 1 <= ending := by
  unfold bootAreaEndLba at found
  generalize 1 = start at found ⊢
  induction partitions generalizing start with
  | nil => exact Nat.le_of_eq (some.inj found)
  | cons partition rest ih =>
    rw [foldlM_cons] at found
    rcases bind_eq_some_iff.mp found with ⟨next, stepped, later⟩
    refine Nat.le_trans ?_ (ih next later)
    split at stepped
    · rcases map_eq_some_iff.mp stepped with ⟨other, _, rfl⟩
      exact Nat.le_max_left ..
    · exact Nat.le_of_eq (some.inj stepped)

/-- The parts follow on each other and the last ends before the disk does. -/
theorem computeBiosInstallLayout_ok {bootMbr : Option (List UInt8)}
    (computed : computeBiosInstallLayout rootSectors targetSectors bootMbr = .ok layout) :
    layout.kind = .biosMbr ∧ layout.targetSectors = targetSectors ∧ 1 <= layout.bootCopySectors ∧
      layout.bootCopySectors <= layout.rootStartLba ∧
      layout.rootStartLba + layout.rootSectors <= targetSectors := by
  rcases except_bind_ok computed with ⟨bootMbr, _, computed⟩
  rcases except_bind_ok computed with ⟨partitions, _, computed⟩
  rcases except_bind_ok computed with ⟨bootEnd, found, computed⟩
  rcases except_bind_ok computed with ⟨rootStart, aligned, computed⟩
  rcases except_bind_ok computed with ⟨total, added, computed⟩
  split at computed
  · cases computed
  · next enough =>
    cases computed
    have sum := (checkedAdd_eq_some (okOr_ok added)).1
    exact ⟨rfl, rfl, le_bootAreaEndLba (okOr_ok found), le_alignUpLba (okOr_ok aligned),
      sum ▸ Nat.le_of_not_lt enough⟩

theorem computeUefiInstallLayout_ok {esp : GptPartition}
    (computed : computeUefiInstallLayout rootSectors targetSectors esp = .ok layout) :
    layout.kind = .uefiGpt ∧ layout.targetSectors = targetSectors ∧ 34 <= layout.bootStartLba ∧
      layout.bootStartLba + layout.bootCopySectors <= layout.rootStartLba ∧
      layout.rootStartLba + layout.rootSectors + 33 <= targetSectors := by
  rcases except_bind_ok computed with ⟨sectors, counted, computed⟩
  rcases except_bind_ok computed with ⟨ending, ended, computed⟩
  split at computed
  · cases computed
  next behind =>
  rcases except_bind_ok computed with ⟨rootStart, aligned, computed⟩
  rcases except_bind_ok computed with ⟨rootEnd, added, computed⟩
  rcases except_bind_ok computed with ⟨total, trailed, computed⟩
  split at computed
  · cases computed
  · next enough =>
    cases computed
    rcases bind_eq_some_iff.mp (okOr_ok counted) with ⟨length, difference, counted⟩
    have length_eq := checkedSub_eq_some difference
    have sectors_eq := (checkedAdd_eq_some counted).1
    have ending_eq := (checkedAdd_eq_some (okOr_ok ended)).1
    have below := le_alignUpLba (okOr_ok aligned)
    have root := (checkedAdd_eq_some (okOr_ok added)).1
    have sum := (checkedAdd_eq_some (okOr_ok trailed)).1
    simp only [gptTrailingSectors] at sum
    exact ⟨rfl, rfl, Nat.le_of_not_lt behind, by dsimp only; omega, by dsimp only; omega⟩

/-- Every layout that is computed is separate.  The usable sectors are as they should be
exactly if there is no GUID partition table: its last one is the first of the backup. -/
theorem install_layout_usable_iff {esp : Option GptPartition} {bootMbr : Option (List UInt8)}
    (small : targetSectors < 2 ^ 32)
    (computed : computeInstallLayout rootSectors targetSectors esp bootMbr = .ok layout) :
    layout.Separate ∧ (layout.Usable <-> esp = none) := by
  cases esp with
  | none =>
    rcases computeBiosInstallLayout_ok computed with ⟨kind, rfl, first, boot, root⟩
    refine ⟨⟨?_, ?_⟩, iff_of_true (fun other => nomatch kind.symm.trans other) rfl⟩ <;>
      simp [partitions, tables, kind] <;> omega
  | some esp =>
    rcases computeUefiInstallLayout_ok computed with ⟨kind, rfl, first, boot, root⟩
    refine ⟨⟨?_, ?_⟩, iff_of_false (fun usable => ?_) nofun⟩
    · simp [partitions, tables, backupEntriesLba, backupHeaderLba, kind]
      omega
    · simp [partitions, tables, backupEntriesLba, backupHeaderLba, kind]
      omega
    · have clear := (usable kind).2 (layout.backupEntriesLba, 32)
      simp [tables, backupEntriesLba, lastUsable, firstUsable, kind] at clear
      omega

theorem uefi_layout_separate : Exists fun layout =>
    computeInstallLayout 1000 10000 (some ⟨efiSystemPartitionGuid, 64, 127⟩) none = .ok layout ∧
      layout.Separate := by
  have computed : computeInstallLayout 1000 10000 (some ⟨efiSystemPartitionGuid, 64, 127⟩) none =
    .ok ⟨.uefiGpt, 64, 64, 2048, 1000, 3081, 10000⟩ := rfl
  exact ⟨_, computed, (install_layout_usable_iff (by decide) computed).1⟩

/-- The backup of the table starts in the last usable sector. -/
theorem uefi_layout_not_usable : Exists fun layout =>
    computeInstallLayout 1000 10000 (some ⟨efiSystemPartitionGuid, 64, 127⟩) none = .ok layout ∧
      ¬ layout.Usable := by
  refine ⟨⟨.uefiGpt, 64, 64, 2048, 1000, 3081, 10000⟩, rfl, fun usable => ?_⟩
  have clear := (usable rfl).2 (9967, 32)
  simp [tables, backupEntriesLba, backupHeaderLba, lastUsable, firstUsable] at clear

open Action

/-!
## Block devices

The disks that are attached, as their drivers present them: so many sectors of 512 bytes, one
of which is asked for at a time.  A request to a device is for a block.  On most devices that is
a sector, but the blocks of an NVMe namespace have up to eight sectors, and its driver reads the
block around a sector and writes it back.  Any request may fail, and a failed write may leave
anything in its block.  Every request that reaches a device is kept in a list.
-/

inductive IdeDevice where
  | ide0Master
  | ide0Slave
  | ide1Master
  | ide1Slave
  deriving DecidableEq

inductive BlockDevice where
  | ide (device : IdeDevice)
  | sata (port : Fin 8)
  | nvme (controller : Fin 4)
  | usb (index : Fin 8)
  deriving DecidableEq

/-- What an NVMe controller says about its first namespace: the number of its blocks, and the
binary logarithm of their size. -/
structure Namespace where
  nsze : UInt64
  lbads : UInt8

def Namespace.sectorsPerBlock (space : Namespace) : Nat := 2 ^ space.lbads.toNat / 512

/-- The sectors that `init_controller` exposes, if it accepts the namespace. -/
def Namespace.exposedSectors (space : Namespace) : Option Nat :=
  if space.nsze = 0 ∨ 2 ^ 32 <= space.nsze.toNat then none
  else if space.lbads < 9 ∨ 12 < space.lbads then none
  else tryU32 (space.nsze.toNat * space.sectorsPerBlock)

/-- What a USB disk answers to the question for its capacity: the number of its blocks, and
their size. -/
structure Capacity where
  sectors : UInt32
  blockSize : UInt32

/-- What is attached, in the numbers that the devices report.  A disk that is not there has no
sectors. -/
structure Hardware where
  ideSectors : IdeDevice -> UInt32
  sataSectors : Fin 8 -> UInt32
  namespaces : Fin 4 -> Option Namespace
  capacities : Fin 8 -> Capacity
  sataPorts : List (Fin 8)
  nvmeControllers : List (Fin 4)
  usbIndices : List (Fin 8)

def Hardware.sectors (hardware : Hardware) : BlockDevice -> Nat
  | .ide device => (hardware.ideSectors device).toNat
  | .sata port => (hardware.sataSectors port).toNat
  | .nvme controller => ((hardware.namespaces controller).bind (·.exposedSectors)).getD 0
  | .usb index => (hardware.capacities index).sectors.toNat

def Hardware.sectorsPerBlock (hardware : Hardware) : BlockDevice -> Nat
  | .nvme controller => ((hardware.namespaces controller).map (·.sectorsPerBlock)).getD 1
  | _ => 1

/-- What a device does with one request. -/
inductive Answer where
  | done
  | failed (left : Nat -> Sector -> Sector -> Sector)

/-- A block of a device: its first sector, and how many there are. -/
structure Block where
  first : Nat
  sectors : Nat
  deriving DecidableEq

/-- Whether a sector is in a block. -/
def Block.Has (block : Block) (place : Nat) : Prop :=
  block.first <= place ∧ place < block.first + block.sectors

instance blockHasDecidable (block : Block) : DecidablePred block.Has :=
  fun place => inferInstanceAs (Decidable (_ <= place ∧ place < _))

/-- The block that holds a sector. -/
def Hardware.blockOf (hardware : Hardware) (device : BlockDevice) (lba : Nat) : Block where
  first := lba / hardware.sectorsPerBlock device * hardware.sectorsPerBlock device
  sectors := hardware.sectorsPerBlock device

/-- One request for a block. -/
structure Access where
  device : BlockDevice
  block : Block
  write : Bool
  deriving DecidableEq

inductive RootDiskLayout where
  | rawCoolFs
  | mbrCoolFs
  | gptCoolFs
  deriving DecidableEq

structure RootDisk where
  device : BlockDevice
  baseLba : Nat
  sectors : Nat
  layout : RootDiskLayout
  deriving DecidableEq

/-- The contents of the disks, the answers to the requests to come, the root disk once it
is known, and the requests so far. -/
structure Machine where
  contents : BlockDevice -> Nat -> Sector
  answers : Nat -> Answer
  time : Nat
  root : Option RootDisk
  accesses : List Access

/-- A call that gives a value or `false`. -/
abbrev Attempt := Action Machine Unit

section

variable {Failure : Type}

def ask : Action Machine Failure Answer := do
  let answer <- observe (fun machine => machine.answers machine.time)
  Action.modify (fun machine => { machine with time := machine.time + 1 })
  return answer

def touch (access : Access) : Action Machine Failure Unit :=
  Action.modify (fun machine => { machine with accesses := machine.accesses ++ [access] })

def store (device : BlockDevice) (block : Block) (data : Nat -> Sector) :
    Action Machine Failure Unit :=
  Action.modify (fun machine => { machine with
    contents := Function.update machine.contents device
      (fun place => if block.Has place then data place else machine.contents device place) })

/-- One request to read a block, from which a sector is taken. -/
def readOnce (device : BlockDevice) (block : Block) (lba : Nat) : Attempt Sector := do
  touch ⟨device, block, false⟩
  match <- ask with
  | .done => observe (fun machine => machine.contents device lba)
  | .failed _ => Action.fail ()

/-- What is read before a block of several sectors is written. -/
def readAround (device : BlockDevice) (block : Block) (lba : Nat) : Attempt Unit :=
  if 1 < block.sectors then do
    let _ <- readOnce device block lba
    return ()
  else return ()

/-- One request to write a block, with a sector of it replaced. -/
def writeOnce (device : BlockDevice) (block : Block) (lba : Nat) (data : Sector) :
    Attempt Unit := do
  readAround device block lba
  let old <- observe (fun machine => machine.contents device)
  touch ⟨device, block, true⟩
  match <- ask with
  | .done => store device block (Function.update old lba data)
  | .failed left => do
    store device block (fun place => left place (old place) (Function.update old lba data place))
    Action.fail ()

/-- The loop of the ATA driver over its attempts. -/
def retry {Value : Type} (body : Attempt Value) : Nat -> Attempt Value
  | 0 => Action.fail ()
  | attempts + 1 => do
    match <- Action.attempt body with
    | .ok value => return value
    | .error _ => retry body attempts

end

@[simp] abbrev ataRetries : Nat := 3

/-- The sector that the driver names to the device: the ATA driver selects it with 28 bits. -/
def address : BlockDevice -> Nat -> Nat
  | .ide _, lba => lba % 2 ^ 28
  | _, lba => lba

section

variable (hardware : Hardware) {Failure : Type}

/-- The checks that the drivers other than the ATA driver make. -/
def inRange : BlockDevice -> Nat -> Bool
  | .ide _, _ => true
  | .usb index, lba =>
    (hardware.capacities index).blockSize == 512 && decide (lba < hardware.sectors (.usb index))
  | device, lba => decide (lba < hardware.sectors device)

structure BlockDeviceInfo where
  present : Bool
  sectors : Nat

def infoOf (sectors : Nat) : BlockDeviceInfo := ⟨decide (0 < sectors), sectors⟩

/-- The ATA driver asks the disk each time; the other drivers know. -/
def deviceInfo : BlockDevice -> Action Machine Failure BlockDeviceInfo
  | .ide device => do
    match <- ask with
    | .done => return infoOf (hardware.sectors (.ide device))
    | .failed _ => return infoOf 0
  | device => return infoOf (hardware.sectors device)

def attemptsFor : BlockDevice -> Nat
  | .ide _ => ataRetries
  | _ => 1

def readSectorFrom (device : BlockDevice) (lba : Nat) : Attempt Sector :=
  if inRange hardware device lba then
    retry (readOnce device (hardware.blockOf device (address device lba)) (address device lba))
      (attemptsFor device)
  else Action.fail ()

def writeSectorTo (device : BlockDevice) (lba : Nat) (data : Sector) : Attempt Unit :=
  if inRange hardware device lba then
    retry (writeOnce device (hardware.blockOf device (address device lba)) (address device lba) data)
      (attemptsFor device)
  else Action.fail ()

/-- Whether a driver has the disk to which a command goes. -/
def attached : BlockDevice -> Bool
  | .ide _ => true
  | device => decide (0 < hardware.sectors device)

def flushDevice (device : BlockDevice) : Attempt Unit :=
  if attached hardware device then do
    match <- ask with
    | .done => return ()
    | .failed _ => Action.fail ()
  else Action.fail ()

end

/-!
## The root disk

The disk and the partition that hold the root filesystem are looked for once, first as a
whole disk, then in a master boot record, then in a GUID partition table.  Reads and writes
of the filesystem are relative to that partition.
-/

variable (hardware : Hardware) {Failure : Type}

def rootPriorityDevices : List BlockDevice :=
  [.ide .ide0Slave, .ide .ide0Master] ++ hardware.usbIndices.map .usb ++
    hardware.nvmeControllers.map .nvme ++ hardware.sataPorts.map .sata ++
    [.ide .ide1Master, .ide .ide1Slave]

/-- The bytes of one entry of the partition table, in the sector that holds it. -/
def entryBytes (header : GptHeader) (idx : Nat) (sector : Sector) : List UInt8 :=
  slice (bytesOf sector) (idx % max (512 / header.entrySize) 1 * header.entrySize) header.entrySize

def entrySector (header : GptHeader) (idx : Nat) : Option Nat :=
  checkedAdd header.entriesLba (idx / max (512 / header.entrySize) 1)

/-- The loop over the entries. -/
def scanEntries (device : BlockDevice) (header : GptHeader) (typeGuid : GptGuid) :
    List Nat -> Attempt GptPartition
  | [] => Action.fail ()
  | idx :: rest => do
    let sectorLba <- Action.okOr (entrySector header idx) ()
    let sector <- readSectorFrom hardware device sectorLba
    match parseGptPartitionEntry (entryBytes header idx sector) with
    | none => scanEntries device header typeGuid rest
    | some partition =>
      if partition.typeGuid = typeGuid then return partition
      else scanEntries device header typeGuid rest

def findGptPartition (device : BlockDevice) (diskSectors : Nat) (typeGuid : GptGuid) :
    Attempt GptPartition := do
  let mbr <- readSectorFrom hardware device 0
  if !hasProtectiveMbr (bytesOf mbr) then Action.fail ()
  else do
    let headerSector <- readSectorFrom hardware device gptPrimaryHeaderLba
    let header <- Action.okOr (parseGptHeader (bytesOf headerSector) diskSectors) ()
    scanEntries hardware device header typeGuid (List.range (min header.entryCount gptEntryCount))

/-- The number of sectors of a disk that is there. -/
def presentSectors (device : BlockDevice) : Attempt Nat := do
  let info <- deviceInfo hardware device
  if info.present then return info.sectors else Action.fail ()

/-- The partition, if it lies on the disk and starts with the magic of the filesystem. -/
def probePartition (device : BlockDevice) (diskSectors startingLba sectors endLba : Nat)
    (layout : RootDiskLayout) : Attempt RootDisk :=
  if diskSectors <= startingLba || diskSectors < endLba then Action.fail ()
  else do
    let first <- readSectorFrom hardware device startingLba
    if hasCoolfsMagic (bytesOf first) then return ⟨device, startingLba, sectors, layout⟩
    else Action.fail ()

def detectRaw (device : BlockDevice) : Attempt RootDisk := do
  let diskSectors <- presentSectors hardware device
  let first <- readSectorFrom hardware device 0
  if hasCoolfsMagic (bytesOf first) then return ⟨device, 0, diskSectors, .rawCoolFs⟩
  else Action.fail ()

def detectMbr (device : BlockDevice) : Attempt RootDisk := do
  let diskSectors <- presentSectors hardware device
  let mbr <- readSectorFrom hardware device 0
  let partitions <- Action.okOr (parseMbr (bytesOf mbr)) ()
  let partition <- Action.okOr (findPartition partitions coolfsPartitionType) ()
  let endLba <- Action.okOr partition.endLba ()
  probePartition hardware device diskSectors partition.startingLba partition.sectors endLba
    .mbrCoolFs

def detectGpt (device : BlockDevice) : Attempt RootDisk := do
  let diskSectors <- presentSectors hardware device
  let partition <- findGptPartition hardware device diskSectors coolfsGptPartitionGuid
  let partitionSectors <- Action.okOr partition.sectors ()
  let endLba <- Action.okOr partition.endLba ()
  probePartition hardware device diskSectors partition.startingLba partitionSectors endLba
    .gptCoolFs

def detectRootDisk : Action Machine Failure (Option RootDisk) := do
  match <- firstOf (detectRaw hardware) (rootPriorityDevices hardware) with
  | some root => return some root
  | none =>
    match <- firstOf (detectMbr hardware) (rootPriorityDevices hardware) with
    | some root => return some root
    | none => firstOf (detectGpt hardware) (rootPriorityDevices hardware)

def rootDisk : Action Machine Failure (Option RootDisk) := do
  match <- observe Machine.root with
  | some root => return some root
  | none => do
    let found <- detectRootDisk hardware
    Action.modify (fun machine => { machine with root := found })
    return found

/-- The sector of the device that a sector of the root filesystem is. -/
def rootSector (root : RootDisk) (lba : Nat) : Option Nat :=
  if root.sectors <= lba then none else checkedAdd root.baseLba lba

/-- What both calls begin with: the disk, and the sector on it. -/
def onRoot {Value : Type} (lba : Nat) (body : RootDisk -> Nat -> Attempt Value) :
    Attempt Value := do
  let known <- rootDisk hardware
  let root <- Action.okOr known ()
  let absLba <- Action.okOr (rootSector root lba) ()
  body root absLba

def readSector (lba : Nat) : Attempt Sector :=
  onRoot hardware lba (fun root absLba => readSectorFrom hardware root.device absLba)

def writeSector (lba : Nat) (data : Sector) : Attempt Unit :=
  onRoot hardware lba (fun root absLba => do
    writeSectorTo hardware root.device absLba data
    flushDevice hardware root.device)

end CoolOs.Storage
