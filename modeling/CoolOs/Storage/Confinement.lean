import CoolOs.Storage.Layout

namespace CoolOs.Storage

open Actions Action Function List Option
open CoolFs (Sector)

/-!
# Root filesystem I/O stays inside its partition

Looking for the root disk only reads.  A root disk that was found is a partition of a disk, and
lies on it; every read or write of the filesystem goes to the one block of the disk that holds
the sector.  Where the blocks have several sectors this block may reach out of the partition, and
then a write that fails may damage what is next to it.  A write that succeeds changes one sector.
-/

/-- The machine looked at its disks and changed nothing. -/
structure Looks (before after : Machine) : Prop where
  contents : after.contents = before.contents
  root : after.root = before.root
  reads : Exists fun own => after.accesses = before.accesses ++ own ∧
    ∀ access ∈ own, access.write = false

instance : Chain Looks where
  refl machine := ⟨rfl, rfl, [], (append_nil _).symm, nofun⟩
  trans first second := by
    rcases first.reads with ⟨early, shown, harmless⟩
    rcases second.reads with ⟨late, more, quiet⟩
    refine ⟨second.contents.trans first.contents, second.root.trans first.root, early ++ late,
      ?_, ?_⟩
    · rw [more, shown, append_assoc]
    · intro access listed
      exact (mem_append.mp listed).elim (harmless access) (quiet access)

/-- The machine made requests for one block, and changed nothing else. -/
structure Uses (device : BlockDevice) (block : Block) (write : Bool) (before after : Machine) :
    Prop where
  root : after.root = before.root
  elsewhere : forall other place, ¬ (write = true ∧ other = device ∧ block.Has place) ->
    after.contents other place = before.contents other place
  own : Exists fun own => after.accesses = before.accesses ++ own ∧
    ∀ access ∈ own, access.device = device ∧ access.block = block ∧
      (access.write = true -> write = true)

instance (device : BlockDevice) (block : Block) (write : Bool) :
    Action.Chain (Uses device block write) where
  refl machine := ⟨rfl, fun _ _ _ => rfl, [], (append_nil _).symm, nofun⟩
  trans first second := by
    rcases first.own with ⟨early, shown, same⟩
    rcases second.own with ⟨late, more, alike⟩
    refine ⟨second.root.trans first.root, ?_, early ++ late, ?_, ?_⟩
    · intro other place away
      rw [second.elsewhere other place away, first.elsewhere other place away]
    · rw [more, shown, append_assoc]
    · intro access listed
      exact (mem_append.mp listed).elim (same access) (alike access)

section

variable {Failure Value : Type} {device : BlockDevice} {block : Block} {lba : Nat} {write : Bool}

theorem ask_uses : Keeps (Uses device block write) (ask : Action Machine Failure _) :=
  fun _ => ⟨rfl, fun _ _ _ => rfl, [], (append_nil _).symm, nofun⟩

theorem touch_uses {kind : Bool} (allowed : kind = true -> write = true) :
    Keeps (Uses device block write) (touch ⟨device, block, kind⟩ : Action Machine Failure _) :=
  fun _ => ⟨rfl, fun _ _ _ => rfl, [_], rfl, fun _ listed =>
    mem_singleton.mp listed ▸ ⟨rfl, rfl, allowed⟩⟩

theorem store_uses (data : Nat -> Sector) :
    Keeps (Uses device block true) (store device block data : Action Machine Failure _) := by
  intro machine
  refine ⟨rfl, fun other place away => ?_, [], (append_nil _).symm, nofun⟩
  change Function.update machine.contents device _ other place = _
  by_cases here : other = device
  · subst here
    rw [update_self, if_neg fun inside => away ⟨rfl, rfl, inside⟩]
  · rw [update_of_ne here]

theorem readOnce_uses : Keeps (Uses device block write) (readOnce device block lba) := by
  refine (touch_uses fun wrong => absurd wrong Bool.false_ne_true).bind fun _ => ?_
  refine ask_uses.bind fun answer => ?_
  cases answer with
  | done => exact keeps_observe _
  | failed => exact keeps_fail ()

theorem readAround_uses : Keeps (Uses device block write) (readAround device block lba) := by
  unfold readAround
  split
  · exact readOnce_uses.bind fun _ => keeps_pure ()
  · exact keeps_pure ()

theorem writeOnce_uses (data : Sector) :
    Keeps (Uses device block true) (writeOnce device block lba data) := by
  refine readAround_uses.bind fun _ => (keeps_observe _).bind fun old =>
    (touch_uses fun _ => rfl).bind fun _ => ask_uses.bind fun answer => ?_
  cases answer with
  | done => exact store_uses _
  | failed left => exact (store_uses _).bind fun _ => keeps_fail ()

/-- A block is written back as it was, except for the sector. -/
theorem writeOnce_ok {data : Sector} {machine after : Machine}
    (ran : writeOnce device block lba data machine = (.ok (), after)) {other : BlockDevice}
    {place : Nat} (away : ¬ (other = device ∧ place = lba)) :
    after.contents other place = machine.contents other place := by
  rcases bind_ok ran with ⟨_, around, read, ran⟩
  have quiet : Uses device block false machine around := readAround_uses.ran read
  have same : around.contents = machine.contents :=
    funext fun other => funext fun place => quiet.elsewhere other place nofun
  rcases bind_ok ran with ⟨old, _, seen, ran⟩
  cases seen
  rcases bind_ok ran with ⟨_, _, touched, ran⟩
  cases touched
  rcases bind_ok ran with ⟨answer, _, asked, stored⟩
  cases asked
  dsimp only at stored
  cases answered : around.answers around.time with
  | failed left =>
    rw [answered] at stored
    cases stored
  | done =>
    rw [answered] at stored
    cases stored
    change Function.update around.contents device _ other place = _
    by_cases here : other = device
    · subst here
      rw [update_self, update_of_ne fun here => away ⟨rfl, here⟩, ite_self, same]
    · rw [update_of_ne here, same]

theorem retry_uses {body : Attempt Value} (keeps : Keeps (Uses device block write) body)
    (attempts : Nat) : Keeps (Uses device block write) (retry body attempts) := by
  induction attempts with
  | zero => exact keeps_fail ()
  | succ attempts ih =>
    refine .bind keeps.attempt fun outcome => ?_
    cases outcome with
    | ok value => exact keeps_pure value
    | error => exact ih

theorem retry_one_ok {body : Attempt Value} {value : Value} {machine after : Machine}
    (ran : retry body 1 machine = (.ok value, after)) : body machine = (.ok value, after) := by
  rcases bind_ok ran with ⟨outcome, _, tried, ended⟩
  cases tried
  cases given : (body machine).1 with
  | error =>
    rw [given] at ended
    cases ended
  | ok value =>
    rw [given] at ended
    cases ended
    exact Prod.ext given rfl

variable (hardware : Hardware)

theorem readSectorFrom_uses (device : BlockDevice) (lba : Nat) :
    Keeps (Uses device (hardware.blockOf device (address device lba)) false)
      (readSectorFrom hardware device lba) := by
  unfold readSectorFrom
  split
  · exact retry_uses readOnce_uses _
  · exact keeps_fail ()

theorem writeSectorTo_uses (device : BlockDevice) (lba : Nat) (data : Sector) :
    Keeps (Uses device (hardware.blockOf device (address device lba)) true)
      (writeSectorTo hardware device lba data) := by
  unfold writeSectorTo
  split
  · exact retry_uses (writeOnce_uses data) _
  · exact keeps_fail ()

/-- On a device that is not an NVMe device a block is a sector. -/
theorem blockOf_has_one (one : hardware.sectorsPerBlock device = 1) {place : Nat} :
    (hardware.blockOf device lba).Has place <-> place = lba := by
  simp only [Block.Has, Hardware.blockOf, one, Nat.div_one, Nat.mul_one]
  omega

theorem writeSectorTo_ok {hardware : Hardware} {data : Sector} {machine after : Machine}
    (ran : writeSectorTo hardware device lba data machine = (.ok (), after)) {other : BlockDevice}
    {place : Nat} (away : ¬ (other = device ∧ place = address device lba)) :
    after.contents other place = machine.contents other place := by
  have small (one : hardware.sectorsPerBlock device = 1) :
      after.contents other place = machine.contents other place :=
    ((writeSectorTo_uses hardware device lba data).ran ran).elsewhere other place fun inside =>
      away ⟨inside.2.1, (blockOf_has_one hardware one).mp inside.2.2⟩
  cases device with
  | ide => exact small rfl
  | sata => exact small rfl
  | usb => exact small rfl
  | nvme controller =>
    unfold writeSectorTo at ran
    split at ran
    · exact writeOnce_ok (retry_one_ok ran) away
    · cases ran

theorem flushDevice_uses (device : BlockDevice) :
    Keeps (Uses device block write) (flushDevice hardware device) := by
  unfold flushDevice
  split
  · refine ask_uses.bind fun answer => ?_
    cases answer with
    | done => exact keeps_pure ()
    | failed => exact keeps_fail ()
  · exact keeps_fail ()

end

/-- A root disk is a whole disk, or a partition named by the table on a disk, that lies on
the disk and starts with the magic. -/
inductive Chosen (hardware : Hardware) (contents : BlockDevice -> Nat -> Sector) : RootDisk -> Prop
  | raw {device : BlockDevice} (magic : hasCoolfsMagic (bytesOf (contents device 0)) = true) :
      Chosen hardware contents ⟨device, 0, hardware.sectors device, .rawCoolFs⟩
  | mbr {device : BlockDevice} {partitions : List MbrPartition} {partition : MbrPartition}
      (table : parseMbr (bytesOf (contents device 0)) = some partitions)
      (listed : partition ∈ partitions) (type : partition.sys = coolfsPartitionType)
      (inside : partition.startingLba + partition.sectors <= hardware.sectors device)
      (magic : hasCoolfsMagic (bytesOf (contents device partition.startingLba)) = true) :
      Chosen hardware contents ⟨device, partition.startingLba, partition.sectors, .mbrCoolFs⟩
  | gpt {device : BlockDevice} {header : GptHeader} {idx lba : Nat} {partition : GptPartition}
      (table : parseGptHeader (bytesOf (contents device gptPrimaryHeaderLba))
        (hardware.sectors device) = some header)
      (listed : idx < header.entryCount) (place : entrySector header idx = some lba)
      (entry : parseGptPartitionEntry
        (entryBytes header idx (contents device (address device lba))) = some partition)
      (type : partition.typeGuid = coolfsGptPartitionGuid)
      (ordered : partition.startingLba <= partition.endingLba)
      (inside : partition.endingLba + 1 <= hardware.sectors device)
      (magic : hasCoolfsMagic (bytesOf (contents device partition.startingLba)) = true) :
      Chosen hardware contents
        ⟨device, partition.startingLba, partition.endingLba - partition.startingLba + 1, .gptCoolFs⟩

/-- The partition lies on its disk. -/
def RootDisk.Fits (hardware : Hardware) (root : RootDisk) : Prop :=
  root.baseLba + root.sectors <= hardware.sectors root.device

section

variable {Failure Other Value Result : Type} {hardware : Hardware} {device : BlockDevice}
  {contents : BlockDevice -> Nat -> Sector} {found : Value -> Prop} {wanted : Result -> Prop}

variable {action : Action Machine Failure Value}

theorem Chosen.fits {root : RootDisk}
    (chosen : Chosen hardware contents root) : root.Fits hardware := by
  cases chosen with
  | raw => exact Nat.le_of_eq (Nat.zero_add _)
  | mbr _ _ _ inside _ => exact inside
  | @gpt device header idx lba partition _ _ _ _ _ ordered inside _ =>
    change partition.startingLba + (partition.endingLba - partition.startingLba + 1) <=
      hardware.sectors device
    omega

theorem address_zero : address device 0 = 0 := by
  cases device <;> rfl

/-- No IDE disk says that it has more sectors than 28 bits can address. -/
def Addressable (hardware : Hardware) : Prop :=
  forall device, (hardware.ideSectors device).toNat <= 2 ^ 28

instance addressableDecidable (hardware : Hardware) : Decidable (Addressable hardware) :=
  decidable_of_iff (∀ device ∈ [IdeDevice.ide0Master, .ide0Slave, .ide1Master, .ide1Slave],
      (hardware.ideSectors device).toNat <= 2 ^ 28)
    ⟨fun all device => all device (by cases device <;> decide), fun all device _ => all device⟩

/-- No sector of a disk is out of reach of its driver. -/
theorem address_of_lt (addressable : Addressable hardware) {lba : Nat}
    (inside : lba < hardware.sectors device) : address device lba = lba := by
  cases device with
  | ide device => exact Nat.mod_eq_of_lt (Nat.lt_of_lt_of_le inside (addressable device))
  | sata => rfl
  | nvme => rfl
  | usb => rfl

/-- On these disks the action only looks, and what it gives is what was to be found. -/
def Finds (contents : BlockDevice -> Nat -> Sector) (found : Value -> Prop)
    (action : Action Machine Failure Value) : Prop :=
  forall machine, machine.contents = contents -> Looks machine (action machine).2 ∧
    forall value after, action machine = (.ok value, after) -> found value

theorem Finds.bind {next : Value -> Action Machine Failure Result}
    (first : Finds contents found action)
    (rest : ∀ value, found value -> Finds contents wanted (next value)) :
    Finds contents wanted (action >>= next) := by
  intro machine same
  rcases first machine same with ⟨looks, fits⟩
  rw [run_bind]
  split
  · next value between ran =>
    rw [ran] at looks
    rcases rest value (fits _ _ ran) between (looks.contents.trans same) with ⟨more, given⟩
    exact ⟨Action.Chain.trans looks more, given⟩
  · next ran =>
    rw [ran] at looks
    exact ⟨looks, nofun⟩

theorem Finds.mono {more : Value -> Prop} (finds : Finds contents found action)
    (weaker : ∀ value, found value -> more value) :
    Finds contents more action := fun machine same =>
  ⟨(finds machine same).1, fun value after ran =>
    weaker value ((finds machine same).2 value after ran)⟩

theorem finds_ask : Finds contents (fun _ => True) (ask : Action Machine Failure _) :=
  fun _ _ => ⟨⟨rfl, rfl, [], (append_nil _).symm, nofun⟩, fun _ _ _ => trivial⟩

theorem finds_touch (block : Block) :
    Finds contents (fun _ => True) (touch ⟨device, block, false⟩ : Action Machine Failure _) :=
  fun _ _ => ⟨⟨rfl, rfl, [_], rfl, fun _ listed => mem_singleton.mp listed ▸ rfl⟩,
    fun _ _ _ => trivial⟩

theorem finds_pure {value : Value} (fits : found value) :
    Finds contents found (pure value : Action Machine Failure _) := by
  refine fun machine _ => ⟨Action.Chain.refl machine, fun _ _ ran => ?_⟩
  cases ran
  exact fits

theorem finds_fail (failure : Failure) :
    Finds contents found (fail failure : Action Machine Failure Value) :=
  fun machine _ => ⟨Action.Chain.refl machine, nofun⟩

theorem finds_okOr (known : Option Value) (failure : Failure) :
    Finds contents (fun value => known = some value) (Action.okOr known failure) :=
  fun machine _ => ⟨Action.Chain.refl machine, fun _ _ ran => (okOr_ok ran).1⟩

theorem Finds.attempt (finds : Finds contents found action) :
    Finds contents (fun outcome => ∀ value, outcome = .ok value -> found value)
      (Action.attempt action : Action Machine Other _) := by
  refine fun machine same => ⟨(finds machine same).1, fun outcome after ran value ended => ?_⟩
  cases ran
  exact (finds machine same).2 value _ (Prod.ext ended rfl)

theorem Finds.firstOf {Item : Type} {body : Item -> Action Machine Failure Value}
    (each : ∀ item, Finds contents found (body item)) (items : List Item) :
    Finds contents (fun given => ∀ value, given = some value -> found value)
      (Action.firstOf body items : Action Machine Other _) := by
  induction items with
  | nil => exact finds_pure nofun
  | cons item rest ih =>
    refine Finds.bind (each item).attempt fun outcome fits => ?_
    cases outcome with
    | ok value => exact finds_pure fun _ same => fits _ (congrArg _ (some.inj same))
    | error => exact ih

theorem Finds.retry {body : Attempt Value} (finds : Finds contents found body) (attempts : Nat) :
    Finds contents found (Storage.retry body attempts) := by
  induction attempts with
  | zero => exact finds_fail ()
  | succ attempts ih =>
    refine Finds.bind finds.attempt fun outcome fits => ?_
    cases outcome with
    | ok value => exact finds_pure (fits value rfl)
    | error => exact ih

variable (hardware) (device)

theorem readSectorFrom_finds (lba : Nat) :
    Finds contents (fun sector => sector = contents device (address device lba))
      (readSectorFrom hardware device lba) := by
  unfold readSectorFrom
  split
  · refine Finds.retry ?_ _
    refine (finds_touch _).bind fun _ _ => finds_ask.bind fun answer _ => ?_
    cases answer with
    | done =>
      refine fun machine same => ⟨Action.Chain.refl machine, fun sector _ ran => ?_⟩
      cases ran
      rw [<- same]
    | failed => exact finds_fail ()
  · exact finds_fail ()

theorem deviceInfo_finds :
    Finds contents (fun info => info = infoOf (hardware.sectors device) ∨ info = infoOf 0)
      (deviceInfo hardware device : Action Machine Failure _) := by
  cases device with
  | ide device =>
    refine finds_ask.bind fun answer _ => ?_
    cases answer with
    | done => exact finds_pure (.inl rfl)
    | failed => exact finds_pure (.inr rfl)
  | sata => exact finds_pure (.inl rfl)
  | nvme => exact finds_pure (.inl rfl)
  | usb => exact finds_pure (.inl rfl)

theorem presentSectors_finds : Finds contents (fun sectors => sectors = hardware.sectors device)
      (presentSectors hardware device) := by
  refine (deviceInfo_finds hardware device).bind fun info known => ?_
  rcases known with rfl | rfl
  · split
    · exact finds_pure rfl
    · exact finds_fail ()
  · exact finds_fail ()

variable {hardware} {device}

/-! ## What was found -/

theorem probePartition_finds (addressable : Addressable hardware)
    {startingLba sectors endLba : Nat} {layout : RootDiskLayout}
    {found : RootDisk -> Prop}
    (chosen : endLba <= hardware.sectors device ->
      hasCoolfsMagic (bytesOf (contents device startingLba)) = true ->
      found ⟨device, startingLba, sectors, layout⟩) :
    Finds contents found (probePartition hardware device (hardware.sectors device) startingLba
      sectors endLba layout) := by
  unfold probePartition
  split
  · exact finds_fail ()
  next inside =>
    rw [Bool.or_eq_true, decide_eq_true_eq, decide_eq_true_eq, not_or, Nat.not_le,
      Nat.not_lt] at inside
    refine (readSectorFrom_finds hardware device _).bind fun first same => ?_
    rw [address_of_lt addressable inside.1] at same
    split
    · next magic => exact finds_pure (chosen inside.2 (same ▸ magic))
    · exact finds_fail ()

variable (hardware) (device)

theorem detectRaw_finds :
    Finds contents (Chosen hardware contents) (detectRaw hardware device) := by
  refine (presentSectors_finds hardware device).bind fun diskSectors size => ?_
  refine (readSectorFrom_finds hardware device 0).bind fun first same => ?_
  rw [address_zero] at same
  split
  · next magic => exact size ▸ finds_pure (.raw (same ▸ magic))
  · exact finds_fail ()

theorem findPartition_some {partitions : List MbrPartition} {sys : UInt8}
    {partition : MbrPartition} (found : findPartition partitions sys = some partition) :
    partition ∈ partitions ∧ partition.sys = sys ∧ partition.isUnused = false := by
  have fits := find?_some found
  rw [Bool.and_eq_true, beq_iff_eq, Bool.not_eq_true'] at fits
  exact ⟨mem_of_find?_eq_some found, fits.1, fits.2⟩

theorem detectMbr_finds (addressable : Addressable hardware) :
    Finds contents (Chosen hardware contents) (detectMbr hardware device) := by
  refine (presentSectors_finds hardware device).bind fun diskSectors size => ?_
  refine (readSectorFrom_finds hardware device 0).bind fun mbr same => ?_
  refine (finds_okOr _ ()).bind fun partitions table => ?_
  refine (finds_okOr _ ()).bind fun partition chosen => ?_
  refine (finds_okOr _ ()).bind fun endLba limit => ?_
  rw [same, address_zero] at table
  rcases findPartition_some chosen with ⟨listed, type, used⟩
  rw [MbrPartition.endLba, used] at limit
  rcases checkedAdd_eq_some limit with ⟨rfl, _⟩
  rw [size]
  exact probePartition_finds addressable fun inside magic => .mbr table listed type inside magic

theorem scanEntries_finds (header : GptHeader) (typeGuid : GptGuid) (indices : List Nat) :
    Finds contents (fun partition => ∃ idx lba, idx ∈ indices ∧
        entrySector header idx = some lba ∧ parseGptPartitionEntry
          (entryBytes header idx (contents device (address device lba))) = some partition ∧
        partition.typeGuid = typeGuid) (scanEntries hardware device header typeGuid indices) := by
  induction indices with
  | nil => exact finds_fail ()
  | cons idx rest ih =>
    refine (finds_okOr _ ()).bind fun lba place => ?_
    refine (readSectorFrom_finds hardware device lba).bind fun sector same => ?_
    have later := ih.mono fun partition found => found.imp fun other => Exists.imp fun lba found =>
      And.intro (mem_cons_of_mem idx found.1) found.2
    split
    · exact later
    · next entry parsed =>
      split
      · next type => exact finds_pure ⟨idx, lba, mem_cons_self, place, same ▸ parsed, type⟩
      · exact later

theorem parseGptPartitionEntry_ordered {entry : List UInt8} {partition : GptPartition}
    (parsed : parseGptPartitionEntry entry = some partition) :
    partition.startingLba <= partition.endingLba := by
  unfold parseGptPartitionEntry at parsed
  split at parsed
  · cases parsed
  dsimp only at parsed
  split at parsed
  · cases parsed
  rcases bind_eq_some_iff.mp parsed with ⟨startingLba, _, parsed⟩
  rcases bind_eq_some_iff.mp parsed with ⟨endingLba, _, parsed⟩
  split at parsed
  · cases parsed
  · next ordered =>
      cases parsed
      rw [Bool.or_eq_true, decide_eq_true_eq, not_or, Nat.not_lt] at ordered
      exact ordered.2

theorem detectGpt_finds (addressable : Addressable hardware) :
    Finds contents (Chosen hardware contents) (detectGpt hardware device) := by
  refine (presentSectors_finds hardware device).bind fun diskSectors size => ?_
  rw [size]
  -- the scan of the table leads to the partition
  have scanned : Finds contents (fun partition => ∀ sectors endLba,
      partition.sectors = some sectors -> partition.endLba = some endLba ->
      Finds contents (Chosen hardware contents) (probePartition hardware device
        (hardware.sectors device) partition.startingLba sectors endLba .gptCoolFs))
      (findGptPartition hardware device (hardware.sectors device) coolfsGptPartitionGuid) := by
    refine (readSectorFrom_finds hardware device 0).bind fun mbr _ => ?_
    split
    · exact finds_fail ()
    refine (readSectorFrom_finds hardware device _).bind fun headerSector same => ?_
    refine (finds_okOr _ ()).bind fun header table => ?_
    have one : address device gptPrimaryHeaderLba = gptPrimaryHeaderLba := by cases device <;> rfl
    rw [same, one] at table
    refine (scanEntries_finds hardware device header _ _).mono ?_
    rintro partition ⟨idx, lba, listed, place, entry, type⟩ sectors endLba count limit
    rcases checkedAdd_eq_some limit with ⟨rfl, _⟩
    rcases bind_eq_some_iff.mp count with ⟨difference, apart, whole⟩
    rcases checkedAdd_eq_some whole with ⟨rfl, _⟩
    rcases checkedSub_eq_some apart with ⟨_, rfl⟩
    have few : idx < header.entryCount :=
      Nat.lt_of_lt_of_le (mem_range.mp listed) (Nat.min_le_left _ _)
    exact probePartition_finds addressable fun inside magic =>
      .gpt table few place entry type (parseGptPartitionEntry_ordered entry) inside magic
  refine scanned.bind fun partition probed => ?_
  refine (finds_okOr _ ()).bind fun partitionSectors count => ?_
  refine (finds_okOr _ ()).bind fun endLba limit => ?_
  exact probed _ _ count limit

/-- What is found is chosen from what is on the disks. -/
theorem detectRootDisk_finds (addressable : Addressable hardware) :
    Finds contents (fun found => ∀ root, found = some root -> Chosen hardware contents root)
      (detectRootDisk hardware : Action Machine Failure _) := by
  refine .bind (.firstOf (fun device => detectRaw_finds hardware device) _) fun raw known => ?_
  cases raw with
  | some root => exact finds_pure known
  | none =>
    refine .bind (.firstOf (fun device => detectMbr_finds hardware device addressable) _) ?_
    intro mbr known
    cases mbr with
    | some root => exact finds_pure known
    | none => exact Finds.firstOf (fun device => detectGpt_finds hardware device addressable) _

end

inductive RootCall where
  | read (lba : Nat)
  | write (lba : Nat) (data : Sector)

def RootCall.writes : RootCall -> Bool
  | .read _ => false
  | .write _ _ => true

section

variable (hardware : Hardware)

/-- Whether the call succeeds, and the machine after it. -/
def perform (machine : Machine) : RootCall -> Bool × Machine
  | .read lba => ((readSector hardware lba machine).1.toBool, (readSector hardware lba machine).2)
  | .write lba data =>
    ((writeSector hardware lba data machine).1.toBool, (writeSector hardware lba data machine).2)

/-- One call, with the disks and their answers as it finds them. -/
structure Turn where
  call : RootCall
  contents : BlockDevice -> Nat -> Sector
  answers : Nat -> Answer

def Turn.before (turn : Turn) (root : Option RootDisk) : Machine where
  contents := turn.contents
  answers := turn.answers
  time := 0
  root := root
  accesses := []

/-- The root disk that is known after a sequence of calls. -/
def rootAfter (turns : List Turn) : Option RootDisk :=
  turns.foldl (fun root turn => (perform hardware (turn.before root) turn.call).2.root) none

end

variable {hardware : Hardware}

/-- The root disk that is known was chosen from what was on the disks at some time. -/
def Known (hardware : Hardware) (known : Option RootDisk) : Prop :=
  forall root, known = some root -> Exists fun contents => Chosen hardware contents root

theorem detectRootDisk_sure :
    Action.Sure fun Failure => (detectRootDisk hardware : Action Machine Failure _) := by
  refine .bind (sure_firstOf _ _) fun raw => ?_
  cases raw with
  | some => exact sure_pure _
  | none =>
    refine .bind (sure_firstOf _ _) fun mbr => ?_
    cases mbr with
    | some => exact sure_pure _
    | none => exact sure_firstOf _ _

theorem rootDisk_spec (addressable : Addressable hardware) {machine : Machine}
    (known : Known hardware machine.root) :
    ∃ after, (∀ Failure, (rootDisk hardware : Action Machine Failure _) machine =
        (.ok after.root, after)) ∧
      Known hardware after.root ∧ after.contents = machine.contents ∧
      ∃ own, after.accesses = machine.accesses ++ own ∧
        ∀ access ∈ own, access.write = false := by
  cases cached : machine.root with
  | some root =>
    refine ⟨machine, fun Failure => ?_, known, rfl, [], (append_nil _).symm, nofun⟩
    unfold rootDisk
    rw [run_bind_ok (run_observe _), cached]
    rfl
  | none =>
    rcases @detectRootDisk_sure hardware machine with ⟨found, between, ran⟩
    have finds := @detectRootDisk_finds Unit hardware _ addressable machine rfl
    have ended := ran Unit
    dsimp only at ended
    rw [ended] at finds
    have looks := finds.1
    refine ⟨{ between with root := found }, fun Failure => ?_, ?_, looks.contents, looks.reads⟩
    · unfold rootDisk
      rw [run_bind_ok (run_observe _), cached]
      exact run_bind_ok (ran Failure) _
    · intro root same
      exact ⟨_, finds.2 _ _ rfl root same⟩

/-- What a call does once the root disk is known: nothing, and it fails, or requests for the
block of one sector of the partition.  What it writes stays in the block, and if it succeeds, in
the sector. -/
def Confined (hardware : Hardware) (write : Bool) (before : Machine) (succeeds : Bool)
    (after : Machine) : Prop :=
  Exists fun own => after.accesses = before.accesses ++ own ∧
    (own = [] ∧ succeeds = false ∧ after.contents = before.contents ∨
      ∃ root lba, before.root = some root ∧
        root.baseLba <= lba ∧ lba < root.baseLba + root.sectors ∧
        (∀ place, (hardware.blockOf root.device lba).Has place ->
          place < hardware.sectors root.device) ∧
        (∀ access ∈ own, access.device = root.device ∧
          access.block = hardware.blockOf root.device lba ∧ (access.write = true -> write = true)) ∧
        forall device place, ¬ (write = true ∧ device = root.device ∧
            if succeeds then place = lba else (hardware.blockOf root.device lba).Has place) ->
          after.contents device place = before.contents device place)

/-- A device has a whole number of blocks, and all its sectors have 32-bit numbers. -/
theorem Hardware.whole (hardware : Hardware) (device : BlockDevice) :
    hardware.sectors device < 2 ^ 32 ∧ Exists fun blocks =>
      hardware.sectors device = blocks * hardware.sectorsPerBlock device := by
  cases device with
  | ide device => exact ⟨UInt32.toNat_lt _, _, (Nat.mul_one _).symm⟩
  | sata port => exact ⟨UInt32.toNat_lt _, _, (Nat.mul_one _).symm⟩
  | usb index => exact ⟨UInt32.toNat_lt _, _, (Nat.mul_one _).symm⟩
  | nvme controller =>
    simp only [Hardware.sectors, Hardware.sectorsPerBlock]
    cases hardware.namespaces controller with
    | none => exact ⟨Nat.two_pow_pos 32, 0, rfl⟩
    | some space =>
      rw [Option.bind_some, Option.map_some, Option.getD_some]
      cases exposed : space.exposedSectors with
      | none => exact ⟨Nat.two_pow_pos 32, 0, (Nat.zero_mul _).symm⟩
      | some sectors =>
        unfold Namespace.exposedSectors at exposed
        split at exposed
        · cases exposed
        split at exposed
        · cases exposed
        rcases tryU32_eq_some exposed with ⟨rfl, small⟩
        exact ⟨small, _, rfl⟩

/-- The block of a sector of a device is on the device. -/
theorem Hardware.blockOf_inside {lba place : Nat} {device : BlockDevice}
    (inside : lba < hardware.sectors device) (has : (hardware.blockOf device lba).Has place) :
    place < hardware.sectors device := by
  rcases (hardware.whole device).2 with ⟨blocks, whole⟩
  rw [whole] at inside ⊢
  have block : lba / hardware.sectorsPerBlock device + 1 <= blocks :=
    Nat.div_lt_of_lt_mul (Nat.mul_comm _ _ ▸ inside)
  have ends := Nat.mul_le_mul_right (hardware.sectorsPerBlock device) block
  rw [Nat.add_mul, Nat.one_mul] at ends
  exact Nat.lt_of_lt_of_le has.2 ends

variable {detected machine : Machine}

theorem onRoot_confined (addressable : Addressable hardware) {Value : Type} {write : Bool}
    {body : RootDisk -> Nat -> Attempt Value}
    (uses : ∀ root lba, Keeps (Uses root.device
      (hardware.blockOf root.device (address root.device lba)) write) (body root lba))
    (ends : ∀ root lba machine value after, body root lba machine = (.ok value, after) ->
      ∀ device place, ¬ (write = true ∧ device = root.device ∧ place = address root.device lba) ->
        after.contents device place = machine.contents device place)
    (known : Known hardware detected.root)
    (ran : ∀ Failure,
      (rootDisk hardware : Action Machine Failure _) machine = (.ok detected.root, detected))
    (lba : Nat) :
    Confined hardware write detected (onRoot hardware lba body machine).1.toBool
      (onRoot hardware lba body machine).2 ∧
    (onRoot hardware lba body machine).2.root = detected.root := by
  have fails : Confined hardware write detected false detected :=
    ⟨[], (append_nil _).symm, .inl ⟨rfl, rfl, rfl⟩⟩
  unfold onRoot
  rw [run_bind_ok (ran Unit)]
  cases found : detected.root with
  | none => exact ⟨fails, found⟩
  | some root =>
    rw [okOr_some_bind]
    cases place : rootSector root lba with
    | none =>
      rw [okOr_none_bind]
      exact ⟨fails, found⟩
    | some absLba =>
      rw [okOr_some_bind]
      rcases known root found with ⟨contents, chosen⟩
      have fits := chosen.fits
      unfold RootDisk.Fits at fits
      unfold rootSector at place
      split at place
      · cases place
      next below =>
        rcases checkedAdd_eq_some place with ⟨rfl, _⟩
        have inside : root.baseLba + lba < hardware.sectors root.device := by omega
        have used := uses root (root.baseLba + lba) detected
        have ended := ends root (root.baseLba + lba) detected
        rw [address_of_lt addressable inside] at used ended
        rcases used.own with ⟨own, shown, alike⟩
        refine ⟨⟨own, shown, .inr ⟨root, root.baseLba + lba, found, ?_, ?_,
          fun _ => Hardware.blockOf_inside inside, alike, ?_⟩⟩, used.root.trans found⟩
        · exact Nat.le_add_right _ _
        · omega
        · cases outcome : (body root (root.baseLba + lba) detected).1 with
          | error => exact used.elsewhere
          | ok value => exact ended value _ (Prod.ext outcome rfl)

theorem perform_confined (addressable : Addressable hardware) (known : Known hardware detected.root)
    (ran : ∀ Failure,
      (rootDisk hardware : Action Machine Failure _) machine = (.ok detected.root, detected))
    (call : RootCall) :
    Confined hardware call.writes detected (perform hardware machine call).1
      (perform hardware machine call).2 ∧
    (perform hardware machine call).2.root = detected.root := by
  cases call with
  | read lba =>
    refine onRoot_confined addressable (fun root absLba => ?_) ?_ known ran lba
    · exact readSectorFrom_uses hardware root.device absLba
    · intro root absLba machine value after read device place _
      exact ((readSectorFrom_uses hardware root.device absLba).ran read).elsewhere device place nofun
  | write lba data =>
    refine onRoot_confined addressable (fun root absLba => ?_) ?_ known ran lba
    · exact (writeSectorTo_uses hardware root.device absLba data).bind fun _ =>
        flushDevice_uses hardware root.device
    · intro root absLba machine value after ran device place away
      rcases bind_ok ran with ⟨_, between, written, flushed⟩
      have quiet : Uses root.device ⟨0, 0⟩ false between after :=
        (flushDevice_uses hardware root.device).ran flushed
      rw [quiet.elsewhere device place nofun]
      exact writeSectorTo_ok written fun here => away ⟨rfl, here⟩

theorem rootAfter_known (addressable : Addressable hardware) (turns : List Turn) :
    Known hardware (rootAfter hardware turns) := by
  unfold rootAfter
  generalize start : (none : Option RootDisk) = root
  have known : Known hardware root := start ▸ nofun
  clear start
  induction turns generalizing root with
  | nil => exact known
  | cons turn turns ih =>
    refine ih _ ?_
    rcases @rootDisk_spec hardware addressable (turn.before root) known
      with ⟨detected, ran, later, _, _⟩
    change Known hardware (perform hardware (turn.before root) turn.call).2.root
    rw [(perform_confined addressable later ran turn.call).2]
    exact later

/-- In every run, a call looks for the root disk without writing anything, and then makes
requests for the block of one sector of the partition that was found, or fails without any. -/
theorem root_io_stays_in_block {hardware : Hardware} (addressable : Addressable hardware)
    (turns : List Turn) (turn : Turn) :
    Exists fun detected : Machine =>
      (rootDisk hardware (turn.before (rootAfter hardware turns)) : Except Unit _ × Machine) =
        (.ok detected.root, detected) ∧
      (∀ access ∈ detected.accesses, access.write = false) ∧
      detected.contents = turn.contents ∧
      (forall root, detected.root = some root ->
        (Exists fun contents => Chosen hardware contents root) ∧
        root.baseLba + root.sectors <= hardware.sectors root.device ∧
        root.baseLba + root.sectors < 2 ^ 32) ∧
      Confined hardware turn.call.writes detected
        (perform hardware (turn.before (rootAfter hardware turns)) turn.call).1
        (perform hardware (turn.before (rootAfter hardware turns)) turn.call).2 := by
  have known := rootAfter_known addressable turns
  rcases @rootDisk_spec hardware addressable (turn.before (rootAfter hardware turns)) known
    with ⟨detected, ran, later, same, own, shown, reads⟩
  refine ⟨detected, ran Unit, ?_, same, fun root found => ?_,
    (perform_confined addressable later ran turn.call).1⟩
  · rw [shown]
    exact reads
  · rcases later root found with ⟨contents, chosen⟩
    exact ⟨⟨contents, chosen⟩, chosen.fits,
      Nat.lt_of_le_of_lt chosen.fits (hardware.whole root.device).1⟩

/-- A machine with one NVMe disk of 1024 sectors in blocks of eight. -/
def nvmeHardware : Hardware where
  ideSectors _ := 0
  sataSectors _ := 0
  namespaces _ := some ⟨128, 12⟩
  capacities _ := ⟨0, 0⟩
  sataPorts := []
  nvmeControllers := [0]
  usbIndices := []

/-- A sector of which some bytes are given, and the rest is zero. -/
def sectorWith (bytes : List (Nat × UInt8)) : Sector :=
  fun place => (bytes.lookup place.val).getD 0

/-- A boot record with a partition of 64 sectors from sector 63, and a filesystem there. -/
def nvmeContents (_ : BlockDevice) : Nat -> Sector
  | 0 => sectorWith [(450, coolfsPartitionType), (454, 63), (458, 64), (510, 0x55), (511, 0xaa)]
  | 63 => sectorWith [(0, 67), (1, 79), (2, 79), (3, 76), (4, 70), (5, 83), (6, 49)]
  | _ => sectorWith []

/-- A write of the first sector of the filesystem; every request succeeds. -/
def nvmeTurn : Turn := ⟨.write 0 (sectorWith []), nvmeContents, fun _ => .done⟩

theorem root_io_stays_in_block_nvme : Exists fun detected : Machine =>
    detected.contents = nvmeContents ∧ Confined nvmeHardware true detected
      (perform nvmeHardware (nvmeTurn.before none) nvmeTurn.call).1
      (perform nvmeHardware (nvmeTurn.before none) nvmeTurn.call).2 := by
  have addressable : Addressable nvmeHardware := by decide
  rcases root_io_stays_in_block addressable [] nvmeTurn with ⟨detected, _, _, same, _, confined⟩
  exact ⟨detected, same, confined⟩

/-- The write replaces the whole block from sector 56 on, of which seven sectors are before the
partition. -/
theorem nvme_write_leaves_partition :
    let after := (perform nvmeHardware (nvmeTurn.before none) nvmeTurn.call).2
    after.root = some ⟨.nvme 0, 63, 64, .mbrCoolFs⟩ ∧
      ⟨.nvme 0, ⟨56, 8⟩, true⟩ ∈ after.accesses := by
  decide +kernel

end CoolOs.Storage
