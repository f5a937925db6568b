import CoolOs.Memory.Plans

namespace CoolOs.Memory

open AddressSpace Function List

/-!
# Writable or executable

No page that the user can reach is writable and executable at once, as long as no
segment of the program asks for it.  Pages are only ever added, with flags that
each place puts together on its own, or get flags that `sys_mprotect` has checked.
-/

/-- Flags that do not let the user both write and execute. -/
def PageTableFlags.exclusive (flags : PageTableFlags) : Bool :=
  !flags.userAccessible || !flags.writable || flags.noExecute

/-- No page is both writable and executable for the user. -/
def AddressSpace.Exclusive (space : AddressSpace) : Prop :=
  forall page pte, space.ptes page = some pte -> pte.flags.exclusive = true

/-- A page is added, or none: what mapping with given flags can do. -/
def Maps (flags : PageTableFlags) (before after : AddressSpace) : Prop :=
  forall page pte, after.ptes page = some pte -> before.ptes page = some pte ∨ pte.flags = flags

namespace Maps

variable {flags : PageTableFlags} {after before : AddressSpace}

theorem of_same (same : after.ptes = before.ptes) : Maps flags before after :=
  fun _ _ found => .inl (same ▸ found)

theorem trans {first second third : AddressSpace} (start : Maps flags first second)
    (rest : Maps flags second third) : Maps flags first third := by
  intro page pte found
  rcases rest page pte found with middle | new
  · exact start page pte middle
  · exact .inr new

/-- Filling a frame maps nothing. -/
theorem of_filled {filled : AddressSpace} (maps : Maps flags filled after)
    (same : filled.ptes = before.ptes) : Maps flags before after := trans (of_same same) maps

theorem exclusive (maps : Maps flags before after) (allowed : flags.exclusive = true)
    (exclusive : before.Exclusive) : after.Exclusive := by
  intro page pte found
  rcases maps page pte found with old | new
  · exact exclusive page pte old
  · exact new ▸ allowed

end Maps

variable {after : AddressSpace} {frame page addr len : Nat} {supply : Supply} {refused : Prop}
  {header : Elf64Header} {image : List UInt8}

variable {flags : PageTableFlags} {Value : Type}

theorem mapPageIn_maps {space : AddressSpace}
    (mapped : space.mapPageIn supply page frame flags = .ok after) : Maps flags space after := by
  unfold mapPageIn at mapped
  split at mapped
  · cases mapped
  cases mapped
  intro other pte found
  dsimp only at found
  by_cases same : other = page
  · subst same
    rw [update_self] at found
    cases found
    exact .inr rfl
  · rw [update_of_ne same] at found
    exact .inl found

theorem mapOwnedFrameIn_maps {space : AddressSpace}
    (mapped : space.mapOwnedFrameIn supply page frame flags = .ok after) :
    Maps flags space after := by
  unfold mapOwnedFrameIn at mapped
  split at mapped
  · cases mapped
  split at mapped
  · cases mapped
  next middle mappedPage =>
  cases mapped
  exact (mapPageIn_maps mappedPage).trans (.of_same rfl)

theorem mapSharedPages_maps (supply : Supply) (frames : List Nat) (virt : Nat)
    (space : AddressSpace) : Maps dataFlags space (mapSharedPages supply frames virt space).2 := by
  induction frames generalizing virt space with
  | nil => exact .of_same rfl
  | cons frame rest ih =>
    rw [mapSharedPages]
    split
    · next mapped => exact (mapPageIn_maps mapped).trans (ih _ _)
    · split
      · exact ih _ _
      · exact .of_same rfl

/-- Protection bits that pass the check. -/
theorem protFlags_exclusive {flags : UInt64} (accepted : ¬ refusedFlags flags = true) :
    (protFlags flags).exclusive = true := by
  simp only [refusedFlags, Bool.or_eq_true, not_or] at accepted
  have both := accepted.2
  simp only [PageTableFlags.exclusive, protFlags]
  by_cases writes : flags &&& userProtWrite = 0
  · simp [writes]
  · by_cases executes : flags &&& userProtExec = 0
    · simp [executes]
    · simp [writes, executes] at both

variable {space : AddressSpace}

/-- If there is a plan, its flags are exclusive. -/
def Allowed (plan : Option Plan) : Prop :=
  forall steps, plan = some steps -> steps.flags.exclusive = true

theorem allowed_ite {plan : Option Plan} [Decidable refused] (next : ¬ refused -> Allowed plan) :
    Allowed (if refused then none else plan) := by
  intro steps planned
  split at planned
  · cases planned
  · next accepted => exact next accepted steps planned

theorem ranged_allowed {plan : Nat -> Option Plan} (next : ∀ aligned, Allowed (plan aligned)) :
    Allowed (ranged addr len plan) := by
  unfold ranged
  generalize lenAligned len = rounded
  cases rounded with
  | none => nofun
  | some aligned => exact allowed_ite fun _ => next aligned

theorem mapping_allowed {can : Nat -> Bool} (allowed : flags.exclusive = true) :
    Allowed (space.mapping addr len flags supply can) := by
  refine ranged_allowed fun aligned => allowed_ite fun _ => allowed_ite fun _ => ?_
  rintro _ ⟨⟩
  exact allowed

theorem plan_allowed (call : MemoryCall) : Allowed (call.plan space) := by
  cases call with
  | mmap supply addr len flags =>
    exact allowed_ite fun _ => allowed_ite fun accepted =>
      mapping_allowed (protFlags_exclusive accepted)
  | mprotect addr len flags =>
    refine allowed_ite fun _ => allowed_ite fun accepted => ranged_allowed fun aligned => ?_
    rintro _ ⟨⟩
    exact protFlags_exclusive accepted
  | mmapFile supply data addr len offset flags =>
    exact allowed_ite fun _ => allowed_ite fun _ =>
      mapping_allowed (by simp [PageTableFlags.exclusive])
  | shmemMap supply addr frames => nofun
  | threadSpawn supply entry tlsBase flags slot spawned =>
    refine allowed_ite fun _ => ?_
    cases slot.bind userThreadStackRange with
    | none => nofun
    | some range =>
      refine allowed_ite fun _ => ?_
      rintro _ ⟨⟩
      rfl

theorem Follows.exclusive {call : MemoryCall} {outcome : Option Nat × AddressSpace}
    (follows : Follows space (call.plan space) outcome) (exclusive : space.Exclusive) :
    outcome.2.Exclusive := by
  have allowed := @plan_allowed space call
  generalize call.plan space = plan at follows allowed
  cases plan with
  | none =>
    cases follows
    exact exclusive
  | some steps =>
    rcases follows with ⟨_, _, done, changed, _⟩
    intro page pte found
    rw [changed.ptes] at found
    split at found
    · rcases Option.map_eq_some_iff.mp found with ⟨_, _, rfl⟩
      exact allowed steps rfl
    · exact exclusive page pte found

theorem sysShmemMap_exclusive (exclusive : space.Exclusive) (supply : Supply) (addr : Nat)
    (frames : Option (List Nat)) : (space.sysShmemMap supply addr frames).2.Exclusive := by
  cases frames with
  | none => exact exclusive
  | some frames =>
    have maps := mapSharedPages_maps supply frames addr space
    simp only [sysShmemMap]
    generalize mapSharedPages supply frames addr space = outcome at maps ⊢
    rcases outcome with ⟨_ | _, after⟩ <;> exact maps.exclusive rfl exclusive

theorem MemoryCall.perform_exclusive (exclusive : space.Exclusive)
    (call : MemoryCall) : (call.perform space).Exclusive := by
  cases call with
  | mmap supply addr len flags =>
    exact (sysMmap_follows space supply addr len flags).exclusive exclusive
  | mprotect addr len flags => exact (sysMprotect_follows space addr len flags).exclusive exclusive
  | mmapFile supply data addr len offset flags =>
    exact (sysMmapFile_follows space supply data addr len offset flags).exclusive exclusive
  | shmemMap supply addr frames => exact sysShmemMap_exclusive exclusive supply addr frames
  | threadSpawn supply entry tlsBase flags slot spawned =>
    exact (sysThreadSpawnCommon_follows space supply entry tlsBase flags slot spawned).exclusive
      exclusive

theorem runMemory_exclusive (calls : List MemoryCall) (exclusive : space.Exclusive) :
    (runMemory space calls).Exclusive := by
  induction calls generalizing space with
  | nil => exact exclusive
  | cons call rest ih => exact ih (call.perform_exclusive exclusive)

theorem mapFresh_maps (mapped : space.mapFresh supply page flags = .ok (frame, after)) :
    Maps flags space after := by
  unfold mapFresh at mapped
  split at mapped
  · cases mapped
  split at mapped
  · cases mapped
  next owned =>
  cases mapped
  exact (mapOwnedFrameIn_maps owned).of_filled rfl

theorem mapStackPages_maps {count : Nat} {topFrame found : Option Nat}
    (mapped : mapStackPages supply count page topFrame space = .ok (found, after)) :
    Maps dataFlags space after := by
  induction count generalizing page topFrame space with
  | zero =>
    cases mapped
    exact .of_same rfl
  | succ count ih =>
    rw [mapStackPages] at mapped
    split at mapped
    · cases mapped
    · next one => exact (mapFresh_maps one).trans (ih mapped)

/-- The stack and its guard page. -/
theorem mapUserStack_exclusive {argv : List (List UInt8)} {rsp : Nat} (exclusive : space.Exclusive)
    (mapped : space.mapUserStack supply argv = .ok (rsp, after)) : after.Exclusive := by
  unfold mapUserStack at mapped
  split at mapped
  · cases mapped
  next pages =>
  split at mapped
  · cases mapped
  next guard =>
  split at mapped
  · cases mapped
  split at mapped
  · cases mapped
  cases mapped
  exact (mapFresh_maps guard).exclusive rfl ((mapStackPages_maps pages).exclusive rfl exclusive)

/-- A segment that is loaded and asks to be writable and executable. -/
def Elf64ProgramHeader.loadsWritableCode (ph : Elf64ProgramHeader) : Bool :=
  ph.type == ptLoad && ph.memsz != 0 && ph.writes && ph.executes

/-- Some segment of a program is loaded writable and executable. -/
def asksWritableCode (image : List UInt8) (header : Elf64Header) (indices : List Nat) : Bool :=
  indices.any (fun index =>
    (readProgramHeader image (header.phoff + index * header.phentsize)).any
      Elf64ProgramHeader.loadsWritableCode)

theorem loadFlags_exclusive (ph : Elf64ProgramHeader) :
    (loadFlags ph).exclusive = !(ph.writes && ph.executes) := by
  cases writes : ph.writes <;> cases executes : ph.executes <;>
    simp [loadFlags, PageTableFlags.exclusive, writes, executes]

theorem asksWritableCode_iff (image : List UInt8) (header : Elf64Header) (indices : List Nat) :
    asksWritableCode image header indices = true <->
      ∃ ph ∈ loadHeaders image header indices, (loadFlags ph).exclusive = false := by
  simp only [asksWritableCode, Elf64ProgramHeader.loadsWritableCode, loadHeaders,
    loadFlags_exclusive, any_eq_true, Option.any_eq_true, mem_filter, mem_filterMap,
    Bool.and_eq_true, Bool.not_eq_false']
  constructor
  · rintro ⟨index, listed, ph, read, ⟨loads, writes⟩, executes⟩
    exact ⟨ph, ⟨⟨index, listed, read⟩, loads⟩, writes, executes⟩
  · rintro ⟨ph, ⟨⟨index, listed, read⟩, loads⟩, writes, executes⟩
    exact ⟨index, listed, ph, read, ⟨loads, writes⟩, executes⟩

/-- Loading the segments: the result is exclusive exactly if the pages were and no
segment asks for both. -/
theorem loadSegments_exclusive_iff (exclusive : space.Exclusive)
    (loaded : space.loadSegments supply image header = .ok after) :
    after.Exclusive <-> asksWritableCode image header (range header.phnum) = false := by
  have placed := (loadSegments_placed loaded).1
  rw [<- Bool.not_eq_true, asksWritableCode_iff]
  constructor
  · rintro allowed ⟨ph, listed, both⟩
    have loads : ph.type = ptLoad ∧ ph.memsz ≠ 0 := by simpa using (mem_filter.mp listed).2
    have first : (ph, alignDown ph.vaddr / pageSize) ∈ ph.slots := by
      refine mem_slots.mpr ⟨rfl, ?_, ?_⟩ <;> simp only [alignDown, alignUp, pageSize] <;> omega
    rcases placed.mapped _ (mem_flatMap.mpr ⟨ph, listed, first⟩) with ⟨frame, _, present⟩
    exact Bool.false_ne_true (both.symm.trans (allowed _ _ present))
  · intro none page pte present
    by_cases added : page ∈ ((loadHeaders image header (range header.phnum)).flatMap
        Elf64ProgramHeader.slots).map Prod.snd
    · rcases mem_map.mp added with ⟨slot, listed, rfl⟩
      rcases mem_flatMap.mp listed with ⟨ph, loads, among⟩
      rcases placed.mapped slot listed with ⟨frame, _, there⟩
      cases present.symm.trans there
      rw [(mem_slots.mp among).1]
      exact Bool.not_eq_false _ |>.mp fun both => none ⟨ph, loads, both⟩
    · rw [placed.others page added] at present
      exact exclusive page pte present

/-- A check that has not failed. -/
theorem of_check [Decidable refused] {Reason : Type} {reason : Reason} {rest : Except Reason Value}
    {value : Value} (passed : (if refused then .error reason else rest) = .ok value) :
    ¬ refused ∧ rest = .ok value := by
  by_cases holds : refused
  · rw [if_pos holds] at passed
    cases passed
  · rw [if_neg holds] at passed
    exact ⟨holds, passed⟩

theorem parseHeader_read (parsed : parseHeader image = .ok header) :
    readHeader image = some header := by
  unfold parseHeader at parsed
  cases read : readHeader image with
  | none =>
    rw [read] at parsed
    cases parsed
  | some found =>
    rw [read] at parsed
    iterate 10 replace parsed := (of_check parsed).2
    cases parsed
    rfl

theorem fresh_exclusive : AddressSpace.fresh.Exclusive := by
  intro page pte found
  cases found

/-- The program headers of a file that the loader goes through. -/
def fileAsksWritableCode (image : List UInt8) : Bool :=
  (readHeader image).any (fun header => asksWritableCode image header (range header.phnum))

/-- A file with one segment of one page at `0x7fff00000000` and the given flags. -/
def tinyElf (flags : UInt8) : List UInt8 :=
  [0x7f, 0x45, 0x4c, 0x46, 2, 1, 1, 0, 0, 0, 0, 0, 0, 0, 0, 0,
    2, 0, 62, 0, 1, 0, 0, 0, 0, 0, 0, 0, 0xff, 0x7f, 0, 0,
    64, 0, 0, 0, 0, 0, 0, 0, 0, 0, 0, 0, 0, 0, 0, 0,
    0, 0, 0, 0, 64, 0, 56, 0, 1, 0, 0, 0, 0, 0, 0, 0,
    1, 0, 0, 0, flags, 0, 0, 0, 0, 0, 0, 0, 0, 0, 0, 0,
    0, 0, 0, 0, 0xff, 0x7f, 0, 0, 0, 0, 0, 0, 0, 0, 0, 0,
    0, 0, 0, 0, 0, 0, 0, 0, 0, 0x10, 0, 0, 0, 0, 0, 0,
    0, 0x10, 0, 0, 0, 0, 0, 0]

/-- Memory for everything. -/
def plenty : Supply := ⟨some, fun _ => true⟩

theorem exists_of_isOk {Failure : Type} {outcome : Except Failure Value} (ok : outcome.isOk = true)
    : ∃ value, outcome = .ok value := by
  cases outcome with
  | error failure => cases ok
  | ok value => exact ⟨value, rfl⟩

open Option

/-!
## Where segments land and what they hold

The loader puts the bytes of the file where the program headers ask for them.  It keeps
them out of the main stack, but nothing keeps them in the part of the address space that
belongs to the process alone.
-/

@[simp] abbrev userImageBase : Nat := 0x7fff00000000

def pml4Index (addr : Nat) : Nat := addr / 2 ^ 39 % 512

@[simp] abbrev userImagePml4Index : Nat := pml4Index userImageBase

/-- A page below the user-image root, apart from the main stack with its guard page, the
slots of the thread stacks and the mmap arena. -/
structure PageConfined (page : Nat) : Prop where
  root : pml4Index (page * pageSize) = userImagePml4Index
  stack : rangesOverlap (page * pageSize) ((page + 1) * pageSize) (userStackBottom - pageSize)
    userStackTop = false
  threads : ∀ slot < userThreadStackSlots,
    rangesOverlap (page * pageSize) ((page + 1) * pageSize)
      (userThreadStackBase + slot * userThreadStackSlotSize)
      (userThreadStackBase + (slot + 1) * userThreadStackSlotSize) = false
  arena : rangesOverlap (page * pageSize) ((page + 1) * pageSize) userMmapBase userMmapTop = false

/-- A segment that asks for addresses of the user image only. -/
def Elf64ProgramHeader.confined (ph : Elf64ProgramHeader) : Bool :=
  pml4Index ph.vaddr == userImagePml4Index &&
    !rangesOverlap ph.vaddr (ph.vaddr + ph.memsz) userThreadStackBase
      (userThreadStackBase + userThreadStackSlots * userThreadStackSlotSize) &&
    !rangesOverlap ph.vaddr (ph.vaddr + ph.memsz) userMmapBase userMmapTop

variable {imageLen : Nat} {ph : Elf64ProgramHeader}

theorem rangesOverlap_eq_false {start ending low high : Nat} :
    rangesOverlap start ending low high = false <-> (start < high -> ¬ low < ending) := by
  simp [rangesOverlap]

/-- What the checks on a segment say. -/
theorem validateLoadSegment_ok (valid : validateLoadSegment ph imageLen = .ok ()) :
    ph.filesz <= ph.memsz ∧ ph.offset + ph.filesz <= imageLen ∧
      ph.vaddr + ph.memsz < userCanonicalLimit := by
  have sizes := of_check valid
  have file := of_check (of_check (of_check (of_check (of_check sizes.2).2).2).2).2
  have memory := of_check (of_check file.2).2
  exact ⟨Nat.le_of_not_lt sizes.1, Nat.le_of_not_lt file.1, Nat.lt_of_not_le memory.1⟩

/-- The pages of a segment are confined exactly if the addresses it asks for are. -/
theorem slots_confined_iff (filled : ph.memsz ≠ 0) (checked : ph.Checked imageLen) :
    (∀ slot ∈ ph.slots, PageConfined slot.2) <-> ph.confined = true := by
  rcases checked with ⟨valid, stack⟩
  have limit := (validateLoadSegment_ok valid).2.2
  simp only [Elf64ProgramHeader.confined, rangesOverlap_eq_false, pml4Index, alignDown, alignUp, pageSize,
    userImagePml4Index, userImageBase, userCanonicalLimit, userStackBottom, userStackTop,
    userStackSize, userThreadStackBase, userThreadStackSlots, userThreadStackSlotSize,
    userMmapBase, userMmapTop, Bool.and_eq_true, beq_iff_eq, Bool.not_eq_true'] at stack limit ⊢
  constructor
  · intro confined
    -- the page of an address of the segment
    have at_page (addr : Nat) (low : ph.vaddr <= addr) (high : addr < ph.vaddr + ph.memsz) :
        PageConfined (addr / 4096) := by
      refine confined (ph, addr / 4096) (mem_slots.mpr ⟨rfl, ?_, ?_⟩) <;>
        simp only [alignDown, alignUp, pageSize] <;> omega
    refine ⟨⟨?_, fun low high => ?_⟩, fun low high => ?_⟩
    · have root := (at_page ph.vaddr (Nat.le_refl _) (by omega)).root
      simp only [pml4Index, pageSize, userImagePml4Index, userImageBase] at root
      omega
    · have apart := (at_page (max ph.vaddr 0x7fff00200000) (by omega) (by omega)).threads
        ((max ph.vaddr 0x7fff00200000 - 0x7fff00200000) / 0x100000)
      simp only [rangesOverlap_eq_false, pageSize, userThreadStackSlots, userThreadStackBase,
        userThreadStackSlotSize] at apart
      omega
    · have apart := (at_page (max ph.vaddr 0x7fff10000000) (by omega) (by omega)).arena
      simp only [rangesOverlap_eq_false, pageSize, userMmapBase, userMmapTop] at apart
      omega
  · rintro ⟨⟨root, threads⟩, arena⟩ slot listed
    have bounds := mem_slots.mp listed
    simp only [alignDown, alignUp, pageSize] at bounds
    constructor <;> simp only [rangesOverlap_eq_false, pml4Index, pageSize, userImagePml4Index,
      userImageBase, userStackBottom, userStackTop, userStackSize, userThreadStackBase,
      userThreadStackSlots, userThreadStackSlotSize, userMmapBase, userMmapTop]
    · omega
    · intro below above
      have apart := stack (Nat.lt_of_le_of_lt bounds.2.1 below)
      omega
    · clear root stack arena
      intro index inside
      omega
    · clear root stack threads
      omega

/-- For every file that is loaded: the pages that `load_segments` adds are confined if and
only if the addresses that the segments ask for are. -/
theorem loaded_pages_confined_iff {supply : Supply} {image : List UInt8}
    {argv : List (List UInt8)} {loaded : LoadedImage}
    (accepted : loadElfImageWithArgs supply image argv = .ok loaded) :
    Exists fun header => Exists fun userRsp => Exists fun stacked : AddressSpace =>
      parseHeader image = .ok header ∧
      AddressSpace.fresh.mapUserStack supply argv = .ok (userRsp, stacked) ∧
      stacked.loadSegments supply image header = .ok loaded.space ∧
      ((forall page, stacked.ptes page = none -> loaded.space.ptes page ≠ none ->
          PageConfined page) <->
        ∀ ph ∈ loadHeaders image header (range header.phnum), ph.confined = true) := by
  rcases loadElfImageWithArgs_ok accepted with ⟨header, userRsp, stacked, parsed, stack, segments⟩
  refine ⟨header, userRsp, stacked, parsed, stack, segments, ?_⟩
  rcases loadSegments_placed segments with ⟨placed, checked⟩
  have each (ph : Elf64ProgramHeader)
      (listed : ph ∈ loadHeaders image header (range header.phnum)) :
      (∀ slot ∈ ph.slots, PageConfined slot.2) <-> ph.confined = true := by
    have loads : ph.type = ptLoad ∧ ph.memsz ≠ 0 := by simpa using (mem_filter.mp listed).2
    exact slots_confined_iff loads.2 (checked ph listed)
  constructor
  · intro confined ph listed
    refine (each ph listed).mp fun slot among => ?_
    have all := mem_flatMap.mpr ⟨ph, listed, among⟩
    rcases placed.mapped slot all with ⟨frame, _, present⟩
    exact confined slot.2 (placed.free slot all) (by simp [present])
  · intro confined page free present
    have added : page ∈ ((loadHeaders image header (range header.phnum)).flatMap
        Elf64ProgramHeader.slots).map Prod.snd := by
      by_contra missing
      exact present ((placed.others page missing).trans free)
    rcases mem_map.mp added with ⟨slot, all, rfl⟩
    rcases mem_flatMap.mp all with ⟨ph, listed, among⟩
    exact (each ph listed).mpr (confined ph listed) slot among

/-- The header of the file with one page. -/
def tinyHeader : Elf64Header :=
  ⟨(tinyElf 5).take 16, 2, 62, 1, 0x7fff00000000, 64, 56, 1⟩

theorem text_page_confined : Exists fun loaded : LoadedImage =>
    loadElfImageWithArgs plenty (tinyElf 5) [[0x61]] = .ok loaded ∧
      Exists fun userRsp => Exists fun stacked : AddressSpace =>
        AddressSpace.fresh.mapUserStack plenty [[0x61]] = .ok (userRsp, stacked) ∧
          forall page, stacked.ptes page = none -> loaded.space.ptes page ≠ none ->
            PageConfined page := by
  have loads : (loadElfImageWithArgs plenty (tinyElf 5) [[0x61]]).isOk = true := by
    decide +kernel
  rcases exists_of_isOk loads with ⟨loaded, accepted⟩
  rcases loaded_pages_confined_iff accepted with ⟨header, userRsp, stacked, parsed, stack, _, iff⟩
  refine ⟨loaded, accepted, userRsp, stacked, stack, iff.mpr ?_⟩
  have read : readHeader (tinyElf 5) = some tinyHeader := by decide +kernel
  cases (parseHeader_read parsed).symm.trans read
  decide +kernel

/-- The same file with its segment at `0x400000`. -/
def lowElf : List UInt8 := (((tinyElf 5).set 82 0x40).set 84 0).set 85 0

/-- It is loaded, and its page is below the first root, which the kernel uses. -/
theorem low_segment_loaded : ((loadElfImageWithArgs plenty lowElf [[0x61]]).toOption.bind
      (fun loaded => loaded.space.ptes 0x400)).isSome = true ∧
      pml4Index (0x400 * pageSize) = 0 ∧ userImagePml4Index = 255 :=
  ⟨by decide +kernel, by decide, by decide⟩

/-- What the user reads at an address. -/
def AddressSpace.readByte (space : AddressSpace) (addr : Nat) : Option UInt8 :=
  (space.ptes (addr / pageSize)).map (fun pte => space.bytes pte.frame (addr % pageSize))

/-- The same file with four bytes of its own in the segment. -/
def textElf : List UInt8 := (tinyElf 5).set 96 4

end CoolOs.Memory
