import CoolOs.Memory.Paging
import Mathlib.Data.List.Nodup

namespace CoolOs.Memory

open AddressSpace Function List

/-!
# The ELF loader

A file is taken apart as a 64-byte header and its program headers, the stack is
mapped and the initial stack page built, and the segments are mapped and copied.
-/

@[simp] abbrev userCanonicalLimit : Nat := 0x800000000000
@[simp] abbrev ptLoad : Nat := 1

inductive ExecError where
  | notFound
  | permissionDenied
  | invalidElf (message : String)
  | outOfMemory
  | mapFailed (message : String)
  | fdInstallFailed
  | schedulerBusy
  | resourceLimit
  deriving DecidableEq

variable (image : List UInt8)

/-- A little-endian number of a file. -/
def readLe (offset width : Nat) : Nat :=
  ((image.drop offset).take width).foldr (fun byte rest => byte.toNat + 256 * rest) 0

/-- The fields of the ELF header that the loader reads. -/
structure Elf64Header where
  ident : List UInt8
  type : Nat
  machine : Nat
  version : Nat
  entry : Nat
  phoff : Nat
  phentsize : Nat
  phnum : Nat
  deriving DecidableEq

structure Elf64ProgramHeader where
  type : Nat
  flags : Nat
  offset : Nat
  vaddr : Nat
  filesz : Nat
  memsz : Nat
  align : Nat
  deriving DecidableEq

@[simp] abbrev headerSize : Nat := 64
@[simp] abbrev programHeaderSize : Nat := 56

def readHeader : Option Elf64Header :=
  if headerSize > image.length then none
  else some {
    ident := image.take 16
    type := readLe image 16 2
    machine := readLe image 18 2
    version := readLe image 20 4
    entry := readLe image 24 8
    phoff := readLe image 32 8
    phentsize := readLe image 54 2
    phnum := readLe image 56 2 }

def readProgramHeader (offset : Nat) : Option Elf64ProgramHeader :=
  if offset + programHeaderSize > image.length then none
  else some {
    type := readLe image offset 4
    flags := readLe image (offset + 4) 4
    offset := readLe image (offset + 8) 8
    vaddr := readLe image (offset + 16) 8
    filesz := readLe image (offset + 32) 8
    memsz := readLe image (offset + 40) 8
    align := readLe image (offset + 48) 8 }

def parseHeader : Except ExecError Elf64Header :=
  match readHeader image with
  | none => .error (.invalidElf "truncated ELF header")
  | some header =>
    if header.ident.take 4 ≠ [0x7f, 0x45, 0x4c, 0x46] then .error (.invalidElf "bad ELF magic")
    else if header.ident.getD 4 0 ≠ 2 then .error (.invalidElf "expected ELF64")
    else if header.ident.getD 5 0 ≠ 1 then .error (.invalidElf "expected little-endian ELF")
    else if header.type ≠ 2 then .error (.invalidElf "expected ET_EXEC")
    else if header.machine ≠ 62 then .error (.invalidElf "expected x86_64 ELF")
    else if header.version ≠ 1 then .error (.invalidElf "unsupported ELF version")
    else if header.phentsize ≠ programHeaderSize then
      .error (.invalidElf "unexpected program header size")
    else if header.entry ≥ userCanonicalLimit then
      .error (.invalidElf "entry point must be in user space")
    else if header.phoff + header.phentsize * header.phnum ≥ 2 ^ 64 then
      .error (.invalidElf "program header table overflow")
    else if header.phoff + header.phentsize * header.phnum > image.length then
      .error (.invalidElf "truncated program header table")
    else .ok header

/-- The bytes of a word at an address. -/
def writeU64 (addr value : Nat) : List (Nat × UInt8) :=
  (List.range 8).map (fun index => (addr + index, UInt8.ofNat (value / 256 ^ index)))

/-- The bytes of a string at an address, with its terminator. -/
def writeArg (addr : Nat) (arg : List UInt8) : List (Nat × UInt8) :=
  (arg ++ [0]).zipIdx.map (fun (entry : UInt8 × Nat) => (addr + entry.2, entry.1))

/-- Push the strings from the last to the first: the stack pointer, the pointers in
the order of the arguments and the writes. -/
def pushStrings (rsp : Nat) : List (List UInt8) -> Nat × List Nat × List (Nat × UInt8)
  | [] => (rsp, [], [])
  | arg :: rest =>
    let (rsp, pointers, writes) := pushStrings rsp rest
    let rsp := rsp - (arg.length + 1)
    (rsp, rsp :: pointers, writes ++ writeArg rsp arg)

/-- Push words from the last to the first. -/
def pushWords (rsp : Nat) : List Nat -> Nat × List (Nat × UInt8)
  | [] => (rsp, [])
  | word :: rest =>
    let (rsp, writes) := pushWords rsp rest
    (rsp - 8, writes ++ writeU64 (rsp - 8) word)

/-- The stack pointer and the bytes written, with their addresses. -/
def buildInitialStack (argv : List (List UInt8)) : Except ExecError (Nat × List (Nat × UInt8)) :=
  let stringsBytes := (argv.map (fun arg => arg.length + 1)).sum
  let pointerBytes := (argv.length + 3) * 8
  if stringsBytes + pointerBytes > pageSize then
    .error (.invalidElf "argv too large for initial stack page")
  else if argv.length > 8 then .error (.invalidElf "too many argv entries")
  else
    let (rsp, pointers, strings) := pushStrings userStackTop argv
    let rsp := rsp / 16 * 16
    let padding := if (argv.length + 3) % 2 ≠ 0 then [0] else []
    let (rsp, words) := pushWords rsp (argv.length :: pointers ++ [0, 0] ++ padding)
    .ok (rsp, strings ++ words)

variable (space : AddressSpace)

namespace AddressSpace

/-- Apply writes with addresses to a frame that is mapped at a page address. -/
def writeFrame (frame pageBase : Nat) (writes : List (Nat × UInt8)) : AddressSpace :=
  let written := writes.foldl
    (fun bytes write => Function.update bytes (write.1 - pageBase) write.2) (space.bytes frame)
  { space with bytes := Function.update space.bytes frame written }

/-- Map one page of new memory. -/
def mapFresh (supply : Supply) (page : Nat) (flags : PageTableFlags) :
    Except ExecError (Nat × AddressSpace) :=
  match supply.frame page with
  | none => .error .outOfMemory
  | some frame =>
    match (space.zeroFrame frame).mapOwnedFrameIn supply page frame flags with
    | .error reason => .error (.mapFailed reason)
    | .ok space => .ok (frame, space)

/-- Map the pages of the stack from the bottom, with the frame of the last one. -/
def mapStackPages (supply : Supply) : Nat -> Nat -> Option Nat -> AddressSpace ->
    Except ExecError (Option Nat × AddressSpace)
  | 0, _, topFrame, space => .ok (topFrame, space)
  | count + 1, page, topFrame, space =>
    match space.mapFresh supply page dataFlags with
    | .error reason => .error reason
    | .ok (frame, space) =>
      mapStackPages supply count (page + 1) (if count = 0 then some frame else topFrame) space

def mapUserStack (supply : Supply) (argv : List (List UInt8)) :
    Except ExecError (Nat × AddressSpace) :=
  match mapStackPages supply (userStackSize / pageSize) (userStackBottom / pageSize) none space with
  | .error reason => .error reason
  | .ok (topFrame, space) =>
    match space.mapFresh supply ((userStackBottom - pageSize) / pageSize) guardFlags with
    | .error reason => .error reason
    | .ok (_, space) =>
      match topFrame with
      | none => .error .outOfMemory
      | some topFrame =>
        match buildInitialStack argv with
        | .error reason => .error reason
        | .ok (rsp, writes) =>
          .ok (rsp, space.writeFrame topFrame (userStackTop - pageSize) writes)

end AddressSpace

def alignDown (value : Nat) : Nat := value / pageSize * pageSize

def alignUp (value : Nat) : Nat := (value + (pageSize - 1)) / pageSize * pageSize

def rangesOverlap (aStart aEnd bStart bEnd : Nat) : Bool :=
  decide (aStart < bEnd) && decide (bStart < aEnd)

/-- Whether a segment asks to be writable. -/
def Elf64ProgramHeader.writes (ph : Elf64ProgramHeader) : Bool := ph.flags.testBit 1

/-- Whether a segment asks to be executable. -/
def Elf64ProgramHeader.executes (ph : Elf64ProgramHeader) : Bool := ph.flags.testBit 0

def loadFlags (ph : Elf64ProgramHeader) : PageTableFlags :=
  ⟨true, ph.writes, true, !ph.executes⟩

def validateLoadSegment (ph : Elf64ProgramHeader) (imageLen : Nat) : Except ExecError Unit :=
  if ph.filesz > ph.memsz then .error (.invalidElf "PT_LOAD filesz exceeds memsz")
  else if ph.align > 1 ∧ ph.align &&& (ph.align - 1) ≠ 0 then
    .error (.invalidElf "PT_LOAD align is not a power of two")
  else if ph.align ≥ pageSize ∧ ph.vaddr % pageSize ≠ ph.offset % pageSize then
    .error (.invalidElf "PT_LOAD offset/address misaligned")
  else if ph.vaddr ≥ userCanonicalLimit then
    .error (.invalidElf "PT_LOAD address must be in user space")
  else if ph.offset + ph.filesz ≥ 2 ^ 64 then
    .error (.invalidElf "PT_LOAD file range overflow")
  else if ph.offset + ph.filesz > imageLen then .error (.invalidElf "PT_LOAD exceeds file size")
  else if ph.vaddr + ph.memsz ≥ 2 ^ 64 then
    .error (.invalidElf "PT_LOAD memory range overflow")
  else if ph.vaddr + ph.memsz ≥ userCanonicalLimit then
    .error (.invalidElf "PT_LOAD extends outside user space")
  else if ph.vaddr + ph.memsz <= ph.vaddr then .error (.invalidElf "PT_LOAD empty memory range")
  else .ok ()

/-- What `copy_page_data` leaves in the frame of a page. -/
def copyPageData (ph : Elf64ProgramHeader) (page : Nat)
    (bytes : Nat -> UInt8) : Nat -> UInt8 :=
  let copyStart := max page ph.vaddr
  let copyEnd := min (page + pageSize) (ph.vaddr + ph.filesz)
  if ph.filesz = 0 ∨ copyStart ≥ copyEnd then bytes
  else fun index =>
    if copyStart - page <= index ∧ index < copyEnd - page then
      image.getD (ph.offset + (page + index - ph.vaddr)) 0
    else bytes index

namespace AddressSpace

/-- The loop of `map_load_segment` over the pages that are left. -/
def mapSegmentPages (supply : Supply) (image : List UInt8) (ph : Elf64ProgramHeader) :
    Nat -> Nat -> AddressSpace -> Except ExecError AddressSpace
  | 0, _, space => .ok space
  | count + 1, page, space =>
    match supply.frame page with
    | none => .error .outOfMemory
    | some frame =>
      let data := copyPageData image ph (page * pageSize) (fun _ => 0)
      let filled := { space with bytes := Function.update space.bytes frame data }
      match filled.mapOwnedFrameIn supply page frame (loadFlags ph) with
      | .error reason => .error (.mapFailed reason)
      | .ok space => mapSegmentPages supply image ph count (page + 1) space

def mapLoadSegment (supply : Supply) (image : List UInt8)
    (ph : Elf64ProgramHeader) : Except ExecError AddressSpace :=
  let segStart := alignDown ph.vaddr
  let segEnd := alignUp (ph.vaddr + ph.memsz)
  mapSegmentPages supply image ph ((segEnd - segStart) / pageSize) (segStart / pageSize) space

/-- The loop of `load_segments` over the indices that are left, with the ranges seen. -/
def loadLoop (supply : Supply) (image : List UInt8) (header : Elf64Header) :
    List Nat -> List (Nat × Nat) -> AddressSpace ->
      Except ExecError (List (Nat × Nat) × AddressSpace)
  | [], ranges, space => .ok (ranges, space)
  | index :: rest, ranges, space =>
    match readProgramHeader image (header.phoff + index * header.phentsize) with
    | none => .error (.invalidElf "truncated program header")
    | some ph =>
      if ph.type ≠ ptLoad ∨ ph.memsz = 0 then loadLoop supply image header rest ranges space
      else
        match validateLoadSegment ph image.length with
        | .error reason => .error reason
        | .ok () =>
          let segStart := alignDown ph.vaddr
          let segEnd := alignUp (ph.vaddr + ph.memsz)
          if ranges.any (fun range => rangesOverlap segStart segEnd range.1 range.2) then
            .error (.invalidElf "overlapping PT_LOAD segments")
          else if rangesOverlap segStart segEnd (userStackBottom - pageSize) userStackTop then
            .error (.invalidElf "PT_LOAD overlaps user stack")
          else
            match space.mapLoadSegment supply image ph with
            | .error reason => .error reason
            | .ok space =>
              loadLoop supply image header rest (ranges ++ [(segStart, segEnd)]) space

def loadSegments (supply : Supply) (image : List UInt8)
    (header : Elf64Header) : Except ExecError AddressSpace :=
  match loadLoop supply image header (List.range header.phnum) [] space with
  | .error reason => .error reason
  | .ok (ranges, space) =>
    if ranges.isEmpty then .error (.invalidElf "ELF has no PT_LOAD segments") else .ok space

end AddressSpace

structure LoadedImage where
  space : AddressSpace
  entry : Nat
  userRsp : Nat

/-- `load_elf_image_with_args` once the file is read; `argv` starts with the path. -/
def loadElfImageWithArgs (supply : Supply) (image : List UInt8) (argv : List (List UInt8)) :
    Except ExecError LoadedImage :=
  match parseHeader image with
  | .error reason => .error reason
  | .ok header =>
    match AddressSpace.fresh.mapUserStack supply argv with
    | .error reason => .error reason
    | .ok (userRsp, space) =>
      match space.loadSegments supply image header with
      | .error reason => .error reason
      | .ok space => .ok { space := space, entry := header.entry, userRsp := userRsp }

/-!
## What the loader leaves in memory

The pages of the segments are mapped one by one.  What a run of the loop has done is
said once, for the list of its pages in order, and runs are put together by appending.
-/

variable {ph : Elf64ProgramHeader} {header : Elf64Header}

/-- The program headers that the loop does not skip. -/
def loadHeaders (image : List UInt8) (header : Elf64Header) (indices : List Nat) :
    List Elf64ProgramHeader :=
  (indices.filterMap (fun index =>
    readProgramHeader image (header.phoff + index * header.phentsize))).filter
      (fun ph => ph.type == ptLoad && ph.memsz != 0)

/-- The pages of a segment, each with its header. -/
def Elf64ProgramHeader.slots (ph : Elf64ProgramHeader) : List (Elf64ProgramHeader × Nat) :=
  (range' (alignDown ph.vaddr / pageSize)
    ((alignUp (ph.vaddr + ph.memsz) - alignDown ph.vaddr) / pageSize)).map (Prod.mk ph)

theorem loadHeaders_cons {image : List UInt8} {index : Nat} (rest : List Nat)
    (read : readProgramHeader image (header.phoff + index * header.phentsize) = some ph) :
    loadHeaders image header (index :: rest) =
      if ph.type ≠ ptLoad ∨ ph.memsz = 0 then loadHeaders image header rest
      else ph :: loadHeaders image header rest := by
  by_cases skipped : ph.type ≠ ptLoad ∨ ph.memsz = 0
  · rw [if_pos skipped]
    simp only [loadHeaders, filterMap_cons, read, filter_cons]
    rw [if_neg (by simpa using fun load => skipped.resolve_left (not_not.mpr load))]
  · rw [if_neg skipped]
    simp only [loadHeaders, filterMap_cons, read, filter_cons]
    rw [if_pos (by simpa [not_or] using skipped)]

theorem mem_slots {slot : Elf64ProgramHeader × Nat} :
    slot ∈ ph.slots <-> slot.1 = ph ∧ alignDown ph.vaddr <= slot.2 * pageSize ∧
      slot.2 * pageSize < alignUp (ph.vaddr + ph.memsz) := by
  rcases slot with ⟨other, page⟩
  simp only [Elf64ProgramHeader.slots, mem_map, mem_range', Prod.mk.injEq, alignDown,
    alignUp, pageSize]
  constructor
  · rintro ⟨_, ⟨offset, inside, rfl⟩, rfl, rfl⟩
    exact ⟨rfl, by omega, by omega⟩
  · rintro ⟨rfl, low, high⟩
    refine ⟨page, ⟨page - other.vaddr / 4096, ?_, ?_⟩, rfl, rfl⟩
    · omega
    · omega

/-- Frames that are in use are not given out again, as the frame allocator has it for the
frames that it hands out and that nobody has freed. -/
def Supply.Distinct (supply : Supply) : Prop :=
  forall first second frame, supply.frame first = some frame ->
    supply.frame second = some frame -> first = second

/-- The pages of a list were free and are mapped, in order, to the frames given for
them, with the flags and the bytes of their segments; nothing else has changed. -/
structure Placed (supply : Supply) (image : List UInt8)
    (slots : List (Elf64ProgramHeader × Nat)) (before after : AddressSpace) : Prop where
  distinct : (slots.map Prod.snd).Nodup
  free : ∀ slot ∈ slots, before.ptes slot.2 = none
  mapped : ∀ slot ∈ slots, Exists fun frame => supply.frame slot.2 = some frame ∧
    after.ptes slot.2 = some ⟨frame, loadFlags slot.1⟩
  others : forall page, page ∉ slots.map Prod.snd -> after.ptes page = before.ptes page
  owned : after.leafFrames = before.leafFrames ++ slots.filterMap (fun slot => supply.frame slot.2)
  filled : supply.Distinct -> forall slot frame, slot ∈ slots -> supply.frame slot.2 = some frame ->
    after.bytes frame = copyPageData image slot.1 (slot.2 * pageSize) (fun _ => 0)
  kept : forall frame, (∀ slot ∈ slots, supply.frame slot.2 ≠ some frame) ->
    after.bytes frame = before.bytes frame

namespace Placed

variable {supply : Supply} {image : List UInt8} {slots more : List (Elf64ProgramHeader × Nat)}
  {before middle after : AddressSpace}

theorem nil : Placed supply image [] before before where
  distinct := nodup_nil
  free := nofun
  mapped := nofun
  others := fun _ _ => rfl
  owned := by simp
  filled := nofun
  kept := fun _ _ => rfl

theorem append (first : Placed supply image slots before middle)
    (second : Placed supply image more middle after) :
    Placed supply image (slots ++ more) before after := by
  have apart : ∀ slot ∈ slots, slot.2 ∉ more.map Prod.snd := by
    intro slot listed again
    rcases mem_map.mp again with ⟨other, later, same⟩
    rcases first.mapped slot listed with ⟨frame, _, there⟩
    rw [<- same, second.free other later] at there
    cases there
  have fresh : ∀ slot ∈ more, slot.2 ∉ slots.map Prod.snd := by
    intro slot listed again
    rcases mem_map.mp again with ⟨other, earlier, same⟩
    exact apart other earlier (same ▸ mem_map_of_mem listed)
  refine ⟨?_, ?_, ?_, ?_, ?_, ?_, ?_⟩
  · rw [map_append, nodup_append']
    refine ⟨first.distinct, second.distinct, fun page here there => ?_⟩
    rcases mem_map.mp here with ⟨slot, listed, rfl⟩
    exact apart slot listed there
  · intro slot listed
    rcases mem_append.mp listed with here | there
    · exact first.free slot here
    · rw [<- first.others slot.2 (fresh slot there)]
      exact second.free slot there
  · intro slot listed
    rcases mem_append.mp listed with here | there
    · rw [second.others slot.2 (apart slot here)]
      exact first.mapped slot here
    · exact second.mapped slot there
  · intro page missing
    rw [map_append, mem_append, not_or] at missing
    rw [second.others page missing.2, first.others page missing.1]
  · rw [second.owned, first.owned, filterMap_append, append_assoc]
  · intro distinct slot frame listed given
    rcases mem_append.mp listed with here | there
    · rw [second.kept frame, first.filled distinct slot frame here given]
      intro other later same
      exact apart slot here (distinct _ _ _ given same ▸ mem_map_of_mem later)
    · exact second.filled distinct slot frame there given
  · intro frame unused
    rw [second.kept frame fun slot listed => unused slot (mem_append_right _ listed),
      first.kept frame fun slot listed => unused slot (mem_append_left _ listed)]

/-- Mapping one page. -/
theorem single {page frame : Nat} (given : supply.frame page = some frame)
    (owned : (AddressSpace.mk before.ptes before.leafFrames (Function.update before.bytes frame
      (copyPageData image ph (page * pageSize) (fun _ => 0)))).mapOwnedFrameIn supply page frame
        (loadFlags ph) = .ok after) : Placed supply image [(ph, page)] before after := by
  unfold mapOwnedFrameIn mapPageIn at owned
  split at owned
  · cases owned
  split at owned
  · cases owned
  next middle mapped =>
  split at mapped
  · cases mapped
  next free =>
  cases mapped
  cases owned
  simp only [Bool.or_eq_true, not_or, Bool.not_eq_true, Option.isSome_eq_false_iff,
    Option.isNone_iff_eq_none] at free
  constructor <;> simp only [mem_singleton, forall_eq, map_cons, map_nil]
  · exact nodup_singleton _
  · exact free.1
  · exact ⟨frame, given, update_self ..⟩
  · exact fun other different => update_of_ne different ..
  · simp [given]
  · rintro _ _ other rfl same
    cases given.symm.trans same
    exact update_self ..
  · intro other different
    have apart : other ≠ frame := fun same => different (given.trans (congrArg some same.symm))
    exact update_of_ne apart ..

end Placed

/-- What is checked of a segment before it is mapped. -/
def Elf64ProgramHeader.Checked (ph : Elf64ProgramHeader) (imageLen : Nat) : Prop :=
  validateLoadSegment ph imageLen = .ok () ∧
    rangesOverlap (alignDown ph.vaddr) (alignUp (ph.vaddr + ph.memsz))
      (userStackBottom - pageSize) userStackTop = false

variable {supply : Supply} {image : List UInt8}

theorem mapSegmentPages_placed {count page : Nat} {space after : AddressSpace}
    (mapped : mapSegmentPages supply image ph count page space = .ok after) :
    Placed supply image ((range' page count).map (Prod.mk ph)) space after := by
  induction count generalizing page space with
  | zero =>
    cases mapped
    exact .nil
  | succ count ih =>
    rw [mapSegmentPages] at mapped
    split at mapped
    · cases mapped
    next given =>
    dsimp only at mapped
    split at mapped
    · cases mapped
    next owned => exact (Placed.single given owned).append (ih mapped)

/-- What the loop over the program headers has done, and what it has checked. -/
theorem loadLoop_placed
    {indices : List Nat} {ranges found : List (Nat × Nat)} {space after : AddressSpace}
    (loaded : loadLoop supply image header indices ranges space = .ok (found, after)) :
    Placed supply image ((loadHeaders image header indices).flatMap Elf64ProgramHeader.slots)
        space after ∧ ∀ ph ∈ loadHeaders image header indices, ph.Checked image.length := by
  induction indices generalizing ranges space with
  | nil =>
    cases loaded
    exact ⟨.nil, nofun⟩
  | cons index rest ih =>
    rw [loadLoop] at loaded
    split at loaded
    · cases loaded
    next ph read =>
    rw [loadHeaders_cons rest read]
    split at loaded
    · next skipped =>
      rw [if_pos skipped]
      exact ih loaded
    next taken =>
    rw [if_neg taken, flatMap_cons]
    split at loaded
    · cases loaded
    next valid =>
    dsimp only at loaded
    split at loaded
    · cases loaded
    split at loaded
    · cases loaded
    next stack =>
    split at loaded
    · cases loaded
    next mapped =>
    refine ⟨(mapSegmentPages_placed mapped).append (ih loaded).1, fun other listed => ?_⟩
    rcases mem_cons.mp listed with rfl | later
    · exact ⟨valid, Bool.eq_false_iff.mpr stack⟩
    · exact (ih loaded).2 other later

theorem loadSegments_placed
    {space after : AddressSpace} (loaded : space.loadSegments supply image header = .ok after) :
    Placed supply image
        ((loadHeaders image header (range header.phnum)).flatMap Elf64ProgramHeader.slots)
        space after ∧
      ∀ ph ∈ loadHeaders image header (range header.phnum), ph.Checked image.length := by
  unfold loadSegments at loaded
  split at loaded
  · cases loaded
  next looped =>
  split at loaded
  · cases loaded
  cases loaded
  exact loadLoop_placed looped

/-- The steps of a load that succeeds. -/
theorem loadElfImageWithArgs_ok {argv : List (List UInt8)} {loaded : LoadedImage}
    (accepted : loadElfImageWithArgs supply image argv = .ok loaded) :
    ∃ header userRsp, ∃ stacked : AddressSpace,
      parseHeader image = .ok header ∧
      AddressSpace.fresh.mapUserStack supply argv = .ok (userRsp, stacked) ∧
      stacked.loadSegments supply image header = .ok loaded.space := by
  unfold loadElfImageWithArgs at accepted
  split at accepted
  · cases accepted
  next header parsed =>
  split at accepted
  · cases accepted
  next userRsp stacked stack =>
  split at accepted
  · cases accepted
  next segments =>
  cases accepted
  exact ⟨header, userRsp, stacked, parsed, stack, segments⟩

end CoolOs.Memory
