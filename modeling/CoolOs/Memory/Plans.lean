import CoolOs.Memory.Elf

namespace CoolOs.Memory

/-!
# The memory system calls

The calls by which a running process changes its address space.  A call that gives
`u64::MAX` has no value here.
-/

@[simp] abbrev userProtWrite : UInt64 := 1
@[simp] abbrev userProtExec : UInt64 := 2

/-- A length rounded up to whole pages, unless it overflows. -/
def lenAligned (len : Nat) : Option Nat :=
  if len + 4095 ≥ 2 ^ 64 then none else some ((len + 4095) / 4096 * 4096)

/-- The page flags for protection bits. -/
def protFlags (flags : UInt64) : PageTableFlags :=
  ⟨true, flags &&& userProtWrite != 0, true, flags &&& userProtExec == 0⟩

/-- Whether the protection bits are refused: unknown ones, or write with execute. -/
def refusedFlags (flags : UInt64) : Bool :=
  flags &&& ~~~(userProtWrite ||| userProtExec) != 0 ||
    (flags &&& userProtWrite != 0 && flags &&& userProtExec != 0)

variable (space : AddressSpace)

namespace AddressSpace

def sysMmap (supply : Supply) (addr len : Nat) (flags : UInt64) : Option Nat × AddressSpace :=
  if addr = 0 ∨ len = 0 then (none, space)
  else if refusedFlags flags then (none, space)
  else
    match lenAligned len with
    | none => (none, space)
    | some lenAligned =>
      if validUserAddressRange addr lenAligned (maxUserBuffer * 64) = false ∨
          validUserMmapRange addr lenAligned = false then (none, space)
      else if lenAligned > maxUserMmapBytesPerCall then (none, space)
      else if space.canAddOwnedPages (lenAligned / 4096) = false then (none, space)
      else
        match space.mapRegion supply addr lenAligned (protFlags flags) with
        | (none, space) => (some addr, space)
        | (some _, space) => (none, space)

def sysMprotect (addr len : Nat) (flags : UInt64) : Option Nat × AddressSpace :=
  if addr = 0 ∨ len = 0 ∨ addr % 4096 ≠ 0 then (none, space)
  else if refusedFlags flags then (none, space)
  else
    match lenAligned len with
    | none => (none, space)
    | some lenAligned =>
      if validUserAddressRange addr lenAligned (maxUserBuffer * 64) = false ∨
          validUserMmapRange addr lenAligned = false then (none, space)
      else
        match space.protectRegion addr lenAligned (protFlags flags) with
        | (none, space) => (some 0, space)
        | (some _, space) => (none, space)

/-- The loop of `sys_mmap_file`; `data` is what the file gives for an offset. -/
def mapFilePages (supply : Supply) (data : Nat -> Option (Nat -> UInt8))
    (flags : PageTableFlags) : Nat -> Nat -> Nat -> AddressSpace -> Bool × AddressSpace
  | 0, _, _, space => (true, space)
  | count + 1, page, fileOffset, space =>
    if fileOffset ≥ 2 ^ 64 then (false, space)
    else
      match supply.frame page with
      | none => (false, space)
      | some frame =>
        match data fileOffset with
        | none => (false, space.zeroFrame frame)
        | some content =>
          let filled := { space with bytes := Function.update space.bytes frame content }
          match filled.mapOwnedFrameIn supply page frame flags with
          | .error _ => (false, filled)
          | .ok space => mapFilePages supply data flags count (page + 1) (fileOffset + 4096) space

def sysMmapFile (supply : Supply)
    (data : Nat -> Option (Nat -> UInt8)) (addr len fileOffset : Nat) (flags : UInt64) :
    Option Nat × AddressSpace :=
  if addr = 0 ∨ len = 0 ∨ addr % 4096 ≠ 0 ∨ fileOffset % 4096 ≠ 0 then (none, space)
  else if flags &&& ~~~userProtExec != 0 then (none, space)
  else
    match lenAligned len with
    | none => (none, space)
    | some lenAligned =>
      if validUserAddressRange addr lenAligned (maxUserBuffer * 64) = false ∨
          validUserMmapRange addr lenAligned = false then (none, space)
      else if lenAligned > maxUserMmapBytesPerCall then (none, space)
      else if space.canAddOwnedPages (lenAligned / 4096) = false then (none, space)
      else
        match mapFilePages supply data ⟨true, false, true, flags &&& userProtExec == 0⟩
            (lenAligned / 4096) (addr / 4096) fileOffset space with
        | (true, space) => (some addr, space)
        | (false, space) => (none, space)

/-- The loop of `vfs_shmem_map`: a page that cannot be mapped must be accessible. -/
def mapSharedPages (supply : Supply) : List Nat -> Nat -> AddressSpace -> Bool × AddressSpace
  | [], _, space => (true, space)
  | frame :: rest, virt, space =>
    match space.mapPageIn supply (virt / 4096) frame dataFlags with
    | .ok space => mapSharedPages supply rest (virt + 4096) space
    | .error _ =>
      if space.userRangeAccessible virt 1 true then mapSharedPages supply rest (virt + 4096) space
      else (false, space)

/-- Map the frames of a region at the address of its window; `frames` is the region
if it exists and the limit of the task allows it. -/
def sysShmemMap (supply : Supply) (addr : Nat)
    (frames : Option (List Nat)) : Option Nat × AddressSpace :=
  match frames with
  | none => (none, space)
  | some frames =>
    match mapSharedPages supply frames addr space with
    | (true, space) => (some addr, space)
    | (false, space) => (none, space)

def validUserTlsBase (base : Nat) : Bool :=
  base == 0 || (base % 8 == 0 && validUserAddressRange base 8 8 &&
    space.userRangeAccessible base 8 true)

/-- Map the stack of a new thread; `slot` is the stack slot the scheduler finds if a
task can be spawned, and `spawned` what it answers in the end. -/
def sysThreadSpawnCommon (supply : Supply) (entry tlsBase : Nat)
    (flags : UInt64) (slot spawned : Option Nat) : Option Nat × AddressSpace :=
  if flags != 0 || entry == 0 || !validUserAddressRange entry 1 1 ||
      !space.userRangeAccessible entry 1 false || !space.validUserTlsBase tlsBase then (none, space)
  else
    match slot.bind userThreadStackRange with
    | none => (none, space)
    | some (stackBottom, stackTop) =>
      if space.canAddOwnedPages (userStackSize / 4096) = false then (none, space)
      else
        match space.mapRegion supply stackBottom userStackSize dataFlags with
        | (some _, space) => (none, space)
        | (none, space) =>
          let userRsp := stackTop - 8
          if (validUserAddressRange userRsp 8 8 && space.userRangeAccessible userRsp 8 true) =
              false then (none, space)
          else
            match space.ptes (userRsp / 4096) with
            | none => (none, space)
            | some pte =>
              (spawned, space.writeFrame pte.frame (userRsp / 4096 * 4096) (writeU64 userRsp 0))

end AddressSpace

/-- A memory call with everything it learns from elsewhere. -/
inductive MemoryCall where
  | mmap (supply : Supply) (addr len : Nat) (flags : UInt64)
  | mprotect (addr len : Nat) (flags : UInt64)
  | mmapFile (supply : Supply) (data : Nat -> Option (Nat -> UInt8)) (addr len fileOffset : Nat)
      (flags : UInt64)
  | shmemMap (supply : Supply) (addr : Nat) (frames : Option (List Nat))
  | threadSpawn (supply : Supply) (entry tlsBase : Nat) (flags : UInt64)
      (slot spawned : Option Nat)

def MemoryCall.perform : MemoryCall -> AddressSpace
  | mmap supply addr len flags => (space.sysMmap supply addr len flags).2
  | mprotect addr len flags => (space.sysMprotect addr len flags).2
  | mmapFile supply data addr len fileOffset flags =>
    (space.sysMmapFile supply data addr len fileOffset flags).2
  | shmemMap supply addr frames => (space.sysShmemMap supply addr frames).2
  | threadSpawn supply entry tlsBase flags slot spawned =>
    (space.sysThreadSpawnCommon supply entry tlsBase flags slot spawned).2

def runMemory (calls : List MemoryCall) : AddressSpace :=
  calls.foldl MemoryCall.perform space

open AddressSpace Function List

/-!
## Plans of the memory calls

Once its checks have passed, a memory call gives one page after the other a new entry.  It
stops at the first page it cannot deal with and undoes nothing.
-/

/-- A loop has ended at an index with the invariant of that index: it could deal with all
before it, and either there are no more or it cannot deal with this one. -/
def EndsIn {State : Type} (Reached : Nat -> State -> Prop) (can : Nat -> Bool) (total : Nat)
    (outcome : Bool × State) : Prop :=
  Exists fun done => Reached done outcome.2 ∧
    (∀ earlier < done, can earlier = true) ∧
    (outcome.1 = true ∧ done = total ∨ outcome.1 = false ∧ done < total ∧ can done = false)

/-- A loop whose turns keep the invariant ends with it. -/
theorem loop_ends {State : Type} {loop : Nat -> Nat -> State -> Bool × State}
    {Reached : Nat -> State -> Prop} {can : Nat -> Bool} {total : Nat}
    (zero : ∀ index state, loop 0 index state = (true, state))
    (succ : ∀ count index state, index < total -> Reached index state ->
      can index = true ∧ (∃ after, Reached (index + 1) after ∧
        loop (count + 1) index state = loop count (index + 1) after) ∨
      can index = false ∧ ∃ after, Reached index after ∧
        loop (count + 1) index state = (false, after))
    (count : Nat) {index : Nat} {state : State} (rest : index + count = total)
    (reached : Reached index state) (could : ∀ earlier < index, can earlier = true) :
    EndsIn Reached can total (loop count index state) := by
  induction count generalizing index state with
  | zero =>
    rw [zero]
    exact ⟨index, reached, could, .inl ⟨rfl, rest⟩⟩
  | succ count ih =>
    rcases succ count index state (by omega) reached with
      ⟨able, after, later, same⟩ | ⟨unable, after, later, same⟩ <;> rw [same]
    · refine ih (by omega) later fun earlier before => ?_
      rcases Nat.lt_succ_iff_lt_or_eq.mp before with less | rfl
      · exact could earlier less
      · exact able
    · exact ⟨index, later, could, .inr ⟨rfl, by omega, unable⟩⟩

/-- The pages before an index have new flags and frames, each so many frames of its own. -/
structure Changed (space : AddressSpace) (flags : PageTableFlags) (frame : Nat -> Option Nat)
    (each page index : Nat) (after : AddressSpace) : Prop where
  ptes : forall other, after.ptes other = if page <= other ∧ other < page + index then
    (frame other).map (fun frame => ⟨frame, flags⟩) else space.ptes other
  frames : Exists fun frames => after.leafFrames = space.leafFrames ++ frames ∧
    frames.length = each * index

/-- The pages with their frames and protection and the owned frames are as before. -/
def Untouched (before after : AddressSpace) : Prop :=
  after.ptes = before.ptes ∧ after.leafFrames = before.leafFrames

variable {space after : AddressSpace} {flags : PageTableFlags} {frame : Nat -> Option Nat}
  {each page index : Nat} {supply : Supply}

namespace Changed

theorem refl : Changed space flags frame each page 0 space :=
  ⟨fun _ => (if_neg (by omega)).symm, [], (append_nil _).symm, rfl⟩

variable (changed : Changed space flags frame each page index after)
include changed

theorem filled (bytes : Nat -> Nat -> UInt8) :
    Changed space flags frame each page index { after with bytes := bytes } :=
  ⟨changed.ptes, changed.frames⟩

theorem step {next : AddressSpace}
    {frames : List Nat} (ptes : next.ptes = update after.ptes (page + index)
      ((frame (page + index)).map (fun frame => ⟨frame, flags⟩)))
    (owned : next.leafFrames = after.leafFrames ++ frames) (size : frames.length = each) :
    Changed space flags frame each page (index + 1) next := by
  rcases changed.frames with ⟨earlier, before, sizes⟩
  refine ⟨fun other => ?_, earlier ++ frames, by rw [owned, before, append_assoc], by
    rw [length_append, sizes, size, Nat.mul_succ]⟩
  rw [ptes]
  by_cases here : other = page + index
  · rw [here, update_self, if_pos (by omega)]
  · rw [update_of_ne here, changed.ptes]
    exact if_congr (by omega) rfl rfl

theorem untouched_iff :
    Untouched space after <-> ∀ other < index,
      each = 0 ∧ (frame (page + other)).map (fun frame => ⟨frame, flags⟩) =
        space.ptes (page + other) := by
  rcases changed.frames with ⟨frames, owned, size⟩
  constructor
  · rintro ⟨ptes, leaves⟩ other inside
    rw [owned] at leaves
    rw [append_right_eq_self.mp leaves, length_nil, eq_comm, Nat.mul_eq_zero] at size
    have same := changed.ptes (page + other)
    rw [if_pos (by omega), ptes] at same
    exact ⟨size.resolve_right (by omega), same.symm⟩
  · intro kept
    constructor
    · funext other
      rw [changed.ptes]
      split
      · rename_i inside
        rcases Nat.exists_eq_add_of_le inside.1 with ⟨offset, rfl⟩
        exact (kept offset (by omega)).2
      · rfl
    · have none : each * index = 0 := by
        cases index with
        | zero => rfl
        | succ index => rw [(kept 0 (by omega)).1, Nat.zero_mul]
      rw [owned, eq_nil_of_length_eq_zero (size.trans none), append_nil]

end Changed

namespace AddressSpace

variable (space)

/-- There is a frame for the page and memory for its tables, and nothing is mapped there. -/
def mappable (supply : Supply) (page : Nat) : Bool :=
  (supply.frame page).isSome && ((space.ptes page).isNone && supply.tables page)

/-- The page can be mapped, and the file gives its bytes. -/
def loadable (supply : Supply) (data : Nat -> Option (Nat -> UInt8))
    (page offset : Nat) : Bool :=
  decide (offset < 2 ^ 64) && (data offset).isSome && space.mappable supply page

/-- A page whose protection can be changed. -/
def protectable (page : Nat) : Bool :=
  (space.ptes page).any (fun pte => entryAllows pte.flags false)

end AddressSpace

theorem mapOwnedFrameIn_changed {frame total : Nat}
    (changed : Changed space flags supply.frame 1 page index after)
    (given : supply.frame (page + index) = some frame) (less : index < total)
    (room : space.canAddOwnedPages total = true) :
    space.mappable supply (page + index) = true ∧ (∃ next,
        Changed space flags supply.frame 1 page (index + 1) next ∧
        after.mapOwnedFrameIn supply (page + index) frame flags = .ok next) ∨
      space.mappable supply (page + index) = false ∧ ∃ reason,
        after.mapOwnedFrameIn supply (page + index) frame flags = .error reason := by
  rcases changed.frames with ⟨frames, owned, size⟩
  have same : after.ptes (page + index) = space.ptes (page + index) := by
    rw [changed.ptes, if_neg (by omega)]
  rw [canAddOwnedPages, decide_eq_true_eq] at room
  have fits : after.leafFrames.length + 1 <= maxUserAddressSpacePages := by
    rw [owned, length_append]
    omega
  simp only [mapOwnedFrameIn, canAddOwnedPages, fits, mapPageIn, same, mappable, given]
  by_cases taken : ((space.ptes (page + index)).isSome || !supply.tables (page + index)) = true
  · exact .inr ⟨by cases held : space.ptes (page + index) <;> simp_all, by simp [taken]⟩
  · refine .inl ⟨by cases held : space.ptes (page + index) <;> simp_all, ?_⟩
    simp only [taken, decide_true, Bool.true_eq_false, if_false]
    exact ⟨_, changed.step (by simp [given]) rfl rfl, rfl⟩

theorem mapRegion_ends {virt len : Nat}
    (room : space.canAddOwnedPages ((len + 4095) / 4096) = true) :
    EndsIn (Changed space flags supply.frame 1 (virt / 4096))
      (fun index => space.mappable supply (virt / 4096 + index)) ((len + 4095) / 4096)
      ((space.mapRegion supply virt len flags).1.isNone,
        (space.mapRegion supply virt len flags).2) := by
  rw [mapRegion, room, if_neg (by decide)]
  refine @loop_ends AddressSpace (fun count index state =>
    ((mapPages supply flags count (virt / 4096 + index) state).1.isNone,
      (mapPages supply flags count (virt / 4096 + index) state).2)) _ _ _ (fun _ _ => rfl)
    (fun count index state less changed => ?_) _ 0 space (Nat.zero_add _) .refl nofun
  rw [mapPages]
  cases given : supply.frame (virt / 4096 + index) with
  | none => exact .inr ⟨by simp [mappable, given], state, changed, rfl⟩
  | some frame =>
    have zeroed := changed.filled (update state.bytes frame fun _ => 0)
    rcases mapOwnedFrameIn_changed zeroed given less room with
      ⟨able, next, later, same⟩ | ⟨unable, reason, same⟩ <;> simp only [zeroFrame, same]
    · exact .inl ⟨able, next, later, rfl⟩
    · exact .inr ⟨unable, _, zeroed, rfl⟩

theorem mapFilePages_ends {data : Nat -> Option (Nat -> UInt8)} {count : Nat} (page offset : Nat)
    (room : space.canAddOwnedPages count = true) : EndsIn (Changed space flags supply.frame 1 page)
      (fun index => space.loadable supply data (page + index) (offset + 4096 * index)) count
      (mapFilePages supply data flags count page offset space) := by
  refine @loop_ends AddressSpace (fun count index =>
      mapFilePages supply data flags count (page + index) (offset + 4096 * index)) _ _ _
    (fun _ _ => rfl) (fun count index state less changed => ?_) _ 0 space (Nat.zero_add _)
    .refl nofun
  rw [mapFilePages, loadable, Nat.mul_succ, <- Nat.add_assoc offset]
  by_cases large : offset + 4096 * index ≥ 2 ^ 64
  · rw [if_pos large]
    exact .inr ⟨by rw [decide_eq_false (Nat.not_lt.mpr large)]; rfl, state, changed, rfl⟩
  rw [if_neg large, decide_eq_true (Nat.lt_of_not_le large)]
  cases given : supply.frame (page + index) with
  | none => exact .inr ⟨by simp [mappable, given], state, changed, rfl⟩
  | some frame =>
    cases data (offset + 4096 * index) with
    | none => exact .inr ⟨rfl, _, changed.filled _, rfl⟩
    | some content =>
      have filled := changed.filled (update state.bytes frame content)
      rcases mapOwnedFrameIn_changed filled given less room with
        ⟨able, next, later, same⟩ | ⟨unable, reason, same⟩ <;> simp only [same]
      · exact .inl ⟨able, next, later, rfl⟩
      · exact .inr ⟨unable, _, filled, rfl⟩

theorem protectPages_ends (count page : Nat) :
    EndsIn (Changed space flags (fun page => (space.ptes page).map Pte.frame) 0 page)
      (fun index => space.protectable (page + index)) count
      ((protectPages flags count page space).1.isNone,
        (protectPages flags count page space).2) := by
  refine @loop_ends AddressSpace (fun count index state =>
    ((protectPages flags count (page + index) state).1.isNone,
      (protectPages flags count (page + index) state).2)) _ _ _ (fun _ _ => rfl)
    (fun count index state less changed => ?_) _ 0 space (Nat.zero_add _) .refl nofun
  have same : state.ptes (page + index) = space.ptes (page + index) := by
    rw [changed.ptes, if_neg (by omega)]
  rw [protectPages, protectPageIn, same, protectable]
  cases held : space.ptes (page + index) with
  | none => exact .inr ⟨rfl, state, changed, rfl⟩
  | some pte =>
    dsimp only [Option.any_some]
    cases entryAllows pte.flags false with
    | false => exact .inr ⟨rfl, state, changed, rfl⟩
    | true =>
      have next := @Changed.step _ _ _ _ 0 _ _ changed
        { state with ptes := update state.ptes (page + index) (some ⟨pte.frame, flags⟩) } []
        (by simp [held]) (append_nil _).symm rfl
      exact .inl ⟨rfl, _, next, rfl⟩

/-- What a call does once its checks have passed: the pages, their flags and frames, how many
frames each needs, whether a page can be dealt with, and whether all goes well after the last. -/
structure Plan where
  page : Nat
  count : Nat
  flags : PageTableFlags
  frame : Nat -> Option Nat
  each : Nat
  can : Nat -> Bool
  succeeds : Bool

/-- A plan for a range that passes the checks, made from its length in whole pages. -/
def ranged (addr len : Nat) (plan : Nat -> Option Plan) : Option Plan :=
  match lenAligned len with
  | none => none
  | some aligned =>
    if validUserAddressRange addr aligned (maxUserBuffer * 64) = false ∨
        validUserMmapRange addr aligned = false then none
    else plan aligned

variable (space)

/-- The plan for a range of new pages, if the limits allow it. -/
def AddressSpace.mapping (addr len : Nat) (flags : PageTableFlags)
    (supply : Supply) (can : Nat -> Bool) : Option Plan :=
  ranged addr len fun aligned =>
    if aligned > maxUserMmapBytesPerCall then none
    else if space.canAddOwnedPages (aligned / 4096) = false then none
    else some ⟨addr / 4096, aligned / 4096, flags, supply.frame, 1, can, true⟩

/-- The plan of a call, if its checks pass.  Shared memory is not mapped by plan. -/
def MemoryCall.plan : MemoryCall -> Option Plan
  | mmap supply addr len flags =>
    if addr = 0 ∨ len = 0 then none
    else if refusedFlags flags then none
    else space.mapping addr len (protFlags flags) supply fun index =>
      space.mappable supply (addr / 4096 + index)
  | mprotect addr len flags =>
    if addr = 0 ∨ len = 0 ∨ addr % 4096 ≠ 0 then none
    else if refusedFlags flags then none
    else ranged addr len fun aligned => some ⟨addr / 4096, aligned / 4096,
      protFlags flags, fun page => (space.ptes page).map Pte.frame, 0,
      fun index => space.protectable (addr / 4096 + index), true⟩
  | mmapFile supply data addr len offset flags =>
    if addr = 0 ∨ len = 0 ∨ addr % 4096 ≠ 0 ∨ offset % 4096 ≠ 0 then none
    else if flags &&& ~~~userProtExec != 0 then none
    else space.mapping addr len ⟨true, false, true, flags &&& userProtExec == 0⟩ supply fun index =>
      space.loadable supply data (addr / 4096 + index) (offset + 4096 * index)
  | shmemMap _ _ _ => none
  | threadSpawn supply entry tlsBase flags slot spawned =>
    if flags != 0 || entry == 0 || !validUserAddressRange entry 1 1 ||
        !space.userRangeAccessible entry 1 false || !space.validUserTlsBase tlsBase then none
    else (slot.bind userThreadStackRange).bind fun range =>
      if space.canAddOwnedPages (userStackSize / 4096) = false then none
      else some ⟨range.1 / 4096, userStackSize / 4096, dataFlags, supply.frame, 1,
        fun index => space.mappable supply (range.1 / 4096 + index), spawned.isSome⟩

/-- A call refused by its checks does nothing.  Otherwise it succeeds if it gets through all
pages of its plan and nothing goes wrong after that. -/
def Follows (plan : Option Plan) (outcome : Option Nat × AddressSpace) :
    Prop :=
  match plan with
  | none => outcome = (none, space)
  | some plan => Exists fun complete => outcome.1.isSome = (complete && plan.succeeds) ∧
    EndsIn (Changed space plan.flags plan.frame plan.each plan.page) plan.can plan.count
      (complete, outcome.2)

variable {space}

variable {plan : Option Plan} {outcome : Option Nat × AddressSpace} {addr len : Nat}

theorem follows_ite {refused : Prop} [Decidable refused]
    (next : ¬ refused -> Follows space plan outcome) :
    Follows space (if refused then none else plan) (if refused then (none, space) else outcome) := by
  by_cases stops : refused
  · rw [if_pos stops, if_pos stops]
    rfl
  · rw [if_neg stops, if_neg stops]
    exact next stops

variable (space)

theorem sysMmap_follows (supply : Supply) (addr len : Nat)
    (flags : UInt64) : Follows space ((MemoryCall.mmap supply addr len flags).plan space)
      (space.sysMmap supply addr len flags) := by
  refine follows_ite fun _ => follows_ite fun _ => ?_
  unfold mapping ranged
  generalize lenAligned len = rounded
  cases rounded with
  | none => rfl
  | some aligned =>
    refine follows_ite fun passes => follows_ite fun _ => follows_ite fun room => ?_
    simp only [validUserMmapRange, not_or, Bool.not_eq_false, Bool.and_eq_true, beq_iff_eq]
      at passes room
    have whole : (aligned + 4095) / 4096 = aligned / 4096 := by omega
    rw [<- whole] at room ⊢
    have ends := @mapRegion_ends space (protFlags flags) supply addr aligned room
    generalize space.mapRegion supply addr aligned (protFlags flags) = outcome at ends ⊢
    rcases outcome with ⟨_ | _, after⟩
    · exact ⟨_, rfl, ends⟩
    · exact ⟨_, rfl, ends⟩

theorem sysMmapFile_follows (supply : Supply)
    (data : Nat -> Option (Nat -> UInt8)) (addr len offset : Nat) (flags : UInt64) :
    Follows space ((MemoryCall.mmapFile supply data addr len offset flags).plan space)
      (space.sysMmapFile supply data addr len offset flags) := by
  refine follows_ite fun _ => follows_ite fun _ => ?_
  unfold mapping ranged
  generalize lenAligned len = rounded
  cases rounded with
  | none => rfl
  | some aligned =>
    refine follows_ite fun _ => follows_ite fun _ => follows_ite fun room => ?_
    have ends := @mapFilePages_ends space ⟨true, false, true, flags &&& userProtExec == 0⟩
      supply data _ (addr / 4096) offset (Bool.not_eq_false _ ▸ room)
    generalize mapFilePages supply data _ _ _ _ space = outcome at ends ⊢
    rcases outcome with ⟨_ | _, after⟩
    · exact ⟨_, rfl, ends⟩
    · exact ⟨_, rfl, ends⟩

theorem sysMprotect_follows (addr len : Nat) (flags : UInt64) :
    Follows space ((MemoryCall.mprotect addr len flags).plan space)
      (space.sysMprotect addr len flags) := by
  refine follows_ite fun _ => follows_ite fun _ => ?_
  unfold ranged
  generalize lenAligned len = rounded
  cases rounded with
  | none => rfl
  | some aligned =>
    refine follows_ite fun passes => ?_
    simp only [validUserMmapRange, not_or, Bool.not_eq_false, Bool.and_eq_true, beq_iff_eq,
      bne_iff_ne, decide_eq_true_eq] at passes
    rw [protectRegion, if_neg (by omega), if_neg (by omega)]
    have ends := @protectPages_ends space (protFlags flags) (aligned / 4096) (addr / 4096)
    generalize protectPages (protFlags flags) _ _ space = outcome at ends ⊢
    rcases outcome with ⟨_ | _, after⟩
    · exact ⟨_, rfl, ends⟩
    · exact ⟨_, rfl, ends⟩

/-- The top page of the stack is mapped, so the word at its top can be written. -/
theorem sysThreadSpawnCommon_follows (supply : Supply)
    (entry tlsBase : Nat) (flags : UInt64) (slot spawned : Option Nat) :
    Follows space ((MemoryCall.threadSpawn supply entry tlsBase flags slot spawned).plan space)
      (space.sysThreadSpawnCommon supply entry tlsBase flags slot spawned) := by
  refine follows_ite fun _ => ?_
  cases located : slot.bind userThreadStackRange with
  | none => rfl
  | some range =>
    refine follows_ite fun room => ?_
    have ends := @mapRegion_ends space dataFlags supply range.1 userStackSize
      (Bool.not_eq_false _ ▸ room)
    generalize space.mapRegion supply range.1 userStackSize dataFlags = outcome at ends ⊢
    rcases outcome with ⟨_ | _, after⟩
    · rcases ends with ⟨done, changed, could, ⟨_, all⟩ | ⟨part, _⟩⟩
      · have placed : range.2 = range.1 + 65536 ∧ range.1 % 4096 = 0 ∧ range.1 < 0x7fff10000000 := by
          rcases Option.bind_eq_some_iff.mp located with ⟨number, _, given⟩
          simp only [userThreadStackRange] at given
          split at given
          · cases given
          split at given
          · cases given
          · cases given
            rename_i small _
            simp only [userThreadStackSlots] at small
            dsimp only [userThreadStackBase, userThreadStackSlotSize, userStackSize]
            omega
        have page : (range.2 - 8) / 4096 = range.1 / 4096 + 15 := by omega
        have held := could 15 (by rw [all]; decide)
        simp only [mappable, Bool.and_eq_true, Option.isSome_iff_exists] at held
        rcases held.1 with ⟨frame, given⟩
        have top : after.ptes ((range.2 - 8) / 4096) = some ⟨frame, dataFlags⟩ := by
          rw [page, changed.ptes, if_pos (by
            rw [all]
            exact ⟨Nat.le_add_right _ _, Nat.add_lt_add_left (by decide) _⟩), given]
          rfl
        have one : (range.2 - 8 + (8 - 1)) / 4096 + 1 - (range.2 - 8) / 4096 = 1 := by omega
        have access : (validUserAddressRange (range.2 - 8) 8 8 &&
            after.userRangeAccessible (range.2 - 8) 8 true) = true := by
          rw [validUserAddressRange, userRangeAccessible, one]
          simp [top, entryAllows, dataFlags]
          omega
        dsimp only
        rw [access, if_neg (by decide), top]
        exact ⟨true, (Bool.true_and _).symm, done, changed.filled _, could, .inl ⟨rfl, all⟩⟩
      · cases part
    · exact ⟨_, rfl, ends⟩

/-! ## All or nothing -/

/-- A call whose checks pass can deal with every page and nothing goes wrong after that, or
the pages it changes before it fails have the same entries already. -/
def MemoryCall.Clean (call : MemoryCall) : Prop :=
  forall plan, call.plan space = some plan ->
    (∀ index < plan.count, plan.can index = true) ∧ plan.succeeds = true ∨
      ∀ index < plan.count,
        (forall earlier, earlier <= index -> plan.can earlier = true) -> plan.each = 0 ∧
          (plan.frame (plan.page + index)).map (fun frame => ⟨frame, plan.flags⟩) =
            space.ptes (plan.page + index)

/-- A call that gives no value has left the address space as it was. -/
def Atomic (outcome : Option Nat × AddressSpace) : Prop :=
  outcome.1 = none -> Untouched space outcome.2

variable {space}

theorem Follows.atomic_iff {call : MemoryCall} (follows : Follows space (call.plan space) outcome) :
    Atomic space outcome <-> call.Clean space := by
  unfold MemoryCall.Clean
  generalize call.plan space = plan at follows ⊢
  cases plan with
  | none =>
    cases follows
    exact iff_of_true (fun _ => ⟨rfl, rfl⟩) nofun
  | some steps =>
    rcases follows with ⟨complete, result, done, changed, could, ends⟩
    rw [Atomic, <- Option.isNone_iff_eq_none, <- Option.not_isSome, result, changed.untouched_iff]
    simp only [Option.some.injEq, forall_eq']
    rcases ends with ⟨rfl, rfl⟩ | ⟨rfl, less, cannot⟩
    · cases steps.succeeds with
      | true => exact iff_of_true nofun (.inl ⟨could, rfl⟩)
      | false =>
        constructor
        · intro kept
          exact .inr fun index inside _ => kept rfl index inside
        · rintro (⟨_, impossible⟩ | kept) _ index inside
          · cases impossible
          · exact kept index inside fun earlier before => could earlier (by omega)
    · constructor
      · intro kept
        refine .inr fun index inside before => kept rfl index ?_
        by_contra later
        cases cannot.symm.trans (before done (by omega))
      · rintro (⟨all, _⟩ | kept) _ index inside
        · cases cannot.symm.trans (all done less)
        · exact kept index (by omega) fun earlier before => could earlier (by omega)

/-- A call is all or nothing exactly if its plan is clean. -/
theorem memory_calls_atomic_iff (space : AddressSpace) :
    (forall supply addr len flags, Atomic space (space.sysMmap supply addr len flags) <->
      (MemoryCall.mmap supply addr len flags).Clean space) ∧
    (forall supply data addr len offset flags,
      Atomic space (space.sysMmapFile supply data addr len offset flags) <->
        (MemoryCall.mmapFile supply data addr len offset flags).Clean space) ∧
    (forall addr len flags, Atomic space (space.sysMprotect addr len flags) <->
      (MemoryCall.mprotect addr len flags).Clean space) ∧
    forall supply entry tlsBase flags slot spawned,
      Atomic space (space.sysThreadSpawnCommon supply entry tlsBase flags slot spawned) <->
        (MemoryCall.threadSpawn supply entry tlsBase flags slot spawned).Clean space :=
  ⟨fun supply addr len flags => (sysMmap_follows space supply addr len flags).atomic_iff,
    fun supply data addr len offset flags =>
      (sysMmapFile_follows space supply data addr len offset flags).atomic_iff,
    fun addr len flags => (sysMprotect_follows space addr len flags).atomic_iff,
    fun supply entry tlsBase flags slot spawned =>
      (sysThreadSpawnCommon_follows space supply entry tlsBase flags slot spawned).atomic_iff⟩

/-- The second page of a range is mapped already, so the call fails and the first one stays. -/
theorem sysMmap_leaves_page :
    let supply : Supply := ⟨some, fun _ => true⟩
    let space := (AddressSpace.fresh.sysMmap supply 0x7fff10001000 4096 1).2
    ¬ Atomic space (space.sysMmap supply 0x7fff10000000 8192 1) := by
  intro supply space atomic
  have same := congrFun (atomic (by decide)).1 0x7fff10000
  revert same
  decide

end CoolOs.Memory
