import Mathlib.Algebra.GroupWithZero.Nat
import Mathlib.Logic.Function.Basic

namespace CoolOs.Memory

/-!
# User address spaces

The user pages of one address space with their frames and protection, and the
operations of the virtual-memory manager on them.  Pages are numbered by their
address divided by 4096.  What the frame allocator gives is a parameter.
-/

@[simp] abbrev pageSize : Nat := 4096
@[simp] abbrev userTop : Nat := 0x800000000000
@[simp] abbrev userStackTop : Nat := 0x7fff00100000
@[simp] abbrev userStackSize : Nat := 64 * 1024
@[simp] abbrev userStackBottom : Nat := userStackTop - userStackSize
@[simp] abbrev userThreadStackBase : Nat := 0x7fff00200000
@[simp] abbrev userThreadStackSlotSize : Nat := 1024 * 1024
@[simp] abbrev userThreadStackSlots : Nat := 128
@[simp] abbrev userMmapBase : Nat := 0x7fff10000000
@[simp] abbrev userMmapTop : Nat := 0x7fff70000000
@[simp] abbrev maxUserAddressSpacePages : Nat := 16 * 1024 * 1024 / 4096
@[simp] abbrev maxUserMmapBytesPerCall : Nat := 4 * 1024 * 1024
@[simp] abbrev maxUserBuffer : Nat := 1024 * 1024

structure PageTableFlags where
  present : Bool
  writable : Bool
  userAccessible : Bool
  noExecute : Bool
  deriving DecidableEq

/-- Stacks and shared memory: data that cannot be executed. -/
def dataFlags : PageTableFlags := ⟨true, true, true, true⟩

/-- The guard page below the stack. -/
def guardFlags : PageTableFlags := ⟨true, false, false, true⟩

structure Pte where
  frame : Nat
  flags : PageTableFlags
  deriving DecidableEq

/-- The pages, the frames owned by the address space and the bytes of the frames. -/
structure AddressSpace where
  ptes : Nat -> Option Pte
  leafFrames : List Nat
  bytes : Nat -> Nat -> UInt8

/-- What the frame allocator gives for a page, and whether `map_to` gets as far as the last
level for it: there is memory for the tables on the way, and none of them is a large page. -/
structure Supply where
  frame : Nat -> Option Nat
  tables : Nat -> Bool

variable (space : AddressSpace)

namespace AddressSpace

/-- `new_process_pml4`: no page is accessible to the user. -/
def fresh : AddressSpace where
  ptes := fun _ => none
  leafFrames := []
  bytes := fun _ _ => 0

/-- A frame from `alloc_zeroed_frame` holds zeros. -/
def zeroFrame (frame : Nat) : AddressSpace :=
  { space with bytes := Function.update space.bytes frame (fun _ => 0) }

def canAddOwnedPages (additionalPages : Nat) : Bool :=
  decide (space.leafFrames.length + additionalPages <= maxUserAddressSpacePages)

def mapPageIn (supply : Supply) (page frame : Nat)
    (flags : PageTableFlags) : Except String AddressSpace :=
  if (space.ptes page).isSome || !supply.tables page then .error "map_to failed"
  else .ok { space with ptes := Function.update space.ptes page (some ⟨frame, flags⟩) }

def mapOwnedFrameIn (supply : Supply) (page frame : Nat)
    (flags : PageTableFlags) : Except String AddressSpace :=
  if space.canAddOwnedPages 1 = false then .error "address space resource limit"
  else
    match space.mapPageIn supply page frame flags with
    | .error reason => .error reason
    | .ok space => .ok { space with leafFrames := space.leafFrames ++ [frame] }

/-- The loop of `map_region` over the pages that are left.  Pages mapped before a
failure stay. -/
def mapPages (supply : Supply) (flags : PageTableFlags) :
    Nat -> Nat -> AddressSpace -> Option String × AddressSpace
  | 0, _, space => (none, space)
  | count + 1, page, space =>
    match supply.frame page with
    | none => (some "out of frames", space)
    | some frame =>
      match (space.zeroFrame frame).mapOwnedFrameIn supply page frame flags with
      | .error reason => (some reason, space.zeroFrame frame)
      | .ok space => mapPages supply flags count (page + 1) space

def mapRegion (supply : Supply) (virt len : Nat)
    (flags : PageTableFlags) : Option String × AddressSpace :=
  let pages := (len + 4095) / 4096
  if space.canAddOwnedPages pages = false then (some "address space resource limit", space)
  else mapPages supply flags pages (virt / 4096) space

/-- An entry that the user may use. -/
def entryAllows (flags : PageTableFlags) (writable : Bool) : Bool :=
  flags.present && flags.userAccessible && (!writable || flags.writable)

def protectPageIn (page : Nat) (flags : PageTableFlags) : Except String AddressSpace :=
  match space.ptes page with
  | none => .error "missing user p1 entry"
  | some pte =>
    if entryAllows pte.flags false then
      .ok { space with ptes := Function.update space.ptes page (some ⟨pte.frame, flags⟩) }
    else .error "missing user p1 entry"

def protectPages (flags : PageTableFlags) :
    Nat -> Nat -> AddressSpace -> Option String × AddressSpace
  | 0, _, space => (none, space)
  | count + 1, page, space =>
    match space.protectPageIn page flags with
    | .error reason => (some reason, space)
    | .ok space => protectPages flags count (page + 1) space

def protectRegion (virt len : Nat) (flags : PageTableFlags) : Option String × AddressSpace :=
  if virt % 4096 ≠ 0 ∨ len = 0 ∨ len % 4096 ≠ 0 then
    (some "protection range is not page aligned", space)
  else if virt + len ≥ 2 ^ 64 then (some "range overflow", space)
  else protectPages flags (len / 4096) (virt / 4096) space

/-- Whether the user may access every byte of a range, by the flags of the entries of the last
level alone; `userRangeAccessibleIn` also looks at the tables above them. -/
def userRangeAccessible (ptr len : Nat) (writable : Bool) : Bool :=
  ptr != 0 && len != 0 && decide (ptr + (len - 1) < 2 ^ 64) && decide (ptr + (len - 1) < userTop) &&
    (List.range ((ptr + (len - 1)) / 4096 + 1 - ptr / 4096)).all (fun offset =>
      (space.ptes (ptr / 4096 + offset)).any (fun pte => entryAllows pte.flags writable))

end AddressSpace

def validUserAddressRange (ptr len maxLen : Nat) : Bool :=
  ptr != 0 && len != 0 && decide (len <= maxLen) && decide (ptr + len < 2 ^ 64) &&
    decide (ptr + len <= userTop) && decide (ptr < userTop)

def validUserMmapRange (addr lenAligned : Nat) : Bool :=
  addr % 4096 == 0 && lenAligned != 0 && lenAligned % 4096 == 0 &&
    decide (addr + lenAligned < 2 ^ 64) && decide (userMmapBase <= addr) &&
    decide (addr + lenAligned <= userMmapTop)

def userThreadStackRange (slot : Nat) : Option (Nat × Nat) :=
  if slot ≥ userThreadStackSlots then none
  else
    let bottom := userThreadStackBase + slot * userThreadStackSlotSize
    let top := bottom + userStackSize
    if top > userMmapBase then none else some (bottom, top)

/-!
## User pointers against the page tables

Before the kernel follows a user pointer it walks the page tables for every page of the
range.  The walk agrees with what the processor does on an access: every entry on the way
down, to the last level or to a huge page, must allow it.
-/

structure Entry where
  flags : PageTableFlags
  hugePage : Bool
  addr : Nat

/-- The page tables in physical memory, by their address. -/
abbrev PageTables := Nat -> Nat -> Entry

/-- The index of an address into a table; level 0 is the last one. -/
def tableIndex (level virt : Nat) : Nat := virt / 4096 / 512 ^ level % 512

def Entry.allows (entry : Entry) (writable : Bool) : Bool :=
  AddressSpace.entryAllows entry.flags writable

def userPageAccessibleIn (tables : PageTables) (pml4 virt : Nat) (writable : Bool) : Bool :=
  let l4 := tables pml4 (tableIndex 3 virt)
  if !l4.allows writable then false
  else
    let l3 := tables l4.addr (tableIndex 2 virt)
    if !l3.allows writable then false
    else if l3.hugePage then true
    else
      let l2 := tables l3.addr (tableIndex 1 virt)
      if !l2.allows writable then false
      else if l2.hugePage then true
      else (tables l2.addr (tableIndex 0 virt)).allows writable

/-- The loop over the pages.  The addition saturates, and the last page is a 64-bit
address, so the pages come to an end. -/
def pageLoop (accessible : Nat -> Bool) (lastPage : Fin (2 ^ 64)) (page : Nat) : Bool :=
  if !accessible page then false
  else if lastPage.val <= page then true
  else pageLoop accessible lastPage (min (page + 4096) (2 ^ 64 - 1))
termination_by lastPage.val - page
decreasing_by
  have := lastPage.isLt
  omega

def userRangeAccessibleIn (tables : PageTables) (pml4 ptr len : Nat) (writable : Bool) : Bool :=
  if ptr = 0 ∨ len = 0 then false
  else if ptr + (len - 1) ≥ 2 ^ 64 then false
  else if ptr + (len - 1) ≥ userTop then false
  else
    pageLoop (fun page => userPageAccessibleIn tables pml4 page writable)
      (Fin.ofNat (2 ^ 64) ((ptr + (len - 1)) / 4096 * 4096)) (ptr / 4096 * 4096)

/-- The entries an access to an address goes through, from a table of the given level. -/
inductive Walks (tables : PageTables) (virt : Nat) : Nat -> Nat -> List Entry -> Prop where
  | page (table : Nat) : Walks tables virt 0 table [tables table (tableIndex 0 virt)]
  | huge {level table : Nat} (middle : level = 1 ∨ level = 2)
      (leaf : (tables table (tableIndex level virt)).hugePage = true) :
      Walks tables virt level table [tables table (tableIndex level virt)]
  | down {level table : Nat} {rest : List Entry}
      (inner : level + 1 = 3 ∨ (tables table (tableIndex (level + 1) virt)).hugePage = false)
      (later : Walks tables virt level (tables table (tableIndex (level + 1) virt)).addr rest) :
      Walks tables virt (level + 1) table (tables table (tableIndex (level + 1) virt) :: rest)

/-- Every entry on the way to the byte is present, accessible to the user and, for a write,
writable. -/
def Reached (tables : PageTables) (pml4 virt : Nat) (writable : Bool) : Prop :=
  Exists fun path => Walks tables virt 3 pml4 path ∧
    ∀ entry ∈ path, entry.flags.present = true ∧
      entry.flags.userAccessible = true ∧ (writable = true -> entry.flags.writable = true)

section

variable {tables : PageTables} {virt : Nat} {writable : Bool}

theorem Entry.allows_iff {entry : Entry} :
    entry.allows writable = true <-> entry.flags.present = true ∧
      entry.flags.userAccessible = true ∧ (writable = true -> entry.flags.writable = true) := by
  cases writable <;> simp [Entry.allows, AddressSpace.entryAllows, and_assoc]

/-- Whether the walk from a table can go on to a byte. -/
def Open (tables : PageTables) (virt : Nat) (writable : Bool) (level table : Nat) : Prop :=
  Exists fun path => Walks tables virt level table path ∧
    ∀ entry ∈ path, entry.allows writable = true

theorem open_last (table : Nat) : Open tables virt writable 0 table <->
    (tables table (tableIndex 0 virt)).allows writable = true := by
  constructor
  · rintro ⟨path, walk, allowed⟩
    cases walk with
    | page => exact allowed _ List.mem_cons_self
    | huge middle => omega
  · exact fun allowed => ⟨_, .page table, fun entry member => List.mem_singleton.mp member ▸ allowed⟩

/-- One level down: the entry allows the access, and is a huge page or leads on. -/
theorem open_down (level table : Nat) (inner : level < 3) :
    Open tables virt writable (level + 1) table <->
      (tables table (tableIndex (level + 1) virt)).allows writable = true ∧
        (level + 1 ≠ 3 ∧ (tables table (tableIndex (level + 1) virt)).hugePage = true ∨
          (level + 1 = 3 ∨ (tables table (tableIndex (level + 1) virt)).hugePage = false) ∧
            Open tables virt writable level (tables table (tableIndex (level + 1) virt)).addr) := by
  constructor
  · rintro ⟨path, walk, allowed⟩
    cases walk with
    | huge middle leaf => exact ⟨allowed _ List.mem_cons_self, .inl ⟨by omega, leaf⟩⟩
    | down inner later =>
      exact ⟨allowed _ List.mem_cons_self, .inr ⟨inner, _, later, fun entry member =>
        allowed entry (List.mem_cons_of_mem _ member)⟩⟩
  · rintro ⟨allowed, ⟨middle, leaf⟩ | ⟨inner, path, walk, rest⟩⟩
    · exact ⟨_, .huge (by omega) leaf, fun entry member => List.mem_singleton.mp member ▸ allowed⟩
    · refine ⟨_, .down inner walk, fun entry member => ?_⟩
      rcases List.mem_cons.mp member with rfl | later
      · exact allowed
      · exact rest entry later

/-- The code's walk is that of the processor. -/
theorem userPageAccessibleIn_iff (pml4 : Nat) :
    userPageAccessibleIn tables pml4 virt writable = true <->
      Reached tables pml4 virt writable := by
  have same : Reached tables pml4 virt writable <-> Open tables virt writable 3 pml4 := by
    simp only [Reached, Open, Entry.allows_iff]
  rw [same, open_down 2 pml4 (by decide), open_down 1 _ (by decide), open_down 0 _ (by decide),
    open_last]
  unfold userPageAccessibleIn
  dsimp only
  cases (tables pml4 (tableIndex 3 virt)).allows writable <;> simp <;> grind

end

/-- The loop asks for every page from the first to the last. -/
theorem pageLoop_iff (accessible : Nat -> Bool) (lastPage : Fin (2 ^ 64)) (page : Nat)
    (aligned : 4096 ∣ page) (lastAligned : 4096 ∣ lastPage.val) (ordered : page <= lastPage.val) :
    pageLoop accessible lastPage page = true <->
      ∀ other, 4096 ∣ other -> page <= other -> other <= lastPage.val ->
        accessible other = true := by
  induction page using pageLoop.induct accessible lastPage with
  | case1 page refused =>
    rw [pageLoop, if_pos refused]
    refine iff_of_false nofun fun all => ?_
    simp [all page aligned (Nat.le_refl page) ordered] at refused
  | case2 page allowed done =>
    rw [pageLoop, if_neg allowed, if_pos done]
    refine iff_of_true rfl fun other _ after before => ?_
    have here : other = page := by omega
    simpa [here] using allowed
  | case3 page allowed more ih =>
    have small := lastPage.isLt
    have next : min (page + 4096) (2 ^ 64 - 1) = page + 4096 := by omega
    rw [pageLoop, if_neg allowed, if_neg more, next]
    rw [next] at ih
    rw [ih (by omega) (by omega)]
    constructor
    · intro rest other multiple after before
      by_cases here : other = page
      · simpa [here] using allowed
      · exact rest other multiple (by omega) before
    · exact fun all other multiple after before => all other multiple (by omega) before

/-- A walk depends on the page of the address only. -/
theorem reached_of_page {tables : PageTables} {pml4 left right : Nat} {writable : Bool}
    (same : left / 4096 = right / 4096) (reached : Reached tables pml4 left writable) :
    Reached tables pml4 right writable := by
  have index : ∀ level, tableIndex level left = tableIndex level right := by
    intro level
    rw [tableIndex, tableIndex, same]
  rw [<- userPageAccessibleIn_iff] at reached ⊢
  simpa only [userPageAccessibleIn, index] using reached

/-- The check accepts a range iff it is not empty, does not start at 0, ends below the user
limit without overflow, and the processor reaches every byte of it. -/
theorem userRangeAccessibleIn_iff (tables : PageTables) (pml4 ptr len : Nat) (writable : Bool) :
    userRangeAccessibleIn tables pml4 ptr len writable = true <->
      0 < len ∧ 0 < ptr ∧ ptr + (len - 1) < 2 ^ 64 ∧ ptr + (len - 1) < userTop ∧
        forall byte, ptr <= byte -> byte < ptr + len -> Reached tables pml4 byte writable := by
  unfold userRangeAccessibleIn
  iterate 3
    split
    · exact iff_of_false nofun (by omega)
  next filled inside below =>
    have last : (Fin.ofNat (2 ^ 64) ((ptr + (len - 1)) / 4096 * 4096)).val =
        (ptr + (len - 1)) / 4096 * 4096 := Nat.mod_eq_of_lt (by omega)
    rw [pageLoop_iff _ _ _ (Nat.dvd_mul_left ..) (by omega) (by omega), last]
    simp only [userPageAccessibleIn_iff]
    constructor
    · intro pages
      refine ⟨by omega, by omega, by omega, by omega, fun byte after before => ?_⟩
      exact reached_of_page (by omega)
        (pages (byte / 4096 * 4096) (Nat.dvd_mul_left ..) (by omega) (by omega))
    · rintro ⟨_, _, _, _, bytes⟩ page aligned after before
      -- the first byte of the range in this page
      exact reached_of_page (by omega) (bytes (max ptr page) (by omega) (by omega))

end CoolOs.Memory
