import Mathlib.Data.List.Nodup

namespace CoolOs.Memory

open List

/-!
# Physical frames

`BootInfoFrameAllocator` hands out the frames that were given back, and then those of the
usable regions in order.  A run of frames is searched from the next frame on; the frames
that the search passes over are not handed out any more.
-/

structure MemoryRegion where
  start : Nat
  finish : Nat
  usable : Bool

/-- A whole frame of the region. -/
def MemoryRegion.Covers (region : MemoryRegion) (frame : Nat) : Prop :=
  region.start <= frame ∧ frame + 4096 <= region.finish

/-- The start of the frame that contains an address. -/
def containingAddress (addr : Nat) : Nat := addr / 4096 * 4096

def MemoryRegion.frames (region : MemoryRegion) : List Nat :=
  (range' region.start ((region.finish - region.start + 4095) / 4096) 4096).map containingAddress

def usableFrames (regions : List MemoryRegion) : List Nat :=
  (regions.filter MemoryRegion.usable).flatMap MemoryRegion.frames

/-- The search; the run so far is its first index and frame, length and last address. -/
def searchRun (count : Nat) : List Nat -> Nat -> Nat × Nat × Nat × Nat -> Option (Nat × Nat)
  | [], _, _ => none
  | addr :: rest, idx, (start, first, len, last) =>
    let run := if len = 0 ∨ addr ≠ last + 4096 then (idx, addr, 1) else (start, first, len + 1)
    if run.2.2 = count then some (run.1 + count, run.2.1)
    else searchRun count rest (idx + 1) (run.1, run.2.1, run.2.2, addr)

structure FrameAllocator where
  memoryRegions : List MemoryRegion
  next : Nat := 0
  recycled : List Nat := []

namespace FrameAllocator

variable (frames : FrameAllocator)

def allocateFrame : Option Nat × FrameAllocator :=
  match frames.recycled with
  | frame :: rest => (some frame, { frames with recycled := rest })
  | [] => ((usableFrames frames.memoryRegions)[frames.next]?,
      { frames with next := frames.next + 1 })

def allocateContiguous (count : Nat) : Option Nat × FrameAllocator :=
  if count = 0 then (none, frames)
  else
    match searchRun count ((usableFrames frames.memoryRegions).drop frames.next) frames.next
        (0, 0, 0, 0) with
    | some (next, frame) => (some frame, { frames with next := next })
    | none => (none, frames)

def deallocateFrame (frame : Nat) : FrameAllocator :=
  { frames with recycled := frame :: frames.recycled }

/-- The addresses of a run of frames. -/
def runOf (count : Nat) (first : Option Nat) : List Nat :=
  first.toList.flatMap fun first => range' first count 4096

/-- Where the allocator comes, with which live frames, by calls that give back live ones. -/
inductive Reached (regions : List MemoryRegion) : FrameAllocator -> List Nat -> Prop where
  | init : Reached regions { memoryRegions := regions } []
  | one {frames live} : Reached regions frames live ->
    Reached regions frames.allocateFrame.2 (frames.allocateFrame.1.toList ++ live)
  | run {frames live} (count : Nat) : Reached regions frames live ->
    Reached regions (frames.allocateContiguous count).2
      (runOf count (frames.allocateContiguous count).1 ++ live)
  | free {frames live frame} : Reached regions frames live -> frame ∈ live ->
    Reached regions (frames.deallocateFrame frame) (live.erase frame)

/-- The usable regions consist of whole frames and do not overlap. -/
structure Laid (regions : List MemoryRegion) : Prop where
  aligned : ∀ region ∈ regions.filter MemoryRegion.usable,
    4096 ∣ region.start ∧ 4096 ∣ region.finish
  apart : (regions.filter MemoryRegion.usable).Pairwise fun first second =>
    first.finish <= second.start ∨ second.finish <= first.start

variable {frames} {regions : List MemoryRegion} {region : MemoryRegion} {live : List Nat}
  {frame : Nat}

theorem frames_eq (aligned : 4096 ∣ region.start) : region.frames =
    range' region.start ((region.finish - region.start + 4095) / 4096) 4096 := by
  rw [MemoryRegion.frames, map_congr_left, map_id]
  intro addr listed
  rcases mem_range'.mp listed with ⟨offset, _, rfl⟩
  rw [containingAddress, id]
  omega

theorem mem_frames (aligned : 4096 ∣ region.start ∧ 4096 ∣ region.finish)
    (listed : frame ∈ region.frames) : region.Covers frame := by
  rw [frames_eq aligned.1] at listed
  rcases mem_range'.mp listed with ⟨offset, few, rfl⟩
  rw [MemoryRegion.Covers]
  omega

theorem Laid.nodup (laid : Laid regions) : (usableFrames regions).Nodup := by
  refine nodup_flatMap.mpr ⟨fun region usable => ?_, laid.apart.imp_of_mem ?_⟩
  · rw [frames_eq (laid.aligned region usable).1]
    exact nodup_range' 4096
  · intro first second firstUsable secondUsable separate frame inFirst inSecond
    have left := mem_frames (laid.aligned first firstUsable) inFirst
    have right := mem_frames (laid.aligned second secondUsable) inSecond
    rw [MemoryRegion.Covers] at left right
    omega

theorem searchRun_some {all rest : List Nat} {base count idx start first len last : Nat}
    {found : Nat × Nat} (left : all.drop idx = rest) (passed : base <= idx)
    (known : len = 0 ∨ base <= start ∧ start + len = idx ∧
      (all.drop start).take len = range' first len 4096 ∧ last + 4096 = first + 4096 * len)
    (ran : searchRun count rest idx (start, first, len, last) = some found) :
    ∃ begun, base <= begun ∧ found.1 = begun + count ∧
      (all.drop begun).take count = range' found.2 count 4096 := by
  induction rest generalizing idx start first len last with
  | nil => cases ran
  | cons addr rest ih =>
    have later : all.drop (idx + 1) = rest := by rw [<- tail_drop, left, tail_cons]
    rw [searchRun] at ran
    -- the run that ends with this frame, a new one or the one so far
    generalize chosen : (if len = 0 ∨ addr ≠ last + 4096 then (idx, addr, 1)
      else (start, first, len + 1)) = run at ran
    have ended : base <= run.1 ∧ run.1 + run.2.2 = idx + 1 ∧
        (all.drop run.1).take run.2.2 = range' run.2.1 run.2.2 4096 ∧
        addr + 4096 = run.2.1 + 4096 * run.2.2 := by
      subst chosen
      split
      · exact ⟨passed, rfl, by rw [left]; rfl, rfl⟩
      · next joins =>
        rw [not_or, not_not] at joins
        rcases known.resolve_left joins.1 with ⟨low, ends, run, next⟩
        refine ⟨low, congrArg (· + 1) ends, ?_, ?_⟩
        · rw [take_add_one, run, getElem?_drop, ends, <- head?_drop, left, range'_concat, joins.2,
            next]
          rfl
        · rw [joins.2, next, Nat.mul_succ, Nat.add_assoc]
    split at ran
    · next whole =>
      cases ran
      exact ⟨run.1, ended.1, rfl, whole ▸ ended.2.2.1⟩
    · exact ih later (Nat.le_succ_of_le passed) (.inr ended) ran

/-- Different frames that come before the next one. -/
def Owned (regions : List MemoryRegion) (next : Nat) (held : List Nat) : Prop :=
  held.Nodup ∧ held ⊆ (usableFrames regions).take next

theorem Owned.extend (laid : Laid regions) {next begun : Nat} {held : List Nat}
    (owned : Owned regions next held) (later : next <= begun) (count : Nat) :
    Owned regions (begun + count) (((usableFrames regions).drop begun).take count ++ held) := by
  have early := Subset.trans owned.2 (take_subset_take_left (usableFrames regions) later)
  have whole : ((usableFrames regions).take (begun + count)).Nodup :=
    laid.nodup.sublist (take_sublist _ _)
  rw [take_add] at whole
  rw [Owned, take_add]
  refine ⟨nodup_append'.mpr ⟨whole.of_append_right, owned.1, ?_⟩, ?_⟩
  · exact fun frame new old => (disjoint_of_nodup_append whole) (early old) new
  · exact append_subset.mpr ⟨subset_append_right _ _, Subset.trans early (subset_append_left _ _)⟩

theorem Reached.owned (laid : Laid regions) (reached : Reached regions frames live) :
    frames.memoryRegions = regions ∧ Owned regions frames.next (live ++ frames.recycled) := by
  induction reached with
  | init => exact ⟨rfl, nodup_nil, nofun⟩
  | @one frames live _ known =>
    rcases known with ⟨same, owned⟩
    unfold allocateFrame
    split
    · next frame rest recycled =>
      rw [recycled] at owned
      have moved : live ++ frame :: rest ~ frame :: (live ++ rest) := perm_middle
      exact ⟨same, moved.nodup_iff.mp owned.1, fun other listed => owned.2 (moved.mem_iff.mpr listed)⟩
    · next recycled =>
      have more := owned.extend laid (Nat.le_refl _) 1
      rw [take_one, head?_drop, <- same, <- append_assoc] at more
      exact ⟨same, same ▸ more⟩
  | @run frames live count _ known =>
    rcases known with ⟨same, owned⟩
    unfold allocateContiguous
    split
    · exact ⟨same, owned⟩
    split
    · next ran =>
      rcases searchRun_some rfl (Nat.le_refl _) (.inl rfl) ran with ⟨begun, later, ends, run⟩
      have more := owned.extend laid later count
      rw [same] at run
      rw [run, <- ends, <- append_assoc] at more
      exact ⟨same, by simpa [runOf] using more⟩
    · exact ⟨same, owned⟩
  | @free frames live frame _ held known =>
    have moved : live.erase frame ++ frame :: frames.recycled ~ live ++ frames.recycled :=
      perm_middle.trans ((perm_cons_erase held).symm.append_right _)
    exact ⟨known.1, moved.nodup_iff.mpr known.2.1, fun other listed =>
      known.2.2 (moved.mem_iff.mp listed)⟩

/-- The frame lies in a usable region. -/
def Usable (regions : List MemoryRegion) (frame : Nat) : Prop :=
  ∃ region ∈ regions.filter MemoryRegion.usable, region.Covers frame

/-- Whatever was called before, the frames that a call hands out are usable and not live. -/
theorem allocated_frame_not_live (laid : Laid regions) (reached : Reached regions frames live)
    (given : frame ∈ frames.allocateFrame.1.toList ∨ Exists fun count =>
      frame ∈ runOf count (frames.allocateContiguous count).1) :
    Usable regions frame ∧ frame ∉ live := by
  have fresh {next : Nat} {new back : List Nat} (owned : Owned regions next (new ++ live ++ back))
      (listed : frame ∈ new) : Usable regions frame ∧ frame ∉ live := by
    have known := mem_of_mem_take (owned.2 (mem_append_left _ (mem_append_left _ listed)))
    rcases mem_flatMap.mp known with ⟨region, usable, within⟩
    exact ⟨⟨region, usable, mem_frames (laid.aligned region usable) within⟩,
      disjoint_of_nodup_append owned.1.of_append_left listed⟩
  rcases given with one | ⟨count, several⟩
  · exact fresh (reached.one.owned laid).2 one
  · exact fresh ((reached.run count).owned laid).2 several

theorem allocated_frame_not_live_pair : Exists fun frames =>
    Reached [⟨0, 12288, true⟩] frames [0] ∧ runOf 2 (frames.allocateContiguous 2).1 = [4096, 8192] ∧
      8192 ∉ [0] := by
  have reached := Reached.one (@Reached.init [⟨0, 12288, true⟩])
  have taken := @allocated_frame_not_live _ _ _ 8192 ⟨by decide, by decide⟩ reached
    (.inr ⟨2, by decide⟩)
  exact ⟨_, reached, by decide, taken.2⟩

end FrameAllocator
end CoolOs.Memory
