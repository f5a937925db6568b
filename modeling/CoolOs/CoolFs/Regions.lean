import CoolOs.CoolFs.Format

namespace CoolOs.CoolFs
namespace Superblock

/-!
# The regions a superblock describes

Mounting trusts the fields of block 0 after a few comparisons.  The layout they describe is
sound exactly when some further comparisons hold, which the parser does not make.
-/

/-- A range of bytes of the volume. -/
structure Region where
  start : Nat
  stop : Nat

def Region.Apart (left right : Region) : Prop :=
  forall byte, ¬ ((left.start <= byte ∧ byte < left.stop) ∧ right.start <= byte ∧ byte < right.stop)

def Region.Covers (region : Region) (start stop : Nat) : Prop :=
  region.start <= start ∧ stop <= region.stop

variable (sb : Superblock)

def ownRegion : Region := ⟨0, blockSize⟩

def inodeTable : Region :=
  ⟨sb.inodeTableStart * blockSize, sb.inodeTableStart * blockSize + sb.inodeCount * inodeSize⟩

/-- The bytes with a bit for every block. -/
def bitmap : Region :=
  ⟨sb.bitmapStart * blockSize, sb.bitmapStart * blockSize + (sb.totalBlocks + 7) / 8⟩

def dataArea : Region := ⟨sb.dataStart * blockSize, sb.fsLen⟩

def regions : List Region := [ownRegion, sb.inodeTable, sb.bitmap, sb.dataArea]

/-- The sum of words in the parser does not overflow, the regions are apart and inside the
volume, and what writes an inode or a bit of the bitmap stays in its region. -/
structure SoundLayout : Prop where
  words : sb.bitmapStart + sb.bitmapBlocks < 2 ^ 32
  apart : sb.regions.Pairwise Region.Apart
  inside : ∀ region ∈ sb.regions, region.stop <= sb.fsLen
  inodes : forall inodeIdx offset, inodeIdx < sb.inodeCount ->
    sb.inodeOffset inodeIdx = some offset -> sb.inodeTable.Covers offset (offset + inodeSize)
  bits : forall block byte bit, sb.bitmapByteBit block = some (byte, bit) ->
    sb.bitmap.Covers byte (byte + 1)

/-- The comparisons that `parse` leaves out. -/
def fullyChecked : Bool :=
  decide (sb.bitmapStart + sb.bitmapBlocks < 2 ^ 32) &&
    decide (0 < sb.inodeTableStart) && decide (0 < sb.bitmapStart) &&
    decide (sb.inodeTable.stop <= sb.dataArea.start) &&
    decide (sb.bitmap.stop <= sb.dataArea.start) &&
    decide (sb.inodeTable.stop <= sb.bitmap.start ∨ sb.bitmap.stop <= sb.inodeTable.start)

variable {sb}

theorem inodeOffset_covered {inodeIdx offset : Nat} (inside : inodeIdx < sb.inodeCount)
    (found : sb.inodeOffset inodeIdx = some offset) :
    sb.inodeTable.Covers offset (offset + inodeSize) := by
  unfold inodeOffset at found
  dsimp only at found
  split at found
  · cases found
    simp only [Region.Covers, inodeTable, inodeSize]
    omega
  · cases found

theorem bitmapByteBit_covered {block byte : Nat} {bit : UInt8}
    (found : sb.bitmapByteBit block = some (byte, bit)) : sb.bitmap.Covers byte (byte + 1) := by
  unfold bitmapByteBit at found
  split at found
  · cases found
  · dsimp only at found
    split at found
    · cases found
    · cases found
      simp only [Region.Covers, bitmap]
      omega

/-- Two ranges that are not empty are apart when one ends before the other starts. -/
theorem Region.apart_iff {left right : Region} (leftFilled : left.start < left.stop)
    (rightFilled : right.start < right.stop) :
    left.Apart right <-> left.stop <= right.start ∨ right.stop <= left.start := by
  constructor
  · intro apart
    have shared := apart (max left.start right.start)
    omega
  · rintro before byte ⟨one, other⟩
    omega

theorem parse_checks {image : Block} (parsed : parse image = some sb) :
    0 < sb.totalBlocks ∧ 0 < sb.inodeCount ∧ sb.dataStart < sb.totalBlocks := by
  unfold parse at parsed
  split at parsed
  · cases parsed
  split at parsed
  · cases parsed
  dsimp only at parsed
  split at parsed
  · cases parsed
  next checked =>
    cases parsed
    dsimp only
    omega

/-- A superblock that is mounted describes a sound layout iff it passes all comparisons. -/
theorem mounted_layout_sound_iff {image : Block} (parsed : parse image = some sb)
    (sized : 1024 <= sb.totalBlocks ∧ sb.totalBlocks <= CoolFs.totalBlocks) :
    sb.SoundLayout <-> sb.fullyChecked = true := by
  rcases parse_checks parsed with ⟨_, inodes, data⟩
  have table : sb.inodeTable.start < sb.inodeTable.stop := by
    simp only [inodeTable, inodeSize]
    omega
  have bits : sb.bitmap.start < sb.bitmap.stop := by
    simp only [bitmap]
    omega
  have area : sb.dataArea.start < sb.dataArea.stop := by
    simp only [dataArea, fsLen, blockSize]
    omega
  have own : ownRegion.start < ownRegion.stop := by decide
  have pairs : sb.regions.Pairwise Region.Apart <->
      ((ownRegion.Apart sb.inodeTable ∧ ownRegion.Apart sb.bitmap ∧ ownRegion.Apart sb.dataArea) ∧
      (sb.inodeTable.Apart sb.bitmap ∧ sb.inodeTable.Apart sb.dataArea) ∧
      sb.bitmap.Apart sb.dataArea) := by
    simp [regions]
  rw [Region.apart_iff own table, Region.apart_iff own bits, Region.apart_iff own area,
    Region.apart_iff table bits, Region.apart_iff table area, Region.apart_iff bits area] at pairs
  simp only [fullyChecked, Bool.and_eq_true, decide_eq_true_eq]
  simp only [ownRegion, inodeTable, bitmap, dataArea, fsLen, blockSize, inodeSize] at *
  constructor
  · rintro ⟨words, apart, inside, _, _⟩
    have tableInside := inside sb.inodeTable (by simp [regions])
    have bitsInside := inside sb.bitmap (by simp [regions])
    have order := pairs.mp apart
    simp only [inodeTable, bitmap, fsLen, blockSize, inodeSize] at tableInside bitsInside
    omega
  · intro checked
    refine ⟨checked.1.1.1.1.1, pairs.mpr (by omega), ?_, fun _ _ => inodeOffset_covered,
      fun _ _ _ => bitmapByteBit_covered⟩
    simp only [regions, List.forall_mem_cons, List.not_mem_nil, ownRegion, inodeTable, bitmap,
      dataArea, fsLen, blockSize, inodeSize]
    refine ⟨by omega, by omega, by omega, by omega, nofun⟩

/-- The block `format_image` writes describes a sound layout. -/
theorem formatted_layout_sound : parse (new.write Block.zero) = some new ∧ new.SoundLayout := by
  have parsed : parse (new.write Block.zero) = some new := by decide +kernel
  exact ⟨parsed, (mounted_layout_sound_iff parsed (by decide)).mpr (by decide)⟩

/-- A superblock whose inode table starts at block 0 is accepted. -/
theorem table_over_superblock_accepted :
    parse ({ new with inodeTableStart := 0 }.write Block.zero) =
        some { new with inodeTableStart := 0 } ∧
      1024 <= new.totalBlocks ∧ new.totalBlocks <= CoolFs.totalBlocks ∧
      ¬ SoundLayout { new with inodeTableStart := 0 } := by
  refine ⟨by decide +kernel, by decide, by decide, fun sound => ?_⟩
  have apart := (List.pairwise_cons.mp sound.apart).1
    (inodeTable { new with inodeTableStart := 0 }) (by simp)
  exact apart 0 (by decide)

end Superblock
end CoolOs.CoolFs
