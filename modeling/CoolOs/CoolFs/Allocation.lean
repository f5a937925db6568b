import CoolOs.CoolFs.Volume
import Mathlib.Data.List.Nodup

namespace CoolOs.CoolFs

open BlockStore List Superblock

/-!
# The primitives of the image on a decoded volume

What each access to the inode table, the bitmap and the data blocks does to the
decoded volume, for the default superblock.
-/

variable (bytes : Bytes)

/-- A program takes one decoded volume to another, with an outcome. -/
abbrev Takes {Result : Type} (program : Fallible Result) (before : Volume)
    (outcome : Except FsError Result) (after : Volume) : Prop :=
  Yields store Volume.ofBytes program before outcome after

/-- A query answers from a decoded volume and leaves it alone. -/
abbrev Tells {Result : Type} (program : Optional Result) (volume : Volume)
    (outcome : Option Result) : Prop :=
  Answers store Volume.ofBytes program volume outcome volume

namespace Image

variable {block : Nat} {index : Nat} {front input : List UInt8} {place start : Nat}

theorem inodeOffset_new (inside : index < 512) :
    new.inodeOffset index = some (4096 + index * 256) := by
  have fits : 4096 + index * 256 + 256 <= 6291456 := by omega
  simp only [inodeOffset, fsLen_new, new_inodeTableStart, blockSize,
    inodeSize, Nat.one_mul, if_pos fits]

theorem direct_eq (off : Nat) (slot : Fin 48) :
    ((range 48).map (fun slot => wordAt bytes (off + 8 + 4 * slot))).getD slot.val 0 =
      wordAt bytes (off + 8 + 4 * slot.val) := by
  rw [getD_eq_getElem?_getD, getElem?_map, getElem?_range slot.isLt]
  rfl

theorem readInode_run (inside : index < 512) (bytes : Bytes) :
    inquire store (readInode .new index) bytes =
      (some (decodeInode bytes (4096 + index * 256)), bytes) := by
  have word (offset : Nat) (low : offset + 4 <= 256) :
      inquire store (readU32At .new (4096 + index * 256 + offset)) bytes =
        (some (wordAt bytes (4096 + index * 256 + offset)), bytes) :=
    readU32At_run bytes (by omega)
  have wordOr (offset : Nat) (low : offset + 4 <= 256) :
      inquire store (unwrapOr (readU32At .new (4096 + index * 256 + offset)) 0) bytes =
        (some (wordAt bytes (4096 + index * 256 + offset)), bytes) := by
    rw [inquire_unwrapOr, word offset low]
    rfl
  have notBeyond : ¬ new.inodeCount <= index := Nat.not_le_of_lt inside
  simp only [readInode, if_neg notBeyond, inodeOffset_new inside]
  refine (inquire_bind_some store (readU8_run bytes (by omega))).trans ?_
  refine (inquire_bind_some store (word 4 (by decide))).trans ?_
  refine (inquire_bind_some store (readWords_run 48 bytes (by omega))).trans ?_
  refine (inquire_bind_some store (word 200 (by decide))).trans ?_
  refine (inquire_bind_some store (wordOr 204 (by decide))).trans ?_
  refine (inquire_bind_some store (wordOr 208 (by decide))).trans ?_
  refine (inquire_bind_some store (wordOr 212 (by decide))).trans ?_
  rw [inquire_pure]
  simp only [direct_eq]
  rfl

theorem readInode_tells (inside : index < 512) (volume : Volume) :
    Tells (readInode .new index) volume (some (volume.inode index)) := by
  rintro bytes rfl
  rw [readInode_run inside]
  exact ⟨congrArg some (if_pos inside).symm, rfl⟩

theorem readInode_beyond (outside : 512 <= index) (volume : Volume) :
    Tells (readInode .new index) volume none := by
  have beyond : new.inodeCount <= index := outside
  rw [readInode, if_pos beyond]
  exact .failure

/-- A write right after what has been written so far. -/
theorem writeAt_next (back : List UInt8) (adjacent : place = start + front.length)
    (inside : place + back.length <= 6291456) :
    exec store (writeAt .new place back) (splice bytes start front) =
      (.ok (), splice bytes start (front ++ back)) := by
  rw [writeAt_run _ inside, adjacent, splice_append]

theorem fillAt_next (len : Nat) (value : UInt8)
    (adjacent : place = start + front.length) (inside : place + len <= 6291456) :
    exec store (fillAt .new place len value) (splice bytes start front) =
      (.ok (), splice bytes start (front ++ replicate len value)) := by
  rw [fillAt_run _ value inside, adjacent, splice_append]

theorem writeWords_next (words : List Nat) (adjacent : place = start + front.length)
    (inside : place + 4 * words.length <= 6291456) :
    exec store (writeWords .new place words) (splice bytes start front) =
      (.ok (), splice bytes start (front ++ words.flatMap toLeBytes)) := by
  rw [writeWords_run words _ inside, adjacent, splice_append]

theorem writeInode_run (inside : index < 512) (inode : Inode) (bytes : Bytes) :
    exec store (writeInode .new index inode) bytes =
      (.ok (), splice bytes (4096 + index * 256) (encodeInode inode)) := by
  have word (place value : Nat) (front : List UInt8)
      (adjacent : place = 4096 + index * 256 + front.length) (low : front.length + 4 <= 256) :
      exec store (writeU32At .new place value) (splice bytes (4096 + index * 256) front) =
        (.ok (), splice bytes (4096 + index * 256) (front ++ toLeBytes value)) :=
    writeAt_next bytes _ adjacent (by rw [length_toLeBytes]; omega)
  simp only [writeInode, inodeOffset_new inside]
  refine (exec_bind_ok store (writeU8_run bytes inode.kind (by omega))).trans ?_
  refine (exec_bind_ok store (fillAt_next bytes 3 0 (by simp) (by omega))).trans ?_
  refine (exec_bind_ok store (word _ inode.size _ (by simp) (by simp))).trans ?_
  refine (exec_bind_ok store (writeWords_next bytes _ (by simp)
    (by rw [length_ofFn]; omega))).trans ?_
  refine (exec_bind_ok store (word _ inode.indirect _ ?_ ?_)).trans ?_
  · simp
  · simp
  refine (exec_bind_ok store (word _ inode.uid.toNat _ ?_ ?_)).trans ?_
  · simp
  · simp
  refine (exec_bind_ok store (word _ inode.gid.toNat _ ?_ ?_)).trans ?_
  · simp
  · simp
  refine (exec_bind_ok store (word _ (inode.mode &&& 0o777).toNat _ ?_ ?_)).trans ?_
  · simp
  · simp
  exact fillAt_next bytes _ 0 (by simp) (by simp; omega)

theorem writeInode_takes (inside : index < 512) (inode : Inode) (volume : Volume) :
    Takes (writeInode .new index inode) volume (.ok ()) (volume.setInode index inode.stored) := by
  rintro bytes rfl
  rw [writeInode_run inside]
  exact ⟨rfl, Volume.ofBytes_inode bytes inside inode⟩

theorem bitmapByteBit_new (inside : block < 1536) :
    new.bitmapByteBit block = some (135168 + block / 8, bit (block % 8)) := by
  have notBeyond : ¬ new.totalBlocks <= block := Nat.not_le_of_lt inside
  have within : ¬ new.fsLen <= new.bitmapStart * blockSize + block / 8 := by
    simp only [fsLen_new, new_bitmapStart, blockSize]
    omega
  unfold bitmapByteBit
  rw [if_neg notBeyond, if_neg within]
  rfl

theorem bitmapByteBit_beyond (outside : 1536 <= block) : new.bitmapByteBit block = none :=
  if_pos outside

theorem blockUsed_takes (block : Nat) (volume : Volume) :
    Takes (total (blockUsed .new block)) volume (.ok (volume.used block)) volume := by
  rintro bytes rfl
  rw [exec_total]
  by_cases inside : block < 1536
  · have ran : Program.run store (readU8 .new (135168 + block / 8)).run bytes =
        (some (bytes (135168 + block / 8)), bytes) := readU8_run bytes (by omega)
    simp only [blockUsed, bitmapByteBit_new inside, Program.run_bind, ran, Program.run_pure,
      Volume.ofBytes, if_pos inside]
    exact ⟨rfl, trivial⟩
  · simp only [blockUsed, bitmapByteBit_beyond (Nat.le_of_not_lt inside), Program.run_pure,
      Volume.ofBytes, if_neg inside]
    exact ⟨trivial, trivial⟩

theorem setBlockUsed_takes (inside : block < 1536) (used : Bool) (volume : Volume) :
    Takes (setBlockUsed .new block used) volume (.ok ()) (volume.setUsed block used) := by
  rintro bytes rfl
  have read : exec store (okOr (readU8 .new (135168 + block / 8)) FsError.io) bytes =
      (.ok (bytes (135168 + block / 8)), bytes) := by
    rw [exec_okOr, readU8_run bytes (by omega)]
  simp only [setBlockUsed, bitmapByteBit_new inside]
  rw [exec_bind_ok store read, writeU8_run bytes _ (by omega)]
  exact ⟨rfl, Volume.ofBytes_used bytes inside used⟩

theorem blockOffset_new (inside : block < 1536) : new.blockOffset block = .ok (block * 4096) :=
  if_neg (Nat.not_le_of_lt inside)

/-- Any write to bytes inside one data block. -/
theorem data_takes {program : Fallible Unit} (low : 34 <= block) (high : block < 1536)
    (fits : start + input.length <= 4096) (located : place = block * 4096 + start)
    (run : ∀ bytes, exec store program bytes = (.ok (), splice bytes place input))
    (volume : Volume) : Takes program volume (.ok ())
      (volume.setData block (spliceBlock start input (volume.data block))) := by
  rintro bytes rfl
  rw [run, located]
  exact ⟨rfl, Volume.ofBytes_data bytes low high fits⟩

theorem spliceBlock_zeros (contents : Block) :
    spliceBlock 0 (replicate 4096 0) contents = Block.zero := by
  funext offset
  have located : spliceAt 0 (replicate 4096 (0 : UInt8)) (0 + offset.val) (contents offset) = _ :=
    spliceAt_inside (by rw [length_replicate]; exact offset.isLt) _
  rw [getElem_replicate, Nat.zero_add] at located
  exact located

theorem zeroBlock_takes (low : 34 <= block) (high : block < 1536) (volume : Volume) :
    Takes (zeroBlock block) volume (.ok ()) (volume.setData block Block.zero) := by
  rw [<- spliceBlock_zeros (volume.data block)]
  refine data_takes low high ?_ (Nat.add_zero _).symm ?_ volume
  · exact Nat.le_of_eq (by rw [length_replicate, Nat.zero_add])
  · intro bytes
    exact zeroBlock_run bytes high

theorem writeAt_takes (low : 34 <= block) (high : block < 1536) (fits : input.length <= 4096)
    (volume : Volume) : Takes (writeAt .new (block * 4096) input) volume (.ok ())
      (volume.setData block (spliceBlock 0 input (volume.data block))) := by
  refine data_takes low high (by rw [Nat.zero_add]; exact fits) (Nat.add_zero _).symm ?_ volume
  intro bytes
  exact writeAt_run bytes (by omega)

theorem writeWords_takes {words : List Nat} (low : 34 <= block) (high : block < 1536)
    (fits : words.length <= 1024) (volume : Volume) :
    Takes (writeWords .new (block * 4096) words) volume (.ok ())
      (volume.setData block (spliceBlock 0 (words.flatMap toLeBytes) (volume.data block))) := by
  refine data_takes low high ?_ (Nat.add_zero _).symm ?_ volume
  · rw [length_flatMap_toLeBytes]
    omega
  · intro bytes
    exact writeWords_run words bytes (by omega)

theorem readVec_takes {length : Nat} (low : 34 <= block) (high : block < 1536)
    (fits : length <= 4096) (volume : Volume) :
    Takes (readVec .new (block * 4096) length) volume
      (.ok ((volume.data block).read 0 length)) volume := by
  rintro bytes rfl
  have inside : 34 <= block ∧ block < 1536 := ⟨low, high⟩
  have short : 0 + length <= 4096 := by
    rw [Nat.zero_add]
    exact fits
  rw [readVec_run bytes (by omega)]
  simp only [Volume.ofBytes, if_pos inside]
  rw [read_blockOf bytes short, Nat.add_zero]
  exact ⟨rfl, trivial⟩

theorem readU32At_tells {slot : Nat} (low : 34 <= block) (high : block < 1536) (fits : slot < 1024)
    (volume : Volume) :
    Tells (readU32At .new (block * 4096 + 4 * slot)) volume
      (some ((volume.data block).word (4 * slot))) := by
  rintro bytes rfl
  have inside : 34 <= block ∧ block < 1536 := ⟨low, high⟩
  rw [readU32At_run bytes (by omega)]
  simp only [Volume.ofBytes, if_pos inside, Block.word]
  rw [read_blockOf bytes (by omega)]
  exact ⟨rfl, trivial⟩

end Image

/-!
## Block allocation

Allocation takes the first free data blocks in order.  A run of allocations is
one claim on a list of blocks, and what a failed run gives back is one release
of the same list.
-/

namespace Volume

/-- The free data blocks, in the order in which they are taken. -/
def available (volume : Volume) : List Nat :=
  (range' 34 1502).filter (fun block => !volume.used block)

/-- Mark blocks used and clear them. -/
def claim (volume : Volume) (blocks : List Nat) : Volume :=
  { volume with
    used := fun block => volume.used block || decide (block ∈ blocks)
    data := fun block => if block ∈ blocks then Block.zero else volume.data block }

/-- Mark blocks free. -/
def release (volume : Volume) (blocks : List Nat) : Volume :=
  { volume with used := fun block => volume.used block && !decide (block ∈ blocks) }

/-- A data block of the volume. -/
def DataBlock (block : Nat) : Prop := 34 <= block ∧ block < 1536

theorem mem_available {volume : Volume} {block : Nat} :
    block ∈ volume.available <-> DataBlock block ∧ volume.used block = false := by
  rw [available, mem_filter, mem_range'_1, Bool.not_eq_true']
  exact .rfl

theorem available_nodup (volume : Volume) :
    volume.available.Nodup := List.Nodup.filter _ nodup_range'

theorem claim_singleton (volume : Volume) (block : Nat) :
    (volume.setUsed block true).setData block Block.zero = volume.claim [block] := by
  apply Volume.ext
  · rfl
  all_goals
    funext other
    by_cases same : other = block
    · simp [setUsed, setData, claim, same]
    · simp [setUsed, setData, claim, same]

@[simp] theorem claim_nil (volume : Volume) : volume.claim [] = volume := by
  apply Volume.ext
  · rfl
  · funext block
    simp [claim]
  · funext block
    simp [claim]

theorem claim_claim (volume : Volume) (first second : List Nat) :
    (volume.claim first).claim second = volume.claim (first ++ second) := by
  apply Volume.ext
  · rfl
  · funext block
    simp [claim, Bool.or_assoc]
  · funext block
    by_cases early : block ∈ first
    · simp [claim, early]
    · simp [claim, early]

@[simp] theorem release_nil (volume : Volume) : volume.release [] = volume := by
  apply Volume.ext
  · rfl
  · funext block
    simp [release]
  · rfl

theorem setUsed_release (volume : Volume) (block : Nat) (rest : List Nat) :
    (volume.setUsed block false).release rest = volume.release (block :: rest) := by
  apply Volume.ext
  · rfl
  · funext other
    by_cases same : other = block
    · simp [setUsed, release, same]
    · simp [setUsed, release, same]
  · rfl

/-- What is left after the first free blocks are claimed. -/
theorem available_claim_take (volume : Volume) (count : Nat) :
    (volume.claim (volume.available.take count)).available = volume.available.drop count := by
  have disjoint := disjoint_take_drop volume.available_nodup (Nat.le_refl count)
  have split : volume.available.filter (fun block => !decide (block ∈ volume.available.take count)) =
      volume.available.drop count := by
    have whole := take_append_drop count volume.available
    calc
      volume.available.filter (fun block => !decide (block ∈ volume.available.take count))
          = (volume.available.take count ++ volume.available.drop count).filter
              (fun block => !decide (block ∈ volume.available.take count)) := by rw [whole]
      _ = [] ++ volume.available.drop count := by
          rw [filter_append]
          congr 1
          · exact filter_eq_nil_iff.mpr (fun block listed => by simp [listed])
          · refine filter_eq_self.mpr (fun block listed => ?_)
            have absent : block ∉ volume.available.take count :=
              fun early => disjoint early listed
            simp [absent]
      _ = volume.available.drop count := nil_append _
  rw [<- split]
  simp only [available, claim, filter_filter]
  apply filter_congr
  intro block _
  rw [Bool.not_or, Bool.and_comm]

end Volume

open Volume

namespace Image

variable {volume : Volume} {blocks : List Nat} {block : Nat}

theorem allocBlockFrom_takes (inside : ∀ block ∈ blocks, DataBlock block) :
    Takes (allocBlockFrom .new blocks) volume
      (match blocks.filter (fun block => !volume.used block) with
        | [] => .error .noSpace
        | block :: _ => .ok block)
      (match blocks.filter (fun block => !volume.used block) with
        | [] => volume
        | block :: _ => volume.claim [block]) := by
  induction blocks with
  | nil => exact .throw _
  | cons block rest ih =>
    refine .bind (blockUsed_takes block volume) ?_
    cases taken : volume.used block with
    | true =>
      simp only [filter_cons, taken, Bool.not_true]
      exact ih (fun other listed => inside other (mem_cons_of_mem _ listed))
    | false =>
      have place := inside block mem_cons_self
      simp only [filter_cons, taken, Bool.not_false, if_true]
      refine .bind (setBlockUsed_takes place.2 true volume) ?_
      refine .bind (zeroBlock_takes place.1 place.2 _) ?_
      rw [claim_singleton]
      exact .pure block

theorem dataBlocks_inside (listed : block ∈ range' 34 1502) : DataBlock block := by
  have range := mem_range'_1.mp listed
  exact ⟨range.1, by omega⟩

theorem allocBlock_takes {rest : List Nat} (free : volume.available = block :: rest) :
    Takes (allocBlock .new) volume (.ok block) (volume.claim [block]) := by
  have allocated := @allocBlockFrom_takes volume (range' 34 1502)
    (fun _ listed => dataBlocks_inside listed)
  simp only [available] at free
  rw [free] at allocated
  exact allocated

theorem allocBlock_full (full : volume.available = []) :
    Takes (allocBlock .new) volume (.error .noSpace) volume := by
  have allocated := @allocBlockFrom_takes volume (range' 34 1502)
    (fun _ listed => dataBlocks_inside listed)
  simp only [available] at full
  rw [full] at allocated
  exact allocated

theorem freeBlock_takes (inside : DataBlock block) (volume : Volume) :
    Takes (freeBlock .new block) volume (.ok ()) (volume.setUsed block false) := by
  have data : ¬ (block < Superblock.new.dataStart ∨ Superblock.new.totalBlocks <= block) := by
    rw [Superblock.new_dataStart, Superblock.new_totalBlocks, not_or]
    exact ⟨Nat.not_lt_of_le inside.1, Nat.not_le_of_lt inside.2⟩
  rw [freeBlock, if_neg data]
  exact setBlockUsed_takes inside.2 false volume

theorem freeBlocks_takes (inside : ∀ block ∈ blocks, DataBlock block) (volume : Volume) :
    Takes (freeBlocks .new blocks) volume (.ok ()) (volume.release blocks) := by
  induction blocks generalizing volume with
  | nil =>
    rw [release_nil]
    exact .pure ()
  | cons block rest ih =>
    rw [<- setUsed_release]
    exact .bind (freeBlock_takes (inside block mem_cons_self) volume)
      (ih (fun other listed => inside other (mem_cons_of_mem _ listed)) _)

theorem discardBlocks_takes (inside : ∀ block ∈ blocks, DataBlock block) (volume : Volume) :
    Takes (discardBlocks .new blocks) volume (.ok ()) (volume.release blocks) := by
  induction blocks generalizing volume with
  | nil =>
    rw [release_nil]
    exact .pure ()
  | cons block rest ih =>
    rw [<- setUsed_release]
    exact .bind (.attempt (freeBlock_takes (inside block mem_cons_self) volume))
      (ih (fun other listed => inside other (mem_cons_of_mem _ listed)) _)

theorem freeIndirect_takes {indirect : Nat} (inside : indirect ≠ 0 -> DataBlock indirect)
    (volume : Volume) :
    Takes (freeIndirect .new indirect) volume (.ok ())
      (volume.release (if indirect = 0 then [] else [indirect])) := by
  by_cases zero : indirect = 0
  · rw [freeIndirect, if_neg (not_not.mpr zero), if_pos zero, release_nil]
    exact .pure ()
  · rw [freeIndirect, if_pos zero, if_neg zero, <- setUsed_release, release_nil]
    exact freeBlock_takes (inside zero) volume

theorem available_claim_first {rest : List Nat} (free : volume.available = block :: rest) :
    (volume.claim [block]).available = rest := by
  have first : volume.available.take 1 = [block] := by rw [free]; rfl
  rw [<- first, available_claim_take, free]
  rfl

theorem allocBlocks_takes (count : Nat) (taken : List Nat)
    (enough : count <= volume.available.length) :
    Takes (allocBlocks .new count taken) volume (.ok (taken ++ volume.available.take count))
      (volume.claim (volume.available.take count)) := by
  induction count generalizing volume taken with
  | zero =>
    rw [take_zero, append_nil, claim_nil]
    exact .pure taken
  | succ count ih =>
    cases free : volume.available with
    | nil =>
      rw [free] at enough
      exact absurd enough (Nat.not_succ_le_zero _)
    | cons block rest =>
      have left := available_claim_first free
      refine .bind (.attempt (allocBlock_takes free)) ?_
      have step := @ih (volume.claim [block]) (taken ++ [block])
        (by rw [left]; rw [free, length_cons] at enough; omega)
      rw [left, claim_claim, append_assoc] at step
      exact step

/-- A run that runs out gives back everything it holds. -/
theorem allocBlocks_full (count : Nat) {volume : Volume} {taken : List Nat}
    (inside : ∀ block ∈ taken, DataBlock block) (short : volume.available.length < count) :
    Takes (allocBlocks .new count taken) volume (.error .noSpace)
      ((volume.claim volume.available).release (taken ++ volume.available)) := by
  induction count generalizing volume taken with
  | zero => exact absurd short (Nat.not_lt_zero _)
  | succ count ih =>
    cases free : volume.available with
    | nil =>
      rw [append_nil, claim_nil]
      refine .bind (.attempt (allocBlock_full free)) ?_
      refine .bind (discardBlocks_takes inside volume) ?_
      exact .throw _
    | cons block rest =>
      have left := available_claim_first free
      have place : DataBlock block :=
        (mem_available.mp (free ▸ mem_cons_self)).1
      refine .bind (.attempt (allocBlock_takes free)) ?_
      have step := @ih (volume.claim [block]) (taken ++ [block]) ?_ ?_
      · rw [left, claim_claim, append_assoc] at step
        exact step
      · intro other listed
        rcases mem_append.mp listed with early | last
        · exact inside other early
        · rw [mem_singleton.mp last]
          exact place
      · rw [left]
        rw [free, length_cons] at short
        omega

end Image

end CoolOs.CoolFs
