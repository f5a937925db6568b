import CoolOs.CoolFs.Payload
import Mathlib.Data.List.GetD

namespace CoolOs.CoolFs

open BlockStore Function List

/-!
# Replacing the payload of an object

`write_inode_bytes` builds the new payload in free blocks, points the inode to
them and frees the old ones.  On a sound volume it replaces the bytes of one
object; when there is no room it leaves every object, and the bitmap, alone.
-/

variable {volume : Volume} {bytes : List UInt8} {block : Nat}

/-- An inode that points to a new payload. -/
def Inode.renew (inode : Inode) (size : Nat) (blocks : List Nat) (indirect : Nat) : Inode :=
  { inode with
    size := size
    direct := fun slot => blocks.getD slot.val 0
    indirect := indirect }

namespace Volume

/-- The blocks a payload will be stored in. -/
def newBlocks (volume : Volume) (bytes : List UInt8) : List Nat :=
  volume.available.take (blocksFor bytes.length)

/-- The block for the indirect table of a payload, or zero. -/
def newIndirect (volume : Volume) (bytes : List UInt8) : Nat :=
  if 48 < blocksFor bytes.length then volume.available.getD (blocksFor bytes.length) 0 else 0

def fresh (volume : Volume) (bytes : List UInt8) : List Nat :=
  volume.newBlocks bytes ++ nonNull (volume.newIndirect bytes)

/-- The payload is not too long, and there are free blocks for it. -/
structure RoomFor (volume : Volume) (bytes : List UInt8) : Prop where
  short : bytes.length <= 4390912
  enough : blocksFor bytes.length + (if 48 < blocksFor bytes.length then 1 else 0) <=
    volume.available.length

/-- The volume with the new payload in place, still without an inode for it. -/
def stage (volume : Volume) (bytes : List UInt8) : Volume :=
  let filled := (volume.claim (volume.fresh bytes)).fill bytes 0 (volume.newBlocks bytes)
  if volume.newIndirect bytes = 0 then filled
  else filled.setData (volume.newIndirect bytes)
    (Block.holding (((volume.newBlocks bytes).drop 48).flatMap toLeBytes))

/-- The volume after the payload of an inode is replaced. -/
def rewrite (volume : Volume) (index : Nat) (bytes : List UInt8) : Volume :=
  ((volume.stage bytes).setInode index ((volume.inode index).renew bytes.length
    (volume.newBlocks bytes) (volume.newIndirect bytes))).release
      (volume.references (volume.inode index))

theorem release_release (volume : Volume) (first second : List Nat) :
    (volume.release first).release second = volume.release (first ++ second) := by
  apply Volume.ext
  · rfl
  · funext block
    simp [release, Bool.and_assoc]
  · rfl

theorem fresh_eq_take (room : volume.RoomFor bytes) :
    volume.fresh bytes = volume.available.take
      (blocksFor bytes.length + if 48 < blocksFor bytes.length then 1 else 0) := by
  have enough := room.enough
  by_cases large : 48 < blocksFor bytes.length
  · rw [if_pos large] at enough
    have inside : blocksFor bytes.length < volume.available.length := by omega
    have last : volume.available.getD (blocksFor bytes.length) 0 =
        volume.available[blocksFor bytes.length] := getD_eq_getElem _ _ inside
    have present : volume.available[blocksFor bytes.length] ≠ 0 := by
      have low := (mem_available.mp (getElem_mem inside)).1.1
      omega
    rw [fresh, newBlocks, newIndirect, if_pos large, if_pos large, last, nonNull, if_neg present]
    exact (take_succ_eq_append_getElem inside).symm
  · rw [fresh, newBlocks, newIndirect, if_neg large, if_neg large, Nat.add_zero]
    exact append_nil _

namespace RoomFor

variable (room : volume.RoomFor bytes)
include room

theorem length_newBlocks : (volume.newBlocks bytes).length = blocksFor bytes.length := by
  have enough := room.enough
  rw [newBlocks, length_take]
  split at enough
  · omega
  · omega

theorem bound : blocksFor bytes.length <= 1072 := by
  have short := room.short
  unfold blocksFor
  omega

theorem fresh_available (listed : block ∈ volume.fresh bytes) : block ∈ volume.available := by
  rw [fresh_eq_take room] at listed
  exact mem_of_mem_take listed

theorem fresh_inside (listed : block ∈ volume.fresh bytes) : DataBlock block :=
  (mem_available.mp (room.fresh_available listed)).1

theorem fresh_nodup : (volume.fresh bytes).Nodup := by
  rw [fresh_eq_take room]
  exact List.Nodup.sublist (take_sublist _ _) volume.available_nodup

theorem newBlocks_inside (listed : block ∈ volume.newBlocks bytes) : DataBlock block :=
  room.fresh_inside (mem_append_left _ listed)

theorem newIndirect_inside
    (present : volume.newIndirect bytes ≠ 0) : DataBlock (volume.newIndirect bytes) :=
  room.fresh_inside (mem_append_right _ (mem_nonNull present))

/-- The indirect block is there exactly when the direct slots do not suffice. -/
theorem newIndirect_eq_zero : volume.newIndirect bytes = 0 <-> blocksFor bytes.length <= 48 := by
  constructor
  · intro zero
    by_contra large
    have enough := room.enough
    rw [if_pos (Nat.lt_of_not_le large)] at enough
    have inside : blocksFor bytes.length < volume.available.length := by omega
    have low := (mem_available.mp (getElem_mem inside)).1.1
    rw [newIndirect, if_pos (Nat.lt_of_not_le large), getD_eq_getElem _ _ inside] at zero
    omega
  · intro direct
    exact if_neg (Nat.not_lt_of_le direct)

theorem newIndirect_not_mem (present : volume.newIndirect bytes ≠ 0) :
    volume.newIndirect bytes ∉ volume.newBlocks bytes := by
  intro listed
  have apart := (nodup_append'.mp room.fresh_nodup).2.2
  exact apart listed (mem_nonNull present)

/-- The block that comes after the data blocks is the one for the table. -/
theorem available_indirect (large : 48 < blocksFor bytes.length) :
    (volume.claim (volume.newBlocks bytes)).available =
      volume.newIndirect bytes :: volume.available.drop (blocksFor bytes.length + 1) := by
  have enough := room.enough
  rw [if_pos large] at enough
  have inside : blocksFor bytes.length < volume.available.length := by omega
  have value : volume.newIndirect bytes = volume.available[blocksFor bytes.length] := by
    rw [newIndirect, if_pos large, getD_eq_getElem _ _ inside]
  rw [newBlocks, available_claim_take, value]
  exact drop_eq_getElem_cons inside

theorem claim_fresh (large : 48 < blocksFor bytes.length) :
    volume.claim (volume.fresh bytes) =
      (volume.claim (volume.newBlocks bytes)).claim [volume.newIndirect bytes] := by
  have present : volume.newIndirect bytes ≠ 0 :=
    fun zero => Nat.not_lt_of_le (room.newIndirect_eq_zero.mp zero) large
  rw [claim_claim, fresh, nonNull, if_neg present]

end RoomFor

@[simp] theorem stage_inode (volume : Volume) (bytes : List UInt8) :
    (volume.stage bytes).inode = volume.inode := by
  unfold stage
  split
  · rw [fill_inode]
    rfl
  · rw [setData, fill_inode]
    rfl

theorem stage_used (volume : Volume) (bytes : List UInt8) (block : Nat) :
    (volume.stage bytes).used block =
      (volume.used block || decide (block ∈ volume.fresh bytes)) := by
  unfold stage
  split
  · rw [fill_used]
    rfl
  · rw [setData, fill_used]
    rfl

theorem stage_data_of_not_mem (volume : Volume) (bytes : List UInt8)
    (absent : block ∉ volume.fresh bytes) :
    (volume.stage bytes).data block = volume.data block := by
  have outside : block ∉ volume.newBlocks bytes :=
    fun listed => absent (mem_append_left _ listed)
  have kept : ((volume.claim (volume.fresh bytes)).fill bytes 0 (volume.newBlocks bytes)).data
      block = volume.data block := by
    rw [fill_data_of_not_mem bytes 0 outside]
    exact if_neg absent
  unfold stage
  split
  · exact kept
  · next present =>
      have different : block ≠ volume.newIndirect bytes := by
        intro same
        rw [same] at absent
        exact absent (mem_append_right _ (mem_nonNull present))
      exact (update_of_ne different _ _).trans kept

theorem stage_payload (room : volume.RoomFor bytes) :
    (volume.stage bytes).payload (volume.newBlocks bytes) bytes.length = bytes := by
  have distinct : (volume.newBlocks bytes).Nodup := (nodup_append'.mp room.fresh_nodup).1
  have same : (volume.stage bytes).payload (volume.newBlocks bytes) bytes.length =
      ((volume.claim (volume.fresh bytes)).fill bytes 0 (volume.newBlocks bytes)).payload
        (volume.newBlocks bytes) bytes.length := by
    apply payload_congr
    intro block listed
    unfold stage
    split
    · rfl
    · next present =>
        have different : block ≠ volume.newIndirect bytes :=
          fun same => room.newIndirect_not_mem present (same ▸ listed)
        exact update_of_ne different _ _
  have chunks := take_chunks bytes (blocksFor bytes.length) 0 (by unfold blocksFor; omega)
  rw [Nat.zero_mul, Nat.sub_zero, drop_zero] at chunks
  rw [same, payload, fill_reads bytes 0 distinct, room.length_newBlocks]
  exact chunks

theorem ofFn_getD (blocks : List Nat) : ofFn (fun slot : Fin 48 => blocks.getD slot.val 0) =
      blocks.take 48 ++ replicate (48 - blocks.length) 0 := by
  apply ext_getElem
  · rw [length_ofFn, length_append, length_take, length_replicate]
    omega
  · intro slot bound _
    rw [length_ofFn] at bound
    rw [List.getElem_ofFn]
    by_cases inside : slot < blocks.length
    · rw [getElem_append_left (by rw [length_take]; omega), getElem_take,
        getD_eq_getElem _ _ inside]
    · rw [getElem_append_right (by rw [length_take]; omega), getElem_replicate,
        getD_eq_default _ _ (Nat.le_of_not_lt inside)]

/-- A new inode over the staged payload holds the new blocks. -/
theorem stage_holds (room : volume.RoomFor bytes) (inode : Inode) :
    Holds (volume.stage bytes)
      (inode.renew bytes.length (volume.newBlocks bytes) (volume.newIndirect bytes))
      (volume.newBlocks bytes) where
  count := room.length_newBlocks
  inside := fun _ listed => room.newBlocks_inside listed
  direct := by
    rw [room.length_newBlocks]
    exact room.newIndirect_eq_zero.mpr
  indirect := by
    rw [room.length_newBlocks]
    intro large
    exact room.newIndirect_inside
      (fun zero => Nat.not_lt_of_le (room.newIndirect_eq_zero.mp zero) large)
  slots := by
    have length := room.length_newBlocks
    have bound := room.bound
    by_cases direct : volume.newIndirect bytes = 0
    · have few := room.newIndirect_eq_zero.mp direct
      refine ⟨48 - (volume.newBlocks bytes).length, ?_⟩
      rw [slots, Inode.renew, if_pos direct, append_nil, ofFn_getD, take_of_length_le (by omega)]
    · have many : 48 < (volume.newBlocks bytes).length := by
        rw [length]
        exact Nat.lt_of_not_le (mt room.newIndirect_eq_zero.mpr direct)
      have table : (volume.stage bytes).data (volume.newIndirect bytes) =
          .holding (((volume.newBlocks bytes).drop 48).flatMap toLeBytes) := by
        unfold stage
        rw [if_neg direct]
        exact update_self _ _ _
      have words := @Block.words_holding ((volume.newBlocks bytes).drop 48)
        (by rw [length_drop]; omega)
        (fun block listed => Nat.lt_trans
          (room.newBlocks_inside (mem_of_mem_drop listed)).2 (by decide))
      refine ⟨1024 - ((volume.newBlocks bytes).drop 48).length, ?_⟩
      rw [slots, Inode.renew, if_neg direct, table, words, ofFn_getD,
        Nat.sub_eq_zero_of_le (Nat.le_of_lt many), replicate_zero, append_nil,
        <- append_assoc, take_append_drop]

/-! ## The replaced object -/

section

variable {index : Nat}

variable {other : Nat}

/-- While the new payload is staged, the old one is still in place. -/
theorem stage_held (sound : volume.Sound) (taken : (volume.inode index).kind ≠ kindFree)
    (room : volume.RoomFor bytes) :
    Holds (volume.stage bytes) (volume.inode index) (volume.blocksOf (volume.inode index)) := by
  have old := sound.held index taken
  have kept : Keeps volume (volume.stage bytes) index :=
    { inode := congrFun (stage_inode volume bytes) index
      data := fun block listed => stage_data_of_not_mem volume bytes
        (fun new => sound.refs_not_available listed (room.fresh_available new)) }
  refine ⟨old.count, ?_, old.inside, old.direct, old.indirect⟩
  rw [kept.slots taken]
  exact old.slots

theorem stored_renew (sound : volume.Sound) (room : volume.RoomFor bytes) :
    ((volume.inode index).renew bytes.length (volume.newBlocks bytes)
        (volume.newIndirect bytes)).stored =
      (volume.inode index).renew bytes.length (volume.newBlocks bytes)
        (volume.newIndirect bytes) := by
  have short := room.short
  have mode := congrArg Inode.mode (sound.stable index)
  apply Inode.ext
  · rfl
  · exact Nat.mod_eq_of_lt (Nat.lt_of_le_of_lt short (by decide))
  · funext slot
    apply Nat.mod_eq_of_lt
    by_cases inside : slot.val < (volume.newBlocks bytes).length
    · have listed : (volume.newBlocks bytes).getD slot.val 0 ∈ volume.newBlocks bytes := by
        rw [getD_eq_getElem _ _ inside]
        exact getElem_mem inside
      exact Nat.lt_trans (room.newBlocks_inside listed).2 (by decide)
    · have zero : (volume.newBlocks bytes).getD slot.val 0 = 0 :=
        getD_eq_default _ _ (Nat.le_of_not_lt inside)
      change (volume.newBlocks bytes).getD slot.val 0 < 2 ^ 32
      rw [zero]
      decide
  · apply Nat.mod_eq_of_lt
    by_cases present : volume.newIndirect bytes = 0
    · change volume.newIndirect bytes < 2 ^ 32
      rw [present]
      decide
    · exact Nat.lt_trans (room.newIndirect_inside present).2 (by decide)
  · rfl
  · rfl
  · exact mode

theorem rewrite_inode_self : (volume.rewrite index bytes).inode index =
      (volume.inode index).renew bytes.length (volume.newBlocks bytes) (volume.newIndirect bytes) :=
  update_self _ _ _

theorem rewrite_inode_of_ne (different : other ≠ index) :
    (volume.rewrite index bytes).inode other = volume.inode other :=
  (update_of_ne different _ _).trans (congrFun (stage_inode volume bytes) other)

theorem rewrite_data : (volume.rewrite index bytes).data = (volume.stage bytes).data := rfl

theorem rewrite_used (block : Nat) : (volume.rewrite index bytes).used block =
      ((volume.used block || decide (block ∈ volume.fresh bytes)) &&
        !decide (block ∈ volume.references (volume.inode index))) := by
  rw [<- stage_used]
  rfl

theorem rewrite_keeps (sound : volume.Sound) (room : volume.RoomFor bytes)
    (different : other ≠ index) : Keeps volume (volume.rewrite index bytes) other where
  inode := rewrite_inode_of_ne different
  data := by
    intro block listed
    rw [rewrite_data]
    apply stage_data_of_not_mem
    intro new
    exact sound.refs_not_available listed (room.fresh_available new)

theorem rewrite_holds (room : volume.RoomFor bytes) :
    Holds (volume.rewrite index bytes) ((volume.rewrite index bytes).inode index)
      (volume.newBlocks bytes) := by
  have staged := stage_holds room (volume.inode index)
  rw [rewrite_inode_self]
  exact ⟨staged.count, staged.slots, staged.inside, staged.direct, staged.indirect⟩

theorem rewrite_refs (room : volume.RoomFor bytes) (taken : (volume.inode index).kind ≠ kindFree) :
    (volume.rewrite index bytes).refs index = volume.fresh bytes := by
  have inUse : ((volume.rewrite index bytes).inode index).kind ≠ kindFree := by
    rw [rewrite_inode_self]
    exact taken
  rw [refs_of_used inUse, references, (rewrite_holds room).blocksOf_eq, rewrite_inode_self]
  rfl

theorem rewrite_sound (sound : volume.Sound) (room : volume.RoomFor bytes)
    (taken : (volume.inode index).kind ≠ kindFree) : (volume.rewrite index bytes).Sound := by
  have own := rewrite_refs room taken
  apply sound.update (sound.small taken)
  · intro other different
    exact rewrite_keeps sound room different
  · rw [rewrite_inode_self]
    exact stored_renew sound room
  · intro free
    rw [rewrite_inode_self] at free
    exact absurd free taken
  · intro _
    have held := @rewrite_holds volume bytes index room
    rw [held.blocksOf_eq]
    exact held
  · rw [own]
    exact room.fresh_nodup
  · intro other _ block listed old
    rw [own] at listed
    exact sound.refs_not_available old (room.fresh_available listed)
  · intro block bound
    have previous : volume.refs index = volume.references (volume.inode index) :=
      refs_of_used taken
    rw [rewrite_used, own, <- previous, Bool.and_eq_true, Bool.or_eq_true, decide_eq_true_eq,
      Bool.not_eq_true', decide_eq_false_iff_not, sound.marked block bound]
    constructor
    · rintro ⟨(low | ⟨other, listed⟩) | new, gone⟩
      · exact .inl low
      · refine .inr (.inr ⟨other, ?_, listed⟩)
        rintro rfl
        exact gone listed
      · exact .inr (.inl new)
    · rintro (low | new | ⟨other, different, listed⟩)
      · refine ⟨.inl (.inl low), fun old => ?_⟩
        have high := (sound.refs_inside old).1
        omega
      · exact ⟨.inr new, fun old => sound.refs_not_available old (room.fresh_available new)⟩
      · exact ⟨.inl (.inr ⟨other, listed⟩), sound.apart other index different block listed⟩

/-- The new bytes are read back, and no other object changes. -/
theorem rewrite_object (sound : volume.Sound) (room : volume.RoomFor bytes)
    {old : Object} (found : volume.object index = some old) :
    (volume.rewrite index bytes).object =
      Function.update volume.object index (some { old with bytes := bytes }) := by
  have taken : (volume.inode index).kind ≠ kindFree := by
    intro free
    rw [object_eq_none.mpr free] at found
    cases found
  funext other
  by_cases same : other = index
  · subst same
    have inUse : ((volume.rewrite other bytes).inode other).kind ≠ kindFree := by
      rw [rewrite_inode_self]
      exact taken
    have read : (volume.rewrite other bytes).payload (volume.newBlocks bytes) bytes.length =
        bytes := stage_payload room
    rw [update_self]
    unfold object at found ⊢
    rw [if_neg taken, Option.some.injEq] at found
    rw [if_neg inUse, (rewrite_holds room).blocksOf_eq, <- found, rewrite_inode_self]
    simp only [Inode.renew, read]
  · rw [update_of_ne same, (rewrite_keeps sound room same).object]

end

end Volume

open Volume

namespace Image

theorem allocIndirect_takes (room : volume.RoomFor bytes) :
    Takes (allocIndirect .new (blocksFor bytes.length) (volume.newBlocks bytes))
      (volume.claim (volume.newBlocks bytes)) (.ok (volume.newIndirect bytes))
      (volume.claim (volume.fresh bytes)) := by
  by_cases large : 48 < blocksFor bytes.length
  · rw [allocIndirect, if_pos large, room.claim_fresh large]
    refine .bind (.attempt (allocBlock_takes (room.available_indirect large))) ?_
    exact .pure _
  · have zero : volume.newIndirect bytes = 0 := if_neg large
    rw [allocIndirect, if_neg large, fresh, zero, nonNull, if_pos rfl, append_nil]
    exact .pure _

theorem claimed_stage (volume : Volume) (bytes : List UInt8) : (if volume.newIndirect bytes = 0 then
        (volume.claim (volume.fresh bytes)).fill bytes 0 (volume.newBlocks bytes)
      else ((volume.claim (volume.fresh bytes)).fill bytes 0 (volume.newBlocks bytes)).setData
        (volume.newIndirect bytes)
        (Block.holding (((volume.newBlocks bytes).drop 48).flatMap toLeBytes))) =
      volume.stage bytes := rfl

theorem writeInodeBytes_takes (sound : volume.Sound) {index : Nat}
    (taken : (volume.inode index).kind ≠ kindFree) (room : volume.RoomFor bytes) :
    Takes (writeInodeBytes .new index bytes) volume (.ok ()) (volume.rewrite index bytes) := by
  have small := sound.small taken
  have short := room.short
  have accepted : ¬ ((directBlocks + indirectEntries) * blockSize < bytes.length ∨
      2 ^ 32 - 1 < bytes.length) := by
    simp only [directBlocks, indirectEntries, blockSize]
    omega
  have needed : (bytes.length + blockSize - 1) / blockSize = blocksFor bytes.length := rfl
  have held := stage_held sound taken room
  have enough : blocksFor bytes.length <= volume.available.length :=
    Nat.le_trans (Nat.le_add_right _ _) room.enough
  unfold writeInodeBytes
  rw [if_neg accepted, needed]
  refine .bind (allocBlocks_takes _ [] enough) ?_
  rw [nil_append]
  refine .bind (allocIndirect_takes room) ?_
  refine .bind (writeBlocks_takes bytes 0 (fun _ listed => room.newBlocks_inside listed) _) ?_
  refine .bind (writeIndirect_takes room.newIndirect_inside
    (by rw [<- newBlocks, room.length_newBlocks]; exact room.bound) _) ?_
  rw [<- newBlocks, claimed_stage]
  refine .bind (.okOr_some (readInode_tells small _)) ?_
  rw [stage_inode]
  refine .bind (inodeDataBlocks_takes held) ?_
  refine .bind (writeInode_takes small _ _) ?_
  refine .bind (freeBlocks_takes (sound.held index taken).inside _) ?_
  have last := freeIndirect_takes (sound.held index taken).indirect_inside
    (((volume.stage bytes).setInode index ((volume.inode index).renew bytes.length
      (volume.newBlocks bytes) (volume.newIndirect bytes)).stored).release
        (volume.blocksOf (volume.inode index)))
  rw [release_release, stored_renew sound room] at last
  rw [<- Inode.renew, stored_renew sound room]
  exact last

/-- Where only the data blocks are there, the indirect block is missing. -/
theorem indirect_missing (short : bytes.length <= 4390912) (full : ¬ volume.RoomFor bytes)
    (enough : blocksFor bytes.length <= volume.available.length) :
    48 < blocksFor bytes.length ∧ volume.available.length = blocksFor bytes.length := by
  by_contra other
  refine full ⟨short, ?_⟩
  split <;> omega

/-- Without room the operation fails and only free blocks are touched. -/
theorem writeInodeBytes_full {index : Nat} {bytes : List UInt8} (full : ¬ volume.RoomFor bytes) :
    ∃ after, Takes (writeInodeBytes .new index bytes) volume (.error .noSpace) after ∧
      Alike volume after := by
  unfold writeInodeBytes
  by_cases long : (directBlocks + indirectEntries) * blockSize < bytes.length ∨
      2 ^ 32 - 1 < bytes.length
  · rw [if_pos long]
    exact ⟨volume, .throw _, .refl volume⟩
  · rw [if_neg long]
    have short : bytes.length <= 4390912 := by
      simp only [directBlocks, indirectEntries, blockSize] at long
      omega
    have needed : (bytes.length + blockSize - 1) / blockSize = blocksFor bytes.length := rfl
    rw [needed]
    have free (count block : Nat) (listed : block ∈ volume.available.take count) :
        volume.used block = false := (mem_available.mp (mem_of_mem_take listed)).2
    by_cases enough : blocksFor bytes.length <= volume.available.length
    · have missing := indirect_missing short full enough
      refine ⟨(volume.claim (volume.newBlocks bytes)).release (volume.newBlocks bytes), ?_,
        .of_release_claim (fun block listed => free _ block listed)⟩
      have none : (volume.claim (volume.newBlocks bytes)).available = [] := by
        rw [newBlocks, available_claim_take]
        exact drop_eq_nil_of_le (Nat.le_of_eq missing.2)
      refine .bind (allocBlocks_takes _ [] enough) ?_
      rw [nil_append, <- newBlocks]
      apply Yields.bind_error
      rw [allocIndirect, if_pos missing.1]
      refine .bind (.attempt (allocBlock_full none)) ?_
      refine .bind (discardBlocks_takes (fun block listed =>
        (mem_available.mp (mem_of_mem_take listed)).1) _) ?_
      exact .throw _
    · refine ⟨(volume.claim volume.available).release volume.available, ?_,
        .of_release_claim (fun block listed => (mem_available.mp listed).2)⟩
      apply Yields.bind_error
      have ran := @allocBlocks_full (blocksFor bytes.length) volume []
        (fun _ listed => nomatch listed) (Nat.lt_of_not_le enough)
      rw [nil_append] at ran
      exact ran

end Image

end CoolOs.CoolFs
