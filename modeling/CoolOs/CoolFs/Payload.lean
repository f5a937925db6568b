import CoolOs.CoolFs.Allocation

namespace CoolOs.CoolFs

open BlockStore Function List

/-!
# The payload of an inode

An inode names its data blocks in 48 direct slots and, behind them, in the 1024
words of an indirect table.  The slots in use come first and the rest are zero.
-/

variable {volume changed : Volume} {inode : Inode} {blocks : List Nat} (bytes : List UInt8)
  (index : Nat)

/-- The number of blocks a payload of some length occupies. -/
def blocksFor (length : Nat) : Nat := (length + 4095) / 4096

/-- A block number as a list, when it is not the null block. -/
def nonNull (block : Nat) : List Nat := if block = 0 then [] else [block]

namespace Volume

/-- Every slot of an inode, direct and indirect. -/
def slots (volume : Volume) (inode : Inode) : List Nat :=
  ofFn inode.direct ++
    if inode.indirect = 0 then []
    else (range 1024).map (fun slot => (volume.data inode.indirect).word (4 * slot))

/-- The data blocks an inode refers to. -/
def blocksOf (volume : Volume) (inode : Inode) : List Nat :=
  (volume.slots inode).filter (fun block => block != 0)

/-- All blocks an inode refers to, the indirect block included. -/
def references (volume : Volume) (inode : Inode) : List Nat :=
  volume.blocksOf inode ++ nonNull inode.indirect

/-- The slots of an inode hold a list of data blocks of the length its size
asks for, and nothing else. -/
structure Holds (volume : Volume) (inode : Inode) (blocks : List Nat) : Prop where
  count : blocks.length = blocksFor inode.size
  slots : Exists fun unused => volume.slots inode = blocks ++ replicate unused 0
  inside : ∀ block ∈ blocks, DataBlock block
  direct : blocks.length <= 48 -> inode.indirect = 0
  indirect : 48 < blocks.length -> DataBlock inode.indirect

/-- The bytes in a list of blocks, up to a length. -/
def payload (volume : Volume) (blocks : List Nat) (size : Nat) : List UInt8 :=
  (blocks.flatMap (fun block => (volume.data block).read 0 4096)).take size

namespace Holds

variable (held : Holds volume inode blocks)
include held

theorem blocksOf_eq : volume.blocksOf inode = blocks := by
  rcases held.slots with ⟨unused, layout⟩
  have full : blocks.filter (fun block => block != 0) = blocks := by
    refine filter_eq_self.mpr (fun block listed => ?_)
    have low := (held.inside block listed).1
    exact bne_iff_ne.mpr (by omega)
  have empty : (replicate unused 0).filter (fun block : Nat => block != 0) = [] := by
    refine filter_eq_nil_iff.mpr (fun block listed => ?_)
    rw [eq_of_mem_replicate listed]
    decide
  rw [blocksOf, layout, filter_append, full, empty, append_nil]

theorem indirect_ne_zero (large : 48 < blocks.length) : inode.indirect ≠ 0 := by
  have low := (held.indirect large).1
  omega

theorem indirect_inside (present : inode.indirect ≠ 0) : DataBlock inode.indirect := by
  by_cases large : 48 < blocks.length
  · exact held.indirect large
  · exact absurd (held.direct (Nat.le_of_not_lt large)) present

theorem references_inside {block : Nat}
    (listed : block ∈ volume.references inode) : DataBlock block := by
  rw [references, held.blocksOf_eq] at listed
  rcases mem_append.mp listed with data | table
  · exact held.inside block data
  · unfold nonNull at table
    split at table
    · cases table
    · next present =>
        rw [mem_singleton.mp table]
        exact held.indirect_inside present

/-- The direct slots in use. -/
theorem take_direct : (ofFn inode.direct).take (min blocks.length 48) = blocks.take 48 := by
  rcases held.slots with ⟨unused, layout⟩
  have left : (volume.slots inode).take (min blocks.length 48) =
      (ofFn inode.direct).take (min blocks.length 48) :=
    take_append_of_le_length (by rw [length_ofFn]; exact Nat.min_le_right _ _)
  have right : (blocks ++ replicate unused 0).take (min blocks.length 48) =
      blocks.take (min blocks.length 48) :=
    take_append_of_le_length (Nat.min_le_left _ _)
  rw [<- left, layout, right, Nat.min_comm]
  exact take_eq_take_min.symm

/-- The indirect slots in use. -/
theorem take_indirect (large : 48 < blocks.length) :
    blocks.length <= 1072 ∧ (range' 0 (blocks.length - 48)).map
        (fun slot => (volume.data inode.indirect).word (4 * slot)) = blocks.drop 48 := by
  rcases held.slots with ⟨unused, layout⟩
  have present := held.indirect_ne_zero large
  rw [Volume.slots, if_neg present] at layout
  have lengths := congrArg List.length layout
  simp only [length_append, length_ofFn, length_map, length_range, length_replicate] at lengths
  have bound : blocks.length <= 1072 := by omega
  refine ⟨bound, ?_⟩
  have dropped := congrArg (List.drop 48) layout
  rw [drop_append_of_le_length (Nat.le_of_lt large), drop_left' (by rw [length_ofFn])] at dropped
  have taken := congrArg (List.take (blocks.length - 48)) dropped
  rw [take_left' length_drop, <- map_take, take_range,
    Nat.min_eq_left (by omega), range_eq_range'] at taken
  exact taken

end Holds

end Volume

open Volume

namespace Image

theorem checkBlocks_ok (present : ∀ block ∈ blocks, block ≠ 0) :
    checkBlocks blocks = .ok blocks := by
  induction blocks with
  | nil => rfl
  | cons block rest ih =>
    rw [checkBlocks, if_neg (present block mem_cons_self),
      ih (fun other listed => present other (mem_cons_of_mem _ listed))]

theorem indirectBlocks_takes (count : Nat) {block slot : Nat} {volume : Volume}
    (inside : DataBlock block) (fits : slot + count <= 1024)
    (present : ∀ word, word ∈ (range' slot count).map
      (fun slot => (volume.data block).word (4 * slot)) -> word ≠ 0) :
    Takes (indirectBlocks .new (block * 4096 + 4 * slot) count) volume
      (.ok ((range' slot count).map (fun slot => (volume.data block).word (4 * slot)))) volume := by
  induction count generalizing slot with
  | zero => exact .pure []
  | succ count ih =>
    rw [range'_succ, map_cons] at present
    rw [range'_succ, map_cons]
    refine .bind (.okOr_some (readU32At_tells inside.1 inside.2 (by omega) volume)) ?_
    have next : block * 4096 + 4 * slot + 4 = block * 4096 + 4 * (slot + 1) := by omega
    rw [if_neg (present _ mem_cons_self), next]
    refine .bind (@ih (slot + 1) (by omega)
      (fun word listed => present word (mem_cons_of_mem _ listed))) ?_
    exact .pure _

theorem inodeDataBlocks_takes (held : Holds volume inode blocks) :
    Takes (inodeDataBlocks .new inode) volume (.ok blocks) volume := by
  have nonzero (block : Nat) (listed : block ∈ blocks) : block ≠ 0 := by
    have low := (held.inside block listed).1
    omega
  have needed : (inode.size + blockSize - 1) / blockSize = blocks.length := held.count.symm
  unfold inodeDataBlocks
  rw [needed]
  simp only [directBlocks]
  rw [held.take_direct, checkBlocks_ok (fun block listed =>
    nonzero block (mem_of_mem_take listed))]
  refine .bind (.settled _) ?_
  by_cases large : 48 < blocks.length
  · have inside := held.indirect large
    rcases held.take_indirect large with ⟨bound, words⟩
    rw [if_pos large, if_neg (held.indirect_ne_zero large), blockOffset_new inside.2]
    refine .bind (.settled _) ?_
    have read := @indirectBlocks_takes (blocks.length - 48) inode.indirect 0 volume inside
      (by omega) (fun word listed => nonzero word
        (mem_of_mem_drop (by rw [words] at listed; exact listed)))
    rw [words, Nat.mul_zero, Nat.add_zero] at read
    refine .bind read ?_
    have whole : blocks = blocks.take 48 ++ blocks.drop 48 := (take_append_drop 48 blocks).symm
    rw [<- whole]
    exact .pure _
  · rw [if_neg large, take_of_length_le (Nat.le_of_not_lt large)]
    exact .pure _

theorem take_read (block : Block) {count : Nat} (fits : count <= 4096) :
    (block.read 0 4096).take count = block.read 0 count := by
  rw [Block.read, Block.read, <- map_take, take_range, Nat.min_eq_left fits]

theorem payload_cons (volume : Volume) (block : Nat) (rest : List Nat) (remaining : Nat) :
    volume.payload (block :: rest) remaining =
      (volume.data block).read 0 (min remaining blockSize) ++
        volume.payload rest (remaining - min remaining blockSize) := by
  have front : ((volume.data block).read 0 4096).take remaining =
      (volume.data block).read 0 (min remaining blockSize) := by
    rw [take_eq_take_min, Block.length_read, take_read _ (Nat.min_le_right _ _)]
  have back : remaining - 4096 = remaining - min remaining blockSize := by
    simp only [blockSize]
    omega
  rw [payload, payload, flatMap_cons, take_append, front, Block.length_read, back]

theorem readBlocks_takes {remaining : Nat} (inside : ∀ block ∈ blocks, DataBlock block)
    (enough : remaining <= 4096 * blocks.length) :
    Takes (readBlocks .new blocks remaining) volume (.ok (volume.payload blocks remaining))
      volume := by
  induction blocks generalizing remaining with
  | nil =>
    obtain rfl : remaining = 0 := by simpa using enough
    exact .pure []
  | cons block rest ih =>
    by_cases finished : remaining = 0
    · rw [readBlocks, if_pos finished, payload, finished, take_zero]
      exact .pure []
    · have place := inside block mem_cons_self
      rw [readBlocks, if_neg finished, blockOffset_new place.2]
      refine .bind (.settled _) ?_
      refine .bind (readVec_takes place.1 place.2 (Nat.min_le_right _ _) volume) ?_
      rw [length_cons] at enough
      refine .bind (@ih (remaining - min remaining blockSize)
        (fun other listed => inside other (mem_cons_of_mem _ listed))
        (by simp only [blockSize]; omega)) ?_
      rw [payload_cons]
      exact .pure _

theorem readInodeBytes_takes (held : Holds volume inode blocks) :
    Takes (readInodeBytes .new inode) volume (.ok (volume.payload blocks inode.size)) volume := by
  refine .bind (inodeDataBlocks_takes held) ?_
  refine readBlocks_takes held.inside ?_
  have count := held.count
  unfold blocksFor at count
  omega

end Image

namespace Block

/-- A block that starts with some bytes and is zero behind them. -/
def holding (bytes : List UInt8) : Block := spliceBlock 0 bytes Block.zero

theorem read_holding_slice {start length : Nat} (fits : start + length <= 4096) :
    (holding bytes).read start length = slice (splice (fun _ => 0) 0 bytes) start length := by
  apply map_congr_left
  intro offset listed
  have small : start + offset < 4096 := by
    have bound := mem_range.mp listed
    omega
  rw [byte_of_lt _ small]
  rfl

theorem slice_zeros (start length : Nat) :
    slice (fun _ => (0 : UInt8)) start length = replicate length 0 := by
  rw [slice, map_const', length_range]

theorem read_holding {bytes : List UInt8} (fits : bytes.length <= 4096) :
    (holding bytes).read 0 4096 = bytes ++ replicate (4096 - bytes.length) 0 := by
  have whole : bytes.length + (4096 - bytes.length) = 4096 := by omega
  have split := slice_append (splice (fun _ => (0 : UInt8)) 0 bytes) 0 bytes.length
    (4096 - bytes.length)
  rw [whole, slice_splice, slice_splice_disjoint (Or.inr (Nat.le_refl _)), slice_zeros] at split
  rw [read_holding_slice bytes (Nat.le_refl _), split]

/-- The words of a table that was written from a list. -/
theorem words_holding {words : List Nat} (fits : words.length <= 1024)
    (small : ∀ word ∈ words, word < 2 ^ 32) :
    (range 1024).map (fun slot => (holding (words.flatMap toLeBytes)).word (4 * slot)) =
      words ++ replicate (1024 - words.length) 0 := by
  apply ext_getElem
  · rw [length_map, length_range, length_append, length_replicate]
    omega
  · intro slot bound _
    rw [length_map, length_range] at bound
    rw [getElem_map, getElem_range, word, read_holding_slice _ (by omega)]
    by_cases inside : slot < words.length
    · rw [getElem_append_left inside]
      have placed := wordAt_splice (fun _ => (0 : UInt8)) (flatMap_toLeBytes_split inside)
        (@rfl _ (0 + ((words.take slot).flatMap toLeBytes).length))
      rw [length_flatMap_toLeBytes, length_take, Nat.min_eq_left (Nat.le_of_lt inside),
        Nat.zero_add, Nat.mod_eq_of_lt (small _ (getElem_mem inside))] at placed
      exact placed
    · rw [getElem_append_right (Nat.le_of_not_lt inside), getElem_replicate,
        slice_splice_disjoint (Or.inr (by rw [length_flatMap_toLeBytes]; omega)), slice_zeros]
      rfl

end Block

/-- The part of a payload that goes into one block. -/
def chunk (bytes : List UInt8) (index : Nat) : List UInt8 :=
  (bytes.drop (index * 4096)).take 4096

theorem length_chunk : (chunk bytes index).length <= 4096 := length_take_le _ _

/-- The chunks of a payload, put one behind the other and cut to its length. -/
theorem take_chunks (count index : Nat) (enough : bytes.length <= index * 4096 + count * 4096) :
    ((range' index count).flatMap
        (fun place => (Block.holding (chunk bytes place)).read 0 4096)).take
      (bytes.length - index * 4096) = bytes.drop (index * 4096) := by
  induction count generalizing index with
  | zero =>
    rw [range'_zero, flatMap_nil, take_nil]
    exact (drop_eq_nil_of_le (by simpa using enough)).symm
  | succ count ih =>
    have shifted : bytes.length <= (index + 1) * 4096 + count * 4096 := by
      rw [Nat.succ_mul, Nat.add_right_comm]
      rw [Nat.succ_mul, <- Nat.add_assoc] at enough
      exact enough
    have later := ih (index + 1) shifted
    have next : bytes.drop ((index + 1) * 4096) = (bytes.drop (index * 4096)).drop 4096 := by
      rw [drop_drop, Nat.succ_mul]
    have less : bytes.length - (index + 1) * 4096 = bytes.length - index * 4096 - 4096 := by omega
    rw [next, less] at later
    have size : (bytes.drop (index * 4096)).length = bytes.length - index * 4096 :=
      length_drop
    rw [range'_succ, flatMap_cons, take_append, Block.length_read, later,
      Block.read_holding (length_chunk bytes index)]
    by_cases full : 4096 <= bytes.length - index * 4096
    · have exact : (chunk bytes index).length = 4096 := by
        rw [chunk, length_take, size]
        omega
      rw [exact, Nat.sub_self, replicate_zero, append_nil,
        take_of_length_le (by omega), chunk, take_append_drop]
    · have whole : chunk bytes index = bytes.drop (index * 4096) :=
        take_of_length_le (by omega)
      have none : (bytes.drop (index * 4096)).drop 4096 = [] :=
        drop_eq_nil_of_le (by rw [size]; omega)
      rw [whole, none, take_left' size, append_nil]

namespace Volume

/-- Put consecutive chunks of a payload into a list of blocks. -/
def fill (bytes : List UInt8) : Nat -> List Nat -> Volume -> Volume
  | _, [], volume => volume
  | index, block :: rest, volume =>
    fill bytes (index + 1) rest (volume.setData block (Block.holding (chunk bytes index)))

@[simp] theorem fill_inode (blocks : List Nat)
    (volume : Volume) : (fill bytes index blocks volume).inode = volume.inode := by
  induction blocks generalizing index volume with
  | nil => rfl
  | cons block rest ih => exact ih _ _

@[simp] theorem fill_used (blocks : List Nat)
    (volume : Volume) : (fill bytes index blocks volume).used = volume.used := by
  induction blocks generalizing index volume with
  | nil => rfl
  | cons block rest ih => exact ih _ _

theorem fill_data_of_not_mem {block : Nat} (absent : block ∉ blocks) (volume : Volume) :
    (fill bytes index blocks volume).data block = volume.data block := by
  induction blocks generalizing index volume with
  | nil => rfl
  | cons first rest ih =>
    have different : block ≠ first := fun same => absent (same ▸ mem_cons_self)
    refine (ih _ (fun listed => absent (mem_cons_of_mem _ listed)) _).trans ?_
    exact update_of_ne different _ _

theorem fill_reads (distinct : blocks.Nodup) (volume : Volume) :
    blocks.flatMap (fun block => ((fill bytes index blocks volume).data block).read 0 4096) =
      (range' index blocks.length).flatMap
        (fun place => (Block.holding (chunk bytes place)).read 0 4096) := by
  induction blocks generalizing index volume with
  | nil => rw [flatMap_nil, length_nil, range'_zero, flatMap_nil]
  | cons block rest ih =>
    have parts := nodup_cons.mp distinct
    have here : (fill bytes index (block :: rest) volume).data block =
        .holding (chunk bytes index) := by
      refine (fill_data_of_not_mem bytes (index + 1) parts.1 _).trans ?_
      exact update_self _ _ _
    have later := ih (index + 1) parts.2 (volume.setData block (.holding (chunk bytes index)))
    rw [flatMap_cons, here, length_cons, range'_succ, flatMap_cons, <- later]
    rfl

end Volume

namespace Image

theorem setData_setData (volume : Volume) (block : Nat) (first second : Block) :
    (volume.setData block first).setData block second = volume.setData block second := by
  unfold setData
  rw [update_idem]

/-- Clearing a block and writing its start leaves just what was written. -/
theorem setData_holding (volume : Volume) (block : Nat) (bytes : List UInt8) :
    (volume.setData block Block.zero).setData block
        (spliceBlock 0 bytes ((volume.setData block Block.zero).data block)) =
      volume.setData block (Block.holding bytes) := by
  rw [setData_setData]
  simp only [setData, update_self, Block.holding]

theorem writeBlocks_takes (inside : ∀ block ∈ blocks, DataBlock block) (volume : Volume) :
    Takes (writeBlocks .new bytes index blocks) volume (.ok ())
      (volume.fill bytes index blocks) := by
  induction blocks generalizing index volume with
  | nil => exact .pure ()
  | cons block rest ih =>
    have place := inside block mem_cons_self
    refine .bind (zeroBlock_takes place.1 place.2 volume) ?_
    rw [blockOffset_new place.2]
    refine .bind (.settled _) ?_
    refine .bind (writeAt_takes place.1 place.2 (length_chunk bytes index) _) ?_
    rw [setData_holding]
    exact ih _ (fun other listed => inside other (mem_cons_of_mem _ listed)) _

theorem writeIndirect_takes {indirect : Nat} (inside : indirect ≠ 0 -> DataBlock indirect)
    (fits : blocks.length <= 1072) (volume : Volume) :
    Takes (writeIndirect .new indirect blocks) volume (.ok ()) (if indirect = 0 then volume
        else volume.setData indirect (Block.holding ((blocks.drop 48).flatMap toLeBytes))) := by
  by_cases zero : indirect = 0
  · rw [writeIndirect, if_neg (not_not.mpr zero), if_pos zero]
    exact .pure ()
  · have place := inside zero
    rw [writeIndirect, if_pos zero, if_neg zero, blockOffset_new place.2]
    refine .bind (zeroBlock_takes place.1 place.2 volume) ?_
    refine .bind (.settled _) ?_
    have written := @writeWords_takes indirect (blocks.drop 48) place.1 place.2
      (by rw [length_drop]; omega) (volume.setData indirect .zero)
    rw [setData_holding] at written
    exact written

end Image

/-!
## Objects and the sharing of blocks

A sound volume stores one object for each inode in use, and no two objects
share a block.  Replacing an object, creating an empty one and removing one
each change the object at one inode; all other objects stay as they are.
-/

/-- What an inode stores: its kind, its metadata and its bytes. -/
structure Object where
  kind : UInt8
  uid : UInt32
  gid : UInt32
  mode : UInt16
  bytes : List UInt8
  deriving DecidableEq

namespace Volume

/-- The blocks referenced by an inode in use. -/
def refs (volume : Volume) (index : Nat) : List Nat :=
  if (volume.inode index).kind = kindFree then [] else volume.references (volume.inode index)

/-- The object at an inode, if the inode is in use. -/
def object (volume : Volume) (index : Nat) : Option Object :=
  if (volume.inode index).kind = kindFree then none
  else some {
    kind := (volume.inode index).kind
    uid := (volume.inode index).uid
    gid := (volume.inode index).gid
    mode := (volume.inode index).mode
    bytes := volume.payload (volume.blocksOf (volume.inode index)) (volume.inode index).size }

/-- Every inode in use holds data blocks of its own, and the bitmap marks
exactly those and the blocks of the metadata. -/
structure Sound (volume : Volume) : Prop where
  outside : forall index, 512 <= index -> (volume.inode index).kind = kindFree
  stable : forall index, (volume.inode index).stored = volume.inode index
  vacant : forall index, (volume.inode index).kind = kindFree -> volume.inode index = Inode.free
  held : forall index, (volume.inode index).kind ≠ kindFree ->
    Holds volume (volume.inode index) (volume.blocksOf (volume.inode index))
  distinct : forall index, (volume.refs index).Nodup
  apart : forall index other, index ≠ other ->
    ∀ block ∈ volume.refs index, block ∉ volume.refs other
  marked : ∀ block < 1536,
    (volume.used block = true <-> block < 34 ∨ Exists fun index => block ∈ volume.refs index)

variable {index : Nat}

theorem refs_of_used (taken : (volume.inode index).kind ≠ kindFree) :
    volume.refs index = volume.references (volume.inode index) := if_neg taken

theorem refs_of_free (free : (volume.inode index).kind = kindFree) : volume.refs index = [] :=
  if_pos free

theorem object_eq_none : volume.object index = none <-> (volume.inode index).kind = kindFree := by
  unfold object
  split
  · next free => exact ⟨fun _ => free, fun _ => rfl⟩
  · next taken => exact ⟨fun missing => (nomatch missing), fun free => absurd free taken⟩

namespace Sound

variable {block : Nat}

theorem small (sound : volume.Sound) (taken : (volume.inode index).kind ≠ kindFree) :
    index < 512 := by
  by_contra large
  exact taken (sound.outside index (Nat.le_of_not_lt large))

theorem refs_inside (sound : volume.Sound) (listed : block ∈ volume.refs index) :
    DataBlock block := by
  by_cases free : (volume.inode index).kind = kindFree
  · rw [refs_of_free free] at listed
    cases listed
  · rw [refs_of_used free] at listed
    exact (sound.held index free).references_inside listed

theorem refs_used (sound : volume.Sound) (listed : block ∈ volume.refs index) :
    volume.used block = true :=
  (sound.marked block (sound.refs_inside listed).2).mpr (Or.inr ⟨index, listed⟩)

theorem refs_not_available (sound : volume.Sound) (listed : block ∈ volume.refs index) :
    block ∉ volume.available := by
  intro free
  have unused := (mem_available.mp free).2
  rw [sound.refs_used listed] at unused
  cases unused

end Sound

theorem mem_nonNull {block : Nat} (present : block ≠ 0) : block ∈ nonNull block := by
  rw [nonNull, if_neg present]
  exact List.mem_singleton_self block

theorem slots_congr
    (table : inode.indirect ≠ 0 -> changed.data inode.indirect = volume.data inode.indirect) :
    changed.slots inode = volume.slots inode := by
  by_cases direct : inode.indirect = 0
  · rw [slots, slots, if_pos direct, if_pos direct]
  · rw [slots, slots, if_neg direct, if_neg direct, table direct]

theorem payload_congr (size : Nat) (data : ∀ block ∈ blocks, changed.data block = volume.data block)
    : changed.payload blocks size = volume.payload blocks size := by
  refine congrArg (List.take size) (List.flatMap_congr ?_)
  intro block listed
  rw [data block listed]

/-- An inode that is kept together with the contents of its blocks keeps its
object. -/
structure Keeps (volume changed : Volume) (index : Nat) : Prop where
  inode : changed.inode index = volume.inode index
  data : ∀ block ∈ volume.refs index, changed.data block = volume.data block

namespace Keeps

variable (kept : Keeps volume changed index)
include kept

theorem slots (taken : (volume.inode index).kind ≠ kindFree) :
    changed.slots (volume.inode index) = volume.slots (volume.inode index) := by
  apply slots_congr
  intro present
  apply kept.data
  rw [refs_of_used taken]
  exact List.mem_append_right _ (mem_nonNull present)

theorem refs : changed.refs index = volume.refs index := by
  by_cases free : (volume.inode index).kind = kindFree
  · rw [refs_of_free free, refs_of_free (by rw [kept.inode]; exact free)]
  · rw [refs_of_used free, refs_of_used (by rw [kept.inode]; exact free), kept.inode,
      references, references, blocksOf, blocksOf, kept.slots free]

theorem object : changed.object index = volume.object index := by
  by_cases free : (volume.inode index).kind = kindFree
  · rw [object_eq_none.mpr free, object_eq_none.mpr (by rw [kept.inode]; exact free)]
  · unfold Volume.object
    rw [kept.inode, if_neg free, if_neg free]
    have blocks : changed.blocksOf (volume.inode index) = volume.blocksOf (volume.inode index) := by
      rw [blocksOf, blocksOf, kept.slots free]
    rw [blocks, payload_congr]
    intro block listed
    apply kept.data
    rw [refs_of_used free]
    exact List.mem_append_left _ listed

theorem held (taken : (volume.inode index).kind ≠ kindFree)
    (held : Holds volume (volume.inode index) (volume.blocksOf (volume.inode index))) :
    Holds changed (changed.inode index) (changed.blocksOf (changed.inode index)) := by
  have blocks : changed.blocksOf (volume.inode index) = volume.blocksOf (volume.inode index) := by
    rw [blocksOf, blocksOf, kept.slots taken]
  rw [kept.inode, blocks]
  refine ⟨held.count, ?_, held.inside, held.direct, held.indirect⟩
  rw [kept.slots taken]
  exact held.slots

end Keeps

/-- Soundness after a change at one inode, from what the change does there. -/
theorem Sound.update (sound : volume.Sound) (small : index < 512)
    (kept : ∀ other, other ≠ index -> Keeps volume changed other)
    (stable : (changed.inode index).stored = changed.inode index)
    (vacant : (changed.inode index).kind = kindFree -> changed.inode index = Inode.free)
    (held : (changed.inode index).kind ≠ kindFree ->
      Holds changed (changed.inode index) (changed.blocksOf (changed.inode index)))
    (distinct : (changed.refs index).Nodup)
    (apart : ∀ other, other ≠ index -> ∀ block ∈ changed.refs index, block ∉ volume.refs other)
    (marked : ∀ block < 1536, (changed.used block = true <-> block < 34 ∨
      block ∈ changed.refs index ∨ ∃ other, other ≠ index ∧ block ∈ volume.refs other))
    :
    changed.Sound where
  outside := by
    intro other large
    rw [(kept other (by omega)).inode]
    exact sound.outside other large
  stable := by
    intro other
    by_cases same : other = index
    · rw [same]
      exact stable
    · rw [(kept other same).inode]
      exact sound.stable other
  vacant := by
    intro other free
    by_cases same : other = index
    · subst same
      exact vacant free
    · rw [(kept other same).inode] at free ⊢
      exact sound.vacant other free
  held := by
    intro other taken
    by_cases same : other = index
    · subst same
      exact held taken
    · have old : (volume.inode other).kind ≠ kindFree := by
        rw [<- (kept other same).inode]
        exact taken
      exact (kept other same).held old (sound.held other old)
  distinct := by
    intro other
    by_cases same : other = index
    · rw [same]
      exact distinct
    · rw [(kept other same).refs]
      exact sound.distinct other
  apart := by
    intro first second different block listed
    by_cases firstSame : first = index
    · subst firstSame
      rw [(kept second (Ne.symm different)).refs]
      exact apart second (Ne.symm different) block listed
    · rw [(kept first firstSame).refs] at listed
      by_cases secondSame : second = index
      · subst secondSame
        exact fun both => apart first firstSame block both listed
      · rw [(kept second secondSame).refs]
        exact sound.apart first second different block listed
  marked := by
    intro block bound
    rw [marked block bound]
    apply or_congr_right
    constructor
    · rintro (here | ⟨other, different, listed⟩)
      · exact ⟨index, here⟩
      · exact ⟨other, by rw [(kept other different).refs]; exact listed⟩
    · rintro ⟨other, listed⟩
      by_cases same : other = index
      · exact Or.inl (same ▸ listed)
      · exact Or.inr ⟨other, same, by rw [<- (kept other same).refs]; exact listed⟩

/-- Nothing changed but the contents of free blocks. -/
structure Alike (volume changed : Volume) : Prop where
  inode : changed.inode = volume.inode
  used : changed.used = volume.used
  data : forall block, volume.used block = true -> changed.data block = volume.data block

namespace Alike

theorem refl (volume : Volume) : Alike volume volume := ⟨rfl, rfl, fun _ _ => rfl⟩

theorem keeps (alike : Alike volume changed) (sound : volume.Sound) (index : Nat) :
    Keeps volume changed index where
  inode := congrFun alike.inode index
  data := fun block listed => alike.data block (sound.refs_used listed)

theorem object (alike : Alike volume changed) (sound : volume.Sound) :
    changed.object = volume.object := funext (fun index => (alike.keeps sound index).object)

theorem sound (alike : Alike volume changed) (sound : volume.Sound) : changed.Sound where
  outside := by
    rw [alike.inode]
    exact sound.outside
  stable := by
    rw [alike.inode]
    exact sound.stable
  vacant := by
    rw [alike.inode]
    exact sound.vacant
  held := by
    intro index taken
    have old : (volume.inode index).kind ≠ kindFree := by
      rw [<- alike.inode]
      exact taken
    exact (alike.keeps sound index).held old (sound.held index old)
  distinct := by
    intro index
    rw [(alike.keeps sound index).refs]
    exact sound.distinct index
  apart := by
    intro first second different
    rw [(alike.keeps sound first).refs, (alike.keeps sound second).refs]
    exact sound.apart first second different
  marked := by
    intro block bound
    rw [alike.used, sound.marked block bound]
    apply or_congr_right
    simp only [(alike.keeps sound _).refs]

/-- Taking free blocks and giving them back. -/
theorem of_release_claim (free : ∀ block ∈ blocks, volume.used block = false) :
    Alike volume ((volume.claim blocks).release blocks) where
  inode := rfl
  used := by
    funext block
    by_cases listed : block ∈ blocks
    · simp [claim, release, listed, free block listed]
    · simp [claim, release, listed]
  data := by
    intro block taken
    have absent : block ∉ blocks := by
      intro listed
      rw [free block listed] at taken
      cases taken
    simp [claim, release, absent]

end Alike

end Volume

end CoolOs.CoolFs
