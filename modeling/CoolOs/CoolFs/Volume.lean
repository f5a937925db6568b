import CoolOs.CoolFs.Operations

namespace CoolOs.CoolFs

open BlockStore List

/-!
# Byte access on a flat store

Run over a flat store, the loops that go from block to block read one slice
and write one splice.  From here on the volume is a memory of bytes; which
block a byte lies in no longer matters.
-/

variable {offset : Nat} (bytes : Bytes)

/-- The contents a reliable volume presents. -/
abbrev Bytes := Nat -> UInt8

/-- The flat store behind the block programs. -/
def store : Device FsError Block Bytes := flat 4096 totalBlocks .io

variable {block : Nat}

@[simp] theorem fsLen_new : Superblock.new.fsLen = 6291456 := rfl

theorem store_get (inside : block < totalBlocks) (bytes : Bytes) :
    store.get block bytes = (.ok (blockOf 4096 bytes block), bytes) := if_pos inside

theorem store_update (inside : block < totalBlocks) (change : Block -> Block) (bytes : Bytes) :
    store.update block change bytes =
      (.ok (), setBlock bytes block (change (blockOf 4096 bytes block))) := if_pos inside

theorem absParts_new (inside : offset < 6291456) :
    Superblock.new.absParts offset = some (offset / blockSize, offset % blockSize) :=
  if_neg (Nat.not_le_of_lt inside)

theorem block_of_offset (inside : offset < 6291456) : offset / blockSize < totalBlocks := by
  simp only [blockSize, totalBlocks]
  omega

theorem read_blockOf {start length : Nat} (fits : start + length <= 4096) :
    Block.read (blockOf 4096 bytes block) start length =
      slice bytes (block * 4096 + start) length := by
  apply map_congr_left
  intro offset listed
  have small : start + offset < 4096 := by
    have bound := mem_range.mp listed
    omega
  rw [Block.byte_of_lt _ small]
  exact congrArg bytes (Nat.add_assoc _ _ _).symm

/-- The word at an offset of the volume. -/
def wordAt (bytes : Bytes) (offset : Nat) : Nat :=
  fromLeBytes (slice bytes offset 4)

namespace Image

variable {len : Nat} {input : List UInt8}

theorem readLoop_run (fuel : Nat) {remaining : Nat} (bytes : Bytes) (enough : remaining <= fuel)
    (inside : offset + remaining <= 6291456) :
    exec store (readLoop .new fuel offset remaining) bytes =
      (.ok (slice bytes offset remaining), bytes) := by
  induction fuel generalizing offset remaining with
  | zero =>
    obtain rfl : remaining = 0 := Nat.le_zero.mp enough
    rfl
  | succ fuel ih =>
    by_cases finished : remaining = 0
    · simp only [readLoop, finished]
      rfl
    · have start : offset < 6291456 := by omega
      simp only [readLoop, if_neg finished, absParts_new start]
      generalize taken : min remaining (blockSize - offset % blockSize) = take
      simp only [blockSize] at taken
      have split : slice bytes offset remaining =
          slice bytes offset take ++ slice bytes (offset + take) (remaining - take) := by
        rw [<- slice_append]
        congr 1
        omega
      have here : offset / 4096 * 4096 + offset % 4096 = offset := Nat.div_add_mod' _ _
      rw [exec_bind_ok store (by rw [exec_fetch]; exact store_get (block_of_offset start) bytes),
        exec_bind_ok store (ih (by omega) (by omega)), exec_pure, split]
      simp only [blockSize]
      rw [read_blockOf bytes (by omega), here]

theorem readVec_run (inside : offset + len <= 6291456) :
    exec store (readVec .new offset len) bytes = (.ok (slice bytes offset len), bytes) := by
  rw [readVec, fsLen_new, if_neg (Nat.not_lt_of_le inside)]
  exact readLoop_run len bytes (Nat.le_refl _) inside

theorem readU8_run (inside : offset < 6291456) :
    inquire store (readU8 .new offset) bytes = (some (bytes offset), bytes) := by
  have fetched : inquire store (okOnly (fetch (offset / blockSize))) bytes =
      (some (blockOf 4096 bytes (offset / blockSize)), bytes) := by
    rw [inquire_okOnly, exec_fetch, store_get (block_of_offset inside)]
  simp only [readU8, absParts_new inside]
  rw [inquire_bind_some store fetched, inquire_pure]
  rw [Block.byte_of_lt _ (Nat.mod_lt offset (by decide))]
  exact congrArg (fun address => (some (bytes address), bytes)) (Nat.div_add_mod' offset 4096)

theorem readU32At_run (inside : offset + 4 <= 6291456) :
    inquire store (readU32At .new offset) bytes = (some (wordAt bytes offset), bytes) := by
  have fetched : inquire store (okOnly (readVec .new offset 4)) bytes =
      (some (slice bytes offset 4), bytes) := by
    rw [inquire_okOnly, readVec_run bytes inside]
  rw [readU32At, inquire_bind_some store fetched]
  rfl

theorem readWords_run (count : Nat) (bytes : Bytes) (inside : offset + 4 * count <= 6291456) :
    inquire store (readWords .new offset count) bytes =
      (some ((range count).map (fun slot => wordAt bytes (offset + 4 * slot))), bytes) := by
  induction count generalizing offset with
  | zero => rfl
  | succ count ih =>
    rw [readWords, inquire_bind_some store (readU32At_run bytes (by omega)),
      inquire_bind_some store (ih (by omega)), inquire_pure, range_succ_eq_map,
      map_cons, map_map]
    simp only [Function.comp_def, Nat.mul_succ, Nat.mul_zero, Nat.add_zero, Nat.add_assoc,
      Nat.add_comm 4]

/-- One write inside a block. -/
theorem modify_run (start : offset < 6291456) (fits : offset % 4096 + input.length <= 4096) :
    exec store (modify (offset / blockSize) (spliceBlock (offset % blockSize) input)) bytes =
      (.ok (), splice bytes offset input) := by
  rw [exec_modify, store_update (block_of_offset start)]
  rw [setBlock_spliceBlock bytes _ _ fits, Nat.div_add_mod']

theorem writeU8_run (value : UInt8) (inside : offset < 6291456) :
    exec store (writeU8 .new offset value) bytes = (.ok (), splice bytes offset [value]) := by
  simp only [writeU8, absParts_new inside]
  refine modify_run bytes inside ?_
  simp only [length_singleton]
  omega

theorem writeLoop_run (fuel : Nat) (bytes : Bytes) (enough : input.length <= fuel)
    (inside : offset + input.length <= 6291456) :
    exec store (writeLoop .new fuel offset input) bytes = (.ok (), splice bytes offset input) := by
  induction fuel generalizing offset input bytes with
  | zero =>
    obtain rfl : input = [] := length_eq_zero_iff.mp (Nat.le_zero.mp enough)
    rw [splice_nil]
    rfl
  | succ fuel ih =>
    by_cases finished : input = []
    · simp only [writeLoop, finished, splice_nil]
      rfl
    · have positive : 0 < input.length := length_pos_iff.mpr finished
      have start : offset < 6291456 := by omega
      simp only [writeLoop, if_neg finished, absParts_new start]
      generalize taken : min input.length (blockSize - offset % blockSize) = take
      simp only [blockSize] at taken
      have short : (input.take take).length = take := by
        rw [length_take]
        omega
      have left : (input.drop take).length = input.length - take := length_drop
      rw [exec_bind_ok store (modify_run bytes start (by rw [short]; omega)),
        ih _ (by omega) (by omega)]
      have joined := splice_append bytes offset (input.take take) (input.drop take)
      rw [short, take_append_drop] at joined
      rw [joined]

theorem writeAt_run (inside : offset + input.length <= 6291456) :
    exec store (writeAt .new offset input) bytes = (.ok (), splice bytes offset input) := by
  rw [writeAt, fsLen_new, if_neg (Nat.not_lt_of_le inside)]
  exact writeLoop_run _ bytes (Nat.le_refl _) inside

theorem fillLoop_run (value : UInt8) (fuel : Nat) (bytes : Bytes) (enough : len <= fuel)
    (inside : offset + len <= 6291456) :
    exec store (fillLoop .new value fuel offset len) bytes =
      (.ok (), splice bytes offset (replicate len value)) := by
  induction fuel generalizing offset len bytes with
  | zero =>
    obtain rfl : len = 0 := Nat.le_zero.mp enough
    rw [replicate_zero, splice_nil]
    rfl
  | succ fuel ih =>
    by_cases finished : len = 0
    · simp only [fillLoop, finished, replicate_zero, splice_nil]
      rfl
    · have start : offset < 6291456 := by omega
      simp only [fillLoop, if_neg finished, absParts_new start]
      generalize taken : min len (blockSize - offset % blockSize) = take
      simp only [blockSize] at taken
      have whole : take + (len - take) = len := by omega
      rw [exec_bind_ok store (modify_run bytes start (by rw [length_replicate]; omega)),
        ih _ (by omega) (by omega)]
      have joined := splice_append bytes offset (replicate take value)
        (replicate (len - take) value)
      rw [length_replicate, replicate_append_replicate, whole] at joined
      rw [joined]

theorem fillAt_run (value : UInt8) (inside : offset + len <= 6291456) :
    exec store (fillAt .new offset len value) bytes =
      (.ok (), splice bytes offset (replicate len value)) := by
  rw [fillAt, fsLen_new, if_neg (Nat.not_lt_of_le inside)]
  exact fillLoop_run value _ bytes (Nat.le_refl _) inside

theorem writeU32At_run (value : Nat) (inside : offset + 4 <= 6291456) :
    exec store (writeU32At .new offset value) bytes =
      (.ok (), splice bytes offset (toLeBytes value)) :=
  writeAt_run bytes inside

theorem writeWords_run (words : List Nat) (bytes : Bytes)
    (inside : offset + 4 * words.length <= 6291456) :
    exec store (writeWords .new offset words) bytes =
      (.ok (), splice bytes offset (words.flatMap toLeBytes)) := by
  induction words generalizing offset bytes with
  | nil =>
    rw [flatMap_nil, splice_nil]
    rfl
  | cons word rest ih =>
    rw [length_cons] at inside
    rw [writeWords, exec_bind_ok store (writeU32At_run bytes word (by omega)),
      ih _ (by omega), flatMap_cons, <- splice_append]
    rfl

theorem zeroBlock_run (inside : block < totalBlocks) :
    exec store (zeroBlock block) bytes =
      (.ok (), splice bytes (block * 4096) (replicate 4096 0)) := by
  have zeros : (Block.zero : Block) =
      spliceBlock 0 (replicate 4096 0) (blockOf 4096 bytes block) := by
    funext offset
    have located : spliceAt 0 (replicate 4096 (0 : UInt8)) (0 + offset.val)
        (blockOf 4096 bytes block offset) = _ :=
      spliceAt_inside (by rw [length_replicate]; exact offset.isLt) _
    rw [getElem_replicate, Nat.zero_add] at located
    exact located.symm
  rw [zeroBlock, exec_modify, store_update inside]
  simp only [zeros]
  have whole : 0 + (replicate 4096 (0 : UInt8)).length = 4096 := by
    rw [length_replicate, Nat.zero_add]
  rw [setBlock_spliceBlock bytes block 0 (Nat.le_of_eq whole), Nat.add_zero]

end Image

open Function

/-!
## What a volume decodes to

A volume is read as an inode table, a bitmap and data blocks.  Every write the
filesystem makes to its bytes changes one of the three in one place; the
equations below say which, and the code above them is reasoned about in these
terms only.
-/

/-- The mode a reader sees: zero stands for the default of the kind. -/
def normalMode (kind : UInt8) (mode : UInt16) : UInt16 :=
  if kind ≠ kindFree ∧ mode = 0 then
    if kind = kindDir then defaultDirMode else defaultFileMode
  else mode

/-- The inode record at an offset. -/
def decodeInode (bytes : Bytes) (off : Nat) : Inode where
  kind := bytes off
  size := wordAt bytes (off + 4)
  direct := fun slot => wordAt bytes (off + 8 + 4 * slot.val)
  indirect := wordAt bytes (off + 200)
  uid := UInt32.ofNat (wordAt bytes (off + 204))
  gid := UInt32.ofNat (wordAt bytes (off + 208))
  mode := normalMode (bytes off) (UInt16.ofNat (wordAt bytes (off + 212)) &&& 0o777)

/-- The 256 bytes of an inode record. -/
def encodeInode (inode : Inode) : List UInt8 :=
  ([inode.kind] ++ replicate 3 0) ++ toLeBytes inode.size ++
    (ofFn inode.direct).flatMap toLeBytes ++ toLeBytes inode.indirect ++
    toLeBytes inode.uid.toNat ++ toLeBytes inode.gid.toNat ++
    toLeBytes (inode.mode &&& 0o777).toNat ++ replicate 40 0

/-- An inode as it reads after it was written. -/
def Inode.stored (inode : Inode) : Inode where
  kind := inode.kind
  size := inode.size % 2 ^ 32
  direct := fun slot => inode.direct slot % 2 ^ 32
  indirect := inode.indirect % 2 ^ 32
  uid := inode.uid
  gid := inode.gid
  mode := normalMode inode.kind (inode.mode &&& 0o777)

variable {index : Nat}

variable {other : Nat}

theorem wordAt_splice (bytes : Bytes) {start : Nat} {whole front back : List UInt8} {value : Nat}
    (split : whole = front ++ (toLeBytes value ++ back)) (place : offset = start + front.length) :
    wordAt (splice bytes start whole) offset = value % 2 ^ 32 := by
  subst split
  subst place
  rw [wordAt, <- splice_append, <- splice_append]
  have inner : slice (splice (splice bytes start front) (start + front.length) (toLeBytes value))
      (start + front.length) 4 = toLeBytes value := slice_splice _ _ _
  have outside : slice (splice (splice (splice bytes start front) (start + front.length)
      (toLeBytes value)) (start + front.length + (toLeBytes value).length) back)
      (start + front.length) 4 = _ := slice_splice_disjoint (.inl (Nat.le_refl _))
  rw [outside, inner, fromLeBytes_toLeBytes]

theorem wordAt_congr {bytes other : Bytes}
    (agree : ∀ address, offset <= address -> address < offset + 4 -> bytes address = other address)
    : wordAt bytes offset = wordAt other offset :=
  congrArg fromLeBytes (slice_congr agree)

theorem length_flatMap_toLeBytes (words : List Nat) :
    (words.flatMap toLeBytes).length = 4 * words.length := by
  induction words with
  | nil => rfl
  | cons word rest ih =>
    rw [flatMap_cons, length_append, length_toLeBytes, ih, length_cons]
    omega

/-- One word of a list of words. -/
theorem flatMap_toLeBytes_split {words : List Nat} {slot : Nat} (inside : slot < words.length) :
    words.flatMap toLeBytes = (words.take slot).flatMap toLeBytes ++
        (toLeBytes words[slot] ++ (words.drop (slot + 1)).flatMap toLeBytes) := by
  rw [<- flatMap_cons, <- drop_eq_getElem_cons inside, <- flatMap_append, take_append_drop]

theorem length_encodeInode (inode : Inode) : (encodeInode inode).length = 256 := by
  simp only [encodeInode, length_append, length_flatMap_toLeBytes, length_ofFn,
    length_toLeBytes, length_replicate, length_singleton]

theorem ofNat_word (value : UInt32) : UInt32.ofNat (value.toNat % 2 ^ 32) = value := by
  rw [Nat.mod_eq_of_lt value.toNat_lt, UInt32.ofNat_toNat]

theorem ofNat_mode (mode : UInt16) :
    UInt16.ofNat ((mode &&& 0o777).toNat % 2 ^ 32) &&& 0o777 = mode &&& 0o777 := by
  have small : (mode &&& 0o777).toNat < 2 ^ 32 :=
    Nat.lt_trans (mode &&& 0o777).toNat_lt (by decide)
  rw [Nat.mod_eq_of_lt small, UInt16.ofNat_toNat, UInt16.and_assoc, UInt16.and_self]

/-- Reading back a record that was just written. -/
theorem decodeInode_splice (bytes : Bytes) (off : Nat) (inode : Inode) :
    decodeInode (splice bytes off (encodeInode inode)) off = inode.stored := by
  have kindSame : splice bytes off (encodeInode inode) off = inode.kind :=
    @spliceAt_inside _ off 0 (encodeInode inode) (by rw [length_encodeInode]; decide) _
  -- after the kind the record is a row of words
  let words := inode.size :: (ofFn inode.direct ++
    [inode.indirect, inode.uid.toNat, inode.gid.toNat, (inode.mode &&& 0o777).toNat])
  have row : encodeInode inode =
      [inode.kind] ++ replicate 3 0 ++ (words.flatMap toLeBytes ++ replicate 40 0) := by
    simp [encodeInode, words]
  have word {index value : Nat} (found : words[index]? = some value) :
      wordAt (splice bytes off (encodeInode inode)) (off + (4 + 4 * index)) = value % 2 ^ 32 := by
    rcases List.getElem?_eq_some_iff.mp found with ⟨inside, rfl⟩
    have split : encodeInode inode =
        [inode.kind] ++ replicate 3 0 ++ (words.take index).flatMap toLeBytes ++
          (toLeBytes words[index] ++ ((words.drop (index + 1)).flatMap toLeBytes ++
            replicate 40 0)) := by
      rw [row, flatMap_toLeBytes_split inside]
      simp only [append_assoc]
    refine wordAt_splice bytes split ?_
    simp only [length_append, length_flatMap_toLeBytes, length_take, length_singleton,
      length_replicate]
    omega
  apply Inode.ext
  · exact kindSame
  · exact @word 0 _ rfl
  · funext slot
    have place : off + 8 + 4 * slot.val = off + (4 + 4 * (slot.val + 1)) := by omega
    have inside : slot.val < (ofFn inode.direct).length := by
      rw [length_ofFn]
      exact slot.isLt
    change wordAt _ (off + 8 + 4 * slot.val) = _
    rw [place]
    refine word ?_
    rw [getElem?_cons_succ, getElem?_append_left inside, getElem?_eq_getElem inside,
      List.getElem_ofFn]
  · exact @word 49 _ rfl
  · exact (congrArg UInt32.ofNat (@word 50 _ rfl)).trans (ofNat_word inode.uid)
  · exact (congrArg UInt32.ofNat (@word 51 _ rfl)).trans (ofNat_word inode.gid)
  · have stored := @word 52 _ rfl
    simp only [decodeInode, Inode.stored, kindSame, stored, ofNat_mode]

theorem decodeInode_congr {bytes other : Bytes} {off : Nat}
    (agree : ∀ address, off <= address -> address < off + 256 ->
      bytes address = other address) : decodeInode bytes off = decodeInode other off := by
  have word (offset : Nat) (low : off <= offset) (high : offset + 4 <= off + 256) :
      wordAt bytes offset = wordAt other offset := by
    apply wordAt_congr
    intro address after before
    exact agree address (by omega) (by omega)
  have kindSame : bytes off = other off := agree off (Nat.le_refl _) (by omega)
  apply Inode.ext
  · exact kindSame
  · exact word _ (by omega) (by omega)
  · funext slot
    have bound := slot.isLt
    exact word _ (by omega) (by omega)
  · exact word _ (by omega) (by omega)
  · exact congrArg UInt32.ofNat (word _ (by omega) (by omega))
  · exact congrArg UInt32.ofNat (word _ (by omega) (by omega))
  · simp only [decodeInode, kindSame, word (off + 212) (by omega) (by omega)]

/-- The mask of one bit of a byte. -/
def bit (index : Nat) : UInt8 := 1 <<< UInt8.ofNat index

theorem bit_ne_zero (small : index < 8) : bit index ≠ 0 :=
  (by decide : ∀ index : Fin 8, bit index.val ≠ 0) ⟨index, small⟩

theorem bit_and_bit (small : index < 8) (smallOther : other < 8) (different : index ≠ other) :
    bit index &&& bit other = 0 :=
  (by decide : ∀ index other : Fin 8, index ≠ other -> bit index.val &&& bit other.val = 0)
    ⟨index, small⟩ ⟨other, smallOther⟩ (fun same => different (Fin.mk.inj same))

theorem not_bit_and_bit (small : index < 8) (smallOther : other < 8) (different : index ≠ other) :
    ~~~bit index &&& bit other = bit other :=
  (by decide : ∀ index other : Fin 8, index ≠ other ->
      ~~~bit index.val &&& bit other.val = bit other.val)
    ⟨index, small⟩ ⟨other, smallOther⟩ (fun same => different (Fin.mk.inj same))

theorem or_and_distrib (value mask other : UInt8) :
    (value ||| mask) &&& other = (value &&& other) ||| (mask &&& other) := by
  apply UInt8.toBitVec_inj.mp
  apply BitVec.eq_of_getLsbD_eq
  intro index _
  simp only [UInt8.toBitVec_and, UInt8.toBitVec_or, BitVec.getLsbD_and, BitVec.getLsbD_or,
    Bool.and_or_distrib_right]

theorem or_ne_zero {value mask : UInt8} (nonzero : mask ≠ 0) : value ||| mask ≠ 0 := by
  intro zero
  apply nonzero
  have both := UInt8.or_eq_zero_iff.mp zero
  exact both.2

/-- Setting or clearing one bit changes that bit and no other. -/
theorem put_bit (value : UInt8) (small : index < 8) (smallOther : other < 8) (set : Bool) :
    ((if set then value ||| bit index else value &&& ~~~bit index) &&& bit other != 0) =
      if index = other then set else value &&& bit other != 0 := by
  by_cases same : index = other
  · subst same
    rw [if_pos rfl]
    cases set with
    | true =>
      simp only [if_true, or_and_distrib, UInt8.and_self]
      exact bne_iff_ne.mpr (or_ne_zero (bit_ne_zero small))
    | false =>
      simp [UInt8.and_assoc]
  · rw [if_neg same]
    cases set with
    | true => simp only [if_true, or_and_distrib, bit_and_bit small smallOther same, UInt8.or_zero]
    | false =>
      simp [UInt8.and_assoc, not_bit_and_bit small smallOther same]

/-- An inode table, a bitmap and the data blocks.  Places outside the volume
hold fixed values, so that two decoded volumes are equal when they agree
inside it. -/
@[ext] structure Volume where
  inode : Nat -> Inode
  used : Nat -> Bool
  data : Nat -> Block

namespace Volume

/-- Decode the bytes of a volume. -/
def ofBytes (bytes : Bytes) : Volume where
  inode := fun index => if index < 512 then decodeInode bytes (4096 + index * 256) else Inode.free
  used := fun block => if block < 1536 then bytes (135168 + block / 8) &&& bit (block % 8) != 0
    else true
  data := fun block => if 34 <= block ∧ block < 1536 then blockOf 4096 bytes block else Block.zero

def setInode (volume : Volume) (index : Nat) (inode : Inode) : Volume :=
  { volume with inode := Function.update volume.inode index inode }

def setUsed (volume : Volume) (block : Nat) (used : Bool) : Volume :=
  { volume with used := Function.update volume.used block used }

def setData (volume : Volume) (block : Nat) (contents : Block) : Volume :=
  { volume with data := Function.update volume.data block contents }

/-- A write outside the inode table does not change it; likewise below. -/
theorem inode_congr {bytes other : Bytes}
    (agree : ∀ address, 4096 <= address -> address < 135168 -> bytes address = other address) :
    (ofBytes bytes).inode = (ofBytes other).inode := by
  funext index
  simp only [ofBytes]
  by_cases inside : index < 512
  · rw [if_pos inside, if_pos inside]
    apply decodeInode_congr
    intro address low high
    exact agree address (by omega) (by omega)
  · rw [if_neg inside, if_neg inside]

variable {bytes other : Bytes}

theorem used_congr (agree : ∀ address, 135168 <= address -> address < 139264 ->
      bytes address = other address) : (ofBytes bytes).used = (ofBytes other).used := by
  funext block
  simp only [ofBytes]
  by_cases inside : block < 1536
  · rw [if_pos inside, if_pos inside, agree _ (by omega) (by omega)]
  · rw [if_neg inside, if_neg inside]

theorem data_congr
    (agree : ∀ address, 139264 <= address -> block * 4096 <= address ->
      address < block * 4096 + 4096 -> bytes address = other address) :
    (ofBytes bytes).data block = (ofBytes other).data block := by
  simp only [ofBytes]
  by_cases inside : 34 <= block ∧ block < 1536
  · rw [if_pos inside, if_pos inside]
    funext offset
    have bound := offset.isLt
    exact agree _ (by omega) (by omega) (by omega)
  · rw [if_neg inside, if_neg inside]

/-- Writing an inode record. -/
theorem ofBytes_inode (bytes : Bytes) (inside : index < 512) (inode : Inode) :
    ofBytes (splice bytes (4096 + index * 256) (encodeInode inode)) =
      (ofBytes bytes).setInode index inode.stored := by
  have outside (address : Nat)
      (away : address < 4096 + index * 256 ∨ 4096 + index * 256 + 256 <= address) :
      splice bytes (4096 + index * 256) (encodeInode inode) address = bytes address := by
    rcases away with before | after
    · exact splice_before _ before
    · exact splice_after (by rw [length_encodeInode]; exact after)
  apply Volume.ext
  · funext other
    by_cases same : other = index
    · subst same
      simp only [setInode, update_self, ofBytes, if_pos inside]
      exact decodeInode_splice _ _ _
    · simp only [setInode, update_of_ne same, ofBytes]
      by_cases small : other < 512
      · rw [if_pos small, if_pos small]
        apply decodeInode_congr
        intro address low high
        exact outside address (by omega)
      · rw [if_neg small, if_neg small]
  · apply used_congr
    intro address low high
    exact outside address (by omega)
  · funext block
    apply data_congr
    intro address low _ _
    exact outside address (by omega)

/-- Writing a bitmap byte. -/
theorem ofBytes_used (bytes : Bytes) (inside : block < 1536) (used : Bool) :
    ofBytes (splice bytes (135168 + block / 8)
        [if used then bytes (135168 + block / 8) ||| bit (block % 8)
          else bytes (135168 + block / 8) &&& ~~~bit (block % 8)]) =
      (ofBytes bytes).setUsed block used := by
  have outside (value : UInt8) (address : Nat) (away : address ≠ 135168 + block / 8) :
      splice bytes (135168 + block / 8) [value] address = bytes address := by
    by_cases before : address < 135168 + block / 8
    · exact splice_before _ before
    · exact splice_after (by rw [length_singleton]; omega)
  have written (value : UInt8) :
      splice bytes (135168 + block / 8) [value] (135168 + block / 8) = value :=
    @spliceAt_inside _ (135168 + block / 8) 0 [value] (Nat.zero_lt_one) _
  apply Volume.ext
  · apply inode_congr
    intro address low high
    exact outside _ address (by omega)
  · funext other
    by_cases small : other < 1536
    · simp only [ofBytes, setUsed, update_apply, if_pos small]
      by_cases byteSame : other / 8 = block / 8
      · have bitSame : block % 8 = other % 8 <-> other = block := by omega
        rw [byteSame, written, put_bit _ (by omega) (by omega)]
        by_cases same : other = block
        · rw [if_pos (bitSame.mpr same), if_pos same]
        · rw [if_neg (mt bitSame.mp same), if_neg same]
      · rw [outside _ _ (by omega), if_neg (by omega)]
    · have different : other ≠ block := by omega
      simp only [ofBytes, setUsed, update_apply, if_neg small, if_neg different]
  · funext other
    apply data_congr
    intro address low _ _
    exact outside _ address (by omega)

/-- Writing inside a data block. -/
theorem ofBytes_data (bytes : Bytes) {block start : Nat} {input : List UInt8}
    (low : 34 <= block) (high : block < 1536) (fits : start + input.length <= 4096) :
    ofBytes (splice bytes (block * 4096 + start) input) =
      (ofBytes bytes).setData block (spliceBlock start input ((ofBytes bytes).data block)) := by
  have outside (address : Nat) (away : address < block * 4096 ∨ block * 4096 + 4096 <= address) :
      splice bytes (block * 4096 + start) input address = bytes address := by
    rcases away with before | after
    · exact splice_before _ (Nat.lt_of_lt_of_le before (Nat.le_add_right _ _))
    · have last : block * 4096 + start + input.length <= block * 4096 + 4096 := by
        rw [Nat.add_assoc]
        exact Nat.add_le_add_left fits _
      exact splice_after (Nat.le_trans last after)
  apply Volume.ext
  · apply inode_congr
    intro address _ bound
    exact outside address (by omega)
  · apply used_congr
    intro address _ bound
    exact outside address (by omega)
  · funext other
    by_cases same : other = block
    · subst same
      simp only [setData, update_self, ofBytes, if_pos (And.intro low high)]
      funext offset
      exact spliceAt_shift _ _ _ _ _
    · simp only [setData, update_of_ne same]
      apply data_congr
      intro address _ above below
      exact outside address (by omega)

end Volume

end CoolOs.CoolFs
