import CoolOs.DiskImage.Builder

namespace CoolOs.DiskImage

open BlockStore CoolFs CoolFs.Volume List

/-!
# The builder's allocator and payloads

The builder takes the same blocks as the kernel in the same order and lays a
payload out in the same way, so replacing a payload is the kernel's `rewrite`.
Where the kernel reports that there is no space, the builder panics.
-/

section

variable {volume : Volume} {block count : Nat} {rest : List Nat}

theorem allocBlockFrom_ends {blocks : List Nat} (inside : ∀ block ∈ blocks, DataBlock block) :
    Ends (allocBlockFrom blocks) volume ((blocks.find? (fun block => !volume.used block)).map
      fun block => (block, volume.claim [block])) := by
  induction blocks with
  | nil => exact Stops.failure
  | cons first others ih =>
    have place := inside first mem_cons_self
    refine .bind (blockUsed_makes place.2 volume) ?_
    rw [find?_cons]
    cases used : volume.used first with
    | true => exact ih fun other listed => inside other (mem_cons_of_mem _ listed)
    | false =>
      rw [if_neg Bool.false_ne_true, Bool.not_false, Option.map_some, <- claim_singleton]
      refine .bind (setBlockUsed_makes place.2 true volume) ?_
      exact .bind (fill_makes place _) (Makes.pure first)

theorem allocBlock_ends : Ends allocBlock volume
    (volume.available.head?.map fun block => (block, volume.claim [block])) := by
  rw [available, head?_filter]
  exact allocBlockFrom_ends fun _ listed => Image.dataBlocks_inside listed

theorem allocBlock_makes (free : volume.available = block :: rest) :
    Makes allocBlock volume block (volume.claim [block]) := by
  have ends := @allocBlock_ends volume
  rwa [free] at ends

theorem available_claim_first (free : volume.available = block :: rest) :
    (volume.claim [block]).available = rest := by
  have first : volume.available.take 1 = [block] := by rw [free]; rfl
  rw [<- first, available_claim_take, free]
  rfl

theorem allocBlocks_ends (count : Nat) : Ends (allocBlocks count) volume
    (if count <= volume.available.length then
      some (volume.available.take count, volume.claim (volume.available.take count)) else none) := by
  induction count generalizing volume with
  | zero =>
    rw [if_pos (Nat.zero_le _), take_zero, claim_nil]
    exact Makes.pure []
  | succ count ih =>
    cases free : volume.available with
    | nil =>
      have ends := @allocBlock_ends volume
      rw [free] at ends
      exact Stops.first ends
    | cons block rest =>
      have step := @ih (volume.claim [block])
      rw [available_claim_first free] at step
      simp only [length_cons, Nat.add_le_add_iff_right]
      by_cases enough : count <= rest.length
      · rw [if_pos enough, claim_claim] at step
        rw [if_pos enough]
        exact .bind (allocBlock_makes free) (Makes.bind step (.pure _))
      · rw [if_neg enough] at step
        rw [if_neg enough]
        exact .bind (allocBlock_makes free) (Stops.first step)

end

variable {blocks : List Nat} {volume : Volume} {inode : Inode} {indirect : Nat}

theorem Raw.holds {shown : Inode} (raw : Raw inode shown) (held : Holds volume shown blocks) :
    Holds volume inode blocks := by
  have slots : volume.slots inode = volume.slots shown := by
    rw [Volume.slots, Volume.slots, raw.direct, raw.indirect]
  refine ⟨?_, ?_, held.inside, ?_, ?_⟩
  · rw [raw.size]
    exact held.count
  · rw [slots]
    exact held.slots
  · rw [raw.indirect]
    exact held.direct
  · rw [raw.indirect]
    exact held.indirect

theorem filter_nonzero (inside : ∀ block ∈ blocks, DataBlock block) :
    blocks.filter (fun block => block != 0) = blocks := by
  refine filter_eq_self.mpr (fun block listed => ?_)
  have low := (inside block listed).1
  exact bne_iff_ne.mpr (by omega)

theorem inodeDataBlocks_makes (held : Holds volume inode blocks) :
    Makes (inodeDataBlocks inode) volume blocks volume := by
  have needed : (inode.size + cfBlockSize - 1) / cfBlockSize = blocks.length := held.count.symm
  have front : ((ofFn inode.direct).take (min blocks.length 48)).filter
      (fun block => block != 0) = blocks.take 48 := by
    rw [held.take_direct]
    exact filter_nonzero (fun block listed => held.inside block (mem_of_mem_take listed))
  unfold inodeDataBlocks
  simp only [needed, cfDirectBlocks, front]
  by_cases large : 48 < blocks.length
  · rcases held.take_indirect large with ⟨bound, words⟩
    have back : (blocks.drop 48).filter (fun block => block != 0) = blocks.drop 48 :=
      filter_nonzero (fun block listed => held.inside block (mem_of_mem_drop listed))
    have read := @cfReadWords_makes inode.indirect (blocks.length - 48) (held.indirect large)
      (by omega) volume
    rw [range_eq_range', words] at read
    rw [if_pos ⟨large, held.indirect_ne_zero large⟩]
    refine .bind read ?_
    rw [back, take_append_drop]
    exact .pure blocks
  · rw [if_neg (fun both => large both.1), take_of_length_le (Nat.le_of_not_lt large)]
    exact .pure blocks

theorem readBlocks_makes {remaining : Nat} (inside : ∀ block ∈ blocks, DataBlock block)
    (enough : remaining <= 4096 * blocks.length) :
    Makes (readBlocks blocks remaining) volume (volume.payload blocks remaining) volume := by
  induction blocks generalizing remaining with
  | nil =>
    obtain rfl : remaining = 0 := by simpa using enough
    exact .pure []
  | cons block rest ih =>
    by_cases finished : remaining = 0
    · rw [readBlocks, if_pos finished, payload, finished, take_zero]
      exact .pure []
    · rw [readBlocks, if_neg finished]
      refine .bind (readSlice_makes (inside block mem_cons_self) (Nat.min_le_right _ _) volume) ?_
      rw [length_cons] at enough
      refine .bind (@ih (remaining - min remaining cfBlockSize)
        (fun other listed => inside other (mem_cons_of_mem _ listed))
        (by simp only [cfBlockSize]; omega)) ?_
      rw [Image.payload_cons]
      exact .pure _

theorem readInodeBytes_makes (held : Holds volume inode blocks) :
    Makes (readInodeBytes inode) volume (volume.payload blocks inode.size) volume := by
  refine .bind (inodeDataBlocks_makes held) (readBlocks_makes held.inside ?_)
  have count := held.count
  unfold blocksFor at count
  omega

theorem chunk_eq (bytes : List UInt8) (idx : Nat) : (bytes.drop (idx * cfBlockSize)).take
        (min (idx * cfBlockSize + cfBlockSize) bytes.length - idx * cfBlockSize) =
      chunk bytes idx := by
  simp only [cfBlockSize]
  unfold chunk
  rw [take_eq_take_iff, length_drop]
  omega

theorem writeBlocks_makes (bytes : List UInt8) (idx : Nat)
    (inside : ∀ block ∈ blocks, DataBlock block) (volume : Volume) :
    Makes (writeBlocks bytes idx blocks) volume () (volume.fill bytes idx blocks) := by
  induction blocks generalizing idx volume with
  | nil => exact .pure ()
  | cons block rest ih =>
    have place := inside block mem_cons_self
    refine .bind (fill_makes place volume) ?_
    dsimp only
    rw [chunk_eq]
    refine .bind (writeSlice_makes place (length_chunk bytes idx) _) ?_
    rw [Image.setData_holding]
    exact ih _ (fun other listed => inside other (mem_cons_of_mem _ listed)) _

theorem writeIndirect_makes (inside : indirect ≠ 0 -> DataBlock indirect)
    (fits : blocks.length <= 1072) (volume : Volume) :
    Makes (writeIndirect indirect blocks) volume () (if indirect = 0 then volume
        else volume.setData indirect (Block.holding ((blocks.drop 48).flatMap toLeBytes))) := by
  by_cases zero : indirect = 0
  · rw [writeIndirect, if_neg (not_not.mpr zero), if_pos zero]
    exact .pure ()
  · have place := inside zero
    rw [writeIndirect, if_pos zero, if_neg zero]
    refine .bind (fill_makes place volume) ?_
    have written := @cfWriteWords_makes indirect (blocks.drop 48) place
      (by rw [length_drop]; omega) (volume.setData indirect .zero)
    rw [Image.setData_holding] at written
    exact written

theorem freeBlocks_makes (inside : ∀ block ∈ blocks, DataBlock block) (volume : Volume) :
    Makes (freeBlocks blocks) volume () (volume.release blocks) := by
  induction blocks generalizing volume with
  | nil =>
    rw [release_nil]
    exact .pure ()
  | cons block rest ih =>
    refine .bind (setBlockUsed_makes (inside block mem_cons_self).2 false volume) ?_
    rw [<- setUsed_release]
    exact ih (fun other listed => inside other (mem_cons_of_mem _ listed)) _

theorem freeIndirect_makes (inside : indirect ≠ 0 -> DataBlock indirect) (volume : Volume) :
    Makes (freeIndirect indirect) volume () (volume.release (nonNull indirect)) := by
  by_cases zero : indirect = 0
  · rw [freeIndirect, if_neg (not_not.mpr zero), nonNull, if_pos zero, release_nil]
    exact .pure ()
  · rw [freeIndirect, if_pos zero, nonNull, if_neg zero, <- setUsed_release, release_nil]
    exact setBlockUsed_makes (inside zero).2 false volume

section

variable {index : Nat} {bytes : List UInt8}

theorem allocIndirect_makes (room : volume.RoomFor bytes) :
    Makes (allocIndirect (blocksFor bytes.length)) (volume.claim (volume.newBlocks bytes))
      (volume.newIndirect bytes) (volume.claim (volume.fresh bytes)) := by
  unfold allocIndirect
  by_cases large : 48 < blocksFor bytes.length
  · rw [if_pos large, room.claim_fresh large]
    exact allocBlock_makes (room.available_indirect large)
  · have zero : volume.newIndirect bytes = 0 := if_neg large
    rw [if_neg large, fresh, zero, nonNull, if_pos rfl, append_nil]
    exact .pure 0

/-- The builder replaces a payload exactly as the kernel does. -/
theorem writeInodeBytes_makes (sound : volume.Sound) (taken : (volume.inode index).kind ≠ kindFree)
    (room : volume.RoomFor bytes) :
    Makes (writeInodeBytes index bytes) volume () (volume.rewrite index bytes) := by
  have small := sound.small taken
  have old := sound.held index taken
  have accepted : ¬ (cfDirectBlocks + cfIndirectEntries) * cfBlockSize < bytes.length :=
    Nat.not_lt_of_le room.short
  have needed : (bytes.length + cfBlockSize - 1) / cfBlockSize = blocksFor bytes.length := rfl
  have enough : blocksFor bytes.length <= volume.available.length :=
    Nat.le_trans (Nat.le_add_right _ _) room.enough
  unfold writeInodeBytes
  rw [if_neg accepted]
  rw [needed]
  have blocks := @allocBlocks_ends volume (blocksFor bytes.length)
  rw [if_pos enough, <- newBlocks] at blocks
  refine .bind blocks ?_
  refine .bind (allocIndirect_makes room) ?_
  refine .bind (writeBlocks_makes bytes 0 (fun _ listed => room.newBlocks_inside listed) _) ?_
  refine .bind (writeIndirect_makes room.newIndirect_inside
    (by rw [room.length_newBlocks]; exact room.bound) _) ?_
  rw [Image.claimed_stage]
  refine .readInode_bind small (fun inode raw => ?_)
  rw [stage_inode] at raw
  refine .bind (inodeDataBlocks_makes (raw.holds (stage_held sound taken room))) ?_
  refine .bind (writeInode_makes small _ _) ?_
  have record : ({ inode with
      size := bytes.length
      direct := fun slot => (volume.newBlocks bytes).getD slot.val 0
      indirect := volume.newIndirect bytes } : Inode).stored =
        (volume.inode index).renew bytes.length (volume.newBlocks bytes)
          (volume.newIndirect bytes) := by
    have same := @stored_renew volume bytes index sound room
    have size := congrArg Inode.size same
    have direct := congrArg Inode.direct same
    have indirect := congrArg Inode.indirect same
    rw [raw.stored_eq]
    exact Inode.ext rfl size direct indirect rfl rfl rfl
  rw [record]
  refine .bind (freeBlocks_makes old.inside _) ?_
  rw [raw.indirect]
  have last := freeIndirect_makes old.indirect_inside
    (((volume.stage bytes).setInode index ((volume.inode index).renew bytes.length
      (volume.newBlocks bytes) (volume.newIndirect bytes))).release
        (volume.blocksOf (volume.inode index)))
  rw [release_release] at last
  exact last

/-- Without room the builder panics. -/
theorem writeInodeBytes_stops (full : ¬ volume.RoomFor bytes) :
    Stops (writeInodeBytes index bytes) volume := by
  unfold writeInodeBytes
  by_cases long : (cfDirectBlocks + cfIndirectEntries) * cfBlockSize < bytes.length
  · rw [if_pos long]
    exact .failure
  · rw [if_neg long]
    have short : bytes.length <= 4390912 := Nat.le_of_not_lt long
    have needed : (bytes.length + cfBlockSize - 1) / cfBlockSize = blocksFor bytes.length := rfl
    have blocks := @allocBlocks_ends volume (blocksFor bytes.length)
    rw [needed]
    by_cases enough : blocksFor bytes.length <= volume.available.length
    · have missing := Image.indirect_missing short full enough
      rw [if_pos enough] at blocks
      refine .later blocks (.first ?_)
      have ends := @allocBlock_ends (volume.claim (volume.available.take (blocksFor bytes.length)))
      rw [available_claim_take, drop_eq_nil_of_le (Nat.le_of_eq missing.2)] at ends
      rw [allocIndirect, if_pos missing.1]
      exact ends
    · rw [if_neg enough] at blocks
      exact .first blocks

end

open Naming

/-!
## The builder's names, paths and directories

The builder drops `.` parts from a path and otherwise looks paths up as the
kernel does, in directories it encodes in the same records.
-/

variable {path : List UInt8}

theorem validateName_iff {name : Name} : validateName name = true <-> ValidName name := by
  have bytes : (name.all (fun byte => 0x20 <= byte && byte <= 0x7e && byte != slash) = true) <->
      ∀ byte ∈ name, nameByte byte = true := all_eq_true
  unfold validateName
  rw [Bool.and_eq_true, bytes]
  simp only [Bool.and_eq_true, Bool.not_eq_true', bne_iff_ne, ne_eq, isEmpty_eq_false_iff,
    decide_eq_true_eq]
  constructor
  · rintro ⟨⟨⟨⟨nonempty, notDot⟩, notDotDot⟩, short⟩, printable⟩
    exact ⟨nonempty, notDot, notDotDot, short, printable⟩
  · intro valid
    exact ⟨⟨⟨⟨valid.nonempty, valid.notDot⟩, valid.notDotDot⟩, valid.short⟩, valid.printable⟩

/-- No piece of a split path holds a separator. -/
theorem slash_not_mem_piece {piece : Name} (listed : piece ∈ splitSlash path) : slash ∉ piece := by
  induction path generalizing piece with
  | nil =>
    rw [splitSlash, mem_singleton] at listed
    rw [listed]
    exact not_mem_nil
  | cons byte rest ih =>
    by_cases separator : byte = slash
    · rw [splitSlash, if_pos separator] at listed
      rcases mem_cons.mp listed with rfl | later
      · exact not_mem_nil
      · exact ih later
    · rw [splitSlash, if_neg separator] at listed
      cases pieces : splitSlash rest with
      | nil => exact absurd pieces (splitSlash_ne_nil rest)
      | cons first others =>
        rw [pieces] at ih listed
        rcases mem_cons.mp listed with rfl | later
        · intro inside
          rcases mem_cons.mp inside with same | inside
          · exact separator same.symm
          · exact ih mem_cons_self inside
        · exact ih (mem_cons_of_mem _ later)

/-- The components the builder goes by. -/
def parts (path : List UInt8) : List Name :=
  (components path).filter (fun part => part != [dot])

theorem parts_eq (path : List UInt8) :
    (splitSlash path).filter (fun part => part != [] && part != [dot]) = parts path := by
  rw [parts, components, filter_filter]
  apply filter_congr
  intro part _
  rw [Bool.and_comm]
  cases part with
  | nil => rfl
  | cons byte rest => rfl

/-- What normalizing keeps, when it does not panic. -/
theorem normalizeAbsPath_some {normalized : List UInt8}
    (outcome : normalizeAbsPath path = some normalized) :
    path.head? = some slash ∧ normalized.head? = some slash ∧
      components normalized = parts path ∧ [dot, dot] ∉ parts path := by
  unfold normalizeAbsPath at outcome
  by_cases absolute : path.head? = some slash
  · rw [if_neg (not_not.mpr absolute)] at outcome
    rw [parts_eq] at outcome
    by_cases up : [dot, dot] ∈ parts path
    · rw [if_pos up] at outcome
      cases outcome
    · rw [if_neg up] at outcome
      have nonempty (part : Name) (listed : part ∈ parts path) : part ≠ [] := by
        have kept := (mem_filter.mp (mem_filter.mp listed).1).2
        simpa using kept
      have plain (part : Name) (listed : part ∈ parts path) : slash ∉ part :=
        slash_not_mem_piece (mem_filter.mp (mem_filter.mp listed).1).1
      by_cases none : parts path = []
      · rw [if_pos none] at outcome
        cases outcome
        exact ⟨absolute, rfl, by rw [none]; rfl, up⟩
      · rw [if_neg none] at outcome
        cases outcome
        refine ⟨absolute, ?_, components_joined nonempty plain, up⟩
        cases whole : parts path with
        | nil => exact absurd whole none
        | cons first others => rfl
  · rw [if_pos absolute] at outcome
    cases outcome

/-- A path whose components are those of a normalized one is kept. -/
theorem normalizeAbsPath_of_parts (absolute : path.head? = some slash)
    (up : [dot, dot] ∉ parts path) : ∃ normalized,
      normalizeAbsPath path = some normalized := by
  unfold normalizeAbsPath
  rw [if_neg (not_not.mpr absolute)]
  rw [parts_eq, if_neg up]
  by_cases none : parts path = []
  · exact ⟨_, if_pos none⟩
  · exact ⟨_, if_neg none⟩

theorem splitParentAndName_some {parent : List UInt8} {name : Name}
    (outcome : splitParentAndName path = some (parent, name)) :
    ValidName name ∧ ∃ normalizedParent,
      normalizeAbsPath parent = some normalizedParent ∧
        parts path = components normalizedParent ++ [name] := by
  rcases Option.bind_eq_some_iff.mp outcome with ⟨normalized, whole, outcome⟩
  rcases normalizeAbsPath_some whole with ⟨_, absolute, same, up⟩
  by_cases root : normalized = [slash]
  · rw [if_pos root] at outcome
    cases outcome
  · rw [if_neg root] at outcome
    rcases Option.bind_eq_some_iff.mp outcome with ⟨position, found, outcome⟩
    by_cases accepted : validateName (normalized.drop (position + 1)) = true
    · rw [if_pos accepted] at outcome
      simp only [Option.some.injEq, Prod.mk.injEq] at outcome
      rcases outcome with ⟨parentSame, nameSame⟩
      have valid := validateName_iff.mp accepted
      have pieces : parts path =
          components (normalized.take position) ++ [normalized.drop (position + 1)] := by
        rw [<- same, <- components_of_name valid.nonempty valid.slash_not_mem,
          <- components_append, <- rfind_split found]
      have front : components parent = components (normalized.take position) := by
        rw [<- parentSame]
        split
        · next first =>
            rw [first]
            rfl
        · rfl
      have parentAbsolute : parent.head? = some slash := by
        rw [<- parentSame]
        split
        · rfl
        · next later => exact (head?_take (Nat.pos_of_ne_zero later)).trans absolute
      have kept : parts parent = components parent := by
        refine filter_eq_self.mpr (fun part listed => ?_)
        have member : part ∈ parts path := by
          rw [pieces, <- front]
          exact mem_append_left _ listed
        exact (mem_filter.mp member).2
      have parentUp : [dot, dot] ∉ parts parent := by
        rw [kept, front]
        intro listed
        apply up
        rw [pieces]
        exact mem_append_left _ listed
      rcases normalizeAbsPath_of_parts parentAbsolute parentUp with ⟨normalizedParent, again⟩
      refine ⟨by rw [<- nameSame]; exact valid, normalizedParent, again, ?_⟩
      rw [(normalizeAbsPath_some again).2.2.1, kept, front, pieces, nameSame]
    · rw [if_neg accepted] at outcome
      cases outcome

/-- Where the kernel reads an entry, the builder reads the same one. -/
theorem parseEntry_eq {chunk : List UInt8} {entry : DirectoryEntry}
    (parsed : CoolFs.parseEntry chunk = .ok (some entry)) :
    parseEntry chunk = some (some entry) := by
  unfold CoolFs.parseEntry at parsed
  dsimp only at parsed
  split at parsed
  · cases parsed
  · next usable =>
      rw [not_or, not_or] at usable
      split at parsed
      · next readable =>
          simp only [Except.ok.injEq, Option.some.injEq] at parsed
          have fits : ¬ cfDirEntrySize < 5 + (chunk.getD 4 0).toNat := by
            have short := usable.2.2
            simp only [maxNameLen] at short
            simp only [cfDirEntrySize]
            omega
          unfold parseEntry
          rw [if_neg (fun either => either.elim usable.1 usable.2.1), if_neg fits, if_pos readable,
            parsed]
      · cases parsed

theorem parseEntries_encoded {entries : List DirectoryEntry}
    (valid : ∀ entry ∈ entries, ValidEntry entry) {fuel : Nat} (enough : entries.length <= fuel) :
    parseEntries fuel (entries.flatMap CoolFs.encodeEntry) = some entries := by
  induction entries generalizing fuel with
  | nil =>
    cases fuel with
    | zero => rfl
    | succ fuel => rfl
  | cons entry rest ih =>
    cases fuel with
    | zero => exact absurd enough (Nat.not_succ_le_zero _)
    | succ fuel =>
      have first := valid entry mem_cons_self
      have size := length_encodeEntry first.name.short
      have later := @ih (fun other listed => valid other (mem_cons_of_mem _ listed)) fuel
        (Nat.le_of_succ_le_succ enough)
      have long : ¬ ((entry :: rest).flatMap CoolFs.encodeEntry).length < cfDirEntrySize := by
        rw [flatMap_cons, length_append, size, cfDirEntrySize]
        omega
      rw [parseEntries, if_neg long, flatMap_cons, take_left' size,
        drop_left' size, parseEntry_eq (parseEntry_encodeEntry first), later]
      rfl

variable {index : Nat} {object : Object}

theorem readDirEntries_makes (sound : volume.Sound) (found : volume.object index = some object)
    (readable : object.Readable) (isDir : object.kind = kindDir) :
    Makes (readDirEntries index) volume object.entries volume := by
  have shape := (inode_of_object found).2
  have taken := (inode_of_object found).1
  refine .readInode_bind (sound.object_small found) (fun inode raw => ?_)
  have kind : inode.kind = kindDir := by rw [raw.kind, <- isDir, shape]
  have bytes : volume.payload (volume.blocksOf (volume.inode index)) inode.size =
      object.entries.flatMap CoolFs.encodeEntry := by
    rw [<- readable.encoded isDir, raw.size, shape]
  dsimp only
  rw [if_pos kind]
  refine .bind (readInodeBytes_makes (raw.holds (sound.held index taken))) ?_
  rw [bytes, parseEntries_encoded (fun entry listed => readable.valid listed)
    (length_le_flatMap (fun entry listed => readable.valid listed))]
  exact .settle _

theorem readDirEntries_stops (sound : volume.Sound) (found : volume.object index = some object)
    (file : object.kind ≠ kindDir) : Stops (readDirEntries index) volume := by
  refine .readInode_bind (sound.object_small found) (fun inode raw => ?_)
  have kind : inode.kind ≠ kindDir := by
    rw [raw.kind]
    rcases inode_of_object found with ⟨_, rfl⟩
    exact file
  dsimp only
  rw [if_neg kind]
  exact .failure

/-- Filling the bytes of an object that is in place. -/
theorem rewriteBytes_settles (sound : volume.Sound) (found : volume.object index = some object)
    (data : List UInt8) :
    Settles (writeInodeBytes index data) volume fun _ after => after.Sound ∧
      after.object = Function.update volume.object index
        (some ({ object with bytes := data } : Object)) := by
  have taken := (inode_of_object found).1
  by_cases room : volume.RoomFor data
  · exact .inr ⟨_, _, writeInodeBytes_makes sound taken room, rewrite_sound sound room taken,
      rewrite_object sound room found⟩
  · exact .inl (writeInodeBytes_stops room)

/-- The builder rewrites a directory as the kernel does, or panics. -/
theorem writeDirEntries_settles (sound : volume.Sound) (found : volume.object index = some object)
    {entries : List DirectoryEntry} (valid : ∀ entry ∈ entries, ValidName entry.name) :
    Settles (writeDirEntries index entries) volume fun _ after => after.Sound ∧
      after.object = Function.update volume.object index (some (object.withEntries entries)) := by
  have accepted : entries.all (fun entry => validateName entry.name) = true :=
    all_eq_true.mpr (fun entry listed => validateName_iff.mpr (valid entry listed))
  unfold writeDirEntries
  rw [if_pos accepted]
  exact rewriteBytes_settles sound found _

theorem walkComponents_makes (formed : volume.WellFormed) (path : List Name)
    (present : volume.object index ≠ none) :
    Makes (walkComponents index path) volume
      (walk (child volume.object) index (path.map foldCase)) volume := by
  induction path generalizing index with
  | nil => exact .pure (some index)
  | cons component rest ih =>
    rcases Option.ne_none_iff_exists'.mp present with ⟨object, found⟩
    have next : child volume.object index (foldCase component) =
        (object.entries.find? (fun entry => namesEqual entry.name component)).map
          DirectoryEntry.inode := by
      rw [child, listing_of_some found, <- find?_namesEqual]
    refine .readInode_bind (formed.sound.object_small found) (fun inode raw => ?_)
    dsimp only
    rw [map_cons, walk, next]
    by_cases isDir : object.kind = kindDir
    · have kind : inode.kind = kindDir := by
        rw [raw.kind]
        rcases inode_of_object found with ⟨_, rfl⟩
        exact isDir
      rw [if_pos kind]
      refine .bind (readDirEntries_makes formed.sound found
        (formed.tree.toReadable.object found) isDir) ?_
      cases located : object.entries.find? (fun entry => namesEqual entry.name component) with
      | none => exact .pure none
      | some entry =>
        apply ih
        rw [located, Option.map_some] at next
        exact (formed.tree.named.target next).1
    · have kind : inode.kind ≠ kindDir := by
        rw [raw.kind]
        rcases inode_of_object found with ⟨_, rfl⟩
        exact isDir
      rw [if_neg kind, Object.entries_of_file isDir]
      exact .pure none

/-- The key of a path in the builder's view. -/
def buildKey (path : List UInt8) : List Name := (parts path).map foldCase

theorem resolvePath_makes (formed : volume.WellFormed) {normalized : List UInt8}
    (accepted : normalizeAbsPath path = some normalized) :
    Makes (resolvePath path) volume (walk (child volume.object) 0 (buildKey path)) volume := by
  have same := (normalizeAbsPath_some accepted).2.2.1
  unfold resolvePath
  rw [accepted]
  refine .bind (.settle normalized) ?_
  by_cases root : normalized = [slash]
  · have empty : buildKey path = [] := by
      rw [buildKey, <- same, root]
      rfl
    rw [if_pos root, empty]
    exact .pure (some 0)
  · rw [if_neg root, buildKey, <- same]
    exact walkComponents_makes formed _ formed.tree.root_ne_none

end CoolOs.DiskImage
