import CoolOs.CoolFs.Rewrite
import CoolOs.Naming.Namespace
import CoolOs.Queues.Ring

namespace CoolOs.CoolFs

open BlockStore Function List Option Naming

/-!
# Creating, removing and retagging objects

The other changes the filesystem makes at one inode: taking a free inode for an
empty object, giving an inode back with all its blocks, and replacing the
owner and the mode.
-/

variable {volume : Volume} {index : Nat} {kind : UInt8} {uid gid : UInt32} {mode : UInt16}
  {other : Nat}

namespace Volume

/-- The first free inode after the root. -/
def firstFree (volume : Volume) : Option Nat :=
  (range' 1 511).find? (fun index => (volume.inode index).kind == kindFree)

def create (volume : Volume) (index : Nat) (kind : UInt8) (uid gid : UInt32) (mode : UInt16) :
    Volume :=
  volume.setInode index (Inode.newWithMetadata kind uid gid mode).stored

def remove (volume : Volume) (index : Nat) : Volume :=
  (volume.release (volume.references (volume.inode index))).setInode index Inode.free

def retag (volume : Volume) (index : Nat) (uid gid : UInt32) (mode : UInt16) : Volume :=
  volume.setInode index { volume.inode index with uid := uid, gid := gid, mode := mode }

theorem firstFree_some (found : volume.firstFree = some index) :
    1 <= index ∧ index < 512 ∧ (volume.inode index).kind = kindFree := by
  have listed := mem_range'_1.mp (mem_of_find?_eq_some found)
  have free := find?_some found
  exact ⟨listed.1, listed.2, beq_iff_eq.mp free⟩

theorem mode_idem (mode : UInt16) : (mode &&& 0o777) &&& 0o777 = mode &&& 0o777 := by
  rw [UInt16.and_assoc, UInt16.and_self]

theorem normalMode_and (kind : UInt8) (mode : UInt16) :
    normalMode kind (normalMode kind (mode &&& 0o777) &&& 0o777) =
      normalMode kind (mode &&& 0o777) := by
  by_cases plain : kind ≠ kindFree ∧ mode &&& 0o777 = 0
  · by_cases directory : kind = kindDir
    · subst directory
      have value : normalMode kindDir (mode &&& 0o777) = defaultDirMode := by
        rw [normalMode, if_pos plain, if_pos rfl]
      rw [value]
      rfl
    · have value : normalMode kind (mode &&& 0o777) = defaultFileMode := by
        rw [normalMode, if_pos plain, if_neg directory]
      have kept : defaultFileMode &&& 0o777 = defaultFileMode := rfl
      rw [value, kept, normalMode, if_neg (fun both => absurd both.2 (by decide))]
  · have value : normalMode kind (mode &&& 0o777) = mode &&& 0o777 := if_neg plain
    rw [value, mode_idem, value]

section

theorem create_inode_self : (volume.create index kind uid gid mode).inode index =
      (Inode.newWithMetadata kind uid gid mode).stored := update_self _ _ _

theorem create_keeps (different : other ≠ index) :
    Keeps volume (volume.create index kind uid gid mode) other where
  inode := update_of_ne different _ _
  data := fun _ _ => rfl

theorem create_holds : Holds (volume.create index kind uid gid mode)
    ((volume.create index kind uid gid mode).inode index) [] := by
  rw [create_inode_self]
  refine ⟨?_, ⟨48, rfl⟩, fun _ listed => (nomatch listed), fun _ => rfl, fun large => ?_⟩
  · exact (by decide : 0 = blocksFor (0 % 2 ^ 32))
  · exact absurd large (by decide)

theorem create_refs (used : kind ≠ kindFree) :
    (volume.create index kind uid gid mode).refs index = [] := by
  have inUse : ((volume.create index kind uid gid mode).inode index).kind ≠ kindFree := by
    rw [create_inode_self]
    exact used
  rw [refs_of_used inUse, references, create_holds.blocksOf_eq, create_inode_self]
  rfl

theorem create_sound (sound : volume.Sound) (small : index < 512)
    (free : (volume.inode index).kind = kindFree) (used : kind ≠ kindFree) :
    (volume.create index kind uid gid mode).Sound := by
  have own := @create_refs volume index kind uid gid mode used
  apply sound.update small
  · intro other different
    exact create_keeps different
  · rw [create_inode_self]
    apply Inode.ext
    · rfl
    · rfl
    · rfl
    · rfl
    · rfl
    · rfl
    · change normalMode kind (normalMode kind ((mode &&& 0o777) &&& 0o777) &&& 0o777) =
        normalMode kind ((mode &&& 0o777) &&& 0o777)
      rw [normalMode_and]
  · intro unused
    rw [create_inode_self] at unused
    exact absurd unused used
  · intro _
    rw [create_holds.blocksOf_eq]
    exact create_holds
  · rw [own]
    exact nodup_nil
  · intro other _ block listed
    rw [own] at listed
    cases listed
  · intro block bound
    rw [own]
    refine (sound.marked block bound).trans (or_congr_right ?_)
    constructor
    · rintro ⟨other, listed⟩
      refine .inr ⟨other, ?_, listed⟩
      rintro rfl
      rw [refs_of_free free] at listed
      cases listed
    · rintro (none | ⟨other, _, listed⟩)
      · cases none
      · exact ⟨other, listed⟩

theorem create_object (used : kind ≠ kindFree) : (volume.create index kind uid gid mode).object =
      Function.update volume.object index (some {
        kind := kind, uid := uid, gid := gid
        mode := normalMode kind (mode &&& 0o777), bytes := [] }) := by
  funext other
  by_cases same : other = index
  · subst same
    have inUse : ((volume.create other kind uid gid mode).inode other).kind ≠ kindFree := by
      rw [create_inode_self]
      exact used
    rw [update_self, object, if_neg inUse, create_holds.blocksOf_eq, create_inode_self]
    simp only [Inode.stored, Inode.newWithMetadata, mode_idem]
    rfl
  · rw [update_of_ne same, (create_keeps same).object]

end

section

theorem remove_inode_self : (volume.remove index).inode index = Inode.free := update_self _ _ _

theorem remove_keeps (different : other ≠ index) :
    Keeps volume (volume.remove index) other where
  inode := update_of_ne different _ _
  data := fun _ _ => rfl

theorem remove_sound (sound : volume.Sound) (taken : (volume.inode index).kind ≠ kindFree) :
    (volume.remove index).Sound := by
  have own : (volume.remove index).refs index = [] :=
    refs_of_free (by rw [remove_inode_self]; rfl)
  apply sound.update (sound.small taken)
  · intro other different
    exact remove_keeps different
  · rw [remove_inode_self]
    rfl
  · intro _
    exact remove_inode_self
  · intro used
    rw [remove_inode_self] at used
    exact absurd rfl used
  · rw [own]
    exact nodup_nil
  · intro other _ block listed
    rw [own] at listed
    cases listed
  · intro block bound
    have previous : volume.refs index = volume.references (volume.inode index) :=
      refs_of_used taken
    have after : (volume.remove index).used block =
        (volume.used block && !decide (block ∈ volume.references (volume.inode index))) := rfl
    rw [own, after, <- previous, Bool.and_eq_true, Bool.not_eq_true', decide_eq_false_iff_not,
      sound.marked block bound]
    constructor
    · rintro ⟨low | ⟨other, listed⟩, gone⟩
      · exact .inl low
      · refine .inr (.inr ⟨other, ?_, listed⟩)
        rintro rfl
        exact gone listed
    · rintro (low | none | ⟨other, different, listed⟩)
      · refine ⟨.inl low, fun old => ?_⟩
        have high := (sound.refs_inside old).1
        omega
      · cases none
      · exact ⟨.inr ⟨other, listed⟩, sound.apart other index different block listed⟩

theorem remove_object :
    (volume.remove index).object = Function.update volume.object index none := by
  funext other
  by_cases same : other = index
  · subst same
    rw [update_self, object_eq_none, remove_inode_self]
    rfl
  · rw [update_of_ne same, (remove_keeps same).object]

end

section

theorem retag_inode_self : (volume.retag index uid gid mode).inode index =
      { volume.inode index with uid := uid, gid := gid, mode := mode } := update_self _ _ _

theorem retag_keeps (different : other ≠ index) :
    Keeps volume (volume.retag index uid gid mode) other where
  inode := update_of_ne different _ _
  data := fun _ _ => rfl

theorem retag_blocksOf :
    (volume.retag index uid gid mode).blocksOf ((volume.retag index uid gid mode).inode index) =
      volume.blocksOf (volume.inode index) := by
  rw [retag_inode_self]
  rfl

theorem retag_refs : (volume.retag index uid gid mode).refs index = volume.refs index := by
  unfold refs references
  rw [retag_blocksOf, retag_inode_self]

theorem retag_sound (sound : volume.Sound) (taken : (volume.inode index).kind ≠ kindFree)
    (normal : normalMode (volume.inode index).kind (mode &&& 0o777) = mode) :
    (volume.retag index uid gid mode).Sound := by
  apply sound.update (sound.small taken)
  · intro other different
    exact retag_keeps different
  · have size := congrArg Inode.size (sound.stable index)
    have direct := congrArg Inode.direct (sound.stable index)
    have indirect := congrArg Inode.indirect (sound.stable index)
    rw [retag_inode_self]
    apply Inode.ext
    · rfl
    · exact size
    · exact direct
    · exact indirect
    · rfl
    · rfl
    · exact normal
  · intro unused
    rw [retag_inode_self] at unused
    exact absurd unused taken
  · intro _
    have held := sound.held index taken
    rw [retag_blocksOf, retag_inode_self]
    exact ⟨held.count, held.slots, held.inside, held.direct, held.indirect⟩
  · rw [retag_refs]
    exact sound.distinct index
  · intro other different block listed
    rw [retag_refs] at listed
    exact sound.apart index other (Ne.symm different) block listed
  · intro block bound
    rw [retag_refs]
    refine (sound.marked block bound).trans (or_congr_right ?_)
    constructor
    · rintro ⟨other, listed⟩
      by_cases same : other = index
      · exact .inl (same ▸ listed)
      · exact .inr ⟨other, same, listed⟩
    · rintro (here | ⟨other, _, listed⟩)
      · exact ⟨index, here⟩
      · exact ⟨other, listed⟩

theorem retag_object {old : Object} (found : volume.object index = some old) :
    (volume.retag index uid gid mode).object = Function.update volume.object index
        (some { old with uid := uid, gid := gid, mode := mode }) := by
  have taken : (volume.inode index).kind ≠ kindFree := by
    intro free
    rw [object_eq_none.mpr free] at found
    cases found
  funext other
  by_cases same : other = index
  · subst same
    rw [update_self]
    unfold object at found ⊢
    rw [if_neg taken, some.injEq] at found
    rw [retag_blocksOf, retag_inode_self, if_neg taken, <- found]
    rfl
  · rw [update_of_ne same, (retag_keeps same).object]

end

end Volume

open Volume

namespace Image

theorem allocInodeFrom_takes (fresh : Inode) {indices : List Nat}
    (small : ∀ index ∈ indices, index < 512) :
    Takes (allocInodeFrom .new fresh indices) volume
      (match indices.find? (fun index => (volume.inode index).kind == kindFree) with
        | none => .error .noSpace
        | some index => .ok index)
      (match indices.find? (fun index => (volume.inode index).kind == kindFree) with
        | none => volume
        | some index => volume.setInode index fresh.stored) := by
  induction indices with
  | nil => exact .throw _
  | cons index rest ih =>
    have inside := small index mem_cons_self
    refine .bind (.total_run (readInode_tells inside volume)) ?_
    rw [map_some, getD_some, find?_cons]
    cases free : (volume.inode index).kind == kindFree with
    | true =>
      rw [if_pos rfl]
      refine .bind (writeInode_takes inside fresh volume) ?_
      exact .pure index
    | false =>
      rw [if_neg Bool.false_ne_true]
      exact ih (fun other listed => small other (mem_cons_of_mem _ listed))

theorem allocInode_takes (found : volume.firstFree = some index) (kind : UInt8) (uid gid : UInt32)
    (mode : UInt16) :
    Takes (allocInodeWithMetadata .new kind uid gid mode) volume (.ok index)
      (volume.create index kind uid gid mode) := by
  have allocated := @allocInodeFrom_takes volume (.newWithMetadata kind uid gid mode)
    (range' 1 511) (fun _ listed => (mem_range'_1.mp listed).2)
  unfold firstFree at found
  rw [found] at allocated
  exact allocated

theorem allocInode_full (full : volume.firstFree = none)
    (kind : UInt8) (uid gid : UInt32) (mode : UInt16) :
    Takes (allocInodeWithMetadata .new kind uid gid mode) volume (.error .noSpace) volume := by
  have allocated := @allocInodeFrom_takes volume (.newWithMetadata kind uid gid mode)
    (range' 1 511) (fun _ listed => (mem_range'_1.mp listed).2)
  unfold firstFree at full
  rw [full] at allocated
  exact allocated

theorem freeInode_takes (sound : volume.Sound) (taken : (volume.inode index).kind ≠ kindFree) :
    Takes (freeInode .new index) volume (.ok ()) (volume.remove index) := by
  have small := sound.small taken
  have held := sound.held index taken
  refine .bind (.okOr_some (readInode_tells small volume)) ?_
  refine .bind (inodeDataBlocks_takes held) ?_
  refine .bind (freeBlocks_takes held.inside volume) ?_
  refine .bind (freeIndirect_takes held.indirect_inside _) ?_
  rw [release_release]
  exact writeInode_takes small .free _

end Image

/-!
## Directories as namespaces

A directory is an object whose bytes are the records of its entries.  Writing a
list of entries and reading it back is the identity, so the objects of a volume
form a namespace: an inode and a name, up to case, lead to an inode.
-/

/-- An entry that survives being written: a valid name and a 32-bit inode
number other than the root's. -/
structure ValidEntry (entry : DirectoryEntry) : Prop where
  name : ValidName entry.name
  nonzero : entry.inode ≠ 0
  word : entry.inode < 2 ^ 32

variable {entries : List DirectoryEntry} {entry : DirectoryEntry}

variable {key : Name} {position : Nat}

theorem length_encodeEntry (short : entry.name.length <= 27) : (encodeEntry entry).length = 32 := by
  simp only [encodeEntry, length_append, length_toLeBytes, length_singleton,
    length_replicate, dirEntrySize]
  omega

theorem parseEntry_encodeEntry (valid : ValidEntry entry) :
    parseEntry (encodeEntry entry) = .ok (some entry) := by
  have short : entry.name.length <= 27 := valid.name.short
  have positive : 0 < entry.name.length := length_pos_iff.mpr valid.name.nonempty
  have inode : fromLeBytes ((encodeEntry entry).take 4) = entry.inode :=
    (fromLeBytes_toLeBytes entry.inode).trans (Nat.mod_eq_of_lt valid.word)
  have length : ((encodeEntry entry).getD 4 0).toNat = entry.name.length := by
    change (UInt8.ofNat entry.name.length).toNat = entry.name.length
    rw [UInt8.toNat_ofNat']
    omega
  have name : ((encodeEntry entry).drop 5).take entry.name.length = entry.name := by
    have rest : (encodeEntry entry).drop 5 =
        entry.name ++ replicate (dirEntrySize - 5 - entry.name.length) 0 := by
      rw [encodeEntry, append_assoc]
      rfl
    rw [rest, take_left']
    rfl
  have usable : ¬ (entry.inode = 0 ∨ entry.name.length = 0 ∨ maxNameLen < entry.name.length) := by
    simp only [not_or, maxNameLen]
    exact ⟨valid.nonzero, by omega, by omega⟩
  simp only [parseEntry, inode, length, name, if_neg usable, if_pos valid.name.utf8]

theorem parseEntries_encoded (valid : ∀ entry ∈ entries, ValidEntry entry) {fuel : Nat}
    (enough : entries.length <= fuel) :
    parseEntries fuel (entries.flatMap encodeEntry) = .ok entries := by
  induction entries generalizing fuel with
  | nil =>
    cases fuel with
    | zero => rfl
    | succ fuel => rfl
  | cons entry rest ih =>
    cases fuel with
    | zero => exact absurd enough (Nat.not_succ_le_zero _)
    | succ fuel =>
      have first := valid entry mem_cons_self
      have size := length_encodeEntry first.name.short
      have later := @ih (fun other listed => valid other (mem_cons_of_mem _ listed)) fuel
        (Nat.le_of_succ_le_succ enough)
      have long : ¬ ((entry :: rest).flatMap encodeEntry).length < dirEntrySize := by
        rw [flatMap_cons, length_append, size, dirEntrySize]
        omega
      rw [parseEntries, if_neg long, flatMap_cons, take_left' size,
        drop_left' size, parseEntry_encodeEntry first, later]
      rfl

theorem length_le_flatMap (valid : ∀ entry ∈ entries, ValidEntry entry) :
    entries.length <= (entries.flatMap encodeEntry).length := by
  induction entries with
  | nil => exact Nat.le_refl 0
  | cons entry rest ih =>
    have later := ih (fun other listed => valid other (mem_cons_of_mem _ listed))
    rw [flatMap_cons, length_append, length_cons,
      length_encodeEntry (valid entry mem_cons_self).name.short]
    omega

/-- Reading back a directory that was written from a list of valid entries. -/
theorem parse_encoded (valid : ∀ entry ∈ entries, ValidEntry entry) :
    parseEntries (entries.flatMap encodeEntry).length (entries.flatMap encodeEntry) = .ok entries :=
  parseEntries_encoded valid (length_le_flatMap valid)

theorem encodeEntries_ok (valid : ∀ entry ∈ entries, ValidName entry.name) :
    encodeEntries entries = .ok (entries.flatMap encodeEntry) := by
  induction entries with
  | nil => rfl
  | cons entry rest ih =>
    rw [encodeEntries, validateName_ok_iff.mpr (valid entry mem_cons_self),
      ih (fun other listed => valid other (mem_cons_of_mem _ listed))]
    rfl

/-- What a name, up to case, leads to in a list of entries. -/
def find (entries : List DirectoryEntry) (key : Name) : Option Nat :=
  (entries.find? (fun entry => foldCase entry.name == key)).map DirectoryEntry.inode

/-- The names of a list of entries, up to case. -/
def keys (entries : List DirectoryEntry) : List Name :=
  entries.map (fun entry => foldCase entry.name)

theorem mem_keys (listed : entry ∈ entries) : foldCase entry.name ∈ keys entries :=
  mem_map.mpr ⟨entry, listed, rfl⟩

theorem nodup_keys_cons {rest : List DirectoryEntry} (distinct : (keys (entry :: rest)).Nodup) :
    foldCase entry.name ∉ keys rest ∧ (keys rest).Nodup := nodup_cons.mp distinct

theorem find_cons (entry : DirectoryEntry) (rest : List DirectoryEntry) (key : Name) :
    find (entry :: rest) key =
      if foldCase entry.name = key then some entry.inode else find rest key := by
  unfold find
  rw [find?_cons]
  by_cases same : foldCase entry.name = key
  · rw [if_pos same, beq_iff_eq.mpr same]
    rfl
  · rw [if_neg same, beq_eq_false_iff_ne.mpr same]

theorem find_eq_none : find entries key = none <-> key ∉ keys entries := by
  induction entries with
  | nil => exact ⟨fun _ => not_mem_nil, fun _ => rfl⟩
  | cons entry rest ih =>
    rw [find_cons]
    by_cases same : foldCase entry.name = key
    · rw [if_pos same]
      refine ⟨fun missing => (nomatch missing), fun absent => ?_⟩
      exact absurd (same ▸ mem_cons_self) absent
    · rw [if_neg same, ih]
      constructor
      · intro absent listed
        rcases mem_cons.mp listed with first | later
        · exact same first.symm
        · exact absent later
      · intro absent later
        exact absent (mem_cons_of_mem _ later)

theorem find_append (entries more : List DirectoryEntry) (key : Name) :
    find (entries ++ more) key = (find entries key).or (find more key) := by
  unfold find
  rw [find?_append, map_or]

theorem find_append_singleton (entries : List DirectoryEntry) (entry : DirectoryEntry)
    (key : Name) (unused : foldCase entry.name ∉ keys entries) :
    find (entries ++ [entry]) key =
      if key = foldCase entry.name then some entry.inode else find entries key := by
  rw [find_append, find_cons]
  by_cases same : key = foldCase entry.name
  · subst same
    rw [find_eq_none.mpr unused, if_pos rfl, if_pos rfl, none_or]
  · rw [if_neg (Ne.symm same), if_neg same]
    exact or_none

theorem mem_of_find (found : find entries key = some index) :
    ∃ entry ∈ entries, foldCase entry.name = key ∧ entry.inode = index := by
  rcases map_eq_some_iff.mp found with ⟨entry, located, target⟩
  have matching := find?_some located
  exact ⟨entry, mem_of_find?_eq_some located, beq_iff_eq.mp matching, target⟩

theorem find_of_mem (distinct : (keys entries).Nodup) (listed : entry ∈ entries) :
    find entries (foldCase entry.name) = some entry.inode := by
  induction entries with
  | nil => cases listed
  | cons first rest ih =>
    have parts := nodup_keys_cons distinct
    rw [find_cons]
    rcases mem_cons.mp listed with rfl | later
    · rw [if_pos rfl]
    · rw [if_neg, ih parts.2 later]
      intro same
      exact parts.1 (same ▸ mem_keys later)

/-- No other entry has the name of one in the middle. -/
theorem find_around {before after : List DirectoryEntry}
    (distinct : (keys (before ++ entry :: after)).Nodup) :
    find before (foldCase entry.name) = none ∧ find after (foldCase entry.name) = none := by
  rw [keys, map_append, map_cons, nodup_middle, nodup_cons] at distinct
  rw [find_eq_none, find_eq_none]
  exact ⟨fun early => distinct.1 (mem_append_left _ early),
    fun late => distinct.1 (mem_append_right _ late)⟩

/-- Removing the entry at a position removes one name. -/
theorem find_eraseIdx (distinct : (keys entries).Nodup) (inside : position < entries.length)
    (key : Name) :
    find (entries.eraseIdx position) key =
      if key = foldCase entries[position].name then none else find entries key := by
  rcases Queues.split_at_index (getElem?_eq_getElem inside) with
    ⟨before, after, shape, place⟩
  generalize entries[position] = entry at shape ⊢
  subst shape place
  have around := find_around distinct
  rw [eraseIdx_append_of_length_le (Nat.le_refl _), Nat.sub_self, eraseIdx_cons_zero,
    find_append, find_append, find_cons]
  by_cases same : key = foldCase entry.name
  · rw [if_pos same, same, around.1, around.2]
    rfl
  · rw [if_neg same, if_neg (Ne.symm same)]

/-- Renaming the entry at a position moves its inode to the new name. -/
theorem find_modify (distinct : (keys entries).Nodup) (inside : position < entries.length)
    {newName : Name} (unused : foldCase newName ∉ keys entries) (key : Name) :
    find (entries.modify position (fun entry => { entry with name := newName })) key =
      if key = foldCase newName then some entries[position].inode
      else if key = foldCase entries[position].name then none else find entries key := by
  rcases Queues.split_at_index (getElem?_eq_getElem inside) with
    ⟨before, after, shape, place⟩
  generalize entries[position] = entry at shape ⊢
  subst shape place
  have around := find_around distinct
  rw [Queues.modify_middle, find_append, find_append, find_cons, find_cons]
  by_cases new : key = foldCase newName
  · have early : find before key = none := by
      rw [new, find_eq_none]
      exact fun listed => unused (by rw [keys, map_append]; exact mem_append_left _ listed)
    rw [if_pos new, if_pos new.symm, early, none_or]
  · rw [if_neg new, if_neg (Ne.symm new)]
    by_cases same : key = foldCase entry.name
    · rw [if_pos same, same, around.1, around.2]
      rfl
    · rw [if_neg same, if_neg (Ne.symm same)]

end CoolOs.CoolFs
