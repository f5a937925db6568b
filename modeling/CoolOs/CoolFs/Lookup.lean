import CoolOs.CoolFs.Tree

namespace CoolOs.CoolFs

open BlockStore Naming Image List Option

/-!
# Lookups in a well-formed volume

A well-formed volume is sound and its objects form a tree.  On such a volume
the directory reader returns the entries of a directory, path lookup follows
the namespace, and the queries report what the path map says.
-/

/-- A sound volume whose objects form a tree. -/
structure Volume.WellFormed (volume : Volume) : Prop where
  sound : volume.Sound
  tree : Tree volume.object

namespace Volume

variable {volume : Volume} {index : Nat} {object : Object}

theorem inode_of_object (found : volume.object index = some object) :
    (volume.inode index).kind ≠ kindFree ∧ object = {
        kind := (volume.inode index).kind
        uid := (volume.inode index).uid
        gid := (volume.inode index).gid
        mode := (volume.inode index).mode
        bytes := volume.payload (volume.blocksOf (volume.inode index))
          (volume.inode index).size } := by
  unfold Volume.object at found
  split at found
  · cases found
  · next taken => exact ⟨taken, (some.inj found).symm⟩

theorem Sound.length_bytes (sound : volume.Sound) (found : volume.object index = some object) :
    object.bytes.length = (volume.inode index).size := by
  rcases inode_of_object found with ⟨taken, rfl⟩
  have held := sound.held index taken
  have count := held.count
  have sum (blocks : List Nat) :
      (blocks.flatMap (fun block => (volume.data block).read 0 4096)).length =
        4096 * blocks.length := by
    induction blocks with
    | nil => rfl
    | cons block rest ih =>
      rw [flatMap_cons, length_append, Block.length_read, ih, length_cons]
      omega
  rw [payload, length_take, sum]
  unfold blocksFor at count
  omega

theorem Sound.object_small (sound : volume.Sound) (found : volume.object index = some object) :
    index < 512 := sound.small (inode_of_object found).1

end Volume

open Volume

section

variable {volume : Volume} {index : Nat} {object : Object}

theorem isDir_iff (found : volume.object index = some object) :
    (volume.inode index).isDir = decide (object.kind = kindDir) := by
  rcases inode_of_object found with ⟨_, rfl⟩
  rfl

theorem isFile_iff (found : volume.object index = some object) :
    (volume.inode index).isFile = decide (object.kind = kindFile) := by
  rcases inode_of_object found with ⟨_, rfl⟩
  rfl

theorem readObject_takes (sound : volume.Sound) (found : volume.object index = some object)
    (failure : FsError) :
    Takes (okOr (readInode .new index) failure) volume (.ok (volume.inode index)) volume :=
  .okOr_some (readInode_tells (sound.object_small found) volume)

theorem readBytes_takes (sound : volume.Sound) (found : volume.object index = some object) :
    Takes (readInodeBytes .new (volume.inode index)) volume (.ok object.bytes) volume := by
  rcases inode_of_object found with ⟨taken, rfl⟩
  exact readInodeBytes_takes (sound.held index taken)

theorem readEntries_takes (sound : volume.Sound) (found : volume.object index = some object)
    (readable : object.Readable) (directory : object.kind = kindDir) :
    Takes (readDirEntries .new index) volume (.ok object.entries) volume := by
  refine .bind (readObject_takes sound found _) ?_
  rw [isDir_iff found, decide_eq_true directory, if_pos rfl]
  refine .bind (readBytes_takes sound found) ?_
  have parsed := parse_encoded (fun entry listed => readable.valid listed)
  rw [<- readable.encoded directory] at parsed
  rw [parsed]
  exact .settled _

theorem readDirEntries_takes (formed : volume.WellFormed)
    (found : volume.object index = some object) (directory : object.kind = kindDir) :
    Takes (readDirEntries .new index) volume (.ok object.entries) volume :=
  readEntries_takes formed.sound found (formed.tree.toReadable.object found) directory

/-- Anything but a directory is refused. -/
theorem readDirEntries_refused
    (refused : ∀ object, volume.object index = some object -> object.kind ≠ kindDir) :
    ∃ failure, Takes (readDirEntries .new index) volume (.error failure) volume := by
  by_cases small : index < 512
  · refine ⟨.notDirectory, .bind (.okOr_some (readInode_tells small volume)) ?_⟩
    have plain : (volume.inode index).isDir = false := by
      cases found : volume.object index with
      | none =>
        have free := object_eq_none.mp found
        rw [Inode.isDir, free]
        rfl
      | some object =>
        rw [isDir_iff found]
        exact decide_eq_false (refused object found)
    rw [plain, if_neg Bool.false_ne_true]
    exact .throw _
  · exact ⟨.notFound, .bind_error (.okOr_none (readInode_beyond (Nat.le_of_not_lt small) volume))⟩

theorem find?_namesEqual (entries : List DirectoryEntry) (name : Name) :
    (entries.find? (fun entry => namesEqual entry.name name)).map DirectoryEntry.inode =
      find entries (foldCase name) := rfl

/-- The lookup loop follows the namespace. -/
theorem walkComponents_takes (formed : volume.WellFormed) (components : List Name)
    (present : volume.object index ≠ none) :
    (∃ reached,
        walk (child volume.object) index (components.map foldCase) = some reached ∧
        Takes (walkComponents .new index components) volume (.ok reached) volume) ∨
      (walk (child volume.object) index (components.map foldCase) = none ∧ ∃ failure,
          Takes (walkComponents .new index components) volume (.error failure) volume) := by
  induction components generalizing index with
  | nil => exact .inl ⟨index, rfl, .pure index⟩
  | cons component rest ih =>
    rcases ne_none_iff_exists'.mp present with ⟨object, found⟩
    have next : child volume.object index (foldCase component) =
        (object.entries.find? (fun entry => namesEqual entry.name component)).map
          DirectoryEntry.inode := by
      rw [child, listing_of_some found, find?_namesEqual]
    by_cases directory : object.kind = kindDir
    · -- the step reads the directory and goes on from the matching entry
      have step {outcome : Except FsError Nat} (later : Takes
            ((object.entries.find? (fun entry => namesEqual entry.name component)).elim
              (throw .notFound) fun entry => walkComponents .new entry.inode rest) volume outcome
            volume) :
          Takes (walkComponents .new index (component :: rest)) volume outcome volume := by
        refine .bind (readObject_takes formed.sound found _) ?_
        rw [isDir_iff found, decide_eq_true directory, if_pos rfl]
        refine .bind (readDirEntries_takes formed found directory) ?_
        revert later
        cases object.entries.find? (fun entry => namesEqual entry.name component) <;> exact id
      cases search : object.entries.find? (fun entry => namesEqual entry.name component) with
      | none =>
        rw [search] at next step
        refine .inr ⟨?_, .notFound, step (.throw _)⟩
        rw [map_cons, walk, next]
        rfl
      | some entry =>
        rw [search] at next step
        have reached : walk (child volume.object) index ((component :: rest).map foldCase) =
            walk (child volume.object) entry.inode (rest.map foldCase) := by
          rw [map_cons, walk, next]
          rfl
        rw [reached]
        rcases ih (formed.tree.named.target next).1 with
          ⟨last, path, ran⟩ | ⟨path, failure, ran⟩
        · exact .inl ⟨last, path, step ran⟩
        · exact .inr ⟨path, failure, step ran⟩
    · refine .inr ⟨?_, .notDirectory, ?_⟩
      · rw [map_cons, walk, next, Object.entries_of_file directory]
        rfl
      · refine .bind (readObject_takes formed.sound found _) ?_
        rw [isDir_iff found, decide_eq_false directory, if_neg Bool.false_ne_true]
        exact .throw _

/-- An absolute path resolves to the inode its key leads to, and to nothing
else. -/
theorem resolvePath_takes (formed : volume.WellFormed) (path : List UInt8) :
    (∃ reached, path.head? = some slash ∧
        walk (child volume.object) 0 (pathKey path) = some reached ∧
        Takes (resolvePath .new path) volume (.ok reached) volume) ∨
      ((path.head? ≠ some slash ∨ walk (child volume.object) 0 (pathKey path) = none) ∧
        ∃ failure,
          Takes (resolvePath .new path) volume (.error failure) volume) := by
  by_cases absolute : path.head? = some slash
  · have trimmed := trimAbsPath_of_absolute absolute
    have same := (trimAbsPath_ok trimmed).2
    generalize path.take (trimEnd path path.length) = short at trimmed same
    have step {outcome : Except FsError Nat}
        (later : Takes (if short = [slash] then pure Superblock.new.rootInode
          else walkComponents .new Superblock.new.rootInode (components short)) volume outcome
          volume) :
        Takes (resolvePath .new path) volume outcome volume := by
      unfold resolvePath
      rw [trimmed]
      exact .bind (.settled _) later
    have key : pathKey path = (components short).map foldCase := by
      rw [same]
      rfl
    rw [key]
    by_cases root : short = [slash]
    · refine .inl ⟨0, absolute, ?_, step ?_⟩
      · rw [root]
        rfl
      · rw [if_pos root]
        exact .pure 0
    · rw [if_neg root] at step
      rcases walkComponents_takes formed (components short) formed.tree.root_ne_none with
        ⟨reached, walked, ran⟩ | ⟨walked, failure, ran⟩
      · exact .inl ⟨reached, absolute, walked, step ran⟩
      · exact .inr ⟨.inr walked, failure, step ran⟩
  · refine .inr ⟨.inl absolute, .invalidPath, ?_⟩
    unfold resolvePath
    rw [trimAbsPath_error absolute]
    exact .bind_error (.settled _)

end

/-- The object an absolute path leads to. -/
def objectAt (objects : Nat -> Option Object) (path : List UInt8) : Option Object :=
  if path.head? = some slash then (walk (child objects) 0 (pathKey path)).bind objects else none

def Object.metadata (object : Object) : Metadata where
  uid := object.uid
  gid := object.gid
  mode := object.mode
  size := object.bytes.length
  isDir := object.kind = kindDir
  isFile := object.kind = kindFile

/-- The listing of a directory: its entries with the kinds and sizes of what
they name. -/
def describe (objects : Nat -> Option Object) (entries : List DirectoryEntry) : List DirEntryInfo :=
  entries.filterMap (fun entry => (objects entry.inode).map (fun object =>
    { name := entry.name, isDir := object.kind = kindDir, size := object.bytes.length }))

variable {volume : Volume} {objects : Nat -> Option Object} {path : List UInt8}

theorem objectAt_of_walk {index : Nat} (absolute : path.head? = some slash)
    (reached : walk (child objects) 0 (pathKey path) = some index) :
    objectAt objects path = objects index := by
  rw [objectAt, if_pos absolute, reached]
  rfl

theorem objectAt_eq_none
    (missing : path.head? ≠ some slash ∨ walk (child objects) 0 (pathKey path) = none) :
    objectAt objects path = none := by
  unfold objectAt
  split
  · next absolute =>
      rcases missing with relative | lost
      · exact absurd absolute relative
      · rw [lost]
        rfl
  · rfl

variable (formed : volume.WellFormed)
include formed

/-- A query that resolves a path and goes on with the inode found. -/
theorem query_tells {Result : Type} (path : List UInt8)
    {rest : Nat -> Optional Result} {answer : Object -> Option Result}
    (later : ∀ index object, volume.object index = some object ->
      Tells (rest index) volume (answer object)) :
    Tells (okOnly (resolvePath .new path) >>= rest) volume
      ((objectAt volume.object path).bind answer) := by
  rcases resolvePath_takes formed path with ⟨index, absolute, walked, ran⟩ | ⟨missing, failure, ran⟩
  · rcases formed.tree.walk_object walked with ⟨object, found, _⟩
    rw [objectAt_of_walk absolute walked, found]
    exact .bind (.okOnly ran) (later index object found)
  · rw [objectAt_eq_none missing]
    exact .bind_none (.okOnly_error ran)

theorem metadata_tells (path : List UInt8) :
    Tells (metadata .new path) volume ((objectAt volume.object path).map Object.metadata) := by
  have told := @query_tells volume formed Metadata path (fun index => do
      let inode <- readInode .new index
      return {
        uid := inode.uid
        gid := inode.gid
        mode := inode.mode
        size := inode.size
        isDir := inode.isDir
        isFile := inode.isFile })
    (fun object => some object.metadata) ?_
  · rw [map_eq_bind]
    exact told
  · intro index object found
    refine .bind (readInode_tells (formed.sound.object_small found) volume) ?_
    rw [<- formed.sound.length_bytes found, isDir_iff found, isFile_iff found]
    rcases inode_of_object found with ⟨_, rfl⟩
    exact .pure _

theorem readFile_tells (path : List UInt8) :
    Tells (readFile .new path) volume ((objectAt volume.object path).bind
      (fun object => if object.kind = kindFile then some object.bytes else none)) := by
  refine query_tells formed path ?_
  intro index object found
  refine .bind (readInode_tells (formed.sound.object_small found) volume) ?_
  rw [isFile_iff found]
  by_cases file : object.kind = kindFile
  · rw [decide_eq_true file, if_pos rfl, if_pos file]
    exact .okOnly (readBytes_takes formed.sound found)
  · rw [decide_eq_false file, if_neg Bool.false_ne_true, if_neg file]
    exact .failure

theorem describeEntries_tells {entries : List DirectoryEntry}
    (present : ∀ entry ∈ entries, volume.object entry.inode ≠ none) :
    Tells (describeEntries .new entries) volume (some (describe volume.object entries)) := by
  induction entries with
  | nil => exact .pure []
  | cons entry rest ih =>
    rcases ne_none_iff_exists'.mp (present entry mem_cons_self) with ⟨object, found⟩
    refine .bind (.asOption (readInode_tells (formed.sound.object_small found) volume)) ?_
    refine .bind (ih (fun other listed =>
      present other (mem_cons_of_mem _ listed))) ?_
    have first : describe volume.object (entry :: rest) =
        { name := entry.name, isDir := object.kind = kindDir, size := object.bytes.length } ::
          describe volume.object rest := by
      simp only [describe, filterMap_cons, found, map_some]
    rw [first, <- isDir_iff found, formed.sound.length_bytes found]
    exact .pure _

theorem listDir_tells (path : List UInt8) :
    Tells (listDir .new path) volume ((objectAt volume.object path).bind
      (fun object => if object.kind = kindDir then some (describe volume.object object.entries)
        else none)) := by
  refine query_tells formed path ?_
  intro index object found
  refine .bind (readInode_tells (formed.sound.object_small found) volume) ?_
  rw [isDir_iff found]
  by_cases directory : object.kind = kindDir
  · rw [decide_eq_true directory, if_pos rfl, if_pos directory]
    refine .bind (.okOnly (readDirEntries_takes formed found directory)) ?_
    refine describeEntries_tells formed (fun entry listed => ?_)
    rw [<- listing_of_some found] at listed
    have linked := find_of_mem (formed.tree.distinct index) listed
    exact (formed.tree.named.target linked).1
  · rw [decide_eq_false directory, if_neg Bool.false_ne_true, if_neg directory]
    exact .failure

end CoolOs.CoolFs
