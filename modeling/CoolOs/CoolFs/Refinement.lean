import CoolOs.CoolFs.Mount
import CoolOs.CoolFs.PathMap
import Mathlib.Data.Set.Finite.Basic

namespace CoolOs.CoolFs

open BlockStore Naming Image Volume List

/-!
# Runs of the mounted file system

A run starts with a freshly formatted disk that does not fail and makes any
sequence of calls.  Whether they succeed or not, the volume stays well formed.
-/

theorem Volume.Alike.wellFormed {volume changed : Volume} (alike : Volume.Alike volume changed)
    (formed : volume.WellFormed) : changed.WellFormed where
  sound := Volume.Alike.sound alike formed.sound
  tree := by
    rw [Volume.Alike.object alike formed.sound]
    exact formed.tree

/-- From a well-formed volume the program always reaches one. -/
def Safe {Result : Type} (program : Fallible Result) : Prop :=
  forall volume, volume.WellFormed -> ∃ outcome after,
    Takes program volume outcome after ∧ after.WellFormed

namespace Safe

variable {Result Other : Type} {program : Fallible Result}

theorem settled (outcome : Except FsError Result) : Safe (settled outcome) :=
  fun volume formed => ⟨outcome, volume, .settled outcome, formed⟩

theorem pure (result : Result) : Safe (pure result) :=
  fun volume formed => ⟨.ok result, volume, .pure result, formed⟩

theorem throw (failure : FsError) : Safe (throw failure : Fallible Result) :=
  fun volume formed => ⟨.error failure, volume, .throw failure, formed⟩

theorem bind {rest : Result -> Fallible Other} (first : Safe program)
    (second : ∀ result, Safe (rest result)) : Safe (program >>= rest) := by
  intro volume formed
  rcases first volume formed with ⟨failure | result, between, ran, still⟩
  · exact ⟨.error failure, between, .bind_error ran, still⟩
  · rcases second result between still with ⟨outcome, after, next, reached⟩
    exact ⟨outcome, after, .bind ran next, reached⟩

theorem attempt (safe : Safe program) : Safe (attempt program) := by
  intro volume formed
  rcases safe volume formed with ⟨outcome, after, ran, still⟩
  exact ⟨.ok outcome, after, .attempt ran, still⟩

theorem mutation (mutation : Mutation) : Safe (mutation.program .new) := by
  intro volume formed
  rcases mutation.cases formed with ⟨failure, after, ran, alike⟩ | ⟨after, ran, done⟩
  · exact ⟨.error failure, after, ran, Volume.Alike.wellFormed alike formed⟩
  · exact ⟨.ok (), after, ran, done.formed⟩

theorem deleteIfPresent (path : List UInt8) : Safe (deleteIfPresent .new path) := by
  refine bind (attempt (mutation (.deleteFile path))) (fun outcome => ?_)
  rcases outcome with failure | done
  · cases failure <;> exact pure _
  · exact pure _

/-- A safe write is a sequence of mutations, whatever each of them returns. -/
theorem safeWriteFile (path data : List UInt8) (uid gid : UInt32) (mode : UInt16) :
    Safe (safeWriteFileWithMetadata .new path data uid gid mode) := by
  refine bind (settled _) ?_
  rintro ⟨parent, name⟩
  refine bind (deleteIfPresent _) ?_
  rintro (failure | cleared)
  · exact throw failure
  · refine bind (mutation (.createFile (temporaryPath parent) uid gid mode)) (fun _ => ?_)
    refine bind (mutation (.writeFile (temporaryPath parent) data)) (fun _ => ?_)
    refine bind (deleteIfPresent _) ?_
    rintro (failure | replaced)
    · refine bind (attempt (mutation (.deleteFile (temporaryPath parent)))) (fun _ => ?_)
      exact throw failure
    · exact mutation (.rename (temporaryPath parent) name)

end Safe

/-- What can happen to a mounted volume: a mutation, a safe write, the queries, which may
load blocks into the cache and drop others, and the maintenance of the cache. -/
inductive Call where
  | mutate (mutation : Mutation)
  | safeWriteFile (path data : List UInt8) (uid gid : UInt32) (mode : UInt16)
  | readFile (path : List UInt8)
  | listDir (path : List UInt8)
  | metadata (path : List UInt8)
  | flush
  | trimClean (keepBlocks : Nat)

/-- The state after a call, whatever the call returns. -/
def Call.perform (state : Cached) : Call -> Cached
  | .mutate mutation => (exec Cached.device (mutation.program .new) state).2
  | .safeWriteFile path data uid gid mode =>
    (exec Cached.device (safeWriteFileWithMetadata .new path data uid gid mode) state).2
  | .readFile path => (inquire Cached.device (CoolFs.readFile .new path) state).2
  | .listDir path => (inquire Cached.device (CoolFs.listDir .new path) state).2
  | .metadata path => (inquire Cached.device (CoolFs.metadata .new path) state).2
  | .flush => (Cached.flush state).2
  | .trimClean keepBlocks => (Cached.trimClean keepBlocks state).2

/-- The image `format_image` produces on a disk. -/
def formatDisk (disk : Disk) : Cached :=
  (exec Cached.device formatImage { cache := .new, disk := disk }).2

/-- The state after a sequence of calls on a formatted disk. -/
def runCalls (disk : Disk) (calls : List Call) : Cached :=
  calls.foldl Call.perform (formatDisk disk)

/-- A mounted volume in working order. -/
structure Mounted (state : Cached) : Prop where
  ready : state.Ready
  formed : state.volume.WellFormed

variable {state : Cached}

theorem Safe.mounted {Result : Type} {program : Fallible Result} (safe : Safe program)
    (mounted : Mounted state) : Mounted (exec Cached.device program state).2 := by
  rcases safe state.volume mounted.formed with ⟨outcome, after, ran, formed⟩
  rcases Cached.exec_of_takes mounted.ready ran with ⟨_, ready, reached⟩
  exact ⟨ready, by rw [reached]; exact formed⟩

/-- A query leaves the volume as it is. -/
theorem Mounted.asked {Result : Type} {program : Optional Result} {outcome : Option Result}
    (mounted : Mounted state) (told : Tells program state.volume outcome) :
    Mounted (BlockStore.inquire Cached.device program state).2 := by
  rcases Cached.inquire_of_tells mounted.ready told with ⟨_, ready, same⟩
  exact ⟨ready, by rw [same]; exact mounted.formed⟩

theorem Call.perform_mounted (mounted : Mounted state) (call : Call) :
    Mounted (call.perform state) := by
  cases call with
  | mutate mutation => exact (Safe.mutation mutation).mounted mounted
  | safeWriteFile path data uid gid mode =>
    exact (Safe.safeWriteFile path data uid gid mode).mounted mounted
  | readFile path => exact mounted.asked (readFile_tells mounted.formed path)
  | listDir path => exact mounted.asked (listDir_tells mounted.formed path)
  | metadata path => exact mounted.asked (metadata_tells mounted.formed path)
  | flush =>
    rcases Cached.flush_ready mounted.ready with ⟨_, ready, same⟩
    exact ⟨ready, by rw [Call.perform, same]; exact mounted.formed⟩
  | trimClean keepBlocks =>
    rcases Cached.trimClean_ready mounted.ready keepBlocks with ⟨ready, same⟩
    exact ⟨ready, by rw [Call.perform, same]; exact mounted.formed⟩

theorem foldl_mounted (mounted : Mounted state) (calls : List Call) :
    Mounted (calls.foldl Call.perform state) := by
  induction calls generalizing state with
  | nil => exact mounted
  | cons call rest ih => exact ih (call.perform_mounted mounted)

theorem runCalls_mounted {disk : Disk} (reliable : disk.Reliable) (calls : List Call) :
    Mounted (runCalls disk calls) := by
  rcases Cached.formatImage_ready reliable with ⟨_, ready, formed⟩
  exact foldl_mounted ⟨ready, formed⟩ calls

/-!
## The representation invariant

What holds between the bitmap, the inode table, the indirect blocks and the
directories after any sequence of calls, stated on the decoded records alone.
-/

namespace Volume

/-- Every directory entry of the volume. -/
def allEntries (volume : Volume) : List DirectoryEntry :=
  (range inodeCount).flatMap (listing volume.object)

/-- Every block reference of the volume: the direct slots, the entries of the
indirect tables and the tables themselves, of all inodes in use. -/
def allReferences (volume : Volume) : List Nat :=
  (range inodeCount).flatMap volume.refs

/-- The invariant of the on-disk structures. -/
structure Consistent (volume : Volume) : Prop where
  bitmap : ∀ block < totalBlocks,
    (volume.used block = true <-> block < dataStart ∨ block ∈ volume.allReferences)
  unshared : volume.allReferences.Nodup
  once : forall index, (volume.inode index).kind ≠ kindFree -> index ≠ rootInode ->
    (volume.allEntries.map DirectoryEntry.inode).count index = 1
  present : ∀ entry ∈ volume.allEntries,
    entry.inode < inodeCount ∧ (volume.inode entry.inode).kind ≠ kindFree
  readable : forall index object, volume.object index = some object -> object.kind = kindDir ->
    parseEntries object.bytes.length object.bytes = .ok (listing volume.object index)
  names : ∀ entry ∈ volume.allEntries, validateName entry.name = .ok ()
  distinct : forall index, (listing volume.object index).Pairwise
    (fun first second => namesEqual first.name second.name = false)

end Volume

section

variable {volume : Volume}

theorem mem_allEntries {entry : DirectoryEntry} : entry ∈ volume.allEntries <->
      ∃ index < 512, entry ∈ listing volume.object index := by
  simp only [allEntries, mem_flatMap, mem_range]

theorem mem_allReferences (sound : volume.Sound) {block : Nat} :
    block ∈ volume.allReferences <-> ∃ index, block ∈ volume.refs index := by
  simp only [allReferences, mem_flatMap, mem_range]
  constructor
  · rintro ⟨index, _, listed⟩
    exact ⟨index, listed⟩
  · rintro ⟨index, listed⟩
    refine ⟨index, sound.small (fun free => ?_), listed⟩
    rw [refs_of_free free] at listed
    cases listed

theorem allReferences_nodup (sound : volume.Sound) : volume.allReferences.Nodup := by
  refine nodup_flatMap.mpr ⟨fun index _ => sound.distinct index, ?_⟩
  refine List.Pairwise.imp ?_ (nodup_range (n := 512))
  intro first second different block here there
  exact sound.apart first second different block here there

/-- An entry of a directory is a link of the namespace. -/
theorem child_of_entry (tree : Tree volume.object) {index : Nat} {entry : DirectoryEntry}
    (listed : entry ∈ listing volume.object index) :
    child volume.object index (foldCase entry.name) = some entry.inode :=
  find_of_mem (tree.distinct index) listed

theorem listing_pairwise (tree : Tree volume.object) (index : Nat) :
    (listing volume.object index).Pairwise
      (fun first second => foldCase first.name ≠ foldCase second.name) :=
  pairwise_map.mp (tree.distinct index)

/-- No inode is named twice, inside one directory or in two. -/
theorem inodes_nodup (tree : Tree volume.object) :
    (volume.allEntries.map DirectoryEntry.inode).Nodup := by
  rw [allEntries, map_flatMap]
  refine nodup_flatMap.mpr ⟨fun index _ => ?_, ?_⟩
  · refine pairwise_map.mpr (List.Pairwise.imp_of_mem ?_ (listing_pairwise tree index))
    intro first second firstListed secondListed different same
    have left := child_of_entry tree firstListed
    rw [same] at left
    exact different (tree.named.once left (child_of_entry tree secondListed)).2
  · refine List.Pairwise.imp ?_ (nodup_range (n := 512))
    intro first second different inode here there
    rcases mem_map.mp here with ⟨entry, listed, rfl⟩
    rcases mem_map.mp there with ⟨other, otherListed, same⟩
    have right := child_of_entry tree otherListed
    rw [same] at right
    exact different (tree.named.once (child_of_entry tree listed) right).1

theorem Volume.WellFormed.consistent (formed : volume.WellFormed) : volume.Consistent where
  bitmap := by
    intro block inside
    rw [mem_allReferences formed.sound]
    exact formed.sound.marked block inside
  unshared := allReferences_nodup formed.sound
  once := by
    intro index taken notRoot
    have present : volume.object index ≠ none := fun missing => taken (object_eq_none.mp missing)
    rcases formed.tree.named.named present notRoot with ⟨directory, key, linked⟩
    rcases mem_of_find linked with ⟨entry, listed, _, target⟩
    rcases listing_mem_directory listed with ⟨object, found, _⟩
    refine count_eq_one_of_mem (inodes_nodup formed.tree) (mem_map.mpr ⟨entry, ?_, target⟩)
    exact mem_allEntries.mpr ⟨directory, formed.sound.object_small found, listed⟩
  present := by
    intro entry member
    rcases mem_allEntries.mp member with ⟨index, _, listed⟩
    have reached := (formed.tree.named.target (child_of_entry formed.tree listed)).1
    have taken : (volume.inode entry.inode).kind ≠ kindFree :=
      fun free => reached (object_eq_none.mpr free)
    exact ⟨formed.sound.small taken, taken⟩
  readable := by
    intro index object found isDir
    have valid (entry : DirectoryEntry) (listed : entry ∈ object.entries) : ValidEntry entry :=
      (formed.tree.toReadable.object found).valid listed
    rw [listing_of_some found, formed.tree.encoded found isDir]
    exact parse_encoded valid
  names := by
    intro entry member
    rcases mem_allEntries.mp member with ⟨index, _, listed⟩
    exact validateName_ok_iff.mpr (formed.tree.valid listed).name
  distinct := by
    intro index
    refine (listing_pairwise formed.tree index).imp ?_
    intro first second different
    rw [Bool.eq_false_iff]
    exact fun same => different (namesEqual_iff.mp same)

end

/-- Starting from a formatted disk that does not fail, every sequence of calls
leaves the on-disk structures consistent, whatever each call returns. -/
theorem runCalls_consistent {disk : Disk} (reliable : disk.Reliable) (calls : List Call) :
    (runCalls disk calls).volume.Consistent :=
  (runCalls_mounted reliable calls).formed.consistent

theorem runCalls_consistent_blank : blankDisk.Reliable ∧
    (runCalls blankDisk [.mutate (.createDir [47, 97] 0 0 0o755),
      .safeWriteFile [47, 97, 47, 98] [1, 2, 3] 0 0 0o644, .flush]).volume.Consistent :=
  ⟨blankDisk_reliable, runCalls_consistent blankDisk_reliable _⟩

open Option Cached

/-!
## The mounted file system refines the path map

In every state a run reaches, the queries of the code report what the path map
holds.  A mutation that succeeds changes the map by its effect, and one that
fails leaves everything a client can see as it was.
-/

namespace Content

def bytes : Content -> Option (List UInt8)
  | .directory _ _ _ => none
  | .file bytes _ _ _ => some bytes

end Content

/-- What a query reports about the kind and the attributes of a path. -/
structure Attributes where
  isDir : Bool
  isFile : Bool
  uid : UInt32
  gid : UInt32
  mode : UInt16

def Content.attributes : Content -> Attributes
  | .directory uid gid mode =>
    { isDir := true, isFile := false, uid := uid, gid := gid, mode := mode }
  | .file _ uid gid mode =>
    { isDir := false, isFile := true, uid := uid, gid := gid, mode := mode }

def Metadata.attributes (metadata : Metadata) : Attributes :=
  { isDir := metadata.isDir, isFile := metadata.isFile
    uid := metadata.uid, gid := metadata.gid, mode := metadata.mode }

/-- What a path map holds at a path; only absolute paths lead anywhere. -/
def PathMap.reach (map : PathMap) (path : List UInt8) : Option Content :=
  if path.head? = some slash then map (pathKey path) else none

/-- The path map of a mounted volume. -/
def Cached.pathMap (state : Cached) : PathMap := view state.volume.object

/-- A finite path map that agrees with every query on a mounted volume. -/
structure Shows (state : Cached) (map : PathMap) : Prop where
  readFile : forall path, (inquire device (readFile .new path) state).1 =
    (map.reach path).bind Content.bytes
  metadata : forall path,
    (inquire device (metadata .new path) state).1.map Metadata.attributes =
      (map.reach path).map Content.attributes
  finite : Set.Finite { key | map key ≠ none }

section

variable {volume : Volume}

theorem reach_view (path : List UInt8) :
    PathMap.reach (view volume.object) path = (objectAt volume.object path).map Object.content := by
  unfold PathMap.reach objectAt
  split
  · rw [view, map_bind]
    rfl
  · rfl

theorem content_bytes {object : Object} (kind : object.kind = kindFile ∨ object.kind = kindDir) :
    object.content.bytes = if object.kind = kindFile then some object.bytes else none := by
  unfold Object.content
  rcases kind with file | directory
  · rw [if_pos file, if_neg (by rw [file]; decide)]
    rfl
  · rw [if_pos directory, if_neg (by rw [directory]; decide)]
    rfl

theorem content_attributes {object : Object}
    (kind : object.kind = kindFile ∨ object.kind = kindDir) :
    object.content.attributes = object.metadata.attributes := by
  unfold Object.content Metadata.attributes Object.metadata
  rcases kind with file | directory
  · have notDirectory : object.kind ≠ kindDir := by
      rw [file]
      decide
    simp only [if_neg notDirectory, decide_eq_false notDirectory, decide_eq_true file]
    rfl
  · have notFile : object.kind ≠ kindFile := by
      rw [directory]
      decide
    simp only [if_pos directory, decide_eq_false notFile, decide_eq_true directory]
    rfl

/-- Every path leads to an inode of its own, so there are at most 512. -/
theorem view_finite (formed : volume.WellFormed) :
    Set.Finite { key | view volume.object key ≠ none } := by
  have reached (key : List Name) (present : view volume.object key ≠ none) :
      ∃ index, walk (child volume.object) 0 key = some index := by
    cases walked : walk (child volume.object) 0 key with
    | none => exact absurd (by rw [view, walked]; rfl) present
    | some index => exact ⟨index, rfl⟩
  refine Set.Finite.of_finite_image (f := fun key => walk (child volume.object) 0 key) ?_ ?_
  · refine Set.Finite.subset (Set.Finite.image some (Set.finite_lt_nat 512)) ?_
    rintro _ ⟨key, present, rfl⟩
    rcases reached key present with ⟨index, walked⟩
    rcases formed.tree.walk_object walked with ⟨object, found, _⟩
    exact ⟨index, formed.sound.object_small found, walked.symm⟩
  · intro first firstPresent second secondPresent same
    rcases reached first firstPresent with ⟨index, walked⟩
    have sameWalk : walk (child volume.object) 0 first = walk (child volume.object) 0 second := same
    exact formed.tree.named.walk_injective walked (sameWalk.symm.trans walked)

theorem Mounted.shows (mounted : Mounted state) : Shows state state.pathMap where
  readFile := by
    intro path
    rw [(inquire_of_tells mounted.ready (readFile_tells mounted.formed path)).1,
      pathMap, reach_view]
    cases found : objectAt state.volume.object path with
    | none => rfl
    | some object => exact (content_bytes (kinds_of_objectAt mounted.formed found)).symm
  metadata := by
    intro path
    rw [(inquire_of_tells mounted.ready (metadata_tells mounted.formed path)).1,
      pathMap, reach_view]
    cases found : objectAt state.volume.object path with
    | none => rfl
    | some object =>
      exact congrArg some (content_attributes (kinds_of_objectAt mounted.formed found)).symm
  finite := view_finite mounted.formed

end

theorem Mounted.mutate_ok (mounted : Mounted state) {mutation : Mutation}
    (success : (exec device (mutation.program .new) state).1 = .ok ()) :
    Mounted (exec device (mutation.program .new) state).2 ∧
      mutation.Done state.volume (exec device (mutation.program .new) state).2.volume := by
  refine ⟨(Safe.mutation mutation).mounted mounted, ?_⟩
  rcases mutation.cases mounted.formed with ⟨failure, after, ran, _⟩ | ⟨after, ran, done⟩
  · rw [(exec_of_takes mounted.ready ran).1] at success
    cases success
  · rw [(exec_of_takes mounted.ready ran).2.2]
    exact done

/-- In every state a run reaches, a mutation that succeeds was enabled in the
path map and changes it by its effect; the queries of the code show the map
before and after.  In particular a file reads back as it was written. -/
theorem mutation_refines {disk : Disk} (reliable : disk.Reliable) (calls : List Call)
    (mutation : Mutation)
    (success : (exec device (mutation.program .new) (runCalls disk calls)).1 = .ok ()) :
    let before := runCalls disk calls
    let after := (exec device (mutation.program .new) before).2
    Shows before before.pathMap ∧ Shows after after.pathMap ∧
      mutation.Enabled before.pathMap ∧ after.pathMap = mutation.effect before.pathMap ∧
      forall path data, mutation = .writeFile path data ->
        (inquire device (readFile .new path) after).1 = some data := by
  intro before after
  have mounted := runCalls_mounted reliable calls
  rcases mounted.mutate_ok success with ⟨still, done⟩
  refine ⟨mounted.shows, still.shows, done.enabled, done.effect, ?_⟩
  rintro path data rfl
  rcases done.enabled with ⟨content, found, file⟩
  have written : after.pathMap (pathKey path) = some (content.withBytes data) := by
    change view _ _ = _
    rw [done.effect, Mutation.effect, Function.update_self, found]
    rfl
  have absolute : path.head? = some slash := done.absolute
  rw [still.shows.readFile path, PathMap.reach, if_pos absolute]
  rw [written]
  cases content with
  | directory uid gid mode => cases file
  | file bytes uid gid mode => rfl

/-- A directory `/a` with a file `/a/b`. -/
def populated : List Call :=
  [.mutate (.createDir [47, 97] 0 0 0o755), .mutate (.createFile [47, 97, 47, 98] 0 0 0o644)]

theorem mutation_refines_chmod :
    let before := runCalls blankDisk populated
    let after := (exec device ((Mutation.chmod [47, 97, 47, 98] 0o600).program .new) before).2
    after.pathMap = (Mutation.chmod [47, 97, 47, 98] 0o600).effect before.pathMap :=
  (mutation_refines blankDisk_reliable populated (.chmod [47, 97, 47, 98] 0o600)
    (by decide +kernel)).2.2.2.1

/-- What is created after any calls and then deleted leaves no trace in the path map. -/
theorem create_delete_restores {disk : Disk} (reliable : disk.Reliable) (calls : List Call)
    {made : Mutation} {path : List UInt8} {uid gid : UInt32} {mode : UInt16}
    (creates : made = .createFile path uid gid mode ∨ made = .createDir path uid gid mode)
    (created : (exec device (made.program .new) (runCalls disk calls)).1 = .ok ())
    (deleted : (exec device ((Mutation.deleteFile path).program .new)
      (exec device (made.program .new) (runCalls disk calls)).2).1 = .ok ()) :
    (runCalls disk (calls ++ [.mutate made, .mutate (.deleteFile path)])).pathMap =
      (runCalls disk calls).pathMap := by
  rcases (runCalls_mounted reliable calls).mutate_ok created with ⟨mounted, first⟩
  have second := (mounted.mutate_ok deleted).2
  rw [runCalls, foldl_append]
  refine second.effect.trans ?_
  have enabled := first.enabled
  rw [first.effect]
  rcases creates with rfl | rfl <;>
    exact (Function.update_idem ..).trans (Function.update_eq_self_iff.mpr enabled.symm)

theorem create_delete_restores_blank :
    (runCalls blankDisk [.mutate (.createDir [47, 97] 0 0 0o755),
      .mutate (.deleteFile [47, 97])]).pathMap = (runCalls blankDisk []).pathMap :=
  create_delete_restores blankDisk_reliable [] (.inr rfl) (by decide +kernel) (by decide +kernel)

theorem Mounted.mutate_error (mounted : Mounted state) {mutation : Mutation} {failure : FsError}
    (failed : (exec device (mutation.program .new) state).1 = .error failure) :
    Mounted (exec device (mutation.program .new) state).2 ∧
      Volume.Alike state.volume (exec device (mutation.program .new) state).2.volume := by
  refine ⟨(Safe.mutation mutation).mounted mounted, ?_⟩
  rcases mutation.cases mounted.formed with ⟨failure, after, ran, alike⟩ | ⟨after, ran, _⟩
  · rw [(exec_of_takes mounted.ready ran).2.2]
    exact alike
  · rw [(exec_of_takes mounted.ready ran).1] at failed
    cases failed

/-- The kind, content and metadata of every path, every directory listing, and
the free blocks and inodes are the same, as the code itself reads them. -/
structure SameAnswers (state other : Cached) : Prop where
  readFile : forall path, (inquire device (readFile .new path) other).1 =
    (inquire device (readFile .new path) state).1
  metadata : forall path, (inquire device (metadata .new path) other).1 =
    (inquire device (metadata .new path) state).1
  listDir : forall path, (inquire device (listDir .new path) other).1 =
    (inquire device (listDir .new path) state).1
  freeBlocks : forall block, (Program.run device (blockUsed .new block) other).1 =
    (Program.run device (blockUsed .new block) state).1
  freeInodes : forall index, (inquire device (readInode .new index) other).1 =
    (inquire device (readInode .new index) state).1

section

variable {other : Cached}

theorem Mounted.blockUsed_run (mounted : Mounted state) (block : Nat) :
    (Program.run device (blockUsed .new block) state).1 = state.volume.used block := by
  have ran := (exec_of_takes mounted.ready (blockUsed_takes block state.volume)).1
  rw [exec_total] at ran
  exact Except.ok.inj ran

theorem Mounted.readInode_run (mounted : Mounted state) (index : Nat) :
    (inquire device (readInode .new index) state).1 =
      if index < 512 then some (state.volume.inode index) else none := by
  by_cases small : index < 512
  · rw [if_pos small]
    exact (inquire_of_tells mounted.ready (readInode_tells small state.volume)).1
  · rw [if_neg small]
    exact (inquire_of_tells mounted.ready
      (readInode_beyond (Nat.le_of_not_lt small) state.volume)).1

theorem sameAnswers_of_alike (mounted : Mounted state) (still : Mounted other)
    (alike : Volume.Alike state.volume other.volume) : SameAnswers state other := by
  have objects := Volume.Alike.object alike mounted.formed.sound
  constructor
  · intro path
    rw [(inquire_of_tells still.ready (readFile_tells still.formed path)).1, objects,
      (inquire_of_tells mounted.ready (readFile_tells mounted.formed path)).1]
  · intro path
    rw [(inquire_of_tells still.ready (metadata_tells still.formed path)).1, objects,
      (inquire_of_tells mounted.ready (metadata_tells mounted.formed path)).1]
  · intro path
    rw [(inquire_of_tells still.ready (listDir_tells still.formed path)).1, objects,
      (inquire_of_tells mounted.ready (listDir_tells mounted.formed path)).1]
  · intro block
    rw [still.blockUsed_run, mounted.blockUsed_run, alike.used]
  · intro index
    rw [still.readInode_run, mounted.readInode_run, alike.inode]

end

/-- In every state a run reaches, a mutation that fails changes nothing that
can be read, and claims no block or inode. -/
theorem mutation_atomic {disk : Disk} (reliable : disk.Reliable) (calls : List Call)
    (mutation : Mutation) {failure : FsError}
    (failed : (exec device (mutation.program .new) (runCalls disk calls)).1 =
      .error failure) : SameAnswers (runCalls disk calls)
      (exec device (mutation.program .new) (runCalls disk calls)).2 := by
  have mounted := runCalls_mounted reliable calls
  rcases mounted.mutate_error failed with ⟨still, alike⟩
  exact sameAnswers_of_alike mounted still alike

/-- A directory that is not empty is not deleted. -/
theorem mutation_atomic_deleteFile : SameAnswers (runCalls blankDisk populated)
      (exec device ((Mutation.deleteFile [47, 97]).program .new) (runCalls blankDisk populated)).2 :=
  @mutation_atomic blankDisk blankDisk_reliable populated (.deleteFile [47, 97]) .notEmpty
    (by decide +kernel)

end CoolOs.CoolFs
