import CoolOs.DiskImage.BuilderRuns

namespace CoolOs.DiskImage

open BlockStore Naming CoolFs CoolFs.Volume Function List Option

/-!
# The kernel mounts what the builder writes

The image a builder hands out ends after its last used block.  On a disk that
continues with zeros the kernel finds the volume of the builder again, up to
the contents of free blocks.
-/

/-- A list of bytes followed by zeros. -/
def zeroExtended (bytes : List UInt8) : Bytes := fun address => bytes.getD address 0

/-- The blocks of the disk hold the bytes, followed by zeros. -/
def Carries (disk : Disk) (bytes : List UInt8) : Prop :=
  ∀ index < totalBlocks, disk.block index = blockOf 4096 (zeroExtended bytes) index

variable {image : Bytes} {address block : Nat} {bytes : List UInt8} {disk : Disk} {volume : Volume}

theorem zeroExtended_slice {length : Nat} (inside : address < length) :
    zeroExtended (slice image 0 length) address = image address := by
  have present : address < (slice image 0 length).length := by
    rw [length_slice]
    exact inside
  rw [zeroExtended, getD_eq_getElem _ _ present]
  simp only [slice, getElem_map, getElem_range, Nat.zero_add]

theorem carries_address (carries : Carries disk bytes) (inside : address < 6291456) :
    gather disk.block address = zeroExtended bytes address := by
  have block : address / 4096 < totalBlocks := by
    simp only [totalBlocks]
    omega
  have whole : address / 4096 * 4096 + address % 4096 = address := Nat.div_add_mod' _ _
  have same := carries _ block
  rw [<- blockOf_gather disk.block] at same
  have cell := congrFun same ⟨address % 4096, Nat.mod_lt _ (by decide)⟩
  rw [blockOf, blockOf, whole] at cell
  exact cell

/-- The scan finds every used block. -/
theorem le_persistLenFrom (image : Bytes) {count : Nat} (inside : block < count)
    (small : count <= 1536) (used : (ofBytes image).used block = true) :
    (block + 1) * 4096 <= persistLenFrom image count := by
  induction count with
  | zero => exact absurd inside (Nat.not_lt_zero _)
  | succ count ih =>
    have value : (ofBytes image).used count =
        (image (135168 + count / 8) &&& bit (count % 8) != 0) := if_pos small
    have scan : persistLenFrom image (count + 1) =
        if (ofBytes image).used count = true then (count + 1) * 4096
        else persistLenFrom image count := by
      rw [value]
      rfl
    rw [scan]
    by_cases last : block = count
    · subst last
      rw [if_pos used]
    · have earlier := ih (by omega) (by omega)
      split
      · exact Nat.mul_le_mul_right 4096 (by omega)
      · exact earlier

theorem le_persistLen (inside : block < 1536) (used : (ofBytes image).used block = true) :
    (block + 1) * 4096 <= persistLen image := le_persistLenFrom image inside (Nat.le_refl _) used

/-- On the disk, only the contents of free blocks differ. -/
theorem carries_alike (sound : (ofBytes image).Sound) (carries : Carries disk (intoImage image)) :
    Alike (ofBytes image) (ofBytes (gather disk.block)) := by
  have metadata : (33 + 1) * 4096 <= persistLen image :=
    le_persistLen (by decide) ((sound.marked 33 (by decide)).mpr (.inl (by decide)))
  have low (address : Nat) (inside : address < 139264) :
      gather disk.block address = image address := by
    rw [carries_address carries (by omega)]
    exact zeroExtended_slice (by omega)
  refine ⟨?_, ?_, ?_⟩
  · exact inode_congr (fun address _ high => low address (by omega))
  · exact used_congr (fun address _ high => low address high)
  · intro block used
    by_cases inside : block < 1536
    · have length := le_persistLen inside used
      refine data_congr (fun address _ _ high => ?_)
      rw [carries_address carries (by omega)]
      exact zeroExtended_slice (by omega)
    · have outside : ¬ (34 <= block ∧ block < 1536) := fun both => inside both.2
      exact (if_neg outside).trans (if_neg outside).symm

/-- The first block of the disk is that of the image. -/
theorem carries_head (sound : (ofBytes image).Sound) (carries : Carries disk (intoImage image)) :
    disk.block 0 = blockOf 4096 image 0 := by
  have metadata : (33 + 1) * 4096 <= persistLen image :=
    le_persistLen (by decide) ((sound.marked 33 (by decide)).mpr (.inl (by decide)))
  rw [carries 0 (by decide)]
  funext offset
  have bound := offset.isLt
  exact zeroExtended_slice (by omega)

/-- The kernel mounts a sound image with the expected superblock as it is. -/
theorem carries_mounts (first : blockOf 4096 image 0 = head) (sound : (ofBytes image).Sound)
    (reliable : disk.Reliable) (carries : Carries disk (intoImage image)) :
    ∃ state : Cached,
      loadOrFormat disk = (.ok (.new, state.cache), state.disk) ∧
        state.disk.sectors = disk.sectors ∧ state.Ready ∧ Alike (ofBytes image) state.volume := by
  have parsed : Superblock.parse (disk.block 0) = some .new := by
    rw [carries_head sound carries, first, parse_head]
  rcases loadOrFormat_mounts reliable parsed with ⟨state, loaded, same, ready, volume⟩
  refine ⟨state, loaded, same, ready, ?_⟩
  rw [volume]
  exact carries_alike sound carries

/-- What the kernel should find on a disk that carries the image of a list of
calls: the disk is mounted as it is, the volume is consistent, and every file
has the bytes that were written last and the metadata that was stored first. -/
def KernelAgrees (calls : List BuildCall) (disk : Disk) : Prop :=
  Exists fun state : Cached =>
    loadOrFormat disk = (.ok (.new, state.cache), state.disk) ∧
    state.disk.sectors = disk.sectors ∧ state.volume.Consistent ∧
    forall path data, lastWritten calls (buildKey path) = some data ->
      forall spelled, spelled.head? = some slash -> components spelled = parts path ->
        (inquire Cached.device (readFile .new spelled) state).1 = some data ∧
        Exists fun metadata =>
          (inquire Cached.device (CoolFs.metadata .new spelled) state).1 = some metadata ∧
          storedMetadata calls (buildKey path) = some (metadata.uid, metadata.gid, metadata.mode)

/-- The kernel agrees with the builder on every image whose calls create no
file over a directory. -/
theorem build_agrees {calls : List BuildCall} (spares : sparesDirectories calls = true)
    {image : Bytes} (outcome : build calls = some image) {disk : Disk} (reliable : disk.Reliable)
    (carries : Carries disk (intoImage image)) : KernelAgrees calls disk := by
  have built := build_built spares outcome
  rcases carries_mounts built.head built.formed.sound reliable carries with
    ⟨state, loaded, same, ready, alike⟩
  have mounted : Mounted state := ⟨ready, alike.wellFormed built.formed⟩
  have map : state.pathMap = view (ofBytes image).object := by
    rw [Cached.pathMap, alike.object built.formed.sound]
  refine ⟨state, loaded, same, mounted.formed.consistent, ?_⟩
  intro path data written spelled absolute pieces
  have key : pathKey spelled = buildKey path := by
    rw [buildKey, <- pieces]
    rfl
  rcases built.records.bytes _ data written with ⟨content, held, bytes⟩
  have reached : state.pathMap.reach spelled = some content := by
    rw [PathMap.reach, if_pos absolute, key, map, held]
  have deep : buildKey path ≠ [] := by
    intro top
    rcases built.records.root with ⟨root, present, isDir⟩
    rw [<- top, held, some.injEq] at present
    subst present
    cases content with
    | directory uid gid mode => cases bytes
    | file old uid gid mode => exact absurd isDir (by decide : ¬ kindFile = kindDir)
  constructor
  · rw [mounted.shows.readFile, reached]
    exact bytes
  · have answer := mounted.shows.metadata spelled
    rw [reached, map_some, map_eq_some_iff] at answer
    rcases answer with ⟨metadata, told, attributes⟩
    refine ⟨metadata, told, ?_⟩
    rw [built.records.owner _ content deep held, <- attributes]
    rfl

/-- A reliable device that holds the bytes, followed by zeros. -/
def imageDisk (bytes : List UInt8) : Disk where
  sectors := fun lba offset => zeroExtended bytes (lba * 512 + offset.val)
  reads := fun _ => true
  writes := fun _ => .stored

theorem imageDisk_reliable (bytes : List UInt8) : (imageDisk bytes).Reliable :=
  ⟨fun _ => rfl, fun _ => rfl⟩

theorem imageDisk_carries (bytes : List UInt8) : Carries (imageDisk bytes) bytes := by
  intro index _
  funext offset
  have bound := offset.isLt
  have address : (index * 8 + offset.val / 512) * 512 + offset.val % 512 % 512 =
      index * 4096 + offset.val := by omega
  change zeroExtended bytes ((index * 8 + offset.val / 512) * 512 + offset.val % 512 % 512) = _
  rw [address]
  rfl

theorem roomFor_nil (volume : Volume) : volume.RoomFor [] := ⟨Nat.zero_le _, Nat.zero_le _⟩

/-- Below an empty root directory the kernel finds no file. -/
theorem readFile_below_empty (sound : volume.Sound) {root : Object}
    (found : volume.object 0 = some root) (isDir : root.kind = kindDir) (empty : root.bytes = [])
    {path : List UInt8} (absolute : path.head? = some slash) (deep : components path ≠ []) :
    Tells (readFile .new path) volume none := by
  have trimmed := trimAbsPath_of_absolute absolute
  have same := (trimAbsPath_ok trimmed).2
  generalize path.take (trimEnd path path.length) = short at trimmed same
  have notRoot : short ≠ [slash] := by
    rintro rfl
    exact deep same.symm
  have readable := Object.Readable.of_leaf (Or.inr isDir) (fun _ => empty)
  have entries := readEntries_takes sound found readable isDir
  rw [Object.entries_of_empty empty] at entries
  have lost : Takes (CoolFs.resolvePath .new path) volume (.error .notFound) volume := by
    unfold CoolFs.resolvePath
    rw [trimmed]
    refine .bind (.settled _) ?_
    rw [if_neg notRoot, same]
    cases pieces : components path with
    | nil => exact absurd pieces deep
    | cons component rest =>
      refine .bind (readObject_takes sound found _) ?_
      rw [isDir_iff found, decide_eq_true isDir, if_pos rfl]
      exact .bind entries (.throw _)
  exact .bind_none (.okOnly_error lost)

/-- An image with one empty file. -/
theorem build_first : ∃ image,
    build [.createFile (ascii "/b") []] = some image ∧
      sparesDirectories [.createFile (ascii "/b") []] = true := by
  have spares : sparesDirectories [.createFile (ascii "/b") []] = true := by decide +kernel
  have made : (build [.createFile (ascii "/b") []]).isSome = true := by decide +kernel
  rcases isSome_iff_exists.mp made with ⟨image, outcome⟩
  exact ⟨image, outcome, spares⟩

/-- A directory with a file of three bytes. -/
theorem build_agrees_first : Exists fun image =>
    build [.createDir (ascii "/d"), .createFile (ascii "/d/f") [1, 2, 3]] = some image ∧
      KernelAgrees [.createDir (ascii "/d"), .createFile (ascii "/d/f") [1, 2, 3]]
        (imageDisk (intoImage image)) := by
  have made : (build [.createDir (ascii "/d"), .createFile (ascii "/d/f") [1, 2, 3]]).isSome =
      true := by decide +kernel
  rcases isSome_iff_exists.mp made with ⟨image, outcome⟩
  exact ⟨image, outcome, build_agrees (by decide +kernel) outcome (imageDisk_reliable _)
    (imageDisk_carries _)⟩

/-- A file that is created over the root directory does not panic, and takes
every other file of the image with it. -/
theorem build_loses_file : Exists fun image =>
    build [.createFile (ascii "/b") [], .createFile (ascii "/") []] = some image ∧
      ¬ KernelAgrees [.createFile (ascii "/b") [], .createFile (ascii "/") []]
        (imageDisk (intoImage image)) := by
  rcases build_first with ⟨before, outcome, spares⟩
  have built := build_built spares outcome
  rcases built.formed.tree.root with ⟨root, found, isDir⟩
  have taken := (inode_of_object found).1
  have top : buildKey (ascii "/") = [] := by decide
  have parent := resolvePath_makes built.formed (by decide :
    normalizeAbsPath (ascii "/") = some (ascii "/"))
  rw [top] at parent
  have emptied := writeInodeBytes_makes built.formed.sound taken (roomFor_nil _)
  have owner : defaultMetadataForPath (ascii "/") false = some (0, 0, 0o644) := by decide
  have made : Makes (createFile (ascii "/") []) (ofBytes before) ()
      ((ofBytes before).rewrite 0 []) := by
    unfold createFile createFileWithMetadata
    rw [owner]
    exact .bind (.settle _) (.bind parent emptied)
  rcases made _ before rfl with ⟨image, called, observed⟩
  rw [seen, Prod.mk.injEq] at observed
  rcases observed with ⟨first, volume⟩
  have sound : (ofBytes image).Sound := by
    rw [volume]
    exact rewrite_sound built.formed.sound (roomFor_nil _) taken
  have object : (ofBytes image).object 0 = some ({ root with bytes := [] } : Object) := by
    rw [volume, rewrite_object built.formed.sound (roomFor_nil _) found, update_self]
  refine ⟨image, ?_, ?_⟩
  · rcases bind_eq_some_iff.mp outcome with ⟨fresh, ran, later⟩
    rcases bind_eq_some_iff.mp later with ⟨reached, added, last⟩
    cases last
    rw [build, ran, bind_some, buildFrom, added, bind_some, buildFrom, BuildCall.program, called]
    rfl
  · rintro ⟨state, loaded, _, _, files⟩
    rcases carries_mounts (first.trans built.head) sound (imageDisk_reliable _)
      (imageDisk_carries _) with ⟨same, mounted, _, ready, alike⟩
    rw [mounted] at loaded
    have equal : same = state := by
      cases same
      cases state
      cases loaded
      rfl
    subst equal
    have kept : same.volume.object 0 = some ({ root with bytes := [] } : Object) := by
      rw [alike.object sound, object]
    have told := (Cached.inquire_of_tells ready (readFile_below_empty (alike.sound sound) kept isDir
      rfl (by decide : (ascii "/b").head? = some slash) (by decide))).1
    have expected := (files (ascii "/b") [] (by decide) (ascii "/b") (by decide) (by decide)).1
    rw [told] at expected
    cases expected

end CoolOs.DiskImage
