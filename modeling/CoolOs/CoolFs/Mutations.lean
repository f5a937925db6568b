import CoolOs.CoolFs.Lookup

namespace CoolOs.CoolFs

open BlockStore Naming Image Volume Function List

/-!
# The mutating operations

Every mutation either fails and leaves a volume that differs from the old one
only in the contents of free blocks, or succeeds and changes the path map at
one path.
-/

/-- The program fails and only free blocks are touched. -/
def Fails {Result : Type} (program : Fallible Result) (volume : Volume) : Prop :=
  ∃ failure after,
    Takes program volume (.error failure) after ∧ Alike volume after

namespace Fails

variable {Result Other : Type} {volume : Volume} {rest : Result -> Fallible Other}

theorem throw (failure : FsError) : Fails (throw failure : Fallible Result) volume :=
  ⟨failure, volume, .throw failure, .refl volume⟩

variable {program : Fallible Result}

theorem of_error {failure : FsError}
    (ran : Takes program volume (.error failure) volume) : Fails program volume :=
  ⟨failure, volume, ran, .refl volume⟩

/-- The first step fails. -/
theorem first (failed : Fails program volume) : Fails (program >>= rest) volume := by
  rcases failed with ⟨failure, after, ran, alike⟩
  exact ⟨failure, after, .bind_error ran, alike⟩

/-- The first step changes nothing and the rest fails. -/
theorem later {result : Result} (ran : Takes program volume (.ok result) volume)
    (failed : Fails (rest result) volume) : Fails (program >>= rest) volume := by
  rcases failed with ⟨failure, after, next, alike⟩
  exact ⟨failure, after, .bind ran next, alike⟩

end Fails

/-- The program succeeds with an effect. -/
def Succeeds (program : Fallible Unit) (volume : Volume) (effect : Volume -> Prop) : Prop :=
  Exists fun after => Takes program volume (.ok ()) after ∧ effect after

variable {effect : Volume -> Prop}

variable {Result : Type} {volume : Volume}

theorem Succeeds.later {program : Fallible Result} {rest : Result -> Fallible Unit}
    {result : Result} (ran : Takes program volume (.ok result) volume)
    (succeeded : Succeeds (rest result) volume effect) :
    Succeeds (program >>= rest) volume effect := by
  rcases succeeded with ⟨after, next, effected⟩
  exact ⟨after, .bind ran next, effected⟩

/-- The program fails, or succeeds with an effect. -/
abbrev Mutates (program : Fallible Unit) (volume : Volume) (effect : Volume -> Prop) : Prop :=
  Fails program volume ∨ Succeeds program volume effect

theorem Mutates.later {program : Fallible Result} {rest : Result -> Fallible Unit} {result : Result}
    (ran : Takes program volume (.ok result) volume) (next : Mutates (rest result) volume effect) :
    Mutates (program >>= rest) volume effect := next.imp (.later ran) (.later ran)

theorem Mutates.settle {Value : Type} {value : Except FsError Value} {rest : Value -> Fallible Unit}
    (next : ∀ found, value = .ok found -> Mutates (rest found) volume effect) :
    Mutates (settled value >>= rest) volume effect := by
  cases value with
  | error failure => exact .inl (.first (.of_error (.settled _)))
  | ok found => exact .later (.settled _) (next found rfl)

/-- What a successful mutation of one path guarantees. -/
structure Changed (volume after : Volume) (path : List UInt8) (content : Option Content) :
    Prop where
  formed : after.WellFormed
  absolute : path.head? = some slash
  view : view after.object = Function.update (view volume.object) (pathKey path) content

section

variable {volume : Volume} {path : List UInt8} {index : Nat} {old : Object}
  (formed : volume.WellFormed)
include formed

/-- A mutation that resolves a path and goes on with the inode found. -/
theorem inPlace_cases {rest : Nat -> Fallible Unit}
    (next : ∀ index object, path.head? = some slash ->
      walk (child volume.object) 0 (pathKey path) = some index ->
      volume.object index = some object -> Mutates (rest index) volume effect)
    : Mutates (resolvePath .new path >>= rest) volume effect := by
  rcases resolvePath_takes formed path with ⟨index, absolute, walked, ran⟩ | ⟨_, failure, ran⟩
  · rcases formed.tree.walk_object walked with ⟨object, found, _⟩
    exact .later ran (next index object absolute walked found)
  · exact .inl (.first (.of_error ran))

theorem revised {index : Nat} {old new : Object} {after : Volume}
    (absolute : path.head? = some slash)
    (walked : walk (child volume.object) 0 (pathKey path) = some index)
    (found : volume.object index = some old) (sound : after.Sound)
    (objects : after.object = Function.update volume.object index (some new))
    (kind : new.kind = old.kind) (bytes : old.kind = kindDir -> new.bytes = old.bytes) :
    Changed volume after path (some new.content) := by
  rcases formed.tree.revise found kind bytes with ⟨tree, children⟩
  refine ⟨⟨sound, by rw [objects]; exact tree⟩, absolute, ?_⟩
  rw [objects]
  exact formed.tree.view_revise walked children

theorem stored_mode (found : volume.object index = some old) :
    normalMode old.kind (old.mode &&& 0o777) = old.mode := by
  rcases inode_of_object found with ⟨_, rfl⟩
  exact congrArg Inode.mode (formed.sound.stable index)

omit formed in
/-- Writing an inode back with another owner or mode retags it. -/
theorem setInode_stored (sound : volume.Sound) (index : Nat) (uid gid : UInt32) (mode : UInt16) :
    volume.setInode index
        ({ volume.inode index with uid := uid, gid := gid, mode := mode } : Inode).stored =
      volume.retag index uid gid (normalMode (volume.inode index).kind (mode &&& 0o777)) := by
  have size := congrArg Inode.size (sound.stable index)
  have direct := congrArg Inode.direct (sound.stable index)
  have indirect := congrArg Inode.indirect (sound.stable index)
  refine congrArg (volume.setInode index) (Inode.ext rfl ?_ ?_ ?_ rfl rfl rfl)
  · exact size
  · exact direct
  · exact indirect

/-- Changing the owner or the mode of a path that leads somewhere succeeds. -/
theorem retag_succeeds {uid gid : UInt32} {mode : UInt16}
    {change : Inode -> Inode} (absolute : path.head? = some slash)
    (walked : walk (child volume.object) 0 (pathKey path) = some index)
    (found : volume.object index = some old) (changes : change (volume.inode index) =
      { volume.inode index with uid := uid, gid := gid, mode := mode }) :
    Succeeds (okOr (readInode .new index) .notFound >>= fun inode =>
        if inode.kind = kindFree then throw .notFound else writeInode .new index (change inode))
      volume (fun after => objectAt volume.object path = some old ∧ Changed volume after path
        (some (Object.content { old with
          uid := uid, gid := gid, mode := normalMode old.kind (mode &&& 0o777) }))) := by
  have taken := (inode_of_object found).1
  refine .later (readObject_takes formed.sound found _) ?_
  rw [if_neg taken, changes]
  refine ⟨_, writeInode_takes (formed.sound.small taken) _ volume,
    (objectAt_of_walk absolute walked).trans found, ?_⟩
  rw [setInode_stored formed.sound]
  have retagged := @retag_object volume index uid gid
    (normalMode (volume.inode index).kind (mode &&& 0o777)) old found
  rcases inode_of_object found with ⟨_, rfl⟩
  exact revised formed absolute walked found (retag_sound formed.sound taken
    (normalMode_and _ mode)) retagged rfl (fun _ => rfl)

theorem chmod_succeeds (mode : UInt16) (absolute : path.head? = some slash)
    (walked : walk (child volume.object) 0 (pathKey path) = some index)
    (found : volume.object index = some old) :
    Succeeds (okOr (readInode .new index) .notFound >>= fun inode =>
        if inode.kind = kindFree then throw .notFound
        else writeInode .new index { inode with mode := mode &&& 0o777 }) volume
      (fun after => ∃ old,
        objectAt volume.object path = some old ∧ Changed volume after path
          (some ({ old with mode := normalMode old.kind (mode &&& 0o777) } : Object).content)) := by
  rcases @retag_succeeds volume path index old formed _ _ _
    (fun inode => { inode with mode := mode &&& 0o777 }) absolute walked found rfl with
    ⟨after, ran, known, changed⟩
  refine ⟨after, ran, old, known, ?_⟩
  rcases inode_of_object found with ⟨_, rfl⟩
  rw [mode_idem] at changed
  exact changed

theorem chmod_cases (mode : UInt16) :
    Mutates (chmod .new path mode) volume (fun after => ∃ old,
      objectAt volume.object path = some old ∧ Changed volume after path
        (some ({ old with mode := normalMode old.kind (mode &&& 0o777) } : Object).content)) :=
  inPlace_cases formed (fun _ _ absolute walked found =>
    .inr (chmod_succeeds formed mode absolute walked found))

theorem chown_cases (uid gid : UInt32) :
    Mutates (chown .new path uid gid) volume (fun after => ∃ old,
      objectAt volume.object path = some old ∧ Changed volume after path
        (some ({ old with uid := uid, gid := gid } : Object).content)) := by
  refine inPlace_cases formed ?_
  intro index old absolute walked found
  rcases @retag_succeeds volume path index old formed _ _ _
    (fun inode => { inode with uid := uid, gid := gid }) absolute walked found rfl with
    ⟨after, ran, known, changed⟩
  refine .inr ⟨after, ran, old, known, ?_⟩
  have kept := stored_mode formed found
  rcases inode_of_object found with ⟨_, rfl⟩
  rw [kept] at changed
  exact changed

theorem writeFile_cases (data : List UInt8) :
    Mutates (writeFile .new path data) volume (fun after => ∃ old,
      objectAt volume.object path = some old ∧ old.kind = kindFile ∧
        objectAt after.object path = some { old with bytes := data } ∧
        Changed volume after path (some ({ old with bytes := data } : Object).content)) := by
  refine inPlace_cases formed ?_
  intro index old absolute walked found
  have taken := (inode_of_object found).1
  by_cases file : old.kind = kindFile
  · have notDirectory : old.kind ≠ kindDir := by
      rw [file]
      decide
    by_cases room : volume.RoomFor data
    · right
      refine .later (readObject_takes formed.sound found _) ?_
      rw [isFile_iff found, decide_eq_true file, if_pos rfl]
      have objects := rewrite_object formed.sound room found
      have changed := @revised volume path formed index old { old with bytes := data } _ absolute
        walked found (rewrite_sound formed.sound room taken) objects rfl
        (fun directory => absurd directory notDirectory)
      refine ⟨_, writeInodeBytes_takes formed.sound taken room, old,
        (objectAt_of_walk absolute walked).trans found, file, ?_, changed⟩
      have children := (formed.tree.revise found (rfl : ({ old with bytes := data } : Object).kind =
        old.kind) (fun directory => absurd directory notDirectory)).2
      rw [objectAt, if_pos absolute, objects, children, walked]
      exact update_self _ _ _
    · left
      refine .later (readObject_takes formed.sound found _) ?_
      rw [isFile_iff found, decide_eq_true file, if_pos rfl]
      rcases @writeInodeBytes_full volume index data room with ⟨after, ran, alike⟩
      exact ⟨.noSpace, after, ran, alike⟩
  · left
    refine .later (readObject_takes formed.sound found _) ?_
    rw [isFile_iff found, decide_eq_false file, if_neg Bool.false_ne_true]
    exact .throw _

end

variable {volume : Volume} {path : List UInt8}
  {entries : List DirectoryEntry} {name : Name} {directory index position : Nat}
  {parent : Object} {kind : UInt8} {parentKey : List Name}

theorem any_namesEqual : entries.any (fun entry => namesEqual entry.name name) = true <->
      foldCase name ∈ keys entries := by
  rw [any_eq_true, keys, mem_map]
  constructor
  · rintro ⟨entry, listed, same⟩
    exact ⟨entry, listed, namesEqual_iff.mp same⟩
  · rintro ⟨entry, listed, same⟩
    exact ⟨entry, listed, namesEqual_iff.mpr same⟩

/-- A mutation that reads a directory and goes on with its entries. -/
theorem inParent_cases (formed : volume.WellFormed) {parentPath : List UInt8}
    {rest : Nat -> List DirectoryEntry -> Fallible Unit}
    (next : ∀ directory parent,
      walk (child volume.object) 0 (pathKey parentPath) = some directory ->
      volume.object directory = some parent -> parent.kind = kindDir ->
      Mutates (rest directory parent.entries) volume effect)
    :
    Mutates (resolvePath .new parentPath >>= fun directory =>
      readDirEntries .new directory >>= rest directory) volume effect := by
  refine inPlace_cases formed ?_
  intro directory parent _ walked found
  by_cases isDir : parent.kind = kindDir
  · exact .later (readDirEntries_takes formed found isDir) (next directory parent walked found isDir)
  · left
    have refused (object : Object) (present : volume.object directory = some object) :
        object.kind ≠ kindDir := by
      rw [found, Option.some.injEq] at present
      rw [<- present]
      exact isDir
    rcases readDirEntries_refused refused with ⟨failure, ran⟩
    exact .first (.of_error ran)

/-- Rewriting a directory, with or without room for it. -/
theorem writeDirEntries_cases (sound : volume.Sound) (found : volume.object directory = some parent)
    (valid : ∀ entry ∈ entries, ValidName entry.name) :
    Mutates (writeDirEntries .new directory entries) volume (fun after => after.Sound ∧
        after.object =
          Function.update volume.object directory (some (parent.withEntries entries))) := by
  have taken := (inode_of_object found).1
  have step {outcome : Except FsError Unit} {after : Volume}
      (later : Takes (writeInodeBytes .new directory (entries.flatMap encodeEntry)) volume outcome
        after) :
      Takes (writeDirEntries .new directory entries) volume outcome after := by
    unfold writeDirEntries
    rw [encodeEntries_ok valid]
    exact .bind (.settled _) later
  by_cases room : volume.RoomFor (entries.flatMap encodeEntry)
  · exact .inr ⟨_, step (writeInodeBytes_takes sound taken room),
      rewrite_sound sound room taken, rewrite_object sound room found⟩
  · rcases @writeInodeBytes_full volume directory _ room with ⟨after, ran, alike⟩
    exact .inl ⟨.noSpace, after, step ran, alike⟩

/-- Giving back an inode that was just taken restores the volume. -/
theorem alike_of_rollback (sound : volume.Sound) (free : (volume.inode index).kind = kindFree)
    (used : kind ≠ kindFree) {uid gid : UInt32} {mode : UInt16} {after : Volume}
    (created : (volume.create index kind uid gid mode).Sound)
    (alike : Alike (volume.create index kind uid gid mode) after) :
    Alike volume (after.remove index) where
  inode := by
    funext other
    by_cases same : other = index
    · rw [same, remove_inode_self, sound.vacant index free]
    · have kept : (after.remove index).inode other = after.inode other :=
        update_of_ne same _ _
      rw [kept, alike.inode]
      exact update_of_ne same _ _
  used := by
    have none : after.refs index = [] := by rw [(alike.keeps created index).refs, create_refs used]
    have taken : (after.inode index).kind ≠ kindFree := by
      rw [alike.inode, create_inode_self]
      exact used
    rw [refs_of_used taken] at none
    change (after.release (after.references (after.inode index))).used = volume.used
    rw [none, release_nil, alike.used]
    rfl
  data := fun block taken => alike.data block taken

variable (formed : volume.WellFormed)
include formed

/-- The part of `create_node` that follows the checks of the path. -/
theorem enterNode_cases (node : kind = kindFile ∨ kind = kindDir) (uid gid : UInt32) (mode : UInt16)
    (walked : walk (child volume.object) 0 parentKey = some directory)
    (found : volume.object directory = some parent) (isDir : parent.kind = kindDir)
    (valid : ValidName name) (absolute : path.head? = some slash)
    (key : pathKey path = parentKey ++ [foldCase name])
    (unused : foldCase name ∉ keys parent.entries) :
    let program : Fallible Unit := do
      let inodeIdx <- allocInodeWithMetadata .new kind uid gid mode
      match (<- attempt (writeDirEntries .new directory
          (parent.entries ++ [{ inode := inodeIdx, name := name }]))) with
      | .ok _ => return ()
      | .error err =>
        let _ <- attempt (freeInode .new inodeIdx)
        throw err
    Mutates program volume (fun after =>
      view volume.object (pathKey path) = none ∧
      Changed volume after path (some (Object.content {
        kind := kind, uid := uid, gid := gid
        mode := normalMode kind (mode &&& 0o777), bytes := [] }))) := by
  have used : kind ≠ kindFree := by
    rcases node with rfl | rfl
    · decide
    · decide
  cases first : volume.firstFree with
  | none =>
    exact .inl (.first (.of_error (allocInode_full first kind uid gid mode)))
  | some index =>
    rcases firstFree_some first with ⟨_, small, free⟩
    have missing := object_eq_none.mpr free
    have apart : directory ≠ index := by
      rintro rfl
      rw [missing] at found
      cases found
    have taken := allocInode_takes first kind uid gid mode
    have created := @create_sound volume index kind uid gid mode formed.sound small free used
    have objects := @create_object volume index kind uid gid mode used
    have kept : (volume.create index kind uid gid mode).object directory = some parent := by
      rw [objects, update_of_ne apart, found]
    have names (entry : DirectoryEntry)
        (listed : entry ∈ parent.entries ++ [{ inode := index, name := name }]) :
        ValidName entry.name := by
      rcases mem_append.mp listed with early | last
      · exact ((formed.tree.toReadable.object found).valid early).name
      · rw [mem_singleton.mp last]
        exact valid
    rcases writeDirEntries_cases created kept names with
      ⟨failure, after, ran, alike⟩ | ⟨after, ran, sound, stored⟩
    · left
      have inUse : (after.inode index).kind ≠ kindFree := by
        rw [alike.inode, create_inode_self]
        exact used
      refine ⟨failure, after.remove index, ?_,
        alike_of_rollback formed.sound free used created alike⟩
      refine .bind taken (.bind (.attempt ran) ?_)
      refine .bind (.attempt (freeInode_takes (alike.sound created) inUse)) ?_
      exact .throw failure
    · right
      refine ⟨after, .bind taken (.bind (.attempt ran) (.pure ())), ?_⟩
      have absent := child_unused found unused
      rw [objects] at stored
      rcases @Tree.enter volume.object directory index parent
        { kind := kind, uid := uid, gid := gid
          mode := normalMode kind (mode &&& 0o777), bytes := [] }
        formed.tree found isDir missing (by omega) node (fun _ => rfl) name valid unused
        with ⟨tree, children⟩
      refine ⟨?_, ⟨sound, by rw [stored]; exact tree⟩, absolute, ?_⟩
      · rw [key, Tree.view_concat walked, absent]
        rfl
      · rw [stored, key]
        exact formed.tree.view_enter found isDir missing walked absent children

/-- Creating a node adds its path to the path map. -/
theorem createNode_cases (node : kind = kindFile ∨ kind = kindDir)
    (uid gid : UInt32) (mode : UInt16) :
    Mutates (createNode .new path kind uid gid mode) volume (fun after =>
        view volume.object (pathKey path) = none ∧
        Changed volume after path (some (Object.content {
          kind := kind, uid := uid, gid := gid
          mode := normalMode kind (mode &&& 0o777), bytes := [] }))) := by
  unfold createNode
  refine .settle fun parts split => ?_
  rcases parts with ⟨parentPath, name⟩
  refine .settle fun _ checked => inParent_cases formed ?_
  have validName := validateName_ok_iff.mp checked
  intro directory parent walked found isDir
  by_cases taken : foldCase name ∈ keys parent.entries
  · rw [if_pos (any_namesEqual.mpr taken)]
    exact .inl (.throw _)
  · rw [if_neg (fun some => taken (any_namesEqual.mp some))]
    exact enterNode_cases formed node uid gid mode walked found isDir validName
      (absolute_of_split split) (pathKey_of_split split) taken

omit formed in
theorem findIdx?_namesEqual
    (located : entries.findIdx? (fun entry => namesEqual entry.name name) = some position) :
    ∃ inside : position < entries.length,
      foldCase (entries.get ⟨position, inside⟩).name = foldCase name := by
  rcases findIdx?_eq_some_iff_getElem.mp located with ⟨inside, same, _⟩
  exact ⟨inside, namesEqual_iff.mp same⟩

/-- The check that a directory is empty before it is deleted. -/
theorem checkDeletable_cases {target : Object} (found : volume.object index = some target) :
    (target.entries = [] ∧
        Takes (checkDeletable .new (volume.inode index) index) volume (.ok ()) volume) ∨
      Takes (checkDeletable .new (volume.inode index) index) volume (.error .notEmpty) volume := by
  unfold checkDeletable
  rw [isDir_iff found]
  by_cases isDir : target.kind = kindDir
  · rw [decide_eq_true isDir, if_pos rfl]
    have listed := readDirEntries_takes formed found isDir
    cases entries : target.entries with
    | nil =>
      rw [entries] at listed
      exact .inl ⟨rfl, .bind listed (.pure ())⟩
    | cons first rest =>
      rw [entries] at listed
      exact .inr (.bind listed (.throw _))
  · rw [decide_eq_false isDir, if_neg Bool.false_ne_true]
    exact Or.inl ⟨Object.entries_of_file isDir, Yields.pure ()⟩

/-- The part of `delete_file` that follows the checks. -/
theorem leaveEntry_cases {object : Object}
    (walked : walk (child volume.object) 0 parentKey = some directory)
    (found : volume.object directory = some parent) (isDir : parent.kind = kindDir)
    (inside : position < parent.entries.length) (absolute : path.head? = some slash)
    (key : pathKey path = parentKey ++ [foldCase parent.entries[position].name])
    (reached : volume.object parent.entries[position].inode = some object)
    (empty : object.entries = []) :
    let program : Fallible Unit := do
      writeDirEntries .new directory (parent.entries.eraseIdx position)
      freeInode .new parent.entries[position].inode
    Mutates program volume (fun after =>
      view volume.object (pathKey path) ≠ none ∧ Changed volume after path none) := by
  have readable := formed.tree.toReadable.object found
  have leaf : listing volume.object parent.entries[position].inode = [] := by
    rw [listing_of_some reached, empty]
  have apart : parent.entries[position].inode ≠ directory := by
    intro same
    rw [same, listing_of_some found] at leaf
    have length : parent.entries.length = 0 := by rw [leaf]; rfl
    omega
  have linked := formed.tree.child_entry found inside
  have names (entry : DirectoryEntry) (kept : entry ∈ parent.entries.eraseIdx position) :
      ValidName entry.name := (readable.valid (mem_of_mem_eraseIdx kept)).name
  rcases writeDirEntries_cases formed.sound found names with failed | ⟨after, ran, sound, stored⟩
  · exact .inl (.first failed)
  · right
    have kept : after.object parent.entries[position].inode = some object := by
      rw [stored, update_of_ne apart, reached]
    have inUse := (inode_of_object kept).1
    rcases formed.tree.leave found isDir inside rfl leaf with ⟨tree, children⟩
    refine ⟨_, .bind ran (freeInode_takes sound inUse), ?_, ⟨?_, ?_⟩, absolute, ?_⟩
    · rw [key, Tree.view_concat walked, linked, Option.bind_some, reached]
      exact Option.some_ne_none _
    · exact remove_sound sound inUse
    · rw [remove_object, stored]
      exact tree
    · rw [remove_object, stored, key]
      exact formed.tree.view_leave found isDir walked linked leaf children

/-- Deleting removes one path from the path map. -/
theorem deleteFile_cases :
    Mutates (deleteFile .new path) volume (fun after =>
        view volume.object (pathKey path) ≠ none ∧ Changed volume after path none) := by
  unfold deleteFile
  refine .settle fun parts split => ?_
  rcases parts with ⟨parentPath, name⟩
  refine inParent_cases formed ?_
  intro directory parent walked found isDir
  cases located : parent.entries.findIdx? (fun entry => namesEqual entry.name name) with
  | none => exact .inl (.throw _)
  | some position =>
    rcases findIdx?_namesEqual located with ⟨inside, same⟩
    have target : (parent.entries.map DirectoryEntry.inode).getD position 0 =
        parent.entries[position].inode := by
      rw [getD_eq_getElem _ _ (by rw [length_map]; exact inside), getElem_map]
    have present := (formed.tree.named.target (formed.tree.child_entry found inside)).1
    rcases Option.ne_none_iff_exists'.mp present with ⟨object, reached⟩
    change Mutates (okOr (readInode .new _) _ >>= _) volume _
    rw [target]
    refine .later (readObject_takes formed.sound reached _) ?_
    rcases checkDeletable_cases formed reached with ⟨empty, ran⟩ | ran
    · refine .later ran ?_
      exact leaveEntry_cases formed walked found isDir inside (absolute_of_split split)
        ((pathKey_of_split split).trans (by rw [<- same]; rfl)) reached empty
    · exact .inl (.first (.of_error ran))

/-- What a successful rename guarantees.  A new name that differs from the old
one in case only is ignored, without a look at the directory. -/
def Renamed (volume after : Volume) (path : List UInt8) (newName : Name) : Prop :=
  path.head? = some slash ∧
  ∃ parentKey oldKey, pathKey path = parentKey ++ [oldKey] ∧
    ((foldCase newName = oldKey ∧ after = volume) ∨
      (foldCase newName ≠ oldKey ∧ view volume.object (parentKey ++ [oldKey]) ≠ none ∧
        view volume.object (parentKey ++ [foldCase newName]) = none ∧
        view after.object = fun keys =>
          (formerPath parentKey oldKey (foldCase newName) keys).bind (view volume.object)))

/-- The part of `rename` that follows the checks. -/
theorem relabelEntry_cases (walked : walk (child volume.object) 0 parentKey = some directory)
    (found : volume.object directory = some parent) (isDir : parent.kind = kindDir)
    (inside : position < parent.entries.length) {newName : Name}
    (absolute : path.head? = some slash)
    (key : pathKey path = parentKey ++ [foldCase parent.entries[position].name])
    (different : foldCase newName ≠ foldCase parent.entries[position].name)
    (valid : ValidName newName) (unused : foldCase newName ∉ keys parent.entries) :
    let program : Fallible Unit := writeDirEntries .new directory
      (parent.entries.modify position (fun entry => { entry with name := newName }))
    Mutates program volume (fun after =>
      after.WellFormed ∧ Renamed volume after path newName) := by
  have readable := formed.tree.toReadable.object found
  have names (entry : DirectoryEntry) (kept : entry ∈ parent.entries.modify position
      (fun entry => { entry with name := newName })) : ValidName entry.name := by
    rcases mem_modify_name kept with member | ⟨former, _, renamed⟩
    · exact (readable.valid member).name
    · rw [renamed]
      exact valid
  have linked := formed.tree.child_entry found inside
  have absent := child_unused found unused
  rcases Option.ne_none_iff_exists'.mp (formed.tree.named.target linked).1 with ⟨object, reached⟩
  rcases writeDirEntries_cases formed.sound found names with failed | ⟨after, ran, sound, stored⟩
  · exact .inl failed
  · rcases formed.tree.relabel found isDir inside valid unused with ⟨tree, children⟩
    refine .inr ⟨after, ran, ⟨sound, by rw [stored]; exact tree⟩, absolute, parentKey, _,
      key, .inr ⟨different, ?_, ?_, ?_⟩⟩
    · rw [Tree.view_concat walked, linked, Option.bind_some, reached]
      exact Option.some_ne_none _
    · rw [Tree.view_concat walked, absent]
      rfl
    · rw [stored]
      exact formed.tree.view_relabel found isDir walked linked children

/-- Renaming moves one path and everything below it. -/
theorem rename_cases (newName : Name) :
    Mutates (rename .new path newName) volume (fun after =>
        after.WellFormed ∧ Renamed volume after path newName) := by
  unfold rename
  refine .settle fun _ checked => .settle fun parts split => ?_
  rcases parts with ⟨parentPath, oldName⟩
  have valid := validateName_ok_iff.mp checked
  have absolute := absolute_of_split split
  have key := pathKey_of_split split
  dsimp only
  by_cases same : namesEqual oldName newName = true
  · rw [if_pos same]
    exact .inr ⟨volume, .pure (), formed, absolute, pathKey parentPath,
      foldCase oldName, key, .inl ⟨(namesEqual_iff.mp same).symm, rfl⟩⟩
  · rw [if_neg same]
    refine inParent_cases formed ?_
    intro directory parent walked found isDir
    by_cases taken : foldCase newName ∈ keys parent.entries
    · rw [if_pos (any_namesEqual.mpr taken)]
      exact .inl (.throw _)
    · rw [if_neg (fun some => taken (any_namesEqual.mp some))]
      cases located : parent.entries.findIdx? (fun entry => namesEqual entry.name oldName) with
      | none => exact .inl (.throw _)
      | some position =>
        rcases findIdx?_namesEqual located with ⟨inside, old⟩
        rw [<- old] at key
        refine relabelEntry_cases formed walked found isDir inside absolute key ?_ valid taken
        intro new
        exact same (namesEqual_iff.mpr ((new.trans old).symm))

end CoolOs.CoolFs
