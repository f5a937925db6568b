import CoolOs.CoolFs.Refinement
import CoolOs.DiskImage.BuilderLookup

namespace CoolOs.DiskImage

open BlockStore Naming CoolFs CoolFs.Volume Function List Option

/-!
# The builder's calls

A call either panics or changes the path map of the image: it enters a new path
or replaces the bytes of a file.  The one exception is a file that is created
over a directory, which the builder does not refuse.
-/

variable {volume : Volume} {map : PathMap} {uid gid : UInt32} {mode : UInt16}

variable {indices : List Nat}

theorem allocInodeFrom_ends (fresh : Inode) (small : ∀ index ∈ indices, index < 512) :
    Ends (allocInodeFrom fresh indices) volume
      ((indices.find? (fun index => (volume.inode index).kind == kindFree)).map
        fun found => (found, volume.setInode found fresh.stored)) := by
  induction indices with
  | nil => exact Stops.failure
  | cons index rest ih =>
    have inside := small index mem_cons_self
    refine .readInode_bind inside (fun inode raw => ?_)
    rw [find?_cons, map_some, raw.kind]
    cases free : (volume.inode index).kind == kindFree with
    | true =>
      rw [if_pos (congrArg some (beq_iff_eq.mp free))]
      exact .bind (writeInode_makes inside fresh volume) (Makes.pure index)
    | false =>
      rw [if_neg (fun same => beq_eq_false_iff_ne.mp free (some.inj same))]
      exact ih fun other listed => small other (mem_cons_of_mem _ listed)

theorem allocInode_ends {volume : Volume} (kind : UInt8) (uid gid : UInt32) (mode : UInt16) :
    Ends (allocInodeWithMetadata kind uid gid mode) volume
      (volume.firstFree.map fun index => (index, volume.create index kind uid gid mode)) :=
  allocInodeFrom_ends _ fun _ listed => (mem_range'_1.mp listed).2

/-- A path that holds nothing, its directory, its name and an inode for it. -/
structure Opening (volume : Volume) (key : List Name) (directory index : Nat) (name : Name) :
    Prop where
  walked : Exists fun parentKey => key = parentKey ++ [foldCase name] ∧
    walk (child volume.object) 0 parentKey = some directory
  missing : walk (child volume.object) 0 key = none
  valid : ValidName name
  vacant : (volume.inode index).kind = kindFree
  small : index < 512

/-- A new object is in place; its entry is added to the parent directory. -/
theorem appendDirEntry_settles {staged : Volume} (formed : volume.WellFormed) {key : List Name}
    {directory index : Nat} {name : Name} {new : Object}
    (opening : Opening volume key directory index name) (sound : staged.Sound)
    (objects : staged.object = Function.update volume.object index (some new))
    (kind : new.kind = kindFile ∨ new.kind = kindDir) (empty : new.kind = kindDir -> new.bytes = [])
    :
    Settles (appendDirEntry directory index name) staged fun _ after => after.WellFormed ∧
      view after.object = Function.update (view volume.object) key (some new.content) := by
  rcases opening with ⟨⟨parentKey, rfl, walked⟩, missing, valid, vacant, small⟩
  have free : volume.object index = none := if_pos vacant
  rcases formed.tree.walk_object walked with ⟨parent, found, _⟩
  have apart : directory ≠ index := by
    rintro rfl
    rw [free] at found
    cases found
  have kept : staged.object directory = some parent := by rw [objects, update_of_ne apart, found]
  unfold appendDirEntry
  rw [if_pos (validateName_iff.mpr valid)]
  by_cases isDir : parent.kind = kindDir
  · have readable := formed.tree.toReadable.object found
    have absent : child volume.object directory (foldCase name) = none := by
      rw [walk_concat, walked] at missing
      exact missing
    have unused : foldCase name ∉ keys parent.entries := by
      rw [child, listing_of_some found] at absent
      exact find_eq_none.mp absent
    have new : parent.entries.any (fun entry => namesEqual entry.name name) = false := by
      rw [Bool.eq_false_iff]
      exact fun taken => unused (any_namesEqual.mp taken)
    have names (entry : DirectoryEntry)
        (listed : entry ∈ parent.entries ++ [{ inode := index, name := name }]) :
        ValidName entry.name := by
      rcases mem_append.mp listed with early | last
      · exact (readable.valid early).name
      · rw [mem_singleton.mp last]
        exact valid
    refine .later (readDirEntries_makes sound kept readable isDir) ?_
    rw [new, if_neg Bool.false_ne_true]
    refine (writeDirEntries_settles sound kept names).mono ?_
    rintro _ after ⟨still, stored⟩
    rw [objects] at stored
    rcases formed.tree.enter found isDir free (by omega) kind empty valid unused with
      ⟨tree, children⟩
    refine ⟨⟨still, stored ▸ tree⟩, ?_⟩
    rw [stored]
    exact formed.tree.view_enter found isDir free walked absent children
  · exact .inl (.first (readDirEntries_stops sound kept isDir))

/-- The calls a host makes to fill an image. -/
inductive BuildCall where
  | createDir (path : List UInt8)
  | createFile (path data : List UInt8)
  deriving DecidableEq

namespace BuildCall

def program : BuildCall -> Builder Unit
  | .createDir path => DiskImage.createDir path
  | .createFile path data => DiskImage.createFile path data

def path : BuildCall -> List UInt8
  | .createDir path => path
  | .createFile path _ => path

/-- The owner and the mode of the path, if the call creates it. -/
def metadata : BuildCall -> Option (UInt32 × UInt32 × UInt16)
  | .createDir path => defaultMetadataForPath path true
  | .createFile path _ => defaultMetadataForPath path false

/-- What the call makes of a path that holds nothing. -/
def fresh (uid gid : UInt32) (mode : UInt16) : BuildCall -> Content
  | .createDir _ => .directory uid gid mode
  | .createFile _ data => .file data uid gid mode

/-- What the call makes of a path that holds something. -/
def revised (content : Content) : BuildCall -> Content
  | .createDir _ => content
  | .createFile _ data => content.withBytes data

def effect (map : PathMap) (call : BuildCall) : PathMap :=
  Function.update map (buildKey call.path) (match map (buildKey call.path) with
    | some content => some (call.revised content)
    | none => call.metadata.map (fun (uid, gid, mode) => call.fresh uid gid mode))

variable {call : BuildCall}

theorem effect_of_some {content : Content} (held : map (buildKey call.path) = some content) :
    call.effect map = Function.update map (buildKey call.path) (some (call.revised content)) := by
  rw [effect, held]

theorem effect_of_none (held : map (buildKey call.path) = none)
    (given : call.metadata = some (uid, gid, mode)) :
    call.effect map =
      Function.update map (buildKey call.path) (some (call.fresh uid gid mode)) := by
  rw [effect, held, given]
  rfl

/-- The call does not create a file over a directory. -/
def Fits (map : PathMap) : BuildCall -> Prop
  | .createDir _ => True
  | .createFile path _ => forall content, map (buildKey path) = some content ->
      content.kind = kindFile

/-- What a call that does not panic guarantees. -/
structure Done (call : BuildCall) (volume after : Volume) : Prop where
  formed : after.WellFormed
  accepted : call.metadata ≠ none
  effect : view after.object = call.effect (view volume.object)

end BuildCall

theorem normalMode_of_default {path : List UInt8} {isDir : Bool}
    (found : defaultMetadataForPath path isDir = some (uid, gid, mode)) (kind : UInt8) :
    normalMode kind (mode &&& 0o777) = mode := by
  have listed : mode ∈ [0o700, 0o644, 0o777, 0o755] := by
    rcases bind_eq_some_iff.mp found with ⟨normalized, _, rest⟩
    dsimp only at rest
    split_ifs at rest <;> cases rest <;> decide
  simp only [mem_cons, not_mem_nil, or_false] at listed
  rcases listed with rfl | rfl | rfl | rfl <;>
    exact if_neg (fun both => absurd both.2 (by decide))

section

variable {path : List UInt8}

/-- The common part of the two calls on a path that holds nothing: find the parent
directory and take an inode. -/
theorem enterPath_settles (formed : volume.WellFormed) {kind : UInt8}
    {fill : Nat -> Nat -> Name -> Builder Unit} {required : Unit -> Volume -> Prop}
    (missing : walk (child volume.object) 0 (buildKey path) = none)
    (filled : ∀ directory index name, Opening volume (buildKey path) directory index name ->
      Settles (fill directory index name) (volume.create index kind uid gid mode) required)
    :
    Settles (do
      let (parent, name) <- settle (splitParentAndName path)
      match (<- resolvePath parent) with
      | none => failure
      | some parentInode =>
        let inode <- allocInodeWithMetadata kind uid gid mode
        fill parentInode inode name) volume required := by
  cases split : splitParentAndName path with
  | none => exact .inl (.first .settle)
  | some pieces =>
    rcases pieces with ⟨parent, name⟩
    rcases splitParentAndName_some split with ⟨valid, normalized, accepted, whole⟩
    have key : buildKey path = buildKey parent ++ [foldCase name] := by
      rw [buildKey, whole, map_append, buildKey, (normalizeAbsPath_some accepted).2.2.1]
      rfl
    have resolved := resolvePath_makes formed accepted
    refine .later (.settle _) (.later resolved ?_)
    cases walked : walk (child volume.object) 0 (buildKey parent) with
    | none => exact .inl .failure
    | some directory =>
      have taken := @allocInode_ends volume kind uid gid mode
      cases first : volume.firstFree with
      | none =>
        rw [first] at taken
        exact .inl (.first taken)
      | some index =>
        rw [first] at taken
        rcases firstFree_some first with ⟨_, small, vacant⟩
        exact .later taken (filled directory index name
          ⟨⟨buildKey parent, key, walked⟩, missing, valid, vacant, small⟩)

/-- The new object in its inode. -/
theorem created_object {uid gid : UInt32} {mode : UInt16} {isDir : Bool} {kind : UInt8}
    (given : defaultMetadataForPath path isDir = some (uid, gid, mode)) (used : kind ≠ kindFree)
    (index : Nat) : (volume.create index kind uid gid mode).object =
      Function.update volume.object index (some ⟨kind, uid, gid, mode, []⟩) := by
  rw [@create_object volume index kind uid gid mode used, normalMode_of_default given kind]

theorem createDir_settles (formed : volume.WellFormed) :
    Settles (createDir path) volume fun _ after =>
      (BuildCall.createDir path).Done volume after := by
  unfold createDir createDirWithMetadata
  cases given : defaultMetadataForPath path true with
  | none => exact .inl (.first .settle)
  | some owner =>
    rcases owner with ⟨uid, gid, mode⟩
    have stored : (BuildCall.createDir path).metadata = some (uid, gid, mode) := given
    rcases bind_eq_some_iff.mp given with ⟨normalized, accepted, _⟩
    refine .later (.settle _) (.later (resolvePath_makes formed accepted) ?_)
    cases walked : walk (child volume.object) 0 (buildKey path) with
    | some index =>
      rcases formed.tree.walk_object walked with ⟨object, found, held⟩
      refine .inr ⟨(), volume, Makes.pure (), formed, by simp [stored], ?_⟩
      rw [BuildCall.effect_of_some held]
      exact (update_eq_self_iff.mpr held.symm).symm
    | none =>
      refine enterPath_settles formed walked fun directory index name opening => ?_
      refine (appendDirEntry_settles formed opening
        (create_sound formed.sound opening.small opening.vacant (by decide))
        (created_object given (by decide) index) (.inr rfl) (fun _ => rfl)).mono ?_
      rintro _ after ⟨still, viewed⟩
      refine ⟨still, by simp [stored], ?_⟩
      rw [BuildCall.effect_of_none (by rw [view, BuildCall.path, walked]; rfl) stored]
      exact viewed

theorem createFile_settles (formed : volume.WellFormed) {data : List UInt8}
    (fits : (BuildCall.createFile path data).Fits (view volume.object)) :
    Settles (createFile path data) volume fun _ after =>
      (BuildCall.createFile path data).Done volume after := by
  unfold createFile createFileWithMetadata
  cases given : defaultMetadataForPath path false with
  | none => exact .inl (.first .settle)
  | some owner =>
    rcases owner with ⟨uid, gid, mode⟩
    have stored : (BuildCall.createFile path data).metadata = some (uid, gid, mode) := given
    rcases bind_eq_some_iff.mp given with ⟨normalized, accepted, _⟩
    refine .later (.settle _) (.later (resolvePath_makes formed accepted) ?_)
    cases walked : walk (child volume.object) 0 (buildKey path) with
    | some index =>
      rcases formed.tree.walk_object walked with ⟨object, found, held⟩
      have file : object.kind = kindFile := by
        rw [<- content_kind (formed.tree.kinds found)]
        exact fits _ held
      have notDir : object.kind ≠ kindDir := by
        rw [file]
        decide
      refine (rewriteBytes_settles formed.sound found data).mono ?_
      rintro _ after ⟨sound, objects⟩
      rcases @Tree.revise _ _ ({ object with bytes := data } : Object) formed.tree _ found rfl
        (fun isDir => absurd isDir notDir) with ⟨tree, children⟩
      refine ⟨⟨sound, objects ▸ tree⟩, by simp [stored], ?_⟩
      rw [BuildCall.effect_of_some held, objects,
        formed.tree.view_revise walked children, content_withBytes]
      rfl
    | none =>
      have filled (directory index : Nat) (name : Name)
          (opening : Opening volume (buildKey path) directory index name) :
          Settles (do
            writeInodeBytes index data
            appendDirEntry directory index name) (volume.create index kindFile uid gid mode)
            fun _ after => (BuildCall.createFile path data).Done volume after := by
        have created := @created_object volume path uid gid mode _ kindFile given (by decide) index
        have own := congrFun created index
        rw [update_self] at own
        refine (rewriteBytes_settles (create_sound formed.sound opening.small opening.vacant
          (by decide)) own data).bind ?_
        rintro _ staged ⟨sound, objects⟩
        rw [created, update_idem] at objects
        refine (appendDirEntry_settles formed opening sound objects (.inl rfl)
          (fun isDir => absurd isDir (show kindFile ≠ kindDir by decide))).mono ?_
        rintro _ after ⟨still, viewed⟩
        refine ⟨still, by simp [stored], ?_⟩
        rw [BuildCall.effect_of_none (by rw [view, BuildCall.path, walked]; rfl) stored]
        exact viewed
      have entered := enterPath_settles formed walked filled
      exact entered

/-- Every call that spares the directories panics or does its effect. -/
theorem BuildCall.settles (formed : volume.WellFormed) (call : BuildCall)
    (fits : call.Fits (view volume.object)) :
    Settles call.program volume fun _ after => call.Done volume after := by
  cases call with
  | createDir path => exact createDir_settles formed
  | createFile path data => exact createFile_settles formed fits

end

/-!
## Building an image

An image is built by a list of calls on a fresh builder.  As long as no call
creates a file over a directory, the image is a well-formed volume, and every
file in it holds what the last call for its path wrote.
-/

/-- The fields of the superblock, as `CoolFsBuilder::new` writes them. -/
def header : List UInt8 :=
  ascii "COOLFS1" ++ [0] ++ toLeBytes cfVersion ++ toLeBytes cfBlockSize ++
    toLeBytes cfTotalBlocks ++ toLeBytes cfInodeCount ++ toLeBytes cfInodeSize ++
    toLeBytes cfInodeTableStart ++ toLeBytes cfInodeTableBlocks ++ toLeBytes cfBitmapStart ++
    toLeBytes cfBitmapBlocks ++ toLeBytes cfDataStart ++ toLeBytes cfRootInode

/-- The first block of every image. -/
def head : Block := blockOf 4096 (splice (fun _ => 0) 0 header) 0

variable {call : BuildCall} {key : List Name} {calls : List BuildCall}

/-- The kernel reads its own layout from it. -/
theorem parse_head : Superblock.parse head = some .new := by
  decide

theorem reserve_makes {blocks : List Nat} (inside : ∀ block ∈ blocks, block < 1536)
    (volume : Volume) : Makes (new.reserve blocks) volume () (volume.reserve blocks) := by
  induction blocks generalizing volume with
  | nil =>
    rw [reserve_nil]
    exact .pure ()
  | cons block rest ih =>
    refine .bind (setBlockUsed_makes (inside block mem_cons_self) true volume) ?_
    rw [<- setUsed_reserve]
    exact ih (fun other listed => inside other (mem_cons_of_mem _ listed)) _

/-- A fresh builder holds a formatted volume. -/
theorem new_run : ∃ image, new (fun _ => 0) = some ((), image) ∧
    ∃ data, seen image = (head, formatted data) := by
  have next (place value : Nat) (front : List UInt8) (adjacent : place = 0 + front.length)
      (low : front.length + 4 <= 256) :
      cfWriteU32 place value (splice (fun _ => 0) 0 front) =
        some ((), splice (fun _ => 0) 0 (front ++ toLeBytes value)) :=
    writeSlice_next _ _ adjacent (by rw [length_toLeBytes]; omega)
  have blank : ofBytes (splice (fun _ => 0) 0 header) =
      cleared (ofBytes (splice (fun _ => 0) 0 header)).data := by
    refine ofBytes_blank (fun address low _ => splice_after ?_)
    exact Nat.le_trans (by decide) low
  have rest : Makes (new.reserve (range cfDataStart) >>= fun _ =>
      writeInode cfRootInode (.new kindDir)) (ofBytes (splice (fun _ => 0) 0 header)) ()
      (formatted (ofBytes (splice (fun _ => 0) 0 header)).data) := by
    rw [blank]
    refine .bind (reserve_makes (fun block listed => ?_) _) ?_
    · exact Nat.lt_trans (mem_range.mp listed) (by decide)
    · exact writeInode_makes (by decide) (.new kindDir) _
  rcases rest head _ rfl with ⟨image, ran, observed⟩
  refine ⟨image, ?_, _, observed⟩
  refine (run_bind_some (writeSlice_run _ (by decide))).trans ?_
  iterate 11 refine (run_bind_some (next _ _ _ (by decide) (by decide))).trans ?_
  exact ran

/-- The bytes of the last call that creates a file at a path. -/
def lastWritten (calls : List BuildCall) (key : List Name) : Option (List UInt8) :=
  calls.reverse.findSome? (fun call =>
    match call with
    | .createDir _ => none
    | .createFile path data => if buildKey path = key then some data else none)

/-- The owner and the mode the first call for a path stored. -/
def storedMetadata (calls : List BuildCall) (key : List Name) : Option (UInt32 × UInt32 × UInt16) :=
  (calls.find? (fun call => buildKey call.path == key)).bind BuildCall.metadata

/-- The path map agrees with the calls made so far. -/
structure Records (calls : List BuildCall) (map : PathMap) : Prop where
  root : Exists fun content => map [] = some content ∧ content.kind = kindDir
  made : ∀ call ∈ calls, map (buildKey call.path) ≠ none
  owner : forall key content, key ≠ [] -> map key = some content -> storedMetadata calls key =
      some (content.attributes.uid, content.attributes.gid, content.attributes.mode)
  bytes : forall key data, lastWritten calls key = some data ->
    Exists fun content => map key = some content ∧ content.bytes = some data

theorem lastWritten_createDir (calls : List BuildCall) (path : List UInt8) (key : List Name) :
    lastWritten (calls ++ [.createDir path]) key = lastWritten calls key := by
  unfold lastWritten
  rw [reverse_append, reverse_singleton, singleton_append, findSome?_cons]

theorem lastWritten_createFile (calls : List BuildCall) (path data : List UInt8) :
    lastWritten (calls ++ [.createFile path data]) (buildKey path) = some data := by
  unfold lastWritten
  rw [reverse_append, reverse_singleton, singleton_append, findSome?_cons]
  simp only [if_true]

theorem lastWritten_other (calls : List BuildCall) (elsewhere : key ≠ buildKey call.path) :
    lastWritten (calls ++ [call]) key = lastWritten calls key := by
  cases call with
  | createDir path => exact lastWritten_createDir calls path key
  | createFile path data =>
    have different : ¬ buildKey path = key := fun same => elsewhere same.symm
    unfold lastWritten
    rw [reverse_append, reverse_singleton, singleton_append, findSome?_cons]
    simp only [if_neg different]

/-- Metadata that is stored stays. -/
theorem storedMetadata_kept {owner : UInt32 × UInt32 × UInt16}
    (stored : storedMetadata calls key = some owner) (call : BuildCall) :
    storedMetadata (calls ++ [call]) key = some owner := by
  unfold storedMetadata at stored ⊢
  rcases bind_eq_some_iff.mp stored with ⟨first, found, given⟩
  rw [find?_append, found, some_or]
  exact given

/-- The first call for a path stores its metadata. -/
theorem storedMetadata_first
    (absent : ∀ earlier ∈ calls, buildKey earlier.path ≠ buildKey call.path)
    : storedMetadata (calls ++ [call]) (buildKey call.path) = call.metadata := by
  have none : calls.find? (fun earlier => buildKey earlier.path == buildKey call.path) = none := by
    refine find?_eq_none.mpr (fun earlier listed same => ?_)
    exact absent earlier listed (beq_iff_eq.mp same)
  unfold storedMetadata
  rw [find?_append, none, none_or, find?_singleton, if_pos (beq_self_eq_true _)]
  rfl

theorem revised_kind (call : BuildCall) (content : Content) :
    (call.revised content).kind = content.kind := by
  cases call with
  | createDir path => rfl
  | createFile path data =>
    cases content with
    | directory uid gid mode => rfl
    | file bytes uid gid mode => rfl

theorem revised_attributes (call : BuildCall) (content : Content) :
    (call.revised content).attributes = content.attributes := by
  cases call with
  | createDir path => rfl
  | createFile path data =>
    cases content with
    | directory uid gid mode => rfl
    | file bytes uid gid mode => rfl

section

variable {calls : List BuildCall} {call : BuildCall} (records : Records calls map)
include records

/-- A call that leaves a content at its path. -/
theorem Records.put {now : Content}
    (root : [] = buildKey call.path -> now.kind = kindDir)
    (owner : buildKey call.path ≠ [] -> storedMetadata (calls ++ [call]) (buildKey call.path) =
      some (now.attributes.uid, now.attributes.gid, now.attributes.mode))
    (bytes : ∀ data, lastWritten (calls ++ [call]) (buildKey call.path) = some data ->
      now.bytes = some data) :
    Records (calls ++ [call]) (Function.update map (buildKey call.path) (some now)) where
  root := by
    by_cases here : [] = buildKey call.path
    · rw [here, update_self]
      exact ⟨now, rfl, root here⟩
    · rw [update_of_ne here]
      exact records.root
  made := by
    intro other listed
    by_cases here : buildKey other.path = buildKey call.path
    · rw [here, update_self]
      exact some_ne_none _
    · rw [update_of_ne here]
      rcases mem_append.mp listed with early | last
      · exact records.made other early
      · exact absurd (by rw [mem_singleton.mp last]) here
  owner := by
    intro key content deep present
    by_cases here : key = buildKey call.path
    · subst here
      rw [update_self, some.injEq] at present
      exact present ▸ owner deep
    · rw [update_of_ne here] at present
      exact storedMetadata_kept (records.owner key content deep present) call
  bytes := by
    intro key data written
    by_cases here : key = buildKey call.path
    · subst here
      exact ⟨now, update_self _ _ _, bytes data written⟩
    · rw [update_of_ne here]
      rw [lastWritten_other calls here] at written
      exact records.bytes key data written

/-- A call on a path that holds something. -/
theorem Records.revise (fits : call.Fits map) {content : Content}
    (held : map (buildKey call.path) = some content) : Records (calls ++ [call])
      (Function.update map (buildKey call.path) (some (call.revised content))) := by
  refine records.put (fun here => ?_) (fun deep => ?_) (fun data written => ?_)
  · rcases records.root with ⟨top, present, isDir⟩
    rw [<- here, present, some.injEq] at held
    exact (revised_kind call content).trans (held ▸ isDir)
  · rw [revised_attributes]
    exact storedMetadata_kept (records.owner _ content deep held) call
  · cases call with
    | createDir path =>
      rw [lastWritten_createDir] at written
      rcases records.bytes _ data written with ⟨old, present, same⟩
      have equal : old = content := some.inj (present.symm.trans held)
      rw [<- equal]
      exact same
    | createFile path bytes =>
      have equal := (lastWritten_createFile calls path bytes).symm.trans written
      cases content with
      | directory uid gid mode =>
        exact absurd (fits _ held) (by decide : ¬ kindDir = kindFile)
      | file old uid gid mode => exact equal

/-- A call on a path that holds nothing. -/
theorem Records.enter {uid gid : UInt32} {mode : UInt16}
    (given : call.metadata = some (uid, gid, mode)) (held : map (buildKey call.path) = none) :
    Records (calls ++ [call])
      (Function.update map (buildKey call.path) (some (call.fresh uid gid mode))) := by
  refine records.put (fun here => ?_) (fun _ => ?_) (fun data written => ?_)
  · rcases records.root with ⟨top, present, _⟩
    rw [<- here, present] at held
    cases held
  · rw [storedMetadata_first (fun earlier listed same =>
      records.made earlier listed (same ▸ held)), given]
    cases call with
    | createDir path => rfl
    | createFile path data => rfl
  · cases call with
    | createDir path =>
      rw [lastWritten_createDir] at written
      rcases records.bytes _ data written with ⟨old, present, _⟩
      rw [held] at present
      cases present
    | createFile path bytes => exact (lastWritten_createFile calls path bytes).symm.trans written

theorem Records.step (fits : call.Fits map)
    (accepted : call.metadata ≠ none) : Records (calls ++ [call]) (call.effect map) := by
  cases held : map (buildKey call.path) with
  | some content =>
    rw [BuildCall.effect_of_some held]
    exact records.revise fits held
  | none =>
    rcases ne_none_iff_exists'.mp accepted with ⟨⟨uid, gid, mode⟩, given⟩
    rw [BuildCall.effect_of_none held given]
    exact records.enter given held

end

/-- Whether a path leads to a directory of the image. -/
def namesDirectory (path : List UInt8) : Builder Bool := do
  match (<- resolvePath path) with
  | none => return false
  | some inodeIdx =>
    match (<- readInode inodeIdx) with
    | none => return false
    | some inode => return inode.kind == kindDir

/-- Whether a call creates a file over a directory of the image. -/
def overwritesDirectory (image : Bytes) : BuildCall -> Bool
  | .createDir _ => false
  | .createFile path _ => ((namesDirectory path image).map Prod.fst).getD false

/-- The image after a list of calls; `none` if one of them panics. -/
def buildFrom (image : Bytes) : List BuildCall -> Option Bytes
  | [] => some image
  | call :: rest => (call.program image).bind (fun reached => buildFrom reached.2 rest)

def build (calls : List BuildCall) : Option Bytes :=
  (new (fun _ => 0)).bind (fun fresh => buildFrom fresh.2 calls)

/-- No call of the list creates a file over a directory. -/
def sparesDirectoriesFrom (image : Bytes) : List BuildCall -> Bool
  | [] => true
  | call :: rest => !overwritesDirectory image call &&
      ((call.program image).map (fun reached => sparesDirectoriesFrom reached.2 rest)).getD true

def sparesDirectories (calls : List BuildCall) : Bool :=
  ((new (fun _ => 0)).map (fun fresh => sparesDirectoriesFrom fresh.2 calls)).getD true

/-- What holds of the image while it is built. -/
structure Built (calls : List BuildCall) (image : Bytes) : Prop where
  head : blockOf 4096 image 0 = head
  formed : (ofBytes image).WellFormed
  records : Records calls (view (ofBytes image).object)

variable {call : BuildCall} {image : Bytes}

theorem namesDirectory_makes (formed : volume.WellFormed) {path normalized : List UInt8}
    (accepted : normalizeAbsPath path = some normalized) {content : Content}
    (held : view volume.object (buildKey path) = some content) :
    Makes (namesDirectory path) volume (content.kind == kindDir) volume := by
  have resolved := resolvePath_makes formed accepted
  rcases bind_eq_some_iff.mp held with ⟨index, walked, present⟩
  rcases map_eq_some_iff.mp present with ⟨object, found, rfl⟩
  rw [walked] at resolved
  refine .bind resolved ?_
  refine .readInode_bind (formed.sound.object_small found) (fun inode raw => ?_)
  have kind : inode.kind = object.content.kind := by
    rw [content_kind (formed.tree.kinds found), raw.kind]
    rcases inode_of_object found with ⟨_, rfl⟩
    rfl
  rw [<- kind]
  exact .pure _

variable {calls : List BuildCall}

theorem fits_of_spares (built : Built calls image) (spares : overwritesDirectory image call = false)
    (accepted : normalizeAbsPath call.path ≠ none) : call.Fits (view (ofBytes image).object) := by
  cases call with
  | createDir path => trivial
  | createFile path data =>
    intro content held
    rcases ne_none_iff_exists'.mp accepted with ⟨normalized, normal⟩
    rcases namesDirectory_makes built.formed normal held _ image rfl with ⟨after, ran, _⟩
    have answer : overwritesDirectory image (.createFile path data) = (content.kind == kindDir) :=
      congrArg (fun outcome => (outcome.map Prod.fst).getD false) ran
    rw [answer] at spares
    cases content with
    | directory uid gid mode => cases spares
    | file bytes uid gid mode => rfl

theorem program_stops (refused : normalizeAbsPath call.path = none) (volume : Volume) :
    Stops call.program volume := by
  have unknown (path : List UInt8) (isDir : Bool) (refused : normalizeAbsPath path = none) :
      defaultMetadataForPath path isDir = none := by
    unfold defaultMetadataForPath
    rw [refused]
    rfl
  cases call with
  | createDir path =>
    change Stops (createDir path) volume
    unfold createDir
    rw [unknown path true refused]
    exact .first .settle
  | createFile path data =>
    change Stops (createFile path data) volume
    unfold createFile
    rw [unknown path false refused]
    exact .first .settle

/-- One call that does not panic keeps the image as it should be. -/
theorem Built.step {image after : Bytes} (built : Built calls image)
    {call : BuildCall} (spares : overwritesDirectory image call = false)
    (ran : call.program image = some ((), after)) : Built (calls ++ [call]) after := by
  have accepted : normalizeAbsPath call.path ≠ none := by
    intro refused
    have stopped := program_stops refused (ofBytes image) _ image rfl
    rw [ran] at stopped
    cases stopped
  have fits := fits_of_spares built spares accepted
  rcases call.settles built.formed fits with stops | ⟨_, volume, makes, done⟩
  · have stopped := stops _ image rfl
    rw [ran] at stopped
    cases stopped
  · rcases makes _ image rfl with ⟨reached, same, observed⟩
    rw [ran, some.injEq, Prod.mk.injEq] at same
    rw [<- same.2, seen, Prod.mk.injEq] at observed
    rcases observed with ⟨first, rest⟩
    refine ⟨first.trans built.head, ?_, ?_⟩
    · rw [rest]
      exact done.formed
    · rw [rest, done.effect]
      exact built.records.step fits done.accepted

theorem Built.run {rest : List BuildCall} {final : Bytes} (built : Built calls image)
    (spares : sparesDirectoriesFrom image rest = true) (outcome : buildFrom image rest = some final)
    : Built (calls ++ rest) final := by
  induction rest generalizing calls image with
  | nil =>
    cases outcome
    rw [append_nil]
    exact built
  | cons call rest ih =>
    rcases bind_eq_some_iff.mp outcome with ⟨⟨_, after⟩, ran, outcome⟩
    rw [sparesDirectoriesFrom, ran, Bool.and_eq_true, Bool.not_eq_true'] at spares
    rw [append_cons]
    exact ih (built.step spares.1 ran) spares.2 outcome

theorem formatted_records (data : Nat -> Block) : Records [] (view (formatted data).object) where
  root := by
    refine ⟨.directory rootUid rootGid defaultDirMode, ?_, rfl⟩
    rw [formatted_object, view]
    rfl
  made := fun _ listed => (nomatch listed)
  owner := by
    intro key content deep present
    cases key with
    | nil => exact absurd rfl deep
    | cons name rest =>
      have nothing : child (formatted data).object 0 name = none := by
        rw [formatted_object, child, listing_update_self]
        rfl
      rw [view, walk, nothing] at present
      cases present
  bytes := fun _ _ written => (nomatch written)

theorem build_built (spares : sparesDirectories calls = true) (outcome : build calls = some image) :
    Built calls image := by
  rcases new_run with ⟨fresh, ran, data, observed⟩
  rw [sparesDirectories, ran] at spares
  rw [build, ran] at outcome
  rw [seen, Prod.mk.injEq] at observed
  rcases observed with ⟨first, rest⟩
  have start : Built [] fresh := by
    refine ⟨first, ?_, ?_⟩
    · rw [rest]
      exact formatted_wellFormed data
    · rw [rest]
      exact formatted_records data
  exact start.run spares outcome

end CoolOs.DiskImage
