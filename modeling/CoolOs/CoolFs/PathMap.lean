import CoolOs.CoolFs.Mutations

namespace CoolOs.CoolFs

open BlockStore Naming Image Volume Option
open Function (update)

/-!
# The abstract file system

What CoolFS is for: a map from absolute paths, up to letter case, to files and
directories.  Each mutation has a condition under which it makes sense and an
effect on that map.  A mutation of the volume either fails, or its condition
holds and the path map of the volume changes by its effect.
-/

abbrev PathMap := List Name -> Option Content

namespace Content

def kind : Content -> UInt8
  | .directory _ _ _ => kindDir
  | .file _ _ _ _ => kindFile

def withMode (mode : UInt16) : Content -> Content
  | .directory uid gid _ => .directory uid gid mode
  | .file bytes uid gid _ => .file bytes uid gid mode

def withOwner (uid gid : UInt32) : Content -> Content
  | .directory _ _ mode => .directory uid gid mode
  | .file bytes _ _ mode => .file bytes uid gid mode

def withBytes (data : List UInt8) : Content -> Content
  | .directory uid gid mode => .directory uid gid mode
  | .file _ uid gid mode => .file data uid gid mode

end Content

/-- The mutating calls that run as one step under the image lock. -/
inductive Mutation where
  | createFile (path : List UInt8) (uid gid : UInt32) (mode : UInt16)
  | createDir (path : List UInt8) (uid gid : UInt32) (mode : UInt16)
  | writeFile (path data : List UInt8)
  | deleteFile (path : List UInt8)
  | rename (path : List UInt8) (newName : Name)
  | chmod (path : List UInt8) (mode : UInt16)
  | chown (path : List UInt8) (uid gid : UInt32)

namespace Mutation

/-- The code behind a call. -/
def program (sb : Superblock) : Mutation -> Fallible Unit
  | .createFile path uid gid mode => createFileWithMetadata sb path uid gid mode
  | .createDir path uid gid mode => createDirWithMetadata sb path uid gid mode
  | .writeFile path data => CoolFs.writeFile sb path data
  | .deleteFile path => CoolFs.deleteFile sb path
  | .rename path newName => CoolFs.rename sb path newName
  | .chmod path mode => CoolFs.chmod sb path mode
  | .chown path uid gid => CoolFs.chown sb path uid gid

def path : Mutation -> List UInt8
  | .createFile path _ _ _ => path
  | .createDir path _ _ _ => path
  | .writeFile path _ => path
  | .deleteFile path => path
  | .rename path _ => path
  | .chmod path _ => path
  | .chown path _ _ => path

/-- When a call makes sense on a path map.  Only an empty directory can be
deleted, and only a file written. -/
def Enabled (map : PathMap) : Mutation -> Prop
  | .createFile path _ _ _ => map (pathKey path) = none
  | .createDir path _ _ _ => map (pathKey path) = none
  | .writeFile path _ => Exists fun content =>
    map (pathKey path) = some content ∧ content.kind = kindFile
  | .deleteFile path => map (pathKey path) ≠ none ∧
      forall name, map (pathKey path ++ [name]) = none
  | .rename path newName => ∃ parentKey oldKey,
    pathKey path = parentKey ++ [oldKey] ∧ (foldCase newName = oldKey ∨
      (map (parentKey ++ [oldKey]) ≠ none ∧ map (parentKey ++ [foldCase newName]) = none))
  | .chmod path _ => map (pathKey path) ≠ none
  | .chown path _ _ => map (pathKey path) ≠ none

/-- What a call does to the path map.  A mode of zero stands for the default of
the kind; a rename takes everything below the path along. -/
def effect (map : PathMap) : Mutation -> PathMap
  | .createFile path uid gid mode =>
    update map (pathKey path)
      (some (.file [] uid gid (normalMode kindFile (mode &&& 0o777))))
  | .createDir path uid gid mode =>
    update map (pathKey path)
      (some (.directory uid gid (normalMode kindDir (mode &&& 0o777))))
  | .writeFile path data =>
    update map (pathKey path) ((map (pathKey path)).map (Content.withBytes data))
  | .deleteFile path => update map (pathKey path) none
  | .rename path newName =>
    match (pathKey path).getLast? with
    | none => map
    | some oldKey =>
      if foldCase newName = oldKey then map
      else fun keys =>
        (formerPath (pathKey path).dropLast oldKey (foldCase newName) keys).bind map
  | .chmod path mode =>
    update map (pathKey path) ((map (pathKey path)).map (fun content =>
      content.withMode (normalMode content.kind (mode &&& 0o777))))
  | .chown path uid gid =>
    update map (pathKey path) ((map (pathKey path)).map (Content.withOwner uid gid))

end Mutation

section

variable {object : Object}

theorem content_kind (kind : object.kind = kindFile ∨ object.kind = kindDir) :
    object.content.kind = object.kind := by
  unfold Object.content
  by_cases directory : object.kind = kindDir
  · rw [if_pos directory, directory]
    rfl
  · rw [if_neg directory, kind.resolve_right directory]
    rfl

theorem content_withMode (mode : UInt16) :
    ({ object with mode := mode } : Object).content = object.content.withMode mode := by
  rw [Object.content, Object.content, apply_ite (Content.withMode mode)]
  rfl

theorem content_withOwner (uid gid : UInt32) :
    ({ object with uid := uid, gid := gid } : Object).content =
      object.content.withOwner uid gid := by
  rw [Object.content, Object.content, apply_ite (Content.withOwner uid gid)]
  rfl

theorem content_withBytes (data : List UInt8) :
    ({ object with bytes := data } : Object).content = object.content.withBytes data := by
  rw [Object.content, Object.content, apply_ite (Content.withBytes data)]
  rfl

theorem view_of_objectAt {objects : Nat -> Option Object} {path : List UInt8}
    (found : objectAt objects path = some object) :
    view objects (pathKey path) = some object.content := by
  unfold objectAt at found
  split at found
  · rcases bind_eq_some_iff.mp found with ⟨index, walked, present⟩
    rw [view, walked, bind_some, present]
    rfl
  · cases found

theorem kinds_of_objectAt {volume : Volume} (formed : volume.WellFormed) {path : List UInt8}
    (found : objectAt volume.object path = some object) :
    object.kind = kindFile ∨ object.kind = kindDir := by
  unfold objectAt at found
  split at found
  · rcases bind_eq_some_iff.mp found with ⟨index, _, present⟩
    exact formed.tree.kinds present
  · cases found

end

/-- What a successful mutation guarantees about the volume. -/
structure Mutation.Done (mutation : Mutation) (volume after : Volume) : Prop where
  formed : after.WellFormed
  absolute : mutation.path.head? = some slash
  enabled : mutation.Enabled (view volume.object)
  effect : view after.object = mutation.effect (view volume.object)

theorem Succeeds.imp {program : Fallible Unit} {volume : Volume}
    {effect stronger : Volume -> Prop} (weaken : ∀ after, stronger after -> effect after)
    (succeeded : Succeeds program volume stronger) : Succeeds program volume effect := by
  rcases succeeded with ⟨after, ran, effected⟩
  exact ⟨after, ran, weaken after effected⟩

section

variable {volume after : Volume} {path : List UInt8}

/-- Below a path that leads nowhere there is nothing. -/
theorem view_below (formed : volume.WellFormed) {key : List Name}
    (missing : view volume.object key = none) (name : Name) :
    view volume.object (key ++ [name]) = none := by
  cases walked : walk (child volume.object) 0 key with
  | none =>
    rw [view, walk_concat, walked]
    rfl
  | some index =>
    rcases formed.tree.walk_object walked with ⟨object, _, held⟩
    cases held.symm.trans missing

theorem delete_done (enabled : view volume.object (pathKey path) ≠ none)
    (changed : Changed volume after path none) :
    (Mutation.deleteFile path).Done volume after where
  formed := changed.formed
  absolute := changed.absolute
  enabled := by
    refine ⟨enabled, fun name => ?_⟩
    have gone : view after.object (pathKey path) = none := by
      rw [changed.view, Function.update_self]
    have below := view_below changed.formed gone name
    have longer : pathKey path ++ [name] ≠ pathKey path := by
      intro same
      have lengths := congrArg List.length same
      rw [List.length_append, List.length_singleton] at lengths
      omega
    rwa [changed.view, Function.update_of_ne longer] at below
  effect := changed.view

theorem rename_done {newName : Name} (formed : after.WellFormed)
    (renamed : Renamed volume after path newName) :
    (Mutation.rename path newName).Done volume after := by
  rcases renamed with ⟨absolute, parentKey, oldKey, key, same | different⟩
  · rcases same with ⟨sameName, rfl⟩
    refine ⟨formed, absolute, ⟨parentKey, oldKey, key, .inl sameName⟩, ?_⟩
    simp only [Mutation.effect, key, List.getLast?_concat, if_pos sameName]
  · rcases different with ⟨differ, old, new, effect⟩
    refine ⟨formed, absolute, ⟨parentKey, oldKey, key, .inr ⟨old, new⟩⟩, ?_⟩
    simp only [Mutation.effect, key, List.getLast?_concat, if_neg differ, List.dropLast_concat]
    exact effect

/-- A change of the object at a path changes the path map there. -/
theorem update_of_changed {old : Object} {content : Content} {change : Content -> Content}
    (found : objectAt volume.object path = some old)
    (changed : Changed volume after path (some content)) (same : content = change old.content) :
    view after.object = update (view volume.object) (pathKey path)
      ((view volume.object (pathKey path)).map change) := by
  rw [changed.view, view_of_objectAt found, same]
  rfl

end

/-- Every mutation of a well-formed volume fails and touches free blocks only,
or succeeds and does what it does to the path map. -/
theorem Mutation.cases {volume : Volume} (formed : volume.WellFormed) (mutation : Mutation) :
    Mutates (mutation.program .new) volume (mutation.Done volume) := by
  cases mutation with
  | createFile path uid gid mode =>
    refine (createNode_cases formed (.inl rfl) uid gid mode).imp_right (.imp ?_)
    rintro after ⟨free, changed⟩
    exact ⟨changed.formed, changed.absolute, free, changed.view⟩
  | createDir path uid gid mode =>
    refine (createNode_cases formed (.inr rfl) uid gid mode).imp_right (.imp ?_)
    rintro after ⟨free, changed⟩
    exact ⟨changed.formed, changed.absolute, free, changed.view⟩
  | writeFile path data =>
    refine (writeFile_cases formed data).imp_right (.imp ?_)
    rintro after ⟨old, found, file, _, changed⟩
    refine ⟨changed.formed, changed.absolute, ⟨old.content, view_of_objectAt found, ?_⟩,
      update_of_changed found changed (content_withBytes data)⟩
    rw [content_kind (Or.inl file), file]
  | deleteFile path =>
    refine (deleteFile_cases formed).imp_right (.imp ?_)
    rintro after ⟨present, changed⟩
    exact delete_done present changed
  | rename path newName =>
    refine (rename_cases formed newName).imp_right (.imp ?_)
    rintro after ⟨still, renamed⟩
    exact rename_done still renamed
  | chmod path mode =>
    refine (chmod_cases formed mode).imp_right (.imp ?_)
    rintro after ⟨old, found, changed⟩
    have kind := content_kind (kinds_of_objectAt formed found)
    refine ⟨changed.formed, changed.absolute, ?_, update_of_changed found changed ?_⟩
    · change view volume.object (pathKey path) ≠ none
      rw [view_of_objectAt found]
      exact some_ne_none _
    · rw [content_withMode, kind]
  | chown path uid gid =>
    refine (chown_cases formed uid gid).imp_right (.imp ?_)
    rintro after ⟨old, found, changed⟩
    refine ⟨changed.formed, changed.absolute, ?_,
      update_of_changed found changed (content_withOwner uid gid)⟩
    change view volume.object (pathKey path) ≠ none
    rw [view_of_objectAt found]
    exact some_ne_none _

end CoolOs.CoolFs
