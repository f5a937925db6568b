import CoolOs.CoolFs.InodeTable

namespace CoolOs.CoolFs

open BlockStore Naming Function List Option

/-!
# The tree of objects

The objects of a volume form a tree when the directories among them name every
object but the root exactly once.  The operations change the tree in four ways:
they enter an object, remove a leaf, rename an entry, or replace an object in
place.  Each is described here on the objects alone, together with its effect
on the map from paths to files and directories.
-/

namespace Object

/-- The entries of a directory; a file has none. -/
def entries (object : Object) : List DirectoryEntry :=
  if object.kind = kindDir then
    match parseEntries object.bytes.length object.bytes with
    | .ok entries => entries
    | .error _ => []
  else []

/-- The same directory with other entries. -/
def withEntries (object : Object) (entries : List DirectoryEntry) : Object :=
  { object with bytes := entries.flatMap encodeEntry }

variable {object : Object}

theorem entries_withEntries (directory : object.kind = kindDir)
    {entries : List DirectoryEntry} (valid : ∀ entry ∈ entries, ValidEntry entry) :
    (object.withEntries entries).entries = entries := by
  have kind : (object.withEntries entries).kind = kindDir := directory
  unfold Object.entries
  rw [if_pos kind]
  simp only [withEntries, parse_encoded valid]

theorem entries_of_file (file : object.kind ≠ kindDir) : object.entries = [] := if_neg file

theorem entries_of_empty (empty : object.bytes = []) : object.entries = [] := by
  unfold entries
  rw [empty]
  exact ite_self _

end Object

/-- The entries of the directory at an inode. -/
def listing (objects : Nat -> Option Object) (index : Nat) : List DirectoryEntry :=
  ((objects index).map Object.entries).getD []

/-- The namespace the directories define. -/
def child (objects : Nat -> Option Object) (index : Nat) (key : Name) : Option Nat :=
  find (listing objects index) key

variable {objects : Nat -> Option Object} {index : Nat}

theorem listing_of_some {object : Object}
    (found : objects index = some object) : listing objects index = object.entries := by
  rw [listing, found]
  rfl

theorem listing_of_none (missing : objects index = none) : listing objects index = [] := by
  rw [listing, missing]
  rfl

theorem child_unused {object : Object} {key : Name} (found : objects index = some object)
    (unused : key ∉ keys object.entries) : child objects index key = none := by
  rw [child, listing_of_some found]
  exact find_eq_none.mpr unused

theorem listing_update_of_ne (objects : Nat -> Option Object) {other : Nat} (value : Option Object)
    (different : other ≠ index) :
    listing (update objects index value) other = listing objects other := by
  rw [listing, listing, update_of_ne different]

theorem listing_update_self (objects : Nat -> Option Object) (index : Nat) (object : Object) :
    listing (update objects index (some object)) index = object.entries :=
  listing_of_some (update_self _ _ _)

/-- Files and directories, each directory written as a list of valid entries
with distinct names. -/
structure Readable (objects : Nat -> Option Object) : Prop where
  kinds : forall {index object}, objects index = some object ->
    object.kind = kindFile ∨ object.kind = kindDir
  root : Exists fun object => objects 0 = some object ∧ object.kind = kindDir
  encoded : forall {index object}, objects index = some object -> object.kind = kindDir ->
    object.bytes = object.entries.flatMap encodeEntry
  valid : forall {index entry}, entry ∈ listing objects index -> ValidEntry entry
  distinct : forall index, (keys (listing objects index)).Nodup

/-- In a tree every object but the root is named exactly once. -/
structure Tree (objects : Nat -> Option Object) : Prop extends Readable objects where
  named : WellNamed (child objects) 0 (fun index => objects index ≠ none)

theorem listing_mem_directory {entry : DirectoryEntry} (listed : entry ∈ listing objects index) :
    ∃ object, objects index = some object ∧ object.kind = kindDir := by
  cases found : objects index with
  | none =>
    rw [listing_of_none found] at listed
    cases listed
  | some object =>
    rw [listing_of_some found] at listed
    refine ⟨object, rfl, ?_⟩
    by_contra file
    rw [Object.entries_of_file file] at listed
    cases listed

section

variable {old new : Object}

/-- An object whose record can stand in a readable volume. -/
structure Object.Readable (object : Object) : Prop where
  kind : object.kind = kindFile ∨ object.kind = kindDir
  encoded : object.kind = kindDir -> object.bytes = object.entries.flatMap encodeEntry
  valid : forall {entry}, entry ∈ object.entries -> ValidEntry entry
  distinct : (keys object.entries).Nodup

theorem Readable.object (readable : Readable objects) (found : objects index = some old) :
    old.Readable where
  kind := readable.kinds found
  encoded := readable.encoded found
  valid := by
    intro entry listed
    rw [<- listing_of_some found] at listed
    exact readable.valid listed
  distinct := by
    rw [<- listing_of_some found]
    exact readable.distinct index

theorem Readable.of_objects
    (each : ∀ index object, objects index = some object -> object.Readable)
    (root : ∃ object, objects 0 = some object ∧ object.kind = kindDir) :
    Readable objects where
  kinds := fun found => (each _ _ found).kind
  root := root
  encoded := fun found => (each _ _ found).encoded
  valid := by
    intro index entry listed
    rcases listing_mem_directory listed with ⟨object, found, _⟩
    rw [listing_of_some found] at listed
    exact (each index object found).valid listed
  distinct := by
    intro index
    cases found : objects index with
    | none =>
      rw [listing_of_none found]
      exact nodup_nil
    | some object =>
      rw [listing_of_some found]
      exact (each index object found).distinct

/-- Storing a readable object; the root has to stay a directory. -/
theorem Readable.put (readable : Readable objects) (record : new.Readable)
    (root : index = 0 -> new.kind = kindDir) : Readable (update objects index (some new)) := by
  refine .of_objects (fun other object present => ?_) ?_
  · by_cases here : other = index
    · rw [here, update_self, some.injEq] at present
      exact present ▸ record
    · rw [update_of_ne here] at present
      exact readable.object present
  · by_cases here : index = 0
    · rw [here]
      exact ⟨new, update_self _ _ _, root here⟩
    · rcases readable.root with ⟨object, present, isDir⟩
      exact ⟨object, (update_of_ne (Ne.symm here) _ _).trans present, isDir⟩

theorem Readable.drop (readable : Readable objects) (notRoot : index ≠ 0) :
    Readable (update objects index none) := by
  refine .of_objects (fun other object present => ?_) ?_
  · by_cases here : other = index
    · rw [here, update_self] at present
      cases present
    · rw [update_of_ne here] at present
      exact readable.object present
  · rcases readable.root with ⟨object, present, isDir⟩
    exact ⟨object, (update_of_ne (Ne.symm notRoot) _ _).trans present, isDir⟩

namespace Object.Readable

/-- An object without entries. -/
theorem of_leaf (kind : new.kind = kindFile ∨ new.kind = kindDir)
    (empty : new.kind = kindDir -> new.bytes = []) : new.Readable := by
  have none : new.entries = [] := by
    by_cases isDir : new.kind = kindDir
    · exact entries_of_empty (empty isDir)
    · exact entries_of_file isDir
  refine ⟨kind, fun isDir => ?_, fun listed => ?_, ?_⟩
  · rw [none, empty isDir]
    rfl
  · rw [none] at listed
    cases listed
  · rw [none]
    exact nodup_nil

theorem withEntries (isDir : old.kind = kindDir) {entries : List DirectoryEntry}
    (valid : ∀ entry ∈ entries, ValidEntry entry)
    (distinct : (keys entries).Nodup) : (old.withEntries entries).Readable := by
  have same := entries_withEntries isDir valid
  refine ⟨.inr isDir, fun _ => ?_, fun listed => ?_, ?_⟩
  · rw [same]
    rfl
  · rw [same] at listed
    exact valid _ listed
  · rw [same]
    exact distinct

/-- The metadata, and the bytes of a file, may be anything. -/
theorem revised (readable : old.Readable) (kind : new.kind = old.kind)
    (bytes : old.kind = kindDir -> new.bytes = old.bytes) :
    new.Readable ∧ new.entries = old.entries := by
  by_cases isDir : old.kind = kindDir
  · have same : new.entries = old.entries := by
      unfold entries
      rw [kind, bytes isDir]
    refine ⟨⟨?_, fun _ => ?_, ?_, ?_⟩, same⟩
    · rw [kind]
      exact readable.kind
    · rw [same, bytes isDir]
      exact readable.encoded isDir
    · rw [same]
      exact readable.valid
    · rw [same]
      exact readable.distinct
  · have file : new.kind ≠ kindDir := by
      rw [kind]
      exact isDir
    refine ⟨of_leaf (kind ▸ readable.kind) (fun dir => absurd dir file), ?_⟩
    rw [entries_of_file isDir, entries_of_file file]

end Object.Readable

/-- Only the entries of an object matter for the namespace. -/
theorem child_put (same : new.entries = listing objects index) :
    child (update objects index (some new)) = child objects := by
  funext other key
  unfold child
  by_cases here : other = index
  · rw [here, listing_update_self, same]
  · rw [listing_update_of_ne _ _ here]

theorem child_drop (leaf : listing objects index = []) :
    child (update objects index none) = child objects := by
  funext other key
  unfold child
  by_cases here : other = index
  · rw [here, leaf, listing_of_none (update_self _ _ _)]
  · rw [listing_update_of_ne _ _ here]

/-- A directory written anew, up to one key. -/
theorem child_relist (isDir : old.kind = kindDir) {entries : List DirectoryEntry}
    (valid : ∀ entry ∈ entries, ValidEntry entry)
    {before : Nat -> Name -> Option Nat} {key : Name} {target : Option Nat}
    (finds : ∀ other, find entries other = if other = key then target else before index other)
    (others : ∀ other, other ≠ index -> before other = child objects other) :
    child (update objects index (some (old.withEntries entries))) =
      link before index key target := by
  funext other otherKey
  unfold child link
  by_cases here : other = index
  · rw [here, listing_update_self, Object.entries_withEntries isDir valid, finds]
    exact if_congr (by simp) rfl rfl
  · rw [listing_update_of_ne _ _ here, if_neg (fun both => here both.1), others other here]
    rfl

theorem update_ne_none (found : objects index = some old) :
    (fun other => update objects index (some new) other ≠ none) =
      (fun other => objects other ≠ none) := by
  funext other
  by_cases here : other = index
  · rw [here, update_self, found]
    simp
  · rw [update_of_ne here]

end

variable {newName : Name} {entries : List DirectoryEntry}

/-- An entry of a list with one entry renamed is an old one or the renamed one. -/
theorem mem_modify_name {position : Nat} {entry : DirectoryEntry}
    (listed : entry ∈ entries.modify position (fun entry => { entry with name := newName })) :
    entry ∈ entries ∨ ∃ old ∈ entries, entry = { old with name := newName } := by
  induction entries generalizing position with
  | nil =>
    rw [modify_nil] at listed
    cases listed
  | cons first rest ih =>
    cases position with
    | zero =>
      rw [modify_zero_cons] at listed
      rcases mem_cons.mp listed with here | later
      · exact .inr ⟨first, mem_cons_self, here⟩
      · exact .inl (mem_cons_of_mem _ later)
    | succ position =>
      rw [modify_succ_cons] at listed
      rcases mem_cons.mp listed with here | later
      · exact .inl (here ▸ mem_cons_self)
      · rcases ih later with old | ⟨old, member, renamed⟩
        · exact .inl (mem_cons_of_mem _ old)
        · exact .inr ⟨old, mem_cons_of_mem _ member, renamed⟩

theorem nodup_keys_modify (distinct : (keys entries).Nodup)
    (position : Nat) (unused : foldCase newName ∉ keys entries) :
    (keys (entries.modify position (fun entry => { entry with name := newName }))).Nodup := by
  induction entries generalizing position with
  | nil => cases position <;> exact nodup_nil
  | cons first rest ih =>
    have parts := nodup_keys_cons distinct
    have later : foldCase newName ∉ keys rest :=
      fun listed => unused (mem_cons_of_mem _ listed)
    cases position with
    | zero => exact nodup_cons.mpr ⟨later, parts.2⟩
    | succ position =>
      refine nodup_cons.mpr ⟨fun listed => ?_, ih parts.2 position later⟩
      rcases mem_map.mp listed with ⟨entry, member, same⟩
      change foldCase entry.name = foldCase first.name at same
      rcases mem_modify_name member with old | ⟨old, _, renamed⟩
      · exact parts.1 (same ▸ mem_keys old)
      · apply unused
        rw [renamed] at same
        rw [same]
        exact mem_cons_self

namespace Tree

variable {directory index : Nat} {parent new : Object}
  {position : Nat} (tree : Tree objects)
include tree

section

variable (found : objects directory = some parent)
include found

/-- An entry of a directory leads to the inode it names. -/
theorem child_entry (inside : position < parent.entries.length) :
    child objects directory (foldCase parent.entries[position].name) =
      some parent.entries[position].inode := by
  rw [child, listing_of_some found]
  exact find_of_mem (tree.toReadable.object found).distinct (getElem_mem inside)

omit found in
/-- The root is an object. -/
theorem root_ne_none : objects 0 ≠ none := by
  rcases tree.root with ⟨object, present, _⟩
  rw [present]
  exact some_ne_none object

variable (isDir : parent.kind = kindDir)
include isDir

/-- Enter a new object into a directory. -/
theorem enter (free : objects index = none) (word : index < 2 ^ 32)
    (kind : new.kind = kindFile ∨ new.kind = kindDir) (empty : new.kind = kindDir -> new.bytes = [])
    {name : Name} (valid : ValidName name) (unused : foldCase name ∉ keys parent.entries) :
    Tree (update (update objects index (some new)) directory
        (some (parent.withEntries (parent.entries ++ [{ inode := index, name := name }])))) ∧
      child (update (update objects index (some new)) directory
        (some (parent.withEntries (parent.entries ++ [{ inode := index, name := name }])))) =
        link (child objects) directory (foldCase name) (some index) := by
  have notRoot : index ≠ 0 := fun same => tree.root_ne_none (same ▸ free)
  have apart : index ≠ directory := by
    rintro rfl
    rw [free] at found
    cases found
  have record := Object.Readable.of_leaf kind empty
  have none : new.entries = [] := by
    by_cases dir : new.kind = kindDir
    · exact Object.entries_of_empty (empty dir)
    · exact Object.entries_of_file dir
  have old := tree.toReadable.object found
  have allValid (entry : DirectoryEntry)
      (listed : entry ∈ parent.entries ++ [{ inode := index, name := name }]) :
      ValidEntry entry := by
    rcases mem_append.mp listed with early | last
    · exact old.valid early
    · rw [mem_singleton.mp last]
      exact ⟨valid, notRoot, word⟩
  have allDistinct : (keys (parent.entries ++ [{ inode := index, name := name }])).Nodup := by
    have split : keys (parent.entries ++ [{ inode := index, name := name }]) =
        keys parent.entries ++ [foldCase name] := map_append
    rw [split]
    refine nodup_append'.mpr ⟨old.distinct, nodup_singleton _, ?_⟩
    intro key early last
    rw [mem_singleton.mp last] at early
    exact unused early
  have kept : child (update objects index (some new)) = child objects :=
    child_put (by rw [none, listing_of_none free])
  have children := @child_relist (update objects index (some new)) directory parent isDir _
    allValid (child objects) (foldCase name) (some index)
    (by
      intro key
      rw [find_append_singleton _ _ _ unused, child, listing_of_some found])
    (fun other _ => by rw [kept])
  have stored := tree.toReadable.put record (fun same => absurd same notRoot)
  refine ⟨⟨stored.put (.withEntries isDir allValid allDistinct) (fun _ => isDir), ?_⟩, children⟩
  have present : (fun other => update objects index (some new) other ≠ .none) =
      (fun other => objects other ≠ .none ∨ other = index) := by
    funext other
    by_cases there : other = index
    · rw [there, update_self]
      simp
    · rw [update_of_ne there]
      simp [there]
  rw [children, update_ne_none ((update_of_ne (Ne.symm apart) _ _).trans found), present]
  apply tree.named.add
  · rw [found]
    exact some_ne_none parent
  · exact child_unused found unused
  · exact not_not.mpr free

/-- Remove a leaf from its directory. -/
theorem leave (inside : position < parent.entries.length)
    (target : parent.entries[position].inode = index) (leaf : listing objects index = []) :
    Tree (update (update objects directory
        (some (parent.withEntries (parent.entries.eraseIdx position)))) index none) ∧
      child (update (update objects directory
        (some (parent.withEntries (parent.entries.eraseIdx position)))) index none) =
        link (child objects) directory (foldCase parent.entries[position].name) none := by
  have old := tree.toReadable.object found
  have apart : index ≠ directory := by
    rintro rfl
    rw [listing_of_some found] at leaf
    have length : parent.entries.length = 0 := by rw [leaf]; rfl
    omega
  have allValid (entry : DirectoryEntry) (kept : entry ∈ parent.entries.eraseIdx position) :
      ValidEntry entry := old.valid (mem_of_mem_eraseIdx kept)
  have allDistinct : (keys (parent.entries.eraseIdx position)).Nodup :=
    List.Nodup.sublist (List.Sublist.map _ (eraseIdx_sublist _ _)) old.distinct
  have linked := (tree.child_entry found inside).trans (congrArg some target)
  have notRoot : index ≠ 0 := (tree.named.target linked).2
  have empty : listing (update objects directory
      (some (parent.withEntries (parent.entries.eraseIdx position)))) index = [] := by
    rw [listing_update_of_ne _ _ apart, leaf]
  have relisted := @child_relist objects directory parent isDir _ allValid (child objects) _ none
    (by
      intro key
      rw [find_eraseIdx old.distinct inside, child, listing_of_some found])
    (fun _ _ => rfl)
  have children := (child_drop empty).trans relisted
  have stored := tree.toReadable.put
    (.withEntries isDir allValid allDistinct) (fun _ : directory = 0 => isDir)
  refine ⟨⟨stored.drop notRoot, ?_⟩, children⟩
  have present : (fun other => update (update objects directory
      (some (parent.withEntries (parent.entries.eraseIdx position)))) index none other ≠ none) =
        (fun other => objects other ≠ none ∧ other ≠ index) := by
    funext other
    by_cases there : other = index
    · rw [there, update_self]
      simp
    · rw [update_of_ne there, congrFun (update_ne_none found) other]
      simp [there]
  rw [children, present]
  apply tree.named.remove linked
  intro key
  rw [child, leaf]
  rfl

/-- Give an entry of a directory a new name. -/
theorem relabel (inside : position < parent.entries.length) (valid : ValidName newName)
    (unused : foldCase newName ∉ keys parent.entries) :
    Tree (update objects directory (some (parent.withEntries
        (parent.entries.modify position (fun entry => { entry with name := newName }))))) ∧
      child (update objects directory (some (parent.withEntries
        (parent.entries.modify position (fun entry => { entry with name := newName }))))) =
        link (link (child objects) directory (foldCase parent.entries[position].name) none)
          directory (foldCase newName) (some parent.entries[position].inode) := by
  have old := tree.toReadable.object found
  have allValid (entry : DirectoryEntry) (kept : entry ∈ parent.entries.modify position
      (fun entry => { entry with name := newName })) : ValidEntry entry := by
    rcases mem_modify_name kept with member | ⟨former, member, renamed⟩
    · exact old.valid member
    · rw [renamed]
      exact ⟨valid, (old.valid member).nonzero, (old.valid member).word⟩
  have allDistinct := nodup_keys_modify old.distinct position unused
  have children := @child_relist objects directory parent isDir _ allValid
    (link (child objects) directory (foldCase parent.entries[position].name) none)
    (foldCase newName) _
    (by
      intro key
      rw [find_modify old.distinct inside unused, link, child, listing_of_some found]
      exact if_congr .rfl rfl (if_congr (by simp) rfl rfl))
    (fun other there => funext fun _ => if_neg (fun both => there both.1))
  refine ⟨⟨tree.toReadable.put (.withEntries isDir allValid allDistinct)
    (fun _ => isDir), ?_⟩, children⟩
  rw [children, update_ne_none found]
  exact tree.named.rename (tree.child_entry found inside) (child_unused found unused)

end

/-- Change the metadata of an object or the bytes of a file. -/
theorem revise {old : Object} (found : objects index = some old)
    (kind : new.kind = old.kind) (bytes : old.kind = kindDir -> new.bytes = old.bytes) :
    Tree (update objects index (some new)) ∧
      child (update objects index (some new)) = child objects := by
  rcases (tree.toReadable.object found).revised kind bytes with ⟨record, entries⟩
  have children : child (update objects index (some new)) = child objects :=
    child_put (by rw [entries, listing_of_some found])
  refine ⟨⟨tree.toReadable.put record ?_, ?_⟩, children⟩
  · intro same
    rcases tree.root with ⟨object, present, isDir⟩
    rw [same, present, some.injEq] at found
    rw [kind, <- found]
    exact isDir
  · rw [children, update_ne_none found]
    exact tree.named

end Tree

/-! ## Paths -/

/-- What a path leads to, as a client sees it. -/
inductive Content where
  | directory (uid gid : UInt32) (mode : UInt16)
  | file (bytes : List UInt8) (uid gid : UInt32) (mode : UInt16)
  deriving DecidableEq

def Object.content (object : Object) : Content :=
  if object.kind = kindDir then .directory object.uid object.gid object.mode
  else .file object.bytes object.uid object.gid object.mode

/-- The map from paths, up to case, to files and directories. -/
def view (objects : Nat -> Option Object) (key : List Name) : Option Content :=
  (walk (child objects) 0 key).bind (fun index => (objects index).map Object.content)

namespace Tree

variable {directory index : Nat} {parent new : Object}
  {key : Name} {path : List Name}

theorem content_withEntries (isDir : parent.kind = kindDir) (entries : List DirectoryEntry) :
    (parent.withEntries entries).content = parent.content := by
  have kind : (parent.withEntries entries).kind = kindDir := isDir
  rw [Object.content, Object.content, if_pos kind, if_pos isDir]
  rfl

/-- New entries in a directory do not show in what a path leads to. -/
theorem content_relisted (found : objects directory = some parent) (isDir : parent.kind = kindDir)
    (entries : List DirectoryEntry) (node : Nat) :
    (update objects directory (some (parent.withEntries entries)) node).map
      Object.content = (objects node).map Object.content := by
  by_cases here : node = directory
  · rw [here, update_self, found, map_some, map_some, content_withEntries isDir]
  · rw [update_of_ne here]

/-- What the path of an entry leads to. -/
theorem view_concat (walked : walk (child objects) 0 path = some directory) (key : Name) :
    view objects (path ++ [key]) =
      (child objects directory key).bind (fun index => (objects index).map Object.content) := by
  rw [view, walk_concat, walked]
  rfl

variable (tree : Tree objects)
include tree

/-- A path that is reached leads to an object. -/
theorem walk_object {key : List Name} (reached : walk (child objects) 0 key = some index) :
    ∃ object, objects index = some object ∧ view objects key = some object.content := by
  rcases Option.ne_none_iff_exists'.mp (tree.named.walk_present tree.root_ne_none reached) with
    ⟨object, found⟩
  refine ⟨object, found, ?_⟩
  rw [view, reached, Option.bind_some, found]
  rfl

section

variable (found : objects directory = some parent) (isDir : parent.kind = kindDir)
include found isDir

/-- Entering an object adds one path. -/
theorem view_enter (free : objects index = none)
    (reached : walk (child objects) 0 path = some directory)
    (unused : child objects directory key = none)
    (children : child (update (update objects index (some new)) directory
      (some (parent.withEntries entries))) = link (child objects) directory key (some index)) :
    view (update (update objects index (some new)) directory
        (some (parent.withEntries entries))) =
      update (view objects) (path ++ [key]) (some new.content) := by
  have apart : index ≠ directory := by
    rintro rfl
    rw [free] at found
    cases found
  funext keys
  rw [view, children, tree.named.walk_add reached unused (not_not.mpr free)]
  by_cases same : keys = path ++ [key]
  · rw [if_pos same, same, update_self]
    change Option.map _ (update (update objects index (some new)) directory
      (some (parent.withEntries entries)) index) = _
    rw [update_of_ne apart, update_self]
    rfl
  · rw [if_neg same, update_of_ne same, view]
    cases other : walk (child objects) 0 keys with
    | none => rfl
    | some node =>
      have there : node ≠ index := by
        rintro rfl
        rcases tree.walk_object other with ⟨object, here, _⟩
        cases here.symm.trans free
      refine (content_relisted ((update_of_ne (Ne.symm apart) _ _).trans found) isDir entries
        node).trans ?_
      rw [update_of_ne there]
      rfl

/-- Removing a leaf removes one path. -/
theorem view_leave (reached : walk (child objects) 0 path = some directory)
    (linked : child objects directory key = some index) (leaf : listing objects index = [])
    (children : child (update (update objects directory
      (some (parent.withEntries entries))) index none) = link (child objects) directory key none) :
    view (update (update objects directory
        (some (parent.withEntries entries))) index none) =
      update (view objects) (path ++ [key]) none := by
  have childless (other : Name) : child objects index other = none := by
    rw [child, leaf]
    rfl
  have before : walk (child objects) 0 (path ++ [key]) = some index := by
    rw [walk_concat, reached]
    exact linked
  funext keys
  rw [view, children, tree.named.walk_remove reached linked childless]
  by_cases same : keys = path ++ [key]
  · rw [if_pos same, same, update_self]
    rfl
  · rw [if_neg same, update_of_ne same, view]
    cases other : walk (child objects) 0 keys with
    | none => rfl
    | some node =>
      have there : node ≠ index := by
        rintro rfl
        exact same (tree.named.walk_injective other before)
      rw [bind_some, bind_some, update_of_ne there]
      exact content_relisted found isDir entries node

/-- After an entry was renamed, every path leads to what its former path led
to. -/
theorem view_relabel {newKey : Name} (reached : walk (child objects) 0 path = some directory)
    (linked : child objects directory key = some index)
    (children : child (update objects directory (some (parent.withEntries entries))) =
      link (link (child objects) directory key none) directory newKey (some index)) :
    view (update objects directory (some (parent.withEntries entries))) =
      fun keys => (formerPath path key newKey keys).bind (view objects) := by
  funext keys
  rw [view, children, tree.named.walk_rename reached linked]
  cases formerPath path key newKey keys with
  | none => rfl
  | some former =>
    rw [bind_some, bind_some, view]
    cases walk (child objects) 0 former with
    | none => rfl
    | some node => exact content_relisted found isDir entries node

end

/-- Changing an object in place changes what its one path leads to. -/
theorem view_revise (reached : walk (child objects) 0 path = some index)
    (children : child (update objects index (some new)) = child objects) :
    view (update objects index (some new)) = update (view objects) path (some new.content) := by
  funext keys
  rw [view, children]
  by_cases same : keys = path
  · rw [same, update_self, reached]
    change Option.map _ (update objects index (some new) index) = _
    rw [update_self]
    rfl
  · rw [update_of_ne same, view]
    cases other : walk (child objects) 0 keys with
    | none => rfl
    | some node =>
      have there : node ≠ index := by
        rintro rfl
        exact same (tree.named.walk_injective other reached)
      change Option.map _ (update objects index (some new) node) = _
      rw [update_of_ne there]
      rfl

end Tree

end CoolOs.CoolFs
