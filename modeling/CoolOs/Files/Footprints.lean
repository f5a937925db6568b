import CoolOs.Files.Kernel

namespace CoolOs.Files

open Actions CoolFs Naming Text Action List FileTable Function Option

/-!
# What file calls change

Every call changes what is found at the place of its path, and a safe write also at the
place of its scratch file.  A safe write that succeeds leaves a file with the data it
was given, unless its path is the scratch file itself: then it leaves nothing.
-/

variable {Failure : Type} {data : List UInt8} {content : Content}

namespace FileTable

variable {table after : FileTable} {path : List UInt8} {node parts reached : List Name}
  {newName oldKey : Name}

theorem walkComponents_ok (walked : table.walkComponents reached parts = .ok node) :
    node = reached ++ parts.map foldCase := by
  induction parts generalizing reached with
  | nil =>
    cases walked
    simp
  | cons part rest ih =>
    unfold walkComponents at walked
    split at walked
    · cases walked
    split at walked
    · split at walked
      · cases walked
      · rw [ih walked, append_assoc, map_cons, singleton_append]
    · cases walked

/-- A place in the table can be walked to. -/
theorem walkComponents_of_found (found : table.find (reached ++ parts.map foldCase) = some content)
    : table.walkComponents reached parts = .ok (reached ++ parts.map foldCase) := by
  induction parts generalizing reached with
  | nil =>
    rw [map_nil, append_nil]
    rfl
  | cons part rest ih =>
    rw [map_cons, append_cons] at found ⊢
    have next : ∃ child, table.find (reached ++ [foldCase part]) = some child := by
      cases there : table.find (reached ++ [foldCase part]) with
      | some child => exact ⟨child, rfl⟩
      | none =>
        rw [Table.find_below_absent there] at found
        cases found
    rcases next with ⟨child, there⟩
    rcases Table.find_parent there with ⟨parent, above, wide⟩
    unfold walkComponents
    simp only [above, if_pos wide, there]
    exact ih found

theorem resolvePath_ok (resolved : table.resolvePath path = .ok node) : node = pathKey path := by
  unfold resolvePath at resolved
  split at resolved
  · cases resolved
  · next trimmed cut =>
      rw [walkComponents_ok resolved, (trimAbsPath_ok cut).2]
      rfl

theorem resolvePath_of_found (absolute : path.head? = some slash)
    (found : table.find (pathKey path) = some content) :
    table.resolvePath path = .ok (pathKey path) := by
  have same := (trimAbsPath_ok (trimAbsPath_of_absolute absolute)).2
  unfold resolvePath
  rw [trimAbsPath_of_absolute absolute]
  change table.walkComponents [] (components _) = _
  rw [same]
  exact walkComponents_of_found found

/-- A query shows what is found at the place of its path. -/
theorem readFile_eq (absolute : path.head? = some slash) :
    table.readFile path = (table.find (pathKey path)).bind bytesOf := by
  unfold readFile
  cases found : table.find (pathKey path) with
  | some content =>
    rw [resolvePath_of_found absolute found]
    change (table.find (pathKey path)).bind bytesOf = _
    rw [found]
  | none =>
    cases resolved : table.resolvePath path with
    | error err => rfl
    | ok node =>
      rw [resolvePath_ok resolved]
      change (table.find (pathKey path)).bind bytesOf = _
      rw [found]

variable {parent : List Name}

theorem resolveParent_ok {name : Name} (resolved : table.resolveParent path = .ok (parent, name)) :
    pathKey path = parent ++ [foldCase name] := by
  unfold resolveParent at resolved
  split at resolved
  · cases resolved
  · next parentPath last cut =>
      split at resolved
      · cases resolved
      · next node reached =>
          split at resolved
          · cases resolved
            rw [pathKey_of_split cut, resolvePath_ok reached]
          · cases resolved

theorem createNode_ok (created : createNode path content table = .ok after) :
    table.find (pathKey path) = none ∧ ∀ key,
      after.find key = if key = pathKey path then some content else table.find key := by
  unfold createNode at created
  split at created
  · cases created
  · next parent name resolved =>
      rw [resolveParent_ok resolved]
      split at created
      · split at created
        · next absent =>
            cases created
            exact ⟨absent, Table.find_add table parent (foldCase name) _ _⟩
        · cases created
      · cases created

theorem writeFile_ok (written : writeFile path data table = .ok after) :
    (∃ bytes, (table.find (pathKey path)).bind bytesOf = some bytes) ∧ ∀ key,
      after.find key = if key = pathKey path then
        (table.find (pathKey path)).map (Content.withBytes data) else table.find key := by
  unfold writeFile at written
  split at written
  · cases written
  · next node resolved =>
      rw [resolvePath_ok resolved] at written
      split at written
      · cases written
      · next bytes file =>
          cases written
          exact ⟨⟨bytes, file⟩, Table.find_put table (pathKey path) _⟩

theorem deleteFile_ok (deleted : deleteFile path table = .ok after) :
    table.find (pathKey path) ≠ none ∧ table.children (pathKey path) = [] ∧ ∀ key,
      after.find key = if key = pathKey path then none else table.find key := by
  unfold deleteFile at deleted
  split at deleted
  · cases deleted
  · next parent name resolved =>
      rw [resolveParent_ok resolved]
      split at deleted
      · cases deleted
      · next present =>
          split at deleted
          · next empty =>
              cases deleted
              exact ⟨present, empty, Table.find_erase table _ _ empty⟩
          · cases deleted

theorem rename_ok (place : pathKey path = parent ++ [oldKey])
    (renamed : rename path newName table = .ok after) :
    oldKey = foldCase newName ∧ after = table ∨ oldKey ≠ foldCase newName ∧
      table.find (parent ++ [foldCase newName]) = none ∧ ∀ key,
        after.find key = (formerPath parent oldKey (foldCase newName) key).bind table.find := by
  unfold rename at renamed
  split at renamed
  · cases renamed
  split at renamed
  · cases renamed
  next parentPath oldName cut =>
  have here := pathKey_of_split cut
  rw [place] at here
  rcases append_inj' here rfl with ⟨_, last⟩
  cases last
  split at renamed
  · next same =>
      cases renamed
      exact .inl ⟨namesEqual_iff.mp same, rfl⟩
  · next another =>
    split at renamed
    · cases renamed
    · next above name resolved =>
        have there := resolveParent_ok resolved
        rw [place] at there
        rcases append_inj' there rfl with ⟨rfl, _⟩
        split at renamed
        · next unused =>
            split at renamed
            · cases renamed
            · cases renamed
              refine .inr ⟨?_, unused, Table.find_rename table _ _ _ unused⟩
              exact fun same => another (namesEqual_iff.mpr same)
        · cases renamed

/-- A file that is renamed leaves its old place and takes the new one. -/
theorem rename_file (place : pathKey path = parent ++ [oldKey]) (other : oldKey ≠ foldCase newName)
    (file : table.find (parent ++ [oldKey]) = some content) (leaf : isDirectory content = false)
    (renamed : rename path newName table = .ok after) :
    after.find (parent ++ [foldCase newName]) = some content ∧
      ∀ key, key ≠ parent ++ [foldCase newName] -> key ≠ parent ++ [oldKey] ->
        after.find key = table.find key := by
  rcases rename_ok place renamed with same | ⟨_, unused, finds⟩
  · exact absurd same.1 other
  constructor
  · rw [finds, formerPath_concat_self, if_pos rfl]
    exact file
  · intro key apart aside
    rw [finds, formerPath]
    split
    · next below =>
        rcases Table.below_iff.mp below with ⟨rest, rfl⟩
        have further : rest ≠ [] := fun none => apart (by rw [none])
        have nothing := Table.find_below_leaf file leaf further
        have absent := Table.find_below_absent unused rest
        rw [append_assoc, singleton_append] at nothing absent
        rw [Table.drop_below, Option.bind_some, nothing, absent]
    · split
      · next below =>
          rcases Table.below_iff.mp below with ⟨rest, rfl⟩
          have further : rest ≠ [] := fun none => aside (by rw [none])
          have nothing := Table.find_below_leaf file leaf further
          rw [append_assoc, singleton_append] at nothing
          rw [nothing]
          rfl
      · rfl

end FileTable

/-- What is found at a place. -/
def Kernel.find (kernel : Kernel) (key : List Name) : Option Content := kernel.table.find key

/-- The bytes of the file at a place. -/
def Kernel.bytes (kernel : Kernel) (key : List Name) : Option (List UInt8) :=
  (kernel.find key).bind bytesOf

section

variable {Value : Type} {kernel after : Kernel} {change : FileTable -> Except FsError FileTable}
  {changed : List Name -> Prop}

theorem call_ok (ran : call change kernel = (.ok (), after)) :
    change kernel.table = .ok after.table := by
  unfold call at ran
  split at ran
  · cases ran
  split at ran
  · cases ran
  · next table changed =>
      cases ran
      exact changed

theorem call_error {err : FsError}
    (ran : call change kernel = (.error err, after)) : after.table = kernel.table := by
  unfold call at ran
  split at ran
  · cases ran
    rfl
  split at ran
  · cases ran
    rfl
  · cases ran

theorem call_faults (change : FileTable -> Except FsError FileTable) :
    (call change kernel).2.faults = kernel.faults := by
  unfold call
  split
  · rfl
  split
  · rfl
  · rfl

/-- The calls that fail are the same ones, and what is found has changed at some places
at most. -/
structure Kernel.Changes (changed : List Name -> Prop) (before after : Kernel) : Prop where
  faults : after.faults = before.faults
  find : forall key, ¬ changed key -> after.find key = before.find key

instance (changed : List Name -> Prop) : Action.Chain (Kernel.Changes changed) where
  refl _ := ⟨rfl, fun _ _ => rfl⟩
  trans first second := ⟨second.faults.trans first.faults, fun key other =>
    (second.find key other).trans (first.find key other)⟩

theorem Kernel.Changes.mono {wider : List Name -> Prop} (changes : kernel.Changes changed after)
    (more : ∀ key, changed key -> wider key) : kernel.Changes wider after :=
  ⟨changes.faults, fun key other => changes.find key fun here => other (more key here)⟩

/-- A call changes what its change of the table does. -/
theorem call_changes
    (same : ∀ table after, change table = .ok after ->
      ∀ key, ¬ changed key -> after.find key = table.find key)
    (kernel : Kernel) : kernel.Changes changed (call change kernel).2 := by
  refine ⟨call_faults change, fun key other => ?_⟩
  rcases ran : call change kernel with ⟨err | ⟨⟩, after⟩
  · change after.table.find key = kernel.table.find key
    rw [call_error ran]
  · exact same _ _ (call_ok ran) key other

theorem ask_changes (query : FileTable -> Option Value) (changed : List Name -> Prop) :
    Keeps (Kernel.Changes changed) (ask query : Action Kernel Failure _) := by
  intro kernel
  unfold ask
  split
  · exact ⟨rfl, fun _ _ => rfl⟩
  · exact ⟨rfl, fun _ _ => rfl⟩

theorem onFatVolume_changes (changed : List Name -> Prop) :
    Keeps (Kernel.Changes changed) onFatVolume := fun _ => ⟨rfl, fun _ _ => rfl⟩

theorem askFat_changes (query : FatAnswer -> Option Value) (changed : List Name -> Prop) :
    Keeps (Kernel.Changes changed) (askFat query : Action Kernel Failure _) :=
  fun _ => ⟨rfl, fun _ _ => rfl⟩

theorem create_changes (path : List UInt8) (content : Content) :
    Keeps (Kernel.Changes (fun key => key = pathKey path)) (call (createNode path content)) :=
  call_changes fun _ _ created key other => by
    rw [(createNode_ok created).2, if_neg other]

theorem write_changes (path data : List UInt8) :
    Keeps (Kernel.Changes (fun key => key = pathKey path)) (call (writeFile path data)) :=
  call_changes fun _ _ written key other => by
    rw [(writeFile_ok written).2, if_neg other]

theorem delete_changes (path : List UInt8) : Keeps (Kernel.Changes (fun key => key = pathKey path))
      (call (deleteFile path)) :=
  call_changes fun _ _ deleted key other => by
    rw [(deleteFile_ok deleted).2.2, if_neg other]

theorem deleteIfPresent_changes (path : List UInt8) :
    Keeps (Kernel.Changes (fun key => key = pathKey path)) (deleteIfPresent path) := by
  refine .bind (.attempt (delete_changes path)) fun outcome => ?_
  split
  · exact keeps_pure _
  · exact keeps_pure _
  · exact keeps_pure _

end

/-- The place of the scratch file of a safe write. -/
def scratchName : Name := foldCase (ascii "CWTMP.TMP")

def scratchKey (key : List Name) : List Name := key.dropLast ++ [scratchName]

theorem pathKey_append_slash (path : List UInt8) : pathKey (path ++ [slash]) = pathKey path := by
  rw [pathKey, components_append]
  exact congrArg (List.map foldCase) (append_nil _)

theorem pathKey_temporaryPath (parent : List UInt8) :
    pathKey (temporaryPath parent) = pathKey parent ++ [scratchName] := by
  have plain : components [67, 87, 84, 77, 80, 46, 84, 77, 80] =
      [[67, 87, 84, 77, 80, 46, 84, 77, 80]] := by decide
  unfold temporaryPath
  split
  · next ended =>
      rcases getLast?_eq_some_iff.mp ended with ⟨front, rfl⟩
      rw [append_assoc, singleton_append, pathKey, components_append, plain,
        map_append, pathKey_append_slash]
      rfl
  · rw [append_assoc, singleton_append, pathKey, components_append, plain, map_append]
    rfl

section

variable {path parent tmp : List UInt8} {name : Name} {uid gid : UInt32} {mode : UInt16}
  {kernel after : Kernel}

theorem scratchKey_eq (cut : splitParentAndName path = .ok (parent, name)) :
    scratchKey (pathKey path) = pathKey (temporaryPath parent) := by
  rw [scratchKey, pathKey_of_split cut, dropLast_concat, pathKey_temporaryPath]

theorem deleteIfPresent_ok {outcome : Except FsError Unit}
    (ran : deleteIfPresent path kernel = (.ok outcome, after)) :
    kernel.Changes (fun key => key = pathKey path) after := by
  have changes := deleteIfPresent_changes path kernel
  rwa [ran] at changes

/-- The places that a safe write of a path changes. -/
def Rewritten (key place : List Name) : Prop := place = key ∨ place = scratchKey key

/-- With a file as scratch file, the last part of a safe write changes two places. -/
theorem takePlace_changes (cut : splitParentAndName path = .ok (parent, name))
    (file : kernel.find (pathKey (temporaryPath parent)) = some content)
    (leaf : isDirectory content = false) : kernel.Changes (Rewritten (pathKey path))
      (takePlace (temporaryPath parent) path name kernel).2 := by
  have place := pathKey_of_split cut
  refine bind_related ((deleteIfPresent_changes path kernel).mono fun _ => .inl)
    fun outcome between removed => ?_
  cases outcome with
  | error err =>
    refine bind_related ?_ fun _ last _ => keeps_fail err last
    exact (delete_changes _ between).mono fun key here => .inr (here.trans (scratchKey_eq cut).symm)
  | ok done =>
    refine ⟨call_faults _, fun key other => ?_⟩
    change (call (rename (temporaryPath parent) name) between).2.find key = _
    rcases ran : call (rename (temporaryPath parent) name) between with ⟨err | ⟨⟩, last⟩
    · change last.table.find key = _
      rw [call_error ran]
      rfl
    · have renamed := call_ok ran
      change last.table.find key = between.table.find key
      by_cases same : scratchName = foldCase name
      · rcases rename_ok (pathKey_temporaryPath parent) renamed with still | other
        · rw [still.2]
        · exact absurd same other.1
      · have still : between.find (pathKey (temporaryPath parent)) = some content := by
          rw [(deleteIfPresent_ok removed).find, file]
          rw [pathKey_temporaryPath, place]
          exact fun equal => same (singleton_inj.mp (append_inj' equal rfl).2)
        rw [pathKey_temporaryPath] at still
        have finds := (rename_file (pathKey_temporaryPath parent) same still leaf
          renamed).2
        rw [Rewritten, not_or, scratchKey_eq cut, pathKey_temporaryPath, place] at other
        rw [finds key other.1 other.2]

theorem takePlace_ok (cut : splitParentAndName path = .ok (parent, name))
    (file : kernel.find (pathKey (temporaryPath parent)) = some content)
    (leaf : isDirectory content = false) (plain : pathKey path ≠ pathKey (temporaryPath parent))
    (ran : takePlace (temporaryPath parent) path name kernel = (.ok (), after)) :
    after.find (pathKey path) = some content := by
  have place := pathKey_of_split cut
  rcases bind_ok ran with ⟨outcome, between, removed, rest⟩
  have still := ((deleteIfPresent_ok removed).find _ plain.symm).trans file
  rw [pathKey_temporaryPath] at still plain
  cases outcome with
  | error err =>
    rcases bind_ok rest with ⟨_, _, _, failed⟩
    cases failed
  | ok done =>
    have other : scratchName ≠ foldCase name := fun same => plain (by rw [place, same])
    have renamed := rename_file (pathKey_temporaryPath parent) other still leaf
      (call_ok rest)
    rw [place]
    exact renamed.1

/-- The scratch file holds the data once it was created and written. -/
theorem scratch_written {between : Kernel}
    (created : call (createFileWithMetadata tmp uid gid mode) kernel = (.ok (), between))
    (written : call (writeFile tmp data) between = (.ok (), after)) :
    after.find (pathKey tmp) =
      some (.file data uid gid (normalMode kindFile (mode &&& 0o777))) := by
  rw [Kernel.find, (writeFile_ok (call_ok written)).2, if_pos rfl,
    (createNode_ok (call_ok created)).2, if_pos rfl]
  rfl

theorem safeWrite_changes (path data : List UInt8) (uid gid : UInt32) (mode : UInt16) :
    Keeps (Kernel.Changes (Rewritten (pathKey path)))
      (safeWriteFileWithMetadata path data uid gid mode) := by
  intro kernel
  refine bind_related (keeps_settle _ kernel) fun pair same settled => ?_
  obtain ⟨parent, name⟩ := pair
  rcases settle_ok settled with ⟨cut, rfl⟩
  have aside : ∀ key, key = pathKey (temporaryPath parent) -> Rewritten (pathKey path) key :=
    fun key here => .inr (here.trans (scratchKey_eq cut).symm)
  refine bind_related ((deleteIfPresent_changes _ same).mono aside) fun outcome first _ => ?_
  cases outcome with
  | error err => exact keeps_fail err first
  | ok done =>
    refine bind_related ((create_changes _ _ first).mono aside) fun _ second created => ?_
    refine bind_related ((write_changes _ data second).mono aside) fun _ third written => ?_
    exact takePlace_changes cut (scratch_written created written) rfl

theorem safeWrite_ok
    (ran : safeWriteFileWithMetadata path data uid gid mode kernel = (.ok (), after))
    (plain : pathKey path ≠ scratchKey (pathKey path)) :
    after.find (pathKey path) =
      some (.file data uid gid (normalMode kindFile (mode &&& 0o777))) := by
  rcases bind_ok ran with ⟨⟨parent, name⟩, same, settled, rest⟩
  rcases settle_ok settled with ⟨cut, rfl⟩
  rw [scratchKey_eq cut] at plain
  rcases bind_ok rest with ⟨outcome, first, _, rest⟩
  cases outcome with
  | error err => cases rest
  | ok done =>
    rcases bind_ok rest with ⟨_, second, created, rest⟩
    rcases bind_ok rest with ⟨_, third, written, rest⟩
    exact takePlace_ok cut (scratch_written created written) rfl plain rest

end

/-!
## What a safe write may leave

A safe write that fails on its way leaves what was at its path, or nothing.
-/

/-- The file at a place is as it was, or one of some others. -/
def Kernel.Leaves (key : List Name) (others : List (Option (List UInt8))) (before after : Kernel) :
    Prop :=
  after.bytes key = before.bytes key ∨ after.bytes key ∈ others

instance (key : List Name) (others : List (Option (List UInt8))) :
    Action.Chain (Kernel.Leaves key others) where
  refl _ := .inl rfl
  trans first second := second.elim (fun same => first.imp (same.trans ·) (same ▸ ·)) .inr

section

variable {key : List Name} {others : List (Option (List UInt8))} {kernel after : Kernel}

theorem Kernel.Changes.leaves {changed : List Name -> Prop} (changes : kernel.Changes changed after)
    (other : ¬ changed key) : kernel.Leaves key others after :=
  .inl (congrArg (fun content => content.bind bytesOf) (changes.find key other))

/-- A call leaves a file as it was if it fails, and otherwise what the call makes of it. -/
theorem call_leaves {change : FileTable -> Except FsError FileTable}
    (made : ∀ after, call change kernel = (.ok (), after) -> after.bytes key ∈ others) :
    kernel.Leaves key others (call change kernel).2 := by
  rcases ran : call change kernel with ⟨err | ⟨⟩, after⟩
  · exact .inl (congrArg (fun table : FileTable => (table.find _).bind bytesOf) (call_error ran))
  · exact .inr (made after ran)

theorem deleteIfPresent_leaves (path : List UInt8) (gone : none ∈ others) :
    Keeps (Kernel.Leaves (pathKey path) others) (deleteIfPresent path) := by
  refine .bind (.attempt fun kernel => ?_) fun outcome => ?_
  · refine call_leaves fun last ran => ?_
    rw [Kernel.bytes, Kernel.find, (deleteFile_ok (call_ok ran)).2.2, if_pos rfl]
    exact gone
  · split
    · exact keeps_pure _
    · exact keeps_pure _
    · exact keeps_pure _

theorem safeWrite_leaves {path : List UInt8} (plain : pathKey path ≠ scratchKey (pathKey path))
    (gone : none ∈ others) (written : some data ∈ others) (uid gid : UInt32) (mode : UInt16) :
    Keeps (Kernel.Leaves (pathKey path) others)
      (safeWriteFileWithMetadata path data uid gid mode) := by
  intro kernel
  refine bind_related (keeps_settle _ kernel) fun pair same settled => ?_
  obtain ⟨parent, name⟩ := pair
  rcases settle_ok settled with ⟨cut, rfl⟩
  rw [scratchKey_eq cut] at plain
  refine bind_related ((deleteIfPresent_changes _ same).leaves plain) fun outcome first _ => ?_
  cases outcome with
  | error err => exact keeps_fail err first
  | ok done =>
    refine bind_related ((create_changes _ _ first).leaves plain) fun _ second created => ?_
    refine bind_related ((write_changes _ data second).leaves plain) fun _ third filled => ?_
    have file := scratch_written created filled
    refine bind_related (deleteIfPresent_leaves path gone third) fun outcome fourth removed => ?_
    cases outcome with
    | error err =>
      exact bind_related ((delete_changes _ fourth).leaves plain) fun _ last _ => keeps_fail err last
    | ok done =>
      refine call_leaves fun last ran => ?_
      have place := pathKey_of_split cut
      have still := ((deleteIfPresent_ok removed).find _ plain.symm).trans file
      rw [pathKey_temporaryPath] at still plain
      have other : scratchName ≠ foldCase name := fun same => plain (by rw [place, same])
      have renamed := rename_file (pathKey_temporaryPath parent) other still rfl (call_ok ran)
      rw [Kernel.bytes, Kernel.find, place, renamed.1]
      exact written

end

theorem normalizePath_absolute (path : List UInt8) : (normalizePath path).head? = some slash := by
  unfold normalizePath
  split
  · rfl
  · next some =>
      cases parts : normalParts path with
      | nil => exact absurd parts some
      | cons first rest => rfl

/-- What the root volume holds at the place of a path. -/
def Kernel.contents (kernel : Kernel) (path : Text) : Option (List UInt8) :=
  kernel.bytes (fileKey path)

/-- The path leads to the root volume. -/
def Rooted (path : Text) : Prop := onFat (normalizePath (encode path)) = false

instance (path : Text) : Decidable (Rooted path) :=
  inferInstanceAs (Decidable (_ = _))

theorem Kernel.contents_congr {kernel other : Kernel} {path : Text}
    (same : other.find (fileKey path) = kernel.find (fileKey path)) :
    other.contents path = kernel.contents path := by
  rw [Kernel.contents, Kernel.contents, Kernel.bytes, Kernel.bytes, same]

section

variable {kernel after : Kernel} {path : Text}

theorem readFile_keeps (path : Text) (changed : List Name -> Prop) :
    Keeps (Kernel.Changes changed) (vfsKernelReadFile path : Action Kernel Failure _) := by
  unfold vfsKernelReadFile
  dsimp only
  split
  · exact askFat_changes _ changed
  · exact ask_changes _ changed

/-- What is read from the root volume is there. -/
theorem readFile_some (rooted : Rooted path)
    (ran : (vfsKernelReadFile path kernel : Except Failure _ × Kernel) = (.ok (some data), after)) :
    kernel.contents path = some data := by
  unfold vfsKernelReadFile at ran
  rw [rooted, if_neg Bool.false_ne_true] at ran
  unfold ask at ran
  split at ran
  · cases ran
  · dsimp only at ran
    rw [readFile_eq (normalizePath_absolute _), Prod.mk.injEq, Except.ok.injEq] at ran
    exact ran.1

/-- If the call does not fail, what is there is read. -/
theorem readFile_reliable (rooted : Rooted path) (works : kernel.faults kernel.clock = none) :
    (vfsKernelReadFile path kernel : Except Failure _ × Kernel).1 = .ok (kernel.contents path) := by
  unfold vfsKernelReadFile
  rw [rooted, if_neg Bool.false_ne_true, ask, works]
  dsimp only
  rw [readFile_eq (normalizePath_absolute _)]
  rfl

theorem metadataUnchecked_keeps (path : List UInt8) (changed : List Name -> Prop) :
    Keeps (Kernel.Changes changed) (metadataUnchecked path : Action Kernel Failure _) := by
  unfold metadataUnchecked
  split
  · exact askFat_changes _ changed
  · exact ask_changes _ changed

theorem createFile_changes (path : Text) :
    Keeps (Kernel.Changes (fun key => key = fileKey path)) (vfsKernelCreateFile path) := by
  refine .bind (keeps_observe _) fun users => ?_
  dsimp only
  split
  · exact onFatVolume_changes _
  · exact create_changes _ _

theorem createDir_changes (path : Text) :
    Keeps (Kernel.Changes (fun key => key = fileKey path)) (vfsKernelCreateDir path) := by
  refine .bind (keeps_observe _) fun users => ?_
  dsimp only
  split
  · exact onFatVolume_changes _
  · exact create_changes _ _

theorem writeFile_changes (path : Text) (data : List UInt8) :
    Keeps (Kernel.Changes (fun key => key = fileKey path)) (vfsKernelWriteFile path data) := by
  unfold vfsKernelWriteFile
  dsimp only
  split
  · exact onFatVolume_changes _
  · exact write_changes _ _

theorem kernelDelete_changes (path : Text) :
    Keeps (Kernel.Changes (fun key => key = fileKey path)) (vfsKernelDelete path) := by
  unfold vfsKernelDelete
  dsimp only
  split
  · exact onFatVolume_changes _
  · exact delete_changes _

theorem safeWriteFileFor_changes (path data : List UInt8) (uid gid : UInt32) (mode : UInt16) :
    Keeps (Kernel.Changes (Rewritten (pathKey path)))
      (safeWriteFileFor path data uid gid mode) := by
  unfold safeWriteFileFor
  split
  · exact onFatVolume_changes _
  · exact safeWrite_changes path data uid gid mode

theorem safeWriteFile_changes (path : Text) (data : List UInt8) :
    Keeps (Kernel.Changes (Rewritten (fileKey path))) (vfsKernelSafeWriteFile path data) := by
  refine .bind (metadataUnchecked_keeps _ _) fun known => ?_
  refine .bind (keeps_observe _) fun users => ?_
  dsimp only
  split
  · exact safeWriteFileFor_changes _ data _ _ _
  · exact safeWriteFileFor_changes _ data _ _ _

theorem safeWriteFileFor_ok {path : List UInt8} {uid gid : UInt32} {mode : UInt16}
    (rooted : onFat path = false)
    (ran : safeWriteFileFor path data uid gid mode kernel = (.ok (), after))
    (plain : pathKey path ≠ scratchKey (pathKey path)) : after.find (pathKey path) =
      some (.file data uid gid (normalMode kindFile (mode &&& 0o777))) := by
  rw [safeWriteFileFor, rooted, if_neg Bool.false_ne_true] at ran
  exact safeWrite_ok ran plain

/-- A safe write on the root volume that succeeds leaves the data at its path. -/
theorem safeWriteFile_ok (rooted : Rooted path)
    (ran : vfsKernelSafeWriteFile path data kernel = (.ok (), after))
    (plain : fileKey path ≠ scratchKey (fileKey path)) : after.contents path = some data := by
  rcases bind_ok ran with ⟨known, first, _, rest⟩
  rcases bind_ok rest with ⟨users, second, _, rest⟩
  dsimp only at rest
  split at rest
  all_goals
    have found := safeWriteFileFor_ok rooted rest plain
    exact congrArg (fun content => content.bind bytesOf) found

end

/-- What the calls that make up a write may leave at its path. -/
theorem safeWriteFile_leaves {path : Text} {others : List (Option (List UInt8))}
    (plain : fileKey path ≠ scratchKey (fileKey path)) (gone : none ∈ others)
    (written : some data ∈ others) :
    Keeps (Kernel.Leaves (fileKey path) others) (vfsKernelSafeWriteFile path data) := by
  have known : Keeps (Kernel.Leaves (fileKey path) others)
      (metadataUnchecked (normalizePath (encode path)) : Action Kernel FsError _) :=
    (metadataUnchecked_keeps _ fun _ => False).mono fun changes => changes.leaves id
  have one : ∀ uid gid mode, Keeps (Kernel.Leaves (fileKey path) others)
      (safeWriteFileFor (normalizePath (encode path)) data uid gid mode) := by
    intro uid gid mode
    unfold safeWriteFileFor
    split
    · exact (onFatVolume_changes fun _ => False).mono fun changes => changes.leaves id
    · exact safeWrite_leaves plain gone written uid gid mode
  refine known.bind fun known => ?_
  refine .bind (keeps_observe _) fun users => ?_
  dsimp only
  split
  · exact one _ _ _
  · exact one _ _ _

theorem createFile_leaves {others : List (Option (List UInt8))} (path : Text)
    (empty : some [] ∈ others) :
    Keeps (Kernel.Leaves (fileKey path) others) (vfsKernelCreateFile path) := by
  refine .bind (keeps_observe _) fun users => ?_
  dsimp only
  split
  · exact (onFatVolume_changes fun _ => False).mono fun changes => changes.leaves id
  · intro kernel
    rcases ran : call (createFileWithMetadata (normalizePath (encode path))
      (defaultOwnerForPath users (normalizePath (encode path))).1
      (defaultOwnerForPath users (normalizePath (encode path))).2
      (defaultModeForPath (normalizePath (encode path)) false)) kernel with ⟨err | ⟨⟩, last⟩
    · exact .inl (congrArg (fun table : FileTable => (table.find _).bind bytesOf) (call_error ran))
    · refine .inr ?_
      change ((last.table.find _).bind bytesOf) ∈ others
      rw [fileKey, (createNode_ok (call_ok ran)).2, if_pos rfl]
      exact empty

/-!
## The table and the path map

What is found in a table is a path map, and a call on the table that succeeds was enabled
there and has the effect of the same mutation of CoolFS.
-/

/-- The call on the table for a mutation of CoolFS.  The services change no modes or
owners on their own. -/
def FileTable.mutate : Mutation -> FileTable -> Option (Except FsError FileTable)
  | .createFile path uid gid mode, table =>
    some (FileTable.createFileWithMetadata path uid gid mode table)
  | .createDir path uid gid mode, table =>
    some (FileTable.createDirWithMetadata path uid gid mode table)
  | .writeFile path data, table => some (FileTable.writeFile path data table)
  | .deleteFile path, table => some (FileTable.deleteFile path table)
  | .rename path newName, table => some (FileTable.rename path newName table)
  | .chmod _ _, _ => none
  | .chown _ _ _, _ => none

section

variable {table after : FileTable} {path : List UInt8}

theorem kind_of_bytes {bytes : List UInt8} (file : bytesOf content = some bytes) :
    content.kind = kindFile := by
  cases content with
  | directory uid gid mode => cases file
  | file data uid gid mode => rfl

theorem rename_place {newName : Name} (renamed : FileTable.rename path newName table = .ok after) :
    ∃ parent oldKey, pathKey path = parent ++ [oldKey] ∧
      (foldCase newName = oldKey ∨ table.find (parent ++ [oldKey]) ≠ none) := by
  unfold FileTable.rename at renamed
  split at renamed
  · cases renamed
  split at renamed
  · cases renamed
  next parentPath oldName cut =>
  refine ⟨pathKey parentPath, foldCase oldName, pathKey_of_split cut, ?_⟩
  split at renamed
  · next same => exact .inl (namesEqual_iff.mp same).symm
  split at renamed
  · cases renamed
  next above name resolved =>
  have there := FileTable.resolveParent_ok resolved
  rw [pathKey_of_split cut] at there
  rcases List.append_inj' there rfl with ⟨rfl, _⟩
  split at renamed
  · split at renamed
    · cases renamed
    · next present => exact .inr present
  · cases renamed

theorem rename_effect {newName : Name} (renamed : FileTable.rename path newName table = .ok after) :
    (Mutation.rename path newName).Enabled table.find ∧
      after.find = (Mutation.rename path newName).effect table.find := by
  rcases rename_place renamed with ⟨parent, oldKey, place, present⟩
  have outcome := FileTable.rename_ok place renamed
  rw [Mutation.effect, place, List.getLast?_concat, List.dropLast_concat]
  rcases outcome with ⟨same, still⟩ | ⟨other, unused, finds⟩
  · refine ⟨⟨parent, oldKey, place, .inl same.symm⟩, ?_⟩
    rw [still]
    exact (if_pos same.symm).symm
  · refine ⟨⟨parent, oldKey, place, .inr ⟨?_, unused⟩⟩, ?_⟩
    · exact present.resolve_left fun same => other same.symm
    · refine Eq.trans (funext finds) (if_neg fun same => other same.symm).symm

end

/-- A call that succeeds does to the table what the mutation does to the path map. -/
theorem mutate_effect {table after : FileTable} {mutation : Mutation}
    (mutated : table.mutate mutation = some (.ok after)) :
    mutation.Enabled table.find ∧ after.find = mutation.effect table.find := by
  cases mutation with
  | createFile path uid gid mode =>
    rcases FileTable.createNode_ok (some.inj mutated) with ⟨absent, finds⟩
    refine ⟨absent, funext fun key => ?_⟩
    rw [finds, Mutation.effect, update_apply]
  | createDir path uid gid mode =>
    rcases FileTable.createNode_ok (some.inj mutated) with ⟨absent, finds⟩
    refine ⟨absent, funext fun key => ?_⟩
    rw [finds, Mutation.effect, update_apply]
  | writeFile path data =>
    rcases FileTable.writeFile_ok (some.inj mutated) with ⟨⟨bytes, file⟩, finds⟩
    rcases bind_eq_some_iff.mp file with ⟨content, found, kept⟩
    refine ⟨⟨content, found, kind_of_bytes kept⟩, funext fun key => ?_⟩
    rw [finds, Mutation.effect, update_apply]
  | deleteFile path =>
    rcases FileTable.deleteFile_ok (some.inj mutated) with ⟨present, empty, finds⟩
    refine ⟨⟨present, Table.children_eq_nil.mp empty⟩, funext fun key => ?_⟩
    rw [finds, Mutation.effect, update_apply]
  | rename path newName => exact rename_effect (some.inj mutated)
  | chmod path mode => cases mutated
  | chown path uid gid => cases mutated

theorem mutate_effect_createDir :
    let made := Mutation.createDir (ascii "/a") 0 0 0o755
    ∃ after, freshTable.mutate made = some (.ok after) ∧ after.find = made.effect freshTable.find :=
  have ran : freshTable.mutate (.createDir (ascii "/a") 0 0 0o755) = some (.ok _) := rfl
  ⟨_, ran, (mutate_effect ran).2⟩

end CoolOs.Files
