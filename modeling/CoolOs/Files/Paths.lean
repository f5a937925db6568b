import CoolOs.Files.Footprints

namespace CoolOs.Files

open Actions CoolFs Text List

/-!
# Places of paths

The place of a path is what its normal form consists of, name by name.
-/

variable {changed : List Name -> Prop} {kernel : Kernel}

/-- A name as a component of a normal form. -/
structure PlainName (name : Name) : Prop where
  nonempty : name ≠ []
  notDot : name ≠ [dot]
  notDotDot : name ≠ [dot, dot]
  single : slash ∉ name

variable {part : Name} {path : List UInt8} {key : List Name}

theorem not_mem_of_mem_splitSlash (listed : part ∈ splitSlash path) : slash ∉ part := by
  induction path generalizing part with
  | nil =>
    rw [splitSlash, mem_singleton] at listed
    rw [listed]
    exact not_mem_nil
  | cons byte rest ih =>
    unfold splitSlash at listed
    split at listed
    · rcases mem_cons.mp listed with rfl | later
      · exact not_mem_nil
      · exact ih later
    · next other =>
        split at listed
        · next empty => exact absurd empty (splitSlash_ne_nil rest)
        · next first others pieces =>
            rcases mem_cons.mp listed with rfl | later
            · rw [mem_cons, not_or]
              exact ⟨fun same => other same.symm, ih (pieces ▸ mem_cons_self)⟩
            · exact ih (pieces ▸ mem_cons_of_mem first later)

/-- The components, each behind a slash, make up the path again. -/
theorem flatMap_splitSlash (path : List UInt8) :
    (splitSlash path).flatMap (fun part => slash :: part) = slash :: path := by
  induction path with
  | nil => rfl
  | cons byte rest ih =>
    unfold splitSlash
    split
    · next same => rw [flatMap_cons, ih, same]; rfl
    · split
      · next empty => exact absurd empty (splitSlash_ne_nil rest)
      · next first others pieces =>
        rw [pieces, flatMap_cons, cons_append, cons.injEq] at ih
        rw [flatMap_cons, cons_append, cons_append, ih.2]

theorem normalParts_plain (listed : part ∈ normalParts path) : PlainName part := by
  have kept : ∀ (pieces : List Name), (∀ piece ∈ pieces, slash ∉ piece) ->
      ∀ parts : List Name, (∀ part ∈ parts, PlainName part) ->
      ∀ part, part ∈ pieces.foldl (fun parts part =>
        if part = [] ∨ part = [dot] then parts
        else if part = [dot, dot] then parts.dropLast
        else parts ++ [part]) parts -> PlainName part := by
    intro pieces single
    induction pieces with
    | nil => exact fun parts plain => plain
    | cons piece rest ih =>
      intro parts plain
      rw [foldl_cons]
      refine ih (fun other among => single other (mem_cons_of_mem _ among)) _ ?_
      intro part listed
      split at listed
      · exact plain part listed
      next ordinary =>
        split at listed
        · exact plain part (dropLast_subset _ listed)
        next other =>
          rcases mem_append.mp listed with before | new
          · exact plain part before
          · rw [mem_singleton.mp new]
            exact ⟨fun same => ordinary (.inl same), fun same => ordinary (.inr same), other,
              single piece mem_cons_self⟩
  exact kept _ (fun _ => not_mem_of_mem_splitSlash) [] nofun part listed

theorem components_parts {parts : List Name} (plain : ∀ part ∈ parts, PlainName part) :
    components (parts.flatMap (fun part => slash :: part)) = parts :=
  components_joined (fun part listed => (plain part listed).nonempty)
    fun part listed => (plain part listed).single

/-- The place of a path is its normal form, name by name. -/
theorem fileKey_eq (path : Text) : fileKey path = (normalParts (encode path)).map foldCase := by
  rw [fileKey, pathKey, normalizePath]
  split
  · next empty =>
      rw [empty]
      rfl
  · rw [components_parts fun _ => normalParts_plain]

theorem normalParts_child {front : List UInt8} {name : Name} (plain : PlainName name) :
    normalParts (front ++ slash :: name) = normalParts front ++ [name] := by
  rw [normalParts, splitSlash_append, splitSlash_of_not_mem plain.single, foldl_append,
    foldl_cons, foldl_nil, if_neg (not_or.mpr ⟨plain.nonempty, plain.notDot⟩),
    if_neg plain.notDotDot, normalParts]

/-- The place of a scratch file. -/
def Scratch (key : List Name) : Prop := key.getLast? = some scratchName

instance (key : List Name) : Decidable (Scratch key) :=
  inferInstanceAs (Decidable (key.getLast? = some scratchName))

theorem scratch_scratchKey (key : List Name) : Scratch (scratchKey key) := getLast?_concat

theorem ne_scratchKey (plain : ¬ Scratch key) (other : List Name) :
    key ≠ scratchKey other := fun same =>
  plain (same ▸ scratch_scratchKey other)

/-- Places that hold what a write of a path changes: its own, and that of the scratch file
beside it. -/
structure Covers (changed : List Name -> Prop) (path : Text) : Prop where
  place : changed (fileKey path)
  scratch : changed (scratchKey (fileKey path))

theorem Covers.rewritten {path : Text} (covers : Covers changed path)
    (here : Rewritten (fileKey path) key) : changed key :=
  here.elim (fun same => same ▸ covers.place) fun same => same ▸ covers.scratch

theorem Covers.mono {wider : List Name -> Prop} {path : Text} (covers : Covers changed path)
    (more : ∀ key, changed key -> wider key) : Covers wider path :=
  ⟨more _ covers.place, more _ covers.scratch⟩

section

variable {path : Text}

section

variable (here : changed (fileKey path))
include here

theorem createFile_keeps : Action.Keeps (Kernel.Changes changed) (vfsKernelCreateFile path) :=
  (createFile_changes path).mono fun changes => changes.mono fun _ same => same ▸ here

theorem createDir_keeps : Action.Keeps (Kernel.Changes changed) (vfsKernelCreateDir path) :=
  (createDir_changes path).mono fun changes => changes.mono fun _ same => same ▸ here

theorem kernelWrite_keeps (data : List UInt8) :
    Action.Keeps (Kernel.Changes changed) (vfsKernelWriteFile path data) :=
  (writeFile_changes path data).mono fun changes => changes.mono fun _ same => same ▸ here

theorem kernelDelete_keeps : Action.Keeps (Kernel.Changes changed) (vfsKernelDelete path) :=
  (kernelDelete_changes path).mono fun changes => changes.mono fun _ same => same ▸ here

end

theorem kernelSafeWrite_keeps (covers : Covers changed path) (data : List UInt8) :
    Action.Keeps (Kernel.Changes changed) (vfsKernelSafeWriteFile path data) :=
  (safeWriteFile_changes path data).mono fun changes => changes.mono fun _ => covers.rewritten

end

/-!
## Normal forms and mounts

A normal form spells the directories that a walk along the path leaves entered.  The mount
that `resolve_mount` reports for it is chosen by another test than the one by which
`fat32_path` sends a path to the FAT volume.
-/

variable (path : List UInt8)

structure MountInfo where
  place : List UInt8
  fsType : List UInt8
  flags : List UInt8
  deriving DecidableEq

def rootMount : MountInfo :=
  ⟨ascii "/", ascii "coolfs", ascii "rw,native-root,normalized-paths,uid-gid-mode"⟩

def mounts : List MountInfo :=
  [rootMount, ⟨ascii "/FAT", ascii "fat32", ascii "rw,legacy-import,optional"⟩,
    ⟨ascii "/DEV", ascii "devfs", ascii "rw,generated-nodes"⟩,
    ⟨ascii "/APPS", ascii "appfs", ascii "rw,manifest-validated"⟩,
    ⟨ascii "/LOGS", ascii "coolfs", ascii "rw,persistent"⟩]

def resolveMount (path : List UInt8) : MountInfo :=
  mounts.foldl (fun best mount =>
    if normalizePath path = mount.place ∨ mount.place ≠ ascii "/" ∧
      mount.place.isPrefixOf (normalizePath path) ∧ mount.place.length > best.place.length
    then mount else best) rootMount

def resolveTaskPath (cwd path : List UInt8) : List UInt8 :=
  if path.head? = some slash then normalizePath path
  else if cwd = ascii "/" then normalizePath (slash :: path)
  else normalizePath (cwd ++ slash :: path)

/-- The directories that have been entered, the last one first. -/
def visit (entered : List Name) (part : Name) : List Name :=
  if part = [dot, dot] then entered.tail else part :: entered

/-- Where a walk along the path leads from the root. -/
def visited (path : List UInt8) : List Name :=
  (((components path).filter (fun part => part != [dot])).foldl visit []).reverse

theorem normalParts_eq : normalParts path = visited path := by
  have walk (pieces entered : List Name) : pieces.foldl (fun parts part =>
        if part = [] ∨ part = [dot] then parts
        else if part = [dot, dot] then parts.dropLast
        else parts ++ [part]) entered.reverse =
      (((pieces.filter (fun piece => !piece.isEmpty)).filter (fun part => part != [dot])).foldl
        visit entered).reverse := by
    induction pieces generalizing entered with
    | nil => rfl
    | cons piece rest ih =>
      rw [foldl_cons, filter_filter, filter_cons, <- filter_filter]
      by_cases skipped : piece = [] ∨ piece = [dot]
      · rw [if_pos skipped, if_neg (by rcases skipped with rfl | rfl <;> decide), ih]
      · have kept : (piece != [dot] && !piece.isEmpty) = true := by
          simpa [not_or, and_comm] using skipped
        rw [if_neg skipped, if_pos kept, foldl_cons, <- ih, visit]
        split
        · rw [dropLast_reverse]
        · rw [reverse_cons]
  exact walk (splitSlash path) []

theorem normalParts_parts {parts : List Name} (plain : ∀ part ∈ parts, PlainName part) :
    normalParts (parts.flatMap (fun part => slash :: part)) = parts := by
  induction parts using reverseRecOn with
  | nil => rfl
  | append_singleton front part ih =>
    rw [flatMap_append, flatMap_singleton,
      normalParts_child (plain part (mem_append_right front mem_cons_self)),
      ih fun other listed => plain other (mem_append_left _ listed)]

theorem normalizePath_again : normalizePath (normalizePath path) = normalizePath path := by
  have same : normalParts (normalizePath path) = normalParts path := by
    rw [normalizePath]
    split
    · next empty =>
        rw [empty]
        rfl
    · exact normalParts_parts fun _ => normalParts_plain
  rw [normalizePath, same, <- normalizePath]

theorem resolveTaskPath_relative {cwd path : List UInt8} (relative : path.head? ≠ some slash) :
    resolveTaskPath cwd path = normalizePath (cwd ++ slash :: path) := by
  rw [resolveTaskPath, if_neg relative]
  split
  · next root =>
      have same : components (cwd ++ slash :: path) = components (slash :: path) := by
        rw [root, components_append, <- nil_append (slash :: path), components_append]
        rfl
      rw [normalizePath, normalizePath, normalParts_eq, normalParts_eq, visited, visited, same]
  · rfl

/-!
## Spellings

How the components of a path are put together: a name is entered where it stands, and
between the names there may be detours, which lead back to where they start.
-/

/-- A component that enters a directory or a file. -/
def Steps (name : Name) : Prop := ¬ (name = [] ∨ name = [dot]) ∧ name ≠ [dot, dot]

/-- Empty components and dots, and names that two dots take back. -/
inductive Detour : List Name -> Prop
  | none : Detour []
  | idle {part : Name} {rest : List Name} (skipped : part = [] ∨ part = [dot])
      (more : Detour rest) : Detour (part :: rest)
  | back {name : Name} {inner rest : List Name} (steps : Steps name) (within : Detour inner)
      (more : Detour rest) : Detour (name :: (inner ++ [dot, dot] :: rest))

/-- Detours at the root, where two dots lead nowhere. -/
inductive RootDetour : List Name -> Prop
  | detour {parts : List Name} (within : Detour parts) : RootDetour parts
  | top {front rest : List Name} (within : Detour front) (more : RootDetour rest) :
      RootDetour (front ++ [dot, dot] :: rest)

/-- The components spell some names: after detours at the root, each name followed by a
detour. -/
inductive Spells : List Name -> List Name -> Prop
  | root {parts : List Name} (within : RootDetour parts) : Spells parts []
  | enter {parts names rest : List Name} {name : Name} (before : Spells parts names)
      (steps : Steps name) (within : Detour rest) : Spells (parts ++ name :: rest) (names ++ [name])

section

variable {parts names first second : List Name}

theorem Detour.append (one : Detour first) (two : Detour second) : Detour (first ++ second) := by
  induction one with
  | none => exact two
  | idle skipped _ ih => exact .idle skipped ih
  | @back name inner rest steps within _ _ ih =>
    rw [cons_append, append_assoc, cons_append]
    exact .back steps within ih

theorem RootDetour.append (one : RootDetour first) (two : RootDetour second) :
    RootDetour (first ++ second) := by
  induction one with
  | detour within =>
    cases two with
    | detour more => exact .detour (within.append more)
    | top front more =>
      rw [<- append_assoc]
      exact .top (within.append front) more
  | top within _ ih =>
    rw [append_assoc, cons_append]
    exact .top within ih

theorem Spells.append (spelled : Spells parts names) (detour : Detour second) :
    Spells (parts ++ second) names := by
  cases spelled with
  | root within => exact .root (within.append (.detour detour))
  | enter before steps within =>
    rw [append_assoc, cons_append]
    exact .enter before steps (within.append detour)

/-- One turn of the loop of `normalize_path`. -/
def normalStep (parts : List Name) (part : Name) : List Name :=
  if part = [] ∨ part = [dot] then parts
  else if part = [dot, dot] then parts.dropLast
  else parts ++ [part]

theorem Spells.step (spelled : Spells parts names) (part : Name) :
    Spells (parts ++ [part]) (normalStep names part) := by
  unfold normalStep
  split
  · next skipped => exact spelled.append (.idle skipped .none)
  next ordinary =>
  split
  · next up =>
    subst up
    cases spelled with
    | root within => exact .root (within.append (.top .none (.detour .none)))
    | enter before steps within =>
      rw [dropLast_concat, append_assoc, cons_append]
      exact before.append (.back steps within .none)
  · next other => exact .enter spelled ⟨ordinary, other⟩ .none

theorem foldl_detour (detour : Detour parts) (names : List Name) :
    parts.foldl normalStep names = names := by
  induction detour generalizing names with
  | none => rfl
  | idle skipped _ ih =>
    rw [foldl_cons, normalStep, if_pos skipped, ih]
  | @back name _ _ steps _ _ inner rest =>
    have entered : normalStep names name = names ++ [name] := by
      rw [normalStep, if_neg steps.1, if_neg steps.2]
    have left : normalStep (names ++ [name]) [dot, dot] = names := dropLast_concat
    rw [foldl_cons, foldl_append, foldl_cons, entered, inner, left, rest]

theorem foldl_rootDetour (detour : RootDetour parts) : parts.foldl normalStep [] = [] := by
  induction detour with
  | detour within => exact foldl_detour within []
  | top within _ ih =>
    rw [foldl_append, foldl_detour within]
    exact ih

/-- The loop gives the names that are spelled, and nothing else is spelled. -/
theorem spells_iff (parts names : List Name) :
    Spells parts names <-> parts.foldl normalStep [] = names := by
  constructor
  · intro spelled
    induction spelled with
    | root within => exact foldl_rootDetour within
    | enter _ steps within ih =>
      rw [foldl_append, ih, foldl_cons, foldl_detour within, normalStep, if_neg steps.1,
        if_neg steps.2]
  · rintro rfl
    induction parts using reverseRecOn with
    | nil => exact .root (.detour .none)
    | append_singleton front part ih =>
      rw [foldl_append]
      exact ih.step part

end

/-- The mount of the FAT volume is reported for what begins with its name. -/
theorem resolveMount_fat : (resolveMount path).fsType = ascii "fat32" <->
    ∃ rest, normalizePath path = ascii "/FAT" ++ rest := by
  constructor
  · have place : ∀ mount ∈ mounts, mount.fsType = ascii "fat32" ->
      mount.place = ascii "/FAT" := by decide
    unfold resolveMount
    refine @foldlRecOn _ _ (fun best : MountInfo => best.fsType = ascii "fat32" ->
      ∃ rest, normalizePath path = ascii "/FAT" ++ rest) mounts _ _ ?_ ?_
    · exact fun fat => absurd fat (by decide)
    intro best held mount listed
    split
    · next chosen =>
        intro fat
        rw [place mount listed fat] at chosen
        rcases chosen with same | ⟨_, within, _⟩
        · exact ⟨[], same.trans (append_nil _).symm⟩
        · exact ( isPrefixOf_iff_prefix.mp within).imp fun _ => Eq.symm
    · exact held
  · rintro ⟨rest, same⟩
    have fat : ascii "/FAT" = [47, 70, 65, 84] := by decide
    have dev : ascii "/DEV" = [47, 68, 69, 86] := by decide
    have apps : ascii "/APPS" = [47, 65, 80, 80, 83] := by decide
    have logs : ascii "/LOGS" = [47, 76, 79, 71, 83] := by decide
    have root : ascii "/" = [47] := by decide
    unfold resolveMount
    rw [same]
    simp [mounts, rootMount, fat, dev, apps, logs, root]

/-- A path has one normal form, which spells the walk along the path and is served by the
volume of the mount that is reported for it. -/
structure Canonical (path : List UInt8) : Prop where
  plain : ∀ part ∈ visited path, PlainName part
  spells : normalizePath path =
    if visited path = [] then [slash] else (visited path).flatMap (fun part => slash :: part)
  again : normalizePath (normalizePath path) = normalizePath path
  relative : forall cwd relative, cwd.head? = some slash -> relative.head? ≠ some slash ->
    resolveTaskPath cwd relative = normalizePath (cwd ++ slash :: relative)
  served : (resolveMount path).fsType = ascii "fat32" <-> onFat (normalizePath path) = true

/-- The form of a path is canonical unless it goes on after `/FAT` with more of a name: such a path
is said to be on the FAT volume, and is not. -/
theorem normalizePath_canonical_iff (path : List UInt8) : Canonical path <->
    forall byte rest, normalizePath path = ascii "/FAT" ++ byte :: rest -> byte = slash := by
  have slashed : ascii "/FAT/" = ascii "/FAT" ++ [slash] := by decide
  have onFat_iff : onFat (normalizePath path) = true <-> normalizePath path = ascii "/FAT" ∨
      Exists fun rest => normalizePath path = ascii "/FAT" ++ slash :: rest := by
    rw [onFat, Bool.or_eq_true, beq_iff_eq, isPrefixOf_iff_prefix, slashed]
    exact or_congr Iff.rfl (exists_congr fun rest => by rw [append_assoc]; exact eq_comm)
  constructor
  · intro canonical byte rest same
    have fat := canonical.served.mp ((resolveMount_fat path).mpr ⟨_, same⟩)
    rw [onFat_iff, same] at fat
    rcases fat with short | ⟨other, longer⟩
    · exact absurd (append_right_eq_self.mp short) (cons_ne_nil _ _)
    · exact (cons.inj (append_cancel_left longer)).1
  · intro slashes
    refine ⟨?_, ?_, normalizePath_again path, fun _ _ _ => resolveTaskPath_relative, ?_⟩
    · rw [<- normalParts_eq]
      exact fun part => normalParts_plain
    · rw [<- normalParts_eq, normalizePath]
    · rw [resolveMount_fat, onFat_iff]
      constructor
      · rintro ⟨rest, same⟩
        cases rest with
        | nil => exact .inl (same.trans (append_nil _))
        | cons byte rest => exact .inr ⟨rest, slashes byte rest same ▸ same⟩
      · rintro (same | ⟨rest, same⟩)
        · exact ⟨[], same.trans (append_nil _).symm⟩
        · exact ⟨_, same⟩

/-- A directory whose name begins like that of the mount. -/
theorem fats_reported_on_fat : (resolveMount (ascii "/FATS/a")).fsType = ascii "fat32" ∧
    onFat (normalizePath (ascii "/FATS/a")) = false := by
  decide

open Naming Action

/-!
## Calls that do what they should

As long as no call fails for a reason outside the table, a call does what it is asked
for when the table allows it.  A safe write needs a directory above its path, and no
directory at its path or in the place of its scratch file.
-/

namespace FileTable

variable {table : FileTable} {path : List UInt8}
  (cut : splitParentAndName path = .ok (parent, name))
include cut

end FileTable

/-- No call fails for a reason outside the table. -/
def Reliable (kernel : Kernel) : Prop := forall time, kernel.faults time = none

section

variable {path : Text} {after : Kernel}

theorem readFile_value {Failure : Type} {known : Option (List UInt8)} (reliable : Reliable kernel)
    (rooted : Rooted path)
    (ran : (vfsKernelReadFile path kernel : Except Failure _ × Kernel) = (.ok known, after)) :
    known = kernel.contents path := by
  have outcome : (vfsKernelReadFile path kernel : Except Failure _ × Kernel).1 = _ :=
    readFile_reliable rooted (reliable kernel.clock)
  rw [ran] at outcome
  exact Except.ok.inj outcome

end

end CoolOs.Files
