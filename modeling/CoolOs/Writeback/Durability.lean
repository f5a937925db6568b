import CoolOs.CoolFs.Refinement
import CoolOs.Files.Kernel

namespace CoolOs.Writeback

open Actions BlockStore CoolFs Files Naming Text Action

/-!
# The write-back path of the root file system

Mutations change blocks in the cache only.  What has to reach the disk is recorded in
three places: the dirty marks of the cached blocks, the dirty flag of the volume, and the
queue of the write-back worker.  The periodic flushes, the worker and the barrier all write
the journal and then the cache.
-/

@[simp] abbrev maxPending : Nat := 24
@[simp] abbrev maxJournal : Nat := 80

structure WritebackItem where
  kind : List UInt8
  path : List UInt8
  tick : Nat

/-- The settings the write-back path reads. -/
structure Settings where
  loaded : Bool
  storageWritebackEnabled : Bool

/-- The root file system.  While no image is loaded the cache is empty. -/
structure System where
  image : Option Superblock
  cached : Cached
  dirty : Bool
  journal : List (List UInt8)
  pending : List WritebackItem
  settings : Settings
  heapReady : Bool
  ticks : Nat

abbrev Call := Action System FsError

/-- The check that begins `enqueue`, `barrier` and `drain`. -/
def bypassed (system : System) : Bool :=
  system.settings.loaded && !system.settings.storageWritebackEnabled

def ensureImage : Call Superblock := fun system =>
  match system.image with
  | some sb => (.ok sb, system)
  | none =>
    match loadOrFormat system.cached.disk with
    | (.error failure, disk) =>
      (.error failure, { system with cached := { cache := .new, disk := disk } })
    | (.ok (sb, cache), disk) =>
      (.ok sb, { system with image := some sb, cached := { cache := cache, disk := disk } })

def onImage {Result : Type} (program : Fallible Result) : Call Result := fun system =>
  ((exec Cached.device program system.cached).1,
    { system with cached := (exec Cached.device program system.cached).2 })

def withImageResult {Result : Type} (program : Superblock -> Fallible Result) : Call Result := do
  let sb <- ensureImage
  onImage (program sb)

/-- `with_image_option`; what it finds is the caller's. -/
def withImageOption {Result : Type} (program : Superblock -> Optional Result) :
    Call (Except FsError Result) :=
  Action.attempt (withImageResult fun sb => okOr (program sb) .io)

def journalDir : List UInt8 := ascii "/LOGS"
def journalPath : List UInt8 := ascii "/LOGS/FSJOURNAL.TXT"

def journalOperation (op path : List UInt8) (system : System) : System :=
  if namesEqual path journalPath || namesEqual path journalDir then system
  else
    let line := encode (Nat.toDigits 10 system.ticks) ++ ascii "  " ++ op ++ ascii "  " ++ path
    let journal := system.journal ++ [line]
    { system with journal := if maxJournal < journal.length then journal.drop 1 else journal }

def enqueue (kind path : List UInt8) (system : System) : System :=
  if !system.heapReady || bypassed system then system
  else
    let kept := if maxPending <= system.pending.length then system.pending.drop 1
      else system.pending
    { system with pending := kept ++ [{ kind := kind, path := path, tick := system.ticks }] }

def recordMutation (kind path : List UInt8) (system : System) : System :=
  let path := normalizePath path
  enqueue kind path (journalOperation kind path { system with dirty := true })

/-- The text a mutation is recorded under. -/
def kindOf : Mutation -> List UInt8
  | .createFile .. => ascii "coolfs-create-file"
  | .createDir .. => ascii "coolfs-create-dir"
  | .writeFile .. => ascii "coolfs-write"
  | .deleteFile .. => ascii "coolfs-delete"
  | .rename .. => ascii "coolfs-rename"
  | .chmod .. => ascii "coolfs-chmod"
  | .chown .. => ascii "coolfs-chown"

/-- Only a rename has something to check before it takes the image. -/
def checkedFirst : Mutation -> Except FsError Unit
  | .rename _ newName => validateName newName
  | _ => .ok ()

/-- A rename that changes at most the case of the name writes nothing and is not recorded. -/
def isRecorded : Mutation -> Bool
  | .rename path newName =>
    match splitParentAndName path with
    | .ok (_, oldName) => !namesEqual oldName newName
    | .error _ => true
  | _ => true

/-- The calls that change the volume. -/
def mutate (mutation : Mutation) : Call Unit := do
  Action.settle (checkedFirst mutation)
  withImageResult mutation.program
  if isRecorded mutation then Action.modify (recordMutation (kindOf mutation) mutation.path)
  else return ()

def coolfsFlush : Call Unit := do
  if <- observe System.dirty then
    match <- observe System.image with
    | none => Action.modify (fun system => { system with dirty := false })
    | some _ =>
      fun system =>
        match Cached.flush system.cached with
        | (.error failure, cached) => (.error failure, { system with cached := cached })
        | (.ok (), cached) => (.ok (), { system with cached := cached, dirty := false })
  else return ()

def trimCleanCache (keepBlocks : Nat) (system : System) : System :=
  match system.image with
  | none => system
  | some _ => { system with cached := (Cached.trimClean keepBlocks system.cached).2 }

/-- The journal is no file of a home directory, so it belongs to the administrator. -/
def flushJournal : Call Unit := do
  let _ <- (Action.attempt (mutate makeDir) : Call (Except FsError Unit))
  match <- (Action.attempt (mutate makeFile) : Call (Except FsError Unit)) with
  | .ok _ => writeJournal
  | .error .alreadyExists => writeJournal
  | .error err => Action.fail err
where
  makeDir : Mutation := .createDir journalDir Files.rootUid Files.rootGid defaultDirMode
  makeFile : Mutation := .createFile journalPath Files.rootUid Files.rootGid defaultFileMode
  writeJournal : Call Unit := do
    let lines <- observe System.journal
    mutate (.writeFile journalPath (lines.flatMap (fun line => line ++ ascii "\n")))

def flush : Call Unit := do
  flushJournal
  coolfsFlush

/-- What the barrier reports when it fails. -/
def barrierFailed : List UInt8 := ascii "writeback barrier failed"

/-- `barrier`, which is all of the `sync` system call. -/
def barrier : Action System (List UInt8) Unit := do
  if <- observe bypassed then return ()
  else mapError (fun _ => barrierFailed) flush

/-- The worker's loop; it counts what it has taken from the queue. -/
def drainLoop : Nat -> System -> Nat × System
  | 0, system => (0, system)
  | rounds + 1, system =>
    match system.pending with
    | [] => (0, system)
    | _ :: rest =>
      let drained := drainLoop rounds (flush { system with pending := rest }).2
      (drained.1 + 1, drained.2)

def drain (maxItems : Nat) (system : System) : Nat × System :=
  if bypassed system then (0, system) else drainLoop maxItems system

/-- The machine as it starts from the sectors of a disk. -/
def boot (heapReady : Bool) (disk : Disk) : System where
  image := none
  cached := { cache := .new, disk := disk }
  dirty := false
  journal := []
  pending := []
  settings := { loaded := false, storageWritebackEnabled := true }
  heapReady := heapReady
  ticks := 0

/-- What happens between two barriers: mutations and queries, the deferred flush and the
worker, the trimming of the cache, other barriers, a change of the settings, a line put
into the journal, and time. -/
inductive Event where
  | mutate (mutation : Mutation)
  | listDir (path : List UInt8)
  | readFile (path : List UInt8)
  | metadata (path : List UInt8)
  | flush
  | drain (maxItems : Nat)
  | trim (keepBlocks : Nat)
  | barrier
  | configure (settings : Settings)
  | journal (op path : List UInt8)
  | heap
  | elapse (ticks : Nat)

/-- The system after an event, whatever the event returns. -/
def Event.perform (system : System) : Event -> System
  | .mutate mutation => (Writeback.mutate mutation system).2
  | .listDir path => (withImageOption (fun sb => CoolFs.listDir sb path) system).2
  | .readFile path => (withImageOption (fun sb => CoolFs.readFile sb path) system).2
  | .metadata path => (withImageOption (fun sb => CoolFs.metadata sb path) system).2
  | .flush => (Writeback.flush system).2
  | .drain maxItems => (Writeback.drain maxItems system).2
  | .trim keepBlocks => trimCleanCache keepBlocks system
  | .barrier => (Writeback.barrier system).2
  | .configure settings => { system with settings := settings }
  | .journal op path => journalOperation op path system
  | .heap => { system with heapReady := true }
  | .elapse ticks => { system with ticks := system.ticks + ticks }

def run (system : System) (events : List Event) : System :=
  events.foldl Event.perform system

/-!
## When a barrier is durable

A system is durable when a machine that starts from its sectors sees every block the
running one sees.  The barrier makes it so, because the journal it writes first leaves the
volume marked dirty and the flush behind it takes every dirty block along; with the
write-back setting off it succeeds without doing anything.
-/

def restart (system : System) : System := boot system.heapReady system.cached.disk

def Durable (system : System) : Prop :=
  forall block, (restart system).cached.logical block = system.cached.logical block

/-- Every dirty block of the cache is on the disk already. -/
def Settled (system : System) : Prop :=
  ∀ entry ∈ system.cached.cache.entries, entry.dirty = true ->
    entry.data = system.cached.disk.block entry.block

variable {disk : Disk} {cache : BlockCache} {sb : Superblock}

theorem durable_iff {system : System} : Durable system <->
      ∀ block, system.cached.disk.block block = system.cached.logical block := .rfl

theorem durable_iff_settled {system : System} (coherent : system.cached.Coherent) :
    Durable system <-> Settled system := by
  rw [durable_iff]
  constructor
  · intro durable entry member _
    rw [durable entry.block, Cached.logical_of_mem coherent.distinct member]
  · intro settled block
    by_cases known : ∃ entry ∈ system.cached.cache.entries, entry.block = block
    · rcases known with ⟨entry, member, here⟩
      rw [<- here, Cached.logical_of_mem coherent.distinct member]
      cases marked : entry.dirty with
      | true => exact (settled entry member marked).symm
      | false => exact (coherent.clean entry member marked).symm
    · rw [Cached.logical_of_forall_ne (fun entry member here => known ⟨entry, member, here⟩)]

variable {system after : System} {Result : Type}

theorem exec_coherent (program : Fallible Result) {state : Cached}
    (coherent : state.Coherent) : (exec Cached.device program state).2.Coherent :=
  @Program.run_keeps _ _ _ _ Cached.device Cached.Coherent
    (fun _ _ before => (Cached.get_spec before.shows (Prod.eta _).symm).1.coherent)
    (fun _ _ _ before => (Cached.getMut_spec before.shows (Prod.eta _).symm).1.coherent)
    program.run state coherent

theorem empty_coherent (disk : Disk) : Cached.Coherent { cache := .new, disk := disk } :=
  (Cached.Traced.faithful_empty disk).coherent

/-- The cache of a loaded superblock, over a disk whose sectors are those it was read from. -/
theorem superblock_read {after : Disk} {first : Block}
    (read : readDiskBlock 0 disk = (.ok first, after)) :
    first = after.block 0 ∧ after.block = disk.block := by
  have spec := readDiskBlock_spec read
  have blocks := Disk.block_congr spec.sectors
  exact ⟨(spec.data first rfl).trans (congrFun blocks 0).symm, blocks⟩

theorem formatAndFlush_coherent {after : Disk}
    (loaded : loadOrFormat.formatAndFlush disk = (.ok (sb, cache), after)) :
    Cached.Coherent { cache := cache, disk := after } := by
  unfold loadOrFormat.formatAndFlush at loaded
  have formatted := exec_coherent formatImage (empty_coherent disk)
  rcases outcome : exec Cached.device formatImage { cache := .new, disk := disk } with
    ⟨failure | done, state⟩
  · rw [outcome] at loaded
    cases loaded
  · rw [outcome] at loaded formatted
    dsimp only at loaded
    rcases stored : Cached.flush state with ⟨failure | written, reached⟩
    · rw [stored] at loaded
      cases loaded
    · rw [stored] at loaded
      cases loaded
      exact (Cached.flush_spec formatted.shows stored).1.coherent

theorem loadOrFormat_coherent {after : Disk} (loaded : loadOrFormat disk = (.ok (sb, cache), after))
    : Cached.Coherent { cache := cache, disk := after } := by
  unfold loadOrFormat at loaded
  rcases read : readDiskBlock 0 disk with ⟨failure | first, reached⟩
  · rw [read] at loaded
    cases loaded
  · rw [read] at loaded
    dsimp only at loaded
    split at loaded
    · exact formatAndFlush_coherent loaded
    · split at loaded
      · cases loaded
        rw [(superblock_read read).1]
        exact (Cached.Traced.faithful_mounted _).coherent
      · exact formatAndFlush_coherent loaded

/-- A step keeps the cache coherent. -/
def Guards (before after : System) : Prop := before.cached.Coherent -> after.cached.Coherent

instance : Chain Guards where
  refl _ coherent := coherent
  trans first second coherent := second (first coherent)

theorem ensureImage_guards : Keeps Guards ensureImage := by
  intro system coherent
  unfold ensureImage
  cases system.image with
  | some sb => exact coherent
  | none =>
    rcases loaded : loadOrFormat system.cached.disk with ⟨failure | ⟨sb, cache⟩, disk⟩
    · exact empty_coherent disk
    · exact loadOrFormat_coherent loaded

theorem withImageResult_guards (program : Superblock -> Fallible Result) :
    Keeps Guards (withImageResult program) :=
  ensureImage_guards.bind fun sb _ => exec_coherent (program sb)

theorem withImageOption_guards (program : Superblock -> Optional Result) :
    Keeps Guards (withImageOption program) := (withImageResult_guards _).attempt

theorem journalOperation_cached (op path : List UInt8) (system : System) :
    (journalOperation op path system).cached = system.cached ∧
      (journalOperation op path system).image = system.image ∧
      (journalOperation op path system).dirty = system.dirty := by
  unfold journalOperation
  split
  · exact ⟨rfl, rfl, rfl⟩
  · exact ⟨rfl, rfl, rfl⟩

theorem enqueue_cached (kind path : List UInt8) (system : System) :
    (enqueue kind path system).cached = system.cached ∧
      (enqueue kind path system).image = system.image ∧
      (enqueue kind path system).dirty = system.dirty := by
  unfold enqueue
  split
  · exact ⟨rfl, rfl, rfl⟩
  · exact ⟨rfl, rfl, rfl⟩

/-- Recording marks the volume dirty and leaves image and cache alone. -/
theorem recordMutation_marks (kind path : List UInt8) (system : System) :
    (recordMutation kind path system).cached = system.cached ∧
      (recordMutation kind path system).image = system.image ∧
      (recordMutation kind path system).dirty = true := by
  have queued := enqueue_cached kind (normalizePath path)
    (journalOperation kind (normalizePath path) { system with dirty := true })
  have noted := journalOperation_cached kind (normalizePath path) { system with dirty := true }
  exact ⟨queued.1.trans noted.1, queued.2.1.trans noted.2.1, queued.2.2.trans noted.2.2⟩

theorem mutate_guards (mutation : Mutation) : Keeps Guards (mutate mutation) := by
  refine (keeps_settle _).bind fun _ => (withImageResult_guards _).bind fun _ => ?_
  split
  · refine keeps_modify fun system coherent => ?_
    rw [(recordMutation_marks _ _ system).1]
    exact coherent
  · exact keeps_pure _

theorem coolfsFlush_guards : Keeps Guards coolfsFlush := by
  refine (keeps_observe _).bind fun dirty => ?_
  cases dirty with
  | false => exact keeps_pure _
  | true =>
    refine (keeps_observe _).bind fun image => ?_
    cases image with
    | none => exact keeps_modify fun _ coherent => coherent
    | some sb =>
      intro system coherent
      dsimp only
      rcases written : Cached.flush system.cached with ⟨failure | done, cached⟩
      · exact (Cached.flush_spec coherent.shows written).1.coherent
      · exact (Cached.flush_spec coherent.shows written).1.coherent

theorem flushJournal_guards : Keeps Guards flushJournal := by
  have rest : Keeps Guards flushJournal.writeJournal :=
    (keeps_observe _).bind fun _ => mutate_guards _
  refine (mutate_guards _).attempt.bind fun _ => (mutate_guards _).attempt.bind fun made => ?_
  split
  · exact rest
  · exact rest
  · exact keeps_fail _

theorem flush_guards : Keeps Guards flush := flushJournal_guards.bind fun _ => coolfsFlush_guards

theorem barrier_guards : Keeps Guards barrier := by
  refine (keeps_observe _).bind fun bypass => ?_
  cases bypass with
  | true => exact keeps_pure _
  | false => exact flush_guards.mapError _

theorem drainLoop_guards (rounds : Nat) (system : System) :
    Guards system (drainLoop rounds system).2 := by
  induction rounds generalizing system with
  | zero => exact id
  | succ rounds ih =>
    unfold drainLoop
    cases system.pending with
    | nil => exact id
    | cons item rest => exact fun coherent => ih _ (flush_guards _ coherent)

theorem drain_guards (maxItems : Nat) (system : System) :
    Guards system (drain maxItems system).2 := by
  unfold drain
  split
  · exact id
  · exact drainLoop_guards maxItems system

theorem trimCleanCache_guards (keepBlocks : Nat) (system : System) :
    Guards system (trimCleanCache keepBlocks system) := by
  unfold trimCleanCache
  cases system.image with
  | none => exact id
  | some sb => exact fun coherent => (Cached.trimClean_steady keepBlocks coherent.shows).coherent

/-- One event keeps the cache coherent, whether it succeeds or fails. -/
theorem perform_guards (event : Event) (system : System) :
    Guards system (event.perform system) := by
  cases event with
  | mutate mutation => exact mutate_guards mutation system
  | listDir path => exact withImageOption_guards _ system
  | readFile path => exact withImageOption_guards _ system
  | metadata path => exact withImageOption_guards _ system
  | flush => exact flush_guards system
  | drain maxItems => exact drain_guards maxItems system
  | trim keepBlocks => exact trimCleanCache_guards keepBlocks system
  | barrier => exact barrier_guards system
  | configure settings => exact id
  | journal op path =>
    intro coherent
    change (journalOperation op path system).cached.Coherent
    rw [(journalOperation_cached op path system).1]
    exact coherent
  | heap => exact id
  | elapse ticks => exact id

theorem run_guards (events : List Event) (system : System) : Guards system (run system events) := by
  induction events generalizing system with
  | nil => exact id
  | cons event rest ih => exact fun coherent => ih _ (perform_guards event system coherent)

theorem run_coherent (heapReady : Bool) (disk : Disk) (events : List Event) :
    (run (boot heapReady disk) events).cached.Coherent := run_guards events _ (empty_coherent disk)

theorem ensureImage_ok (ran : ensureImage system = (.ok sb, after)) : after.image = some sb := by
  unfold ensureImage at ran
  split at ran
  next known =>
    cases ran
    exact known
  next =>
    split at ran
    · cases ran
    · cases ran
      rfl

/-- A recorded mutation that succeeds leaves a loaded volume that is marked dirty. -/
theorem mutate_ok {mutation : Mutation} (recorded : isRecorded mutation = true)
    (ran : mutate mutation system = (.ok (), after)) : after.image ≠ none ∧ after.dirty = true := by
  rcases bind_ok ran with ⟨_, checked, _, ran⟩
  rcases bind_ok ran with ⟨_, changed, withImage, ran⟩
  rcases bind_ok withImage with ⟨sb, loaded, ensured, executed⟩
  have known := ensureImage_ok ensured
  rw [if_pos recorded] at ran
  have marked := recordMutation_marks (kindOf mutation) mutation.path changed
  cases ran
  refine ⟨?_, marked.2.2⟩
  rw [marked.2.1, <- (Prod.mk.inj executed).2]
  rw [known]
  exact Option.some_ne_none sb

theorem writeJournal_ok (ran : flushJournal.writeJournal system = (.ok (), after)) :
    after.image ≠ none ∧ after.dirty = true := by
  rcases bind_ok ran with ⟨_, _, _, written⟩
  exact mutate_ok rfl written

theorem flushJournal_ok (ran : flushJournal system = (.ok (), after)) :
    after.image ≠ none ∧ after.dirty = true := by
  rcases bind_ok ran with ⟨_, _, _, ran⟩
  rcases bind_ok ran with ⟨made, _, _, ran⟩
  split at ran
  · exact writeJournal_ok ran
  · exact writeJournal_ok ran
  · cases ran

/-- A flush of a dirty, loaded volume that succeeds writes every dirty block back. -/
theorem coolfsFlush_ok (coherent : system.cached.Coherent) (loaded : system.image ≠ none)
    (dirty : system.dirty = true) (ran : coolfsFlush system = (.ok (), after)) : Durable after := by
  rcases bind_ok ran with ⟨marked, _, observed, ran⟩
  cases observed
  rw [if_pos dirty] at ran
  rcases bind_ok ran with ⟨image, _, observed, ran⟩
  cases observed
  cases known : system.image with
  | none => exact absurd known loaded
  | some sb =>
    rw [known] at ran
    dsimp only at ran
    rw [durable_iff]
    rcases outcome : Cached.flush system.cached with ⟨failure | done, cached⟩
    · rw [outcome] at ran
      cases ran
    · rw [outcome] at ran
      cases ran
      rcases Cached.flush_spec coherent.shows outcome with ⟨steady, stored, _⟩
      exact fun block => (stored rfl block).trans (steady.shows.logical block).symm

theorem flush_ok (coherent : system.cached.Coherent)
    (ran : flush system = (.ok (), after)) : Durable after := by
  rcases bind_ok ran with ⟨_, between, journal, ran⟩
  rcases flushJournal_ok journal with ⟨loaded, dirty⟩
  exact coolfsFlush_ok (flushJournal_guards.ran journal coherent) loaded dirty ran

/-- A machine that starts from the sectors of a durable system, and can read a superblock
there that `load_or_format` accepts, sees every block as the durable system did. -/
theorem Durable.reload {known : Superblock} (durable : Durable system)
    (parsed : Superblock.parse (system.cached.logical 0) = some known)
    (sized : 1024 <= known.totalBlocks ∧ known.totalBlocks <= totalBlocks)
    (loaded : ensureImage (restart system) = (.ok sb, after)) :
    sb = known ∧ forall block, after.cached.logical block = system.cached.logical block := by
  change (match loadOrFormat system.cached.disk with
    | (.error failure, disk) => _
    | (.ok (sb, cache), disk) => _) = _ at loaded
  unfold loadOrFormat at loaded
  rcases read : readDiskBlock 0 system.cached.disk with ⟨failure | first, reached⟩
  · rw [read] at loaded
    cases loaded
  · rcases superblock_read read with ⟨same, blocks⟩
    have shown : first = system.cached.logical 0 := by
      rw [same, blocks, durable_iff.mp durable 0]
    rw [read] at loaded
    dsimp only at loaded
    rw [shown, parsed] at loaded
    dsimp only at loaded
    rw [if_pos sized] at loaded
    cases loaded
    refine ⟨rfl, fun block => ?_⟩
    rw [<- shown, same]
    change (Cached.Traced.mounted reached).state.logical block = _
    rw [(Cached.Traced.faithful_mounted reached).expected block]
    exact (congrFun blocks block).trans (durable_iff.mp durable block)

theorem reload_flushed : ∃ disk after, ensureImage (restart (boot true disk)) = (.ok .new, after) ∧
    ∀ block, after.cached.logical block = (boot true disk).cached.logical block := by
  have flushed : ∃ disk, (ensureImage (restart (boot true disk))).1.isOk = true ∧
      Superblock.parse (disk.block 0) = some .new :=
    ⟨(runCalls blankDisk [.flush]).disk, by decide +kernel, by decide +kernel⟩
  rcases flushed with ⟨disk, works, parsed⟩
  have durable : Durable (boot true disk) := fun _ => rfl
  rcases loaded : ensureImage (restart (boot true disk)) with ⟨_ | sb, after⟩
  · rw [loaded] at works
    cases works
  · rcases durable.reload parsed (by decide) loaded with ⟨rfl, same⟩
    exact ⟨disk, after, loaded, same⟩

/-- After any run, on any disk, a barrier that succeeds leaves the system durable exactly when
the write-back setting lets it flush, or there was nothing left to write. -/
theorem barrier_durable_iff (heapReady : Bool) (disk : Disk) (events : List Event)
    (after : System) (passed : barrier (run (boot heapReady disk) events) = (.ok (), after)) :
    Durable after <-> bypassed (run (boot heapReady disk) events) = false ∨
        Settled (run (boot heapReady disk) events) := by
  have coherent := run_coherent heapReady disk events
  generalize run (boot heapReady disk) events = system at coherent passed
  rcases bind_ok passed with ⟨bypass, _, observed, rest⟩
  cases observed
  cases setting : bypassed system with
  | true =>
    rw [setting, if_pos rfl] at rest
    cases rest
    rw [durable_iff_settled coherent]
    exact ⟨.inr, fun either => either.resolve_left nofun⟩
  | false =>
    rw [setting] at rest
    exact ⟨fun _ => .inl rfl, fun _ => flush_ok coherent (mapError_ok rest)⟩

/-- A disk that was formatted before: the first barrier on a blank one does that. -/
def formattedDisk : Disk := (barrier (boot true blankDisk)).2.cached.disk

def directoryCreated : Event := .mutate (.createDir (ascii "/A") 0 0 0o755)

/-- The first barrier after a directory was created writes it to the disk. -/
theorem first_barrier_durable :
    (barrier (run (boot true formattedDisk) [directoryCreated])).1 = .ok () ∧
      Durable (barrier (run (boot true formattedDisk) [directoryCreated])).2 := by
  have passed : (barrier (run (boot true formattedDisk) [directoryCreated])).1 = .ok () := by
    decide +kernel
  have free : bypassed (run (boot true formattedDisk) [directoryCreated]) = false := by
    decide +kernel
  rcases ran : barrier (run (boot true formattedDisk) [directoryCreated]) with ⟨outcome, after⟩
  rw [ran] at passed
  cases passed
  exact ⟨rfl, (barrier_durable_iff true formattedDisk [directoryCreated] after ran).mpr (.inl free)⟩

/-- With the setting off, a directory is created and the barrier passes, and the disk still
has no inode for it. -/
theorem barrier_skips_disk : Exists fun events : List Event =>
    (mutate (.createDir (ascii "/A") 0 0 0o755) (run (boot true formattedDisk) events)).1 = .ok () ∧
      (barrier (run (boot true formattedDisk) (events ++ [directoryCreated]))).1 = .ok () ∧
      ¬ Durable (barrier (run (boot true formattedDisk) (events ++ [directoryCreated]))).2 := by
  refine ⟨[.configure { loaded := true, storageWritebackEnabled := false }], ?_, ?_, ?_⟩
  · decide +kernel
  · decide +kernel
  · intro durable
    have inode := congrFun (durable 1) (Fin.ofNat 4096 768)
    revert inode
    decide +kernel

end CoolOs.Writeback
