import CoolOs.CoolFs.CacheTransparency
import CoolOs.CoolFs.Lookup

namespace CoolOs.CoolFs

open BlockStore List Naming Image Function

/-!
# The mounted volume

On a device that does not fail, the cache answers every request as the flat
store does.  A program therefore has the same outcome on the mounted volume as
on its contents, and whatever is shown about the contents holds for the cache
in front of the disk.
-/

/-- A disk of zeros that does not fail. -/
def blankDisk : Disk where
  sectors := fun _ _ => 0
  reads := fun _ => true
  writes := fun _ => .stored

theorem blankDisk_reliable : blankDisk.Reliable := ⟨fun _ => rfl, fun _ => rfl⟩

namespace Cached

/-- A coherent cache over a device that does not fail.  Its entries are blocks
of the volume, so they can be written back. -/
structure Ready (state : Cached) : Prop where
  coherent : Coherent state
  reliable : state.disk.Reliable
  inside : ∀ entry ∈ state.cache.entries, entry.block < totalBlocks

variable {disk : Disk} {Result : Type}

theorem ready_new (reliable : disk.Reliable) : Ready { cache := .new, disk := disk } :=
  ⟨(Traced.faithful_empty disk).coherent, reliable, fun _ listed => (nomatch listed)⟩

variable {state after : Cached} {view : Nat -> Block}

theorem Ready.shows (ready : Ready state) : Shows state.cache.entries state.disk state.logical :=
  ready.coherent.shows

theorem Ready.steady (ready : Ready state) (steady : Steady view state after) : Ready after :=
  ⟨steady.coherent, steady.reliable ready.reliable, steady.inside ready.inside⟩

theorem get_ready (ready : Ready state) (block : Nat) :
    (get block state).1 = (if block < totalBlocks then .ok (state.logical block) else .error .io) ∧
      Ready (get block state).2 := by
  rcases get_spec ready.shows (Prod.eta (get block state)).symm with ⟨steady, _, succeeds⟩
  refine ⟨?_, ready.steady steady⟩
  by_cases inside : block < totalBlocks
  · rw [if_pos inside]
    exact succeeds ready.reliable ready.inside inside
  · rw [if_neg inside, get, cacheIndex_outside (Nat.le_of_not_lt inside)]

theorem getMut_ready (ready : Ready state) (block : Nat) (change : Block -> Block) :
    (getMut block change state).1 = (if block < totalBlocks then .ok () else .error .io) ∧
      Ready (getMut block change state).2 := by
  rcases getMut_spec ready.shows (Prod.eta (getMut block change state)).symm with
    ⟨steady, succeeds⟩
  refine ⟨?_, ready.steady steady⟩
  by_cases inside : block < totalBlocks
  · rw [if_pos inside]
    exact succeeds ready.reliable ready.inside inside
  · rw [if_neg inside, getMut, cacheIndex_outside (Nat.le_of_not_lt inside)]

/-- The bytes the code above the cache sees. -/
def contents (state : Cached) : Bytes := gather state.logical

/-- The volume those bytes encode. -/
def volume (state : Cached) : Volume := Volume.ofBytes state.contents

theorem device_simulates :
    Simulation device store (fun state bytes => Ready state ∧ state.contents = bytes) where
  get := by
    rintro block state bytes ⟨ready, rfl⟩
    rcases get_ready ready block with ⟨answer, still⟩
    have kept : contents (get block state).2 = contents state :=
      congrArg gather (funext (get_spec ready.shows (Prod.eta _).symm).1.shows.logical)
    change (get block state).1 = _ ∧ Ready (get block state).2 ∧ contents (get block state).2 = _
    rw [answer, kept]
    by_cases inside : block < totalBlocks
    · rw [if_pos inside, store_get inside, contents, blockOf_gather]
      exact ⟨rfl, still, rfl⟩
    · rw [if_neg inside, store, flat]
      simp only [if_neg inside]
      exact ⟨trivial, still, trivial⟩
  update := by
    rintro block change state bytes ⟨ready, rfl⟩
    rcases getMut_ready ready block change with ⟨answer, still⟩
    have changed := congrArg gather (funext
      (getMut_spec ready.shows (Prod.eta (getMut block change state)).symm).1.shows.logical)
    change (getMut block change state).1 = _ ∧ Ready (getMut block change state).2 ∧
      contents (getMut block change state).2 = _
    rw [contents.eq_def (getMut block change state).2, changed]
    by_cases inside : block < totalBlocks
    · rw [if_pos inside] at answer
      rw [answer, if_pos rfl, store_update inside, gather_update, contents, blockOf_gather]
      exact ⟨rfl, still, rfl⟩
    · rw [if_neg inside] at answer
      rw [answer, if_neg nofun, store, flat]
      simp only [if_neg inside]
      exact ⟨trivial, still, rfl⟩

/-- A program that takes the volume to an outcome does so on the mounted
volume, whatever is cached. -/
theorem exec_of_takes {program : Fallible Result} {outcome : Except FsError Result} {after : Volume}
    (ready : Ready state) (taken : Takes program state.volume outcome after) :
    (exec device program state).1 = outcome ∧ Ready (exec device program state).2 ∧
      (exec device program state).2.volume = after := by
  rcases device_simulates.run program.run ⟨ready, rfl⟩ with ⟨same, still, reached⟩
  rcases taken state.contents rfl with ⟨result, observed⟩
  exact ⟨same.trans result, still, (congrArg Volume.ofBytes reached).trans observed⟩

theorem inquire_of_tells {program : Optional Result} {outcome : Option Result} (ready : Ready state)
    (told : Tells program state.volume outcome) :
    (inquire device program state).1 = outcome ∧ Ready (inquire device program state).2 ∧
      (inquire device program state).2.volume = state.volume := by
  rcases device_simulates.run program.run ⟨ready, rfl⟩ with ⟨same, still, reached⟩
  rcases told state.contents rfl with ⟨result, observed⟩
  exact ⟨same.trans result, still, (congrArg Volume.ofBytes reached).trans observed⟩

theorem flush_ready (ready : Ready state) : (flush state).1 = .ok () ∧ Ready (flush state).2 ∧
      (flush state).2.volume = state.volume := by
  rcases flush_spec ready.shows (Prod.eta (flush state)).symm with ⟨steady, _, succeeds⟩
  refine ⟨succeeds ready.reliable ready.inside, ready.steady steady, ?_⟩
  exact congrArg (fun logical => Volume.ofBytes (gather logical)) (funext steady.shows.logical)

theorem trimClean_ready (ready : Ready state) (keepBlocks : Nat) :
    Ready (trimClean keepBlocks state).2 ∧
      (trimClean keepBlocks state).2.volume = state.volume := by
  have steady := trimClean_steady keepBlocks ready.shows
  refine ⟨ready.steady steady, ?_⟩
  exact congrArg (fun logical => Volume.ofBytes (gather logical)) (funext steady.shows.logical)

end Cached

/-!
## Formatting and mounting

A freshly formatted volume holds the empty root directory and nothing else,
whatever was on the disk before.  Mounting keeps a volume whose superblock can
be parsed and formats the disk otherwise.
-/

variable (data : Nat -> Block) (volume : Volume)

namespace Volume

/-- No inode is in use and no block is marked. -/
def cleared (data : Nat -> Block) : Volume where
  inode := fun _ => Inode.free
  used := fun block => decide (1536 <= block)
  data := data

/-- Mark blocks used. -/
def reserve (volume : Volume) (blocks : List Nat) : Volume :=
  { volume with used := fun block => volume.used block || decide (block ∈ blocks) }

/-- The volume `format_image` lays out. -/
def formatted (data : Nat -> Block) : Volume :=
  ((cleared data).reserve (range 34)).create 0 kindDir rootUid rootGid defaultDirMode

theorem reserve_nil : volume.reserve [] = volume := by
  apply Volume.ext
  · rfl
  · funext block
    simp [reserve]
  · rfl

theorem setUsed_reserve (block : Nat) (rest : List Nat) :
    (volume.setUsed block true).reserve rest = volume.reserve (block :: rest) := by
  apply Volume.ext
  · rfl
  · funext other
    by_cases same : other = block
    · simp [setUsed, reserve, same]
    · simp [setUsed, reserve, same]
  · rfl

/-- With no inode in use, the metadata blocks are all that is marked. -/
theorem reserve_sound : ((cleared data).reserve (range 34)).Sound where
  outside := fun _ _ => rfl
  stable := fun _ => (rfl : Inode.free.stored = .free)
  vacant := fun _ _ => rfl
  held := fun _ used => absurd rfl used
  distinct := fun _ => nodup_nil
  apart := fun _ _ _ _ listed => (nomatch listed)
  marked := by
    intro block bound
    have free : ¬ 1536 <= block := Nat.not_le_of_lt bound
    have used : ((cleared data).reserve (range 34)).used block = true <-> block < 34 := by
      simp [reserve, cleared, free]
    rw [used]
    constructor
    · exact .inl
    · rintro (low | ⟨index, listed⟩)
      · exact low
      · cases listed

theorem formatted_sound : (formatted data).Sound :=
  create_sound (reserve_sound data) (by decide) rfl (by decide)

theorem formatted_object :
    (formatted data).object = Function.update (fun _ => none) 0 (some {
      kind := kindDir, uid := rootUid, gid := rootGid, mode := defaultDirMode, bytes := [] }) := by
  have none : ((cleared data).reserve (range 34)).object = fun _ => none := by
    funext index
    exact object_eq_none.mpr rfl
  rw [formatted, create_object (by decide), none]
  rfl

end Volume

/-- A lone empty root directory is a tree. -/
theorem Tree.lone {root : Object} (isDir : root.kind = kindDir) (empty : root.bytes = []) :
    Tree (Function.update (fun _ => none) 0 (some root)) := by
  have entries : root.entries = [] := Object.entries_of_empty empty
  have only {index : Nat} {object : Object}
      (found : Function.update (fun _ => none) 0 (some root) index = some object) :
      index = 0 ∧ object = root := by
    by_cases same : index = 0
    · rw [same, update_self, Option.some.injEq] at found
      exact ⟨same, found.symm⟩
    · rw [update_of_ne same] at found
      cases found
  have unlisted (index : Nat) :
      listing (Function.update (fun _ => none) 0 (some root)) index = [] := by
    by_cases same : index = 0
    · rw [same, listing_update_self, entries]
    · rw [listing_update_of_ne _ _ same]
      rfl
  have childless (index : Nat) (key : Name) :
      child (Function.update (fun _ => none) 0 (some root)) index key = none := by
    rw [child, unlisted]
    rfl
  refine ⟨⟨?_, ⟨root, update_self _ _ _, isDir⟩, ?_, ?_, ?_⟩, ?_, ?_, ?_, ?_, ?_⟩
  · intro index object found
    rw [(only found).2]
    exact .inr isDir
  · intro index object found _
    rw [(only found).2, entries, empty]
    rfl
  · intro index entry listed
    rw [unlisted] at listed
    cases listed
  · intro index
    rw [unlisted]
    exact nodup_nil
  · rw [update_self]
    exact Option.some_ne_none root
  · intro node key target linked
    rw [childless] at linked
    cases linked
  · intro node key target linked
    rw [childless] at linked
    cases linked
  · intro node other key otherKey target linked _
    rw [childless] at linked
    cases linked
  · intro target present notRoot
    rw [update_of_ne notRoot] at present
    exact absurd rfl present

theorem formatted_wellFormed : (Volume.formatted data).WellFormed where
  sound := Volume.formatted_sound data
  tree := by
    rw [Volume.formatted_object]
    exact .lone rfl rfl

theorem zeroBlocks_run {blocks : List Nat} (inside : ∀ block ∈ blocks, block < 1536)
    (bytes : Bytes) :
    ∃ after, exec store (zeroBlocks blocks) bytes = (.ok (), after) ∧
      ∀ address, after address =
        if address / 4096 ∈ blocks then 0 else bytes address := by
  induction blocks generalizing bytes with
  | nil => exact ⟨bytes, rfl, fun address => (if_neg not_mem_nil).symm⟩
  | cons block rest ih =>
    have first : exec store (zeroBlock block) bytes =
        (.ok (), setBlock bytes block Block.zero) := by
      rw [zeroBlock, exec_modify, store_update (inside block mem_cons_self)]
    rcases ih (fun other listed => inside other (mem_cons_of_mem _ listed))
      (setBlock bytes block Block.zero) with ⟨after, ran, zeroed⟩
    refine ⟨after, (exec_bind_ok store first).trans ran, fun address => ?_⟩
    rw [zeroed address]
    by_cases later : address / 4096 ∈ rest
    · rw [if_pos later, if_pos (mem_cons_of_mem _ later)]
    · rw [if_neg later, setBlock]
      by_cases here : address / 4096 = block
      · rw [if_pos here, here, if_pos mem_cons_self]
        rfl
      · rw [if_neg here, if_neg (fun listed => (mem_cons.mp listed).elim here later)]

theorem decodeInode_zeros {bytes : Bytes} {off : Nat}
    (zeros : ∀ address, off <= address -> address < off + 256 -> bytes address = 0) :
    decodeInode bytes off = Inode.free := by
  have word (offset : Nat) (fits : offset + 4 <= 256) : wordAt bytes (off + offset) = 0 := by
    have same : slice bytes (off + offset) 4 = slice (fun _ => 0) (off + offset) 4 := by
      apply slice_congr
      intro address low high
      exact zeros address (by omega) (by omega)
    rw [wordAt, same]
    rfl
  have kind : bytes off = 0 := zeros off (Nat.le_refl _) (by omega)
  apply Inode.ext
  · exact kind
  · exact word 4 (by omega)
  · funext slot
    have bound := slot.isLt
    change wordAt bytes (off + 8 + 4 * slot.val) = 0
    rw [Nat.add_assoc]
    exact word (8 + 4 * slot.val) (by omega)
  · exact word 200 (by omega)
  · change UInt32.ofNat (wordAt bytes (off + 204)) = 0
    rw [word 204 (by omega)]
    rfl
  · change UInt32.ofNat (wordAt bytes (off + 208)) = 0
    rw [word 208 (by omega)]
    rfl
  · change normalMode (bytes off) (UInt16.ofNat (wordAt bytes (off + 212)) &&& 0o777) = 0
    rw [word 212 (by omega), kind]
    rfl

/-- Zeros in the inode table and the bitmap are an empty volume. -/
theorem Volume.ofBytes_blank {bytes : Bytes}
    (blank : ∀ address, 4096 <= address -> address < 139264 -> bytes address = 0) :
    Volume.ofBytes bytes = Volume.cleared (Volume.ofBytes bytes).data := by
  apply Volume.ext
  · funext index
    change (if index < 512 then decodeInode bytes (4096 + index * 256) else .free) = _
    by_cases small : index < 512
    · rw [if_pos small]
      exact decodeInode_zeros (fun address low high => blank address (by omega) (by omega))
    · rw [if_neg small]
      rfl
  · funext block
    change (if block < 1536 then _ else true) = decide (1536 <= block)
    by_cases small : block < 1536
    · rw [if_pos small, blank _ (by omega) (by omega), decide_eq_false (Nat.not_le_of_lt small)]
      rw [UInt8.zero_and]
      rfl
    · rw [if_neg small, decide_eq_true (Nat.le_of_not_lt small)]
  · rfl

theorem clear_takes : Takes (zeroBlocks (range 34)) volume (.ok ())
    (Volume.cleared volume.data) := by
  rintro bytes rfl
  rcases @zeroBlocks_run (range 34)
    (fun block listed => Nat.lt_trans (mem_range.mp listed) (by omega)) bytes with
    ⟨after, ran, zeroed⟩
  have blank (address : Nat) (_ : 4096 <= address) (below : address < 139264) :
      after address = 0 := by
    rw [zeroed address, if_pos (mem_range.mpr (by omega))]
  have kept : (Volume.ofBytes after).data = (Volume.ofBytes bytes).data := by
    funext block
    apply Volume.data_congr
    intro address high _ _
    rw [zeroed address, if_neg (fun listed => ?_)]
    have bound := mem_range.mp listed
    omega
  rw [ran, <- kept]
  exact ⟨rfl, Volume.ofBytes_blank blank⟩

/-- The superblock is not part of what the volume decodes to. -/
theorem superblock_takes (change : Block -> Block) (volume : Volume) :
    Takes (modify 0 change) volume (.ok ()) volume := by
  rintro bytes rfl
  have ran : exec store (modify 0 change) bytes =
      (.ok (), setBlock bytes 0 (change (blockOf 4096 bytes 0))) := by
    rw [exec_modify, store_update (by decide)]
  have kept (address : Nat) (high : 4096 <= address) :
      setBlock bytes 0 (change (blockOf 4096 bytes 0)) address = bytes address :=
    if_neg (by omega)
  rw [ran]
  refine ⟨rfl, ?_⟩
  apply Volume.ext
  · exact Volume.inode_congr (fun address low _ => kept address low)
  · exact Volume.used_congr (fun address low _ => kept address (by omega))
  · funext block
    exact Volume.data_congr (fun address low _ _ => kept address (by omega))

theorem reserveBlocks_takes {blocks : List Nat}
    (inside : ∀ block ∈ blocks, block < 1536) (volume : Volume) :
    Takes (reserveBlocks .new blocks) volume (.ok ()) (volume.reserve blocks) := by
  induction blocks generalizing volume with
  | nil =>
    rw [Volume.reserve_nil]
    exact .pure ()
  | cons block rest ih =>
    refine .bind (setBlockUsed_takes (inside block mem_cons_self) true volume) ?_
    rw [<- Volume.setUsed_reserve]
    exact ih (fun other listed => inside other (mem_cons_of_mem _ listed)) _

theorem formatImage_takes : Takes formatImage volume (.ok ()) (Volume.formatted volume.data) := by
  refine .bind (clear_takes volume) ?_
  refine .bind (superblock_takes _ _) ?_
  refine .bind (reserveBlocks_takes (fun block listed => ?_) _) ?_
  · exact Nat.lt_trans (mem_range.mp listed) (by decide)
  · exact writeInode_takes (by decide) (.new kindDir) _

/-- Formatting a reliable disk yields a well-formed volume. -/
theorem Cached.formatImage_ready {disk : Disk} (reliable : disk.Reliable) :
    (exec device formatImage { cache := .new, disk := disk }).1 = .ok () ∧
      Ready (exec device formatImage { cache := .new, disk := disk }).2 ∧
      (exec device formatImage { cache := .new, disk := disk }).2.volume.WellFormed := by
  rcases exec_of_takes (ready_new reliable) (formatImage_takes _) with ⟨success, ready, reached⟩
  refine ⟨success, ready, ?_⟩
  rw [reached]
  exact formatted_wellFormed _

/-! ## Mounting -/

/-- `load_or_format`: the image, as its superblock and its cache. -/
def loadOrFormat (disk : Disk) : Except FsError (Superblock × BlockCache) × Disk :=
  match readDiskBlock 0 disk with
  | (.error failure, disk) => (.error failure, disk)
  | (.ok first, disk) =>
    match Superblock.parse first with
    | none => formatAndFlush disk
    | some sb =>
      if 1024 <= sb.totalBlocks ∧ sb.totalBlocks <= totalBlocks then
        (.ok (sb, .withCleanBlock 0 first), disk)
      else formatAndFlush disk
where
  formatAndFlush (disk : Disk) : Except FsError (Superblock × BlockCache) × Disk :=
    match exec Cached.device formatImage { cache := .new, disk := disk } with
    | (.error failure, state) => (.error failure, state.disk)
    | (.ok (), state) =>
      match Cached.flush state with
      | (.error failure, state) => (.error failure, state.disk)
      | (.ok (), state) => (.ok (.new, state.cache), state.disk)

/-- A disk with a superblock of the expected layout is mounted as it is. -/
theorem loadOrFormat_mounts {disk : Disk} (reliable : disk.Reliable)
    (parsed : Superblock.parse (disk.block 0) = some .new) : ∃ state : Cached,
      loadOrFormat disk = (.ok (.new, state.cache), state.disk) ∧
        state.disk.sectors = disk.sectors ∧ state.Ready ∧
        state.volume = Volume.ofBytes (gather disk.block) := by
  have inside : 0 < totalBlocks := by decide
  rcases outcome : readDiskBlock 0 disk with ⟨result, after⟩
  have read := readDiskBlock_spec outcome
  rcases read.succeeds reliable inside with ⟨first, rfl⟩
  rw [read.data first rfl] at outcome
  have blocks := Disk.block_congr read.sectors
  have faithful := Cached.Traced.faithful_mounted after
  refine ⟨(Cached.Traced.mounted after).state, ?_, read.sectors,
    ⟨faithful.coherent, read.reliable reliable, ?_⟩, ?_⟩
  · unfold loadOrFormat
    rw [outcome]
    dsimp only
    rw [parsed]
    dsimp only
    rw [if_pos (by decide), <- blocks]
    rfl
  · intro entry listed
    rw [mem_singleton.mp listed]
    exact inside
  · rw [<- blocks]
    exact congrArg (fun content => Volume.ofBytes (gather content)) (funext faithful.expected)

end CoolOs.CoolFs
