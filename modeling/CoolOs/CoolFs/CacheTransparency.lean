import Mathlib.Data.List.Nodup
import CoolOs.CoolFs.Format
import CoolOs.Queues.Ring

namespace CoolOs.CoolFs

open Function List

/-!
# Transparency of the block cache

The cache never changes what the code above it sees: the logical content of a
block is its last written content, whatever the device does.  The invariant
that carries this says that every entry holds the content of its block, and the
disk that of every block without a dirty entry, so a clean entry can be
dropped, and a torn sector lies under a dirty entry.
-/

variable {block : Nat} {data : Block} {disk after : Disk} {outcome : Except FsError Unit}

variable {baseLba : Nat} {sectors : List Nat}

theorem Disk.block_congr (same : after.sectors = disk.sectors) : after.block = disk.block := by
  unfold Disk.block
  rw [same]

/-- Reading leaves the sectors alone; it returns the sectors it visited over the buffer, and
without failures it succeeds. -/
theorem readSectors_spec {out : Block} {outcome : Except FsError Block}
    (ran : readSectors baseLba sectors out disk = (outcome, after)) :
    after.sectors = disk.sectors ∧
      (disk.Reliable -> after.Reliable ∧ ∃ result, outcome = .ok result) ∧
      ∀ result, outcome = .ok result -> ∀ offset, result offset =
        if offset.val / sectorSize ∈ sectors then
          disk.sectors (baseLba + offset.val / sectorSize) (Fin.ofNat 512 (offset.val % sectorSize))
        else out offset := by
  induction sectors generalizing out disk with
  | nil =>
    cases ran
    refine ⟨rfl, fun reliable => ⟨reliable, out, rfl⟩, fun result success offset => ?_⟩
    cases success
    simp
  | cons sector rest ih =>
    simp only [readSectors, Disk.readSector] at ran
    cases answer : disk.reads 0 with
    | false =>
      rw [answer] at ran
      cases ran
      exact ⟨rfl, fun reliable => (nomatch answer.symm.trans (reliable.1 0)), nofun⟩
    | true =>
      rw [answer] at ran
      rcases ih ran with ⟨same, succeeds, visited⟩
      refine ⟨same, fun reliable => succeeds ⟨fun n => reliable.1 (n + 1), reliable.2⟩, ?_⟩
      intro result success offset
      rw [visited result success offset]
      by_cases later : offset.val / sectorSize ∈ rest
      · rw [if_pos later, if_pos (mem_cons_of_mem _ later)]
      · rw [if_neg later]
        by_cases here : offset.val / sectorSize = sector
        · rw [if_pos (mem_cons.mpr (.inl here)), Block.putSector, if_pos here, here]
        · rw [Block.putSector, if_neg here, if_neg (not_mem_cons_of_ne_of_not_mem here later)]

/-- What a read of a block does to the device. -/
structure WasRead (block : Nat) (disk : Disk) (outcome : Except FsError Block) (after : Disk) :
    Prop where
  sectors : after.sectors = disk.sectors
  reliable : disk.Reliable -> after.Reliable
  succeeds : disk.Reliable -> block < totalBlocks -> Exists fun data => outcome = .ok data
  data : forall data, outcome = .ok data -> data = disk.block block

theorem readDiskBlock_spec {outcome : Except FsError Block}
    (ran : readDiskBlock block disk = (outcome, after)) : WasRead block disk outcome after := by
  unfold readDiskBlock at ran
  by_cases outside : totalBlocks <= block
  · rw [if_pos outside] at ran
    cases ran
    exact ⟨rfl, id, fun _ inside => absurd inside (Nat.not_lt_of_le outside), nofun⟩
  · rw [if_neg outside] at ran
    rcases readSectors_spec ran with ⟨same, succeeds, visited⟩
    refine ⟨same, fun reliable => (succeeds reliable).1, fun reliable _ => (succeeds reliable).2, ?_⟩
    intro data success
    funext offset
    have inside : offset.val / sectorSize ∈ range sectorsPerBlock := by
      have bound := offset.isLt
      simp only [sectorSize, sectorsPerBlock, mem_range]
      omega
    rw [visited data success offset, if_pos inside]
    rfl

/-- Writing leaves the sectors it does not name alone, on failure too; a write that succeeds
has stored every sector it names, and without failures it succeeds. -/
theorem writeSectors_spec (ran : writeSectors baseLba data sectors disk = (outcome, after)) :
    (∀ lba, (∀ sector ∈ sectors, lba ≠ baseLba + sector) ->
        after.sectors lba = disk.sectors lba) ∧
      (disk.Reliable -> after.Reliable ∧ outcome = .ok ()) ∧
      (outcome = .ok () -> ∀ sector ∈ sectors,
        after.sectors (baseLba + sector) = data.sector sector) := by
  induction sectors generalizing disk with
  | nil =>
    cases ran
    exact ⟨fun _ _ => rfl, fun reliable => ⟨reliable, rfl⟩, fun _ _ => nofun⟩
  | cons head rest ih =>
    simp only [writeSectors, Disk.writeSector] at ran
    cases answer : disk.writes 0 with
    | failed left =>
      rw [answer] at ran
      cases ran
      exact ⟨fun lba other => update_of_ne (other head mem_cons_self) _ _,
        fun reliable => (nomatch answer.symm.trans (reliable.2 0)), nofun⟩
    | stored =>
      rw [answer] at ran
      rcases ih ran with ⟨others, succeeds, stored⟩
      refine ⟨fun lba other => ?_, fun reliable => succeeds ⟨reliable.1, fun n =>
        reliable.2 (n + 1)⟩, fun success sector member => ?_⟩
      · rw [others lba fun next listed => other next (mem_cons_of_mem _ listed)]
        exact update_of_ne (other head mem_cons_self) _ _
      · by_cases later : sector ∈ rest
        · exact stored success sector later
        · rcases mem_cons.mp member with rfl | listed
          · rw [others _ fun next listed same => later (by rwa [Nat.add_left_cancel same])]
            exact update_self _ _ _
          · exact absurd listed later

/-- What a write of a block does to the device. -/
structure WasWritten (block : Nat) (data : Block) (disk : Disk) (outcome : Except FsError Unit)
    (after : Disk) : Prop where
  others : forall index, index ≠ block -> after.block index = disk.block index
  reliable : disk.Reliable -> after.Reliable
  succeeds : disk.Reliable -> block < totalBlocks -> outcome = .ok ()
  stored : outcome = .ok () -> after.block block = data

theorem writeDiskBlock_spec (ran : writeDiskBlock block data disk = (outcome, after)) :
    WasWritten block data disk outcome after := by
  unfold writeDiskBlock at ran
  by_cases outside : totalBlocks <= block
  · rw [if_pos outside] at ran
    cases ran
    exact ⟨fun _ _ => rfl, id, fun _ inside => absurd inside (Nat.not_lt_of_le outside), nofun⟩
  · rw [if_neg outside] at ran
    rcases writeSectors_spec ran with ⟨others, succeeds, stored⟩
    refine ⟨fun index different => ?_, fun reliable => (succeeds reliable).1,
      fun reliable _ => (succeeds reliable).2, fun success => ?_⟩
    · funext offset
      unfold Disk.block
      rw [others]
      intro sector member equal
      have sectorBound := mem_range.mp member
      have offsetBound := offset.isLt
      simp only [sectorsPerBlock, sectorSize] at sectorBound equal
      omega
    · funext offset
      have bound := offset.isLt
      have inside : offset.val / sectorSize ∈ range sectorsPerBlock := by
        simp only [sectorSize, sectorsPerBlock, mem_range]
        omega
      unfold Disk.block
      rw [stored success _ inside]
      have position : offset.val / 512 * 512 + offset.val % 512 % 512 = offset.val := by omega
      simp only [Block.sector, sectorSize, Fin.ofNat, position]
      exact Block.byte_of_lt data bound

namespace Cached

/-- The cache invariant.  A clean entry agrees with the disk; nothing is said
about the disk under a dirty entry, because a failed write may have torn it. -/
structure Coherent (state : Cached) : Prop where
  distinct : (state.cache.entries.map CacheEntry.block).Nodup
  bounded : state.cache.entries.length <= cacheSlots
  clean : ∀ entry ∈ state.cache.entries, entry.dirty = false ->
    entry.data = state.disk.block entry.block

variable {state : Cached} {entries front back : List CacheEntry} {entry old new : CacheEntry}
  {view seen : Nat -> Block} {reached : Disk}

theorem logical_of_mem (distinct : (state.cache.entries.map CacheEntry.block).Nodup)
    (member : entry ∈ state.cache.entries) : state.logical entry.block = entry.data := by
  unfold logical
  cases found : state.cache.entries.find? (fun other => other.block == entry.block) with
  | none =>
    have missing := find?_eq_none.mp found entry member
    simp at missing
  | some other =>
    have same : other.block = entry.block := by simpa using find?_some found
    rw [inj_on_of_nodup_map distinct (mem_of_find?_eq_some found) member same]

theorem logical_of_forall_ne (missing : ∀ entry ∈ state.cache.entries, entry.block ≠ block) :
    state.logical block = state.disk.block block := by
  unfold logical
  cases found : state.cache.entries.find? (fun other => other.block == block) with
  | none => rfl
  | some other =>
    have same : other.block = block := by simpa using find?_some found
    exact False.elim (missing other (mem_of_find?_eq_some found) same)

/-- The invariant in terms of the contents the cache presents. -/
structure Shows (entries : List CacheEntry) (disk : Disk) (view : Nat -> Block) : Prop where
  distinct : (entries.map CacheEntry.block).Nodup
  bounded : entries.length <= cacheSlots
  held : ∀ entry ∈ entries, entry.data = view entry.block
  stored : forall block, (∀ entry ∈ entries, entry.block = block ->
    entry.dirty = false) -> disk.block block = view block

theorem Coherent.shows (coherent : Coherent state) :
    Shows state.cache.entries state.disk state.logical := by
  refine ⟨coherent.distinct, coherent.bounded, fun entry member =>
    (logical_of_mem coherent.distinct member).symm, fun block clean => ?_⟩
  by_cases cached : ∃ entry ∈ state.cache.entries, entry.block = block
  · rcases cached with ⟨entry, member, same⟩
    rw [<- same, logical_of_mem coherent.distinct member]
    exact (coherent.clean entry member (clean entry member same)).symm
  · rw [logical_of_forall_ne fun entry member same => cached ⟨entry, member, same⟩]

namespace Shows

theorem clean (shows : Shows entries disk view) (member : entry ∈ entries)
    (isClean : entry.dirty = false) : disk.block entry.block = view entry.block := by
  refine shows.stored _ fun other listed same => ?_
  rw [inj_on_of_nodup_map shows.distinct listed member same]
  exact isClean

theorem coherent (shows : Shows state.cache.entries state.disk view) : Coherent state :=
  ⟨shows.distinct, shows.bounded, fun entry member isClean =>
    (shows.held entry member).trans (shows.clean member isClean).symm⟩

theorem logical (shows : Shows state.cache.entries state.disk view) (block : Nat) :
    state.logical block = view block := by
  by_cases cached : ∃ entry ∈ state.cache.entries, entry.block = block
  · rcases cached with ⟨entry, member, same⟩
    rw [<- same, logical_of_mem shows.distinct member]
    exact shows.held entry member
  · rw [logical_of_forall_ne fun entry member same => cached ⟨entry, member, same⟩]
    exact shows.stored block fun entry member same => absurd ⟨entry, member, same⟩ cached

/-- The device has been read. -/
theorem read (shows : Shows entries disk view) (same : reached.sectors = disk.sectors) :
    Shows entries reached view := by
  refine ⟨shows.distinct, shows.bounded, shows.held, fun block clean => ?_⟩
  rw [Disk.block_congr same]
  exact shows.stored block clean

/-- One slot changes from an entry to another, for the same block or for one that is not
cached, and the disk changes under the old entry only. -/
theorem swap (shows : Shows (front ++ old :: back) disk view)
    (fresh : new.block = old.block ∨ ∀ entry ∈ front ++ old :: back, entry.block ≠ new.block)
    (held : new.data = seen new.block)
    (same : ∀ block, block ≠ new.block -> seen block = view block)
    (others : ∀ block, block ≠ old.block -> reached.block block = disk.block block)
    (clean : new.dirty = false -> reached.block new.block = seen new.block)
    (gone : new.block ≠ old.block -> reached.block old.block = view old.block) :
    Shows (front ++ new :: back) reached seen := by
  have parts := shows.distinct
  rw [map_append, map_cons, nodup_middle, nodup_cons, <- map_append] at parts
  have apart (entry : CacheEntry) (listed : entry ∈ front ++ back) : entry.block ≠ new.block := by
    rcases fresh with equal | missing
    · rw [equal]
      exact fun here => parts.1 (here ▸ mem_map_of_mem listed)
    · exact missing entry (perm_middle.mem_iff.mpr (mem_cons_of_mem _ listed))
  refine ⟨?_, by simpa using shows.bounded, fun entry member => ?_, fun block allClean => ?_⟩
  · rw [map_append, map_cons, nodup_middle, nodup_cons, <- map_append]
    refine ⟨fun listed => ?_, parts.2⟩
    rcases mem_map.mp listed with ⟨entry, member, here⟩
    exact apart entry member here
  · rcases mem_cons.mp (perm_middle.mem_iff.mp member) with rfl | listed
    · exact held
    · rw [same _ (apart entry listed)]
      exact shows.held entry (perm_middle.mem_iff.mpr (mem_cons_of_mem _ listed))
  · have still (entry : CacheEntry) (listed : entry ∈ new :: (front ++ back)) :=
      allClean entry (perm_middle.mem_iff.mpr listed)
    by_cases here : block = new.block
    · rw [here]
      exact clean (still new mem_cons_self here.symm)
    · rw [same block here]
      by_cases there : block = old.block
      · rw [there]
        exact gone fun equal => here (there.trans equal.symm)
      · rw [others block there]
        refine shows.stored block fun entry member equal => ?_
        rcases mem_cons.mp (perm_middle.mem_iff.mp member) with rfl | listed
        · exact absurd equal.symm there
        · exact still entry (mem_cons_of_mem _ listed) equal

/-- A slot stays with its block and its data. -/
theorem keep (shows : Shows (front ++ old :: back) disk view) (same : new.block = old.block)
    (data : new.data = old.data)
    (others : ∀ block, block ≠ old.block -> reached.block block = disk.block block)
    (clean : new.dirty = false -> reached.block old.block = view old.block) :
    Shows (front ++ new :: back) reached view := by
  have held := shows.held old (mem_append_right _ mem_cons_self)
  refine shows.swap (.inl same) ?_ (fun _ _ => rfl) others ?_ (absurd same)
  · rw [data, same, held]
  · rw [same]
    exact clean

/-- A block that is not cached is loaded into a new slot. -/
theorem push (shows : Shows entries disk view) (room : entries.length < cacheSlots)
    (missing : ∀ entry ∈ entries, entry.block ≠ new.block)
    (loaded : new.data = disk.block new.block) : Shows (entries ++ [new]) disk view := by
  refine ⟨?_, by simpa using Nat.succ_le_of_lt room, fun entry member => ?_, fun block clean => ?_⟩
  · rw [map_append, map_singleton, <- concat_eq_append]
    refine List.Nodup.concat (fun listed => ?_) shows.distinct
    rcases mem_map.mp listed with ⟨entry, member, here⟩
    exact missing entry member here
  · rcases mem_append.mp member with early | last
    · exact shows.held entry early
    · rw [mem_singleton.mp last, loaded]
      exact shows.stored _ fun other listed same => absurd same (missing other listed)
  · exact shows.stored block fun entry member => clean entry (mem_append_left _ member)

/-- A clean entry is dropped: the disk has its data. -/
theorem drop (shows : Shows (front ++ old :: back) disk view) (isClean : old.dirty = false) :
    Shows (front ++ back) disk view := by
  have fewer : front ++ back <+ front ++ old :: back :=
    (sublist_cons_self old back).append_left front
  refine ⟨shows.distinct.sublist (fewer.map _), Nat.le_trans fewer.length_le shows.bounded,
    fun entry member => shows.held entry (fewer.mem member), fun block clean => ?_⟩
  refine shows.stored block fun entry member same => ?_
  rcases mem_cons.mp (perm_middle.mem_iff.mp member) with rfl | listed
  · exact isClean
  · exact clean entry listed same

end Shows

/-! ## Choosing an entry -/

variable {cache : BlockCache} {victim : CacheEntry × Nat}

theorem minByKey_mem {Item : Type} (key : Item -> Nat) {items : List Item} {best : Item}
    (found : minByKey key items = some best) : best ∈ items := by
  induction items with
  | nil => cases found
  | cons item rest ih =>
    simp only [minByKey] at found
    cases tail : minByKey key rest with
    | none =>
      rw [tail] at found
      exact mem_cons.mpr (.inl (Option.some.inj found).symm)
    | some other =>
      rw [tail] at found
      simp only at found
      by_cases least : key item <= key other
      · rw [if_pos least] at found
        exact mem_cons.mpr (.inl (Option.some.inj found).symm)
      · rw [if_neg least, <- tail] at found
        exact mem_cons_of_mem _ (ih found)

/-- The victim of an eviction is an entry at the returned index. -/
theorem evictionVictim_entry (found : cache.evictionVictim = some victim) :
    cache.entries[victim.2]? = some victim.1 := mem_zipIdx_iff_getElem?.mp (minByKey_mem _ found)

/-- A cache that is full has a victim. -/
theorem evictionVictim_full (full : ¬ cache.entries.length < cacheSlots) :
    cache.evictionVictim ≠ none := by
  cases listed : cache.entries with
  | nil =>
    rw [listed] at full
    exact absurd (by decide) full
  | cons entry rest =>
    unfold BlockCache.evictionVictim
    rw [listed, zipIdx_cons, minByKey]
    split
    · exact Option.some_ne_none _
    · split
      · exact Option.some_ne_none _
      · exact Option.some_ne_none _

/-- The victim of a trim is a clean entry at the returned index. -/
theorem trimVictim_entry (found : cache.trimVictim = some victim) :
    cache.entries[victim.2]? = some victim.1 ∧ victim.1.dirty = false := by
  have member := mem_filter.mp (minByKey_mem _ found)
  refine ⟨mem_zipIdx_iff_getElem?.mp member.1, ?_⟩
  have chosen := Bool.and_eq_true_iff.mp member.2
  simpa using chosen.1

/-- The entry found by the scan of the cache, with its index. -/
theorem findIdx_entry {index : Nat}
    (found : entries.findIdx? (fun entry => entry.block == block) = some index) :
    ∃ entry, entries[index]? = some entry ∧ entry.block = block := by
  rcases findIdx?_eq_some_iff_getElem.mp found with ⟨bound, same, _⟩
  refine ⟨entries[index], getElem?_eq_getElem bound, ?_⟩
  simpa using same

theorem findIdx_missing (found : entries.findIdx? (fun entry => entry.block == block) = none) :
    ∀ entry ∈ entries, entry.block ≠ block := by
  intro entry member same
  have different := findIdx?_eq_none_iff.mp found entry member
  simp [same] at different

/-- The entries are blocks of the volume. -/
def Inside (entries : List CacheEntry) : Prop :=
  ∀ entry ∈ entries, entry.block < totalBlocks

/-- What every cache operation keeps: the contents it presents, entries inside the volume,
and a device without failures. -/
structure Steady (view : Nat -> Block) (before after : Cached) : Prop where
  shows : Shows after.cache.entries after.disk view
  reliable : before.disk.Reliable -> after.disk.Reliable
  inside : Inside before.cache.entries -> Inside after.cache.entries

namespace Steady

variable {before between after : Cached}

theorem coherent (steady : Steady view before after) : Coherent after := steady.shows.coherent

theorem trans (first : Steady view before between) (second : Steady seen between after) :
    Steady seen before after :=
  ⟨second.shows, second.reliable ∘ first.reliable, second.inside ∘ first.inside⟩

theorem of_slot {clock later : Nat} (shows : Shows (front ++ new :: back) reached view)
    (reliable : disk.Reliable -> reached.Reliable)
    (inside : old.block < totalBlocks -> new.block < totalBlocks) :
    Steady view ⟨⟨front ++ old :: back, clock⟩, disk⟩ ⟨⟨front ++ new :: back, later⟩, reached⟩ := by
  refine ⟨shows, reliable, fun before entry member => ?_⟩
  rcases mem_cons.mp (perm_middle.mem_iff.mp member) with rfl | listed
  · exact inside (before old (mem_append_right _ mem_cons_self))
  · exact before entry (perm_middle.mem_iff.mpr (mem_cons_of_mem _ listed))

end Steady

variable {after : Cached}

/-- Replacing the victim keeps the contents whatever the device does, and on success the
index it returns is that of the fresh entry. -/
theorem replaceVictim_spec {clock : Nat} {outcome : Except FsError Nat}
    (shows : Shows entries disk view) (found : entries[victim.2]? = some victim.1)
    (missing : ∀ entry ∈ entries, entry.block ≠ new.block)
    (loaded : new.data = disk.block new.block) (inside : new.block < totalBlocks)
    (ran : replaceVictim entries clock victim new disk = (outcome, after)) :
    Steady view ⟨⟨entries, clock⟩, disk⟩ after ∧
      (∀ index, outcome = .ok index -> after.cache.entries[index]? = some new) ∧
      (disk.Reliable -> Inside entries -> ∃ index, outcome = .ok index) := by
  rcases Queues.split_at_index found with ⟨front, back, rfl, position⟩
  have member : victim.1 ∈ front ++ victim.1 :: back := mem_append_right _ mem_cons_self
  have replaced : (front ++ victim.1 :: back).set victim.2 new = front ++ new :: back := by
    rw [<- position]
    simp
  have atIndex : (front ++ new :: back)[victim.2]? = some new := by
    rw [<- position]
    simp
  have onDisk : disk.block new.block = view new.block :=
    shows.stored _ fun other listed same => absurd same (missing other listed)
  -- The victim is on the disk the replacement leaves, whether it was clean or written back.
  have load {reached : Disk} (written : reached.block victim.1.block = view victim.1.block)
      (others : ∀ index, index ≠ victim.1.block -> reached.block index = disk.block index) :
      Shows (front ++ new :: back) reached view := by
    refine shows.swap (.inr missing) (loaded.trans onDisk) (fun _ _ => rfl) others ?_ ?_
    · exact fun _ => (others _ (missing victim.1 member).symm).trans onDisk
    · exact fun _ => written
  unfold replaceVictim at ran
  rw [replaced] at ran
  cases isDirty : victim.1.dirty with
  | false =>
    rw [isDirty, if_neg Bool.false_ne_true] at ran
    cases ran
    refine ⟨.of_slot (load (shows.clean member isDirty) fun _ _ => rfl) id fun _ => inside, ?_,
      fun _ _ => ⟨_, rfl⟩⟩
    rintro index ⟨⟩
    exact atIndex
  | true =>
    rcases stored : writeDiskBlock victim.1.block victim.1.data disk with ⟨result, reached⟩
    have written := writeDiskBlock_spec stored
    rw [isDirty, if_pos rfl, stored] at ran
    cases result with
    | error failure =>
      cases ran
      refine ⟨.of_slot (shows.keep rfl rfl written.others ?_) written.reliable id, nofun, ?_⟩
      · exact fun isClean => nomatch isDirty.symm.trans isClean
      · exact fun reliable all => nomatch written.succeeds reliable (all _ member)
    | ok _ =>
      cases ran
      have same := (written.stored rfl).trans (shows.held _ member)
      refine ⟨.of_slot (load same written.others) written.reliable fun _ => inside, ?_,
        fun _ _ => ⟨_, rfl⟩⟩
      rintro index ⟨⟩
      exact atIndex

theorem cacheIndex_outside (outside : totalBlocks <= block) (state : Cached) :
    cacheIndex block state = (.error .io, state) := by
  rw [cacheIndex, if_pos outside]

section

variable (shows : Shows state.cache.entries state.disk view)
include shows

/-- Looking a block up keeps the contents; the returned index holds the entry of that block. -/
theorem cacheIndex_spec {outcome : Except FsError Nat}
    (ran : cacheIndex block state = (outcome, after)) :
    Steady view state after ∧
      (∀ index, outcome = .ok index -> ∃ entry,
        after.cache.entries[index]? = some entry ∧ entry.block = block) ∧
      (state.disk.Reliable -> Inside state.cache.entries -> block < totalBlocks ->
        ∃ index, outcome = .ok index) := by
  by_cases outside : totalBlocks <= block
  · rw [cacheIndex_outside outside] at ran
    cases ran
    exact ⟨⟨shows, id, id⟩, nofun, fun _ _ inside => absurd inside (Nat.not_lt_of_le outside)⟩
  rcases state with ⟨⟨entries, clock⟩, disk⟩
  simp only [cacheIndex, if_neg outside] at ran
  cases found : entries.findIdx? (fun entry => entry.block == block) with
  | some index =>
    rcases findIdx_entry found with ⟨entry, atIndex, sameBlock⟩
    rcases Queues.split_at_index atIndex with ⟨front, back, rfl, rfl⟩
    simp only [found, Queues.modify_middle] at ran
    cases ran
    refine ⟨.of_slot (shows.keep rfl rfl (fun _ _ => rfl) ?_) id id, ?_, fun _ _ _ => ⟨_, rfl⟩⟩
    · exact fun isClean => shows.clean (mem_append_right _ mem_cons_self) isClean
    · rintro other ⟨⟩
      exact ⟨{ entry with age := BlockCache.tick ⟨front ++ entry :: back, clock⟩ }, by simp,
        sameBlock⟩
  | none =>
    have missing := findIdx_missing found
    rcases fetched : readDiskBlock block disk with ⟨result, reached⟩
    have read := readDiskBlock_spec fetched
    have still := shows.read read.sectors
    simp only [found, fetched] at ran
    cases result with
    | error failure =>
      cases ran
      exact ⟨⟨still, read.reliable, id⟩, nofun,
        fun reliable _ inside => nomatch read.succeeds reliable inside⟩
    | ok data =>
      have loaded : data = reached.block block := by
        rw [Disk.block_congr read.sectors]
        exact read.data data rfl
      by_cases room : entries.length < cacheSlots
      · simp only [if_pos room] at ran
        cases ran
        refine ⟨⟨still.push room missing loaded, read.reliable, fun inside entry member => ?_⟩, ?_,
          fun _ _ _ => ⟨_, rfl⟩⟩
        · rcases mem_append.mp member with early | last
          · exact inside entry early
          · rw [mem_singleton.mp last]
            exact Nat.lt_of_not_le outside
        · rintro index ⟨⟩
          exact ⟨_, getElem?_concat_length, rfl⟩
      · rcases Option.ne_none_iff_exists'.mp (@evictionVictim_full ⟨entries, clock⟩ room) with
          ⟨victim, chosen⟩
        simp only [if_neg room, chosen] at ran
        rcases replaceVictim_spec still (evictionVictim_entry chosen) missing loaded
          (Nat.lt_of_not_le outside) ran with ⟨steady, atIndex, succeeds⟩
        refine ⟨⟨steady.shows, steady.reliable ∘ read.reliable, steady.inside⟩, ?_, ?_⟩
        · exact fun index success => ⟨_, atIndex index success, rfl⟩
        · exact fun reliable inside _ => succeeds (read.reliable reliable) inside

theorem get_spec {outcome : Except FsError Block} (ran : get block state = (outcome, after)) :
    Steady view state after ∧ (∀ data, outcome = .ok data -> data = view block) ∧
      (state.disk.Reliable -> Inside state.cache.entries -> block < totalBlocks ->
        outcome = .ok (view block)) := by
  unfold get at ran
  rcases looked : cacheIndex block state with ⟨failure | index, between⟩
  · rcases cacheIndex_spec shows looked with ⟨steady, _, succeeds⟩
    rw [looked] at ran
    cases ran
    refine ⟨steady, nofun, fun reliable inside low => ?_⟩
    rcases succeeds reliable inside low with ⟨_, ⟨⟩⟩
  · rcases cacheIndex_spec shows looked with ⟨steady, atIndex, _⟩
    rcases atIndex index rfl with ⟨entry, listed, rfl⟩
    simp only [looked, listed] at ran
    cases ran
    have value := steady.shows.held entry (mem_of_getElem? listed)
    refine ⟨steady, ?_, fun _ _ _ => congrArg _ value⟩
    rintro data ⟨⟩
    exact value

/-- Fetching for writing: on success the change is applied to the content of the block and to
nothing else; on failure nothing changes. -/
theorem getMut_spec {change : Block -> Block} (ran : getMut block change state = (outcome, after)) :
    Steady (if outcome = .ok () then Function.update view block (change (view block)) else view)
        state after ∧
      (state.disk.Reliable -> Inside state.cache.entries -> block < totalBlocks ->
        outcome = .ok ()) := by
  unfold getMut at ran
  rcases looked : cacheIndex block state with ⟨failure | index, ⟨⟨entries, clock⟩, disk⟩⟩
  · rcases cacheIndex_spec shows looked with ⟨steady, _, succeeds⟩
    rw [looked] at ran
    cases ran
    refine ⟨steady, fun reliable inside low => ?_⟩
    rcases succeeds reliable inside low with ⟨_, ⟨⟩⟩
  · rcases cacheIndex_spec shows looked with ⟨steady, atIndex, _⟩
    rcases atIndex index rfl with ⟨entry, listed, rfl⟩
    rcases Queues.split_at_index listed with ⟨front, back, rfl, rfl⟩
    simp only [looked, Queues.modify_middle] at ran
    cases ran
    have held := steady.shows.held entry (mem_of_getElem? listed)
    rw [if_pos rfl]
    refine ⟨steady.trans (.of_slot (steady.shows.swap (.inl rfl) ?_ ?_ (fun _ _ => rfl) nofun
      (absurd rfl)) id id), fun _ _ _ => rfl⟩
    · rw [update_self, held]
    · exact fun other different => update_of_ne different _ _

omit shows in
/-- The loop of a flush, after the entries it has dealt with: the contents stay, also
when it stops early, and a loop that ends has cleaned every entry it met. -/
theorem flushEntries_spec {done flushed : List CacheEntry} {clock : Nat}
    {outcome : Except FsError Unit} (shows : Shows (done ++ entries) disk view)
    (ran : flushEntries entries disk = (outcome, flushed, reached)) :
    Steady view ⟨⟨done ++ entries, clock⟩, disk⟩ ⟨⟨done ++ flushed, clock⟩, reached⟩ ∧
      (outcome = .ok () -> ∀ entry ∈ flushed, entry.dirty = false) ∧
      (disk.Reliable -> Inside entries -> outcome = .ok ()) := by
  induction entries generalizing done disk flushed with
  | nil =>
    cases ran
    exact ⟨⟨shows, id, id⟩, fun _ _ => nofun, fun _ _ => rfl⟩
  | cons head rest ih =>
    -- What the loop does once the head is clean.
    have onward {clean : CacheEntry} {between : Disk} {tail : List CacheEntry}
        (isClean : clean.dirty = false) (first : Steady view ⟨⟨done ++ head :: rest, clock⟩, disk⟩
          ⟨⟨done ++ clean :: rest, clock⟩, between⟩)
        (later : flushEntries rest between = (outcome, tail, reached)) :
        Steady view ⟨⟨done ++ head :: rest, clock⟩, disk⟩ ⟨⟨done ++ clean :: tail, clock⟩, reached⟩ ∧
          (outcome = .ok () -> ∀ entry ∈ clean :: tail, entry.dirty = false) ∧
          (disk.Reliable -> Inside (head :: rest) -> outcome = .ok ()) := by
      rw [append_cons done clean] at first ⊢
      rcases ih first.shows later with ⟨steady, cleaned, succeeds⟩
      refine ⟨first.trans steady, fun success => forall_mem_cons.mpr ⟨isClean, cleaned success⟩, ?_⟩
      exact fun reliable inside => succeeds (first.reliable reliable) (forall_mem_cons.mp inside).2
    unfold flushEntries at ran
    cases isDirty : head.dirty with
    | false =>
      rcases later : flushEntries rest disk with ⟨result, tail, final⟩
      rw [isDirty, if_neg Bool.false_ne_true, later] at ran
      cases ran
      exact onward isDirty ⟨shows, id, id⟩ later
    | true =>
      rcases stored : writeDiskBlock head.block head.data disk with ⟨result, between⟩
      have written := writeDiskBlock_spec stored
      rw [isDirty, if_pos rfl, stored] at ran
      cases result with
      | error failure =>
        cases ran
        refine ⟨.of_slot (shows.keep rfl rfl written.others ?_) written.reliable id, nofun, ?_⟩
        · exact fun isClean => nomatch isDirty.symm.trans isClean
        · exact fun reliable inside => nomatch written.succeeds reliable (inside _ mem_cons_self)
      | ok _ =>
        rcases later : flushEntries rest between with ⟨result, tail, final⟩
        simp only [later] at ran
        cases ran
        have same := (written.stored rfl).trans
          (shows.held head (mem_append_right _ mem_cons_self))
        exact @onward { head with dirty := false } between tail rfl
          (.of_slot (shows.keep rfl rfl written.others fun _ => same) written.reliable id) later

/-- A flush that succeeds leaves no dirty entry, so the disk holds the content of every
block. -/
theorem flush_spec (ran : flush state = (outcome, after)) :
    Steady view state after ∧
      (outcome = .ok () -> ∀ block, after.disk.block block = view block) ∧
      (state.disk.Reliable -> Inside state.cache.entries -> outcome = .ok ()) := by
  rcases flushed : flushEntries state.cache.entries state.disk with ⟨result, entries, disk⟩
  rw [flush, flushed] at ran
  cases ran
  rcases @flushEntries_spec _ _ _ _ [] _ state.cache.clock _ shows flushed with
    ⟨steady, cleaned, succeeds⟩
  exact ⟨steady, fun success block => steady.shows.stored block fun entry member _ =>
    cleaned success entry member, succeeds⟩

end

theorem trimLoop_steady (keepBlocks fuel removed : Nat) (shows : Shows cache.entries disk view) :
    Steady view ⟨cache, disk⟩ ⟨(cache.trimLoop keepBlocks fuel removed).2, disk⟩ := by
  induction fuel generalizing cache removed with
  | zero => exact ⟨shows, id, id⟩
  | succ fuel ih =>
    unfold BlockCache.trimLoop
    by_cases surplus : keepBlocks < cache.entries.length
    · rw [if_pos surplus]
      cases chosen : cache.trimVictim with
      | none => exact ⟨shows, id, id⟩
      | some victim =>
        rcases trimVictim_entry chosen with ⟨found, isClean⟩
        rcases Queues.split_at_index found with ⟨front, back, split, position⟩
        have erased : cache.entries.eraseIdx victim.2 = front ++ back := by
          rw [split, <- position]
          simp [eraseIdx_append_of_length_le]
        rw [split] at shows
        have dropped : Steady view ⟨cache, disk⟩
            ⟨{ cache with entries := cache.entries.eraseIdx victim.2 }, disk⟩ :=
          ⟨by rw [erased]; exact shows.drop isClean, id, fun inside entry member =>
            inside entry (mem_of_mem_eraseIdx member)⟩
        exact dropped.trans (ih _ dropped.shows)
    · rw [if_neg surplus]
      exact ⟨shows, id, id⟩

theorem trimClean_steady (keepBlocks : Nat) (shows : Shows state.cache.entries state.disk view) :
    Steady view state (trimClean keepBlocks state).2 := trimLoop_steady keepBlocks _ 0 shows

/-- One use of the cache.  The change made after `get_mut` is arbitrary. -/
inductive Operation where
  | get (block : Nat)
  | getMut (block : Nat) (change : Block -> Block)
  | flush
  | trimClean (keepBlocks : Nat)

/-- The cache beside the contents it should present: a plain map that is
changed by every successful `get_mut` and by nothing else. -/
structure Traced where
  state : Cached
  expected : Nat -> Block

namespace Traced

def step (traced : Traced) : Operation -> Traced
  | .get block => { traced with state := (Cached.get block traced.state).2 }
  | .getMut block change =>
    { state := (Cached.getMut block change traced.state).2
      expected :=
        if (Cached.getMut block change traced.state).1 = .ok () then
          Function.update traced.expected block (change (traced.expected block))
        else traced.expected }
  | .flush => { traced with state := (Cached.flush traced.state).2 }
  | .trimClean keepBlocks =>
    { traced with state := (Cached.trimClean keepBlocks traced.state).2 }

def run (traced : Traced) (operations : List Operation) : Traced :=
  operations.foldl step traced

/-- The cache as `format_image` creates it, over any device. -/
def empty (disk : Disk) : Traced where
  state := { cache := BlockCache.new, disk := disk }
  expected := disk.block

/-- The cache as a successful mount creates it: the superblock has been read. -/
def mounted (disk : Disk) : Traced where
  state := { cache := BlockCache.withCleanBlock 0 (disk.block 0), disk := disk }
  expected := disk.block

/-- The invariant of a run. -/
structure Faithful (traced : Traced) : Prop where
  coherent : Coherent traced.state
  expected : forall block, traced.state.logical block = traced.expected block

variable {traced : Traced}

theorem Faithful.shows (faithful : Faithful traced) :
    Shows traced.state.cache.entries traced.state.disk traced.expected := by
  have shows := faithful.coherent.shows
  rwa [funext faithful.expected] at shows

theorem Faithful.of_shows
    (shows : Shows traced.state.cache.entries traced.state.disk traced.expected)
    : Faithful traced := ⟨shows.coherent, shows.logical⟩

theorem faithful_empty (disk : Disk) : Faithful (empty disk) :=
  .of_shows ⟨nodup_nil, Nat.zero_le _, nofun, fun _ _ => rfl⟩

theorem faithful_mounted (disk : Disk) : Faithful (mounted disk) := by
  refine .of_shows ⟨nodup_singleton _, (by decide : 1 <= cacheSlots), fun entry member => ?_,
    fun _ _ => rfl⟩
  rw [mem_singleton.mp member]
  rfl

theorem step_faithful (faithful : Faithful traced) (operation : Operation) :
    Faithful (traced.step operation) := by
  have shows := faithful.shows
  cases operation with
  | get block => exact .of_shows (get_spec shows (Prod.eta _).symm).1.shows
  | getMut block change => exact .of_shows (getMut_spec shows (Prod.eta _).symm).1.shows
  | flush => exact .of_shows (flush_spec shows (Prod.eta _).symm).1.shows
  | trimClean keepBlocks => exact .of_shows (trimClean_steady keepBlocks shows).shows

theorem run_faithful (faithful : Faithful traced) (operations : List Operation) :
    Faithful (traced.run operations) := by
  induction operations generalizing traced with
  | nil => exact faithful
  | cons operation rest ih => exact ih (step_faithful faithful operation)

end Traced

/-- The state of the cache after any operations on any device: the logical
contents are the last written ones, fetches return them, entries are distinct
and at most 64, and a flush that succeeds has put them on the disk. -/
def Transparent (traced : Traced) : Prop :=
  (forall block, traced.state.logical block = traced.expected block) ∧
    (forall block data, (get block traced.state).1 = .ok data -> data = traced.expected block) ∧
    (traced.state.cache.entries.map CacheEntry.block).Nodup ∧
    traced.state.cache.entries.length <= 64 ∧
    ((flush traced.state).1 = .ok () -> forall block,
      (flush traced.state).2.disk.block block = (flush traced.state).2.logical block ∧
        (flush traced.state).2.logical block = traced.expected block)

/-- The block cache is transparent along every run, from either of the states
in which the filesystem creates it and whatever sector requests fail. -/
theorem blockCache_transparent (disk : Disk) (operations : List Operation) :
    Transparent ((Traced.empty disk).run operations) ∧
      Transparent ((Traced.mounted disk).run operations) := by
  have transparent : forall {traced : Traced}, Traced.Faithful traced ->
      Transparent (traced.run operations) := by
    intro traced start
    have faithful := Traced.run_faithful start operations
    have flushed := flush_spec faithful.shows (Prod.eta _).symm
    refine ⟨faithful.expected, fun block => (get_spec faithful.shows (Prod.eta _).symm).2.1,
      faithful.coherent.distinct, faithful.coherent.bounded, fun success block => ?_⟩
    rw [flushed.1.shows.logical]
    exact ⟨flushed.2.1 success block, rfl⟩
  exact ⟨transparent (Traced.faithful_empty disk), transparent (Traced.faithful_mounted disk)⟩

end Cached

end CoolOs.CoolFs
