import CoolOs.CoolFs.Format
import Mathlib.Data.Fintype.EquivFin
import Mathlib.Data.List.Nodup

namespace CoolOs.Fat

open CoolFs (Disk Sector fromLeBytes)
open List

/-!
# FAT32 volumes

The file allocation table of a FAT32 volume and the walk along a chain of clusters.
The fields of the boot sector are unsigned words, so they are natural numbers here, and
what the code computes from them is exact as long as it stays below `2 ^ 32`.
-/

variable {cluster : Nat}

@[simp] abbrev fatEntryMask : Nat := 0x0FFFFFFF

def byteAt (sec : Sector) (offset : Nat) : UInt8 := sec (Fin.ofNat 512 offset)

def le32 (sec : Sector) (offset : Nat) : Nat :=
  fromLeBytes [byteAt sec offset, byteAt sec (offset + 1), byteAt sec (offset + 2),
    byteAt sec (offset + 3)]

structure Bpb where
  baseLba : Nat
  bytesPerSector : Nat
  reservedSectors : Nat

namespace Bpb

variable (bpb : Bpb)

def fatStartLba : Nat := bpb.baseLba + bpb.reservedSectors

def fatNext (cluster : Nat) (disk : Disk) : Option Nat × Disk :=
  let byteOffset := cluster * 4
  match disk.readSector (bpb.fatStartLba + byteOffset / bpb.bytesPerSector) with
  | (none, disk) => (none, disk)
  | (some sec, disk) => (some (le32 sec (byteOffset % bpb.bytesPerSector) &&& fatEntryMask), disk)

/-- The clusters a chain can go through. -/
abbrev links (cluster : Nat) : Prop := 2 <= cluster ∧ cluster < 0x0FFFFFF8

/-- The loop of `cluster_chain_clusters`, for a number of rounds. -/
def clusterChainClusters : Nat -> Nat -> Disk -> Option (List Nat × Disk)
  | 0, _, _ => none
  | rounds + 1, cluster, disk =>
    if cluster < 2 ∨ 0x0FFFFFF8 <= cluster then some ([], disk)
    else
      match bpb.fatNext cluster disk with
      | (none, disk) => some ([cluster], disk)
      | (some next, disk) =>
        if 0x0FFFFFF8 <= next then some ([cluster], disk)
        else if next < 2 then some ([cluster], disk)
        else (clusterChainClusters rounds next disk).map (fun rest => (cluster :: rest.1, rest.2))

/-- The cluster that the links stored in the table lead to in a number of steps. -/
def linked : Nat -> Nat -> Disk -> Option Nat
  | 0, cluster, _ => if links cluster then some cluster else none
  | steps + 1, cluster, disk =>
    if links cluster then
      match bpb.fatNext cluster disk with
      | (none, _) => none
      | (some next, disk) => linked steps next disk
    else none

variable {bpb}

variable {disk : Disk} {steps : Nat}

theorem links_of_linked {found : Nat} (reached : bpb.linked steps cluster disk = some found) :
    links found := by
  induction steps generalizing cluster disk with
  | zero =>
    rw [linked] at reached
    split at reached
    · next inside => exact Option.some.inj reached ▸ inside
    · cases reached
  | succ steps ih =>
    rw [linked] at reached
    split at reached
    · split at reached
      · cases reached
      · exact ih reached
    · cases reached

theorem linked_of_not_links (outside : ¬ links cluster) (steps : Nat)
    (disk : Disk) : bpb.linked steps cluster disk = none := by
  cases steps <;> exact if_neg outside

/-- One round of the loop, for a cluster of the chain. -/
theorem clusterChainClusters_succ (inside : links cluster) (rounds : Nat)
    (disk : Disk) : bpb.clusterChainClusters (rounds + 1) cluster disk =
      match bpb.fatNext cluster disk with
      | (none, disk) => some ([cluster], disk)
      | (some next, disk) =>
        if links next then
          (bpb.clusterChainClusters rounds next disk).map (fun rest => (cluster :: rest.1, rest.2))
        else some ([cluster], disk) := by
  have within : ¬ (cluster < 2 ∨ 0x0FFFFFF8 <= cluster) := by omega
  rw [clusterChainClusters, if_neg within]
  rcases bpb.fatNext cluster disk with ⟨_ | next, after⟩
  · rfl
  · dsimp only
    split
    · rw [if_neg (by omega)]
    · split
      · rw [if_neg (by omega)]
      · rw [if_pos (by omega)]

/-- The list that is returned has the clusters the links lead to, in order. -/
theorem clusterChainClusters_some {rounds : Nat} {after : Disk} {clusters : List Nat}
    (ran : bpb.clusterChainClusters rounds cluster disk = some (clusters, after)) (steps : Nat) :
    clusters[steps]? = bpb.linked steps cluster disk := by
  induction rounds generalizing cluster disk clusters steps with
  | zero => cases ran
  | succ rounds ih =>
    by_cases inside : links cluster
    · rw [clusterChainClusters_succ inside] at ran
      have walked : ∃ rest, clusters = cluster :: rest ∧
          ∀ steps, rest[steps]? = bpb.linked (steps + 1) cluster disk := by
        simp only [linked, if_pos inside]
        revert ran
        rcases bpb.fatNext cluster disk with ⟨_ | next, between⟩ <;> intro ran
        · cases ran
          exact ⟨[], rfl, fun _ => rfl⟩
        · dsimp only at ran
          split at ran
          · rcases Option.map_eq_some_iff.mp ran with ⟨⟨rest, last⟩, found, same⟩
            cases same
            exact ⟨rest, rfl, ih found⟩
          · next outside =>
            cases ran
            exact ⟨[], rfl, fun steps => (linked_of_not_links outside steps _).symm⟩
      rcases walked with ⟨rest, rfl, tail⟩
      cases steps with
      | zero => exact (if_pos inside).symm
      | succ steps => exact tail steps
    · rw [clusterChainClusters, if_pos (by omega)] at ran
      cases ran
      exact (linked_of_not_links inside steps _).symm

/-- As many rounds as there are steps until the links end are enough. -/
theorem clusterChainClusters_ends (ends : bpb.linked steps cluster disk = none) :
    ∃ clusters after,
      bpb.clusterChainClusters (steps + 1) cluster disk = some (clusters, after) := by
  induction steps generalizing cluster disk with
  | zero =>
    have outside : ¬ links cluster := by
      intro inside
      rw [linked, if_pos inside] at ends
      cases ends
    exact ⟨[], disk, by rw [clusterChainClusters, if_pos (by omega)]⟩
  | succ steps ih =>
    by_cases inside : links cluster
    · rw [linked, if_pos inside] at ends
      rw [clusterChainClusters_succ inside]
      rcases step : bpb.fatNext cluster disk with ⟨_ | next, between⟩
      · exact ⟨_, _, rfl⟩
      · rw [step] at ends
        dsimp only at ends ⊢
        split
        · rcases ih ends with ⟨clusters, after, found⟩
          exact ⟨_, _, by rw [found]; rfl⟩
        · exact ⟨_, _, rfl⟩
    · exact ⟨[], disk, by rw [clusterChainClusters, if_pos (by omega)]⟩

/-- Links that never lead to a cluster again lead to an end: there are fewer than `2 ^ 28`
clusters. -/
theorem linked_ends
    (once : ∀ first second found, bpb.linked first cluster disk = some found ->
      bpb.linked second cluster disk = some found -> first = second)
    : ∃ steps, bpb.linked steps cluster disk = none := by
  by_contra endless
  push Not at endless
  choose found reached using fun steps => Option.ne_none_iff_exists'.mp (endless steps)
  refine not_injective_infinite_finite
    (fun steps => (⟨found steps, (links_of_linked (reached steps)).2⟩ : Fin 0x0FFFFFF8)) ?_
  intro first second same
  have equal : found first = found second := congrArg Fin.val same
  exact once first second _ (reached first) (equal ▸ reached second)

/-- A disk whose table entries for the clusters 2 and 3 point to each other. -/
def crossed : Disk where
  sectors _ place := if place.val = 8 then 3 else if place.val = 12 then 2 else 0
  reads _ := true
  writes _ := .stored

def smallVolume : Bpb := ⟨0, 512, 1⟩

end Bpb

end CoolOs.Fat
