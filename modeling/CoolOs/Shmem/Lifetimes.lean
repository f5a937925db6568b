import CoolOs.Shmem.Regions

namespace CoolOs.Shmem

open Sched Scheduler Tables List

/-!
# Shared frames outlive their mappings

The references are counted exactly, so the frames of a region are freed when no
task refers to it any more.  They may still be mapped then: mappings belong to an
address space, which several tasks share, and references to a task.
-/

variable {regions : List (Option SharedMemRegion)} {id : Nat} {call : SchedCall} {sched : Scheduler}

theorem regionAt_set (inside : id < regions.length) (slot : Option SharedMemRegion) (other : Nat) :
    regionAt (regions.set id slot) other = if id = other then slot else regionAt regions other := by
  by_cases same : id = other
  · subst same
    simp [regionAt, inside]
  · simp [regionAt, same]

theorem lt_of_regionAt {region : SharedMemRegion} (found : regionAt regions id = some region) :
    id < regions.length := by
  rcases Option.join_eq_some_iff.mp found with slot
  exact (List.getElem?_eq_some_iff.mp slot).1

theorem regionAt_pad (regions : List (Option SharedMemRegion)) (count id : Nat) :
    regionAt (regions ++ replicate count none) id = regionAt regions id := by
  unfold regionAt
  by_cases inside : id < regions.length
  · rw [getElem?_append_left inside]
  · rw [getElem?_append_right (Nat.le_of_not_lt inside), getElem?_replicate,
      getElem?_eq_none (Nat.le_of_not_lt inside)]
    split <;> rfl

/-- The count of every region is the number of references in a list. -/
def Counted (regions : List (Option SharedMemRegion)) (refs : List Nat) : Prop :=
  forall id region, regionAt regions id = some region -> region.refcount = refs.count id

/-- What releasing references does: the regions that are left have their frames and
count the references that are left, those still referred to are left, and what is
freed belonged to a region that is gone. -/
structure Released (before after : List (Option SharedMemRegion)) (freed : List Nat)
    (refs : List Nat) : Prop where
  counted : Counted after refs
  kept : forall id region, regionAt after id = some region ->
    Exists fun old => regionAt before id = some old ∧ region.frames = old.frames
  stays : forall id region, regionAt before id = some region -> id ∈ refs ->
    Exists fun next => regionAt after id = some next ∧ next.frames = region.frames
  gone : ∀ frame ∈ freed, ∃ id region,
    regionAt before id = some region ∧ frame ∈ region.frames ∧ regionAt after id = none

theorem releaseRef_released {refs freed : List Nat} (counted : Counted regions (id :: refs)) :
    ∃ more, (releaseRef (freed, regions) id).1 = freed ++ more ∧
      Released regions (releaseRef (freed, regions) id).2 more refs := by
  have others (other : Nat) (apart : id ≠ other) : (id :: refs).count other = refs.count other :=
    count_cons_of_ne apart
  unfold releaseRef
  cases found : regionAt regions id with
  | none =>
    refine ⟨[], by simp, fun other region present => ?_, fun other region present =>
      ⟨region, present, rfl⟩, fun other region present _ => ⟨region, present, rfl⟩, by simp⟩
    have apart : id ≠ other := by
      rintro rfl
      cases found.symm.trans present
    rw [<- others other apart]
    exact counted other region present
  | some region =>
    have inside := lt_of_regionAt found
    have count : region.refcount = refs.count id + 1 := by
      rw [counted id region found, count_cons_self]
    dsimp only
    split
    · next last =>
      refine ⟨region.frames, rfl, ?_, ?_, ?_, ?_⟩
      · intro other next present
        rw [regionAt_set inside] at present
        split at present
        · cases present
        · next apart =>
          rw [<- others other apart]
          exact counted other next present
      · intro other next present
        rw [regionAt_set inside] at present
        split at present
        · cases present
        · exact ⟨next, present, rfl⟩
      · intro other next present referred
        have apart : id ≠ other := by
          rintro rfl
          have positive := count_pos_iff.mpr referred
          omega
        exact ⟨next, by rw [regionAt_set inside, if_neg apart]; exact present, rfl⟩
      · intro frame member
        exact ⟨id, region, found, member, by rw [regionAt_set inside, if_pos rfl]⟩
    · refine ⟨[], by simp, ?_, ?_, ?_, by simp⟩
      · intro other next present
        rw [regionAt_set inside] at present
        split at present
        · next same =>
          cases present
          subst same
          dsimp only
          omega
        · next apart =>
          rw [<- others other apart]
          exact counted other next present
      · intro other next present
        rw [regionAt_set inside] at present
        split at present
        · next same =>
          cases present
          subst same
          exact ⟨region, found, rfl⟩
        · exact ⟨next, present, rfl⟩
      · intro other next present _
        rw [regionAt_set inside]
        by_cases same : id = other
        · subst same
          cases found.symm.trans present
          exact ⟨_, if_pos rfl, rfl⟩
        · exact ⟨next, by rw [if_neg same]; exact present, rfl⟩

theorem foldl_releaseRef_released (ids : List Nat) {regions : List (Option SharedMemRegion)}
    {refs freed : List Nat} (counted : Counted regions (ids ++ refs)) :
    ∃ more, (ids.foldl releaseRef (freed, regions)).1 = freed ++ more ∧
      Released regions (ids.foldl releaseRef (freed, regions)).2 more refs := by
  induction ids generalizing regions freed with
  | nil =>
    exact ⟨[], by simp, counted, fun _ region present => ⟨region, present, rfl⟩,
      fun _ region present _ => ⟨region, present, rfl⟩, by simp⟩
  | cons id rest ih =>
    rcases @releaseRef_released regions id (rest ++ refs) freed counted with
      ⟨first, firstFreed, one⟩
    rw [foldl_cons]
    generalize releaseRef (freed, regions) id = state at firstFreed one
    rcases state with ⟨freedNow, regionsNow⟩
    dsimp only at firstFreed one
    rcases @ih regionsNow freedNow one.counted with ⟨later, laterFreed, many⟩
    refine ⟨first ++ later, by rw [laterFreed, firstFreed, append_assoc], many.counted, ?_, ?_, ?_⟩
    · intro other region present
      rcases many.kept other region present with ⟨middle, foundMiddle, same⟩
      rcases one.kept other middle foundMiddle with ⟨old, found, sameOld⟩
      exact ⟨old, found, same.trans sameOld⟩
    · intro other region present referred
      rcases one.stays other region present (mem_append_right rest referred) with
        ⟨middle, foundMiddle, same⟩
      rcases many.stays other middle foundMiddle referred with ⟨next, found, sameNext⟩
      exact ⟨next, found, sameNext.trans same⟩
    · intro frame member
      rcases mem_append.mp member with early | late
      · rcases one.gone frame early with ⟨other, region, found, has, absent⟩
        refine ⟨other, region, found, has, ?_⟩
        cases still : regionAt (rest.foldl releaseRef (freedNow, regionsNow)).2 other with
        | none => rfl
        | some next =>
          rcases many.kept other next still with ⟨middle, foundMiddle, _⟩
          cases absent.symm.trans foundMiddle
      · rcases many.gone frame late with ⟨other, middle, foundMiddle, has, absent⟩
        rcases one.kept other middle foundMiddle with ⟨old, found, same⟩
        exact ⟨other, old, found, same ▸ has, absent⟩

theorem releaseShmemRefs_released {ids refs : List Nat} (counted : Counted regions (ids ++ refs)) :
    Released regions (releaseShmemRefs regions ids).2 (releaseShmemRefs regions ids).1 refs := by
  rcases @foldl_releaseRef_released ids regions refs [] counted with ⟨more, freed, released⟩
  rw [nil_append] at freed
  rw [releaseShmemRefs, freed]
  exact released

/-- A call that loads an image gives users to no address space but the new one, and
takes no task but a dropped one away from another. -/
theorem perform_users (steady : call.steady sched = true) {pml4 : Nat}
    (old : call.creates ≠ some pml4) (used : (call.perform sched).Uses pml4) :
    sched.Uses pml4 ∧ ∀ taskId, sched.pml4Of taskId = some pml4 ->
      (call.perform sched).pml4Of taskId = some pml4 ∨ drops sched call = some taskId := by
  cases creates : call.creates with
  | none =>
    have keeps := SchedCall.perform_keeps steady creates
    exact ⟨keeps.uses pml4 used, fun taskId has => .inl (keeps.roots pml4 used taskId has)⟩
  | some image =>
    have different : image ≠ pml4 := fun same => old (same ▸ creates)
    rw [SchedCall.perform] at used ⊢
    rcases SchedCall.effect_creates creates with same | ⟨fresh, pushed, _, space⟩ | rfl
    · rw [same] at used ⊢
      exact ⟨used, fun _ has => .inl has⟩
    · rw [pushed] at used ⊢
      rcases used with ⟨taskId, task, found, taskAlive, has⟩
      have inside : taskId < sched.tasks.length := by
        by_contra outside
        rw [push, getElem?_append_right (Nat.le_of_not_lt outside)] at found
        have only := mem_singleton.mp (mem_of_getElem? found)
        rw [only, space] at has
        exact different (Option.some.inj has)
      rw [push, getElem?_append_left inside] at found
      refine ⟨⟨taskId, task, found, taskAlive, has⟩, fun other otherHas => .inl ?_⟩
      rcases Option.bind_eq_some_iff.mp otherHas with ⟨next, present, _⟩
      have bound := (List.getElem?_eq_some_iff.mp present).1
      rwa [pml4Of, push, getElem?_append_left bound]
    · simp only [SchedCall.effect, sysExec] at used ⊢
      rcases used with ⟨taskId, task, found, alive, has⟩
      have apart : sched.current ≠ taskId := by
        rintro rfl
        rw [modifyTask_self] at found
        rcases Option.map_eq_some_iff.mp found with ⟨_, _, rfl⟩
        exact different (Option.some.inj has)
      rw [modifyTask_other _ _ apart] at found
      refine ⟨⟨taskId, task, found, alive, has⟩, fun other otherHas => ?_⟩
      by_cases here : sched.current = other
      · exact .inr (congrArg some here)
      · exact .inl (by rwa [pml4Of, modifyTask_other _ _ here])

theorem perform_grows (steady : call.steady sched = true) :
    sched.tasks.length <= (call.perform sched).tasks.length ∧ (sched.current < sched.tasks.length ->
        (call.perform sched).current < (call.perform sched).tasks.length) := by
  cases creates : call.creates with
  | none =>
    have keeps := SchedCall.perform_keeps steady creates
    exact ⟨keeps.length, keeps.current⟩
  | some image =>
    rw [SchedCall.perform]
    rcases SchedCall.effect_creates creates with same | ⟨fresh, pushed, _⟩ | rfl
    · rw [same]
      exact ⟨Nat.le_refl _, id⟩
    · rw [pushed]
      simp only [push, length_append]
      exact ⟨Nat.le_add_right _ _, fun inside => Nat.lt_add_right _ inside⟩
    · simp [SchedCall.effect, sysExec]

namespace Shared

/-- The references are counted, the regions have no frame in common, and every page
that is mapped in an address space in use belongs to a region that a task of that
address space refers to. -/
structure Sound (shared : Shared) : Prop where
  counted : Counted shared.regions shared.taskRefs.flatten
  disjoint : forall first second left right frame, regionAt shared.regions first = some left ->
    regionAt shared.regions second = some right -> frame ∈ left.frames -> frame ∈ right.frames ->
    first = second
  covered : ∀ page ∈ shared.mapped, shared.sched.Uses page.pml4 ->
    ∃ id region taskId,
      regionAt shared.regions id = some region ∧ page.frame ∈ region.frames ∧
      shared.sched.pml4Of taskId = some page.pml4 ∧ id ∈ holding shared.taskRefs taskId
  numbered : ∀ id ∈ shared.taskRefs.flatten, id < shared.nextId
  known : forall id region, regionAt shared.regions id = some region -> id < shared.nextId
  tail : forall taskId, shared.sched.tasks.length <= taskId -> holding shared.taskRefs taskId = []
  current : shared.sched.current < shared.sched.tasks.length

/-- Some page of a region is mapped in an address space. -/
def mappedIn (shared : Shared) (pml4 id : Nat) : Bool :=
  shared.mapped.any (fun page => page.pml4 == pml4 &&
    (regionAt shared.regions id).any (fun region => region.frames.contains page.frame))

/-- Another task of an address space refers to a region. -/
def sharesRef (shared : Shared) (besides : Nat -> Bool) (pml4 id : Nat) : Bool :=
  (range shared.taskRefs.length).any (fun other =>
    besides other && shared.sched.pml4Of other == some pml4 &&
      (holding shared.taskRefs other).contains id)

/-- When a call drops the references of a task whose address space stays in use, what
it refers to and is mapped there another task of the address space refers to too. -/
def spared (shared : Shared) (call : SchedCall) : Bool :=
  (drops shared.sched call).all (fun taskId =>
    (shared.sched.pml4Of taskId).all (fun pml4 =>
      !(call.perform shared.sched).inUse pml4 || (holding shared.taskRefs taskId).all (fun id =>
          !shared.mappedIn pml4 id || shared.sharesRef (fun other => other != taskId) pml4 id)))

/-- A map that fails leaves no page of a region mapped that no task of the address
space refers to. -/
def mapsCleanly (shared : Shared) (id : Nat) (tables : Nat -> Bool) : Bool :=
  (shared.shmemMap id tables).1.isSome ||
    decide ((shared.shmemMap id tables).2.mapped = shared.mapped) ||
    (shared.sched.pml4Of shared.sched.current).all (fun pml4 =>
      !shared.sched.inUse pml4 || shared.sharesRef (fun _ => true) pml4 id)

def orderly (shared : Shared) : ShmemCall -> Bool
  | .sched call => call.steady shared.sched && shared.spared call
  | .create _ _ => true
  | .map id tables => shared.mapsCleanly id tables

variable {shared : Shared} {taskId : Nat}

theorem sharesRef_spec {besides : Nat -> Bool} {pml4 : Nat}
    (shares : shared.sharesRef besides pml4 id = true) : ∃ other,
      besides other = true ∧ shared.sched.pml4Of other = some pml4 ∧
      id ∈ holding shared.taskRefs other := by
  rcases any_eq_true.mp shares with ⟨other, _, both⟩
  simp only [Bool.and_eq_true, beq_iff_eq, contains_iff_mem] at both
  exact ⟨other, both.1.1, both.1.2, both.2⟩

theorem mapPages_spec (tables : Nat -> Bool) (pml4 virt : Nat) (frames : List Nat)
    (mapped : List Mapping) {page : Mapping}
    (member : page ∈ (mapPages tables pml4 virt frames mapped).2) :
    page ∈ mapped ∨ page.pml4 = pml4 ∧ page.frame ∈ frames := by
  induction frames generalizing virt mapped with
  | nil => exact .inl member
  | cons frame rest ih =>
    rw [mapPages] at member
    split at member
    · rcases ih _ _ member with old | ⟨here, listed⟩
      · exact .inl old
      · exact .inr ⟨here, mem_cons_of_mem frame listed⟩
    · split at member
      · rcases ih _ _ member with old | ⟨here, listed⟩
        · rcases mem_append.mp old with old | new
          · exact .inl old
          · cases mem_singleton.mp new
            exact .inr ⟨rfl, mem_cons_self⟩
        · exact .inr ⟨here, mem_cons_of_mem frame listed⟩
      · exact .inl member

/-- One more reference of the current task. -/
theorem gain_tail (sound : shared.Sound) (id taskId : Nat)
    (outside : shared.sched.tasks.length <= taskId) :
    holding (gain shared.taskRefs shared.sched.current id) taskId = [] := by
  have apart : shared.sched.current ≠ taskId := by
    have inside := sound.current
    omega
  rw [holding_gain, if_neg apart]
  exact sound.tail taskId outside

theorem mem_holding_gain (more : Nat) (held : id ∈ holding shared.taskRefs taskId) :
    id ∈ holding (gain shared.taskRefs shared.sched.current more) taskId := by
  rw [holding_gain]
  split
  · exact mem_append_left _ held
  · exact held

theorem mem_flatten_gain {more : Nat}
    (member : id ∈ (gain shared.taskRefs shared.sched.current more).flatten) :
    id ∈ shared.taskRefs.flatten ∨ id = more := by
  have positive := count_pos_iff.mpr member
  rw [count_flatten_gain] at positive
  by_cases here : id = more
  · exact .inr here
  · have absent : [more].count id = 0 := count_eq_zero.mpr (by simpa using here)
    exact .inl (count_pos_iff.mp (by omega))

/-- The current task gets a reference to a region, a new one or one that is there, and may
map its frames. -/
theorem Sound.retain (sound : shared.Sound) {regions : List (Option SharedMemRegion)}
    (padded : ∀ other, regionAt regions other = regionAt shared.regions other) {id : Nat}
    (inside : id < regions.length) {region : SharedMemRegion}
    (count : region.refcount = shared.taskRefs.flatten.count id + 1)
    (kept : ∀ old, regionAt shared.regions id = some old -> region.frames = old.frames)
    (apart : ∀ other old, regionAt shared.regions other = some old -> id ≠ other ->
      ∀ frame ∈ region.frames, frame ∉ old.frames)
    {mapped : List Mapping} (pages : ∀ page ∈ mapped, page ∈ shared.mapped ∨
      shared.sched.pml4Of shared.sched.current = some page.pml4 ∧ page.frame ∈ region.frames)
    {nextId : Nat} (known : id < nextId) (later : shared.nextId <= nextId) :
    Sound ⟨shared.sched, regions.set id (some region), nextId,
      gain shared.taskRefs shared.sched.current id, mapped⟩ := by
  have slot (other : Nat) : regionAt (regions.set id (some region)) other =
      if id = other then some region else regionAt shared.regions other := by
    rw [regionAt_set inside, padded]
  refine ⟨?_, ?_, ?_, ?_, ?_, fun taskId => gain_tail sound _ taskId, sound.current⟩
  · intro other next found
    rw [slot] at found
    rw [count_flatten_gain]
    split at found
    · next same =>
      cases found
      subst same
      simp [count]
    · next different =>
      have absent : [id].count other = 0 := count_eq_zero.mpr (by simpa using Ne.symm different)
      rw [sound.counted other next found, absent]
      rfl
  · intro first second left right frame foundFirst foundSecond inFirst inSecond
    rw [slot] at foundFirst foundSecond
    split at foundFirst <;> split at foundSecond
    · next sameFirst sameSecond => exact sameFirst.symm.trans sameSecond
    · next different =>
      cases foundFirst
      exact absurd inSecond (apart second right foundSecond different frame inFirst)
    · next different _ =>
      cases foundSecond
      exact absurd inFirst (apart first left foundFirst different frame inSecond)
    · exact sound.disjoint first second left right frame foundFirst foundSecond inFirst inSecond
  · intro page member used
    rcases pages page member with old | ⟨root, listed⟩
    · rcases sound.covered page old used with ⟨other, next, taskId, found, has, root, held⟩
      by_cases same : id = other
      · subst same
        exact ⟨id, region, taskId, (slot id).trans (if_pos rfl), kept next found ▸ has, root,
          mem_holding_gain _ held⟩
      · exact ⟨other, next, taskId, ((slot other).trans (if_neg same)).trans found, has, root,
          mem_holding_gain _ held⟩
    · refine ⟨id, region, shared.sched.current, (slot id).trans (if_pos rfl), listed, root, ?_⟩
      rw [holding_gain, if_pos rfl]
      exact mem_append_right _ (mem_singleton.mpr rfl)
  · intro other member
    rcases mem_flatten_gain member with old | rfl
    · exact Nat.lt_of_lt_of_le (sound.numbered other old) later
    · exact known
  · intro other next found
    rw [slot] at found
    split at found
    · next same => exact same ▸ known
    · exact Nat.lt_of_lt_of_le (sound.known other next found) later

theorem shmemCreate_sound (sound : shared.Sound) (len : Nat)
    (frames : List Nat) : (shared.shmemCreate len frames).2.Sound := by
  unfold shmemCreate
  split
  · exact sound
  dsimp only
  split
  · exact sound
  split
  · exact sound
  next accepted =>
  simp only [not_or, Bool.not_eq_false] at accepted
  have allocated := accepted.2
  rw [allocatable, Bool.and_eq_true] at allocated
  have new (old : SharedMemRegion) : regionAt shared.regions shared.nextId ≠ some old :=
    fun found => Nat.lt_irrefl _ (sound.known _ old found)
  have unreferred : shared.taskRefs.flatten.count shared.nextId = 0 :=
    count_eq_zero.mpr fun member => Nat.lt_irrefl _ (sound.numbered _ member)
  refine sound.retain (regionAt_pad shared.regions _) ?_ (by rw [unreferred])
    (fun old found => absurd found (new old)) ?_ (fun _ member => .inl member)
    (Nat.lt_succ_self _) (Nat.le_succ _)
  · rw [length_append, length_replicate]
    omega
  · intro other old found _ frame listed
    have unused := all_eq_true.mp allocated.2 frame listed
    have slot := mem_of_getElem? (Option.join_eq_some_iff.mp found)
    simpa using all_eq_true.mp unused (some old) slot

theorem shmemMap_sound (sound : shared.Sound) {tables : Nat -> Bool}
    (cleanly : shared.mapsCleanly id tables = true) : (shared.shmemMap id tables).2.Sound := by
  unfold mapsCleanly at cleanly
  unfold shmemMap at cleanly ⊢
  split
  · next addr region pml4 window found root =>
    simp only [window, found, root] at cleanly
    by_cases full : shared.taskCanAddShmemPages shared.sched.current region.frames.length = false
    · rw [if_pos full]
      exact sound
    rw [if_neg full] at cleanly ⊢
    have pages {page : Mapping} := @mapPages_spec tables pml4 addr region.frames shared.mapped page
    generalize mapPages tables pml4 addr region.frames shared.mapped = outcome at pages cleanly ⊢
    rcases outcome with ⟨success, mapped⟩
    cases success with
    | false =>
      refine ⟨sound.counted, sound.disjoint, ?_, sound.numbered, sound.known, sound.tail,
        sound.current⟩
      intro page member used
      rcases pages member with old | ⟨rfl, listed⟩
      · exact sound.covered page old used
      · -- a new page of a failed map: some task of the address space refers to the region
        simp only [Option.isSome_none, Bool.false_or, Option.all_some, Bool.or_eq_true,
          decide_eq_true_eq, Bool.not_eq_true'] at cleanly
        rcases cleanly with same | unused | shares
        · exact sound.covered page (same ▸ member) used
        · rw [(inUse_iff _ _).mpr used] at unused
          cases unused
        · rcases sharesRef_spec shares with ⟨taskId, _, has, held⟩
          exact ⟨id, region, taskId, found, listed, has, held⟩
    | true =>
      refine sound.retain (fun _ => rfl) (lt_of_regionAt found)
        (by rw [sound.counted id region found]) (fun old here => ?_) ?_ ?_
        (sound.known id region found) (Nat.le_refl _)
      · cases found.symm.trans here
        rfl
      · intro other old present different frame listed has
        exact different (sound.disjoint id other region old frame found present listed has)
      · intro page member
        rcases pages member with old | ⟨rfl, listed⟩
        · exact .inl old
        · exact .inr ⟨root, listed⟩
  · exact sound

variable (shared)

/-- The references that are left after a call of the scheduler. -/
def refsAfter (call : SchedCall) : List (List Nat) :=
  match drops shared.sched call with
  | none => shared.taskRefs
  | some taskId => giveUp shared.taskRefs taskId

theorem count_refsAfter (call : SchedCall) (id : Nat) :
    shared.taskRefs.flatten.count id =
      (((drops shared.sched call).map (holding shared.taskRefs)).getD []).count id +
        (shared.refsAfter call).flatten.count id := by
  unfold refsAfter
  cases drops shared.sched call with
  | none => simp
  | some taskId => exact count_flatten_giveUp shared.taskRefs taskId id

theorem holding_refsAfter (call : SchedCall) (apart : drops shared.sched call ≠ some taskId) :
    holding (shared.refsAfter call) taskId = holding shared.taskRefs taskId := by
  unfold refsAfter
  cases dropped : drops shared.sched call with
  | none => rfl
  | some other =>
    have different : other ≠ taskId := fun same => apart (same ▸ dropped)
    rw [holding_giveUp, if_neg different]

theorem holding_refsAfter_nil (call : SchedCall)
    (none : holding shared.taskRefs taskId = []) : holding (shared.refsAfter call) taskId = [] := by
  unfold refsAfter
  split
  · exact none
  · rw [holding_giveUp]
    split
    · rfl
    · exact none

variable {shared}

/-- A new task had no references before, so nothing changes for the others. -/
theorem taskRefs_schedStep (sound : shared.Sound) (call : SchedCall) :
    (∀ taskId, holding (shared.schedStep call).2.taskRefs taskId =
      holding (shared.refsAfter call) taskId) ∧
    ∀ id, (shared.schedStep call).2.taskRefs.flatten.count id =
      (shared.refsAfter call).flatten.count id := by
  have fresh : holding (shared.refsAfter call) shared.sched.tasks.length = [] :=
    holding_refsAfter_nil shared call (sound.tail _ (Nat.le_refl _))
  have shape : (shared.schedStep call).2.taskRefs =
      if shared.sched.tasks.length < (call.perform shared.sched).tasks.length then
        giveUp (shared.refsAfter call) shared.sched.tasks.length
      else shared.refsAfter call := rfl
  rw [shape]
  split
  · constructor
    · intro taskId
      rw [holding_giveUp]
      split
      · next same => rw [<- same, fresh]
      · rfl
    · intro id
      rw [count_flatten_giveUp (shared.refsAfter call) shared.sched.tasks.length id, fresh]
      simp
  · exact ⟨fun _ => rfl, fun _ => rfl⟩

theorem schedStep_released (sound : shared.Sound) (call : SchedCall) :
    Released shared.regions (shared.schedStep call).2.regions (shared.schedStep call).1
      (shared.refsAfter call).flatten := by
  refine releaseShmemRefs_released fun id region found => ?_
  rw [sound.counted id region found, count_append]
  exact count_refsAfter shared call id

/-- A page of an address space that stays in use keeps a task that refers to its region. -/
theorem covered_holder (sound : shared.Sound) (spared : shared.spared call = true) {page : Mapping}
    (member : page ∈ shared.mapped) (usedBefore : shared.sched.Uses page.pml4)
    (used : (call.perform shared.sched).Uses page.pml4) :
    ∃ id region taskId,
      regionAt shared.regions id = some region ∧ page.frame ∈ region.frames ∧
      shared.sched.pml4Of taskId = some page.pml4 ∧ id ∈ holding shared.taskRefs taskId ∧
      drops shared.sched call ≠ some taskId := by
  rcases sound.covered page member usedBefore with ⟨id, region, taskId, found, has, root, held⟩
  by_cases dropped : drops shared.sched call = some taskId
  · have inUse := (inUse_iff _ _).mpr used
    have mapped : shared.mappedIn page.pml4 id = true :=
      any_eq_true.mpr ⟨page, member, by simp [found, has]⟩
    simp only [Shared.spared, dropped, root, Option.all_some, inUse, Bool.not_true,
      Bool.false_or, all_eq_true] at spared
    have shares := spared id held
    rw [mapped, Bool.not_true, Bool.false_or] at shares
    rcases sharesRef_spec shares with ⟨other, apart, otherRoot, otherHeld⟩
    refine ⟨id, region, other, found, has, otherRoot, otherHeld, ?_⟩
    rw [dropped]
    intro same
    cases same
    simp at apart
  · exact ⟨id, region, taskId, found, has, root, held, dropped⟩

theorem schedStep_sound (sound : shared.Sound) (steady : call.steady shared.sched = true)
    (spared : shared.spared call = true) : (shared.schedStep call).2.Sound := by
  have released := schedStep_released sound call
  rcases taskRefs_schedStep sound call with ⟨holds, counts⟩
  have grows := perform_grows steady
  refine ⟨?_, ?_, ?_, ?_, ?_, ?_, grows.2 sound.current⟩
  · intro id region found
    rw [counts]
    exact released.counted id region found
  · intro first second left right frame foundFirst foundSecond inFirst inSecond
    rcases released.kept first left foundFirst with ⟨oldFirst, presentFirst, sameFirst⟩
    rcases released.kept second right foundSecond with ⟨oldSecond, presentSecond, sameSecond⟩
    exact sound.disjoint first second oldFirst oldSecond frame presentFirst presentSecond
      (sameFirst ▸ inFirst) (sameSecond ▸ inSecond)
  · intro page member used
    have parts := mem_filter.mp member
    have old : call.creates ≠ some page.pml4 := by simpa using parts.2
    rcases perform_users steady old used with ⟨usedBefore, roots⟩
    rcases covered_holder sound spared parts.1 usedBefore used with
      ⟨id, region, taskId, found, has, root, held, apart⟩
    have heldAfter : id ∈ holding (shared.refsAfter call) taskId :=
      holding_refsAfter shared call apart ▸ held
    rcases released.stays id region found (mem_flatten_of_holding heldAfter) with
      ⟨next, later, same⟩
    refine ⟨id, next, taskId, later, same ▸ has, ?_, by rw [holds]; exact heldAfter⟩
    rcases roots taskId root with still | dropped
    · exact still
    · exact absurd dropped apart
  · intro id member
    have positive := count_pos_iff.mpr member
    rw [counts] at positive
    have total := count_refsAfter shared call id
    exact sound.numbered id (count_pos_iff.mp (by omega))
  · intro id region found
    rcases released.kept id region found with ⟨old, present, _⟩
    exact sound.known id old present
  · intro taskId outside
    rw [holds]
    exact holding_refsAfter_nil shared call (sound.tail taskId (Nat.le_trans grows.1 outside))

/-! ## Runs -/

/-- No frame that a call frees is mapped in an address space that is in use. -/
def FreesUnmapped (shared : Shared) (call : ShmemCall) : Prop :=
  ∀ frame ∈ (shared.step call).1, ∀ page ∈ (shared.step call).2.mapped,
    page.frame = frame -> ¬ (shared.step call).2.sched.Uses page.pml4

theorem step_sound (sound : shared.Sound) {call : ShmemCall}
    (orderly : shared.orderly call = true) :
    (shared.step call).2.Sound ∧ shared.FreesUnmapped call := by
  cases call with
  | create len frames => exact ⟨shmemCreate_sound sound len frames, by simp [FreesUnmapped, step]⟩
  | map id tables => exact ⟨shmemMap_sound sound orderly, by simp [FreesUnmapped, step]⟩
  | sched call =>
    rw [Shared.orderly, Bool.and_eq_true] at orderly
    have after := schedStep_sound sound orderly.1 orderly.2
    refine ⟨after, ?_⟩
    rintro frame freed page member rfl used
    have released := schedStep_released sound call
    rcases released.gone page.frame freed with ⟨id, region, found, has, absent⟩
    rcases after.covered page member used with ⟨other, next, _, later, hasNext, _, _⟩
    rcases released.kept other next later with ⟨old, present, same⟩
    -- two regions with one frame are the same region, and it is gone
    have shared := sound.disjoint id other region old page.frame found present has (same ▸ hasNext)
    subst shared
    cases absent.symm.trans later

/-- Every call of a run is orderly in the state it meets. -/
def orderlyRun (shared : Shared) : List ShmemCall -> Bool
  | [] => true
  | call :: rest => shared.orderly call && orderlyRun (shared.step call).2 rest

theorem boot_sound (credentials : Credentials) : (boot credentials).Sound where
  counted id region found := by simp [boot, regionAt] at found
  disjoint first _ left _ _ found := by simp [boot, regionAt] at found
  covered page member := by simp [boot] at member
  numbered id member := by simp [boot] at member
  known id region found := by simp [boot, regionAt] at found
  tail taskId _ := by cases taskId <;> simp [boot, holding]
  current := by simp [boot, Scheduler.idle]

/-- A process in address space 5 creates a region of one page in frame 9 and maps it. -/
def processMaps : List ShmemCall :=
  [.sched (.spawnElfProcess (some 4096) someUser 5 true none false), .sched (.schedule 0 0),
    .create 4096 [9], .map 1 (fun _ => true)]

end Shared

end CoolOs.Shmem
