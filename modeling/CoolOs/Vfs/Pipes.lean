import CoolOs.Vfs.PipeCalls

namespace CoolOs.Vfs

open Queues Function List VfsState

/-!
# One pipe through the calls

What the moves of a call can do to the pipe in one slot: it is created empty,
its ends are counted up and down, it goes.  Its bytes do not change, and the
last end of one side wakes the tasks that wait on the other.
-/

variable (shared : SharedObject)

/-- The other side of a pipe. -/
def FdAccess.peer : FdAccess -> FdAccess
  | .file => .file
  | .pipeRead => .pipeWrite
  | .pipeWrite => .pipeRead

namespace Pipe

/-- The number of ends on one side. -/
def ends (pipe : Pipe) : FdAccess -> Nat
  | .file => 0
  | .pipeRead => pipe.readers
  | .pipeWrite => pipe.writers

/-- The tasks that wait on one side. -/
def waiting (pipe : Pipe) : FdAccess -> List Nat
  | .file => []
  | .pipeRead => pipe.waitingReaders
  | .pipeWrite => pipe.waitingWriters

/-- The tasks that are woken when one end goes. -/
def wokenBy (pipe : Pipe) : FdAccess -> List Nat
  | .file => []
  | .pipeRead => pipe.releaseReader.1
  | .pipeWrite => pipe.releaseWriter.1

@[simp] theorem retained_waiting (pipe : Pipe) (access side : FdAccess) :
    (pipe.retained access).waiting side = pipe.waiting side := by
  cases side <;> rfl

theorem ends_retained (pipe : Pipe) (access side : FdAccess) :
    pipe.ends side <= (pipe.retained access).ends side := by
  cases side with
  | file => exact Nat.le_refl 0
  | pipeRead => exact Nat.le_add_right _ _
  | pipeWrite => exact Nat.le_add_right _ _

@[simp] theorem released_ring (pipe : Pipe) (access : FdAccess) :
    (pipe.released access).ring = pipe.ring := by
  cases access with
  | file => rfl
  | pipeRead =>
    simp only [released, releaseReader]
    split <;> rfl
  | pipeWrite =>
    simp only [released, releaseWriter]
    split <;> rfl

/-- Only the last end of a side wakes anybody. -/
theorem wokenBy_of_ends (pipe : Pipe) {access : FdAccess}
    (left : (pipe.released access).ends access ≠ 0) : pipe.wokenBy access = [] := by
  cases access with
  | file => rfl
  | pipeRead =>
    rw [ends, released_readers, if_pos rfl] at left
    simp only [wokenBy, releaseReader]
    rw [if_neg left]
  | pipeWrite =>
    rw [ends, released_writers, if_pos rfl] at left
    simp only [wokenBy, releaseWriter]
    rw [if_neg left]

/-- A task that waits on one side, when an end goes: it is woken, or it still
waits and the other side has not just lost its last end, or its own side has no
end left. -/
theorem released_waiting (pipe : Pipe) (access : FdAccess) {side : FdAccess} {taskId : Nat}
    (waits : taskId ∈ pipe.waiting side) :
    taskId ∈ pipe.wokenBy access ∨ (taskId ∈ (pipe.released access).waiting side ∧
        ((pipe.released access).ends side.peer = 0 -> pipe.ends side.peer = 0)) ∨
      (pipe.released access).ends side = 0 := by
  cases access with
  | file => exact .inr (.inl ⟨waits, id⟩)
  | pipeRead =>
    simp only [wokenBy, released, releaseReader]
    by_cases last : pipe.readers - 1 = 0
    · rw [if_pos last]
      cases side with
      | file => exact absurd waits not_mem_nil
      | pipeRead => exact .inr (.inr last)
      | pipeWrite => exact .inl waits
    · rw [if_neg last]
      cases side with
      | file => exact absurd waits not_mem_nil
      | pipeRead => exact .inr (.inl ⟨waits, id⟩)
      | pipeWrite => exact .inr (.inl ⟨waits, fun none => absurd none last⟩)
  | pipeWrite =>
    simp only [wokenBy, released, releaseWriter]
    by_cases last : pipe.writers - 1 = 0
    · rw [if_pos last]
      cases side with
      | file => exact absurd waits not_mem_nil
      | pipeRead => exact .inl waits
      | pipeWrite => exact .inr (.inr last)
    · rw [if_neg last]
      cases side with
      | file => exact absurd waits not_mem_nil
      | pipeRead => exact .inr (.inl ⟨waits, fun none => absurd none last⟩)
      | pipeWrite => exact .inr (.inl ⟨waits, id⟩)

end Pipe

variable {pipe : Pipe} {entries held lost : List LocalFd} {entry : LocalFd} {first second : Config}
  {woken : List Nat} {after : VfsState} {changes : Pipe -> Pipe -> List Nat -> Prop}

variable {other : Nat -> Option SharedObject}

theorem pipeIn_retain (access : FdAccess) :
    pipeIn (some (shared.retain access)) =
      (pipeIn (some shared)).map (fun pipe => pipe.retained access) := by
  rcases shared with ⟨refs, kind⟩
  cases kind with
  | file file => cases access <;> rfl
  | pipe pipe => cases access <;> rfl

theorem pipeIn_release (access : FdAccess) :
    pipeIn (some (shared.release access).2) =
      (pipeIn (some shared)).map (fun pipe => pipe.released access) := by
  rcases shared with ⟨refs, kind⟩
  cases kind with
  | file file => cases access <;> rfl
  | pipe pipe => cases access <;> rfl

theorem release_woken {shared : SharedObject} (kind : shared.kind = .pipe pipe) (access : FdAccess)
    : (shared.release access).1 = pipe.wokenBy access := by
  rcases shared with ⟨refs, _⟩
  subst kind
  cases access <;> rfl

variable {object : Nat -> Option SharedObject} {keep : Nat -> Nat -> Prop}
  {makes : SharedKind -> Prop} {vfs : VfsState}

/-- The counted ends of a pipe. -/
theorem Tallied.ends (tallied : Tallied object entries) {id : Nat}
    (found : pipeIn (object id) = some pipe) {access : FdAccess} (isEnd : access.isPipe = true) :
    pipe.ends access = holding entries id access := by
  rcases pipeIn_eq_some.mp found with ⟨shared, present, kind⟩
  cases access with
  | file => cases isEnd
  | pipeRead => exact (tallied id).readers shared pipe present kind
  | pipeWrite => exact (tallied id).writers shared pipe present kind

/-- What a move does to the pipe in one slot, and tasks it wakes. -/
inductive PipeStep (makes : SharedKind -> Prop) :
    Option Pipe -> Option Pipe -> List Nat -> Prop
  | same (slot : Option Pipe) (woken : List Nat) : PipeStep makes slot slot woken
  | create (made : makes (.pipe .new)) (access : FdAccess) :
      PipeStep makes none (some (Pipe.new.retained access)) []
  | retain (pipe : Pipe) (access : FdAccess) :
      PipeStep makes (some pipe) (some (pipe.retained access)) []
  | release (pipe : Pipe) (access : FdAccess) :
      PipeStep makes (some pipe) (some (pipe.released access)) (pipe.wokenBy access)
  | gone (pipe : Pipe) (woken : List Nat) : PipeStep makes (some pipe) none woken

/-- Releasing a descriptor that has a copy wakes nobody. -/
theorem release_quiet {shared : SharedObject} (tallied : Tallied object (entry :: entries))
    (found : object entry.object = some shared) (spare : entry ∈ entries) :
    (shared.release entry.access).1 = [] := by
  cases kind : shared.kind with
  | file file =>
    unfold SharedObject.release
    rw [kind]
  | pipe pipe =>
    rw [release_woken kind]
    have after := tallied.release found
    rcases after.found spare with ⟨rest, left⟩
    rw [update_self, Tallied.remainder] at left
    split at left
    · cases left
    · next more =>
      have isPipe : pipeIn (some shared) = some pipe := pipeIn_eq_some.mpr ⟨shared, rfl, kind⟩
      have stays : pipeIn (Function.update object entry.object
          (Tallied.remainder shared entry.access) entry.object) =
          some (pipe.released entry.access) := by
        rw [update_self, Tallied.remainder, if_neg more, pipeIn_release, isPipe]
        rfl
      cases isEnd : entry.access.isPipe with
      | false =>
        cases access : entry.access with
        | file => rfl
        | pipeRead => rw [access] at isEnd; cases isEnd
        | pipeWrite => rw [access] at isEnd; cases isEnd
      | true =>
        apply pipe.wokenBy_of_ends
        rw [after.ends stays isEnd]
        exact Nat.ne_of_gt (holding_pos spare)

/-- A move, seen at one slot. -/
theorem Recount.pipeStep (recount : Recount makes object entries other held woken)
    (tallied : Tallied object entries) (id : Nat) :
    PipeStep makes (pipeIn (object id)) (pipeIn (other id)) woken := by
  cases recount with
  | same same => exact .same _ _
  | @create kind entry free made fresh suits =>
    by_cases here : id = entry.object
    · subst here
      rw [update_self, free, pipeIn_retain]
      cases kind with
      | file file => exact .same _ _
      | pipe pipe =>
        have new := fresh pipe rfl
        subst new
        exact .create made entry.access
    · rw [update_of_ne here]
      exact .same _ _
  | @retain entry _ shared found listed same alike =>
    by_cases here : id = entry.object
    · subst here
      rw [update_self, found, pipeIn_retain]
      cases pipeIn (some shared) with
      | none => exact .same _ _
      | some pipe => exact .retain pipe entry.access
    · rw [update_of_ne here]
      exact .same _ _
  | @release entry _ shared _ first found wakes =>
    subst first
    have wakes : woken = (shared.release entry.access).1 :=
      wakes.elim (fun same => same) fun quiet =>
        quiet.1.trans (release_quiet tallied found quiet.2).symm
    rw [wakes]
    by_cases here : id = entry.object
    · subst here
      rw [update_self, found, Tallied.remainder]
      split
      · cases pipeIn (some shared) with
        | none => exact .same _ _
        | some pipe => exact .gone pipe _
      · rw [pipeIn_release]
        cases isPipe : pipeIn (some shared) with
        | none => exact .same _ _
        | some pipe =>
          rcases pipeIn_eq_some.mp isPipe with ⟨_, ⟨rfl⟩, kind⟩
          rw [release_woken kind]
          exact .release pipe entry.access
    · rw [update_of_ne here]
      exact .same _ _

theorem Move.pipeStep (move : Move keep makes first second woken)
    (tallied : Tallied first.vfs.object first.counted) (id : Nat) :
    PipeStep makes (first.vfs.pipeAt id) (second.vfs.pipeAt id) woken :=
  (move.recounts tallied).pipeStep tallied id

/-- A call that handles no descriptor, seen at one slot. -/
theorem Touch.pipeChange (touch : Touch vfs changes after woken) (id : Nat) :
    after.pipeAt id = vfs.pipeAt id ∨ ∃ pipe changed,
      vfs.pipeAt id = some pipe ∧ after.pipeAt id = some changed ∧ changes pipe changed woken := by
  cases touch with
  | same => exact .inl rfl
  | @file other shared file found kind changed =>
    left
    rw [pipeAt, pipeAt, setFile, object_setObject (object_lt found)]
    by_cases here : id = other
    · subst here
      rcases shared with ⟨refs, _⟩
      dsimp only at kind
      rw [update_self, found, kind]
      rfl
    · rw [update_of_ne here]
  | @pipe other shared pipe changed woken found kind change =>
    rw [pipeAt, pipeAt, setPipe, object_setObject (object_lt found)]
    by_cases here : id = other
    · subst here
      right
      exact ⟨pipe, changed, pipeIn_eq_some.mpr ⟨shared, found, kind⟩,
        by rw [update_self]; rfl, change⟩
    · left
      rw [update_of_ne here]

/-! ## Descriptors and kinds -/

@[simp] theorem retain_isPipe (access : FdAccess) :
    (shared.retain access).kind.isPipe = shared.kind.isPipe := by
  rcases shared with ⟨refs, kind⟩
  cases kind <;> cases access <;> rfl

@[simp] theorem release_isPipe (access : FdAccess) :
    (shared.release access).2.kind.isPipe = shared.kind.isPipe := by
  rcases shared with ⟨refs, kind⟩
  cases kind <;> cases access <;> rfl

/-- An object that keeps its kind. -/
theorem Suited.update (suited : Suited object entries) {id : Nat} {shared : SharedObject}
    (found : object id = some shared) {slot : Option SharedObject}
    (same : ∀ after, slot = some after -> after.kind.isPipe = shared.kind.isPipe) :
    Suited (Function.update object id slot) entries := by
  intro entry listed after present
  by_cases here : entry.object = id
  · rw [here, update_self] at present
    rw [same after present]
    exact suited entry listed shared (by rw [here]; exact found)
  · rw [update_of_ne here] at present
    exact suited entry listed after present

theorem Suited.perm {others : List LocalFd} (suited : Suited object entries)
    (same : entries.Perm others) : Suited object others :=
  fun entry listed => suited entry (same.mem_iff.mpr listed)

/-- A move keeps descriptors and kinds together. -/
theorem Recount.suited (recount : Recount makes object entries other held woken)
    (tallied : Tallied object entries) (suited : Suited object entries) : Suited other held := by
  cases recount with
  | same same => exact suited.perm same
  | @create kind entry free made fresh suits =>
    intro other listed shared present
    rcases mem_cons.mp listed with rfl | listed
    · rw [update_self] at present
      cases present
      exact (retain_isPipe _ _).trans suits
    · rcases tallied.found listed with ⟨_, live⟩
      have apart : other.object ≠ entry.object := fun here =>
        Option.some_ne_none _ (live.symm.trans (here ▸ free))
      rw [update_of_ne apart] at present
      exact suited other listed shared present
  | @retain entry other shared found listed same alike =>
    refine .update (fun any member after present => ?_) found ?_
    · rcases mem_cons.mp member with rfl | member
      · cases found.symm.trans present
        exact (suited other listed shared (same ▸ found)).trans alike
      · exact suited any member after present
    · rintro after ⟨rfl⟩
      exact retain_isPipe shared entry.access
  | @release entry _ shared _ first found wakes =>
    subst first
    refine .update (fun other listed => suited other (mem_cons_of_mem _ listed)) found ?_
    intro after left
    rw [Tallied.remainder] at left
    split at left
    · cases left
    · cases left
      exact release_isPipe shared entry.access

theorem Touch.suited (touch : Touch vfs changes after woken)
    (suited : Suited vfs.object (lost ++ vfs.entries)) :
    Suited after.object (lost ++ after.entries) := by
  rw [entries_congr touch.taskFds]
  cases touch with
  | same => exact suited
  | file found kind after =>
    rw [setFile, object_setObject (object_lt found)]
    refine suited.update found ?_
    rintro _ ⟨rfl⟩
    rw [kind]
    rfl
  | pipe found kind change =>
    rw [setPipe, object_setObject (object_lt found)]
    refine suited.update found ?_
    rintro _ ⟨rfl⟩
    rw [kind]
    rfl

/-- A state, with the descriptors that failed inheritances have lost: the
counters are exact and the descriptors suit their objects. -/
structure Sound (config : Config) : Prop where
  tallied : Tallied config.vfs.object config.counted
  suited : Suited config.vfs.object config.counted

theorem Moves.sound {last : Config} (moves : Moves keep makes first last woken)
    (sound : Sound first) : Sound last :=
  @Moves.preserves keep makes first last woken Sound
    (fun _ _ _ move holds => ⟨move.tallied holds.tallied,
      (move.recounts holds.tallied).suited holds.tallied holds.suited⟩) moves sound

theorem VfsCall.perform_sound (sound : Sound ⟨vfs, lost⟩) (call : VfsCall) :
    ∃ more, Sound ⟨call.perform vfs, more ++ lost⟩ := by
  cases data : call.isData with
  | false =>
    rcases call.moves sound.tallied data with ⟨more, moves, _⟩
    exact ⟨more, moves.sound sound⟩
  | true =>
    have touch := call.touch vfs data
    exact ⟨[], touch.tallied sound.tallied, touch.suited sound.suited⟩

theorem new_sound : Sound ⟨.new, []⟩ where
  tallied := new_tallied
  suited := fun _ listed => absurd listed not_mem_nil

theorem runVfs_sound (calls : List VfsCall) : ∃ lost, Sound ⟨runVfs calls, lost⟩ := by
  have general (rest : List VfsCall) (vfs : VfsState)
      (start : ∃ lost, Sound ⟨vfs, lost⟩) :
      ∃ lost, Sound ⟨rest.foldl VfsCall.perform vfs, lost⟩ := by
    induction rest generalizing vfs with
    | nil => exact start
    | cons call rest ih =>
      rcases start with ⟨lost, sound⟩
      rcases call.perform_sound sound with ⟨more, next⟩
      exact ih _ ⟨more ++ lost, next⟩
  exact general calls .new ⟨[], new_sound⟩

/-- Every descriptor leads to an object of its kind that counts it. -/
def VfsState.Linked (vfs : VfsState) : Prop :=
  ∀ entry ∈ vfs.entries, ∃ shared, vfs.object entry.object = some shared ∧
    shared.kind.isPipe = entry.access.isPipe ∧ pointing vfs.entries entry.object ≤ shared.refs

/-- Whatever the calls, no descriptor is left over when its object goes. -/
theorem runVfs_linked (calls : List VfsCall) : (runVfs calls).Linked := by
  rcases runVfs_sound calls with ⟨lost, tallied, suited⟩
  intro entry listed
  have counted := mem_append_right lost listed
  have pointed : 0 < pointing (lost ++ (runVfs calls).entries) entry.object :=
    countP_pos_iff.mpr ⟨entry, counted, beq_self_eq_true _⟩
  have exact := tallied entry.object
  rcases Option.ne_none_iff_exists'.mp (exact.live.mpr pointed) with ⟨shared, found⟩
  refine ⟨shared, found, suited entry counted shared found, ?_⟩
  rw [exact.refs shared found]
  exact (sublist_append_right lost _).countP_le

end CoolOs.Vfs
