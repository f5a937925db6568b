import CoolOs.BootHealth.Record
import CoolOs.Files.Paths

namespace CoolOs.Services

open Actions Files Text CoolFs BootHealth Action

/-!
# What service calls change

The supervisor writes its configuration and its history, and the barrier writes the
journal.  A call of the kernel changes nothing else of the machine.
-/

variable {Failure Value : Type} {changed : List Name -> Prop} {machine after : Machine}

variable {action : Action Kernel Failure Value} {path : Text}

theorem onKernel_ok {value : Value} (ran : onKernel action machine = (.ok value, after)) :
    action machine.kernel = (.ok value, after.kernel) ∧ after.services = machine.services := by
  rw [Prod.mk.injEq] at ran
  rw [<- ran.2, <- ran.1]
  exact ⟨rfl, rfl⟩

theorem onKernel_bind {Result : Type} (action : Action Kernel Failure Value)
    (next : Value -> Action Kernel Failure Result) :
    onKernel (action >>= next) = onKernel action >>= fun value => onKernel (next value) := by
  funext machine
  rcases ran : action machine.kernel with ⟨outcome, kernel⟩
  cases outcome with
  | ok value =>
    have first : onKernel action machine = (.ok value, { machine with kernel := kernel }) := by
      rw [onKernel, Action.within, ran]
    rw [run_bind_ok first, onKernel, Action.within, run_bind_ok ran]
    rfl
  | error failure =>
    have first : onKernel action machine = (.error failure, { machine with kernel := kernel }) := by
      rw [onKernel, Action.within, ran]
    rw [run_bind_error first, onKernel, Action.within, run_bind_error ran]

/-- The volume has changed at some places at most. -/
def Machine.Changes (changed : List Name -> Prop) (before after : Machine) : Prop :=
  before.kernel.Changes changed after.kernel

instance (changed : List Name -> Prop) : Action.Chain (Machine.Changes changed) where
  refl machine := (⟨rfl, fun _ _ => rfl⟩ : machine.kernel.Changes changed machine.kernel)
  trans {first _ third} earlier later :=
    (⟨later.faults.trans earlier.faults, fun key other =>
      (later.find key other).trans (earlier.find key other)⟩ :
      first.kernel.Changes changed third.kernel)

theorem onKernel_keeps (keeps : Keeps (Kernel.Changes changed) action) :
    Keeps (Machine.Changes changed) (onKernel action) := fun machine => keeps machine.kernel

theorem ensureDir_keeps (here : changed (fileKey path)) :
    Keeps (Kernel.Changes changed) (ensureDir path : Action Kernel Failure Unit) :=
  (createDir_keeps here).attempt.bind fun _ => keeps_pure ()

/-- Places that hold what the supervisor writes. -/
structure Supervised (changed : List Name -> Prop) : Prop where
  config : Covers changed configPath
  history : Covers changed historyPath
  configDir : changed (fileKey configDir)
  logDir : changed (fileKey logDir)

theorem mutateServices_keeps (places : Supervised changed) (reason : Text)
    (change : Nat -> List Service -> Bool × List Service) : Keeps (Machine.Changes changed)
      (mutateServices reason change : Action Machine Failure Bool) := by
  refine (onKernel_keeps (keeps_observe _)).bind fun now => ?_
  refine (keeps_observe _).bind fun services => ?_
  refine .bind (keeps_modify fun machine => ?_) fun _ => ?_
  · exact (⟨rfl, fun _ _ => rfl⟩ : machine.kernel.Changes changed machine.kernel)
  · split
    · refine .bind (onKernel_keeps ?_) fun _ => keeps_pure _
      refine (ensureDir_keeps places.configDir).bind fun _ => ?_
      refine (ensureDir_keeps places.logDir).bind fun _ => ?_
      refine (kernelSafeWrite_keeps places.config _).attempt.bind fun _ => ?_
      exact (kernelSafeWrite_keeps places.history _).attempt.bind fun _ => keeps_pure ()
    · exact keeps_pure _

theorem barrier_keeps (logDir : changed (fileKey logDir))
    (journal : changed (fileKey journalPath)) :
    Keeps (Machine.Changes changed) (barrier : Action Machine Failure Unit) := by
  refine (keeps_observe _).bind fun flushes => ?_
  split
  · refine (keeps_observe _).bind fun text => ?_
    refine .bind (onKernel_keeps ?_).attempt fun _ => keeps_pure ()
    refine (ensureDir_keeps logDir).bind fun _ => ?_
    refine (createFile_keeps journal).attempt.bind fun outcome => ?_
    split
    · exact kernelWrite_keeps journal _
    · exact kernelWrite_keeps journal _
    · exact keeps_fail _
  · exact keeps_pure ()

theorem bootWrite_keeps (covers : Covers changed path) (data : List UInt8) :
    Keeps (Kernel.Changes changed) (BootHealth.writeFile path data) := by
  refine (createFile_keeps covers.place).attempt.bind fun outcome => ?_
  split
  · exact kernelSafeWrite_keeps covers data
  · exact kernelSafeWrite_keeps covers data
  · exact keeps_fail _

/-- Places that hold the history of boots. -/
structure Noted (changed : List Name -> Prop) : Prop where
  history : Covers changed historyFile
  bootDir : changed (fileKey bootDir)
  logDir : changed (fileKey logDir)

theorem bootLayout_keeps (places : Noted changed) : Keeps (Kernel.Changes changed)
      (BootHealth.ensureLayout : Action Kernel Failure Unit) :=
  (ensureDir_keeps places.bootDir).bind fun _ => ensureDir_keeps places.logDir

theorem bootWrite_ok {kernel after : Kernel} {data : List UInt8} (rooted : Rooted path)
    (ran : BootHealth.writeFile path data kernel = (.ok (), after))
    (plain : ¬ Scratch (fileKey path)) : after.contents path = some data := by
  rcases bind_ok ran with ⟨outcome, _, _, rest⟩
  split at rest
  · exact safeWriteFile_ok rooted rest (ne_scratchKey plain _)
  · exact safeWriteFile_ok rooted rest (ne_scratchKey plain _)
  · cases rest

theorem appendHistory_keeps (places : Noted changed) (action : Text) (details : List Text) :
    Keeps (Kernel.Changes changed) (appendHistory action details : Action Kernel Failure Unit) := by
  refine (bootLayout_keeps places).bind fun _ => ?_
  refine (readFile_keeps _ _).bind fun file => ?_
  refine (keeps_observe _).bind fun now => ?_
  exact (bootWrite_keeps places.history _).attempt.bind fun _ => keeps_pure ()

theorem loadState_keeps (changed : List Name -> Prop) :
    Keeps (Kernel.Changes changed) (loadState : Action Kernel Failure BootState) :=
  (readFile_keeps _ _).bind fun _ => keeps_pure _

theorem markUpdatePending_keeps (places : Noted changed) (state : Covers changed statePath)
    (updateId : Text) : Keeps (Kernel.Changes changed)
      (markUpdatePending updateId : Action Kernel Failure Unit) := by
  refine (bootLayout_keeps places).bind fun _ => ?_
  refine (loadState_keeps _).bind fun loaded => ?_
  refine (bootWrite_keeps state _).attempt.bind fun _ => ?_
  exact appendHistory_keeps places _ _

end CoolOs.Services
