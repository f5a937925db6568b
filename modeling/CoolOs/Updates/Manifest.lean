import CoolOs.Services.Footprint
import CoolOs.Updates.Apply

namespace CoolOs.Updates

open Actions Text Trust List

/-!
# Manifests and the files around them

A plan that was parsed has only targets that `validate_target` accepts.  What an update changes
besides them is a fixed list of files of the services.
-/

variable {plan : UpdatePlan}

/-- What holds of a plan that was parsed. -/
def UpdatePlan.Parsed (plan : UpdatePlan) : Prop :=
  ∀ file ∈ plan.files, validateTarget file.target = .ok ()

theorem parseUpdateLine_keeps {raw : Text} {after : UpdatePlan} (known : plan.Parsed)
    (parsed : parseUpdateLine plan raw = .ok after) : after.Parsed := by
  unfold parseUpdateLine at parsed
  dsimp only at parsed
  split at parsed
  · cases parsed
    exact known
  split at parsed
  · cases parsed
    exact known
  iterate 3
    split at parsed
    · rcases except_bind_ok parsed with ⟨_, _, rest⟩
      cases rest
      exact known
  split at parsed
  · cases parsed
    exact known
  split at parsed
  · rcases except_bind_ok parsed with ⟨file, accepted, rest⟩
    cases rest
    intro other listed
    rcases mem_append.mp listed with before | new
    · exact known other before
    · rcases except_bind_ok accepted with ⟨target, _, accepted⟩
      rcases except_bind_ok accepted with ⟨source, _, accepted⟩
      rcases except_bind_ok accepted with ⟨_, valid, accepted⟩
      cases accepted
      rw [mem_singleton.mp new]
      exact valid
  · cases parsed
    exact known

theorem parseUpdatePlan_ok {text : Text} (parsed : parseUpdatePlan text = .ok plan) :
    plan.Parsed := by
  rcases except_bind_ok parsed with ⟨read, ran, rest⟩
  have known : read.Parsed :=
    foldlM_keeps (fun _ _ _ _ => parseUpdateLine_keeps) (fun _ listed => absurd listed not_mem_nil) ran
  split at rest
  · cases rest
  split at rest
  · cases rest
  split at rest <;>
  · cases rest
    exact known

open Files CoolFs Services BootHealth Action

/-!
## What updates change

Besides the files that it lists, an update changes files of the services themselves: the
log and the keys in any case, the records of the supervisor if it knows a service of the
plan, the journal if the settings let the barrier flush, and once the files are copied the
record of what was applied and that of the boots.  Each safe write also changes the scratch
file beside its path.
-/

instance (key place : List Name) : Decidable (Rewritten key place) :=
  inferInstanceAs (Decidable (_ ∨ _))

/-- The place of a directory that is created, or of a file that is written or of the scratch
file beside it. -/
def Written (directories files : List Text) (key : List Name) : Prop :=
  key ∈ directories.map fileKey ∨ ∃ path ∈ files, Rewritten (fileKey path) key

instance (directories files : List Text) (key : List Name) :
    Decidable (Written directories files key) :=
  inferInstanceAs (Decidable (_ ∈ _ ∨ ∃ path ∈ files, Rewritten (fileKey path) key))

def layout : List Text := [updateDir, stagedDir, snapshotDir, lastSnapshotDir, configDir, logDir]

/-- What every call looks after. -/
def Housekeeping : List Name -> Prop := Written layout [trustKeysPath, logPath]

/-- What is written around the targets by `apply` and by `rollback`: the supervisor writes its
records only when one of the services it is told to stop or start is known to it. -/
def Tended (supervised : Bool) (key : List Name) : Prop :=
  Housekeeping key ∨ supervised = true ∧ Written [] [configPath, historyPath] key

/-- What the barrier writes at the end of both. -/
def Journaled (flushes : Bool) (key : List Name) : Prop :=
  flushes = true ∧ key = fileKey journalPath

/-- What `apply` records once the files are copied. -/
def Recorded : List Name -> Prop :=
  Written [bootDir] [appliedManifestPath, statePath, historyFile]

/-- The files of the snapshot of an update. -/
def Copied (files : List UpdateFile) : List Name -> Prop :=
  Written [] (snapshotManifest :: files.map (fun file => snapshotPath file.target))

instance (key : List Name) : Decidable (Housekeeping key) :=
  inferInstanceAs (Decidable (Written _ _ key))

instance (supervised : Bool) (key : List Name) : Decidable (Tended supervised key) :=
  inferInstanceAs (Decidable (Written _ _ key ∨ _ = true ∧ Written _ _ key))

instance (flushes : Bool) (key : List Name) : Decidable (Journaled flushes key) :=
  inferInstanceAs (Decidable (_ = true ∧ key = _))

instance (key : List Name) : Decidable (Recorded key) :=
  inferInstanceAs (Decidable (Written _ _ _))

instance (files : List UpdateFile) (key : List Name) : Decidable (Copied files key) :=
  inferInstanceAs (Decidable (Written _ _ _))

section

variable {Failure : Type} {changed : List Name -> Prop} {path : Text} {directories files : List Text}

theorem written_covers (among : path ∈ files) : Covers (Written directories files) path :=
  ⟨.inr ⟨path, among, .inl rfl⟩, .inr ⟨path, among, .inr rfl⟩⟩

theorem written_directory (among : path ∈ directories) :
    Written directories files (fileKey path) := .inl (mem_map_of_mem among)

theorem safeWrite_keeps (covers : Covers changed path) (data : List UInt8) :
    Keeps (Kernel.Changes changed) (safeWrite path data) :=
  (Trust.safeWrite_changes path data).mono fun changes => changes.mono fun _ => covers.rewritten

theorem write_keeps (covers : Covers changed path) (data : List UInt8) :
    Keeps (Kernel.Changes changed) (write path data) := (safeWrite_keeps covers data).mapError _

theorem keys_covers : Covers Housekeeping trustKeysPath := written_covers (by simp)

theorem trustKeysFile_keeps : Keeps (Kernel.Changes Housekeeping)
      (updateKeys.ensureTrustKeysFile : Action Kernel Failure Unit) :=
  updateKeys.ensureTrustKeysFile_changes.mono fun changes =>
    changes.mono fun _ => keys_covers.rewritten

theorem ensureLayout_keeps : Keeps (Kernel.Changes Housekeeping)
      (Updates.ensureLayout : Action Kernel Failure Unit) := by
  have dir : ∀ path ∈ layout, Keeps (Kernel.Changes Housekeeping)
      (ensureDir path : Action Kernel Failure Unit) := fun path among =>
    ensureDir_keeps (written_directory among)
  exact (dir _ (by decide)).bind fun _ => (dir _ (by decide)).bind fun _ =>
    (dir _ (by decide)).bind fun _ => (dir _ (by decide)).bind fun _ =>
    (dir _ (by decide)).bind fun _ => (dir _ (by decide)).bind fun _ => trustKeysFile_keeps

theorem appendLog_keeps (action : Text) (details : List Text) : Keeps (Kernel.Changes Housekeeping)
      (appendLog action details : Action Kernel Failure Unit) := by
  refine ensureLayout_keeps.bind fun _ => ?_
  refine (readFile_keeps _ _).bind fun file => ?_
  refine (keeps_observe _).bind fun now => ?_
  exact (safeWrite_keeps (written_covers (by simp)) _).attempt.bind fun _ => keeps_pure ()

theorem stagedPlan_keeps (changed : List Name -> Prop) :
    Keeps (Kernel.Changes changed) stagedPlanWithManifest := by
  refine (readFile_keeps _ _).bind fun file => ?_
  refine (keeps_okOr _ _).bind fun bytes => ?_
  refine (keeps_okOr _ _).bind fun text => ?_
  exact (keeps_settle _).bind fun plan => keeps_pure _

theorem stagedSignature_keeps (changed : List Name -> Prop) :
    Keeps (Kernel.Changes changed) stagedSignature := by
  refine (readFile_keeps _ _).bind fun file => ?_
  refine (keeps_okOr _ _).bind fun bytes => ?_
  exact (keeps_okOr _ _).bind fun text => keeps_settle _

variable (crypto : Crypto)

theorem verifyFile_keeps (file : UpdateFile) (changed : List Name -> Prop) :
    Keeps (Kernel.Changes changed) (verifyFile crypto file) := by
  refine (keeps_okOr _ _).bind fun expected => ?_
  refine (readFile_keeps _ _).bind fun known => ?_
  refine (keeps_okOr _ _).bind fun data => ?_
  split
  · exact keeps_pure ()
  · exact keeps_fail _

theorem checkRollback_keeps (plan : UpdatePlan) (enforce : Bool) (changed : List Name -> Prop) :
    Keeps (Kernel.Changes changed) (checkRollback plan enforce) := by
  unfold checkRollback
  split
  · refine .bind ?_ fun applied => ?_
    · exact (readFile_keeps _ _).bind fun file => keeps_pure _
    · split
      · exact keeps_fail _
      · exact keeps_pure ()
  · exact keeps_pure ()

end

/-- The machine supervises some service of a list only if it is said to, and flushes or not. -/
def Keeping (supervised flushes : Bool) (services : List Text) (machine : Machine) : Prop :=
  (supervised = true ∨ ∀ name ∈ services, position machine.services name = none) ∧
    machine.flushes = flushes

/-- Whether the supervisor knows one of some services. -/
def supervises (known : List Service) (services : List Text) : Bool :=
  services.any (fun name => (position known name).isSome)

theorem keeping_start (machine : Machine) (services : List Text) :
    Keeping (supervises machine.services services) machine.flushes services machine := by
  refine ⟨?_, rfl⟩
  cases known : supervises machine.services services with
  | true => exact .inl rfl
  | false =>
    refine .inr fun name listed => ?_
    have unknown := any_eq_false.mp known name listed
    simpa using unknown

/-- Steps of a machine that keeps to this, and what they change. -/
def Runs (supervised flushes : Bool) (services : List Text) (changed : List Name -> Prop)
    (before after : Machine) : Prop :=
  Keeping supervised flushes services before ->
    before.Changes changed after ∧ Keeping supervised flushes services after

variable {supervised flushes : Bool} {services : List Text} {changed : List Name -> Prop}
  {Failure Value : Type}

instance : Action.Chain (Runs supervised flushes services changed) where
  refl machine keeping := ⟨Action.Chain.refl machine, keeping⟩
  trans first second keeping :=
    ⟨Action.Chain.trans (first keeping).1 (second (first keeping).2).1,
      (second (first keeping).2).2⟩

theorem onKernel_runs {action : Action Kernel Failure Value}
    (keeps : Keeps (Kernel.Changes changed) action) :
    Keeps (Runs supervised flushes services changed) (onKernel action) :=
  fun machine keeping => ⟨keeps machine.kernel, keeping⟩

theorem Runs.mono {wider : List Name -> Prop} {before after : Machine}
    (runs : Runs supervised flushes services changed before after)
    (more : ∀ key, changed key -> wider key) :
    Runs supervised flushes services wider before after := fun keeping =>
  ⟨(runs keeping).1.mono more, (runs keeping).2⟩

theorem mutateServices_flushes (reason : Text)
    (change : Nat -> List Service -> Bool × List Service) (machine : Machine) :
    (mutateServices reason change machine : Except Failure _ × Machine).2.flushes =
      machine.flushes := by
  have start : (onKernel currentTicks machine : Except Failure _ × Machine) =
      (.ok (machine.kernel.ticks machine.kernel.clock), machine) := rfl
  rw [mutateServices, run_bind_ok start, run_bind_ok (run_observe _)]
  rcases change (machine.kernel.ticks machine.kernel.clock) machine.services with ⟨⟨⟩, known⟩
  · rfl
  · rfl

/-- A service that is not known leaves everything as it is. -/
theorem mutateServices_idle {reason : Text} {change : Nat -> List Service -> Bool × List Service}
    {machine : Machine} (idle : ∀ now, change now machine.services = (false, machine.services)) :
    (mutateServices reason change machine : Except Failure _ × Machine).2 = machine := by
  have start : (onKernel currentTicks machine : Except Failure _ × Machine) =
      (.ok (machine.kernel.ticks machine.kernel.clock), machine) := rfl
  rw [mutateServices, run_bind_ok start, run_bind_ok (run_observe _), idle]
  rfl

/-- A call for a service changes what the supervisor writes, if it knows the service. -/
theorem mutateServices_runs {reason name : Text}
    {change : Nat -> List Service -> Bool × List Service}
    (among : name ∈ services)
    (idle : ∀ now known, position known name = none -> change now known = (false, known)) :
    Keeps (Runs supervised flushes services (Tended supervised))
      (mutateServices reason change : Action Machine Failure Bool) := by
  rintro machine ⟨known, flush⟩
  have still := (@mutateServices_flushes Failure reason change machine).trans flush
  rcases known with rfl | unknown
  · refine ⟨mutateServices_keeps ⟨?_, ?_, ?_, ?_⟩ reason change machine, .inl rfl, still⟩
    · exact (written_covers (by simp)).mono fun _ here => .inr ⟨rfl, here⟩
    · exact (written_covers (by simp)).mono fun _ here => .inr ⟨rfl, here⟩
    · exact .inl (written_directory (by decide))
    · exact .inl (written_directory (by decide))
  · rw [mutateServices_idle fun now => idle now _ (unknown name among)]
    exact ⟨Action.Chain.refl machine, .inr unknown, flush⟩

theorem stopServices_runs : Keeps (Runs supervised flushes services (Tended supervised))
      (stopServices services : Action Machine Failure Unit) :=
  keeps_each fun service listed => (mutateServices_runs listed fun now known unknown => by
    rw [stopService, unknown]).bind fun _ => keeps_pure ()

theorem startServices_runs : Keeps (Runs supervised flushes services (Tended supervised))
      (startServices services : Action Machine Failure Unit) :=
  keeps_each fun service listed => (mutateServices_runs listed fun now known unknown => by
    cases known with
    | nil => rfl
    | cons first rest => rw [length_cons, startRecursive, unknown]).bind fun _ => keeps_pure ()

theorem log_runs (action : Text) (details : List Text) :
    Keeps (Runs supervised flushes services (Tended supervised))
      (onKernel (appendLog action details) : Action Machine Failure Unit) :=
  onKernel_runs ((appendLog_keeps action details).mono fun changes => changes.mono fun _ => .inl)

theorem barrier_runs : Keeps
      (Runs supervised flushes services fun key => Tended supervised key ∨ Journaled flushes key)
      (barrier : Action Machine Failure Unit) := by
  rintro machine ⟨known, rfl⟩
  cases flush : machine.flushes with
  | false =>
    rw [barrier, run_bind_ok (run_observe _), flush, if_neg Bool.false_ne_true]
    exact ⟨Action.Chain.refl machine, known, flush⟩
  | true =>
    refine ⟨barrier_keeps (.inl (.inl (written_directory (by decide)))) (.inr ⟨rfl, rfl⟩) machine, ?_⟩
    rw [barrier, run_bind_ok (run_observe _), flush, if_pos rfl]
    exact ⟨known, flush⟩

theorem recorded_runs (updateId : Text) : Keeps (Runs supervised flushes services
      fun key => Tended supervised key ∨ Recorded key)
      (onKernel (markUpdatePending updateId) : Action Machine Failure Unit) := by
  have file : ∀ path ∈ [appliedManifestPath, statePath, historyFile],
      Covers (fun key => Tended supervised key ∨ Recorded key) path := fun path among =>
    (written_covers among).mono fun _ => .inr
  refine onKernel_runs (markUpdatePending_keeps ⟨file _ (by simp), ?_, ?_⟩ (file _ (by simp)) _)
  · exact .inr (written_directory (by decide))
  · exact .inl (.inl (written_directory (by decide)))

end CoolOs.Updates
