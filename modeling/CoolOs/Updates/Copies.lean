import CoolOs.Updates.Manifest

namespace CoolOs.Updates

open Actions Files Text Trust CoolFs Services Action List

/-!
# Copying files

The loops over the files of an update, in which each file is saved and then replaced, and the
targets that lead into the files of the update system itself.
-/

section

variable {kernel after : Kernel} {path : Text} {data : List UInt8}
  {files : List UpdateFile}

theorem write_ok (rooted : Rooted path) (ran : write path data kernel = (.ok (), after))
    (plain : ¬ Scratch (fileKey path)) : after.contents path = some data :=
  Trust.safeWrite_ok rooted (mapError_ok ran) (ne_scratchKey plain _)

theorem rewritten_covers (path : Text) : Covers (Rewritten (fileKey path)) path :=
  ⟨.inl rfl, .inr rfl⟩

theorem contents_of_changes {changed : List Name -> Prop} (changes : kernel.Changes changed after)
    (other : ¬ changed (fileKey path)) : after.contents path = kernel.contents path :=
  Kernel.contents_congr (changes.find _ other)

theorem snapshotOne_keeps (file : UpdateFile) :
    Keeps (Kernel.Changes (Rewritten (fileKey (snapshotPath file.target)))) (snapshotOne file) := by
  refine (readFile_keeps _ _).bind fun known => ?_
  split
  · exact (write_keeps (rewritten_covers _) _).bind fun _ => keeps_pure _
  · exact (kernelDelete_keeps (.inl rfl)).attempt.bind fun _ => keeps_pure _

variable {file : UpdateFile} {all : List UpdateFile}

theorem copied_of_mem (listed : file ∈ all) {key : List Name}
    (here : Rewritten (fileKey (snapshotPath file.target)) key) : Copied all key :=
  .inr ⟨_, mem_cons_of_mem _ (mem_map_of_mem listed), here⟩

/-- What the files of an update change. -/
def Targets (targets : List Text) : List Name -> Prop := Written [] targets

theorem rewritten_targets {targets : List Text} {target : Text} (listed : target ∈ targets)
    {key : List Name} (here : Rewritten (fileKey target) key) : Targets targets key :=
  .inr ⟨target, listed, here⟩

theorem applyOne_keeps (file : UpdateFile) :
    Keeps (Kernel.Changes (Rewritten (fileKey file.target))) (applyOne file) := by
  refine (readFile_keeps _ _).bind fun known => ?_
  exact (keeps_okOr _ _).bind fun data => write_keeps (rewritten_covers _) data

theorem applyFiles_keeps (files : List UpdateFile) :
    Keeps (Kernel.Changes (Targets (files.map UpdateFile.target))) (each applyOne files) :=
  keeps_each fun file listed => (applyOne_keeps file).mono fun changes =>
    changes.mono fun _ => rewritten_targets (mem_map_of_mem listed)

theorem applyOne_ok (source : Rooted file.source) (target : Rooted file.target)
    (plain : ¬ Scratch (fileKey file.target)) (ran : applyOne file kernel = (.ok (), after)) :
    ∃ data, kernel.contents file.source = some data ∧ after.contents file.target = some data := by
  rcases bind_ok ran with ⟨known, between, read, rest⟩
  rcases bind_ok rest with ⟨data, same, found, written⟩
  rcases okOr_ok found with ⟨rfl, rfl⟩
  exact ⟨data, readFile_some source read, write_ok target written plain⟩

end

/-!
## Targets among the files of the update system

`validate_target` looks at a target as it is spelled: it refuses what begins with the path of
the update directory, and the path of the log.  The file layer leaves out detours and does not
tell the cases of letters, and the keys are not in the update directory.
-/

/-- The place is in the update directory, or that of the log or of the keys. -/
def Reserved (key : List Name) : Prop :=
  fileKey updateDir <+: key ∨ key = fileKey logPath ∨ key = fileKey trustKeysPath

instance (key : List Name) : Decidable (Reserved key) :=
  inferInstanceAs (Decidable (_ <+: _ ∨ _ = _ ∨ _ = _))

/-- A spelling that the check misses: of the keys in any way, of the log in another way than
by its own path, or of something in the update directory without starting with its path, that
is after a detour or with letters of another case. -/
def Evades (target : Text) : Prop :=
  let parts := splitSlash (encode target)
  Exists fun names => Spells parts names ∧
    (names.map foldCase = [ascii "CONFIG", ascii "UPDATE-KEYS.TXT"].map foldCase ∨
      names.map foldCase = [ascii "LOGS", ascii "UPDATE.TXT"].map foldCase ∧
        parts ≠ [[], ascii "LOGS", ascii "UPDATE.TXT"] ∨
      (names.head?.map foldCase = some (foldCase (ascii "UPDATES")) ∧
        ¬ [[], ascii "UPDATES"] <+: parts))

/-- A target that begins with the path of the update directory, or is that of the log, is
refused. -/
theorem validateTarget_ok {target : Text} (valid : validateTarget target = .ok ()) :
    splitSlash (encode target) ≠ [[], ascii "LOGS", ascii "UPDATE.TXT"] ∧
      ¬ [[], ascii "UPDATES"] <+: splitSlash (encode target) := by
  have joined := flatMap_splitSlash (encode target)
  unfold validateTarget at valid
  split at valid
  · cases valid
  split at valid
  · cases valid
  next accepted =>
  rw [Bool.or_eq_true, beq_iff_eq, not_or] at accepted
  constructor
  · intro same
    rw [same] at joined
    have bytes : encode logPath = encode target := (cons.inj joined).2
    have decoded := fromUtf8_encode target
    rw [<- bytes, fromUtf8_encode] at decoded
    exact accepted.2 (Option.some.inj decoded).symm
  · rintro ⟨rest, same⟩
    rw [<- same] at joined
    -- the first eight characters are those of the directory
    generalize more : rest.flatMap (fun part => slash :: part) = later
    have bytes : encode target = ascii "/UPDATES" ++ later := by
      rw [<- more]
      exact (cons.inj joined).2.symm
    have decoded := decode_encode target (Nat.le_refl _)
    rw [bytes] at decoded
    have start : updateDir.map some <+: target.map some := ⟨_, decoded⟩
    exact accepted.1 ( isPrefixOf_iff_prefix.mpr (( prefix_map_iff_of_injective
      fun _ _ => Option.some.inj).mp start))

/-- A target that was accepted is in the update system exactly if its spelling evades the
check. -/
theorem reserved_iff {target : Text} (valid : validateTarget target = .ok ()) :
    Reserved (fileKey target) <-> Evades target := by
  have dir : fileKey updateDir = [foldCase (ascii "UPDATES")] := by decide
  have log : fileKey logPath = [ascii "LOGS", ascii "UPDATE.TXT"].map foldCase := by decide
  have keys : fileKey trustKeysPath =
      [ascii "CONFIG", ascii "UPDATE-KEYS.TXT"].map foldCase := by decide
  have plain := validateTarget_ok valid
  have spelled (names : List Name) : Spells (splitSlash (encode target)) names <->
      normalParts (encode target) = names := spells_iff _ names
  rw [Reserved, Evades, dir, log, keys, fileKey_eq]
  simp only [spelled, exists_eq_left']
  have first : [foldCase (ascii "UPDATES")] <+: (normalParts (encode target)).map foldCase <->
      (normalParts (encode target)).head?.map foldCase = some (foldCase (ascii "UPDATES")) := by
    cases normalParts (encode target) with
    | nil => simp
    | cons name rest => simp [cons_prefix_cons, eq_comm]
  rw [first]
  constructor
  · rintro (inside | log | keys)
    · exact .inr (.inr ⟨inside, plain.2⟩)
    · exact .inr (.inl ⟨log, plain.1⟩)
    · exact .inl keys
  · rintro (keys | ⟨log, _⟩ | ⟨inside, _⟩)
    · exact .inr (.inr keys)
    · exact .inr (.inl log)
    · exact .inl inside

/-- The scratch file beside a target outside the update system is outside too. -/
theorem not_reserved_scratchKey {key : List Name} (outside : ¬ Reserved key) :
    ¬ Reserved (scratchKey key) := by
  have dir : fileKey updateDir = [foldCase (ascii "UPDATES")] := by decide
  rintro (inside | log | keys)
  · rw [dir, scratchKey] at inside
    cases above : key.dropLast with
    | nil =>
      rw [above] at inside
      exact absurd inside (by decide)
    | cons first rest =>
      rw [above, cons_append, cons_prefix_cons] at inside
      refine outside (.inl ?_)
      rw [dir, inside.1]
      have shorter := dropLast_prefix key
      rw [above] at shorter
      exact (prefix_append [first] rest).trans shorter
  · exact absurd (log ▸ scratch_scratchKey key) (by decide)
  · exact absurd (keys ▸ scratch_scratchKey key) (by decide)

/-- The targets of a manifest that was accepted are outside the update system exactly where no
spelling evades the check, and then copying leaves every file of the update system as it is. -/
theorem accepted_targets_outside_iff {text : Text} {plan : UpdatePlan}
    (accepted : parseUpdatePlan text = .ok plan) :
    ((∀ file ∈ plan.files, ¬ Reserved (fileKey file.target)) <->
      ∀ file ∈ plan.files, ¬ Evades file.target) ∧
    ((∀ file ∈ plan.files, ¬ Evades file.target) ->
      forall kernel key, Reserved key -> (applyFiles plan kernel).2.find key = kernel.find key) := by
  have valid : ∀ file ∈ plan.files, Reserved (fileKey file.target) <-> Evades file.target :=
    fun file listed => reserved_iff (parseUpdatePlan_ok accepted file listed)
  have outside : (∀ file ∈ plan.files, ¬ Reserved (fileKey file.target)) <->
      ∀ file ∈ plan.files, ¬ Evades file.target :=
    forall₂_congr fun file listed => not_congr (valid file listed)
  refine ⟨outside, fun evaded kernel key reserved => ?_⟩
  refine ((applyFiles_keeps plan.files).ran rfl).find key ?_
  rintro (nothing | ⟨target, among, here⟩)
  · cases nothing
  rcases mem_map.mp among with ⟨file, listed, rfl⟩
  have away := outside.mpr evaded file listed
  rcases here with rfl | rfl
  · exact away reserved
  · exact not_reserved_scratchKey away reserved

/-- A manifest with targets outside the update system, one of them after a detour. -/
def outsideManifest : Text :=
  "file target=/TMP/A source=/A\nfile target=/UPDATE/../TMP/B source=/A".toList

theorem outside_manifest_evades_nothing : Exists fun plan =>
    parseUpdatePlan outsideManifest = .ok plan ∧ plan.files.length = 2 ∧
      ∀ file ∈ plan.files, ¬ Evades file.target := by
  have accepted : parseUpdatePlan outsideManifest = .ok _ := rfl
  exact ⟨_, accepted, rfl, (accepted_targets_outside_iff accepted).1.mp (by decide +kernel)⟩

/-- A manifest whose targets are the record of what was applied and the keys. -/
def strayManifest : Text :=
  "file target=/updates/APPLIED.MF source=/A\nfile target=/CONFIG/UPDATE-KEYS.TXT source=/A".toList

/-- Both targets are accepted. -/
theorem stray_targets_accepted :
    ((parseUpdatePlan strayManifest).toOption.map fun plan =>
        plan.files.map fun file => fileKey file.target) =
      some [fileKey appliedManifestPath, fileKey trustKeysPath] ∧
    Reserved (fileKey appliedManifestPath) ∧ Reserved (fileKey trustKeysPath) :=
  ⟨by decide, .inl (by decide), .inr (.inr rfl)⟩

end CoolOs.Updates
