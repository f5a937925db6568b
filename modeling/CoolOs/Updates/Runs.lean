import CoolOs.Updates.Copies

namespace CoolOs.Updates

open Actions Files Text Trust CoolFs Services BootHealth Action List

/-!
# How updates run

A run of `apply` that succeeded, taken apart into its loop over the files and the steps around
it, which change only files of the services and the snapshot.
-/

variable {plan : UpdatePlan} {snapshot : SnapshotPlan} {kernel after : Kernel}

section

variable {crypto : Crypto} {verification : Verification}

/-- The plan that is staged. -/
def StagedPlan (kernel : Kernel) (plan : UpdatePlan) : Prop :=
  Exists fun bytes => kernel.contents stagedManifest = some bytes ∧
    Exists fun text => fromUtf8 bytes = some text ∧ parseUpdatePlan text = .ok plan

variable {machine : Machine}

theorem StagedPlan.unique {other : UpdatePlan} (staged : StagedPlan kernel plan)
    (also : StagedPlan kernel other) : plan = other := by
  rcases staged with ⟨bytes, found, text, decoded, parsed⟩
  rcases also with ⟨_, again, _, decoded', parsed'⟩
  rw [found, Option.some.injEq] at again
  rw [again, decoded', Option.some.injEq] at decoded
  rw [decoded, parsed, Except.ok.injEq] at parsed'
  exact parsed'

theorem staged_not_housekeeping :
    ¬ Housekeeping (fileKey stagedManifest) ∧ ¬ Housekeeping (fileKey stagedSignaturePath) := by
  decide

theorem stagedPlanWithManifest_ok {manifest : List UInt8}
    (ran : stagedPlanWithManifest kernel = (.ok (manifest, plan), after)) :
    kernel.contents stagedManifest = some manifest ∧
      ∃ text, fromUtf8 manifest = some text ∧ parseUpdatePlan text = .ok plan := by
  rcases bind_ok ran with ⟨file, _, reading, opened⟩
  rcases bind_ok opened with ⟨bytes, _, given, decoding⟩
  rcases bind_ok decoding with ⟨text, _, decoded, parsing⟩
  rcases bind_ok parsing with ⟨parsed, _, settled, ended⟩
  cases ended
  rw [(okOr_ok given).1] at reading
  exact ⟨readFile_some (by decide) reading, text, (okOr_ok decoded).1, (settle_ok settled).1⟩

/-- What was verified is what is staged. -/
theorem verifyStaged_ok (ran : verifyStaged crypto kernel = (.ok (plan, verification), after)) :
    ∃ manifest first between last, ensureLayout kernel = ((.ok () : Except UpdateError Unit), first) ∧
      stagedPlanWithManifest first = (.ok (manifest, plan), between) ∧
      verifyPlan crypto plan manifest true between = (.ok verification, last) ∧
      last.Changes Housekeeping after := by
  rcases bind_ok ran with ⟨_, first, layout, ran⟩
  rcases bind_ok ran with ⟨⟨manifest, staged⟩, second, read, ran⟩
  rcases bind_ok ran with ⟨outcome, third, verified, ran⟩
  rw [run_attempt, Prod.mk.injEq, Except.ok.injEq] at verified
  cases outcome with
  | error err =>
    rcases bind_ok ran with ⟨_, _, _, failed⟩
    cases failed
  | ok known =>
    rcases bind_ok ran with ⟨_, _, logged, ended⟩
    cases ended
    exact ⟨manifest, first, second, third, layout, read, Prod.ext verified.1 verified.2,
      (appendLog_keeps _ _).ran logged⟩

theorem stagedPlan_of_verified
    (ran : verifyStaged crypto kernel = (.ok (plan, verification), after))
    : StagedPlan kernel plan := by
  rcases verifyStaged_ok ran with ⟨manifest, _, _, _, layout, read, _, _⟩
  rcases stagedPlanWithManifest_ok read with ⟨found, parsed⟩
  rw [contents_of_changes (ensureLayout_keeps.ran layout) staged_not_housekeeping.1] at found
  exact ⟨manifest, found, parsed⟩

theorem createSnapshot_keeps (plan : UpdatePlan) : Action.Keeps
      (Kernel.Changes fun key => Housekeeping key ∨ Copied plan.files key) (createSnapshot plan) := by
  refine .bind (ensureLayout_keeps.mono fun changes => changes.mono fun _ => .inl) fun _ => ?_
  refine .bind (keeps_collect fun file listed => ?_) fun files => ?_
  · exact (snapshotOne_keeps file).mono fun changes => changes.mono fun _ here =>
      .inr (copied_of_mem listed here)
  · exact (write_keeps ((written_covers mem_cons_self).mono fun _ => .inr) _).bind fun _ =>
      keeps_pure _

theorem writeApplied_keeps (plan : UpdatePlan) (verification : Verification) :
    Action.Keeps (Kernel.Changes Recorded) (writeApplied plan verification) :=
  (keeps_observe _).bind fun _ => write_keeps (written_covers (by simp)) _

variable {supervised flushes : Bool}

/-- What is written after the files are copied. -/
def Concluded (supervised flushes : Bool) (key : List Name) : Prop :=
  Tended supervised key ∨ Recorded key ∨ Journaled flushes key

theorem install_ok {after : Machine} (keeping : Keeping supervised flushes plan.services machine)
    (ran : install plan verification snapshot machine = (.ok (), after)) :
    ∃ before copied, machine.kernel.Changes (Tended supervised) before ∧
      each applyOne plan.files before = (.ok (), copied) ∧
      copied.Changes (Concluded supervised flushes) after.kernel ∧
      Keeping supervised flushes plan.services after := by
  rcases bind_ok ran with ⟨_, first, logged, ran⟩
  rcases bind_ok ran with ⟨_, second, stopped, ran⟩
  rcases bind_ok ran with ⟨outcome, third, tried, ran⟩
  rw [run_attempt, Prod.mk.injEq, Except.ok.injEq] at tried
  have prepared : Runs supervised flushes plan.services (Tended supervised) machine second :=
    Action.Chain.trans ((log_runs _ _).ran logged) (stopServices_runs.ran stopped)
  have calm := (prepared keeping).2
  cases outcome with
  | error err =>
    rcases bind_ok ran with ⟨_, _, _, ran⟩
    rcases bind_ok ran with ⟨_, _, _, ran⟩
    rcases bind_ok ran with ⟨_, _, _, failed⟩
    cases failed
  | ok done =>
    have copied := onKernel_ok (Prod.ext tried.1 tried.2)
    rcases bind_ok ran with ⟨_, fourth, applied, ran⟩
    rcases bind_ok ran with ⟨_, fifth, started, ran⟩
    rcases bind_ok ran with ⟨_, sixth, told, ran⟩
    rcases bind_ok ran with ⟨_, seventh, marked, ran⟩
    have same : Keeping supervised flushes plan.services third := tried.2 ▸ calm
    -- each step after the copying, with what it changes
    have tended {before after : Machine} :
        Runs supervised flushes plan.services (Tended supervised) before after ->
        Runs supervised flushes plan.services (Concluded supervised flushes) before after :=
      fun runs => runs.mono fun _ => .inl
    have one : Runs supervised flushes plan.services (Concluded supervised flushes) third fourth :=
      ((onKernel_runs (writeApplied_keeps plan verification)).ran applied).mono fun _ here =>
        .inr (.inl here)
    have two := Action.Chain.trans one (tended (startServices_runs.ran started))
    have three := Action.Chain.trans two (tended ((log_runs _ _).ran told))
    have four := Action.Chain.trans three (((recorded_runs _).ran marked).mono fun _ here =>
      here.imp id .inl)
    have five := Action.Chain.trans four ((barrier_runs.ran ran).mono fun _ here =>
      here.imp id .inr)
    exact ⟨second.kernel, third.kernel, (prepared keeping).1, copied.1, (five same).1,
      (five same).2⟩

theorem apply_ok {after : Machine} (ran : apply crypto machine = (.ok (), after)) :
    ∃ plan verification snapshot verified saved,
        verifyStaged crypto machine.kernel = (.ok (plan, verification), verified) ∧
        createSnapshot plan verified = (.ok snapshot, saved) ∧
        install plan verification snapshot { machine with kernel := saved } = (.ok (), after) := by
  rcases bind_ok ran with ⟨⟨plan, verification⟩, first, verified, ran⟩
  rcases bind_ok ran with ⟨snapshot, second, saved, ran⟩
  rw [onKernel, Action.within, Prod.mk.injEq] at verified saved
  rcases verified with ⟨verified, rfl⟩
  rcases saved with ⟨saved, rfl⟩
  exact ⟨plan, verification, snapshot, _, _, Prod.ext verified rfl, Prod.ext saved rfl, ran⟩

end

/-- Stand-ins for the hash and the signature check, which accepts what one key signed. -/
def paddedCrypto : Crypto where
  sha256 data := (data ++ replicate 32 0).take 32
  ed25519Verify key _ _ := key == replicate 32 0

variable (crypto : Crypto)

def stagedLine (target source : Text) (data : List UInt8) : Text :=
  "file target=".toList ++ target ++ " source=".toList ++ source ++ " sha256=".toList ++
    crypto.digestHex data ++ ['\n']

def searchIndex : Service where
  name := "search-index".toList
  restart := "always".toList
  dependencies := []
  state := .running
  restarts := 0
  failures := 0
  lastFailureTick := 0
  nextRestartTick := 0
  lastTick := 0
  loops := 0
  reapCount := 0
  lastReason := "boot".toList

/-- A volume with a trusted key, a manifest and its signature, and some other files. -/
def stagedMachine (manifest : Text) (directories : List Text)
    (files : List (Text × List UInt8)) : Machine where
  kernel := holding ([updateDir, stagedDir, configDir] ++ directories) ([(trustKeysPath, encode
        ("key=phase68-root-a algorithm=ed25519 status=trusted public=".toList ++ replicate 64 '0')),
      (stagedManifest, encode manifest),
      (stagedSignaturePath, encode
        ("key=phase68-root-a\nalgorithm=ed25519\nissued_version=1\nmanifest_sha256=".toList ++
          crypto.digestHex (encode manifest) ++ "\nsignature=".toList ++
          replicate 128 '0'))] ++ files)
  services := [searchIndex]
  flushes := true
  journal _ := []

def tmpDir : Text := "/TMP".toList
def tmpA : Text := "/TMP/A".toList
def tmpB : Text := "/TMP/B".toList
def payload : Text := "/UPDATES/STAGED/P".toList

/-- An update of two files with the same payload. -/
def pairManifest (first second : Text) : Text :=
  stagedLine paddedCrypto first payload [9] ++ stagedLine paddedCrypto second payload [9]

def pairPlan (first second : Text) : UpdatePlan where
  id := "staged".toList
  version := 1
  minOsVersion := currentOsVersion
  targetOsVersion := currentOsVersion
  services := ["search-index".toList]
  files := [first, second].map (fun target =>
    ⟨target, payload, some (paddedCrypto.digestHex [9])⟩)

def separateMachine : Machine :=
  stagedMachine paddedCrypto (pairManifest tmpA tmpB) [tmpDir] [(payload, [9]), (tmpA, [1])]

theorem separate_staged : StagedPlan separateMachine.kernel (pairPlan tmpA tmpB) :=
  ⟨encode (pairManifest tmpA tmpB), by decide +kernel, pairManifest tmpA tmpB,
    fromUtf8_encode _, by decide +kernel⟩

end CoolOs.Updates
