import CoolOs.Updates.Runs

namespace CoolOs.Updates

open Actions Files Text Trust CoolFs Services Action List

/-!
# Only what was signed is applied

The sources of an update are read twice: once to be hashed, and once to be copied.  The
targets hold what the manifest says as long as a source that is written in between, because it
is the target of an earlier file, has the hash of that file.
-/

section

variable {crypto : Crypto} {plan : UpdatePlan} {verification : Verification}

/-- A manifest is signed by a key that is trusted and valid for its version.  The key is one of
those that the file of keys lists as `apply` finds it; only if that file does not look like one,
or the volume has faults, it may be a built-in key instead. -/
structure Endorsed (crypto : Crypto) (kernel : Kernel) (plan : UpdatePlan) (manifest : List UInt8)
    (signature : UpdateSignature) (key : TrustedKey) : Prop where
  staged : Exists fun file => kernel.contents stagedSignaturePath = some file ∧
    Exists fun text => fromUtf8 file = some text ∧ parseSignature text = .ok signature
  named : key.id = signature.key
  listed : key ∈ updateKeys.keysOf (kernel.contents trustKeysPath) ∨
    key ∈ updateKeys.builtIn ∧ ¬ (Reliable kernel ∧
      (kernel.contents trustKeysPath).any updateKeys.recognises = true)
  trusted : key.status = "trusted".toList
  started : key.notBefore <= plan.version
  lasting : plan.version <= key.notAfter
  valid : Exists fun bytes => hexTo 64 signature.signature = some bytes ∧
    crypto.ed25519Verify key.publicKey manifest bytes = true

variable {kernel between after : Kernel} {key : TrustedKey} {manifest : List UInt8}
  {signature : UpdateSignature} {files : List UpdateFile}

theorem stagedSignature_ok (ran : stagedSignature kernel = (.ok signature, after)) :
    ∃ file, kernel.contents stagedSignaturePath = some file ∧
      ∃ text, fromUtf8 file = some text ∧ parseSignature text = .ok signature := by
  rcases bind_ok ran with ⟨known, _, reading, opened⟩
  rcases bind_ok opened with ⟨file, _, given, decoding⟩
  rcases bind_ok decoding with ⟨text, _, decoded, parsing⟩
  rw [(okOr_ok given).1] at reading
  exact ⟨file, readFile_some (by decide) reading, text, (okOr_ok decoded).1, (settle_ok parsing).1⟩

/-- From whatever is written instead of a file of keys, the built-in keys are read. -/
theorem keysOf_rewrites :
    ∀ file ∈ updateKeys.rewrites, updateKeys.keysOf file = updateKeys.builtIn := by
  decide +kernel

theorem layout_not_keys : ∀ path ∈ layout, fileKey path ≠ fileKey updateKeys.path := by
  decide

theorem ensureLayout_tends {Failure : Type} : Keeps updateKeys.Tends
      (Updates.ensureLayout : Action Kernel Failure Unit) := by
  have dir : ∀ path ∈ layout, Keeps updateKeys.Tends
      (ensureDir path : Action Kernel Failure Unit) := fun path among =>
    (ensureDir_keeps (rfl : fileKey path = fileKey path)).mono fun changes =>
      KeyStore.tends_of_changes changes (layout_not_keys path among)
  exact (dir _ (by decide)).bind fun _ => (dir _ (by decide)).bind fun _ =>
    (dir _ (by decide)).bind fun _ => (dir _ (by decide)).bind fun _ =>
    (dir _ (by decide)).bind fun _ => (dir _ (by decide)).bind fun _ =>
    KeyStore.ensureTrustKeysFile_tends (by decide) (by decide)

/-- A key that was found was listed, or is built in. -/
theorem findTrustedKey_ok {Failure : Type} {id : Text} {start : Kernel}
    (tends : updateKeys.Tends start kernel)
    (ran : (updateKeys.findTrustedKey id kernel : Except Failure _ × Kernel) =
      (.ok (some key), after)) :
    key.id = id ∧ (key ∈ updateKeys.keysOf (start.contents trustKeysPath) ∨
      key ∈ updateKeys.builtIn ∧ ¬ (Reliable start ∧
        (start.contents trustKeysPath).any updateKeys.recognises = true)) := by
  rcases bind_ok ran with ⟨keys, last, given, ended⟩
  rcases bind_ok given with ⟨_, moment, ensured, reading⟩
  rcases bind_ok reading with ⟨file, _, read, listed⟩
  cases listed
  rw [run_pure, Prod.mk.injEq, Except.ok.injEq] at ended
  have among := mem_of_find?_eq_some ended.1
  have named := find?_some ended.1
  refine ⟨by simpa using named, ?_⟩
  have ensures : updateKeys.Tends start moment := Action.Chain.trans tends
    ((KeyStore.ensureTrustKeysFile_tends (by decide) (by decide)).ran ensured)
  by_cases calm : Reliable start ∧ (start.contents trustKeysPath).any updateKeys.recognises = true
  · rcases ensures.steady calm.1 calm.2 with ⟨same, faults⟩
    have reliable : Reliable moment := fun time => (congrFun faults time).trans (calm.1 time)
    rw [readFile_value reliable (by decide) read] at among
    exact .inl (same ▸ among)
  · refine or_iff_not_imp_left.mpr fun unlisted => ⟨?_, calm⟩
    cases file with
    | none => exact among
    | some bytes =>
      rw [<- readFile_some (by decide) read] at among
      rcases ensures.leaves with same | rewritten
      · exact absurd (show key ∈ updateKeys.keysOf (start.bytes _) from same ▸ among) unlisted
      · exact keysOf_rewrites _ rewritten ▸ among

theorem checkKey_ok (checked : checkKey plan signature key = .ok ()) :
    key.status = "trusted".toList ∧ key.notBefore <= plan.version ∧ plan.version <= key.notAfter := by
  unfold checkKey at checked
  iterate 3
    split at checked
    · cases checked
  next trusted =>
    split at checked
    · cases checked
    next started =>
      split at checked
      · cases checked
      next lasting => exact ⟨not_not.mp trusted, Nat.not_lt.mp started, Nat.not_lt.mp lasting⟩

theorem checkSignature_ok (checked : checkSignature crypto manifest signature key = .ok ()) :
    ∃ bytes, hexTo 64 signature.signature = some bytes ∧
      crypto.ed25519Verify key.publicKey manifest bytes = true := by
  unfold checkSignature at checked
  split at checked
  · cases checked
  split at checked
  · cases checked
  next bytes decoded =>
    split at checked
    · next valid => exact ⟨bytes, decoded, valid⟩
    · cases checked

/-- The hash that the manifest gives for a file. -/
def UpdateFile.digest (file : UpdateFile) : Option (List UInt8) := file.sha256.bind (hexTo 32)

/-- What is at a path has the hash that the manifest gives for a file. -/
def Hashed (crypto : Crypto) (kernel : Kernel) (path : Text) (file : UpdateFile) : Prop :=
  Exists fun data => kernel.contents path = some data ∧ file.digest = some (crypto.sha256 data)

theorem verifyFiles_ok (rooted : ∀ file ∈ files, Rooted file.source)
    (ran : each (verifyFile crypto) files kernel = (.ok (), after)) :
    ∀ file ∈ files, Hashed crypto kernel file.source file := by
  induction files generalizing kernel with
  | nil => exact fun file => nofun
  | cons first rest ih =>
    rcases bind_ok ran with ⟨_, between, one, more⟩
    have same := (verifyFile_keeps crypto first (fun _ => False)).ran one
    intro file listed
    rcases mem_cons.mp listed with rfl | later
    · rcases bind_ok one with ⟨expected, _, given, hashing⟩
      rcases bind_ok hashing with ⟨known, _, read, comparing⟩
      rcases bind_ok comparing with ⟨data, _, found, compared⟩
      rw [(okOr_ok given).2, (okOr_ok found).1] at read
      split at compared
      · next matching =>
        refine ⟨data, readFile_some (rooted file mem_cons_self) read, ?_⟩
        rw [UpdateFile.digest, (okOr_ok given).1, Option.bind_some]
        unfold hexMatchesDigest at matching
        split at matching
        · cases matching
        · next parsed => rw [parsed, beq_iff_eq.mp matching]
      · cases compared
    · rcases ih (fun other among => rooted other (mem_cons_of_mem _ among)) more file later
        with ⟨data, found, hashed⟩
      rw [contents_of_changes same id] at found
      exact ⟨data, found, hashed⟩

theorem verifyPlan_ok (tends : updateKeys.Tends kernel between)
    (changes : kernel.Changes Housekeeping between)
    (ran : verifyPlan crypto plan manifest true between = (.ok verification, after)) :
    (∃ signature key, Endorsed crypto kernel plan manifest signature key) ∧
      ((∀ file ∈ plan.files, Rooted file.source) ->
        ∃ moment, moment.Changes Housekeeping after ∧
          ∀ file ∈ plan.files, Hashed crypto moment file.source file) := by
  rcases bind_ok ran with ⟨signature, first, signed, ran⟩
  rcases bind_ok ran with ⟨_, second, versions, ran⟩
  rcases bind_ok ran with ⟨_, third, newer, ran⟩
  rcases bind_ok ran with ⟨found, fourth, looked, ran⟩
  rcases bind_ok ran with ⟨key, fifth, given, ran⟩
  rcases bind_ok ran with ⟨_, sixth, keyed, ran⟩
  rcases bind_ok ran with ⟨_, seventh, valid, ran⟩
  rcases bind_ok ran with ⟨_, eighth, hashed, ended⟩
  cases ended
  rcases stagedSignature_ok signed with ⟨file, staged, parsed⟩
  rw [contents_of_changes changes staged_not_housekeeping.2] at staged
  -- the signature and the version are only read before the key is looked for
  have quiet₁ := (stagedSignature_keeps fun _ => False).ran signed
  have quiet₂ := (checkRollback_keeps plan true fun _ => False).ran newer
  rw [(settle_ok versions).2] at quiet₂
  have still : updateKeys.Tends kernel third := Action.Chain.trans tends
    (KeyStore.tends_of_changes (Action.Chain.trans quiet₁ quiet₂) id)
  rw [(okOr_ok given).1] at looked
  rcases findTrustedKey_ok still looked with ⟨named, listed⟩
  rcases checkKey_ok (settle_ok keyed).1 with ⟨trusted, started, lasting⟩
  refine ⟨⟨signature, key, ⟨file, staged, parsed⟩, named, listed, trusted, started, lasting,
    checkSignature_ok (settle_ok valid).1⟩, fun rooted => ⟨fourth, ?_⟩⟩
  rw [(settle_ok valid).2, (settle_ok keyed).2, (okOr_ok given).2] at hashed
  exact ⟨(keeps_each fun file _ => verifyFile_keeps crypto file _).ran hashed,
    verifyFiles_ok rooted hashed⟩

/-- A source that is the target of an earlier file has the hash of that file. -/
def Consistent (files : List UpdateFile) : Prop :=
  files.Pairwise fun earlier later =>
    fileKey later.source = fileKey earlier.target -> later.digest = earlier.digest

/-- Files on the root volume, with targets at different places.  None of the targets is named
like the scratch file of a safe write, and no source is the scratch file beside a target. -/
structure Loop (files : List UpdateFile) : Prop where
  rooted : ∀ file ∈ files, Rooted file.source ∧ Rooted file.target
  plain : ∀ file ∈ files, ¬ Scratch (fileKey file.target)
  scratch : ∀ file ∈ files, ∀ other ∈ files, fileKey file.source ≠ scratchKey (fileKey other.target)
  distinct : (files.map fun file => fileKey file.target).Nodup

/-- Besides, nothing but a target is written to a source between the hashing and the copying,
and nothing to a target after it was copied: not by the services, not with the snapshot. -/
structure Undisturbed (supervised flushes : Bool) (files : List UpdateFile) : Prop
    extends Loop files where
  targets : ∀ file ∈ files, ¬ Concluded supervised flushes (fileKey file.target)
  sources : ∀ file ∈ files, ¬ Tended supervised (fileKey file.source) ∧
    ¬ Copied files (fileKey file.source)

theorem Loop.tail {first : UpdateFile} {rest : List UpdateFile} (loop : Loop (first :: rest)) :
    Loop rest where
  rooted file listed := loop.rooted file (mem_cons_of_mem _ listed)
  plain file listed := loop.plain file (mem_cons_of_mem _ listed)
  scratch file listed other among :=
    loop.scratch file (mem_cons_of_mem _ listed) other (mem_cons_of_mem _ among)
  distinct := (nodup_cons.mp loop.distinct).2

/-- The first target is not written again. -/
theorem Loop.first_stays {first : UpdateFile} {rest : List UpdateFile}
    (loop : Loop (first :: rest)) (ran : each applyOne rest kernel = (.ok (), after)) :
    after.contents first.target = kernel.contents first.target := by
  refine contents_of_changes ((applyFiles_keeps rest).ran ran) ?_
  rintro (nothing | ⟨target, among, same | scratch⟩)
  · cases nothing
  · rcases mem_map.mp among with ⟨other, inside, rfl⟩
    exact (nodup_cons.mp loop.distinct).1 (mem_map.mpr ⟨other, inside, same.symm⟩)
  · exact ne_scratchKey (loop.plain first mem_cons_self) _ scratch

theorem Loop.source_stays {first file : UpdateFile} {rest : List UpdateFile}
    (loop : Loop (first :: rest)) (listed : file ∈ rest)
    (other : fileKey file.source ≠ fileKey first.target)
    (one : applyOne first kernel = (.ok (), after)) :
    after.contents file.source = kernel.contents file.source :=
  contents_of_changes ((applyOne_keeps first).ran one) (not_or.mpr ⟨other,
    loop.scratch file (mem_cons_of_mem _ listed) first mem_cons_self⟩)

/-- A source that holds the right data before the loop, or gets it as an earlier target, leaves
it at its target. -/
theorem applyFiles_hashed (loop : Loop files) (consistent : Consistent files)
    (hashed : ∀ file ∈ files, Hashed crypto kernel file.source file)
    (ran : each applyOne files kernel = (.ok (), after)) :
    ∀ file ∈ files, Hashed crypto after file.target file := by
  induction files generalizing kernel with
  | nil => exact fun file => nofun
  | cons first rest ih =>
    rcases bind_ok ran with ⟨_, between, one, more⟩
    rcases pairwise_cons.mp consistent with ⟨ahead, later⟩
    have own := loop.rooted first mem_cons_self
    rcases applyOne_ok own.1 own.2 (loop.plain first mem_cons_self) one with ⟨data, read, written⟩
    rcases hashed first mem_cons_self with ⟨_, found, digest⟩
    rw [read, Option.some.injEq] at found
    subst found
    intro file listed
    rcases mem_cons.mp listed with rfl | behind
    · exact ⟨data, (loop.first_stays more).trans written, digest⟩
    refine ih loop.tail later (fun file listed => ?_) more file behind
    by_cases same : fileKey file.source = fileKey first.target
    · refine ⟨data, ?_, (ahead file listed same).trans digest⟩
      rw [Kernel.contents, same]
      exact written
    · rcases hashed file (mem_cons_of_mem _ listed) with ⟨other, found, matches'⟩
      exact ⟨other, (loop.source_stays listed same one).trans found, matches'⟩

/-- A target is a copy of its source, if no target is written there. -/
theorem applyFiles_copies (loop : Loop files) {file : UpdateFile} (listed : file ∈ files)
    (apart : ∀ other ∈ files, fileKey file.source ≠ fileKey other.target)
    (ran : each applyOne files kernel = (.ok (), after)) :
    after.contents file.target = kernel.contents file.source := by
  induction files generalizing kernel with
  | nil => cases listed
  | cons first rest ih =>
    rcases bind_ok ran with ⟨_, between, one, more⟩
    rcases mem_cons.mp listed with rfl | behind
    · have own := loop.rooted file mem_cons_self
      rcases applyOne_ok own.1 own.2 (loop.plain file mem_cons_self) one with ⟨data, read, written⟩
      rw [loop.first_stays more, written, read]
    · rw [ih loop.tail behind (fun other among => apart other (mem_cons_of_mem _ among)) more]
      exact loop.source_stays behind (apart first mem_cons_self) one

/-- A file whose source is an earlier target ends up as a copy of that target. -/
theorem applyFiles_chained (loop : Loop files)
    (ran : each applyOne files kernel = (.ok (), after)) :
    files.Pairwise fun earlier later => fileKey later.source = fileKey earlier.target ->
      after.contents later.target = after.contents earlier.target := by
  induction files generalizing kernel with
  | nil => exact .nil
  | cons first rest ih =>
    rcases bind_ok ran with ⟨_, between, one, more⟩
    refine pairwise_cons.mpr ⟨fun later listed same => ?_, ih loop.tail more⟩
    have apart : ∀ other ∈ rest, fileKey later.source ≠ fileKey other.target := by
      intro other among place
      exact (nodup_cons.mp loop.distinct).1 (mem_map.mpr ⟨other, among, place.symm.trans same⟩)
    rw [applyFiles_copies loop.tail listed apart more, loop.first_stays more, Kernel.contents, same]
    rfl

theorem consistent_of_hashed (loop : Loop files)
    (ran : each applyOne files kernel = (.ok (), after))
    (hashed : ∀ file ∈ files, Hashed crypto after file.target file) : Consistent files := by
  refine (applyFiles_chained loop ran).imp_of_mem fun among listed chained same => ?_
  rcases hashed _ among with ⟨data, found, digest⟩
  rcases hashed _ listed with ⟨copy, there, also⟩
  rw [chained same, found, Option.some.injEq] at there
  rw [digest, also, there]

end

/-- What some paths read as after an update, if it succeeds. -/
def applied (crypto : Crypto) (machine : Machine) (paths : List Text) :
    Option (List (Option (List UInt8))) :=
  match apply crypto machine with
  | (.error _, _) => none
  | (.ok _, after) => some (paths.map after.kernel.contents)

theorem applied_some {crypto : Crypto} {machine : Machine} {paths : List Text}
    {contents : List (Option (List UInt8))} (ran : applied crypto machine paths = some contents) :
    ∃ after, apply crypto machine = (.ok (), after) ∧
      contents = paths.map after.kernel.contents := by
  unfold applied at ran
  split at ran
  · cases ran
  · next after done =>
      cases ran
      exact ⟨after, done, rfl⟩

/-- An update whose second source is its first target. -/
def chainedManifest : Text :=
  stagedLine paddedCrypto tmpA payload [9] ++ stagedLine paddedCrypto tmpB tmpA [1]

def chainedPlan : UpdatePlan :=
  { pairPlan tmpA tmpB with
    files := [⟨tmpA, payload, some (paddedCrypto.digestHex [9])⟩,
      ⟨tmpB, tmpA, some (paddedCrypto.digestHex [1])⟩] }

def chainedMachine : Machine :=
  stagedMachine paddedCrypto chainedManifest [tmpDir] [(payload, [9]), (tmpA, [1])]

theorem chained_staged : StagedPlan chainedMachine.kernel chainedPlan :=
  ⟨encode chainedManifest, by decide +kernel, chainedManifest, fromUtf8_encode _, by decide +kernel⟩

end CoolOs.Updates
