import CoolOs.BootHealth.Record
import CoolOs.Trust.Keys

namespace CoolOs.Updates

open Actions Text Trust Files CoolFs Services BootHealth Action

/-!
# Plans of updates

A staged manifest lists the files of an update, and a snapshot manifest lists the copies
that were made of the files it replaces.
-/

def updateDir : Text := "/UPDATES".toList
def stagedDir : Text := "/UPDATES/STAGED".toList
def snapshotDir : Text := "/UPDATES/SNAPSHOTS".toList
def lastSnapshotDir : Text := "/UPDATES/SNAPSHOTS/LAST".toList
def stagedManifest : Text := "/UPDATES/STAGED/UPDATE.MF".toList
def stagedSignaturePath : Text := "/UPDATES/STAGED/UPDATE.SIG".toList
def snapshotManifest : Text := "/UPDATES/SNAPSHOTS/LAST/MANIFEST.TXT".toList
def appliedManifestPath : Text := "/UPDATES/APPLIED.MF".toList
def logPath : Text := "/LOGS/UPDATE.TXT".toList
def trustKeysPath : Text := "/CONFIG/UPDATE-KEYS.TXT".toList

@[simp] abbrev currentOsVersion : Nat := 68
@[simp] abbrev maxUpdateVersion : Nat := 9999

inductive UpdateError where
  | noStagedUpdate
  | manifestNotUtf8
  | versionInvalid
  | minimumOsInvalid
  | targetOsInvalid
  | fileMissingTarget
  | fileMissingSource
  | invalidTarget
  | refusingMetadata
  | noFiles
  | unsigned
  | signatureNotUtf8
  | signatureIncomplete
  | unsupportedSignature
  | signatureVersionMismatch
  | requiresNewerOs
  | targetOsUnsupported
  | versionRollback
  | keyNotTrusted
  | keyRevoked
  | keyNotYetValid
  | keyExpired
  | manifestHashMismatch
  | signatureInvalid
  | payloadHashMissing
  | payloadMissing
  | payloadHashMismatch
  | noSnapshot
  | snapshotNotUtf8
  | snapshotMissingTarget
  | snapshotMissingPath
  | snapshotNoFiles
  | snapshotMissing
  | write (err : WriteError)
  deriving DecidableEq

def UpdateError.message : UpdateError -> Text
  | .noStagedUpdate => "no staged update".toList
  | .manifestNotUtf8 => "staged manifest is not UTF-8".toList
  | .versionInvalid => "update version invalid".toList
  | .minimumOsInvalid => "update minimum OS invalid".toList
  | .targetOsInvalid => "update target OS invalid".toList
  | .fileMissingTarget => "update file missing target".toList
  | .fileMissingSource => "update file missing source".toList
  | .invalidTarget => "invalid update target".toList
  | .refusingMetadata => "refusing to update update metadata".toList
  | .noFiles => "staged update has no files".toList
  | .unsigned => "staged update is unsigned".toList
  | .signatureNotUtf8 => "signature is not UTF-8".toList
  | .signatureIncomplete => "signature incomplete".toList
  | .unsupportedSignature => "unsupported update signature".toList
  | .signatureVersionMismatch => "signature version mismatch".toList
  | .requiresNewerOs => "update requires newer OS".toList
  | .targetOsUnsupported => "update target OS unsupported".toList
  | .versionRollback => "update version rollback".toList
  | .keyNotTrusted => "update key not trusted".toList
  | .keyRevoked => "update key revoked".toList
  | .keyNotYetValid => "update key not yet valid".toList
  | .keyExpired => "update key expired".toList
  | .manifestHashMismatch => "manifest hash mismatch".toList
  | .signatureInvalid => "signature invalid".toList
  | .payloadHashMissing => "payload hash missing".toList
  | .payloadMissing => "payload missing".toList
  | .payloadHashMismatch => "payload hash mismatch".toList
  | .noSnapshot => "no rollback snapshot".toList
  | .snapshotNotUtf8 => "snapshot manifest is not UTF-8".toList
  | .snapshotMissingTarget => "snapshot file missing target".toList
  | .snapshotMissingPath => "snapshot file missing path".toList
  | .snapshotNoFiles => "rollback snapshot has no files".toList
  | .snapshotMissing => "snapshot missing".toList
  | .write err => err.message

structure UpdateFile where
  target : Text
  source : Text
  sha256 : Option Text
  deriving DecidableEq

structure UpdatePlan where
  id : Text
  version : Nat
  minOsVersion : Nat
  targetOsVersion : Nat
  services : List Text
  files : List UpdateFile
  deriving DecidableEq

def validateTarget (target : Text) : Except UpdateError Unit :=
  if !List.isPrefixOf ['/'] target || target == ['/'] then .error .invalidTarget
  else if updateDir.isPrefixOf target || target == logPath then .error .refusingMetadata
  else .ok ()

def parseUpdateFile (rest : Text) : Except UpdateError UpdateFile := do
  let target <- okOr (tokenValue rest "target=".toList) .fileMissingTarget
  let source <- okOr (tokenValue rest "source=".toList) .fileMissingSource
  let sha256 := tokenValue rest "sha256=".toList
  validateTarget target
  return { target := target, source := source, sha256 := sha256 }

/-- The body of the loop of `parse_update_plan`. -/
def parseUpdateLine (plan : UpdatePlan) (raw : Text) : Except UpdateError UpdatePlan :=
  let line := trim raw
  if line.isEmpty || ['#'].isPrefixOf line then .ok plan
  else if let some value := stripPrefix "id=".toList line then .ok { plan with id := value }
  else if let some value := stripPrefix "version=".toList line then do
    let version <- okOr (parseU64 value) .versionInvalid
    return { plan with version := version }
  else if let some value := stripPrefix "min_os_version=".toList line then do
    let version <- okOr (parseU64 value) .minimumOsInvalid
    return { plan with minOsVersion := version }
  else if let some value := stripPrefix "target_os_version=".toList line then do
    let version <- okOr (parseU64 value) .targetOsInvalid
    return { plan with targetOsVersion := version }
  else if let some value := stripPrefix "services=".toList line then
    .ok { plan with services := splitCsv value }
  else if let some rest := stripPrefix "file ".toList line then do
    let file <- parseUpdateFile rest
    return { plan with files := plan.files ++ [file] }
  else .ok plan

def parseUpdatePlan (text : Text) : Except UpdateError UpdatePlan := do
  let plan <- (lines text).foldlM parseUpdateLine {
    id := "staged".toList
    version := 1
    minOsVersion := currentOsVersion
    targetOsVersion := currentOsVersion
    services := []
    files := [] }
  if plan.files.isEmpty then .error .noFiles
  else if plan.version = 0 then .error .versionInvalid
  else if plan.services.isEmpty then return { plan with services := ["search-index".toList] }
  else return plan

structure SnapshotFile where
  target : Text
  snapshot : Text
  missing : Bool
  deriving DecidableEq

/-- The version is kept as text. -/
structure SnapshotPlan where
  id : Text
  version : Text
  services : List Text
  files : List SnapshotFile
  deriving DecidableEq

def snapshotByte (byte : UInt8) : Char :=
  let char := Char.ofNat byte.toNat
  if char.isAlphanum || char == '.' || char == '-' || char == '_' then char else '_'

/-- The name of the copy of a file. -/
def snapshotName (path : Text) : Text :=
  let name := (encode path).map snapshotByte
  if name.isEmpty then "_ROOT".toList else name

def snapshotPath (target : Text) : Text :=
  lastSnapshotDir ++ ['/'] ++ snapshotName target ++ ".SNAP".toList

def parseSnapshotFile (rest : Text) : Except UpdateError SnapshotFile := do
  let target <- okOr (tokenValue rest "target=".toList) .snapshotMissingTarget
  let snapshot <- okOr (tokenValue rest "snapshot=".toList) .snapshotMissingPath
  let missing := ((tokenValue rest "missing=".toList).map (fun value =>
    value == "true".toList || value == "1".toList)).getD false
  validateTarget target
  return { target := target, snapshot := snapshot, missing := missing }

/-- The body of the loop of `parse_snapshot_plan`. -/
def parseSnapshotLine (plan : SnapshotPlan) (raw : Text) : Except UpdateError SnapshotPlan :=
  let line := trim raw
  if line.isEmpty || ['#'].isPrefixOf line then .ok plan
  else if let some value := stripPrefix "id=".toList line then .ok { plan with id := value }
  else if let some value := stripPrefix "version=".toList line then
    .ok { plan with version := value }
  else if let some value := stripPrefix "services=".toList line then
    .ok { plan with services := splitCsv value }
  else if let some rest := stripPrefix "file ".toList line then do
    let file <- parseSnapshotFile rest
    return { plan with files := plan.files ++ [file] }
  else .ok plan

def parseSnapshotPlan (text : Text) : Except UpdateError SnapshotPlan := do
  let plan <- (lines text).foldlM parseSnapshotLine {
    id := "snapshot".toList
    version := "1".toList
    services := []
    files := [] }
  if plan.files.isEmpty then .error .snapshotNoFiles else return plan

def flagText (flag : Bool) : Text := if flag then "true".toList else "false".toList

def snapshotLine (file : SnapshotFile) : Text :=
  "file target=".toList ++ file.target ++ " snapshot=".toList ++ file.snapshot ++
    " missing=".toList ++ flagText file.missing ++ ['\n']

/-- The manifest that `create_snapshot` writes. -/
def snapshotText (plan : UpdatePlan) (files : List SnapshotFile) : Text :=
  "id=".toList ++ plan.id ++ "\nversion=".toList ++ Nat.toDigits 10 plan.version ++
    "\nservices=".toList ++ joinCsv plan.services ++ ['\n'] ++ files.flatMap snapshotLine

structure UpdateSignature where
  key : Text
  algorithm : Text
  manifestSha256 : Text
  issuedVersion : Nat
  signature : Text

/-- The body of the loop of `staged_signature`. -/
def parseSignatureLine (signature : UpdateSignature) (raw : Text) : UpdateSignature :=
  let line := trim raw
  if line.isEmpty || ['#'].isPrefixOf line || line == "coolOS update signature".toList then
    signature
  else if let some value := stripPrefix "key=".toList line then { signature with key := value }
  else if let some value := stripPrefix "algorithm=".toList line then
    { signature with algorithm := value }
  else if let some value := stripPrefix "manifest_sha256=".toList line then
    { signature with manifestSha256 := value }
  else if let some value := stripPrefix "issued_version=".toList line then
    { signature with issuedVersion := (parseU64 value).getD 0 }
  else if let some value := stripPrefix "signature=".toList line then
    { signature with signature := value }
  else signature

def parseSignature (text : Text) : Except UpdateError UpdateSignature :=
  let signature := (lines text).foldl parseSignatureLine {
    key := []
    algorithm := []
    manifestSha256 := []
    issuedVersion := 0
    signature := [] }
  if signature.key.isEmpty || signature.algorithm.isEmpty || signature.manifestSha256.isEmpty ||
      signature.issuedVersion == 0 || signature.signature.isEmpty then .error .signatureIncomplete
  else .ok signature

structure Verification where
  key : Text
  algorithm : Text
  version : Nat
  files : Nat
  manifestSha256 : Text
  deriving DecidableEq

def updateKeys : KeyStore where
  path := trustKeysPath
  title := "coolOS update trust keys".toList
  marker := "key=phase68-root-a".toList
  scope := "staged-updates".toList
  last := maxUpdateVersion
  builtIn := builtInKeys "phase68-root-a".toList "phase68-root-b".toList
    "phase68-revoked".toList "phase68-expired".toList maxUpdateVersion

/-!
## Applying and rolling back updates

An update that was staged and verified is applied: copies of the files it replaces are
made, services are stopped, files are written and services are started again.  A
rollback writes the copies back.
-/

section

variable {Failure : Type} (crypto : Crypto) (plan : UpdatePlan)

def ensureLayout : Action Kernel Failure Unit := do
  ensureDir updateDir
  ensureDir stagedDir
  ensureDir snapshotDir
  ensureDir lastSnapshotDir
  ensureDir configDir
  ensureDir logDir
  updateKeys.ensureTrustKeysFile

def write (path : Text) (data : List UInt8) : Action Kernel UpdateError Unit :=
  mapError UpdateError.write (safeWrite path data)

def appendLog (action : Text) (details : List Text) : Action Kernel Failure Unit := do
  ensureLayout
  let file <- vfsKernelReadFile logPath
  let now <- currentTicks
  let log := journalBase "coolOS update journal".toList file ++ journalEntry now action details
  let _ <- Action.attempt (safeWrite logPath (encode log))
  return ()

def stagedPlanWithManifest : Action Kernel UpdateError (List UInt8 × UpdatePlan) := do
  let file <- vfsKernelReadFile stagedManifest
  let bytes <- Action.okOr file .noStagedUpdate
  let text <- Action.okOr (fromUtf8 bytes) .manifestNotUtf8
  let plan <- Action.settle (parseUpdatePlan text)
  return (bytes, plan)

def stagedSignature : Action Kernel UpdateError UpdateSignature := do
  let file <- vfsKernelReadFile stagedSignaturePath
  let bytes <- Action.okOr file .unsigned
  let text <- Action.okOr (fromUtf8 bytes) .signatureNotUtf8
  Action.settle (parseSignature text)

/-- The version on the first line that gives one. -/
def appliedVersionOf (file : Option (List UInt8)) : Nat :=
  match file.bind fromUtf8 with
  | none => 0
  | some text =>
    match (lines text).findSome? (fun line => stripPrefix "version=".toList (trim line)) with
    | none => 0
    | some value => (parseU64 value).getD 0

def appliedVersion : Action Kernel Failure Nat := do
  let file <- vfsKernelReadFile appliedManifestPath
  return appliedVersionOf file

/-- What `verify_plan` asks of the signature before it looks for the key. -/
def checkVersions (signature : UpdateSignature) : Except UpdateError Unit :=
  if signature.algorithm ≠ trustAlgorithm then .error .unsupportedSignature
  else if signature.issuedVersion ≠ plan.version then .error .signatureVersionMismatch
  else if plan.minOsVersion > currentOsVersion then .error .requiresNewerOs
  else if plan.targetOsVersion > currentOsVersion then .error .targetOsUnsupported
  else .ok ()

/-- What `verify_plan` asks of the key. -/
def checkKey (signature : UpdateSignature) (key : TrustedKey) :
    Except UpdateError Unit :=
  if key.algorithm ≠ signature.algorithm then .error .unsupportedSignature
  else if key.status = "revoked".toList then .error .keyRevoked
  else if key.status ≠ "trusted".toList then .error .keyNotTrusted
  else if plan.version < key.notBefore then .error .keyNotYetValid
  else if plan.version > key.notAfter then .error .keyExpired
  else .ok ()

/-- What `verify_plan` asks of the manifest. -/
def checkSignature (manifest : List UInt8) (signature : UpdateSignature) (key : TrustedKey) :
    Except UpdateError Unit :=
  if !hexMatchesDigest signature.manifestSha256 (crypto.sha256 manifest) then
    .error .manifestHashMismatch
  else
    match hexTo 64 signature.signature with
    | none => .error .signatureInvalid
    | some bytes =>
      if crypto.ed25519Verify key.publicKey manifest bytes then .ok ()
      else .error .signatureInvalid

def verifyFile (file : UpdateFile) : Action Kernel UpdateError Unit := do
  let expected <- Action.okOr file.sha256 .payloadHashMissing
  let known <- vfsKernelReadFile file.source
  let data <- Action.okOr known .payloadMissing
  if hexMatchesDigest expected (crypto.sha256 data) then return ()
  else Action.fail .payloadHashMismatch

/-- The version must be above the one that was applied last, where that is enforced. -/
def checkRollback (enforceRollback : Bool) : Action Kernel UpdateError Unit := do
  if enforceRollback then
    let applied <- appliedVersion
    if plan.version <= applied then Action.fail .versionRollback else return ()
  else return ()

def verifyPlan (manifest : List UInt8) (enforceRollback : Bool) :
    Action Kernel UpdateError Verification := do
  let signature <- stagedSignature
  Action.settle (checkVersions plan signature)
  checkRollback plan enforceRollback
  let found <- updateKeys.findTrustedKey signature.key
  let key <- Action.okOr found .keyNotTrusted
  Action.settle (checkKey plan signature key)
  Action.settle (checkSignature crypto manifest signature key)
  each (verifyFile crypto) plan.files
  return {
    key := signature.key
    algorithm := signature.algorithm
    version := plan.version
    files := plan.files.length
    manifestSha256 := crypto.digestHex manifest }

/-- The part of `apply` that decides whether there is an update to apply. -/
def verifyStaged : Action Kernel UpdateError (UpdatePlan × Verification) := do
  ensureLayout
  let (manifest, plan) <- stagedPlanWithManifest
  match <- Action.attempt (verifyPlan crypto plan manifest true) with
  | .ok verification =>
    appendLog "verify-ok".toList ["key=".toList ++ verification.key ++
      " algorithm=".toList ++ verification.algorithm ++
      " version=".toList ++ decimal verification.version ++
      " files=".toList ++ decimal verification.files ++
      " manifest_sha256=".toList ++ verification.manifestSha256]
    return (plan, verification)
  | .error err =>
    appendLog "verify-failed".toList ["error=".toList ++ err.message]
    Action.fail err

def snapshotOne (file : UpdateFile) : Action Kernel UpdateError SnapshotFile := do
  match <- vfsKernelReadFile file.target with
  | some data =>
    write (snapshotPath file.target) data
    return ⟨file.target, snapshotPath file.target, false⟩
  | none =>
    let _ <- Action.attempt (vfsKernelDelete (snapshotPath file.target))
    return ⟨file.target, snapshotPath file.target, true⟩

def createSnapshot : Action Kernel UpdateError SnapshotPlan := do
  ensureLayout
  let files <- collect snapshotOne plan.files
  write snapshotManifest (encode (snapshotText plan files))
  return {
    id := plan.id
    version := decimal plan.version
    services := plan.services
    files := files }

def applyOne (file : UpdateFile) : Action Kernel UpdateError Unit := do
  let known <- vfsKernelReadFile file.source
  let data <- Action.okOr known .payloadMissing
  write file.target data

def applyFiles : Action Kernel UpdateError Unit :=
  each applyOne plan.files

def restoreOne (file : SnapshotFile) : Action Kernel UpdateError Unit := do
  if file.missing then
    let _ <- Action.attempt (vfsKernelDelete file.target)
    return ()
  else
    let known <- vfsKernelReadFile file.snapshot
    let data <- Action.okOr known .snapshotMissing
    write file.target data

def restoreSnapshot (snapshot : SnapshotPlan) : Action Kernel UpdateError Unit :=
  each restoreOne snapshot.files

def snapshotPlan : Action Kernel UpdateError SnapshotPlan := do
  let file <- vfsKernelReadFile snapshotManifest
  let bytes <- Action.okOr file .noSnapshot
  let text <- Action.okOr (fromUtf8 bytes) .snapshotNotUtf8
  Action.settle (parseSnapshotPlan text)

def appliedManifest (verification : Verification) (now : Nat) : Text :=
  "id=".toList ++ plan.id ++ "\nversion=".toList ++ decimal plan.version ++
    "\nmin_os_version=".toList ++ decimal plan.minOsVersion ++
    "\ntarget_os_version=".toList ++ decimal plan.targetOsVersion ++
    "\ntick=".toList ++ decimal now ++ "\nfiles=".toList ++ decimal plan.files.length ++
    "\nverified_by=".toList ++ verification.key ++ "\nalgorithm=".toList ++
    verification.algorithm ++ "\nmanifest_sha256=".toList ++ verification.manifestSha256 ++ ['\n']

def writeApplied (verification : Verification) :
    Action Kernel UpdateError Unit := do
  let now <- currentTicks
  write appliedManifestPath (encode (appliedManifest plan verification now))

end

variable {Failure : Type} (crypto : Crypto)

def stopServices (services : List Text) : Action Machine Failure Unit :=
  each (fun service => do
    let _ <- stop service
    return ()) services

def startServices (services : List Text) : Action Machine Failure Unit :=
  each (fun service => do
    let _ <- start service
    return ()) services

/-- The part of `apply` after the snapshot was made. -/
def install (plan : UpdatePlan) (verification : Verification) (snapshot : SnapshotPlan) :
    Action Machine UpdateError Unit := do
  onKernel (appendLog "apply-start".toList ["id=".toList ++ plan.id ++
    " version=".toList ++ decimal plan.version ++
    " files=".toList ++ decimal plan.files.length ++
    " services=".toList ++ joinCsv plan.services])
  stopServices plan.services
  match <- Action.attempt (onKernel (applyFiles plan)) with
  | .error err =>
    let _ <- Action.attempt (onKernel (restoreSnapshot snapshot))
    startServices plan.services
    onKernel (appendLog "apply-failed".toList
      ["error=".toList ++ err.message ++ " rollback=attempted".toList])
    Action.fail err
  | .ok _ =>
    onKernel (writeApplied plan verification)
    startServices plan.services
    onKernel (appendLog "apply-ok".toList
      ["id=".toList ++ plan.id ++ " files=".toList ++ decimal plan.files.length])
    onKernel (markUpdatePending plan.id)
    barrier

def apply : Action Machine UpdateError Unit := do
  let (plan, verification) <- onKernel (verifyStaged crypto)
  let snapshot <- onKernel (createSnapshot plan)
  install plan verification snapshot

def rollback : Action Machine UpdateError Unit := do
  onKernel ensureLayout
  let snapshot <- onKernel snapshotPlan
  onKernel (appendLog "rollback-start".toList ["id=".toList ++ snapshot.id ++
    " files=".toList ++ decimal snapshot.files.length ++
    " services=".toList ++ joinCsv snapshot.services])
  stopServices snapshot.services
  let result <- Action.attempt (onKernel (restoreSnapshot snapshot))
  startServices snapshot.services
  match result with
  | .ok _ =>
    onKernel (appendLog "rollback-ok".toList
      ["id=".toList ++ snapshot.id ++ " files=".toList ++ decimal snapshot.files.length])
    barrier
  | .error err =>
    onKernel (appendLog "rollback-failed".toList ["error=".toList ++ err.message])
    Action.fail err

end CoolOs.Updates
