import CoolOs.Files.Footprints

namespace CoolOs.Trust

open Actions Files Text CoolFs Action

/-!
# Trusted keys

Updates and packages are signed with keys that a text file lists.  The file is written
from the built-in keys when it does not look like one, and the built-in keys are used
when it lists none.  The hash and the signature check are parameters.
-/

structure Crypto where
  sha256 : List UInt8 -> List UInt8
  ed25519Verify : List UInt8 -> List UInt8 -> List UInt8 -> Bool

def hexDigit (value : Nat) : Char := Nat.digitChar value

def hex (bytes : List UInt8) : Text :=
  bytes.flatMap (fun byte => [hexDigit (byte.toNat / 16), hexDigit (byte.toNat % 16)])

def hexValue (byte : UInt8) : Option UInt8 :=
  if 48 <= byte ∧ byte <= 57 then some (byte - 48)
  else if 97 <= byte ∧ byte <= 102 then some (byte - 97 + 10)
  else if 65 <= byte ∧ byte <= 70 then some (byte - 65 + 10)
  else none

def decodeHex : List UInt8 -> Option (List UInt8)
  | high :: low :: rest => do
    let high <- hexValue high
    let low <- hexValue low
    let rest <- decodeHex rest
    return (high <<< 4 ||| low) :: rest
  | _ => some []

/-- `hex_to_32` and `hex_to_64`. -/
def hexTo (size : Nat) (text : Text) : Option (List UInt8) :=
  if len text = 2 * size then decodeHex (encode text) else none

def hexMatchesDigest (expected : Text) (actual : List UInt8) : Bool :=
  match hexTo 32 expected with
  | none => false
  | some parsed => parsed == actual

def Crypto.digestHex (crypto : Crypto) (data : List UInt8) : Text := hex (crypto.sha256 data)

/-- The value of the first word that starts with a key. -/
def tokenValue (text key : Text) : Option Text :=
  (splitWhitespace text).findSome? (stripPrefix key)

def splitCsv (value : Text) : List Text :=
  ((value.splitOn ',').map trim).filter (fun item => !item.isEmpty)

def joinCsvField (values : List Text) : Text := (values.intersperse [',']).flatten

def joinCsv (values : List Text) : Text :=
  if values.isEmpty then "none".toList else joinCsvField values

@[simp] abbrev maxU64 : Nat := 2 ^ 64 - 1

/-- The loop of `parse_u64`, whose arithmetic saturates. -/
def parseU64Digits : Nat -> Text -> Option Nat
  | value, [] => some value
  | value, char :: rest =>
    if '0' <= char ∧ char <= '9' then
      parseU64Digits (min (min (value * 10) maxU64 + (char.toNat - '0'.toNat)) maxU64) rest
    else none

def parseU64 (value : Text) : Option Nat :=
  if value.isEmpty then none else parseU64Digits 0 value

inductive WriteError where
  | createFailed
  | writeFailed
  deriving DecidableEq

def WriteError.message : WriteError -> Text
  | .createFailed => "create failed".toList
  | .writeFailed => "write failed".toList

def safeWrite (path : Text) (data : List UInt8) : Action Kernel WriteError Unit := do
  match <- Action.attempt (vfsKernelCreateFile path) with
  | .ok _ => mapError (fun _ => .writeFailed) (vfsKernelSafeWriteFile path data)
  | .error .alreadyExists =>
    mapError (fun _ => .writeFailed) (vfsKernelSafeWriteFile path data)
  | .error _ => Action.fail .createFailed

theorem safeWrite_changes (path : Text) (data : List UInt8) :
    Action.Keeps (Kernel.Changes (Rewritten (fileKey path))) (safeWrite path data) := by
  refine .bind ?_ fun outcome => ?_
  · exact (createFile_changes path).attempt.mono fun changes => changes.mono fun _ => .inl
  · split
    · exact (safeWriteFile_changes path data).mapError _
    · exact (safeWriteFile_changes path data).mapError _
    · exact keeps_fail _

theorem safeWrite_ok {kernel after : Kernel} {path : Text} {data : List UInt8}
    (rooted : Rooted path)
    (ran : safeWrite path data kernel = (.ok (), after))
    (plain : fileKey path ≠ scratchKey (fileKey path)) : after.contents path = some data := by
  rcases bind_ok ran with ⟨outcome, between, _, rest⟩
  split at rest
  · exact safeWriteFile_ok rooted (mapError_ok rest) plain
  · exact safeWriteFile_ok rooted (mapError_ok rest) plain
  · cases rest

theorem safeWrite_leaves {path : Text} {data : List UInt8} {others : List (Option (List UInt8))}
    (plain : fileKey path ≠ scratchKey (fileKey path)) (gone : none ∈ others)
    (empty : some [] ∈ others) (written : some data ∈ others) :
    Action.Keeps (Kernel.Leaves (fileKey path) others) (safeWrite path data) := by
  refine .bind (createFile_leaves path empty).attempt fun outcome => ?_
  split
  · exact (safeWriteFile_leaves plain gone written).mapError _
  · exact (safeWriteFile_leaves plain gone written).mapError _
  · exact keeps_fail _

structure TrustedKey where
  id : Text
  algorithm : Text
  status : Text
  publicKey : List UInt8
  notBefore : Nat
  notAfter : Nat
  generation : Nat
  deriving DecidableEq

def trustAlgorithm : Text := "ed25519".toList

/-- What is different between the two files of keys: the path, the headings, the key
that must be listed, the scope, the last version or epoch, and the built-in keys. -/
structure KeyStore where
  path : Text
  title : Text
  marker : Text
  scope : Text
  last : Nat
  builtIn : List TrustedKey

variable {Failure : Type} (store : KeyStore)

namespace KeyStore

def keyLine (key : TrustedKey) : Text :=
  "key=".toList ++ key.id ++ " algorithm=".toList ++ key.algorithm ++ " status=".toList ++
    key.status ++ " scope=".toList ++ store.scope ++ " public=".toList ++ hex key.publicKey ++
    " not_before=".toList ++ Nat.toDigits 10 key.notBefore ++ " not_after=".toList ++
    Nat.toDigits 10 key.notAfter ++ " generation=".toList ++ Nat.toDigits 10 key.generation ++
    " source=built-in\n".toList

def keysText : Text :=
  store.title ++ "\n# public keys only; signing seeds are not stored in this metadata file\n".toList ++
    store.builtIn.flatMap store.keyLine

/-- Whether a file looks like a file of keys. -/
def recognises (bytes : List UInt8) : Bool :=
  match fromUtf8 bytes with
  | none => false
  | some text => (find store.marker text).isSome && (find "algorithm=ed25519".toList text).isSome

def ensureTrustKeysFile : Action Kernel Failure Unit := do
  let known <- vfsKernelReadFile store.path
  if known.any store.recognises then return ()
  else
    let _ <- Action.attempt (safeWrite store.path (encode store.keysText))
    return ()

/-- One line of the file, if it lists a key. -/
def parseKey (raw : Text) : Option TrustedKey := do
  let line := trim raw
  if line.isEmpty || ['#'].isPrefixOf line || !("key=".toList.isPrefixOf line) then none
  else
    let id <- tokenValue line "key=".toList
    let publicHex <- tokenValue line "public=".toList
    let publicKey <- hexTo 32 publicHex
    return {
      id := id
      algorithm := (tokenValue line "algorithm=".toList).getD trustAlgorithm
      status := (tokenValue line "status=".toList).getD "untrusted".toList
      publicKey := publicKey
      notBefore := ((tokenValue line "not_before=".toList).bind parseU64).getD 1
      notAfter := ((tokenValue line "not_after=".toList).bind parseU64).getD store.last
      generation := ((tokenValue line "generation=".toList).bind parseU64).getD 0 }

/-- The keys that a file lists, or else the built-in ones. -/
def keysOf (file : Option (List UInt8)) : List TrustedKey :=
  match file.bind fromUtf8 with
  | none => store.builtIn
  | some text =>
    let keys := (lines text).filterMap store.parseKey
    if keys.isEmpty then store.builtIn else keys

def trustedKeys : Action Kernel Failure (List TrustedKey) := do
  store.ensureTrustKeysFile
  let file <- vfsKernelReadFile store.path
  return store.keysOf file

def findTrustedKey (id : Text) : Action Kernel Failure (Option TrustedKey) := do
  let keys <- store.trustedKeys
  return keys.find? (fun key => key.id == id)

theorem ensureTrustKeysFile_changes : Action.Keeps (Kernel.Changes (Rewritten (fileKey store.path)))
      (store.ensureTrustKeysFile : Action Kernel Failure Unit) := by
  refine .bind (readFile_keeps _ _) fun known => ?_
  split
  · exact keeps_pure ()
  · exact .bind (safeWrite_changes _ _).attempt fun _ => keeps_pure ()

end KeyStore

/-- What the file of keys may hold instead of what it held: nothing, or what is written there
from the built-in keys, which may stop at an empty file. -/
def KeyStore.rewrites : List (Option (List UInt8)) :=
  [none, some [], some (encode store.keysText)]

/-- Steps that leave the file of keys as it is on a volume without faults where it looks like
one, and otherwise as it was or as the built-in keys are written to it. -/
structure KeyStore.Tends (before after : Kernel) : Prop where
  leaves : before.Leaves (fileKey store.path) store.rewrites after
  steady : (forall time, before.faults time = none) ->
    (before.contents store.path).any store.recognises = true ->
    after.contents store.path = before.contents store.path ∧ after.faults = before.faults

instance : Action.Chain store.Tends where
  refl _ := ⟨Action.Chain.refl _, fun _ _ => ⟨rfl, rfl⟩⟩
  trans first second := ⟨Action.Chain.trans first.leaves second.leaves, fun works known => by
    rcases first.steady works known with ⟨same, still⟩
    rcases second.steady (still ▸ works) (same ▸ known) with ⟨same', still'⟩
    exact ⟨same'.trans same, still'.trans still⟩⟩

variable {store}

theorem KeyStore.tends_of_changes {changed : List Name -> Prop} {before after : Kernel}
    (changes : before.Changes changed after) (other : ¬ changed (fileKey store.path)) :
    store.Tends before after :=
  ⟨changes.leaves other, fun _ _ =>
    ⟨Kernel.contents_congr (changes.find _ other), changes.faults⟩⟩

theorem KeyStore.ensureTrustKeysFile_tends (rooted : Rooted store.path)
    (plain : fileKey store.path ≠ scratchKey (fileKey store.path)) :
    Action.Keeps store.Tends (store.ensureTrustKeysFile : Action Kernel Failure Unit) := by
  intro kernel
  have changes : kernel.Changes (fun _ => False)
      (vfsKernelReadFile store.path kernel : Except Failure _ × Kernel).2 := readFile_keeps _ _ kernel
  refine bind_related (tends_of_changes changes id) fun known between read => ?_
  rw [read] at changes
  split
  · exact keeps_pure () between
  next unlike =>
  refine bind_related ?_ fun _ last _ => keeps_pure () last
  refine ⟨safeWrite_leaves plain (by simp [rewrites]) (by simp [rewrites]) (by simp [rewrites]) _,
    fun works looks => absurd ?_ unlike⟩
  -- what was read is what is there, so it does not look like a file of keys
  have value : (vfsKernelReadFile store.path kernel : Except Failure _ × Kernel).1 = _ :=
    readFile_reliable rooted (by rw [<- changes.faults]; exact works _)
  rw [read, Except.ok.injEq] at value
  rw [value, <- Kernel.contents_congr (changes.find _ id)]
  exact looks

def rootAPublic : List UInt8 :=
  [0x3d, 0x40, 0x17, 0xc3, 0xe8, 0x43, 0x89, 0x5a, 0x92, 0xb7, 0x0a, 0xa7, 0x4d, 0x1b, 0x7e, 0xbc,
    0x9c, 0x98, 0x2c, 0xcf, 0x2e, 0xc4, 0x96, 0x8c, 0xc0, 0xcd, 0x55, 0xf1, 0x2a, 0xf4, 0x66, 0x0c]

def rootBPublic : List UInt8 :=
  [0xd7, 0x5a, 0x98, 0x01, 0x82, 0xb1, 0x0a, 0xb7, 0xd5, 0x4b, 0xfe, 0xd3, 0xc9, 0x64, 0x07, 0x3a,
    0x0e, 0xe1, 0x72, 0xf3, 0xda, 0xa6, 0x23, 0x25, 0xaf, 0x02, 0x1a, 0x68, 0xf7, 0x07, 0x51, 0x1a]

def revokedPublic : List UInt8 :=
  [0xfc, 0x51, 0xcd, 0x8e, 0x62, 0x18, 0xa1, 0xa3, 0x8d, 0xa4, 0x7e, 0xd0, 0x02, 0x30, 0xf0, 0x58,
    0x08, 0x16, 0xed, 0x13, 0xba, 0x33, 0x03, 0xac, 0x5d, 0xeb, 0x91, 0x15, 0x48, 0x90, 0x80, 0x25]

def expiredPublic : List UInt8 :=
  [0x27, 0x81, 0x17, 0xfc, 0x14, 0x4c, 0x72, 0x34, 0x0f, 0x67, 0xd0, 0xf2, 0x31, 0x6e, 0x83, 0x86,
    0xce, 0xff, 0xbf, 0x2b, 0x24, 0x28, 0xc9, 0xc5, 0x1f, 0xef, 0x7c, 0x59, 0x7f, 0x1d, 0x42, 0x6e]

/-- The same four public keys are built in for updates and for packages. -/
def builtInKeys (rootA rootB revoked expired : Text) (last : Nat) : List TrustedKey :=
  [⟨rootA, trustAlgorithm, "trusted".toList, rootAPublic, 1, last, 1⟩,
    ⟨rootB, trustAlgorithm, "trusted".toList, rootBPublic, 1, last, 2⟩,
    ⟨revoked, trustAlgorithm, "revoked".toList, revokedPublic, 1, last, 0⟩,
    ⟨expired, trustAlgorithm, "trusted".toList, expiredPublic, 1, 1, 0⟩]

end CoolOs.Trust
