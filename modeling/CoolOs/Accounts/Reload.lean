import CoolOs.Accounts.Invariant

namespace CoolOs.Accounts

open Actions Files Text Services Action List

/-!
# The accounts after a reboot

The records are saved as a text of one line each, and read back when the system starts.  A
line that cannot be read is skipped, and a text without one of the two default accounts is
not used at all, so that every field a call can produce has to be read back as it was.
-/

variable {users : List UserRecord}

def parseU32 (input : Text) : Option UInt32 :=
  if input.isEmpty then none else (parseDigits (2 ^ 32) 0 input).map UInt32.ofNat

def parseLogin (text : Text) : Option Bool :=
  if text = "enabled".toList then some true
  else if text = "disabled".toList then some false
  else none

def parseUserRecord (line : Text) : Option UserRecord :=
  match (line.splitOn ':').map trim with
  | name :: uid :: gid :: role :: home :: passHash :: login :: _ => do
    let uid <- parseU32 uid
    let gid <- parseU32 gid
    let passHash <- parseU32 passHash
    let loginEnabled <- parseLogin login
    if name.isEmpty || role.isEmpty || home.head? != some '/' then none
    else some ⟨name, role, uid, gid, home, passHash, loginEnabled⟩
  | _ => none

def readLine (line : Text) : Option UserRecord :=
  let line := trim line
  if line.isEmpty || line.head? == some '#' then none else parseUserRecord line

def hasUid (uid : UInt32) (users : List UserRecord) : Bool :=
  users.any (fun user => user.uid == uid)

def usersOf (text : Text) : Option (List UserRecord) :=
  let users := (lines text).filterMap readLine
  if hasUid adminUid users && hasUid guestUid users then some users else none

def isDisabledSuperuser (user : UserRecord) : Bool :=
  user.uid == Sched.rootUid && named rootName user && !user.loginEnabled

def renameAdmin (user : UserRecord) : UserRecord :=
  { user with
    name := rootName
    home := "/Users/root".toList
    passHash := passwordHash rootName "cool".toList
    loginEnabled := true }

def normalizeDefaultAdmin (users : List UserRecord) : List UserRecord :=
  let users := users.filter (fun user => !isDisabledSuperuser user)
  let rootAdmin := users.any (fun user => user.uid == adminUid && named rootName user)
  let users :=
    if rootAdmin then users
    else
      match users.findIdx? (fun user => user.uid == adminUid && user.role == adminRole) with
      | some index => users.modify index renameAdmin
      | none => users
  let users := if hasUid adminUid users then users else users ++ [defaultAdminUser]
  if hasUid guestUid users then users else users ++ [defaultGuestUser]

section

variable {Failure : Type}

def loadUsersFromDisk : Action Kernel Failure (Option (List UserRecord)) := do
  let file <- vfsKernelReadFile usersPath
  return (file.bind fromUtf8).bind usersOf

/-- The records with which `init` starts. -/
def initialUsers : Action Kernel Failure (List UserRecord) := do
  let users <- loadUsersFromDisk
  return normalizeDefaultAdmin (users.getD defaultUsers)

end

/-- A field that can be read back: without white space and without a colon. -/
def PlainField (field : Text) : Prop :=
  ∀ char ∈ field, isWhitespace char = false ∧ char ≠ ':'

instance (field : Text) : Decidable (PlainField field) :=
  decidableBAll (fun char => isWhitespace char = false ∧ char ≠ ':') field

section

variable {field rest : Text}

theorem PlainField.solid (plain : PlainField field) : Solid field := fun char within =>
  (plain char within).1

theorem PlainField.colon (plain : PlainField field) : ':' ∉ field := fun within =>
  (plain ':' within).2 rfl

theorem PlainField.append (first : PlainField field) (second : PlainField rest) :
    PlainField (field ++ rest) := fun char within =>
  (mem_append.mp within).elim (first char) (second char)

theorem trim_solid {word : Text} (solid : Solid word) : trim word = word := strip_of_none solid

end

variable {char : Char} {name : Text}

theorem nameChar_visible (allowed : isNameChar char = true) :
    char.toNat = 45 ∨ 48 <= char.toNat ∧ char.toNat <= 57 ∨ 65 <= char.toNat ∧ char.toNat <= 122 := by
  unfold isNameChar Char.isAlphanum Char.isAlpha Char.isUpper Char.isLower Char.isDigit at allowed
  simp only [Bool.or_eq_true, Bool.and_eq_true, decide_eq_true_eq, beq_iff_eq, ge_iff_le,
    UInt32.le_iff_toNat_le] at allowed
  change char.val.toNat = 45 ∨ 48 <= char.val.toNat ∧ char.val.toNat <= 57 ∨
    65 <= char.val.toNat ∧ char.val.toNat <= 122
  rcases allowed with (((⟨low, high⟩ | ⟨low, high⟩) | ⟨low, high⟩) | rfl) | rfl
  · exact .inr (.inr ⟨low, high.trans (by decide)⟩)
  · exact .inr (.inr ⟨le_trans (by decide) low, high⟩)
  · exact .inr (.inl ⟨low, high⟩)
  · exact .inl rfl
  · exact .inr (.inr (by decide))

theorem nameChar_plain (allowed : isNameChar char = true) :
    isWhitespace char = false ∧ char ≠ ':' := by
  have visible := nameChar_visible allowed
  constructor
  · unfold isWhitespace
    simp only [Bool.or_eq_false_iff, Bool.and_eq_false_iff, decide_eq_false_iff_not,
      beq_eq_false_iff_ne]
    omega
  · rintro rfl
    revert visible
    decide

theorem plainField_decimal (value : Nat) : PlainField (decimal value) := by
  intro char within
  have digit := Nat.isDigit_of_mem_toDigits (by decide) (by decide) within
  refine nameChar_plain ?_
  unfold isNameChar Char.isAlphanum
  rw [digit, Bool.or_true]
  rfl

theorem parseU32_decimal (value : UInt32) : parseU32 (decimal value.toNat) = some value := by
  unfold parseU32 decimal
  rw [if_neg (by simp), parseDigits_toDigits _ value.toNat_lt, Option.map_some, UInt32.ofNat_toNat]

theorem plainField_login (enabled : Bool) : PlainField (loginText enabled) := by
  cases enabled
  · decide
  · decide

theorem parseLogin_loginText (enabled : Bool) : parseLogin (loginText enabled) = some enabled := by
  cases enabled
  · decide
  · decide

theorem plainField_of_clean (clean : cleanUserName name = .ok name) :
    PlainField name ∧ ∃ first, name.head? = some first ∧ isNameChar first = true := by
  unfold cleanUserName at clean
  dsimp only at clean
  split at clean
  · cases clean
  split at clean
  · cases clean
  next first rest shape =>
    split at clean
    · cases clean
    split at clean
    · cases clean
    next allowed =>
      rw [Bool.not_eq_true, Bool.not_eq_false', all_eq_true] at allowed
      have same := (Except.ok.inj clean)
      rw [same] at allowed shape
      refine ⟨fun char within => nameChar_plain (allowed char within), first, ?_, ?_⟩
      · rw [shape]
        rfl
      · exact allowed first (shape ▸ mem_cons_self)

theorem plainField_role {role : Text} (known : role = adminRole ∨ role = userRole) :
    PlainField role ∧ role.isEmpty = false := by
  rcases known with rfl | rfl
  · decide
  · decide

theorem plainField_home (plain : PlainField name) :
    PlainField (userHome name) ∧ (userHome name).head? = some '/' := by
  constructor
  · refine .append ?_ plain
    decide
  · rfl

/-- The line of a record without its end. -/
def recordLine (user : UserRecord) : Text :=
  user.name ++ ':' :: (decimal user.uid.toNat ++ ':' :: (decimal user.gid.toNat ++
    ':' :: (user.role ++ ':' :: (user.home ++ ':' :: (decimal user.passHash.toNat ++
    ':' :: loginText user.loginEnabled)))))

theorem userLine_eq (user : UserRecord) : userLine user = recordLine user ++ ['\n'] := by
  unfold userLine recordLine
  simp only [append_assoc, cons_append]

section

variable {user : UserRecord}

theorem recordLine_pieces (clean : user.Clean) : ((recordLine user).splitOn ':').map trim =
      [user.name, decimal user.uid.toNat, decimal user.gid.toNat, user.role, user.home,
        decimal user.passHash.toNat, loginText user.loginEnabled] := by
  have name := (plainField_of_clean clean.name).1
  have role := (plainField_role clean.role).1
  have home : PlainField user.home := clean.home ▸ (plainField_home name).1
  have numbers := plainField_decimal
  have login := plainField_login user.loginEnabled
  unfold recordLine
  rw [splitOn_append_cons_self_of_not_mem name.colon,
    splitOn_append_cons_self_of_not_mem (numbers _).colon,
    splitOn_append_cons_self_of_not_mem (numbers _).colon,
    splitOn_append_cons_self_of_not_mem role.colon,
    splitOn_append_cons_self_of_not_mem home.colon,
    splitOn_append_cons_self_of_not_mem (numbers _).colon,
    splitOn_eq_singleton login.colon]
  simp only [map_cons, map_nil, trim_solid name.solid, trim_solid (numbers _).solid,
    trim_solid role.solid, trim_solid home.solid, trim_solid login.solid]

theorem parseUserRecord_recordLine (clean : user.Clean) :
    parseUserRecord (recordLine user) = some user := by
  rcases plainField_of_clean clean.name with ⟨plain, first, starts, _⟩
  have name : user.name.isEmpty = false := by
    cases shape : user.name with
    | nil =>
      rw [shape] at starts
      cases starts
    | cons => rfl
  have role := (plainField_role clean.role).2
  have home : user.home.head? = some '/' := clean.home ▸ (plainField_home plain).2
  unfold parseUserRecord
  rw [recordLine_pieces clean]
  simp only [parseU32_decimal, parseLogin_loginText, name, role, home, Option.bind_eq_bind,
    Option.bind_some, Bool.or_false, bne_self_eq_false, Bool.false_eq_true, if_false]

theorem solid_recordLine (clean : user.Clean) : Solid (recordLine user) := by
  have name := (plainField_of_clean clean.name).1
  have role := (plainField_role clean.role).1
  have home : PlainField user.home := clean.home ▸ (plainField_home name).1
  have numbers := fun value => (plainField_decimal value).solid
  have single : Solid [':'] := fun _ listed => mem_singleton.mp listed ▸ rfl
  have colon : ∀ {rest : Text}, Solid rest -> Solid (':' :: rest) := fun rest =>
    single.append rest
  exact name.solid.append (colon ((numbers _).append (colon ((numbers _).append
    (colon (role.solid.append (colon (home.solid.append (colon ((numbers _).append
      (colon (plainField_login _).solid)))))))))))

theorem readLine_recordLine (clean : user.Clean) : readLine (recordLine user) = some user := by
  rcases plainField_of_clean clean.name with ⟨_, first, starts, allowed⟩
  have head : (recordLine user).head? = some first := by
    unfold recordLine
    rw [head?_append, starts]
    rfl
  have other : first ≠ '#' := by
    rintro rfl
    cases allowed
  unfold readLine
  rw [trim_solid (solid_recordLine clean)]
  rw [if_neg, parseUserRecord_recordLine clean]
  rw [head, Bool.or_eq_true, not_or, List.isEmpty_iff, beq_iff_eq, Option.some.injEq]
  refine ⟨fun empty => ?_, other⟩
  rw [empty] at head
  cases head

theorem chomp_solid {line : Text} (solid : Solid line) : chomp line = line := by
  have same := chomp_append solid []
  rwa [append_nil, show chomp [] = [] from rfl, append_nil] at same

theorem read_records (clean : ∀ user ∈ users, user.Clean) :
    (lines (users.flatMap userLine)).filterMap readLine = users := by
  induction users with
  | nil => rfl
  | cons user users ih =>
    have plain := clean user mem_cons_self
    have solid := solid_recordLine plain
    rw [flatMap_cons, userLine_eq, append_assoc, singleton_append,
      lines_cons (solid.not_mem rfl), chomp_solid solid,
      filterMap_cons_some (readLine_recordLine plain),
      ih fun other among => clean other (mem_cons_of_mem _ among)]

def headerLine : Text := "# coolOS users v1: name:uid:gid:role:home:passhash:login".toList

theorem usersText_eq (users : List UserRecord) :
    usersText users = headerLine ++ '\n' :: users.flatMap userLine := by
  have header : "# coolOS users v1: name:uid:gid:role:home:passhash:login\n".toList =
      headerLine ++ ['\n'] := by decide
  unfold usersText
  rw [header, append_assoc, singleton_append]

/-- The records are read back from the text that is saved for them. -/
theorem read_usersText (clean : ∀ user ∈ users, user.Clean) :
    (lines (usersText users)).filterMap readLine = users := by
  have single : '\n' ∉ headerLine := by decide
  have skipped : readLine (chomp headerLine) = none := by decide
  rw [usersText_eq, lines_cons single, filterMap_cons_none skipped, read_records clean]

end

section

theorem Sound.hasUid (sound : Sound users) :
    hasUid adminUid users = true ∧ hasUid guestUid users = true := by
  rcases Keyed.mem sound.keyed.root with ⟨root, listed, admin⟩
  rcases Keyed.mem sound.keyed.guest with ⟨other, among, guest⟩
  exact ⟨any_eq_true.mpr ⟨root, listed, beq_iff_eq.mpr admin⟩,
    any_eq_true.mpr ⟨other, among, beq_iff_eq.mpr guest⟩⟩

theorem usersOf_usersText (sound : Sound users) : usersOf (usersText users) = some users := by
  unfold usersOf
  rw [read_usersText sound.clean]
  rw [if_pos (Bool.and_eq_true_iff.mpr sound.hasUid)]

theorem Sound.no_superuser (sound : Sound users) {user : UserRecord} (listed : user ∈ users) :
    isDisabledSuperuser user = false := by
  cases superuser : isDisabledSuperuser user with
  | false => rfl
  | true =>
    unfold isDisabledSuperuser at superuser
    rw [Bool.and_eq_true, Bool.and_eq_true] at superuser
    have same := key_eq_rootKey sound.keyed listed (Bool.or_eq_true_iff.mpr (.inr superuser.1.2))
    have admin : user.uid = adminUid := congrArg Prod.snd same
    rw [admin] at superuser
    cases superuser.1.1

theorem normalizeDefaultAdmin_sound (sound : Sound users) :
    normalizeDefaultAdmin users = users := by
  have kept : users.filter (fun user => !isDisabledSuperuser user) = users := by
    refine filter_eq_self.mpr fun user listed => ?_
    rw [sound.no_superuser listed]
    rfl
  have rooted : users.any (fun user => user.uid == adminUid && named rootName user) = true := by
    rcases mem_map.mp sound.keyed.root with ⟨root, listed, same⟩
    refine any_eq_true.mpr ⟨root, listed, Bool.and_eq_true_iff.mpr ⟨?_, ?_⟩⟩
    · exact beq_iff_eq.mpr (congrArg Prod.snd same)
    · exact named_iff.mpr (congrArg Prod.fst same)
  unfold normalizeDefaultAdmin
  rw [kept]
  dsimp only
  rw [if_pos rooted, if_pos sound.hasUid.1, if_pos sound.hasUid.2]

end

theorem persistUsers_ok {accounts saved : AccountState}
    (ran : persistUsers accounts = (.ok (), saved)) :
    saved.kernel.contents usersPath = some (encode (usersText accounts.users)) := by
  rcases bind_ok ran with ⟨users, same, observed, rest⟩
  cases observed
  have wrote := mapError_ok rest
  have inner : writeUsers accounts.users accounts.kernel = (.ok (), saved.kernel) := by
    have value : (onKernel (writeUsers accounts.users) accounts).1 = .ok () := by rw [wrote]
    have state : (onKernel (writeUsers accounts.users) accounts).2 = saved := by rw [wrote]
    exact Prod.ext value (congrArg AccountState.kernel state)
  rcases bind_ok inner with ⟨_, between, _, written⟩
  exact safeWriteFile_ok (by decide) written (by decide)

theorem loadUsersFromDisk_saved (sound : Sound users) {kernel : Kernel}
    (held : kernel.contents usersPath = some (encode (usersText users)))
    (works : kernel.faults kernel.clock = none) (Failure : Type) :
    ∃ after,
      (loadUsersFromDisk kernel : Except Failure _ × Kernel) = (.ok (some users), after) := by
  have read : (vfsKernelReadFile usersPath kernel : Except Failure _ × Kernel).1 = _ :=
    readFile_reliable (by decide) works
  refine ⟨(vfsKernelReadFile usersPath kernel : Except Failure _ × Kernel).2, ?_⟩
  unfold loadUsersFromDisk
  rw [run_bind_ok (Prod.ext read rfl), held, Option.bind_some, fromUtf8_encode,
    Option.bind_some, usersOf_usersText sound]
  rfl

/-- Whatever calls have been made, the records that were saved are those with which the
system starts again. -/
theorem accounts_survive_reboot (turns : List Turn) {accounts saved : AccountState}
    (current : accounts.users = recordsAfter turns)
    (ran : persistUsers accounts = (.ok (), saved)) {rebooted : Kernel}
    (kept : rebooted.contents usersPath = saved.kernel.contents usersPath)
    (works : rebooted.faults rebooted.clock = none) :
    (loadUsersFromDisk rebooted : Except Empty _ × Kernel).1 = .ok (some (recordsAfter turns)) ∧
    (initialUsers rebooted : Except Empty _ × Kernel).1 = .ok (recordsAfter turns) := by
  have sound := recordsAfter_sound turns
  rw [persistUsers_ok ran, current] at kept
  rcases loadUsersFromDisk_saved sound kept works Empty with ⟨after, loaded⟩
  refine ⟨congrArg Prod.fst loaded, ?_⟩
  unfold initialUsers
  rw [run_bind_ok loaded, Option.getD_some, normalizeDefaultAdmin_sound sound]
  rfl

def addsUser : Turn where
  call := .createUser "ada".toList "analytical".toList "admin".toList
  loginAttempts := []
  session := ⟨0, 0, 0⟩
  current := none
  kernel := holding [] []

def oneAdded : AccountState := addsUser.before (recordsAfter [addsUser])

theorem accounts_survive_reboot_added : (recordsAfter [addsUser]).length = 3 ∧
      (loadUsersFromDisk (persistUsers oneAdded).2.kernel : Except Empty _ × Kernel).1 =
        .ok (some (recordsAfter [addsUser])) := by
  have added : (recordsAfter [addsUser]).length = 3 := by decide
  have ran : persistUsers oneAdded = (.ok (), (persistUsers oneAdded).2) := rfl
  have works : (persistUsers oneAdded).2.kernel.faults (persistUsers oneAdded).2.kernel.clock =
      none := by decide
  have current : oneAdded.users = recordsAfter [addsUser] := rfl
  exact ⟨added, (accounts_survive_reboot [addsUser] current ran rfl works).1⟩

/-! ## New uids -/

theorem foldl_max_spec (uids : List UInt32) (start : UInt32) :
    start <= uids.foldl max start ∧ (∀ uid ∈ uids, uid <= uids.foldl max start) ∧
      (uids.foldl max start = start ∨ uids.foldl max start ∈ uids) := by
  induction uids generalizing start with
  | nil => exact ⟨UInt32.le_refl start, nofun, .inl rfl⟩
  | cons first rest ih =>
    have larger : max start first = if start <= first then first else start := rfl
    rw [foldl_cons, larger]
    grind

theorem largestUid_spec (users : List UserRecord) :
    guestUid <= largestUid users ∧ (∀ user ∈ users, user.uid <= largestUid users) ∧
      (largestUid users = guestUid ∨ hasUid (largestUid users) users = true) := by
  rcases foldl_max_spec ((users.map UserRecord.uid).filter fun uid => decide (guestUid <= uid))
    guestUid with ⟨least, most, reached⟩
  refine ⟨least, fun user listed => ?_, reached.imp_right fun found => ?_⟩
  · by_cases high : guestUid <= user.uid
    · exact most _ (mem_filter.mpr ⟨mem_map_of_mem listed, decide_eq_true high⟩)
    · exact UInt32.le_trans (UInt32.le_of_lt (UInt32.not_le.mp high)) least
  · rcases mem_map.mp (mem_filter.mp found).1 with ⟨user, listed, same⟩
    exact any_eq_true.mpr ⟨user, listed, beq_iff_eq.mpr same⟩

theorem lt_saturatingSucc {uid : UInt32} (inside : uid ≠ maxUid) : uid < saturatingSucc uid := by
  have below := uid.toNat_lt
  have other : uid.toNat ≠ maxUid.toNat := fun same => inside (UInt32.toNat_inj.mp same)
  rw [saturatingSucc, if_neg inside, UInt32.lt_iff_toNat_lt, UInt32.toNat_add]
  change uid.toNat ≠ 4294967295 at other
  change uid.toNat < (uid.toNat + 1) % 2 ^ 32
  omega

/-- The loop stands still at the last uid. -/
theorem firstFreeUid_stuck (taken : hasUid maxUid users = true) (turns : Nat) :
    firstFreeUid users turns maxUid = none := by
  induction turns with
  | zero => rfl
  | succ turns ih =>
    exact (if_pos taken).trans ih

/-- A fresh uid is found unless the last one is taken, and then the search never ends. -/
theorem nextAvailableUid_fresh_iff (users : List UserRecord) :
    ((Exists fun uid => nextAvailableUid users = some uid ∧ guestUid < uid ∧
      hasUid uid users = false) <-> hasUid maxUid users = false) ∧
    (nextAvailableUid users = none ->
      forall turns, firstFreeUid users turns (saturatingSucc (largestUid users)) = none) := by
  rcases largestUid_spec users with ⟨least, most, reached⟩
  cases taken : hasUid maxUid users with
  | true =>
    rcases any_eq_true.mp taken with ⟨user, listed, last⟩
    have below := UInt32.le_iff_toNat_le.mp (beq_iff_eq.mp last ▸ most user listed)
    have largest : largestUid users = maxUid :=
      UInt32.toNat_inj.mp (Nat.le_antisymm (Nat.le_of_lt_succ (UInt32.toNat_lt _)) below)
    have stuck (turns : Nat) :
        firstFreeUid users turns (saturatingSucc (largestUid users)) = none := by
      rw [largest]
      exact firstFreeUid_stuck taken turns
    refine ⟨⟨fun ⟨uid, found, _⟩ => ?_, nofun⟩, fun _ => stuck⟩
    rw [nextAvailableUid, stuck] at found
    cases found
  | false =>
    have inside : largestUid users ≠ maxUid := by
      intro last
      rw [last, taken] at reached
      exact reached.elim (by decide) nofun
    have next := lt_saturatingSucc inside
    have free : hasUid (saturatingSucc (largestUid users)) users = false := by
      refine any_eq_false.mpr fun user listed same => ?_
      exact UInt32.not_lt.mpr (beq_iff_eq.mp same ▸ most user listed) next
    have found : nextAvailableUid users = some (saturatingSucc (largestUid users)) :=
      if_neg (Bool.eq_false_iff.mp free)
    refine ⟨⟨fun _ => rfl, fun _ => ⟨_, found, ?_, free⟩⟩, fun none => ?_⟩
    · exact UInt32.lt_of_le_of_lt least next
    · rw [found] at none
      cases none

/-- Records of which the last one has the last uid. -/
def lastUidGiven : AccountState :=
  addsUser.before (defaultUsers ++ [{ defaultGuestUser with
    name := "ada".toList
    uid := maxUid
    home := userHome "ada".toList }])

theorem lastUidGiven_sound : Sound lastUidGiven.users where
  keyed := ⟨by decide, by decide, by decide, by decide⟩
  admin := by decide
  clean := by
    intro user listed
    rcases mem_append.mp listed with old | new
    · exact defaultUsers_sound.clean user old
    · rw [mem_singleton.mp new]
      exact ⟨by decide, .inr rfl, rfl⟩

/-- Once the last uid was given, no number of turns finds a free one. -/
theorem nextAvailableUid_endless : Exists fun users =>
    (loadUsersFromDisk (persistUsers lastUidGiven).2.kernel : Except Empty _ × Kernel).1 =
      .ok (some users) ∧
    forall turns, firstFreeUid users turns (saturatingSucc (largestUid users)) = none := by
  have ran : persistUsers lastUidGiven = (.ok (), (persistUsers lastUidGiven).2) := rfl
  rcases loadUsersFromDisk_saved lastUidGiven_sound (persistUsers_ok ran) (by decide) Empty with
    ⟨after, loaded⟩
  exact ⟨lastUidGiven.users, congrArg Prod.fst loaded, firstFreeUid_stuck (by decide)⟩

end CoolOs.Accounts
