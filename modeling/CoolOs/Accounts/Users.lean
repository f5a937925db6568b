import CoolOs.Sched.Tasks
import CoolOs.Services.Supervisor

namespace CoolOs.Accounts

open Actions Files Text CoolFs Services Action
open Sched (Credentials canAdmin)

/-!
# Accounts

The records of the users, the session, and the calls that change them.  After a change
the records are written to a file.  Home directories, groups, the mode mask and the
revision counter are left out: no call of this module reads them.
-/

structure UserRecord where
  name : Text
  role : Text
  uid : UInt32
  gid : UInt32
  home : Text
  passHash : UInt32
  loginEnabled : Bool
  deriving DecidableEq

/-- A record without the hash of the password. -/
structure User where
  name : Text
  role : Text
  uid : UInt32
  gid : UInt32
  home : Text
  loginEnabled : Bool

variable {Failure : Type} (user : UserRecord)

def publicUser : User where
  name := user.name
  role := user.role
  uid := user.uid
  gid := user.gid
  home := user.home
  loginEnabled := user.loginEnabled

@[simp] abbrev adminUid : UInt32 := 1000
@[simp] abbrev userGid : UInt32 := 1000
@[simp] abbrev guestUid : UInt32 := 1001
@[simp] abbrev maxUid : UInt32 := 0xffffffff
@[simp] abbrev capAllUser : UInt32 := 511
@[simp] abbrev capInteractiveUser : UInt32 := 31

def rootName : Text := "root".toList
def guestName : Text := "guest".toList
def adminRole : Text := "admin".toList
def userRole : Text := "user".toList

/-- The FNV-1a hash of the name, a colon and the password. -/
def passwordHash (name password : Text) : UInt32 :=
  (encode name ++ 58 :: encode password).foldl (fun hash byte =>
    (hash ^^^ byte.toUInt32) * 0x01000193) 0x811c9dc5

def userHome (name : Text) : Text := "/Users/".toList ++ name

def defaultAdminUser : UserRecord where
  name := rootName
  role := adminRole
  uid := adminUid
  gid := userGid
  home := "/Users/root".toList
  passHash := passwordHash rootName "cool".toList
  loginEnabled := true

def defaultGuestUser : UserRecord where
  name := guestName
  role := userRole
  uid := guestUid
  gid := userGid
  home := "/Users/guest".toList
  passHash := passwordHash guestName "guest".toList
  loginEnabled := true

def defaultUsers : List UserRecord := [defaultAdminUser, defaultGuestUser]

def isAdminRole (role : Text) : Bool := role == adminRole || role == rootName

def isAdminRecord : Bool := isAdminRole user.role

def isEnabledAdmin : Bool := user.loginEnabled && isAdminRecord user

variable (users : List UserRecord)

def enabledAdminCount : Nat := users.countP isEnabledAdmin

def isDefaultAdminPassword : Bool :=
  eqIgnoreAsciiCase user.name rootName && user.uid == adminUid && user.loginEnabled &&
    user.passHash == passwordHash rootName "cool".toList

def named (name : Text) (user : UserRecord) : Bool := eqIgnoreAsciiCase user.name name

def userIndex (name : Text) : Option Nat :=
  users.findIdx? (named name)

def saturatingSucc (uid : UInt32) : UInt32 := if uid = maxUid then maxUid else uid + 1

/-- The loop of `next_available_uid`.  The number of turns is bounded by that of the
users, unless the loop stands at the last uid for ever. -/
def firstFreeUid (users : List UserRecord) : Nat -> UInt32 -> Option UInt32
  | 0, _ => none
  | turns + 1, uid =>
    if users.any (fun user => user.uid == uid) then
      firstFreeUid users turns (saturatingSucc uid)
    else some uid

def largestUid : UInt32 :=
  ((users.map UserRecord.uid).filter (fun uid => decide (guestUid <= uid))).foldl max guestUid

def nextAvailableUid : Option UInt32 :=
  firstFreeUid users (users.length + 1) (saturatingSucc (largestUid users))

inductive AccountError where
  | noSuchUser
  | duplicateUser
  | invalidName
  | invalidRole
  | passwordTooShort
  | permissionDenied
  | lastAdmin
  | protectedUser
  | alreadyConfigured
  | io
  deriving DecidableEq

inductive AuthError where
  | noSuchUser
  | loginDisabled
  | badPassword
  | passwordTooShort
  | loginThrottled
  | permissionDenied
  | io
  deriving DecidableEq

/-- How a call ends other than well: with an error, or not at all. -/
inductive Stop where
  | failed (err : AccountError)
  | hangs

def cleanRole (role : Text) : Except AccountError Text :=
  let role := trim role
  if eqIgnoreAsciiCase role adminRole || eqIgnoreAsciiCase role rootName then .ok adminRole
  else if eqIgnoreAsciiCase role userRole || eqIgnoreAsciiCase role guestName then .ok userRole
  else .error .invalidRole

def isAsciiAlphabetic (char : Char) : Bool := char.isAlpha

def isNameChar (char : Char) : Bool := char.isAlphanum || char == '-' || char == '_'

def cleanUserName (name : Text) : Except AccountError Text :=
  let name := trim name
  if name.length < 2 || name.length > 16 then .error .invalidName
  else
    match name with
    | [] => .error .invalidName
    | first :: _ =>
      if !isAsciiAlphabetic first then .error .invalidName
      else if !name.all isNameChar then .error .invalidName
      else .ok name

def validPassword (password : Text) : Bool :=
  decide (8 <= len password) && !password.contains ':' && !password.contains '\n'

def validatePasswordForAccount (password : Text) : Except AccountError Unit :=
  if validPassword password then .ok () else .error .passwordTooShort

structure LoginAttempt where
  name : Text
  failures : Nat
  lockedUntilTick : UInt64

/-- The records, the failed logins, the session, the credentials of the current task
when there is one, and the volume. -/
structure AccountState where
  users : List UserRecord
  loginAttempts : List LoginAttempt
  session : Credentials
  current : Option Credentials
  kernel : Kernel

/-- A call of the kernel. -/
def onKernel {Failure Value : Type} (action : Action Kernel Failure Value) :
    Action AccountState Failure Value :=
  Action.within AccountState.kernel (fun kernel accounts => { accounts with kernel := kernel })
    action

def setUsers : Action AccountState Failure Unit :=
  Action.modify (fun accounts => { accounts with users := users })

def usersPath : Text := "/CONFIG/USERS.DB".toList
def firstBootPath : Text := "/CONFIG/FIRSTBOOT.CFG".toList

def loginText (enabled : Bool) : Text := if enabled then "enabled".toList else "disabled".toList

def userLine : Text :=
  user.name ++ ':' :: decimal user.uid.toNat ++ ':' :: decimal user.gid.toNat ++ ':' :: user.role ++
    ':' :: user.home ++ ':' :: decimal user.passHash.toNat ++ ':' :: loginText user.loginEnabled ++
    ['\n']

/-- The text that `persist_users` writes. -/
def usersText : Text :=
  "# coolOS users v1: name:uid:gid:role:home:passhash:login\n".toList ++ users.flatMap userLine

def writeUsers : Action Kernel FsError Unit := do
  ensureDir configDir
  vfsKernelSafeWriteFile usersPath (encode (usersText users))

def persistUsers : Action AccountState Stop Unit := do
  let users <- observe AccountState.users
  mapError (fun _ => .failed .io) (onKernel (writeUsers users))

inductive FirstBootState where
  | required
  | inProgress
  | complete
  deriving DecidableEq

def FirstBootState.asStr : FirstBootState -> Text
  | .required => "required".toList
  | .inProgress => "in_progress".toList
  | .complete => "complete".toList

/-- `push_safe_config_value`, for a value that is not blank. -/
def safeConfigLine (key value : Text) : Text :=
  if (trim value).isEmpty then []
  else
    key ++ (trim value).filter (fun char => char != '\n' && char != '\r' && char != '=') ++ ['\n']

def writeFirstBootState (state : FirstBootState) (user device : Text) :
    Action Kernel FsError Unit := do
  ensureDir configDir
  vfsKernelSafeWriteFile firstBootPath (encode (
    "# coolOS first boot v1\nversion=80\nstate=".toList ++ state.asStr ++ ['\n'] ++
      safeConfigLine "user=".toList user ++ safeConfigLine "device=".toList device))

def firstBootStateOf (file : Option (List UInt8)) : Option FirstBootState := do
  let text <- file.bind fromUtf8
  let value <- (lines text).findSome? (fun line => stripPrefix "state=".toList (trim line))
  if trim value = "in_progress".toList then return .inProgress
  else if trim value = "complete".toList then return .complete
  else return .required

section

def firstBootFileState : Action Kernel Failure (Option FirstBootState) := do
  let file <- vfsKernelReadFile firstBootPath
  return firstBootStateOf file

end

def markFirstBoot (state : FirstBootState) (user : Text) : Action AccountState Stop Unit :=
  mapError (fun _ => .failed .io) (onKernel (writeFirstBootState state user []))

def capsForRole (role : Text) : UInt32 :=
  if isAdminRole role then capAllUser else capInteractiveUser

section

def setSessionFromUser : Action AccountState Failure Unit :=
  Action.modify (fun accounts =>
    let credentials : Credentials := ⟨user.uid, user.gid, capsForRole user.role⟩
    { accounts with
      session := credentials
      current := accounts.current.map (fun _ => credentials) })

/-- `current_credentials` in the eyes of `require_admin`. -/
def requireAdminAccount : Action AccountState Stop Unit := do
  let credentials <- observe (fun accounts : AccountState =>
    accounts.current.getD accounts.session)
  if canAdmin credentials then return () else Action.fail (.failed .permissionDenied)

def loginLocked (now : UInt64) (attempts : List LoginAttempt) (name : Text) : Bool :=
  (attempts.find? (fun attempt => eqIgnoreAsciiCase attempt.name name)).any (fun attempt =>
    decide (now < attempt.lockedUntilTick))

/-- The ticks of five seconds. -/
@[simp] abbrev lockoutTicks : UInt64 := 1440

def recordLoginFailure (now : UInt64) (name : Text) (attempts : List LoginAttempt) :
    List LoginAttempt :=
  match attempts.findIdx? (fun attempt => eqIgnoreAsciiCase attempt.name name) with
  | none => attempts ++ [⟨name, 1, 0⟩]
  | some index =>
    attempts.modify index (fun attempt =>
      let failures :=
        if attempt.lockedUntilTick <= now then min (attempt.failures + 1) (2 ^ 32 - 1)
        else attempt.failures
      if failures ≥ 3 then
        { attempt with failures := 0, lockedUntilTick := now + lockoutTicks }
      else { attempt with failures := failures })

def clearLoginFailures (name : Text) : Action AccountState Failure Unit :=
  Action.modify (fun accounts =>
    { accounts with
      loginAttempts := accounts.loginAttempts.filter (fun attempt =>
        !eqIgnoreAsciiCase attempt.name name) })

def login (name password : Text) : Action AccountState AuthError User := do
  let now <- onKernel currentTicks
  let attempts <- observe AccountState.loginAttempts
  let users <- observe AccountState.users
  if loginLocked (UInt64.ofNat now) attempts name then Action.fail .loginThrottled
  else
    let user <- Action.okOr (users.find? (named name)) .noSuchUser
    if !user.loginEnabled then Action.fail .loginDisabled
    else if user.passHash ≠ passwordHash user.name password then
      -- `record_login_failure` reads the clock again
      let later <- onKernel currentTicks
      Action.modify (fun accounts =>
        { accounts with
          loginAttempts := recordLoginFailure (UInt64.ofNat later) user.name accounts.loginAttempts })
      Action.fail .badPassword
    else
      clearLoginFailures user.name
      setSessionFromUser user
      return publicUser user

def logout : Action AccountState Failure User := do
  let users <- observe AccountState.users
  let guest := (users.find? (fun user => user.uid == guestUid)).getD defaultGuestUser
  setSessionFromUser guest
  return publicUser guest

end

/-- The record of a name is changed, and given back as it is then. -/
def changeUser (name : Text) (change : UserRecord -> UserRecord) :
    Action AccountState Stop UserRecord := do
  let users <- observe AccountState.users
  let index <- Action.okOr (userIndex users name) (.failed .noSuchUser)
  let user <- Action.okOr users[index]? (.failed .noSuchUser)
  setUsers (users.set index (change user))
  return change user

def changePassword (oldPassword newPassword : Text) : Action AccountState AuthError Unit := do
  if !validPassword newPassword then Action.fail .passwordTooShort
  else
    let users <- observe AccountState.users
    let session <- observe AccountState.session
    let index <- Action.okOr (users.findIdx? (fun user => user.uid == session.uid)) .noSuchUser
    let user <- Action.okOr users[index]? .noSuchUser
    if user.passHash ≠ passwordHash user.name oldPassword then Action.fail .badPassword
    else
      setUsers (users.set index
        { user with passHash := passwordHash user.name newPassword })
      mapError (fun _ => .io) persistUsers

/-- A new account at the end of the list. -/
def newUser (name password role : Text) : Action AccountState Stop UserRecord := do
  if users.any (named name) then Action.fail (.failed .duplicateUser)
  else
    let uid <- Action.okOr (nextAvailableUid users) .hangs
    return {
      name := name
      role := role
      uid := uid
      gid := userGid
      home := userHome name
      passHash := passwordHash name password
      loginEnabled := true }

/-- The account that came with the system, once another one takes over. -/
def retire : UserRecord :=
  if isDefaultAdminPassword user then
    { user with
      loginEnabled := false
      passHash := passwordHash user.name "disabled".toList }
  else user

def firstAdmin (name password : Text) : Action AccountState Stop UserRecord := do
  let users <- observe AccountState.users
  if !users.any isDefaultAdminPassword then Action.fail (.failed .alreadyConfigured)
  else if eqIgnoreAsciiCase name rootName then
    changeUser name (fun user =>
      { user with
        role := adminRole
        passHash := passwordHash user.name password
        loginEnabled := true })
  else
    let user <- newUser users name password adminRole
    setUsers (users.map retire ++ [user])
    return user

def completeFirstRunAdmin (name password : Text) : Action AccountState Stop User := do
  let name <- mapError Stop.failed (Action.settle (cleanUserName name))
  if eqIgnoreAsciiCase name guestName then Action.fail (.failed .protectedUser)
  else
    mapError Stop.failed (Action.settle (validatePasswordForAccount password))
    let user <- firstAdmin name password
    persistUsers
    let _ <- Action.attempt (markFirstBoot .complete user.name)
    setSessionFromUser user
    return publicUser user

def createUser (name password role : Text) : Action AccountState Stop User := do
  requireAdminAccount
  let name <- mapError Stop.failed (Action.settle (cleanUserName name))
  mapError Stop.failed (Action.settle (validatePasswordForAccount password))
  let role <- mapError Stop.failed (Action.settle (cleanRole role))
  let users <- observe AccountState.users
  let user <- newUser users name password role
  setUsers (users ++ [user])
  persistUsers
  return publicUser user

def setUserEnabled (name : Text) (enabled : Bool) : Action AccountState Stop User := do
  requireAdminAccount
  let users <- observe AccountState.users
  let session <- observe AccountState.session
  let index <- Action.okOr (userIndex users name) (.failed .noSuchUser)
  let user <- Action.okOr users[index]? (.failed .noSuchUser)
  if !enabled && user.uid == session.uid then Action.fail (.failed .protectedUser)
  else if !enabled && isAdminRecord user && decide (enabledAdminCount users <= 1) then
    Action.fail (.failed .lastAdmin)
  else
    let user := { user with loginEnabled := enabled }
    setUsers (users.set index user)
    persistUsers
    return publicUser user

def setUserRole (name role : Text) : Action AccountState Stop User := do
  requireAdminAccount
  let role <- mapError Stop.failed (Action.settle (cleanRole role))
  let users <- observe AccountState.users
  let session <- observe AccountState.session
  let index <- Action.okOr (userIndex users name) (.failed .noSuchUser)
  let user <- Action.okOr users[index]? (.failed .noSuchUser)
  if !isAdminRole role && isAdminRecord user && decide (enabledAdminCount users <= 1) then
    Action.fail (.failed .lastAdmin)
  else
    let user := { user with role := role }
    setUsers (users.set index user)
    persistUsers
    if user.uid == session.uid then
      setSessionFromUser user
      return publicUser user
    else return publicUser user

def resetUserPassword (name password : Text) : Action AccountState Stop User := do
  requireAdminAccount
  mapError Stop.failed (Action.settle (validatePasswordForAccount password))
  let user <- changeUser name (fun user =>
    { user with passHash := passwordHash user.name password })
  clearLoginFailures user.name
  persistUsers
  return publicUser user

def deleteUser (name : Text) : Action AccountState Stop User := do
  requireAdminAccount
  let users <- observe AccountState.users
  let session <- observe AccountState.session
  let index <- Action.okOr (userIndex users name) (.failed .noSuchUser)
  let user <- Action.okOr users[index]? (.failed .noSuchUser)
  if user.uid == session.uid || named rootName user || named guestName user then
    Action.fail (.failed .protectedUser)
  else if isAdminRecord user && decide (enabledAdminCount users <= 1) then
    Action.fail (.failed .lastAdmin)
  else
    setUsers (users.eraseIdx index)
    persistUsers
    return publicUser user

/-! ## The handoff account -/

/-- The records with the default administrator in place of the first record that has its
uid or its name. -/
def restoreRoot : List UserRecord :=
  match users.findIdx? (fun user => user.uid == adminUid || named rootName user) with
  | some index => users.set index defaultAdminUser
  | none => users ++ [defaultAdminUser]

def restoreGuest : List UserRecord :=
  if users.any (fun user => user.uid == guestUid) then users else users ++ [defaultGuestUser]

def restoreDefaultHandoff : Action AccountState Stop Bool := do
  let users <- observe AccountState.users
  let restored := restoreGuest (restoreRoot users)
  if restored = users then return false
  else
    setUsers restored
    persistUsers
    return true

def resetFirstBootAdmin : Action AccountState Stop Bool := do
  requireAdminAccount
  let restored <- restoreDefaultHandoff
  markFirstBoot .required []
  return restored

def preferredAdminName : Text :=
  ((users.find? isEnabledAdmin).map UserRecord.name).getD rootName

/-- The repair, and whether it changed anything. -/
def repairFirstBootAdmin : Action AccountState Stop Bool := do
  requireAdminAccount
  let users <- observe AccountState.users
  let fileState <- onKernel firstBootFileState
  let firstRun := users.any isDefaultAdminPassword
  if enabledAdminCount users = 0 then
    let _ <- restoreDefaultHandoff
    markFirstBoot .required []
    return true
  else if firstRun && fileState == some .complete then
    markFirstBoot .required []
    return true
  else if !firstRun && fileState != some .complete then
    markFirstBoot .complete (preferredAdminName users)
    return true
  else return false

end CoolOs.Accounts
