import CoolOs.Accounts.Users

namespace CoolOs.Accounts

open Actions Files Text Action

/-!
# What the calls do to the records

Every call leaves the records as they are or makes one change to them: it edits a record,
adds one, hands over to a first administrator, removes a record or restores the default
accounts.
-/

inductive AccountCall where
  | completeFirstRunAdmin (name password : Text)
  | createUser (name password role : Text)
  | setUserEnabled (name : Text) (enabled : Bool)
  | setUserRole (name role : Text)
  | resetUserPassword (name password : Text)
  | changePassword (oldPassword newPassword : Text)
  | deleteUser (name : Text)
  | login (name password : Text)
  | logout
  | resetFirstBootAdmin
  | repairFirstBootAdmin

def stepOf {Failure Value : Type} (action : Action AccountState Failure Value)
    (accounts : AccountState) : AccountState := (action accounts).2

def step : AccountCall -> AccountState -> AccountState
  | .completeFirstRunAdmin name password => stepOf (completeFirstRunAdmin name password)
  | .createUser name password role => stepOf (createUser name password role)
  | .setUserEnabled name enabled => stepOf (setUserEnabled name enabled)
  | .setUserRole name role => stepOf (setUserRole name role)
  | .resetUserPassword name password => stepOf (resetUserPassword name password)
  | .changePassword oldPassword newPassword => stepOf (changePassword oldPassword newPassword)
  | .deleteUser name => stepOf (deleteUser name)
  | .login name password => stepOf (login name password)
  | .logout => stepOf (logout : Action AccountState Empty User)
  | .resetFirstBootAdmin => stepOf resetFirstBootAdmin
  | .repairFirstBootAdmin => stepOf repairFirstBootAdmin

/-- A record as the calls write it. -/
structure UserRecord.Clean (user : UserRecord) : Prop where
  name : cleanUserName user.name = .ok user.name
  role : user.role = adminRole ∨ user.role = userRole
  home : user.home = userHome user.name

/-- One change of the records. -/
inductive Change (users : List UserRecord) : List UserRecord -> Prop where
  | same : Change users users
  | edit {index : Nat} {user edited : UserRecord} (found : users[index]? = some user)
      (name : edited.name = user.name) (uid : edited.uid = user.uid)
      (home : edited.home = user.home)
      (role : edited.role = user.role ∨ edited.role = adminRole ∨ edited.role = userRole)
      (spares : isEnabledAdmin user = true -> isEnabledAdmin edited = true ∨
        1 < enabledAdminCount users) : Change users (users.set index edited)
  | add {user : UserRecord} (clean : user.Clean) (fresh : users.any (named user.name) = false)
      (unused : nextAvailableUid users = some user.uid) : Change users (users ++ [user])
  | handOver {user : UserRecord} (clean : user.Clean)
      (fresh : users.any (named user.name) = false)
      (unused : nextAvailableUid users = some user.uid) (admin : isEnabledAdmin user = true) :
      Change users (users.map retire ++ [user])
  | remove {index : Nat} {user : UserRecord} (found : users[index]? = some user)
      (ordinary : named rootName user = false ∧ named guestName user = false)
      (spares : isEnabledAdmin user = true -> 1 < enabledAdminCount users) :
      Change users (users.eraseIdx index)
  | restore : Change users (restoreGuest (restoreRoot users))

def SameUsers (before after : AccountState) : Prop := after.users = before.users

instance : Chain SameUsers where
  refl _ := rfl
  trans first second := Eq.trans second first

section

variable {Failure Value : Type}

theorem onKernel_same (action : Action Kernel Failure Value) :
    Keeps SameUsers (onKernel action) := fun _ => rfl

theorem persistUsers_same : Keeps SameUsers persistUsers :=
  (keeps_observe _).bind fun _ => (onKernel_same _).mapError _

theorem markFirstBoot_same (state : FirstBootState) (user : Text) :
    Keeps SameUsers (markFirstBoot state user) := (onKernel_same _).mapError _

theorem setSession_same (user : UserRecord) :
    Keeps SameUsers (setSessionFromUser user : Action AccountState Failure Unit) :=
  keeps_modify fun _ => rfl

theorem clearLoginFailures_same (name : Text) :
    Keeps SameUsers (clearLoginFailures name : Action AccountState Failure Unit) :=
  keeps_modify fun _ => rfl

variable {related : AccountState -> AccountState -> Prop} [Chain related]

theorem requireAdminAccount_keeps : Keeps related requireAdminAccount := by
  refine (keeps_observe _).bind fun credentials => ?_
  split
  · exact keeps_pure ()
  · exact keeps_fail _

theorem settled_keeps (outcome : Except AccountError Value) :
    Keeps related (mapError Stop.failed (Action.settle outcome)) := (keeps_settle _).mapError _

theorem newUser_keeps (users : List UserRecord) (name password role : Text) :
    Keeps related (newUser users name password role) := by
  unfold newUser
  split
  · exact keeps_fail _
  · exact (keeps_okOr _ _).bind fun _ => keeps_pure _

theorem login_same (name password : Text) : Keeps SameUsers (login name password) := by
  refine (onKernel_same _).bind fun now => ?_
  refine (keeps_observe _).bind fun attempts => ?_
  refine (keeps_observe _).bind fun users => ?_
  split
  · exact keeps_fail _
  refine (keeps_okOr _ _).bind fun user => ?_
  split
  · exact keeps_fail _
  split
  · refine (onKernel_same _).bind fun later => .bind (keeps_modify fun _ => ?_) fun _ => keeps_fail _
    exact (rfl : _ = _)
  · exact (clearLoginFailures_same _).bind fun _ => (setSession_same user).bind fun _ =>
      keeps_pure _

theorem logout_same : Keeps SameUsers (logout : Action AccountState Failure User) :=
  (keeps_observe _).bind fun _ => (setSession_same _).bind fun _ => keeps_pure _

end

/-- Every run of a call makes one change at most. -/
def Once {Failure Value : Type} (action : Action AccountState Failure Value) : Prop :=
  forall accounts, Change accounts.users (action accounts).2.users

section

variable {Failure Value Result : Type} {action : Action AccountState Failure Value}
  {next : Value -> Action AccountState Failure Result} {accounts : AccountState}
  {failure : Failure} {users : List UserRecord}

theorem once_of_same (same : Keeps SameUsers action) : Once action := fun accounts => by
  have here : (action accounts).2.users = accounts.users := same accounts
  rw [here]
  exact .same

/-- The change may come after a part that leaves the records alone. -/
theorem change_bind (first : Keeps SameUsers action)
    (rest : ∀ value between, action accounts = (.ok value, between) ->
      between.users = accounts.users -> Change accounts.users (next value between).2.users) :
    Change accounts.users ((action >>= next) accounts).2.users := by
  rw [run_bind]
  split
  · next value between ran => exact rest value between ran (first.ran ran)
  · next failure between ran =>
      have same : between.users = accounts.users := first.ran ran
      rw [same]
      exact .same

theorem change_observe {part : AccountState -> Value}
    (rest : Change accounts.users (next (part accounts) accounts).2.users) :
    Change accounts.users ((observe part >>= next) accounts).2.users := rest

theorem change_okOr {value : Option Value}
    (rest : ∀ found, value = some found -> Change accounts.users (next found accounts).2.users)
    : Change accounts.users ((Action.okOr value failure >>= next) accounts).2.users := by
  cases value with
  | none => exact .same
  | some found => exact rest found rfl

theorem once_bind (first : Keeps SameUsers action)
    (rest : ∀ value, Once (next value)) : Once (action >>= next) := fun _ =>
  change_bind first fun value between _ same => same ▸ rest value between

/-- The change may come before a part that leaves the records alone. -/
theorem once_before (first : Once action)
    (rest : ∀ value, Keeps SameUsers (next value)) : Once (action >>= next) := by
  intro accounts
  have change := first accounts
  rw [run_bind]
  split
  · next value between ran =>
      have same : (next value between).2.users = between.users := rest value between
      rw [ran] at change
      rw [same]
      exact change
  · next ran =>
      rw [ran] at change
      exact change

theorem change_setUsers {new : List UserRecord} {rest : Action AccountState Failure Result}
    (change : Change users new) (same : Keeps SameUsers rest) :
    Change users ((setUsers new >>= fun _ => rest) accounts).2.users := by
  have here : (rest { accounts with users := new }).2.users = new :=
    same { accounts with users := new }
  change Change users (rest { accounts with users := new }).2.users
  rw [here]
  exact change

theorem change_fail (same : accounts.users = users) :
    Change users ((Action.fail failure : Action AccountState Failure Value) accounts).2.users :=
  same ▸ .same

end

/-! ### The parts of the calls -/

variable {clean name role : Text} {user : UserRecord}

theorem cleanUserName_clean (ok : cleanUserName name = .ok clean) :
    cleanUserName clean = .ok clean := by
  have trimmed : clean = trim name := by
    unfold cleanUserName at ok
    dsimp only at ok
    iterate 4
      split at ok
      · cases ok
    exact (Except.ok.inj ok).symm
  rw [trimmed] at ok ⊢
  have again : trim (trim name) = trim name := strip_strip isWhitespace name
  rw [cleanUserName, again]
  exact ok

theorem cleanRole_clean (ok : cleanRole role = .ok clean) :
    clean = adminRole ∨ clean = userRole := by
  unfold cleanRole at ok
  dsimp only at ok
  split at ok
  · exact .inl (Except.ok.inj ok).symm
  · split at ok
    · exact .inr (Except.ok.inj ok).symm
    · cases ok

theorem enabledAdmin_of_role (enabled : user.loginEnabled = true) (role : user.role = adminRole) :
    isEnabledAdmin user = true := by
  rw [isEnabledAdmin, isAdminRecord, isAdminRole, enabled, role, beq_self_eq_true]
  rfl

theorem newUser_ok {users : List UserRecord} {password : Text} {accounts after : AccountState}
    (clean : cleanUserName name = .ok name) (known : role = adminRole ∨ role = userRole)
    (ran : newUser users name password role accounts = (.ok user, after)) :
    user.Clean ∧ users.any (named user.name) = false ∧
      nextAvailableUid users = some user.uid ∧ user.role = role ∧ user.loginEnabled = true := by
  unfold newUser at ran
  split at ran
  · cases ran
  · next fresh =>
      rcases bind_ok ran with ⟨uid, _, found, rest⟩
      cases rest
      have unused := (okOr_ok found).1
      exact ⟨⟨clean, known, rfl⟩, Bool.eq_false_iff.mpr fresh, unused, rfl, rfl⟩

/-- An edit that keeps the name, the uid, the home and whether the user is an enabled
administrator, or makes the user one. -/
theorem changeUser_once {change : UserRecord -> UserRecord} (name : Text)
    (mild : ∀ user, (change user).name = user.name ∧ (change user).uid = user.uid ∧
      (change user).home = user.home ∧
      ((change user).role = user.role ∨ (change user).role = adminRole) ∧
      (isEnabledAdmin user = true -> isEnabledAdmin (change user) = true)) :
    Once (changeUser name change) := by
  intro accounts
  refine change_observe ?_
  refine change_okOr fun index _ => ?_
  refine change_okOr fun user here => ?_
  rcases mild user with ⟨sameName, sameUid, sameHome, role, admin⟩
  exact change_setUsers (.edit here sameName sameUid sameHome (role.imp_right .inl)
    fun enabled => .inl (admin enabled)) (keeps_pure _)

theorem restoreDefaultHandoff_once : Once restoreDefaultHandoff := by
  intro accounts
  refine change_observe ?_
  by_cases same : restoreGuest (restoreRoot accounts.users) = accounts.users
  · rw [if_pos same]
    exact .same
  · rw [if_neg same]
    exact change_setUsers .restore (persistUsers_same.bind fun _ => keeps_pure _)

theorem firstAdmin_once (clean : cleanUserName name = .ok name) (password : Text) :
    Once (firstAdmin name password) := by
  intro accounts
  refine change_observe ?_
  split
  · exact .same
  split
  · refine changeUser_once name ?_ _
    exact fun user => ⟨rfl, rfl, rfl, .inr rfl, fun _ => enabledAdmin_of_role rfl rfl⟩
  · refine change_bind (newUser_keeps _ _ _ _) fun user between made _ => ?_
    rcases newUser_ok clean (.inl rfl) made with ⟨plain, fresh, unused, role, enabled⟩
    exact change_setUsers (.handOver plain fresh unused (enabledAdmin_of_role enabled role))
      (keeps_pure _)

/-! ### The calls -/

theorem completeFirstRunAdmin_once (name password : Text) :
    Once (completeFirstRunAdmin name password) := by
  intro accounts
  refine change_bind (settled_keeps _) fun clean between cleaned same => ?_
  have ok := (settle_ok (mapError_ok cleaned)).1
  split
  · exact change_fail same
  rw [<- same]
  refine once_bind (settled_keeps _) (fun _ => ?_) between
  refine once_before (firstAdmin_once (cleanUserName_clean ok) password) fun user => ?_
  refine persistUsers_same.bind fun _ => ?_
  refine (markFirstBoot_same _ _).attempt.bind fun _ => ?_
  exact (setSession_same user).bind fun _ => keeps_pure _

theorem createUser_once (name password role : Text) : Once (createUser name password role) := by
  refine once_bind requireAdminAccount_keeps fun _ => ?_
  intro accounts
  refine change_bind (settled_keeps _) fun clean _ cleaned same => ?_
  have ok := (settle_ok (mapError_ok cleaned)).1
  rw [<- same]
  refine once_bind (settled_keeps _) (fun _ => ?_) _
  intro accounts
  refine change_bind (settled_keeps _) fun clean _ cleaned same => ?_
  have known := cleanRole_clean (settle_ok (mapError_ok cleaned)).1
  rw [<- same]
  refine change_observe ?_
  refine change_bind (newUser_keeps _ _ _ _) fun user between made _ => ?_
  rcases newUser_ok (cleanUserName_clean ok) known made with ⟨plain, fresh, unused, _, _⟩
  exact change_setUsers (.add plain fresh unused) (persistUsers_same.bind fun _ => keeps_pure _)

theorem setUserEnabled_once (name : Text) (enabled : Bool) :
    Once (setUserEnabled name enabled) := by
  refine once_bind requireAdminAccount_keeps fun _ => ?_
  intro accounts
  refine change_observe ?_
  refine change_observe ?_
  refine change_okOr fun index _ => ?_
  refine change_okOr fun user here => ?_
  split
  · exact .same
  split
  · exact .same
  next several =>
    refine change_setUsers (.edit here rfl rfl rfl (.inl rfl) fun admin => ?_)
      (persistUsers_same.bind fun _ => keeps_pure _)
    rw [isEnabledAdmin, Bool.and_eq_true] at admin
    cases enabled with
    | true => exact .inl admin.2
    | false =>
      refine .inr (Nat.lt_of_not_le fun few => several ?_)
      rw [admin.2, decide_eq_true few]
      rfl

theorem setUserRole_once (name role : Text) : Once (setUserRole name role) := by
  refine once_bind requireAdminAccount_keeps fun _ => ?_
  intro accounts
  refine change_bind (settled_keeps _) fun clean _ cleaned same => ?_
  have known := cleanRole_clean (settle_ok (mapError_ok cleaned)).1
  rw [<- same]
  refine change_observe ?_
  refine change_observe ?_
  refine change_okOr fun index _ => ?_
  refine change_okOr fun user here => ?_
  split
  · exact .same
  next several =>
    refine change_setUsers (.edit here rfl rfl rfl (.inr known) fun admin => ?_) ?_
    · rw [isEnabledAdmin, Bool.and_eq_true] at admin
      rcases known with rfl | rfl
      · exact .inl (enabledAdmin_of_role admin.1 rfl)
      · refine .inr (Nat.lt_of_not_le fun few => several ?_)
        rw [admin.2, decide_eq_true few]
        rfl
    · refine persistUsers_same.bind fun _ => ?_
      split
      · exact (setSession_same _).bind fun _ => keeps_pure _
      · exact keeps_pure _

theorem resetUserPassword_once (name password : Text) : Once (resetUserPassword name password) := by
  refine once_bind requireAdminAccount_keeps fun _ => ?_
  refine once_bind (settled_keeps _) fun _ => ?_
  refine once_before (changeUser_once name ?_) fun user => ?_
  · exact fun user => ⟨rfl, rfl, rfl, .inl rfl, id⟩
  exact (clearLoginFailures_same _).bind fun _ => persistUsers_same.bind fun _ =>
    keeps_pure _

theorem changePassword_once (oldPassword newPassword : Text) :
    Once (changePassword oldPassword newPassword) := by
  intro accounts
  unfold changePassword
  split
  · exact .same
  refine change_observe ?_
  refine change_observe ?_
  refine change_okOr fun index _ => ?_
  refine change_okOr fun user here => ?_
  split
  · exact .same
  · exact change_setUsers (.edit here rfl rfl rfl (.inl rfl) .inl) (persistUsers_same.mapError _)

theorem deleteUser_once (name : Text) : Once (deleteUser name) := by
  refine once_bind requireAdminAccount_keeps fun _ => ?_
  intro accounts
  refine change_observe ?_
  refine change_observe ?_
  refine change_okOr fun index _ => ?_
  refine change_okOr fun user here => ?_
  split
  · exact .same
  next allowed =>
    split
    · exact .same
    next several =>
      rw [Bool.or_eq_true, Bool.or_eq_true, not_or, not_or] at allowed
      refine change_setUsers (.remove here ⟨Bool.eq_false_iff.mpr allowed.1.2,
        Bool.eq_false_iff.mpr allowed.2⟩ fun admin => Nat.lt_of_not_le fun few => several ?_)
        (persistUsers_same.bind fun _ => keeps_pure _)
      rw [isEnabledAdmin, Bool.and_eq_true] at admin
      rw [admin.2, decide_eq_true few]
      rfl

theorem resetFirstBootAdmin_once : Once resetFirstBootAdmin := by
  refine once_bind requireAdminAccount_keeps fun _ => ?_
  exact once_before restoreDefaultHandoff_once fun _ => (markFirstBoot_same _ _).bind fun _ =>
    keeps_pure _

theorem repairFirstBootAdmin_once : Once repairFirstBootAdmin := by
  refine once_bind requireAdminAccount_keeps fun _ => ?_
  refine once_bind (keeps_observe _) fun users => ?_
  refine once_bind (onKernel_same _) fun fileState => ?_
  dsimp only
  split
  · exact once_before restoreDefaultHandoff_once fun _ => (markFirstBoot_same _ _).bind fun _ =>
      keeps_pure _
  iterate 2
    split
    · exact once_of_same ((markFirstBoot_same _ _).bind fun _ => keeps_pure _)
  exact once_of_same (keeps_pure _)

/-- Every call makes one change at most. -/
theorem step_change (call : AccountCall) (accounts : AccountState) :
    Change accounts.users (step call accounts).users := by
  cases call with
  | completeFirstRunAdmin name password => exact completeFirstRunAdmin_once name password accounts
  | createUser name password role => exact createUser_once name password role accounts
  | setUserEnabled name enabled => exact setUserEnabled_once name enabled accounts
  | setUserRole name role => exact setUserRole_once name role accounts
  | resetUserPassword name password => exact resetUserPassword_once name password accounts
  | changePassword oldPassword newPassword =>
    exact changePassword_once oldPassword newPassword accounts
  | deleteUser name => exact deleteUser_once name accounts
  | login name password => exact once_of_same (login_same name password) accounts
  | logout => exact once_of_same logout_same accounts
  | resetFirstBootAdmin => exact resetFirstBootAdmin_once accounts
  | repairFirstBootAdmin => exact repairFirstBootAdmin_once accounts

open List hiding Chain

/-- The record without its hash, if it is the one of `uid`. -/
def masked (uid : UInt32) (user : UserRecord) : UserRecord :=
  if user.uid = uid then { user with passHash := 0 } else user

/-- Who acts, and the records up to the hash of their own password. -/
def AccountState.guarded (accounts : AccountState) :
    Sched.Credentials × Option Sched.Credentials × List UserRecord :=
  (accounts.session, accounts.current, accounts.users.map (masked accounts.session.uid))

def SameGuarded (before after : AccountState) : Prop := after.guarded = before.guarded

instance : Chain SameGuarded where
  refl _ := rfl
  trans first second := Eq.trans second first

theorem map_masked_set {users : List UserRecord} {index : Nat} (inside : index < users.length)
    {uid : UInt32} (own : users[index].uid = uid) (hash : UInt32) :
    (users.set index { users[index] with passHash := hash }).map (masked uid) =
      users.map (masked uid) := by
  have same : masked uid { users[index] with passHash := hash } = masked uid users[index] := by
    simp only [masked, own, if_true]
  rw [map_set, same, <- getElem_map (masked uid), set_getElem_self]
  rwa [length_map]

theorem changePassword_guarded (oldPassword newPassword : Text) :
    Keeps SameGuarded (changePassword oldPassword newPassword) := by
  have written (users : List UserRecord) : Keeps SameGuarded (onKernel (writeUsers users)) :=
    fun _ => rfl
  intro accounts
  unfold changePassword
  split
  · rfl
  refine bind_related rfl fun users _ here => ?_
  cases here
  refine bind_related rfl fun session _ here => ?_
  cases here
  refine bind_related (keeps_okOr _ _ accounts) fun index accounts here => ?_
  rcases okOr_ok here with ⟨found, rfl⟩
  refine bind_related (keeps_okOr _ _ accounts) fun user accounts here => ?_
  rcases okOr_ok here with ⟨listed, rfl⟩
  split
  · rfl
  refine bind_related ?_ fun _ between _ =>
    ((keeps_observe _).bind fun _ => (written _).mapError _).mapError _ between
  -- The record found is the masked one.
  rcases List.getElem?_eq_some_iff.mp listed with ⟨inside, rfl⟩
  have own := eq_of_beq (findIdx?_eq_some_iff_getElem.mp found).2.1
  exact congrArg (fun users => (accounts.session, accounts.current, users))
    (map_masked_set inside own _)

/-- Nobody else acts after the call. -/
def AccountCall.staysSigned : AccountCall -> Bool
  | .completeFirstRunAdmin _ _ | .login _ _ | .logout => false
  | _ => true

/-- What one of the administrative calls answers; the others are not asked. -/
def answerTo (accounts : AccountState) : AccountCall -> Option (Except Stop Unit)
  | .createUser name password role => some ((createUser name password role accounts).1.map fun _ => ())
  | .setUserEnabled name enabled => some ((setUserEnabled name enabled accounts).1.map fun _ => ())
  | .setUserRole name role => some ((setUserRole name role accounts).1.map fun _ => ())
  | .resetUserPassword name password =>
    some ((resetUserPassword name password accounts).1.map fun _ => ())
  | .deleteUser name => some ((deleteUser name accounts).1.map fun _ => ())
  | .resetFirstBootAdmin => some ((resetFirstBootAdmin accounts).1.map fun _ => ())
  | .repairFirstBootAdmin => some ((repairFirstBootAdmin accounts).1.map fun _ => ())
  | .completeFirstRunAdmin _ _ | .changePassword _ _ | .login _ _ | .logout => none

section

variable {call : AccountCall} {accounts : AccountState}

theorem requireAdminAccount_denied {Value : Type}
    (plain : Sched.canAdmin (accounts.current.getD accounts.session) = false)
    (next : Unit -> Action AccountState Stop Value) :
    (requireAdminAccount >>= next) accounts = (.error (.failed .permissionDenied), accounts) := by
  refine run_bind_error (Eq.trans (run_bind_ok (run_observe _) _) ?_) next
  rw [if_neg (ne_true_of_eq_false plain)]
  rfl

/-- An administrative call is refused before it does anything. -/
theorem step_refused {given : Except Stop Unit} (asked : answerTo accounts call = some given)
    (plain : Sched.canAdmin (accounts.current.getD accounts.session) = false) :
    given = .error (.failed .permissionDenied) ∧ step call accounts = accounts := by
  have blocked {Value : Type} {next : Unit -> Action AccountState Stop Value}
      (same : some (((requireAdminAccount >>= next) accounts).1.map fun _ => ()) = some given) :
      given = .error (.failed .permissionDenied) ∧
        stepOf (requireAdminAccount >>= next) accounts = accounts := by
    rw [stepOf, requireAdminAccount_denied plain]
    rw [requireAdminAccount_denied plain, Option.some.injEq] at same
    exact ⟨same.symm, rfl⟩
  cases call with
  | completeFirstRunAdmin | login | logout | changePassword => cases asked
  | _ => exact blocked asked

theorem step_guarded (stays : call.staysSigned = true)
    (plain : Sched.canAdmin (accounts.current.getD accounts.session) = false) :
    (step call accounts).guarded = accounts.guarded := by
  cases asked : answerTo accounts call with
  | some given => rw [(step_refused asked plain).2]
  | none =>
    cases call with
    | completeFirstRunAdmin | login | logout => cases stays
    | changePassword oldPassword newPassword =>
      exact changePassword_guarded oldPassword newPassword accounts
    | _ => cases asked

theorem run_guarded {calls : List AccountCall} (signed : ∀ call ∈ calls, call.staysSigned = true)
    (plain : Sched.canAdmin (accounts.current.getD accounts.session) = false) :
    (calls.foldl (fun state call => step call state) accounts).guarded = accounts.guarded := by
  induction calls generalizing accounts with
  | nil => rfl
  | cons call rest ih =>
    have same := step_guarded (signed call mem_cons_self) plain
    have who := congrArg (fun part => part.2.1.getD part.1) same
    exact (ih (fun _ later => signed _ (mem_cons_of_mem _ later))
      ((congrArg Sched.canAdmin who).trans plain)).trans same

end

/-- Whatever it calls, a session without authority stays what it is, and changes no record but
the hash of its own password.  Each administrative call on the way is refused and changes
nothing. -/
theorem unprivileged_changes_nothing (calls : List AccountCall) {accounts : AccountState}
    (signed : ∀ call ∈ calls, call.staysSigned = true)
    (plain : Sched.canAdmin (accounts.current.getD accounts.session) = false) :
    (calls.foldl (fun state call => step call state) accounts).guarded = accounts.guarded ∧
      forall earlier call later given, calls = earlier ++ call :: later ->
        answerTo (earlier.foldl (fun state call => step call state) accounts) call = some given ->
        given = .error (.failed .permissionDenied) ∧
          step call (earlier.foldl (fun state call => step call state) accounts) =
            earlier.foldl (fun state call => step call state) accounts := by
  refine ⟨run_guarded signed plain, ?_⟩
  rintro earlier call later given rfl asked
  have same := run_guarded (fun _ listed => signed _ (mem_append_left _ listed)) plain
  have who := congrArg (fun part => part.2.1.getD part.1) same
  exact step_refused asked ((congrArg Sched.canAdmin who).trans plain)

/-- The guest changes their password and deletes nobody. -/
theorem unprivileged_changes_nothing_guest :
    let guest : AccountState := ⟨defaultUsers, [], ⟨guestUid, userGid, 0⟩, none, holding [] []⟩
    let calls := [.changePassword "guest".toList "stronger".toList, .deleteUser rootName]
    let after := calls.foldl (fun state call => step call state) guest
    after.users ≠ guest.users ∧ after.guarded = guest.guarded :=
  ⟨by decide, (unprivileged_changes_nothing _ (by decide) rfl).1⟩

end CoolOs.Accounts
