import CoolOs.Accounts.Calls

namespace CoolOs.Accounts

open Actions Files Text List
open Sched (Credentials)

/-!
# The account database stays in order

Names and uids stay distinct, the two default accounts stay, and somebody can always
administer the system.
-/

variable {users after : List UserRecord}

/-- What identifies a record: its name up to case, and its uid. -/
def key (user : UserRecord) : Text × UInt32 := (toAsciiLowercase user.name, user.uid)

theorem named_iff {name : Text} {user : UserRecord} :
    named name user = true <-> (key user).1 = toAsciiLowercase name := by
  rw [named, eqIgnoreAsciiCase, beq_iff_eq]
  rfl

def rootKey : Text × UInt32 := (toAsciiLowercase rootName, adminUid)
def guestKey : Text × UInt32 := (toAsciiLowercase guestName, guestUid)

structure Keyed (keys : List (Text × UInt32)) : Prop where
  names : (keys.map Prod.fst).Nodup
  uids : (keys.map Prod.snd).Nodup
  root : rootKey ∈ keys
  guest : guestKey ∈ keys

section

variable {user edited : UserRecord} {index : Nat}

theorem map_set_same {Value : Type} {part : UserRecord -> Value} (found : users[index]? = some user)
    (same : part edited = part user) : (users.set index edited).map part = users.map part := by
  refine ext_getElem? fun other => ?_
  rw [getElem?_map, getElem?_map, getElem?_set]
  split
  · next equal =>
      rw [<- equal, found, if_pos (List.getElem?_eq_some_iff.mp found).1, Option.map_some,
        Option.map_some, same]
  · rfl

theorem map_retire : (users.map retire).map key = users.map key := by
  rw [map_map]
  refine map_congr_left fun user _ => ?_
  change key (retire user) = key user
  unfold retire
  split <;> rfl

theorem firstFreeUid_unused {turns : Nat} {start uid : UInt32}
    (found : firstFreeUid users turns start = some uid) : uid ∉ users.map UserRecord.uid := by
  induction turns generalizing start with
  | zero => cases found
  | succ turns ih =>
    unfold firstFreeUid at found
    split at found
    · exact ih found
    · next free =>
        cases found
        intro listed
        rcases mem_map.mp listed with ⟨user, among, same⟩
        exact free (any_eq_true.mpr ⟨user, among, beq_iff_eq.mpr same⟩)

section

variable (keyed : Keyed (users.map key))
include keyed

theorem keyed_add (fresh : users.any (named user.name) = false)
    (unused : nextAvailableUid users = some user.uid) : Keyed (users.map key ++ [key user]) where
  names := by
    rw [map_append]
    refine nodup_append.mpr ⟨keyed.names, nodup_singleton _, ?_⟩
    intro name listed other single
    rcases mem_map.mp listed with ⟨_, among, rfl⟩
    rcases mem_map.mp among with ⟨record, present, rfl⟩
    rw [map_singleton, mem_singleton] at single
    intro same
    refine Bool.eq_false_iff.mp fresh (any_eq_true.mpr ⟨record, present, ?_⟩)
    exact named_iff.mpr (same.trans single)
  uids := by
    rw [map_append]
    refine nodup_append.mpr ⟨keyed.uids, nodup_singleton _, ?_⟩
    intro uid listed other single
    rw [map_singleton, mem_singleton] at single
    intro same
    rw [map_map] at listed
    have taken : user.uid ∈ users.map UserRecord.uid := by
      rw [same.trans single] at listed
      exact listed
    exact firstFreeUid_unused unused taken
  root := mem_append_left _ keyed.root
  guest := mem_append_left _ keyed.guest

theorem keyed_remove (found : users[index]? = some user)
    (ordinary : named rootName user = false ∧ named guestName user = false) :
    Keyed ((users.eraseIdx index).map key) := by
  have kept : ∀ {name : Text}, named name user = false -> ∀ {uid : UInt32},
      (toAsciiLowercase name, uid) ∈ users.map key ->
      (toAsciiLowercase name, uid) ∈ (users.eraseIdx index).map key := by
    intro name other uid listed
    rcases mem_map.mp listed with ⟨record, present, same⟩
    refine mem_map.mpr ⟨record, ?_, same⟩
    refine mem_eraseIdx_iff_getElem?.mpr ?_
    rcases getElem?_of_mem present with ⟨position, here⟩
    refine ⟨position, fun equal => ?_, here⟩
    rw [equal, found, Option.some.injEq] at here
    refine Bool.eq_false_iff.mp other (named_iff.mpr ?_)
    rw [here, same]
  refine ⟨?_, ?_, kept ordinary.1 keyed.root, kept ordinary.2 keyed.guest⟩
  · exact keyed.names.sublist (((eraseIdx_sublist users index).map key).map _)
  · exact keyed.uids.sublist (((eraseIdx_sublist users index).map key).map _)

/-- A record with the uid or the name of the administrator has both. -/
theorem key_eq_rootKey (present : user ∈ users)
    (either : (user.uid == adminUid || named rootName user) = true) : key user = rootKey := by
  have listed : key user ∈ users.map key := mem_map_of_mem present
  rw [Bool.or_eq_true] at either
  rcases either with uid | name
  · exact inj_on_of_nodup_map keyed.uids listed keyed.root (beq_iff_eq.mp uid)
  · exact inj_on_of_nodup_map keyed.names listed keyed.root (named_iff.mp name)

theorem restoreRoot_keys : (restoreRoot users).map key = users.map key := by
  unfold restoreRoot
  split
  · next index found =>
      rcases findIdx?_eq_some_iff_getElem.mp found with ⟨inside, either, _⟩
      refine map_set_same (getElem?_eq_getElem inside) ?_
      rw [key_eq_rootKey keyed (getElem_mem inside) either]
      rfl
  · next absent =>
      rcases mem_map.mp keyed.root with ⟨record, present, same⟩
      have none := findIdx?_eq_none_iff.mp absent record present
      rw [Bool.or_eq_false_iff] at none
      have name : named rootName record = true := named_iff.mpr (by rw [same]; rfl)
      rw [none.2] at name
      cases name

theorem restoreGuest_same : restoreGuest users = users := by
  rcases mem_map.mp keyed.guest with ⟨record, present, same⟩
  refine if_pos (any_eq_true.mpr ⟨record, present, ?_⟩)
  exact beq_iff_eq.mpr (congrArg Prod.snd same)

end

theorem Change.keyed (change : Change users after)
    (keyed : Keyed (users.map key)) : Keyed (after.map key) := by
  cases change with
  | same => exact keyed
  | edit found name uid _ _ _ =>
    rw [map_set_same found (Prod.ext (congrArg toAsciiLowercase name) uid)]
    exact keyed
  | add _ fresh unused =>
    rw [map_append]
    exact keyed_add keyed fresh unused
  | handOver _ fresh unused _ =>
    rw [map_append, map_retire]
    exact keyed_add keyed fresh unused
  | remove found ordinary _ => exact keyed_remove keyed found ordinary
  | restore =>
    have same := restoreRoot_keys keyed
    have still : Keyed ((restoreRoot users).map key) := same ▸ keyed
    rw [restoreGuest_same still]
    exact still

end

section

theorem restored_admin (users : List UserRecord) :
    defaultAdminUser ∈ restoreGuest (restoreRoot users) := by
  have rooted : defaultAdminUser ∈ restoreRoot users := by
    unfold restoreRoot
    split
    · next index found =>
        have inside := (findIdx?_eq_some_iff_getElem.mp found).1
        exact mem_set inside _
    · exact mem_append_right _ mem_cons_self
  unfold restoreGuest
  split
  · exact rooted
  · exact mem_append_left _ rooted

theorem Change.admin (change : Change users after)
    (some : 0 < enabledAdminCount users) : 0 < enabledAdminCount after := by
  cases change with
  | same => exact some
  | @edit index user edited found _ _ _ _ spares =>
    rcases List.getElem?_eq_some_iff.mp found with ⟨inside, here⟩
    rw [enabledAdminCount] at some spares ⊢
    rw [countP_set inside, here]
    cases admin : isEnabledAdmin user with
    | false => simpa using Nat.lt_of_lt_of_le some (Nat.le_add_right _ _)
    | true =>
      rcases spares admin with still | several
      · rw [still]
        simp
      · simp
        omega
  | add _ _ _ =>
    rw [enabledAdminCount, countP_append]
    exact Nat.lt_of_lt_of_le some (Nat.le_add_right _ _)
  | handOver _ _ _ admin =>
    rw [enabledAdminCount, countP_append, countP_singleton, admin]
    exact Nat.succ_pos _
  | @remove index user found _ spares =>
    rcases List.getElem?_eq_some_iff.mp found with ⟨inside, here⟩
    have whole : users = users.take index ++ user :: users.drop (index + 1) := by
      rw [<- here, <- drop_eq_getElem_cons inside, take_append_drop]
    have counted := congrArg (countP isEnabledAdmin) whole
    rw [countP_append, countP_cons] at counted
    rw [enabledAdminCount] at some spares ⊢
    rw [eraseIdx_eq_take_drop_succ, countP_append]
    cases admin : isEnabledAdmin user with
    | false =>
      rw [admin] at counted
      simp only [Bool.false_eq_true, if_false] at counted
      omega
    | true =>
      have several := spares admin
      rw [admin, if_pos rfl] at counted
      omega
  | restore =>
    exact countP_pos_iff.mpr ⟨_, restored_admin users, by decide⟩

end

/-- One call, with everything but the records as it finds it: whoever is logged in, whatever
has happened to the disk and to the login attempts since the last call. -/
structure Turn where
  call : AccountCall
  loginAttempts : List LoginAttempt
  session : Credentials
  current : Option Credentials
  kernel : Kernel

def Turn.before (turn : Turn) (users : List UserRecord) : AccountState :=
  ⟨users, turn.loginAttempts, turn.session, turn.current, turn.kernel⟩

def Turn.take (users : List UserRecord) (turn : Turn) : List UserRecord :=
  (step turn.call (turn.before users)).users

/-- The records after a sequence of calls. -/
def recordsAfter (turns : List Turn) : List UserRecord := turns.foldl Turn.take defaultUsers

/-- What the records satisfy at every moment. -/
structure Sound (users : List UserRecord) : Prop where
  keyed : Keyed (users.map key)
  admin : 0 < enabledAdminCount users
  clean : ∀ user ∈ users, user.Clean

theorem defaultUsers_sound : Sound defaultUsers where
  keyed := ⟨by decide, by decide, by decide, by decide⟩
  admin := by decide
  clean := by
    intro user listed
    rw [defaultUsers, mem_cons, mem_singleton] at listed
    rcases listed with rfl | rfl
    · exact ⟨by decide, .inl rfl, by decide⟩
    · exact ⟨by decide, .inr rfl, by decide⟩

theorem Change.clean (change : Change users after) (clean : ∀ user ∈ users, user.Clean) :
    ∀ user ∈ after, user.Clean := by
  intro record listed
  cases change with
  | same => exact clean record listed
  | @edit index user edited found name uid home role _ =>
    rcases mem_or_eq_of_mem_set listed with old | rfl
    · exact clean record old
    · have before := clean user (mem_of_getElem? found)
      refine ⟨name ▸ before.name, ?_, ?_⟩
      · rcases role with same | known
        · exact same ▸ before.role
        · exact known
      · rw [home, name, before.home]
  | add plain _ _ =>
    rcases mem_append.mp listed with old | new
    · exact clean record old
    · exact mem_singleton.mp new ▸ plain
  | handOver plain _ _ _ =>
    rcases mem_append.mp listed with old | new
    · rcases mem_map.mp old with ⟨former, present, rfl⟩
      have before := clean former present
      unfold retire
      split
      · exact ⟨before.name, before.role, before.home⟩
      · exact before
    · exact mem_singleton.mp new ▸ plain
  | remove _ _ _ => exact clean record (mem_of_mem_eraseIdx listed)
  | restore =>
    have rooted : ∀ {user}, user ∈ restoreRoot users -> user.Clean := by
      intro user listed
      unfold restoreRoot at listed
      split at listed
      · rcases mem_or_eq_of_mem_set listed with old | rfl
        · exact clean user old
        · exact defaultUsers_sound.clean _ mem_cons_self
      · rcases mem_append.mp listed with old | new
        · exact clean user old
        · exact mem_singleton.mp new ▸ defaultUsers_sound.clean _ mem_cons_self
    unfold restoreGuest at listed
    split at listed
    · exact rooted listed
    · rcases mem_append.mp listed with old | new
      · exact rooted old
      · refine mem_singleton.mp new ▸ defaultUsers_sound.clean _ ?_
        exact mem_cons_of_mem _ mem_cons_self

theorem Sound.change {users : List UserRecord} (sound : Sound users)
    (change : Change users after) : Sound after :=
  ⟨change.keyed sound.keyed, change.admin sound.admin, change.clean sound.clean⟩

theorem Sound.take {users : List UserRecord} (sound : Sound users) (turn : Turn) :
    Sound (turn.take users) := sound.change (step_change turn.call (turn.before users))

theorem recordsAfter_sound (turns : List Turn) : Sound (recordsAfter turns) := by
  unfold recordsAfter
  generalize start : defaultUsers = users
  have sound : Sound users := start ▸ defaultUsers_sound
  clear start
  induction turns generalizing users with
  | nil => exact sound
  | cons turn turns ih => exact ih _ (sound.take turn)

theorem Keyed.mem {name : Text} {uid : UInt32} (listed : (name, uid) ∈ users.map key) :
    ∃ user ∈ users, user.uid = uid := by
  rcases mem_map.mp listed with ⟨user, present, same⟩
  exact ⟨user, present, congrArg Prod.snd same⟩

/-- After any turns no two records share a name or a uid, and the built-in accounts and an enabled
administrator are among them. -/
theorem accounts_stay_in_order (turns : List Turn) :
    (recordsAfter turns).Pairwise (fun first second =>
      eqIgnoreAsciiCase first.name second.name = false) ∧
    ((recordsAfter turns).map UserRecord.uid).Nodup ∧
    (Exists fun user => user ∈ recordsAfter turns ∧ user.uid = adminUid) ∧
    (Exists fun user => user ∈ recordsAfter turns ∧ user.uid = guestUid) ∧
    Exists fun user => user ∈ recordsAfter turns ∧ isEnabledAdmin user = true := by
  have sound := recordsAfter_sound turns
  have names := sound.keyed.names
  have uids := sound.keyed.uids
  rw [map_map] at names uids
  refine ⟨?_, uids, Keyed.mem sound.keyed.root, Keyed.mem sound.keyed.guest, ?_⟩
  · refine (pairwise_map.mp names).imp fun {first second} differ => ?_
    rw [eqIgnoreAsciiCase]
    exact beq_eq_false_iff_ne.mpr differ
  · exact countP_pos_iff.mp sound.admin

/-- After any calls every record has a name that creating it would accept, one of the two roles,
and the home of its name. -/
theorem records_stay_clean (turns : List Turn) : Forall UserRecord.Clean (recordsAfter turns) :=
  forall_iff_forall_mem.mpr (recordsAfter_sound turns).clean

end CoolOs.Accounts
