import CoolOs.Services.Footprint
import CoolOs.Updates.Apply

namespace CoolOs.BootHealth

open Actions Files Text CoolFs Services Updates Action

/-!
# Boots and the validation of updates

A boot with an update that waits for its validation is noted in the record.  If the boot
before it did not get as far as `mark_good`, the update is rolled back first.
-/

@[simp] abbrev maxU32 : Nat := 2 ^ 32 - 1

def shouldAutoRollback (state : BootState) : Bool :=
  !isNone state.pendingUpdate && decide (state.attempts > 0) &&
    (state.status == validating || state.status == booting)

def recoveredState (state : BootState) : BootState :=
  { state with
    status := recovering
    pendingUpdate := noUpdate
    attempts := 0
    lastReason := "auto rollback after failed validation boot".toList
    lastAutoRollback := state.pendingUpdate }

def failedState (state : BootState) (err : UpdateError) : BootState :=
  { state with
    status := recoveryFailed
    attempts := min (state.attempts + 1) maxU32
    lastReason := err.message }

def startedState (state : BootState) : BootState :=
  { state with
    status := if isNone state.pendingUpdate then booting else validating
    attempts := min (state.attempts + 1) maxU32
    lastReason := if isNone state.pendingUpdate then "boot started".toList
      else "update validation boot started".toList }

def healthyState (state : BootState) (now : Nat) (reason : Text) : BootState :=
  { state with
    status := healthy
    pendingUpdate := noUpdate
    attempts := 0
    lastGoodTick := now
    lastReason := reason }

def invalidState (state : BootState) (update reason : Text) : BootState :=
  { state with
    status := validating
    pendingUpdate := update
    attempts := max state.attempts 1
    lastReason := if (trim reason).isEmpty then "validation failed before mark-good".toList
      else reason }

inductive ValidationError where
  | updateIdRequired

/-- What a boot records, what it adds to the history, and its outcome. -/
structure BootStep where
  state : BootState
  action : Text
  details : List Text
  outcome : Except UpdateError Unit

section

variable {Failure : Type}

/-- The part of `begin_boot` before it writes the record. -/
def bootStep (state : BootState) : Action Machine Failure BootStep := do
  if shouldAutoRollback state then
    let update := state.pendingUpdate
    onKernel (appendHistory "auto-rollback-start".toList
      ["update=".toList ++ update, "attempts=".toList ++ decimal state.attempts])
    match <- Action.attempt rollback with
    | .ok _ =>
      return {
        state := recoveredState state
        action := "auto-rollback-ok".toList
        details := ["update=".toList ++ update]
        outcome := .ok () }
    | .error err =>
      return {
        state := failedState state err
        action := "auto-rollback-failed".toList
        details := ["update=".toList ++ update ++ " error=".toList ++ err.message]
        outcome := .error err }
  else
    if state.status == booting && isNone state.pendingUpdate && decide (state.attempts > 0) then
      onKernel (appendHistory "previous-boot-incomplete".toList
        ["attempts=".toList ++ decimal state.attempts])
    let started := startedState state
    return {
      state := started
      action := "boot-start".toList
      details := ["status=".toList ++ started.status,
        "pending_update=".toList ++ started.pendingUpdate,
        "attempts=".toList ++ decimal started.attempts]
      outcome := .ok () }

def beginBoot : Action Machine UpdateError Unit := do
  let state <- onKernel loadState
  let step <- bootStep state
  let _ <- Action.attempt (onKernel (writeState step.state))
  onKernel (appendHistory step.action step.details)
  barrier
  Action.settle step.outcome

def init : Action Machine Failure Unit := do
  onKernel BootHealth.ensureLayout
  let _ <- Action.attempt beginBoot
  return ()

def acceptedUpdate (state : BootState) : Text :=
  if isNone state.pendingUpdate then noUpdate else state.pendingUpdate

def markGood (reason : Text) : Action Machine Failure Unit := do
  onKernel BootHealth.ensureLayout
  let state <- onKernel loadState
  let now <- onKernel currentTicks
  let accepted := acceptedUpdate state
  let state := healthyState state now reason
  let _ <- Action.attempt (onKernel (writeState state))
  let _ <- Action.attempt (onKernel (writeLastGood state accepted))
  onKernel (appendHistory (if isNone accepted then "mark-good".toList else "validation-ok".toList)
    ["reason=".toList ++ reason, "accepted_update=".toList ++ accepted])
  barrier

def markManualRollback (reason : Text) : Action Machine Failure Unit := do
  onKernel BootHealth.ensureLayout
  let state <- onKernel loadState
  let now <- onKernel currentTicks
  let previous := state.pendingUpdate
  let state := healthyState state now reason
  let _ <- Action.attempt (onKernel (writeState state))
  let _ <- Action.attempt (onKernel (writeLastGood state noUpdate))
  onKernel (appendHistory "manual-rollback".toList
    ["previous_update=".toList ++ previous, "reason=".toList ++ reason])
  barrier

/-- Nothing is recorded for an update without a name. -/
def recordFailedValidation (updateId reason : Text) : Action Machine ValidationError Unit := do
  let update := cleanToken updateId "manual".toList
  if update.isEmpty || isNone update then Action.fail .updateIdRequired
  else
    onKernel BootHealth.ensureLayout
    let state <- onKernel loadState
    let state := invalidState state update reason
    let _ <- Action.attempt (onKernel (writeState state))
    onKernel (appendHistory "validation-failed".toList
      ["update=".toList ++ state.pendingUpdate, "attempts=".toList ++ decimal state.attempts,
        "reason=".toList ++ state.lastReason])
    barrier

end

/-!
## What boots and validations record

Every event reads the record, does its work, and writes the record anew.  What it writes
after that lies beside the record, so the record is what the event prepared.
-/

inductive Event where
  | applied (updateId : Text)
  | boot
  | good (reason : Text)
  | manual (reason : Text)
  | invalid (updateId reason : Text)

/-- The name under which an update is recorded. -/
def recordedName (updateId : Text) : Text := cleanToken updateId "manual".toList

def step : Event -> Machine -> Machine
  | .applied updateId, machine =>
    (onKernel (markUpdatePending updateId) machine : Except Empty Unit × Machine).2
  | .boot, machine => (init machine : Except Empty Unit × Machine).2
  | .good reason, machine => (markGood reason machine : Except Empty Unit × Machine).2
  | .manual reason, machine => (markManualRollback reason machine : Except Empty Unit × Machine).2
  | .invalid updateId reason, machine => (recordFailedValidation updateId reason machine).2

/-- The record as it stands on the volume. -/
def recordOf (machine : Machine) : BootState := stateOf (machine.kernel.contents statePath)

section

variable (Failure : Type)

/-- How every event begins. -/
def opened : Action Machine Failure BootState := do
  onKernel BootHealth.ensureLayout
  onKernel loadState

/-- What an event is about to record, with everything it does before that. -/
def prepared : Event -> Action Machine Failure BootState
  | .applied updateId => do
    let state <- opened Failure
    return pendingState state updateId
  | .boot => do
    let state <- opened Failure
    let step <- bootStep state
    return step.state
  | .good reason => do
    let state <- opened Failure
    let now <- onKernel currentTicks
    return healthyState state now reason
  | .manual reason => do
    let state <- opened Failure
    let now <- onKernel currentTicks
    return healthyState state now reason
  | .invalid updateId reason => do
    let state <- opened Failure
    return invalidState state (recordedName updateId) reason

end

/-- The next boot attempts a rollback. -/
def attemptsRollback (machine : Machine) : Bool :=
  match (opened Empty machine).1 with
  | .ok state => shouldAutoRollback state
  | .error failure => nomatch failure

/-- An event up to where it has written its record. -/
def recorded (event : Event) : Action Machine FsError Unit := do
  let state <- prepared FsError event
  onKernel (writeState state)

/-- The volume gives the record as it stands, and takes the new one. -/
structure Faithful (event : Event) (machine : Machine) : Prop where
  read : (opened Empty machine).1 = .ok (recordOf machine)
  written : (recorded event machine).1 = .ok ()

variable {Value : Type} {between machine : Machine} {event : Event}

variable {state : BootState}

theorem sure_ensureDir (path : Text) :
    Action.Sure fun Failure => (ensureDir path : Action Kernel Failure Unit) :=
  (sure_attempt _).bind fun _ => sure_pure ()

theorem sure_ask (query : FileTable -> Option Value) :
    Action.Sure fun Failure => (ask query : Action Kernel Failure _) := by
  intro kernel
  cases fault : kernel.faults kernel.clock with
  | none =>
    refine ⟨query kernel.table, { kernel with clock := kernel.clock + 1 }, fun _ => ?_⟩
    dsimp only [ask]
    rw [fault]
  | some err =>
    refine ⟨none, { kernel with clock := kernel.clock + 1 }, fun _ => ?_⟩
    dsimp only [ask]
    rw [fault]

theorem sure_readFile (path : Text) :
    Action.Sure fun Failure => (vfsKernelReadFile path : Action Kernel Failure _) := by
  unfold vfsKernelReadFile
  dsimp only
  cases onFat (normalizePath (encode path)) with
  | true => exact fun kernel => ⟨_, _, fun _ => rfl⟩
  | false => exact sure_ask fun table => table.readFile (normalizePath (encode path))

theorem sure_layout :
    Action.Sure fun Failure => (BootHealth.ensureLayout : Action Kernel Failure Unit) :=
  (sure_ensureDir _).bind fun _ => sure_ensureDir _

theorem sure_appendHistory (action : Text) (details : List Text) :
    Action.Sure fun Failure => (appendHistory action details : Action Kernel Failure Unit) := by
  refine sure_layout.bind fun _ => ?_
  refine (sure_readFile _).bind fun file => ?_
  refine (sure_observe _).bind fun now => ?_
  exact (sure_attempt _).bind fun _ => sure_pure ()

theorem sure_loadState :
    Action.Sure fun Failure => (onKernel loadState : Action Machine Failure BootState) :=
  ((sure_readFile _).bind fun _ => sure_pure _).within _ _

theorem sure_opened : Action.Sure opened := (sure_layout.within _ _).bind fun _ => sure_loadState

theorem sure_bootStep (state : BootState) :
    Action.Sure fun Failure => (bootStep state : Action Machine Failure BootStep) := by
  unfold bootStep
  split
  · refine ((sure_appendHistory _ _).within _ _).bind fun _ => ?_
    refine (sure_attempt _).bind fun outcome => ?_
    cases outcome with
    | ok value => exact sure_pure _
    | error err => exact sure_pure _
  · split
    · exact ((sure_appendHistory _ _).within _ _).bind fun _ => sure_pure _
    · exact (sure_pure _).bind fun _ => sure_pure _

theorem sure_prepared (event : Event) : Action.Sure fun Failure => prepared Failure event := by
  cases event with
  | applied updateId => exact sure_opened.bind fun _ => sure_pure _
  | boot => exact sure_opened.bind fun _ => (sure_bootStep _).bind fun _ => sure_pure _
  | good reason =>
    exact sure_opened.bind fun _ => ((sure_observe _).within _ _).bind fun _ =>
      sure_pure _
  | manual reason =>
    exact sure_opened.bind fun _ => ((sure_observe _).within _ _).bind fun _ =>
      sure_pure _
  | invalid updateId reason => exact sure_opened.bind fun _ => sure_pure _

theorem Faithful.taken (faithful : Faithful event machine)
    (ready : prepared Empty event machine = (.ok state, between)) :
    (writeState state between.kernel).1 = .ok () := by
  have written := faithful.written
  rw [recorded, run_bind_ok ((sure_prepared event).elsewhere ready FsError)] at written
  exact written

/-- Places of what is written beside the record. -/
def Aside (key : List Name) : Prop :=
  key = fileKey historyFile ∨ key = fileKey lastGoodPath ∨ key = fileKey bootDir ∨
    key = fileKey logDir ∨ key = fileKey journalPath ∨ Scratch key

theorem aside_scratch {key : List Name} (scratch : Scratch key) : Aside key :=
  .inr (.inr (.inr (.inr (.inr scratch))))

theorem aside_noted : Noted Aside where
  history := ⟨.inl rfl, aside_scratch (scratch_scratchKey _)⟩
  bootDir := .inr (.inr (.inl rfl))
  logDir := .inr (.inr (.inr (.inl rfl)))

theorem aside_lastGood : Covers Aside lastGoodPath :=
  ⟨.inr (.inl rfl), aside_scratch (scratch_scratchKey _)⟩

variable {Failure : Type}

theorem aside_barrier :
    Action.Keeps (Machine.Changes Aside) (barrier : Action Machine Failure Unit) :=
  barrier_keeps (.inr (.inr (.inr (.inl rfl)))) (.inr (.inr (.inr (.inr (.inl rfl)))))

theorem aside_history (action : Text) (details : List Text) : Action.Keeps (Machine.Changes Aside)
      (onKernel (appendHistory action details) : Action Machine Failure Unit) :=
  onKernel_keeps (appendHistory_keeps aside_noted _ _)

/-- What follows the record when an update was validated or taken back. -/
theorem aside_validated (text : List UInt8) (action : Text) (details : List Text) :
    Action.Keeps (Machine.Changes Aside) (do
      let _ <- Action.attempt (onKernel (BootHealth.writeFile lastGoodPath text))
      onKernel (appendHistory action details)
      barrier : Action Machine Failure Unit) :=
  (onKernel_keeps (bootWrite_keeps aside_lastGood _)).attempt.bind fun _ =>
    (aside_history _ _).bind fun _ => aside_barrier

theorem not_aside_state : ¬ Aside (fileKey statePath) := by
  unfold Aside
  decide

/-- What was written stands when only what is beside it was written after. -/
theorem recordOf_written {rest : Action Machine Failure Value}
    (written : (writeState state machine.kernel).1 = .ok ())
    (keeps : Action.Keeps (Machine.Changes Aside) rest) :
    recordOf ((Action.attempt (onKernel (writeState state)) >>= fun _ => rest) machine).2 =
      stateOf (some (encode (stateText state))) := by
  rcases ran : writeState state machine.kernel with ⟨outcome, kernel⟩
  rw [ran] at written
  cases written
  have plain : ¬ Scratch (fileKey statePath) := fun scratch =>
    not_aside_state (aside_scratch scratch)
  have stands : kernel.contents statePath = some (encode (stateText state)) :=
    bootWrite_ok (by decide) ran plain
  have whole : (.attempt (onKernel (writeState state)) >>= fun _ => rest) machine =
      rest { machine with kernel := kernel } := by
    have first : (.attempt (onKernel (writeState state)) : Action Machine Failure _) machine =
        (.ok (.ok ()), { machine with kernel := kernel }) := by
      rw [run_attempt, onKernel, Action.within, ran]
    exact run_bind_ok first _
  rw [whole, recordOf, Kernel.contents_congr (((keeps _).find _ not_aside_state)), stands]

/-- An event leaves the record that it prepared. -/
theorem recordOf_step (ready : prepared Empty event machine = (.ok state, between))
    (written : (writeState state between.kernel).1 = .ok ())
    (named : ∀ updateId reason, event = .invalid updateId reason ->
      isNone (recordedName updateId) = false)
    : recordOf (step event machine) = stateOf (some (encode (stateText state))) := by
  cases event with
  | applied updateId =>
    rcases bind_ok ready with ⟨loaded, _, opening, rest⟩
    cases rest
    rcases bind_ok opening with ⟨_, laid, layout, load⟩
    change recordOf
      (onKernel (markUpdatePending updateId) machine : Except Empty Unit × Machine).2 = _
    rw [markUpdatePending, onKernel_bind, run_bind_ok layout, onKernel_bind,
      run_bind_ok load, onKernel_bind]
    exact recordOf_written written (aside_history _ _)
  | boot =>
    rcases bind_ok ready with ⟨loaded, _, opening, rest⟩
    rcases bind_ok rest with ⟨begun, _, stepped, rest⟩
    cases rest
    rcases bind_ok opening with ⟨_, laid, layout, load⟩
    have started : beginBoot laid =
        (Action.attempt (onKernel (writeState begun.state)) >>= fun _ => do
          onKernel (appendHistory begun.action begun.details)
          barrier
          .settle begun.outcome) between :=
      (run_bind_ok (sure_loadState.elsewhere load _) _).trans
        (run_bind_ok ((sure_bootStep loaded).elsewhere stepped _) _)
    have whole : step .boot machine = (beginBoot laid).2 := by
      change (init machine : Except Empty Unit × Machine).2 = _
      rw [init, run_bind_ok layout]
      rfl
    rw [whole, started]
    exact recordOf_written written ((aside_history _ _).bind fun _ =>
      aside_barrier.bind fun _ => keeps_settle _)
  | good reason =>
    rcases bind_ok ready with ⟨loaded, _, opening, rest⟩
    rcases bind_ok rest with ⟨now, _, ticks, rest⟩
    cases rest
    rcases bind_ok opening with ⟨_, laid, layout, load⟩
    change recordOf (markGood reason machine : Except Empty Unit × Machine).2 = _
    rw [markGood, run_bind_ok layout, run_bind_ok load, run_bind_ok ticks]
    exact recordOf_written written (aside_validated _ _ _)
  | manual reason =>
    rcases bind_ok ready with ⟨loaded, _, opening, rest⟩
    rcases bind_ok rest with ⟨now, _, ticks, rest⟩
    cases rest
    rcases bind_ok opening with ⟨_, laid, layout, load⟩
    change recordOf (markManualRollback reason machine : Except Empty Unit × Machine).2 = _
    rw [markManualRollback, run_bind_ok layout, run_bind_ok load, run_bind_ok ticks]
    exact recordOf_written written (aside_validated _ _ _)
  | invalid updateId reason =>
    rcases bind_ok ready with ⟨loaded, _, opening, rest⟩
    cases rest
    have opening := sure_opened.elsewhere opening ValidationError
    rcases bind_ok opening with ⟨_, laid, layout, load⟩
    have usable : ¬ ((cleanToken updateId "manual".toList).isEmpty ||
        isNone (cleanToken updateId "manual".toList)) = true := by
      have plain := named updateId reason rfl
      rw [recordedName, isNone] at plain
      rw [isNone, plain, Bool.or_false, (Bool.or_eq_false_iff.mp plain).1]
      exact Bool.false_ne_true
    change recordOf (recordFailedValidation updateId reason machine).2 = _
    rw [recordFailedValidation]
    rw [if_neg usable, run_bind_ok layout, run_bind_ok load]
    exact recordOf_written written ((aside_history _ _).bind fun _ => aside_barrier)

/-! ## What is recorded -/

theorem bootStep_ok {after : Machine} {begun : BootStep}
    (ran : (bootStep state : Action Machine Failure BootStep) machine = (.ok begun, after)) :
    (shouldAutoRollback state = true ∧ (begun.state = recoveredState state ∨
      ∃ err, begun.state = failedState state err)) ∨
      (shouldAutoRollback state = false ∧ begun.state = startedState state) := by
  unfold bootStep at ran
  split at ran
  · next attempts =>
      rcases bind_ok ran with ⟨_, _, _, noted⟩
      rcases bind_ok noted with ⟨outcome, _, _, rolled⟩
      cases outcome with
      | ok value =>
        cases rolled
        exact .inl ⟨attempts, .inl rfl⟩
      | error err =>
        cases rolled
        exact .inl ⟨attempts, .inr ⟨err, rfl⟩⟩
  · next other =>
      refine .inr ⟨Bool.eq_false_iff.mpr other, ?_⟩
      split at ran
      · rcases bind_ok ran with ⟨_, _, _, rest⟩
        cases rest
        rfl
      · cases ran
        rfl

theorem single_message (err : UpdateError) : '\n' ∉ err.message := by
  cases err with
  | write err => cases err <;> decide
  | _ => decide

variable {state : BootState} {reason : Text}

theorem attempts_small (attempts : Nat) : min (attempts + 1) maxU32 < 2 ^ 32 := by
  rw [maxU32]
  omega

variable (read : state.Read)
include read

theorem pending_storable (updateId : Text) :
    (pendingState state updateId).Storable where
  pendingUpdate := cleanToken_token _ (by decide)
  attempts := Nat.two_pow_pos 32
  lastAutoRollback := read.lastAutoRollback
  status := by
    dsimp only [pendingState]
    decide
  reason := by
    dsimp only [pendingState]
    decide

theorem recovered_storable : (recoveredState state).Storable where
  pendingUpdate := token_noUpdate
  attempts := Nat.two_pow_pos 32
  lastAutoRollback := read.pendingUpdate
  status := by
    dsimp only [recoveredState]
    decide
  reason := by
    dsimp only [recoveredState]
    decide

theorem failed_storable (err : UpdateError) :
    (failedState state err).Storable where
  pendingUpdate := read.pendingUpdate
  attempts := attempts_small _
  lastAutoRollback := read.lastAutoRollback
  status := by
    dsimp only [failedState]
    decide
  reason := single_message err

theorem started_storable : (startedState state).Storable where
  pendingUpdate := read.pendingUpdate
  attempts := attempts_small _
  lastAutoRollback := read.lastAutoRollback
  status := by
    dsimp only [startedState]
    cases isNone state.pendingUpdate <;> decide
  reason := by
    dsimp only [startedState]
    cases isNone state.pendingUpdate <;> decide

theorem healthy_storable (now : Nat) (single : '\n' ∉ reason) :
    (healthyState state now reason).Storable where
  pendingUpdate := token_noUpdate
  attempts := Nat.two_pow_pos 32
  lastAutoRollback := read.lastAutoRollback
  status := by
    dsimp only [healthyState]
    decide
  reason := single

theorem invalid_storable {update : Text} (token : Token update)
    (single : '\n' ∉ reason) : (invalidState state update reason).Storable where
  pendingUpdate := token
  attempts := Nat.max_lt.mpr ⟨read.attempts, by decide⟩
  lastAutoRollback := read.lastAutoRollback
  status := by
    dsimp only [invalidState]
    decide
  reason := by
    dsimp only [invalidState]
    cases (trim reason).isEmpty with
    | true =>
      rw [if_pos rfl]
      decide
    | false => exact single

end CoolOs.BootHealth
